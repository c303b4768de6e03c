import Plaidify.Lib.Digests
import Plaidify.Lib.Json
import Plaidify.Lib.Separated
import Plaidify.Lib.Text

/-!
# The scope of a lock

`build_lock_scope` of `src/src/access_jobs.py`. Jobs of one scope wait for each
other. The scope of a job is the text of its site and of who it is for: a user, the
hint of a principal, of which only a digest is in the text, or nobody. Sites and
hints may hold the separator of the text, and the texts of different scopes differ
all the same (`buildLockScope_eq_iff`).
-/

namespace Plaidify.AccessJobs.LockScope

open Digests

/-! ## Scopes -/

/-- The arguments of a call. -/
structure Call where
  site : String
  userId : Option Int := none
  principalHint : Option String := none

section

variable (digest : Digest) (lower : String → String)

/-- `s.strip().lower()`. -/
def fold (s : String) : String :=
  lower (Text.strip s)

/-- The text that is hashed. -/
def hashInput (principalHint site : String) : String :=
  fold lower site ++ ":" ++ fold lower principalHint

/-- `_scope_hash`. -/
def scopeHash (principalHint site : String) : String :=
  String.ofList (shortDigest digest (hashInput lower principalHint site))

def buildLockScope (c : Call) : String :=
  let siteKey := fold lower c.site
  match c.userId with
  | some userId => "user:" ++ String.ofList (Json.intChars userId) ++ ":site:" ++ siteKey
  | none =>
      match c.principalHint with
      | some principalHint =>
          if principalHint ≠ "" then
            "principal:" ++ scopeHash digest lower principalHint siteKey ++ ":site:" ++ siteKey
          else "anonymous:site:" ++ siteKey
      | none => "anonymous:site:" ++ siteKey

/-! ## Who a job is for -/

/-- Who a job is for, whatever the site. -/
inductive Principal where
  | user (id : Int)
  | hinted (hint : String)
  | anonymous

def Call.principal (c : Call) : Principal :=
  match c.userId, c.principalHint with
  | some id, _ => .user id
  | none, some hint => if hint ≠ "" then .hinted hint else .anonymous
  | none, none => .anonymous

/-- The text that the digest is applied to, if any. -/
def hashed (c : Call) : Option String :=
  match c.principal with
  | .hinted hint => some (hashInput lower hint (fold lower c.site))
  | _ => none

/-- The call has a hint that is not empty. -/
def Call.Hinted (c : Call) : Prop :=
  ∃ hint, c.principalHint = some hint ∧ hint ≠ ""

/-- Two calls are for one site and for the same user, for the same hint or for nobody. -/
def Together (a b : Call) : Prop :=
  fold lower a.site = fold lower b.site ∧
    ((∃ id, a.userId = some id ∧ b.userId = some id) ∨
      (a.userId = none ∧ b.userId = none ∧
        ∃ h k, a.principalHint = some h ∧ b.principalHint = some k ∧ h ≠ "" ∧ k ≠ "" ∧
          fold lower h = fold lower k) ∨
      (a.userId = none ∧ b.userId = none ∧ ¬ a.Hinted ∧ ¬ b.Hinted))

end

/-! ## Folding -/

section

variable {lower : String → String} (hspace : ∀ s, Text.strip (lower s) = lower (Text.strip s))
  (hlower : ∀ s, lower (lower s) = lower s)
include hspace

/-- A folded text is trimmed. -/
theorem trimmed_fold (s : String) : Text.Trimmed (fold lower s) := by
  have hstrip : Text.strip (lower s) = fold lower s := hspace s
  rw [← hstrip]
  exact Text.trimmed_strip (lower s)

include hlower

/-- A folded text is lowered, and the case of a text is not in its folded text. -/
theorem fold_lower (s : String) :
    lower (fold lower s) = fold lower s ∧ fold lower (lower s) = fold lower s := by
  have hlowered : lower (fold lower s) = fold lower s := hlower (Text.strip s)
  refine ⟨hlowered, ?_⟩
  calc fold lower (lower s)
    _ = lower (lower (Text.strip s)) := congrArg lower (hspace s)
    _ = fold lower s := hlower (Text.strip s)

end

/-- White space around a text is not in its folded text. -/
theorem fold_surrounded {before after : List Char} (hbefore : ∀ c ∈ before, Text.isSpace c = true)
    (hafter : ∀ c ∈ after, Text.isSpace c = true) (lower : String → String) (s : String) :
    fold lower (String.ofList (before ++ s.toList ++ after)) = fold lower s := by
  obtain ⟨⟨left, right, hs, hleft, hright⟩, htrimmed⟩ := (Text.strip_eq_iff s _).mp rfl
  have hstrip : Text.strip (String.ofList (before ++ s.toList ++ after)) = Text.strip s := by
    refine (Text.strip_eq_iff _ _).mpr ⟨⟨before ++ left, right ++ after, ?_, ?_, ?_⟩, htrimmed⟩
    · rw [String.toList_ofList, hs]
      simp only [List.append_assoc]
    · exact List.forall_mem_append.mpr ⟨hbefore, hleft⟩
    · exact List.forall_mem_append.mpr ⟨hright, hafter⟩
  unfold fold
  rw [hstrip]

/-- On ASCII text, where lowering moves no white space. -/
theorem fold_asciiLower (s : String) :
    Text.Trimmed (fold Text.asciiLower s) ∧
      Text.asciiLower (fold Text.asciiLower s) = fold Text.asciiLower s :=
  ⟨trimmed_fold Text.strip_asciiLower s,
    (fold_lower Text.strip_asciiLower Text.asciiLower_asciiLower s).1⟩

/-! ## Texts of scopes -/

theorem intChars_injective : Function.Injective Json.intChars := by
  have hminus : ∀ n : Nat, '-' ∉ Nat.toDigits 10 n := by
    intro n hmem
    exact absurd (Nat.isDigit_of_mem_toDigits (by decide) (by decide) hmem) (by decide)
  have hdigits : ∀ m n : Nat, Nat.toDigits 10 m = Nat.toDigits 10 n → m = n := by
    intro m n h
    have hvalue := congrArg (fun cs => Nat.ofDigitChars 10 cs 0) h
    simpa only [Nat.ofDigitChars_ten_toDigits] using hvalue
  intro i j h
  cases i with
  | ofNat m =>
    cases j with
    | ofNat n => exact congrArg Int.ofNat (hdigits m n h)
    | negSucc n =>
      have h : Nat.toDigits 10 m = '-' :: Nat.toDigits 10 (n + 1) := h
      exact absurd (h ▸ List.mem_cons_self) (hminus m)
  | negSucc m =>
    cases j with
    | ofNat n =>
      have h : '-' :: Nat.toDigits 10 (m + 1) = Nat.toDigits 10 n := h
      exact absurd (h ▸ List.mem_cons_self) (hminus n)
    | negSucc n =>
      have hsame := hdigits (m + 1) (n + 1) (List.cons.inj h).2
      exact congrArg Int.negSucc (Nat.succ.inj hsame)

theorem colon_not_mem_intChars (i : Int) : ':' ∉ Json.intChars i := by
  have hdigits : ∀ n : Nat, ':' ∉ Nat.toDigits 10 n := by
    intro n hmem
    exact absurd (Nat.isDigit_of_mem_toDigits (by decide) (by decide) hmem) (by decide)
  cases i with
  | ofNat n => exact hdigits n
  | negSucc n =>
    intro hmem
    rcases List.mem_cons.mp hmem with hminus | hrest
    · exact absurd hminus (by decide)
    · exact hdigits (n + 1) hrest

section

variable (digest : Digest) (lower : String → String)

/-- The text of a scope for a site that is folded already. -/
def scopeText (siteKey : String) : Principal → String
  | .user id => "user:" ++ String.ofList (Json.intChars id) ++ ":site:" ++ siteKey
  | .hinted hint => "principal:" ++ scopeHash digest lower hint siteKey ++ ":site:" ++ siteKey
  | .anonymous => "anonymous:site:" ++ siteKey

theorem buildLockScope_eq (c : Call) :
    buildLockScope digest lower c = scopeText digest lower (fold lower c.site) c.principal := by
  obtain ⟨site, userId, principalHint⟩ := c
  cases userId with
  | some id => rfl
  | none =>
    cases principalHint with
    | none => rfl
    | some hint =>
      by_cases hempty : hint = ""
      · subst hempty
        rfl
      · unfold buildLockScope Call.principal
        dsimp only
        rw [if_pos hempty, if_pos hempty]
        rfl

end

variable {digest : Digest} {lower : String → String}

/-- The characters of a scope's text. -/
theorem toList_scopeText (siteKey : String) (p : Principal) :
    (scopeText digest lower siteKey p).toList =
      match p with
      | .user id => "user:".toList ++ (Json.intChars id ++ ':' :: ("site:".toList ++ siteKey.toList))
      | .hinted hint =>
          "principal:".toList ++ (shortDigest digest (hashInput lower hint siteKey) ++
            (":site:".toList ++ siteKey.toList))
      | .anonymous => "anonymous:site:".toList ++ siteKey.toList := by
  cases p with
  | user id => simp [scopeText, String.toList_append, List.append_assoc]
  | hinted hint => simp [scopeText, scopeHash, String.toList_append, List.append_assoc]
  | anonymous => simp [scopeText, String.toList_append]

theorem scopeText_user {siteKey siteKey' : String} {i j : Int}
    (h : scopeText digest lower siteKey (.user i) = scopeText digest lower siteKey' (.user j)) :
    siteKey = siteKey' ∧ i = j := by
  have hlist := congrArg String.toList h
  rw [toList_scopeText, toList_scopeText] at hlist
  obtain ⟨hid, hsite⟩ := Separated.append_cons_inj (colon_not_mem_intChars i)
    (colon_not_mem_intChars j) (List.append_cancel_left hlist)
  exact ⟨String.toList_inj.mp (List.append_cancel_left hsite), intChars_injective hid⟩

/-- The digests are of one length, so that the site behind them is the same, and with
the site the hint. -/
theorem scopeText_hinted {siteKey siteKey' h k : String}
    (hcollision : shortDigest digest (hashInput lower h siteKey) =
        shortDigest digest (hashInput lower k siteKey') →
      hashInput lower h siteKey = hashInput lower k siteKey')
    (heq : scopeText digest lower siteKey (.hinted h) =
      scopeText digest lower siteKey' (.hinted k)) :
    siteKey = siteKey' ∧ fold lower h = fold lower k := by
  have hlist := congrArg String.toList heq
  rw [toList_scopeText, toList_scopeText] at hlist
  obtain ⟨hdigest, hsite⟩ := List.append_inj (List.append_cancel_left hlist)
    ((length_shortDigest digest _).trans (length_shortDigest digest _).symm)
  obtain rfl : siteKey = siteKey' := String.toList_inj.mp (List.append_cancel_left hsite)
  have hinput := congrArg String.toList (hcollision hdigest)
  simp only [hashInput, String.toList_append] at hinput
  exact ⟨rfl, String.toList_inj.mp (List.append_cancel_left hinput)⟩

theorem scopeText_anonymous {siteKey siteKey' : String}
    (h : scopeText digest lower siteKey .anonymous =
      scopeText digest lower siteKey' .anonymous) : siteKey = siteKey' := by
  have hlist := congrArg String.toList h
  rw [toList_scopeText, toList_scopeText] at hlist
  exact String.toList_inj.mp (List.append_cancel_left hlist)

/-! ## Calls of one scope -/

theorem principal_user_iff {c : Call} {id : Int} :
    c.principal = .user id ↔ c.userId = some id := by
  obtain ⟨site, userId, principalHint⟩ := c
  cases userId with
  | some i => simp [Call.principal]
  | none =>
    cases principalHint with
    | none => simp [Call.principal]
    | some hint => by_cases hempty : hint = "" <;> simp [Call.principal, hempty]

theorem principal_hinted_iff {c : Call} {hint : String} :
    c.principal = .hinted hint ↔
      c.userId = none ∧ c.principalHint = some hint ∧ hint ≠ "" := by
  obtain ⟨site, userId, principalHint⟩ := c
  cases userId with
  | some i => simp [Call.principal]
  | none =>
    cases principalHint with
    | none => simp [Call.principal]
    | some h =>
      by_cases hempty : h = ""
      · subst hempty
        simp only [Call.principal, ne_eq, not_true_eq_false, if_false, reduceCtorEq,
          Option.some.injEq, true_and, false_iff, not_and, not_not]
        exact fun heq => heq.symm
      · simp only [Call.principal, ne_eq, hempty, not_false_eq_true, if_true,
          Principal.hinted.injEq, Option.some.injEq, true_and]
        exact ⟨fun heq => ⟨heq, heq ▸ hempty⟩, fun h => h.1⟩

theorem principal_anonymous_iff {c : Call} :
    c.principal = .anonymous ↔ c.userId = none ∧ ¬ c.Hinted := by
  obtain ⟨site, userId, principalHint⟩ := c
  cases userId with
  | some i => simp [Call.principal]
  | none =>
    cases principalHint with
    | none => simp [Call.principal, Call.Hinted]
    | some h => by_cases hempty : h = "" <;> simp [Call.principal, Call.Hinted, hempty]

theorem mem_hashed {c : Call} {hint : String} (h : c.principal = .hinted hint) :
    hashInput lower hint (fold lower c.site) ∈ hashed lower c := by
  unfold hashed
  rw [h]
  rfl

/-- The three kinds of scopes start with different words. -/
theorem together_of_eq {a b : Call}
    (hcollision : ∀ x ∈ hashed lower a, ∀ y ∈ hashed lower b,
      shortDigest digest x = shortDigest digest y → x = y)
    (h : buildLockScope digest lower a = buildLockScope digest lower b) : Together lower a b := by
  rw [buildLockScope_eq, buildLockScope_eq] at h
  have hword := congrArg (fun s => s.toList.head?) h
  simp only [toList_scopeText] at hword
  cases ha : a.principal with
  | user i =>
    cases hb : b.principal with
    | user j =>
      rw [ha, hb] at h
      obtain ⟨hsite, rfl⟩ := scopeText_user h
      exact ⟨hsite, .inl ⟨i, principal_user_iff.mp ha, principal_user_iff.mp hb⟩⟩
    | hinted k => simp [ha, hb] at hword
    | anonymous => simp [ha, hb] at hword
  | hinted hint =>
    cases hb : b.principal with
    | user j => simp [ha, hb] at hword
    | hinted k =>
      rw [ha, hb] at h
      obtain ⟨hsite, hfold⟩ :=
        scopeText_hinted (hcollision _ (mem_hashed ha) _ (mem_hashed hb)) h
      obtain ⟨hauser, hahint, hane⟩ := principal_hinted_iff.mp ha
      obtain ⟨hbuser, hbhint, hbne⟩ := principal_hinted_iff.mp hb
      exact ⟨hsite, .inr (.inl ⟨hauser, hbuser, hint, k, hahint, hbhint, hane, hbne, hfold⟩)⟩
    | anonymous => simp [ha, hb] at hword
  | anonymous =>
    cases hb : b.principal with
    | user j => simp [ha, hb] at hword
    | hinted k => simp [ha, hb] at hword
    | anonymous =>
      rw [ha, hb] at h
      obtain ⟨hauser, hahint⟩ := principal_anonymous_iff.mp ha
      obtain ⟨hbuser, hbhint⟩ := principal_anonymous_iff.mp hb
      exact ⟨scopeText_anonymous h, .inr (.inr ⟨hauser, hbuser, hahint, hbhint⟩)⟩

theorem eq_of_together {a b : Call} (h : Together lower a b) :
    buildLockScope digest lower a = buildLockScope digest lower b := by
  rw [buildLockScope_eq, buildLockScope_eq]
  obtain ⟨hsite, hprincipal⟩ := h
  rw [hsite]
  rcases hprincipal with ⟨id, ha, hb⟩ | ⟨ha, hb, h, k, hah, hbk, hh, hk, hfold⟩ |
    ⟨ha, hb, hah, hbk⟩
  · rw [principal_user_iff.mpr ha, principal_user_iff.mpr hb]
  · have hinput : hashInput lower h (fold lower b.site) = hashInput lower k (fold lower b.site) := by
      unfold hashInput
      rw [hfold]
    rw [principal_hinted_iff.mpr ⟨ha, hah, hh⟩, principal_hinted_iff.mpr ⟨hb, hbk, hk⟩]
    unfold scopeText scopeHash
    dsimp only
    rw [hinput]
  · rw [principal_anonymous_iff.mpr ⟨ha, hah⟩, principal_anonymous_iff.mpr ⟨hb, hbk⟩]

/-- Unless their digests collide, two calls get one scope exactly if they are for one
site and for the same principal. -/
theorem buildLockScope_eq_iff {a b : Call}
    (hcollision : ∀ x ∈ hashed lower a, ∀ y ∈ hashed lower b,
      shortDigest digest x = shortDigest digest y → x = y) :
    buildLockScope digest lower a = buildLockScope digest lower b ↔ Together lower a b :=
  ⟨together_of_eq hcollision, eq_of_together⟩

/-- The digest of `hydro:one:alice`. -/
def aliceDigest : Digest := fun _ =>
  ⟨[58, 72, 172, 61, 27, 161, 251, 192, 169, 247, 238, 165, 42, 0, 46, 176, 136, 192, 84, 172, 169,
    250, 50, 60, 151, 15, 34, 85, 213, 254, 249, 44], rfl⟩

/-- One text is hashed for two sites that hold the separator. -/
theorem hashed_once_scopes :
    hashed Text.asciiLower { site := " Hydro:One", principalHint := some "alice" } =
        hashed Text.asciiLower { site := "hydro", principalHint := some "one:Alice" } ∧
      (buildLockScope aliceDigest Text.asciiLower
            { site := " Hydro:One", principalHint := some "alice" } =
          buildLockScope aliceDigest Text.asciiLower
            { site := "hydro", principalHint := some "one:Alice" } ↔
        Together Text.asciiLower { site := " Hydro:One", principalHint := some "alice" }
          { site := "hydro", principalHint := some "one:Alice" }) := by
  have hone : hashed Text.asciiLower { site := " Hydro:One", principalHint := some "alice" } =
      some "hydro:one:alice" := by decide
  have hother : hashed Text.asciiLower { site := "hydro", principalHint := some "one:Alice" } =
      some "hydro:one:alice" := by decide
  refine ⟨hone.trans hother.symm, buildLockScope_eq_iff fun x hx y hy _ => ?_⟩
  rw [hone] at hx
  rw [hother] at hy
  exact Option.some.inj (hx.symm.trans hy)

end Plaidify.AccessJobs.LockScope
