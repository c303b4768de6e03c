import Mathlib.Data.List.Nodup

/-!
# Tables with a primary key

A table is a list of rows with distinct keys; the distinctness is a field, so
every operation below keeps it by construction. A query without an order sees
the rows in the order of the list.
-/

universe u v

/-- Rows of type `α` with the primary key `key`. -/
structure Table (α : Type u) {κ : Type v} (key : α → κ) where
  rows : List α
  nodup : (rows.map key).Nodup

namespace Table

variable {α : Type u} {κ : Type v} {key : α → κ}

def empty : Table α key := ⟨[], List.nodup_nil⟩

/-- Delete the rows that meet `p`. -/
def delete (t : Table α key) (p : α → Bool) : Table α key :=
  ⟨t.rows.filter fun r => !p r, t.nodup.sublist (List.filter_sublist.map key)⟩

/-- Drop the first rows. -/
def drop (t : Table α key) (n : Nat) : Table α key :=
  ⟨t.rows.drop n, t.nodup.sublist ((List.drop_sublist n t.rows).map key)⟩

@[simp] theorem drop_rows (t : Table α key) (n : Nat) : (t.drop n).rows = t.rows.drop n := rfl

@[simp] theorem empty_rows : (empty : Table α key).rows = [] := rfl

@[simp] theorem delete_rows (t : Table α key) (p : α → Bool) :
    (t.delete p).rows = t.rows.filter fun r => !p r := rfl

theorem eq_of_key_eq {t : Table α key} {a b : α} (ha : a ∈ t.rows) (hb : b ∈ t.rows)
    (h : key a = key b) : a = b :=
  List.inj_on_of_nodup_map t.nodup ha hb h

/-- Rewrite every row by a function that keeps the key. -/
def map (t : Table α key) (f : α → α) (hf : ∀ a, key (f a) = key a) : Table α key :=
  ⟨t.rows.map f, by
    rw [List.map_map]
    have hkeys : key ∘ f = key := funext hf
    rw [hkeys]
    exact t.nodup⟩

@[simp] theorem map_rows (t : Table α key) (f : α → α) (hf : ∀ a, key (f a) = key a) :
    (t.map f hf).rows = t.rows.map f := rfl

theorem ext_rows {t t' : Table α key} (h : t.rows = t'.rows) : t = t' := by
  cases t
  cases t'
  subst h
  rfl

/-- What a list of results of a function that may fail consists of. -/
theorem forall₂_of_mapM {β : Type*} {f : α → Option β} {l : List α} {l' : List β}
    (h : l.mapM f = some l') : List.Forall₂ (fun a b => f a = some b) l l' := by
  induction l generalizing l' with
  | nil =>
      obtain rfl : [] = l' := by simpa using h
      exact .nil
  | cons a l ih =>
      simp only [List.mapM_cons, Option.bind_eq_bind, Option.bind_eq_some_iff] at h
      obtain ⟨b, hb, bs, hbs, h⟩ := h
      obtain rfl := Option.some.inj h
      exact .cons hb (ih hbs)

theorem map_key_of_forall₂ {f : α → Option α} (hf : ∀ a b, f a = some b → key b = key a)
    {l l' : List α} (h : List.Forall₂ (fun a b => f a = some b) l l') :
    l'.map key = l.map key := by
  induction h with
  | nil => rfl
  | cons hab _ ih => rw [List.map_cons, List.map_cons, hf _ _ hab, ih]

theorem mem_right_of_forall₂ {β γ : Type*} {R : β → γ → Prop} {l : List β} {l' : List γ}
    (h : List.Forall₂ R l l') {a : β} (ha : a ∈ l) : ∃ b ∈ l', R a b := by
  induction h with
  | nil => exact absurd ha (by simp)
  | cons hab _ ih =>
      rcases List.mem_cons.mp ha with rfl | ha
      · exact ⟨_, List.mem_cons_self, hab⟩
      · obtain ⟨b, hb, hR⟩ := ih ha
        exact ⟨b, List.mem_cons_of_mem _ hb, hR⟩

theorem eq_map_of_forall₂ {β γ : Type*} {f : β → Option γ} {g : β → γ} {l : List β} {l' : List γ}
    (h : List.Forall₂ (fun a b => f a = some b) l l') (hg : ∀ a ∈ l, f a = some (g a)) :
    l' = l.map g := by
  induction h with
  | nil => rfl
  | cons hab _ ih =>
      rw [List.map_cons, ih fun a ha => hg a (List.mem_cons_of_mem _ ha)]
      rw [hg _ List.mem_cons_self] at hab
      rw [Option.some.inj hab]

/-- Rewrite every row by a function that keeps the keys and may fail. -/
def rewrite? (t : Table α key) (f : α → Option α) (hf : ∀ a b, f a = some b → key b = key a) :
    Option (Table α key) :=
  match h : t.rows.mapM f with
  | none => none
  | some rows => some ⟨rows, by
      rw [map_key_of_forall₂ hf (forall₂_of_mapM h)]
      exact t.nodup⟩

theorem rewrite?_rows {t t' : Table α key} {f : α → Option α}
    {hf : ∀ a b, f a = some b → key b = key a} (h : t.rewrite? f hf = some t') :
    List.Forall₂ (fun a b => f a = some b) t.rows t'.rows := by
  unfold rewrite? at h
  split at h
  · exact absurd h (by simp)
  · rename_i rows hrows
    obtain rfl := Option.some.inj h
    exact forall₂_of_mapM hrows

/-- Row by row, a rewritten table comes from the one before. -/
theorem rewrite?_eq_some {t t' : Table α key} {f : α → Option α}
    {hf : ∀ a b, f a = some b → key b = key a} (h : t.rewrite? f hf = some t') :
    (∀ a ∈ t.rows, ∃ b ∈ t'.rows, f a = some b) ∧ ∀ b ∈ t'.rows, ∃ a ∈ t.rows, f a = some b := by
  have hrel := rewrite?_rows h
  exact ⟨fun a ha => mem_right_of_forall₂ hrel ha, fun b hb => mem_right_of_forall₂ hrel.flip hb⟩

variable [DecidableEq κ]

/-- The row with this key. -/
def get? (t : Table α key) (k : κ) : Option α :=
  t.rows.find? fun r => decide (key r = k)

/-- Insert a row under a key that is not in the table. -/
def insert? (t : Table α key) (a : α) : Option (Table α key) :=
  if h : key a ∈ t.rows.map key then none
  else some ⟨t.rows ++ [a], by
    rw [List.map_append, List.map_singleton]
    exact List.nodup_append.mpr ⟨t.nodup, List.nodup_singleton _, by
      intro x hx y hy hxy
      rw [List.mem_singleton.mp hy] at hxy
      exact h (hxy ▸ hx)⟩⟩

/-- Overwriting rows with a row of the same key keeps the keys. -/
theorem map_key_overwrite (rows : List α) (a : α) :
    (rows.map fun r => if key r = key a then a else r).map key = rows.map key := by
  rw [List.map_map]
  refine List.map_congr_left fun r _ => ?_
  by_cases h : key r = key a
  · simp [h]
  · simp [h]

/-- Write a row in the place of the one with its key. -/
def put (t : Table α key) (a : α) : Table α key :=
  ⟨t.rows.map fun r => if key r = key a then a else r, by
    rw [map_key_overwrite]
    exact t.nodup⟩

@[simp] theorem put_rows (t : Table α key) (a : α) :
    (t.put a).rows = t.rows.map fun r => if key r = key a then a else r := rfl

/-- Assign a key of a dictionary: an old key keeps its place, a new one comes last. -/
def assign (t : Table α key) (a : α) : Table α key :=
  (t.insert? a).getD (t.put a)

/-- Write a row under its key, whether or not the key is in the table. -/
def set (t : Table α key) (a : α) : Table α key :=
  ⟨(t.rows.filter fun r => decide (key r ≠ key a)) ++ [a], by
    rw [List.map_append, List.map_singleton]
    refine List.nodup_append.mpr
      ⟨t.nodup.sublist (List.filter_sublist.map key), List.nodup_singleton _, ?_⟩
    intro k hk k' hk'
    obtain ⟨r, hr, rfl⟩ := List.mem_map.mp hk
    have hne := (List.mem_filter.mp hr).2
    rw [List.mem_singleton.mp hk']
    simpa using hne⟩

@[simp] theorem set_rows (t : Table α key) (a : α) :
    (t.set a).rows = (t.rows.filter fun r => decide (key r ≠ key a)) ++ [a] := rfl

/-- A row is the one that was set, or was there before. -/
theorem mem_set {t : Table α key} {a r : α} (h : r ∈ (t.set a).rows) : r = a ∨ r ∈ t.rows := by
  rw [set_rows] at h
  rcases List.mem_append.mp h with hold | hnew
  · exact .inr (List.mem_filter.mp hold).1
  · exact .inl (List.mem_singleton.mp hnew)

theorem insert?_eq_some {t t' : Table α key} {a : α} (h : t.insert? a = some t') :
    key a ∉ t.rows.map key ∧ t'.rows = t.rows ++ [a] := by
  unfold insert? at h
  split at h
  · exact absurd h (by simp)
  · rename_i hkey
    obtain rfl := Option.some.inj h
    exact ⟨hkey, rfl⟩

theorem get?_mem {t : Table α key} {k : κ} {a : α} (h : t.get? k = some a) :
    a ∈ t.rows ∧ key a = k :=
  ⟨List.mem_of_find?_eq_some h, by simpa using List.find?_some h⟩

/-- A row is found under its key. -/
theorem get?_of_mem {t : Table α key} {a : α} (h : a ∈ t.rows) : t.get? (key a) = some a := by
  cases hget : t.get? (key a) with
  | none =>
      exact absurd (decide_eq_true rfl) (List.find?_eq_none.mp hget a h)
  | some b =>
      obtain ⟨hb, hkey⟩ := get?_mem hget
      rw [eq_of_key_eq hb h hkey]

theorem get?_eq_some_iff {t : Table α key} {k : κ} {a : α} :
    t.get? k = some a ↔ a ∈ t.rows ∧ key a = k := by
  constructor
  · exact get?_mem
  · rintro ⟨ha, rfl⟩
    exact get?_of_mem ha

/-- Deleting a key leaves no row under it. -/
theorem get?_delete_key [BEq κ] [LawfulBEq κ] (t : Table α key) (k : κ) :
    (t.delete fun r => key r == k).get? k = none := by
  refine List.find?_eq_none.mpr fun r hr => ?_
  rw [delete_rows, List.mem_filter] at hr
  simpa using hr.2

/-- Reading after a deletion finds the rows that were spared. -/
theorem get?_delete_eq_some {t : Table α key} {p : α → Bool} {k : κ} {a : α} :
    (t.delete p).get? k = some a ↔ t.get? k = some a ∧ p a = false := by
  rw [get?_eq_some_iff, get?_eq_some_iff, delete_rows, List.mem_filter, Bool.not_eq_true']
  tauto

theorem get?_insert {t t' : Table α key} {a b : α} {k : κ} (h : t.insert? a = some t')
    (hget : t.get? k = some b) : t'.get? k = some b := by
  obtain ⟨hb, hkey⟩ := get?_mem hget
  refine get?_eq_some_iff.mpr ⟨?_, hkey⟩
  rw [(insert?_eq_some h).2]
  exact List.mem_append_left _ hb

theorem get?_rewrite {t t' : Table α key} {f : α → Option α}
    {hf : ∀ a b, f a = some b → key b = key a} (h : t.rewrite? f hf = some t') {k : κ} {a : α}
    (hget : t.get? k = some a) : ∃ b, f a = some b ∧ t'.get? k = some b := by
  obtain ⟨ha, hkey⟩ := get?_mem hget
  obtain ⟨b, hb, hab⟩ := (rewrite?_eq_some h).1 a ha
  exact ⟨b, hab, get?_eq_some_iff.mpr ⟨hb, (hf a b hab).trans hkey⟩⟩

theorem get?_put_of_ne {t : Table α key} {a b : α} {k : κ} (hne : k ≠ key a)
    (hget : t.get? k = some b) : (t.put a).get? k = some b := by
  obtain ⟨hb, rfl⟩ := get?_mem hget
  refine get?_eq_some_iff.mpr ⟨?_, rfl⟩
  rw [put_rows]
  exact List.mem_map.mpr ⟨b, hb, if_neg hne⟩

/-- Reading after `put`, under any key. -/
theorem get?_put_eq (t : Table α key) (a : α) (k : κ) :
    (t.put a).get? k = if k = key a then (t.get? k).map fun _ => a else t.get? k := by
  have hfind : (t.put a).get? k = (t.get? k).map fun r => if key r = key a then a else r := by
    unfold get?
    rw [put_rows, List.find?_map]
    have hsame : (fun r => decide (key r = k)) ∘ (fun r => if key r = key a then a else r) =
        fun r => decide (key r = k) := by
      funext r
      by_cases h : key r = key a
      · simp [h]
      · simp [h]
    rw [hsame]
  rw [hfind]
  cases hget : t.get? k with
  | none => simp
  | some r =>
      obtain ⟨-, rfl⟩ := get?_mem hget
      by_cases h : key r = key a
      · simp [h]
      · simp [h]

/-- What `put` writes over an existing row is found under its key. -/
theorem get?_put {t : Table α key} {a b : α} (h : t.get? (key a) = some b) :
    (t.put a).get? (key a) = some a := by
  obtain ⟨hb, hkey⟩ := get?_mem h
  refine get?_eq_some_iff.mpr ⟨?_, rfl⟩
  rw [put_rows, List.mem_map]
  exact ⟨b, hb, by simp [hkey]⟩

/-- The row of a list that takes the place of another, if there is one. -/
def replacement (key : α → κ) (rows : List α) (r : α) : α :=
  (rows.find? fun a => decide (key a = key r)).getD r

theorem replacement_of_mem {rows : List α} (hnodup : (rows.map key).Nodup) {a : α} (ha : a ∈ rows)
    {r : α} (h : key a = key r) : replacement key rows r = a := by
  unfold replacement
  rw [← h]
  have hfind : rows.find? (fun b => decide (key b = key a)) = some a :=
    get?_of_mem (t := ⟨rows, hnodup⟩) ha
  rw [hfind, Option.getD_some]

theorem replacement_of_not_mem {rows : List α} {r : α} (h : key r ∉ rows.map key) :
    replacement key rows r = r := by
  unfold replacement
  have hfind : rows.find? (fun a => decide (key a = key r)) = none := by
    refine List.find?_eq_none.mpr fun a ha => ?_
    have hne : key a ≠ key r := fun heq => h (List.mem_map.mpr ⟨a, ha, heq⟩)
    simpa using hne
  rw [hfind, Option.getD_none]

/-- Rows with distinct keys, written one after the other. -/
theorem foldl_put_rows {rows : List α} (hnodup : (rows.map key).Nodup) (t : Table α key) :
    (rows.foldl put t).rows = t.rows.map (replacement key rows) := by
  induction rows generalizing t with
  | nil => exact (List.map_id' t.rows).symm
  | cons a rows ih =>
      rcases List.nodup_cons.mp hnodup with ⟨hnew, hrest⟩
      rw [List.foldl_cons, ih hrest, put_rows, List.map_map]
      refine List.map_congr_left fun r _ => ?_
      show replacement key rows (if key r = key a then a else r) = _
      by_cases h : key r = key a
      · rw [if_pos h, replacement_of_not_mem hnew,
          replacement_of_mem hnodup List.mem_cons_self h.symm]
      · have hskip : (a :: rows).find? (fun b => decide (key b = key r)) =
            rows.find? (fun b => decide (key b = key r)) :=
          List.find?_cons_of_neg (by simpa using fun heq : key a = key r => h heq.symm)
        rw [if_neg h]
        unfold replacement
        rw [hskip]

/-- Writing rows changes nothing exactly if they are there already. -/
theorem foldl_put_eq_iff {rows : List α} (hnodup : (rows.map key).Nodup) {t : Table α key}
    (hkeys : ∀ a ∈ rows, key a ∈ t.rows.map key) :
    rows.foldl put t = t ↔ ∀ a ∈ rows, a ∈ t.rows := by
  constructor
  · intro h a ha
    rcases List.mem_map.mp (hkeys a ha) with ⟨r, hr, hkey⟩
    have hmem : replacement key rows r ∈ (rows.foldl put t).rows := by
      rw [foldl_put_rows hnodup]
      exact List.mem_map_of_mem hr
    rwa [replacement_of_mem hnodup ha hkey.symm, h] at hmem
  · intro h
    apply ext_rows
    rw [foldl_put_rows hnodup]
    have hsame : ∀ r ∈ t.rows, replacement key rows r = id r := by
      intro r hr
      by_cases hkey : key r ∈ rows.map key
      · rcases List.mem_map.mp hkey with ⟨a, ha, heq⟩
        rw [replacement_of_mem hnodup ha heq]
        exact eq_of_key_eq (h a ha) hr heq
      · exact replacement_of_not_mem hkey
    rw [List.map_congr_left hsame, List.map_id]

/-- Reading after `set`, under any key. -/
theorem get?_set (t : Table α key) (a : α) (k : κ) :
    (t.set a).get? k = if k = key a then some a else t.get? k := by
  unfold get?
  rw [set_rows, List.find?_append, List.find?_filter]
  by_cases hk : k = key a
  · have hnone : t.rows.find? (fun r => decide (decide (key r ≠ key a) = true ∧
        decide (key r = k) = true)) = none := by
      refine List.find?_eq_none.mpr fun r _ => ?_
      simp [hk]
    rw [hnone, if_pos hk]
    simp [hk]
  · have hsame : (fun r => decide (decide (key r ≠ key a) = true ∧ decide (key r = k) = true)) =
        fun r => decide (key r = k) := by
      funext r
      by_cases hr : key r = k
      · simp [hr, hk]
      · simp [hr]
    rw [hsame, if_neg hk]
    simp [Ne.symm hk]

/-- A new key comes last. -/
theorem assign_rows_of_not_mem {t : Table α key} {a : α} (h : key a ∉ t.rows.map key) :
    (t.assign a).rows = t.rows ++ [a] := by
  unfold assign
  rw [insert?, dif_neg h, Option.getD_some]

/-- Reading after `assign`, under any key. -/
theorem get?_assign (t : Table α key) (a : α) (k : κ) :
    (t.assign a).get? k = if k = key a then some a else t.get? k := by
  unfold assign
  cases hinsert : t.insert? a with
  | none =>
      -- the key is in the table, so that its row is overwritten
      have hmem : key a ∈ t.rows.map key := by
        by_contra hnot
        rw [insert?, dif_neg hnot] at hinsert
        cases hinsert
      rcases List.mem_map.mp hmem with ⟨r, hr, hkey⟩
      rw [Option.getD_none, get?_put_eq]
      by_cases hk : k = key a
      · rw [if_pos hk, if_pos hk, hk, ← hkey, get?_of_mem hr]
        rfl
      · rw [if_neg hk, if_neg hk]
  | some t' =>
      rcases insert?_eq_some hinsert with ⟨hnew, hrows⟩
      rw [Option.getD_some, get?, hrows, List.find?_append]
      by_cases hk : k = key a
      · have hnone : t.rows.find? (fun r => decide (key r = k)) = none := by
          refine List.find?_eq_none.mpr fun r hr => ?_
          have hne : key r ≠ key a := fun h => hnew (List.mem_map.mpr ⟨r, hr, h⟩)
          simpa [hk] using hne
        rw [hnone, if_pos hk]
        simp [hk]
      · have hne : key a ≠ k := fun h => hk h.symm
        rw [if_neg hk]
        simp [get?, hne]

theorem map_get?_assign {β : Type*} (f : α → β) (t : Table α key) (a : α) (k : κ) :
    ((t.assign a).get? k).map f = if k = key a then some (f a) else (t.get? k).map f := by
  rw [get?_assign]
  by_cases hk : k = key a
  · rw [if_pos hk, if_pos hk, Option.map_some]
  · rw [if_neg hk, if_neg hk]

theorem map_get?_delete_key [BEq κ] [LawfulBEq κ] {β : Type*} (f : α → β) (t : Table α key)
    (k k' : κ) : ((t.delete fun r => key r == k).get? k').map f =
      if k' = k then none else (t.get? k').map f := by
  by_cases hk : k' = k
  · rw [if_pos hk, hk, get?_delete_key, Option.map_none]
  · rw [if_neg hk]
    congr 1
    refine Option.ext fun r => ?_
    rw [get?_delete_eq_some]
    refine and_iff_left_of_imp fun hr => ?_
    rw [(get?_mem hr).2]
    simpa using hk

theorem mem_put {t : Table α key} {a r : α} (h : r ∈ (t.put a).rows) :
    r = a ∨ (r ∈ t.rows ∧ key r ≠ key a) := by
  rw [put_rows] at h
  obtain ⟨r', hr', heq⟩ := List.mem_map.mp h
  by_cases hkey : key r' = key a
  · rw [if_pos hkey] at heq
    exact .inl heq.symm
  · rw [if_neg hkey] at heq
    subst heq
    exact .inr ⟨hr', hkey⟩

theorem mem_put_of_ne {t : Table α key} {a r : α} (hr : r ∈ t.rows) (hne : key r ≠ key a) :
    r ∈ (t.put a).rows := by
  rw [put_rows]
  exact List.mem_map.mpr ⟨r, hr, if_neg hne⟩

theorem mem_put_self {t : Table α key} {a b : α} (hb : b ∈ t.rows) (hkey : key b = key a) :
    a ∈ (t.put a).rows := by
  rw [put_rows]
  exact List.mem_map.mpr ⟨b, hb, if_pos hkey⟩

/-- What a row is replaced by shows only in the columns in which the two differ. -/
theorem map_put {β : Type*} {t : Table α key} {a b : α} {f : α → β} (hb : b ∈ t.rows)
    (hkey : key b = key a) (hf : f a = f b) : (t.put a).rows.map f = t.rows.map f := by
  rw [put_rows, List.map_map]
  refine List.map_congr_left fun r hr => ?_
  by_cases h : key r = key a
  · have hrb : r = b := eq_of_key_eq hr hb (h.trans hkey.symm)
    subst hrb
    simp [h, hf]
  · simp [h]

/-- The first row that meets a condition is still the first one after the rows
that meet it were rewritten without changing whether they do. -/
theorem find?_put {t : Table α key} {a b : α} {p : α → Bool} (hb : t.rows.find? p = some b)
    (hkey : key b = key a) (hp : p a = true) : (t.put a).rows.find? p = some a := by
  rw [put_rows, List.find?_map]
  have hfind : t.rows.find? (p ∘ fun r => if key r = key a then a else r) = some b := by
    obtain ⟨hpb, before, after, heq, hbefore⟩ := List.find?_eq_some_iff_append.mp hb
    refine List.find?_eq_some_iff_append.mpr ⟨by simp [hkey, hp], before, after, heq, ?_⟩
    intro r hr
    have hne : key r ≠ key a := by
      intro h
      have hmem : r ∈ t.rows := by rw [heq]; simp [hr]
      have hb' : b ∈ t.rows := by rw [heq]; simp
      have hrb : r = b := eq_of_key_eq hmem hb' (h.trans hkey.symm)
      have hnot := hbefore r hr
      rw [hrb, hpb] at hnot
      exact absurd hnot (by simp)
    simpa [hne] using hbefore r hr
  rw [hfind]
  simp [hkey]

/-! ## Rewritten rows -/

variable {f : α → α} {hf : ∀ a, key (f a) = key a}

theorem get?_map (t : Table α key) (k : κ) : (t.map f hf).get? k = (t.get? k).map f := by
  unfold get?
  rw [map_rows, List.find?_map]
  have hsame : (fun r => decide (key r = k)) ∘ f = fun r => decide (key r = k) := by
    funext r
    simp [hf]
  rw [hsame]

theorem put_map (t : Table α key) (a : α) : (t.map f hf).put (f a) = (t.put a).map f hf := by
  apply ext_rows
  rw [put_rows, map_rows, map_rows, put_rows, List.map_map, List.map_map]
  refine List.map_congr_left fun r _ => ?_
  by_cases h : key r = key a
  · simp [hf, h]
  · simp [hf, h]

theorem set_map (t : Table α key) (a : α) : (t.map f hf).set (f a) = (t.set a).map f hf := by
  apply ext_rows
  rw [set_rows, map_rows, map_rows, set_rows, List.map_append, List.filter_map]
  simp [Function.comp_def, hf]

end Table
