import Mathlib.Algebra.Group.Nat.Defs
import Mathlib.Data.Bool.AllAny
import Mathlib.Data.List.Basic
import Plaidify.Lib.Separated

/-!
# Origins of URLs

The origins of the two web schemes, as the URL Standard has them and browsers
write them in an `Origin` header, and the source expressions of a content
security policy that match one origin alone.

How a browser reads a URL is a parameter. What is asked of it is that it reads
back what it writes.
-/

namespace Origins

/-! ## Origins -/

inductive Scheme where
  | http
  | https
deriving Repr, DecidableEq

def Scheme.text : Scheme → List Char
  | .http => "http".toList
  | .https => "https".toList

/-- The default port. -/
def Scheme.port : Scheme → Nat
  | .http => 80
  | .https => 443

/-- What a serialised host looks like: ASCII in lower case without a character
that would end it, and an IPv6 address in brackets. -/
structure HostText (name : List Char) : Prop where
  nonempty : name ≠ []
  chars : ∀ c ∈ name, 0x21 ≤ c.toNat ∧ c.toNat ≤ 0x7e ∧ c ∉ ['/', '?', '#'] ∧ c.toLower = c
  colon : ':' ∈ name → name.head? = some '['

/-- An origin with a host of this kind; its default port is not written. -/
structure Origin (host : List Char → Prop) where
  scheme : Scheme
  name : List Char
  port : Option Nat
  isHost : host name
  /-- Ports are 16 bits wide. -/
  isPort : ∀ number ∈ port, number < 2 ^ 16
  notDefault : port ≠ some scheme.port

def portText : Option Nat → List Char
  | none => []
  | some port => ':' :: Nat.toDigits 10 port

/-- The ASCII serialisation of an origin. -/
def Origin.serialise {host : List Char → Prop} (o : Origin host) : List Char :=
  o.scheme.text ++ ':' :: '/' :: '/' :: (o.name ++ portText o.port)

/-- How a browser reads URLs, as far as their origins go. -/
structure Browser where
  /-- The hosts that it writes. -/
  host : List Char → Prop
  hostText : ∀ name, host name → HostText name
  /-- The origin of the URL that a text is parsed to. -/
  originOf : List Char → Option (Origin host)
  originOf_serialise : ∀ o : Origin host, originOf o.serialise = some o

/-! ## Source expressions -/

/-- `host-part` without a wildcard: labels with dots between them, and perhaps one
at the end. -/
structure HostPart (name : List Char) : Prop where
  nonempty : name ≠ []
  chars : ∀ c ∈ name, (c.isAlphanum || c == '-' || c == '.') = true
  first : name.head? ≠ some '.'
  separate : ¬['.', '.'] <:+: name

variable {host : List Char → Prop}

/-- `port-part` against the port of an origin. -/
def PortMatches (o : Origin host) : List Char → Prop
  | [] => o.port = none
  | c :: digits => c = ':' ∧ digits ≠ [] ∧ (∀ d ∈ digits, d.isDigit = true) ∧
      Nat.ofDigitChars 10 digits 0 = o.port.getD o.scheme.port

/-- The text is a `host-source` with a scheme, and matches this origin alone. -/
def Expresses (text : List Char) (o : Origin host) : Prop :=
  ∃ scheme name port, text = scheme ++ ':' :: '/' :: '/' :: (name ++ port) ∧
    scheme.map Char.toLower = o.scheme.text ∧ HostPart name ∧ name.map Char.toLower = o.name ∧
    PortMatches o port

/-! ## Serialisations -/

theorem serialise_injective (b : Browser) {o o' : Origin b.host} (h : o.serialise = o'.serialise) :
    o = o' := by
  have hread := b.originOf_serialise o
  rw [h, b.originOf_serialise o'] at hread
  exact (Option.some.inj hread).symm

theorem digits_chars {port : Nat} {c : Char} (h : c ∈ Nat.toDigits 10 port) :
    0x30 ≤ c.toNat ∧ c.toNat ≤ 0x39 := by
  have hdigit := Nat.isDigit_of_mem_toDigits (by decide) (by decide) h
  rw [Char.isDigit, Bool.and_eq_true, decide_eq_true_eq, decide_eq_true_eq] at hdigit
  exact hdigit

theorem scheme_chars (scheme : Scheme) :
    ∀ c ∈ scheme.text, 0x61 ≤ c.toNat ∧ c.toNat ≤ 0x7a ∧ c.toLower = c := by
  cases scheme with
  | http => exact List.all_iff_forall_prop.mp (by decide)
  | https => exact List.all_iff_forall_prop.mp (by decide)

theorem portText_chars {port : Option Nat} {c : Char} (h : c ∈ portText port) :
    0x30 ≤ c.toNat ∧ c.toNat ≤ 0x3a := by
  cases port with
  | none => cases h
  | some port =>
      rcases List.mem_cons.mp h with rfl | hdigit
      · decide
      · have hchars := digits_chars hdigit
        omega

/-- The characters of a serialisation are graphic ones. -/
theorem serialise_chars {o : Origin host} (hname : HostText o.name) {c : Char}
    (h : c ∈ o.serialise) : 0x21 ≤ c.toNat ∧ c.toNat ≤ 0x7e := by
  rcases List.mem_append.mp h with hscheme | hrest
  · have hchars := scheme_chars o.scheme c hscheme
    omega
  · simp only [List.mem_cons, List.mem_append] at hrest
    rcases hrest with rfl | rfl | rfl | hhost | hport
    · decide
    · decide
    · decide
    · have hchars := hname.chars c hhost
      omega
    · have hchars := portText_chars hport
      omega

/-- No character of the host or the port ends them. -/
theorem authority_chars {o : Origin host} (hname : HostText o.name) {c : Char}
    (h : c ∈ o.name ++ portText o.port) : c ∉ ['/', '?', '#'] := by
  rcases List.mem_append.mp h with hhost | hport
  · exact (hname.chars c hhost).2.2.1
  · have hchars := portText_chars hport
    rintro hmem
    have hvalue : c.toNat = 0x2f ∨ c.toNat = 0x3f ∨ c.toNat = 0x23 := by
      simp only [List.mem_cons, List.not_mem_nil, or_false] at hmem
      rcases hmem with rfl | rfl | rfl
      · exact .inl rfl
      · exact .inr (.inl rfl)
      · exact .inr (.inr rfl)
    omega

/-- It ends in the host or the port, where there is no slash. -/
theorem serialise_getLast {o : Origin host} (hname : HostText o.name) (hne : o.serialise ≠ []) :
    o.serialise.getLast hne ≠ '/' := by
  have htail : o.name ++ portText o.port ≠ [] := by simp [hname.nonempty]
  have hsplit : o.serialise = (o.scheme.text ++ [':', '/', '/']) ++ (o.name ++ portText o.port) := by
    simp [Origin.serialise]
  have hlast : o.serialise.getLast hne = (o.name ++ portText o.port).getLast htail := by
    simp only [hsplit]
    exact List.getLast_append_of_ne_nil _ htail
  rw [hlast]
  intro hslash
  have hmem := List.getLast_mem htail
  rw [hslash] at hmem
  exact authority_chars hname hmem (by simp)

/-! ## What expresses an origin -/

theorem map_toLower_of_chars {text : List Char} (h : ∀ c ∈ text, c.toLower = c) :
    text.map Char.toLower = text := by
  rw [List.map_congr_left h, List.map_id']

theorem scheme_map_toLower (scheme : Scheme) :
    scheme.text.map Char.toLower = scheme.text :=
  map_toLower_of_chars fun c hc => (scheme_chars scheme c hc).2.2

/-- A serialisation with a plain host expresses its origin. -/
theorem expresses_serialise {o : Origin host} (hname : HostText o.name) (h : HostPart o.name) :
    Expresses o.serialise o := by
  refine ⟨o.scheme.text, o.name, portText o.port, rfl, scheme_map_toLower o.scheme, h,
    map_toLower_of_chars fun c hc => (hname.chars c hc).2.2.2, ?_⟩
  cases hport : o.port with
  | none => exact hport
  | some port =>
      refine ⟨rfl, Nat.toDigits_ne_nil, ?_, ?_⟩
      · intro d hd
        exact Nat.isDigit_of_mem_toDigits (by decide) (by decide) hd
      · rw [hport]
        exact Nat.ofDigitChars_toDigits (by decide) (by decide)

theorem ofDigitChars_lt {digits : List Char} (h : ∀ d ∈ digits, d.isDigit = true) :
    Nat.ofDigitChars 10 digits 0 < 10 ^ digits.length := by
  induction digits with
  | nil => decide
  | cons d digits ih =>
      have hd : d.toNat ≤ 0x39 := by
        have hdigit := h d List.mem_cons_self
        rw [Char.isDigit, Bool.and_eq_true, decide_eq_true_eq, decide_eq_true_eq] at hdigit
        exact hdigit.2
      have hrest := ih fun e he => h e (List.mem_cons_of_mem d he)
      rw [Nat.ofDigitChars_cons, Nat.ofDigitChars_eq_ofDigitChars_zero, List.length_cons,
        Nat.pow_succ]
      have hvalue : 10 * 0 + (d.toNat - '0'.toNat) ≤ 9 := by
        have hzero : '0'.toNat = 0x30 := rfl
        omega
      have hmul := Nat.mul_le_mul_left (10 ^ digits.length) hvalue
      omega

/-- A port is written with the fewest digits. -/
theorem length_portText_le {o : Origin host} {port : List Char} (h : PortMatches o port) :
    (portText o.port).length ≤ port.length := by
  cases hport : o.port with
  | none => exact Nat.zero_le _
  | some n =>
      cases port with
      | nil =>
          have hnone : o.port = none := h
          rw [hport] at hnone
          cases hnone
      | cons c digits =>
          rcases h with ⟨-, hne, hdigits, hvalue⟩
          rw [hport, Option.getD_some] at hvalue
          have hpos : 0 < digits.length := List.length_pos_iff.mpr hne
          have hlength : (Nat.toDigits 10 n).length ≤ digits.length := by
            rw [Nat.length_toDigits_le_iff (by decide) hpos, ← hvalue]
            exact ofDigitChars_lt hdigits
          simpa [portText] using hlength

/-- Nothing shorter than the serialisation expresses an origin. -/
theorem length_le_of_expresses {text : List Char} {o : Origin host} (h : Expresses text o) :
    o.serialise.length ≤ text.length := by
  rcases h with ⟨scheme, name, port, rfl, hscheme, -, hname, hport⟩
  have hschemeLength := congrArg List.length hscheme
  have hnameLength := congrArg List.length hname
  have hportLength := length_portText_le hport
  rw [List.length_map] at hschemeLength hnameLength
  simp only [Origin.serialise, List.length_append, List.length_cons]
  omega

theorem colon_not_mem_scheme {text : List Char} {scheme : Scheme}
    (h : text.map Char.toLower = scheme.text) : ':' ∉ text := by
  intro hmem
  have hlower : ':'.toLower ∈ scheme.text := by
    rw [← h]
    exact List.mem_map_of_mem hmem
  exact absurd (scheme_chars scheme _ hlower).1 (by decide)

theorem colon_not_mem_hostPart {name : List Char} (h : HostPart name) : ':' ∉ name := by
  intro hmem
  have hchar := h.chars ':' hmem
  revert hchar
  decide

theorem scheme_text_injective {scheme scheme' : Scheme} (h : scheme.text = scheme'.text) :
    scheme = scheme' := by
  cases scheme <;> cases scheme' <;> first | rfl | exact absurd h (by decide)

/-- A host that a host part begins like has no colon. -/
theorem colon_not_mem_host {name part port port' : List Char} (hname : HostText name)
    (hpart : HostPart part) (h : name ++ port = part ++ port') : ':' ∉ name := by
  intro hmem
  have hbracket := hname.colon hmem
  rcases List.exists_cons_of_ne_nil hname.nonempty with ⟨c, rest, rfl⟩
  rcases List.exists_cons_of_ne_nil hpart.nonempty with ⟨d, more, rfl⟩
  obtain ⟨rfl, -⟩ := List.cons.inj h
  have hchar := hpart.chars c List.mem_cons_self
  rw [List.head?_cons, Option.some.injEq] at hbracket
  rw [hbracket] at hchar
  revert hchar
  decide

/-- Where a port text is empty or begins with a colon, what is before it is known. -/
theorem append_port_inj {name part port port' : List Char} (hname : ':' ∉ name)
    (hpart : ':' ∉ part) (hport : port = [] ∨ ∃ digits, port = ':' :: digits)
    (hport' : port' = [] ∨ ∃ digits, port' = ':' :: digits) (h : name ++ port = part ++ port') :
    name = part ∧ port = port' := by
  rcases hport with rfl | ⟨digits, rfl⟩
  · rcases hport' with rfl | ⟨digits', rfl⟩
    · exact ⟨by simpa using h, rfl⟩
    · rw [List.append_nil] at h
      rw [h] at hname
      exact absurd (List.mem_append_right _ List.mem_cons_self) hname
  · rcases hport' with rfl | ⟨digits', rfl⟩
    · rw [List.append_nil] at h
      rw [← h] at hpart
      exact absurd (List.mem_append_right _ List.mem_cons_self) hpart
    · rcases Separated.append_cons_inj hname hpart h with ⟨hsame, hdigits⟩
      exact ⟨hsame, by rw [hdigits]⟩

theorem portText_shape (port : Option Nat) :
    portText port = [] ∨ ∃ digits, portText port = ':' :: digits := by
  cases port with
  | none => exact .inl rfl
  | some port => exact .inr ⟨_, rfl⟩

theorem portMatches_shape {o : Origin host} {port : List Char} (h : PortMatches o port) :
    port = [] ∨ ∃ digits, port = ':' :: digits := by
  cases port with
  | nil => exact .inl rfl
  | cons c digits =>
      obtain rfl := h.1
      exact .inr ⟨digits, rfl⟩

/-- A serialisation expresses no other origin, and its own only with a plain host. -/
theorem eq_of_expresses_serialise {o o' : Origin host} (hname : HostText o.name)
    (h : Expresses o.serialise o') : o' = o ∧ HostPart o.name := by
  rcases h with ⟨scheme, part, port, heq, hscheme, hpart, hlower, hport⟩
  have hcolon : ':' ∉ o.scheme.text := colon_not_mem_scheme (scheme_map_toLower o.scheme)
  rcases Separated.append_cons_inj hcolon (colon_not_mem_scheme hscheme) heq with ⟨hschemeText, hrest⟩
  have hafter : o.name ++ portText o.port = part ++ port :=
    (List.cons.inj (List.cons.inj hrest).2).2
  rcases append_port_inj (colon_not_mem_host hname hpart hafter)
    (colon_not_mem_hostPart hpart) (portText_shape o.port) (portMatches_shape hport) hafter with
    ⟨hhost, hportText⟩
  have hsameScheme : o'.scheme = o.scheme := by
    apply scheme_text_injective
    rw [← hscheme, ← hschemeText, scheme_map_toLower]
  have hsameName : o'.name = o.name := by
    rw [← hlower, ← hhost]
    exact map_toLower_of_chars fun c hc => (hname.chars c hc).2.2.2
  have hsamePort : o'.port = o.port := by
    rw [← hportText] at hport
    cases howner : o.port with
    | none =>
        rw [howner] at hport
        exact hport
    | some n =>
        rw [howner] at hport
        have hvalue : Nat.ofDigitChars 10 (Nat.toDigits 10 n) 0 = o'.port.getD o'.scheme.port :=
          hport.2.2.2
        rw [Nat.ofDigitChars_toDigits (by decide) (by decide)] at hvalue
        cases hother : o'.port with
        | some n' =>
            rw [hother, Option.getD_some] at hvalue
            rw [hvalue]
        | none =>
            -- the default port is not written
            rw [hother, Option.getD_none, hsameScheme] at hvalue
            exact absurd (howner.trans (by rw [hvalue])) o.notDefault
  refine ⟨?_, hhost ▸ hpart⟩
  cases o
  cases o'
  simp only [Origin.mk.injEq]
  exact ⟨hsameScheme, hsameName, hsamePort⟩

/-! ## Plain hosts -/

/-- The hosts that a header can name. -/
def PlainHost (name : List Char) : Prop := HostText name ∧ HostPart name

theorem serialise_map_toLower {o : Origin host} (hname : HostText o.name) :
    o.serialise.map Char.toLower = o.serialise := by
  apply map_toLower_of_chars
  intro c hc
  rcases List.mem_append.mp hc with hscheme | hrest
  · exact (scheme_chars o.scheme c hscheme).2.2
  · simp only [List.mem_cons, List.mem_append] at hrest
    rcases hrest with rfl | rfl | rfl | hhost | hport
    · decide
    · decide
    · decide
    · exact (hname.chars c hhost).2.2.2
    · -- digits and the colon are below the letters
      have hchars := portText_chars hport
      have hupper : ¬(c.val ≥ 'A'.val ∧ c.val ≤ 'Z'.val) := by
        rintro ⟨hlow, -⟩
        have hletter : 0x41 ≤ c.toNat := hlow
        omega
      exact dif_neg hupper

theorem serialise_injective_plain {o o' : Origin PlainHost} (h : o.serialise = o'.serialise) :
    o = o' := by
  have hexpresses := expresses_serialise o.isHost.1 o.isHost.2
  rw [h] at hexpresses
  exact (eq_of_expresses_serialise o'.isHost.1 hexpresses).1

open Classical in
/-- The origin that a text serialises, letter case aside. -/
noncomputable def plainOrigin (text : List Char) : Option (Origin PlainHost) :=
  if h : ∃ o : Origin PlainHost, o.serialise = text.map Char.toLower then some h.choose else none

theorem plainOrigin_eq {text : List Char} {o : Origin PlainHost}
    (h : text.map Char.toLower = o.serialise) : plainOrigin text = some o := by
  have hread : ∃ o : Origin PlainHost, o.serialise = text.map Char.toLower := ⟨o, h.symm⟩
  unfold plainOrigin
  rw [dif_pos hread, serialise_injective_plain (hread.choose_spec.trans h)]

/-- A browser that reads just the serialisations of origins with plain hosts. -/
noncomputable def plainBrowser : Browser where
  host := PlainHost
  hostText := fun _ h => h.1
  originOf := plainOrigin
  originOf_serialise := fun o => plainOrigin_eq (serialise_map_toLower o.isHost.1)

end Origins
