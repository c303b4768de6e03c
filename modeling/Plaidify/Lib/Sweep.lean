import Mathlib.Data.List.Basic

/-!
# Sweeping a backlog in batches

A pass takes the first items of a backlog, as many as a batch holds. The ready
ones among them are done and leave the backlog; the others stay, in their places.

Passes repeated at will do everything that is ready exactly if no ready item has
a whole batch of others before it: `sweeps_ready_iff`. A loop that goes on only
after a full batch stops at the first batch with another item in it:
`untilShort_ready_iff`.
-/

namespace Sweep

universe u

variable {α : Type u} (ready : α → Bool) (size : Nat)

/-- The backlog after a pass. -/
def pass (backlog : List α) : List α :=
  (backlog.take size).filter (fun x => !ready x) ++ backlog.drop size

/-- The items that a pass does. -/
def done (backlog : List α) : Nat :=
  (backlog.take size).countP ready

/-- Passes, some of which fail and leave the backlog as it is. -/
def sweeps (backlog : List α) (passes : List Bool) : List α :=
  passes.foldl (fun backlog succeeds => if succeeds then pass ready size backlog else backlog)
    backlog

/-- Passes until one does less than a batch; `none` when the fuel is short. -/
def untilShort : Nat → List α → Option (List α)
  | 0, _ => none
  | fuel + 1, backlog =>
      if done ready size backlog < size then some (pass ready size backlog)
      else untilShort fuel (pass ready size backlog)

def NoneReady (backlog : List α) : Prop := ∀ x ∈ backlog, ready x = false

/-- No ready item has a whole batch of others before it. -/
def FewBefore (backlog : List α) : Prop :=
  ∀ before x after, backlog = before ++ x :: after → ready x = true →
    before.countP (fun y => !ready y) < size

/-- No batch holds an item that is not ready, if a later one holds a ready one. -/
def ReadyBefore (backlog : List α) : Prop :=
  ∀ i j x y, backlog[i]? = some x → backlog[j]? = some y → ready y = true →
    i < j / size * size → ready x = true

variable {ready size}

/-! ## One pass -/

theorem countP_pass (backlog : List α) :
    (pass ready size backlog).countP ready + done ready size backlog = backlog.countP ready := by
  have hnone : ((backlog.take size).filter fun x => !ready x).countP ready = 0 := by
    refine List.countP_eq_zero.mpr fun x hx => ?_
    simpa using (List.mem_filter.mp hx).2
  have hsplit : (backlog.take size).countP ready + (backlog.drop size).countP ready =
      backlog.countP ready := by
    rw [← List.countP_append, List.take_append_drop]
  unfold pass done
  rw [List.countP_append, hnone]
  omega

/-- The others stay. -/
theorem countP_not_pass (backlog : List α) :
    (pass ready size backlog).countP (fun x => !ready x) = backlog.countP fun x => !ready x := by
  have hsplit : (backlog.take size).countP (fun x => !ready x) +
      (backlog.drop size).countP (fun x => !ready x) = backlog.countP fun x => !ready x := by
    rw [← List.countP_append, List.take_append_drop]
  unfold pass
  rw [List.countP_append, List.countP_filter]
  simpa only [Bool.and_self] using hsplit

/-- What has a whole batch before it stays, and everything after it. -/
theorem pass_append {before after : List α} {x : α} (h : size ≤ before.length) :
    pass ready size (before ++ x :: after) = pass ready size before ++ x :: after := by
  unfold pass
  rw [List.take_append_of_le_length h, List.drop_append_of_le_length h, List.append_assoc]

/-- A ready item that is left comes from behind the batch. -/
theorem pass_eq_append {backlog before after : List α} {x : α} (hx : ready x = true)
    (h : pass ready size backlog = before ++ x :: after) :
    ∃ more, before = (backlog.take size).filter (fun y => !ready y) ++ more ∧
      backlog = backlog.take size ++ more ++ x :: after := by
  rcases List.append_eq_append_iff.mp h with ⟨more, hbefore, hdrop⟩ | ⟨rest, hfilter, hafter⟩
  · refine ⟨more, hbefore, ?_⟩
    rw [List.append_assoc, ← hdrop, List.take_append_drop]
  · cases rest with
    | nil =>
        refine ⟨[], by simpa using hfilter.symm, ?_⟩
        rw [List.append_nil, hafter, List.nil_append, List.take_append_drop]
    | cons y rest =>
        -- the item would be one of those that stay
        obtain ⟨rfl, -⟩ := List.cons.inj hafter
        have hmem : x ∈ (backlog.take size).filter fun y => !ready y := by
          rw [hfilter]
          simp
        have hnot := (List.mem_filter.mp hmem).2
        rw [hx] at hnot
        cases hnot

theorem few_pass {backlog : List α} (h : FewBefore ready size backlog) :
    FewBefore ready size (pass ready size backlog) := by
  intro before x after heq hx
  rcases pass_eq_append hx heq with ⟨more, rfl, hbacklog⟩
  have hfew := h (backlog.take size ++ more) x after hbacklog hx
  rw [List.countP_append] at hfew ⊢
  rw [List.countP_filter]
  simpa only [Bool.and_self] using hfew

theorem noneReady_iff {backlog : List α} : NoneReady ready backlog ↔ backlog.countP ready = 0 := by
  rw [List.countP_eq_zero]
  simp only [NoneReady, Bool.not_eq_true]

/-- With few others before each ready item, a pass does one of them. -/
theorem done_pos {backlog : List α} (h : FewBefore ready size backlog)
    (hready : ¬NoneReady ready backlog) : 0 < done ready size backlog := by
  have hfind : ∃ x, backlog.find? ready = some x := by
    rw [← Option.isSome_iff_exists, List.find?_isSome]
    simpa [NoneReady] using hready
  rcases hfind with ⟨x, hfind⟩
  rcases List.find?_eq_some_iff_append.mp hfind with ⟨hx, before, after, rfl, hbefore⟩
  have hfew := h before x after rfl hx
  have hall : before.countP (fun y => !ready y) = before.length := List.countP_eq_length.mpr hbefore
  have hmem : x ∈ (before ++ x :: after).take size := by
    rw [List.mem_take_iff_getElem]
    refine ⟨before.length, ?_, ?_⟩
    · rw [List.length_append, List.length_cons]
      omega
    · simp
  exact List.countP_pos_iff.mpr ⟨x, hmem, hx⟩

/-! ## Passes at will -/

theorem sweeps_noneReady {backlog : List α} {passes : List Bool}
    (h : FewBefore ready size backlog) (henough : backlog.countP ready ≤ passes.count true) :
    NoneReady ready (sweeps ready size backlog passes) := by
  induction passes generalizing backlog with
  | nil =>
      rw [noneReady_iff]
      show backlog.countP ready = 0
      simpa using henough
  | cons succeeds passes ih =>
      cases succeeds with
      | false => exact ih h (by simpa using henough)
      | true =>
          show NoneReady ready (sweeps ready size (pass ready size backlog) passes)
          apply ih (few_pass h)
          have hcount := @countP_pass _ ready size backlog
          rw [List.count_cons_self] at henough
          by_cases hnone : NoneReady ready backlog
          · rw [noneReady_iff] at hnone
            omega
          · have hpos := done_pos h hnone
            omega

/-- A ready item behind a whole batch of others is never reached. -/
theorem sweeps_keeps {before after : List α} {x : α}
    (h : size ≤ before.countP fun y => !ready y) (passes : List Bool) :
    x ∈ sweeps ready size (before ++ x :: after) passes := by
  induction passes generalizing before with
  | nil => exact List.mem_append_right _ List.mem_cons_self
  | cons succeeds passes ih =>
      cases succeeds with
      | false => exact ih h
      | true =>
          show x ∈ sweeps ready size (pass ready size (before ++ x :: after)) passes
          rw [pass_append (Nat.le_trans h List.countP_le_length)]
          apply ih
          rw [countP_not_pass]
          exact h

/-- Enough passes do everything that is ready exactly if no ready item is behind
a whole batch of others. -/
theorem sweeps_ready_iff {backlog : List α} :
    (∃ n, ∀ passes : List Bool, n ≤ passes.count true →
      NoneReady ready (sweeps ready size backlog passes)) ↔ FewBefore ready size backlog := by
  constructor
  · rintro ⟨n, hn⟩ before x after rfl hx
    by_contra hmany
    have hmem := @sweeps_keeps _ ready size before after x (Nat.not_lt.mp hmany)
      (List.replicate n true)
    have hnone := hn (List.replicate n true) (by simp) x hmem
    rw [hx] at hnone
    cases hnone
  · intro h
    exact ⟨backlog.countP ready, fun passes henough => sweeps_noneReady h henough⟩

/-! ## Passes until a short one -/

/-- A full batch holds ready items only. -/
theorem full_batch {backlog : List α} (h : ¬done ready size backlog < size) :
    size ≤ backlog.length ∧ (∀ x ∈ backlog.take size, ready x = true) ∧
      pass ready size backlog = backlog.drop size := by
  have hle : done ready size backlog ≤ (backlog.take size).length := List.countP_le_length
  have htake := List.length_take (i := size) (l := backlog)
  have hall : ∀ x ∈ backlog.take size, ready x = true := by
    apply List.countP_eq_length.mp
    show done ready size backlog = _
    omega
  refine ⟨by omega, hall, ?_⟩
  unfold pass
  have hnil : (backlog.take size).filter (fun x => !ready x) = [] := by
    rw [List.filter_eq_nil_iff]
    intro x hx
    rw [hall x hx]
    decide
  rw [hnil, List.nil_append]

theorem untilShort_stops (hsize : 0 < size) (backlog : List α) :
    ∃ fuel left, untilShort ready size fuel backlog = some left := by
  induction hn : backlog.length using Nat.strongRecOn generalizing backlog with
  | ind n ih =>
      by_cases hshort : done ready size backlog < size
      · exact ⟨1, pass ready size backlog, by rw [untilShort, if_pos hshort]⟩
      · rcases full_batch hshort with ⟨hlength, -, hpass⟩
        have hless : (backlog.drop size).length < n := by
          rw [List.length_drop]
          omega
        rcases ih _ hless _ rfl with ⟨fuel, left, hleft⟩
        refine ⟨fuel + 1, left, ?_⟩
        rw [untilShort, if_neg hshort, hpass]
        exact hleft

/-- Where a loop stops, nothing ready is left behind the batch exactly if no
batch before it holds another item. -/
theorem short_ready_iff {backlog : List α} (hshort : done ready size backlog < size) :
    NoneReady ready (pass ready size backlog) ↔ ReadyBefore ready size backlog := by
  constructor
  · intro hnone i j x y _ hj hy hlt
    exfalso
    -- the ready item is in the first batch, before which there is none
    have hsmall : j < size := by
      by_contra hlarge
      have hmem : y ∈ backlog.drop size := by
        apply List.mem_of_getElem? (i := j - size)
        rw [List.getElem?_drop, ← hj]
        congr 1
        omega
      have hleft := hnone y (List.mem_append_right _ hmem)
      rw [hy] at hleft
      cases hleft
    rw [Nat.div_eq_of_lt hsmall] at hlt
    omega
  · intro hready y hy
    rcases List.mem_append.mp hy with hstays | hdrop
    · simpa using (List.mem_filter.mp hstays).2
    · by_contra hne
      have hyready : ready y = true := by simpa using hne
      rcases List.mem_iff_getElem?.mp hdrop with ⟨k, hk⟩
      rw [List.getElem?_drop] at hk
      have hlength : size + k < backlog.length := (List.getElem?_eq_some_iff.mp hk).1
      have hpos : 0 < size := by omega
      have hfirst : size ≤ (size + k) / size * size := by
        rw [Nat.add_div_left k hpos, Nat.succ_mul]
        omega
      -- so the first batch is full of ready items, and the loop would have gone on
      have hall : ∀ x ∈ backlog.take size, ready x = true := by
        intro x hx
        rcases List.mem_take_iff_getElem.mp hx with ⟨i, hi, rfl⟩
        exact hready i (size + k) _ y (List.getElem?_eq_getElem _) hk hyready (by omega)
      have hdone : done ready size backlog = (backlog.take size).length :=
        List.countP_eq_length.mpr hall
      rw [List.length_take] at hdone
      omega

/-- Behind a full batch the condition is that on the rest. -/
theorem readyBefore_drop {backlog : List α} (hsize : 0 < size)
    (hall : ∀ x ∈ backlog.take size, ready x = true) :
    ReadyBefore ready size (backlog.drop size) ↔ ReadyBefore ready size backlog := by
  have hshift : ∀ j, (size + j) / size * size = size + j / size * size := by
    intro j
    rw [Nat.add_div_left j hsize, Nat.succ_mul]
    omega
  constructor
  · intro h i j x y hi hj hy hlt
    by_cases hsmall : i < size
    · apply hall x
      apply List.mem_of_getElem? (i := i)
      rw [List.getElem?_take_of_lt hsmall, hi]
    · have hle : j / size * size ≤ j := Nat.div_mul_le_self j size
      refine h (i - size) (j - size) x y ?_ ?_ hy ?_
      · rw [List.getElem?_drop, ← hi]
        congr 1
        omega
      · rw [List.getElem?_drop, ← hj]
        congr 1
        omega
      · have hj' := hshift (j - size)
        rw [show size + (j - size) = j by omega] at hj'
        omega
  · intro h i j x y hi hj hy hlt
    rw [List.getElem?_drop] at hi hj
    refine h (size + i) (size + j) x y hi hj hy ?_
    rw [hshift]
    omega

/-- The loop has done everything that is ready, where it stops, exactly if no
batch holds another item that comes before one with a ready item. -/
theorem untilShort_ready_iff (hsize : 0 < size) {fuel : Nat} {backlog left : List α}
    (h : untilShort ready size fuel backlog = some left) :
    NoneReady ready left ↔ ReadyBefore ready size backlog := by
  induction fuel generalizing backlog with
  | zero => cases h
  | succ fuel ih =>
      rw [untilShort] at h
      by_cases hshort : done ready size backlog < size
      · rw [if_pos hshort] at h
        obtain rfl := Option.some.inj h
        exact short_ready_iff hshort
      · rw [if_neg hshort] at h
        rcases full_batch hshort with ⟨-, hall, hpass⟩
        rw [ih h, hpass]
        exact readyBefore_drop hsize hall

end Sweep
