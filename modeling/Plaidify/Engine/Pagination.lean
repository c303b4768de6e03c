import Mathlib.Algebra.GroupWithZero.Nat
import Plaidify.Engine.Extraction

/-!
# Paginated lists

`_extract_list` of `src/src/core/data_extractor.py`, over what a page shows between
one turn and the next: the rows with what is extracted from them, and the control
that turns it. The limit is tested in the loop over the rows only.

`meets_iff` says for which pages the list is what it is to be.
-/

namespace Plaidify.Engine.Pagination

/-! ## Pages -/

section

variable {ε ρ : Type}

/-- The next control: its `disabled` attribute, and how clicking it and waiting for
the page end. -/
structure Control (ε : Type) where
  disabled : Except ε (Option String)
  click : Except ε Unit
  wait : Except ε Unit

/-- A page between two turns. -/
structure View (ε ρ : Type) where
  rows : Except ε (List ρ)
  nextBtn : Except ε (Option (Control ε))

/-! ## The loops -/

/-- A click on the next control, and how many items there were. -/
structure Click where
  collected : Nat
  disabled : Option String
deriving DecidableEq, Repr

/-- What a run did. -/
structure Trace (ε ρ : Type) where
  visited : List (Except ε (List ρ))
  clicks : List Click
  result : Except ε (List ρ)

/-- The loop over the rows. -/
def takeRows (maxItems : Option Int) : List ρ → List ρ → List ρ
  | items, [] => items
  | items, row :: rows =>
      if maxItems.getD 0 ≠ 0 ∧ maxItems.getD 0 ≤ items.length then items
      else takeRows maxItems (items ++ [row]) rows

/-- The attribute of the control that is clicked, if one is, and whether the list
goes on. -/
def turn (v : View ε ρ) : Option (Option String) × Bool :=
  match v.nextBtn with
  | .ok (some nextBtn) =>
      match nextBtn.disabled with
      | .ok isDisabled =>
          if isDisabled.getD "" ≠ "" then (none, false)
          else (some isDisabled, nextBtn.click.isOk && nextBtn.wait.isOk)
      | .error _ => (none, false)
  | .ok none | .error _ => (none, false)

/-- The loop over the pages: `pages` is how many it may still take, and `views` what
they show from this one on. -/
def visit (maxItems : Option Int) : Nat → (Nat → View ε ρ) → List ρ → Trace ε ρ
  | 0, _, items => ⟨[], [], .ok items⟩
  | pages + 1, views, items =>
      match (views 0).rows with
      | .error e => ⟨[.error e], [], .error e⟩
      | .ok [] => ⟨[.ok []], [], .ok items⟩
      | .ok (row :: rows) =>
          let items := takeRows maxItems items (row :: rows)
          if pages = 0 then ⟨[.ok (row :: rows)], [], .ok items⟩
          else
            let (clicked, goesOn) := turn (views 0)
            let clicks := clicked.toList.map fun disabled => ⟨items.length, disabled⟩
            if goesOn then
              let rest := visit maxItems pages (fun n => views (n + 1)) items
              ⟨.ok (row :: rows) :: rest.visited, clicks ++ rest.clicks, rest.result⟩
            else ⟨[.ok (row :: rows)], clicks, .ok items⟩

/-- `max_pages`. -/
def maxPages (field : ListExtractionField) : Nat :=
  ((field.pagination.map PaginationConfig.maxPages).getD 1).toNat

/-- `_extract_list`. -/
def extractList (field : ListExtractionField) (views : Nat → View ε ρ) : Trace ε ρ :=
  visit field.maxItems (maxPages field) views []

/-! ## What it is to do -/

/-- The first items, where a positive number of them is asked for. -/
def cut (maxItems : Option Int) (items : List ρ) : List ρ :=
  if 0 < maxItems.getD 0 then items.take (maxItems.getD 0).toNat else items

/-- The rows of the pages, in order; a page that raises raises. -/
def concat : List (Except ε (List ρ)) → Except ε (List ρ)
  | [] => .ok []
  | .error e :: _ => .error e
  | .ok rows :: visited => (concat visited).map fun rest => rows ++ rest

/-- The list is what it is to be, and no page is turned that is not to be. -/
structure Meets (field : ListExtractionField) (views : Nat → View ε ρ) : Prop where
  pages : (extractList field views).visited.length ≤ maxPages field
  rows : (extractList field views).result =
    (concat (extractList field views).visited).map (cut field.maxItems)
  enabled : ∀ c ∈ (extractList field views).clicks, c.disabled = none
  wanted : ∀ c ∈ (extractList field views).clicks, 0 < field.maxItems.getD 0 →
    c.collected < field.maxItems.getD 0

/-! ## When it does -/

/-- The rows that a page shows. -/
def rowsOf (v : View ε ρ) : List ρ :=
  match v.rows with
  | .ok rows => rows
  | .error _ => []

/-- The control of this page is there to be clicked. -/
def Clickable (v : View ε ρ) (disabled : Option String) : Prop :=
  ∃ nextBtn, v.nextBtn = .ok (some nextBtn) ∧ nextBtn.disabled = .ok disabled ∧
    (disabled = none ∨ disabled = some "")

/-- Its click leads to the next page. -/
def LeadsOn (v : View ε ρ) : Prop :=
  (turn v).2 = true

/-- There is a page `n` to come to: all before it show rows and lead on. -/
def Reached (views : Nat → View ε ρ) (n : Nat) : Prop :=
  ∀ m, m < n → rowsOf (views m) ≠ [] ∧ LeadsOn (views m)

/-- How many rows the pages show up to page `n`. -/
def rowCount (views : Nat → View ε ρ) (n : Nat) : Nat :=
  ((List.range (n + 1)).map fun m => (rowsOf (views m)).length).sum

/-- A page with rows that is come to and is not the last one. -/
def Turnable (field : ListExtractionField) (views : Nat → View ε ρ) (n : Nat) : Prop :=
  n + 1 < maxPages field ∧ Reached views n ∧ rowsOf (views n) ≠ []

/-- No control that is come to has an empty `disabled` attribute, none is left to
click once there are enough rows, and the limit is no negative number. -/
structure Fine (field : ListExtractionField) (views : Nat → View ε ρ) : Prop where
  enabled : ∀ n, Turnable field views n → ¬ Clickable (views n) (some "")
  wanted : ∀ n, Turnable field views n → (∃ disabled, Clickable (views n) disabled) →
    0 < field.maxItems.getD 0 → rowCount views n < field.maxItems.getD 0
  limit : field.maxItems.getD 0 < 0 →
    (∃ n e, n < maxPages field ∧ Reached views n ∧ (views n).rows = .error e) ∨
      maxPages field = 0 ∨ rowsOf (views 0) = []

variable {maxItems : Option Int}

/-! ## The rows -/

/-- Below zero the limit is reached at once. -/
theorem takeRows_of_neg (h : maxItems.getD 0 < 0) (items rows : List ρ) :
    takeRows maxItems items rows = items := by
  cases rows with
  | nil => rfl
  | cons row rows => exact if_pos ⟨by omega, by omega⟩

/-- Otherwise the rows are added and what is too much is cut. -/
theorem takeRows_of_nonneg (h : 0 ≤ maxItems.getD 0) (rows : List ρ) : ∀ {items : List ρ},
    cut maxItems items = items →
      takeRows maxItems items rows = cut maxItems (items ++ rows) := by
  induction rows with
  | nil =>
    intro items hitems
    rw [List.append_nil, hitems]
    rfl
  | cons row rows ih =>
    intro items hitems
    unfold takeRows
    by_cases hpos : 0 < maxItems.getD 0
    · unfold cut at hitems ih ⊢
      rw [if_pos hpos] at hitems ⊢
      have hle : items.length ≤ (maxItems.getD 0).toNat := List.take_eq_self_iff _ |>.mp hitems
      split
      · next hfull =>
        have hlength : (maxItems.getD 0).toNat = items.length := by omega
        rw [hlength, List.take_left]
      · next hroom =>
        rw [ih, if_pos hpos, List.append_assoc, List.singleton_append]
        rw [if_pos hpos]
        apply List.take_of_length_le
        rw [List.length_append, List.length_singleton]
        omega
    · have hzero : maxItems.getD 0 = 0 := by omega
      rw [if_neg (fun hboth => hboth.1 hzero), ih]
      · rw [List.append_assoc, List.singleton_append]
      · exact if_neg hpos

theorem cut_cut (items : List ρ) : cut maxItems (cut maxItems items) = cut maxItems items := by
  unfold cut
  split
  · rw [List.take_take, Nat.min_self]
  · rfl

theorem cut_append (items rows : List ρ) :
    cut maxItems (cut maxItems items ++ rows) = cut maxItems (items ++ rows) := by
  unfold cut
  split
  · rw [List.take_append, List.take_append, List.take_take, Nat.min_self, List.length_take]
    congr 2
    omega
  · rfl

/-! ## The pages -/

/-- A page is visited no more often than is allowed. -/
theorem visited_length (pages : Nat) : ∀ (views : Nat → View ε ρ) (items : List ρ),
    (visit maxItems pages views items).visited.length ≤ pages := by
  induction pages with
  | zero =>
    intro views items
    exact Nat.le_refl 0
  | succ pages ih =>
    intro views items
    unfold visit
    split
    · exact Nat.succ_le_succ (Nat.zero_le pages)
    · exact Nat.succ_le_succ (Nat.zero_le pages)
    · dsimp only
      split
      · exact Nat.succ_le_succ (Nat.zero_le pages)
      · split
        · exact Nat.succ_le_succ (ih _ _)
        · exact Nat.succ_le_succ (Nat.zero_le pages)

theorem map_map {α β γ : Type} (f : α → β) (g : β → γ) (r : Except ε α) :
    (r.map f).map g = r.map fun a => g (f a) := by
  cases r <;> rfl

/-- What comes back is what the visited pages show, cut where there is a limit. -/
theorem result_of_nonneg (h : 0 ≤ maxItems.getD 0) (pages : Nat) :
    ∀ (views : Nat → View ε ρ) {items : List ρ}, cut maxItems items = items →
      (visit maxItems pages views items).result =
        (concat (visit maxItems pages views items).visited).map fun rows =>
          cut maxItems (items ++ rows) := by
  induction pages with
  | zero =>
    intro views items hitems
    show Except.ok items = Except.ok (cut maxItems (items ++ []))
    rw [List.append_nil, hitems]
  | succ pages ih =>
    intro views items hitems
    unfold visit
    split
    · rfl
    · show Except.ok items = Except.ok (cut maxItems (items ++ ([] ++ [])))
      rw [List.append_nil, List.append_nil, hitems]
    · next row rows _ =>
      dsimp only
      have htake := takeRows_of_nonneg h (row :: rows) hitems
      have hlast : Except.ok (takeRows maxItems items (row :: rows)) =
          (concat [(Except.ok (row :: rows) : Except ε (List ρ))]).map fun rows =>
            cut maxItems (items ++ rows) := by
        show _ = Except.ok (cut maxItems (items ++ (row :: rows ++ [])))
        rw [htake, List.append_nil]
      split
      · exact hlast
      · split
        · dsimp only
          rw [ih _ (by rw [htake, cut_cut]), concat, map_map, htake]
          congr 1
          funext rest
          rw [cut_append, List.append_assoc]
        · exact hlast

/-- A negative limit leaves nothing. -/
theorem result_of_neg (h : maxItems.getD 0 < 0) (pages : Nat) :
    ∀ (views : Nat → View ε ρ) (items : List ρ),
      (visit maxItems pages views items).result =
        (concat (visit maxItems pages views items).visited).map fun _ => items := by
  induction pages with
  | zero =>
    intro views items
    rfl
  | succ pages ih =>
    intro views items
    unfold visit
    split
    · rfl
    · rfl
    · dsimp only
      rw [takeRows_of_neg h]
      split
      · rfl
      · split
        · dsimp only
          rw [ih, concat, map_map]
        · rfl

/-! ## The clicks -/

/-- The items after page `n`. -/
def collected (maxItems : Option Int) : (Nat → View ε ρ) → List ρ → Nat → List ρ
  | views, items, 0 => takeRows maxItems items (rowsOf (views 0))
  | views, items, n + 1 =>
      collected maxItems (fun n => views (n + 1)) (takeRows maxItems items (rowsOf (views 0))) n

theorem reached_succ {views : Nat → View ε ρ} {n : Nat} :
    Reached views (n + 1) ↔ (rowsOf (views 0) ≠ [] ∧ LeadsOn (views 0)) ∧
      Reached (fun n => views (n + 1)) n := by
  constructor
  · intro h
    exact ⟨h 0 (Nat.succ_pos n), fun m hm => h (m + 1) (Nat.succ_lt_succ hm)⟩
  · rintro ⟨hfirst, hrest⟩ m hm
    cases m with
    | zero => exact hfirst
    | succ m => exact hrest m (Nat.lt_of_succ_lt_succ hm)

theorem clickable_iff {v : View ε ρ} {disabled : Option String} :
    Clickable v disabled ↔ (turn v).1 = some disabled := by
  constructor
  · rintro ⟨nextBtn, hbtn, hdisabled, rfl | rfl⟩
    · simp [turn, hbtn, hdisabled]
    · simp [turn, hbtn, hdisabled]
  · intro h
    unfold turn at h
    split at h
    · next nextBtn hbtn =>
      split at h
      · next isDisabled hdisabled =>
        split at h
        · cases h
        · next htext =>
          obtain rfl := Option.some.inj h
          refine ⟨nextBtn, hbtn, hdisabled, ?_⟩
          cases isDisabled with
          | none => exact .inl rfl
          | some text => exact .inr (congrArg some (not_not.mp htext))
      · cases h
    · cases h
    · cases h

/-- The clicks of a run that comes to a page with rows. -/
theorem clicks_cons {pages : Nat} {views : Nat → View ε ρ} {items : List ρ} {row : ρ}
    {rows : List ρ} (hview : (views 0).rows = .ok (row :: rows)) (c : Click) :
    c ∈ (visit maxItems (pages + 1) views items).clicks ↔ 0 < pages ∧
      ((turn (views 0)).1 = some c.disabled ∧
          c.collected = (takeRows maxItems items (row :: rows)).length ∨
        LeadsOn (views 0) ∧ c ∈ (visit maxItems pages (fun n => views (n + 1))
          (takeRows maxItems items (row :: rows))).clicks) := by
  have hhere : c ∈ (turn (views 0)).1.toList.map (fun disabled =>
      Click.mk (takeRows maxItems items (row :: rows)).length disabled) ↔
        (turn (views 0)).1 = some c.disabled ∧
          c.collected = (takeRows maxItems items (row :: rows)).length := by
    rw [List.mem_map]
    constructor
    · rintro ⟨disabled, hdisabled, rfl⟩
      exact ⟨Option.mem_toList.mp hdisabled, rfl⟩
    · rintro ⟨hdisabled, hcollected⟩
      exact ⟨c.disabled, Option.mem_toList.mpr hdisabled, by rw [← hcollected]⟩
  unfold LeadsOn
  rw [visit, hview]
  dsimp only
  by_cases hlast : pages = 0
  · rw [if_pos hlast]
    simp [hlast]
  · rw [if_neg hlast]
    by_cases hon : (turn (views 0)).2 = true
    · rw [if_pos hon, List.mem_append, hhere]
      simp [hon, Nat.pos_of_ne_zero hlast]
    · rw [if_neg hon, hhere]
      simp [hon, Nat.pos_of_ne_zero hlast]

/-- The clicks are those on the controls that are come to. -/
theorem mem_clicks (pages : Nat) : ∀ (views : Nat → View ε ρ) (items : List ρ) (c : Click),
    c ∈ (visit maxItems pages views items).clicks ↔
      ∃ n, n + 1 < pages ∧ Reached views n ∧ rowsOf (views n) ≠ [] ∧
        Clickable (views n) c.disabled ∧ c.collected = (collected maxItems views items n).length := by
  induction pages with
  | zero =>
    intro views items c
    constructor
    · intro h
      cases h
    · rintro ⟨n, hn, -⟩
      omega
  | succ pages ih =>
    intro views items c
    by_cases hrows : rowsOf (views 0) = []
    · -- a page without rows is the last one
      have hnone : (visit maxItems (pages + 1) views items).clicks = [] := by
        unfold visit
        split
        · rfl
        · rfl
        · next row rows hview =>
          rw [rowsOf, hview] at hrows
          cases hrows
      rw [hnone]
      constructor
      · intro h
        cases h
      · rintro ⟨n, -, hreached, hne, -⟩
        cases n with
        | zero => exact absurd hrows hne
        | succ n => exact absurd hrows (hreached 0 (Nat.succ_pos n)).1
    · -- the first page has rows
      obtain ⟨row, rows, hview⟩ : ∃ row rows, (views 0).rows = .ok (row :: rows) := by
        unfold rowsOf at hrows
        split at hrows
        · next rows hview =>
          cases rows with
          | nil => exact absurd rfl hrows
          | cons row rows => exact ⟨row, rows, hview⟩
        · exact absurd rfl hrows
      have htaken : rowsOf (views 0) = row :: rows := by rw [rowsOf, hview]
      rw [clicks_cons hview, ih]
      constructor
      · -- a click on this page or on a later one
        rintro ⟨hpages, ⟨hclick, hcollected⟩ | ⟨hon, n, hn, hreached, hne, hclick, hcollected⟩⟩
        · refine ⟨0, by omega, fun m hm => absurd hm (Nat.not_lt_zero m), hrows,
            clickable_iff.mpr hclick, ?_⟩
          rw [collected, htaken]
          exact hcollected
        · refine ⟨n + 1, by omega, reached_succ.mpr ⟨⟨hrows, hon⟩, hreached⟩, hne, hclick, ?_⟩
          rw [collected, htaken]
          exact hcollected
      · rintro ⟨n, hn, hreached, hne, hclick, hcollected⟩
        refine ⟨by omega, ?_⟩
        cases n with
        | zero =>
          rw [collected, htaken] at hcollected
          exact .inl ⟨clickable_iff.mp hclick, hcollected⟩
        | succ n =>
          obtain ⟨⟨-, hon⟩, hreached⟩ := reached_succ.mp hreached
          rw [collected, htaken] at hcollected
          exact .inr ⟨hon, n, by omega, hreached, hne, hclick, hcollected⟩

/-- How many items there are, where there is a limit. -/
theorem collected_length (h : 0 < maxItems.getD 0) (n : Nat) :
    ∀ (views : Nat → View ε ρ) {items : List ρ}, cut maxItems items = items →
      (collected maxItems views items n).length =
        min (maxItems.getD 0).toNat (items.length + rowCount views n) := by
  have hlength : ∀ rows : List ρ,
      (cut maxItems rows).length = min (maxItems.getD 0).toNat rows.length := by
    intro rows
    rw [cut, if_pos h, List.length_take]
  induction n with
  | zero =>
    intro views items hitems
    have hcount : rowCount views 0 = (rowsOf (views 0)).length := by simp [rowCount]
    rw [collected, takeRows_of_nonneg (Int.le_of_lt h) _ hitems, hlength, List.length_append,
      hcount]
  | succ n ih =>
    intro views items hitems
    have hcount : rowCount views (n + 1) =
        (rowsOf (views 0)).length + rowCount (fun n => views (n + 1)) n := by
      unfold rowCount
      rw [List.range_succ_eq_map, List.map_cons, List.sum_cons, List.map_map]
      rfl
    rw [collected, takeRows_of_nonneg (Int.le_of_lt h) _ hitems,
      ih _ (cut_cut _), hlength, List.length_append, hcount]
    omega

/-! ## Visited pages -/

/-- The first page that raises is this one or comes behind it. -/
theorem exists_raising_succ {pages : Nat} {views : Nat → View ε ρ} :
    (∃ n e, n < pages + 1 ∧ Reached views n ∧ (views n).rows = .error e) ↔
      (∃ e, (views 0).rows = .error e) ∨ (rowsOf (views 0) ≠ [] ∧ LeadsOn (views 0)) ∧
        ∃ n e, n < pages ∧ Reached (fun n => views (n + 1)) n ∧ (views (n + 1)).rows = .error e := by
  constructor
  · rintro ⟨n, e, hn, hreached, he⟩
    cases n with
    | zero => exact .inl ⟨e, he⟩
    | succ n =>
      obtain ⟨hfirst, hrest⟩ := reached_succ.mp hreached
      exact .inr ⟨hfirst, n, e, by omega, hrest, he⟩
  · rintro (⟨e, he⟩ | ⟨hfirst, n, e, hn, hrest, he⟩)
    · exact ⟨0, e, Nat.succ_pos pages, fun m hm => absurd hm (Nat.not_lt_zero m), he⟩
    · exact ⟨n + 1, e, by omega, reached_succ.mpr ⟨hfirst, hrest⟩, he⟩

theorem map_eq_error {α β : Type} {f : α → β} {r : Except ε α} :
    (∃ e, r.map f = .error e) ↔ ∃ e, r = .error e := by
  cases r with
  | ok a =>
    constructor
    · rintro ⟨e, he⟩
      cases he
    · rintro ⟨e, he⟩
      cases he
  | error e => exact ⟨fun _ => ⟨e, rfl⟩, fun _ => ⟨e, rfl⟩⟩

/-- The visited pages raise just if one raises that is come to. -/
theorem concat_visited_error (pages : Nat) : ∀ (views : Nat → View ε ρ) (items : List ρ),
    (∃ e, concat (visit maxItems pages views items).visited = .error e) ↔
      ∃ n e, n < pages ∧ Reached views n ∧ (views n).rows = .error e := by
  induction pages with
  | zero =>
    intro views items
    constructor
    · rintro ⟨e, he⟩
      cases he
    · rintro ⟨n, e, hn, -⟩
      omega
  | succ pages ih =>
    intro views items
    rw [exists_raising_succ, visit]
    cases hview : (views 0).rows with
    -- the first page raises, and nothing else is asked for
    | error e => exact ⟨fun _ => .inl ⟨e, rfl⟩, fun _ => ⟨e, rfl⟩⟩
    | ok rows =>
      have hrows : rowsOf (views 0) = rows := by rw [rowsOf, hview]
      rw [hrows]
      cases rows with
      -- it has no rows, and is the last
      | nil =>
        constructor
        · rintro ⟨e, he⟩
          cases he
        · rintro (⟨e, he⟩ | ⟨⟨hne, -⟩, -⟩)
          · cases he
          · exact absurd rfl hne
      | cons row rows =>
        dsimp only
        split
        · -- no page is left
          next hlast =>
          constructor
          · rintro ⟨e, he⟩
            cases he
          · rintro (⟨e, he⟩ | ⟨-, n, e, hn, -⟩)
            · cases he
            · omega
        · split
          · -- the next page goes on
            next hon =>
            rw [concat, map_eq_error, ih]
            constructor
            · intro h
              exact .inr ⟨⟨List.cons_ne_nil _ _, hon⟩, h⟩
            · rintro (⟨e, he⟩ | ⟨-, h⟩)
              · cases he
              · exact h
          · -- there is no control to click
            next hoff =>
            constructor
            · rintro ⟨e, he⟩
              cases he
            · rintro (⟨e, he⟩ | ⟨⟨-, hon⟩, -⟩)
              · cases he
              · exact absurd hon hoff

/-- They show no rows just if the first one has none. -/
theorem concat_visited_nil {pages : Nat} {views : Nat → View ε ρ} {items : List ρ}
    (h : concat (visit maxItems pages views items).visited = .ok []) :
    pages = 0 ∨ rowsOf (views 0) = [] := by
  cases pages with
  | zero => exact .inl rfl
  | succ pages =>
    refine .inr ?_
    rw [visit] at h
    cases hview : (views 0).rows with
    | error e => rw [rowsOf, hview]
    | ok rows =>
      rw [rowsOf, hview]
      cases rows with
      | nil => rfl
      | cons row rows =>
        rw [hview] at h
        dsimp only at h
        have hcons : ∀ rest : List (Except ε (List ρ)),
            concat (.ok (row :: rows) :: rest) ≠ .ok [] := by
          intro rest hrest
          rw [concat] at hrest
          cases hconcat : concat rest with
          | error e =>
            rw [hconcat] at hrest
            cases hrest
          | ok more =>
            rw [hconcat] at hrest
            cases hrest
        split at h
        · exact absurd h (hcons [])
        · split at h
          · exact absurd h (hcons _)
          · exact absurd h (hcons [])

theorem concat_visited_empty {pages : Nat} {views : Nat → View ε ρ} {items : List ρ}
    (h : pages = 0 ∨ rowsOf (views 0) = []) {rows : List ρ}
    (hrows : concat (visit maxItems pages views items).visited = .ok rows) : rows = [] := by
  cases pages with
  | zero => exact (Except.ok.inj hrows).symm
  | succ pages =>
    rcases h with h | h
    · cases h
    · rw [visit] at hrows
      cases hview : (views 0).rows with
      | error e =>
        rw [hview] at hrows
        cases hrows
      | ok rows =>
        rw [rowsOf, hview] at h
        rw [hview] at hrows
        subst h
        exact (Except.ok.inj hrows).symm

/-! ## The result -/

/-- The list is what it is to be for just those pages. -/
theorem meets_iff (field : ListExtractionField) (views : Nat → View ε ρ) :
    Meets field views ↔ Fine field views := by
  -- a click is on a page that is come to, and its list is as long as the rows before it
  have hclicks := @mem_clicks ε ρ field.maxItems (maxPages field) views []
  have hcollected : 0 < field.maxItems.getD 0 → ∀ n,
      (collected field.maxItems views [] n).length =
        min (field.maxItems.getD 0).toNat (rowCount views n) := by
    intro hpos n
    have hempty : cut field.maxItems ([] : List ρ) = [] := by simp [cut]
    have hlength := collected_length hpos n views hempty
    rwa [List.length_nil, Nat.zero_add] at hlength
  constructor
  · intro h
    refine ⟨?_, ?_, ?_⟩
    · -- a control that is clicked is enabled
      rintro n ⟨hn, hreached, hne⟩ hclickable
      have hnone := h.enabled ⟨_, some ""⟩
        ((hclicks _).mpr ⟨n, hn, hreached, hne, hclickable, rfl⟩)
      cases hnone
    · -- a click is wanted, for the list is not full yet
      rintro n ⟨hn, hreached, hne⟩ ⟨disabled, hclickable⟩ hpos
      have hlt := h.wanted ⟨_, disabled⟩
        ((hclicks _).mpr ⟨n, hn, hreached, hne, hclickable, rfl⟩) hpos
      dsimp only at hlt
      rw [hcollected hpos] at hlt
      omega
    · -- below zero the cut takes rows away, unless there are none
      intro hneg
      have hrows := h.rows
      unfold extractList at hrows
      rw [result_of_neg hneg] at hrows
      cases hconcat : concat (visit field.maxItems (maxPages field) views []).visited with
      | error e =>
        exact .inl ((concat_visited_error _ views []).mp ⟨e, hconcat⟩)
      | ok rows =>
        rw [hconcat] at hrows
        have hcut : cut field.maxItems rows = rows := if_neg (by omega)
        obtain rfl : rows = [] := hcut.symm.trans (Except.ok.inj hrows).symm
        exact .inr (concat_visited_nil hconcat)
  · intro h
    refine ⟨visited_length _ _ _, ?_, ?_, ?_⟩
    · -- the rows of the visited pages, cut
      unfold extractList
      by_cases hneg : field.maxItems.getD 0 < 0
      · rw [result_of_neg hneg]
        cases hconcat : concat (visit field.maxItems (maxPages field) views []).visited with
        | error e => rfl
        | ok rows =>
          rcases h.limit hneg with hraises | hempty
          · obtain ⟨e, he⟩ := (concat_visited_error _ views []).mpr hraises
            rw [hconcat] at he
            cases he
          · obtain rfl := concat_visited_empty hempty hconcat
            show Except.ok [] = Except.ok (cut field.maxItems [])
            rw [cut, if_neg (by omega)]
      · rw [result_of_nonneg (by omega) _ _ (by simp [cut])]
        simp only [List.nil_append]
    · -- the clicks are on enabled controls
      intro c hc
      obtain ⟨n, hn, hreached, hne, hclickable, -⟩ := (hclicks c).mp hc
      obtain ⟨nextBtn, hbtn, hdisabled, hnone | hempty⟩ := hclickable
      · exact hnone
      · refine absurd ?_ (h.enabled n ⟨hn, hreached, hne⟩)
        exact ⟨nextBtn, hbtn, by rw [hdisabled, hempty], .inr rfl⟩
    · -- and wanted
      intro c hc hpos
      obtain ⟨n, hn, hreached, hne, hclickable, hlength⟩ := (hclicks c).mp hc
      have hlt := h.wanted n ⟨hn, hreached, hne⟩ ⟨c.disabled, hclickable⟩ hpos
      rw [hlength, hcollected hpos]
      omega

/-- A list of two items, of a page with two rows and a next control that is left to
click. -/
def fullPage : Nat → View String Nat :=
  fun _ => ⟨.ok [1, 2], .ok (some ⟨.ok none, .ok (), .ok ()⟩)⟩

/-- A last page: its control has the attribute as a browser writes it. -/
def lastPage : Nat → View String Nat :=
  fun _ => ⟨.ok [1, 2], .ok (some ⟨.ok (some ""), .error "timeout", .ok ()⟩)⟩

theorem pages_not_meet :
    ¬ Meets { fields := [], maxItems := some 2, pagination := some ⟨"#next", 5, 2000⟩ } fullPage ∧
      ¬ Meets { fields := [], pagination := some ⟨"#next", 5, 2000⟩ } lastPage := by
  constructor
  · intro h
    exact absurd (h.wanted ⟨2, none⟩ (by decide) (by decide)) (by decide)
  · intro h
    exact absurd (h.enabled ⟨2, some ""⟩ (by decide)) (by decide)

end

end Plaidify.Engine.Pagination
