import Plaidify.Engine.Pagination

/-!
# Paginated lists of a page

`extractList` of the engine asks the page itself, which may answer by all that has
happened. `extractList_refines` says that it does what the loop over views does with
what the page shows on the way.
-/

namespace Plaidify.Engine.Pagination

open Raising

/-! ## What a log shows -/

variable {x : Outside}

/-- What a log says of the pages: how many rows each query for them was answered with,
and the attribute of each control that was clicked. -/
structure Seen where
  visited : List (Except Fault Nat) := []
  disabled : Option String := none
  clicked : List (Option String) := []

def see (s : Seen) : Event → Seen
  | .called _ _ (.querySelectorAll _) answer =>
      { s with visited := s.visited ++ [answer.map List.length] }
  | .called _ .pagination (.getAttribute _ _) (.ok disabled) => { s with disabled }
  | .called _ _ (.elementClick _) _ => { s with clicked := s.clicked ++ [s.disabled] }
  | _ => s

def seen (w : World) : Seen :=
  w.log.foldl see {}

/-- The pages of this world so far. -/
def Saw (visited : List (Except Fault Nat)) (clicked : List (Option String)) (w : World) : Prop :=
  (seen w).visited = visited ∧ (seen w).clicked = clicked

theorem seen_note (w : World) (e : Event) : seen (w.note e) = see (seen w) e := by
  unfold seen
  rw [World.note_log, List.foldl_append]
  rfl

theorem after_ask (caller : Caller) (call : Call) (w : World) :
    after (ask x caller call) w =
      match x.answer w.log call with
      | .ok reply => (.ok reply, w.note (.called w.policy.phase caller call (.ok reply)))
      | .error fault =>
          (.error (.fault fault), w.note (.called w.policy.phase caller call (.error fault))) := by
  unfold ask
  rw [after_bind, after_get]
  dsimp only
  cases hanswer : x.answer w.log call with
  | ok reply => rfl
  | error fault => rfl

variable {visited : List (Except Fault Nat)} {clicked : List (Option String)}

/-- A call that shows nothing of the pages. -/
theorem ask_keeps_saw {caller : Caller} {call : Call}
    (h : ∀ s phase answer, see s (.called phase caller call answer) = s) :
    Keeps (Saw visited clicked) (ask x caller call) := by
  intro w hw
  rw [after_ask]
  split
  · show Saw _ _ _
    unfold Saw
    rw [seen_note, h]
    exact hw
  · show Saw _ _ _
    unfold Saw
    rw [seen_note, h]
    exact hw

theorem readValue_keeps_saw (element : Element) (field : ExtractionField) :
    Keeps (Saw visited clicked) (readValue x element field) := by
  unfold readValue
  refine Keeps.bind ?_ fun raw => ?_
  · unfold readText
    split
    · exact Keeps.bind (ask_keeps_saw fun _ _ _ => rfl) fun _ => keeps_pure _
    · exact ask_keeps_saw fun _ _ _ => rfl
  · split
    · exact keeps_pure _
    · exact keeps_throw _

/-- A row raises only where it is cancelled. -/
theorem extractRow_saw (row : Element) (columns : List (String × ExtractionField)) :
    Triple (Saw visited clicked) (extractRow x row columns) (fun _ => Saw visited clicked)
      fun exc _ => exc.isException = false := by
  induction columns with
  | nil => exact triple_pure _ fun _ h => h
  | cons m columns ih =>
    unfold extractRow
    refine Triple.bind (Q := fun _ => Saw visited clicked) ?_ fun value =>
      Triple.bind ih fun rest => triple_pure _ fun _ h => h
    unfold extractColumn
    refine Triple.tryCatch (E := fun _ => Saw visited clicked) ?_ fun exc => ?_
    · refine Keeps.bind (ask_keeps_saw fun _ _ _ => rfl) fun cell => ?_
      split
      · exact readValue_keeps_saw _ m.2
      · exact keeps_pure _
    · split
      · exact triple_pure _ fun _ h => h
      · next hexc => exact triple_throw _ fun _ _ => Bool.not_eq_true _ |>.mp hexc

/-- The loop over the rows takes what some data of theirs has it take. -/
theorem extractRows_saw (field : ListExtractionField) (rows : List Element) :
    ∀ items, Triple (Saw visited clicked) (extractRows x field rows items)
      (fun items' w => Saw visited clicked w ∧
        ∃ data : List Json, data.length = rows.length ∧
          items' = takeRows field.maxItems items data)
      fun exc _ => exc.isException = false := by
  induction rows with
  | nil =>
    intro items
    exact triple_pure _ fun _ h => ⟨h, [], rfl, rfl⟩
  | cons row rows ih =>
    intro items
    unfold extractRows
    dsimp only
    split
    · next hfull =>
      -- what the other rows would yield is not asked for
      refine triple_pure _ fun _ h => ⟨h, List.replicate (rows.length + 1) .null, by simp, ?_⟩
      rw [List.replicate_succ, takeRows, if_pos hfull]
    · next hroom =>
      refine Triple.bind (extractRow_saw row field.fields) fun rowData => ?_
      refine Triple.conseq (ih _) (fun _ h => h) ?_ fun _ _ h => h
      rintro items' w ⟨hw, data, hlength, rfl⟩
      refine ⟨hw, .obj rowData :: data, by simp [hlength], ?_⟩
      rw [takeRows, if_neg hroom]

/-- What the attempt to turn the page did: a control of this kind was found, and it was
clicked or not. -/
def Turned (visited : List (Except Fault Nat)) (clicked : List (Option String)) (goesOn : Bool)
    (w : World) : Prop :=
  ∃ nextBtn : Except Fault (Option (Control Fault)),
    (turn (⟨.ok [], nextBtn⟩ : View Fault Json)).2 = goesOn ∧
      Saw visited (clicked ++ (turn (⟨.ok [], nextBtn⟩ : View Fault Json)).1.toList) w

/-- A control was looked at, and nothing has been clicked. -/
def Looked (visited : List (Except Fault Nat)) (clicked : List (Option String))
    (disabled : Option String) (w : World) : Prop :=
  Saw visited clicked w ∧ (seen w).disabled = disabled

theorem Saw.turned {w : World} (h : Saw visited clicked w)
    (nextBtn : Except Fault (Option (Control Fault)))
    (hnone : turn (⟨.ok [], nextBtn⟩ : View Fault Json) = (none, false)) :
    Turned visited clicked false w := by
  refine ⟨nextBtn, by rw [hnone], ?_⟩
  rw [hnone, Option.toList_none, List.append_nil]
  exact h

/-- The click and the wait behind it. -/
theorem click_turned {nextBtn : Element} {pagination : PaginationConfig} {disabled : Option String}
    (hdisabled : ¬ disabled.getD "" ≠ "") :
    Triple (Looked visited clicked disabled)
      (do
        ask x .pagination (.elementClick nextBtn)
        ask x .pagination (.waitForTimeout pagination.waitAfterClick)
        pure true)
      (Turned visited clicked) fun _ => Turned visited clicked false := by
  have hturn : ∀ click wait : Except Fault Unit,
      turn (⟨.ok [], .ok (some ⟨.ok disabled, click, wait⟩)⟩ : View Fault Json) =
        (some disabled, click.isOk && wait.isOk) := by
    intro click wait
    exact if_neg hdisabled
  have hclicked : ∀ w answer, Looked visited clicked disabled w →
      Saw visited (clicked ++ [disabled])
        (w.note (.called w.policy.phase .pagination (.elementClick nextBtn) answer)) := by
    rintro w answer ⟨⟨hvisited, hclicked⟩, hlooked⟩
    unfold Saw
    rw [seen_note]
    refine ⟨hvisited, ?_⟩
    show (seen w).clicked ++ [(seen w).disabled] = _
    rw [hclicked, hlooked]
  refine Triple.bind (Q := fun _ => Saw visited (clicked ++ [disabled])) ?_ fun _ => ?_
  · intro w hw
    rw [after_ask]
    split
    · exact hclicked w _ hw
    · next fault _ =>
      refine ⟨.ok (some ⟨.ok disabled, .error fault, .ok ()⟩), by rw [hturn]; rfl, ?_⟩
      rw [hturn]
      exact hclicked w _ hw
  · refine Triple.bind (Q := fun _ => Saw visited (clicked ++ [disabled])) ?_ fun _ => ?_
    · refine Triple.conseq (ask_keeps_saw fun _ _ _ => rfl) (fun _ h => h) (fun _ _ h => h) ?_
      intro exc w hw
      refine ⟨.ok (some ⟨.ok disabled, .ok (), .error .cancelled⟩), by rw [hturn]; rfl, ?_⟩
      rw [hturn]
      exact hw
    · refine triple_pure _ fun w hw => ?_
      refine ⟨.ok (some ⟨.ok disabled, .ok (), .ok ()⟩), by rw [hturn]; rfl, ?_⟩
      rw [hturn]
      exact hw

theorem clickNext_turned (pagination : PaginationConfig) :
    Triple (Saw visited clicked) (clickNext x pagination) (Turned visited clicked)
      fun _ => Turned visited clicked false := by
  unfold clickNext
  refine Triple.bind (Q := fun _ => Saw visited clicked) ?_ fun nextBtn => ?_
  · refine Triple.conseq (ask_keeps_saw fun _ _ _ => rfl) (fun _ h => h) (fun _ _ h => h) ?_
    intro exc w hw
    exact hw.turned (.error .cancelled) rfl
  · cases nextBtn with
    | none => exact triple_pure _ fun w hw => hw.turned (.ok none) rfl
    | some nextBtn =>
      refine Triple.bind (Q := fun isDisabled => Looked visited clicked isDisabled) ?_
        fun isDisabled => ?_
      · intro w hw
        rw [after_ask]
        split
        · next isDisabled _ =>
          show Looked _ _ isDisabled _
          unfold Looked Saw
          rw [seen_note]
          exact ⟨hw, rfl⟩
        · next fault _ =>
          refine Saw.turned ?_ (.ok (some ⟨.error fault, .ok (), .ok ()⟩)) rfl
          unfold Saw
          rw [seen_note]
          exact hw
      · split
        · next hdisabled =>
          refine triple_pure _ fun w hw => hw.1.turned
            (.ok (some ⟨.ok isDisabled, .ok (), .ok ()⟩)) (if_pos hdisabled)
        · next hdisabled => exact click_turned hdisabled

theorem nextPage_turned (pagination : PaginationConfig) :
    Triple (Saw visited clicked) (nextPage x pagination) (Turned visited clicked)
      fun exc _ => exc.isException = false := by
  unfold nextPage
  refine Triple.tryCatch (clickNext_turned pagination) fun exc => ?_
  split
  · exact triple_pure _ fun _ h => h
  · next hexc => exact triple_throw _ fun _ _ => Bool.not_eq_true _ |>.mp hexc

/-- The world shows this run. -/
def Ran (visited : List (Except Fault Nat)) (clicked : List (Option String))
    (t : Trace Fault Json) (w : World) : Prop :=
  Saw (visited ++ t.visited.map (Except.map List.length)) (clicked ++ t.clicks.map Click.disabled) w

/-- The pages that a computation of the list has come to. -/
def Refined (field : ListExtractionField) (pages : Nat) (visited : List (Except Fault Nat))
    (clicked : List (Option String)) (items : List Json) (result : Except Fault (List Json))
    (w : World) : Prop :=
  ∃ views : Nat → View Fault Json, (visit field.maxItems pages views items).result = result ∧
    Ran visited clicked (visit field.maxItems pages views items) w

/-- A page in front of other pages. -/
def consView (v : View Fault Json) (views : Nat → View Fault Json) : Nat → View Fault Json
  | 0 => v
  | n + 1 => views n

/-- The last page of a list. -/
theorem refined_last {field : ListExtractionField} {w : World} {items data : List Json}
    (hdata : data ≠ [])
    (hw : Saw (visited ++ [.ok data.length]) clicked w) :
    Refined field 1 visited clicked items (.ok (takeRows field.maxItems items data)) w := by
  obtain ⟨d, ds, rfl⟩ := List.exists_cons_of_ne_nil hdata
  have hvisit : visit field.maxItems 1
      (fun _ => ⟨.ok (d :: ds), .ok none⟩ : Nat → View Fault Json) items =
      ⟨[.ok (d :: ds)], [], .ok (takeRows field.maxItems items (d :: ds))⟩ := rfl
  refine ⟨fun _ => ⟨.ok (d :: ds), .ok none⟩, by rw [hvisit], ?_⟩
  unfold Ran
  rw [hvisit, List.map_nil, List.append_nil]
  exact hw

/-- A page that is not turned. -/
theorem refined_stopped {field : ListExtractionField} {pages : Nat} {w : World}
    {items data : List Json} (hdata : data ≠ []) (hpages : pages ≠ 0)
    (hw : Turned (visited ++ [.ok data.length]) clicked false w) :
    Refined field (pages + 1) visited clicked items (.ok (takeRows field.maxItems items data)) w := by
  obtain ⟨d, ds, rfl⟩ := List.exists_cons_of_ne_nil hdata
  obtain ⟨nextBtn, hstops, hsaw⟩ := hw
  have hvisit : visit field.maxItems (pages + 1) (fun _ => ⟨.ok (d :: ds), nextBtn⟩) items =
      ⟨[.ok (d :: ds)], (turn (⟨.ok [], nextBtn⟩ : View Fault Json)).1.toList.map fun disabled =>
        ⟨(takeRows field.maxItems items (d :: ds)).length, disabled⟩,
        .ok (takeRows field.maxItems items (d :: ds))⟩ := by
    rw [visit]
    dsimp only
    rw [if_neg hpages]
    exact if_neg (fun hon => Bool.false_ne_true (hstops.symm.trans hon))
  refine ⟨fun _ => ⟨.ok (d :: ds), nextBtn⟩, by rw [hvisit], ?_⟩
  unfold Ran
  rw [hvisit, List.map_map]
  have hid : (Click.disabled ∘ fun disabled =>
      Click.mk (takeRows field.maxItems items (d :: ds)).length disabled) = id := rfl
  rw [hid, List.map_id]
  exact hsaw

/-- A page that is turned, and the pages behind it. -/
theorem refined_turned {field : ListExtractionField} {pages : Nat} {w' : World}
    {items data : List Json} {result : Except Fault (List Json)} (hdata : data ≠ [])
    (hpages : pages ≠ 0) {nextBtn : Except Fault (Option (Control Fault))}
    (hon : (turn (⟨.ok [], nextBtn⟩ : View Fault Json)).2 = true)
    (hrest : Refined field pages (visited ++ [.ok data.length])
      (clicked ++ (turn (⟨.ok [], nextBtn⟩ : View Fault Json)).1.toList)
      (takeRows field.maxItems items data) result w') :
    Refined field (pages + 1) visited clicked items result w' := by
  obtain ⟨d, ds, rfl⟩ := List.exists_cons_of_ne_nil hdata
  obtain ⟨views, hresult, hran⟩ := hrest
  refine ⟨consView ⟨.ok (d :: ds), nextBtn⟩ views, ?_⟩
  have hvisit : visit field.maxItems (pages + 1) (consView ⟨.ok (d :: ds), nextBtn⟩ views) items =
      ⟨.ok (d :: ds) ::
          (visit field.maxItems pages views (takeRows field.maxItems items (d :: ds))).visited,
        ((turn (⟨.ok [], nextBtn⟩ : View Fault Json)).1.toList.map fun disabled =>
            ⟨(takeRows field.maxItems items (d :: ds)).length, disabled⟩) ++
          (visit field.maxItems pages views (takeRows field.maxItems items (d :: ds))).clicks,
        (visit field.maxItems pages views (takeRows field.maxItems items (d :: ds))).result⟩ := by
    rw [visit]
    dsimp only [consView]
    rw [if_neg hpages]
    exact if_pos hon
  rw [hvisit]
  refine ⟨hresult, ?_⟩
  have hid : (Click.disabled ∘ fun disabled =>
      Click.mk (takeRows field.maxItems items (d :: ds)).length disabled) = id := rfl
  unfold Ran at hran ⊢
  rw [List.map_cons, List.map_append, List.map_map, hid, List.map_id, ← List.append_assoc,
    ← List.singleton_append, ← List.append_assoc]
  exact hran

theorem extractPages_refined (field : ListExtractionField) (pages : Nat) :
    (field.pagination = none → pages ≤ 1) → ∀ visited clicked items,
      Triple (Saw visited clicked) (extractPages x field pages items)
        (fun items' => Refined field pages visited clicked items (.ok items'))
        fun exc w => exc.isException = true → ∃ fault, exc = .fault fault ∧
          Refined field pages visited clicked items (.error fault) w := by
  induction pages with
  | zero =>
    intro _ visited clicked items
    refine triple_pure _ fun w hw => ⟨fun _ => ⟨.ok [], .ok none⟩, rfl, ?_⟩
    unfold Ran
    rw [visit, List.map_nil, List.map_nil, List.append_nil, List.append_nil]
    exact hw
  | succ pages ih =>
    intro hpages visited clicked items
    unfold extractPages
    -- the page is asked for the rows once, and answers
    have hquery : ∀ w answer, Saw visited clicked w →
        Saw (visited ++ [answer.map List.length]) clicked
          (w.note (.called w.policy.phase .extractor (.querySelectorAll field.selector) answer)) := by
      rintro w answer ⟨hvisited, hclicked⟩
      unfold Saw
      rw [seen_note]
      refine ⟨?_, hclicked⟩
      show (seen w).visited ++ [answer.map List.length] = _
      rw [hvisited]
    refine Triple.bind (Q := fun rows => Saw (visited ++ [.ok rows.length]) clicked) ?_
      fun rows => ?_
    · intro w hw
      rw [after_ask]
      split
      · exact hquery w _ hw
      · -- the question fails, and no row is taken
        next fault _ =>
        intro _
        refine ⟨fault, rfl, fun _ => ⟨.error fault, .ok none⟩, rfl, ?_⟩
        unfold Ran
        rw [visit, List.map_nil, List.append_nil]
        exact hquery w _ hw
    · cases rows with
      -- no row: the extraction ends on this page
      | nil =>
        refine triple_pure _ fun w hw => ⟨fun _ => ⟨.ok [], .ok none⟩, rfl, ?_⟩
        unfold Ran
        rw [visit, List.map_nil, List.append_nil]
        exact hw
      | cons row rows =>
        refine Triple.bind (Triple.conseq (extractRows_saw field (row :: rows) items)
          (fun _ h => h) (fun _ _ h => h) fun exc w hexc hraised => ?_) fun items' => ?_
        · rw [hexc] at hraised
          cases hraised
        · -- every row gives one piece of data
          intro w hw
          obtain ⟨hsaw, data, hlength, rfl⟩ := hw
          have hdata : data ≠ [] := by
            rintro rfl
            cases hlength
          rw [← hlength] at hsaw
          cases hpagination : field.pagination with
          | none =>
            -- there is one page
            obtain rfl : pages = 0 := by
              have hle := hpages hpagination
              omega
            exact refined_last hdata hsaw
          | some pagination =>
            dsimp only
            -- the last page allowed, or the next button is looked for
            by_cases hlast : pages = 0
            · subst hlast
              rw [if_pos rfl]
              exact refined_last hdata hsaw
            · rw [if_neg hlast]
              refine Triple.bind (Triple.conseq (nextPage_turned pagination)
                (fun _ h => h) (fun _ _ h => h) fun exc w hexc hraised => ?_)
                (fun goesOn => ?_) w hsaw
              · rw [hexc] at hraised
                cases hraised
              · cases goesOn with
                -- there is no button to press
                | false =>
                  exact triple_pure _ fun w hw => refined_stopped hdata hlast hw
                -- the button is pressed, and the rest runs on the next page
                | true =>
                  rintro w ⟨nextBtn, hon, hsaw⟩
                  have hrest := ih (fun h => by rw [hpagination] at h; cases h) _ _
                    (takeRows field.maxItems items data) w hsaw
                  rw [if_pos rfl]
                  revert hrest
                  rcases after (extractPages x field pages _) w with ⟨exc | items', w'⟩
                  · intro hrest hraised
                    obtain ⟨fault, rfl, hrefined⟩ := hrest hraised
                    exact ⟨fault, rfl, refined_turned hdata hlast hon hrefined⟩
                  · intro hrest
                    exact refined_turned hdata hlast hon hrest

/-- What `_extract_list` does with a page is what it does with the views that the page
shows on the way, unless it is cancelled. -/
theorem extractList_refines (field : ListExtractionField) (w : World) :
    Ends
      (fun value w' => ∃ (views : Nat → View Fault Json) (items : List Json), value = .arr items ∧
        (extractList field views).result = .ok items ∧
        Ran (seen w).visited (seen w).clicked (extractList field views) w')
      (fun exc w' => exc.isException = true → ∃ (views : Nat → View Fault Json) (fault : Fault),
        exc = .fault fault ∧ (extractList field views).result = .error fault ∧
        Ran (seen w).visited (seen w).clicked (extractList field views) w')
      (after (Engine.extractList x field) w) := by
  have hpages : field.pagination = none → maxPages field ≤ 1 := by
    intro hnone
    unfold maxPages
    rw [hnone]
    exact Nat.le_refl 1
  have hrun := extractPages_refined (x := x) field (maxPages field) hpages (seen w).visited
    (seen w).clicked [] w ⟨rfl, rfl⟩
  unfold Engine.extractList
  dsimp only
  rw [after_bind]
  change Ends _ _ (after (extractPages x field (maxPages field) []) w) at hrun
  have hmax : ((field.pagination.map PaginationConfig.maxPages).getD 1).toNat = maxPages field := rfl
  rw [hmax]
  revert hrun
  rcases after (extractPages x field (maxPages field) []) w with ⟨exc | items, w'⟩
  · intro hrun hraised
    obtain ⟨fault, hexc, views, hresult, hran⟩ := hrun hraised
    exact ⟨views, fault, hexc, hresult, hran⟩
  · rintro ⟨views, hresult, hran⟩
    exact ⟨views, items, rfl, hresult, hran⟩

end Plaidify.Engine.Pagination
