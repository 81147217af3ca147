import MistralrsProxy.LogsTui

/-! Whole sessions of the explorer of the log. Every press and every refresh leaves the cursor on a listed row, and
the row a press selected stays the highlighted one however many records arrive. -/

open Transition Machine

namespace MistralrsProxy

namespace Tui

variable {app next : App}

namespace App

/-- What holds of an explorer apart from its cursor. -/
structure Sound (app : App) : Prop where
  summary : app.summary = summaryOf app.records
  userSelected : app.userSelected < app.summary.byPrincipal.length ∨ app.userSelected = 0
  editing : app.editingFilter = true → app.view = .requests
  tableScroll : app.tableScroll ≤ u16Max

/-- The cursor is on a listed row, and on the row of the selected request while one is listed. -/
structure Cursor (app : App) : Prop where
  inRange : app.selected < app.visible.length ∨ app.selected = 0
  followed : ∀ record ∈ app.visible, app.selectedId = some record.requestId →
    app.visible[app.selected]?.map ShownRecord.requestId = some record.requestId
  unselected : app.selectedId = none → app.selected = 0

structure Inv (app : App) : Prop extends Sound app, Cursor app

/-- A cursor that is kept from going beyond the last index of its list. -/
theorem min_pred_lt (index length : Nat) : min index (length - 1) < length ∨ min index (length - 1) = 0 := by omega

theorem cursor_select (app : App) (index : Nat) : (app.select index).Cursor := by
  have hvisible : (app.select index).visible = app.visible := rfl
  refine ⟨?_, ?_, ?_⟩
  · exact min_pred_lt index _
  · intro record _ hid
    rw [hvisible]
    exact hid
  · intro hid
    have hnone : app.visible[min index (app.visible.length - 1)]?.map ShownRecord.requestId = none := hid
    rw [Option.map_eq_none_iff, List.getElem?_eq_none_iff] at hnone
    change min index (app.visible.length - 1) = 0
    omega

theorem Inv.select (h : app.Sound) (index : Nat) : (app.select index).Inv :=
  ⟨⟨h.summary, h.userSelected, h.editing, h.tableScroll⟩, cursor_select app index⟩

theorem cursor_resolveSelection (app : App) : app.resolveSelection.Cursor := by
  cases hid : app.selectedId with
  | none =>
      have hresolve : app.resolveSelection = { app with selected := 0 } := by
        rw [resolveSelection, hid]
      rw [hresolve]
      refine ⟨.inr rfl, fun record _ hsome => ?_, fun _ => rfl⟩
      have hsome : app.selectedId = some record.requestId := hsome
      rw [hid] at hsome
      cases hsome
  | some id =>
      have hresolve : app.resolveSelection =
          { app with selected := (app.visible.findIdx? fun record => record.requestId = id).getD 0 } := by
        rw [resolveSelection, hid]
      have hvisible : app.resolveSelection.visible = app.visible := by
        rw [hresolve]
        rfl
      cases hindex : app.visible.findIdx? fun record => decide (record.requestId = id) with
      | none =>
          rw [hindex] at hresolve
          refine ⟨.inr (by rw [hresolve]; rfl), fun record hmem hsome => ?_, fun _ => by rw [hresolve]; rfl⟩
          rw [hresolve] at hsome
          have hsome : app.selectedId = some record.requestId := hsome
          rw [hid] at hsome
          rw [hvisible] at hmem
          have hother := List.findIdx?_eq_none_iff.mp hindex record hmem
          cases hsome
          simp at hother
      | some index =>
          rw [hindex] at hresolve
          obtain ⟨hlt, hthis, _⟩ := List.findIdx?_eq_some_iff_getElem.mp hindex
          have hselected : app.resolveSelection.selected = index := by rw [hresolve]; rfl
          refine ⟨.inl ?_, fun record _ hsome => ?_, fun hnone => ?_⟩
          · rw [hvisible, hselected]
            exact hlt
          · rw [hresolve] at hsome
            have hsome : app.selectedId = some record.requestId := hsome
            rw [hid] at hsome
            rw [hvisible, hselected, List.getElem?_eq_getElem hlt, Option.map_some, ← Option.some.inj hsome]
            exact congrArg some (of_decide_eq_true hthis)
          · rw [hresolve] at hnone
            have hnone : app.selectedId = none := hnone
            rw [hid] at hnone
            cases hnone

/-- The records held after a poll. -/
def held (records : List ShownRecord) (appended : Polled) : List ShownRecord :=
  if appended.restarted then appended.records else records ++ appended.records

/-- A refresh changes nothing but the status, or takes over the records, and then resolves the selection. -/
theorem refresh_cases (poll : Except String Polled) (app : App) :
    (∃ status, app.refresh poll = { app with status := status } ∧
        ∀ appended, poll = .ok appended → held app.records appended = app.records) ∨
      ∃ appended status, poll = .ok appended ∧ app.refresh poll =
        { app with
          records := held app.records appended
          summary := summaryOf (held app.records appended)
          userSelected := min app.userSelected ((summaryOf (held app.records appended)).byPrincipal.length - 1)
          status := status }.resolveSelection := by
  cases poll with
  | error error => exact .inl ⟨_, rfl, fun appended h => by cases h⟩
  | ok appended =>
      obtain ⟨records, restarted⟩ := appended
      cases restarted with
      | true => exact .inr ⟨_, _, rfl, rfl⟩
      | false =>
          cases records with
          | nil =>
              refine .inl ⟨app.status, rfl, ?_⟩
              intro appended h
              cases h
              exact List.append_nil _
          | cons first rest => exact .inr ⟨_, _, rfl, rfl⟩

theorem resolveSelection_selectedId (app : App) : app.resolveSelection.selectedId = app.selectedId := by
  cases hid : app.selectedId <;> rw [resolveSelection, hid]

theorem Sound.resolveSelection (h : app.Sound) : app.resolveSelection.Sound := by
  cases hid : app.selectedId <;> rw [App.resolveSelection, hid] <;>
    exact ⟨h.summary, h.userSelected, h.editing, h.tableScroll⟩

theorem Inv.refresh (h : app.Inv) (poll : Except String Polled) : (app.refresh poll).Inv := by
  rcases refresh_cases poll app with ⟨status, hnext, _⟩ | ⟨appended, status, _, hnext⟩
  · rw [hnext]
    exact ⟨⟨h.summary, h.userSelected, h.editing, h.tableScroll⟩, ⟨h.inRange, h.followed, h.unselected⟩⟩
  · rw [hnext]
    refine ⟨Sound.resolveSelection ⟨rfl, ?_, h.editing, h.tableScroll⟩, cursor_resolveSelection _⟩
    exact min_pred_lt _ _

theorem refresh_selectedId (poll : Except String Polled) (app : App) :
    (app.refresh poll).selectedId = app.selectedId := by
  rcases refresh_cases poll app with ⟨status, hnext, _⟩ | ⟨appended, status, _, hnext⟩
  · rw [hnext]
  · rw [hnext, resolveSelection_selectedId]

/-- A cursor that was moved within its list stays in it. -/
theorem motion_lt {code : KeyCode} {index length moved : Nat} (hindex : index < length ∨ index = 0)
    (h : motion code index (length - 1) = some moved) : moved < length ∨ moved = 0 := by
  unfold motion at h
  split at h <;> cases h <;> omega

theorem Inv.handleFilter (h : app.Inv) (code : KeyCode) : (app.handleFilter code).Inv := by
  cases code with
  | char char =>
      refine Inv.select ?_ 0
      exact ⟨h.summary, h.userSelected, h.editing, h.tableScroll⟩
  | backspace =>
      refine Inv.select ?_ 0
      exact ⟨h.summary, h.userSelected, h.editing, h.tableScroll⟩
  | enter =>
      refine Inv.select ?_ 0
      exact ⟨h.summary, h.userSelected, fun hediting => absurd hediting Bool.false_ne_true, h.tableScroll⟩
  | esc =>
      refine Inv.select ?_ 0
      exact ⟨h.summary, h.userSelected, fun hediting => absurd hediting Bool.false_ne_true, h.tableScroll⟩
  | up | down | left | right | home | last | pageUp | pageDown | tab | other => exact h

theorem Inv.openUser (h : app.Inv) : app.openUser.Inv := by
  unfold App.openUser
  split
  · exact h
  · refine Inv.select ?_ 0
    exact ⟨h.summary, h.userSelected, fun _ => rfl, h.tableScroll⟩

theorem Inv.handleUsers {code : KeyCode} (h : app.Inv) (hnext : app.handleUsers code = some next) : next.Inv := by
  unfold App.handleUsers at hnext
  split at hnext
  · rename_i index hmotion
    cases hnext
    exact ⟨⟨h.summary, motion_lt h.userSelected hmotion, h.editing, h.tableScroll⟩,
      ⟨h.inRange, h.followed, h.unselected⟩⟩
  · split at hnext
    · cases hnext
      exact h.openUser
    · cases hnext

/-- An update of what neither the list nor the cursor depends on. -/
theorem Inv.restate (h : app.Inv) (view : View) (editingFilter : Bool) (tableScroll : Nat) (status : String)
    (quit : Bool) (hediting : editingFilter = true → view = .requests) (hscroll : tableScroll ≤ u16Max) :
    { app with view := view, editingFilter := editingFilter, tableScroll := tableScroll, status := status,
               quit := quit }.Inv :=
  ⟨⟨h.summary, h.userSelected, hediting, hscroll⟩, ⟨h.inRange, h.followed, h.unselected⟩⟩

theorem handleCommon_of_motion {code : KeyCode} {index : Nat} (poll : Except String Polled)
    (h : motion code app.selected (app.visible.length - 1) = some index) :
    app.handleCommon poll code = app.select index := by
  unfold App.handleCommon
  rw [h]

theorem Inv.handleCommon (h : app.Inv) (hediting : app.editingFilter = false) (poll : Except String Polled)
    (code : KeyCode) : (app.handleCommon poll code).Inv := by
  have hidle : ∀ view : View, app.editingFilter = true → view = .requests := by
    intro view hon
    rw [hediting] at hon
    cases hon
  have hscroll := h.tableScroll
  unfold App.handleCommon
  split
  · exact Inv.select h.toSound _
  · split
    · exact h.restate _ _ _ _ _ (hidle _) hscroll
    · exact h.restate _ _ _ _ _ (hidle _) (by unfold scrollStep; omega)
    · exact h.restate _ _ _ _ _ (hidle _) (by unfold scrollStep; omega)
    · exact h.restate _ _ _ _ _ (hidle _) (Nat.min_le_right _ _)
    · exact h.restate _ _ _ _ _ (hidle _) (Nat.min_le_right _ _)
    · exact h.restate _ _ _ _ _ (hidle _) hscroll
    · exact h.restate _ _ _ _ _ (hidle _) hscroll
    · exact h.restate _ _ _ _ _ (hidle _) hscroll
    · exact h.restate _ _ _ _ _ (hidle _) hscroll
    · exact h.restate _ _ _ _ _ (fun _ => rfl) hscroll
    · refine Inv.select ?_ 0
      exact ⟨h.summary, h.userSelected, fun _ => rfl, hscroll⟩
    · have hrefreshed := h.refresh poll
      exact hrefreshed.restate _ _ _ _ _ hrefreshed.editing hrefreshed.tableScroll
    · split
      · refine Inv.select ?_ 0
        exact ⟨h.summary, h.userSelected, h.editing, hscroll⟩
      · exact h.restate _ _ _ _ _ (hidle _) hscroll
    · exact h.restate _ _ _ _ _ (hidle _) hscroll
    · exact h

theorem Inv.handle (h : app.Inv) (poll : Except String Polled) (code : KeyCode) : (app.handle poll code).Inv := by
  unfold App.handle
  by_cases hediting : app.editingFilter = true
  · rw [if_pos hediting]
    exact h.handleFilter code
  · rw [if_neg hediting]
    rw [Bool.not_eq_true] at hediting
    split
    · cases hnext : app.handleUsers code with
      | none => exact h.handleCommon hediting poll code
      | some next => exact h.handleUsers hnext
    · exact h.handleCommon hediting poll code

/-- What a step of the loop comes down to. -/
theorem step_eq_some_iff {event : Event} :
    app.step event = some next ↔
      app.quit = false ∧ next = app.after event ∧ Allocated (app.after event).records := by
  unfold App.step
  cases app.quit with
  | true => simp
  | false =>
      by_cases hallocated : Allocated (app.after event).records
      · simp [hallocated, eq_comm]
      · simp [hallocated]

theorem step_after {event : Event} (hquit : app.quit = false) (hallocated : Allocated (app.after event).records) :
    explorerSystem.step app event = some (app.after event) := step_eq_some_iff.mpr ⟨hquit, rfl, hallocated⟩

theorem after_of_step {event : Event} (h : app.step event = some next) : next = app.after event :=
  (step_eq_some_iff.mp h).2.1

theorem step_inv {event : Event} (h : app.Inv) (hstep : app.step event = some next) :
    next.Inv ∧ Allocated next.records := by
  obtain ⟨_, rfl, hallocated⟩ := step_eq_some_iff.mp hstep
  refine ⟨?_, hallocated⟩
  cases event with
  | press code poll => exact h.handle poll code
  | interrupt => exact h.restate _ _ _ _ _ h.editing h.tableScroll
  | tick poll => exact h.refresh poll

theorem inv_new (records : List ShownRecord) : (App.new records).Inv where
  summary := rfl
  userSelected := .inr rfl
  editing := fun hediting => absurd hediting Bool.false_ne_true
  tableScroll := Nat.zero_le _
  inRange := .inr rfl
  followed := fun _ _ hsome => by cases hsome
  unselected := fun _ => rfl

theorem inv_of_run {guard : App → Event → Prop} {record : List (Step App Event)}
    (hrun : Run explorerSystem guard record app) : app.Inv ∧ Allocated app.records := by
  refine hrun.invariant (I := fun app => app.Inv ∧ Allocated app.records) ?_ ?_
  · rintro app ⟨records, hallocated, rfl⟩
    exact ⟨inv_new records, hallocated⟩
  · intro app event next h _ hstep
    exact step_inv h.1 hstep

/-- The press selects a row of the list, if that has one. -/
def selectsRow (code : KeyCode) (app : App) : Bool :=
  if app.editingFilter then
    match code with
    | .char _ | .backspace | .enter | .esc => true
    | _ => false
  else if app.view = .users ∧ code = .enter then app.userSelected < app.summary.byPrincipal.length
  else if code = .char 'e' then true
  else if code = .esc then app.view = .requests && app.principal.isSome
  else app.view ≠ .users && (motion code app.selected (app.visible.length - 1)).isSome

/-- What a press comes to for the cursor: it is put on a row, or the selected request is left alone. -/
def Moves (app : App) (selects : Bool) (next : App) : Prop :=
  if selects then ∃ before index, next = select index before else next.selectedId = app.selectedId

theorem Moves.select (app before : App) (index : Nat) : app.Moves true (before.select index) := ⟨before, index, rfl⟩

theorem Moves.stay (h : next.selectedId = app.selectedId) : app.Moves false next := h

/-- Which keys move a cursor does not depend on where it is. -/
theorem motion_isSome (code : KeyCode) (index last index' last' : Nat) :
    (motion code index last).isSome = (motion code index' last').isSome := by
  unfold motion
  split <;> rfl

theorem handleFilter_moves (code : KeyCode) (hediting : app.editingFilter = true) :
    app.Moves (app.selectsRow code) (app.handleFilter code) := by
  cases code with
  | char | backspace | enter | esc =>
      unfold selectsRow
      rw [if_pos hediting]
      exact .select ..
  | up | down | left | right | home | last | pageUp | pageDown | tab | other =>
      unfold selectsRow
      rw [if_pos hediting]
      exact .stay rfl

theorem openUser_moves : app.Moves (app.userSelected < app.summary.byPrincipal.length) app.openUser := by
  unfold openUser
  split
  · rename_i hrow
    rw [decide_eq_false (Nat.not_lt.mpr (List.getElem?_eq_none_iff.mp hrow))]
    exact .stay rfl
  · rename_i row _ hrow
    rw [decide_eq_true (List.getElem?_eq_some_iff.mp hrow).1]
    exact .select ..

/-- Apart from a key that moves the cursor, only two keys select a row in every view. -/
theorem handleCommon_selectedId (poll : Except String Polled) {code : KeyCode} (herrors : code ≠ .char 'e')
    (hesc : code ≠ .esc) (hmotion : motion code app.selected (app.visible.length - 1) = none) :
    (app.handleCommon poll code).selectedId = app.selectedId := by
  have hrefresh : (app.refresh poll).selectedId = app.selectedId := refresh_selectedId poll app
  unfold handleCommon
  rw [hmotion]
  dsimp only
  split
  all_goals first
    | rfl
    | exact hrefresh
    | contradiction

theorem handleCommon_moves (poll : Except String Polled) (code : KeyCode) (app : App) :
    app.Moves (if code = .char 'e' then true else if code = .esc then app.view = .requests && app.principal.isSome
      else (motion code app.selected (app.visible.length - 1)).isSome) (app.handleCommon poll code) := by
  by_cases herrors : code = .char 'e'
  · rw [if_pos herrors, herrors]
    exact .select ..
  · rw [if_neg herrors]
    by_cases hesc : code = .esc
    · rw [if_pos hesc, hesc]
      by_cases hprincipal : app.view = .requests ∧ app.principal.isSome
      · have hleft : app.handleCommon poll .esc = select 0 { app with
            principal := none
            status := "Showing requests from everyone." } := if_pos hprincipal
        rw [hleft, decide_eq_true hprincipal.1, hprincipal.2]
        exact .select ..
      · have hquit : app.handleCommon poll .esc = { app with quit := true } := if_neg hprincipal
        have hnone : (decide (app.view = .requests) && app.principal.isSome) = false := by simpa using hprincipal
        rw [hquit, hnone]
        exact .stay rfl
    · rw [if_neg hesc]
      cases hmotion : motion code app.selected (app.visible.length - 1) with
      | some index =>
          rw [handleCommon_of_motion poll hmotion]
          exact .select ..
      | none => exact .stay (handleCommon_selectedId poll herrors hesc hmotion)

/-- A press selects a row, or leaves the selected request alone. -/
theorem handle_moves (poll : Except String Polled) (code : KeyCode) (app : App) :
    app.Moves (app.selectsRow code) (app.handle poll code) := by
  by_cases hediting : app.editingFilter = true
  · rw [handle, if_pos hediting]
    exact handleFilter_moves code hediting
  · rw [handle, if_neg hediting]
    unfold selectsRow
    rw [if_neg hediting]
    by_cases hview : app.view = .users
    · rw [if_pos hview]
      have hcursor := motion_isSome code app.selected (app.visible.length - 1) app.userSelected
        (app.summary.byPrincipal.length - 1)
      cases hmotion : motion code app.userSelected (app.summary.byPrincipal.length - 1) with
      | some index =>
          have hmoved : app.handleUsers code = some { app with userSelected := index } := by rw [handleUsers, hmotion]
          have hkey : code ≠ .enter ∧ code ≠ .char 'e' ∧ code ≠ .esc := by
            refine ⟨?_, ?_, ?_⟩
            all_goals
              rintro rfl
              cases hmotion
          rw [hmoved, if_neg fun h => hkey.1 h.2, if_neg hkey.2.1, if_neg hkey.2.2, decide_eq_false (not_not.mpr hview)]
          exact .stay rfl
      | none =>
          by_cases henter : code = .enter
          · rw [if_pos ⟨hview, henter⟩, handleUsers, hmotion]
            dsimp only
            rw [if_pos henter]
            exact openUser_moves
          · have hcommon := handleCommon_moves poll code app
            rw [hmotion, Option.isSome_none] at hcursor
            rw [hcursor] at hcommon
            rw [handleUsers, hmotion, if_neg fun h => henter h.2, hcursor, Bool.and_false]
            dsimp only
            rw [if_neg henter]
            exact hcommon
    · have hother : ¬(app.view = .users ∧ code = .enter) := fun h => hview h.1
      rw [if_neg hview, if_neg hother, decide_eq_true hview, Bool.true_and]
      exact handleCommon_moves poll code app

/-- The step is a press that selects a row. -/
def Selects (step : Step App Event) : Prop :=
  ∃ code poll, step.action = .press code poll ∧ step.before.selectsRow code = true

/-- The row a press selected is the one a refresh looks for. -/
theorem Selects.selectedId {step : Step App Event} {row : ShownRecord} (h : Selects step)
    (hstep : step.before.step step.action = some step.after)
    (hrow : step.after.visible[step.after.selected]? = some row) : step.after.selectedId = some row.requestId := by
  obtain ⟨code, poll, haction, hselects⟩ := h
  have hmoves := handle_moves poll code step.before
  rw [hselects] at hmoves
  obtain ⟨before, index, hselected⟩ := hmoves
  have hafter : step.after = before.select index := by rw [after_of_step hstep, haction, ← hselected]; rfl
  rw [hafter] at hrow ⊢
  have hid : (before.select index).selectedId =
      (before.select index).visible[(before.select index).selected]?.map ShownRecord.requestId := rfl
  rw [hid, hrow, Option.map_some]

/-- Neither a refresh nor any other press selects another request. -/
theorem selectedId_of_unselecting {guard : App → Event → Prop} {recent older : List (Step App Event)}
    {last : Step App Event} (hrun : Run explorerSystem guard (recent ++ last :: older) app)
    (hrecent : ∀ step ∈ recent, ¬Selects step) : app.selectedId = last.after.selectedId := by
  induction recent generalizing app with
  | nil => rw [← (hrun.cons_inv).1]
  | cons step rest ih =>
      obtain ⟨hafter, hbefore, _, hstep⟩ := hrun.cons_inv
      have hrest := ih hbefore fun other hmem => hrecent other (List.mem_cons_of_mem _ hmem)
      rw [← hafter, ← hrest, after_of_step hstep]
      cases haction : step.action with
      | press code poll =>
          have hselects : step.before.selectsRow code = false := by
            rw [← Bool.not_eq_true]
            exact fun hselects => hrecent step List.mem_cons_self ⟨code, poll, haction, hselects⟩
          have hmoves := handle_moves poll code step.before
          rw [hselects] at hmoves
          exact hmoves
      | interrupt => rfl
      | tick poll => exact refresh_selectedId poll step.before

end App

/-- The bound of a cursor, for a list that may be empty. -/
theorem inRange_or_nil {T : Type} {list : List T} {index : Nat} (h : index < list.length ∨ index = 0) :
    index < list.length ∨ list = [] ∧ index = 0 := by
  cases list with
  | nil => exact .inr ⟨rfl, by rw [List.length_nil] at h; omega⟩
  | cons first rest => exact .inl (by rw [List.length_cons] at h ⊢; omega)

/-- In every session the summary is that of the records that are held, both cursors stay on rows of their lists, and the
filter is edited only where its effect is seen. Once a press selected a row, the highlight is on that request until
another press selects one: after any number of refreshes, pressed or not, wherever it is listed by then and also if it
was not listed for a while. -/
theorem explorer_keeps_its_place (record : List (Step App Event)) (app : App)
    (hrun : Run explorerSystem Free record app) :
    app.summary = summaryOf app.records ∧
      (app.selected < app.visible.length ∨ app.visible = [] ∧ app.selected = 0) ∧
      (app.userSelected < app.summary.byPrincipal.length ∨ app.summary.byPrincipal = [] ∧ app.userSelected = 0) ∧
      (app.editingFilter = true → app.view = .requests) ∧ app.tableScroll ≤ u16Max ∧
      ∀ (recent older : List (Step App Event)) (last : Step App Event) (row : ShownRecord),
        record = recent ++ last :: older → App.Selects last → (∀ step ∈ recent, ¬App.Selects step) →
        last.after.visible[last.after.selected]? = some row →
        ∀ listed ∈ app.visible, listed.requestId = row.requestId →
          ∃ highlighted, app.visible[app.selected]? = some highlighted ∧ highlighted.requestId = row.requestId := by
  obtain ⟨hinv, _⟩ := App.inv_of_run hrun
  refine ⟨hinv.summary, inRange_or_nil hinv.inRange, inRange_or_nil hinv.userSelected, hinv.editing,
    hinv.tableScroll, ?_⟩
  rintro recent older last row rfl hselects hrecent hrow listed hmem hlisted
  have hselected : app.selectedId = some listed.requestId := by
    rw [App.selectedId_of_unselecting hrun hrecent, hselects.selectedId hrun.of_append.cons_inv.2.2.2 hrow, hlisted]
  obtain ⟨highlighted, hhighlighted, hsame⟩ := Option.map_eq_some_iff.mp (hinv.followed listed hmem hselected)
  exact ⟨highlighted, hhighlighted, hsame.trans hlisted⟩

/-- The request `a` is selected, and then a newer one than both is there when `r` is pressed. -/
theorem explorer_keeps_its_place_refreshed :
    ∃ record app, Run explorerSystem Free record app ∧ app.visible.map ShownRecord.requestId = ["c", "b", "a"] ∧
      ∃ highlighted, app.visible[app.selected]? = some highlighted ∧ highlighted.requestId = "a" := by
  let start := App.new [{ requestId := "a" }, { requestId := "b" }]
  let requests := start.after (.press (.char '4') (.ok ⟨[], false⟩))
  let moved := requests.after (.press .down (.ok ⟨[], false⟩))
  let refreshed := moved.after (.press (.char 'r') (.ok ⟨[{ requestId := "c" }], false⟩))
  have hallocated : Allocated start.records ∧ Allocated requests.records ∧ Allocated moved.records ∧
      Allocated refreshed.records := by decide +kernel
  have hrunning : start.quit = false ∧ requests.quit = false ∧ moved.quit = false := by decide +kernel
  have hstart : Run explorerSystem Free [] start := .start ⟨_, hallocated.1, rfl⟩
  have hrequests := hstart.step _ trivial (App.step_after hrunning.1 hallocated.2.1)
  have hmoved := hrequests.step _ trivial (App.step_after hrunning.2.1 hallocated.2.2.1)
  have hrefreshed := hmoved.step _ trivial (App.step_after hrunning.2.2 hallocated.2.2.2)
  have hrows : refreshed.visible.map ShownRecord.requestId = ["c", "b", "a"] ∧
      moved.visible[moved.selected]? = some { requestId := "a" } := by decide +kernel
  refine ⟨_, refreshed, hrefreshed, hrows.1, ?_⟩
  have hlisted : "a" ∈ refreshed.visible.map ShownRecord.requestId := by
    rw [hrows.1]
    simp
  obtain ⟨listed, hmem, hid⟩ := List.mem_map.mp hlisted
  refine (explorer_keeps_its_place _ _ hrefreshed).2.2.2.2.2 [⟨moved, _, refreshed⟩] _ _ { requestId := "a" } rfl ?_ ?_
    hrows.2 listed hmem hid
  · exact ⟨.down, _, rfl, by decide +kernel⟩
  · rintro step hstep ⟨code, poll, hcode, hselects⟩
    rw [List.mem_singleton.mp hstep] at hcode hselects
    cases hcode
    have hnot : moved.selectsRow (.char 'r') = false := by decide +kernel
    rw [hnot] at hselects
    cases hselects

end Tui

end MistralrsProxy
