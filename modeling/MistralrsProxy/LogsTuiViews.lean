import MistralrsProxy.LogsFollow
import MistralrsProxy.LogsTuiRuns
import Mathlib.Data.List.DropRight

/-! What the explorer of the log shows. Typing a filter only ever narrows the list, a row of the users opens exactly
the records it counts, and while the log grows the list is that of the lines of the file. -/

open Transition Machine Delimited

namespace MistralrsProxy

/-- More text is trimmed to more text. -/
theorem trim_push_extends (text : String) (char : Char) : (trim text).toList <+: (trim (text.push char)).toList := by
  have htrim : ∀ text : String, (trim text).toList = (text.toList.dropWhile isWhitespace).rdropWhile isWhitespace :=
    fun text => String.toList_ofList
  rw [htrim, htrim, String.toList_push, List.dropWhile_append]
  split
  · rename_i hblank
    rw [List.isEmpty_iff.mp hblank]
    exact List.nil_prefix
  · by_cases hspace : isWhitespace char = true
    · rw [List.rdropWhile_concat_pos _ _ _ hspace]
    · rw [List.rdropWhile_concat_neg _ _ _ hspace]
      exact (List.rdropWhile_prefix _ _).trans (List.prefix_append _ _)

theorem toLower_prefix {text more : String} (h : text.toList <+: more.toList) :
    text.toLower.toList <+: more.toLower.toList := by
  have hlower (chars : String) : chars.toLower.toList = chars.toList.map Char.toLower := String.toList_map
  rw [hlower, hlower]
  exact h.map _

theorem containsText_of_prefix {needle more text : String} (h : needle.toList <+: more.toList)
    (hcontains : containsText more text = true) : containsText needle text = true :=
  decide_eq_true (h.isInfix.trans (of_decide_eq_true hcontains))

theorem ShownRecord.matchesNeedle_of_prefix {needle more : String} {record : ShownRecord}
    (h : needle.toList <+: more.toList) (hmatches : record.matchesNeedle more = true) :
    record.matchesNeedle needle = true := by
  rw [matchesNeedle, Bool.or_eq_true, List.any_eq_true, Option.any_eq_true] at hmatches ⊢
  rcases hmatches with ⟨field, hfield, hcontains⟩ | ⟨status, hstatus, hcontains⟩
  · exact .inl ⟨field, hfield, containsText_of_prefix h hcontains⟩
  · exact .inr ⟨status, hstatus, containsText_of_prefix h hcontains⟩

/-- A longer needle finds less. -/
theorem filter_push_sublist (records : List ShownRecord) (needle : String) (char : Char) (errorsOnly : Bool) :
    (filter records (needle.push char) errorsOnly).Sublist (filter records needle errorsOnly) := by
  have hprefix := toLower_prefix (trim_push_extends needle char)
  apply List.monotone_filter_right
  intro record hlisted
  rw [Bool.or_eq_true, decide_eq_true_eq] at hlisted ⊢
  rcases hlisted with hblank | hmatches
  · refine .inl ?_
    rw [hblank] at hprefix
    exact String.toList_inj.mp (List.prefix_nil.mp hprefix)
  · exact .inr (ShownRecord.matchesNeedle_of_prefix hprefix hmatches)

/-- A blank needle finds everything. -/
theorem filter_blank {needle : String} (hblank : trim needle = "") (records : List ShownRecord) (errorsOnly : Bool) :
    filter records needle errorsOnly = records.filter fun record => !errorsOnly || record.isError := by
  have hnothing : ("" : String).toLower = "" := by decide +kernel
  rw [filter, hblank, hnothing]
  exact List.filter_eq_self.mpr fun record _ => rfl

namespace Tui

variable {app next : App}

namespace App

theorem visible_sublist (app next : App) (hprincipal : next.ofPrincipal = app.ofPrincipal)
    (hfilter : (filter next.records next.needle next.errorsOnly).Sublist
      (filter app.records app.needle app.errorsOnly)) :
    next.visible.Sublist app.visible := by
  rw [visible, visible, hprincipal]
  exact (hfilter.filter _).reverse

theorem handle_of_editing (hediting : app.editingFilter = true) (poll : Except String Polled) (code : KeyCode) :
    app.handle poll code = app.handleFilter code := by rw [handle, if_pos hediting]

/-- A character typed into the filter narrows the list. -/
theorem visible_typed (hediting : app.editingFilter = true) (poll : Except String Polled) (char : Char) :
    (app.handle poll (.char char)).visible.Sublist app.visible := by
  rw [handle_of_editing hediting]
  exact visible_sublist app (app.handleFilter (.char char)) rfl (filter_push_sublist _ _ _ _)

/-- A character taken back widens it. -/
theorem visible_erased (hediting : app.editingFilter = true) (poll : Except String Polled) :
    app.visible.Sublist (app.handle poll .backspace).visible := by
  rw [handle_of_editing hediting]
  apply visible_sublist (app.handleFilter .backspace) app rfl
  change (filter app.records app.needle _).Sublist (filter app.records (String.ofList app.needle.toList.dropLast) _)
  rcases List.eq_nil_or_concat app.needle.toList with hnil | ⟨before, char, hneedle⟩
  · have hempty : app.needle = String.ofList app.needle.toList.dropLast := by
      rw [hnil, List.dropLast_nil, ← hnil, String.ofList_toList]
    rw [← hempty]
    exact List.Sublist.refl _
  · have hpushed : app.needle = (String.ofList before).push char := by
      rw [← String.toList_inj, hneedle, String.toList_push, String.toList_ofList, List.concat_eq_append]
    have hbefore : String.ofList app.needle.toList.dropLast = String.ofList before := by
      rw [hneedle, List.concat_eq_append, List.dropLast_concat]
    rw [hbefore, hpushed]
    exact filter_push_sublist _ _ _ _

/-- What a session types into its filter, in order. -/
def typed (steps : List (Step App Event)) : List Char :=
  steps.reverse.filterMap fun step =>
    match step.action with
    | .press (.char char) _ => some char
    | _ => none

theorem typed_cons {step : Step App Event} {char : Char} {poll : Except String Polled}
    (haction : step.action = .press (.char char) poll) (rest : List (Step App Event)) :
    typed (step :: rest) = typed rest ++ [char] := by
  rw [typed, List.reverse_cons, List.filterMap_append, typed, List.filterMap_cons, List.filterMap_nil, haction]

theorem handle_char (hediting : app.editingFilter = true) (poll : Except String Polled) (char : Char) :
    (app.handle poll (.char char)).editingFilter = true ∧
      (app.handle poll (.char char)).needle = app.needle.push char := by
  rw [handle_of_editing hediting]
  exact ⟨hediting, rfl⟩

theorem narrows_of_typed {guard : App → Event → Prop} {recent older : List (Step App Event)} {last : Step App Event}
    (hrun : Run explorerSystem guard (recent ++ last :: older) app) (hediting : last.after.editingFilter = true)
    (htyped : ∀ step ∈ recent, ∃ char poll, step.action = .press (.char char) poll) :
    app.editingFilter = true ∧ app.visible.Sublist last.after.visible ∧ app.records = last.after.records ∧
      app.needle.toList = last.after.needle.toList ++ typed recent := by
  induction recent generalizing app with
  | nil =>
      obtain ⟨rfl, _⟩ := hrun.cons_inv
      exact ⟨hediting, List.Sublist.refl _, rfl, (List.append_nil _).symm⟩
  | cons step rest ih =>
      obtain ⟨rfl, hbefore, _, hstep⟩ := hrun.cons_inv
      obtain ⟨char, poll, haction⟩ := htyped step List.mem_cons_self
      obtain ⟨hon, hvisible, hrecords, hneedle⟩ :=
        ih hbefore fun other hmem => htyped other (List.mem_cons_of_mem _ hmem)
      have hafter : step.after = step.before.handle poll (.char char) := by
        rw [after_of_step hstep, haction]
        rfl
      obtain ⟨hediting', hpushed⟩ := handle_char hon poll char
      rw [hafter]
      refine ⟨hediting', (visible_typed hon poll char).trans hvisible, ?_, ?_⟩
      · rw [handle_of_editing hon]
        exact hrecords
      · rw [hpushed, String.toList_push, hneedle, typed_cons haction, List.append_assoc]

end App

/-- While characters are typed into the filter, whatever they are, the list only loses rows, the filter is the text
typed so far, and nothing else happens. Taking a character back can only bring rows back, keeping the filter changes
no row, and leaving it brings all rows back. -/
theorem typing_only_narrows (recent older : List (Step App Event)) (last : Step App Event) (app : App)
    (hrun : Run explorerSystem Free (recent ++ last :: older) app) (hediting : last.after.editingFilter = true)
    (htyped : ∀ step ∈ recent, ∃ char poll, step.action = .press (.char char) poll) :
    app.editingFilter = true ∧ app.visible.Sublist last.after.visible ∧ app.records = last.after.records ∧
      app.needle.toList = last.after.needle.toList ++ App.typed recent ∧
      ∀ poll, app.visible.Sublist (app.handle poll .backspace).visible ∧
        (app.handle poll .enter).visible = app.visible ∧
        (app.handle poll .esc).visible =
          ((app.records.filter fun record => !app.errorsOnly || record.isError).filter app.ofPrincipal).reverse := by
  have hnow := App.narrows_of_typed hrun hediting htyped
  refine ⟨hnow.1, hnow.2.1, hnow.2.2.1, hnow.2.2.2, fun poll => ⟨App.visible_erased hnow.1 poll, ?_, ?_⟩⟩
  · rw [App.handle_of_editing hnow.1]
    rfl
  · rw [App.handle_of_editing hnow.1]
    change ((filter app.records "" app.errorsOnly).filter app.ofPrincipal).reverse = _
    rw [filter_blank (by decide +kernel)]

/-- `/`, and then `B` and a blank. -/
theorem typing_only_narrows_blank :
    ∃ recent older last app, Run explorerSystem Free (recent ++ last :: older) app ∧
      last.after.visible.map ShownRecord.requestId = ["2", "1"] ∧ app.visible.map ShownRecord.requestId = ["2"] ∧
      app.needle.toList = last.after.needle.toList ++ ['B', ' '] := by
  let start := App.new [{ requestId := "1", uri := "/a" }, { requestId := "2", uri := "/b" }]
  let editing := start.after (.press (.char '/') (.error ""))
  let first := editing.after (.press (.char 'B') (.error ""))
  let second := first.after (.press (.char ' ') (.error ""))
  have hallocated : Allocated start.records ∧ Allocated editing.records ∧ Allocated first.records ∧
      Allocated second.records := by decide +kernel
  have hfacts : start.quit = false ∧ editing.quit = false ∧ first.quit = false ∧ editing.editingFilter = true ∧
      editing.visible.map ShownRecord.requestId = ["2", "1"] ∧
      second.visible.map ShownRecord.requestId = ["2"] := by decide +kernel
  have hstart : Run explorerSystem Free [] start := .start ⟨_, hallocated.1, rfl⟩
  have hediting := hstart.step _ trivial (App.step_after hfacts.1 hallocated.2.1)
  have hfirst := hediting.step _ trivial (App.step_after hfacts.2.1 hallocated.2.2.1)
  have hsecond := hfirst.step _ trivial (App.step_after hfacts.2.2.1 hallocated.2.2.2)
  have hresult := typing_only_narrows
    [⟨first, .press (.char ' ') (.error ""), second⟩, ⟨editing, .press (.char 'B') (.error ""), first⟩] []
    ⟨start, .press (.char '/') (.error ""), editing⟩ second hsecond hfacts.2.2.2.1 (by
    intro step hmem
    rcases List.mem_cons.mp hmem with rfl | hmem
    · exact ⟨_, _, rfl⟩
    · rw [List.mem_singleton.mp hmem]
      exact ⟨_, _, rfl⟩)
  exact ⟨[_, _], [], ⟨start, _, editing⟩, second, hsecond, hfacts.2.2.2.2.1, hfacts.2.2.2.2.2, hresult.2.2.2.1⟩

/-- Escape leaves the principal before it leaves the explorer. -/
theorem App.handle_esc_of_principal {name : String} {poll : Except String Polled} (hediting : app.editingFilter = false)
    (hview : app.view = .requests) (hprincipal : app.principal = some name) :
    app.handle poll .esc = { app with principal := none, status := "Showing requests from everyone." }.select 0 := by
  have hother : app.view ≠ .users := by
    rw [hview]
    decide
  have hidle : ¬app.editingFilter = true := by
    rw [hediting]
    decide
  rw [handle, if_neg hidle, if_neg hother]
  unfold handleCommon
  change (if app.view = .requests ∧ app.principal.isSome then _ else _) = _
  rw [if_pos ⟨hview, by rw [hprincipal]; rfl⟩]

/-- The rows of the users are read off the records that are held. -/
theorem App.Inv.principals (h : app.Inv) (hallocated : Allocated app.records) (name : String)
    (row : KeyTotals) :
    (name, row) ∈ app.summary.byPrincipal ↔
      (∃ record ∈ app.records, record.principalBucket app.summary.openwebuiKeys = name) ∧
        row = KeyTotals.of ((app.records.filter fun record =>
          record.principalBucket app.summary.openwebuiKeys = name).map ShownRecord.toLogRecord) := by
  have hlength : (app.records.map ShownRecord.toLogRecord).length ≤ u64Max := by
    have hmax : isizeMax ≤ u64Max := by decide
    have hbytes : app.records.length * 480 ≤ isizeMax := hallocated
    rw [List.length_map]
    omega
  have hkeys : app.summary.openwebuiKeys = openwebuiKeysOf (app.records.map ShownRecord.toLogRecord) := by
    rw [h.summary]
    rfl
  rw [hkeys, h.summary, summaryOf, mem_byPrincipal_iff hlength, List.filter_map]
  simp only [List.mem_map, exists_exists_and_eq_and]
  rfl

/-- Enter in the Users view shows the requests of the selected row: those that the row counts, newest first, as far
as the filter lets them through, and without a filter just as many as the row says. Escape leads back to everyone.
There is a row unless no record is held, and every record is behind exactly one row. -/
theorem users_row_opens_its_requests (record : List (Step App Event)) (app next : App) (poll : Except String Polled)
    (hrun : Run explorerSystem Free record app) (hediting : app.editingFilter = false) (hview : app.view = .users)
    (hpress : explorerSystem.step app (.press .enter poll) = some next) :
    (app.records = [] → next = app) ∧
      (app.records ≠ [] → ∃ name row, app.summary.byPrincipal[app.userSelected]? = some (name, row) ∧
        next.view = .requests ∧
        next.visible = ((filter app.records app.needle app.errorsOnly).filter fun record =>
          record.principalBucket app.summary.openwebuiKeys = name).reverse ∧
        (trim app.needle = "" → app.errorsOnly = false →
          row = KeyTotals.of (next.visible.map ShownRecord.toLogRecord)) ∧
        ∀ poll, (next.handle poll .esc).visible = (filter app.records app.needle app.errorsOnly).reverse) ∧
      ∀ held ∈ app.records, ∃! entry, entry ∈ app.summary.byPrincipal ∧
        entry.1 = held.principalBucket app.summary.openwebuiKeys := by
  obtain ⟨hinv, hallocated⟩ := App.inv_of_run hrun
  have hprincipals := hinv.principals hallocated
  have hopen : next = app.openUser := by
    rw [App.after_of_step hpress]
    change app.handle poll .enter = _
    rw [App.handle, hediting, if_neg Bool.false_ne_true, if_pos hview]
    rfl
  refine ⟨?_, ?_, ?_⟩
  · intro hnone
    have hempty : app.summary.byPrincipal = [] := by
      rw [List.eq_nil_iff_forall_not_mem]
      rintro ⟨name, row⟩ hmem
      obtain ⟨⟨held, hheld, _⟩, _⟩ := (hprincipals _ _).mp hmem
      rw [hnone] at hheld
      cases hheld
    rw [hopen, App.openUser, hempty]
    rfl
  · intro hsome
    obtain ⟨first, rest, hrecords⟩ := List.exists_cons_of_ne_nil hsome
    have hrow : app.userSelected < app.summary.byPrincipal.length := by
      rcases inRange_or_nil hinv.userSelected with hlt | ⟨hempty, _⟩
      · exact hlt
      · have hmem := (hprincipals _ _).mpr ⟨⟨first, by rw [hrecords]; exact List.mem_cons_self, rfl⟩, rfl⟩
        rw [hempty] at hmem
        cases hmem
    obtain ⟨⟨name, row⟩, hselected⟩ : ∃ entry, app.summary.byPrincipal[app.userSelected]? = some entry :=
      ⟨_, List.getElem?_eq_getElem hrow⟩
    have hcounted := ((hprincipals _ _).mp (List.mem_of_getElem? hselected)).2
    rw [App.openUser, hselected] at hopen
    have hvisible : next.visible = ((filter app.records app.needle app.errorsOnly).filter fun record =>
        record.principalBucket app.summary.openwebuiKeys = name).reverse := by
      rw [hopen]
      rfl
    refine ⟨name, row, hselected, by rw [hopen]; rfl, hvisible, ?_, ?_⟩
    · intro hblank hall
      have hunfiltered : filter app.records app.needle app.errorsOnly = app.records := by
        rw [filter_blank hblank, hall]
        exact List.filter_eq_self.mpr fun _ _ => rfl
      rw [hvisible, hunfiltered, hcounted]
      exact KeyTotals.of_perm ((List.reverse_perm _).symm.map _)
    · intro poll
      rw [App.handle_esc_of_principal (by rw [hopen]; exact hediting) (by rw [hopen]; rfl)
        (by rw [hopen]; rfl), hopen]
      change ((filter app.records app.needle app.errorsOnly).filter fun _ => true).reverse = _
      rw [List.filter_true]
  · intro held hheld
    refine ⟨(held.principalBucket app.summary.openwebuiKeys, _),
      ⟨(hprincipals _ _).mpr ⟨⟨held, hheld, rfl⟩, rfl⟩, rfl⟩, ?_⟩
    rintro ⟨name, row⟩ ⟨hmem, hname⟩
    obtain rfl : name = _ := hname
    rw [((hprincipals _ _).mp hmem).2]

/-- Two requests of one key and one of another. -/
theorem users_row_opens_its_requests_first :
    ∃ record app next, Run explorerSystem Free record app ∧
      explorerSystem.step app (.press .enter (.error "")) = some next ∧
      next.visible.map ShownRecord.requestId = ["3", "1"] ∧
      ∃ name row, app.summary.byPrincipal[app.userSelected]? = some (name, row) ∧ name = "a" ∧
        row = KeyTotals.of (next.visible.map ShownRecord.toLogRecord) := by
  let start := App.new
    [{ requestId := "1", keyName := some "a" }, { requestId := "2", keyName := some "b" },
      { requestId := "3", keyName := some "a" }]
  have hallocated : Allocated start.records ∧ Allocated (start.after (.press .enter (.error ""))).records := by
    decide +kernel
  have hfacts : start.quit = false ∧ start.editingFilter = false ∧ start.view = .users ∧ trim start.needle = "" ∧
      start.errorsOnly = false ∧ start.summary.byPrincipal[start.userSelected]?.map Prod.fst = some "a" ∧
      (start.after (.press .enter (.error ""))).visible.map ShownRecord.requestId = ["3", "1"] := by decide +kernel
  have hstart : Run explorerSystem Free [] start := .start ⟨_, hallocated.1, rfl⟩
  have hpress := App.step_after hfacts.1 hallocated.2
  obtain ⟨name, row, hrow, _, _, hcounted, _⟩ :=
    (users_row_opens_its_requests _ _ _ _ hstart hfacts.2.1 hfacts.2.2.1 hpress).2.1 (List.cons_ne_nil _ _)
  have hname := hfacts.2.2.2.2.2.1
  rw [hrow] at hname
  exact ⟨_, start, _, hstart, hpress, hfacts.2.2.2.2.2.2, name, row, hrow, Option.some.inj hname,
    hcounted hfacts.2.2.2.1 hfacts.2.2.2.2.1⟩

/-- The explorer over the log that it follows. -/
structure Session where
  log : Explorer
  app : App

/-- A write to the log, a press, control and `c`, or a look for new records, by itself or on a press of `r`. What is
shown of the records of a look is what the summary does not read. -/
inductive Move where
  | write (write : Write)
  | press (code : KeyCode)
  | interrupt
  | look (pressed : Bool) (meanwhile : List Write) (shown : List ShownRecord)

/-- The press is one that looks for new records. -/
def App.Refreshes (app : App) (code : KeyCode) : Prop := app.editingFilter = false ∧ code = .char 'r'

instance (app : App) (code : KeyCode) : Decidable (app.Refreshes code) := inferInstanceAs (Decidable (_ ∧ _))

def lookEvent (pressed : Bool) (polled : Polled) : Event :=
  if pressed then .press (.char 'r') (.ok polled) else .tick (.ok polled)

namespace Session

variable {parse : List UInt8 → Option LogRecord}

/-- What the last poll returned, with what is shown of its records. -/
def polled (log : Explorer) (shown : List ShownRecord) : Polled := ⟨shown, log.polls.head?.any Appended.restarted⟩

def step (parse : List UInt8 → Option LogRecord) (session : Session) : Move → Option Session
  | .write write => (session.log.step parse (.write write)).map fun log => { session with log := log }
  | .press code =>
      if session.app.Refreshes code then none
      else (session.app.step (.press code (.ok ⟨[], false⟩))).map fun app => { session with app := app }
  | .interrupt => (session.app.step .interrupt).map fun app => { session with app := app }
  | .look pressed meanwhile shown =>
      if pressed ∧ session.app.editingFilter then none
      else
        (session.log.step parse (.poll meanwhile)).bind fun log =>
          if shown.map ShownRecord.toLogRecord = (log.polls.head?.map Appended.records).getD [] then
            (session.app.step (lookEvent pressed (polled log shown))).map fun app => ⟨log, app⟩
          else none

end Session

/-- The explorer starts with what a first look at the log found. -/
def sessionSystem (parse : List UInt8 → Option LogRecord) : System Session Move where
  initial session := ∃ files meanwhile shown, (Explorer.start files).step parse (.poll meanwhile) = some session.log ∧
    (∀ write ∈ meanwhile, write.Keeps) ∧ shown.map ShownRecord.toLogRecord = session.log.records ∧ Allocated shown ∧
    session.app = App.new shown
  step := Session.step parse

/-- Files only grow. -/
def LogGrows (_ : Session) : Move → Prop
  | .write write => write.Keeps
  | .look _ meanwhile _ => ∀ write ∈ meanwhile, write.Keeps
  | _ => True

namespace App

theorem refresh_records (polled : Polled) (app : App) :
    (app.refresh (.ok polled)).records = held app.records polled := by
  rcases refresh_cases (.ok polled) app with ⟨status, hnext, hsame⟩ | ⟨appended, status, hpoll, hnext⟩
  · rw [hnext, hsame polled rfl]
  · cases hpoll
    rw [hnext, resolveSelection]
    split <;> rfl

theorem handleFilter_records (code : KeyCode) (app : App) : (app.handleFilter code).records = app.records := by
  cases code <;> rfl

theorem handleUsers_records {code : KeyCode} (h : app.handleUsers code = some next) : next.records = app.records := by
  unfold handleUsers at h
  split at h
  · cases h
    rfl
  · split at h
    · cases h
      unfold openUser
      split <;> rfl
    · cases h

/-- Only `r` looks for new records. -/
theorem handleCommon_records {code : KeyCode} (hcode : code ≠ .char 'r') (poll : Except String Polled) (app : App) :
    (app.handleCommon poll code).records = app.records := by
  unfold handleCommon
  split
  · rfl
  · split <;> first | rfl | exact absurd rfl hcode | (split <;> rfl)

theorem handle_records {code : KeyCode} (h : ¬app.Refreshes code) (poll : Except String Polled) :
    (app.handle poll code).records = app.records := by
  unfold handle
  cases hediting : app.editingFilter with
  | true => exact handleFilter_records code app
  | false =>
      have hcode : code ≠ .char 'r' := fun hcode => h ⟨hediting, hcode⟩
      rw [if_neg Bool.false_ne_true]
      split
      · cases hnext : app.handleUsers code with
        | none => exact handleCommon_records hcode poll app
        | some next => exact handleUsers_records hnext
      · exact handleCommon_records hcode poll app

theorem handle_refresh_records (hediting : app.editingFilter = false) (polled : Polled) :
    (app.handle (.ok polled) (.char 'r')).records = held app.records polled := by
  have hidle : ¬app.editingFilter = true := by
    rw [hediting]
    decide
  have husers : app.handleUsers (.char 'r') = none := rfl
  have hcommon : (app.handleCommon (.ok polled) (.char 'r')).records = (app.refresh (.ok polled)).records := by
    have hmotion : motion (.char 'r') app.selected (app.visible.length - 1) = none := rfl
    unfold handleCommon
    rw [hmotion]
    rfl
  rw [handle, if_neg hidle, husers, Option.getD_none, ite_self, hcommon, refresh_records]

theorem map_held {records shown : List ShownRecord} {appended : Appended} (restarted : Bool)
    (hrestarted : restarted = appended.restarted) (hshown : shown.map ShownRecord.toLogRecord = appended.records) :
    (held records ⟨shown, restarted⟩).map ShownRecord.toLogRecord =
      Explorer.refresh (records.map ShownRecord.toLogRecord) appended := by
  unfold held Explorer.refresh
  rw [hrestarted]
  split
  · exact hshown
  · rw [List.map_append, hshown]

end App

namespace Session

variable {parse : List UInt8 → Option LogRecord} {session next : Session}

/-- A look polls the log, and the explorer takes over what it returned. -/
theorem step_look {pressed : Bool} {meanwhile : List Write} {shown : List ShownRecord}
    (h : session.step parse (.look pressed meanwhile shown) = some next) :
    session.log.step parse (.poll meanwhile) = some next.log ∧
      session.app.step (lookEvent pressed (polled next.log shown)) = some next.app ∧
      next.app.records = App.held session.app.records (polled next.log shown) ∧
      shown.map ShownRecord.toLogRecord = (next.log.polls.head?.map Appended.records).getD [] := by
  simp only [Session.step] at h
  split at h
  · cases h
  · rename_i hidle
    obtain ⟨log, hlog, h⟩ := Option.bind_eq_some_iff.mp h
    split at h
    · rename_i hshown
      obtain ⟨app, happ, rfl⟩ := Option.map_eq_some_iff.mp h
      refine ⟨hlog, happ, ?_, hshown⟩
      have hafter := App.after_of_step happ
      change app.records = _
      rw [hafter]
      cases pressed with
      | false => exact App.refresh_records _ _
      | true =>
          refine App.handle_refresh_records ?_ _
          cases hediting : session.app.editingFilter with
          | false => rfl
          | true => exact absurd ⟨rfl, hediting⟩ hidle
    · cases h

/-- The explorer of a session holds the records of its log, and the log is read as it grows. -/
structure Follows (parse : List UInt8 → Option LogRecord) (session : Session) : Prop where
  log : session.log.Growing parse
  records : session.app.records.map ShownRecord.toLogRecord = session.log.records
  app : session.app.Inv

theorem Follows.of_run {record : List (Step Session Move)} (hrun : Run (sessionSystem parse) LogGrows record session) :
    session.Follows parse := by
  refine hrun.invariant (I := Follows parse) ?_ ?_
  · rintro ⟨log, app⟩ ⟨files, meanwhile, shown, hlog, hkeeps, hshown, _, rfl⟩
    exact ⟨Explorer.growing_poll (Explorer.growing_start files) hkeeps hlog, hshown, App.inv_new shown⟩
  · intro session move next h hgrows hstep
    cases move with
    | write write =>
        obtain ⟨log, hlog, rfl⟩ := Option.map_eq_some_iff.mp hstep
        obtain ⟨files, _, hsame⟩ := Explorer.step_write hlog
        refine ⟨Explorer.growing_write h.log hgrows hlog, ?_, h.app⟩
        change session.app.records.map _ = log.records
        rw [hsame, h.records]
    | press code =>
        change (if session.app.Refreshes code then none else _) = _ at hstep
        split at hstep
        · cases hstep
        · rename_i hother
          obtain ⟨app, happ, rfl⟩ := Option.map_eq_some_iff.mp hstep
          refine ⟨h.log, ?_, (App.step_inv h.app happ).1⟩
          change app.records.map _ = _
          rw [App.after_of_step happ, ← h.records]
          exact congrArg _ (App.handle_records hother _)
    | interrupt =>
        obtain ⟨app, happ, rfl⟩ := Option.map_eq_some_iff.mp hstep
        refine ⟨h.log, ?_, (App.step_inv h.app happ).1⟩
        change app.records.map _ = _
        rw [App.after_of_step happ, ← h.records]
        rfl
    | look pressed meanwhile shown =>
        obtain ⟨hlog, happ, hheld, hshown⟩ := step_look hstep
        refine ⟨Explorer.growing_poll h.log hgrows hlog, ?_, (App.step_inv h.app happ).1⟩
        obtain ⟨_, _, hpolls, hrecords, _⟩ := Explorer.step_poll hlog
        rw [hpolls, List.head?_cons, Option.map_some, Option.getD_some] at hshown
        rw [hheld, hrecords, ← h.records]
        refine App.map_held _ ?_ hshown
        rw [hpolls]
        rfl

/-- After a look the explorer holds the records of the complete lines of the file it has open. -/
theorem look_records {record : List (Step Session Move)} {pressed : Bool} {meanwhile : List Write}
    {shown : List ShownRecord} (hrun : Run (sessionSystem parse) LogGrows record session)
    (hkeeps : ∀ write ∈ meanwhile, write.Keeps)
    (hlook : (sessionSystem parse).step session (.look pressed meanwhile shown) = some next) :
    next.app.records.map ShownRecord.toLogRecord =
        parsed parse (split newline (Explorer.contentOf next.log.files next.log.tail)).1 ∧
      Allocated next.app.records ∧ next.app.Inv := by
  have hrun' : Run (sessionSystem parse) LogGrows (⟨session, .look pressed meanwhile shown, next⟩ :: record) next :=
    hrun.step _ hkeeps hlook
  have hfollows := Follows.of_run hrun'
  obtain ⟨hlog, happ, _⟩ := step_look hlook
  obtain ⟨hinv, hallocated⟩ := App.step_inv (Follows.of_run hrun).app happ
  have hlines := hfollows.log.holds.records
  rw [(Explorer.step_poll hlog).2.2.2.2] at hlines
  exact ⟨by rw [hfollows.records, hlines], hallocated, hinv⟩

end Session

/-- After any look at a log that only grows, by itself or on a press, the records that the explorer holds, summarises
and lists are those of the complete lines of the file it has open: without a text to filter by, the list is that of
these lines backwards, of the errors among them if only they are shown, and of the chosen principal. -/
theorem explorer_lists_the_lines (parse : List UInt8 → Option LogRecord) (record : List (Step Session Move))
    (session next : Session) (pressed : Bool) (meanwhile : List Write) (shown : List ShownRecord)
    (hrun : Run (sessionSystem parse) LogGrows record session) (hkeeps : ∀ write ∈ meanwhile, write.Keeps)
    (hlook : (sessionSystem parse).step session (.look pressed meanwhile shown) = some next) :
    ∃ lines rest, Splits newline (Explorer.contentOf next.log.files next.log.tail) lines rest ∧
      next.app.records.map ShownRecord.toLogRecord = parsed parse lines ∧
      next.app.summary = (summarize (parsed parse lines)).value ∧
      (trim next.app.needle = "" → next.app.visible.map ShownRecord.toLogRecord =
        (((parsed parse lines).filter fun line => !next.app.errorsOnly || line.isError).filter fun line =>
          next.app.principal.all fun principal =>
            line.principalBucket (openwebuiKeysOf (parsed parse lines)) = principal).reverse) := by
  obtain ⟨hrecords, _, hinv⟩ := Session.look_records hrun hkeeps hlook
  obtain ⟨lines, rest, hsplit⟩ : ∃ lines rest,
      split newline (Explorer.contentOf next.log.files next.log.tail) = (lines, rest) := ⟨_, _, rfl⟩
  rw [hsplit] at hrecords
  have hsummary : next.app.summary = (summarize (parsed parse lines)).value := by
    rw [hinv.summary, summaryOf, hrecords]
  refine ⟨lines, rest, ?_, hrecords, hsummary, ?_⟩
  · have hsplits := split_splits newline (Explorer.contentOf next.log.files next.log.tail)
    rwa [hsplit] at hsplits
  · intro hblank
    have hkeys : next.app.summary.openwebuiKeys = openwebuiKeysOf (parsed parse lines) := by
      rw [hsummary]
      rfl
    have hprincipal : next.app.ofPrincipal = (fun line : LogRecord => next.app.principal.all fun principal =>
        line.principalBucket (openwebuiKeysOf (parsed parse lines)) = principal) ∘
          ShownRecord.toLogRecord := by
      funext record
      rw [App.ofPrincipal, hkeys]
      rfl
    have herrors : (fun record : ShownRecord => !next.app.errorsOnly || record.isError) =
        (fun line : LogRecord => !next.app.errorsOnly || line.isError) ∘ ShownRecord.toLogRecord := rfl
    rw [App.visible, filter_blank hblank, hprincipal, herrors, List.map_reverse, ← List.filter_map, ← List.filter_map,
      hrecords]

/-- The log is empty at first, and then a line is written to it while the explorer looks. -/
theorem explorer_lists_the_lines_written :
    ∃ (record : List (Step Session Move)) (session next : Session),
    Run (sessionSystem parseEmptyObject) LogGrows record session ∧
      session.app.visible = [] ∧ next.app.visible.map ShownRecord.requestId = ["1"] ∧
      ∃ lines rest, Splits newline (Explorer.contentOf next.log.files next.log.tail) lines rest ∧
        next.app.records.map ShownRecord.toLogRecord = parsed parseEmptyObject lines := by
  let files : FileSystem := { noFiles with path := some logFile }
  let look : Move := .look false [.append logFile [123, 125, 10]] [{ requestId := "1" }]
  have hfacts : ((Explorer.start files).step parseEmptyObject (.poll [])).any (fun log =>
      decide (log.records = []) &&
        ((sessionSystem parseEmptyObject).step ⟨log, App.new []⟩ look).any fun next =>
          decide (next.app.visible.map ShownRecord.requestId = ["1"])) = true := by
    decide +kernel
  obtain ⟨log, hlog, hfacts⟩ := (Option.any_eq_true _ _).mp hfacts
  obtain ⟨hrecords, hfacts⟩ := Bool.and_eq_true_iff.mp hfacts
  obtain ⟨next, hnext, hvisible⟩ := (Option.any_eq_true _ _).mp hfacts
  have hstart : Run (sessionSystem parseEmptyObject) LogGrows [] ⟨log, App.new []⟩ :=
    .start ⟨files, [], [], hlog, fun _ h => absurd h List.not_mem_nil, (of_decide_eq_true hrecords).symm,
      by decide, rfl⟩
  obtain ⟨lines, rest, hsplits, hheld, _⟩ := explorer_lists_the_lines parseEmptyObject [] _ next false _ _ hstart
    (fun write hmem => by
      rw [List.mem_singleton.mp hmem]
      trivial) hnext
  exact ⟨_, _, next, hstart, rfl, of_decide_eq_true hvisible, lines, rest, hsplits, hheld⟩

end Tui

end MistralrsProxy
