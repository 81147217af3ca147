import MistralrsProxy.LogsPrincipals
import MistralrsProxy.Text
import MistralrsProxy.TransitionSystem

/-! The explorer of the log. It holds the records, their summary, and a cursor in a list of them that is filtered,
narrowed to a principal and newest first. A press moves the cursor or changes what is listed, and a refresh takes
whatever a poll of the log returned. Drawing is left out. -/

open Transition Machine

namespace MistralrsProxy

/-- A record with the members that only the filter of the explorer reads. -/
structure ShownRecord extends LogRecord where
  requestId : String := ""
  method : String := ""
  clientIp : String := ""
  termination : String := ""
  keyIdentifier : Option String := none
  authError : Option String := none
  routingReason : Option String := none
  deriving DecidableEq, Repr

/-- `str::contains`. -/
def containsText (needle text : String) : Bool := decide (needle.toList <:+: text.toList)

/-- Everything a text filter should search. -/
def ShownRecord.matchesNeedle (needle : String) (record : ShownRecord) : Bool :=
  let fields :=
    [record.requestId, record.method, record.uri, record.clientIp, record.termination, record.keyName.getD "",
      record.keyIdentifier.getD "", record.openwebuiUserName.getD "", record.openwebuiUserId.getD "",
      record.authError.getD "", record.backendId.getD "", record.routingReason.getD "", record.startedAt]
  fields.any (fun field => containsText needle field.toLower) ||
    record.status.any fun status => containsText needle (toString status)

def filter (records : List ShownRecord) (needle : String) (errorsOnly : Bool) : List ShownRecord :=
  let needle := (trim needle).toLower
  (records.filter fun record => !errorsOnly || record.isError).filter fun record =>
    needle = "" || record.matchesNeedle needle

/-- `1234567` as `1,234,567`. -/
def thousands (value : Nat) : String :=
  let digits := (toString value).toList
  String.ofList (digits.zipIdx.flatMap fun (digit, index) =>
    if 0 < index ∧ (digits.length - index) % 3 = 0 then [',', digit] else [digit])

namespace Tui

inductive View where
  | users
  | summary
  | backends
  | requests
  deriving DecidableEq, Repr

def View.next : View → View
  | .users => .summary
  | .summary => .backends
  | .backends => .requests
  | .requests => .users

/-- The keys that mean something to the explorer; all others are alike. -/
inductive KeyCode where
  | up
  | down
  | left
  | right
  | home
  | last
  | pageUp
  | pageDown
  | tab
  | backspace
  | enter
  | esc
  | char (char : Char)
  | other
  deriving DecidableEq, Repr

def scrollStep : Nat := 8

def u16Max : Nat := 2 ^ 16 - 1

/-- What a poll of the log returned. -/
structure Polled where
  records : List ShownRecord
  restarted : Bool
  deriving DecidableEq, Repr

def summaryOf (records : List ShownRecord) : Summary := (summarize (records.map ShownRecord.toLogRecord)).value

/-- `selected` is an index into the filtered, newest-first list, and `selectedId` the request a refresh keeps
selected. -/
structure App where
  records : List ShownRecord
  summary : Summary
  view : View
  selected : Nat
  selectedId : Option String
  needle : String
  editingFilter : Bool
  errorsOnly : Bool
  userSelected : Nat
  principal : Option String
  tableScroll : Nat
  status : String
  quit : Bool

namespace App

def new (records : List ShownRecord) : App where
  records := records
  summary := summaryOf records
  view := .users
  selected := 0
  selectedId := none
  needle := ""
  editingFilter := false
  errorsOnly := false
  userSelected := 0
  principal := none
  tableScroll := 0
  status := "Loaded " ++ thousands records.length ++ " records"
  quit := false

/-- The record is among those of the principal that the list is narrowed to. -/
def ofPrincipal (app : App) (record : ShownRecord) : Bool :=
  app.principal.all fun principal => record.principalBucket app.summary.openwebuiKeys = principal

/-- The filtered records, newest first. -/
def visible (app : App) : List ShownRecord :=
  ((filter app.records app.needle app.errorsOnly).filter app.ofPrincipal).reverse

/-- Keep the same record highlighted across refreshes. -/
def resolveSelection (app : App) : App :=
  match app.selectedId with
  | none => { app with selected := 0 }
  | some id => { app with selected := (app.visible.findIdx? fun record => record.requestId = id).getD 0 }

/-- Pull in what the proxy has appended since the last look. -/
def refresh (poll : Except String Polled) (app : App) : App :=
  match poll with
  | .error error => { app with status := "Could not read the log: " ++ error }
  | .ok appended =>
      let app :=
        if appended.restarted then { app with records := [], status := "Log file shrank; reread from the start." }
        else app
      if appended.restarted || !appended.records.isEmpty then
        let records := app.records ++ appended.records
        let summary := summaryOf records
        let userSelected := min app.userSelected (summary.byPrincipal.length - 1)
        { app with records := records, summary := summary, userSelected := userSelected }.resolveSelection
      else app

def select (index : Nat) (app : App) : App :=
  let selected := min index (app.visible.length - 1)
  { app with selected := selected, selectedId := app.visible[selected]?.map ShownRecord.requestId }

/-- A press while the filter is edited. -/
def handleFilter (code : KeyCode) (app : App) : App :=
  match code with
  | .char char => { app with needle := app.needle.push char }.select 0
  | .backspace => { app with needle := String.ofList app.needle.toList.dropLast }.select 0
  | .enter =>
      let status := if app.needle = "" then "Filter cleared." else "Filtering on " ++ debugText app.needle ++ "."
      { app with editingFilter := false, status := status }.select 0
  | .esc => { app with editingFilter := false, needle := "", status := "Filter cleared." }.select 0
  | _ => app

/-- Where a press moves a cursor from `index` in a list with this last index. -/
def motion (code : KeyCode) (index last : Nat) : Option Nat :=
  match code with
  | .up | .char 'k' => some (index - 1)
  | .down | .char 'j' => some (min (index + 1) last)
  | .pageUp => some (index - 10)
  | .pageDown => some (min (index + 10) last)
  | .home | .char 'g' => some 0
  | .last | .char 'G' => some last
  | _ => none

/-- Show the requests of the principal in the selected row. -/
def openUser (app : App) : App :=
  match app.summary.byPrincipal[app.userSelected]? with
  | none => app
  | some (principal, _) =>
      let status := "Requests for " ++ principal ++ "; Esc shows everyone."
      { app with status := status, principal := some principal, view := .requests }.select 0

/-- A press in the Users view; `none` if it has no meaning of its own there. -/
def handleUsers (code : KeyCode) (app : App) : Option App :=
  match motion code app.userSelected (app.summary.byPrincipal.length - 1) with
  | some index => some { app with userSelected := index }
  | none => if code = .enter then some app.openUser else none

def toggleErrors (app : App) : App :=
  let errorsOnly := !app.errorsOnly
  let status := if errorsOnly then "Showing errors and incomplete requests only." else "Showing all requests."
  { app with errorsOnly := errorsOnly, view := .requests, status := status }.select 0

/-- A press that means the same in every view; `poll` is what a refresh would get. -/
def handleCommon (poll : Except String Polled) (code : KeyCode) (app : App) : App :=
  match motion code app.selected (app.visible.length - 1) with
  | some index => app.select index
  | none =>
      match code with
      | .tab => { app with view := app.view.next }
      | .left | .char 'h' => { app with tableScroll := app.tableScroll - scrollStep }
      | .right | .char 'l' => { app with tableScroll := min (app.tableScroll + scrollStep) u16Max }
      | .char '1' => { app with view := .users }
      | .char '2' => { app with view := .summary }
      | .char '3' => { app with view := .backends }
      | .char '4' => { app with view := .requests }
      | .char '/' =>
          { app with
            editingFilter := true, view := .requests
            status := "Type to filter; Enter to keep, Esc to clear." }
      | .char 'e' => app.toggleErrors
      | .char 'r' =>
          let app := app.refresh poll
          { app with status := thousands app.records.length ++ " records" }
      | .esc =>
          if app.view = .requests ∧ app.principal.isSome then
            { app with principal := none, status := "Showing requests from everyone." }.select 0
          else { app with quit := true }
      | .char 'q' => { app with quit := true }
      | _ => app

def handle (poll : Except String Polled) (code : KeyCode) (app : App) : App :=
  if app.editingFilter then app.handleFilter code
  else if app.view = .users then (app.handleUsers code).getD (app.handleCommon poll code)
  else app.handleCommon poll code

end App

/-- A press, control and `c`, or the time to look for new records. -/
inductive Event where
  | press (code : KeyCode) (poll : Except String Polled)
  | interrupt
  | tick (poll : Except String Polled)

/-- The texts of a record alone take 480 bytes, and no allocation is larger than `isize::MAX` bytes. -/
def Allocated (records : List ShownRecord) : Prop := records.length * 480 ≤ isizeMax

instance (records : List ShownRecord) : Decidable (Allocated records) := inferInstanceAs (Decidable (_ ≤ _))

def App.after (app : App) : Event → App
  | .press code poll => app.handle poll code
  | .interrupt => { app with quit := true }
  | .tick poll => app.refresh poll

/-- One round of the loop, until the operator quits; the program dies of records that cannot be allocated. -/
def App.step (app : App) (event : Event) : Option App :=
  if app.quit then none
  else if Allocated (app.after event).records then some (app.after event)
  else none

def explorerSystem : System App Event where
  initial app := ∃ records, Allocated records ∧ app = App.new records
  step := App.step

end Tui

end MistralrsProxy
