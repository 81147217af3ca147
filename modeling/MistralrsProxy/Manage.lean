import MistralrsProxy.Keys
import MistralrsProxy.LogsSummary
import Mathlib.Data.List.Basic

/-! The interactive key manager. A key press changes the list in memory, and saving and reloading move the list to the
file and back. The guard on the last admin key is evaluated when a deletion is requested and the deletion happens with
the next press, so that nothing may come between the two. -/

namespace MistralrsProxy

/-- The message of a validation error. -/
def KeyFileError.message : KeyFileError → String
  | .unsupportedVersion version =>
      "unsupported schema version " ++ toString version ++ " (this build understands " ++ toString schemaVersion ++ ")"
  | .emptyName position => "key " ++ toString position ++ " has an empty name"
  | .badIdentifier position identifier =>
      "key " ++ toString position ++ " has identifier " ++ debugText identifier ++ ", expected " ++
        toString identifierLen ++ " base64 characters"
  | .badDigest position => "key " ++ toString position ++ " has a key_sha256 that is not 64 hex characters"
  | .duplicateIdentifier identifier => "identifier " ++ identifier ++ " appears twice"
  | .duplicateDigest position name => "the digest for key " ++ toString position ++ " (" ++ name ++ ") appears twice"

namespace Manage

inductive Mode where
  | browse
  | confirmDelete
  | confirmDiscard
  deriving DecidableEq, Repr

/-- The keys that mean something to the manager; all others are alike. -/
inductive KeyCode where
  | up
  | down
  | left
  | right
  | home
  | last
  | delete
  | esc
  | char (char : Char)
  | other
  deriving DecidableEq, Repr

def scrollStep : Nat := 8

structure App where
  path : String
  logFile : String
  usage : Option (List (String × KeyTotals))
  file : KeyFile
  selected : Nat
  dirty : Bool
  saved : Bool
  status : String
  tableScroll : Nat
  mode : Mode
  quit : Bool

/-- The manager and the contents of its file. -/
structure Session where
  app : App
  disk : KeyFile

/-- A press, with what the file system would answer to it: the error of a write, the error of a read, and the totals of
the log. -/
structure Press where
  code : KeyCode
  writeError : Option String
  readError : Option String
  usage : Option (List (String × KeyTotals))

/-- `KeyFile::save`: the file is replaced whole or left alone. -/
def save (writeError : Option String) (file disk : KeyFile) : Except String Unit × KeyFile :=
  match file.validate with
  | .error error => (.error error.message, disk)
  | .ok () =>
      match writeError with
      | some error => (.error error, disk)
      | none => (.ok (), file)

/-- `KeyFile::load`. -/
def load (readError : Option String) (path : String) (disk : KeyFile) : Except String KeyFile :=
  match readError with
  | some error => .error ("could not read key file " ++ path ++ ": " ++ error)
  | none =>
      match disk.validate with
      | .error error => .error ("invalid key file " ++ path ++ ": " ++ error.message)
      | .ok () => .ok disk

/-- An admin key that is not disabled. -/
def enabledAdmin (key : KeyRecord) : Bool := key.admin && !key.disabled

namespace App

def new (file : KeyFile) (path logFile : String) (usage : Option (List (String × KeyTotals))) : App where
  path := path
  logFile := logFile
  usage := usage
  file := file
  selected := 0
  dirty := false
  saved := false
  status :=
    if usage.isSome then "Loaded " ++ path
    else "No audit log (pass --log-file); usage columns are empty: " ++ logFile
  tableScroll := 0
  mode := .browse
  quit := false

/-- The selected key is the only enabled admin key left. -/
def wouldOrphanAdmin (app : App) : Bool :=
  match app.file.keys[app.selected]? with
  | none => false
  | some selected =>
      selected.admin && !selected.disabled && (app.file.keys.filter enabledAdmin).length == 1

def toggleAdmin (app : App) : App :=
  if app.wouldOrphanAdmin then { app with status := "Refusing to clear the last enabled admin key." }
  else
    match app.file.keys[app.selected]? with
    | none => app
    | some key =>
        { app with
          file := { app.file with keys := app.file.keys.set app.selected { key with admin := !key.admin } }
          dirty := true
          status := key.name ++ ": admin = " ++ toString (!key.admin) ++ ". Press s to save." }

def toggleDisabled (app : App) : App :=
  if app.wouldOrphanAdmin then { app with status := "Refusing to disable the last enabled admin key." }
  else
    match app.file.keys[app.selected]? with
    | none => app
    | some key =>
        { app with
          file := { app.file with keys := app.file.keys.set app.selected { key with disabled := !key.disabled } }
          dirty := true
          status := key.name ++ ": disabled = " ++ toString (!key.disabled) ++ ". Press s to save." }

def delete (app : App) : App :=
  match app.file.keys[app.selected]? with
  | none => { app with mode := .browse }
  | some removed =>
      let keys := app.file.keys.eraseIdx app.selected
      { app with
        mode := .browse
        file := { app.file with keys := keys }
        selected := min app.selected (keys.length - 1)
        dirty := true
        status := "Deleted " ++ removed.name ++ ". Press s to save." }

end App

namespace Session

def save (writeError : Option String) (session : Session) : Session :=
  let app := session.app
  if !app.dirty then { session with app := { app with status := "Nothing to save." } }
  else
    match Manage.save writeError app.file session.disk with
    | (.ok (), disk) =>
        { app :=
            { app with
              dirty := false
              saved := true
              status := "Saved " ++ app.path ++ ". Restart mistralrs_proxy to apply changes." }
          disk := disk }
    | (.error error, disk) => { app := { app with status := "Could not save: " ++ error }, disk := disk }

def reload (readError : Option String) (usage : Option (List (String × KeyTotals))) (session : Session) : Session :=
  let app := session.app
  match load readError app.path session.disk with
  | .ok file =>
      { session with
        app :=
          { app with
            file := file
            selected := min app.selected (file.keys.length - 1)
            dirty := false
            usage := usage
            status := "Reloaded keys and usage; unsaved edits discarded." } }
  | .error error => { session with app := { app with status := "Could not reload: " ++ error } }

/-- The presses that are answered without the file. -/
def withApp (session : Session) (change : App → App) : Session := { session with app := change session.app }

def requestDelete (app : App) : App :=
  if app.wouldOrphanAdmin then { app with status := "Refusing to delete the last enabled admin key." }
  else if app.file.keys.length == 1 then { app with status := "Refusing to delete the last key." }
  else { app with mode := .confirmDelete }

def handleBrowse (press : Press) (session : Session) : Session :=
  match press.code with
  | .up | .char 'k' => session.withApp fun app => { app with selected := app.selected - 1 }
  | .down | .char 'j' =>
      session.withApp fun app => { app with selected := min (app.selected + 1) (app.file.keys.length - 1) }
  | .home => session.withApp fun app => { app with selected := 0 }
  | .last => session.withApp fun app => { app with selected := app.file.keys.length - 1 }
  | .char 'a' => session.withApp App.toggleAdmin
  | .char 'd' => session.withApp App.toggleDisabled
  | .char 'x' | .delete => session.withApp requestDelete
  | .char 's' => session.save press.writeError
  | .char 'r' => session.reload press.readError press.usage
  | .left | .char 'h' => session.withApp fun app => { app with tableScroll := app.tableScroll - scrollStep }
  | .right | .char 'l' =>
      session.withApp fun app => { app with tableScroll := min (app.tableScroll + scrollStep) (2 ^ 16 - 1) }
  | .char 'q' | .esc =>
      session.withApp fun app =>
        if app.dirty then { app with mode := .confirmDiscard } else { app with quit := true }
  | _ => session

def handle (session : Session) (press : Press) : Session :=
  match session.app.mode with
  | .confirmDelete =>
      match press.code with
      | .char 'y' | .char 'Y' => session.withApp App.delete
      | _ => session.withApp fun app => { app with mode := .browse, status := "Delete cancelled." }
  | .confirmDiscard =>
      match press.code with
      | .char 'y' | .char 'Y' => session.withApp fun app => { app with quit := true }
      | _ => session.withApp fun app => { app with mode := .browse, status := "Still editing." }
  | .browse => session.handleBrowse press

end Session

/-- The presses that request a deletion. -/
def isDeleteKey (code : KeyCode) : Prop := code = .char 'x' ∨ code = .delete

def isYes (code : KeyCode) : Prop := code = .char 'y' ∨ code = .char 'Y'

/-- What the manager never changes about a key. -/
structure Identity where
  name : String
  identifier : String
  keySha256 : String
  createdAtUnixMs : Nat
  deriving DecidableEq

def identity (key : KeyRecord) : Identity := ⟨key.name, key.identifier, key.keySha256, key.createdAtUnixMs⟩

def identities (file : KeyFile) : List Identity := file.keys.map identity

def HasEnabledAdmin (file : KeyFile) : Prop := ∃ key ∈ file.keys, enabledAdmin key = true

/-- Everything that a press can do to the list, the selection and the file. -/
inductive Effect (press : Press) (before after : Session) : Prop
  | moved (file : after.app.file = before.app.file) (disk : after.disk = before.disk)
      (mode : after.app.mode ≠ .confirmDelete)
      (selected : before.app.selected < before.app.file.keys.length →
        after.app.selected < before.app.file.keys.length)
  | requested (code : isDeleteKey press.code) (browse : before.app.mode = .browse)
      (guard : before.app.wouldOrphanAdmin = false) (file : after.app.file = before.app.file)
      (disk : after.disk = before.disk) (selected : after.app.selected = before.app.selected)
      (mode : after.app.mode = .confirmDelete)
  | toggled (key changed : KeyRecord) (guard : before.app.wouldOrphanAdmin = false)
      (found : before.app.file.keys[before.app.selected]? = some key) (same : identity changed = identity key)
      (keys : after.app.file.keys = before.app.file.keys.set before.app.selected changed)
      (disk : after.disk = before.disk) (selected : after.app.selected = before.app.selected)
      (mode : after.app.mode ≠ .confirmDelete)
  | deleted (code : isYes press.code) (confirm : before.app.mode = .confirmDelete)
      (inRange : before.app.selected < before.app.file.keys.length)
      (keys : after.app.file.keys = before.app.file.keys.eraseIdx before.app.selected)
      (selected : after.app.selected = min before.app.selected (after.app.file.keys.length - 1))
      (disk : after.disk = before.disk) (mode : after.app.mode ≠ .confirmDelete)
  | saved (file : after.app.file = before.app.file) (selected : after.app.selected = before.app.selected)
      (disk : after.disk = before.app.file) (mode : after.app.mode ≠ .confirmDelete)
  | reloaded (file : after.app.file = before.disk) (disk : after.disk = before.disk)
      (selected : after.app.selected = min before.app.selected (before.disk.keys.length - 1))
      (mode : after.app.mode ≠ .confirmDelete)

section Effects

variable {session : Session} (press : Press)

theorem ne_confirmDelete (hmode : session.app.mode = .browse) : session.app.mode ≠ .confirmDelete := by
  rw [hmode]
  decide

theorem toggleAdmin_effect (hmode : session.app.mode = .browse) :
    Effect press session (session.withApp App.toggleAdmin) := by
  have hbrowse := ne_confirmDelete hmode
  unfold Session.withApp App.toggleAdmin
  cases hguard : session.app.wouldOrphanAdmin with
  | true => exact .moved rfl rfl hbrowse id
  | false =>
      cases hkey : session.app.file.keys[session.app.selected]? with
      | none => exact .moved rfl rfl hbrowse id
      | some key => exact .toggled key { key with admin := !key.admin } hguard hkey rfl rfl rfl rfl hbrowse

theorem toggleDisabled_effect (hmode : session.app.mode = .browse) :
    Effect press session (session.withApp App.toggleDisabled) := by
  have hbrowse := ne_confirmDelete hmode
  unfold Session.withApp App.toggleDisabled
  cases hguard : session.app.wouldOrphanAdmin with
  | true => exact .moved rfl rfl hbrowse id
  | false =>
      cases hkey : session.app.file.keys[session.app.selected]? with
      | none => exact .moved rfl rfl hbrowse id
      | some key => exact .toggled key { key with disabled := !key.disabled } hguard hkey rfl rfl rfl rfl hbrowse

theorem requestDelete_effect (hcode : isDeleteKey press.code) (hmode : session.app.mode = .browse) :
    Effect press session (session.withApp Session.requestDelete) := by
  have hbrowse := ne_confirmDelete hmode
  unfold Session.withApp Session.requestDelete
  cases hguard : session.app.wouldOrphanAdmin with
  | true => exact .moved rfl rfl hbrowse id
  | false =>
      by_cases hlast : (session.app.file.keys.length == 1) = true
      · simp only [hlast]
        exact .moved rfl rfl hbrowse id
      · simp only [hlast]
        exact .requested hcode hmode hguard rfl rfl rfl rfl

theorem delete_effect (hcode : isYes press.code) (hmode : session.app.mode = .confirmDelete) :
    Effect press session (session.withApp App.delete) := by
  unfold Session.withApp App.delete
  cases hkey : session.app.file.keys[session.app.selected]? with
  | none => exact .moved rfl rfl (by simp) id
  | some removed => exact .deleted hcode hmode (List.getElem?_eq_some_iff.mp hkey).1 rfl rfl rfl (by simp)

theorem save_effect (hmode : session.app.mode = .browse) : Effect press session (session.save press.writeError) := by
  have hbrowse := ne_confirmDelete hmode
  unfold Session.save
  simp only [Manage.save]
  cases session.app.dirty with
  | false => exact .moved rfl rfl hbrowse id
  | true =>
      cases session.app.file.validate with
      | error error => exact .moved rfl rfl hbrowse id
      | ok _ =>
          cases press.writeError with
          | some error => exact .moved rfl rfl hbrowse id
          | none => exact .saved rfl rfl rfl hbrowse

theorem reload_effect (hmode : session.app.mode = .browse) :
    Effect press session (session.reload press.readError press.usage) := by
  have hbrowse := ne_confirmDelete hmode
  unfold Session.reload load
  cases press.readError with
  | some error => exact .moved rfl rfl hbrowse id
  | none =>
      cases session.disk.validate with
      | error error => exact .moved rfl rfl hbrowse id
      | ok _ => exact .reloaded rfl rfl rfl hbrowse

theorem quit_effect (hmode : session.app.mode = .browse) :
    Effect press session (session.withApp fun app =>
      if app.dirty then { app with mode := .confirmDiscard } else { app with quit := true }) := by
  simp only [Session.withApp]
  cases session.app.dirty with
  | true => exact .moved rfl rfl (by simp) id
  | false => exact .moved rfl rfl (ne_confirmDelete hmode) id

theorem handleBrowse_effect (hmode : session.app.mode = .browse) :
    Effect press session (session.handleBrowse press) := by
  have hbrowse := ne_confirmDelete hmode
  unfold Session.handleBrowse
  split
  · exact .moved rfl rfl hbrowse fun h => Nat.lt_of_le_of_lt (Nat.sub_le _ _) h
  · exact .moved rfl rfl hbrowse fun h => Nat.lt_of_le_of_lt (Nat.sub_le _ _) h
  · exact .moved rfl rfl hbrowse fun h => Nat.lt_of_le_of_lt (Nat.min_le_right _ _) (by omega)
  · exact .moved rfl rfl hbrowse fun h => Nat.lt_of_le_of_lt (Nat.min_le_right _ _) (by omega)
  · exact .moved rfl rfl hbrowse fun h => Nat.lt_of_le_of_lt (Nat.zero_le _) h
  · exact .moved rfl rfl hbrowse fun h => Nat.sub_lt (Nat.lt_of_le_of_lt (Nat.zero_le _) h) (by omega)
  · exact toggleAdmin_effect press hmode
  · exact toggleDisabled_effect press hmode
  · rename_i hcode
    exact requestDelete_effect press (.inl hcode) hmode
  · rename_i hcode
    exact requestDelete_effect press (.inr hcode) hmode
  · exact save_effect press hmode
  · exact reload_effect press hmode
  · exact .moved rfl rfl hbrowse id
  · exact .moved rfl rfl hbrowse id
  · exact .moved rfl rfl hbrowse id
  · exact .moved rfl rfl hbrowse id
  · exact quit_effect press hmode
  · exact quit_effect press hmode
  · exact .moved rfl rfl hbrowse id

theorem handle_effect (session : Session) : Effect press session (session.handle press) := by
  unfold Session.handle
  cases hmode : session.app.mode with
  | browse => exact handleBrowse_effect press hmode
  | confirmDelete =>
      simp only
      split
      · rename_i hcode
        exact delete_effect press (.inl hcode) hmode
      · rename_i hcode
        exact delete_effect press (.inr hcode) hmode
      · exact .moved rfl rfl (by simp [Session.withApp]) id
  | confirmDiscard =>
      simp only
      split
      · exact .moved rfl rfl (by simp [Session.withApp, hmode]) id
      · exact .moved rfl rfl (by simp [Session.withApp, hmode]) id
      · exact .moved rfl rfl (by simp [Session.withApp]) id

end Effects

end Manage

end MistralrsProxy
