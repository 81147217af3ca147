import MistralrsProxy.Manage
import Mathlib.Data.List.Perm.Basic
import Mathlib.Data.List.InsertIdx

/-! Whole sessions of the key manager. The list in memory is always a sublist, up to the two flags, of the list in the
file, so that reloading only brings records back and saving only carries out deletions that were confirmed before. -/

namespace MistralrsProxy

namespace Manage

theorem App.wouldOrphanAdmin_congr {app app' : App} (hfile : app'.file = app.file)
    (hselected : app'.selected = app.selected) : app'.wouldOrphanAdmin = app.wouldOrphanAdmin := by
  simp only [App.wouldOrphanAdmin, hfile, hselected]

/-- While the guard is silent, some enabled admin key is not the selected one. -/
theorem exists_other_admin {app : App} (hadmin : HasEnabledAdmin app.file)
    (hselected : app.selected < app.file.keys.length) (hguard : app.wouldOrphanAdmin = false) :
    ∃ key ∈ app.file.keys.eraseIdx app.selected, enabledAdmin key = true := by
  have hcount := (List.getElem_cons_eraseIdx_perm hselected).countP_eq enabledAdmin
  have hsome : 0 < app.file.keys.countP enabledAdmin := by
    obtain ⟨key, hkey, henabled⟩ := hadmin
    exact List.countP_pos_iff.mpr ⟨key, hkey, henabled⟩
  apply List.countP_pos_iff.mp
  rw [List.countP_cons] at hcount
  simp only [App.wouldOrphanAdmin, List.getElem?_eq_getElem hselected, ← List.countP_eq_length_filter] at hguard
  cases henabled : enabledAdmin app.file.keys[app.selected] with
  | false =>
      simp only [henabled, Bool.false_eq_true, if_false] at hcount
      omega
  | true =>
      -- the selected key is one of the enabled admin keys, and it is not the only one
      have hmany : app.file.keys.countP enabledAdmin ≠ 1 := by
        intro hone
        simp only [enabledAdmin] at henabled
        simp [henabled, hone] at hguard
      simp only [henabled, if_true] at hcount
      omega

/-- What holds of a session between any two presses. -/
structure Inv (session : Session) : Prop where
  memory : HasEnabledAdmin session.app.file
  disk : HasEnabledAdmin session.disk
  selected : session.app.selected < session.app.file.keys.length
  guard : session.app.mode = .confirmDelete → session.app.wouldOrphanAdmin = false
  kept : (identities session.app.file).Sublist (identities session.disk)

theorem HasEnabledAdmin.length_pos {file : KeyFile} (hadmin : HasEnabledAdmin file) : 0 < file.keys.length := by
  obtain ⟨key, hkey, -⟩ := hadmin
  exact List.length_pos_of_mem hkey

theorem identities_set {file after : KeyFile} {selected : Nat} {key changed : KeyRecord}
    (hkey : file.keys[selected]? = some key) (hsame : identity changed = identity key)
    (hkeys : after.keys = file.keys.set selected changed) : identities after = identities file := by
  apply List.ext_getElem?
  intro i
  simp only [identities, hkeys, List.getElem?_map, List.getElem?_set]
  split
  · rename_i heq
    subst heq
    rw [hkey, if_pos (List.getElem?_eq_some_iff.mp hkey).1]
    simp only [Option.map_some, hsame]
  · rfl

theorem Effect.inv {press : Press} {before after : Session} (heffect : Effect press before after) (hinv : Inv before) :
    Inv after := by
  cases heffect with
  | moved file disk mode selected =>
      refine ⟨?_, ?_, ?_, fun h => absurd h mode, ?_⟩
      · rw [file]
        exact hinv.memory
      · rw [disk]
        exact hinv.disk
      · rw [file]
        exact selected hinv.selected
      · rw [file, disk]
        exact hinv.kept
  | requested code browse guard file disk selected mode =>
      refine ⟨?_, ?_, ?_, fun _ => ?_, ?_⟩
      · rw [file]
        exact hinv.memory
      · rw [disk]
        exact hinv.disk
      · rw [file, selected]
        exact hinv.selected
      · rw [App.wouldOrphanAdmin_congr file selected]
        exact guard
      · rw [file, disk]
        exact hinv.kept
  | toggled key changed guard found same keys disk selected mode =>
      refine ⟨?_, ?_, ?_, fun h => absurd h mode, ?_⟩
      · obtain ⟨other, hother, henabled⟩ := exists_other_admin hinv.memory hinv.selected guard
        refine ⟨other, ?_, henabled⟩
        rw [keys]
        rw [← List.eraseIdx_set_eq (a := changed)] at hother
        exact List.mem_of_mem_eraseIdx hother
      · rw [disk]
        exact hinv.disk
      · rw [keys, selected, List.length_set]
        exact hinv.selected
      · rw [identities_set found same keys, disk]
        exact hinv.kept
  | deleted code confirm inRange keys selected disk mode =>
      obtain ⟨other, hother, henabled⟩ := exists_other_admin hinv.memory inRange (hinv.guard confirm)
      have hmemory : HasEnabledAdmin after.app.file := ⟨other, by rw [keys]; exact hother, henabled⟩
      refine ⟨hmemory, ?_, ?_, fun h => absurd h mode, ?_⟩
      · rw [disk]
        exact hinv.disk
      · have := hmemory.length_pos
        rw [selected]
        omega
      · rw [disk, identities, keys]
        exact ((List.eraseIdx_sublist _ _).map identity).trans hinv.kept
  | saved file selected disk mode =>
      refine ⟨?_, ?_, ?_, fun h => absurd h mode, ?_⟩
      · rw [file]
        exact hinv.memory
      · rw [disk]
        exact hinv.memory
      · rw [file, selected]
        exact hinv.selected
      · rw [file, disk]
  | reloaded file disk selected mode =>
      refine ⟨?_, ?_, ?_, fun h => absurd h mode, ?_⟩
      · rw [file]
        exact hinv.disk
      · rw [disk]
        exact hinv.disk
      · have := hinv.disk.length_pos
        rw [file, selected]
        omega
      · rw [file, disk]

/-- A press that loses no record keeps the list up to the flags, or brings records of the file back. -/
theorem Effect.kept_or_deleted {press : Press} {before after : Session} (heffect : Effect press before after)
    (hinv : Inv before) :
    (identities before.app.file).Sublist (identities after.app.file) ∨
      isYes press.code ∧ before.app.mode = .confirmDelete ∧
        after.app.file.keys = before.app.file.keys.eraseIdx before.app.selected := by
  cases heffect with
  | moved file => exact .inl (by rw [file])
  | requested _ _ _ file => exact .inl (by rw [file])
  | toggled _ _ _ found same keys => exact .inl (by rw [identities_set found same keys])
  | deleted code confirm _ keys => exact .inr ⟨code, confirm, keys⟩
  | saved file => exact .inl (by rw [file])
  | reloaded file => exact .inl (by rw [file]; exact hinv.kept)

theorem Effect.disk_cases {press : Press} {before after : Session} (heffect : Effect press before after) :
    after.disk = before.disk ∨ after.disk = before.app.file := by
  cases heffect with
  | moved _ disk => exact .inl disk
  | requested _ _ _ _ disk => exact .inl disk
  | toggled _ _ _ _ _ _ disk => exact .inl disk
  | deleted _ _ _ _ _ disk => exact .inl disk
  | saved _ _ disk => exact .inr disk
  | reloaded _ disk => exact .inl disk

theorem Effect.requested_of_confirm {press : Press} {before after : Session} (heffect : Effect press before after)
    (hmode : after.app.mode = .confirmDelete) :
    isDeleteKey press.code ∧ before.app.mode = .browse ∧ after.app.file = before.app.file ∧
      after.app.selected = before.app.selected := by
  cases heffect with
  | requested code browse _ file _ selected => exact ⟨code, browse, file, selected⟩
  | moved _ _ mode => exact absurd hmode mode
  | toggled _ _ _ _ _ _ _ _ mode => exact absurd hmode mode
  | deleted _ _ _ _ _ _ mode => exact absurd hmode mode
  | saved _ _ _ mode => exact absurd hmode mode
  | reloaded _ _ _ mode => exact absurd hmode mode

section Runs

variable (file : KeyFile) (path logFile : String) (usage : Option (List (String × KeyTotals)))

/-- The session after a sequence of presses, over a file that nobody else writes. -/
def run (presses : List Press) : Session := presses.foldl Session.handle ⟨App.new file path logFile usage, file⟩

theorem run_concat (presses : List Press) (press : Press) :
    run file path logFile usage (presses ++ [press]) = (run file path logFile usage presses).handle press := by
  simp [run, List.foldl_append]

variable {file}

theorem run_inv (hadmin : HasEnabledAdmin file) (presses : List Press) : Inv (run file path logFile usage presses) := by
  induction presses using List.reverseRecOn with
  | nil => exact ⟨hadmin, hadmin, hadmin.length_pos, by simp [run, App.new], List.Sublist.refl _⟩
  | append_singleton presses press ih =>
      rw [run_concat]
      exact (handle_effect press _).inv ih

variable (file)

/-- `x` was pressed in the list with the record selected and left the list alone, and `y` right after it removed the
record. -/
def ConfirmedDeletion (earlier : List Press) (x y : Press) (record : Identity) : Prop :=
  let session := run file path logFile usage earlier
  isDeleteKey x.code ∧ isYes y.code ∧ session.app.mode = .browse ∧
    (session.app.file.keys[session.app.selected]?).map identity = some record ∧
    (run file path logFile usage (earlier ++ [x])).app.file = session.app.file ∧
    (run file path logFile usage (earlier ++ [x, y])).app.file.keys =
      session.app.file.keys.eraseIdx session.app.selected

theorem run_confirm (presses : List Press) (hmode : (run file path logFile usage presses).app.mode = .confirmDelete) :
    ∃ earlier x, presses = earlier ++ [x] ∧ isDeleteKey x.code ∧
      (run file path logFile usage earlier).app.mode = .browse ∧
      (run file path logFile usage presses).app.file = (run file path logFile usage earlier).app.file ∧
      (run file path logFile usage presses).app.selected = (run file path logFile usage earlier).app.selected := by
  rcases List.eq_nil_or_concat presses with rfl | ⟨earlier, x, rfl⟩
  · simp [run, App.new] at hmode
  · rw [List.concat_eq_append] at hmode ⊢
    rw [run_concat] at hmode ⊢
    exact ⟨earlier, x, rfl, (handle_effect x _).requested_of_confirm hmode⟩

variable {file}

theorem run_kept_or_deleted (hadmin : HasEnabledAdmin file) (presses : List Press) (press : Press) :
    (identities (run file path logFile usage presses).app.file).Sublist
        (identities (run file path logFile usage (presses ++ [press])).app.file) ∨
      ∃ earlier x record, presses = earlier ++ [x] ∧
      ConfirmedDeletion file path logFile usage earlier x press record := by
  have hinv := run_inv path logFile usage hadmin presses
  rw [run_concat]
  rcases (handle_effect press _).kept_or_deleted hinv with hkept | ⟨hyes, hmode, hkeys⟩
  · exact .inl hkept
  · obtain ⟨earlier, x, rfl, hdelete, hbrowse, hfile, hselected⟩ := run_confirm file path logFile usage presses hmode
    rw [← run_concat, List.append_assoc, hfile, hselected] at hkeys
    have hrange := hinv.selected
    rw [hfile, hselected] at hrange
    have hkey := List.getElem?_eq_getElem hrange
    generalize
      (run file path logFile usage earlier).app.file.keys[(run file path logFile usage earlier).app.selected] = key
      at hkey
    exact .inr ⟨earlier, x, identity key, rfl, hdelete, hyes, hbrowse, by rw [hkey]; rfl, hfile, hkeys⟩

/-- The record that an erased position held is the only one that the list can lose. -/
theorem identity_of_lost {before after : KeyFile} {selected : Nat} {lost record : Identity}
    (hkeys : after.keys = before.keys.eraseIdx selected)
    (hlost : (before.keys[selected]?).map identity = some lost) (hmem : record ∈ identities before)
    (hgone : record ∉ identities after) : lost = record := by
  obtain ⟨key, hkey, rfl⟩ := Option.map_eq_some_iff.mp hlost
  obtain ⟨hselected, rfl⟩ := List.getElem?_eq_some_iff.mp hkey
  have hperm := (List.getElem_cons_eraseIdx_perm hselected).map identity
  have hcases := hperm.mem_iff.mpr hmem
  rw [List.map_cons, List.mem_cons] at hcases
  rcases hcases with heq | hother
  · exact heq.symm
  · rw [identities, hkeys] at hgone
    exact absurd hother hgone

theorem lost_deleted (hadmin : HasEnabledAdmin file) (presses : List Press) {record : Identity}
    (hrecord : record ∈ identities file) (hgone : record ∉ identities (run file path logFile usage presses).app.file) :
    ∃ earlier x y later, presses = earlier ++ x :: y :: later ∧
      ConfirmedDeletion file path logFile usage earlier x y record := by
  induction presses using List.reverseRecOn with
  | nil => exact absurd hrecord hgone
  | append_singleton presses press ih =>
      by_cases hbefore : record ∈ identities (run file path logFile usage presses).app.file
      · rcases run_kept_or_deleted path logFile usage hadmin presses press with hkept |
          ⟨earlier, x, lost, rfl, hdeleted⟩
        · exact absurd (hkept.subset hbefore) hgone
        · obtain ⟨hdelete, hyes, hbrowse, hlost, hfile, hkeys⟩ := hdeleted
          rw [List.append_assoc, List.singleton_append] at hgone
          rw [hfile] at hbefore
          obtain rfl := identity_of_lost hkeys hlost hbefore hgone
          exact ⟨earlier, x, press, [], by simp, hdelete, hyes, hbrowse, hlost, hfile, hkeys⟩
      · obtain ⟨earlier, x, y, later, rfl, hdeleted⟩ := ih hbefore
        exact ⟨earlier, x, y, later ++ [press], by simp, hdeleted⟩

/-- Whatever is pressed, the list and the file keep an enabled admin key and the selection stays in the list. A press
keeps every record of the list, or it is the `y` right after an `x` on the record that goes; the file only ever becomes
the list as it stands, so a record that it has lost was deleted in the same way. -/
theorem manager_keeps_an_admin (hadmin : HasEnabledAdmin file) (presses : List Press) :
    let session := run file path logFile usage presses
    (HasEnabledAdmin session.app.file ∧ HasEnabledAdmin session.disk ∧
      session.app.selected < session.app.file.keys.length) ∧
    (∀ press, let next := run file path logFile usage (presses ++ [press])
      ((identities session.app.file).Sublist (identities next.app.file) ∨
        ∃ earlier x record, presses = earlier ++ [x] ∧
          ConfirmedDeletion file path logFile usage earlier x press record) ∧
      (next.disk = session.disk ∨ next.disk = session.app.file)) ∧
    ∀ record ∈ identities file, record ∉ identities session.app.file ∨ record ∉ identities session.disk →
      ∃ earlier x y later, presses = earlier ++ x :: y :: later ∧
        ConfirmedDeletion file path logFile usage earlier x y record := by
  have hinv := run_inv path logFile usage hadmin presses
  refine ⟨⟨hinv.memory, hinv.disk, hinv.selected⟩, fun press => ⟨?_, ?_⟩, fun record hrecord hgone => ?_⟩
  · exact run_kept_or_deleted path logFile usage hadmin presses press
  · rw [run_concat]
    exact (handle_effect press _).disk_cases
  · apply lost_deleted path logFile usage hadmin presses hrecord
    -- the file holds all that the list holds
    rcases hgone with hmemory | hdisk
    · exact hmemory
    · exact fun hmem => hdisk (hinv.kept.subset hmem)

end Runs

def adminKey (name : String) : KeyRecord where
  name := name
  identifier := "AAAAAAAAAAA"
  keySha256 := ""
  admin := true
  disabled := false
  createdAtUnixMs := 0

def charPress (char : Char) : Press := ⟨.char char, none, none, none⟩

def adminPair : KeyFile := ⟨1, [adminKey "first", adminKey "second"]⟩

def adminPairPresses : List Press :=
  [charPress 'x', charPress 'y', charPress 'x', charPress 'y', charPress 'a', charPress 'd']

theorem adminPair_run :
    (run adminPair "keys.json" "audit.jsonl" none adminPairPresses).app.file.keys = [adminKey "second"] := by
  decide +kernel

/-- The first of two admin keys is deleted, the second can be neither deleted nor demoted. -/
theorem manager_keeps_an_admin_pair :
    HasEnabledAdmin (run adminPair "keys.json" "audit.jsonl" none adminPairPresses).app.file ∧
      HasEnabledAdmin (run adminPair "keys.json" "audit.jsonl" none adminPairPresses).disk ∧
      ∃ earlier x y later, adminPairPresses = earlier ++ x :: y :: later ∧
        ConfirmedDeletion adminPair "keys.json" "audit.jsonl" none earlier x y (identity (adminKey "first")) := by
  have hadmin : HasEnabledAdmin adminPair := ⟨adminKey "first", List.mem_cons_self, rfl⟩
  obtain ⟨⟨hmemory, hdisk, -⟩, -, hlost⟩ :=
    manager_keeps_an_admin "keys.json" "audit.jsonl" none hadmin adminPairPresses
  refine ⟨hmemory, hdisk, hlost _ (List.mem_cons_self) (.inl ?_)⟩
  rw [identities, adminPair_run]
  decide

end Manage

end MistralrsProxy
