import Mathlib.Data.List.Pairwise
import Mathlib.Data.String.Basic
import MistralrsProxy.BackendState
import MistralrsProxy.Text
import MistralrsProxy.TransitionSystem

/-! The file behind the durable operator state, and the steps by which it is replaced: a temporary file is written and
renamed over it, then the directory is synced. Every step may fail. A failed save is taken back in memory, whatever it
has done on disk. -/

open Transition

namespace MistralrsProxy

def stateSchemaVersion : UInt32 := 1

structure PersistedBackend where
  mode : BackendMode
  changedAtUnixMs : UInt64
  deriving DecidableEq, Repr

/-- The map is ordered by its keys. -/
structure StateFile where
  schemaVersion : UInt32
  backends : List (BackendId × PersistedBackend)
  sorted : backends.Pairwise (·.1 < ·.1)
  deriving DecidableEq

/-- What is taken from the library: the text of a state, and reading one. -/
structure StateCodec where
  toVecPretty : StateFile → String
  fromStr : String → Except String StateFile

/-- The contents of the state file and of the temporary file; no contents for a file that is not there. -/
structure StateDisk where
  file : Option String
  temporary : Option String
  deriving DecidableEq, Repr

/-- The steps of `save_file` that can fail for reasons outside the program. -/
inductive SaveStep where
  | createDirectory
  | openTemporary
  | write
  | sync
  | permissions
  | rename
  | syncDirectory
  deriving DecidableEq, Repr

inductive StateError where
  | invalidData (message : String)
  | io (step : SaveStep)
  deriving DecidableEq, Repr

/-- How a save goes: which of the steps succeed, what a failed write leaves behind, and whether the temporary file can
be removed after a failure. -/
structure SaveIo where
  succeeds : SaveStep → Bool
  written : String
  removes : Bool

/-- Insertion into an ordered map. -/
def insertBackend (id : BackendId) (entry : PersistedBackend) :
    List (BackendId × PersistedBackend) → List (BackendId × PersistedBackend)
  | [] => [(id, entry)]
  | (other, old) :: rest =>
      if id < other then (id, entry) :: (other, old) :: rest
      else if id = other then (id, entry) :: rest
      else (other, old) :: insertBackend id entry rest

theorem mem_insertBackend {id : BackendId} {entry : PersistedBackend} {backends : List (BackendId × PersistedBackend)}
    {item : BackendId × PersistedBackend} (h : item ∈ insertBackend id entry backends) :
    item = (id, entry) ∨ item ∈ backends := by
  induction backends with
  | nil => exact .inl (List.mem_singleton.mp h)
  | cons first rest ih =>
      obtain ⟨other, old⟩ := first
      rw [insertBackend] at h
      split at h
      · exact List.mem_cons.mp h
      · split at h
        · rcases List.mem_cons.mp h with rfl | h
          · exact .inl rfl
          · exact .inr (List.mem_cons_of_mem _ h)
        · rcases List.mem_cons.mp h with rfl | h
          · exact .inr List.mem_cons_self
          · exact (ih h).imp_right (List.mem_cons_of_mem _)

theorem pairwise_insertBackend (id : BackendId) (entry : PersistedBackend)
    {backends : List (BackendId × PersistedBackend)} (h : backends.Pairwise (·.1 < ·.1)) :
    (insertBackend id entry backends).Pairwise (·.1 < ·.1) := by
  induction backends with
  | nil => exact List.pairwise_singleton _ _
  | cons first rest ih =>
      obtain ⟨other, old⟩ := first
      have hfirst := (List.pairwise_cons.mp h).1
      have hrest := (List.pairwise_cons.mp h).2
      rw [insertBackend]
      split
      · rename_i hlt
        refine List.pairwise_cons.mpr ⟨?_, h⟩
        intro item hmem
        rcases List.mem_cons.mp hmem with rfl | hmem
        · exact hlt
        · exact hlt.trans (hfirst item hmem)
      · rename_i hge
        split
        · rename_i heq
          subst heq
          exact List.pairwise_cons.mpr ⟨hfirst, hrest⟩
        · rename_i hne
          refine List.pairwise_cons.mpr ⟨?_, ih hrest⟩
          intro item hmem
          rcases mem_insertBackend hmem with rfl | hmem
          · exact lt_of_le_of_ne (not_lt.mp hge) (Ne.symm hne)
          · exact hfirst item hmem

namespace StateFile

def default : StateFile := ⟨stateSchemaVersion, [], List.Pairwise.nil⟩

/-- The mode stored for a backend. -/
def modes (state : StateFile) (id : BackendId) : Option BackendMode :=
  (state.backends.find? fun entry => decide (entry.1 = id)).map (·.2.mode)

def remove (id : BackendId) (state : StateFile) : StateFile where
  schemaVersion := state.schemaVersion
  backends := state.backends.filter fun entry => decide (entry.1 ≠ id)
  sorted := state.sorted.filter _

def insert (id : BackendId) (entry : PersistedBackend) (state : StateFile) : StateFile where
  schemaVersion := state.schemaVersion
  backends := insertBackend id entry state.backends
  sorted := pairwise_insertBackend id entry state.sorted

/-- The change `set_mode` makes before it saves. -/
def update (id : BackendId) (mode : BackendMode) (now : UInt64) (state : StateFile) : StateFile :=
  match mode with
  | .active => state.remove id
  | .draining | .disabled => state.insert id ⟨mode, now⟩

/-- The check on one entry. -/
def validateEntry (entry : BackendId × PersistedBackend) : Except String Unit :=
  if entry.1 = "" then .error "an entry has an empty backend id"
  else if entry.2.mode = .active then
    .error ("backend " ++ debugText entry.1 ++ " stores mode active; active backends must be omitted")
  else .ok ()

def validate (state : StateFile) : Except String Unit :=
  if state.schemaVersion ≠ stateSchemaVersion then
    .error ("unsupported schema version " ++ toString state.schemaVersion ++ " (this build understands " ++
      toString stateSchemaVersion ++ ")")
  else state.backends.forM validateEntry

end StateFile

/-- `BackendStateStore::load`, on the contents of the file. -/
def StateCodec.load (codec : StateCodec) (path : String) : Option String → Except StateError StateFile
  | none => .ok .default
  | some contents =>
      match codec.fromStr contents with
      | .error error => .error (.invalidData ("could not parse backend state " ++ path ++ ": " ++ error))
      | .ok state =>
          match state.validate with
          | .error message => .error (.invalidData ("invalid backend state " ++ path ++ ": " ++ message))
          | .ok () => .ok state

/-- From the write to the sync of the directory, each step only if those before it have succeeded. -/
def SaveIo.replace (io : SaveIo) (json : String) (disk : StateDisk) : StateDisk × Except StateError Unit :=
  if !io.succeeds .write then ({ disk with temporary := some io.written }, .error (.io .write))
  else if !io.succeeds .sync then ({ disk with temporary := some json }, .error (.io .sync))
  else if !io.succeeds .permissions then ({ disk with temporary := some json }, .error (.io .permissions))
  else if !io.succeeds .rename then ({ disk with temporary := some json }, .error (.io .rename))
  else if !io.succeeds .syncDirectory then (⟨some json, none⟩, .error (.io .syncDirectory))
  else (⟨some json, none⟩, .ok ())

def StateCodec.saveFile (codec : StateCodec) (io : SaveIo) (state : StateFile) (disk : StateDisk) :
    StateDisk × Except StateError Unit :=
  match state.validate with
  | .error message => (disk, .error (.invalidData message))
  | .ok () =>
      if !io.succeeds .createDirectory then (disk, .error (.io .createDirectory))
      else if !io.succeeds .openTemporary then (disk, .error (.io .openTemporary))
      else
        match io.replace (codec.toVecPretty state ++ "\n") { disk with temporary := some "" } with
        | (disk, .ok ()) => (disk, .ok ())
        | (disk, .error error) => (if io.removes then { disk with temporary := none } else disk, .error error)

/-- The state in memory, and the files. -/
structure StateWorld where
  memory : StateFile
  disk : StateDisk
  deriving DecidableEq

/-- One call of `set_mode`, with the clock and the outcomes it meets. -/
structure SetModeCall where
  id : BackendId
  mode : BackendMode
  now : UInt64
  io : SaveIo

/-- `BackendStateStore::set_mode`. -/
def StateCodec.setMode (codec : StateCodec) (call : SetModeCall) (world : StateWorld) :
    StateWorld × Except StateError Unit :=
  let updated := world.memory.update call.id call.mode call.now
  match codec.saveFile call.io updated world.disk with
  | (disk, .error error) => (⟨world.memory, disk⟩, .error error)
  | (disk, .ok ()) => (⟨updated, disk⟩, .ok ())

/-- A store opened on what the disk holds, and calls of `set_mode` one after the other. -/
def stateSystem (codec : StateCodec) (path : String) : System StateWorld SetModeCall where
  initial world := codec.load path world.disk.file = .ok world.memory
  step world call := some (codec.setMode call world).1

/-- The library reads back what it has written for a state. -/
def StateCodec.ReadsBack (codec : StateCodec) (state : StateFile) : Prop :=
  codec.fromStr (codec.toVecPretty state ++ "\n") = .ok state

/-- A fresh load of the file gives this map. -/
def StateCodec.LoadsModes (codec : StateCodec) (path : String) (disk : StateDisk)
    (modes : BackendId → Option BackendMode) :
    Prop :=
  ∃ state, codec.load path disk.file = .ok state ∧ state.modes = modes

/-- The map with the entry of one backend set; an active backend has none. -/
def updateModes (id : BackendId) (mode : BackendMode) (modes : BackendId → Option BackendMode) :
    BackendId → Option BackendMode :=
  Function.update modes id (if mode = .active then none else some mode)

/-- After the call memory and file hold the map with the change if it returns `Ok`, and the map before if not. -/
structure AtomicCall (codec : StateCodec) (path : String) (world : StateWorld) (call : SetModeCall) : Prop where
  ok : (codec.setMode call world).2 = .ok () →
    (codec.setMode call world).1.memory.modes = updateModes call.id call.mode world.memory.modes ∧
      codec.LoadsModes path (codec.setMode call world).1.disk (updateModes call.id call.mode world.memory.modes)
  error : ∀ error, (codec.setMode call world).2 = .error error →
    (codec.setMode call world).1.memory.modes = world.memory.modes ∧
      codec.LoadsModes path (codec.setMode call world).1.disk world.memory.modes

/-- Every step up to the rename succeeds. -/
def SaveIo.renames (io : SaveIo) : Bool :=
  [SaveStep.createDirectory, .openTemporary, .write, .sync, .permissions, .rename].all io.succeeds

/-- A valid change of the map gets as far as the rename, and then the directory cannot be synced. -/
structure TornCall (world : StateWorld) (call : SetModeCall) : Prop where
  valid : (world.memory.update call.id call.mode call.now).validate = .ok ()
  renamed : call.io.renames = true
  unsynced : call.io.succeeds .syncDirectory = false
  changed : updateModes call.id call.mode world.memory.modes ≠ world.memory.modes

theorem find?_insertBackend (id other : BackendId) (entry : PersistedBackend)
    (backends : List (BackendId × PersistedBackend)) :
    (insertBackend id entry backends).find? (fun item => decide (item.1 = other)) =
      if other = id then some (id, entry) else backends.find? fun item => decide (item.1 = other) := by
  induction backends with
  | nil => by_cases h : other = id <;> simp [insertBackend, h, eq_comm]
  | cons first rest ih =>
      obtain ⟨key, old⟩ := first
      rw [insertBackend]
      split
      · by_cases h : other = id
        · simp [h]
        · simp [h, Ne.symm h]
      · split
        · rename_i hkey
          subst hkey
          by_cases h : other = id
          · simp [h]
          · simp [h, Ne.symm h]
        · rename_i hkey
          by_cases hother : key = other
          · subst hother
            simp [Ne.symm hkey]
          · simp [hother, ih]

namespace StateFile

variable {state : StateFile} {id : BackendId}

theorem modes_remove (id : BackendId) (state : StateFile) :
    (state.remove id).modes = Function.update state.modes id none := by
  funext other
  by_cases h : other = id
  · subst h
    simp [modes, remove, List.find?_filter, List.find?_eq_none]
  · rw [Function.update_of_ne h]
    unfold modes remove
    rw [List.find?_filter]
    refine congrArg _ (congrArg (List.find? · _) ?_)
    funext entry
    by_cases hother : entry.1 = other
    · simp [hother, h]
    · simp [hother]

theorem modes_insert (id : BackendId) (entry : PersistedBackend) (state : StateFile) :
    (state.insert id entry).modes = Function.update state.modes id (some entry.mode) := by
  funext other
  unfold modes insert
  rw [find?_insertBackend]
  by_cases h : other = id
  · subst h
    simp
  · simp [h]

theorem modes_update (id : BackendId) (mode : BackendMode) (now : UInt64) (state : StateFile) :
    (state.update id mode now).modes = updateModes id mode state.modes := by
  cases mode with
  | active => exact modes_remove id state
  | draining => exact modes_insert id _ state
  | disabled => exact modes_insert id _ state

theorem forM_validateEntry_ok {backends : List (BackendId × PersistedBackend)}
    (h : backends.forM validateEntry = .ok ()) : ∀ entry ∈ backends, entry.2.mode ≠ .active := by
  induction backends with
  | nil => exact fun _ hmem => absurd hmem List.not_mem_nil
  | cons first rest ih =>
      have hcons : (validateEntry first >>= fun _ => rest.forM validateEntry) = .ok () := h
      rcases hfirst : validateEntry first with error | value
      · rw [hfirst] at hcons
        cases hcons
      · rw [hfirst] at hcons
        refine List.forall_mem_cons.mpr ⟨?_, ih hcons⟩
        unfold validateEntry at hfirst
        split_ifs at hfirst with _ hmode
        exact hmode

theorem validate_ok (h : state.validate = .ok ()) : ∀ entry ∈ state.backends, entry.2.mode ≠ .active := by
  unfold validate at h
  split at h
  · cases h
  · exact forM_validateEntry_ok h

/-- A valid state, seen as the store the control plane works on. -/
def store (state : StateFile) (h : state.validate = .ok ()) : BackendStateStore where
  modes := state.modes
  valid := by
    intro id hactive
    obtain ⟨entry, hfound, hmode⟩ := Option.map_eq_some_iff.mp hactive
    exact validate_ok h entry (List.mem_of_find?_eq_some hfound) hmode

/-- The change that is saved is the one of the store. -/
theorem store_update (mode : BackendMode) (now : UInt64) (h : state.validate = .ok ())
    (hnext : (state.update id mode now).validate = .ok ()) :
    (state.update id mode now).store hnext = (state.store h).setMode id mode :=
  BackendStateStore.ext (modes_update id mode now state)

end StateFile

/-- The memory is a valid state and stands for this store. -/
def StateWorld.Holds (store : BackendStateStore) (world : StateWorld) : Prop :=
  ∃ h : world.memory.validate = .ok (), world.memory.store h = store

namespace StateCodec

variable {codec : StateCodec} {path : String} {io : SaveIo} {state : StateFile} {disk : StateDisk}
  {world next : StateWorld}
  {call : SetModeCall}

theorem exists_error {result : Except StateError Unit} (h : result ≠ .ok ()) : ∃ error, result = .error error := by
  cases result with
  | ok value => exact absurd rfl h
  | error error => exact ⟨error, rfl⟩

/-- What a save leaves in the file, and when it returns `Ok`. -/
theorem saveFile_spec (codec : StateCodec) (io : SaveIo) (state : StateFile) (disk : StateDisk) :
    (state.validate = .ok () ∧ io.renames = true →
      (codec.saveFile io state disk).1.file = some (codec.toVecPretty state ++ "\n") ∧
      ((codec.saveFile io state disk).2 = .ok () ↔ io.succeeds .syncDirectory = true)) ∧
    (¬(state.validate = .ok () ∧ io.renames = true) → (codec.saveFile io state disk).1.file = disk.file ∧
      (codec.saveFile io state disk).2 ≠ .ok ()) := by
  unfold saveFile SaveIo.replace SaveIo.renames
  simp only [List.all_cons, List.all_nil, Bool.and_true, Bool.and_eq_true]
  cases state.validate with
  | error message => simp
  | ok result =>
      simp only [true_and]
      split_ifs <;> simp_all

/-- The three ways a call can go: the save succeeds, it fails after the rename, or it fails before. -/
theorem setMode_cases (hreads : codec.ReadsBack (world.memory.update call.id call.mode call.now)) (path : String) :
    call.io.succeeds .syncDirectory = true ∧ (codec.setMode call world).2 = .ok () ∧
        (codec.setMode call world).1.memory = world.memory.update call.id call.mode call.now ∧
        codec.load path (codec.setMode call world).1.disk.file = .ok (world.memory.update call.id call.mode call.now) ∨
      (world.memory.update call.id call.mode call.now).validate = .ok () ∧ call.io.renames = true ∧
        call.io.succeeds .syncDirectory = false ∧ (codec.setMode call world).2 ≠ .ok () ∧
        (codec.setMode call world).1.memory = world.memory ∧
        codec.load path (codec.setMode call world).1.disk.file = .ok (world.memory.update call.id call.mode call.now) ∨
      ¬((world.memory.update call.id call.mode call.now).validate = .ok () ∧ call.io.renames = true) ∧
        (codec.setMode call world).2 ≠ .ok () ∧ (codec.setMode call world).1.memory = world.memory ∧
        (codec.setMode call world).1.disk.file = world.disk.file := by
  obtain ⟨hrenamed, hearly⟩ :=
    codec.saveFile_spec call.io (world.memory.update call.id call.mode call.now) world.disk
  unfold setMode
  dsimp only
  rcases hsave : codec.saveFile call.io (world.memory.update call.id call.mode call.now) world.disk with ⟨disk, result⟩
  rw [hsave] at hrenamed hearly
  by_cases hreached : (world.memory.update call.id call.mode call.now).validate = .ok () ∧ call.io.renames = true
  · obtain ⟨hfile, hresult⟩ := hrenamed hreached
    have hload : codec.load path disk.file = .ok (world.memory.update call.id call.mode call.now) := by
      rw [show disk.file = _ from hfile, load, hreads]
      simp only [hreached.1]
    cases result with
    | ok value => exact .inl ⟨hresult.mp rfl, rfl, rfl, hload⟩
    | error error =>
        refine .inr (.inl ⟨hreached.1, hreached.2, ?_, fun h => (nomatch h), rfl, hload⟩)
        cases hsync : call.io.succeeds .syncDirectory with
        | false => rfl
        | true => cases hresult.mpr hsync
  · obtain ⟨hfile, hresult⟩ := hearly hreached
    cases result with
    | ok value => exact absurd rfl hresult
    | error error => exact .inr (.inr ⟨hreached, fun h => (nomatch h), rfl, hfile⟩)

/-- Where the file holds the map of the memory, a call is atomic unless it is torn, and then still does. -/
theorem atomicCall_iff (hreads : codec.ReadsBack (world.memory.update call.id call.mode call.now))
    (hagrees : codec.LoadsModes path world.disk world.memory.modes) :
    AtomicCall codec path world call ↔ ¬TornCall world call := by
  have hupdate := world.memory.modes_update call.id call.mode call.now
  rcases setMode_cases hreads path with ⟨hsynced, hok, hmemory, hload⟩ |
      ⟨hvalid, hrenamed, hunsynced, herror, hmemory, hload⟩ | ⟨hearly, herror, hmemory, hfile⟩
  · refine ⟨fun _ htorn => ?_, fun _ => ⟨fun _ => ⟨by rw [hmemory, hupdate], _, hload, hupdate⟩, ?_⟩⟩
    · have hunsynced := htorn.unsynced
      rw [hsynced] at hunsynced
      cases hunsynced
    · intro error herror
      rw [hok] at herror
      cases herror
  · constructor
    · intro hatomic htorn
      obtain ⟨error, hresult⟩ := exists_error herror
      obtain ⟨_, loaded, hloaded, hmodes⟩ := hatomic.error error hresult
      rw [hload] at hloaded
      cases hloaded
      exact htorn.changed (hupdate.symm.trans hmodes)
    · intro hnotTorn
      have hsame : updateModes call.id call.mode world.memory.modes = world.memory.modes := by
        by_contra hchanged
        exact hnotTorn ⟨hvalid, hrenamed, hunsynced, hchanged⟩
      exact ⟨fun hok => absurd hok herror, fun _ _ => ⟨by rw [hmemory], _, hload, hupdate.trans hsame⟩⟩
  · refine ⟨fun _ htorn => hearly ⟨htorn.valid, htorn.renamed⟩, fun _ => ⟨fun hok => absurd hok herror, fun _ _ => ?_⟩⟩
    obtain ⟨loaded, hloaded, hmodes⟩ := hagrees
    exact ⟨by rw [hmemory], loaded, by rw [hfile, hloaded], hmodes⟩

/-- After an atomic call the file holds the map of the memory. -/
theorem agrees_of_atomicCall (h : AtomicCall codec path world call) :
    codec.LoadsModes path (codec.setMode call world).1.disk (codec.setMode call world).1.memory.modes := by
  cases hresult : (codec.setMode call world).2 with
  | ok value =>
      obtain ⟨hmemory, hfile⟩ := h.ok hresult
      rw [hmemory]
      exact hfile
  | error error =>
      obtain ⟨hmemory, hfile⟩ := h.error error hresult
      rw [hmemory]
      exact hfile

/-- A file that loads holds a valid state. -/
theorem load_ok {contents : Option String} (h : codec.load path contents = .ok state) : state.validate = .ok () := by
  unfold load at h
  split at h
  · cases h
    rfl
  · split at h
    · cases h
    · split at h
      · cases h
      · rename_i hvalid
        cases h
        exact hvalid

/-- What is saved is valid. -/
theorem saveFile_ok (h : (codec.saveFile io state disk).2 = .ok ()) : state.validate = .ok () := by
  cases hvalid : state.validate with
  | ok value => rfl
  | error message =>
      rw [saveFile, hvalid] at h
      cases h

/-- A call that returns `Ok` sets the mode in the store, and a call that fails leaves the store as it was. -/
theorem setMode_refines {store : BackendStateStore} (h : world.Holds store) (call : SetModeCall) :
    ((codec.setMode call world).2 = .ok () ∧ (codec.setMode call world).1.Holds (store.setMode call.id call.mode)) ∨
      ((codec.setMode call world).2 ≠ .ok () ∧ (codec.setMode call world).1.Holds store) := by
  obtain ⟨hvalid, rfl⟩ := h
  have hsaved := @saveFile_ok codec call.io (world.memory.update call.id call.mode call.now) world.disk
  unfold setMode
  dsimp only
  rcases hsave : codec.saveFile call.io (world.memory.update call.id call.mode call.now) world.disk with ⟨disk, result⟩
  rw [hsave] at hsaved
  cases result with
  | ok value => exact .inl ⟨rfl, hsaved rfl, StateFile.store_update call.mode call.now hvalid (hsaved rfl)⟩
  | error error => exact .inr ⟨(fun hok => nomatch hok), hvalid, rfl⟩

/-- No call makes a file that does not load. -/
theorem setMode_loads (hreads : codec.ReadsBack (world.memory.update call.id call.mode call.now))
    (h : ∃ state, codec.load path world.disk.file = .ok state) :
    ∃ state, codec.load path (codec.setMode call world).1.disk.file = .ok state := by
  rcases setMode_cases hreads path with ⟨_, _, _, hload⟩ | ⟨_, _, _, _, _, hload⟩ | ⟨_, _, _, hfile⟩
  · exact ⟨_, hload⟩
  · exact ⟨_, hload⟩
  · rw [hfile]
    exact h

/-- In every run the file loads and the calls are atomic if none of them is torn; and then the file holds the map of the
memory. -/
theorem atomic_run {record : List (Step StateWorld SetModeCall)}
    (hrun : Run (stateSystem codec path) Free record world)
    (hreads : ∀ step ∈ record, codec.ReadsBack
      (step.before.memory.update step.action.id step.action.mode step.action.now)) :
    (∃ state, codec.load path world.disk.file = .ok state) ∧
      ((∀ step ∈ record, AtomicCall codec path step.before step.action) ↔
        ∀ step ∈ record, ¬TornCall step.before step.action) ∧
      ((∀ step ∈ record, AtomicCall codec path step.before step.action) →
        codec.LoadsModes path world.disk world.memory.modes) := by
  induction hrun with
  | @start world hinitial =>
      exact ⟨⟨_, hinitial⟩, ⟨fun _ _ h => absurd h List.not_mem_nil, fun _ _ h => absurd h List.not_mem_nil⟩,
        fun _ => ⟨_, hinitial, rfl⟩⟩
  | @step record world next call _ _ hnext ih =>
      obtain ⟨hloads, hiff, hagrees⟩ := ih fun step hmem => hreads step (List.mem_cons_of_mem _ hmem)
      have hread := hreads _ List.mem_cons_self
      obtain rfl : (codec.setMode call world).1 = next := Option.some.inj hnext
      refine ⟨setMode_loads hread hloads, ?_, ?_⟩
      · rw [List.forall_mem_cons, List.forall_mem_cons]
        constructor
        · rintro ⟨hcall, hall⟩
          exact ⟨(atomicCall_iff hread (hagrees hall)).mp hcall, hiff.mp hall⟩
        · rintro ⟨hcall, hall⟩
          exact ⟨(atomicCall_iff hread (hagrees (hiff.mpr hall))).mpr hcall, hiff.mpr hall⟩
      · intro hall
        exact agrees_of_atomicCall (hall _ List.mem_cons_self)

/-- The store that the control plane works on stands for the memory in every run, and as long as no call is torn for the
file as well: a restart finds the modes that the commands have set. -/
theorem run_holds {record : List (Step StateWorld SetModeCall)}
    (hrun : Run (stateSystem codec path) Free record world)
    (hreads : ∀ step ∈ record, codec.ReadsBack
      (step.before.memory.update step.action.id step.action.mode step.action.now)) :
    ∃ store, world.Holds store ∧
      ((∀ step ∈ record, ¬TornCall step.before step.action) → codec.LoadsModes path world.disk store.modes) := by
  have hholds : ∃ store, world.Holds store := by
    refine hrun.invariant (I := fun world => ∃ store, world.Holds store) ?_ ?_
    · intro world hinitial
      exact ⟨_, load_ok hinitial, rfl⟩
    · rintro world call next ⟨store, hstore⟩ _ hnext
      obtain rfl : (codec.setMode call world).1 = next := Option.some.inj hnext
      rcases codec.setMode_refines hstore call with ⟨_, hstore⟩ | ⟨_, hstore⟩
      · exact ⟨_, hstore⟩
      · exact ⟨_, hstore⟩
  obtain ⟨store, hvalid, rfl⟩ := hholds
  obtain ⟨_, hiff, hagrees⟩ := atomic_run hrun hreads
  exact ⟨_, ⟨hvalid, rfl⟩, fun huntorn => hagrees (hiff.mpr huntorn)⟩

end StateCodec

/-- Whatever fails, the file always loads; and all calls of a run are atomic exactly if none of them is torn. -/
theorem set_mode_atomic_iff (codec : StateCodec) (path : String) (record : List (Step StateWorld SetModeCall))
    (world : StateWorld) (hrun : Run (stateSystem codec path) Free record world)
    (hreads : ∀ step ∈ record, codec.ReadsBack
      (step.before.memory.update step.action.id step.action.mode step.action.now)) :
    (∃ state, codec.load path world.disk.file = .ok state) ∧
      ((∀ step ∈ record, AtomicCall codec path step.before step.action) ↔
        ∀ step ∈ record, ¬TornCall step.before step.action) := by
  obtain ⟨hloads, hiff, _⟩ := StateCodec.atomic_run hrun hreads
  exact ⟨hloads, hiff⟩

/-- A state with at most one entry, and its text. -/
def fencedState : StateFile := StateFile.default.insert "a" ⟨.draining, 5⟩

def fencedText : String :=
  "\x7b\n  \"schema_version\": 1,\n  \"backends\": \x7b\n    \"a\": \x7b\n      \"mode\": \"draining\",\n" ++
    "      \"changed_at_unix_ms\": 5\n    \x7d\n  \x7d\n\x7d"

def emptyText : String := "\x7b\n  \"schema_version\": 1,\n  \"backends\": \x7b\x7d\n\x7d"

def fencedCodec : StateCodec where
  toVecPretty state := if state = fencedState then fencedText else emptyText
  fromStr text :=
    if text = fencedText ++ "\n" then .ok fencedState
    else if text = emptyText ++ "\n" then .ok .default
    else .error "expected value at line 1 column 1"

def unfencedWorld : StateWorld := ⟨.default, ⟨none, none⟩⟩

/-- A call that drains the backend; `synced` is whether the directory can be synced in the end. -/
def drainCall (synced : Bool) : SetModeCall where
  id := "a"
  mode := .draining
  now := 5
  io := ⟨fun step => step != .syncDirectory || synced, "", true⟩

/-- The directory cannot be opened for the sync: the call fails, the memory has no fence, and the file has one. -/
theorem set_mode_torn_by_directory_sync :
    ∃ record world, Run (stateSystem fencedCodec "state.json") Free record world ∧
      (fencedCodec.setMode (drainCall false) unfencedWorld).2 = .error (.io .syncDirectory) ∧
      world = (fencedCodec.setMode (drainCall false) unfencedWorld).1 ∧ world.memory.modes "a" = none ∧
      fencedCodec.load "state.json" world.disk.file = .ok fencedState ∧ fencedState.modes "a" = some .draining ∧
      ¬AtomicCall fencedCodec "state.json" unfencedWorld (drainCall false) := by
  have hrun : Run (stateSystem fencedCodec "state.json") Free [] unfencedWorld := .start rfl
  have hload : fencedCodec.load "state.json" (fencedCodec.setMode (drainCall false) unfencedWorld).1.disk.file =
      .ok fencedState := by decide +kernel
  have herror : (fencedCodec.setMode (drainCall false) unfencedWorld).2 = .error (.io .syncDirectory) := by
    decide +kernel
  refine ⟨_, _, .step (drainCall false) hrun trivial rfl, herror, rfl, by decide +kernel, hload, by decide +kernel, ?_⟩
  intro hatomic
  obtain ⟨_, loaded, hloaded, hmodes⟩ := hatomic.error _ herror
  rw [hload] at hloaded
  cases hloaded
  have hentry := congrFun hmodes "a"
  revert hentry
  decide +kernel

theorem set_mode_atomic_iff_synced :
    AtomicCall fencedCodec "state.json" unfencedWorld (drainCall true) := by
  have hrun : Run (stateSystem fencedCodec "state.json") Free [] unfencedWorld := .start rfl
  have hreads : fencedCodec.ReadsBack fencedState := by
    unfold StateCodec.ReadsBack
    decide +kernel
  have hstep := set_mode_atomic_iff fencedCodec "state.json" _ _ (.step (drainCall true) hrun trivial rfl)
    (List.forall_mem_cons.mpr ⟨hreads, fun _ hmem => absurd hmem List.not_mem_nil⟩)
  have hnotTorn : ¬TornCall unfencedWorld (drainCall true) := fun htorn => by cases htorn.unsynced
  exact hstep.2.mpr (List.forall_mem_cons.mpr ⟨hnotTorn, fun _ hmem => absurd hmem List.not_mem_nil⟩) _
    List.mem_cons_self

end MistralrsProxy
