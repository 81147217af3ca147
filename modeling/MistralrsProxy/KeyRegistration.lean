import MistralrsProxy.TransitionSystem
import MistralrsProxy.Keys
import Mathlib.Data.List.Nodup
import Mathlib.Logic.Function.Basic

/-! Registrations on clones of one file-backed key store. A call takes the gate, spawns a blocking closure
that loads, changes and saves the key file, and publishes the saved index when the closure is done. The
closure is detached: when the call is dropped its guard is released and the closure runs on. So the gate alone
does not keep one closure from loading the file between the load and the save of another. -/

open Transition

namespace MistralrsProxy

/-- Why the key file could not be used. -/
inductive Unavailable where
  | file
  | invalid (error : KeyFileError)
  | index (error : KeyIndexError)
  | randomness
  deriving DecidableEq, Repr

inductive KeyCreationError where
  | invalidName (error : NameError)
  | duplicateName
  | limitReached
  | unavailable (cause : Unavailable)
  deriving DecidableEq, Repr

/-- What the closure captures. -/
structure KeyRequest where
  name : String
  maxKeys : Option Nat
  deriving DecidableEq, Repr

/-- The closure between its load and its save: the limit and the name are checked on the file as loaded. -/
def KeyRequest.prepare (digest : String → Digest) (segments : Option KeySegments) (nowUnixMs : Nat)
    (file : KeyFile) (request : KeyRequest) : Except KeyCreationError (KeyFile × KeyIndex × String) :=
  if request.maxKeys.any fun limit => decide (limit ≤ file.keys.length) then .error .limitReached
  else if file.keys.any fun key => key.name == request.name then .error .duplicateName
  else
    match segments with
    | none => .error (.unavailable .randomness)
    | some segments =>
        let (record, plaintext) := KeyRecord.generate digest request.name false segments nowUnixMs
        match KeyIndex.fromRecords (file.keys ++ [record]) with
        | .error error => .error (.unavailable (.index error))
        | .ok index => .ok ({ file with keys := file.keys ++ [record] }, index, plaintext)

/-- The future of one call. -/
inductive Call where
  | unstarted
  | waiting (request : KeyRequest)
  | running
  | returned (result : Except KeyCreationError String)
  | dropped
  deriving DecidableEq

/-- The blocking closure of one call. -/
inductive Closure where
  | absent
  | spawned (request : KeyRequest)
  | loaded (request : KeyRequest) (file : KeyFile)
  | saving (file : KeyFile) (index : KeyIndex) (plaintext : String)
  | finished (result : Except KeyCreationError (KeyIndex × String))
  deriving DecidableEq

/-- The closure is on its way. -/
def Closure.Unfinished : Closure → Prop
  | .absent => False
  | .finished _ => False
  | _ => True

instance : DecidablePred Closure.Unfinished
  | .absent => isFalse id
  | .finished _ => isFalse id
  | .spawned _ => isTrue trivial
  | .loaded _ _ => isTrue trivial
  | .saving _ _ _ => isTrue trivial

/-- The key file, the published index, the holder of the gate, and every call with its closure. -/
structure RegistrationWorld where
  file : KeyFile
  index : KeyIndex
  gate : Option Nat
  calls : Nat → Call
  closures : Nat → Closure

inductive RegistrationOp where
  | start (id : Nat) (name : String) (maxKeys : Option Nat)
  | spawn (id : Nat)
  | load (id : Nat) (ok : Bool)
  | prepare (id : Nat) (segments : Option KeySegments) (nowUnixMs : Nat)
  | save (id : Nat) (ok : Bool)
  | resume (id : Nat)
  | drop (id : Nat)

namespace RegistrationWorld

def setCall (id : Nat) (call : Call) (world : RegistrationWorld) : RegistrationWorld :=
  { world with calls := Function.update world.calls id call }

def setClosure (id : Nat) (closure : Closure) (world : RegistrationWorld) : RegistrationWorld :=
  { world with closures := Function.update world.closures id closure }

theorem calls_setCall {world : RegistrationWorld} {id other : Nat} {call found : Call}
    (h : (world.setCall id call).calls other = found) :
    other = id ∧ call = found ∨ other ≠ id ∧ world.calls other = found := by
  by_cases heq : other = id
  · subst heq
    exact .inl ⟨rfl, by simpa [setCall] using h⟩
  · exact .inr ⟨heq, by simpa [setCall, heq] using h⟩

theorem closures_setClosure {world : RegistrationWorld} {id other : Nat} {closure found : Closure}
    (h : (world.setClosure id closure).closures other = found) :
    other = id ∧ closure = found ∨ other ≠ id ∧ world.closures other = found := by
  by_cases heq : other = id
  · subst heq
    exact .inl ⟨rfl, by simpa [setClosure] using h⟩
  · exact .inr ⟨heq, by simpa [setClosure, heq] using h⟩

/-- `create_non_admin`, cut at its awaits and at the file accesses of its closure. -/
def step (digest : String → Digest) (world : RegistrationWorld) : RegistrationOp → Option RegistrationWorld
  | .start id name maxKeys =>
      match world.calls id with
      | .unstarted =>
          match normalizeKeyName name with
          | .error error => some (world.setCall id (.returned (.error (.invalidName error))))
          | .ok name => some (world.setCall id (.waiting ⟨name, maxKeys⟩))
      | _ => none
  | .spawn id =>
      match world.calls id, world.gate with
      -- no await between taking the gate and spawning the closure
      | .waiting request, none =>
          some { (world.setCall id .running).setClosure id (.spawned request) with gate := some id }
      | _, _ => none
  | .load id ok =>
      match world.closures id with
      | .spawned request =>
          if ok then
            match world.file.validate with
            | .error error => some (world.setClosure id (.finished (.error (.unavailable (.invalid error)))))
            | .ok () => some (world.setClosure id (.loaded request world.file))
          else some (world.setClosure id (.finished (.error (.unavailable .file))))
      | _ => none
  | .prepare id segments nowUnixMs =>
      match world.closures id with
      | .loaded request file =>
          match request.prepare digest segments nowUnixMs file with
          | .error error => some (world.setClosure id (.finished (.error error)))
          | .ok (file, index, plaintext) => some (world.setClosure id (.saving file index plaintext))
      | _ => none
  | .save id ok =>
      match world.closures id with
      | .saving file index plaintext =>
          match file.validate with
          | .error error => some (world.setClosure id (.finished (.error (.unavailable (.invalid error)))))
          | .ok () =>
              if ok then some { world.setClosure id (.finished (.ok (index, plaintext))) with file := file }
              else some (world.setClosure id (.finished (.error (.unavailable .file))))
      | _ => none
  | .resume id =>
      match world.calls id, world.closures id with
      | .running, .finished (.ok (index, plaintext)) =>
          some { world.setCall id (.returned (.ok plaintext)) with index := index, gate := none }
      | .running, .finished (.error error) =>
          some { world.setCall id (.returned (.error error)) with gate := none }
      | _, _ => none
  | .drop id =>
      match world.calls id with
      | .waiting _ => some (world.setCall id .dropped)
      | .running => some { world.setCall id .dropped with gate := none }
      | _ => none

end RegistrationWorld

/-- A store just loaded from a valid key file. -/
def registrationSystem (digest : String → Digest) (start : KeyFile) :
    System RegistrationWorld RegistrationOp where
  initial world := start.validate = .ok () ∧ KeyIndex.fromRecords start.keys = .ok world.index ∧
    world.file = start ∧ world.gate = none ∧ world.calls = (fun _ => .unstarted) ∧
    world.closures = fun _ => .absent
  step := RegistrationWorld.step digest

/-- The closure is between its load and its save. -/
def Closure.Working : Closure → Prop
  | .loaded _ _ | .saving _ _ _ => True
  | .absent | .spawned _ | .finished _ => False

instance : DecidablePred Closure.Working
  | .absent => isFalse id
  | .finished _ => isFalse id
  | .spawned _ => isFalse id
  | .loaded _ _ => isTrue trivial
  | .saving _ _ _ => isTrue trivial

/-- No closure loads the file while another one is between its load and its save. -/
def LoadsAlone (world : RegistrationWorld) : RegistrationOp → Prop
  | .load _ true => ∀ id, ¬(world.closures id).Working
  | _ => True

namespace RegistrationWorld

/-- What one step can do. -/
inductive Effect (digest : String → Digest) (world : RegistrationWorld) (op : RegistrationOp) :
    RegistrationWorld → Prop
  | rejected (id : Nat) (error : KeyCreationError) (hcall : world.calls id = .unstarted) :
      Effect digest world op (world.setCall id (.returned (.error error)))
  | queued (id : Nat) (name : String) (request : KeyRequest) (hop : op = .start id name request.maxKeys)
      (hcall : world.calls id = .unstarted) : Effect digest world op (world.setCall id (.waiting request))
  | spawned (id : Nat) (request : KeyRequest) (hop : op = .spawn id)
      (hcall : world.calls id = .waiting request) (hgate : world.gate = none) :
      Effect digest world op
        { (world.setCall id .running).setClosure id (.spawned request) with gate := some id }
  | loaded (id : Nat) (request : KeyRequest) (hop : op = .load id true)
      (hclosure : world.closures id = .spawned request) :
      Effect digest world op (world.setClosure id (.loaded request world.file))
  | prepared (id : Nat) (request : KeyRequest) (loaded file : KeyFile) (index : KeyIndex) (plaintext : String)
      (segments : Option KeySegments) (nowUnixMs : Nat) (hclosure : world.closures id = .loaded request loaded)
      (hprepare : request.prepare digest segments nowUnixMs loaded = .ok (file, index, plaintext)) :
      Effect digest world op (world.setClosure id (.saving file index plaintext))
  | failed (id : Nat) (error : KeyCreationError) (hclosure : (world.closures id).Unfinished) :
      Effect digest world op (world.setClosure id (.finished (.error error)))
  | saved (id : Nat) (file : KeyFile) (index : KeyIndex) (plaintext : String)
      (hclosure : world.closures id = .saving file index plaintext) :
      Effect digest world op { world.setClosure id (.finished (.ok (index, plaintext))) with file := file }
  | published (id : Nat) (index : KeyIndex) (plaintext : String) (hcall : world.calls id = .running)
      (hclosure : world.closures id = .finished (.ok (index, plaintext))) :
      Effect digest world op
        { world.setCall id (.returned (.ok plaintext)) with index := index, gate := none }
  | reported (id : Nat) (error : KeyCreationError) (hcall : world.calls id = .running)
      (hclosure : world.closures id = .finished (.error error)) :
      Effect digest world op { world.setCall id (.returned (.error error)) with gate := none }
  | dropped (id : Nat) (request : KeyRequest) (hcall : world.calls id = .waiting request) :
      Effect digest world op (world.setCall id .dropped)
  | orphaned (id : Nat) (hcall : world.calls id = .running) :
      Effect digest world op { world.setCall id .dropped with gate := none }

variable {digest : String → Digest} {world next : RegistrationWorld} {op : RegistrationOp}

theorem step_effect (h : world.step digest op = some next) : Effect digest world op next := by
  cases op with
  | start id name maxKeys =>
      simp only [step] at h
      split at h
      · rename_i hcall
        split at h
        · cases h
          exact .rejected id _ hcall
        · cases h
          exact .queued id name _ rfl hcall
      · cases h
  | spawn id =>
      simp only [step] at h
      split at h
      · rename_i request hcall hgate
        cases h
        exact .spawned id request rfl hcall hgate
      · cases h
  | load id ok =>
      simp only [step] at h
      split at h
      · rename_i request hclosure
        have hunfinished : (world.closures id).Unfinished := by rw [hclosure]; trivial
        split at h
        · rename_i hok
          split at h
          · cases h
            exact .failed id _ hunfinished
          · cases h
            exact .loaded id request (by rw [hok]) hclosure
        · cases h
          exact .failed id _ hunfinished
      · cases h
  | prepare id segments nowUnixMs =>
      simp only [step] at h
      split at h
      · rename_i request file hclosure
        split at h
        · cases h
          exact .failed id _ (by rw [hclosure]; trivial)
        · rename_i hprepare
          cases h
          exact .prepared id request file _ _ _ segments nowUnixMs hclosure hprepare
      · cases h
  | save id ok =>
      simp only [step] at h
      split at h
      · rename_i file index plaintext hclosure
        have hunfinished : (world.closures id).Unfinished := by rw [hclosure]; trivial
        split at h
        · cases h
          exact .failed id _ hunfinished
        · split at h
          · cases h
            exact .saved id file index plaintext hclosure
          · cases h
            exact .failed id _ hunfinished
      · cases h
  | resume id =>
      simp only [step] at h
      split at h
      · rename_i index plaintext hcall hclosure
        cases h
        exact .published id index plaintext hcall hclosure
      · rename_i error hcall hclosure
        cases h
        exact .reported id error hcall hclosure
      · cases h
  | drop id =>
      simp only [step] at h
      split at h
      · rename_i request hcall
        cases h
        exact .dropped id request hcall
      · rename_i hcall
        cases h
        exact .orphaned id hcall
      · cases h

/-- The records hold the given key. -/
def Issued (digest : String → Digest) (records : List KeyRecord) (plaintext : String) : Prop :=
  ∃ record ∈ records, record.keySha256 = hexEncode (digest plaintext).val

theorem Issued.mono {records more : List KeyRecord} {plaintext : String} (h : Issued digest records plaintext)
    (hsubset : records ⊆ more) : Issued digest more plaintext := by
  obtain ⟨record, hmem, hkey⟩ := h
  exact ⟨record, hsubset hmem, hkey⟩

/-- A prepared file is the loaded one and the record of the new key. -/
theorem prepare_ok {request : KeyRequest} {segments : Option KeySegments} {nowUnixMs : Nat}
    {loaded file : KeyFile} {index : KeyIndex} {plaintext : String}
    (h : request.prepare digest segments nowUnixMs loaded = .ok (file, index, plaintext)) :
    ∃ record, file.keys = loaded.keys ++ [record] ∧
      record.keySha256 = hexEncode (digest plaintext).val ∧ KeyIndex.fromRecords file.keys = .ok index ∧
      record.name ∉ loaded.keys.map KeyRecord.name ∧
      ∀ limit, request.maxKeys = some limit → loaded.keys.length < limit := by
  unfold KeyRequest.prepare at h
  split at h
  · cases h
  · rename_i hlimit
    split at h
    · cases h
    · rename_i hname
      split at h
      · cases h
      · rename_i segments
        simp only [KeyRecord.generate] at h
        split at h
        · cases h
        · rename_i hindex
          cases h
          refine ⟨_, rfl, rfl, hindex, ?_, ?_⟩
          · simpa using hname
          · intro limit hmax
            simpa [hmax] using hlimit

/-- An index of records of the file in which every key handed out has its record. -/
def Publishable (digest : String → Digest) (world : RegistrationWorld) (index : KeyIndex)
    (records : List KeyRecord) : Prop :=
  records ⊆ world.file.keys ∧ KeyIndex.fromRecords records = .ok index ∧
    ∀ id plaintext, world.calls id = .returned (.ok plaintext) → Issued digest records plaintext

/-- What the exclusion of closures gives: one closure at a time works on the file, as it is, and the published index
and the one that the running call is about to publish hold every key handed out. -/
structure Serialized (digest : String → Digest) (world : RegistrationWorld) : Prop where
  holder : ∀ id, world.gate = some id ↔ world.calls id = .running
  owner : ∀ id, (world.closures id).Unfinished → world.calls id = .running ∨ world.calls id = .dropped
  alone : ∀ id other, (world.closures id).Working → (world.closures other).Working → other = id
  loaded : ∀ id request file, world.closures id = .loaded request file → file = world.file
  saving : ∀ id file index plaintext, world.closures id = .saving file index plaintext →
    ∃ record, file.keys = world.file.keys ++ [record] ∧
      record.keySha256 = hexEncode (digest plaintext).val ∧ KeyIndex.fromRecords file.keys = .ok index
  saved : ∀ id index plaintext, world.calls id = .running →
    world.closures id = .finished (.ok (index, plaintext)) →
    ∃ records, Publishable digest world index records ∧ Issued digest records plaintext
  published : ∃ records, Publishable digest world world.index records

theorem serialized_setCall {id : Nat} {call : Call} (h : Serialized digest world)
    (hbefore : world.calls id ≠ .running ∧ ¬(world.closures id).Unfinished) (hafter : call ≠ .running)
    (hreturned : ∀ plaintext, call ≠ .returned (.ok plaintext)) : Serialized digest (world.setCall id call) := by
  have hcalls : ∀ other, (world.setCall id call).calls other = .running ↔ world.calls other = .running := by
    intro other
    by_cases heq : other = id
    · subst heq
      simp [setCall, hafter, hbefore.1]
    · simp [setCall, heq]
  have hpublishable : ∀ {index records}, Publishable digest world index records →
      Publishable digest (world.setCall id call) index records := by
    rintro index records ⟨hsubset, hindex, hissued⟩
    refine ⟨hsubset, hindex, fun other plaintext hother => ?_⟩
    rcases calls_setCall hother with ⟨rfl, hfound⟩ | ⟨_, hfound⟩
    · exact absurd hfound (hreturned plaintext)
    · exact hissued other plaintext hfound
  refine ⟨?_, ?_, h.alone, h.loaded, h.saving, ?_, ?_⟩
  · intro other
    rw [hcalls]
    exact h.holder other
  · intro other hother
    have hne : other ≠ id := by
      rintro rfl
      exact hbefore.2 hother
    simpa [setCall, hne] using h.owner other hother
  · intro other index plaintext hother hclosure
    obtain ⟨records, hrecords, hkey⟩ := h.saved other index plaintext ((hcalls other).mp hother) hclosure
    exact ⟨records, hpublishable hrecords, hkey⟩
  · obtain ⟨records, hrecords⟩ := h.published
    exact ⟨records, hpublishable hrecords⟩

/-- The running call gives up the gate, with or without a new index. -/
theorem serialized_release {id : Nat} {call : Call} {index : KeyIndex} {records : List KeyRecord}
    (h : Serialized digest world) (hcall : world.calls id = .running) (hafter : call ≠ .running)
    (howner : (world.closures id).Unfinished → call = .dropped) (hrecords : Publishable digest world index records)
    (hreturned : ∀ plaintext, call = .returned (.ok plaintext) → Issued digest records plaintext) :
    Serialized digest { world.setCall id call with index := index, gate := none } := by
  have hidle : ∀ other, (world.setCall id call).calls other ≠ .running := by
    intro other hother
    rcases calls_setCall hother with ⟨rfl, hfound⟩ | ⟨hne, hfound⟩
    · exact hafter hfound
    · have hgate := (h.holder id).mpr hcall
      rw [(h.holder other).mpr hfound, Option.some.injEq] at hgate
      exact hne hgate
  refine ⟨?_, ?_, h.alone, h.loaded, h.saving, ?_, records, hrecords.1, hrecords.2.1, ?_⟩
  · intro other
    simpa using hidle other
  · intro other hother
    by_cases heq : other = id
    · subst heq
      exact Or.inr (by simpa [setCall] using howner hother)
    · simpa [setCall, heq] using h.owner other hother
  · intro other _ _ hother
    exact absurd hother (hidle other)
  · intro other plaintext hother
    rcases calls_setCall hother with ⟨rfl, hfound⟩ | ⟨_, hfound⟩
    · exact hreturned plaintext hfound
    · exact hrecords.2.2 other plaintext hfound

/-- A closure moves on without touching the file. -/
theorem serialized_setClosure {id : Nat} {closure : Closure} (h : Serialized digest world)
    (hbefore : (world.closures id).Unfinished)
    (halone : closure.Working → ∀ other, (world.closures other).Working → other = id)
    (hloaded : ∀ request file, closure = .loaded request file → file = world.file)
    (hsaving : ∀ file index plaintext, closure = .saving file index plaintext →
      ∃ record, file.keys = world.file.keys ++ [record] ∧
        record.keySha256 = hexEncode (digest plaintext).val ∧ KeyIndex.fromRecords file.keys = .ok index)
    (hsaved : ∀ index plaintext, closure ≠ .finished (.ok (index, plaintext))) :
    Serialized digest (world.setClosure id closure) := by
  refine ⟨h.holder, ?_, ?_, ?_, ?_, ?_, h.published⟩
  · intro other hunfinished
    apply h.owner other
    by_cases heq : other = id
    · subst heq
      exact hbefore
    · simpa [setClosure, heq] using hunfinished
  · intro first other hfirst hsecond
    by_cases heq : first = id
    · subst heq
      by_cases hother : other = first
      · exact hother
      · exact halone (by simpa [setClosure] using hfirst) other (by simpa [setClosure, hother] using hsecond)
    · have hworking : (world.closures first).Working := by simpa [setClosure, heq] using hfirst
      by_cases hother : other = id
      · subst hother
        exact absurd (halone (by simpa [setClosure] using hsecond) first hworking) heq
      · exact h.alone first other hworking (by simpa [setClosure, hother] using hsecond)
  · intro other request file hclosure
    rcases closures_setClosure hclosure with ⟨rfl, hfound⟩ | ⟨_, hfound⟩
    · exact hloaded request file hfound
    · exact h.loaded other request file hfound
  · intro other file index plaintext hclosure
    rcases closures_setClosure hclosure with ⟨rfl, hfound⟩ | ⟨_, hfound⟩
    · exact hsaving file index plaintext hfound
    · exact h.saving other file index plaintext hfound
  · intro other index plaintext hcall hclosure
    rcases closures_setClosure hclosure with ⟨rfl, hfound⟩ | ⟨_, hfound⟩
    · exact absurd hfound (hsaved index plaintext)
    · exact h.saved other index plaintext hcall hfound

theorem serialized_spawn {id : Nat} {request : KeyRequest} (h : Serialized digest world)
    (hcall : world.calls id = .waiting request) (hgate : world.gate = none) :
    Serialized digest { (world.setCall id .running).setClosure id (.spawned request) with gate := some id } := by
  have hidle : ∀ other, world.calls other ≠ .running := by
    intro other hother
    rw [← h.holder, hgate] at hother
    cases hother
  have hworking : ∀ other, ((world.setClosure id (.spawned request)).closures other).Working →
      (world.closures other).Working := by
    intro other hother
    by_cases heq : other = id
    · subst heq
      simp [setClosure, Closure.Working] at hother
    · simpa [setClosure, heq] using hother
  refine ⟨?_, ?_, ?_, ?_, ?_, ?_, ?_⟩
  · intro other
    by_cases heq : other = id
    · subst heq
      simp [setCall, setClosure]
    · simpa [setCall, setClosure, heq, Ne.symm heq] using hidle other
  · intro other hother
    by_cases heq : other = id
    · subst heq
      exact Or.inl (by simp [setCall, setClosure])
    · simpa [setCall, setClosure, heq] using h.owner other (by simpa [setCall, setClosure, heq] using hother)
  · intro first other hfirst hsecond
    exact h.alone first other (hworking first hfirst) (hworking other hsecond)
  · intro other otherRequest file hclosure
    rcases closures_setClosure hclosure with ⟨_, hfound⟩ | ⟨_, hfound⟩
    · cases hfound
    · exact h.loaded other otherRequest file hfound
  · intro other file index plaintext hclosure
    rcases closures_setClosure hclosure with ⟨_, hfound⟩ | ⟨_, hfound⟩
    · cases hfound
    · exact h.saving other file index plaintext hfound
  · intro other index plaintext hother hclosure
    rcases closures_setClosure hclosure with ⟨_, hfound⟩ | ⟨hne, _⟩
    · cases hfound
    · exact absurd ((calls_setCall hother).resolve_left fun hsame => hne hsame.1).2 (hidle other)
  · obtain ⟨records, hsubset, hindex, hissued⟩ := h.published
    refine ⟨records, hsubset, hindex, fun other plaintext hother => ?_⟩
    rcases calls_setCall hother with ⟨_, hfound⟩ | ⟨_, hfound⟩
    · cases hfound
    · exact hissued other plaintext hfound

theorem serialized_save {id : Nat} {file : KeyFile} {index : KeyIndex} {plaintext : String}
    (h : Serialized digest world) (hclosure : world.closures id = .saving file index plaintext) :
    Serialized digest { world.setClosure id (.finished (.ok (index, plaintext))) with file := file } := by
  have hworking : (world.closures id).Working := by rw [hclosure]; trivial
  obtain ⟨record, hkeys, hrecord, hindex⟩ := h.saving id file index plaintext hclosure
  have hgrows : world.file.keys ⊆ file.keys := by
    rw [hkeys]
    exact List.subset_append_left _ _
  have hnew : Issued digest file.keys plaintext :=
    ⟨record, by rw [hkeys]; exact List.mem_append_right _ (List.mem_singleton_self _), hrecord⟩
  -- the closure that saves was the only one at work
  have hquiet : ∀ other, ¬((world.setClosure id (.finished (.ok (index, plaintext)))).closures other).Working := by
    intro other hother
    by_cases heq : other = id
    · subst heq
      simp [setClosure, Closure.Working] at hother
    · exact heq (h.alone id other hworking (by simpa [setClosure, heq] using hother))
  refine ⟨h.holder, ?_, ?_, ?_, ?_, ?_, ?_⟩
  · intro other hother
    by_cases heq : other = id
    · subst heq
      simp [setClosure, Closure.Unfinished] at hother
    · exact h.owner other (by simpa [setClosure, heq] using hother)
  · intro first _ hfirst _
    exact absurd hfirst (hquiet first)
  · intro other request loaded hloaded
    refine absurd ?_ (hquiet other)
    simp only at hloaded
    rw [hloaded]
    trivial
  · intro other saved savedIndex savedText hsaving
    refine absurd ?_ (hquiet other)
    simp only at hsaving
    rw [hsaving]
    trivial
  · intro other otherIndex otherText hcall hfinished
    rcases closures_setClosure hfinished with ⟨rfl, hfound⟩ | ⟨_, hfound⟩
    · cases hfound
      refine ⟨file.keys, ⟨List.Subset.refl _, hindex, fun returned text hreturned => ?_⟩, hnew⟩
      obtain ⟨records, hsubset, -, hissued⟩ := h.published
      exact (hissued returned text hreturned).mono (List.Subset.trans hsubset hgrows)
    · obtain ⟨records, ⟨hsubset, hrest⟩, hkey⟩ :=
        h.saved other otherIndex otherText hcall hfound
      exact ⟨records, ⟨List.Subset.trans hsubset hgrows, hrest⟩, hkey⟩
  · obtain ⟨records, hsubset, hrest⟩ := h.published
    exact ⟨records, List.Subset.trans hsubset hgrows, hrest⟩

theorem serialized_step (h : Serialized digest world) (hguard : LoadsAlone world op)
    (hstep : world.step digest op = some next) : Serialized digest next := by
  have hidle : ∀ id, world.calls id ≠ .running → world.calls id ≠ .dropped →
      world.calls id ≠ .running ∧ ¬(world.closures id).Unfinished := by
    intro id hrunning hdropped
    refine ⟨hrunning, fun hunfinished => ?_⟩
    rcases h.owner id hunfinished with hcall | hcall
    · exact hrunning hcall
    · exact hdropped hcall
  cases step_effect hstep with
  | rejected id error hcall =>
      exact serialized_setCall h (hidle id (by simp [hcall]) (by simp [hcall])) (by simp) (by simp)
  | queued id name request hop hcall =>
      exact serialized_setCall h (hidle id (by simp [hcall]) (by simp [hcall])) (by simp) (by simp)
  | spawned id request hop hcall hgate => exact serialized_spawn h hcall hgate
  | loaded id request hop hclosure =>
      subst hop
      refine serialized_setClosure h (by rw [hclosure]; trivial) ?_ ?_ (by simp) (by simp)
      · intro _ other hother
        exact absurd hother (hguard other)
      · intro _ _ heq
        cases heq
        rfl
  | prepared id request loaded file index plaintext segments nowUnixMs hclosure hprepare =>
      refine serialized_setClosure h (by rw [hclosure]; trivial) ?_ (by simp) ?_ (by simp)
      · intro _ other hother
        exact h.alone id other (by rw [hclosure]; trivial) hother
      · intro _ _ _ heq
        cases heq
        obtain ⟨record, hkeys, hrecord, hindex, -⟩ := prepare_ok hprepare
        rw [h.loaded id request loaded hclosure] at hkeys
        exact ⟨record, hkeys, hrecord, hindex⟩
  | failed id error hclosure =>
      exact serialized_setClosure h hclosure (fun hworking => hworking.elim) (by simp) (by simp) (by simp)
  | saved id file index plaintext hclosure => exact serialized_save h hclosure
  | published id index plaintext hcall hclosure =>
      obtain ⟨records, hrecords, hissued⟩ := h.saved id index plaintext hcall hclosure
      refine serialized_release h hcall (by simp) ?_ hrecords ?_
      · intro hunfinished
        rw [hclosure] at hunfinished
        exact hunfinished.elim
      · intro _ heq
        cases heq
        exact hissued
  | reported id error hcall hclosure =>
      obtain ⟨records, hrecords⟩ := h.published
      refine serialized_release h hcall (by simp) ?_ hrecords (by simp)
      intro hunfinished
      rw [hclosure] at hunfinished
      exact hunfinished.elim
  | dropped id request hcall =>
      exact serialized_setCall h (hidle id (by simp [hcall]) (by simp [hcall])) (by simp) (by simp)
  | orphaned id hcall =>
      obtain ⟨records, hrecords⟩ := h.published
      exact serialized_release h hcall (by simp) (fun _ => rfl) hrecords (by simp)

/-- A property of key lists that every file in sight has, as long as the requests satisfy a condition. -/
structure Throughout (P : List KeyRecord → Prop) (Q : KeyRequest → Prop) (world : RegistrationWorld) : Prop where
  file : P world.file.keys
  waiting : ∀ id request, world.calls id = .waiting request → Q request
  spawned : ∀ id request, world.closures id = .spawned request → Q request
  loaded : ∀ id request file, world.closures id = .loaded request file → Q request ∧ P file.keys
  saving : ∀ id file index plaintext, world.closures id = .saving file index plaintext → P file.keys

section Throughout

variable {P : List KeyRecord → Prop} {Q : KeyRequest → Prop}

theorem throughout_setClosure {id : Nat} {closure : Closure} (h : Throughout P Q world)
    (hspawned : ∀ request, closure = .spawned request → Q request)
    (hloaded : ∀ request file, closure = .loaded request file → Q request ∧ P file.keys)
    (hsaving : ∀ file index plaintext, closure = .saving file index plaintext → P file.keys) :
    Throughout P Q (world.setClosure id closure) := by
  refine ⟨h.file, h.waiting, ?_, ?_, ?_⟩
  · intro other request hother
    rcases closures_setClosure hother with ⟨rfl, hfound⟩ | ⟨_, hfound⟩
    · exact hspawned request hfound
    · exact h.spawned other request hfound
  · intro other request file hother
    rcases closures_setClosure hother with ⟨rfl, hfound⟩ | ⟨_, hfound⟩
    · exact hloaded request file hfound
    · exact h.loaded other request file hfound
  · intro other file index plaintext hother
    rcases closures_setClosure hother with ⟨rfl, hfound⟩ | ⟨_, hfound⟩
    · exact hsaving file index plaintext hfound
    · exact h.saving other file index plaintext hfound

theorem throughout_setCall {id : Nat} {call : Call} (h : Throughout P Q world)
    (hwaiting : ∀ request, call = .waiting request → Q request) : Throughout P Q (world.setCall id call) := by
  refine ⟨h.file, ?_, h.spawned, h.loaded, h.saving⟩
  intro other request hother
  rcases calls_setCall hother with ⟨rfl, hfound⟩ | ⟨_, hfound⟩
  · exact hwaiting request hfound
  · exact h.waiting other request hfound

/-- Neither the gate nor the index matters for the files in sight. -/
theorem throughout_publish (h : Throughout P Q world) (index : KeyIndex) (gate : Option Nat) :
    Throughout P Q { world with index := index, gate := gate } := ⟨h.file, h.waiting, h.spawned, h.loaded, h.saving⟩

theorem throughout_step (h : Throughout P Q world)
    (hprepare : ∀ request segments nowUnixMs (loaded file : KeyFile) index plaintext, Q request → P loaded.keys →
      request.prepare digest segments nowUnixMs loaded = .ok (file, index, plaintext) → P file.keys)
    (hstart : ∀ id name request, op = .start id name request.maxKeys → Q request)
    (hstep : world.step digest op = some next) : Throughout P Q next := by
  cases step_effect hstep with
  | rejected id error hcall => exact throughout_setCall h (by simp)
  | queued id name request hop hcall =>
      apply throughout_setCall h
      intro _ heq
      cases heq
      exact hstart id name request hop
  | spawned id request hop hcall hgate =>
      have hcalls : Throughout P Q (world.setCall id .running) := throughout_setCall h (by simp)
      have hclosures : Throughout P Q ((world.setCall id .running).setClosure id (.spawned request)) := by
        refine throughout_setClosure hcalls ?_ (by simp) (by simp)
        intro _ heq
        cases heq
        exact h.waiting id request hcall
      exact throughout_publish hclosures world.index (some id)
  | loaded id request hop hclosure =>
      refine throughout_setClosure h (by simp) ?_ (by simp)
      intro _ _ heq
      cases heq
      exact ⟨h.spawned id request hclosure, h.file⟩
  | prepared id request loaded file index plaintext segments nowUnixMs hclosure hprepared =>
      apply throughout_setClosure h (by simp) (by simp)
      intro _ _ _ heq
      cases heq
      obtain ⟨hrequest, hloaded⟩ := h.loaded id request loaded hclosure
      exact hprepare request segments nowUnixMs loaded file index plaintext hrequest hloaded hprepared
  | failed id error hclosure => exact throughout_setClosure h (by simp) (by simp) (by simp)
  | saved id file index plaintext hclosure =>
      have hdone : Throughout P Q (world.setClosure id (.finished (.ok (index, plaintext)))) :=
        throughout_setClosure h (by simp) (by simp) (by simp)
      exact ⟨h.saving id file index plaintext hclosure, hdone.waiting, hdone.spawned, hdone.loaded, hdone.saving⟩
  | published id index plaintext hcall hclosure =>
      exact throughout_publish (throughout_setCall h (by simp)) index none
  | reported id error hcall hclosure =>
      exact throughout_publish (throughout_setCall h (by simp)) world.index none
  | dropped id request hcall => exact throughout_setCall h (by simp)
  | orphaned id hcall => exact throughout_publish (throughout_setCall h (by simp)) world.index none

end Throughout

end RegistrationWorld

open RegistrationWorld

variable {digest : String → Digest} {start : KeyFile} {record : List (Step RegistrationWorld RegistrationOp)}
  {world : RegistrationWorld}

theorem registration_serialized (h : Run (registrationSystem digest start) LoadsAlone record world) :
    Serialized digest world := by
  refine h.invariant (I := Serialized digest) ?_ (fun _ _ _ hinv hguard hstep => serialized_step hinv hguard hstep)
  rintro world ⟨-, hindex, hfile, hgate, hcalls, hclosures⟩
  refine ⟨?_, ?_, ?_, ?_, ?_, ?_, world.file.keys, List.Subset.refl _, hfile ▸ hindex, ?_⟩
  all_goals simp [hgate, hcalls, hclosures, Closure.Unfinished, Closure.Working]

theorem registration_throughout {P : List KeyRecord → Prop} {Q : KeyRequest → Prop}
    (h : Run (registrationSystem digest start) LoadsAlone record world) (hfile : P start.keys)
    (hprepare : ∀ request segments nowUnixMs (loaded file : KeyFile) index plaintext, Q request → P loaded.keys →
      request.prepare digest segments nowUnixMs loaded = .ok (file, index, plaintext) → P file.keys)
    (hstart : ∀ step ∈ record, ∀ id name request, step.action = .start id name request.maxKeys → Q request) :
    P world.file.keys := by
  suffices hthroughout : Throughout P Q world from hthroughout.file
  refine h.induct (motive := fun record world =>
    (∀ step ∈ record, ∀ id name request, step.action = .start id name request.maxKeys → Q request) →
      Throughout P Q world) ?_ ?_ hstart
  · rintro world ⟨-, -, hstart, -, hcalls, hclosures⟩ _
    refine ⟨hstart ▸ hfile, ?_, ?_, ?_, ?_⟩
    all_goals simp [hcalls, hclosures]
  · intro record world op next _ ih _ hstep hstart
    refine throughout_step (ih fun step hmem => hstart step (List.mem_cons_of_mem _ hmem)) hprepare ?_ hstep
    exact hstart ⟨world, op, next⟩ List.mem_cons_self

/-- The calls started so far all came with the given limit. -/
def UsesLimit (limit : Nat) (record : List (Step RegistrationWorld RegistrationOp)) : Prop :=
  ∀ step ∈ record, ∀ id name maxKeys, step.action = .start id name maxKeys → maxKeys = some limit

/-- Registration loses no update in any run in which no closure loads the file between the load and the save of another
one: every key handed out has its record in the file and its digest in the published index, names stay distinct, and a
common limit bounds the file. -/
theorem registration_loses_no_update (h : Run (registrationSystem digest start) LoadsAlone record world) :
    (∀ id plaintext, world.calls id = .returned (.ok plaintext) →
      Issued digest world.file.keys plaintext ∧ digest plaintext ∈ world.index.digests) ∧
    ((start.keys.map KeyRecord.name).Nodup → (world.file.keys.map KeyRecord.name).Nodup) ∧
    ∀ limit, UsesLimit limit record → world.file.keys.length ≤ max limit start.keys.length := by
  refine ⟨?_, ?_, ?_⟩
  · intro id plaintext hreturned
    obtain ⟨records, hsubset, hindex, hissued⟩ := (registration_serialized h).published
    have hkey := hissued id plaintext hreturned
    refine ⟨hkey.mono hsubset, ?_⟩
    obtain ⟨key, hmem, hsha⟩ := hkey
    obtain ⟨found, hfound, hdecode⟩ := KeyIndex.fromRecords_ok hindex key hmem
    rw [hsha, decodeDigest_hexEncode, Option.some.injEq] at hdecode
    rwa [hdecode]
  · intro hdistinct
    refine registration_throughout (P := fun keys => (keys.map KeyRecord.name).Nodup) (Q := fun _ => True)
      h hdistinct ?_ (fun _ _ _ _ _ _ => trivial)
    intro request segments nowUnixMs loaded file index plaintext _ hloaded hprepare
    obtain ⟨key, hkeys, -, -, hname, -⟩ := prepare_ok hprepare
    rw [hkeys, List.map_append]
    exact List.Nodup.append hloaded (List.nodup_singleton _) (by simpa using hname)
  · intro limit hlimit
    refine registration_throughout (P := fun keys => keys.length ≤ max limit start.keys.length)
      (Q := fun request => request.maxKeys = some limit) h (le_max_right _ _) ?_ ?_
    · intro request segments nowUnixMs loaded file index plaintext hrequest _ hprepare
      obtain ⟨key, hkeys, -, -, -, hbound⟩ := prepare_ok hprepare
      have hlt := hbound limit hrequest
      rw [hkeys, List.length_append, List.length_singleton]
      exact le_trans hlt (le_max_left _ _)
    · intro step hmem id name request hop
      exact hlimit step hmem id name request.maxKeys hop

/-- SHA-256 on the three keys of the scenarios below. -/
def sampleDigest (text : String) : Digest :=
  if text = "eb_AAAAAAAA_aaaaaaaaaaaaaaaaaaaaaaaaaaaaaaaa" then
    ⟨[73, 190, 186, 1, 113, 224, 219, 154, 10, 146, 71, 9, 63, 153, 9, 18, 169, 141, 14, 235, 155, 81, 110, 103,
      117, 57, 46, 255, 167, 176, 47, 47], rfl⟩
  else if text = "eb_BBBBBBBB_bbbbbbbbbbbbbbbbbbbbbbbbbbbbbbbb" then
    ⟨[157, 79, 3, 174, 166, 132, 105, 78, 47, 253, 62, 16, 151, 247, 12, 22, 95, 241, 218, 174, 131, 156, 45, 200,
      68, 12, 155, 73, 172, 57, 208, 0], rfl⟩
  else
    ⟨[95, 228, 2, 188, 194, 255, 197, 169, 28, 153, 36, 83, 38, 16, 209, 229, 251, 128, 234, 144, 144, 196, 233,
      157, 150, 118, 66, 127, 111, 242, 126, 160], rfl⟩

def adminSegments : KeySegments := ⟨"AAAAAAAA", "aaaaaaaaaaaaaaaaaaaaaaaaaaaaaaaa", by decide, by decide⟩
def aliceSegments : KeySegments := ⟨"BBBBBBBB", "bbbbbbbbbbbbbbbbbbbbbbbbbbbbbbbb", by decide, by decide⟩
def bobSegments : KeySegments := ⟨"CCCCCCCC", "cccccccccccccccccccccccccccccccc", by decide, by decide⟩

/-- A key file with one administrator. -/
def sampleFile : KeyFile :=
  ⟨schemaVersion, [(KeyRecord.generate sampleDigest "admin" true adminSegments 0).1]⟩

def sampleIndex : KeyIndex :=
  ⟨[sampleDigest adminSegments.plaintext], sampleFile.keys.map
    (KeyIndex.identityOf (sampleDigest adminSegments.plaintext))⟩

def sampleStart : RegistrationWorld := ⟨sampleFile, sampleIndex, none, fun _ => .unstarted, fun _ => .absent⟩

theorem sampleStart_initial : (registrationSystem sampleDigest sampleFile).initial sampleStart :=
  ⟨by decide +kernel, by decide +kernel, rfl, rfl, rfl, rfl⟩

/-- The call an operation belongs to. -/
def RegistrationOp.call : RegistrationOp → Nat
  | .start id _ _ | .spawn id | .load id _ | .prepare id _ _ | .save id _ | .resume id | .drop id => id

/-- An operation touches only its own call and closure. -/
theorem RegistrationWorld.step_frame {next : RegistrationWorld} {op : RegistrationOp}
    (h : world.step digest op = some next) {id : Nat} (hid : id ≠ op.call) :
    next.calls id = world.calls id ∧ next.closures id = world.closures id := by
  cases op <;> simp only [step] at h <;> simp only [RegistrationOp.call] at hid <;> repeat' split at h
  all_goals cases h
  all_goals simp [setCall, setClosure, hid]

/-- A call no operation was about has not started. -/
theorem registration_untouched {guard : RegistrationWorld → RegistrationOp → Prop}
    (h : Run (registrationSystem digest start) guard record world) {id : Nat}
    (hid : ∀ step ∈ record, id ≠ step.action.call) :
    world.calls id = .unstarted ∧ world.closures id = .absent := by
  refine h.induct (motive := fun record world => (∀ step ∈ record, id ≠ step.action.call) →
    world.calls id = .unstarted ∧ world.closures id = .absent) ?_ ?_ hid
  · rintro world ⟨-, -, -, -, hcalls, hclosures⟩ _
    rw [hcalls, hclosures]
    exact ⟨rfl, rfl⟩
  · intro record world op next _ ih _ hstep hid
    obtain ⟨hcall, hclosure⟩ := step_frame hstep (hid ⟨world, op, next⟩ List.mem_cons_self)
    obtain ⟨hcalls, hclosures⟩ := ih (fun step hmem => hid step (List.mem_cons_of_mem _ hmem))
    exact ⟨hcall.trans hcalls, hclosure.trans hclosures⟩

/-- The first client disconnects after its closure was spawned. -/
def disconnectScript : List RegistrationOp := [.start 0 "alice" none, .spawn 0, .load 0 true, .drop 0]

/-- The closure of the disconnected client runs on. -/
def orphanScript : List RegistrationOp := [.prepare 0 (some aliceSegments) 0, .save 0 true]

/-- The second client registers. -/
def bobScript : List RegistrationOp :=
  [.start 1 "bob" none, .spawn 1, .load 1 true, .prepare 1 (some bobSegments) 0, .save 1 true, .resume 1]

/-- The operations of a script with two clients are about call zero or one. -/
theorem two_clients {ops : List RegistrationOp} (hops : ∀ op ∈ ops, op.call < 2) {id : Nat} (hid : 2 ≤ id)
    {step : Step RegistrationWorld RegistrationOp}
    (hmem : step ∈ (registrationSystem sampleDigest sampleFile).recordOf sampleStart ops []) :
    id ≠ step.action.call :=
  (lt_of_lt_of_le (hops step.action (System.action_of_mem_recordOf hmem)) hid).ne'

/-- The second client registers while the orphaned closure has loaded the file and not yet saved it: the
key it was handed is overwritten. -/
theorem registration_overwrites_returned_key :
    ∃ world record, Run (registrationSystem sampleDigest sampleFile) Free record world ∧
      (∀ id, ¬(world.closures id).Unfinished) ∧ world.calls 1 = .returned (.ok bobSegments.plaintext) ∧
      ¬Issued sampleDigest world.file.keys bobSegments.plaintext := by
  have hfacts : ((registrationSystem sampleDigest sampleFile).follow sampleStart
      (disconnectScript ++ bobScript ++ orphanScript)).any (fun world =>
        !decide (world.closures 0).Unfinished && !decide (world.closures 1).Unfinished &&
        decide (world.calls 1 = .returned (.ok bobSegments.plaintext)) &&
        world.file.keys.all fun key =>
          key.keySha256 != hexEncode (sampleDigest bobSegments.plaintext).val) = true := by decide +kernel
  rw [Option.any_eq_true] at hfacts
  obtain ⟨world, hworld, hfacts⟩ := hfacts
  simp only [Bool.and_eq_true, Bool.not_eq_true', decide_eq_false_iff_not, decide_eq_true_eq,
    List.all_eq_true, bne_iff_ne] at hfacts
  obtain ⟨⟨⟨hfirst, hsecond⟩, hreturned⟩, hkeys⟩ := hfacts
  have hstart : Run (registrationSystem sampleDigest sampleFile) Free [] sampleStart := .start sampleStart_initial
  have hrun := hstart.follow_unguarded _ hworld (fun _ _ _ => trivial)
  refine ⟨world, _, hrun, ?_, hreturned, ?_⟩
  · intro id
    match id with
    | 0 => exact hfirst
    | 1 => exact hsecond
    | id + 2 =>
        rw [(registration_untouched hrun fun step hmem => two_clients (by decide) (by omega) hmem).2]
        exact not_false
  · rintro ⟨key, hmem, hkey⟩
    exact hkeys key hmem hkey

/-- The step loads the key file. -/
def loadsFile (step : Step RegistrationWorld RegistrationOp) : Bool :=
  match step.action with
  | .load _ true => true
  | _ => false

/-- The first client disconnects before its closure has loaded the file, and the closure runs when the second client
has its key. -/
def lateOrphanScript : List RegistrationOp :=
  [.start 0 "alice" none, .spawn 0, .drop 0] ++ bobScript ++ .load 0 true :: orphanScript

/-- The orphaned closure saves last and the key of the second client stays where it belongs. -/
theorem registration_loses_no_update_after_disconnect :
    ∃ world record, Run (registrationSystem sampleDigest sampleFile) LoadsAlone record world ∧
      world.calls 1 = .returned (.ok bobSegments.plaintext) ∧
      Issued sampleDigest world.file.keys bobSegments.plaintext ∧
      sampleDigest bobSegments.plaintext ∈ world.index.digests := by
  have hfacts : ((registrationSystem sampleDigest sampleFile).follow sampleStart lateOrphanScript).any (fun world =>
        decide (world.calls 1 = .returned (.ok bobSegments.plaintext))) = true ∧
      ((registrationSystem sampleDigest sampleFile).recordOf sampleStart lateOrphanScript []).all (fun step =>
        !loadsFile step || (List.range 2).all fun id => decide ¬(step.before.closures id).Working) = true := by
    decide +kernel
  obtain ⟨hworld, hloads⟩ := hfacts
  rw [Option.any_eq_true] at hworld
  obtain ⟨world, hworld, hreturned⟩ := hworld
  have hfree : Run (registrationSystem sampleDigest sampleFile) Free [] sampleStart := .start sampleStart_initial
  have hstart : Run (registrationSystem sampleDigest sampleFile) LoadsAlone [] sampleStart :=
    .start sampleStart_initial
  have hrun := hstart.follow _ hworld (fun step hmem => by
    have hcheck := List.all_eq_true.mp hloads step hmem
    cases haction : step.action with
    | load call ok =>
        cases ok with
        | false => trivial
        | true =>
            intro id hworking
            rw [show loadsFile step = true by simp only [loadsFile, haction]] at hcheck
            rcases Nat.lt_or_ge id 2 with hlt | hge
            · exact of_decide_eq_true (List.all_eq_true.mp hcheck id (List.mem_range.mpr hlt)) hworking
            · -- no other client has started a call
              obtain ⟨older, hbefore, recent, hrecord⟩ :=
                (hfree.follow_unguarded _ hworld (fun _ _ _ => trivial)).of_mem hmem
              obtain ⟨-, hbefore, -, -⟩ := hbefore.cons_inv
              have huntouched : step.before.closures id = .absent :=
                (registration_untouched hbefore fun other hother =>
                  two_clients (by decide) hge (hrecord ▸ List.mem_append_right _ (List.mem_cons_of_mem _ hother))).2
              rw [huntouched] at hworking
              exact hworking
    | start | spawn | prepare | save | resume | drop => trivial)
  have hreturned : world.calls 1 = .returned (.ok bobSegments.plaintext) := of_decide_eq_true hreturned
  obtain ⟨hissued, hindex⟩ := (registration_loses_no_update hrun).1 1 _ hreturned
  exact ⟨world, _, hrun, hreturned, hissued, hindex⟩

end MistralrsProxy
