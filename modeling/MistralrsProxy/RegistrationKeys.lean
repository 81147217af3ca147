import MistralrsProxy.KeyAuthenticate
import MistralrsProxy.KeyFormat
import MistralrsProxy.KeyRegistration

/-! What registrations mean for the requests that present keys. Whatever becomes of the calls, every published index
extends the one the store was loaded with by enabled keys of non-admins, so that nobody's key changes its meaning; and
where no update is lost a key that was handed out goes on to let its holder in. -/

open Transition

namespace MistralrsProxy

open Machine (isizeMax)

namespace RegistrationWorld

variable {digest : String → Digest} {start : KeyFile} {world next : RegistrationWorld} {op : RegistrationOp}

/-- The keys are those of the start and, behind them, enabled keys of non-admins. -/
def Extends (start keys : List KeyRecord) : Prop :=
  ∃ added, keys = start ++ added ∧ ∀ key ∈ added, key.admin = false ∧ key.disabled = false

theorem Extends.refl (start : List KeyRecord) : Extends start start := ⟨[], (List.append_nil _).symm, by simp⟩

theorem Extends.push {keys : List KeyRecord} {key : KeyRecord} (h : Extends start.keys keys)
    (hadmin : key.admin = false)
    (hdisabled : key.disabled = false) : Extends start.keys (keys ++ [key]) := by
  obtain ⟨added, rfl, hadded⟩ := h
  refine ⟨added ++ [key], List.append_assoc _ _ _, ?_⟩
  intro other hother
  rcases List.mem_append.mp hother with hmem | hmem
  · exact hadded other hmem
  · rw [List.mem_singleton.mp hmem]
    exact ⟨hadmin, hdisabled⟩

/-- The record that is made for a request and the text that goes with it. -/
structure IssuedFor (digest : String → Digest) (name plaintext : String) (key : KeyRecord) : Prop where
  name : key.name = name
  keySha256 : key.keySha256 = hexEncode (digest plaintext).val
  identifier : identifierOf plaintext = some (some key.identifier)
  admin : key.admin = false
  disabled : key.disabled = false

theorem prepare_issues {request : KeyRequest} {segments : Option KeySegments} {nowUnixMs : Nat}
    {loaded file : KeyFile} {index : KeyIndex} {plaintext : String}
    (h : request.prepare digest segments nowUnixMs loaded = .ok (file, index, plaintext)) :
    ∃ key, file.keys = loaded.keys ++ [key] ∧ IssuedFor digest request.name plaintext key ∧
      KeyIndex.fromRecords file.keys = .ok index := by
  unfold KeyRequest.prepare at h
  split at h
  · cases h
  · split at h
    · cases h
    · split at h
      · cases h
      · rename_i segments
        have hformat := identifierOf_eq_some.mpr
          (⟨segments.secret, segments.identifierOk, segments.secretOk, rfl⟩ :
            IssuedKey segments.identifier segments.plaintext)
        simp only [KeyRecord.generate] at h
        split at h
        · cases h
        · rename_i hindex
          cases h
          exact ⟨_, rfl, ⟨rfl, rfl, hformat, rfl, rfl⟩, hindex⟩

/-- An index made of an extension of the keys of the start. -/
def Published (start : List KeyRecord) (index : KeyIndex) : Prop :=
  ∃ keys, Extends start keys ∧ KeyIndex.fromRecords keys = .ok index

/-- Every file and every index in sight extends the keys of the start. -/
structure Extended (start : List KeyRecord) (world : RegistrationWorld) : Prop where
  file : Extends start world.file.keys
  index : Published start world.index
  loaded : ∀ id request file, world.closures id = .loaded request file → Extends start file.keys
  saving : ∀ id file index plaintext, world.closures id = .saving file index plaintext →
    Extends start file.keys ∧ KeyIndex.fromRecords file.keys = .ok index
  finished : ∀ id index plaintext, world.closures id = .finished (.ok (index, plaintext)) → Published start index

theorem extended_setCall {id : Nat} {call : Call} (h : Extended start.keys world) :
    Extended start.keys (world.setCall id call) := ⟨h.file, h.index, h.loaded, h.saving, h.finished⟩

theorem extended_setClosure {id : Nat} {closure : Closure} (h : Extended start.keys world)
    (hloaded : ∀ request file, closure = .loaded request file → Extends start.keys file.keys)
    (hsaving : ∀ file index plaintext, closure = .saving file index plaintext →
      Extends start.keys file.keys ∧ KeyIndex.fromRecords file.keys = .ok index)
    (hfinished : ∀ index plaintext, closure = .finished (.ok (index, plaintext)) → Published start.keys index) :
    Extended start.keys (world.setClosure id closure) := by
  refine ⟨h.file, h.index, ?_, ?_, ?_⟩
  · intro other request file hother
    rcases closures_setClosure hother with ⟨rfl, hfound⟩ | ⟨_, hfound⟩
    · exact hloaded request file hfound
    · exact h.loaded other request file hfound
  · intro other file index plaintext hother
    rcases closures_setClosure hother with ⟨rfl, hfound⟩ | ⟨_, hfound⟩
    · exact hsaving file index plaintext hfound
    · exact h.saving other file index plaintext hfound
  · intro other index plaintext hother
    rcases closures_setClosure hother with ⟨rfl, hfound⟩ | ⟨_, hfound⟩
    · exact hfinished index plaintext hfound
    · exact h.finished other index plaintext hfound

theorem extended_step (h : Extended start.keys world) (hstep : world.step digest op = some next) :
    Extended start.keys next := by
  cases step_effect hstep with
  | rejected id error hcall => exact extended_setCall h
  | queued id name request hop hcall => exact extended_setCall h
  | spawned id request hop hcall hgate =>
      have hcalls : Extended start.keys (world.setCall id .running) := extended_setCall h
      have hclosures : Extended start.keys ((world.setCall id .running).setClosure id (.spawned request)) :=
        extended_setClosure hcalls (by simp) (by simp) (by simp)
      exact ⟨hclosures.file, hclosures.index, hclosures.loaded, hclosures.saving, hclosures.finished⟩
  | loaded id request hclosure =>
      refine extended_setClosure h ?_ (by simp) (by simp)
      intro _ _ heq
      cases heq
      exact h.file
  | prepared id request loaded file index plaintext segments nowUnixMs hclosure hprepare =>
      refine extended_setClosure h (by simp) ?_ (by simp)
      intro _ _ _ heq
      cases heq
      obtain ⟨key, hkeys, hkey, hindex⟩ := prepare_issues hprepare
      refine ⟨?_, hindex⟩
      rw [hkeys]
      exact (h.loaded id request loaded hclosure).push hkey.admin hkey.disabled
  | failed id error hclosure => exact extended_setClosure h (by simp) (by simp) (by simp)
  | saved id file index plaintext hclosure =>
      obtain ⟨hfile, hindex⟩ := h.saving id file index plaintext hclosure
      have hdone : Extended start.keys (world.setClosure id (.finished (.ok (index, plaintext)))) := by
        apply extended_setClosure h (by simp) (by simp)
        intro _ _ heq
        cases heq
        exact ⟨file.keys, hfile, hindex⟩
      exact ⟨hfile, hdone.index, hdone.loaded, hdone.saving, hdone.finished⟩
  | published id index plaintext hcall hclosure =>
      exact ⟨h.file, h.finished id index plaintext hclosure, h.loaded, h.saving, h.finished⟩
  | reported id error hcall hclosure => exact ⟨h.file, h.index, h.loaded, h.saving, h.finished⟩
  | dropped id request hcall => exact extended_setCall h
  | orphaned id hcall => exact ⟨h.file, h.index, h.loaded, h.saving, h.finished⟩

theorem extended_of_run {guard : RegistrationWorld → RegistrationOp → Prop}
    {record : List (Step RegistrationWorld RegistrationOp)}
    (hrun : Run (registrationSystem digest start) guard record world) : Extended start.keys world := by
  refine hrun.invariant (I := Extended start.keys) ?_ (fun _ _ _ h _ hstep => extended_step h hstep)
  rintro world ⟨-, hindex, rfl, -, -, hclosures⟩
  refine ⟨Extends.refl _, ⟨_, Extends.refl _, hindex⟩, ?_, ?_, ?_⟩
  all_goals simp [hclosures]

end RegistrationWorld

open RegistrationWorld

section Authenticate

variable {visible : VisibleAscii} {digest : String → Digest} {headers : HeaderMap}

/-- Headers that present no key get an answer that no index has a part in. -/
theorem authenticate_eq_of_absent (h : ∀ key, ¬Presents visible headers key) (index other : KeyIndex) :
    authenticate visible digest headers index = authenticate visible digest headers other := by
  unfold authenticate
  split
  · rfl
  · rfl
  · rename_i value hvalue
    split
    · rfl
    · rename_i text htext
      split
      · rename_i scheme key hfields
        split
        · rfl
        · rename_i hchecks
          simp only [Bool.or_eq_true, Bool.not_eq_true', not_or, Bool.not_eq_false, eqIgnoreAsciiCase,
            beq_iff_eq] at hchecks
          refine absurd ⟨value, text, scheme, hvalue, htext, ?_, ?_⟩ (h (String.ofList key))
          · rw [hfields, String.toList_ofList]
          · rw [hchecks.1]
            decide
      · rfl

theorem KeyIndex.Indexes.length_eq {index : KeyIndex} {records : List KeyRecord} (h : index.Indexes records) :
    index.identities.length = records.length := by
  have hdecoded := congrArg List.length h.decoded
  rw [List.length_map, List.length_map] at hdecoded
  rw [h.identities_eq, List.length_zipWith, ← hdecoded, Nat.min_self]

/-- An index of more keys answers as before, or to a key that was unknown. -/
theorem authenticate_of_extends {start keys : List KeyRecord} {startIndex index : KeyIndex} (h : Extends start keys)
    (hstart : KeyIndex.fromRecords start = .ok startIndex) (hkeys : KeyIndex.fromRecords keys = .ok index)
    (hbounded : keys.length ≤ isizeMax) :
    ∃ before now, authenticate visible digest headers startIndex = some before ∧
      authenticate visible digest headers index = some now ∧
      (now = before ∨ before.result = .error .invalid ∧ now.result = .ok () ∧
        ∃ identity, now.identity = some identity ∧ identity.admin = false) := by
  obtain ⟨added, rfl, hadded⟩ := h
  have hshort : start.length ≤ isizeMax := by
    rw [List.length_append] at hbounded
    omega
  by_cases hpresents : ∃ key, Presents visible headers key
  · obtain ⟨key, hkey⟩ := hpresents
    by_cases hold : ∃ record ∈ start, record.Matches (digest key)
    · obtain ⟨record, hmem, hmatches⟩ := hold
      exact ⟨_, _, authenticate_known hstart hshort hkey hmem hmatches,
        authenticate_known hkeys hbounded hkey (List.mem_append_left _ hmem) hmatches, .inl rfl⟩
    · have hunknown : ∀ record ∈ start, ¬record.Matches (digest key) := fun record hmem hmatches =>
        hold ⟨record, hmem, hmatches⟩
      by_cases hnew : ∃ record ∈ added, record.Matches (digest key)
      · obtain ⟨record, hmem, hmatches⟩ := hnew
        obtain ⟨hadmin, hdisabled⟩ := hadded record hmem
        refine ⟨_, _, authenticate_unknown hstart hkey hunknown,
          authenticate_known hkeys hbounded hkey (List.mem_append_right _ hmem) hmatches,
          .inr ⟨rfl, ?_, _, rfl, hadmin⟩⟩
        change (if record.disabled then _ else _) = _
        rw [hdisabled]
        rfl
      · refine ⟨_, _, authenticate_unknown hstart hkey hunknown, authenticate_unknown hkeys hkey ?_, .inl rfl⟩
        intro record hmem hmatches
        rcases List.mem_append.mp hmem with hstored | hstored
        · exact hunknown record hstored hmatches
        · exact hnew ⟨record, hstored, hmatches⟩
  · have habsent : ∀ key, ¬Presents visible headers key := fun key hkey => hpresents ⟨key, hkey⟩
    rw [authenticate_eq_of_absent habsent index startIndex]
    have hrejected : authenticate visible digest headers startIndex = some (.rejected .missing) ∨
        authenticate visible digest headers startIndex = some (.rejected .malformed) := authenticate_absent habsent
    rcases hrejected with hanswer | hanswer
    · exact ⟨_, _, hanswer, hanswer, .inl rfl⟩
    · exact ⟨_, _, hanswer, hanswer, .inl rfl⟩

end Authenticate

variable {digest : String → Digest} {start : KeyFile} {record : List (Step RegistrationWorld RegistrationOp)}
  {world : RegistrationWorld}

/-- The request of the holder of the key that is made for Bob. -/
def bobHeaders : HeaderMap :=
  [(authorization, ("Bearer " ++ bobSegments.plaintext).toList.map fun char => UInt8.ofNat char.toNat)]

/-- Bob registers, and his key lets him in. -/
theorem bobScript_world :
    ((registrationSystem sampleDigest sampleFile).follow sampleStart bobScript).any (fun world =>
      decide (world.calls 1 = .returned (.ok bobSegments.plaintext)) && (decide (world.index.identities.length = 2) &&
        (authenticate printableAscii sampleDigest bobHeaders world.index).any fun now =>
          now.identity.any fun identity => decide (identity.name = "bob"))) = true := by decide +kernel

namespace RegistrationWorld

/-- The call was started with a name that is normalized to this one. -/
def Named (record : List (Step RegistrationWorld RegistrationOp)) (id : Nat) (name : String) : Prop :=
  ∃ step ∈ record, ∃ given maxKeys, step.action = .start id given maxKeys ∧ normalizeKeyName given = .ok name

/-- The keys have a record that was made for the call together with this text. -/
def MadeFor (digest : String → Digest) (record : List (Step RegistrationWorld RegistrationOp)) (keys : List KeyRecord)
    (id : Nat) (plaintext : String) : Prop :=
  ∃ key ∈ keys, ∃ name, Named record id name ∧ IssuedFor digest name plaintext key

theorem Named.cons {id : Nat} {name : String} (h : Named record id name)
    (step : Step RegistrationWorld RegistrationOp) :
    Named (step :: record) id name := by
  obtain ⟨older, hmem, hstep⟩ := h
  exact ⟨older, List.mem_cons_of_mem _ hmem, hstep⟩

theorem MadeFor.cons {keys more : List KeyRecord} {id : Nat} {plaintext : String}
    (h : MadeFor digest record keys id plaintext) (hmore : keys ⊆ more)
    (step : Step RegistrationWorld RegistrationOp) : MadeFor digest (step :: record) more id plaintext := by
  obtain ⟨key, hmem, name, hnamed, hkey⟩ := h
  exact ⟨key, hmore hmem, name, hnamed.cons step, hkey⟩

/-- What is on its way to a call, and what it was given, was made for it and is in the file. -/
structure Handed (digest : String → Digest) (record : List (Step RegistrationWorld RegistrationOp))
    (world : RegistrationWorld) : Prop where
  waiting : ∀ id request, world.calls id = .waiting request → Named record id request.name
  spawned : ∀ id request, world.closures id = .spawned request → Named record id request.name
  loaded : ∀ id request file, world.closures id = .loaded request file → Named record id request.name
  saving : ∀ id file index plaintext, world.closures id = .saving file index plaintext →
    MadeFor digest record file.keys id plaintext
  finished : ∀ id index plaintext, world.closures id = .finished (.ok (index, plaintext)) →
    MadeFor digest record world.file.keys id plaintext
  returned : ∀ id plaintext, world.calls id = .returned (.ok plaintext) →
    MadeFor digest record world.file.keys id plaintext

variable {next : RegistrationWorld} {op : RegistrationOp} {step : Step RegistrationWorld RegistrationOp}

theorem handed_cons (h : Handed digest record world) (step : Step RegistrationWorld RegistrationOp) :
    Handed digest (step :: record) world :=
  ⟨fun id request hcall => (h.waiting id request hcall).cons step,
    fun id request hclosure => (h.spawned id request hclosure).cons step,
    fun id request file hclosure => (h.loaded id request file hclosure).cons step,
    fun id file index plaintext hclosure => (h.saving id file index plaintext hclosure).cons (List.Subset.refl _) step,
    fun id index plaintext hclosure => (h.finished id index plaintext hclosure).cons (List.Subset.refl _) step,
    fun id plaintext hcall => (h.returned id plaintext hcall).cons (List.Subset.refl _) step⟩

theorem handed_setCall {id : Nat} {call : Call} (h : Handed digest record world)
    (hwaiting : ∀ request, call = .waiting request → Named record id request.name)
    (hreturned : ∀ plaintext, call = .returned (.ok plaintext) → MadeFor digest record world.file.keys id plaintext) :
    Handed digest record (world.setCall id call) := by
  refine ⟨?_, h.spawned, h.loaded, h.saving, h.finished, ?_⟩
  · intro other request hother
    rcases calls_setCall hother with ⟨rfl, hfound⟩ | ⟨_, hfound⟩
    · exact hwaiting request hfound
    · exact h.waiting other request hfound
  · intro other plaintext hother
    rcases calls_setCall hother with ⟨rfl, hfound⟩ | ⟨_, hfound⟩
    · exact hreturned plaintext hfound
    · exact h.returned other plaintext hfound

theorem handed_setClosure {id : Nat} {closure : Closure} (h : Handed digest record world)
    (hspawned : ∀ request, closure = .spawned request → Named record id request.name)
    (hloaded : ∀ request file, closure = .loaded request file → Named record id request.name)
    (hsaving : ∀ file index plaintext, closure = .saving file index plaintext →
      MadeFor digest record file.keys id plaintext)
    (hfinished : ∀ index plaintext, closure = .finished (.ok (index, plaintext)) →
      MadeFor digest record world.file.keys id plaintext) : Handed digest record (world.setClosure id closure) := by
  refine ⟨h.waiting, ?_, ?_, ?_, ?_, h.returned⟩
  · intro other request hother
    rcases closures_setClosure hother with ⟨rfl, hfound⟩ | ⟨_, hfound⟩
    · exact hspawned request hfound
    · exact h.spawned other request hfound
  · intro other request file hother
    rcases closures_setClosure hother with ⟨rfl, hfound⟩ | ⟨_, hfound⟩
    · exact hloaded request file hfound
    · exact h.loaded other request file hfound
  · intro other file index plaintext hother
    rcases closures_setClosure hother with ⟨rfl, hfound⟩ | ⟨_, hfound⟩
    · exact hsaving file index plaintext hfound
    · exact h.saving other file index plaintext hfound
  · intro other index plaintext hother
    rcases closures_setClosure hother with ⟨rfl, hfound⟩ | ⟨_, hfound⟩
    · exact hfinished index plaintext hfound
    · exact h.finished other index plaintext hfound

/-- Another file that has the keys of the old one. -/
theorem handed_file {file : KeyFile} (h : Handed digest record world) (hgrows : world.file.keys ⊆ file.keys) :
    Handed digest record { world with file := file } := by
  have hmade : ∀ id plaintext, MadeFor digest record world.file.keys id plaintext →
      MadeFor digest record file.keys id plaintext := by
    rintro id plaintext ⟨key, hmem, hkey⟩
    exact ⟨key, hgrows hmem, hkey⟩
  exact ⟨h.waiting, h.spawned, h.loaded, h.saving,
    fun id index plaintext hclosure => hmade id plaintext (h.finished id index plaintext hclosure),
    fun id plaintext hcall => hmade id plaintext (h.returned id plaintext hcall)⟩

/-- A call that waits has a normalized name. -/
theorem normalized_of_start {id : Nat} {name : String} {request : KeyRequest}
    (hstep : world.step digest (.start id name request.maxKeys) = some (world.setCall id (.waiting request))) :
    normalizeKeyName name = .ok request.name := by
  simp only [RegistrationWorld.step] at hstep
  split at hstep
  · split at hstep
    · have hcalls := congrArg (fun world => world.calls id) (Option.some.inj hstep)
      simp [setCall] at hcalls
    · rename_i normalized hname
      have hcalls := congrArg (fun world => world.calls id) (Option.some.inj hstep)
      simp only [setCall, Function.update_self, Call.waiting.injEq] at hcalls
      rw [hname, ← hcalls]
  · cases hstep

theorem handed_step (hserialized : Serialized digest world) (h : Handed digest record world)
    (hstep : world.step digest op = some next) : Handed digest (⟨world, op, next⟩ :: record) next := by
  have hcons := handed_cons h ⟨world, op, next⟩
  cases step_effect hstep with
  | rejected id error hcall => exact handed_setCall hcons (by simp) (by simp)
  | queued id name request hop hcall =>
      refine handed_setCall hcons ?_ (by simp)
      intro _ heq
      cases heq
      subst hop
      exact ⟨_, List.mem_cons_self, name, request.maxKeys, rfl, normalized_of_start hstep⟩
  | spawned id request hop hcall hgate =>
      have hcalls : Handed digest _ (world.setCall id .running) := handed_setCall hcons (by simp) (by simp)
      have hclosures : Handed digest _ ((world.setCall id .running).setClosure id (.spawned request)) :=
        handed_setClosure hcalls (by
          intro _ heq
          cases heq
          exact hcons.waiting id request hcall) (by simp) (by simp) (by simp)
      exact ⟨hclosures.waiting, hclosures.spawned, hclosures.loaded, hclosures.saving, hclosures.finished,
        hclosures.returned⟩
  | loaded id request hop hclosure =>
      refine handed_setClosure hcons (by simp) ?_ (by simp) (by simp)
      intro _ _ heq
      cases heq
      exact hcons.spawned id request hclosure
  | prepared id request loaded file index plaintext segments nowUnixMs hclosure hprepare =>
      refine handed_setClosure hcons (by simp) (by simp) ?_ (by simp)
      intro _ _ _ heq
      cases heq
      obtain ⟨key, hkeys, hkey, _⟩ := prepare_issues hprepare
      refine ⟨key, ?_, request.name, hcons.loaded id request loaded hclosure, hkey⟩
      rw [hkeys]
      exact List.mem_append_right _ (List.mem_singleton_self _)
  | failed id error hclosure => exact handed_setClosure hcons (by simp) (by simp) (by simp) (by simp)
  | saved id file index plaintext hclosure =>
      -- the file that is saved was loaded as it is now
      obtain ⟨key, hkeys, _⟩ := hserialized.saving id file index plaintext hclosure
      have hgrows : world.file.keys ⊆ file.keys := by
        rw [hkeys]
        exact List.subset_append_left _ _
      have hfile := handed_file hcons hgrows
      apply handed_setClosure hfile (by simp) (by simp) (by simp)
      intro _ _ heq
      cases heq
      exact hcons.saving id file index plaintext hclosure
  | published id index plaintext hcall hclosure =>
      have hcalls : Handed digest _ (world.setCall id (.returned (.ok plaintext))) := handed_setCall hcons (by simp) (by
        intro _ heq
        cases heq
        exact hcons.finished id index plaintext hclosure)
      exact ⟨hcalls.waiting, hcalls.spawned, hcalls.loaded, hcalls.saving, hcalls.finished, hcalls.returned⟩
  | reported id error hcall hclosure =>
      have hcalls : Handed digest _ (world.setCall id (.returned (.error error))) :=
        handed_setCall hcons (by simp) (by simp)
      exact ⟨hcalls.waiting, hcalls.spawned, hcalls.loaded, hcalls.saving, hcalls.finished, hcalls.returned⟩
  | dropped id request hcall => exact handed_setCall hcons (by simp) (by simp)
  | orphaned id hcall =>
      have hcalls : Handed digest _ (world.setCall id .dropped) := handed_setCall hcons (by simp) (by simp)
      exact ⟨hcalls.waiting, hcalls.spawned, hcalls.loaded, hcalls.saving, hcalls.finished, hcalls.returned⟩

theorem handed_of_run (hrun : Run (registrationSystem digest start) LoadsAlone record world) :
    Handed digest record world := by
  refine hrun.induct (motive := fun record world => Handed digest record world) ?_ ?_
  · rintro world ⟨-, -, -, -, hcalls, hclosures⟩
    refine ⟨?_, ?_, ?_, ?_, ?_, ?_⟩
    all_goals simp [hcalls, hclosures]
  · intro record world op next hbefore h _ hstep
    exact handed_step (registration_serialized hbefore) h hstep

/-- The keys of the file always make an index. -/
theorem file_indexed (hrun : Run (registrationSystem digest start) LoadsAlone record world) :
    ∃ index, KeyIndex.fromRecords world.file.keys = .ok index := by
  refine hrun.induct (motive := fun _ world => ∃ index, KeyIndex.fromRecords world.file.keys = .ok index) ?_ ?_
  · rintro world ⟨-, hindex, rfl, -, -, -⟩
    exact ⟨_, hindex⟩
  · intro record world op next hbefore h _ hstep
    cases step_effect hstep with
    | saved id file index plaintext hclosure =>
        obtain ⟨_, _, _, hindex⟩ := (registration_serialized hbefore).saving id file index plaintext hclosure
        exact ⟨index, hindex⟩
    | _ => exact h

end RegistrationWorld

/-- Where no closure loads the file between the load and the save of another one, a key that was handed out lets its
holder in, at once and for ever: under the normalized name that was asked for, with the identifier that the key itself
shows, and not as an administrator. -/
theorem handed_out_key_lets_its_holder_in (visible : VisibleAscii) (digest : String → Digest) (start : KeyFile)
    (record : List (Step RegistrationWorld RegistrationOp)) (world : RegistrationWorld)
    (hrun : Run (registrationSystem digest start) LoadsAlone record world)
    (hbounded : world.index.identities.length ≤ isizeMax) (id : Nat) (plaintext : String)
    (hreturned : world.calls id = .returned (.ok plaintext)) :
    ∃ step ∈ record, ∃ given maxKeys name identifier, step.action = .start id given maxKeys ∧
      normalizeKeyName given = .ok name ∧ identifierOf plaintext = some (some identifier) ∧
      ∀ headers, Presents visible headers plaintext → authenticate visible digest headers world.index =
        some ⟨some (hexEncode (digest plaintext).val),
          some ⟨name, identifier, hexEncode (digest plaintext).val, false, false⟩, .ok ()⟩ := by
  obtain ⟨key, hmem, name, ⟨step, hstep, given, maxKeys, haction, hname⟩, hkey⟩ :=
    (handed_of_run hrun).returned id plaintext hreturned
  obtain ⟨records, hsubset, hindex, hissued⟩ := (registration_serialized hrun).published
  obtain ⟨fileIndex, hfile⟩ := file_indexed hrun
  obtain ⟨published, hpublished, hsha⟩ := hissued id plaintext hreturned
  -- the published record with this digest is the one that was made for the call
  have hmatches : ∀ record : KeyRecord, record.keySha256 = hexEncode (digest plaintext).val →
      record.Matches (digest plaintext) := by
    intro record hrecord
    rw [KeyRecord.Matches, hrecord, decodeDigest_hexEncode]
  have hsame : published = key := (KeyIndex.fromRecords_indexes hfile).record_unique (hsubset hpublished) hmem
    (hmatches _ hsha) (hmatches _ hkey.keySha256)
  rw [hsame] at hpublished
  refine ⟨step, hstep, given, maxKeys, name, key.identifier, haction, hname, hkey.identifier, ?_⟩
  intro headers hpresents
  rw [(KeyIndex.fromRecords_indexes hindex).length_eq] at hbounded
  rw [authenticate_known hindex hbounded hpresents hpublished (hmatches _ hkey.keySha256), Authentication.ofLookup,
    KeyIndex.identityOf, hkey.name, hkey.admin, hkey.disabled]
  rfl

/-- As long as all operations are about one call its closure is the only one at work. -/
theorem loadsAlone_of_one_call {next : RegistrationWorld} {op : RegistrationOp}
    (hrun : Run (registrationSystem digest start) Free record world) (hstep : world.step digest op = some next)
    (hone : ∀ step ∈ record, step.action.call = op.call) : LoadsAlone world op := by
  cases op with
  | load id ok =>
      cases ok with
      | false => trivial
      | true =>
          intro other hworking
          by_cases heq : other = id
          · subst heq
            simp only [RegistrationWorld.step] at hstep
            split at hstep
            · rename_i hspawned
              rw [hspawned] at hworking
              exact hworking
            · cases hstep
          · have habsent := (registration_untouched hrun fun step hmem => fun h => heq (h.trans (hone step hmem))).2
            rw [habsent] at hworking
            exact hworking
  | start | spawn | prepare | save | resume | drop => trivial

/-- Bob's registration, and then a request of his. -/
theorem handed_out_key_lets_its_holder_in_bob :
    ∃ record world, Run (registrationSystem sampleDigest sampleFile) LoadsAlone record world ∧
      world.calls 1 = .returned (.ok bobSegments.plaintext) ∧
      ∃ name identifier, authenticate printableAscii sampleDigest bobHeaders world.index =
        some ⟨some (hexEncode (sampleDigest bobSegments.plaintext).val),
          some ⟨name, identifier, hexEncode (sampleDigest bobSegments.plaintext).val, false, false⟩, .ok ()⟩ := by
  obtain ⟨world, hworld, hfacts⟩ := (Option.any_eq_true _ _).mp bobScript_world
  obtain ⟨hreturned, hrest⟩ := Bool.and_eq_true_iff.mp hfacts
  have hlength := (Bool.and_eq_true_iff.mp hrest).1
  have hlength : world.index.identities.length = 2 := of_decide_eq_true hlength
  have hfree : Run (registrationSystem sampleDigest sampleFile) Free [] sampleStart := .start sampleStart_initial
  have hstart : Run (registrationSystem sampleDigest sampleFile) LoadsAlone [] sampleStart := .start sampleStart_initial
  have hrun := hstart.follow _ hworld (fun step hmem => by
    obtain ⟨older, hbefore, recent, hrecord⟩ := (hfree.follow_unguarded _ hworld (fun _ _ _ => trivial)).of_mem hmem
    obtain ⟨-, hbefore, -, hstep⟩ := hbefore.cons_inv
    -- the script is about call one
    have hone : ∀ other ∈ step :: older, other.action.call = 1 := by
      intro other hother
      have hscript : ∀ op ∈ bobScript, op.call = 1 := by decide
      exact hscript _ (System.action_of_mem_recordOf (hrecord ▸ List.mem_append_right _ hother))
    refine loadsAlone_of_one_call hbefore hstep fun other hother => ?_
    rw [hone other (List.mem_cons_of_mem _ hother), hone step List.mem_cons_self])
  have hreturned : world.calls 1 = .returned (.ok bobSegments.plaintext) := of_decide_eq_true hreturned
  have hpresents : Presents printableAscii bobHeaders bobSegments.plaintext :=
    ⟨("Bearer " ++ bobSegments.plaintext).toList.map fun char => UInt8.ofNat char.toNat,
      ("Bearer " ++ bobSegments.plaintext).toList, "Bearer".toList, by decide +kernel, by decide +kernel,
      by decide +kernel, by decide +kernel⟩
  obtain ⟨_, _, _, _, name, identifier, _, _, _, hanswers⟩ :=
    handed_out_key_lets_its_holder_in printableAscii sampleDigest
    sampleFile _ world hrun (by rw [hlength]; decide) 1 _ hreturned
  exact ⟨_, world, hrun, hreturned, name, identifier, hanswers bobHeaders hpresents⟩

end MistralrsProxy
