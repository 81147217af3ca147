import MistralrsProxy.ControlPermits

/-! Where requests go. A selection that has evaluated a backend may take its lease much later, after the
backend was disabled, moved by a reload and activated again. What it can still rely on is the gate: a backend
whose published generation changes is disabled, and only an activation, which asks for readiness under the
current generation, opens it again. -/

open Transition Keyed

namespace MistralrsProxy

/-- The live state of the backend is of the generation and ready. -/
def ControlWorld.ReadyAt (id : BackendId) (generation : Nat) (world : ControlWorld) : Prop :=
  ∃ live, world.routing.inner.backends id = some live ∧ live.topologyGeneration = generation ∧ live.readiness = .ready

/-- The steps since the process was started. -/
def sinceRestart (record : List ControlStep) : List ControlStep := since (fun step => step.action.isRestart) record

/-- The backend has been ready under its current generation, now or in an earlier state of this process. -/
def ControlWorld.Verified (record : List ControlStep) (id : BackendId) (world : ControlWorld) : Prop :=
  ∃ generation, world.published.backendGeneration id = some generation ∧
    (world.ReadyAt id generation ∨ ∃ step ∈ sinceRestart record, step.before.ReadyAt id generation)

/-- The selection in progress may still take a lease of the backend. -/
def Selector.Tries (id : BackendId) : Selector → Prop
  | .trying _ candidates => ∃ candidate ∈ candidates, candidate.id = id
  | .permitted _ candidate _ rest => candidate.id = id ∨ ∃ other ∈ rest, other.id = id
  | _ => False

/-- A drain that has closed the gate of the backend and may have to open it again. -/
def Lifecycle.Reopens (id : BackendId) : Lifecycle → Prop
  | .drainSave target before | .drainUndo target before _ => target = id ∧ before = .active
  | _ => False

/-- An activation of the backend that has passed its checks. -/
def Lifecycle.Activates (id : BackendId) : Lifecycle → Prop
  | .activateSave target | .activateOpen target => target = id
  | _ => False

/-- The gate of the backend is open, or may open again without a check. -/
def ControlWorld.Opens (id : BackendId) (world : ControlWorld) : Prop :=
  ∃ slot, world.registry.find? id = some slot ∧ slot.registered = true ∧
    (slot.mode = .active ∨ world.lifecycle.Reopens id)

namespace ControlWorld

variable {world next : ControlWorld} {id target : BackendId}

theorem Verified.step {record : List ControlStep} (h : world.Verified record id) {op : ControlOp}
    (hrestart : ∀ config, op ≠ .restart config)
    (hkept : next.published.backendGeneration id = world.published.backendGeneration id) :
    next.Verified (⟨world, op, next⟩ :: record) id := by
  obtain ⟨generation, hgeneration, hready⟩ := h
  have hsince : sinceRestart (⟨world, op, next⟩ :: record) = ⟨world, op, next⟩ :: sinceRestart record := by
    apply since_cons_of_not_mark record
    cases op with
    | restart config => exact absurd rfl (hrestart config)
    | _ => rfl
  refine ⟨generation, hkept.trans hgeneration, .inr ?_⟩
  rw [hsince]
  rcases hready with hready | ⟨step, hmem, hready⟩
  · exact ⟨_, List.mem_cons_self, hready⟩
  · exact ⟨step, List.mem_cons_of_mem _ hmem, hready⟩

/-- A synchronised live state that is ready was not created by the synchronisation. -/
theorem verified_of_ready {live : LiveBackend} (hlive : world.routing.synchronised.backends id = some live)
    (hready : live.readiness = .ready) (record : List ControlStep) : world.Verified record id := by
  obtain ⟨hgeneration, hold | ⟨hnew, _⟩⟩ := RoutingInner.ensureBackends_some hlive
  · exact ⟨live.topologyGeneration, hgeneration, .inl ⟨live, hold, rfl, hready⟩⟩
  · rw [hnew] at hready
    cases hready

theorem opens_of_slot (hnext : next.Opens id) (hfind : next.registry.find? id = world.registry.find? id)
    (hlife : next.lifecycle.Reopens id → world.lifecycle.Reopens id) : world.Opens id := by
  obtain ⟨slot, hslot, hregistered, hopen⟩ := hnext
  exact ⟨slot, hfind ▸ hslot, hregistered, hopen.imp (fun hmode => hmode) hlife⟩

theorem opens_of_registry (hnext : next.Opens id) (hregistry : next.registry = world.registry)
    (hlife : next.lifecycle.Reopens id → world.lifecycle.Reopens id) : world.Opens id :=
  opens_of_slot hnext (congrArg (Table.find? id) hregistry) hlife

/-- A change of one slot opens no other gate. -/
theorem opens_of_update {f : SlotState → SlotState} (hf : ∀ slot, (f slot).spec = slot.spec) (hnext : next.Opens id)
    (hregistry : next.registry = world.registry.update target f) (hlife : ¬next.lifecycle.Reopens id) :
    world.Opens id ∨ id = target ∧
      ∃ slot, world.registry.find? id = some slot ∧ (f slot).registered = true ∧ (f slot).mode = .active := by
  by_cases hid : id = target
  · subst hid
    obtain ⟨slot, hslot, hregistered, hmode | hreopens⟩ := hnext
    · rw [hregistry, BackendRegistry.find?_modify hf, if_pos rfl] at hslot
      obtain ⟨before, hbefore, rfl⟩ := Option.map_eq_some_iff.mp hslot
      exact .inr ⟨rfl, before, hbefore, hregistered, hmode⟩
    · exact absurd hreopens hlife
  · refine .inl (opens_of_slot hnext ?_ (fun hreopens => absurd hreopens hlife))
    rw [hregistry, BackendRegistry.find?_modify hf, if_neg hid]

theorem opens_of_disable (hnext : next.Opens id)
    (hregistry : next.registry = world.registry.update target SlotState.disable)
    (hlife : ¬next.lifecycle.Reopens id) : world.Opens id := by
  rcases opens_of_update (fun slot => SlotState.switchMode_spec slot .disabled) hnext hregistry hlife with
    hopens | ⟨_, slot, _, _, hmode⟩
  · exact hopens
  · rw [SlotState.switchMode_mode] at hmode
    cases hmode

theorem opens_of_restore {mode : BackendMode} (hnext : next.Opens id)
    (hregistry : next.registry = world.registry.update target (SlotState.restore mode))
    (hlife : ¬next.lifecycle.Reopens id) :
    world.Opens id ∨ id = target ∧ mode = .active ∧
      ∃ slot, world.registry.find? id = some slot ∧ slot.registered = true := by
  rcases opens_of_update (fun slot => SlotState.restore_spec slot mode) hnext hregistry hlife with
    hopens | ⟨hid, slot, hslot, hregistered, hmode⟩
  · exact .inl hopens
  · rw [SlotState.restore_registered] at hregistered
    rw [SlotState.restore_of_registered hregistered, SlotState.switchMode_mode] at hmode
    exact .inr ⟨hid, hmode, slot, hslot, hregistered⟩

theorem opens_of_reconcile (hcoherent : Coherent world) {config : ValidConfig} {report : ReconcileReport}
    (hnext : next.Opens id) (hreconcile : BackendRegistry.reconcile (config.val.backends.map Backend.registrySpec)
      world.registry = .ok (next.registry, report)) (hlife : ¬next.lifecycle.Reopens id) : world.Opens id := by
  obtain ⟨slot, hslot, hregistered, hmode | hreopens⟩ := hnext
  · rcases BackendRegistry.reconcile_cases hreconcile hslot with
      ⟨_, _, _, _, _, ⟨old, hold, hsame, _⟩ | ⟨_, _, hdisabled, _⟩⟩ | ⟨_, hretired, _⟩
    · rw [hmode] at hsame
      cases holdRegistered : old.registered with
      | true => exact ⟨old, hold, holdRegistered, .inl hsame.symm⟩
      | false =>
          rw [(hcoherent.retired id old hold holdRegistered).1] at hsame
          cases hsame
    · rw [hmode] at hdisabled
      cases hdisabled
    · rw [hregistered] at hretired
      cases hretired
  · exact absurd hreopens hlife

/-- What opens a gate: an activation that has passed its checks, or a reload that restores a stored mode. -/
theorem proceed_opens (hcoherent : Coherent world) {failure : Option String} (h : world.proceed failure = some next)
    (hnext : next.Opens id) :
    world.Opens id ∨ world.lifecycle = .activateOpen id ∨ ∃ config report pending slot,
      world.lifecycle = .reloadRestore config report ((id, .active) :: pending) ∧ world.registry.find? id = some slot ∧
        slot.registered = true := by
  unfold proceed at h
  split at h
  · cases h
  · rename_i hlife
    split at h
    · cases h
      exact .inl (opens_of_registry hnext rfl fun hreopens => hreopens.elim)
    · cases h
      exact .inl (opens_of_registry hnext rfl fun hreopens => by rw [hlife]; exact hreopens)
  · rename_i target before error hlife
    cases h
    rcases opens_of_restore hnext rfl (fun hreopens => hreopens) with hopens | ⟨rfl, rfl, slot, hslot, hregistered⟩
    · exact .inl hopens
    · exact .inl ⟨slot, hslot, hregistered, .inr (by rw [hlife]; exact ⟨rfl, rfl⟩)⟩
  · cases h
    exact .inl (opens_of_registry hnext (ensureDrainOperation_some _ world).2.1 fun hreopens => hreopens.elim)
  · split at h <;> cases h <;> exact .inl (opens_of_registry hnext rfl fun hreopens => hreopens.elim)
  · rename_i target hlife
    obtain ⟨slot, hslot, rfl⟩ := Option.map_eq_some_iff.mp h
    split at hnext
    · rename_i opened hopened
      by_cases hid : id = target
      · exact .inr (.inl (by rw [hlife, hid]))
      · have hspec : opened.spec.id = target := by
          rw [(SlotState.activate_sameLeases hopened).1]
          exact BackendRegistry.slot_id hslot
        exact .inl (opens_of_slot hnext ((BackendRegistry.find?_replace hslot hspec id).trans (if_neg hid))
          fun hreopens => hreopens.elim)
    · exact .inl (opens_of_registry hnext rfl fun hreopens => hreopens.elim)
  · split at h <;> cases h <;> exact .inl (opens_of_registry hnext rfl fun hreopens => hreopens.elim)
  · cases h
    exact .inl (opens_of_disable hnext rfl (fun hreopens => hreopens))
  · rename_i config hlife
    split at h
    · cases h
      exact .inl (opens_of_registry hnext rfl fun hreopens => hreopens.elim)
    · rename_i registry report hreconcile
      cases h
      exact .inl (opens_of_reconcile hcoherent hnext hreconcile (fun hreopens => hreopens))
  · rename_i config report target mode pending hlife
    cases h
    rcases opens_of_restore hnext rfl (fun hreopens => hreopens) with hopens | ⟨rfl, rfl, slot, hslot, hregistered⟩
    · exact .inl hopens
    · exact .inr (.inr ⟨config, report, pending, slot, hlife, hslot, hregistered⟩)
  · cases h
    exact .inl (opens_of_registry hnext rfl fun hreopens => hreopens.elim)
  · cases h
    exact .inl (opens_of_registry hnext (ensureDrainOperation_some _ world).2.1 fun hreopens => hreopens.elim)
  · cases h
    exact .inl (opens_of_registry hnext rfl fun hreopens => hreopens.elim)
  · split at h <;> cases h <;> exact .inl (opens_of_registry hnext rfl fun hreopens => hreopens.elim)
  · cases h
    exact .inl (opens_of_disable hnext rfl (fun hreopens => hreopens))
  · cases h
    exact .inl (opens_of_registry hnext rfl fun hreopens => hreopens.elim)

theorem activate_lifecycle (id : BackendId) (world : ControlWorld) :
    (world.activate id).lifecycle = .free ∨ (world.activate id).lifecycle = .activateSave id ∧
      ∃ status, world.status id = some status ∧ status.readiness = .ready := by
  unfold activate
  split
  · exact .inl rfl
  · rename_i status hstatus
    split
    · exact .inl rfl
    · exact .inl rfl
    · split
      · exact .inl rfl
      · rename_i hready
        split
        · exact .inl rfl
        · exact .inr ⟨rfl, status, hstatus, not_not.mp hready⟩

theorem disable_lifecycle (id : BackendId) (force : Bool) (world : ControlWorld) :
    (world.disable id force).lifecycle = .free ∨
      ∃ inFlight, (world.disable id force).lifecycle = .disableSave id force inFlight := by
  unfold disable
  split
  · exact .inl rfl
  · split
    · exact .inl rfl
    · split
      · exact .inl rfl
      · exact .inr ⟨_, rfl⟩

theorem reload_lifecycle (config : ValidConfig) (world : ControlWorld) :
    (world.reload config).lifecycle = .free ∨ (world.reload config).lifecycle = .reloadReconcile config := by
  unfold reload
  split
  · exact .inl rfl
  · exact .inr rfl

theorem drain_opens (hnext : (world.drain target).Opens id) : world.Opens id := by
  unfold drain at hnext
  split at hnext
  · exact opens_of_registry hnext rfl fun hreopens => hreopens.elim
  · rename_i slot hget
    obtain ⟨hslot, hregistered⟩ := BackendRegistry.get_eq_some_iff.mp hget
    have hspec : slot.beginDrain.1.spec.id = target := by
      rw [SlotState.beginDrain, SlotState.switchMode_spec, BackendRegistry.slot_id hslot]
    have hfind := BackendRegistry.find?_replace hslot hspec id
    obtain ⟨found, hfound, _, hopen⟩ := hnext
    replace hfound := hfind.symm.trans hfound
    by_cases hid : id = target
    · subst hid
      rw [if_pos rfl, Option.some.injEq] at hfound
      rcases hopen with hmode | hreopens
      · rw [← hfound, SlotState.beginDrain, SlotState.switchMode_mode] at hmode
        cases hmode
      · refine ⟨slot, hslot, hregistered, .inl ?_⟩
        simp only at hreopens
        split at hreopens
        · exact hreopens.elim
        · exact hreopens.2
    · rw [if_neg hid] at hfound
      rcases hopen with hmode | hreopens
      · exact ⟨found, hfound, by assumption, .inl hmode⟩
      · simp only at hreopens
        split at hreopens
        · exact hreopens.elim
        · exact absurd hreopens.1.symm hid

theorem step_opens (hcoherent : Coherent world) {op : ControlOp} (hrestart : ∀ config, op ≠ .restart config)
    (h : world.step op = some next) (hnext : next.Opens id) :
    world.Opens id ∨ world.lifecycle = .activateOpen id ∨ ∃ config report pending slot,
      world.lifecycle = .reloadRestore config report ((id, .active) :: pending) ∧ world.registry.find? id = some slot ∧
        slot.registered = true := by
  cases op with
  | select | request | readiness | beginScrape | endScrape | elapse =>
      have hbackground := step_background rfl h
      obtain ⟨slot, hslot, hregistered, hopen⟩ := hnext
      obtain ⟨before, hbefore, haged⟩ := hbackground.ages.find hslot
      rw [hbackground.lifecycle, haged.mode] at hopen
      exact .inl ⟨before, hbefore, haged.registered.symm.trans hregistered, hopen⟩
  | drain target =>
      obtain ⟨_, rfl⟩ := command_some h
      exact .inl (drain_opens hnext)
  | activate target =>
      obtain ⟨_, rfl⟩ := command_some h
      refine .inl (opens_of_registry hnext (activate_store target world).2.1 ?_)
      rcases activate_lifecycle target world with hlife | ⟨hlife, _⟩ <;> rw [hlife] <;> exact False.elim
  | disable target force =>
      obtain ⟨_, rfl⟩ := command_some h
      refine .inl (opens_of_registry hnext (disable_store target force world).2.1 ?_)
      rcases disable_lifecycle target force world with hlife | ⟨_, hlife⟩ <;> rw [hlife] <;> exact False.elim
  | reload config =>
      obtain ⟨_, rfl⟩ := command_some h
      refine .inl (opens_of_registry hnext (reload_store config world).2.1 ?_)
      rcases reload_lifecycle config world with hlife | hlife <;> rw [hlife] <;> exact False.elim
  | proceed failure => exact proceed_opens hcoherent h hnext
  | drive index =>
      obtain ⟨_, _, _, _, hregistry, _, hkept | ⟨_, _, _, _, _, hcommit⟩⟩ := driveStep_some h
      · exact .inl (opens_of_registry hnext hregistry fun hreopens => hkept ▸ hreopens)
      · refine .inl (opens_of_registry hnext hregistry fun hreopens => ?_)
        rw [hcommit] at hreopens
        exact hreopens.elim
  | restart config => exact absurd rfl (hrestart config)

/-- A selection comes to try a backend only by evaluating it, with a live state that is ready. -/
theorem selectStep_tries {request : Nat} (h : world.selectStep request = some next) (hnext : next.selector.Tries id) :
    world.selector.Tries id ∨
      ∃ live, world.routing.synchronised.backends id = some live ∧ live.readiness = .ready := by
  unfold selectStep at h
  split at h
  · cases h
    exact hnext.elim
  · cases h
    exact hnext.elim
  · cases h
    simp only at hnext
    split at hnext
    · exact hnext.elim
    · obtain ⟨candidate, hmem, rfl⟩ := hnext
      obtain ⟨snapshot, _, hcandidate⟩ := List.mem_filterMap.mp (RoutingState.mem_orderCandidates.mp hmem).1
      obtain ⟨_, live, _, hlive, hready, _, _, rfl⟩ := RoutingState.candidateOf_some hcandidate
      exact .inr ⟨live, hlive, hready⟩
  · cases h
    exact hnext.elim
  · rename_i eligible candidate rest hselector
    rw [hselector]
    split at h
    · cases h
      obtain ⟨other, hmem, hid⟩ := hnext
      exact .inl ⟨other, List.mem_cons_of_mem _ hmem, hid⟩
    · cases h
      rcases hnext with hid | ⟨other, hmem, hid⟩
      · exact .inl ⟨candidate, List.mem_cons_self, hid⟩
      · exact .inl ⟨other, List.mem_cons_of_mem _ hmem, hid⟩
  · rename_i eligible candidate permit rest hselector
    rw [hselector]
    split at h
    · cases h
      exact .inl (.inr hnext)
    · split at h
      · cases h
      · cases h
        exact hnext.elim

theorem step_tries {op : ControlOp} (hrestart : ∀ config, op ≠ .restart config) (h : world.step op = some next)
    (hnext : next.selector.Tries id) :
    world.selector.Tries id ∨ next.published = world.published ∧
      ∃ live, world.routing.synchronised.backends id = some live ∧ live.readiness = .ready := by
  cases op with
  | select request =>
      rcases selectStep_tries h hnext with htries | hready
      · exact .inl htries
      · exact .inr ⟨(selectStep_background h).published, hready⟩
  | request request event =>
      rw [requestStep_selector h] at hnext
      exact .inl hnext
  | readiness | beginScrape | endScrape | elapse =>
      rw [(step_probe rfl h).2.2] at hnext
      exact .inl hnext
  | drain | activate | disable | reload | proceed | drive =>
      rw [(step_locked rfl hrestart h).selector] at hnext
      exact .inl hnext
  | restart config => exact absurd rfl (hrestart config)

theorem proceed_activates {failure : Option String} (h : world.proceed failure = some next)
    (hnext : next.lifecycle.Activates id) : world.lifecycle.Activates id := by
  unfold proceed at h
  split at h
  · cases h
  · split at h <;> cases h <;> exact hnext.elim
  · cases h
    exact hnext.elim
  · cases h
    exact hnext.elim
  · rename_i hlife
    rw [hlife]
    split at h
    · cases h
      exact hnext
    · cases h
      exact hnext.elim
  · obtain ⟨slot, _, rfl⟩ := Option.map_eq_some_iff.mp h
    split at hnext <;> exact hnext.elim
  · split at h <;> cases h <;> exact hnext.elim
  · cases h
    exact hnext.elim
  · split at h <;> cases h <;> exact hnext.elim
  · cases h
    exact hnext.elim
  · cases h
    exact hnext.elim
  · cases h
    exact hnext.elim
  · cases h
    exact hnext.elim
  · split at h <;> cases h <;> exact hnext.elim
  · cases h
    exact hnext.elim
  · cases h
    exact hnext.elim

/-- An activation passes its checks under the current generation. -/
theorem step_activates {op : ControlOp} (hrestart : ∀ config, op ≠ .restart config) (h : world.step op = some next)
    (hnext : next.lifecycle.Activates id) :
    world.lifecycle.Activates id ∨
      ∃ live, world.routing.synchronised.backends id = some live ∧ live.readiness = .ready := by
  cases op with
  | select | request | readiness | beginScrape | endScrape | elapse =>
      rw [(step_background rfl h).lifecycle] at hnext
      exact .inl hnext
  | drain target =>
      obtain ⟨_, rfl⟩ := command_some h
      unfold drain at hnext
      split at hnext
      · exact hnext.elim
      · simp only at hnext
        split at hnext <;> exact hnext.elim
  | activate target =>
      obtain ⟨_, rfl⟩ := command_some h
      rcases activate_lifecycle target world with hlife | ⟨hlife, status, hstatus, hready⟩
      · rw [hlife] at hnext
        exact hnext.elim
      · rw [hlife] at hnext
        obtain rfl : target = id := hnext
        obtain ⟨_, live, _, _, _, _, _, hlive, rfl⟩ := RoutingState.status_some hstatus
        exact .inr ⟨live, hlive, hready⟩
  | disable target force =>
      obtain ⟨_, rfl⟩ := command_some h
      rcases disable_lifecycle target force world with hlife | ⟨_, hlife⟩ <;> rw [hlife] at hnext <;> exact hnext.elim
  | reload config =>
      obtain ⟨_, rfl⟩ := command_some h
      rcases reload_lifecycle config world with hlife | hlife <;> rw [hlife] at hnext <;> exact hnext.elim
  | proceed failure => exact .inl (proceed_activates h hnext)
  | drive index =>
      obtain ⟨_, _, _, _, _, _, hkept | ⟨_, _, _, _, _, hcommit⟩⟩ := driveStep_some h
      · rw [hkept] at hnext
        exact .inl hnext
      · rw [hcommit] at hnext
        exact hnext.elim
  | restart config => exact absurd rfl (hrestart config)

/-- The endpoint of an open slot is the published one. -/
theorem denotes_of_open (h : Coherent world) {slot : SlotState} (hslot : world.registry.find? id = some slot)
    (hregistered : slot.registered = true) (hmode : slot.mode = .active) {backend : Backend}
    (hbackend : world.published.backend id = some backend) : Denotes slot.spec.endpoint backend.url := by
  obtain ⟨⟨found, hmem, hid, hdenotes⟩, _⟩ := h.registered id slot hslot hregistered
  obtain ⟨hpublished, hbackendId⟩ := PublishedRuntime.backend_eq_some_iff.mp hbackend
  unfold ControlWorld.registeredConfig at hmem
  split at hmem
  · -- in the middle of a reload the endpoint is already the new one, which is the same
    rename_i config report pending hlife
    have hchange : topologyChange config.val backend = none := by
      by_contra hchange
      obtain ⟨hdisabled, _⟩ := h.quiet config (by rw [hlife]; rfl) backend hpublished hchange slot (hbackendId ▸ hslot)
      rw [hmode] at hdisabled
      cases hdisabled
    unfold topologyChange at hchange
    rw [hbackendId, ← hid, Backend.lookup_of_mem config.property hmem] at hchange
    simp only at hchange
    split at hchange
    · rename_i hsame
      simp only [Backend.sameEndpoints, Bool.and_eq_true] at hsame
      obtain ⟨uri, hrender, huri⟩ := hdenotes
      exact ⟨uri, hrender, Uri.same_trans huri hsame.1.1⟩
    · cases hchange
  · have hsame := PublishedRuntime.backend_eq_some_iff.mpr ⟨hmem, hid⟩
    obtain rfl : found = backend := Option.some.inj (hsame.symm.trans hbackend)
    exact hdenotes

end ControlWorld

/-- A request comes to hold a lease only as the last step of a selection. -/
theorem ControlWorld.step_holds {world next : ControlWorld} {op : ControlOp} (hrestart : ∀ config, op ≠ .restart config)
    (h : world.step op = some next) {request : Nat} {lease : BackendLease} (hnext : next.Holds request lease) :
    world.Holds request lease ∨ next.published = world.published ∧
      ∃ slot, world.selector.Tries lease.spec.id ∧ world.registry.find? lease.spec.id = some slot ∧
        slot.registered = true ∧ slot.mode = .active ∧ lease.spec = slot.spec := by
  cases op with
  | select selecting =>
      rcases selectStep_some h with
        ⟨_, hrequests⟩ | ⟨_, candidate, permit, _, slot, after, granted, hselector, _, hslot, hacquire, hworld⟩
      · rw [Holds, hrequests] at hnext
        exact .inl hnext
      · obtain ⟨hregistered, hmode, rfl, _⟩ := SlotState.tryAcquire_ok hacquire
        have hrequests : next.requests = Function.update world.requests selecting
            (some (.selected ⟨⟨world.now, slot.nextLeaseSerial⟩, slot.spec⟩ permit)) := by rw [hworld]
        rw [Holds, hrequests] at hnext
        by_cases hrequest : request = selecting
        · subst hrequest
          rw [Function.update_self] at hnext
          cases hnext
          have hid : slot.spec.id = candidate.id := BackendRegistry.slot_id hslot
          refine .inr ⟨by rw [hworld]; rfl, slot, ?_, hid ▸ hslot, hregistered, hmode, rfl⟩
          rw [hselector]
          exact .inl hid.symm
        · rw [Function.update_of_ne hrequest] at hnext
          exact .inl hnext
  | request changed event =>
      obtain ⟨routed, after, hrouted, hrequests, hcases⟩ := requestStep_some h
      rw [Holds, hrequests] at hnext
      by_cases hrequest : request = changed
      · subst hrequest
        rw [Function.update_self] at hnext
        rcases hcases with ⟨_, hkept⟩ | ⟨hdropped, _⟩
        · rw [hkept] at hnext
          refine .inl ?_
          rw [Holds, hrouted]
          exact hnext
        · rw [hdropped] at hnext
          cases hnext
      · rw [Function.update_of_ne hrequest] at hnext
        exact .inl hnext
  | readiness | beginScrape | endScrape | elapse =>
      rw [Holds, (step_probe rfl h).2.1] at hnext
      exact .inl hnext
  | drain | activate | disable | reload | proceed | drive =>
      rw [Holds, (step_locked rfl hrestart h).requests] at hnext
      exact .inl hnext
  | restart config => exact absurd rfl (hrestart config)

/-- What holds of the backends a selection tries, of those being activated and of the leases that are held. -/
structure Endpoints (record : List ControlStep) (world : ControlWorld) : Prop where
  slots : ∀ id backend, world.published.backend id = some backend → ∃ slot, world.registry.find? id = some slot
  /-- A gate that a reload has still to restore belongs to a backend that was never published. -/
  unrestored : ∀ config report pending, world.lifecycle = .reloadRestore config report pending →
    ∀ id slot, world.registry.find? id = some slot → slot.registered = true → slot.mode ≠ world.store.mode id →
      world.published.backend id = none ∧ ¬world.selector.Tries id
  known : ∀ id, world.selector.Tries id → ∃ slot, world.registry.find? id = some slot
  tried : ∀ id, world.selector.Tries id → world.Opens id → world.Verified record id
  activating : ∀ id, world.lifecycle.Activates id → world.Verified record id
  held : ∀ request lease, world.Holds request lease →
    ∃ backend, world.published.backend lease.spec.id = some backend ∧ Denotes lease.spec.endpoint backend.url

namespace Endpoints

variable {record : List ControlStep} {world next : ControlWorld}

theorem boot {config : ValidConfig} {store : BackendStateStore} {now : Nat}
    (h : ControlWorld.boot config store now = some world) (record : List ControlStep) : Endpoints record world := by
  obtain ⟨hrequests, hselector⟩ := ControlWorld.boot_requests h
  obtain ⟨_, _, hfree, _⟩ := ControlWorld.boot_some h
  refine ⟨?_, ?_, ?_, ?_, ?_, ?_⟩
  · intro id backend hbackend
    obtain ⟨hmem, rfl⟩ := PublishedRuntime.backend_eq_some_iff.mp hbackend
    have hpresent := (Coherent.boot h).present
    rw [ControlWorld.registeredConfig, hfree] at hpresent
    obtain ⟨slot, hslot, _⟩ := hpresent backend hmem
    exact ⟨slot, hslot⟩
  · intro _ _ _ hlife
    rw [hfree] at hlife
    cases hlife
  · intro id htries
    rw [hselector] at htries
    exact htries.elim
  · intro id htries
    rw [hselector] at htries
    exact htries.elim
  · intro id hactivates
    rw [hfree] at hactivates
    exact hactivates.elim
  · intro request lease hholds
    rw [ControlWorld.Holds, hrequests request] at hholds
    cases hholds

theorem slot_of_ready (h : Endpoints record world) {id : BackendId} {live : LiveBackend}
    (hlive : world.routing.synchronised.backends id = some live) :
    (∃ backend, world.published.backend id = some backend) ∧ ∃ slot, world.registry.find? id = some slot := by
  obtain ⟨hgeneration, _⟩ := RoutingInner.ensureBackends_some hlive
  obtain ⟨backend, hbackend⟩ := PublishedRuntime.backend_of_generation hgeneration
  exact ⟨⟨backend, hbackend⟩, h.slots id backend hbackend⟩

section Step

variable (h : Endpoints record world) (hcoherent : Coherent world) {op : ControlOp}
  (hrestart : ∀ config, op ≠ .restart config) (hstep : world.step op = some next)

include h hcoherent hrestart hstep

theorem step_slots : ∀ id backend, next.published.backend id = some backend →
    ∃ slot, next.registry.find? id = some slot := by
  intro id backend hbackend
  have hbefore : ∃ slot, world.registry.find? id = some slot := by
    rcases ControlWorld.step_published hrestart hstep with hpublished | ⟨_, config, report, _, hlife, hpublished, _⟩
    · rw [hpublished] at hbackend
      exact h.slots id backend hbackend
    · rw [hpublished] at hbackend
      obtain ⟨hmem, rfl⟩ := PublishedRuntime.backend_eq_some_iff.mp hbackend
      have hpresent := hcoherent.present
      rw [ControlWorld.registeredConfig, hlife] at hpresent
      obtain ⟨slot, hslot, _⟩ := hpresent backend hmem
      exact ⟨slot, hslot⟩
  obtain ⟨slot, hslot⟩ := hbefore
  exact ControlWorld.step_slots hrestart hstep hslot

theorem step_unrestored : ∀ config report pending, next.lifecycle = .reloadRestore config report pending →
    ∀ id slot, next.registry.find? id = some slot → slot.registered = true → slot.mode ≠ next.store.mode id →
      next.published.backend id = none ∧ ¬next.selector.Tries id := by
  intro config report pending hlife id slot hslot hregistered hmode
  have hbefore : world.published.backend id = none ∧ ¬world.selector.Tries id := by
    rcases ControlWorld.step_unrestored hcoherent hrestart hstep hlife hslot hregistered hmode with
      ⟨_, hnone⟩ | ⟨before, old, hbefore, hold, holdRegistered, holdMode⟩
    · refine ⟨?_, ?_⟩
      · cases hbackend : world.published.backend id with
        | none => rfl
        | some backend =>
            obtain ⟨found, hfound⟩ := h.slots id backend hbackend
            rw [hfound] at hnone
            cases hnone
      · intro htries
        obtain ⟨found, hfound⟩ := h.known id htries
        rw [hfound] at hnone
        cases hnone
    · exact h.unrestored config report before hbefore id old hold holdRegistered holdMode
  have hpublished : next.published = world.published := by
    rcases ControlWorld.step_published hrestart hstep with hpublished | ⟨failure, _, _, rfl, hpublishing, _⟩
    · exact hpublished
    · exact (ControlWorld.proceed_restoring hstep hlife).2.2.1
  refine ⟨by rw [hpublished]; exact hbefore.1, ?_⟩
  intro htries
  rcases ControlWorld.step_tries hrestart hstep htries with htries | ⟨_, live, hlive, _⟩
  · exact hbefore.2 htries
  · obtain ⟨⟨backend, hbackend⟩, _⟩ := h.slot_of_ready hlive
    rw [hbefore.1] at hbackend
    cases hbackend

omit hcoherent in
theorem step_known : ∀ id, next.selector.Tries id → ∃ slot, next.registry.find? id = some slot := by
  intro id htries
  have hbefore : ∃ slot, world.registry.find? id = some slot := by
    rcases ControlWorld.step_tries hrestart hstep htries with htries | ⟨_, live, hlive, _⟩
    · exact h.known id htries
    · exact (h.slot_of_ready hlive).2
  obtain ⟨slot, hslot⟩ := hbefore
  exact ControlWorld.step_slots hrestart hstep hslot

theorem step_tried : ∀ id, next.selector.Tries id → next.Opens id →
    next.Verified (⟨world, op, next⟩ :: record) id := by
  intro id htries hopens
  rcases ControlWorld.step_tries hrestart hstep htries with htries | ⟨hpublished, live, hlive, hready⟩
  · -- an open gate keeps the generation of its backend
    have hopened : world.Opens id → next.Verified (⟨world, op, next⟩ :: record) id := by
      intro hbefore
      have hverified := h.tried id htries hbefore
      apply hverified.step hrestart
      rcases ControlWorld.step_published hrestart hstep with hpublished | ⟨_, config, report, _, hlife, _⟩
      · rw [hpublished]
      · obtain ⟨slot, hslot, _, hmode | hreopens⟩ := hbefore
        · obtain ⟨generation, hgeneration, _⟩ := hverified
          rw [hgeneration]
          refine ControlWorld.step_generation hcoherent hrestart hstep hslot ?_ hgeneration
          rw [hmode]
          exact fun hquiet => BackendMode.noConfusion hquiet.1
        · rw [hlife] at hreopens
          exact hreopens.elim
    rcases ControlWorld.step_opens hcoherent hrestart hstep hopens with
      hbefore | hlife | ⟨config, report, pending, slot, hlife, hslot, hregistered⟩
    · exact hopened hbefore
    · refine (h.activating id (by rw [hlife]; rfl)).step hrestart ?_
      rcases ControlWorld.step_published hrestart hstep with hpublished | ⟨_, _, _, _, hpublishing, _⟩
      · rw [hpublished]
      · rw [hlife] at hpublishing
        cases hpublishing
    · have howns := hcoherent.owns
      rw [hlife] at howns
      obtain ⟨hstored, _⟩ := howns (id, .active) List.mem_cons_self
      by_cases hmode : slot.mode = .active
      · exact hopened ⟨slot, hslot, hregistered, .inl hmode⟩
      · exact absurd htries (h.unrestored config report _ hlife id slot hslot hregistered (hstored ▸ hmode)).2
  · exact (ControlWorld.verified_of_ready hlive hready record).step hrestart (by rw [hpublished])

omit hcoherent in
theorem step_activating : ∀ id, next.lifecycle.Activates id → next.Verified (⟨world, op, next⟩ :: record) id := by
  intro id hactivates
  have hbefore : world.Verified record id := by
    rcases ControlWorld.step_activates hrestart hstep hactivates with hbefore | ⟨live, hlive, hready⟩
    · exact h.activating id hbefore
    · exact ControlWorld.verified_of_ready hlive hready record
  apply hbefore.step hrestart
  rcases ControlWorld.step_published hrestart hstep with hpublished | ⟨failure, config, report, rfl, hlife, _⟩
  · rw [hpublished]
  · have hpublishing := ControlWorld.proceed_activates hstep hactivates
    rw [hlife] at hpublishing
    exact hpublishing.elim

theorem step_held (hleased : Leased world) : ∀ request lease, next.Holds request lease →
    ∃ backend, next.published.backend lease.spec.id = some backend ∧ Denotes lease.spec.endpoint backend.url := by
  intro request lease hholds
  rcases ControlWorld.step_holds hrestart hstep hholds with hbefore |
    ⟨hpublished, slot, htries, hslot, hregistered, hmode, hspec⟩
  · obtain ⟨backend, hbackend, hdenotes⟩ := h.held request lease hbefore
    rcases ControlWorld.step_published hrestart hstep with hpublished | ⟨_, config, report, _, hlife, hpublished, _⟩
    · rw [hpublished]
      exact ⟨backend, hbackend, hdenotes⟩
    · -- a reload does not move a backend of which a lease is held
      obtain ⟨slot, hslot, hmem⟩ := hleased.accounted request lease hbefore
      have hbusy : ¬(slot.mode = .disabled ∧ slot.leases = ∅) := by
        rintro ⟨_, hidle⟩
        rw [hidle] at hmem
        exact absurd hmem (Finset.notMem_empty _)
      obtain ⟨new, hnew, hid, hsame, _⟩ := hcoherent.publish_keeps hlife hslot hbusy hbackend
      simp only [Backend.sameEndpoints, Bool.and_eq_true] at hsame
      obtain ⟨uri, hrender, huri⟩ := hdenotes
      rw [hpublished]
      exact ⟨new, PublishedRuntime.backend_eq_some_iff.mpr ⟨hnew, hid⟩, uri, hrender,
        Uri.same_trans huri (Uri.same_symm hsame.1.1)⟩
  · obtain ⟨generation, hgeneration, _⟩ := h.tried _ htries ⟨slot, hslot, hregistered, .inl hmode⟩
    obtain ⟨backend, hbackend⟩ := PublishedRuntime.backend_of_generation hgeneration
    rw [hpublished, hspec]
    rw [hspec] at hslot hbackend
    exact ⟨backend, hbackend, ControlWorld.denotes_of_open hcoherent hslot hregistered hmode hbackend⟩

end Step

theorem step (h : Endpoints record world) (hcoherent : Coherent world) (hleased : Leased world) {op : ControlOp}
    (hstep : world.step op = some next) : Endpoints (⟨world, op, next⟩ :: record) next := by
  by_cases hrestart : ∃ config, op = .restart config
  · obtain ⟨config, rfl⟩ := hrestart
    exact boot (ControlWorld.restart_some hstep).2 _
  have hrestart : ∀ config, op ≠ .restart config := fun config heq => hrestart ⟨config, heq⟩
  exact ⟨h.step_slots hcoherent hrestart hstep, h.step_unrestored hcoherent hrestart hstep, h.step_known hrestart hstep,
    h.step_tried hcoherent hrestart hstep, h.step_activating hrestart hstep,
    h.step_held hcoherent hrestart hstep hleased⟩

theorem of_run {guard : ControlWorld → ControlOp → Prop} (hrun : Run controlSystem guard record world) :
    Endpoints record world := by
  refine hrun.induct (motive := Endpoints) ?_ ?_
  · rintro world ⟨config, store, now, hboot⟩
    exact boot hboot []
  · intro record world op next hrun h _ hnext
    exact h.step (Coherent.of_run hrun) (Leased.of_run hrun) hnext

end Endpoints

/-- Whatever is interleaved, the endpoint of a held lease is the published URL of its backend, and when the lease
was taken the backend had been ready under the generation that is current then. -/
theorem leases_reach_verified_endpoints (record : List ControlStep) (world : ControlWorld)
    (hrun : Run controlSystem Free record world) :
    (∀ request lease, world.Holds request lease → ∃ backend,
        world.published.backend lease.spec.id = some backend ∧ Denotes lease.spec.endpoint backend.url) ∧
      ∀ recent step older request lease, record = recent ++ step :: older → step.after.Holds request lease →
        ¬step.before.Holds request lease → step.after.Verified (step :: older) lease.spec.id := by
  refine ⟨(Endpoints.of_run hrun).held, ?_⟩
  rintro recent ⟨before, op, next⟩ older request lease rfl hholds hnot
  obtain ⟨_, hbefore, _, hstep⟩ := hrun.of_append.cons_inv
  have hrestart : ∀ config, op ≠ .restart config := by
    rintro config rfl
    have hholds : (next.requests request).bind RoutedRequest.lease = some lease := hholds
    rw [(ControlWorld.boot_requests (ControlWorld.restart_some hstep).2).1 request] at hholds
    cases hholds
  rcases ControlWorld.step_holds hrestart hstep hholds with
    hold | ⟨hpublished, slot, htries, hslot, hregistered, hmode, _⟩
  · exact absurd hold hnot
  · exact ((Endpoints.of_run hbefore).tried _ htries ⟨slot, hslot, hregistered, .inl hmode⟩).step hrestart
      (congrArg (PublishedRuntime.backendGeneration lease.spec.id) hpublished)

/-- The lease a selection takes of a backend that was moved while it was suspended. -/
theorem leases_reach_verified_endpoints_moved :
    ∃ step older world lease, Run controlSystem Free (step :: older) world ∧ world.Holds 0 lease ∧
      lease.spec = ⟨"a", "http://b/"⟩ ∧ step.after.Verified (step :: older) lease.spec.id ∧
      ∃ backend, world.published.backend lease.spec.id = some backend ∧ Denotes lease.spec.endpoint backend.url := by
  have hfacts : (ControlWorld.boot singleConfig emptyStore 0).any (fun start =>
      (controlSystem.follow start movedScript.dropLast).any (fun world =>
        ((world.requests 0).bind RoutedRequest.lease).any fun lease => decide (lease.spec = ⟨"a", "http://b/"⟩)) &&
      match controlSystem.recordOf start movedScript.dropLast [] with
      | step :: _ => decide ((step.before.requests 0).bind RoutedRequest.lease = none)
      | [] => false) = true := by
    decide +kernel
  obtain ⟨start, hboot, hfacts⟩ := (Option.any_eq_true _ _).mp hfacts
  obtain ⟨hworld, hrecord⟩ := Bool.and_eq_true_iff.mp hfacts
  obtain ⟨world, hworld, hlease⟩ := (Option.any_eq_true _ _).mp hworld
  obtain ⟨lease, hholds, hspec⟩ := (Option.any_eq_true _ _).mp hlease
  have hstart : Run controlSystem Free [] start := .start ⟨singleConfig, emptyStore, 0, hboot⟩
  have hrun := hstart.follow_unguarded _ hworld (fun _ _ _ => trivial)
  split at hrecord
  · rename_i step older hsteps
    rw [hsteps] at hrun
    obtain ⟨hdenotes, hverified⟩ := leases_reach_verified_endpoints _ world hrun
    obtain ⟨rfl, _⟩ := hrun.cons_inv
    refine ⟨step, older, step.after, lease, hrun, hholds, of_decide_eq_true hspec, ?_, hdenotes 0 lease hholds⟩
    refine hverified [] step older 0 lease rfl hholds ?_
    intro hbefore
    rw [ControlWorld.Holds, of_decide_eq_true hrecord] at hbefore
    cases hbefore
  · cases hrecord

end MistralrsProxy
