import MistralrsProxy.ControlDraining

/-! What a drain is certified by. The baseline of an operation is the number of scrapes begun when it was
started, and a scrape with a greater serial was begun later; so the two idle scrapes behind a completion were
begun while the backend was draining, unless the operation was started for an earlier drain and joined. -/

open Transition Keyed

namespace MistralrsProxy

def ControlOp.isRestart : ControlOp → Bool
  | .restart _ => true
  | _ => false

/-- The backend starts to drain. Nothing of before a process start counts afterwards. -/
def entersDraining (id : BackendId) (step : ControlStep) : Bool :=
  step.after.draining id && !step.before.draining id || step.action.isRestart

/-- The steps since the backend last started to drain. -/
def sinceDraining (id : BackendId) (record : List ControlStep) : List ControlStep := since (entersDraining id) record

/-- The step begins the scrape with this serial. -/
def Begins (id : BackendId) (serial : Nat) (step : ControlStep) : Prop :=
  ∃ generation scrape, step.action = .beginScrape id generation ∧ step.after.scrapes id = some (generation, scrape) ∧
    scrape.serial = serial

/-- The step completes the scrape with this serial, successfully and with an idle engine. -/
def CompletesIdle (id : BackendId) (serial : Nat) (step : ControlStep) : Prop :=
  ∃ generation scrape metrics, step.action = .endScrape id (.ok metrics) ∧
    step.before.scrapes id = some (generation, scrape) ∧ scrape.serial = serial ∧
    metrics.sequencesRunning = 0 ∧ metrics.sequencesWaiting = 0

/-- Two distinct scrapes were begun and completed idle in these steps. -/
def Certified (id : BackendId) (steps : List ControlStep) : Prop :=
  ∃ first second, first ≠ second ∧
    ((∃ step ∈ steps, Begins id first step) ∧ ∃ step ∈ steps, CompletesIdle id first step) ∧
    (∃ step ∈ steps, Begins id second step) ∧ ∃ step ∈ steps, CompletesIdle id second step

/-- No drain that has fenced a backend joins an operation of an earlier drain of it. -/
def NoStaleJoin (world : ControlWorld) (op : ControlOp) : Prop :=
  ∀ id before failure, op = .proceed failure → world.lifecycle = .drainEnsure id before → before ≠ .draining →
    ∀ operation ∈ world.operations, ControlWorld.joinable id operation = false

/-- The step joins or starts the operation of a drain. -/
def ensuresDrain (step : ControlStep) : Bool :=
  match step.action, step.before.lifecycle with
  | .proceed _, .drainEnsure _ _ => true
  | _, _ => false

theorem ensuresDrain_eq_true {step : ControlStep} {id : BackendId} {before : BackendMode} {failure : Option String}
    (haction : step.action = .proceed failure) (hlife : step.before.lifecycle = .drainEnsure id before) :
    ensuresDrain step = true := by
  simp only [ensuresDrain, haction, hlife]

/-- The holder of the lock is a drain that has fenced the backend, and has still to join or to start an operation. -/
def Lifecycle.Enters (id : BackendId) : Lifecycle → Prop
  | .drainSave target _ | .drainUndo target _ _ => target = id
  | .drainEnsure target before => target = id ∧ before ≠ .draining
  | _ => False

/-- Every serial beyond the baseline was begun, and every one that the idle streak covers was completed idle,
in these steps. -/
structure Evidence (id : BackendId) (steps : List ControlStep) (baseline : Nat) (live : LiveBackend) : Prop where
  begun : ∀ serial, baseline < serial → serial ≤ live.metricsScrapesStarted → ∃ step ∈ steps, Begins id serial step
  idle : ∀ serial, baseline < serial → serial ≤ live.metricsLastCompletedScrape →
    live.metricsLastCompletedScrape < serial + live.engineIdleStreak → ∃ step ∈ steps, CompletesIdle id serial step

namespace Evidence

variable {id : BackendId} {steps : List ControlStep} {baseline : Nat} {live next : LiveBackend} {step : ControlStep}

theorem cons (h : Evidence id steps baseline live) (step : ControlStep) :
    Evidence id (step :: steps) baseline live := by
  refine ⟨?_, ?_⟩
  · intro serial hlt hle
    obtain ⟨found, hmem, hbegins⟩ := h.begun serial hlt hle
    exact ⟨found, List.mem_cons_of_mem _ hmem, hbegins⟩
  · intro serial hlt hle hstreak
    obtain ⟨found, hmem, hcompletes⟩ := h.idle serial hlt hle hstreak
    exact ⟨found, List.mem_cons_of_mem _ hmem, hcompletes⟩

theorem same (h : Evidence id steps baseline live) (hsame : live.SameScrapes next) :
    Evidence id steps baseline next := by
  refine ⟨?_, ?_⟩
  · rw [hsame.metricsScrapesStarted]
    exact h.begun
  · rw [hsame.metricsLastCompletedScrape, hsame.engineIdleStreak]
    exact h.idle

/-- Nothing was begun since the baseline was taken. -/
theorem of_baseline (hstarted : live.metricsScrapesStarted ≤ baseline)
    (hcompleted : live.metricsLastCompletedScrape ≤ live.metricsScrapesStarted) : Evidence id steps baseline live :=
  ⟨fun _ hlt hle => by omega, fun _ hlt hle _ => by omega⟩

theorem beginScrape (h : Evidence id steps baseline live) (dispatches now : Nat)
    (hbegins : Begins id (live.metricsScrapesStarted + 1) step) :
    Evidence id (step :: steps) baseline (live.beginScrape dispatches now).1 := by
  refine ⟨?_, (h.cons step).idle⟩
  intro serial hlt hle
  rcases Nat.lt_or_ge live.metricsScrapesStarted serial with hnew | hold
  · have hserial : serial = live.metricsScrapesStarted + 1 := Nat.le_antisymm hle hnew
    exact ⟨step, List.mem_cons_self, hserial ▸ hbegins⟩
  · exact (h.cons step).begun serial hlt hold

theorem metricsSuccess (h : Evidence id steps baseline live) {metrics : MistralRsMetrics}
    {scrape : MetricsScrapeContext}
    (hserial : scrape.serial = live.metricsLastCompletedScrape + 1) (now : Nat)
    (hcompletes : metrics.engineIdle = true → CompletesIdle id scrape.serial step) :
    Evidence id (step :: steps) baseline (live.metricsSuccess metrics scrape now) := by
  have hlate : ¬scrape.serial ≤ live.metricsLastCompletedScrape := by omega
  simp only [LiveBackend.metricsSuccess, if_neg hlate]
  refine ⟨(h.cons step).begun, ?_⟩
  intro serial hlt hle hstreak
  simp only at hle hstreak
  cases hidle : metrics.engineIdle with
  | false =>
      rw [hidle] at hstreak
      simp only [Bool.false_eq_true, if_false] at hstreak
      omega
  | true =>
      rw [hidle] at hstreak
      simp only [if_true] at hstreak
      rcases Nat.lt_or_ge live.metricsLastCompletedScrape serial with hnew | hold
      · have hsame : serial = scrape.serial := by omega
        exact ⟨step, List.mem_cons_self, hsame ▸ hcompletes hidle⟩
      · have hmin : min (live.engineIdleStreak + 1) u64Max ≤ live.engineIdleStreak + 1 := Nat.min_le_left _ _
        exact (h.cons step).idle serial hlt hold (by omega)

theorem metricsFailure (h : Evidence id steps baseline live) {serial : Nat}
    (hserial : serial = live.metricsLastCompletedScrape + 1) (error : String) (now : Nat) (step : ControlStep) :
    Evidence id (step :: steps) baseline (live.metricsFailure serial error now) := by
  have hlate : ¬serial ≤ live.metricsLastCompletedScrape := by omega
  simp only [LiveBackend.metricsFailure, if_neg hlate]
  refine ⟨(h.cons step).begun, ?_⟩
  intro other hlt hle hstreak
  simp only [Nat.add_zero] at hle hstreak
  omega

/-- Two idle scrapes beyond the baseline. -/
theorem certified (h : Evidence id steps baseline live)
    (hcompleted : live.metricsLastCompletedScrape ≤ live.metricsScrapesStarted) (hstreak : 2 ≤ live.engineIdleStreak)
    (hbaseline : 2 ≤ live.metricsLastCompletedScrape - baseline) : Certified id steps := by
  refine ⟨live.metricsLastCompletedScrape - 1, live.metricsLastCompletedScrape, by omega, ⟨?_, ?_⟩, ?_, ?_⟩
  · exact h.begun _ (by omega) (by omega)
  · exact h.idle _ (by omega) (by omega) (by omega)
  · exact h.begun _ (by omega) hcompleted
  · exact h.idle _ (by omega) le_rfl (by omega)

end Evidence

/-- The operations that can be joined for this backend have the evidence they count. -/
def Evidenced (id : BackendId) (steps : List ControlStep) (world : ControlWorld) : Prop :=
  ∀ operation ∈ world.operations, ControlWorld.joinable id operation = true →
    ∃ live, world.routing.inner.backends id = some live ∧
      world.published.backendGeneration id = some live.topologyGeneration ∧
      Evidence id steps operation.metricsScrapesStartedAtStart live

/-- The operations of a draining backend have the evidence they count, or a drain has still to join one. -/
def Tracked (record : List ControlStep) (world : ControlWorld) : Prop :=
  ∀ id, world.draining id = true → world.lifecycle.Enters id ∨ Evidenced id (sinceDraining id record) world

namespace ControlWorld

variable {world next : ControlWorld} {id : BackendId}

/-- Outside the middle of a reload a registered backend is published. -/
theorem published_of_registered (h : Coherent world) (hlife : ∀ config report pending,
      world.lifecycle ≠ .reloadRestore config report pending) {slot : SlotState}
    (hslot : world.registry.find? id = some slot) (hregistered : slot.registered = true) :
    ∃ backend, world.published.backend id = some backend := by
  obtain ⟨⟨backend, hmem, hid, _⟩, _⟩ := h.registered id slot hslot hregistered
  rw [ControlWorld.registeredConfig] at hmem
  split at hmem
  · rename_i config report pending heq
    exact absurd heq (hlife config report pending)
  · exact ⟨backend, PublishedRuntime.backend_eq_some_iff.mpr ⟨hmem, hid⟩⟩

theorem synchronised_of_generation {generation : Nat} (h : world.published.backendGeneration id = some generation) :
    ∃ live, world.routing.synchronised.backends id = some live ∧ live.topologyGeneration = generation := by
  have hsome : (world.routing.synchronised.backends id).isSome = true := by
    show ((world.published.backendGeneration id).map _).isSome = true
    rw [h]
    rfl
  obtain ⟨live, hlive⟩ := Option.isSome_iff_exists.mp hsome
  have hsame := (RoutingInner.ensureBackends_some hlive).1
  exact ⟨live, hlive, Option.some.inj (hsame.symm.trans h)⟩

/-- The status of a backend that is registered and published. -/
theorem status_of_published {slot : SlotState} {backend : Backend} {live : LiveBackend}
    (hslot : world.registry.find? id = some slot) (hregistered : slot.registered = true)
    (hbackend : world.published.backend id = some backend)
    (hlive : world.routing.synchronised.backends id = some live) :
    ∃ status, world.status id = some status ∧ status.metricsScrapesStarted = live.metricsScrapesStarted ∧
      status.mode = slot.mode := by
  have hgeneration := (RoutingInner.ensureBackends_some hlive).1
  have hget : BackendRegistry.get id world.routing.runtime.registry = some slot :=
    BackendRegistry.get_eq_some_iff.mpr ⟨hslot, hregistered⟩
  have hentry := PublishedRuntime.find?_backendInstances hbackend hgeneration
  refine ⟨statusSnapshot (slot.snapshot world.now) live world.now world.published.config.telemetry.staleAfter, ?_,
    rfl, rfl⟩
  simp only [status, RoutingState.status, hget, Option.bind_some]
  rw [show world.routing.runtime.published = world.published from rfl, hentry]
  simp only [Option.bind_some, hlive, ne_eq, not_true_eq_false, if_false]

/-- A backend that is not disabled keeps its generation. -/
theorem step_generation (h : Coherent world) {op : ControlOp} (hrestart : ∀ config, op ≠ .restart config)
    (hstep : world.step op = some next) {slot : SlotState} (hslot : world.registry.find? id = some slot)
    (hmode : ¬(slot.mode = .disabled ∧ slot.leases = ∅)) {generation : Nat}
    (hgeneration : world.published.backendGeneration id = some generation) :
    next.published.backendGeneration id = some generation := by
  rcases step_published hrestart hstep with hpublished | ⟨_, config, report, _, hlife, hpublished, _⟩
  · rw [hpublished]
    exact hgeneration
  · obtain ⟨old, hold⟩ := PublishedRuntime.backend_of_generation hgeneration
    obtain ⟨_, _, _, _, hsame⟩ := h.publish_keeps hlife hslot hmode hold
    rw [hpublished]
    exact hsame.trans hgeneration

/-- A drain that fences a backend has still to join or to start an operation. -/
theorem drain_enters (hstep : world.step (.drain id) = some next) (hbefore : world.draining id = false)
    (hnext : next.draining id = true) : next.lifecycle.Enters id := by
  obtain ⟨_, rfl⟩ := command_some hstep
  unfold drain at hnext ⊢
  cases hget : BackendRegistry.get id world.registry with
  | none =>
      rw [hget] at hnext
      rw [show world.draining id = true from hnext] at hbefore
      cases hbefore
  | some slot =>
      have hmode : slot.mode ≠ .draining := by
        intro hmode
        obtain ⟨hslot, hregistered⟩ := BackendRegistry.get_eq_some_iff.mp hget
        rw [draining_iff.mpr ⟨slot, hslot, hregistered, hmode⟩] at hbefore
        cases hbefore
      simp only [if_neg hmode]
      exact rfl

/-- The mode that a drain has found and may restore is not `draining`. -/
theorem found_not_draining (hcoherent : Coherent world) (hdraining : world.draining id = true) {before : BackendMode}
    (hlife : world.lifecycle = .drainSave id before ∨ ∃ error, world.lifecycle = .drainUndo id before error) :
    before ≠ .draining := by
  obtain ⟨slot, hslot, hregistered, _⟩ := draining_iff.mp hdraining
  have hgate := (hcoherent.registered id slot hslot hregistered).2
  rcases hlife with hlife | ⟨error, hlife⟩
  · simp only [hlife, Lifecycle.Gate, if_pos] at hgate
    exact hgate.2.2
  · simp only [hlife, Lifecycle.Gate, if_pos] at hgate
    exact hgate.2.2

/-- A fence that is undone puts the mode back that the drain has found. -/
theorem undone_not_draining (hcoherent : Coherent world) (hdraining : world.draining id = true)
    {before : BackendMode} {error : String} (hlife : world.lifecycle = .drainUndo id before error)
    {failure : Option String} (hstep : world.proceed failure = some next) : next.draining id ≠ true := by
  intro hnext
  simp only [proceed, hlife] at hstep
  cases hstep
  obtain ⟨slot, hslot, hregistered, hmode⟩ := draining_iff.mp hnext
  replace hslot :=
    (BackendRegistry.find?_modify (fun slot => SlotState.restore_spec slot before) _ _ _).symm.trans hslot
  rw [if_pos rfl] at hslot
  obtain ⟨old, hold, rfl⟩ := Option.map_eq_some_iff.mp hslot
  rw [SlotState.restore_registered] at hregistered
  rw [SlotState.restore_of_registered hregistered, SlotState.switchMode_mode] at hmode
  exact found_not_draining hcoherent hdraining (.inr ⟨error, hlife⟩) hmode

theorem enters_proceed (hcoherent : Coherent world) (henters : world.lifecycle.Enters id)
    (hdraining : world.draining id = true) {failure : Option String} (hstep : world.proceed failure = some next)
    (hnext : next.draining id = true) :
    next.lifecycle.Enters id ∨ ∃ before, world.lifecycle = .drainEnsure id before ∧ before ≠ .draining := by
  cases hlife : world.lifecycle with
  | drainSave target before =>
      rw [hlife] at henters
      obtain rfl : target = id := henters
      simp only [proceed, hlife] at hstep
      cases failure with
      | none =>
          cases hstep
          exact .inl ⟨rfl, found_not_draining hcoherent hdraining (.inl hlife)⟩
      | some error =>
          cases hstep
          exact .inl rfl
  | drainUndo target before error =>
      rw [hlife] at henters
      obtain rfl : target = id := henters
      exact absurd hnext (undone_not_draining hcoherent hdraining hlife hstep)
  | drainEnsure target before =>
      rw [hlife] at henters
      obtain ⟨rfl, hmode⟩ := henters
      exact .inr ⟨before, rfl, hmode⟩
  | free | activateSave | activateOpen | disableSave | disableClose | reloadReconcile | reloadRestore
  | reloadResume | commitSave | commitClose | commitSend =>
      rw [hlife] at henters
      exact henters.elim

/-- A drain that has fenced a backend goes on until it joins or starts an operation. -/
theorem enters_step (hcoherent : Coherent world) (henters : world.lifecycle.Enters id)
    (hdraining : world.draining id = true) {op : ControlOp} (hrestart : ∀ config, op ≠ .restart config)
    (hstep : world.step op = some next) (hnext : next.draining id = true) :
    next.lifecycle.Enters id ∨
      ∃ failure before, op = .proceed failure ∧ world.lifecycle = .drainEnsure id before ∧ before ≠ .draining := by
  have hbusy : world.lifecycle ≠ .free := by
    intro hfree
    rw [hfree] at henters
    exact henters
  cases op with
  | select | request | readiness | beginScrape | endScrape | elapse =>
      exact .inl ((step_background rfl hstep).lifecycle ▸ henters)
  | drain | activate | disable | reload => exact absurd (command_some hstep).1 hbusy
  | drive driven =>
      obtain ⟨_, _, _, _, _, _, hlife | ⟨_, hfree, _⟩⟩ := driveStep_advance hstep
      · exact .inl (hlife ▸ henters)
      · exact absurd hfree hbusy
  | proceed failure =>
      apply (enters_proceed hcoherent henters hdraining hstep hnext).imp_right
      rintro ⟨before, hlife, hmode⟩
      exact ⟨failure, before, rfl, hlife, hmode⟩
  | restart config => exact absurd rfl (hrestart config)

end ControlWorld

namespace Tracked

variable {record : List ControlStep} {world next : ControlWorld} {id : BackendId}

theorem sinceDraining_cons {step : ControlStep} (h : entersDraining id step = false) :
    sinceDraining id (step :: record) = step :: sinceDraining id record := since_cons_of_not_mark record h

theorem not_enters {op : ControlOp} (hrestart : ∀ config, op ≠ .restart config) (h : world.draining id = true) :
    entersDraining id ⟨world, op, next⟩ = false := by
  have hop : op.isRestart = false := by
    cases op with
    | restart config => exact absurd rfl (hrestart config)
    | _ => rfl
  simp [entersDraining, h, hop]

section Step

variable {steps : List ControlStep} {baseline : Nat} {live : LiveBackend}
  (hlive : world.routing.inner.backends id = some live)
  (hgeneration : world.published.backendGeneration id = some live.topologyGeneration)
  (hevidence : Evidence id steps baseline live)

include hlive hgeneration hevidence

theorem evidence_beginScrape {target : BackendId} {generation : Nat}
    (hstep : world.step (.beginScrape target generation) = some next) :
    ∃ after, next.routing.inner.backends id = some after ∧ after.topologyGeneration = live.topologyGeneration ∧
      Evidence id (⟨world, .beginScrape target generation, next⟩ :: steps) baseline after := by
  obtain ⟨dispatches, hdispatches⟩ : ∃ dispatches,
      ((BackendRegistry.get target world.registry).map SlotState.totalAcquired).getD 0 = dispatches := ⟨_, rfl⟩
  simp only [ControlWorld.step, RoutingInner.beginMetricsScrape, hdispatches] at hstep
  split at hstep
  · cases hstep
  · cases hstep
    have hbackends := RoutingInner.updateLive_of_current hlive hgeneration target generation
      (LiveBackend.beginScrape dispatches world.now)
    by_cases hmatch : id = target ∧ live.topologyGeneration = generation
    · rw [if_pos hmatch] at hbackends
      obtain ⟨rfl, hmatch⟩ := hmatch
      refine ⟨_, hbackends, rfl, hevidence.beginScrape dispatches world.now ?_⟩
      refine ⟨generation, (live.beginScrape dispatches world.now).2, rfl, ?_, rfl⟩
      refine (Function.update_self _ _ _).trans ?_
      rw [RoutingInner.updateLive_result, RoutingInner.ensureBackends_of_current hlive hgeneration, Option.bind_some,
        if_pos hmatch]
      rfl
    · rw [if_neg hmatch] at hbackends
      exact ⟨live, hbackends, rfl, hevidence.cons _⟩

theorem evidence_endScrape (hsequential : Sequential world.published world.routing.inner world.scrapes)
    {target : BackendId} {result : Except String MistralRsMetrics}
    (hstep : world.step (.endScrape target result) = some next) :
    ∃ after, next.routing.inner.backends id = some after ∧ after.topologyGeneration = live.topologyGeneration ∧
      Evidence id (⟨world, .endScrape target result, next⟩ :: steps) baseline after := by
  obtain ⟨⟨generation, scrape⟩, hscrape, rfl⟩ := Option.map_eq_some_iff.mp hstep
  -- the worker completes the serial after the last completed one
  have hserial : id = target ∧ live.topologyGeneration = generation →
      scrape.serial = live.metricsLastCompletedScrape + 1 := by
    rintro ⟨rfl, hmatch⟩
    obtain ⟨hserial, hnext⟩ := hsequential.underWay id generation scrape live hscrape hlive hmatch
    rw [hserial, hnext]
  cases result with
  | ok metrics =>
      have hbackends := RoutingInner.updateLive_of_current hlive hgeneration target generation
        (fun live => (live.metricsSuccess metrics scrape world.now, ()))
      by_cases hmatch : id = target ∧ live.topologyGeneration = generation
      · rw [if_pos hmatch] at hbackends
        have hserial := hserial hmatch
        refine ⟨_, hbackends, by simp [LiveBackend.metricsSuccess, hserial],
          hevidence.metricsSuccess hserial world.now ?_⟩
        intro hidle
        simp only [MistralRsMetrics.engineIdle, Bool.and_eq_true, beq_iff_eq] at hidle
        obtain ⟨rfl, _⟩ := hmatch
        exact ⟨generation, scrape, metrics, rfl, hscrape, rfl, hidle.1, hidle.2⟩
      · rw [if_neg hmatch] at hbackends
        exact ⟨live, hbackends, rfl, hevidence.cons _⟩
  | error error =>
      have hbackends := RoutingInner.updateLive_of_current hlive hgeneration target generation
        (fun live => (live.metricsFailure scrape.serial error world.now, ()))
      by_cases hmatch : id = target ∧ live.topologyGeneration = generation
      · rw [if_pos hmatch] at hbackends
        have hserial := hserial hmatch
        exact ⟨_, hbackends, by simp [LiveBackend.metricsFailure, hserial],
          hevidence.metricsFailure hserial error world.now _⟩
      · rw [if_neg hmatch] at hbackends
        exact ⟨live, hbackends, rfl, hevidence.cons _⟩

/-- The evidence of a backend after one more step. -/
theorem evidence_step (hsequential : Sequential world.published world.routing.inner world.scrapes) {op : ControlOp}
    (hrestart : ∀ config, op ≠ .restart config) (hstep : world.step op = some next) :
    ∃ after, next.routing.inner.backends id = some after ∧ after.topologyGeneration = live.topologyGeneration ∧
      Evidence id (⟨world, op, next⟩ :: steps) baseline after := by
  by_cases hscrape : op.isScrape = false
  · obtain ⟨_, hkept⟩ := ControlWorld.step_scrapesKept hscrape hrestart hstep
    have hafter : ∃ after, next.routing.inner.backends id = some after ∧ live.SameScrapes after := by
      rcases hkept with hkept | hkept
      · exact hkept.kept hlive
      · exact hkept.kept (RoutingInner.ensureBackends_of_current hlive hgeneration)
    obtain ⟨after, hafter, hsame⟩ := hafter
    exact ⟨after, hafter, hsame.topologyGeneration, (hevidence.cons _).same hsame⟩
  · cases op with
    | beginScrape target generation => exact evidence_beginScrape hlive hgeneration hevidence hstep
    | endScrape target result => exact evidence_endScrape hlive hgeneration hevidence hsequential hstep
    | _ => exact absurd rfl hscrape

end Step

theorem boot {config : ValidConfig} {store : BackendStateStore} {now : Nat}
    (h : ControlWorld.boot config store now = some world) (record : List ControlStep) : Tracked record world := by
  intro id hdraining
  refine .inr fun operation hmem _ => ?_
  obtain ⟨_, hfresh⟩ := (Resuming.boot h).2.1 operation hmem
  obtain ⟨_, _, hfree, _⟩ := ControlWorld.boot_some h
  obtain ⟨slot, hslot, hregistered, _⟩ := ControlWorld.draining_iff.mp hdraining
  obtain ⟨backend, hbackend⟩ :=
    ControlWorld.published_of_registered (Coherent.boot h) (by simp [hfree]) hslot hregistered
  obtain ⟨generation, hgeneration⟩ := PublishedRuntime.generation_of_backend hbackend
  refine ⟨LiveBackend.new generation, ?_, hgeneration, Evidence.of_baseline (Nat.zero_le _) le_rfl⟩
  rw [(ControlWorld.boot_live h).1]
  show (world.published.backendGeneration id).map LiveBackend.new = _
  rw [hgeneration]
  rfl

/-- An operation that a step starts counts from the present on. -/
theorem started (hcoherent : Coherent world) (hdrains : Drains world)
    (hsequential : Sequential world.published world.routing.inner world.scrapes)
    (hlife : (∃ before, world.lifecycle = .drainEnsure id before) ∨
      ∃ report pending, world.lifecycle = .reloadResume report (id :: pending))
    (hinner : next.routing.inner = world.routing.synchronised) (steps : List ControlStep) :
    ∃ live, next.routing.inner.backends id = some live ∧
      world.published.backendGeneration id = some live.topologyGeneration ∧
      Evidence id steps (world.newOperation id).metricsScrapesStartedAtStart live := by
  obtain ⟨slot, hslot, hregistered, _⟩ := ControlWorld.draining_iff.mp (hdrains.starting hcoherent hlife)
  have hnot : ∀ config report pending, world.lifecycle ≠ .reloadRestore config report pending := by
    rcases hlife with ⟨_, hlife⟩ | ⟨_, _, hlife⟩ <;> simp [hlife]
  obtain ⟨backend, hbackend⟩ := ControlWorld.published_of_registered hcoherent hnot hslot hregistered
  obtain ⟨generation, hgeneration⟩ := PublishedRuntime.generation_of_backend hbackend
  obtain ⟨live, hlive, rfl⟩ := ControlWorld.synchronised_of_generation hgeneration
  refine ⟨live, by rw [hinner]; exact hlive, hgeneration,
    Evidence.of_baseline ?_ (hsequential.synchronise.completed_le hlive)⟩
  obtain ⟨status, hstatus, hstarted, _⟩ := ControlWorld.status_of_published hslot hregistered hbackend hlive
  show live.metricsScrapesStarted ≤ ((world.status id).map (·.metricsScrapesStarted)).getD 0
  rw [hstatus, ← hstarted]
  exact le_rfl

/-- While a backend drains, its operations keep their evidence and new ones count from the present on. -/
theorem evidenced_step {steps : List ControlStep} (h : Evidenced id steps world) (hcoherent : Coherent world)
    (hdrains : Drains world) (hsequential : Sequential world.published world.routing.inner world.scrapes)
    (hdraining : world.draining id = true) {op : ControlOp} (hrestart : ∀ config, op ≠ .restart config)
    (hstep : world.step op = some next) : Evidenced id (⟨world, op, next⟩ :: steps) next := by
  intro operation hmem hjoinable
  obtain ⟨hid, hphase⟩ := ControlWorld.joinable_iff.mp hjoinable
  obtain ⟨index, hindex⟩ := List.getElem?_of_mem hmem
  obtain ⟨slot, hslot, _, hmode⟩ := ControlWorld.draining_iff.mp hdraining
  have hbusy : ¬(slot.mode = .disabled ∧ slot.leases = ∅) := by
    rw [hmode]
    exact fun hquiet => BackendMode.noConfusion hquiet.1
  rcases (ControlWorld.step_operations hrestart hstep).origin hdrains.sound hindex with
    ⟨old, hold, hidold, hbaseline, _, hdrainingold⟩ | ⟨target, _, rfl, _, hinner, hlife⟩
  · obtain ⟨live, hlive, hgeneration, hevidence⟩ := h old (List.mem_of_getElem? hold)
      (ControlWorld.joinable_iff.mpr ⟨hidold.symm.trans hid, hdrainingold hphase⟩)
    obtain ⟨after, hafter, hsame, hevidence⟩ := evidence_step hlive hgeneration hevidence hsequential hrestart hstep
    refine ⟨after, hafter, ?_, hbaseline ▸ hevidence⟩
    rw [hsame]
    exact ControlWorld.step_generation hcoherent hrestart hstep hslot hbusy hgeneration
  · obtain rfl : target = id := hid
    obtain ⟨live, hlive, hgeneration, hevidence⟩ :=
      started hcoherent hdrains hsequential hlife hinner (⟨world, op, next⟩ :: steps)
    exact ⟨live, hlive, ControlWorld.step_generation hcoherent hrestart hstep hslot hbusy hgeneration, hevidence⟩

theorem step (h : Tracked record world) (hcoherent : Coherent world) (hdrains : Drains world)
    (hsequential : Sequential world.published world.routing.inner world.scrapes) {op : ControlOp}
    (hguard : NoStaleJoin world op) (hstep : world.step op = some next) :
    Tracked (⟨world, op, next⟩ :: record) next := by
  by_cases hrestart : ∃ config, op = .restart config
  · obtain ⟨config, rfl⟩ := hrestart
    exact boot (ControlWorld.restart_some hstep).2 _
  have hrestart : ∀ config, op ≠ .restart config := fun config heq => hrestart ⟨config, heq⟩
  intro id hdraining
  cases hbefore : world.draining id with
  | true =>
      rw [sinceDraining_cons (not_enters hrestart hbefore)]
      have hold : next.lifecycle.Enters id ∨ Evidenced id (sinceDraining id record) world := by
        rcases h id hbefore with henters | hevidenced
        · rcases ControlWorld.enters_step hcoherent henters hbefore hrestart hstep hdraining with
            hkept | ⟨failure, before, rfl, hlife, hmode⟩
          · exact .inl hkept
          · -- the drain finds no operation to join
            refine .inr fun old hmem hjoinable => ?_
            rw [hguard id before failure rfl hlife hmode old hmem] at hjoinable
            cases hjoinable
        · exact .inr hevidenced
      refine hold.imp_right fun hold => ?_
      exact evidenced_step hold hcoherent hdrains hsequential hbefore hrestart hstep
  | false =>
      rcases ControlWorld.step_draining hcoherent hrestart hstep hdraining with
        htrue | rfl | ⟨config, report, pending, slot, hlife, _, hslot, hregistered⟩
      · rw [hbefore] at htrue
        cases htrue
      · exact .inl (ControlWorld.drain_enters hstep hbefore hdraining)
      · have hunused := hdrains.unused_of_restore hcoherent hlife hslot hregistered hbefore
        refine .inr fun operation hmem hjoinable => ?_
        obtain ⟨hid, _⟩ := ControlWorld.joinable_iff.mp hjoinable
        obtain ⟨old, hold, hsame⟩ := hdrains.backendId_of_mem hrestart hstep hmem (by simp [hlife]) (by simp [hlife])
        exact absurd (hsame.symm.trans hid) (hunused old hold)

theorem of_run {guard : ControlWorld → ControlOp → Prop} (hguard : ∀ world op, guard world op → NoStaleJoin world op)
    (hrun : Run controlSystem guard record world) : Tracked record world := by
  refine hrun.induct (motive := Tracked) ?_ ?_
  · rintro world ⟨config, store, now, hboot⟩
    exact boot hboot []
  · intro record world op next hrun h hop hnext
    exact h.step (Coherent.of_run hrun) (Drains.of_run hrun) (Sequential.of_run hrun) (hguard world op hop) hnext

end Tracked

end MistralrsProxy
