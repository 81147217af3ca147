import MistralrsProxy.ControlEvidence
import MistralrsProxy.ControlFence

/-! The completion of a drain. The task of an operation confirms under the lifecycle lock that the proxy and
the engine are idle, saves the disabled state, closes the gate and publishes `complete`. -/

open Transition Keyed

namespace MistralrsProxy

/-- The step publishes the completion of a drain of the backend that was found idle. -/
def PublishesComplete (id : BackendId) (step : ControlStep) : Prop :=
  ∃ failure index confirmed, step.action = .proceed failure ∧ step.before.lifecycle = .commitSend index id confirmed

/-- What the task that holds the lock has confirmed stays true. -/
def Confirmed (record : List ControlStep) (world : ControlWorld) : Prop :=
  ∀ index id, world.lifecycle.committing = some (index, id) →
    Certified id (sinceDraining id record) ∧ ∀ slot, world.registry.find? id = some slot → slot.leases = ∅

theorem Certified.cons {id : BackendId} {steps : List ControlStep} (h : Certified id steps) (step : ControlStep) :
    Certified id (step :: steps) := by
  have hkept : ∀ {P : ControlStep → Prop}, (∃ step ∈ steps, P step) → ∃ found ∈ step :: steps, P found := by
    rintro P ⟨found, hmem, hfound⟩
    exact ⟨found, List.mem_cons_of_mem _ hmem, hfound⟩
  obtain ⟨first, second, hne, ⟨hbegun, hidle⟩, hbegun', hidle'⟩ := h
  exact ⟨first, second, hne, ⟨hkept hbegun, hkept hidle⟩, hkept hbegun', hkept hidle'⟩

namespace Confirmed

variable {record : List ControlStep} {world next : ControlWorld} {id : BackendId}

theorem of_not_committing (h : next.lifecycle.committing = none) : Confirmed record next := by
  intro index id hcommitting
  rw [h] at hcommitting
  cases hcommitting

/-- While a task commits, its backend does not start to drain. -/
theorem not_enters (hcoherent : Coherent world) {op : ControlOp} (hrestart : ∀ config, op ≠ .restart config)
    (hstep : world.step op = some next) {index : Nat} (hcommitting : world.lifecycle.committing = some (index, id)) :
    entersDraining id ⟨world, op, next⟩ = false := by
  have hop : op.isRestart = false := by
    cases op with
    | restart config => exact absurd rfl (hrestart config)
    | _ => rfl
  cases hnext : next.draining id with
  | false => simp [entersDraining, hnext, hop]
  | true =>
      rcases ControlWorld.step_draining hcoherent hrestart hstep hnext with
        hbefore | rfl | ⟨config, report, pending, slot, hlife, _⟩
      · exact Tracked.not_enters hrestart hbefore
      · obtain ⟨hfree, _⟩ := ControlWorld.command_some hstep
        rw [hfree] at hcommitting
        cases hcommitting
      · rw [hlife] at hcommitting
        cases hcommitting

theorem closed (hcoherent : Coherent world) {index : Nat} (hcommitting : world.lifecycle.committing = some (index, id))
    {slot : SlotState} (hslot : world.registry.find? id = some slot) : slot.mode ≠ .active := by
  have howns := hcoherent.owns
  cases hlife : world.lifecycle <;> rw [hlife] at hcommitting howns <;> cases hcommitting <;>
    obtain ⟨found, hfound, _, hmode⟩ := howns <;> rw [hslot, Option.some.injEq] at hfound <;> rw [hfound, hmode] <;>
    exact BackendMode.noConfusion

/-- What a task has read when it takes the lock. -/
theorem of_confirms (htracked : Tracked record world) (hfree : world.lifecycle = .free) (hdrains : Drains world)
    (hsequential : Sequential world.published world.routing.inner world.scrapes) {operation : DrainOperation}
    (hmem : operation ∈ world.operations) (hdriver : operation.driver ≠ .finished) {confirmed : BackendStatusSnapshot}
    (hstatus : world.status operation.backendId = some confirmed) (hconfirms : operation.confirms confirmed = true) :
    Certified operation.backendId (sinceDraining operation.backendId record) ∧
      ∀ slot, world.registry.find? operation.backendId = some slot → slot.leases = ∅ := by
  obtain ⟨slot, read, _, hslot, hregistered, _, hpublished, hread, rfl⟩ := RoutingState.status_some hstatus
  simp only [DrainOperation.confirms, DrainOperation.engineIdle, Bool.and_eq_true, decide_eq_true_eq] at hconfirms
  obtain ⟨⟨hmode, hidle⟩, _, hconfirmed⟩ := hconfirms
  have hphase : operation.progress.phase = .draining := by
    by_contra hphase
    exact hdriver ((hdrains.sound operation hmem).finished.mpr hphase)
  have hdraining : world.draining operation.backendId = true :=
    ControlWorld.draining_iff.mpr ⟨slot, hslot, hregistered, hmode⟩
  have hevidenced : Evidenced operation.backendId (sinceDraining operation.backendId record) world := by
    refine (htracked _ hdraining).resolve_left ?_
    rw [hfree]
    exact id
  obtain ⟨live, hlive, hgeneration, hevidence⟩ := hevidenced operation hmem
    (ControlWorld.joinable_iff.mpr ⟨rfl, hphase⟩)
  obtain rfl : read = live :=
    Option.some.inj (hread.symm.trans (RoutingInner.ensureBackends_of_current hlive hgeneration))
  have hstreak : 2 ≤ read.engineIdleStreak := hconfirmed.trans (Nat.min_le_left _ _)
  obtain ⟨observation, hobservation, hserial⟩ := hsequential.observed _ read hlive (by omega)
  have hbaseline : 2 ≤ read.metricsLastCompletedScrape - operation.metricsScrapesStartedAtStart := by
    have hle := hconfirmed.trans (Nat.min_le_right _ _)
    simp only [statusSnapshot, hobservation, Option.map_some, Option.getD_some, hserial] at hle
    exact hle
  refine ⟨hevidence.certified (hsequential.completed_le hlive) hstreak hbaseline, ?_⟩
  intro found hfound
  obtain rfl : slot = found := Option.some.inj (hslot.symm.trans hfound)
  exact Finset.card_eq_zero.mp hidle

theorem step (h : Confirmed record world) (hcoherent : Coherent world) (hdrains : Drains world)
    (hsequential : Sequential world.published world.routing.inner world.scrapes) (htracked : Tracked record world)
    {op : ControlOp} (hstep : world.step op = some next) : Confirmed (⟨world, op, next⟩ :: record) next := by
  by_cases hrestart : ∃ config, op = .restart config
  · obtain ⟨config, rfl⟩ := hrestart
    obtain ⟨_, _, hfree, _⟩ := ControlWorld.boot_some (ControlWorld.restart_some hstep).2
    exact of_not_committing (by rw [hfree]; rfl)
  have hrestart : ∀ config, op ≠ .restart config := fun config heq => hrestart ⟨config, heq⟩
  -- the holder of the lock stays the same
  have hkept : ∀ {index id}, world.lifecycle.committing = some (index, id) →
      (∀ slot, next.registry.find? id = some slot → slot.leases = ∅) →
      Certified id (sinceDraining id (⟨world, op, next⟩ :: record)) ∧
        ∀ slot, next.registry.find? id = some slot → slot.leases = ∅ := by
    intro index id hcommitting hidle
    rw [Tracked.sinceDraining_cons (not_enters hcoherent hrestart hstep hcommitting)]
    exact ⟨(h index id hcommitting).1.cons _, hidle⟩
  have hlocked : ∀ {index id}, world.lifecycle.committing = some (index, id) →
      BackendRegistry.SameLeases world.registry next.registry →
      ∀ slot, next.registry.find? id = some slot → slot.leases = ∅ := by
    intro index id hcommitting hsame slot hslot
    cases hbefore : world.registry.find? id with
    | none => exact hsame.idle id slot hslot hbefore
    | some before =>
        obtain ⟨after, hafter, hleases⟩ := hsame.kept id before hbefore
        obtain rfl : after = slot := Option.some.inj (hafter.symm.trans hslot)
        rw [hleases.leases]
        exact (h index id hcommitting).2 before hbefore
  cases op with
  | select | request | readiness | beginScrape | endScrape | elapse =>
      have hbackground := ControlWorld.step_background rfl hstep
      intro index id hcommitting
      rw [hbackground.lifecycle] at hcommitting
      apply hkept hcommitting
      intro slot hslot
      obtain ⟨before, hbefore, haged⟩ := hbackground.ages.find hslot
      have hsubset := haged.leases (closed hcoherent hcommitting hbefore)
      rw [(h index id hcommitting).2 before hbefore] at hsubset
      exact Finset.subset_empty.mp hsubset
  | drain | activate | disable | reload =>
      exact of_not_committing (Lifecycle.committing_of_isStart (ControlWorld.command_isStart rfl hstep))
  | proceed failure =>
      intro index id hcommitting
      obtain ⟨hbefore, _⟩ := ControlWorld.proceed_committing hstep hcommitting
      exact hkept hbefore (hlocked hbefore (ControlWorld.locked_proceed hstep).leases)
  | drive driven =>
      intro index id hcommitting
      obtain ⟨old, new, hold, _, _, _, hlife⟩ := ControlWorld.driveStep_advance hstep
      obtain ⟨_, _, _, _, hregistry, _⟩ := ControlWorld.driveStep_some hstep
      rcases hlife with hlife | ⟨_, hfree, status, confirmed, hstatus, hconfirms, hlife⟩
      · rw [hlife] at hcommitting
        exact hkept hcommitting (hlocked hcommitting (BackendRegistry.SameLeases.of_eq hregistry))
      · rw [hlife] at hcommitting
        cases hcommitting
        have hdriver : old.driver ≠ .finished := by
          intro hfinished
          simp only [ControlWorld.step, ControlWorld.driveStep, hold, Option.bind_some, hfinished] at hstep
          cases hstep
        obtain ⟨hcertified, hidle⟩ := of_confirms htracked hfree hdrains hsequential (List.mem_of_getElem? hold) hdriver
          hstatus hconfirms
        obtain ⟨slot, _, _, hslot, hregistered, _, _, _, rfl⟩ := RoutingState.status_some hstatus
        have hmode : slot.mode = .draining := by
          simp only [DrainOperation.confirms, Bool.and_eq_true, decide_eq_true_eq] at hconfirms
          exact hconfirms.1.1
        rw [Tracked.sinceDraining_cons (Tracked.not_enters hrestart
          (ControlWorld.draining_iff.mpr ⟨slot, hslot, hregistered, hmode⟩)), hregistry]
        exact ⟨hcertified.cons _, hidle⟩
  | restart config => exact absurd rfl (hrestart config)

theorem of_run (hrun : Run controlSystem NoStaleJoin record world) : Confirmed record world := by
  refine hrun.induct (motive := Confirmed) ?_ ?_
  · rintro world ⟨config, store, now, hboot⟩
    obtain ⟨_, _, hfree, _⟩ := ControlWorld.boot_some hboot
    exact of_not_committing (by rw [hfree]; rfl)
  · intro record world op next hrun h _ hnext
    exact h.step (Coherent.of_run hrun) (Drains.of_run hrun) (Sequential.of_run hrun)
      (Tracked.of_run (fun _ _ hguard => hguard) hrun) hnext

end Confirmed

/-- As long as no drain joins an operation of an earlier one, a completion is published only when no lease of
the backend is held and two scrapes begun since it last started to drain have found the engine idle. -/
theorem drain_certificate_sound (record : List ControlStep) (world : ControlWorld)
    (hrun : Run controlSystem NoStaleJoin record world) :
    ∀ id recent publication older, record = recent ++ publication :: older → PublishesComplete id publication →
      (∃ (index : Nat) (operation : DrainOperation),
        publication.after.operations[index]? = some operation ∧ operation.backendId = id ∧
        operation.progress.phase = .complete ∧ operation.progress.safeToStop = true) ∧
      (∀ request lease, publication.before.Holds request lease → lease.spec.id ≠ id) ∧
      Certified id (sinceDraining id older) := by
  rintro id recent ⟨before, action, after⟩ older rfl ⟨failure, index, confirmed, haction, hlife⟩
  obtain ⟨_, hbefore, _, hstep⟩ := hrun.of_append.cons_inv
  change action = .proceed failure at haction
  change before.lifecycle = .commitSend index id confirmed at hlife
  subst haction
  have hcommitting : before.lifecycle.committing = some (index, id) := by
    rw [hlife]
    rfl
  obtain ⟨hcertified, hidle⟩ := Confirmed.of_run hbefore index id hcommitting
  refine ⟨?_, ?_, hcertified⟩
  · obtain ⟨operation, hoperation, hid, _⟩ := (Drains.of_run hbefore).committing index id hcommitting
    have hstep : before.proceed failure = some after := hstep
    simp only [ControlWorld.proceed, hlife] at hstep
    cases hstep
    refine ⟨index, { operation with
      progress := operation.progressFromStatus before.now ((before.status id).getD confirmed) .complete true
        (some "proxy and engine are idle")
      driver := .finished }, ?_, hid, rfl, rfl⟩
    exact (congrArg (fun operations => operations[index]?) (ControlWorld.modify_some hoperation _)).trans
      (List.getElem?_set_self (List.getElem?_eq_some_iff.mp hoperation).1)
  · intro request lease hholds
    have howns := (Coherent.of_run hbefore).owns
    rw [hlife] at howns
    obtain ⟨slot, hslot, _⟩ := howns
    exact (Leased.of_run hbefore).unheld hslot (hidle slot hslot) hholds

def idleMetrics : MistralRsMetrics := ⟨0, 0, none, none, none, none, none⟩

/-- One scrape that finds the engine of the backend idle. -/
def idleScrape : List ControlOp := [.beginScrape "a" 1, .endScrape "a" (.ok idleMetrics)]

/-- The backend turns ready and is scraped; then it is drained, and two more scrapes find it idle. -/
def drainedScript : List ControlOp :=
  [.readiness "a" 1 ⟨2000, 1000, 2, 3⟩ none, .readiness "a" 1 ⟨2000, 1000, 2, 3⟩ none] ++ idleScrape ++
    [.drain "a", .proceed none, .proceed none] ++ idleScrape ++ idleScrape

/-- The task of an operation finds the backend idle and commits. -/
def commitScript : List ControlOp := [.drive 0, .drive 0, .proceed none, .proceed none, .proceed none]

/-- Before the task runs the backend is disabled, activated and drained again. -/
def rejoinScript : List ControlOp :=
  drainedScript ++ [.disable "a" false, .proceed none, .proceed none, .activate "a", .proceed none, .proceed none,
    .drain "a", .proceed none, .proceed none] ++ commitScript

/-- The step begins no scrape. -/
def ControlOp.beginsScrape : ControlOp → Bool
  | .beginScrape _ _ => true
  | _ => false

theorem not_certified_of_no_scrape {id : BackendId} {steps : List ControlStep}
    (h : ∀ step ∈ steps, step.action.beginsScrape = false) : ¬Certified id steps := by
  rintro ⟨first, second, _, ⟨⟨step, hmem, generation, scrape, haction, _⟩, _⟩, _⟩
  have hnone := h step hmem
  rw [haction] at hnone
  cases hnone

/-- The joined operation completes without a scrape since the backend last started to drain. -/
theorem drain_certified_by_older_scrapes :
    ∃ record world publication older, Run controlSystem Free record world ∧ record = publication :: older ∧
      PublishesComplete "a" publication ∧
      (world.operations.map fun operation => operation.progress.phase) = [.complete] ∧
      ¬Certified "a" (sinceDraining "a" older) := by
  have hfacts : (ControlWorld.boot singleConfig emptyStore 0).any (fun start =>
      (controlSystem.follow start rejoinScript).any (fun world =>
        decide ((world.operations.map fun operation => operation.progress.phase) = [.complete])) &&
      match controlSystem.recordOf start rejoinScript [] with
      | publication :: older =>
          decide (publication.action = .proceed none) &&
            (match publication.before.lifecycle with
              | .commitSend _ id _ => decide (id = "a")
              | _ => false) &&
            (sinceDraining "a" older).all fun step => !step.action.beginsScrape
      | [] => false) = true := by
    decide +kernel
  obtain ⟨start, hboot, hfacts⟩ := (Option.any_eq_true _ _).mp hfacts
  obtain ⟨hworld, hrecord⟩ := Bool.and_eq_true_iff.mp hfacts
  obtain ⟨world, hworld, hphase⟩ := (Option.any_eq_true _ _).mp hworld
  have hstart : Run controlSystem Free [] start := .start ⟨singleConfig, emptyStore, 0, hboot⟩
  have hrun := hstart.follow_unguarded _ hworld (fun _ _ _ => trivial)
  split at hrecord
  · rename_i publication older hsteps
    simp only [Bool.and_eq_true, decide_eq_true_eq] at hrecord
    obtain ⟨⟨haction, hlife⟩, hscrapes⟩ := hrecord
    split at hlife
    · rename_i index id confirmed heq
      obtain rfl := of_decide_eq_true hlife
      refine ⟨_, world, publication, older, hrun, hsteps, ⟨none, index, confirmed, haction, heq⟩,
        of_decide_eq_true hphase, not_certified_of_no_scrape ?_⟩
      intro step hmem
      exact Bool.not_eq_true' _ ▸ List.all_eq_true.mp hscrapes step hmem
    · cases hlife
  · cases hrecord

theorem drain_certificate_sound_first :
    ∃ publication older world, Run controlSystem NoStaleJoin (publication :: older) world ∧
      PublishesComplete "a" publication ∧ Certified "a" (sinceDraining "a" older) := by
  have hfacts : (ControlWorld.boot singleConfig emptyStore 0).any (fun start =>
      (controlSystem.follow start (drainedScript ++ commitScript)).isSome &&
      (controlSystem.recordOf start (drainedScript ++ commitScript) []).all (fun step =>
        !ensuresDrain step || step.before.operations.isEmpty) &&
      match controlSystem.recordOf start (drainedScript ++ commitScript) [] with
      | publication :: _ =>
          decide (publication.action = .proceed none) &&
            (match publication.before.lifecycle with
              | .commitSend _ id _ => decide (id = "a")
              | _ => false)
      | [] => false) = true := by
    decide +kernel
  obtain ⟨start, hboot, hfacts⟩ := (Option.any_eq_true _ _).mp hfacts
  simp only [Bool.and_eq_true] at hfacts
  obtain ⟨⟨hworld, hdrains⟩, hrecord⟩ := hfacts
  obtain ⟨world, hworld⟩ := Option.isSome_iff_exists.mp hworld
  have hstart : Run controlSystem NoStaleJoin [] start := .start ⟨singleConfig, emptyStore, 0, hboot⟩
  have hrun := hstart.follow _ hworld (fun step hmem => by
    intro id before failure haction hlife _ operation hoperation
    have hnone := List.all_eq_true.mp hdrains step hmem
    rw [ensuresDrain_eq_true haction hlife] at hnone
    rw [List.isEmpty_iff.mp hnone] at hoperation
    cases hoperation)
  split at hrecord
  · rename_i publication older hsteps
    simp only [Bool.and_eq_true, decide_eq_true_eq] at hrecord
    obtain ⟨haction, hlife⟩ := hrecord
    rw [hsteps] at hrun
    split at hlife
    · rename_i index id confirmed heq
      obtain rfl := of_decide_eq_true hlife
      have hpublishes : PublishesComplete "a" publication := ⟨none, index, confirmed, haction, heq⟩
      exact ⟨publication, older, world, hrun, hpublishes,
        (drain_certificate_sound _ world hrun "a" [] publication older rfl hpublishes).2.2⟩
    · cases hlife
  · cases hrecord

end MistralrsProxy
