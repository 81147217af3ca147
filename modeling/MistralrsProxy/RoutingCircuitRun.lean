import MistralrsProxy.RoutingCircuit
import Mathlib.Data.List.Perm.Basic
import Mathlib.Data.List.Count

/-! Runs of the circuit of one backend within one topology generation, with any number of requests in
flight. Every epoch is a closed-phase epoch or a trial-phase epoch for good: the phase of the current
epoch is read off the circuit, and the permits and observers of the current epoch are those its phase can
have issued. -/

open Transition

namespace MistralrsProxy

/-- The circuit, the clock, and the permits and body observers still alive somewhere. -/
structure CircuitWorld where
  now : Nat
  breaker : Breaker
  permits : List CircuitPermit
  observers : List BodyFailureObserver

inductive CircuitOp where
  | tryPermit
  | failure (permit : CircuitPermit)
  | neutral (permit : CircuitPermit)
  | success (permit : CircuitPermit)
  | dropPermit (permit : CircuitPermit)
  | bodyFailure (observer : BodyFailureObserver)
  | dropObserver (observer : BodyFailureObserver)
  | elapse (time : Nat)

namespace CircuitWorld

/-- The owner of a permit reports through it; the permit stays alive, marked as resolved. -/
def report (world : CircuitWorld) (permit : CircuitPermit) (result : CircuitPermit × Breaker)
    (observer : Option BodyFailureObserver) : Option CircuitWorld :=
  if permit ∈ world.permits then
    some { world with
      breaker := result.2
      permits := result.1 :: world.permits.erase permit
      observers := observer.toList ++ world.observers }
  else none

def step (id : BackendId) (world : CircuitWorld) : CircuitOp → Option CircuitWorld
  | .tryPermit =>
      match world.breaker.tryCircuitPermit id world.now with
      | none => some world
      | some (breaker, permit) => some { world with breaker := breaker, permits := permit :: world.permits }
  | .failure permit => world.report permit (permit.failure world.now world.breaker) none
  | .neutral permit => world.report permit (permit.neutral world.now world.breaker) none
  | .success permit =>
      let result := permit.successWithBodyObserver world.breaker
      world.report permit (result.1, result.2.1) result.2.2
  | .dropPermit permit =>
      if permit ∈ world.permits then
        some { world with
          breaker := permit.drop world.now world.breaker
          permits := world.permits.erase permit }
      else none
  | .bodyFailure observer =>
      if observer ∈ world.observers then
        some { world with
          breaker := observer.failure world.now world.breaker
          observers := world.observers.erase observer }
      else none
  | .dropObserver observer =>
      if observer ∈ world.observers then some { world with observers := world.observers.erase observer }
      else none
  | .elapse time => some { world with now := world.now + time }

end CircuitWorld

/-- A new topology generation starts with a closed circuit and nothing in flight. -/
def circuitSystem (id : BackendId) : System CircuitWorld CircuitOp where
  initial world := ∃ now, world = ⟨now, Breaker.new, [], []⟩
  step := CircuitWorld.step id

namespace CircuitWorld

variable {id : BackendId} {world next : CircuitWorld} {op : CircuitOp}

/-- The permit is an unresolved trial of the given epoch. -/
def isPendingTrial (epoch : Nat) (permit : CircuitPermit) : Bool :=
  !permit.resolved && permit.trial && permit.circuitEpoch == epoch

theorem isPendingTrial_settled (epoch : Nat) (permit : CircuitPermit) :
    isPendingTrial epoch permit.settled = false := by
  simp [isPendingTrial, CircuitPermit.settled]

/-- How many unresolved trials of the current epoch are alive. -/
def pendingTrials (world : CircuitWorld) : Nat :=
  world.permits.countP (isPendingTrial world.breaker.circuitEpoch)

/-- What the circuit says about the permits and observers of its own epoch. -/
def PhaseOk (world : CircuitWorld) : Prop :=
  match world.breaker.circuit with
  | .closed =>
      world.breaker.consecutiveRequestFailures < circuitFailureThreshold ∧
      ∀ permit ∈ world.permits, permit.circuitEpoch = world.breaker.circuitEpoch → permit.trial = false
  | .opened _ =>
      (∀ permit ∈ world.permits, permit.circuitEpoch ≠ world.breaker.circuitEpoch) ∧
      ∀ observer ∈ world.observers, observer.circuitEpoch ≠ world.breaker.circuitEpoch
  | .halfOpen trialInFlight =>
      (∀ permit ∈ world.permits, permit.circuitEpoch = world.breaker.circuitEpoch → permit.trial = true) ∧
      (∀ observer ∈ world.observers, observer.circuitEpoch ≠ world.breaker.circuitEpoch) ∧
      world.pendingTrials = if trialInFlight then 1 else 0

/-- The invariant: nothing alive carries a future epoch, and the current epoch is classified. -/
structure Classified (world : CircuitWorld) : Prop where
  permits : ∀ permit ∈ world.permits, permit.circuitEpoch ≤ world.breaker.circuitEpoch
  observers : ∀ observer ∈ world.observers, observer.circuitEpoch ≤ world.breaker.circuitEpoch
  phase : world.PhaseOk

/-- Every permit of the first list is one of the second, up to its resolution. -/
def Covers (permits others : List CircuitPermit) : Prop :=
  ∀ permit ∈ permits, ∃ other ∈ others, permit.circuitEpoch = other.circuitEpoch ∧ permit.trial = other.trial

theorem covers_refl (permits : List CircuitPermit) : Covers permits permits :=
  fun permit hmem => ⟨permit, hmem, rfl, rfl⟩

theorem covers_erase (permit : CircuitPermit) (permits : List CircuitPermit) :
    Covers (permits.erase permit) permits :=
  fun other hmem => ⟨other, List.mem_of_mem_erase hmem, rfl, rfl⟩

theorem covers_settled {permit : CircuitPermit} {permits : List CircuitPermit} (hmem : permit ∈ permits) :
    Covers (permit.settled :: permits.erase permit) permits := by
  intro other hother
  rcases List.mem_cons.mp hother with rfl | hother
  · exact ⟨permit, hmem, rfl, rfl⟩
  · exact covers_erase permit permits other hother

theorem countP_eq_erase {permit : CircuitPermit} {permits : List CircuitPermit} (hmem : permit ∈ permits)
    (test : CircuitPermit → Bool) :
    permits.countP test = (permits.erase permit).countP test + if test permit then 1 else 0 := by
  rw [(List.perm_cons_erase hmem).countP_eq test, List.countP_cons]

variable {permit : CircuitPermit} {observer : BodyFailureObserver}

/-- An unresolved trial of the current epoch is the one trial of a half-open circuit. -/
theorem trial_halfOpen (h : Classified world) (hmem : permit ∈ world.permits)
    (hpending : isPendingTrial world.breaker.circuitEpoch permit = true) :
    world.breaker.circuit = .halfOpen true ∧ world.pendingTrials = 1 := by
  have hphase := h.phase
  have hcount := countP_eq_erase hmem (isPendingTrial world.breaker.circuitEpoch)
  rw [if_pos hpending] at hcount
  simp only [isPendingTrial, Bool.and_eq_true, Bool.not_eq_true', beq_iff_eq] at hpending
  unfold PhaseOk at hphase
  split at hphase
  · have := hphase.2 permit hmem hpending.2
    simp [hpending.1.2] at this
  · exact absurd hpending.2 (hphase.1 permit hmem)
  · rename_i trialInFlight hcircuit
    have htrials := hphase.2.2
    cases trialInFlight with
    | true => exact ⟨hcircuit, htrials⟩
    | false =>
        have hzero : world.permits.countP (isPendingTrial world.breaker.circuitEpoch) = 0 := htrials
        omega

theorem plain_closed (h : Classified world) (hmem : permit ∈ world.permits)
    (hepoch : permit.circuitEpoch = world.breaker.circuitEpoch) (htrial : permit.trial = false) :
    world.breaker.circuit = .closed := by
  have hphase := h.phase
  unfold PhaseOk at hphase
  split at hphase
  · assumption
  · exact absurd hepoch (hphase.1 permit hmem)
  · have := hphase.1 permit hmem hepoch
    rw [htrial] at this
    cases this

theorem observer_closed (h : Classified world) (hmem : observer ∈ world.observers)
    (hepoch : observer.circuitEpoch = world.breaker.circuitEpoch) : world.breaker.circuit = .closed := by
  have hphase := h.phase
  unfold PhaseOk at hphase
  split at hphase
  · assumption
  · exact absurd hepoch (hphase.2 observer hmem)
  · exact absurd hepoch (hphase.2.1 observer hmem)

/-- The effects one operation can have on a classified circuit. -/
inductive Effect (world : CircuitWorld) (op : CircuitOp) (next : CircuitWorld) : Prop
  /-- Nothing the circuit of the current epoch can see. -/
  | still (hbreaker : next.breaker = world.breaker) (htrials : next.pendingTrials = world.pendingTrials)
      (hcovers : Covers next.permits world.permits) (hobservers : next.observers ⊆ world.observers)
      (hissued : op = .tryPermit → next = world)
  | issuePlain (permit : CircuitPermit) (hop : op = .tryPermit) (hcircuit : world.breaker.circuit = .closed)
      (hbreaker : next.breaker = world.breaker) (hpermits : next.permits = permit :: world.permits)
      (hepoch : permit.circuitEpoch = world.breaker.circuitEpoch) (htrial : permit.trial = false)
      (hobservers : next.observers = world.observers)
  | issueTrial (permit : CircuitPermit) (hop : op = .tryPermit)
      (hcircuit : world.breaker.circuit = .halfOpen false ∨
        ∃ deadline, world.breaker.circuit = .opened deadline ∧ deadline ≤ world.now)
      (hbreaker : next.breaker = { world.breaker with circuit := .halfOpen true })
      (hpermits : next.permits = permit :: world.permits)
      (hpending : isPendingTrial world.breaker.circuitEpoch permit = true)
      (hobservers : next.observers = world.observers)
  | count (failures : Nat) (hcircuit : world.breaker.circuit = .closed)
      (hbreaker : next.breaker = world.breaker.countFailure failures world.now)
      (hcovers : Covers next.permits world.permits) (hobservers : next.observers ⊆ world.observers)
  | trialFailure (hcircuit : world.breaker.circuit = .halfOpen true)
      (hbreaker : next.breaker = world.breaker.countFailure circuitFailureThreshold world.now)
      (hcovers : Covers next.permits world.permits) (hobservers : next.observers ⊆ world.observers)
  | trialNeutral (hcircuit : world.breaker.circuit = .halfOpen true)
      (hbreaker : next.breaker = { world.breaker with circuit := .halfOpen false })
      (htrials : next.pendingTrials = 0)
      (hcovers : Covers next.permits world.permits) (hobservers : next.observers ⊆ world.observers)
  | plainSuccess (observer : BodyFailureObserver) (hcircuit : world.breaker.circuit = .closed)
      (hbreaker : next.breaker = { world.breaker with circuit := .closed, consecutiveRequestFailures := 0 })
      (hcovers : Covers next.permits world.permits)
      (hobservers : next.observers = observer :: world.observers)
      (hepoch : observer.circuitEpoch = world.breaker.circuitEpoch)
  | trialSuccess (permit : CircuitPermit) (observer : BodyFailureObserver) (hop : op = .success permit)
      (hmem : permit ∈ world.permits) (hpending : isPendingTrial world.breaker.circuitEpoch permit = true)
      (hcircuit : world.breaker.circuit = .halfOpen true)
      (hbreaker : next.breaker = ⟨.closed, world.breaker.circuitEpoch + 1, 0⟩)
      (hcovers : Covers next.permits world.permits)
      (hobservers : next.observers = observer :: world.observers)
      (hepoch : observer.circuitEpoch = world.breaker.circuitEpoch + 1)

theorem report_some {result : CircuitPermit × Breaker} {made : Option BodyFailureObserver}
    (h : world.report permit result made = some next) :
    permit ∈ world.permits ∧ next = { world with
      breaker := result.2
      permits := result.1 :: world.permits.erase permit
      observers := made.toList ++ world.observers } := by
  unfold report at h
  split at h
  · exact ⟨‹_›, (Option.some.inj h).symm⟩
  · cases h

/-- A permit that cannot speak for the current epoch, reporting: nothing changes that the circuit sees. -/
theorem still_of_resolved (hmem : permit ∈ world.permits) (op : CircuitOp) (hop : op ≠ .tryPermit)
    (hquiet : isPendingTrial world.breaker.circuitEpoch permit = false) {marked : CircuitPermit}
    (hmarked : marked = permit ∨ marked = permit.settled) :
    Effect world op { world with permits := marked :: world.permits.erase permit } := by
  have hquiet' : isPendingTrial world.breaker.circuitEpoch marked = false := by
    rcases hmarked with rfl | rfl
    · exact hquiet
    · exact isPendingTrial_settled _ permit
  refine .still rfl ?_ ?_ (List.Subset.refl _) (fun h => absurd h hop)
  · unfold pendingTrials
    rw [countP_eq_erase hmem (isPendingTrial world.breaker.circuitEpoch), List.countP_cons, hquiet, hquiet']
  · rcases hmarked with rfl | rfl
    · intro other hother
      rcases List.mem_cons.mp hother with rfl | hother
      · exact ⟨other, hmem, rfl, rfl⟩
      · exact covers_erase _ _ other hother
    · exact covers_settled hmem

/-- Reporting a failure or a neutral outcome. -/
theorem resolve_effect (hclass : Classified world) (outcome : CircuitOutcome) (op : CircuitOp)
    (hop : op ≠ .tryPermit) (h : world.report permit (permit.resolve outcome world.now world.breaker) none =
      some next) : Effect world op next := by
  obtain ⟨hmem, rfl⟩ := report_some h
  simp only [CircuitPermit.resolve, Option.toList_none, List.nil_append]
  cases hresolved : permit.resolved with
  | true =>
      simpa [hresolved] using still_of_resolved hmem op hop (by simp [isPendingTrial, hresolved]) (Or.inl rfl)
  | false =>
      simp only [Bool.false_eq_true, if_false]
      by_cases hepoch : permit.circuitEpoch = world.breaker.circuitEpoch
      · rw [hepoch]
        rcases Bool.eq_false_or_eq_true permit.trial with htrial | htrial
        · have hpending : isPendingTrial world.breaker.circuitEpoch permit = true := by
            simp [isPendingTrial, hresolved, htrial, hepoch]
          obtain ⟨hcircuit, hone⟩ := trial_halfOpen hclass hmem hpending
          rw [htrial]
          cases outcome with
          | failure =>
              refine .trialFailure hcircuit ?_ (covers_settled hmem) (List.Subset.refl _)
              simp only [Breaker.recordCircuitOutcome_failure, if_true]
          | neutral =>
              rw [Breaker.recordCircuitOutcome_neutral_trial]
              refine .trialNeutral hcircuit rfl ?_ (covers_settled hmem) (List.Subset.refl _)
              have hcount := countP_eq_erase hmem (isPendingTrial world.breaker.circuitEpoch)
              rw [if_pos hpending] at hcount
              unfold pendingTrials at hone ⊢
              rw [List.countP_cons, isPendingTrial_settled]
              simp only [Bool.false_eq_true, if_false]
              omega
        · have hcircuit := plain_closed hclass hmem hepoch htrial
          rw [htrial]
          cases outcome with
          | failure =>
              refine .count (min (world.breaker.consecutiveRequestFailures + 1) u32Max) hcircuit ?_
                (covers_settled hmem) (List.Subset.refl _)
              exact Breaker.recordCircuitOutcome_failure false world.now
          | neutral =>
              rw [Breaker.recordCircuitOutcome_neutral_plain]
              exact still_of_resolved hmem op hop (by simp [isPendingTrial, htrial]) (Or.inr rfl)
      · rw [Breaker.recordCircuitOutcome_of_ne (Ne.symm hepoch)]
        refine still_of_resolved hmem op hop ?_ (Or.inr rfl)
        simp [isPendingTrial, hepoch]

/-- Reporting acceptable headers. -/
theorem success_effect (hclass : Classified world) (h : world.step id (.success permit) = some next) :
    Effect world (.success permit) next := by
  obtain ⟨hmem, rfl⟩ := report_some h
  simp only [CircuitPermit.successWithBodyObserver]
  cases hresolved : permit.resolved with
  | true =>
      simpa [hresolved] using still_of_resolved hmem (.success permit) (by simp)
        (by simp [isPendingTrial, hresolved]) (Or.inl rfl)
  | false =>
      simp only [Bool.false_eq_true, if_false]
      by_cases hepoch : permit.circuitEpoch = world.breaker.circuitEpoch
      · rcases Bool.eq_false_or_eq_true permit.trial with htrial | htrial
        · have hpending : isPendingTrial world.breaker.circuitEpoch permit = true := by
            simp [isPendingTrial, hresolved, htrial, hepoch]
          refine .trialSuccess permit ⟨permit.backendId, world.breaker.circuitEpoch + 1, true⟩ rfl hmem hpending
            (trial_halfOpen hclass hmem hpending).1 ?_ (covers_settled hmem) ?_ rfl
          · simp [Breaker.recordSuccessAndObserver, hepoch, htrial, Breaker.bumpCircuitEpoch]
          · simp [Breaker.recordSuccessAndObserver, hepoch, htrial, Breaker.bumpCircuitEpoch]
        · refine .plainSuccess ⟨permit.backendId, world.breaker.circuitEpoch, false⟩
            (plain_closed hclass hmem hepoch htrial) ?_ (covers_settled hmem) ?_ rfl
          · simp [Breaker.recordSuccessAndObserver, hepoch, htrial]
          · simp [Breaker.recordSuccessAndObserver, hepoch, htrial]
      · rw [Breaker.recordSuccessAndObserver_of_ne (Ne.symm hepoch)]
        refine still_of_resolved hmem _ (by simp) ?_ (Or.inr rfl)
        simp [isPendingTrial, hepoch]

/-- A permit dropped unresolved reports a neutral outcome and disappears. -/
theorem dropPermit_effect (hclass : Classified world) (h : world.step id (.dropPermit permit) = some next) :
    Effect world (.dropPermit permit) next := by
  simp only [step] at h
  split at h
  · rename_i hmem
    cases h
    have hcount := countP_eq_erase hmem (isPendingTrial world.breaker.circuitEpoch)
    have hstill : isPendingTrial world.breaker.circuitEpoch permit = false →
        Effect world (.dropPermit permit) { world with permits := world.permits.erase permit } := by
      intro hquiet
      rw [hquiet] at hcount
      exact .still rfl hcount.symm (covers_erase permit _) (List.Subset.refl _) (by simp)
    simp only [CircuitPermit.drop, CircuitPermit.neutral, CircuitPermit.resolve]
    cases hresolved : permit.resolved with
    | true => exact hstill (by simp [isPendingTrial, hresolved])
    | false =>
        simp only [Bool.false_eq_true, if_false]
        by_cases hepoch : permit.circuitEpoch = world.breaker.circuitEpoch
        · rw [hepoch]
          rcases Bool.eq_false_or_eq_true permit.trial with htrial | htrial
          · have hpending : isPendingTrial world.breaker.circuitEpoch permit = true := by
              simp [isPendingTrial, hresolved, htrial, hepoch]
            obtain ⟨hcircuit, hone⟩ := trial_halfOpen hclass hmem hpending
            rw [htrial, Breaker.recordCircuitOutcome_neutral_trial]
            refine .trialNeutral hcircuit rfl ?_ (covers_erase permit _) (List.Subset.refl _)
            rw [if_pos hpending] at hcount
            unfold pendingTrials at hone ⊢
            dsimp only
            omega
          · rw [htrial, Breaker.recordCircuitOutcome_neutral_plain]
            exact hstill (by simp [isPendingTrial, htrial])
        · rw [Breaker.recordCircuitOutcome_of_ne (Ne.symm hepoch)]
          exact hstill (by simp [isPendingTrial, hepoch])
  · cases h

theorem step_effect (hclass : Classified world) (h : world.step id op = some next) :
    Effect world op next := by
  cases op with
  | tryPermit =>
      simp only [step] at h
      cases hpermit : world.breaker.tryCircuitPermit id world.now with
      | none =>
          rw [hpermit] at h
          cases h
          exact .still rfl rfl (covers_refl _) (List.Subset.refl _) (fun _ => rfl)
      | some issued =>
          obtain ⟨breaker, permit⟩ := issued
          rw [hpermit] at h
          cases h
          obtain ⟨hepoch, hresolved, ⟨hcircuit, htrial, rfl⟩ | ⟨htrial, rfl, hcircuit⟩⟩ :=
            Breaker.tryCircuitPermit_some hpermit
          · exact .issuePlain permit rfl hcircuit rfl rfl hepoch htrial rfl
          · exact .issueTrial permit rfl hcircuit rfl rfl
              (by simp [isPendingTrial, hresolved, htrial, hepoch]) rfl
  | failure permit => exact resolve_effect hclass .failure _ (by simp) h
  | neutral permit => exact resolve_effect hclass .neutral _ (by simp) h
  | success permit => exact success_effect hclass h
  | dropPermit permit => exact dropPermit_effect hclass h
  | bodyFailure observer =>
      simp only [step] at h
      split at h
      · rename_i hmem
        cases h
        simp only [BodyFailureObserver.failure]
        by_cases hepoch : observer.circuitEpoch = world.breaker.circuitEpoch
        · rw [hepoch, Breaker.recordBodyFailure_self]
          exact .count _ (observer_closed hclass hmem hepoch) rfl (covers_refl _) List.erase_subset
        · rw [Breaker.recordBodyFailure_of_ne (Ne.symm hepoch)]
          exact .still rfl rfl (covers_refl _) List.erase_subset (by simp)
      · cases h
  | dropObserver observer =>
      simp only [step] at h
      split at h
      · cases h
        exact .still rfl rfl (covers_refl _) List.erase_subset (by simp)
      · cases h
  | elapse time =>
      cases h
      exact .still rfl rfl (covers_refl _) (List.Subset.refl _) (by simp)

/-- Opening a new epoch leaves every older permit and observer behind. -/
theorem classified_bump (hclass : Classified world) (hcovers : Covers next.permits world.permits)
    (hobservers : ∀ observer ∈ next.observers, observer ∈ world.observers ∨
      observer.circuitEpoch = world.breaker.circuitEpoch + 1 ∧ next.breaker.circuit = .closed)
    (hepoch : next.breaker.circuitEpoch = world.breaker.circuitEpoch + 1)
    (hcircuit : (∃ deadline, next.breaker.circuit = .opened deadline) ∨
      next.breaker.circuit = .closed ∧ next.breaker.consecutiveRequestFailures < circuitFailureThreshold) :
    Classified next := by
  have hpermit : ∀ permit ∈ next.permits, permit.circuitEpoch ≤ world.breaker.circuitEpoch := by
    intro permit hmem
    obtain ⟨other, hother, hsame, -⟩ := hcovers permit hmem
    exact hsame ▸ hclass.permits other hother
  refine ⟨fun permit hmem => ?_, fun observer hmem => ?_, ?_⟩
  · have := hpermit permit hmem
    omega
  · rcases hobservers observer hmem with hold | ⟨hnew, -⟩
    · have := hclass.observers observer hold
      omega
    · omega
  · unfold PhaseOk
    rcases hcircuit with ⟨deadline, hopened⟩ | ⟨hclosed, hfailures⟩
    · rw [hopened]
      refine ⟨fun permit hmem => ?_, fun observer hmem => ?_⟩
      · have := hpermit permit hmem
        omega
      · rcases hobservers observer hmem with hold | ⟨-, hclosed⟩
        · have := hclass.observers observer hold
          omega
        · rw [hopened] at hclosed
          cases hclosed
    · rw [hclosed]
      refine ⟨hfailures, fun permit hmem heq => ?_⟩
      have := hpermit permit hmem
      omega

/-- A step within a closed epoch that keeps the failure count below the threshold. -/
theorem classified_closed (hclass : Classified world) (hcircuit : world.breaker.circuit = .closed)
    (hpermits : ∀ permit ∈ next.permits, (∃ other ∈ world.permits,
      permit.circuitEpoch = other.circuitEpoch ∧ permit.trial = other.trial) ∨
      permit.circuitEpoch = world.breaker.circuitEpoch ∧ permit.trial = false)
    (hobservers : ∀ observer ∈ next.observers, observer ∈ world.observers ∨
      observer.circuitEpoch = world.breaker.circuitEpoch)
    (hepoch : next.breaker.circuitEpoch = world.breaker.circuitEpoch)
    (hclosed : next.breaker.circuit = .closed)
    (hfailures : next.breaker.consecutiveRequestFailures < circuitFailureThreshold) : Classified next := by
  have hphase := hclass.phase
  unfold PhaseOk at hphase
  rw [hcircuit] at hphase
  refine ⟨fun permit hmem => ?_, fun observer hmem => ?_, ?_⟩
  · rcases hpermits permit hmem with ⟨other, hother, hsame, -⟩ | ⟨hsame, -⟩
    · have := hclass.permits other hother
      omega
    · omega
  · rcases hobservers observer hmem with hold | hsame
    · have := hclass.observers observer hold
      omega
    · omega
  · unfold PhaseOk
    rw [hclosed]
    refine ⟨hfailures, fun permit hmem heq => ?_⟩
    rcases hpermits permit hmem with ⟨other, hother, hsame, htrial⟩ | ⟨-, htrial⟩
    · exact htrial.trans (hphase.2 other hother (by omega))
    · exact htrial

theorem classified_step (hclass : Classified world) (h : world.step id op = some next) : Classified next := by
  obtain ⟨hpermits, hobserved, hphase⟩ := hclass
  have hclass : Classified world := ⟨hpermits, hobserved, hphase⟩
  cases step_effect hclass h with
  | still hbreaker htrials hcovers hobservers _ =>
      refine ⟨fun permit hmem => ?_, fun observer hmem => ?_, ?_⟩
      · obtain ⟨other, hother, hsame, -⟩ := hcovers permit hmem
        rw [hsame, hbreaker]
        exact hpermits other hother
      · rw [hbreaker]
        exact hobserved observer (hobservers hmem)
      · unfold PhaseOk at hphase ⊢
        rw [hbreaker]
        split at hphase
        · refine ⟨hphase.1, fun permit hmem hepoch => ?_⟩
          obtain ⟨other, hother, hsame, htrial⟩ := hcovers permit hmem
          exact htrial.trans (hphase.2 other hother (hsame ▸ hepoch))
        · refine ⟨fun permit hmem => ?_, fun observer hmem => hphase.2 observer (hobservers hmem)⟩
          obtain ⟨other, hother, hsame, -⟩ := hcovers permit hmem
          exact hsame ▸ hphase.1 other hother
        · refine ⟨fun permit hmem hepoch => ?_, fun observer hmem => hphase.2.1 observer (hobservers hmem),
            htrials.trans hphase.2.2⟩
          obtain ⟨other, hother, hsame, htrial⟩ := hcovers permit hmem
          exact htrial.trans (hphase.1 other hother (hsame ▸ hepoch))
  | issuePlain permit _ hcircuit hbreaker hissued hepoch htrial hobservers =>
      have hfailures : world.breaker.consecutiveRequestFailures < circuitFailureThreshold := by
        unfold PhaseOk at hphase
        rw [hcircuit] at hphase
        exact hphase.1
      refine classified_closed hclass hcircuit (fun other hmem => ?_) (fun observer hmem => ?_)
        (by rw [hbreaker]) (by rw [hbreaker, hcircuit]) (by rw [hbreaker]; exact hfailures)
      · rw [hissued] at hmem
        rcases List.mem_cons.mp hmem with rfl | hold
        · exact Or.inr ⟨hepoch, htrial⟩
        · exact Or.inl ⟨other, hold, rfl, rfl⟩
      · exact Or.inl (hobservers ▸ hmem)
  | issueTrial permit _ hcircuit hbreaker hissued hpending hobservers =>
      have hepoch : permit.circuitEpoch = world.breaker.circuitEpoch := by
        simp only [isPendingTrial, Bool.and_eq_true, beq_iff_eq] at hpending
        exact hpending.2
      have htrial : permit.trial = true := by
        simp only [isPendingTrial, Bool.and_eq_true] at hpending
        exact hpending.1.2
      -- before the trial no permit of this epoch is pending, whichever of the two states it was in
      have hbefore : (∀ other ∈ world.permits, other.circuitEpoch = world.breaker.circuitEpoch →
          other.trial = true) ∧ (∀ observer ∈ world.observers,
          observer.circuitEpoch ≠ world.breaker.circuitEpoch) ∧ world.pendingTrials = 0 := by
        unfold PhaseOk at hphase
        rcases hcircuit with hcircuit | ⟨deadline, hcircuit, -⟩
        · rw [hcircuit] at hphase
          exact hphase
        · rw [hcircuit] at hphase
          refine ⟨fun other hmem heq => absurd heq (hphase.1 other hmem), hphase.2, ?_⟩
          refine List.countP_eq_zero.mpr fun other hmem => ?_
          simp [isPendingTrial, hphase.1 other hmem]
      refine ⟨fun other hmem => ?_, fun observer hmem => ?_, ?_⟩
      · rw [hissued] at hmem
        rw [hbreaker]
        rcases List.mem_cons.mp hmem with rfl | hold
        · exact hepoch.le
        · exact hpermits other hold
      · rw [hbreaker]
        exact hobserved observer (hobservers ▸ hmem)
      · unfold PhaseOk
        rw [hbreaker]
        refine ⟨fun other hmem heq => ?_, fun observer hmem => hbefore.2.1 observer (hobservers ▸ hmem), ?_⟩
        · rw [hissued] at hmem
          rcases List.mem_cons.mp hmem with rfl | hold
          · exact htrial
          · exact hbefore.1 other hold heq
        · have hzero := hbefore.2.2
          unfold pendingTrials at hzero ⊢
          rw [hissued, hbreaker, List.countP_cons, hzero, hpending]
          rfl
  | count failures hcircuit hbreaker hcovers hobservers =>
      by_cases hfailures : circuitFailureThreshold ≤ failures
      · rw [Breaker.countFailure_opens hfailures] at hbreaker
        exact classified_bump hclass hcovers (fun observer hmem => Or.inl (hobservers hmem))
          (by rw [hbreaker]) (Or.inl ⟨_, by rw [hbreaker]⟩)
      · have hfailures := Nat.not_le.mp hfailures
        rw [Breaker.countFailure_keeps hfailures] at hbreaker
        exact classified_closed hclass hcircuit (fun permit hmem => Or.inl (hcovers permit hmem))
          (fun observer hmem => Or.inl (hobservers hmem)) (by rw [hbreaker]) (by rw [hbreaker, ← hcircuit])
          (by rw [hbreaker]; exact hfailures)
  | trialFailure hcircuit hbreaker hcovers hobservers =>
      rw [Breaker.countFailure_opens le_rfl] at hbreaker
      exact classified_bump hclass hcovers (fun observer hmem => Or.inl (hobservers hmem))
        (by rw [hbreaker]) (Or.inl ⟨_, by rw [hbreaker]⟩)
  | trialNeutral hcircuit hbreaker htrials hcovers hobservers =>
      unfold PhaseOk at hphase
      rw [hcircuit] at hphase
      refine ⟨fun permit hmem => ?_, fun observer hmem => ?_, ?_⟩
      · obtain ⟨other, hother, hsame, -⟩ := hcovers permit hmem
        rw [hsame, hbreaker]
        exact hpermits other hother
      · rw [hbreaker]
        exact hobserved observer (hobservers hmem)
      · unfold PhaseOk
        rw [hbreaker]
        refine ⟨fun permit hmem heq => ?_, fun observer hmem => hphase.2.1 observer (hobservers hmem), htrials⟩
        obtain ⟨other, hother, hsame, htrial⟩ := hcovers permit hmem
        exact htrial.trans (hphase.1 other hother (hsame ▸ heq))
  | plainSuccess observer hcircuit hbreaker hcovers hobservers hepoch =>
      refine classified_closed hclass hcircuit (fun permit hmem => Or.inl (hcovers permit hmem))
        (fun other hmem => ?_) (by rw [hbreaker]) (by rw [hbreaker]) (by rw [hbreaker]; exact Nat.succ_pos 2)
      rw [hobservers] at hmem
      rcases List.mem_cons.mp hmem with rfl | hold
      · exact Or.inr hepoch
      · exact Or.inl hold
  | trialSuccess permit observer _ _ _ hcircuit hbreaker hcovers hobservers hepoch =>
      refine classified_bump hclass hcovers (fun other hmem => ?_) (by rw [hbreaker])
        (Or.inr ⟨by rw [hbreaker], by rw [hbreaker]; exact Nat.succ_pos 2⟩)
      rw [hobservers] at hmem
      rcases List.mem_cons.mp hmem with rfl | hold
      · exact Or.inr ⟨hepoch, by rw [hbreaker]⟩
      · exact Or.inl hold

/-- No trial is pending under a closed or an open circuit. -/
theorem pendingTrials_eq (hclass : Classified world) :
    world.pendingTrials = if world.breaker.circuit = .halfOpen true then 1 else 0 := by
  have hphase := hclass.phase
  unfold PhaseOk at hphase
  split at hphase
  · rename_i hcircuit
    rw [hcircuit, if_neg (by simp)]
    refine List.countP_eq_zero.mpr fun permit hmem hpending => ?_
    simp only [isPendingTrial, Bool.and_eq_true, beq_iff_eq] at hpending
    rw [hphase.2 permit hmem hpending.2] at hpending
    simp at hpending
  · rename_i hcircuit
    rw [hcircuit, if_neg (by simp)]
    refine List.countP_eq_zero.mpr fun permit hmem hpending => ?_
    simp only [isPendingTrial, Bool.and_eq_true, beq_iff_eq] at hpending
    exact hphase.1 permit hmem hpending.2
  · rename_i trialInFlight hcircuit
    rw [hcircuit, hphase.2.2]
    cases trialInFlight <;> simp

end CircuitWorld

open CircuitWorld

variable {id : BackendId} {record : List (Step CircuitWorld CircuitOp)} {world : CircuitWorld}

theorem circuit_classified (h : Run (circuitSystem id) Free record world) : Classified world := by
  refine h.invariant (I := Classified) ?_ (fun _ _ _ hclass _ hstep => classified_step hclass hstep)
  rintro _ ⟨now, rfl⟩
  exact ⟨by simp, by simp, by simp [PhaseOk, Breaker.new, circuitFailureThreshold]⟩

/-- A closed circuit has counted fewer failures than the threshold. -/
theorem closed_failures_lt (h : Run (circuitSystem id) Free record world)
    (hclosed : world.breaker.circuit = .closed) :
    world.breaker.consecutiveRequestFailures < circuitFailureThreshold := by
  have hphase := (circuit_classified h).phase
  unfold PhaseOk at hphase
  rw [hclosed] at hphase
  exact hphase.1

/-- The step handed out a trial permit of an open circuit past its deadline. -/
def ReopensOnTrial (deadline : Nat) (step : Step CircuitWorld CircuitOp) : Prop :=
  step.action = .tryPermit ∧ deadline ≤ step.before.now ∧ step.after.breaker.circuit = .halfOpen true ∧
    ∃ permit, step.after.permits = permit :: step.before.permits ∧
      isPendingTrial step.after.breaker.circuitEpoch permit = true

/-- The step left the breaker alone and issued no permit. -/
def LeavesOpen (step : Step CircuitWorld CircuitOp) : Prop :=
  step.after.breaker = step.before.breaker ∧ (step.action = .tryPermit → step.after = step.before)

/-- The step is the success of an unresolved trial of the current epoch. -/
def SucceedsTrial (step : Step CircuitWorld CircuitOp) : Prop :=
  ∃ permit ∈ step.before.permits, step.action = .success permit ∧
    isPendingTrial step.before.breaker.circuitEpoch permit = true

/-- The state-machine invariant of a circuit, over every run of one topology generation: a trial is in
flight exactly when one unresolved trial permit of the current epoch is alive; a closed circuit has counted
fewer failures than the threshold; an open circuit is changed only by a trial permit issued past its
deadline; and a half-open circuit closes only through the success of its trial. -/
theorem circuit_state_machine_sound (h : Run (circuitSystem id) Free record world) :
    (world.breaker.circuit = .halfOpen true ↔ world.pendingTrials = 1) ∧ world.pendingTrials ≤ 1 ∧
    (world.breaker.circuit = .closed → world.breaker.consecutiveRequestFailures < circuitFailureThreshold) ∧
    (∀ step ∈ record, ∀ deadline, step.before.breaker.circuit = .opened deadline →
      LeavesOpen step ∨ ReopensOnTrial deadline step) ∧
    ∀ step ∈ record, ∀ trialInFlight, step.before.breaker.circuit = .halfOpen trialInFlight →
      step.after.breaker.circuit = .closed → SucceedsTrial step := by
  have hclass := circuit_classified h
  have hpending := pendingTrials_eq hclass
  have heffect : ∀ step ∈ record, Effect step.before step.action step.after := by
    intro step hmem
    obtain ⟨older, hrun, -⟩ := h.of_mem hmem
    obtain ⟨-, hbefore, -, hstep⟩ := hrun.cons_inv
    exact step_effect (circuit_classified hbefore) hstep
  refine ⟨?_, ?_, closed_failures_lt h, ?_, ?_⟩
  · rw [hpending]
    split <;> simp_all
  · rw [hpending]
    split <;> simp
  · intro step hmem deadline hopened
    cases heffect step hmem with
    | still hbreaker _ _ _ hissued => exact Or.inl ⟨hbreaker, hissued⟩
    | issueTrial permit hop hcircuit hbreaker hpermits hpending _ =>
        rcases hcircuit with hcircuit | ⟨other, hcircuit, hdeadline⟩
        · rw [hopened] at hcircuit
          cases hcircuit
        · rw [hopened] at hcircuit
          cases hcircuit
          exact Or.inr ⟨hop, hdeadline, by rw [hbreaker], permit, hpermits, by rw [hbreaker]; exact hpending⟩
    | issuePlain _ _ hcircuit => rw [hopened] at hcircuit; cases hcircuit
    | count _ hcircuit => rw [hopened] at hcircuit; cases hcircuit
    | trialFailure hcircuit => rw [hopened] at hcircuit; cases hcircuit
    | trialNeutral hcircuit => rw [hopened] at hcircuit; cases hcircuit
    | plainSuccess _ hcircuit => rw [hopened] at hcircuit; cases hcircuit
    | trialSuccess _ _ _ _ _ hcircuit => rw [hopened] at hcircuit; cases hcircuit
  · intro step hmem trialInFlight hhalf hclosed
    cases heffect step hmem with
    | still hbreaker => rw [hbreaker, hhalf] at hclosed; cases hclosed
    | issueTrial _ _ _ hbreaker => rw [hbreaker] at hclosed; cases hclosed
    | issuePlain _ _ hcircuit => rw [hhalf] at hcircuit; cases hcircuit
    | count _ hcircuit => rw [hhalf] at hcircuit; cases hcircuit
    | trialFailure _ hbreaker =>
        rw [hbreaker, Breaker.countFailure_opens le_rfl] at hclosed
        cases hclosed
    | trialNeutral _ hbreaker => rw [hbreaker] at hclosed; cases hclosed
    | plainSuccess _ hcircuit => rw [hhalf] at hcircuit; cases hcircuit
    | trialSuccess permit _ hop hmem hpending => exact ⟨permit, hmem, hop, hpending⟩

/-- Three failures in a row, ten seconds, and the trial permit of the reopened circuit. -/
def reopenScript : List CircuitOp :=
  let plain : CircuitPermit := ⟨"a", 0, false, false⟩
  [.tryPermit, .failure plain, .tryPermit, .failure plain, .tryPermit, .failure plain,
    .elapse circuitOpenFor, .tryPermit]

theorem circuit_state_machine_sound_trial :
    ∃ world, (circuitSystem "a").follow ⟨0, Breaker.new, [], []⟩ reopenScript = some world ∧
      world.breaker.circuit = .halfOpen true ∧ world.pendingTrials = 1 := by
  have hstart : Run (circuitSystem "a") Free [] ⟨0, Breaker.new, [], []⟩ := .start ⟨0, rfl⟩
  have hrun := hstart.follow reopenScript rfl (fun _ _ => trivial)
  exact ⟨_, rfl, rfl, (circuit_state_machine_sound hrun).1.mp rfl⟩

end MistralrsProxy
