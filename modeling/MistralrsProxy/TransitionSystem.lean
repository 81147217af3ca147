import Mathlib.Data.List.Basic
import Mathlib.Data.List.TakeWhile

/-! Systems of interleaved atomic steps, their recorded runs, and the rules the invariants of a run are
proved by. A run is recorded newest step first, so that what happened since a past moment is a prefix of
the record. Nothing here refers to a particular program. -/

namespace Transition

variable {State Action : Type}

/-- A system given by a partial step function: `step state action` is `none` where the action is not
enabled. Concurrency is the free choice of the next action. -/
structure System (State Action : Type) where
  initial : State → Prop
  step : State → Action → Option State

/-- One recorded step of a run. -/
structure Step (State Action : Type) where
  before : State
  action : Action
  after : State

/-- The runs all of whose steps satisfy `guard`, which may read the state before the step and the action. -/
inductive Run (sys : System State Action) (guard : State → Action → Prop) :
    List (Step State Action) → State → Prop
  | start {state : State} : sys.initial state → Run sys guard [] state
  | step {record : List (Step State Action)} {state next : State} (action : Action) :
      Run sys guard record state → guard state action → sys.step state action = some next →
      Run sys guard (⟨state, action, next⟩ :: record) next

/-- The guard of the runs in which every enabled step may be taken. -/
def Free (_ : State) (_ : Action) : Prop := True

namespace Run

variable {sys : System State Action} {guard : State → Action → Prop}
  {record : List (Step State Action)} {state : State}

/-- The invariant rule for properties of the state and of what has been recorded so far. -/
theorem induct {motive : List (Step State Action) → State → Prop}
    (hstart : ∀ state, sys.initial state → motive [] state)
    (hstep : ∀ record state action next, Run sys guard record state → motive record state →
      guard state action → sys.step state action = some next →
      motive (⟨state, action, next⟩ :: record) next)
    (h : Run sys guard record state) : motive record state := by
  induction h with
  | start hinitial => exact hstart _ hinitial
  | step action hrun hguard hnext ih => exact hstep _ _ action _ hrun ih hguard hnext

/-- The invariant rule for properties of the state alone. -/
theorem invariant {I : State → Prop} (hstart : ∀ state, sys.initial state → I state)
    (hstep : ∀ state action next, I state → guard state action → sys.step state action = some next → I next)
    (h : Run sys guard record state) : I state :=
  h.induct (motive := fun _ state => I state) hstart
    (fun _ state action next _ hI hguard hnext => hstep state action next hI hguard hnext)

/-- The last recorded step leads to the state of the run, from a state an older run ends in. -/
theorem cons_inv {last : Step State Action} (h : Run sys guard (last :: record) state) :
    last.after = state ∧ Run sys guard record last.before ∧ guard last.before last.action ∧
      sys.step last.before last.action = some last.after := by
  cases h with
  | step action hrun hguard hnext => exact ⟨rfl, hrun, hguard, hnext⟩

/-- Every recorded step was the last one of an older run. -/
theorem of_append {recent : List (Step State Action)} {last : Step State Action}
    (h : Run sys guard (recent ++ last :: record) state) : Run sys guard (last :: record) last.after := by
  induction recent generalizing state with
  | nil =>
      obtain ⟨rfl, _⟩ := h.cons_inv
      exact h
  | cons _ recent ih => exact ih h.cons_inv.2.1

theorem of_mem {last : Step State Action} (h : Run sys guard record state) (hmem : last ∈ record) :
    ∃ older, Run sys guard (last :: older) last.after ∧ ∃ recent, record = recent ++ last :: older := by
  obtain ⟨recent, older, rfl⟩ := List.append_of_mem hmem
  exact ⟨older, h.of_append, recent, rfl⟩

end Run

/-- The states reached by taking the listed actions in order; `none` once an action is not enabled. -/
def System.follow (sys : System State Action) : State → List Action → Option State
  | state, [] => some state
  | state, action :: rest => (sys.step state action).bind fun next => sys.follow next rest

/-- The record `follow` leaves behind, newest step first. -/
def System.recordOf (sys : System State Action) :
    State → List Action → List (Step State Action) → List (Step State Action)
  | _, [], older => older
  | state, action :: rest, older =>
      match sys.step state action with
      | none => older
      | some next => sys.recordOf next rest (⟨state, action, next⟩ :: older)

theorem System.recordOf_append (sys : System State Action) (state : State) (actions : List Action)
    (older : List (Step State Action)) :
    sys.recordOf state actions older = sys.recordOf state actions [] ++ older := by
  induction actions generalizing state older with
  | nil => rfl
  | cons action rest ih =>
      cases hstep : sys.step state action with
      | none => simp [System.recordOf, hstep]
      | some next =>
          simp only [System.recordOf, hstep]
          rw [ih next (⟨state, action, next⟩ :: older), ih next [⟨state, action, next⟩]]
          simp

/-- A scripted execution is a run, provided each of its steps satisfies the guard. -/
theorem Run.follow {sys : System State Action} {guard : State → Action → Prop}
    {record : List (Step State Action)} {state final : State} (h : Run sys guard record state)
    (actions : List Action)
    (hfollow : sys.follow state actions = some final)
    (hguard : ∀ step ∈ sys.recordOf state actions [], guard step.before step.action) :
    Run sys guard (sys.recordOf state actions record) final := by
  induction actions generalizing record state with
  | nil =>
      cases hfollow
      exact h
  | cons action rest ih =>
      cases hstep : sys.step state action with
      | none => simp [System.follow, hstep] at hfollow
      | some next =>
          simp only [System.follow, hstep, Option.bind_some] at hfollow
          simp only [System.recordOf, hstep] at hguard ⊢
          rw [System.recordOf_append] at hguard
          refine ih (.step action h ?_ hstep) hfollow ?_
          · exact hguard ⟨state, action, next⟩ (by simp)
          · intro step hmem
            exact hguard step (List.mem_append_left _ hmem)

theorem System.action_of_mem_recordOf {sys : System State Action} {actions : List Action} {state : State}
    {step : Step State Action} (h : step ∈ sys.recordOf state actions []) : step.action ∈ actions := by
  induction actions generalizing state with
  | nil => cases h
  | cons action rest ih =>
      cases hstep : sys.step state action with
      | none => simp [System.recordOf, hstep] at h
      | some next =>
          simp only [System.recordOf, hstep] at h
          rw [System.recordOf_append] at h
          rcases List.mem_append.mp h with hmem | hmem
          · exact List.mem_cons_of_mem _ (ih hmem)
          · rw [List.mem_singleton.mp hmem]
            exact List.mem_cons_self

/-- A scripted execution of actions the guard never refuses. -/
theorem Run.follow_unguarded {sys : System State Action} {guard : State → Action → Prop}
    {record : List (Step State Action)} {state final : State} (h : Run sys guard record state)
    (actions : List Action) (hfollow : sys.follow state actions = some final)
    (hguard : ∀ action ∈ actions, ∀ state, guard state action) :
    Run sys guard (sys.recordOf state actions record) final :=
  h.follow actions hfollow (fun step hmem => hguard step.action (System.action_of_mem_recordOf hmem) step.before)

/-- Steps recorded after the last one that satisfies `mark`. -/
def since (mark : Step State Action → Bool) (record : List (Step State Action)) :
    List (Step State Action) :=
  record.takeWhile fun step => !mark step

theorem since_cons_of_not_mark {mark : Step State Action → Bool} {step : Step State Action}
    (record : List (Step State Action)) (h : mark step = false) :
    since mark (step :: record) = step :: since mark record := by
  simp [since, h]

end Transition
