import MistralrsProxy.TransitionSystem

/-! A system together with one who looks at it. The observer moves between the steps of the system, by what it
sees of the state, and changes nothing of it. Nothing here refers to a particular program. -/

namespace Transition

variable {State Action View Look : Type}

/-- The steps of the system and the looks of its observer, interleaved. -/
def System.observed (sys : System State Action) (initial : View → Prop) (see : State → View → Look → Option View) :
    System (State × View) (Action ⊕ Look) where
  initial state := sys.initial state.1 ∧ initial state.2
  step state
    | .inl action => (sys.step state.1 action).map fun next => (next, state.2)
    | .inr look => (see state.1 state.2 look).map fun next => (state.1, next)

/-- The steps of the system among those of a run with an observer. -/
def ownSteps : List (Step (State × View) (Action ⊕ Look)) → List (Step State Action)
  | [] => []
  | ⟨before, .inl action, after⟩ :: older => ⟨before.1, action, after.1⟩ :: ownSteps older
  | ⟨_, .inr _, _⟩ :: older => ownSteps older

/-- A guard for the system; the observer looks when it likes. -/
def Guards (guard : State → Action → Prop) (state : State × View) : Action ⊕ Look → Prop
  | .inl action => guard state.1 action
  | .inr _ => True

namespace Run

variable {sys : System State Action} {guard : State → Action → Prop} {initial : View → Prop}
  {see : State → View → Look → Option View} {record : List (Step (State × View) (Action ⊕ Look))}
  {state : State × View}

/-- Looking at a system does not change its runs. -/
theorem own (h : Run (sys.observed initial see) (Guards guard) record state) :
    Run sys guard (ownSteps record) state.1 := by
  induction h with
  | start hinitial => exact .start hinitial.1
  | step action _ hguard hnext ih =>
      cases action with
      | inl action =>
          obtain ⟨next, hstep, rfl⟩ := Option.map_eq_some_iff.mp hnext
          exact .step action ih hguard hstep
      | inr look =>
          obtain ⟨next, _, rfl⟩ := Option.map_eq_some_iff.mp hnext
          exact ih

/-- The invariant rule for what an observer holds, next to a run of the system: it is kept by the steps of the
system and established by each look. -/
theorem observe {motive : List (Step State Action) → State → View → Prop}
    (hstart : ∀ state view, sys.initial state → initial view → motive [] state view)
    (hstep : ∀ record state view action next, Run sys guard record state → motive record state view →
      guard state action → sys.step state action = some next → motive (⟨state, action, next⟩ :: record) next view)
    (hlook : ∀ record state view look next, Run sys guard record state → motive record state view →
      see state view look = some next → motive record state next)
    (h : Run (sys.observed initial see) (Guards guard) record state) :
    motive (ownSteps record) state.1 state.2 := by
  induction h with
  | start hinitial => exact hstart _ _ hinitial.1 hinitial.2
  | step action hrun hguard hnext ih =>
      cases action with
      | inl action =>
          obtain ⟨next, hmoved, rfl⟩ := Option.map_eq_some_iff.mp hnext
          exact hstep _ _ _ action next hrun.own ih hguard hmoved
      | inr look =>
          obtain ⟨next, hseen, rfl⟩ := Option.map_eq_some_iff.mp hnext
          exact hlook _ _ _ look next hrun.own ih hseen

end Run

end Transition
