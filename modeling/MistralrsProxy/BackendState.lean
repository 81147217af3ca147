import MistralrsProxy.Backend
import Mathlib.Logic.Function.Basic

/-! The durable operator state: which backends are fenced. A missing entry means active, and `active` is
never written. -/

namespace MistralrsProxy

@[ext]
structure BackendStateStore where
  modes : BackendId → Option BackendMode
  valid : ∀ id, modes id ≠ some .active

namespace BackendStateStore

/-- `set_mode` once its save has succeeded; a failed save leaves the store as it was. -/
def setMode (id : BackendId) (mode : BackendMode) (store : BackendStateStore) : BackendStateStore where
  modes := Function.update store.modes id (if mode = .active then none else some mode)
  valid := by
    intro other
    by_cases hother : other = id
    · subst hother
      rw [Function.update_self]
      split
      · exact Option.some_ne_none _ |>.symm
      · rename_i hmode
        exact fun h => hmode (Option.some.inj h)
    · rw [Function.update_of_ne hother]
      exact store.valid other

/-- The mode an entry stands for. -/
def mode (id : BackendId) (store : BackendStateStore) : BackendMode := (store.modes id).getD .active

variable {store : BackendStateStore} {id other : BackendId} {mode : BackendMode}

@[simp] theorem mode_setMode_self : (store.setMode id mode).mode id = mode := by
  cases mode <;> simp [BackendStateStore.mode, setMode]

theorem mode_setMode_of_ne (h : other ≠ id) : (store.setMode id mode).mode other = store.mode other := by
  simp [BackendStateStore.mode, setMode, h]

end BackendStateStore

end MistralrsProxy
