import Mathlib.Algebra.GroupWithZero.Nat
import Mathlib.Data.List.Basic
import Mathlib.Data.Rat.Defs

/-! Unsigned 64-bit arithmetic on natural numbers. Saturating operations are functions; the plain operators
wrap around, and leave a trace of their operands, so that one can say of a computation that none of its
operations left the range. Nothing here refers to a particular program. -/

namespace Machine

/-- `u64::MAX`. -/
def u64Max : Nat := 2 ^ 64 - 1

/-- `isize::MAX`, which bounds the size of every allocation. -/
def isizeMax : Nat := 2 ^ 63 - 1

def saturatingAdd (left right : Nat) : Nat := min (left + right) u64Max

def saturatingMul (left right : Nat) : Nat := min (left * right) u64Max

/-- One plain operation with its operands; `ratio` is a division of floating point numbers. -/
inductive Operation where
  | add (left right : Nat)
  | sub (left right : Nat)
  | mul (left right : Nat)
  | div (left right : Nat)
  | ratio (left right : Nat)
  deriving DecidableEq, Repr

/-- The operation neither overflows nor divides by zero. -/
def Operation.Fits : Operation → Prop
  | .add left right => left + right ≤ u64Max
  | .sub left right => right ≤ left
  | .mul left right => left * right ≤ u64Max
  | .div _ right => right ≠ 0
  | .ratio _ right => right ≠ 0

/-- A result and the plain operations that went into it. -/
structure Traced (α : Type) where
  value : α
  operations : List Operation

namespace Traced

variable {α β σ : Type}

instance : Monad Traced where
  pure value := ⟨value, []⟩
  bind computation next := ⟨(next computation.value).value,
    computation.operations ++ (next computation.value).operations⟩

@[simp] theorem pure_value (value : α) : (pure value : Traced α).value = value := rfl

@[simp] theorem bind_value (computation : Traced α) (next : α → Traced β) :
    (computation >>= next).value = (next computation.value).value := rfl

def add (left right : Nat) : Traced Nat := ⟨(left + right) % 2 ^ 64, [.add left right]⟩

def sub (left right : Nat) : Traced Nat := ⟨(left + (2 ^ 64 - right)) % 2 ^ 64, [.sub left right]⟩

def mul (left right : Nat) : Traced Nat := ⟨left * right % 2 ^ 64, [.mul left right]⟩

def div (left right : Nat) : Traced Nat := ⟨left / right, [.div left right]⟩

def ratio (left right : Nat) : Traced ℚ := ⟨left / right, [.ratio left right]⟩

/-- No operation of the computation overflows or divides by zero. -/
def InRange (computation : Traced α) : Prop := ∀ operation ∈ computation.operations, operation.Fits

@[simp] theorem inRange_pure (value : α) : (pure value : Traced α).InRange := fun _ h => absurd h List.not_mem_nil

@[simp] theorem inRange_bind {computation : Traced α} {next : α → Traced β} :
    (computation >>= next).InRange ↔ computation.InRange ∧ (next computation.value).InRange := by
  unfold InRange
  constructor
  · intro h
    exact ⟨fun operation hmem => h operation (List.mem_append_left _ hmem),
      fun operation hmem => h operation (List.mem_append_right _ hmem)⟩
  · rintro ⟨hfirst, hsecond⟩ operation hmem
    rcases List.mem_append.mp hmem with hmem | hmem
    · exact hfirst operation hmem
    · exact hsecond operation hmem

@[simp] theorem inRange_add {left right : Nat} : (add left right).InRange ↔ left + right ≤ u64Max := by
  simp [InRange, add, Operation.Fits]

@[simp] theorem inRange_sub {left right : Nat} : (sub left right).InRange ↔ right ≤ left := by
  simp [InRange, sub, Operation.Fits]

@[simp] theorem inRange_mul {left right : Nat} : (mul left right).InRange ↔ left * right ≤ u64Max := by
  simp [InRange, mul, Operation.Fits]

@[simp] theorem inRange_div {left right : Nat} : (div left right).InRange ↔ right ≠ 0 := by
  simp [InRange, div, Operation.Fits]

@[simp] theorem inRange_ratio {left right : Nat} : (ratio left right).InRange ↔ right ≠ 0 := by
  simp [InRange, ratio, Operation.Fits]

theorem add_value {left right : Nat} (h : left + right ≤ u64Max) : (add left right).value = left + right :=
  Nat.mod_eq_of_lt (Nat.lt_of_le_pred (by decide) h)

theorem mul_value {left right : Nat} (h : left * right ≤ u64Max) : (mul left right).value = left * right :=
  Nat.mod_eq_of_lt (Nat.lt_of_le_pred (by decide) h)

theorem sub_value {left right : Nat} (h : right ≤ left) (hleft : left ≤ u64Max) :
    (sub left right).value = left - right := by
  have hmax : u64Max < 2 ^ 64 := by decide
  have hsplit : left + (2 ^ 64 - right) = (left - right) + 2 ^ 64 := by omega
  rw [sub, hsplit, Nat.add_mod_right, Nat.mod_eq_of_lt (by omega)]

@[simp] theorem foldlM_value (step : σ → α → Traced σ) (items : List α) (state : σ) :
    (items.foldlM step state).value = items.foldl (fun state item => (step state item).value) state := by
  induction items generalizing state with
  | nil => rfl
  | cons item items ih => rw [List.foldlM_cons, bind_value, ih, List.foldl_cons]

/-- A loop stays in range if each of its rounds does. -/
theorem inRange_foldlM (step : σ → α → Traced σ) (items : List α) (state : σ) :
    (items.foldlM step state).InRange ↔ ∀ before item after, items = before ++ item :: after →
      (step (before.foldl (fun state item => (step state item).value) state) item).InRange := by
  induction items generalizing state with
  | nil =>
      rw [List.foldlM_nil]
      exact ⟨fun _ before item after h => absurd h (by simp), fun _ => inRange_pure state⟩
  | cons first items ih =>
      rw [List.foldlM_cons, inRange_bind, ih]
      constructor
      · rintro ⟨hfirst, hrest⟩ before item after h
        cases before with
        | nil =>
            obtain ⟨rfl, rfl⟩ := List.cons.inj h
            exact hfirst
        | cons _ before =>
            obtain ⟨rfl, hitems⟩ := List.cons.inj h
            exact hrest before item after hitems
      · intro h
        refine ⟨h [] first items rfl, ?_⟩
        intro before item after hitems
        exact h (first :: before) item after (by rw [hitems]; rfl)

/-- A plain sum stays in range if its result does. -/
theorem inRange_sum (f : α → Nat) (items : List α) (start : Nat) (h : start + (items.map f).sum ≤ u64Max) :
    (items.foldlM (fun sum item => add sum (f item)) start).InRange := by
  induction items generalizing start with
  | nil => exact inRange_pure start
  | cons item items ih =>
      rw [List.map_cons, List.sum_cons] at h
      rw [List.foldlM_cons, inRange_bind, inRange_add, add_value (by omega)]
      exact ⟨by omega, ih _ (by omega)⟩

/-- One computation after the other, with the list of their results. -/
def each (f : α → Traced β) : List α → Traced (List β)
  | [] => pure []
  | item :: items => do
      let result ← f item
      let results ← each f items
      pure (result :: results)

@[simp] theorem each_value (f : α → Traced β) (items : List α) :
    (each f items).value = items.map fun item => (f item).value := by
  induction items with
  | nil => rfl
  | cons item items ih => rw [each, bind_value, bind_value, pure_value, ih, List.map_cons]

theorem inRange_each (f : α → Traced β) (items : List α) :
    (each f items).InRange ↔ ∀ item ∈ items, (f item).InRange := by
  induction items with
  | nil => simp [each]
  | cons item items ih => simp [each, ih]

end Traced

end Machine
