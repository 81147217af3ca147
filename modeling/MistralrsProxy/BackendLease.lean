import MistralrsProxy.TransitionSystem
import MistralrsProxy.Backend
import Mathlib.Data.Finset.Dedup
import Mathlib.Tactic.Ring

/-! Runs of one `BackendSlot`: lease accounting is exact, a drain token keeps the gate closed for as long
as its epoch lasts, and a successful wait on a token is never a false one. The argument rests on one fact
about every operation: it never lowers the mode epoch, and it keeps the mode whenever it keeps the epoch. -/

open Transition

namespace MistralrsProxy

/-- The operations on one slot, each atomic under the slot's mutex. Dropping a lease needs its handle. -/
inductive SlotOp where
  | tryAcquire (now : Nat)
  | drop (lease : BackendLease)
  | beginDrain
  | activate
  | disable
  | reconcilePresent (spec : BackendSpec)
  | reconcileAbsent

/-- A slot together with the leases acquired from it and not yet dropped. -/
structure SlotWorld where
  slot : SlotState
  held : List BackendLease

namespace SlotWorld

def step (world : SlotWorld) : SlotOp → Option SlotWorld
  | .tryAcquire now =>
      match world.slot.tryAcquire now with
      | .ok (slot, lease) => some ⟨slot, lease :: world.held⟩
      | .error _ => some world
  | .drop lease =>
      if lease ∈ world.held then
        (world.slot.release lease.key).map fun slot => ⟨slot, world.held.erase lease⟩
      else none
  | .beginDrain => some { world with slot := world.slot.beginDrain.1 }
  | .activate =>
      match world.slot.activate with
      | .ok slot => some { world with slot := slot }
      | .error _ => some world
  | .disable => some { world with slot := world.slot.disable }
  -- the registry hands a slot only specifications of its own identity
  | .reconcilePresent spec =>
      if spec.id = world.slot.spec.id then some { world with slot := (world.slot.reconcilePresent spec).1 }
      else none
  | .reconcileAbsent => some { world with slot := world.slot.reconcileAbsent.1 }

end SlotWorld

/-- A slot starts with any specification and mode, and no lease. -/
def slotSystem : System SlotWorld SlotOp where
  initial world := ∃ spec mode, world = ⟨SlotState.new spec mode, []⟩
  step := SlotWorld.step

namespace SlotWorld

variable {world next : SlotWorld} {op : SlotOp}

/-- What one operation can do: acquire, drop, or leave the leases alone while it moves the gate. -/
theorem step_cases (h : world.step op = some next) :
    (∃ now, op = .tryAcquire now ∧ world.slot.registered = true ∧ world.slot.mode = .active ∧
      next.held = ⟨⟨now, world.slot.nextLeaseSerial⟩, world.slot.spec⟩ :: world.held ∧
      next.slot = SlotState.publish { world.slot with
        nextLeaseSerial := world.slot.nextLeaseSerial + 1
        totalAcquired := world.slot.totalAcquired + 1
        leases := insert ⟨now, world.slot.nextLeaseSerial⟩ world.slot.leases }) ∨
    (∃ lease, op = .drop lease ∧ lease ∈ world.held ∧ lease.key ∈ world.slot.leases ∧
      next.held = world.held.erase lease ∧
      next.slot = SlotState.publish { world.slot with leases := world.slot.leases.erase lease.key }) ∨
    (next.held = world.held ∧ next.slot.leases = world.slot.leases ∧
      next.slot.nextLeaseSerial = world.slot.nextLeaseSerial ∧ next.slot.spec.id = world.slot.spec.id ∧
      (next.slot.mode = world.slot.mode ∧ next.slot.modeEpoch = world.slot.modeEpoch ∨
        next.slot.mode ≠ world.slot.mode ∧ next.slot.modeEpoch = world.slot.modeEpoch + 1 ∧
          (next.slot.mode = .draining → op = .beginDrain))) := by
  have hswitch : ∀ mode : BackendMode, (mode = .draining → op = .beginDrain) →
      (world.slot.switchMode mode).mode = world.slot.mode ∧
        (world.slot.switchMode mode).modeEpoch = world.slot.modeEpoch ∨
      (world.slot.switchMode mode).mode ≠ world.slot.mode ∧
        (world.slot.switchMode mode).modeEpoch = world.slot.modeEpoch + 1 ∧
        ((world.slot.switchMode mode).mode = .draining → op = .beginDrain) := by
    intro mode hdrain
    by_cases hmode : world.slot.mode = mode
    · exact Or.inl ⟨by simp [hmode], by simp [hmode]⟩
    · exact Or.inr ⟨by simp [Ne.symm hmode], by simp [hmode], by simpa using hdrain⟩
  cases op with
  | tryAcquire now =>
      simp only [step] at h
      cases hacquire : world.slot.tryAcquire now with
      | error error =>
          simp only [hacquire, Option.some.injEq] at h
          subst h
          exact Or.inr (Or.inr ⟨rfl, rfl, rfl, rfl, Or.inl ⟨rfl, rfl⟩⟩)
      | ok result =>
          obtain ⟨slot, lease⟩ := result
          simp only [hacquire, Option.some.injEq] at h
          subst h
          obtain ⟨hregistered, hmode, rfl, rfl⟩ := SlotState.tryAcquire_ok hacquire
          exact Or.inl ⟨now, rfl, hregistered, hmode, rfl, rfl⟩
  | drop lease =>
      simp only [step] at h
      split at h
      · rename_i hheld
        obtain ⟨slot, hrelease, rfl⟩ := Option.map_eq_some_iff.mp h
        obtain ⟨hmem, rfl⟩ := SlotState.release_some hrelease
        exact Or.inr (Or.inl ⟨lease, rfl, hheld, hmem, rfl, rfl⟩)
      · cases h
  | beginDrain =>
      cases h
      exact Or.inr (Or.inr ⟨rfl, by simp [SlotState.beginDrain], by simp [SlotState.beginDrain],
        by simp [SlotState.beginDrain], hswitch .draining (fun _ => rfl)⟩)
  | activate =>
      simp only [step, SlotState.activate, SlotState.setMode] at h
      split at h
      · rename_i slot hset
        split at hset
        · cases hset
        · cases hset
          cases h
          exact Or.inr (Or.inr ⟨rfl, by simp, by simp, by simp, hswitch .active (by simp)⟩)
      · cases h
        exact Or.inr (Or.inr ⟨rfl, rfl, rfl, rfl, Or.inl ⟨rfl, rfl⟩⟩)
  | disable =>
      cases h
      exact Or.inr (Or.inr ⟨rfl, by simp [SlotState.disable], by simp [SlotState.disable],
        by simp [SlotState.disable], hswitch .disabled (by simp)⟩)
  | reconcilePresent spec =>
      simp only [step] at h
      split at h
      · rename_i hid
        cases h
        exact Or.inr (Or.inr ⟨rfl, by simp, by simp, by simpa using hid, Or.inl ⟨by simp, by simp⟩⟩)
      · cases h
  | reconcileAbsent =>
      cases h
      refine Or.inr (Or.inr ⟨rfl, by simp, by simp, by simp, ?_⟩)
      obtain ⟨hmode, hepoch⟩ := SlotState.reconcileAbsent_mode world.slot
      by_cases hclose : world.slot.registered = true ∧ world.slot.mode = .active
      · rw [if_pos hclose] at hmode hepoch
        exact Or.inr ⟨by simp [hmode, hclose.2], hepoch, by simp [hmode]⟩
      · rw [if_neg hclose] at hmode hepoch
        exact Or.inl ⟨hmode, hepoch⟩

/-- The slot's lease set is exactly the set of keys of the held leases, which are pairwise distinct. -/
structure Accounted (world : SlotWorld) : Prop where
  nodup : (world.held.map BackendLease.key).Nodup
  leases : world.slot.leases = (world.held.map BackendLease.key).toFinset
  serial : ∀ lease ∈ world.held, lease.key.serial < world.slot.nextLeaseSerial

theorem Accounted.card (h : Accounted world) : world.slot.leases.card = world.held.length := by
  rw [h.leases, List.toFinset_card_of_nodup h.nodup, List.length_map]

theorem Accounted.release (h : Accounted world) {lease : BackendLease} (hlease : lease ∈ world.held) :
    (world.slot.release lease.key).isSome = true := by
  have hmem : lease.key ∈ world.slot.leases := by
    rw [h.leases, List.mem_toFinset]
    exact List.mem_map_of_mem hlease
  simp [SlotState.release, hmem]

theorem map_key_erase {held : List BackendLease} (hnodup : (held.map BackendLease.key).Nodup)
    {lease : BackendLease} (hlease : lease ∈ held) :
    (held.erase lease).map BackendLease.key = (held.map BackendLease.key).erase lease.key := by
  induction held with
  | nil => cases hlease
  | cons head rest ih =>
      rw [List.map_cons, List.nodup_cons] at hnodup
      by_cases heq : head = lease
      · subst heq
        simp
      · have hrest : lease ∈ rest := (List.mem_cons.mp hlease).resolve_left (Ne.symm heq)
        have hkey : head.key ≠ lease.key := by
          intro hkey
          exact hnodup.1 (hkey ▸ List.mem_map_of_mem hrest)
        rw [List.erase_cons_tail (by simpa using heq), List.map_cons, List.map_cons,
          List.erase_cons_tail (by simpa using hkey), ih hnodup.2 hrest]

theorem accounted_step (hacc : Accounted world) (h : world.step op = some next) : Accounted next := by
  obtain ⟨hnodup, hleases, hserial⟩ := hacc
  rcases step_cases h with ⟨now, -, -, -, hheld, hslot⟩ | ⟨lease, -, hlease, hmem, hheld, hslot⟩ |
    ⟨hheld, hkeep, hnext, -⟩
  · refine ⟨?_, ?_, ?_⟩
    · rw [hheld, List.map_cons, List.nodup_cons]
      refine ⟨?_, hnodup⟩
      rintro hmem
      obtain ⟨lease, hlease, hkey⟩ := List.mem_map.mp hmem
      have := hserial lease hlease
      rw [hkey] at this
      exact lt_irrefl _ this
    · rw [hheld, hslot]
      simp [hleases]
    · intro lease hlease
      rw [hheld, List.mem_cons] at hlease
      rw [hslot]
      show lease.key.serial < world.slot.nextLeaseSerial + 1
      rcases hlease with rfl | hlease
      · exact Nat.lt_succ_self _
      · exact (hserial lease hlease).trans (Nat.lt_succ_self _)
  · refine ⟨?_, ?_, ?_⟩
    · rw [hheld, map_key_erase hnodup hlease]
      exact hnodup.erase _
    · rw [hheld, hslot, map_key_erase hnodup hlease]
      ext key
      simp [hleases, hnodup.mem_erase_iff]
    · intro other hother
      rw [hheld] at hother
      rw [hslot]
      exact hserial other (List.mem_of_mem_erase hother)
  · exact ⟨by rw [hheld]; exact hnodup, by rw [hheld, hkeep]; exact hleases,
      by rw [hheld, hnext]; exact hserial⟩

/-- Epochs only grow, and an unchanged epoch means an unchanged mode. -/
theorem epoch_step (h : world.step op = some next) :
    world.slot.modeEpoch ≤ next.slot.modeEpoch ∧
      (next.slot.modeEpoch = world.slot.modeEpoch ↔ next.slot.mode = world.slot.mode) := by
  rcases step_cases h with ⟨now, -, -, -, -, hslot⟩ | ⟨lease, -, -, -, -, hslot⟩ |
    ⟨-, -, -, -, ⟨hmode, hepoch⟩ | ⟨hmode, hepoch, -⟩⟩
  · simp [hslot]
  · simp [hslot]
  · simp [hmode, hepoch]
  · simp [hmode, hepoch]

theorem id_step (h : world.step op = some next) : next.slot.spec.id = world.slot.spec.id := by
  rcases step_cases h with ⟨now, -, -, -, -, hslot⟩ | ⟨lease, -, -, -, -, hslot⟩ | ⟨-, -, -, hid, -⟩
  · simp [hslot]
  · simp [hslot]
  · exact hid

end SlotWorld

open SlotWorld

variable {record recent older : List (Step SlotWorld SlotOp)} {world : SlotWorld}
  {mark : Step SlotWorld SlotOp}

theorem slot_accounted (h : Run slotSystem Free record world) : Accounted world := by
  refine h.invariant (I := Accounted) ?_ (fun _ _ _ hacc _ hstep => accounted_step hacc hstep)
  rintro _ ⟨spec, mode, rfl⟩
  exact ⟨by simp, by simp [SlotState.new], by simp⟩

/-- Between a recorded step and the end of the run the identity is kept, the epoch does not fall, and
if it ends where it was then no step in between changed the mode or the epoch. -/
theorem epoch_since (h : Run slotSystem Free (recent ++ mark :: older) world) :
    world.slot.spec.id = mark.after.slot.spec.id ∧ mark.after.slot.modeEpoch ≤ world.slot.modeEpoch ∧
      (world.slot.modeEpoch = mark.after.slot.modeEpoch → world.slot.mode = mark.after.slot.mode ∧
        ∀ step ∈ recent, step.before.slot.modeEpoch = mark.after.slot.modeEpoch ∧
          step.before.slot.mode = mark.after.slot.mode ∧ step.after.slot.mode = mark.after.slot.mode) := by
  induction recent generalizing world with
  | nil =>
      obtain ⟨rfl, -⟩ := h.cons_inv
      exact ⟨rfl, le_rfl, fun _ => ⟨rfl, by simp⟩⟩
  | cons last recent ih =>
      obtain ⟨rfl, hrun, -, hstep⟩ := h.cons_inv
      obtain ⟨hid, hle, hkeep⟩ := ih hrun
      obtain ⟨hle', hiff⟩ := epoch_step hstep
      refine ⟨(id_step hstep).trans hid, hle.trans hle', fun hepoch => ?_⟩
      have hbefore : last.before.slot.modeEpoch = mark.after.slot.modeEpoch := by omega
      obtain ⟨hmode, hall⟩ := hkeep hbefore
      have hafter : last.after.slot.mode = mark.after.slot.mode :=
        (hiff.mp (hepoch.trans hbefore.symm)).trans hmode
      refine ⟨hafter, fun step hstep => ?_⟩
      rcases List.mem_cons.mp hstep with rfl | hmem
      · exact ⟨hbefore, hmode, hafter⟩
      · exact hall step hmem

/-- The step closed the gate of a slot that was not draining, opening the given epoch. -/
def OpensDrain (epoch : Nat) (step : Step SlotWorld SlotOp) : Prop :=
  step.action = .beginDrain ∧ step.before.slot.mode ≠ .draining ∧ step.after.slot.mode = .draining ∧
    step.after.slot.modeEpoch = epoch

/-- The slot is draining, and has been without interruption since the `begin_drain` that opened the
epoch, or since its construction if it was constructed draining. -/
def DrainingSinceOpened (epoch : Nat) (record : List (Step SlotWorld SlotOp)) : Prop :=
  (∃ recent opened older, record = recent ++ opened :: older ∧ OpensDrain epoch opened ∧
    ∀ step ∈ recent, step.before.slot.mode = .draining ∧ step.after.slot.mode = .draining) ∨
  ∀ step ∈ record, step.before.slot.mode = .draining ∧ step.after.slot.mode = .draining

/-- A draining slot has been draining since its epoch was opened: only `begin_drain` enters the mode. -/
theorem draining_since_opened (h : Run slotSystem Free record world) (hmode : world.slot.mode = .draining) :
    DrainingSinceOpened world.slot.modeEpoch record := by
  refine h.induct (motive := fun record world => world.slot.mode = .draining →
    DrainingSinceOpened world.slot.modeEpoch record) ?_ ?_ hmode
  · intro _ _ _
    exact Or.inr (by simp)
  · intro record world op next hrun ih _ hstep hnext
    change world.step op = some next at hstep
    by_cases hbefore : world.slot.mode = .draining
    · have hepoch : next.slot.modeEpoch = world.slot.modeEpoch :=
        (epoch_step hstep).2.mpr (hnext.trans hbefore.symm)
      rw [hepoch]
      rcases ih hbefore with ⟨recent, opened, older, rfl, hopened, hall⟩ | hall
      · refine Or.inl ⟨⟨world, op, next⟩ :: recent, opened, older, rfl, hopened, ?_⟩
        rintro step (_ | ⟨_, hmem⟩)
        · exact ⟨hbefore, hnext⟩
        · exact hall step hmem
      · apply Or.inr
        rintro step (_ | ⟨_, hmem⟩)
        · exact ⟨hbefore, hnext⟩
        · exact hall step hmem
    · have hop : op = .beginDrain := by
        rcases step_cases hstep with ⟨_, -, -, -, -, hslot⟩ | ⟨_, -, -, -, -, hslot⟩ |
          ⟨-, -, -, -, ⟨hmode, -⟩ | ⟨-, -, hdrain⟩⟩
        · exact absurd (by simpa [hslot] using hnext) hbefore
        · exact absurd (by simpa [hslot] using hnext) hbefore
        · exact absurd (hmode.symm.trans hnext) hbefore
        · exact hdrain hnext
      exact Or.inl ⟨[], ⟨world, op, next⟩, record, rfl, ⟨hop, hbefore, hnext, rfl⟩, by simp⟩

/-- The token a recorded `begin_drain` returned. -/
def issuedToken (step : Step SlotWorld SlotOp) : DrainToken := step.before.slot.beginDrain.2

/-- The step granted a lease. -/
def GrantsLease (step : Step SlotWorld SlotOp) : Prop :=
  ∃ now slot lease, step.action = .tryAcquire now ∧ step.before.slot.tryAcquire now = .ok (slot, lease)

theorem issuedToken_eq (h : Run slotSystem Free (mark :: older) world) (hop : mark.action = .beginDrain) :
    issuedToken mark = ⟨mark.after.slot.spec.id, mark.after.slot.modeEpoch⟩ ∧
      mark.after.slot.mode = .draining := by
  obtain ⟨-, -, -, hstep⟩ := h.cons_inv
  rw [hop] at hstep
  have hafter : mark.after = { mark.before with slot := mark.before.slot.beginDrain.1 } :=
    (Option.some.inj hstep).symm
  rw [hafter]
  exact ⟨rfl, by simp [SlotState.beginDrain]⟩

/-- Lease gate and drain token soundness over every run of a slot: the lease count is exact and no
release hits its assertion; after `begin_drain` returned a token, no lease is granted at the token's
epoch; a wait on it that succeeds does so on a slot that has drained without interruption and whose
leases are all dropped; and once the mode has changed the wait is superseded. -/
theorem slot_lease_gate_sound (h : Run slotSystem Free record world) :
    (world.slot.leases.card = world.held.length ∧
      ∀ lease ∈ world.held, (world.slot.release lease.key).isSome = true) ∧
    ∀ recent mark older, record = recent ++ mark :: older → mark.action = .beginDrain →
      (∀ step ∈ recent, step.before.slot.modeEpoch = (issuedToken mark).modeEpoch → ¬GrantsLease step) ∧
      (∀ now result, world.slot.waitForLocalZero (issuedToken mark) now = some (.ok result) →
        world.held = [] ∧ result.localActive = 0 ∧
          DrainingSinceOpened (issuedToken mark).modeEpoch record) ∧
      ((∃ step ∈ recent, step.after.slot.mode ≠ step.before.slot.mode) →
        ∀ now, world.slot.waitForLocalZero (issuedToken mark) now =
          some (.error (.superseded world.slot.spec.id (issuedToken mark).modeEpoch
            world.slot.modeEpoch world.slot.mode))) := by
  have hacc := slot_accounted h
  refine ⟨⟨hacc.card, fun lease hlease => hacc.release hlease⟩, ?_⟩
  rintro recent mark older rfl hop
  obtain ⟨htoken, hdraining⟩ := issuedToken_eq h.of_append hop
  refine ⟨?_, ?_, ?_⟩
  · rintro step hmem hepoch ⟨now, slot, lease, -, hacquire⟩
    obtain ⟨newer, between, rfl⟩ := List.append_of_mem hmem
    have hrun : Run slotSystem Free (step :: (between ++ mark :: older)) step.after := by
      rw [List.append_assoc, List.cons_append] at h
      exact h.of_append
    obtain ⟨-, hrun, -, -⟩ := hrun.cons_inv
    rw [htoken] at hepoch
    have hmode := ((epoch_since hrun).2.2 hepoch).1
    have hactive := (SlotState.tryAcquire_ok hacquire).2.1
    rw [hmode, hdraining] at hactive
    cases hactive
  · intro now result hwait
    obtain ⟨-, hmode, hepoch, hempty, rfl⟩ := SlotState.waitForLocalZero_ok hwait
    have hlength : world.held.length = 0 := by rw [← hacc.card, hempty, Finset.card_empty]
    refine ⟨List.length_eq_zero_iff.mp hlength, ?_, hepoch ▸ draining_since_opened h hmode⟩
    show world.slot.leases.card = 0
    rw [hempty, Finset.card_empty]
  · rintro ⟨step, hmem, hchanged⟩ now
    obtain ⟨hid, hle, hkeep⟩ := epoch_since h
    have hepoch : world.slot.modeEpoch ≠ mark.after.slot.modeEpoch := by
      intro heq
      obtain ⟨-, hbefore, hafter⟩ := (hkeep heq).2 step hmem
      exact hchanged (hafter.trans hbefore.symm)
    rw [htoken]
    simp [SlotState.waitForLocalZero, hid, hepoch]

/-- A request acquired before a drain and finished during it. -/
def drainScript : List SlotOp := [.tryAcquire 5, .beginDrain, .drop ⟨⟨5, 0⟩, ⟨"a", "http://h/"⟩⟩]

def drainStart : SlotWorld := ⟨SlotState.new ⟨"a", "http://h/"⟩ .active, []⟩

/-- After the drained script the wait on the token of epoch 1 succeeds, with no lease held. -/
theorem slot_lease_gate_sound_drained :
    ∃ world, slotSystem.follow drainStart drainScript = some world ∧
      world.slot.waitForLocalZero ⟨"a", 1⟩ 9 = some (.ok (world.slot.snapshot 9)) ∧ world.held = [] ∧
      DrainingSinceOpened 1 (slotSystem.recordOf drainStart drainScript []) := by
  have hstart : Run slotSystem Free [] drainStart := .start ⟨⟨"a", "http://h/"⟩, .active, rfl⟩
  have hrun := hstart.follow drainScript rfl (fun _ _ => trivial)
  have hwait := ((slot_lease_gate_sound hrun).2 _ _ _ (by rfl : _ = [_] ++ _ :: _) rfl).2.1 9 _ rfl
  exact ⟨_, rfl, rfl, hwait.1, hwait.2.2⟩

end MistralrsProxy
