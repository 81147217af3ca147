import MistralrsProxy.RoutingBurst

/-! Ties among backends without a score. The order of the ids is flipped by the parity of the cursor and not rotated,
so a tie is only ever won by its first or its last id, in turns. -/

open Keyed

namespace MistralrsProxy

namespace RoutingState

/-- What `select` returned is dropped: the lease goes back to its slot, and the permit has no outcome. -/
def dropSelection (selection : RouteSelection) (now : Nat) (state : RoutingState) : Option RoutingState :=
  (state.runtime.registry.find? selection.lease.spec.id).bind fun slot =>
    (slot.release selection.lease.key).map fun released =>
      ⟨{ state.runtime with registry := state.runtime.registry.put released },
        state.inner.dropPermit selection.circuitPermit now⟩

/-- The eligible backends are those of the pool. None has a score, their circuits are closed, and they hold equally
many leases, each of which their slot has issued. -/
structure Tied (now : Nat) (pool : Finset BackendId) (state : RoutingState) : Prop where
  eligible : ∀ id, state.IsCandidate now false id ↔ id ∈ pool
  unscored : ∀ id, ¬state.IsCandidate now true id
  closed : ∀ id ∈ pool, ∀ live, state.synchronised.backends id = some live → live.circuit = .closed
  equal : ∀ id ∈ pool, ∀ other ∈ pool, state.localActive id = state.localActive other
  issued : ∀ id ∈ pool, ∀ slot, state.runtime.registry.find? id = some slot →
    ∀ key ∈ slot.leases, key.serial < slot.nextLeaseSerial

end RoutingState

/-- Calls of `select` from a state on, each at its own instants and with its result dropped before the next; newest
first. -/
inductive TiedCalls (pool : Finset BackendId) (state : RoutingState) : List BackendId → RoutingState → Prop
  | start : TiedCalls pool state [] state
  | call {chosen : List BackendId} {current next after : RoutingState} {selection : RouteSelection} (now : Nat)
      (delay : BackendId → Nat) (later : Nat) :
      TiedCalls pool state chosen current → current.Tied now pool → current.select now delay = (next, some selection) →
      next.dropSelection selection later = some after →
      TiedCalls pool state (selection.lease.spec.id :: chosen) after

/-- Every backend of the pool is among any `2 * n` consecutive choices. -/
def ReachesAll (pool : Finset BackendId) (chosen : List BackendId) : Prop :=
  ∀ newer window older, chosen = newer ++ window ++ older → window.length = 2 * pool.card → ∀ id ∈ pool, id ∈ window

/-- A permit that is no trial changes nothing when it is dropped. -/
theorem RoutingInner.dropPermit_of_not_trial {permit : CircuitPermit} (h : permit.trial = false) (now : Nat)
    (inner : RoutingInner) : inner.dropPermit permit now = inner := by
  have hdrop : ∀ breaker : Breaker, permit.drop now breaker = breaker := by
    intro breaker
    unfold CircuitPermit.drop CircuitPermit.neutral CircuitPermit.resolve Breaker.recordCircuitOutcome
    rw [h]
    split_ifs <;> rfl
  unfold dropPermit updateBreaker
  cases hlive : inner.backends permit.backendId with
  | none => rfl
  | some live =>
      simp only [hdrop]
      rw [← hlive, Function.update_eq_self]

/-- A lease that is taken and given back leaves the slot with the leases it had. -/
theorem SlotState.release_tryAcquire {slot acquired : SlotState} {now : Nat} {lease : BackendLease}
    (h : slot.tryAcquire now = .ok (acquired, lease))
    (hissued : ∀ key ∈ slot.leases, key.serial < slot.nextLeaseSerial) :
    acquired.spec = slot.spec ∧ ∃ released, acquired.release lease.key = some released ∧ released.gate = slot.gate ∧
      released.leases = slot.leases ∧ released.nextLeaseSerial = slot.nextLeaseSerial + 1 := by
  obtain ⟨_, _, rfl, rfl⟩ := SlotState.tryAcquire_ok h
  have hfresh : (⟨now, slot.nextLeaseSerial⟩ : LeaseKey) ∉ slot.leases := fun hkey => lt_irrefl _ (hissued _ hkey)
  refine ⟨rfl, _, if_pos (Finset.mem_insert_self _ _), rfl, ?_, rfl⟩
  exact Finset.erase_insert hfresh

namespace RoutingState.Tied

variable {state next : RoutingState} {pool : Finset BackendId} {now : Nat}

theorem mem_of_candidate (h : state.Tied now pool) {candidate : Candidate} (hmem : candidate ∈ state.candidates now) :
    candidate.score = none ∧ candidate.id ∈ pool := by
  have hscore : candidate.score = none := by
    by_contra hsome
    exact h.unscored candidate.id ⟨candidate, hmem, rfl, Option.isSome_iff_ne_none.mpr hsome⟩
  exact ⟨hscore, (h.eligible candidate.id).mp ⟨candidate, hmem, rfl, by rw [hscore]; rfl⟩⟩

/-- A tie only depends on what is alike, on the leases held and on the serials. -/
theorem of_alike (h : state.Tied now pool) (halike : state.Alike next)
    (hactive : ∀ id, next.localActive id = state.localActive id)
    (hissued : ∀ id ∈ pool, ∀ slot, next.runtime.registry.find? id = some slot →
      ∀ key ∈ slot.leases, key.serial < slot.nextLeaseSerial) : next.Tied now pool := by
  refine ⟨?_, ?_, ?_, ?_, hissued⟩
  · intro id
    rw [← h.eligible id]
    exact ⟨halike.symm.isCandidate, halike.isCandidate⟩
  · intro id hscored
    exact h.unscored id (halike.symm.isCandidate hscored)
  · intro id hid live hlive
    have hview := halike.live id
    rw [hlive, Option.map_some] at hview
    obtain ⟨before, hbefore, hsame⟩ := Option.map_eq_some_iff.mp hview.symm
    simp only [LiveBackend.view, Prod.mk.injEq] at hsame
    rw [← hsame.2.2.1]
    exact h.closed id hid before hbefore
  · intro id hid other hother
    rw [hactive, hactive]
    exact h.equal id hid other hother

/-- One call with its result dropped: the least id of the pool in the order of the cursor is selected, the cursor moves
on, and the pool is tied as before. -/
theorem call (h : state.Tied now pool) (hpool : pool.Nonempty) (delay : BackendId → Nat) (later : Nat) :
    ∃ next selection after, state.select now delay = (next, some selection) ∧
      next.dropSelection selection later = some after ∧ after.Tied now pool ∧
      after.inner.rotatingCursor = (state.inner.rotatingCursor + 1) % 2 ^ 64 ∧ selection.lease.spec.id ∈ pool ∧
      ∀ id ∈ pool, rotatedLe state.inner.rotatingCursor selection.lease.spec.id id = true := by
  obtain ⟨any, hany⟩ := hpool
  obtain ⟨candidate, hcandidate, _⟩ := (h.eligible any).mpr hany
  obtain ⟨head, rest, slot, acquired, selection, horder, hslot, hacquire, htrial, hselect⟩ :=
    select_closed delay (fun candidate hmem live hlive => h.closed candidate.id (h.mem_of_candidate hmem).2 live hlive)
      ⟨candidate, hcandidate⟩
  obtain ⟨hhead, _, hleast⟩ := orderCandidates_head horder
  obtain ⟨_, _, hlease, _⟩ := SlotState.tryAcquire_ok hacquire
  have hid : slot.spec.id = head.id := BackendRegistry.slot_id hslot
  have hselected : selection.lease.spec.id = head.id := by rw [hlease]; exact hid
  have hheadPool := (h.mem_of_candidate hhead).2
  obtain ⟨hacquired, released, hrelease, hgate, hleases, hserial⟩ :=
    SlotState.release_tryAcquire hacquire (h.issued head.id hheadPool slot hslot)
  have hreleasedId : released.spec.id = head.id := by
    rw [show released.spec = slot.spec from congrArg Prod.fst hgate, hid]
  have hput := BackendRegistry.find?_replace hslot (show acquired.spec.id = head.id by rw [hacquired, hid])
  have hdrop : ∀ other, ((state.runtime.registry.put acquired).put released).find? other =
      if other = head.id then some released else state.runtime.registry.find? other := by
    intro other
    rw [BackendRegistry.find?_replace (by rw [hput, if_pos rfl]) hreleasedId, hput]
    split <;> rfl
  generalize hafter : (⟨{ state.runtime with registry := (state.runtime.registry.put acquired).put released },
    { state.synchronised with rotatingCursor := (state.synchronised.rotatingCursor + 1) % 2 ^ 64 }⟩ :
    RoutingState) = after
  have hregistry : after.runtime.registry = (state.runtime.registry.put acquired).put released := by rw [← hafter]
  have hlive : after.synchronised.backends = state.synchronised.backends :=
    synchronised_backends (by rw [← hafter]) (by rw [← hafter])
  refine ⟨_, selection, after, hselect, ?_, h.of_alike ⟨by rw [← hafter], ?_, fun id => by rw [hlive]⟩ ?_ ?_,
    by rw [← hafter]; rfl, hselected ▸ hheadPool, ?_⟩
  · simp only [dropSelection, hselected, hput, if_true, Option.bind_some, hrelease, Option.map_some,
      RoutingInner.dropPermit_of_not_trial htrial, hafter]
  · intro id
    rw [hregistry, hdrop]
    by_cases hother : id = head.id
    · rw [if_pos hother, hother, hslot, Option.map_some, Option.map_some, hgate]
    · rw [if_neg hother]
  · intro id
    unfold localActive
    rw [hregistry, hdrop]
    by_cases hother : id = head.id
    · rw [if_pos hother, hother, hslot, Option.map_some, Option.map_some, hleases]
    · rw [if_neg hother]
  · intro id hmem found hfound key hkey
    rw [hregistry, hdrop] at hfound
    by_cases hother : id = head.id
    · rw [if_pos hother] at hfound
      cases hfound
      rw [hserial]
      exact Nat.lt_succ_of_lt (h.issued head.id hheadPool slot hslot key (hleases ▸ hkey))
    · rw [if_neg hother] at hfound
      exact h.issued id hmem found hfound key hkey
  · intro id hmem
    obtain ⟨found, hfound, rfl, _⟩ := (h.eligible id).mpr hmem
    have hle := hleast (fun candidate hmem => (h.mem_of_candidate hmem).1) found hfound
    have hequal : head.localActive = found.localActive := by
      rw [(candidate_spec hhead).1, (candidate_spec hfound).1]
      exact h.equal head.id hheadPool found.id hmem
    simp only [inflightLe, hequal, lt_irrefl, decide_false, beq_self_eq_true, Bool.false_or, Bool.true_and] at hle
    rw [hselected]
    exact hle

end RoutingState.Tied

section Order

variable {cursor other : Nat} {left right : BackendId}

theorem rotatedLe_antisymm (h : rotatedLe cursor left right = true) (h' : rotatedLe cursor right left = true) :
    left = right := by
  unfold rotatedLe at h h'
  split at h
  · rename_i heven
    rw [if_pos heven] at h'
    exact String.le_antisymm (of_decide_eq_true h) (of_decide_eq_true h')
  · rename_i hodd
    rw [if_neg hodd] at h'
    exact String.le_antisymm (of_decide_eq_true h') (of_decide_eq_true h)

theorem rotatedLe_congr (h : cursor % 2 = other % 2) (left right : BackendId) :
    rotatedLe cursor left right = rotatedLe other left right := by
  unfold rotatedLe
  rw [h]

/-- The next cursor has the reverse order. -/
theorem rotatedLe_succ (cursor : Nat) (left right : BackendId) :
    rotatedLe (cursor + 1) left right = rotatedLe cursor right left := by
  unfold rotatedLe
  rcases Nat.mod_two_eq_zero_or_one cursor with heven | hodd
  · rw [if_neg (by omega), if_pos heven]
  · rw [if_pos (by omega), if_neg (by omega)]

end Order

/-- The id is the first of the pool in the order of the cursor. -/
def WinsAt (cursor : Nat) (pool : Finset BackendId) (id : BackendId) : Prop :=
  id ∈ pool ∧ ∀ other ∈ pool, rotatedLe cursor id other = true

theorem WinsAt.congr {cursor other : Nat} {pool : Finset BackendId} {id : BackendId} (h : WinsAt cursor pool id)
    (hparity : cursor % 2 = other % 2) : WinsAt other pool id :=
  ⟨h.1, fun candidate hmem => rotatedLe_congr hparity id candidate ▸ h.2 candidate hmem⟩

theorem WinsAt.unique {cursor : Nat} {pool : Finset BackendId} {first second : BackendId}
    (hfirst : WinsAt cursor pool first)
    (hsecond : WinsAt cursor pool second) : first = second :=
  rotatedLe_antisymm (hfirst.2 second hsecond.1) (hsecond.2 first hfirst.1)

/-- An id that wins with two consecutive cursors is alone. -/
theorem WinsAt.alone {cursor : Nat} {pool : Finset BackendId} {id : BackendId} (h : WinsAt cursor pool id)
    (hnext : WinsAt (cursor + 1) pool id) : ∀ other ∈ pool, other = id := by
  intro other hmem
  have hbelow := hnext.2 other hmem
  rw [rotatedLe_succ] at hbelow
  exact rotatedLe_antisymm hbelow (h.2 other hmem)

namespace TiedCalls

variable {pool : Finset BackendId} {state final : RoutingState} {chosen : List BackendId}

/-- Each call of a run is won with the cursor of its turn. -/
theorem wins (hpool : pool.Nonempty) (h : TiedCalls pool state chosen final) :
    final.inner.rotatingCursor % 2 = (state.inner.rotatingCursor + chosen.length) % 2 ∧
      ∀ newer id older, chosen = newer ++ id :: older → WinsAt (state.inner.rotatingCursor + older.length) pool id := by
  induction h with
  | start => exact ⟨rfl, fun newer id older hsplit => absurd hsplit (by simp)⟩
  | @call chosen current next after selection now delay later _ htied hselect hdrop ih =>
      obtain ⟨hcursor, hwins⟩ := ih
      obtain ⟨_, _, _, hselect', hdrop', _, hmoved, hmem, hleast⟩ := htied.call hpool delay later
      rw [hselect] at hselect'
      cases hselect'
      rw [hdrop] at hdrop'
      cases hdrop'
      refine ⟨?_, ?_⟩
      · rw [hmoved, Nat.mod_mod_of_dvd _ (by norm_num), List.length_cons]
        omega
      · intro newer id older hsplit
        cases newer with
        | nil =>
            cases hsplit
            exact WinsAt.congr ⟨hmem, hleast⟩ hcursor
        | cons _ newer =>
            cases hsplit
            exact hwins newer id older rfl

/-- Any number of calls can be made. -/
theorem exists_run {now : Nat} (hpool : pool.Nonempty) (htied : state.Tied now pool) (count : Nat) :
    ∃ chosen final, TiedCalls pool state chosen final ∧ chosen.length = count ∧ final.Tied now pool := by
  induction count with
  | zero => exact ⟨[], state, .start, rfl, htied⟩
  | succ count ih =>
      obtain ⟨chosen, current, hrun, hlength, hcurrent⟩ := ih
      obtain ⟨_, _, after, hselect, hdrop, hafter, _⟩ := hcurrent.call hpool (fun _ => 0) now
      exact ⟨_, after, .call now _ now hrun hcurrent hselect hdrop, by rw [List.length_cons, hlength], hafter⟩

/-- An id between two others of the pool is never chosen. -/
theorem not_mem_of_between (h : TiedCalls pool state chosen final) {lower id upper : BackendId} (hlower : lower ∈ pool)
    (hupper : upper ∈ pool) (hbelow : ¬id ≤ lower) (habove : ¬upper ≤ id) : id ∉ chosen := by
  intro hmem
  obtain ⟨newer, older, hsplit⟩ := List.append_of_mem hmem
  obtain ⟨_, hleast⟩ := (h.wins ⟨lower, hlower⟩).2 newer id older hsplit
  have hfirst := hleast lower hlower
  have hlast := hleast upper hupper
  unfold rotatedLe at hfirst hlast
  split at hfirst
  · exact hbelow (of_decide_eq_true hfirst)
  · rename_i hodd
    rw [if_neg hodd] at hlast
    exact habove (of_decide_eq_true hlast)

theorem exists_two_newest {chosen : List BackendId} (h : 2 ≤ chosen.length) :
    ∃ second first older, chosen = second :: first :: older := by
  match chosen with
  | [] => simp at h
  | [_] => simp at h
  | second :: first :: older => exact ⟨second, first, older, rfl⟩

end TiedCalls

/-- Calls with their results dropped reach every backend of a tied pool exactly if the pool has two of them. -/
theorem ties_reach_all_iff (pool : Finset BackendId) (state : RoutingState) (now : Nat) (hpool : 2 ≤ pool.card)
    (htied : state.Tied now pool) :
    (∀ chosen final, TiedCalls pool state chosen final → ReachesAll pool chosen) ↔ pool.card = 2 := by
  have hnonempty : pool.Nonempty := Finset.card_pos.mp (by omega)
  constructor
  · intro hreaches
    by_contra hmore
    obtain ⟨chosen, final, hrun, hlength, _⟩ := TiedCalls.exists_run hnonempty htied (2 * pool.card)
    -- the two last winners are the only ones
    obtain ⟨second, first, older, rfl⟩ := TiedCalls.exists_two_newest (show 2 ≤ chosen.length by omega)
    obtain ⟨_, hwins⟩ := hrun.wins hnonempty
    have hfirst := hwins [second] first older rfl
    have hsecond := hwins [] second (first :: older) rfl
    have hfew : pool ⊆ {first, second} := by
      intro id hmem
      have hid := hreaches _ final hrun [] _ [] (by simp) hlength id hmem
      obtain ⟨newer, rest, hsplit⟩ := List.append_of_mem hid
      have hwin := hwins newer id rest hsplit
      rw [Finset.mem_insert, Finset.mem_singleton]
      rcases Nat.mod_two_eq_zero_or_one (older.length + rest.length) with heven | hodd
      · exact .inl (hwin.unique (hfirst.congr (by omega)))
      · exact .inr (hwin.unique (hsecond.congr (by rw [List.length_cons]; omega)))
    have hcard := (Finset.card_le_card hfew).trans Finset.card_le_two
    omega
  · intro htwo chosen final hrun newer window older hchosen hlength id hmem
    obtain ⟨second, first, rest, rfl⟩ := TiedCalls.exists_two_newest (show 2 ≤ window.length by omega)
    obtain ⟨_, hwins⟩ := hrun.wins hnonempty
    have hfirst := hwins (newer ++ [second]) first (rest ++ older) (by simp [hchosen])
    have hsecond := hwins newer second (first :: rest ++ older) (by simp [hchosen])
    have hdiffer : first ≠ second := by
      rintro rfl
      have halone := hfirst.alone (hsecond.congr (by simp only [List.cons_append, List.length_cons]; omega))
      have hcard : pool.card ≤ 1 := Finset.card_le_one.mpr fun a ha b hb => (halone a ha).trans (halone b hb).symm
      omega
    have hpair : {first, second} = pool := by
      refine Finset.eq_of_subset_of_card_le ?_ (by rw [htwo, Finset.card_pair hdiffer])
      intro other hother
      rcases Finset.mem_insert.mp hother with rfl | hother
      · exact hfirst.1
      · rw [Finset.mem_singleton.mp hother]
        exact hsecond.1
    rw [← hpair, Finset.mem_insert, Finset.mem_singleton] at hmem
    rcases hmem with rfl | rfl
    · simp
    · simp

/-- Three backends without metrics. -/
def trioConfig : RuntimeConfig :=
  .new [⟨"a", ⟨"a", "/"⟩, ⟨"a", "/metrics"⟩, ⟨"a", "/v1/models"⟩, none⟩,
    ⟨"b", ⟨"b", "/"⟩, ⟨"b", "/metrics"⟩, ⟨"b", "/v1/models"⟩, none⟩,
    ⟨"c", ⟨"c", "/"⟩, ⟨"c", "/metrics"⟩, ⟨"c", "/v1/models"⟩, none⟩]

def trioRuntime : RuntimeState where
  published := .fromConfig trioConfig (by decide)
  registry := ⟨trioConfig.backends.map fun backend =>
    (SlotState.new backend.registrySpec .disabled).restore .active, by decide⟩

/-- All three are ready. -/
def trioPool : RoutingState where
  runtime := trioRuntime
  inner := [("a", 1), ("a", 1), ("b", 2), ("b", 2), ("c", 3), ("c", 3)].foldl (fun inner (probe : BackendId × Nat) =>
    (inner.recordReadinessSuccessFor trioRuntime.published trioConfig.readiness probe.1 probe.2 0).1)
    (RoutingInner.new trioRuntime.published)

/-- A tie read off the candidates and the slots of a state in which no lease is held. -/
theorem RoutingState.Tied.of_idle {state : RoutingState} {now : Nat} {ids : List BackendId}
    (hids : (state.candidates now).map Candidate.id = ids)
    (hscores : ((state.candidates now).all fun candidate => candidate.score.isNone) = true)
    (hclosed : (ids.all fun id =>
      (state.synchronised.backends id).all fun live => decide (live.circuit = .closed)) = true)
    (hidle : (state.runtime.registry.entries.all fun slot => decide (slot.leases = ∅)) = true) :
    state.Tied now ids.toFinset := by
  have hscore : ∀ candidate ∈ state.candidates now, candidate.score = none := by
    intro candidate hmem
    exact Option.isNone_iff_eq_none.mp (List.all_eq_true.mp hscores candidate hmem)
  have hleases : ∀ id slot, state.runtime.registry.find? id = some slot → slot.leases = ∅ := by
    intro id slot hslot
    exact of_decide_eq_true (List.all_eq_true.mp hidle slot (Table.mem_of_find? hslot))
  have hactive : ∀ id, state.localActive id = 0 := by
    intro id
    unfold localActive
    cases hslot : state.runtime.registry.find? id with
    | none => rfl
    | some slot => rw [Option.map_some, Option.getD_some, hleases id slot hslot, Finset.card_empty]
  refine ⟨?_, ?_, ?_, ?_, ?_⟩
  · intro id
    rw [List.mem_toFinset, ← hids, List.mem_map]
    constructor
    · rintro ⟨candidate, hmem, hid, _⟩
      exact ⟨candidate, hmem, hid⟩
    · rintro ⟨candidate, hmem, hid⟩
      exact ⟨candidate, hmem, hid, by rw [hscore candidate hmem]; rfl⟩
  · rintro id ⟨candidate, hmem, _, hsome⟩
    rw [hscore candidate hmem] at hsome
    cases hsome
  · intro id hmem live hlive
    have hlives := List.all_eq_true.mp hclosed id (List.mem_toFinset.mp hmem)
    rw [hlive] at hlives
    exact of_decide_eq_true hlives
  · intro id _ other _
    rw [hactive, hactive]
  · intro id _ slot hslot key hkey
    rw [hleases id slot hslot] at hkey
    exact absurd hkey (Finset.notMem_empty key)

/-- Six calls on three tied backends never select the one in the middle. -/
theorem ties_starve_the_middle :
    trioPool.Tied 0 ["a", "b", "c"].toFinset ∧
      ∃ chosen final, TiedCalls ["a", "b", "c"].toFinset trioPool chosen final ∧ chosen.length = 6 ∧ "b" ∉ chosen ∧
        ¬ReachesAll ["a", "b", "c"].toFinset chosen := by
  have htied : trioPool.Tied 0 ["a", "b", "c"].toFinset :=
    .of_idle (by decide +kernel) (by decide +kernel) (by decide +kernel) (by decide +kernel)
  obtain ⟨chosen, final, hrun, hlength, _⟩ := TiedCalls.exists_run ⟨"a", by decide⟩ htied 6
  have hmiddle : "b" ∉ chosen :=
    hrun.not_mem_of_between (show "a" ∈ _ by decide) (show "c" ∈ _ by decide) (by decide) (by decide)
  refine ⟨htied, chosen, final, hrun, hlength, hmiddle, ?_⟩
  intro hreaches
  exact hmiddle (hreaches [] chosen [] (by simp) (by rw [hlength]; decide) "b" (by decide))

theorem ties_reach_all_iff_pair :
    unscoredPool.Tied 0 ["a", "b"].toFinset ∧
      ∀ chosen final, TiedCalls ["a", "b"].toFinset unscoredPool chosen final →
        ReachesAll ["a", "b"].toFinset chosen := by
  have htied : unscoredPool.Tied 0 ["a", "b"].toFinset :=
    .of_idle (by decide +kernel) (by decide +kernel) (by decide +kernel) (by decide +kernel)
  exact ⟨htied, (ties_reach_all_iff ["a", "b"].toFinset unscoredPool 0 (by decide) htied).mpr (by decide)⟩

end MistralrsProxy
