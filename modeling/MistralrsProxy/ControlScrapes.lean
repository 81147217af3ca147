import MistralrsProxy.ControlLeases

/-! The scrapes of the telemetry worker, which has at most one under way for a backend. The serials of a
topology generation are then begun and completed one after the other, and the last observation is that of the
last completed scrape whenever the engine has been idle since. -/

open Transition Keyed

namespace MistralrsProxy

/-- Everything that scrapes are tracked by is the same. -/
structure LiveBackend.SameScrapes (old new : LiveBackend) : Prop where
  topologyGeneration : new.topologyGeneration = old.topologyGeneration
  metrics : new.metrics = old.metrics
  metricsScrapesStarted : new.metricsScrapesStarted = old.metricsScrapesStarted
  metricsLastCompletedScrape : new.metricsLastCompletedScrape = old.metricsLastCompletedScrape
  engineIdleStreak : new.engineIdleStreak = old.engineIdleStreak

theorem LiveBackend.SameScrapes.refl (live : LiveBackend) : live.SameScrapes live := ⟨rfl, rfl, rfl, rfl, rfl⟩

namespace RoutingInner

def SameScrapes (old new : RoutingInner) : Prop :=
  ∀ id, Option.Rel LiveBackend.SameScrapes (old.backends id) (new.backends id)

variable {old new inner : RoutingInner} {id : BackendId} {live : LiveBackend}

theorem SameScrapes.of_backends (h : new.backends = old.backends) : SameScrapes old new := by
  intro id
  rw [h]
  cases old.backends id with
  | none => exact .none
  | some live => exact .some (LiveBackend.SameScrapes.refl live)

theorem SameScrapes.find (h : SameScrapes old new) (hlive : new.backends id = some live) :
    ∃ before, old.backends id = some before ∧ before.SameScrapes live := by
  have hid := h id
  rw [hlive] at hid
  cases hold : old.backends id with
  | none =>
      rw [hold] at hid
      cases hid
  | some before =>
      rw [hold] at hid
      cases hid with
      | some hsame => exact ⟨before, rfl, hsame⟩

theorem SameScrapes.kept (h : SameScrapes old new) (hlive : old.backends id = some live) :
    ∃ after, new.backends id = some after ∧ live.SameScrapes after := by
  have hid := h id
  rw [hlive] at hid
  cases hnew : new.backends id with
  | none =>
      rw [hnew] at hid
      cases hid
  | some after =>
      rw [hnew] at hid
      cases hid with
      | some hsame => exact ⟨after, rfl, hsame⟩

theorem sameScrapes_updateBreaker {α : Type} (id : BackendId) (f : Breaker → Breaker × α) (inner : RoutingInner) :
    SameScrapes inner (inner.updateBreaker id f).1 := by
  intro other
  rw [updateBreaker_backends]
  split
  · rename_i hother
    subst hother
    cases inner.backends other with
    | none => exact .none
    | some live => exact .some ⟨rfl, rfl, rfl, rfl, rfl⟩
  · exact SameScrapes.of_backends rfl other

theorem sameScrapes_tryCircuitPermit {now : Nat} {next : RoutingInner} {permit : Option CircuitPermit}
    (h : inner.tryCircuitPermit id now = (next, permit)) : SameScrapes inner next := by
  rw [← show (inner.tryCircuitPermit id now).1 = next from congrArg Prod.fst h]
  exact sameScrapes_updateBreaker _ _ inner

theorem sameScrapes_updateLive {α : Type} {f : LiveBackend → LiveBackend × α}
    (hf : ∀ live : LiveBackend, live.SameScrapes (f live).1) (published : PublishedRuntime) (id : BackendId)
    (generation : Nat) (inner : RoutingInner) :
    SameScrapes (inner.ensureBackends published) (inner.updateLive published id generation f).1 := by
  intro other
  rw [updateLive_backends]
  split
  · rename_i hother
    subst hother
    cases (inner.ensureBackends published).backends other with
    | none => exact .none
    | some live =>
        refine .some ?_
        dsimp only
        split
        · exact hf live
        · exact LiveBackend.SameScrapes.refl live
  · exact SameScrapes.of_backends rfl other

end RoutingInner

/-- A scrape begins or ends. -/
def ControlOp.isScrape : ControlOp → Bool
  | .beginScrape _ _ | .endScrape _ _ => true
  | _ => false

namespace ControlWorld

variable {world next : ControlWorld}

/-- What a step can do to the live state: the scrapes stay as they were, or as synchronising leaves them. -/
def ScrapesKept (world next : ControlWorld) : Prop :=
  RoutingInner.SameScrapes world.routing.inner next.routing.inner ∨
    RoutingInner.SameScrapes world.routing.synchronised next.routing.inner

theorem scrapesKept_select {request : Nat} (h : world.selectStep request = some next) :
    next.scrapes = world.scrapes ∧ ScrapesKept world next := by
  unfold selectStep at h
  split at h
  · cases h
    exact ⟨rfl, .inl (RoutingInner.SameScrapes.of_backends rfl)⟩
  · cases h
    exact ⟨rfl, .inl (RoutingInner.SameScrapes.of_backends rfl)⟩
  · cases h
    exact ⟨rfl, .inr (RoutingInner.SameScrapes.of_backends rfl)⟩
  · cases h
    exact ⟨rfl, .inl (RoutingInner.SameScrapes.of_backends rfl)⟩
  · split at h
    · rename_i hpermit
      cases h
      exact ⟨rfl, .inl (RoutingInner.sameScrapes_tryCircuitPermit hpermit)⟩
    · rename_i hpermit
      cases h
      exact ⟨rfl, .inl (RoutingInner.sameScrapes_tryCircuitPermit hpermit)⟩
  · split at h
    · cases h
      exact ⟨rfl, .inl (RoutingInner.sameScrapes_updateBreaker _ _ _)⟩
    · split at h
      · cases h
      · cases h
        exact ⟨rfl, .inl (RoutingInner.SameScrapes.of_backends rfl)⟩

theorem scrapesKept_request {request : Nat} {event : RequestEvent} (h : world.requestStep request event = some next) :
    next.scrapes = world.scrapes ∧ ScrapesKept world next := by
  unfold requestStep at h
  split at h
  · cases h
    exact ⟨rfl, .inl (RoutingInner.sameScrapes_updateBreaker _ _ _)⟩
  · cases h
    exact ⟨rfl, .inl (RoutingInner.sameScrapes_updateBreaker _ _ _)⟩
  · obtain ⟨_, hreleased, rfl⟩ := Option.map_eq_some_iff.mp h
    obtain ⟨_, _, _, _, rfl⟩ := releaseLease_some hreleased
    exact ⟨rfl, .inl (RoutingInner.SameScrapes.of_backends rfl)⟩
  · cases h
    exact ⟨rfl, .inl (RoutingInner.sameScrapes_updateBreaker _ _ _)⟩
  · obtain ⟨_, hreleased, rfl⟩ := Option.map_eq_some_iff.mp h
    obtain ⟨_, _, _, _, rfl⟩ := releaseLease_some hreleased
    exact ⟨rfl, .inl (RoutingInner.SameScrapes.of_backends rfl)⟩
  · cases h
    exact ⟨rfl, .inl (RoutingInner.sameScrapes_updateBreaker _ _ _)⟩
  · cases h

theorem Locked.scrapesKept (h : Locked world next) : ScrapesKept world next := by
  rcases h.inner with hinner | hinner
  · exact .inl (RoutingInner.SameScrapes.of_backends (congrArg RoutingInner.backends hinner))
  · exact .inr (RoutingInner.SameScrapes.of_backends (congrArg RoutingInner.backends hinner))

/-- Only scrapes touch what scrapes are tracked by. -/
theorem step_scrapesKept {op : ControlOp} (hop : op.isScrape = false) (hrestart : ∀ config, op ≠ .restart config)
    (h : world.step op = some next) : next.scrapes = world.scrapes ∧ ScrapesKept world next := by
  cases op with
  | select request => exact scrapesKept_select h
  | request request event => exact scrapesKept_request h
  | readiness id generation config failure =>
      cases failure with
      | none =>
          cases h
          exact ⟨rfl, .inr (RoutingInner.sameScrapes_updateLive (fun _ => ⟨rfl, rfl, rfl, rfl, rfl⟩) _ _ _ _)⟩
      | some failure =>
          cases h
          exact ⟨rfl, .inr (RoutingInner.sameScrapes_updateLive (fun _ => ⟨rfl, rfl, rfl, rfl, rfl⟩) _ _ _ _)⟩
  | beginScrape | endScrape => cases hop
  | elapse time =>
      cases h
      exact ⟨rfl, .inl (RoutingInner.SameScrapes.of_backends rfl)⟩
  | restart config => exact absurd rfl (hrestart config)
  | drain | activate | disable | reload | proceed | drive =>
      have hlocked := step_locked rfl hrestart h
      exact ⟨hlocked.scrapes, Locked.scrapesKept hlocked⟩

theorem ensureDrainOperation_live (id : BackendId)
    (h : world.routing.inner.backends = (RoutingInner.new world.published).backends) :
    (world.ensureDrainOperation id).1.routing.inner.backends =
      (RoutingInner.new (world.ensureDrainOperation id).1.published).backends := by
  rw [(ensureDrainOperation_some id world).1]
  rcases (locked_ensureDrainOperation id : Locked world (world.ensureDrainOperation id).1).inner with hinner | hinner
  · rw [hinner, h]
  · rw [hinner]
    funext other
    show (world.routing.inner.ensureBackends world.published).backends other = _
    rw [RoutingInner.ensureBackends, RoutingInner.new]
    simp only [h, RoutingInner.new]
    cases world.published.backendGeneration other with
    | none => rfl
    | some generation => simp [LiveBackend.new]

theorem resumePersistedDrains_live (world : ControlWorld)
    (h : world.routing.inner.backends = (RoutingInner.new world.published).backends) :
    world.resumePersistedDrains.routing.inner.backends = (RoutingInner.new world.published).backends := by
  unfold resumePersistedDrains
  generalize world.drainingIds = ids
  induction ids generalizing world with
  | nil => exact h
  | cons id rest ih =>
      have hrest := ih (world.ensureDrainOperation id).1 (ensureDrainOperation_live id h)
      rwa [(ensureDrainOperation_some id world).1] at hrest

/-- A process that has just started knows nothing of its backends. -/
theorem boot_live {config : ValidConfig} {store : BackendStateStore} {now : Nat}
    (h : boot config store now = some world) :
    world.routing.inner.backends = (RoutingInner.new world.published).backends ∧ world.scrapes = fun _ => none := by
  unfold boot at h
  split at h
  · cases h
  · rename_i registry hregistry
    cases h
    refine ⟨?_, (locked_resumePersistedDrains _).2.2⟩
    rw [(resumePersistedDrains_some _).1]
    exact resumePersistedDrains_live _ rfl

end ControlWorld

/-- The arithmetic of a worker that completes each scrape before it begins the next one. -/
structure Sequential (published : PublishedRuntime) (inner : RoutingInner)
    (scrapes : BackendId → Option (Nat × MetricsScrapeContext)) : Prop where
  known : ∀ id live, inner.backends id = some live → live.topologyGeneration < published.nextBackendGeneration
  pending : ∀ id generation scrape, scrapes id = some (generation, scrape) →
    generation < published.nextBackendGeneration ∧
      (published.backendGeneration id = some generation →
        ∃ live, inner.backends id = some live ∧ live.topologyGeneration = generation)
  underWay : ∀ id generation scrape live, scrapes id = some (generation, scrape) → inner.backends id = some live →
    live.topologyGeneration = generation →
      scrape.serial = live.metricsScrapesStarted ∧ live.metricsLastCompletedScrape + 1 = live.metricsScrapesStarted
  settled : ∀ id live, inner.backends id = some live →
    (∀ generation scrape, scrapes id = some (generation, scrape) → live.topologyGeneration ≠ generation) →
      live.metricsLastCompletedScrape = live.metricsScrapesStarted
  observed : ∀ id live, inner.backends id = some live → live.engineIdleStreak ≠ 0 →
    ∃ observation, live.metrics = some observation ∧ observation.scrapeSerial = live.metricsLastCompletedScrape

namespace Sequential

variable {published : PublishedRuntime} {inner next : RoutingInner}
  {scrapes : BackendId → Option (Nat × MetricsScrapeContext)}

/-- No serial is completed before it was begun. -/
theorem completed_le (h : Sequential published inner scrapes) {id : BackendId} {live : LiveBackend}
    (hlive : inner.backends id = some live) : live.metricsLastCompletedScrape ≤ live.metricsScrapesStarted := by
  by_cases hunderWay : ∃ generation scrape, scrapes id = some (generation, scrape) ∧
    live.topologyGeneration = generation
  · obtain ⟨generation, scrape, hscrape, hgeneration⟩ := hunderWay
    have hstarted := (h.underWay id generation scrape live hscrape hlive hgeneration).2
    omega
  · exact le_of_eq (h.settled id live hlive fun generation scrape hscrape hgeneration =>
      hunderWay ⟨generation, scrape, hscrape, hgeneration⟩)

theorem new (published : PublishedRuntime) : Sequential published (RoutingInner.new published) (fun _ => none) := by
  have hnew : ∀ {id live}, (RoutingInner.new published).backends id = some live →
      published.backendGeneration id = some live.topologyGeneration ∧
      live = LiveBackend.new live.topologyGeneration := by
    intro id live hlive
    obtain ⟨generation, hgeneration, rfl⟩ := Option.map_eq_some_iff.mp hlive
    exact ⟨hgeneration, rfl⟩
  refine ⟨?_, ?_, ?_, ?_, ?_⟩
  · intro id live hlive
    exact published.below id _ (hnew hlive).1
  · intro id generation scrape hscrape
    cases hscrape
  · intro id generation scrape live hscrape
    cases hscrape
  · intro id live hlive _
    rw [(hnew hlive).2]
    rfl
  · intro id live hlive hstreak
    rw [(hnew hlive).2] at hstreak
    exact absurd rfl hstreak

theorem frame (h : Sequential published inner scrapes) (hsame : RoutingInner.SameScrapes inner next) :
    Sequential published next scrapes := by
  refine ⟨?_, ?_, ?_, ?_, ?_⟩
  · intro id live hlive
    obtain ⟨before, hbefore, hkept⟩ := hsame.find hlive
    rw [hkept.topologyGeneration]
    exact h.known id before hbefore
  · intro id generation scrape hscrape
    obtain ⟨hbelow, hcurrent⟩ := h.pending id generation scrape hscrape
    refine ⟨hbelow, fun hpublished => ?_⟩
    obtain ⟨before, hbefore, hgeneration⟩ := hcurrent hpublished
    obtain ⟨live, hlive, hkept⟩ := hsame.kept hbefore
    exact ⟨live, hlive, hkept.topologyGeneration.trans hgeneration⟩
  · intro id generation scrape live hscrape hlive hgeneration
    obtain ⟨before, hbefore, hkept⟩ := hsame.find hlive
    rw [hkept.metricsScrapesStarted, hkept.metricsLastCompletedScrape]
    exact h.underWay id generation scrape before hscrape hbefore (hkept.topologyGeneration.symm.trans hgeneration)
  · intro id live hlive hnone
    obtain ⟨before, hbefore, hkept⟩ := hsame.find hlive
    rw [hkept.metricsScrapesStarted, hkept.metricsLastCompletedScrape]
    rw [hkept.topologyGeneration] at hnone
    exact h.settled id before hbefore hnone
  · intro id live hlive hstreak
    obtain ⟨before, hbefore, hkept⟩ := hsame.find hlive
    rw [hkept.metrics, hkept.metricsLastCompletedScrape]
    rw [hkept.engineIdleStreak] at hstreak
    exact h.observed id before hbefore hstreak

theorem synchronise (h : Sequential published inner scrapes) :
    Sequential published (inner.ensureBackends published) scrapes := by
  -- a scrape under way for the published generation keeps its live state from being replaced
  have hunmatched : ∀ {id generation scrape} {live : LiveBackend}, scrapes id = some (generation, scrape) →
      published.backendGeneration id = some live.topologyGeneration →
      (∀ old, inner.backends id = some old → old.topologyGeneration ≠ live.topologyGeneration) →
      live.topologyGeneration ≠ generation := by
    intro id generation scrape live hscrape hpublished hnone hgeneration
    obtain ⟨old, hold, hsame⟩ := (h.pending id generation scrape hscrape).2 (hgeneration ▸ hpublished)
    exact hnone old hold (hsame.trans hgeneration.symm)
  refine ⟨?_, ?_, ?_, ?_, ?_⟩
  · intro id live hlive
    exact published.below id _ (RoutingInner.ensureBackends_some hlive).1
  · intro id generation scrape hscrape
    obtain ⟨hbelow, hcurrent⟩ := h.pending id generation scrape hscrape
    refine ⟨hbelow, fun hpublished => ?_⟩
    obtain ⟨live, hlive, hgeneration⟩ := hcurrent hpublished
    exact ⟨live, RoutingInner.ensureBackends_of_current hlive (hgeneration.symm ▸ hpublished), hgeneration⟩
  · intro id generation scrape live hscrape hlive hgeneration
    obtain ⟨hpublished, hlive | ⟨_, hnone⟩⟩ := RoutingInner.ensureBackends_some hlive
    · exact h.underWay id generation scrape live hscrape hlive hgeneration
    · exact absurd hgeneration (hunmatched hscrape hpublished hnone)
  · intro id live hlive hnone
    obtain ⟨_, hlive | ⟨hnew, _⟩⟩ := RoutingInner.ensureBackends_some hlive
    · exact h.settled id live hlive hnone
    · rw [hnew]
      rfl
  · intro id live hlive hstreak
    obtain ⟨_, hlive | ⟨hnew, _⟩⟩ := RoutingInner.ensureBackends_some hlive
    · exact h.observed id live hlive hstreak
    · rw [hnew] at hstreak
      exact absurd rfl hstreak

/-- A generation of before a reload is published afterwards only if it was published before. -/
theorem publish (h : Sequential published inner scrapes) (config : RuntimeConfig) (hdistinct : config.Distinct) :
    Sequential (published.publish config hdistinct) inner scrapes := by
  refine ⟨?_, ?_, h.underWay, h.settled, h.observed⟩
  · intro id live hlive
    exact (h.known id live hlive).trans_le PublishedRuntime.nextGenerations_le
  · intro id generation scrape hscrape
    obtain ⟨hbelow, hcurrent⟩ := h.pending id generation scrape hscrape
    refine ⟨hbelow.trans_le PublishedRuntime.nextGenerations_le, fun hpublished => hcurrent ?_⟩
    exact PublishedRuntime.generation_of_publish hpublished hbelow

/-- Of the live states only one changes, and that one keeps its generation. -/
theorem replace (h : Sequential published inner scrapes) {id : BackendId} {live : LiveBackend} (new : LiveBackend)
    (hlive : inner.backends id = some live) (hgeneration : new.topologyGeneration = live.topologyGeneration)
    {scrape : Option (Nat × MetricsScrapeContext)}
    (hpending : ∀ generation context, scrape = some (generation, context) →
      generation = live.topologyGeneration ∧ context.serial = new.metricsScrapesStarted ∧
        new.metricsLastCompletedScrape + 1 = new.metricsScrapesStarted)
    (hsettled : scrape = none → new.metricsLastCompletedScrape = new.metricsScrapesStarted)
    (hobserved : new.engineIdleStreak ≠ 0 →
      ∃ observation, new.metrics = some observation ∧ observation.scrapeSerial = new.metricsLastCompletedScrape) :
    Sequential published { inner with backends := Function.update inner.backends id (some new) }
      (Function.update scrapes id scrape) := by
  have hself : ∀ {found}, Function.update inner.backends id (some new) id = some found → found = new := by
    intro found hfound
    rw [Function.update_self] at hfound
    exact (Option.some.inj hfound).symm
  have hothers : ∀ {other found}, other ≠ id → Function.update inner.backends id (some new) other = some found →
      inner.backends other = some found :=
    fun hother hfound => (Function.update_of_ne hother _ _).symm.trans hfound
  refine ⟨?_, ?_, ?_, ?_, ?_⟩
  · intro other found hfound
    by_cases hother : other = id
    · subst hother
      rw [hself hfound, hgeneration]
      exact h.known other live hlive
    · exact h.known other found (hothers hother hfound)
  · intro other generation context hscrape
    by_cases hother : other = id
    · subst hother
      rw [Function.update_self] at hscrape
      obtain ⟨rfl, _⟩ := hpending generation context hscrape
      exact ⟨h.known other live hlive, fun _ => ⟨new, Function.update_self _ _ _, hgeneration⟩⟩
    · rw [Function.update_of_ne hother] at hscrape
      obtain ⟨hbelow, hcurrent⟩ := h.pending other generation context hscrape
      refine ⟨hbelow, fun hpublished => ?_⟩
      obtain ⟨found, hfound, hsame⟩ := hcurrent hpublished
      exact ⟨found, (Function.update_of_ne hother _ _).trans hfound, hsame⟩
  · intro other generation context found hscrape hfound hsame
    by_cases hother : other = id
    · subst hother
      rw [Function.update_self] at hscrape
      rw [hself hfound]
      exact (hpending generation context hscrape).2
    · rw [Function.update_of_ne hother] at hscrape
      exact h.underWay other generation context found hscrape (hothers hother hfound) hsame
  · intro other found hfound hnone
    by_cases hother : other = id
    · subst hother
      obtain rfl := hself hfound
      cases hscrape : scrape with
      | none => exact hsettled hscrape
      | some pending =>
          obtain ⟨hmatch, _⟩ := hpending pending.1 pending.2 hscrape
          refine absurd ?_ (hnone pending.1 pending.2 ?_)
          · rw [hgeneration, hmatch]
          · rw [Function.update_self, hscrape]
    · rw [Function.update_of_ne hother] at hnone
      exact h.settled other found (hothers hother hfound) hnone
  · intro other found hfound hstreak
    by_cases hother : other = id
    · subst hother
      rw [hself hfound] at hstreak ⊢
      exact hobserved hstreak
    · exact h.observed other found (hothers hother hfound) hstreak

/-- A scrape that is forgotten without having been of the live generation. -/
theorem forget (h : Sequential published inner scrapes) {id : BackendId}
    (hnone : ∀ generation context live, scrapes id = some (generation, context) → inner.backends id = some live →
      live.topologyGeneration ≠ generation) :
    Sequential published inner (Function.update scrapes id none) := by
  have hother : ∀ {other pending}, Function.update scrapes id none other = some pending →
      other ≠ id ∧ scrapes other = some pending := by
    intro other pending hscrape
    by_cases hother : other = id
    · rw [hother, Function.update_self] at hscrape
      cases hscrape
    · exact ⟨hother, by rwa [Function.update_of_ne hother] at hscrape⟩
  refine ⟨h.known, ?_, ?_, ?_, h.observed⟩
  · intro other generation context hscrape
    exact h.pending other generation context (hother hscrape).2
  · intro other generation context live hscrape
    exact h.underWay other generation context live (hother hscrape).2
  · intro other live hlive hunmatched
    apply h.settled other live hlive
    intro generation context hscrape
    by_cases hid : other = id
    · subst hid
      exact hnone generation context live hscrape hlive
    · exact hunmatched generation context (by rwa [Function.update_of_ne hid])

end Sequential

namespace RoutingInner

variable {published : PublishedRuntime} {inner : RoutingInner} {id : BackendId} {generation : Nat} {α : Type}
  {f : LiveBackend → LiveBackend × α}

/-- A result for the generation of the synchronised live state replaces that state; any other result only
synchronises. -/
theorem updateLive_cases (published : PublishedRuntime) (id : BackendId) (generation : Nat)
    (f : LiveBackend → LiveBackend × α) (inner : RoutingInner) :
    (∃ live, (inner.ensureBackends published).backends id = some live ∧ live.topologyGeneration = generation ∧
        inner.updateLive published id generation f =
          ({ inner.ensureBackends published with
            backends := Function.update (inner.ensureBackends published).backends id (some (f live).1) },
            some (f live).2)) ∨
      (∀ live, (inner.ensureBackends published).backends id = some live → live.topologyGeneration ≠ generation) ∧
        inner.updateLive published id generation f = (inner.ensureBackends published, none) := by
  unfold updateLive
  cases hlive : (inner.ensureBackends published).backends id with
  | none => exact .inr ⟨by simp, by simp [hlive]⟩
  | some live =>
      by_cases hgeneration : live.topologyGeneration = generation
      · exact .inl ⟨live, rfl, hgeneration, by simp [hlive, hgeneration]⟩
      · refine .inr ⟨?_, by simp [hlive, hgeneration]⟩
        intro other hother
        rw [← Option.some.inj hother]
        exact hgeneration

end RoutingInner

namespace Sequential

variable {world next : ControlWorld}

theorem beginScrape {published : PublishedRuntime} {inner : RoutingInner}
    {scrapes : BackendId → Option (Nat × MetricsScrapeContext)} (h : Sequential published inner scrapes)
    {id : BackendId} (hnone : scrapes id = none) (registry : BackendRegistry) (generation now : Nat) :
    Sequential published (inner.beginMetricsScrape published registry id generation now).1
      (Function.update scrapes id ((inner.beginMetricsScrape published registry id generation now).2.map
        fun scrape => (generation, scrape))) := by
  have hsynchronised := h.synchronise
  have hfree : ∀ {live : LiveBackend} (generation : Nat) (scrape : MetricsScrapeContext),
      scrapes id = some (generation, scrape) → live.topologyGeneration ≠ generation := by
    intro live generation scrape hscrape
    rw [hnone] at hscrape
    cases hscrape
  unfold RoutingInner.beginMetricsScrape
  rcases RoutingInner.updateLive_cases published id generation (LiveBackend.beginScrape
    (((BackendRegistry.get id registry).map SlotState.totalAcquired).getD 0) now) inner with
    ⟨live, hlive, hgeneration, heq⟩ | ⟨_, heq⟩
  · have hsettled := hsynchronised.settled id live hlive hfree
    rw [heq]
    refine hsynchronised.replace (live.beginScrape _ now).1 hlive rfl ?_ ?_ ?_
    · intro found context hscrape
      simp only [Option.map_some, Option.some.injEq, Prod.mk.injEq] at hscrape
      obtain ⟨rfl, rfl⟩ := hscrape
      exact ⟨hgeneration.symm, rfl, congrArg (· + 1) hsettled⟩
    · intro hscrape
      cases hscrape
    · exact hsynchronised.observed id live hlive
  · rw [heq]
    exact hsynchronised.forget fun generation context live hscrape _ => hfree generation context hscrape

/-- A completion of the scrape under way: it takes effect on the live state of its generation. -/
theorem complete {published : PublishedRuntime} {inner : RoutingInner}
    {scrapes : BackendId → Option (Nat × MetricsScrapeContext)} (h : Sequential published inner scrapes)
    {id : BackendId} {generation : Nat} {scrape : MetricsScrapeContext}
    (hscrape : scrapes id = some (generation, scrape))
    {f : LiveBackend → LiveBackend}
    (hf : ∀ live : LiveBackend, live.metricsLastCompletedScrape < scrape.serial →
      (f live).topologyGeneration = live.topologyGeneration ∧
      (f live).metricsScrapesStarted = live.metricsScrapesStarted ∧
      (f live).metricsLastCompletedScrape = scrape.serial ∧
      ((f live).engineIdleStreak ≠ 0 →
        ∃ observation, (f live).metrics = some observation ∧ observation.scrapeSerial = scrape.serial)) :
    Sequential published (inner.updateLive published id generation fun live => (f live, ())).1
      (Function.update scrapes id none) := by
  have hsynchronised := h.synchronise
  rcases RoutingInner.updateLive_cases published id generation (fun live => (f live, ())) inner with
    ⟨live, hlive, hgeneration, heq⟩ | ⟨hnone, heq⟩
  · obtain ⟨hserial, hnext⟩ := hsynchronised.underWay id generation scrape live hscrape hlive hgeneration
    obtain ⟨hsame, hstarted, hcompleted, hobserved⟩ := hf live (by omega)
    rw [heq]
    refine hsynchronised.replace (f live) hlive hsame ?_ ?_ ?_
    · intro found context hpending
      cases hpending
    · intro _
      rw [hcompleted, hstarted, hserial]
    · rw [hcompleted]
      exact hobserved
  · rw [heq]
    apply hsynchronised.forget
    intro found context live hpending hlive
    rw [hscrape] at hpending
    cases hpending
    exact hnone live hlive

theorem scrapesKept (h : Sequential world.published world.routing.inner world.scrapes)
    (hkept : ControlWorld.ScrapesKept world next) :
    Sequential world.published next.routing.inner world.scrapes := by
  rcases hkept with hkept | hkept
  · exact h.frame hkept
  · exact h.synchronise.frame hkept

theorem boot {config : ValidConfig} {store : BackendStateStore} {now : Nat}
    (h : ControlWorld.boot config store now = some world) :
    Sequential world.published world.routing.inner world.scrapes := by
  rw [(ControlWorld.boot_live h).2]
  exact (new world.published).frame (RoutingInner.SameScrapes.of_backends (ControlWorld.boot_live h).1)

theorem step (h : Sequential world.published world.routing.inner world.scrapes) {op : ControlOp}
    (hstep : world.step op = some next) : Sequential next.published next.routing.inner next.scrapes := by
  cases op with
  | beginScrape id generation =>
      simp only [ControlWorld.step] at hstep
      split at hstep
      · cases hstep
      · rename_i hnone
        cases hstep
        exact h.beginScrape (by simpa using hnone) world.registry generation world.now
  | endScrape id result =>
      obtain ⟨⟨generation, scrape⟩, hscrape, rfl⟩ := Option.map_eq_some_iff.mp hstep
      cases result with
      | ok metrics =>
          apply h.complete hscrape
          intro live hlate
          simp [LiveBackend.metricsSuccess, Nat.not_le.mpr hlate]
      | error error =>
          apply h.complete hscrape
          intro live hlate
          simp [LiveBackend.metricsFailure, Nat.not_le.mpr hlate]
  | restart config => exact boot (ControlWorld.restart_some hstep).2
  | select | request | readiness | elapse | drain | activate | disable | reload | drive | proceed =>
      obtain ⟨hscrapes, hkept⟩ := ControlWorld.step_scrapesKept rfl (fun _ => ControlOp.noConfusion) hstep
      rw [hscrapes]
      rcases ControlWorld.step_published (fun _ => ControlOp.noConfusion) hstep with
        hpublished | ⟨_, config, _, _, _, hpublished, hinner⟩
      · rw [hpublished]
        exact h.scrapesKept hkept
      · rw [hpublished, hinner]
        exact h.publish config.val config.property

theorem of_run {guard : ControlWorld → ControlOp → Prop} {record : List ControlStep}
    (hrun : Run controlSystem guard record world) :
    Sequential world.published world.routing.inner world.scrapes := by
  refine hrun.invariant (I := fun world => Sequential world.published world.routing.inner world.scrapes) ?_ ?_
  · rintro world ⟨config, store, now, hboot⟩
    exact boot hboot
  · intro world op next h _ hnext
    exact h.step hnext

end Sequential

end MistralrsProxy
