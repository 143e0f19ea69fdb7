import DeploymentRouting.Proofs.Dispatch.Trace
import DeploymentRouting.Proofs.Health.Cooldown
import DeploymentRouting.Proofs.Registry.Tiers
import DeploymentRouting.Proofs.Selection.Chosen
import Mathlib.Algebra.GroupWithZero.Nat
/-!
What a choice tells of the deployments that were not chosen. A choice is made whenever one can
be made, whatever the strategy: only weights that add up to no finite total leave chance without
a point to draw, and only latencies that add up to more than a span have no mean to compare with.
So a tier is passed over exactly when nothing in it can serve the request.
-/
namespace DeploymentRouting

namespace Selection

variable {strategy : Strategy} {model : String} {now : Instant} {cursors : Cursors}
  {random : RandomSource} {tiers : List (List Candidate)}

/-- The score by which a strategy weighs candidates, if it weighs them at all. -/
def score? : Strategy → Option (Candidate → Float)
  | .simpleShuffle => some (·.deployment.weight)
  | .leastBusy => some busyScore
  | .roundRobin | .latencyBased | .usageBased => none

/-- The scores of some candidates, added up from the left. -/
def totalScore (score : Candidate → Float) (candidates : List Candidate) : Float :=
  (candidates.map fun candidate => usableScore (score candidate)).foldl (· + ·) 0.0

/-- The candidates among which the choice is made: those of the first tier that has any. -/
def field (now : Instant) (tiers : List (List Candidate)) : List Candidate :=
  ((tiers.map (live now)).find? (!·.isEmpty)).getD []

/-- Whether the scores of some candidates, if the strategy weighs them, have a finite total. -/
def FiniteTotal (strategy : Strategy) (candidates : List Candidate) : Prop :=
  ∀ score, score? strategy = some score → (totalScore score candidates).isFinite = true

/-- Whether the known latencies of some candidates, if the strategy compares them, add up to a
span, and a 32-bit counter can hold their number. -/
def LatenciesFit (strategy : Strategy) (candidates : List Candidate) : Prop :=
  strategy = .latencyBased →
    (measuredLatencies candidates).sum ≤ Duration.longest ∧
      (measuredLatencies candidates).length ≤ Counter.top32

theorem live_eq_nil_iff {tier : List Candidate} :
    live now tier = [] ↔ ∀ candidate ∈ tier, candidate.isLive now = false := by
  rw [List.eq_nil_iff_forall_not_mem]
  simp [live]

theorem field_cons (tier : List Candidate) (tiers : List (List Candidate)) :
    field now (tier :: tiers) = if live now tier = [] then field now tiers else live now tier := by
  unfold field
  cases hLive : live now tier <;> simp [hLive]

/-- The choice is made among the candidates of the field, by the strategy alone. -/
theorem select_eq_choose :
    select strategy model now cursors random tiers =
      match field now tiers with
      | [] => (.noneEligible, cursors, random)
      | first :: rest =>
          match choose strategy model first rest cursors random with
          | (some candidate, cursors, random) => (.chosen candidate.deployment, cursors, random)
          | (none, cursors, random) => (.overflow, cursors, random) := by
  induction tiers with
  | nil => rfl
  | cons tier tiers ih =>
      rw [field_cons, select]
      cases hLive : live now tier with
      | nil => exact ih
      | cons first rest => rfl

/-- Latencies that fit have a mean, and the sum of none is zero. -/
theorem meanLatency_eq_some {candidates : List Candidate}
    (hFit : LatenciesFit .latencyBased candidates) :
    meanLatency candidates =
      some ((measuredLatencies candidates).sum / (measuredLatencies candidates).length) := by
  obtain ⟨hSum, hCount⟩ := hFit rfl
  unfold meanLatency
  simp only [← List.sum_eq_foldl_nat, Counter.wrap32_eq_self hCount, List.isEmpty_iff]
  split
  next hNone => simp [hNone]
  next hSome => simp [Nat.not_lt.mpr hSum, hSome]

/-- A mean fails to be told exactly when some latency is known and the sum or the counter of them
cannot hold what it is to hold. -/
theorem meanLatency_eq_none_iff {candidates : List Candidate} :
    meanLatency candidates = none ↔ measuredLatencies candidates ≠ [] ∧
      (Duration.longest < (measuredLatencies candidates).sum ∨
        Counter.top32 + 1 ∣ (measuredLatencies candidates).length) := by
  unfold meanLatency
  simp only [← List.sum_eq_foldl_nat, List.isEmpty_iff, ← Counter.wrap32_eq_zero_iff]
  split
  next hNone => simp [hNone]
  next hSome =>
    simp only [Bool.or_eq_true, decide_eq_true_eq, ne_eq, hSome, not_false_eq_true, true_and]
    split
    next hOver => exact iff_of_true rfl hOver
    next hFits => exact iff_of_false nofun hFits

theorem weighted_isSome {score : Candidate → Float} {first : Candidate} {rest : List Candidate}
    (hFinite : (totalScore score (first :: rest)).isFinite = true) (random : RandomSource) :
    (weighted score first rest random).1.isSome = true := by
  unfold totalScore at hFinite
  unfold weighted
  split
  next => rfl
  next =>
    simp only
    split
    next => rfl
    next => rfl

/-- Only a weighing or a mean can fail to choose among some candidates. -/
theorem choose_isSome {first : Candidate} {rest : List Candidate}
    (hFinite : FiniteTotal strategy (first :: rest)) (hFit : LatenciesFit strategy (first :: rest))
    (model : String) (cursors : Cursors) (random : RandomSource) :
    (choose strategy model first rest cursors random).1.isSome = true := by
  cases strategy with
  | simpleShuffle => exact weighted_isSome (hFinite _ rfl) random
  | leastBusy => exact weighted_isSome (hFinite _ rfl) random
  | roundRobin => rfl
  | latencyBased => simp only [choose, lowestLatency, meanLatency_eq_some hFit, Option.map_some,
      Option.isSome_some]
  | usageBased => rfl

/-- Nothing is chosen exactly when no tier has a live candidate. -/
theorem select_noneEligible_iff :
    (select strategy model now cursors random tiers).1 = .noneEligible ↔
      ∀ tier ∈ tiers, live now tier = [] := by
  induction tiers with
  | nil => simp [select]
  | cons tier tiers ih =>
      unfold select
      split
      next hNone =>
        rw [ih, List.forall_mem_cons]
        exact ⟨fun hRest => ⟨hNone, hRest⟩, fun hAll => hAll.2⟩
      next first rest hLive =>
        rw [List.forall_mem_cons, hLive]
        constructor
        · intro hNone
          split at hNone <;> cases hNone
        · rintro ⟨hNil, _⟩
          cases hNil

/-- With a finite total and latencies that fit the choice does not fail. -/
theorem select_ne_overflow (hFinite : FiniteTotal strategy (field now tiers))
    (hFit : LatenciesFit strategy (field now tiers)) :
    (select strategy model now cursors random tiers).1 ≠ .overflow := by
  rw [select_eq_choose]
  cases hField : field now tiers with
  | nil =>
      intro hOverflow
      cases hOverflow
  | cons first rest =>
      rw [hField] at hFinite hFit
      have hChoice := choose_isSome hFinite hFit model cursors random
      simp only
      split
      next =>
        intro hOverflow
        cases hOverflow
      next hOverflow =>
        rw [hOverflow] at hChoice
        cases hChoice

end Selection

namespace Router

/-- What a deployment needs so that it can be chosen for a request of some cost: it is not left
out, no cooldown of it goes beyond the present, and it has a place for that cost. -/
structure CanServe (router : Router) (excluded : List String) (cost : Nat) (now : Instant)
    (deployment : Deployment) : Prop where
  kept : deployment.id ∉ excluded
  eligible : router.isEligible deployment.id now = true
  admitted : router.limiter.admits deployment.id deployment.limits cost now = true

variable {router : Router} {model : String} {excluded : List String} {cost : Nat}
  {now : Instant} {random : RandomSource} {deployment : Deployment}

theorem isLive_candidate (router : Router) (cost : Nat) (now : Instant)
    (deployment : Deployment) :
    (router.candidate cost now deployment).isLive now =
      (router.isEligible deployment.id now &&
        router.limiter.admits deployment.id deployment.limits cost now) := by
  rw [isEligible, HealthTracker.isEligible_eq]
  rfl

theorem canServe_iff :
    router.CanServe excluded cost now deployment ↔
      deployment.id ∉ excluded ∧ (router.candidate cost now deployment).isLive now = true := by
  rw [isLive_candidate, Bool.and_eq_true]
  exact ⟨fun h => ⟨h.kept, h.eligible, h.admitted⟩, fun h => ⟨h.1, h.2.1, h.2.2⟩⟩

/-- What is registered for a model and not left out stands among its candidates. -/
theorem exists_mem_candidates {registered : List Deployment}
    (hRegistered : registered ∈ router.registry.candidates model)
    (hMem : deployment ∈ registered) (hKept : deployment.id ∉ excluded) :
    ∃ tier ∈ router.candidates model excluded cost now,
      router.candidate cost now deployment ∈ tier := by
  have hCandidate : router.candidate cost now deployment ∈
      (registered.filter (!excluded.contains ·.id)).map (router.candidate cost now) :=
    List.mem_map_of_mem (List.mem_filter.mpr ⟨hMem, by simpa using hKept⟩)
  refine ⟨_, List.mem_filter.mpr ⟨List.mem_map_of_mem hRegistered, ?_⟩, hCandidate⟩
  simpa [List.isEmpty_iff] using List.ne_nil_of_mem hCandidate

/-- The tiers of the candidates ascend like those of the registry. -/
theorem ascending_candidates (router : Router) (model : String) (excluded : List String)
    (cost : Nat) (now : Instant) :
    (router.candidates model excluded cost now).Pairwise fun lower upper =>
      ∀ a ∈ lower, ∀ b ∈ upper, a.deployment.tier < b.deployment.tier := by
  refine (List.pairwise_map.mpr ((Registry.ascending_tiers _).imp ?_)).filter _
  intro lower upper hLess a hA b hB
  obtain ⟨low, hLow, rfl⟩ := List.mem_map.mp hA
  obtain ⟨high, hHigh, rfl⟩ := List.mem_map.mp hB
  exact hLess low (List.mem_filter.mp hLow).1 high (List.mem_filter.mp hHigh).1

theorem level_candidates {tier : List Candidate} {a b : Candidate}
    (hTier : tier ∈ router.candidates model excluded cost now) (hA : a ∈ tier) (hB : b ∈ tier) :
    a.deployment.tier = b.deployment.tier := by
  obtain ⟨registered, hRegistered, rfl⟩ := List.mem_map.mp (List.mem_filter.mp hTier).1
  obtain ⟨left, hLeft, rfl⟩ := List.mem_map.mp hA
  obtain ⟨right, hRight, rfl⟩ := List.mem_map.mp hB
  exact Registry.level_of_mem_tiers hRegistered (List.mem_filter.mp hLeft).1
    (List.mem_filter.mp hRight).1

/-- No tier has a live candidate exactly when no deployment can serve. -/
theorem live_candidates_eq_nil_iff :
    (∀ tier ∈ router.candidates model excluded cost now, Selection.live now tier = []) ↔
      ∀ tier ∈ router.registry.candidates model, ∀ deployment ∈ tier,
        ¬router.CanServe excluded cost now deployment := by
  constructor
  · intro hNone registered hRegistered deployment hMem hServes
    obtain ⟨hKept, hLive⟩ := canServe_iff.mp hServes
    obtain ⟨tier, hTier, hCandidate⟩ := exists_mem_candidates hRegistered hMem hKept
    have hDead := Selection.live_eq_nil_iff.mp (hNone tier hTier) _ hCandidate
    rw [hLive] at hDead
    cases hDead
  · intro hNone tier hTier
    refine Selection.live_eq_nil_iff.mpr fun candidate hCandidate => ?_
    obtain ⟨registered, hRegistered, hMem, hKept, hView⟩ := mem_candidates hTier hCandidate
    refine Bool.eq_false_iff.mpr fun hLive => ?_
    rw [hView] at hLive
    exact hNone registered hRegistered _ hMem (canServe_iff.mpr ⟨hKept, hLive⟩)

/-- The deployment that is chosen can serve, and none of a lower tier can. -/
theorem lowest_of_select_chosen
    (h : (router.select model excluded cost now random).1 = .chosen deployment) :
    router.CanServe excluded cost now deployment ∧
      ∀ tier ∈ router.registry.candidates (router.registry.resolve model), ∀ other ∈ tier,
        other.tier < deployment.tier → ¬router.CanServe excluded cost now other := by
  have hChosen : (Selection.select router.settings.strategy (router.registry.resolve model) now
      router.cursors random
      (router.candidates (router.registry.resolve model) excluded cost now)).1 =
        .chosen deployment := h
  obtain ⟨earlier, decisive, later, hTiers, hPassed, candidate, hCandidate, rfl⟩ :=
    Selection.select_chosen hChosen
  obtain ⟨hMem, hLive⟩ := Selection.mem_of_mem_live hCandidate
  have hAscending := router.ascending_candidates (router.registry.resolve model) excluded cost now
  have hDecisive : decisive ∈
      router.candidates (router.registry.resolve model) excluded cost now := by
    rw [hTiers]
    exact List.mem_append_right earlier List.mem_cons_self
  obtain ⟨ownTier, hOwnTier, hOwn, hKept, hView⟩ := mem_candidates hDecisive hMem
  refine ⟨canServe_iff.mpr ⟨hKept, hView ▸ hLive⟩, ?_⟩
  intro registered hRegistered other hOther hLower hServes
  obtain ⟨hOtherKept, hOtherLive⟩ := canServe_iff.mp hServes
  obtain ⟨tier, hTier, hIn⟩ : ∃ tier ∈ router.candidates _ excluded cost now,
      router.candidate cost now other ∈ tier :=
    exists_mem_candidates hRegistered hOther hOtherKept
  -- A lower tier stands before the decisive one, where nothing is live.
  rw [hTiers] at hTier hAscending
  rcases List.mem_append.mp hTier with hEarlier | hRest
  · have hDead := Selection.live_eq_nil_iff.mp (hPassed tier hEarlier) _ hIn
    rw [hOtherLive] at hDead
    cases hDead
  · rcases List.mem_cons.mp hRest with rfl | hLater
    · exact Nat.ne_of_lt hLower (level_candidates hDecisive hIn hMem)
    · have hUpper := (List.pairwise_cons.mp (List.pairwise_append.mp hAscending).2.1).1
        tier hLater candidate hMem _ hIn
      exact Nat.lt_asymm hLower hUpper

/-- A deployment is chosen only if it is registered for the model that the name stands for and
can serve, and then nothing of a lower tier can. Nothing is chosen exactly when no deployment of
that model can serve. With a finite total of weights, and with latencies that fit where they are
compared, one of the two happens, whatever the strategy, the position of the rotation and the
chance. Only the rotation moves on. -/
theorem select_decides (router : Router) (model : String) (excluded : List String) (cost : Nat)
    (now : Instant) (random : RandomSource) :
    (∀ deployment, (router.select model excluded cost now random).1 = .chosen deployment →
      (∃ tier ∈ router.registry.candidates (router.registry.resolve model), deployment ∈ tier) ∧
        router.CanServe excluded cost now deployment ∧
        ∀ tier ∈ router.registry.candidates (router.registry.resolve model), ∀ other ∈ tier,
          other.tier < deployment.tier → ¬router.CanServe excluded cost now other) ∧
      ((router.select model excluded cost now random).1 = .noneEligible ↔
        ∀ tier ∈ router.registry.candidates (router.registry.resolve model),
          ∀ deployment ∈ tier, ¬router.CanServe excluded cost now deployment) ∧
      (Selection.FiniteTotal router.settings.strategy (Selection.field now
          (router.candidates (router.registry.resolve model) excluded cost now)) →
        Selection.LatenciesFit router.settings.strategy (Selection.field now
          (router.candidates (router.registry.resolve model) excluded cost now)) →
        (router.select model excluded cost now random).1 = .noneEligible ∨
          ∃ deployment, (router.select model excluded cost now random).1 = .chosen deployment) ∧
      (router.select model excluded cost now random).2 =
        { router with cursors := (router.select model excluded cost now random).2.cursors } := by
  refine ⟨fun deployment hChosen => ⟨select_chosen hChosen, lowest_of_select_chosen hChosen⟩,
    Selection.select_noneEligible_iff.trans live_candidates_eq_nil_iff, fun hFinite hFit => ?_, rfl⟩
  have hDrawn : (router.select model excluded cost now random).1 ≠ .overflow :=
    Selection.select_ne_overflow hFinite hFit
  cases hSelection : (router.select model excluded cost now random).1 with
  | chosen deployment => exact .inr ⟨deployment, rfl⟩
  | noneEligible => exact .inl rfl
  | overflow => exact absurd hSelection hDrawn

def tieredDeployment (id : String) (tier : Nat) (weight : Float) : Deployment :=
  { pairDeployment id with tier, weight }

/-- A router whose deployment of the lowest tier rests until instant 100. -/
def tieredRouter : Router :=
  let deployments := [tieredDeployment "d0" 0 1.0, tieredDeployment "d1" 1 0.5,
    tieredDeployment "d2" 1 0.25, tieredDeployment "d3" 1 2.5, tieredDeployment "d4" 2 8.0]
  { Router.new { strategy := .simpleShuffle } with
    registry := deployments.foldl Registry.put {}
    health := { records := Table.ofList [("d0", { cooldownUntil := some 100 })] } }

/-- While it rests and one of the next tier is left out, chance decides between the other two of
that tier, in proportion to weights of one half and two and a half. -/
theorem select_decides_tiered :
    ∃ deployment,
      (tieredRouter.select "m" ["d2"] 7 50 { words := [0x4000000000000000] }).1 =
        .chosen deployment ∧
      deployment.id = "d3" ∧ tieredRouter.CanServe ["d2"] 7 50 deployment ∧
      ∀ tier ∈ tieredRouter.registry.candidates (tieredRouter.registry.resolve "m"),
        ∀ other ∈ tier, other.tier < 1 → ¬tieredRouter.CanServe ["d2"] 7 50 other := by
  obtain ⟨hChosen, _, hDrawn, _⟩ :=
    tieredRouter.select_decides "m" ["d2"] 7 50 { words := [0x4000000000000000] }
  have hFinite : Selection.FiniteTotal .simpleShuffle (Selection.field 50
      (tieredRouter.candidates (tieredRouter.registry.resolve "m") ["d2"] 7 50)) := by
    intro score hScore
    cases hScore
    rfl
  obtain hNone | ⟨deployment, hDeployment⟩ := hDrawn hFinite nofun
  · cases hNone
  · have hDrawnLast : tieredDeployment "d3" 1 2.5 = deployment :=
      Selection.chosen.inj hDeployment
    obtain ⟨_, hServes, hLower⟩ := hChosen deployment hDeployment
    rw [← hDrawnLast] at hServes hLower hDeployment
    exact ⟨_, hDeployment, rfl, hServes, hLower⟩

end Router

end DeploymentRouting
