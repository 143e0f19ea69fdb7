import DeploymentRouting.Proofs.Health.Cooldown
import DeploymentRouting.Settings
import Mathlib.Algebra.Order.Ring.Nat
/-!
Rests that double. With settings that a router can work with, neither the 32 bits of the factor nor
the longest span that can be told ever cuts off a rest. Where the free failures are used up, the
rest after a failure is just the base doubled for each failure since, up to the bounds that the
settings give. So in a series of failures no rest is shorter than the one before it.
-/
namespace DeploymentRouting

namespace CooldownPolicy

/-- A policy under which no rest is cut off but by its own bounds. -/
structure Exact (policy : CooldownPolicy) : Prop where
  base_le_longest : policy.base ≤ policy.longest
  maxExponent_le : policy.maxExponent ≤ 31
  longest_le : policy.longest ≤ Duration.longest

/-- The base after so many doublings, within the bounds of a policy. -/
def rest (policy : CooldownPolicy) (doublings : Nat) : Duration :=
  min (policy.base * 2 ^ min doublings policy.maxExponent) policy.longest

variable {policy : CooldownPolicy} {failures more : Nat} {span : Duration}

theorem doubling_eq_pow {exponent : Nat} (hFits : exponent ≤ 31) :
    doubling exponent = 2 ^ exponent :=
  if_pos hFits

theorem backoff_eq_none_iff :
    policy.backoff failures = none ↔ failures ≤ policy.allowedFailures := by
  unfold backoff
  split
  next hFree => exact iff_of_true rfl hFree
  next hBeyond => exact iff_of_false (Option.some_ne_none _) hBeyond

theorem backoff_eq_some (hExact : policy.Exact) (hBeyond : policy.allowedFailures < failures) :
    policy.backoff failures = some (policy.rest (failures - policy.allowedFailures - 1)) := by
  have hExponent : min (failures - policy.allowedFailures - 1) policy.maxExponent ≤ 31 :=
    Nat.le_trans (Nat.min_le_right _ _) hExact.maxExponent_le
  unfold backoff
  rw [if_neg (Nat.not_le.mpr hBeyond)]
  simp only [doubling_eq_pow hExponent]
  -- Where the span would be too long to tell, the longest rest is shorter anyway.
  rw [Duration.scale, Nat.min_assoc, Nat.min_eq_right hExact.longest_le, rest]

theorem base_le_rest (hExact : policy.Exact) (doublings : Nat) :
    policy.base ≤ policy.rest doublings :=
  Nat.le_min.mpr ⟨Nat.le_mul_of_pos_right _ (Nat.two_pow_pos _), hExact.base_le_longest⟩

theorem rest_le_longest (policy : CooldownPolicy) (doublings : Nat) :
    policy.rest doublings ≤ policy.longest :=
  Nat.min_le_right _ _

theorem rest_mono (policy : CooldownPolicy) {fewer doublings : Nat} (h : fewer ≤ doublings) :
    policy.rest fewer ≤ policy.rest doublings := by
  have hExponent : min fewer policy.maxExponent ≤ min doublings policy.maxExponent :=
    min_le_min_right _ h
  have hSpan := Nat.mul_le_mul_left policy.base (Nat.pow_le_pow_right Nat.two_pos hExponent)
  exact min_le_min_right policy.longest hSpan

/-- A rest comes only when the free failures are used up. -/
theorem of_backoff_eq_some (hExact : policy.Exact) (h : policy.backoff failures = some span) :
    policy.allowedFailures < failures ∧
      span = policy.rest (failures - policy.allowedFailures - 1) := by
  have hBeyond : policy.allowedFailures < failures := Nat.lt_of_not_le fun hFree => by
    rw [backoff_eq_none_iff.mpr hFree] at h
    cases h
  rw [backoff_eq_some hExact hBeyond] at h
  exact ⟨hBeyond, (Option.some.inj h).symm⟩

theorem backoff_mono (hExact : policy.Exact) (hMore : failures ≤ more)
    (h : policy.backoff failures = some span) :
    ∃ longer, policy.backoff more = some longer ∧ span ≤ longer := by
  obtain ⟨hBeyond, rfl⟩ := of_backoff_eq_some hExact h
  exact ⟨_, backoff_eq_some hExact (Nat.lt_of_lt_of_le hBeyond hMore),
    rest_mono policy (Nat.sub_le_sub_right (Nat.sub_le_sub_right hMore _) 1)⟩

end CooldownPolicy

namespace OutcomeHistory

variable {policy : CooldownPolicy} {history between : OutcomeHistory}

/-- Without a success a series of failures only grows. -/
theorem consecutiveFailures_le_append (hSeries : ∀ entry ∈ between, entry.1 ≠ .success) :
    history.consecutiveFailures ≤ consecutiveFailures (history ++ between) := by
  have hPassed : ∀ entry ∈ between.reverse, (entry.1 != .success) = true := fun entry hEntry =>
    bne_iff_ne.mpr (hSeries entry (List.mem_reverse.mp hEntry))
  have hGrows : history.failuresSinceSuccess ≤ failuresSinceSuccess (history ++ between) := by
    rw [failuresSinceSuccess, failuresSinceSuccess, List.reverse_append,
      List.takeWhile_append_of_pos hPassed, List.countP_append]
    exact Nat.le_add_left _ _
  exact Nat.le_min.mpr ⟨Nat.le_trans (Nat.min_le_left _ _) hGrows, Nat.min_le_right _ _⟩

/-- In a series of failures each calls for a rest that is no shorter than the one before it. -/
theorem restEnd?_series (hExact : policy.Exact) {first second : Outcome} {now later ends : Instant}
    (hSecond : second.isHealthFailure = true) (hSeries : ∀ entry ∈ between, entry.1 ≠ .success)
    (h : restEnd? policy (history ++ [(first, now)]) = some ends) :
    ∃ laterEnds, restEnd? policy (history ++ [(first, now)] ++ between ++ [(second, later)]) =
        some laterEnds ∧ ends - now ≤ laterEnds - later := by
  have hFirst : first.isHealthFailure = true := by
    cases hHarmless : first.isHealthFailure with
    | true => rfl
    | false =>
        rw [restEnd?_harmless hHarmless] at h
        cases h
  rw [restEnd?_failure hFirst] at h
  obtain ⟨span, hSpan, rfl⟩ := Option.map_eq_some_iff.mp h
  have hMore : consecutiveFailures (history ++ [(first, now)]) ≤
      consecutiveFailures (history ++ [(first, now)] ++ between ++ [(second, later)]) := by
    rw [List.append_assoc]
    refine consecutiveFailures_le_append fun entry hEntry => ?_
    rcases List.mem_append.mp hEntry with hBetween | hLast
    · exact hSeries entry hBetween
    · rw [List.mem_singleton.mp hLast]
      rintro rfl
      cases hSecond
  obtain ⟨longer, hLonger, hLe⟩ := CooldownPolicy.backoff_mono hExact hMore hSpan
  refine ⟨later + longer, ?_, ?_⟩
  · rw [restEnd?_failure hSecond, hLonger]
    rfl
  · rwa [Nat.add_sub_cancel_left, Nat.add_sub_cancel_left]

end OutcomeHistory

namespace HealthTracker

/-- After a failure that is not free a tracker has the deployment rest for the base at least. -/
theorem base_le_cooldown {policy : CooldownPolicy} (hExact : policy.Exact) (window : Duration)
    (reports : List Report) (id : String) {outcome : Outcome}
    (hFailure : outcome.isHealthFailure = true) (now : Instant) :
    let view := (ofReports policy window (reports ++ [.outcome id outcome now])).view id now
    policy.allowedFailures < view.consecutiveFailures →
      ∃ ends, view.cooldownUntil = some ends ∧ now + policy.base ≤ ends := by
  intro view hBeyond
  have hFollows := (follows_ofReports policy window (reports ++ [.outcome id outcome now]) id).2
  rw [OutcomeHistory.ofReports_outcome] at hFollows
  have hCount : view.consecutiveFailures = _ := hFollows.consecutiveFailures
  have hCooldown : view.cooldownUntil = _ := hFollows.cooldownUntil
  rw [hCount] at hBeyond
  have hRest := CooldownPolicy.backoff_eq_some hExact hBeyond
  rw [OutcomeHistory.restEnds_concat, OutcomeHistory.restEnd?_failure hFailure, hRest,
    Option.map_some, Option.toList_some, OutcomeHistory.max?_concat] at hCooldown
  refine ⟨_, hCooldown, Nat.le_trans ?_ (Nat.le_max_right _ _)⟩
  exact Nat.add_le_add_left (CooldownPolicy.base_le_rest hExact _) now

end HealthTracker

namespace Settings

variable {settings : Settings}

/-- Settings without a fault, whose longest cooldown fits into 64 bits. -/
theorem exact_cooldownPolicy (hValid : settings.fault? = none)
    (hWidth : settings.cooldownMaxMs ≤ Counter.top64) : settings.cooldownPolicy.Exact := by
  have hBounds : settings.cooldownBaseMs ≤ settings.cooldownMaxMs ∧
      settings.cooldownMaxExponent ≤ 31 := by
    unfold fault? at hValid
    split_ifs at hValid with _ hShorter hExponent
    exact ⟨Nat.not_lt.mp hShorter, Nat.not_lt.mp hExponent⟩
  refine ⟨Nat.mul_le_mul_right _ hBounds.1, hBounds.2, ?_⟩
  calc settings.cooldownMaxMs * 1000000
      ≤ Counter.top64 * 1000000 := Nat.mul_le_mul_right _ hWidth
    _ ≤ Duration.longest := by decide

/-- Under settings without a fault, whose longest cooldown is told in 64 bits of milliseconds, a
number of failures calls for no rest just as long as they are free. Beyond that the rest is exactly
the base, doubled for each failure after the first, up to the greatest exponent and the longest
rest: nothing is lost to numbers that do not fit. It is no shorter than the base, no longer than the
longest, and never shorter for more failures. So each further failure in a row calls for a rest that
is no shorter than the last, and a tracker lets no failure that is not free pass without a cooldown
of the base at least. -/
theorem rests_double (hValid : settings.fault? = none)
    (hWidth : settings.cooldownMaxMs ≤ Counter.top64) :
    let policy := settings.cooldownPolicy
    (∀ failures, policy.backoff failures = none ↔ failures ≤ settings.allowedFails) ∧
    (∀ failures, settings.allowedFails < failures →
      policy.backoff failures = some (min
        (policy.base * 2 ^ min (failures - settings.allowedFails - 1) settings.cooldownMaxExponent)
        policy.longest)) ∧
    (∀ failures rest, policy.backoff failures = some rest →
      policy.base ≤ rest ∧ rest ≤ policy.longest) ∧
    (∀ failures more rest, failures ≤ more → policy.backoff failures = some rest →
      ∃ longer, policy.backoff more = some longer ∧ rest ≤ longer) ∧
    (∀ (history between : OutcomeHistory) first second now later ends,
      second.isHealthFailure = true → (∀ entry ∈ between, entry.1 ≠ .success) →
      OutcomeHistory.restEnd? policy (history ++ [(first, now)]) = some ends →
      ∃ laterEnds, OutcomeHistory.restEnd? policy
          (history ++ [(first, now)] ++ between ++ [(second, later)]) = some laterEnds ∧
        ends - now ≤ laterEnds - later) ∧
    ∀ window reports id outcome now, outcome.isHealthFailure = true →
      let view := (HealthTracker.ofReports policy window
        (reports ++ [.outcome id outcome now])).view id now
      settings.allowedFails < view.consecutiveFailures →
        ∃ ends, view.cooldownUntil = some ends ∧ now + policy.base ≤ ends := by
  intro policy
  have hExact : policy.Exact := exact_cooldownPolicy hValid hWidth
  refine ⟨fun failures => CooldownPolicy.backoff_eq_none_iff,
    fun failures hBeyond => CooldownPolicy.backoff_eq_some hExact hBeyond, ?_,
    fun failures more rest hMore => CooldownPolicy.backoff_mono hExact hMore, ?_, ?_⟩
  · intro failures rest hRest
    obtain ⟨_, rfl⟩ := CooldownPolicy.of_backoff_eq_some hExact hRest
    exact ⟨CooldownPolicy.base_le_rest hExact _, CooldownPolicy.rest_le_longest policy _⟩
  · intro history between first second now later ends hSecond hSeries
    exact OutcomeHistory.restEnd?_series hExact hSecond hSeries
  · intro window reports id outcome now hFailure
    exact HealthTracker.base_le_cooldown hExact window reports id hFailure now

/-- The longest cooldown that 64 bits of milliseconds can tell, and a base just below it. -/
def edgeSettings : Settings :=
  { allowedFails := 1, cooldownBaseMs := Counter.top64 - 1, cooldownMaxMs := Counter.top64
    cooldownMaxExponent := 31 }

/-- The base doubled 31 times is a span that cannot be told any more, and the rest is the longest
one none the less. -/
theorem rests_double_edge :
    let policy := edgeSettings.cooldownPolicy
    edgeSettings.fault? = none ∧ edgeSettings.cooldownMaxMs ≤ Counter.top64 ∧
      Duration.longest < policy.base * 2 ^ 31 ∧ policy.backoff 33 = some policy.longest ∧
      policy.backoff 2 = some policy.base ∧ policy.backoff 1 = none ∧
      ∃ ends, ((HealthTracker.ofReports policy 60 [.outcome "d1" .rateLimited 3,
          .outcome "d1" .retriableError 5]).view "d1" 5).cooldownUntil = some ends ∧
        5 + policy.base ≤ ends := by
  intro policy
  have hValid : edgeSettings.fault? = none := by decide
  have hWidth : edgeSettings.cooldownMaxMs ≤ Counter.top64 := by decide
  obtain ⟨hNone, hSome, -, -, -, hCooldown⟩ := rests_double hValid hWidth
  exact ⟨hValid, hWidth, by decide, hSome 33 (by decide), hSome 2 (by decide),
    (hNone 1).mpr (by decide),
    hCooldown 60 [.outcome "d1" .rateLimited 3] "d1" .retriableError 5 rfl (by decide)⟩

end Settings

end DeploymentRouting
