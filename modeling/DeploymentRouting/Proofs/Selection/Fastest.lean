import DeploymentRouting.Proofs.Selection.Chosen
import DeploymentRouting.Proofs.Selection.Determined
import Mathlib.Algebra.BigOperators.Group.List.Basic
import Mathlib.Algebra.GroupWithZero.Nat
/-!
The choice by latency. Candidates whose latency is not known yet count as average, so that they are
neither avoided nor all tried first. The strategy walks once through the live candidates and keeps
the best so far. What it ends with does not depend on that walk: it is the first of all by latency
and, where latencies are the same, by id.
-/
namespace DeploymentRouting.Selection

/-- Candidates in the order of a measure, and of their ids where it is the same. -/
def Before (measure : Candidate → Nat) (a b : Candidate) : Prop :=
  measure a < measure b ∨ measure a = measure b ∧ a.id ≤ b.id

/-- The latencies that are known of the live candidates of a tier. -/
def knownLatencies (now : Instant) (tier : List Candidate) : List Duration :=
  measuredLatencies (tier.filter (·.isLive now))

/-- The mean of the latencies that are known, to the nanosecond below, and zero if none is. -/
def expectedLatency (now : Instant) (tier : List Candidate) : Duration :=
  if knownLatencies now tier = [] then 0
  else (knownLatencies now tier).sum / (knownLatencies now tier).length

/-- The latency that counts for a candidate. -/
def effectiveLatency (now : Instant) (tier : List Candidate) (candidate : Candidate) : Duration :=
  candidate.health.averageLatency.getD (expectedLatency now tier)

/-- A live candidate that comes before all others of its tier. -/
structure Fastest (now : Instant) (tier : List Candidate) (best : Candidate) : Prop where
  mem : best ∈ tier
  live : best.isLive now = true
  least : ∀ other ∈ tier, other.isLive now = true → Before (effectiveLatency now tier) best other

variable {now : Instant} {tier : List Candidate} {tiers : List (List Candidate)}

namespace Before

variable {measure : Candidate → Nat} {a b c : Candidate}

instance (measure : Candidate → Nat) (a b : Candidate) : Decidable (Before measure a b) :=
  inferInstanceAs (Decidable (_ ∨ _))

theorem refl (measure : Candidate → Nat) (a : Candidate) : Before measure a a :=
  .inr ⟨rfl, Std.le_refl _⟩

theorem le (h : Before measure a b) : measure a ≤ measure b :=
  h.elim Nat.le_of_lt fun hSame => Nat.le_of_eq hSame.1

theorem trans (hFirst : Before measure a b) (hSecond : Before measure b c) :
    Before measure a c := by
  rcases hFirst with hLess | ⟨hSame, hId⟩
  · exact .inl (Nat.lt_of_lt_of_le hLess hSecond.le)
  · rcases hSecond with hLess | ⟨hNext, hNextId⟩
    · exact .inl (hSame ▸ hLess)
    · exact .inr ⟨hSame.trans hNext, Std.le_trans hId hNextId⟩

theorem id_eq (hFirst : Before measure a b) (hSecond : Before measure b a) : a.id = b.id := by
  have hSame : measure a = measure b := Nat.le_antisymm hFirst.le hSecond.le
  rcases hFirst with hLess | ⟨_, hLe⟩
  · exact absurd hSame (Nat.ne_of_lt hLess)
  · rcases hSecond with hLess | ⟨_, hGe⟩
    · exact absurd hSame.symm (Nat.ne_of_lt hLess)
    · exact Std.le_antisymm hLe hGe

end Before

/-- In the order of ids, the candidate that no later one undercuts comes before all. -/
theorem lowest_before (measure : Candidate → Nat) {best : Candidate} {rest : List Candidate}
    (hAscending : (best :: rest).Pairwise fun a b => a.id < b.id) :
    ∀ other ∈ best :: rest,
      Before measure (lowest (fun a b => decide (a < b)) measure best rest) other := by
  induction rest generalizing best with
  | nil => exact List.forall_mem_singleton.mpr (Before.refl measure best)
  | cons candidate rest ih =>
      obtain ⟨hFirst, hRest⟩ := List.pairwise_cons.mp hAscending
      unfold lowest
      simp only [decide_eq_true_eq]
      split
      next hBelow =>
        have hKept := ih hRest
        have hBest : Before measure candidate best := .inl hBelow
        exact List.forall_mem_cons.mpr ⟨(hKept candidate List.mem_cons_self).trans hBest, hKept⟩
      next hNot =>
        have hSublist : (best :: rest).Sublist (best :: candidate :: rest) :=
          (List.sublist_cons_self candidate rest).cons_cons best
        have hKept := ih (hAscending.sublist hSublist)
        have hNext : Before measure best candidate :=
          (Nat.lt_or_eq_of_le (Nat.not_lt.mp hNot)).imp_right fun hSame =>
            ⟨hSame, Std.le_of_lt (hFirst candidate List.mem_cons_self)⟩
        have hBest := hKept best List.mem_cons_self
        exact List.forall_mem_cons.mpr ⟨hBest, List.forall_mem_cons.mpr ⟨hBest.trans hNext,
          (List.forall_mem_cons.mp hKept).2⟩⟩

theorem mem_knownLatencies {latency : Duration} :
    latency ∈ knownLatencies now tier ↔ ∃ candidate ∈ tier, candidate.isLive now = true ∧
      candidate.health.averageLatency = some latency := by
  simp [knownLatencies, measuredLatencies, and_assoc]

/-- The order of the candidates does not matter to their mean. -/
theorem meanLatency_live (hSum : (knownLatencies now tier).sum ≤ Duration.longest)
    (hCount : (knownLatencies now tier).length ≤ Counter.top32) :
    meanLatency (live now tier) = some (expectedLatency now tier) := by
  have hPerm : (measuredLatencies (live now tier)).Perm (knownLatencies now tier) :=
    (Sorting.perm_sortBy _ _).filterMap _
  have hFit : LatenciesFit .latencyBased (live now tier) := fun _ =>
    ⟨hPerm.sum_eq.trans_le hSum, hPerm.length_eq.trans_le hCount⟩
  rw [meanLatency_eq_some hFit, expectedLatency, hPerm.sum_eq, hPerm.length_eq]
  split
  next hNone => rw [hNone, List.length_nil, Nat.div_zero]
  next => rfl

theorem Fastest.unique {best other : Candidate}
    (hDistinct : ((tier.filter (·.isLive now)).map Candidate.id).Nodup)
    (hBest : Fastest now tier best) (hOther : Fastest now tier other) : other = best :=
  List.inj_on_of_nodup_map hDistinct (List.mem_filter.mpr ⟨hOther.mem, hOther.live⟩)
    (List.mem_filter.mpr ⟨hBest.mem, hBest.live⟩)
    ((hOther.least best hBest.mem hBest.live).id_eq (hBest.least other hOther.mem hOther.live))

/-- A candidate of unknown latency is first only where the mean is no more than the least. -/
theorem Fastest.min?_eq_expectedLatency {best : Candidate} (hBest : Fastest now tier best)
    (hUnknown : best.health.averageLatency = none) (hSome : knownLatencies now tier ≠ []) :
    (knownLatencies now tier).min? = some (expectedLatency now tier) := by
  cases hLeast : (knownLatencies now tier).min? with
  | none => exact absurd (List.min?_eq_none_iff.mp hLeast) hSome
  | some least =>
      have hMean : least ≤ expectedLatency now tier := by
        rw [expectedLatency, if_neg hSome]
        exact List.le_sum_div_length_of_min?_eq_some_nat hLeast
      obtain ⟨candidate, hMem, hLive, hLatency⟩ := mem_knownLatencies.mp (List.min?_mem hLeast)
      have hFirst := (hBest.least candidate hMem hLive).le
      rw [effectiveLatency, effectiveLatency, hUnknown, hLatency] at hFirst
      exact congrArg some (Nat.le_antisymm hMean hFirst)

/-- The walk through the live candidates ends with the first of them. -/
theorem fastest_lowestLatency {first : Candidate} {rest : List Candidate}
    (hDistinct : ((tier.filter (·.isLive now)).map Candidate.id).Nodup)
    (hSum : (knownLatencies now tier).sum ≤ Duration.longest)
    (hCount : (knownLatencies now tier).length ≤ Counter.top32)
    (hLive : live now tier = first :: rest) :
    ∃ best, lowestLatency first rest = some best ∧ Fastest now tier best := by
  have hAscending : (first :: rest).Pairwise fun a b => a.id < b.id :=
    hLive ▸ Sorting.ascending_sortBy_key Candidate.id hDistinct
  have hMeasure : lowestLatency first rest =
      some (lowest (fun a b => decide (a < b)) (effectiveLatency now tier) first rest) := by
    rw [lowestLatency, ← hLive, meanLatency_live hSum hCount]
    rfl
  have hMem : lowest (fun a b => decide (a < b)) (effectiveLatency now tier) first rest ∈
      live now tier := hLive ▸ lowest_mem _ _ first rest
  obtain ⟨hTier, hIsLive⟩ := mem_of_mem_live hMem
  refine ⟨_, hMeasure, hTier, hIsLive, fun other hOther hOtherLive => ?_⟩
  have hOther : other ∈ first :: rest :=
    hLive ▸ (Sorting.mem_sortBy _).mpr (List.mem_filter.mpr ⟨hOther, hOtherLive⟩)
  exact lowest_before _ hAscending other hOther

/-- By latency the choice falls on the one live candidate of the first live tier that comes before
all others there: its latency is the least, where an unknown one counts as the mean of those that
are known, and among those of the same latency its id is the least. The rotation and chance have no
part in it. If any latency is known, a candidate of unknown latency is chosen only if the mean, to
the nanosecond below, is the least of them. The latencies that are known add up to a span, and a
32-bit counter can hold their number; otherwise there is no mean. -/
theorem select_fastest (model : String) (cursors : Cursors) (random : RandomSource)
    (hFirst : FirstLive now tiers tier)
    (hDistinct : ((tier.filter (·.isLive now)).map Candidate.id).Nodup)
    (hSum : (knownLatencies now tier).sum ≤ Duration.longest)
    (hCount : (knownLatencies now tier).length ≤ Counter.top32) :
    ∃ best, Fastest now tier best ∧ (∀ other, Fastest now tier other → other = best) ∧
      select .latencyBased model now cursors random tiers =
        (.chosen best.deployment, cursors, random) ∧
      (best.health.averageLatency = none → knownLatencies now tier ≠ [] →
        (knownLatencies now tier).min? = some (expectedLatency now tier)) := by
  cases hLive : live now tier with
  | nil => exact absurd hLive hFirst.live_ne_nil
  | cons first rest =>
      obtain ⟨best, hLowest, hBest⟩ := fastest_lowestLatency hDistinct hSum hCount hLive
      refine ⟨best, hBest, fun other => hBest.unique hDistinct, ?_, hBest.min?_eq_expectedLatency⟩
      rw [select_of_firstLive _ _ _ _ hFirst, select, hLive]
      simp only [choose, hLowest]

def timedCandidate (id : String) (latency : Duration) : Candidate :=
  { idleCandidate id 1.0 with health := { averageLatency := some latency } }

def timedTier : List Candidate :=
  [timedCandidate "d3" 10, restingCandidate "d0", idleCandidate "d1" 1.0, timedCandidate "d2" 11]

/-- The mean of 10 and 11 is rounded to 10, so a candidate of unknown latency is as fast as the
fastest one and goes first by its id. -/
theorem select_fastest_rounded :
    select .latencyBased "m" 50 {} { words := [] } [[restingCandidate "d0"], timedTier] =
        (.chosen (idleCandidate "d1" 1.0).deployment, {}, { words := [] }) ∧
      (knownLatencies 50 timedTier).min? = some (expectedLatency 50 timedTier) ∧
      expectedLatency 50 timedTier = 10 := by
  have hFirst : FirstLive 50 [[restingCandidate "d0"], timedTier] timedTier :=
    .later (by decide) (.here ⟨_, List.mem_cons_self, rfl⟩)
  have hFastest : Fastest 50 timedTier (idleCandidate "d1" 1.0) := by
    refine ⟨by simp [timedTier], rfl, ?_⟩
    decide
  obtain ⟨best, -, hUnique, hSelect, hMean⟩ :=
    select_fastest "m" {} { words := [] } hFirst (by decide) (by decide) (by decide)
  obtain rfl := hUnique _ hFastest
  exact ⟨hSelect, hMean rfl (by decide), by decide⟩

end DeploymentRouting.Selection
