import DeploymentRouting.Proofs.Selection.Eligible
import DeploymentRouting.Proofs.Selection.Rounding
/-!
When a choice by weights fails. Each weight is checked by itself, but a point is drawn below the
total of all scores, which can be infinite. It is finite as long as no weight is extremely great,
however the calls in flight divide the weights and wherever chance points.
-/
namespace DeploymentRouting

namespace Selection

open Rounding

variable {strategy : Strategy} {model : String} {now : Instant} {cursors : Cursors}
  {random : RandomSource} {tiers : List (List Candidate)} {score : Candidate → Float}
  {candidates : List Candidate}

/-- A score counts as it is if it is above zero, and else for nothing. -/
theorem usableScore_cases (value : Float) :
    usableScore value = 0.0 ∨ usableScore value = value ∧ 0.0 < value := by
  unfold usableScore
  by_cases hPositive : 0.0 < value
  · simp only [if_pos hPositive]
    split
    · exact .inr ⟨rfl, hPositive⟩
    · exact .inl rfl
  · simp only [if_neg hPositive]
    split
    · exact .inl rfl
    · exact .inl rfl

theorem notNegative_of_pos {value : Float} (h : 0.0 < value) :
    NotNegative value.toModel.unpack := by
  have hLess : Float.Model.UnpackedFloat.lt (.zero .positive) value.toModel.unpack = true :=
    of_decide_eq_true h
  cases hValue : value.toModel.unpack with
  | notANumber =>
      rw [hValue] at hLess
      cases hLess
  | infinity sign =>
      rw [hValue] at hLess
      cases sign with
      | negative => cases hLess
      | positive => rfl
  | zero sign => trivial
  | finite sign mantissa exponent hMantissa =>
      rw [hValue] at hLess
      cases sign with
      | negative => cases hLess
      | positive => exact ⟨rfl, (unpack_finite hValue).2⟩

/-- So no score that counts is negative. -/
theorem notNegative_usableScore (value : Float) :
    NotNegative (usableScore value).toModel.unpack := by
  rcases usableScore_cases value with hZero | ⟨hSame, hPositive⟩
  · rw [hZero]
    trivial
  · rw [hSame]
    exact notNegative_of_pos hPositive

/-- A score that is bounded is bounded as it counts. -/
theorem upTo_usableScore {value : Float} (h : UpTo 1 value.toModel.unpack) :
    UpTo 1 (usableScore value).toModel.unpack := by
  rcases usableScore_cases value with hZero | ⟨hSame, _⟩
  · rw [hZero]
    trivial
  · rw [hSame]
    exact h

/-- Calls in flight never raise a score. -/
theorem upTo_busyScore {candidate : Candidate}
    (h : UpTo 1 candidate.deployment.weight.toModel.unpack) :
    UpTo 1 (busyScore candidate).toModel.unpack := by
  have hShare : FromOne (floatOfCount candidate.load.inFlight + 1.0).toModel.unpack := by
    rw [unpack_add]
    exact (notNegative_floatOfCount candidate.load.inFlight).add_one.stored
  rw [busyScore, unpack_div]
  exact (h.div hShare).stored

/-- Where weights are bounded the scores of a strategy are. -/
theorem upTo_score {candidate : Candidate} (hScore : score? strategy = some score)
    (h : UpTo 1 candidate.deployment.weight.toModel.unpack) :
    UpTo 1 (score candidate).toModel.unpack := by
  cases strategy with
  | simpleShuffle =>
      cases hScore
      exact h
  | leastBusy =>
      cases hScore
      exact upTo_busyScore h
  | roundRobin => cases hScore
  | latencyBased => cases hScore
  | usageBased => cases hScore

/-- Sums of scores that are not negative are not negative. -/
theorem notNegative_foldl_add {scores : List Float} {total : Float}
    (hScores : ∀ score ∈ scores, NotNegative score.toModel.unpack)
    (hTotal : NotNegative total.toModel.unpack) :
    NotNegative (scores.foldl (· + ·) total).toModel.unpack := by
  induction scores generalizing total with
  | nil => exact hTotal
  | cons score rest ih =>
      obtain ⟨hScore, hRest⟩ := List.forall_mem_cons.mp hScores
      exact ih hRest (hTotal.add hScore).stored

/-- A sum of scores is bounded by their number. -/
theorem upTo_foldl_add {scores : List Float} {total : Float} {count : Nat}
    (hScores : ∀ score ∈ scores, UpTo 1 score.toModel.unpack)
    (hTotal : UpTo count total.toModel.unpack) (hCount : count + scores.length < 2 ^ 53) :
    UpTo (count + scores.length) (scores.foldl (· + ·) total).toModel.unpack := by
  induction scores generalizing total count with
  | nil => exact hTotal
  | cons score rest ih =>
      obtain ⟨hScore, hRest⟩ := List.forall_mem_cons.mp hScores
      rw [List.length_cons, Nat.add_comm rest.length, ← Nat.add_assoc] at hCount ⊢
      exact ih hRest (hTotal.add hScore (by omega)).stored hCount

theorem notNegative_totalScore (score : Candidate → Float) (candidates : List Candidate) :
    NotNegative (totalScore score candidates).toModel.unpack := by
  apply notNegative_foldl_add
  · intro value hValue
    obtain ⟨candidate, _, rfl⟩ := List.mem_map.mp hValue
    exact notNegative_usableScore _
  · trivial

/-- So many scores that are not too great have a finite total. -/
theorem isFinite_totalScore
    (hScores : ∀ candidate ∈ candidates, UpTo 1 (score candidate).toModel.unpack)
    (hCount : candidates.length < 2 ^ 53) :
    (totalScore score candidates).isFinite = true := by
  have hTotal : UpTo (0 + (candidates.map fun candidate => usableScore (score candidate)).length)
      (totalScore score candidates).toModel.unpack := by
    apply upTo_foldl_add
    · intro value hValue
      obtain ⟨candidate, hCandidate, rfl⟩ := List.mem_map.mp hValue
      exact upTo_usableScore (hScores candidate hCandidate)
    · trivial
    · rw [List.length_map, Nat.zero_add]
      exact hCount
  exact hTotal.isFinite

/-- A total that is not finite is above zero. -/
theorem not_le_zero_of_notNegative {total : Float} (hTotal : NotNegative total.toModel.unpack)
    (hInfinite : total.isFinite = false) : ¬total ≤ 0.0 := by
  intro hLe
  have hLe : total.toModel.unpack.le (.zero .positive) = true := of_decide_eq_true hLe
  have hKind : total.toModel.unpack.isFinite = false := hInfinite
  cases hValue : total.toModel.unpack with
  | notANumber =>
      rw [hValue] at hTotal
      cases hTotal
  | infinity sign =>
      rw [hValue] at hTotal hLe
      cases hTotal
      cases hLe
  | zero sign =>
      rw [hValue] at hKind
      cases hKind
  | finite sign mantissa exponent hMantissa =>
      rw [hValue] at hKind
      cases hKind

/-- A draw fails exactly when there are two or more to draw from and their total is not finite. -/
theorem weighted_eq_none_iff {first : Candidate} {rest : List Candidate} :
    (weighted score first rest random).1 = none ↔
      rest ≠ [] ∧ (totalScore score (first :: rest)).isFinite = false := by
  have hTotal := notNegative_totalScore score (first :: rest)
  unfold totalScore at hTotal ⊢
  unfold weighted
  split
  next hAlone => exact ⟨nofun, fun hMany => absurd (List.isEmpty_iff.mp hAlone) hMany.1⟩
  next hMany =>
    have hRest : rest ≠ [] := fun hAlone => hMany (List.isEmpty_iff.mpr hAlone)
    simp only
    split
    next hNone =>
      exact ⟨nofun, fun hOver => absurd hNone (not_le_zero_of_notNegative hTotal hOver.2)⟩
    next =>
      split
      next hFinite => exact ⟨nofun, fun hOver => absurd hFinite (Bool.eq_false_iff.mp hOver.2)⟩
      next hInfinite => exact ⟨fun _ => ⟨hRest, Bool.eq_false_iff.mpr hInfinite⟩, fun _ => rfl⟩

/-- What makes a choice among some candidates fail. Two or more of them are weighed and the total
is not finite, or their latencies are compared and have no mean. -/
def Overflows (strategy : Strategy) (candidates : List Candidate) : Prop :=
  (∃ score, score? strategy = some score ∧ 1 < candidates.length ∧
      (totalScore score candidates).isFinite = false) ∨
    strategy = .latencyBased ∧ measuredLatencies candidates ≠ [] ∧
      (Duration.longest < (measuredLatencies candidates).sum ∨
        Counter.top32 + 1 ∣ (measuredLatencies candidates).length)

/-- A choice among candidates fails exactly when it overflows. -/
theorem choose_eq_none_iff (strategy : Strategy) (model : String) (cursors : Cursors)
    (random : RandomSource) (first : Candidate) (rest : List Candidate) :
    (choose strategy model first rest cursors random).1 = none ↔
      Overflows strategy (first :: rest) := by
  have hMany : 1 < (first :: rest).length ↔ rest ≠ [] := by
    rw [List.length_cons, Nat.lt_add_left_iff_pos, List.length_pos_iff]
  unfold Overflows
  rw [← meanLatency_eq_none_iff, hMany]
  have hWeighs : ∀ score, (weighted score first rest random).1 = none ↔
      ∃ other, some score = some other ∧ rest ≠ [] ∧
        (totalScore other (first :: rest)).isFinite = false := fun score => by
    simp only [weighted_eq_none_iff, Option.some.injEq, exists_eq_left']
  cases strategy with
  | simpleShuffle => exact (hWeighs _).trans (or_iff_left nofun).symm
  | leastBusy => exact (hWeighs _).trans (or_iff_left nofun).symm
  | roundRobin => simp [choose, score?]
  | latencyBased => simp [choose, lowestLatency, score?]
  | usageBased => simp [choose, score?]

/-- A choice is made among the live candidates of the first live tier. -/
theorem select_of_field {first : Candidate} {rest : List Candidate}
    (h : field now tiers = first :: rest) :
    (select strategy model now cursors random tiers).1 =
      match (choose strategy model first rest cursors random).1 with
      | some candidate => .chosen candidate.deployment
      | none => .overflow := by
  rw [select_eq_choose, h]
  simp only
  split
  next hChoice => rw [hChoice]
  next hChoice => rw [hChoice]

/-- Without candidates nothing is added up. -/
theorem not_overflows_nil (strategy : Strategy) : ¬Overflows strategy [] := by
  simp [Overflows, measuredLatencies]

/-- A choice fails exactly when a sum that it needs is too great. -/
theorem select_overflow_iff :
    (select strategy model now cursors random tiers).1 = .overflow ↔
      Overflows strategy (field now tiers) := by
  cases hField : field now tiers with
  | nil =>
      rw [select_eq_choose, hField]
      exact ⟨nofun, fun hOver => absurd hOver (not_overflows_nil strategy)⟩
  | cons first rest =>
      rw [select_of_field hField, ← choose_eq_none_iff strategy model cursors random first rest]
      split
      next hChoice =>
        rw [hChoice]
        exact ⟨nofun, nofun⟩
      next hChoice => exact ⟨fun _ => hChoice, fun _ => rfl⟩

/-- Latencies that fit do not make it fail. -/
theorem not_overflows_of_latenciesFit {candidates : List Candidate}
    (hFit : LatenciesFit strategy candidates) :
    ¬(strategy = .latencyBased ∧ measuredLatencies candidates ≠ [] ∧
      (Duration.longest < (measuredLatencies candidates).sum ∨
        Counter.top32 + 1 ∣ (measuredLatencies candidates).length)) := by
  rintro ⟨rfl, hMean⟩
  cases (meanLatency_eq_some hFit).symm.trans (meanLatency_eq_none_iff.mpr hMean)

/-- Whatever else is chosen is chosen from the field. -/
theorem select_mem_field (hSome : field now tiers ≠ [])
    (hDrawn : (select strategy model now cursors random tiers).1 ≠ .overflow) :
    ∃ candidate ∈ field now tiers,
      (select strategy model now cursors random tiers).1 = .chosen candidate.deployment := by
  cases hField : field now tiers with
  | nil => exact absurd hField hSome
  | cons first rest =>
      rw [select_of_field hField] at hDrawn ⊢
      cases hChoice : choose strategy model first rest cursors random with
      | mk choice after =>
          rw [hChoice] at hDrawn
          cases choice with
          | none => exact absurd rfl hDrawn
          | some candidate => exact ⟨candidate, choose_mem hChoice, rfl⟩

theorem mem_of_mem_field {candidate : Candidate} (h : candidate ∈ field now tiers) :
    ∃ tier ∈ tiers, candidate ∈ tier := by
  induction tiers with
  | nil => cases h
  | cons tier tiers ih =>
      rw [field_cons] at h
      split at h
      next =>
        obtain ⟨later, hLater, hMem⟩ := ih h
        exact ⟨later, List.mem_cons_of_mem tier hLater, hMem⟩
      next => exact ⟨tier, List.mem_cons_self, (mem_of_mem_live h).1⟩

/-- Where a candidate is live there is something to choose from. -/
theorem field_ne_nil (h : ∃ tier ∈ tiers, ∃ candidate ∈ tier, candidate.isLive now = true) :
    field now tiers ≠ [] := by
  induction tiers with
  | nil =>
      obtain ⟨_, hNone, _⟩ := h
      cases hNone
  | cons tier tiers ih =>
      rw [field_cons]
      split
      next hDead =>
        refine ih ?_
        obtain ⟨other, hOther, candidate, hMem, hLive⟩ := h
        rcases List.mem_cons.mp hOther with rfl | hLater
        · rw [live_eq_nil_iff.mp hDead candidate hMem] at hLive
          cases hLive
        · exact ⟨other, hLater, candidate, hMem, hLive⟩
      next hLive => exact hLive

theorem usableWeight_of_fault? {deployment : Deployment} (h : deployment.fault? = none) :
    Deployment.usableWeight deployment.weight = true := by
  unfold Deployment.fault? at h
  split at h
  next => cases h
  next =>
    split at h
    next => cases h
    next =>
      split at h
      next => cases h
      next hUsable => simpa using hUsable

/-- Among candidates without a fault, one that is live is chosen, whatever the strategy, the calls
in flight, the rotation and chance, unless a sum that the choice needs is too great. For weights
that takes one above `10 ^ 291`, unless there are more candidates than a float can count, and for
latencies a sum beyond any span, unless there are more than a 32-bit counter can count. -/
theorem select_chooses_unless_overflow (strategy : Strategy) (model : String) (cursors : Cursors)
    (random : RandomSource)
    (hValid : ∀ tier ∈ tiers, ∀ candidate ∈ tier, candidate.deployment.fault? = none)
    (hLive : ∃ tier ∈ tiers, ∃ candidate ∈ tier, candidate.isLive now = true) :
    ((select strategy model now cursors random tiers).1 = .overflow ∨
        ∃ candidate ∈ field now tiers,
          (select strategy model now cursors random tiers).1 = .chosen candidate.deployment) ∧
      ((select strategy model now cursors random tiers).1 = .overflow ↔
        Overflows strategy (field now tiers)) ∧
      ((select strategy model now cursors random tiers).1 = .overflow →
        LatenciesFit strategy (field now tiers) →
          2 ^ 53 ≤ (field now tiers).length ∨
            ∃ candidate ∈ field now tiers, ¬candidate.deployment.weight ≤ 1e291) := by
  refine ⟨or_iff_not_imp_left.mpr (select_mem_field (field_ne_nil hLive)),
    select_overflow_iff, fun hOverflow hFit => ?_⟩
  obtain ⟨score, hScore, _, hInfinite⟩ :=
    (select_overflow_iff.mp hOverflow).resolve_right (not_overflows_of_latenciesFit hFit)
  by_contra hOrdinary
  rw [not_or, Nat.not_le, not_exists] at hOrdinary
  obtain ⟨hCount, hLow⟩ := hOrdinary
  have hScores : ∀ candidate ∈ field now tiers, UpTo 1 (score candidate).toModel.unpack := by
    intro candidate hCandidate
    obtain ⟨tier, hTier, hMem⟩ := mem_of_mem_field hCandidate
    have hUsable := usableWeight_of_fault? (hValid tier hTier candidate hMem)
    have hWeight : candidate.deployment.weight ≤ 1e291 :=
      not_not.mp fun hGreat => hLow candidate ⟨hCandidate, hGreat⟩
    exact upTo_score hScore (upTo_of_le hUsable hWeight)
  rw [isFinite_totalScore hScores hCount] at hInfinite
  cases hInfinite

def weighedCandidate (id : String) (weight : Float) (inFlight : Nat) : Candidate where
  deployment := { id, modelNames := ["m"], provider := .openai, model := "m", weight }
  health := {}
  load := { inFlight }
  admissible := true

/-- Two weights that are just not too great, one of them shared with three calls in flight. -/
def greatTier : List Candidate :=
  [weighedCandidate "d1" 1e291 3, weighedCandidate "d2" 1e291 0]

/-- The shares of both are at the bound, and a choice is made. -/
theorem select_chooses_unless_overflow_great :
    ∃ candidate ∈ field 0 [greatTier],
      (select .leastBusy "m" 0 {} { words := [0x4000000000000000] } [greatTier]).1 =
        .chosen candidate.deployment := by
  have hSound : ∀ candidate ∈ greatTier, candidate.deployment.fault?.isNone = true ∧
      candidate.deployment.weight ≤ 1e291 := by
    decide +kernel
  have hValid : ∀ tier ∈ [greatTier], ∀ candidate ∈ tier, candidate.deployment.fault? = none := by
    intro tier hTier candidate hCandidate
    rw [List.mem_singleton.mp hTier] at hCandidate
    exact Option.isNone_iff_eq_none.mp (hSound candidate hCandidate).1
  obtain ⟨hChoice, _, hOrdinary⟩ := select_chooses_unless_overflow .leastBusy "m" {}
    { words := [0x4000000000000000] } hValid
    ⟨greatTier, List.mem_cons_self, _, List.mem_cons_self, rfl⟩
  refine hChoice.resolve_left fun hOverflow => ?_
  rcases hOrdinary hOverflow nofun with hMany | ⟨candidate, hCandidate, hGreat⟩
  · exact absurd hMany (by decide)
  · obtain ⟨tier, hTier, hMem⟩ := mem_of_mem_field hCandidate
    rw [List.mem_singleton.mp hTier] at hMem
    exact hGreat (hSound candidate hMem).2

/-- Two weights that each can be used, with a total that is infinite. -/
def overflowingTier : List Candidate :=
  [weighedCandidate "d1" 1e308 0, weighedCandidate "d2" 1e308 0]

/-- No choice is made between them, although both are live and without a fault. -/
theorem select_overflows_in_total :
    (∀ candidate ∈ overflowingTier,
      candidate.isLive 0 = true ∧ candidate.deployment.fault? = none) ∧
      (select .simpleShuffle "m" 0 {} { words := [0] } [overflowingTier]).1 = .overflow := by
  have hSound : ∀ candidate ∈ overflowingTier, candidate.isLive 0 = true ∧
      candidate.deployment.fault?.isNone = true := by
    decide +kernel
  have hTotal :
      (totalScore (·.deployment.weight) (field 0 [overflowingTier])).isFinite = false := by
    decide +kernel
  exact ⟨fun candidate hCandidate =>
      (hSound candidate hCandidate).imp_right Option.isNone_iff_eq_none.mp,
    select_overflow_iff.mpr (.inl ⟨_, rfl, by decide +kernel, hTotal⟩)⟩

end Selection

end DeploymentRouting
