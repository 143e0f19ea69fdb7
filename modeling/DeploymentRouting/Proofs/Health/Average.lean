import DeploymentRouting.Proofs.Health.Cooldown
/-!
The average of latencies. Each latency counts one part in five of the new average, and what
remains of the division is dropped. None the less the average never leaves the range of what was
recorded: a new one lies between the one before it and the latency that it takes in, so it keeps
all bounds that the latencies keep, and latencies that are all the same are their own average.
-/
namespace DeploymentRouting

/-- The latency of a report on a deployment. -/
def Report.latencyOf? (id : String) : Report → Option Duration
  | .outcome _ _ _ => none
  | .latency other told => if other = id then some told else none

/-- The latencies of one deployment in the order in which they were reported. -/
def latenciesOf (id : String) (reports : List Report) : List Duration :=
  reports.filterMap (Report.latencyOf? id)

theorem latenciesOf_concat (id : String) (reports : List Report) (report : Report) :
    latenciesOf id (reports ++ [report]) =
      latenciesOf id reports ++ (report.latencyOf? id).toList := by
  cases hReport : report.latencyOf? id <;> simp [latenciesOf, hReport]

theorem latenciesOf_elsewhere {id : String} {report : Report} (h : report.id ≠ id)
    (reports : List Report) :
    latenciesOf id (reports ++ [report]) = latenciesOf id reports := by
  rw [latenciesOf_concat]
  cases report <;> simp_all [Report.latencyOf?, Report.id]

theorem latenciesOf_outcome (id : String) (reports : List Report) (outcome : Outcome)
    (now : Instant) :
    latenciesOf id (reports ++ [.outcome id outcome now]) = latenciesOf id reports := by
  rw [latenciesOf_concat]
  simp [Report.latencyOf?]

theorem latenciesOf_latency (id : String) (reports : List Report) (latency : Duration) :
    latenciesOf id (reports ++ [.latency id latency]) = latenciesOf id reports ++ [latency] := by
  rw [latenciesOf_concat]
  simp [Report.latencyOf?]

namespace HealthRecord

variable {record other : HealthRecord} {latencies : List Duration}
  {latency average low high : Duration}

/-- Bounds that an average and a latency keep are kept by their sum as it is weighed. -/
theorem weighed_within (hAverage : low ≤ average ∧ average ≤ high)
    (hLatency : low ≤ latency ∧ latency ≤ high) :
    low * 5 ≤ latency + average * 4 ∧ latency + average * 4 ≤ high * 5 := by
  have hLow := Nat.add_le_add hLatency.1 (Nat.mul_le_mul_right 4 hAverage.1)
  have hHigh := Nat.add_le_add hLatency.2 (Nat.mul_le_mul_right 4 hAverage.2)
  have hFive : ∀ bound : Nat, bound + bound * 4 = bound * 5 := by omega
  rw [hFive] at hLow hHigh
  exact ⟨hLow, hHigh⟩

/-- The division rounds towards zero, but never past a bound. -/
theorem blend_within (hAverage : low ≤ average ∧ average ≤ high)
    (hLatency : low ≤ latency ∧ latency ≤ high) :
    low ≤ (latency + average * 4) / 5 ∧ (latency + average * 4) / 5 ≤ high := by
  obtain ⟨hLow, hHigh⟩ := weighed_within hAverage hLatency
  exact ⟨(Nat.le_div_iff_mul_le (by decide)).mpr hLow,
    Nat.div_le_of_le_mul (Nat.mul_comm high 5 ▸ hHigh)⟩

/-- The first latency is taken in as if it had been the average before. -/
theorem addLatency_averageLatency (record : HealthRecord) (latency : Duration) :
    (record.addLatency latency).averageLatency =
      some ((latency + record.averageLatency.getD latency * 4) / 5) := by
  unfold addLatency
  cases record.averageLatency with
  | some average => rfl
  | none =>
      have hSame := blend_within ⟨Nat.le_refl latency, Nat.le_refl latency⟩
        ⟨Nat.le_refl latency, Nat.le_refl latency⟩
      exact congrArg some (Nat.le_antisymm hSame.1 hSame.2)

theorem addLatency_between (record : HealthRecord) (latency : Duration) :
    ∃ average, (record.addLatency latency).averageLatency = some average ∧
      min (record.averageLatency.getD latency) latency ≤ average ∧
      average ≤ max (record.averageLatency.getD latency) latency :=
  ⟨_, record.addLatency_averageLatency latency,
    blend_within ⟨Nat.min_le_left _ _, Nat.le_max_left _ _⟩
      ⟨Nat.min_le_right _ _, Nat.le_max_right _ _⟩⟩

@[simp] theorem roll_averageLatency (record : HealthRecord) (window : Duration) (now : Instant) :
    (record.roll window now).averageLatency = record.averageLatency := by
  unfold roll
  split <;> rfl

@[simp] theorem addFailure_averageLatency (record : HealthRecord) (policy : CooldownPolicy)
    (now : Instant) : (record.addFailure policy now).1.averageLatency = record.averageLatency := by
  unfold addFailure
  simp only
  split <;> rfl

@[simp] theorem add_averageLatency (record : HealthRecord) (policy : CooldownPolicy)
    (window : Duration) (outcome : Outcome) (now : Instant) :
    (record.add policy window outcome now).1.averageLatency = record.averageLatency := by
  cases outcome <;> simp [add]

/-- The average of a record is one of some latencies: it is there as soon as there are any, and it
keeps all bounds that they keep. -/
structure Averages (latencies : List Duration) (record : HealthRecord) : Prop where
  eq_none_iff : record.averageLatency = none ↔ latencies = []
  within : ∀ average ∈ record.averageLatency, ∀ low high,
    (∀ latency ∈ latencies, low ≤ latency ∧ latency ≤ high) → low ≤ average ∧ average ≤ high

theorem averages_empty : Averages [] {} :=
  ⟨iff_of_true rfl rfl, nofun⟩

theorem Averages.congr (h : Averages latencies record)
    (hSame : other.averageLatency = record.averageLatency) : Averages latencies other :=
  ⟨hSame ▸ h.eq_none_iff, hSame ▸ h.within⟩

/-- What the next latency is weighed against keeps all bounds too. -/
theorem Averages.getD_within (h : Averages latencies record)
    (hAll : ∀ recorded ∈ latencies ++ [latency], low ≤ recorded ∧ recorded ≤ high) :
    low ≤ record.averageLatency.getD latency ∧ record.averageLatency.getD latency ≤ high := by
  obtain ⟨hOld, hNew⟩ := List.forall_mem_append.mp hAll
  cases hAverage : record.averageLatency with
  | none => exact hNew latency List.mem_cons_self
  | some average => exact h.within average hAverage low high hOld

theorem Averages.addLatency (h : Averages latencies record) (latency : Duration) :
    Averages (latencies ++ [latency]) (record.addLatency latency) := by
  have hAverage := record.addLatency_averageLatency latency
  constructor
  · rw [hAverage]
    exact iff_of_false (Option.some_ne_none _) (List.concat_ne_nil latency latencies)
  · intro average hMem low high hAll
    rw [hAverage, Option.mem_some_iff] at hMem
    rw [← hMem]
    exact blend_within (h.getD_within hAll)
      (hAll latency (List.mem_append_right _ List.mem_cons_self))

/-- The average lies between the least and the greatest latency. -/
theorem Averages.between (h : Averages latencies record) (hSome : latencies ≠ []) :
    ∃ least greatest average, latencies.min? = some least ∧ latencies.max? = some greatest ∧
      record.averageLatency = some average ∧ least ≤ average ∧ average ≤ greatest := by
  obtain ⟨average, hAverage⟩ := Option.ne_none_iff_exists'.mp (mt h.eq_none_iff.mp hSome)
  obtain ⟨least, hLeast⟩ := Option.ne_none_iff_exists'.mp (mt List.min?_eq_none_iff.mp hSome)
  obtain ⟨greatest, hGreatest⟩ := Option.ne_none_iff_exists'.mp (mt List.max?_eq_none_iff.mp hSome)
  have hWithin := h.within average hAverage least greatest fun latency hMem =>
    ⟨(List.min?_eq_some_iff.mp hLeast).2 latency hMem,
      (List.max?_eq_some_iff.mp hGreatest).2 latency hMem⟩
  exact ⟨least, greatest, average, hLeast, hGreatest, hAverage, hWithin⟩

/-- What is divided is a span that can be told, if no latency is longer than a fifth of the longest
one. -/
theorem Averages.sum_le_longest (h : Averages latencies record)
    (hShort : ∀ recorded ∈ latencies ++ [latency], recorded * 5 ≤ Duration.longest) :
    latency + record.averageLatency.getD latency * 4 ≤ Duration.longest := by
  have hAll : ∀ recorded ∈ latencies ++ [latency],
      0 ≤ recorded ∧ recorded ≤ Duration.longest / 5 := fun recorded hMem =>
    ⟨Nat.zero_le recorded, (Nat.le_div_iff_mul_le (by decide)).mpr (hShort recorded hMem)⟩
  have hSum := weighed_within (h.getD_within hAll)
    (hAll latency (List.mem_append_right _ List.mem_cons_self))
  exact Nat.le_trans hSum.2 (Nat.div_mul_le_self _ _)

/-- Latencies that are all the same are their own average. -/
theorem Averages.eq_of_constant (h : Averages latencies record) (hSome : latencies ≠ [])
    (hSame : ∀ recorded ∈ latencies, recorded = latency) :
    record.averageLatency = some latency := by
  obtain ⟨average, hAverage⟩ := Option.ne_none_iff_exists'.mp (mt h.eq_none_iff.mp hSome)
  have hWithin := h.within average hAverage latency latency fun recorded hMem =>
    ⟨Nat.le_of_eq (hSame recorded hMem).symm, Nat.le_of_eq (hSame recorded hMem)⟩
  rw [hAverage, Nat.le_antisymm hWithin.2 hWithin.1]

end HealthRecord

namespace HealthTracker

/-- A report that tells no latency of a deployment leaves its average alone. -/
theorem averageLatency_learn {id : String} {report : Report} (h : report.latencyOf? id = none)
    (tracker : HealthTracker) :
    ((tracker.learn report).record id).averageLatency = (tracker.record id).averageLatency := by
  cases report with
  | outcome other told now =>
      rw [learn, record_addOutcome]
      split
      next hOther => rw [HealthRecord.add_averageLatency, hOther]
      next => rfl
  | latency other told =>
      have hOther : id ≠ other := fun hSame => by simp [Report.latencyOf?, hSame] at h
      rw [learn, record_addLatency, if_neg hOther]

/-- All reports, whatever they were about. -/
theorem averages_ofReports (policy : CooldownPolicy) (window : Duration) (reports : List Report)
    (id : String) :
    ((ofReports policy window reports).record id).Averages (latenciesOf id reports) := by
  refine ofReports_induction
    (motive := fun reports record => record.Averages (latenciesOf id reports))
    HealthRecord.averages_empty ?_ ?_ ?_ reports
  · intro reports record report hElsewhere h
    rwa [latenciesOf_elsewhere hElsewhere]
  · intro reports record outcome now h
    rw [latenciesOf_outcome]
    exact h.congr (record.add_averageLatency policy window outcome now)
  · intro reports record latency h
    rw [latenciesOf_latency]
    exact h.addLatency latency

/-- The average latency of a deployment stays in the range of its latencies. It is there as soon as
one has been recorded. The next one takes it to somewhere between where it was and that latency, so
it is always between the least and the greatest of all, and if they are all the same it is just
that. Nothing else that is reported changes it. As long as no latency is longer than a fifth of the
longest span, the sums on the way to it can be told too. -/
theorem average_within_latencies (policy : CooldownPolicy) (window : Duration)
    (reports : List Report) (id : String) :
    let tracker := ofReports policy window reports
    let latencies := latenciesOf id reports
    (∀ now, (tracker.view id now).averageLatency = none ↔ latencies = []) ∧
    (∀ latency now, ∃ average,
      ((tracker.learn (.latency id latency)).view id now).averageLatency = some average ∧
        min ((tracker.view id now).averageLatency.getD latency) latency ≤ average ∧
        average ≤ max ((tracker.view id now).averageLatency.getD latency) latency) ∧
    (∀ report now, report.latencyOf? id = none →
      ((tracker.learn report).view id now).averageLatency =
        (tracker.view id now).averageLatency) ∧
    (latencies ≠ [] → ∀ now, ∃ least greatest average,
      latencies.min? = some least ∧ latencies.max? = some greatest ∧
        (tracker.view id now).averageLatency = some average ∧
        least ≤ average ∧ average ≤ greatest) ∧
    (∀ latency, latencies ≠ [] → (∀ recorded ∈ latencies, recorded = latency) →
      ∀ now, (tracker.view id now).averageLatency = some latency) ∧
    ∀ latency now, (∀ recorded ∈ latencies ++ [latency], recorded * 5 ≤ Duration.longest) →
      latency + (tracker.view id now).averageLatency.getD latency * 4 ≤ Duration.longest := by
  intro tracker latencies
  have hAverages : (tracker.record id).Averages latencies :=
    averages_ofReports policy window reports id
  refine ⟨fun _ => hAverages.eq_none_iff, fun latency now => ?_,
    fun report _ hNone => averageLatency_learn hNone tracker, fun hSome _ => hAverages.between hSome,
    fun latency hSome hSame _ => hAverages.eq_of_constant hSome hSame,
    fun latency _ hShort => hAverages.sum_le_longest hShort⟩
  have hRecord := record_addLatency tracker id id latency
  rw [if_pos rfl] at hRecord
  simp only [learn, view, HealthRecord.view, hRecord]
  exact (tracker.record id).addLatency_between latency

/-- Latencies of "d1", with other reports in between. -/
def mixedReports : List Report :=
  [.latency "d1" 10, .outcome "d1" .rateLimited 20, .latency "d2" 1, .latency "d1" 24,
    .outcome "d1" .success 30, .latency "d1" 7]

/-- Two of the divisions leave a remainder. The average goes from 10 to 12, to 11 and with one more
latency to 9, and a deployment that always takes as long stays where it is. -/
theorem average_within_latencies_mixed :
    let tracker := ofReports CooldownPolicy.standard 60 mixedReports
    let latencies := latenciesOf "d1" mixedReports
    let steady := [.latency "d1" 7, .latency "d2" 9, .latency "d1" 7]
    latencies = [10, 24, 7] ∧ (tracker.view "d1" 40).averageLatency = some 11 ∧
      (∃ average, ((tracker.learn (.latency "d1" 4)).view "d1" 40).averageLatency = some average ∧
        min ((tracker.view "d1" 40).averageLatency.getD 4) 4 ≤ average ∧
        average ≤ max ((tracker.view "d1" 40).averageLatency.getD 4) 4) ∧
      ((tracker.learn (.outcome "d1" .success 40)).view "d1" 40).averageLatency =
        (tracker.view "d1" 40).averageLatency ∧
      (∃ least greatest average, latencies.min? = some least ∧ latencies.max? = some greatest ∧
        (tracker.view "d1" 40).averageLatency = some average ∧
        least ≤ average ∧ average ≤ greatest) ∧
      ((ofReports CooldownPolicy.standard 60 steady).view "d1" 40).averageLatency = some 7 ∧
      4 + (tracker.view "d1" 40).averageLatency.getD 4 * 4 ≤ Duration.longest := by
  intro tracker latencies steady
  have hLatencies : latencies = [10, 24, 7] := by decide
  have hSome : latencies ≠ [] := by decide
  obtain ⟨-, hNext, hOther, hBetween, -, hSum⟩ :=
    average_within_latencies CooldownPolicy.standard 60 mixedReports "d1"
  obtain ⟨-, -, -, -, hConstant, -⟩ :=
    average_within_latencies CooldownPolicy.standard 60 steady "d1"
  exact ⟨hLatencies, by decide, hNext 4 40, hOther (.outcome "d1" .success 40) 40 rfl,
    hBetween hSome 40, hConstant 7 (by decide) (by decide) 40, hSum 4 40 (by decide)⟩

end HealthTracker

end DeploymentRouting
