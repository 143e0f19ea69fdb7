import DeploymentRouting.Health
import Mathlib.Data.List.Induction
import Mathlib.Data.List.Infix
/-!
Cooldowns as a function of what was reported. Of every deployment a tracker keeps how many
failures came in a row and how far its cooldown goes. Both are read here off the outcomes that
were reported of it: the failures are those since its last success, and the cooldown goes as
far as the farthest of all rests that its failures ever called for. Neither the order of the
instants nor what was reported of others in between makes a difference.
-/
namespace DeploymentRouting

/-- What a tracker is told of one call. -/
inductive Report where
  | outcome (id : String) (outcome : Outcome) (now : Instant)
  | latency (id : String) (latency : Duration)

/-- The deployment that a report is about. -/
def Report.id : Report → String
  | .outcome id _ _ => id
  | .latency id _ => id

/-- The outcome of a report on a deployment, with its instant. -/
def Report.outcomeOf? (id : String) : Report → Option (Outcome × Instant)
  | .outcome other told now => if other = id then some (told, now) else none
  | .latency _ _ => none

/-- The outcomes of one deployment in the order in which they were reported. -/
abbrev OutcomeHistory := List (Outcome × Instant)

namespace OutcomeHistory

def ofReports (id : String) (reports : List Report) : OutcomeHistory :=
  reports.filterMap (Report.outcomeOf? id)

theorem ofReports_concat (id : String) (reports : List Report) (report : Report) :
    ofReports id (reports ++ [report]) =
      ofReports id reports ++ (report.outcomeOf? id).toList := by
  cases hReport : report.outcomeOf? id <;> simp [ofReports, hReport]

/-- A report on another deployment is no part of the history. -/
theorem ofReports_elsewhere {id : String} {reports : List Report} {report : Report}
    (h : report.id ≠ id) : ofReports id (reports ++ [report]) = ofReports id reports := by
  rw [ofReports_concat]
  cases report <;> simp_all [Report.outcomeOf?, Report.id]

/-- An outcome of the deployment ends its history. -/
theorem ofReports_outcome (id : String) (reports : List Report) (outcome : Outcome)
    (now : Instant) :
    ofReports id (reports ++ [.outcome id outcome now]) =
      ofReports id reports ++ [(outcome, now)] := by
  rw [ofReports_concat]
  simp [Report.outcomeOf?]

theorem ofReports_latency (id : String) (reports : List Report) (latency : Duration) :
    ofReports id (reports ++ [.latency id latency]) = ofReports id reports := by
  rw [ofReports_concat]
  simp [Report.outcomeOf?]

/-- Health failures after the last success. Requests that were refused for their own faults
are passed over. -/
def failuresSinceSuccess (history : OutcomeHistory) : Nat :=
  (history.reverse.takeWhile fun entry => entry.1 != .success).countP (·.1.isHealthFailure)

/-- The consecutive failures that a 32-bit counter shows. -/
def consecutiveFailures (history : OutcomeHistory) : Nat :=
  min history.failuresSinceSuccess Counter.top32

/-- The end of the rest that the last outcome of a history calls for, if it is a failure that
is not free. -/
def restEnd? (policy : CooldownPolicy) (history : OutcomeHistory) : Option Instant :=
  match history.getLast? with
  | none => none
  | some (outcome, now) =>
      if outcome.isHealthFailure then
        (policy.backoff history.consecutiveFailures).map (now + ·)
      else none

/-- The ends of all rests that a history calls for, one outcome after the other. -/
def restEnds (policy : CooldownPolicy) (history : OutcomeHistory) : List Instant :=
  history.inits.filterMap (restEnd? policy)

variable {outcome : Outcome}

/-- A success ends the series of failures. -/
theorem failuresSinceSuccess_success (history : OutcomeHistory) (now : Instant) :
    failuresSinceSuccess (history ++ [(.success, now)]) = 0 := by
  simp [failuresSinceSuccess]

/-- A failure makes the series longer by one. -/
theorem failuresSinceSuccess_failure (hFailure : outcome.isHealthFailure = true)
    (history : OutcomeHistory) (now : Instant) :
    failuresSinceSuccess (history ++ [(outcome, now)]) = failuresSinceSuccess history + 1 := by
  have hNot : (outcome != .success) = true := by
    cases outcome <;> simp_all [Outcome.isHealthFailure]
  simp [failuresSinceSuccess, hNot, hFailure]

/-- An error that is not the fault of the deployment neither ends the series nor makes it longer. -/
theorem failuresSinceSuccess_nonRetriable (history : OutcomeHistory) (now : Instant) :
    failuresSinceSuccess (history ++ [(.nonRetriableError, now)]) =
      failuresSinceSuccess history := by
  simp [failuresSinceSuccess, Outcome.isHealthFailure]

/-- The counter follows the series up to its greatest value. -/
theorem consecutiveFailures_failure (hFailure : outcome.isHealthFailure = true)
    (history : OutcomeHistory) (now : Instant) :
    consecutiveFailures (history ++ [(outcome, now)]) =
      Counter.add32 history.consecutiveFailures 1 := by
  unfold consecutiveFailures Counter.add32
  rw [failuresSinceSuccess_failure hFailure]
  omega

/-- The last outcome may add the end of one more rest. -/
theorem restEnds_concat (policy : CooldownPolicy) (history : OutcomeHistory)
    (entry : Outcome × Instant) :
    restEnds policy (history ++ [entry]) =
      restEnds policy history ++ (restEnd? policy (history ++ [entry])).toList := by
  unfold restEnds
  rw [List.inits_append, List.filterMap_append]
  cases hEnd : restEnd? policy (history ++ [entry]) <;> simp [hEnd]

/-- Ends of rests are never taken back. -/
theorem restEnds_append (policy : CooldownPolicy) (history more : OutcomeHistory) :
    ∃ ends, restEnds policy (history ++ more) = restEnds policy history ++ ends := by
  refine ⟨(more.inits.tail.map (history ++ ·)).filterMap (restEnd? policy), ?_⟩
  rw [restEnds, List.inits_append, List.filterMap_append]
  rfl

/-- What is no failure starts no rest. -/
theorem restEnd?_harmless (hHarmless : outcome.isHealthFailure = false)
    (policy : CooldownPolicy) (history : OutcomeHistory) (now : Instant) :
    restEnd? policy (history ++ [(outcome, now)]) = none := by
  simp [restEnd?, hHarmless]

/-- A failure starts a rest of the length that the policy gives the series. -/
theorem restEnd?_failure (hFailure : outcome.isHealthFailure = true)
    (policy : CooldownPolicy) (history : OutcomeHistory) (now : Instant) :
    restEnd? policy (history ++ [(outcome, now)]) =
      (policy.backoff (consecutiveFailures (history ++ [(outcome, now)]))).map (now + ·) := by
  simp [restEnd?, hFailure]

/-- The latest end after one more is the later one of the two. -/
theorem max?_concat (ends : List Instant) (last : Instant) :
    (ends ++ [last]).max? = some (max (ends.max?.getD 0) last) := by
  cases ends with
  | nil => simp
  | cons first ends =>
      rw [List.cons_append, List.max?_cons', List.max?_cons', List.foldl_append]
      rfl

/-- The latest of some ends never comes earlier when others are added. -/
theorem le_max?_append {ends : List Instant} {latest : Instant} (hLatest : ends.max? = some latest)
    (more : List Instant) : ∃ later, (ends ++ more).max? = some later ∧ latest ≤ later := by
  have hMem : latest ∈ ends ++ more :=
    List.mem_append_left more (List.max?_eq_some_iff.mp hLatest).1
  cases hLater : (ends ++ more).max? with
  | none =>
      rw [List.max?_eq_none_iff] at hLater
      rw [hLater] at hMem
      cases hMem
  | some later => exact ⟨later, rfl, (List.max?_eq_some_iff.mp hLater).2 latest hMem⟩

/-- The latest of some ends has passed if and only if all of them have. -/
theorem all_max?_iff (ends : List Instant) (now : Instant) :
    ends.max?.all (· ≤ now) = true ↔ ∀ last ∈ ends, last ≤ now := by
  cases hLatest : ends.max? with
  | none => simp [List.max?_eq_none_iff.mp hLatest]
  | some latest => simpa using List.max?_le_iff hLatest

end OutcomeHistory

namespace HealthRecord

/-- A record has the consecutive failures and the cooldown that a history calls for. -/
structure Follows (policy : CooldownPolicy) (history : OutcomeHistory) (record : HealthRecord) :
    Prop where
  consecutiveFailures : record.consecutiveFailures = history.consecutiveFailures
  cooldownUntil : record.cooldownUntil = (history.restEnds policy).max?

variable {policy : CooldownPolicy} {history : OutcomeHistory} {record : HealthRecord}

/-- Before any outcome there is nothing to follow. -/
theorem follows_empty (policy : CooldownPolicy) : Follows policy [] {} :=
  ⟨rfl, rfl⟩

@[simp] theorem roll_consecutiveFailures (record : HealthRecord) (window : Duration)
    (now : Instant) :
    (record.roll window now).consecutiveFailures = record.consecutiveFailures := by
  unfold roll
  split <;> rfl

@[simp] theorem roll_cooldownUntil (record : HealthRecord) (window : Duration) (now : Instant) :
    (record.roll window now).cooldownUntil = record.cooldownUntil := by
  unfold roll
  split <;> rfl

/-- A new window leaves the cooldown and the series as they are. -/
theorem Follows.roll (h : Follows policy history record) (window : Duration) (now : Instant) :
    Follows policy history (record.roll window now) :=
  ⟨by rw [roll_consecutiveFailures, h.consecutiveFailures],
    by rw [roll_cooldownUntil, h.cooldownUntil]⟩

/-- A failure is followed, with the rest that it starts. -/
theorem Follows.addFailure (h : Follows policy history record) {outcome : Outcome}
    (hFailure : outcome.isHealthFailure = true) (now : Instant) :
    Follows policy (history ++ [(outcome, now)]) (record.addFailure policy now).1 := by
  have hCount : Counter.add32 record.consecutiveFailures 1 =
      OutcomeHistory.consecutiveFailures (history ++ [(outcome, now)]) := by
    rw [h.consecutiveFailures, OutcomeHistory.consecutiveFailures_failure hFailure]
  have hEnds := OutcomeHistory.restEnds_concat policy history (outcome, now)
  rw [OutcomeHistory.restEnd?_failure hFailure, ← hCount] at hEnds
  simp only [HealthRecord.addFailure]
  cases hRest : policy.backoff (Counter.add32 record.consecutiveFailures 1) with
  | none =>
      rw [hRest] at hEnds
      refine ⟨hCount, ?_⟩
      rw [hEnds]
      simpa using h.cooldownUntil
  | some rest =>
      rw [hRest] at hEnds
      refine ⟨hCount, ?_⟩
      rw [hEnds]
      simp [OutcomeHistory.max?_concat, h.cooldownUntil]

/-- Only health failures touch a cooldown. -/
theorem cooldownUntil_add_of_harmless {outcome : Outcome}
    (hHarmless : outcome.isHealthFailure = false) (record : HealthRecord)
    (policy : CooldownPolicy) (window : Duration) (now : Instant) :
    (record.add policy window outcome now).1.cooldownUntil = record.cooldownUntil := by
  cases outcome with
  | success => exact record.roll_cooldownUntil window now
  | nonRetriableError => exact record.roll_cooldownUntil window now
  | retriableError => cases hHarmless
  | rateLimited => cases hHarmless

/-- So is whatever starts no rest, if the counter is right. -/
theorem Follows.of_harmless (h : Follows policy history record) {outcome : Outcome}
    (hHarmless : outcome.isHealthFailure = false) (window : Duration) (now : Instant)
    (hCount : (record.add policy window outcome now).1.consecutiveFailures =
      OutcomeHistory.consecutiveFailures (history ++ [(outcome, now)])) :
    Follows policy (history ++ [(outcome, now)]) (record.add policy window outcome now).1 := by
  refine ⟨hCount, ?_⟩
  rw [cooldownUntil_add_of_harmless hHarmless, OutcomeHistory.restEnds_concat,
    OutcomeHistory.restEnd?_harmless hHarmless]
  simpa using h.cooldownUntil

/-- One more outcome. -/
theorem Follows.add (h : Follows policy history record) (window : Duration) (outcome : Outcome)
    (now : Instant) :
    Follows policy (history ++ [(outcome, now)]) (record.add policy window outcome now).1 := by
  have hRolled := h.roll window now
  cases outcome with
  | success =>
      refine h.of_harmless rfl window now ?_
      simp [HealthRecord.add, OutcomeHistory.consecutiveFailures,
        OutcomeHistory.failuresSinceSuccess_success]
  | nonRetriableError =>
      refine h.of_harmless rfl window now ?_
      rw [OutcomeHistory.consecutiveFailures,
        OutcomeHistory.failuresSinceSuccess_nonRetriable]
      exact hRolled.consecutiveFailures
  | retriableError => exact hRolled.addFailure rfl now
  | rateLimited => exact hRolled.addFailure rfl now

/-- A latency has no part in it. -/
theorem Follows.addLatency (h : Follows policy history record) (latency : Duration) :
    Follows policy history (record.addLatency latency) :=
  ⟨h.consecutiveFailures, h.cooldownUntil⟩

end HealthRecord

namespace HealthTracker

/-- The tracker after one report. -/
def learn (tracker : HealthTracker) : Report → HealthTracker
  | .outcome id outcome now => (tracker.addOutcome id outcome now).1
  | .latency id latency => tracker.addLatency id latency

/-- A tracker that began without records, after some reports. -/
def ofReports (policy : CooldownPolicy) (window : Duration) (reports : List Report) :
    HealthTracker :=
  reports.foldl learn { policy, window }

variable {tracker : HealthTracker}

/-- An outcome changes the record of its own deployment. -/
theorem record_addOutcome (tracker : HealthTracker) (id other : String) (outcome : Outcome)
    (now : Instant) :
    (tracker.addOutcome id outcome now).1.record other =
      if other = id then ((tracker.record id).add tracker.policy tracker.window outcome now).1
      else tracker.record other := by
  simp only [record, addOutcome, Table.get?_insert]
  split <;> rfl

/-- So does a latency. -/
theorem record_addLatency (tracker : HealthTracker) (id other : String) (latency : Duration) :
    (tracker.addLatency id latency).record other =
      if other = id then (tracker.record id).addLatency latency else tracker.record other := by
  simp only [record, addLatency, Table.get?_insert]
  split <;> rfl

/-- A deployment is eligible when the end of its cooldown has come. -/
theorem isEligible_eq (tracker : HealthTracker) (id : String) (now : Instant) :
    tracker.isEligible id now = (tracker.record id).cooldownUntil.all (· ≤ now) := by
  unfold isEligible record
  cases tracker.records.get? id <;> rfl

theorem ofReports_concat (policy : CooldownPolicy) (window : Duration) (reports : List Report)
    (report : Report) :
    ofReports policy window (reports ++ [report]) =
      (ofReports policy window reports).learn report := by
  rw [ofReports, List.foldl_append]
  rfl

/-- No report changes what a tracker was set up with. -/
theorem setup_ofReports (policy : CooldownPolicy) (window : Duration) (reports : List Report) :
    (ofReports policy window reports).policy = policy ∧
      (ofReports policy window reports).window = window := by
  induction reports using List.reverseRecOn with
  | nil => exact ⟨rfl, rfl⟩
  | append_singleton reports report ih =>
      rw [ofReports_concat]
      cases report <;> exact ih

/-- Only the reports on a deployment itself make its record what it is, one after the other. -/
theorem ofReports_induction {policy : CooldownPolicy} {window : Duration} {id : String}
    {motive : List Report → HealthRecord → Prop} (empty : motive [] {})
    (elsewhere : ∀ reports record report, report.id ≠ id → motive reports record →
      motive (reports ++ [report]) record)
    (outcome : ∀ reports record outcome now, motive reports record →
      motive (reports ++ [.outcome id outcome now]) (record.add policy window outcome now).1)
    (latency : ∀ reports record latency, motive reports record →
      motive (reports ++ [.latency id latency]) (record.addLatency latency))
    (reports : List Report) : motive reports ((ofReports policy window reports).record id) := by
  induction reports using List.reverseRecOn with
  | nil => exact empty
  | append_singleton reports report ih =>
      obtain ⟨hPolicy, hWindow⟩ := setup_ofReports policy window reports
      rw [ofReports_concat]
      cases report with
      | outcome other told now =>
          rw [learn, record_addOutcome, hPolicy, hWindow]
          by_cases hOther : other = id
          · subst hOther
            rw [if_pos rfl]
            exact outcome reports _ told now ih
          · rw [if_neg (Ne.symm hOther)]
            exact elsewhere reports _ _ hOther ih
      | latency other told =>
          rw [learn, record_addLatency]
          by_cases hOther : other = id
          · subst hOther
            rw [if_pos rfl]
            exact latency reports _ told ih
          · rw [if_neg (Ne.symm hOther)]
            exact elsewhere reports _ _ hOther ih

/-- All reports, whatever they were about. -/
theorem follows_ofReports (policy : CooldownPolicy) (window : Duration) (reports : List Report)
    (id : String) :
    (ofReports policy window reports).policy = policy ∧
      ((ofReports policy window reports).record id).Follows policy
        (OutcomeHistory.ofReports id reports) := by
  refine ⟨(setup_ofReports policy window reports).1, ofReports_induction
    (motive := fun reports record => record.Follows policy (OutcomeHistory.ofReports id reports))
    (HealthRecord.follows_empty policy) ?_ ?_ ?_ reports⟩
  · intro reports record report hElsewhere h
    rwa [OutcomeHistory.ofReports_elsewhere hElsewhere]
  · intro reports record outcome now h
    rw [OutcomeHistory.ofReports_outcome]
    exact h.add window outcome now
  · intro reports record latency h
    rw [OutcomeHistory.ofReports_latency]
    exact h.addLatency latency

end HealthTracker

end DeploymentRouting
