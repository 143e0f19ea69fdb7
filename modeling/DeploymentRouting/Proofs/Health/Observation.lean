import DeploymentRouting.Proofs.Health.Cooldown
/-!
Observation windows as a function of what was reported. The outcomes of a deployment fall into
windows by their instants alone: the first one opens a window, and so does each one that the window
before it does not reach. A record keeps only the opening and the two counts of the last window. It
brings them up to date when the next outcome comes, while a reader before that takes a window that
is over for empty. Both look at the same boundary, so a view shows just what the last window holds.
-/
namespace DeploymentRouting

namespace OutcomeHistory

/-- Whether a window that was opened at an instant reaches another one. -/
def reaches (window : Duration) (opened now : Instant) : Bool := now - opened < window

/-- The outcomes of a history by windows. An outcome that opens a window shares it with those that
follow, up to the first that the window does not reach, which opens the next. -/
def windows (window : Duration) : OutcomeHistory → List OutcomeHistory
  | [] => []
  | opening :: rest =>
      (opening :: rest.takeWhile fun next => reaches window opening.2 next.2) ::
        windows window (rest.dropWhile fun next => reaches window opening.2 next.2)
termination_by history => history.length
decreasing_by
  exact Nat.lt_succ_of_le (List.dropWhile_sublist _).length_le

/-- The last window of a history, which has none before its first outcome. -/
def lastWindow (window : Duration) (history : OutcomeHistory) : OutcomeHistory :=
  (windows window history).getLast?.getD []

/-- What of a history counts at an instant: its last window, unless that is over by then. -/
def counted (window : Duration) (now : Instant) (history : OutcomeHistory) : OutcomeHistory :=
  if (lastWindow window history).head?.any (reaches window ·.2 now) then lastWindow window history
  else []

variable {window : Duration} {history : OutcomeHistory}

theorem windows_cons (window : Duration) (opening : Outcome × Instant) (rest : OutcomeHistory) :
    windows window (opening :: rest) =
      (opening :: rest.takeWhile fun next => reaches window opening.2 next.2) ::
        windows window (rest.dropWhile fun next => reaches window opening.2 next.2) := by
  rw [windows]

@[simp] theorem windows_nil (window : Duration) : windows window [] = [] := by
  rw [windows]

theorem windows_ne_nil (window : Duration) (opening : Outcome × Instant) (rest : OutcomeHistory) :
    windows window (opening :: rest) ≠ [] := by
  rw [windows_cons]
  exact List.cons_ne_nil _ _

/-- No outcome is lost and none is in two windows. -/
theorem flatten_windows (window : Duration) (history : OutcomeHistory) :
    (windows window history).flatten = history := by
  fun_induction windows window history with
  | case1 => rfl
  | case2 opening rest ih =>
      rw [List.flatten_cons, ih, List.cons_append, List.takeWhile_append_dropWhile]

/-- One more outcome joins the last window if that reaches it, and opens a window otherwise. -/
theorem windows_concat (window : Duration) (history : OutcomeHistory)
    (entry : Outcome × Instant) :
    windows window (history ++ [entry]) =
      if (lastWindow window history).head?.any (reaches window ·.2 entry.2) then
        (windows window history).dropLast ++ [lastWindow window history ++ [entry]]
      else windows window history ++ [[entry]] := by
  unfold lastWindow
  fun_induction windows window history with
  | case1 => simp [windows_cons]
  | case2 opening rest ih =>
      have hSplit : (rest.takeWhile fun next => reaches window opening.2 next.2) ++
          (rest.dropWhile fun next => reaches window opening.2 next.2) = rest :=
        List.takeWhile_append_dropWhile
      rw [List.cons_append, windows_cons, List.takeWhile_append, List.dropWhile_append]
      cases hBeyond : rest.dropWhile fun next => reaches window opening.2 next.2 with
      | nil =>
          rw [hBeyond, List.append_nil] at hSplit
          cases hReached : reaches window opening.2 entry.2 <;>
            simp [hSplit, hReached, windows_cons]
      | cons next later =>
          rw [hBeyond] at ih hSplit
          have hSome := windows_ne_nil window next later
          have hShort : (rest.takeWhile fun next => reaches window opening.2 next.2).length ≠
              rest.length := by
            rw [← congrArg List.length hSplit]
            simp
          rw [if_neg hShort, List.isEmpty_cons, if_neg Bool.false_ne_true, ih,
            List.getLast?_cons_of_ne_nil hSome, List.dropLast_cons_of_ne_nil hSome]
          split <;> simp

theorem lastWindow_concat (window : Duration) (history : OutcomeHistory)
    (entry : Outcome × Instant) :
    lastWindow window (history ++ [entry]) = counted window entry.2 history ++ [entry] := by
  rw [lastWindow, windows_concat, counted]
  split <;> simp

/-- A window that another one follows is closed for good. The last one may still grow, but what it
has it keeps. -/
theorem windows_append {earlier : List OutcomeHistory} {last : OutcomeHistory}
    (h : windows window history = earlier ++ [last]) (more : OutcomeHistory) :
    ∃ joined later, windows window (history ++ more) = earlier ++ (last ++ joined) :: later := by
  induction more using List.reverseRecOn with
  | nil => exact ⟨[], [], by rw [List.append_nil, List.append_nil, h]⟩
  | append_singleton more entry ih =>
      obtain ⟨joined, later, hWindows⟩ := ih
      rw [← List.append_assoc, windows_concat]
      split
      next hReached =>
        rw [lastWindow, hWindows]
        rcases List.eq_nil_or_concat' later with rfl | ⟨closed, current, rfl⟩
        · exact ⟨joined ++ [entry], [], by simp⟩
        · have hSplit : earlier ++ (last ++ joined) :: (closed ++ [current]) =
              (earlier ++ (last ++ joined) :: closed) ++ [current] := by simp
          refine ⟨joined, closed ++ [current ++ [entry]], ?_⟩
          rw [hSplit, List.dropLast_concat, List.getLast?_concat]
          simp
      next => exact ⟨joined, later ++ [[entry]], by simp [hWindows]⟩

theorem lastWindow_sublist (window : Duration) (history : OutcomeHistory) :
    (lastWindow window history).Sublist history := by
  unfold lastWindow
  cases hLast : (windows window history).getLast? with
  | none => exact List.nil_sublist history
  | some last =>
      have hFlat := List.sublist_flatten_of_mem (List.mem_of_getLast? hLast)
      rwa [flatten_windows] at hFlat

/-- As long as the clock does not go back, all that counts is younger than a window is long. -/
theorem age_lt_of_mem_counted {now : Instant} {entry : Outcome × Instant}
    (hOrdered : history.Pairwise fun a b => a.2 ≤ b.2) (h : entry ∈ counted window now history) :
    now - entry.2 < window := by
  unfold counted at h
  split at h
  next hReached =>
    have hLast := hOrdered.sublist (lastWindow_sublist window history)
    cases hWindow : lastWindow window history with
    | nil =>
        rw [hWindow] at h
        cases h
    | cons opening rest =>
        rw [hWindow] at h hReached hLast
        have hOpening : now - opening.2 < window := by simpa [reaches] using hReached
        rcases List.mem_cons.mp h with rfl | hRest
        · exact hOpening
        · have hLe := (List.pairwise_cons.mp hLast).1 entry hRest
          exact Nat.lt_of_le_of_lt (Nat.sub_le_sub_left hLe now) hOpening
  next => cases h

end OutcomeHistory

namespace HealthRecord

open OutcomeHistory

/-- A record has the opening of the last window of a history and the counts of its outcomes. -/
structure Observes (window : Duration) (history : OutcomeHistory) (record : HealthRecord) :
    Prop where
  windowStart : record.windowStart = (lastWindow window history).head?.map (·.2)
  successes : record.successes = (lastWindow window history).countP (·.1 == .success)
  failures : record.failures = (lastWindow window history).countP (·.1 != .success)

variable {window : Duration} {history : OutcomeHistory} {record : HealthRecord} {now : Instant}

theorem observes_empty (window : Duration) : Observes window [] {} := by
  constructor <;> simp [lastWindow]

/-- Writers and readers agree on whether a window is over. -/
theorem Observes.windowOver_eq (h : Observes window history record) (now : Instant) :
    record.windowOver window now =
      !(lastWindow window history).head?.any (reaches window ·.2 now) := by
  unfold windowOver
  rw [h.windowStart]
  cases (lastWindow window history).head? with
  | none => rfl
  | some opening =>
      simp only [Option.map_some, Option.all_some, Option.any_some, reaches, ← decide_not,
        Nat.not_lt]

/-- What a reader sees. -/
theorem Observes.view (h : Observes window history record) (now : Instant) :
    (record.view window now).successes = (counted window now history).countP (·.1 == .success) ∧
      (record.view window now).failures =
        (counted window now history).countP (·.1 != .success) := by
  simp only [HealthRecord.view, counted, h.windowOver_eq, h.successes, h.failures]
  split <;> simp_all

/-- What a writer goes on from. -/
theorem Observes.roll (h : Observes window history record) (outcome : Outcome) (now : Instant) :
    (record.roll window now).windowStart =
        (counted window now history ++ [(outcome, now)]).head?.map (·.2) ∧
      (record.roll window now).successes =
        (counted window now history).countP (·.1 == .success) ∧
      (record.roll window now).failures =
        (counted window now history).countP (·.1 != .success) := by
  unfold HealthRecord.roll counted
  rw [h.windowOver_eq]
  cases hLast : lastWindow window history with
  | nil => simp
  | cons opening rest =>
      have hStart := h.windowStart
      have hSuccesses := h.successes
      have hFailures := h.failures
      rw [hLast] at hStart hSuccesses hFailures
      cases hReached : reaches window opening.2 now
      · simp [hReached]
      · simpa [hReached] using ⟨hStart, hSuccesses, hFailures⟩

@[simp] theorem addFailure_windowStart (record : HealthRecord) (policy : CooldownPolicy)
    (now : Instant) : (record.addFailure policy now).1.windowStart = record.windowStart := by
  unfold addFailure
  simp only
  split <;> rfl

@[simp] theorem addFailure_successes (record : HealthRecord) (policy : CooldownPolicy)
    (now : Instant) : (record.addFailure policy now).1.successes = record.successes := by
  unfold addFailure
  simp only
  split <;> rfl

@[simp] theorem addFailure_failures (record : HealthRecord) (policy : CooldownPolicy)
    (now : Instant) : (record.addFailure policy now).1.failures = record.failures + 1 := by
  unfold addFailure
  simp only
  split <;> rfl

/-- One more outcome. -/
theorem Observes.add (h : Observes window history record) (policy : CooldownPolicy)
    (outcome : Outcome) (now : Instant) :
    Observes window (history ++ [(outcome, now)])
      (record.add policy window outcome now).1 := by
  obtain ⟨hStart, hSuccesses, hFailures⟩ := h.roll outcome now
  have hLast := lastWindow_concat window history (outcome, now)
  constructor <;> rw [hLast] <;> cases outcome <;>
    simp [HealthRecord.add, hStart, hSuccesses, hFailures]

theorem Observes.addLatency (h : Observes window history record) (latency : Duration) :
    Observes window history (record.addLatency latency) :=
  ⟨h.windowStart, h.successes, h.failures⟩

end HealthRecord

namespace HealthTracker

open OutcomeHistory

/-- All reports, whatever they were about. -/
theorem observes_ofReports (policy : CooldownPolicy) (window : Duration) (reports : List Report)
    (id : String) :
    ((ofReports policy window reports).record id).Observes window
      (OutcomeHistory.ofReports id reports) := by
  refine ofReports_induction
    (motive := fun reports record => record.Observes window (OutcomeHistory.ofReports id reports))
    (HealthRecord.observes_empty window) ?_ ?_ ?_ reports
  · intro reports record report hElsewhere h
    rwa [OutcomeHistory.ofReports_elsewhere hElsewhere]
  · intro reports record outcome now h
    rw [OutcomeHistory.ofReports_outcome]
    exact h.add policy outcome now
  · intro reports record latency h
    rw [OutcomeHistory.ofReports_latency]
    exact h.addLatency latency

/-- The counts in a view are those of the last observation window, if that reaches the instant of
the view, and zero otherwise: its successes, and as failures all its other outcomes. As long as the
clock does not go back, all that is counted is younger than a window is long. The windows divide
the outcomes among them. Those before the last are closed for good and the last one only grows at
its end, so no outcome is ever counted in two of them. -/
theorem view_counts_window (policy : CooldownPolicy) (window : Duration) (reports : List Report)
    (id : String) :
    let tracker := ofReports policy window reports
    let history := OutcomeHistory.ofReports id reports
    (∀ now, (tracker.view id now).successes =
        (history.counted window now).countP (·.1 == .success) ∧
      (tracker.view id now).failures =
        (history.counted window now).countP (·.1 != .success)) ∧
    ((history.Pairwise fun a b => a.2 ≤ b.2) →
      ∀ now, ∀ entry ∈ history.counted window now, now - entry.2 < window) ∧
    (history.windows window).flatten = history ∧
    ∀ earlier last, history.windows window = earlier ++ [last] →
      ∀ more, ∃ joined later,
        OutcomeHistory.windows window (history ++ more) = earlier ++ (last ++ joined) :: later := by
  intro tracker history
  have hObserves : (tracker.record id).Observes window history :=
    observes_ofReports policy window reports id
  have hWindow : tracker.window = window := (setup_ofReports policy window reports).2
  refine ⟨fun now => ?_, fun hOrdered now entry => age_lt_of_mem_counted hOrdered,
    flatten_windows window history, fun earlier last h => windows_append h⟩
  rw [view, hWindow]
  exact hObserves.view now

/-- Reports on two deployments. The fourth of "d1" comes 60 after its first. -/
def rolledReports : List Report :=
  [.outcome "d1" .rateLimited 10, .outcome "d2" .success 20, .outcome "d1" .success 30,
    .latency "d1" 5, .outcome "d1" .nonRetriableError 69, .outcome "d1" .retriableError 70,
    .outcome "d1" .success 95]

/-- The second window of "d1" holds two outcomes. A view shows them until just before instant 130,
when the window is over. -/
theorem view_counts_window_rolled :
    let tracker := ofReports CooldownPolicy.standard 60 rolledReports
    let history := OutcomeHistory.ofReports "d1" rolledReports
    (history.Pairwise fun a b => a.2 ≤ b.2) ∧
      history.counted 60 129 = [(.retriableError, 70), (.success, 95)] ∧
      (tracker.view "d1" 129).successes = 1 ∧ (tracker.view "d1" 129).failures = 1 ∧
      (∀ entry ∈ history.counted 60 129, 129 - entry.2 < 60) ∧
      (tracker.view "d1" 130).successes = 0 ∧ (tracker.view "d1" 130).failures = 0 := by
  intro tracker history
  have hOrdered : history.Pairwise fun a b => a.2 ≤ b.2 := by decide
  have hLast : lastWindow 60 history = [(.retriableError, 70), (.success, 95)] := by
    have hHistory : history = [(.rateLimited, 10), (.success, 30), (.nonRetriableError, 69),
        (.retriableError, 70), (.success, 95)] := rfl
    simp [hHistory, lastWindow, windows_cons, reaches]
  have hCounted : history.counted 60 129 = [(.retriableError, 70), (.success, 95)] := by
    simp [counted, hLast, reaches]
  have hOver : history.counted 60 130 = [] := by
    simp [counted, hLast, reaches]
  obtain ⟨hCounts, hAge, -, -⟩ :=
    view_counts_window CooldownPolicy.standard 60 rolledReports "d1"
  have hInside := hCounts 129
  rw [hCounted] at hInside
  have hBeyond := hCounts 130
  rw [hOver] at hBeyond
  exact ⟨hOrdered, hCounted, hInside.1, hInside.2, hAge hOrdered 129, hBeyond.1, hBeyond.2⟩

end HealthTracker

end DeploymentRouting
