import DeploymentRouting.Proofs.Limiter.Decision
import DeploymentRouting.Proofs.Limiter.Occupancy
import DeploymentRouting.Proofs.Limiter.Windows
/-!
Fixed windows. A cell keeps the counts of one window only and moves them on when it happens to
be touched. Here it is shown that what can be read of a cell is still what belongs to the
window in which it is read, however the steps on its key fall in time.
-/
namespace DeploymentRouting

namespace Limiter

namespace Origin

variable (origin : Origin)

/-- The instant at which a holder gives its oldest place back, if that is one on the key of
the cell. -/
def returnedAt (log : Log) (holder : Nat) (party : Party) (now : Instant) : Option Instant :=
  match log.outOf holder party with
  | [] => none
  | admission :: _ => if admission.isOn origin.party origin.key then some now else none

/-- When a step touches the key of the cell, if it does: it asks for a place on it or gives
one back. -/
def touchedAt (log : Log) : Move → Option Instant
  | .reserve _ party key _ _ now =>
      if party = origin.party ∧ key = origin.key then some now else none
  | .settle holder party _ now => origin.returnedAt log holder party now
  | .abandon holder party now => origin.returnedAt log holder party now
  | .forget _ => none

/-- Runs in which a cell is made and stays, with the instant at which it was touched last.
The steps on its key come one after the other in time, no two of them more windows apart than
can be told in 32 bits; the windows since the cell was made and the tokens of one window can
be told in 64 bits. Steps on other keys are free, and so is their time. -/
inductive Lifetime : Instant → Log → Prop where
  | made {window : Duration} {moves : List Move} {holder cost : Nat} {limits : Limits}
      {log after : Log}
      (hLog : log = Log.run window moves)
      (hNew : log.limiter.cell? origin.party origin.key = none)
      (hSerial : origin.serial = log.limiter.fresh)
      (hWindow : origin.window = log.limiter.window)
      (hAfter : after =
        log.perform (.reserve holder origin.party origin.key limits cost origin.start))
      (hTokens : (origin.reference after origin.start).tokens ≤ Counter.top64) :
      Lifetime origin.start after
  | touched {last now : Instant} {log after : Log} {move : Move}
      (prior : Lifetime last log)
      (hAfter : after = log.perform move)
      (hTouched : origin.touchedAt log move = some now)
      (hLast : last ≤ now)
      (hGap : origin.index now - origin.index last ≤ Counter.top32)
      (hWidth : origin.index now ≤ Counter.top64)
      (hTokens : (origin.reference after now).tokens ≤ Counter.top64) :
      Lifetime now after
  | elsewhere {last : Instant} {log after : Log} {move : Move}
      (prior : Lifetime last log)
      (hAfter : after = log.perform move)
      (hUntouched : origin.touchedAt log move = none)
      (hKept : after.limiter.cell? origin.party origin.key ≠ none) :
      Lifetime last after

theorem exists_of_returnedAt {origin : Origin} {log : Log} {holder : Nat} {party : Party}
    {instant now : Instant} (h : origin.returnedAt log holder party instant = some now) :
    instant = now ∧ ∃ admission rest, log.outOf holder party = admission :: rest ∧
      admission.isOn origin.party origin.key = true := by
  simp only [returnedAt] at h
  split at h
  next => cases h
  next admission rest hOut =>
    split at h
    next hOn => exact ⟨Option.some.inj h, admission, rest, hOut, hOn⟩
    next => cases h

theorem isOn_of_returnedAt {origin : Origin} {log : Log} {holder : Nat} {party : Party}
    {now : Instant} {admission : Admission} {rest : List Admission}
    (h : origin.returnedAt log holder party now = none)
    (hOut : log.outOf holder party = admission :: rest) :
    admission.isOn origin.party origin.key = false := by
  simpa [returnedAt, hOut] using h

variable {origin} {grants : List Grant} {grant : Grant} {i : Nat}

/-! ## The invariant -/

/-- The cell is there and its counts are those of the window in which it was touched last.
Every grant that it made carries the number of its window. -/
structure Tracks (origin : Origin) (log : Log) (last : Instant) : Prop where
  sound : log.Sound
  window_eq : log.limiter.window = origin.window
  window_pos : 0 < origin.window
  cell : ∃ cell, log.limiter.cell? origin.party origin.key = some cell ∧
    cell.serial = origin.serial ∧
    cell.counters.StandAt origin.window origin.start (origin.index last) ∧
    cell.counters.requests = origin.requestsIn log.grants (origin.index last) ∧
    cell.counters.tokens = origin.tokensIn log.grants (origin.index last)
  grants : ∀ grant ∈ log.grants, grant.admission.serial = origin.serial →
    grant.admission.generation = origin.index grant.instant ∧ grant.instant ≤ last

namespace Tracks

variable {log after : Log} {last now : Instant}

theorem grantedIn_of_lt (h : Tracks origin log last) (hLt : origin.index last < i) :
    ∀ grant ∈ log.grants, origin.grantedIn i grant = false := by
  intro grant hMem
  by_cases hSerial : grant.admission.serial = origin.serial
  · have hIndex : origin.index grant.instant ≤ origin.index last :=
      windowIndex_mono (h.grants grant hMem hSerial).2
    have hNe : origin.index grant.instant ≠ i := by omega
    simp [grantedIn, hNe]
  · exact grantedIn_of_serial_ne hSerial i

/-- What a request would be decided on is the reference, at any later instant. -/
theorem currentCell_load (h : Tracks origin log last) (hLast : last ≤ now) :
    (log.limiter.currentCell origin.party origin.key now).counters.load =
      origin.reference log now := by
  have hInFlight : (log.limiter.currentCell origin.party origin.key now).counters.inFlight =
    log.outOn origin.party origin.key := h.sound.accounts.currentCell_inFlight ..
  obtain ⟨cell, hCell, _, hStand, hRequests, hTokens⟩ := h.cell
  have hMono : origin.index last ≤ origin.index now := windowIndex_mono hLast
  have hPassed : cell.counters.windowsPassed origin.window now =
    origin.index now - origin.index last := hStand.windowsPassed now h.window_pos
  rw [currentCell_of_some _ _ _ _ hCell, h.window_eq, Cell.roll] at hInFlight ⊢
  simp only [Counters.roll_inFlight] at hInFlight
  rw [Counters.load_roll, Counters.loadAt, hPassed]
  -- In a later window the counts read as zero, and no grant is in that window yet.
  by_cases hSame : origin.index now = origin.index last
  · simp [reference, Counters.load, hSame, hInFlight, hRequests, hTokens]
  · have hNone := @grantedIn_of_lt _ (origin.index now) _ _ h (by omega)
    have hLater : origin.index now - origin.index last ≠ 0 := by omega
    simp [reference, Counters.load, hLater, hInFlight, requestsIn_eq_zero hNone,
      tokensIn_eq_zero hNone]

theorem currentCell_standAt (h : Tracks origin log last) (hLast : last ≤ now)
    (hGap : origin.index now - origin.index last ≤ Counter.top32)
    (hWidth : origin.index now ≤ Counter.top64) :
    (log.limiter.currentCell origin.party origin.key now).counters.StandAt origin.window
      origin.start (origin.index now) := by
  obtain ⟨cell, hCell, _, hStand, _, _⟩ := h.cell
  rw [currentCell_of_some _ _ _ _ hCell, h.window_eq]
  exact hStand.roll h.window_pos (windowIndex_mono hLast) hGap hWidth

theorem currentCell_serial (h : Tracks origin log last) (now : Instant) :
    (log.limiter.currentCell origin.party origin.key now).serial = origin.serial := by
  obtain ⟨cell, hCell, hSerial, _⟩ := h.cell
  rw [currentCell_of_some _ _ _ _ hCell]
  exact hSerial

/-- A request for the key, granted or refused, leaves the counts of its own window behind. It
does not matter whether the cell was there before. -/
theorem of_reserve {holder cost : Nat} {limits : Limits} (hSound : log.Sound)
    (hWindow : log.limiter.window = origin.window) (hPos : 0 < origin.window)
    (hSerial : (log.limiter.currentCell origin.party origin.key now).serial = origin.serial)
    (hStand : (log.limiter.currentCell origin.party origin.key now).counters.StandAt
      origin.window origin.start (origin.index now))
    (hLoad : (log.limiter.currentCell origin.party origin.key now).counters.load =
      origin.reference log now)
    (hGrants : ∀ grant ∈ log.grants, grant.admission.serial = origin.serial →
      grant.admission.generation = origin.index grant.instant ∧ grant.instant ≤ now)
    (hAfter : after = log.perform (.reserve holder origin.party origin.key limits cost now))
    (hFits : (origin.reference after now).tokens ≤ Counter.top64) :
    Tracks origin after now := by
  have hRequests := congrArg Load.requests hLoad
  have hTokens := congrArg Load.tokens hLoad
  simp only [Counters.load, reference] at hRequests hTokens hFits
  have hAfterSound : after.Sound := hAfter ▸ hSound.perform _
  obtain ⟨hLimiter, hAnswer⟩ := Log.perform_reserve_cases log holder origin.party origin.key
    limits cost now
  rw [← hAfter] at hLimiter hAnswer
  have hAfterWindow : after.limiter.window = origin.window := by
    rw [hLimiter, reserve_window, hWindow]
  rcases hAnswer with ⟨refusal, hRefusal, hAfterGrants⟩ | ⟨hOpen, hAfterGrants⟩
  · refine ⟨hAfterSound, hAfterWindow, hPos, ⟨_, ?_, hSerial, hStand, ?_, ?_⟩, ?_⟩
    · rw [hLimiter, reserve_cell?, if_pos ⟨rfl, rfl⟩, hRefusal]
    · rw [hAfterGrants, hRequests]
    · rw [hAfterGrants, hTokens]
    · rw [hAfterGrants]
      exact hGrants
  · have hGranted : origin.grantedIn (origin.index now)
        { holder, admission := log.limiter.offer origin.party origin.key cost now
          instant := now } = true := by
      simp [grantedIn, offer, hSerial]
    rw [hAfterGrants, tokensIn_append, tokensIn_cons, hGranted, if_pos rfl] at hFits
    have hCharge : origin.tokensIn log.grants (origin.index now) + cost ≤ Counter.top64 := by
      simpa [tokensIn, charge, offer] using hFits
    refine ⟨hAfterSound, hAfterWindow, hPos,
      ⟨(log.limiter.currentCell origin.party origin.key now).take cost, ?_, hSerial,
        ⟨hStand.start, hStand.generation⟩, ?_, ?_⟩, ?_⟩
    · rw [hLimiter, reserve_cell?, if_pos ⟨rfl, rfl⟩, hOpen]
    · rw [hAfterGrants, requestsIn_append, requestsIn_cons, hGranted, if_pos rfl]
      simp [requestsIn, Cell.take, Counters.take, hRequests]
    · rw [hAfterGrants, tokensIn_append, tokensIn_cons, hGranted, if_pos rfl]
      simp only [Cell.take, Counters.take, hTokens, Counter.add64_eq_add hCharge]
      simp [tokensIn, charge, offer]
    · rw [hAfterGrants]
      intro grant hMem hOwn
      rcases List.mem_append.mp hMem with hMem | hMem
      · exact hGrants grant hMem hOwn
      · cases List.mem_singleton.mp hMem
        exact ⟨hStand.generation, Nat.le_refl now⟩

/-- A new cell begins with its first window. -/
theorem made {window : Duration} {moves : List Move} {holder cost : Nat} {limits : Limits}
    (hLog : log = Log.run window moves)
    (hNew : log.limiter.cell? origin.party origin.key = none)
    (hSerial : origin.serial = log.limiter.fresh)
    (hWindow : origin.window = log.limiter.window)
    (hAfter : after =
      log.perform (.reserve holder origin.party origin.key limits cost origin.start))
    (hFits : (origin.reference after origin.start).tokens ≤ Counter.top64) :
    Tracks origin after origin.start := by
  have hSound : log.Sound := hLog ▸ Log.sound_run window moves
  have hFirst : origin.index origin.start = 0 := by simp [index, windowIndex]
  have hForeign : ∀ grant ∈ log.grants, grant.admission.serial ≠ origin.serial := by
    intro grant hMem hEq
    have hLt := hSound.serial_lt _ (List.mem_map_of_mem hMem)
    omega
  have hNone : ∀ grant ∈ log.grants, origin.grantedIn 0 grant = false := fun grant hMem =>
    grantedIn_of_serial_ne (hForeign grant hMem) 0
  have hOut : log.outOn origin.party origin.key = 0 := hSound.accounts.countOn_of_none hNew
  have hCell := currentCell_of_none log.limiter origin.party origin.key origin.start hNew
  refine of_reserve hSound hWindow.symm ?_ ?_ ?_ ?_ (fun grant hMem hEq => ?_) hAfter hFits
  · rw [hWindow, hLog, Log.run_window]
    exact Nat.lt_of_lt_of_le (by decide) (Nat.le_max_right ..)
  · rw [hCell, hSerial]
  · rw [hCell, hFirst]
    exact ⟨by simp, rfl⟩
  · rw [hCell]
    simp [Counters.load, reference, hFirst, hOut, requestsIn_eq_zero hNone,
      tokensIn_eq_zero hNone]
  · exact absurd hEq (hForeign grant hMem)

/-- A place that is on the key was granted by the cell, in the window that it carries. -/
theorem grant_of_outOf (h : Tracks origin log last) {holder : Nat} {party : Party}
    {admission : Admission} {rest : List Admission}
    (hOut : log.outOf holder party = admission :: rest)
    (hOn : admission.isOn origin.party origin.key = true) (now : Instant) (cost : Nat) :
    admission.serial = origin.serial ∧
      ∃ before grant behind, log.grants = before ++ grant :: behind ∧
        grant.admission = admission ∧ grant.returned = none ∧
        Grant.markReturned holder party now cost log.grants =
          before ++ { grant with returned := some (now, cost) } :: behind ∧
        admission.generation = origin.index grant.instant ∧ grant.instant ≤ last := by
  have hMem : admission ∈ log.out :=
    (Log.perm_out_giveBack hOut now fun _ => cost).mem_iff.mpr List.mem_cons_self
  have hSerial : admission.serial = origin.serial :=
    (h.sound.accounts.serial_of_isOn now hMem hOn).trans (h.currentCell_serial now)
  obtain ⟨before, grant, behind, hGrants, rfl, hReturned, hMarks⟩ :=
    @Grant.markReturned_eq_append holder party now cost _ _ _ hOut
  have hGrant := h.grants grant (by simp [hGrants]) hSerial
  exact ⟨hSerial, before, grant, behind, hGrants, rfl, hReturned, hMarks, hGrant⟩

/-- The generation tells whether the estimate of a grant is still among the tokens: the counts
stay those of the window, whether the grant was made in it or in an earlier one. -/
theorem counts_giveBack {counters : Counters} {before behind : List Grant} {cost : Nat}
    (hStand : (counters.roll origin.window now).StandAt origin.window origin.start
      (origin.index now))
    (hLoad : (counters.roll origin.window now).requests =
        origin.requestsIn (before ++ grant :: behind) (origin.index now) ∧
      (counters.roll origin.window now).tokens =
        origin.tokensIn (before ++ grant :: behind) (origin.index now))
    (hSerial : grant.admission.serial = origin.serial)
    (hGeneration : grant.admission.generation = origin.index grant.instant)
    (hOut : grant.returned = none)
    (hFits : origin.tokensIn (before ++ { grant with returned := some (now, cost) } :: behind)
      (origin.index now) ≤ Counter.top64) :
    (counters.giveBack origin.window now grant.admission.generation grant.admission.estimate
        cost).requests =
        origin.requestsIn (before ++ { grant with returned := some (now, cost) } :: behind)
          (origin.index now) ∧
      (counters.giveBack origin.window now grant.admission.generation grant.admission.estimate
        cost).tokens =
        origin.tokensIn (before ++ { grant with returned := some (now, cost) } :: behind)
          (origin.index now) := by
  obtain ⟨hRequests, hTokens⟩ := @counts_returned origin grant before behind hOut now cost
    (origin.index now)
  have hIn : origin.grantedIn (origin.index now) grant = true ↔
      origin.index now = grant.admission.generation := by
    simp only [grantedIn, hSerial, hGeneration, beq_self_eq_true, Bool.true_and, beq_iff_eq]
    exact eq_comm
  rw [hTokens] at hFits ⊢
  rw [hRequests]
  simp only [Counters.giveBack_eq, hStand.generation, hLoad, hIn, and_true, true_and] at hFits ⊢
  split
  -- The grant is of the window at hand, so its estimate is in the counter and gives way to the
  -- actual cost. A grant of an earlier window has been discarded with the counts of that window.
  next hSame =>
    rw [if_pos hSame] at hFits
    exact Counter.add64_eq_add hFits
  next => rfl

/-- A place on the key that comes back takes the reference with it, whichever window it was
granted in. -/
theorem giveBack (h : Tracks origin log last) {holder : Nat} {party : Party}
    {admission : Admission} {rest : List Admission} {cost : Admission → Nat}
    (hOut : log.outOf holder party = admission :: rest)
    (hOn : admission.isOn origin.party origin.key = true) (hLast : last ≤ now)
    (hGap : origin.index now - origin.index last ≤ Counter.top32)
    (hWidth : origin.index now ≤ Counter.top64)
    (hAfter : after = log.giveBack holder party now cost)
    (hFits : (origin.reference after now).tokens ≤ Counter.top64) :
    Tracks origin after now := by
  obtain ⟨hSerial, before, grant, behind, hGrants, rfl, hReturned, hMarks, hGeneration, _⟩ :=
    h.grant_of_outOf hOut hOn now (cost admission)
  have hStand := h.currentCell_standAt hLast hGap hWidth
  have hLoad : (log.limiter.currentCell origin.party origin.key now).counters.load =
    origin.reference log now := h.currentCell_load hLast
  obtain ⟨cell, hCell, hCellSerial, _⟩ := h.cell
  rw [currentCell_of_some _ _ _ _ hCell, h.window_eq] at hStand hLoad
  have hAfterSound : after.Sound := hAfter ▸ h.sound.giveBack holder party now cost
  rw [Log.giveBack_of_cons hOut, hMarks] at hAfter
  simp only [reference, hAfter] at hFits
  have hCounts := counts_giveBack hStand
    (hGrants ▸ ⟨congrArg Load.requests hLoad, congrArg Load.tokens hLoad⟩)
    hSerial hGeneration hReturned hFits
  have hHere := Admission.isOn_iff.mp hOn
  subst hAfter
  refine ⟨hAfterSound, ?_, h.window_pos,
    ⟨cell.settle origin.window grant.admission (cost grant.admission) now, ?_, hCellSerial, ?_,
      hCounts.1, hCounts.2⟩, fun other hMem hOwn => ?_⟩
  · rw [settle_window, h.window_eq]
  · rw [settle_cell?, if_pos ⟨hHere.1.symm, hHere.2.symm⟩, hCell, Option.map_some,
      if_pos (hCellSerial.trans hSerial.symm), h.window_eq]
  · simp only [Cell.settle, Counters.giveBack_eq]
    exact ⟨hStand.start, hStand.generation⟩
  · obtain ⟨old, hOld, hAdmission, hInstant⟩ := Grant.exists_of_mem_returned hMem
    rw [← hGrants] at hOld
    rw [← hAdmission] at hOwn ⊢
    rw [← hInstant]
    obtain ⟨hOldGeneration, hOldInstant⟩ := h.grants old hOld hOwn
    exact ⟨hOldGeneration, Nat.le_trans hOldInstant hLast⟩

/-- A step that leaves the cell and its grants alone keeps the invariant. -/
theorem frame (h : Tracks origin log last) (hSound : after.Sound)
    (hWindow : after.limiter.window = log.limiter.window)
    (hCell : after.limiter.cell? origin.party origin.key =
      log.limiter.cell? origin.party origin.key)
    (hRequests : ∀ i, origin.requestsIn after.grants i = origin.requestsIn log.grants i)
    (hTokens : ∀ i, origin.tokensIn after.grants i = origin.tokensIn log.grants i)
    (hGrants : ∀ grant ∈ after.grants, grant.admission.serial = origin.serial →
      ∃ old ∈ log.grants, old.admission = grant.admission ∧ old.instant = grant.instant) :
    Tracks origin after last where
  sound := hSound
  window_eq := hWindow.trans h.window_eq
  window_pos := h.window_pos
  cell := by
    obtain ⟨cell, hOld, hSerial, hStand, hOldRequests, hOldTokens⟩ := h.cell
    exact ⟨cell, hCell.trans hOld, hSerial, hStand, hOldRequests.trans (hRequests _).symm,
      hOldTokens.trans (hTokens _).symm⟩
  grants grant hMem hSerial := by
    obtain ⟨old, hOld, hAdmission, hInstant⟩ := hGrants grant hMem hSerial
    rw [← hAdmission] at hSerial ⊢
    rw [← hInstant]
    exact h.grants old hOld hSerial

/-- A place that comes back on another key was granted by another cell. -/
theorem giveBack_elsewhere (h : Tracks origin log last) {holder : Nat} {party : Party}
    (cost : Admission → Nat)
    (hElse : ∀ admission rest, log.outOf holder party = admission :: rest →
      admission.isOn origin.party origin.key = false) :
    Tracks origin (log.giveBack holder party now cost) last := by
  have hSound := h.sound.giveBack holder party now cost
  cases hOut : log.outOf holder party with
  | nil => rwa [Log.giveBack_of_nil hOut]
  | cons admission rest =>
      have hOff : ¬(origin.party = admission.party ∧ origin.key = admission.key) := by
        intro hHere
        have hOn := Admission.isOn_iff.mpr ⟨hHere.1.symm, hHere.2.symm⟩
        rw [hElse admission rest hOut] at hOn
        cases hOn
      have hForeign : admission.serial ≠ origin.serial := by
        intro hEq
        obtain ⟨other, hOther, hSerial⟩ := h.sound.accounts.attached admission
          ((Log.perm_out_giveBack hOut now cost).mem_iff.mpr List.mem_cons_self)
        obtain ⟨cell, hCell, hCellSerial, _⟩ := h.cell
        have hSame : cell.serial = other.serial :=
          hCellSerial.trans (hEq.symm.trans hSerial.symm)
        exact hOff (h.sound.accounts.serial_injective hOther hCell hSame)
      obtain ⟨before, grant, behind, hGrants, rfl, hReturned, hMarks⟩ :=
        @Grant.markReturned_eq_append holder party now (cost admission) _ _ _ hOut
      rw [Log.giveBack_of_cons hOut] at hSound ⊢
      have hOld : ∀ i, origin.grantedIn i grant = false := grantedIn_of_serial_ne hForeign
      have hCounts := @counts_returned origin grant before behind hReturned now
        (cost grant.admission)
      refine h.frame hSound (settle_window ..) ?_ (fun i => ?_) (fun i => ?_)
        fun other hMem _ => ?_
      · rw [settle_cell?, if_neg hOff]
      · rw [hMarks, hGrants, (hCounts i).1]
      · rw [hMarks, hGrants, (hCounts i).2, hOld, if_neg (by simp)]
      · rw [hMarks] at hMem
        rw [hGrants]
        exact Grant.exists_of_mem_returned hMem

/-- A request for another key is answered by another cell. -/
theorem reserve_elsewhere (h : Tracks origin log last) {holder : Nat} {party : Party}
    {key : String} {limits : Limits} {cost : Nat}
    (hElse : ¬(party = origin.party ∧ key = origin.key)) :
    Tracks origin (log.perform (.reserve holder party key limits cost now)) last := by
  have hSound := h.sound.perform (.reserve holder party key limits cost now)
  have hOff : ¬(origin.party = party ∧ origin.key = key) := fun hEq =>
    hElse ⟨hEq.1.symm, hEq.2.symm⟩
  obtain ⟨cell, hCell, hSerial, _⟩ := h.cell
  have hForeign : (log.limiter.offer party key cost now).serial ≠ origin.serial := fun hEq =>
    hOff (h.sound.accounts.currentCell_serial now hCell (hSerial.trans hEq.symm))
  obtain ⟨hLimiter, ⟨refusal, _, hGrants⟩ | ⟨_, hGrants⟩⟩ :=
    Log.perform_reserve_cases log holder party key limits cost now
  · refine h.frame hSound (Log.perform_window ..) ?_ (fun i => ?_) (fun i => ?_)
      fun other hMem _ => ?_
    · rw [hLimiter, reserve_cell?, if_neg hOff]
    · rw [hGrants]
    · rw [hGrants]
    · rw [hGrants] at hMem
      exact ⟨other, hMem, rfl, rfl⟩
  · have hNone : ∀ i, ∀ grant ∈ [({ holder, admission := log.limiter.offer party key cost now
                                    instant := now } : Grant)],
        origin.grantedIn i grant = false := by
      intro i grant hMem
      cases List.mem_singleton.mp hMem
      exact grantedIn_of_serial_ne hForeign i
    refine h.frame hSound (Log.perform_window ..) ?_ (fun i => ?_) (fun i => ?_)
      fun other hMem hOwn => ?_
    · rw [hLimiter, reserve_cell?, if_neg hOff]
    · rw [hGrants, requestsIn_append, requestsIn_eq_zero (hNone i), Nat.add_zero]
    · rw [hGrants, tokensIn_append, tokensIn_eq_zero (hNone i), Nat.add_zero]
    · rw [hGrants, List.mem_append, List.mem_singleton] at hMem
      rcases hMem with hMem | rfl
      · exact ⟨other, hMem, rfl, rfl⟩
      · exact absurd hOwn hForeign

/-- A removal that leaves a cell on the key leaves the cell as it is. -/
theorem forget_kept (h : Tracks origin log last) {key : String}
    (hKept : (log.perform (.forget key)).limiter.cell? origin.party origin.key ≠ none) :
    Tracks origin (log.perform (.forget key)) last := by
  refine h.frame (h.sound.perform _) (Log.perform_window ..) ?_ (fun _ => rfl) (fun _ => rfl)
    fun grant hMem _ => ⟨grant, hMem, rfl, rfl⟩
  simp only [Log.perform] at hKept ⊢
  rw [forget_cell?] at hKept ⊢
  split
  next hHere =>
    rw [if_pos hHere] at hKept
    obtain ⟨cell, hCell⟩ := Option.ne_none_iff_exists'.mp hKept
    rw [hCell, (Option.filter_eq_some_iff.mp hCell).1]
  next => rfl

theorem settle_late (h : Tracks origin log last) {grant : Grant} (hMem : grant ∈ log.grants)
    (hOwn : grant.admission.serial = origin.serial) (actual : Nat) (hLast : last ≤ now)
    (hWidth : origin.index now ≤ Counter.top64)
    (hLate : origin.index grant.instant ≠ origin.index now) {later : Instant} (hLe : now ≤ later) :
    ((log.limiter.settle grant.admission actual now).load origin.party origin.key later).tokens =
      (log.limiter.load origin.party origin.key later).tokens := by
  obtain ⟨cell, hCell, hSerial, hStand, _⟩ := h.cell
  have hGeneration : (cell.counters.roll origin.window now).generation ≠
      grant.admission.generation := by
    rw [(h.grants grant hMem hOwn).1]
    intro hEq
    exact hLate (hEq.symm.trans
      (hStand.roll_generation h.window_pos (windowIndex_mono hLast) hWidth))
  simp only [load, settle_cell?, settle_window, hCell, Option.map_some, hSerial, hOwn, if_true,
    h.window_eq]
  split
  next hSettled =>
    split at hSettled
    next =>
      cases hSettled
      have hSame := congrArg Load.tokens (cell.counters.loadAt_roll origin.window hLe)
      rw [Cell.settle, Counters.giveBack_eq, if_neg hGeneration, Counters.loadAt_withInFlight]
      exact hSame
    next =>
      cases hSettled
      rfl
  next hSettled => split at hSettled <;> cases hSettled

end Tracks

theorem Lifetime.tracks {last : Instant} {log : Log} (h : Lifetime origin last log) :
    Tracks origin log last := by
  induction h with
  | made hLog hNew hSerial hWindow hAfter hTokens =>
      exact Tracks.made hLog hNew hSerial hWindow hAfter hTokens
  | @touched last now log after move prior hAfter hTouched hLast hGap hWidth hTokens ih =>
      cases move with
      | reserve holder party key limits cost instant =>
          simp only [touchedAt] at hTouched
          split at hTouched
          next hKey =>
            obtain ⟨rfl, rfl⟩ := hKey
            cases hTouched
            refine Tracks.of_reserve ih.sound ih.window_eq ih.window_pos
              (ih.currentCell_serial now) (ih.currentCell_standAt hLast hGap hWidth)
              (ih.currentCell_load hLast) (fun grant hMem hOwn => ?_) hAfter hTokens
            obtain ⟨hGeneration, hInstant⟩ := ih.grants grant hMem hOwn
            exact ⟨hGeneration, Nat.le_trans hInstant hLast⟩
          next => cases hTouched
      | settle holder party actual instant =>
          obtain ⟨rfl, admission, rest, hOut, hOn⟩ := exists_of_returnedAt hTouched
          exact ih.giveBack hOut hOn hLast hGap hWidth hAfter hTokens
      | abandon holder party instant =>
          obtain ⟨rfl, admission, rest, hOut, hOn⟩ := exists_of_returnedAt hTouched
          exact ih.giveBack hOut hOn hLast hGap hWidth hAfter hTokens
      | forget key => cases hTouched
  | @elsewhere last log after move prior hAfter hUntouched hKept ih =>
      subst hAfter
      cases move with
      | reserve holder party key limits cost instant =>
          refine ih.reserve_elsewhere fun hKey => ?_
          simp [touchedAt, hKey] at hUntouched
      | settle holder party actual instant =>
          exact ih.giveBack_elsewhere _ fun _ _ hOut => isOn_of_returnedAt hUntouched hOut
      | abandon holder party instant =>
          exact ih.giveBack_elsewhere _ fun _ _ hOut => isOn_of_returnedAt hUntouched hOut
      | forget key => exact ih.forget_kept hKept

/-- Windows of one millisecond. The first call costs more than was estimated and comes back
in its own window. The second one comes back at the first instant of the next window, in
which a third one is let in. The caller of the same name is no concern of the deployment. -/
def edgeMoves : List Move :=
  [.reserve 0 .deployment "d1" { tokens := some 20 } 5 250, .reserve 1 .caller "d1" {} 9 100,
    .settle 0 .deployment 7 300000, .reserve 2 .deployment "d1" { tokens := some 20 } 6 400000,
    .settle 2 .deployment 90 1000250, .reserve 3 .deployment "d1" { tokens := some 20 } 4 1000260]

def edgeOrigin : Origin := ⟨.deployment, "d1", 0, 1000000, 250⟩

end Origin

end Limiter

end DeploymentRouting
