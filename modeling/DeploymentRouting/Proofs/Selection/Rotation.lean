import DeploymentRouting.Proofs.Selection.Eligible
import DeploymentRouting.Proofs.Sorting
import Mathlib.Data.List.Rotate
/-!
Fairness of the rotation. For each model there is one counter, whatever the number of candidates,
and it moves with every choice that is one. As long as the candidates stay the same and the counter
does not start again, the choices go round them in the order of their ids, wherever they begin.
-/
namespace DeploymentRouting

universe u

namespace Rotation

variable {α : Type u} {items : List α} {start : Nat}

/-- What is met on a way round and round a list, from some place on. -/
def laps (items : List α) (start : Nat) : Nat → List α
  | 0 => []
  | count + 1 => items[start % items.length]?.toList ++ laps items (start + 1) count

theorem laps_congr {other : Nat} (h : start % items.length = other % items.length) (count : Nat) :
    laps items start count = laps items other count := by
  induction count generalizing start other with
  | zero => rfl
  | succ count ih =>
      have hNext : (start + 1) % items.length = (other + 1) % items.length := by
        rw [Nat.add_mod, h, ← Nat.add_mod]
      rw [laps, laps, h, ih hNext]

theorem laps_add (items : List α) (start count more : Nat) :
    laps items start (count + more) =
      laps items start count ++ laps items (start + count) more := by
  induction count generalizing start with
  | zero => rw [Nat.zero_add, Nat.add_zero, laps, List.nil_append]
  | succ count ih =>
      rw [Nat.succ_add_eq_add_succ, Nat.add_succ, laps, laps, ih, List.append_assoc,
        Nat.add_assoc, Nat.add_comm 1 count]

theorem length_laps (h : items ≠ []) (start count : Nat) :
    (laps items start count).length = count := by
  induction count generalizing start with
  | zero => rfl
  | succ count ih =>
      have hPlace : start % items.length < items.length :=
        Nat.mod_lt start (List.length_pos_iff.mpr h)
      rw [laps, List.getElem?_eq_getElem hPlace, List.length_append, ih]
      exact Nat.add_comm 1 count

theorem getElem?_laps (h : items ≠ []) (start : Nat) {count place : Nat} (hPlace : place < count) :
    (laps items start count)[place]? = items[(start + place) % items.length]? := by
  induction count generalizing start place with
  | zero => cases hPlace
  | succ count ih =>
      have hFirst : start % items.length < items.length :=
        Nat.mod_lt start (List.length_pos_iff.mpr h)
      rw [laps, List.getElem?_eq_getElem hFirst]
      cases place with
      | zero => exact (List.getElem?_eq_getElem hFirst).symm
      | succ place =>
          have hLater := ih (start + 1) (Nat.lt_of_succ_lt_succ hPlace)
          rw [Nat.add_assoc, Nat.add_comm 1 place] at hLater
          exact hLater

/-- One lap meets everything once. -/
theorem laps_length (h : items ≠ []) (start : Nat) :
    laps items start items.length = items.rotate start := by
  apply List.ext_getElem?
  intro place
  by_cases hPlace : place < items.length
  · rw [getElem?_laps h start hPlace, List.getElem?_rotate hPlace, Nat.add_comm]
  · rw [List.getElem?_eq_none, List.getElem?_eq_none]
    · rw [List.length_rotate]
      exact Nat.not_lt.mp hPlace
    · rw [length_laps h]
      exact Nat.not_lt.mp hPlace

/-- As many successive places as a list has meet everything on it once. -/
theorem perm_of_laps (h : items ≠ []) {count skipped : Nat}
    (hFits : skipped + items.length ≤ count) :
    (((laps items start count).drop skipped).take items.length).Perm items := by
  obtain ⟨more, rfl⟩ := Nat.exists_eq_add_of_le hFits
  rw [laps_add, laps_add, List.append_assoc,
    List.drop_left' (length_laps h start skipped), List.take_left' (length_laps h _ _),
    laps_length h]
  exact List.rotate_perm items _

variable [DecidableEq α]

/-- A way round a list meets everything on it equally often, up to the lap that is not finished. -/
theorem count_laps (hDistinct : items.Nodup) {item : α} (hItem : item ∈ items) (start count : Nat) :
    (laps items start count).count item = count / items.length ∨
      (laps items start count).count item = (count + items.length - 1) / items.length := by
  have hSome : items ≠ [] := List.ne_nil_of_mem hItem
  have hPos : 0 < items.length := List.length_pos_iff.mpr hSome
  have hLap : ∀ start, (laps items start items.length).count item = 1 := fun start => by
    rw [laps_length hSome, (List.rotate_perm items start).count_eq]
    exact List.count_eq_one_of_mem hDistinct hItem
  -- Whole laps are taken off one by one, until less than one is left.
  induction count using Nat.strong_induction_on generalizing start with
  | _ count ih =>
      by_cases hShort : count < items.length
      · have hPart : (laps items start count).count item ≤ 1 := by
          obtain ⟨more, hMore⟩ := Nat.exists_eq_add_of_le hShort.le
          rw [← hLap start, hMore, laps_add, List.count_append]
          exact Nat.le_add_right _ _
        rcases Nat.le_one_iff_eq_zero_or_eq_one.mp hPart with hNone | hOnce
        · left
          rw [hNone, Nat.div_eq_of_lt hShort]
        · right
          have hMet : item ∈ laps items start count := List.count_pos_iff.mp (hOnce ▸ Nat.one_pos)
          have hStarted : 0 < count := by
            rw [← length_laps hSome start count]
            exact List.length_pos_of_mem hMet
          rw [hOnce, eq_comm, Nat.div_eq_iff hPos]
          omega
      · obtain ⟨more, rfl⟩ := Nat.exists_eq_add_of_le (Nat.not_lt.mp hShort)
        have hUp : items.length + more + items.length - 1 =
            (more + items.length - 1) + items.length := by omega
        rw [laps_add, List.count_append, hLap, hUp, Nat.add_div_right _ hPos,
          Nat.add_comm items.length more, Nat.add_div_right _ hPos, Nat.add_comm 1]
        exact (ih more (by omega) (start + items.length)).imp (congrArg _) (congrArg _)

end Rotation

namespace Cursors

/-- How often the rotation has moved for a model, up to its last start. -/
def counter (cursors : Cursors) (model : String) : Nat := (cursors.counters.get? model).getD 0

theorem next_fst (cursors : Cursors) (model : String) (count : Nat) :
    (cursors.next model count).1 = cursors.counter model % count ∨ count = 0 := by
  unfold next
  split
  next hFew =>
    rcases Nat.le_one_iff_eq_zero_or_eq_one.mp hFew with hNone | rfl
    · exact .inr hNone
    · exact .inl (Nat.mod_one _).symm
  next => exact .inl rfl

theorem counter_next (cursors : Cursors) (model other : String) (count : Nat) :
    (cursors.next model count).2.counter other =
      if model = other ∧ 1 < count then Counter.wrap64 (cursors.counter other + 1)
      else cursors.counter other := by
  unfold next
  split
  next hFew => rw [if_neg fun hMoves => Nat.not_lt.mpr hFew hMoves.2]
  next hMany =>
    simp only [counter, Table.get?_insert, Nat.not_le.mp hMany, and_true, eq_comm (a := model)]
    split
    next hSame =>
      rw [hSame]
      rfl
    next => rfl

end Cursors

namespace Selection

/-- The id of what was chosen. -/
def id? : Selection → Option String
  | .chosen deployment => some deployment.id
  | .noneEligible => none
  | .overflow => none

/-- A choice that is asked of the rotation: for a model, at an instant, among some candidates. -/
structure Query where
  model : String
  now : Instant
  random : RandomSource
  tiers : List (List Candidate)

namespace Query

/-- The choice, and the cursors after it. -/
def ask (query : Query) (cursors : Cursors) : Selection × Cursors :=
  let (selection, cursors, _) :=
    select .roundRobin query.model query.now cursors query.random query.tiers
  (selection, cursors)

/-- The ids of the candidates among which the choice is made, in their order. -/
def eligible (query : Query) : List String := (field query.now query.tiers).map Candidate.id

/-- Whether the choice is for a model and made among exactly these deployments. -/
def Concerns (model : String) (ids : List String) (query : Query) : Prop :=
  query.model = model ∧ query.eligible.Perm ids

instance (model : String) (ids : List String) (query : Query) :
    Decidable (query.Concerns model ids) :=
  inferInstanceAs (Decidable (query.model = model ∧ query.eligible.Perm ids))

variable {query : Query}

theorem ask_eq (query : Query) (cursors : Cursors) :
    query.ask cursors =
      match field query.now query.tiers with
      | [] => (.noneEligible, cursors)
      | first :: rest =>
          let next := cursors.next query.model (rest.length + 1)
          (.chosen ((first :: rest).getD next.1 first).deployment, next.2) := by
  rw [ask, select_eq_choose]
  cases field query.now query.tiers <;> rfl

/-- The counter of the model tells which of the candidates is chosen. -/
theorem id?_ask (query : Query) (cursors : Cursors) :
    (query.ask cursors).1.id? =
      query.eligible[cursors.counter query.model % query.eligible.length]? := by
  rw [ask_eq, eligible]
  cases hField : field query.now query.tiers with
  | nil => rfl
  | cons first rest =>
      have hPlace := (cursors.next_fst query.model (rest.length + 1)).resolve_right
        (Nat.succ_ne_zero _)
      have hBound : cursors.counter query.model % (rest.length + 1) < (first :: rest).length :=
        Nat.mod_lt _ (Nat.succ_pos _)
      simp only [hPlace, List.length_map, List.length_cons, List.getElem?_map, id?]
      rw [List.getD_eq_getElem?_getD, List.getElem?_eq_getElem hBound]
      rfl

/-- It moves with every choice for its model that is one. -/
theorem counter_ask (query : Query) (cursors : Cursors) (model : String) :
    (query.ask cursors).2.counter model =
      if query.model = model ∧ 1 < query.eligible.length then
        Counter.wrap64 (cursors.counter model + 1)
      else cursors.counter model := by
  rw [ask_eq, eligible, List.length_map]
  cases field query.now query.tiers with
  | nil => exact (if_neg fun hMoves => Nat.not_lt_zero _ hMoves.2).symm
  | cons first rest => exact cursors.counter_next query.model model _

end Query

/-- The cursors after some choices. -/
def cursorsAfter (cursors : Cursors) (queries : List Query) : Cursors :=
  queries.foldl (fun cursors query => (query.ask cursors).2) cursors

/-- Some choices, each one made with the cursors that those before it have left. -/
def answers : Cursors → List Query → List (Query × Selection)
  | _, [] => []
  | cursors, query :: rest =>
      let (selection, cursors) := query.ask cursors
      (query, selection) :: answers cursors rest

/-- The ids that are chosen for a model whenever it is among exactly these deployments. -/
def picks (model : String) (ids : List String) (cursors : Cursors) (queries : List Query) :
    List String :=
  (answers cursors queries).filterMap fun answer =>
    if answer.1.Concerns model ids then answer.2.id? else none

/-- Ids in the order in which the rotation goes round them. -/
def ordered (ids : List String) : List String := Sorting.sortBy (fun a b => decide (a ≤ b)) ids

variable {model : String} {ids : List String} {query : Query}

theorem perm_ordered (ids : List String) : (ordered ids).Perm ids := Sorting.perm_sortBy _ ids

theorem length_ordered (ids : List String) : (ordered ids).length = ids.length :=
  (perm_ordered ids).length_eq

theorem pairwise_field (now : Instant) (tiers : List (List Candidate)) :
    (field now tiers).Pairwise fun a b => a.id ≤ b.id := by
  induction tiers with
  | nil => exact List.Pairwise.nil
  | cons tier tiers ih =>
      rw [field_cons]
      split
      · exact ih
      · exact (Sorting.pairwise_sortBy _ (Sorting.key_trans Candidate.id)
          (Sorting.key_total Candidate.id) _).imp of_decide_eq_true

/-- There is just one order of the candidates. -/
theorem eligible_eq_ordered (h : query.Concerns model ids) : query.eligible = ordered ids := by
  have hPerm : query.eligible.Perm (ordered ids) := h.2.trans (perm_ordered ids).symm
  have hOrdered : (ordered ids).Pairwise (· ≤ ·) :=
    (Sorting.pairwise_sortBy _ (Sorting.key_trans id) (Sorting.key_total id) ids).imp
      of_decide_eq_true
  exact hPerm.eq_of_pairwise (fun _ _ _ _ => String.le_antisymm)
    (List.pairwise_map.mpr (pairwise_field query.now query.tiers)) hOrdered

theorem counter_cursorsAfter_le (cursors : Cursors) (queries : List Query) (model : String) :
    (cursorsAfter cursors queries).counter model ≤ cursors.counter model + queries.length := by
  induction queries generalizing cursors with
  | nil => exact Nat.le_refl _
  | cons query rest ih =>
      have hStep : (query.ask cursors).2.counter model ≤ cursors.counter model + 1 := by
        rw [query.counter_ask]
        split
        · exact Nat.mod_le _ _
        · exact Nat.le_succ _
      have hRest := ih (query.ask cursors).2
      change (cursorsAfter (query.ask cursors).2 rest).counter model ≤ _
      rw [List.length_cons]
      omega

theorem picks_cons (model : String) (ids : List String) (cursors : Cursors) (query : Query)
    (rest : List Query) :
    picks model ids cursors (query :: rest) =
      (if query.Concerns model ids then (query.ask cursors).1.id?.toList else []) ++
        picks model ids (query.ask cursors).2 rest := by
  unfold picks
  rw [answers, List.filterMap_cons]
  by_cases hConcerns : query.Concerns model ids
  · simp only [if_pos hConcerns]
    cases (query.ask cursors).1.id? <;> rfl
  · simp only [if_neg hConcerns]
    rfl

/-- A choice among the deployments moves the counter to the next place. -/
theorem counter_ask_of_concerns (cursors : Cursors) (hSome : ids ≠ [])
    (hConcerns : query.Concerns model ids) (hFits : cursors.counter model < Counter.top64) :
    (query.ask cursors).2.counter model ≤ cursors.counter model + 1 ∧
      (query.ask cursors).2.counter model % ids.length =
        (cursors.counter model + 1) % ids.length := by
  have hLength : query.eligible.length = ids.length := hConcerns.2.length_eq
  rw [query.counter_ask, hLength]
  split
  next =>
    rw [Counter.wrap64, Nat.mod_eq_of_lt (Nat.succ_lt_succ hFits)]
    exact ⟨Nat.le_refl _, rfl⟩
  next hStays =>
    have hOne : ids.length = 1 := by
      have hPos := List.length_pos_iff.mpr hSome
      have hFew : ¬1 < ids.length := fun hMany => hStays ⟨hConcerns.1, hMany⟩
      omega
    rw [hOne, Nat.mod_one, Nat.mod_one]
    exact ⟨Nat.le_succ _, rfl⟩

/-- No other choice moves it, if for the model itself there is no other that is one. -/
theorem counter_ask_of_not_concerns (cursors : Cursors)
    (hOther : query.model = model → query.eligible.Perm ids ∨ query.eligible.length ≤ 1)
    (hConcerns : ¬query.Concerns model ids) :
    (query.ask cursors).2.counter model = cursors.counter model := by
  rw [query.counter_ask, if_neg]
  rintro ⟨hModel, hMany⟩
  rcases hOther hModel with hSame | hFew
  · exact hConcerns ⟨hModel, hSame⟩
  · exact Nat.not_lt.mpr hFew hMany

/-- While the counter does not start again, the choices go round the deployments. -/
theorem picks_eq_laps (queries : List Query) (hSome : ids ≠ []) {cursors : Cursors}
    (hOthers : ∀ query ∈ queries, query.model = model →
      query.eligible.Perm ids ∨ query.eligible.length ≤ 1)
    (hFew : cursors.counter model + queries.length ≤ Counter.top64) :
    picks model ids cursors queries =
      Rotation.laps (ordered ids) (cursors.counter model)
        (queries.countP fun query => query.Concerns model ids) := by
  induction queries generalizing cursors with
  | nil => rfl
  | cons query rest ih =>
      obtain ⟨hFirst, hRest⟩ := List.forall_mem_cons.mp hOthers
      rw [List.length_cons] at hFew
      rw [picks_cons]
      by_cases hConcerns : query.Concerns model ids
      · -- With a single deployment the counter stays, but then every place is the same.
        obtain ⟨hMoved, hNext⟩ := counter_ask_of_concerns cursors hSome hConcerns
          (by omega)
        rw [← length_ordered] at hNext
        rw [if_pos hConcerns, List.countP_cons_of_pos (by simpa using hConcerns), Rotation.laps,
          query.id?_ask, eligible_eq_ordered hConcerns, hConcerns.1, ih hRest (by omega),
          Rotation.laps_congr hNext]
      · have hStays := counter_ask_of_not_concerns cursors hFirst hConcerns
        rw [if_neg hConcerns, List.countP_cons_of_neg (by simpa using hConcerns), List.nil_append,
          ih hRest (by omega), hStays]

/-- Choices of the rotation for a model, each one made among the same deployments unless it is
made among at most one, with choices for other models anywhere between them, and with any choices
before. Each of the deployments is chosen equally often, up to one, any successive choices as many
as there are deployments meet all of them, and the choices are what they would be without those
made among others. -/
theorem rotation_fair (earlier queries : List Query) (model : String) (ids : List String)
    (hSome : ids ≠ []) (hDistinct : ids.Nodup)
    (hOthers : ∀ query ∈ queries, query.model = model →
      query.eligible.Perm ids ∨ query.eligible.length ≤ 1)
    (hFew : earlier.length + queries.length ≤ Counter.top64) :
    let rounds := queries.countP fun query => query.Concerns model ids
    let picked := picks model ids (cursorsAfter {} earlier) queries
    picked.length = rounds ∧
      (∀ id ∈ ids, picked.count id = rounds / ids.length ∨
        picked.count id = (rounds + ids.length - 1) / ids.length) ∧
      (∀ skipped, skipped + ids.length ≤ rounds →
        ((picked.drop skipped).take ids.length).Perm ids) ∧
      picked = picks model ids (cursorsAfter {} earlier)
        (queries.filter fun query => query.Concerns model ids) := by
  have hStart := counter_cursorsAfter_le {} earlier model
  have hReached : (cursorsAfter {} earlier).counter model + queries.length ≤ Counter.top64 := by
    have hZero : ({} : Cursors).counter model = 0 := rfl
    omega
  have hOrdered : ordered ids ≠ [] := fun hNil =>
    hSome (List.Perm.nil_eq (hNil ▸ perm_ordered ids)).symm
  have hLength := length_ordered ids
  intro rounds picked
  have hPicked : picked = Rotation.laps (ordered ids)
      ((cursorsAfter {} earlier).counter model) rounds :=
    picks_eq_laps queries hSome hOthers hReached
  refine ⟨?_, fun id hId => ?_, fun skipped hFits => ?_, ?_⟩
  · rw [hPicked, Rotation.length_laps hOrdered]
  · have hCount := Rotation.count_laps ((perm_ordered ids).nodup_iff.mpr hDistinct)
      ((perm_ordered ids).mem_iff.mpr hId) ((cursorsAfter {} earlier).counter model) rounds
    rwa [← hPicked, hLength] at hCount
  · rw [← hLength] at hFits ⊢
    rw [hPicked]
    exact (Rotation.perm_of_laps hOrdered hFits).trans (perm_ordered ids)
  · have hKept := picks_eq_laps (queries.filter fun query => query.Concerns model ids) hSome
      (fun query hQuery => hOthers query (List.mem_of_mem_filter hQuery))
      (Nat.le_trans (Nat.add_le_add_left (List.length_filter_le _ _) _) hReached)
    rw [hPicked, hKept, List.countP_filter]
    simp only [Bool.and_self]
    rfl

def freeCandidate (id : String) : Candidate where
  deployment := { id, modelNames := ["m"], provider := .openai, model := "m" }
  health := {}
  load := {}
  admissible := true

def among (model : String) (ids : List String) : Query where
  model
  now := 0
  random := { words := [] }
  tiers := [ids.map freeCandidate]

/-- Four choices among three deployments, and between them one for another model and one without
any choice. -/
def interruptedQueries : List Query :=
  [among "m" ["d1", "d2", "d3"], among "n" ["d1", "d2"], among "m" ["d3", "d2", "d1"],
    among "m" ["d3"], among "m" ["d2", "d3", "d1"], among "m" ["d1", "d2", "d3"]]

/-- After one choice among two deployments, they begin with the second and return to it last. -/
theorem rotation_fair_interrupted :
    let picked := picks "m" ["d1", "d2", "d3"] (cursorsAfter {} [among "m" ["d1", "d2"]])
      interruptedQueries
    picked = ["d2", "d3", "d1", "d2"] ∧ picked.length = 4 ∧
      (∀ id ∈ ["d1", "d2", "d3"], picked.count id = 1 ∨ picked.count id = 2) ∧
      (picked.take 3).Perm ["d1", "d2", "d3"] ∧
      ((picked.drop 1).take 3).Perm ["d1", "d2", "d3"] := by
  obtain ⟨hLength, hCount, hLap, -⟩ := rotation_fair [among "m" ["d1", "d2"]] interruptedQueries "m"
    ["d1", "d2", "d3"] (by decide) (by decide) (by decide +kernel) (by decide)
  exact ⟨by decide +kernel, hLength, hCount, hLap 0 (by decide +kernel), hLap 1 (by decide +kernel)⟩

end Selection

end DeploymentRouting
