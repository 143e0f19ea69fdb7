import DeploymentRouting.Proofs.Selection.Eligible
import DeploymentRouting.Proofs.Sorting
/-!
What a choice depends on. A strategy gets to see the live candidates of one tier alone, and gets
them in the order of their ids. So neither their order in the tier nor what is not live in it
matters to the choice, to the rotation or to chance, and neither do the tiers around it.
-/
namespace DeploymentRouting

namespace Selection

variable {now : Instant} {tier other : List Candidate} {tiers others : List (List Candidate)}

/-- The first tier in which a candidate is live. -/
inductive FirstLive (now : Instant) : List (List Candidate) → List Candidate → Prop where
  | here {tier : List Candidate} {tiers : List (List Candidate)}
      (hLive : ∃ candidate ∈ tier, candidate.isLive now = true) : FirstLive now (tier :: tiers) tier
  | later {dead tier : List Candidate} {tiers : List (List Candidate)}
      (hDead : ∀ candidate ∈ dead, candidate.isLive now = false)
      (rest : FirstLive now tiers tier) : FirstLive now (dead :: tiers) tier

theorem FirstLive.mem (h : FirstLive now tiers tier) : tier ∈ tiers := by
  induction h with
  | here hLive => exact List.mem_cons_self
  | later hDead rest ih => exact List.mem_cons_of_mem _ ih

theorem FirstLive.live_ne_nil (h : FirstLive now tiers tier) : live now tier ≠ [] := by
  induction h with
  | here hLive =>
      obtain ⟨candidate, hMem, hIsLive⟩ := hLive
      exact List.ne_nil_of_mem ((Sorting.mem_sortBy _).mpr (List.mem_filter.mpr ⟨hMem, hIsLive⟩))
  | later hDead rest ih => exact ih

/-- Without such a tier nothing is live in any. -/
theorem live_eq_nil_of_not_firstLive (h : ∀ tier, ¬FirstLive now tiers tier) :
    ∀ tier ∈ tiers, live now tier = [] := by
  induction tiers with
  | nil => exact nofun
  | cons first tiers ih =>
      have hDead : ∀ candidate ∈ first, candidate.isLive now = false := fun candidate hMem =>
        Bool.eq_false_iff.mpr fun hLive => h first (.here ⟨candidate, hMem, hLive⟩)
      have hRest := ih fun tier hFirst => h tier (.later hDead hFirst)
      exact List.forall_mem_cons.mpr ⟨live_eq_nil_iff.mpr hDead, hRest⟩

/-- Candidates of distinct ids stand in one order only, once they are sorted. -/
theorem live_eq_of_same (hTier : (tier.map Candidate.id).Nodup)
    (hOther : (other.map Candidate.id).Nodup)
    (hSame : ∀ candidate : Candidate, candidate.isLive now = true →
      (candidate ∈ tier ↔ candidate ∈ other)) :
    live now tier = live now other := by
  have hPerm : (tier.filter (·.isLive now)).Perm (other.filter (·.isLive now)) := by
    refine (List.perm_ext_iff_of_nodup (hTier.of_map.filter _) (hOther.of_map.filter _)).mpr ?_
    intro candidate
    rw [List.mem_filter, List.mem_filter]
    exact and_congr_left fun hLive => hSame candidate hLive
  exact Sorting.sortBy_key_eq_of_perm Candidate.id (hTier.sublist (List.filter_sublist.map _)) hPerm

section Choice

variable (strategy : Strategy) (model : String) (cursors : Cursors) (random : RandomSource)

/-- The tiers around the first live one might as well not be there. -/
theorem select_of_firstLive (h : FirstLive now tiers tier) :
    select strategy model now cursors random tiers =
      select strategy model now cursors random [tier] := by
  induction h with
  | @here tier tiers hLive =>
      have hFirst : FirstLive now (tier :: tiers) tier := .here hLive
      have hSome := hFirst.live_ne_nil
      unfold select
      split
      next hNone => exact absurd hNone hSome
      next => rfl
  | @later dead tier tiers hDead rest ih =>
      rw [select, live_eq_nil_iff.mpr hDead]
      exact ih

theorem select_congr_live (h : live now tier = live now other) :
    select strategy model now cursors random [tier] =
      select strategy model now cursors random [other] := by
  simp only [select, h]

theorem select_of_no_live (h : ∀ tier ∈ tiers, live now tier = []) :
    select strategy model now cursors random tiers = (.noneEligible, cursors, random) := by
  induction tiers with
  | nil => rfl
  | cons tier tiers ih =>
      obtain ⟨hNone, hRest⟩ := List.forall_mem_cons.mp h
      rw [select, hNone]
      exact ih hRest

/-- Whatever the strategy, the live candidates of the first tier that has any determine the
deployment that is chosen, how the rotation moves on, and which random words are drawn. It does
not matter in which order they come, what else stands in their tier, which tiers without live
candidates come before it, and which tiers come after it. Where no tier has a live candidate
nothing is chosen, the rotation stays, and no word is drawn. -/
theorem select_determined (hTiers : ∀ tier ∈ tiers, (tier.map Candidate.id).Nodup)
    (hOthers : ∀ other ∈ others, (other.map Candidate.id).Nodup) :
    (∀ tier other, FirstLive now tiers tier → FirstLive now others other →
        (∀ candidate : Candidate, candidate.isLive now = true →
          (candidate ∈ tier ↔ candidate ∈ other)) →
        select strategy model now cursors random tiers =
          select strategy model now cursors random others) ∧
      ((∀ tier, ¬FirstLive now tiers tier) → (∀ other, ¬FirstLive now others other) →
        select strategy model now cursors random tiers = (.noneEligible, cursors, random) ∧
          select strategy model now cursors random others = (.noneEligible, cursors, random)) := by
  refine ⟨fun tier other hFirst hOther hSame => ?_, fun hNone hNoOther => ⟨?_, ?_⟩⟩
  · have hLive : live now tier = live now other :=
      live_eq_of_same (hTiers tier hFirst.mem) (hOthers other hOther.mem) hSame
    calc select strategy model now cursors random tiers
        = select strategy model now cursors random [tier] :=
          select_of_firstLive strategy model cursors random hFirst
      _ = select strategy model now cursors random [other] :=
          select_congr_live strategy model cursors random hLive
      _ = select strategy model now cursors random others :=
          (select_of_firstLive strategy model cursors random hOther).symm
  · exact select_of_no_live strategy model cursors random (live_eq_nil_of_not_firstLive hNone)
  · exact select_of_no_live strategy model cursors random (live_eq_nil_of_not_firstLive hNoOther)

end Choice

def idleCandidate (id : String) (weight : Float) : Candidate where
  deployment := Router.tieredDeployment id 0 weight
  health := {}
  load := {}
  admissible := true

/-- A candidate in a cooldown that ends at instant 100. -/
def restingCandidate (id : String) : Candidate :=
  { idleCandidate id 4.0 with health := { cooldownUntil := some 100 } }

def mixedTier : List Candidate :=
  [idleCandidate "d3" 0.5, restingCandidate "d1", idleCandidate "d2" 2.5]

def plainTier : List Candidate := [idleCandidate "d2" 2.5, idleCandidate "d3" 0.5]

/-- A draw by weights is the same whether the two that can be drawn stand after a tier at rest and
around a deployment at rest, or before a tier that is not reached, in the other order. -/
theorem select_determined_mixed :
    select .simpleShuffle "m" 50 {} { words := [0x4000000000000000] }
        [[restingCandidate "d0"], mixedTier] =
      select .simpleShuffle "m" 50 {} { words := [0x4000000000000000] }
        [plainTier, [idleCandidate "d4" 8.0]] ∧
    (select .simpleShuffle "m" 50 {} { words := [0x4000000000000000] }
        [plainTier, [idleCandidate "d4" 8.0]]).1 = .chosen (idleCandidate "d2" 2.5).deployment := by
  have hIds : ∀ tier ∈ [[restingCandidate "d0"], mixedTier], (tier.map Candidate.id).Nodup := by
    decide
  have hOtherIds : ∀ tier ∈ [plainTier, [idleCandidate "d4" 8.0]],
      (tier.map Candidate.id).Nodup := by
    decide
  refine ⟨?_, rfl⟩
  refine (select_determined .simpleShuffle "m" {} { words := [0x4000000000000000] } hIds
    hOtherIds).1 mixedTier plainTier ?_ ?_ fun candidate hLive => ?_
  · exact .later (fun candidate hMem => List.mem_singleton.mp hMem ▸ rfl)
      (.here ⟨_, List.mem_cons_self, rfl⟩)
  · exact .here ⟨_, List.mem_cons_self, rfl⟩
  · have hAwake : candidate ≠ restingCandidate "d1" := by
      rintro rfl
      cases hLive
    simp only [mixedTier, plainTier, List.mem_cons, List.not_mem_nil, hAwake, or_false, false_or]
    exact or_comm

end Selection

end DeploymentRouting
