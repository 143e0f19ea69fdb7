import DeploymentRouting.Router
/-!
Where a chosen deployment comes from. Whatever the strategy and whatever chance has it, the
choice is one of the live candidates of the first tier that has any.
-/
namespace DeploymentRouting

namespace Selection

theorem atPoint_mem (last : Candidate) (stretches : List (Candidate × Float)) (point : Float) :
    atPoint last stretches point ∈ last :: stretches.map Prod.fst := by
  induction stretches generalizing last point with
  | nil => exact List.mem_singleton_self last
  | cons stretch rest ih =>
      unfold atPoint
      split
      · exact List.mem_cons_of_mem last List.mem_cons_self
      · exact List.mem_cons_of_mem last (ih stretch.1 _)

theorem getD_mem (first : Candidate) (rest : List Candidate) (index : Nat) :
    (first :: rest).getD index first ∈ first :: rest := by
  rw [List.getD_eq_getElem?_getD]
  cases hFound : (first :: rest)[index]? with
  | none => exact List.mem_cons_self
  | some candidate => exact List.mem_of_getElem? hFound

theorem lowest_mem {β : Type} (below : β → β → Bool) (measure : Candidate → β)
    (best : Candidate) (rest : List Candidate) :
    lowest below measure best rest ∈ best :: rest := by
  induction rest generalizing best with
  | nil => exact List.mem_singleton_self best
  | cons candidate rest ih =>
      unfold lowest
      simp only
      split
      · exact List.mem_cons_of_mem best (ih candidate)
      · rcases List.mem_cons.mp (ih best) with hBest | hRest
        · rw [hBest]
          exact List.mem_cons_self
        · exact List.mem_cons_of_mem best (List.mem_cons_of_mem candidate hRest)

theorem weighted_mem {score : Candidate → Float} {first candidate : Candidate}
    {rest : List Candidate} {random : RandomSource}
    (h : (weighted score first rest random).1 = some candidate) :
    candidate ∈ first :: rest := by
  unfold weighted at h
  split at h
  next =>
    cases h
    exact List.mem_cons_self
  next =>
    simp only at h
    split at h
    next =>
      cases h
      exact getD_mem first rest _
    next =>
      split at h
      next =>
        cases h
        rcases List.mem_cons.mp (atPoint_mem first _ _) with hFirst | hStretch
        · rw [hFirst]
          exact List.mem_cons_self
        · obtain ⟨stretch, hStretch, hCandidate⟩ := List.mem_map.mp hStretch
          rw [← hCandidate]
          exact (List.of_mem_zip hStretch).1
      next => cases h

theorem choose_mem {strategy : Strategy} {model : String} {first candidate : Candidate}
    {rest : List Candidate} {cursors : Cursors} {random : RandomSource}
    {after : Cursors × RandomSource}
    (h : choose strategy model first rest cursors random = (some candidate, after)) :
    candidate ∈ first :: rest := by
  cases strategy with
  | simpleShuffle => exact weighted_mem (congrArg Prod.fst h)
  | leastBusy => exact weighted_mem (congrArg Prod.fst h)
  | roundRobin =>
      cases h
      exact getD_mem first rest _
  | latencyBased =>
      obtain ⟨mean, _, rfl⟩ := Option.map_eq_some_iff.mp (congrArg Prod.fst h)
      exact lowest_mem _ _ first rest
  | usageBased =>
      cases h
      exact lowest_mem _ _ first rest

/-- The tiers before the one that decides have no live candidate. -/
theorem select_chosen {strategy : Strategy} {model : String} {now : Instant} {cursors : Cursors}
    {random : RandomSource} {tiers : List (List Candidate)} {deployment : Deployment}
    (h : (select strategy model now cursors random tiers).1 = .chosen deployment) :
    ∃ earlier tier later, tiers = earlier ++ tier :: later ∧
      (∀ passed ∈ earlier, live now passed = []) ∧
      ∃ candidate ∈ live now tier, candidate.deployment = deployment := by
  induction tiers with
  | nil => cases h
  | cons tier tiers ih =>
      unfold select at h
      split at h
      next hNone =>
        obtain ⟨earlier, decisive, later, hTiers, hPassed, hChosen⟩ := ih h
        refine ⟨tier :: earlier, decisive, later, congrArg (tier :: ·) hTiers, ?_, hChosen⟩
        intro passed hMem
        rcases List.mem_cons.mp hMem with rfl | hEarlier
        · exact hNone
        · exact hPassed passed hEarlier
      next first rest hLive =>
        refine ⟨[], tier, tiers, rfl, nofun, ?_⟩
        split at h
        next candidate _ _ hChoice =>
          cases h
          exact ⟨candidate, hLive ▸ choose_mem hChoice, rfl⟩
        next => cases h

theorem mem_of_mem_live {now : Instant} {tier : List Candidate} {candidate : Candidate}
    (h : candidate ∈ live now tier) : candidate ∈ tier ∧ candidate.isLive now = true :=
  List.mem_filter.mp ((Sorting.mem_sortBy _).mp h)

end Selection

namespace Router

variable {router : Router} {model : String} {excluded : List String} {cost : Nat}
  {now : Instant} {random : RandomSource} {deployment : Deployment}

theorem mem_candidates {tier : List Candidate} {candidate : Candidate}
    (hTier : tier ∈ router.candidates model excluded cost now) (hCandidate : candidate ∈ tier) :
    ∃ registered ∈ router.registry.candidates model, candidate.deployment ∈ registered ∧
      candidate.id ∉ excluded ∧ candidate = router.candidate cost now candidate.deployment := by
  obtain ⟨registered, hRegistered, rfl⟩ := List.mem_map.mp (List.mem_filter.mp hTier).1
  obtain ⟨deployment, hDeployment, rfl⟩ := List.mem_map.mp hCandidate
  obtain ⟨hMem, hKept⟩ := List.mem_filter.mp hDeployment
  refine ⟨registered, hRegistered, hMem, ?_, rfl⟩
  change deployment.id ∉ excluded
  simpa using hKept

/-- A deployment that is chosen for a name is a live candidate for the model that the name
stands for. -/
theorem candidate_of_select_chosen
    (h : (router.select model excluded cost now random).1 = .chosen deployment) :
    ∃ tier ∈ router.candidates (router.registry.resolve model) excluded cost now,
      ∃ candidate ∈ tier, candidate.isLive now = true ∧ candidate.deployment = deployment := by
  have hChosen : (Selection.select router.settings.strategy (router.registry.resolve model) now
      router.cursors random
      (router.candidates (router.registry.resolve model) excluded cost now)).1 =
        .chosen deployment := h
  obtain ⟨earlier, tier, later, hTiers, _, candidate, hLive, hDeployment⟩ :=
    Selection.select_chosen hChosen
  obtain ⟨hMem, hIsLive⟩ := Selection.mem_of_mem_live hLive
  refine ⟨tier, ?_, candidate, hMem, hIsLive, hDeployment⟩
  rw [hTiers]
  exact List.mem_append_right earlier List.mem_cons_self

/-- It is registered for that model, and the name is looked up twice on the way there. -/
theorem select_chosen
    (h : (router.select model excluded cost now random).1 = .chosen deployment) :
    ∃ tier ∈ router.registry.candidates (router.registry.resolve model), deployment ∈ tier := by
  obtain ⟨tier, hTier, candidate, hCandidate, _, rfl⟩ := candidate_of_select_chosen h
  obtain ⟨registered, hRegistered, hMem, _⟩ := mem_candidates hTier hCandidate
  exact ⟨registered, hRegistered, hMem⟩

/-- It would get a place at the instant of the choice. -/
theorem admits_of_select_chosen
    (h : (router.select model excluded cost now random).1 = .chosen deployment) :
    router.limiter.admits deployment.id deployment.limits cost now = true := by
  obtain ⟨tier, hTier, candidate, hCandidate, hLive, rfl⟩ := candidate_of_select_chosen h
  obtain ⟨_, _, _, _, hView⟩ := mem_candidates hTier hCandidate
  have hAdmissible : candidate.admissible = true := ((Bool.and_eq_true _ _).mp hLive).2
  rw [hView] at hAdmissible
  exact hAdmissible

end Router

end DeploymentRouting
