import DeploymentRouting.Proofs.Dispatch.Journal
import DeploymentRouting.Proofs.Dispatch.Outcome
/-!
The order of the attempts for one model. The first pass ends with a look that finds nothing, and
only after it a deployment may come up again. What a request leaves out never comes up at all.
-/
namespace DeploymentRouting

universe u

namespace Look.Follows

variable {request : Request} {model : String} {earlier : List Look} {look : Look}
  {deployment : Deployment}

/-- What is found is never what the request leaves out. -/
theorem not_excluded (h : look.Follows request model earlier)
    (hFound : look.chosen? = some deployment) : deployment.id ∉ request.excluded :=
  fun hExcluded => (h.serves deployment hFound).kept ((h.excluded _).mpr (.inl hExcluded))

/-- As long as every look finds something, it finds something new. -/
theorem not_tried (h : look.Follows request model earlier)
    (hFound : look.chosen? = some deployment)
    (hEarlier : ∀ prior ∈ earlier, prior.chosen?.isSome = true) :
    deployment.id ∉ Look.tried earlier :=
  fun hTried => (h.serves deployment hFound).kept ((h.excluded _).mpr (.inr ⟨hEarlier, hTried⟩))

end Look.Follows

namespace Stay.Sound

variable {request : Request} {stay : Stay} {deployment : Deployment}

theorem not_excluded (h : stay.Sound request) (hMem : deployment ∈ stay.attempts) :
    deployment.id ∉ request.excluded := by
  obtain ⟨look, hLook, hFound⟩ := Look.mem_attempts.mp hMem
  obtain ⟨earlier, later, hLooks⟩ := List.append_of_mem hLook
  exact (h.looks earlier look later hLooks).not_excluded hFound

/-- The attempts of the first pass go to different deployments. -/
theorem nodup_firstPass (h : stay.Sound request) {first rest : List Look}
    (hLooks : stay.looks = first ++ rest)
    (hFirst : ∀ look ∈ first, look.chosen?.isSome = true) : (Look.tried first).Nodup := by
  induction first using List.reverseRecOn generalizing rest with
  | nil => exact List.nodup_nil
  | append_singleton earlier look ih =>
      obtain ⟨hEarlier, hLook⟩ := List.forall_mem_append.mp hFirst
      obtain ⟨deployment, hFound⟩ := Option.isSome_iff_exists.mp (hLook look List.mem_cons_self)
      have hSplit : stay.looks = earlier ++ look :: rest := by
        rw [hLooks, List.append_assoc]
        rfl
      have hNew := (h.looks earlier look rest hSplit).not_tried hFound hEarlier
      rw [Look.tried_found hFound]
      exact List.nodup_append.mpr ⟨ih hSplit hEarlier, List.nodup_singleton _,
        fun id hId other hOther hSame => hNew (List.mem_singleton.mp hOther ▸ hSame ▸ hId)⟩

/-- What comes up again does so after a look that left out all that had come up and found
nothing. -/
theorem missed_before_again (h : stay.Sound request) {earlier later : List Look} {look : Look}
    (hLooks : stay.looks = earlier ++ look :: later) (hFound : look.chosen? = some deployment)
    (hAgain : deployment.id ∈ Look.tried earlier) :
    ∃ first missed second, earlier = first ++ missed :: second ∧ missed.chosen? = none ∧
      (∀ id, id ∈ missed.excluded ↔ id ∈ request.excluded ∨ id ∈ Look.tried first) ∧
      missed.router.NoneServes stay.model missed.excluded request.estimate missed.now := by
  obtain hAll | ⟨first, missed, second, hEarlier, hFirst, hMissed⟩ :=
    Look.all_found_or_first_missed earlier
  · exact absurd hAgain ((h.looks earlier look later hLooks).not_tried hFound hAll)
  · have hSplit : stay.looks = first ++ missed :: (second ++ look :: later) := by
      rw [hLooks, hEarlier, List.append_assoc]
      rfl
    have hFollows := h.looks first missed _ hSplit
    refine ⟨first, missed, second, hEarlier, hMissed, fun id => ?_, hFollows.missed hMissed⟩
    rw [hFollows.excluded]
    exact or_congr_right (and_iff_right hFirst)

end Stay.Sound

/-- Whoever is not left out and cannot serve is in a cooldown or has no place to give. -/
theorem Router.NoneServes.resting_or_full {router : Router} {model : String}
    {excluded : List String} {cost : Nat} {now : Instant}
    (h : router.NoneServes model excluded cost now) {tier : List Deployment}
    (hTier : tier ∈ router.registry.candidates (router.registry.resolve model))
    {deployment : Deployment} (hMem : deployment ∈ tier) (hKept : deployment.id ∉ excluded) :
    router.isEligible deployment.id now = false ∨
      router.limiter.admits deployment.id deployment.limits cost now = false := by
  cases hEligible : router.isEligible deployment.id now with
  | false => exact .inl rfl
  | true =>
      refine .inr (Bool.eq_false_iff.mpr fun hAdmitted => ?_)
      exact h tier hTier deployment hMem ⟨hKept, hEligible, hAdmitted⟩

namespace Dispatch

variable {α : Type u} {settings : Settings} {request : Request} {journal : Journal}
  {dispatch : Dispatch α}

/-- No call goes to a deployment that the request leaves out, whatever the pass and the model.
For every model of the chain, a deployment is attempted again only after a look that left out
what the request leaves out and all that had been attempted for that model, and that found every
other candidate it went through in a cooldown or without a place. The candidates are those that
the choice looks at. It resolves the name of the model again, so for an alias they need not be the
deployments for which the request has entered the model. Until a look finds nothing all attempts
go to different deployments. -/
theorem Journey.repeats_only_after_miss (h : Journey settings request journal dispatch) :
    (∀ call, dispatch.phase = .calling call → call.deployment.id ∉ request.excluded) ∧
      ∀ stay ∈ journal.stays,
        (∀ deployment ∈ stay.calls, deployment ∈ stay.attempts) ∧
        (∀ deployment ∈ stay.attempts, deployment.id ∉ request.excluded) ∧
        (∀ earlier look later deployment, stay.looks = earlier ++ look :: later →
          look.chosen? = some deployment → deployment.id ∈ Look.tried earlier →
          ∃ first missed second, earlier = first ++ missed :: second ∧ missed.chosen? = none ∧
            (∀ id, id ∈ missed.excluded ↔ id ∈ request.excluded ∨ id ∈ Look.tried first) ∧
            ∀ tier ∈ missed.router.registry.candidates
                (missed.router.registry.resolve stay.model), ∀ candidate ∈ tier,
              candidate.id ∉ request.excluded → candidate.id ∉ Look.tried first →
              missed.router.isEligible candidate.id missed.now = false ∨
                missed.router.limiter.admits candidate.id candidate.limits request.estimate
                  missed.now = false) ∧
        ∀ first rest, stay.looks = first ++ rest →
          (∀ look ∈ first, look.chosen?.isSome = true) → (Look.tried first).Nodup := by
  have hAgrees := h.agrees
  constructor
  · intro call hCall
    have hFound : call.deployment ∈ Look.attempts journal.looks :=
      hAgrees.target call.deployment (by simp only [target?, hCall])
    obtain ⟨stay, hCurrent⟩ : ∃ stay, journal.current? = some stay :=
      hAgrees.within (by simp [hCall]) (by simp [hCall])
    rw [Journal.looks_of_current hCurrent] at hFound
    exact (hAgrees.stays stay (Journal.mem_stays.mpr (.inr hCurrent))).not_excluded hFound
  · intro stay hStay
    have hSound := hAgrees.stays stay hStay
    refine ⟨hSound.calls, fun deployment => hSound.not_excluded, ?_,
      fun first rest => hSound.nodup_firstPass⟩
    intro earlier look later deployment hLooks hFound hAgain
    obtain ⟨first, missed, second, hEarlier, hMissed, hExcluded, hNone⟩ :=
      hSound.missed_before_again hLooks hFound hAgain
    refine ⟨first, missed, second, hEarlier, hMissed, hExcluded, ?_⟩
    intro tier hTier candidate hMem hKept hUntried
    refine hNone.resting_or_full hTier hMem fun hLeftOut => ?_
    exact ((hExcluded candidate.id).mp hLeftOut).elim hKept hUntried

/-- A request that may not go to the second of two deployments. -/
def oneSidedRequest : Request := { Route.pairRequest with excluded := ["d2"] }

/-- The first deployment is busy. It comes up again, after a look that left out both of them. -/
theorem Journey.repeats_only_after_miss_busy :
    ∃ (journal : Journal) (dispatch : Dispatch Response) (stay : Stay),
      Journey pairRouter.settings oneSidedRequest journal dispatch ∧
        journal.current? = some stay ∧ stay.attempts.map Deployment.id = ["d1", "d1"] ∧
        (∀ deployment ∈ stay.attempts, deployment.id ∉ oneSidedRequest.excluded) ∧
        ∃ first missed second, stay.looks.take 2 = first ++ missed :: second ∧
          missed.chosen? = none ∧
          ∀ id, id ∈ missed.excluded ↔ id ∈ oneSidedRequest.excluded ∨ id ∈ Look.tried first := by
  have hBegin : Journey pairRouter.settings oneSidedRequest
      (Journal.begin pairRouter oneSidedRequest)
      (Dispatch.begin pairRouter oneSidedRequest 0 : Dispatch Response) :=
    Journey.begin pairRouter rfl 0
  have hCalled := hBegin.follow (Eq.refl pairRouter.settings) 1 {} 3
  have hBusy := hCalled.answer rfl pairRouter rfl 10 (.failure (.server 503 "busy"))
  have hAgain := hBusy.follow (Eq.refl pairRouter.settings) 11 {} 4
  obtain ⟨_, hStays⟩ := hAgain.repeats_only_after_miss
  obtain ⟨_, hKept, hRepeats, _⟩ := hStays _ (Journal.mem_stays.mpr (.inr rfl))
  obtain ⟨first, missed, second, hEarlier, hNothing, hExcluded, _⟩ :=
    hRepeats _ _ [] (pairDeployment "d1") rfl rfl (List.mem_cons_self)
  exact ⟨_, _, _, hAgain, rfl, rfl, hKept, first, missed, second, hEarlier, hNothing,
    hExcluded⟩

end Dispatch

end DeploymentRouting
