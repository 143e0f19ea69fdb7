import DeploymentRouting.Limits
/-!
When one more call is let in. The limits leave room for it or they do not, each on its own,
and a refusal names the first of them that does not.
-/
namespace DeploymentRouting

/-- The refusals that come before one when several limits are met. -/
def Refusal.earlier : Refusal → List Refusal
  | .concurrency => []
  | .requestsPerWindow => [.concurrency]
  | .tokensPerWindow => [.concurrency, .requestsPerWindow]

namespace Limits

variable {limits : Limits} {load : Load} {cost : Nat}

/-- Whether the limit that a refusal is about leaves room for a call of some cost. A limit
that is absent always does. -/
def HasRoom (limits : Limits) (load : Load) (cost : Nat) : Refusal → Prop
  | .concurrency => ∀ most, limits.parallel = some most → load.inFlight < most
  | .requestsPerWindow => ∀ most, limits.requests = some most → load.requests < most
  | .tokensPerWindow =>
      ∀ most, limits.tokens = some most → load.tokens < most ∧ load.tokens + cost ≤ most

instance (limits : Limits) (load : Load) (cost : Nat) :
    (refusal : Refusal) → Decidable (limits.HasRoom load cost refusal)
  | .concurrency =>
      inferInstanceAs (Decidable (∀ most ∈ limits.parallel, load.inFlight < most))
  | .requestsPerWindow =>
      inferInstanceAs (Decidable (∀ most ∈ limits.requests, load.requests < most))
  | .tokensPerWindow =>
      inferInstanceAs
        (Decidable (∀ most ∈ limits.tokens, load.tokens < most ∧ load.tokens + cost ≤ most))

theorem hasRoom_concurrency_iff :
    limits.HasRoom load cost .concurrency ↔
      limits.parallel.any (fun most => decide (most ≤ load.inFlight)) = false := by
  simp only [HasRoom]
  cases limits.parallel <;> simp

theorem hasRoom_requests_iff :
    limits.HasRoom load cost .requestsPerWindow ↔
      limits.requests.any (fun most => decide (most ≤ load.requests)) = false := by
  simp only [HasRoom]
  cases limits.requests <;> simp

theorem hasRoom_tokens_iff (hFits : load.tokens + cost ≤ Counter.top64) :
    limits.HasRoom load cost .tokensPerWindow ↔
      limits.tokens.any (fun most => tokensReached most load.tokens cost) = false := by
  simp only [HasRoom]
  cases limits.tokens <;> simp [tokensReached, Counter.add64_eq_add hFits]

/-- A call is let in exactly when every limit leaves room for it. -/
theorem refusal?_eq_none_iff (hFits : load.tokens + cost ≤ Counter.top64) :
    limits.refusal? load cost = none ↔ ∀ refusal, limits.HasRoom load cost refusal := by
  have hConcurrency := @hasRoom_concurrency_iff limits load cost
  have hRequests := @hasRoom_requests_iff limits load cost
  have hTokens := @hasRoom_tokens_iff limits load cost hFits
  unfold refusal?
  constructor
  · intro h refusal
    cases refusal <;> grind
  · intro h
    simp [hConcurrency.mp (h _), hRequests.mp (h _), hTokens.mp (h _)]

/-- A refusal is about the first limit that leaves no room. -/
theorem refusal?_eq_some_iff (hFits : load.tokens + cost ≤ Counter.top64) (refusal : Refusal) :
    limits.refusal? load cost = some refusal ↔
      (∀ earlier ∈ refusal.earlier, limits.HasRoom load cost earlier) ∧
        ¬limits.HasRoom load cost refusal := by
  have hConcurrency := @hasRoom_concurrency_iff limits load cost
  have hRequests := @hasRoom_requests_iff limits load cost
  have hTokens := @hasRoom_tokens_iff limits load cost hFits
  unfold refusal?
  cases refusal <;> grind [Refusal.earlier]

/-- A call that is let in finds fewer calls in flight than its limit of calls at one time. -/
theorem inFlight_lt_of_refusal?_eq_none {most : Nat} (h : limits.refusal? load cost = none)
    (hMost : limits.parallel = some most) : load.inFlight < most := by
  unfold refusal? at h
  split at h
  · cases h
  · simp_all

/-- A call that is let in finds fewer requests in its window than their limit. -/
theorem requests_lt_of_refusal?_eq_none {most : Nat} (h : limits.refusal? load cost = none)
    (hMost : limits.requests = some most) : load.requests < most := by
  unfold refusal? at h
  split at h
  · cases h
  · split at h
    · cases h
    · simp_all

end Limits

end DeploymentRouting
