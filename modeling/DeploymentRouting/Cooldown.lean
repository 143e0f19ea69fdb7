import DeploymentRouting.Time
/-!
How long a deployment rests after consecutive failures. The first failures are
free. After them the rest doubles with every further failure, up to a greatest
exponent and a longest rest.
-/
namespace DeploymentRouting

structure CooldownPolicy where
  /-- The rest after the first failure that is not free. -/
  base : Duration
  longest : Duration
  /-- How often the rest is doubled at most. -/
  maxExponent : Nat
  /-- Consecutive failures without a rest. -/
  allowedFailures : Nat
deriving DecidableEq, Repr

namespace CooldownPolicy

def standard : CooldownPolicy where
  base := Duration.ofSeconds 5
  longest := Duration.ofSeconds 300
  maxExponent := 6
  allowedFailures := 2

/-- Two to the power of an exponent, as far as it fits into 32 bits. -/
def doubling (exponent : Nat) : Nat :=
  if exponent ≤ 31 then Nat.pow 2 exponent else Counter.top32

/-- The rest after a number of consecutive failures, if it calls for one. -/
def backoff (policy : CooldownPolicy) (failures : Nat) : Option Duration :=
  if failures ≤ policy.allowedFailures then none
  else
    let exponent := min (failures - policy.allowedFailures - 1) policy.maxExponent
    some (min (policy.base.scale (doubling exponent)) policy.longest)

end CooldownPolicy

end DeploymentRouting
