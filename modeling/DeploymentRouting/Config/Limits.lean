import DeploymentRouting.Document.Decode
import DeploymentRouting.SetupError
/-!
Limits as they stand in a configuration. They are read with a sign, so that a
negative one is told as what it is and not as a number of the wrong form.
-/
namespace DeploymentRouting

structure ConfiguredLimits where
  rpm : Option Int := none
  tpm : Option Int := none
  maxParallelRequests : Option Int := none
deriving DecidableEq, Repr, Inhabited

namespace ConfiguredLimits

/-- A limit that is not negative. -/
def checked (owner : String) (limit : LimitName) : Option Int → Except SetupError (Option Nat)
  | none => .ok none
  | some value =>
      if value < 0 then .error (.negativeLimit owner limit value) else .ok (some value.toNat)

/-- The limits of a deployment or a caller. Of the calls at one time no more are counted than
fit into 32 bits. -/
def limits (configured : ConfiguredLimits) (owner : String) : Except SetupError Limits := do
  let requests ← checked owner .rpm configured.rpm
  let tokens ← checked owner .tpm configured.tpm
  let parallel ← checked owner .maxParallelRequests configured.maxParallelRequests
  return { requests, tokens, parallel := parallel.map (min · Counter.top32) }

def fieldNames : List String := ["rpm", "tpm", "max_parallel_requests"]

def ofFields? (fields : Document.Fields) : Option ConfiguredLimits := do
  let rpm ← fields.optional "rpm" Document.integer?
  let tpm ← fields.optional "tpm" Document.integer?
  let maxParallelRequests ← fields.optional "max_parallel_requests" Document.integer?
  return { rpm, tpm, maxParallelRequests }

def ofDocument? (dialect : Dialect) (document : Document) : Option ConfiguredLimits :=
  (document.fields? dialect fieldNames).bind ofFields?

/-- The limits that are there. -/
def members (configured : ConfiguredLimits) : List (String × Document) :=
  [("rpm", configured.rpm), ("tpm", configured.tpm),
    ("max_parallel_requests", configured.maxParallelRequests)].filterMap fun limit =>
      limit.2.map fun value => (limit.1, .ofInt value)

def toDocument (configured : ConfiguredLimits) : Document := .ofMembers configured.members

end ConfiguredLimits

end DeploymentRouting
