import DeploymentRouting.Decimal.Style
/-!
What can be wrong with a deployment record or with the router's settings. Such a
fault is found when a record is registered or a configuration is checked, and
never while a request is on its way.
-/
namespace DeploymentRouting

/-- A limit of a deployment or a caller, by the name it has in a configuration. -/
inductive LimitName where
  | rpm
  | tpm
  | maxParallelRequests
deriving DecidableEq, Repr

def LimitName.text : LimitName → String
  | .rpm => "rpm"
  | .tpm => "tpm"
  | .maxParallelRequests => "max_parallel_requests"

inductive SetupError where
  | emptyId
  | noModelNames (id : String)
  | invalidWeight (id : String) (weight : Float)
  | negativeLimit (owner : String) (limit : LimitName) (value : Int)
  | invalidSetting (setting reason : String)

def SetupError.message : SetupError → String
  | .emptyId => "deployment id must not be empty"
  | .noModelNames id => "deployment " ++ id ++ " serves no model names"
  | .invalidWeight id weight =>
      "deployment " ++ id ++ " has invalid weight " ++ Decimal.message.write weight
        ++ ": must be positive and finite"
  | .negativeLimit owner limit value =>
      "deployment " ++ owner ++ " has negative " ++ limit.text ++ " limit: " ++ toString value
  | .invalidSetting setting reason => "invalid router setting " ++ setting ++ ": " ++ reason

end DeploymentRouting
