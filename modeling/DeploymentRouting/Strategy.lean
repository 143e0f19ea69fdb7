import DeploymentRouting.Text.Blank
/-!
The strategies by which one of several candidates is chosen.
-/
namespace DeploymentRouting

inductive Strategy where
  /-- At random, by weight. -/
  | simpleShuffle
  /-- At random, by weight divided by the calls in flight and one. -/
  | leastBusy
  /-- One after the other. -/
  | roundRobin
  /-- The one with the lowest average latency. -/
  | latencyBased
  /-- The one that has used the least part of its token limit. -/
  | usageBased
deriving DecidableEq, Repr, Inhabited

namespace Strategy

def all : List Strategy := [simpleShuffle, leastBusy, roundRobin, latencyBased, usageBased]

def name : Strategy → String
  | simpleShuffle => "simple_shuffle"
  | leastBusy => "least_busy"
  | roundRobin => "round_robin"
  | latencyBased => "latency_based"
  | usageBased => "usage_based"

/-- The strategy that has exactly this name. -/
def ofName? (text : String) : Option Strategy := all.find? fun strategy => strategy.name == text

theorem ofName?_name (strategy : Strategy) : ofName? strategy.name = some strategy := by
  cases strategy <;> rfl

/-- A text without the white space around it, in lower case, with underscores for hyphens. -/
def normalize (text : String) : String :=
  (Text.lowerAscii (Text.trim text)).map fun c => if c == '-' then '_' else c

/-- Reads a strategy as users write it: blanks around it, capitals and hyphens do not matter, and
the weighted choice has two more names. An unknown text is told as it was understood. -/
def parse (text : String) : Except String Strategy :=
  let name := normalize text
  if name = "weighted_random" ∨ name = "shuffle" then .ok simpleShuffle
  else match ofName? name with
    | some strategy => .ok strategy
    | none => .error ("unknown routing strategy: " ++ name)

end Strategy

end DeploymentRouting
