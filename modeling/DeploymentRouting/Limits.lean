import DeploymentRouting.Time
/-!
Limits on the calls of one key and the reading they are compared with. A limit
that is absent allows everything. Limits are compared in a fixed order, and the
first one that is reached names the refusal.
-/
namespace DeploymentRouting

/-- Limits of one key: requests and tokens in one window, and calls at one time. -/
structure Limits where
  requests : Option Nat := none
  tokens : Option Nat := none
  parallel : Option Nat := none
deriving DecidableEq, Repr, Inhabited

/-- Which limit was reached. -/
inductive Refusal where
  | concurrency
  | requestsPerWindow
  | tokensPerWindow
deriving DecidableEq, Repr

def Refusal.message : Refusal → String
  | .concurrency => "concurrency limit reached"
  | .requestsPerWindow => "requests-per-window limit reached"
  | .tokensPerWindow => "tokens-per-window limit reached"

/-- What is counted for one key at one instant: calls in flight, and the requests and
tokens of the current window. -/
structure Load where
  inFlight : Nat := 0
  requests : Nat := 0
  tokens : Nat := 0
deriving DecidableEq, Repr, Inhabited

/-- A whole number of 64 bits as a floating-point number. -/
def floatOfCount (count : Nat) : Float := count.toUInt64.toFloat

namespace Limits

def isUnlimited (limits : Limits) : Bool :=
  limits.requests.isNone && limits.tokens.isNone && limits.parallel.isNone

/-- Tokens have reached their limit when none are left or when the cost of one more call
does not fit. -/
def tokensReached (most tokens cost : Nat) : Bool :=
  most ≤ tokens || most < Counter.add64 tokens cost

/-- The first limit that one more call of the given cost would meet. -/
def refusal? (limits : Limits) (load : Load) (cost : Nat) : Option Refusal :=
  if limits.parallel.any (· ≤ load.inFlight) then some .concurrency
  else if limits.requests.any (· ≤ load.requests) then some .requestsPerWindow
  else if limits.tokens.any (tokensReached · load.tokens cost) then some .tokensPerWindow
  else none

def allows (limits : Limits) (load : Load) (cost : Nat) : Bool :=
  (limits.refusal? load cost).isNone

/-- The part of the token limit that is used. Without a limit, and under a limit of zero,
it is zero. -/
def tokenShare (limits : Limits) (load : Load) : Float :=
  match limits.tokens with
  | some most => if 0 < most then floatOfCount load.tokens / floatOfCount most else 0.0
  | none => 0.0

theorem refusal?_eq_none_of_isUnlimited {limits : Limits} (h : limits.isUnlimited = true)
    (load : Load) (cost : Nat) : limits.refusal? load cost = none := by
  obtain ⟨requests, tokens, parallel⟩ := limits
  cases requests <;> cases tokens <;> cases parallel <;> simp_all [isUnlimited, refusal?]

end Limits

end DeploymentRouting
