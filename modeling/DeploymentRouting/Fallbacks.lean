import DeploymentRouting.Table
/-!
Fallback models. Each model may have a list of other models to try, in order, once
its own deployments are used up.
-/
namespace DeploymentRouting

structure Fallbacks where
  lists : Table (List String) := ∅

namespace Fallbacks

def set (fallbacks : Fallbacks) (model : String) (list : List String) : Fallbacks :=
  ⟨fallbacks.lists.insert model list⟩

/-- The list of a model, which is empty if none is set. -/
def list (fallbacks : Fallbacks) (model : String) : List String :=
  (fallbacks.lists.get? model).getD []

@[simp] theorem list_set (fallbacks : Fallbacks) (model : String) (list : List String) :
    (fallbacks.set model list).list model = list := by
  simp [set, Fallbacks.list]

/-- Goes on with a chain until it has more than `depth` models. A model that is in it already
is passed over. -/
def extend (depth : Nat) (chain : List String) : List String → List String
  | [] => chain
  | model :: rest =>
      if depth < chain.length then chain
      else if chain.contains model then extend depth chain rest
      else extend depth (chain ++ [model]) rest

/-- A model and at most `depth` others to fall back on, all different. -/
def chain (fallbacks : Fallbacks) (model : String) (depth : Nat) : List String :=
  extend depth [model] (fallbacks.list model)

end Fallbacks

end DeploymentRouting
