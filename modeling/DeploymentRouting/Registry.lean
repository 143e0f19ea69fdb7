import DeploymentRouting.Deployment
import DeploymentRouting.Sorting
import DeploymentRouting.Table
/-!
The registered deployments. Besides the records by id there is an index from each
logical model to the deployments that serve it, and a table of aliases. An alias
is followed for one step: the name it leads to is taken as it stands, even if it
is an alias itself.
-/
namespace DeploymentRouting

structure Registry where
  records : Table Deployment := ∅
  /-- Ids of the deployments that serve a model. A model without any has no entry. -/
  index : Table (List String) := ∅
  aliases : Table String := ∅

namespace Registry

/-- The logical model that a name stands for. -/
def resolve (registry : Registry) (name : String) : String :=
  (registry.aliases.get? name).getD name

def addAlias (registry : Registry) (name target : String) : Registry :=
  { registry with aliases := registry.aliases.insert name target }

/-- Takes over a table of aliases: those that it does not have go, and those that it has lead
where it says. -/
def replaceAliases (registry : Registry) (aliases : Table String) : Registry :=
  let kept := registry.aliases.filter fun name _ => aliases.contains name
  aliases.entries.foldl (fun registry entry => registry.addAlias entry.1 entry.2)
    { registry with aliases := kept }

/-- Takes an id out of the index entry of a model, and the entry with its last id. -/
def unindex (id : String) (index : Table (List String)) (model : String) : Table (List String) :=
  match index.get? model with
  | none => index
  | some ids =>
      let rest := ids.filter (· != id)
      if rest.isEmpty then index.erase model else index.insert model rest

/-- Puts an id into the index entry of a model, unless it is there. -/
def enter (id : String) (index : Table (List String)) (model : String) : Table (List String) :=
  let ids := (index.get? model).getD []
  if ids.contains id then index else index.insert model (ids ++ [id])

/-- Adds a record or puts it in the place of the one with its id, which is told. A record
with a fault is refused. -/
def register (registry : Registry) (deployment : Deployment) :
    Except SetupError (Registry × Option Deployment) :=
  match deployment.fault? with
  | some fault => .error fault
  | none =>
      let previous := registry.records.get? deployment.id
      let gone := (previous.map (·.modelNames)).getD [] |>.filter (!deployment.serves ·)
      let index := gone.foldl (unindex deployment.id) registry.index
      .ok ({ registry with
          records := registry.records.insert deployment.id deployment
          index := deployment.modelNames.foldl (enter deployment.id) index }, previous)

/-- Takes a record out, which is told if there was one. -/
def deregister (registry : Registry) (id : String) : Registry × Option Deployment :=
  match registry.records.get? id with
  | none => (registry, none)
  | some record =>
      ({ registry with
          records := registry.records.erase id
          index := record.modelNames.foldl (unindex id) registry.index }, some record)

def get? (registry : Registry) (id : String) : Option Deployment := registry.records.get? id

def contains (registry : Registry) (id : String) : Bool := registry.records.contains id

def size (registry : Registry) : Nat := registry.records.size

def isEmpty (registry : Registry) : Bool := registry.records.isEmpty

/-- The ids of all deployments in order. -/
def deployments (registry : Registry) : List String := registry.records.keys

/-- The logical models that have a deployment, in order. -/
def models (registry : Registry) : List String :=
  (registry.index.filter fun _ ids => !ids.isEmpty).keys

/-- Groups deployments by tier, from the lowest on, each tier in the order of ids. -/
def tiers (deployments : List Deployment) : List (List Deployment) :=
  let numbers := Sorting.sortBy (fun a b => decide (a ≤ b)) (deployments.map (·.tier)).eraseDups
  numbers.map fun number =>
    Sorting.sortBy (fun a b => decide (a.id ≤ b.id)) (deployments.filter (·.tier == number))

/-- The deployments that serve the model a name stands for, by tier. A record has the last
word on whether it serves the model. -/
def candidates (registry : Registry) (name : String) : List (List Deployment) :=
  let model := registry.resolve name
  let ids := (registry.index.get? model).getD []
  tiers (ids.filterMap fun id => (registry.records.get? id).filter (·.serves model))

end Registry

end DeploymentRouting
