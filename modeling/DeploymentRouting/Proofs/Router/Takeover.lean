import DeploymentRouting.Proofs.Router.Reachable
/-!
Taking over a configuration in a router that is running. The router is changed in place, piece
by piece, and an error could leave it anywhere between two configurations. It never does, since
every fault is found before the first change. When all goes well nothing is left of what the
router had before: it answers like a new one that has seen this configuration only.
-/
namespace DeploymentRouting

/-- What changes a router in place. When it fails, the router stays as it is by then. -/
abbrev InPlace (ε α : Type) := ExceptT ε (StateM Router) α

namespace InPlace

variable {ε ε' α β : Type}

/-- The answer to an action, and the router that it leaves. -/
def run (action : InPlace ε α) (router : Router) : Except ε α × Router :=
  (ExceptT.run action).run router

/-- An answer that does not come from the router. -/
def ofExcept (answer : Except ε α) : InPlace ε α := ExceptT.mk (pure answer)

/-- An action whose faults are told in other words. -/
def mapError (f : ε → ε') (action : InPlace ε α) : InPlace ε' α := ExceptT.adapt f action

/-- One action after another stops at the first fault and keeps what was done before it. -/
theorem run_bind (action : InPlace ε α) (next : α → InPlace ε β) (router : Router) :
    (action >>= next).run router =
      match action.run router with
      | (.ok value, after) => (next value).run after
      | (.error fault, after) => (.error fault, after) := by
  change StateT.run (ExceptT.run (action >>= next)) router = _
  rw [ExceptT.run_bind, StateT.run_bind]
  change (match (action.run router).1 with
    | .ok value => ExceptT.run (next value)
    | .error fault => pure (.error fault)).run (action.run router).2 = _
  generalize action.run router = result
  obtain ⟨answer, after⟩ := result
  cases answer <;> rfl

theorem run_bind_ok {action : InPlace ε α} {router after : Router} {value : α}
    (h : action.run router = (.ok value, after)) (next : α → InPlace ε β) :
    (action >>= next).run router = (next value).run after := by
  rw [run_bind, h]

theorem run_ofExcept (answer : Except ε α) (router : Router) :
    (ofExcept answer).run router = (answer, router) := rfl

theorem run_modify (f : Router → Router) (router : Router) :
    (modify f : InPlace ε Unit).run router = (.ok (), f router) := rfl

theorem run_get (router : Router) : (get : InPlace ε Router).run router = (.ok router, router) :=
  rfl

theorem run_mapError (f : ε → ε') (action : InPlace ε α) (router : Router) :
    (action.mapError f).run router =
      ((action.run router).1.mapError f, (action.run router).2) := rfl

/-- Changes that cannot fail, one after the other. -/
theorem run_forM_modify (f : α → Router → Router) (items : List α) (router : Router) :
    (items.forM fun item => (modify (f item) : InPlace ε Unit)).run router =
      (.ok (), items.foldl (fun router item => f item router) router) := by
  induction items generalizing router with
  | nil => rfl
  | cons item rest ih =>
      rw [List.forM, run_bind_ok (run_modify (f item) router)]
      exact ih (f item router)

end InPlace

namespace Router

/-- Refuses a record with a fault. -/
def checkInPlace (deployment : Deployment) : InPlace SetupError Unit :=
  match deployment.fault? with
  | some fault => InPlace.ofExcept (.error fault)
  | none => pure ()

def registerInPlace (deployment : Deployment) : InPlace SetupError Unit := do
  checkInPlace deployment
  modify fun router => router.put deployment

/-- Checks every record before the first one is registered, and removes what is stale. -/
def reloadInPlace (deployments : List Deployment) : InPlace SetupError Unit := do
  deployments.forM checkInPlace
  deployments.forM registerInPlace
  let router ← get
  (router.registry.stale deployments).forM fun id =>
    modify fun router => (router.deregister id).1

/-- Takes over a configuration piece by piece. -/
def applyInPlace (config : Config) : InPlace GatewayError Unit := do
  let parts ← InPlace.ofExcept (config.parts.mapError .deployment)
  (reloadInPlace parts.1).mapError GatewayError.deployment
  modify fun router => { router with fallbacks := ⟨config.fallbacks⟩ }
  modify fun router => { router with registry := router.registry.replaceAliases config.aliases }
  modify fun router => { router with callerLimits := ∅ }
  parts.2.entries.forM fun entry =>
    modify fun router => router.setCallerLimits entry.1 entry.2

variable {deployments : List Deployment}

/-- Deployments without a fault pass the check, which changes nothing. -/
theorem run_forM_check_of_sound (h : ∀ deployment ∈ deployments, deployment.fault? = none)
    (router : Router) : (deployments.forM checkInPlace).run router = (.ok (), router) := by
  induction deployments with
  | nil => rfl
  | cons deployment rest ih =>
      have hFirst : (checkInPlace deployment).run router = (.ok (), router) := by
        rw [checkInPlace, h deployment List.mem_cons_self]
        rfl
      rw [List.forM, InPlace.run_bind_ok hFirst]
      exact ih fun other hOther => h other (List.mem_cons_of_mem deployment hOther)

/-- They are registered one after the other. -/
theorem run_forM_register_of_sound (h : ∀ deployment ∈ deployments, deployment.fault? = none)
    (router : Router) :
    (deployments.forM registerInPlace).run router = (.ok (), deployments.foldl put router) := by
  induction deployments generalizing router with
  | nil => rfl
  | cons deployment rest ih =>
      have hFirst : (registerInPlace deployment).run router = (.ok (), router.put deployment) := by
        rw [registerInPlace, checkInPlace, h deployment List.mem_cons_self]
        rfl
      rw [List.forM, InPlace.run_bind_ok hFirst]
      exact ih (fun other hOther => h other (List.mem_cons_of_mem deployment hOther)) _

/-- So a reload of them ends well. -/
theorem run_reloadInPlace_of_sound (h : ∀ deployment ∈ deployments, deployment.fault? = none)
    (router : Router) :
    (reloadInPlace deployments).run router = (.ok (), router.replaceDeployments deployments) := by
  rw [reloadInPlace, InPlace.run_bind_ok (run_forM_check_of_sound h router),
    InPlace.run_bind_ok (run_forM_register_of_sound h router),
    InPlace.run_bind_ok (InPlace.run_get _)]
  exact InPlace.run_forM_modify (fun id router => (router.deregister id).1) _ _

theorem setCallerLimits_foldl (entries : List (String × Limits)) (router : Router) :
    entries.foldl (fun router entry => router.setCallerLimits entry.1 entry.2) router =
      { router with
        callerLimits := entries.foldl (fun table entry => table.insert entry.1 entry.2)
          router.callerLimits } := by
  induction entries generalizing router with
  | nil => rfl
  | cons entry rest ih => exact ih (router.setCallerLimits entry.1 entry.2)

/-- Piece by piece or all at once, the outcome is the same. Where there is a fault the router
is as it was. -/
theorem run_applyInPlace (config : Config) (router : Router) :
    (applyInPlace config).run router =
      match router.apply config with
      | .ok after => (.ok (), after)
      | .error fault => (.error fault, router) := by
  rw [apply_eq, applyInPlace, InPlace.run_bind, InPlace.run_ofExcept]
  cases hParts : config.parts with
  | error fault => rfl
  | ok parts =>
      obtain ⟨records, callerLimits⟩ := parts
      have hSound := Config.sound_of_records (Config.records_of_parts hParts).1
      have hReload : ((reloadInPlace records).mapError GatewayError.deployment).run router =
          (.ok (), router.replaceDeployments records) := by
        rw [InPlace.run_mapError, run_reloadInPlace_of_sound hSound]
        rfl
      simp only [Except.mapError]
      rw [InPlace.run_bind_ok hReload, InPlace.run_bind_ok (InPlace.run_modify _ _),
        InPlace.run_bind_ok (InPlace.run_modify _ _),
        InPlace.run_bind_ok (InPlace.run_modify _ _), InPlace.run_forM_modify,
        setCallerLimits_foldl, Registry.replaceAliases_eq]
      simp only
      rw [Table.foldl_insert_entries fun _ _ => rfl]
      rfl

/-- Two routers of the same deployments, models, aliases, fallbacks and limits of callers. -/
structure SameAnswers (router other : Router) : Prop where
  registry : router.registry.SameAnswers other.registry
  fallbacks : ∀ model, router.fallbacks.list model = other.fallbacks.list model
  callerLimits : ∀ caller, router.callerLimits.get? caller = other.callerLimits.get? caller

variable {router other : Router} {config : Config} {records : List Deployment}
  {callerLimits : Table Limits}

/-- After a takeover each id has its last record of the configuration, or none. -/
theorem get?_takeOver (router : Router) (config : Config) (records : List Deployment)
    (callerLimits : Table Limits) (id : String) :
    (router.takeOver config records callerLimits).registry.get? id =
      Registry.lastOf records id := by
  simp only [takeOver, registry_replaceDeployments, Registry.get?]
  exact router.registry.get?_replaceRecords records id

/-- What two routers take over makes them alike, whatever they were before. -/
theorem sameAnswers_takeOver (h : router.registry.Indexed) (hOther : other.registry.Indexed)
    (config : Config) (records : List Deployment) (callerLimits : Table Limits) :
    (router.takeOver config records callerLimits).SameAnswers
      (other.takeOver config records callerLimits) where
  registry := by
    apply (indexed_takeOver h config records callerLimits).sameAnswers
      (indexed_takeOver hOther config records callerLimits)
    · apply Table.ext_get?
      intro id
      exact (get?_takeOver router ..).trans (get?_takeOver other ..).symm
    · rfl
  fallbacks model := rfl
  callerLimits caller := rfl

/-- A takeover leaves the registry that would be built of the configuration alone. -/
theorem sameAnswers_registry (h : router.registry.Indexed) (config : Config)
    (records : List Deployment) (callerLimits : Table Limits) :
    (router.takeOver config records callerLimits).registry.SameAnswers
      { records.foldl Registry.put {} with aliases := config.aliases } := by
  apply (indexed_takeOver h config records callerLimits).sameAnswers
    ((Registry.indexed_empty.foldl_put records).withAliases config.aliases)
  · apply Table.ext_get?
    intro id
    refine (get?_takeOver router ..).trans ?_
    rw [Registry.get?_foldl_put]
    exact Option.or_none.symm
  · rfl

/-- A configuration with a fault changes nothing, on whatever router. Any other one leaves
nothing of what the router had before: it answers like any new router that takes the same
configuration over, and its registry like the one that is built of the configuration alone. Under
each id there is the last record of the configuration with that id. To take it over piece by piece
or all at once makes no difference. -/
theorem Reachable.applyInPlace_all_or_nothing {settings : Settings} (h : Reachable settings router)
    (config : Config) :
    match (applyInPlace config).run router with
    | (.error fault, after) =>
        router.apply config = .error fault ∧
          after = router ∧ ∀ other, (applyInPlace config).run (Router.new other) =
            (.error fault, Router.new other)
    | (.ok _, after) =>
        router.apply config = .ok after ∧
        (∀ other, ∃ fresh, (applyInPlace config).run (Router.new other) = (.ok (), fresh) ∧
          after.SameAnswers fresh) ∧
        (∃ built, config.registry = .ok built ∧ after.registry.SameAnswers built) ∧
        ∃ records, config.records = .ok records ∧
          ∀ id, after.registry.get? id = (records.filter (·.id == id)).getLast? := by
  cases hParts : config.parts with
  | error fault =>
      have hApply : ∀ router : Router, router.apply config = .error (.deployment fault) := by
        intro router
        rw [apply_eq, hParts]
      have hRun : ∀ router, (applyInPlace config).run router =
          (.error (.deployment fault), router) := by
        intro router
        rw [run_applyInPlace, hApply]
      rw [hRun router]
      exact ⟨hApply router, rfl, fun other => hRun (Router.new other)⟩
  | ok parts =>
      obtain ⟨records, callerLimits⟩ := parts
      have hApply : ∀ router : Router, router.apply config =
          .ok (router.takeOver config records callerLimits) := by
        intro router
        rw [apply_eq, hParts]
      have hRun : ∀ router, (applyInPlace config).run router =
          (.ok (), router.takeOver config records callerLimits) := by
        intro router
        rw [run_applyInPlace, hApply]
      have hRecords := (Config.records_of_parts hParts).1
      rw [hRun router]
      refine ⟨hApply router, fun other => ⟨_, hRun (Router.new other), ?_⟩,
        ⟨_, Config.registry_of_records hRecords, ?_⟩, records, hRecords, ?_⟩
      · exact sameAnswers_takeOver h.indexed Reachable.new.indexed config records callerLimits
      · exact sameAnswers_registry h.indexed config records callerLimits
      · exact get?_takeOver router config records callerLimits

/-- A configuration with an alias and the limits of a caller. -/
def renamedConfig : Config where
  aliases := Table.ofList [("latest", "m")]
  callerLimits := Table.ofList [("team", { rpm := some 60 })]

/-- The same with a deployment that has a negative limit. -/
def faultyConfig : Config :=
  { renamedConfig with
    deployments := [{ id := "d1", model := "m-1", limits := { rpm := some (-1) } }] }

/-- The old alias goes with the first configuration and stays with the second one. -/
theorem Reachable.applyInPlace_all_or_nothing_renamed :
    let router := (Router.new {}).addAlias "newest" "m"
    (∃ after fresh, (applyInPlace renamedConfig).run router = (.ok (), after) ∧
      router.apply renamedConfig = .ok after ∧
      (applyInPlace renamedConfig).run (Router.new {}) = (.ok (), fresh) ∧
      after.SameAnswers fresh ∧ after.registry.resolve "newest" = "newest" ∧
      after.registry.resolve "latest" = "m") ∧
    ∃ fault after, (applyInPlace faultyConfig).run router = (.error fault, after) ∧
      router.apply faultyConfig = .error fault ∧ after.registry.resolve "newest" = "m" := by
  intro router
  have hReachable : Reachable {} router := Reachable.new.operate (.addAlias "newest" "m")
  have hRenamed : (applyInPlace renamedConfig).run router =
      (.ok (), router.takeOver renamedConfig []
        (Table.ofList [("team", { requests := some 60 })])) := rfl
  have hFaulty : (applyInPlace faultyConfig).run router =
      (.error (.deployment (.negativeLimit "d1" .rpm (-1))), router) := rfl
  have hTaken := hReachable.applyInPlace_all_or_nothing renamedConfig
  rw [hRenamed] at hTaken
  have hKept := hReachable.applyInPlace_all_or_nothing faultyConfig
  rw [hFaulty] at hKept
  obtain ⟨hApplied, hSameAnswers, _⟩ := hTaken
  obtain ⟨hRefused, hSameRouter, _⟩ := hKept
  obtain ⟨fresh, hFresh, hSame⟩ := hSameAnswers {}
  exact ⟨⟨_, fresh, hRenamed, hApplied, hFresh, hSame, rfl, rfl⟩, _, _, hFaulty, hRefused,
    by rw [hSameRouter]; rfl⟩

end Router

end DeploymentRouting
