import DeploymentRouting.Config.File
import DeploymentRouting.Proofs.Document.Carries
/-!
Configurations that are written and read again. Members whose values are absent or empty are left
out, the limits of a deployment stand among its other members, and names stand for strategies and
providers. Each of these has its counterpart on the side of the reader.
-/
namespace DeploymentRouting

open Document

/-- Every number fits into the type that it is read as. -/
structure Settings.Representable (settings : Settings) : Prop where
  maxAttempts : settings.maxAttempts ≤ Counter.top32
  allowedFails : settings.allowedFails ≤ Counter.top32
  cooldownBaseMs : settings.cooldownBaseMs ≤ Counter.top64
  cooldownMaxMs : settings.cooldownMaxMs ≤ Counter.top64
  cooldownMaxExponent : settings.cooldownMaxExponent ≤ Counter.top32
  rateLimitWindowSecs : settings.rateLimitWindowSecs ≤ Counter.top64
  healthWindowSecs : settings.healthWindowSecs ≤ Counter.top64
  timeoutSecs : settings.timeoutSecs ≤ Counter.top64
  maxFallbackDepth : settings.maxFallbackDepth ≤ Counter.top32
  spendBuffer : settings.spendBuffer ≤ Counter.top64

def Settings.members (settings : Settings) : Fields :=
  [("routing_strategy", ofText settings.strategy.name),
    ("max_attempts", ofNat settings.maxAttempts),
    ("allowed_fails", ofNat settings.allowedFails),
    ("cooldown_base_ms", ofNat settings.cooldownBaseMs),
    ("cooldown_max_ms", ofNat settings.cooldownMaxMs),
    ("cooldown_max_exponent", ofNat settings.cooldownMaxExponent),
    ("rate_limit_window_secs", ofNat settings.rateLimitWindowSecs),
    ("health_window_secs", ofNat settings.healthWindowSecs),
    ("timeout_secs", ofNat settings.timeoutSecs),
    ("max_fallback_depth", ofNat settings.maxFallbackDepth),
    ("spend_buffer", ofNat settings.spendBuffer)]

/-- Settings are read back as they were written, in either dialect. -/
theorem Settings.gives (dialect : Dialect) {settings : Settings} (h : settings.Representable) :
    Gives (Settings.ofDocument? dialect) settings.toDocument settings := by
  intro document hCarries
  have hDistinct : fieldNames.Nodup := by decide
  obtain ⟨fields, hFields, hHeld⟩ : ∃ fields, document.fields? dialect fieldNames = some fields ∧
      settings.members.CarriedBy fields :=
    fields_of_carries dialect hCarries (List.Subset.refl fieldNames) hDistinct
  have hStrategy : ∀ default, fields.withDefault "routing_strategy" default
      (choice? dialect Strategy.ofName?) = some settings.strategy := fun default =>
    hHeld.withDefault rfl (gives_choice dialect settings.strategy.ofName?_name)
  have hNumber : ∀ (name : String) {value most : Nat}, value ≤ most →
      settings.members.find? name = some (ofNat value) → ∀ default,
        fields.withDefault name default (natural? most) = some value :=
    fun name _ _ hMost hFound default => hHeld.withDefault hFound (gives_natural hMost)
  simp only [ofDocument?, hFields, Option.bind_eq_bind, Option.bind_some, hStrategy,
    hNumber "max_attempts" h.maxAttempts rfl, hNumber "allowed_fails" h.allowedFails rfl,
    hNumber "cooldown_base_ms" h.cooldownBaseMs rfl, hNumber "cooldown_max_ms" h.cooldownMaxMs rfl,
    hNumber "cooldown_max_exponent" h.cooldownMaxExponent rfl,
    hNumber "rate_limit_window_secs" h.rateLimitWindowSecs rfl,
    hNumber "health_window_secs" h.healthWindowSecs rfl,
    hNumber "timeout_secs" h.timeoutSecs rfl, hNumber "max_fallback_depth" h.maxFallbackDepth rfl,
    hNumber "spend_buffer" h.spendBuffer rfl]
  rfl

/-- A number fits into 64 bits with a sign. -/
abbrev FitsSigned (value : Int) : Prop :=
  -9223372036854775808 ≤ value ∧ value ≤ 9223372036854775807

namespace ConfiguredLimits

structure Representable (limits : ConfiguredLimits) : Prop where
  rpm : ∀ value ∈ limits.rpm, FitsSigned value
  tpm : ∀ value ∈ limits.tpm, FitsSigned value
  maxParallelRequests : ∀ value ∈ limits.maxParallelRequests, FitsSigned value

variable {limits : ConfiguredLimits}

/-- What the members of some limits hold. -/
@[simp] theorem find?_members (limits : ConfiguredLimits) (name : String) :
    Fields.find? limits.members name =
      if name = "rpm" then limits.rpm.map ofInt
      else if name = "tpm" then limits.tpm.map ofInt
      else if name = "max_parallel_requests" then limits.maxParallelRequests.map ofInt
      else none := by
  obtain ⟨rpm, tpm, parallel⟩ := limits
  cases rpm <;> cases tpm <;> cases parallel <;> simp [members] <;> grind

/-- Of three names those are there whose limits are. -/
theorem names_members (limits : ConfiguredLimits) :
    (limits.members.map Prod.fst).Sublist fieldNames := by
  obtain ⟨rpm, tpm, parallel⟩ := limits
  cases rpm <;> cases tpm <;> cases parallel <;> simp [members, fieldNames]

/-- Limits are read wherever their members stand. -/
theorem gives_fields (h : limits.Representable) {members fields : Fields}
    (hHeld : members.CarriedBy fields) (hRpm : members.find? "rpm" = limits.rpm.map ofInt)
    (hTpm : members.find? "tpm" = limits.tpm.map ofInt)
    (hParallel : members.find? "max_parallel_requests" =
      limits.maxParallelRequests.map ofInt) :
    ofFields? fields = some limits := by
  have hLimit : ∀ (name : String) {value : Option Int},
      (∀ number ∈ value, FitsSigned number) → members.find? name = value.map ofInt →
        fields.optional name integer? = some value :=
    fun name _ hFits hFound => hHeld.optional hFound
      (fun number hNumber => gives_integer (hFits number hNumber).1 (hFits number hNumber).2)
      neverNull_ofInt
  simp only [ofFields?, hLimit "rpm" h.rpm hRpm, hLimit "tpm" h.tpm hTpm,
    hLimit "max_parallel_requests" h.maxParallelRequests hParallel]
  rfl

/-- Limits are read back as they were written. -/
theorem gives (dialect : Dialect) (h : limits.Representable) :
    Gives (ofDocument? dialect) limits.toDocument limits := by
  intro document hCarries
  have hNames := limits.names_members
  have hDistinct : fieldNames.Nodup := by decide
  obtain ⟨fields, hFields, hHeld⟩ :=
    fields_of_carries dialect hCarries hNames.subset (hNames.nodup hDistinct)
  rw [ofDocument?, hFields, Option.bind_some]
  exact gives_fields h hHeld (by simp) (by simp) (by simp)

end ConfiguredLimits

namespace ConfiguredDeployment

/-- Every number fits into the type that it is read as. -/
structure Representable (configured : ConfiguredDeployment) : Prop where
  tier : configured.tier ≤ Counter.top32
  timeoutSecs : ∀ seconds ∈ configured.timeoutSecs, seconds ≤ Counter.top64
  limits : configured.limits.Representable

def members (configured : ConfiguredDeployment) : Fields :=
  [("deployment_id", ofText configured.id)]
    ++ optionalMember "model_name" configured.modelName
    ++ listMember "model_names" configured.modelNames
    ++ [("provider", ofText configured.provider.name), ("model", ofText configured.model)]
    ++ optionalMember "api_base" configured.apiBase
    ++ optionalMember "api_key_env" configured.apiKeyEnv
    ++ [("weight", ofFloat configured.weight), ("tier", ofNat configured.tier)]
    ++ (configured.timeoutSecs.map fun seconds => ("timeout_secs", ofNat seconds)).toList
    ++ configured.limits.members
    ++ listMember "tags" configured.tags

/-- The names of all members in the order in which they are written. -/
def memberNames : List String :=
  ["deployment_id"] ++ ["model_name"] ++ ["model_names"] ++ ["provider", "model"] ++ ["api_base"]
    ++ ["api_key_env"] ++ ["weight", "tier"] ++ ["timeout_secs"] ++ ConfiguredLimits.fieldNames
    ++ ["tags"]

theorem names_ofOption {α : Type} (name : String) (write : α → Document) (value : Option α) :
    ((value.map fun a => (name, write a)).toList.map Prod.fst).Sublist [name] := by
  cases value <;> simp

theorem names_listMember (name : String) (texts : List String) :
    ((listMember name texts).map Prod.fst).Sublist [name] := by
  cases texts <;> simp [listMember]

/-- The members of a deployment come under some of the names, in their order. -/
theorem names_members (configured : ConfiguredDeployment) :
    (configured.members.map Prod.fst).Sublist memberNames := by
  simp only [members, List.map_append]
  exact (((((((((List.Sublist.refl _).append (names_ofOption "model_name" ofText _)).append
    (names_listMember "model_names" _)).append (List.Sublist.refl _)).append
    (names_ofOption "api_base" ofText _)).append (names_ofOption "api_key_env" ofText _)).append
    (List.Sublist.refl _)).append (names_ofOption "timeout_secs" ofNat _)).append
    configured.limits.names_members).append (names_listMember "tags" _)

/-- A value that may be missing is found under its key or not at all. -/
@[simp] theorem find?_ofOption {α : Type} (key name : String) (write : α → Document)
    (value : Option α) :
    Fields.find? (value.map fun a => (key, write a)).toList name =
      if name = key then value.map write else none := by
  cases value <;> simp

@[simp] theorem find?_optionalMember (key name : String) (value : Option String) :
    Fields.find? (optionalMember key value) name =
      if name = key then value.map ofText else none := find?_ofOption ..

/-- A list is written only if there is something in it. -/
@[simp] theorem find?_listMember (key name : String) (texts : List String) :
    Fields.find? (listMember key texts) name =
      if name = key then (if texts.isEmpty then none else some (ofTexts texts)) else none := by
  cases texts <;> simp [listMember]

/-- A deployment is read back as it was written. -/
theorem gives (dialect : Dialect) {configured : ConfiguredDeployment}
    (h : configured.Representable) :
    Gives (ofDocument? dialect) configured.toDocument configured := by
  intro document hCarries
  have hNames := configured.names_members
  have hDistinct : memberNames.Nodup := by decide
  have hKnown : memberNames ⊆ fieldNames ++ ConfiguredLimits.fieldNames := by decide
  obtain ⟨fields, hFields, hHeld⟩ : ∃ fields,
      document.fields? { dialect with sequenceRecords := false }
        (fieldNames ++ ConfiguredLimits.fieldNames) = some fields ∧
      configured.members.CarriedBy fields :=
    fields_of_carries _ hCarries (fun _ hName => hKnown (hNames.subset hName))
      (hNames.nodup hDistinct)
  have hText : ∀ name text, configured.members.find? name = some (ofText text) →
      fields.required name text? = some text :=
    fun name text hFound => hHeld.required hFound (gives_text text)
  have hOptional : ∀ name value, configured.members.find? name = value.map ofText →
      fields.optional name text? = some value :=
    fun name value hFound => hHeld.optional hFound (fun text _ => gives_text text) neverNull_ofText
  have hTexts : ∀ name texts, configured.members.find? name =
      (if texts.isEmpty then none else some (ofTexts texts)) →
      fields.withDefault name [] (list? text?) = some texts :=
    fun name texts hFound => hHeld.texts hFound
  have hId := hText "deployment_id" configured.id (by simp [members])
  have hModelName := hOptional "model_name" configured.modelName (by simp [members])
  have hModelNames := hTexts "model_names" configured.modelNames (by simp [members])
  have hProvider : fields.withDefault "provider" .openai
      (choice? { dialect with sequenceRecords := false } Provider.ofName?) =
        some configured.provider :=
    hHeld.withDefault (by simp [members]) (gives_choice _ configured.provider.ofName?_name)
  have hModel := hText "model" configured.model (by simp [members])
  have hApiBase := hOptional "api_base" configured.apiBase (by simp [members])
  have hApiKeyEnv := hOptional "api_key_env" configured.apiKeyEnv (by simp [members])
  have hWeight : fields.withDefault "weight" 1.0 float? = some configured.weight :=
    hHeld.withDefault (by simp [members]) (gives_float configured.weight)
  have hTier : fields.withDefault "tier" 0 (natural? Counter.top32) = some configured.tier :=
    hHeld.withDefault (by simp [members]) (gives_natural h.tier)
  have hTimeout : fields.optional "timeout_secs" (natural? Counter.top64) =
      some configured.timeoutSecs :=
    hHeld.optional (by simp [members])
      (fun seconds hSeconds => gives_natural (h.timeoutSecs seconds hSeconds))
      (fun seconds => neverNull_ofInt seconds)
  have hLimits : ConfiguredLimits.ofFields? fields = some configured.limits := by
    exact ConfiguredLimits.gives_fields h.limits hHeld (by simp [members]) (by simp [members])
      (by simp [members])
  have hTags := hTexts "tags" configured.tags (by simp [members])
  simp only [ofDocument?, hFields, Option.bind_eq_bind, Option.bind_some, hId, hModelName,
    hModelNames, hProvider, hModel, hApiBase, hApiKeyEnv, hWeight, hTier, hTimeout, hLimits, hTags]
  rfl

end ConfiguredDeployment

theorem LoggingConfig.gives (dialect : Dialect) (logging : LoggingConfig) :
    Gives (LoggingConfig.ofDocument? dialect) logging.toDocument logging := by
  intro document hCarries
  have hDistinct : fieldNames.Nodup := by decide
  obtain ⟨fields, hFields, hHeld⟩ : ∃ fields,
      document.fields? dialect fieldNames = some fields ∧
      Fields.CarriedBy [("level", ofText logging.level), ("json", ofBool logging.json)] fields :=
    fields_of_carries dialect hCarries (List.Subset.refl fieldNames) hDistinct
  have hLevel : fields.withDefault "level" "info" text? = some logging.level :=
    hHeld.withDefault (by simp) (gives_text logging.level)
  have hJson : fields.withDefault "json" false bool? = some logging.json :=
    hHeld.withDefault (by simp) (gives_bool logging.json)
  simp only [ofDocument?, hFields, Option.bind_eq_bind, Option.bind_some, hLevel, hJson]
  rfl

/-- Text that looks like another value is written so that it stays text. -/
example : (Yaml.read? (Yaml.write (LoggingConfig.toDocument { level := "null" }))).bind
    (LoggingConfig.ofDocument? Dialect.yaml) = some { level := "null" } := by decide +kernel

namespace Config

/-- Every number fits into the type that it is read as. -/
structure Representable (config : Config) : Prop where
  settings : config.settings.Representable
  deployments : ∀ configured ∈ config.deployments, configured.Representable
  callerLimits : ∀ entry ∈ config.callerLimits.entries, entry.2.Representable

def members (config : Config) : Fields :=
  [("router_settings", config.settings.toDocument),
    ("model_list", .sequence (config.deployments.map ConfiguredDeployment.toDocument)),
    ("fallbacks", .ofTable ofTexts config.fallbacks),
    ("model_aliases", .ofTable ofText config.aliases),
    ("caller_limits", .ofTable ConfiguredLimits.toDocument config.callerLimits),
    ("logging", config.logging.toDocument)]

/-- So is a whole configuration. -/
theorem gives (dialect : Dialect) {config : Config} (h : config.Representable) :
    Gives (ofDocument? dialect) config.toDocument config := by
  intro document hCarries
  have hDistinct : fieldNames.Nodup := by decide
  obtain ⟨fields, hFields, hHeld⟩ : ∃ fields,
      document.fields? dialect fieldNames = some fields ∧ config.members.CarriedBy fields :=
    fields_of_carries dialect hCarries (List.Subset.refl fieldNames) hDistinct
  have hSettings : fields.withDefault "router_settings" {} (Settings.ofDocument? dialect) =
      some config.settings :=
    hHeld.withDefault rfl (Settings.gives dialect h.settings)
  have hDeployments : fields.withDefault "model_list" []
      (list? (ConfiguredDeployment.ofDocument? dialect)) = some config.deployments :=
    hHeld.withDefault rfl (gives_list fun configured hMem =>
      ConfiguredDeployment.gives dialect (h.deployments configured hMem))
  have hFallbacks : fields.withDefault "fallbacks" ∅ (table? (list? text?)) =
      some config.fallbacks :=
    hHeld.withDefault rfl (gives_table fun entry _ => gives_texts entry.2)
  have hAliases : fields.withDefault "model_aliases" ∅ (table? text?) = some config.aliases :=
    hHeld.withDefault rfl (gives_table fun entry _ => gives_text entry.2)
  have hCallerLimits : fields.withDefault "caller_limits" ∅
      (table? (ConfiguredLimits.ofDocument? dialect)) = some config.callerLimits :=
    hHeld.withDefault rfl (gives_table fun entry hMem =>
      ConfiguredLimits.gives dialect (h.callerLimits entry hMem))
  have hLogging : fields.withDefault "logging" {} (LoggingConfig.ofDocument? dialect) =
      some config.logging :=
    hHeld.withDefault rfl (LoggingConfig.gives dialect config.logging)
  simp only [ofDocument?, hFields, Option.bind_eq_bind, Option.bind_some, hSettings, hDeployments,
    hFallbacks, hAliases, hCallerLimits, hLogging]
  rfl

end Config

/-- A number equals itself unless it is none. -/
theorem float_beq_self {value : Float} (h : value.isNaN = false) : (value == value) = true := by
  change Float.Model.UnpackedFloat.beq value.toModel.unpack value.toModel.unpack = true
  change value.toModel.unpack.isNaN = false at h
  cases hParts : value.toModel.unpack with
  | notANumber =>
      rw [hParts] at h
      cases h
  | infinity sign => cases sign <;> rfl
  | zero sign => rfl
  | finite sign mantissa exponent hMantissa =>
      have hEqual : (compare exponent exponent).then (compare mantissa mantissa) = .eq := by simp
      cases sign with
      | positive =>
          change (some ((compare exponent exponent).then (compare mantissa mantissa)) ==
            some Ordering.eq) = true
          rw [hEqual]
          rfl
      | negative =>
          change (some ((compare exponent exponent).then (compare mantissa mantissa)).swap ==
            some Ordering.eq) = true
          rw [hEqual]
          rfl

/-- A deployment whose weight is a number is the same as itself. -/
theorem ConfiguredDeployment.beq_self {configured : ConfiguredDeployment}
    (h : configured.weight.isNaN = false) : (configured == configured) = true := by
  obtain ⟨id, modelName, modelNames, provider, model, apiBase, apiKeyEnv, weight, tier,
    timeoutSecs, limits, tags⟩ := configured
  change instBEqConfiguredDeployment.beq _ _ = true
  simpa [instBEqConfiguredDeployment.beq] using float_beq_self h

theorem beq_list {α : Type} [BEq α] {items : List α} (h : ∀ item ∈ items, (item == item) = true) :
    (items == items) = true := by
  induction items with
  | nil => rfl
  | cons item rest ih =>
      rw [List.cons_beq_cons, h item List.mem_cons_self,
        ih fun other hOther => h other (List.mem_cons_of_mem item hOther)]
      rfl

theorem Table.beq_self {α : Type} [BEq α] [ReflBEq α] (table : Table α) :
    (table == table) = true := by
  change (table.entries == table.entries) = true
  exact BEq.rfl

namespace Config

/-- So is a configuration of such deployments. -/
theorem beq_self {config : Config}
    (h : ∀ configured ∈ config.deployments, configured.weight.isNaN = false) :
    (config == config) = true := by
  have hDeployments : (config.deployments == config.deployments) = true :=
    beq_list fun configured hMem => ConfiguredDeployment.beq_self (h configured hMem)
  change instBEqConfig.beq config config = true
  unfold instBEqConfig.beq
  simp [hDeployments, Table.beq_self]

/-- A configuration that is written reads back as it was, through any notation that loses nothing
of a document but the order of the entries in its mappings. So it equals the first one in every
section, and is written as the same document. -/
theorem round_trip {config : Config} (hRepresentable : config.Representable)
    (hWeights : ∀ configured ∈ config.deployments, configured.weight.isNaN = false) :
    (∀ document, config.toDocument.Carries document →
      ∃ again, ofDocument? Dialect.yaml document = some again ∧ again = config ∧
        (again == config) = true ∧ again.toDocument = config.toDocument) ∧
      ∀ document, Yaml.read? config.toYaml = some document →
        config.toDocument.Carries document →
          ofYaml config.toYaml = .ok config ∧ config.readsBack = true := by
  have hGives := Config.gives Dialect.yaml hRepresentable
  have hSame := beq_self hWeights
  refine ⟨fun document hCarries => ⟨config, hGives document hCarries, rfl, hSame, rfl⟩,
    fun document hRead hCarries => ?_⟩
  have hAgain : ofYaml config.toYaml = .ok config := by
    rw [ofYaml, hRead, Option.bind_some, hGives document hCarries]
  refine ⟨hAgain, ?_⟩
  unfold readsBack
  simp only [hAgain]
  exact hSame

/-- A configuration with negative limits, texts that look like other values, and members that
are left out. -/
def mixedConfig : Config where
  settings := { strategy := .usageBased, maxAttempts := 5, cooldownMaxMs := Counter.top64 }
  deployments :=
    [{ id := "d1", modelName := "m", provider := .openaiCompatible, model := "null"
       weight := 2.5, limits := { rpm := some (-1), tpm := some 1000 }, tags := ["fast", ""] },
     { id := "d2", modelNames := ["m", "1e3"], model := "x", apiBase := "true"
       timeoutSecs := some 30 }]
  fallbacks := Table.ofList [("m", ["n", "o"]), ("n", [])]
  aliases := Table.ofList [("latest", "m"), ("~", "n")]
  callerLimits := Table.ofList [("team", { maxParallelRequests := some 4 }), ("", {})]

theorem representable_mixedConfig : mixedConfig.Representable where
  settings := by constructor <;> decide
  deployments := by
    intro configured hMem
    rcases List.mem_pair.mp hMem with rfl | rfl
    · exact ⟨by decide, by decide, by decide, by decide, by decide⟩
    · exact ⟨by decide, by decide, by decide, by decide, by decide⟩
  callerLimits := by
    intro entry hMem
    rcases List.mem_pair.mp hMem with rfl | rfl
    · exact ⟨by decide, by decide, by decide⟩
    · exact ⟨by decide, by decide, by decide⟩

/-- The configuration reads back with its sections in the opposite order. -/
theorem round_trip_mixed :
    ∃ again, ofDocument? Dialect.yaml (.mapping (mixedConfig.members.reverse.map fun member =>
        (ofText member.1, member.2))) = some again ∧
      (again == mixedConfig) = true ∧ again.toDocument = mixedConfig.toDocument := by
  have hWeights : ∀ configured ∈ mixedConfig.deployments, configured.weight.isNaN = false := by
    decide +kernel
  have hCarries : mixedConfig.toDocument.Carries
      (.mapping (mixedConfig.members.reverse.map fun member => (ofText member.1, member.2))) :=
    .mapping (carries_entries _) (mixedConfig.members.reverse_perm.symm.map _)
  obtain ⟨again, hRead, _, hEqual, hSame⟩ :=
    (round_trip representable_mixedConfig hWeights).1 _ hCarries
  exact ⟨again, hRead, hEqual, hSame⟩

end Config

end DeploymentRouting
