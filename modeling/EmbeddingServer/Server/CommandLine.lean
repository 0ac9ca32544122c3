import EmbeddingServer.Server.ConfigMerge

/-!
# Settings on the command line and in the environment

`ConfigArgs` of `cli.rs` forwards the options of the server to `parse_cli`. Each setting that
takes a value also has an environment variable, and both lead to one key through tables of their
own. The filter of `parse_cli` against inline secrets looks for parts of a name, so it also stops
the two limits whose name speaks of tokens.
-/

namespace EmbeddingServer.Config

/-! ## The options of the server -/

/-- `ConfigArgs`. A path is given as Unicode text, which `to_string_lossy` keeps. -/
structure ConfigArgs where
  config : Option String := none
  httpBind : Option String := none
  grpcBind : Option String := none
  allowInsecureRemote : Bool := false
  authEnv : Option String := none
  authFile : Option String := none
  adminAuthEnv : Option String := none
  adminAuthFile : Option String := none
  adminApiEnabled : Option String := none
  allowedOrigins : Option String := none
  modelDirectories : Option String := none
  cacheDirectory : Option String := none
  preloadModels : Option String := none
  offline : Bool := false
  startupPolicy : Option String := none
  maxBodyBytes : Option String := none
  maxInputBytes : Option String := none
  maxRequestBytes : Option String := none
  maxItems : Option String := none
  maxTokens : Option String := none
  maxQueueDepth : Option String := none
  maxBatchItems : Option String := none
  maxBatchTokens : Option String := none
  maxConcurrency : Option String := none
  requestTimeoutMs : Option String := none
  shutdownTimeoutMs : Option String := none

/-- `push_value` and `push_path`. -/
def pushValue (name : String) : Option String → List String
  | some value => [name, value]
  | none => []

/-- An option without a value. -/
def pushFlag (name : String) (given : Bool) : List String :=
  if given then [name] else []

/-- `ConfigArgs::configuration_arguments`. -/
def ConfigArgs.configurationArguments (args : ConfigArgs) : List String :=
  pushValue "--http-bind" args.httpBind ++
  pushValue "--grpc-bind" args.grpcBind ++
  pushFlag "--allow-insecure-remote" args.allowInsecureRemote ++
  pushValue "--auth-env" args.authEnv ++
  pushValue "--auth-file" args.authFile ++
  pushValue "--admin-auth-env" args.adminAuthEnv ++
  pushValue "--admin-auth-file" args.adminAuthFile ++
  pushValue "--admin-api-enabled" args.adminApiEnabled ++
  pushValue "--allowed-origins" args.allowedOrigins ++
  pushValue "--model-directories" args.modelDirectories ++
  pushValue "--cache-directory" args.cacheDirectory ++
  pushValue "--preload-models" args.preloadModels ++
  pushFlag "--offline" args.offline ++
  pushValue "--startup-policy" args.startupPolicy ++
  [("--max-body-bytes", args.maxBodyBytes), ("--max-input-bytes", args.maxInputBytes),
    ("--max-request-bytes", args.maxRequestBytes), ("--max-items", args.maxItems),
    ("--max-tokens", args.maxTokens), ("--max-queue-depth", args.maxQueueDepth),
    ("--max-batch-items", args.maxBatchItems), ("--max-batch-tokens", args.maxBatchTokens),
    ("--max-concurrency", args.maxConcurrency), ("--request-timeout-ms", args.requestTimeoutMs),
    ("--shutdown-timeout-ms", args.shutdownTimeoutMs)].flatMap
      fun option => pushValue option.1 option.2

/-- The settings that the command line takes with a value, credentials excepted. -/
inductive Setting where
  | httpBind
  | grpcBind
  | adminApiEnabled
  | allowedOrigins
  | modelDirectories
  | cacheDirectory
  | preloadModels
  | startupPolicy
  | maxBodyBytes
  | maxInputBytes
  | maxRequestBytes
  | maxItems
  | maxTokens
  | maxQueueDepth
  | maxBatchItems
  | maxBatchTokens
  | maxConcurrency
  | requestTimeoutMs
  | shutdownTimeoutMs
  deriving DecidableEq, Repr

/-- The arguments with one setting. -/
def Setting.given (value : String) : Setting → ConfigArgs
  | .httpBind => { httpBind := some value }
  | .grpcBind => { grpcBind := some value }
  | .adminApiEnabled => { adminApiEnabled := some value }
  | .allowedOrigins => { allowedOrigins := some value }
  | .modelDirectories => { modelDirectories := some value }
  | .cacheDirectory => { cacheDirectory := some value }
  | .preloadModels => { preloadModels := some value }
  | .startupPolicy => { startupPolicy := some value }
  | .maxBodyBytes => { maxBodyBytes := some value }
  | .maxInputBytes => { maxInputBytes := some value }
  | .maxRequestBytes => { maxRequestBytes := some value }
  | .maxItems => { maxItems := some value }
  | .maxTokens => { maxTokens := some value }
  | .maxQueueDepth => { maxQueueDepth := some value }
  | .maxBatchItems => { maxBatchItems := some value }
  | .maxBatchTokens => { maxBatchTokens := some value }
  | .maxConcurrency => { maxConcurrency := some value }
  | .requestTimeoutMs => { requestTimeoutMs := some value }
  | .shutdownTimeoutMs => { shutdownTimeoutMs := some value }

/-- The name of a setting on the command line. -/
def Setting.option : Setting → String
  | .httpBind => "http-bind"
  | .grpcBind => "grpc-bind"
  | .adminApiEnabled => "admin-api-enabled"
  | .allowedOrigins => "allowed-origins"
  | .modelDirectories => "model-directories"
  | .cacheDirectory => "cache-directory"
  | .preloadModels => "preload-models"
  | .startupPolicy => "startup-policy"
  | .maxBodyBytes => "max-body-bytes"
  | .maxInputBytes => "max-input-bytes"
  | .maxRequestBytes => "max-request-bytes"
  | .maxItems => "max-items"
  | .maxTokens => "max-tokens"
  | .maxQueueDepth => "max-queue-depth"
  | .maxBatchItems => "max-batch-items"
  | .maxBatchTokens => "max-batch-tokens"
  | .maxConcurrency => "max-concurrency"
  | .requestTimeoutMs => "request-timeout-ms"
  | .shutdownTimeoutMs => "shutdown-timeout-ms"

/-- The name of a setting in the environment: in capitals, with underscores. -/
def Setting.variable (setting : Setting) : String :=
  environmentStart ++
    String.ofList (setting.option.toList.map fun c => if c = '-' then '_' else c.toUpper)

/-- The key that a setting writes. -/
def Setting.key : Setting → Key
  | .httpBind => .httpBind
  | .grpcBind => .grpcBind
  | .adminApiEnabled => .adminApiEnabled
  | .allowedOrigins => .allowedOrigins
  | .modelDirectories => .modelDirectories
  | .cacheDirectory => .cacheDirectory
  | .preloadModels => .preloadModels
  | .startupPolicy => .startupPolicy
  | .maxBodyBytes => .maxBodyBytes
  | .maxInputBytes => .maxInputBytes
  | .maxRequestBytes => .maxRequestBytes
  | .maxItems => .maxItems
  | .maxTokens => .maxTokens
  | .maxQueueDepth => .maxQueueDepth
  | .maxBatchItems => .maxBatchItems
  | .maxBatchTokens => .maxBatchTokens
  | .maxConcurrency => .maxConcurrency
  | .requestTimeoutMs => .requestTimeout
  | .shutdownTimeoutMs => .shutdownTimeout

/-- The limits whose names speak of tokens. -/
def Setting.CountsTokens (setting : Setting) : Prop :=
  setting = .maxTokens ∨ setting = .maxBatchTokens

/-! ## The two ways to a key -/

/-- Read the command line and apply it to a configuration, as `ServerConfig::load` does. -/
def applyCli (arguments : List String) (base : Settings) : Except Error Settings := do
  let patch ← parseCli arguments
  patch.apply base

/-- Read the environment and apply it to a configuration, as `ServerConfig::load` does. -/
def applyEnvironment (environment : List (String × String)) (base : Settings) :
    Except Error Settings := do
  let patch ← parseEnvironment environment
  patch.apply base

/-- Two sources give the same configuration, or both fail. -/
def SameResult (left right : Except Error Settings) : Prop :=
  ∀ config, left = .ok config ↔ right = .ok config

/-- The patch with one value. -/
def Patch.single (key : Key) (value : String) : Patch :=
  Function.update Layers.none key (some (.scalar value))

theorem Patch.set_none (key : Key) (value : String) :
    Patch.set Layers.none key (.scalar value) = .ok (Patch.single key value) := rfl

/-- A setting is forwarded as one pair. -/
theorem Setting.configuration_arguments_given (setting : Setting) (value : String) :
    (setting.given value).configurationArguments = ["--" ++ setting.option, value] := by
  cases setting <;>
    simp [Setting.given, ConfigArgs.configurationArguments, pushValue, pushFlag, Setting.option]

/-- What `parse_cli` makes of the name of a setting. -/
theorem Setting.parse_option_option (setting : Setting) :
    (setting.CountsTokens ∧
      parseOption ("--" ++ setting.option) = .error (.unknownKey .commandLine)) ∨
    (¬ setting.CountsTokens ∧ parseOption ("--" ++ setting.option) = .ok setting.key) := by
  unfold Setting.CountsTokens
  cases setting <;> decide

/-- What `parse_environment` makes of the name of a setting. -/
theorem Setting.variable_key (setting : Setting) :
    (stripStart environmentStart setting.variable).bind (environmentNames.lookup ·) =
      some setting.key := by
  cases setting <;> decide

/-- No setting is a flag or a secret. -/
theorem Setting.key_plain (setting : Setting) :
    setting.key.isFlag = false ∧
      (setting.key = .authTokenPresent || setting.key = .adminAuthTokenPresent) = false := by
  cases setting <;> decide

/-- The environment variable of a setting is kept with its value. -/
theorem Setting.parse_environment_variable (setting : Setting) (value : String) :
    parseEnvironment [(setting.variable, value)] = .ok (Patch.single setting.key value) := by
  obtain ⟨suffix, hsuffix, hkey⟩ := Option.bind_eq_some_iff.mp setting.variable_key
  have hvariable : parseVariable Layers.none setting.variable value =
      .ok (Patch.single setting.key value) := by
    simp [parseVariable, hsuffix, hkey, setting.key_plain.2, Patch.set_none]
  rw [parseEnvironment, parseEnvironmentFrom, hvariable]
  rfl

/-- The option of a setting is kept with its value if its name passes the filter. -/
theorem Setting.parse_cli_option {setting : Setting} (value : String)
    (hoption : parseOption ("--" ++ setting.option) = .ok setting.key) :
    parseCli ["--" ++ setting.option, value] = .ok (Patch.single setting.key value) := by
  rw [parseCli, parseCliFrom, hoption]
  simp only [setting.key_plain.1, Patch.set_none]
  rfl

/-- The option of a setting is refused with its name. -/
theorem Setting.parse_cli_refused {setting : Setting} (value : String) {error : Error}
    (hoption : parseOption ("--" ++ setting.option) = .error error) :
    parseCli ["--" ++ setting.option, value] = .error error := by
  rw [parseCli, parseCliFrom, hoption]

/-- A patch with one value is applied exactly when the value means something for the key. -/
theorem Patch.apply_single_is_ok {key : Key} {value : String} {base : Settings} :
    (∃ config, (Patch.single key value).apply base = .ok config) ↔
      (readValue key (.scalar value)).isSome := by
  have hat : Patch.single key value key = some (.scalar value) := Function.update_self ..
  have honly : ∀ other found, Patch.single key value other = some found →
      other = key ∧ found = .scalar value := by
    intro other found hfound
    by_cases hother : other = key
    · subst hother
      rw [hat] at hfound
      cases hfound
      exact ⟨rfl, rfl⟩
    · rw [Patch.single, Function.update_of_ne hother] at hfound
      cases hfound
  constructor
  · rintro ⟨config, hconfig⟩
    exact (apply_ok_iff.mp hconfig).2.1 key (.scalar value) hat
  · intro hsome
    have hunambiguous : (Patch.single key value).Unambiguous := by
      intro left right hleft hright _ _
      obtain ⟨_, hleft⟩ := Option.isSome_iff_exists.mp hleft
      obtain ⟨_, hright⟩ := Option.isSome_iff_exists.mp hright
      rw [(honly _ _ hleft).1, (honly _ _ hright).1]
    have hread : (Patch.single key value).Readable := by
      intro other found hfound
      obtain ⟨rfl, rfl⟩ := honly other found hfound
      exact hsome
    exact apply_is_ok hunambiguous hread base

/-- A limit on tokens means something exactly when it is a number of the machine. -/
theorem Setting.read_value_tokens {setting : Setting} (h : setting.CountsTokens) (value : String) :
    readValue setting.key (.scalar value) =
      (parseUnsigned wordBits value).map FieldValue.number := by
  cases h with
  | inl h =>
      subst h
      rfl
  | inr h =>
      subst h
      rfl

/-- A setting means the same on the command line and in the environment, unless it is a limit on
tokens with a value that the environment accepts: the filter against inline secrets refuses its
option, which `ConfigArgs` forwards. -/
theorem cli_environment_agree_iff (setting : Setting) (value : String) (base : Settings) :
    SameResult (applyCli (setting.given value).configurationArguments base)
        (applyEnvironment [(setting.variable, value)] base) ↔
      (setting = .maxTokens ∨ setting = .maxBatchTokens → parseUnsigned wordBits value = none) := by
  have henvironment : applyEnvironment [(setting.variable, value)] base =
      (Patch.single setting.key value).apply base := by
    rw [applyEnvironment, setting.parse_environment_variable]
    rfl
  rw [setting.configuration_arguments_given, henvironment]
  cases setting.parse_option_option with
  | inl hrefused =>
      obtain ⟨htokens, hoption⟩ := hrefused
      have hcli : applyCli ["--" ++ setting.option, value] base =
          .error (.unknownKey .commandLine) := by
        rw [applyCli, Setting.parse_cli_refused value hoption]
        rfl
      -- The command line fails, so both agree exactly when the environment fails too.
      have hfails : SameResult (.error (.unknownKey .commandLine))
          ((Patch.single setting.key value).apply base) ↔
            ¬ ∃ config, (Patch.single setting.key value).apply base = .ok config := by
        simp [SameResult]
      rw [hcli, hfails, Patch.apply_single_is_ok, Setting.read_value_tokens htokens]
      simp only [Option.isSome_map, Option.not_isSome_iff_eq_none]
      exact ⟨fun h _ => h, fun h => h htokens⟩
  | inr haccepted =>
      obtain ⟨hplain, hoption⟩ := haccepted
      have hcli : applyCli ["--" ++ setting.option, value] base =
          (Patch.single setting.key value).apply base := by
        rw [applyCli, Setting.parse_cli_option value hoption]
        rfl
      rw [hcli]
      exact ⟨fun _ htokens => absurd htokens hplain, fun _ _ => Iff.rfl⟩

/-- One hundred tokens are accepted from the environment and refused on the command line. -/
theorem max_tokens_refused :
    ¬ SameResult (applyCli (Setting.maxTokens.given "100").configurationArguments .default)
      (applyEnvironment [("IMPOSSIBLE_MAX_TOKENS", "100")] .default) := by
  intro hsame
  have haccepted : applyEnvironment [("IMPOSSIBLE_MAX_TOKENS", "100")] .default =
      .ok { Settings.default with
        limits := { Settings.default.limits with maxTokens := 100 } } := by
    decide +kernel
  have hrefused : applyCli (Setting.maxTokens.given "100").configurationArguments .default =
      .error (.unknownKey .commandLine) := by
    decide +kernel
  have hcli := (hsame _).mpr haccepted
  rw [hrefused] at hcli
  cases hcli

end EmbeddingServer.Config
