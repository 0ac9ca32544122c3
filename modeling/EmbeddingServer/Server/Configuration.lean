import EmbeddingServer.Lib.Layers
import EmbeddingServer.Server.Credentials

/-!
# Loading the configuration

`ServerConfig::load` of `config.rs`: a TOML document, the environment and the command line are
each read into a `Patch`, the patches are applied to the defaults in this order, and the result
is validated. Nothing of a patch is written before all of its source is read.

The text of the TOML document is parsed by another crate; its table is what arrives here. The
parsers of numbers and socket addresses are those of the standard library.
-/

namespace EmbeddingServer.Config

/-! ## Texts -/

/-- `str::strip_prefix`. -/
def stripStart (start text : String) : Option String :=
  if start.toList.isPrefixOf text.toList then
    some (String.ofList (text.toList.drop start.toList.length))
  else none

/-- `str::contains` for a text. -/
def containsText (text part : List Char) : Bool :=
  text.tails.any fun tail => part.isPrefixOf tail

/-- `str::trim`. -/
def trim (text : List Char) : List Char :=
  ((text.dropWhile isWhitespace).reverse.dropWhile isWhitespace).reverse

/-- `from_str` of an unsigned integer: digits after an optional plus sign, within the width. -/
def parseUnsigned (bits : Nat) (text : String) : Option Nat :=
  let digits := match text.toList with
    | '+' :: rest => rest
    | all => all
  let value := digits.foldl (fun total c => 10 * total + (c.toNat - 48)) 0
  if digits.isEmpty || !digits.all Char.isDigit || 2 ^ bits ≤ value then none else some value

/-! ## Socket addresses

The recursive descent parser of `core::net::parser`. A part that cannot be read leaves the text
as it was. -/

/-- `char::to_digit`. -/
def toDigit (radix : Nat) (c : Char) : Option Nat :=
  let value :=
    if c.isDigit then some (c.toNat - 48)
    else if 'a' ≤ c && c ≤ 'z' then some (c.toNat - 87)
    else if 'A' ≤ c && c ≤ 'Z' then some (c.toNat - 55) else none
  value.filter (· < radix)

/-- `Parser::read_number`: the digits at the front, unless there are none, too many or too large
a value. -/
def readNumber (radix : Nat) (maxDigits : Option Nat) (zeroPrefix : Bool) (bound : Nat)
    (text : List Char) : Option (Nat × List Char) :=
  let digits := text.takeWhile fun c => (toDigit radix c).isSome
  let value := digits.foldl (fun total c => radix * total + (toDigit radix c).getD 0) 0
  if digits.isEmpty || maxDigits.any (· < digits.length) ||
      (!zeroPrefix && digits.head? = some '0' && 1 < digits.length) || bound ≤ value then none
  else some (value, text.drop digits.length)

/-- `Parser::read_given_char`. -/
def readGivenChar (expected : Char) : List Char → Option (List Char)
  | c :: rest => if c = expected then some rest else none
  | [] => none

/-- `Parser::read_separator`: a separator in front of every part but the first. -/
def readSeparator {α : Type} (separator : Char) (index : Nat)
    (inner : List Char → Option (α × List Char)) (text : List Char) : Option (α × List Char) :=
  if index = 0 then inner text else (readGivenChar separator text).bind inner

/-- The loop of `Parser::read_ipv4_addr` over the four octets. -/
def readOctets : Nat → Nat → List Char → Option (Nat × List Char)
  | 0, _, text => some (0, text)
  | remaining + 1, index, text =>
      (readSeparator '.' index (readNumber 10 (some 3) false 256) text).bind fun (octet, text) =>
        (readOctets remaining (index + 1) text).bind fun (rest, text) =>
          some (octet * 256 ^ remaining + rest, text)

/-- `Parser::read_ipv4_addr`. -/
def readIpv4 (text : List Char) : Option (Nat × List Char) :=
  readOctets 4 0 text

/-- `read_groups` of `Parser::read_ipv6_addr`: up to `limit` groups, the last two perhaps
written as an IPv4 address. -/
def readGroups (limit : Nat) : Nat → Nat → List Char → List Nat × Bool × List Char
  | 0, _, text => ([], false, text)
  | remaining + 1, index, text =>
      let embedded :=
        if index + 1 < limit then readSeparator ':' index readIpv4 text else none
      match embedded with
      | some (address, text) => ([address / 65536, address % 65536], true, text)
      | none =>
          match readSeparator ':' index (readNumber 16 (some 4) true 65536) text with
          | none => ([], false, text)
          | some (group, text) =>
              let (groups, ipv4, text) := readGroups limit remaining (index + 1) text
              (group :: groups, ipv4, text)

/-- The bits of eight groups. -/
def ipv6Bits (groups : List Nat) : BitVec 128 :=
  BitVec.ofNat 128 (groups.foldl (fun total group => 65536 * total + group) 0)

/-- `Parser::read_ipv6_addr`. -/
def readIpv6 (text : List Char) : Option (BitVec 128 × List Char) :=
  let (head, headIpv4, text) := readGroups 8 8 0 text
  if head.length = 8 then some (ipv6Bits head, text)
  else if headIpv4 then none
  else
    (readGivenChar ':' text).bind fun text =>
      (readGivenChar ':' text).bind fun text =>
        let limit := 8 - (head.length + 1)
        let (tail, _, text) := readGroups limit limit 0 text
        some (ipv6Bits (head ++ List.replicate (8 - head.length - tail.length) 0 ++ tail), text)

/-- `Parser::read_port`. -/
def readPort (text : List Char) : Option (UInt16 × List Char) :=
  (readGivenChar ':' text).bind fun text =>
    (readNumber 10 none true (2 ^ 16) text).map fun (port, text) => (port.toUInt16, text)

/-- `Parser::read_socket_addr_v4`. -/
def readSocketV4 (text : List Char) : Option (SocketAddr × List Char) :=
  (readIpv4 text).bind fun (ip, text) =>
    (readPort text).map fun (port, text) => (⟨.v4 (BitVec.ofNat 32 ip), port, 0, 0⟩, text)

/-- `Parser::read_socket_addr_v6`, with an optional scope identifier. -/
def readSocketV6 (text : List Char) : Option (SocketAddr × List Char) :=
  (readGivenChar '[' text).bind fun text =>
    (readIpv6 text).bind fun (ip, text) =>
      let (scope, text) :=
        match (readGivenChar '%' text).bind (readNumber 10 none true (2 ^ 32)) with
        | some (scope, text) => (scope.toUInt32, text)
        | none => (0, text)
      (readGivenChar ']' text).bind fun text =>
        (readPort text).map fun (port, text) => (⟨.v6 ip, port, 0, scope⟩, text)

/-- `SocketAddr::from_str`: the whole text is one address. -/
def parseSocketAddr (text : String) : Option SocketAddr :=
  match (readSocketV4 text.toList).orElse fun _ => readSocketV6 text.toList with
  | some (address, []) => some address
  | _ => none

example : parseSocketAddr "127.0.0.1:1003" = some ⟨.v4 0x7F000001#32, 1003, 0, 0⟩ := by
  decide
example : parseSocketAddr "[::ffff:1.2.3.4%7]:80" =
    some ⟨.v6 0xFFFF01020304#128, 80, 0, 7⟩ := by decide
example : parseSocketAddr "127.0.0.01:80" = none := by decide

/-! ## Keys and errors -/

/-- `ConfigKey`. -/
inductive Key where
  | httpBind
  | grpcBind
  | allowInsecureRemote
  | authEnv
  | authTokenPresent
  | authFile
  | adminAuthEnv
  | adminAuthTokenPresent
  | adminAuthFile
  | adminApiEnabled
  | allowedOrigins
  | modelDirectories
  | cacheDirectory
  | preloadModels
  | offline
  | startupPolicy
  | maxBodyBytes
  | maxInputBytes
  | maxRequestBytes
  | maxItems
  | maxTokens
  | maxQueueDepth
  | maxBatchItems
  | maxBatchTokens
  | maxConcurrency
  | requestTimeout
  | shutdownTimeout
  | toml
  | path
  deriving DecidableEq, Repr

/-- The keys in their order, in which a patch is applied. -/
def Key.all : List Key :=
  [.httpBind, .grpcBind, .allowInsecureRemote, .authEnv, .authTokenPresent, .authFile,
    .adminAuthEnv, .adminAuthTokenPresent, .adminAuthFile, .adminApiEnabled, .allowedOrigins,
    .modelDirectories, .cacheDirectory, .preloadModels, .offline, .startupPolicy, .maxBodyBytes,
    .maxInputBytes, .maxRequestBytes, .maxItems, .maxTokens, .maxQueueDepth, .maxBatchItems,
    .maxBatchTokens, .maxConcurrency, .requestTimeout, .shutdownTimeout, .toml, .path]

/-- `ConfigSource`. -/
inductive Source where
  | toml
  | environment
  | commandLine
  | validation
  deriving DecidableEq, Repr

/-- `ConfigError`. -/
inductive Error where
  | unknownKey (source : Source)
  | invalidValue (key : Key) (reason : String)
  | missingValue (key : Key)
  | unexpectedArgument
  | configFileUnavailable
  | unsafeRemoteBind
  | invalidAdminCredentialPolicy
  deriving DecidableEq, Repr

/-- The key that validation names. -/
def Key.ofValidation : ConfigKey → Key
  | .grpcBind => .grpcBind
  | .cacheDirectory => .cacheDirectory
  | .preloadModels => .preloadModels
  | .allowedOrigins => .allowedOrigins
  | .maxBodyBytes => .maxBodyBytes
  | .maxInputBytes => .maxInputBytes
  | .maxRequestBytes => .maxRequestBytes
  | .maxItems => .maxItems
  | .maxTokens => .maxTokens
  | .maxQueueDepth => .maxQueueDepth
  | .maxBatchItems => .maxBatchItems
  | .maxBatchTokens => .maxBatchTokens
  | .maxConcurrency => .maxConcurrency
  | .requestTimeout => .requestTimeout
  | .shutdownTimeout => .shutdownTimeout

/-- The error that validation returns. -/
def Error.ofValidation : ConfigError → Error
  | .unsafeRemoteBind => .unsafeRemoteBind
  | .invalidAdminCredentialPolicy => .invalidAdminCredentialPolicy
  | .invalidValue key reason => .invalidValue (.ofValidation key) reason

/-! ## The configuration -/

/-- `StartupPolicy`. -/
inductive StartupPolicy where
  | bestEffort
  | strict
  deriving DecidableEq, Repr

/-- `ServerConfig` with all of its fields. -/
structure Settings extends ServerConfig where
  modelDirectories : List String
  offline : Bool
  startupPolicy : StartupPolicy
  deriving DecidableEq

/-- `ServerConfig::default`. -/
def Settings.default : Settings where
  httpBind := ⟨.v6 1#128, 8080, 0, 0⟩
  grpcBind := ⟨.v6 1#128, 50051, 0, 0⟩
  allowInsecureRemote := false
  auth := none
  adminAuth := none
  adminApiEnabled := true
  allowedOrigins := []
  modelDirectories := []
  cacheDirectory := ".impossible-embedding-cache"
  preloadModels := []
  offline := false
  startupPolicy := .bestEffort
  limits :=
    { maxBodyBytes := 2 * 1024 * 1024
      maxInputBytes := 256 * 1024
      maxRequestBytes := 1024 * 1024
      maxItems := 128
      maxTokens := 32768
      maxQueueDepth := 256
      maxBatchItems := 128
      maxBatchTokens := 32768
      maxConcurrency := 4
      requestTimeout := 30 * 1000000000
      shutdownTimeout := 20 * 1000000000 }

/-! ## Patches -/

/-- `PatchValue`. -/
inductive PatchValue where
  | scalar (value : String)
  | list (values : List String)
  deriving DecidableEq, Repr

/-- `Patch`: the values that one source gives. -/
abbrev Patch := Layers.Layer Key PatchValue

/-- The error of `Patch::set`. -/
def duplicateKey (key : Key) : Error :=
  .invalidValue key "duplicate key in one configuration source"

/-- `Patch::set`. -/
def Patch.set (patch : Patch) (key : Key) (value : PatchValue) : Except Error Patch :=
  Layers.assign duplicateKey patch key value

/-- `value.ok_or_else(|| invalid(reason))`. -/
def orInvalid {α : Type} (key : Key) (reason : String) : Option α → Except Error α
  | some value => .ok value
  | none => .error (.invalidValue key reason)

/-- `parse_bool`. -/
def parseBool (value : String) : Option Bool :=
  if value = "true" || value = "1" then some true
  else if value = "false" || value = "0" then some false else none

/-- The names of the startup policies. -/
def parsePolicy (value : String) : Option StartupPolicy :=
  if value = "best_effort" then some .bestEffort
  else if value = "strict" then some .strict else none

/-- `parse_duration`, in nanoseconds. -/
def parseDuration (value : String) : Option Nat :=
  (parseUnsigned 64 value).map (· * 1000000)

/-- The test of `validate_env_name`. -/
def isEnvName (value : String) : Bool :=
  !value.isEmpty && value.toList.all fun c => c = '_' || c.isUpper || c.isDigit

/-- `validate_env_name`. -/
def validateEnvName (value : String) : Option String :=
  if isEnvName value then some value else none

/-- `list_value`. -/
def listValue (key : Key) (value : PatchValue) : Except Error (List String) :=
  let values := match value with
    | .scalar value => (value.toList.splitOn ',').map fun part => String.ofList (trim part)
    | .list values => values
  if values.any String.isEmpty then .error (.invalidValue key "list entries must not be empty")
  else .ok values

/-- The closure `scalar` of `apply_value`. -/
def scalarValue (key : Key) : PatchValue → Except Error String
  | .scalar value => .ok value
  | .list _ => .error (.invalidValue key "expected scalar value")

/-- A branch of `apply_value` that parses a scalar. -/
def applyScalar {α : Type} (key : Key) (value : PatchValue) (parse : String → Option α)
    (reason : String) (write : α → Settings) : Except Error Settings := do
  let text ← scalarValue key value
  let parsed ← orInvalid key reason (parse text)
  pure (write parsed)

/-- A branch of `apply_value` that takes a scalar as it is. -/
def applyText (key : Key) (value : PatchValue) (write : String → Settings) :
    Except Error Settings := do
  let text ← scalarValue key value
  pure (write text)

/-- A branch of `apply_value` that takes a list. -/
def applyList (key : Key) (value : PatchValue) (write : List String → Settings) :
    Except Error Settings := do
  let values ← listValue key value
  pure (write values)

/-- A branch of `apply_value` for a limit. -/
def applyLimit (target : Settings) (key : Key) (value : PatchValue)
    (write : Limits → Nat → Limits) : Except Error Settings :=
  applyScalar key value (parseUnsigned wordBits) "expected positive integer" fun count =>
    { target with limits := write target.limits count }

/-- `apply_value`. -/
def applyValue (target : Settings) (key : Key) (value : PatchValue) : Except Error Settings :=
  match key with
  | .httpBind => applyScalar key value parseSocketAddr "expected socket address" fun address =>
      { target with httpBind := address }
  | .grpcBind => applyScalar key value parseSocketAddr "expected socket address" fun address =>
      { target with grpcBind := address }
  | .allowInsecureRemote => applyScalar key value parseBool "expected boolean" fun flag =>
      { target with allowInsecureRemote := flag }
  | .authEnv =>
      applyScalar key value validateEnvName "expected an uppercase environment variable name"
        fun name => { target with auth := some (.environment name) }
  | .authTokenPresent => applyText key value fun name =>
      { target with auth := some (.environment name) }
  | .authFile => applyText key value fun path => { target with auth := some (.file path) }
  | .adminAuthEnv =>
      applyScalar key value validateEnvName "expected an uppercase environment variable name"
        fun name => { target with adminAuth := some (.environment name) }
  | .adminAuthTokenPresent => applyText key value fun name =>
      { target with adminAuth := some (.environment name) }
  | .adminAuthFile => applyText key value fun path => { target with adminAuth := some (.file path) }
  | .adminApiEnabled => applyScalar key value parseBool "expected boolean" fun flag =>
      { target with adminApiEnabled := flag }
  | .allowedOrigins => applyList key value fun values => { target with allowedOrigins := values }
  | .modelDirectories => applyList key value fun values =>
      { target with modelDirectories := values }
  | .cacheDirectory => applyText key value fun path => { target with cacheDirectory := path }
  | .preloadModels => applyList key value fun values => { target with preloadModels := values }
  | .offline => applyScalar key value parseBool "expected boolean" fun flag =>
      { target with offline := flag }
  | .startupPolicy =>
      applyScalar key value parsePolicy "expected best_effort or strict" fun policy =>
      { target with startupPolicy := policy }
  | .maxBodyBytes => applyLimit target key value fun limits count =>
      { limits with maxBodyBytes := count }
  | .maxInputBytes => applyLimit target key value fun limits count =>
      { limits with maxInputBytes := count }
  | .maxRequestBytes => applyLimit target key value fun limits count =>
      { limits with maxRequestBytes := count }
  | .maxItems => applyLimit target key value fun limits count => { limits with maxItems := count }
  | .maxTokens => applyLimit target key value fun limits count => { limits with maxTokens := count }
  | .maxQueueDepth => applyLimit target key value fun limits count =>
      { limits with maxQueueDepth := count }
  | .maxBatchItems => applyLimit target key value fun limits count =>
      { limits with maxBatchItems := count }
  | .maxBatchTokens => applyLimit target key value fun limits count =>
      { limits with maxBatchTokens := count }
  | .maxConcurrency => applyLimit target key value fun limits count =>
      { limits with maxConcurrency := count }
  | .requestTimeout => applyScalar key value parseDuration "expected milliseconds" fun time =>
      { target with limits.requestTimeout := time }
  | .shutdownTimeout => applyScalar key value parseDuration "expected milliseconds" fun time =>
      { target with limits.shutdownTimeout := time }
  | .toml => .error (.invalidValue key "field is not directly configurable")
  | .path => .error (.invalidValue key "field is not directly configurable")

/-- The alternatives of the two credentials. -/
def credentialAlternatives : List (List Key) :=
  [[.authEnv, .authFile, .authTokenPresent],
    [.adminAuthEnv, .adminAuthFile, .adminAuthTokenPresent]]

/-- The first loop of `Patch::apply`. -/
def Patch.checkAlternatives (patch : Patch) : Except Error Unit :=
  credentialAlternatives.forM fun alternatives =>
    if 1 < (alternatives.filter fun key => (patch key).isSome).length then
      throw (.invalidValue (alternatives.headD .authEnv) "configure exactly one credential source")
    else pure ()

/-- The second loop of `Patch::apply`. -/
def Patch.applyFrom (patch : Patch) (target : Settings) : List Key → Except Error Settings
  | [] => .ok target
  | key :: rest =>
      match patch key with
      | none => Patch.applyFrom patch target rest
      | some value => (applyValue target key value).bind fun target =>
          Patch.applyFrom patch target rest

/-- `Patch::apply`. -/
def Patch.apply (patch : Patch) (target : Settings) : Except Error Settings := do
  patch.checkAlternatives
  patch.applyFrom target Key.all

/-! ## Reading the sources -/

/-- The table of `parse_key`. -/
def keyNames : List (String × Key) :=
  [("http_bind", .httpBind), ("grpc_bind", .grpcBind),
    ("allow_insecure_remote", .allowInsecureRemote), ("auth_env", .authEnv),
    ("auth_token_present", .authTokenPresent), ("auth_file", .authFile),
    ("admin_auth_env", .adminAuthEnv), ("admin_auth_token_present", .adminAuthTokenPresent),
    ("admin_auth_file", .adminAuthFile), ("admin_api_enabled", .adminApiEnabled),
    ("allowed_origins", .allowedOrigins), ("model_directories", .modelDirectories),
    ("cache_directory", .cacheDirectory), ("preload_models", .preloadModels),
    ("offline", .offline), ("startup_policy", .startupPolicy),
    ("limits.max_body_bytes", .maxBodyBytes), ("limits.max_input_bytes", .maxInputBytes),
    ("limits.max_request_bytes", .maxRequestBytes), ("limits.max_items", .maxItems),
    ("limits.max_tokens", .maxTokens), ("limits.max_queue_depth", .maxQueueDepth),
    ("limits.max_batch_items", .maxBatchItems), ("limits.max_batch_tokens", .maxBatchTokens),
    ("limits.max_concurrency", .maxConcurrency), ("limits.request_timeout_ms", .requestTimeout),
    ("limits.shutdown_timeout_ms", .shutdownTimeout)]

/-- `parse_key`. -/
def parseKey (name : String) : Option Key :=
  keyNames.lookup name

/-- `toml::Value`; the code does not look into floating point numbers and dates. -/
inductive TomlValue where
  | string (value : String)
  | integer (value : Int)
  | float
  | boolean (value : Bool)
  | datetime
  | array (values : List TomlValue)
  | table (entries : List (String × TomlValue))

/-- `toml::Value::as_str`. -/
def TomlValue.asStr : TomlValue → Option String
  | .string value => some value
  | _ => none

/-- The conversion of `insert_toml_value`. -/
def tomlPatchValue (key : Key) : TomlValue → Except Error PatchValue
  | .string value => .ok (.scalar value)
  | .integer value => .ok (.scalar (toString value))
  | .boolean value => .ok (.scalar (toString value))
  | .array values =>
      (values.mapM fun value =>
        orInvalid key "expected an array of strings" value.asStr).map .list
  | _ => .error (.invalidValue key "unsupported TOML value type")

/-- `insert_toml_value`. -/
def insertTomlValue (patch : Patch) (key : Key) (value : TomlValue) : Except Error Patch := do
  let value ← tomlPatchValue key value
  patch.set key value

/-- `parse_key(name).ok_or(ConfigError::UnknownKey { source })`. -/
def knownKey (source : Source) (name : String) : Except Error Key :=
  match parseKey name with
  | some key => .ok key
  | none => .error (.unknownKey source)

/-- One entry of a TOML table under its full name. -/
def insertToml (patch : Patch) (name : String) (value : TomlValue) : Except Error Patch := do
  let key ← knownKey .toml name
  insertTomlValue patch key value

/-- The inner loop of `parse_toml` over the table `limits`. -/
def parseTomlLimits (patch : Patch) : List (String × TomlValue) → Except Error Patch
  | [] => .ok patch
  | (name, value) :: rest => do
      let patch ← insertToml patch ("limits." ++ name) value
      parseTomlLimits patch rest

/-- One iteration of the loop of `parse_toml`. -/
def parseTomlEntry (patch : Patch) (name : String) (value : TomlValue) : Except Error Patch :=
  if name = "limits" then
    match value with
    | .table limits => parseTomlLimits patch limits
    | _ => .error (.invalidValue .toml "expected table")
  else insertToml patch name value

/-- The loop of `parse_toml`. -/
def parseTomlFrom (patch : Patch) : List (String × TomlValue) → Except Error Patch
  | [] => .ok patch
  | (name, value) :: rest => do
      let patch ← parseTomlEntry patch name value
      parseTomlFrom patch rest

/-- `parse_toml`, from the table of the document on. -/
def parseToml (table : List (String × TomlValue)) : Except Error Patch :=
  parseTomlFrom Layers.none table

/-- The table of `parse_environment`. -/
def environmentNames : List (String × Key) :=
  [("HTTP_BIND", .httpBind), ("GRPC_BIND", .grpcBind),
    ("ALLOW_INSECURE_REMOTE", .allowInsecureRemote), ("AUTH_ENV", .authEnv),
    ("AUTH_TOKEN", .authTokenPresent), ("AUTH_FILE", .authFile),
    ("ADMIN_AUTH_ENV", .adminAuthEnv), ("ADMIN_AUTH_TOKEN", .adminAuthTokenPresent),
    ("ADMIN_AUTH_FILE", .adminAuthFile), ("ADMIN_API_ENABLED", .adminApiEnabled),
    ("ALLOWED_ORIGINS", .allowedOrigins), ("MODEL_DIRECTORIES", .modelDirectories),
    ("CACHE_DIRECTORY", .cacheDirectory), ("PRELOAD_MODELS", .preloadModels),
    ("OFFLINE", .offline), ("STARTUP_POLICY", .startupPolicy),
    ("MAX_BODY_BYTES", .maxBodyBytes), ("MAX_INPUT_BYTES", .maxInputBytes),
    ("MAX_REQUEST_BYTES", .maxRequestBytes), ("MAX_ITEMS", .maxItems),
    ("MAX_TOKENS", .maxTokens), ("MAX_QUEUE_DEPTH", .maxQueueDepth),
    ("MAX_BATCH_ITEMS", .maxBatchItems), ("MAX_BATCH_TOKENS", .maxBatchTokens),
    ("MAX_CONCURRENCY", .maxConcurrency), ("REQUEST_TIMEOUT_MS", .requestTimeout),
    ("SHUTDOWN_TIMEOUT_MS", .shutdownTimeout)]

/-- The start of the names that belong to the server. -/
def environmentStart : String := "IMPOSSIBLE_"

/-- One iteration of `parse_environment`: a variable that holds a secret is kept by name. -/
def parseVariable (patch : Patch) (name value : String) : Except Error Patch :=
  match stripStart environmentStart name with
  | none => .ok patch
  | some suffix =>
      match environmentNames.lookup suffix with
      | none => .error (.unknownKey .environment)
      | some key =>
          if key = .authTokenPresent || key = .adminAuthTokenPresent then
            if value.isEmpty then .error (.invalidValue key "credential must not be empty")
            else patch.set key (.scalar name)
          else patch.set key (.scalar value)

/-- The loop of `parse_environment`. -/
def parseEnvironmentFrom (patch : Patch) : List (String × String) → Except Error Patch
  | [] => .ok patch
  | (name, value) :: rest => do
      let patch ← parseVariable patch name value
      parseEnvironmentFrom patch rest

/-- `parse_environment`. -/
def parseEnvironment (environment : List (String × String)) : Except Error Patch :=
  parseEnvironmentFrom Layers.none environment

/-- `credential_like_option`. -/
def credentialLikeOption (option : List Char) : Bool :=
  option = "auth".toList || containsText option "token".toList ||
    containsText option "secret".toList || containsText option "password".toList ||
    containsText option "credential".toList || containsText option "api_key".toList

/-- The names that `parse_cli` looks up in the table `limits`. -/
def limitNames : List String :=
  ["max_body_bytes", "max_input_bytes", "max_request_bytes", "max_items", "max_tokens",
    "max_queue_depth", "max_batch_items", "max_batch_tokens", "max_concurrency",
    "request_timeout_ms", "shutdown_timeout_ms"]

/-- The key of a command-line option, given without the leading dashes. -/
def optionKey (option : String) : Except Error Key :=
  let name := (option.toList.takeWhile (· ≠ '=')).map fun c => if c = '-' then '_' else c
  if credentialLikeOption name then .error (.unknownKey .commandLine)
  else
    let name := String.ofList name
    knownKey .commandLine (if limitNames.contains name then "limits." ++ name else name)

/-- The options without a value. -/
def Key.isFlag (key : Key) : Bool :=
  key = .allowInsecureRemote || key = .offline

/-- The checks of `parse_cli` on one argument that must be an option: its key. -/
def parseOption (argument : String) : Except Error Key :=
  match stripStart "--" argument with
  | none => .error .unexpectedArgument
  | some option => do
      let key ← optionKey option
      if option.toList.contains '=' then
        throw (.invalidValue key "inline option values are not supported")
      pure key

/-- The loop of `parse_cli`. -/
def parseCliFrom (patch : Patch) : List String → Except Error Patch
  | [] => .ok patch
  | argument :: rest =>
      match parseOption argument with
      | .error error => .error error
      | .ok key =>
          if key.isFlag then
            (patch.set key (.scalar "true")).bind fun patch => parseCliFrom patch rest
          else
            match rest with
            | [] => .error (.missingValue key)
            | value :: rest =>
                (patch.set key (.scalar value)).bind fun patch => parseCliFrom patch rest

/-- `parse_cli`. -/
def parseCli (arguments : List String) : Except Error Patch :=
  parseCliFrom Layers.none arguments

/-! ## Loading -/

/-- The part of `ServerConfig::load` for the TOML document, if one is given. -/
def applyToml (toml : Option (List (String × TomlValue))) (config : Settings) :
    Except Error Settings :=
  match toml with
  | none => .ok config
  | some table => do
      let patch ← parseToml table
      patch.apply config

/-- `config.validate()?` with the error as `load` returns it. -/
def validateSettings (host : Host) (config : Settings) : Except Error Unit :=
  (config.toServerConfig.validate host).mapError .ofValidation

/-- `ServerConfig::load`, with the table of the TOML document if one is given. -/
def load (host : Host) (toml : Option (List (String × TomlValue)))
    (environment : List (String × String)) (cli : List String) : Except Error Settings := do
  let config ← applyToml toml Settings.default
  let patch ← parseEnvironment environment
  let config ← patch.apply config
  let patch ← parseCli cli
  let config ← patch.apply config
  validateSettings host config
  pure config

end EmbeddingServer.Config
