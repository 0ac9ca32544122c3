import EmbeddingServer.Core.Contract
import Mathlib.Data.List.GetD

/-!
# Configuration and credentials

The access policy of a server is fixed when it starts: `ServerConfig::validate` refuses unsafe
combinations of listeners and credentials, `load_credential` reads each secret once, and
`AppState::new` refuses two equal secrets.

The environment, the credential files, the URL parser and the construction of the application
are the fields of `Host`. A field of `ServerConfig` that no check here reads is left out.
-/

namespace EmbeddingServer

/-! ## Addresses -/

/-- `IpAddr`. -/
inductive IpAddr where
  | v4 (bits : BitVec 32)
  | v6 (bits : BitVec 128)
  deriving DecidableEq

/-- `IpAddr::is_loopback`: 127.0.0.0/8, and ::1 alone. -/
def IpAddr.isLoopback : IpAddr → Bool
  | .v4 bits => bits.extractLsb 31 24 == 127#8
  | .v6 bits => bits == 1#128

/-- `SocketAddr`; the last two fields are zero for version 4. -/
structure SocketAddr where
  ip : IpAddr
  port : UInt16
  flowinfo : UInt32
  scopeId : UInt32
  deriving DecidableEq

/-! ## Configuration -/

/-- `CredentialSource`. -/
inductive CredentialSource where
  | environment (name : String)
  | file (path : String)
  deriving DecidableEq

/-- The fields of `ConfigKey` that validation names. -/
inductive ConfigKey where
  | grpcBind
  | cacheDirectory
  | preloadModels
  | allowedOrigins
  | maxBodyBytes
  | maxInputBytes
  | maxRequestBytes
  | maxItems
  | maxTokens
  | maxQueueDepth
  | maxBatchItems
  | maxBatchTokens
  | maxConcurrency
  | requestTimeout
  | shutdownTimeout
  deriving DecidableEq, Repr

/-- The cases of `ConfigError` that validation returns. -/
inductive ConfigError where
  | unsafeRemoteBind
  | invalidAdminCredentialPolicy
  | invalidValue (key : ConfigKey) (reason : String)
  deriving DecidableEq, Repr

/-- `Limits`; times are in nanoseconds. -/
structure Limits where
  maxBodyBytes : Nat
  maxInputBytes : Nat
  maxRequestBytes : Nat
  maxItems : Nat
  maxTokens : Nat
  maxQueueDepth : Nat
  maxBatchItems : Nat
  maxBatchTokens : Nat
  maxConcurrency : Nat
  requestTimeout : Nat
  shutdownTimeout : Nat
  deriving DecidableEq, Repr

/-- `ServerConfig`, with the fields that validation and `AppState::new` read. -/
structure ServerConfig where
  httpBind : SocketAddr
  grpcBind : SocketAddr
  allowInsecureRemote : Bool
  auth : Option CredentialSource
  adminAuth : Option CredentialSource
  adminApiEnabled : Bool
  allowedOrigins : List String
  cacheDirectory : String
  preloadModels : List String
  limits : Limits
  deriving DecidableEq

/-- What `valid_origin` reads of a parsed URL. -/
structure OriginUrl where
  scheme : String
  host : Option String
  username : String
  password : Option String
  path : String
  query : Option String
  fragment : Option String
  /-- `origin()` is a tuple origin. -/
  tupleOrigin : Bool
  /-- `origin().ascii_serialization()`. -/
  serialization : String
  deriving DecidableEq

/-- What one reading of a credential file observes; an absent field is an error of the system
call. -/
structure SecretFile where
  /-- `is_safe_regular_file` and the length when the file was opened. -/
  initial : Option (Bool × Nat)
  /-- The bytes read, up to one more than the limit. -/
  content : Option (List UInt8)
  /-- `is_safe_regular_file` and the length after the reading. -/
  final : Option (Bool × Nat)

/-- `CredentialError`. -/
inductive CredentialError where
  | unavailable
  | invalid
  deriving DecidableEq, Repr

/-- What the server finds outside when it starts. -/
structure Host where
  /-- An environment variable, as `to_string_lossy` gives it. -/
  environment : String → Option (List UInt8)
  /-- Opening a credential file without following links. -/
  openSecret : String → Except CredentialError SecretFile
  /-- `Url::parse`. -/
  parseOrigin : String → Option OriginUrl
  /-- `EmbeddingApplication::new` succeeds. -/
  applicationStarts : ServerConfig → Bool

/-- The check `if condition { return Err(error) }` of the configuration. -/
def refuseIf (condition : Bool) (error : ConfigError) : Except ConfigError Unit :=
  if condition then .error error else .ok ()

/-- A check that passes has a false condition. -/
theorem refuse_if_ok {condition : Bool} {error : ConfigError} {result : Unit}
    (h : refuseIf condition error = .ok result) : condition = false := by
  cases condition with
  | false => rfl
  | true => cases h

/-- The table of `validate_bounds`: the key, the value and the supported range. -/
def Limits.bounds (limits : Limits) : List (ConfigKey × Nat × Nat × Nat) :=
  let mib := 1024 * 1024
  [(.maxBodyBytes, limits.maxBodyBytes, 1, 64 * mib),
    (.maxInputBytes, limits.maxInputBytes, 1, 64 * mib),
    (.maxRequestBytes, limits.maxRequestBytes, 1, 64 * mib),
    (.maxItems, limits.maxItems, 1, 4096),
    (.maxTokens, limits.maxTokens, 1, 1000000),
    (.maxQueueDepth, limits.maxQueueDepth, 1, 100000),
    (.maxBatchItems, limits.maxBatchItems, 1, 4096),
    (.maxBatchTokens, limits.maxBatchTokens, 1, 10000000),
    (.maxConcurrency, limits.maxConcurrency, 1, 1024),
    (.requestTimeout, limits.requestTimeout, 10000000, 600000000000),
    (.shutdownTimeout, limits.shutdownTimeout, 10000000, 600000000000)]

/-- `validate_bounds`. -/
def validateBounds (limits : Limits) : Except ConfigError Unit := do
  limits.bounds.forM fun (key, value, min, max) =>
    refuseIf (value < min || max < value) (.invalidValue key "outside supported bounds")
  refuseIf (limits.maxBatchItems < limits.maxItems)
    (.invalidValue .maxBatchItems "must be at least limits.max_items")
  refuseIf (limits.maxRequestBytes < limits.maxInputBytes)
    (.invalidValue .maxRequestBytes "must be at least limits.max_input_bytes")
  refuseIf (limits.maxBodyBytes < limits.maxRequestBytes)
    (.invalidValue .maxRequestBytes "must not exceed limits.max_body_bytes")
  refuseIf (limits.maxBatchTokens < limits.maxTokens)
    (.invalidValue .maxBatchTokens "must be at least limits.max_tokens")

/-- `valid_origin`. -/
def validOrigin (host : Host) (origin : String) : Bool :=
  if origin.isEmpty || origin.toList.contains '*' then false
  else
    match host.parseOrigin origin with
    | none => false
    | some url =>
        (url.scheme = "http" || url.scheme = "https") && url.host.isSome && url.username = "" &&
          url.password.isNone && url.path = "/" && url.query.isNone && url.fragment.isNone &&
          url.tupleOrigin && url.serialization = origin

/-- `char::is_control`: Unicode category Cc. -/
def isControl (c : Char) : Bool :=
  c.toNat < 0x20 || (0x7F ≤ c.toNat && c.toNat < 0xA0)

/-- The loop over `preload_models`: blank, long or repeated names and control characters. -/
def invalidPreloads : List String → List String → Bool
  | _, [] => false
  | seen, model :: rest =>
      isBlank model || 512 < (model.toList.map Char.utf8Size).sum ||
        model.toList.any isControl || seen.contains model || invalidPreloads (model :: seen) rest

/-- A listener is bound to an address other hosts can reach. -/
def ServerConfig.remotelyExposed (config : ServerConfig) : Bool :=
  !config.httpBind.ip.isLoopback || !config.grpcBind.ip.isLoopback

/-- `ServerConfig::validate`. -/
def ServerConfig.validate (host : Host) (config : ServerConfig) : Except ConfigError Unit := do
  refuseIf (config.remotelyExposed && config.auth.isNone && !config.allowInsecureRemote)
    .unsafeRemoteBind
  refuseIf
    ((config.adminAuth.isSome && config.adminAuth = config.auth) ||
      (config.remotelyExposed && config.adminApiEnabled && config.adminAuth.isNone))
    .invalidAdminCredentialPolicy
  refuseIf (config.httpBind = config.grpcBind)
    (.invalidValue .grpcBind "HTTP and gRPC listeners must use distinct addresses")
  refuseIf config.cacheDirectory.isEmpty
    (.invalidValue .cacheDirectory "cache directory must not be empty")
  refuseIf (invalidPreloads [] config.preloadModels)
    (.invalidValue .preloadModels
      "preload models must be unique, bounded, non-empty identifiers")
  validateBounds config.limits
  refuseIf (config.allowedOrigins.any fun origin => !validOrigin host origin)
    (.invalidValue .allowedOrigins
      "origins must be exact HTTP(S) origins without wildcards")

/-! ## Secrets -/

/-- `MAX_CREDENTIAL_BYTES`. -/
def maxCredentialBytes : Nat := 16 * 1024

/-- `Secret`: bytes that are not empty and not too many. -/
structure Secret where
  bytes : List UInt8
  nonempty : bytes ≠ []
  bounded : bytes.length ≤ maxCredentialBytes

/-- `read_secret_handle`. -/
def readSecretHandle (file : SecretFile) : Except CredentialError (List UInt8) :=
  match file.initial with
  | none => .error .unavailable
  | some (safe, length) =>
      if !safe || maxCredentialBytes < length then .error .invalid
      else
        match file.content with
        | none => .error .unavailable
        | some bytes =>
            match file.final with
            | none => .error .unavailable
            | some (safe, finalLength) =>
                if !safe || maxCredentialBytes < bytes.length || finalLength ≠ length ||
                    finalLength ≠ bytes.length then .error .invalid
                else .ok bytes

/-- The last byte is removed if it is the given one. -/
def popByte (byte : UInt8) (bytes : List UInt8) : List UInt8 :=
  if bytes.getLast? = some byte then bytes.dropLast else bytes

/-- `load_credential`. -/
def loadCredential (host : Host) (source : CredentialSource) : Except CredentialError Secret := do
  let bytes ← match source with
    | .environment name =>
        match host.environment name with
        | none => .error .unavailable
        | some bytes => .ok bytes
    | .file path => host.openSecret path >>= readSecretHandle
  let bytes := popByte 13 (popByte 10 bytes)
  if h : bytes = [] ∨ maxCredentialBytes < bytes.length then .error .invalid
  else .ok ⟨bytes, fun hnil => h (.inl hnil), Nat.le_of_not_lt fun hlong => h (.inr hlong)⟩

/-- `constant_time_eq`: the differences of the lengths and of all bytes are collected. -/
def constantTimeEq (expected candidate : List UInt8) : Bool :=
  (List.range (max expected.length candidate.length)).foldl
    (fun difference index =>
      difference ||| (expected.getD index 0 ^^^ candidate.getD index 0).toNat)
    (expected.length ^^^ candidate.length) = 0

/-- `Secret::verify`. -/
def Secret.verify (secret : Secret) (candidate : List UInt8) : Bool :=
  constantTimeEq secret.bytes candidate

/-- `verify_distinct_credentials`. -/
def verifyDistinctCredentials (publicSecret adminSecret : Secret) : Except CredentialError Unit :=
  if publicSecret.verify adminSecret.bytes then .error .invalid else .ok ()

/-- The collected difference is zero exactly when every single one is. -/
theorem foldl_or_eq_zero {α : Type} (f : α → Nat) (items : List α) (start : Nat) :
    items.foldl (fun difference item => difference ||| f item) start = 0 ↔
      start = 0 ∧ ∀ item ∈ items, f item = 0 := by
  induction items generalizing start with
  | nil => simp
  | cons item rest ih =>
      rw [List.foldl_cons, ih, Nat.or_eq_zero_iff, List.forall_mem_cons, and_assoc]

/-- The exclusive or of two numbers is zero exactly when they are equal. -/
theorem xor_eq_zero_iff_eq {left right : Nat} : left ^^^ right = 0 ↔ left = right := by
  constructor
  · intro h
    have hcancel : left ^^^ right ^^^ right = 0 ^^^ right := by rw [h]
    rwa [Nat.xor_assoc, Nat.xor_self, Nat.xor_zero, Nat.zero_xor] at hcancel
  · rintro rfl
    exact Nat.xor_self left

/-- The comparison holds exactly for equal byte strings, of whatever lengths. -/
theorem constant_time_eq_iff (expected candidate : List UInt8) :
    constantTimeEq expected candidate = true ↔ expected = candidate := by
  unfold constantTimeEq
  rw [decide_eq_true_eq, foldl_or_eq_zero, xor_eq_zero_iff_eq]
  constructor
  · rintro ⟨hlength, hbytes⟩
    apply List.ext_getElem hlength
    intro index hleft hright
    have hindex : index ∈ List.range (max expected.length candidate.length) := by
      rw [List.mem_range]
      omega
    have hbyte := hbytes index hindex
    rw [List.getD_eq_getElem _ _ hleft, List.getD_eq_getElem _ _ hright] at hbyte
    have hxor : expected[index] ^^^ candidate[index] = 0 := UInt8.toNat_inj.mp hbyte
    exact UInt8.xor_eq_zero_iff.mp hxor
  · rintro rfl
    exact ⟨rfl, by simp⟩

/-- A secret accepts exactly its own bytes. -/
theorem Secret.verify_iff (secret : Secret) (candidate : List UInt8) :
    secret.verify candidate = true ↔ candidate = secret.bytes := by
  rw [Secret.verify, constant_time_eq_iff, eq_comm]

/-! ## The process state -/

/-- `AppStateError`; the payload of an application error is not inspected here. -/
inductive AppStateError where
  | configuration
  | credential (error : CredentialError)
  | application
  deriving DecidableEq, Repr

/-- `AppState`, with the fields that access control reads. -/
structure AppState where
  publicCredential : Option Secret
  adminCredential : Option Secret
  allowedOrigins : List String
  adminApiEnabled : Bool

/-- `source.map(load_credential).transpose()`. -/
def loadOptional (host : Host) : Option CredentialSource → Except AppStateError (Option Secret)
  | none => .ok none
  | some source => (loadCredential host source).map some |>.mapError .credential

/-- The comparison of two loaded credentials. -/
def checkDistinct : Option Secret → Option Secret → Except AppStateError Unit
  | some publicSecret, some adminSecret =>
      (verifyDistinctCredentials publicSecret adminSecret).mapError .credential
  | _, _ => .ok ()

/-- `AppState::new`. -/
def AppState.new (host : Host) (config : ServerConfig) : Except AppStateError AppState := do
  (config.validate host).mapError fun _ => .configuration
  let publicCredential ← loadOptional host config.auth
  let adminCredential ← loadOptional host config.adminAuth
  checkDistinct publicCredential adminCredential
  if host.applicationStarts config then
    .ok ⟨publicCredential, adminCredential, config.allowedOrigins, config.adminApiEnabled⟩
  else .error .application

/-- `AppState::public_auth_required`. -/
def AppState.publicAuthRequired (state : AppState) : Bool :=
  state.publicCredential.isSome

/-- `AppState::admin_auth_required`. -/
def AppState.adminAuthRequired (state : AppState) : Bool :=
  state.adminCredential.isSome

/-- `AppState::metrics_credential`. -/
def AppState.metricsCredential (state : AppState) : Option Secret :=
  state.adminCredential.or state.publicCredential

/-- `AppState::metrics_auth_required`. -/
def AppState.metricsAuthRequired (state : AppState) : Bool :=
  state.metricsCredential.isSome

/-- `Option::is_none_or` with `Secret::verify`. -/
def acceptsToken (credential : Option Secret) (candidate : List UInt8) : Bool :=
  credential.all fun secret => secret.verify candidate

/-- `AppState::verify_public_token`. -/
def AppState.verifyPublicToken (state : AppState) (candidate : List UInt8) : Bool :=
  acceptsToken state.publicCredential candidate

/-- `AppState::verify_admin_token`. -/
def AppState.verifyAdminToken (state : AppState) (candidate : List UInt8) : Bool :=
  acceptsToken state.adminCredential candidate

/-- `AppState::verify_metrics_token`. -/
def AppState.verifyMetricsToken (state : AppState) (candidate : List UInt8) : Bool :=
  acceptsToken state.metricsCredential candidate

/-- What a state that started says about its configuration. -/
structure AppState.Started (host : Host) (config : ServerConfig) (state : AppState) : Prop where
  valid : config.validate host = .ok ()
  public_loaded : loadOptional host config.auth = .ok state.publicCredential
  admin_loaded : loadOptional host config.adminAuth = .ok state.adminCredential
  distinct : ∀ publicSecret adminSecret, state.publicCredential = some publicSecret →
    state.adminCredential = some adminSecret → publicSecret.bytes ≠ adminSecret.bytes
  admin_enabled : state.adminApiEnabled = config.adminApiEnabled

/-- The secrets of a pair that `verify_distinct_credentials` lets pass differ. -/
theorem verify_distinct_credentials_ok {publicSecret adminSecret : Secret} {result : Unit}
    (h : verifyDistinctCredentials publicSecret adminSecret = .ok result) :
    publicSecret.bytes ≠ adminSecret.bytes := by
  unfold verifyDistinctCredentials at h
  split at h
  · cases h
  · rename_i hverify
    intro heq
    exact hverify ((publicSecret.verify_iff _).mpr heq.symm)

/-- An error that is renamed is still an error. -/
theorem map_error_ok {ε δ α : Type} {first : Except ε α} {rename : ε → δ} {value : α}
    (h : first.mapError rename = .ok value) : first = .ok value := by
  cases first with
  | error error => cases h
  | ok result =>
      cases h
      rfl

/-- A successful `AppState::new` has passed every check. -/
theorem AppState.new_started {host : Host} {config : ServerConfig} {state : AppState}
    (h : AppState.new host config = .ok state) : state.Started host config := by
  simp only [AppState.new, Checked.bind_ok] at h
  obtain ⟨_, hvalid, publicCredential, hpublic, adminCredential, hadmin, _, hdistinct, h⟩ := h
  split at h
  · cases h
    refine ⟨map_error_ok hvalid, hpublic, hadmin, ?_, rfl⟩
    rintro publicSecret adminSecret rfl rfl
    exact verify_distinct_credentials_ok (map_error_ok hdistinct)
  · cases h

end EmbeddingServer
