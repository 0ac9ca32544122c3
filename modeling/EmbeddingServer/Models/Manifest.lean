import EmbeddingServer.Core.Contract
import Mathlib.Data.List.Dedup

/-!
# Model manifests

`manifest.rs` and the fingerprints of `store.rs`: the immutable description of one model
revision, its validation, its two fingerprints and its JSON form. Validation reports the
first violated rule with the message of the source.

SHA-256, the JSON encoder and decoder and the URL parser are code of other crates. They
are the fields of `External`; a result that depends on how they behave says so in its
hypotheses.
-/

namespace EmbeddingServer

/-- Kinds of `std::io::Error` that the store tells apart. -/
inductive IoError where
  | notFound
  | alreadyExists
  | wouldBlock
  | other
  deriving DecidableEq, Repr

/-- `HttpFailureKind`. -/
inductive HttpFailureKind where
  | connect
  | body
  | timeout
  | request
  | decode
  | other
  deriving DecidableEq, Repr

/-- `Error` of `impossible-models`. The payload of a JSON error is not inspected anywhere. -/
inductive Error where
  | invalid (message : String)
  | cancelled
  | offline
  | inUse
  | busy
  | originNotAllowed (origin : String)
  | sizeLimit (expected actual : Nat)
  | hashMismatch (expected actual : String)
  | io (kind : IoError)
  | http (kind : HttpFailureKind)
  | json
  deriving DecidableEq, Repr

/-- `License`. -/
structure License where
  spdx : String
  sourceUrl : String
  deriving DecidableEq, Repr

/-- `SemanticVerification`. -/
inductive SemanticVerification where
  | verified (evidence : String)
  | unverified (reason : String)
  deriving DecidableEq, Repr

/-- `TokenizerMetadata`. -/
structure TokenizerMetadata where
  kind : String
  maxTokens : UInt32
  lowercase : Bool
  deriving DecidableEq, Repr

/-- `Pooling`. -/
inductive Pooling where
  | cls
  | mean
  | lastToken
  deriving DecidableEq, Repr

/-- `Prefixes`. -/
structure Prefixes where
  query : String
  document : String
  deriving DecidableEq, Repr

/-- `Dimensions`. -/
structure Dimensions where
  native : UInt32
  matryoshka : List UInt32
  deriving DecidableEq, Repr

/-- `TensorMetadata`. -/
structure TensorMetadata where
  format : String
  dtype : String
  architecture : String
  deriving DecidableEq, Repr

/-- `OnnxInputNames`. -/
structure OnnxInputNames where
  inputIds : String
  attentionMask : Option String
  tokenTypeIds : Option String
  deriving DecidableEq, Repr

/-- `RuntimeMetadata`. -/
inductive RuntimeMetadata where
  | catalogOnly
  | onnx (modelFile tokenizerFile : String) (inputs : OnnxInputNames) (output : String)
      (padTokenId : UInt32) (normalize : Bool)
  deriving DecidableEq, Repr

/-- `Artifact`. -/
structure Artifact where
  path : String
  url : String
  sha256 : String
  size : UInt64
  deriving DecidableEq, Repr

/-- `Manifest`. -/
structure Manifest where
  schemaVersion : UInt32
  canonicalId : String
  revision : String
  license : License
  semanticVerification : SemanticVerification
  tokenizer : TokenizerMetadata
  pooling : Pooling
  prefixes : Prefixes
  dimensions : Dimensions
  tensors : TensorMetadata
  runtime : RuntimeMetadata
  artifacts : List Artifact
  deriving DecidableEq, Repr

/-- What the code reads of a parsed `Url`. -/
structure Url where
  scheme : String
  host : Option String
  port : Option Nat
  username : String
  password : Option String
  /-- `origin().ascii_serialization()`. -/
  origin : String
  deriving DecidableEq, Repr

/-- `SemanticArtifact`: the fields of an artifact that belong to the inference contract. -/
structure SemanticArtifact where
  path : String
  sha256 : String
  size : UInt64
  deriving DecidableEq, Repr

/-- `SemanticContract`: what the semantic fingerprint covers. -/
structure SemanticContract where
  schemaVersion : UInt32
  canonicalId : String
  revision : String
  tokenizer : TokenizerMetadata
  pooling : Pooling
  prefixes : Prefixes
  dimensions : Dimensions
  tensors : TensorMetadata
  runtime : RuntimeMetadata
  artifacts : List SemanticArtifact
  deriving DecidableEq, Repr

/-- Code of other crates the models crate relies on. -/
structure External where
  /-- SHA-256 in lower-case hexadecimal. -/
  sha256 : List UInt8 → String
  /-- `serde_json::to_vec_pretty` of a manifest. -/
  encodeManifest : Manifest → List UInt8
  /-- `serde_json::from_slice` of a manifest. -/
  decodeManifest : List UInt8 → Option Manifest
  /-- `serde_json::to_vec` of the inference contract. -/
  encodeContract : SemanticContract → List UInt8
  /-- `Url::parse`. -/
  parseUrl : String → Option Url
  /-- `Url::join`. -/
  joinUrl : Url → String → Option Url

/-! ## Limits -/

/-- `SCHEMA_VERSION`. -/
def schemaVersion : UInt32 := 1

/-- `MAX_ARTIFACTS`. -/
def maxArtifacts : Nat := 64

/-- `MAX_TOTAL_ARTIFACT_BYTES` (16 GiB). -/
def maxTotalArtifactBytes : Nat := 16 * 1024 * 1024 * 1024

/-- `MAX_MANIFEST_BYTES`. -/
def maxManifestBytes : Nat := 1024 * 1024

/-- `MAX_METADATA_TEXT_BYTES`. -/
def maxMetadataTextBytes : Nat := 4 * 1024

/-- `MAX_URL_BYTES`. -/
def maxUrlBytes : Nat := 8 * 1024

/-- `MAX_TENSOR_NAME_BYTES`. -/
def maxTensorNameBytes : Nat := 256

/-- `MAX_MATRYOSHKA_DIMENSIONS`. -/
def maxMatryoshkaDimensions : Nat := 64

/-! ## Field checks -/

/-- The check `if condition { return Err(Error::Invalid(message)) }`. -/
def rejectIf (condition : Bool) (message : String) : Except Error Unit :=
  if condition then .error (.invalid message) else .ok ()

/-- `byte.is_ascii_alphanumeric() || matches!(byte, b'-' | b'_' | b'.')`. Every other byte of
a non-ASCII character fails the test, so testing characters is the same. -/
def isPathCharacter (c : Char) : Bool :=
  (c.isAlphanum) || c = '-' || c = '_' || c = '.'

/-- A lower-case hexadecimal digit. -/
def isLowerHex (c : Char) : Bool :=
  c.isDigit || ('a' ≤ c && c ≤ 'f')

/-- `value.split('/')`. -/
def splitSlash (value : String) : List (List Char) :=
  value.toList.splitOn '/'

/-- `str::len`, the length in bytes. -/
def byteLength (value : List Char) : Nat :=
  (value.map Char.utf8Size).sum

/-- `validate_id`. -/
def validateId (value : String) : Except Error Unit :=
  rejectIf
    (value.isEmpty || 200 < byteLength value.toList || value.toList.head? = some '/' ||
      value.toList.getLast? = some '/' ||
      (splitSlash value).any fun part =>
        part.isEmpty || part = ['.'] || part = ['.', '.'] || !part.all isPathCharacter)
    "canonical_id contains unsafe characters"

/-- The stems `is_windows_device_name` knows. -/
def windowsDeviceNames : List String :=
  ["CON", "PRN", "AUX", "NUL", "COM1", "COM2", "COM3", "COM4", "COM5", "COM6", "COM7", "COM8",
    "COM9", "LPT1", "LPT2", "LPT3", "LPT4", "LPT5", "LPT6", "LPT7", "LPT8", "LPT9"]

/-- `is_windows_device_name`. -/
def isWindowsDeviceName (component : List Char) : Bool :=
  (windowsDeviceNames.map String.toList).contains
    ((component.takeWhile (· ≠ '.')).map Char.toUpper)

/-- `std::path::Component` of a path spelled with slashes. -/
inductive PathComponent where
  | rootDir
  | curDir
  | parentDir
  | normal (name : List Char)
  deriving DecidableEq, Repr

/-- `Path::components`: a leading slash is the root, empty and inner `.` components are
skipped. -/
def pathComponents (value : String) : List PathComponent :=
  let parts := splitSlash value
  let first : List PathComponent :=
    if value.toList.head? = some '/' then [.rootDir]
    else if parts.head? = some ['.'] then [.curDir] else []
  first ++ parts.filterMap fun part =>
    if part = [] ∨ part = ['.'] then none
    else if part = ['.', '.'] then some .parentDir else some (.normal part)

/-- The component is `Component::Normal`. -/
def PathComponent.isNormal : PathComponent → Bool
  | .normal _ => true
  | _ => false

/-- `validate_relative_path` of `manifest.rs`. -/
def validateRelativePath (value : String) : Except Error Unit :=
  rejectIf
    (value.isEmpty || 1024 < byteLength value.toList || value.toList.contains '\\' ||
      value.toList.head? = some '/' || (pathComponents value).any (!·.isNormal) ||
      (splitSlash value).any fun component =>
        component.isEmpty || 255 < byteLength component || component.getLast? = some '.' ||
          component.getLast? = some ' ' || !component.all isPathCharacter ||
          isWindowsDeviceName component)
    "artifact path is unsafe"

/-- `is_path_ancestor`: the child continues the parent with a slash. -/
def isPathAncestor (parent child : List Char) : Bool :=
  parent.isPrefixOf child && (child.drop parent.length).head? = some '/'

/-- `str::to_ascii_lowercase`. -/
def toAsciiLowercase (value : String) : List Char :=
  value.toList.map Char.toLower

/-- A URL that may appear in a manifest only because it names the local host. -/
def Url.isLoopbackTest (url : Url) : Bool :=
  url.scheme = "http" && url.host.any fun host => ["127.0.0.1", "::1", "localhost"].contains host

section

variable (ext : External)

/-- One iteration of the loop of `validate_artifacts`; `paths` is the set of portable paths of
the artifacts before this one. -/
def validateArtifact (paths : List (List Char)) (artifact : Artifact) :
    Except Error (List (List Char)) := do
  validateRelativePath artifact.path
  let portablePath := toAsciiLowercase artifact.path
  rejectIf (portablePath = "manifest.json".toList)
    "manifest.json is reserved for the installed identity record"
  rejectIf (paths.contains portablePath) "artifact paths must be unique"
  rejectIf
    (paths.any fun existing =>
      isPathAncestor existing portablePath || isPathAncestor portablePath existing)
    "artifact paths cannot be ancestors of other artifacts"
  rejectIf (maxUrlBytes < byteLength artifact.url.toList)
    "artifact URL exceeds the supported length"
  let url ← match ext.parseUrl artifact.url with
    | some url => pure url
    | none => throw (.invalid "artifact URL is invalid")
  rejectIf
    ((url.scheme ≠ "https" && !url.isLoopbackTest) || url.host.isNone || url.username ≠ "" ||
      url.password.isSome)
    "artifact URL must use HTTPS (HTTP is allowed only for loopback tests) and contain no credentials"
  rejectIf
    (byteLength artifact.sha256.toList ≠ 64 || !artifact.sha256.toList.all isLowerHex ||
      artifact.size = 0)
    "artifact requires SHA-256 and non-zero size"
  pure (paths ++ [portablePath])

/-- `validate_artifacts`. -/
def validateArtifacts (artifacts : List Artifact) : Except Error Unit := do
  let _ ← artifacts.foldlM (validateArtifact ext) []

/-- `validate_bounded_fields`. -/
def validateBoundedFields (manifest : Manifest) : Except Error Unit := do
  let semanticText := match manifest.semanticVerification with
    | .verified evidence => evidence
    | .unverified reason => reason
  let metadataFields :=
    [manifest.license.spdx, semanticText, manifest.tokenizer.kind, manifest.prefixes.query,
      manifest.prefixes.document, manifest.tensors.format, manifest.tensors.dtype,
      manifest.tensors.architecture]
  rejectIf
    (metadataFields.any (fun field => maxMetadataTextBytes < byteLength field.toList) ||
      maxUrlBytes < byteLength manifest.license.sourceUrl.toList)
    "manifest metadata exceeds the supported length"
  match manifest.runtime with
  | .catalogOnly => pure ()
  | .onnx _ _ inputs output _ _ =>
      let tensorNames :=
        [some inputs.inputIds, inputs.attentionMask, inputs.tokenTypeIds, some output].filterMap id
      rejectIf (tensorNames.any fun name => maxTensorNameBytes < byteLength name.toList)
        "runtime tensor name exceeds the supported length"

/-- `validate_runtime`. -/
def validateRuntime : RuntimeMetadata → Except Error Unit
  | .catalogOnly => .ok ()
  | .onnx modelFile tokenizerFile inputs output _ _ => do
      validateRelativePath modelFile
      validateRelativePath tokenizerFile
      let declaredInputs :=
        [some inputs.inputIds, inputs.attentionMask, inputs.tokenTypeIds].filterMap id
      rejectIf
        (modelFile = tokenizerFile || isBlank inputs.inputIds || isBlank output ||
          declaredInputs.dedup.length ≠ declaredInputs.length ||
          inputs.attentionMask.any isBlank || inputs.tokenTypeIds.any isBlank)
        "ONNX runtime metadata is incomplete"

/-- `validate_runtime_artifacts`. -/
def validateRuntimeArtifacts (runtime : RuntimeMetadata) (artifacts : List Artifact) :
    Except Error Unit :=
  match runtime with
  | .catalogOnly => .ok ()
  | .onnx modelFile tokenizerFile _ _ _ _ =>
      rejectIf
        ([modelFile, tokenizerFile].any fun required =>
          !artifacts.any fun artifact => artifact.path = required)
        "ONNX runtime file is not declared as an artifact"

/-- The check of `Manifest::validate` on the declared dimensions. -/
def Dimensions.invalid (dimensions : Dimensions) : Bool :=
  dimensions.native = 0 || maxMatryoshkaDimensions < dimensions.matryoshka.length ||
    dimensions.matryoshka.any (fun value => value = 0 || dimensions.native ≤ value) ||
    (dimensions.matryoshka.zip dimensions.matryoshka.tail).any fun pair => pair.2 ≤ pair.1

/-- `Manifest::validate`. -/
def Manifest.validate (manifest : Manifest) : Except Error Unit := do
  rejectIf (manifest.schemaVersion ≠ EmbeddingServer.schemaVersion) "unsupported schema_version"
  validateId manifest.canonicalId
  validateBoundedFields manifest
  rejectIf
    (byteLength manifest.revision.toList ≠ 40 || !manifest.revision.toList.all isLowerHex)
    "revision must be a 40-character commit hash"
  rejectIf
    (isBlank manifest.license.spdx ||
      (ext.parseUrl manifest.license.sourceUrl).all fun url => url.scheme ≠ "https")
    "license metadata must contain SPDX id and HTTPS source"
  rejectIf (isBlank manifest.tokenizer.kind || manifest.tokenizer.maxTokens = 0)
    "tokenizer metadata is incomplete"
  rejectIf manifest.dimensions.invalid "invalid embedding dimensions"
  rejectIf
    (isBlank manifest.tensors.format || isBlank manifest.tensors.dtype ||
      isBlank manifest.tensors.architecture)
    "tensor metadata is incomplete"
  validateRuntime manifest.runtime
  match manifest.semanticVerification with
  | .verified evidence => rejectIf (isBlank evidence) "semantic verification evidence is empty"
  | .unverified reason => rejectIf (isBlank reason) "semantic verification reason is empty"
  rejectIf manifest.artifacts.isEmpty "manifest has no artifacts"
  rejectIf (maxArtifacts < manifest.artifacts.length) "manifest has too many artifacts"
  rejectIf
    ((Checked.trySum wordBits (manifest.artifacts.map (·.size.toNat))).all
      fun total => maxTotalArtifactBytes < total)
    "manifest aggregate artifact size exceeds the supported limit"
  validateArtifacts ext manifest.artifacts
  validateRuntimeArtifacts manifest.runtime manifest.artifacts

/-- `Manifest::semantics_verified`. -/
def Manifest.semanticsVerified (manifest : Manifest) : Bool :=
  match manifest.semanticVerification with
  | .verified _ => true
  | .unverified _ => false

/-- `Manifest::from_json`. -/
def Manifest.fromJson (bytes : List UInt8) : Except Error Manifest := do
  rejectIf (maxManifestBytes < bytes.length) "manifest exceeds the supported size"
  match ext.decodeManifest bytes with
  | none => throw .json
  | some manifest =>
      manifest.validate ext
      pure manifest

/-- `Manifest::to_json`. -/
def Manifest.toJson (manifest : Manifest) : Except Error (List UInt8) := do
  manifest.validate ext
  let encoded := ext.encodeManifest manifest
  rejectIf (maxManifestBytes < encoded.length) "manifest exceeds the supported size"
  pure encoded

/-! ## Fingerprints -/

/-- The canonical order of artifacts: by path, then digest, then size. -/
def artifactLe (left right : Artifact) : Bool :=
  if left.path ≠ right.path then left.path < right.path
  else if left.sha256 ≠ right.sha256 then left.sha256 < right.sha256
  else left.size ≤ right.size

/-- `artifacts.sort_by(…)`, a stable sort into the canonical order. -/
def canonicalArtifacts (manifest : Manifest) : List Artifact :=
  manifest.artifacts.mergeSort artifactLe

/-- The value that `Manifest::semantic_fingerprint` encodes. -/
def Manifest.semanticContract (manifest : Manifest) : SemanticContract :=
  { schemaVersion := manifest.schemaVersion
    canonicalId := manifest.canonicalId
    revision := manifest.revision
    tokenizer := manifest.tokenizer
    pooling := manifest.pooling
    prefixes := manifest.prefixes
    dimensions := manifest.dimensions
    tensors := manifest.tensors
    runtime := manifest.runtime
    artifacts := (canonicalArtifacts manifest).map fun artifact =>
      ⟨artifact.path, artifact.sha256, artifact.size⟩ }

/-- The digest part of `Manifest::semantic_fingerprint`, without the `sha256:` in front that
`CacheLayout::key` takes off again. -/
def Manifest.semanticDigest (manifest : Manifest) : String :=
  ext.sha256 (ext.encodeContract manifest.semanticContract)

/-- `Manifest::semantic_fingerprint`. -/
def Manifest.semanticFingerprint (manifest : Manifest) : Except Error String := do
  manifest.validate ext
  pure ("sha256:" ++ manifest.semanticDigest ext)

/-- `u64::to_le_bytes`. -/
def littleEndian (value : UInt64) : List UInt8 :=
  (List.range 8).map fun index => (value >>> (8 * index).toUInt64).toUInt8

/-- The bytes `artifact_fingerprint` feeds to the digest. -/
def Manifest.artifactFingerprintInput (manifest : Manifest) : List UInt8 :=
  manifest.canonicalId.toUTF8.toList ++ [0] ++ manifest.revision.toUTF8.toList ++
    (canonicalArtifacts manifest).flatMap fun artifact =>
      [0] ++ artifact.path.toUTF8.toList ++ [0] ++ artifact.sha256.toUTF8.toList ++ [0] ++
        littleEndian artifact.size

/-- `artifact_fingerprint`. -/
def Manifest.artifactFingerprint (manifest : Manifest) : String :=
  "sha256:" ++ ext.sha256 manifest.artifactFingerprintInput

end

/-- `ModelStatus`. -/
inductive ModelStatus where
  | missing
  | invalid
  | integrityVerified
  | loadable
  deriving DecidableEq, Repr

/-- `matches!(status, ModelStatus::IntegrityVerified | ModelStatus::Loadable)`. -/
def ModelStatus.isInstalled : ModelStatus → Bool
  | .integrityVerified => true
  | .loadable => true
  | _ => false

/-! ## A concrete manifest

The manifest of the store's transaction tests with the one-byte artifact `a`, and stand-ins
for the external code that tell the manifests they are given apart. -/

/-- `local_manifest(b"a")`. -/
def Manifest.fixture : Manifest :=
  { schemaVersion := 1
    canonicalId := "tests/store-transaction"
    revision := "0123456789abcdef0123456789abcdef01234567"
    license := ⟨"MIT", "https://example.invalid/license"⟩
    semanticVerification := .verified "store transaction fixture"
    tokenizer := ⟨"fixture", 8, false⟩
    pooling := .mean
    prefixes := ⟨"", ""⟩
    dimensions := ⟨2, []⟩
    tensors := ⟨"fixture", "bytes", "identity"⟩
    runtime := .catalogOnly
    artifacts := [
      { path := "weights/model.bin"
        url := "https://example.invalid/model"
        sha256 := "ca978112ca1bbdcafac231b39a23dc4da786eff8147c4e72b9807785afee48bb"
        size := 1 }] }

/-- The bytes of an ASCII text. -/
def asciiBytes (text : String) : List UInt8 :=
  text.toList.map fun c => c.toNat.toUInt8

/-- The record `External.fixture` writes for a manifest. -/
def Manifest.fixtureRecord (manifest : Manifest) : List UInt8 :=
  asciiBytes (manifest.canonicalId ++ " " ++ manifest.license.spdx)

/-- External code that knows the given manifests and the digest of the byte `a`. -/
def External.fixture (known : List Manifest) : External where
  sha256 bytes :=
    if bytes = [0x61] then "ca978112ca1bbdcafac231b39a23dc4da786eff8147c4e72b9807785afee48bb"
    else String.ofList (bytes.map fun byte => Char.ofNat byte.toNat)
  encodeManifest := Manifest.fixtureRecord
  decodeManifest bytes := known.find? fun manifest => manifest.fixtureRecord = bytes
  encodeContract contract := asciiBytes contract.canonicalId
  parseUrl _ :=
    some ⟨"https", some "example.invalid", some 443, "", none, "https://example.invalid"⟩
  joinUrl _ _ := none

/-- Validation uses external code for URLs only. -/
theorem Manifest.validate_congr {ext other : External} (h : ext.parseUrl = other.parseUrl)
    (manifest : Manifest) : manifest.validate ext = manifest.validate other := by
  have hartifact : validateArtifact ext = validateArtifact other := by
    funext paths artifact
    rw [validateArtifact, validateArtifact, h]
  rw [Manifest.validate, Manifest.validate, validateArtifacts, validateArtifacts, hartifact, h]

/-- The manifest is valid with any external code that reads URLs as the stand-in does. -/
theorem Manifest.validate_fixture {ext : External}
    (h : ext.parseUrl = (External.fixture []).parseUrl) :
    Manifest.fixture.validate ext = .ok () := by
  rw [validate_congr h]
  decide

/-- The stand-in reads the record of the manifest it knows first. -/
theorem Manifest.from_json_fixture (known : List Manifest) :
    Manifest.fromJson (.fixture (.fixture :: known)) Manifest.fixture.fixtureRecord =
      .ok .fixture := by
  have hread :
      (External.fixture (.fixture :: known)).decodeManifest Manifest.fixture.fixtureRecord =
      some .fixture := by
    simp [External.fixture]
  have hshort : decide (maxManifestBytes < Manifest.fixture.fixtureRecord.length) = false := by
    decide
  rw [Manifest.fromJson, hshort, hread]
  exact congrArg (· >>= fun _ => pure Manifest.fixture) (Manifest.validate_fixture rfl)

end EmbeddingServer
