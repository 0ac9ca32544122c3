import EmbeddingServer.Models.Trust
import EmbeddingServer.Onnx.ExternalData
import EmbeddingServer.Onnx.RowLocality
import Mathlib.Data.Finset.Card
import Mathlib.Data.Finset.Dedup

/-!
# Loading of a verified model

`load_candidate` as a program over the file system, which anyone may change between two of its
primitives. The crates that parse the tokenizer and the graph are parameters. What a candidate
that was loaded is worth is `load_candidate_sound`: it comes from the bytes that the manifest pins,
it is what its identity says, and its graph takes exactly the tensors that `run` will feed.
-/

namespace EmbeddingServer

open Program

/-! ## The graph of a session -/

/-- `TensorElementType`; the other types by their numbers. -/
inductive TensorElementType where
  | int64
  | float32
  | other (code : Nat)
  deriving DecidableEq, Repr

/-- `ValueType`: a tensor with its declared shape, where a negative extent is dynamic, or not a
tensor. -/
inductive ValueType where
  | tensor (ty : TensorElementType) (shape : List Int)
  | other
  deriving DecidableEq, Repr

/-- `Input` and `Output`. -/
structure GraphValue where
  name : String
  type : ValueType
  deriving DecidableEq, Repr

/-- A committed session: what its graph declares, and `run`. -/
structure GraphSession where
  inputs : List GraphValue
  outputs : List GraphValue
  run : Session

/-- The input names of a contract, in the order of `run`. -/
def OnnxContract.inputNames (contract : OnnxContract) : List String :=
  [some contract.inputs.inputIds, contract.inputs.attentionMask,
    contract.inputs.tokenTypeIds].filterMap id

/-- `u32::try_from` of an `i64`. -/
def tryU32 (value : Int) : Option UInt32 :=
  if 0 ≤ value ∧ value < 2 ^ 32 then some (UInt32.ofNat value.toNat) else none

/-- The check on an input of the graph. -/
def validInput : ValueType → Bool
  | .tensor ty shape => ty = .int64 && shape.length = 2
  | .other => false

/-- The check on the output of the contract. -/
def validOutput (native : UInt32) : ValueType → Bool
  | .tensor ty shape =>
      ty = .float32 && (shape.length = 2 || shape.length = 3) &&
        shape.getLast?.any fun hidden => hidden < 0 || tryU32 hidden = some native
  | .other => false

/-- `validate_graph_contract`. -/
def validateGraphContract (contract : OnnxContract) (graph : GraphSession) (native : UInt32) :
    Except EngineFailure Unit :=
  let availableInputs := (graph.inputs.map GraphValue.name).toFinset
  let requiredInputs := contract.inputNames.toFinset
  let hasExactInputs := availableInputs.card = graph.inputs.length &&
    requiredInputs.card = graph.inputs.length && availableInputs = requiredInputs
  let validInputs := hasExactInputs && graph.inputs.all fun input => validInput input.type
  let outputCount := (graph.outputs.filter fun output => output.name = contract.output).length
  let output := graph.outputs.find? fun output => output.name = contract.output
  let validOutput := outputCount = 1 && output.any fun output => validOutput native output.type
  if !validInputs || !validOutput then .error (.public .invalidRequest) else .ok ()

/-! ## `load_candidate` -/

/-- A fallible part of the engine over the file system. -/
abbrev EngineM := ExceptT EngineFailure (Program FsOp FsOp.Reply)

/-- `map_err`. -/
def orFail {α : Type} (failure : Error → EngineFailure) (body : StoreM α) : EngineM α :=
  ExceptT.mk (body.run >>= fun result => pure (result.mapError failure))

/-- `?` on a result. -/
def settle {α : Type} (result : Except EngineFailure α) : EngineM α :=
  ExceptT.mk (pure result)

/-- `VerifiedModel::revalidate_integrity`. -/
def VerifiedModel.revalidateIntegrity (store : ModelStore) (verified : VerifiedModel) :
    StoreM Unit := do
  let stored ← readContainedManifest store verified.root
  failIf (stored ≠ verified.manifest) (.invalid "stored manifest changed after verification")
  let intact ← verifyArtifacts store verified.root (pure false) stored.artifacts
  failIf (intact = false) (.invalid "artifact changed after verification")

/-- `Path::extension` of a relative path in normal form: what follows the last dot of its last
component, unless the component begins with it. -/
def pathExtension (relative : String) : Option (List Char) :=
  let file := ((splitSlash relative).getLast?.getD []).reverse
  match file.dropWhile (· ≠ '.') with
  | [] => none
  | [_] => none
  | _ => some (file.takeWhile (· ≠ '.')).reverse

/-- The crates around `load_candidate`. -/
structure LoadingCrates where
  crate : TokenizersCrate
  /-- The private diagnostics of a store error. -/
  describe : Error → String
  /-- `Tokenizer::from_bytes`. -/
  tokenizer : List UInt8 → Except String Tokenizer
  /-- `OnnxModelProbe::decode`. -/
  decode : List UInt8 → Except String OnnxModelProbe
  /-- `commit_from_memory`. -/
  commit : List UInt8 → Except String GraphSession
  /-- `CARGO_PKG_VERSION`. -/
  packageVersion : String

section

variable (crates : LoadingCrates) (store : ModelStore)

/-- `EngineFailure::with_source` for a store error. -/
def LoadingCrates.storeFailure (code : ErrorCode) (error : Error) : EngineFailure :=
  ⟨PublicError.forCode code, some (crates.describe error)⟩

/-- `safe_artifact_bytes`. -/
def safeArtifactBytes (verified : VerifiedModel) (relative : String) (extension : List Char) :
    EngineM (List UInt8) := do
  if pathExtension relative ≠ some extension then settle (.error (.public .invalidRequest))
  orFail (crates.storeFailure .modelUnavailable) (verified.artifactBytes store.ext relative)

/-- `onnx_contract`. -/
def onnxContract (manifest : Manifest) : Except EngineFailure (String × String × OnnxContract) :=
  match manifest.runtime with
  | .catalogOnly => .error (.public .modelUnavailable)
  | .onnx modelFile tokenizerFile inputs output padTokenId normalize =>
      .ok (modelFile, tokenizerFile, ⟨inputs, output, padTokenId, normalize⟩)

/-- `ResolvedModelIdentity::new`. -/
def ResolvedModelIdentity.new (identity : ResolvedModelIdentity) :
    Except EngineFailure ResolvedModelIdentity :=
  if [identity.canonicalId, identity.revision, identity.runtime, identity.artifactFingerprint,
      identity.semanticFingerprint].any isBlank then .error (.public .internal)
  else .ok identity

/-- The identity of a candidate. -/
def resolveIdentity (manifest : Manifest) : Except EngineFailure ResolvedModelIdentity := do
  let semanticFingerprint ←
    (manifest.semanticFingerprint store.ext).mapError (crates.storeFailure .internal)
  ResolvedModelIdentity.new
    { canonicalId := manifest.canonicalId
      revision := manifest.revision
      runtime := "onnx-runtime@" ++ crates.packageVersion
      artifactFingerprint := manifest.artifactFingerprint store.ext
      semanticFingerprint := semanticFingerprint }

/-- `OnnxEmbeddingEngine::load_candidate`. -/
def loadCandidate (verified : VerifiedModel) : EngineM (LoadedModel × GraphSession) := do
  orFail (crates.storeFailure .modelUnavailable) (verified.revalidateIntegrity store)
  let manifest := verified.manifest
  let (modelFile, tokenizerFile, contract) ← settle (onnxContract manifest)
  let modelBytes ← safeArtifactBytes crates store verified modelFile ['o', 'n', 'n', 'x']
  settle (rejectExternalDataGraph crates.decode modelBytes)
  let tokenizerBytes ← safeArtifactBytes crates store verified tokenizerFile ['j', 's', 'o', 'n']
  let parsed ← settle (mapFailure (privateError .modelUnavailable "tokenizer parse")
    (crates.tokenizer tokenizerBytes))
  let (tokenizer, truncating) ←
    settle (loadTokenizers crates.crate parsed manifest.tokenizer.maxTokens.toNat)
  let session ← settle (mapFailure (privateError .modelUnavailable "ONNX load")
    (crates.commit modelBytes))
  settle (validateGraphContract contract session manifest.dimensions.native)
  orFail (crates.storeFailure .modelUnavailable) (verified.revalidateIntegrity store)
  let identity ← settle (resolveIdentity crates store manifest)
  return (⟨manifest, contract, tokenizer, truncating, identity⟩, session)

end

/-! ## The contract of the graph -/

/-- The graph takes exactly the named tensors and gives one output that can hold the vectors. -/
structure GraphSession.Fits (graph : GraphSession) (contract : OnnxContract) (native : UInt32) :
    Prop where
  inputs_perm : (graph.inputs.map GraphValue.name).Perm contract.inputNames
  inputs_type : ∀ input ∈ graph.inputs, ∃ shape, input.type = .tensor .int64 shape ∧
    shape.length = 2
  output : ∃ output shape hidden,
    (graph.outputs.filter fun output => output.name = contract.output) = [output] ∧
      output.type = .tensor .float32 shape ∧ (shape.length = 2 ∨ shape.length = 3) ∧
      shape.getLast? = some hidden ∧ (hidden < 0 ∨ hidden = native.toNat)

theorem try_u32_eq_some {value : Int} {word : UInt32} :
    tryU32 value = some word ↔ value = word.toNat := by
  have hword := word.toNat_lt
  unfold tryU32
  constructor
  · intro h
    split at h
    · rename_i hrange
      rw [Option.some.injEq] at h
      have hsmall : value.toNat < UInt32.size := by
        show value.toNat < 4294967296
        omega
      rw [← h, UInt32.toNat_ofNat_of_lt' hsmall]
      omega
    · cases h
  · intro h
    have hrange : 0 ≤ value ∧ value < 2 ^ 32 := by omega
    rw [if_pos hrange, h, Int.toNat_natCast, UInt32.ofNat_toNat]

theorem valid_input_iff {type : ValueType} :
    validInput type = true ↔ ∃ shape, type = .tensor .int64 shape ∧ shape.length = 2 := by
  unfold validInput
  split
  · rename_i ty shape
    rw [Bool.and_eq_true, decide_eq_true_eq, decide_eq_true_eq]
    constructor
    · intro h
      exact ⟨shape, by rw [h.1], h.2⟩
    · intro h
      obtain ⟨shape', heq, hlength⟩ := h
      cases heq
      exact ⟨rfl, hlength⟩
  · exact ⟨nofun, nofun⟩

theorem valid_output_iff {native : UInt32} {type : ValueType} :
    validOutput native type = true ↔ ∃ shape hidden, type = .tensor .float32 shape ∧
      (shape.length = 2 ∨ shape.length = 3) ∧ shape.getLast? = some hidden ∧
      (hidden < 0 ∨ hidden = native.toNat) := by
  unfold validOutput
  split
  · rename_i ty shape
    simp only [Bool.and_eq_true, Bool.or_eq_true, decide_eq_true_eq, Option.any_eq_true,
      try_u32_eq_some]
    constructor
    · intro h
      obtain ⟨⟨rfl, hrank⟩, hidden, hlast, hextent⟩ := h
      exact ⟨shape, hidden, rfl, hrank, hlast, hextent⟩
    · intro h
      obtain ⟨shape', hidden, heq, hrank, hlast, hextent⟩ := h
      cases heq
      exact ⟨⟨rfl, hrank⟩, hidden, hlast, hextent⟩
  · exact ⟨nofun, nofun⟩

/-- The names of the graph are those of the contract, if these differ from each other. -/
theorem exact_inputs_iff {available required : List String} (hnodup : required.Nodup) :
    (available.toFinset.card = available.length ∧ required.toFinset.card = available.length ∧
        available.toFinset = required.toFinset) ↔ available.Perm required := by
  constructor
  · intro h
    have hdistinct : available.Nodup := by
      rw [← List.dedup_eq_self]
      exact (List.dedup_sublist available).eq_of_length (by rw [← List.card_toFinset, h.1])
    exact List.perm_of_nodup_nodup_toFinset_eq hdistinct hnodup h.2.2
  · intro h
    have hdistinct : available.Nodup := h.nodup_iff.mpr hnodup
    have hsets : available.toFinset = required.toFinset := List.toFinset_eq_of_perm _ _ h
    rw [← hsets]
    exact ⟨List.toFinset_card_of_nodup hdistinct, List.toFinset_card_of_nodup hdistinct, rfl⟩

/-- The output of the contract is found exactly once. -/
theorem output_found_iff {outputs : List GraphValue} {name : String}
    {accepts : GraphValue → Bool} :
    ((outputs.filter fun output => output.name = name).length = 1 ∧
        ((outputs.find? fun output => output.name = name).any accepts) = true) ↔
      ∃ output, (outputs.filter fun output => output.name = name) = [output] ∧
        accepts output = true := by
  rw [← List.head?_filter, List.length_eq_one_iff]
  constructor
  · intro h
    obtain ⟨⟨output, hfilter⟩, haccepts⟩ := h
    rw [hfilter] at haccepts
    exact ⟨output, hfilter, by simpa using haccepts⟩
  · intro h
    obtain ⟨output, hfilter, haccepts⟩ := h
    rw [hfilter]
    exact ⟨⟨output, rfl⟩, by simpa using haccepts⟩

/-- The graphs that are accepted for a contract with distinct input names. -/
theorem validate_graph_contract_ok_iff {contract : OnnxContract} {graph : GraphSession}
    {native : UInt32} (hnodup : contract.inputNames.Nodup) :
    validateGraphContract contract graph native = .ok () ↔ graph.Fits contract native := by
  have hinputs := @exact_inputs_iff (graph.inputs.map GraphValue.name) _ hnodup
  have houtput := @output_found_iff graph.outputs contract.output
    fun output => validOutput native output.type
  rw [List.length_map] at hinputs
  unfold validateGraphContract
  dsimp only
  constructor
  · intro h
    split at h
    · cases h
    · rename_i hvalid
      simp only [Bool.or_eq_true, Bool.not_eq_true', not_or, Bool.not_eq_false, Bool.and_eq_true,
        decide_eq_true_eq, List.all_eq_true, valid_input_iff] at hvalid
      obtain ⟨⟨⟨⟨hcount, hrequired⟩, hsame⟩, htypes⟩, hfound⟩ := hvalid
      obtain ⟨output, hfilter, haccepts⟩ := houtput.mp hfound
      obtain ⟨shape, hidden, htype, hrank, hlast, hextent⟩ := valid_output_iff.mp haccepts
      exact
        { inputs_perm := hinputs.mp ⟨hcount, hrequired, hsame⟩
          inputs_type := htypes
          output := ⟨output, shape, hidden, hfilter, htype, hrank, hlast, hextent⟩ }
  · intro h
    obtain ⟨output, shape, hidden, hfilter, htype⟩ := h.output
    obtain ⟨hcount, hrequired, hsame⟩ := hinputs.mpr h.inputs_perm
    have hfound := houtput.mpr ⟨output, hfilter, valid_output_iff.mpr ⟨shape, hidden, htype⟩⟩
    rw [if_neg]
    simp only [Bool.or_eq_true, Bool.not_eq_true', not_or, Bool.not_eq_false, Bool.and_eq_true,
      decide_eq_true_eq, List.all_eq_true, valid_input_iff]
    exact ⟨⟨⟨⟨hcount, hrequired⟩, hsame⟩, h.inputs_type⟩, hfound⟩

/-! ## What a candidate has passed -/

section

/-- `?` lets a result through. -/
theorem returns_settle {α : Type} {result : Except EngineFailure α} {value : α}
    (h : Returns respond (settle result).run (.ok value)) : result = .ok value := by
  have hrun : Returns respond (.done result : Program FsOp FsOp.Reply (Except EngineFailure α))
      (.ok value) := h
  exact hrun.eq

/-- A value that a part of the store has returned. -/
theorem returns_or_fail {α : Type} {failure : Error → EngineFailure} {body : StoreM α} {value : α}
    (h : Returns respond (orFail failure body).run (.ok value)) :
    Returns respond body.run (.ok value) := by
  have hrun : Returns respond (body.run >>= fun result => pure (result.mapError failure))
      (.ok value) := h
  obtain ⟨result, hresult, hrest⟩ := hrun.bind
  have hmapped : Returns respond (.done (result.mapError failure) :
      Program FsOp FsOp.Reply (Except EngineFailure α)) (.ok value) := hrest
  cases result with
  | error error => cases hmapped.eq
  | ok first =>
      cases hmapped.eq
      exact hresult

variable {crates : LoadingCrates} {store : ModelStore} {verified : VerifiedModel}

/-- The bytes are pinned by the manifest under the path, which has the extension. -/
def Pinned (store : ModelStore) (manifest : Manifest) (path : String) (extension : List Char)
    (bytes : List UInt8) : Prop :=
  pathExtension path = some extension ∧ ∃ artifact ∈ manifest.artifacts, artifact.path = path ∧
    bytes.length = artifact.size.toNat ∧ store.ext.sha256 bytes = artifact.sha256

theorem safe_artifact_bytes_pinned {relative : String} {extension : List Char} {bytes : List UInt8}
    (h : Returns respond (safeArtifactBytes crates store verified relative extension).run
      (.ok bytes)) : Pinned store verified.manifest relative extension bytes := by
  unfold safeArtifactBytes at h
  dsimp only at h
  split at h
  · obtain ⟨_, hcheck, _⟩ := h.bind_e
    cases returns_settle hcheck
  · rename_i hextension
    exact ⟨not_not.mp hextension, artifact_bytes_pinned (returns_or_fail h)⟩

/-- A graph that passed the scan has no tensor outside its bytes. -/
theorem reject_external_data_graph_ok {decode : List UInt8 → Except String OnnxModelProbe}
    {bytes : List UInt8} (h : rejectExternalDataGraph decode bytes = .ok ()) :
    ∃ model, decode bytes = .ok model ∧ ∀ tensor, model.HasTensor tensor → ¬ tensor.External := by
  unfold rejectExternalDataGraph at h
  cases hdecode : decode bytes with
  | error error =>
      rw [hdecode] at h
      cases h
  | ok model =>
      rw [hdecode] at h
      dsimp only at h
      refine ⟨model, rfl, fun tensor htensor hexternal => ?_⟩
      have hfound := model.external_iff.mp ⟨tensor, htensor, hexternal⟩
      rw [← functions_use_external_data_iff _ (modelGraphs model)] at hfound
      have hpushed := (functions_use_external_data_eq model.functions (modelGraphs model)).2
      cases hscan : functionsUseExternalData model.functions (modelGraphs model) with
      | mk verdict graphs =>
          rw [hscan] at h hfound hpushed
          cases verdict with
          | true => cases h
          | false =>
              have hgraphs : graphs = _ := hpushed rfl
              have hloop := graphs_use_external_data_iff graphs
              rw [hgraphs] at hloop
              simp only [reach_iff_has_graph] at hloop
              rw [← hgraphs] at hloop
              rcases hfound with hfunction | hgraph
              · cases hfunction
              · dsimp only at h
                rw [if_pos (hloop.mpr hgraph)] at h
                cases h

/-- The parts of a runtime that `onnx_contract` hands out. -/
theorem onnx_contract_ok {manifest : Manifest} {modelFile tokenizerFile : String}
    {contract : OnnxContract}
    (h : onnxContract manifest = .ok (modelFile, tokenizerFile, contract)) :
    manifest.runtime = .onnx modelFile tokenizerFile contract.inputs contract.output
      contract.padTokenId contract.normalize := by
  unfold onnxContract at h
  split at h
  · cases h
  · rename_i hruntime
    cases h
    exact hruntime

/-- The input names of a valid manifest differ. -/
theorem Manifest.validate_input_names {ext : External} {manifest : Manifest}
    (hvalid : manifest.validate ext = .ok ()) {modelFile tokenizerFile : String}
    {contract : OnnxContract}
    (h : onnxContract manifest = .ok (modelFile, tokenizerFile, contract)) :
    contract.inputNames.Nodup := by
  simp only [Manifest.validate, Checked.bind_ok, reject_if_ok] at hvalid
  obtain ⟨_, _, _, _, _, _, _, _, _, _, _, _, _, _, _, _, _, hruntime, _⟩ := hvalid
  rw [onnx_contract_ok h] at hruntime
  simp only [validateRuntime, Checked.bind_ok, reject_if_ok] at hruntime
  obtain ⟨_, _, _, _, hnames⟩ := hruntime
  simp only [Bool.or_eq_false_iff, decide_eq_false_iff_not, not_not] at hnames
  have hdedup : contract.inputNames.dedup.length = contract.inputNames.length :=
    hnames.1.1.2
  rw [← List.dedup_eq_self]
  exact (List.dedup_sublist _).eq_of_length hdedup

/-- The graph answers as it declares: every output tensor is there, with the declared rank and the
extents that are not dynamic. -/
def GraphSession.Honours (graph : GraphSession) : Prop :=
  ∀ inputs lookup, graph.run inputs = .ok lookup → ∀ output ∈ graph.outputs, ∀ shape,
    output.type = .tensor .float32 shape → ∃ tensor : OutputTensor,
      lookup output.name = some tensor ∧ tensor.shape.length = shape.length ∧
      ∀ extent, shape.getLast? = some extent → 0 ≤ extent →
        tensor.shape.getLast? = some extent.toNat

/-- What a candidate is worth. -/
structure Candidate (crates : LoadingCrates) (store : ModelStore) (manifest : Manifest)
    (model : LoadedModel) (graph : GraphSession) : Prop where
  manifest_eq : model.manifest = manifest
  /-- The graph is the pinned one, and has no tensor outside it. -/
  graph_pinned : ∃ modelFile tokenizerFile bytes probe,
    manifest.runtime = .onnx modelFile tokenizerFile model.contract.inputs model.contract.output
      model.contract.padTokenId model.contract.normalize ∧
    Pinned store manifest modelFile ['o', 'n', 'n', 'x'] bytes ∧
    crates.commit bytes = .ok graph ∧ crates.decode bytes = .ok probe ∧
    ∀ tensor, probe.HasTensor tensor → ¬ tensor.External
  /-- The tokenizers are made out of the pinned one. -/
  tokenizer_pinned : ∃ modelFile tokenizerFile bytes tokenizer,
    manifest.runtime = .onnx modelFile tokenizerFile model.contract.inputs model.contract.output
      model.contract.padTokenId model.contract.normalize ∧
    Pinned store manifest tokenizerFile ['j', 's', 'o', 'n'] bytes ∧
    crates.tokenizer bytes = .ok tokenizer ∧ model.LoadedFrom store.ext crates.crate tokenizer
  fits : graph.Fits model.contract manifest.dimensions.native
  identity_eq : ∃ semanticFingerprint,
    manifest.semanticFingerprint store.ext = .ok semanticFingerprint ∧
    model.identity =
      { canonicalId := manifest.canonicalId
        revision := manifest.revision
        runtime := "onnx-runtime@" ++ crates.packageVersion
        artifactFingerprint := manifest.artifactFingerprint store.ext
        semanticFingerprint := semanticFingerprint }

/-- The identity of a candidate says where it comes from. -/
theorem resolve_identity_ok {manifest : Manifest} {identity : ResolvedModelIdentity}
    (h : resolveIdentity crates store manifest = .ok identity) :
    ∃ semanticFingerprint, manifest.semanticFingerprint store.ext = .ok semanticFingerprint ∧
      identity =
        { canonicalId := manifest.canonicalId
          revision := manifest.revision
          runtime := "onnx-runtime@" ++ crates.packageVersion
          artifactFingerprint := manifest.artifactFingerprint store.ext
          semanticFingerprint := semanticFingerprint } := by
  unfold resolveIdentity at h
  cases hfingerprint : manifest.semanticFingerprint store.ext with
  | error error =>
      rw [hfingerprint] at h
      cases h
  | ok fingerprint =>
      rw [hfingerprint] at h
      refine ⟨fingerprint, rfl, ?_⟩
      change ResolvedModelIdentity.new _ = .ok identity at h
      unfold ResolvedModelIdentity.new at h
      split at h
      · cases h
      · exact (Except.ok.inj h).symm

/-- A returned candidate of a valid manifest. -/
theorem load_candidate_candidate (hvalid : verified.manifest.validate store.ext = .ok ())
    {model : LoadedModel} {graph : GraphSession}
    (h : Returns respond (loadCandidate crates store verified).run (.ok (model, graph))) :
    Candidate crates store verified.manifest model graph := by
  unfold loadCandidate at h
  obtain ⟨_, _, h⟩ := h.bind_e
  obtain ⟨⟨modelFile, tokenizerFile, contract⟩, hcontract, h⟩ := h.bind_e
  dsimp only at h
  obtain ⟨modelBytes, hmodelBytes, h⟩ := h.bind_e
  obtain ⟨_, hscan, h⟩ := h.bind_e
  obtain ⟨tokenizerBytes, htokenizerBytes, h⟩ := h.bind_e
  obtain ⟨parsed, hparsed, h⟩ := h.bind_e
  obtain ⟨⟨tokenizer, truncating⟩, htokenizers, h⟩ := h.bind_e
  dsimp only at h
  obtain ⟨session, hsession, h⟩ := h.bind_e
  obtain ⟨_, hgraph, h⟩ := h.bind_e
  obtain ⟨_, _, h⟩ := h.bind_e
  obtain ⟨identity, hidentity, h⟩ := h.bind_e
  have hresult := @returns_settle _ (.ok (LoadedModel.mk verified.manifest contract tokenizer
    truncating identity, session)) _ h
  cases hresult
  have hcontract := returns_settle hcontract
  have hruntime := onnx_contract_ok hcontract
  obtain ⟨probe, hdecode, hinternal⟩ := reject_external_data_graph_ok (returns_settle hscan)
  exact
    { manifest_eq := rfl
      graph_pinned := ⟨modelFile, tokenizerFile, modelBytes, probe, hruntime,
        safe_artifact_bytes_pinned hmodelBytes, map_failure_ok.mp (returns_settle hsession),
        hdecode, hinternal⟩
      tokenizer_pinned := ⟨modelFile, tokenizerFile, tokenizerBytes, parsed, hruntime,
        safe_artifact_bytes_pinned htokenizerBytes, map_failure_ok.mp (returns_settle hparsed),
        ⟨hvalid, returns_settle htokenizers⟩⟩
      fits := (validate_graph_contract_ok_iff
        (Manifest.validate_input_names hvalid hcontract)).mp (returns_settle hgraph)
      identity_eq := resolve_identity_ok (returns_settle hidentity) }

/-- The names of the tensors that `run` feeds. -/
theorem session_inputs_names (model : LoadedModel) (encodings : List Encoding) :
    (sessionInputs model encodings).tensors.map Prod.fst = model.contract.inputNames := by
  obtain ⟨_, ⟨⟨ids, mask, types⟩, _, _, _⟩, _, _, _⟩ := model
  cases mask <;> cases types <;> rfl

/-- Each of them has a value for every position of the batch. -/
theorem session_inputs_length (model : LoadedModel) {encodings : List Encoding}
    {entry : String × List Int} (h : entry ∈ (sessionInputs model encodings).tensors) :
    entry.2.length =
      (sessionInputs model encodings).batch * (sessionInputs model encodings).sequence := by
  unfold sessionInputs at h ⊢
  dsimp only at h ⊢
  rw [List.mem_append, List.mem_append, List.mem_singleton, Option.mem_toList, Option.mem_toList,
    Option.map_eq_some_iff, Option.map_eq_some_iff] at h
  rcases h with (rfl | ⟨_, _, rfl⟩) | ⟨_, _, rfl⟩ <;> exact length_padded_tensor _ _

/-- An honest session gives the output that `run` looks up. -/
theorem GraphSession.Fits.output_given {graph : GraphSession} {contract : OnnxContract}
    {native : UInt32} (h : graph.Fits contract native) (hhonours : graph.Honours)
    {inputs : SessionInputs} {lookup : String → Option OutputTensor}
    (hrun : graph.run inputs = .ok lookup) :
    ∃ tensor, lookup contract.output = some tensor ∧
      (tensor.shape.length = 2 ∨ tensor.shape.length = 3) ∧
      (tensor.shape.getLast? = some native.toNat ∨ ∃ output ∈ graph.outputs, ∃ shape extent,
        output.type = .tensor .float32 shape ∧ shape.getLast? = some extent ∧ extent < 0) := by
  obtain ⟨output, shape, hidden, hfilter, htype, hrank, hlast, hextent⟩ := h.output
  have hmem : output ∈ graph.outputs.filter fun output => output.name = contract.output := by
    rw [hfilter]
    exact List.mem_singleton_self _
  rw [List.mem_filter, decide_eq_true_eq] at hmem
  obtain ⟨tensor, hlookup, hlength, hstatic⟩ :=
    hhonours inputs lookup hrun output hmem.1 shape htype
  rw [hmem.2] at hlookup
  refine ⟨tensor, hlookup, by rwa [hlength], ?_⟩
  rcases hextent with hdynamic | hnative
  · exact .inr ⟨output, hmem.1, shape, hidden, htype, hlast, hdynamic⟩
  · left
    have hgiven := hstatic hidden hlast (by omega)
    rwa [hnative, Int.toNat_natCast] at hgiven

/-- Loading is sound, whatever happens to the files meanwhile. A candidate that is loaded from a
capability of `verified_model` comes from the bytes that the manifest pins for its graph and its
tokenizer, its identity is that of the manifest, with a fingerprint of the trust root, and no part
of its graph lies outside these bytes. The tensors that `run` feeds are exactly the inputs of the
graph, each with a value for every position, and an honest session answers with the output that
`run` looks up. -/
theorem load_candidate_sound (crates : LoadingCrates) (store : ModelStore) (manifest : Manifest)
    (rounds : Nat) (verified : VerifiedModel) (model : LoadedModel) (graph : GraphSession)
    (hverified : Returns respond (verifiedModel store manifest rounds).run (.ok (some verified)))
    (hload : Returns respond (loadCandidate crates store verified).run (.ok (model, graph))) :
    Candidate crates store manifest model graph ∧
    model.identity.semanticFingerprint ∈ store.trustRoot ∧
    (∀ encodings,
      ((sessionInputs model encodings).tensors.map Prod.fst).Perm
        (graph.inputs.map GraphValue.name) ∧
      ∀ entry ∈ (sessionInputs model encodings).tensors, entry.2.length =
        (sessionInputs model encodings).batch * (sessionInputs model encodings).sequence) ∧
    (graph.Honours → ∀ inputs lookup, graph.run inputs = .ok lookup →
      ∃ tensor, lookup model.contract.output = some tensor ∧
        (tensor.shape.length = 2 ∨ tensor.shape.length = 3) ∧
        (tensor.shape.getLast? = some model.native ∨ ∃ output ∈ graph.outputs, ∃ shape extent,
          output.type = .tensor .float32 shape ∧ shape.getLast? = some extent ∧ extent < 0)) := by
  obtain ⟨hvalid, hmanifest, htrusts⟩ := verified_model_trusted hverified
  rw [← hmanifest] at hvalid htrusts ⊢
  have hcandidate := load_candidate_candidate hvalid hload
  refine ⟨hcandidate, ?_, ?_, ?_⟩
  · obtain ⟨fingerprint, hfingerprint, hidentity⟩ := hcandidate.identity_eq
    obtain ⟨_, trusted, hmem, htrusted⟩ := trusts_iff.mp htrusts
    rw [hfingerprint] at htrusted
    rw [hidentity]
    exact (Except.ok.inj htrusted) ▸ hmem
  · intro encodings
    refine ⟨?_, fun entry hentry => session_inputs_length model hentry⟩
    rw [session_inputs_names]
    exact hcandidate.fits.inputs_perm.symm
  · intro hhonours inputs lookup hrun
    have hgiven := hcandidate.fits.output_given hhonours hrun
    rw [LoadedModel.native, hcandidate.manifest_eq]
    exact hgiven

end

/-! ## A model that is loaded -/

/-- The store trusts the model of characters. -/
def charactersStore : ModelStore :=
  ⟨.fixture [.onnx], ["sha256:" ++ Manifest.onnx.semanticDigest (.fixture [.onnx])], 7, 0, 0⟩

/-- A cache with the installed model of characters. -/
def charactersCache : Cache :=
  { Cache.empty with
    dirs := (∅ : AList fun _ : Loc => Entry).insert (.models (charactersStore.key .onnx))
      (.dir ⟨0, ((∅ : AList fun _ : RelPath => Node).insert manifestFile
        (.file Manifest.onnx.fixtureRecord)).insert ["model.onnx"] (.file [0x61]) |>.insert
        ["tokenizer.json"] (.file [0x61])⟩) }

/-- The capability for the model of characters. -/
def charactersModel : VerifiedModel :=
  ⟨.onnx, .models (charactersStore.key .onnx), 0⟩

/-- A session for the model of characters. -/
def charactersGraph : GraphSession where
  inputs := ["attention_mask", "input_ids"].map fun name => ⟨name, .tensor .int64 [-1, -1]⟩
  outputs := [⟨"sentence_embedding", .tensor .float32 [-1, 2]⟩]
  run _ := .error "out of memory"

/-- Crates that parse every artifact into a part of the model of characters. -/
def LoadingCrates.characters : LoadingCrates where
  crate := .sample
  describe _ := ""
  tokenizer _ := .ok (.characters none)
  decode _ := .ok ⟨none, [], []⟩
  commit _ := .ok charactersGraph
  packageVersion := "0"

/-- What the crates and the store say about the model of characters. -/
def charactersIdentity : ResolvedModelIdentity where
  canonicalId := Manifest.onnx.canonicalId
  revision := Manifest.onnx.revision
  runtime := "onnx-runtime@0"
  artifactFingerprint := Manifest.onnx.artifactFingerprint charactersStore.ext
  semanticFingerprint := "sha256:" ++ Manifest.onnx.semanticDigest charactersStore.ext

/-- A result that `?` lets through. -/
theorem returns_settled {α : Type} {result : Except EngineFailure α} {value : α}
    (h : result = .ok value) : Returns respond (settle result).run (.ok value) := by
  rw [h]
  exact .done (Except.ok value)

/-- A part of the store that returns when it runs alone. -/
theorem or_fail_returns {α : Type} {failure : Error → EngineFailure} {body : StoreM α} {value : α}
    (h : Returns respond body.run (.ok value)) :
    Returns respond (orFail failure body).run (.ok value) :=
  h.then (.done (Except.ok value))

theorem safe_artifact_bytes_returns {crates : LoadingCrates} {store : ModelStore}
    {verified : VerifiedModel} {relative : String} {extension : List Char} {bytes : List UInt8}
    (hextension : pathExtension relative = some extension)
    (h : Returns respond (verified.artifactBytes store.ext relative).run (.ok bytes)) :
    Returns respond (safeArtifactBytes crates store verified relative extension).run
      (.ok bytes) := by
  unfold safeArtifactBytes
  dsimp only
  rw [if_neg (not_not.mpr hextension)]
  exact or_fail_returns h

/-- No part of the identity is blank. -/
theorem resolve_identity_characters :
    resolveIdentity .characters charactersStore .onnx = .ok charactersIdentity := by
  have hfingerprint : Manifest.onnx.semanticFingerprint charactersStore.ext =
      .ok ("sha256:" ++ Manifest.onnx.semanticDigest charactersStore.ext) := by
    unfold Manifest.semanticFingerprint
    have hvalid : Manifest.onnx.validate charactersStore.ext = .ok () :=
      (Manifest.validate_congr rfl _).trans Manifest.validate_onnx
    rw [hvalid]
    rfl
  have hdigest : ∀ digest : String, isBlank ("sha256:" ++ digest) = false := by
    intro digest
    unfold isBlank
    rw [String.toList_append]
    rfl
  have hnew : ∀ identity : ResolvedModelIdentity,
      [identity.canonicalId, identity.revision, identity.runtime, identity.artifactFingerprint,
        identity.semanticFingerprint].any isBlank = false →
        ResolvedModelIdentity.new identity = .ok identity := by
    intro identity h
    unfold ResolvedModelIdentity.new
    rw [h]
    rfl
  unfold resolveIdentity
  rw [hfingerprint]
  refine hnew _ ?_
  unfold Manifest.artifactFingerprint
  simp only [List.any_cons, List.any_nil, hdigest, Bool.or_false]
  decide

/-- The model of characters is loaded, and is what its identity says. -/
theorem load_candidate_sound_characters :
    ∃ model, Candidate .characters charactersStore .onnx model charactersGraph ∧
      model.identity.semanticFingerprint ∈ charactersStore.trustRoot ∧
      model.contract.inputNames.Perm (charactersGraph.inputs.map GraphValue.name) := by
  have hverified : returned (after respond (List.replicate 40 { amount := 100 })
      (verifiedModel charactersStore .onnx 1).run charactersCache).1 =
        some (some charactersModel) := by
    decide +kernel
  have hintact : returned (after respond (List.replicate 24 { amount := 100 })
      (charactersModel.revalidateIntegrity charactersStore).run charactersCache).1 = some () := by
    decide +kernel
  have hartifact : ∀ path ∈ ["model.onnx", "tokenizer.json"],
      returned (after respond (List.replicate 24 { amount := 100 })
        (charactersModel.artifactBytes charactersStore.ext path).run charactersCache).1 =
          some [0x61] := by
    decide +kernel
  have hmodel := returns_of_returned (hartifact "model.onnx" (by decide))
  have htokenizer := returns_of_returned (hartifact "tokenizer.json" (by decide))
  have hrevalidated := returns_of_returned hintact
  have hscan : rejectExternalDataGraph LoadingCrates.characters.decode [0x61] = .ok () := by
    with_unfolding_all rfl
  have hload : Returns respond
      (loadCandidate .characters charactersStore charactersModel).run
      (.ok ({ LoadedModel.characters none with identity := charactersIdentity },
        charactersGraph)) := by
    refine (or_fail_returns hrevalidated).then_e ?_
    refine Returns.then_e (returns_settled rfl) ?_
    refine (safe_artifact_bytes_returns rfl hmodel).then_e ?_
    refine Returns.then_e (returns_settled hscan) ?_
    refine (safe_artifact_bytes_returns rfl htokenizer).then_e ?_
    refine Returns.then_e (returns_settled rfl) ?_
    refine Returns.then_e (returns_settled rfl) ?_
    refine Returns.then_e (returns_settled rfl) ?_
    refine Returns.then_e (returns_settled rfl) ?_
    refine (or_fail_returns hrevalidated).then_e ?_
    exact Returns.then_e (returns_settled resolve_identity_characters) (.done _)
  have hsound := load_candidate_sound .characters charactersStore .onnx 1 charactersModel _ _
    (returns_of_returned hverified) hload
  refine ⟨_, hsound.1, hsound.2.1, ?_⟩
  have hnames := hsound.2.2.1 []
  rw [session_inputs_names] at hnames
  exact hnames.1

end EmbeddingServer
