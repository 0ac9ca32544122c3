import EmbeddingServer.Models.Store
import EmbeddingServer.Models.Fingerprint

/-!
# Trust

A model may be loaded when its stored manifest is the requested one, its bytes match, its
manifest says `Verified` and its semantic fingerprint is in the trust root. The release trust
root contains the fingerprints of the curated manifests that are marked `Verified`.

Whatever stands in the store and whoever writes to it meanwhile, `verified_model` then hands
out only what a curated manifest describes, and `artifact_bytes` reads only bytes that it
pins. The results speak of `Program.Returns`: every filesystem primitive is answered from a
cache of its own.
-/

namespace EmbeddingServer

open Program

/-! ## The release trust root -/

/-- `curated_manifests`: the manifests of the embedded catalog files. -/
def curatedManifests (ext : External) (files : List (List UInt8)) :
    Except Error (List Manifest) :=
  files.mapM (Manifest.fromJson ext)

/-- The loop of `SemanticTrustRoot::curated`. -/
def trustCurated (ext : External) : List Manifest → List String → Except Error (List String)
  | [], fingerprints => .ok fingerprints
  | manifest :: rest, fingerprints =>
      if manifest.semanticsVerified then do
        let fingerprint ← manifest.semanticFingerprint ext
        trustCurated ext rest (fingerprint :: fingerprints)
      else trustCurated ext rest fingerprints

/-- `SemanticTrustRoot::curated` over the embedded catalog files. -/
def curatedTrustRoot (ext : External) (files : List (List UInt8)) : Except Error (List String) := do
  let manifests ← curatedManifests ext files
  trustCurated ext manifests []

/-- `VerifiedModel::artifact_bytes`. -/
def VerifiedModel.artifactBytes (ext : External) (model : VerifiedModel) (relative : String) :
    StoreM (List UInt8) := do
  match model.manifest.artifacts.find? (fun artifact => artifact.path = relative) with
  | none => invalid "runtime requested an undeclared artifact"
  | some artifact =>
      let size := artifact.size.toNat
      openContainedRegularFile model.root artifact.relative size
      failIf (2 ^ wordBits ≤ size + 1) (.invalid "artifact length overflow")
      let bytes ← readToEnd model.root artifact.relative (size + 1) (size + 1) []
      let final ← pathMetadata model.root artifact.relative
      failIf (bytes.length ≠ size ∨ final.1 ≠ .file ∨ final.2 ≠ size ∨
          ext.sha256 bytes ≠ artifact.sha256)
        (.invalid "artifact changed after verification")
      pure bytes

/-! ## What a returned value has passed -/

section

variable {α : Type}

/-- `?` lets a value through. -/
theorem returns_lift {result : Except Error α} {value : α}
    (h : Returns respond (lift result).run (.ok value)) : result = .ok value := by
  have hrun : Returns respond (.done result : Program FsOp FsOp.Reply (Except Error α))
      (.ok value) := h
  exact hrun.eq

/-- A value that is returned at once. -/
theorem returns_pure {first value : α}
    (h : Returns respond (pure first : StoreM α).run (.ok value)) : first = value :=
  Except.ok.inj (returns_lift h)

/-- An error is not a value. -/
theorem not_returns_throw {error : Error} {value : α}
    (h : Returns respond (throw error : StoreM α).run (.ok value)) : False := by
  have hrun : Returns respond (.done (.error error) : Program FsOp FsOp.Reply (Except Error α))
      (.ok value) := h
  cases hrun.eq

/-- A passed check. -/
theorem returns_fail_if {condition : Prop} [Decidable condition] {error : Error} {value : Unit}
    (h : Returns respond (failIf condition error).run (.ok value)) : ¬ condition := by
  intro hcondition
  rw [failIf, if_pos hcondition] at h
  exact not_returns_throw h

/-- A result that was looked at is one the body returns. -/
theorem returns_attempt {body : StoreM α} {result : Except Error α}
    (h : Returns respond (attempt body).run (.ok result)) : Returns respond body.run result := by
  have hrun : Returns respond
      (body.run >>= fun result => (pure result : StoreM (Except Error α)).run) (.ok result) := h
  obtain ⟨first, hfirst, hrest⟩ := hrun.bind
  rw [← returns_pure hrest]
  exact hfirst

variable {store : ModelStore} {manifest : Manifest}

/-- The status `Loadable` is given to a trusted manifest only. -/
theorem status_of_tree_loadable {cancelled : StoreM Bool}
    (h : Returns respond (statusOfTree store manifest cancelled).run (.ok .loadable)) :
    store.trusts manifest = .ok true := by
  unfold statusOfTree at h
  obtain ⟨stored, _, h⟩ := h.bind_e
  cases stored with
  | error error => cases returns_pure h
  | ok stored =>
      dsimp only at h
      split at h
      · cases returns_pure h
      · rename_i heq
        obtain ⟨intact, _, h⟩ := h.bind_e
        cases intact with
        | false => cases returns_pure h
        | true =>
            obtain ⟨trusted, htrusted, h⟩ := h.bind_e
            cases trusted with
            | false => cases returns_pure h
            | true =>
                rw [← not_not.mp heq]
                exact returns_lift htrusted

/-- `status_inner` reports `Loadable` for a trusted manifest only. -/
theorem status_inner_loadable {cancelled : StoreM Bool}
    (h : Returns respond (statusInner store manifest cancelled).run (.ok .loadable)) :
    store.trusts manifest = .ok true := by
  unfold statusInner at h
  obtain ⟨checked, _, h⟩ := h.bind_e
  cases checked with
  | error error => cases returns_pure h
  | ok checked =>
      obtain ⟨metadata, _, h⟩ := h.bind_e
      cases metadata with
      | none => cases returns_pure h
      | some kind =>
          cases kind with
          | dir => exact status_of_tree_loadable h
          | file => cases returns_pure h
          | link => cases returns_pure h
          | special => cases returns_pure h

/-- The capability is for the requested manifest, which is trusted. -/
theorem verify_leased_trusted {lease : Nat} {model : VerifiedModel}
    (h : Returns respond (verifyLeased store manifest lease).run (.ok (some model))) :
    model.manifest = manifest ∧ store.trusts manifest = .ok true := by
  unfold verifyLeased at h
  obtain ⟨marker, _, h⟩ := h.bind_e
  cases marker with
  | some kind => cases returns_pure h
  | none =>
      obtain ⟨status, hstatus, h⟩ := h.bind_e
      cases status with
      | loadable =>
          cases returns_pure h
          exact ⟨rfl, status_inner_loadable hstatus⟩
      | missing => exact (not_returns_throw h).elim
      | invalid => exact (not_returns_throw h).elim
      | integrityVerified => exact (not_returns_throw h).elim

/-- The loop hands out what a round under a lease has verified. -/
theorem verified_model_loop_trusted {rounds : Nat} {model : VerifiedModel}
    (h : Returns respond (verifiedModelLoop store manifest rounds).run (.ok (some model))) :
    model.manifest = manifest ∧ store.trusts manifest = .ok true := by
  induction rounds with
  | zero => cases returns_pure h
  | succ rounds ih =>
      unfold verifiedModelLoop at h
      obtain ⟨_, _, h⟩ := h.bind_e
      obtain ⟨lease, _, h⟩ := h.bind_e
      obtain ⟨result, hresult, h⟩ := h.bind_e
      have hverified := returns_attempt hresult
      cases result with
      | error error =>
          obtain ⟨_, _, h⟩ := h.bind_e
          exact (not_returns_throw h).elim
      | ok verified =>
          cases verified with
          | none =>
              obtain ⟨_, _, h⟩ := h.bind_e
              exact ih h
          | some verified =>
              cases returns_pure h
              exact verify_leased_trusted hverified

/-- `verified_model` hands out a capability for the requested manifest only, and only if the
manifest is valid and trusted. -/
theorem verified_model_trusted {rounds : Nat} {model : VerifiedModel}
    (h : Returns respond (verifiedModel store manifest rounds).run (.ok (some model))) :
    manifest.validate store.ext = .ok () ∧ model.manifest = manifest ∧
      store.trusts manifest = .ok true := by
  unfold verifiedModel at h
  obtain ⟨_, hvalid, h⟩ := h.bind_e
  exact ⟨returns_lift hvalid, verified_model_loop_trusted h⟩

/-- The bytes that `artifact_bytes` returns are those the manifest pins. -/
theorem artifact_bytes_pinned {ext : External} {model : VerifiedModel} {relative : String}
    {bytes : List UInt8}
    (h : Returns respond (model.artifactBytes ext relative).run (.ok bytes)) :
    ∃ artifact ∈ model.manifest.artifacts, artifact.path = relative ∧
      bytes.length = artifact.size.toNat ∧ ext.sha256 bytes = artifact.sha256 := by
  unfold VerifiedModel.artifactBytes at h
  cases hfind : model.manifest.artifacts.find? (fun artifact => artifact.path = relative) with
  | none =>
      rw [hfind] at h
      exact (not_returns_throw h).elim
  | some artifact =>
      rw [hfind] at h
      dsimp only at h
      obtain ⟨_, _, h⟩ := h.bind_e
      obtain ⟨_, _, h⟩ := h.bind_e
      obtain ⟨content, _, h⟩ := h.bind_e
      obtain ⟨final, _, h⟩ := h.bind_e
      obtain ⟨_, hchecked, h⟩ := h.bind_e
      have hpassed := returns_fail_if hchecked
      cases returns_pure h
      simp only [not_or, not_not] at hpassed
      have hpath := List.find?_some hfind
      exact ⟨artifact, List.mem_of_find?_eq_some hfind, by simpa using hpath, hpassed.1,
        hpassed.2.2.2⟩

end

/-! ## Trust is inherited from a curated manifest -/

section

variable {ext : External}

/-- A fingerprint belongs to a valid manifest. -/
theorem semantic_fingerprint_ok {manifest : Manifest} {fingerprint : String}
    (h : manifest.semanticFingerprint ext = .ok fingerprint) :
    manifest.validate ext = .ok () ∧ fingerprint = "sha256:" ++ manifest.semanticDigest ext := by
  simp only [Manifest.semanticFingerprint, Checked.bind_ok] at h
  obtain ⟨_, hvalid, h⟩ := h
  exact ⟨hvalid, (Except.ok.inj h).symm⟩

/-- The trust root holds fingerprints of verified manifests of the catalog. -/
theorem trust_curated_mem {manifests : List Manifest} {start root : List String}
    (h : trustCurated ext manifests start = .ok root) {fingerprint : String}
    (hmem : fingerprint ∈ root) :
    fingerprint ∈ start ∨ ∃ manifest ∈ manifests, manifest.semanticsVerified = true ∧
      manifest.semanticFingerprint ext = .ok fingerprint := by
  induction manifests generalizing start with
  | nil =>
      cases h
      exact .inl hmem
  | cons manifest rest ih =>
      rw [trustCurated] at h
      by_cases hverified : manifest.semanticsVerified = true
      · rw [if_pos hverified, Checked.bind_ok] at h
        obtain ⟨added, hadded, h⟩ := h
        cases ih h with
        | inl hstart =>
            cases List.mem_cons.mp hstart with
            | inl heq => exact .inr ⟨manifest, List.mem_cons_self, hverified, heq ▸ hadded⟩
            | inr hstart => exact .inl hstart
        | inr hlater =>
            obtain ⟨other, hother, hrest⟩ := hlater
            exact .inr ⟨other, List.mem_cons_of_mem _ hother, hrest⟩
      · rw [if_neg hverified] at h
        cases ih h with
        | inl hstart => exact .inl hstart
        | inr hlater =>
            obtain ⟨other, hother, hrest⟩ := hlater
            exact .inr ⟨other, List.mem_cons_of_mem _ hother, hrest⟩

/-- A manifest is trusted when it says so itself and its fingerprint is in the trust root. -/
theorem trusts_iff {store : ModelStore} {manifest : Manifest} :
    store.trusts manifest = .ok true ↔ manifest.semanticsVerified = true ∧
      ∃ fingerprint ∈ store.trustRoot,
        manifest.semanticFingerprint store.ext = .ok fingerprint := by
  unfold ModelStore.trusts
  by_cases hverified : manifest.semanticsVerified = true
  · rw [if_pos hverified]
    cases hfingerprint : manifest.semanticFingerprint store.ext with
    | error error => simp [Except.map]
    | ok fingerprint => simp [Except.map, hverified]
  · rw [if_neg hverified]
    simp [hverified]

/-- Two manifests describe the same inference with the same files. Whether a manifest calls
itself verified, its license, the URLs and the order of the artifacts are left out. -/
structure Manifest.SameInference (left right : Manifest) : Prop where
  canonical_id : left.canonicalId = right.canonicalId
  revision : left.revision = right.revision
  tokenizer : left.tokenizer = right.tokenizer
  pooling : left.pooling = right.pooling
  prefixes : left.prefixes = right.prefixes
  dimensions : left.dimensions = right.dimensions
  tensors : left.tensors = right.tensors
  runtime : left.runtime = right.runtime
  artifacts : ∀ artifact, artifact ∈ left.triples ↔ artifact ∈ right.triples

/-- A valid manifest has the current schema version. -/
theorem validate_schema_version {manifest : Manifest} (h : manifest.validate ext = .ok ()) :
    manifest.schemaVersion = schemaVersion := by
  simp only [Manifest.validate, Checked.bind_ok, reject_if_ok] at h
  obtain ⟨_, hversion, _⟩ := h
  simpa using hversion

/-- Valid manifests have one contract exactly when they describe the same inference. -/
theorem semantic_contract_eq_iff_same {left right : Manifest}
    (hleft : left.validate ext = .ok ()) (hright : right.validate ext = .ok ()) :
    left.semanticContract = right.semanticContract ↔ left.SameInference right := by
  rw [semantic_contract_eq_iff,
    triples_perm_iff (Manifest.validate_admitted hleft) (Manifest.validate_admitted hright)]
  constructor
  · rintro ⟨_, hid, hrevision, htokenizer, hpooling, hprefixes, hdimensions, htensors, hruntime,
      hartifacts⟩
    exact ⟨hid, hrevision, htokenizer, hpooling, hprefixes, hdimensions, htensors, hruntime,
      hartifacts⟩
  · intro h
    refine ⟨?_, h.canonical_id, h.revision, h.tokenizer, h.pooling, h.prefixes, h.dimensions,
      h.tensors, h.runtime, h.artifacts⟩
    rw [validate_schema_version hleft, validate_schema_version hright]

/-- Two distinct encoded contracts have distinct digests. -/
def External.CollisionFree (ext : External) : Prop :=
  ∀ left right : SemanticContract,
    ext.sha256 (ext.encodeContract left) = ext.sha256 (ext.encodeContract right) →
    ext.encodeContract left = ext.encodeContract right

/-- Manifests with one fingerprint have one contract. -/
theorem semantic_contract_of_fingerprint (hsha : ext.CollisionFree)
    (hjson : Function.Injective ext.encodeContract) {left right : Manifest} {fingerprint : String}
    (hleft : left.semanticFingerprint ext = .ok fingerprint)
    (hright : right.semanticFingerprint ext = .ok fingerprint) :
    left.semanticContract = right.semanticContract := by
  have heq := (semantic_fingerprint_ok hleft).2.symm.trans (semantic_fingerprint_ok hright).2
  have hdigest : left.semanticDigest ext = right.semanticDigest ext := by
    have hchars := congrArg String.toList heq
    rw [String.toList_append, String.toList_append] at hchars
    exact String.toList_inj.mp (List.append_cancel_left hchars)
  exact hjson (hsha _ _ hdigest)

/-- Trust is sound. A capability from `verified_model` is for a manifest that describes the
same inference as a curated manifest marked `Verified`, and `artifact_bytes` of it returns
only bytes with a digest and a size that the curated manifest pins. Beyond the flag, nothing
but the description of the inference decides whether a valid manifest is trusted. -/
theorem trust_sound (store : ModelStore) (files : List (List UInt8))
    (hroot : curatedTrustRoot store.ext files = .ok store.trustRoot)
    (hsha : store.ext.CollisionFree) (hjson : Function.Injective store.ext.encodeContract) :
    (∀ manifest rounds model,
      Returns respond (verifiedModel store manifest rounds).run (.ok (some model)) →
      ∃ curated, curatedManifests store.ext files = .ok curated ∧
      ∃ trusted ∈ curated, trusted.semanticsVerified = true ∧ trusted.SameInference manifest ∧
        ∀ relative bytes, Returns respond (model.artifactBytes store.ext relative).run (.ok bytes) →
          ∃ artifact ∈ trusted.artifacts, artifact.path = relative ∧
            bytes.length = artifact.size.toNat ∧ store.ext.sha256 bytes = artifact.sha256) ∧
    (∀ left right : Manifest, left.validate store.ext = .ok () →
      right.validate store.ext = .ok () → left.semanticsVerified = right.semanticsVerified →
      left.SameInference right → store.trusts left = store.trusts right) ∧
    ∀ manifest, manifest.semanticsVerified = false → store.trusts manifest = .ok false := by
  refine ⟨?_, ?_, ?_⟩
  · intro manifest rounds model h
    obtain ⟨hvalid, hmodel, htrusts⟩ := verified_model_trusted h
    obtain ⟨_, fingerprint, hmem, hfingerprint⟩ := trusts_iff.mp htrusts
    rw [curatedTrustRoot, Checked.bind_ok] at hroot
    obtain ⟨curated, hcurated, hroot⟩ := hroot
    cases trust_curated_mem hroot hmem with
    | inl hnil => cases hnil
    | inr htrusted =>
        obtain ⟨trusted, htrustedMem, hverified, htrustedFingerprint⟩ := htrusted
        have hsame : trusted.SameInference manifest :=
          (semantic_contract_eq_iff_same (semantic_fingerprint_ok htrustedFingerprint).1 hvalid).mp
            (semantic_contract_of_fingerprint hsha hjson htrustedFingerprint hfingerprint)
        refine ⟨curated, hcurated, trusted, htrustedMem, hverified, hsame, ?_⟩
        intro relative bytes hbytes
        obtain ⟨artifact, hartifact, hpath, hlength, hdigest⟩ := artifact_bytes_pinned hbytes
        rw [hmodel] at hartifact
        have htriple := (hsame.artifacts (.ofArtifact artifact)).mpr (List.mem_map_of_mem hartifact)
        obtain ⟨pinned, hpinned, heq⟩ := List.mem_map.mp htriple
        rw [SemanticArtifact.ofArtifact, SemanticArtifact.ofArtifact,
          SemanticArtifact.mk.injEq] at heq
        obtain ⟨hpinnedPath, hpinnedDigest, hpinnedSize⟩ := heq
        exact ⟨pinned, hpinned, hpinnedPath.trans hpath, by rw [hlength, hpinnedSize],
          hdigest.trans hpinnedDigest.symm⟩
  · intro left right hleft hright hverified hsame
    have hcontract := (semantic_contract_eq_iff_same hleft hright).mpr hsame
    simp only [ModelStore.trusts, Manifest.semanticFingerprint, Manifest.semanticDigest, hleft,
      hright, hverified, hcontract]
  · intro manifest hunverified
    simp [ModelStore.trusts, hunverified]

end

/-! ## A trusted installation -/

/-- The digest of the compact JSON text of `Manifest.fixture.semanticContract`. -/
def fixtureDigest : String := "2eb8b5bce5780efb6cd70e5bf336532ba5dcad76296482d0429b01a658140f3a"

/-- The compact JSON text of a contract. -/
def compactContract (contract : SemanticContract) : List UInt8 :=
  contract.serialize.write.flatMap String.utf8EncodeChar

/-- `External.fixture` with the compact JSON text of a contract and the digest of the fixture's. -/
def External.released : External :=
  { External.fixture [.fixture] with
    encodeContract := compactContract
    sha256 := fun bytes =>
      if bytes = compactContract Manifest.fixture.semanticContract then fixtureDigest
      else (External.fixture []).sha256 bytes }

/-- The text of a contract is compact JSON. -/
theorem released_writes_compact_json : External.released.WritesCompactJson := by
  intro contract
  rw [Bytes.to_utf8_to_list, String.toList_ofList]
  rfl

/-- Spelling bytes out as characters loses nothing. -/
theorem spelled_injective :
    Function.Injective fun bytes : List UInt8 =>
      String.ofList (bytes.map fun byte => Char.ofNat byte.toNat) := by
  have hbyte : Function.Injective fun byte : UInt8 => Char.ofNat byte.toNat := by
    intro left right h
    have hnat := congrArg Char.toNat h
    have hsmall : ∀ n < 256, (Char.ofNat n).toNat = n := by decide +kernel
    dsimp only at hnat
    rw [hsmall _ left.toNat_lt, hsmall _ right.toNat_lt] at hnat
    exact UInt8.toNat_inj.mp hnat
  intro left right h
  exact List.map_injective_iff.mpr hbyte (String.ofList_injective h)

/-- The stand-in for SHA-256 tells encoded contracts apart: it gives the fixture's its digest,
which begins with a digit, and spells out the others, which begin with a brace. -/
theorem released_collision_free : External.released.CollisionFree := by
  have hspelled : ∀ contract, (External.fixture []).sha256 (compactContract contract) =
      String.ofList ((compactContract contract).map fun byte => Char.ofNat byte.toNat) := by
    intro contract
    have hne : compactContract contract ≠ [0x61] := by
      intro h
      cases (List.cons.inj h).1
    unfold External.fixture
    dsimp only
    rw [if_neg hne]
  have hbrace : ∀ contract, (External.fixture []).sha256 (compactContract contract) ≠
      fixtureDigest := by
    intro contract h
    rw [hspelled] at h
    have hhead := congrArg (fun text => text.toList.head?) h
    rw [String.toList_ofList] at hhead
    cases hhead
  intro left right h
  have hcases : ∀ contract, External.released.sha256 (compactContract contract) =
      if compactContract contract = compactContract Manifest.fixture.semanticContract then
        fixtureDigest
      else (External.fixture []).sha256 (compactContract contract) := fun _ => rfl
  show compactContract left = compactContract right
  have h : External.released.sha256 (compactContract left) =
      External.released.sha256 (compactContract right) := h
  rw [hcases, hcases] at h
  split at h
  · rename_i hleft
    split at h
    · rename_i hright
      exact hleft.trans hright.symm
    · exact absurd h.symm (hbrace right)
  · split at h
    · exact absurd h (hbrace left)
    · rw [hspelled, hspelled] at h
      exact spelled_injective h

/-- The store of a release whose catalog is the fixture. -/
def releasedStore : ModelStore :=
  ⟨.released, ["sha256:" ++ fixtureDigest], 7, 0, 0⟩

/-- A cache with the installed fixture. -/
def releasedCache : Cache :=
  { Cache.empty with
    dirs := (∅ : AList fun _ : Loc => Entry).insert
      (.models fixtureDigest)
      (.dir ⟨0, ((∅ : AList fun _ : RelPath => Node).insert manifestFile
        (.file Manifest.fixture.fixtureRecord)).insert ["weights"] .dir |>.insert
        ["weights", "model.bin"] (.file [0x61])⟩) }

/-- The capability for the fixture. -/
def releasedModel : VerifiedModel :=
  ⟨.fixture, .models fixtureDigest, 0⟩

/-- What a program has returned, if it is done. -/
def returned {α : Type} : Program FsOp FsOp.Reply (Except Error α) → Option α
  | .done (.ok value) => some value
  | _ => none

theorem returns_of_returned {α : Type} {program : Program FsOp FsOp.Reply (Except Error α)}
    {schedule : List Choice} {s : Cache} {value : α}
    (h : returned (after respond schedule program s).1 = some value) :
    Returns respond program (.ok value) := by
  apply returns_of_after
  unfold returned at h
  split at h
  · rename_i heq
    rw [heq]
    simpa using h
  · cases h

/-- The fixture is handed out and its artifact read; both are what the catalog pins. -/
theorem trust_sound_fixture :
    ∃ curated, curatedManifests .released [Manifest.fixture.fixtureRecord] = .ok curated ∧
    ∃ trusted ∈ curated, trusted.semanticsVerified = true ∧ trusted.SameInference .fixture ∧
      ∃ artifact ∈ trusted.artifacts, artifact.path = "weights/model.bin" ∧
        [(0x61 : UInt8)].length = artifact.size.toNat ∧
        External.released.sha256 [0x61] = artifact.sha256 := by
  have hroot : curatedTrustRoot releasedStore.ext [Manifest.fixture.fixtureRecord] =
      .ok releasedStore.trustRoot := by decide +kernel
  have hverified : returned (after respond (List.replicate 24 { amount := 100 })
      (verifiedModel releasedStore .fixture 1).run releasedCache).1 =
        some (some releasedModel) := by
    decide +kernel
  have hbytes : returned (after respond (List.replicate 24 { amount := 100 })
      (releasedModel.artifactBytes releasedStore.ext "weights/model.bin").run releasedCache).1 =
        some [0x61] := by
    decide +kernel
  obtain ⟨curated, hcurated, trusted, hmem, hflag, hsame, hread⟩ :=
    (trust_sound releasedStore _ hroot released_collision_free
      released_writes_compact_json.injective).1 _ _ _ (returns_of_returned hverified)
  exact ⟨curated, hcurated, trusted, hmem, hflag, hsame, hread _ _ (returns_of_returned hbytes)⟩

end EmbeddingServer
