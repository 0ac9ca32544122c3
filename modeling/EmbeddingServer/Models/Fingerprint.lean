import EmbeddingServer.Models.Manifest
import EmbeddingServer.Lib.Json
import EmbeddingServer.Lib.Bytes
import Mathlib.Data.String.Basic
import Mathlib.Data.Prod.Lex

/-!
# Canonical fingerprints

The two fingerprints of `store.rs` identify a manifest by what they hash. The artifact
fingerprint hashes a hand-framed byte string, `Manifest.artifactFingerprintInput`; the
semantic fingerprint hashes the JSON text of a `SemanticContract`. Both sort the artifacts
first, so the order in which a manifest lists them does not matter.

That different manifests are told apart rests on what `Manifest::validate` admits: the
identifier and the paths have no NUL byte, the revision and the digests have a fixed length,
and no two artifacts share a path.
-/

namespace EmbeddingServer

/-! ## What validation admits -/

/-- A check passes when its condition is false. -/
theorem reject_if_ok {condition : Bool} {message : String} {result : Unit} :
    rejectIf condition message = .ok result ↔ condition = false := by
  unfold rejectIf
  cases condition <;> simp

/-- An ASCII character other than NUL. -/
def IsPlain (c : Char) : Prop :=
  0 < c.toNat ∧ c.toNat < 128

instance (c : Char) : Decidable (IsPlain c) :=
  inferInstanceAs (Decidable (_ ∧ _))

theorem is_upper_iff_to_nat {c : Char} : c.isUpper = true ↔ 65 ≤ c.toNat ∧ c.toNat ≤ 90 :=
  decide_eq_true_iff.trans (and_congr UInt32.le_iff_toNat_le UInt32.le_iff_toNat_le)

theorem is_lower_iff_to_nat {c : Char} : c.isLower = true ↔ 97 ≤ c.toNat ∧ c.toNat ≤ 122 :=
  Bool.and_eq_true_iff.trans (and_congr (decide_eq_true_iff.trans UInt32.le_iff_toNat_le)
    (decide_eq_true_iff.trans UInt32.le_iff_toNat_le))

/-- A path character is plain. -/
theorem is_plain_of_is_path_character {c : Char} (h : isPathCharacter c = true) : IsPlain c := by
  have halpha : c.isAlpha = (c.isUpper || c.isLower) := rfl
  simp only [isPathCharacter, Char.isAlphanum, halpha, Bool.or_eq_true, decide_eq_true_eq,
    is_upper_iff_to_nat, is_lower_iff_to_nat, Char.isDigit_iff_toNat] at h
  rcases h with ((((⟨hlow, hhigh⟩ | ⟨hlow, hhigh⟩) | ⟨hlow, hhigh⟩) | rfl) | rfl) | rfl
  · exact ⟨by omega, by omega⟩
  · exact ⟨by omega, by omega⟩
  · simp at hlow hhigh
    exact ⟨by omega, by omega⟩
  · decide
  · decide
  · decide

/-- A character of a text is a slash or belongs to a component. -/
theorem mem_split_slash {value : String} {c : Char} (h : c ∈ value.toList) :
    c = '/' ∨ ∃ component ∈ splitSlash value, c ∈ component := by
  have hjoin : ['/'].intercalate (value.toList.splitOn '/') = value.toList :=
    List.intercalate_splitOn '/'
  rw [← hjoin] at h
  have hmem : ∀ parts : List (List Char), c ∈ ['/'].intercalate parts →
      c = '/' ∨ ∃ part ∈ parts, c ∈ part := by
    intro parts
    induction parts with
    | nil =>
        intro h
        cases h
    | cons part rest ih =>
        intro h
        cases rest with
        | nil => exact .inr ⟨part, List.mem_cons_self, by simpa [List.intercalate] using h⟩
        | cons next rest =>
            rw [List.intercalate, List.intersperse_cons_cons, List.flatten_cons,
              List.flatten_cons, List.mem_append, List.mem_append, List.mem_singleton] at h
            rcases h with hpart | hslash | hrest
            · exact .inr ⟨part, List.mem_cons_self, hpart⟩
            · exact .inl hslash
            · cases ih hrest with
              | inl hslash => exact .inl hslash
              | inr hpart =>
                  obtain ⟨part, hpart, hc⟩ := hpart
                  exact .inr ⟨part, List.mem_cons_of_mem _ hpart, hc⟩
  exact hmem _ h

/-- A text whose components consist of path characters is plain. -/
theorem plain_of_components {value : String}
    (h : ∀ component ∈ splitSlash value, component.all isPathCharacter = true) :
    ∀ c ∈ value.toList, IsPlain c := by
  intro c hc
  cases mem_split_slash hc with
  | inl hslash =>
      subst hslash
      decide
  | inr hcomponent =>
      obtain ⟨component, hmem, hc⟩ := hcomponent
      exact is_plain_of_is_path_character (List.all_eq_true.mp (h component hmem) c hc)

/-- An accepted identifier is plain. -/
theorem validate_id_plain {value : String} (h : validateId value = .ok ()) :
    ∀ c ∈ value.toList, IsPlain c := by
  rw [validateId, reject_if_ok] at h
  apply plain_of_components
  intro component hcomponent
  simp only [Bool.or_eq_false_iff, List.any_eq_false] at h
  have := h.2 component hcomponent
  simp only [Bool.or_eq_true, not_or, Bool.not_eq_true', Bool.not_eq_false] at this
  exact this.2

/-- An accepted relative path is plain. -/
theorem validate_relative_path_plain {value : String} (h : validateRelativePath value = .ok ()) :
    ∀ c ∈ value.toList, IsPlain c := by
  rw [validateRelativePath, reject_if_ok] at h
  apply plain_of_components
  intro component hcomponent
  simp only [Bool.or_eq_false_iff, List.any_eq_false] at h
  have := h.2 component hcomponent
  simp only [Bool.or_eq_true, not_or, Bool.not_eq_true', Bool.not_eq_false] at this
  exact this.1.2

section

variable {ext : External}

/-- What the fingerprints rely on in one artifact. -/
structure Artifact.Admitted (artifact : Artifact) : Prop where
  path_plain : ∀ c ∈ artifact.path.toList, IsPlain c
  digest_length : byteLength artifact.sha256.toList = 64

/-- What the loop of `validate_artifacts` found about an artifact that it accepted. -/
structure Artifact.Checked (paths : List (List Char)) (artifact : Artifact) : Prop where
  path : validateRelativePath artifact.path = .ok ()
  not_reserved : toAsciiLowercase artifact.path ≠ "manifest.json".toList
  fresh : toAsciiLowercase artifact.path ∉ paths
  unnested : ∀ existing ∈ paths,
    isPathAncestor existing (toAsciiLowercase artifact.path) = false ∧
      isPathAncestor (toAsciiLowercase artifact.path) existing = false
  digest_length : byteLength artifact.sha256.toList = 64

/-- An accepted artifact, with the portable paths before and after it. -/
theorem validate_artifact_checked {paths after : List (List Char)} {artifact : Artifact}
    (h : validateArtifact ext paths artifact = .ok after) :
    artifact.Checked paths ∧ after = paths ++ [toAsciiLowercase artifact.path] := by
  simp only [validateArtifact, Checked.bind_ok, reject_if_ok] at h
  obtain ⟨_, hpath, _, hreserved, _, hunique, _, hnested, _, _, h⟩ := h
  cases hurl : ext.parseUrl artifact.url with
  | none =>
      rw [hurl] at h
      cases h
  | some url =>
      simp only [hurl, pure_bind, Checked.bind_ok, reject_if_ok] at h
      obtain ⟨_, _, _, hdigest, hafter⟩ := h
      simp only [Bool.or_eq_false_iff, decide_eq_false_iff_not, not_not] at hdigest
      refine ⟨⟨hpath, of_decide_eq_false hreserved, ?_, ?_, hdigest.1.1⟩, ?_⟩
      · simpa using hunique
      · intro existing hexisting
        have hpair := List.any_eq_false.mp hnested existing hexisting
        simpa only [Bool.not_eq_true, Bool.or_eq_false_iff] using hpair
      · exact (Except.ok.inj hafter).symm

/-- What the fingerprints use of an accepted artifact. -/
theorem validate_artifact_ok {paths after : List (List Char)} {artifact : Artifact}
    (h : validateArtifact ext paths artifact = .ok after) :
    artifact.Admitted ∧ toAsciiLowercase artifact.path ∉ paths ∧
      after = paths ++ [toAsciiLowercase artifact.path] := by
  obtain ⟨hchecked, hafter⟩ := validate_artifact_checked h
  exact ⟨⟨validate_relative_path_plain hchecked.path, hchecked.digest_length⟩,
    hchecked.fresh, hafter⟩

/-- Accepted artifacts are admitted and their portable paths are distinct. -/
theorem validate_artifacts_from {paths after : List (List Char)} {artifacts : List Artifact}
    (h : artifacts.foldlM (validateArtifact ext) paths = .ok after) :
    (∀ artifact ∈ artifacts, artifact.Admitted) ∧
    (∀ artifact ∈ artifacts, toAsciiLowercase artifact.path ∉ paths) ∧
    (artifacts.map fun artifact => toAsciiLowercase artifact.path).Nodup := by
  induction artifacts generalizing paths with
  | nil => exact ⟨by simp, by simp, by simp⟩
  | cons artifact rest ih =>
      rw [List.foldlM_cons, Checked.bind_ok] at h
      obtain ⟨middle, hfirst, hrest⟩ := h
      obtain ⟨hadmitted, hfresh, rfl⟩ := validate_artifact_ok hfirst
      obtain ⟨hall, hfreshRest, hnodup⟩ := ih hrest
      refine ⟨?_, ?_, ?_⟩
      · rw [List.forall_mem_cons]
        exact ⟨hadmitted, hall⟩
      · rw [List.forall_mem_cons]
        refine ⟨hfresh, fun other hother => ?_⟩
        have := hfreshRest other hother
        rw [List.mem_append, not_or] at this
        exact this.1
      · rw [List.map_cons, List.nodup_cons]
        refine ⟨?_, hnodup⟩
        rw [List.mem_map]
        rintro ⟨other, hother, heq⟩
        have := hfreshRest other hother
        rw [List.mem_append, not_or, List.mem_singleton] at this
        exact this.2 heq

/-- What the fingerprints rely on in a manifest. -/
structure Manifest.Admitted (manifest : Manifest) : Prop where
  id_plain : ∀ c ∈ manifest.canonicalId.toList, IsPlain c
  revision_length : byteLength manifest.revision.toList = 40
  artifacts : ∀ artifact ∈ manifest.artifacts, artifact.Admitted
  paths_nodup : (manifest.artifacts.map Artifact.path).Nodup

/-- Validation ends with the loop over the artifacts. -/
theorem Manifest.validate_artifacts {manifest : Manifest}
    (h : manifest.validate ext = .ok ()) :
    ∃ after, manifest.artifacts.foldlM (validateArtifact ext) [] = .ok after := by
  simp only [Manifest.validate, Checked.bind_ok, reject_if_ok] at h
  obtain ⟨_, _, _, _, _, _, _, _, _, _, _, _, _, _, _, _, _, _, h⟩ := h
  have hartifacts : validateArtifacts ext manifest.artifacts = .ok () := by
    cases hsemantic : manifest.semanticVerification with
    | verified evidence =>
        simp only [hsemantic, Checked.bind_ok, reject_if_ok] at h
        obtain ⟨_, _, _, _, _, _, _, _, _, hartifacts, _⟩ := h
        exact hartifacts
    | unverified reason =>
        simp only [hsemantic, Checked.bind_ok, reject_if_ok] at h
        obtain ⟨_, _, _, _, _, _, _, _, _, hartifacts, _⟩ := h
        exact hartifacts
  simp only [validateArtifacts, Checked.bind_ok] at hartifacts
  obtain ⟨after, hfold, _⟩ := hartifacts
  exact ⟨after, hfold⟩

/-- A manifest that `validate` accepts is admitted. -/
theorem Manifest.validate_admitted {manifest : Manifest}
    (h : manifest.validate ext = .ok ()) : manifest.Admitted := by
  obtain ⟨after, hfold⟩ := Manifest.validate_artifacts h
  obtain ⟨hall, _, hnodup⟩ := validate_artifacts_from hfold
  simp only [Manifest.validate, Checked.bind_ok, reject_if_ok] at h
  obtain ⟨_, _, _, hid, _, _, _, hrevision, _⟩ := h
  simp only [Bool.or_eq_false_iff, decide_eq_false_iff_not, not_not] at hrevision
  refine ⟨validate_id_plain hid, hrevision.1, hall, ?_⟩
  apply List.Nodup.of_map (fun path => toAsciiLowercase path)
  rw [List.map_map]
  exact hnodup

end

/-! ## The canonical order -/

/-- `SemanticArtifact::from`. -/
def SemanticArtifact.ofArtifact (artifact : Artifact) : SemanticArtifact :=
  ⟨artifact.path, artifact.sha256, artifact.size⟩

/-- The artifacts of a manifest without their URLs, in the order of the manifest. -/
def Manifest.triples (manifest : Manifest) : List SemanticArtifact :=
  manifest.artifacts.map SemanticArtifact.ofArtifact

/-- The artifacts of a manifest without their URLs, in canonical order. -/
def Manifest.canonicalTriples (manifest : Manifest) : List SemanticArtifact :=
  (canonicalArtifacts manifest).map SemanticArtifact.ofArtifact

/-- The sort key of an artifact. -/
def SemanticArtifact.sortKey (artifact : SemanticArtifact) : String ×ₗ String ×ₗ Nat :=
  toLex (artifact.path, toLex (artifact.sha256, artifact.size.toNat))

/-- The comparison of `sort_by` is the lexicographic order of the sort key. -/
theorem artifact_le_iff (left right : Artifact) :
    artifactLe left right = true ↔
      (SemanticArtifact.ofArtifact left).sortKey ≤ (SemanticArtifact.ofArtifact right).sortKey := by
  simp only [artifactLe, SemanticArtifact.sortKey, SemanticArtifact.ofArtifact,
    Prod.Lex.toLex_le_toLex]
  by_cases hpath : left.path = right.path
  · by_cases hdigest : left.sha256 = right.sha256
    · simp [hpath, hdigest, UInt64.le_iff_toNat_le]
    · simp [hpath, hdigest, -String.lt_iff_ltb]
  · simp [hpath, -String.lt_iff_ltb]

/-- The sort key determines the artifact. -/
theorem SemanticArtifact.sort_key_injective : Function.Injective SemanticArtifact.sortKey := by
  intro left right h
  cases left
  cases right
  simpa [SemanticArtifact.sortKey, UInt64.toNat_inj] using h

/-- The canonical list is sorted. -/
theorem canonical_triples_sorted (manifest : Manifest) :
    manifest.canonicalTriples.Pairwise fun left right => left.sortKey ≤ right.sortKey := by
  rw [Manifest.canonicalTriples, List.pairwise_map]
  have htrans : ∀ a b c : Artifact, artifactLe a b = true → artifactLe b c = true →
      artifactLe a c = true := by
    intro a b c hab hbc
    rw [artifact_le_iff] at *
    exact le_trans hab hbc
  have htotal : ∀ a b : Artifact, (artifactLe a b || artifactLe b a) = true := by
    intro a b
    rw [Bool.or_eq_true, artifact_le_iff, artifact_le_iff]
    exact le_total _ _
  apply (List.pairwise_mergeSort htrans htotal manifest.artifacts).imp
  intro a b h
  exact (artifact_le_iff a b).mp h

/-- The canonical list is a permutation of the artifacts. -/
theorem canonical_triples_perm (manifest : Manifest) :
    manifest.canonicalTriples.Perm manifest.triples :=
  (List.mergeSort_perm manifest.artifacts artifactLe).map SemanticArtifact.ofArtifact

/-- The canonical lists agree exactly when the artifacts do up to their order. -/
theorem canonical_triples_eq_iff (left right : Manifest) :
    left.canonicalTriples = right.canonicalTriples ↔ left.triples.Perm right.triples := by
  constructor
  · intro h
    exact (canonical_triples_perm left).symm.trans (h ▸ canonical_triples_perm right)
  · intro h
    have hperm : left.canonicalTriples.Perm right.canonicalTriples :=
      (canonical_triples_perm left).trans (h.trans (canonical_triples_perm right).symm)
    refine hperm.eq_of_pairwise ?_ (canonical_triples_sorted left) (canonical_triples_sorted right)
    intro a b _ _ hab hba
    exact SemanticArtifact.sort_key_injective (le_antisymm hab hba)

/-- Artifacts with distinct paths agree up to their order exactly when they are the same set. -/
theorem triples_perm_iff {left right : Manifest} (hleft : left.Admitted)
    (hright : right.Admitted) :
    left.triples.Perm right.triples ↔
      ∀ artifact, artifact ∈ left.triples ↔ artifact ∈ right.triples := by
  have hnodup : ∀ {manifest : Manifest}, manifest.Admitted → manifest.triples.Nodup := by
    intro manifest h
    apply List.Nodup.of_map SemanticArtifact.path
    rw [Manifest.triples, List.map_map]
    exact h.paths_nodup
  exact List.perm_ext_iff_of_nodup (hnodup hleft) (hnodup hright)

/-! ## The framed byte string -/

/-- The eight bytes determine the size. -/
theorem little_endian_injective : Function.Injective littleEndian := by
  intro left right h
  have hbyte : ∀ index < 8, (left >>> (8 * index).toUInt64).toUInt8 =
      (right >>> (8 * index).toUInt64).toUInt8 := by
    intro index hindex
    exact List.map_inj_left.mp h index (List.mem_range.mpr hindex)
  apply UInt64.toNat_inj.mp
  apply Bytes.eq_of_digits (show left.toNat < 256 ^ 8 from left.toNat_lt) right.toNat_lt
  intro index hindex
  have hdigit := congrArg UInt8.toNat (hbyte index hindex)
  have hshift : ((8 * index).toUInt64).toNat % 64 = 8 * index := by
    rw [Nat.toUInt64, UInt64.toNat_ofNat_of_lt' (by show 8 * index < 2 ^ 64; omega)]
    omega
  rw [UInt64.toNat_toUInt8, UInt64.toNat_toUInt8, UInt64.toNat_shiftRight,
    UInt64.toNat_shiftRight, Nat.shiftRight_eq_div_pow, Nat.shiftRight_eq_div_pow, hshift,
    Nat.pow_mul] at hdigit
  exact hdigit

/-- The bytes `artifact_fingerprint` adds for one artifact. -/
def SemanticArtifact.frame (artifact : SemanticArtifact) : List UInt8 :=
  [0] ++ artifact.path.toUTF8.toList ++ [0] ++ artifact.sha256.toUTF8.toList ++ [0] ++
    littleEndian artifact.size

/-- The framed byte string over the canonical artifacts. -/
theorem artifact_fingerprint_input_eq (manifest : Manifest) :
    manifest.artifactFingerprintInput =
      manifest.canonicalId.toUTF8.toList ++ 0 :: (manifest.revision.toUTF8.toList ++
        manifest.canonicalTriples.flatMap SemanticArtifact.frame) := by
  rw [Manifest.artifactFingerprintInput, Manifest.canonicalTriples, List.flatMap_map,
    List.append_assoc, List.append_assoc]
  rfl

/-- An admitted artifact, without its URL. -/
structure SemanticArtifact.Admitted (artifact : SemanticArtifact) : Prop where
  path_plain : ∀ c ∈ artifact.path.toList, IsPlain c
  digest_length : byteLength artifact.sha256.toList = 64

/-- The frame of an admitted artifact is determined by the bytes that begin with it. -/
theorem frame_inj {left right : SemanticArtifact} (hleft : left.Admitted)
    (hright : right.Admitted) {rest other : List UInt8}
    (h : left.frame ++ rest = right.frame ++ other) : left = right ∧ rest = other := by
  simp only [SemanticArtifact.frame, List.append_assoc, List.cons_append, List.nil_append,
    List.cons.injEq, true_and] at h
  obtain ⟨hpath, h⟩ := Bytes.separated_inj (Bytes.zero_not_mem_to_utf8 hleft.path_plain)
    (Bytes.zero_not_mem_to_utf8 hright.path_plain) h
  have hdigests : left.sha256.toUTF8.toList.length = right.sha256.toUTF8.toList.length := by
    rw [Bytes.length_to_utf8, Bytes.length_to_utf8]
    exact hleft.digest_length.trans hright.digest_length.symm
  obtain ⟨hdigest, h⟩ := List.append_inj h hdigests
  have hsizes : (littleEndian left.size).length = (littleEndian right.size).length := by
    simp [littleEndian]
  rw [List.cons.injEq] at h
  obtain ⟨hsize, hrest⟩ := List.append_inj h.2 hsizes
  refine ⟨?_, hrest⟩
  cases left
  cases right
  rw [SemanticArtifact.mk.injEq]
  exact ⟨Bytes.to_utf8_to_list_injective hpath, Bytes.to_utf8_to_list_injective hdigest,
    little_endian_injective hsize⟩

/-- The frames of admitted artifacts determine them. -/
theorem frames_inj {left right : List SemanticArtifact}
    (hleft : ∀ artifact ∈ left, artifact.Admitted)
    (hright : ∀ artifact ∈ right, artifact.Admitted)
    (h : left.flatMap SemanticArtifact.frame = right.flatMap SemanticArtifact.frame) :
    left = right := by
  induction left generalizing right with
  | nil =>
      cases right with
      | nil => rfl
      | cons artifact right => simp [SemanticArtifact.frame] at h
  | cons artifact left ih =>
      cases right with
      | nil => simp [SemanticArtifact.frame] at h
      | cons artifact' right =>
          rw [List.flatMap_cons, List.flatMap_cons] at h
          rw [List.forall_mem_cons] at hleft hright
          obtain ⟨heq, htail⟩ := frame_inj hleft.1 hright.1 h
          rw [heq, ih hleft.2 hright.2 htail]

/-- The canonical artifacts of an admitted manifest are admitted. -/
theorem Manifest.Admitted.canonical_triples {manifest : Manifest} (h : manifest.Admitted) :
    ∀ artifact ∈ manifest.canonicalTriples, artifact.Admitted := by
  intro artifact hmem
  rw [(canonical_triples_perm manifest).mem_iff, Manifest.triples, List.mem_map] at hmem
  obtain ⟨declared, hdeclared, rfl⟩ := hmem
  exact ⟨(h.artifacts declared hdeclared).path_plain,
    (h.artifacts declared hdeclared).digest_length⟩

/-- The framed byte string determines the identifier, the revision and the artifacts. -/
theorem artifact_fingerprint_input_eq_iff {left right : Manifest} (hleft : left.Admitted)
    (hright : right.Admitted) :
    left.artifactFingerprintInput = right.artifactFingerprintInput ↔
      left.canonicalId = right.canonicalId ∧ left.revision = right.revision ∧
        left.canonicalTriples = right.canonicalTriples := by
  rw [artifact_fingerprint_input_eq, artifact_fingerprint_input_eq]
  constructor
  · intro h
    obtain ⟨hid, h⟩ := Bytes.separated_inj (Bytes.zero_not_mem_to_utf8 hleft.id_plain)
      (Bytes.zero_not_mem_to_utf8 hright.id_plain) h
    have hlength : left.revision.toUTF8.toList.length = right.revision.toUTF8.toList.length := by
      rw [Bytes.length_to_utf8, Bytes.length_to_utf8]
      exact hleft.revision_length.trans hright.revision_length.symm
    obtain ⟨hrevision, hframes⟩ := List.append_inj h hlength
    exact ⟨Bytes.to_utf8_to_list_injective hid, Bytes.to_utf8_to_list_injective hrevision,
      frames_inj hleft.canonical_triples hright.canonical_triples hframes⟩
  · rintro ⟨hid, hrevision, hartifacts⟩
    rw [hid, hrevision, hartifacts]

/-! ## The JSON text of the inference contract -/

/-- An optional text as serde writes it. -/
def jsonOption : Option String → Json
  | none => .null
  | some text => .string text

/-- `Serialize` of `Pooling`, with `rename_all = "snake_case"`. -/
def Pooling.serialize : Pooling → Json
  | .cls => .string "cls"
  | .mean => .string "mean"
  | .lastToken => .string "last_token"

/-- `Serialize` of `TokenizerMetadata`. -/
def TokenizerMetadata.serialize (tokenizer : TokenizerMetadata) : Json :=
  .object [("kind", .string tokenizer.kind), ("max_tokens", .number tokenizer.maxTokens.toNat),
    ("lowercase", .bool tokenizer.lowercase)]

/-- `Serialize` of `Prefixes`. -/
def Prefixes.serialize (prefixes : Prefixes) : Json :=
  .object [("query", .string prefixes.query), ("document", .string prefixes.document)]

/-- `Serialize` of `Dimensions`. -/
def Dimensions.serialize (dimensions : Dimensions) : Json :=
  .object [("native", .number dimensions.native.toNat),
    ("matryoshka", .array (dimensions.matryoshka.map fun value => .number value.toNat))]

/-- `Serialize` of `TensorMetadata`. -/
def TensorMetadata.serialize (tensors : TensorMetadata) : Json :=
  .object [("format", .string tensors.format), ("dtype", .string tensors.dtype),
    ("architecture", .string tensors.architecture)]

/-- `Serialize` of `OnnxInputNames`. -/
def OnnxInputNames.serialize (inputs : OnnxInputNames) : Json :=
  .object [("input_ids", .string inputs.inputIds),
    ("attention_mask", jsonOption inputs.attentionMask),
    ("token_type_ids", jsonOption inputs.tokenTypeIds)]

/-- `Serialize` of `RuntimeMetadata`, with `tag = "engine"` and `rename_all = "snake_case"`. -/
def RuntimeMetadata.serialize : RuntimeMetadata → Json
  | .catalogOnly => .object [("engine", .string "catalog_only")]
  | .onnx modelFile tokenizerFile inputs output padTokenId normalize =>
      .object [("engine", .string "onnx"), ("model_file", .string modelFile),
        ("tokenizer_file", .string tokenizerFile), ("inputs", inputs.serialize),
        ("output", .string output), ("pad_token_id", .number padTokenId.toNat),
        ("normalize", .bool normalize)]

/-- `Serialize` of `SemanticArtifact`. -/
def SemanticArtifact.serialize (artifact : SemanticArtifact) : Json :=
  .object [("path", .string artifact.path), ("sha256", .string artifact.sha256),
    ("size", .number artifact.size.toNat)]

/-- `Serialize` of `SemanticContract`. -/
def SemanticContract.serialize (contract : SemanticContract) : Json :=
  .object [("schema_version", .number contract.schemaVersion.toNat),
    ("canonical_id", .string contract.canonicalId), ("revision", .string contract.revision),
    ("tokenizer", contract.tokenizer.serialize), ("pooling", contract.pooling.serialize),
    ("prefixes", contract.prefixes.serialize), ("dimensions", contract.dimensions.serialize),
    ("tensors", contract.tensors.serialize), ("runtime", contract.runtime.serialize),
    ("artifacts", .array (contract.artifacts.map SemanticArtifact.serialize))]

/-- `serde_json::to_vec` writes the compact text of the serialized contract. -/
def External.WritesCompactJson (ext : External) : Prop :=
  ∀ contract, ext.encodeContract contract =
    (String.ofList contract.serialize.write).toUTF8.toList

/-- Distinct optional texts are written differently. -/
theorem json_option_inj {left right : Option String} (h : jsonOption left = jsonOption right) :
    left = right := by
  cases left <;> cases right <;> simp_all [jsonOption]

/-- Distinct pooling strategies are written differently. -/
theorem Pooling.serialize_inj {left right : Pooling} (h : left.serialize = right.serialize) :
    left = right := by
  cases left <;> cases right <;> simp_all [Pooling.serialize]

/-- Distinct runtime contracts are written differently. -/
theorem RuntimeMetadata.serialize_inj {left right : RuntimeMetadata}
    (h : left.serialize = right.serialize) : left = right := by
  cases left with
  | catalogOnly =>
      cases right with
      | catalogOnly => rfl
      | onnx => simp [RuntimeMetadata.serialize] at h
  | onnx modelFile tokenizerFile inputs output padTokenId normalize =>
      cases right with
      | catalogOnly => simp [RuntimeMetadata.serialize] at h
      | onnx modelFile' tokenizerFile' inputs' output' padTokenId' normalize' =>
          simp only [RuntimeMetadata.serialize, OnnxInputNames.serialize, Json.object.injEq,
            List.cons.injEq, Prod.mk.injEq, Json.string.injEq, Json.number.injEq,
            Json.bool.injEq, UInt32.toNat_inj, true_and, and_true] at h
          obtain ⟨hmodel, htokenizer, ⟨hids, hmask, htypes⟩, houtput, hpad, hnormalize⟩ := h
          have hinputs : inputs = inputs' := by
            cases inputs
            cases inputs'
            rw [OnnxInputNames.mk.injEq]
            exact ⟨hids, json_option_inj hmask, json_option_inj htypes⟩
          rw [hmodel, htokenizer, hinputs, houtput, hpad, hnormalize]

/-- Distinct dimensions are written differently. -/
theorem Dimensions.serialize_inj {left right : Dimensions}
    (h : left.serialize = right.serialize) : left = right := by
  cases left
  cases right
  simp only [Dimensions.serialize, Json.object.injEq, List.cons.injEq, Prod.mk.injEq,
    Json.number.injEq, Json.array.injEq, UInt32.toNat_inj, true_and, and_true] at h
  rw [Dimensions.mk.injEq]
  refine ⟨h.1, List.map_injective_iff.mpr ?_ h.2⟩
  intro value other heq
  exact UInt32.toNat_inj.mp (Json.number.inj heq)

/-- Distinct artifacts are written differently. -/
theorem SemanticArtifact.serialize_injective : Function.Injective SemanticArtifact.serialize := by
  intro left right h
  cases left
  cases right
  simpa [SemanticArtifact.serialize, UInt64.toNat_inj] using h

/-- Distinct contracts are written differently. -/
theorem SemanticContract.serialize_injective : Function.Injective SemanticContract.serialize := by
  intro left right h
  cases left with
  | mk schemaVersion canonicalId revision tokenizer pooling prefixes dimensions tensors runtime
      artifacts =>
    cases right
    cases tokenizer
    cases prefixes
    cases tensors
    simp only [SemanticContract.serialize, TokenizerMetadata.serialize, Prefixes.serialize,
      TensorMetadata.serialize, Json.object.injEq, List.cons.injEq, Prod.mk.injEq,
      Json.string.injEq, Json.number.injEq, Json.bool.injEq, Json.array.injEq,
      UInt32.toNat_inj, true_and, and_true] at h
    obtain ⟨hschema, hid, hrevision, htokenizer, hpooling, hprefixes, hdimensions, htensors,
      hruntime, hartifacts⟩ := h
    simp only [hschema, hid, hrevision, htokenizer, hprefixes, htensors,
      Pooling.serialize_inj hpooling, Dimensions.serialize_inj hdimensions,
      RuntimeMetadata.serialize_inj hruntime,
      List.map_injective_iff.mpr SemanticArtifact.serialize_injective hartifacts]

/-- The JSON text determines the contract. -/
theorem External.WritesCompactJson.injective {ext : External} (h : ext.WritesCompactJson) :
    Function.Injective ext.encodeContract := by
  intro left right heq
  rw [h, h] at heq
  have htext := Bytes.to_utf8_to_list_injective heq
  have hchars := congrArg String.toList htext
  rw [String.toList_ofList, String.toList_ofList] at hchars
  exact SemanticContract.serialize_injective (Json.write_injective hchars)

/-- Two manifests have one contract exactly when they agree on every field of it and on the
artifacts up to their order. -/
theorem semantic_contract_eq_iff (left right : Manifest) :
    left.semanticContract = right.semanticContract ↔
      left.schemaVersion = right.schemaVersion ∧ left.canonicalId = right.canonicalId ∧
      left.revision = right.revision ∧ left.tokenizer = right.tokenizer ∧
      left.pooling = right.pooling ∧ left.prefixes = right.prefixes ∧
      left.dimensions = right.dimensions ∧ left.tensors = right.tensors ∧
      left.runtime = right.runtime ∧ left.triples.Perm right.triples := by
  rw [← canonical_triples_eq_iff, Manifest.semanticContract, Manifest.semanticContract,
    SemanticContract.mk.injEq]
  rfl

/-- The fingerprints are canonical. Of two manifests that `validate` accepts, the artifact
fingerprint hashes one byte string exactly when the identifier, the revision and the set of
artifacts agree, and the semantic fingerprint hashes one JSON text exactly when the whole
inference contract agrees with the artifacts in any order. -/
theorem fingerprints_canonical (ext : External) (hjson : ext.WritesCompactJson)
    (left right : Manifest) (hleft : left.validate ext = .ok ())
    (hright : right.validate ext = .ok ()) :
    (left.artifactFingerprintInput = right.artifactFingerprintInput ↔
      left.canonicalId = right.canonicalId ∧ left.revision = right.revision ∧
        ∀ artifact, artifact ∈ left.triples ↔ artifact ∈ right.triples) ∧
    (ext.encodeContract left.semanticContract = ext.encodeContract right.semanticContract ↔
      left.schemaVersion = right.schemaVersion ∧ left.canonicalId = right.canonicalId ∧
      left.revision = right.revision ∧ left.tokenizer = right.tokenizer ∧
      left.pooling = right.pooling ∧ left.prefixes = right.prefixes ∧
      left.dimensions = right.dimensions ∧ left.tensors = right.tensors ∧
      left.runtime = right.runtime ∧ left.triples.Perm right.triples) := by
  have hadmitted := Manifest.validate_admitted hleft
  have hadmitted' := Manifest.validate_admitted hright
  constructor
  · rw [artifact_fingerprint_input_eq_iff hadmitted hadmitted', canonical_triples_eq_iff,
      triples_perm_iff hadmitted hadmitted']
  · rw [hjson.injective.eq_iff, semantic_contract_eq_iff]

/-- A second artifact for `Manifest.fixture`. -/
def secondArtifact : Artifact :=
  { path := "tokenizer.json"
    url := "https://example.invalid/tokenizer"
    sha256 := "3e23e8160039594a33894f6564e1b1348bbd7a0088d42c4acb73eeaed59c009d"
    size := 256 }

/-- `Manifest.fixture` with the second artifact at the end. -/
def Manifest.paired : Manifest :=
  { Manifest.fixture with artifacts := Manifest.fixture.artifacts ++ [secondArtifact] }

/-- `Manifest.paired` with its artifacts the other way round. -/
def Manifest.pairedReversed : Manifest :=
  { Manifest.fixture with artifacts := secondArtifact :: Manifest.fixture.artifacts }

/-- `External.fixture` with the compact JSON text of a contract. -/
def External.compact : External :=
  { External.fixture [] with
    encodeContract := fun contract => (String.ofList contract.serialize.write).toUTF8.toList }

/-- Two manifests that list their artifacts in a different order have both byte strings in
common, although the second size has NUL bytes in its encoding. -/
theorem fingerprints_canonical_reordered :
    Manifest.paired ≠ Manifest.pairedReversed ∧
    Manifest.paired.artifactFingerprintInput = Manifest.pairedReversed.artifactFingerprintInput ∧
    External.compact.encodeContract Manifest.paired.semanticContract =
      External.compact.encodeContract Manifest.pairedReversed.semanticContract := by
  have h := fingerprints_canonical .compact (fun _ => rfl) .paired .pairedReversed
    (by decide +kernel) (by decide +kernel)
  have hperm : Manifest.paired.triples.Perm Manifest.pairedReversed.triples :=
    List.Perm.swap _ _ _
  refine ⟨by decide, h.1.mpr ⟨rfl, rfl, fun artifact => hperm.mem_iff⟩, h.2.mpr ?_⟩
  exact ⟨rfl, rfl, rfl, rfl, rfl, rfl, rfl, rfl, rfl, hperm⟩

end EmbeddingServer
