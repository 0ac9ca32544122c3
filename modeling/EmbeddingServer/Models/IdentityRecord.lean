import EmbeddingServer.Lib.PrettyJson
import EmbeddingServer.Models.Layout
import EmbeddingServer.Models.Inspection

/-!
# The identity record

`Manifest::to_json` writes the record `manifest.json` as indented JSON and
`Manifest::from_json` reads it back. Both refuse more than `MAX_MANIFEST_BYTES` bytes, but
not of the same text: what is read may be compact, what is written never is. The difference
is the white space, `Manifest.layoutBytes`.
-/

namespace EmbeddingServer

open Layout

/-! ## Serialization -/

/-- `Serialize` of `License`. -/
def License.serialize (license : License) : Json :=
  .object [("spdx", .string license.spdx), ("source_url", .string license.sourceUrl)]

/-- `Serialize` of `SemanticVerification`, with `tag = "status"` and
`rename_all = "snake_case"`. -/
def SemanticVerification.serialize : SemanticVerification → Json
  | .verified evidence => .object [("status", .string "verified"), ("evidence", .string evidence)]
  | .unverified reason => .object [("status", .string "unverified"), ("reason", .string reason)]

/-- `Serialize` of `Artifact`. -/
def Artifact.serialize (artifact : Artifact) : Json :=
  .object [("path", .string artifact.path), ("url", .string artifact.url),
    ("sha256", .string artifact.sha256), ("size", .number artifact.size.toNat)]

/-- The fields of a serialized manifest in front of the artifacts. -/
def Manifest.leadingFields (manifest : Manifest) : List (String × Json) :=
  [("schema_version", .number manifest.schemaVersion.toNat),
    ("canonical_id", .string manifest.canonicalId), ("revision", .string manifest.revision),
    ("license", manifest.license.serialize),
    ("semantic_verification", manifest.semanticVerification.serialize),
    ("tokenizer", manifest.tokenizer.serialize), ("pooling", manifest.pooling.serialize),
    ("prefixes", manifest.prefixes.serialize), ("dimensions", manifest.dimensions.serialize),
    ("tensors", manifest.tensors.serialize), ("runtime", manifest.runtime.serialize)]

/-- `Serialize` of `Manifest`. -/
def Manifest.serialize (manifest : Manifest) : Json :=
  .object (manifest.leadingFields ++
    [("artifacts", .array (manifest.artifacts.map Artifact.serialize))])

/-- The bytes of a text. -/
def textBytes (text : List Char) : List UInt8 :=
  (String.ofList text).toUTF8.toList

theorem length_text_bytes (text : List Char) : (textBytes text).length = Json.textSize text := by
  rw [textBytes, Bytes.length_to_utf8, String.toList_ofList]
  rfl

/-- `serde_json::to_vec_pretty` writes the indented text of the serialized manifest, and
`serde_json::from_slice` reads it back. -/
structure External.RoundTrips (ext : External) (manifest : Manifest) : Prop where
  writes : ext.encodeManifest manifest = textBytes (manifest.serialize.writePretty 0)
  reads : ext.decodeManifest (ext.encodeManifest manifest) = some manifest

/-! ## How long the record is -/

/-- The length of the compact JSON text of a manifest. -/
def Manifest.compactBytes (manifest : Manifest) : Nat :=
  Json.textSize manifest.serialize.write

/-- The white space of a list that is written below `depth` levels. -/
def listLayoutBytes (depth itemBytes : Nat) : Nat → Nat
  | 0 => 0
  | count + 1 => (count + 1) * itemBytes + (1 + 2 * depth)

/-- The white space in the record of a manifest: it depends on the number of artifacts, the
number of truncated dimensions and the kind of runtime. -/
def Manifest.layoutBytes (manifest : Manifest) : Nat :=
  151 + listLayoutBytes 2 7 manifest.dimensions.matryoshka.length +
    (match manifest.runtime with
      | .catalogOnly => 9
      | .onnx .. => 74) +
    listLayoutBytes 1 42 manifest.artifacts.length

/-- The white space of an array whose items have one shape. -/
theorem indentation_array_map {α : Type*} {depth width : Nat} {f : α → Json}
    (h : ∀ item, Json.indentation (depth + 1) (f item) = width) (items : List α) :
    Json.indentation depth (.array (items.map f)) =
      listLayoutBytes depth (1 + 2 * (depth + 1) + width) items.length := by
  have hitems := Json.indentation_items_map h items
  cases items with
  | nil => rfl
  | cons item items =>
      rw [List.map_cons] at hitems ⊢
      rw [Json.indentation, hitems]
      rfl

/-- The white space of the loading contract. -/
theorem indentation_runtime (runtime : RuntimeMetadata) :
    Json.indentation 1 runtime.serialize =
      match runtime with
        | .catalogOnly => 9
        | .onnx .. => 74 := by
  cases runtime with
  | catalogOnly => rfl
  | onnx modelFile tokenizerFile inputs output padTokenId normalize =>
      have hoption : ∀ text : Option String, Json.indentation 3 (jsonOption text) = 0 := by
        intro text
        cases text <;> rfl
      simp [RuntimeMetadata.serialize, OnnxInputNames.serialize, Json.indentation,
        Json.indentationFields, hoption]

/-- The white space of a serialized manifest. -/
theorem Manifest.indentation_serialize (manifest : Manifest) :
    Json.indentation 0 manifest.serialize = manifest.layoutBytes := by
  have hartifact : ∀ artifact : Artifact, Json.indentation 2 artifact.serialize = 37 :=
    fun _ => rfl
  have hnumber : ∀ value : UInt32, Json.indentation 3 (.number value.toNat) = 0 := fun _ => rfl
  have hartifacts : Json.indentation 1 (.array (manifest.artifacts.map Artifact.serialize)) =
      listLayoutBytes 1 42 manifest.artifacts.length :=
    indentation_array_map hartifact manifest.artifacts
  have hnumbers : Json.indentation 2
      (.array (manifest.dimensions.matryoshka.map fun value => .number value.toNat)) =
      listLayoutBytes 2 7 manifest.dimensions.matryoshka.length :=
    indentation_array_map hnumber manifest.dimensions.matryoshka
  have hdimensions : Json.indentation 1 manifest.dimensions.serialize =
      15 + listLayoutBytes 2 7 manifest.dimensions.matryoshka.length := by
    have hnative : Json.indentation 2 (.number manifest.dimensions.native.toNat) = 0 := rfl
    rw [Dimensions.serialize, Json.indentation]
    simp only [Json.indentationFields, hnative, hnumbers]
    omega
  have hlicense : Json.indentation 1 manifest.license.serialize = 15 := rfl
  have htokenizer : Json.indentation 1 manifest.tokenizer.serialize = 21 := rfl
  have hprefixes : Json.indentation 1 manifest.prefixes.serialize = 15 := rfl
  have htensors : Json.indentation 1 manifest.tensors.serialize = 21 := rfl
  have hsemantic : Json.indentation 1 manifest.semanticVerification.serialize = 15 := by
    cases manifest.semanticVerification <;> rfl
  have hpooling : Json.indentation 1 manifest.pooling.serialize = 0 := by
    cases manifest.pooling <;> rfl
  have hstring : ∀ text : String, Json.indentation 1 (.string text) = 0 := fun _ => rfl
  have hversion : Json.indentation 1 (.number manifest.schemaVersion.toNat) = 0 := rfl
  rw [Manifest.serialize, Manifest.leadingFields, List.cons_append, Json.indentation]
  simp only [List.cons_append, List.nil_append, Json.indentationFields, Nat.zero_add, hversion,
    hstring, hlicense, hsemantic, htokenizer, hpooling, hprefixes, hdimensions, htensors,
    indentation_runtime, hartifacts, Manifest.layoutBytes]
  omega

/-- The length of the record. -/
theorem External.RoundTrips.length_encode_manifest {ext : External} {manifest : Manifest}
    (h : ext.RoundTrips manifest) :
    (ext.encodeManifest manifest).length = manifest.compactBytes + manifest.layoutBytes := by
  rw [h.writes, length_text_bytes, Json.size_write_pretty, Manifest.indentation_serialize]
  rfl

/-! ## Writing and reading the record -/

/-- The part of the installer that writes the record, after the commit gate. -/
def stageRecord (ext : External) (loc : Loc) (manifest : Manifest) : StoreM Unit := do
  let encoded ← lift (manifest.toJson ext)
  createNewContainedFile loc manifestFile
  fs (.append loc manifestFile encoded)
  fs (.syncEntry loc manifestFile)
  let metadata ← pathMetadata loc manifestFile
  failIf (metadata ≠ (.file, encoded.length)) (.invalid "staged manifest changed while writing")
  revalidateContainedPath loc manifestFile

/-- An installation promotes its staging directory once the record is written. -/
theorem commit_install_eq (installer : Installer) (manifest : Manifest) :
    commitInstall installer manifest = (do
      stageRecord installer.store.ext (.staging (installer.store.key manifest)) manifest
      promote installer.store (installer.store.key manifest)) := by
  simp only [commitInstall, stageRecord, bind_assoc]

/-- The manifest can be written as the record of an installation and read back. -/
structure Manifest.Recordable (ext : External) (manifest : Manifest) : Prop where
  /-- The record can be encoded, and its text decodes to the same manifest. -/
  encodes : ∃ encoded, manifest.toJson ext = .ok encoded ∧
    Manifest.fromJson ext encoded = .ok manifest
  /-- Nothing fails while the record is written next to the artifacts of a staging directory
  that has room for it, and the record is there afterwards. -/
  written : ∀ (faults : Set Choice) (loc : Loc) (d : Directory String) (s : Cache), Lucky faults →
    Shows loc d s → (d.place manifestFile).isSome →
    Spec faults Free (stageRecord ext loc manifest)
      (fun result s' => result = .ok () ∧ StoresManifest ext loc manifest s') s
  /-- Where the record stands, `read_contained_manifest` returns the manifest. -/
  readBack : ∀ (faults : Set Choice) (store : ModelStore) (loc : Loc) (s : Cache)
      (encoded : List UInt8), Lucky faults → store.ext = ext → manifest.toJson ext = .ok encoded →
    HasFile loc manifestFile encoded s →
    Spec faults Free (readContainedManifest store loc) (fun result _ => result = .ok manifest) s

section

variable {ext : External} {manifest : Manifest}

/-- `from_json` accepts only valid manifests. -/
theorem Manifest.from_json_ok {bytes : List UInt8} :
    Manifest.fromJson ext bytes = .ok manifest ↔
      bytes.length ≤ maxManifestBytes ∧ ext.decodeManifest bytes = some manifest ∧
        manifest.validate ext = .ok () := by
  rw [Manifest.fromJson, Checked.bind_ok]
  constructor
  · rintro ⟨_, hsize, hdecoded⟩
    rw [reject_if_ok, decide_eq_false_iff_not, Nat.not_lt] at hsize
    cases hfound : ext.decodeManifest bytes with
    | none =>
        rw [hfound] at hdecoded
        cases hdecoded
    | some found =>
        rw [hfound] at hdecoded
        obtain ⟨_, hvalid, hsame⟩ := Checked.bind_ok.mp hdecoded
        cases hsame
        exact ⟨hsize, rfl, hvalid⟩
  · rintro ⟨hsize, hdecoded, hvalid⟩
    refine ⟨(), reject_if_ok.mpr (decide_eq_false (Nat.not_lt.mpr hsize)), ?_⟩
    rw [hdecoded]
    exact Checked.bind_ok.mpr ⟨(), hvalid, rfl⟩

/-- `to_json` writes valid manifests whose record is not too long. -/
theorem Manifest.to_json_ok {encoded : List UInt8} :
    manifest.toJson ext = .ok encoded ↔
      manifest.validate ext = .ok () ∧ (ext.encodeManifest manifest).length ≤ maxManifestBytes ∧
        encoded = ext.encodeManifest manifest := by
  simp only [Manifest.toJson, Checked.bind_ok, reject_if_ok, decide_eq_false_iff_not, Nat.not_lt]
  constructor
  · rintro ⟨_, hvalid, _, hsize, hsame⟩
    exact ⟨hvalid, hsize, (Except.ok.inj hsame).symm⟩
  · rintro ⟨hvalid, hsize, rfl⟩
    exact ⟨(), hvalid, (), hsize, rfl⟩

/-- Bytes appended to a file are there, and the kinds of the entries stay. -/
theorem Shows.append_spec {faults : Set Choice} (hlucky : Lucky faults) {loc : Loc}
    {d : Directory String} {s : Cache} (h : Shows loc d s) {path : RelPath} (hpath : path ≠ [])
    {content bytes : List UInt8} (hfile : HasFile loc path content s) :
    Spec faults Free (fs (.append loc path bytes))
      (fun result s' => result = .ok () ∧ Shows loc d s' ∧
        HasFile loc path (content ++ bytes) s') s := by
  obtain ⟨tree, htree⟩ := h.tree
  refine spec_fs trivial (absurd hlucky) (fun choice _ => ⟨trivial, ?_⟩) (absurd hlucky)
  simp only [Cache.perform, htree, show s.node loc path = some (.file content) from hfile]
  refine ⟨rfl, ⟨⟨_, Cache.tree_eq_some.mpr Cache.set_node_entry⟩, fun other hother => ?_⟩, ?_⟩
  · rw [← h.node other hother, Cache.set_node_node, if_neg hother]
    by_cases heq : other = path
    · rw [if_pos heq, heq, show s.node loc path = some (.file content) from hfile]
      rfl
    · rw [if_neg heq, Cache.node_of_tree htree, if_neg hother]
  · rw [HasFile, Cache.set_node_node, if_neg hpath, if_pos rfl]

/-- Flushing a file that is there changes no entry. -/
theorem Shows.sync_entry_spec {faults : Set Choice} (hlucky : Lucky faults) {loc : Loc}
    {d : Directory String} {s : Cache} (h : Shows loc d s) {path : RelPath}
    {content : List UInt8} (hfile : HasFile loc path content s) :
    Spec faults Free (fs (.syncEntry loc path))
      (fun result s' => result = .ok () ∧ Shows loc d s' ∧ HasFile loc path content s') s := by
  refine spec_fs trivial (absurd hlucky) (fun choice _ => ⟨trivial, ?_⟩) (absurd hlucky)
  simp only [Cache.perform, show s.node loc path = some (.file content) from hfile,
    Option.isSome_some, if_true]
  exact ⟨rfl, ⟨h.tree, h.node⟩, hfile⟩

/-- A valid manifest whose record is not too long is written completely. -/
theorem stage_record_spec {faults : Set Choice} (hlucky : Lucky faults) {loc : Loc}
    {d : Directory String} {s : Cache} (h : Shows loc d s) (hfree : (d.place manifestFile).isSome)
    {encoded : List UInt8} (hencoded : manifest.toJson ext = .ok encoded) :
    Spec faults Free (stageRecord ext loc manifest)
      (fun result s' => result = .ok () ∧ HasFile loc manifestFile encoded s') s := by
  obtain ⟨d', hplace⟩ := Option.isSome_iff_exists.mp hfree
  refine spec_bind (spec_lift ?_)
  rw [hencoded]
  have hcreate := h.create_new_contained_file_spec hlucky hplace
  refine spec_bind ((hcreate.and (create_new_contained_file_spec manifestFile s)).mono
    (fun _ _ _ => trivial) fun result a ha => ?_)
  obtain ⟨⟨rfl, hshows⟩, hnew⟩ := ha
  obtain ⟨_, _, hempty⟩ := hnew rfl
  refine spec_bind ((hshows.append_spec hlucky (by decide) hempty).imp fun result b hb => ?_)
  obtain ⟨rfl, hshows, hfile⟩ := hb
  refine spec_bind ((hshows.sync_entry_spec hlucky hfile).imp fun result c hc => ?_)
  obtain ⟨rfl, hshows, hfile⟩ := hc
  rw [List.nil_append] at hfile
  refine spec_bind ((Shows.path_metadata_spec hlucky hfile).imp fun result e he => ?_)
  obtain ⟨rfl, rfl⟩ := he
  refine spec_bind (spec_fail_if (fun hbad => absurd rfl hbad) fun _ => ?_)
  refine spec_bind ((hshows.reject_reparse_components_spec hlucky _).imp fun result e he => ?_)
  obtain ⟨rfl, rfl⟩ := he
  refine spec_bind ((Shows.path_metadata_spec hlucky hfile).imp fun result e he => ?_)
  obtain ⟨rfl, rfl⟩ := he
  exact spec_fail_if (fun hbad => absurd rfl hbad) fun _ => ⟨rfl, hfile⟩

/-- A record that decodes to the manifest is read back. -/
theorem read_contained_manifest_stored {faults : Set Choice} (hlucky : Lucky faults)
    {store : ModelStore} {loc : Loc} {s : Cache}
    (h : StoresManifest store.ext loc manifest s) :
    Spec faults Free (readContainedManifest store loc) (fun result _ => result = .ok manifest) s :=
  Program.wpE.imp (read_contained_manifest_spec (watched_alone loc []) trivial)
    fun _ _ hread => hread.lucky hlucky manifest h

/-- A manifest that `from_json` accepts can be written and read back exactly when its compact
JSON text leaves room for the white space of the record. -/
theorem Manifest.recordable_iff (ext : External) (bytes : List UInt8) (manifest : Manifest)
    (hext : ext.RoundTrips manifest) (h : Manifest.fromJson ext bytes = .ok manifest) :
    manifest.Recordable ext ↔
      manifest.compactBytes + manifest.layoutBytes ≤ maxManifestBytes := by
  obtain ⟨_, _, hvalid⟩ := Manifest.from_json_ok.mp h
  rw [← hext.length_encode_manifest]
  constructor
  · intro hrecordable
    obtain ⟨encoded, hencoded, _⟩ := hrecordable.encodes
    exact (Manifest.to_json_ok.mp hencoded).2.1
  · intro hsize
    have hencoded : manifest.toJson ext = .ok (ext.encodeManifest manifest) :=
      Manifest.to_json_ok.mpr ⟨hvalid, hsize, rfl⟩
    have hdecoded : Manifest.fromJson ext (ext.encodeManifest manifest) = .ok manifest :=
      Manifest.from_json_ok.mpr ⟨hsize, hext.reads, hvalid⟩
    refine ⟨⟨_, hencoded, hdecoded⟩, ?_, ?_⟩
    · intro faults loc d s hlucky hshows hfree
      refine (stage_record_spec hlucky hshows hfree hencoded).imp fun result s' hs' => ?_
      exact ⟨hs'.1, _, hs'.2, hsize, hdecoded⟩
    · rintro faults store loc s encoded hlucky rfl hother hfile
      rw [hencoded] at hother
      cases hother
      exact read_contained_manifest_stored hlucky ⟨_, hfile, hsize, hdecoded⟩

/-- External code that writes the record as `serde_json` does, and reads the compact and the
indented text of one manifest. -/
def External.recording (known : Manifest) : External :=
  { External.fixture [] with
    encodeManifest := fun manifest => textBytes (manifest.serialize.writePretty 0)
    decodeManifest := fun bytes =>
      if bytes = textBytes known.serialize.write ∨
          bytes = textBytes (known.serialize.writePretty 0) then some known
      else none }

theorem External.recording_round_trips (manifest : Manifest) :
    (External.recording manifest).RoundTrips manifest :=
  ⟨rfl, if_pos (.inr rfl)⟩

/-- The compact text of a manifest that is short enough is accepted. -/
theorem from_json_compact {manifest : Manifest}
    (hvalid : manifest.validate (.recording manifest) = .ok ())
    (hsize : manifest.compactBytes ≤ maxManifestBytes) :
    Manifest.fromJson (.recording manifest) (textBytes manifest.serialize.write) =
      .ok manifest :=
  Manifest.from_json_ok.mpr ⟨(length_text_bytes _).le.trans hsize, if_pos (.inl rfl), hvalid⟩

/-- The record of the manifest of the tests can be written and read back. -/
theorem Manifest.recordable_fixture :
    Manifest.fixture.Recordable (.recording Manifest.fixture) := by
  have hvalid : Manifest.fixture.validate (.recording .fixture) = .ok () :=
    Manifest.validate_fixture rfl
  have hsize : Manifest.fixture.compactBytes + Manifest.fixture.layoutBytes ≤ maxManifestBytes := by
    decide +kernel
  exact (Manifest.recordable_iff _ _ _ (External.recording_round_trips _)
    (from_json_compact hvalid ((Nat.le_add_right _ _).trans hsize))).mpr hsize

/-! ### A manifest near the bound -/

/-- A URL with control characters at its end, which the URL parser escapes and JSON writes as
six characters each. -/
def longUrl (count : Nat) : String :=
  String.ofList ("https://example.invalid/".toList ++ List.replicate count (Char.ofNat 1))

/-- An artifact for each of the paths below. -/
def crowdedArtifact (url path : String) : Artifact :=
  { path := path
    url := url
    sha256 := "ca978112ca1bbdcafac231b39a23dc4da786eff8147c4e72b9807785afee48bb"
    size := 1 }

/-- Twenty-two paths. -/
def crowdedPaths : List String :=
  ["a", "b", "c", "d", "e", "f", "g", "h", "i", "j", "k", "l", "m", "n", "o", "p", "q", "r", "s",
    "t", "u", "v"]

/-- The manifest of the tests with an artifact at each path, all with one URL. -/
def Manifest.crowded (url : String) : Manifest :=
  { Manifest.fixture with artifacts := crowdedPaths.map (crowdedArtifact url) }

/-- The path and the URL of an artifact count in its text as they are escaped. -/
theorem size_crowded_artifact (url path : String) :
    Json.textSize (crowdedArtifact url path).serialize.write =
      Json.textSize (crowdedArtifact "" "").serialize.write +
        Json.textSize (path.toList.flatMap Json.escape) +
        Json.textSize (url.toList.flatMap Json.escape) := by
  simp only [crowdedArtifact, Artifact.serialize, Json.write, Json.writeFields, Json.quote,
    Json.text_size_cons, Json.text_size_append, String.toList_empty, List.flatMap_nil,
    Json.text_size_nil]
  omega

theorem size_empty_artifact : Json.textSize (crowdedArtifact "" "").serialize.write = 105 := by
  decide

/-- An artifact whose path is one character takes 107 bytes with the comma behind it, and its
URL. -/
theorem size_crowded_artifacts (url : String) {paths : List String}
    (hpaths : ∀ path ∈ paths, Json.textSize (path.toList.flatMap Json.escape) = 1) :
    Json.textSize (Json.writeItems ((paths.map (crowdedArtifact url)).map Artifact.serialize)) =
      1 + paths.length * (107 + Json.textSize (url.toList.flatMap Json.escape)) := by
  have hcomma : ','.utf8Size = 1 := rfl
  induction paths with
  | nil => simp only [List.map_nil, List.length_nil, Nat.zero_mul, Nat.add_zero]; rfl
  | cons path paths ih =>
      rw [List.forall_mem_cons] at hpaths
      simp only [List.map_cons, Json.writeItems, Json.text_size_cons, Json.text_size_append,
        ih hpaths.2, size_crowded_artifact url path, size_empty_artifact, hpaths.1,
        List.length_cons, Nat.add_one_mul paths.length]
      omega

/-- A list that is not empty is as long as its items with a comma in front of each. -/
theorem size_array {items : List Json} (h : items ≠ []) :
    Json.textSize (Json.write (.array items)) = Json.textSize (Json.writeItems items) := by
  cases items with
  | nil => exact absurd rfl h
  | cons item items => rfl

/-- The last field of an object counts with its name, a comma and a colon. -/
theorem size_object_append {fields : List (String × Json)} (h : fields ≠ []) (key : String)
    (value : Json) :
    Json.textSize (Json.write (.object (fields ++ [(key, value)]))) =
      Json.textSize (Json.writeFields fields) + Json.textSize (Json.quote key) + 2 +
        Json.textSize (Json.write value) := by
  have hfields : ∀ fields : List (String × Json),
      Json.textSize (Json.writeFields (fields ++ [(key, value)])) =
        Json.textSize (Json.writeFields fields) + Json.textSize (Json.quote key) + 2 +
          Json.textSize (Json.write value) := by
    intro fields
    have hcomma : ','.utf8Size = 1 := rfl
    have hcolon : ':'.utf8Size = 1 := rfl
    induction fields with
    | nil =>
        simp only [List.nil_append, Json.writeFields, Json.text_size_cons, Json.text_size_append]
        omega
    | cons field fields ih =>
        simp only [List.cons_append, Json.writeFields, Json.text_size_cons, Json.text_size_append,
          ih]
        omega
  cases fields with
  | nil => exact absurd rfl h
  | cons field fields => exact hfields (field :: fields)

/-- Between two manifests that differ in their artifacts only, the arrays of the artifacts make
the difference in size. -/
theorem Manifest.compact_bytes_artifacts (manifest : Manifest) (left right : List Artifact) :
    ({ manifest with artifacts := left } : Manifest).compactBytes +
        Json.textSize (Json.write (.array (right.map Artifact.serialize))) =
      ({ manifest with artifacts := right } : Manifest).compactBytes +
        Json.textSize (Json.write (.array (left.map Artifact.serialize))) := by
  have hfront : manifest.leadingFields ≠ [] := List.cons_ne_nil _ _
  have hsize : ∀ artifacts : List Artifact,
      ({ manifest with artifacts := artifacts } : Manifest).compactBytes =
        Json.textSize (Json.writeFields manifest.leadingFields) +
          Json.textSize (Json.quote "artifacts") + 2 +
          Json.textSize (Json.write (.array (artifacts.map Artifact.serialize))) :=
    fun artifacts => size_object_append hfront _ _
  rw [hsize, hsize]
  omega

/-- The length of the compact text of a crowded manifest. -/
theorem Manifest.compact_bytes_crowded (url : String) :
    (Manifest.crowded url).compactBytes =
      2910 + 22 * Json.textSize (url.toList.flatMap Json.escape) := by
  have hbare : ({ Manifest.fixture with artifacts := [] } : Manifest).compactBytes = 557 := by
    decide +kernel
  have hpaths : ∀ path ∈ crowdedPaths, Json.textSize (path.toList.flatMap Json.escape) = 1 := by
    decide
  have hnone :
      Json.textSize (Json.write (.array (([] : List Artifact).map Artifact.serialize))) = 2 := rfl
  have hcount : crowdedPaths.length = 22 := rfl
  have hitems := size_crowded_artifacts url hpaths
  have hall : (Manifest.crowded url).compactBytes + 2 = 557 +
      Json.textSize (Json.write (.array ((crowdedPaths.map (crowdedArtifact url)).map
        Artifact.serialize))) := by
    have hsize :=
      Manifest.compact_bytes_artifacts .fixture (crowdedPaths.map (crowdedArtifact url)) []
    rwa [hbare, hnone] at hsize
  rw [size_array (by simp [crowdedPaths]), hitems, hcount] at hall
  omega

/-- A lower-case letter is a character of paths. -/
theorem is_path_character_letter {c : Char} (hletter : c.isLower = true) :
    isPathCharacter c = true := by
  have halpha : c.isAlpha = (c.isUpper || c.isLower) := rfl
  simp [isPathCharacter, Char.isAlphanum, halpha, hletter]

theorem to_lower_letter {c : Char} (hletter : c.isLower = true) : c.toLower = c := by
  obtain ⟨hlow, _⟩ := is_lower_iff_to_nat.mp hletter
  refine dif_neg fun ⟨_, hupper⟩ => ?_
  have hhigh : c.toNat ≤ 90 := UInt32.le_iff_toNat_le.mp hupper
  omega

/-- The name of a device has three characters at least. -/
theorem is_windows_device_name_letter (c : Char) : isWindowsDeviceName [c] = false := by
  have hnames : ∀ name ∈ windowsDeviceNames.map String.toList, 3 ≤ name.length := by decide
  rw [isWindowsDeviceName, List.contains_eq_mem, decide_eq_false_iff_not]
  intro hmem
  have hlength := hnames _ hmem
  rw [List.length_map] at hlength
  have hshort :=
    (List.takeWhile_prefix (p := fun x : Char => decide (x ≠ '.')) (l := [c])).length_le
  rw [List.length_singleton] at hshort
  omega

/-- A path of one lower-case letter is safe. -/
theorem validate_relative_path_letter {c : Char} (hletter : c.isLower = true) :
    validateRelativePath (String.singleton c) = .ok () := by
  have hbounds := is_lower_iff_to_nat.mp hletter
  have hne : ∀ other : Char, other.toNat < 97 → c ≠ other := by
    rintro other hother rfl
    omega
  have hslash := hne '/' (by decide)
  have hdot := hne '.' (by decide)
  have hspace := hne ' ' (by decide)
  have hback := hne '\\' (by decide)
  have hsize : c.utf8Size ≤ 4 := Char.utf8Size_le_four c
  have hsplit : splitSlash (String.singleton c) = [[c]] := by
    rw [splitSlash, String.toList_singleton, List.splitOn_cons_eq_if_modifyHead]
    simp [hslash]
  have hcomponents : pathComponents (String.singleton c) = [.normal [c]] := by
    simp [pathComponents, hsplit, hslash, hdot]
  have hlong : byteLength [c] ≤ 255 := by
    simp only [byteLength, List.map_cons, List.map_nil, List.sum_cons, List.sum_nil]
    omega
  simp [validateRelativePath, rejectIf, hsplit, hcomponents, hslash, hdot, hspace, hback.symm,
    PathComponent.isNormal, is_path_character_letter hletter, is_windows_device_name_letter, hlong,
    hlong.trans (by decide : 255 ≤ 1024)]

/-- The digest of the artifacts has 64 hexadecimal digits. -/
theorem crowded_artifact_digest (url path : String) :
    byteLength (crowdedArtifact url path).sha256.toList = 64 ∧
    (crowdedArtifact url path).sha256.toList.all isLowerHex = true := by
  rw [crowdedArtifact, String.toList_ofList]
  decide

/-- An artifact is accepted if its path is a letter that the artifacts before it do not have. -/
theorem validate_artifact_letter {known : Manifest} {url : String} {letters : List Char} {c : Char}
    (hurl : byteLength url.toList ≤ maxUrlBytes) (hletter : c.isLower = true)
    (hnew : c ∉ letters) :
    validateArtifact (.recording known) (letters.map fun letter => [letter])
        (crowdedArtifact url (String.singleton c)) =
      .ok ((letters ++ [c]).map fun letter => [letter]) := by
  have hportable : toAsciiLowercase (String.singleton c) = [c] := by
    rw [toAsciiLowercase, String.toList_singleton, List.map_singleton, to_lower_letter hletter]
  have hancestor : ∀ parent child : Char, isPathAncestor [parent] [child] = false := by
    simp [isPathAncestor]
  have hlong : decide (maxUrlBytes < byteLength url.toList) = false :=
    decide_eq_false (Nat.not_lt.mpr hurl)
  obtain ⟨hdigits, hhex⟩ := crowded_artifact_digest url (String.singleton c)
  have hself : (crowdedArtifact url (String.singleton c)).url = url := rfl
  rw [validateArtifact, hdigits, hhex, hself, hlong]
  simp [crowdedArtifact, validate_relative_path_letter hletter, hportable, hancestor, hnew,
    rejectIf, External.recording, External.fixture, Except.bind, bind, pure, Except.pure]

/-- Artifacts are accepted if their paths are letters and no letter is met twice. -/
theorem validate_artifact_letters {known : Manifest} {url : String}
    (hurl : byteLength url.toList ≤ maxUrlBytes) (letters before : List Char)
    (hletters : ∀ c ∈ letters, c.isLower = true) (hnodup : (before ++ letters).Nodup) :
    (letters.map fun c => crowdedArtifact url (String.singleton c)).foldlM
        (validateArtifact (.recording known)) (before.map fun letter => [letter]) =
      .ok ((before ++ letters).map fun letter => [letter]) := by
  induction letters generalizing before with
  | nil => simp [pure, Except.pure]
  | cons c letters ih =>
      have hnew : c ∉ before :=
        fun hmem => List.disjoint_of_nodup_append hnodup hmem List.mem_cons_self
      rw [List.append_cons] at hnodup ⊢
      rw [List.map_cons, List.foldlM_cons,
        validate_artifact_letter hurl (hletters c List.mem_cons_self) hnew]
      exact ih _ (fun other hmem => hletters other (List.mem_cons_of_mem _ hmem)) hnodup

/-- The letters that are the crowded paths. -/
theorem crowded_paths_letters : ∃ letters : List Char, crowdedPaths = letters.map String.singleton ∧
    (∀ c ∈ letters, c.isLower = true) ∧ letters.Nodup :=
  ⟨['a', 'b', 'c', 'd', 'e', 'f', 'g', 'h', 'i', 'j', 'k', 'l', 'm', 'n', 'o', 'p', 'q', 'r', 's',
    't', 'u', 'v'], by decide, List.all_eq_true.mp rfl, by decide⟩

/-- A crowded manifest is valid if its URL is not too long. -/
theorem Manifest.validate_crowded {known : Manifest} {url : String}
    (h : byteLength url.toList ≤ maxUrlBytes) :
    (Manifest.crowded url).validate (.recording known) = .ok () := by
  have hartifacts : ∀ {url : String}, byteLength url.toList ≤ maxUrlBytes →
      validateArtifacts (.recording known) (Manifest.crowded url).artifacts = .ok () := by
    intro url hurl
    obtain ⟨letters, hpaths, hletters, hnodup⟩ := crowded_paths_letters
    have hfold := @validate_artifact_letters known url hurl letters [] hletters hnodup
    rw [validateArtifacts, Manifest.crowded, hpaths, List.map_map]
    exact congrArg (· >>= _) hfold
  have hshort : (Manifest.crowded "").validate (.recording known) = .ok () := by
    have hparse : (External.recording known).parseUrl = (External.fixture []).parseUrl := rfl
    rw [Manifest.validate, hartifacts (by decide), hparse]
    decide
  rw [← hshort, Manifest.validate, Manifest.validate, hartifacts h, hartifacts (by decide)]
  rfl

/-- The origin that the URLs of the example begin with. -/
theorem size_origin :
    Json.textSize "https://example.invalid/".toList = 24 ∧
    Json.textSize ("https://example.invalid/".toList.flatMap Json.escape) = 24 := by
  decide

/-- A control character is written as six characters. -/
theorem size_control (count : Nat) :
    Json.textSize (List.replicate count (Char.ofNat 1)) = count ∧
    Json.textSize ((List.replicate count (Char.ofNat 1)).flatMap Json.escape) = 6 * count := by
  have hbyte : (Char.ofNat 1).utf8Size = 1 := by decide
  have hescaped : Json.textSize (Json.escape (Char.ofNat 1)) = 6 := by decide
  constructor
  · rw [Json.text_size_replicate, hbyte, Nat.mul_one]
  · induction count with
    | zero => rfl
    | succ count ih =>
        rw [List.replicate_succ, List.flatMap_cons, Json.text_size_append, ih, hescaped]
        omega

/-- The text of a URL with control characters. -/
theorem size_long_url (count : Nat) :
    Json.textSize (longUrl count).toList = 24 + count ∧
    Json.textSize ((longUrl count).toList.flatMap Json.escape) = 24 + 6 * count := by
  unfold longUrl
  simp only [String.toList_ofList, List.flatMap_append, Json.text_size_append]
  constructor
  · exact congrArg₂ (· + ·) size_origin.1 (size_control count).1
  · exact congrArg₂ (· + ·) size_origin.2 (size_control count).2

/-- `to_json` refuses a valid manifest whose record is too long. -/
theorem Manifest.to_json_long {ext : External} {manifest : Manifest}
    (hvalid : manifest.validate ext = .ok ())
    (hlong : maxManifestBytes < (ext.encodeManifest manifest).length) :
    manifest.toJson ext = .error (.invalid "manifest exceeds the supported size") := by
  rw [Manifest.toJson, hvalid]
  show (rejectIf _ _ >>= fun _ => _) = _
  rw [decide_eq_true hlong]
  rfl

/-- The sizes of a crowded manifest with a URL of 7917 control characters: its compact text is
below the bound, and the white space of the record takes it above. -/
theorem Manifest.crowded_sizes {url : String} (htext : Json.textSize url.toList = 24 + 7917)
    (hescaped : Json.textSize (url.toList.flatMap Json.escape) = 24 + 6 * 7917) :
    byteLength url.toList ≤ maxUrlBytes ∧ (Manifest.crowded url).compactBytes ≤ maxManifestBytes ∧
    maxManifestBytes < (Manifest.crowded url).compactBytes +
      (Manifest.crowded url).layoutBytes := by
  have hcompact := Manifest.compact_bytes_crowded url
  have hlayout : (Manifest.crowded url).layoutBytes = 1087 := by
    simp [Manifest.layoutBytes, Manifest.crowded, crowdedPaths, Manifest.fixture, listLayoutBytes]
  have hurl : maxUrlBytes = 8192 := rfl
  have hbound : maxManifestBytes = 1048576 := rfl
  have hbytes : byteLength url.toList = Json.textSize url.toList := rfl
  omega

/-- A compact text below the bound is accepted, and the record of its manifest is refused. -/
theorem Manifest.record_exceeds_bound :
    (External.recording (.crowded (longUrl 7917))).RoundTrips (.crowded (longUrl 7917)) ∧
    (∃ bytes, Manifest.fromJson (.recording (.crowded (longUrl 7917))) bytes =
      .ok (.crowded (longUrl 7917))) ∧
    Manifest.toJson (.recording (.crowded (longUrl 7917))) (.crowded (longUrl 7917)) =
      .error (.invalid "manifest exceeds the supported size") ∧
    ¬ (Manifest.crowded (longUrl 7917)).Recordable (.recording (.crowded (longUrl 7917))) := by
  obtain ⟨htext, hescaped⟩ := size_long_url 7917
  obtain ⟨hurl, hcompact, hrecord⟩ := Manifest.crowded_sizes htext hescaped
  have htrips := External.recording_round_trips (.crowded (longUrl 7917))
  have hvalid : (Manifest.crowded (longUrl 7917)).validate (.recording (.crowded (longUrl 7917))) =
      .ok () := Manifest.validate_crowded hurl
  rw [← htrips.length_encode_manifest] at hrecord
  have hrefused := Manifest.to_json_long hvalid hrecord
  refine ⟨htrips, ⟨_, from_json_compact hvalid hcompact⟩, hrefused, fun hrecordable => ?_⟩
  obtain ⟨encoded, hencoded, _⟩ := hrecordable.encodes
  rw [hrefused] at hencoded
  cases hencoded

end

end EmbeddingServer
