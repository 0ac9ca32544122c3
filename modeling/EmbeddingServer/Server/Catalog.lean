import EmbeddingServer.Lib.Directory
import EmbeddingServer.Onnx.OverLength
import EmbeddingServer.Server.Application
import Mathlib.Data.List.Sort
import Mathlib.Data.String.Basic

/-!
# Construction of the model catalog

`ModelCatalog::new` checks manifests and aliases one by one while it fills its maps. It accepts
exactly the nonempty lists of valid manifests with well-formed aliases in which every name stands
for one manifest (`Consistent`), and the catalog then answers by what the lists say (`Denotes`):
`catalog_new`. The order of the lists matters for the error only. The preloads of a configuration
are resolved by the same catalog.
-/

namespace EmbeddingServer

open Directory

/-- `CatalogError`. -/
inductive CatalogError where
  | invalidEntry
  | nameCollision
  deriving DecidableEq, Repr

/-! ## `ModelCatalog::new` -/

section

variable (ext : External)

/-- The loop over the manifests. -/
def insertManifests : (String → Option Manifest) → List Manifest →
    Except CatalogError (String → Option Manifest)
  | map, [] => .ok map
  | map, manifest :: rest =>
      match manifest.validate ext with
      | .error _ => .error .invalidEntry
      | .ok () =>
          let canonical := manifest.canonicalId
          if !validModelName canonical || (map canonical).isSome then .error .nameCollision
          else insertManifests (Function.update map canonical (some manifest)) rest

/-- The maps that the loop over the aliases fills. -/
structure AliasMaps where
  aliases : String → Option String
  aliasesByModel : String → Option (List String)

/-- An alias that passed the checks. -/
def AliasMaps.insert (maps : AliasMaps) (name canonical : String) : AliasMaps where
  aliases := Function.update maps.aliases name (some canonical)
  aliasesByModel :=
    Function.update maps.aliasesByModel canonical
      (some ((maps.aliasesByModel canonical).getD [] ++ [name]))

/-- The loop over the aliases. -/
def insertAliases (manifests : String → Option Manifest) : AliasMaps → List (String × String) →
    Except CatalogError AliasMaps
  | maps, [] => .ok maps
  | maps, (name, canonical) :: rest =>
      if !validModelName name || (manifests name).isSome || (manifests canonical).isNone ||
          (maps.aliases name).isSome then .error .nameCollision
      else insertAliases manifests (maps.insert name canonical) rest

/-- `sort` of a list of strings. -/
def sortNames (names : List String) : List String :=
  names.mergeSort fun left right => decide (left ≤ right)

/-- `ModelCatalog::new`. The map of the manifests is empty if and only if their list is. -/
def ModelCatalog.new (manifests : List Manifest) (aliases : List (String × String)) :
    Except CatalogError ModelCatalog :=
  match insertManifests ext (fun _ => none) manifests with
  | .error error => .error error
  | .ok map =>
      if manifests.isEmpty then .error .invalidEntry
      else
        match insertAliases map ⟨fun _ => none, fun _ => none⟩ aliases with
        | .error error => .error error
        | .ok maps =>
            .ok
              { manifests := map
                aliases := maps.aliases
                aliasesByModel := fun canonical => (maps.aliasesByModel canonical).map sortNames }

/-- The loop over the preloads in `EmbeddingApplication::with_catalog`. -/
def resolvePreloads (catalog : ModelCatalog) : List String → List String →
    Except ApplicationError (List String)
  | resolved, [] => .ok resolved
  | resolved, requested :: rest =>
      match catalog.resolve requested with
      | none => .error catalogRequestError
      | some manifest =>
          if manifest.canonicalId ∈ resolved then .error catalogRequestError
          else resolvePreloads catalog (resolved ++ [manifest.canonicalId]) rest

/-! ## What the lists say -/

/-- There are manifests, all of them valid, every alias is a well-formed name, and every name stands
for one of the manifests. -/
structure Consistent (manifests : List Manifest) (aliases : List (String × String)) : Prop where
  valid : ∀ manifest ∈ manifests, manifest.validate ext = .ok ()
  ids_nodup : (manifests.map Manifest.canonicalId).Nodup
  nonempty : manifests ≠ []
  named : ∀ entry ∈ aliases, validModelName entry.1 = true
  aliases_nodup : (aliases.map Prod.fst).Nodup
  disjoint : ∀ entry ∈ aliases, entry.1 ∉ manifests.map Manifest.canonicalId
  known : ∀ entry ∈ aliases, entry.2 ∈ manifests.map Manifest.canonicalId

/-- The name stands for the manifest. -/
def Denotes (manifests : List Manifest) (aliases : List (String × String)) (name : String)
    (manifest : Manifest) : Prop :=
  manifest ∈ manifests ∧ (name = manifest.canonicalId ∨ (name, manifest.canonicalId) ∈ aliases)

/-- The aliases of a model, in order. -/
def aliasesOf (aliases : List (String × String)) (canonical : String) : List String :=
  (aliases.filter fun entry => entry.2 = canonical).map Prod.fst

end

/-! ## Names of valid manifests -/

theorem is_control_of_is_path_character {c : Char} (h : isPathCharacter c = true) :
    isControl c = false := by
  have halpha : c.isAlpha = (c.isUpper || c.isLower) := rfl
  simp only [isPathCharacter, Char.isAlphanum, halpha, Bool.or_eq_true, decide_eq_true_eq,
    is_upper_iff_to_nat, is_lower_iff_to_nat, Char.isDigit_iff_toNat] at h
  have hrange : 0x20 ≤ c.toNat ∧ c.toNat < 0x7F := by
    rcases h with ((((⟨hlow, hhigh⟩ | ⟨hlow, hhigh⟩) | ⟨hlow, hhigh⟩) | rfl) | rfl) | rfl
    · exact ⟨by omega, by omega⟩
    · exact ⟨by omega, by omega⟩
    · simp at hlow hhigh
      exact ⟨by omega, by omega⟩
    · decide
    · decide
    · decide
  simp only [isControl, Bool.or_eq_false_iff, Bool.and_eq_false_iff, decide_eq_false_iff_not]
  omega

/-- A text without white space is trimmed. -/
theorem trim_eq_self {text : List Char} (h : ∀ c ∈ text, isWhitespace c = false) :
    Config.trim text = text := by
  have hdrop : ∀ {chars : List Char}, (∀ c ∈ chars, isWhitespace c = false) →
      chars.dropWhile isWhitespace = chars := by
    intro chars hchars
    cases chars with
    | nil => rfl
    | cons c rest => rw [List.dropWhile_cons_of_neg (by simp [hchars c List.mem_cons_self])]
  unfold Config.trim
  rw [hdrop h, hdrop (fun c hc => h c (List.mem_reverse.mp hc)), List.reverse_reverse]

theorem utf8_byte_size_eq (value : String) : value.utf8ByteSize = byteLength value.toList := by
  rw [byteLength, ← Bytes.length_to_utf8]
  rw [Bytes.to_list_eq_data, String.toUTF8_eq_toByteArray]
  rfl

/-- An accepted identifier is a model name. -/
theorem valid_model_name_of_validate_id {value : String} (h : validateId value = .ok ()) :
    validModelName value = true := by
  rw [validateId, reject_if_ok] at h
  simp only [Bool.or_eq_false_iff, decide_eq_false_iff_not, List.any_eq_false] at h
  obtain ⟨⟨⟨⟨hnonempty, hlength⟩, _⟩, _⟩, hcomponents⟩ := h
  have hchars : ∀ c ∈ value.toList, isWhitespace c = false ∧ isControl c = false := by
    intro c hc
    rcases mem_split_slash hc with rfl | ⟨component, hcomponent, hmem⟩
    · decide
    · have hall := hcomponents component hcomponent
      simp only [Bool.or_eq_true, not_or, Bool.not_eq_true, Bool.not_eq_false'] at hall
      have hpath := List.all_eq_true.mp hall.2 c hmem
      exact ⟨is_whitespace_of_is_path_character hpath, is_control_of_is_path_character hpath⟩
  have hcontrol : value.toList.any isControl = false := by
    rw [List.any_eq_false]
    intro c hc
    rw [(hchars c hc).2]
    exact Bool.false_ne_true
  unfold validModelName maxModelNameBytes
  rw [hnonempty, trim_eq_self fun c hc => (hchars c hc).1, hcontrol, utf8_byte_size_eq]
  simp
  omega

/-- So is the identifier of a valid manifest. -/
theorem Manifest.validate_name {ext : External} {manifest : Manifest}
    (h : manifest.validate ext = .ok ()) : validModelName manifest.canonicalId = true := by
  simp only [Manifest.validate, Checked.bind_ok, reject_if_ok] at h
  obtain ⟨_, _, _, hid, _⟩ := h
  exact valid_model_name_of_validate_id hid

/-! ## Sorted names -/

theorem sort_names_perm (names : List String) : (sortNames names).Perm names :=
  List.mergeSort_perm _ _

theorem sort_names_pairwise (names : List String) : (sortNames names).Pairwise (· ≤ ·) := by
  have hsorted := @List.pairwise_mergeSort _ (fun left right : String => decide (left ≤ right))
    (fun _ _ _ hab hbc => decide_eq_true
      (String.le_trans (of_decide_eq_true hab) (of_decide_eq_true hbc)))
    (fun left right => by
      rw [Bool.or_eq_true, decide_eq_true_eq, decide_eq_true_eq]
      exact String.le_total left right) names
  exact hsorted.imp of_decide_eq_true

/-- The order in which names are given does not show. -/
theorem sort_names_eq {names names' : List String} (h : names.Perm names') :
    sortNames names = sortNames names' :=
  List.Perm.eq_of_pairwise (fun _ _ _ _ hab hba => String.le_antisymm hab hba)
    (sort_names_pairwise names) (sort_names_pairwise names')
    ((sort_names_perm names).trans (h.trans (sort_names_perm names').symm))

/-! ## The loops -/

section

variable {ext : External} {manifests : List Manifest} {aliases : List (String × String)}
  {map filled : String → Option Manifest} {maps after : AliasMaps}

/-- The entries of the map of the manifests. -/
def manifestEntries (manifests : List Manifest) : List (String × Manifest) :=
  manifests.map fun manifest => (manifest.canonicalId, manifest)

@[simp]
theorem map_fst_manifest_entries :
    (manifestEntries manifests).map Prod.fst = manifests.map Manifest.canonicalId := by
  rw [manifestEntries, List.map_map]
  rfl

theorem mem_manifest_entries {name : String} {manifest : Manifest} :
    (name, manifest) ∈ manifestEntries manifests ↔
      manifest ∈ manifests ∧ manifest.canonicalId = name := by
  unfold manifestEntries
  rw [List.mem_map]
  constructor
  · intro h
    obtain ⟨other, hmem, heq⟩ := h
    cases heq
    exact ⟨hmem, rfl⟩
  · intro h
    obtain ⟨hmem, rfl⟩ := h
    exact ⟨manifest, hmem, rfl⟩

/-- The manifests are added as to a directory; that their identifiers are model names is no
further condition. -/
theorem insert_manifests_ok_iff :
    insertManifests ext map manifests = .ok filled ↔
      (∀ manifest ∈ manifests, manifest.validate ext = .ok ()) ∧
        insertAll map (manifestEntries manifests) = some filled := by
  induction manifests generalizing map with
  | nil =>
      show Except.ok map = Except.ok filled ↔ _ ∧ some map = some filled
      simp
  | cons manifest rest ih =>
      unfold insertManifests
      rw [List.forall_mem_cons, manifestEntries, List.map_cons, insert_all_cons]
      cases hvalid : manifest.validate ext with
      | error error =>
          constructor
          · intro h
            cases h
          · intro h
            cases h.1.1
      | ok result =>
          have hname := Manifest.validate_name hvalid
          dsimp only
          rw [hname, Bool.not_true, Bool.false_or]
          cases hknown : (map manifest.canonicalId).isSome with
          | true =>
              constructor
              · intro h
                cases h
              · intro h
                cases h.2
          | false =>
              rw [if_neg Bool.false_ne_true, if_neg Bool.false_ne_true, ih, manifestEntries]
              simp

/-- What the aliases of a list add to those known before. -/
def gather (aliases : List (String × String)) (byModel : String → Option (List String))
    (canonical : String) : Option (List String) :=
  if aliasesOf aliases canonical = [] then byModel canonical
  else some ((byModel canonical).getD [] ++ aliasesOf aliases canonical)

theorem aliases_of_cons (entry : String × String) (canonical : String) :
    aliasesOf (entry :: aliases) canonical =
      if entry.2 = canonical then entry.1 :: aliasesOf aliases canonical
      else aliasesOf aliases canonical := by
  unfold aliasesOf
  rw [List.filter_cons]
  by_cases h : entry.2 = canonical
  · simp [h]
  · simp [h]

theorem gather_cons (entry : String × String) (byModel : String → Option (List String)) :
    gather (entry :: aliases) byModel =
      gather aliases (Function.update byModel entry.2
        (some ((byModel entry.2).getD [] ++ [entry.1]))) := by
  funext canonical
  unfold gather
  rw [aliases_of_cons]
  by_cases h : entry.2 = canonical
  · subst h
    rw [if_pos rfl, if_neg (List.cons_ne_nil _ _), Function.update_self]
    split
    · rename_i hempty
      rw [hempty]
    · simp
  · rw [if_neg h, Function.update_of_ne (Ne.symm h)]

/-- The aliases are added as to a directory, each for a known model. -/
theorem insert_aliases_ok_iff {known : String → Option Manifest} :
    insertAliases known maps aliases = .ok after ↔
      (∀ entry ∈ aliases, validModelName entry.1 = true ∧ known entry.1 = none ∧
        (known entry.2).isSome = true) ∧
      insertAll maps.aliases aliases = some after.aliases ∧
        after.aliasesByModel = gather aliases maps.aliasesByModel := by
  induction aliases generalizing maps with
  | nil =>
      show Except.ok maps = Except.ok after ↔ _ ∧ some maps.aliases = some after.aliases ∧
        after.aliasesByModel = maps.aliasesByModel
      constructor
      · intro h
        cases h
        exact ⟨nofun, rfl, rfl⟩
      · intro h
        obtain ⟨_, haliases, hmodels⟩ := h
        cases maps
        cases after
        cases haliases
        cases hmodels
        rfl
  | cons entry rest ih =>
      obtain ⟨name, canonical⟩ := entry
      unfold insertAliases
      rw [List.forall_mem_cons, insert_all_cons, gather_cons]
      by_cases hentry : validModelName name = true ∧ known name = none ∧
          (known canonical).isSome = true
      · obtain ⟨hname, hnew, hknown⟩ := hentry
        have hmodel : (known canonical).isNone = false := by
          rw [Option.isNone_eq_false_iff, hknown]
        rw [hname, hnew, hmodel]
        cases hfree : (maps.aliases name).isSome with
        | true => simp
        | false =>
            rw [if_neg (by simp), if_neg Bool.false_ne_true, ih]
            simp [AliasMaps.insert, hknown]
      · constructor
        · intro h
          split at h
          · cases h
          · rename_i haccepted
            refine absurd ?_ hentry
            simp only [Bool.or_eq_true, not_or, Bool.not_eq_true, Bool.not_eq_false',
              Option.isSome_eq_false_iff, Option.isNone_iff_eq_none] at haccepted
            exact ⟨haccepted.1.1.1, haccepted.1.1.2, Option.isSome_iff_ne_none.mpr haccepted.1.2⟩
        · intro h
          exact absurd h.1.1 hentry

/-! ## The catalog -/

/-- The catalog of two consistent lists. -/
def catalogOf (manifests : List Manifest) (aliases : List (String × String)) : ModelCatalog where
  manifests := overlay (manifestEntries manifests) fun _ => none
  aliases := overlay aliases fun _ => none
  aliasesByModel := fun canonical => (gather aliases (fun _ => none) canonical).map sortNames

theorem catalog_of_manifests (hnodup : (manifests.map Manifest.canonicalId).Nodup) {name : String}
    {manifest : Manifest} :
    (catalogOf manifests aliases).manifests name = some manifest ↔
      manifest ∈ manifests ∧ manifest.canonicalId = name := by
  show overlay (manifestEntries manifests) (fun _ => none) name = some manifest ↔ _
  rw [overlay_eq_some_iff (by rwa [map_fst_manifest_entries]) (fun _ _ => rfl),
    mem_manifest_entries]
  simp

theorem catalog_of_aliases (hnodup : (aliases.map Prod.fst).Nodup) {name canonical : String} :
    (catalogOf manifests aliases).aliases name = some canonical ↔ (name, canonical) ∈ aliases := by
  show overlay aliases (fun _ => none) name = some canonical ↔ _
  rw [overlay_eq_some_iff hnodup (fun _ _ => rfl)]
  simp

theorem catalog_of_known (hnodup : (manifests.map Manifest.canonicalId).Nodup) {name : String} :
    ((catalogOf manifests aliases).manifests name).isSome = true ↔
      name ∈ manifests.map Manifest.canonicalId := by
  rw [Option.isSome_iff_exists, List.mem_map]
  constructor
  · intro h
    obtain ⟨manifest, hmanifest⟩ := h
    exact ⟨manifest, (catalog_of_manifests hnodup).mp hmanifest⟩
  · intro h
    obtain ⟨manifest, hmanifest⟩ := h
    exact ⟨manifest, (catalog_of_manifests hnodup).mpr hmanifest⟩

theorem aliases_for_catalog_of (canonical : String) :
    (catalogOf manifests aliases).aliasesFor canonical =
      sortNames (aliasesOf aliases canonical) := by
  unfold ModelCatalog.aliasesFor catalogOf gather
  dsimp only
  split
  · rename_i hempty
    rw [hempty]
    exact List.mergeSort_nil.symm
  · rfl

/-- The constructor accepts the consistent lists. -/
theorem new_ok_iff {catalog : ModelCatalog} :
    ModelCatalog.new ext manifests aliases = .ok catalog ↔
      Consistent ext manifests aliases ∧ catalog = catalogOf manifests aliases := by
  constructor
  · intro h
    unfold ModelCatalog.new at h
    split at h
    · cases h
    · rename_i filled hfilled
      obtain ⟨hvalid, hinsert⟩ := insert_manifests_ok_iff.mp hfilled
      obtain ⟨hids, _, hmap⟩ := insert_all_eq_some_iff.mp hinsert
      rw [map_fst_manifest_entries] at hids
      split at h
      · cases h
      · rename_i hnonempty
        split at h
        · cases h
        · rename_i after hafter
          obtain ⟨hentries, hnames, hmodels⟩ := insert_aliases_ok_iff.mp hafter
          obtain ⟨hnodup, _, haliases⟩ := insert_all_eq_some_iff.mp hnames
          have hknown := @catalog_of_known manifests aliases hids
          cases h
          refine ⟨⟨hvalid, hids, ?_, fun entry hentry => (hentries entry hentry).1, hnodup, ?_, ?_⟩,
            ?_⟩
          · rwa [List.isEmpty_iff] at hnonempty
          · intro entry hentry hmem
            -- An alias that is an identifier would have been found in the map of models.
            have hnone := (hentries entry hentry).2.1
            rw [hmap] at hnone
            have hsome := hknown.mpr hmem
            rw [show (catalogOf manifests aliases).manifests entry.1 = none from hnone] at hsome
            cases hsome
          · intro entry hentry
            have hsome := (hentries entry hentry).2.2
            rw [hmap] at hsome
            exact hknown.mp hsome
          · rw [hmap, haliases, hmodels]
            rfl
  · intro h
    obtain ⟨hconsistent, rfl⟩ := h
    have hknown := @catalog_of_known manifests aliases hconsistent.ids_nodup
    have hfilled : insertManifests ext (fun _ => none) manifests =
        .ok (catalogOf manifests aliases).manifests :=
      insert_manifests_ok_iff.mpr ⟨hconsistent.valid, insert_all_eq_some_iff.mpr
        ⟨by rw [map_fst_manifest_entries]; exact hconsistent.ids_nodup, fun _ _ => rfl, rfl⟩⟩
    have hafter : insertAliases (catalogOf manifests aliases).manifests
        ⟨fun _ => none, fun _ => none⟩ aliases =
        .ok ⟨(catalogOf manifests aliases).aliases, gather aliases fun _ => none⟩ := by
      refine insert_aliases_ok_iff.mpr ⟨fun entry hentry => ⟨hconsistent.named entry hentry, ?_,
        hknown.mpr (hconsistent.known entry hentry)⟩, insert_all_eq_some_iff.mpr
        ⟨hconsistent.aliases_nodup, fun _ _ => rfl, rfl⟩, rfl⟩
      rw [← Option.not_isSome_iff_eq_none, hknown]
      exact hconsistent.disjoint entry hentry
    unfold ModelCatalog.new
    rw [hfilled]
    dsimp only
    rw [if_neg (by simpa using hconsistent.nonempty), hafter]
    rfl

/-- A catalog resolves the names that denote a manifest. -/
theorem resolve_catalog_of (h : Consistent ext manifests aliases) {name : String}
    {manifest : Manifest} :
    (catalogOf manifests aliases).resolve name = some manifest ↔
      Denotes manifests aliases name manifest := by
  have hmanifests := @catalog_of_manifests manifests aliases h.ids_nodup
  have haliases := @catalog_of_aliases manifests aliases h.aliases_nodup
  unfold ModelCatalog.resolve Denotes
  constructor
  · intro hresolve
    split at hresolve
    · rw [Option.or_eq_some_iff] at hresolve
      rcases hresolve with hcanonical | ⟨_, hbound⟩
      · obtain ⟨hmem, hid⟩ := hmanifests.mp hcanonical
        exact ⟨hmem, .inl hid.symm⟩
      · obtain ⟨canonical, hname, htarget⟩ := Option.bind_eq_some_iff.mp hbound
        obtain ⟨hmem, rfl⟩ := hmanifests.mp htarget
        exact ⟨hmem, .inr (haliases.mp hname)⟩
    · cases hresolve
  · intro hdenotes
    obtain ⟨hmem, rfl | hname⟩ := hdenotes
    · rw [if_pos (Manifest.validate_name (h.valid manifest hmem)),
        hmanifests.mpr ⟨hmem, rfl⟩, Option.some_or]
    · have hfree : (catalogOf manifests aliases).manifests name = none := by
        rw [← Option.not_isSome_iff_eq_none, catalog_of_known h.ids_nodup]
        exact h.disjoint _ hname
      rw [if_pos (h.named _ hname), hfree, Option.none_or, haliases.mpr hname, Option.bind_some]
      exact hmanifests.mpr ⟨hmem, rfl⟩

/-- Consistency does not depend on the order. -/
theorem Consistent.perm (h : Consistent ext manifests aliases) {manifests' : List Manifest}
    {aliases' : List (String × String)} (hmanifests : manifests.Perm manifests')
    (haliases : aliases.Perm aliases') : Consistent ext manifests' aliases' := by
  have hids := hmanifests.map Manifest.canonicalId
  exact
    { valid := fun manifest hmem => h.valid manifest (hmanifests.mem_iff.mpr hmem)
      ids_nodup := hids.nodup_iff.mp h.ids_nodup
      nonempty := fun hnil => h.nonempty (List.Perm.eq_nil (hnil ▸ hmanifests))
      named := fun entry hmem => h.named entry (haliases.mem_iff.mpr hmem)
      aliases_nodup := (haliases.map Prod.fst).nodup_iff.mp h.aliases_nodup
      disjoint := fun entry hmem hid =>
        h.disjoint entry (haliases.mem_iff.mpr hmem) (hids.mem_iff.mpr hid)
      known := fun entry hmem => hids.mem_iff.mp (h.known entry (haliases.mem_iff.mpr hmem)) }

/-- Neither does the catalog. -/
theorem Consistent.catalog_of_perm (h : Consistent ext manifests aliases)
    {manifests' : List Manifest} {aliases' : List (String × String)}
    (hmanifests : manifests.Perm manifests') (haliases : aliases.Perm aliases') :
    catalogOf manifests' aliases' = catalogOf manifests aliases := by
  have h' := h.perm hmanifests haliases
  have hoverlay : overlay (manifestEntries manifests') (fun _ => none) =
      overlay (manifestEntries manifests) fun _ => none := by
    funext name
    apply Option.ext
    intro manifest
    have hleft := @catalog_of_manifests manifests' aliases' h'.ids_nodup name manifest
    have hright := @catalog_of_manifests manifests aliases h.ids_nodup name manifest
    exact hleft.trans ((by rw [hmanifests.mem_iff] : _ ↔ _).trans hright.symm)
  have hnames : overlay aliases' (fun _ => none) = overlay aliases fun _ => none := by
    funext name
    apply Option.ext
    intro canonical
    have hleft := @catalog_of_aliases manifests' aliases' h'.aliases_nodup name canonical
    have hright := @catalog_of_aliases manifests aliases h.aliases_nodup name canonical
    exact hleft.trans ((by rw [haliases.mem_iff] : _ ↔ _).trans hright.symm)
  have hmodels : ∀ canonical, (gather aliases' (fun _ => none) canonical).map sortNames =
      (gather aliases (fun _ => none) canonical).map sortNames := by
    intro canonical
    have hof : (aliasesOf aliases canonical).Perm (aliasesOf aliases' canonical) :=
      (haliases.filter _).map Prod.fst
    unfold gather
    by_cases hempty : aliasesOf aliases canonical = []
    · rw [hempty] at hof ⊢
      rw [hof.symm.eq_nil]
    · have hempty' : ¬ aliasesOf aliases' canonical = [] :=
        fun hnil => hempty (List.Perm.eq_nil (hnil ▸ hof))
      rw [if_neg hempty, if_neg hempty']
      exact congrArg some (sort_names_eq hof.symm)
  unfold catalogOf
  rw [hoverlay, hnames]
  congr 1
  funext canonical
  exact hmodels canonical

/-! ## Preloads -/

/-- The preloads that follow those resolved before stand for as many further models. -/
theorem resolve_preloads_ok_iff {catalog : ModelCatalog} {resolved requested ids : List String}
    (hnodup : resolved.Nodup) :
    resolvePreloads catalog resolved requested = .ok ids ↔
      ∃ found, List.Forall₂
          (fun name id => (catalog.resolve name).map Manifest.canonicalId = some id)
          requested found ∧ ids = resolved ++ found ∧ ids.Nodup := by
  induction requested generalizing resolved with
  | nil =>
      show Except.ok resolved = Except.ok ids ↔ _
      constructor
      · intro h
        cases h
        exact ⟨[], .nil, (List.append_nil _).symm, hnodup⟩
      · intro h
        obtain ⟨found, hfound, rfl, _⟩ := h
        cases hfound
        rw [List.append_nil]
  | cons name rest ih =>
      unfold resolvePreloads
      cases hresolve : catalog.resolve name with
      | none =>
          constructor
          · intro h
            cases h
          · intro h
            obtain ⟨found, hfound, _⟩ := h
            cases hfound with
            | cons hname _ =>
                rw [hresolve] at hname
                cases hname
      | some manifest =>
          dsimp only
          have hsplit : ∀ found, resolved ++ manifest.canonicalId :: found =
              resolved ++ [manifest.canonicalId] ++ found := by
            intro found
            rw [List.append_assoc, List.singleton_append]
          -- A model that was resolved before is refused, by whichever name it comes again.
          by_cases hseen : manifest.canonicalId ∈ resolved
          · rw [if_pos hseen]
            constructor
            · intro h
              cases h
            · intro h
              obtain ⟨found, hfound, rfl, hdistinct⟩ := h
              cases hfound with
              | cons hname _ =>
                  rw [hresolve, Option.map_some, Option.some.injEq] at hname
                  subst hname
                  exact absurd rfl ((List.nodup_append.mp hdistinct).2.2 _ hseen _
                    List.mem_cons_self)
          · have hlonger : (resolved ++ [manifest.canonicalId]).Nodup := by
              rw [List.nodup_append]
              refine ⟨hnodup, List.nodup_singleton _, ?_⟩
              intro id hid other hother heq
              rw [List.mem_singleton] at hother
              exact hseen (hother ▸ heq ▸ hid)
            rw [if_neg hseen, ih hlonger]
            constructor
            · intro h
              obtain ⟨found, hfound, rfl, hdistinct⟩ := h
              refine ⟨manifest.canonicalId :: found, .cons ?_ hfound, (hsplit found).symm,
                hdistinct⟩
              rw [hresolve, Option.map_some]
            · intro h
              obtain ⟨found, hfound, rfl, hdistinct⟩ := h
              cases hfound with
              | cons hname hrest =>
                  rw [hresolve, Option.map_some, Option.some.injEq] at hname
                  subst hname
                  exact ⟨_, hrest, hsplit _, hdistinct⟩

/-- The constructor accepts exactly the nonempty lists of valid manifests and the aliases that are
well-formed names in which every name stands for one of the manifests. The catalog resolves a name
to the manifest it denotes and to no other, and lists the aliases of every model in order. In which
order the lists were given does not show. The preloads of a configuration are accepted exactly if
every name denotes a manifest and no two the same one, and become the identifiers of these
manifests. -/
theorem catalog_new (ext : External) (manifests : List Manifest)
    (aliases : List (String × String)) :
    ((∃ catalog, ModelCatalog.new ext manifests aliases = .ok catalog) ↔
      Consistent ext manifests aliases) ∧
    ∀ catalog, ModelCatalog.new ext manifests aliases = .ok catalog →
      (∀ name manifest, catalog.resolve name = some manifest ↔
        Denotes manifests aliases name manifest) ∧
      (∀ canonical, (catalog.aliasesFor canonical).Pairwise (· ≤ ·) ∧
        (catalog.aliasesFor canonical).Perm (aliasesOf aliases canonical)) ∧
      (∀ manifests' aliases', manifests.Perm manifests' → aliases.Perm aliases' →
        ModelCatalog.new ext manifests' aliases' = .ok catalog) ∧
      ∀ requested ids, resolvePreloads catalog [] requested = .ok ids ↔
        List.Forall₂ (fun name id => ∃ manifest, Denotes manifests aliases name manifest ∧
          manifest.canonicalId = id) requested ids ∧ ids.Nodup := by
  constructor
  · constructor
    · intro h
      obtain ⟨catalog, hcatalog⟩ := h
      exact (new_ok_iff.mp hcatalog).1
    · intro h
      exact ⟨_, new_ok_iff.mpr ⟨h, rfl⟩⟩
  · intro catalog hcatalog
    obtain ⟨h, rfl⟩ := new_ok_iff.mp hcatalog
    refine ⟨fun name manifest => resolve_catalog_of h, ?_, ?_, ?_⟩
    · intro canonical
      rw [aliases_for_catalog_of]
      exact ⟨sort_names_pairwise _, sort_names_perm _⟩
    · intro manifests' aliases' hmanifests haliases
      exact new_ok_iff.mpr ⟨h.perm hmanifests haliases,
        (h.catalog_of_perm hmanifests haliases).symm⟩
    · intro requested ids
      have hdenotes : (fun name id => ((catalogOf manifests aliases).resolve name).map
          Manifest.canonicalId = some id) = fun name id => ∃ manifest,
          Denotes manifests aliases name manifest ∧ manifest.canonicalId = id := by
        funext name id
        rw [Option.map_eq_some_iff]
        simp only [resolve_catalog_of h]
      rw [resolve_preloads_ok_iff List.nodup_nil, hdenotes]
      simp

end

/-- One model with one alias. -/
theorem catalog_new_onnx :
    ∃ catalog, ModelCatalog.new (.fixture []) [Manifest.onnx]
        [("small", Manifest.onnx.canonicalId)] = .ok catalog ∧
      catalog.resolve "small" = some Manifest.onnx := by
  have hnew := catalog_new (.fixture []) [Manifest.onnx] [("small", Manifest.onnx.canonicalId)]
  have hconsistent : Consistent (.fixture []) [Manifest.onnx]
      [("small", Manifest.onnx.canonicalId)] :=
    { valid := fun manifest hmem => by
        rw [List.mem_singleton.mp hmem]
        exact Manifest.validate_onnx
      ids_nodup := List.nodup_singleton _
      nonempty := List.cons_ne_nil _ _
      named := by decide
      aliases_nodup := List.nodup_singleton _
      disjoint := by decide
      known := by decide }
  obtain ⟨catalog, hcatalog⟩ := hnew.1.mpr hconsistent
  exact ⟨catalog, hcatalog, ((hnew.2 catalog hcatalog).1 "small" Manifest.onnx).mpr
    ⟨List.mem_singleton_self _, .inr (List.mem_singleton_self _)⟩⟩

end EmbeddingServer
