import EmbeddingServer.Server.ConfigMerge

/-!
# The merge law

What a successful `ServerConfig::load` returns, in terms of what the three sources mention, and
what makes it fail: an entry that cannot be read, a key that is named twice, two alternatives of
one credential in one source, whatever the higher sources say.
-/

namespace EmbeddingServer.Config

open Layers (recordAll mentions)

/-! ## Mentions -/

/-- The settings that the document mentions. -/
def tomlMentions (toml : Option (List (String × TomlValue))) : List (Key × PatchValue) :=
  mentions readToml (tomlEntries (toml.getD []))

/-- The settings that the environment mentions. -/
def environmentMentions (environment : List (String × String)) : List (Key × PatchValue) :=
  mentions readVariable environment

/-- The settings that the command line mentions. -/
def cliMentions (cli : List String) : List (Key × PatchValue) :=
  mentions readOption (splitOptions cli)

/-- A source gives a value to a field through one of the field's keys. -/
def Gives (mentioned : List (Key × PatchValue)) (field : Field) (value : FieldValue) : Prop :=
  ∃ key given, (key, given) ∈ mentioned ∧ key.field = some field ∧
    readValue key given = some value

/-- A source says nothing about a field. -/
def Silent (mentioned : List (Key × PatchValue)) (field : Field) : Prop :=
  ∀ mention ∈ mentioned, mention.1.field ≠ some field

/-- A source mentions every field at most once and gives a value to each it mentions. -/
structure Definite (mentioned : List (Key × PatchValue)) : Prop where
  once : mentioned.Pairwise fun left right => left.1.field ≠ right.1.field
  gives : ∀ mention ∈ mentioned, ∃ field value, mention.1.field = some field ∧
    Gives mentioned field value

/-- Every field has the value given by the highest source that mentions it. -/
structure Merges (toml environment cli : List (Key × PatchValue)) (config : Settings) : Prop where
  from_cli : ∀ field value, Gives cli field value → config.field field = value
  from_environment : ∀ field value, Silent cli field → Gives environment field value →
    config.field field = value
  from_toml : ∀ field value, Silent cli field → Silent environment field → Gives toml field value →
    config.field field = value
  from_default : ∀ field, Silent cli field → Silent environment field → Silent toml field →
    config.field field = Settings.default.field field

/-! ## Patches and mentions -/

/-- A patch holds what its source mentions. -/
def Patch.Holds (patch : Patch) (mentioned : List (Key × PatchValue)) : Prop :=
  (mentioned.map Prod.fst).Nodup ∧ ∀ key value, patch key = some value ↔ (key, value) ∈ mentioned

theorem holds_of_record_all {E : Type} {read : E → Except Error (Option (Key × PatchValue))}
    {entries : List E} {patch : Patch}
    (h : recordAll read duplicateKey Layers.none entries = .ok patch) :
    patch.Holds (mentions read entries) :=
  (Layers.record_all_ok_iff.mp h).2

section

variable {patch : Patch} {mentioned : List (Key × PatchValue)}

theorem Patch.Holds.silent (h : patch.Holds mentioned) {field : Field}
    (hsilent : Silent mentioned field) : ∀ key, (patch key).isSome → key.field ≠ some field := by
  intro key hsome
  obtain ⟨value, hvalue⟩ := Option.isSome_iff_exists.mp hsome
  exact hsilent (key, value) ((h.2 key value).mp hvalue)

/-- A patch that is readable and gives no field two values comes from a definite source. -/
theorem Patch.Holds.definite (h : patch.Holds mentioned) (hunambiguous : patch.Unambiguous)
    (hread : patch.Readable) : Definite mentioned := by
  have hmentioned : ∀ mention ∈ mentioned, patch mention.1 = some mention.2 :=
    fun mention hmention => (h.2 mention.1 mention.2).mpr hmention
  have hfield : ∀ mention ∈ mentioned, ∃ field value, mention.1.field = some field ∧
      readValue mention.1 mention.2 = some value := by
    intro mention hmention
    obtain ⟨value, hvalue⟩ :=
      Option.isSome_iff_exists.mp (hread _ _ (hmentioned mention hmention))
    cases hname : mention.1.field with
    | some field => exact ⟨field, value, rfl, hvalue⟩
    | none =>
        have hnone : readValue mention.1 mention.2 = none := by
          cases hkey : mention.1 with
          | toml | path => rfl
          | _ =>
              rw [hkey] at hname
              cases hname
        rw [hnone] at hvalue
        cases hvalue
  refine ⟨?_, fun mention hmention => ?_⟩
  · have hdistinct : mentioned.Pairwise fun left right => left.1 ≠ right.1 :=
      List.pairwise_map.mp h.1
    refine hdistinct.imp_of_mem fun {left right} hleft hright hne heq => hne ?_
    obtain ⟨field, _, hname, _⟩ := hfield left hleft
    refine hunambiguous left.1 right.1 ?_ ?_ heq ?_
    · rw [hmentioned left hleft]
      rfl
    · rw [hmentioned right hright]
      rfl
    · rw [hname]
      exact Option.some_ne_none _
  · obtain ⟨field, value, hname, hvalue⟩ := hfield mention hmention
    exact ⟨field, value, hname, mention.1, mention.2, hmention, hname, hvalue⟩

/-- An overlay has the values that the source gives. -/
theorem Patch.Overlays.of_gives {before after : Settings} (hover : patch.Overlays before after)
    (h : patch.Holds mentioned) {field : Field} {value : FieldValue}
    (hgives : Gives mentioned field value) : after.field field = value := by
  obtain ⟨key, given, hmem, hfield, hvalue⟩ := hgives
  exact hover.given key given field value ((h.2 key given).mpr hmem) hfield hvalue

end

/-- What is loaded is the merge of what the sources mention. -/
theorem Loads.merges {host : Host} {toml environment cli : Patch} {config : Settings}
    (h : Loads host toml environment cli config)
    {tomlMentioned environmentMentioned cliMentioned : List (Key × PatchValue)}
    (htoml : toml.Holds tomlMentioned) (henvironment : environment.Holds environmentMentioned)
    (hcli : cli.Holds cliMentioned) :
    Merges tomlMentioned environmentMentioned cliMentioned config := by
  obtain ⟨first, second, hfirst, hsecond, hlast⟩ := h.layered
  refine ⟨fun field value hgives => hlast.of_gives hcli hgives, ?_, ?_, ?_⟩
  · intro field value hsilent hgives
    rw [hlast.kept field (hcli.silent hsilent)]
    exact hsecond.of_gives henvironment hgives
  · intro field value hsilent hsilent' hgives
    rw [hlast.kept field (hcli.silent hsilent), hsecond.kept field (henvironment.silent hsilent')]
    exact hfirst.of_gives htoml hgives
  · intro field hsilent hsilent' hsilent''
    rw [hlast.kept field (hcli.silent hsilent), hsecond.kept field (henvironment.silent hsilent'),
      hfirst.kept field (htoml.silent hsilent'')]

/-! ## What makes loading fail -/

/-- The keys that the document names. -/
def tomlKeys (toml : Option (List (String × TomlValue))) : List Key :=
  (tomlEntries (toml.getD [])).filterMap fun entry => parseKey entry.1

/-- The key of an environment variable. -/
def variableKey (name : String) : Option Key :=
  (stripStart environmentStart name).bind fun suffix => environmentNames.lookup suffix

/-- The keys that the environment names. -/
def environmentKeys (environment : List (String × String)) : List Key :=
  environment.filterMap fun entry => variableKey entry.1

/-- The keys that the command line names. -/
def cliKeys (cli : List String) : List Key :=
  (splitOptions cli).filterMap fun option =>
    option.head?.bind fun argument => (parseOption argument).toOption

/-- A source is not well formed. -/
inductive Faulty (toml : Option (List (String × TomlValue)))
    (environment : List (String × String)) (cli : List String) : Prop
  | unknownToml {name : String} {value : TomlValue}
      (hentry : (name, value) ∈ tomlEntries (toml.getD [])) (hname : parseKey name = none)
  | unknownVariable {suffix value : String}
      (hentry : (environmentStart ++ suffix, value) ∈ environment)
      (hname : environmentNames.lookup suffix = none)
  | unknownOption {option : String} {rest : List String} {error : Error}
      (hoption : (("--" ++ option) :: rest) ∈ splitOptions cli)
      (hname : optionKey option = .error error)
  | missingValue {argument : String} {key : Key} (hoption : [argument] ∈ splitOptions cli)
      (hkey : parseOption argument = .ok key) (hflag : key.isFlag = false)
  | repeatedKey {keys : List Key}
      (hsource : keys ∈ [tomlKeys toml, environmentKeys environment, cliKeys cli])
      (hrepeated : ¬ keys.Nodup)
  | twoAlternatives {keys alternatives : List Key} {left right : Key}
      (hsource : keys ∈ [tomlKeys toml, environmentKeys environment, cliKeys cli])
      (halternatives : alternatives ∈ credentialAlternatives) (hne : left ≠ right)
      (hleft : left ∈ alternatives ∧ left ∈ keys) (hright : right ∈ alternatives ∧ right ∈ keys)

/-- When every entry is read, the keys mentioned are those named. -/
theorem map_mentions {E : Type} {read : E → Except Error (Option (Key × PatchValue))}
    {keyOf : E → Option Key} {entries : List E}
    (hread : ∀ entry ∈ entries, ∃ mention, read entry = .ok mention)
    (hkey : ∀ entry mention, read entry = .ok mention → mention.map Prod.fst = keyOf entry) :
    (mentions read entries).map Prod.fst = entries.filterMap keyOf := by
  induction entries with
  | nil => rfl
  | cons entry rest ih =>
      obtain ⟨⟨mention, hmention⟩, hrest⟩ := List.forall_mem_cons.mp hread
      have hname := hkey entry mention hmention
      cases mention with
      | none =>
          rw [Layers.mentions_cons_none hmention, ih hrest, List.filterMap_cons, ← hname]
          rfl
      | some mention =>
          rw [Layers.mentions_cons_some hmention, List.map_cons, ih hrest, List.filterMap_cons,
            ← hname]
          rfl

theorem read_toml_key {entry : String × TomlValue} {mention : Option (Key × PatchValue)}
    (h : readToml entry = .ok mention) : mention.map Prod.fst = parseKey entry.1 := by
  rw [readToml, Checked.bind_ok] at h
  obtain ⟨key, hkey, h⟩ := h
  obtain ⟨value, _, h⟩ := Checked.bind_ok.mp h
  cases h
  unfold knownKey at hkey
  cases hname : parseKey entry.1 with
  | none =>
      rw [hname] at hkey
      cases hkey
  | some found =>
      rw [hname] at hkey
      cases hkey
      rfl

theorem read_variable_key {entry : String × String} {mention : Option (Key × PatchValue)}
    (h : readVariable entry = .ok mention) : mention.map Prod.fst = variableKey entry.1 := by
  unfold readVariable at h
  unfold variableKey
  cases hname : stripStart environmentStart entry.1 with
  | none =>
      rw [hname] at h
      cases h
      rfl
  | some suffix =>
      simp only [hname] at h
      rw [Option.bind_some]
      cases hkey : environmentNames.lookup suffix with
      | none =>
          rw [hkey] at h
          cases h
      | some key =>
          simp only [hkey] at h
          split at h
          · split at h
            · cases h
            · cases h
              rfl
          · cases h
            rfl

theorem read_option_key {option : List String} {mention : Option (Key × PatchValue)}
    (h : readOption option = .ok mention) :
    mention.map Prod.fst =
      option.head?.bind fun argument => (parseOption argument).toOption := by
  cases option with
  | nil =>
      cases h
      rfl
  | cons argument rest =>
      rw [readOption] at h
      rw [List.head?_cons, Option.bind_some]
      cases hkey : parseOption argument with
      | error error =>
          rw [hkey] at h
          cases h
      | ok key =>
          simp only [hkey] at h
          split at h
          · cases h
            rfl
          · cases rest with
            | nil => cases h
            | cons value rest =>
                cases h
                rfl

/-- A name of the server without the start that it has in the environment. -/
theorem strip_start_append (start text : String) :
    stripStart start (start ++ text) = some text := by
  have hstart : start.toList.isPrefixOf (start ++ text).toList = true := by
    rw [String.toList_append, List.isPrefixOf_iff_prefix]
    exact List.prefix_append _ _
  rw [stripStart, if_pos hstart, String.toList_append, List.drop_left, String.ofList_toList]

section

variable {host : Host} {toml : Option (List (String × TomlValue))}
  {environment : List (String × String)} {cli : List String} {config : Settings}

/-- What a successful `load` read from the sources. -/
theorem load_reads (h : load host toml environment cli = .ok config) :
    ∃ tomlPatch environmentPatch cliPatch,
      recordAll readToml duplicateKey Layers.none (tomlEntries (toml.getD [])) = .ok tomlPatch ∧
      recordAll readVariable duplicateKey Layers.none environment = .ok environmentPatch ∧
      recordAll readOption duplicateKey Layers.none (splitOptions cli) = .ok cliPatch ∧
      Loads host tomlPatch environmentPatch cliPatch config := by
  obtain ⟨tomlPatch, environmentPatch, cliPatch, htoml, henvironment, hcli, hloads⟩ :=
    load_ok_iff.mp h
  rw [parse_environment_eq] at henvironment
  rw [parse_cli_eq] at hcli
  exact ⟨tomlPatch, environmentPatch, cliPatch, parse_toml_ok_iff.mp htoml, henvironment, hcli,
    hloads⟩

/-- What can be read and loaded is loaded. -/
theorem load_of_reads {tomlPatch environmentPatch cliPatch : Patch}
    (htoml : recordAll readToml duplicateKey Layers.none (tomlEntries (toml.getD [])) =
      .ok tomlPatch)
    (henvironment : recordAll readVariable duplicateKey Layers.none environment =
      .ok environmentPatch)
    (hcli : recordAll readOption duplicateKey Layers.none (splitOptions cli) = .ok cliPatch)
    (hloads : Loads host tomlPatch environmentPatch cliPatch config) :
    load host toml environment cli = .ok config :=
  load_ok_iff.mpr ⟨tomlPatch, environmentPatch, cliPatch, parse_toml_ok_iff.mpr htoml,
    (parse_environment_eq environment).trans henvironment, (parse_cli_eq cli).trans hcli, hloads⟩

/-- The order of the entries of the sources does not matter. -/
theorem load_perm (h : load host toml environment cli = .ok config)
    {toml' : Option (List (String × TomlValue))} {environment' : List (String × String)}
    {cli' : List String} (htoml : (tomlEntries (toml.getD [])).Perm (tomlEntries (toml'.getD [])))
    (henvironment : environment.Perm environment')
    (hcli : (splitOptions cli).Perm (splitOptions cli')) :
    load host toml' environment' cli' = .ok config := by
  obtain ⟨tomlPatch, environmentPatch, cliPatch, htomlRead, henvRead, hcliRead, hloads⟩ :=
    load_reads h
  exact load_of_reads (Layers.record_all_perm htoml htomlRead)
    (Layers.record_all_perm henvironment henvRead) (Layers.record_all_perm hcli hcliRead) hloads

/-- Sources that load are well formed. -/
theorem not_faulty_of_load (h : load host toml environment cli = .ok config) :
    ¬ Faulty toml environment cli := by
  obtain ⟨tomlPatch, environmentPatch, cliPatch, htoml, henvironment, hcli, hloads⟩ := load_reads h
  obtain ⟨htomlRead, htomlNodup, htomlHolds⟩ := Layers.record_all_ok_iff.mp htoml
  obtain ⟨henvRead, henvNodup, henvHolds⟩ := Layers.record_all_ok_iff.mp henvironment
  obtain ⟨hcliRead, hcliNodup, hcliHolds⟩ := Layers.record_all_ok_iff.mp hcli
  have htomlKeys : (tomlMentions toml).map Prod.fst = tomlKeys toml :=
    map_mentions htomlRead fun _ _ hread => read_toml_key hread
  have henvKeys : (environmentMentions environment).map Prod.fst = environmentKeys environment :=
    map_mentions henvRead fun _ _ hread => read_variable_key hread
  have hcliKeys : (cliMentions cli).map Prod.fst = cliKeys cli :=
    map_mentions hcliRead fun _ _ hread => read_option_key hread
  -- The keys of each source are distinct, and those of one patch that gives no field two values.
  have hsources : ∀ keys ∈ [tomlKeys toml, environmentKeys environment, cliKeys cli],
      keys.Nodup ∧ ∃ patch : Patch, patch.Unambiguous ∧ ∀ key ∈ keys, (patch key).isSome := by
    have hpatch : ∀ {patch : Patch} {mentioned : List (Key × PatchValue)},
        (∀ key value, patch key = some value ↔ (key, value) ∈ mentioned) →
        ∀ key ∈ mentioned.map Prod.fst, (patch key).isSome := by
      intro patch mentioned hholds key hkey
      obtain ⟨mention, hmention, rfl⟩ := List.mem_map.mp hkey
      rw [(hholds mention.1 mention.2).mpr hmention]
      rfl
    simp only [List.forall_mem_cons, List.not_mem_nil, false_implies, implies_true, and_true,
      ← htomlKeys, ← henvKeys, ← hcliKeys]
    obtain ⟨htomlOne, henvOne, hcliOne⟩ := hloads.unambiguous
    exact ⟨⟨htomlNodup, tomlPatch, htomlOne, hpatch htomlHolds⟩,
      ⟨henvNodup, environmentPatch, henvOne, hpatch henvHolds⟩,
      ⟨hcliNodup, cliPatch, hcliOne, hpatch hcliHolds⟩⟩
  intro hfaulty
  cases hfaulty with
  | @unknownToml name value hentry hname =>
      obtain ⟨mention, hmention⟩ := htomlRead _ hentry
      have hkey : knownKey .toml name = .error (.unknownKey .toml) := by
        rw [knownKey, hname]
      simp [readToml, hkey, bind, Except.bind] at hmention
  | @unknownVariable suffix value hentry hname =>
      obtain ⟨mention, hmention⟩ := henvRead _ hentry
      simp only [readVariable, strip_start_append, hname] at hmention
      cases hmention
  | @unknownOption option rest error hoption hname =>
      obtain ⟨mention, hmention⟩ := hcliRead _ hoption
      have hkey : parseOption ("--" ++ option) = .error error := by
        rw [parseOption, strip_start_append]
        simp [hname, bind, Except.bind]
      simp only [readOption, hkey] at hmention
      cases hmention
  | missingValue hoption hkey hflag =>
      obtain ⟨mention, hmention⟩ := hcliRead _ hoption
      simp only [readOption, hkey, hflag, Bool.false_eq_true, if_false] at hmention
      cases hmention
  | repeatedKey hsource hrepeated => exact hrepeated (hsources _ hsource).1
  | @twoAlternatives keys alternatives left right hsource halternatives hne hleft hright =>
      obtain ⟨_, patch, hunambiguous, hpresent⟩ := hsources _ hsource
      obtain ⟨_, field, hfield⟩ := alternatives_field halternatives
      refine hne (hunambiguous left right (hpresent left hleft.2) (hpresent right hright.2) ?_ ?_)
      · rw [hfield left hleft.1, hfield right hright.1]
      · rw [hfield left hleft.1]
        exact Option.some_ne_none _

end

/-- The merge law of `ServerConfig::load`. A configuration that is loaded has in every field the
value given by the highest source that mentions it, each source mentions a field at most once,
and the order of the entries does not matter. A source that is not well formed makes loading
fail, whatever the others say. -/
theorem load_merge_law (host : Host) (toml : Option (List (String × TomlValue)))
    (environment : List (String × String)) (cli : List String) :
    (∀ config, load host toml environment cli = .ok config →
      Merges (tomlMentions toml) (environmentMentions environment) (cliMentions cli) config ∧
      Definite (tomlMentions toml) ∧ Definite (environmentMentions environment) ∧
      Definite (cliMentions cli) ∧
      ∀ toml' environment' cli', (tomlEntries (toml.getD [])).Perm (tomlEntries (toml'.getD [])) →
        environment.Perm environment' → (splitOptions cli).Perm (splitOptions cli') →
        load host toml' environment' cli' = .ok config) ∧
    (Faulty toml environment cli → ∃ error, load host toml environment cli = .error error) := by
  constructor
  · intro config h
    obtain ⟨tomlPatch, environmentPatch, cliPatch, htoml, henvironment, hcli, hloads⟩ :=
      load_reads h
    have htomlHolds := holds_of_record_all htoml
    have henvHolds := holds_of_record_all henvironment
    have hcliHolds := holds_of_record_all hcli
    obtain ⟨htomlOne, henvOne, hcliOne⟩ := hloads.unambiguous
    obtain ⟨htomlRead, henvRead, hcliRead⟩ := hloads.readable
    exact ⟨hloads.merges htomlHolds henvHolds hcliHolds, htomlHolds.definite htomlOne htomlRead,
      henvHolds.definite henvOne henvRead, hcliHolds.definite hcliOne hcliRead,
      fun _ _ _ => load_perm h⟩
  · intro hfaulty
    cases hload : load host toml environment cli with
    | error error => exact ⟨error, rfl⟩
    | ok config => exact absurd hfaulty (not_faulty_of_load hload)

/-- A host that is asked for nothing. -/
def plainHost : Host where
  environment _ := none
  openSecret _ := .error .unavailable
  parseOrigin _ := none
  applicationStarts _ := true

/-- A document that sets a listener and a limit. -/
def precedenceToml : List (String × TomlValue) :=
  [("http_bind", .string "127.0.0.1:1001"), ("limits", .table [("max_items", .integer 4)])]

/-- An environment that sets them differently. -/
def precedenceEnvironment : List (String × String) :=
  [("IMPOSSIBLE_HTTP_BIND", "127.0.0.1:1002"), ("IMPOSSIBLE_MAX_ITEMS", "8")]

/-- What is loaded when the command line has the last word on the listener only. -/
def precedenceSettings : Settings :=
  { Settings.default with
    httpBind := ⟨.v4 0x7F000001#32, 1003, 0, 0⟩
    limits := { Settings.default.limits with maxItems := 8 } }

/-- The listener comes from the command line, the limit from the environment, whatever the order
of its variables, and an unknown option makes the same sources fail. -/
theorem load_merge_law_precedence :
    (∀ field value, Gives (cliMentions ["--http-bind", "127.0.0.1:1003"]) field value →
      precedenceSettings.field field = value) ∧
    load plainHost (some precedenceToml) precedenceEnvironment.reverse
      ["--http-bind", "127.0.0.1:1003"] = .ok precedenceSettings ∧
    ∃ error, load plainHost (some precedenceToml) precedenceEnvironment ["--colour", "red"] =
      .error error := by
  have hload : load plainHost (some precedenceToml) precedenceEnvironment
      ["--http-bind", "127.0.0.1:1003"] = .ok precedenceSettings := by
    decide +kernel
  obtain ⟨hmerges, _, _, _, horder⟩ :=
    (load_merge_law plainHost (some precedenceToml) precedenceEnvironment
      ["--http-bind", "127.0.0.1:1003"]).1 precedenceSettings hload
  refine ⟨hmerges.from_cli, ?_, ?_⟩
  · exact horder _ _ _ (List.Perm.refl _) (List.reverse_perm _).symm (List.Perm.refl _)
  · have hoption : ["--" ++ "colour"] ∈ splitOptions ["--colour", "red"] := by decide +kernel
    have hname : optionKey "colour" = .error (.unknownKey .commandLine) := by decide +kernel
    exact (load_merge_law _ _ _ _).2 (.unknownOption hoption hname)

end EmbeddingServer.Config
