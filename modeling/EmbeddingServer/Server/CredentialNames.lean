import EmbeddingServer.Server.MergeLaw

/-!
# The names of credential variables

A credential may be kept in an environment variable, whose name the configuration holds. The
environment that carries the variable is read for settings too: a name with the start of the
server's own variables is a setting, and an unknown one is refused. When a configuration loads
with the variable it refers to in place, and when the name is one that `validate_env_name`
accepts.
-/

namespace EmbeddingServer.Config

open Layers (recordAll mentions)

/-! ## Names in the environment -/

/-- The environment with a variable set. -/
def setVariable (environment : List (String × String)) (name value : String) :
    List (String × String) :=
  environment.filter (fun entry => decide (entry.1 ≠ name)) ++ [(name, value)]

theorem strip_start_eq_some {start text rest : String} (h : stripStart start text = some rest) :
    text = start ++ rest := by
  unfold stripStart at h
  split at h
  · next hstart =>
      cases h
      obtain ⟨tail, htail⟩ := List.isPrefixOf_iff_prefix.mp hstart
      apply String.toList_inj.mp
      rw [String.toList_append, String.toList_ofList, ← htail, List.drop_left]
  · cases h

/-- Every name of `parse_environment` has a key of its own. -/
theorem environment_names_injective {left right : String} {key : Key}
    (hleft : environmentNames.lookup left = some key)
    (hright : environmentNames.lookup right = some key) : left = right := by
  have hnodup : (environmentNames.map Prod.snd).Nodup := by decide
  have hmem : ∀ {name}, environmentNames.lookup name = some key →
    (name, key) ∈ environmentNames := by
    intro name hname
    obtain ⟨before, after, heq, _⟩ := List.lookup_eq_some_iff.mp hname
    rw [heq]
    exact List.mem_append_right _ List.mem_cons_self
  exact congrArg Prod.fst (List.inj_on_of_nodup_map hnodup (hmem hleft) (hmem hright) rfl)

theorem variable_key_injective {left right : String} {key : Key}
    (hleft : variableKey left = some key) (hright : variableKey right = some key) :
    left = right := by
  obtain ⟨_, hleftStart, hleftKey⟩ := Option.bind_eq_some_iff.mp hleft
  obtain ⟨_, hrightStart, hrightKey⟩ := Option.bind_eq_some_iff.mp hright
  rw [strip_start_eq_some hleftStart, strip_start_eq_some hrightStart,
    environment_names_injective hleftKey hrightKey]

/-- The keys that hold a secret. -/
def Key.isToken (key : Key) : Bool :=
  key = .authTokenPresent || key = .adminAuthTokenPresent

/-- What `parse_environment` keeps of a variable. -/
def keptText (key : Key) (name value : String) : String :=
  if key.isToken then name else value

/-- A variable with a key is read when it has a value. -/
theorem read_variable_of_key {name value : String} {key : Key} (hkey : variableKey name = some key)
    (hvalue : value ≠ "") :
    readVariable (name, value) = .ok (some (key, .scalar (keptText key name value))) := by
  obtain ⟨suffix, hstart, hname⟩ := Option.bind_eq_some_iff.mp hkey
  have hempty : value.isEmpty = false := by simpa [String.isEmpty_iff] using hvalue
  unfold readVariable keptText Key.isToken
  simp only [hstart, hname, hempty, Bool.false_eq_true, if_false]
  split <;> rfl

/-- A variable of another program is passed over. -/
theorem read_variable_foreign {name : String} (hname : stripStart environmentStart name = none)
    (value : String) : readVariable (name, value) = .ok none := by
  simp [readVariable, hname]

/-- What a mention says about the variable it comes from. -/
theorem read_variable_mention {entry : String × String} {key : Key} {value : PatchValue}
    (h : readVariable entry = .ok (some (key, value))) : variableKey entry.1 = some key := by
  rw [← read_variable_key h]
  rfl

section

variable {environment : List (String × String)} {name secret : String} {patch : Patch}

/-- Setting a variable of another program does not change what is read. -/
theorem record_all_set_variable_foreign
    (h : recordAll readVariable duplicateKey Layers.none environment = .ok patch)
    (hname : stripStart environmentStart name = none) :
    recordAll readVariable duplicateKey Layers.none (setVariable environment name secret) =
      .ok patch := by
  obtain ⟨hread, _, _⟩ := Layers.record_all_ok_iff.mp h
  refine Layers.record_all_of_mentions h ?_ ?_
  · intro entry hentry
    cases List.mem_append.mp hentry with
    | inl hold => exact hread entry (List.mem_of_mem_filter hold)
    | inr hnew =>
        rw [List.mem_singleton.mp hnew]
        exact ⟨none, read_variable_foreign hname secret⟩
  · have hlast : mentions readVariable (setVariable environment name secret) =
        mentions readVariable (environment.filter fun entry => decide (entry.1 ≠ name)) := by
      rw [setVariable, mentions, List.filterMap_append]
      simp [mentions, read_variable_foreign hname, Except.toOption]
    rw [hlast, mentions, List.filterMap_filter]
    refine List.filterMap_congr fun entry _ => ?_
    by_cases heq : entry.1 = name
    · have hnone : readVariable entry = .ok none := by
        rw [← Prod.eta entry, heq, read_variable_foreign hname]
      simp [heq, hnone, Except.toOption]
    · simp [heq]

/-- Setting a variable of the server gives its key a value. -/
theorem record_all_set_variable
    (h : recordAll readVariable duplicateKey Layers.none environment = .ok patch) {key : Key}
    (hkey : variableKey name = some key) (hsecret : secret ≠ "") :
    recordAll readVariable duplicateKey Layers.none (setVariable environment name secret) =
      .ok (Function.update patch key (some (.scalar (keptText key name secret)))) := by
  refine Layers.record_all_replace h (read_variable_of_key hkey hsecret) ?_
  intro old _ other found hmention
  have hother := read_variable_mention hmention
  rw [decide_eq_true_eq]
  constructor
  · intro hne heq
    subst heq
    exact hne (variable_key_injective hother hkey)
  · intro hne heq
    rw [heq, hkey] at hother
    exact hne (Option.some.inj hother).symm

/-- A variable with the start of the server's names can be set only if it is a setting. -/
theorem variable_key_of_set_variable
    (h : recordAll readVariable duplicateKey Layers.none (setVariable environment name secret) =
      .ok patch) {suffix : String} (hname : stripStart environmentStart name = some suffix) :
    ∃ key, variableKey name = some key := by
  obtain ⟨hread, _, _⟩ := Layers.record_all_ok_iff.mp h
  obtain ⟨mention, hmention⟩ := hread (name, secret) (List.mem_append_right _ List.mem_cons_self)
  cases hkey : environmentNames.lookup suffix with
  | some key => exact ⟨key, by rw [variableKey, hname, Option.bind_some, hkey]⟩
  | none =>
      simp only [readVariable, hname, hkey] at hmention
      cases hmention

end

/-! ## References -/

/-- The configuration refers to an environment variable. -/
def Settings.RefersTo (config : Settings) (name : String) : Prop :=
  config.auth = some (.environment name) ∨ config.adminAuth = some (.environment name)

/-- The value of a field that refers to an environment variable. -/
def reference (name : String) : FieldValue :=
  .credential (some (.environment name))

/-- The highest source that mentions a credential gives the name of a variable. -/
inductive Refers (toml environment cli : List (Key × PatchValue)) (field : Field) (name : String) :
    Prop
  | cli (hgives : Gives cli field (reference name))
  | environment (hcli : Silent cli field) (hgives : Gives environment field (reference name))
  | toml (hcli : Silent cli field) (henvironment : Silent environment field)
      (hgives : Gives toml field (reference name))

theorem Settings.refers_to_iff {config : Settings} {name : String} :
    config.RefersTo name ↔ ∃ field, config.field field = reference name := by
  constructor
  · intro h
    cases h with
    | inl h => exact ⟨.auth, congrArg FieldValue.credential h⟩
    | inr h => exact ⟨.adminAuth, congrArg FieldValue.credential h⟩
  · rintro ⟨field, hfield⟩
    cases field with
    | auth => exact .inl (FieldValue.credential.inj hfield)
    | adminAuth => exact .inr (FieldValue.credential.inj hfield)
    | _ => cases hfield

/-- A source that mentions a field gives it a value. -/
theorem Definite.gives_of_not_silent {mentioned : List (Key × PatchValue)} (h : Definite mentioned)
    {field : Field} (hmentions : ¬ Silent mentioned field) :
    ∃ value, Gives mentioned field value := by
  unfold Silent at hmentions
  push Not at hmentions
  obtain ⟨mention, hmem, hfield⟩ := hmentions
  obtain ⟨other, value, hother, hgives⟩ := h.gives mention hmem
  rw [hfield] at hother
  cases hother
  exact ⟨value, hgives⟩

/-- The references of a merged configuration come from the sources. -/
theorem Merges.refers_iff {toml environment cli : List (Key × PatchValue)} {config : Settings}
    (h : Merges toml environment cli config) (htoml : Definite toml)
    (henvironment : Definite environment) (hcli : Definite cli) {field : Field} {name : String} :
    config.field field = reference name ↔ Refers toml environment cli field name := by
  constructor
  · intro hfield
    by_cases hsilent : Silent cli field
    · by_cases hsilent' : Silent environment field
      · by_cases hsilent'' : Silent toml field
        · have hdefault := h.from_default field hsilent hsilent' hsilent''
          rw [hfield] at hdefault
          cases field <;> cases hdefault
        · obtain ⟨value, hgives⟩ := htoml.gives_of_not_silent hsilent''
          rw [h.from_toml field value hsilent hsilent' hgives] at hfield
          subst hfield
          exact .toml hsilent hsilent' hgives
      · obtain ⟨value, hgives⟩ := henvironment.gives_of_not_silent hsilent'
        rw [h.from_environment field value hsilent hgives] at hfield
        subst hfield
        exact .environment hsilent hgives
    · obtain ⟨value, hgives⟩ := hcli.gives_of_not_silent hsilent
      rw [h.from_cli field value hgives] at hfield
      subst hfield
      exact .cli hgives
  · intro hrefers
    cases hrefers with
    | cli hgives => exact h.from_cli field _ hgives
    | environment hsilent hgives => exact h.from_environment field _ hsilent hgives
    | toml hsilent hsilent' hgives => exact h.from_toml field _ hsilent hsilent' hgives

/-! ## Names that were not checked -/

/-- A reference has a checked name, or comes from a key for a secret. -/
theorem Gives.reference_key {mentioned : List (Key × PatchValue)} {field : Field} {name : String}
    (h : Gives mentioned field (reference name)) :
    isEnvName name ∨ ∃ key, (key, .scalar name) ∈ mentioned ∧ key.field = some field ∧
      key.isToken = true := by
  obtain ⟨key, value, hmem, hfield, hvalue⟩ := h
  have henv : ∀ text : Option String,
      (text.bind validateEnvName).map reference = some (reference name) → isEnvName name := by
    intro text htext
    obtain ⟨checked, hchecked, hsame⟩ := Option.map_eq_some_iff.mp htext
    cases hsame
    obtain ⟨_, _, hvalid⟩ := Option.bind_eq_some_iff.mp hchecked
    unfold validateEnvName at hvalid
    split at hvalid
    · next hname =>
        cases hvalid
        exact hname
    · cases hvalid
  have htoken : value.text?.map reference = some (reference name) → value = .scalar name := by
    intro htext
    obtain ⟨text, htext, hsame⟩ := Option.map_eq_some_iff.mp htext
    cases hsame
    cases value with
    | scalar value =>
        cases htext
        rfl
    | list values => cases htext
  cases key with
  | authEnv | adminAuthEnv => exact .inl (henv _ hvalue)
  | authTokenPresent =>
      cases htoken hvalue
      exact .inr ⟨.authTokenPresent, hmem, hfield, rfl⟩
  | adminAuthTokenPresent =>
      cases htoken hvalue
      exact .inr ⟨.adminAuthTokenPresent, hmem, hfield, rfl⟩
  | authFile | adminAuthFile | httpBind | grpcBind | allowInsecureRemote | adminApiEnabled
  | offline | cacheDirectory | startupPolicy | maxBodyBytes | maxInputBytes | maxRequestBytes
  | maxItems | maxTokens | maxQueueDepth | maxBatchItems | maxBatchTokens | maxConcurrency
  | requestTimeout | shutdownTimeout =>
      obtain ⟨_, _, hsame⟩ := Option.map_eq_some_iff.mp hvalue
      cases hsame
  | allowedOrigins | modelDirectories | preloadModels =>
      simp only [readValue] at hvalue
      split at hvalue <;> cases hvalue
  | toml | path => cases hfield

/-- The environment keeps a secret under the name of its variable. -/
theorem environment_token_named {environment : List (String × String)} {key : Key} {name : String}
    (hmem : (key, .scalar name) ∈ environmentMentions environment) (hkey : key.isToken = true) :
    isEnvName name := by
  obtain ⟨entry, _, hread⟩ := Layers.mem_mentions.mp hmem
  have hvariable := read_variable_mention hread
  have hname : entry.1 = name := by
    obtain ⟨suffix, hstart, hlookup⟩ := Option.bind_eq_some_iff.mp hvariable
    have hsecret : (key = .authTokenPresent || key = .adminAuthTokenPresent) = true := hkey
    simp only [readVariable, hstart, hlookup, hsecret, if_true] at hread
    split at hread
    · cases hread
    · cases hread
      rfl
  rw [hname] at hvariable
  cases key with
  | authTokenPresent =>
      have hpublic : variableKey "IMPOSSIBLE_AUTH_TOKEN" = some .authTokenPresent := by
        decide
      rw [variable_key_injective hvariable hpublic]
      decide
  | adminAuthTokenPresent =>
      have hadmin : variableKey "IMPOSSIBLE_ADMIN_AUTH_TOKEN" = some .adminAuthTokenPresent := by
        decide
      rw [variable_key_injective hvariable hadmin]
      decide
  | _ => cases hkey

/-- The command line has no option for a secret. -/
theorem option_key_not_token {option : String} {key : Key} (h : optionKey option = .ok key) :
    key.isToken = false := by
  have htable : ∀ entry ∈ keyNames, entry.2.isToken = true →
      containsText entry.1.toList "token".toList = true ∧
        "limits.".toList.isPrefixOf entry.1.toList = false := by
    decide
  have hknown : ∀ name, knownKey .commandLine name = .ok key → (name, key) ∈ keyNames := by
    intro name hname
    unfold knownKey at hname
    cases hkey : parseKey name with
    | none =>
        rw [hkey] at hname
        cases hname
    | some found =>
        rw [hkey] at hname
        cases hname
        obtain ⟨before, after, heq, _⟩ := List.lookup_eq_some_iff.mp hkey
        rw [heq]
        exact List.mem_append_right _ List.mem_cons_self
  unfold optionKey at h
  extract_lets name text at h
  split at h
  · cases h
  · next hplain =>
      rw [Bool.eq_false_iff]
      intro htoken
      obtain ⟨hcontains, hlimits⟩ := htable _ (hknown _ h) htoken
      split at hcontains
      · next hlimit =>
          rw [if_pos hlimit, String.toList_append, Bool.eq_false_iff] at hlimits
          exact hlimits (List.isPrefixOf_iff_prefix.mpr (List.prefix_append _ _))
      · rw [String.toList_ofList] at hcontains
        apply hplain
        simp only [credentialLikeOption, hcontains, Bool.or_true, Bool.true_or]

theorem cli_not_token {cli : List String} {key : Key} {value : PatchValue}
    (hmem : (key, value) ∈ cliMentions cli) : key.isToken = false := by
  obtain ⟨entry, _, hread⟩ := Layers.mem_mentions.mp hmem
  have hkey := read_option_key hread
  cases entry with
  | nil => cases hread
  | cons argument rest =>
      rw [List.head?_cons, Option.bind_some, Option.map_some] at hkey
      cases hparse : parseOption argument with
      | error error =>
          rw [hparse] at hkey
          cases hkey
      | ok found =>
          rw [hparse] at hkey
          cases hkey
          unfold parseOption at hparse
          split at hparse
          · cases hparse
          · obtain ⟨other, hother, hrest⟩ := Checked.bind_ok.mp hparse
            split at hrest
            · cases hrest
            · cases hrest
              exact option_key_not_token hother

/-! ## A layer with one more value -/

/-- A patch with a value for a key. -/
def Patch.put (patch : Patch) (key : Key) (value : PatchValue) : Patch :=
  Function.update patch key (some value)

section

variable {host : Host} {toml environment cli : Patch} {config before after : Settings} {key : Key}
  {field : Field} {value : PatchValue}

theorem Patch.put_self (patch : Patch) (key : Key) (value : PatchValue) :
    patch.put key value key = some value :=
  Function.update_self ..

theorem Patch.put_of_ne (patch : Patch) {other : Key} (value : PatchValue) (h : other ≠ key) :
    patch.put key value other = patch other :=
  Function.update_of_ne h ..

/-- The environment has no other key for the field of this one. -/
def Patch.Alone (patch : Patch) (key : Key) : Prop :=
  ∀ other, (patch other).isSome → other.field = key.field → other = key

/-- No field gets two values if the key is the only one for its field. -/
theorem Patch.put_unambiguous_iff (h : environment.Unambiguous) (hfield : key.field = some field) :
    (environment.put key value).Unambiguous ↔ environment.Alone key := by
  have hset : (environment.put key value key).isSome := by
    rw [environment.put_self]
    rfl
  constructor
  · intro hone other hother hsame
    have hput : (environment.put key value other).isSome := by
      by_cases heq : other = key
      · rw [heq]
        exact hset
      · rw [environment.put_of_ne value heq]
        exact hother
    refine hone other key hput hset hsame ?_
    rw [hsame, hfield]
    exact Option.some_ne_none _
  · intro halone left right hleft hright heq hne
    by_cases hleftKey : left = key
    · subst hleftKey
      by_cases hrightKey : right = left
      · exact hrightKey.symm
      · rw [environment.put_of_ne value hrightKey] at hright
        exact (halone right hright heq.symm).symm
    · rw [environment.put_of_ne value hleftKey] at hleft
      by_cases hrightKey : right = key
      · subst hrightKey
        exact halone left hleft heq
      · rw [environment.put_of_ne value hrightKey] at hright
        exact h left right hleft hright heq hne

theorem Patch.put_readable (h : environment.Readable) {written : FieldValue}
    (hwritten : readValue key value = some written) : (environment.put key value).Readable := by
  intro other found hfound
  by_cases heq : other = key
  · subst heq
    rw [environment.put_self] at hfound
    cases hfound
    rw [hwritten]
    rfl
  · rw [environment.put_of_ne value heq] at hfound
    exact h other found hfound

/-- Overlays with the two patches differ in the field of the key only. -/
theorem Patch.Overlays.put_kept {base : Settings} (hread : environment.Readable)
    (hbefore : environment.Overlays base before)
    (hafter : (environment.put key value).Overlays base after) (hfield : key.field = some field)
    {name : Field} (hname : name ≠ field) : after.field name = before.field name := by
  have hother : ∀ other, other.field = some name → other ≠ key := by
    intro other hother heq
    rw [heq, hfield] at hother
    exact hname (Option.some.inj hother).symm
  by_cases hmentioned : ∃ other, (environment other).isSome ∧ other.field = some name
  · obtain ⟨other, hsome, hmentions⟩ := hmentioned
    obtain ⟨found, hfound⟩ := Option.isSome_iff_exists.mp hsome
    obtain ⟨given, hgiven⟩ := Option.isSome_iff_exists.mp (hread other found hfound)
    rw [hbefore.given other found name given hfound hmentions hgiven]
    refine hafter.given other found name given ?_ hmentions hgiven
    rw [environment.put_of_ne value (hother other hmentions)]
    exact hfound
  · rw [hbefore.kept name fun other hsome hmentions => hmentioned ⟨other, hsome, hmentions⟩]
    refine hafter.kept name fun other hsome hmentions => ?_
    rw [environment.put_of_ne value (hother other hmentions)] at hsome
    exact hmentioned ⟨other, hsome, hmentions⟩

/-- The environment may give a key another value exactly when it has no other alternative, the
value means something, and it is what the configuration has or the command line overrides it. -/
theorem Loads.put_iff (h : Loads host toml environment cli config)
    (hfield : key.field = some field) :
    Loads host toml (environment.put key value) cli config ↔
      environment.Alone key ∧ ∃ written, readValue key value = some written ∧
        ((∃ other, (cli other).isSome ∧ other.field = key.field) ∨
          config.field field = written) := by
  obtain ⟨htomlOne, henvironmentOne, hcliOne⟩ := h.unambiguous
  obtain ⟨htomlRead, henvironmentRead, hcliRead⟩ := h.readable
  obtain ⟨first, second, hfirst, hsecond, hlast⟩ := h.layered
  constructor
  · intro hloads
    obtain ⟨_, hputOne, _⟩ := hloads.unambiguous
    obtain ⟨_, hputRead, _⟩ := hloads.readable
    obtain ⟨_, middle, _, hmiddle, hover⟩ := hloads.layered
    obtain ⟨written, hwritten⟩ :=
      Option.isSome_iff_exists.mp (hputRead key value (environment.put_self key value))
    refine ⟨(Patch.put_unambiguous_iff henvironmentOne hfield).mp hputOne, written, hwritten, ?_⟩
    by_cases hcli : ∃ other, (cli other).isSome ∧ other.field = key.field
    · exact .inl hcli
    · refine .inr ?_
      rw [hover.kept field fun other hother hname => hcli ⟨other, hother, hname.trans hfield.symm⟩]
      exact hmiddle.given key value field written (environment.put_self key value) hfield hwritten
  · rintro ⟨halone, written, hwritten, hsame⟩
    have hputOne : (environment.put key value).Unambiguous :=
      (Patch.put_unambiguous_iff henvironmentOne hfield).mpr halone
    have hputRead := Patch.put_readable henvironmentRead hwritten
    obtain ⟨middle, hmiddle⟩ := apply_is_ok hputOne hputRead first
    obtain ⟨_, _, hover⟩ := apply_ok_iff.mp hmiddle
    refine ⟨⟨htomlOne, hputOne, hcliOne⟩, ⟨htomlRead, hputRead, hcliRead⟩,
      ⟨first, middle, hfirst, hover, hlast.given, ?_⟩, h.valid⟩
    intro name hsilent
    by_cases hname : name = field
    · subst hname
      cases hsame with
      | inl hcli =>
          obtain ⟨other, hsome, hother⟩ := hcli
          exact absurd (hother.trans hfield) (hsilent other hsome)
      | inr hsame =>
          rw [hsame]
          exact (hover.given key value name written (environment.put_self key value) hfield
            hwritten).symm
    · rw [hsecond.put_kept henvironmentRead hover hfield hname]
      exact hlast.kept name hsilent

end

/-! ## Usable references -/

/-- The key under which the environment gives a credential itself. -/
def Field.tokenKey : Field → Option Key
  | .auth => some .authTokenPresent
  | .adminAuth => some .adminAuthTokenPresent
  | _ => none

/-- The keys that take every text. -/
def Key.takesAnyText (key : Key) : Bool :=
  key.isToken || key = .authFile || key = .adminAuthFile || key = .cacheDirectory

/-- What a mentioned variable of the server writes. -/
theorem variable_key_field {name : String} {key : Key} (h : variableKey name = some key) :
    ∃ field, key.field = some field := by
  have htable : ∀ entry ∈ environmentNames, entry.2.field.isSome := by decide
  obtain ⟨suffix, _, hlookup⟩ := Option.bind_eq_some_iff.mp h
  obtain ⟨before, after, heq, _⟩ := List.lookup_eq_some_iff.mp hlookup
  have hmem : (suffix, key) ∈ environmentNames := by
    rw [heq]
    exact List.mem_append_right _ List.mem_cons_self
  exact Option.isSome_iff_exists.mp (htable _ hmem)

theorem read_value_of_takes_any_text {key : Key} (h : key.takesAnyText = true) (text : String) :
    ∃ written, readValue key (.scalar text) = some written := by
  cases key with
  | authTokenPresent | adminAuthTokenPresent | authFile | adminAuthFile | cacheDirectory =>
      exact ⟨_, rfl⟩
  | _ => cases h

/-- A key that reads a comma takes every text. -/
theorem takes_any_text_of_comma {key : Key} {name : String}
    (h : (readValue key (.scalar (keptText key name ","))).isSome) : key.takesAnyText = true := by
  cases key with
  | authTokenPresent | adminAuthTokenPresent | authFile | adminAuthFile | cacheDirectory => rfl
  | _ =>
      revert h
      simp only [keptText, Key.isToken, reduceCtorEq, decide_false, Bool.or_self,
        Bool.false_eq_true, if_false]
      decide

/-- A key without a secret that takes every text gives different values for different texts. -/
theorem read_value_text_injective {key : Key} (htext : key.takesAnyText = true)
    (hplain : key.isToken = false) {left right : String}
    (h : readValue key (.scalar left) = readValue key (.scalar right)) : left = right := by
  cases key with
  | authFile | adminAuthFile | cacheDirectory =>
      cases h
      rfl
  | authTokenPresent | adminAuthTokenPresent => cases hplain
  | _ => cases htext

/-- The key of a secret gives the name of its variable to its own field. -/
theorem is_token_cases {key : Key} (h : key.isToken = true) (name : String) :
    ∃ field, key.field = some field ∧ field.tokenKey = some key ∧
      readValue key (.scalar name) = some (reference name) := by
  cases key with
  | authTokenPresent => exact ⟨.auth, rfl, rfl, rfl⟩
  | adminAuthTokenPresent => exact ⟨.adminAuth, rfl, rfl, rfl⟩
  | _ => cases h

theorem token_key_field {field : Field} {key : Key} (h : field.tokenKey = some key) :
    key.isToken = true ∧ key.field = some field := by
  cases field with
  | auth | adminAuth =>
      cases h
      exact ⟨rfl, rfl⟩
  | _ => cases h

/-- Two credentials of a valid configuration do not refer to one variable. -/
theorem reference_unique {host : Host} {config : Settings} {left right : Field} {name : String}
    (hvalid : config.toServerConfig.validate host = .ok ())
    (hleft : config.field left = reference name) (hright : config.field right = reference name) :
    left = right := by
  have hdistinct : ¬ (config.auth = some (.environment name) ∧
      config.adminAuth = some (.environment name)) := by
    rintro ⟨hauth, hadmin⟩
    simp only [ServerConfig.validate, Checked.bind_ok] at hvalid
    obtain ⟨_, _, _, hpolicy, _⟩ := hvalid
    have hpolicy := refuse_if_ok hpolicy
    simp [hauth, hadmin] at hpolicy
  have hcases : ∀ field, config.field field = reference name →
      field = .auth ∧ config.auth = some (.environment name) ∨
        field = .adminAuth ∧ config.adminAuth = some (.environment name) := by
    intro field hfield
    cases field with
    | auth => exact .inl ⟨rfl, FieldValue.credential.inj hfield⟩
    | adminAuth => exact .inr ⟨rfl, FieldValue.credential.inj hfield⟩
    | _ => cases hfield
  cases hcases left hleft with
  | inl hpublic =>
      cases hcases right hright with
      | inl hother => rw [hpublic.1, hother.1]
      | inr hadmin => exact absurd ⟨hpublic.2, hadmin.2⟩ hdistinct
  | inr hadmin =>
      cases hcases right hright with
      | inl hpublic => exact absurd ⟨hpublic.2, hadmin.2⟩ hdistinct
      | inr hother => rw [hadmin.1, hother.1]

/-- A variable of the server carries every secret exactly when it is the only one of its field in
the environment and either the token of the credential itself, or a text that is overridden. -/
theorem Loads.every_secret_iff {host : Host} {toml environment cli : Patch} {config : Settings}
    (h : Loads host toml environment cli config) {field : Field} {name : String} {key : Key}
    (hrefers : config.field field = reference name) (hkey : variableKey name = some key) :
    (∀ secret, secret ≠ "" →
      Loads host toml (environment.put key (.scalar (keptText key name secret))) cli config) ↔
      environment.Alone key ∧ (field.tokenKey = some key ∨
        key.takesAnyText = true ∧ ∃ other, (cli other).isSome ∧ other.field = key.field) := by
  obtain ⟨own, hown⟩ := variable_key_field hkey
  simp only [h.put_iff hown]
  constructor
  · intro hall
    -- Only text is read from a comma, so the variable takes any secret or none.
    obtain ⟨halone, comma, hcomma, hcommaSame⟩ := hall "," (by decide)
    refine ⟨halone, ?_⟩
    have htext : key.takesAnyText = true :=
      takes_any_text_of_comma (Option.isSome_iff_exists.mpr ⟨comma, hcomma⟩)
    by_cases hover : ∃ other, (cli other).isSome ∧ other.field = key.field
    · exact .inr ⟨htext, hover⟩
    · refine .inl ?_
      have hcommaField := hcommaSame.resolve_left hover
      by_cases htoken : key.isToken = true
      · obtain ⟨same, hsame, hsameKey, hread⟩ := is_token_cases htoken name
        rw [hown] at hsame
        cases hsame
        rw [keptText, if_pos htoken, hread] at hcomma
        cases hcomma
        rw [reference_unique h.valid hrefers hcommaField]
        exact hsameKey
      · -- A file or a directory would have to be named by every secret.
        rw [Bool.not_eq_true] at htoken
        obtain ⟨_, dot, hdot, hdotSame⟩ := hall "." (by decide)
        have hdotField := hdotSame.resolve_left hover
        simp only [keptText, htoken, Bool.false_eq_true, if_false] at hcomma hdot
        have hsame : "," = "." := by
          apply read_value_text_injective htext htoken
          rw [hcomma, hdot, ← hcommaField, ← hdotField]
        exact absurd hsame (by decide)
  · rintro ⟨halone, hcarries⟩ secret hsecret
    refine ⟨halone, ?_⟩
    cases hcarries with
    | inl htokenKey =>
        obtain ⟨htoken, hfield⟩ := token_key_field htokenKey
        rw [hown] at hfield
        cases hfield
        obtain ⟨_, _, _, hread⟩ := is_token_cases htoken name
        rw [keptText, if_pos htoken]
        exact ⟨reference name, hread, .inr hrefers⟩
    | inr hover =>
        obtain ⟨written, hwritten⟩ :=
          read_value_of_takes_any_text hover.1 (keptText key name secret)
        exact ⟨written, hwritten, .inl hover.2⟩

/-- The credentials of a configuration that was loaded refer to well-formed names, and each can be
put into the environment with any secret. -/
structure CredentialsUsable (host : Host) (toml : Option (List (String × TomlValue)))
    (environment : List (String × String)) (cli : List String) (config : Settings) : Prop where
  named : ∀ name, config.RefersTo name → isEnvName name = true
  carried : ∀ name secret, isEnvName name = true → config.RefersTo name → secret ≠ "" →
    load host toml (setVariable environment name secret) cli = .ok config

/-- A variable with the start of the server's names can carry the secret of a credential: it is a
setting, of whose field the environment names no other alternative, and either the token of this
credential or a setting that takes every text and is overridden on the command line. -/
def Carries (environment : List (String × String)) (cli : List String) (field : Field)
    (name : String) : Prop :=
  ∃ key, variableKey name = some key ∧
    (∀ other ∈ environmentKeys environment, other.field = key.field → other = key) ∧
    (field.tokenKey = some key ∨
      key.takesAnyText = true ∧ ∃ other ∈ cliKeys cli, other.field = key.field)

/-- The sources refer to variables that can be set. -/
structure NamesFit (toml : Option (List (String × TomlValue)))
    (environment : List (String × String)) (cli : List String) : Prop where
  /-- A token key of the document is overridden or holds a name. -/
  document : ∀ key name field, (key, .scalar name) ∈ tomlMentions toml → key.isToken = true →
    key.field = some field → Silent (environmentMentions environment) field →
    Silent (cliMentions cli) field → isEnvName name = true
  /-- A name of the server that a credential refers to can carry its secret. -/
  reserved : ∀ field name suffix,
    Refers (tomlMentions toml) (environmentMentions environment) (cliMentions cli) field name →
    stripStart environmentStart name = some suffix → Carries environment cli field name

/-- The keys with a value are those that the entries name. -/
theorem is_some_iff_mem_keys {E : Type} {read : E → Except Error (Option (Key × PatchValue))}
    {keyOf : E → Option Key} {entries : List E} {patch : Patch}
    (h : recordAll read duplicateKey Layers.none entries = .ok patch)
    (hkey : ∀ entry mention, read entry = .ok mention → mention.map Prod.fst = keyOf entry)
    {key : Key} : (patch key).isSome ↔ key ∈ entries.filterMap keyOf := by
  obtain ⟨hread, _, hholds⟩ := Layers.record_all_ok_iff.mp h
  rw [← map_mentions hread hkey, Option.isSome_iff_exists, List.mem_map]
  constructor
  · rintro ⟨value, hvalue⟩
    exact ⟨(key, value), (hholds key value).mp hvalue, rfl⟩
  · rintro ⟨mention, hmention, rfl⟩
    exact ⟨mention.2, (hholds mention.1 mention.2).mpr hmention⟩

section

variable {host : Host} {toml : Option (List (String × TomlValue))}
  {environment : List (String × String)} {cli : List String} {config : Settings} {field : Field}
  {name : String}

/-- What a loaded configuration refers to, and whence. -/
theorem refers_of_load (h : load host toml environment cli = .ok config) :
    config.field field = reference name ↔
      Refers (tomlMentions toml) (environmentMentions environment)
        (cliMentions cli) field name := by
  obtain ⟨tomlPatch, environmentPatch, cliPatch, htoml, henvironment, hcli, hloads⟩ := load_reads h
  obtain ⟨htomlOne, henvironmentOne, hcliOne⟩ := hloads.unambiguous
  obtain ⟨htomlRead, henvironmentRead, hcliRead⟩ := hloads.readable
  have htomlHolds := holds_of_record_all htoml
  have henvironmentHolds := holds_of_record_all henvironment
  have hcliHolds := holds_of_record_all hcli
  exact (hloads.merges htomlHolds henvironmentHolds hcliHolds).refers_iff
    (htomlHolds.definite htomlOne htomlRead)
    (henvironmentHolds.definite henvironmentOne henvironmentRead)
    (hcliHolds.definite hcliOne hcliRead)

/-- Every reference has a well-formed name if the token keys of the document do. -/
theorem Refers.named
    (h : Refers (tomlMentions toml) (environmentMentions environment) (cliMentions cli) field name)
    (hdocument : ∀ key, (key, .scalar name) ∈ tomlMentions toml → key.isToken = true →
      key.field = some field → Silent (environmentMentions environment) field →
      Silent (cliMentions cli) field → isEnvName name = true) : isEnvName name = true := by
  cases h with
  | cli hgives =>
      cases hgives.reference_key with
      | inl hname => exact hname
      | inr htoken =>
          obtain ⟨key, hmem, _, htoken⟩ := htoken
          rw [cli_not_token hmem] at htoken
          cases htoken
  | environment _ hgives =>
      cases hgives.reference_key with
      | inl hname => exact hname
      | inr htoken =>
          obtain ⟨key, hmem, _, htoken⟩ := htoken
          exact environment_token_named hmem htoken
  | toml hcli henvironment hgives =>
      cases hgives.reference_key with
      | inl hname => exact hname
      | inr htoken =>
          obtain ⟨key, hmem, hfield, htoken⟩ := htoken
          exact hdocument key hmem htoken hfield henvironment hcli

/-- A variable of the server that a loaded configuration refers to can be set to every secret
exactly when it can carry them. -/
theorem carries_iff (h : load host toml environment cli = .ok config)
    (hrefers : config.field field = reference name) {suffix : String}
    (hname : stripStart environmentStart name = some suffix) :
    (∀ secret, secret ≠ "" → load host toml (setVariable environment name secret) cli =
      .ok config) ↔
      Carries environment cli field name := by
  obtain ⟨tomlPatch, environmentPatch, cliPatch, htoml, henvironment, hcli, hloads⟩ := load_reads h
  have hset : ∀ key secret, variableKey name = some key → secret ≠ "" →
      (load host toml (setVariable environment name secret) cli = .ok config ↔
        Loads host tomlPatch (Patch.put environmentPatch key (.scalar (keptText key name secret)))
          cliPatch config) := by
    intro key secret hkey hsecret
    have hput := record_all_set_variable henvironment hkey hsecret
    constructor
    · intro hload
      obtain ⟨_, _, _, htoml', henvironment', hcli', hloads'⟩ := load_reads hload
      rw [htoml] at htoml'
      rw [hput] at henvironment'
      rw [hcli] at hcli'
      cases htoml'
      cases henvironment'
      cases hcli'
      exact hloads'
    · exact fun hloads' => load_of_reads htoml hput hcli hloads'
  have halone : ∀ key, Patch.Alone environmentPatch key ↔
      ∀ other ∈ environmentKeys environment, other.field = key.field → other = key := by
    intro key
    refine forall_congr' fun other => ?_
    rw [is_some_iff_mem_keys henvironment fun _ _ hread => read_variable_key hread]
    rfl
  have hover : ∀ key : Key, (∃ other, (cliPatch other).isSome ∧ other.field = key.field) ↔
      ∃ other ∈ cliKeys cli, other.field = key.field := by
    intro key
    refine exists_congr fun other => ?_
    rw [is_some_iff_mem_keys hcli fun _ _ hread => read_option_key hread]
    rfl
  constructor
  · intro hall
    obtain ⟨_, _, _, _, hrecorded, _⟩ := load_reads (hall "," (by decide))
    obtain ⟨key, hkey⟩ := variable_key_of_set_variable hrecorded hname
    refine ⟨key, hkey, ?_⟩
    rw [← halone, ← hover]
    exact (hloads.every_secret_iff hrefers hkey).mp
      fun secret hsecret => (hset key secret hkey hsecret).mp (hall secret hsecret)
  · rintro ⟨key, hkey, hcarries⟩ secret hsecret
    rw [← halone, ← hover] at hcarries
    exact (hset key secret hkey hsecret).mpr
      ((hloads.every_secret_iff hrefers hkey).mpr hcarries secret hsecret)

/-- The references of a configuration that is loaded are well formed and usable exactly when the
document does not give a credential an unchecked name, and the names with the start of the
server's own variables can carry a secret. -/
theorem credentials_usable_iff (h : load host toml environment cli = .ok config) :
    CredentialsUsable host toml environment cli config ↔ NamesFit toml environment cli := by
  constructor
  · intro husable
    refine ⟨?_, ?_⟩
    · intro key given own hmem htoken hown henvironment hcli
      obtain ⟨same, hsame, _, hread⟩ := is_token_cases htoken given
      rw [hown] at hsame
      cases hsame
      have hrefers := (refers_of_load h).mpr
        (Refers.toml hcli henvironment ⟨key, .scalar given, hmem, hown, hread⟩)
      exact husable.named given (Settings.refers_to_iff.mpr ⟨own, hrefers⟩)
    · intro own given suffix hrefers hname
      have hfield := (refers_of_load h).mpr hrefers
      have hto : config.RefersTo given := Settings.refers_to_iff.mpr ⟨own, hfield⟩
      exact (carries_iff h hfield hname).mp fun secret hsecret =>
        husable.carried given secret (husable.named given hto) hto hsecret
  · intro hfit
    refine ⟨?_, ?_⟩
    · intro given hto
      obtain ⟨own, hown⟩ := Settings.refers_to_iff.mp hto
      exact ((refers_of_load h).mp hown).named fun key => hfit.document key given own
    · intro given secret _ hto hsecret
      obtain ⟨own, hown⟩ := Settings.refers_to_iff.mp hto
      cases hname : stripStart environmentStart given with
      | some suffix =>
          exact (carries_iff h hown hname).mpr
            (hfit.reserved own given suffix ((refers_of_load h).mp hown) hname) secret hsecret
      | none =>
          obtain ⟨_, _, _, htoml, henvironment, hcli, hloads⟩ := load_reads h
          exact load_of_reads htoml (record_all_set_variable_foreign henvironment hname) hcli hloads

end

/-- A document that keeps the public credential in a variable. -/
def namedToml (name : String) : List (String × TomlValue) :=
  [("auth_env", .string name)]

/-- The defaults with a public credential. -/
def namedSettings (name : String) : Settings :=
  { Settings.default with auth := some (.environment name) }

/-- The variable that the example configuration of the repository names can be set. -/
theorem credentials_usable_example :
    load plainHost (some (namedToml "IMPOSSIBLE_AUTH_TOKEN")) [] [] =
      .ok (namedSettings "IMPOSSIBLE_AUTH_TOKEN") ∧
    CredentialsUsable plainHost (some (namedToml "IMPOSSIBLE_AUTH_TOKEN")) [] []
      (namedSettings "IMPOSSIBLE_AUTH_TOKEN") := by
  have hload : load plainHost (some (namedToml "IMPOSSIBLE_AUTH_TOKEN")) [] [] =
      .ok (namedSettings "IMPOSSIBLE_AUTH_TOKEN") := by
    decide +kernel
  refine ⟨hload, (credentials_usable_iff hload).mpr ⟨?_, ?_⟩⟩
  · intro key name field hmem htoken
    have honly : tomlMentions (some (namedToml "IMPOSSIBLE_AUTH_TOKEN")) =
        [(.authEnv, .scalar "IMPOSSIBLE_AUTH_TOKEN")] := by
      decide +kernel
    rw [honly, List.mem_singleton] at hmem
    cases hmem
    cases htoken
  · intro field name suffix hrefers hname
    have hfield := (refers_of_load hload).mpr hrefers
    have hkey : variableKey "IMPOSSIBLE_AUTH_TOKEN" = some .authTokenPresent := by decide +kernel
    cases field with
    | auth =>
        cases hfield
        refine ⟨.authTokenPresent, hkey, ?_, .inl rfl⟩
        intro other hother
        cases hother
    | _ => cases hfield

/-- A name that `validate_env_name` accepts and the environment does not, and a name that the
document gives unchecked. -/
theorem credential_names_unusable :
    (load plainHost (some (namedToml "IMPOSSIBLE_TOKEN")) [] [] =
        .ok (namedSettings "IMPOSSIBLE_TOKEN") ∧
      ¬ CredentialsUsable plainHost (some (namedToml "IMPOSSIBLE_TOKEN")) [] []
        (namedSettings "IMPOSSIBLE_TOKEN")) ∧
    load plainHost (some [("auth_token_present", .string "not a name")]) [] [] =
        .ok (namedSettings "not a name") ∧
      ¬ CredentialsUsable plainHost (some [("auth_token_present", .string "not a name")]) [] []
        (namedSettings "not a name") := by
  refine ⟨⟨by decide +kernel, ?_⟩, by decide +kernel, ?_⟩
  · intro husable
    have hname : isEnvName "IMPOSSIBLE_TOKEN" = true := by decide +kernel
    have hfails : load plainHost (some (namedToml "IMPOSSIBLE_TOKEN"))
        (setVariable [] "IMPOSSIBLE_TOKEN" "secret") [] = .error (.unknownKey .environment) := by
      decide +kernel
    have hloads := husable.carried "IMPOSSIBLE_TOKEN" "secret" hname (.inl rfl) (by decide)
    rw [hfails] at hloads
    cases hloads
  · intro husable
    have hname : isEnvName "not a name" = false := by decide +kernel
    have hnamed := husable.named "not a name" (.inl rfl)
    rw [hname] at hnamed
    cases hnamed

end EmbeddingServer.Config
