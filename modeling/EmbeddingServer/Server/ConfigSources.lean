import EmbeddingServer.Server.Configuration

/-!
# What the sources mention

Each source is a list of entries: those of the TOML document under their full names, the
environment variables, and the command-line options with their values. Reading an entry is
independent of the others (`readToml`, `readVariable`, `readOption`), so the parsers of
`config.rs` are instances of `Layers.recordAll`: what a source accepts and what it gives depend
on its entries and not on their order.
-/

namespace EmbeddingServer.Config

open Layers (recordAll record mentions)

/-! ## The TOML document -/

/-- An entry of a document under its full name; the table `limits` holds several. -/
def tomlEntry (name : String) (value : TomlValue) : List (String × TomlValue) :=
  if name = "limits" then
    match value with
    | .table limits => limits.map fun entry => ("limits." ++ entry.1, entry.2)
    | _ => [(name, value)]
  else [(name, value)]

/-- The entries of a document under their full names. -/
def tomlEntries (table : List (String × TomlValue)) : List (String × TomlValue) :=
  table.flatMap fun entry => tomlEntry entry.1 entry.2

/-- What a TOML entry mentions. -/
def readToml (entry : String × TomlValue) : Except Error (Option (Key × PatchValue)) := do
  let key ← knownKey .toml entry.1
  let value ← tomlPatchValue key entry.2
  pure (some (key, value))

theorem insert_toml_eq (patch : Patch) (name : String) (value : TomlValue) :
    insertToml patch name value = record readToml duplicateKey patch (name, value) := by
  cases hkey : knownKey .toml name with
  | error error => simp [insertToml, record, readToml, hkey, bind, Except.bind]
  | ok key =>
      cases hvalue : tomlPatchValue key value with
      | error error =>
          simp [insertToml, insertTomlValue, record, readToml, hkey, hvalue, bind, Except.bind]
      | ok value =>
          simp [insertToml, insertTomlValue, record, readToml, hkey, hvalue, bind, Except.bind,
            pure, Except.pure, Patch.set]

theorem parse_toml_limits_eq (patch : Patch) (limits : List (String × TomlValue)) :
    parseTomlLimits patch limits = recordAll readToml duplicateKey patch
      (limits.map fun entry => ("limits." ++ entry.1, entry.2)) := by
  induction limits generalizing patch with
  | nil => rfl
  | cons entry rest ih =>
      rw [parseTomlLimits, insert_toml_eq, List.map_cons, recordAll]
      cases record readToml duplicateKey patch ("limits." ++ entry.1, entry.2) with
      | error error => rfl
      | ok patch => exact ih patch

/-- A value that is not a table under the name `limits` is refused either way. -/
theorem read_toml_limits (value : TomlValue) :
    readToml ("limits", value) = .error (.unknownKey .toml) := by
  have hkey : knownKey .toml "limits" = .error (.unknownKey .toml) := by decide
  simp [readToml, hkey, bind, Except.bind]

theorem record_all_single {E : Type} {read : E → Except Error (Option (Key × PatchValue))}
    (patch : Patch) (entry : E) :
    recordAll read duplicateKey patch [entry] = record read duplicateKey patch entry := by
  rw [recordAll]
  cases record read duplicateKey patch entry <;> rfl

/-- One iteration of `parse_toml` records one entry or those of the table `limits`. -/
theorem parse_toml_entry_ok_iff {base patch : Patch} {name : String} {value : TomlValue} :
    parseTomlEntry base name value = .ok patch ↔
      recordAll readToml duplicateKey base (tomlEntry name value) = .ok patch := by
  unfold parseTomlEntry tomlEntry
  by_cases hname : name = "limits"
  · rw [if_pos hname, if_pos hname]
    subst hname
    cases value with
    | table limits =>
        show parseTomlLimits base limits = _ ↔
          recordAll readToml duplicateKey base (limits.map _) = _
        rw [parse_toml_limits_eq]
    | string | integer | float | boolean | datetime | array =>
        simp [record_all_single, record, read_toml_limits, Except.bind]
  · rw [if_neg hname, if_neg hname, insert_toml_eq, record_all_single]

/-- `parse_toml` records the entries of the document. -/
theorem parse_toml_ok_iff {table : List (String × TomlValue)} {patch : Patch} :
    parseToml table = .ok patch ↔
      recordAll readToml duplicateKey Layers.none (tomlEntries table) = .ok patch := by
  suffices hfrom : ∀ base, parseTomlFrom base table = .ok patch ↔
      recordAll readToml duplicateKey base (tomlEntries table) = .ok patch from hfrom _
  intro base
  induction table generalizing base with
  | nil => rfl
  | cons entry rest ih =>
      rw [parseTomlFrom, tomlEntries, List.flatMap_cons, Layers.record_all_append, Checked.bind_ok]
      have hbind : ∀ result : Except Error Patch,
          (result.bind fun middle => recordAll readToml duplicateKey middle (tomlEntries rest)) =
            .ok patch ↔ ∃ middle, result = .ok middle ∧
              recordAll readToml duplicateKey middle (tomlEntries rest) = .ok patch :=
        fun _ => Checked.bind_ok
      refine Iff.trans ?_ (hbind _).symm
      exact exists_congr fun middle => and_congr parse_toml_entry_ok_iff (ih middle)

/-! ## The environment -/

/-- What an environment variable mentions. -/
def readVariable (entry : String × String) : Except Error (Option (Key × PatchValue)) :=
  match stripStart environmentStart entry.1 with
  | none => .ok none
  | some suffix =>
      match environmentNames.lookup suffix with
      | none => .error (.unknownKey .environment)
      | some key =>
          if key = .authTokenPresent || key = .adminAuthTokenPresent then
            if entry.2.isEmpty then .error (.invalidValue key "credential must not be empty")
            else .ok (some (key, .scalar entry.1))
          else .ok (some (key, .scalar entry.2))

theorem parse_variable_eq (patch : Patch) (name value : String) :
    parseVariable patch name value = record readVariable duplicateKey patch (name, value) := by
  unfold parseVariable record readVariable
  cases stripStart environmentStart name with
  | none => rfl
  | some suffix =>
      dsimp only
      cases environmentNames.lookup suffix with
      | none => rfl
      | some key =>
          dsimp only
          split
          · split <;> rfl
          · rfl

/-- `parse_environment` records the variables. -/
theorem parse_environment_eq (environment : List (String × String)) :
    parseEnvironment environment =
      recordAll readVariable duplicateKey Layers.none environment := by
  suffices hfrom : ∀ base, parseEnvironmentFrom base environment =
      recordAll readVariable duplicateKey base environment from hfrom _
  intro base
  induction environment generalizing base with
  | nil => rfl
  | cons entry rest ih =>
      rw [parseEnvironmentFrom, parse_variable_eq, recordAll]
      cases record readVariable duplicateKey base entry with
      | error error => rfl
      | ok middle => exact ih middle

/-! ## The command line -/

/-- The argument is an option that takes the next argument as its value. -/
def takesValue (argument : String) : Bool :=
  match parseOption argument with
  | .ok key => !key.isFlag
  | .error _ => false

/-- The options of a command line, each with its value. -/
def splitOptions : List String → List (List String)
  | [] => []
  | argument :: rest =>
      if takesValue argument then
        match rest with
        | [] => [[argument]]
        | value :: rest => [argument, value] :: splitOptions rest
      else [argument] :: splitOptions rest

/-- What an option mentions. -/
def readOption : List String → Except Error (Option (Key × PatchValue))
  | [] => .ok none
  | argument :: rest =>
      match parseOption argument with
      | .error error => .error error
      | .ok key =>
          if key.isFlag then .ok (some (key, .scalar "true"))
          else
            match rest with
            | [] => .error (.missingValue key)
            | value :: _ => .ok (some (key, .scalar value))

/-- `parse_cli` records the options. -/
theorem parse_cli_eq (arguments : List String) :
    parseCli arguments =
      recordAll readOption duplicateKey Layers.none (splitOptions arguments) := by
  suffices hfrom : ∀ base, parseCliFrom base arguments =
      recordAll readOption duplicateKey base (splitOptions arguments) from hfrom _
  intro base
  induction arguments using splitOptions.induct generalizing base with
  | case1 => rfl
  | case2 argument htakes =>
      rw [splitOptions, if_pos htakes, record_all_single, parseCliFrom, record, readOption]
      unfold takesValue at htakes
      cases hoption : parseOption argument with
      | error error =>
          rw [hoption] at htakes
          cases htakes
      | ok key =>
          rw [hoption] at htakes
          have hflag : key.isFlag = false := by simpa using htakes
          simp [hflag, Except.bind]
  | case3 argument htakes value rest ih =>
      rw [splitOptions, if_pos htakes, recordAll, parseCliFrom, record, readOption]
      unfold takesValue at htakes
      cases hoption : parseOption argument with
      | error error =>
          rw [hoption] at htakes
          cases htakes
      | ok key =>
          rw [hoption] at htakes
          have hflag : key.isFlag = false := by simpa using htakes
          simp [hflag, Except.bind, Patch.set, ih]
  | case4 argument rest htakes ih =>
      rw [splitOptions.eq_def, parseCliFrom.eq_def]
      dsimp only
      rw [if_neg htakes, recordAll, record, readOption]
      unfold takesValue at htakes
      cases hoption : parseOption argument with
      | error error => simp [Except.bind]
      | ok key =>
          rw [hoption] at htakes
          have hflag : key.isFlag = true := by simpa using htakes
          simp [hflag, Except.bind, Patch.set, ih]

end EmbeddingServer.Config
