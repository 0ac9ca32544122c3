import EmbeddingServer.Server.ConfigSources

/-!
# Merging the sources

The law that `ServerConfig::load` implements: every field has the value given by the highest
source that mentions it. The three alternatives of a credential write one field, and a source
may use one of them.

`readValue` says what a patch value means for its key, without reference to a configuration.
-/

namespace EmbeddingServer.Config

/-! ## Fields -/

/-- The fields of the configuration. -/
inductive Field where
  | httpBind
  | grpcBind
  | allowInsecureRemote
  | auth
  | adminAuth
  | adminApiEnabled
  | allowedOrigins
  | modelDirectories
  | cacheDirectory
  | preloadModels
  | offline
  | startupPolicy
  | maxBodyBytes
  | maxInputBytes
  | maxRequestBytes
  | maxItems
  | maxTokens
  | maxQueueDepth
  | maxBatchItems
  | maxBatchTokens
  | maxConcurrency
  | requestTimeout
  | shutdownTimeout
  deriving DecidableEq, Repr

/-- The value of a field. -/
inductive FieldValue where
  | address (value : SocketAddr)
  | flag (value : Bool)
  | credential (value : Option CredentialSource)
  | texts (values : List String)
  | text (value : String)
  | policy (value : StartupPolicy)
  | number (value : Nat)
  deriving DecidableEq

/-- The value of a field in a configuration. -/
def Settings.field (config : Settings) : Field → FieldValue
  | .httpBind => .address config.httpBind
  | .grpcBind => .address config.grpcBind
  | .allowInsecureRemote => .flag config.allowInsecureRemote
  | .auth => .credential config.auth
  | .adminAuth => .credential config.adminAuth
  | .adminApiEnabled => .flag config.adminApiEnabled
  | .allowedOrigins => .texts config.allowedOrigins
  | .modelDirectories => .texts config.modelDirectories
  | .cacheDirectory => .text config.cacheDirectory
  | .preloadModels => .texts config.preloadModels
  | .offline => .flag config.offline
  | .startupPolicy => .policy config.startupPolicy
  | .maxBodyBytes => .number config.limits.maxBodyBytes
  | .maxInputBytes => .number config.limits.maxInputBytes
  | .maxRequestBytes => .number config.limits.maxRequestBytes
  | .maxItems => .number config.limits.maxItems
  | .maxTokens => .number config.limits.maxTokens
  | .maxQueueDepth => .number config.limits.maxQueueDepth
  | .maxBatchItems => .number config.limits.maxBatchItems
  | .maxBatchTokens => .number config.limits.maxBatchTokens
  | .maxConcurrency => .number config.limits.maxConcurrency
  | .requestTimeout => .number config.limits.requestTimeout
  | .shutdownTimeout => .number config.limits.shutdownTimeout

/-- The fields determine the configuration. -/
theorem Settings.ext_field {left right : Settings}
    (h : ∀ field, left.field field = right.field field) :
    left = right := by
  obtain ⟨⟨_, _, _, _, _, _, _, _, _, ⟨_, _, _, _, _, _, _, _, _, _, _⟩⟩, _, _, _⟩ := left
  obtain ⟨⟨_, _, _, _, _, _, _, _, _, ⟨_, _, _, _, _, _, _, _, _, _, _⟩⟩, _, _, _⟩ := right
  rw [Settings.mk.injEq, ServerConfig.mk.injEq, Limits.mk.injEq]
  exact ⟨⟨FieldValue.address.inj (h .httpBind), FieldValue.address.inj (h .grpcBind),
    FieldValue.flag.inj (h .allowInsecureRemote), FieldValue.credential.inj (h .auth),
    FieldValue.credential.inj (h .adminAuth), FieldValue.flag.inj (h .adminApiEnabled),
    FieldValue.texts.inj (h .allowedOrigins), FieldValue.text.inj (h .cacheDirectory),
    FieldValue.texts.inj (h .preloadModels),
    FieldValue.number.inj (h .maxBodyBytes), FieldValue.number.inj (h .maxInputBytes),
    FieldValue.number.inj (h .maxRequestBytes), FieldValue.number.inj (h .maxItems),
    FieldValue.number.inj (h .maxTokens), FieldValue.number.inj (h .maxQueueDepth),
    FieldValue.number.inj (h .maxBatchItems), FieldValue.number.inj (h .maxBatchTokens),
    FieldValue.number.inj (h .maxConcurrency), FieldValue.number.inj (h .requestTimeout),
    FieldValue.number.inj (h .shutdownTimeout)⟩, FieldValue.texts.inj (h .modelDirectories),
    FieldValue.flag.inj (h .offline), FieldValue.policy.inj (h .startupPolicy)⟩

/-- The field that a key writes. -/
def Key.field : Key → Option Field
  | .httpBind => some .httpBind
  | .grpcBind => some .grpcBind
  | .allowInsecureRemote => some .allowInsecureRemote
  | .authEnv => some .auth
  | .authTokenPresent => some .auth
  | .authFile => some .auth
  | .adminAuthEnv => some .adminAuth
  | .adminAuthTokenPresent => some .adminAuth
  | .adminAuthFile => some .adminAuth
  | .adminApiEnabled => some .adminApiEnabled
  | .allowedOrigins => some .allowedOrigins
  | .modelDirectories => some .modelDirectories
  | .cacheDirectory => some .cacheDirectory
  | .preloadModels => some .preloadModels
  | .offline => some .offline
  | .startupPolicy => some .startupPolicy
  | .maxBodyBytes => some .maxBodyBytes
  | .maxInputBytes => some .maxInputBytes
  | .maxRequestBytes => some .maxRequestBytes
  | .maxItems => some .maxItems
  | .maxTokens => some .maxTokens
  | .maxQueueDepth => some .maxQueueDepth
  | .maxBatchItems => some .maxBatchItems
  | .maxBatchTokens => some .maxBatchTokens
  | .maxConcurrency => some .maxConcurrency
  | .requestTimeout => some .requestTimeout
  | .shutdownTimeout => some .shutdownTimeout
  | .toml => none
  | .path => none

/-- The text of a scalar. -/
def PatchValue.text? : PatchValue → Option String
  | .scalar value => some value
  | .list _ => none

/-- The items of a list, which may be written with commas. -/
def PatchValue.items (value : PatchValue) : List String :=
  match value with
  | .scalar value => (value.toList.splitOn ',').map fun part => String.ofList (trim part)
  | .list values => values

/-- What a value means for its key: the value that the field is given. -/
def readValue (key : Key) (value : PatchValue) : Option FieldValue :=
  match key with
  | .httpBind | .grpcBind => (value.text?.bind parseSocketAddr).map .address
  | .allowInsecureRemote | .adminApiEnabled | .offline => (value.text?.bind parseBool).map .flag
  | .authEnv | .adminAuthEnv =>
      (value.text?.bind validateEnvName).map fun name => .credential (some (.environment name))
  | .authTokenPresent | .adminAuthTokenPresent =>
      value.text?.map fun name => .credential (some (.environment name))
  | .authFile | .adminAuthFile => value.text?.map fun path => .credential (some (.file path))
  | .allowedOrigins | .modelDirectories | .preloadModels =>
      if value.items.any String.isEmpty then none else some (.texts value.items)
  | .cacheDirectory => value.text?.map .text
  | .startupPolicy => (value.text?.bind parsePolicy).map .policy
  | .maxBodyBytes | .maxInputBytes | .maxRequestBytes | .maxItems | .maxTokens | .maxQueueDepth
  | .maxBatchItems | .maxBatchTokens | .maxConcurrency =>
      (value.text?.bind (parseUnsigned wordBits)).map .number
  | .requestTimeout | .shutdownTimeout => (value.text?.bind parseDuration).map .number
  | .toml | .path => none

/-- The configuration `after` is `before` with one field written. -/
def Writes (before after : Settings) (field : Field) (value : FieldValue) : Prop :=
  after.field field = value ∧ ∀ other, other ≠ field → after.field other = before.field other

/-- Applying a value fails, or writes what it means into a field. -/
def Applies (target : Settings) (field : Option Field) (meaning : Option FieldValue)
    (result : Except Error Settings) : Prop :=
  (∃ error, result = .error error) ∧ meaning = none ∨
    ∃ after name value, result = .ok after ∧ field = some name ∧ meaning = some value ∧
      Writes target after name value

section

variable {target : Settings} {key : Key} {value : PatchValue} {field : Field}

theorem apply_scalar_applies {α : Type} {parse : String → Option α} {reason : String}
    {write : α → Settings} {wrap : α → FieldValue}
    (hwrites : ∀ parsed, Writes target (write parsed) field (wrap parsed)) :
    Applies target (some field) ((value.text?.bind parse).map wrap)
      (applyScalar key value parse reason write) := by
  cases value with
  | list values => exact .inl ⟨⟨_, rfl⟩, rfl⟩
  | scalar text =>
      show Applies _ _ ((parse text).map wrap) (orInvalid key reason (parse text) >>= _)
      cases parse text with
      | none => exact .inl ⟨⟨_, rfl⟩, rfl⟩
      | some parsed => exact .inr ⟨write parsed, field, wrap parsed, rfl, rfl, rfl, hwrites parsed⟩

theorem apply_text_applies {write : String → Settings} {wrap : String → FieldValue}
    (hwrites : ∀ text, Writes target (write text) field (wrap text)) :
    Applies target (some field) (value.text?.map wrap) (applyText key value write) := by
  cases value with
  | list values => exact .inl ⟨⟨_, rfl⟩, rfl⟩
  | scalar text => exact .inr ⟨write text, field, wrap text, rfl, rfl, rfl, hwrites text⟩

theorem apply_list_applies {write : List String → Settings}
    (hwrites : ∀ values, Writes target (write values) field (.texts values)) :
    Applies target (some field)
      (if value.items.any String.isEmpty then none else some (.texts value.items))
      (applyList key value write) := by
  have hlist : listValue key value =
      if value.items.any String.isEmpty then
        .error (.invalidValue key "list entries must not be empty")
      else .ok value.items := rfl
  rw [applyList, hlist]
  by_cases hempty : value.items.any String.isEmpty = true
  · rw [if_pos hempty, if_pos hempty]
    exact .inl ⟨⟨_, rfl⟩, rfl⟩
  · rw [if_neg hempty, if_neg hempty]
    exact .inr ⟨write value.items, field, _, rfl, rfl, rfl, hwrites _⟩

/-- A record that differs in one field. -/
theorem writes_of {after : Settings} {written : FieldValue} (hfield : after.field field = written)
    (hother : ∀ other, other = field ∨ after.field other = target.field other) :
    Writes target after field written :=
  ⟨hfield, fun other hne => (hother other).resolve_left hne⟩

end

/-- `apply_value` writes the field of its key with what the value means, whatever the
configuration. -/
theorem apply_value_applies (target : Settings) (key : Key) (value : PatchValue) :
    Applies target key.field (readValue key value) (applyValue target key value) := by
  cases key with
  | toml | path => exact .inl ⟨⟨_, rfl⟩, rfl⟩
  | authTokenPresent | authFile | adminAuthTokenPresent | adminAuthFile | cacheDirectory =>
      refine apply_text_applies fun text => writes_of rfl fun other => ?_
      cases other <;> first | exact .inr rfl | exact .inl rfl
  | allowedOrigins | modelDirectories | preloadModels =>
      refine apply_list_applies fun values => writes_of rfl fun other => ?_
      cases other <;> first | exact .inr rfl | exact .inl rfl
  | httpBind | grpcBind | allowInsecureRemote | authEnv | adminAuthEnv | adminApiEnabled | offline
  | startupPolicy | maxBodyBytes | maxInputBytes | maxRequestBytes | maxItems | maxTokens
  | maxQueueDepth | maxBatchItems | maxBatchTokens | maxConcurrency | requestTimeout
  | shutdownTimeout =>
      refine apply_scalar_applies fun parsed => writes_of rfl fun other => ?_
      cases other <;> first | exact .inr rfl | exact .inl rfl

/-! ## Applying a patch -/

theorem Key.mem_all (key : Key) : key ∈ Key.all := by
  cases key <;> decide

/-- Two keys that write one field are equal or alternatives of a credential. -/
theorem field_shared {left right : Key} (h : left.field = right.field)
    (hfield : left.field ≠ none) :
    left = right ∨ ∃ alternatives ∈ credentialAlternatives,
      left ∈ alternatives ∧ right ∈ alternatives := by
  have hall : ∀ left ∈ Key.all, ∀ right ∈ Key.all, left.field = right.field → left.field ≠ none →
      left = right ∨ ∃ alternatives ∈ credentialAlternatives,
        left ∈ alternatives ∧ right ∈ alternatives := by
    decide
  exact hall left left.mem_all right right.mem_all h hfield

/-- The alternatives of a credential are distinct keys of one field. -/
theorem alternatives_field {alternatives : List Key} (h : alternatives ∈ credentialAlternatives) :
    alternatives.Nodup ∧ ∃ field, ∀ key ∈ alternatives, key.field = some field := by
  rw [credentialAlternatives, List.mem_cons, List.mem_singleton] at h
  cases h with
  | inl hauth =>
      subst hauth
      exact ⟨by decide, .auth, by decide⟩
  | inr hadmin =>
      subst hadmin
      exact ⟨by decide, .adminAuth, by decide⟩

/-- The patch gives every field at most one value. -/
def Patch.Unambiguous (patch : Patch) : Prop :=
  ∀ left right, (patch left).isSome → (patch right).isSome → left.field = right.field →
    left.field ≠ none → left = right

/-- A loop of checks passes exactly when every check does. -/
theorem for_m_check_ok_iff {α : Type} {fails : α → Prop} [DecidablePred fails] {error : α → Error}
    {items : List α} :
    (items.forM fun item => if fails item then throw (error item) else pure ()) =
        (.ok () : Except Error Unit) ↔ ∀ item ∈ items, ¬ fails item := by
  induction items with
  | nil => simp [List.forM, pure, Except.pure]
  | cons item rest ih =>
      show ((if fails item then throw (error item) else pure ()) >>= fun _ => rest.forM _) =
        (.ok () : Except Error Unit) ↔ _
      rw [List.forall_mem_cons, ← ih]
      by_cases hfails : fails item
      · rw [if_pos hfails]
        constructor
        · intro h
          cases h
        · rintro ⟨hnot, _⟩
          exact absurd hfails hnot
      · rw [if_neg hfails]
        exact ⟨fun h => ⟨hfails, h⟩, fun h => h.2⟩

/-- The check of the alternatives passes exactly when no field has two values. -/
theorem check_alternatives_ok_iff {patch : Patch} :
    patch.checkAlternatives = .ok () ↔ patch.Unambiguous := by
  rw [Patch.checkAlternatives, for_m_check_ok_iff]
  constructor
  · intro hfew left right hleft hright heq hfield
    cases field_shared heq hfield with
    | inl hsame => exact hsame
    | inr halternatives =>
        obtain ⟨alternatives, hmem, hleftMem, hrightMem⟩ := halternatives
        have hlength := hfew alternatives hmem
        have hleftIn : left ∈ alternatives.filter fun key => (patch key).isSome :=
          List.mem_filter.mpr ⟨hleftMem, hleft⟩
        have hrightIn : right ∈ alternatives.filter fun key => (patch key).isSome :=
          List.mem_filter.mpr ⟨hrightMem, hright⟩
        cases hfilter : alternatives.filter fun key => (patch key).isSome with
        | nil =>
            rw [hfilter] at hleftIn
            cases hleftIn
        | cons first others =>
            rw [hfilter, List.length_cons] at hlength
            have hempty : others = [] := List.length_eq_zero_iff.mp (by omega)
            rw [hfilter, hempty, List.mem_singleton] at hleftIn hrightIn
            rw [hleftIn, hrightIn]
  · intro hunambiguous alternatives hmem hmany
    obtain ⟨hnodup, field, hfield⟩ := alternatives_field hmem
    have hfilter : (alternatives.filter fun key => (patch key).isSome).Nodup := hnodup.filter _
    cases hpresent : alternatives.filter fun key => (patch key).isSome with
    | nil =>
        rw [hpresent] at hmany
        exact absurd hmany (Nat.not_lt_zero 1)
    | cons first others =>
        cases others with
        | nil =>
            rw [hpresent] at hmany
            exact absurd hmany (Nat.lt_irrefl 1)
        | cons second rest =>
            have hin : ∀ key ∈ first :: second :: rest,
                key ∈ alternatives ∧ (patch key).isSome = true := by
              intro key hkey
              rw [← hpresent] at hkey
              exact List.mem_filter.mp hkey
            have hfirst := hin first List.mem_cons_self
            have hsecond := hin second (List.mem_cons_of_mem _ List.mem_cons_self)
            have hsame := hunambiguous first second hfirst.2 hsecond.2
              (by rw [hfield first hfirst.1, hfield second hsecond.1])
              (by rw [hfield first hfirst.1]; exact Option.some_ne_none _)
            rw [hpresent, hsame, List.nodup_cons] at hfilter
            exact hfilter.1 List.mem_cons_self

/-- Every value of the patch means something for its key. -/
def Patch.Readable (patch : Patch) : Prop :=
  ∀ key value, patch key = some value → (readValue key value).isSome

/-- The configuration `after` has the values of the patch and, where it has none, those of
`before`. -/
structure Patch.Overlays (patch : Patch) (before after : Settings) : Prop where
  given : ∀ key value field written, patch key = some value → key.field = some field →
    readValue key value = some written → after.field field = written
  kept : ∀ field, (∀ key, (patch key).isSome → key.field ≠ some field) →
    after.field field = before.field field

/-- The second loop of `Patch::apply` over some of the keys. -/
theorem apply_from_ok {patch : Patch} (hunambiguous : patch.Unambiguous) {keys : List Key}
    {target after : Settings} (h : patch.applyFrom target keys = .ok after) :
    (∀ key ∈ keys, ∀ value, patch key = some value → (readValue key value).isSome) ∧
    (∀ key ∈ keys, ∀ value field written, patch key = some value → key.field = some field →
      readValue key value = some written → after.field field = written) ∧
    ∀ field, (∀ key ∈ keys, (patch key).isSome → key.field ≠ some field) →
      after.field field = target.field field := by
  induction keys generalizing target with
  | nil =>
      cases h
      exact ⟨by simp, by simp, fun _ _ => rfl⟩
  | cons key rest ih =>
      cases hvalue : patch key with
      | none =>
          rw [Patch.applyFrom, hvalue] at h
          obtain ⟨hread, hgiven, hkept⟩ := ih h
          refine ⟨?_, ?_, ?_⟩
          · rw [List.forall_mem_cons]
            refine ⟨fun value hsome => ?_, hread⟩
            rw [hvalue] at hsome
            cases hsome
          · rw [List.forall_mem_cons]
            refine ⟨fun value field written hsome => ?_, hgiven⟩
            rw [hvalue] at hsome
            cases hsome
          · intro field hsilent
            exact hkept field fun other hother => hsilent other (List.mem_cons_of_mem _ hother)
      | some value =>
          rw [Patch.applyFrom, hvalue] at h
          cases apply_value_applies target key value with
          | inl hfails =>
              obtain ⟨⟨error, herror⟩, _⟩ := hfails
              simp only [herror] at h
              cases h
          | inr happlied =>
              obtain ⟨middle, name, written, hmiddle, hname, hmeaning, hwrites⟩ := happlied
              simp only [hmiddle] at h
              obtain ⟨hread, hgiven, hkept⟩ := ih h
              refine ⟨?_, ?_, ?_⟩
              · rw [List.forall_mem_cons]
                refine ⟨fun other hother => ?_, hread⟩
                rw [hvalue] at hother
                cases hother
                rw [hmeaning]
                rfl
              · rw [List.forall_mem_cons]
                refine ⟨fun other field found hother hfield hfound => ?_, hgiven⟩
                rw [hvalue] at hother
                cases hother
                rw [hname] at hfield
                cases hfield
                rw [hmeaning] at hfound
                cases hfound
                -- A later key of the field would be this key again.
                by_cases hlater : ∃ other ∈ rest, (patch other).isSome ∧ other.field = some name
                · obtain ⟨other, hmem, hsome, hother⟩ := hlater
                  have hsame := hunambiguous key other (by rw [hvalue]; rfl) hsome
                    (by rw [hname, hother]) (by rw [hname]; exact Option.some_ne_none _)
                  subst hsame
                  exact hgiven key hmem value name written hvalue hname hmeaning
                · rw [← hwrites.1]
                  apply hkept name
                  intro other hother hsome hfield
                  exact hlater ⟨other, hother, hsome, hfield⟩
              · intro field hsilent
                have hne : field ≠ name := by
                  rintro rfl
                  exact hsilent key List.mem_cons_self (by rw [hvalue]; rfl) hname
                rw [← hwrites.2 field hne]
                exact hkept field fun other hother => hsilent other (List.mem_cons_of_mem _ hother)

/-- The loop ends when every value means something. -/
theorem apply_from_is_ok {patch : Patch} {keys : List Key} (target : Settings)
    (h : ∀ key ∈ keys, ∀ value, patch key = some value → (readValue key value).isSome) :
    ∃ after, patch.applyFrom target keys = .ok after := by
  induction keys generalizing target with
  | nil => exact ⟨target, rfl⟩
  | cons key rest ih =>
      obtain ⟨hfirst, hrest⟩ := List.forall_mem_cons.mp h
      rw [Patch.applyFrom]
      cases hvalue : patch key with
      | none => exact ih target hrest
      | some value =>
          cases apply_value_applies target key value with
          | inl hfails =>
              have hsome := hfirst value hvalue
              rw [hfails.2] at hsome
              cases hsome
          | inr happlied =>
              obtain ⟨middle, _, _, hmiddle, _⟩ := happlied
              simp only [hmiddle]
              exact ih middle hrest

/-- An overlay is determined by the patch and the configuration below it. -/
theorem Patch.Overlays.unique {patch : Patch} {before left right : Settings}
    (hread : patch.Readable) (hleft : patch.Overlays before left)
    (hright : patch.Overlays before right) : left = right := by
  apply Settings.ext_field
  intro field
  by_cases hmentioned : ∃ key, (patch key).isSome ∧ key.field = some field
  · obtain ⟨key, hsome, hfield⟩ := hmentioned
    obtain ⟨value, hvalue⟩ := Option.isSome_iff_exists.mp hsome
    obtain ⟨written, hwritten⟩ := Option.isSome_iff_exists.mp (hread key value hvalue)
    rw [hleft.given key value field written hvalue hfield hwritten,
      hright.given key value field written hvalue hfield hwritten]
  · have hsilent : ∀ key, (patch key).isSome → key.field ≠ some field :=
      fun key hsome hfield => hmentioned ⟨key, hsome, hfield⟩
    rw [hleft.kept field hsilent, hright.kept field hsilent]

/-- `Patch::apply` overlays the configuration with a patch that is readable and gives no field
two values. -/
theorem apply_ok_iff {patch : Patch} {target after : Settings} :
    patch.apply target = .ok after ↔
      patch.Unambiguous ∧ patch.Readable ∧ patch.Overlays target after := by
  have happly : patch.apply target = .ok after ↔
      patch.Unambiguous ∧ patch.applyFrom target Key.all = .ok after := by
    rw [Patch.apply, Checked.bind_ok, ← check_alternatives_ok_iff]
    exact ⟨fun ⟨_, hcheck, h⟩ => ⟨hcheck, h⟩, fun ⟨hcheck, h⟩ => ⟨(), hcheck, h⟩⟩
  have hoverlays : patch.Unambiguous → ∀ after, patch.applyFrom target Key.all = .ok after →
      patch.Readable ∧ patch.Overlays target after := by
    intro hunambiguous after h
    obtain ⟨hread, hgiven, hkept⟩ := apply_from_ok hunambiguous h
    refine ⟨fun key => hread key key.mem_all, fun key => hgiven key key.mem_all, ?_⟩
    exact fun field hsilent => hkept field fun key _ => hsilent key
  rw [happly]
  constructor
  · rintro ⟨hunambiguous, h⟩
    exact ⟨hunambiguous, hoverlays hunambiguous after h⟩
  · rintro ⟨hunambiguous, hread, hafter⟩
    obtain ⟨found, hfound⟩ := apply_from_is_ok target fun key _ => hread key
    obtain ⟨_, hother⟩ := hoverlays hunambiguous found hfound
    rw [hafter.unique hread hother]
    exact ⟨hunambiguous, hfound⟩

/-- A patch that is readable and gives no field two values can be applied. -/
theorem apply_is_ok {patch : Patch} (hunambiguous : patch.Unambiguous) (hread : patch.Readable)
    (target : Settings) : ∃ after, patch.apply target = .ok after := by
  obtain ⟨after, hafter⟩ := apply_from_is_ok target fun key (_ : key ∈ Key.all) => hread key
  refine ⟨after, ?_⟩
  rw [Patch.apply, check_alternatives_ok_iff.mpr hunambiguous]
  exact hafter

/-! ## Loading -/

/-- Every value is there after the patches were applied to the defaults in their order, and the
result is valid. -/
structure Loads (host : Host) (toml environment cli : Patch) (config : Settings) : Prop where
  unambiguous : toml.Unambiguous ∧ environment.Unambiguous ∧ cli.Unambiguous
  readable : toml.Readable ∧ environment.Readable ∧ cli.Readable
  layered : ∃ first second, toml.Overlays .default first ∧ environment.Overlays first second ∧
    cli.Overlays second config
  valid : config.toServerConfig.validate host = .ok ()

/-- A document without entries is like none. -/
theorem apply_none (target : Settings) :
    Patch.apply (Layers.none : Patch) target = .ok target := by
  refine apply_ok_iff.mpr ⟨?_, ?_, ?_, fun _ _ => rfl⟩
  · intro left right hleft
    cases hleft
  · intro key value hvalue
    cases hvalue
  · intro key value field written hvalue
    cases hvalue

/-- `ServerConfig::load` succeeds exactly when the three sources can be read and loaded. -/
theorem load_ok_iff {host : Host} {toml : Option (List (String × TomlValue))}
    {environment : List (String × String)} {cli : List String} {config : Settings} :
    load host toml environment cli = .ok config ↔
      ∃ tomlPatch environmentPatch cliPatch, parseToml (toml.getD []) = .ok tomlPatch ∧
        parseEnvironment environment = .ok environmentPatch ∧ parseCli cli = .ok cliPatch ∧
        Loads host tomlPatch environmentPatch cliPatch config := by
  have hfirst : ∀ first, applyToml toml .default = .ok first ↔
      ∃ patch, parseToml (toml.getD []) = .ok patch ∧ patch.apply .default = .ok first := by
    intro first
    cases toml with
    | none =>
        have hempty : parseToml ((none : Option (List (String × TomlValue))).getD []) =
            .ok Layers.none := rfl
        simp only [applyToml, hempty, Except.ok.injEq, exists_eq_left', apply_none]
    | some table => exact Checked.bind_ok
  have hlast : ∀ final : Settings, validateSettings host final = .ok () ↔
      final.toServerConfig.validate host = .ok () := by
    intro final
    rw [validateSettings]
    cases final.toServerConfig.validate host with
    | error error => simp [Except.mapError]
    | ok => simp [Except.mapError]
  unfold load
  simp only [Checked.bind_ok, hfirst, hlast]
  constructor
  · rintro ⟨first, ⟨tomlPatch, htoml, hfirst⟩, environmentPatch, henvironment, second, hsecond,
      cliPatch, hcli, final, hfinal, _, hvalid, hsame⟩
    cases hsame
    obtain ⟨htomlOne, htomlRead, htomlOver⟩ := apply_ok_iff.mp hfirst
    obtain ⟨henvOne, henvRead, henvOver⟩ := apply_ok_iff.mp hsecond
    obtain ⟨hcliOne, hcliRead, hcliOver⟩ := apply_ok_iff.mp hfinal
    exact ⟨tomlPatch, environmentPatch, cliPatch, htoml, henvironment, hcli,
      ⟨htomlOne, henvOne, hcliOne⟩, ⟨htomlRead, henvRead, hcliRead⟩,
      ⟨first, second, htomlOver, henvOver, hcliOver⟩, hvalid⟩
  · rintro ⟨tomlPatch, environmentPatch, cliPatch, htoml, henvironment, hcli, hloads⟩
    obtain ⟨first, second, htomlOver, henvOver, hcliOver⟩ := hloads.layered
    obtain ⟨htomlOne, henvOne, hcliOne⟩ := hloads.unambiguous
    obtain ⟨htomlRead, henvRead, hcliRead⟩ := hloads.readable
    exact ⟨first, ⟨tomlPatch, htoml, apply_ok_iff.mpr ⟨htomlOne, htomlRead, htomlOver⟩⟩,
      environmentPatch, henvironment, second, apply_ok_iff.mpr ⟨henvOne, henvRead, henvOver⟩,
      cliPatch, hcli, config, apply_ok_iff.mpr ⟨hcliOne, hcliRead, hcliOver⟩, (), hloads.valid, rfl⟩

end EmbeddingServer.Config
