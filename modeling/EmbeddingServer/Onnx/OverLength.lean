import EmbeddingServer.Models.Fingerprint
import EmbeddingServer.Onnx.Engine

/-!
# The over-length policy

`Truncation::Reject` relies on the loaded tokenizer returning the whole tokenization, but its
JSON may declare a truncation and a padding of its own, which every `encode` applies before the
engine compares a length. `over_length_exact_iff` says when the policy holds for a text: exactly
when the declared settings do not change the text's tokenization (or make the engine reject it),
and leave the tokenization cut to `max_tokens` within that limit.
-/

namespace EmbeddingServer

variable {ext : External} {crate : TokenizersCrate} {model : LoadedModel} {tokenizer : Tokenizer}

/-- The untruncated tokenization with special tokens, without padding. -/
def Tokenizer.fullEncoding (tokenizer : Tokenizer) (text : String) : Except String Encoding :=
  (tokenizer.tokens text).map tokenizer.postProcess

/-- What the crate's documentation says about truncation, padding and special tokens. -/
structure TokenizersCrate.Documented (crate : TokenizersCrate) (tokenizer : Tokenizer) : Prop where
  /-- Truncation on the right keeps the leading tokens that leave room for the special ones. -/
  leading : ∀ maxLength added tokens, added ≤ maxLength →
    crate.truncate (engineTruncation maxLength) added tokens =
      .ok (tokens.take (maxLength - added))
  /-- Any truncation only removes tokens. -/
  shortens : ∀ params added tokens kept, crate.truncate params added tokens = .ok kept →
    kept.Sublist tokens
  /-- Padding surrounds the encoding with masked positions. -/
  pads : ∀ params encoding, ∃ before after, crate.pad params encoding =
    before ++ encoding ++ after ∧ ∀ token ∈ before ++ after, token.attentionMask = 0
  /-- The post-processor adds as many tokens as it announces. -/
  adds : ∀ tokens, (tokenizer.postProcess tokens).length = tokens.length + tokenizer.addedTokens
  /-- Tokens of a text and special tokens are attended to. -/
  attends : ∀ text tokens, tokenizer.tokens text = .ok tokens →
    ∀ token ∈ tokenizer.postProcess tokens, token.attentionMask ≠ 0

/-! ## What validation promises -/

/-- A path character is no white space. -/
theorem is_whitespace_of_is_path_character {c : Char} (h : isPathCharacter c = true) :
    isWhitespace c = false := by
  have halpha : c.isAlpha = (c.isUpper || c.isLower) := rfl
  simp only [isPathCharacter, Char.isAlphanum, halpha, Bool.or_eq_true, decide_eq_true_eq,
    is_upper_iff_to_nat, is_lower_iff_to_nat, Char.isDigit_iff_toNat] at h
  have hrange : 0x20 < c.toNat ∧ c.toNat < 0x85 := by
    rcases h with ((((⟨hlow, hhigh⟩ | ⟨hlow, hhigh⟩) | ⟨hlow, hhigh⟩) | rfl) | rfl) | rfl
    · exact ⟨by omega, by omega⟩
    · exact ⟨by omega, by omega⟩
    · simp at hlow hhigh
      exact ⟨by omega, by omega⟩
    · decide
    · decide
    · decide
  simp only [isWhitespace, Bool.or_eq_false_iff, Bool.and_eq_false_iff, decide_eq_false_iff_not,
    beq_eq_false_iff_ne]
  omega

/-- An accepted identifier is not blank. -/
theorem validate_id_nonblank {value : String} (h : validateId value = .ok ()) :
    isBlank value = false := by
  rw [validateId, reject_if_ok] at h
  simp only [Bool.or_eq_false_iff, decide_eq_false_iff_not, List.any_eq_false] at h
  obtain ⟨⟨⟨⟨hnonempty, _⟩, hhead⟩, _⟩, hcomponents⟩ := h
  unfold isBlank
  cases hchars : value.toList with
  | nil =>
      rw [String.toList_eq_nil_iff] at hchars
      rw [hchars] at hnonempty
      exact absurd hnonempty (by decide)
  | cons first rest =>
      have hfirst : first ∈ value.toList := by
        rw [hchars]
        exact List.mem_cons_self
      cases mem_split_slash hfirst with
      | inl hslash =>
          rw [hchars, hslash] at hhead
          exact absurd rfl hhead
      | inr hcomponent =>
          obtain ⟨component, hmem, hc⟩ := hcomponent
          have hpath := hcomponents component hmem
          simp only [Bool.or_eq_true, not_or, Bool.not_eq_true', Bool.not_eq_false] at hpath
          rw [List.all_cons, is_whitespace_of_is_path_character (List.all_eq_true.mp hpath.2 _ hc),
            Bool.false_and]

/-- What the engine relies on in a validated manifest. -/
theorem Manifest.validate_engine {manifest : Manifest} (h : manifest.validate ext = .ok ()) :
    isBlank manifest.canonicalId = false ∧ 0 < manifest.tokenizer.maxTokens.toNat ∧
      0 < manifest.dimensions.native.toNat ∧
      ∀ width ∈ manifest.dimensions.matryoshka,
        0 < width.toNat ∧ width.toNat < manifest.dimensions.native.toNat := by
  simp only [Manifest.validate, Checked.bind_ok, reject_if_ok] at h
  obtain ⟨_, _, _, hid, _, _, _, _, _, _, _, htokenizer, _, hdimensions, _⟩ := h
  simp only [Bool.or_eq_false_iff, decide_eq_false_iff_not] at htokenizer
  simp only [Dimensions.invalid, Bool.or_eq_false_iff, decide_eq_false_iff_not,
    List.any_eq_false] at hdimensions
  obtain ⟨⟨⟨hnative, _⟩, hwidths⟩, _⟩ := hdimensions
  have hpos : ∀ word : UInt32, ¬ word = 0 → 0 < word.toNat := by
    intro word hword
    apply Nat.pos_of_ne_zero
    intro hzero
    exact hword (UInt32.toNat_inj.mp hzero)
  refine ⟨validate_id_nonblank hid, hpos _ htokenizer.2, hpos _ hnative, ?_⟩
  intro width hwidth
  have hsmall := hwidths width hwidth
  rw [Bool.or_eq_true, not_or, decide_eq_true_eq, decide_eq_true_eq] at hsmall
  exact ⟨hpos _ hsmall.1, Nat.lt_of_not_le fun hle => hsmall.2 (UInt32.le_iff_toNat_le.mpr hle)⟩

/-! ## What the engine encodes -/

/-- `encode` of the crate in terms of what is declared. -/
theorem Tokenizer.encode_ok {text : String} {encoding : Encoding} :
    tokenizer.encode crate text = .ok encoding ↔
      ∃ tokens kept, tokenizer.tokens text = .ok tokens ∧
        tokenizer.keptTokens crate tokens = .ok kept ∧
        tokenizer.padded crate (tokenizer.postProcess kept) = encoding := by
  unfold Tokenizer.encode
  simp only [Checked.bind_ok]
  constructor
  · rintro ⟨tokens, htokens, kept, hkept, h⟩
    exact ⟨tokens, kept, htokens, hkept, Except.ok.inj h⟩
  · rintro ⟨tokens, kept, htokens, hkept, rfl⟩
    exact ⟨tokens, htokens, kept, hkept, rfl⟩

/-- A result of another crate is kept and its errors are renamed. -/
theorem map_failure_ok {α : Type} {failure : String → EngineFailure} {result : Except String α}
    {value : α} : mapFailure failure result = .ok value ↔ result = .ok value := by
  cases result with
  | error error =>
      constructor
      · intro h
        cases h
      · intro h
        cases h
  | ok found =>
      constructor
      · intro h
        cases h
        rfl
      · intro h
        cases h
        rfl

/-- `LoadedModel::encode` succeeds with encodings of the chosen tokenizer that are not too long. -/
theorem LoadedModel.encode_ok {text : String} {truncation : Truncation} {encoding : Encoding} :
    model.encode crate text truncation = .ok encoding ↔
      (model.tokenizerFor truncation).encode crate text = .ok encoding ∧
        encoding.length ≤ model.maxTokens := by
  unfold LoadedModel.encode
  rw [Checked.bind_ok]
  constructor
  · rintro ⟨found, hfound, h⟩
    rw [map_failure_ok] at hfound
    split at h
    · cases h
    · rename_i hlength
      cases h
      exact ⟨hfound, Nat.le_of_not_lt hlength⟩
  · rintro ⟨hencode, hlength⟩
    exact ⟨encoding, map_failure_ok.mpr hencode, if_neg (Nat.not_lt_of_le hlength)⟩

/-- The tokenizers that `load_candidate` prepares. -/
theorem LoadedModel.LoadedFrom.tokenizers_eq (h : model.LoadedFrom ext crate tokenizer) :
    model.tokenizer = tokenizer ∧ tokenizer.addedTokens ≤ model.maxTokens ∧
      model.truncatingTokenizer =
        { tokenizer with truncation := some (engineTruncation model.maxTokens) } := by
  have hload := h.tokenizers
  unfold loadTokenizers at hload
  split at hload
  · cases hload
  · rename_i hadded
    rw [Checked.bind_ok] at hload
    obtain ⟨truncating, htruncating, hload⟩ := hload
    rw [map_failure_ok] at htruncating
    unfold Tokenizer.withTruncation at htruncating
    split at htruncating
    · simp only [Except.ok.injEq, Prod.mk.injEq] at htruncating hload
      exact ⟨hload.1.symm, Nat.le_of_not_lt hadded, by rw [← hload.2, ← htruncating]⟩
    · cases htruncating

/-- A successful preflight has encoded every input, and counts what it encoded. -/
theorem preflight_from_ok {options : EmbedOptions} {inputs : List String} {tokens longest : Nat}
    {result : Nat × Nat} (htokens : tokens < 2 ^ wordBits)
    (h : preflightFrom crate model options tokens longest inputs = .ok result) :
    ∃ encodings, model.encodeBatch crate options inputs = .ok encodings ∧
      result.1 = tokens + (encodings.map fun encoding => max encoding.length 1).sum ∧
      result.1 < 2 ^ wordBits := by
  induction inputs generalizing tokens longest with
  | nil =>
      cases h
      exact ⟨[], rfl, by simp, htokens⟩
  | cons text rest ih =>
      unfold preflightFrom at h
      rw [Checked.bind_ok] at h
      obtain ⟨encoding, hencoding, h⟩ := h
      dsimp only at h
      split at h
      · cases h
      · split at h
        · cases h
        · rename_i total htotal
          rw [Checked.add_eq_some_iff] at htotal
          obtain ⟨encodings, hencodings, hcount, hfits⟩ := ih htotal.2 h
          refine ⟨encoding :: encodings, ?_, ?_, hfits⟩
          · unfold LoadedModel.encodeBatch at hencodings ⊢
            rw [Checked.map_m_ok] at hencodings ⊢
            exact .cons hencoding hencodings
          · rw [hcount, ← htotal.1, List.map_cons, List.sum_cons]
            omega

/-- A request passes preflight only if every input is encoded. -/
theorem preflight_with_options_ok {requested : RequestedModel} {batch : EmbeddingBatch}
    {options : EmbedOptions} {cost : EmbeddingBatchCost}
    (h : preflightWithOptions crate model requested batch options = .ok cost) :
    requested.name = model.manifest.canonicalId ∧
      validateDimensions model.manifest options.dimensions = .ok () ∧
      ∃ encodings, model.encodeBatch crate options batch.inputs = .ok encodings ∧
        cost.tokens = (encodings.map fun encoding => max encoding.length 1).sum := by
  unfold preflightWithOptions at h
  split at h
  · cases h
  · rename_i hname
    rw [Checked.bind_ok] at h
    obtain ⟨_, hdimensions, h⟩ := h
    rw [Checked.bind_ok] at h
    obtain ⟨⟨tokens, longest⟩, hloop, h⟩ := h
    obtain ⟨encodings, hencodings, hcount, _⟩ :=
      preflight_from_ok (Nat.two_pow_pos wordBits) hloop
    refine ⟨not_not.mp hname, hdimensions, encodings, hencodings, ?_⟩
    dsimp only at h
    unfold EmbeddingBatchCost.new at h
    split at h
    · cases h
      show tokens = _
      rw [← Nat.zero_add (List.sum _)]
      exact hcount
    · cases h

/-- A batch is embedded only if every input is encoded. -/
theorem embed_with_options_encodes {session : Session} {requested : RequestedModel}
    {batch : EmbeddingBatch} {control : ExecutionControl} {options : EmbedOptions}
    {moments : Nat → Moment} {output : EmbeddingOutput}
    (h : embedWithOptions crate model session requested batch control options moments =
      .ok output) :
    ∃ encodings, model.encodeBatch crate options batch.inputs = .ok encodings := by
  unfold embedWithOptions at h
  rw [Checked.bind_ok] at h
  obtain ⟨_, _, h⟩ := h
  split at h
  · cases h
  · rw [Checked.bind_ok] at h
    obtain ⟨_, _, h⟩ := h
    rw [Checked.bind_ok] at h
    obtain ⟨encodings, hencodings, _⟩ := h
    exact ⟨encodings, hencodings⟩

/-- An encoded batch holds the encoding of each input at the input's place. -/
theorem LoadedModel.encode_batch_get_elem {options : EmbedOptions} {inputs : List String}
    {encodings : List Encoding} (h : model.encodeBatch crate options inputs = .ok encodings)
    {index : Nat} {input : String} (hinput : inputs[index]? = some input) :
    ∃ encoding, encodings[index]? = some encoding ∧
      model.encode crate (model.prepare options.task input) options.truncation = .ok encoding := by
  unfold LoadedModel.encodeBatch at h
  rw [Checked.map_m_ok] at h
  induction h generalizing index with
  | nil => cases hinput
  | cons hfirst hrest ih =>
      cases index with
      | zero =>
          cases hinput
          exact ⟨_, rfl, hfirst⟩
      | succ index => exact ih hinput

/-! ## The policy -/

/-- The policy under `Truncation::Reject`: a batch with the input passes preflight or is embedded
only if the full tokenization of the prefixed input has at most `max_tokens` tokens, and then
that tokenization is the input's row. -/
def RejectExact (crate : TokenizersCrate) (model : LoadedModel) (tokenizer : Tokenizer)
    (task : EmbeddingTask) (input : String) : Prop :=
  ∀ (requested : RequestedModel) (batch : EmbeddingBatch) (options : EmbedOptions) (index : Nat),
    options.task = task → options.truncation = .reject →
    batch.inputs[index]? = some input →
    ((∃ cost, preflightWithOptions crate model requested batch options = .ok cost) ∨
      ∃ session control moments output,
        embedWithOptions crate model session requested batch control options moments =
          .ok output) →
    ∃ full encodings, tokenizer.fullEncoding (model.prepare task input) = .ok full ∧
      full.length ≤ model.maxTokens ∧
      model.encodeBatch crate options batch.inputs = .ok encodings ∧
      encodings[index]? = some full

/-- The policy under `Truncation::Truncate`: an input that can be tokenized is not rejected for
its length, and at most `max_tokens` positions with its leading tokens are embedded. -/
def TruncateExact (crate : TokenizersCrate) (model : LoadedModel) (tokenizer : Tokenizer)
    (task : EmbeddingTask) (input : String) : Prop :=
  ∀ tokens, tokenizer.tokens (model.prepare task input) = .ok tokens →
    (∃ encoding count, model.encode crate (model.prepare task input) .truncate = .ok encoding ∧
      encoding.length ≤ model.maxTokens ∧
      encoding = tokenizer.padded crate (tokenizer.postProcess (tokens.take count))) ∧
    ∀ requested batch options, options.task = task → options.truncation = .truncate →
      requested.name = model.manifest.canonicalId →
      validateDimensions model.manifest options.dimensions = .ok () → batch.inputs = [input] →
      ∃ cost, preflightWithOptions crate model requested batch options = .ok cost

/-- The settings that the tokenizer's JSON declares do no harm to a text: its truncation removes
no token and its padding adds none, or what they leave is too long and rejected; and padding the
text cut to `max_tokens` does not exceed that limit. -/
def DeclaredHarmless (crate : TokenizersCrate) (tokenizer : Tokenizer) (maxTokens : Nat)
    (text : String) : Prop :=
  ∀ tokens, tokenizer.tokens text = .ok tokens →
    (∀ kept, tokenizer.keptTokens crate tokens = .ok kept →
      (kept = tokens ∧ tokenizer.padded crate (tokenizer.postProcess tokens) =
        tokenizer.postProcess tokens) ∨
      maxTokens < (tokenizer.padded crate (tokenizer.postProcess kept)).length) ∧
    (tokenizer.padded crate (tokenizer.postProcess
      (tokens.take (maxTokens - tokenizer.addedTokens)))).length ≤ maxTokens

/-- Without declared truncation and padding every text is safe. -/
theorem declared_harmless_of_plain (hcrate : crate.Documented tokenizer) {maxTokens : Nat}
    (hadded : tokenizer.addedTokens ≤ maxTokens) (htruncation : tokenizer.truncation = none)
    (hpadding : tokenizer.padding = none) (text : String) :
    DeclaredHarmless crate tokenizer maxTokens text := by
  have hpadded : ∀ encoding, tokenizer.padded crate encoding = encoding := by
    intro encoding
    unfold Tokenizer.padded
    rw [hpadding]
  intro tokens _
  constructor
  · intro kept hkept
    unfold Tokenizer.keptTokens at hkept
    rw [htruncation] at hkept
    cases hkept
    exact .inl ⟨rfl, hpadded _⟩
  · rw [hpadded, hcrate.adds, List.length_take]
    omega

/-- Padding never shortens, and an attended encoding is a padded one only if nothing is added. -/
theorem padded_eq_attended (hcrate : crate.Documented tokenizer) {encoding full : Encoding}
    (hattended : ∀ token ∈ full, token.attentionMask ≠ 0)
    (h : tokenizer.padded crate encoding = full) : encoding = full := by
  unfold Tokenizer.padded at h
  split at h
  · exact h
  · rename_i params _
    obtain ⟨before, after, hpad, hmasked⟩ := hcrate.pads params encoding
    rw [hpad] at h
    have hnone : ∀ token ∈ before ++ after, False := by
      intro token htoken
      refine hattended token ?_ (hmasked token htoken)
      rw [← h]
      rw [List.mem_append] at htoken
      rcases htoken with htoken | htoken
      · exact List.mem_append_left _ (List.mem_append_left _ htoken)
      · exact List.mem_append_right _ htoken
    have hempty : before ++ after = [] := List.eq_nil_iff_forall_not_mem.mpr hnone
    rw [List.append_eq_nil_iff] at hempty
    rw [hempty.1, hempty.2, List.nil_append, List.append_nil] at h
    exact h

/-- Any declared truncation only removes tokens. -/
theorem kept_tokens_sublist (hcrate : crate.Documented tokenizer) {tokens kept : List Token}
    (h : tokenizer.keptTokens crate tokens = .ok kept) : kept.Sublist tokens := by
  unfold Tokenizer.keptTokens at h
  split at h
  · cases h
    exact List.Sublist.refl _
  · exact hcrate.shortens _ _ _ _ h

/-- A batch of one encoded input passes preflight. -/
theorem preflight_singleton (hload : model.LoadedFrom ext crate tokenizer)
    {requested : RequestedModel} {batch : EmbeddingBatch} {options : EmbedOptions}
    {input : String} {encoding : Encoding} (hname : requested.name = model.manifest.canonicalId)
    (hdimensions : validateDimensions model.manifest options.dimensions = .ok ())
    (hbatch : batch.inputs = [input])
    (hencode : model.encode crate (model.prepare options.task input) options.truncation =
      .ok encoding) :
    ∃ cost, preflightWithOptions crate model requested batch options = .ok cost := by
  obtain ⟨_, hpos, _, _⟩ := Manifest.validate_engine hload.valid
  have hlength : max encoding.length 1 ≤ model.maxTokens :=
    max_le (LoadedModel.encode_ok.mp hencode).2 hpos
  have hword : model.maxTokens < 2 ^ wordBits :=
    Nat.lt_trans model.manifest.tokenizer.maxTokens.toNat_lt (by decide)
  have hloop : preflightFrom crate model options 0 0 [input] =
      .ok (max encoding.length 1, max encoding.length 1) := by
    unfold preflightFrom
    rw [hencode]
    show (if model.maxTokens < max encoding.length 1 then _ else _) = _
    rw [if_neg (Nat.not_lt_of_le hlength), Checked.add, Nat.zero_add,
      if_pos (Nat.lt_of_le_of_lt hlength hword)]
    show preflightFrom crate model options _ (max 0 _) [] = _
    rw [Nat.zero_max]
    rfl
  have hcost : 0 < 1 ∧ 0 < max encoding.length 1 ∧
      max encoding.length 1 ≤ 1 * max encoding.length 1 ∧
      1 * max encoding.length 1 < 2 ^ wordBits := by
    rw [Nat.one_mul]
    exact ⟨Nat.one_pos, by omega, Nat.le_refl _, Nat.lt_of_le_of_lt hlength hword⟩
  unfold preflightWithOptions
  rw [if_neg (not_not.mpr hname), hdimensions, hbatch]
  show ∃ cost, (preflightFrom crate model options 0 0 [input] >>= _) = _
  rw [hloop]
  exact ⟨_, dif_pos hcost⟩

/-- What the truncating tokenizer returns for a text that can be tokenized. -/
theorem truncating_tokenizer_encode (hload : model.LoadedFrom ext crate tokenizer)
    (hcrate : crate.Documented tokenizer) {text : String} {tokens : List Token}
    (htokens : tokenizer.tokens text = .ok tokens) (encoding : Encoding) :
    model.truncatingTokenizer.encode crate text = .ok encoding ↔
      tokenizer.padded crate (tokenizer.postProcess
        (tokens.take (model.maxTokens - tokenizer.addedTokens))) = encoding := by
  obtain ⟨_, hadded, htruncating⟩ := hload.tokenizers_eq
  have hleading := hcrate.leading model.maxTokens tokenizer.addedTokens tokens hadded
  rw [Tokenizer.encode_ok, htruncating]
  constructor
  · rintro ⟨found, kept, hfound, hkept, hencoding⟩
    have hsame := htokens.symm.trans hfound
    cases hsame
    have hkept' := hleading.symm.trans hkept
    cases hkept'
    exact hencoding
  · intro hencoding
    exact ⟨tokens, _, htokens, hleading, hencoding⟩

/-- Under the policy, whatever the engine encodes for an input is its full tokenization. -/
theorem RejectExact.encode_full (hload : model.LoadedFrom ext crate tokenizer)
    {task : EmbeddingTask} {input : String} (h : RejectExact crate model tokenizer task input)
    {encoding : Encoding}
    (hencode : model.encode crate (model.prepare task input) .reject = .ok encoding) :
    tokenizer.fullEncoding (model.prepare task input) = .ok encoding := by
  obtain ⟨hnonblank, _, _, _⟩ := Manifest.validate_engine hload.valid
  let requested : RequestedModel := ⟨model.manifest.canonicalId, hnonblank⟩
  let batch : EmbeddingBatch := ⟨[input], List.cons_ne_nil _ _⟩
  let options : EmbedOptions := ⟨task, .reject, none, none⟩
  have hcost : ∃ cost, preflightWithOptions crate model requested batch options = .ok cost :=
    preflight_singleton hload rfl rfl rfl hencode
  obtain ⟨full, encodings, hfull, _, hencodings, hrow⟩ :=
    h requested batch options 0 rfl rfl rfl (.inl hcost)
  obtain ⟨found, hfound, hsame⟩ :=
    LoadedModel.encode_batch_get_elem hencodings (by rfl : batch.inputs[0]? = some input)
  have hfound : found = full := Option.some.inj (hfound.symm.trans hrow)
  have hsame : encoding = found := Except.ok.inj (hencode.symm.trans hsame)
  rw [hsame, hfound]
  exact hfull

/-- If what the declared settings leave of a text is its full tokenization, they changed
nothing. -/
theorem unchanged_of_padded_full (hcrate : crate.Documented tokenizer) {text : String}
    {tokens kept : List Token} (htokens : tokenizer.tokens text = .ok tokens)
    (hkept : tokenizer.keptTokens crate tokens = .ok kept)
    (h : tokenizer.padded crate (tokenizer.postProcess kept) = tokenizer.postProcess tokens) :
    kept = tokens ∧ tokenizer.padded crate (tokenizer.postProcess tokens) =
      tokenizer.postProcess tokens := by
  have hpost : tokenizer.postProcess kept = tokenizer.postProcess tokens :=
    padded_eq_attended hcrate (hcrate.attends text tokens htokens) h
  have hlength : kept.length = tokens.length := by
    have hlengths := congrArg List.length hpost
    rw [hcrate.adds, hcrate.adds] at hlengths
    omega
  have hall : kept = tokens := (kept_tokens_sublist hcrate hkept).eq_of_length hlength
  rw [hall] at h
  exact ⟨hall, h⟩

/-- Exactly when the over-length policy holds for an input: for every tokenizer that was loaded,
every manifest and every input, both halves of the policy hold if and only if the settings that
the tokenizer declares do no harm to the prefixed input. -/
theorem over_length_exact_iff (ext : External) (crate : TokenizersCrate) (model : LoadedModel)
    (tokenizer : Tokenizer) (hload : model.LoadedFrom ext crate tokenizer)
    (hcrate : crate.Documented tokenizer) (task : EmbeddingTask) (input : String) :
    (RejectExact crate model tokenizer task input ∧
      TruncateExact crate model tokenizer task input) ↔
    DeclaredHarmless crate tokenizer model.maxTokens (model.prepare task input) := by
  obtain ⟨htokenizer, _, _⟩ := hload.tokenizers_eq
  constructor
  · rintro ⟨hreject, htruncate⟩ tokens htokens
    constructor
    · intro kept hkept
      by_cases hlong : model.maxTokens <
          (tokenizer.padded crate (tokenizer.postProcess kept)).length
      · exact .inr hlong
      · -- The engine accepts what is left of the text, so it must be all of it.
        left
        have hencode : model.encode crate (model.prepare task input) .reject =
            .ok (tokenizer.padded crate (tokenizer.postProcess kept)) := by
          rw [LoadedModel.encode_ok]
          refine ⟨?_, Nat.le_of_not_lt hlong⟩
          show model.tokenizer.encode crate _ = _
          rw [htokenizer, Tokenizer.encode_ok]
          exact ⟨tokens, kept, htokens, hkept, rfl⟩
        have hfull := hreject.encode_full hload hencode
        rw [Tokenizer.fullEncoding, htokens] at hfull
        exact unchanged_of_padded_full hcrate htokens hkept (Except.ok.inj hfull).symm
    · obtain ⟨⟨encoding, _, hencode, hlength, _⟩, _⟩ := htruncate tokens htokens
      rw [LoadedModel.encode_ok] at hencode
      rw [(truncating_tokenizer_encode hload hcrate htokens encoding).mp hencode.1]
      exact hlength
  · intro hharmless
    constructor
    · intro requested batch options index htask hpolicy hinput hsuccess
      have hencodings : ∃ encodings, model.encodeBatch crate options batch.inputs =
          .ok encodings := by
        rcases hsuccess with ⟨cost, hcost⟩ | ⟨_, _, _, _, houtput⟩
        · obtain ⟨_, _, encodings, hencodings, _⟩ := preflight_with_options_ok hcost
          exact ⟨encodings, hencodings⟩
        · exact embed_with_options_encodes houtput
      obtain ⟨encodings, hencodings⟩ := hencodings
      obtain ⟨encoding, hrow, hencode⟩ := LoadedModel.encode_batch_get_elem hencodings hinput
      -- The row of the input comes from the tokenizer as it was loaded.
      rw [htask, hpolicy, LoadedModel.encode_ok] at hencode
      obtain ⟨hencode, hlength⟩ := hencode
      have hencode : tokenizer.encode crate (model.prepare task input) = .ok encoding := by
        rw [← htokenizer]
        exact hencode
      obtain ⟨tokens, kept, htokens, hkept, rfl⟩ := Tokenizer.encode_ok.mp hencode
      rcases (hharmless tokens htokens).1 kept hkept with ⟨rfl, hpadded⟩ | hlong
      · rw [hpadded] at hrow hlength
        refine ⟨_, encodings, ?_, hlength, hencodings, hrow⟩
        rw [Tokenizer.fullEncoding, htokens]
        rfl
      -- A longer encoding is refused, against the success.
      · omega
    · intro tokens htokens
      have hlength := (hharmless tokens htokens).2
      have hencode : model.encode crate (model.prepare task input) .truncate =
          .ok (tokenizer.padded crate (tokenizer.postProcess
            (tokens.take (model.maxTokens - tokenizer.addedTokens)))) := by
        rw [LoadedModel.encode_ok]
        exact ⟨(truncating_tokenizer_encode hload hcrate htokens _).mpr rfl, hlength⟩
      refine ⟨⟨_, _, hencode, hlength, rfl⟩, ?_⟩
      intro requested batch options htask hpolicy hname hdimensions hbatch
      rw [← htask, ← hpolicy] at hencode
      exact preflight_singleton hload hname hdimensions hbatch hencode

/-! ## Two loaded tokenizers -/

/-- The documented truncation and padding of one encoding. -/
def TokenizersCrate.sample : TokenizersCrate where
  truncate params added tokens :=
    let budget := params.maxLength - added
    if params.strategy = .onlySecond ∧ budget < tokens.length then .error "second sequence"
    else
      match params.direction with
      | .right => .ok (tokens.take budget)
      | .left => .ok (tokens.drop (tokens.length - budget))
  pad params encoding :=
    let wanted := params.fixed.getD encoding.length
    let target :=
      (params.multiple.map fun multiple => (wanted + multiple - 1) / multiple * multiple)
      |>.getD wanted
    let fill := List.replicate (target - encoding.length) { params.padding with attentionMask := 0 }
    match params.direction with
    | .right => encoding ++ fill
    | .left => fill ++ encoding
  acceptsTruncation params added :=
    added ≤ params.maxLength && params.stride ≤ params.maxLength - added

/-- A tokenizer with one token for each character. -/
def Tokenizer.characters (truncation : Option TruncationParams) : Tokenizer where
  tokens text := .ok (text.toList.map fun c => ⟨c.toNat.toUInt32, 0, 1⟩)
  postProcess tokens := tokens
  addedTokens := 0
  truncation := truncation
  padding := none

/-- A manifest of an ONNX model with at most eight tokens. -/
def Manifest.onnx : Manifest :=
  { Manifest.fixture with
    runtime := .onnx "model.onnx" "tokenizer.json" ⟨"input_ids", some "attention_mask", none⟩
      "sentence_embedding" 0 true
    artifacts := ["model.onnx", "tokenizer.json"].map fun path =>
      { path := path
        url := "https://example.invalid/model"
        sha256 := "ca978112ca1bbdcafac231b39a23dc4da786eff8147c4e72b9807785afee48bb"
        size := 1 } }

theorem Manifest.validate_onnx : Manifest.onnx.validate (.fixture []) = .ok () := by
  decide

/-- The model that `load_candidate` builds for a tokenizer of characters. -/
def LoadedModel.characters (truncation : Option TruncationParams) : LoadedModel where
  manifest := .onnx
  contract := ⟨⟨"input_ids", some "attention_mask", none⟩, "sentence_embedding", 0, true⟩
  tokenizer := .characters truncation
  truncatingTokenizer := .characters (some (engineTruncation 8))
  identity := ⟨"tests/store-transaction", "r", "onnx-runtime@0", "a", "s"⟩

/-- It is the one `load_candidate` builds. -/
theorem LoadedModel.characters_loaded (truncation : Option TruncationParams) :
    (LoadedModel.characters truncation).LoadedFrom (.fixture []) .sample
      (.characters truncation) :=
  ⟨Manifest.validate_onnx, rfl⟩

/-- The sample behaves as documented for that tokenizer. -/
theorem TokenizersCrate.sample_documented (truncation : Option TruncationParams) :
    TokenizersCrate.sample.Documented (.characters truncation) := by
  refine ⟨?_, ?_, ?_, ?_, ?_⟩
  · intro maxLength added tokens _
    rfl
  · intro params added tokens kept h
    unfold TokenizersCrate.sample at h
    dsimp only at h
    split at h
    · cases h
    · split at h <;> cases h
      · exact List.take_sublist _ _
      · exact List.drop_sublist _ _
  · intro params encoding
    unfold TokenizersCrate.sample
    dsimp only
    cases params.direction with
    | right =>
        refine ⟨[], _, rfl, ?_⟩
        intro token htoken
        rw [List.nil_append, List.mem_replicate] at htoken
        rw [htoken.2]
    | left =>
        refine ⟨_, [], (List.append_nil _).symm, ?_⟩
        intro token htoken
        rw [List.append_nil, List.mem_replicate] at htoken
        rw [htoken.2]
  · intro tokens
    rfl
  · intro text tokens h token htoken
    cases h
    obtain ⟨c, _, rfl⟩ := List.mem_map.mp htoken
    exact (by decide : (1 : UInt32) ≠ 0)

/-- A tokenizer that declares nothing follows the policy on every input. -/
theorem over_length_exact_iff_plain :
    DeclaredHarmless .sample (.characters none) 8 "abc" ∧
    RejectExact .sample (.characters none) (.characters none) .document "abc" ∧
    TruncateExact .sample (.characters none) (.characters none) .document "abc" := by
  have hharmless : DeclaredHarmless .sample (.characters none) 8 "abc" :=
    declared_harmless_of_plain (TokenizersCrate.sample_documented none) (by decide) rfl rfl "abc"
  exact ⟨hharmless, (over_length_exact_iff (.fixture []) .sample (.characters none)
    (.characters none) (LoadedModel.characters_loaded none)
    (TokenizersCrate.sample_documented none) .document "abc").mpr hharmless⟩

/-- A tokenizer whose JSON declares a truncation to eight tokens: a text of nine tokens passes
preflight under `Truncation::Reject`, one token short. -/
theorem declared_truncation_shortens :
    (LoadedModel.characters (some (engineTruncation 8))).LoadedFrom (.fixture []) .sample
      (.characters (some (engineTruncation 8))) ∧
    (Tokenizer.characters (some (engineTruncation 8))).fullEncoding "abcdefghi" =
      .ok ("abcdefghi".toList.map fun c => ⟨c.toNat.toUInt32, 0, 1⟩) ∧
    ¬ RejectExact .sample (.characters (some (engineTruncation 8)))
      (.characters (some (engineTruncation 8))) .document "abcdefghi" := by
  refine ⟨LoadedModel.characters_loaded _, rfl, ?_⟩
  intro hexact
  have hload := LoadedModel.characters_loaded (some (engineTruncation 8))
  have hencode : (LoadedModel.characters (some (engineTruncation 8))).encode .sample
      ((LoadedModel.characters (some (engineTruncation 8))).prepare .document "abcdefghi")
      .reject = .ok ("abcdefgh".toList.map fun c => ⟨c.toNat.toUInt32, 0, 1⟩) := by
    decide +kernel
  have hfull := hexact.encode_full hload hencode
  exact absurd hfull (by decide +kernel)

end EmbeddingServer
