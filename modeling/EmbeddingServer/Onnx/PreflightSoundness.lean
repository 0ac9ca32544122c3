import EmbeddingServer.Lib.Segments
import EmbeddingServer.Onnx.OverLength

/-!
# Preflight and inference

Preflight counts an empty encoding as one token and checks no mask, while inference counts it as
none and cannot pool a row without an unmasked token. `preflight_sound_iff` says for which
requests the two agree in any batch: exactly when every encoding has an unmasked token, a
requested width does not exceed the native one, and the padded batch can be counted in a machine
word.
-/

namespace EmbeddingServer

variable {ext : External} {crate : TokenizersCrate} {model : LoadedModel}

/-- Some position of the encoding is attended to. -/
def Encoding.Attended (encoding : Encoding) : Prop :=
  ∃ token ∈ encoding, token.attentionMask ≠ 0

/-- The vector cut to the requested width. -/
def cutVector (dimensions : Option Nat) (vector : List F32) : List F32 :=
  match dimensions with
  | none => vector
  | some d => vector.take d

/-- A vector that inference accepts: finite, and with a squared norm above the threshold. -/
structure VectorAccepted (dimensions : Option Nat) (vector : List F32) : Prop where
  finite : vector.all F32.isFinite = true
  norm_finite : (squaredNorm (cutVector dimensions vector)).isFinite = true
  norm_above : (squaredNorm (cutVector dimensions vector)).le F32.epsilon = false

/-- What is assumed of the session on a batch: it returns an output of a declared shape, and
for every row with an unmasked token a vector that inference accepts. -/
def SessionBehaves (model : LoadedModel) (session : Session) (dimensions : Option Nat)
    (encodings : List Encoding) : Prop :=
  ∃ outputs output, session (sessionInputs model encodings) = .ok outputs ∧
    outputs model.contract.output = some output ∧
    validRuntimeOutputShape output.shape encodings.length (sequenceLength encodings)
      model.native = true ∧
    ∀ (row : Nat) encoding vector, encodings[row]? = some encoding → encoding.Attended →
      rawVector model output (sequenceLength encodings) row encoding = .ok vector →
      VectorAccepted dimensions vector

/-- Inference agrees with preflight on the requests of a batch: while the control stays active
the batch is embedded, with one vector for each input, and the token counts of each request sum
up to its preflight cost. -/
def SoundInBatch (crate : TokenizersCrate) (model : LoadedModel) (session : Session)
    (requested : RequestedModel) (options : EmbedOptions) (requests : List EmbeddingBatch)
    (batch : EmbeddingBatch) : Prop :=
  ∀ control moments, (∀ n, ExecutionControl.ensureActive (moments n) control = .ok ()) →
    ∃ output,
      embedWithOptions crate model session requested batch control options moments = .ok output ∧
      output.vectors.length = batch.inputs.length ∧
      ∀ (k : Nat) request cost, requests[k]? = some request →
        preflightWithOptions crate model requested request options = .ok cost →
        (Segments.segment (fun request => request.inputs.length) requests k request
          output.usage.inputTokens).sum = cost.tokens

/-- The condition on the requests: every input has an unmasked token, the requested width is not
beyond the native one, and the cells of the padded batch can be counted. -/
structure Attendable (crate : TokenizersCrate) (model : LoadedModel) (options : EmbedOptions)
    (inputs : List String) : Prop where
  attended : ∀ input ∈ inputs, ∀ encoding,
    model.encode crate (model.prepare options.task input) options.truncation = .ok encoding →
    encoding.Attended
  width : ∀ d, options.dimensions = some d → d ≤ model.native
  countable : ∀ encodings, model.encodeBatch crate options inputs = .ok encodings →
    inputs.length * sequenceLength encodings < 2 ^ wordBits

/-! ## Rows and vectors -/

/-- A row with an attended position has an unmasked one. -/
theorem unmasked_padded_row {encoding : Encoding} (h : encoding.Attended) (sequence : Nat) :
    unmasked (paddedRow sequence 0 (fun token => token.attentionMask.toNat) encoding) ≠ [] := by
  obtain ⟨token, hmem, hmask⟩ := h
  obtain ⟨index, hindex, hget⟩ := List.mem_iff_getElem.mp hmem
  intro hempty
  have hnot : index ∉ unmasked
      (paddedRow sequence 0 (fun token => token.attentionMask.toNat) encoding) := by
    rw [hempty]
    exact List.not_mem_nil
  apply hnot
  unfold unmasked paddedRow
  rw [List.mem_filter, List.mem_range, List.length_append, List.length_map, decide_eq_true_eq,
    List.getD_eq_getElem?_getD, List.getElem?_append_left (by rw [List.length_map]; exact hindex),
    List.getElem?_map, List.getElem?_eq_getElem hindex, hget]
  refine ⟨by omega, ?_⟩
  show ((token.attentionMask.toNat : Nat) : Int) ≠ 0
  intro hzero
  exact hmask (UInt32.toNat_inj.mp (Int.natCast_eq_zero.mp hzero))

/-- Pooling a row with an unmasked position gives a vector of the native width. -/
theorem raw_vector_ok {output : OutputTensor} {sequence row : Nat} {encoding : Encoding}
    (h : encoding.Attended) : ∃ vector, rawVector model output sequence row encoding = .ok vector ∧
      vector.length = model.native := by
  unfold rawVector
  split
  · exact ⟨_, rfl, by rw [List.length_map, List.length_range]⟩
  · have hmask := unmasked_padded_row h sequence
    unfold poolTokens
    split
    · contradiction
    · exact ⟨_, rfl, by rw [List.length_map, List.length_range]⟩

/-- A vector that is accepted and wide enough is finished. -/
theorem finish_vector_ok {dimensions : Option Nat} {vector : List F32} (normalize : Bool)
    (h : VectorAccepted dimensions vector)
    (hwidth : ∀ d, dimensions = some d → d ≤ vector.length) :
    ∃ finished, finishVector dimensions normalize vector = .ok finished := by
  have hcut : truncateVector dimensions vector = .ok (cutVector dimensions vector) := by
    cases dimensions with
    | none => rfl
    | some d => exact if_neg (Nat.not_lt_of_le (hwidth d rfl))
  have hnorm : ∃ finished, l2Normalize (cutVector dimensions vector) = .ok finished := by
    unfold l2Normalize
    rw [h.norm_finite, h.norm_above]
    exact ⟨_, rfl⟩
  obtain ⟨finished, hfinished⟩ := hnorm
  have hall : (!vector.all F32.isFinite) = false := by
    rw [h.finite]
    rfl
  unfold finishVector
  rw [hall, if_neg Bool.false_ne_true, hcut]
  cases normalize with
  | false => exact ⟨_, rfl⟩
  | true => exact ⟨finished, hfinished⟩

/-- A vector that is finished was finite and wide enough. -/
theorem finish_vector_inv {dimensions : Option Nat} {normalize : Bool} {vector finished : List F32}
    (h : finishVector dimensions normalize vector = .ok finished) :
    vector.all F32.isFinite = true ∧ ∀ d, dimensions = some d → d ≤ vector.length := by
  unfold finishVector at h
  split at h
  · cases h
  · rename_i hfinite
    rw [Checked.bind_ok] at h
    obtain ⟨cut, hcut, _⟩ := h
    refine ⟨by simpa using hfinite, ?_⟩
    rintro d rfl
    unfold truncateVector at hcut
    dsimp only at hcut
    split at hcut
    · cases hcut
    · omega

/-! ## A whole batch -/

/-- The two loops of `run` over the rows of an output. -/
def finishRows (model : LoadedModel) (output : OutputTensor) (encodings : List Encoding)
    (dimensions : Option Nat) (normalize : Bool) : Except EngineFailure (List (List F32)) := do
  let vectors ← encodings.zipIdx.mapM fun pair =>
    rawVector model output (sequenceLength encodings) pair.2 pair.1
  vectors.mapM (finishVector dimensions normalize)

/-- `run` in terms of its rows: it succeeds exactly when the cells can be counted, the session
returns an output of a declared shape, and every row is finished. -/
theorem run_eq_ok {session : Session} {encodings : List Encoding} {dimensions : Option Nat}
    {normalize : Bool} {vectors : List (List F32)} :
    model.run session encodings dimensions normalize = .ok vectors ↔
      encodings.length * sequenceLength encodings < 2 ^ wordBits ∧
      ∃ outputs output, session (sessionInputs model encodings) = .ok outputs ∧
        outputs model.contract.output = some output ∧
        validRuntimeOutputShape output.shape encodings.length (sequenceLength encodings)
          model.native = true ∧
        finishRows model output encodings dimensions normalize = .ok vectors := by
  unfold LoadedModel.run
  dsimp only
  constructor
  · intro h
    split at h
    · cases h
    · rename_i cells hcells
      rw [Checked.mul_eq_some_iff] at hcells
      rw [Checked.bind_ok] at h
      obtain ⟨outputs, hrun, h⟩ := h
      rw [map_failure_ok] at hrun
      split at h
      · cases h
      · rename_i output houtput
        split at h
        · cases h
        · rename_i hshape
          refine ⟨by rw [hcells.1]; exact hcells.2, outputs, output, hrun, houtput, ?_, h⟩
          simpa using hshape
  · rintro ⟨hcount, outputs, output, hrun, houtput, hshape, hrows⟩
    rw [Checked.mul, if_pos hcount]
    show (mapFailure inferenceError (session (sessionInputs model encodings)) >>= _) = _
    rw [hrun, Checked.bind_ok]
    refine ⟨outputs, rfl, ?_⟩
    rw [houtput]
    dsimp only
    rw [hshape]
    exact hrows

/-- Rows that are finished: as many vectors, each from a finite row that is wide enough. -/
theorem finish_rows_inv {output : OutputTensor} {encodings : List Encoding}
    {dimensions : Option Nat} {normalize : Bool} {vectors : List (List F32)}
    (h : finishRows model output encodings dimensions normalize = .ok vectors) :
    vectors.length = encodings.length ∧
      ∀ (row : Nat) encoding, encodings[row]? = some encoding → ∃ vector,
        rawVector model output (sequenceLength encodings) row encoding = .ok vector ∧
        vector.all F32.isFinite = true ∧ ∀ d, dimensions = some d → d ≤ vector.length := by
  unfold finishRows at h
  rw [Checked.bind_ok] at h
  obtain ⟨raw, hraw, hfinish⟩ := h
  constructor
  · have hfirst := (Checked.map_m_ok.mp hraw).length_eq
    have hsecond := (Checked.map_m_ok.mp hfinish).length_eq
    rw [List.length_zipIdx] at hfirst
    omega
  · intro row encoding hget
    have hpair : (encoding, row) ∈ encodings.zipIdx := List.mk_mem_zipIdx_iff_getElem?.mpr hget
    obtain ⟨vector, hvector, hrawVector⟩ := (Checked.map_m_mem hraw).2 _ hpair
    obtain ⟨finished, _, hfinished⟩ := (Checked.map_m_mem hfinish).2 vector hvector
    exact ⟨vector, hrawVector, finish_vector_inv hfinished⟩

/-- A run on a batch that can be counted, with a session that behaves, on attended rows. -/
theorem run_ok {session : Session} {encodings : List Encoding} {dimensions : Option Nat}
    (normalize : Bool) (hcount : encodings.length * sequenceLength encodings < 2 ^ wordBits)
    (hattended : ∀ encoding ∈ encodings, encoding.Attended)
    (hwidth : ∀ d, dimensions = some d → d ≤ model.native)
    (hsession : SessionBehaves model session dimensions encodings) :
    ∃ vectors, model.run session encodings dimensions normalize = .ok vectors ∧
      vectors.length = encodings.length := by
  obtain ⟨outputs, output, hrun, houtput, hshape, hrows⟩ := hsession
  have hraw : ∀ pair ∈ encodings.zipIdx, ∃ vector,
      rawVector model output (sequenceLength encodings) pair.2 pair.1 = .ok vector := by
    rintro ⟨encoding, row⟩ hpair
    have hget : encodings[row]? = some encoding := List.mk_mem_zipIdx_iff_getElem?.mp hpair
    obtain ⟨vector, hvector, _⟩ := raw_vector_ok (hattended encoding (List.mem_of_getElem? hget))
    exact ⟨vector, hvector⟩
  obtain ⟨raw, hraw⟩ := Checked.map_m_total hraw
  have hfinish : ∀ vector ∈ raw, ∃ finished,
      finishVector dimensions normalize vector = .ok finished := by
    intro vector hvector
    obtain ⟨⟨encoding, row⟩, hpair, hfrom⟩ := (Checked.map_m_mem hraw).1 vector hvector
    have hget : encodings[row]? = some encoding := List.mk_mem_zipIdx_iff_getElem?.mp hpair
    have hencoding : encoding.Attended := hattended encoding (List.mem_of_getElem? hget)
    obtain ⟨same, hsame, hlength⟩ := raw_vector_ok hencoding
    have hsame : same = vector := Except.ok.inj (hsame.symm.trans hfrom)
    rw [hsame] at hlength
    refine finish_vector_ok normalize (hrows row encoding vector hget hencoding hfrom) ?_
    intro d hd
    rw [hlength]
    exact hwidth d hd
  obtain ⟨vectors, hvectors⟩ := Checked.map_m_total hfinish
  have hall : finishRows model output encodings dimensions normalize = .ok vectors :=
    Checked.bind_ok.mpr ⟨raw, hraw, hvectors⟩
  exact ⟨vectors, run_eq_ok.mpr ⟨hcount, outputs, output, hrun, houtput, hshape, hall⟩,
    (finish_rows_inv hall).1⟩

/-! ## Several requests in one batch -/

/-- The encodings of a request, if it can be encoded. -/
def encodingsOf (crate : TokenizersCrate) (model : LoadedModel) (options : EmbedOptions)
    (request : EmbeddingBatch) : List Encoding :=
  match model.encodeBatch crate options request.inputs with
  | .ok encodings => encodings
  | .error _ => []

/-- A request that can be encoded has its encodings. -/
theorem encodings_of_eq {options : EmbedOptions} {request : EmbeddingBatch}
    {encodings : List Encoding}
    (h : model.encodeBatch crate options request.inputs = .ok encodings) :
    encodingsOf crate model options request = encodings := by
  unfold encodingsOf
  rw [h]

/-- The encodings of a batch of requests are those of the requests, one after the other. -/
theorem encode_batch_flat_map {options : EmbedOptions} {requests : List EmbeddingBatch}
    (h : ∀ request ∈ requests, ∃ encodings,
      model.encodeBatch crate options request.inputs = .ok encodings) :
    model.encodeBatch crate options (requests.flatMap EmbeddingBatch.inputs) =
      .ok (requests.flatMap (encodingsOf crate model options)) := by
  induction requests with
  | nil => rfl
  | cons request rest ih =>
      rw [List.forall_mem_cons] at h
      obtain ⟨encodings, hencodings⟩ := h.1
      have hrest := ih h.2
      rw [List.flatMap_cons, List.flatMap_cons, encodings_of_eq hencodings]
      unfold LoadedModel.encodeBatch at hencodings hrest ⊢
      rw [Checked.map_m_ok] at hencodings hrest ⊢
      exact List.rel_append hencodings hrest

/-- The lengths of encodings sum up to at most the cells of the padded batch. -/
theorem sum_lengths_le (encodings : List Encoding) :
    (encodings.map List.length).sum ≤ encodings.length * sequenceLength encodings := by
  have hlongest : ∀ encoding ∈ encodings, encoding.length ≤ sequenceLength encodings := by
    intro encoding hencoding
    refine le_trans ?_ (le_max_left _ 1)
    induction encodings with
    | nil => cases hencoding
    | cons first rest ih =>
        rw [List.map_cons, List.foldr_cons]
        rcases List.mem_cons.mp hencoding with rfl | hencoding
        · exact le_max_left _ _
        · exact (ih hencoding).trans (le_max_right _ _)
  generalize sequenceLength encodings = bound at hlongest
  induction encodings with
  | nil => exact Nat.zero_le _
  | cons first rest ih =>
      rw [List.forall_mem_cons] at hlongest
      rw [List.map_cons, List.sum_cons, List.length_cons, Nat.add_mul, Nat.one_mul]
      have := ih hlongest.2
      omega

/-- Usage of counts that can be summed. -/
theorem EmbeddingUsage.new_ok {tokens : List Nat} (hne : tokens ≠ [])
    (hsum : tokens.sum < 2 ^ wordBits) : ∃ usage, EmbeddingUsage.new tokens = .ok usage := by
  have htotal : Checked.trySum wordBits tokens = some tokens.sum :=
    Checked.try_sum_eq_some_iff.mpr ⟨rfl, hsum⟩
  unfold EmbeddingUsage.new
  rw [dif_neg hne]
  split
  · rename_i hnone
    rw [htotal] at hnone
    cases hnone
  · exact ⟨_, rfl⟩

/-- `embed_with_options` on encoded inputs, while its control is active. -/
theorem embed_with_options_ok {session : Session} {requested : RequestedModel}
    {batch : EmbeddingBatch} {control : ExecutionControl} {options : EmbedOptions}
    {moments : Nat → Moment} {encodings : List Encoding} {output : EmbeddingOutput}
    (hactive : ∀ n, control.ensureActive (moments n) = .ok ())
    (hname : requested.name = model.manifest.canonicalId)
    (hdimensions : validateDimensions model.manifest options.dimensions = .ok ())
    (hencodings : model.encodeBatch crate options batch.inputs = .ok encodings) :
    embedWithOptions crate model session requested batch control options moments = .ok output ↔
      ∃ usage vectors, EmbeddingUsage.new (encodings.map List.length) = .ok usage ∧
        model.run session encodings options.dimensions
          (options.normalize.getD model.contract.normalize) = .ok vectors ∧
        output = ⟨vectors, model.identity, usage⟩ := by
  unfold embedWithOptions
  rw [if_neg (not_not.mpr hname)]
  simp only [Checked.bind_ok, hactive, hdimensions, hencodings]
  constructor
  · rintro ⟨_, _, _, _, _, henc, usage, husage, _, _, vectors, hvectors, _, _, houtput⟩
    cases henc
    exact ⟨usage, vectors, husage, hvectors, (Except.ok.inj houtput).symm⟩
  · rintro ⟨usage, vectors, husage, hvectors, rfl⟩
    exact ⟨(), trivial, (), trivial, encodings, rfl, usage, husage, (), trivial, vectors,
      hvectors, (), trivial, rfl⟩

/-- Without empty encodings, what preflight counts is what inference counts. -/
theorem sum_max_one {encodings : List Encoding}
    (h : ∀ encoding ∈ encodings, encoding.Attended) :
    (encodings.map fun encoding => max encoding.length 1).sum =
      (encodings.map List.length).sum := by
  have hlengths : ∀ encoding ∈ encodings, max encoding.length 1 = encoding.length := by
    intro encoding hencoding
    obtain ⟨token, htoken, _⟩ := h encoding hencoding
    exact max_eq_left (List.length_pos_of_mem htoken)
  rw [List.map_congr_left hlengths]

/-! ## A session that behaves and nothing more -/

/-- A vector with a one in front. -/
def unitVector (width : Nat) : List F32 :=
  (List.range width).map fun c => if c = 0 then F32.one else F32.zero

/-- Adding zeros to one. -/
theorem foldl_add_zeros {values : List F32} (h : ∀ value ∈ values, value = F32.zero) :
    (values.map fun v => v.mul v).foldl F32.add F32.one = F32.one := by
  induction values with
  | nil => rfl
  | cons value rest ih =>
      rw [List.forall_mem_cons] at h
      rw [List.map_cons, List.foldl_cons, h.1]
      have hone : F32.one.add (F32.zero.mul F32.zero) = F32.one := by decide
      rw [hone]
      exact ih h.2

/-- The unit vector and every cut of it is accepted. -/
theorem unit_vector_accepted {width : Nat} (hwidth : 0 < width) {dimensions : Option Nat}
    (hdimensions : ∀ d, dimensions = some d → 0 < d) :
    VectorAccepted dimensions (unitVector width) := by
  obtain ⟨rest, hunit, hrest⟩ : ∃ rest, unitVector width = F32.one :: rest ∧
      ∀ value ∈ rest, value = F32.zero := by
    obtain ⟨width, rfl⟩ := Nat.exists_eq_succ_of_ne_zero (Nat.ne_of_gt hwidth)
    unfold unitVector
    rw [List.range_succ_eq_map, List.map_cons]
    refine ⟨_, rfl, ?_⟩
    intro value hvalue
    rw [List.map_map] at hvalue
    obtain ⟨c, _, rfl⟩ := List.mem_map.mp hvalue
    show (if c.succ = 0 then F32.one else F32.zero) = F32.zero
    rw [if_neg (Nat.succ_ne_zero c)]
  obtain ⟨cut, hcut, hzeros⟩ : ∃ cut, cutVector dimensions (unitVector width) = F32.one :: cut ∧
      ∀ value ∈ cut, value = F32.zero := by
    rw [hunit]
    cases dimensions with
    | none => exact ⟨rest, rfl, hrest⟩
    | some d =>
        obtain ⟨d, rfl⟩ := Nat.exists_eq_succ_of_ne_zero (Nat.ne_of_gt (hdimensions d rfl))
        exact ⟨rest.take d, rfl, fun value hvalue => hrest value (List.mem_of_mem_take hvalue)⟩
  have hnorm : squaredNorm (cutVector dimensions (unitVector width)) = F32.one := by
    rw [hcut, squaredNorm, F32.sum, List.map_cons, List.foldl_cons]
    have hstart : F32.add ⟨0x80000000#32⟩ (F32.one.mul F32.one) = F32.one := by decide
    rw [hstart]
    exact foldl_add_zeros hzeros
  constructor
  · rw [hunit, List.all_eq_true]
    intro value hvalue
    rcases List.mem_cons.mp hvalue with rfl | hvalue
    · decide
    · rw [hrest value hvalue]
      decide
  · rw [hnorm]
    decide
  · rw [hnorm]
    decide

/-- The output for a batch: a unit vector for an attended row and no number for another one. -/
def unitOutput (model : LoadedModel) (encodings : List Encoding) : OutputTensor where
  shape := [encodings.length, model.native]
  value index :=
    if (encodings.getD (index.getD 0 0) []).any fun token => token.attentionMask ≠ 0 then
      if index.getD 1 0 = 0 then F32.one else F32.zero
    else ⟨Binary32.nan⟩

/-- A session that returns that output. -/
def unitSession (model : LoadedModel) (encodings : List Encoding) : Session := fun _ =>
  .ok fun _ => some (unitOutput model encodings)

/-- Its vector for a row. -/
theorem raw_vector_unit_output {encodings : List Encoding} {sequence row : Nat}
    {encoding : Encoding} (hget : encodings[row]? = some encoding) :
    rawVector model (unitOutput model encodings) sequence row encoding =
      .ok ((List.range model.native).map fun c =>
        if encoding.any fun token => token.attentionMask ≠ 0 then
          if c = 0 then F32.one else F32.zero
        else ⟨Binary32.nan⟩) := by
  have hrow : encodings.getD row [] = encoding := by
    rw [List.getD_eq_getElem?_getD, hget, Option.getD_some]
  unfold rawVector
  rw [if_pos (show (unitOutput model encodings).shape.length = 2 from rfl)]
  congr 1
  apply List.map_congr_left
  intro c _
  show (if (encodings.getD row []).any _ then _ else _) = _
  rw [hrow]
  rfl

/-- The session behaves. -/
theorem unit_session_behaves {encodings : List Encoding} {dimensions : Option Nat}
    (hnative : 0 < model.native) (hdimensions : ∀ d, dimensions = some d → 0 < d) :
    SessionBehaves model (unitSession model encodings) dimensions encodings := by
  refine ⟨_, _, rfl, rfl, ?_, ?_⟩
  · simp [validRuntimeOutputShape, unitOutput]
  · intro row encoding vector hget hattended hraw
    obtain ⟨token, htoken, hmask⟩ := hattended
    have hany : (encoding.any fun token => token.attentionMask ≠ 0) = true := by
      rw [List.any_eq_true]
      exact ⟨token, htoken, by simpa using hmask⟩
    rw [raw_vector_unit_output hget, hany] at hraw
    have hvector : unitVector model.native = vector := Except.ok.inj hraw
    rw [← hvector]
    exact unit_vector_accepted hnative hdimensions

/-- With that session, a run that succeeds has only attended rows. -/
theorem unit_session_attended {encodings : List Encoding} {dimensions : Option Nat}
    {normalize : Bool} {vectors : List (List F32)} (hnative : 0 < model.native)
    (h : model.run (unitSession model encodings) encodings dimensions normalize = .ok vectors) :
    ∀ encoding ∈ encodings, encoding.Attended := by
  obtain ⟨_, outputs, output, hrun, houtput, _, hrows⟩ := run_eq_ok.mp h
  cases hrun
  cases houtput
  intro encoding hencoding
  obtain ⟨row, hget⟩ := List.mem_iff_getElem?.mp hencoding
  obtain ⟨vector, hraw, hfinite, _⟩ := (finish_rows_inv hrows).2 row encoding hget
  by_contra hmasked
  have hany : (encoding.any fun token => token.attentionMask ≠ 0) = false := by
    rw [List.any_eq_false]
    intro token htoken hmask
    exact hmasked ⟨token, htoken, by simpa using hmask⟩
  rw [raw_vector_unit_output hget, hany] at hraw
  rw [← Except.ok.inj hraw, List.all_map, List.all_eq_true] at hfinite
  exact absurd (hfinite 0 (List.mem_range.mpr hnative)) (by decide)

/-! ## The theorem -/

/-- A width that passes `validate_dimensions` is not zero. -/
theorem validate_dimensions_pos {manifest : Manifest} (hvalid : manifest.validate ext = .ok ())
    {dimensions : Option Nat} (h : validateDimensions manifest dimensions = .ok ()) :
    ∀ d, dimensions = some d → 0 < d := by
  obtain ⟨_, _, hnative, hwidths⟩ := Manifest.validate_engine hvalid
  rintro d rfl
  unfold validateDimensions at h
  apply Nat.pos_of_ne_zero
  rintro rfl
  have hrefused : ((0 ≠ manifest.dimensions.native.toNat : Bool) &&
      !(manifest.dimensions.matryoshka.map UInt32.toNat).contains 0) = true := by
    rw [Bool.and_eq_true, decide_eq_true_eq, Bool.not_eq_true', List.contains_eq_any_beq,
      List.any_eq_false]
    refine ⟨by omega, ?_⟩
    intro width hwidth
    obtain ⟨word, hword, rfl⟩ := List.mem_map.mp hwidth
    have := hwidths word hword
    simp only [beq_iff_eq]
    omega
  dsimp only [Option.any_some] at h
  rw [if_pos (by decide : (0 : Nat) < 2 ^ 32)] at h
  rw [if_pos hrefused] at h
  cases h

/-- What the separate preflights of requests say about their concatenation. -/
structure Encoded (crate : TokenizersCrate) (model : LoadedModel) (requested : RequestedModel)
    (options : EmbedOptions) (requests : List EmbeddingBatch) (batch : EmbeddingBatch)
    (encodings : List Encoding) : Prop where
  name : requested.name = model.manifest.canonicalId
  dimensions : validateDimensions model.manifest options.dimensions = .ok ()
  encodable : ∀ request ∈ requests, ∃ encodings,
    model.encodeBatch crate options request.inputs = .ok encodings
  encoded : model.encodeBatch crate options batch.inputs = .ok encodings
  blocks : requests.flatMap (encodingsOf crate model options) = encodings

/-- Requests that passed preflight can be encoded together. -/
theorem encoded_of_preflight {requested : RequestedModel} {options : EmbedOptions}
    {requests : List EmbeddingBatch} {batch : EmbeddingBatch}
    (hbatch : batch.inputs = requests.flatMap EmbeddingBatch.inputs)
    (hpreflight : ∀ request ∈ requests, ∃ cost,
      preflightWithOptions crate model requested request options = .ok cost) :
    Encoded crate model requested options requests batch
      (requests.flatMap (encodingsOf crate model options)) := by
  obtain ⟨first, hfirst⟩ : ∃ request, request ∈ requests := by
    apply List.exists_mem_of_ne_nil
    rintro rfl
    exact batch.nonempty hbatch
  obtain ⟨_, hfirstCost⟩ := hpreflight first hfirst
  obtain ⟨hname, hdimensions, _⟩ := preflight_with_options_ok hfirstCost
  have hencodable : ∀ request ∈ requests, ∃ encodings,
      model.encodeBatch crate options request.inputs = .ok encodings := by
    intro request hrequest
    obtain ⟨cost, hcost⟩ := hpreflight request hrequest
    obtain ⟨_, _, encodings, hencodings, _⟩ := preflight_with_options_ok hcost
    exact ⟨encodings, hencodings⟩
  refine ⟨hname, hdimensions, hencodable, ?_, rfl⟩
  rw [hbatch]
  exact encode_batch_flat_map hencodable

section

variable {requested : RequestedModel} {options : EmbedOptions} {requests : List EmbeddingBatch}
  {batch : EmbeddingBatch} {encodings : List Encoding}

/-- A batch has a row for each input. -/
theorem Encoded.rows (h : Encoded crate model requested options requests batch encodings) :
    batch.inputs.length = encodings.length :=
  (Checked.map_m_ok.mp h.encoded).length_eq

/-- The token counts of a request in the batch are those of its own encodings. -/
theorem Encoded.segment (h : Encoded crate model requested options requests batch encodings)
    {k : Nat} {request : EmbeddingBatch} (hrequest : requests[k]? = some request) :
    Segments.segment (fun request => request.inputs.length) requests k request
        (encodings.map List.length) =
      (encodingsOf crate model options request).map List.length := by
  have hsizes : ∀ request ∈ requests, request.inputs.length =
      ((encodingsOf crate model options request).map List.length).length := by
    intro request hrequest
    obtain ⟨found, hfound⟩ := h.encodable request hrequest
    rw [encodings_of_eq hfound, List.length_map]
    exact (Checked.map_m_ok.mp hfound).length_eq
  rw [← h.blocks, List.map_flatMap,
    Segments.segment_flat_map_of_size _ _ requests hsizes k request hrequest]

/-- If the unit session is served as preflight promised, the requests meet the condition. -/
theorem Encoded.attendable (hvalid : model.manifest.validate ext = .ok ())
    (h : Encoded crate model requested options requests batch encodings)
    (hsound : SoundInBatch crate model (unitSession model encodings) requested options requests
      batch) : Attendable crate model options batch.inputs := by
  obtain ⟨_, _, hnative, _⟩ := Manifest.validate_engine hvalid
  obtain ⟨output, hembed, _⟩ := hsound (.leaf (.single 0) none)
    (fun _ => ⟨0, fun _ => false⟩) (fun _ => rfl)
  obtain ⟨_, vectors, _, hrun, _⟩ :=
    (embed_with_options_ok (fun _ => rfl) h.name h.dimensions h.encoded).mp hembed
  have hattended := unit_session_attended hnative hrun
  obtain ⟨hcount, outputs, found, hsession, hfound, _, hfinish⟩ := run_eq_ok.mp hrun
  constructor
  · intro input hinput encoding hencode
    obtain ⟨same, hsame, hcheck⟩ := (Checked.map_m_mem h.encoded).2 input hinput
    rw [hencode] at hcheck
    cases hcheck
    exact hattended encoding hsame
  · intro d hd
    have hpos : 0 < encodings.length := by
      rw [← h.rows]
      exact List.length_pos_of_ne_nil batch.nonempty
    obtain ⟨vector, hraw, _, hwide⟩ := (finish_rows_inv hfinish).2 0 _
      (List.getElem?_eq_getElem hpos)
    obtain ⟨same, hsame, hlength⟩ := raw_vector_ok (hattended _ (List.getElem_mem hpos))
    rw [hraw] at hsame
    cases hsame
    rw [← hlength]
    exact hwide d hd
  · intro found hfound
    rw [h.encoded] at hfound
    cases hfound
    rw [h.rows]
    exact hcount

/-- Requests that meet the condition are served as preflight promised. -/
theorem Encoded.sound (h : Encoded crate model requested options requests batch encodings)
    (hgood : Attendable crate model options batch.inputs) {session : Session}
    (hsession : SessionBehaves model session options.dimensions encodings) :
    SoundInBatch crate model session requested options requests batch := by
  intro control moments hactive
  have hattended : ∀ encoding ∈ encodings, encoding.Attended := by
    intro encoding hencoding
    obtain ⟨input, hinput, hcheck⟩ := (Checked.map_m_mem h.encoded).1 encoding hencoding
    exact hgood.attended input hinput encoding hcheck
  have hcount : encodings.length * sequenceLength encodings < 2 ^ wordBits := by
    rw [← h.rows]
    exact hgood.countable encodings h.encoded
  obtain ⟨vectors, hrun, hlength⟩ := run_ok (options.normalize.getD model.contract.normalize)
    hcount hattended hgood.width hsession
  have hnonempty : encodings.map List.length ≠ [] := by
    intro hnil
    have hrows := h.rows
    rw [List.map_eq_nil_iff] at hnil
    rw [hnil] at hrows
    exact batch.nonempty (List.eq_nil_of_length_eq_zero hrows)
  obtain ⟨usage, husage⟩ := EmbeddingUsage.new_ok hnonempty
    (Nat.lt_of_le_of_lt (sum_lengths_le encodings) hcount)
  refine ⟨⟨vectors, model.identity, usage⟩,
    (embed_with_options_ok hactive h.name h.dimensions h.encoded).mpr
      ⟨usage, vectors, husage, hrun, rfl⟩, by rw [hlength, h.rows], ?_⟩
  intro k request cost hrequest hcost
  obtain ⟨_, _, own, hown, htokens⟩ := preflight_with_options_ok hcost
  have hownAttended : ∀ encoding ∈ own, encoding.Attended := by
    intro encoding hencoding
    apply hattended
    rw [← h.blocks, List.mem_flatMap]
    exact ⟨request, List.mem_of_getElem? hrequest, by rw [encodings_of_eq hown]; exact hencoding⟩
  show (Segments.segment _ requests k request usage.inputTokens).sum = _
  rw [EmbeddingUsage.new_input_tokens husage, h.segment hrequest, encodings_of_eq hown, htokens,
    sum_max_one hownAttended]

end

/-- Exactly when preflight is sound in any batch. For a loaded model, any options, and any
requests each of which passed preflight on its own: inference agrees with preflight on their
concatenation, with every session that behaves, if and only if every input has an unmasked
token, the requested width is not beyond the native one, and the cells of the padded batch can
be counted. -/
theorem preflight_sound_iff (ext : External) (crate : TokenizersCrate) (model : LoadedModel)
    (hvalid : model.manifest.validate ext = .ok ()) (requested : RequestedModel)
    (options : EmbedOptions) (requests : List EmbeddingBatch) (batch : EmbeddingBatch)
    (hbatch : batch.inputs = requests.flatMap EmbeddingBatch.inputs)
    (hpreflight : ∀ request ∈ requests, ∃ cost,
      preflightWithOptions crate model requested request options = .ok cost) :
    (∀ session, (∀ encodings, model.encodeBatch crate options batch.inputs = .ok encodings →
        SessionBehaves model session options.dimensions encodings) →
      SoundInBatch crate model session requested options requests batch) ↔
    Attendable crate model options batch.inputs := by
  have hencoded := encoded_of_preflight hbatch hpreflight
  constructor
  · intro hsound
    refine hencoded.attendable hvalid (hsound _ ?_)
    intro found hfound
    rw [hencoded.encoded] at hfound
    cases hfound
    obtain ⟨_, _, hnative, _⟩ := Manifest.validate_engine hvalid
    exact unit_session_behaves hnative (validate_dimensions_pos hvalid hencoded.dimensions)
  · intro hgood session hsession
    exact hencoded.sound hgood (hsession _ hencoded.encoded)

/-- The name of the sample model. -/
def RequestedModel.sample : RequestedModel := ⟨"tests/store-transaction", by decide⟩

/-- A request of one input. -/
def EmbeddingBatch.single (input : String) : EmbeddingBatch := ⟨[input], List.cons_ne_nil _ _⟩

/-- Two requests with characters to embed are served together as preflight promised. -/
theorem preflight_sound_iff_pair :
    Attendable .sample (.characters none) .default ["abc", "d"] ∧
    ∀ session, (∀ encodings,
        (LoadedModel.characters none).encodeBatch .sample .default ["abc", "d"] = .ok encodings →
        SessionBehaves (.characters none) session none encodings) →
      SoundInBatch .sample (.characters none) session .sample .default
        [.single "abc", .single "d"] ⟨["abc", "d"], by decide⟩ := by
  have hgood : Attendable .sample (.characters none) .default ["abc", "d"] := by
    have hencode : (LoadedModel.characters none).encodeBatch .sample .default ["abc", "d"] =
        .ok [[⟨97, 0, 1⟩, ⟨98, 0, 1⟩, ⟨99, 0, 1⟩], [⟨100, 0, 1⟩]] := by
      decide +kernel
    constructor
    · intro input hinput encoding hencoding
      obtain ⟨found, hfound, hcheck⟩ := (Checked.map_m_mem hencode).2 input hinput
      rw [hencoding] at hcheck
      cases hcheck
      simp only [List.mem_cons, List.not_mem_nil, or_false] at hfound
      rcases hfound with rfl | rfl
      · exact ⟨_, List.mem_cons_self, by decide⟩
      · exact ⟨_, List.mem_cons_self, by decide⟩
    · intro d hd
      cases hd
    · intro encodings hencodings
      rw [hencode] at hencodings
      cases hencodings
      decide
  refine ⟨hgood, ?_⟩
  refine (preflight_sound_iff (.fixture []) .sample (.characters none) Manifest.validate_onnx
    .sample .default [.single "abc", .single "d"] ⟨["abc", "d"], by decide⟩ rfl ?_).mpr hgood
  intro request hrequest
  simp only [List.mem_cons, List.not_mem_nil, or_false] at hrequest
  rcases hrequest with rfl | rfl
  · exact ⟨⟨1, 3, 3, by decide, by decide, by decide, by decide⟩, rfl⟩
  · exact ⟨⟨1, 1, 1, by decide, by decide, by decide, by decide⟩, rfl⟩

/-- A session with one hidden state of ones for every position. -/
def onesSession : Session := fun inputs =>
  .ok fun _ => some ⟨[inputs.batch, inputs.sequence, 2], fun _ => F32.one⟩

/-- An input without tokens passes preflight with a cost of one token. The session behaves, but
the empty input cannot be pooled, and the whole batch fails. -/
theorem empty_encoding_fails_batch :
    (∃ cost, preflightWithOptions .sample (.characters none) .sample (.single "a") .default =
      .ok cost) ∧
    (∃ cost, preflightWithOptions .sample (.characters none) .sample (.single "") .default =
      .ok cost ∧ cost.tokens = 1) ∧
    (∀ encodings,
      (LoadedModel.characters none).encodeBatch .sample .default ["a", ""] = .ok encodings →
      SessionBehaves (.characters none) onesSession none encodings) ∧
    ¬ SoundInBatch .sample (.characters none) onesSession .sample .default
      [.single "a", .single ""] ⟨["a", ""], by decide⟩ := by
  refine ⟨⟨⟨1, 1, 1, by decide, by decide, by decide, by decide⟩, rfl⟩,
    ⟨⟨1, 1, 1, by decide, by decide, by decide, by decide⟩, rfl, rfl⟩, ?_, ?_⟩
  · intro encodings hencodings
    have hencode : (LoadedModel.characters none).encodeBatch .sample .default ["a", ""] =
        .ok [[⟨97, 0, 1⟩], []] := by decide +kernel
    rw [hencode] at hencodings
    cases hencodings
    refine ⟨_, _, rfl, rfl, by decide, ?_⟩
    intro row encoding vector hget hattended hraw
    match row with
    | 0 =>
        cases hget
        have hvector : rawVector (.characters none) ⟨[2, 1, 2], fun _ => F32.one⟩ 1 0
            [⟨97, 0, 1⟩] = .ok [F32.one, F32.one] := by decide +kernel
        have hsame := hvector.symm.trans hraw
        cases hsame
        exact ⟨by decide, by decide +kernel, by decide +kernel⟩
    | 1 =>
        cases hget
        obtain ⟨_, hmem, _⟩ := hattended
        cases hmem
  · intro hsound
    obtain ⟨output, hembed, _⟩ := hsound (.leaf (.single 0) none)
      (fun _ => ⟨0, fun _ => false⟩) (fun _ => rfl)
    have hfails : embedWithOptions .sample (.characters none) onesSession .sample
        ⟨["a", ""], by decide⟩ (.leaf (.single 0) none) .default (fun _ => ⟨0, fun _ => false⟩) =
        .error (.public .inferenceFailed) := rfl
    rw [hfails] at hembed
    cases hembed

end EmbeddingServer
