import EmbeddingServer.Onnx.Tensors

/-!
# What a row can see

`RowLocal` is what is asked of a session: its states at the unmasked positions of a row come from
the encoding that the row holds, whatever the other rows hold and however far the row is padded.
`rows_do_not_leak` says that `LoadedModel::run` keeps it that way. Its tensors hold every encoding
at its own row, no index is out of bounds, and the vector of a row is the same in every batch that
has the row, at whatever position.
-/

namespace EmbeddingServer

variable {model : LoadedModel} {session : Session} {encodings : List Encoding}

/-- A row of the buffers holds an encoding, then the pad id, zero and zero. -/
structure TensorBuffers.HoldsRow (padTokenId : UInt32) (sequence row : Nat) (encoding : Encoding)
    (buffers : TensorBuffers) : Prop where
  ids : RowMajor.slice buffers.ids (row * sequence) ((row + 1) * sequence) =
    some (encoding.getIds.map signed ++
      List.replicate (sequence - encoding.length) (signed padTokenId))
  masks : RowMajor.slice buffers.masks (row * sequence) ((row + 1) * sequence) =
    some (encoding.getAttentionMask.map signed ++
      List.replicate (sequence - encoding.length) 0)
  types : RowMajor.slice buffers.types (row * sequence) ((row + 1) * sequence) =
    some (encoding.getTypeIds.map signed ++ List.replicate (sequence - encoding.length) 0)

/-- A row of the input tensors holds an encoding. -/
structure SessionInputs.HoldsRow (model : LoadedModel) (row : Nat) (encoding : Encoding)
    (inputs : SessionInputs) : Prop where
  row_lt : row < inputs.batch
  length_le : encoding.length ≤ inputs.sequence
  tensors : ∃ buffers : TensorBuffers,
    inputs = model.inputsOf inputs.batch inputs.sequence buffers ∧
      buffers.HoldsRow model.contract.padTokenId inputs.sequence row encoding

/-- The session returns an output of a shape that `run` accepts. -/
def LoadedModel.Yields (model : LoadedModel) (session : Session) (inputs : SessionInputs)
    (output : OutputTensor) : Prop :=
  ∃ outputs, session inputs = .ok outputs ∧ outputs model.contract.output = some output ∧
    validRuntimeOutputShape output.shape inputs.batch inputs.sequence model.native = true

/-- What two runs of the session on a row with the same encoding have in common. The rank of the
output is the one that the graph declares. -/
structure SameRow (model : LoadedModel) (encoding : Encoding) (output other : OutputTensor)
    (row row' : Nat) : Prop where
  rank : output.shape.length = other.shape.length
  /-- A hidden state, at an unmasked position. -/
  hidden : output.shape.length = 3 → ∀ (t : Nat) token, encoding[t]? = some token →
    token.attentionMask ≠ 0 → ∀ d < model.native,
      output.value [row, t, d] = other.value [row', t, d]
  /-- A vector that the graph has pooled itself. -/
  pooled : output.shape.length = 2 → ∀ c < model.native,
    output.value [row, c] = other.value [row', c]

/-- What the session returns for a row does not depend on other rows or on padding. -/
def RowLocal (model : LoadedModel) (session : Session) : Prop :=
  ∀ encoding inputs inputs' output output' row row',
    inputs.HoldsRow model row encoding → inputs'.HoldsRow model row' encoding →
    model.Yields session inputs output → model.Yields session inputs' output' →
    SameRow model encoding output output' row row'

/-! ## The tensors hold the rows -/

/-- Every encoding is in the padded tensors at its own row. -/
theorem padded_buffers_holds_row {row : Nat} {encoding : Encoding}
    (hget : encodings[row]? = some encoding) :
    (model.paddedBuffers encodings).HoldsRow model.contract.padTokenId (sequenceLength encodings)
      row encoding where
  ids := by
    rw [Encoding.getIds, List.map_map]
    exact RowMajor.slice_flat_map (length_padded_row _ _) hget
  masks := by
    rw [Encoding.getAttentionMask, List.map_map]
    exact RowMajor.slice_flat_map (length_padded_row _ _) hget
  types := by
    rw [Encoding.getTypeIds, List.map_map]
    exact RowMajor.slice_flat_map (length_padded_row _ _) hget

/-- Every encoding is in the input tensors of a run at its own row. -/
theorem session_inputs_holds_row {row : Nat} {encoding : Encoding}
    (hget : encodings[row]? = some encoding) :
    (sessionInputs model encodings).HoldsRow model row encoding where
  row_lt := (List.getElem?_eq_some_iff.mp hget).1
  length_le := length_le_sequence_length (List.mem_of_getElem? hget)
  tensors := ⟨model.paddedBuffers encodings, inputs_of_padded_buffers.symm,
    padded_buffers_holds_row hget⟩

/-- The padded tensors have one cell for each position of each row. -/
theorem length_padded_tensor (filler : Int) (value : Token → Int) :
    (paddedTensor (sequenceLength encodings) filler value encodings).length =
      encodings.length * sequenceLength encodings :=
  RowMajor.length_flat_map (length_padded_row filler value)

/-! ## Pooling sees the unmasked positions only -/

/-- Padding unmasks nothing. -/
theorem unmasked_padded (sequence : Nat) (value : Token → Int) (encoding : Encoding) :
    unmasked (paddedRow sequence 0 value encoding) = unmasked (encoding.map value) := by
  have hpadding : ∀ index, index ∈ (List.range (sequence - encoding.length)).map
      (fun k => encoding.length + k) →
      ¬ (decide ((paddedRow sequence 0 value encoding).getD index 0 ≠ 0)) = true := by
    intro index hindex
    obtain ⟨k, hk, rfl⟩ := List.mem_map.mp hindex
    have hzero : (paddedRow sequence 0 value encoding).getD (encoding.length + k) 0 = 0 := by
      rw [paddedRow, List.getD_eq_getElem?_getD, List.getElem?_append_right (by
        rw [List.length_map]; omega), List.getElem?_replicate]
      split <;> rfl
    rw [hzero]
    exact fun h => of_decide_eq_true h rfl
  have hvalues : ∀ index ∈ List.range encoding.length,
      decide ((paddedRow sequence 0 value encoding).getD index 0 ≠ 0) =
        decide ((encoding.map value).getD index 0 ≠ 0) := by
    intro index hindex
    have hlt : index < (encoding.map value).length := by
      rw [List.length_map]
      exact List.mem_range.mp hindex
    rw [paddedRow, List.getD_eq_getElem?_getD, List.getD_eq_getElem?_getD,
      List.getElem?_append_left hlt]
  have hlength : (paddedRow sequence 0 value encoding).length =
      encoding.length + (sequence - encoding.length) := by
    rw [paddedRow, List.length_append, List.length_map, List.length_replicate]
  unfold unmasked
  rw [hlength, List.range_add, List.filter_append, List.filter_eq_nil_iff.mpr hpadding,
    List.append_nil, List.filter_congr hvalues, List.length_map]

/-- An unmasked position of an encoding has a token whose mask is not zero. -/
theorem mem_unmasked {encoding : Encoding} {t : Nat}
    (h : t ∈ unmasked (encoding.map fun token => (token.attentionMask.toNat : Int))) :
    ∃ token, encoding[t]? = some token ∧ token.attentionMask ≠ 0 := by
  obtain ⟨hrange, hvalue⟩ := List.mem_filter.mp h
  rw [List.mem_range, List.length_map] at hrange
  refine ⟨encoding[t], List.getElem?_eq_getElem hrange, ?_⟩
  intro hzero
  rw [List.getD_eq_getElem?_getD, List.getElem?_map, List.getElem?_eq_getElem hrange,
    Option.map_some, hzero] at hvalue
  exact of_decide_eq_true hvalue rfl

/-- Pooling reads the unmasked positions of its row and nothing else. -/
theorem pool_tokens_congr {output other : OutputTensor} {row row' hidden : Nat}
    {mask mask' : List Int} (pooling : Pooling) (hmask : unmasked mask = unmasked mask')
    (h : ∀ t ∈ unmasked mask, ∀ d < hidden,
      output.value [row, t, d] = other.value [row', t, d]) :
    poolTokens output row hidden mask pooling = poolTokens other row' hidden mask' pooling := by
  unfold poolTokens
  rw [← hmask]
  cases hindices : unmasked mask with
  | nil => rfl
  | cons first rest =>
      rw [hindices] at h
      dsimp only
      congr 1
      refine List.map_congr_left ?_
      intro d hd
      have hd : d < hidden := List.mem_range.mp hd
      cases pooling with
      | cls => exact h first List.mem_cons_self d hd
      | lastToken => exact h _ (List.getLast_mem _) d hd
      | mean =>
          have hfold : (first :: rest).foldl
                (fun acc token => (acc.1.add (output.value [row, token, d]), acc.2.add F32.one))
                (F32.zero, F32.zero) =
              (first :: rest).foldl
                (fun acc token => (acc.1.add (other.value [row', token, d]), acc.2.add F32.one))
                (F32.zero, F32.zero) :=
            List.foldl_ext _ _ _ fun acc token htoken => by rw [h token htoken d hd]
          dsimp only
          rw [hfold]

/-- The raw vector of a row is the same in two runs that agree on the row. -/
theorem raw_vector_congr {encoding : Encoding} {output other : OutputTensor} {row row' : Nat}
    (sequence sequence' : Nat) (hrank : output.shape.length = 2 ∨ output.shape.length = 3)
    (h : SameRow model encoding output other row row') :
    rawVector model output sequence row encoding =
      rawVector model other sequence' row' encoding := by
  unfold rawVector
  rw [← h.rank]
  rcases hrank with htwo | hthree
  · rw [if_pos htwo, if_pos htwo]
    congr 1
    exact List.map_congr_left fun c hc => h.pooled htwo c (List.mem_range.mp hc)
  · have hnot : ¬ output.shape.length = 2 := by omega
    rw [if_neg hnot, if_neg hnot]
    refine pool_tokens_congr _ ?_ ?_
    · rw [unmasked_padded, unmasked_padded]
    · intro t ht d hd
      rw [unmasked_padded] at ht
      obtain ⟨token, htoken, hmask⟩ := mem_unmasked ht
      exact h.hidden hthree t token htoken hmask d hd

/-! ## A row of a run -/

/-- The vector of a row is its raw vector, finished. -/
theorem finish_rows_get {output : OutputTensor} {dimensions : Option Nat} {normalize : Bool}
    {vectors : List (List F32)} {row : Nat} {encoding : Encoding}
    (h : finishRows model output encodings dimensions normalize = .ok vectors)
    (hget : encodings[row]? = some encoding) :
    ∃ raw vector, rawVector model output (sequenceLength encodings) row encoding = .ok raw ∧
      finishVector dimensions normalize raw = .ok vector ∧ vectors[row]? = some vector := by
  obtain ⟨raws, hraws, hfinish⟩ := Checked.bind_ok.mp h
  obtain ⟨hrawLength, hraw⟩ := List.forall₂_iff_get.mp (Checked.map_m_ok.mp hraws)
  obtain ⟨hlength, hvector⟩ := List.forall₂_iff_get.mp (Checked.map_m_ok.mp hfinish)
  rw [List.length_zipIdx] at hrawLength
  obtain ⟨hrow, hitem⟩ := List.getElem?_eq_some_iff.mp hget
  have hrow₁ : row < raws.length := by omega
  have hrow₂ : row < vectors.length := by omega
  have hfirst := hraw row (by rw [List.length_zipIdx]; exact hrow) hrow₁
  have hsecond := hvector row hrow₁ hrow₂
  rw [List.get_eq_getElem, List.get_eq_getElem, List.getElem_zipIdx, hitem, Nat.zero_add] at hfirst
  exact ⟨raws[row], vectors[row], hfirst, hsecond, List.getElem?_eq_getElem hrow₂⟩

/-- A run that succeeds has an accepted output, and the vector of a row is finished from it. -/
theorem run_get {dimensions : Option Nat} {normalize : Bool} {vectors : List (List F32)}
    (h : model.run session encodings dimensions normalize = .ok vectors) :
    ∃ output, model.Yields session (sessionInputs model encodings) output ∧
      ∀ (row : Nat) encoding, encodings[row]? = some encoding → ∃ raw vector,
        rawVector model output (sequenceLength encodings) row encoding = .ok raw ∧
        finishVector dimensions normalize raw = .ok vector ∧ vectors[row]? = some vector := by
  obtain ⟨_, outputs, output, hsession, houtput, hshape, hrows⟩ := run_eq_ok.mp h
  exact ⟨output, ⟨outputs, hsession, houtput, hshape⟩, fun row encoding hget =>
    finish_rows_get hrows hget⟩

/-- An accepted output has two or three dimensions. -/
theorem LoadedModel.Yields.rank {inputs : SessionInputs} {output : OutputTensor}
    (h : model.Yields session inputs output) :
    output.shape.length = 2 ∨ output.shape.length = 3 := by
  obtain ⟨_, _, _, hshape⟩ := h
  have hcases : output.shape = [inputs.batch, model.native] ∨
      output.shape = [inputs.batch, inputs.sequence, model.native] := by
    simpa [validRuntimeOutputShape] using hshape
  rcases hcases with hpooled | hhidden
  · left
    rw [hpooled]
    rfl
  · right
    rw [hhidden]
    rfl

/-- The vector of a row in two batches that have its encoding. -/
theorem run_row_eq {dimensions : Option Nat} {normalize : Bool} {others : List Encoding}
    {vectors vectors' : List (List F32)} {row row' : Nat} {encoding : Encoding}
    (hlocal : RowLocal model session)
    (hrun : model.run session encodings dimensions normalize = .ok vectors)
    (hrun' : model.run session others dimensions normalize = .ok vectors')
    (hget : encodings[row]? = some encoding) (hget' : others[row']? = some encoding) :
    ∃ vector, vectors[row]? = some vector ∧ vectors'[row']? = some vector := by
  obtain ⟨output, hyields, hrows⟩ := run_get hrun
  obtain ⟨output', hyields', hrows'⟩ := run_get hrun'
  obtain ⟨raw, vector, hraw, hfinish, hvector⟩ := hrows row encoding hget
  obtain ⟨raw', vector', hraw', hfinish', hvector'⟩ := hrows' row' encoding hget'
  have hsame : SameRow model encoding output output' row row' :=
    hlocal encoding _ _ output output' row row' (session_inputs_holds_row hget)
      (session_inputs_holds_row hget') hyields hyields'
  have hraws : raw = raw' := by
    have heq := raw_vector_congr (sequenceLength encodings) (sequenceLength others) hyields.rank
      hsame
    rw [hraw, hraw'] at heq
    exact Except.ok.inj heq
  have hvectors : vector = vector' := by
    rw [hraws, hfinish'] at hfinish
    exact (Except.ok.inj hfinish).symm
  exact ⟨vector, hvector, hvectors ▸ hvector'⟩

/-- Padding and pooling do not leak between rows. The loops fill three buffers that hold every
encoding at its own row, no index of a run is out of bounds, and with a session that keeps rows
apart the vector of a row is the same in every batch that has its encoding. -/
theorem rows_do_not_leak (model : LoadedModel) (session : Session) :
    (∀ encodings capacity, encodings ≠ [] →
      Checked.mul wordBits encodings.length (sequenceLength encodings) = some capacity →
      ∃ buffers, model.fill encodings capacity = some buffers ∧
        buffers.ids.length = capacity ∧ buffers.masks.length = capacity ∧
        buffers.types.length = capacity ∧
        ∀ (row : Nat) encoding, encodings[row]? = some encoding →
          buffers.HoldsRow model.contract.padTokenId (sequenceLength encodings) row encoding) ∧
    (∀ encodings dimensions normalize,
      ∃ result, model.runFlat session encodings dimensions normalize = some result) ∧
    (RowLocal model session → ∀ dimensions normalize encodings others vectors vectors',
      model.runFlat session encodings dimensions normalize = some (.ok vectors) →
      model.runFlat session others dimensions normalize = some (.ok vectors') →
      ∀ (row row' : Nat) encoding, encodings[row]? = some encoding →
        others[row']? = some encoding →
        ∃ vector, vectors[row]? = some vector ∧ vectors'[row']? = some vector) := by
  refine ⟨?_, ?_, ?_⟩
  · intro encodings capacity _ hcapacity
    obtain ⟨rfl, hfit⟩ := Checked.mul_eq_some_iff.mp hcapacity
    exact ⟨model.paddedBuffers encodings, fill_eq hfit, length_padded_tensor _ _,
      length_padded_tensor _ _, length_padded_tensor _ _,
      fun row encoding hget => padded_buffers_holds_row hget⟩
  · intro encodings dimensions normalize
    exact ⟨_, run_flat_eq dimensions normalize⟩
  · intro hlocal dimensions normalize encodings others vectors vectors' hrun hrun' row row'
      encoding hget hget'
    rw [run_flat_eq, Option.some.injEq] at hrun hrun'
    exact run_row_eq hlocal hrun hrun' hget hget'

/-- Hidden states that are the numbers with the bits of the token ids. -/
def echoOutput (model : LoadedModel) (inputs : SessionInputs) : OutputTensor where
  shape := [inputs.batch, inputs.sequence, model.native]
  value := fun
    | [r, t, _] =>
        match inputs.tensors with
        | (_, ids) :: _ => ⟨BitVec.ofInt 32 (ids.getD (r * inputs.sequence + t) 0)⟩
        | [] => F32.zero
    | _ => F32.zero

/-- A session that returns them. -/
def echoSession (model : LoadedModel) : Session := fun inputs =>
  .ok fun name => if name = model.contract.output then some (echoOutput model inputs) else none

/-- The output of the echo. -/
theorem echo_session_output {inputs : SessionInputs} {output : OutputTensor}
    (h : model.Yields (echoSession model) inputs output) : output = echoOutput model inputs := by
  obtain ⟨outputs, houtputs, houtput, _⟩ := h
  rw [← Except.ok.inj houtputs] at houtput
  dsimp only at houtput
  rw [if_pos rfl, Option.some.injEq] at houtput
  exact houtput.symm

/-- What the echo returns at a position of a row. -/
theorem echo_output_value {inputs : SessionInputs} {row t : Nat} {encoding : Encoding}
    {token : Token} (h : inputs.HoldsRow model row encoding) (htoken : encoding[t]? = some token)
    (d : Nat) : (echoOutput model inputs).value [row, t, d] =
      ⟨BitVec.ofInt 32 (signed token.id)⟩ := by
  obtain ⟨buffers, hinputs, hrow⟩ := h.tensors
  obtain ⟨hlt, _⟩ := List.getElem?_eq_some_iff.mp htoken
  have hwidth : t < (row + 1) * inputs.sequence - row * inputs.sequence := by
    rw [Nat.succ_mul, Nat.add_sub_cancel_left]
    exact Nat.lt_of_lt_of_le hlt h.length_le
  have hids : t < (encoding.getIds.map signed).length := by
    rw [Encoding.getIds, List.length_map, List.length_map]
    exact hlt
  have hcell : buffers.ids[row * inputs.sequence + t]? = some (signed token.id) := by
    rw [RowMajor.get_elem?_of_slice hrow.ids hwidth, List.getElem?_append_left hids,
      Encoding.getIds, List.getElem?_map, List.getElem?_map, htoken]
    rfl
  rw [hinputs]
  show (⟨BitVec.ofInt 32 (buffers.ids.getD (row * inputs.sequence + t) 0)⟩ : F32) = _
  rw [List.getD_eq_getElem?_getD, hcell, Option.getD_some]

/-- The echo keeps rows apart. -/
theorem echo_session_row_local : RowLocal model (echoSession model) := by
  intro encoding inputs inputs' output output' row row' hholds hholds' hyields hyields'
  rw [echo_session_output hyields, echo_session_output hyields']
  constructor
  · rfl
  · intro _ t token htoken _ d _
    rw [echo_output_value hholds htoken, echo_output_value hholds' htoken]
  · intro htwo
    cases htwo

/-- Three, an unattended one and five, whose mean is four. -/
def threeAndFive : Encoding :=
  [⟨0x40400000, 0, 1⟩, ⟨0x3f800000, 0, 0⟩, ⟨0x40a00000, 0, 1⟩]

/-- The row alone, and behind a longer one. -/
theorem rows_do_not_leak_echo :
    let model := LoadedModel.characters none
    let alone := [[⟨0x40800000#32⟩, ⟨0x40800000#32⟩]]
    let together := [[⟨0x40400000#32⟩, ⟨0x40400000#32⟩], [⟨0x40800000#32⟩, ⟨0x40800000#32⟩]]
    let longer := [⟨0x40400000, 0, 1⟩, ⟨0, 0, 0⟩, ⟨0, 0, 0⟩, ⟨0, 0, 0⟩]
    model.runFlat (echoSession model) [threeAndFive] none false = some (.ok alone) ∧
      model.runFlat (echoSession model) [longer, threeAndFive] none false =
        some (.ok together) ∧
      ∃ vector, alone[0]? = some vector ∧ together[1]? = some vector := by
  have halone : (LoadedModel.characters none).runFlat (echoSession (.characters none))
      [threeAndFive] none false = some (.ok [[⟨0x40800000#32⟩, ⟨0x40800000#32⟩]]) := by
    decide +kernel
  have htogether : (LoadedModel.characters none).runFlat (echoSession (.characters none))
      [[⟨0x40400000, 0, 1⟩, ⟨0, 0, 0⟩, ⟨0, 0, 0⟩, ⟨0, 0, 0⟩], threeAndFive] none false =
        some (.ok [[⟨0x40400000#32⟩, ⟨0x40400000#32⟩], [⟨0x40800000#32⟩, ⟨0x40800000#32⟩]]) := by
    decide +kernel
  exact ⟨halone, htogether,
    (rows_do_not_leak (.characters none) (echoSession (.characters none))).2.2
      echo_session_row_local none false _ _ _ _ halone htogether 0 1 threeAndFive rfl rfl⟩

end EmbeddingServer
