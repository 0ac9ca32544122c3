import EmbeddingServer.Lib.RowMajor
import EmbeddingServer.Onnx.PreflightSoundness

/-!
# The tensors of one run

`LoadedModel::run` as the source computes it: three flat buffers that two loops fill cell by cell,
a mask slice for each row, and reads of the output at computed positions. Every index is checked,
and `none` is the panic of an index out of bounds. `run_flat_eq` says that none occurs and that the
outcome is the one of `LoadedModel.run`, which states the tensors row by row.
-/

namespace EmbeddingServer

variable {model : LoadedModel} {session : Session} {encodings : List Encoding}

/-! ## Filling the buffers -/

/-- `Encoding::get_ids`. -/
def Encoding.getIds (encoding : Encoding) : List UInt32 := encoding.map Token.id

/-- `Encoding::get_attention_mask`. -/
def Encoding.getAttentionMask (encoding : Encoding) : List UInt32 :=
  encoding.map Token.attentionMask

/-- `Encoding::get_type_ids`. -/
def Encoding.getTypeIds (encoding : Encoding) : List UInt32 := encoding.map Token.typeId

/-- `i64::from` on a `u32`. -/
def signed (value : UInt32) : Int := value.toNat

/-- The buffers `ids`, `masks` and `types`. -/
structure TensorBuffers where
  ids : List Int
  masks : List Int
  types : List Int
  deriving DecidableEq, Repr

/-- The buffers before the loops. -/
def LoadedModel.allocate (model : LoadedModel) (capacity : Nat) : TensorBuffers where
  ids := List.replicate capacity (signed model.contract.padTokenId)
  masks := List.replicate capacity 0
  types := List.replicate capacity 0

/-- The body of the inner loop. -/
def storeToken (sequence row : Nat) (encoding : Encoding) (column : Nat) (id : UInt32)
    (buffers : TensorBuffers) : Option TensorBuffers := do
  let i ← RowMajor.index wordBits sequence row column
  let ids ← RowMajor.write buffers.ids i (signed id)
  let mask ← encoding.getAttentionMask[column]?
  let masks ← RowMajor.write buffers.masks i (signed mask)
  let typeId ← encoding.getTypeIds[column]?
  let types ← RowMajor.write buffers.types i (signed typeId)
  some ⟨ids, masks, types⟩

/-- The inner loop, over the ids of one encoding. -/
def storeEncoding (sequence row : Nat) (encoding : Encoding) (buffers : TensorBuffers) :
    Option TensorBuffers :=
  RowMajor.enumerate (storeToken sequence row encoding) 0 encoding.getIds buffers

/-- Both loops. -/
def LoadedModel.fill (model : LoadedModel) (encodings : List Encoding) (capacity : Nat) :
    Option TensorBuffers :=
  RowMajor.enumerate (storeEncoding (sequenceLength encodings)) 0 encodings
    (model.allocate capacity)

/-- The tensors by their names in the contract. -/
def LoadedModel.inputsOf (model : LoadedModel) (batch sequence : Nat) (buffers : TensorBuffers) :
    SessionInputs where
  batch := batch
  sequence := sequence
  tensors := [(model.contract.inputs.inputIds, buffers.ids)] ++
    (model.contract.inputs.attentionMask.map fun name => (name, buffers.masks)).toList ++
    (model.contract.inputs.tokenTypeIds.map fun name => (name, buffers.types)).toList

/-! ## Reading the output -/

/-- `output[[..]]`, which panics outside the shape. -/
def OutputTensor.read (output : OutputTensor) (position : List Nat) : Option F32 :=
  if position.length = output.shape.length ∧
      ((position.zip output.shape).all fun (i, size) => i < size) = true then
    some (output.value position)
  else none

/-- `pool_tokens`, with checked indices. -/
def poolTokensFlat (output : OutputTensor) (row hidden : Nat) (mask : List Int)
    (pooling : Pooling) : Option (Except EngineFailure (List F32)) :=
  let indices := unmasked mask
  if indices.isEmpty then some (.error (.public .inferenceFailed))
  else
    .ok <$> match pooling with
      | .cls =>
          (List.range hidden).mapM fun d => do
            let token ← indices[0]?
            output.read [row, token, d]
      | .lastToken => do
          let token ← indices[indices.length - 1]?
          (List.range hidden).mapM fun d => output.read [row, token, d]
      | .mean =>
          (List.range hidden).mapM fun d => do
            let (sum, count) ← indices.foldlM
              (fun (acc : F32 × F32) token => do
                let value ← output.read [row, token, d]
                some (acc.1.add value, acc.2.add F32.one))
              (F32.zero, F32.zero)
            some (sum.div count)

/-- `collect` of the rows into a result, which stops at the first failure. -/
def collectRows {α : Type} (row : Nat → Option (Except EngineFailure α)) :
    List Nat → Option (Except EngineFailure (List α))
  | [] => some (.ok [])
  | r :: rest => do
      match ← row r with
      | .error failure => some (.error failure)
      | .ok vector =>
          match ← collectRows row rest with
          | .error failure => some (.error failure)
          | .ok vectors => some (.ok (vector :: vectors))

/-- The vectors of the rows before the last loop. -/
def LoadedModel.rowsOf (model : LoadedModel) (output : OutputTensor) (batch sequence : Nat)
    (masks : List Int) : Option (Except EngineFailure (List (List F32))) :=
  match output.shape with
  | [rows, hidden] =>
      if rows = batch then
        collectRows (fun r => .ok <$> (List.range hidden).mapM fun c => output.read [r, c])
          (List.range batch)
      else some (.error (.public .inferenceFailed))
  | [rows, tokens, hidden] =>
      if rows = batch ∧ tokens = sequence then
        collectRows (fun r => do
            let mask ← RowMajor.slice masks (r * sequence) ((r + 1) * sequence)
            poolTokensFlat output r hidden mask model.manifest.pooling)
          (List.range batch)
      else some (.error (.public .inferenceFailed))
  | _ => some (.error (.public .inferenceFailed))

/-- `LoadedModel::run` over flat buffers. -/
def LoadedModel.runFlat (model : LoadedModel) (session : Session) (encodings : List Encoding)
    (dimensions : Option Nat) (normalize : Bool) :
    Option (Except EngineFailure (List (List F32))) :=
  let batch := encodings.length
  let sequence := sequenceLength encodings
  match Checked.mul wordBits batch sequence with
  | none => some (.error (.public .invalidRequest))
  | some capacity => do
      let buffers ← model.fill encodings capacity
      match session (model.inputsOf batch sequence buffers) with
      | .error error => some (.error (inferenceError error))
      | .ok outputs =>
          match outputs model.contract.output with
          | none => some (.error (.public .inferenceFailed))
          | some output =>
              if !validRuntimeOutputShape output.shape batch sequence model.native then
                some (.error (.public .inferenceFailed))
              else
                match ← model.rowsOf output batch sequence buffers.masks with
                | .error failure => some (.error failure)
                | .ok vectors => some (vectors.mapM (finishVector dimensions normalize))

/-! ## The loops fill the padded tensors -/

/-- No encoding is longer than a row. -/
theorem length_le_sequence_length {encoding : Encoding} (h : encoding ∈ encodings) :
    encoding.length ≤ sequenceLength encodings := by
  have hfold : ∀ lengths : List Nat, ∀ n ∈ lengths, n ≤ lengths.foldr max 0 := by
    intro lengths
    induction lengths with
    | nil => exact fun _ h => absurd h List.not_mem_nil
    | cons first rest ih =>
        intro n hn
        rw [List.foldr_cons]
        rcases List.mem_cons.mp hn with rfl | hn
        · exact Nat.le_max_left _ _
        · exact (ih n hn).trans (Nat.le_max_right _ _)
  exact (hfold _ _ (List.mem_map.mpr ⟨encoding, h, rfl⟩)).trans (Nat.le_max_left _ _)

/-- A padded row is the values of the encoding, filled up. -/
theorem padded_row_eq_pad_to (sequence : Nat) (filler : Int) (value : Token → Int)
    (encoding : Encoding) :
    paddedRow sequence filler value encoding =
      RowMajor.padTo sequence filler (encoding.map value) := by
  rw [paddedRow, RowMajor.padTo, List.length_map]

/-- The padded rows of a batch are equally long. -/
theorem length_padded_row (filler : Int) (value : Token → Int) :
    ∀ encoding ∈ encodings,
      (paddedRow (sequenceLength encodings) filler value encoding).length =
        sequenceLength encodings := by
  intro encoding hencoding
  rw [padded_row_eq_pad_to]
  refine RowMajor.length_pad_to ?_
  rw [List.length_map]
  exact length_le_sequence_length hencoding

/-- One buffer when the first `row` rows and `column` cells of the next one are written. -/
def written (capacity sequence : Nat) (filler : Int) (value : Token → Int)
    (encodings : List Encoding) (row : Nat) (encoding : Encoding) (column : Nat) : List Int :=
  RowMajor.padTo capacity filler
    (paddedTensor sequence filler value (encodings.take row) ++ (encoding.map value).take column)

section Loops

variable {row : Nat} {encoding : Encoding} {filler : Int} {value : Token → Int}

/-- The cells of the rows before `row`. -/
theorem length_padded_tensor_take (hget : encodings[row]? = some encoding) :
    (paddedTensor (sequenceLength encodings) filler value (encodings.take row)).length =
      row * sequenceLength encodings := by
  obtain ⟨hrow, _⟩ := List.getElem?_eq_some_iff.mp hget
  rw [paddedTensor, RowMajor.length_flat_map fun other hother =>
    length_padded_row filler value other (List.mem_of_mem_take hother), List.length_take,
    Nat.min_eq_left (Nat.le_of_lt hrow)]

/-- One write of the inner loop. -/
theorem write_written {column : Nat} {token : Token} (filler : Int) (value : Token → Int)
    (hget : encodings[row]? = some encoding)
    (htoken : encoding[column]? = some token) :
    RowMajor.write
        (written (encodings.length * sequenceLength encodings) (sequenceLength encodings) filler
          value encodings row encoding column)
        (row * sequenceLength encodings + column) (value token) =
      some (written (encodings.length * sequenceLength encodings) (sequenceLength encodings) filler
        value encodings row encoding (column + 1)) := by
  obtain ⟨hcolumn, _⟩ := List.getElem?_eq_some_iff.mp htoken
  obtain ⟨hrow, _⟩ := List.getElem?_eq_some_iff.mp hget
  have hwidth : encoding.length ≤ sequenceLength encodings :=
    length_le_sequence_length (List.mem_of_getElem? hget)
  have hvalue : (encoding.map value)[column]? = some (value token) := by
    rw [List.getElem?_map, htoken, Option.map_some]
  have hnext : (encoding.map value).take (column + 1) =
      (encoding.map value).take column ++ [value token] := by
    rw [List.take_add_one, hvalue, Option.toList_some]
  have hposition : row * sequenceLength encodings + column =
      (paddedTensor (sequenceLength encodings) filler value (encodings.take row) ++
        (encoding.map value).take column).length := by
    rw [List.length_append, length_padded_tensor_take hget, List.length_take, List.length_map,
      Nat.min_eq_left (Nat.le_of_lt hcolumn)]
  have hroom : row * sequenceLength encodings + sequenceLength encodings ≤
      encodings.length * sequenceLength encodings := by
    rw [← Nat.succ_mul]
    exact Nat.mul_le_mul_right _ hrow
  unfold written
  rw [hnext, ← List.append_assoc]
  exact RowMajor.write_pad_to (value token) hposition (by omega)

/-- A row that is written leaves its filler behind. -/
theorem written_row (hget : encodings[row]? = some encoding) :
    written (encodings.length * sequenceLength encodings) (sequenceLength encodings) filler
        value encodings row encoding encoding.length =
      written (encodings.length * sequenceLength encodings) (sequenceLength encodings) filler
        value encodings (row + 1) [] 0 := by
  obtain ⟨hrow, hitem⟩ := List.getElem?_eq_some_iff.mp hget
  have hwidth : (encoding.map value).length ≤ sequenceLength encodings := by
    rw [List.length_map]
    exact length_le_sequence_length (List.mem_of_getElem? hget)
  have hroom : row * sequenceLength encodings + sequenceLength encodings ≤
      encodings.length * sequenceLength encodings := by
    rw [← Nat.succ_mul]
    exact Nat.mul_le_mul_right _ hrow
  have hrows : paddedTensor (sequenceLength encodings) filler value (encodings.take (row + 1)) =
      paddedTensor (sequenceLength encodings) filler value (encodings.take row) ++
        RowMajor.padTo (sequenceLength encodings) filler (encoding.map value) := by
    rw [List.take_add_one, hget, Option.toList_some, paddedTensor, List.flatMap_append,
      List.flatMap_singleton, padded_row_eq_pad_to]
    rfl
  have hall : (encoding.map value).take encoding.length = encoding.map value :=
    List.take_of_length_le (by rw [List.length_map])
  unfold written
  rw [List.map_nil, List.take_nil, List.append_nil, hrows, hall]
  exact (RowMajor.pad_to_pad_to hwidth (by rw [length_padded_tensor_take hget]; exact hroom)).symm

end Loops

/-- The three buffers when the first `row` rows and `column` cells of the next one are written. -/
def LoadedModel.filled (model : LoadedModel) (encodings : List Encoding) (row : Nat)
    (encoding : Encoding) (column : Nat) : TensorBuffers :=
  let sequence := sequenceLength encodings
  let capacity := encodings.length * sequence
  { ids := written capacity sequence (signed model.contract.padTokenId)
      (fun token => signed token.id) encodings row encoding column
    masks := written capacity sequence 0 (fun token => signed token.attentionMask) encodings row
      encoding column
    types := written capacity sequence 0 (fun token => signed token.typeId) encodings row encoding
      column }

/-- The padded tensors of a batch. -/
def LoadedModel.paddedBuffers (model : LoadedModel) (encodings : List Encoding) : TensorBuffers :=
  let sequence := sequenceLength encodings
  { ids := paddedTensor sequence (signed model.contract.padTokenId)
      (fun token => signed token.id) encodings
    masks := paddedTensor sequence 0 (fun token => signed token.attentionMask) encodings
    types := paddedTensor sequence 0 (fun token => signed token.typeId) encodings }

/-- One round of the inner loop writes one cell of each buffer, in bounds. -/
theorem store_token_filled {row column : Nat} {encoding : Encoding} {id : UInt32}
    (hfit : encodings.length * sequenceLength encodings < 2 ^ wordBits)
    (hget : encodings[row]? = some encoding) (hid : encoding.getIds[column]? = some id) :
    storeToken (sequenceLength encodings) row encoding column id
        (model.filled encodings row encoding column) =
      some (model.filled encodings row encoding (column + 1)) := by
  obtain ⟨token, htoken, rfl⟩ : ∃ token, encoding[column]? = some token ∧ token.id = id := by
    rwa [Encoding.getIds, List.getElem?_map, Option.map_eq_some_iff] at hid
  obtain ⟨hcolumn, _⟩ := List.getElem?_eq_some_iff.mp htoken
  obtain ⟨hrow, _⟩ := List.getElem?_eq_some_iff.mp hget
  have hwidth : encoding.length ≤ sequenceLength encodings :=
    length_le_sequence_length (List.mem_of_getElem? hget)
  have hindex := (RowMajor.index_eq hrow (Nat.lt_of_lt_of_le hcolumn hwidth) hfit).1
  have hmask : encoding.getAttentionMask[column]? = some token.attentionMask := by
    rw [Encoding.getAttentionMask, List.getElem?_map, htoken, Option.map_some]
  have htype : encoding.getTypeIds[column]? = some token.typeId := by
    rw [Encoding.getTypeIds, List.getElem?_map, htoken, Option.map_some]
  unfold storeToken LoadedModel.filled
  dsimp only
  have hids := write_written (signed model.contract.padTokenId) (fun token => signed token.id)
    hget htoken
  have hmasks := write_written 0 (fun token => signed token.attentionMask) hget htoken
  have htypes := write_written 0 (fun token => signed token.typeId) hget htoken
  rw [hindex, hmask, htype]
  simp only [Option.bind_eq_bind, Option.bind_some, hids, hmasks, htypes]

/-- The inner loop writes one row of each buffer. -/
theorem store_encoding_filled {row : Nat} {encoding : Encoding}
    (hfit : encodings.length * sequenceLength encodings < 2 ^ wordBits)
    (hget : encodings[row]? = some encoding) :
    storeEncoding (sequenceLength encodings) row encoding (model.filled encodings row [] 0) =
      some (model.filled encodings (row + 1) [] 0) := by
  have hstart : model.filled encodings row [] 0 = model.filled encodings row encoding 0 := by
    unfold LoadedModel.filled written
    rw [List.map_nil, List.map_nil, List.map_nil, List.take_nil, List.take_zero, List.take_zero,
      List.take_zero]
  have hloop := RowMajor.enumerate_eq (storeToken (sequenceLength encodings) row encoding)
    encoding.getIds 0 (fun column => model.filled encodings row encoding column)
    (fun column id hid => by
      rw [Nat.zero_add]
      exact store_token_filled hfit hget hid)
  have hend : model.filled encodings row encoding encoding.getIds.length =
      model.filled encodings (row + 1) [] 0 := by
    unfold LoadedModel.filled Encoding.getIds
    dsimp only
    rw [List.length_map, written_row hget, written_row hget, written_row hget]
  rw [hstart, storeEncoding, hloop, hend]

/-- The loops succeed, and leave the padded tensors. -/
theorem fill_eq (hfit : encodings.length * sequenceLength encodings < 2 ^ wordBits) :
    model.fill encodings (encodings.length * sequenceLength encodings) =
      some (model.paddedBuffers encodings) := by
  have hstart : model.allocate (encodings.length * sequenceLength encodings) =
      model.filled encodings 0 [] 0 := by
    unfold LoadedModel.allocate LoadedModel.filled written RowMajor.padTo paddedTensor
    simp only [List.take_zero, List.flatMap_nil, List.map_nil, List.append_nil, List.length_nil,
      Nat.sub_zero, List.nil_append]
  have hloop := RowMajor.enumerate_eq (storeEncoding (sequenceLength encodings)) encodings 0
    (fun row => model.filled encodings row [] 0)
    (fun row encoding hget => by
      rw [Nat.zero_add]
      exact store_encoding_filled hfit hget)
  have hfull : ∀ filler value,
      written (encodings.length * sequenceLength encodings) (sequenceLength encodings) filler value
        encodings encodings.length [] 0 =
      paddedTensor (sequenceLength encodings) filler value encodings := by
    intro filler value
    unfold written
    rw [List.take_length, List.take_zero, List.append_nil]
    exact RowMajor.pad_to_full (RowMajor.length_flat_map (length_padded_row filler value))
  have hend : model.filled encodings encodings.length [] 0 = model.paddedBuffers encodings := by
    unfold LoadedModel.filled LoadedModel.paddedBuffers
    dsimp only
    rw [hfull, hfull, hfull]
  rw [LoadedModel.fill, hstart, hloop, hend]

/-- The tensors of the run are the ones `sessionInputs` states row by row. -/
theorem inputs_of_padded_buffers :
    model.inputsOf encodings.length (sequenceLength encodings) (model.paddedBuffers encodings) =
      sessionInputs model encodings := rfl

/-! ## The reads are in bounds -/

/-- A position within the mask. -/
theorem lt_of_mem_unmasked {mask : List Int} {token : Nat} (h : token ∈ unmasked mask) :
    token < mask.length :=
  List.mem_range.mp (List.mem_filter.mp h).1

/-- A read of a sentence vector. -/
theorem read_pooled {output : OutputTensor} {batch hidden r c : Nat}
    (hshape : output.shape = [batch, hidden]) (hr : r < batch) (hc : c < hidden) :
    output.read [r, c] = some (output.value [r, c]) := by
  unfold OutputTensor.read
  rw [hshape, if_pos]
  simp [hr, hc]

/-- A read of a hidden state. -/
theorem read_hidden {output : OutputTensor} {batch sequence hidden r t d : Nat}
    (hshape : output.shape = [batch, sequence, hidden]) (hr : r < batch) (ht : t < sequence)
    (hd : d < hidden) : output.read [r, t, d] = some (output.value [r, t, d]) := by
  unfold OutputTensor.read
  rw [hshape, if_pos]
  simp [hr, ht, hd]

/-- Pooling never leaves the output, whatever the mask. -/
theorem pool_tokens_flat_eq {output : OutputTensor} {batch sequence hidden row : Nat}
    {mask : List Int} (pooling : Pooling) (hshape : output.shape = [batch, sequence, hidden])
    (hrow : row < batch) (hmask : mask.length = sequence) :
    poolTokensFlat output row hidden mask pooling =
      some (poolTokens output row hidden mask pooling) := by
  -- Every position the poolings read lies within the tensor.
  have hread : ∀ token ∈ unmasked mask, ∀ d ∈ List.range hidden,
      output.read [row, token, d] = some (output.value [row, token, d]) := by
    intro token htoken d hd
    have htoken : token < sequence := hmask ▸ lt_of_mem_unmasked htoken
    exact read_hidden hshape hrow htoken (List.mem_range.mp hd)
  unfold poolTokensFlat poolTokens
  cases hindices : unmasked mask with
  | nil => rfl
  | cons first rest =>
      rw [hindices] at hread
      dsimp only
      rw [List.isEmpty_cons, if_neg Bool.false_ne_true]
      cases pooling with
      | cls =>
          have hall : (List.range hidden).mapM (fun d => do
                let token ← (first :: rest)[0]?
                output.read [row, token, d]) =
              some ((List.range hidden).map fun d => output.value [row, first, d]) :=
            RowMajor.map_m_eq_some fun d hd => hread first List.mem_cons_self d hd
          dsimp only
          rw [hall]
          rfl
      | lastToken =>
          have hlast : (first :: rest)[(first :: rest).length - 1]? =
              some ((first :: rest).getLast (List.cons_ne_nil _ _)) := by
            rw [← List.getLast?_eq_getElem?, List.getLast?_eq_some_getLast]
          have hall : (List.range hidden).mapM (fun d =>
                output.read [row, (first :: rest).getLast (List.cons_ne_nil _ _), d]) =
              some ((List.range hidden).map fun d =>
                output.value [row, (first :: rest).getLast (List.cons_ne_nil _ _), d]) :=
            RowMajor.map_m_eq_some fun d hd => hread _ (List.getLast_mem _) d hd
          dsimp only
          rw [hlast, Option.bind_eq_bind, Option.bind_some, hall]
          rfl
      | mean =>
          have hall : (List.range hidden).mapM (fun d => do
                let (sum, count) ← (first :: rest).foldlM
                  (fun (acc : F32 × F32) token => do
                    let value ← output.read [row, token, d]
                    some (acc.1.add value, acc.2.add F32.one))
                  (F32.zero, F32.zero)
                some (sum.div count)) =
              some ((List.range hidden).map fun d =>
                let (sum, count) := (first :: rest).foldl
                  (fun acc token =>
                    (acc.1.add (output.value [row, token, d]), acc.2.add F32.one))
                  (F32.zero, F32.zero)
                sum.div count) := by
            refine RowMajor.map_m_eq_some ?_
            intro d hd
            -- The fold reads the positions one by one, none of which is missing.
            rw [RowMajor.foldl_m_eq_some (fun token htoken acc => by
              rw [hread token htoken d hd]
              rfl)]
            rfl
          dsimp only
          rw [hall]
          rfl

/-- Rows none of which panics are collected as a plain list of checks. -/
theorem collect_rows_eq {α β : Type} {row : Nat → Option (Except EngineFailure α)}
    {check : β × Nat → Except EngineFailure α} {items : List (β × Nat)}
    (h : ∀ item ∈ items, row item.2 = some (check item)) :
    collectRows row (items.map Prod.snd) = some (items.mapM check) := by
  induction items with
  | nil => rfl
  | cons item rest ih =>
      rw [List.forall_mem_cons] at h
      rw [List.map_cons, collectRows, h.1, ih h.2, List.mapM_cons]
      cases hitem : check item with
      | error failure => rfl
      | ok vector =>
          cases hrest : rest.mapM check with
          | error failure => rfl
          | ok vectors => rfl

/-- The vectors of the rows of an output of a declared shape. -/
theorem rows_of_eq {output : OutputTensor}
    (hshape : validRuntimeOutputShape output.shape encodings.length (sequenceLength encodings)
      model.native = true) :
    model.rowsOf output encodings.length (sequenceLength encodings)
        (model.paddedBuffers encodings).masks =
      some (encodings.zipIdx.mapM fun pair =>
        rawVector model output (sequenceLength encodings) pair.2 pair.1) := by
  have hrange : List.range encodings.length = encodings.zipIdx.map Prod.snd := by
    rw [List.zipIdx_map_snd, List.range_eq_range']
  have hrow : ∀ pair ∈ encodings.zipIdx, encodings[pair.2]? = some pair.1 :=
    fun pair hpair => List.mk_mem_zipIdx_iff_getElem?.mp hpair
  have hcases : output.shape = [encodings.length, model.native] ∨
      output.shape = [encodings.length, sequenceLength encodings, model.native] := by
    simpa [validRuntimeOutputShape] using hshape
  unfold LoadedModel.rowsOf
  rw [hrange]
  rcases hcases with hpooled | hhidden
  · rw [hpooled]
    dsimp only
    rw [if_pos rfl]
    refine collect_rows_eq ?_
    intro pair hpair
    obtain ⟨hlt, _⟩ := List.getElem?_eq_some_iff.mp (hrow pair hpair)
    have hread : (List.range model.native).mapM (fun c => output.read [pair.2, c]) =
        some ((List.range model.native).map fun c => output.value [pair.2, c]) :=
      RowMajor.map_m_eq_some fun c hc => read_pooled hpooled hlt (List.mem_range.mp hc)
    rw [hread, rawVector, hpooled]
    rfl
  · rw [hhidden]
    dsimp only
    rw [if_pos ⟨rfl, rfl⟩]
    refine collect_rows_eq ?_
    intro pair hpair
    obtain ⟨hlt, _⟩ := List.getElem?_eq_some_iff.mp (hrow pair hpair)
    have hslice : RowMajor.slice (model.paddedBuffers encodings).masks
        (pair.2 * sequenceLength encodings) ((pair.2 + 1) * sequenceLength encodings) =
        some (paddedRow (sequenceLength encodings) 0 (fun token => signed token.attentionMask)
          pair.1) :=
      RowMajor.slice_flat_map (length_padded_row _ _) (hrow pair hpair)
    have hlength := length_padded_row 0 (fun token => signed token.attentionMask) pair.1
      (List.mem_of_getElem? (hrow pair hpair))
    rw [hslice, Option.bind_eq_bind, Option.bind_some,
      pool_tokens_flat_eq model.manifest.pooling hhidden hlt hlength, rawVector, hhidden]
    rfl

/-- No index of a run is out of bounds, and the outcome is the one of the tensors stated row by
row. -/
theorem run_flat_eq (dimensions : Option Nat) (normalize : Bool) :
    model.runFlat session encodings dimensions normalize =
      some (model.run session encodings dimensions normalize) := by
  unfold LoadedModel.runFlat LoadedModel.run
  dsimp only
  cases hcapacity : Checked.mul wordBits encodings.length (sequenceLength encodings) with
  | none => rfl
  | some capacity =>
      obtain ⟨rfl, hfit⟩ := Checked.mul_eq_some_iff.mp hcapacity
      dsimp only
      rw [fill_eq hfit, Option.bind_eq_bind, Option.bind_some, inputs_of_padded_buffers]
      cases hsession : session (sessionInputs model encodings) with
      | error error => rfl
      | ok outputs =>
          rw [mapFailure]
          show _ = some (match outputs model.contract.output with
            | none => _
            | some output => _)
          dsimp only
          cases houtput : outputs model.contract.output with
          | none => rfl
          | some output =>
              dsimp only
              cases hshape : validRuntimeOutputShape output.shape encodings.length
                  (sequenceLength encodings) model.native with
              | false => rfl
              | true =>
                  rw [rows_of_eq hshape]
                  cases hrows : encodings.zipIdx.mapM fun pair =>
                      rawVector model output (sequenceLength encodings) pair.2 pair.1 with
                  | error failure => rfl
                  | ok vectors => rfl

end EmbeddingServer
