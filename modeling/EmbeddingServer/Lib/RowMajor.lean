import EmbeddingServer.Lib.Checked

/-!
# Row-major buffers

Ragged rows are stored in one flat buffer of equally long rows. A loop writes the cells one by one
at a computed index; a computation that overflows, a write or a slice outside the buffer fails.

A buffer that starts out as filler is described by what has been written: `padTo` fills up the
values written so far. `write_pad_to` extends them by one value and `pad_to_pad_to` skips the rest
of a row, so that the loop ends with the rows of `padTo width`, which `slice_flat_map` reads back.
-/

namespace RowMajor

variable {α β σ : Type}

/-! ## Buffers -/

/-- Write one cell of a buffer. -/
def write (buffer : List α) (index : Nat) (value : α) : Option (List α) :=
  if index < buffer.length then some (buffer.set index value) else none

/-- The cells of a buffer from `start` up to `stop`. -/
def slice (buffer : List α) (start stop : Nat) : Option (List α) :=
  if start ≤ stop ∧ stop ≤ buffer.length then some ((buffer.drop start).take (stop - start))
  else none

/-- The flat index of a cell, in `w`-bit words. -/
def index (w width row column : Nat) : Option Nat := do
  let start ← Checked.mul w row width
  Checked.add w start column

/-- Values filled up to a length. -/
def padTo (n : Nat) (filler : α) (values : List α) : List α :=
  values ++ List.replicate (n - values.length) filler

/-- A short list is filled up to the length. -/
theorem length_pad_to {n : Nat} {filler : α} {values : List α} (h : values.length ≤ n) :
    (padTo n filler values).length = n := by
  rw [padTo, List.length_append, List.length_replicate]
  omega

/-- Nothing is filled up when the length is reached. -/
theorem pad_to_full {n : Nat} {filler : α} {values : List α} (h : values.length = n) :
    padTo n filler values = values := by
  rw [padTo, h, Nat.sub_self, List.replicate_zero, List.append_nil]

/-- The first unwritten cell is written. -/
theorem write_pad_to {n : Nat} {filler : α} {values : List α} {position : Nat} (value : α)
    (hposition : position = values.length) (h : values.length < n) :
    write (padTo n filler values) position value = some (padTo n filler (values ++ [value])) := by
  subst hposition
  have hin : values.length < (padTo n filler values).length := by
    rw [length_pad_to (by omega)]
    exact h
  rw [write, if_pos hin]
  obtain ⟨free, hfree⟩ : ∃ free, n - values.length = free + 1 := ⟨n - values.length - 1, by omega⟩
  have hrest : n - (values ++ [value]).length = free := by
    rw [List.length_append, List.length_singleton]
    omega
  rw [padTo, padTo, hfree, hrest, List.replicate_succ, List.set_append_right _ _ (Nat.le_refl _),
    Nat.sub_self, List.set_cons_zero, List.append_assoc, List.singleton_append]

/-- The cells that a row leaves unwritten are filler already. -/
theorem pad_to_pad_to {n m : Nat} {filler : α} {before row : List α} (hrow : row.length ≤ m)
    (h : before.length + m ≤ n) :
    padTo n filler (before ++ padTo m filler row) = padTo n filler (before ++ row) := by
  have hleft : n - (before ++ padTo m filler row).length = n - before.length - m := by
    rw [List.length_append, length_pad_to hrow]
    omega
  have hright : n - (before ++ row).length = m - row.length + (n - before.length - m) := by
    rw [List.length_append]
    omega
  calc padTo n filler (before ++ padTo m filler row)
      = before ++ padTo m filler row ++ List.replicate (n - before.length - m) filler := by
        rw [padTo, hleft]
    _ = before ++ row ++ (List.replicate (m - row.length) filler ++
          List.replicate (n - before.length - m) filler) := by
        rw [padTo, List.append_assoc, List.append_assoc, List.append_assoc]
    _ = padTo n filler (before ++ row) := by
        rw [padTo, hright, List.replicate_add]

/-! ## Loops -/

/-- A loop over the elements of a list with their positions, whose body may fail. -/
def enumerate (body : Nat → β → σ → Option σ) : Nat → List β → σ → Option σ
  | _, [], state => some state
  | position, value :: rest, state => do
      let state ← body position value state
      enumerate body (position + 1) rest state

/-- A loop whose body takes the `k`-th state to the next one. -/
theorem enumerate_eq (body : Nat → β → σ → Option σ) (values : List β) (start : Nat)
    (state : Nat → σ)
    (step : ∀ k value, values[k]? = some value →
      body (start + k) value (state k) = some (state (k + 1))) :
    enumerate body start values (state 0) = some (state values.length) := by
  induction values generalizing start state with
  | nil => rfl
  | cons value rest ih =>
      have hfirst : body start value (state 0) = some (state 1) := step 0 value rfl
      have hrest : enumerate body (start + 1) rest (state 1) = some (state (rest.length + 1)) := by
        refine ih (start + 1) (fun k => state (k + 1)) ?_
        intro k next hnext
        have hstep := step (k + 1) next hnext
        rwa [show start + (k + 1) = start + 1 + k by omega] at hstep
      show (body start value (state 0) >>= enumerate body (start + 1) rest) = _
      rw [hfirst]
      exact hrest

/-- Reads all of which succeed. -/
theorem map_m_eq_some {read : β → Option α} {value : β → α} {items : List β}
    (h : ∀ item ∈ items, read item = some (value item)) :
    items.mapM read = some (items.map value) := by
  induction items with
  | nil => rfl
  | cons item rest ih =>
      rw [List.forall_mem_cons] at h
      rw [List.mapM_cons, h.1, ih h.2]
      rfl

/-- A fold all of whose rounds succeed. -/
theorem foldl_m_eq_some {round : σ → β → Option σ} {next : σ → β → σ} {items : List β}
    (h : ∀ item ∈ items, ∀ state, round state item = some (next state item)) (state : σ) :
    items.foldlM round state = some (items.foldl next state) := by
  induction items generalizing state with
  | nil => rfl
  | cons item rest ih =>
      rw [List.forall_mem_cons] at h
      rw [List.foldlM_cons, h.1, List.foldl_cons]
      exact ih h.2 (next state item)

/-! ## Rows -/

/-- Equally long rows take up as many cells as their number says. -/
theorem length_flat_map {width : Nat} {row : β → List α} {items : List β}
    (h : ∀ item ∈ items, (row item).length = width) :
    (items.flatMap row).length = items.length * width := by
  induction items with
  | nil => rw [List.flatMap_nil, List.length_nil, List.length_nil, Nat.zero_mul]
  | cons item rest ih =>
      have hrest : (rest.flatMap row).length = rest.length * width :=
        ih fun other hother => h other (List.mem_cons_of_mem _ hother)
      rw [List.flatMap_cons, List.length_append, h item List.mem_cons_self, hrest,
        List.length_cons, Nat.succ_mul, Nat.add_comm]

/-- The slice of a row is that row. -/
theorem slice_flat_map {width : Nat} {row : β → List α} {items : List β} {k : Nat} {item : β}
    (h : ∀ item ∈ items, (row item).length = width) (hget : items[k]? = some item) :
    slice (items.flatMap row) (k * width) ((k + 1) * width) = some (row item) := by
  obtain ⟨hk, hitem⟩ := List.getElem?_eq_some_iff.mp hget
  have hsplit : items = items.take k ++ item :: items.drop (k + 1) := by
    rw [← hitem, List.getElem_cons_drop, List.take_append_drop]
  have hbefore : ((items.take k).flatMap row).length = k * width := by
    rw [length_flat_map fun other hother => h other (List.mem_of_mem_take hother),
      List.length_take, Nat.min_eq_left (Nat.le_of_lt hk)]
  have hrow : (row item).length = width := h item (List.mem_of_getElem? hget)
  have hstop : (k + 1) * width ≤ (items.flatMap row).length := by
    rw [length_flat_map h]
    exact Nat.mul_le_mul_right width hk
  have hlength : (k + 1) * width - k * width = width := by
    rw [Nat.succ_mul, Nat.add_sub_cancel_left]
  rw [slice, if_pos ⟨Nat.mul_le_mul_right width (Nat.le_succ k), hstop⟩, hlength]
  congr 1
  calc ((items.flatMap row).drop (k * width)).take width
      = (((items.take k).flatMap row ++ (row item ++ (items.drop (k + 1)).flatMap row)).drop
          (k * width)).take width := by
        rw [← List.flatMap_cons, ← List.flatMap_append, ← hsplit]
    _ = (row item ++ (items.drop (k + 1)).flatMap row).take width := by
        rw [← hbefore, List.drop_left]
    _ = row item := by
        rw [← hrow, List.take_left]

/-- A cell of a slice is a cell of the buffer. -/
theorem get_elem?_of_slice {buffer cells : List α} {start stop k : Nat}
    (h : slice buffer start stop = some cells) (hk : k < stop - start) :
    buffer[start + k]? = cells[k]? := by
  rw [slice] at h
  split at h
  · rw [Option.some.injEq] at h
    rw [← h, List.getElem?_take_of_lt hk, List.getElem?_drop]
  · cases h

/-- The flat index of a cell of a buffer that can be counted. -/
theorem index_eq {w width rows row column : Nat} (hrow : row < rows) (hcolumn : column < width)
    (hfit : rows * width < 2 ^ w) :
    index w width row column = some (row * width + column) ∧
      row * width + column < rows * width := by
  have hnext : (row + 1) * width ≤ rows * width := Nat.mul_le_mul_right width hrow
  rw [Nat.succ_mul] at hnext
  refine ⟨?_, by omega⟩
  have hstart : Checked.mul w row width = some (row * width) :=
    Checked.mul_eq_some_iff.mpr ⟨rfl, by omega⟩
  rw [index, hstart]
  exact Checked.add_eq_some_iff.mpr ⟨rfl, by omega⟩

end RowMajor
