import EmbeddingServer.Lib.Lines
import EmbeddingServer.Lib.Transition

/-!
# Stdio framing

`read_capped_line` reads one newline-delimited frame of at most `limit` bytes. The reader hands
the stream out in buffers of its own choice: the `n`-th call of `fill_buf` returns the next bytes
of the stream, at least one while there are any, and as many as `sizes n` asks for.

Inside a line the loop has seen some bytes of it, and its accumulator is determined by them
(`LineLoop.Seen`); where the buffers end does not matter. The lengths of two slices in memory add
up below `2 ^ 64`, so the saturating sum of the source is the sum.
-/

namespace EmbeddingServer.Stdio

/-- `b'\n'`. -/
def newline : UInt8 := 0x0A

/-- `b'\r'`. -/
def carriageReturn : UInt8 := 0x0D

/-! ## The reader -/

/-- An `AsyncBufRead`: what is left of the stream, and how often `fill_buf` was called. -/
structure Reader where
  rest : List UInt8
  calls : Nat
  deriving DecidableEq, Repr

/-- The size that the reader wants for each of its buffers. -/
abbrev Sizes := Nat → Nat

/-- The buffer that `fill_buf` returns; it is empty at the end of the stream only. -/
def Reader.buffer (sizes : Sizes) (reader : Reader) : List UInt8 :=
  reader.rest.take (max 1 (sizes reader.calls))

/-- `consume`, after a `fill_buf`. -/
def Reader.consume (reader : Reader) (count : Nat) : Reader where
  rest := reader.rest.drop count
  calls := reader.calls + 1

/-- Only the end of the stream gives an empty buffer. -/
theorem Reader.buffer_eq_nil {sizes : Sizes} {reader : Reader} :
    reader.buffer sizes = [] ↔ reader.rest = [] := by
  rw [Reader.buffer, List.take_eq_nil_iff]
  have hsize : max 1 (sizes reader.calls) ≠ 0 := by omega
  exact ⟨fun h => h.resolve_left hsize, .inr⟩

/-! ## `read_capped_line` -/

/-- `LineResult`. -/
inductive LineResult where
  | frame
  | oversized
  | eof
  deriving DecidableEq, Repr

/-- The locals of the loop. -/
structure LineLoop where
  reader : Reader
  line : List UInt8
  oversized : Bool
  sawBytes : Bool
  deriving DecidableEq, Repr

/-- The loop at its start: the line is cleared. -/
def LineLoop.start (reader : Reader) : LineLoop where
  reader := reader
  line := []
  oversized := false
  sawBytes := false

/-- What follows the loop. -/
def LineLoop.finish (s : LineLoop) : LineResult × LineLoop :=
  if s.oversized then (.oversized, s)
  else if s.line.getLast? = some carriageReturn then
    (.frame, { s with line := s.line.dropLast })
  else (.frame, s)

/-- What an iteration does with a buffer that is not empty. -/
def LineLoop.take (limit : Nat) (s : LineLoop) (buffer : List UInt8) : LineLoop :=
  let found := buffer.findIdx? fun byte => byte == newline
  let consumed := found.elim buffer.length fun position => position + 1
  let payload := found.getD consumed
  let read :=
    if s.oversized then s
    else if s.line.length + payload > limit then { s with oversized := true, line := [] }
    else { s with line := s.line ++ buffer.take payload }
  { read with reader := s.reader.consume consumed, sawBytes := true }

/-- One iteration of the loop: it goes on, or it ends with a result. -/
def LineLoop.next (sizes : Sizes) (limit : Nat) (s : LineLoop) : LineLoop ⊕ LineResult × LineLoop :=
  let buffer := s.reader.buffer sizes
  if buffer = [] then if s.sawBytes then .inr s.finish else .inr (.eof, s)
  else if (buffer.findIdx? fun byte => byte == newline).isSome then
    .inr (s.take limit buffer).finish
  else .inl (s.take limit buffer)

/-- An iteration that goes on has consumed a byte. -/
theorem LineLoop.next_rest {sizes : Sizes} {limit : Nat} {s s' : LineLoop}
    (h : s.next sizes limit = .inl s') : s'.reader.rest.length < s.reader.rest.length := by
  rw [LineLoop.next] at h
  split at h
  · split at h <;> cases h
  · rename_i hbuffer
    split at h
    · cases h
    · rename_i hfound
      cases h
      rw [Option.not_isSome_iff_eq_none] at hfound
      have hrest : s.reader.rest ≠ [] := fun h => hbuffer (Reader.buffer_eq_nil.mpr h)
      have hlength : 0 < (s.reader.buffer sizes).length := List.length_pos_iff.mpr hbuffer
      have hpos : 0 < s.reader.rest.length := List.length_pos_iff.mpr hrest
      simp only [LineLoop.take, hfound, Option.elim_none, Reader.consume, List.length_drop]
      omega

/-- The loop. -/
def LineLoop.run (sizes : Sizes) (limit : Nat) (s : LineLoop) : LineResult × LineLoop :=
  match _h : s.next sizes limit with
  | .inr result => result
  | .inl s' => s'.run sizes limit
termination_by s.reader.rest.length
decreasing_by exact LineLoop.next_rest _h

/-- `read_capped_line`: the result, the line, and the reader after it. -/
def readCappedLine (sizes : Sizes) (limit : Nat) (reader : Reader) :
    LineResult × List UInt8 × Reader :=
  let (result, s) := (LineLoop.start reader).run sizes limit
  (result, s.line, s.reader)

/-! ## What an iteration does to the line -/

/-- A line as it is reported. -/
inductive Line where
  | frame (payload : List UInt8)
  | oversized
  deriving DecidableEq, Repr

/-- The payload less at most one trailing carriage return. -/
def dropReturn (payload : List UInt8) : List UInt8 :=
  if payload.getLast? = some carriageReturn then payload.dropLast else payload

/-- How a line with this payload is to be reported. -/
def classify (limit : Nat) (payload : List UInt8) : Line :=
  if limit < payload.length then .oversized else .frame (dropReturn payload)

/-- The loop has seen the first bytes of a line. -/
structure LineLoop.Seen (limit : Nat) (bytes : List UInt8) (s : LineLoop) : Prop where
  line : s.line = if limit < bytes.length then [] else bytes
  oversized : s.oversized = decide (limit < bytes.length)

theorem LineLoop.seen_start (limit : Nat) (reader : Reader) :
    (LineLoop.start reader).Seen limit [] where
  line := by simp [LineLoop.start]
  oversized := by simp [LineLoop.start]

/-- The bytes of the line in the buffer go to what was seen. -/
theorem LineLoop.Seen.take {limit : Nat} {bytes body buffer : List UInt8} {s : LineLoop}
    (h : s.Seen limit bytes) {more : List UInt8} (hbuffer : buffer = body ++ more)
    (hpayload : (buffer.findIdx? fun byte => byte == newline).getD
      ((buffer.findIdx? fun byte => byte == newline).elim buffer.length fun position =>
        position + 1) = body.length) :
    (s.take limit buffer).Seen limit (bytes ++ body) := by
  have hline := h.line
  have hoversized := h.oversized
  have hbytes : buffer.take body.length = body := by
    rw [hbuffer, List.take_left]
  rw [LineLoop.take, hpayload, hbytes]
  by_cases hlimit : limit < bytes.length
  · -- An oversized line stays oversized.
    have hmore : limit < (bytes ++ body).length := by
      rw [List.length_append]
      omega
    rw [if_pos hlimit] at hline
    rw [decide_eq_true hlimit] at hoversized
    rw [if_pos hoversized]
    exact ⟨by rw [if_pos hmore]; exact hline, by rw [decide_eq_true hmore]; exact hoversized⟩
  · rw [if_neg hlimit] at hline
    rw [decide_eq_false hlimit] at hoversized
    rw [if_neg (by rw [hoversized]; exact Bool.false_ne_true), hline, ← List.length_append]
    by_cases hmore : limit < (bytes ++ body).length
    · rw [if_pos hmore]
      exact ⟨(if_pos hmore).symm, (decide_eq_true hmore).symm⟩
    · rw [if_neg hmore]
      exact ⟨(if_neg hmore).symm, by rw [decide_eq_false hmore]; exact hoversized⟩

/-! ## A call -/

/-- The call ended with the line, and left the rest of the stream. -/
structure Delivers (limit : Nat) (payload rest : List UInt8) (outcome : LineResult × LineLoop) :
    Prop where
  result : outcome.1 = if limit < payload.length then .oversized else .frame
  line : outcome.2.line = if limit < payload.length then [] else dropReturn payload
  reader : outcome.2.reader.rest = rest

/-- The result is determined by the bytes of the line. -/
theorem LineLoop.Seen.delivers {limit : Nat} {bytes : List UInt8} {s : LineLoop}
    (h : s.Seen limit bytes) : Delivers limit bytes s.reader.rest s.finish := by
  have hline := h.line
  have hoversized := h.oversized
  rw [LineLoop.finish, hoversized]
  by_cases hlimit : limit < bytes.length
  · rw [if_pos (decide_eq_true hlimit)]
    exact ⟨(if_pos hlimit).symm, by rw [if_pos hlimit] at hline ⊢; exact hline, rfl⟩
  · rw [if_neg hlimit] at hline
    rw [if_neg (by simpa using hlimit), hline]
    by_cases hreturn : bytes.getLast? = some carriageReturn
    · rw [if_pos hreturn]
      exact ⟨(if_neg hlimit).symm, by rw [if_neg hlimit, dropReturn, if_pos hreturn], rfl⟩
    · rw [if_neg hreturn]
      exact ⟨(if_neg hlimit).symm, by rw [if_neg hlimit, dropReturn, if_neg hreturn, hline], rfl⟩

theorem find_newline_none {bytes : List UInt8} (h : newline ∉ bytes) :
    (bytes.findIdx? fun byte => byte == newline) = none := by
  rw [List.findIdx?_eq_none_iff]
  intro byte hbyte
  rw [beq_eq_false_iff_ne]
  intro heq
  exact h (heq ▸ hbyte)

theorem find_newline {body : List UInt8} (h : newline ∉ body) (more : List UInt8) :
    ((body ++ newline :: more).findIdx? fun byte => byte == newline) = some body.length := by
  rw [List.findIdx?_append, find_newline_none h, List.findIdx?_cons]
  simp

/-- A buffer without a newline is a part of the line, and the loop goes on. -/
theorem LineLoop.next_open {sizes : Sizes} {limit : Nat} {s : LineLoop} {bytes : List UInt8}
    (h : s.Seen limit bytes) (hne : s.reader.buffer sizes ≠ [])
    (hopen : newline ∉ s.reader.buffer sizes) :
    ∃ s' : LineLoop, s.next sizes limit = .inl s' ∧
      s'.Seen limit (bytes ++ s.reader.buffer sizes) ∧ s'.sawBytes = true ∧
      s'.reader.rest = s.reader.rest.drop (s.reader.buffer sizes).length := by
  have hfound := find_newline_none hopen
  refine ⟨s.take limit (s.reader.buffer sizes), ?_, ?_, rfl, ?_⟩
  · rw [LineLoop.next, if_neg hne, hfound]
    rfl
  · exact h.take (List.append_nil _).symm (by rw [hfound]; rfl)
  · rw [LineLoop.take, hfound]
    rfl

/-- The buffer with the newline ends the line. -/
theorem LineLoop.next_terminated {sizes : Sizes} {limit : Nat} {s : LineLoop}
    {bytes body more : List UInt8} (h : s.Seen limit bytes) (hbody : newline ∉ body)
    (hbuffer : s.reader.buffer sizes = body ++ newline :: more) :
    ∃ outcome, s.next sizes limit = .inr outcome ∧
      Delivers limit (bytes ++ body) (s.reader.rest.drop (body.length + 1)) outcome := by
  have hfound := find_newline hbody more
  rw [← hbuffer] at hfound
  have hne : s.reader.buffer sizes ≠ [] := by
    rw [hbuffer]
    simp
  refine ⟨(s.take limit (s.reader.buffer sizes)).finish, ?_, ?_⟩
  · rw [LineLoop.next, if_neg hne, hfound]
    rfl
  · have hseen : (s.take limit (s.reader.buffer sizes)).Seen limit (bytes ++ body) :=
      h.take hbuffer (by rw [hfound]; rfl)
    have hrest : (s.take limit (s.reader.buffer sizes)).reader.rest =
        s.reader.rest.drop (body.length + 1) := by
      rw [LineLoop.take, hfound]
      rfl
    rw [← hrest]
    exact hseen.delivers

/-- From the first bytes of a line the loop delivers the line, wherever the buffers end. -/
theorem LineLoop.run_terminated (sizes : Sizes) {limit : Nat} (s : LineLoop)
    {bytes body rest : List UInt8} (h : s.Seen limit bytes) (hbody : newline ∉ body)
    (hrest : s.reader.rest = body ++ newline :: rest) :
    Delivers limit (bytes ++ body) rest (s.run sizes limit) := by
  rw [LineLoop.run]
  by_cases hsize : body.length < max 1 (sizes s.reader.calls)
  · -- The newline is in this buffer.
    obtain ⟨count, hcount⟩ : ∃ count, max 1 (sizes s.reader.calls) = body.length + (count + 1) :=
      ⟨max 1 (sizes s.reader.calls) - body.length - 1, by omega⟩
    have hbuffer : s.reader.buffer sizes = body ++ newline :: rest.take count := by
      rw [Reader.buffer, hrest, hcount, List.take_length_add_append, List.take_succ_cons]
    obtain ⟨outcome, hnext, hdelivers⟩ := LineLoop.next_terminated h hbody hbuffer
    rw [hrest, List.drop_length_add_append, List.drop_one, List.tail_cons] at hdelivers
    split
    · rename_i result heq
      rw [hnext] at heq
      cases heq
      exact hdelivers
    · rename_i s' heq
      rw [hnext] at heq
      cases heq
  · -- The buffer is a part of the line.
    have hbuffer : s.reader.buffer sizes = body.take (max 1 (sizes s.reader.calls)) := by
      rw [Reader.buffer, hrest, List.take_append_of_le_length (by omega)]
    have hopen : newline ∉ s.reader.buffer sizes := by
      rw [hbuffer]
      exact fun hmem => hbody (List.mem_of_mem_take hmem)
    have hlength : (s.reader.buffer sizes).length = max 1 (sizes s.reader.calls) := by
      rw [hbuffer, List.length_take]
      omega
    have hne : s.reader.buffer sizes ≠ [] := by
      rw [← List.length_pos_iff, hlength]
      omega
    obtain ⟨s', hnext, hseen, _, hreader⟩ := LineLoop.next_open h hne hopen
    split
    · rename_i result heq
      rw [hnext] at heq
      cases heq
    · rename_i after heq
      have hlater := LineLoop.next_rest heq
      rw [hnext] at heq
      cases heq
      rw [hlength, hrest, List.drop_append_of_le_length (by omega)] at hreader
      have hdelivers := LineLoop.run_terminated sizes s' hseen
        (fun hmem => hbody (List.mem_of_mem_drop hmem)) hreader
      rw [hbuffer, List.append_assoc, List.take_append_drop] at hdelivers
      exact hdelivers
termination_by s.reader.rest.length

/-- Without a newline the line goes to the end of the stream; there is none if there are no
bytes. -/
theorem LineLoop.run_open (sizes : Sizes) {limit : Nat} (s : LineLoop) {bytes : List UInt8}
    (h : s.Seen limit bytes) (hsaw : s.sawBytes = decide (bytes ≠ []))
    (hopen : newline ∉ s.reader.rest) :
    (bytes ++ s.reader.rest = [] → (s.run sizes limit).1 = .eof) ∧
      (bytes ++ s.reader.rest ≠ [] →
        Delivers limit (bytes ++ s.reader.rest) [] (s.run sizes limit)) := by
  rw [LineLoop.run]
  by_cases hbuffer : s.reader.buffer sizes = []
  · have hrest := Reader.buffer_eq_nil.mp hbuffer
    have hnext : s.next sizes limit =
        if s.sawBytes then .inr s.finish else .inr (.eof, s) := by
      rw [LineLoop.next, if_pos hbuffer]
    rw [hrest, List.append_nil]
    by_cases hbytes : bytes = []
    -- Nothing was read: the stream ends before the line.
    · rw [hsaw, if_neg (by simpa using hbytes)] at hnext
      refine ⟨fun _ => ?_, fun hne => absurd hbytes hne⟩
      split
      · rename_i result heq
        rw [hnext] at heq
        cases heq
        rfl
      · rename_i s' heq
        rw [hnext] at heq
        cases heq
    -- The stream ends within a line, which is delivered as it is.
    · rw [hsaw, if_pos (decide_eq_true hbytes)] at hnext
      refine ⟨fun hnil => absurd hnil hbytes, fun _ => ?_⟩
      have hdelivers := h.delivers
      rw [hrest] at hdelivers
      split
      · rename_i result heq
        rw [hnext] at heq
        cases heq
        exact hdelivers
      · rename_i s' heq
        rw [hnext] at heq
        cases heq
  · have hpart : newline ∉ s.reader.buffer sizes := fun hmem => hopen (List.mem_of_mem_take hmem)
    obtain ⟨s', hnext, hseen, hsaw', hreader⟩ := LineLoop.next_open h hbuffer hpart
    have hsplit : s.reader.buffer sizes ++ s'.reader.rest = s.reader.rest := by
      rw [hreader, Reader.buffer, List.length_take]
      by_cases hsize : max 1 (sizes s.reader.calls) ≤ s.reader.rest.length
      · rw [Nat.min_eq_left hsize, List.take_append_drop]
      · rw [Nat.min_eq_right (by omega), List.take_of_length_le (by omega), List.drop_length,
          List.append_nil]
    have hbytes : bytes ++ s.reader.buffer sizes ≠ [] := by
      intro hnil
      exact hbuffer (List.append_eq_nil_iff.mp hnil).2
    split
    · rename_i result heq
      rw [hnext] at heq
      cases heq
    · rename_i after heq
      have hlater := LineLoop.next_rest heq
      rw [hnext] at heq
      cases heq
      -- The buffer is consumed, so less of the stream is left.
      have hrun := LineLoop.run_open sizes s' hseen
        (by rw [hsaw']; exact (decide_eq_true hbytes).symm)
        (by rw [hreader]; exact fun hmem => hopen (List.mem_of_mem_drop hmem))
      rw [List.append_assoc, hsplit] at hrun
      exact hrun
termination_by s.reader.rest.length

/-- A call at the end of the stream. -/
theorem read_capped_line_eof (sizes : Sizes) (limit : Nat) {reader : Reader}
    (h : reader.rest = []) :
    (readCappedLine sizes limit reader).1 = .eof := by
  have hopen : newline ∉ (LineLoop.start reader).reader.rest := by
    show newline ∉ reader.rest
    rw [h]
    exact List.not_mem_nil
  have hseen := LineLoop.seen_start limit reader
  exact (LineLoop.run_open sizes (LineLoop.start reader) hseen rfl hopen).1 h

/-- A call with a line to read: the line, and the rest of the stream. -/
theorem read_capped_line (sizes : Sizes) (limit : Nat) {reader : Reader} (h : reader.rest ≠ []) :
    ∃ payload rest, Delivers limit payload rest ((LineLoop.start reader).run sizes limit) ∧
      newline ∉ payload ∧ (reader.rest = payload ++ newline :: rest ∨
        reader.rest = payload ∧ rest = []) := by
  have hseen := LineLoop.seen_start limit reader
  by_cases hmem : newline ∈ reader.rest
  · obtain ⟨payload, rest, hrest, hpayload⟩ := List.eq_append_cons_of_mem hmem
    exact ⟨payload, rest, LineLoop.run_terminated sizes _ hseen hpayload hrest,
      hpayload, .inl hrest⟩
  · have hrun := LineLoop.run_open sizes (LineLoop.start reader) hseen rfl hmem
    exact ⟨reader.rest, [], hrun.2 h, hmem, .inr ⟨rfl, rfl⟩⟩

/-- A call that is not at the end leaves less of the stream. -/
theorem read_capped_line_shorter (sizes : Sizes) (limit : Nat) {reader : Reader}
    (h : (readCappedLine sizes limit reader).1 ≠ .eof) :
    (readCappedLine sizes limit reader).2.2.rest.length < reader.rest.length := by
  have hne : reader.rest ≠ [] := fun hnil => h (read_capped_line_eof sizes limit hnil)
  obtain ⟨payload, rest, hdelivers, _, hrest⟩ :=
    read_capped_line sizes limit hne
  have hafter : (readCappedLine sizes limit reader).2.2.rest = rest := hdelivers.reader
  rw [hafter]
  cases hrest with
  | inl hterminated =>
      rw [hterminated, List.length_append, List.length_cons]
      omega
  | inr hopen =>
      rw [hopen.2]
      exact List.length_pos_iff.mpr hne

/-! ## The session -/

/-- The frames of `run_stdio`: `read_capped_line` is called until the end of the stream. -/
def readLines (sizes : Sizes) (limit : Nat) (reader : Reader) : List Line :=
  match _h : readCappedLine sizes limit reader with
  | (.eof, _, _) => []
  | (.frame, line, after) => .frame line :: readLines sizes limit after
  | (.oversized, _, after) => .oversized :: readLines sizes limit after
termination_by reader.rest.length
decreasing_by
  all_goals
    have hshorter := @read_capped_line_shorter sizes limit reader
    rw [_h] at hshorter
    exact hshorter (fun heq => by cases heq)

/-- One line, and then the lines of what the call has left. -/
theorem read_lines_step (sizes : Sizes) (limit : Nat) {reader : Reader} (h : reader.rest ≠ []) :
    ∃ payload after, readLines sizes limit reader =
        classify limit payload :: readLines sizes limit after ∧
      Lines.split newline reader.rest = payload :: Lines.split newline after.rest ∧
      after.rest.length < reader.rest.length := by
  obtain ⟨payload, rest, hdelivers, hpayload, hrest⟩ :=
    read_capped_line sizes limit h
  have hcall : readCappedLine sizes limit reader =
      (if limit < payload.length then .oversized else .frame,
        if limit < payload.length then [] else dropReturn payload,
        ((LineLoop.start reader).run sizes limit).2.reader) := by
    rw [← hdelivers.result, ← hdelivers.line]
    rfl
  have hafter := hdelivers.reader
  refine ⟨payload, ((LineLoop.start reader).run sizes limit).2.reader, ?_, ?_, ?_⟩
  · rw [readLines]
    by_cases hlimit : limit < payload.length
    · rw [if_pos hlimit, if_pos hlimit] at hcall
      rw [classify, if_pos hlimit]
      split <;> rename_i heq <;> rw [hcall] at heq <;> cases heq
      rfl
    · rw [if_neg hlimit, if_neg hlimit] at hcall
      rw [classify, if_neg hlimit]
      split <;> rename_i heq <;> rw [hcall] at heq <;> cases heq
      rfl
  · rw [hafter]
    cases hrest with
    | inl hterminated => rw [hterminated, Lines.split_terminated hpayload]
    | inr hopen =>
        rw [hopen.2, hopen.1, Lines.split_open hpayload (hopen.1 ▸ h)]
        rfl
  · rw [hafter]
    cases hrest with
    | inl hterminated =>
        rw [hterminated, List.length_append, List.length_cons]
        omega
    | inr hopen =>
        rw [hopen.2]
        exact List.length_pos_iff.mpr h

/-- The frames are the lines of the stream, each reported for itself. -/
theorem read_lines_eq (sizes : Sizes) (limit : Nat) (reader : Reader) :
    readLines sizes limit reader = (Lines.split newline reader.rest).map (classify limit) := by
  by_cases hrest : reader.rest = []
  · rw [hrest, readLines]
    have heof := read_capped_line_eof sizes limit hrest
    split <;> rename_i heq <;> rw [heq] at heof
    · rfl
    · cases heof
    · cases heof
  · obtain ⟨payload, after, hlines, hsplit, hshorter⟩ :=
      read_lines_step sizes limit hrest
    rw [hlines, hsplit, List.map_cons, read_lines_eq sizes limit after]
termination_by reader.rest.length

/-- The line of the loop is within the limit. -/
def LineLoop.Capped (limit : Nat) (s : LineLoop) : Prop :=
  s.line.length ≤ limit

/-- An iteration keeps the line within the limit, also when it ends the call. -/
theorem LineLoop.Capped.next {sizes : Sizes} {limit : Nat} {s : LineLoop} (h : s.Capped limit) :
    (∀ s', s.next sizes limit = .inl s' → s'.Capped limit) ∧
      ∀ result s', s.next sizes limit = .inr (result, s') → s'.Capped limit := by
  have htake : ∀ buffer, (s.take limit buffer).Capped limit := by
    intro buffer
    rw [LineLoop.take]
    split
    · exact h
    · split
      · exact Nat.zero_le limit
      · rename_i hlimit
        show (s.line ++ buffer.take _).length ≤ limit
        rw [List.length_append, List.length_take]
        omega
  have hfinish : ∀ s' : LineLoop, s'.Capped limit → s'.finish.2.Capped limit := by
    intro s' hs'
    rw [LineLoop.finish]
    split
    · exact hs'
    · split
      · show s'.line.dropLast.length ≤ limit
        rw [List.length_dropLast]
        exact Nat.le_trans (Nat.sub_le ..) hs'
      · exact hs'
  rw [LineLoop.next]
  constructor
  · intro s' hnext
    split at hnext
    · split at hnext <;> cases hnext
    · split at hnext <;> cases hnext
      exact htake _
  · intro result s' hnext
    split at hnext
    · split at hnext
      · have hs' := hfinish s h
        rw [Sum.inr.inj hnext] at hs'
        exact hs'
      · cases hnext
        exact h
    · split at hnext
      · have hs' := hfinish _ (htake (s.reader.buffer sizes))
        rw [Sum.inr.inj hnext] at hs'
        exact hs'
      · cases hnext

/-- An iteration that goes on. -/
def LineLoop.Goes (sizes : Sizes) (limit : Nat) (s s' : LineLoop) : Prop :=
  s.next sizes limit = .inl s'

/-- Whatever buffers the reader chooses, the results of a session are those of the lines of the
stream, and the line buffer never holds more than `limit` bytes. -/
theorem framing_chunk_independent (sizes : Sizes) (limit : Nat) (stream : List UInt8) :
    readLines sizes limit ⟨stream, 0⟩ = (Lines.split newline stream).map (classify limit) ∧
      ∀ reader s, Transition.Run (LineLoop.Goes sizes limit) (LineLoop.start reader) s →
        s.Capped limit ∧
          ∀ result s', s.next sizes limit = .inr (result, s') → s'.Capped limit := by
  refine ⟨read_lines_eq sizes limit ⟨stream, 0⟩, fun reader s hrun => ?_⟩
  have hs : s.Capped limit :=
    Transition.Preserves.run (fun _ _ h hstep => h.next.1 _ hstep) hrun (Nat.zero_le limit)
  exact ⟨hs, hs.next.2⟩

/-- Two cuts of one stream with an oversized line in the middle. -/
example :
    Lines.split newline [97, 13, 10, 98, 98, 98, 10, 10, 99] = [[97, 13], [98, 98, 98], [], [99]] ∧
    [[97, 13], [98, 98, 98], [], [99]].map (classify 2) =
      [.frame [97], .oversized, .frame [], .frame [99]] := by
  decide

end EmbeddingServer.Stdio
