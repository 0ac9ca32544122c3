import EmbeddingServer.Server.Framing
import EmbeddingServer.Server.McpReplies

/-!
# A session over standard input and output

`run_stdio` as a run of its loop: each iteration reads a line, dispatches it and writes what is to
be sent. The environment decides how the reader cuts the stream, what the tools answer each time,
when the shutdown breaks the loop, and which read or write fails after how many bytes. The main
result is `stdio_session`.
-/

namespace EmbeddingServer.Stdio

open Mcp Serde

/-- What a session is started with. -/
structure StdioServer where
  /-- `max_body_bytes`. -/
  limit : Nat
  version : String
  /-- The buffers of the reader. -/
  sizes : Sizes
  /-- `from_slice`. -/
  parse : List UInt8 → Option Value
  /-- The text that the JSON writer gives to a fraction. -/
  float : UInt64 → List Char
  float_plain : ∀ bits, Serde.Plain (float bits)

/-- The locals of `run_stdio`, and what was written so far. -/
structure Connection where
  reader : Reader
  phase : Mcp.Phase
  written : List UInt8

/-- `run_stdio` before its loop. -/
def Connection.start (stream : List UInt8) : Connection where
  reader := { rest := stream, calls := 0 }
  phase := .awaitInitialize
  written := []

section

variable (server : StdioServer)

/-- The bytes of a value. -/
def StdioServer.text (value : Value) : List UInt8 :=
  Serde.textBytes (value.write server.float)

/-- What `write_frame` writes. -/
def StdioServer.frameBytes (value : Value) : List UInt8 :=
  server.text value ++ [newline]

/-- `read_capped_line`; nothing at the end of the stream. -/
def StdioServer.nextLine (reader : Reader) : Option (Line × Reader) :=
  match readCappedLine server.sizes server.limit reader with
  | (.eof, _, _) => none
  | (.frame, line, after) => some (.frame line, after)
  | (.oversized, _, after) => some (.oversized, after)

/-- What the loop does with a line: the phase after it, and the responses. -/
def StdioServer.handle (tools : Tools) (phase : Mcp.Phase) : Line → Mcp.Phase × DispatchResult
  | .oversized => (phase, .response ⟨.null, .error .invalidRequest⟩)
  | .frame payload => Mcp.dispatch tools phase (server.parse payload)

/-- What an iteration writes. -/
def StdioServer.output (tools : Tools) (phase : Mcp.Phase) (line : Line) : List UInt8 :=
  (((server.handle tools phase line).2.value server.version).map server.frameBytes).getD []

/-- An iteration of the loop that goes on. -/
inductive Iteration (tools : Tools) (c : Connection) : Connection → Prop where
  | line {line : Line} {after : Reader} (h : server.nextLine c.reader = some (line, after)) :
      Iteration tools c
        { reader := after
          phase := (server.handle tools c.phase line).1
          written := c.written ++ server.output tools c.phase line }

/-- Iterations, each with what the tools answered in it. -/
inductive Run (stream : List UInt8) : List Tools → Connection → Prop where
  | start : Run stream [] (.start stream)
  | step {history : List Tools} {tools : Tools} {c c' : Connection} (h : Run stream history c)
      (hstep : Iteration server tools c c') : Run stream (history ++ [tools]) c'

/-- How a session ends. -/
inductive Ending where
  | endOfInput
  | shutdown
  | failed
  deriving DecidableEq, Repr

/-- The session ends after the run, with these bytes written. -/
inductive Ends (c : Connection) : Ending → List UInt8 → Prop where
  | endOfInput (h : server.nextLine c.reader = none) : Ends c .endOfInput c.written
  | shutdown : Ends c .shutdown c.written
  /-- Reading failed, or the last flush. -/
  | readFailed : Ends c .failed c.written
  /-- A write failed after some of the bytes of a frame, or its flush after all. -/
  | writeFailed {tools : Tools} {line : Line} {after : Reader} {bytes : List UInt8}
      (h : server.nextLine c.reader = some (line, after))
      (hbytes : bytes <+: server.output tools c.phase line) : Ends c .failed (c.written ++ bytes)

/-! ## The session by its lines -/

/-- The phase after some lines, with what the tools answered. -/
def StdioServer.phaseAfter (phase : Mcp.Phase) (lines : List (Tools × Line)) : Mcp.Phase :=
  lines.foldl (fun phase entry => (server.handle entry.1 phase entry.2).1) phase

/-- The results of some lines. -/
def StdioServer.results : Mcp.Phase → List (Tools × Line) → List DispatchResult
  | _, [] => []
  | phase, (tools, line) :: rest =>
      (server.handle tools phase line).2 :: results (server.handle tools phase line).1 rest

/-- The values that are sent for some lines. -/
def StdioServer.replies (phase : Mcp.Phase) (lines : List (Tools × Line)) : List Value :=
  (server.results phase lines).filterMap (DispatchResult.value server.version)

/-- The ids of the responses that a line asks for. -/
def StdioServer.lineIds : Line → List Value
  | .oversized => [.null]
  | .frame payload => requestedIds (server.parse payload)

/-- The frames of the dispatcher among some lines. -/
def StdioServer.frames (lines : List (Tools × Line)) : List (Tools × Option Value) :=
  lines.filterMap fun entry =>
    match entry.2 with
    | .oversized => none
    | .frame payload => some (entry.1, server.parse payload)

end

section

variable {server : StdioServer} {phase : Mcp.Phase} {tools : Tools}

theorem results_append (earlier later : List (Tools × Line)) :
    server.results phase (earlier ++ later) =
      server.results phase earlier ++ server.results (server.phaseAfter phase earlier) later := by
  induction earlier generalizing phase with
  | nil => rfl
  | cons entry rest ih =>
      show _ :: server.results _ (rest ++ later) = _ :: _
      rw [ih]
      rfl

theorem phase_after_append (earlier later : List (Tools × Line)) :
    server.phaseAfter phase (earlier ++ later) =
      server.phaseAfter (server.phaseAfter phase earlier) later :=
  List.foldl_append ..

/-- A line that is too long leaves the phase; the others move it like the frames of a session. -/
theorem phase_after_session (lines : List (Tools × Line)) :
    server.phaseAfter phase lines = session phase (server.frames lines) := by
  induction lines generalizing phase with
  | nil => rfl
  | cons entry rest ih =>
      obtain ⟨tools, line⟩ := entry
      cases line with
      | oversized => exact ih
      | frame payload => exact ih

/-- Each line is answered with the ids it asks for. -/
theorem handle_ids (line : Line) :
    (server.handle tools phase line).2.responses.map RpcResponse.id = server.lineIds line := by
  cases line with
  | oversized => rfl
  | frame payload => exact dispatch_ids _

theorem handle_reply (line : Line) :
    IsReply server.version (server.handle tools phase line).2.responses
      ((server.handle tools phase line).2.value server.version) := by
  cases line with
  | oversized => exact Or.inl ⟨_, rfl, rfl⟩
  | frame payload => exact dispatch_reply _ _

theorem results_ids (lines : List (Tools × Line)) :
    ((server.results phase lines).flatMap DispatchResult.responses).map RpcResponse.id =
      lines.flatMap fun entry => server.lineIds entry.2 := by
  induction lines generalizing phase with
  | nil => rfl
  | cons entry rest ih =>
      obtain ⟨tools, line⟩ := entry
      show (((server.handle tools phase line).2 :: _).flatMap _).map _ = _
      rw [List.flatMap_cons, List.map_append, handle_ids, ih, List.flatMap_cons]

theorem results_reply (lines : List (Tools × Line)) :
    ∀ result ∈ server.results phase lines,
      IsReply server.version result.responses (result.value server.version) := by
  induction lines generalizing phase with
  | nil => exact fun _ h => absurd h List.not_mem_nil
  | cons entry rest ih =>
      exact List.forall_mem_cons.mpr ⟨handle_reply entry.2, ih⟩

/-- A frame is a line. -/
theorem newline_not_mem_text (value : Value) : newline ∉ server.text value :=
  newline_not_mem_bytes (write_plain server.float_plain value)

/-- A line that was read is the next one of the stream, reported for itself. -/
theorem next_line_some {reader after : Reader} {line : Line}
    (h : server.nextLine reader = some (line, after)) :
    ∃ payload, Lines.split newline reader.rest = payload :: Lines.split newline after.rest ∧
      line = classify server.limit payload := by
  unfold StdioServer.nextLine at h
  by_cases hrest : reader.rest = []
  · have heof := read_capped_line_eof server.sizes server.limit hrest
    split at h <;> rename_i hcall <;> rw [hcall] at heof
    · cases h
    · cases heof
    · cases heof
  · obtain ⟨payload, rest, hdelivers, hpayload, hsource⟩ :=
      read_capped_line server.sizes server.limit hrest
    refine ⟨payload, ?_, ?_⟩
    · have hafter : after.rest = rest := by
        have hreader : (readCappedLine server.sizes server.limit reader).2.2.rest = rest :=
          hdelivers.reader
        split at h <;> rename_i hcall <;> cases h <;> rw [← hreader, hcall]
      rw [hafter]
      rcases hsource with hterminated | ⟨hopen, hend⟩
      · rw [hterminated, Lines.split_terminated hpayload]
      · rw [hopen, Lines.split_open hpayload (hopen ▸ hrest), hend]
        rfl
    · have hresult : (readCappedLine server.sizes server.limit reader).1 =
          if server.limit < payload.length then .oversized else .frame := hdelivers.result
      have hline : (readCappedLine server.sizes server.limit reader).2.1 =
          if server.limit < payload.length then [] else dropReturn payload := hdelivers.line
      unfold classify
      split at h <;> rename_i hcall <;> cases h <;> rw [hcall] at hresult hline
      · split at hresult
        · cases hresult
        · rename_i hshort
          rw [if_neg hshort] at hline ⊢
          exact congrArg Line.frame hline
      · split at hresult
        · rename_i hlong
          rw [if_pos hlong]
        · cases hresult

/-- There is no next line exactly at the end of the stream. -/
theorem next_line_none_iff {reader : Reader} :
    server.nextLine reader = none ↔ reader.rest = [] := by
  constructor
  · intro h
    by_contra hrest
    obtain ⟨payload, rest, hdelivers, _, _⟩ :=
      read_capped_line server.sizes server.limit hrest
    have hresult : (readCappedLine server.sizes server.limit reader).1 =
        if server.limit < payload.length then .oversized else .frame := hdelivers.result
    unfold StdioServer.nextLine at h
    split at h <;> rename_i hcall
    · rw [hcall] at hresult
      split at hresult <;> cases hresult
    · cases h
    · cases h
  · intro h
    have heof := read_capped_line_eof server.sizes server.limit h
    unfold StdioServer.nextLine
    split <;> rename_i hcall <;> rw [hcall] at heof
    · cases heof
    · cases heof

/-- A stream without lines is at its end. -/
theorem split_eq_nil_iff {stream : List UInt8} : Lines.split newline stream = [] ↔ stream = [] := by
  constructor
  · intro h
    cases stream with
    | nil => rfl
    | cons head rest =>
        unfold Lines.split at h
        split at h
        · cases h
        · split at h <;> cases h
  · intro h
    rw [h]
    rfl

/-! ## Runs -/

/-- The lines of a stream as they are reported. -/
def StdioServer.lines (server : StdioServer) (stream : List UInt8) : List Line :=
  (Lines.split newline stream).map (classify server.limit)

/-- The lines that the iterations of a run have dealt with. -/
def StdioServer.handled (server : StdioServer) (stream : List UInt8) (history : List Tools) :
    List (Tools × Line) :=
  history.zip (server.lines stream)

/-- One more iteration deals with the next line, if there is one. -/
theorem handled_append {stream : List UInt8} {history : List Tools} (tools : Tools) :
    server.handled stream (history ++ [tools]) =
      server.handled stream history ++
        ((server.lines stream).drop history.length).head?.toList.map fun line => (tools, line) := by
  unfold StdioServer.handled
  generalize server.lines stream = lines
  induction history generalizing lines with
  | nil => cases lines <;> rfl
  | cons first rest ih =>
      cases lines with
      | nil => rfl
      | cons line lines =>
          show (first, line) :: (rest ++ [tools]).zip lines = _
          rw [ih]
          rfl

/-- What a run has done, by the lines of its stream. -/
structure Served (server : StdioServer) (stream : List UInt8) (history : List Tools)
    (c : Connection) : Prop where
  count : history.length ≤ (Lines.split newline stream).length
  rest : Lines.split newline c.reader.rest = (Lines.split newline stream).drop history.length
  phase : c.phase = server.phaseAfter .awaitInitialize (server.handled stream history)
  written : c.written =
    (server.replies .awaitInitialize (server.handled stream history)).flatMap server.frameBytes

/-- The replies with one more line. -/
theorem replies_append (lines : List (Tools × Line)) (entry : Tools × Line) :
    (server.replies phase (lines ++ [entry])).flatMap server.frameBytes =
      (server.replies phase lines).flatMap server.frameBytes ++
        server.output entry.1 (server.phaseAfter phase lines) entry.2 := by
  unfold StdioServer.replies StdioServer.output
  rw [results_append, List.filterMap_append, List.flatMap_append]
  congr 1
  show (List.filterMap _ [(server.handle entry.1 _ entry.2).2]).flatMap _ = _
  cases hvalue : (server.handle entry.1 (server.phaseAfter phase lines) entry.2).2.value
      server.version with
  | none => rw [List.filterMap_cons_none hvalue]; rfl
  | some value => rw [List.filterMap_cons_some hvalue]; simp

/-- The next line of a run. -/
theorem Served.next {stream : List UInt8} {history : List Tools} {c : Connection}
    (h : Served server stream history c) {line : Line} {after : Reader}
    (hline : server.nextLine c.reader = some (line, after)) (tools : Tools) :
    history.length < (Lines.split newline stream).length ∧
      Lines.split newline after.rest = (Lines.split newline stream).drop (history.length + 1) ∧
      server.handled stream (history ++ [tools]) =
        server.handled stream history ++ [(tools, line)] := by
  obtain ⟨payload, hsplit, rfl⟩ := next_line_some hline
  have hdrop : (Lines.split newline stream).drop history.length =
      payload :: Lines.split newline after.rest := by
    rw [← h.rest, hsplit]
  refine ⟨?_, ?_, ?_⟩
  · by_contra hend
    rw [List.drop_eq_nil_of_le (Nat.not_lt.mp hend)] at hdrop
    cases hdrop
  · rw [← List.drop_drop, hdrop]
    rfl
  · rw [handled_append]
    unfold StdioServer.lines
    rw [← List.map_drop, hdrop]
    rfl

/-- An iteration serves one more line. -/
theorem Served.step {stream : List UInt8} {history : List Tools} {c c' : Connection}
    (h : Served server stream history c) (hstep : Iteration server tools c c') :
    Served server stream (history ++ [tools]) c' := by
  obtain ⟨hline⟩ := hstep
  obtain ⟨hcount, hrest, hhandled⟩ := h.next hline tools
  have hlength : (history ++ [tools]).length = history.length + 1 := by simp
  exact
    { count := by omega
      rest := by rw [hlength]; exact hrest
      phase := by
        rw [hhandled, phase_after_append, ← h.phase]
        rfl
      written := by
        rw [hhandled, replies_append, ← h.written, ← h.phase] }

/-- Every run serves the lines of its stream one by one. -/
theorem Run.served {stream : List UInt8} {history : List Tools} {c : Connection}
    (h : Run server stream history c) : Served server stream history c := by
  induction h with
  | start =>
      exact { count := Nat.zero_le _, rest := rfl, phase := rfl, written := rfl }
  | step _ hstep ih => exact ih.step hstep

/-- How a session may end. -/
theorem Served.ends {stream : List UInt8} {history : List Tools} {c : Connection}
    (h : Served server stream history c) {ending : Ending} {bytes : List UInt8}
    (hends : Ends server c ending bytes) :
    c.written <+: bytes ∧ (ending ≠ .failed → bytes = c.written) ∧
      ∃ tools, bytes <+: (server.replies .awaitInitialize
        (server.handled stream (history ++ [tools]))).flatMap server.frameBytes := by
  have hextends : ∀ tools, c.written <+: (server.replies .awaitInitialize
      (server.handled stream (history ++ [tools]))).flatMap server.frameBytes := by
    intro tools
    rw [handled_append]
    cases ((server.lines stream).drop history.length).head? with
    | none =>
        show c.written <+: (server.replies _ (_ ++ [])).flatMap _
        rw [List.append_nil]
        exact h.written ▸ List.prefix_rfl
    | some line =>
        show c.written <+: (server.replies _ (_ ++ [(tools, line)])).flatMap _
        rw [replies_append, h.written]
        exact List.prefix_append _ _
  have hidle : c.written <+: c.written ∧ (ending ≠ .failed → c.written = c.written) ∧
      ∃ tools, c.written <+: (server.replies .awaitInitialize
        (server.handled stream (history ++ [tools]))).flatMap server.frameBytes :=
    ⟨List.prefix_rfl, fun _ => rfl, idleTools, hextends idleTools⟩
  cases hends with
  | endOfInput _ => exact hidle
  | shutdown => exact hidle
  | readFailed => exact hidle
  | @writeFailed tools line after bytes hline hbytes =>
      obtain ⟨_, _, hhandled⟩ := h.next hline tools
      refine ⟨List.prefix_append _ _, fun hne => absurd rfl hne, tools, ?_⟩
      rw [hhandled, replies_append, ← h.written, ← h.phase]
      exact List.prefix_append_right_inj _ |>.mpr hbytes

/-- Standard output of a session, for every stream, however the reader cuts it, whatever the tools
answer and wherever the session ends. After some iterations as many lines of the stream are dealt
with. What was written is one line for each of them that is answered, in order, with the text of
its reply; the responses in these carry exactly the ids that the lines ask for, in order, so that
no request is lost and none answered twice. The phase is that of the frames that were not too
long. The session goes on to the last line of the stream unless a shutdown or an error ends it, and
only an error can leave a frame unfinished. -/
theorem stdio_session (server : StdioServer) (stream : List UInt8) (history : List Tools)
    (c : Connection) (h : Run server stream history c) :
    history.length ≤ (server.lines stream).length ∧
    (server.nextLine c.reader = none ↔ history.length = (server.lines stream).length) ∧
    c.phase = session .awaitInitialize (server.frames (server.handled stream history)) ∧
    Lines.split newline c.written =
      (server.replies .awaitInitialize (server.handled stream history)).map server.text ∧
    ((server.results .awaitInitialize (server.handled stream history)).flatMap
      DispatchResult.responses).map RpcResponse.id =
        (server.handled stream history).flatMap (fun entry => server.lineIds entry.2) ∧
    (∀ result ∈ server.results .awaitInitialize (server.handled stream history),
      IsReply server.version result.responses (result.value server.version)) ∧
    ∀ ending bytes, Ends server c ending bytes →
      c.written <+: bytes ∧ (ending ≠ .failed → bytes = c.written) ∧
      (ending = .endOfInput → history.length = (server.lines stream).length) ∧
      ∃ tools, bytes <+: (server.replies .awaitInitialize
        (server.handled stream (history ++ [tools]))).flatMap server.frameBytes := by
  have hserved := h.served
  have hlength : (server.lines stream).length = (Lines.split newline stream).length :=
    List.length_map _
  have hend : server.nextLine c.reader = none ↔
      history.length = (server.lines stream).length := by
    have hcount := hserved.count
    rw [next_line_none_iff, ← split_eq_nil_iff, hserved.rest, List.drop_eq_nil_iff, hlength]
    omega
  refine ⟨?_, hend, ?_, ?_, results_ids _, results_reply _, ?_⟩
  · rw [hlength]
    exact hserved.count
  · rw [hserved.phase, phase_after_session]
  · rw [hserved.written]
    have hjoined : (server.replies .awaitInitialize (server.handled stream history)).flatMap
        server.frameBytes = ((server.replies .awaitInitialize
          (server.handled stream history)).map server.text).flatMap fun body =>
            body ++ [newline] := by
      rw [List.flatMap_map]
      rfl
    rw [hjoined, Lines.split_joined]
    intro body hbody
    obtain ⟨value, _, rfl⟩ := List.mem_map.mp hbody
    exact newline_not_mem_text value
  · intro ending bytes hends
    obtain ⟨hstart, hwhole, hnext⟩ := hserved.ends hends
    refine ⟨hstart, hwhole, ?_, hnext⟩
    intro hinput
    subst hinput
    cases hends with
    | endOfInput hnone => exact hend.mp hnone

end

/-- A server whose every frame is a ping. -/
def pingServer : StdioServer where
  limit := 8
  version := "0"
  sizes := fun _ => 1
  parse := fun _ => some (.object [("jsonrpc", .string "2.0"), ("id", .string "a"),
    ("method", .string "ping")])
  float := fun _ => ['0', '.', '0']
  float_plain := fun _ => by decide

/-- A ping and a line that is too long are answered one after the other. -/
theorem stdio_session_ping :
    ∃ c, Run pingServer [112, 10, 1, 2, 3, 4, 5, 6, 7, 8, 9] [idleTools, idleTools] c ∧
      Lines.split newline c.written =
        [rpcSuccess (.string "a") (.object []), rpcError .null .invalidRequest].map
          pingServer.text := by
  have hstep : ∀ {history c}, Run pingServer [112, 10, 1, 2, 3, 4, 5, 6, 7, 8, 9] history c →
      history.length < 2 → ∃ c', Iteration pingServer idleTools c c' := by
    intro history c hrun hcount
    have hend := (stdio_session pingServer _ history c hrun).2.1
    cases hline : pingServer.nextLine c.reader with
    | none =>
        have hlength : history.length = 2 := hend.mp hline
        omega
    | some next => exact ⟨_, .line hline⟩
  obtain ⟨c, hfirst⟩ := hstep .start (by decide)
  obtain ⟨c', hsecond⟩ := hstep (.step .start hfirst) (by decide)
  have hrun := Run.step (.step .start hfirst) hsecond
  exact ⟨c', hrun, (stdio_session pingServer _ _ c' hrun).2.2.2.1⟩

end EmbeddingServer.Stdio
