import EmbeddingServer.Lib.History
import EmbeddingServer.Models.Verification

/-!
# Verification and import, read by read

`verify_contained_artifact` and `copy_import_artifact` among answers that come from anywhere: a
file may grow or shrink while it is read and a read may return any part of what was asked for. What
the functions read and write is taken from the list of the primitives they perform.

The loops of the model run for `size + 2` rounds. A read that returns nothing ends a loop and any
other makes progress, so more rounds change nothing.
-/

namespace EmbeddingServer

open Program

/-- A primitive with the reply it got. -/
abbrev FsEvent := Program.Event FsOp.Reply

/-- Replies that do not exceed the buffer of a read. -/
def WithinBuffer : (op : FsOp) → op.Reply → Prop
  | .read _ _ _ limit, reply => ∀ chunk, reply = .ok chunk → chunk.length ≤ limit
  | _, _ => True

/-- No contract at all. -/
def AnyReply (op : FsOp) (_ : op.Reply) : Prop :=
  True

/-- The primitives that move the bytes of an artifact, and the requests for them. -/
def FsOp.moves : FsOp → Bool
  | .read .. | .readSource _ | .append .. | .httpGet _ | .httpChunk => true
  | _ => false

/-- The events in which bytes move. -/
def moved (events : List FsEvent) : List FsEvent :=
  events.filter fun event => event.op.moves

/-- What a read of a file in the cache returned. -/
def readOf : FsEvent → List UInt8
  | ⟨.read .., .ok chunk⟩ => chunk
  | _ => []

/-- What a read of an import source returned. -/
def sourceOf : FsEvent → List UInt8
  | ⟨.readSource _, .ok chunk⟩ => chunk
  | _ => []

/-- What was to be written, whether or not the write succeeded. -/
def writtenOf : FsEvent → List UInt8
  | ⟨.append _ _ bytes, _⟩ => bytes
  | _ => []

/-- The bytes that the reads of a file in the cache returned. -/
def readBytes (events : List FsEvent) : List UInt8 :=
  events.flatMap readOf

/-- The bytes that the reads of an import source returned. -/
def sourceBytes (events : List FsEvent) : List UInt8 :=
  events.flatMap sourceOf

/-- The bytes that were to be written. -/
def writtenBytes (events : List FsEvent) : List UInt8 :=
  events.flatMap writtenOf

/-- The bytes before the end of a file: what was read until a read returned nothing, and no read
came after it. -/
def ReadsToEnd (loc : Loc) (path : RelPath) (events : List FsEvent) : Prop :=
  ∃ before after limit, 0 < limit ∧ readBytes after = [] ∧
    events = before ++ ⟨.read loc path (readBytes before).length limit, .ok []⟩ :: after

@[simp] theorem read_bytes_nil : readBytes [] = [] := rfl

@[simp] theorem source_bytes_nil : sourceBytes [] = [] := rfl

@[simp] theorem written_bytes_nil : writtenBytes [] = [] := rfl

@[simp] theorem read_bytes_append (before after : List FsEvent) :
    readBytes (before ++ after) = readBytes before ++ readBytes after := List.flatMap_append

@[simp] theorem source_bytes_append (before after : List FsEvent) :
    sourceBytes (before ++ after) = sourceBytes before ++ sourceBytes after := List.flatMap_append

@[simp] theorem written_bytes_append (before after : List FsEvent) :
    writtenBytes (before ++ after) = writtenBytes before ++ writtenBytes after :=
  List.flatMap_append

@[simp] theorem moved_append (before after : List FsEvent) :
    moved (before ++ after) = moved before ++ moved after := List.filter_append ..

/-- What is collected from the events in which bytes move is the same for the same of them. -/
theorem collect_congr {β : Type} {collect : FsEvent → List β}
    (hquiet : ∀ event, event.op.moves = false → collect event = []) {events other : List FsEvent}
    (h : moved events = moved other) : events.flatMap collect = other.flatMap collect := by
  have hmoved : ∀ list : List FsEvent, (moved list).flatMap collect = list.flatMap collect := by
    intro list
    induction list with
    | nil => rfl
    | cons event rest ih =>
        unfold moved at ih ⊢
        rw [List.filter_cons, List.flatMap_cons]
        cases hmoves : event.op.moves with
        | false =>
            rw [if_neg Bool.false_ne_true, hquiet event hmoves, List.nil_append]
            exact ih
        | true => rw [if_pos rfl, List.flatMap_cons, ih]
  rw [← hmoved events, h, hmoved]

theorem read_bytes_congr {events other : List FsEvent} (h : moved events = moved other) :
    readBytes events = readBytes other := by
  refine collect_congr ?_ h
  rintro ⟨op, reply⟩ hmoves
  cases op <;> first | rfl | cases hmoves

theorem source_bytes_congr {events other : List FsEvent} (h : moved events = moved other) :
    sourceBytes events = sourceBytes other := by
  refine collect_congr ?_ h
  rintro ⟨op, reply⟩ hmoves
  cases op <;> first | rfl | cases hmoves

theorem written_bytes_congr {events other : List FsEvent} (h : moved events = moved other) :
    writtenBytes events = writtenBytes other := by
  refine collect_congr ?_ h
  rintro ⟨op, reply⟩ hmoves
  cases op <;> first | rfl | cases hmoves

/-! ## Runs of the parts -/

section Rules

variable {obeys : (op : FsOp) → op.Reply → Prop} {events : List FsEvent} {α : Type}

theorem ran_fs {op : FsOp} {result : Except Error op.Value}
    (h : Ran obeys (fs op).run events result) :
    ∃ reply, obeys op reply ∧ events = [⟨op, reply⟩] ∧ result = reply.mapError Error.io := by
  obtain ⟨before, after, reply, rfl, hreply, hrest⟩ := Ran.of_bind h
  obtain ⟨hobeys, rfl⟩ := hreply.of_primitive
  obtain ⟨rfl, rfl⟩ := hrest.of_done
  exact ⟨reply, hobeys, rfl, rfl⟩

theorem ran_attempt {body : StoreM α} {result : Except Error (Except Error α)}
    (h : Ran obeys (attempt body).run events result) :
    ∃ inner, result = .ok inner ∧ Ran obeys body.run events inner := by
  obtain ⟨before, after, inner, rfl, hinner, hrest⟩ := Ran.of_bind h
  obtain ⟨rfl, rfl⟩ := hrest.of_done
  exact ⟨inner, rfl, (List.append_nil before).symm ▸ hinner⟩

theorem ran_fail_if {condition : Prop} [Decidable condition] {error : Error}
    {result : Except Error Unit} (h : Ran obeys (failIf condition error).run events result) :
    events = [] ∧ (condition ∧ result = .error error ∨ ¬ condition ∧ result = .ok ()) := by
  unfold failIf at h
  split at h
  · rename_i hfails
    obtain ⟨hevents, hresult⟩ := Ran.of_throw h
    exact ⟨hevents, .inl ⟨hfails, hresult⟩⟩
  · rename_i hpasses
    obtain ⟨hevents, hresult⟩ := Ran.of_pure h
    exact ⟨hevents, .inr ⟨hpasses, hresult⟩⟩

end Rules

/-! ## Code that moves no bytes -/

section Still

variable {loc : Loc} {path : RelPath} {α : Type}

/-- No primitive of the code moves bytes of an artifact. -/
abbrev Still {α : Type} (body : StoreM α) : Prop :=
  Only (fun op => op.moves = false) body

theorem still_moved {obeys : (op : FsOp) → op.Reply → Prop} {body : StoreM α}
    {events : List FsEvent} {result : Except Error α} (h : Still body)
    (hran : Ran obeys body.run events result) : moved events = moved [] := by
  refine List.filter_eq_nil_iff.mpr ?_
  intro event hmem
  rw [hran.all h event hmem]
  exact Bool.false_ne_true

/-- What moves bytes comes after code that does not. -/
theorem still_bind {β : Type} {obeys : (op : FsOp) → op.Reply → Prop} {body : StoreM α}
    {rest : α → StoreM β} {events : List FsEvent} {result : Except Error β} (hstill : Still body)
    (h : Ran obeys (body >>= rest).run events result) :
    ∃ later, moved events = moved later ∧ ((∃ error, result = .error error ∧ later = []) ∨
      ∃ value, Ran obeys (rest value).run later result) := by
  rcases Ran.of_bind_e h with ⟨error, rfl, hbody⟩ | ⟨before, later, value, rfl, hbody, hrest⟩
  · exact ⟨[], still_moved hstill hbody, .inl ⟨error, rfl, rfl⟩⟩
  · refine ⟨later, ?_, .inr ⟨value, hrest⟩⟩
    rw [moved_append, still_moved hstill hbody]
    rfl

/-- What is said of the moved bytes holds after code that moves none, if it holds of the rest. -/
theorem still_then {β : Type} {obeys : (op : FsOp) → op.Reply → Prop} {body : StoreM α}
    {rest : α → StoreM β} {events : List FsEvent} {result : Except Error β}
    {claim : List UInt8 → List UInt8 → List UInt8 → Except Error β → Prop} (hstill : Still body)
    (h : Ran obeys (body >>= rest).run events result)
    (hfailed : ∀ error, claim [] [] [] (.error error))
    (hrest : ∀ value later, Ran obeys (rest value).run later result →
      claim (readBytes later) (sourceBytes later) (writtenBytes later) result) :
    claim (readBytes events) (sourceBytes events) (writtenBytes events) result := by
  obtain ⟨later, hmoved, hlater⟩ := still_bind hstill h
  rw [read_bytes_congr hmoved, source_bytes_congr hmoved, written_bytes_congr hmoved]
  obtain ⟨error, rfl, rfl⟩ | ⟨value, hvalue⟩ := hlater
  · exact hfailed error
  · exact hrest value later hvalue

theorem reject_reparse_components_still : Still (rejectReparseComponents loc path) := by
  refine only_bind (only_bind (only_fs rfl) fun found => ?_) fun _ => ?_
  · split <;> trivial
  · generalize path.inits.tail = paths
    induction paths with
    | nil => exact only_pure ()
    | cons first rest ih =>
        refine only_bind (only_fs rfl) fun found => ?_
        split
        · exact only_invalid _
        · exact ih
        · exact only_pure ()

theorem securely_open_parent_still : Still (securelyOpenParent loc path) := by
  refine only_bind (only_fs rfl) fun _ => ?_
  generalize parentDirectories path = paths
  induction paths with
  | nil => exact only_pure ()
  | cons first rest ih =>
      refine only_bind (only_bind (only_attempt (only_fs rfl)) fun result => ?_) fun _ => ?_
      · split <;> trivial
      · exact only_bind (only_fs rfl) fun _ => ih

theorem securely_open_existing_file_still : Still (securelyOpenExistingFile loc path) :=
  only_bind securely_open_parent_still fun _ => only_fs rfl

theorem open_contained_regular_file_still {size : Nat} :
    Still (openContainedRegularFile loc path size) := by
  refine only_bind reject_reparse_components_still fun _ => ?_
  refine only_bind securely_open_existing_file_still fun _ => ?_
  exact only_bind (only_path_metadata rfl) fun _ => only_fail_if _ _

theorem create_new_contained_file_still : Still (createNewContainedFile loc path) := by
  refine only_bind securely_open_parent_still fun _ => ?_
  refine only_bind (only_fs rfl) fun _ => ?_
  refine only_bind (only_path_metadata rfl) fun _ => ?_
  refine only_bind (only_fail_if _ _) fun _ => ?_
  refine only_bind reject_reparse_components_still fun _ => ?_
  exact only_bind (only_path_metadata rfl) fun _ => only_fail_if _ _

theorem stable_import_destination_error_still {body : StoreM α} (h : Still body) :
    Still (stableImportDestinationError loc path body) := by
  refine only_bind (only_attempt h) fun result => ?_
  split
  · exact only_pure _
  · refine only_bind (only_attempt reject_reparse_components_still) fun result => ?_
    split <;> trivial

end Still

/-! ## More rounds change nothing -/

section Rounds

variable {loc : Loc} {path : RelPath} {size : Nat}

/-- Every round of `verify_contained_artifact` but the last reads at least one byte. -/
theorem hash_loop_rounds (cancelled : StoreM Bool) (more : Nat) {fuel : Nat} {bytes : List UInt8}
    (hbytes : bytes.length ≤ size) (hfuel : size + 2 ≤ fuel + bytes.length) :
    hashLoop loc path size cancelled (fuel + more) bytes =
      hashLoop loc path size cancelled fuel bytes := by
  induction fuel generalizing bytes with
  | zero => omega
  | succ fuel ih =>
      have hnext : ∀ chunk : List UInt8, chunk ≠ [] → bytes.length + chunk.length ≤ size →
          hashLoop loc path size cancelled (fuel + more) (bytes ++ chunk) =
            hashLoop loc path size cancelled fuel (bytes ++ chunk) := by
        intro chunk hchunk hfits
        have hpos := List.length_pos_iff.mpr hchunk
        refine ih ?_ ?_ <;> rw [List.length_append] <;> omega
      rw [Nat.add_right_comm, hashLoop, hashLoop]
      refine bind_congr fun stop => bind_congr fun _ => ?_
      dsimp only
      split
      · rfl
      · refine bind_congr fun chunk => ?_
        split
        · rfl
        · split
          · rfl
          · exact hnext chunk ‹_› (by omega)

/-- So does every round of the copy loop. -/
theorem copy_loop_rounds (more : Nat) {fuel : Nat} {bytes : List UInt8}
    (hbytes : bytes.length ≤ size) (hfuel : size + 2 ≤ fuel + bytes.length) :
    copyLoop loc path size (fuel + more) bytes = copyLoop loc path size fuel bytes := by
  induction fuel generalizing bytes with
  | zero => omega
  | succ fuel ih =>
      rw [Nat.add_right_comm, copyLoop, copyLoop]
      refine bind_congr fun chunk => ?_
      split
      · rfl
      · split
        · rfl
        · have hpos := List.length_pos_iff.mpr ‹¬ chunk = []›
          refine bind_congr fun _ => ih ?_ ?_ <;> rw [List.length_append] <;> omega

/-- And every round of the loop that reads the staged file again. -/
theorem reread_loop_rounds (more : Nat) {fuel : Nat} {bytes : List UInt8}
    (hbytes : bytes.length ≤ size) (hfuel : size + 2 ≤ fuel + bytes.length) :
    rereadLoop loc path size (fuel + more) bytes = rereadLoop loc path size fuel bytes := by
  induction fuel generalizing bytes with
  | zero => omega
  | succ fuel ih =>
      rw [Nat.add_right_comm, rereadLoop, rereadLoop]
      refine bind_congr fun chunk => ?_
      split
      · rfl
      · split
        · rfl
        · have hpos := List.length_pos_iff.mpr ‹¬ chunk = []›
          refine ih ?_ ?_ <;> rw [List.length_append] <;> omega

end Rounds

/-! ## The loops -/

section Loops

variable {loc : Loc} {path : RelPath} {size fuel : Nat} {bytes : List UInt8}
  {obeys : (op : FsOp) → op.Reply → Prop} {events : List FsEvent}

/-- How much a round of `verify_contained_artifact` asks for. -/
def readLimit (size : Nat) (bytes : List UInt8) : Nat :=
  min (size + 1 - bytes.length) bufferSize

theorem read_limit_pos (hbytes : bytes.length ≤ size) : 0 < readLimit size bytes := by
  unfold readLimit bufferSize
  omega

/-- What a round of `verify_contained_artifact` does after `bytes` were read. -/
inductive HashRound (obeys : (op : FsOp) → op.Reply → Prop) (loc : Loc) (path : RelPath)
    (size fuel : Nat) (bytes : List UInt8) :
    List FsEvent → Except Error (Option (List UInt8)) → Prop where
  | stopped {reply : FsOp.poll.Reply} {error : Error} (hpoll : obeys .poll reply)
      (hstop : reply ≠ .ok false) : HashRound obeys loc path size fuel bytes
        [⟨.poll, reply⟩] (.error error)
  | failed {kind : IoError}
      (hread : obeys (.read loc path bytes.length (readLimit size bytes)) (.error kind)) :
      HashRound obeys loc path size fuel bytes
        [⟨.poll, .ok false⟩,
          ⟨.read loc path bytes.length (readLimit size bytes), .error kind⟩] (.error (.io kind))
  | ended (hread : obeys (.read loc path bytes.length (readLimit size bytes)) (.ok [])) :
      HashRound obeys loc path size fuel bytes
        [⟨.poll, .ok false⟩,
          ⟨.read loc path bytes.length (readLimit size bytes), .ok []⟩] (.ok (some bytes))
  | tooLong {chunk : List UInt8}
      (hread : obeys (.read loc path bytes.length (readLimit size bytes)) (.ok chunk))
      (hlong : size < bytes.length + chunk.length) :
      HashRound obeys loc path size fuel bytes
        [⟨.poll, .ok false⟩,
          ⟨.read loc path bytes.length (readLimit size bytes), .ok chunk⟩] (.ok none)
  | more {chunk : List UInt8} {rest : List FsEvent} {result : Except Error (Option (List UInt8))}
      (hread : obeys (.read loc path bytes.length (readLimit size bytes)) (.ok chunk))
      (hchunk : chunk ≠ []) (hfits : bytes.length + chunk.length ≤ size)
      (hrest : Ran obeys (hashLoop loc path size isCancelRequested fuel (bytes ++ chunk)).run
        rest result) :
      HashRound obeys loc path size fuel bytes
        (⟨.poll, .ok false⟩ ::
          ⟨.read loc path bytes.length (readLimit size bytes), .ok chunk⟩ :: rest) result

theorem hash_loop_round {result : Except Error (Option (List UInt8))}
    (h : Ran obeys (hashLoop loc path size isCancelRequested (fuel + 1) bytes).run events result)
    (hbytes : bytes.length ≤ size) :
    HashRound obeys loc path size fuel bytes events result := by
  rcases Ran.of_bind_e h with ⟨error, rfl, hpoll⟩ | ⟨polled, later, stop, rfl, hpoll, hlater⟩
  · obtain ⟨reply, hobeys, rfl, hreply⟩ := ran_fs hpoll
    refine .stopped hobeys ?_
    rintro rfl
    cases hreply
  obtain ⟨reply, hobeys, rfl, hreply⟩ := ran_fs hpoll
  rcases Ran.of_bind_e hlater with ⟨error, rfl, hcheck⟩ | ⟨_, round, _, rfl, hcheck, hround⟩
  · obtain ⟨rfl, ⟨hstop, _⟩ | ⟨_, hnever⟩⟩ := ran_fail_if hcheck
    · refine .stopped hobeys ?_
      rintro rfl
      cases hreply
      cases hstop
    · cases hnever
  obtain ⟨rfl, ⟨_, hnever⟩ | ⟨hgoes, _⟩⟩ := ran_fail_if hcheck
  · cases hnever
  obtain rfl : reply = .ok false := by
    cases reply with
    | error _ => cases hreply
    | ok answer =>
        obtain rfl := Except.ok.inj hreply
        rw [Bool.eq_false_of_not_eq_true hgoes]
  have hremaining : size + 1 - bytes.length ≠ 0 := by omega
  dsimp only at hround
  rw [if_neg hremaining] at hround
  rcases Ran.of_bind_e hround with ⟨error, rfl, hread⟩ | ⟨_, rest, chunk, rfl, hread, hrest⟩
  · obtain ⟨answer, hanswer, rfl, herror⟩ := ran_fs hread
    cases answer with
    | ok _ => cases herror
    | error kind =>
        obtain rfl := Except.error.inj herror
        exact .failed hanswer
  obtain ⟨answer, hanswer, rfl, hvalue⟩ := ran_fs hread
  cases answer with
  | error _ => cases hvalue
  | ok value =>
      obtain rfl := Except.ok.inj hvalue
      split at hrest
      · rename_i hempty
        obtain ⟨rfl, rfl⟩ := Ran.of_pure hrest
        subst hempty
        exact .ended hanswer
      · split at hrest
        · obtain ⟨rfl, rfl⟩ := Ran.of_pure hrest
          exact .tooLong hanswer ‹_›
        · exact .more hanswer ‹_› (by omega) hrest

/-- The loop of `verify_contained_artifact` reads at most one byte more than declared. If it comes
to the end of the file it has all bytes before it. -/
theorem hash_loop_ran {result : Except Error (Option (List UInt8))}
    (h : Ran WithinBuffer (hashLoop loc path size isCancelRequested fuel bytes).run events result)
    (hbytes : bytes.length ≤ size) :
    bytes.length + (readBytes events).length ≤ size + 1 ∧
      ∀ all, result = .ok (some all) → all = bytes ++ readBytes events ∧
        ∃ before limit, 0 < limit ∧
          events = before ++ [⟨.read loc path all.length limit, .ok []⟩] := by
  induction fuel generalizing bytes events with
  | zero =>
      obtain ⟨rfl, rfl⟩ := Ran.of_pure h
      exact ⟨by simp; omega, by simp⟩
  | succ fuel ih =>
      cases hash_loop_round h hbytes with
      | stopped _ _ | failed _ => exact ⟨by simp [readBytes, readOf]; omega, by simp⟩
      | ended _ =>
          refine ⟨by simp [readBytes, readOf]; omega, ?_⟩
          intro all hall
          obtain rfl := Option.some.inj (Except.ok.inj hall)
          exact ⟨by simp [readBytes, readOf], [_], _, read_limit_pos hbytes, rfl⟩
      | @tooLong chunk hread _ =>
          have hlimit := hread chunk rfl
          unfold readLimit at hlimit
          refine ⟨?_, by simp⟩
          simp only [readBytes, readOf, List.flatMap_cons, List.flatMap_nil, List.append_nil,
            List.nil_append]
          omega
      | @more chunk rest _ _ _ hfits hrest =>
          have hread : readBytes (⟨.poll, .ok false⟩ ::
              ⟨.read loc path bytes.length (readLimit size bytes), .ok chunk⟩ :: rest) =
                chunk ++ readBytes rest := rfl
          obtain ⟨hbound, hend⟩ := ih hrest (by rw [List.length_append]; exact hfits)
          rw [hread]
          constructor
          · rw [List.length_append] at hbound ⊢
            omega
          · intro all hall
            obtain ⟨heq, before, limit, hlimit, hrest⟩ := hend all hall
            exact ⟨heq.trans (List.append_assoc ..), _ :: _ :: before, limit, hlimit,
              congrArg (fun later => _ :: _ :: later) hrest⟩

/-- The copy loop writes what it read from the source, at most as much as declared. -/
theorem copy_loop_ran {result : Except Error (List UInt8)}
    (h : Ran obeys (copyLoop loc path size fuel bytes).run events result)
    (hbytes : bytes.length ≤ size) :
    bytes.length + (writtenBytes events).length ≤ size ∧ readBytes events = [] ∧
      ∀ all, result = .ok all →
        all = bytes ++ sourceBytes events ∧ writtenBytes events = sourceBytes events := by
  induction fuel generalizing bytes events with
  | zero =>
      obtain ⟨rfl, rfl⟩ := Ran.of_throw h
      exact ⟨by simpa using hbytes, rfl, by simp⟩
  | succ fuel ih =>
      rcases Ran.of_bind_e h with ⟨error, rfl, hread⟩ | ⟨_, later, chunk, rfl, hread, hlater⟩
      · obtain ⟨_, _, rfl, _⟩ := ran_fs hread
        exact ⟨by simpa [writtenBytes, writtenOf] using hbytes, rfl, by simp⟩
      obtain ⟨reply, _, rfl, hreply⟩ := ran_fs hread
      obtain rfl : reply = .ok chunk := by
        cases reply with
        | error _ => cases hreply
        | ok value => rw [Except.ok.inj hreply]
      split at hlater
      · rename_i hempty
        obtain ⟨rfl, rfl⟩ := Ran.of_pure hlater
        subst hempty
        exact ⟨by simpa [writtenBytes, writtenOf] using hbytes, rfl,
          by simp [sourceBytes, writtenBytes, sourceOf, writtenOf]⟩
      · split at hlater
        · obtain ⟨rfl, rfl⟩ := Ran.of_throw hlater
          exact ⟨by simpa [writtenBytes, writtenOf] using hbytes, rfl, by simp⟩
        · have hfits : (bytes ++ chunk).length ≤ size := by
            rw [List.length_append]
            omega
          rcases Ran.of_bind_e hlater with
            ⟨error, rfl, hwrite⟩ | ⟨_, rest, _, rfl, hwrite, hrest⟩
          · obtain ⟨_, _, rfl, _⟩ := ran_fs hwrite
            exact ⟨by simpa [writtenBytes, writtenOf] using hfits, rfl, by simp⟩
          obtain ⟨written, _, rfl, _⟩ := ran_fs hwrite
          obtain ⟨hbound, hnone, hsame⟩ := ih hrest hfits
          have hwritten : writtenBytes ([⟨.readSource path, .ok chunk⟩] ++
              ([⟨.append loc path chunk, written⟩] ++ rest)) = chunk ++ writtenBytes rest := rfl
          have hsource : sourceBytes ([⟨.readSource path, .ok chunk⟩] ++
              ([⟨.append loc path chunk, written⟩] ++ rest)) = chunk ++ sourceBytes rest := rfl
          rw [hwritten, hsource]
          refine ⟨?_, hnone, ?_⟩
          · rw [List.length_append] at hbound ⊢
            omega
          · intro all hall
            obtain ⟨heq, hcopied⟩ := hsame all hall
            exact ⟨heq.trans (List.append_assoc ..), by rw [hcopied]⟩

/-- The loop that reads the staged file again returns what it read. -/
theorem reread_loop_ran {result : Except Error (List UInt8)}
    (h : Ran obeys (rereadLoop loc path size fuel bytes).run events result) :
    sourceBytes events = [] ∧ writtenBytes events = [] ∧
      ∀ all, result = .ok all → all = bytes ++ readBytes events := by
  induction fuel generalizing bytes events with
  | zero =>
      obtain ⟨rfl, rfl⟩ := Ran.of_throw h
      exact ⟨rfl, rfl, by simp⟩
  | succ fuel ih =>
      rcases Ran.of_bind_e h with ⟨error, rfl, hread⟩ | ⟨_, later, chunk, rfl, hread, hlater⟩
      · obtain ⟨_, _, rfl, _⟩ := ran_fs hread
        exact ⟨rfl, rfl, by simp⟩
      obtain ⟨reply, _, rfl, hreply⟩ := ran_fs hread
      obtain rfl : reply = .ok chunk := by
        cases reply with
        | error _ => cases hreply
        | ok value => rw [Except.ok.inj hreply]
      split at hlater
      · rename_i hempty
        obtain ⟨rfl, rfl⟩ := Ran.of_pure hlater
        subst hempty
        exact ⟨rfl, rfl, by simp [readBytes, readOf]⟩
      · split at hlater
        · obtain ⟨rfl, rfl⟩ := Ran.of_throw hlater
          exact ⟨rfl, rfl, by simp⟩
        · obtain ⟨hsource, hwritten, hall⟩ := ih hlater
          have hreads : readBytes ([⟨.read loc path bytes.length bufferSize, .ok chunk⟩] ++ later) =
              chunk ++ readBytes later := rfl
          refine ⟨hsource, hwritten, ?_⟩
          intro all hresult
          rw [hreads]
          exact (hall all hresult).trans (List.append_assoc ..)

end Loops

/-! ## The functions -/

section Functions

variable {store : ModelStore} {loc : Loc} {artifact : Artifact}
  {obeys : (op : FsOp) → op.Reply → Prop} {events : List FsEvent}

/-- The part of `verify_contained_artifact` after the file is open. -/
theorem verify_opened_ran {result : Except Error Bool}
    (h : Ran WithinBuffer
      (verifyOpened store loc artifact isCancelRequested).run events result) :
    (readBytes events).length ≤ artifact.size.toNat + 1 ∧
      (result = .ok true → (readBytes events).length = artifact.size.toNat ∧
        store.ext.sha256 (readBytes events) = artifact.sha256 ∧
        ReadsToEnd loc artifact.relative events) := by
  rcases Ran.of_bind_e h with ⟨error, rfl, hcheck⟩ | ⟨_, later, _, rfl, hcheck, hlater⟩
  · obtain ⟨rfl, _⟩ := ran_fail_if hcheck
    exact ⟨by simp, by simp⟩
  obtain ⟨rfl, _⟩ := ran_fail_if hcheck
  rcases Ran.of_bind_e hlater with ⟨error, rfl, hloop⟩ | ⟨reads, rest, found, rfl, hloop, hrest⟩
  · obtain ⟨hbound, _⟩ := hash_loop_ran hloop (Nat.zero_le _)
    exact ⟨by simpa using hbound, by simp⟩
  obtain ⟨hbound, hend⟩ := hash_loop_ran hloop (Nat.zero_le _)
  rw [List.length_nil, Nat.zero_add] at hbound
  cases found with
  | none =>
      obtain ⟨rfl, rfl⟩ := Ran.of_pure hrest
      exact ⟨by simpa using hbound, by simp⟩
  | some bytes =>
      obtain ⟨hbytes, before, limit, hlimit, hreads⟩ := hend bytes rfl
      rw [List.nil_append] at hbytes
      rcases Ran.of_bind_e hrest with ⟨error, rfl, hmeta⟩ | ⟨looks, _, final, rfl, hmeta, hdone⟩
      · have hlooks := read_bytes_congr (still_moved (only_path_metadata rfl) hmeta)
        exact ⟨by simpa [hlooks] using hbound, by simp⟩
      · have hlooks := read_bytes_congr (still_moved (only_path_metadata rfl) hmeta)
        obtain ⟨rfl, rfl⟩ := Ran.of_pure hdone
        have hall : readBytes ([] ++ (reads ++ (looks ++ []))) = bytes := by
          simp [hlooks, hbytes]
        rw [hall]
        refine ⟨by rw [hbytes]; exact hbound, ?_⟩
        intro haccepts
        have hfacts := Except.ok.inj haccepts
        simp only [Bool.and_eq_true, decide_eq_true_eq] at hfacts
        obtain ⟨⟨_, hlength⟩, hdigest⟩ := hfacts
        refine ⟨hlength, hdigest, before, looks, limit, hlimit, hlooks, ?_⟩
        have hbefore : readBytes before = bytes := by
          rw [hbytes, hreads]
          simp [readBytes, readOf]
        rw [hbefore, hreads]
        simp

/-- `verify_contained_artifact` reads at most one byte more than declared, and what it accepts are
the bytes before the end of the file. -/
theorem verify_contained_artifact_ran {result : Except Error Bool}
    (h : Ran WithinBuffer
      (verifyContainedArtifact store loc artifact isCancelRequested).run events result) :
    (readBytes events).length ≤ artifact.size.toNat + 1 ∧
      (result = .ok true → (readBytes events).length = artifact.size.toNat ∧
        store.ext.sha256 (readBytes events) = artifact.sha256 ∧
        ReadsToEnd loc artifact.relative events) := by
  rcases Ran.of_bind_e h with ⟨error, rfl, hopen⟩ | ⟨opens, later, opened, rfl, hopen, hlater⟩
  · obtain ⟨_, hnever, _⟩ := ran_attempt hopen
    cases hnever
  obtain ⟨inner, hinner, hopen⟩ := ran_attempt hopen
  have hnone := read_bytes_congr (still_moved open_contained_regular_file_still hopen)
  rw [read_bytes_append, hnone, read_bytes_nil, List.nil_append]
  split at hlater
  · obtain ⟨rfl, rfl⟩ := Ran.of_pure hlater
    exact ⟨by simp, by simp⟩
  · obtain ⟨rfl, rfl⟩ := Ran.of_pure hlater
    exact ⟨by simp, by simp⟩
  · obtain ⟨rfl, rfl⟩ := Ran.of_throw hlater
    exact ⟨by simp, by simp⟩
  · obtain ⟨hbound, haccepts⟩ := verify_opened_ran hlater
    refine ⟨hbound, ?_⟩
    intro hresult
    obtain ⟨hlength, hdigest, before, after, limit, hlimit, hafter, hsplit⟩ := haccepts hresult
    refine ⟨hlength, hdigest, opens ++ before, after, limit, hlimit, hafter, ?_⟩
    rw [hsplit, read_bytes_append, hnone, read_bytes_nil, List.nil_append, List.append_assoc]

/-- What reading the staged file again accounts for: nothing is written, and what was read has the
declared size and digest if it succeeds. -/
def Reread (store : ModelStore) (artifact : Artifact) (read source written : List UInt8)
    (result : Except Error Unit) : Prop :=
  source = [] ∧ written = [] ∧
    (result = .ok () → read.length = artifact.size.toNat ∧ store.ext.sha256 read = artifact.sha256)

theorem reread_error (error : Error) : Reread store artifact [] [] [] (.error error) := by
  simp [Reread]

/-- The second half of `copy_import_artifact` writes nothing. If it succeeds, the bytes it read
again from staging have the declared size and digest. -/
theorem reread_staged_ran {result : Except Error Unit}
    (h : Ran obeys (rereadStaged store loc artifact).run events result) :
    Reread store artifact (readBytes events) (sourceBytes events) (writtenBytes events) result := by
  refine still_then (stable_import_destination_error_still securely_open_existing_file_still) h
    reread_error fun _ _ h => ?_
  refine still_then (only_path_metadata rfl) h reread_error fun _ _ h => ?_
  refine still_then (only_fail_if _ _) h reread_error fun _ later h => ?_
  unfold Reread
  rcases Ran.of_bind_e h with ⟨error, rfl, hloop⟩ | ⟨reads, rest, bytes, rfl, hloop, hcheck⟩
  · obtain ⟨hsource, hwritten, _⟩ := reread_loop_ran hloop
    exact ⟨hsource, hwritten, by simp⟩
  obtain ⟨hsource, hwritten, hbytes⟩ := reread_loop_ran hloop
  obtain rfl := hbytes bytes rfl
  obtain ⟨rfl, hpasses⟩ := ran_fail_if hcheck
  rw [List.append_nil, List.nil_append] at *
  refine ⟨hsource, hwritten, ?_⟩
  rintro rfl
  obtain ⟨_, hnever⟩ | ⟨hgood, _⟩ := hpasses
  · cases hnever
  · obtain ⟨hlength, hdigest⟩ := not_or.mp hgood
    exact ⟨not_not.mp hlength, not_not.mp hdigest⟩

/-- What an import of an artifact accounts for: at most as much is written as declared, and if it
succeeds, the bytes that were copied and the bytes that were read again from staging both have the
declared size and digest. -/
def Copied (store : ModelStore) (artifact : Artifact) (read source written : List UInt8)
    (result : Except Error Unit) : Prop :=
  written.length ≤ artifact.size.toNat ∧
    (result = .ok () → written = source ∧ source.length = artifact.size.toNat ∧
      store.ext.sha256 source = artifact.sha256 ∧ read.length = artifact.size.toNat ∧
      store.ext.sha256 read = artifact.sha256)

theorem copied_error (error : Error) : Copied store artifact [] [] [] (.error error) := by
  simp [Copied]

/-- `copy_import_artifact` writes at most as much as declared. If it succeeds, the bytes it copied
and the bytes it read again from staging both have the declared size and digest. -/
theorem copy_import_artifact_ran {result : Except Error Unit}
    (h : Ran obeys (copyImportArtifact store loc artifact).run events result) :
    Copied store artifact (readBytes events) (sourceBytes events) (writtenBytes events) result := by
  -- up to the copy nothing is moved
  refine still_then (only_fs rfl) h copied_error fun _ _ h => ?_
  refine still_then (only_fail_if _ _) h copied_error fun _ _ h => ?_
  refine still_then (only_fail_if _ _) h copied_error fun _ _ h => ?_
  refine still_then (stable_import_destination_error_still create_new_contained_file_still) h
    copied_error fun _ copying h => ?_
  unfold Copied
  rcases Ran.of_bind_e h with ⟨error, rfl, hloop⟩ | ⟨copies, later, copied, rfl, hloop, h⟩
  · obtain ⟨hbound, _, _⟩ := copy_loop_ran hloop (Nat.zero_le _)
    exact ⟨by simpa using hbound, by simp⟩
  obtain ⟨hbound, hnone, hcopied⟩ := copy_loop_ran hloop (Nat.zero_le _)
  obtain ⟨heq, hsame⟩ := hcopied copied rfl
  rw [List.length_nil, Nat.zero_add] at hbound
  rw [List.nil_append] at heq
  simp only [read_bytes_append, source_bytes_append, written_bytes_append, hnone, List.nil_append]
  -- after it, only the staged file is read
  obtain ⟨afterSync, hmoved, ⟨error, rfl, rfl⟩ | ⟨_, h⟩⟩ :=
    still_bind (only_fs rfl) h
  · exact ⟨by rw [written_bytes_congr hmoved]; simpa using hbound, by simp⟩
  rw [read_bytes_congr hmoved, source_bytes_congr hmoved, written_bytes_congr hmoved]
  clear hmoved
  rcases Ran.of_bind_e h with ⟨error, rfl, hcheck⟩ | ⟨_, afterLength, _, rfl, hcheck, hlater⟩
  · obtain ⟨rfl, _⟩ := ran_fail_if hcheck
    exact ⟨by simpa using hbound, by simp⟩
  obtain ⟨rfl, ⟨_, hnever⟩ | ⟨hlength, _⟩⟩ := ran_fail_if hcheck
  · cases hnever
  rcases Ran.of_bind_e hlater with ⟨error, rfl, hcheck⟩ | ⟨_, rest, _, rfl, hcheck, hrest⟩
  · obtain ⟨rfl, _⟩ := ran_fail_if hcheck
    exact ⟨by simpa using hbound, by simp⟩
  obtain ⟨rfl, ⟨_, hnever⟩ | ⟨hdigest, _⟩⟩ := ran_fail_if hcheck
  · cases hnever
  obtain ⟨hsource, hwritten, hreread⟩ := reread_staged_ran hrest
  simp only [List.nil_append, hsource, hwritten, List.append_nil]
  refine ⟨hbound, ?_⟩
  intro hresult
  rw [← heq]
  exact ⟨hsame.trans heq.symm, not_not.mp hlength, not_not.mp hdigest, hreread hresult⟩

end Functions

/-! ## A file that stays as it is -/

section Unchanged

variable {store : ModelStore} {loc : Loc} {path : RelPath} {content : List UInt8}
  {events : List FsEvent}

/-- What is answered as long as nobody cancels, nothing fails, and a file and the directories above
it stay as they are. A read may return less than was asked for. -/
def Serves (loc : Loc) (path : RelPath) (content : List UInt8) : (op : FsOp) → op.Reply → Prop
  | .poll, reply => reply = .ok false
  | .metadata other, reply => other = loc → reply = .ok (some .dir)
  | .openDir other part, reply =>
      other = loc → part = [] ∨ part ∈ parentDirectories path → reply = .ok ()
  | .makeDir other part, reply =>
      other = loc → part ∈ parentDirectories path → reply = .error .alreadyExists
  | .openFile other part, reply => other = loc → part = path → reply = .ok ()
  | .fileMetadata other part, reply => other = loc →
      (part ∈ parentDirectories path → reply = .ok (some (.dir, 0))) ∧
        (part = path → reply = .ok (some (.file, content.length)))
  | .read other part offset limit, reply => other = loc → part = path →
      ∃ count, 0 < count ∧ reply = .ok ((content.drop offset).take (min limit count))
  | _, _ => True

/-- Any state of the cache in which the file is there answers so. -/
theorem serves_respond {choice : Choice} {s : Cache} (hfault : choice.fault = .none)
    (hflag : choice.flag = false) (hreach : Reachable loc path content s) (op : FsOp) :
    Serves loc path content op (respond choice s op).1 := by
  have hroot : s.node loc [] = some .dir := hreach.2.root
  obtain ⟨tree, htree⟩ : ∃ tree, s.tree loc = some tree := by
    cases htree : s.tree loc with
    | none => simp [Cache.node, htree] at hroot
    | some tree => exact ⟨tree, rfl⟩
  have hperform : respond choice s op = s.perform choice op := by
    unfold respond
    rw [hfault]
  rw [hperform]
  cases op with
  | poll => exact congrArg Except.ok hflag
  | metadata other =>
      rintro rfl
      simp [Cache.perform, Cache.tree_eq_some.mp htree, Entry.kind]
  | openDir other part =>
      rintro rfl hpart
      have hdir : s.node other part = some .dir := by
        rcases hpart with rfl | hparent
        · exact hroot
        · exact hreach.1 part hparent
      simp [Cache.perform, hdir]
  | makeDir other part =>
      rintro rfl hparent
      have hdir := hreach.1 part hparent
      simp [Cache.perform, Cache.addNode, htree, hdir]
  | openFile other part =>
      rintro rfl rfl
      have hfile : s.node other part = some (.file content) := hreach.2
      simp [Cache.perform, hfile]
  | fileMetadata other part =>
      rintro rfl
      constructor
      · intro hparent
        have hdir := hreach.1 part hparent
        simp [Cache.perform, hdir, Node.kind, Node.length]
      · rintro rfl
        have hfile : s.node other part = some (.file content) := hreach.2
        simp [Cache.perform, hfile, Node.kind, Node.length]
  | read other part offset limit =>
      rintro rfl rfl
      exact ⟨choice.amount + 1, Nat.succ_pos _, perform_read hreach.2 choice offset limit⟩
  | _ => trivial

theorem reject_reparse_paths_serves {paths : List RelPath}
    (hpaths : ∀ part ∈ paths, part ∈ parentDirectories path ∨ part = path)
    {result : Except Error Unit}
    (h : Ran (Serves loc path content) (rejectReparsePaths loc paths).run events result) :
    result = .ok () := by
  induction paths generalizing events with
  | nil => exact (Ran.of_pure h).2
  | cons first rest ih =>
      have hknown : ∀ reply, Serves loc path content (.fileMetadata loc first) reply →
          ∃ kind length, reply = .ok (some (kind, length)) ∧ kind ≠ .link := by
        intro reply hreply
        rcases hpaths first List.mem_cons_self with hparent | rfl
        · exact ⟨.dir, 0, (hreply rfl).1 hparent, by simp⟩
        · exact ⟨.file, content.length, (hreply rfl).2 rfl, by simp⟩
      rcases Ran.of_bind_e h with ⟨error, rfl, hlook⟩ | ⟨_, later, found, rfl, hlook, hlater⟩
      · obtain ⟨reply, hreply, rfl, herror⟩ := ran_fs hlook
        obtain ⟨kind, length, rfl, _⟩ := hknown reply hreply
        cases herror
      · obtain ⟨reply, hreply, rfl, hfound⟩ := ran_fs hlook
        obtain ⟨kind, length, rfl, hkind⟩ := hknown reply hreply
        obtain rfl := Except.ok.inj hfound
        split at hlater
        · rename_i heq
          exact absurd (congrArg Prod.fst (Option.some.inj heq)) hkind
        · exact ih (fun part hpart => hpaths part (List.mem_cons_of_mem _ hpart)) hlater
        · rename_i hnone
          cases hnone

theorem reject_reparse_components_serves {result : Except Error Unit}
    (h : Ran (Serves loc path content) (rejectReparseComponents loc path).run events result) :
    result = .ok () := by
  rcases Ran.of_bind_e h with ⟨error, rfl, hroot⟩ | ⟨_, later, _, rfl, hroot, hlater⟩
  · rcases Ran.of_bind_e hroot with ⟨_, _, hlook⟩ | ⟨_, rest, found, rfl, hlook, hrest⟩
    · obtain ⟨reply, hreply, rfl, herror⟩ := ran_fs hlook
      obtain rfl := hreply rfl
      cases herror
    · obtain ⟨reply, hreply, rfl, hfound⟩ := ran_fs hlook
      obtain rfl := hreply rfl
      obtain rfl := Except.ok.inj hfound
      exact (Ran.of_pure hrest).2
  · exact reject_reparse_paths_serves (fun part hpart => mem_inits_tail hpart) hlater

theorem open_directories_serves {paths : List RelPath} (hpaths : paths ⊆ parentDirectories path)
    {result : Except Error Unit}
    (h : Ran (Serves loc path content) (openDirectories loc paths).run events result) :
    result = .ok () := by
  induction paths generalizing events with
  | nil => exact (Ran.of_pure h).2
  | cons first rest ih =>
      have hparent := hpaths List.mem_cons_self
      have hensure : ∀ {made : List FsEvent} {outcome : Except Error Unit},
          Ran (Serves loc path content) (ensureDirectory loc first).run made outcome →
            outcome = .ok () := by
        intro made outcome hran
        rcases Ran.of_bind_e hran with ⟨_, _, hmake⟩ | ⟨_, later, inner, rfl, hmake, hlater⟩
        · obtain ⟨_, hnever, _⟩ := ran_attempt hmake
          cases hnever
        · obtain ⟨_, hinner, hmake⟩ := ran_attempt hmake
          obtain rfl := Except.ok.inj hinner
          obtain ⟨reply, hreply, rfl, rfl⟩ := ran_fs hmake
          obtain rfl := hreply rfl hparent
          exact (Ran.of_pure hlater).2
      rcases Ran.of_bind_e h with ⟨error, rfl, hfirst⟩ | ⟨_, later, _, rfl, hfirst, hlater⟩
      · exact hensure hfirst
      rcases Ran.of_bind_e hlater with ⟨error, rfl, hopen⟩ | ⟨_, others, _, rfl, hopen, hothers⟩
      · obtain ⟨reply, hreply, rfl, herror⟩ := ran_fs hopen
        obtain rfl := hreply rfl (.inr hparent)
        cases herror
      · exact ih (fun part hpart => hpaths (List.mem_cons_of_mem _ hpart)) hothers

theorem securely_open_existing_file_serves {result : Except Error Unit}
    (h : Ran (Serves loc path content) (securelyOpenExistingFile loc path).run events result) :
    result = .ok () := by
  rcases Ran.of_bind_e h with ⟨error, rfl, hparent⟩ | ⟨_, later, _, rfl, hparent, hlater⟩
  · rcases Ran.of_bind_e hparent with ⟨_, _, hroot⟩ | ⟨_, rest, _, rfl, hroot, hrest⟩
    · obtain ⟨reply, hreply, rfl, herror⟩ := ran_fs hroot
      obtain rfl := hreply rfl (.inl rfl)
      cases herror
    · exact open_directories_serves (List.Subset.refl _) hrest
  · obtain ⟨reply, hreply, rfl, rfl⟩ := ran_fs hlater
    obtain rfl := hreply rfl rfl
    rfl

theorem path_metadata_serves {result : Except Error (FileKind × Nat)}
    (h : Ran (Serves loc path content) (pathMetadata loc path).run events result) :
    result = .ok (.file, content.length) := by
  rcases Ran.of_bind_e h with ⟨error, rfl, hlook⟩ | ⟨_, later, found, rfl, hlook, hlater⟩
  · obtain ⟨reply, hreply, rfl, herror⟩ := ran_fs hlook
    obtain rfl := (hreply rfl).2 rfl
    cases herror
  · obtain ⟨reply, hreply, rfl, hfound⟩ := ran_fs hlook
    obtain rfl := (hreply rfl).2 rfl
    obtain rfl := Except.ok.inj hfound
    exact (Ran.of_pure hlater).2

/-- The file can be opened, and the length is compared. -/
theorem open_contained_regular_file_serves {size : Nat} {result : Except Error Unit}
    (h : Ran (Serves loc path content) (openContainedRegularFile loc path size).run events
      result) :
    content.length = size ∧ result = .ok () ∨
      content.length ≠ size ∧ ∃ message, result = .error (.invalid message) := by
  rcases Ran.of_bind_e h with ⟨error, rfl, hreject⟩ | ⟨_, later, _, rfl, hreject, hlater⟩
  · cases reject_reparse_components_serves hreject
  rcases Ran.of_bind_e hlater with ⟨error, rfl, hopen⟩ | ⟨_, rest, _, rfl, hopen, hrest⟩
  · cases securely_open_existing_file_serves hopen
  rcases Ran.of_bind_e hrest with ⟨error, rfl, hmeta⟩ | ⟨_, _, metadata, rfl, hmeta, hcheck⟩
  · cases path_metadata_serves hmeta
  obtain rfl := Except.ok.inj (path_metadata_serves hmeta)
  obtain ⟨_, ⟨hbad, rfl⟩ | ⟨hgood, rfl⟩⟩ := ran_fail_if hcheck
  · refine .inr ⟨?_, _, rfl⟩
    simpa using hbad
  · refine .inl ⟨?_, rfl⟩
    simpa using hgood

/-- The loop reads the whole file, however the reads are split. -/
theorem hash_loop_serves {size fuel : Nat} {bytes : List UInt8}
    {result : Except Error (Option (List UInt8))}
    (h : Ran (Serves loc path content)
      (hashLoop loc path size isCancelRequested fuel bytes).run events result)
    (hbytes : bytes <+: content) (hsize : content.length = size)
    (hfuel : size + 2 ≤ fuel + bytes.length) : result = .ok (some content) := by
  have hlength := hbytes.length_le
  have hshort : bytes.length ≤ size := by omega
  induction fuel generalizing bytes events with
  | zero => omega
  | succ fuel ih =>
      have hlimit := read_limit_pos hshort
      cases hash_loop_round h hshort with
      | stopped hpoll hstop => exact absurd hpoll hstop
      | failed hread =>
          obtain ⟨_, _, hnever⟩ := hread rfl rfl
          cases hnever
      | ended hread =>
          obtain ⟨count, hcount, hpiece⟩ := hread rfl rfl
          rw [prefix_eq_of_drop hbytes (Nat.lt_min.mpr ⟨hlimit, hcount⟩)
            (Except.ok.inj hpiece).symm]
      | @tooLong chunk hread hlong =>
          obtain ⟨count, _, hpiece⟩ := hread rfl rfl
          have hextended := (prefix_append_take hbytes (min (readLimit size bytes) count)).length_le
          rw [← Except.ok.inj hpiece, List.length_append] at hextended
          omega
      | @more chunk rest _ hread hchunk hfits hrest =>
          obtain ⟨count, _, hpiece⟩ := hread rfl rfl
          have hextended := prefix_append_take hbytes (min (readLimit size bytes) count)
          rw [← Except.ok.inj hpiece] at hextended
          have hpos := List.length_pos_iff.mpr hchunk
          refine ih hrest hextended ?_ hextended.length_le ?_ <;>
            rw [List.length_append] <;> omega

/-- `verify_contained_artifact` accepts a file that stays as it is exactly if its size and digest
are the declared ones. -/
theorem verify_contained_artifact_serves {artifact : Artifact} {result : Except Error Bool}
    (h : Ran (Serves loc artifact.relative content)
      (verifyContainedArtifact store loc artifact isCancelRequested).run events result)
    (hoffset : content.length + 1 < 2 ^ wordBits) :
    result = .ok true ↔
      content.length = artifact.size.toNat ∧ store.ext.sha256 content = artifact.sha256 := by
  rcases Ran.of_bind_e h with ⟨error, rfl, hopen⟩ | ⟨_, later, opened, rfl, hopen, hlater⟩
  · obtain ⟨_, hnever, _⟩ := ran_attempt hopen
    cases hnever
  obtain ⟨inner, hinner, hopen⟩ := ran_attempt hopen
  obtain rfl := Except.ok.inj hinner
  obtain ⟨hsize, rfl⟩ | ⟨hsize, message, rfl⟩ := open_contained_regular_file_serves hopen
  · rcases Ran.of_bind_e hlater with ⟨error, rfl, hcheck⟩ | ⟨_, rest, _, rfl, hcheck, hrest⟩
    · obtain ⟨_, ⟨hover, _⟩ | ⟨_, hnever⟩⟩ := ran_fail_if hcheck
      · omega
      · cases hnever
    rcases Ran.of_bind_e hrest with ⟨error, rfl, hloop⟩ | ⟨_, last, found, rfl, hloop, hlast⟩
    · cases hash_loop_serves hloop List.nil_prefix hsize (by simp)
    obtain rfl := Except.ok.inj (hash_loop_serves hloop List.nil_prefix hsize (by simp))
    rcases Ran.of_bind_e hlast with ⟨error, rfl, hmeta⟩ | ⟨_, _, final, rfl, hmeta, hdone⟩
    · cases path_metadata_serves hmeta
    obtain rfl := Except.ok.inj (path_metadata_serves hmeta)
    obtain ⟨_, rfl⟩ := Ran.of_pure hdone
    simp [hsize]
  · obtain ⟨_, rfl⟩ := Ran.of_pure hlater
    simp [hsize]

end Unchanged

/-- Streaming verification and import. The loops end by themselves: more rounds than the model
gives them change nothing. Whatever the reads return, `verify_contained_artifact` reads at most one
byte more than declared and accepts only if the bytes before the end of the file have the declared
size and digest. If every primitive finds the same file and nobody cancels, it accepts exactly if
the content has them, whatever parts the reads return; a file offset has 63 bits, so no file has
`u64::MAX` bytes. `copy_import_artifact` writes at most the declared size, and succeeds only if the
bytes it copied and the bytes it read again from staging have the declared size and digest. -/
theorem streaming_verification (store : ModelStore) (loc : Loc) (artifact : Artifact) :
    (∀ more,
      hashLoop loc artifact.relative artifact.size.toNat isCancelRequested
          (artifact.size.toNat + 2 + more) [] =
        hashLoop loc artifact.relative artifact.size.toNat isCancelRequested
          (artifact.size.toNat + 2) [] ∧
      copyLoop loc artifact.relative artifact.size.toNat (artifact.size.toNat + 2 + more) [] =
        copyLoop loc artifact.relative artifact.size.toNat (artifact.size.toNat + 2) [] ∧
      rereadLoop loc artifact.relative artifact.size.toNat (artifact.size.toNat + 2 + more) [] =
        rereadLoop loc artifact.relative artifact.size.toNat (artifact.size.toNat + 2) []) ∧
    (∀ answers : Nat → (op : FsOp) → op.Reply, (∀ n op, WithinBuffer op (answers n op)) →
      let run := play answers
        (verifyContainedArtifact store loc artifact isCancelRequested).run
      (readBytes run.1).length ≤ artifact.size.toNat + 1 ∧
        (run.2 = .ok true → (readBytes run.1).length = artifact.size.toNat ∧
          store.ext.sha256 (readBytes run.1) = artifact.sha256 ∧
          ReadsToEnd loc artifact.relative run.1)) ∧
    (∀ (content : List UInt8) (choices : Nat → Choice) (states : Nat → Cache),
      content.length + 1 < 2 ^ wordBits →
      (∀ n, (choices n).fault = .none ∧ (choices n).flag = false ∧
        Reachable loc artifact.relative content (states n)) →
      let run := play (fun n op => (respond (choices n) (states n) op).1)
        (verifyContainedArtifact store loc artifact isCancelRequested).run
      (run.2 = .ok true ↔
        content.length = artifact.size.toNat ∧ store.ext.sha256 content = artifact.sha256)) ∧
    (∀ answers : Nat → (op : FsOp) → op.Reply,
      let run := play answers (copyImportArtifact store loc artifact).run
      (writtenBytes run.1).length ≤ artifact.size.toNat ∧
        (run.2 = .ok () → writtenBytes run.1 = sourceBytes run.1 ∧
          (sourceBytes run.1).length = artifact.size.toNat ∧
          store.ext.sha256 (sourceBytes run.1) = artifact.sha256 ∧
          (readBytes run.1).length = artifact.size.toNat ∧
          store.ext.sha256 (readBytes run.1) = artifact.sha256)) := by
  refine ⟨?_, ?_, ?_, ?_⟩
  · intro more
    exact ⟨hash_loop_rounds _ more (Nat.zero_le _) (Nat.le_add_right _ _),
      copy_loop_rounds more (Nat.zero_le _) (Nat.le_add_right _ _),
      reread_loop_rounds more (Nat.zero_le _) (Nat.le_add_right _ _)⟩
  · intro answers hbuffer
    exact verify_contained_artifact_ran (ran_play hbuffer _)
  · intro content choices states hoffset hsame
    -- Without faults the unchanged file answers every read with its own bytes.
    have hserves : ∀ n op, Serves loc artifact.relative content op
        (respond (choices n) (states n) op).1 := by
      intro n op
      obtain ⟨hfault, hflag, hreach⟩ := hsame n
      exact serves_respond hfault hflag hreach op
    exact verify_contained_artifact_serves (ran_play hserves _) hoffset
  · intro answers
    have hany : ∀ n op, AnyReply op (answers n op) := fun _ _ => trivial
    exact copy_import_artifact_ran (ran_play hany _)

/-- A tree with the artifact of the fixture. -/
def artifactFixture : Cache :=
  { Cache.empty with
    dirs := (∅ : AList fun _ : Loc => Entry).insert (.models "k")
      (.dir ⟨0, ((∅ : AList fun _ : RelPath => Node).insert ["weights"] .dir).insert
        ["weights", "model.bin"] (.file [0x61])⟩) }

/-- An artifact that nobody changes while it is read. -/
theorem streaming_verification_unchanged :
    ∀ artifact ∈ Manifest.fixture.artifacts,
      (play (fun _ op => (respond {} artifactFixture op).1)
        (verifyContainedArtifact ⟨.fixture [], [], 7, 0, 0⟩ (.models "k") artifact
          isCancelRequested).run).2 = .ok true := by
  have hparents : ∀ artifact ∈ Manifest.fixture.artifacts,
      parentDirectories artifact.relative = [["weights"]] := by
    decide
  intro artifact hartifact
  have hdirectories : Directories (.models "k") (parentDirectories artifact.relative)
      artifactFixture := by
    intro path hpath
    rw [hparents artifact hartifact, List.mem_singleton] at hpath
    subst hpath
    decide
  obtain rfl := List.mem_singleton.mp hartifact
  refine ((streaming_verification ⟨.fixture [], [], 7, 0, 0⟩ (.models "k") _).2.2.1 [0x61]
    (fun _ => {}) (fun _ => artifactFixture) (by decide) fun _ =>
      ⟨rfl, rfl, hdirectories, ?_⟩).mpr ⟨rfl, by decide⟩
  unfold HasFile
  decide

end EmbeddingServer
