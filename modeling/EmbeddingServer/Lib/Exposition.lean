import EmbeddingServer.Lib.Lines
import Mathlib.Data.List.TakeDrop

/-!
# Text exposition of samples

A page is a sequence of terminated lines: comments, and samples with a series and a value between
which there is one space. `read_write` says that a reader who skips comments gets the samples back.
-/

namespace Exposition

/-- A sample: the texts of its series and of its value. -/
structure Sample where
  series : List Char
  value : List Char
  deriving DecidableEq, Repr

/-- A line of a page. -/
inductive Line where
  | comment (text : List Char)
  | sample (entry : Sample)
  deriving DecidableEq, Repr

/-- The text of a line, without its terminator. -/
def Line.write : Line → List Char
  | .comment text => '#' :: text
  | .sample entry => entry.series ++ ' ' :: entry.value

/-- The text of a page. -/
def write (lines : List Line) : List Char :=
  lines.flatMap fun line => line.write ++ ['\n']

/-- The sample on a line, if it is no comment. -/
def Line.sample? : Line → Option Sample
  | .comment _ => none
  | .sample entry => some entry

/-- Read the text of a line. -/
def readLine (line : List Char) : Option Sample :=
  if line.head? = some '#' then none
  else some ⟨line.takeWhile (· ≠ ' '), (line.dropWhile (· ≠ ' ')).drop 1⟩

/-- Read the samples of a page. -/
def read (page : List Char) : List Sample :=
  (Lines.split '\n' page).filterMap readLine

/-- The value of a series on a page. -/
def lookup (page : List Char) (series : List Char) : Option (List Char) :=
  ((read page).find? fun sample => sample.series = series).map Sample.value

/-- A text for a name: not empty, no comment, without spaces and line ends. -/
structure Name (text : List Char) : Prop where
  nonempty : text ≠ []
  not_comment : text.head? ≠ some '#'
  no_space : ' ' ∉ text
  no_newline : '\n' ∉ text

/-- A line that can be read. -/
def Line.Readable : Line → Prop
  | .comment text => '\n' ∉ text
  | .sample entry => Name entry.series ∧ '\n' ∉ entry.value

/-- A readable line has no line end. -/
theorem Line.Readable.no_newline {line : Line} (h : line.Readable) : '\n' ∉ line.write := by
  cases line with
  | comment text =>
      have htext : '\n' ∉ text := h
      show '\n' ∉ '#' :: text
      rw [List.mem_cons, not_or]
      exact ⟨by decide, htext⟩
  | sample entry =>
      have hentry : Name entry.series ∧ '\n' ∉ entry.value := h
      show '\n' ∉ entry.series ++ ' ' :: entry.value
      rw [List.mem_append, List.mem_cons, not_or, not_or]
      exact ⟨hentry.1.no_newline, by decide, hentry.2⟩

/-- A name reaches up to the first space. -/
theorem span_name {name rest : List Char} (h : ' ' ∉ name) :
    (name ++ ' ' :: rest).takeWhile (· ≠ ' ') = name ∧
      (name ++ ' ' :: rest).dropWhile (· ≠ ' ') = ' ' :: rest := by
  have hname : ∀ c ∈ name, decide (c ≠ ' ') = true := by
    intro c hc
    rw [decide_eq_true_eq]
    intro heq
    exact h (heq ▸ hc)
  rw [List.takeWhile_append_of_pos hname, List.dropWhile_append_of_pos hname]
  exact ⟨List.append_nil name, rfl⟩

/-- A readable line is read. -/
theorem read_line_write {line : Line} (h : line.Readable) : readLine line.write = line.sample? := by
  cases line with
  | comment text => rfl
  | sample entry =>
      have hname : Name entry.series := h.1
      have hspan := @span_name _ entry.value hname.no_space
      have hhead : (entry.series ++ ' ' :: entry.value).head? = entry.series.head? := by
        cases hseries : entry.series with
        | nil => exact absurd hseries hname.nonempty
        | cons c rest => rfl
      show readLine (entry.series ++ ' ' :: entry.value) = some entry
      unfold readLine
      rw [hhead, if_neg hname.not_comment, hspan.1, hspan.2]
      rfl

/-- The samples of a page are read back. -/
theorem read_write {lines : List Line} (h : ∀ line ∈ lines, line.Readable) :
    read (write lines) = lines.filterMap Line.sample? := by
  have hsplit : Lines.split '\n' (write lines) = lines.map Line.write := by
    have hbodies : ∀ body ∈ lines.map Line.write, '\n' ∉ body := by
      intro body hbody
      obtain ⟨line, hline, rfl⟩ := List.mem_map.mp hbody
      exact (h line hline).no_newline
    rw [← Lines.split_joined hbodies, List.flatMap_map]
    rfl
  unfold read
  rw [hsplit, List.filterMap_map]
  exact List.filterMap_congr fun line hline => read_line_write (h line hline)

/-- A series that occurs once has the value of its sample. -/
theorem lookup_write {lines : List Line} (h : ∀ line ∈ lines, line.Readable)
    (hdistinct : ((lines.filterMap Line.sample?).map Sample.series).Nodup) {sample : Sample}
    (hmem : Line.sample sample ∈ lines) :
    lookup (write lines) sample.series = some sample.value := by
  have hread : sample ∈ lines.filterMap Line.sample? :=
    List.mem_filterMap.mpr ⟨.sample sample, hmem, rfl⟩
  have hfound : (lines.filterMap Line.sample?).find?
      (fun other => other.series = sample.series) = some sample := by
    generalize lines.filterMap Line.sample? = samples at hdistinct hread
    induction samples with
    | nil => cases hread
    | cons first rest ih =>
        rw [List.map_cons, List.nodup_cons] at hdistinct
        rw [List.find?_cons]
        rcases List.mem_cons.mp hread with rfl | hrest
        · rw [decide_eq_true rfl]
        · have hne : first.series ≠ sample.series := by
            intro heq
            exact hdistinct.1 (heq ▸ List.mem_map_of_mem hrest)
          rw [decide_eq_false hne]
          exact ih hdistinct.2 hrest
  unfold lookup
  rw [read_write h, hfound]
  rfl

end Exposition
