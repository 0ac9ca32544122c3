import Mathlib.Data.List.Infix
import Mathlib.Data.List.Pairwise

/-!
# Placing files in a directory

A path is the list of names on the way to a file. `Directory.place` creates the directories on
the way, where one that exists is no error, and then the file, which must be new. Placing a
whole list of paths into an empty directory succeeds exactly when no path of the list is a
beginning of another (`place_all_is_some_iff`). The condition does not depend on the order, so
neither does success.

Names are of any type. A directory that takes two spellings for one name is a directory over
the names as it compares them.
-/

namespace Layout

variable {α β : Type*}

/-- One path is a beginning of the other. -/
def Clash (left right : List α) : Prop :=
  left <+: right ∨ right <+: left

instance [DecidableEq α] (left right : List α) : Decidable (Clash left right) :=
  inferInstanceAs (Decidable (_ ∨ _))

theorem Clash.symm {left right : List α} (h : Clash left right) : Clash right left :=
  Or.symm h

/-- A finer comparison of names makes fewer paths clash. -/
theorem Clash.of_map {f : α → β} {γ : Type*} {g : α → γ} (hfine : ∀ a b, f a = f b → g a = g b)
    {left right : List α} (h : Clash (left.map f) (right.map f)) :
    Clash (left.map g) (right.map g) := by
  have hstart : ∀ left right : List α, left.map f <+: right.map f →
      left.map g <+: right.map g := by
    intro left
    induction left with
    | nil =>
        intro right _
        exact List.nil_prefix
    | cons a left ih =>
        intro right hpre
        cases right with
        | nil => simp at hpre
        | cons b right =>
            rw [List.map_cons, List.map_cons, List.cons_prefix_cons] at hpre ⊢
            exact ⟨hfine a b hpre.1, ih right hpre.2⟩
  exact h.imp (hstart _ _) (hstart _ _)

/-- The directories a path goes through, outermost first. -/
def parents (path : List α) : List (List α) :=
  path.dropLast.inits.tail

/-- The directories on the way are the beginnings of the path other than itself. -/
theorem mem_parents {path parent : List α} :
    parent ∈ parents path ↔ parent ≠ [] ∧ parent <+: path ∧ parent ≠ path := by
  have htail : ∀ l : List α, parent ∈ l.inits.tail ↔ parent ≠ [] ∧ parent <+: l := by
    intro l
    cases l with
    | nil => simp +contextual
    | cons a l =>
        rw [List.inits_cons, List.tail_cons, List.mem_map]
        constructor
        · rintro ⟨rest, hrest, rfl⟩
          exact ⟨List.cons_ne_nil _ _,
            List.cons_prefix_cons.mpr ⟨rfl, (List.mem_inits _ _).mp hrest⟩⟩
        · rintro ⟨hne, hpre⟩
          cases parent with
          | nil => exact absurd rfl hne
          | cons b rest =>
              obtain ⟨rfl, hrest⟩ := List.cons_prefix_cons.mp hpre
              exact ⟨rest, (List.mem_inits _ _).mpr hrest, rfl⟩
  rw [parents, htail]
  refine and_congr_right fun hne => ?_
  cases path using List.reverseRecOn with
  | nil => simp [hne]
  | append_singleton path last =>
      rw [List.dropLast_concat, List.prefix_concat_iff]
      constructor
      · intro hpre
        refine ⟨.inr hpre, ?_⟩
        rintro rfl
        have hlength := hpre.length_le
        rw [List.length_append, List.length_singleton] at hlength
        omega
      · rintro ⟨heq | hpre, hneq⟩
        · exact absurd heq hneq
        · exact hpre

/-- The files and directories below a directory, which is itself there. -/
structure Directory (α : Type*) where
  files : List (List α)
  dirs : List (List α)
  deriving DecidableEq

namespace Directory

/-- A directory with nothing in it. -/
def empty : Directory α :=
  ⟨[], []⟩

/-- The directory holds the listed files, and the directories on the way to them. -/
structure Holds (d : Directory α) (placed : List (List α)) : Prop where
  files : ∀ path, path ∈ d.files ↔ path ∈ placed
  dirs : ∀ path, path ∈ d.dirs ↔ ∃ file ∈ placed, path ∈ parents file
  nonempty : [] ∉ placed

theorem holds_empty : (empty : Directory α).Holds [] :=
  ⟨by simp [empty], by simp [empty], by simp⟩

variable [DecidableEq α]

/-- Create each directory unless it exists; a file in its place is an error. -/
def makeDirectories (d : Directory α) : List (List α) → Option (Directory α)
  | [] => some d
  | path :: rest =>
      if path ∈ d.files then none
      else makeDirectories { d with dirs := path :: d.dirs } rest

/-- Create a file at a free path. -/
def create (d : Directory α) (path : List α) : Option (Directory α) :=
  if path = [] ∨ path ∈ d.files ∨ path ∈ d.dirs then none
  else some { d with files := path :: d.files }

/-- Create a file and the directories on the way to it. -/
def place (d : Directory α) (path : List α) : Option (Directory α) :=
  (d.makeDirectories (parents path)).bind fun d => d.create path

/-- Place the files of a list one after the other. -/
def placeAll (d : Directory α) : List (List α) → Option (Directory α)
  | [] => some d
  | path :: rest => (d.place path).bind fun d => placeAll d rest

/-- Directories can be created where no file is. -/
theorem make_directories_eq_some_iff {d d' : Directory α} {paths : List (List α)} :
    d.makeDirectories paths = some d' ↔
      (∀ path ∈ paths, path ∉ d.files) ∧ d' = { d with dirs := paths.reverse ++ d.dirs } := by
  induction paths generalizing d with
  | nil => simp [makeDirectories, eq_comm]
  | cons path rest ih =>
      by_cases hfile : path ∈ d.files
      · simp [makeDirectories, hfile]
      · simp [makeDirectories, hfile, ih]

/-- A file can be created at a path where nothing is. -/
theorem create_eq_some_iff {d d' : Directory α} {path : List α} :
    d.create path = some d' ↔
      (path ≠ [] ∧ path ∉ d.files ∧ path ∉ d.dirs) ∧ d' = { d with files := path :: d.files } := by
  unfold create
  split
  · rename_i hbad
    simp only [reduceCtorEq, false_iff, not_and]
    rintro ⟨hne, hfile, hdir⟩
    exact absurd hbad (not_or.mpr ⟨hne, not_or.mpr ⟨hfile, hdir⟩⟩)
  · rename_i hgood
    rw [not_or, not_or] at hgood
    simp [hgood, eq_comm]

/-- Placing one list after another. -/
theorem place_all_append {d : Directory α} {first second : List (List α)} :
    d.placeAll (first ++ second) = (d.placeAll first).bind fun d => d.placeAll second := by
  induction first generalizing d with
  | nil => rfl
  | cons path rest ih =>
      rw [List.cons_append, placeAll, placeAll, Option.bind_assoc]
      congr 1
      funext d
      exact ih

/-- A file can be placed exactly where it clashes with none that is there. -/
theorem Holds.place_is_some_iff {d : Directory α} {placed : List (List α)} (h : d.Holds placed)
    {path : List α} :
    (d.place path).isSome ↔ path ≠ [] ∧ ∀ file ∈ placed, ¬ Clash file path := by
  constructor
  · intro hsome
    obtain ⟨d', hplace⟩ := Option.isSome_iff_exists.mp hsome
    rw [place, Option.bind_eq_some_iff] at hplace
    obtain ⟨middle, hmake, hcreate⟩ := hplace
    obtain ⟨hfree, rfl⟩ := make_directories_eq_some_iff.mp hmake
    obtain ⟨⟨hne, hnew, hdirs⟩, _⟩ := create_eq_some_iff.mp hcreate
    rw [List.mem_append, not_or] at hdirs
    obtain ⟨_, hdir⟩ := hdirs
    refine ⟨hne, fun file hfile hclash => ?_⟩
    have hfileNe : file ≠ [] := fun heq => h.nonempty (heq ▸ hfile)
    by_cases heq : file = path
    · exact hnew ((h.files path).mpr (heq ▸ hfile))
    · cases hclash with
      | inl hbefore =>
          exact hfree file (mem_parents.mpr ⟨hfileNe, hbefore, heq⟩) ((h.files file).mpr hfile)
      | inr hbelow =>
          exact hdir ((h.dirs path).mpr
            ⟨file, hfile, mem_parents.mpr ⟨hne, hbelow, Ne.symm heq⟩⟩)
  · rintro ⟨hne, hclash⟩
    have hfree : ∀ parent ∈ parents path, parent ∉ d.files := by
      intro parent hparent hfile
      exact hclash parent ((h.files parent).mp hfile) (.inl (mem_parents.mp hparent).2.1)
    have hguard : path ≠ [] ∧ path ∉ d.files ∧ path ∉ (parents path).reverse ++ d.dirs := by
      rw [List.mem_append, not_or, List.mem_reverse]
      refine ⟨hne, fun hfile => ?_, fun hself => ?_, fun hdir => ?_⟩
      · exact hclash path ((h.files path).mp hfile) (.inl (List.prefix_refl path))
      · exact (mem_parents.mp hself).2.2 rfl
      · obtain ⟨file, hfile, hparent⟩ := (h.dirs path).mp hdir
        exact hclash file hfile (.inr (mem_parents.mp hparent).2.1)
    rw [place, make_directories_eq_some_iff.mpr ⟨hfree, rfl⟩, Option.bind_some,
      create_eq_some_iff.mpr ⟨hguard, rfl⟩]
    rfl

/-- A placed file is one more that the directory holds. -/
theorem Holds.place {d d' : Directory α} {placed : List (List α)} (h : d.Holds placed)
    {path : List α} (hplace : d.place path = some d') : d'.Holds (path :: placed) := by
  have hne : path ≠ [] := (h.place_is_some_iff.mp (by rw [hplace]; rfl)).1
  rw [Directory.place, Option.bind_eq_some_iff] at hplace
  obtain ⟨middle, hmake, hcreate⟩ := hplace
  obtain ⟨_, rfl⟩ := make_directories_eq_some_iff.mp hmake
  obtain ⟨_, rfl⟩ := create_eq_some_iff.mp hcreate
  refine ⟨fun other => ?_, fun other => ?_, ?_⟩
  · rw [List.mem_cons, List.mem_cons, h.files other]
  · rw [List.mem_append, List.mem_reverse, h.dirs other]
    simp
  · rw [List.mem_cons, not_or]
    exact ⟨Ne.symm hne, h.nonempty⟩

/-- Which files can be placed next to those that are there. -/
theorem Holds.place_all_is_some_iff {d : Directory α} {placed paths : List (List α)}
    (h : d.Holds placed) :
    (d.placeAll paths).isSome ↔
      [] ∉ paths ∧ (∀ file ∈ placed, ∀ path ∈ paths, ¬ Clash file path) ∧
        paths.Pairwise fun left right => ¬ Clash left right := by
  induction paths generalizing d placed with
  | nil => simp [placeAll]
  | cons path rest ih =>
      rw [placeAll]
      cases hplace : d.place path with
      | none =>
          have hblocked : ¬(path ≠ [] ∧ ∀ file ∈ placed, ¬ Clash file path) := by
            rw [← h.place_is_some_iff, hplace]
            exact Bool.false_ne_true
          constructor
          · intro hsome
            cases hsome
          · rintro ⟨hne, hplaced, _⟩
            refine absurd ⟨fun heq => hne ?_, fun file hfile => ?_⟩ hblocked
            · rw [heq]
              exact List.mem_cons_self
            · exact hplaced file hfile path List.mem_cons_self
      | some d' =>
          obtain ⟨hne, hclash⟩ := h.place_is_some_iff.mp (by rw [hplace]; rfl)
          rw [Option.bind_some, ih (h.place hplace), List.mem_cons, not_or,
            List.forall_mem_cons, List.pairwise_cons]
          constructor
          · rintro ⟨hrestNe, ⟨hfirst, hplaced⟩, hrest⟩
            refine ⟨⟨Ne.symm hne, hrestNe⟩, fun file hfile => ?_, hfirst, hrest⟩
            exact List.forall_mem_cons.mpr ⟨hclash file hfile, hplaced file hfile⟩
          · rintro ⟨⟨_, hrestNe⟩, hplaced, hfirst, hrest⟩
            exact ⟨hrestNe,
              ⟨hfirst, fun file hfile other hother =>
                hplaced file hfile other (List.mem_cons_of_mem _ hother)⟩, hrest⟩

/-- Files can be placed in an empty directory exactly when no two of them clash. -/
theorem place_all_is_some_iff {paths : List (List α)} :
    ((empty : Directory α).placeAll paths).isSome ↔
      [] ∉ paths ∧ paths.Pairwise fun left right => ¬ Clash left right := by
  rw [holds_empty.place_all_is_some_iff]
  simp

end Directory

end Layout
