import EmbeddingServer.Models.Inspection
import Mathlib.Data.List.Infix

/-!
# Verification of an installed tree

A successful verification means that the tree is `Installed`: it stores the manifest, and
every artifact can be reached through real directories and has its declared length and
digest. Without outside failures an `Installed` tree passes its verification. Both hold while
other processes run, as in `Inspection`.
-/

namespace EmbeddingServer

/-! ## Artifacts -/

/-- The result of a check: it passes only if what it checks holds, and does so without outside
failures; `steady` says that nobody cancels it. -/
structure Checks {α : Type} (faults : Set Choice) (steady : Prop) (loc : Loc) (inv : Cache → Prop)
    (good : Cache → Prop) (passed : Except Error α → Prop) (s : Cache) (result : Except Error α)
    (s' : Cache) : Prop where
  looked : Looked loc inv s s'
  sound : passed result → good s'
  complete : Lucky faults → steady → good s → passed result

/-- The paths `reject_reparse_components` looks at are the parent directories and the path. -/
theorem mem_inits_tail {path part : RelPath} (h : part ∈ path.inits.tail) :
    part ∈ parentDirectories path ∨ part = path := by
  have hmem : ∀ (l p : RelPath), p ∈ l.inits.tail ↔ p ≠ [] ∧ p <+: l := by
    intro l p
    cases l with
    | nil => simp
    | cons a l =>
        rw [← List.mem_inits, List.inits_cons, List.tail_cons]
        cases p <;> simp
  obtain ⟨hne, hbelow⟩ := (hmem _ _).mp h
  rcases List.eq_nil_or_concat' path with rfl | ⟨front, last, rfl⟩
  · exact Or.inr (List.prefix_nil.mp hbelow)
  · rw [parentDirectories, hmem]
    rcases List.prefix_concat_iff.mp hbelow with heq | hfront
    · exact Or.inr (by simpa using heq)
    · exact Or.inl ⟨hne, by simpa using hfront⟩

section Artifacts

variable {loc : Loc} {dirs : List RelPath} {rely guar : Cache → Cache → Prop} {inv : Cache → Prop}
  {faults : Set Choice} {store : ModelStore} {steady : Prop} {cancelled : StoreM Bool}

theorem reject_reparse_spec (hw : Watched loc dirs rely guar inv) {s : Cache} (hs : inv s) :
    Looks rely guar faults (rejectReparse loc)
      (fun result s' => Looked loc inv s s' ∧
        (Lucky faults → s.node loc [] = some .dir → result = .ok ())) s := by
  refine looks_bind hw (looks_fs hw (by exact rfl) hs
    (fun hbad s' hs' => ⟨hs', (absurd · hbad)⟩) ?_)
  intro choice a b hkept hb
  have hlooked : Looked loc inv s b := ⟨hkept.trans hb.1, hb.2⟩
  simp only [Cache.perform, Except.mapError, Program.andThen]
  split
  · rename_i hlink
    refine looks_throw hw hb.2 fun c hc => ⟨hlooked.trans hc, fun _ hdir => ?_⟩
    have hthere := hkept _ _ hdir
    cases htree : a.tree loc with
    | none => simp [Cache.node, htree] at hthere
    | some tree => simp [Cache.tree_eq_some.mp htree, Entry.kind] at hlink
  · exact looks_pure hw hb.2 fun c hc => ⟨hlooked.trans hc, fun _ _ => rfl⟩

/-- Something that is no link stands at a path. -/
def Solid (loc : Loc) (path : RelPath) (s : Cache) : Prop :=
  s.node loc path = some .dir ∨ ∃ bytes, HasFile loc path bytes s

theorem Solid.kept {path : RelPath} {s s' : Cache} (h : Solid loc path s) (hkept : Kept loc s s') :
    Solid loc path s' := by
  rcases h with hdir | ⟨bytes, hfile⟩
  · exact Or.inl (hkept _ _ hdir)
  · exact Or.inr ⟨bytes, hkept _ _ hfile⟩

theorem reject_reparse_paths_spec (hw : Watched loc dirs rely guar inv) (paths : List RelPath)
    {s : Cache} (hs : inv s) :
    Looks rely guar faults (rejectReparsePaths loc paths)
      (fun result s' => Looked loc inv s s' ∧
        (Lucky faults → (∀ path ∈ paths, Solid loc path s) → result = .ok ())) s := by
  induction paths generalizing s with
  | nil => exact looks_pure hw hs fun s' hs' => ⟨hs', fun _ _ => rfl⟩
  | cons path rest ih =>
      refine looks_bind hw (looks_fs hw (by exact rfl) hs
        (fun hbad s' hs' => ⟨hs', (absurd · hbad)⟩) ?_)
      intro choice a b hkept hb
      have hlooked : Looked loc inv s b := ⟨hkept.trans hb.1, hb.2⟩
      simp only [Cache.perform, Except.mapError, Program.andThen]
      split
      · rename_i hlink
        refine looks_throw hw hb.2 fun c hc => ⟨hlooked.trans hc, fun _ hsolid => ?_⟩
        rcases (hsolid path (by simp)).kept hkept with hdir | ⟨bytes, hfile⟩
        · simp [hdir, Node.kind] at hlink
        · unfold HasFile at hfile
          simp [hfile, Node.kind] at hlink
      · refine Program.wpE.imp (ih hb.2) fun result c hc =>
          ⟨hlooked.trans hc.1, fun hall hsolid => ?_⟩
        exact hc.2 hall fun other hother => (hsolid other (by simp [hother])).kept hlooked.1
      · exact looks_pure hw hb.2 fun c hc => ⟨hlooked.trans hc, fun _ _ => rfl⟩

/-- Creating a directory unless it exists. -/
theorem ensure_directory_spec (hw : Watched loc dirs rely guar inv) {path : RelPath}
    (hpath : path ∈ dirs) {s : Cache} (hs : inv s) :
    Looks rely guar faults (ensureDirectory loc path)
      (fun result s' => Looked loc inv s s' ∧
        (Lucky faults → s.node loc path = some .dir → result = .ok ())) s := by
  refine looks_bind hw (looks_attempt (looks_fs hw (by exact ⟨rfl, hpath⟩) hs ?_ ?_))
  · exact fun hbad a ha => looks_throw hw ha.2 fun b hb => ⟨ha.trans hb, (absurd · hbad)⟩
  intro choice a b hkept hb
  have hlooked : Looked loc inv s b := ⟨hkept.trans hb.1, hb.2⟩
  simp only [Cache.perform, Program.andThen]
  split
  · exact looks_pure hw hb.2 fun c hc => ⟨hlooked.trans hc, fun _ _ => rfl⟩
  · exact looks_pure hw hb.2 fun c hc => ⟨hlooked.trans hc, fun _ _ => rfl⟩
  · rename_i hother herror
    refine looks_throw hw hb.2 fun c hc => ⟨hlooked.trans hc, fun _ hdir => ?_⟩
    -- An existing directory answers that it exists.
    have hthere := hkept _ _ hdir
    obtain ⟨tree, htree⟩ : ∃ tree, a.tree loc = some tree := by
      cases htree : a.tree loc with
      | none => simp [Cache.node, htree] at hthere
      | some tree => exact ⟨tree, rfl⟩
    simp [Cache.addNode, htree, hthere, Except.mapError] at herror
    exact absurd herror.symm (by simpa using hother)

/-- Directories stand at all of these paths. -/
def Directories (loc : Loc) (paths : List RelPath) (s : Cache) : Prop :=
  ∀ path ∈ paths, s.node loc path = some .dir

theorem Directories.kept {paths : List RelPath} {s s' : Cache} (h : Directories loc paths s)
    (hkept : Kept loc s s') : Directories loc paths s' :=
  fun path hpath => hkept _ _ (h path hpath)

theorem open_dir_spec (hw : Watched loc dirs rely guar inv) {path : RelPath} {s : Cache}
    (hs : inv s) :
    Looks rely guar faults (fs (.openDir loc path))
      (Checks faults True loc inv (Directories loc [path]) (· = .ok ()) s) s := by
  refine looks_fs hw (by exact rfl) hs (fun hbad a ha => ⟨ha, by simp, (absurd · hbad)⟩) ?_
  intro choice a b hkept hb
  refine ⟨⟨hkept.trans hb.1, hb.2⟩, fun hok => ?_, fun _ _ hdir => ?_⟩
  · simp only [Directories, List.mem_singleton, forall_eq]
    refine hb.1 _ _ ?_
    simp only [Cache.perform] at hok
    split at hok
    · assumption
    · simp [Except.mapError] at hok
    · simp [Except.mapError] at hok
  · have hthere := hkept _ _ (hdir path (by simp))
    simp [Cache.perform, hthere, Except.mapError]

theorem open_directories_spec (hw : Watched loc dirs rely guar inv) {paths : List RelPath}
    (hpaths : paths ⊆ dirs) {s : Cache} (hs : inv s) :
    Looks rely guar faults (openDirectories loc paths)
      (Checks faults True loc inv (Directories loc paths) (· = .ok ()) s) s := by
  induction paths generalizing s with
  | nil => exact looks_pure hw hs fun a ha => ⟨ha, fun _ => by simp [Directories], fun _ _ _ => rfl⟩
  | cons path rest ih =>
      refine looks_bind hw (Program.wpE.imp (ensure_directory_spec hw (hpaths (by simp)) hs)
        fun result a ha => ?_)
      cases result with
      | error error =>
          refine ⟨ha.1, by simp, fun hall _ hdir => ?_⟩
          simpa using ha.2 hall (hdir path (by simp))
      | ok =>
          refine looks_bind hw (Program.wpE.imp (open_dir_spec hw ha.1.2) fun result b hb => ?_)
          have hsb := ha.1.trans hb.looked
          cases result with
          | error error =>
              refine ⟨hsb, by simp, fun hall _ hdir => ?_⟩
              refine absurd (hb.complete hall trivial ?_) (by simp)
              simpa [Directories] using ha.1.1 _ _ (hdir path (by simp))
          | ok =>
              refine Program.wpE.imp (ih (fun other hother => hpaths (by simp [hother])) hsb.2)
                fun result c hc => ⟨hsb.trans hc.looked, fun hok => ?_, fun hall _ hdir => ?_⟩
              · intro other hother
                rcases List.mem_cons.mp hother with rfl | hrest
                · exact hc.looked.1 _ _ (hb.sound rfl other (by simp))
                · exact hc.sound hok other hrest
              · refine hc.complete hall trivial fun other hother => ?_
                exact hsb.1 _ _ (hdir other (by simp [hother]))

/-- The parent directories exist and a file with this content stands in them. -/
def Reachable (loc : Loc) (path : RelPath) (bytes : List UInt8) (s : Cache) : Prop :=
  Directories loc (parentDirectories path) s ∧ HasFile loc path bytes s

theorem Reachable.kept {path : RelPath} {bytes : List UInt8} {s s' : Cache}
    (h : Reachable loc path bytes s) (hkept : Kept loc s s') : Reachable loc path bytes s' :=
  ⟨h.1.kept hkept, hkept _ _ h.2⟩

theorem securely_open_existing_file_spec (hw : Watched loc dirs rely guar inv) {path : RelPath}
    (hpath : parentDirectories path ⊆ dirs) {s : Cache} (hs : inv s) :
    Looks rely guar faults (securelyOpenExistingFile loc path)
      (fun result s' => Looked loc inv s s' ∧
        (result = .ok () → Directories loc (parentDirectories path) s') ∧
        (Lucky faults → ∀ bytes, Reachable loc path bytes s → result = .ok ())) s := by
  refine looks_bind hw (looks_bind hw (Program.wpE.imp (open_dir_spec hw hs) fun result a ha => ?_))
  cases result with
  | error error =>
      refine ⟨ha.looked, by simp, fun hall bytes hreach => ?_⟩
      refine absurd (ha.complete hall trivial ?_) (by simp)
      simpa [Directories] using hreach.2.root
  | ok =>
      refine Program.wpE.imp (open_directories_spec hw hpath ha.looked.2) fun result b hb => ?_
      have hsb := ha.looked.trans hb.looked
      cases result with
      | error error =>
          refine ⟨hsb, by simp, fun hall bytes hreach => ?_⟩
          exact absurd (hb.complete hall trivial (hreach.1.kept ha.looked.1)) (by simp)
      | ok =>
          have hparents := hb.sound rfl
          refine looks_fs hw (by exact rfl) hsb.2
            (fun hbad c hc => ⟨hsb.trans hc, by simp, (absurd · hbad)⟩) ?_
          intro choice c d hc hd
          refine ⟨⟨hsb.1.trans (hc.trans hd.1), hd.2⟩, fun _ => hparents.kept (hc.trans hd.1), ?_⟩
          intro _ bytes hreach
          have hthere : c.node loc path = some (.file bytes) := hc _ _ (hsb.1 _ _ hreach.2)
          simp [Cache.perform, hthere, Except.mapError]

/-- `open_contained_regular_file`. -/
theorem open_contained_regular_file_spec (hw : Watched loc dirs rely guar inv) {path : RelPath}
    {size : Nat} (hpath : parentDirectories path ⊆ dirs) {s : Cache} (hs : inv s) :
    Looks rely guar faults (openContainedRegularFile loc path size)
      (Checks faults True loc inv
        (fun a => ∃ bytes, Reachable loc path bytes a ∧ bytes.length = size) (· = .ok ()) s) s := by
  refine looks_bind hw (looks_bind hw (Program.wpE.imp (reject_reparse_spec hw hs)
    fun result a ha => ?_))
  cases result with
  | error error =>
      refine ⟨ha.1, by simp, ?_⟩
      rintro hall _ ⟨bytes, hreach, -⟩
      simpa using ha.2 hall hreach.2.root
  | ok =>
      refine Program.wpE.imp (reject_reparse_paths_spec hw _ ha.1.2) fun result b hb => ?_
      have hsb := ha.1.trans hb.1
      cases result with
      | error error =>
          refine ⟨hsb, by simp, ?_⟩
          rintro hall _ ⟨bytes, hreach, -⟩
          refine absurd (hb.2 hall fun part hpart => Solid.kept ?_ ha.1.1) (by simp)
          -- The components are the parents, which are directories, and the file itself.
          rcases mem_inits_tail hpart with hparent | rfl
          · exact Or.inl (hreach.1 part hparent)
          · exact Or.inr ⟨bytes, hreach.2⟩
      | ok =>
          refine looks_bind hw (Program.wpE.imp (securely_open_existing_file_spec hw hpath hsb.2)
            fun result c hc => ?_)
          have hsc := hsb.trans hc.1
          cases result with
          | error error =>
              refine ⟨hsc, by simp, ?_⟩
              rintro hall _ ⟨bytes, hreach, -⟩
              simpa using hc.2.2 hall bytes (hreach.kept hsb.1)
          | ok =>
              have hparents := hc.2.1 rfl
              refine looks_bind hw (looks_path_metadata hw hsc.2 ?_ ?_)
              · intro hmissing kind d hd
                refine ⟨hsc.trans hd, by simp, ?_⟩
                rintro hall _ ⟨bytes, hreach, -⟩
                have hthere := hsc.1 _ _ hreach.2
                simp [hmissing hall] at hthere
              intro node d hd hnode
              have hsd := hsc.trans hd
              refine looks_fail_if hw hd.2 ?_ ?_
              · intro hbad e he
                refine ⟨hsd.trans he, by simp, ?_⟩
                rintro _ _ ⟨bytes, hreach, hsize⟩
                -- The node that was seen is the file, which is regular and of this size.
                have hthere := hsd.1 _ _ hreach.2
                rw [hnode, Option.some.injEq] at hthere
                subst hthere
                simp [Node.kind, Node.length, hsize] at hbad
              · intro hgood e he
                obtain ⟨bytes, rfl⟩ : ∃ bytes, node = .file bytes := by
                  cases node with
                  | file bytes => exact ⟨bytes, rfl⟩
                  | dir | link | special => simp [Node.kind] at hgood
                refine ⟨hsd.trans he, fun _ => ⟨bytes, ⟨?_, he.1 _ _ hnode⟩, ?_⟩, fun _ _ _ => rfl⟩
                · exact hparents.kept (hd.1.trans he.1)
                · simpa [Node.kind, Node.length] using hgood

/-- A poll of the cancellation flag disturbs nothing, and answers no if the check is steady. -/
def Cancels (rely guar : Cache → Cache → Prop) (faults : Set Choice) (steady : Prop) (loc : Loc)
    (inv : Cache → Prop) (cancelled : StoreM Bool) : Prop :=
  ∀ s, inv s → Looks rely guar faults cancelled
    (fun result s' => Looked loc inv s s' ∧ (steady → result = .ok false)) s

/-- The code that is never cancelled. -/
theorem cancels_never (hw : Watched loc dirs rely guar inv) :
    Cancels rely guar faults True loc inv (pure false) :=
  fun _ hs => looks_pure hw hs fun _ hs' => ⟨hs', fun _ => rfl⟩

/-- The loop of `verify_contained_artifact` reads the whole file if it is not too long. -/
theorem hash_loop_spec (hw : Watched loc dirs rely guar inv)
    (hcancel : Cancels rely guar faults steady loc inv cancelled) {path : RelPath} {size : Nat}
    (fuel : Nat) {bytes content : List UInt8} {s : Cache} (hs : inv s)
    (hfile : HasFile loc path content s) (hbytes : bytes <+: content)
    (hfuel : size + 2 ≤ fuel + bytes.length) :
    Looks rely guar faults (hashLoop loc path size cancelled fuel bytes)
      (fun result s' => Looked loc inv s s' ∧ (∀ all, result = .ok (some all) → all = content) ∧
        (Lucky faults → steady → content.length ≤ size → result = .ok (some content))) s := by
  induction fuel generalizing bytes s with
  | zero =>
      refine looks_pure hw hs fun a ha => ⟨ha, by simp, fun _ _ hlength => ?_⟩
      -- Rounds run out only after more than the expected size was read.
      have := hbytes.length_le
      omega
  | succ fuel ih =>
      refine looks_bind hw (Program.wpE.imp (hcancel s hs) fun result a ha => ?_)
      cases result with
      | error error => exact ⟨ha.1, by simp, fun _ hsteady _ => by simpa using ha.2 hsteady⟩
      | ok stop =>
          refine looks_bind hw (looks_fail_if hw ha.1.2 ?_ ?_)
          · intro hstop b hb
            exact ⟨ha.1.trans hb, by simp, fun _ hsteady _ => by simpa [hstop] using ha.2 hsteady⟩
          intro _ b hb
          have hsb := ha.1.trans hb
          dsimp only
          split
          · rename_i hover
            refine looks_pure hw hb.2 fun c hc => ⟨hsb.trans hc, by simp, fun _ _ hlength => ?_⟩
            have := hbytes.length_le
            omega
          rename_i hremaining
          refine looks_bind hw (looks_fs hw (by exact rfl) hb.2
            (fun hbad c hc => ⟨hsb.trans hc, by simp, (absurd · hbad)⟩) ?_)
          intro choice c d hc hd
          have hsd : Looked loc inv s d := ⟨hsb.1.trans (hc.trans hd.1), hd.2⟩
          rw [perform_read (hc _ _ (hsb.1 _ _ hfile))]
          have hmin : 0 < min (min (size + 1 - bytes.length) bufferSize) (choice.amount + 1) := by
            simp only [bufferSize]
            omega
          simp only [Except.mapError, Program.andThen]
          split
          · rename_i hempty
            -- An empty chunk where some could be read is the end of the file.
            have heq := prefix_eq_of_drop hbytes hmin hempty
            exact looks_pure hw hd.2 fun e he =>
              ⟨hsd.trans he, by simp [heq], fun _ _ _ => by rw [heq]⟩
          · rename_i hchunk
            have hextended := prefix_append_take hbytes
              (min (min (size + 1 - bytes.length) bufferSize) (choice.amount + 1))
            split
            · rename_i hlong
              refine looks_pure hw hd.2 fun e he => ⟨hsd.trans he, by simp, fun _ _ hlength => ?_⟩
              have := hextended.length_le
              rw [List.length_append] at this
              omega
            · have hpos := List.length_pos_iff.mpr hchunk
              refine Program.wpE.imp (ih hsd.2 (hsd.1 _ _ hfile) hextended ?_)
                fun result e he => ⟨hsd.trans he.1, he.2⟩
              rw [List.length_append]
              omega

/-- An artifact that passes its verification. -/
structure IntactArtifact (ext : External) (loc : Loc) (artifact : Artifact) (s : Cache) : Prop where
  fits : artifact.size.toNat + 1 < 2 ^ wordBits
  content : ∃ bytes, Reachable loc artifact.relative bytes s ∧
    bytes.length = artifact.size.toNat ∧ ext.sha256 bytes = artifact.sha256

theorem IntactArtifact.kept {ext : External} {artifact : Artifact} {s s' : Cache}
    (h : IntactArtifact ext loc artifact s) (hkept : Kept loc s s') :
    IntactArtifact ext loc artifact s' := by
  obtain ⟨hfits, bytes, hreach, hrest⟩ := h
  exact ⟨hfits, bytes, hreach.kept hkept, hrest⟩

theorem verify_opened_spec (hw : Watched loc dirs rely guar inv)
    (hcancel : Cancels rely guar faults steady loc inv cancelled) {artifact : Artifact}
    {content : List UInt8} {s : Cache} (hs : inv s)
    (hreach : Reachable loc artifact.relative content s) :
    Looks rely guar faults (verifyOpened store loc artifact cancelled)
      (Checks faults steady loc inv (IntactArtifact store.ext loc artifact)
        (· = .ok true) s) s := by
  refine looks_bind hw (looks_fail_if hw hs ?_ ?_)
  · exact fun hover a ha => ⟨ha, by simp, fun _ _ hintact => absurd hintact.fits (by omega)⟩
  intro hfits a ha
  refine looks_bind hw (Program.wpE.imp
    (hash_loop_spec hw hcancel _ ha.2 (ha.1 _ _ hreach.2) List.nil_prefix (by simp))
    fun result b hb => ?_)
  have hsb := ha.trans hb.1
  -- An intact artifact is read completely.
  have hread : Lucky faults → steady → IntactArtifact store.ext loc artifact s →
      result = .ok (some content) ∧ content.length = artifact.size.toNat ∧
        store.ext.sha256 content = artifact.sha256 := by
    rintro hall hsteady ⟨-, bytes, hother, hsize, hdigest⟩
    obtain rfl := hother.2.unique hreach.2
    exact ⟨hb.2.2 hall hsteady (by omega), hsize, hdigest⟩
  match result with
  | .error error =>
      refine ⟨hsb, by simp, fun hall hsteady hintact => ?_⟩
      simpa using (hread hall hsteady hintact).1
  | .ok none =>
      refine looks_pure hw hb.1.2 fun c hc =>
        ⟨hsb.trans hc, by simp, fun hall hsteady hintact => ?_⟩
      simpa using (hread hall hsteady hintact).1
  | .ok (some bytes) =>
      obtain rfl := hb.2.1 bytes rfl
      refine looks_bind hw (looks_path_metadata hw hb.1.2 ?_ ?_)
      · intro hmissing kind c hc
        refine ⟨hsb.trans hc, by simp, fun hall _ _ => ?_⟩
        have hthere := hsb.1 _ _ hreach.2
        simp [hmissing hall] at hthere
      · intro node c hc hnode
        have hsc := hsb.trans hc
        obtain rfl : node = .file bytes := by
          have hthere := hsc.1 _ _ hreach.2
          rw [hnode] at hthere
          simpa using hthere
        refine looks_pure hw hc.2 fun d hd =>
          ⟨hsc.trans hd, fun hok => ?_, fun hall hsteady hintact => ?_⟩
        · simp only [Node.kind, Node.length, Except.ok.injEq, Bool.and_eq_true, decide_eq_true_eq]
            at hok
          exact ⟨by omega, bytes, hreach.kept (hsc.trans hd).1, hok.1.2, hok.2⟩
        · obtain ⟨-, hsize, hdigest⟩ := hread hall hsteady hintact
          simp [Node.kind, Node.length, hsize, hdigest]

theorem verify_contained_artifact_spec (hw : Watched loc dirs rely guar inv)
    (hcancel : Cancels rely guar faults steady loc inv cancelled) {artifact : Artifact}
    (hpath : parentDirectories artifact.relative ⊆ dirs) {s : Cache} (hs : inv s) :
    Looks rely guar faults (verifyContainedArtifact store loc artifact cancelled)
      (Checks faults steady loc inv (IntactArtifact store.ext loc artifact)
        (· = .ok true) s) s := by
  refine looks_bind hw (looks_attempt
    (Program.wpE.imp (open_contained_regular_file_spec hw hpath hs) fun result a ha => ?_))
  have hopened : Lucky faults → IntactArtifact store.ext loc artifact s → result = .ok () := by
    rintro hall ⟨-, bytes, hreach, hsize, -⟩
    exact ha.complete hall trivial ⟨bytes, hreach, hsize⟩
  simp only [Program.andThen]
  split
  · refine looks_pure hw ha.looked.2 fun b hb =>
      ⟨ha.looked.trans hb, by simp, fun hall _ hintact => ?_⟩
    simpa using hopened hall hintact
  · refine looks_pure hw ha.looked.2 fun b hb =>
      ⟨ha.looked.trans hb, by simp, fun hall _ hintact => ?_⟩
    simpa using hopened hall hintact
  · refine looks_throw hw ha.looked.2 fun b hb =>
      ⟨ha.looked.trans hb, by simp, fun hall _ hintact => ?_⟩
    simpa using hopened hall hintact
  · obtain ⟨content, hreach, -⟩ := ha.sound rfl
    refine Program.wpE.imp (verify_opened_spec hw hcancel ha.looked.2 hreach) fun result b hb => ?_
    exact ⟨ha.looked.trans hb.looked, hb.sound,
      fun hall hsteady hintact => hb.complete hall hsteady (hintact.kept ha.looked.1)⟩

theorem verify_artifacts_spec (hw : Watched loc dirs rely guar inv)
    (hcancel : Cancels rely guar faults steady loc inv cancelled) {artifacts : List Artifact}
    (hpaths : ∀ artifact ∈ artifacts, parentDirectories artifact.relative ⊆ dirs) {s : Cache}
    (hs : inv s) :
    Looks rely guar faults (verifyArtifacts store loc cancelled artifacts)
      (Checks faults steady loc inv
        (fun a => ∀ artifact ∈ artifacts, IntactArtifact store.ext loc artifact a)
        (· = .ok true) s) s := by
  induction artifacts generalizing s with
  | nil => exact looks_pure hw hs fun a ha => ⟨ha, by simp, fun _ _ _ => rfl⟩
  | cons artifact rest ih =>
      refine looks_bind hw (Program.wpE.imp
        (verify_contained_artifact_spec hw hcancel (hpaths artifact (by simp)) hs)
          fun result a ha => ?_)
      have hfirst : Lucky faults → steady →
          (∀ other ∈ artifact :: rest, IntactArtifact store.ext loc other s) → result = .ok true :=
        fun hall hsteady hintact => ha.complete hall hsteady (hintact artifact (by simp))
      match result with
      | .error error =>
          refine ⟨ha.looked, by simp, fun hall hsteady hintact => ?_⟩
          simpa using hfirst hall hsteady hintact
      | .ok false =>
          refine looks_pure hw ha.looked.2 fun b hb =>
            ⟨ha.looked.trans hb, by simp, fun hall hsteady hintact => ?_⟩
          simpa using hfirst hall hsteady hintact
      | .ok true =>
          refine Program.wpE.imp (ih (fun other hother =>
            hpaths other (by simp [hother])) ha.looked.2)
            fun result b hb =>
              ⟨ha.looked.trans hb.looked, fun hok => ?_, fun hall hsteady hintact => ?_⟩
          · intro other hother
            rcases List.mem_cons.mp hother with rfl | hrest
            · exact (ha.sound rfl).kept hb.looked.1
            · exact hb.sound hok other hrest
          · exact hb.complete hall hsteady fun other hother =>
              (hintact other (by simp [hother])).kept ha.looked.1

/-- A tree that passes its verification as the installation of a manifest. -/
structure Installed (ext : External) (loc : Loc) (manifest : Manifest) (s : Cache) : Prop where
  stored : StoresManifest ext loc manifest s
  artifacts : ∀ artifact ∈ manifest.artifacts, IntactArtifact ext loc artifact s

theorem Installed.kept {ext : External} {manifest : Manifest} {s s' : Cache}
    (h : Installed ext loc manifest s) (hkept : Kept loc s s') : Installed ext loc manifest s' :=
  ⟨h.stored.kept hkept, fun artifact hartifact => (h.artifacts artifact hartifact).kept hkept⟩

end Artifacts

/-! ## The status -/

/-- The status of a tree that passes its verification. -/
def installedStatus (store : ModelStore) (manifest : Manifest) : Except Error ModelStatus :=
  (store.trusts manifest).map fun trusted =>
    if trusted then .loadable else .integrityVerified

section Status

variable {dirs : List RelPath} {rely guar : Cache → Cache → Prop} {inv : Cache → Prop}
  {faults : Set Choice} {store : ModelStore} {manifest : Manifest} {steady : Prop}
  {cancelled : StoreM Bool}

/-- The result of `status_inner`. -/
structure StatusRead (faults : Set Choice) (steady : Prop) (store : ModelStore)
    (manifest : Manifest) (inv : Cache → Prop) (s : Cache) (result : Except Error ModelStatus)
    (s' : Cache) : Prop where
  looked : Looked (.models (store.key manifest)) inv s s'
  sound : ∀ found, result = .ok found → found.isInstalled = true →
    Installed store.ext (.models (store.key manifest)) manifest s' ∧
      result = installedStatus store manifest
  complete : Lucky faults → steady →
    Installed store.ext (.models (store.key manifest)) manifest s →
    result = installedStatus store manifest

theorem status_of_tree_spec
    (hw : Watched (.models (store.key manifest)) (artifactDirectories manifest) rely guar inv)
    (hcancel : Cancels rely guar faults steady (.models (store.key manifest)) inv cancelled)
    {s : Cache} (hs : inv s) :
    Looks rely guar faults (statusOfTree store manifest cancelled)
      (StatusRead faults steady store manifest inv s) s := by
  refine looks_bind hw (looks_attempt (Program.wpE.imp (read_contained_manifest_spec hw hs)
    fun result a ha => ?_))
  cases result with
  | error error =>
      refine looks_pure hw ha.looked.2 fun b hb => ⟨ha.looked.trans hb, ?_, fun hall _ hgood => ?_⟩
      · rintro found ⟨rfl⟩ hinstalled
        cases hinstalled
      · simpa using ha.lucky hall manifest hgood.stored
  | ok stored =>
      simp only [Program.andThen]
      split
      · rename_i hother
        refine looks_pure hw ha.looked.2 fun b hb =>
          ⟨ha.looked.trans hb, ?_, fun hall _ hgood => ?_⟩
        · rintro found ⟨rfl⟩ hinstalled
          cases hinstalled
        · exact absurd (Except.ok.inj (ha.lucky hall manifest hgood.stored)) hother
      · rename_i hsame
        obtain rfl := not_not.mp hsame
        have hpaths : ∀ artifact ∈ stored.artifacts,
            parentDirectories artifact.relative ⊆ artifactDirectories stored :=
          fun artifact hartifact path hpath => List.mem_flatMap.mpr ⟨artifact, hartifact, hpath⟩
        refine looks_bind hw (Program.wpE.imp (verify_artifacts_spec hw hcancel hpaths ha.looked.2)
          fun result b hb => ?_)
        have hsb := ha.looked.trans hb.looked
        have hpassed : Lucky faults → steady →
            Installed store.ext (.models (store.key stored)) stored s → result = .ok true :=
          fun hall hsteady hgood => hb.complete hall hsteady fun artifact hartifact =>
            (hgood.artifacts artifact hartifact).kept ha.looked.1
        rcases result with error | _ | _
        · refine ⟨hsb, by simp, fun hall hsteady hgood => ?_⟩
          simpa using hpassed hall hsteady hgood
        · refine looks_pure hw hsb.2 fun c hc => ⟨hsb.trans hc, ?_, fun hall hsteady hgood => ?_⟩
          · rintro found ⟨rfl⟩ hinstalled
            cases hinstalled
          · simpa using hpassed hall hsteady hgood
        · have hgood : Installed store.ext (.models (store.key stored)) stored b :=
            ⟨(ha.found stored rfl).kept hb.looked.1, hb.sound rfl⟩
          refine looks_bind hw (looks_lift hw hsb.2 fun c hc => ?_)
          have hsc := hsb.trans hc
          cases htrusts : store.trusts stored with
          | error error =>
              refine ⟨hsc, by simp, fun _ _ _ => ?_⟩
              simp [installedStatus, htrusts, Except.map]
          | ok trusted =>
              cases trusted with
              | false =>
                  refine looks_pure hw hc.2 fun d hd => ⟨hsc.trans hd, ?_, fun _ _ _ => ?_⟩
                  · exact fun _ _ _ => ⟨hgood.kept (hc.trans hd).1, by
                      simp [installedStatus, htrusts, Except.map]⟩
                  · simp [installedStatus, htrusts, Except.map]
              | true =>
                  refine looks_pure hw hc.2 fun d hd => ⟨hsc.trans hd, ?_, fun _ _ _ => ?_⟩
                  · exact fun _ _ _ => ⟨hgood.kept (hc.trans hd).1, by
                      simp [installedStatus, htrusts, Except.map]⟩
                  · simp [installedStatus, htrusts, Except.map]

/-- `status_inner` reports an installation exactly if there is one. -/
theorem status_inner_spec
    (hw : Watched (.models (store.key manifest)) (artifactDirectories manifest) rely guar inv)
    (hcancel : Cancels rely guar faults steady (.models (store.key manifest)) inv cancelled)
    {s : Cache} (hs : inv s) :
    Looks rely guar faults (statusInner store manifest cancelled)
      (StatusRead faults steady store manifest inv s) s := by
  have hroot : ∀ {a : Cache}, Installed store.ext (.models (store.key manifest)) manifest a →
      a.node (.models (store.key manifest)) [] = some .dir := by
    rintro a ⟨⟨bytes, hfile, -⟩, -⟩
    exact hfile.root
  refine looks_bind hw (looks_attempt (Program.wpE.imp (reject_reparse_spec hw hs)
    fun result a ha => ?_))
  cases result with
  | error error =>
      refine looks_pure hw ha.1.2 fun b hb => ⟨ha.1.trans hb, ?_, fun hall _ hgood => ?_⟩
      · rintro found ⟨rfl⟩ hinstalled
        cases hinstalled
      · simpa using ha.2 hall (hroot hgood)
  | ok =>
      refine looks_bind hw (looks_fs hw (by exact rfl) ha.1.2
        (fun hbad b hb => ⟨ha.1.trans hb, by simp, (absurd · hbad)⟩) ?_)
      intro choice b c hb hc
      have hsc : Looked _ inv s c := ⟨ha.1.1.trans (hb.trans hc.1), hc.2⟩
      have hdir : Installed store.ext (.models (store.key manifest)) manifest s →
          ∃ tree, b.entry (.models (store.key manifest)) = some (.dir tree) := by
        intro hgood
        have hthere := hb _ _ (ha.1.1 _ _ (hroot hgood))
        cases htree : b.tree (.models (store.key manifest)) with
        | none => simp [Cache.node, htree] at hthere
        | some tree => exact ⟨tree, Cache.tree_eq_some.mp htree⟩
      simp only [Cache.perform, Except.mapError, Program.andThen]
      split
      · rename_i hmissing
        refine looks_pure hw hc.2 fun d hd => ⟨hsc.trans hd, ?_, fun _ _ hgood => ?_⟩
        · rintro found ⟨rfl⟩ hinstalled
          cases hinstalled
        · obtain ⟨tree, htree⟩ := hdir hgood
          simp [htree] at hmissing
      · refine Program.wpE.imp (status_of_tree_spec hw hcancel hc.2) fun result d hd => ?_
        exact ⟨hsc.trans hd.looked, hd.sound,
          fun hall hsteady hgood => hd.complete hall hsteady (hgood.kept hsc.1)⟩
      · rename_i hkind hother
        refine looks_pure hw hc.2 fun d hd => ⟨hsc.trans hd, ?_, fun _ _ hgood => ?_⟩
        · rintro found ⟨rfl⟩ hinstalled
          cases hinstalled
        · obtain ⟨tree, htree⟩ := hdir hgood
          simp only [htree, Option.map_some, Entry.kind, Option.some.injEq] at hother
          exact absurd hother.symm hkind

end Status

end EmbeddingServer
