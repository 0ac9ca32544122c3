import EmbeddingServer.Models.Staging

/-!
# Looking at an installed tree

The rules for code that only looks at a tree. Other processes may run in between as long as
they keep the files that are there: `Watched` collects what such code needs of the
interference and of its own steps. `read_contained_manifest` finds exactly the manifest that
is stored.
-/

namespace EmbeddingServer

/-- Interference and steps that keep everything below a location, under an invariant. -/
structure Watched (loc : Loc) (dirs : List RelPath) (rely guar : Cache → Cache → Prop)
    (inv : Cache → Prop) : Prop where
  refl : ∀ s, rely s s
  rely : ∀ a b, inv a → rely a b → Kept loc a b ∧ inv b
  step : ∀ op : FsOp, op.Inspects loc dirs → ∀ choice s, inv s →
    guar s (respond choice s op).2 ∧ inv (respond choice s op).2

/-- Code that runs alone. -/
theorem watched_alone (loc : Loc) (dirs : List RelPath) :
    Watched loc dirs Eq Free fun _ => True where
  refl _ := rfl
  rely a b _ h := by
    subst h
    exact ⟨.refl loc a, trivial⟩
  step _ _ _ _ _ := ⟨trivial, trivial⟩

/-- Reading without creating directories changes nothing at all. -/
theorem respond_reads {loc : Loc} {op : FsOp} (h : op.Inspects loc []) (choice : Choice)
    (s : Cache) : (respond choice s op).2 = s := by
  refine @respond_state (fun a => a = s) choice s op rfl ?_
  cases op with
  | makeDir l path => simp [FsOp.Inspects] at h
  | metadata | fileMetadata | poll => rfl
  | openDir l path | openFile l path | read l path offset limit =>
      simp only [Cache.perform]
      split <;> rfl
  | _ => exact h.elim

/-- Code that runs alone and only reads stays where it is. -/
theorem watched_reads (loc : Loc) {guar : Cache → Cache → Prop} (hrefl : ∀ s, guar s s)
    (s : Cache) : Watched loc [] Eq guar (· = s) where
  refl _ := rfl
  rely a b ha h := by
    subst h
    exact ⟨.refl loc a, ha⟩
  step op hop choice a ha := by
    rw [respond_reads hop]
    exact ⟨hrefl a, ha⟩

section Rules

variable {loc : Loc} {dirs : List RelPath} {rely guar : Cache → Cache → Prop} {inv : Cache → Prop}
  {faults : Set Choice} {α β : Type}

/-- What a verification keeps. -/
def Looked (loc : Loc) (inv : Cache → Prop) (s s' : Cache) : Prop :=
  Kept loc s s' ∧ inv s'

theorem Looked.trans {a b c : Cache} (hab : Looked loc inv a b) (hbc : Looked loc inv b c) :
    Looked loc inv a c :=
  ⟨hab.1.trans hbc.1, hbc.2⟩

/-- A specification of verification code under interference. -/
abbrev Looks (rely guar : Cache → Cache → Prop) (faults : Set Choice) (body : StoreM α)
    (post : Except Error α → Cache → Prop) (s : Cache) : Prop :=
  Program.wpE respond faults rely guar body post s

theorem looks_pure (hw : Watched loc dirs rely guar inv) {value : α}
    {post : Except Error α → Cache → Prop} {s : Cache} (hs : inv s)
    (h : ∀ s', Looked loc inv s s' → post (.ok value) s') :
    Looks rely guar faults (pure value) post s :=
  fun s' hrely => h s' (hw.rely s s' hs hrely)

theorem looks_throw (hw : Watched loc dirs rely guar inv) {error : Error}
    {post : Except Error α → Cache → Prop} {s : Cache} (hs : inv s)
    (h : ∀ s', Looked loc inv s s' → post (.error error) s') :
    Looks rely guar faults (throw error) post s :=
  fun s' hrely => h s' (hw.rely s s' hs hrely)

theorem looks_lift (hw : Watched loc dirs rely guar inv) {result : Except Error α}
    {post : Except Error α → Cache → Prop} {s : Cache} (hs : inv s)
    (h : ∀ s', Looked loc inv s s' → post result s') :
    Looks rely guar faults (lift result) post s :=
  fun s' hrely => h s' (hw.rely s s' hs hrely)

theorem looks_bind (hw : Watched loc dirs rely guar inv) {body : StoreM α} {rest : α → StoreM β}
    {post : Except Error β → Cache → Prop} {s : Cache}
    (h : Looks rely guar faults body
      (Program.andThen post fun value => Looks rely guar faults (rest value) post) s) :
    Looks rely guar faults (body >>= rest) post s :=
  Program.wp_e_bind hw.refl h

theorem looks_attempt {body : StoreM α} {post : Except Error (Except Error α) → Cache → Prop}
    {s : Cache} (h : Looks rely guar faults body (fun result s' => post (.ok result) s') s) :
    Looks rely guar faults (attempt body) post s :=
  Program.wp_map h

theorem looks_fail_if (hw : Watched loc dirs rely guar inv) {condition : Prop} [Decidable condition]
    {error : Error} {post : Except Error Unit → Cache → Prop} {s : Cache} (hs : inv s)
    (hfail : condition → ∀ s', Looked loc inv s s' → post (.error error) s')
    (hok : ¬ condition → ∀ s', Looked loc inv s s' → post (.ok ()) s') :
    Looks rely guar faults (failIf condition error) post s := by
  unfold failIf
  split
  · exact looks_throw hw hs (hfail ‹_›)
  · exact looks_pure hw hs (hok ‹_›)

/-- A primitive of a verification: it answers for the state `a` it finds, and the code goes on in
a state in which everything of `a` is still there. -/
theorem looks_fs (hw : Watched loc dirs rely guar inv) {op : FsOp} (hop : op.Inspects loc dirs)
    {post : Except Error op.Value → Cache → Prop} {s : Cache} (hs : inv s)
    (hfail : ¬ Lucky faults → ∀ s', Looked loc inv s s' → post (.error (.io .other)) s')
    (hok : ∀ choice a s', Kept loc s a → Looked loc inv a s' →
      post ((a.perform choice op).1.mapError Error.io) s') :
    Looks rely guar faults (fs op) post s := by
  intro a ha choice hchoice
  obtain ⟨hkept, hinv⟩ := hw.rely s a hs ha
  obtain ⟨hguar, hinv'⟩ := hw.step op hop choice a hinv
  refine ⟨hguar, fun s' hrely => ?_⟩
  obtain ⟨hkept', hinv''⟩ := hw.rely _ s' hinv' hrely
  have hlooked : Looked loc inv a s' := ⟨(respond_kept hop.builds choice a).trans hkept', hinv''⟩
  rcases respond_cases choice a op with hreply | ⟨hfault, hreply⟩
  · rw [hreply]
    exact hok choice a s' hkept hlooked
  · have herror : (respond choice a op).1 = .error .other := by
      rcases hreply with hreply | hreply <;> rw [hreply]
    rw [herror]
    exact hfail (fun hlucky => hfault (hlucky choice hchoice)) s'
      ⟨hkept.trans hlooked.1, hlooked.2⟩

/-- The metadata of a path below the location. -/
theorem looks_path_metadata (hw : Watched loc dirs rely guar inv) {path : RelPath}
    {post : Except Error (FileKind × Nat) → Cache → Prop} {s : Cache} (hs : inv s)
    (hfail : (Lucky faults → s.node loc path = none) →
      ∀ kind s', Looked loc inv s s' → post (.error (.io kind)) s')
    (hok : ∀ node s', Looked loc inv s s' → s'.node loc path = some node →
      post (.ok (node.kind, node.length)) s') :
    Looks rely guar faults (pathMetadata loc path) post s := by
  refine looks_bind hw (looks_fs hw (by exact rfl) hs
    (fun hbad s' hs' => hfail (absurd · hbad) _ s' hs') fun choice a s' hkept hs' => ?_)
  simp only [Cache.perform]
  cases hnode : a.node loc path with
  | none =>
      refine looks_throw hw hs'.2 fun s'' hs'' => hfail (fun _ => ?_) _ s''
        ⟨hkept.trans (hs'.1.trans hs''.1), hs''.2⟩
      by_contra hsome
      obtain ⟨node, hbefore⟩ := Option.ne_none_iff_exists'.mp hsome
      simp [hkept _ _ hbefore] at hnode
  | some node =>
      refine looks_pure hw hs'.2 fun s'' hs'' => hok node s'' ?_ (hs''.1 _ _ (hs'.1 _ _ hnode))
      exact ⟨hkept.trans (hs'.1.trans hs''.1), hs''.2⟩

/-- An error becomes `Error::Invalid`. -/
theorem looks_or_invalid (hw : Watched loc dirs rely guar inv) {message : String} {body : StoreM α}
    {post : Except Error α → Cache → Prop} {s : Cache}
    (h : Looks rely guar faults body (fun result s' => inv s' ∧ ∀ s'', Looked loc inv s' s'' →
      post (result.mapError fun _ => .invalid message) s'') s) :
    Looks rely guar faults (orInvalid message body) post s := by
  refine looks_bind hw (looks_attempt (Program.wpE.imp h fun result a ha => ?_))
  cases result with
  | ok value => exact looks_pure hw ha.1 ha.2
  | error error => exact looks_throw hw ha.1 ha.2

/-- The metadata of the location itself. -/
theorem looks_symlink_metadata (hw : Watched loc dirs rely guar inv)
    {post : Except Error FileKind → Cache → Prop} {s : Cache} (hs : inv s)
    (hfail : (Lucky faults → s.node loc [] = none) →
      ∀ kind s', Looked loc inv s s' → post (.error (.io kind)) s')
    (hok : ∀ kind s', Looked loc inv s s' → (s.node loc [] ≠ none → kind = .dir) →
      post (.ok kind) s') :
    Looks rely guar faults (symlinkMetadata loc) post s := by
  refine looks_bind hw (looks_fs hw (by exact rfl) hs
    (fun hbad s' hs' => hfail (absurd · hbad) _ s' hs') fun choice a s' hkept hs' => ?_)
  have hlooked : Looked loc inv s s' := ⟨hkept.trans hs'.1, hs'.2⟩
  have hdir : s.node loc [] ≠ none → ∃ tree, a.entry loc = some (.dir tree) := by
    intro hsome
    obtain ⟨node, hnode⟩ := Option.ne_none_iff_exists'.mp hsome
    have hthere := hkept _ _ hnode
    cases htree : a.tree loc with
    | none => simp [Cache.node, htree] at hthere
    | some tree => exact ⟨tree, Cache.tree_eq_some.mp htree⟩
  simp only [Cache.perform]
  cases hentry : a.entry loc with
  | none =>
      refine looks_throw hw hs'.2 fun b hb => hfail (fun _ => ?_) _ b (hlooked.trans hb)
      by_contra hsome
      obtain ⟨tree, htree⟩ := hdir hsome
      simp [hentry] at htree
  | some found =>
      refine looks_pure hw hs'.2 fun b hb => hok _ b (hlooked.trans hb) fun hsome => ?_
      obtain ⟨tree, htree⟩ := hdir hsome
      rw [hentry, Option.some.injEq] at htree
      rw [htree, Entry.kind]

end Rules

/-! ## The stored manifest -/

section Reading

variable {loc : Loc} {dirs : List RelPath} {rely guar : Cache → Cache → Prop} {inv : Cache → Prop}
  {faults : Set Choice} {store : ModelStore}

/-- Reading a file returns a next piece of it, which is empty only at the end. -/
theorem perform_read {path : RelPath} {content : List UInt8} {s : Cache}
    (h : HasFile loc path content s) (choice : Choice) (offset limit : Nat) :
    (s.perform choice (.read loc path offset limit)).1 =
      .ok ((content.drop offset).take (min limit (choice.amount + 1))) := by
  unfold HasFile at h
  simp [Cache.perform, h]

/-- A piece that follows a prefix extends it. -/
theorem prefix_append_take {bytes content : List UInt8} (h : bytes <+: content) (n : Nat) :
    bytes ++ (content.drop bytes.length).take n <+: content := by
  obtain ⟨rest, rfl⟩ := h
  simpa using List.take_prefix n rest

/-- A prefix after which there is nothing left is everything. -/
theorem prefix_eq_of_drop {bytes content : List UInt8} (h : bytes <+: content) {n : Nat}
    (hn : 0 < n) (hempty : (content.drop bytes.length).take n = []) : bytes = content := by
  obtain ⟨rest, rfl⟩ := h
  have hrest : rest = [] := by
    rcases List.take_eq_nil_iff.mp hempty with hzero | hnil
    · omega
    · simpa using hnil
  simp [hrest]

/-- A file that is shorter than the limit is read to its end. -/
theorem read_to_end_spec (hw : Watched loc dirs rely guar inv) {path : RelPath} {limit : Nat}
    (fuel : Nat) {bytes content : List UInt8} {s : Cache} (hs : inv s)
    (hfile : HasFile loc path content s) (hbytes : bytes <+: content)
    (hlimit : content.length < limit) (hfuel : limit ≤ fuel + bytes.length) :
    Looks rely guar faults (readToEnd loc path limit fuel bytes)
      (fun result s' => Looked loc inv s s' ∧ (∀ all, result = .ok all → all = content) ∧
        (Lucky faults → result = .ok content)) s := by
  induction fuel generalizing bytes s with
  | zero =>
      have := hbytes.length_le
      omega
  | succ fuel ih =>
      have hlength := hbytes.length_le
      unfold readToEnd
      rw [if_neg (by omega)]
      refine looks_bind hw
        (looks_fs hw (by exact rfl) hs (fun hbad s' hs' => ⟨hs', by simp, (absurd · hbad)⟩) ?_)
      intro choice a s' hkept hs'
      rw [perform_read (hkept _ _ hfile)]
      have hmin : 0 < min (limit - bytes.length) (choice.amount + 1) := by omega
      simp only [Except.mapError, Program.andThen]
      have hlooked : Looked loc inv s s' := ⟨hkept.trans hs'.1, hs'.2⟩
      split
      · rename_i hempty
        have heq := prefix_eq_of_drop hbytes hmin hempty
        exact looks_pure hw hs'.2 fun b hb =>
          ⟨hlooked.trans hb, by simp [heq], fun _ => by rw [heq]⟩
      · rename_i hchunk
        have hpos := List.length_pos_iff.mpr hchunk
        refine Program.wpE.imp (ih hs'.2 (hlooked.1 _ _ hfile) (prefix_append_take hbytes _) ?_)
          fun result b hb => ⟨hlooked.trans hb.1, hb.2⟩
        rw [List.length_append]
        omega

theorem HasFile.unique {path : RelPath} {left right : List UInt8} {s : Cache}
    (hleft : HasFile loc path left s) (hright : HasFile loc path right s) : left = right := by
  unfold HasFile at hleft hright
  rw [hleft] at hright
  simpa using hright

theorem HasFile.root {path : RelPath} {bytes : List UInt8} {s : Cache}
    (h : HasFile loc path bytes s) : s.node loc [] = some .dir := by
  cases htree : s.tree loc with
  | none => simp [HasFile, Cache.node, htree] at h
  | some tree => simp [Cache.node_of_tree htree]

/-- A tree that holds the encoded form of a manifest. -/
def StoresManifest (ext : External) (loc : Loc) (manifest : Manifest) (s : Cache) : Prop :=
  ∃ bytes, HasFile loc manifestFile bytes s ∧ bytes.length ≤ maxManifestBytes ∧
    Manifest.fromJson ext bytes = .ok manifest

/-- The tree-level form of `StoresManifest`. -/
def Tree.Stores (ext : External) (manifest : Manifest) (tree : Tree) : Prop :=
  ∃ bytes, tree.entries.lookup manifestFile = some (.file bytes) ∧
    bytes.length ≤ maxManifestBytes ∧ Manifest.fromJson ext bytes = .ok manifest

theorem stores_manifest_of_tree {ext : External} {manifest : Manifest} {tree : Tree} {s : Cache}
    (htree : s.entry loc = some (.dir tree)) (h : tree.Stores ext manifest) :
    StoresManifest ext loc manifest s := by
  obtain ⟨bytes, hlookup, hrest⟩ := h
  refine ⟨bytes, ?_, hrest⟩
  rw [HasFile, Cache.node_of_tree (Cache.tree_eq_some.mpr htree), if_neg (by simp [manifestFile])]
  exact hlookup

theorem StoresManifest.kept {ext : External} {manifest : Manifest} {s s' : Cache}
    (h : StoresManifest ext loc manifest s) (hkept : Kept loc s s') :
    StoresManifest ext loc manifest s' := by
  obtain ⟨bytes, hfile, hrest⟩ := h
  exact ⟨bytes, hkept _ _ hfile, hrest⟩

theorem kept_of_entry {s s' : Cache} (h : s'.entry loc = s.entry loc) : Kept loc s s' := by
  intro path node hnode
  simpa [Cache.node, Cache.tree, h] using hnode

theorem StoresManifest.congr {ext : External} {manifest : Manifest} {s s' : Cache}
    (h : StoresManifest ext loc manifest s) (hentry : s'.entry loc = s.entry loc) :
    StoresManifest ext loc manifest s' :=
  h.kept (kept_of_entry hentry)

/-- Only one manifest is stored. -/
theorem StoresManifest.unique {ext : External} {left right : Manifest} {s : Cache}
    (hleft : StoresManifest ext loc left s) (hright : StoresManifest ext loc right s) :
    left = right := by
  obtain ⟨bytes, hfile, -, hdecoded⟩ := hleft
  obtain ⟨bytes', hfile', -, hdecoded'⟩ := hright
  obtain rfl := hfile.unique hfile'
  exact Except.ok.inj (hdecoded.symm.trans hdecoded')

/-- The result of reading the stored manifest. -/
structure ManifestRead (faults : Set Choice) (ext : External) (loc : Loc) (inv : Cache → Prop)
    (s : Cache) (result : Except Error Manifest) (s' : Cache) : Prop where
  looked : Looked loc inv s s'
  found : ∀ manifest, result = .ok manifest → StoresManifest ext loc manifest s'
  lucky : Lucky faults → ∀ manifest, StoresManifest ext loc manifest s → result = .ok manifest

theorem ManifestRead.error {ext : External} {error : Error} {s s' : Cache}
    (h : Looked loc inv s s')
    (hlucky : Lucky faults → ∀ manifest, ¬ StoresManifest ext loc manifest s) :
    ManifestRead faults ext loc inv s (.error error) s' :=
  ⟨h, by simp, fun hall manifest hstored => absurd hstored (hlucky hall manifest)⟩

/-- The part of `read_contained_manifest` after the first look at the file. -/
theorem read_manifest_file_spec (hw : Watched loc dirs rely guar inv) {content : List UInt8}
    {s : Cache} (hs : inv s) (hfile : HasFile loc manifestFile content s)
    (hsize : content.length ≤ maxManifestBytes) :
    Looks rely guar faults (do
      let bytes ← orInvalid "manifest is unavailable"
        (readToEnd loc manifestFile (maxManifestBytes + 1) (maxManifestBytes + 1) [])
      let final ← orInvalid "manifest is unavailable" (pathMetadata loc manifestFile)
      failIf (final.1 ≠ .file ∨ maxManifestBytes < bytes.length ∨ final.2 ≠ content.length ∨
          final.2 ≠ bytes.length)
        (.invalid "manifest changed while it was being read")
      lift (Manifest.fromJson store.ext bytes))
      (ManifestRead faults store.ext loc inv s) s := by
  have hread : Looks rely guar faults
      (readToEnd loc manifestFile (maxManifestBytes + 1) (maxManifestBytes + 1) []) _ s :=
    read_to_end_spec hw (maxManifestBytes + 1) hs hfile List.nil_prefix (by omega) (by simp)
  refine looks_bind hw (looks_or_invalid hw (Program.wpE.imp hread fun result a ha => ?_))
  obtain ⟨ha, hall, hlucky⟩ := ha
  refine ⟨ha.2, fun b hb => ?_⟩
  replace hb := ha.trans hb
  cases result with
  | error error => exact .error hb fun h => by simpa using hlucky h
  | ok bytes =>
      obtain rfl := hall bytes rfl
      refine looks_bind hw (looks_or_invalid hw (looks_path_metadata hw hb.2 ?_ ?_))
      · intro hmissing kind c hc
        refine ⟨hc.2, fun d hd => .error (hb.trans (hc.trans hd)) fun h => ?_⟩
        have hthere := hb.1 _ _ hfile
        simp [hmissing h] at hthere
      · intro node c hc hnode
        obtain rfl : node = .file bytes := by
          have hthere := hc.1 _ _ (hb.1 _ _ hfile)
          simpa [hnode] using hthere
        refine ⟨hc.2, fun d hd => ?_⟩
        replace hd := hb.trans (hc.trans hd)
        refine looks_bind hw (looks_fail_if hw hd.2 ?_ ?_)
        · intro hchanged
          simp only [Node.kind, Node.length, ne_eq, not_true_eq_false, false_or,
            or_false] at hchanged
          omega
        · intro _ e he
          refine looks_lift hw he.2 fun f hf => ⟨hd.trans (he.trans hf), ?_, ?_⟩
          · exact fun manifest hok => ⟨bytes, (hd.trans (he.trans hf)).1 _ _ hfile, hsize, hok⟩
          · rintro - manifest ⟨other, hother, -, hok⟩
            obtain rfl := hother.unique hfile
            exact hok

/-- `read_contained_manifest` finds the manifest that is stored. -/
theorem read_contained_manifest_spec (hw : Watched loc dirs rely guar inv)
    {s : Cache} (hs : inv s) :
    Looks rely guar faults (readContainedManifest store loc)
      (ManifestRead faults store.ext loc inv s) s := by
  refine looks_bind hw (looks_or_invalid hw (looks_symlink_metadata hw hs ?_ ?_))
  · intro hmissing kind a ha
    refine ⟨ha.2, fun b hb => .error (ha.trans hb) ?_⟩
    rintro hall manifest ⟨bytes, hfile, -⟩
    simpa [hfile.root] using hmissing hall
  intro kind a ha hkind
  refine ⟨ha.2, fun b hb => looks_bind hw (looks_fail_if hw hb.2 ?_ ?_)⟩
  · rintro hdir c hc
    refine .error (ha.trans (hb.trans hc)) ?_
    rintro _ manifest ⟨bytes, hfile, -⟩
    exact hdir (hkind (by simp [hfile.root]))
  intro _ c hc
  replace hc : Looked loc inv s c := ha.trans (hb.trans hc)
  refine looks_bind hw (looks_or_invalid hw (looks_fs hw (by exact rfl) hc.2 ?_ ?_))
  · intro hbad d hd
    exact ⟨hd.2, fun e he => .error (hc.trans (hd.trans he)) (absurd · hbad)⟩
  intro choice d e hd he
  refine ⟨he.2, fun f hf => ?_⟩
  replace hf : Looked loc inv s f := ⟨hc.1.trans (hd.trans (he.1.trans hf.1)), hf.2⟩
  -- A stored manifest is a file that can be opened.
  have hopen : ∀ manifest, StoresManifest store.ext loc manifest s →
      (d.perform choice (.openFile loc manifestFile)).1 = .ok () := by
    rintro manifest ⟨bytes, hfile, -⟩
    have hthere : d.node loc manifestFile = some (.file bytes) := hd _ _ (hc.1 _ _ hfile)
    simp [Cache.perform, hthere]
  cases hreply : (d.perform choice (.openFile loc manifestFile)).1 with
  | error error =>
      refine .error hf fun _ manifest hstored => ?_
      simp [hopen manifest hstored] at hreply
  | ok =>
      refine looks_bind hw (looks_or_invalid hw (looks_path_metadata hw hf.2 ?_ ?_))
      · intro hmissing kind g hg
        refine ⟨hg.2, fun h hh => .error (hf.trans (hg.trans hh)) ?_⟩
        rintro hall manifest ⟨bytes, hfile, -⟩
        have hthere := hf.1 _ _ hfile
        simp [hmissing hall] at hthere
      intro node g hg hnode
      refine ⟨hg.2, fun h hh => looks_bind hw (looks_fail_if hw hh.2 ?_ ?_)⟩
      · rintro hbad i hi
        refine .error (hf.trans (hg.trans (hh.trans hi))) ?_
        rintro _ manifest ⟨bytes, hfile, hsize, -⟩
        have hthere := hg.1 _ _ (hf.1 _ _ hfile)
        rw [hnode, Option.some.injEq] at hthere
        subst hthere
        simp [Node.kind, Node.length] at hbad
        omega
      · intro hgood i hi
        obtain ⟨content, rfl⟩ : ∃ content, node = .file content := by
          cases node with
          | file content => exact ⟨content, rfl⟩
          | dir | link | special => simp [Node.kind] at hgood
        replace hgood : content.length ≤ maxManifestBytes := by
          simpa [Node.kind, Node.length] using hgood
        have hlooked : Looked loc inv s i := hf.trans (hg.trans (hh.trans hi))
        refine Program.wpE.imp (read_manifest_file_spec hw hi.2 (hi.1 _ _ (hh.1 _ _ hnode)) hgood)
          fun result j hj => ⟨hlooked.trans hj.looked, hj.found, fun hall manifest hstored => ?_⟩
        exact hj.lucky hall manifest (hstored.kept hlooked.1)

end Reading

end EmbeddingServer
