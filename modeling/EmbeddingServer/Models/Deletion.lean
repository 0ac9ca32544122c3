import EmbeddingServer.Models.Inspection
import Mathlib.Data.String.Basic

/-!
# Removal and deletion

`fs::remove_dir_all` removes a tree entry by entry, so it can stop anywhere in between; when
nothing fails it succeeds, because a directory comes after what is in it. A deletion completes
a pending repair, moves the installed tree away in one rename and removes it there.
-/

namespace EmbeddingServer

/-- Code confined to a location leaves nothing or a directory there. -/
theorem Cache.perform_tree_or_none {loc : Loc} {op : FsOp} (h : op.Confined loc) (s : Cache)
    (choice : Choice) (hs : TreeOrNone s loc) : TreeOrNone (s.perform choice op).2 loc := by
  have hadd : ∀ path node, TreeOrNone (s.addNode loc path node).2 loc := by
    intro path node
    unfold Cache.addNode
    split
    · exact hs
    · split
      · exact hs
      · split
        · exact Or.inr ⟨_, Cache.set_node_entry⟩
        · exact hs
  cases op with
  | unlink l path =>
      cases h
      simp only [Cache.perform]
      split
      · exact hs
      · split
        · exact hs
        · split
          · exact hs
          · exact Or.inr ⟨_, Cache.erase_node_entry⟩
  | removeDir l =>
      cases h
      simp only [Cache.perform]
      split
      · exact hs
      · split
        · exact Or.inl (AList.lookup_erase _ _)
        · exact hs
  | createDir l =>
      cases h
      simp only [Cache.perform]
      split
      · exact Or.inr ⟨_, AList.lookup_insert _⟩
      · exact hs
      · exact hs
  | makeDir l path =>
      cases h
      exact hadd path .dir
  | createFile l path =>
      cases h
      exact hadd path (.file [])
  | append l path bytes =>
      cases h
      simp only [Cache.perform]
      split
      · exact Or.inr ⟨_, Cache.set_node_entry⟩
      · exact hs
  | rename | createMarker | syncMarker | removeMarker | quarantineCandidate | openLock | tryLock
  | unlock | markerMetadata => exact h.elim
  | syncDir l | syncEntry l path | readTree l | openDir l path | openFile l path
  | read l path offset limit =>
      simp only [Cache.perform]
      split <;> exact hs
  | listRemoval l =>
      simp only [Cache.perform]
      split
      · split <;> exact hs
      · exact hs
  | observe | metadata | createRoot | syncRoot | fileMetadata | poll | inspectSource | openSource
  | readSource | beginCommit | httpGet | httpChunk => exact hs

theorem respond_tree_or_none {loc : Loc} {op : FsOp} (h : op.Confined loc) (choice : Choice)
    {s : Cache} (hs : TreeOrNone s loc) : TreeOrNone (respond choice s op).2 loc :=
  @respond_state (fun a => TreeOrNone a loc) choice s op hs (s.perform_tree_or_none h choice hs)

/-- The footprint of a recursive removal after its listing. -/
def FsOp.Removes (loc : Loc) : FsOp → Prop
  | .unlink l _ => l = loc
  | .removeDir l => l = loc
  | _ => False

theorem FsOp.Removes.confined {loc : Loc} {op : FsOp} (h : op.Removes loc) : op.Confined loc := by
  cases op <;> first | exact h.elim | exact h

/-- Removing entries neither creates a tree nor touches the record of marked removals. -/
theorem respond_removes {loc : Loc} {op : FsOp} (h : op.Removes loc) (choice : Choice) (s : Cache) :
    (respond choice s op).2.markedRemovals = s.markedRemovals ∧
      (s.entry loc = none → (respond choice s op).2.entry loc = none) := by
  refine @respond_state (fun a => a.markedRemovals = s.markedRemovals ∧
    (s.entry loc = none → a.entry loc = none)) choice s op ⟨rfl, id⟩ ?_
  cases op with
  | unlink l path =>
      cases h
      simp only [Cache.perform]
      split
      · exact ⟨rfl, id⟩
      · rename_i tree htree
        split
        · exact ⟨rfl, id⟩
        · split
          · exact ⟨rfl, id⟩
          · refine ⟨rfl, fun hnone => ?_⟩
            simp [Cache.tree_eq_some.mp htree] at hnone
  | removeDir l =>
      cases h
      simp only [Cache.perform]
      split
      · exact ⟨rfl, id⟩
      · split
        · exact ⟨rfl, fun _ => AList.lookup_erase _ _⟩
        · exact ⟨rfl, id⟩
  | _ => exact h.elim

/-! ## Removing a tree -/

theorem post_order_le_total (left right : RelPath) :
    (postOrderLe left right || postOrderLe right left) = true := by
  induction left generalizing right with
  | nil => cases right <;> simp [postOrderLe]
  | cons l ls ih =>
      cases right with
      | nil => simp [postOrderLe]
      | cons r rs =>
          by_cases heq : l = r
          · subst heq
            simpa [postOrderLe] using ih rs
          · have hne : l < r ∨ r < l := lt_or_gt_of_ne heq
            simpa [postOrderLe, heq, Ne.symm heq] using hne

theorem post_order_le_trans (a b c : RelPath) (hab : postOrderLe a b = true)
    (hbc : postOrderLe b c = true) : postOrderLe a c = true := by
  induction a generalizing b c with
  | nil =>
      cases b with
      | nil => exact hbc
      | cons => simp [postOrderLe] at hab
  | cons x xs ih =>
      cases c with
      | nil => simp [postOrderLe]
      | cons z zs =>
          cases b with
          | nil => simp [postOrderLe] at hbc
          | cons y ys =>
              simp only [postOrderLe] at hab hbc ⊢
              by_cases hxy : x = y
              · subst hxy
                by_cases hxz : x = z
                · subst hxz
                  simp only [if_true] at hab hbc ⊢
                  exact ih ys zs hab hbc
                · simpa [hxz] using hbc
              · by_cases hyz : y = z
                · subst hyz
                  simpa [hxy] using hab
                · have hxy' : x < y := by simpa [hxy] using hab
                  have hyz' : y < z := by simpa [hyz] using hbc
                  have hlt : x < z := lt_trans hxy' hyz'
                  simp [hlt.ne, hlt]

/-- What is in a directory does not come after it. -/
theorem post_order_le_is_prefix_of {path other : RelPath} (hbelow : path.isPrefixOf other = true)
    (hne : other ≠ path) : postOrderLe path other = false := by
  induction path generalizing other with
  | nil =>
      cases other with
      | nil => exact absurd rfl hne
      | cons => rfl
  | cons head rest ih =>
      cases other with
      | nil => simp at hbelow
      | cons head' rest' =>
          simp only [List.isPrefixOf, Bool.and_eq_true, beq_iff_eq] at hbelow
          obtain ⟨rfl, hrest⟩ := hbelow
          simp only [postOrderLe, if_true]
          exact ih hrest fun heq => hne (by rw [heq])

/-- The removal order of a tree: every path once, a directory after what is in it. -/
structure RemovalOrder (tree : Tree) (entries : List (RelPath × FileKind)) : Prop where
  perm : (entries.map Prod.fst).Perm tree.entries.keys
  order : entries.Pairwise fun left right => postOrderLe left.1 right.1 = true

theorem removal_order_post_order (tree : Tree) : RemovalOrder tree (postOrder tree.listing) where
  perm := by
    have hperm := (List.perm_insertionSort
      (fun left right : RelPath × FileKind => postOrderLe left.1 right.1 = true)
      tree.listing).map Prod.fst
    refine hperm.trans (List.Perm.of_eq ?_)
    simp [Tree.listing, AList.keys, List.keys]
  order := by
    have htotal : Std.Total fun left right : RelPath × FileKind =>
        postOrderLe left.1 right.1 = true := ⟨fun a b => by simpa using post_order_le_total a.1 b.1⟩
    have htrans : IsTrans (RelPath × FileKind) fun left right =>
        postOrderLe left.1 right.1 = true := ⟨fun a b c => post_order_le_trans a.1 b.1 c.1⟩
    exact List.pairwise_insertionSort _ tree.listing

/-- The first entry in removal order can be removed, and the others are in order for what is
left. -/
theorem RemovalOrder.uncons {tree : Tree} {item : RelPath × FileKind}
    {rest : List (RelPath × FileKind)} (h : RemovalOrder tree (item :: rest)) :
    item.1 ∈ tree.entries.keys ∧
    (tree.entries.keys.any fun other => item.1.isPrefixOf other && other ≠ item.1) = false ∧
    RemovalOrder { tree with entries := tree.entries.erase item.1 } rest := by
  obtain ⟨hperm, horder⟩ := h
  obtain ⟨hfirst, hrest⟩ := List.pairwise_cons.mp horder
  have hmem : item.1 ∈ tree.entries.keys := hperm.subset (by simp)
  refine ⟨hmem, ?_, ?_, hrest⟩
  · rw [Bool.eq_false_iff]
    intro hany
    obtain ⟨other, hother, hboth⟩ := List.any_eq_true.mp hany
    obtain ⟨hbelow, hne⟩ : item.1.isPrefixOf other = true ∧ other ≠ item.1 := by simpa using hboth
    have hlater : other ∈ rest.map Prod.fst := by
      have hentry := hperm.symm.subset hother
      simpa [hne] using hentry
    obtain ⟨later, hmem', rfl⟩ := List.mem_map.mp hlater
    have hle := hfirst later hmem'
    rw [post_order_le_is_prefix_of hbelow hne] at hle
    cases hle
  · have herase := List.Perm.erase item.1 hperm
    rw [List.map_cons, List.erase_cons_head] at herase
    refine herase.trans (List.Perm.of_eq ?_)
    rw [AList.keys_erase]
    congr!

/-- The result of removing entries. -/
structure Removed (faults : Set Choice) (loc : Loc) (entries : List (RelPath × FileKind))
    (s : Cache) (result : Except Error Unit) (s' : Cache) : Prop where
  edited : Edited loc s s'
  treeOrNone : TreeOrNone s loc → TreeOrNone s' loc
  gone : result = .ok () → s'.entry loc = none
  lucky : Lucky faults → ∀ tree, s.tree loc = some tree → RemovalOrder tree entries →
    result = .ok ()

section Removal

variable {faults : Set Choice} {guar : Cache → Cache → Prop} {loc : Loc}

theorem Removed.error {entries : List (RelPath × FileKind)} {s s' : Cache} {error : Error}
    (hedited : Edited loc s s') (htree : TreeOrNone s loc → TreeOrNone s' loc)
    (hlucky : Lucky faults → ∀ tree, s.tree loc = some tree → ¬ RemovalOrder tree entries) :
    Removed faults loc entries s (.error error) s' :=
  ⟨hedited, htree, by simp, fun h tree htree horder => absurd horder (hlucky h tree htree)⟩

/-- Every removal step is an edit of the location. -/
theorem perform_removes {op : FsOp} (h : op.Removes loc) (s : Cache) (choice : Choice) :
    Edited loc s (s.perform choice op).2 ∧
      (TreeOrNone s loc → TreeOrNone (s.perform choice op).2 loc) :=
  ⟨Cache.perform_edited h.confined s choice,
    Cache.perform_tree_or_none h.confined s choice⟩

theorem remove_entries_spec
    (hguar : ∀ a b, Edited loc a b → (TreeOrNone a loc → TreeOrNone b loc) → guar a b)
    (entries : List (RelPath × FileKind)) (s : Cache) :
    Spec faults guar (removeEntries loc entries) (Removed faults loc entries s) s := by
  have hrefl : ∀ a, guar a a := fun a => hguar a a (.refl loc a) id
  induction entries generalizing s with
  | nil =>
      have hstep := fun choice => @perform_removes loc (.removeDir loc) rfl s choice
      refine spec_fs (hrefl s) (fun hbad => .error (.refl loc s) id (absurd · hbad))
        (fun choice _ => ⟨hguar _ _ (hstep choice).1 (hstep choice).2, ?_⟩)
        fun hbad choice _ => .error (hstep choice).1 (hstep choice).2 (absurd · hbad)
      refine ⟨(hstep choice).1, (hstep choice).2, ?_, ?_⟩
      · simp only [Cache.perform]
        split
        · simp [Except.mapError]
        · split
          · exact fun _ => AList.lookup_erase _ _
          · simp [Except.mapError]
      · intro _ tree htree horder
        have hempty : tree.entries.keys = [] := List.nil_perm.mp horder.perm
        simp [Cache.perform, htree, hempty, Except.mapError]
  | cons item rest ih =>
      obtain ⟨path, kind⟩ := item
      have hstep := fun choice => @perform_removes loc (.unlink loc path) rfl s choice
      refine spec_bind (spec_fs (hrefl s) (fun hbad => .error (.refl loc s) id (absurd · hbad))
        (fun choice _ => ⟨hguar _ _ (hstep choice).1 (hstep choice).2, ?_⟩)
        fun hbad choice _ => .error (hstep choice).1 (hstep choice).2 (absurd · hbad))
      cases hreply : (s.perform choice (.unlink loc path)).1 with
      | error error =>
          refine .error (hstep choice).1 (hstep choice).2 fun _ tree htree horder => ?_
          obtain ⟨hmem, hleaf, -⟩ := horder.uncons
          simp only [Cache.perform, htree] at hreply
          rw [if_neg (not_not.mpr hmem), if_neg (by rw [hleaf]; simp)] at hreply
          cases hreply
      | ok =>
          refine (ih _).imp fun result s' h => ⟨(hstep choice).1.trans h.edited,
            fun hs => h.treeOrNone ((hstep choice).2 hs), h.gone,
            fun hlucky tree htree horder => ?_⟩
          obtain ⟨hmem, hleaf, hrest⟩ := horder.uncons
          refine h.lucky hlucky _ ?_ hrest
          simp only [Cache.perform, htree]
          rw [if_neg (not_not.mpr hmem), if_neg (by rw [hleaf]; simp)]
          exact Cache.tree_eq_some.mpr Cache.erase_node_entry

/-- The result of `fs::remove_dir_all`. -/
structure RemovedAll (faults : Set Choice) (loc : Loc) (s : Cache) (result : Except Error Unit)
    (s' : Cache) : Prop where
  edited : Edited loc s s'
  treeOrNone : TreeOrNone s loc → TreeOrNone s' loc
  gone : result = .ok () → s'.entry loc = none
  lucky : Lucky faults → ∀ tree, s.tree loc = some tree → result = .ok ()

theorem RemovedAll.error {s s' : Cache} {error : Error} (hedited : Edited loc s s')
    (htree : TreeOrNone s loc → TreeOrNone s' loc)
    (hlucky : Lucky faults → ∀ tree, s.tree loc ≠ some tree) :
    RemovedAll faults loc s (.error error) s' :=
  ⟨hedited, htree, by simp, fun h tree htree => absurd htree (hlucky h tree)⟩

theorem remove_dir_all_spec
    (hguar : ∀ a b, Edited loc a b → (TreeOrNone a loc → TreeOrNone b loc) → guar a b) (s : Cache) :
    Spec faults guar (removeDirAll loc) (RemovedAll faults loc s) s := by
  have hlist : ∀ choice, Edited loc s (s.perform choice (.listRemoval loc)).2 ∧
      (TreeOrNone s loc → TreeOrNone (s.perform choice (.listRemoval loc)).2 loc) :=
    fun choice => ⟨@Cache.perform_edited loc (.listRemoval loc) rfl s choice,
      @Cache.perform_tree_or_none loc (.listRemoval loc) rfl s choice⟩
  refine spec_bind (spec_fs (hguar s s (.refl loc s) id)
    (fun hbad => .error (.refl loc s) id (absurd · hbad))
    (fun choice _ => ⟨hguar _ _ (hlist choice).1 (hlist choice).2, ?_⟩)
    fun hbad choice _ => .error (hlist choice).1 (hlist choice).2 (absurd · hbad))
  have hafter := hlist choice
  simp only [Cache.perform] at hafter ⊢
  cases htree : s.tree loc with
  | none => exact .error (.refl loc s) id (by simp [htree])
  | some tree =>
      simp only [htree] at hafter
      refine (remove_entries_spec hguar _ _).imp fun result s' h => ?_
      refine ⟨hafter.1.trans h.edited, fun hs => h.treeOrNone (hafter.2 hs), h.gone, ?_⟩
      refine fun hlucky _ _ => h.lucky hlucky tree ?_ (removal_order_post_order tree)
      cases hmarker : s.marker loc.key with
      | none => simpa [hmarker] using htree
      | some kind =>
          simp only [Option.isSome_some, if_true]
          exact htree

end Removal

/-! ## Deleting an identity -/

section Deletion

variable {faults : Set Choice} {exact : Prop} {key : String} {store : ModelStore}
  {manifest : Manifest}

theorem delete_step_flush (a b : Cache) (h : Synced a b) : DeleteStep exact key a b :=
  .repair (.flush h)

theorem remove_deletion_tombstone_spec (s : Cache) :
    Spec faults (DeleteStep exact key) (removeDeletionTombstone key)
      (fun result s' => Edited (.tombstone key) s s' ∧
        (TreeOrNone s (.tombstone key) → TreeOrNone s' (.tombstone key)) ∧
        (result = .ok () → s'.entry (.tombstone key) = none) ∧
        (Lucky faults → TreeOrNone s (.tombstone key) → result = .ok ())) s := by
  refine spec_bind (spec_idle (fun _ => rfl) rfl delete_step_flush
    (fun hbad kind => ⟨.refl _ s, id, by simp, (absurd · hbad)⟩) ?_)
  simp only [Cache.perform, Except.mapError, Program.andThen]
  rcases hentry : s.entry (.tombstone key) with _ | ⟨tree⟩ | _ | _ | _
  case none => exact spec_pure ⟨.refl _ s, id, fun _ => hentry, fun _ _ => rfl⟩
  case some.dir =>
      simp only [Option.map_some, Entry.kind]
      have hremove : Spec faults (DeleteStep exact key) (removeDirAll (.tombstone key))
          (RemovedAll faults (.tombstone key) s) s :=
        remove_dir_all_spec (fun _ _ hedited hdir => .unbury hedited hdir) s
      refine spec_bind (hremove.imp fun result a ha => ?_)
      cases result with
      | error error =>
          refine ⟨ha.edited, ha.treeOrNone, by simp, fun hall _ => ?_⟩
          simpa using ha.lucky hall tree (Cache.tree_eq_some.mpr hentry)
      | ok =>
          refine spec_idle (fun _ => rfl) rfl delete_step_flush (fun hbad kind => ?_) ?_
          · exact ⟨ha.edited, ha.treeOrNone, by simp, (absurd · hbad)⟩
          · exact ⟨ha.edited, ha.treeOrNone, fun _ => ha.gone rfl, fun _ _ => rfl⟩
  all_goals
    refine spec_throw ⟨.refl _ s, id, by simp, fun _ htree => ?_⟩
    rcases htree with hnone | ⟨tree, htree⟩ <;> simp_all

/-- The result of a deletion after the recovery. -/
structure Deleted (faults : Set Choice) (store : ModelStore) (manifest : Manifest) (s : Cache)
    (result : Except Error Bool) (s' : Cache) : Prop where
  marker : s'.marker = s.marker
  /-- Either nothing was renamed and the installed tree stands, or it stored the manifest and was
  moved away. -/
  atomic : s'.renames = s.renames ∧
      s'.entry (.models (store.key manifest)) = s.entry (.models (store.key manifest)) ∨
    s'.renames = (.models (store.key manifest), .tombstone (store.key manifest)) :: s.renames ∧
      s'.entry (.models (store.key manifest)) = none ∧
      StoresManifest store.ext (.models (store.key manifest)) manifest s
  gone : ∀ deleted, result = .ok deleted → s'.entry (.models (store.key manifest)) = none ∧
    s'.entry (.tombstone (store.key manifest)) = none
  lucky : Lucky faults → TreeOrNone s (.tombstone (store.key manifest)) →
    (s.entry (.models (store.key manifest)) = none ∨
      StoresManifest store.ext (.models (store.key manifest)) manifest s) →
    ∃ deleted, result = .ok deleted

/-- A deletion that failed before the rename. -/
theorem Deleted.early {error : Error} {s s' : Cache}
    (hedited : Edited (.tombstone (store.key manifest)) s s')
    (hlucky : Lucky faults → TreeOrNone s (.tombstone (store.key manifest)) →
      ¬ (s.entry (.models (store.key manifest)) = none ∨
        StoresManifest store.ext (.models (store.key manifest)) manifest s)) :
    Deleted faults store manifest s (.error error) s' where
  marker := hedited.marker
  atomic := Or.inl ⟨hedited.renames, hedited.entry _ (by simp)⟩
  gone := by simp
  lucky hall htomb hstored := absurd hstored (hlucky hall htomb)

/-- Work on the tombstone before the deletion goes on. -/
theorem Deleted.before {a b c : Cache} {result : Except Error Bool}
    (hab : Edited (.tombstone (store.key manifest)) a b)
    (hfree : b.entry (.tombstone (store.key manifest)) = none)
    (hbc : Deleted faults store manifest b result c) :
    Deleted faults store manifest a result c where
  marker := hbc.marker.trans hab.marker
  atomic := by
    have hmodels := hab.entry (.models (store.key manifest)) (by simp)
    rw [← hab.renames, ← hmodels]
    exact hbc.atomic.imp_right fun ⟨hrenames, hnone, hstored⟩ =>
      ⟨hrenames, hnone, hstored.congr hmodels.symm⟩
  gone := hbc.gone
  lucky hall _ hstored := by
    have hmodels := hab.entry (.models (store.key manifest)) (by simp)
    refine hbc.lucky hall (Or.inl hfree) ?_
    rw [hmodels]
    exact hstored.imp_right fun hstored => hstored.congr hmodels

theorem check_deletion_target_spec (s : Cache) :
    Spec faults (DeleteStep exact key) (checkDeletionTarget store manifest)
      (fun result s' => s' = s ∧
        (result = .ok () → StoresManifest store.ext (.models (store.key manifest)) manifest s) ∧
        (Lucky faults → StoresManifest store.ext (.models (store.key manifest)) manifest s →
          result = .ok ())) s := by
  refine spec_bind (spec_idle (fun _ => rfl) rfl delete_step_flush
    (fun hbad kind => ⟨rfl, by simp, (absurd · hbad)⟩) ?_)
  have hw := watched_reads (.models (store.key manifest))
    (fun a => @delete_step_flush exact key a a (.refl a)) s
  refine spec_bind (Program.wpE.imp (read_contained_manifest_spec hw rfl) fun result a ha => ?_)
  obtain rfl : a = s := ha.looked.2
  cases result with
  | error error =>
      exact ⟨rfl, by simp, fun hall hstored => by simpa using ha.lucky hall manifest hstored⟩
  | ok stored =>
      refine spec_fail_if (fun hother => ⟨rfl, by simp, fun hall hstored => ?_⟩) fun hsame =>
        ⟨rfl, fun _ => ?_, fun _ _ => rfl⟩
      · obtain rfl : stored = manifest := by simpa using ha.lucky hall manifest hstored
        simp at hother
      · obtain rfl : stored = manifest := by
          by_contra hother
          exact hsame (Or.inl hother)
        exact ha.found stored rfl

/-- Moving the installed tree to a free tombstone and removing it there. -/
theorem bury_model_spec {s : Cache} {tree : Tree} (hmarker : s.marker (store.key manifest) = none)
    (htree : s.entry (.models (store.key manifest)) = some (.dir tree))
    (hfree : s.entry (.tombstone (store.key manifest)) = none) :
    Spec faults (DeleteStep exact (store.key manifest)) (buryModel store manifest)
      (Deleted faults store manifest s) s := by
  refine spec_bind ((check_deletion_target_spec s).imp fun result a ha => ?_)
  obtain ⟨rfl, hfound, hlucky⟩ := ha
  cases result with
  | error error =>
      refine .early (.refl _ a) fun hall _ hstored => ?_
      rcases hstored with hnone | hstored
      · simp [htree] at hnone
      · simpa using hlucky hall hstored
  | ok =>
      have hmoves :
          (a.rename (.models (store.key manifest)) (.tombstone (store.key manifest))).isSome :=
        Cache.rename_is_some (by simp [htree]) hfree
      refine spec_bind (durable_rename_spec delete_step_flush ?_ ?_)
      · intro b hb hblocked kind
        obtain ⟨d, -, rfl⟩ := hb
        refine ⟨rfl, Or.inl ⟨rfl, rfl⟩, by simp, fun hall _ _ => ?_⟩
        simp [hblocked hall] at hmoves
      intro b c hb hrename
      have hentry := Cache.rename_entry hrename
      have hbm : b.marker (store.key manifest) = none := by rw [hb.marker, hmarker]
      have hbt : b.entry (.models (store.key manifest)) = some (.dir tree) := by
        rw [hb.entry, htree]
      refine ⟨.bury hbm hbt hrename, fun d hd => ?_⟩
      -- From here on the tree has been moved away.
      have hmoved : ∀ {result : Except Error Bool} {e : Cache},
          Edited (.tombstone (store.key manifest)) d e →
          (∀ deleted, result = .ok deleted → e.entry (.tombstone (store.key manifest)) = none) →
          (Lucky faults → ∃ deleted, result = .ok deleted) →
          Deleted faults store manifest a result e := by
        intro result e he hgone hall
        have hmodels : e.entry (.models (store.key manifest)) = none := by
          rw [he.entry _ (by simp), hd.entry, hentry]
          simp
        have hrenames : e.renames =
            (.models (store.key manifest), .tombstone (store.key manifest)) :: a.renames := by
          rw [he.renames, hd.renames, Cache.rename_renames hrename, hb.renames]
        refine ⟨?_, Or.inr ⟨hrenames, hmodels, hfound rfl⟩,
          fun deleted hok => ⟨hmodels, hgone deleted hok⟩, fun h _ _ => hall h⟩
        rw [he.marker, hd.marker, Cache.rename_marker hrename, hb.marker]
      have hio : ¬ Lucky faults → ∀ (kind : IoError) (e : Cache),
          Edited (.tombstone (store.key manifest)) d e →
          Deleted faults store manifest a (.error (.io kind)) e :=
        fun hbad kind e he => hmoved he (by simp) (absurd · hbad)
      refine ⟨fun hbad kind => hio hbad kind d (.refl _ d), ?_⟩
      refine spec_bind (spec_idle (fun _ => rfl) rfl delete_step_flush
        (fun hbad kind => hio hbad kind d (.refl _ d)) ?_)
      have htomb : TreeOrNone d (.tombstone (store.key manifest)) := by
        refine Or.inr ⟨tree, ?_⟩
        rw [hd.entry, hentry]
        simpa using hbt
      refine spec_bind ((remove_deletion_tombstone_spec d).imp fun result e he => ?_)
      obtain ⟨hedited, -, hgone, hall⟩ := he
      cases result with
      | error error => exact hmoved hedited (by simp) fun h => by simpa using hall h htomb
      | ok =>
          refine spec_bind (spec_idle (fun _ => rfl) rfl delete_step_flush
            (fun hbad kind => hio hbad kind e hedited) ?_)
          exact spec_pure (hmoved hedited (fun _ _ => hgone rfl) fun _ => ⟨true, rfl⟩)

/-- The part of a deletion after the recovery. -/
theorem delete_reconciled_spec {s : Cache} (hmarker : s.marker (store.key manifest) = none) :
    Spec faults (DeleteStep exact (store.key manifest)) (deleteReconciled store manifest)
      (Deleted faults store manifest s) s := by
  have hio : ∀ {a : Cache}, Edited (.tombstone (store.key manifest)) s a → ¬ Lucky faults →
      ∀ kind, Deleted faults store manifest s (.error (.io kind)) a :=
    fun ha hbad kind => .early ha (absurd · hbad)
  refine spec_bind (spec_idle (fun _ => rfl) rfl delete_step_flush (hio (.refl _ s)) ?_)
  refine spec_bind (spec_idle (fun _ => rfl) rfl delete_step_flush (hio (.refl _ s)) ?_)
  refine spec_bind (spec_idle (fun _ => rfl) rfl delete_step_flush (hio (.refl _ s)) ?_)
  refine spec_bind (spec_idle (fun _ => rfl) rfl delete_step_flush (hio (.refl _ s)) ?_)
  refine spec_bind (spec_idle (fun _ => rfl) rfl delete_step_flush (hio (.refl _ s)) ?_)
  simp only [Cache.perform, Except.mapError, Program.andThen]
  have hpending : Spec faults (DeleteStep exact (store.key manifest))
      (removeIfPending (store.key manifest)
        ((s.entry (.tombstone (store.key manifest))).map Entry.kind).isSome)
      (fun result a => Edited (.tombstone (store.key manifest)) s a ∧
        (result = .ok () → a.entry (.tombstone (store.key manifest)) = none) ∧
        (Lucky faults → TreeOrNone s (.tombstone (store.key manifest)) → result = .ok ())) s := by
    cases hentry : s.entry (.tombstone (store.key manifest)) with
    | none => exact spec_pure ⟨.refl _ s, fun _ => hentry, fun _ _ => rfl⟩
    | some found =>
        exact (remove_deletion_tombstone_spec s).imp fun _ _ h => ⟨h.1, h.2.2.1, h.2.2.2⟩
  refine spec_bind (hpending.imp fun result a ha => ?_)
  obtain ⟨hedited, hgone, hlucky⟩ := ha
  cases result with
  | error error =>
      exact .early hedited fun hall htomb _ => by simpa using hlucky hall htomb
  | ok =>
      have hfree := hgone rfl
      have hmodels := hedited.entry (.models (store.key manifest)) (by simp)
      refine spec_bind (spec_idle (fun _ => rfl) rfl delete_step_flush (hio hedited) ?_)
      simp only [Cache.perform, Except.mapError, Program.andThen]
      rcases hentry : a.entry (.models (store.key manifest)) with _ | ⟨tree⟩ | _ | _ | _
      case none =>
          refine spec_pure (.before hedited hfree ⟨rfl, Or.inl ⟨rfl, rfl⟩, ?_,
            fun _ _ _ => ⟨_, rfl⟩⟩)
          exact fun _ _ => ⟨hentry, hfree⟩
      case some.dir =>
          have hmarker' : a.marker (store.key manifest) = none := by rw [hedited.marker, hmarker]
          exact (bury_model_spec hmarker' hentry hfree).imp fun _ _ h => .before hedited hfree h
      all_goals
        refine spec_throw (.early hedited fun _ _ hstored => ?_)
        rw [hmodels] at hentry
        rcases hstored with hnone | ⟨bytes, hfile, -⟩
        · simp [hentry] at hnone
        · simp [HasFile, Cache.node, Cache.tree, hentry] at hfile

/-- A recovery does not touch the tombstone. -/
theorem repair_tombstone {s s' : Cache} (h : Transition.Run (Repair exact key) s s') :
    s'.entry (.tombstone key) = s.entry (.tombstone key) := by
  induction h with
  | refl => rfl
  | tail _ hstep ih =>
      cases hstep with
      | flush h => rwa [h.entry]
      | displace _ _ _ h | replace _ _ _ h | restore _ _ _ h | quarantine _ _ _ _ h =>
          simpa [Cache.rename_entry h] using ih
      | close _ _ _ _ h =>
          subst h
          exact ih

/-- The result of `delete_locked_with_operations`. -/
structure Erased (faults : Set Choice) (store : ModelStore) (manifest : Manifest) (s : Cache)
    (result : Except Error Bool) (s' : Cache) : Prop where
  gone : ∀ deleted, result = .ok deleted → s'.entry (.models (store.key manifest)) = none ∧
    s'.entry (.tombstone (store.key manifest)) = none ∧ s'.marker (store.key manifest) = none
  lucky : Lucky faults →
    (s.marker (store.key manifest) = none ∨ s.marker (store.key manifest) = some .file) →
    TreeOrNone s (.tombstone (store.key manifest)) →
    (s.marker (store.key manifest) ≠ none → settled s (store.key manifest) ≠ none) →
    (∀ final, settled s (store.key manifest) = some final →
      ∃ tree : Tree, final = .dir tree ∧ tree.Stores store.ext manifest) →
    ∃ deleted, result = .ok deleted

/-- `delete_locked_with_operations` takes only steps of a deletion. -/
theorem delete_locked_spec {s : Cache}
    (hexact : exact → (s.entry (.models (store.key manifest))).isSome →
      (s.entry (.staging (store.key manifest))).isSome →
      s.entry (.backup (store.key manifest)) = none) :
    Spec faults (DeleteStep exact (store.key manifest)) (deleteLocked store manifest)
      (Erased faults store manifest s) s := by
  have hreconcile : Spec faults (Repair exact (store.key manifest))
      (reconcileRepair store (store.key manifest)) (Reconciled faults (store.key manifest) s) s :=
    reconcile_repair_spec hexact
  refine spec_bind (hreconcile.run.mono (fun _ _ h => .repair h) ?_)
  rintro result a ⟨hrun, hrec⟩
  cases result with
  | error error =>
      refine ⟨by simp, fun hall hkind _ hpending hstored => ?_⟩
      have hok := hrec.lucky hall hkind fun hset => ?_
      · simp at hok
      obtain ⟨final, hfinal⟩ := Option.ne_none_iff_exists'.mp (hpending hset)
      obtain ⟨tree, rfl, -⟩ := hstored final hfinal
      exact ⟨tree, hfinal⟩
  | ok =>
      have hmarker := hrec.marker rfl
      refine (delete_reconciled_spec hmarker).imp fun result b hb => ⟨fun deleted hok => ?_, ?_⟩
      · obtain ⟨hmodels, htomb⟩ := hb.gone deleted hok
        exact ⟨hmodels, htomb, by rw [hb.marker, hmarker]⟩
      · intro hall _ htomb _ hstored
        refine hb.lucky hall ?_ ?_
        · simpa [TreeOrNone, repair_tombstone hrun] using htomb
        · rw [hrec.final rfl]
          cases hfinal : settled s (store.key manifest) with
          | none => exact Or.inl rfl
          | some final =>
              obtain ⟨tree, rfl, htree⟩ := hstored final hfinal
              exact Or.inr (stores_manifest_of_tree ((hrec.final rfl).trans hfinal) htree)

end Deletion

end EmbeddingServer
