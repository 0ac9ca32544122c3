import EmbeddingServer.Models.Footprint
import EmbeddingServer.Models.Transaction

/-!
# What a store operation can do

`StoreStep` lists everything a single primitive of a store or installer operation can do to
the trees and the marker of its key: a step of a promotion, work on the staged tree while no
marker exists, the removal of a staged tree next to a marker, the burial of an installed tree
and the removal of its tombstone, and the creation of missing directories by a verification.
Every operation is shown to take only such steps, here those that only look at a tree;
invariants are derived from the list.
-/

namespace EmbeddingServer

/-- Only the tree at one location, and what is flushed of it, may have changed. -/
structure Edited (loc : Loc) (s s' : Cache) : Prop where
  entry : ∀ other, other ≠ loc → s'.entry other = s.entry other
  marker : s'.marker = s.marker
  prepared : s'.prepared = s.prepared
  renames : s'.renames = s.renames
  durable : ∀ item ∈ s.durable, item.1 ≠ loc → item ∈ s'.durable

theorem Edited.refl (loc : Loc) (s : Cache) : Edited loc s s :=
  ⟨fun _ _ => rfl, rfl, rfl, rfl, fun _ h _ => h⟩

/-- Nothing on disk has changed. -/
structure Quiet (s s' : Cache) : Prop where
  entry : ∀ loc, s'.entry loc = s.entry loc
  marker : s'.marker = s.marker
  prepared : s'.prepared = s.prepared
  renames : s'.renames = s.renames
  durable : s'.durable = s.durable

theorem Quiet.refl (s : Cache) : Quiet s s :=
  ⟨fun _ => rfl, rfl, rfl, rfl, rfl⟩

/-- A location holds the same as before, or a tree that has one of the given directories more. -/
def Grown (loc : Loc) (dirs : List RelPath) (s s' : Cache) : Prop :=
  s'.entry loc = s.entry loc ∨
    ∃ tree path, s.entry loc = some (.dir tree) ∧ s.node loc path = none ∧ path ∈ dirs ∧
      s'.entry loc = some (.dir { tree with entries := tree.entries.insert path .dir })

/-- A location holds nothing or a directory. -/
def TreeOrNone (s : Cache) (loc : Loc) : Prop :=
  s.entry loc = none ∨ ∃ tree, s.entry loc = some (.dir tree)

/-- The steps of the operations that only look at an installed tree: a recovery, taking and
dropping locks, and the directories a verification creates. -/
inductive ReadStep (key : String) : Cache → Cache → Prop where
  | repair {s s' : Cache} (h : Repair False key s s') : ReadStep key s s'
  | quiet {s s' : Cache} (h : Quiet s s') : ReadStep key s s'
  | grow {s s' : Cache} {dirs : List RelPath} (h : Edited (.models key) s s')
      (hgrown : Grown (.models key) dirs s s') : ReadStep key s s'

/-- The steps of a deletion: a recovery, the rename of an installed tree to the tombstone, and work
on the tombstone. -/
inductive DeleteStep (exact : Prop) (key : String) : Cache → Cache → Prop where
  | repair {s s' : Cache} (h : Repair exact key s s') : DeleteStep exact key s s'
  | bury {s s' : Cache} {tree : Tree} (hmarker : s.marker key = none)
      (htree : s.entry (.models key) = some (.dir tree))
      (h : s.rename (.models key) (.tombstone key) = some s') : DeleteStep exact key s s'
  | unbury {s s' : Cache} (h : Edited (.tombstone key) s s')
      (hdir : TreeOrNone s (.tombstone key) → TreeOrNone s' (.tombstone key)) :
      DeleteStep exact key s s'

/-- The steps of the store and the installer on one key. -/
inductive StoreStep (ready : Tree → Prop) (key : String) : Cache → Cache → Prop where
  | reading {s s' : Cache} (h : ReadStep key s s') : StoreStep ready key s s'
  | promotion {s s' : Cache} (h : Promotion ready key s s') : StoreStep ready key s s'
  | deletion {s s' : Cache} (h : DeleteStep False key s s') : StoreStep ready key s s'
  | stage {s s' : Cache} (hmarker : s.marker key = none) (h : Edited (.staging key) s s')
      (hdir : TreeOrNone s (.staging key) → TreeOrNone s' (.staging key)) :
      StoreStep ready key s s'
  | sweep {s s' : Cache} (hmarked : .staging key ∈ s.markedRemovals)
      (h : Edited (.staging key) s s')
      (hdir : TreeOrNone s (.staging key) → TreeOrNone s' (.staging key))
      (hgone : s.entry (.staging key) = none → s'.entry (.staging key) = none) :
      StoreStep ready key s s'

/-! ## Effects of primitives -/

namespace Cache

theorem set_node_entry_ne {s : Cache} {loc other : Loc} {tree : Tree} {path : RelPath} {node : Node}
    (h : other ≠ loc) : (s.setNode loc tree path node).entry other = s.entry other :=
  AList.lookup_insert_ne h

theorem set_node_entry {s : Cache} {loc : Loc} {tree : Tree} {path : RelPath} {node : Node} :
    (s.setNode loc tree path node).entry loc =
      some (.dir { tree with entries := tree.entries.insert path node }) :=
  AList.lookup_insert _

theorem erase_node_entry_ne {s : Cache} {loc other : Loc} {tree : Tree} {path : RelPath}
    (h : other ≠ loc) : (s.eraseNode loc tree path).entry other = s.entry other :=
  AList.lookup_insert_ne h

theorem erase_node_entry {s : Cache} {loc : Loc} {tree : Tree} {path : RelPath} :
    (s.eraseNode loc tree path).entry loc =
      some (.dir { tree with entries := tree.entries.erase path }) :=
  AList.lookup_insert _

theorem set_node_edited (s : Cache) (loc : Loc) (tree : Tree) (path : RelPath) (node : Node) :
    Edited loc s (s.setNode loc tree path node) where
  entry _ h := set_node_entry_ne h
  marker := rfl
  prepared := rfl
  renames := rfl
  durable item hitem hloc := by
    refine List.mem_filter.mpr ⟨hitem, ?_⟩
    simp only [ne_eq, decide_eq_true_eq]
    exact ⟨fun heq => hloc (by rw [heq]), fun heq => hloc (by rw [heq])⟩

theorem erase_node_edited (s : Cache) (loc : Loc) (tree : Tree) (path : RelPath) :
    Edited loc s (s.eraseNode loc tree path) where
  entry _ h := erase_node_entry_ne h
  marker := rfl
  prepared := rfl
  renames := rfl
  durable item hitem hloc := by
    refine List.mem_filter.mpr ⟨hitem, ?_⟩
    simp only [ne_eq, decide_eq_true_eq]
    exact ⟨fun heq => hloc (by rw [heq]), fun heq => hloc (by rw [heq])⟩

theorem add_node_edited (s : Cache) (loc : Loc) (path : RelPath) (node : Node) :
    Edited loc s (s.addNode loc path node).2 := by
  unfold addNode
  split
  · exact .refl loc s
  · split
    · exact .refl loc s
    · split
      · exact set_node_edited ..
      · exact .refl loc s

/-- Flushing edits nothing but what is flushed. -/
theorem durable_edited (s : Cache) (loc : Loc) (item : Loc × RelPath) :
    Edited loc s { s with durable := item :: s.durable } :=
  ⟨fun _ _ => rfl, rfl, rfl, rfl, fun _ h _ => List.mem_cons_of_mem _ h⟩

/-- Code confined to a location edits nothing else. -/
theorem perform_edited {loc : Loc} {op : FsOp} (h : op.Confined loc) (s : Cache) (choice : Choice) :
    Edited loc s (s.perform choice op).2 := by
  cases op with
  | syncDir l =>
      cases h
      simp only [perform]
      split
      · exact durable_edited ..
      · exact .refl loc s
  | syncEntry l path =>
      cases h
      simp only [perform]
      split
      · exact durable_edited ..
      · exact .refl loc s
  | listRemoval l =>
      simp only [perform]
      split
      · split
        · exact ⟨fun _ _ => rfl, rfl, rfl, rfl, fun _ h _ => h⟩
        · exact .refl loc s
      · exact .refl loc s
  | unlink l path =>
      cases h
      simp only [perform]
      split
      · exact .refl loc s
      · split
        · exact .refl loc s
        · split
          · exact .refl loc s
          · exact erase_node_edited ..
  | removeDir l =>
      cases h
      simp only [perform]
      split
      · exact .refl loc s
      · split
        · refine ⟨fun other hother => AList.lookup_erase_ne hother, rfl, rfl, rfl, ?_⟩
          exact fun item hitem hloc => List.mem_filter.mpr ⟨hitem, by simpa using hloc⟩
        · exact .refl loc s
  | createDir l =>
      cases h
      simp only [perform]
      split
      · refine ⟨fun other hother => AList.lookup_insert_ne hother, rfl, rfl, rfl, ?_⟩
        exact fun item hitem hloc => List.mem_filter.mpr ⟨hitem, by simpa using hloc⟩
      · exact .refl loc s
      · exact .refl loc s
  | makeDir l path =>
      cases h
      exact add_node_edited ..
  | createFile l path =>
      cases h
      exact add_node_edited ..
  | append l path bytes =>
      cases h
      simp only [perform]
      split
      · exact set_node_edited ..
      · exact .refl loc s
  | rename | createMarker | syncMarker | removeMarker | quarantineCandidate | openLock | tryLock
  | unlock | markerMetadata => exact h.elim
  | readTree l =>
      simp only [perform]
      split <;> exact .refl loc s
  | openDir l path =>
      simp only [perform]
      split <;> exact .refl loc s
  | openFile l path =>
      simp only [perform]
      split <;> exact .refl loc s
  | read l path offset limit =>
      simp only [perform]
      split <;> exact .refl loc s
  | observe | metadata | createRoot | syncRoot | fileMetadata | poll | inspectSource | openSource
  | readSource | beginCommit | httpGet | httpChunk => exact .refl loc s

end Cache

/-- A property of the state before and of the state after a primitive holds whether it fails or
not. -/
theorem respond_state {holds : Cache → Prop} {choice : Choice} {s : Cache} {op : FsOp}
    (hbefore : holds s) (hafter : holds (s.perform choice op).2) :
    holds (respond choice s op).2 := by
  rcases respond_cases choice s op with h | ⟨-, h | h⟩
  · rw [h]; exact hafter
  · rw [h]; exact hbefore
  · rw [h]; exact hafter

theorem respond_edited {loc : Loc} {op : FsOp} (h : op.Confined loc) (choice : Choice) (s : Cache) :
    Edited loc s (respond choice s op).2 :=
  respond_state (.refl loc s) (Cache.perform_edited h s choice)

/-- A verification may only create missing directories. -/
theorem respond_grown {loc : Loc} {dirs : List RelPath} {op : FsOp} (h : op.Inspects loc dirs)
    (choice : Choice) (s : Cache) : Grown loc dirs s (respond choice s op).2 := by
  refine respond_state (Or.inl rfl) ?_
  cases op with
  | makeDir l path =>
      obtain ⟨rfl, hpath⟩ := h
      simp only [Cache.perform, Cache.addNode]
      split
      · exact Or.inl rfl
      · rename_i tree htree
        split
        · exact Or.inl rfl
        · rename_i hfree
          split
          · refine Or.inr ⟨tree, path, ?_, by simpa using hfree, hpath, Cache.set_node_entry⟩
            revert htree
            simp only [Cache.tree]
            split <;> simp_all
          · exact Or.inl rfl
  | metadata l => exact Or.inl rfl
  | fileMetadata l path => exact Or.inl rfl
  | poll => exact Or.inl rfl
  | openDir l path | openFile l path | read l path offset limit =>
      simp only [Cache.perform]
      split <;> exact Or.inl rfl
  | _ => exact h.elim

theorem Edited.trans {loc : Loc} {a b c : Cache} (hab : Edited loc a b) (hbc : Edited loc b c) :
    Edited loc a c where
  entry other hother := (hbc.entry other hother).trans (hab.entry other hother)
  marker := hbc.marker.trans hab.marker
  prepared := hbc.prepared.trans hab.prepared
  renames := hbc.renames.trans hab.renames
  durable item hitem hloc := hbc.durable item (hab.durable item hitem hloc) hloc

/-- Taking and dropping locks. -/
def FsOp.Locks (key : String) : FsOp → Prop
  | .createRoot _ => True
  | .openLock k => k = key
  | .tryLock _ k _ => k = key
  | .unlock k _ => k = key
  | .poll => True
  | _ => False

theorem respond_quiet {key : String} {op : FsOp} (h : op.Locks key) (choice : Choice) (s : Cache) :
    Quiet s (respond choice s op).2 := by
  refine respond_state (.refl s) ?_
  cases op with
  | createRoot | openLock | poll => exact .refl s
  | tryLock owner k exclusive =>
      simp only [Cache.perform]
      split
      · exact ⟨fun _ => rfl, rfl, rfl, rfl, rfl⟩
      · exact .refl s
  | unlock k handle => exact ⟨fun _ => rfl, rfl, rfl, rfl, rfl⟩
  | _ => exact h.elim

theorem Quiet.trans {a b c : Cache} (hab : Quiet a b) (hbc : Quiet b c) : Quiet a c where
  entry loc := (hbc.entry loc).trans (hab.entry loc)
  marker := hbc.marker.trans hab.marker
  prepared := hbc.prepared.trans hab.prepared
  renames := hbc.renames.trans hab.renames
  durable := hbc.durable.trans hab.durable

/-! ## Operations -/

section Operations

variable {faults : Set Choice} {ready : Tree → Prop} {key : String} {store : ModelStore}
  {manifest : Manifest} {cancelled : StoreM Bool} {α : Type}

/-- Code that only takes and drops locks changes nothing on disk. -/
theorem Only.spec_locks {body : StoreM α} (h : Only (FsOp.Locks key) body) (s : Cache) :
    Spec faults (ReadStep key) body (fun _ s' => Quiet s s') s := by
  refine Program.wp_of_all h (fun _ _ heq hinv => heq ▸ hinv) ?_ (.refl s)
  intro op hop choice _ a ha
  have hstep := respond_quiet hop choice a
  exact ⟨.quiet hstep, ha.trans hstep⟩

/-- A verification adds nothing but directories to an installed tree. -/
theorem Only.spec_inspects {dirs : List RelPath} {body : StoreM α}
    (h : Only (FsOp.Inspects (.models key) dirs) body) (s : Cache) :
    Spec faults (ReadStep key) body (fun _ s' => Edited (.models key) s s' ∧
      (s.entry (.models key) = none → s'.entry (.models key) = none)) s := by
  refine Program.wp_of_all h (fun _ _ heq hinv => heq ▸ hinv) ?_ ⟨.refl _ s, id⟩
  rintro op hop choice - a ⟨ha, hnone⟩
  have hedit := respond_edited hop.confined choice a
  have hgrown := respond_grown hop choice a
  refine ⟨.grow hedit hgrown, ha.trans hedit, fun hs => ?_⟩
  rcases hgrown with hsame | ⟨tree, path, htree, -⟩
  · rw [hsame, hnone hs]
  · rw [hnone hs] at htree
    cases htree

/-- Dropping a handle cannot fail. -/
theorem spec_unlock {guar : Cache → Cache → Prop} {handle : Nat}
    {post : Except Error Unit → Cache → Prop} {s : Cache}
    (hguar : ∀ a b, Quiet a b → guar a b) (hpost : ∀ s', Quiet s s' → post (.ok ()) s') :
    Spec faults guar (fs (.unlock key handle)) post s := by
  refine Program.wp_bind (fun _ => rfl) (Program.wp_primitive fun choice _ => ?_)
  have hreply : respond choice s (.unlock key handle) = s.perform choice (.unlock key handle) := by
    unfold respond
    cases choice.fault <;> rfl
  rw [hreply]
  have hquiet : Quiet s (s.perform choice (.unlock key handle)).2 :=
    ⟨fun _ => rfl, rfl, rfl, rfl, rfl⟩
  refine ⟨hguar _ _ hquiet, ?_⟩
  rintro s' rfl
  exact hpost _ hquiet

/-- A lock is dropped whatever the result of the body. -/
theorem holding_spec {guar : Cache → Cache → Prop} {handle : Nat} {body : StoreM α}
    {post : Except Error α → Cache → Prop} {s : Cache} (hguar : ∀ a b, Quiet a b → guar a b)
    (h : Spec faults guar body (fun result a => ∀ b, Quiet a b → post result b) s) :
    Spec faults guar (holding key handle body) post s := by
  refine spec_bind (spec_attempt (h.imp fun result a ha => ?_))
  exact spec_bind (spec_unlock hguar fun b hb => spec_lift (ha b hb))

theorem read_step_quiet (a b : Cache) (h : Quiet a b) : ReadStep key a b :=
  .quiet h

/-- The footprint of a poll of the cancellation flag. -/
def Polls (cancelled : StoreM Bool) : Prop :=
  Only (fun op => op = .poll) cancelled

theorem polls_never : Polls (pure false) := only_pure _

theorem polls_flag : Polls isCancelRequested := only_fs rfl

theorem Polls.only {allowed : FsOp → Prop} (h : Polls cancelled) (hpoll : allowed .poll) :
    Only allowed cancelled :=
  h.mono fun _ hop => hop ▸ hpoll

theorem lock_exclusive_only (hcancel : Polls cancelled) (attempts : Nat) :
    Only (FsOp.Locks key) (lockExclusive store key cancelled attempts) := by
  induction attempts with
  | zero => exact only_throw _
  | succ attempts ih =>
      refine only_bind (hcancel.only trivial) fun _ => ?_
      refine only_bind (only_fail_if _ _) fun _ => ?_
      refine only_bind (only_attempt (only_bind (only_fs rfl) fun _ => only_fs rfl))
        fun result => ?_
      split
      · exact only_pure _
      · exact ih
      · exact only_throw _

theorem acquire_store_lock_only (hcancel : Polls cancelled) :
    Only (FsOp.Locks key) (acquireStoreLock store key cancelled) :=
  only_bind (only_fs trivial) fun _ => lock_exclusive_only hcancel _

theorem lock_shared_only (attempts : Nat) :
    Only (FsOp.Locks key) (lockShared store key attempts) := by
  induction attempts with
  | zero => exact only_throw _
  | succ attempts ih =>
      refine only_bind (only_attempt (only_fs rfl)) fun result => ?_
      split
      · exact only_pure _
      · exact ih
      · exact only_throw _

theorem acquire_shared_store_lock_only : Only (FsOp.Locks key) (acquireSharedStoreLock store key) :=
  only_bind (only_fs trivial) fun _ => only_bind (only_fs rfl) fun _ => lock_shared_only _

theorem acquire_delete_lock_only : Only (FsOp.Locks key) (acquireDeleteLock store key) := by
  refine only_bind (only_fs trivial) fun _ => ?_
  refine only_bind (only_fs rfl) fun _ => ?_
  refine only_bind (only_attempt (only_fs rfl)) fun result => ?_
  split <;> trivial

theorem lock_for_install_only (attempts : Nat) :
    Only (FsOp.Locks key) (lockForInstall store key attempts) := by
  induction attempts with
  | zero => exact only_throw _
  | succ attempts ih =>
      refine only_bind (only_attempt (only_bind (only_fs rfl) fun _ => only_fs rfl))
        fun result => ?_
      split
      · exact only_pure _
      · exact only_bind (only_bind (only_fs trivial) fun _ => only_fail_if _ _) fun _ => ih
      · exact only_throw _

theorem acquire_install_lock_only : Only (FsOp.Locks key) (acquireInstallLock store key) :=
  only_bind (only_fs trivial) fun _ => lock_for_install_only _

/-- The steps of a recovery are steps of the store. -/
theorem reconcile_repair_steps (s : Cache) :
    Spec faults (ReadStep key) (reconcileRepair store key)
      (fun result s' => Transition.Run (Repair False key) s s' ∧
        Reconciled faults key s result s') s := by
  have hspec : Spec faults (Repair False key) (reconcileRepair store key)
      (Reconciled faults key s) s := reconcile_repair_spec (by simp)
  exact hspec.run.mono (fun _ _ h => .repair h) fun _ _ h => h

/-- Afterwards there is no marker, unless something failed. -/
theorem reconcile_if_marked_steps (hcancel : Polls cancelled) (s : Cache) :
    Spec faults (ReadStep key) (reconcileIfMarked store key cancelled)
      (fun result s' => result = .ok () → s'.marker key = none) s := by
  refine spec_bind (spec_query (fun _ => rfl) (.quiet (.refl s))
    (fun _ => by simp [Program.andThen])
    fun choice => ?_)
  simp only [Cache.perform]
  cases hmarker : s.marker key with
  | none => exact spec_pure fun _ => hmarker
  | some kind =>
      refine spec_bind (((acquire_store_lock_only hcancel).spec_locks s).imp fun result a ha => ?_)
      cases result with
      | error error => simp [Program.andThen]
      | ok handle =>
          refine holding_spec read_step_quiet ?_
          refine (reconcile_repair_steps a).imp fun result b hb c hc hok => ?_
          rw [hc.marker]
          exact hb.2.marker hok

/-- `status_inner` only adds missing directories. -/
theorem status_inner_steps (hcancel : Polls cancelled) (s : Cache) :
    Spec faults (ReadStep (store.key manifest)) (statusInner store manifest cancelled)
      (fun _ s' => Edited (.models (store.key manifest)) s s' ∧
        (s.entry (.models (store.key manifest)) = none →
          s'.entry (.models (store.key manifest)) = none)) s :=
  (status_inner_only (hcancel.only trivial)).spec_inspects s

theorem status_with_cancel_steps (hcancel : Polls cancelled) (s : Cache) :
    Spec faults (ReadStep (store.key manifest)) (statusWithCancel store manifest cancelled)
      (fun result s' => ∀ found, result = .ok found → s'.marker (store.key manifest) = none) s := by
  refine spec_bind (spec_lift ?_)
  cases manifest.validate store.ext with
  | error error => simp [Program.andThen]
  | ok =>
      have hpoll : Only (FsOp.Locks (store.key manifest)) cancelled := hcancel.only trivial
      refine spec_bind ((hpoll.spec_locks s).imp fun result a ha => ?_)
      cases result with
      | error error => simp [Program.andThen]
      | ok stop =>
          refine spec_bind (spec_fail_if (fun _ => by simp [Program.andThen]) fun _ => ?_)
          refine spec_bind ((reconcile_if_marked_steps hcancel a).imp fun result b hb => ?_)
          cases result with
          | error error => simp [Program.andThen]
          | ok =>
              refine (status_inner_steps hcancel b).imp fun _ c hc found _ => ?_
              rw [hc.1.marker]
              exact hb rfl

theorem verify_leased_steps (lease : Nat) (s : Cache) :
    Spec faults (ReadStep (store.key manifest)) (verifyLeased store manifest lease)
      (fun _ _ => True) s := by
  refine spec_bind (spec_query (fun _ => rfl) (.quiet (.refl s)) (fun _ => trivial)
    fun choice => ?_)
  simp only [Cache.perform]
  cases hmarker : s.marker (store.key manifest) with
  | some kind => exact spec_pure trivial
  | none =>
      refine spec_bind ((status_inner_steps polls_never s).imp fun result a _ => ?_)
      cases result with
      | error error => trivial
      | ok found => cases found <;> first | exact spec_pure trivial | exact spec_throw trivial

theorem verified_model_loop_steps (rounds : Nat) (s : Cache) :
    Spec faults (ReadStep (store.key manifest)) (verifiedModelLoop store manifest rounds)
      (fun _ _ => True) s := by
  induction rounds generalizing s with
  | zero => exact spec_pure trivial
  | succ rounds ih =>
      refine spec_bind ((reconcile_if_marked_steps polls_never s).imp fun result a _ => ?_)
      cases result with
      | error error => trivial
      | ok =>
          refine spec_bind ((acquire_shared_store_lock_only.spec_locks a).imp fun result b _ => ?_)
          cases result with
          | error error => trivial
          | ok lease =>
              refine spec_bind (spec_attempt ((verify_leased_steps lease b).imp
                fun result c _ => ?_))
              rcases result with error | _ | verified
              · exact spec_bind (spec_unlock read_step_quiet fun _ _ => spec_throw trivial)
              · exact spec_bind (spec_unlock read_step_quiet fun d _ => ih d)
              · exact spec_pure trivial

theorem verified_model_steps (rounds : Nat) (s : Cache) :
    Spec faults (ReadStep (store.key manifest)) (verifiedModel store manifest rounds)
      (fun _ _ => True) s := by
  refine spec_bind (spec_lift ?_)
  cases manifest.validate store.ext with
  | error error => trivial
  | ok => exact verified_model_loop_steps rounds s

end Operations

end EmbeddingServer
