import EmbeddingServer.Models.Publication

/-!
# Runs of the store

A run on one identity is a sequence of operations, each by some process and each stopped or
failing at any primitive; between two operations handles of the lock file may be dropped.
Every primitive of a run is a step of `StoreStep` and forgets no marked removal, so what
these steps preserve holds in every state of a run.
-/

namespace EmbeddingServer

/-- The operations on one identity. -/
inductive StoreCall where
  | importModel
  | install (options : InstallOptions) (chunks : Nat)
  | status
  | verifiedModel (rounds : Nat)
  | delete
  | reconcile

/-- The code of an operation, without its result. -/
def StoreCall.body (store : ModelStore) (manifest : Manifest) : StoreCall → StoreM Unit
  | .importModel => EmbeddingServer.importModel store manifest >>= fun _ => pure ()
  | .install options chunks =>
      installTransaction ⟨store, options, chunks⟩ manifest >>= fun _ => pure ()
  | .status => EmbeddingServer.status store manifest >>= fun _ => pure ()
  | .verifiedModel rounds =>
      EmbeddingServer.verifiedModel store manifest rounds >>= fun _ => pure ()
  | .delete => deleteModel store manifest >>= fun _ => pure ()
  | .reconcile => reconcileRepair store (store.key manifest)

/-- The states of the runs of a store on one manifest. -/
inductive StoreRun (ext : External) (manifest : Manifest) (start : Cache) : Cache → Prop where
  | start : StoreRun ext manifest start start
  | call {s : Cache} (h : StoreRun ext manifest start s) (store : ModelStore)
      (hext : store.ext = ext) (call : StoreCall) (schedule : List Choice) :
      StoreRun ext manifest start
        (Program.after respond schedule (call.body store manifest).run s).2
  | drop {s : Cache} (h : StoreRun ext manifest start s) (locks : List Lock)
      (hlocks : locks ⊆ s.locks) : StoreRun ext manifest start { s with locks := locks }

/-- The marked removals are only added to. -/
def RemovalsKept (s s' : Cache) : Prop :=
  s.markedRemovals ⊆ s'.markedRemovals

namespace Cache

theorem add_node_removals (s : Cache) (loc : Loc) (path : RelPath) (node : Node) :
    RemovalsKept s (s.addNode loc path node).2 := by
  have hrefl : RemovalsKept s s := List.Subset.refl _
  unfold addNode
  split
  · exact hrefl
  · split
    · exact hrefl
    · split <;> exact hrefl

theorem perform_removals (s : Cache) (choice : Choice) (op : FsOp) :
    RemovalsKept s (s.perform choice op).2 := by
  have hrefl : RemovalsKept s s := List.Subset.refl _
  cases op with
  | listRemoval loc =>
      simp only [perform]
      split
      · split
        · exact List.subset_cons_self _ _
        · exact hrefl
      · exact hrefl
  | makeDir loc path => exact add_node_removals s loc path .dir
  | createFile loc path => exact add_node_removals s loc path (.file [])
  | rename src dst =>
      simp only [perform]
      split
      · rename_i s' hrename
        obtain ⟨moved, -, -, rfl⟩ := rename_eq_some hrename
        exact hrefl
      · exact hrefl
  | syncMarker key =>
      simp only [perform, require]
      split <;> exact hrefl
  | unlink loc path =>
      simp only [perform]
      split
      · exact hrefl
      · split
        · exact hrefl
        · split <;> exact hrefl
  | removeDir loc =>
      simp only [perform]
      split
      · exact hrefl
      · split <;> exact hrefl
  | syncDir | syncEntry | createMarker | removeMarker | quarantineCandidate | readTree | createDir
  | openDir | append | openFile | read | tryLock =>
      simp only [perform]
      split <;> exact hrefl
  | observe | metadata | markerMetadata | createRoot | syncRoot | fileMetadata | openLock | unlock
  | poll | inspectSource | openSource | readSource | beginCommit | httpGet | httpChunk =>
      exact hrefl

end Cache

/-- One primitive of a run. -/
def RunStep (ext : External) (manifest : Manifest) (s s' : Cache) : Prop :=
  StoreStep (CompleteTree ext manifest) (manifest.semanticDigest ext) s s' ∧ RemovalsKept s s'

section Steps

variable {faults : Set Choice} {ext : External} {manifest : Manifest}
    {store : ModelStore} {α : Type}

theorem removals_spec (body : StoreM α) (s : Cache) :
    Spec faults RemovalsKept body (fun _ _ => True) s :=
  Program.wp_of_all (Program.all_of_forall body.run fun _ => trivial) (fun _ _ _ h => h)
    (fun _ (_ : True) _ _ _ _ => ⟨@respond_state (RemovalsKept _) _ _ _ (List.Subset.refl _)
      (Cache.perform_removals ..), trivial⟩) trivial

/-- Every operation takes only the steps of the store. -/
theorem StoreCall.body_steps (hext : store.ext = ext) (call : StoreCall) (s : Cache) :
    Spec faults (RunStep ext manifest) (call.body store manifest) (fun _ _ => True) s := by
  subst hext
  have hsteps : Spec faults (StoreStep (CompleteTree store.ext manifest) (store.key manifest))
      (call.body store manifest) (fun _ _ => True) s := by
    cases call with
    | importModel => exact spec_discard (import_model_steps s)
    | install options chunks =>
        exact spec_discard (@install_transaction_steps _ ⟨store, options, chunks⟩ _ s)
    | status =>
        exact spec_discard ((status_with_cancel_steps polls_never s).mono (fun _ _ h => .reading h)
          fun _ _ _ => trivial)
    | verifiedModel rounds =>
        exact spec_discard ((verified_model_steps rounds s).mono (fun _ _ h => .reading h)
          fun _ _ _ => trivial)
    | delete => exact spec_discard (delete_model_steps s)
    | reconcile => exact (reconcile_repair_store s).imp fun _ _ _ => trivial
  exact (hsteps.and (removals_spec _ s)).mono (fun _ _ h => h) fun _ _ _ => trivial

/-- A state of a run is reached by steps of the store and by dropping handles. -/
theorem StoreRun.steps {start s : Cache} (h : StoreRun ext manifest start s) :
    Transition.Run (RunStep ext manifest) start s := by
  induction h with
  | start => exact .refl
  | call _ store hext call schedule ih =>
      have hspec : ∀ a, Spec Set.univ (RunStep ext manifest) (call.body store manifest) _ a :=
        call.body_steps hext
      exact ih.trans (Program.wp_after (hspec _) schedule (by simp)).1
  | drop _ locks _ ih =>
      refine ih.tail ⟨.reading (.quiet ?_), List.Subset.refl _⟩
      exact ⟨fun _ => rfl, rfl, rfl, rfl, rfl⟩

end Steps

/-! ## What every store state looks like -/

/-- The shape of the cache of one identity: there is at most one tree at each place, a marker is
a file and has something to settle on, a backup has a marker, and a marker never stands next to
all three trees. -/
structure Sound (key : String) (s : Cache) : Prop where
  marker : s.marker key = none ∨ s.marker key = some .file
  models : TreeOrNone s (.models key)
  staging : TreeOrNone s (.staging key)
  backup : TreeOrNone s (.backup key)
  tombstone : TreeOrNone s (.tombstone key)
  pending : s.marker key ≠ none → s.entry (.models key) ≠ none ∨ s.entry (.backup key) ≠ none
  backed : s.entry (.backup key) ≠ none → s.marker key ≠ none
  incomplete : s.marker key ≠ none → s.entry (.models key) = none ∨
    s.entry (.staging key) = none ∨ s.entry (.backup key) = none

section Shape

variable {key : String} {s s' : Cache}

/-- Steps that move nothing keep the shape. -/
theorem Sound.congr (h : Sound key s) (hmarker : s'.marker key = s.marker key)
    (hentry : ∀ loc, s'.entry loc = s.entry loc) : Sound key s' := by
  obtain ⟨h1, h2, h3, h4, h5, h6, h7, h8⟩ := h
  constructor <;> simpa [TreeOrNone, hmarker, hentry]

/-- A tree that is moved stays a tree. -/
theorem TreeOrNone.moved {src dst : Loc} (h : TreeOrNone s src)
    (hrename : s.rename src dst = some s') : TreeOrNone s' dst ∧ s'.entry dst ≠ none := by
  obtain ⟨moved, hmoved, -, -⟩ := Cache.rename_eq_some hrename
  have hdst : s'.entry dst = some moved := by simp [Cache.rename_entry hrename, hmoved]
  rcases h with hnone | ⟨tree, htree⟩
  · simp [hmoved] at hnone
  · rw [htree, Option.some.injEq] at hmoved
    exact ⟨Or.inr ⟨tree, by rw [hdst, hmoved]⟩, by simp [hdst]⟩

/-- When a tree is moved, there is still at most one tree at each place. -/
theorem TreeOrNone.renamed {src dst loc : Loc} (h : TreeOrNone s loc) (hsrc : TreeOrNone s src)
    (hrename : s.rename src dst = some s') : TreeOrNone s' loc := by
  by_cases hdst : loc = dst
  · rw [hdst]
    exact (hsrc.moved hrename).1
  · have hentry := Cache.rename_entry hrename loc
    rw [if_neg hdst] at hentry
    by_cases hloc : loc = src
    · exact Or.inl (by rw [hentry, if_pos hloc])
    · unfold TreeOrNone
      rwa [hentry, if_neg hloc]

/-- When a tree is moved, the shape depends on what the marker says about the places. -/
theorem Sound.renamed {src dst : Loc} (h : Sound key s) (hsrc : TreeOrNone s src)
    (hrename : s.rename src dst = some s')
    (hpending : s.marker key ≠ none →
      s'.entry (.models key) ≠ none ∨ s'.entry (.backup key) ≠ none)
    (hbacked : s'.entry (.backup key) ≠ none → s.marker key ≠ none)
    (hincomplete : s.marker key ≠ none → s'.entry (.models key) = none ∨
      s'.entry (.staging key) = none ∨ s'.entry (.backup key) = none) : Sound key s' := by
  have hm : s'.marker key = s.marker key := congrFun (Cache.rename_marker hrename) key
  constructor
  · rw [hm]
    exact h.marker
  · exact h.models.renamed hsrc hrename
  · exact h.staging.renamed hsrc hrename
  · exact h.backup.renamed hsrc hrename
  · exact h.tombstone.renamed hsrc hrename
  · rwa [hm]
  · rwa [hm]
  · rwa [hm]

theorem Sound.repair {exact : Prop} (h : Sound key s) (hstep : Repair exact key s s') :
    Sound key s' := by
  cases hstep with
  | flush hsynced => exact h.congr (by rw [hsynced.marker]) hsynced.entry
  | displace hmarker hstaging hbackup hrename =>
      refine h.renamed h.models hrename ?_ ?_ ?_
      · exact fun _ => Or.inr (h.models.moved hrename).2
      · simp [hmarker]
      · simp [Cache.rename_entry hrename]
  | replace hmarker hfinal hbackup hrename =>
      refine h.renamed h.staging hrename ?_ ?_ ?_
      · exact fun _ => Or.inl (h.staging.moved hrename).2
      · simp [hmarker]
      · simp [Cache.rename_entry hrename]
  | restore hmarker hfinal hstaging hrename =>
      refine h.renamed h.backup hrename ?_ ?_ ?_
      · exact fun _ => Or.inl (h.backup.moved hrename).2
      · simp [hmarker]
      · simp [Cache.rename_entry hrename]
  | quarantine hmarker hfinal _ _ hrename =>
      have hentry := Cache.rename_entry hrename
      refine h.renamed h.backup hrename ?_ ?_ ?_
      · exact fun _ => Or.inl (by simpa [hentry, Option.isSome_iff_ne_none] using hfinal)
      · simp [hentry]
      · simp [hentry]
  | close hmarker hfinal hbackup _ heq =>
      subst heq
      constructor
      · simp
      · exact h.models
      · exact h.staging
      · exact h.backup
      · exact h.tombstone
      · simp
      · exact fun hsome => absurd hbackup hsome
      · simp

theorem Sound.promotion {ready : Tree → Prop} (h : Sound key s)
    (hstep : Promotion ready key s s') : Sound key s' := by
  cases hstep with
  | repair hrepair => exact h.repair hrepair
  | publish hmarker hfinal hrename =>
      refine h.renamed h.staging hrename ?_ ?_ ?_
      · exact fun hset => absurd hmarker hset
      · simpa [Cache.rename_entry hrename] using h.backed
      · exact fun hset => absurd hmarker hset
  | mark hmarker hfinal hbackup _ _ _ heq =>
      subst heq
      constructor
      · simp
      · exact h.models
      · exact h.staging
      · exact h.backup
      · exact h.tombstone
      · exact fun _ => Or.inl (Option.isSome_iff_ne_none.mp hfinal)
      · simp
      · exact fun _ => Or.inr (Or.inr hbackup)
  | rollback hmarker _ hrename =>
      refine h.renamed h.backup hrename ?_ ?_ ?_
      · exact fun _ => Or.inl (h.backup.moved hrename).2
      · simp [hmarker]
      · simp [Cache.rename_entry hrename]

theorem Sound.reading (h : Sound key s) (hstep : ReadStep key s s') : Sound key s' := by
  cases hstep with
  | repair hrepair => exact h.repair hrepair
  | quiet hquiet => exact h.congr (by rw [hquiet.marker]) hquiet.entry
  | grow hedited hgrown =>
      rcases hgrown with hsame | ⟨tree, path, htree, -, -, htree'⟩
      · refine h.congr (by rw [hedited.marker]) fun loc => ?_
        by_cases hloc : loc = .models key
        · rw [hloc, hsame]
        · exact hedited.entry loc hloc
      · have hm := hedited.marker
        have hother := hedited.entry
        constructor
        · simpa [hm] using h.marker
        · exact Or.inr ⟨_, htree'⟩
        · simpa [TreeOrNone, hother] using h.staging
        · simpa [TreeOrNone, hother] using h.backup
        · simpa [TreeOrNone, hother] using h.tombstone
        · simp [htree']
        · simpa [hm, hother] using h.backed
        · simpa [hm, hother, htree, htree'] using h.incomplete

theorem Sound.deletion {exact : Prop} (h : Sound key s) (hstep : DeleteStep exact key s s') :
    Sound key s' := by
  cases hstep with
  | repair hrepair => exact h.repair hrepair
  | bury hmarker htree hrename =>
      refine h.renamed h.models hrename ?_ ?_ ?_
      · exact fun hset => absurd hmarker hset
      · simpa [Cache.rename_entry hrename] using h.backed
      · exact fun hset => absurd hmarker hset
  | unbury hedited hdir =>
      have hm := hedited.marker
      have hother := hedited.entry
      constructor
      · simpa [hm] using h.marker
      · simpa [TreeOrNone, hother] using h.models
      · simpa [TreeOrNone, hother] using h.staging
      · simpa [TreeOrNone, hother] using h.backup
      · exact hdir h.tombstone
      · simpa [hm, hother] using h.pending
      · simpa [hm, hother] using h.backed
      · simpa [hm, hother] using h.incomplete

/-- Work on the staged tree that creates none next to a marker. -/
theorem Sound.staged (h : Sound key s) (hedited : Edited (.staging key) s s')
    (hdir : TreeOrNone s (.staging key) → TreeOrNone s' (.staging key))
    (hgone : s.marker key ≠ none → s.entry (.staging key) = none →
      s'.entry (.staging key) = none) : Sound key s' := by
  have hm := hedited.marker
  have hother := hedited.entry
  constructor
  · simpa [hm] using h.marker
  · simpa [TreeOrNone, hother] using h.models
  · exact hdir h.staging
  · simpa [TreeOrNone, hother] using h.backup
  · simpa [TreeOrNone, hother] using h.tombstone
  · simpa [hm, hother] using h.pending
  · simpa [hm, hother] using h.backed
  · intro hset
    rw [hm] at hset
    rcases h.incomplete hset with hmodels | hstaging | hbackup
    · exact Or.inl (by simpa [hother] using hmodels)
    · exact Or.inr (Or.inl (hgone hset hstaging))
    · exact Or.inr (Or.inr (by simpa [hother] using hbackup))

/-- Every step of the store keeps the shape. -/
theorem sound_preserved (ready : Tree → Prop) (key : String) :
    Transition.Preserves (StoreStep ready key) (Sound key) := by
  intro s s' h hstep
  cases hstep with
  | reading hread => exact h.reading hread
  | promotion hpromotion => exact h.promotion hpromotion
  | deletion hdeletion => exact h.deletion hdeletion
  | stage hmarker hedited hdir => exact h.staged hedited hdir (absurd hmarker ·)
  | sweep _ hedited hdir hgone => exact h.staged hedited hdir fun _ => hgone

/-- Every state of a run has the shape its first state has. -/
theorem StoreRun.sound {ext : External} {manifest : Manifest} {start s : Cache}
    (hrun : StoreRun ext manifest start s) (hstart : Sound (manifest.semanticDigest ext) start) :
    Sound (manifest.semanticDigest ext) s := by
  refine Transition.Preserves.run (fun a b ha hstep => ?_) hrun.steps hstart
  exact sound_preserved _ _ ha hstep.1

theorem sound_empty (key : String) : Sound key .empty := by
  constructor <;> simp [TreeOrNone, Cache.entry, Cache.empty]

end Shape

end EmbeddingServer
