import EmbeddingServer.Models.Deletion

/-!
# Import and installation

The operations that change an identity take only the steps of `StoreStep`, whatever fails
and wherever they stop. A tree is promoted only if it is complete; work on the staged tree
outside of a promotion happens while there is no marker, with the exception of an import's
error path, which removes the staged tree whatever the promotion left behind.
-/

namespace EmbeddingServer

section Steps

variable {faults : Set Choice} {ready : Tree → Prop} {key : String} {store : ModelStore}
  {installer : Installer} {manifest : Manifest} {cancelled : StoreM Bool} {α : Type}

theorem store_step_quiet (a b : Cache) (h : Quiet a b) : StoreStep ready key a b :=
  .reading (.quiet h)

/-- Work on the staged tree while there is no marker. -/
theorem Only.spec_staging {body : StoreM α} {post : Except Error α → Cache → Prop} {s : Cache}
    (h : Only (FsOp.Confined (.staging key)) body) (hmarker : s.marker key = none)
    (hpost : Spec faults Free body post s) :
    Spec faults (StoreStep ready key) body
      (fun result s' => s'.marker key = none ∧ post result s') s := by
  have hsteps : Spec faults (StoreStep ready key) body (fun _ s' => s'.marker key = none) s := by
    refine Program.wp_of_all h (fun _ _ heq hinv => heq ▸ hinv) ?_ hmarker
    intro op hop choice _ a ha
    have hstep := respond_edited hop choice a
    exact ⟨.stage ha hstep fun htree => respond_tree_or_none hop choice htree,
      by rw [hstep.marker]; exact ha⟩
  exact (hsteps.and hpost).mono (fun _ _ h => h.1) fun _ _ h => h

/-- Work on the staged tree of which nothing is asked. -/
theorem Only.spec_staging_free {body : StoreM α} {s : Cache}
    (h : Only (FsOp.Confined (.staging key)) body) (hmarker : s.marker key = none) :
    Spec faults (StoreStep ready key) body (fun _ s' => s'.marker key = none) s :=
  (h.spec_staging hmarker (spec_free body s)).imp fun _ _ h => h.1

theorem remove_entries_removes {loc : Loc} (entries : List (RelPath × FileKind)) :
    Only (FsOp.Removes loc) (removeEntries loc entries) := by
  induction entries with
  | nil => exact only_fs rfl
  | cons item rest ih => exact only_bind (only_fs rfl) fun _ => ih

/-- The error path of an import: the removal of the staged tree is recorded if it begins next to
a marker. -/
theorem sweep_staging_steps (s : Cache) :
    Spec faults (StoreStep ready key) (removeDirAll (.staging key)) (fun _ _ => True) s := by
  refine spec_bind (spec_fs (store_step_quiet s s (.refl s)) (fun _ => trivial) ?_
    fun _ _ _ => trivial)
  intro choice _
  have hlist : Quiet s (s.perform choice (.listRemoval (.staging key))).2 := by
    simp only [Cache.perform]
    split
    · split
      · exact ⟨fun _ => rfl, rfl, rfl, rfl, rfl⟩
      · exact .refl s
    · exact .refl s
  refine ⟨store_step_quiet _ _ hlist, ?_⟩
  simp only [Cache.perform]
  cases htree : s.tree (.staging key) with
  | none => trivial
  | some tree =>
      simp only [Except.mapError, Program.andThen]
      have hsweep : ∀ a : Cache, a.marker key = none ∨ .staging key ∈ a.markedRemovals →
          Spec faults (StoreStep ready key) (removeEntries (.staging key) (postOrder tree.listing))
            (fun _ a => a.marker key = none ∨ .staging key ∈ a.markedRemovals) a := by
        refine fun a ha => Program.wp_of_all (remove_entries_removes _)
          (fun _ _ heq hinv => heq ▸ hinv) ?_ ha
        intro op hop choice _ a ha
        have hstep := respond_edited hop.confined choice a
        obtain ⟨hmarked, hgone⟩ := respond_removes hop choice a
        have hdir : TreeOrNone a (.staging key) →
            TreeOrNone (respond choice a op).2 (.staging key) :=
          respond_tree_or_none hop.confined choice
        rcases ha with hmarker | hmem
        · exact ⟨.stage hmarker hstep hdir, Or.inl (by rw [hstep.marker]; exact hmarker)⟩
        · exact ⟨.sweep hmem hstep hdir hgone, Or.inr (by rw [hmarked]; exact hmem)⟩
      refine (hsweep _ ?_).imp fun _ _ _ => trivial
      cases hmarker : s.marker key <;> simp [Loc.key, hmarker]

theorem reconcile_repair_store (s : Cache) :
    Spec faults (StoreStep ready key) (reconcileRepair store key)
      (fun result s' => result = .ok () → s'.marker key = none) s :=
  (reconcile_repair_steps s).mono (fun _ _ h => .reading h) fun _ _ h => h.2.marker

theorem delete_locked_steps (s : Cache) :
    Spec faults (StoreStep ready (store.key manifest)) (deleteLocked store manifest)
      (Erased faults store manifest s) s :=
  (delete_locked_spec (False.elim ·)).mono (fun _ _ h => .deletion h) fun _ _ h => h

theorem delete_model_steps (s : Cache) :
    Spec faults (StoreStep ready (store.key manifest)) (deleteModel store manifest)
      (fun _ _ => True) s := by
  refine spec_bind (spec_lift ?_)
  cases manifest.validate store.ext with
  | error error => trivial
  | ok =>
      have hlock : Spec faults (StoreStep ready (store.key manifest))
          (acquireDeleteLock store (store.key manifest)) (fun _ s' => Quiet s s') s :=
        (acquire_delete_lock_only.spec_locks s).mono (fun _ _ h => .reading h) fun _ _ h => h
      refine spec_bind (hlock.imp fun result a _ => ?_)
      cases result with
      | error error => trivial
      | ok handle =>
          refine holding_spec store_step_quiet ?_
          exact (delete_locked_steps a).imp fun _ _ _ _ _ => trivial

/-! ## Staging and promoting -/

/-- A promotion of a complete tree. -/
theorem promote_steps {s : Cache}
    (hready : ∀ tree, s.entry (.staging key) = some (.dir tree) → ready tree) :
    Spec faults (StoreStep ready key) (promote store key) (fun _ _ => True) s :=
  (promote_spec hready).mono (fun _ _ h => .promotion h) fun _ _ _ => trivial

/-- All artifacts of a manifest are staged. -/
def ArtifactsStaged (ext : External) (loc : Loc) (manifest : Manifest) (s : Cache) : Prop :=
  ∀ artifact ∈ manifest.artifacts, HasArtifact ext loc artifact s

theorem ArtifactsStaged.kept {ext : External} {loc : Loc} {s s' : Cache}
    (h : ArtifactsStaged ext loc manifest s) (hkept : Kept loc s s') :
    ArtifactsStaged ext loc manifest s' :=
  fun artifact hartifact => (h artifact hartifact).kept hkept

/-- Writing the manifest into a new file, which is none of the staged artifacts. -/
theorem write_manifest_spec {loc : Loc} {ext : External} {encoded : List UInt8} {a s : Cache}
    (hstaged : ArtifactsStaged ext loc manifest a) (hfree : a.node loc manifestFile = none)
    (hkept : Kept loc a s) (hfile : HasFile loc manifestFile [] s) :
    Spec faults Free (fs (.append loc manifestFile encoded))
      (fun result s' => result = .ok () →
        ArtifactsStaged ext loc manifest s' ∧ HasFile loc manifestFile encoded s') s := by
  refine (append_spec hfile).imp fun result b hb hok => ?_
  obtain ⟨hwritten, hexcept⟩ := hb hok
  exact ⟨hstaged.kept (hexcept.kept hfree hkept), by simpa using hwritten⟩

/-- The staged tree of a manifest is complete when it reaches its promotion. -/
theorem promote_staged_steps {s : Cache} {encoded : List UInt8} {rest : StoreM Unit}
    (hencoded : manifest.toJson store.ext = .ok encoded)
    (hstaged : ArtifactsStaged store.ext (.staging (store.key manifest)) manifest s)
    (hfile : HasFile (.staging (store.key manifest)) manifestFile encoded s)
    (hmarker : s.marker (store.key manifest) = none)
    (hrest : Only (FsOp.Builds (.staging (store.key manifest))) rest) :
    Spec faults (StoreStep (CompleteTree store.ext manifest) (store.key manifest))
      (rest >>= fun _ => promote store (store.key manifest)) (fun _ _ => True) s := by
  refine spec_bind ((hrest.confined.spec_staging hmarker (hrest.spec_kept s)).imp
    fun result a ha => ?_)
  cases result with
  | error error => trivial
  | ok =>
      exact promote_steps (staged_complete_of (hstaged.kept ha.2) hencoded (ha.2 _ _ hfile))

/-- The closure of an import works on the staged tree and promotes it complete. -/
theorem stage_and_promote_steps {s : Cache} (hmarker : s.marker (store.key manifest) = none) :
    Spec faults (StoreStep (CompleteTree store.ext manifest) (store.key manifest))
      (stageAndPromote store manifest) (fun _ _ => True) s := by
  refine spec_bind (((import_artifacts_only _).spec_staging hmarker (import_artifacts_spec _ s)).imp
    fun result a ha => ?_)
  obtain ⟨hmarker, hstaged⟩ := ha
  cases result with
  | error error => trivial
  | ok =>
      replace hstaged : ArtifactsStaged store.ext (.staging (store.key manifest)) manifest a :=
        (hstaged rfl).2
      have hparents : Only (FsOp.Builds (.staging (store.key manifest)))
          (stableImportDestinationError (.staging (store.key manifest)) manifestFile
            (createContainedParentDirectories (.staging (store.key manifest)) manifestFile)) :=
        stable_import_destination_error_only (create_contained_parent_directories_only _)
      refine spec_bind ((hparents.confined.spec_staging hmarker (hparents.spec_kept a)).imp
        fun result b hb => ?_)
      obtain ⟨hmarker, hkept⟩ := hb
      cases result with
      | error error => trivial
      | ok =>
          -- The record is a new file beside the artifacts, which are kept.
          have hcreate : Spec faults Free
              (stableImportDestinationError (.staging (store.key manifest)) manifestFile
                (createNewContainedFile (.staging (store.key manifest)) manifestFile))
              (fun result s' => ∀ value, result = .ok value →
                b.node (.staging (store.key manifest)) manifestFile = none ∧
                Kept (.staging (store.key manifest)) b s' ∧
                HasFile (.staging (store.key manifest)) manifestFile [] s') b :=
            stable_import_destination_error_spec ((create_new_contained_file_spec _ b).imp
              fun _ _ h _ => h)
          refine spec_bind (((stable_import_destination_error_only
            (create_new_contained_file_only _)).confined.spec_staging hmarker hcreate).imp
              fun result c hc => ?_)
          obtain ⟨hmarker, hcreated⟩ := hc
          cases result with
          | error error => trivial
          | ok =>
              obtain ⟨hfree, hkept', hempty⟩ := hcreated () rfl
              refine spec_bind (spec_lift ?_)
              cases hencoded : manifest.toJson store.ext with
              | error error => trivial
              | ok encoded =>
                  have hwrite : Only (FsOp.Confined (.staging (store.key manifest)))
                      (fs (.append (.staging (store.key manifest)) manifestFile encoded)) :=
                    only_fs rfl
                  refine spec_bind ((hwrite.spec_staging hmarker
                    (write_manifest_spec (hstaged.kept hkept) hfree hkept' hempty)).imp
                      fun result d hd => ?_)
                  obtain ⟨hmarker, hwritten⟩ := hd
                  cases result with
                  | error error => trivial
                  | ok =>
                      obtain ⟨hstaged, hfile⟩ := hwritten rfl
                      exact promote_staged_steps hencoded hstaged hfile hmarker (only_fs rfl)

/-- `import` under its lock. -/
theorem import_locked_steps (s : Cache) :
    Spec faults (StoreStep (CompleteTree store.ext manifest) (store.key manifest))
      (importLocked store manifest) (fun _ _ => True) s := by
  refine spec_bind ((reconcile_repair_store s).imp fun result a ha => ?_)
  cases result with
  | error error => trivial
  | ok =>
      have hmarker := ha rfl
      refine spec_bind ((status_inner_steps polls_never a).mono (fun _ _ h => .reading h)
        fun result b hb => ?_)
      replace hmarker : b.marker (store.key manifest) = none := by rw [hb.1.marker, hmarker]
      cases result with
      | error error => trivial
      | ok existing =>
          simp only [Program.andThen]
          split
          · exact spec_pure trivial
          · refine spec_bind (((inspect_source_only _).confined.spec_staging_free hmarker).imp
              fun result c hmarker => ?_)
            cases result with
            | error error => trivial
            | ok =>
                refine spec_bind (((prepare_staging_only _).spec_staging_free hmarker).imp
                  fun result d hmarker => ?_)
                cases result with
                | error error => trivial
                | ok =>
                    refine spec_bind (spec_attempt ((stage_and_promote_steps hmarker).imp
                      fun result e _ => ?_))
                    cases result with
                    | error error =>
                        refine spec_bind (spec_attempt ((sweep_staging_steps e).imp
                          fun _ f _ => ?_))
                        exact spec_throw trivial
                    | ok =>
                        exact (status_with_cancel_steps polls_never e).mono
                          (fun _ _ h => .reading h) fun _ _ _ => trivial

theorem import_model_steps (s : Cache) :
    Spec faults (StoreStep (CompleteTree store.ext manifest) (store.key manifest))
      (importModel store manifest) (fun _ _ => True) s := by
  refine spec_bind (spec_lift ?_)
  cases manifest.validate store.ext with
  | error error => trivial
  | ok =>
      refine spec_bind ((status_with_cancel_steps polls_never s).mono (fun _ _ h => .reading h)
        fun result a _ => ?_)
      cases result with
      | error error => trivial
      | ok existing =>
          simp only [Program.andThen]
          split
          · exact spec_pure trivial
          · refine spec_bind (((acquire_store_lock_only polls_never).spec_locks a).mono
              (fun _ _ h => .reading h) fun result b _ => ?_)
            cases result with
            | error error => trivial
            | ok handle =>
                refine holding_spec store_step_quiet ?_
                exact (import_locked_steps b).imp fun _ _ _ _ _ => trivial

/-! ## Installation -/

/-- The durable phase of an installation completes the staged tree and promotes it. -/
theorem commit_install_steps {s : Cache}
    (hstaged : ArtifactsStaged installer.store.ext
      (.staging (installer.store.key manifest)) manifest s)
    (hmarker : s.marker (installer.store.key manifest) = none) :
    Spec faults (StoreStep (CompleteTree installer.store.ext manifest)
      (installer.store.key manifest))
      (commitInstall installer manifest) (fun _ _ => True) s := by
  refine spec_bind (spec_lift ?_)
  cases hencoded : manifest.toJson installer.store.ext with
  | error error => trivial
  | ok encoded =>
      refine spec_bind (((create_new_contained_file_only _).confined.spec_staging hmarker
        (create_new_contained_file_spec _ s)).imp fun result a ha => ?_)
      obtain ⟨hmarker, hcreated⟩ := ha
      cases result with
      | error error => trivial
      | ok =>
          obtain ⟨hfree, hkept, hempty⟩ := hcreated rfl
          have hwrite : Only (FsOp.Confined (.staging (installer.store.key manifest)))
              (fs (.append (.staging (installer.store.key manifest)) manifestFile encoded)) :=
            only_fs rfl
          refine spec_bind ((hwrite.spec_staging hmarker
            (write_manifest_spec hstaged hfree hkept hempty)).imp fun result b hb => ?_)
          obtain ⟨hmarker, hwritten⟩ := hb
          cases result with
          | error error => trivial
          | ok =>
              obtain ⟨hstaged, hfile⟩ := hwritten rfl
              have hsync : Only (FsOp.Builds (.staging (installer.store.key manifest)))
                  (fs (.syncEntry (.staging (installer.store.key manifest)) manifestFile)) :=
                only_fs rfl
              refine spec_bind ((hsync.confined.spec_staging hmarker (hsync.spec_kept b)).imp
                fun result c hc => ?_)
              cases result with
              | error error => trivial
              | ok =>
                  have hlook : Only (FsOp.Builds (.staging (installer.store.key manifest)))
                      (pathMetadata (.staging (installer.store.key manifest)) manifestFile) :=
                    only_path_metadata rfl
                  refine spec_bind ((hlook.confined.spec_staging hc.1 (hlook.spec_kept c)).imp
                    fun result d hd => ?_)
                  cases result with
                  | error error => trivial
                  | ok metadata =>
                      refine spec_bind (spec_fail_if (fun _ => trivial) fun _ => ?_)
                      refine promote_staged_steps hencoded ((hstaged.kept hc.2).kept hd.2)
                        (hd.2 _ _ (hc.2 _ _ hfile)) hd.1 (revalidate_contained_path_only _)

/-- `install` under its lock. -/
theorem install_locked_steps (s : Cache) :
    Spec faults (StoreStep (CompleteTree installer.store.ext manifest)
      (installer.store.key manifest))
      (installLocked installer manifest) (fun _ _ => True) s := by
  refine spec_bind ((reconcile_repair_store s).imp fun result a _ => ?_)
  cases result with
  | error error => trivial
  | ok =>
      refine spec_bind ((status_with_cancel_steps polls_flag a).mono (fun _ _ h => .reading h)
        fun result b hb => ?_)
      cases result with
      | error error => trivial
      | ok existing =>
          have hmarker := hb existing rfl
          simp only [Program.andThen]
          split
          · exact spec_pure trivial
          · refine spec_bind (((prepare_staging_only _).spec_staging_free hmarker).imp
              fun result c hmarker => ?_)
            cases result with
            | error error => trivial
            | ok =>
                refine spec_bind (((download_artifacts_only _ _).spec_staging hmarker
                  (download_artifacts_spec _ c)).imp fun result d hd => ?_)
                obtain ⟨hmarker, hstaged⟩ := hd
                cases result with
                | error error => trivial
                | ok =>
                    replace hstaged : ArtifactsStaged installer.store.ext
                        (.staging (installer.store.key manifest)) manifest d := (hstaged rfl).2
                    have hstop : Only (FsOp.Builds (.staging (installer.store.key manifest)))
                        stopIfCancelled := stop_if_cancelled_only
                    refine spec_bind ((hstop.confined.spec_staging hmarker (hstop.spec_kept d)).imp
                      fun result e he => ?_)
                    cases result with
                    | error error => trivial
                    | ok =>
                        have hgate : Only (FsOp.Builds (.staging (installer.store.key manifest)))
                            (fs .beginCommit) := only_fs trivial
                        refine spec_bind ((hgate.confined.spec_staging he.1 (hgate.spec_kept e)).imp
                          fun result f hf => ?_)
                        cases result with
                        | error error => trivial
                        | ok crossed =>
                            refine spec_bind (spec_fail_if (fun _ => trivial) fun _ => ?_)
                            refine spec_bind ((commit_install_steps
                              ((hstaged.kept he.2).kept hf.2) hf.1).imp fun result g _ => ?_)
                            cases result with
                            | error error => trivial
                            | ok => exact spec_pure trivial

theorem install_transaction_steps (s : Cache) :
    Spec faults (StoreStep (CompleteTree installer.store.ext manifest)
      (installer.store.key manifest))
      (installTransaction installer manifest) (fun _ _ => True) s := by
  refine spec_bind (spec_lift ?_)
  cases manifest.validate installer.store.ext with
  | error error => trivial
  | ok =>
      refine spec_bind (spec_lift ?_)
      cases validateInstallSize installer.options manifest with
      | error error => trivial
      | ok =>
          refine spec_bind ((status_with_cancel_steps polls_flag s).mono (fun _ _ h => .reading h)
            fun result a _ => ?_)
          cases result with
          | error error => trivial
          | ok existing =>
              simp only [Program.andThen]
              split
              · exact spec_pure trivial
              · refine spec_bind (spec_fail_if (fun _ => trivial) fun _ => ?_)
                have hstop : Only (FsOp.Locks (installer.store.key manifest)) stopIfCancelled :=
                  only_bind (only_fs trivial) fun _ => only_fail_if _ _
                refine spec_bind ((hstop.spec_locks a).mono (fun _ _ h => .reading h)
                  fun result b _ => ?_)
                cases result with
                | error error => trivial
                | ok =>
                    refine spec_bind ((acquire_install_lock_only.spec_locks b).mono
                      (fun _ _ h => .reading h) fun result c _ => ?_)
                    cases result with
                    | error error => trivial
                    | ok handle =>
                        refine spec_bind (holding_spec store_step_quiet
                          ((install_locked_steps c).imp fun result d _ e _ => ?_))
                        cases result with
                        | error error => trivial
                        | ok installed =>
                            cases installed with
                            | some existing => exact spec_pure trivial
                            | none =>
                                exact (status_with_cancel_steps polls_never e).mono
                                  (fun _ _ h => .reading h) fun _ _ _ => trivial

end Steps

end EmbeddingServer
