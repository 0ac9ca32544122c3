import EmbeddingServer.Models.StoreSteps

/-!
# Locality

What is done under a lock works on one key and touches no lock (`Transacts`). A primitive that
works on one key leaves everything of the other keys as it is (`Framed`).
-/

namespace EmbeddingServer

section Transactions

variable {key : String} {store : ModelStore} {installer : Installer} {manifest : Manifest}
  {cancelled : StoreM Bool} {α : Type}

theorem Only.transacts {loc : Loc} {body : StoreM α} (h : Only (FsOp.Confined loc) body)
    (hloc : loc.key = key) : Only (FsOp.Transacts key) body :=
  h.mono fun _ hop => hloc ▸ hop.transacts

theorem sync_parents_only (src dst : Loc) : Only (FsOp.Transacts key) (syncParents src dst) := by
  refine only_bind (only_fs ⟨trivial, trivial⟩) fun _ => ?_
  split
  · exact only_fs ⟨trivial, trivial⟩
  · exact only_pure _

theorem durable_rename_only {src dst : Loc} (hsrc : src.key = key) (hdst : dst.key = key) :
    Only (FsOp.Transacts key) (durableRename src dst) := by
  refine only_bind (only_fs ⟨hsrc, trivial⟩) fun _ => ?_
  refine only_bind (sync_parents_only _ _) fun _ => ?_
  refine only_bind (only_fs ⟨⟨hsrc, hdst⟩, trivial⟩) fun _ => ?_
  exact only_bind (only_fs ⟨hdst, trivial⟩) fun _ => sync_parents_only _ _

theorem quarantine_backup_only : Only (FsOp.Transacts key) (quarantineBackup store key) := by
  refine only_bind (only_fs ⟨rfl, trivial⟩) fun found => ?_
  split
  · exact only_pure _
  · refine only_bind (only_fs ⟨trivial, trivial⟩) fun _ => ?_
    refine only_bind (only_fs ⟨trivial, trivial⟩) fun _ => ?_
    exact only_bind (only_fs ⟨rfl, trivial⟩) fun _ => durable_rename_only rfl rfl

theorem verify_transaction_final_only : Only (FsOp.Transacts key) (verifyTransactionFinal key) :=
  only_bind (only_fs ⟨rfl, trivial⟩) fun _ => only_fail_if _ _

theorem close_transaction_only : Only (FsOp.Transacts key) (closeTransaction key) :=
  only_bind (only_fs ⟨rfl, trivial⟩) fun _ => only_fs ⟨trivial, trivial⟩

theorem resume_transaction_only (final staging backup : Bool) :
    Only (FsOp.Transacts key) (resumeTransaction key final staging backup) := by
  unfold resumeTransaction
  split
  · exact only_bind (durable_rename_only rfl rfl) fun _ => durable_rename_only rfl rfl
  · exact durable_rename_only rfl rfl
  · exact durable_rename_only rfl rfl
  · exact only_pure _
  · exact only_invalid _

theorem reconcile_repair_only : Only (FsOp.Transacts key) (reconcileRepair store key) := by
  refine only_bind (only_fs ⟨rfl, trivial⟩) fun found => ?_
  split
  · exact only_pure _
  · refine only_bind (only_fs ⟨rfl, trivial⟩) fun _ => ?_
    refine only_bind (only_fs ⟨rfl, trivial⟩) fun _ => ?_
    refine only_bind (only_fs ⟨rfl, trivial⟩) fun _ => ?_
    refine only_bind (resume_transaction_only _ _ _) fun _ => ?_
    refine only_bind verify_transaction_final_only fun _ => ?_
    exact only_bind quarantine_backup_only fun _ => close_transaction_only
  · exact only_invalid _

theorem sync_entries_only {loc : Loc} (entries : List (RelPath × FileKind)) :
    Only (FsOp.Confined loc) (syncEntries loc entries) := by
  induction entries with
  | nil => exact only_pure _
  | cons item rest ih =>
      refine only_bind ?_ fun _ => ih
      obtain ⟨path, kind⟩ := item
      cases kind with
      | dir | file => exact only_fs rfl
      | link | special => exact only_invalid _

theorem sync_staged_tree_only {loc : Loc} : Only (FsOp.Confined loc) (syncStagedTree loc) := by
  refine only_bind ensure_contained_directory_only fun _ => ?_
  refine only_bind (only_symlink_metadata rfl) fun _ => ?_
  refine only_bind (only_fail_if _ _) fun _ => ?_
  refine only_bind (only_fs rfl) fun _ => ?_
  refine only_bind (sync_entries_only _) fun _ => ?_
  refine only_bind (only_fs rfl) fun _ => ?_
  exact only_bind (only_fs trivial) fun _ => only_fs trivial

theorem begin_transaction_only : Only (FsOp.Transacts key) (beginTransaction key) := by
  refine only_bind ((@reject_reparse_only (.models key) []).builds.confined.transacts rfl)
    fun _ => ?_
  refine only_bind (only_fs ⟨trivial, trivial⟩) fun _ => ?_
  refine only_bind (only_fs ⟨trivial, trivial⟩) fun _ => ?_
  refine only_bind (only_fs ⟨rfl, trivial⟩) fun _ => ?_
  refine only_bind (only_fail_if _ _) fun _ => ?_
  refine only_bind (only_fs ⟨rfl, trivial⟩) fun _ => ?_
  refine only_bind (only_fail_if _ _) fun _ => ?_
  refine only_bind (only_fs ⟨rfl, trivial⟩) fun _ => ?_
  refine only_bind (only_fs ⟨rfl, trivial⟩) fun _ => ?_
  exact only_bind (only_fs ⟨trivial, trivial⟩) fun _ => only_fs ⟨trivial, trivial⟩

theorem abandon_transaction_only (error : Error) :
    Only (FsOp.Transacts key) (abandonTransaction key error) :=
  only_bind verify_transaction_final_only fun _ =>
    only_bind close_transaction_only fun _ => only_throw _

theorem promote_displaced_only : Only (FsOp.Transacts key) (promoteDisplaced store key) := by
  refine only_bind (only_fs ⟨trivial, trivial⟩) fun _ => ?_
  refine only_bind (only_attempt (durable_rename_only rfl rfl)) fun result => ?_
  split
  · refine only_bind (only_attempt (durable_rename_only rfl rfl)) fun result => ?_
    split
    · exact only_invalid _
    · exact abandon_transaction_only _
  · refine only_bind verify_transaction_final_only fun _ => ?_
    refine only_bind (only_fs ⟨trivial, trivial⟩) fun _ => ?_
    exact only_bind quarantine_backup_only fun _ => close_transaction_only

theorem promote_only : Only (FsOp.Transacts key) (promote store key) := by
  refine only_bind reconcile_repair_only fun _ => ?_
  refine only_bind (sync_staged_tree_only.transacts rfl) fun _ => ?_
  refine only_bind (only_fs ⟨rfl, trivial⟩) fun found => ?_
  split
  · exact durable_rename_only rfl rfl
  · refine only_bind begin_transaction_only fun _ => ?_
    refine only_bind (only_attempt (durable_rename_only rfl rfl)) fun result => ?_
    split
    · exact abandon_transaction_only _
    · exact promote_displaced_only

theorem stage_and_promote_only :
    Only (FsOp.Transacts (store.key manifest)) (stageAndPromote store manifest) := by
  refine only_bind ((import_artifacts_only _).transacts rfl) fun _ => ?_
  refine only_bind ((stable_import_destination_error_only
    (create_contained_parent_directories_only _)).confined.transacts rfl) fun _ => ?_
  refine only_bind ((stable_import_destination_error_only
    (create_new_contained_file_only _)).confined.transacts rfl) fun _ => ?_
  refine only_bind (only_lift _) fun _ => ?_
  refine only_bind (only_fs ⟨rfl, trivial⟩) fun _ => ?_
  exact only_bind (only_fs ⟨rfl, trivial⟩) fun _ => promote_only

theorem commit_install_only :
    Only (FsOp.Transacts (installer.store.key manifest)) (commitInstall installer manifest) := by
  refine only_bind (only_lift _) fun _ => ?_
  refine only_bind ((create_new_contained_file_only _).confined.transacts rfl) fun _ => ?_
  refine only_bind (only_fs ⟨rfl, trivial⟩) fun _ => ?_
  refine only_bind (only_fs ⟨rfl, trivial⟩) fun _ => ?_
  refine only_bind (only_path_metadata ⟨rfl, trivial⟩) fun _ => ?_
  refine only_bind (only_fail_if _ _) fun _ => ?_
  exact only_bind ((revalidate_contained_path_only _).confined.transacts rfl) fun _ => promote_only

theorem delete_locked_only :
    Only (FsOp.Transacts (store.key manifest)) (deleteLocked store manifest) := by
  have htombstone : Only (FsOp.Transacts (store.key manifest))
      (removeDeletionTombstone (store.key manifest)) :=
    (remove_deletion_tombstone_only _).transacts rfl
  refine only_bind reconcile_repair_only fun _ => ?_
  refine only_bind (only_fs ⟨trivial, trivial⟩) fun _ => ?_
  refine only_bind (only_fs ⟨trivial, trivial⟩) fun _ => ?_
  refine only_bind (only_fs ⟨trivial, trivial⟩) fun _ => ?_
  refine only_bind (only_fs ⟨trivial, trivial⟩) fun _ => ?_
  refine only_bind (only_fs ⟨rfl, trivial⟩) fun pending => ?_
  refine only_bind (?_ : Only (FsOp.Transacts (store.key manifest)) (removeIfPending _ _))
    fun _ => ?_
  · cases pending.isSome with
    | true => exact htombstone
    | false => exact only_pure _
  refine only_bind (only_fs ⟨rfl, trivial⟩) fun found => ?_
  split
  · exact only_pure _
  · refine only_bind (?_ : Only _ (checkDeletionTarget store manifest)) fun _ => ?_
    · refine only_bind (only_fs ⟨trivial, trivial⟩) fun _ => ?_
      refine only_bind ?_ fun _ => only_fail_if _ _
      exact (@read_contained_manifest_only
        (.models (store.key manifest)) [] store).builds.confined.transacts rfl
    refine only_bind (durable_rename_only rfl rfl) fun _ => ?_
    refine only_bind (only_fs ⟨trivial, trivial⟩) fun _ => ?_
    refine only_bind htombstone fun _ => ?_
    exact only_bind (only_fs ⟨trivial, trivial⟩) fun _ => only_pure _
  · exact only_invalid _

end Transactions

/-! ## The frame -/

/-- Everything of the other keys is as before. -/
structure Framed (key : String) (s s' : Cache) : Prop where
  entry : ∀ loc : Loc, loc.key ≠ key → s'.entry loc = s.entry loc
  marker : ∀ other, other ≠ key → s'.marker other = s.marker other

section Frame

variable {key : String} {loc : Loc} {op : FsOp} {s s' : Cache}

theorem Framed.refl (key : String) (s : Cache) : Framed key s s :=
  ⟨fun _ _ => rfl, fun _ _ => rfl⟩

theorem Framed.trans {a b c : Cache} (hab : Framed key a b) (hbc : Framed key b c) :
    Framed key a c :=
  ⟨fun loc hloc => (hbc.entry loc hloc).trans (hab.entry loc hloc),
    fun other hother => (hbc.marker other hother).trans (hab.marker other hother)⟩

theorem Edited.framed (h : Edited loc s s') (hloc : loc.key = key) : Framed key s s' where
  entry other hother := h.entry other fun heq => hother (heq ▸ hloc)
  marker _ _ := by rw [h.marker]

/-- A primitive for one key leaves the other keys alone. -/
theorem respond_framed (h : op.Local key) (choice : Choice) (s : Cache) :
    Framed key s (respond choice s op).2 := by
  have hedited : ∀ loc : Loc, loc.key = key → op.Confined loc →
      Framed key s (respond choice s op).2 :=
    fun loc hloc hop => (respond_edited hop choice s).framed hloc
  have hsame : (s.perform choice op).2 = s → Framed key s (respond choice s op).2 := by
    refine fun heq => respond_state (.refl key s) ?_
    rw [heq]
    exact .refl key s
  cases op with
  | rename src dst =>
      obtain ⟨rfl, hdst⟩ := h
      refine respond_state (.refl _ s) ?_
      simp only [Cache.perform]
      split
      · rename_i s' hrename
        refine ⟨fun loc hloc => ?_, fun _ _ => by rw [Cache.rename_marker hrename]⟩
        -- A rename of the key has both ends at the key.
        have hnotdst : loc ≠ dst := fun heq => hloc (heq ▸ hdst)
        have hnotsrc : loc ≠ src := fun heq => hloc (heq ▸ rfl)
        simp [Cache.rename_entry hrename, hnotdst, hnotsrc]
      · exact .refl _ s
  | createMarker k =>
      obtain rfl := h
      refine respond_state (.refl _ s) ?_
      simp only [Cache.perform]
      split
      · exact ⟨fun _ _ => rfl, fun other hother => Function.update_of_ne hother _ _⟩
      · exact .refl _ s
  | removeMarker k =>
      obtain rfl := h
      refine respond_state (.refl _ s) ?_
      simp only [Cache.perform]
      split
      · exact .refl _ s
      · exact .refl _ s
      · exact ⟨fun _ _ => rfl, fun other hother => Function.update_of_ne hother _ _⟩
  | syncMarker k =>
      refine hsame ?_
      simp only [Cache.perform, Cache.require]
      split <;> rfl
  | quarantineCandidate k pid =>
      refine hsame ?_
      simp only [Cache.perform]
      split <;> rfl
  | markerMetadata | openLock => exact hsame rfl
  | tryLock owner k exclusive =>
      refine respond_state (.refl key s) ?_
      simp only [Cache.perform]
      split
      · exact ⟨fun _ _ => rfl, fun _ _ => rfl⟩
      · exact .refl key s
  | unlock k handle => exact respond_state (.refl key s) ⟨fun _ _ => rfl, fun _ _ => rfl⟩
  -- Operations within one tree edit that tree only.
  | metadata loc | syncDir loc | syncEntry loc | readTree loc | listRemoval loc | unlink loc
  | removeDir loc | createDir loc | makeDir loc | openDir loc | createFile loc | append loc
  | fileMetadata loc | openFile loc | read loc => exact hedited loc h rfl
  | observe | createRoot | syncRoot | poll | inspectSource | openSource | readSource | beginCommit
  | httpGet | httpChunk => exact hedited (.models key) rfl trivial

end Frame

end EmbeddingServer
