import EmbeddingServer.Models.LockProtocol
import EmbeddingServer.Models.StoreRuns

/-!
# The operations under the lock protocol

Every operation of the store and the installer keeps to the lock protocol and gives back the
handles it takes; only `verified_model` keeps its shared lease when it succeeds. What it has
verified under the lease is still true when it returns, because everybody else spares the
installed tree from the moment the lease is granted.
-/

namespace EmbeddingServer

section Locks

variable {key : String} {dirs : List RelPath} {task : Nat} {exclusive : Bool} {store : ModelStore}
  {cancelled : StoreM Bool} {α : Type}

theorem acquires_error {error : Error} :
    Acquires key dirs task exclusive (throw error : StoreM Nat) :=
  fun _ _ hs _ hrely => hs.rely hrely

theorem acquires_pure {held : List Lock} {handle : Nat} {s : Cache}
    (hs : Holds task (⟨handle, task, key, exclusive⟩ :: held) s) :
    Guarded key dirs task (pure handle : StoreM Nat) (Acquired key task exclusive held) s :=
  fun _ hrely => hs.rely hrely

/-- Code that takes no handle, before code that does. -/
theorem Acquires.after {body : StoreM α} {rest : α → StoreM Nat}
    (h : Balanced key dirs task (fun _ => True) body)
    (hrest : ∀ value, Acquires key dirs task exclusive (rest value)) :
    Acquires key dirs task exclusive (body >>= rest) := by
  intro held s hs
  refine guarded_bind (Program.wpE.imp (h held s trivial hs) fun result a ha => ?_)
  cases result with
  | error error => exact ha
  | ok value => exact hrest value held a ha

/-- A failed attempt may be followed by another one. -/
theorem Acquires.retry {body : StoreM Nat} {rest : Except Error Nat → StoreM Nat}
    (h : Acquires key dirs task exclusive body) (hok : ∀ handle, rest (.ok handle) = pure handle)
    (herror : ∀ error, Acquires key dirs task exclusive (rest (.error error))) :
    Acquires key dirs task exclusive (attempt body >>= rest) := by
  intro held s hs
  refine guarded_bind (guarded_attempt (Program.wpE.imp (h held s hs) fun result a ha => ?_))
  cases result with
  | error error => exact herror error held a ha
  | ok handle =>
      change Guarded key dirs task (rest (.ok handle)) _ a
      rw [hok]
      exact acquires_pure ha

/-- Whether the code was told to stop. -/
theorem Polls.balanced {need : List Lock → Prop} (h : Polls cancelled) :
    Balanced key dirs task need cancelled :=
  Only.balanced (h.only trivial)

theorem peeks_fs {op : FsOp} {need : List Lock → Prop} (h : op.Peeks key dirs) :
    Balanced key dirs task need (fs op) :=
  Only.balanced (only_fs h)

theorem open_and_lock_acquires :
    Acquires key dirs store.task true
      (do fs (.openLock key); fs (.tryLock store.task key true)) :=
  .after (peeks_fs rfl) fun _ => try_lock_spec key dirs store.task true

theorem acquire_store_lock_acquires (hcancel : Polls cancelled) :
    Acquires key dirs store.task true (acquireStoreLock store key cancelled) := by
  refine .after (peeks_fs trivial) fun _ => ?_
  induction store.attempts + 1 with
  | zero => exact acquires_error
  | succ attempts ih =>
      refine .after hcancel.balanced fun _ => .after (balanced_fail_if _ _) fun _ => ?_
      refine .retry open_and_lock_acquires (fun _ => rfl) fun error => ?_
      split
      · contradiction
      · exact ih
      · exact acquires_error

theorem acquire_shared_store_lock_acquires :
    Acquires key dirs store.task false (acquireSharedStoreLock store key) := by
  refine .after (peeks_fs trivial) fun _ => .after (peeks_fs rfl) fun _ => ?_
  induction store.attempts + 1 with
  | zero => exact acquires_error
  | succ attempts ih =>
      refine .retry (try_lock_spec key dirs store.task false) (fun _ => rfl) fun error => ?_
      split
      · contradiction
      · exact ih
      · exact acquires_error

theorem acquire_delete_lock_acquires :
    Acquires key dirs store.task true (acquireDeleteLock store key) := by
  refine .after (peeks_fs trivial) fun _ => .after (peeks_fs rfl) fun _ => ?_
  refine .retry (try_lock_spec key dirs store.task true) (fun _ => rfl) fun error => ?_
  split
  · contradiction
  · exact acquires_error
  · exact acquires_error

theorem acquire_install_lock_acquires :
    Acquires key dirs store.task true (acquireInstallLock store key) := by
  refine .after (peeks_fs trivial) fun _ => ?_
  induction store.attempts + 1 with
  | zero => exact acquires_error
  | succ attempts ih =>
      refine .retry open_and_lock_acquires (fun _ => rfl) fun error => ?_
      split
      · contradiction
      · exact .after (polls_flag.balanced.bind fun _ => balanced_fail_if _ _) fun _ => ih
      · exact acquires_error

end Locks

section Operations

variable {dirs : List RelPath} {store : ModelStore} {manifest : Manifest} {need : List Lock → Prop}
  {cancelled : StoreM Bool}

theorem reconcile_if_marked_balanced {key : String} (hcancel : Polls cancelled) :
    Balanced key dirs store.task need (reconcileIfMarked store key cancelled) := by
  refine (@peeks_fs key dirs _ (.markerMetadata key) _ rfl).bind fun found => ?_
  split
  · exact .holding (acquire_store_lock_acquires hcancel)
      (Only.balanced_exclusive reconcile_repair_only)
  · exact balanced_pure _

theorem status_inner_balanced (hcancel : Polls cancelled) :
    Balanced (store.key manifest) (artifactDirectories manifest) store.task need
      (statusInner store manifest cancelled) :=
  Only.balanced ((status_inner_only (hcancel.only trivial)).mono fun _ hop => hop.peeks)

theorem status_with_cancel_balanced (hcancel : Polls cancelled) :
    Balanced (store.key manifest) (artifactDirectories manifest) store.task need
      (statusWithCancel store manifest cancelled) := by
  refine (balanced_lift _).bind fun _ => hcancel.balanced.bind fun _ => ?_
  refine (balanced_fail_if _ _).bind fun _ => ?_
  exact (reconcile_if_marked_balanced hcancel).bind fun _ => status_inner_balanced hcancel

theorem import_locked_balanced :
    Balanced (store.key manifest) (artifactDirectories manifest) store.task
      (HasExclusive (store.key manifest)) (importLocked store manifest) := by
  refine (Only.balanced_exclusive reconcile_repair_only).bind fun _ => ?_
  refine (status_inner_balanced polls_never).bind fun existing => ?_
  split
  · exact balanced_pure _
  refine (Only.balanced_exclusive
    ((@inspect_source_only (.models (store.key manifest)) []).confined.transacts
    rfl)).bind fun _ => ?_
  refine (Only.balanced_exclusive ((prepare_staging_only _).transacts rfl)).bind fun _ => ?_
  refine (Only.balanced_exclusive stage_and_promote_only).attempt.bind fun result => ?_
  split
  · refine Balanced.bind (.attempt (Only.balanced_exclusive ?_)) fun _ => balanced_throw _
    exact remove_dir_all_only.transacts rfl
  · exact status_with_cancel_balanced polls_never

theorem import_model_balanced :
    Balanced (store.key manifest) (artifactDirectories manifest) store.task need
      (importModel store manifest) := by
  refine (balanced_lift _).bind fun _ => (status_with_cancel_balanced polls_never).bind
    fun existing => ?_
  split
  · exact balanced_pure _
  · exact .holding (acquire_store_lock_acquires polls_never) import_locked_balanced

theorem delete_model_balanced :
    Balanced (store.key manifest) dirs store.task need (deleteModel store manifest) :=
  (balanced_lift _).bind fun _ =>
    .holding acquire_delete_lock_acquires (Only.balanced_exclusive delete_locked_only)

theorem install_locked_balanced {installer : Installer} :
    Balanced (installer.store.key manifest) (artifactDirectories manifest) installer.store.task
      (HasExclusive (installer.store.key manifest)) (installLocked installer manifest) := by
  refine (Only.balanced_exclusive reconcile_repair_only).bind fun _ => ?_
  refine (status_with_cancel_balanced polls_flag).bind fun existing => ?_
  split
  · exact balanced_pure _
  refine (Only.balanced_exclusive ((prepare_staging_only _).transacts rfl)).bind fun _ => ?_
  refine (Only.balanced_exclusive ((download_artifacts_only _ _).transacts rfl)).bind fun _ => ?_
  refine (polls_flag.balanced.bind fun _ => balanced_fail_if _ _).bind fun _ => ?_
  refine (Only.balanced_exclusive (@only_fs _ .beginCommit ⟨trivial, trivial⟩)).bind
    fun crossed => ?_
  refine (balanced_fail_if _ _).bind fun _ => ?_
  exact (Only.balanced_exclusive commit_install_only).bind fun _ => balanced_pure _

theorem install_transaction_balanced {installer : Installer} :
    Balanced (installer.store.key manifest) (artifactDirectories manifest) installer.store.task need
      (installTransaction installer manifest) := by
  refine (balanced_lift _).bind fun _ => (balanced_lift _).bind fun _ => ?_
  refine (status_with_cancel_balanced polls_flag).bind fun existing => ?_
  split
  · exact balanced_pure _
  refine (balanced_fail_if _ _).bind fun _ => ?_
  refine (polls_flag.balanced.bind fun _ => balanced_fail_if _ _).bind fun _ => ?_
  intro held s _ hs
  refine guarded_bind (Program.wpE.imp (acquire_install_lock_acquires held s hs)
    fun result a ha => ?_)
  cases result with
  | error error => exact ha
  | ok handle =>
      refine guarded_bind (Program.wpE.imp (holding_guarded install_locked_balanced ha)
        fun result b hb => ?_)
      cases result with
      | error error => exact hb
      | ok installed =>
          cases installed with
          | some existing => exact @balanced_pure _ _ _ _ (fun _ => True) existing held b trivial hb
          | none =>
              exact @status_with_cancel_balanced _ _ (fun _ => True) _ polls_never held b trivial hb

end Operations

/-! ## The lease of `verified_model` -/

section Lease

variable {key : String} {dirs : List RelPath} {task : Nat} {held : List Lock} {store : ModelStore}
  {manifest : Manifest} {s : Cache}

/-- Under a handle everybody spares the installed tree, so it can be verified. -/
theorem watched_leased (hheld : ∃ lock ∈ held, lock.key = key) :
    Watched (.models key) dirs (Rely key dirs task) (Guar key dirs task)
      fun s => Holds task held s ∧ s.marker key = none where
  refl := rely_refl key dirs task
  rely a b ha hrely := by
    obtain ⟨⟨htable, hown⟩, hmarker⟩ := ha
    have hspared := (hrely.2 htable).2 (by rwa [hown])
    exact ⟨hspared.kept, Holds.rely ⟨htable, hown⟩ hrely, hspared.marker.trans hmarker⟩
  step op hop choice a ha := by
    obtain ⟨⟨htable, hown⟩, hmarker⟩ := ha
    have hlocks := respond_same_locks hop.peeks.lock_free choice a
    obtain ⟨hspared, hrenames⟩ := respond_spared hop.peeks choice a
    exact ⟨⟨fun other _ => hlocks.own other, hlocks.lock_table,
      respond_framed hop.peeks.is_local choice a, Or.inr ⟨hspared, hrenames⟩⟩,
      ⟨hlocks.lock_table htable, (hlocks.own task).trans hown⟩, hspared.marker.trans hmarker⟩

/-- A marker that is missing under a handle stays missing. -/
theorem marker_metadata_leased (hheld : ∃ lock ∈ held, lock.key = key) (hs : Holds task held s) :
    Guarded key dirs task (fs (.markerMetadata key))
      (fun result s' => Holds task held s' ∧ (result = .ok none → s'.marker key = none)) s := by
  intro a hrely choice _
  have ha := hs.rely hrely
  have hstate : (respond choice a (.markerMetadata key)).2 = a :=
    @respond_state (· = a) choice a _ rfl rfl
  have hreply : (respond choice a (.markerMetadata key)).1 = .ok none → a.marker key = none := by
    intro hnone
    rcases respond_cases choice a (.markerMetadata key) with h | ⟨-, h | h⟩
    · rw [h] at hnone
      simpa [Cache.perform] using hnone
    · simp [h] at hnone
    · simp [h] at hnone
  refine ⟨?_, fun b hb => ?_⟩
  · rw [hstate]
    exact guar_refl key dirs task a
  · rw [hstate] at hb
    refine ⟨ha.rely hb, fun hnone => ?_⟩
    have hspared := (hb.2 ha.1).2 (by rwa [ha.2])
    refine hspared.marker.trans (hreply ?_)
    cases h : (respond choice a (.markerMetadata key)).1 with
    | error error => simp [h, Except.mapError] at hnone
    | ok found => simpa [h, Except.mapError] using hnone

/-- A capability that a call has been given: the call holds the shared lease and nothing else,
there is no marker, and the installed tree has passed its verification as the manifest. -/
structure Leased (ext : External) (manifest : Manifest) (task : Nat) (model : VerifiedModel)
    (s : Cache) : Prop where
  model_eq : model = ⟨manifest, .models (manifest.semanticDigest ext), model.lease⟩
  held : Holds task [⟨model.lease, task, manifest.semanticDigest ext, false⟩] s
  marker : s.marker (manifest.semanticDigest ext) = none
  installed : Installed ext (.models (manifest.semanticDigest ext)) manifest s

/-- What `verified_model` does under its lease. -/
theorem verify_leased_spec {lease : Nat}
    (hs : Holds store.task [⟨lease, store.task, store.key manifest, false⟩] s) :
    Guarded (store.key manifest) (artifactDirectories manifest) store.task
      (verifyLeased store manifest lease)
      (fun result s' => Holds store.task [⟨lease, store.task, store.key manifest, false⟩] s' ∧
        ∀ model, result = .ok (some model) →
          model.lease = lease ∧ Leased store.ext manifest store.task model s') s := by
  have hheld : ∃ lock ∈ [(⟨lease, store.task, store.key manifest, false⟩ : Lock)],
      lock.key = store.key manifest := ⟨_, List.mem_cons_self, rfl⟩
  have hw := @watched_leased _ (artifactDirectories manifest) store.task _ hheld
  refine guarded_bind (Program.wpE.imp (marker_metadata_leased hheld hs) fun result a ha => ?_)
  match result with
  | .error error => exact ⟨ha.1, by simp⟩
  | .ok (some found) =>
      exact fun b hb => ⟨ha.1.rely hb, by simp⟩
  | .ok none =>
      refine guarded_bind (Program.wpE.imp
        (status_inner_spec hw (cancels_never hw) ⟨ha.1, ha.2 rfl⟩) fun result b hb => ?_)
      have hinv := hb.looked.2
      match result with
      | .error error => exact ⟨hinv.1, by simp⟩
      | .ok .missing | .ok .invalid | .ok .integrityVerified =>
          exact fun c hc => ⟨hinv.1.rely hc, by simp⟩
      | .ok .loadable =>
          obtain ⟨hinstalled, -⟩ := hb.sound _ rfl rfl
          refine looks_pure hw hinv fun c hc => ⟨hc.2.1, ?_⟩
          rintro model ⟨rfl⟩
          exact ⟨rfl, rfl, hc.2.1, hc.2.2, hinstalled.kept hc.1⟩

/-- The handles a call ends with: the lease of a capability, or none. -/
def Returned (ext : External) (manifest : Manifest) (task : Nat) :
    Except Error (Option VerifiedModel) → Cache → Prop
  | .ok (some model), s => Leased ext manifest task model s
  | _, s => Holds task [] s

theorem verified_model_loop_spec (rounds : Nat) (hs : Holds store.task [] s) :
    Guarded (store.key manifest) (artifactDirectories manifest) store.task
      (verifiedModelLoop store manifest rounds) (Returned store.ext manifest store.task) s := by
  induction rounds generalizing s with
  | zero => exact fun a ha => hs.rely ha
  | succ rounds ih =>
      refine guarded_bind (Program.wpE.imp
        (@reconcile_if_marked_balanced _ _ (fun _ => True) _ _ polls_never [] s trivial hs)
        fun result a ha => ?_)
      cases result with
      | error error => exact ha
      | ok =>
          refine guarded_bind (Program.wpE.imp (acquire_shared_store_lock_acquires [] a ha)
            fun result b hb => ?_)
          cases result with
          | error error => exact hb
          | ok lease =>
              refine guarded_bind (guarded_attempt (Program.wpE.imp (verify_leased_spec hb)
                fun result c hc => ?_))
              match result with
              | .ok (some model) =>
                  have hw := @watched_leased (store.key manifest) (artifactDirectories manifest)
                    store.task [⟨lease, store.task, store.key manifest, false⟩]
                    ⟨_, List.mem_cons_self, rfl⟩
                  obtain ⟨rfl, hleased⟩ := hc.2 model rfl
                  refine looks_pure hw ⟨hc.1, hleased.marker⟩ fun d hd => ?_
                  exact ⟨hleased.model_eq, hd.2.1, hd.2.2, hleased.installed.kept hd.1⟩
              | .ok none =>
                  refine guarded_bind (Program.wpE.imp (unlock_spec hc.1 rfl) ?_)
                  rintro - d ⟨rfl, hd⟩
                  exact ih hd
              | .error error =>
                  refine guarded_bind (Program.wpE.imp (unlock_spec hc.1 rfl) ?_)
                  rintro - d ⟨rfl, hd⟩
                  exact fun e he => hd.rely he

theorem verified_model_spec (rounds : Nat) (hs : Holds store.task [] s) :
    Guarded (store.key manifest) (artifactDirectories manifest) store.task
      (verifiedModel store manifest rounds) (Returned store.ext manifest store.task) s := by
  refine guarded_bind (Program.wpE.imp
    (@balanced_lift _ _ _ _ (fun _ => True) _ [] s trivial hs) fun result a ha => ?_)
  cases result with
  | error error => exact ha
  | ok => exact verified_model_loop_spec rounds ha

end Lease

end EmbeddingServer
