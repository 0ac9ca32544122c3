import EmbeddingServer.Models.DeletionSafety
import EmbeddingServer.Models.Leases

/-!
# Operations on other manifests

What `status` answers for a manifest depends only on the entry the recovery of its key settles
on. An operation on a manifest with another key leaves everything of this key as it is, and a
deletion leaves an installed tree alone that stores another manifest. An import or an
installation of another manifest with the same key replaces the tree: the key covers the
inference contract only, and a tree with another license or other download locations is not
valid for the manifest that is installed.
-/

namespace EmbeddingServer

/-- Choices without a failure from outside. -/
def calm : Set Choice :=
  { choice | choice.fault = .none }

theorem lucky_calm : Lucky calm := fun _ h => h

/-- `status` answers this, whatever is decided from outside, if nothing fails. -/
def Reports (store : ModelStore) (manifest : Manifest) (s : Cache) (found : ModelStatus) : Prop :=
  ∀ schedule : Nat → Choice, (∀ n, (schedule n).fault = .none) →
    (Program.exec respond schedule (status store manifest).run s).1 = .ok found

/-! ## What the status depends on -/

/-- A verification cannot tell caches with the same tree apart. -/
theorem perform_inspects_congr {loc : Loc} {dirs : List RelPath} {op : FsOp}
    (h : op.Inspects loc dirs) (choice : Choice) {s t : Cache}
    (hentry : t.entry loc = s.entry loc) :
    (t.perform choice op).1 = (s.perform choice op).1 ∧
      (t.perform choice op).2.entry loc = (s.perform choice op).2.entry loc := by
  have htree : t.tree loc = s.tree loc := by simp [Cache.tree, hentry]
  have hnode : ∀ path, t.node loc path = s.node loc path := fun path => by simp [Cache.node, htree]
  cases op with
  | metadata l =>
      obtain rfl := h
      simp [Cache.perform, hentry]
  | makeDir l path =>
      obtain ⟨rfl, -⟩ := h
      simp only [Cache.perform, Cache.addNode, Cache.parentExists, htree, hnode]
      cases s.tree l with
      | none => exact ⟨rfl, hentry⟩
      | some tree =>
          by_cases hthere : (s.node l path).isSome
          · simpa [hthere] using hentry
          · by_cases hparent : s.node l path.dropLast = some .dir
            · simp [hthere, hparent, Cache.set_node_entry]
            · simpa [hthere, hparent] using hentry
  | openDir l path | openFile l path | read l path offset limit =>
      obtain rfl := h
      simp only [Cache.perform, hnode]
      split <;> exact ⟨rfl, hentry⟩
  | fileMetadata l path =>
      obtain rfl := h
      simp [Cache.perform, hnode, hentry]
  | poll => exact ⟨rfl, hentry⟩
  | _ => exact h.elim

theorem respond_inspects_congr {loc : Loc} {dirs : List RelPath} {op : FsOp}
    (h : op.Inspects loc dirs) (choice : Choice) (s t : Cache)
    (hentry : t.entry loc = s.entry loc) :
    (respond choice t op).1 = (respond choice s op).1 ∧
      (respond choice t op).2.entry loc = (respond choice s op).2.entry loc := by
  have hperform := perform_inspects_congr h choice hentry
  unfold respond
  split
  · exact ⟨rfl, hentry⟩
  · refine ⟨rfl, ?_⟩
    split
    · exact hentry
    · exact hperform.2
  · exact hperform

section Status

variable {store : ModelStore} {manifest : Manifest} {found : ModelStatus} {s t : Cache}

/-- `status_inner` answers this if nothing fails. -/
def Inspected (store : ModelStore) (manifest : Manifest) (found : ModelStatus) (s : Cache) : Prop :=
  Spec calm Free (statusInner store manifest (pure false)) (fun result _ => result = .ok found) s

theorem Inspected.congr (h : Inspected store manifest found s)
    (hentry : t.entry (.models (store.key manifest)) = s.entry (.models (store.key manifest))) :
    Inspected store manifest found t :=
  Program.wp.congr (fun _ _ => trivial) (status_inner_only (only_pure _))
    (fun _ hop choice a b hab => respond_inspects_congr hop choice a b hab) h hentry

/-- A free lock is granted if nothing fails. -/
theorem acquire_store_lock_calm {key : String} (hlocks : s.locks = []) :
    Spec calm Free (acquireStoreLock store key (pure false))
      (fun result s' => Quiet s s' ∧ ∃ handle, result = .ok handle) s := by
  refine spec_bind (spec_query (fun _ => rfl) trivial (absurd lucky_calm) fun choice => ?_)
  refine spec_bind (spec_pure (spec_bind (spec_pure ?_)))
  refine spec_bind (spec_attempt (spec_bind (spec_query (fun _ => rfl) trivial
    (absurd lucky_calm) fun choice => ?_)))
  refine spec_fs trivial (absurd lucky_calm) (fun choice _ => ⟨trivial, ?_⟩) (absurd lucky_calm)
  have hfree : s.lockable key true = true := by simp [Cache.lockable, hlocks]
  simp only [Cache.perform, hfree, if_true]
  exact spec_pure ⟨⟨fun _ => rfl, rfl, rfl, rfl, rfl⟩, _, rfl⟩

/-- The recovery before a verification settles. -/
theorem reconcile_if_marked_calm {key : String} (hlocks : s.locks = []) (hsound : Sound key s) :
    Spec calm Free (reconcileIfMarked store key (pure false))
      (fun result s' => result = .ok () ∧ s'.entry (.models key) = settled s key) s := by
  refine spec_bind (spec_query (fun _ => rfl) trivial (absurd lucky_calm) fun choice => ?_)
  simp only [Cache.perform]
  cases hmarker : s.marker key with
  | none => exact spec_pure ⟨rfl, by simp [settled, hmarker]⟩
  | some kind =>
      refine spec_bind ((acquire_store_lock_calm hlocks).imp ?_)
      rintro result a ⟨hquiet, handle, rfl⟩
      have hsettled : settled a key = settled s key := by
        simp [settled, hquiet.marker, hquiet.entry]
      refine holding_spec (fun _ _ _ => trivial) ?_
      have hreconcile : Spec calm (Repair False key) (reconcileRepair store key)
          (Reconciled calm key a) a := reconcile_repair_spec (by simp)
      refine hreconcile.mono (fun _ _ _ => trivial) fun result b hb c hc => ?_
      have hok : result = .ok () := by
        refine hb.lucky lucky_calm ?_ fun _ => ?_
        · rw [hquiet.marker]
          exact hsound.marker
        · rw [hsettled]
          exact hsound.settled_ne_none (by simp [hmarker])
      exact ⟨hok, by rw [hc.entry, hb.final hok, hsettled]⟩

/-- The answer of `status` is about the entry the recovery settles on. -/
theorem Reports.inspected (h : Reports store manifest s found) (hlocks : s.locks = [])
    (hsound : Sound (store.key manifest) s) :
    manifest.validate store.ext = .ok () ∧ ∃ t : Cache,
      t.entry (.models (store.key manifest)) = settled s (store.key manifest) ∧
      Inspected store manifest found t := by
  have hspec : Spec calm Free (status store manifest) (fun result _ => result = .ok found) s :=
    Program.wp_of_exec (fun _ _ => trivial) h (show ({} : Choice) ∈ calm from rfl)
  have hvalid := Program.wp_e_unbind hspec s rfl
  cases hvalidate : manifest.validate store.ext with
  | error error => simp [hvalidate, Program.andThen] at hvalid
  | ok =>
      rw [hvalidate] at hvalid
      have hpolled := Program.wp_e_unbind (Program.wp_e_unbind hvalid s rfl) s rfl
      have hboth :=
        Program.wp.and (reconcile_if_marked_calm hlocks hsound) (Program.wp_e_unbind hpolled)
      obtain ⟨⟨hok, hsettled⟩, hinspected⟩ :=
        Program.wp_exec (fun _ => show ({} : Choice) ∈ calm from rfl) hboth
      rw [hok] at hinspected
      exact ⟨rfl, _, hsettled, hinspected⟩

/-- A tree that passes as an installation stores no other manifest. -/
theorem Inspected.stored (h : Inspected store manifest found t) (hfound : found.isInstalled = true)
    {other : Manifest}
    (hstored : StoresManifest store.ext (.models (store.key manifest)) other t) :
    other = manifest := by
  have hw := watched_alone (.models (store.key manifest)) (artifactDirectories manifest)
  have hboth := Program.wp.and h (status_inner_spec hw (cancels_never hw) trivial)
  obtain ⟨hok, hread⟩ := Program.wp_exec (fun _ => show ({} : Choice) ∈ calm from rfl) hboth
  obtain ⟨hinstalled, -⟩ := hread.sound found hok hfound
  exact (hstored.kept hread.looked.1).unique hinstalled.stored

/-- And it is determined by that entry. -/
theorem Inspected.reports (h : Inspected store manifest found t) (hlocks : s.locks = [])
    (hsound : Sound (store.key manifest) s) (hvalid : manifest.validate store.ext = .ok ())
    (hentry : t.entry (.models (store.key manifest)) = settled s (store.key manifest)) :
    Reports store manifest s found := by
  intro schedule hschedule
  have hspec : Spec calm Free (status store manifest) (fun result _ => result = .ok found) s := by
    refine spec_bind (spec_lift ?_)
    rw [hvalid]
    refine spec_bind (spec_pure (spec_bind (spec_pure ?_)))
    refine spec_bind ((reconcile_if_marked_calm hlocks hsound).imp ?_)
    rintro result a ⟨rfl, ha⟩
    exact h.congr (ha.trans hentry.symm)
  exact Program.wp_exec hschedule hspec

end Status

/-! ## What other operations leave alone -/

section Operations

variable {key : String} {dirs : List RelPath} {task : Nat} {s s' : Cache}

theorem Guar.run_frame (h : Transition.Run (Guar key dirs task) s s') :
    (∀ other, other ≠ task → own other s' = own other s) ∧ Framed key s s' := by
  induction h with
  | refl => exact ⟨fun _ _ => rfl, .refl key s⟩
  | tail _ hstep ih =>
      exact ⟨fun other hother => (hstep.1 other hother).trans (ih.1 other hother),
        ih.2.trans hstep.2.2.1⟩

/-- A call that runs alone leaves no lock and touches no other key. -/
theorem Balanced.alone {α : Type} {body : StoreM α}
    (h : Balanced key dirs task (fun _ => True) body) (hlocks : s.locks = []) :
    Spec Set.univ Free body (fun _ s' => s'.locks = [] ∧ Framed key s s') s := by
  have hnone : ∀ other, own other s = [] := fun other => by simp [own, hlocks]
  have htable : LockTable s := by constructor <;> simp [hlocks]
  have hrun := Program.wp.run (Program.wp.alone (rely_refl key dirs task)
    (h [] s trivial ⟨htable, hnone task⟩))
  refine Program.wp.mono hrun (fun _ _ _ => trivial) ?_
  rintro result s' ⟨hguar, -, hown⟩
  obtain ⟨hothers, hframed⟩ := Guar.run_frame hguar
  refine ⟨List.eq_nil_iff_forall_not_mem.mpr fun lock hlock => ?_, hframed⟩
  have hmem : lock ∈ own lock.owner s' := mem_own.mpr ⟨hlock, rfl⟩
  by_cases howner : lock.owner = task
  · simp [howner, hown] at hmem
  · simp [hothers _ howner, hnone] at hmem

/-- The shape of one key and what its recovery settles on do not depend on other keys. -/
theorem Sound.framed {other : String} (h : Sound key s) (hframed : Framed other s s')
    (hother : key ≠ other) : Sound key s' ∧ settled s' key = settled s key := by
  have hmarker := hframed.marker key hother
  have hmodels := hframed.entry (.models key) hother
  have hstaging := hframed.entry (.staging key) hother
  have hbackup := hframed.entry (.backup key) hother
  have htombstone := hframed.entry (.tombstone key) hother
  refine ⟨?_, by simp only [settled, hmarker, hmodels, hstaging, hbackup]⟩
  obtain ⟨h1, h2, h3, h4, h5, h6, h7, h8⟩ := h
  constructor <;> simpa only [TreeOrNone, hmarker, hmodels, hstaging, hbackup, htombstone]

theorem Sound.quiet (h : Sound key s) (hquiet : Quiet s s') :
    Sound key s' ∧ settled s' key = settled s key :=
  ⟨h.congr (by rw [hquiet.marker]) hquiet.entry, by simp [settled, hquiet.marker, hquiet.entry]⟩

variable {store : ModelStore} {manifest : Manifest}

/-- A deletion leaves a tree alone that stores another manifest. -/
theorem delete_locked_spares (hsound : Sound (store.key manifest) s)
    (hstored : ∀ t : Cache, t.entry (.models (store.key manifest)) =
      settled s (store.key manifest) →
      ¬ StoresManifest store.ext (.models (store.key manifest)) manifest t) :
    Spec Set.univ Free (deleteLocked store manifest)
      (fun _ s' => Sound (store.key manifest) s' ∧
        settled s' (store.key manifest) = settled s (store.key manifest)) s := by
  have hreconcile : Spec Set.univ (Repair True (store.key manifest))
      (reconcileRepair store (store.key manifest))
      (Reconciled Set.univ (store.key manifest) s) s := reconcile_repair_spec fun _ => hsound.exact
  refine spec_bind (hreconcile.run.mono (fun _ _ _ => trivial) ?_)
  rintro result a ⟨hrun, hrec⟩
  have hrepair : Transition.Preserves (Repair True (store.key manifest)) fun b =>
      Sound (store.key manifest) b ∧
        settled b (store.key manifest) = settled s (store.key manifest) :=
    fun b c hb hstep => ⟨hb.1.repair hstep, (settled_repair hstep).1.trans hb.2⟩
  have ha := hrepair.run hrun ⟨hsound, rfl⟩
  cases result with
  | error error => exact ha
  | ok =>
      have hspec : Spec Set.univ (DeleteStep True (store.key manifest))
          (deleteReconciled store manifest) (Deleted Set.univ store manifest a) a :=
        delete_reconciled_spec (hrec.marker rfl)
      refine hspec.run.mono (fun _ _ _ => trivial) ?_
      rintro result b ⟨hsteps, hb⟩
      have hdeletion : Transition.Preserves (DeleteStep True (store.key manifest))
          (Sound (store.key manifest)) := fun _ _ hc hstep => hc.deletion hstep
      have hsoundb := hdeletion.run hsteps ha.1
      rcases hb.atomic with ⟨-, hmodels⟩ | ⟨-, -, htarget⟩
      · refine ⟨hsoundb, ?_⟩
        rw [settled, if_pos (by rw [hb.marker, hrec.marker rfl]), hmodels, hrec.final rfl]
      · exact absurd htarget (hstored a (hrec.final rfl))

theorem delete_model_spares (hsound : Sound (store.key manifest) s)
    (hstored : ∀ t : Cache, t.entry (.models (store.key manifest)) =
      settled s (store.key manifest) →
      ¬ StoresManifest store.ext (.models (store.key manifest)) manifest t) :
    Spec Set.univ Free (deleteModel store manifest)
      (fun _ s' => Sound (store.key manifest) s' ∧
        settled s' (store.key manifest) = settled s (store.key manifest)) s := by
  refine spec_bind (spec_lift ?_)
  cases manifest.validate store.ext with
  | error error => exact ⟨hsound, rfl⟩
  | ok =>
      refine spec_bind ((acquire_delete_lock_only.spec_locks s).mono (fun _ _ _ => trivial)
        fun result a ha => ?_)
      obtain ⟨hsounda, hsettled⟩ := hsound.quiet ha
      cases result with
      | error error => exact ⟨hsounda, hsettled⟩
      | ok handle =>
          refine holding_spec (fun _ _ _ => trivial) ?_
          rw [← hsettled] at hstored
          refine (delete_locked_spares hsounda hstored).imp fun result b hb c hc => ?_
          obtain ⟨hsoundc, hsettledc⟩ := hb.1.quiet hc
          exact ⟨hsoundc, hsettledc.trans (hb.2.trans hsettled)⟩

end Operations

/-! ## The result -/

/-- The operations that install or remove a manifest. -/
def StoreCall.changes : StoreCall → Bool
  | .importModel => true
  | .install .. => true
  | .delete => true
  | _ => false

/-- Such an operation leaves no lock and touches no other key. -/
theorem StoreCall.changes_alone {store : ModelStore} {manifest : Manifest} {call : StoreCall}
    {s : Cache} (hcall : call.changes = true) (hlocks : s.locks = []) :
    Spec Set.univ Free (call.body store manifest)
      (fun _ s' => s'.locks = [] ∧ Framed (store.key manifest) s s') s := by
  have hbody : Balanced (store.key manifest) (artifactDirectories manifest) store.task
      (fun _ => True) (call.body store manifest) := by
    cases call with
    | importModel => exact import_model_balanced.bind fun _ => balanced_pure _
    | install options chunks =>
        exact Balanced.bind (@install_transaction_balanced _ _ ⟨store, options, chunks⟩) fun _ =>
          balanced_pure _
    | delete => exact delete_model_balanced.bind fun _ => balanced_pure _
    | status | verifiedModel | reconcile => cases hcall
  exact hbody.alone hlocks

/-- A deletion of another manifest, and an operation on another key, keep the shape of this key and
what its recovery settles on, where that is what this manifest is installed as. -/
theorem StoreCall.spares {store other : ModelStore} (hext : other.ext = store.ext)
    {manifest changed : Manifest} (hne : manifest ≠ changed) {call : StoreCall}
    (hcall : call = .delete ∨ call.changes = true ∧
      manifest.semanticDigest store.ext ≠ changed.semanticDigest store.ext)
    {s t : Cache} (hlocks : s.locks = []) (hsound : Sound (manifest.semanticDigest store.ext) s)
    {found : ModelStatus} (hfound : found.isInstalled = true)
    (hentry : t.entry (.models (manifest.semanticDigest store.ext)) =
      settled s (manifest.semanticDigest store.ext))
    (hinspected : Inspected store manifest found t) (schedule : Nat → Choice) :
    let s' := (Program.exec respond schedule (call.body other changed).run s).2
    s'.locks = [] ∧ Sound (manifest.semanticDigest store.ext) s' ∧
      settled s' (manifest.semanticDigest store.ext) =
        settled s (manifest.semanticDigest store.ext) := by
  have hchanges : call.changes = true := by
    rcases hcall with rfl | ⟨hchanges, -⟩
    · rfl
    · exact hchanges
  have hunlocked : Spec Set.univ Free (call.body other changed) _ s :=
    StoreCall.changes_alone hchanges hlocks
  obtain ⟨hafter, hframed⟩ :=
    @Program.wp_exec _ _ _ _ _ _ _ _ _ _ _ schedule (by simp) hunlocked
  refine ⟨hafter, ?_⟩
  by_cases hkey : manifest.semanticDigest store.ext = changed.semanticDigest store.ext
  · obtain rfl : call = .delete := hcall.resolve_right fun h => h.2 hkey
    have hkeys : other.key changed = manifest.semanticDigest store.ext := by
      rw [ModelStore.key, hext, hkey]
    rw [← hkeys] at hsound ⊢
    have hstored : ∀ a : Cache, a.entry (.models (other.key changed)) =
      settled s (other.key changed) →
        ¬ StoresManifest other.ext (.models (other.key changed)) changed a := by
      intro a ha hstored
      rw [hext, hkeys] at hstored
      rw [hkeys] at ha
      exact hne (hinspected.stored hfound (hstored.congr (hentry.trans ha.symm))).symm
    have hspares : Spec Set.univ Free (StoreCall.delete.body other changed) (fun _ s' =>
        Sound (other.key changed) s' ∧ settled s' (other.key changed) =
          settled s (other.key changed)) s := by
      refine spec_bind ((delete_model_spares hsound hstored).imp fun result a ha => ?_)
      cases result with
      | error error => exact ha
      | ok deleted => exact spec_pure ha
    exact @Program.wp_exec _ _ _ _ _ _ _ _ _ _ _ schedule (by simp) hspares
  · exact hsound.framed hframed (by rwa [ModelStore.key, hext])

/-- Operations on one manifest do not disturb another. If `status` reports a manifest as installed
in a store that nobody else is using, then it does so after a deletion of any other manifest, and
after an import or an installation of a manifest with another cache key, whether the operation
succeeds or fails at any of its primitives. -/
theorem other_manifest_undisturbed (store other : ModelStore) (hext : other.ext = store.ext)
    (manifest changed : Manifest) (hne : manifest ≠ changed) (call : StoreCall)
    (hcall : call = .delete ∨ call.changes = true ∧
      manifest.semanticDigest store.ext ≠ changed.semanticDigest store.ext)
    (s : Cache) (hlocks : s.locks = []) (hsound : Sound (manifest.semanticDigest store.ext) s)
    (found : ModelStatus) (hfound : found.isInstalled = true)
    (hstatus : Reports store manifest s found) (schedule : Nat → Choice) :
    Reports store manifest
      (Program.exec respond schedule (call.body other changed).run s).2 found := by
  obtain ⟨hvalid, t, hentry, hinspected⟩ := hstatus.inspected hlocks hsound
  obtain ⟨hafter, hsound', hsettled⟩ :=
    StoreCall.spares hext hne hcall hlocks hsound hfound hentry hinspected schedule
  exact hinspected.reports hafter hsound' hvalid (hentry.trans hsettled.symm)

/-- The fixture under another license, which has the same cache key. -/
def Manifest.relicensed : Manifest :=
  { Manifest.fixture with license := ⟨"Apache-2.0", "https://example.invalid/license"⟩ }

/-- A store for both manifests. -/
def pairStore : ModelStore :=
  ⟨.fixture [.fixture, .relicensed], [], 7, 0, 0⟩

/-- The installation of the fixture. -/
def installedPair : Cache :=
  { Cache.empty with
    dirs := (∅ : AList fun _ : Loc => Entry).insert (.models (pairStore.key .fixture))
      (.dir ⟨0, ((∅ : AList fun _ : RelPath => Node).insert manifestFile
        (.file Manifest.fixture.fixtureRecord)).insert ["weights"] .dir |>.insert
        ["weights", "model.bin"] (.file [0x61])⟩) }

theorem installed_pair_sound : Sound (pairStore.key .fixture) installedPair := by
  constructor
  · exact Or.inl rfl
  · exact Or.inr ⟨_, rfl⟩
  · exact Or.inl (by decide)
  · exact Or.inl (by decide)
  · exact Or.inl (by decide)
  · exact fun h => absurd rfl h
  · exact fun h => absurd (by decide) h
  · exact fun h => absurd rfl h

theorem pair_store_valid :
    Manifest.fixture.validate pairStore.ext = .ok () ∧
    Manifest.relicensed.validate pairStore.ext = .ok () :=
  ⟨Manifest.validate_fixture rfl, by decide⟩

theorem installed_pair_reports :
    Reports pairStore .fixture installedPair .integrityVerified := by
  have hinstalled : Installed pairStore.ext (.models (pairStore.key .fixture)) .fixture
      installedPair := by
    have hparents : ∀ artifact ∈ Manifest.fixture.artifacts,
        parentDirectories artifact.relative = [["weights"]] := by
      decide
    refine ⟨⟨Manifest.fixture.fixtureRecord, by unfold HasFile; decide, by decide,
      Manifest.from_json_fixture _⟩, fun artifact hartifact => ?_⟩
    have hdirectories : Directories (.models (pairStore.key .fixture))
        (parentDirectories artifact.relative) installedPair := by
      intro path hpath
      rw [hparents artifact hartifact, List.mem_singleton] at hpath
      subst hpath
      decide
    obtain rfl := List.mem_singleton.mp hartifact
    exact ⟨by decide, [0x61], ⟨hdirectories, by unfold HasFile; decide⟩,
      by decide, by decide⟩
  have hw := watched_alone (.models (pairStore.key .fixture)) (artifactDirectories .fixture)
  have hinspected : Inspected pairStore .fixture .integrityVerified installedPair :=
    Program.wpE.imp (status_inner_spec hw (cancels_never hw) trivial) fun result a ha =>
      (ha.complete lucky_calm trivial hinstalled).trans (by decide)
  exact hinspected.reports rfl installed_pair_sound pair_store_valid.1 rfl

theorem other_manifest_undisturbed_relicensed :
    Reports pairStore .fixture (Program.exec respond (fun _ => {})
      (StoreCall.delete.body pairStore .relicensed).run installedPair).2 .integrityVerified :=
  other_manifest_undisturbed pairStore pairStore rfl .fixture .relicensed (by decide +kernel)
    .delete (Or.inl rfl) installedPair rfl installed_pair_sound .integrityVerified rfl
    installed_pair_reports (fun _ => {})

/-- An import whose source holds the artifact. -/
def displacingSchedule (n : Nat) : Choice :=
  { flag := true, amount := 1, bytes := if n = 80 then [0x61] else [] }

/-- The cache after an import of the fixture under another license. -/
def displacedCache : Cache :=
  (Program.exec respond displacingSchedule
    (StoreCall.importModel.body pairStore .relicensed).run installedPair).2

/-- An import of another manifest with the same key displaces the installed one. -/
theorem import_displaces_relicensed :
    Manifest.fixture ≠ .relicensed ∧
    Manifest.fixture.validate pairStore.ext = .ok () ∧
    Manifest.relicensed.validate pairStore.ext = .ok () ∧
    Sound (pairStore.key .fixture) installedPair ∧
    Reports pairStore .fixture installedPair .integrityVerified ∧
    ∀ found, found.isInstalled = true → ¬ Reports pairStore .fixture displacedCache found := by
  refine ⟨by decide +kernel, pair_store_valid.1, pair_store_valid.2, installed_pair_sound,
    installed_pair_reports, fun found hfound hreports => ?_⟩
  have hinvalid : (Program.exec respond (fun _ => {}) (status pairStore .fixture).run
      displacedCache).1 = .ok .invalid := by
    decide +kernel
  obtain rfl : found = .invalid := by
    simpa [hinvalid] using (hreports (fun _ => {}) fun _ => rfl).symm
  cases hfound

end EmbeddingServer
