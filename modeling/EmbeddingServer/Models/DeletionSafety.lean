import EmbeddingServer.Models.StoreRuns

/-!
# Deletion is atomic and final

Deletions of one identity, each failing or stopping at any primitive, never leave part of a
tree at `models/<key>`: what stands there is the tree that stood there before, the tree the
recovery settles on, or nothing. Whatever such runs leave behind, a deletion in which nothing
fails completes, and what is deleted stays deleted until it is published again.
-/

namespace EmbeddingServer

section Steps

variable {key : String} {s s' : Cache}

/-- A marker has something to settle on. -/
theorem Sound.settled_ne_none (h : Sound key s) (hmarker : s.marker key ≠ none) :
    ∃ tree, settled s key = some (.dir tree) := by
  unfold settled
  rw [if_neg hmarker]
  rcases h.models with hmodels | ⟨final, hmodels⟩ <;>
    rcases h.staging with hstaging | ⟨staged, hstaging⟩ <;>
    rcases h.backup with hbackup | ⟨previous, hbackup⟩ <;>
    simp only [hmodels, hstaging, hbackup]
  · exact absurd (h.pending hmarker) (by simp [hmodels, hbackup])
  · exact ⟨previous, rfl⟩
  · exact absurd (h.pending hmarker) (by simp [hmodels, hbackup])
  · exact ⟨staged, rfl⟩
  · exact ⟨final, rfl⟩
  · exact ⟨final, rfl⟩
  · exact ⟨staged, rfl⟩
  · exact ⟨final, rfl⟩

/-- What a recovery settles on is a tree. -/
theorem Sound.settled_tree (h : Sound key s) {final : Entry} (hfinal : settled s key = some final) :
    ∃ tree, final = .dir tree := by
  by_cases hmarker : s.marker key = none
  · rw [settled, if_pos hmarker] at hfinal
    rcases h.models with hnone | ⟨tree, htree⟩
    · simp [hnone] at hfinal
    · exact ⟨tree, Option.some.inj (hfinal.symm.trans htree)⟩
  · obtain ⟨tree, htree⟩ := h.settled_ne_none hmarker
    exact ⟨tree, Option.some.inj (hfinal.symm.trans htree)⟩

/-- A backup next to a final and a staged tree would have no marker. -/
theorem Sound.exact (h : Sound key s) (hmodels : (s.entry (.models key)).isSome)
    (hstaging : (s.entry (.staging key)).isSome) : s.entry (.backup key) = none := by
  by_contra hbackup
  rcases h.incomplete (h.backed hbackup) with hnone | hnone | hnone
  · simp [hnone] at hmodels
  · simp [hnone] at hstaging
  · exact hbackup hnone

/-- A recovery step leads towards what the recovery settles on. -/
theorem settled_repair (hstep : Repair True key s s') :
    settled s' key = settled s key ∧
      (s'.entry (.models key) = s.entry (.models key) ∨ s'.entry (.models key) = none ∨
        s'.entry (.models key) = settled s key) := by
  cases hstep with
  | flush hsynced =>
      simp [settled, hsynced.marker, hsynced.entry]
  | displace hmarker hstaging hbackup hrename =>
      have hentry := Cache.rename_entry hrename
      have hm := Cache.rename_marker hrename
      obtain ⟨staged, hstaged⟩ := Option.isSome_iff_exists.mp hstaging
      obtain ⟨final, hfinal, -, -⟩ := Cache.rename_eq_some hrename
      simp [settled, hentry, hm, hmarker, hstaged, hfinal, hbackup]
  | replace hmarker hfinal hbackup hrename =>
      have hentry := Cache.rename_entry hrename
      have hm := Cache.rename_marker hrename
      obtain ⟨previous, hprevious⟩ := Option.isSome_iff_exists.mp hbackup
      obtain ⟨staged, hstaged, -, -⟩ := Cache.rename_eq_some hrename
      simp [settled, hentry, hm, hmarker, hstaged, hfinal, hprevious]
  | restore hmarker hfinal hstaging hrename =>
      have hentry := Cache.rename_entry hrename
      have hm := Cache.rename_marker hrename
      obtain ⟨previous, hprevious, -, -⟩ := Cache.rename_eq_some hrename
      simp [settled, hentry, hm, hmarker, hstaging, hfinal, hprevious]
  | quarantine hmarker hfinal hstaging _ hrename =>
      have hentry := Cache.rename_entry hrename
      have hm := Cache.rename_marker hrename
      obtain ⟨final, hfinal⟩ := Option.isSome_iff_exists.mp hfinal
      simp [settled, hentry, hm, hmarker, hstaging trivial, hfinal]
  | close hmarker hfinal hbackup hstaging heq =>
      subst heq
      obtain ⟨final, hfinal⟩ := Option.isSome_iff_exists.mp hfinal
      have hs : s.entry (.staging key) = none := hstaging trivial
      have hentry : ∀ loc, Cache.entry { s with marker := Function.update s.marker key none } loc =
          s.entry loc := fun _ => rfl
      simp [settled, hentry, hmarker, hs, hfinal]

/-- A deletion step leads towards what the recovery settles on, or to nothing. -/
theorem settled_deletion (hstep : DeleteStep True key s s') :
    (settled s' key = settled s key ∨ settled s' key = none) ∧
      (s'.entry (.models key) = s.entry (.models key) ∨ s'.entry (.models key) = none ∨
        s'.entry (.models key) = settled s key) := by
  cases hstep with
  | repair hrepair =>
      obtain ⟨hsettled, hmodels⟩ := settled_repair hrepair
      exact ⟨Or.inl hsettled, hmodels⟩
  | bury hmarker htree hrename =>
      have hentry := Cache.rename_entry hrename
      have hm := Cache.rename_marker hrename
      simp [settled, hentry, hm, hmarker]
  | unbury hedited _ =>
      simp [settled, hedited.marker, hedited.entry]

end Steps

/-- What interrupted deletions keep of the first state. -/
structure Deleting (key : String) (start s : Cache) : Prop where
  sound : Sound key s
  settled : settled s key = settled start key ∨ settled s key = none
  models : s.entry (.models key) = none ∨ s.entry (.models key) = start.entry (.models key) ∨
    s.entry (.models key) = EmbeddingServer.settled start key

theorem Deleting.step {key : String} {start s s' : Cache} (h : Deleting key start s)
    (hstep : DeleteStep True key s s') : Deleting key start s' := by
  obtain ⟨hsettled, hmodels⟩ := settled_deletion hstep
  refine ⟨h.sound.deletion hstep, ?_, ?_⟩
  · rcases hsettled with heq | hnone
    · rw [heq]
      exact h.settled
    · exact Or.inr hnone
  · rcases hmodels with heq | hnone | hto
    · rw [heq]
      exact h.models
    · exact Or.inl hnone
    · rcases h.settled with heq | hnone
      · exact Or.inr (Or.inr (hto.trans heq))
      · exact Or.inl (hto.trans hnone)

/-- The states of deletions of one manifest, each stopped anywhere. -/
inductive DeleteRun (ext : External) (manifest : Manifest) (start : Cache) : Cache → Prop where
  | start : DeleteRun ext manifest start start
  | call {s : Cache} (h : DeleteRun ext manifest start s) (store : ModelStore)
      (hext : store.ext = ext) (schedule : List Choice) :
      DeleteRun ext manifest start
        (Program.after respond schedule (deleteLocked store manifest).run s).2

theorem delete_locked_exact {faults : Set Choice} {store : ModelStore} {manifest : Manifest}
    {s : Cache} (h : Sound (store.key manifest) s) :
    Spec faults (DeleteStep True (store.key manifest)) (deleteLocked store manifest)
      (Erased faults store manifest s) s :=
  delete_locked_spec fun _ => h.exact

theorem DeleteRun.deleting {ext : External} {manifest : Manifest} {start s : Cache}
    (hrun : DeleteRun ext manifest start s) (hstart : Sound (manifest.semanticDigest ext) start) :
    Deleting (manifest.semanticDigest ext) start s := by
  induction hrun with
  | start => exact ⟨hstart, Or.inl rfl, Or.inr (Or.inl rfl)⟩
  | call _ store hext schedule ih =>
      subst hext
      have hspec := @delete_locked_exact Set.univ store manifest _ ih.sound
      refine Transition.Preserves.run (fun a b ha hstep => ?_)
        (Program.wp_after hspec schedule (by simp)).1 ih
      exact Deleting.step ha hstep

/-! ## A failure before the rename -/

/-- How often a tree was moved to the tombstone. -/
def burials (key : String) (s : Cache) : Nat :=
  s.renames.count (.models key, .tombstone key)

/-- A recovery buries nothing. -/
theorem repair_burials {exact : Prop} {key : String} {s s' : Cache}
    (h : Transition.Run (Repair exact key) s s') : burials key s' = burials key s := by
  induction h with
  | refl => rfl
  | tail _ hstep ih =>
      rw [← ih]
      cases hstep with
      | flush h => simp [burials, h.renames]
      | displace _ _ _ h | replace _ _ _ h | restore _ _ _ h | quarantine _ _ _ _ h =>
          simp [burials, Cache.rename_renames h]
      | close _ _ _ _ h =>
          subst h
          rfl

/-- A deletion that fails without its rename leaves what its recovery left. -/
theorem delete_locked_failed {store : ModelStore} {manifest : Manifest} {s : Cache}
    {schedule : List Choice} {result : Except Error Bool}
    (hdone : (Program.after respond schedule (deleteLocked store manifest).run s).1 = .done result)
    (hburied : burials (store.key manifest)
        (Program.after respond schedule (deleteLocked store manifest).run s).2 =
      burials (store.key manifest) s) :
    ∃ n first, (Program.after respond (schedule.take n)
        (reconcileRepair store (store.key manifest)).run s).1 = .done first ∧
      (Program.after respond schedule (deleteLocked store manifest).run s).2.entry
          (.models (store.key manifest)) =
        (Program.after respond (schedule.take n)
          (reconcileRepair store (store.key manifest)).run s).2.entry
            (.models (store.key manifest)) ∧
      (first = .ok () →
        (Program.after respond schedule (deleteLocked store manifest).run s).2.entry
          (.models (store.key manifest)) = settled s (store.key manifest)) := by
  obtain ⟨n, first, hfirst, hrest⟩ := Program.after_bind_e_done hdone
  have hreconcile : Spec Set.univ (Repair False (store.key manifest))
      (reconcileRepair store (store.key manifest))
      (Reconciled Set.univ (store.key manifest) s) s := reconcile_repair_spec (by simp)
  obtain ⟨hrun, hpost⟩ := Program.wp_after hreconcile (schedule.take n) (by simp)
  have hrec := hpost first hfirst
  refine ⟨n, first, hfirst, ?_⟩
  rcases hrest with ⟨error, rfl, hsame⟩ | ⟨⟨⟩, rfl, hsame⟩
  · exact ⟨congrArg (Cache.entry · _) hsame, by simp⟩
  · have hspec : Spec Set.univ (DeleteStep False (store.key manifest))
        (deleteReconciled store manifest) (Deleted Set.univ store manifest _) _ :=
      delete_reconciled_spec (hrec.marker rfl)
    obtain ⟨-, hafter⟩ := Program.wp_after hspec (schedule.drop n) (by simp)
    rw [← hsame] at hafter
    rcases (hafter result hdone).atomic with ⟨-, hmodels⟩ | ⟨hrenames, -⟩
    · exact ⟨hmodels, fun _ => hmodels.trans (hrec.final rfl)⟩
    · -- The rename would have been counted.
      have hmore := repair_burials hrun
      have hcount : burials (store.key manifest)
          (Program.after respond schedule (deleteLocked store manifest).run s).2 =
          burials (store.key manifest) (Program.after respond (schedule.take n)
            (reconcileRepair store (store.key manifest)).run s).2 + 1 :=
        (congrArg (List.count _) hrenames).trans List.count_cons_self
      omega

/-! ## What stays deleted -/

/-- The operations that only look at an identity. -/
def StoreCall.reads : StoreCall → Bool
  | .status => true
  | .verifiedModel _ => true
  | .reconcile => true
  | _ => false

/-- The states of such operations, each stopped anywhere, with handles dropped in between. -/
inductive ReadRun (ext : External) (manifest : Manifest) (start : Cache) : Cache → Prop where
  | start : ReadRun ext manifest start start
  | call {s : Cache} (h : ReadRun ext manifest start s) (store : ModelStore)
      (hext : store.ext = ext) (call : StoreCall) (hcall : call.reads = true)
      (schedule : List Choice) :
      ReadRun ext manifest start
        (Program.after respond schedule (call.body store manifest).run s).2
  | drop {s : Cache} (h : ReadRun ext manifest start s) (locks : List Lock)
      (hlocks : locks ⊆ s.locks) : ReadRun ext manifest start { s with locks := locks }

/-- Operations that only look take only reading steps. -/
theorem StoreCall.reads_steps {faults : Set Choice} {store : ModelStore} {manifest : Manifest}
    {call : StoreCall} (hcall : call.reads = true) (s : Cache) :
    Spec faults (ReadStep (store.key manifest)) (call.body store manifest) (fun _ _ => True) s := by
  cases call with
  | status =>
      exact spec_discard ((status_with_cancel_steps polls_never s).imp fun _ _ _ => trivial)
  | verifiedModel rounds => exact spec_discard (verified_model_steps rounds s)
  | reconcile => exact (reconcile_repair_steps s).imp fun _ _ _ => trivial
  | importModel | install | delete => cases hcall

/-- Neither a tree nor a marker to recover one. -/
def Gone (key : String) (s : Cache) : Prop :=
  s.entry (.models key) = none ∧ s.marker key = none

/-- Looking does not bring a tree back. -/
theorem gone_preserved (key : String) : Transition.Preserves (ReadStep key) (Gone key) := by
  rintro s s' ⟨hmodels, hmarker⟩ hstep
  cases hstep with
  | repair hrepair =>
      cases hrepair with
      | flush hsynced => exact ⟨by rw [hsynced.entry, hmodels], by rw [hsynced.marker, hmarker]⟩
      | displace h | replace h | restore h | quarantine h | close h => simp [hmarker] at h
  | quiet hquiet => exact ⟨by rw [hquiet.entry, hmodels], by rw [hquiet.marker, hmarker]⟩
  | grow hedited hgrown =>
      refine ⟨?_, by rw [hedited.marker, hmarker]⟩
      rcases hgrown with hsame | ⟨tree, path, htree, -⟩
      · rw [hsame, hmodels]
      · simp [hmodels] at htree

theorem ReadRun.gone {ext : External} {manifest : Manifest} {start s : Cache}
    (hrun : ReadRun ext manifest start s) (hstart : Gone (manifest.semanticDigest ext) start) :
    Gone (manifest.semanticDigest ext) s := by
  induction hrun with
  | start => exact hstart
  | call _ store hext call hcall schedule ih =>
      subst hext
      have hspec :
          ∀ a, Spec Set.univ (ReadStep (store.key manifest)) (call.body store manifest) _ a :=
        StoreCall.reads_steps hcall
      exact (gone_preserved _).run (Program.wp_after (hspec _) schedule (by simp)).1 ih
  | drop _ locks _ ih => exact ih

/-! ## The result -/

section

variable {ext : External} {manifest : Manifest} {start s : Cache}

/-- What deletions can leave at `models/<key>`. -/
theorem DeleteRun.models_cases (hrun : DeleteRun ext manifest start s)
    (hstart : Sound (manifest.semanticDigest ext) start) :
    s.entry (.models (manifest.semanticDigest ext)) = none ∨
      ∃ tree, s.entry (.models (manifest.semanticDigest ext)) = some (.dir tree) ∧
        (start.entry (.models (manifest.semanticDigest ext)) = some (.dir tree) ∨
          settled start (manifest.semanticDigest ext) = some (.dir tree)) := by
  have hdeleting := hrun.deleting hstart
  rcases hdeleting.sound.models with hnone | ⟨tree, htree⟩
  · exact Or.inl hnone
  · refine Or.inr ⟨tree, htree, ?_⟩
    rcases hdeleting.models with hnone | hsame | hsettled
    · simp [htree] at hnone
    · exact Or.inl (hsame.symm.trans htree)
    · exact Or.inr (hsettled.symm.trans htree)

/-- After deletions that were interrupted, one in which nothing fails succeeds and leaves
nothing. -/
theorem DeleteRun.completes (hrun : DeleteRun ext manifest start s)
    (hstart : Sound (manifest.semanticDigest ext) start) {store : ModelStore}
    (hext : store.ext = ext) {choices : Nat → Choice} (hchoices : ∀ n, (choices n).fault = .none)
    (hstored : ∀ tree, settled start (store.key manifest) = some (.dir tree) →
      tree.Stores store.ext manifest) :
    ∃ deleted, (Program.exec respond choices (deleteLocked store manifest).run s).1 =
        .ok deleted ∧
      let s' := (Program.exec respond choices (deleteLocked store manifest).run s).2
      s'.entry (.models (store.key manifest)) = none ∧
      s'.entry (.tombstone (store.key manifest)) = none ∧
      s'.marker (store.key manifest) = none := by
  have hdeleting := hrun.deleting hstart
  subst hext
  have hspec : Spec { choice | choice.fault = .none } (DeleteStep True (store.key manifest))
      (deleteLocked store manifest)
      (Erased { choice | choice.fault = .none } store manifest s) s :=
    delete_locked_exact hdeleting.sound
  have hlucky : Lucky { choice : Choice | choice.fault = .none } := fun _ h => h
  have herased := Program.wp_exec hchoices hspec
  have hok := herased.lucky hlucky hdeleting.sound.marker hdeleting.sound.tombstone ?_ ?_
  · obtain ⟨deleted, hdeleted⟩ := hok
    exact ⟨deleted, hdeleted, herased.gone deleted hdeleted⟩
  · intro hmarker
    obtain ⟨tree, htree⟩ := hdeleting.sound.settled_ne_none hmarker
    rw [show settled s (store.key manifest) = _ from htree]
    simp
  · intro final hfinal
    have hsame : settled start (store.key manifest) = some final := by
      rcases hdeleting.settled with heq | hnone
      · exact heq.symm.trans hfinal
      · exact absurd (hnone.symm.trans hfinal) (by simp)
    obtain ⟨tree, rfl⟩ := hstart.settled_tree hsame
    exact ⟨tree, rfl, hstored tree hsame⟩

end

/-- Deletion is atomic and final. Let deletions of a manifest run from a store state, each failing
or stopping at any primitive. Then `models/<key>` holds nothing, the tree it held, or the tree the
first recovery settles on; a deletion that fails before its rename leaves there exactly what its
recovery left; a further deletion in which nothing fails succeeds if the manifest to delete is the
one that is stored, and leaves no tree, tombstone or marker; and after a deletion that succeeded no
operation that only looks brings a tree back. -/
theorem deletion_atomic_and_final (ext : External) (manifest : Manifest) (start s : Cache)
    (hstart : Sound (manifest.semanticDigest ext) start) (hrun : DeleteRun ext manifest start s) :
    (s.entry (.models (manifest.semanticDigest ext)) = none ∨
      ∃ tree, s.entry (.models (manifest.semanticDigest ext)) = some (.dir tree) ∧
        (start.entry (.models (manifest.semanticDigest ext)) = some (.dir tree) ∨
          settled start (manifest.semanticDigest ext) = some (.dir tree))) ∧
    ∀ store : ModelStore, store.ext = ext →
    (∀ schedule error,
      (Program.after respond schedule (deleteLocked store manifest).run s).1 =
        .done (.error error) →
      burials (store.key manifest)
          (Program.after respond schedule (deleteLocked store manifest).run s).2 =
        burials (store.key manifest) s →
      ∃ n first, (Program.after respond (schedule.take n)
          (reconcileRepair store (store.key manifest)).run s).1 = .done first ∧
        (Program.after respond schedule (deleteLocked store manifest).run s).2.entry
            (.models (store.key manifest)) =
          (Program.after respond (schedule.take n)
            (reconcileRepair store (store.key manifest)).run s).2.entry
              (.models (store.key manifest)) ∧
        (first = .ok () →
          (Program.after respond schedule (deleteLocked store manifest).run s).2.entry
            (.models (store.key manifest)) = settled s (store.key manifest))) ∧
    (∀ choices : Nat → Choice, (∀ n, (choices n).fault = .none) →
      (∀ tree, settled start (store.key manifest) = some (.dir tree) →
        tree.Stores store.ext manifest) →
      ∃ deleted, (Program.exec respond choices (deleteLocked store manifest).run s).1 =
          .ok deleted ∧
        let s' := (Program.exec respond choices (deleteLocked store manifest).run s).2
        s'.entry (.models (store.key manifest)) = none ∧
        s'.entry (.tombstone (store.key manifest)) = none ∧
        s'.marker (store.key manifest) = none) ∧
    (∀ schedule deleted later,
      (Program.after respond schedule (deleteLocked store manifest).run s).1 =
        .done (.ok deleted) →
      ReadRun ext manifest
        (Program.after respond schedule (deleteLocked store manifest).run s).2 later →
      later.entry (.models (store.key manifest)) = none) := by
  refine ⟨hrun.models_cases hstart, ?_⟩
  rintro store rfl
  refine ⟨fun schedule error => delete_locked_failed,
    fun choices hchoices hstored => hrun.completes hstart rfl hchoices hstored, ?_⟩
  intro schedule deleted later hdone hread
  have hspec : Spec Set.univ (DeleteStep True (store.key manifest)) (deleteLocked store manifest)
      (Erased Set.univ store manifest s) s :=
    delete_locked_exact (hrun.deleting hstart).sound
  -- A deletion that succeeded has left nothing that readers could bring back.
  have hgone := ((Program.wp_after hspec schedule (by simp)).2 _ hdone).gone deleted rfl
  exact (hread.gone ⟨hgone.1, hgone.2.2⟩).1

/-- A tree that stores a manifest. -/
def storedFixture : Tree :=
  ⟨1, (∅ : AList fun _ : RelPath => Node).insert manifestFile
    (.file Manifest.fixture.fixtureRecord)⟩

/-- A store with an installed model, the leftovers of an interrupted deletion and nothing else. -/
def installedFixture : Cache :=
  { Cache.empty with
    dirs := ((∅ : AList fun _ : Loc => Entry).insert
      (.tombstone (Manifest.fixture.semanticDigest (.fixture [.fixture]))) (.dir ⟨0, ∅⟩)).insert
      (.models (Manifest.fixture.semanticDigest (.fixture [.fixture]))) (.dir storedFixture) }

theorem deletion_atomic_and_final_fixture :
    ∃ deleted, (Program.exec respond (fun _ => {})
      (deleteLocked ⟨.fixture [.fixture], [], 7, 0, 0⟩ .fixture).run installedFixture).1 =
        .ok deleted := by
  have hsound : Sound (Manifest.fixture.semanticDigest (.fixture [.fixture])) installedFixture := by
    constructor
    · exact Or.inl rfl
    · exact Or.inr ⟨_, rfl⟩
    · exact Or.inl (by decide +kernel)
    · exact Or.inl (by decide +kernel)
    · exact Or.inr ⟨⟨0, ∅⟩, by decide +kernel⟩
    · exact fun h => absurd rfl h
    · exact fun h => absurd (by decide +kernel) h
    · exact fun h => absurd rfl h
  obtain ⟨-, hdelete⟩ := deletion_atomic_and_final (.fixture [.fixture]) .fixture installedFixture
    installedFixture hsound .start
  obtain ⟨deleted, hdeleted, -⟩ :=
    (hdelete ⟨.fixture [.fixture], [], 7, 0, 0⟩ rfl).2.1 (fun _ => {}) (fun _ => rfl) (by
      intro tree htree
      have hstored :
          settled installedFixture (Manifest.fixture.semanticDigest (.fixture [.fixture])) =
          some (.dir storedFixture) := by decide +kernel
      obtain rfl : storedFixture = tree := by simpa using hstored.symm.trans htree
      exact ⟨Manifest.fixture.fixtureRecord, by decide +kernel, by decide +kernel,
        Manifest.from_json_fixture _⟩)
  exact ⟨deleted, hdeleted⟩

end EmbeddingServer
