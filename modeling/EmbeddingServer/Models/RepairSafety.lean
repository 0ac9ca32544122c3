import EmbeddingServer.Models.Transaction

/-!
# Crash safety of repair promotion

A promotion that replaces a tree `P` by a staged tree `S`, and any number of recoveries
after it, may fail or stop at any primitive. `RepairPhase` lists the four situations the
protocol can be in, by where the two trees stand; every step of a promotion moves between
them, so neither tree is ever lost, duplicated or mixed with the other, and a recovery that
completes has settled on one of them.
-/

namespace EmbeddingServer

/-- A tree stands at one location and nowhere else. -/
def StandsOnlyAt (s : Cache) (tree : Tree) (loc : Loc) : Prop :=
  ∀ other, s.entry other = some (.dir tree) ↔ other = loc

theorem StandsOnlyAt.entry {s : Cache} {tree : Tree} {loc : Loc} (h : StandsOnlyAt s tree loc) :
    s.entry loc = some (.dir tree) :=
  (h loc).mpr rfl

/-- A rename takes the tree along. -/
theorem StandsOnlyAt.moved {s s' : Cache} {tree : Tree} {src dst : Loc}
    (h : StandsOnlyAt s tree src) (hrename : s.rename src dst = some s') :
    StandsOnlyAt s' tree dst := by
  intro other
  rw [Cache.rename_entry hrename]
  by_cases hdst : other = dst
  · simp [hdst, h.entry]
  · rw [if_neg hdst]
    by_cases hsrc : other = src
    · simp [hsrc, hsrc ▸ hdst]
    · simp [hdst, hsrc, h other]

/-- A rename between other places leaves the tree alone. -/
theorem StandsOnlyAt.kept {s s' : Cache} {tree : Tree} {src dst loc : Loc}
    (h : StandsOnlyAt s tree loc) (hrename : s.rename src dst = some s') (hsrc : loc ≠ src)
    (hdst : loc ≠ dst) : StandsOnlyAt s' tree loc := by
  intro other
  rw [Cache.rename_entry hrename]
  by_cases heq : other = dst
  · simp only [heq, if_true, h src]
    exact ⟨fun hl => absurd hl.symm hsrc, fun hl => absurd hl.symm hdst⟩
  · rw [if_neg heq]
    by_cases heq' : other = src
    · simp [heq', hsrc.symm]
    · rw [if_neg heq', h other]

/-- Steps that move nothing keep a tree in place. -/
theorem StandsOnlyAt.congr {s s' : Cache} {tree : Tree} {loc : Loc} (h : StandsOnlyAt s tree loc)
    (hentry : ∀ other, s'.entry other = s.entry other) : StandsOnlyAt s' tree loc := by
  intro other
  rw [hentry, h other]

/-- The situations of a replacement of `previous` by `staged`. A backup without a marker, if the
replacement found one, is never touched; `stray` says that there was one. -/
inductive RepairPhase (stray : Prop) (key : String) (previous staged : Tree)
    (s : Cache) : Prop where
  | prepared (hprevious : StandsOnlyAt s previous (.models key))
      (hstaged : StandsOnlyAt s staged (.staging key))
      (hbackup : (s.entry (.backup key)).isSome → s.marker key ≠ none ∨ stray)
  | displaced (hprevious : StandsOnlyAt s previous (.backup key))
      (hstaged : StandsOnlyAt s staged (.staging key)) (hmarker : s.marker key = some .file)
      (hfinal : s.entry (.models key) = none)
  | replaced (hprevious : StandsOnlyAt s previous (.backup key))
      (hstaged : StandsOnlyAt s staged (.models key)) (hmarker : s.marker key = some .file)
      (hstaging : s.entry (.staging key) = none)
  | retired {pid sequence : Nat}
      (hprevious : StandsOnlyAt s previous (.quarantine key pid sequence))
      (hstaged : StandsOnlyAt s staged (.models key)) (hbackup : s.entry (.backup key) = none)
      (hstaging : s.entry (.staging key) = none)

section

variable {stray : Prop} {key : String} {previous staged : Tree} {s s' : Cache}

/-- The phase depends on where things stand and on the marker only. -/
theorem RepairPhase.congr (h : RepairPhase stray key previous staged s)
    (hentry : ∀ loc, s'.entry loc = s.entry loc) (hmarker : s'.marker key = s.marker key) :
    RepairPhase stray key previous staged s' := by
  cases h with
  | prepared hp hs hb =>
      exact .prepared (hp.congr hentry) (hs.congr hentry) (by rwa [hentry, hmarker])
  | displaced hp hs hm hf =>
      exact .displaced (hp.congr hentry) (hs.congr hentry) (by rwa [hmarker]) (by rwa [hentry])
  | replaced hp hs hm hg =>
      exact .replaced (hp.congr hentry) (hs.congr hentry) (by rwa [hmarker]) (by rwa [hentry])
  | retired hp hs hb hg =>
      exact .retired (hp.congr hentry) (hs.congr hentry) (by rwa [hentry]) (by rwa [hentry])

/-- A recovery step leads from one phase to another. -/
theorem RepairPhase.repair {exact : Prop} (h : RepairPhase stray key previous staged s)
    (hstep : Repair exact key s s') : RepairPhase stray key previous staged s' := by
  cases hstep with
  | flush hsync => exact h.congr hsync.entry (by rw [hsync.marker])
  | displace hmarker hstaging hbackup hrename =>
      have hmove := Cache.rename_entry hrename
      cases h with
      | prepared hp hs hb =>
          refine .displaced (hp.moved hrename) (hs.kept hrename (by simp) (by simp)) ?_ ?_
          · rw [Cache.rename_marker hrename, hmarker]
          · simp [hmove]
      | displaced hp hs hm hf =>
          -- The rename has no source here.
          obtain ⟨moved, hmoved, -, -⟩ := Cache.rename_eq_some hrename
          simp [hf] at hmoved
      | replaced hp hs hm hg => simp [hg] at hstaging
      | retired hp hs hb hg => simp [hg] at hstaging
  | replace hmarker hfinal hbackup hrename =>
      have hmove := Cache.rename_entry hrename
      cases h with
      -- A tree is missing at `models/<key>` in the displaced phase only.
      | prepared hp hs hb => simp [hp.entry] at hfinal
      | displaced hp hs hm hf =>
          refine .replaced (hp.kept hrename (by simp) (by simp)) (hs.moved hrename) ?_ ?_
          · rw [Cache.rename_marker hrename, hmarker]
          · simp [hmove]
      | replaced hp hs hm hg => simp [hs.entry] at hfinal
      | retired hp hs hb hg => simp [hs.entry] at hfinal
  | restore hmarker hfinal hstaging hrename =>
      cases h with
      | prepared hp hs hb => simp [hp.entry] at hfinal
      | displaced hp hs hm hf => simp [hs.entry] at hstaging
      | replaced hp hs hm hg => simp [hs.entry] at hfinal
      | retired hp hs hb hg => simp [hs.entry] at hfinal
  | quarantine hmarker hfinal hstaging hfree hrename =>
      have hmove := Cache.rename_entry hrename
      cases h with
      | prepared hp hs hb =>
          refine .prepared (hp.kept hrename (by simp) (by simp))
            (hs.kept hrename (by simp) (by simp)) ?_
          simp [hmove]
      | displaced hp hs hm hf => simp [hf] at hfinal
      | replaced hp hs hm hg =>
          refine .retired (hp.moved hrename) (hs.kept hrename (by simp) (by simp)) ?_ ?_
          · simp [hmove]
          · simp [hmove, hg]
      | retired hp hs hb hg =>
          obtain ⟨moved, hmoved, -, -⟩ := Cache.rename_eq_some hrename
          simp [hb] at hmoved
  | close hmarker hfinal hbackup hstaging heq =>
      subst heq
      cases h with
      | prepared hp hs hb =>
          exact .prepared hp hs (by simp [Cache.entry] at hbackup ⊢; simp [hbackup])
      | displaced hp hs hm hf => simp [hf] at hfinal
      | replaced hp hs hm hg => simp [hp.entry] at hbackup
      | retired hp hs hb hg => exact .retired hp hs hb hg

/-- A promotion step leads from one phase to another, if the staged tree is not empty. -/
theorem RepairPhase.promotion {ready : Tree → Prop} (hstaged : staged.entries.keys ≠ [])
    (h : RepairPhase stray key previous staged s) (hstep : Promotion ready key s s') :
    RepairPhase stray key previous staged s' := by
  cases hstep with
  | repair hrepair => exact h.repair hrepair
  | publish hmarker hfinal hrename =>
      cases h with
      | prepared hp hs hb => simp [hp.entry] at hfinal
      | displaced hp hs hm hf => simp [hm] at hmarker
      | replaced hp hs hm hg => simp [hm] at hmarker
      | retired hp hs hb hg => simp [hs.entry] at hfinal
  | mark hmarker hfinal hbackup hstaging hready hdurable heq =>
      subst heq
      cases h with
      | prepared hp hs hb => exact .prepared hp hs fun _ => Or.inl (by simp)
      | displaced hp hs hm hf => simp [hm] at hmarker
      | replaced hp hs hm hg => simp [hm] at hmarker
      | retired hp hs hb hg => simp [hg] at hstaging
  | rollback hmarker hdisplaced hrename =>
      have hmove := Cache.rename_entry hrename
      obtain ⟨moved, hmoved, hreplace, -⟩ := Cache.rename_eq_some hrename
      cases h with
      | prepared hp hs hb => simp [hp.entry, hs.entry] at hdisplaced
      | displaced hp hs hm hf =>
          refine .prepared (hp.moved hrename) (hs.kept hrename (by simp) (by simp)) ?_
          simp [hmove]
      | replaced hp hs hm hg =>
          -- The staged tree is in place, and it is not empty, so nothing can replace it.
          rw [hp.entry, Option.some.injEq] at hmoved
          subst hmoved
          simp [hs.entry, Cache.replaceable, hstaged] at hreplace
      | retired hp hs hb hg => simp [hb] at hmoved

/-- There is always something to settle on. -/
theorem RepairPhase.settled_ne_none (h : RepairPhase stray key previous staged s) :
    settled s key ≠ none := by
  cases h with
  | prepared hp hs hb =>
      unfold settled
      split
      · simp [hp.entry]
      · rcases hbackup : s.entry (.backup key) with _ | other <;> simp [hp.entry, hs.entry]
  | displaced hp hs hm hf => simp [settled, hm, hf, hs.entry, hp.entry]
  | replaced hp hs hm hg => simp [settled, hm, hg, hs.entry]
  | retired hp hs hb hg => simp [settled, hb, hg, hs.entry]

end

/-- Both trees exist whole, each at one of the places of the identity, and `models/<key>` is
absent or one of them. -/
structure BothWhole (key : String) (previous staged : Tree) (s : Cache) : Prop where
  previous_whole : ∃ loc : Loc, loc.key = key ∧ StandsOnlyAt s previous loc
  staged_whole : ∃ loc : Loc, loc.key = key ∧ StandsOnlyAt s staged loc
  final : s.entry (.models key) = none ∨ s.entry (.models key) = some (.dir previous) ∨
    s.entry (.models key) = some (.dir staged)

theorem RepairPhase.both_whole {stray : Prop} {key : String} {previous staged : Tree} {s : Cache}
    (h : RepairPhase stray key previous staged s) : BothWhole key previous staged s := by
  cases h with
  | prepared hp hs hb =>
      exact ⟨⟨_, rfl, hp⟩, ⟨_, rfl, hs⟩, Or.inr (Or.inl hp.entry)⟩
  | displaced hp hs hm hf => exact ⟨⟨_, rfl, hp⟩, ⟨_, rfl, hs⟩, Or.inl hf⟩
  | replaced hp hs hm hg => exact ⟨⟨_, rfl, hp⟩, ⟨_, rfl, hs⟩, Or.inr (Or.inr hs.entry)⟩
  | retired hp hs hb hg => exact ⟨⟨_, rfl, hp⟩, ⟨_, rfl, hs⟩, Or.inr (Or.inr hs.entry)⟩

/-- The states of a promotion and of recoveries after it, each of them stopped anywhere. A later
recovery may be another process. -/
inductive RepairRun (store : ModelStore) (key : String) (start : Cache) : Cache → Prop where
  | promoting (schedule : List Choice) :
      RepairRun store key start (Program.after respond schedule (promote store key).run start).2
  | recovering {s : Cache} (h : RepairRun store key start s) (other : ModelStore)
      (schedule : List Choice) :
      RepairRun store key start (Program.after respond schedule (reconcileRepair other key).run s).2

/-- A recovery, stopped anywhere, stays in the protocol; its results are as specified. -/
theorem RepairPhase.recovery {stray : Prop} {key : String} {previous staged : Tree} {s : Cache}
    (h : RepairPhase stray key previous staged s) (store : ModelStore) (schedule : List Choice) :
    RepairPhase stray key previous staged
      (Program.after respond schedule (reconcileRepair store key).run s).2 ∧
    ∀ result, (Program.after respond schedule (reconcileRepair store key).run s).1 = .done result →
      Reconciled Set.univ key s result
        (Program.after respond schedule (reconcileRepair store key).run s).2 := by
  have hspec : Spec Set.univ (Repair False key) (reconcileRepair store key)
      (Reconciled Set.univ key s) s := reconcile_repair_spec (by simp)
  obtain ⟨hrun, hdone⟩ := Program.wp_after hspec schedule (by simp)
  have hpreserves :
      Transition.Preserves (Repair False key) (RepairPhase stray key previous staged) :=
    fun _ _ hphase hstep => hphase.repair hstep
  exact ⟨hpreserves.run hrun h, hdone⟩

/-- A promotion, stopped anywhere, stays in the protocol; its results are as specified. -/
theorem RepairPhase.promoting {stray : Prop} {key : String} {previous staged : Tree} {s : Cache}
    (hstaged : staged.entries.keys ≠ []) (h : RepairPhase stray key previous staged s)
    (store : ModelStore) (schedule : List Choice) :
    RepairPhase stray key previous staged
      (Program.after respond schedule (promote store key).run s).2 ∧
    ∀ result, (Program.after respond schedule (promote store key).run s).1 = .done result →
      Promoted key s result (Program.after respond schedule (promote store key).run s).2 := by
  have hspec : Spec Set.univ (Promotion (fun _ => True) key) (promote store key)
      (Promoted key s) s := promote_spec fun _ _ => trivial
  obtain ⟨hrun, hdone⟩ := Program.wp_after hspec schedule (by simp)
  have hpreserves : Transition.Preserves (Promotion (fun _ => True) key)
      (RepairPhase stray key previous staged) :=
    fun _ _ hphase hstep => hphase.promotion hstaged hstep
  exact ⟨hpreserves.run hrun h, hdone⟩

/-- Every state of a repair run is in the protocol. -/
theorem RepairRun.phase {stray : Prop} {store : ModelStore} {key : String} {previous staged : Tree}
    {start s : Cache} (hstaged : staged.entries.keys ≠ [])
    (hstart : RepairPhase stray key previous staged start) (hrun : RepairRun store key start s) :
    RepairPhase stray key previous staged s := by
  induction hrun with
  | promoting schedule => exact (hstart.promoting hstaged store schedule).1
  | recovering _ other schedule ih => exact (ih.recovery other schedule).1

/-- A settled transaction has its final tree in place and, unless it found a stray backup, no
backup. -/
theorem RepairPhase.unmarked {stray : Prop} {key : String} {previous staged : Tree} {s : Cache}
    (h : RepairPhase stray key previous staged s) (hmarker : s.marker key = none) :
    (¬ stray → s.entry (.backup key) = none) ∧
      (s.entry (.models key) = some (.dir previous) ∨
        s.entry (.models key) = some (.dir staged)) := by
  cases h with
  | prepared hp hs hb =>
      refine ⟨fun hclean => ?_, Or.inl hp.entry⟩
      by_contra hsome
      rcases hb (by simpa [Option.isSome_iff_ne_none] using hsome) with hset | hstray
      · exact hset hmarker
      · exact hclean hstray
  | displaced hp hs hm hf => simp [hm] at hmarker
  | replaced hp hs hm hg => simp [hm] at hmarker
  | retired hp hs hb hg => exact ⟨fun _ => hb, Or.inr hs.entry⟩

/-- Crash safety of repair promotion: from a tree at `models/<key>` and a staged tree, through a
promotion and any recoveries, each failing or stopping at any primitive, both trees stay whole
at one place each, no run gives up on the transaction, and a recovery that completes leaves one
of the two trees at `models/<key>` without a marker and without a backup, unless the promotion
found a backup that no marker belonged to. -/
theorem repair_promotion_crash_safe (store : ModelStore) (key : String) (previous staged : Tree)
    (start : Cache) (hprevious : StandsOnlyAt start previous (.models key))
    (hstaged : StandsOnlyAt start staged (.staging key)) (hcomplete : staged.entries.keys ≠ [])
    (s : Cache) (hrun : RepairRun store key start s) :
    BothWhole key previous staged s ∧
    (∀ schedule, (Program.after respond schedule (promote store key).run start).1 ≠
      .done (.error unreconcilable)) ∧
    ∀ (other : ModelStore) (schedule : List Choice) (result : Except Error Unit),
      (Program.after respond schedule (reconcileRepair other key).run s).1 = .done result →
      result ≠ .error unreconcilable ∧
      (result = .ok () →
        let recovered := (Program.after respond schedule (reconcileRepair other key).run s).2
        recovered.marker key = none ∧
        (start.entry (.backup key) = none ∨ start.marker key ≠ none →
          recovered.entry (.backup key) = none) ∧
        (recovered.entry (.models key) = some (.dir previous) ∨
          recovered.entry (.models key) = some (.dir staged))) := by
  have hstart : RepairPhase (start.entry (.backup key) ≠ none ∧ start.marker key = none) key
      previous staged start := by
    -- A backup at the start belongs to a marker, or it is stray.
    refine .prepared hprevious hstaged fun hbackup => ?_
    by_cases hmarker : start.marker key = none
    · exact Or.inr ⟨by simpa [Option.isSome_iff_ne_none] using hbackup, hmarker⟩
    · exact Or.inl hmarker
  have hphase := hrun.phase hcomplete hstart
  refine ⟨hphase.both_whole, fun schedule hdone => ?_, fun other schedule result hdone => ?_⟩
  · exact hstart.settled_ne_none (((hstart.promoting hcomplete store schedule).2 _ hdone).1 rfl)
  · obtain ⟨hafter, hresult⟩ := hphase.recovery other schedule
    refine ⟨fun heq => hphase.settled_ne_none ((hresult result hdone).stuck heq), fun hok => ?_⟩
    have hmarker := (hresult result hdone).marker hok
    obtain ⟨hbackup, hfinal⟩ := hafter.unmarked hmarker
    refine ⟨hmarker, fun hclean => hbackup ?_, hfinal⟩
    rintro ⟨hsome, hnone⟩
    rcases hclean with hfree | hset
    · exact hsome hfree
    · exact hset hnone

/-- A staged tree that holds a manifest. -/
def stagedFixture : Tree :=
  ⟨1, (∅ : AList fun _ : RelPath => Node).insert manifestFile (.file [])⟩

/-- An installed tree without files next to a staged one. -/
def repairFixture : Cache :=
  { Cache.empty with
    dirs := ((∅ : AList fun _ : Loc => Entry).insert (.staging "k") (.dir stagedFixture)).insert
      (.models "k") (.dir ⟨0, ∅⟩) }

theorem repair_fixture_entry (loc : Loc) : repairFixture.entry loc =
    if loc = .models "k" then some (.dir ⟨0, ∅⟩)
    else if loc = .staging "k" then some (.dir stagedFixture) else none := by
  by_cases hmodels : loc = .models "k"
  · subst hmodels
    rfl
  · by_cases hstaging : loc = .staging "k"
    · subst hstaging
      rfl
    · rw [if_neg hmodels, if_neg hstaging]
      exact (AList.lookup_insert_ne hmodels).trans (AList.lookup_insert_ne hstaging)

theorem repair_promotion_crash_safe_fixture :
    BothWhole "k" ⟨0, ∅⟩ stagedFixture
      (Program.after respond (List.replicate 30 {}) (promote ⟨.fixture [], [], 7, 0, 0⟩ "k").run
        repairFixture).2 := by
  refine (repair_promotion_crash_safe _ _ _ _ _ ?_ ?_ ?_ _ (.promoting _)).1
  · intro other
    rw [repair_fixture_entry]
    split <;> rename_i h <;> simp [h, stagedFixture]
  · intro other
    rw [repair_fixture_entry]
    split <;> rename_i h <;> simp [h, stagedFixture]
  · decide

/-- A backup that no marker belongs to, beside an installed tree and a staged one. -/
def strayFixture : Cache :=
  { repairFixture with dirs := repairFixture.dirs.insert (.backup "k") (.dir ⟨2, ∅⟩) }

theorem stray_fixture_entry (loc : Loc) : strayFixture.entry loc =
    if loc = .backup "k" then some (.dir ⟨2, ∅⟩) else repairFixture.entry loc := by
  by_cases hbackup : loc = .backup "k"
  · subst hbackup
    rfl
  · rw [if_neg hbackup]
    exact AList.lookup_insert_ne hbackup

/-- A promotion that finds a stray backup refuses, and a recovery after it completes without
having touched the backup. -/
theorem stray_backup_survives :
    StandsOnlyAt strayFixture ⟨0, ∅⟩ (.models "k") ∧
    StandsOnlyAt strayFixture stagedFixture (.staging "k") ∧ stagedFixture.entries.keys ≠ [] ∧
    let store : ModelStore := ⟨.fixture [], [], 7, 0, 0⟩
    let promoted :=
      Program.after respond (List.replicate 30 {}) (promote store "k").run strayFixture
    let recovered := Program.after respond [{}] (reconcileRepair store "k").run promoted.2
    RepairRun store "k" strayFixture promoted.2 ∧
    promoted.1 = .done (.error (.invalid "repair transaction state is not clean")) ∧
    recovered.1 = .done (.ok ()) ∧ recovered.2.entry (.backup "k") = some (.dir ⟨2, ∅⟩) := by
  refine ⟨fun other => ?_, fun other => ?_, by decide, .promoting _, ?_, ?_, ?_⟩
  · rw [stray_fixture_entry, repair_fixture_entry]
    split <;> rename_i h
    · simp [h]
    · split <;> rename_i h <;> simp [h, stagedFixture]
  · rw [stray_fixture_entry, repair_fixture_entry]
    split <;> rename_i h
    · simp [h, stagedFixture]
    · split <;> rename_i h <;> simp [h, stagedFixture]
  · rfl
  · rfl
  · rfl

end EmbeddingServer
