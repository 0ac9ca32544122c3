import EmbeddingServer.Models.StoreRuns

/-!
# The marker and the staged tree

While a repair marker exists, a recovery may promote what is staged. Along every run of the
store the staged tree is then the complete, flushed tree for which the marker was written, or
it is gone, as long as no import begins to remove its staged tree next to the marker. The
removal happens when an import's promotion fails and leaves the marker behind; the last
section shows a run in which a partial tree is left for the next recovery.
-/

namespace EmbeddingServer

/-- A marker stands next to the complete tree it was written for, or next to no staged tree. -/
def MarkerSafe (ext : External) (manifest : Manifest) (s : Cache) : Prop :=
  s.marker (manifest.semanticDigest ext) ≠ none →
    s.entry (.staging (manifest.semanticDigest ext)) = none ∨
    ∃ tree, s.entry (.staging (manifest.semanticDigest ext)) = some (.dir tree) ∧
      s.prepared (manifest.semanticDigest ext) = some (.dir tree) ∧
      CompleteTree ext manifest tree ∧
      AllDurable s (.staging (manifest.semanticDigest ext)) tree

section Preservation

variable {ext : External} {manifest : Manifest} {s s' : Cache}

/-- A step that keeps the marker, the staged tree and what is flushed of it. -/
theorem MarkerSafe.kept (h : MarkerSafe ext manifest s) (hmarker : s'.marker = s.marker)
    (hentry : s'.entry (.staging (manifest.semanticDigest ext)) =
      s.entry (.staging (manifest.semanticDigest ext)))
    (hprepared : s'.prepared = s.prepared)
    (hdurable : ∀ item ∈ s.durable, item.1 = .staging (manifest.semanticDigest ext) →
      item ∈ s'.durable) : MarkerSafe ext manifest s' := by
  intro hset
  rw [hmarker] at hset
  rw [hentry, hprepared]
  rcases h hset with hnone | ⟨tree, htree, hprep, hcomplete, hroot, hpaths⟩
  · exact Or.inl hnone
  · refine Or.inr ⟨tree, htree, hprep, hcomplete, hdurable _ hroot rfl, fun path hpath => ?_⟩
    exact hdurable _ (hpaths path hpath) rfl

/-- Without a marker there is nothing to say. -/
theorem MarkerSafe.of_unmarked (h : s.marker (manifest.semanticDigest ext) = none) :
    MarkerSafe ext manifest s :=
  fun hset => absurd h hset

theorem MarkerSafe.edited {loc : Loc} (h : MarkerSafe ext manifest s) (hedited : Edited loc s s')
    (hloc : loc ≠ .staging (manifest.semanticDigest ext)) : MarkerSafe ext manifest s' :=
  h.kept hedited.marker (hedited.entry _ hloc.symm) hedited.prepared fun item hitem heq =>
    hedited.durable item hitem (heq ▸ hloc.symm)

/-- A rename between other places. -/
theorem MarkerSafe.renamed {src dst : Loc} (h : MarkerSafe ext manifest s)
    (hrename : s.rename src dst = some s') (hsrc : src ≠ .staging (manifest.semanticDigest ext))
    (hdst : dst ≠ .staging (manifest.semanticDigest ext)) : MarkerSafe ext manifest s' := by
  have hentry := Cache.rename_entry hrename (.staging (manifest.semanticDigest ext))
  rw [if_neg hdst.symm, if_neg hsrc.symm] at hentry
  obtain ⟨moved, -, -, rfl⟩ := Cache.rename_eq_some hrename
  refine h.kept rfl hentry rfl fun item hitem heq => ?_
  refine List.mem_append_left _ (List.mem_filter.mpr ⟨hitem, ?_⟩)
  simp [heq, hsrc.symm, hdst.symm]

/-- A rename that takes the staged tree away. -/
theorem MarkerSafe.unstaged {dst : Loc}
    (hrename : s.rename (.staging (manifest.semanticDigest ext)) dst = some s')
    (hdst : dst ≠ .staging (manifest.semanticDigest ext)) : MarkerSafe ext manifest s' := by
  refine fun _ => Or.inl ?_
  rw [Cache.rename_entry hrename, if_neg hdst.symm, if_pos rfl]

theorem MarkerSafe.synced (h : MarkerSafe ext manifest s) (hsynced : Synced s s') :
    MarkerSafe ext manifest s' := by
  obtain ⟨durable, hdurable, rfl⟩ := hsynced
  exact h.kept rfl rfl rfl fun item hitem _ => hdurable hitem

theorem MarkerSafe.repair {exact : Prop} (h : MarkerSafe ext manifest s)
    (hstep : Repair exact (manifest.semanticDigest ext) s s') : MarkerSafe ext manifest s' := by
  cases hstep with
  | flush hsynced => exact h.synced hsynced
  | displace _ _ _ hrename => exact h.renamed hrename (by simp) (by simp)
  | replace _ _ _ hrename => exact .unstaged hrename (by simp)
  | restore _ _ _ hrename => exact h.renamed hrename (by simp) (by simp)
  | quarantine _ _ _ _ hrename => exact h.renamed hrename (by simp) (by simp)
  | close _ _ _ _ heq =>
      subst heq
      exact .of_unmarked (by simp)

theorem MarkerSafe.promotion (h : MarkerSafe ext manifest s)
    (hstep : Promotion (CompleteTree ext manifest) (manifest.semanticDigest ext) s s') :
    MarkerSafe ext manifest s' := by
  cases hstep with
  | repair hrepair => exact h.repair hrepair
  | publish _ _ hrename => exact .unstaged hrename (by simp)
  | mark _ _ _ hstaging hready hdurable heq =>
      subst heq
      exact fun _ => Or.inr ⟨_, hstaging, by simp [hstaging], hready, hdurable⟩
  | rollback _ _ hrename => exact h.renamed hrename (by simp) (by simp)

theorem MarkerSafe.reading (h : MarkerSafe ext manifest s)
    (hstep : ReadStep (manifest.semanticDigest ext) s s') : MarkerSafe ext manifest s' := by
  cases hstep with
  | repair hrepair => exact h.repair hrepair
  | quiet hquiet =>
      exact h.kept hquiet.marker (hquiet.entry _) hquiet.prepared fun item hitem _ =>
        hquiet.durable ▸ hitem
  | grow hedited _ => exact h.edited hedited (by simp)

theorem MarkerSafe.deletion {exact : Prop} (h : MarkerSafe ext manifest s)
    (hstep : DeleteStep exact (manifest.semanticDigest ext) s s') : MarkerSafe ext manifest s' := by
  cases hstep with
  | repair hrepair => exact h.repair hrepair
  | bury _ _ hrename => exact h.renamed hrename (by simp) (by simp)
  | unbury hedited _ => exact h.edited hedited (by simp)

end Preservation

/-- Every step of the store keeps the marker safe, or has begun to remove the staged tree next to
a marker before. -/
theorem marker_safe_preserved (ext : External) (manifest : Manifest) :
    Transition.Preserves (RunStep ext manifest) fun s =>
      .staging (manifest.semanticDigest ext) ∈ s.markedRemovals ∨ MarkerSafe ext manifest s := by
  rintro s s' hs ⟨hstep, hkept⟩
  rcases hs with hmarked | hsafe
  · exact Or.inl (hkept hmarked)
  · cases hstep with
    | reading h => exact Or.inr (hsafe.reading h)
    | promotion h => exact Or.inr (hsafe.promotion h)
    | deletion h => exact Or.inr (hsafe.deletion h)
    | stage hmarker h _ => exact Or.inr (.of_unmarked (by rw [h.marker, hmarker]))
    | sweep hmarked _ _ _ => exact Or.inl (hkept hmarked)

/-- Along every run that starts without a marker and in which no removal of the staged tree began
next to a marker, a marker stands next to the complete, flushed tree it was written for or next
to no staged tree. -/
theorem marker_excludes_partial_staging (ext : External) (manifest : Manifest) (start s : Cache)
    (hstart : start.marker (manifest.semanticDigest ext) = none)
    (hrun : StoreRun ext manifest start s)
    (hremovals : .staging (manifest.semanticDigest ext) ∉ s.markedRemovals) :
    MarkerSafe ext manifest s := by
  have hfinal := (marker_safe_preserved ext manifest).run hrun.steps (Or.inr (.of_unmarked hstart))
  exact hfinal.resolve_left hremovals

/-- A store with an installed tree that is not valid for the manifest. -/
def invalidInstallation : Cache :=
  { Cache.empty with
    dirs := (∅ : AList fun _ : Loc => Entry).insert
      (.models (Manifest.fixture.semanticDigest (.fixture [.fixture]))) (.dir ⟨0, ∅⟩) }

/-- A source that holds the artifact, and no failure. -/
def sourceChoice : Choice := { flag := true, amount := 1 }

/-- The choices of an import that stages the one-byte artifact and writes the marker. -/
def markingChoices : List Choice :=
  List.replicate 46 sourceChoice ++ [{ sourceChoice with bytes := [0x61] }] ++
    List.replicate 38 sourceChoice

/-- The cache an import by one process leaves if it stops there. -/
def cacheAfter (schedule : List Choice) : Cache :=
  (Program.after respond schedule
    (StoreCall.importModel.body ⟨.fixture [.fixture], [], 7, 0, 0⟩ .fixture).run
    invalidInstallation).2

theorem cache_after_run (schedule : List Choice) :
    StoreRun (.fixture [.fixture]) .fixture invalidInstallation (cacheAfter schedule) :=
  .call .start ⟨.fixture [.fixture], [], 7, 0, 0⟩ rfl .importModel schedule

theorem marker_excludes_partial_staging_marked :
    (cacheAfter markingChoices).marker (Manifest.fixture.semanticDigest (.fixture [.fixture])) =
      some .file ∧
    MarkerSafe (.fixture [.fixture]) .fixture (cacheAfter markingChoices) := by
  have hstate : (cacheAfter markingChoices).marker
        (Manifest.fixture.semanticDigest (.fixture [.fixture])) = some .file ∧
      .staging (Manifest.fixture.semanticDigest (.fixture [.fixture])) ∉
        (cacheAfter markingChoices).markedRemovals := by
    decide +kernel
  exact ⟨hstate.1, marker_excludes_partial_staging _ _ invalidInstallation _ rfl
    (cache_after_run markingChoices) hstate.2⟩

/-- The import fails to flush the marker, begins to remove the staged tree and stops. -/
def interruptedCache : Cache :=
  cacheAfter (markingChoices ++ [{ sourceChoice with fault := .before }] ++
    List.replicate 2 sourceChoice)

/-- The error path of an import can leave a marker next to a staged tree without a manifest. -/
theorem marker_next_to_partial_staging :
    invalidInstallation.marker (Manifest.fixture.semanticDigest (.fixture [.fixture])) = none ∧
    StoreRun (.fixture [.fixture]) .fixture invalidInstallation interruptedCache ∧
    ¬ MarkerSafe (.fixture [.fixture]) .fixture interruptedCache := by
  refine ⟨rfl, cache_after_run _, fun hsafe => ?_⟩
  have hstate : interruptedCache.marker (Manifest.fixture.semanticDigest (.fixture [.fixture])) =
        some .file ∧
      interruptedCache.node (.staging (Manifest.fixture.semanticDigest (.fixture [.fixture]))) [] =
        some .dir ∧
      interruptedCache.node (.staging (Manifest.fixture.semanticDigest (.fixture [.fixture])))
        manifestFile = none := by
    decide +kernel
  obtain ⟨hmarker, hroot, hmanifest⟩ := hstate
  rcases hsafe (by simp [hmarker]) with hnone | ⟨tree, htree, -, hcomplete, -⟩
  · simp [Cache.node, Cache.tree, hnone] at hroot
  · obtain ⟨encoded, -, hlookup⟩ := hcomplete.manifest
    rw [Cache.node_of_tree (Cache.tree_eq_some.mpr htree), if_neg (by simp [manifestFile])]
      at hmanifest
    simp [hmanifest] at hlookup

end EmbeddingServer
