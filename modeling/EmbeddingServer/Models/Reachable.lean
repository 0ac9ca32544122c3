import EmbeddingServer.Models.Identity
import EmbeddingServer.Models.Withholding

/-!
# Stores that can be reached

The results on deletions and on operations on other manifests ask of a store that it is `Sound`.
Every store that operations on any identities make of an empty cache is, for every key
(`Aftermath.sound`): an operation keeps the shape of its own key step by step and leaves the other
keys alone. So both results hold of every store there can be.
-/

namespace EmbeddingServer

variable {start s : Cache}

/-- A call that is stopped anywhere has left the other keys alone. -/
theorem StoreCall.framed (call : StoreCall) (store : ModelStore) (manifest : Manifest)
    (schedule : List Choice) (s : Cache) :
    Framed (store.key manifest) s
      (Program.after respond schedule (call.body store manifest).run s).2 := by
  have hspec : Spec Set.univ (fun _ b => Framed (store.key manifest) s b) (call.body store manifest)
      (fun _ b => Framed (store.key manifest) s b) s := by
    refine Program.wp_of_all call.body_local (fun _ _ heq hinv => heq ▸ hinv) ?_ (.refl _ s)
    intro op hop choice _ b hb
    have hstep := hb.trans (respond_framed hop choice b)
    exact ⟨hstep, hstep⟩
  rcases (Program.wp_after hspec schedule (by simp)).1.cases_tail with heq | ⟨b, -, hlast⟩
  · rw [heq]
    exact .refl _ s
  · exact hlast

/-- Operations on any identities, stopped anywhere, keep the shape of every key. -/
theorem Aftermath.sound (h : Aftermath start s) (hstart : ∀ key, Sound key start) (key : String) :
    Sound key s := by
  induction h with
  | start => exact hstart key
  | @call a _ store manifest call schedule ih =>
      -- The own key step by step, every other key by the frame.
      by_cases hkey : key = store.key manifest
      · subst hkey
        exact (StoreRun.call .start store rfl call schedule).sound ih
      · exact (ih.framed (call.framed store manifest schedule a) hkey).1
  | drop _ locks _ ih => exact ih.congr rfl fun _ => rfl

/-- Deletions in a store that was reached from an empty cache, each stopped anywhere: at
`models/<key>` is nothing, what was there, or what the first recovery settles on, and one more
deletion in which nothing fails succeeds and leaves nothing. -/
theorem Aftermath.deletion {ext : External} {manifest : Manifest} (h : Aftermath .empty start)
    (hrun : DeleteRun ext manifest start s) :
    (s.entry (.models (manifest.semanticDigest ext)) = none ∨
      ∃ tree, s.entry (.models (manifest.semanticDigest ext)) = some (.dir tree) ∧
        (start.entry (.models (manifest.semanticDigest ext)) = some (.dir tree) ∨
          settled start (manifest.semanticDigest ext) = some (.dir tree))) ∧
    ∀ (store : ModelStore) (choices : Nat → Choice), store.ext = ext →
      (∀ n, (choices n).fault = .none) →
      (∀ tree, settled start (store.key manifest) = some (.dir tree) →
        tree.Stores store.ext manifest) →
      let s' := (Program.exec respond choices (deleteLocked store manifest).run s).2
      s'.entry (.models (store.key manifest)) = none ∧
        s'.entry (.tombstone (store.key manifest)) = none ∧
        s'.marker (store.key manifest) = none := by
  have hstart := h.sound sound_empty (manifest.semanticDigest ext)
  refine ⟨hrun.models_cases hstart, ?_⟩
  intro store choices hext hchoices hstored
  exact (hrun.completes hstart hext hchoices hstored).choose_spec.2

/-- In a store that was reached from an empty cache and that nobody is using, what `status` reports
as installed it reports after a deletion of another manifest, and after an import or an
installation under another key. -/
theorem Aftermath.undisturbed {store other : ModelStore} (h : Aftermath .empty s)
    (hlocks : s.locks = []) (hext : other.ext = store.ext) {manifest changed : Manifest}
    (hne : manifest ≠ changed) {call : StoreCall}
    (hcall : call = .delete ∨ call.changes = true ∧
      manifest.semanticDigest store.ext ≠ changed.semanticDigest store.ext)
    {found : ModelStatus} (hfound : found.isInstalled = true)
    (hstatus : Reports store manifest s found) (schedule : Nat → Choice) :
    Reports store manifest
      (Program.exec respond schedule (call.body other changed).run s).2 found := by
  have hsound := h.sound sound_empty (manifest.semanticDigest store.ext)
  obtain ⟨hvalid, t, hentry, hinspected⟩ := hstatus.inspected hlocks hsound
  obtain ⟨hafter, hkept, hsettled⟩ :=
    StoreCall.spares hext hne hcall hlocks hsound hfound hentry hinspected schedule
  exact hinspected.reports hafter hkept hvalid (hentry.trans hsettled.symm)

end EmbeddingServer
