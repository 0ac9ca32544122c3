import EmbeddingServer.Models.Leases

/-!
# A verified model excludes mutation

Any number of processes run operations on one manifest at the same time, one primitive at a
time in any order. A call that has returned a `VerifiedModel` leaves it to its caller, who may
clone it and drop the clones; the lease is released with the last one. A process may die at
any point, and the operating system then drops its handles.
-/

namespace EmbeddingServer

/-- The code of an operation with the capability it returns. -/
def StoreCall.code (store : ModelStore) (manifest : Manifest) :
    StoreCall → StoreM (Option VerifiedModel)
  | .verifiedModel rounds => EmbeddingServer.verifiedModel store manifest rounds
  | call => call.body store manifest >>= fun _ => pure none

/-- A call in progress. -/
abbrev Call := Program FsOp FsOp.Reply (Except Error (Option VerifiedModel))

/-- The cache, the calls in progress and the live clones of verified models. -/
structure World where
  cache : Cache
  calls : Nat → Option Call
  models : List VerifiedModel

namespace World

/-- Nothing runs yet. -/
def initial (cache : Cache) : World :=
  ⟨cache, fun _ => none, []⟩

/-- The capability a call hands to its caller. -/
def handOver : Except Error (Option VerifiedModel) → List VerifiedModel
  | .ok (some model) => [model]
  | _ => []

/-- What can happen next. `reconcile_repair` is no operation of its own here: the code calls it
under the exclusive lock only. -/
inductive Step (ext : External) (manifest : Manifest) : World → World → Prop where
  | begin {w : World} (store : ModelStore) (call : StoreCall) (hext : store.ext = ext)
      (hcall : call ≠ .reconcile) (hidle : w.calls store.task = none)
      (hfresh : own store.task w.cache = []) :
      Step ext manifest w
        { w with calls := Function.update w.calls store.task (some (call.code store manifest).run) }
  | perform {w : World} (task : Nat) (op : FsOp) (next : op.Reply → Call) (choice : Choice)
      (hcall : w.calls task = some (.perform op next)) :
      Step ext manifest w
        { w with
          cache := (respond choice w.cache op).2
          calls := Function.update w.calls task (some (next (respond choice w.cache op).1)) }
  | finish {w : World} (task : Nat) (result : Except Error (Option VerifiedModel))
      (hcall : w.calls task = some (.done result)) :
      Step ext manifest w
        { w with
          calls := Function.update w.calls task none
          models := handOver result ++ w.models }
  | clone {w : World} (model : VerifiedModel) (hmodel : model ∈ w.models) :
      Step ext manifest w { w with models := model :: w.models }
  | drop {w : World} (model : VerifiedModel) (hmodel : model ∈ w.models) :
      Step ext manifest w
        { w with
          cache := if model ∈ w.models.erase model then w.cache
            else w.cache.release (manifest.semanticDigest ext) model.lease
          models := w.models.erase model }
  | die {w : World} (task : Nat) :
      Step ext manifest w
        { cache := { w.cache with locks := w.cache.locks.filter fun lock => lock.owner ≠ task }
          calls := Function.update w.calls task none
          models := w.models.filter fun model =>
            (own task w.cache).all fun lock => lock.handle ≠ model.lease }

end World

/-! ## Handles are not used again -/

/-- Handles are only dropped or new. -/
structure Handles (s s' : Cache) : Prop where
  next : ∀ key, s.nextHandle key ≤ s'.nextHandle key
  born : ∀ lock ∈ s'.locks, lock ∈ s.locks ∨ s.nextHandle lock.key ≤ lock.handle

theorem Handles.refl (s : Cache) : Handles s s :=
  ⟨fun _ => le_rfl, fun _ h => Or.inl h⟩

theorem Handles.trans {a b c : Cache} (hab : Handles a b) (hbc : Handles b c) : Handles a c := by
  refine ⟨fun key => (hab.next key).trans (hbc.next key), fun lock hlock => ?_⟩
  rcases hbc.born lock hlock with hb | hnew
  · exact hab.born lock hb
  · exact Or.inr ((hab.next lock.key).trans hnew)

theorem Handles.sublist (s : Cache) {locks : List Lock} (h : List.Sublist locks s.locks) :
    Handles s { s with locks := locks } :=
  ⟨fun _ => le_rfl, fun _ hlock => Or.inl (h.subset hlock)⟩

theorem respond_handles (choice : Choice) (s : Cache) (op : FsOp) :
    Handles s (respond choice s op).2 := by
  have hfree : op.LockFree → Handles s (respond choice s op).2 := by
    intro hop
    obtain ⟨hlocks, hnext⟩ := respond_same_locks hop choice s
    exact ⟨fun key => by rw [hnext], fun lock hlock => Or.inl (by rwa [← hlocks])⟩
  cases op with
  | tryLock task key exclusive =>
      rcases respond_try_lock key task exclusive choice s with ⟨error, hreply⟩ | ⟨-, hreply⟩
      · rw [hreply]
        exact .refl s
      · rw [hreply]
        refine ⟨fun other => ?_, fun lock hlock => ?_⟩
        · simp only [Function.update_apply]
          split
          · rename_i hkey
            rw [hkey]
            omega
          · exact le_rfl
        · rcases List.mem_cons.mp hlock with rfl | hlock
          · exact Or.inr le_rfl
          · exact Or.inl hlock
  | unlock key handle =>
      exact @respond_state (Handles s) choice s _ (.refl s) (.sublist s List.filter_sublist)
  | _ => exact hfree trivial

/-- A handle that is open before and after was open all the time. -/
theorem Handles.between {a b c : Cache} {lock : Lock} (hab : Handles a b) (ha : LockTable a)
    (hbc : Handles b c) (hbefore : lock ∈ a.locks) (hafter : lock ∈ c.locks) : lock ∈ b.locks := by
  rcases hbc.born lock hafter with hb | hnew
  · exact hb
  · have := ha.fresh lock hbefore
    have := hab.next lock.key
    omega

/-! ## The invariant -/

section Invariant

variable {ext : External} {manifest : Manifest} {task : Nat} {model : VerifiedModel} {s s' : Cache}

/-- What a call relies on, for the operations on a manifest. -/
abbrev Relies (ext : External) (manifest : Manifest) (task : Nat) : Cache → Cache → Prop :=
  Rely (manifest.semanticDigest ext) (artifactDirectories manifest) task

/-- What a call guarantees. -/
abbrev Guarantees (ext : External) (manifest : Manifest) (task : Nat) : Cache → Cache → Prop :=
  Guar (manifest.semanticDigest ext) (artifactDirectories manifest) task

/-- A call in progress keeps to the protocol and returns as it should. -/
def Orderly (ext : External) (manifest : Manifest) (task : Nat) (call : Call) (s : Cache) : Prop :=
  Program.wp respond Set.univ (Relies ext manifest task) (Guarantees ext manifest task) call
    (Returned ext manifest task) s

theorem Orderly.rely {call : Call} (h : Orderly ext manifest task call s)
    (hrely : Relies ext manifest task s s') : Orderly ext manifest task call s' :=
  Program.wp.stable rely_trans h hrely

/-- Every operation starts orderly. -/
theorem code_orderly {store : ModelStore} {call : StoreCall} (hcall : call ≠ .reconcile)
    (hs : Holds store.task [] s) :
    Orderly store.ext manifest store.task (call.code store manifest).run s := by
  have hbalanced : ∀ {α : Type} {body : StoreM α}, Balanced (store.key manifest)
      (artifactDirectories manifest) store.task (fun _ => True) body →
      Guarded (store.key manifest) (artifactDirectories manifest) store.task
        ((body >>= fun _ => pure ()) >>= fun _ => pure none)
        (Returned store.ext manifest store.task) s := by
    intro α body hbody
    refine guarded_bind (Program.wpE.imp ((hbody.bind fun _ => balanced_pure ()) [] s trivial hs)
      fun result a ha => ?_)
    cases result with
    | error error => exact ha
    | ok => exact fun b hb => ha.rely hb
  cases call with
  | verifiedModel rounds => exact verified_model_spec rounds hs
  | importModel => exact hbalanced import_model_balanced
  | install options chunks =>
      exact hbalanced (@install_transaction_balanced _ _ ⟨store, options, chunks⟩)
  | status => exact hbalanced (status_with_cancel_balanced polls_never)
  | delete => exact hbalanced delete_model_balanced
  | reconcile => exact absurd rfl hcall

/-- A capability survives what the others do. -/
theorem Leased.rely (h : Leased ext manifest task model s) (hrely : Relies ext manifest task s s') :
    Leased ext manifest task model s' := by
  have hspared := (hrely.2 h.held.1).2 ⟨_, by rw [h.held.2]; exact List.mem_cons_self, rfl⟩
  exact ⟨h.model_eq, h.held.rely hrely, hspared.marker.trans h.marker,
    h.installed.kept hspared.kept⟩

theorem Leased.mem_own (h : Leased ext manifest task model s) :
    ⟨model.lease, task, manifest.semanticDigest ext, false⟩ ∈ own task s := by
  rw [h.held.2]
  exact List.mem_cons_self

/-- A call has been given at most one capability. -/
theorem Leased.unique {other : VerifiedModel} (h : Leased ext manifest task model s)
    (hother : Leased ext manifest task other s) : other = model := by
  have hleases : other.lease = model.lease := by
    have hsame := hother.held.2.symm.trans h.held.2
    simpa using hsame
  rw [h.model_eq, hother.model_eq, hleases]

/-- Death drops all handles of a call and no others. -/
theorem guarantees_die (task : Nat) (s : Cache) :
    Guarantees ext manifest task s
      { s with locks := s.locks.filter fun lock => lock.owner ≠ task } := by
  refine ⟨fun other hother => ?_, fun h => h.sublist List.filter_sublist,
    ⟨fun _ _ => rfl, fun _ _ => rfl⟩, Or.inr ⟨⟨rfl, fun _ _ h => h, fun _ => rfl⟩, rfl⟩⟩
  simp only [own, List.filter_filter]
  refine List.filter_congr fun lock _ => ?_
  by_cases howner : lock.owner = other
  · simp [howner, hother]
  · simp [howner]

/-- The lock table is in order, the calls in progress are orderly, and every live capability is
backed by the lease of a call that has returned. -/
structure World.Safe (ext : External) (manifest : Manifest) (w : World) : Prop where
  table : LockTable w.cache
  calls : ∀ task call, w.calls task = some call → Orderly ext manifest task call w.cache
  models : ∀ model ∈ w.models, ∃ task, w.calls task = none ∧ Leased ext manifest task model w.cache

theorem World.safe_initial (hlocks : s.locks = []) : (World.initial s).Safe ext manifest where
  table := by constructor <;> simp [World.initial, hlocks]
  calls _ _ h := by cases h
  models _ h := by cases h

/-- The calls after one of them has changed. -/
theorem World.update_calls {calls : Nat → Option Call} {new : Option Call}
    {other : Nat} {call : Call}
    (h : Function.update calls task new other = some call) :
    other = task ∧ new = some call ∨ other ≠ task ∧ calls other = some call := by
  by_cases heq : other = task
  · subst heq
    exact Or.inl ⟨rfl, by simpa using h⟩
  · exact Or.inr ⟨heq, by rwa [Function.update_of_ne heq] at h⟩

/-- Calls other than the acting one stay orderly. -/
theorem World.Safe.others {w : World} (h : w.Safe ext manifest)
    (hguar : Guarantees ext manifest task w.cache s') {other : Nat} {call : Call}
    (hother : other ≠ task) (hcall : w.calls other = some call) :
    Orderly ext manifest other call s' :=
  (h.calls other call hcall).rely (hguar.rely hother)

theorem World.safe_preserved (ext : External) (manifest : Manifest) :
    Transition.Preserves (World.Step ext manifest) (World.Safe ext manifest) := by
  intro w w' hw hstep
  cases hstep with
  | begin store call hext hcall hidle hfresh =>
      subst hext
      refine ⟨hw.table, fun task code htask => ?_, fun model hmodel => ?_⟩
      · rcases World.update_calls htask with ⟨rfl, hnew⟩ | ⟨-, hold⟩
        · obtain rfl := Option.some.inj hnew
          exact code_orderly hcall ⟨hw.table, hfresh⟩
        · exact hw.calls task code hold
      · obtain ⟨task, hnone, hleased⟩ := hw.models model hmodel
        -- A task that holds a lock is not the fresh one that begins a call.
        have hne : task ≠ store.task := by
          rintro rfl
          simpa [hfresh] using hleased.mem_own
        exact ⟨task, (Function.update_of_ne hne ..).trans hnone, hleased⟩
  | perform task op next choice hcall =>
      -- The acting call is orderly, which gives a guarantee that all others rely on.
      obtain ⟨hguar, hnext⟩ := hw.calls task _ hcall w.cache (rely_refl _ _ _ _) choice trivial
      refine ⟨hguar.2.1 hw.table, fun other code hother => ?_, fun model hmodel => ?_⟩
      · rcases World.update_calls hother with ⟨rfl, hnew⟩ | ⟨hne, hold⟩
        · obtain rfl := Option.some.inj hnew
          exact hnext
        · exact hw.others hguar hne hold
      · obtain ⟨other, hnone, hleased⟩ := hw.models model hmodel
        have hne : other ≠ task := by
          rintro rfl
          simp [hcall] at hnone
        exact ⟨other, (Function.update_of_ne hne ..).trans hnone, hleased.rely (hguar.rely hne)⟩
  | finish task result hcall =>
      refine ⟨hw.table, fun other code hother => ?_, fun model hmodel => ?_⟩
      · rcases World.update_calls hother with ⟨-, hnew⟩ | ⟨-, hold⟩
        · cases hnew
        · exact hw.calls other code hold
      · rcases List.mem_append.mp hmodel with hnew | hold
        · have hreturned := hw.calls task _ hcall w.cache (rely_refl _ _ _ _)
          match result with
          | .ok (some found) =>
              -- A call that ends with a model leaves its shared lock to the model.
              obtain rfl := List.mem_singleton.mp hnew
              exact ⟨task, Function.update_self .., hreturned⟩
          | .ok none | .error _ => cases hnew
        · obtain ⟨other, hnone, hleased⟩ := hw.models model hold
          refine ⟨other, ?_, hleased⟩
          simp only [Function.update_apply]
          split
          · rfl
          · exact hnone
  | clone model hmodel =>
      refine ⟨hw.table, hw.calls, fun other hother => hw.models other ?_⟩
      rcases List.mem_cons.mp hother with rfl | hother
      · exact hmodel
      · exact hother
  | drop model hmodel =>
      split
      -- A clone shares the lease, which stays.
      · exact ⟨hw.table, hw.calls, fun other hother =>
          hw.models other (List.mem_of_mem_erase hother)⟩
      · rename_i hlast
        obtain ⟨task, hnone, hleased⟩ := hw.models model hmodel
        have hguar : Guarantees ext manifest task w.cache
            (w.cache.release (manifest.semanticDigest ext) model.lease) :=
          guar_release hw.table hleased.mem_own
        refine ⟨hw.table.release _ _, fun other code hother => ?_, fun other hother => ?_⟩
        · refine hw.others hguar ?_ hother
          rintro rfl
          simp [hnone] at hother
        · obtain ⟨lessee, hidle, hother'⟩ := hw.models other (List.mem_of_mem_erase hother)
          refine ⟨lessee, hidle, hother'.rely (hguar.rely ?_)⟩
          rintro rfl
          -- Another model under the same lease would be a clone of the dropped one.
          exact hlast (hleased.unique hother' ▸ hother)
  | die task =>
      have hguar : Guarantees ext manifest task w.cache _ := guarantees_die task w.cache
      refine ⟨hguar.2.1 hw.table, fun other code hother => ?_, fun model hmodel => ?_⟩
      · rcases World.update_calls hother with ⟨-, hnew⟩ | ⟨hne, hold⟩
        · cases hnew
        · exact hw.others hguar hne hold
      · obtain ⟨hmodel, hspared⟩ := List.mem_filter.mp hmodel
        obtain ⟨other, hnone, hleased⟩ := hw.models model hmodel
        have hne : other ≠ task := by
          rintro rfl
          have := List.all_eq_true.mp hspared _ hleased.mem_own
          simp at this
        exact ⟨other, (Function.update_of_ne hne ..).trans hnone, hleased.rely (hguar.rely hne)⟩

/-! ## What a lease excludes -/

/-- Every step is within the guarantee of some call. -/
theorem World.Safe.step_guarantees {w w' : World} (hw : w.Safe ext manifest)
    (hstep : World.Step ext manifest w w') :
    ∃ task, Guarantees ext manifest task w.cache w'.cache ∧ Handles w.cache w'.cache := by
  have hsame : Guarantees ext manifest 0 w.cache w.cache ∧ Handles w.cache w.cache :=
    ⟨guar_refl _ _ 0 w.cache, .refl _⟩
  cases hstep with
  | begin | finish | clone => exact ⟨0, hsame⟩
  | perform task op next choice hcall =>
      obtain ⟨hguar, -⟩ := hw.calls task _ hcall w.cache (rely_refl _ _ _ _) choice trivial
      exact ⟨task, hguar, respond_handles choice w.cache op⟩
  | drop model hmodel =>
      split
      · exact ⟨0, hsame⟩
      · obtain ⟨task, -, hleased⟩ := hw.models model hmodel
        exact ⟨task, guar_release hw.table hleased.mem_own, .sublist _ List.filter_sublist⟩
  | die task => exact ⟨task, guarantees_die task w.cache, .sublist _ List.filter_sublist⟩

/-- Next to a shared handle nothing is renamed, and the installed tree is spared. -/
theorem World.Safe.step_spared {w w' : World} (hw : w.Safe ext manifest)
    (hstep : World.Step ext manifest w w') {lock : Lock} (hlock : lock ∈ w.cache.locks)
    (hkey : lock.key = manifest.semanticDigest ext) (hshared : lock.exclusive = false) :
    Spared (manifest.semanticDigest ext) (artifactDirectories manifest) w.cache w'.cache ∧
      w'.cache.renames = w.cache.renames := by
  obtain ⟨task, ⟨-, -, -, hwrites⟩, -⟩ := hw.step_guarantees hstep
  rcases hwrites with ⟨writer, hwriter, hwriterkey, hexclusive⟩ | hspared
  · have hne : writer ≠ lock := by
      rintro rfl
      simp [hexclusive] at hshared
    have hboth := hw.table.shared (EmbeddingServer.mem_own.mp hwriter).1 hlock hne
      (hwriterkey.trans hkey.symm)
    simp [hexclusive] at hboth
  · exact hspared

theorem World.Safe.run_handles {w w' : World} (hw : w.Safe ext manifest)
    (hrun : Transition.Run (World.Step ext manifest) w w') : Handles w.cache w'.cache := by
  induction hrun with
  | refl => exact .refl _
  | tail hbelow hstep ih =>
      obtain ⟨task, -, hhandles⟩ :=
        ((World.safe_preserved ext manifest).run hbelow hw).step_guarantees hstep
      exact ih.trans hhandles

/-- As long as a shared handle is open, nothing is renamed and the installed tree is spared. -/
theorem World.Safe.run_spared {w w' : World} (hw : w.Safe ext manifest)
    (hrun : Transition.Run (World.Step ext manifest) w w') {lock : Lock}
    (hlock : lock ∈ w.cache.locks) (hkey : lock.key = manifest.semanticDigest ext)
    (hshared : lock.exclusive = false) (hlater : lock ∈ w'.cache.locks) :
    Spared (manifest.semanticDigest ext) (artifactDirectories manifest) w.cache w'.cache ∧
      w'.cache.renames = w.cache.renames := by
  induction hrun with
  | refl => exact ⟨.refl _ _ _, rfl⟩
  | tail hbelow hstep ih =>
      have hmiddle := (World.safe_preserved ext manifest).run hbelow hw
      obtain ⟨task, -, hhandles⟩ := hmiddle.step_guarantees hstep
      -- The handle cannot have been dropped and opened again in between.
      have hopen := (hw.run_handles hbelow).between hw.table hhandles hlock hlater
      obtain ⟨hspared, hrenames⟩ := ih hopen
      obtain ⟨hspared', hrenames'⟩ := hmiddle.step_spared hstep hopen hkey hshared
      exact ⟨hspared.trans hspared', hrenames'.trans hrenames⟩

/-- A call has returned the capability, or a clone of it has not been dropped. -/
def World.Live (w : World) (model : VerifiedModel) : Prop :=
  model ∈ w.models ∨ ∃ task, w.calls task = some (.done (.ok (some model)))

theorem World.Safe.leased {w : World} (hw : w.Safe ext manifest) (hlive : w.Live model) :
    ∃ task, Leased ext manifest task model w.cache := by
  rcases hlive with hmodel | ⟨task, hcall⟩
  · obtain ⟨task, -, hleased⟩ := hw.models model hmodel
    exact ⟨task, hleased⟩
  · exact ⟨task, hw.calls task _ hcall w.cache (rely_refl _ _ _ _)⟩

/-- An installed tree has all directories its verification goes through. -/
theorem Installed.directories {loc : Loc} (h : Installed ext loc manifest s) :
    Directories loc (artifactDirectories manifest) s := by
  intro path hpath
  obtain ⟨artifact, hartifact, hparent⟩ := List.mem_flatMap.mp hpath
  obtain ⟨-, bytes, hreachable, -⟩ := h.artifacts artifact hartifact
  exact hreachable.1 path hparent

end Invariant

/-! ## The result -/

/-- A verified model excludes mutation of its identity. Let any number of processes run imports,
installations, deletions, status checks and verifications of one manifest in any interleaving. When
`verified_model` has returned a capability, its shared lease is held, there is no marker, and the
installed tree stores the manifest and all artifacts with their declared sizes and digests. As long
as a shared handle of the lock file is open, in particular from before the verification until it
returns, nothing is renamed and nothing at `models/<key>` is lost. From the return until the last
clone of the capability is dropped nothing at `models/<key>` changes at all. -/
theorem verified_model_excludes_mutation (ext : External) (manifest : Manifest) (start : Cache)
    (w w' : World) (hstart : start.locks = [])
    (hrun : Transition.Run (World.Step ext manifest) (.initial start) w)
    (hlater : Transition.Run (World.Step ext manifest) w w') :
    (∀ task model, w.calls task = some (.done (.ok (some model))) →
      model = ⟨manifest, .models (manifest.semanticDigest ext), model.lease⟩ ∧
      ⟨model.lease, task, manifest.semanticDigest ext, false⟩ ∈ w.cache.locks ∧
      w.cache.marker (manifest.semanticDigest ext) = none ∧
      Installed ext (.models (manifest.semanticDigest ext)) manifest w.cache) ∧
    (∀ lock ∈ w.cache.locks, lock.key = manifest.semanticDigest ext → lock.exclusive = false →
      lock ∈ w'.cache.locks →
      w'.cache.renames = w.cache.renames ∧
      w'.cache.marker (manifest.semanticDigest ext) = w.cache.marker (manifest.semanticDigest ext) ∧
      Kept (.models (manifest.semanticDigest ext)) w.cache w'.cache) ∧
    ∀ model, w.Live model → w'.Live model →
      w'.cache.renames = w.cache.renames ∧
      w'.cache.entry (.models (manifest.semanticDigest ext)) =
        w.cache.entry (.models (manifest.semanticDigest ext)) := by
  have hw := (World.safe_preserved ext manifest).run hrun (World.safe_initial hstart)
  have hw' := (World.safe_preserved ext manifest).run hlater hw
  refine ⟨fun task model hcall => ?_, fun lock hlock hkey hshared hopen => ?_,
    fun model hlive hlive' => ?_⟩
  · have hleased : Leased ext manifest task model w.cache :=
      hw.calls task _ hcall w.cache (rely_refl _ _ _ _)
    exact ⟨hleased.model_eq, (mem_own.mp hleased.mem_own).1, hleased.marker, hleased.installed⟩
  · obtain ⟨hspared, hrenames⟩ := hw.run_spared hlater hlock hkey hshared hopen
    exact ⟨hrenames, hspared.marker, hspared.kept⟩
  · obtain ⟨task, hleased⟩ := hw.leased hlive
    obtain ⟨task', hleased'⟩ := hw'.leased hlive'
    have hlock := (mem_own.mp hleased.mem_own).1
    have hlock' := (mem_own.mp hleased'.mem_own).1
    -- The handle is the same one, because handles are not used again.
    have hsame : (⟨model.lease, task', manifest.semanticDigest ext, false⟩ : Lock) ∈
      w.cache.locks := by
      refine ((hw.run_handles hlater).born _ hlock').resolve_right ?_
      have := hw.table.fresh _ hlock
      simpa using this
    obtain ⟨hspared, hrenames⟩ := hw.run_spared hlater hsame rfl rfl hlock'
    exact ⟨hrenames, hspared.entry hleased.installed.directories⟩

/-- A call that runs for a while with nobody else in between. -/
theorem World.run_call {ext : External} {manifest : Manifest} {w : World} {task : Nat} {call : Call}
    (hcall : w.calls task = some call) (schedule : List Choice) :
    Transition.Run (World.Step ext manifest) w
      { w with
        cache := (Program.after respond schedule call w.cache).2
        calls := Function.update w.calls task
          (some (Program.after respond schedule call w.cache).1) } := by
  induction schedule generalizing w call with
  | nil =>
      rw [Program.after, ← hcall, Function.update_eq_self]
  | cons choice rest ih =>
      cases call with
      | done result =>
          rw [Program.after, ← hcall, Function.update_eq_self]
      | perform op next =>
          refine .head (.perform task op next choice hcall) ?_
          have hnext : ({ w with
              cache := (respond choice w.cache op).2
              calls := Function.update w.calls task (some (next (respond choice w.cache op).1)) } :
                World).calls task = some (next (respond choice w.cache op).1) :=
            Function.update_self ..
          have hrest := ih hnext
          rwa [Function.update_idem] at hrest

/-- A store with the installed fixture. -/
def loadableFixture : Cache :=
  { Cache.empty with
    dirs := (∅ : AList fun _ : Loc => Entry).insert
      (.models (Manifest.fixture.semanticDigest (.fixture [.fixture])))
      (.dir ⟨0, ((∅ : AList fun _ : RelPath => Node).insert manifestFile
        (.file Manifest.fixture.fixtureRecord)).insert ["weights"] .dir |>.insert
        ["weights", "model.bin"] (.file [0x61])⟩) }

/-- A store that trusts the fixture. -/
def trustingStore : ModelStore :=
  ⟨.fixture [.fixture],
    ["sha256:" ++ Manifest.fixture.semanticDigest (.fixture [.fixture])], 7, 0, 0⟩

/-- The fixture is about to be verified. -/
def verifyingWorld : World where
  cache := loadableFixture
  calls := Function.update (fun _ => none) 0
    (some (StoreCall.code trustingStore .fixture (.verifiedModel 1)).run)
  models := []

/-- The call that verifies the fixture, after a number of primitives. -/
def verifyingCall (count : Nat) : Call × Cache :=
  Program.after respond (List.replicate count { amount := 100 })
    (StoreCall.code trustingStore .fixture (.verifiedModel 1)).run loadableFixture

/-- The capability of a call that has returned one. -/
def Call.returned : Call → Option VerifiedModel
  | .done (.ok (some model)) => some model
  | _ => none

theorem Call.returned_eq_some {call : Call} {model : VerifiedModel}
    (h : call.returned = some model) :
    call = .done (.ok (some model)) := by
  unfold Call.returned at h
  split at h
  · simpa using h
  · cases h

/-- The capability for the fixture. -/
def fixtureModel : VerifiedModel :=
  ⟨.fixture, .models (Manifest.fixture.semanticDigest (.fixture [.fixture])), 0⟩

/-- The call has returned it. -/
def verifiedWorld : World :=
  { verifyingWorld with
    cache := (verifyingCall 24).2
    calls := Function.update verifyingWorld.calls 0 (some (verifyingCall 24).1) }

/-- The caller has cloned it. -/
def clonedWorld : World :=
  { verifiedWorld with
    calls := Function.update verifiedWorld.calls 0 none
    models := [fixtureModel, fixtureModel] }

theorem verified_model_excludes_mutation_fixture :
    verifiedWorld.calls 0 = some (.done (.ok (some fixtureModel))) ∧
    Installed (.fixture [.fixture])
      (.models (Manifest.fixture.semanticDigest (.fixture [.fixture]))) .fixture
        verifiedWorld.cache ∧
    clonedWorld.cache.entry (.models (Manifest.fixture.semanticDigest (.fixture [.fixture]))) =
      verifiedWorld.cache.entry
        (.models (Manifest.fixture.semanticDigest (.fixture [.fixture]))) := by
  have hbegun : Transition.Run (World.Step (.fixture [.fixture]) .fixture)
      (.initial loadableFixture) verifyingWorld :=
    .single (.begin trustingStore (.verifiedModel 1) rfl (by simp) rfl rfl)
  have hrun : Transition.Run (World.Step (.fixture [.fixture]) .fixture)
      (.initial loadableFixture) verifiedWorld :=
    hbegun.trans (World.run_call rfl (List.replicate 24 { amount := 100 }))
  have hreturned : (verifyingCall 24).1.returned = some fixtureModel := by decide +kernel
  have hdone : verifiedWorld.calls 0 = some (.done (.ok (some fixtureModel))) :=
    congrArg some (Call.returned_eq_some hreturned)
  have hlater : Transition.Run (World.Step (.fixture [.fixture]) .fixture)
      verifiedWorld clonedWorld :=
    .tail (.single (.finish 0 _ hdone)) (.clone fixtureModel List.mem_cons_self)
  obtain ⟨hfresh, -, hlive⟩ := verified_model_excludes_mutation _ _ _ _ _ rfl hrun hlater
  exact ⟨hdone, (hfresh 0 _ hdone).2.2.2,
    (hlive _ (Or.inr ⟨0, hdone⟩) (Or.inl List.mem_cons_self)).2⟩

end EmbeddingServer
