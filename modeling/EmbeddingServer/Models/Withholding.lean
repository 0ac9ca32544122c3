import EmbeddingServer.Models.Locality
import EmbeddingServer.Models.StoreRuns

/-!
# Staged trees that are never promoted

A tree keeps its identity wherever a rename takes it. The trees of a set are `Withheld` if they
stand only at the staging path of a key and next to no marker; then no recovery can promote
them either.

`install_transaction_withholds` says that an installation whose commit gate refuses withholds
what it has downloaded. What it leaves behind stays withheld whatever any stores do afterwards
(`Aftermath.withheld`): every operation that promotes a staged tree first clears the staging
path, and then the withheld trees are `Vanished` for good.
-/

namespace EmbeddingServer

/-! ## Where the tree at a location comes from -/

/-- How a tree came to stand at a location when a primitive was performed. -/
inductive Origin (s s' : Cache) (op : FsOp) (loc : Loc) (tree : Tree) : Prop where
  | stayed {before : Tree} (h : s.entry loc = some (.dir before)) (hid : before.id = tree.id)
  | moved {src : Loc} (hop : op = .rename src loc) (h : s.entry src = some (.dir tree))
  | created (hop : op = .createDir loc) (hid : tree.id = s.nextTree)
      (hnext : s.nextTree < s'.nextTree)

theorem set_node_origin {s s' : Cache} {op : FsOp} {loc l : Loc} {tree old : Tree} {path : RelPath}
    {node : Node} (hold : s.tree l = some old)
    (h : (s.setNode l old path node).entry loc = some (.dir tree)) : Origin s s' op loc tree := by
  by_cases hloc : loc = l
  · subst hloc
    rw [Cache.set_node_entry] at h
    cases h
    exact .stayed (Cache.tree_eq_some.mp hold) rfl
  · rw [Cache.set_node_entry_ne hloc] at h
    exact .stayed h rfl

theorem add_node_origin {s s' : Cache} {op : FsOp} {loc l : Loc} {tree : Tree} {path : RelPath}
    {node : Node} (h : (s.addNode l path node).2.entry loc = some (.dir tree)) :
    Origin s s' op loc tree := by
  unfold Cache.addNode at h
  split at h
  · exact .stayed h rfl
  · rename_i old hold
    split at h
    · exact .stayed h rfl
    · split at h
      · exact set_node_origin hold h
      · exact .stayed h rfl

/-- A tree is where it was, was moved there, or is new. -/
theorem perform_origin {s : Cache} {choice : Choice} {op : FsOp} {loc : Loc} {tree : Tree}
    (h : (s.perform choice op).2.entry loc = some (.dir tree)) :
    Origin s (s.perform choice op).2 op loc tree := by
  cases op with
  | rename src dst =>
      simp only [Cache.perform] at h
      split at h
      · rename_i s' hrename
        rw [Cache.rename_entry hrename] at h
        split at h
        · rename_i hdst
          exact .moved (by rw [hdst]) h
        · split at h
          · cases h
          · exact .stayed h rfl
      · exact .stayed h rfl
  | createDir l =>
      rcases hentry : s.entry l with _ | ⟨old⟩ | _ | _ | _
      · simp only [Cache.perform, hentry] at h ⊢
        by_cases hloc : loc = l
        · subst hloc
          rw [Cache.entry, AList.lookup_insert] at h
          cases h
          -- A new directory has a number that no tree had before.
          exact .created rfl rfl (Nat.lt_succ_self _)
        · rw [Cache.entry, AList.lookup_insert_ne hloc] at h
          exact .stayed h rfl
      all_goals
        simp only [Cache.perform, hentry] at h
        exact .stayed h rfl
  | removeDir l =>
      simp only [Cache.perform] at h
      split at h
      · exact .stayed h rfl
      · split at h
        · by_cases hloc : loc = l
          · rw [hloc, Cache.entry, AList.lookup_erase] at h
            cases h
          · rw [Cache.entry, AList.lookup_erase_ne hloc] at h
            exact .stayed h rfl
        · exact .stayed h rfl
  | unlink l path =>
      simp only [Cache.perform] at h
      split at h
      · exact .stayed h rfl
      · rename_i old hold
        split at h
        · exact .stayed h rfl
        · split at h
          · exact .stayed h rfl
          · by_cases hloc : loc = l
            · subst hloc
              rw [Cache.erase_node_entry] at h
              cases h
              exact .stayed (Cache.tree_eq_some.mp hold) rfl
            · rw [Cache.erase_node_entry_ne hloc] at h
              exact .stayed h rfl
  | append l path bytes =>
      simp only [Cache.perform] at h
      split at h
      · rename_i old content hold hnode
        exact set_node_origin hold h
      · exact .stayed h rfl
  | makeDir l path => exact add_node_origin h
  | createFile l path => exact add_node_origin h
  | listRemoval l =>
      simp only [Cache.perform] at h
      split at h
      · split at h <;> exact .stayed h rfl
      · exact .stayed h rfl
  | syncMarker key =>
      simp only [Cache.perform, Cache.require] at h
      split at h <;> exact .stayed h rfl
  -- These may fail, and change no directory if they do not.
  | syncDir | syncEntry | createMarker | removeMarker | quarantineCandidate | readTree | openDir
  | openFile | read | tryLock =>
      simp only [Cache.perform] at h
      split at h <;> exact .stayed h rfl
  | observe | metadata | markerMetadata | createRoot | syncRoot | fileMetadata | openLock | unlock
  | poll | inspectSource | openSource | readSource | beginCommit | httpGet | httpChunk =>
      exact .stayed h rfl

theorem respond_origin {s : Cache} {choice : Choice} {op : FsOp} {loc : Loc} {tree : Tree}
    (h : (respond choice s op).2.entry loc = some (.dir tree)) :
    Origin s (respond choice s op).2 op loc tree := by
  revert h
  exact @respond_state (fun after => after.entry loc = some (.dir tree) →
    Origin s after op loc tree) choice s op (fun h => .stayed h rfl) perform_origin

/-- Identities are never given out again. -/
theorem respond_next_tree (s : Cache) (choice : Choice) (op : FsOp) :
    s.nextTree ≤ (respond choice s op).2.nextTree := by
  refine @respond_state (fun after => s.nextTree ≤ after.nextTree) choice s op (Nat.le_refl _) ?_
  have haddNode : ∀ loc path node, s.nextTree ≤ (s.addNode loc path node).2.nextTree := by
    intro loc path node
    unfold Cache.addNode
    split
    · exact Nat.le_refl _
    · split
      · exact Nat.le_refl _
      · split <;> exact Nat.le_refl _
  cases op with
  | createDir loc =>
      simp only [Cache.perform]
      split
      · exact Nat.le_succ _
      · exact Nat.le_refl _
      · exact Nat.le_refl _
  | makeDir loc path => exact haddNode loc path .dir
  | createFile loc path => exact haddNode loc path (.file [])
  | rename src dst =>
      simp only [Cache.perform]
      split
      · rename_i s' hrename
        obtain ⟨moved, -, -, rfl⟩ := Cache.rename_eq_some hrename
        exact Nat.le_refl _
      · exact Nat.le_refl _
  | syncMarker key =>
      simp only [Cache.perform, Cache.require]
      split <;> exact Nat.le_refl _
  | unlink loc path =>
      simp only [Cache.perform]
      split
      · exact Nat.le_refl _
      · split
        · exact Nat.le_refl _
        · split <;> exact Nat.le_refl _
  | removeDir loc =>
      simp only [Cache.perform]
      split
      · exact Nat.le_refl _
      · split <;> exact Nat.le_refl _
  | listRemoval loc =>
      simp only [Cache.perform]
      split
      · split <;> exact Nat.le_refl _
      · exact Nat.le_refl _
  | syncDir | syncEntry | createMarker | removeMarker | quarantineCandidate | readTree
  | openDir | append | openFile | read | tryLock =>
      simp only [Cache.perform]
      split <;> exact Nat.le_refl _
  | observe | metadata | markerMetadata | createRoot | syncRoot | fileMetadata | openLock | unlock
  | poll | inspectSource | openSource | readSource | beginCommit | httpGet | httpChunk =>
      exact Nat.le_refl _

/-- Every identity in use was given out. -/
def Cache.Numbered (s : Cache) : Prop :=
  ∀ loc tree, s.entry loc = some (.dir tree) → tree.id < s.nextTree

theorem Cache.numbered_empty : Cache.empty.Numbered := by
  intro loc tree htree
  cases htree

theorem Cache.Numbered.respond {s : Cache} (h : s.Numbered) (choice : Choice) (op : FsOp) :
    (EmbeddingServer.respond choice s op).2.Numbered := by
  intro loc tree htree
  have hgrown := respond_next_tree s choice op
  cases respond_origin htree with
  | stayed hbefore hid => exact hid ▸ Nat.lt_of_lt_of_le (h _ _ hbefore) hgrown
  | moved _ hbefore => exact Nat.lt_of_lt_of_le (h _ _ hbefore) hgrown
  | created _ hid hnext => exact hid ▸ hnext

/-! ## Withheld trees -/

/-- The trees stand only at the staging path of the key, and only while there is no marker. -/
def Withheld (trees : Set Nat) (key : String) (s : Cache) : Prop :=
  ∀ loc tree, s.entry loc = some (.dir tree) → tree.id ∈ trees →
    loc = .staging key ∧ s.marker key = none

section Steps

variable {trees : Set Nat} {key : String} {s s' : Cache}

/-- A withheld tree is not installed. -/
theorem Withheld.not_installed (h : Withheld trees key s) {tree : Tree}
    (htree : s.entry (.models key) = some (.dir tree)) : tree.id ∉ trees := by
  intro hmem
  cases (h _ _ htree hmem).1

/-- Steps that move nothing and set no marker. -/
theorem Withheld.congr (h : Withheld trees key s) (hentry : ∀ loc, s'.entry loc = s.entry loc)
    (hmarker : s.marker key = none → s'.marker key = none) : Withheld trees key s' := by
  intro loc tree htree hmem
  rw [hentry] at htree
  obtain ⟨hloc, hnone⟩ := h loc tree htree hmem
  exact ⟨hloc, hmarker hnone⟩

/-- A rename that does not take the staged tree, or one next to a marker. -/
theorem Withheld.rename (h : Withheld trees key s) {src dst : Loc}
    (hrename : s.rename src dst = some s') (hsrc : src = .staging key → s.marker key ≠ none) :
    Withheld trees key s' := by
  intro loc tree htree hmem
  rw [Cache.rename_entry hrename] at htree
  rw [Cache.rename_marker hrename]
  split at htree
  · obtain ⟨hstaging, hnone⟩ := h src tree htree hmem
    exact absurd hnone (hsrc hstaging)
  · split at htree
    · cases htree
    · exact h loc tree htree hmem

/-- A recovery has no withheld tree to promote. -/
theorem Withheld.repair (h : Withheld trees key s) {exact : Prop}
    (hstep : Repair exact key s s') : Withheld trees key s' := by
  cases hstep with
  | flush hsynced => exact h.congr hsynced.entry fun hnone => by rw [hsynced.marker, hnone]
  | displace _ _ _ hrename => exact h.rename hrename fun heq => by cases heq
  | replace hmarker _ _ hrename => exact h.rename hrename fun _ => by simp [hmarker]
  | restore _ _ _ hrename => exact h.rename hrename fun heq => by cases heq
  | quarantine _ _ _ _ hrename => exact h.rename hrename fun heq => by cases heq
  | close _ _ _ _ heq =>
      subst heq
      exact h.congr (fun _ => rfl) fun _ => by simp

/-- Work on the staged tree while there is no marker. -/
theorem Withheld.staged (h : Withheld trees key s) (hmarker : s.marker key = none)
    (hedited : Edited (.staging key) s s') : Withheld trees key s' := by
  intro loc tree htree hmem
  rw [hedited.marker]
  by_cases hloc : loc = .staging key
  · exact ⟨hloc, hmarker⟩
  · rw [hedited.entry loc hloc] at htree
    exact h loc tree htree hmem

theorem Withheld.reading (h : Withheld trees key s) (hstep : ReadStep key s s') :
    Withheld trees key s' := by
  cases hstep with
  | repair hrepair => exact h.repair hrepair
  | quiet hquiet => exact h.congr hquiet.entry fun hnone => by rw [hquiet.marker, hnone]
  | grow hedited hgrown =>
      intro loc tree htree hmem
      rw [hedited.marker]
      by_cases hloc : loc = .models key
      · subst hloc
        rcases hgrown with hsame | ⟨old, path, hold, -, -, hnew⟩
        · rw [hsame] at htree
          exact h _ tree htree hmem
        · rw [hnew] at htree
          cases htree
          exact h _ old hold hmem
      · rw [hedited.entry loc hloc] at htree
        exact h loc tree htree hmem

end Steps

/-! ## An installation that is refused -/

/-- The primitives when the commit gate is cancelled. -/
def refusing (choice : Choice) (s : Cache) : (op : FsOp) → op.Reply × Cache
  | .beginCommit => (.ok false, s)
  | op => respond choice s op

theorem refusing_answers (choice : Choice) (s : Cache) (op : FsOp) :
    ∃ other ∈ Set.univ, refusing choice s op = respond other s op := by
  cases op with
  | beginCommit => exact ⟨{ flag := false }, Set.mem_univ _, rfl⟩
  | _ => exact ⟨choice, Set.mem_univ _, rfl⟩

/-- Code that withholds the trees at every primitive, when the commit gate refuses. -/
abbrev Withholds {α : Type} (trees : Set Nat) (key : String) (body : StoreM α)
    (post : Except Error α → Cache → Prop) (s : Cache) : Prop :=
  Program.wpE refusing Set.univ Eq (fun _ s' => Withheld trees key s') body post s

section Refusal

variable {trees : Set Nat} {key : String} {store : ModelStore} {installer : Installer}
  {manifest : Manifest} {guar : Cache → Cache → Prop} {s : Cache} {α β : Type}

/-- Code whose steps withhold the trees. -/
theorem withholds_of_steps {body : StoreM α} {post : Except Error α → Cache → Prop}
    (h : Spec Set.univ guar body post s)
    (hkeeps : ∀ a b, guar a b → Withheld trees key a → Withheld trees key b)
    (hs : Withheld trees key s) :
    Withholds trees key body (fun result s' => Withheld trees key s' ∧ post result s') s :=
  (h.keeps hkeeps hs).narrow fun choice _ => refusing_answers choice

theorem withholds_bind {body : StoreM α} {rest : α → StoreM β}
    {post : Except Error β → Cache → Prop}
    (h : Withholds trees key body
      (Program.andThen post fun value => Withholds trees key (rest value) post) s) :
    Withholds trees key (body >>= rest) post s :=
  Program.wp_e_bind (fun _ => rfl) h

/-- The handle of the lock is dropped whatever the result. -/
theorem holding_withholds {handle : Nat} {body : StoreM α} {post : Except Error α → Cache → Prop}
    (h : Withholds trees key body (fun result a => Withheld trees key a ∧ post result a) s)
    (hpost : ∀ result a b, Quiet a b → post result a → post result b) :
    Withholds trees key (holding key handle body)
      (fun result a => Withheld trees key a ∧ post result a) s := by
  refine withholds_bind (Program.wp_map (Program.wpE.imp h fun result a ha => ?_))
  refine withholds_bind ?_
  have hunlock : Spec Set.univ Quiet (fs (.unlock key handle))
      (fun result b => result = .ok () ∧ Quiet a b) a :=
    spec_unlock (fun _ _ hquiet => hquiet) fun b hb => ⟨rfl, hb⟩
  refine (withholds_of_steps hunlock (fun _ _ hquiet hinv => ?_) ha.1).imp ?_
  · exact hinv.reading (.quiet hquiet)
  · rintro _ b ⟨hb, rfl, hquiet⟩ c rfl
    exact ⟨hb, hpost result a b hquiet ha.2⟩

/-- Work on the staged tree while there is no marker. -/
theorem Only.withholds_staged {body : StoreM α}
    (h : Only (FsOp.Confined (.staging key)) body) (hmarker : s.marker key = none)
    (hs : Withheld trees key s) :
    Withholds trees key body
      (fun _ a => Withheld trees key a ∧ a.marker key = none) s := by
  have hspec : Spec Set.univ (fun a b => a.marker key = none ∧ Edited (.staging key) a b) body
      (fun _ a => a.marker key = none) s := by
    refine Program.wp_of_all h (fun _ _ heq hinv => heq ▸ hinv) ?_ hmarker
    intro op hop choice _ a ha
    have hstep := respond_edited hop choice a
    exact ⟨⟨ha, hstep⟩, by rw [hstep.marker]; exact ha⟩
  exact withholds_of_steps hspec (fun _ _ hstep hinv => hinv.staged hstep.1 hstep.2) hs

/-- The result of an installation that did not get past its gate: an error, or a model that was
there already. -/
def NothingNew : Except Error ModelStatus → Prop
  | .error _ => True
  | .ok existing => existing.isInstalled = true

/-- `install_transaction` under its lock. -/
theorem install_locked_withholds (hs : Withheld trees (installer.store.key manifest) s) :
    Withholds trees (installer.store.key manifest) (installLocked installer manifest)
      (fun result a => Withheld trees (installer.store.key manifest) a ∧
        ∀ value, result = .ok value → ∃ existing, value = some existing ∧
          existing.isInstalled = true) s := by
  have hreading : ∀ a b, ReadStep (installer.store.key manifest) a b →
      Withheld trees (installer.store.key manifest) a →
      Withheld trees (installer.store.key manifest) b := fun _ _ hstep hinv => hinv.reading hstep
  refine withholds_bind ((withholds_of_steps (reconcile_repair_steps s) hreading hs).imp
    fun result a ha => ?_)
  cases result with
  | error error => exact ⟨ha.1, by simp⟩
  | ok =>
      refine withholds_bind ((withholds_of_steps (status_with_cancel_steps polls_flag a) hreading
        ha.1).imp fun result b hb => ?_)
      cases result with
      | error error => exact ⟨hb.1, by simp⟩
      | ok existing =>
          simp only [Program.andThen]
          split
          · rename_i hinstalled
            rintro c rfl
            refine ⟨hb.1, ?_⟩
            rintro value ⟨rfl⟩
            exact ⟨existing, rfl, hinstalled⟩
          · -- The rest works on the staged tree while there is no marker, up to the gate.
            have hmarker := hb.2 existing rfl
            refine withholds_bind (((prepare_staging_only _).withholds_staged hmarker hb.1).imp
              fun result c hc => ?_)
            cases result with
            | error error => exact ⟨hc.1, by simp⟩
            | ok =>
                refine withholds_bind
                  (((download_artifacts_only _ _).withholds_staged hc.2 hc.1).imp
                  fun result d hd => ?_)
                cases result with
                | error error => exact ⟨hd.1, by simp⟩
                | ok =>
                    refine withholds_bind ((stop_if_cancelled_only.confined.withholds_staged hd.2
                      hd.1).imp fun result e he => ?_)
                    cases result with
                    | error error => exact ⟨he.1, by simp⟩
                    | ok =>
                        refine withholds_bind ?_
                        rintro f rfl choice -
                        refine ⟨he.1, ?_⟩
                        rintro f rfl f rfl
                        exact ⟨he.1, by simp⟩

/-- An installation whose gate refuses withholds what it has downloaded, wherever it stops, and
installs nothing new. -/
theorem install_transaction_withholds (hs : Withheld trees (installer.store.key manifest) s) :
    Withholds trees (installer.store.key manifest) (installTransaction installer manifest)
      (fun result a => Withheld trees (installer.store.key manifest) a ∧ NothingNew result) s := by
  have hreading : ∀ a b, ReadStep (installer.store.key manifest) a b →
      Withheld trees (installer.store.key manifest) a →
      Withheld trees (installer.store.key manifest) b := fun _ _ hstep hinv => hinv.reading hstep
  refine withholds_bind ?_
  rintro s rfl
  cases manifest.validate installer.store.ext with
  | error error => exact ⟨hs, trivial⟩
  | ok =>
      refine withholds_bind ?_
      rintro s rfl
      cases validateInstallSize installer.options manifest with
      | error error => exact ⟨hs, trivial⟩
      | ok =>
          refine withholds_bind ((withholds_of_steps (status_with_cancel_steps polls_flag s)
            hreading hs).imp fun result a ha => ?_)
          cases result with
          | error error => exact ⟨ha.1, trivial⟩
          | ok existing =>
              simp only [Program.andThen]
              split
              -- What is reported as installed was there before.
              · rename_i hinstalled
                rintro a rfl
                exact ⟨ha.1, hinstalled⟩
              · have honline : Spec Set.univ (ReadStep (installer.store.key manifest))
                    (failIf (installer.options.offline = true) .offline) (fun _ _ => True) a :=
                  spec_fail_if (fun _ => trivial) fun _ => trivial
                refine withholds_bind ((withholds_of_steps honline hreading ha.1).imp
                  fun result b hb => ?_)
                cases result with
                | error error => exact ⟨hb.1, trivial⟩
                | ok =>
                    have hstop : Only (FsOp.Locks (installer.store.key manifest))
                        stopIfCancelled := only_bind (only_fs trivial) fun _ => only_fail_if _ _
                    refine withholds_bind ((withholds_of_steps (hstop.spec_locks b) hreading
                      hb.1).imp fun result c hc => ?_)
                    cases result with
                    | error error => exact ⟨hc.1, trivial⟩
                    | ok =>
                        refine withholds_bind ((withholds_of_steps
                          (acquire_install_lock_only.spec_locks c) hreading hc.1).imp
                            fun result d hd => ?_)
                        cases result with
                        | error error => exact ⟨hd.1, trivial⟩
                        | ok handle =>
                            refine withholds_bind ((holding_withholds
                              (install_locked_withholds hd.1) fun _ _ _ _ h => h).imp
                                fun result e he => ?_)
                            cases result with
                            | error error => exact ⟨he.1, trivial⟩
                            | ok value =>
                                -- A value that comes from under the lock is an existing model too.
                                obtain ⟨existing, rfl, hinstalled⟩ := he.2 value rfl
                                rintro e rfl
                                exact ⟨he.1, hinstalled⟩

end Refusal

/-! ## What happens afterwards -/

/-- The trees are withheld, and no new tree will be one of them. -/
structure Fenced (trees : Set Nat) (key : String) (s : Cache) : Prop where
  withheld : Withheld trees key s
  old : ∀ tree ∈ trees, tree < s.nextTree

/-- The trees stand nowhere, and no new tree will be one of them. -/
structure Vanished (trees : Set Nat) (s : Cache) : Prop where
  absent : ∀ loc tree, s.entry loc = some (.dir tree) → tree.id ∉ trees
  old : ∀ tree ∈ trees, tree < s.nextTree

/-- The primitives that neither mark a key nor move its staged tree. -/
def FsOp.Harmless (key : String) : FsOp → Prop
  | .rename src _ => src ≠ .staging key
  | .createMarker k => k ≠ key
  | _ => True

section Aftermath

variable {trees : Set Nat} {key key' : String} {s s' : Cache} {op : FsOp} {store : ModelStore}
  {installer : Installer} {manifest : Manifest} {α β : Type}

/-- Trees that are gone stay gone. -/
theorem Vanished.respond (h : Vanished trees s) (choice : Choice) :
    Vanished trees (respond choice s op).2 where
  absent loc tree htree hmem := by
    cases respond_origin htree with
    | stayed hbefore hid => exact h.absent _ _ hbefore (hid ▸ hmem)
    | moved _ hbefore => exact h.absent _ _ hbefore hmem
    | created _ hid =>
        have hold := h.old _ hmem
        omega
  old tree hmem := Nat.lt_of_lt_of_le (h.old tree hmem) (respond_next_tree s choice op)

theorem Vanished.fenced (h : Vanished trees s) : Fenced trees key s :=
  ⟨fun loc tree htree hmem => absurd hmem (h.absent loc tree htree), h.old⟩

/-- Once nothing is staged, withheld trees are gone. -/
theorem Fenced.vanished (h : Fenced trees key s) (hstaging : s.entry (.staging key) = none) :
    Vanished trees s := by
  refine ⟨fun loc tree htree hmem => ?_, h.old⟩
  obtain ⟨rfl, -⟩ := h.withheld loc tree htree hmem
  rw [hstaging] at htree
  cases htree

/-- A harmless primitive sets no marker for the key. -/
theorem FsOp.Harmless.marker (hop : op.Harmless key) (choice : Choice) (s : Cache)
    (h : s.marker key = none) : (respond choice s op).2.marker key = none := by
  have hedited : ∀ loc, op.Confined loc → (s.perform choice op).2.marker key = none :=
    fun loc hloc => by rw [(Cache.perform_edited hloc s choice).marker, h]
  refine @respond_state (fun after => after.marker key = none) choice s op h ?_
  cases op with
  | createMarker k =>
      simp only [Cache.perform]
      split
      · simpa [Function.update_of_ne (Ne.symm hop)] using h
      · exact h
  | removeMarker k =>
      simp only [Cache.perform]
      split
      · exact h
      · exact h
      · by_cases hk : key = k
        · simp [hk]
        · simpa [Function.update_of_ne hk] using h
  | rename src dst =>
      simp only [Cache.perform]
      split
      · rename_i s' hrename
        rw [Cache.rename_marker hrename, h]
      · exact h
  | syncMarker k =>
      simp only [Cache.perform, Cache.require]
      split <;> exact h
  | quarantineCandidate | tryLock =>
      simp only [Cache.perform]
      split <;> exact h
  | markerMetadata | openLock | unlock => exact h
  | metadata loc | syncDir loc | syncEntry loc | readTree loc | listRemoval loc | unlink loc
  | removeDir loc | createDir loc | makeDir loc | openDir loc | createFile loc | append loc
  | fileMetadata loc | openFile loc | read loc => exact hedited loc rfl
  | observe | createRoot | syncRoot | poll | inspectSource | openSource | readSource | beginCommit
  | httpGet | httpChunk => exact hedited (.models key) trivial

/-- Harmless primitives leave withheld trees where they are. -/
theorem Fenced.respond (h : Fenced trees key s) (hop : op.Harmless key) (choice : Choice) :
    Fenced trees key (respond choice s op).2 where
  withheld loc tree htree hmem := by
    cases respond_origin htree with
    | stayed hbefore hid =>
        obtain ⟨hloc, hmarker⟩ := h.withheld _ _ hbefore (hid ▸ hmem)
        exact ⟨hloc, hop.marker choice s hmarker⟩
    | moved heq hbefore =>
        subst heq
        exact absurd (h.withheld _ _ hbefore hmem).1 hop
    | created _ hid =>
        have hold := h.old _ hmem
        omega
  old tree hmem := Nat.lt_of_lt_of_le (h.old tree hmem) (respond_next_tree s choice op)

/-- Code that keeps the trees fenced wherever it stops. -/
def Fences (trees : Set Nat) (key : String) (body : StoreM α) : Prop :=
  ∀ s, Fenced trees key s →
    Spec Set.univ (fun _ b => Fenced trees key b) body (fun _ b => Fenced trees key b) s

theorem fences_bind {body : StoreM α} {rest : α → StoreM β} (h : Fences trees key body)
    (hrest : ∀ value, Fences trees key (rest value)) : Fences trees key (body >>= rest) := by
  intro s hs
  refine spec_bind ((h s hs).imp fun result a ha => ?_)
  cases result with
  | error error => exact ha
  | ok value => exact hrest value a ha

theorem fences_attempt {body : StoreM α} (h : Fences trees key body) :
    Fences trees key (attempt body) :=
  fun s hs => spec_attempt (h s hs)

/-- Code of harmless primitives. -/
theorem Only.fences {body : StoreM α} (h : Only (FsOp.Harmless key) body) :
    Fences trees key body := by
  intro s hs
  refine Program.wp_of_all h (fun _ _ heq hinv => heq ▸ hinv) ?_ hs
  intro op hop choice _ a ha
  exact ⟨ha.respond hop choice, ha.respond hop choice⟩

theorem holding_fences {handle : Nat} {body : StoreM α} (h : Fences trees key body) :
    Fences trees key (holding key' handle body) := by
  refine fences_bind (fences_attempt h) fun result => ?_
  exact (only_bind (only_fs trivial) fun _ => only_lift result).fences

/-- Any code, once the trees are gone. -/
theorem Vanished.spec (hs : Vanished trees s) (body : StoreM α) :
    Spec Set.univ (fun _ b => Vanished trees b) body (fun _ b => Vanished trees b) s := by
  refine Program.wp_of_all (Program.all_of_forall body.run fun _ => trivial)
    (fun _ _ heq hinv => heq ▸ hinv) ?_ hs
  intro op (_ : True) choice _ a ha
  exact ⟨ha.respond choice, ha.respond choice⟩

/-- Code that only looks at an installed tree. -/
theorem reading_fences {body : StoreM α} {post : Cache → Except Error α → Cache → Prop}
    (h : ∀ s, Spec Set.univ (ReadStep key) body (post s) s) : Fences trees key body := by
  intro s hs
  have hbound : Spec Set.univ (fun a b => a.nextTree ≤ b.nextTree) body (fun _ _ => True) s :=
    Program.wp_of_all (Program.all_of_forall body.run fun _ => trivial) (fun _ _ _ h => h)
      (fun op (_ : True) choice _ a _ => ⟨respond_next_tree a choice op, trivial⟩) trivial
  have hkeeps : ∀ a b, ReadStep key a b ∧ a.nextTree ≤ b.nextTree → Fenced trees key a →
      Fenced trees key b := fun a b hstep ha => ⟨ha.withheld.reading hstep.1,
    fun tree hmem => Nat.lt_of_lt_of_le (ha.old tree hmem) hstep.2⟩
  exact (((h s).and hbound).keeps hkeeps hs).imp fun _ _ h => h.1

theorem FsOp.Confined.harmless {loc : Loc} (h : op.Confined loc) : op.Harmless key := by
  cases op <;> first | exact h.elim | trivial

theorem FsOp.Locks.harmless (h : op.Locks key') : op.Harmless key := by
  cases op <;> first | exact h.elim | trivial

/-- An identity of another key is none of the key's business. -/
theorem FsOp.Local.harmless (h : op.Local key') (hkey : key' ≠ key) : op.Harmless key := by
  cases op with
  | rename src dst =>
      rintro rfl
      exact hkey h.1.symm
  | createMarker k =>
      intro heq
      exact hkey (h.symm.trans heq)
  | _ => trivial

/-- `removeStaging` succeeds only if nothing is staged any more. -/
theorem remove_staging_spec (s : Cache) :
    Spec Set.univ Free (removeStaging key)
      (fun result b => result = .ok () → b.entry (.staging key) = none) s := by
  refine spec_bind (spec_query (fun _ => rfl) trivial (fun _ => by simp [Program.andThen])
    fun choice => ?_)
  simp only [Cache.perform]
  rcases hentry : s.entry (.staging key) with _ | ⟨tree⟩ | _ | _ | _
  · exact spec_pure fun _ => hentry
  · refine spec_bind ((remove_dir_all_spec (fun _ _ _ _ => trivial) s).imp fun result a ha => ?_)
    cases result with
    | error error => simp [Program.andThen]
    | ok =>
        exact spec_query (fun _ => rfl) trivial (fun _ => by simp) fun _ _ => ha.gone rfl
  all_goals exact spec_throw (by simp)

/-- Before anything is staged, the trees are gone. -/
theorem prepare_staging_fenced (hs : Fenced trees key s) :
    Spec Set.univ (fun _ b => Fenced trees key b) (prepareStaging key)
      (fun result b => Fenced trees key b ∧ (result = .ok () → Vanished trees b)) s := by
  have hroots : Only (FsOp.Harmless key) (createRoots [.models, .staging, .locks, .transactions]) :=
    (@create_roots_only (.staging key) _).mono fun _ hop => hop.harmless
  refine spec_bind ((hroots.fences s hs).imp fun result a ha => ?_)
  cases result with
  | error error => exact ⟨ha, by simp⟩
  | ok =>
      refine spec_bind (((only_fs trivial).fences a ha).imp fun result b hb => ?_)
      cases result with
      | error error => exact ⟨hb, by simp⟩
      | ok =>
          have hremove : Only (FsOp.Harmless key) (removeStaging key) :=
            (remove_staging_only key).mono fun _ hop => hop.harmless
          refine spec_bind (((hremove.fences b hb).and (remove_staging_spec b)).mono
            (fun _ _ h => h.1) fun result c hc => ?_)
          cases result with
          | error error => exact ⟨hc.1, by simp⟩
          | ok =>
              refine ((hc.1.vanished (hc.2 rfl)).spec _).mono (fun _ _ h => h.fenced) ?_
              exact fun _ _ h => ⟨h.fenced, fun _ => h⟩

/-- Everything is allowed after the staging path is cleared. -/
theorem prepared_fences {rest : Unit → StoreM α} :
    Fences trees key (prepareStaging key >>= rest) := by
  intro s hs
  refine spec_bind ((prepare_staging_fenced hs).imp fun result a ha => ?_)
  cases result with
  | error error => exact ha.1
  | ok => exact ((ha.2 rfl).spec _).mono (fun _ _ h => h.fenced) fun _ _ h => h.fenced

/-! ### Operations on the key -/

theorem status_with_cancel_fences {cancelled : StoreM Bool} (hcancel : Polls cancelled) :
    Fences trees (store.key manifest) (statusWithCancel store manifest cancelled) :=
  reading_fences (status_with_cancel_steps hcancel)

theorem import_model_fences :
    Fences trees (store.key manifest) (importModel store manifest) := by
  refine fences_bind (only_lift _).fences fun _ => ?_
  refine fences_bind (status_with_cancel_fences polls_never) fun existing => ?_
  split
  · exact (only_pure existing).fences
  · refine fences_bind ((acquire_store_lock_only polls_never).mono fun _ hop => hop.harmless).fences
      fun handle => holding_fences ?_
    refine fences_bind (reading_fences reconcile_repair_steps) fun _ => ?_
    refine fences_bind (reading_fences (status_inner_steps polls_never)) fun existing => ?_
    split
    · exact (only_pure existing).fences
    · refine fences_bind ?_ fun _ => prepared_fences
      exact ((@inspect_source_only (.staging (store.key manifest)) _).mono
        fun _ hop => hop.confined.harmless).fences

theorem install_transaction_fences :
    Fences trees (installer.store.key manifest) (installTransaction installer manifest) := by
  have hstop : Only (FsOp.Harmless (installer.store.key manifest)) stopIfCancelled :=
    only_bind (only_fs trivial) fun _ => only_fail_if _ _
  refine fences_bind (only_lift _).fences fun _ => ?_
  refine fences_bind (only_lift _).fences fun _ => ?_
  refine fences_bind (status_with_cancel_fences polls_flag) fun existing => ?_
  split
  · exact (only_pure existing).fences
  · refine fences_bind (only_fail_if _ _).fences fun _ => ?_
    refine fences_bind hstop.fences fun _ => ?_
    refine fences_bind (acquire_install_lock_only.mono fun _ hop => hop.harmless).fences
      fun handle => ?_
    refine fences_bind (holding_fences ?_) fun value => ?_
    · refine fences_bind (reading_fences reconcile_repair_steps) fun _ => ?_
      refine fences_bind (status_with_cancel_fences polls_flag) fun existing => ?_
      split
      · exact (only_pure (some existing)).fences
      · exact prepared_fences
    · cases value with
      | some existing => exact (only_pure existing).fences
      | none => exact status_with_cancel_fences polls_never

/-- A deletion renames only the installed tree. -/
theorem delete_reconciled_harmless :
    Only (FsOp.Harmless key) (deleteReconciled store manifest) := by
  have hremove : Only (FsOp.Harmless key) (removeDeletionTombstone (store.key manifest)) :=
    (remove_deletion_tombstone_only _).mono fun _ hop => hop.harmless
  have hrename : Only (FsOp.Harmless key)
      (durableRename (.models (store.key manifest)) (.tombstone (store.key manifest))) := by
    have hparents : Only (FsOp.Harmless key) (syncParents (.models (store.key manifest))
        (.tombstone (store.key manifest))) :=
      only_bind (only_fs trivial) fun _ => only_fs trivial
    refine only_bind (only_fs trivial) fun _ => only_bind hparents fun _ => ?_
    refine only_bind (only_fs (fun heq => by cases heq)) fun _ => ?_
    exact only_bind (only_fs trivial) fun _ => hparents
  refine only_bind (only_fs trivial) fun _ => ?_
  refine only_bind (only_fs trivial) fun _ => ?_
  refine only_bind (only_fs trivial) fun _ => ?_
  refine only_bind (only_fs trivial) fun _ => ?_
  refine only_bind (only_fs trivial) fun pending => ?_
  refine only_bind (?_ : Only (FsOp.Harmless key) (removeIfPending _ _)) fun _ => ?_
  · cases pending.isSome with
    | true => exact hremove
    | false => exact only_pure _
  refine only_bind (only_fs trivial) fun found => ?_
  split
  · exact only_pure _
  · refine only_bind (?_ : Only _ (checkDeletionTarget store manifest)) fun _ => ?_
    · refine only_bind (only_fs trivial) fun _ => ?_
      refine only_bind ?_ fun _ => only_fail_if _ _
      exact (@read_contained_manifest_only (.models (store.key manifest)) [] store).mono
        fun _ hop => hop.confined.harmless
    refine only_bind hrename fun _ => only_bind (only_fs trivial) fun _ => ?_
    exact only_bind hremove fun _ => only_bind (only_fs trivial) fun _ => only_pure _
  · exact only_invalid _

theorem delete_model_fences : Fences trees (store.key manifest) (deleteModel store manifest) := by
  refine fences_bind (only_lift _).fences fun _ => ?_
  refine fences_bind (acquire_delete_lock_only.mono fun _ hop => hop.harmless).fences
    fun handle => holding_fences ?_
  exact fences_bind (reading_fences reconcile_repair_steps) fun _ =>
    delete_reconciled_harmless.fences

/-- Every operation on the key keeps the trees fenced. -/
theorem StoreCall.body_fences (call : StoreCall) :
    Fences trees (store.key manifest) (call.body store manifest) := by
  have hdone : ∀ {β : Type} {body : StoreM β}, Fences trees (store.key manifest) body →
      Fences trees (store.key manifest) (body >>= fun _ => pure ()) :=
    fun h => fences_bind h fun _ => (only_pure ()).fences
  cases call with
  | importModel => exact hdone import_model_fences
  | install options chunks => exact hdone (@install_transaction_fences _ ⟨store, options, chunks⟩ _)
  | status => exact hdone (status_with_cancel_fences polls_never)
  | verifiedModel rounds => exact hdone (reading_fences (verified_model_steps rounds))
  | delete => exact hdone delete_model_fences
  | reconcile => exact reading_fences reconcile_repair_steps

/-! ### Operations on other keys -/

theorem FsOp.Locks.is_local (h : op.Locks key) : op.Local key := by
  cases op <;> first | exact h.elim | trivial

theorem FsOp.Confined.is_local {loc : Loc} (h : op.Confined loc) : op.Local loc.key :=
  h.transacts.1

theorem holding_local {handle : Nat} {body : StoreM α} (h : Only (FsOp.Local key) body) :
    Only (FsOp.Local key) (holding key handle body) :=
  only_bind (only_attempt h) fun _ => only_bind (only_fs rfl) fun _ => only_lift _

theorem reconcile_repair_local : Only (FsOp.Local key) (reconcileRepair store key) :=
  reconcile_repair_only.mono fun _ hop => hop.1

theorem reconcile_if_marked_local {cancelled : StoreM Bool} (hcancel : Polls cancelled) :
    Only (FsOp.Local key) (reconcileIfMarked store key cancelled) := by
  refine only_bind (only_fs rfl) fun found => ?_
  split
  · refine only_bind ((acquire_store_lock_only hcancel).mono fun _ hop => hop.is_local)
      fun handle => ?_
    exact holding_local reconcile_repair_local
  · exact only_pure _

theorem status_inner_local {cancelled : StoreM Bool} (hcancel : Polls cancelled) :
    Only (FsOp.Local (store.key manifest)) (statusInner store manifest cancelled) :=
  (status_inner_only (hcancel.only trivial)).mono fun _ hop => hop.confined.is_local

theorem status_with_cancel_local {cancelled : StoreM Bool} (hcancel : Polls cancelled) :
    Only (FsOp.Local (store.key manifest)) (statusWithCancel store manifest cancelled) := by
  refine only_bind (only_lift _) fun _ => only_bind (hcancel.only trivial) fun _ => ?_
  refine only_bind (only_fail_if _ _) fun _ => ?_
  exact only_bind (reconcile_if_marked_local hcancel) fun _ => status_inner_local hcancel

theorem prepare_staging_local : Only (FsOp.Local key) (prepareStaging key) :=
  (prepare_staging_only key).mono fun _ hop => hop.is_local

theorem import_model_local :
    Only (FsOp.Local (store.key manifest)) (importModel store manifest) := by
  refine only_bind (only_lift _) fun _ => only_bind (status_with_cancel_local polls_never)
    fun _ => ?_
  split
  · exact only_pure _
  · refine only_bind ((acquire_store_lock_only polls_never).mono fun _ hop => hop.is_local)
      fun _ => ?_
    refine holding_local (only_bind reconcile_repair_local fun _ => ?_)
    refine only_bind (status_inner_local polls_never) fun _ => ?_
    split
    · exact only_pure _
    · refine only_bind ((@inspect_source_only (.staging (store.key manifest)) _).mono
        fun _ hop => hop.confined.is_local) fun _ => ?_
      refine only_bind prepare_staging_local fun _ => ?_
      refine only_bind (only_attempt (stage_and_promote_only.mono fun _ hop => hop.1)) fun _ => ?_
      split
      · refine only_bind (only_attempt ?_) fun _ => only_throw _
        exact (@remove_dir_all_only (.staging (store.key manifest))).mono fun _ hop => hop.is_local
      · exact status_with_cancel_local polls_never

theorem install_transaction_local :
    Only (FsOp.Local (installer.store.key manifest)) (installTransaction installer manifest) := by
  have hstop : Only (FsOp.Local (installer.store.key manifest)) stopIfCancelled :=
    only_bind (only_fs trivial) fun _ => only_fail_if _ _
  refine only_bind (only_lift _) fun _ => only_bind (only_lift _) fun _ => ?_
  refine only_bind (status_with_cancel_local polls_flag) fun _ => ?_
  split
  · exact only_pure _
  · refine only_bind (only_fail_if _ _) fun _ => only_bind hstop fun _ => ?_
    refine only_bind (acquire_install_lock_only.mono fun _ hop => hop.is_local) fun _ => ?_
    refine only_bind (holding_local ?_) fun value => ?_
    · refine only_bind reconcile_repair_local fun _ => ?_
      refine only_bind (status_with_cancel_local polls_flag) fun _ => ?_
      split
      · exact only_pure _
      · refine only_bind prepare_staging_local fun _ => ?_
        refine only_bind ((@download_artifacts_only (.staging (installer.store.key manifest))
          installer _).mono fun _ hop => hop.is_local) fun _ => ?_
        refine only_bind hstop fun _ => only_bind (only_fs trivial) fun _ => ?_
        refine only_bind (only_fail_if _ _) fun _ => ?_
        exact only_bind (commit_install_only.mono fun _ hop => hop.1) fun _ => only_pure _
    · cases value with
      | some existing => exact only_pure _
      | none => exact status_with_cancel_local polls_never

theorem verified_model_local (rounds : Nat) :
    Only (FsOp.Local (store.key manifest)) (verifiedModel store manifest rounds) := by
  refine only_bind (only_lift _) fun _ => ?_
  induction rounds with
  | zero => exact only_pure _
  | succ rounds ih =>
      refine only_bind (reconcile_if_marked_local polls_never) fun _ => ?_
      refine only_bind (acquire_shared_store_lock_only.mono fun _ hop => hop.is_local)
        fun lease => ?_
      refine only_bind (only_attempt (only_bind (only_fs rfl) fun found => ?_)) fun result => ?_
      · split
        · exact only_pure _
        · refine only_bind (status_inner_local polls_never) fun found => ?_
          split <;> trivial
      · split
        · exact only_pure _
        · exact only_bind (only_fs rfl) fun _ => ih
        · exact only_bind (only_fs rfl) fun _ => only_throw _

theorem delete_model_local :
    Only (FsOp.Local (store.key manifest)) (deleteModel store manifest) := by
  refine only_bind (only_lift _) fun _ => ?_
  refine only_bind (acquire_delete_lock_only.mono fun _ hop => hop.is_local) fun _ => ?_
  exact holding_local (delete_locked_only.mono fun _ hop => hop.1)

/-- Every operation works on the key of its manifest. -/
theorem StoreCall.body_local (call : StoreCall) :
    Only (FsOp.Local (store.key manifest)) (call.body store manifest) := by
  cases call with
  | importModel => exact only_bind import_model_local fun _ => only_pure _
  | install options chunks =>
      exact only_bind (@install_transaction_local ⟨store, options, chunks⟩ _) fun _ => only_pure _
  | status => exact only_bind (status_with_cancel_local polls_never) fun _ => only_pure _
  | verifiedModel rounds => exact only_bind (verified_model_local rounds) fun _ => only_pure _
  | delete => exact only_bind delete_model_local fun _ => only_pure _
  | reconcile => exact reconcile_repair_local

/-! ### Runs -/

/-- What stores can make of a cache: operations on any identities, each stopped or failing at any
primitive. -/
inductive Aftermath (start : Cache) : Cache → Prop where
  | start : Aftermath start start
  | call {s : Cache} (h : Aftermath start s) (store : ModelStore) (manifest : Manifest)
      (call : StoreCall) (schedule : List Choice) :
      Aftermath start (Program.after respond schedule (call.body store manifest).run s).2
  | drop {s : Cache} (h : Aftermath start s) (locks : List Lock) (hlocks : locks ⊆ s.locks) :
      Aftermath start { s with locks := locks }

/-- Stores keep the numbering, so every cache they make of an empty one has it. -/
theorem Aftermath.numbered {start : Cache} (h : Aftermath start s) (hs : start.Numbered) :
    s.Numbered := by
  induction h with
  | start => exact hs
  | @call a _ store manifest call schedule ih =>
      have hspec : Spec Set.univ (fun _ b => b.Numbered) (call.body store manifest)
          (fun _ b => b.Numbered) a := by
        refine Program.wp_of_all (Program.all_of_forall (call.body store manifest).run
          fun _ => trivial) (fun _ _ heq hinv => heq ▸ hinv) ?_ ih
        intro op (_ : True) choice _ b hb
        exact ⟨hb.respond choice op, hb.respond choice op⟩
      rcases (Program.wp_after hspec schedule (by simp)).1.cases_tail with heq | ⟨b, -, hlast⟩
      · rw [heq]
        exact ih
      · exact hlast
  | drop _ locks _ ih => exact ih

/-- Withheld trees stay withheld, whatever is done afterwards. -/
theorem Aftermath.fenced {start : Cache} (h : Aftermath start s) (hs : Fenced trees key start) :
    Fenced trees key s := by
  induction h with
  | start => exact hs
  | @call a _ store manifest call schedule ih =>
      have hspec : Spec Set.univ (fun _ b => Fenced trees key b) (call.body store manifest)
          (fun _ b => Fenced trees key b) a := by
        by_cases hkey : store.key manifest = key
        · subst hkey
          exact call.body_fences a ih
        · exact ((call.body_local).mono fun _ hop => hop.harmless hkey).fences a ih
      rcases (Program.wp_after hspec schedule (by simp)).1.cases_tail with heq | ⟨b, -, hlast⟩
      · rw [heq]
        exact ih
      · exact hlast
  | drop _ locks _ ih => exact ⟨ih.withheld, ih.old⟩

end Aftermath

end EmbeddingServer
