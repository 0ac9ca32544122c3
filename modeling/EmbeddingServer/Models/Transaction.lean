import EmbeddingServer.Models.StoreLogic

/-!
# The repair transaction

Replacing an installed tree takes two renames and a marker file that says that they are
under way. `Repair` is the protocol: what a recovery may do to the final tree, the staged
tree, the backup and the marker, one primitive at a time. `Promotion` adds what only a
promotion may do. The specifications say that `reconcile_repair_with_operations` and
`promote_with_operations` take no other steps whatever fails, and what a successful result
means.
-/

namespace EmbeddingServer

/-- The steps of a recovery. If `exact` holds, a transaction is closed only when its staged
tree is gone; without it this also covers a transaction that found all three trees. -/
inductive Repair (exact : Prop) (key : String) : Cache → Cache → Prop where
  | flush {s s' : Cache} (h : Synced s s') : Repair exact key s s'
  | displace {s s' : Cache} (hmarker : s.marker key = some .file)
      (hstaging : (s.entry (.staging key)).isSome) (hbackup : s.entry (.backup key) = none)
      (h : s.rename (.models key) (.backup key) = some s') : Repair exact key s s'
  | replace {s s' : Cache} (hmarker : s.marker key = some .file)
      (hfinal : s.entry (.models key) = none) (hbackup : (s.entry (.backup key)).isSome)
      (h : s.rename (.staging key) (.models key) = some s') : Repair exact key s s'
  | restore {s s' : Cache} (hmarker : s.marker key = some .file)
      (hfinal : s.entry (.models key) = none) (hstaging : s.entry (.staging key) = none)
      (h : s.rename (.backup key) (.models key) = some s') : Repair exact key s s'
  | quarantine {s s' : Cache} {pid sequence : Nat} (hmarker : s.marker key = some .file)
      (hfinal : (s.entry (.models key)).isSome)
      (hstaging : exact → s.entry (.staging key) = none)
      (hfree : s.entry (.quarantine key pid sequence) = none)
      (h : s.rename (.backup key) (.quarantine key pid sequence) = some s') : Repair exact key s s'
  | close {s s' : Cache} (hmarker : s.marker key = some .file)
      (hfinal : (s.entry (.models key)).isSome) (hbackup : s.entry (.backup key) = none)
      (hstaging : exact → s.entry (.staging key) = none)
      (h : s' = { s with marker := Function.update s.marker key none }) : Repair exact key s s'

/-- Every file and directory of a tree is flushed. -/
def AllDurable (s : Cache) (loc : Loc) (tree : Tree) : Prop :=
  (loc, []) ∈ s.durable ∧ ∀ path ∈ tree.entries.keys, (loc, path) ∈ s.durable

/-- The steps of a promotion. `ready` is what is known of the staged tree. -/
inductive Promotion (ready : Tree → Prop) (key : String) : Cache → Cache → Prop where
  | repair {s s' : Cache} (h : Repair False key s s') : Promotion ready key s s'
  /-- A first installation needs no transaction. -/
  | publish {s s' : Cache} (hmarker : s.marker key = none) (hfinal : s.entry (.models key) = none)
      (h : s.rename (.staging key) (.models key) = some s') : Promotion ready key s s'
  | mark {s s' : Cache} {tree : Tree} (hmarker : s.marker key = none)
      (hfinal : (s.entry (.models key)).isSome) (hbackup : s.entry (.backup key) = none)
      (hstaging : s.entry (.staging key) = some (.dir tree)) (hready : ready tree)
      (hdurable : AllDurable s (.staging key) tree)
      (h : s' = { s with
        marker := Function.update s.marker key (some .file)
        prepared := Function.update s.prepared key (s.entry (.staging key)) }) :
      Promotion ready key s s'
  | rollback {s s' : Cache} (hmarker : s.marker key = some .file)
      (hdisplaced : s.entry (.models key) = none ∨ s.entry (.staging key) = none)
      (h : s.rename (.backup key) (.models key) = some s') : Promotion ready key s s'

variable {faults : Set Choice} {guar : Cache → Cache → Prop} {key : String} {store : ModelStore}

/-! ## Renames -/

/-- Flushing a location only flushes. -/
theorem spec_sync_dir {loc : Loc} {post : Except Error Unit → Cache → Prop} {s : Cache}
    (hguar : ∀ a b, Synced a b → guar a b)
    (hfail : ∀ a, Synced s a → (Lucky faults → s.entry loc = none) →
      ∀ kind, post (.error (.io kind)) a)
    (hok : ∀ a, Synced s a → (loc, []) ∈ a.durable → post (.ok ()) a) :
    Spec faults guar (fs (.syncDir loc)) post s := by
  have hflush : Synced s { s with durable := (loc, []) :: s.durable } :=
    ⟨_, List.subset_cons_self _ _, rfl⟩
  refine spec_fs (hguar s s (.refl s)) (fun hbad => hfail s (.refl s) (absurd · hbad) _) ?_ ?_
  · intro choice _
    by_cases hentry : (s.entry loc).isSome
    · simp only [Cache.perform, hentry, if_true]
      exact ⟨hguar _ _ hflush, hok _ hflush (by simp)⟩
    · simp only [Cache.perform, hentry]
      exact ⟨hguar _ _ (.refl s), hfail s (.refl s) (fun _ => by simpa using hentry) _⟩
  · intro hbad choice _
    by_cases hentry : (s.entry loc).isSome
    · simp only [Cache.perform, hentry, if_true]
      exact hfail _ hflush (absurd · hbad) _
    · simp only [Cache.perform, hentry]
      exact hfail s (.refl s) (absurd · hbad) _

/-- A primitive on one of the layout's directories or an observer changes nothing. -/
theorem spec_idle {op : FsOp} {post : Except Error op.Value → Cache → Prop} {s : Cache}
    (hvalue : ∀ choice, s.perform choice op = s.perform {} op)
    (hidle : (s.perform {} op).2 = s) (hguar : ∀ a b, Synced a b → guar a b)
    (hfail : ¬ Lucky faults → ∀ kind, post (.error (.io kind)) s)
    (hok : post ((s.perform {} op).1.mapError Error.io) s) :
    Spec faults guar (fs op) post s :=
  spec_query (fun choice => (congrArg Prod.snd (hvalue choice)).trans hidle) (hguar s s (.refl s))
    (fun hbad => hfail hbad _) fun choice => by rw [hvalue choice]; exact hok

/-- Flushing the parents of a rename changes nothing. -/
theorem sync_parents_spec {src dst : Loc} {post : Except Error Unit → Cache → Prop} {s : Cache}
    (hguar : ∀ a b, Synced a b → guar a b)
    (hfail : ¬ Lucky faults → ∀ kind, post (.error (.io kind)) s) (hok : post (.ok ()) s) :
    Spec faults guar (syncParents src dst) post s := by
  refine spec_bind (spec_idle (fun _ => rfl) rfl hguar hfail ?_)
  split
  · exact spec_idle (fun _ => rfl) rfl hguar hfail hok
  · exact spec_pure hok

/-- Flushing does not change which renames are possible. -/
theorem Synced.rename_eq_none {s a : Cache} (h : Synced s a) (src dst : Loc) :
    a.rename src dst = none ↔ s.rename src dst = none := by
  obtain ⟨d, -, rfl⟩ := h
  have hentry : ∀ loc, Cache.entry { s with durable := d } loc = s.entry loc := fun _ => rfl
  simp only [Cache.rename, hentry]
  split
  · simp
  · split <;> simp

/-- `durable_rename` fails with everything in place, or the rename has taken effect. -/
theorem durable_rename_spec {src dst : Loc} {post : Except Error Unit → Cache → Prop} {s : Cache}
    (hguar : ∀ a b, Synced a b → guar a b)
    (hfail : ∀ a, Synced s a → (Lucky faults → s.rename src dst = none) →
      ∀ kind, post (.error (.io kind)) a)
    (hmove : ∀ a s', Synced s a → a.rename src dst = some s' → guar a s' ∧
      ∀ b, Synced s' b → (¬ Lucky faults → ∀ kind, post (.error (.io kind)) b) ∧ post (.ok ()) b) :
    Spec faults guar (durableRename src dst) post s := by
  have hmissing : s.entry src = none → s.rename src dst = none := by
    intro hnone
    simp [Cache.rename, hnone]
  refine spec_bind (spec_sync_dir hguar ?_ ?_)
  · exact fun a ha hnone kind => hfail a ha (fun hlucky => hmissing (hnone hlucky)) kind
  intro a ha _
  have hstop : ¬ Lucky faults → ∀ kind, post (.error (.io kind)) a :=
    fun hbad kind => hfail a ha (absurd · hbad) kind
  refine spec_bind (sync_parents_spec hguar hstop ?_)
  refine spec_bind ?_
  cases hrename : a.rename src dst with
  | none =>
      have hperform : ∀ choice, a.perform choice (.rename src dst) = (.error .other, a) := by
        intro choice
        simp [Cache.perform, hrename]
      refine spec_query (fun choice => by rw [hperform]) (hguar a a (.refl a))
        (fun hbad => hstop hbad _) fun choice => ?_
      rw [hperform]
      exact hfail a ha (fun _ => (ha.rename_eq_none src dst).mp hrename) _
  | some s' =>
      have hperform : ∀ choice, a.perform choice (.rename src dst) = (.ok (), s') := by
        intro choice
        simp [Cache.perform, hrename]
      obtain ⟨hstep, hafter⟩ := hmove a s' ha hrename
      refine spec_fs (hguar a a (.refl a)) (fun hbad => hstop hbad _) (fun choice _ => ?_)
        fun hbad choice _ => ?_
      · rw [hperform]
        refine ⟨hstep, ?_⟩
        have hdst : (s'.entry dst).isSome := by
          obtain ⟨moved, hmoved, -, -⟩ := Cache.rename_eq_some hrename
          simp [Cache.rename_entry hrename, hmoved]
        refine spec_bind (spec_sync_dir hguar ?_ ?_)
        · intro b hb hnone kind
          refine (hafter b hb).1 (fun hlucky => ?_) kind
          simp [hnone hlucky] at hdst
        · intro b hb _
          exact sync_parents_spec hguar (hafter b hb).1 (hafter b hb).2
      · rw [hperform]
        exact (hafter s' (.refl s')).1 hbad _

/-- A rename onto a free place: only an outside failure stops it, and afterwards what stood at the
source stands at the target. -/
theorem durable_rename_free {src dst : Loc} {post : Except Error Unit → Cache → Prop} {s : Cache}
    (hguar : ∀ a b, Synced a b → guar a b) (hsource : (s.entry src).isSome)
    (hfree : s.entry dst = none)
    (hfail : ¬ Lucky faults → ∀ kind a, post (.error (.io kind)) a)
    (hstep : ∀ a s', Synced s a → a.rename src dst = some s' → guar a s')
    (hdone : ∀ b, b.marker = s.marker → (∀ loc, b.entry loc =
      if loc = dst then s.entry src else if loc = src then none else s.entry loc) →
        post (.ok ()) b) :
    Spec faults guar (durableRename src dst) post s := by
  refine durable_rename_spec hguar ?_ ?_
  · intro a _ hlucky kind
    refine hfail (fun hall => ?_) kind a
    have hmoves := Cache.rename_is_some hsource hfree
    simp [hlucky hall] at hmoves
  · intro a s' ha hrename
    refine ⟨hstep a s' ha hrename, fun b hb => ⟨fun hbad kind => hfail hbad kind b, hdone b ?_ ?_⟩⟩
    · rw [hb.marker, Cache.rename_marker hrename, ha.marker]
    · intro loc
      rw [hb.entry, Cache.rename_entry hrename, ha.entry, ha.entry]

/-! ## Recovery -/

/-- The error of a transaction that has neither a final tree nor a backup. -/
def unreconcilable : Error :=
  .invalid "repair transaction cannot be reconciled safely"

/-- What a recovery leaves at `models/<key>`. -/
def settled (s : Cache) (key : String) : Option Entry :=
  if s.marker key = none then s.entry (.models key)
  else
    match s.entry (.models key), s.entry (.staging key), s.entry (.backup key) with
    | some _, some staged, none => some staged
    | none, some staged, some _ => some staged
    | none, none, some previous => some previous
    | final, _, _ => final

theorem quarantine_backup_spec {post : Except Error Unit → Cache → Prop} {s : Cache}
    (hguar : ∀ a b, Synced a b → guar a b)
    (hfail : ¬ Lucky faults → ∀ a, Synced s a → ∀ kind, post (.error (.io kind)) a)
    (hnone : s.entry (.backup key) = none → post (.ok ()) s)
    (hmove : ∀ sequence a s', Synced s a → a.entry (.quarantine key store.pid sequence) = none →
      a.rename (.backup key) (.quarantine key store.pid sequence) = some s' → guar a s' ∧
      ∀ b, Synced s' b → (¬ Lucky faults → ∀ kind, post (.error (.io kind)) b) ∧ post (.ok ()) b) :
    Spec faults guar (quarantineBackup store key) post s := by
  have hstop := fun hbad => hfail hbad s (.refl s)
  refine spec_bind (spec_idle (fun _ => rfl) rfl hguar hstop ?_)
  cases hbackup : s.entry (.backup key) with
  | none =>
      simp only [Cache.perform, hbackup]
      exact spec_pure (hnone hbackup)
  | some previous =>
      simp only [Cache.perform, hbackup]
      refine spec_bind (spec_idle (fun _ => rfl) rfl hguar hstop ?_)
      refine spec_bind (spec_idle (fun _ => rfl) rfl hguar hstop ?_)
      refine spec_bind (spec_query (fun choice => ?_) (hguar s s (.refl s))
        (fun hbad => hstop hbad _) fun choice => ?_)
      · simp only [Cache.perform]
        split <;> rfl
      obtain ⟨sequence, hsequence⟩ :=
        Option.isSome_iff_exists.mp (s.free_sequence_is_some key store.pid choice.amount)
      have hfree := Cache.free_sequence_entry hsequence
      simp only [Cache.perform, hsequence]
      refine durable_rename_spec hguar ?_ ?_
      · intro a ha hlucky kind
        refine hfail (fun hall => ?_) a ha kind
        have hsrc : (s.entry (.backup key)).isSome := by simp [hbackup]
        have hmoves := Cache.rename_is_some hsrc hfree
        simp [hlucky hall] at hmoves
      · intro a s' ha hrename
        exact hmove sequence a s' ha ((ha.entry _).trans hfree) hrename

theorem verify_transaction_final_spec {post : Except Error Unit → Cache → Prop} {s : Cache}
    (hguar : ∀ a b, Synced a b → guar a b)
    (hfail : ∀ error, error ≠ unreconcilable →
      (Lucky faults → ∀ tree, s.entry (.models key) ≠ some (.dir tree)) → post (.error error) s)
    (hok : ∀ tree, s.entry (.models key) = some (.dir tree) → post (.ok ()) s) :
    Spec faults guar (verifyTransactionFinal key) post s := by
  refine spec_bind (spec_idle (fun _ => rfl) rfl hguar ?_ ?_)
  · exact fun hbad kind => hfail _ (by simp [unreconcilable]) (absurd · hbad)
  simp only [Cache.perform]
  rcases hentry : s.entry (.models key) with _ | ⟨tree⟩ | _ | _ | _
  case some.dir => exact spec_fail_if (by simp [Entry.kind]) fun _ => hok tree hentry
  all_goals
    exact spec_fail_if (fun _ => hfail _ (by simp [unreconcilable]) (by simp [hentry]))
      (by simp [Entry.kind])

theorem close_transaction_spec {post : Except Error Unit → Cache → Prop} {s : Cache}
    (hguar : ∀ a b, Synced a b → guar a b) (hmarker : s.marker key = some .file)
    (hstep : guar s { s with marker := Function.update s.marker key none })
    (hfail : ¬ Lucky faults → ∀ kind, post (.error (.io kind)) s ∧
      post (.error (.io kind)) { s with marker := Function.update s.marker key none })
    (hok : post (.ok ()) { s with marker := Function.update s.marker key none }) :
    Spec faults guar (closeTransaction key) post s := by
  refine spec_bind (spec_fs (hguar s s (.refl s)) (fun hbad => (hfail hbad _).1) ?_ ?_)
  · intro choice _
    simp only [Cache.perform, hmarker]
    exact ⟨hstep, spec_idle (fun _ => rfl) rfl hguar (fun hbad kind => (hfail hbad kind).2) hok⟩
  · intro hbad choice _
    simp only [Cache.perform, hmarker]
    exact (hfail hbad _).2

/-- The result of finishing a recovery whose final tree stands. -/
def Finished (faults : Set Choice) (key : String) (final : Entry) (result : Except Error Unit)
    (s' : Cache) : Prop :=
  (∀ error, result = .error error →
    error ≠ unreconcilable ∧ (Lucky faults → ∀ tree, final ≠ .dir tree)) ∧
  (result = .ok () → s'.marker key = none ∧ s'.entry (.backup key) = none ∧
    s'.entry (.models key) = some final ∧ ∃ tree, final = .dir tree)

/-- A failure that is neither the protocol's nor to be expected of lucky primitives. -/
theorem Finished.error {faults : Set Choice} {key : String} {final : Entry} {s' : Cache}
    {error : Error} (herror : error ≠ unreconcilable)
    (hlucky : Lucky faults → ∀ tree, final ≠ .dir tree) :
    Finished faults key final (.error error) s' := by
  refine ⟨?_, by simp⟩
  rintro _ ⟨rfl⟩
  exact ⟨herror, hlucky⟩

theorem finish_recovery_spec {exact : Prop} {s : Cache} {final : Entry}
    (hmarker : s.marker key = some .file) (hfinal : s.entry (.models key) = some final)
    (hstaging : exact → s.entry (.staging key) = none) :
    Spec faults (Repair exact key) (finishRecovery store key) (Finished faults key final) s := by
  have hguar : ∀ a b, Synced a b → Repair exact key a b := fun _ _ => .flush
  have hio : ∀ {s' : Cache}, ¬ Lucky faults → ∀ kind,
      Finished faults key final (.error (.io kind)) s' :=
    fun hbad kind => .error (by simp [unreconcilable]) (absurd · hbad)
  -- Closing from any state with the final tree in place and no backup.
  have hclose : ∀ b : Cache, b.marker key = some .file → b.entry (.models key) = some final →
      b.entry (.backup key) = none → (exact → b.entry (.staging key) = none) →
      (∃ tree, final = .dir tree) →
      Spec faults (Repair exact key) (closeTransaction key) (Finished faults key final) b := by
    intro b hbm hbf hbb hbs hdir
    refine close_transaction_spec hguar hbm (.close hbm (by simp [hbf]) hbb hbs rfl)
      (fun hbad kind => ⟨hio hbad kind, hio hbad kind⟩) ⟨by simp, fun _ => ⟨by simp, ?_⟩⟩
    exact ⟨hbb, hbf, hdir⟩
  refine spec_bind (verify_transaction_final_spec hguar ?_ ?_)
  · intro error herror hlucky
    refine Finished.error herror fun hall tree htree => ?_
    exact hlucky hall tree (by rw [hfinal, htree])
  intro tree htree
  have hdir : ∃ tree, final = .dir tree := ⟨tree, by simpa [hfinal] using htree⟩
  refine spec_bind (quarantine_backup_spec hguar (fun hbad a ha kind => hio hbad kind) ?_ ?_)
  · exact fun hnone => hclose s hmarker hfinal hnone hstaging hdir
  intro sequence a s' ha hfree hrename
  have hmove := Cache.rename_entry hrename
  refine ⟨.quarantine (by rw [ha.marker]; exact hmarker) (by simp [ha.entry, hfinal])
    (fun h => by rw [ha.entry]; exact hstaging h) hfree hrename, fun b hb => ?_⟩
  refine ⟨fun hbad kind => hio hbad kind, hclose b ?_ ?_ ?_ ?_ hdir⟩
  · rw [hb.marker, Cache.rename_marker hrename, ha.marker]
    exact hmarker
  · simp [hb.entry, hmove, ha.entry, hfinal]
  · simp [hb.entry, hmove]
  · intro h
    simp [hb.entry, hmove, ha.entry, hstaging h]

/-- The result of a recovery. -/
structure Reconciled (faults : Set Choice) (key : String) (s : Cache) (result : Except Error Unit)
    (s' : Cache) : Prop where
  /-- It gives up on a transaction only if there is nothing to settle on. -/
  stuck : result = .error unreconcilable → settled s key = none
  /-- Without outside failures it fails only on a marker that is no file or on a settled entry
  that is no directory. -/
  lucky : Lucky faults → (s.marker key = none ∨ s.marker key = some .file) →
    (s.marker key ≠ none → ∃ tree, settled s key = some (.dir tree)) → result = .ok ()
  marker : result = .ok () → s'.marker key = none
  final : result = .ok () → s'.entry (.models key) = settled s key
  unchanged : s.marker key = none → s' = s
  closed : result = .ok () → s.marker key ≠ none →
    s'.entry (.backup key) = none ∧ ∃ tree, settled s key = some (.dir tree)

/-- A failed recovery. -/
theorem Reconciled.error {faults : Set Choice} {key : String} {s s' : Cache} {error : Error}
    (hstuck : error = unreconcilable → settled s key = none)
    (hlucky : Lucky faults → (s.marker key = none ∨ s.marker key = some .file) →
      ¬ (s.marker key ≠ none → ∃ tree, settled s key = some (.dir tree)))
    (hunchanged : s.marker key = none → s' = s) :
    Reconciled faults key s (.error error) s' where
  stuck h := hstuck (Except.error.inj h)
  lucky hall hkind hdir := absurd hdir (hlucky hall hkind)
  marker h := by simp at h
  final h := by simp at h
  unchanged := hunchanged
  closed h := by simp at h

/-- Finishing a recovery on the settled entry completes it. -/
theorem Finished.reconciled {faults : Set Choice} {key : String} {s s' : Cache} {final : Entry}
    {result : Except Error Unit} (h : Finished faults key final result s')
    (hmarker : s.marker key ≠ none) (hsettled : settled s key = some final) :
    Reconciled faults key s result s' := by
  cases result with
  | error error =>
      obtain ⟨herror, hlucky⟩ := h.1 error rfl
      refine .error (absurd · herror) (fun hall _ hdir => ?_) (absurd · hmarker)
      obtain ⟨tree, htree⟩ := hdir hmarker
      rw [hsettled] at htree
      exact hlucky hall tree (Option.some.inj htree)
  | ok =>
      obtain ⟨hm, hb, hf, tree, htree⟩ := h.2 rfl
      exact
        { stuck := by simp
          lucky := fun _ _ _ => rfl
          marker := fun _ => hm
          final := fun _ => hf.trans hsettled.symm
          unchanged := (absurd · hmarker)
          closed := fun _ _ => ⟨hb, tree, by rw [hsettled, htree]⟩ }

/-- Nothing to recover. -/
theorem Reconciled.unmarked {faults : Set Choice} {key : String} {s : Cache}
    (hmarker : s.marker key = none) : Reconciled faults key s (.ok ()) s where
  stuck h := by simp at h
  lucky _ _ _ := rfl
  marker _ := hmarker
  final _ := by simp [settled, hmarker]
  unchanged _ := rfl
  closed _ h := absurd hmarker h

/-- A failure from outside. -/
theorem Reconciled.io {s s' : Cache} (hset : s.marker key ≠ none) (hbad : ¬ Lucky faults)
    (kind : IoError) : Reconciled faults key s (.error (.io kind)) s' :=
  .error (by simp [unreconcilable]) (absurd · hbad) (absurd · hset)

section Recovering

variable {exact : Prop} {s a : Cache}

/-- The recovery of `s` finishes from any state that has the settled entry in place. -/
theorem recovery_finishes {final : Entry} (hset : s.marker key ≠ none)
    (hsettled : settled s key = some final) (hmarker : a.marker key = some .file)
    (hfinal : a.entry (.models key) = some final)
    (hstaging : exact → a.entry (.staging key) = none) :
    Spec faults (Repair exact key) (finishRecovery store key) (Reconciled faults key s) a :=
  (finish_recovery_spec hmarker hfinal hstaging).imp fun _ _ h => h.reconciled hset hsettled

/-- It moves the staged tree to its free final place. -/
theorem recovery_replaces {staged : Entry} (hset : s.marker key ≠ none)
    (hsettled : settled s key = some staged) (hmarker : a.marker key = some .file)
    (hfinal : a.entry (.models key) = none) (hstaging : a.entry (.staging key) = some staged)
    (hbackup : (a.entry (.backup key)).isSome) :
    Spec faults (Repair exact key) (durableRename (.staging key) (.models key))
      (Program.andThen (Reconciled faults key s) fun _ =>
        Spec faults (Repair exact key) (finishRecovery store key) (Reconciled faults key s)) a := by
  refine durable_rename_free (fun _ _ => .flush) (by simp [hstaging]) hfinal
    (fun hbad kind _ => .io hset hbad kind) ?_ ?_
  · intro b s' hb hrename
    exact .replace (by rw [hb.marker, hmarker]) (by rw [hb.entry, hfinal])
      (by rw [hb.entry]; exact hbackup) hrename
  · intro c hcmarker hcentry
    refine recovery_finishes hset hsettled (by rw [hcmarker, hmarker]) ?_ fun _ => ?_
    · simp [hcentry, hstaging]
    · simp [hcentry]

/-- It moves the backup to the free final place, where nothing is staged. -/
theorem recovery_restores {previous : Entry} (hset : s.marker key ≠ none)
    (hsettled : settled s key = some previous) (hmarker : a.marker key = some .file)
    (hfinal : a.entry (.models key) = none) (hstaging : a.entry (.staging key) = none)
    (hbackup : a.entry (.backup key) = some previous) :
    Spec faults (Repair exact key) (durableRename (.backup key) (.models key))
      (Program.andThen (Reconciled faults key s) fun _ =>
        Spec faults (Repair exact key) (finishRecovery store key) (Reconciled faults key s)) a := by
  refine durable_rename_free (fun _ _ => .flush) (by simp [hbackup]) hfinal
    (fun hbad kind _ => .io hset hbad kind) ?_ ?_
  · intro b s' hb hrename
    exact .restore (by rw [hb.marker, hmarker]) (by rw [hb.entry, hfinal])
      (by rw [hb.entry, hstaging]) hrename
  · intro c hcmarker hcentry
    refine recovery_finishes hset hsettled (by rw [hcmarker, hmarker]) ?_ fun _ => ?_
    · simp [hcentry, hbackup]
    · simp [hcentry, hstaging]

/-- It moves the final tree out of the way of the staged one. -/
theorem recovery_displaces {final staged : Entry} (hset : s.marker key ≠ none)
    (hsettled : settled s key = some staged) (hmarker : a.marker key = some .file)
    (hfinal : a.entry (.models key) = some final) (hstaging : a.entry (.staging key) = some staged)
    (hbackup : a.entry (.backup key) = none) :
    Spec faults (Repair exact key) (durableRename (.models key) (.backup key))
      (Program.andThen (Reconciled faults key s) fun _ =>
        Spec faults (Repair exact key) (durableRename (.staging key) (.models key))
          (Program.andThen (Reconciled faults key s) fun _ =>
            Spec faults (Repair exact key) (finishRecovery store key)
              (Reconciled faults key s))) a := by
  refine durable_rename_free (fun _ _ => .flush) (by simp [hfinal]) hbackup
    (fun hbad kind _ => .io hset hbad kind) ?_ ?_
  · intro b s' hb hrename
    exact .displace (by rw [hb.marker, hmarker]) (by simp [hb.entry, hstaging])
      (by rw [hb.entry, hbackup]) hrename
  · intro c hcmarker hcentry
    refine recovery_replaces hset hsettled (by rw [hcmarker, hmarker]) ?_ ?_ ?_
    · simp [hcentry]
    · simp [hcentry, hstaging]
    · simp [hcentry, hfinal]

/-- It gives up where there is nothing to settle on. -/
theorem recovery_gives_up (hset : s.marker key ≠ none) (hnone : settled s key = none) :
    Spec faults (Repair exact key) (invalid "repair transaction cannot be reconciled safely")
      (Program.andThen (Reconciled faults key s) fun _ : Unit =>
        Spec faults (Repair exact key) (finishRecovery store key) (Reconciled faults key s)) s := by
  refine spec_throw (Reconciled.error (fun _ => hnone) ?_ (absurd · hset))
  simp [hset, hnone]

end Recovering

/-- `reconcile_repair_with_operations` takes only steps of a recovery. -/
theorem reconcile_repair_spec {exact : Prop} {s : Cache}
    (hexact : exact → (s.entry (.models key)).isSome → (s.entry (.staging key)).isSome →
      s.entry (.backup key) = none) :
    Spec faults (Repair exact key) (reconcileRepair store key) (Reconciled faults key s) s := by
  have hguar : ∀ a b, Synced a b → Repair exact key a b := fun _ _ => .flush
  refine spec_bind (spec_idle (fun _ => rfl) rfl hguar ?_ ?_)
  · exact fun hbad kind => .error (by simp [unreconcilable]) (absurd · hbad) fun _ => rfl
  simp only [Cache.perform]
  cases hmarker : s.marker key with
  | none => exact spec_pure (.unmarked hmarker)
  | some kind =>
      have hset : s.marker key ≠ none := by simp [hmarker]
      have hio : ¬ Lucky faults → ∀ kind, Reconciled faults key s (.error (.io kind)) s :=
        fun hbad kind => .io hset hbad kind
      cases kind with
      | dir | link | special =>
          refine spec_throw (.error (by simp [unreconcilable]) ?_ (absurd · hset))
          simp [hmarker]
      | file =>
          -- The three looks at models, staging and backup, which may fail but change nothing.
          refine spec_bind (spec_idle (fun _ => rfl) rfl hguar hio ?_)
          refine spec_bind (spec_idle (fun _ => rfl) rfl hguar hio ?_)
          refine spec_bind (spec_idle (fun _ => rfl) rfl hguar hio ?_)
          refine spec_bind ?_
          cases hf : s.entry (.models key) with
          | none =>
              cases hb : s.entry (.backup key) with
              | none =>
                  have hnone : settled s key = none := by
                    cases hs : s.entry (.staging key) <;> simp [settled, hmarker, hf, hs, hb]
                  cases hs : s.entry (.staging key) with
                  | none => exact recovery_gives_up hset hnone
                  | some staged => exact recovery_gives_up hset hnone
              | some previous =>
                  cases hs : s.entry (.staging key) with
                  | none =>
                      have hsettled : settled s key = some previous := by
                        simp [settled, hmarker, hf, hs, hb]
                      exact recovery_restores hset hsettled hmarker hf hs hb
                  | some staged =>
                      have hsettled : settled s key = some staged := by
                        simp [settled, hmarker, hf, hs, hb]
                      exact recovery_replaces hset hsettled hmarker hf hs (by simp [hb])
          | some final =>
              cases hs : s.entry (.staging key) with
              | none =>
                  have hsettled : settled s key = some final := by
                    simp [settled, hmarker, hf, hs]
                  exact spec_pure (recovery_finishes hset hsettled hmarker hf fun _ => hs)
              | some staged =>
                  cases hb : s.entry (.backup key) with
                  | none =>
                      have hsettled : settled s key = some staged := by
                        simp [settled, hmarker, hf, hs, hb]
                      exact spec_bind (recovery_displaces hset hsettled hmarker hf hs hb)
                  | some previous =>
                      have hsettled : settled s key = some final := by
                        simp [settled, hmarker, hf, hs, hb]
                      refine spec_pure (recovery_finishes hset hsettled hmarker hf fun hyes => ?_)
                      -- All three trees together are what `exact` excludes.
                      have := hexact hyes (by simp [hf]) (by simp [hs])
                      simp [hb] at this

/-! ## Promotion -/

/-- A result that is not the error of an unreconcilable transaction. -/
def Ordinary {α : Type} (result : Except Error α) : Prop :=
  result ≠ .error unreconcilable

@[simp] theorem ordinary_ok {α : Type} (value : α) : Ordinary (.ok value : Except Error α) := by
  simp [Ordinary]

@[simp] theorem ordinary_io {α : Type} (kind : IoError) :
    Ordinary (.error (.io kind) : Except Error α) := by
  simp [Ordinary, unreconcilable]

/-- The loop over the staged entries flushes each of them. -/
theorem sync_entries_spec {loc : Loc} (hguar : ∀ a b, Synced a b → guar a b)
    (entries : List (RelPath × FileKind)) (s : Cache) :
    Spec faults guar (syncEntries loc entries)
      (fun result s' => Synced s s' ∧ Ordinary result ∧
        (result = .ok () → ∀ item ∈ entries, (loc, item.1) ∈ s'.durable)) s := by
  induction entries generalizing s with
  | nil => exact spec_pure ⟨.refl s, by simp, by simp⟩
  | cons item rest ih =>
      obtain ⟨path, kind⟩ := item
      have hsync : Spec faults guar (fs (.syncEntry loc path))
          (Program.andThen (fun result s' => Synced s s' ∧ Ordinary result ∧
              (result = .ok () → ∀ item ∈ (path, kind) :: rest, (loc, item.1) ∈ s'.durable))
            fun _ => Spec faults guar (syncEntries loc rest) fun result s' =>
              Synced s s' ∧ Ordinary result ∧
                (result = .ok () → ∀ item ∈ (path, kind) :: rest, (loc, item.1) ∈
                  s'.durable)) s := by
        have hflush : Synced s { s with durable := (loc, path) :: s.durable } :=
          ⟨_, List.subset_cons_self _ _, rfl⟩
        refine spec_fs (hguar s s (.refl s)) (fun _ => ⟨.refl s, by simp, by simp⟩) ?_ ?_
        · intro choice _
          simp only [Cache.perform]
          split
          · refine ⟨hguar _ _ hflush, (ih _).imp fun result s' h => ?_⟩
            refine ⟨hflush.trans h.1, h.2.1, fun hok item hitem => ?_⟩
            rcases List.mem_cons.mp hitem with rfl | hrest
            · obtain ⟨d, hd, rfl⟩ := h.1
              exact hd (by simp)
            · exact h.2.2 hok item hrest
          · exact ⟨hguar _ _ (.refl s), .refl s, by simp, by simp⟩
        · intro _ choice _
          simp only [Cache.perform]
          split
          · exact ⟨hflush, by simp, by simp⟩
          · exact ⟨.refl s, by simp, by simp⟩
      refine spec_bind ?_
      cases kind with
      | dir | file => exact hsync
      | link | special =>
          exact spec_throw ⟨.refl s, by simp [Ordinary, unreconcilable], by simp⟩

/-- A listing names every path. -/
theorem mem_listing_iff {tree : Tree} {path : RelPath} :
    path ∈ tree.listing.map Prod.fst ↔ path ∈ tree.entries.keys := by
  simp [Tree.listing, AList.keys, List.keys]

/-- The result of flushing a staged tree. -/
def TreeFlushed (loc : Loc) (s : Cache) (result : Except Error Unit) (s' : Cache) : Prop :=
  Synced s s' ∧ Ordinary result ∧
    (result = .ok () → ∃ tree, s.entry loc = some (.dir tree) ∧ AllDurable s' loc tree)

theorem TreeFlushed.error {loc : Loc} {s s' : Cache} {error : Error} (h : Synced s s')
    (herror : Ordinary (.error error : Except Error Unit)) :
    TreeFlushed loc s (.error error) s' :=
  ⟨h, herror, by simp⟩

/-- `sync_staged_tree_with_operations` only flushes, and leaves everything flushed. -/
theorem sync_staged_tree_spec {loc : Loc} (hguar : ∀ a b, Synced a b → guar a b) (s : Cache) :
    Spec faults guar (syncStagedTree loc) (TreeFlushed loc s) s := by
  have hio : ∀ {a : Cache}, Synced s a → ¬ Lucky faults → ∀ kind,
      TreeFlushed loc s (.error (.io kind)) a :=
    fun ha _ kind => .error ha (by simp)
  have hbad : ∀ {message : String}, message ≠ "repair transaction cannot be reconciled safely" →
      TreeFlushed loc s (.error (.invalid message)) s :=
    fun hmessage => .error (.refl s) (by simpa [Ordinary, unreconcilable] using hmessage)
  refine spec_bind (spec_bind (spec_symlink_metadata (hguar s s (.refl s))
    (fun hbad => hio (.refl s) hbad _) (fun _ => .error (.refl s) (by simp))
      fun found hfound => ?_))
  refine spec_fail_if (fun _ => hbad (by simp)) fun _ => ?_
  refine spec_bind (spec_symlink_metadata (hguar s s (.refl s))
    (fun hbad => hio (.refl s) hbad _) (fun _ => .error (.refl s) (by simp)) fun found hfound => ?_)
  refine spec_bind (spec_fail_if (fun _ => hbad (by simp)) fun hdir => ?_)
  obtain ⟨tree, rfl⟩ : ∃ tree, found = .dir tree := by
    cases found with
    | dir tree => exact ⟨tree, rfl⟩
    | file | link | special => simp [Entry.kind] at hdir
  have htree : s.tree loc = some tree := by simp [Cache.tree, hfound]
  have hperform : ∀ choice, s.perform choice (.readTree loc) = (.ok tree.listing, s) := by
    intro choice
    simp [Cache.perform, htree]
  refine spec_bind (spec_query (fun choice => by rw [hperform]) (hguar s s (.refl s))
    (fun hbad => hio (.refl s) hbad _) fun choice => ?_)
  rw [hperform]
  refine spec_bind ((sync_entries_spec hguar _ s).imp fun result a ha => ?_)
  cases result with
  | error error => exact .error ha.1 ha.2.1
  | ok =>
      refine spec_bind (spec_sync_dir hguar ?_ ?_)
      · intro b hb _ kind
        exact .error (ha.1.trans hb) (by simp)
      intro b hb hroot
      have hsynced := ha.1.trans hb
      refine spec_bind (spec_idle (fun _ => rfl) rfl hguar (hio hsynced) ?_)
      refine spec_idle (fun _ => rfl) rfl hguar (hio hsynced) ⟨hsynced, ordinary_ok (), fun _ => ?_⟩
      refine ⟨tree, hfound, hroot, fun path hpath => ?_⟩
      obtain ⟨item, hitem, rfl⟩ := List.mem_map.mp (mem_listing_iff.mpr hpath)
      obtain ⟨d, hd, rfl⟩ := hb
      exact hd (ha.2.2 rfl item (by simpa [postOrder] using hitem))

/-- The result of a promotion. -/
def Promoted (key : String) (s : Cache) (result : Except Error Unit) (s' : Cache) : Prop :=
  (result = .error unreconcilable → settled s key = none) ∧
    (result = .ok () → s'.marker key = none)

theorem Promoted.error {s s' : Cache} {error : Error} (h : error ≠ unreconcilable) :
    Promoted key s (.error error) s' :=
  ⟨fun heq => absurd (Except.error.inj heq) h, by simp⟩

section Promotion

variable {ready : Tree → Prop} {start : Cache}

theorem promotion_flush (a b : Cache) (h : Synced a b) : Promotion ready key a b :=
  .repair (.flush h)

theorem promoted_io {s' : Cache} (_ : ¬ Lucky faults) (kind : IoError) :
    Promoted key start (.error (.io kind)) s' :=
  .error (by simp [unreconcilable])

/-- Writing the marker. -/
theorem begin_transaction_spec {s : Cache} {tree : Tree} {post : Unit → Cache → Prop}
    (hfinal : (s.entry (.models key)).isSome)
    (hstaging : s.entry (.staging key) = some (.dir tree)) (hready : ready tree)
    (hdurable : AllDurable s (.staging key) tree)
    (hpost : ∀ s', s'.marker key = some .file → (∀ loc, s'.entry loc = s.entry loc) →
      s.entry (.backup key) = none → post () s') :
    Spec faults (Promotion ready key) (beginTransaction key)
      (Program.andThen (Promoted key start) post) s := by
  have hclean : Promoted key start (.error (.invalid "repair transaction state is not clean")) s :=
    .error (by simp [unreconcilable])
  refine spec_bind (spec_bind (spec_idle (fun _ => rfl) rfl promotion_flush promoted_io ?_))
  simp only [Cache.perform]
  obtain ⟨final, hfinal'⟩ := Option.isSome_iff_exists.mp hfinal
  rw [hfinal']
  cases final with
  | link => exact spec_throw (.error (by simp [unreconcilable]))
  | dir | file | special =>
      refine spec_pure ?_
      refine spec_bind (spec_idle (fun _ => rfl) rfl promotion_flush promoted_io ?_)
      refine spec_bind (spec_idle (fun _ => rfl) rfl promotion_flush promoted_io ?_)
      refine spec_bind (spec_idle (fun _ => rfl) rfl promotion_flush promoted_io ?_)
      refine spec_bind (spec_fail_if (fun _ => hclean) fun hbackup => ?_)
      refine spec_bind (spec_idle (fun _ => rfl) rfl promotion_flush promoted_io ?_)
      refine spec_bind (spec_fail_if (fun _ => hclean) fun hmarker => ?_)
      replace hbackup : s.entry (.backup key) = none := by simpa using hbackup
      replace hmarker : s.marker key = none := by simpa using hmarker
      have hmark : Promotion ready key s { s with
          marker := Function.update s.marker key (some .file)
          prepared := Function.update s.prepared key (s.entry (.staging key)) } :=
        .mark hmarker hfinal hbackup hstaging hready hdurable rfl
      refine spec_bind (spec_fs (promotion_flush s s (.refl s)) (fun h => promoted_io h _) ?_ ?_)
      · intro choice _
        simp only [Cache.perform, hmarker, Option.isNone_none, if_true]
        refine ⟨hmark, ?_⟩
        refine spec_bind (spec_idle (fun _ => rfl) (by simp [Cache.perform, Cache.require])
          promotion_flush promoted_io ?_)
        simp only [Cache.perform, Cache.require, Function.update_self, Option.isSome_some, if_true]
        refine spec_bind (spec_idle (fun _ => rfl) rfl promotion_flush promoted_io ?_)
        refine spec_idle (fun _ => rfl) rfl promotion_flush promoted_io ?_
        exact hpost _ (by simp) (fun _ => rfl) hbackup
      · intro h choice _
        exact promoted_io h _

/-- Closing a transaction that was rolled back. -/
theorem abandon_transaction_spec {s : Cache} {error : Error} (hmarker : s.marker key = some .file)
    (hbackup : (s.entry (.models key)).isSome → s.entry (.backup key) = none)
    (herror : error ≠ unreconcilable) :
    Spec faults (Promotion ready key) (abandonTransaction key error) (Promoted key start) s := by
  refine spec_bind (verify_transaction_final_spec promotion_flush ?_ ?_)
  · exact fun other hother _ => .error hother
  intro tree htree
  refine spec_bind (close_transaction_spec promotion_flush hmarker ?_ ?_ ?_)
  · exact .repair (.close hmarker (by simp [htree]) (hbackup (by simp [htree])) (by simp) rfl)
  · exact fun hbad kind => ⟨promoted_io hbad kind, promoted_io hbad kind⟩
  · exact spec_throw (.error herror)

/-- Moving the backup back. -/
theorem rollback_spec {s : Cache} (hmarker : s.marker key = some .file)
    (hdisplaced : s.entry (.models key) = none ∨ s.entry (.staging key) = none) :
    Spec faults (Promotion ready key) (do
      match ← attempt (durableRename (.backup key) (.models key)) with
      | .error _ => invalid "repair promotion was interrupted and requires reconciliation"
      | .ok () =>
          abandonTransaction key
            (.invalid "replacement promotion failed; the previous model was restored"))
      (Promoted key start) s := by
  have hgiveup : ∀ {a : Cache}, Spec faults (Promotion ready key)
      (invalid "repair promotion was interrupted and requires reconciliation")
      (Promoted key start) a :=
    spec_throw (.error (by simp [unreconcilable]))
  refine spec_bind (spec_attempt (durable_rename_spec promotion_flush ?_ ?_))
  · exact fun a ha _ kind => hgiveup
  · intro a s' ha hrename
    have hmarker' : a.marker key = some .file := by rw [ha.marker, hmarker]
    have hdisplaced' : a.entry (.models key) = none ∨ a.entry (.staging key) = none := by
      rwa [ha.entry, ha.entry]
    refine ⟨.rollback hmarker' hdisplaced' hrename, fun b hb => ⟨fun _ kind => hgiveup, ?_⟩⟩
    refine abandon_transaction_spec ?_ (fun _ => ?_) (by simp [unreconcilable])
    · rw [hb.marker, Cache.rename_marker hrename, hmarker']
    · simp [hb.entry, Cache.rename_entry hrename]

/-- Promoting the staged tree once the previous one is displaced. -/
theorem promote_displaced_spec {s : Cache} (hmarker : s.marker key = some .file)
    (hfinal : s.entry (.models key) = none) (hbackup : (s.entry (.backup key)).isSome) :
    Spec faults (Promotion ready key) (promoteDisplaced store key) (Promoted key start) s := by
  refine spec_bind (spec_idle (fun _ => rfl) rfl promotion_flush promoted_io ?_)
  refine spec_bind (spec_attempt (durable_rename_spec promotion_flush ?_ ?_))
  · exact fun a ha _ kind => rollback_spec (by rw [ha.marker, hmarker])
      (Or.inl (by rw [ha.entry, hfinal]))
  intro a s' ha hrename
  have hmarker' : a.marker key = some .file := by rw [ha.marker, hmarker]
  have hmove := Cache.rename_entry hrename
  refine ⟨.repair (.replace hmarker' (by rw [ha.entry, hfinal]) (by rw [ha.entry]; exact hbackup)
    hrename), fun b hb => ?_⟩
  have hbm : b.marker key = some .file := by
    rw [hb.marker, Cache.rename_marker hrename, hmarker']
  refine ⟨fun _ kind => rollback_spec hbm (Or.inr (by simp [hb.entry, hmove])), ?_⟩
  refine spec_bind (verify_transaction_final_spec promotion_flush ?_ ?_)
  · exact fun other hother _ => .error hother
  intro tree htree
  refine spec_bind (spec_idle (fun _ => rfl) rfl promotion_flush promoted_io ?_)
  -- Closing once there is no backup.
  have hclose : ∀ c : Cache, c.marker key = some .file → (c.entry (.models key)).isSome →
      c.entry (.backup key) = none →
      Spec faults (Promotion ready key) (closeTransaction key) (Promoted key start) c := by
    intro c hcm hcf hcb
    refine close_transaction_spec promotion_flush hcm (.repair (.close hcm hcf hcb (by simp) rfl))
      (fun hbad kind => ⟨promoted_io hbad kind, promoted_io hbad kind⟩) ⟨by simp, by simp⟩
  refine spec_bind (quarantine_backup_spec promotion_flush ?_ ?_ ?_)
  · exact fun hbad a ha kind => promoted_io hbad kind
  · exact fun hnone => hclose b hbm (by simp [htree]) hnone
  intro sequence c t hc hfree hquarantine
  have hfinal' : (c.entry (.models key)).isSome := by simp [hc.entry, htree]
  have hcm : c.marker key = some .file := by rw [hc.marker, hbm]
  refine ⟨.repair (.quarantine hcm hfinal' (by simp) hfree hquarantine), fun d hd =>
    ⟨promoted_io, hclose d ?_ ?_ ?_⟩⟩
  · rw [hd.marker, Cache.rename_marker hquarantine, hcm]
  · simpa [hd.entry, Cache.rename_entry hquarantine] using hfinal'
  · simp [hd.entry, Cache.rename_entry hquarantine]

/-- Replacing an installed tree by a flushed staged one. -/
theorem replace_previous_spec {s : Cache} {tree : Tree} (hfinal : (s.entry (.models key)).isSome)
    (hstaging : s.entry (.staging key) = some (.dir tree)) (hready : ready tree)
    (hdurable : AllDurable s (.staging key) tree) :
    Spec faults (Promotion ready key) (replacePrevious store key) (Promoted key start) s := by
  refine spec_bind (begin_transaction_spec hfinal hstaging hready hdurable ?_)
  intro s' hmarker hentry hbackup
  refine spec_bind (spec_attempt (durable_rename_spec promotion_flush ?_ ?_))
  · intro a ha _ kind
    refine abandon_transaction_spec (by rw [ha.marker, hmarker]) (fun _ => ?_)
      (by simp [unreconcilable])
    rw [ha.entry, hentry, hbackup]
  · intro a t ha hrename
    have hmarker' : a.marker key = some .file := by rw [ha.marker, hmarker]
    have hmove := Cache.rename_entry hrename
    refine ⟨.repair (.displace hmarker' ?_ ?_ hrename), fun b hb => ?_⟩
    · simp [ha.entry, hentry, hstaging]
    · rw [ha.entry, hentry, hbackup]
    have hbm : b.marker key = some .file := by
      rw [hb.marker, Cache.rename_marker hrename, hmarker']
    have hbf : b.entry (.models key) = none := by simp [hb.entry, hmove]
    refine ⟨fun _ kind => abandon_transaction_spec hbm (by simp [hbf]) (by simp [unreconcilable]),
      promote_displaced_spec hbm hbf ?_⟩
    simpa [hb.entry, hmove, ha.entry, hentry] using hfinal

/-- A recovery leaves the staged tree where it is or moves it away. -/
theorem repair_staging {exact : Prop} {s s' : Cache}
    (h : Transition.Run (Repair exact key) s s') :
    s'.entry (.staging key) = none ∨ s'.entry (.staging key) = s.entry (.staging key) := by
  induction h with
  | refl => exact Or.inr rfl
  | tail _ hstep ih =>
      cases hstep with
      | flush h => rwa [h.entry]
      | displace _ _ _ h => simpa [Cache.rename_entry h] using ih
      | replace _ _ _ h => exact Or.inl (by simp [Cache.rename_entry h])
      | restore _ _ _ h => simpa [Cache.rename_entry h] using ih
      | quarantine _ _ _ _ h => simpa [Cache.rename_entry h] using ih
      | close _ _ _ _ h => subst h; exact ih

/-- `promote_with_operations` takes only steps of a promotion. -/
theorem promote_spec {s : Cache}
    (hready : ∀ tree, s.entry (.staging key) = some (.dir tree) → ready tree) :
    Spec faults (Promotion ready key) (promote store key) (Promoted key s) s := by
  have hreconcile : Spec faults (Repair False key) (reconcileRepair store key)
      (Reconciled faults key s) s := reconcile_repair_spec (by simp)
  refine spec_bind (hreconcile.run.mono (fun _ _ h => .repair h) ?_)
  rintro result a ⟨hrun, hrec⟩
  cases result with
  | error error => exact ⟨hrec.stuck, by simp⟩
  | ok =>
      have hmarker : a.marker key = none := hrec.marker rfl
      refine spec_bind ((sync_staged_tree_spec promotion_flush a).imp fun result b hb => ?_)
      cases result with
      | error error => exact .error fun heq => hb.2.1 (by rw [heq])
      | ok =>
          obtain ⟨hsynced, -, hflushed⟩ := hb
          obtain ⟨tree, htree, hdurable⟩ := hflushed rfl
          have hbs : b.entry (.staging key) = some (.dir tree) := by rw [hsynced.entry, htree]
          have hbm : b.marker key = none := by rw [hsynced.marker, hmarker]
          refine spec_bind (spec_idle (fun _ => rfl) rfl promotion_flush promoted_io ?_)
          simp only [Cache.perform]
          cases hfinal : b.entry (.models key) with
          | none =>
              refine durable_rename_spec promotion_flush ?_ ?_
              · exact fun c hc _ kind => .error (by simp [unreconcilable])
              · intro c t hc hrename
                refine ⟨.publish (by rw [hc.marker, hbm]) (by rw [hc.entry, hfinal]) hrename,
                  fun d hd => ⟨promoted_io, by simp, fun _ => ?_⟩⟩
                rw [hd.marker, Cache.rename_marker hrename, hc.marker, hbm]
          | some final =>
              refine replace_previous_spec (by simp [hfinal]) hbs (hready tree ?_) hdurable
              rcases repair_staging hrun with hnone | hsame
              · rw [hnone] at htree; cases htree
              · rw [← hsame, htree]

end Promotion

end EmbeddingServer
