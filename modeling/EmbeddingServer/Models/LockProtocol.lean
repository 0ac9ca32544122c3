import EmbeddingServer.Models.Locality
import EmbeddingServer.Models.Verification
import Mathlib.Data.List.Pairwise

/-!
# The lock protocol

What calls that run at the same time may rely on and what each of them guarantees. A call
that holds a handle of the lock file, shared or exclusive, relies on the others to leave the
installed tree and the marker alone, except for directories a verification may create; and
every call guarantees to touch them otherwise only while it holds an exclusive handle. That
the guarantee of one call is what the others rely on is the compatibility of the handles.
-/

namespace EmbeddingServer

/-- The handles a call holds. -/
def own (task : Nat) (s : Cache) : List Lock :=
  s.locks.filter fun lock => lock.owner = task

/-- The lock table of the operating system: an exclusive handle is alone, and handles are told
apart. -/
structure LockTable (s : Cache) : Prop where
  compatible : s.locks.Pairwise fun left right =>
    left.key = right.key → left.exclusive = false ∧ right.exclusive = false
  distinct : s.locks.Pairwise fun left right => left.key = right.key → left.handle ≠ right.handle
  fresh : ∀ lock ∈ s.locks, lock.handle < s.nextHandle lock.key

/-- The marker is as before, and so is the installed tree, except for missing directories. -/
structure Spared (key : String) (dirs : List RelPath) (s s' : Cache) : Prop where
  marker : s'.marker key = s.marker key
  kept : Kept (.models key) s s'
  entry : Directories (.models key) dirs s → s'.entry (.models key) = s.entry (.models key)

theorem Spared.refl (key : String) (dirs : List RelPath) (s : Cache) : Spared key dirs s s :=
  ⟨rfl, .refl _ s, fun _ => rfl⟩

theorem Spared.trans {key : String} {dirs : List RelPath} {a b c : Cache}
    (hab : Spared key dirs a b) (hbc : Spared key dirs b c) : Spared key dirs a c where
  marker := hbc.marker.trans hab.marker
  kept := hab.kept.trans hbc.kept
  entry h := (hbc.entry (h.kept hab.kept)).trans (hab.entry h)

/-- What a call relies on. -/
def Rely (key : String) (dirs : List RelPath) (task : Nat) (s s' : Cache) : Prop :=
  own task s' = own task s ∧
    (LockTable s → LockTable s' ∧ ((∃ lock ∈ own task s, lock.key = key) → Spared key dirs s s'))

/-- What a call guarantees. -/
def Guar (key : String) (dirs : List RelPath) (task : Nat) (s s' : Cache) : Prop :=
  (∀ other, other ≠ task → own other s' = own other s) ∧
  (LockTable s → LockTable s') ∧ Framed key s s' ∧
  ((∃ lock ∈ own task s, lock.key = key ∧ lock.exclusive = true) ∨
    Spared key dirs s s' ∧ s'.renames = s.renames)

section Protocol

variable {key : String} {dirs : List RelPath} {task : Nat} {s s' : Cache}

theorem mem_own {lock : Lock} : lock ∈ own task s ↔ lock ∈ s.locks ∧ lock.owner = task := by
  simp [own]

/-- Two handles of one key are shared, unless they are the same. -/
theorem LockTable.shared (h : LockTable s) {left right : Lock} (hleft : left ∈ s.locks)
    (hright : right ∈ s.locks) (hne : left ≠ right) (hkey : left.key = right.key) :
    left.exclusive = false := by
  have hsymm : Std.Symm fun a b : Lock =>
      a.key = b.key → a.exclusive = false ∧ b.exclusive = false :=
    ⟨fun a b hab hba => (hab hba.symm).symm⟩
  exact (h.compatible.forall hleft hright hne hkey).1

theorem rely_refl (key : String) (dirs : List RelPath) (task : Nat) (s : Cache) :
    Rely key dirs task s s :=
  ⟨rfl, fun h => ⟨h, fun _ => .refl key dirs s⟩⟩

theorem rely_trans (a b c : Cache) (hab : Rely key dirs task a b) (hbc : Rely key dirs task b c) :
    Rely key dirs task a c := by
  refine ⟨hbc.1.trans hab.1, fun h => ?_⟩
  obtain ⟨hb, hspared⟩ := hab.2 h
  obtain ⟨hc, hspared'⟩ := hbc.2 hb
  exact ⟨hc, fun hheld => (hspared hheld).trans (hspared' (by rwa [hab.1]))⟩

theorem guar_refl (key : String) (dirs : List RelPath) (task : Nat) (s : Cache) :
    Guar key dirs task s s :=
  ⟨fun _ _ => rfl, id, .refl key s, Or.inr ⟨.refl key dirs s, rfl⟩⟩

/-- What one call guarantees is what the others rely on. -/
theorem Guar.rely {other : Nat} (h : Guar key dirs task s s') (hother : other ≠ task) :
    Rely key dirs other s s' := by
  obtain ⟨howns, htable, -, hwrites⟩ := h
  refine ⟨howns other hother, fun hs => ⟨htable hs, ?_⟩⟩
  rintro ⟨held, hheld, hkey⟩
  rcases hwrites with ⟨lock, hlock, hlockkey, hexclusive⟩ | ⟨hspared, -⟩
  · -- An exclusive handle next to another one.
    rw [mem_own] at hheld hlock
    have hne : lock ≠ held := by
      rintro rfl
      exact hother (hheld.2.symm.trans hlock.2)
    have := hs.shared hlock.1 hheld.1 hne (hlockkey.trans hkey.symm)
    simp [hexclusive] at this
  · exact hspared

end Protocol

/-! ## Primitives -/

/-- The lock table has not changed. -/
def SameLocks (s s' : Cache) : Prop :=
  s'.locks = s.locks ∧ s'.nextHandle = s.nextHandle

namespace Cache

theorem add_node_same_locks (s : Cache) (loc : Loc) (path : RelPath) (node : Node) :
    SameLocks s (s.addNode loc path node).2 := by
  unfold addNode
  split
  · exact ⟨rfl, rfl⟩
  · split
    · exact ⟨rfl, rfl⟩
    · split <;> exact ⟨rfl, rfl⟩

theorem perform_same_locks {op : FsOp} (h : op.LockFree) (s : Cache) (choice : Choice) :
    SameLocks s (s.perform choice op).2 := by
  cases op with
  | tryLock | unlock => exact h.elim
  | makeDir loc path => exact add_node_same_locks s loc path .dir
  | createFile loc path => exact add_node_same_locks s loc path (.file [])
  | listRemoval loc =>
      simp only [perform]
      split
      · split <;> exact ⟨rfl, rfl⟩
      · exact ⟨rfl, rfl⟩
  | rename src dst =>
      simp only [perform]
      split
      · rename_i s' hrename
        obtain ⟨moved, -, -, rfl⟩ := rename_eq_some hrename
        exact ⟨rfl, rfl⟩
      · exact ⟨rfl, rfl⟩
  | syncMarker key =>
      simp only [perform, require]
      split <;> exact ⟨rfl, rfl⟩
  | unlink loc path =>
      simp only [perform]
      split
      · exact ⟨rfl, rfl⟩
      · split
        · exact ⟨rfl, rfl⟩
        · split <;> exact ⟨rfl, rfl⟩
  | removeDir loc =>
      simp only [perform]
      split
      · exact ⟨rfl, rfl⟩
      · split <;> exact ⟨rfl, rfl⟩
  | syncDir | syncEntry | createMarker | removeMarker | quarantineCandidate | readTree | createDir
  | openDir | append | openFile | read =>
      simp only [perform]
      split <;> exact ⟨rfl, rfl⟩
  | observe | metadata | markerMetadata | createRoot | syncRoot | fileMetadata | openLock
  | poll | inspectSource | openSource | readSource | beginCommit | httpGet | httpChunk =>
      exact ⟨rfl, rfl⟩

end Cache

theorem respond_same_locks {op : FsOp} (h : op.LockFree) (choice : Choice) (s : Cache) :
    SameLocks s (respond choice s op).2 :=
  @respond_state (SameLocks s) choice s op ⟨rfl, rfl⟩ (s.perform_same_locks h choice)

theorem SameLocks.own {s s' : Cache} (h : SameLocks s s') (task : Nat) :
    own task s' = own task s := by
  simp [EmbeddingServer.own, h.1]

theorem SameLocks.lock_table {s s' : Cache} (h : SameLocks s s') (hs : LockTable s) :
    LockTable s' where
  compatible := by rw [h.1]; exact hs.compatible
  distinct := by rw [h.1]; exact hs.distinct
  fresh := by rw [h.1, h.2]; exact hs.fresh

/-- Looking at an identity without its lock. -/
def FsOp.Peeks (key : String) (dirs : List RelPath) : FsOp → Prop
  | .markerMetadata k => k = key
  | .createRoot _ => True
  | .openLock k => k = key
  | op => op.Inspects (.models key) dirs

theorem FsOp.Inspects.peeks {key : String} {dirs : List RelPath} {op : FsOp}
    (h : op.Inspects (.models key) dirs) : op.Peeks key dirs := by
  cases op <;> first | exact h.elim | exact h

/-- A verification creates no directory if all of them are there. -/
theorem Grown.entry {loc : Loc} {dirs : List RelPath} {s s' : Cache} (h : Grown loc dirs s s')
    (hdirs : Directories loc dirs s) : s'.entry loc = s.entry loc := by
  rcases h with hsame | ⟨tree, path, htree, hfree, hpath, -⟩
  · exact hsame
  · simp [hdirs path hpath] at hfree

theorem respond_spared {key : String} {dirs : List RelPath} {op : FsOp} (h : op.Peeks key dirs)
    (choice : Choice) (s : Cache) :
    Spared key dirs s (respond choice s op).2 ∧ (respond choice s op).2.renames = s.renames := by
  have hidle : op.Inspects (.models key) dirs ∨ (respond choice s op).2 = s := by
    cases op with
    | markerMetadata | createRoot | openLock =>
        exact Or.inr (@respond_state (· = s) choice s _ rfl rfl)
    | _ => exact Or.inl h
  rcases hidle with hinspects | hsame
  · have hedited := respond_edited hinspects.confined choice s
    exact ⟨⟨by rw [hedited.marker], respond_kept hinspects.builds choice s,
      (respond_grown hinspects choice s).entry⟩, hedited.renames⟩
  · rw [hsame]
    exact ⟨.refl key dirs s, rfl⟩

theorem FsOp.Peeks.is_local {key : String} {dirs : List RelPath} {op : FsOp}
    (h : op.Peeks key dirs) : op.Local key := by
  have hinspects : op.Inspects (.models key) dirs → op.Local key := fun h => h.confined.transacts.1
  cases op with
  | markerMetadata | createRoot | openLock => exact h
  | _ => exact hinspects h

theorem FsOp.Peeks.lock_free {key : String} {dirs : List RelPath} {op : FsOp}
    (h : op.Peeks key dirs) : op.LockFree := by
  cases op <;> first | exact h.elim | trivial

/-! ## Calls -/

/-- The lock table is in order and the call holds these handles. -/
def Holds (task : Nat) (held : List Lock) (s : Cache) : Prop :=
  LockTable s ∧ own task s = held

/-- An exclusive handle of the key is among them. -/
def HasExclusive (key : String) (held : List Lock) : Prop :=
  ∃ lock ∈ held, lock.key = key ∧ lock.exclusive = true

section Calls

variable {key : String} {dirs : List RelPath} {task : Nat} {held : List Lock} {s s' : Cache}
  {α β : Type}

theorem Holds.rely (h : Holds task held s) (hrely : Rely key dirs task s s') :
    Holds task held s' :=
  ⟨(hrely.2 h.1).1, hrely.1.trans h.2⟩

/-- A specification of a call under the protocol. -/
abbrev Guarded (key : String) (dirs : List RelPath) (task : Nat) (body : StoreM α)
    (post : Except Error α → Cache → Prop) (s : Cache) : Prop :=
  Program.wpE respond Set.univ (Rely key dirs task) (Guar key dirs task) body post s

theorem guarded_bind {body : StoreM α} {rest : α → StoreM β} {post : Except Error β → Cache → Prop}
    (h : Guarded key dirs task body
      (Program.andThen post fun value => Guarded key dirs task (rest value) post) s) :
    Guarded key dirs task (body >>= rest) post s :=
  Program.wp_e_bind (rely_refl key dirs task) h

theorem guarded_attempt {body : StoreM α} {post : Except Error (Except Error α) → Cache → Prop}
    (h : Guarded key dirs task body (fun result s' => post (.ok result) s') s) :
    Guarded key dirs task (attempt body) post s :=
  Program.wp_map h

/-- Code that gives back all handles it takes, when it starts with handles as needed. -/
def Balanced (key : String) (dirs : List RelPath) (task : Nat) (need : List Lock → Prop)
    (body : StoreM α) : Prop :=
  ∀ held s, need held → Holds task held s →
    Guarded key dirs task body (fun _ s' => Holds task held s') s

variable {need : List Lock → Prop}

/-- Looking needs no lock. -/
theorem Only.balanced {body : StoreM α} (h : Only (FsOp.Peeks key dirs) body) :
    Balanced key dirs task need body := by
  intro held s _ hs
  refine Program.wp_of_all h (fun _ _ hrely hinv => hinv.rely hrely) ?_ hs
  intro op hop choice _ a ha
  have hlocks := respond_same_locks hop.lock_free choice a
  exact ⟨⟨fun other _ => hlocks.own other, hlocks.lock_table, respond_framed hop.is_local choice a,
    Or.inr (respond_spared hop choice a)⟩, hlocks.lock_table ha.1, (hlocks.own task).trans ha.2⟩

/-- Under an exclusive handle anything may be done that touches no lock. -/
theorem Only.balanced_exclusive {body : StoreM α} (h : Only (FsOp.Transacts key) body) :
    Balanced key dirs task (HasExclusive key) body := by
  intro held s hneed hs
  refine Program.wp_of_all h (fun _ _ hrely hinv => hinv.rely hrely) ?_ hs
  intro op hop choice _ a ha
  have hlocks := respond_same_locks hop.2 choice a
  refine ⟨⟨fun other _ => hlocks.own other, hlocks.lock_table, respond_framed hop.1 choice a,
    Or.inl ?_⟩, hlocks.lock_table ha.1, (hlocks.own task).trans ha.2⟩
  rw [ha.2]
  exact hneed

theorem Balanced.bind {body : StoreM α} {rest : α → StoreM β}
    (h : Balanced key dirs task need body)
    (hrest : ∀ value, Balanced key dirs task need (rest value)) :
    Balanced key dirs task need (body >>= rest) := by
  intro held s hneed hs
  refine guarded_bind (Program.wpE.imp (h held s hneed hs) fun result a ha => ?_)
  cases result with
  | error error => exact ha
  | ok value => exact hrest value held a hneed ha

theorem Balanced.attempt {body : StoreM α} (h : Balanced key dirs task need body) :
    Balanced key dirs task need (attempt body) :=
  fun held s hneed hs => guarded_attempt (h held s hneed hs)

theorem balanced_pure (value : α) : Balanced key dirs task need (pure value) :=
  Only.balanced (only_pure value)

theorem balanced_throw (error : Error) : Balanced key dirs task need (throw error : StoreM α) :=
  Only.balanced (only_throw error)

theorem balanced_lift (result : Except Error α) : Balanced key dirs task need (lift result) :=
  Only.balanced (only_lift result)

theorem balanced_fail_if (condition : Prop) [Decidable condition] (error : Error) :
    Balanced key dirs task need (failIf condition error) :=
  Only.balanced (only_fail_if condition error)

/-! ## Taking and dropping a handle -/

/-- The handles after an attempt to take one. -/
def Acquired (key : String) (task : Nat) (exclusive : Bool) (held : List Lock) :
    Except Error Nat → Cache → Prop
  | .ok handle, s => Holds task (⟨handle, task, key, exclusive⟩ :: held) s
  | .error _, s => Holds task held s

/-- Code that takes a handle or fails with the handles it had. -/
def Acquires (key : String) (dirs : List RelPath) (task : Nat) (exclusive : Bool)
    (body : StoreM Nat) : Prop :=
  ∀ held s, Holds task held s → Guarded key dirs task body (Acquired key task exclusive held) s

/-- A new handle of the table. -/
theorem LockTable.grant (h : LockTable s) {exclusive : Bool}
    (hfree : s.lockable key exclusive = true) :
    LockTable { s with
      locks := ⟨s.nextHandle key, task, key, exclusive⟩ :: s.locks
      nextHandle := Function.update s.nextHandle key (s.nextHandle key + 1) } := by
  have hfree : ∀ lock ∈ s.locks, key = lock.key → exclusive = false ∧ lock.exclusive = false := by
    intro lock hlock hkey
    have := List.all_eq_true.mp hfree lock hlock
    simpa [hkey] using this
  refine ⟨List.pairwise_cons.mpr ⟨hfree, h.compatible⟩,
    List.pairwise_cons.mpr ⟨fun lock hlock hkey => ?_, h.distinct⟩, fun lock hlock => ?_⟩
  · have := h.fresh lock hlock
    simp only at hkey ⊢
    rw [hkey]
    omega
  · rcases List.mem_cons.mp hlock with rfl | hlock
    · simp
    · have := h.fresh lock hlock
      simp only [Function.update_apply]
      split
      · rename_i hkey
        rw [hkey] at this
        omega
      · exact this

/-- An attempt to lock is refused without a trace or granted. -/
theorem respond_try_lock (key : String) (task : Nat) (exclusive : Bool) (choice : Choice)
    (s : Cache) :
    (∃ error, respond choice s (.tryLock task key exclusive) = (.error error, s)) ∨
    s.lockable key exclusive = true ∧
      respond choice s (.tryLock task key exclusive) = (.ok (s.nextHandle key), { s with
        locks := ⟨s.nextHandle key, task, key, exclusive⟩ :: s.locks
        nextHandle := Function.update s.nextHandle key (s.nextHandle key + 1) }) := by
  unfold respond
  split
  · exact Or.inl ⟨_, rfl⟩
  · exact Or.inl ⟨_, rfl⟩
  · simp only [Cache.perform]
    split
    · exact Or.inr ⟨‹_›, rfl⟩
    · exact Or.inl ⟨_, rfl⟩

theorem try_lock_spec (key : String) (dirs : List RelPath) (task : Nat) (exclusive : Bool) :
    Acquires key dirs task exclusive (fs (.tryLock task key exclusive)) := by
  intro held s hs a hrely choice _
  have ha := hs.rely hrely
  rcases respond_try_lock key task exclusive choice a with ⟨error, hreply⟩ | ⟨hfree, hreply⟩
  · rw [hreply]
    exact ⟨guar_refl key dirs task a, fun b hb => ha.rely hb⟩
  · rw [hreply]
    refine ⟨⟨fun other hother => ?_, fun h => h.grant hfree, ⟨fun _ _ => rfl, fun _ _ => rfl⟩,
      Or.inr ⟨⟨rfl, fun _ _ h => h, fun _ => rfl⟩, rfl⟩⟩, fun b hb =>
        Holds.rely ⟨ha.1.grant hfree, ?_⟩ hb⟩
    · simp [own, hother.symm]
    · simpa [own] using ha.2

theorem LockTable.sublist (h : LockTable s) {locks : List Lock}
    (hsub : List.Sublist locks s.locks) :
    LockTable { s with locks := locks } :=
  ⟨h.compatible.sublist hsub, h.distinct.sublist hsub,
    fun lock hlock => h.fresh lock (hsub.subset hlock)⟩

theorem LockTable.release (h : LockTable s) (key : String) (handle : Nat) :
    LockTable (s.release key handle) :=
  h.sublist List.filter_sublist

/-- A handle is the only one of its number. -/
theorem LockTable.unique (h : LockTable s) {left right : Lock} (hleft : left ∈ s.locks)
    (hright : right ∈ s.locks) (hkey : left.key = right.key)
    (hhandle : left.handle = right.handle) :
    left = right := by
  have hsymm : Std.Symm fun a b : Lock => a.key = b.key → a.handle ≠ b.handle :=
    ⟨fun a b hab hba => (hab hba.symm).symm⟩
  by_contra hne
  exact h.distinct.forall hleft hright hne hkey hhandle

/-- Dropping a handle takes it from the handles of its owner. -/
theorem own_release (h : LockTable s) {lock : Lock} (hown : own task s = lock :: held) :
    own task (s.release lock.key lock.handle) = held := by
  have hrest : own task (s.release lock.key lock.handle) =
      (own task s).filter fun other => other.key ≠ lock.key ∨ other.handle ≠ lock.handle := by
    simp only [Cache.release, own, List.filter_filter]
    exact List.filter_congr fun other _ => Bool.and_comm _ _
  have hsub : List.Sublist (own task s) s.locks := List.filter_sublist
  have hpairs := h.distinct.sublist hsub
  rw [hown] at hpairs
  have hothers : ∀ other ∈ held, other.key ≠ lock.key ∨ other.handle ≠ lock.handle := by
    intro other hother
    by_contra hboth
    push Not at hboth
    exact (List.pairwise_cons.mp hpairs).1 other hother hboth.1.symm hboth.2.symm
  rw [hrest, hown, List.filter_cons_of_neg (by simp), List.filter_eq_self]
  simpa using hothers

/-- Nobody else loses a handle. -/
theorem own_release_other (h : LockTable s) {lock : Lock} (hlock : lock ∈ own task s) {other : Nat}
    (hother : other ≠ task) : own other (s.release lock.key lock.handle) = own other s := by
  rw [mem_own] at hlock
  simp only [Cache.release, own, List.filter_filter]
  refine List.filter_congr fun candidate hcandidate => ?_
  by_cases howner : candidate.owner = other
  · have hdiffers : ¬ (candidate.key = lock.key ∧ candidate.handle = lock.handle) := by
      rintro ⟨hkey, hhandle⟩
      rw [h.unique hcandidate hlock.1 hkey hhandle] at howner
      exact hother (howner.symm.trans hlock.2)
    simp only [howner, decide_true, Bool.true_and, decide_eq_true_eq]
    tauto
  · simp [howner]

/-- Dropping a handle is within the protocol. -/
theorem guar_release (h : LockTable s) {lock : Lock} (hlock : lock ∈ own task s) :
    Guar key dirs task s (s.release lock.key lock.handle) :=
  ⟨fun _ hother => own_release_other h hlock hother, fun h => h.release _ _,
    ⟨fun _ _ => rfl, fun _ _ => rfl⟩, Or.inr ⟨⟨rfl, fun _ _ h => h, fun _ => rfl⟩, rfl⟩⟩

theorem unlock_spec {lock : Lock} (hs : Holds task (lock :: held) s) (hkey : lock.key = key) :
    Guarded key dirs task (fs (.unlock key lock.handle))
      (fun result s' => result = .ok () ∧ Holds task held s') s := by
  subst hkey
  intro a hrely choice _
  obtain ⟨htable, hown⟩ := hs.rely hrely
  have hreply : respond choice a (.unlock lock.key lock.handle) =
      (.ok (), a.release lock.key lock.handle) := by
    unfold respond
    cases choice.fault <;> rfl
  rw [hreply]
  refine ⟨guar_release htable (by simp [hown]), fun b hb => ⟨rfl, Holds.rely ⟨?_, ?_⟩ hb⟩⟩
  · exact htable.release _ _
  · exact own_release htable hown

/-- A handle is dropped whatever the result of the code under it. -/
theorem holding_guarded {handle : Nat} {body : StoreM α}
    (hbody : Balanced key dirs task (HasExclusive key) body)
    (hs : Holds task (⟨handle, task, key, true⟩ :: held) s) :
    Guarded key dirs task (holding key handle body) (fun _ s' => Holds task held s') s := by
  have hneed : HasExclusive key (⟨handle, task, key, true⟩ :: held) :=
    ⟨_, List.mem_cons_self, rfl, rfl⟩
  refine guarded_bind (guarded_attempt (Program.wpE.imp (hbody _ s hneed hs) fun result a ha => ?_))
  refine guarded_bind (Program.wpE.imp (unlock_spec ha rfl) ?_)
  rintro - b ⟨rfl, hb⟩
  exact @balanced_lift _ _ _ _ (fun _ => True) result held b trivial hb

/-- Code under an exclusive handle that is dropped at the end. -/
theorem Balanced.holding {acquire : StoreM Nat} {body : StoreM α}
    (hacquire : Acquires key dirs task true acquire)
    (hbody : Balanced key dirs task (HasExclusive key) body) :
    Balanced key dirs task need (acquire >>= fun handle => holding key handle body) := by
  intro held s _ hs
  refine guarded_bind (Program.wpE.imp (hacquire held s hs) fun result a ha => ?_)
  cases result with
  | error error => exact ha
  | ok handle => exact holding_guarded hbody ha

end Calls

end EmbeddingServer
