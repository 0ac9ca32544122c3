import EmbeddingServer.Server.PreloadView

/-!
# Rollback of a strict preload

The invariant of the preload machine in calm runs, by rely and guarantee: `Task.Sound` is what a
task knows of the shared state, and a step of another task keeps it if the step keeps what
`Guarantee` lists.

A run is calm if no embedding that has passed the gate comes to the registry while its model is
gated, the runtime does not begin to drain during a preload, a `load` that finds a shutdown finds
its model without leases, and a preload that never had the lock ends between the writes of others.
-/

namespace EmbeddingServer.Preload

/-! ## Calm runs -/

/-- The step does not cut across a preload. -/
def Calm (s : State) : Event → Prop
  | .preload => s.shared.draining = false
  | .unstarted => ∀ task kind pc, s.tasks task = .call kind pc → pc.midway = false
  | .registry id => s.shared.preloadPending id = false
  | .retract id => ∀ key, s.shared.models id = some key → s.shared.leases key = 0
  | .drain => ∀ task pc, s.tasks task = .call .preload pc → ∃ ending, pc = .ended ending
  | .quiet => True

/-- A calm step of some task. -/
def CalmStep (models : List String) (s s' : State) : Prop :=
  ∃ task event, Calm s event ∧ Step models task s event s'

/-! ## Program points -/

/-- The call holds the lifecycle lock. -/
def CallPc.holds : CallPc → Bool
  | .called | .waiting | .ended _ => false
  | _ => true

/-- The task holds the lifecycle lock. -/
def Task.holds : Task → Bool
  | .call _ pc => pc.holds
  | _ => false

/-- The transaction of the preload has committed. -/
def CallPc.pastCommit : CallPc → Bool
  | .committed _ | .leaving .succeeded | .ended .succeeded => true
  | _ => false

/-- The task is a preload that has committed. -/
def Task.pastCommit : Task → Bool
  | .call .preload pc => pc.pastCommit
  | _ => false

/-- The task has not had the lifecycle lock. -/
def Task.unstarted : Task → Bool
  | .absent | .call _ .called | .call _ .waiting => true
  | _ => false

/-- The slot whose engine the embedding uses. -/
def EmbedPc.key : EmbedPc → Option ModelKey
  | .found key | .accepted key | .leased key _ | .inferring key _ => some key
  | _ => none

/-- What is left to be unloaded was loaded. -/
def CallPc.WellFormed : CallPc → Prop
  | .rolling frame remaining _ => ∀ id ∈ remaining, id ∈ frame.newlyLoaded
  | _ => True

/-! ## The invariant -/

/-- What a task knows. -/
structure Task.Sound (models : List String) (s : Shared) (task : Nat) (t : Task) : Prop where
  lock : s.lifecycle = some task ↔ t.holds = true
  formed : ∀ kind pc, t = .call kind pc → pc.WellFormed
  /-- No embedding uses a slot that is not shown. -/
  embeds : ∀ id pc key, t = .embed id pc → pc.key = some key → key < s.nextKey ∧
    ∀ owner, s.origin key = some owner → s.committed owner = true
  committed : s.committed task = true → t.pastCommit = true
  fenced : s.draining = true → ∀ pc, t = .call .preload pc → ∃ ending, pc = .ended ending
  shutdowns : ∀ pc, t = .shutdown pc → pc ≠ .called → pc ≠ .fenced → s.draining = true
  held : s.draining = false → ∀ kind pc, t = .call kind pc → pc.holds = true →
    (pc.view models kind).Holds task s ∧ (kind = .preload → (pc.view models kind).Keeps task s)

/-- The invariant of calm runs. -/
structure Sound (models : List String) (s : State) : Prop where
  tasks : ∀ task, (s.tasks task).Sound models s.shared task
  keyed : s.shared.Keyed
  /-- A slot that a preload published is shown, or the preload is at work. -/
  origins : ∀ id key owner, s.shared.models id = some key → s.shared.origin key = some owner →
    s.shared.committed owner = true ∨
      s.shared.lifecycle = some owner ∧ ∃ pc, s.tasks owner = .call .preload pc
  accepting : s.shared.draining = false → ∀ id key, s.shared.models id = some key →
    s.shared.accepting key = true
  free : s.shared.draining = false → s.shared.lifecycle = none → s.shared.Settled

theorem sound_initial (models : List String) : Sound models initial := by
  constructor <;> simp [initial, Shared.new]
  · intro task
    constructor <;> simp [Task.holds]
  · constructor <;> simp
  · constructor <;> simp

/-- What a step of a task does to what the others rely on. -/
structure Guarantee (task : Nat) (s after : Shared) : Prop where
  draining : after.draining = s.draining
  nextKey : s.nextKey ≤ after.nextKey
  origin : ∀ key, key < s.nextKey → after.origin key = s.origin key
  committed : ∀ other, other ≠ task → after.committed other = s.committed other
  monotone : ∀ other, s.committed other = true → after.committed other = true

theorem Guarantee.refl (task : Nat) (s : Shared) : Guarantee task s s where
  draining := rfl
  nextKey := le_refl _
  origin _ _ := rfl
  committed _ _ := rfl
  monotone _ h := h

/-- A task without the lock relies on the guarantee only. -/
theorem Task.Sound.rely {models : List String} {s after : Shared} {task other : Nat} {t : Task}
    (h : t.Sound models s other) (hguarantee : Guarantee task s after) (hother : other ≠ task)
    (hidle : t.holds = false) (hlock : after.lifecycle ≠ some other) :
    t.Sound models after other where
  lock := by
    rw [hidle]
    exact ⟨fun hheld => absurd hheld hlock, (fun hholds => by cases hholds)⟩
  formed := h.formed
  embeds id pc key hembed hkey := by
    obtain ⟨hbelow, hshown⟩ := h.embeds id pc key hembed hkey
    refine ⟨hbelow.trans_le hguarantee.nextKey, fun owner howner => ?_⟩
    rw [hguarantee.origin key hbelow] at howner
    exact hguarantee.monotone owner (hshown owner howner)
  committed hcommitted := by
    rw [hguarantee.committed other hother] at hcommitted
    exact h.committed hcommitted
  fenced hdraining := h.fenced (hguarantee.draining ▸ hdraining)
  shutdowns pc hpc hcalled hfenced :=
    hguarantee.draining.trans (h.shutdowns pc hpc hcalled hfenced)
  held _ kind pc hcall hholds := by
    rw [hcall] at hidle
    rw [show Task.holds (.call kind pc) = pc.holds from rfl, hholds] at hidle
    cases hidle

section

variable {models : List String} {s : State} {task : Nat}

/-- The task at a step, or another one. -/
theorem State.update_sound {next : Task} {after : Shared} (hself : next.Sound models after task)
    (hothers : ∀ other, other ≠ task → (s.tasks other).Sound models after other) (other : Nat) :
    ((s.update task next after).tasks other).Sound models after other := by
  by_cases heq : other = task
  · rw [heq, State.update_self]
    exact hself
  · rw [State.update_ne s heq]
    exact hothers other heq

/-- Two tasks do not hold the lock. -/
theorem Sound.alone (hs : Sound models s) {other : Nat} (h : (s.tasks task).holds = true)
    (hother : other ≠ task) : (s.tasks other).holds = false := by
  rw [Bool.eq_false_iff]
  intro hholds
  have hlock := (hs.tasks task).lock.mpr h
  rw [(hs.tasks other).lock.mpr hholds] at hlock
  exact hother (Option.some.inj hlock)

/-- The runtime of a running preload does not drain. -/
theorem Sound.running (hs : Sound models s) {pc : CallPc} (h : s.tasks task = .call .preload pc)
    (hpc : pc.holds = true) : s.shared.draining = false := by
  rw [Bool.eq_false_iff]
  intro hdraining
  obtain ⟨ending, hended⟩ := (hs.tasks task).fenced hdraining pc h
  rw [hended] at hpc
  cases hpc

/-- A call that has not committed. -/
theorem Sound.uncommitted (hs : Sound models s) {kind : Kind} {pc : CallPc}
    (h : s.tasks task = .call kind pc) (hpc : pc.pastCommit = false) :
    s.shared.committed task = false := by
  rw [Bool.eq_false_iff]
  intro hcommitted
  have hdone := (hs.tasks task).committed hcommitted
  rw [h] at hdone
  cases kind with
  | preload =>
      rw [show Task.pastCommit (.call .preload pc) = pc.pastCommit from rfl, hpc] at hdone
      cases hdone
  | load | unload | other => cases hdone

/-- A registered slot whose model is not gated is shown. -/
theorem Sound.shown (hs : Sound models s) {id : String} {key : ModelKey} {owner : Nat}
    (hmodel : s.shared.models id = some key) (hopen : s.shared.preloadPending id = false)
    (howner : s.shared.origin key = some owner) : s.shared.committed owner = true := by
  cases hs.origins id key owner hmodel howner with
  | inl hcommitted => exact hcommitted
  | inr hholder =>
      obtain ⟨hlock, pc, hcall⟩ := hholder
      have hholds : pc.holds = true := by
        have htask := (hs.tasks owner).lock.mp hlock
        rw [hcall] at htask
        exact htask
      have hview := ((hs.tasks owner).held (hs.running hcall hholds) .preload pc hcall hholds).1
      cases hview.whole id key hmodel howner with
      | inl hcommitted => exact hcommitted
      | inr hown =>
          -- What the preload has not shown is behind the gate.
          have hpending := (hview.gated id).mpr (hview.own id hown).1
          rw [hopen] at hpending
          cases hpending

/-! ## Steps without the lock -/

/-- A step of a task without the lock that changes leases at most. -/
theorem Sound.quiet (hs : Sound models s) {next : Task} {leases : ModelKey → Nat}
    (hold : (s.tasks task).holds = false)
    (hgated : ∀ id key, s.shared.models id = some key → s.shared.preloadPending id = true →
      s.shared.leases key = 0 → leases key = 0)
    (hunleased : ∀ key, s.shared.nextKey ≤ key → leases key = 0)
    (hself : next.Sound models s.shared task) :
    Sound models (s.update task next { s.shared with leases := leases }) := by
  have hlock : s.shared.lifecycle ≠ some task := by
    intro hheld
    rw [(hs.tasks task).lock.mp hheld] at hold
    cases hold
  -- The slots of the holder are gated, so nobody took a lease on them.
  have hstable : ∀ (other : Nat) (t : Task), t.Sound models s.shared other →
      t.Sound models { s.shared with leases := leases } other := by
    intro other t ht
    refine ⟨ht.lock, ht.formed, ht.embeds, ht.committed, ht.fenced, ht.shutdowns, ?_⟩
    intro hrunning kind pc hcall hholds
    obtain ⟨hview, hkeeps⟩ := ht.held hrunning kind pc hcall hholds
    refine ⟨{ hview with own := ?_ }, hkeeps⟩
    intro id hid
    obtain ⟨hin, key, hmodel, hleases⟩ := hview.own id hid
    exact ⟨hin, key, hmodel, hgated id key hmodel ((hview.gated id).mpr hin) hleases⟩
  refine ⟨State.update_sound (hstable task next hself)
    fun other _ => hstable other _ (hs.tasks other),
    ⟨hs.keyed.below, hs.keyed.distinct, hunleased⟩, ?_, hs.accepting, ?_⟩
  · intro id key owner hmodel howner
    refine (hs.origins id key owner hmodel howner).imp_right fun hholder => ?_
    obtain ⟨hheld, pc, hcall⟩ := hholder
    have hne : owner ≠ task := by
      intro heq
      rw [heq] at hheld
      exact hlock hheld
    exact ⟨hheld, pc, (s.update_ne hne ..).trans hcall⟩
  · intro hrunning hfree
    exact ⟨(hs.free hrunning hfree).opened, (hs.free hrunning hfree).agrees⟩

/-- A call without the lock goes on without the lock. -/
theorem Sound.step_aside (hs : Sound models s) {kind : Kind} {next : CallPc}
    (hold : (s.tasks task).holds = false) (hpast : (s.tasks task).pastCommit = false)
    (hnew : next.holds = false)
    (hfenced : s.shared.draining = true → kind = .preload → ∃ ending, next = .ended ending) :
    Sound models (s.update task (.call kind next) s.shared) := by
  have hlock : s.shared.lifecycle ≠ some task := by
    intro hheld
    rw [(hs.tasks task).lock.mp hheld] at hold
    cases hold
  refine hs.quiet hold (fun _ _ _ _ hzero => hzero) hs.keyed.unleased ⟨?_, ?_, ?_, ?_, ?_, ?_, ?_⟩
  · rw [show Task.holds (.call kind next) = next.holds from rfl, hnew]
    exact ⟨fun hheld => absurd hheld hlock, (fun hholds => by cases hholds)⟩
  · intro otherKind pc hcall
    cases hcall
    cases next with
    | rolling => cases hnew
    | _ => trivial
  · intro id pc key hcall
    cases hcall
  · intro hcommitted
    rw [(hs.tasks task).committed hcommitted] at hpast
    cases hpast
  · intro hdraining pc hcall
    cases hcall
    exact hfenced hdraining rfl
  · intro pc hcall
    cases hcall
  · intro _ otherKind pc hcall hholds
    cases hcall
    rw [hnew] at hholds
    cases hholds

/-- A step of an embedding. -/
theorem Sound.embed (hs : Sound models s) {id : String} {pc next : EmbedPc} {after : Shared}
    (hold : (s.tasks task).holds = false) (hpast : (s.tasks task).pastCommit = false)
    (hkept : ∀ key, pc.key = some key → key < s.shared.nextKey ∧
      ∀ owner, s.shared.origin key = some owner → s.shared.committed owner = true)
    (hstep : EmbedStep s.shared id pc next after) (hcalm : Calm s (EmbedPc.event id pc next)) :
    Sound models (s.update task (.embed id next) after) := by
  have hlock : s.shared.lifecycle ≠ some task := by
    intro hheld
    rw [(hs.tasks task).lock.mp hheld] at hold
    cases hold
  -- To give a lease back leaves no slot with more leases than before.
  have hreleased : ∀ lease key : ModelKey, s.shared.leases key = 0 →
      Function.update s.shared.leases lease (s.shared.leases lease - 1) key = 0 := by
    intro lease key hzero
    by_cases heq : key = lease
    · rw [heq] at hzero ⊢
      rw [Function.update_self, hzero]
    · rw [Function.update_of_ne heq]
      exact hzero
  have hself : (∀ key, next.key = some key → key < s.shared.nextKey ∧
      ∀ owner, s.shared.origin key = some owner → s.shared.committed owner = true) →
      (Task.embed id next).Sound models s.shared task := by
    intro hkey
    refine ⟨⟨fun hheld => absurd hheld hlock, (fun hholds => by cases hholds)⟩,
      (fun _ _ hcall => by cases hcall), ?_, ?_, (fun _ _ hcall => by cases hcall),
      (fun _ hcall => by cases hcall), (fun _ _ _ hcall => by cases hcall)⟩
    · intro other otherPc key hcall hother
      cases hcall
      exact hkey key hother
    · intro hcommitted
      rw [(hs.tasks task).committed hcommitted] at hpast
      cases hpast
  cases hstep with
  | read | pass | refused =>
      exact hs.quiet hold (fun _ _ _ _ hzero => hzero) hs.keyed.unleased
        (hself fun _ hkey => by cases hkey)
  | @find key _ hmodel =>
      refine hs.quiet hold (fun _ _ _ _ hzero => hzero) hs.keyed.unleased (hself ?_)
      intro found hkey
      cases hkey
      exact ⟨hs.keyed.below id key hmodel, fun owner howner => hs.shown hmodel hcalm howner⟩
  | accept | infer =>
      exact hs.quiet hold (fun _ _ _ _ hzero => hzero) hs.keyed.unleased (hself hkept)
  | @lease key lease hmodel _ =>
      refine hs.quiet hold ?_ ?_ (hself hkept)
      · intro other found hother hpending hzero
        -- A calm step leases no model whose preload is pending, so none of the slots in question.
        have hne : found ≠ lease := by
          intro heq
          rw [heq] at hother
          rw [hs.keyed.distinct other id lease hother hmodel] at hpending
          rw [show s.shared.preloadPending id = false from hcalm] at hpending
          cases hpending
        rw [Function.update_of_ne hne]
        exact hzero
      · intro found hfound
        have hne : found ≠ lease :=
          (Nat.ne_of_lt ((hs.keyed.below id lease hmodel).trans_le hfound)).symm
        rw [Function.update_of_ne hne]
        exact hs.keyed.unleased found hfound
  | @answered key lease | @abandoned key lease =>
      exact hs.quiet hold (fun _ found _ _ hzero => hreleased lease found hzero)
        (fun found hfound => hreleased lease found (hs.keyed.unleased found hfound))
        (hself fun _ hkey => by cases hkey)

/-- A step of a shutdown. -/
theorem Sound.shut_down (hs : Sound models s) {pc next : ShutdownPc} {after : Shared}
    (h : s.tasks task = .shutdown pc) (hstep : ShutdownStep s.shared pc next after)
    (hcalm : Calm s pc.event) : Sound models (s.update task (.shutdown next) after) := by
  have hlock : s.shared.lifecycle ≠ some task := by
    intro hheld
    have hholds := (hs.tasks task).lock.mp hheld
    rw [h] at hholds
    cases hholds
  have huncommitted : s.shared.committed task = true → False := by
    intro hcommitted
    have hdone := (hs.tasks task).committed hcommitted
    rw [h] at hdone
    cases hdone
  -- From the first step on the runtime drains, and no preload is at work.
  have hfenced : ∀ other otherPc, s.tasks other = .call .preload otherPc →
      ∃ ending, otherPc = .ended ending := by
    intro other otherPc hcall
    cases hstep with
    | drain => exact hcalm other otherPc hcall
    | close | stop | clear | ungate =>
        exact (hs.tasks other).fenced
          ((hs.tasks task).shutdowns _ h (by simp) (by simp)) otherPc hcall
  have hdraining : after.draining = true := by
    cases hstep with
    | drain => rfl
    | close | stop | clear | ungate => exact (hs.tasks task).shutdowns _ h (by simp) (by simp)
  have hafter : after.lifecycle = s.shared.lifecycle ∧ after.nextKey = s.shared.nextKey ∧
      after.origin = s.shared.origin ∧ after.committed = s.shared.committed ∧
      after.leases = s.shared.leases ∧
      ∀ id key, after.models id = some key → s.shared.models id = some key := by
    cases hstep with
    | drain | close | clear | ungate => exact ⟨rfl, rfl, rfl, rfl, rfl, fun _ _ hmodel => hmodel⟩
    | stop => exact ⟨rfl, rfl, rfl, rfl, rfl, (fun _ _ hmodel => by cases hmodel)⟩
  obtain ⟨hlifecycle, hnextKey, horigin, hcommitted, hleases, hmodels⟩ := hafter
  have hnot : after.draining ≠ false := by
    rw [hdraining]
    exact Bool.true_eq_false_eq_False
  have hself : (Task.shutdown next).Sound models after task := by
    refine ⟨?_, (fun _ _ hcall => by cases hcall), (fun _ _ _ hcall => by cases hcall), ?_,
      (fun _ _ hcall => by cases hcall), fun _ _ _ _ => hdraining,
      (fun _ _ _ hcall => by cases hcall)⟩
    · rw [hlifecycle]
      exact ⟨fun hheld => absurd hheld hlock, (fun hholds => by cases hholds)⟩
    · rw [hcommitted]
      exact fun hdone => (huncommitted hdone).elim
  have hothers : ∀ other, other ≠ task → (s.tasks other).Sound models after other := by
    intro other _
    have ht := hs.tasks other
    refine ⟨?_, ht.formed, ?_, ?_, fun _ otherPc hcall => hfenced other otherPc hcall,
      fun _ _ _ _ => hdraining, fun hrunning => absurd hrunning hnot⟩
    · rw [hlifecycle]
      exact ht.lock
    · rw [hnextKey, horigin, hcommitted]
      exact ht.embeds
    · rw [hcommitted]
      exact ht.committed
  refine ⟨State.update_sound hself hothers, ?_, ?_, fun hrunning => absurd hrunning hnot,
    fun hrunning => absurd hrunning hnot⟩
  · show after.Keyed
    refine ⟨?_, ?_, ?_⟩
    · intro id key hmodel
      rw [hnextKey]
      exact hs.keyed.below id key (hmodels id key hmodel)
    · intro id id' key hmodel hmodel'
      exact hs.keyed.distinct id id' key (hmodels id key hmodel) (hmodels id' key hmodel')
    · rw [hnextKey, hleases]
      exact hs.keyed.unleased
  · intro id key owner hmodel howner
    show after.committed owner = true ∨ _
    rw [hcommitted]
    rw [show (s.update task (.shutdown next) after).shared.origin = after.origin from rfl,
      horigin] at howner
    cases hs.origins id key owner (hmodels id key hmodel) howner with
    | inl hshown => exact .inl hshown
    | inr hholder =>
        -- The owner is not at work, so it does not hold the lock.
        obtain ⟨hheld, otherPc, hcall⟩ := hholder
        have hholds := (hs.tasks owner).lock.mp hheld
        obtain ⟨ending, hended⟩ := hfenced owner otherPc hcall
        rw [hcall, hended] at hholds
        cases hholds

/-- A shutdown raises its flag. -/
theorem Sound.fence (hs : Sound models s) (h : s.tasks task = .shutdown .called) :
    Sound models (s.update task (.shutdown .fenced) { s.shared with shuttingDown := true }) := by
  have hlock : s.shared.lifecycle ≠ some task := by
    intro hheld
    have hholds := (hs.tasks task).lock.mp hheld
    rw [h] at hholds
    cases hholds
  have hstable : ∀ (other : Nat) (t : Task), t.Sound models s.shared other →
      t.Sound models { s.shared with shuttingDown := true } other := by
    intro other t ht
    refine ⟨ht.lock, ht.formed, ht.embeds, ht.committed, ht.fenced, ht.shutdowns, ?_⟩
    intro hrunning kind pc hcall hholds
    obtain ⟨hview, hkeeps⟩ := ht.held hrunning kind pc hcall hholds
    exact ⟨⟨hview.gated, hview.loaded, hview.extra, hview.missing, hview.own, hview.nodup,
      hview.ready, hview.whole⟩, hkeeps⟩
  refine ⟨State.update_sound (hstable task _ ?_) fun other _ => hstable other _ (hs.tasks other),
    ⟨hs.keyed.below, hs.keyed.distinct, hs.keyed.unleased⟩, ?_, hs.accepting, ?_⟩
  · refine ⟨⟨fun hheld => absurd hheld hlock, (fun hholds => by cases hholds)⟩,
      (fun _ _ hcall => by cases hcall), (fun _ _ _ hcall => by cases hcall), ?_,
      (fun _ _ hcall => by cases hcall), ?_, (fun _ _ _ hcall => by cases hcall)⟩
    · intro hcommitted
      have hdone := (hs.tasks task).committed hcommitted
      rw [h] at hdone
      cases hdone
    · intro pc hcall _ hfenced
      cases hcall
      exact absurd rfl hfenced
  · intro id key owner hmodel howner
    refine (hs.origins id key owner hmodel howner).imp_right fun hholder => ?_
    obtain ⟨hheld, pc, hcall⟩ := hholder
    have hne : owner ≠ task := by
      intro heq
      rw [heq] at hheld
      exact hlock hheld
    exact ⟨hheld, pc, (s.update_ne hne ..).trans hcall⟩
  · intro hrunning hfree
    exact ⟨(hs.free hrunning hfree).opened, (hs.free hrunning hfree).agrees⟩

/-! ## The lifecycle lock -/

/-- A call takes the lifecycle lock. -/
theorem Sound.acquire (hs : Sound models s) {kind : Kind} (h : s.tasks task = .call kind .waiting)
    (hfree : s.shared.lifecycle = none) :
    Sound models (s.update task (.call kind .locked)
      { s.shared with
        lifecycle := some task
        entry := Function.update s.shared.entry task s.shared.models }) := by
  have hnobody : ∀ other, (s.tasks other).holds = false := by
    intro other
    rw [Bool.eq_false_iff]
    intro hholds
    have hlock := (hs.tasks other).lock.mpr hholds
    rw [hfree] at hlock
    cases hlock
  have hshown : ∀ id key owner, s.shared.models id = some key →
      s.shared.origin key = some owner → s.shared.committed owner = true := by
    intro id key owner hmodel howner
    -- The lock is free, so whoever owns a slot has committed.
    cases hs.origins id key owner hmodel howner with
    | inl hcommitted => exact hcommitted
    | inr hholder =>
        rw [hfree] at hholder
        cases hholder.1
  refine ⟨State.update_sound ?_ ?_, ⟨hs.keyed.below, hs.keyed.distinct, hs.keyed.unleased⟩,
    fun id key owner hmodel howner => .inl (hshown id key owner hmodel howner), hs.accepting,
    (fun _ hnone => by cases hnone)⟩
  · refine ⟨⟨fun _ => rfl, fun _ => rfl⟩, ?_, (fun _ _ _ hcall => by cases hcall), ?_, ?_,
      (fun _ hcall => by cases hcall), ?_⟩
    · intro otherKind pc hcall
      cases hcall
      trivial
    · intro hcommitted
      have hnot := hs.uncommitted h rfl
      rw [show s.shared.committed task = true from hcommitted] at hnot
      cases hnot
    · intro hdraining pc hcall
      cases hcall
      obtain ⟨ending, hended⟩ := (hs.tasks task).fenced hdraining .waiting h
      cases hended
    · intro hrunning otherKind pc hcall _
      cases hcall
      have hsettled := hs.free hrunning hfree
      refine ⟨Shared.Settled.holds ⟨hsettled.opened, hsettled.agrees⟩ hshown,
        fun _ id key hentry => ⟨?_, List.not_mem_nil⟩⟩
      rw [← hentry]
      exact (congrFun (Function.update_self task s.shared.models s.shared.entry) id).symm
  · intro other hother
    have hguarantee : Guarantee task s.shared { s.shared with
        lifecycle := some task
        entry := Function.update s.shared.entry task s.shared.models } :=
      ⟨rfl, le_refl _, fun _ _ => rfl, fun _ _ => rfl, fun _ hdone => hdone⟩
    refine (hs.tasks other).rely hguarantee hother (hnobody other) ?_
    exact fun heq => hother (Option.some.inj heq).symm

/-- A call gives the lifecycle lock back. -/
theorem Sound.leave (hs : Sound models s) {kind : Kind} {ending : Ending}
    (h : s.tasks task = .call kind (.leaving ending)) :
    Sound models (s.update task (.call kind (.ended ending))
      { s.shared with lifecycle := none }) := by
  have hholds : (s.tasks task).holds = true := by
    rw [h]
    rfl
  have hlock := (hs.tasks task).lock.mpr hholds
  refine ⟨State.update_sound ?_ ?_, ⟨hs.keyed.below, hs.keyed.distinct, hs.keyed.unleased⟩, ?_,
    hs.accepting, ?_⟩
  · refine ⟨⟨(fun hheld => by cases hheld), (fun hheld => by cases hheld)⟩, ?_,
      (fun _ _ _ hcall => by cases hcall), ?_, ?_, (fun _ hcall => by cases hcall), ?_⟩
    · intro otherKind pc hcall
      cases hcall
      trivial
    · intro hcommitted
      have hdone := (hs.tasks task).committed hcommitted
      rw [h] at hdone
      cases kind with
      | preload =>
          cases ending with
          | succeeded => rfl
          | failed | dropped => cases hdone
      | load | unload | other => cases hdone
    · intro _ pc hcall
      cases hcall
      exact ⟨ending, rfl⟩
    · intro _ otherKind pc hcall hheld
      cases hcall
      cases hheld
  · intro other hother
    have hguarantee : Guarantee task s.shared { s.shared with lifecycle := none } :=
      ⟨rfl, le_refl _, fun _ _ => rfl, fun _ _ => rfl, fun _ hdone => hdone⟩
    exact (hs.tasks other).rely hguarantee hother (hs.alone hholds hother)
      (fun heq => by cases heq)
  · intro id key owner hmodel howner
    refine .inl ?_
    cases hs.origins id key owner hmodel howner with
    | inl hcommitted => exact hcommitted
    | inr hholder =>
        obtain ⟨howns, pc, hcall⟩ := hholder
        rw [hlock] at howns
        cases howns
        rw [h] at hcall
        cases hcall
        -- What the call still owned uncommitted would be in its view, which is empty by now.
        have hview := ((hs.tasks task).held (hs.running h rfl) .preload _ h rfl).1
        cases hview.whole id key hmodel howner with
        | inl hcommitted => exact hcommitted
        | inr hown => cases hown
  · intro hrunning _
    have hsettled := ((hs.tasks task).held hrunning kind _ h rfl).1.settled rfl
    exact ⟨hsettled.opened, hsettled.agrees⟩

end

/-! ## Steps under the lock -/

section

variable {models : List String} {s : State} {task : Nat} {kind : Kind} {pc next : CallPc}

/-- A step of the holder of the lock. -/
theorem Sound.hold (hs : Sound models s) {after : Shared} (h : s.tasks task = .call kind pc)
    (hpc : pc.holds = true) (hnext : next.holds = true) (hguarantee : Guarantee task s.shared after)
    (hlifecycle : after.lifecycle = s.shared.lifecycle) (hkeyed : after.Keyed)
    (hformed : next.WellFormed)
    (hcommitted : after.committed task = true → kind = .preload ∧ next.pastCommit = true)
    (hslots : ∀ id key, after.models id = some key → s.shared.models id = some key ∨
      ∀ owner, after.origin key = some owner → owner = task ∧ kind = .preload)
    (haccepting : s.shared.draining = false →
      ∀ id key, after.models id = some key → after.accepting key = true)
    (hview : s.shared.draining = false → (next.view models kind).Holds task after ∧
      (kind = .preload → (next.view models kind).Keeps task after)) :
    Sound models (s.update task (.call kind next) after) := by
  have hholds : (s.tasks task).holds = true := by
    rw [h]
    exact hpc
  have hheld : s.shared.lifecycle = some task := (hs.tasks task).lock.mpr hholds
  have hlock : after.lifecycle = some task := hlifecycle.trans hheld
  have hdraining : ∀ {value}, after.draining = value → s.shared.draining = value :=
    fun hvalue => hguarantee.draining ▸ hvalue
  have hself : (Task.call kind next).Sound models after task := by
    refine ⟨⟨fun _ => hnext, fun _ => hlock⟩, ?_, fun _ _ _ hcall => (by cases hcall), ?_, ?_,
      fun _ hcall => (by cases hcall), ?_⟩
    · intro otherKind otherPc hcall
      cases hcall
      exact hformed
    · intro hdone
      obtain ⟨rfl, hpast⟩ := hcommitted hdone
      exact hpast
    · intro hdown otherPc hcall
      cases hcall
      -- After the fence every call has ended, but this one holds the lock.
      obtain ⟨ending, hended⟩ := (hs.tasks task).fenced (hdraining hdown) pc h
      rw [hended] at hpc
      cases hpc
    · intro hrunning otherKind otherPc hcall _
      cases hcall
      exact hview (hdraining hrunning)
  have hothers : ∀ other, other ≠ task → (s.tasks other).Sound models after other := by
    intro other hother
    refine (hs.tasks other).rely hguarantee hother (hs.alone hholds hother) ?_
    rw [hlock]
    exact fun heq => hother (Option.some.inj heq).symm
  have hatWork :
      ∃ otherPc, (s.update task (.call kind next) after).tasks task = .call kind otherPc :=
    ⟨next, s.update_self ..⟩
  refine ⟨State.update_sound hself hothers, hkeyed, ?_,
    fun hrunning => haccepting (hdraining hrunning), ?_⟩
  · intro id key owner hmodel howner
    cases hslots id key hmodel with
    | inr hnew =>
        obtain ⟨rfl, rfl⟩ := hnew owner howner
        exact .inr ⟨hlock, hatWork⟩
    | inl hold =>
        rw [show (s.update task (.call kind next) after).shared.origin key = after.origin key from
          rfl, hguarantee.origin key (hs.keyed.below id key hold)] at howner
        -- A slot from before: its owner has committed, or is the holder of the lock.
        cases hs.origins id key owner hold howner with
        | inl hshown => exact .inl (hguarantee.monotone owner hshown)
        | inr hholder =>
            obtain ⟨hownerLock, ownerPc, hcall⟩ := hholder
            rw [hheld] at hownerLock
            cases hownerLock
            rw [h] at hcall
            cases hcall
            exact .inr ⟨hlock, hatWork⟩
  · intro _ hfree
    rw [show (s.update task (.call kind next) after).shared.lifecycle = after.lifecycle from rfl,
      hlock] at hfree
    cases hfree

/-- A step of the holder that changes nothing that is shared. -/
theorem Sound.hold_same (hs : Sound models s) (h : s.tasks task = .call kind pc)
    (hpc : pc.holds = true) (hnext : next.holds = true) (hformed : next.WellFormed)
    (hpast : pc.pastCommit = true → next.pastCommit = true)
    (hview : s.shared.draining = false → (pc.view models kind).Holds task s.shared →
      (next.view models kind).Holds task s.shared ∧
        ∀ id ∈ (next.view models kind).own, id ∈ (pc.view models kind).own) :
    Sound models (s.update task (.call kind next) s.shared) := by
  refine hs.hold h hpc hnext (.refl task s.shared) rfl hs.keyed hformed ?_
    (fun _ _ hmodel => .inl hmodel) (fun hrunning => hs.accepting hrunning) ?_
  · intro hcommitted
    have hdone := (hs.tasks task).committed hcommitted
    rw [h] at hdone
    cases kind with
    | preload => exact ⟨rfl, hpast hdone⟩
    | load | unload | other => cases hdone
  · intro hrunning
    obtain ⟨hholds, hkeeps⟩ := (hs.tasks task).held hrunning kind pc h hpc
    obtain ⟨hholds', hown⟩ := hview hrunning hholds
    refine ⟨hholds', fun hkind id key hentry => ?_⟩
    obtain ⟨hmodel, hnot⟩ := hkeeps hkind id key hentry
    exact ⟨hmodel, fun hmem => hnot (hown id hmem)⟩

/-- The holder publishes a slot. -/
theorem Sound.publish (hs : Sound models s) {id : String} {preload : Option Nat}
    (h : s.tasks task = .call kind pc) (hpc : pc.holds = true) (hnext : next.holds = true)
    (hformed : next.WellFormed) (hpast : pc.pastCommit = false)
    (hmodel : s.shared.models id = none)
    (hpreload : preload = none ∨ preload = some task ∧ kind = .preload)
    (hview : s.shared.draining = false → (pc.view models kind).Holds task s.shared →
      (next.view models kind).Holds task (s.shared.publish id preload) ∧
        ∀ other ∈ (next.view models kind).own, other ∈ (pc.view models kind).own ∨ other = id) :
    Sound models (s.update task (.call kind next) (s.shared.publish id preload)) := by
  have hnew : ∀ other key, (s.shared.publish id preload).models other = some key →
      other = id ∧ key = s.shared.nextKey ∨ other ≠ id ∧ s.shared.models other = some key := by
    intro other key hother
    by_cases heq : other = id
    · refine .inl ⟨heq, ?_⟩
      simpa [Shared.publish, heq, eq_comm] using hother
    · exact .inr ⟨heq, by simpa [Shared.publish, heq] using hother⟩
  have hguarantee : Guarantee task s.shared (s.shared.publish id preload) :=
    ⟨rfl, Nat.le_succ _, fun key hkey => Function.update_of_ne (Nat.ne_of_lt hkey) ..,
      fun _ _ => rfl, fun _ hdone => hdone⟩
  refine hs.hold h hpc hnext hguarantee rfl (hs.keyed.publish id preload) hformed ?_ ?_ ?_ ?_
  · intro hcommitted
    have hnot := hs.uncommitted h hpast
    rw [show (s.shared.publish id preload).committed task = s.shared.committed task from rfl,
      hnot] at hcommitted
    cases hcommitted
  · intro other key hother
    cases hnew other key hother with
    | inr hold => exact .inl hold.2
    | inl hfresh =>
        refine .inr fun owner howner => ?_
        -- The new slot belongs to the preload that publishes it, or to nobody.
        rw [hfresh.2, show (s.shared.publish id preload).origin s.shared.nextKey = preload from
          Function.update_self ..] at howner
        cases hpreload with
        | inl hnone =>
            rw [hnone] at howner
            cases howner
        | inr hsome =>
            rw [hsome.1] at howner
            exact ⟨(Option.some.inj howner).symm, hsome.2⟩
  · intro hrunning other key hother
    cases hnew other key hother with
    | inl hfresh =>
        rw [hfresh.2]
        exact Function.update_self ..
    | inr hold =>
        have hne : key ≠ s.shared.nextKey := Nat.ne_of_lt (hs.keyed.below other key hold.2)
        rw [show (s.shared.publish id preload).accepting key = s.shared.accepting key from
          Function.update_of_ne hne ..]
        exact hs.accepting hrunning other key hold.2
  · intro hrunning
    obtain ⟨hholds, hkeeps⟩ := (hs.tasks task).held hrunning kind pc h hpc
    obtain ⟨hholds', hown⟩ := hview hrunning hholds
    refine ⟨hholds', fun hkind other key hentry => ?_⟩
    -- What was there on entry is another model than the new one.
    obtain ⟨hold, hnot⟩ := hkeeps hkind other key hentry
    have hne : other ≠ id := by
      intro heq
      rw [heq, hmodel] at hold
      cases hold
    refine ⟨by simpa [Shared.publish, hne] using hold, fun hmem => ?_⟩
    cases hown other hmem with
    | inl hbefore => exact hnot hbefore
    | inr heq => exact hne heq

/-- The holder withdraws a slot. -/
theorem Sound.withdraw (hs : Sound models s) {id : String} {key : ModelKey}
    (h : s.tasks task = .call kind pc) (hpc : pc.holds = true) (hnext : next.holds = true)
    (hformed : next.WellFormed) (hpast : pc.pastCommit = false)
    (hmodel : s.shared.models id = some key)
    (hview : s.shared.draining = false → (pc.view models kind).Holds task s.shared →
      (next.view models kind).Holds task (s.shared.withdraw id key) ∧
        (∀ other ∈ (next.view models kind).own, other ∈ (pc.view models kind).own) ∧
        (kind = .preload → id ∈ (pc.view models kind).own)) :
    Sound models (s.update task (.call kind next) (s.shared.withdraw id key)) := by
  refine hs.hold h hpc hnext ⟨rfl, le_refl _, fun _ _ => rfl, fun _ _ => rfl, fun _ hdone => hdone⟩
    rfl (hs.keyed.withdraw id key) hformed ?_
    (fun other found hother => .inl (Shared.withdraw_models hother).2) ?_ ?_
  · intro hcommitted
    have hnot := hs.uncommitted h hpast
    rw [show (s.shared.withdraw id key).committed = s.shared.committed from rfl, hnot]
      at hcommitted
    cases hcommitted
  · intro hrunning other found hother
    obtain ⟨hne, hold⟩ := Shared.withdraw_models hother
    have hkey : found ≠ key := by
      intro heq
      rw [heq] at hold
      exact hne (hs.keyed.distinct other id key hold hmodel)
    show Function.update s.shared.accepting key false found = true
    rw [Function.update_of_ne hkey]
    exact hs.accepting hrunning other found hold
  · intro hrunning
    obtain ⟨hholds, hkeeps⟩ := (hs.tasks task).held hrunning kind pc h hpc
    obtain ⟨hholds', hown, hgone⟩ := hview hrunning hholds
    refine ⟨hholds', fun hkind other found hentry => ?_⟩
    obtain ⟨hold, hnot⟩ := hkeeps hkind other found hentry
    have hne : other ≠ id := fun heq => hnot (heq ▸ hgone hkind)
    refine ⟨?_, fun hmem => hnot (hown other hmem)⟩
    show Function.update s.shared.models id none other = some found
    rw [Function.update_of_ne hne]
    exact hold

/-- The holder writes to the set `loaded` or to the gate. -/
theorem Sound.mark (hs : Sound models s) {loaded preloadPending : String → Bool}
    (h : s.tasks task = .call kind pc) (hpc : pc.holds = true) (hnext : next.holds = true)
    (hformed : next.WellFormed) (hpast : pc.pastCommit = true → next.pastCommit = true)
    (hview : s.shared.draining = false → (pc.view models kind).Holds task s.shared →
      (next.view models kind).Holds task
          { s.shared with loaded := loaded, preloadPending := preloadPending } ∧
        ∀ id ∈ (next.view models kind).own, id ∈ (pc.view models kind).own) :
    Sound models (s.update task (.call kind next)
      { s.shared with loaded := loaded, preloadPending := preloadPending }) := by
  refine hs.hold h hpc hnext ⟨rfl, le_refl _, fun _ _ => rfl, fun _ _ => rfl, fun _ hdone => hdone⟩
    rfl ⟨hs.keyed.below, hs.keyed.distinct, hs.keyed.unleased⟩ hformed ?_
    (fun _ _ hmodel => .inl hmodel) (fun hrunning => hs.accepting hrunning) ?_
  · intro hcommitted
    have hdone := (hs.tasks task).committed hcommitted
    rw [h] at hdone
    cases kind with
    | preload => exact ⟨rfl, hpast hdone⟩
    | load | unload | other => cases hdone
  · intro hrunning
    obtain ⟨hholds, hkeeps⟩ := (hs.tasks task).held hrunning kind pc h hpc
    obtain ⟨hholds', hown⟩ := hview hrunning hholds
    refine ⟨hholds', fun hkind id key hentry => ?_⟩
    obtain ⟨hmodel, hnot⟩ := hkeeps hkind id key hentry
    exact ⟨hmodel, fun hmem => hnot (hown id hmem)⟩

/-- The preload opens the gate and shows what it has loaded. -/
theorem Sound.commit (hs : Sound models s) {frame : Frame}
    (h : s.tasks task = .call .preload (.looping frame)) :
    Sound models (s.update task (.call .preload (.committed frame.gated))
      { s.shared.ungate frame.gated with
        committed := Function.update s.shared.committed task true }) := by
  have hmonotone : ∀ other, s.shared.committed other = true →
      Function.update s.shared.committed task true other = true := by
    intro other hother
    by_cases heq : other = task
    · rw [heq]
      exact Function.update_self ..
    · rw [← hother]
      exact Function.update_of_ne heq ..
  refine hs.hold h rfl rfl ⟨rfl, le_refl _, fun _ _ => rfl,
    fun _ heq => Function.update_of_ne heq .., hmonotone⟩ rfl
    ⟨hs.keyed.below, hs.keyed.distinct, hs.keyed.unleased⟩ trivial (fun _ => ⟨rfl, rfl⟩)
    (fun _ _ hmodel => .inl hmodel) (fun hrunning => hs.accepting hrunning) ?_
  intro hrunning
  obtain ⟨hholds, hkeeps⟩ := (hs.tasks task).held hrunning .preload _ h rfl
  have hview : View.Holds { gated := frame.gated, own := frame.newlyLoaded } task s.shared :=
    hholds.visit fun _ hid => (by cases hid)
  refine ⟨hview.commit, fun _ id key hentry => ?_⟩
  exact ⟨(hkeeps rfl id key hentry).1, List.not_mem_nil⟩

/-- A preload gives up: the transaction is dropped. -/
theorem Sound.roll_back (hs : Sound models s) {frame : Frame} {ending : Ending}
    (h : s.tasks task = .call .preload pc) (hpc : pc.holds = true) (hpast : pc.pastCommit = false)
    (hview : ∃ rest, pc.view models .preload = Frame.view { frame with rest := rest }) :
    Sound models
      (s.update task (.call .preload (.rolling frame frame.newlyLoaded.reverse ending))
        s.shared) := by
  refine hs.hold_same h hpc rfl (fun _ hid => List.mem_reverse.mp hid)
    (fun hdone => by rw [hpast] at hdone; cases hdone) ?_
  intro _ hholds
  obtain ⟨rest, hcurrent⟩ := hview
  rw [hcurrent] at hholds ⊢
  exact ⟨hholds.roll_back, fun id hid => List.mem_reverse.mp hid⟩

/-- A step inside `load_locked` for the call `load`. -/
theorem Sound.load (hs : Sound models s) {id : String} {inner : LoadPc} {result : LoadPc ⊕ Bool}
    {after : Shared} (h : s.tasks task = .call (.load id) (.load inner))
    (hstep : LoadStep s.shared id none inner result after)
    (hcalm : Calm s (CallPc.event (.load id) (.load inner)))
    (hnext : (∃ inside, result = .inl inside ∧ next = .load inside) ∨
      (∃ done ending, result = .inr done ∧ next = .leaving ending)) :
    Sound models (s.update task (.call (.load id) next) after) := by
  have hholds : next.holds = true := by
    obtain ⟨_, _, rfl⟩ | ⟨_, _, _, rfl⟩ := hnext <;> rfl
  have hformed : next.WellFormed := by
    obtain ⟨_, _, rfl⟩ | ⟨_, _, _, rfl⟩ := hnext <;> trivial
  cases hstep with
  | already | failed =>
      obtain ⟨_, hinside, _⟩ | ⟨_, _, _, rfl⟩ := hnext
      · cases hinside
      · exact hs.hold_same h rfl rfl trivial (fun hpast => by cases hpast)
          fun _ hview => ⟨hview, fun _ hid => hid⟩
  | enter | fence =>
      obtain ⟨_, hinside, rfl⟩ | ⟨_, _, hresult, _⟩ := hnext
      · cases hinside
        exact hs.hold_same h rfl rfl trivial (fun hpast => by cases hpast)
          fun _ hview => ⟨hview, fun _ hid => hid⟩
      · cases hresult
  | publish _ hmodel =>
      obtain ⟨_, hinside, rfl⟩ | ⟨_, _, hresult, _⟩ := hnext
      · cases hinside
        refine hs.publish h rfl rfl trivial rfl hmodel (.inl rfl) ?_
        intro _ hview
        exact ⟨hview.publish hs.keyed hmodel rfl rfl (.inl ⟨rfl, rfl⟩),
          fun other hother => by cases hother⟩
      · cases hresult
  | record _ =>
      obtain ⟨_, hinside, _⟩ | ⟨_, ending, _, rfl⟩ := hnext
      · cases hinside
      · exact hs.mark h rfl rfl trivial (fun hpast => by cases hpast)
          fun _ hview => ⟨hview.record rfl, fun _ hid => hid⟩
  | retract =>
      obtain ⟨_, hinside, _⟩ | ⟨_, ending, _, rfl⟩ := hnext
      · cases hinside
      · cases s.shared.unload_cases id with
        | inr hgone =>
            obtain ⟨key, _, hmodel, _, hafter⟩ := hgone
            rw [hafter]
            refine hs.withdraw h rfl rfl trivial rfl hmodel ?_
            intro _ hview
            exact ⟨hview.retract hs.keyed rfl rfl (.inr ⟨rfl, rfl⟩), fun _ hid => hid,
              fun hkind => by cases hkind⟩
        | inl hkept =>
            rw [hkept.2.1]
            refine hs.hold_same h rfl rfl trivial (fun hpast => by cases hpast) ?_
            intro hrunning hview
            -- The slot is registered and has no leases, so the unload was not refused.
            cases hkept.2.2 with
            | inl hdraining =>
                rw [hrunning] at hdraining
                cases hdraining
            | inr hleased =>
                obtain ⟨key, hkey⟩ :=
                  Option.isSome_iff_exists.mp (hview.extra id (List.mem_singleton_self id))
                exact absurd (hcalm key hkey) (hleased key hkey)

/-- A step inside `load_locked` for a preload. -/
theorem Sound.inside (hs : Sound models s) {frame : Frame} {id : String} {inner : LoadPc}
    {result : LoadPc ⊕ Bool} {after : Shared}
    (h : s.tasks task = .call .preload (.inside frame id inner))
    (hstep : LoadStep s.shared id (some task) inner result after)
    (hnext : (∃ inside, result = .inl inside ∧ next = .inside frame id inside) ∨
      (result = .inr true ∧
        next = .looping { frame with newlyLoaded := frame.newlyLoaded ++ [id] }) ∨
      (result = .inr false ∧ next = .rolling frame frame.newlyLoaded.reverse .failed)) :
    Sound models (s.update task (.call .preload next) after) := by
  have hrunning := hs.running h rfl
  cases hstep with
  | already | failed =>
      obtain ⟨_, hinside, _⟩ | ⟨hresult, _⟩ | ⟨_, rfl⟩ := hnext
      · cases hinside
      · cases hresult
      · exact hs.roll_back h rfl rfl ⟨_, rfl⟩
  | enter | fence =>
      obtain ⟨_, hinside, rfl⟩ | ⟨hresult, _⟩ | ⟨hresult, _⟩ := hnext
      · cases hinside
        exact hs.hold_same h rfl rfl trivial (fun hpast => by cases hpast)
          fun _ hview => ⟨hview, fun _ hid => hid⟩
      · cases hresult
      · cases hresult
  | publish _ hmodel =>
      obtain ⟨_, hinside, rfl⟩ | ⟨hresult, _⟩ | ⟨hresult, _⟩ := hnext
      · cases hinside
        refine hs.publish h rfl rfl trivial rfl hmodel (.inr ⟨rfl, rfl⟩) ?_
        intro _ hview
        -- The model is gated, as the others are loaded.
        have hgated : id ∈ frame.gated := by
          by_contra hnot
          have hready : s.shared.loaded id = true := by
            refine hview.ready id (List.mem_filter.mpr ⟨List.mem_cons_self, by simpa using hnot⟩)
          cases (hview.loaded id).mp hready with
          | inl hregistered => simp [hmodel] at hregistered
          | inr hmissing => cases hmissing
        have hpublished := hview.publish hs.keyed hmodel rfl rfl (.inr ⟨rfl, rfl, hgated⟩)
        refine ⟨hpublished.visit ?_, ?_⟩
        · intro other hother
          obtain ⟨hmem, hnot⟩ := List.mem_filter.mp hother
          exact List.mem_filter.mpr ⟨List.mem_cons_of_mem _ hmem, hnot⟩
        · intro other hother
          exact (List.mem_append.mp hother).imp_right List.mem_singleton.mp
      · cases hresult
      · cases hresult
  | record _ =>
      obtain ⟨_, hinside, _⟩ | ⟨_, rfl⟩ | ⟨hresult, _⟩ := hnext
      · cases hinside
      · exact hs.mark h rfl rfl trivial (fun hpast => by cases hpast)
          fun _ hview => ⟨hview.record rfl, fun _ hid => hid⟩
      · cases hresult
  | retract =>
      obtain ⟨_, hinside, _⟩ | ⟨hresult, _⟩ | ⟨_, rfl⟩ := hnext
      · cases hinside
      · cases hresult
      · have hview := ((hs.tasks task).held hrunning .preload _ h rfl).1
        -- The slot is gated and has no leases, so it can be unloaded.
        obtain ⟨_, key, hmodel, hleases⟩ :=
          hview.own id (List.mem_append_right _ (List.mem_singleton_self id))
        cases s.shared.unload_cases id with
        | inl hkept =>
            cases hkept.2.2 with
            | inl hdraining =>
                rw [hrunning] at hdraining
                cases hdraining
            | inr hleased => exact absurd hleases (hleased key hmodel)
        | inr hgone =>
            obtain ⟨found, _, hfound, _, hafter⟩ := hgone
            rw [hafter]
            refine hs.withdraw h rfl rfl (fun _ hid => List.mem_reverse.mp hid) rfl hfound ?_
            intro _ hview
            have hretracted : frame.view.Holds task (s.shared.withdraw id found) :=
              hview.retract hs.keyed rfl rfl (.inl rfl)
            refine ⟨hretracted.roll_back, ?_, ?_⟩
            · intro other hother
              exact List.mem_append_left _ (List.mem_reverse.mp hother)
            · exact fun _ => List.mem_append_right _ (List.mem_singleton_self id)

/-- A step of a lifecycle call under the lock. -/
theorem Sound.call_step (hs : Sound models s) {after : Shared} (h : s.tasks task = .call kind pc)
    (hstep : CallStep models task s.shared kind pc next after)
    (hcalm : Calm s (CallPc.event kind pc)) :
    Sound models (s.update task (.call kind next) after) := by
  cases hstep with
  | fenced | other | beginLoad | refused | dropLoad =>
      exact hs.hold_same h rfl rfl trivial (fun hpast => by cases hpast)
        fun _ hview => ⟨hview, fun _ hid => hid⟩
  | load hload => exact hs.load h hload hcalm (.inl ⟨_, rfl, rfl⟩)
  | loadFailed hload => exact hs.load h hload hcalm (.inr ⟨_, _, rfl, rfl⟩)
  | loaded hload ending => exact hs.load h hload hcalm (.inr ⟨_, ending, rfl, rfl⟩)
  | unload _ hdone =>
      cases s.shared.unload_cases _ with
      | inl hkept =>
          rw [hkept.1] at hdone
          cases hdone
      | inr hgone =>
          obtain ⟨key, _, hmodel, _, hafter⟩ := hgone
          rw [hafter]
          refine hs.withdraw h rfl rfl trivial rfl hmodel ?_
          intro _ hview
          exact ⟨hview.unload hs.keyed hmodel rfl rfl (.inr ⟨rfl, rfl⟩) (by simp [CallPc.view]),
            fun _ hid => hid, fun hkind => by cases hkind⟩
  | unlist ending =>
      exact hs.mark h rfl rfl trivial (fun hpast => by cases hpast)
        fun _ hview => ⟨hview.unrecord rfl rfl rfl, fun _ hid => hid⟩
  | begin =>
      refine hs.hold_same h rfl rfl trivial (fun hpast => by cases hpast) ?_
      intro _ hview
      refine ⟨{ hview with ready := ?_ }, fun _ hid => hid⟩
      intro id hid
      obtain ⟨hmem, hnot⟩ := List.mem_filter.mp hid
      simpa [hmem] using hnot
  | gate =>
      exact hs.mark h rfl rfl trivial (fun hpast => by cases hpast)
        fun _ hview => ⟨hview.gate, fun _ hid => hid⟩
  | unknown => exact hs.roll_back h rfl rfl ⟨_, rfl⟩
  | skip hrest =>
      refine hs.hold_same h rfl rfl trivial (fun hpast => by cases hpast) ?_
      intro _ hview
      refine ⟨hview.visit fun id hid => ?_, fun _ hid => hid⟩
      obtain ⟨hmem, hnot⟩ := List.mem_filter.mp hid
      refine List.mem_filter.mpr ⟨?_, hnot⟩
      rw [hrest]
      exact List.mem_cons_of_mem _ hmem
  | enter hrest =>
      refine hs.hold_same h rfl rfl trivial (fun hpast => by cases hpast) ?_
      intro _ hview
      refine ⟨hview.visit fun id hid => ?_, fun _ hid => hid⟩
      rw [show (CallPc.looping _).view models .preload = Frame.view _ from rfl, Frame.view, hrest]
      exact hid
  | inside hload => exact hs.inside h hload (.inl ⟨_, rfl, rfl⟩)
  | insideLoaded hload => exact hs.inside h hload (.inr (.inl ⟨rfl, rfl⟩))
  | insideFailed hload => exact hs.inside h hload (.inr (.inr ⟨rfl, rfl⟩))
  | dropInside => exact hs.roll_back h rfl rfl ⟨_, rfl⟩
  | commit => exact hs.commit h
  | @dropCommitted gated =>
      refine hs.mark h rfl rfl trivial (fun _ => rfl) ?_
      intro _ hview
      refine ⟨{ hview with gated := ?_ }, fun _ hid => hid⟩
      intro id
      simp [hview.settled rfl |>.opened id, CallPc.view]
  | @rollback frame id remaining ending =>
      have hrunning := hs.running h rfl
      have hview := ((hs.tasks task).held hrunning .preload _ h rfl).1
      have hformed : ∀ other ∈ id :: remaining, other ∈ frame.newlyLoaded :=
        (hs.tasks task).formed _ _ h
      -- The slot is registered and has no leases, so the unload succeeds.
      obtain ⟨_, key, hmodel, hleases⟩ := hview.own id List.mem_cons_self
      cases s.shared.unload_cases id with
      | inl hkept =>
          cases hkept.2.2 with
          | inl hdraining =>
              rw [hrunning] at hdraining
              cases hdraining
          | inr hleased => exact absurd hleases (hleased key hmodel)
      | inr hgone =>
          obtain ⟨found, _, hfound, _, hafter⟩ := hgone
          rw [hafter]
          refine hs.withdraw h rfl rfl
            (fun other hother => hformed other (List.mem_cons_of_mem _ hother)) rfl hfound ?_
          intro _ hview
          refine ⟨hview.unload hs.keyed hfound rfl rfl (.inl rfl) ?_,
            fun other hother => List.mem_cons_of_mem _ hother, fun _ => List.mem_cons_self⟩
          intro other
          have hloaded : id ∈ frame.newlyLoaded := hformed id List.mem_cons_self
          have hnodup : id ∉ remaining := (List.nodup_cons.mp hview.nodup).1
          simp only [List.mem_filter, Bool.not_eq_true', List.contains_eq_mem,
            decide_eq_false_iff_not, List.mem_cons, not_or, CallPc.view]
          constructor
          · intro hother
            by_cases heq : other = id
            · exact .inr heq
            · exact .inl ⟨hother.1, heq, hother.2⟩
          · intro hother
            cases hother with
            | inl hbefore => exact ⟨hbefore.1, hbefore.2.2⟩
            | inr heq =>
                rw [heq]
                exact ⟨hloaded, hnodup⟩
  | @rolledBack frame ending =>
      refine hs.hold_same h rfl rfl trivial (fun hpast => by cases hpast) ?_
      intro _ hview
      have hall : (frame.newlyLoaded.filter fun id => !([] : List String).contains id) =
          frame.newlyLoaded := by simp
      rw [show (CallPc.rolling frame [] ending).view models .preload = _ from rfl, CallPc.view,
        hall] at hview
      exact ⟨hview, fun _ hid => hid⟩
  | unrecord =>
      exact hs.mark h rfl rfl trivial (fun hpast => by cases hpast)
        fun _ hview => ⟨hview.unrecord rfl rfl rfl, fun _ hid => hid⟩
  | ungate =>
      exact hs.mark h rfl rfl trivial (fun hpast => by cases hpast)
        fun _ hview => ⟨hview.ungate, fun _ hid => hid⟩

end

/-! ## Calm runs keep the invariant -/

/-- One calm step keeps the invariant. -/
theorem Sound.step {models : List String} {s s' : State} (hs : Sound models s)
    (hstep : CalmStep models s s') : Sound models s' := by
  obtain ⟨task, event, hcalm, hstep⟩ := hstep
  have hidle : ∀ {t}, s.tasks task = t → t.holds = false → (s.tasks task).holds = false :=
    fun h hholds => h ▸ hholds
  have hpast : ∀ {t}, s.tasks task = t → t.pastCommit = false →
      (s.tasks task).pastCommit = false := fun h hnot => h ▸ hnot
  cases hstep with
  | embedCalled h =>
      refine hs.quiet (hidle h rfl) (fun _ _ _ _ hzero => hzero) hs.keyed.unleased ?_
      have ht := hs.tasks task
      rw [h] at ht
      refine ⟨ht.lock, fun _ _ hcall => (by cases hcall), ?_, ht.committed,
        fun _ _ hcall => (by cases hcall), fun _ hcall => (by cases hcall),
        fun _ _ _ hcall => (by cases hcall)⟩
      intro id pc key hcall hkey
      cases hcall
      cases hkey
  | embed h hembed =>
      exact hs.embed (hidle h rfl) (hpast h rfl)
        (fun key => (hs.tasks task).embeds _ _ key h) hembed hcalm
  | @called kind h =>
      refine hs.step_aside (hidle h rfl) (hpast h rfl) rfl ?_
      rintro hdraining rfl
      -- A calm step calls no preload while draining.
      rw [show s.shared.draining = false from hcalm] at hdraining
      cases hdraining
  | @refused kind h _ =>
      exact hs.step_aside (hidle h rfl) (hpast h (by cases kind <;> rfl)) rfl fun _ _ => ⟨_, rfl⟩
  | @wait kind h _ =>
      refine hs.step_aside (hidle h rfl) (hpast h (by cases kind <;> rfl)) rfl ?_
      rintro hdraining rfl
      -- After the fence no preload waits.
      obtain ⟨ending, hended⟩ := (hs.tasks task).fenced hdraining _ h
      cases hended
  | @abandon kind h =>
      exact hs.step_aside (hidle h rfl) (hpast h (by cases kind <;> rfl)) rfl fun _ _ => ⟨_, rfl⟩
  | lock h hfree => exact hs.acquire h hfree
  | call h hcall => exact hs.call_step h hcall hcalm
  | leave h => exact hs.leave h
  | shutdownCalled h =>
      refine hs.quiet (hidle h rfl) (fun _ _ _ _ hzero => hzero) hs.keyed.unleased ?_
      have ht := hs.tasks task
      rw [h] at ht
      refine ⟨ht.lock, fun _ _ hcall => (by cases hcall), fun _ _ _ hcall => (by cases hcall),
        ht.committed, fun _ _ hcall => (by cases hcall), ?_, fun _ _ _ hcall => (by cases hcall)⟩
      intro pc hcall hcalled
      cases hcall
      exact absurd rfl hcalled
  | shutdownBegins h => exact hs.fence h
  | shutdown h hshutdown => exact hs.shut_down h hshutdown hcalm

/-- The invariant holds in every state of a calm run. -/
theorem sound_run {models : List String} {s : State}
    (hrun : Transition.Run (CalmStep models) initial s) : Sound models s :=
  Transition.Preserves.run (fun _ _ hs hstep => hs.step hstep) hrun (sound_initial models)

/-! ## What was registered when the lock was taken -/

/-- Nothing is recorded for a call that has not had the lock. -/
def Fresh (s : State) : Prop :=
  ∀ task, (s.tasks task).unstarted = true → s.shared.entry task = fun _ => none

theorem Fresh.update {s : State} (hs : Fresh s) {task : Nat} {next : Task} {after : Shared}
    (hentry : after.entry = s.shared.entry)
    (hnext : next.unstarted = true → (s.tasks task).unstarted = true) :
    Fresh (s.update task next after) := by
  intro other hother
  show after.entry other = _
  rw [hentry]
  by_cases heq : other = task
  · rw [heq, State.update_self] at hother
    rw [heq]
    exact hs task (hnext hother)
  · rw [State.update_ne s heq] at hother
    exact hs other hother

/-- Only the lock writes the record. -/
theorem LoadStep.entry {s after : Shared} {id : String} {preload : Option Nat} {pc : LoadPc}
    {result : LoadPc ⊕ Bool} (h : LoadStep s id preload pc result after) :
    after.entry = s.entry := by
  cases h with
  | retract =>
      cases s.unload_cases id with
      | inl hkept => rw [hkept.2.1]
      | inr hgone =>
          obtain ⟨key, _, _, _, hafter⟩ := hgone
          rw [hafter]
          rfl
  | _ => rfl

theorem CallStep.entry {models : List String} {task : Nat} {s after : Shared} {kind : Kind}
    {pc next : CallPc} (h : CallStep models task s kind pc next after) :
    after.entry = s.entry ∧ Task.unstarted (.call kind next) = false := by
  have hunload : ∀ id, (s.unload id).2.entry = s.entry := by
    intro id
    cases s.unload_cases id with
    | inl hkept => rw [hkept.2.1]
    | inr hgone =>
        obtain ⟨key, _, _, _, hafter⟩ := hgone
        rw [hafter]
        rfl
  cases h with
  | load hload | loadFailed hload | loaded hload | inside hload | insideLoaded hload
  | insideFailed hload => exact ⟨hload.entry, rfl⟩
  | unload | rollback => exact ⟨hunload _, rfl⟩
  | _ => exact ⟨rfl, rfl⟩

theorem Fresh.step {models : List String} {task : Nat} {event : Event} {s s' : State} (hs : Fresh s)
    (h : Step models task s event s') : Fresh s' := by
  cases h with
  | embedCalled | refused | abandon | leave | shutdownCalled | shutdownBegins =>
      exact hs.update rfl fun hnext => by cases hnext
  | called h =>
      exact hs.update rfl fun _ => by rw [h]; rfl
  | wait h =>
      exact hs.update rfl fun _ => by rw [h]; rfl
  | embed _ hembed =>
      exact hs.update (by cases hembed <;> rfl) fun hnext => by cases hnext
  | call _ hcall =>
      refine hs.update hcall.entry.1 fun hnext => ?_
      rw [hcall.entry.2] at hnext
      cases hnext
  | shutdown _ hshutdown =>
      exact hs.update (by cases hshutdown <;> rfl) fun hnext => by cases hnext
  | @lock kind h hfree =>
      intro other hother
      have hne : other ≠ task := by
        intro heq
        rw [heq, State.update_self] at hother
        cases hother
      rw [State.update_ne s hne] at hother
      show Function.update s.shared.entry task s.shared.models other = _
      rw [Function.update_of_ne hne]
      exact hs other hother

theorem fresh_run {models : List String} {s : State}
    (hrun : Transition.Run (CalmStep models) initial s) : Fresh s := by
  refine Transition.Preserves.run (fun _ _ hs hstep => ?_) hrun fun _ _ => rfl
  obtain ⟨_, _, _, hstep⟩ := hstep
  exact hs.step hstep

/-! ## The end of a preload -/

/-- What a strict preload that did not succeed leaves behind. -/
structure RolledBack (models : List String) (task : Nat) (s : Shared) : Prop where
  /-- Nothing that the call loaded is registered. -/
  withdrawn : ∀ id key, s.models id = some key → s.origin key ≠ some task
  agrees : ∀ id ∈ models, (s.loaded id = true ↔ (s.models id).isSome)
  opened : ∀ id ∈ models, s.preloadPending id = false
  /-- What was registered when the call took the lock still serves. -/
  untouched : ∀ id key, s.entry task id = some key →
    s.models id = some key ∧ s.accepting key = true

/-- A preload ends in this step, and not with success. -/
def GivesUp (task : Nat) (s s' : State) : Prop :=
  ∃ pc ending, s.tasks task = .call .preload pc ∧ (∀ before, pc ≠ .ended before) ∧
    s'.tasks task = .call .preload (.ended ending) ∧ ending ≠ .succeeded

/-- An embedding starts inference on the engine of a slot in this step. -/
def StartsInference (task : Nat) (key : ModelKey) (s s' : State) : Prop :=
  ∃ id lease, s.tasks task = .embed id (.leased key lease) ∧
    s'.tasks task = .embed id (.inferring key lease)

/-- No call is midway, so everything agrees. -/
theorem Sound.settled {models : List String} {s : State} (hs : Sound models s)
    (hrunning : s.shared.draining = false)
    (hcalm : ∀ task kind pc, s.tasks task = .call kind pc → pc.midway = false) :
    s.shared.Settled := by
  cases hlock : s.shared.lifecycle with
  | none => exact hs.free hrunning hlock
  | some holder =>
      have hholds := (hs.tasks holder).lock.mp hlock
      cases htask : s.tasks holder with
      | absent | embed | shutdown =>
          rw [htask] at hholds
          cases hholds
      | call kind pc =>
          rw [htask] at hholds
          exact ((hs.tasks holder).held hrunning kind pc htask hholds).1.settled
            (hcalm holder kind pc htask)

/-- A preload that never had the lock leaves nothing. -/
theorem Sound.ends_unstarted {models : List String} {s : State} {task : Nat} {pc : CallPc}
    (hs : Sound models s) (hfresh : Fresh s) (h : s.tasks task = .call .preload pc)
    (hpc : (Task.call .preload pc).unstarted = true)
    (hcalm : ∀ task kind pc, s.tasks task = .call kind pc → pc.midway = false) :
    RolledBack models task s.shared := by
  have hpoint : pc.holds = false ∧ pc.pastCommit = false ∧ ∀ ending, pc ≠ .ended ending := by
    cases pc with
    | called | waiting => exact ⟨rfl, rfl, fun _ hended => by cases hended⟩
    | _ => cases hpc
  obtain ⟨hidle, hpast, hactive⟩ := hpoint
  have hrunning : s.shared.draining = false := by
    rw [Bool.eq_false_iff]
    intro hdraining
    obtain ⟨ending, hended⟩ := (hs.tasks task).fenced hdraining pc h
    exact hactive ending hended
  have hsettled := hs.settled hrunning hcalm
  refine ⟨?_, fun id _ => hsettled.agrees id, fun id _ => hsettled.opened id, ?_⟩
  · intro id key hmodel howner
    cases hs.origins id key task hmodel howner with
    | inl hcommitted =>
        rw [hs.uncommitted h hpast] at hcommitted
        cases hcommitted
    | inr hholder =>
        have hholds := (hs.tasks task).lock.mp hholder.1
        rw [h, show Task.holds (.call .preload pc) = pc.holds from rfl, hidle] at hholds
        cases hholds
  · intro id key hentry
    rw [hfresh task (by rw [h]; exact hpc)] at hentry
    cases hentry

/-- A preload that gives the lock back leaves nothing, unless it has succeeded. -/
theorem Sound.ends {models : List String} {s : State} {task : Nat} {ending : Ending}
    (hs : Sound models s) (h : s.tasks task = .call .preload (.leaving ending))
    (hending : ending ≠ .succeeded) : RolledBack models task s.shared := by
  have hrunning := hs.running h rfl
  obtain ⟨hview, hkeeps⟩ := (hs.tasks task).held hrunning .preload _ h rfl
  have hsettled := hview.settled rfl
  refine ⟨?_, fun id _ => hsettled.agrees id, fun id _ => hsettled.opened id, ?_⟩
  · intro id key hmodel howner
    cases hview.whole id key hmodel howner with
    | inl hcommitted =>
        have hpast : (CallPc.leaving ending).pastCommit = false := by
          cases ending with
          | succeeded => exact absurd rfl hending
          | failed | dropped => rfl
        rw [hs.uncommitted h hpast] at hcommitted
        cases hcommitted
    | inr hown => cases hown
  · intro id key hentry
    have hmodel := (hkeeps rfl id key hentry).1
    exact ⟨hmodel, hs.accepting hrunning id key hmodel⟩

/-- In a calm run a strict preload that fails or is dropped is rolled back completely, and no
embedding starts inference on a slot of a preload that has not committed. -/
theorem calm_preload_rolls_back {models : List String} {s s' : State}
    (hrun : Transition.Run (CalmStep models) initial s) (hstep : CalmStep models s s') :
    (∀ task, GivesUp task s s' → RolledBack models task s'.shared) ∧
      ∀ task key, StartsInference task key s s' → ∀ owner, s'.shared.origin key = some owner →
        s'.shared.committed owner = true := by
  have hs := sound_run hrun
  have hs' := hs.step hstep
  constructor
  · intro task hgives
    obtain ⟨pc, ending, hbefore, hactive, hafter, hending⟩ := hgives
    obtain ⟨stepping, event, hcalm, hstep⟩ := hstep
    -- The other tasks stay where they are.
    have hother : ∀ (next : Task) (shared : Shared),
        (s.update stepping next shared).tasks task = .call .preload (.ended ending) →
        task = stepping ∧ next = .call .preload (.ended ending) := by
      intro next shared hnext
      by_cases heq : task = stepping
      · refine ⟨heq, ?_⟩
        rw [heq, State.update_self] at hnext
        exact hnext
      · rw [State.update_ne s heq, hbefore] at hnext
        cases hnext
        exact absurd rfl (hactive ending)
    cases hstep with
    | embedCalled | embed | called | wait | lock | shutdownCalled | shutdownBegins | shutdown =>
        obtain ⟨_, hnext⟩ := hother _ _ hafter
        cases hnext
    | call h hcall =>
        obtain ⟨rfl, hnext⟩ := hother _ _ hafter
        cases hnext
        cases hcall
    | refused h =>
        obtain ⟨rfl, hnext⟩ := hother _ _ hafter
        cases hnext
        exact hs.ends_unstarted (fresh_run hrun) h rfl hcalm
    | abandon h =>
        obtain ⟨rfl, hnext⟩ := hother _ _ hafter
        cases hnext
        exact hs.ends_unstarted (fresh_run hrun) h rfl hcalm
    | leave h =>
        obtain ⟨rfl, hnext⟩ := hother _ _ hafter
        cases hnext
        have hends := hs.ends h hending
        exact ⟨hends.withdrawn, hends.agrees, hends.opened, hends.untouched⟩
  · intro task key hstarts owner howner
    obtain ⟨id, lease, _, hafter⟩ := hstarts
    exact ((hs'.tasks task).embeds id _ key hafter rfl).2 owner howner

/-- A preload that holds the lock does not cut across itself. -/
theorem CalmStep.preload {models : List String} {s : State} (task : Nat) {pc next : CallPc}
    {after : Shared} (h : s.tasks task = .call .preload pc)
    (hstep : CallStep models task s.shared .preload pc next after) :
    CalmStep models s (s.update task (.call .preload next) after) :=
  ⟨task, CallPc.event .preload pc, trivial, .call h hstep⟩

/-- A run that is not interrupted: the first model is published, the second fails. -/
theorem calm_preload_rolls_back_failed :
    ∃ s s', (Transition.Run (CalmStep ["a", "b"]) initial s ∧ CalmStep ["a", "b"] s s') ∧
      GivesUp 1 s s' ∧ RolledBack ["a", "b"] 1 s'.shared := by
  have h : Transition.Run (CalmStep ["a", "b"]) initial _ :=
    .single ⟨1, .preload, rfl, @Step.called _ 1 _ .preload rfl⟩
  replace h := h.tail ⟨1, .quiet, trivial, .wait rfl rfl⟩
  replace h := h.tail ⟨1, .quiet, trivial, .lock rfl rfl⟩
  replace h := h.tail (.preload 1 rfl (.begin rfl))
  replace h := h.tail (.preload 1 rfl .gate)
  replace h := h.tail (.preload 1 rfl (.enter rfl rfl))
  replace h := h.tail (.preload 1 rfl (.inside (.enter rfl)))
  replace h := h.tail (.preload 1 rfl (.inside (.publish rfl rfl)))
  replace h := h.tail (.preload 1 rfl (.insideLoaded (.record rfl)))
  replace h := h.tail (.preload 1 rfl (.enter rfl rfl))
  replace h := h.tail (.preload 1 rfl (.inside (.enter rfl)))
  replace h := h.tail (.preload 1 rfl (.insideFailed .failed))
  replace h := h.tail (.preload 1 rfl .rollback)
  replace h := h.tail (.preload 1 rfl .rolledBack)
  replace h := h.tail (.preload 1 rfl .unrecord)
  replace h := h.tail (.preload 1 rfl .ungate)
  obtain ⟨s, hleaving, hrun⟩ : ∃ s : State, s.tasks 1 = .call .preload (.leaving .failed) ∧
      Transition.Run (CalmStep ["a", "b"]) initial s := ⟨_, rfl, h⟩
  obtain ⟨s', hended, hstep⟩ : ∃ s' : State, s'.tasks 1 = .call .preload (.ended .failed) ∧
      CalmStep ["a", "b"] s s' := ⟨_, s.update_self .., 1, .quiet, trivial, .leave hleaving⟩
  have hgives : GivesUp 1 s s' := ⟨_, .failed, hleaving, by rintro _ ⟨⟩, hended, by decide⟩
  exact ⟨s, s', ⟨hrun, hstep⟩, hgives, (calm_preload_rolls_back hrun hstep).1 1 hgives⟩

/-- A step of some task. -/
def AnyStep (models : List String) (s s' : State) : Prop :=
  ∃ task event, Step models task s event s'

/-- An embedding that has passed the gate before the preload comes to the registry after the first
model is published: it starts inference on the hidden slot, its lease blocks the rollback, and the
slot stays registered when the second model has failed. -/
theorem leased_slot_survives_rollback :
    ¬ ∀ (models : List String) (s s' : State), Transition.Run (AnyStep models) initial s →
      AnyStep models s s' →
        (∀ task, GivesUp task s s' → RolledBack models task s'.shared) ∧
          ∀ task key, StartsInference task key s s' → ∀ owner,
            s'.shared.origin key = some owner → s'.shared.committed owner = true := by
  intro hclaim
  have h : Transition.Run (AnyStep ["a", "b"]) initial _ :=
    .single ⟨0, _, @Step.embedCalled _ 0 _ "a" rfl⟩
  replace h := h.tail ⟨0, _, .embed rfl (.read rfl)⟩
  replace h := h.tail ⟨0, _, .embed rfl (.pass rfl)⟩
  replace h := h.tail ⟨1, _, @Step.called _ 1 _ .preload rfl⟩
  replace h := h.tail ⟨1, _, .wait rfl rfl⟩
  replace h := h.tail ⟨1, _, .lock rfl rfl⟩
  replace h := h.tail ⟨1, _, .call rfl (.begin rfl)⟩
  replace h := h.tail ⟨1, _, .call rfl .gate⟩
  replace h := h.tail ⟨1, _, .call rfl (.enter rfl rfl)⟩
  replace h := h.tail ⟨1, _, .call rfl (.inside (.enter rfl))⟩
  replace h := h.tail ⟨1, _, .call rfl (.inside (.publish rfl rfl))⟩
  replace h := h.tail ⟨1, _, .call rfl (.insideLoaded (.record rfl))⟩
  -- The embedding looks the slot up only now.
  replace h := h.tail ⟨0, _, .embed rfl (.find rfl rfl)⟩
  replace h := h.tail ⟨0, _, .embed rfl (.accept rfl)⟩
  replace h := h.tail ⟨0, _, .embed rfl (.lease rfl rfl)⟩
  replace h := h.tail ⟨0, _, .embed rfl .infer⟩
  replace h := h.tail ⟨1, _, .call rfl (.enter rfl rfl)⟩
  replace h := h.tail ⟨1, _, .call rfl (.inside (.enter rfl))⟩
  replace h := h.tail ⟨1, _, .call rfl (.insideFailed .failed)⟩
  replace h := h.tail ⟨1, _, .call rfl .rollback⟩
  replace h := h.tail ⟨1, _, .call rfl .rolledBack⟩
  replace h := h.tail ⟨1, _, .call rfl .unrecord⟩
  replace h := h.tail ⟨1, _, .call rfl .ungate⟩
  obtain ⟨hrolled, _⟩ := hclaim _ _ _ h ⟨1, _, .leave rfl⟩
  have hleft := hrolled 1 ⟨_, .failed, rfl, by rintro _ ⟨⟩, rfl, by decide⟩
  exact hleft.withdrawn "a" 1 rfl rfl

end EmbeddingServer.Preload
