import EmbeddingServer.Core.TokenGraph
import Mathlib.Data.Finset.Card
import Mathlib.Data.Finset.Range

/-!
# What cancellation means

In a settled graph an `any` state that is cancelled has its own flag set: nothing is `Upset`. The
dependents of a signal include all live `any` states that it can upset (`Sound.registered`), so a
cancellation settles the graph again, whatever is shared. Flags are set for two reasons only
(`Justified`), and a cancellation reaches only states that are younger than its signal
(`Sound.above`), which no constituent of an `any` state is.
-/

namespace EmbeddingServer.TokenGraph

/-! ## Invariants -/

/-- The invariant of the graph between operations and during a cancellation. -/
structure Sound (g : TokenGraph) : Prop where
  handles : ∀ token ∈ g.handles, Built g token
  heap : ∀ signal constituents, g.heap signal = some constituents →
    Built g (.any signal constituents)
  fresh : ∀ signal, g.next ≤ signal → g.flags signal = false ∧ g.dependents signal = []
  above : ∀ signal dependent, dependent ∈ g.dependents signal →
    signal < dependent ∧ dependent < g.next
  registered : ∀ dependent constituents, g.heap dependent = some constituents →
    g.alive dependent = true → ∀ constituent ∈ constituents, ∀ signal ∈ constituent.signals,
      dependent ∈ g.dependents signal

/-- A live `any` state whose own flag is not set although a constituent has all its signals set. -/
def Upset (g : TokenGraph) (dependent : SignalId) : Prop :=
  g.alive dependent = true ∧ g.flags dependent = false ∧
    ∃ constituents, g.heap dependent = some constituents ∧
      ∃ constituent ∈ constituents, g.Flagged constituent

/-- Nothing is upset. -/
def Settled (g : TokenGraph) : Prop :=
  ∀ dependent, ¬ g.Upset dependent

/-- A call to `cancel` reached the signal. -/
def Called (g : TokenGraph) (signal : SignalId) : Prop :=
  ∃ token ∈ g.calls, signal ∈ token.signals

/-- A constituent of the `any` state is cancelled. -/
def Triggered (g : TokenGraph) (signal : SignalId) : Prop :=
  ∃ constituents, g.heap signal = some constituents ∧
    ∃ constituent ∈ constituents, g.isCancelled constituent = true

/-- A flag is set by a call, or because a constituent was cancelled. -/
def Justified (g : TokenGraph) : Prop :=
  ∀ signal, g.flags signal = true → g.Called signal ∨ g.Triggered signal

/-- All of the invariants between operations. -/
structure Coherent (g : TokenGraph) : Prop where
  sound : g.Sound
  settled : g.Settled
  justified : g.Justified
  called : ∀ signal, g.Called signal → g.flags signal = true

/-- Flags and weak references may differ, nothing else. -/
structure SameShape (g g' : TokenGraph) : Prop where
  next : g'.next = g.next
  heap : g'.heap = g.heap
  handles : g'.handles = g.handles
  calls : g'.calls = g.calls

/-- The second graph has all flags of the first. -/
def FlagsLe (g g' : TokenGraph) : Prop :=
  ∀ signal, g.flags signal = true → g'.flags signal = true

variable {g g' : TokenGraph}

theorem SameShape.refl (g : TokenGraph) : g.SameShape g :=
  ⟨rfl, rfl, rfl, rfl⟩

theorem SameShape.trans {first second third : TokenGraph} (h : first.SameShape second)
    (hnext : second.SameShape third) : first.SameShape third :=
  ⟨hnext.next.trans h.next, hnext.heap.trans h.heap, hnext.handles.trans h.handles,
    hnext.calls.trans h.calls⟩

/-- What is alive depends on the tokens that are held. -/
theorem SameShape.alive (h : g.SameShape g') (signal : SignalId) :
    g'.alive signal = g.alive signal := by
  unfold TokenGraph.alive
  rw [h.handles]

/-- Tokens that are built stay built. -/
theorem SameShape.built (h : g.SameShape g') {token : CancellationToken} (hbuilt : Built g token) :
    Built g' token :=
  hbuilt.extend (Nat.le_of_eq h.next.symm) fun signal _ => congrFun h.heap signal

@[simp]
theorem swap_flags_self (signal : SignalId) : (g.swap signal).flags signal = true :=
  Function.update_self ..

@[simp]
theorem swap_flags_ne {signal other : SignalId} (h : other ≠ signal) :
    (g.swap signal).flags other = g.flags other :=
  Function.update_of_ne h ..

theorem swap_shape (g : TokenGraph) (signal : SignalId) : g.SameShape (g.swap signal) :=
  ⟨rfl, rfl, rfl, rfl⟩

/-- A swap sets a flag. -/
theorem swap_flags_le (g : TokenGraph) (signal : SignalId) : g.FlagsLe (g.swap signal) := by
  intro other hflag
  by_cases heq : other = signal
  · subst heq
    exact swap_flags_self other
  · rw [swap_flags_ne heq]
    exact hflag

/-- A swap forgets dependents that are dead. -/
theorem mem_swap_dependents {signal source dependent : SignalId} :
    dependent ∈ (g.swap signal).dependents source ↔
      dependent ∈ g.dependents source ∧ (source = signal → g.alive dependent = true) := by
  unfold swap
  by_cases heq : source = signal
  · subst heq
    simp [Function.update_self, List.mem_filter]
  · simp [heq]

/-- A dependent that is due has a cancelled constituent. -/
theorem source_changed_iff {dependent : SignalId} :
    g.sourceChanged dependent = true ↔ g.alive dependent = true ∧ g.Triggered dependent := by
  unfold sourceChanged Triggered
  rw [Bool.and_eq_true]
  cases g.heap dependent with
  | none => simp
  | some constituents => simp

/-- A trigger stays while flags are only set. -/
theorem Triggered.mono (hshape : g.SameShape g') (hflags : g.FlagsLe g') {signal : SignalId}
    (h : g.Triggered signal) : g'.Triggered signal := by
  obtain ⟨constituents, hheap, constituent, hmem, hcancelled⟩ := h
  exact ⟨constituents, (congrFun hshape.heap signal).trans hheap, constituent, hmem,
    is_cancelled_mono hflags hcancelled⟩

/-- A swap of an existing signal keeps the graph sound. -/
theorem Sound.swap (h : g.Sound) {signal : SignalId} (hlt : signal < g.next) :
    (g.swap signal).Sound where
  handles token hmem := (swap_shape g signal).built (h.handles token hmem)
  heap own constituents hheap := (swap_shape g signal).built (h.heap own constituents hheap)
  fresh own hfresh := by
    have hne : own ≠ signal := fun heq => absurd hlt (Nat.not_lt.mpr (heq ▸ hfresh))
    obtain ⟨hflag, hnone⟩ := h.fresh own hfresh
    refine ⟨(swap_flags_ne hne).trans hflag, ?_⟩
    rw [List.eq_nil_iff_forall_not_mem]
    intro dependent hmem
    rw [mem_swap_dependents, hnone] at hmem
    exact absurd hmem.1 List.not_mem_nil
  above source dependent hmem := h.above source dependent (mem_swap_dependents.mp hmem).1
  registered dependent constituents hheap halive constituent hconstituent source hsource :=
    mem_swap_dependents.mpr
      ⟨h.registered dependent constituents hheap halive constituent hconstituent source hsource,
        fun _ => halive⟩

/-! ## One signal -/

/-- What a cancellation keeps: the graph is sound and of the same shape, and the signals it
reaches exist and are not older than the first. -/
theorem propagation_kept (start : TokenGraph) (least : SignalId) :
    Cascade.Kept propagation (fun g => g.Sound ∧ start.SameShape g)
      (fun signal => least ≤ signal ∧ signal < start.next) where
  mark := by
    intro g signal hinv hwithin _
    refine ⟨hinv.1.swap ?_, hinv.2.trans (swap_shape g signal)⟩
    rw [hinv.2.next]
    exact hwithin.2
  within := by
    intro _ signal dependent hinv hwithin hmem
    have hlisted := (List.mem_filter.mp hmem).1
    obtain ⟨hlt, hnext⟩ := hinv.1.above signal dependent hlisted
    rw [hinv.2.next] at hnext
    exact ⟨Nat.le_trans hwithin.1 (Nat.le_of_lt hlt), hnext⟩

theorem propagation_marking : Cascade.Marking propagation where
  self _ signal := swap_flags_self signal
  stays g signal other hflag := swap_flags_le g signal other hflag

/-- A swap upsets only dependents of its signal, and a dependent that is not due is not upset. -/
theorem propagation_settling (start : TokenGraph) (least : SignalId) :
    Cascade.Settling propagation (fun g => g.Sound ∧ start.SameShape g)
      (fun signal => least ≤ signal ∧ signal < start.next) Upset where
  mark := by
    intro g signal dependent hinv _ _ hupset
    obtain ⟨halive, hflag, constituents, hheap, constituent, hmem, hflagged⟩ := hupset
    have hbefore : g.flags dependent = false := by
      cases hvalue : g.flags dependent with
      | false => rfl
      | true =>
          have hafter : (g.swap signal).flags dependent = true :=
            swap_flags_le g signal dependent hvalue
          exact absurd (hafter.symm.trans hflag) Bool.noConfusion
    by_cases hreached : signal ∈ constituent.signals
    · right
      exact List.mem_filter.mpr
        ⟨hinv.1.registered dependent constituents hheap halive constituent hmem signal hreached,
          halive⟩
    · left
      refine ⟨halive, hbefore, constituents, hheap, constituent, hmem, ?_⟩
      intro other hother
      have hne : other ≠ signal := fun heq => hreached (heq ▸ hother)
      exact (swap_flags_ne hne).symm.trans (hflagged other hother)
  marked := by
    intro _ dependent hflag hupset
    exact Bool.noConfusion (hflag.symm.trans hupset.2.1)
  ready := by
    intro g dependent hinv hidle hupset
    obtain ⟨halive, _, constituents, hheap, constituent, hmem, hflagged⟩ := hupset
    have hbuilt : Built g constituent := by
      cases hinv.1.heap dependent constituents hheap with
      | any _ _ hconstituents _ => exact hconstituents constituent hmem
    have hdue : g.sourceChanged dependent = true :=
      source_changed_iff.mpr
        ⟨halive, constituents, hheap, constituent, hmem, hbuilt.cancelled_of_flagged hflagged⟩
    exact Bool.noConfusion (hdue.symm.trans hidle)

/-- What a cancellation may have done to a graph, if every signal it was called for satisfies
`reached`. -/
structure Cancels (reached : SignalId → Prop) (least : SignalId) (g g' : TokenGraph) : Prop where
  sound : g'.Sound
  shape : g.SameShape g'
  flags : g.FlagsLe g'
  upset : ∀ dependent, g'.Upset dependent → g.Upset dependent
  younger : ∀ signal, signal < least → g'.flags signal = g.flags signal
  justified : ∀ signal, g'.flags signal = true →
    g.flags signal = true ∨ reached signal ∨ g'.Triggered signal

theorem Cancels.refl {reached : SignalId → Prop} {least : SignalId} (h : g.Sound) :
    Cancels reached least g g :=
  ⟨h, .refl g, fun _ h => h, fun _ h => h, fun _ _ => rfl, fun _ h => .inl h⟩

theorem Cancels.trans {reached : SignalId → Prop} {least : SignalId}
    {first second third : TokenGraph} (h : Cancels reached least first second)
    (hnext : Cancels reached least second third) : Cancels reached least first third where
  sound := hnext.sound
  shape := h.shape.trans hnext.shape
  flags signal hflag := hnext.flags signal (h.flags signal hflag)
  upset dependent hupset := h.upset dependent (hnext.upset dependent hupset)
  younger signal hlt := (hnext.younger signal hlt).trans (h.younger signal hlt)
  justified signal hflag := by
    cases hnext.justified signal hflag with
    | inr hreason => exact .inr hreason
    | inl hsecond =>
        cases h.justified signal hsecond with
        | inl hfirst => exact .inl hfirst
        | inr hreason =>
            cases hreason with
            | inl hreached => exact .inr (.inl hreached)
            | inr htriggered => exact .inr (.inr (htriggered.mono hnext.shape hnext.flags))

/-- `CancellationSignal::cancel` sets its flag and cancels what that triggers. -/
theorem cancel_signal_spec {fuel : Nat} {signal least : SignalId} {reached : SignalId → Prop}
    (hsound : g.Sound) (hlt : signal < g.next) (hleast : least ≤ signal) (hreached : reached signal)
    (h : cancelSignal fuel g signal = some g') :
    Cancels reached least g g' ∧ g'.flags signal = true := by
  have hready : ∀ {s : TokenGraph} {node : SignalId}, (s.Sound ∧ g.SameShape s) →
      propagation.ready s node = true → reached node ∨ s.Triggered node :=
    fun _ hready => .inr (source_changed_iff.mp hready).2
  obtain ⟨⟨hfinal, hshape⟩, hrun⟩ := Cascade.cascade_run (propagation_kept g least) hready
    ⟨hsound, .refl g⟩ ⟨hleast, hlt⟩ (.inl hreached) h
  obtain ⟨hflag, hupset⟩ := Cascade.cascade_settles (propagation_kept g least) propagation_marking
    (propagation_settling g least) ⟨hsound, .refl g⟩ ⟨hleast, hlt⟩ h
  -- what every mark of the run keeps
  have hkeeps : g.FlagsLe g' ∧ (∀ other, other < least → g'.flags other = g.flags other) ∧
      ∀ other, g'.flags other = true →
        g.flags other = true ∨ reached other ∨ g'.Triggered other := by
    clear hflag hupset hfinal hshape h
    induction hrun with
    | refl => exact ⟨fun _ h => h, fun _ _ => rfl, fun _ h => .inl h⟩
    | @tail middle last _ hmark ih =>
        obtain ⟨node, hwithin, _, hreason, rfl⟩ := hmark
        obtain ⟨hle, hyoung, hjust⟩ := ih
        have hswap := swap_flags_le middle node
        refine ⟨fun other hother => hswap other (hle other hother), ?_, ?_⟩
        · intro other hother
          have hne : other ≠ node := fun heq => absurd hwithin.1 (Nat.not_le.mpr (heq ▸ hother))
          exact (swap_flags_ne hne).trans (hyoung other hother)
        · intro other hother
          have hold : middle.flags other = true → g.flags other = true ∨ reached other ∨
              (middle.swap node).Triggered other := by
            intro hbefore
            cases hjust other hbefore with
            | inl hfirst => exact .inl hfirst
            | inr hcause =>
                cases hcause with
                | inl hcall => exact .inr (.inl hcall)
                | inr htrigger =>
                    exact .inr (.inr (htrigger.mono (swap_shape middle node) hswap))
          by_cases heq : other = node
          · subst heq
            cases hreason with
            | inl hcall => exact .inr (.inl hcall)
            | inr htrigger => exact .inr (.inr (htrigger.mono (swap_shape middle other) hswap))
          · exact hold ((swap_flags_ne heq).symm.trans hother)
  exact ⟨⟨hfinal, hshape, hkeeps.1, hupset, hkeeps.2.1, hkeeps.2.2⟩, hflag⟩

/-- The signals that are not yet cancelled. -/
def unset (g : TokenGraph) : Nat :=
  ((Finset.range g.next).filter fun signal => g.flags signal = false).card

/-- There are not more of them than signals. -/
theorem unset_le (g : TokenGraph) : g.unset ≤ g.next := by
  have h := Finset.card_filter_le (Finset.range g.next) fun signal => g.flags signal = false
  rwa [Finset.card_range] at h

/-- A swap of one of them leaves fewer. -/
theorem unset_swap {signal : SignalId} (hlt : signal < g.next) (hflag : g.flags signal = false) :
    (g.swap signal).unset < g.unset := by
  apply Finset.card_lt_card
  rw [Finset.ssubset_iff_of_subset]
  · refine ⟨signal, Finset.mem_filter.mpr ⟨Finset.mem_range.mpr hlt, hflag⟩, ?_⟩
    intro hmem
    have hafter := (Finset.mem_filter.mp hmem).2
    rw [swap_flags_self] at hafter
    cases hafter
  · intro other hmem
    obtain ⟨hrange, hother⟩ := Finset.mem_filter.mp hmem
    refine Finset.mem_filter.mpr ⟨hrange, ?_⟩
    cases hbefore : g.flags other with
    | false => rfl
    | true =>
        rw [swap_flags_le g signal other hbefore] at hother
        cases hother

/-- A cancellation ends: its depth is bounded by the signals that are not yet cancelled. -/
theorem cancel_signal_total {fuel : Nat} {signal : SignalId} (hsound : g.Sound)
    (hlt : signal < g.next) (hfuel : g.unset < fuel) :
    ∃ g', cancelSignal fuel g signal = some g' ∧ g'.unset ≤ g.unset := by
  refine Cascade.cascade_total (propagation_kept g 0) unset ?_ ⟨hsound, .refl g⟩
    ⟨Nat.zero_le _, hlt⟩ hfuel
  intro s node hinv hwithin hmarked
  exact unset_swap (hinv.2.next ▸ hwithin.2) hmarked

end EmbeddingServer.TokenGraph
