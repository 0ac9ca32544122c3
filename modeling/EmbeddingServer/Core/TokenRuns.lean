import EmbeddingServer.Core.TokenSemantics

/-!
# Programs over cancellation tokens

The operations keep the graph coherent: `cancel` is one cancellation after the other, and `any`
registers a state that nobody depends on yet, so a registration cancels at most the new state
itself. `cancellation_semantics` reads the meaning of `is_cancelled` off the coherent graph.
-/

namespace EmbeddingServer.TokenGraph

variable {g g' : TokenGraph}

/-! ## cancel -/

/-- Cancelling some signals, one after the other. -/
theorem cancel_signals_spec {fuel : Nat} {least : SignalId} {reached : SignalId → Prop}
    {signals : List SignalId}
    (hwithin : ∀ signal ∈ signals, signal < g.next ∧ least ≤ signal ∧ reached signal)
    (hsound : g.Sound) (h : signals.foldlM (cancelSignal fuel) g = some g') :
    Cancels reached least g g' ∧ ∀ signal ∈ signals, g'.flags signal = true := by
  induction signals generalizing g with
  | nil =>
      cases h
      exact ⟨.refl hsound, fun _ hmem => absurd hmem List.not_mem_nil⟩
  | cons first rest ih =>
      rw [List.foldlM_cons] at h
      obtain ⟨middle, hfirst, hrest⟩ := Option.bind_eq_some_iff.mp h
      obtain ⟨hlt, hleast, hreached⟩ := hwithin first List.mem_cons_self
      obtain ⟨hcancels, hflag⟩ := cancel_signal_spec hsound hlt hleast hreached hfirst
      have hnext : ∀ signal ∈ rest, signal < middle.next ∧ least ≤ signal ∧ reached signal := by
        intro signal hmem
        rw [hcancels.shape.next]
        exact hwithin signal (List.mem_cons_of_mem first hmem)
      obtain ⟨hcancelsRest, hflags⟩ := ih hnext hcancels.sound hrest
      refine ⟨hcancels.trans hcancelsRest, ?_⟩
      intro signal hmem
      cases List.mem_cons.mp hmem with
      | inl heq => exact heq ▸ hcancelsRest.flags first hflag
      | inr hin => exact hflags signal hin

/-- Cancelling some signals ends. -/
theorem cancel_signals_total {fuel : Nat} {signals : List SignalId}
    (hwithin : ∀ signal ∈ signals, signal < g.next) (hsound : g.Sound) (hfuel : g.unset < fuel) :
    ∃ g', signals.foldlM (cancelSignal fuel) g = some g' := by
  induction signals generalizing g with
  | nil => exact ⟨g, rfl⟩
  | cons first rest ih =>
      have hlt := hwithin first List.mem_cons_self
      obtain ⟨middle, hfirst, hless⟩ := cancel_signal_total hsound hlt hfuel
      have hspec : Cancels (fun _ => True) 0 g middle ∧ middle.flags first = true :=
        cancel_signal_spec hsound hlt (Nat.zero_le _) trivial hfirst
      obtain ⟨hcancels, _⟩ := hspec
      have hnext : ∀ signal ∈ rest, signal < middle.next := by
        intro signal hmem
        rw [hcancels.shape.next]
        exact hwithin signal (List.mem_cons_of_mem first hmem)
      obtain ⟨final, hfinal⟩ := ih hnext hcancels.sound (Nat.lt_of_le_of_lt hless hfuel)
      refine ⟨final, ?_⟩
      rw [List.foldlM_cons]
      exact Option.bind_eq_some_iff.mpr ⟨middle, hfirst, hfinal⟩

/-- The call is recorded. -/
def record (g : TokenGraph) (token : CancellationToken) : TokenGraph :=
  { g with calls := token :: g.calls }

/-- Tokens do not depend on the calls made. -/
theorem Built.record {token : CancellationToken} (h : Built g token)
    (call : CancellationToken) : Built (g.record call) token :=
  Built.extend (g := g) (Nat.le_refl _) (fun _ _ => rfl) h

theorem Sound.record (h : g.Sound) (call : CancellationToken) : (g.record call).Sound where
  handles held hmem := (h.handles held hmem).record call
  heap signal constituents hheap := (h.heap signal constituents hheap).record call
  fresh := h.fresh
  above := h.above
  registered := h.registered

/-- `CancellationToken::cancel` keeps the graph coherent and sets the signals of its token. -/
theorem cancel_spec {fuel : Nat} {token : CancellationToken} {least : SignalId}
    (hcoherent : g.Coherent) (hbuilt : Built g token) (hleast : ∀ signal ∈ token.signals,
      least ≤ signal) (h : g.cancel fuel token = some g') :
    g'.Coherent ∧ (g.record token).SameShape g' ∧ g.FlagsLe g' ∧
      ∀ signal, signal < least → g'.flags signal = g.flags signal := by
  have hwithin : ∀ signal ∈ token.signals, signal < (g.record token).next ∧ least ≤ signal ∧
      (g.record token).Called signal := by
    intro signal hmem
    exact ⟨hbuilt.nodes_lt signal (hbuilt.signals_subset signal hmem), hleast signal hmem,
      token, List.mem_cons_self, hmem⟩
  obtain ⟨hcancels, hflags⟩ :=
    cancel_signals_spec hwithin (hcoherent.sound.record token) h
  have hcalled : ∀ signal, g'.Called signal ↔ (g.record token).Called signal := by
    intro signal
    unfold Called
    rw [hcancels.shape.calls]
  refine ⟨⟨hcancels.sound, ?_, ?_, ?_⟩, hcancels.shape, hcancels.flags, hcancels.younger⟩
  · intro dependent hupset
    exact hcoherent.settled dependent (hcancels.upset dependent hupset)
  · intro signal hflag
    rcases hcancels.justified signal hflag with hbefore | hreached | htriggered
    · cases hcoherent.justified signal hbefore with
      | inl hcall =>
          obtain ⟨call, hmem, hsignal⟩ := hcall
          exact .inl ((hcalled signal).mpr ⟨call, List.mem_cons_of_mem token hmem, hsignal⟩)
      | inr htrigger =>
          have hrecorded : (g.record token).Triggered signal := htrigger
          exact .inr (hrecorded.mono hcancels.shape hcancels.flags)
    · exact .inl ((hcalled signal).mpr hreached)
    · exact .inr htriggered
  · intro signal hcall
    obtain ⟨call, hmem, hsignal⟩ := (hcalled signal).mp hcall
    cases List.mem_cons.mp hmem with
    | inl heq =>
        subst heq
        exact hflags signal hsignal
    | inr hin => exact hcancels.flags signal (hcoherent.called signal ⟨call, hin, hsignal⟩)

/-! ## any -/

/-- A new `any` state under registration: only the new state may have become cancelled, nobody
depends on it, and it depends on the signals in `done`. -/
structure Registering (start : TokenGraph) (own : SignalId) (done : List SignalId)
    (g : TokenGraph) : Prop where
  shape : start.SameShape g
  flags : ∀ signal, signal ≠ own → g.flags signal = start.flags signal
  cause : g.flags own = true → g.Triggered own
  alone : g.dependents own = []
  kept : ∀ signal dependent, dependent ∈ start.dependents signal → start.alive dependent = true →
    dependent ∈ g.dependents signal
  added : ∀ signal dependent, dependent ∈ g.dependents signal →
    dependent ∈ start.dependents signal ∨ dependent = own ∧ signal < own
  done : ∀ signal ∈ done, own ∈ g.dependents signal

variable {start : TokenGraph} {own : SignalId} {done : List SignalId}

/-- When the new state hears of a change it cancels at most itself. -/
theorem Registering.notify (h : Registering start own done g) (fuel : Nat) :
    ∃ g', Cascade.notify propagation (cancelSignal (fuel + 1)) g own = some g' ∧
      Registering start own done g' ∧ (g.sourceChanged own = true → g'.flags own = true) := by
  cases hdue : g.sourceChanged own with
  | false =>
      refine ⟨g, ?_, h, fun h => (by cases h)⟩
      exact if_neg (by simp [propagation, hdue])
  | true =>
      have hnotify : Cascade.notify propagation (cancelSignal (fuel + 1)) g own =
          cancelSignal (fuel + 1) g own := if_pos hdue
      cases hflag : g.flags own with
      | true =>
          refine ⟨g, hnotify.trans ?_, h, fun _ => hflag⟩
          exact if_pos hflag
      | false =>
          have hlone : (g.dependents own).filter g.alive = [] := by
            rw [h.alone]
            rfl
          have hcancel : cancelSignal (fuel + 1) g own = some (g.swap own) := by
            unfold cancelSignal
            rw [Cascade.cascade, if_neg (by simp [propagation, hflag])]
            show List.foldlM _ (g.swap own) ((g.dependents own).filter g.alive) = _
            rw [hlone]
            rfl
          refine ⟨g.swap own, hnotify.trans hcancel, ?_, fun _ => swap_flags_self own⟩
          have htrigger : g.Triggered own := (source_changed_iff.mp hdue).2
          constructor
          · exact h.shape.trans (swap_shape g own)
          · intro signal hne
            exact (swap_flags_ne hne).trans (h.flags signal hne)
          · intro _
            exact htrigger.mono (swap_shape g own) (swap_flags_le g own)
          · rw [List.eq_nil_iff_forall_not_mem]
            intro dependent hmem
            rw [mem_swap_dependents, h.alone] at hmem
            exact absurd hmem.1 List.not_mem_nil
          · intro signal dependent hmem halive
            refine mem_swap_dependents.mpr ⟨h.kept signal dependent hmem halive, fun _ => ?_⟩
            rw [h.shape.alive]
            exact halive
          · intro signal dependent hmem
            exact h.added signal dependent (mem_swap_dependents.mp hmem).1
          · intro signal hmem
            exact mem_swap_dependents.mpr
              ⟨h.done signal hmem, fun _ => (source_changed_iff.mp hdue).1⟩

/-- After the locked part of `register_dependent` the dependent is listed. -/
theorem mem_remember_dependents {dependent signal source other : SignalId} :
    other ∈ (g.remember dependent signal).dependents source ↔
      if source = signal then
        other ∈ g.dependents source ∧ g.alive other = true ∨ other = dependent
      else other ∈ g.dependents source := by
  unfold remember
  by_cases heq : source = signal
  · subst heq
    rw [if_pos rfl]
    simp only [Function.update_self]
    split
    · rename_i hlisted
      rw [List.mem_filter]
      constructor
      · exact .inl
      · rintro (hmem | rfl)
        · exact hmem
        · exact List.mem_filter.mp hlisted
    · simp [List.mem_append, List.mem_filter]
  · rw [if_neg heq]
    simp only [Function.update_of_ne heq]

/-- `register_dependent` of the new state with an older signal. -/
theorem Registering.register (h : Registering start own done g) (fuel : Nat)
    {signal : SignalId} (hlt : signal < own) :
    ∃ g', registerDependent (fuel + 1) own g signal = some g' ∧
      Registering start own (signal :: done) g' := by
  have hne : own ≠ signal := fun heq => absurd (heq ▸ hlt) (Nat.lt_irrefl _)
  have hremember : Registering start own (signal :: done) (g.remember own signal) := by
    constructor
    · exact h.shape.trans ⟨rfl, rfl, rfl, rfl⟩
    · exact h.flags
    · exact h.cause
    · rw [List.eq_nil_iff_forall_not_mem]
      intro dependent hmem
      rw [mem_remember_dependents, if_neg hne, h.alone] at hmem
      exact absurd hmem List.not_mem_nil
    · intro source dependent hmem hlive
      rw [mem_remember_dependents]
      split
      · exact .inl ⟨h.kept source dependent hmem hlive, (h.shape.alive dependent).trans hlive⟩
      · exact h.kept source dependent hmem hlive
    · intro source dependent hmem
      rw [mem_remember_dependents] at hmem
      split at hmem
      · rename_i heq
        cases hmem with
        | inl hold => exact h.added source dependent hold.1
        | inr hnew => exact .inr ⟨hnew, heq ▸ hlt⟩
      · exact h.added source dependent hmem
    · intro source hmem
      rw [mem_remember_dependents]
      split
      · exact .inr rfl
      · rename_i hother
        cases List.mem_cons.mp hmem with
        | inl heq => exact absurd heq hother
        | inr hin => exact h.done source hin
  simp only [registerDependent]
  split
  · obtain ⟨g', hnotify, hregistering, _⟩ := hremember.notify fuel
    exact ⟨g', hnotify, hregistering⟩
  · exact ⟨_, rfl, hremember⟩

/-- The registrations of `any`, one after the other. -/
theorem Registering.registers (h : Registering start own done g) (fuel : Nat)
    {signals : List SignalId} (hlt : ∀ signal ∈ signals, signal < own) :
    ∃ g', signals.foldlM (registerDependent (fuel + 1) own) g = some g' ∧
      ∃ done', Registering start own done' g' ∧ (∀ signal ∈ done, signal ∈ done') ∧
        ∀ signal ∈ signals, signal ∈ done' := by
  induction signals generalizing g done with
  | nil =>
      exact ⟨g, rfl, done, h, fun _ hmem => hmem, fun _ hmem => absurd hmem List.not_mem_nil⟩
  | cons first rest ih =>
      obtain ⟨middle, hfirst, hregistering⟩ :=
        h.register fuel (hlt first List.mem_cons_self)
      obtain ⟨final, hfinal, done', hdone, hold, hnew⟩ :=
        ih hregistering fun signal hmem => hlt signal (List.mem_cons_of_mem first hmem)
      refine ⟨final, ?_, done', hdone, ?_, ?_⟩
      · rw [List.foldlM_cons]
        exact Option.bind_eq_some_iff.mpr ⟨middle, hfirst, hfinal⟩
      · exact fun signal hmem => hold signal (List.mem_cons_of_mem first hmem)
      · intro signal hmem
        cases List.mem_cons.mp hmem with
        | inl heq => exact hold signal (heq ▸ List.mem_cons_self)
        | inr hin => exact hnew signal hin

/-- Tokens stay built when a state is allocated. -/
theorem Built.allocate {token : CancellationToken} (h : Built g token)
    (constituents : Option (List CancellationToken)) (held : CancellationToken) :
    Built (g.allocate constituents held) token :=
  Built.extend (Nat.le_succ _)
    (fun _ hlt => Function.update_of_ne (Nat.ne_of_lt hlt) ..) h

/-- A new token made of tokens that are held revives nothing. -/
theorem alive_allocate {constituents : Option (List CancellationToken)} {held : CancellationToken}
    (hnodes : ∀ node ∈ held.nodes, node = g.next ∨ g.alive node = true) {signal : SignalId}
    (h : (g.allocate constituents held).alive signal = true) :
    signal = g.next ∨ g.alive signal = true := by
  have hany : ∃ token ∈ held :: g.handles, token.nodes.contains signal = true :=
    List.any_eq_true.mp h
  obtain ⟨token, hmem, hnode⟩ := hany
  cases List.mem_cons.mp hmem with
  | inl heq => exact hnodes signal (heq ▸ List.contains_iff_mem.mp hnode)
  | inr hin => exact .inr (List.any_eq_true.mpr ⟨token, hin, hnode⟩)

/-- What a held token keeps alive is alive. -/
theorem alive_of_held {token : CancellationToken} {node : SignalId} (hheld : token ∈ g.handles)
    (hnode : node ∈ token.nodes) : g.alive node = true :=
  List.any_eq_true.mpr ⟨token, hheld, List.contains_iff_mem.mpr hnode⟩

/-- The graph in which `any` registers its new state: the state is allocated, and the token for
it is held. -/
def allocateAny (g : TokenGraph) (constituents : List CancellationToken) : TokenGraph :=
  g.allocate (some constituents) (.any g.next constituents)

section AllocateAny

variable {constituents : List CancellationToken} {middle final : TokenGraph}

theorem allocate_any_heap_self : (g.allocateAny constituents).heap g.next = some constituents :=
  Function.update_self ..

theorem allocate_any_heap_ne {signal : SignalId} (hne : signal ≠ g.next) :
    (g.allocateAny constituents).heap signal = g.heap signal :=
  Function.update_of_ne hne ..

/-- The new token is built like the tokens it is made of. -/
theorem allocate_any_built (hbuilt : ∀ token ∈ constituents, Built g token) :
    Built (g.allocateAny constituents) (.any g.next constituents) :=
  .any (Nat.lt_succ_self _) allocate_any_heap_self
    (fun token hmem => (hbuilt token hmem).allocate _ _) fun token hmem =>
      (hbuilt token hmem).nodes_lt

/-- Only the new state comes to life. -/
theorem allocate_any_alive (hheld : ∀ token ∈ constituents, token ∈ g.handles) {signal : SignalId}
    (halive : (g.allocateAny constituents).alive signal = true) :
    signal = g.next ∨ g.alive signal = true := by
  refine alive_allocate ?_ halive
  intro node hnode
  rcases mem_any_nodes.mp hnode with heq | ⟨token, htoken, hin⟩
  · exact .inl heq
  · exact .inr (alive_of_held (hheld token htoken) hin)

/-- Before the first registration nothing has happened. -/
theorem allocate_any_registering (hsound : g.Sound) :
    Registering (g.allocateAny constituents) g.next [] (g.allocateAny constituents) := by
  obtain ⟨hunset, halone⟩ := hsound.fresh g.next (Nat.le_refl _)
  refine ⟨.refl _, fun _ _ => rfl, ?_, halone, fun _ _ h _ => h, fun _ _ h => .inl h,
    fun _ h => absurd h List.not_mem_nil⟩
  intro hflag
  exact Bool.noConfusion (hflag.symm.trans hunset)

/-- The constituents consist of signals that are older than the new state. -/
theorem constituents_lt (hbuilt : ∀ token ∈ constituents, Built g token) :
    ∀ signal ∈ constituents.flatMap CancellationToken.signals, signal < g.next := by
  intro signal hmem
  obtain ⟨token, htoken, hsignal⟩ := List.mem_flatMap.mp hmem
  exact (hbuilt token htoken).nodes_lt signal ((hbuilt token htoken).signals_subset signal hsignal)

/-- The new state has no flag, so no flag is lost. -/
theorem Registering.flags_le (h : Registering (g.allocateAny constituents) g.next done final)
    (hsound : g.Sound) : g.FlagsLe final := by
  intro signal hflag
  have hne : signal ≠ g.next := by
    rintro rfl
    exact Bool.noConfusion (hflag.symm.trans (hsound.fresh g.next (Nat.le_refl _)).1)
  exact (h.flags signal hne).trans hflag

/-- When all signals of the constituents are registered, the graph is sound again. -/
theorem Registering.any_sound (h : Registering (g.allocateAny constituents) g.next done final)
    (hsound : g.Sound) (hheld : ∀ token ∈ constituents, token ∈ g.handles)
    (hdone : ∀ signal ∈ constituents.flatMap CancellationToken.signals, signal ∈ done) :
    final.Sound := by
  have hown := allocate_any_built fun token hmem => hsound.handles token (hheld token hmem)
  constructor
  · intro token hmem
    rw [h.shape.handles] at hmem
    refine h.shape.built ?_
    cases List.mem_cons.mp hmem with
    | inl heq => exact heq ▸ hown
    | inr hin => exact (hsound.handles token hin).allocate _ _
  · intro signal old hheap
    rw [h.shape.heap] at hheap
    refine h.shape.built ?_
    by_cases heq : signal = g.next
    · subst heq
      obtain rfl := Option.some.inj (allocate_any_heap_self.symm.trans hheap)
      exact hown
    · rw [allocate_any_heap_ne heq] at hheap
      exact (hsound.heap signal old hheap).allocate _ _
  · intro signal hfresh
    rw [h.shape.next] at hfresh
    have hlater : g.next < signal := hfresh
    obtain ⟨hunset, halone⟩ := hsound.fresh signal (Nat.le_of_lt hlater)
    -- A signal that is not there yet has neither a flag nor dependents.
    refine ⟨(h.flags signal (Nat.ne_of_gt hlater)).trans hunset, ?_⟩
    rw [List.eq_nil_iff_forall_not_mem]
    intro dependent hmem
    cases h.added signal dependent hmem with
    | inl hold =>
        have hnone : (g.allocateAny constituents).dependents signal = [] := halone
        rw [hnone] at hold
        exact absurd hold List.not_mem_nil
    | inr hnew => exact absurd hnew.2 (Nat.lt_asymm hlater)
  · intro source dependent hmem
    rw [h.shape.next]
    cases h.added source dependent hmem with
    | inl hold =>
        obtain ⟨hsource, hnext⟩ := hsound.above source dependent hold
        exact ⟨hsource, Nat.lt_succ_of_lt hnext⟩
    | inr hnew =>
        obtain ⟨rfl, hsource⟩ := hnew
        exact ⟨hsource, Nat.lt_succ_self _⟩
  · intro dependent old hheap halive constituent hconstituent signal hsignal
    rw [h.shape.heap] at hheap
    rw [h.shape.alive] at halive
    by_cases heq : dependent = g.next
    · subst heq
      obtain rfl := Option.some.inj (allocate_any_heap_self.symm.trans hheap)
      exact h.done signal (hdone signal (List.mem_flatMap.mpr ⟨constituent, hconstituent, hsignal⟩))
    · rw [allocate_any_heap_ne heq] at hheap
      -- The older dependents were registered before and are still alive.
      refine h.kept signal dependent ?_ halive
      cases allocate_any_alive hheld halive with
      | inl hnew => exact absurd hnew heq
      | inr hlive =>
          exact hsound.registered dependent old hheap hlive constituent hconstituent signal hsignal

/-- After the last notification nothing is upset: the new state would have heard of it, and the
others have not changed. -/
theorem Registering.any_settled
    (hmiddle : Registering (g.allocateAny constituents) g.next done middle)
    (hfinal : Registering (g.allocateAny constituents) g.next done final)
    (htold : middle.sourceChanged g.next = true → final.flags g.next = true)
    (hsound : g.Sound) (hsettled : g.Settled)
    (hheld : ∀ token ∈ constituents, token ∈ g.handles) : final.Settled := by
  intro dependent hupset
  obtain ⟨halive, hflag, old, hheap, constituent, hmem, hflagged⟩ := hupset
  rw [hfinal.shape.heap] at hheap
  rw [hfinal.shape.alive] at halive
  by_cases heq : dependent = g.next
  · subst heq
    obtain rfl := Option.some.inj (allocate_any_heap_self.symm.trans hheap)
    have hbuilt : Built g constituent := hsound.handles constituent (hheld constituent hmem)
    -- the constituent was cancelled before the last notification
    have hsame : middle.isCancelled constituent = final.isCancelled constituent := by
      refine hbuilt.is_cancelled_congr ?_
      intro node hnode
      have hne : node ≠ g.next := Nat.ne_of_lt (hbuilt.nodes_lt node hnode)
      exact (hmiddle.flags node hne).trans (hfinal.flags node hne).symm
    have hdue : middle.sourceChanged g.next = true := by
      refine source_changed_iff.mpr ⟨?_, constituents, ?_, constituent, hmem, ?_⟩
      · rw [hmiddle.shape.alive]
        exact halive
      · exact (congrFun hmiddle.shape.heap g.next).trans allocate_any_heap_self
      · exact hsame.trans (hbuilt.cancelled_of_flagged hflagged)
    exact Bool.noConfusion ((htold hdue).symm.trans hflag)
  · rw [allocate_any_heap_ne heq] at hheap
    cases allocate_any_alive hheld halive with
    | inl hnew => exact heq hnew
    | inr hlive =>
        refine hsettled dependent ⟨hlive, (hfinal.flags dependent heq).symm.trans hflag, old, hheap,
          constituent, hmem, ?_⟩
        intro signal hsignal
        have hconstituent : Built g constituent := by
          cases hsound.heap dependent old hheap with
          | any _ _ holds _ => exact holds constituent hmem
        have hne : signal ≠ g.next := Nat.ne_of_lt
          (hconstituent.nodes_lt signal (hconstituent.signals_subset signal hsignal))
        exact (hfinal.flags signal hne).symm.trans (hflagged signal hsignal)

/-- A flag is set for the reason it was set before, or it is that of the new state. -/
theorem Registering.any_justified (h : Registering (g.allocateAny constituents) g.next done final)
    (hsound : g.Sound) (hjustified : g.Justified) : final.Justified := by
  intro signal hflag
  by_cases heq : signal = g.next
  · subst heq
    exact .inr (h.cause hflag)
  · rw [h.flags signal heq] at hflag
    cases hjustified signal hflag with
    | inl hcall =>
        obtain ⟨call, hmem, hsignal⟩ := hcall
        exact .inl ⟨call, h.shape.calls.symm ▸ hmem, hsignal⟩
    | inr htriggered =>
        obtain ⟨old, hheap, constituent, hmem, hcancelled⟩ := htriggered
        have hheapFinal : final.heap signal = some old :=
          (congrFun h.shape.heap signal).trans ((allocate_any_heap_ne heq).trans hheap)
        exact .inr ⟨old, hheapFinal, constituent, hmem,
          is_cancelled_mono (h.flags_le hsound) hcancelled⟩

end AllocateAny

/-- `CancellationToken::any` ends and keeps the graph coherent. -/
theorem any_spec (hcoherent : g.Coherent) {constituents : List CancellationToken}
    (hheld : ∀ token ∈ constituents, token ∈ g.handles) (fuel : Nat) :
    ∃ g', g.any (fuel + 1) constituents = some g' ∧ g'.Coherent ∧ g.FlagsLe g' ∧
      g'.calls = g.calls := by
  obtain ⟨hsound, hsettled, hjustified, hcalled⟩ := hcoherent
  have hlt := constituents_lt fun token hmem => hsound.handles token (hheld token hmem)
  have hbegin : Registering (g.allocateAny constituents) g.next [] (g.allocateAny constituents) :=
    allocate_any_registering hsound
  obtain ⟨middle, hfold, done, hmiddle, _, hdone⟩ := hbegin.registers fuel hlt
  obtain ⟨final, hnotify, hfinal, htold⟩ := hmiddle.notify fuel
  have hle : g.FlagsLe final := hfinal.flags_le hsound
  refine ⟨final, ?_, ⟨?_, ?_, ?_, ?_⟩, hle, hfinal.shape.calls⟩
  · show (constituents.flatMap CancellationToken.signals).foldlM
      (registerDependent (fuel + 1) g.next) (g.allocateAny constituents) >>= _ = _
    exact Option.bind_eq_some_iff.mpr ⟨middle, hfold, hnotify⟩
  · exact hfinal.any_sound hsound hheld hdone
  · exact hmiddle.any_settled hfinal htold hsound hsettled hheld
  · exact hfinal.any_justified hsound hjustified
  · intro signal hcall
    obtain ⟨call, hmem, hsignal⟩ := hcall
    rw [hfinal.shape.calls] at hmem
    exact hle signal (hcalled signal ⟨call, hmem, hsignal⟩)

/-! ## Programs -/

/-- The empty graph is coherent. -/
theorem empty_coherent : empty.Coherent where
  sound :=
    { handles := fun _ h => absurd h List.not_mem_nil
      heap := fun _ _ h => (by cases h)
      fresh := fun _ _ => ⟨rfl, rfl⟩
      above := fun _ _ h => absurd h List.not_mem_nil
      registered := fun _ _ h => (by cases h) }
  settled := fun _ h => Bool.noConfusion h.1
  justified := fun _ h => Bool.noConfusion h
  called := fun _ h => by
    obtain ⟨_, hmem, _⟩ := h
    cases hmem

/-- The graph with other tokens held. -/
def withHandles (g : TokenGraph) (handles : List CancellationToken) : TokenGraph :=
  { g with handles := handles }

theorem Built.with_handles {token : CancellationToken} (h : Built g token)
    (handles : List CancellationToken) : Built (g.withHandles handles) token :=
  Built.extend (g := g) (Nat.le_refl _) (fun _ _ => rfl) h

/-- Holding other tokens keeps the graph coherent if nothing is revived. -/
theorem Coherent.with_handles (h : g.Coherent) {handles : List CancellationToken}
    (hbuilt : ∀ token ∈ handles, Built g token)
    (halive : ∀ signal, (g.withHandles handles).alive signal = true → g.alive signal = true) :
    (g.withHandles handles).Coherent where
  sound :=
    { handles := fun token hmem => (hbuilt token hmem).with_handles handles
      heap := fun signal constituents hheap =>
        (h.sound.heap signal constituents hheap).with_handles handles
      fresh := h.sound.fresh
      above := h.sound.above
      registered := fun dependent constituents hheap hlive =>
        h.sound.registered dependent constituents hheap (halive dependent hlive) }
  settled dependent hupset := h.settled dependent ⟨halive dependent hupset.1, hupset.2⟩
  justified := h.justified
  called := h.called

/-- Holding one more token made of states that are alive. -/
theorem Coherent.hold (h : g.Coherent) {token : CancellationToken} (hbuilt : Built g token)
    (hnodes : ∀ node ∈ token.nodes, g.alive node = true) :
    (g.withHandles (token :: g.handles)).Coherent := by
  refine h.with_handles ?_ ?_
  · intro held hmem
    cases List.mem_cons.mp hmem with
    | inl heq => exact heq ▸ hbuilt
    | inr hin => exact h.sound.handles held hin
  · intro signal halive
    have hany : ∃ held ∈ token :: g.handles, held.nodes.contains signal = true :=
      List.any_eq_true.mp halive
    obtain ⟨held, hmem, hnode⟩ := hany
    cases List.mem_cons.mp hmem with
    | inl heq => exact hnodes signal (heq ▸ List.contains_iff_mem.mp hnode)
    | inr hin => exact alive_of_held hin (List.contains_iff_mem.mp hnode)

/-- `CancellationToken::default` keeps the graph coherent. -/
theorem default_coherent (h : g.Coherent) : (g.allocate none (.single g.next)).Coherent := by
  let final := g.allocate none (.single g.next)
  have hheapOwn : final.heap g.next = none := Function.update_self ..
  have hheapNe : ∀ signal, signal ≠ g.next → final.heap signal = g.heap signal :=
    fun signal hne => Function.update_of_ne hne ..
  -- The new token keeps only its own signal alive.
  have hrevived : ∀ signal, final.alive signal = true →
      signal = g.next ∨ g.alive signal = true := by
    intro signal halive
    refine alive_allocate ?_ halive
    intro node hnode
    exact .inl (List.mem_singleton.mp hnode)
  have hold : ∀ {signal constituents}, final.heap signal = some constituents →
      signal ≠ g.next ∧ g.heap signal = some constituents := by
    intro signal constituents hheap
    have hne : signal ≠ g.next := by
      rintro rfl
      rw [hheapOwn] at hheap
      cases hheap
    exact ⟨hne, (hheapNe signal hne).symm.trans hheap⟩
  have hlive : ∀ {signal}, signal ≠ g.next → final.alive signal = true → g.alive signal = true :=
    fun hne halive => (hrevived _ halive).resolve_left hne
  constructor
  · constructor
    · intro token hmem
      cases List.mem_cons.mp hmem with
      | inl heq =>
          subst heq
          exact .single (Nat.lt_succ_self _) hheapOwn
      | inr hin => exact (h.sound.handles token hin).allocate _ _
    · intro signal constituents hheap
      exact (h.sound.heap signal constituents (hold hheap).2).allocate _ _
    · intro signal hfresh
      exact h.sound.fresh signal (Nat.le_of_succ_le hfresh)
    · intro source dependent hmem
      obtain ⟨hsource, hnext⟩ := h.sound.above source dependent hmem
      exact ⟨hsource, Nat.lt_succ_of_lt hnext⟩
    · intro dependent constituents hheap halive
      obtain ⟨hne, hbefore⟩ := hold hheap
      exact h.sound.registered dependent constituents hbefore (hlive hne halive)
  · intro dependent hupset
    obtain ⟨halive, hflag, constituents, hheap, hflagged⟩ := hupset
    obtain ⟨hne, hbefore⟩ := hold hheap
    exact h.settled dependent ⟨hlive hne halive, hflag, constituents, hbefore, hflagged⟩
  · intro signal hflag
    cases h.justified signal hflag with
    | inl hcall => exact .inl hcall
    | inr htriggered =>
        obtain ⟨constituents, hheap, hcancelled⟩ := htriggered
        have hne : signal ≠ g.next := by
          cases h.sound.heap signal constituents hheap with
          | any hlt _ _ _ => exact Nat.ne_of_lt hlt
        exact .inr ⟨constituents, (hheapNe signal hne).trans hheap, hcancelled⟩
  · exact h.called

/-- More fuel does not change what an operation does. -/
theorem apply_more {fuel : Nat} {op : Op} (h : g.apply fuel op = some g') :
    g.apply (fuel + 1) op = some g' := by
  have hcancel : ∀ (s : TokenGraph) (signal : SignalId) (s' : TokenGraph),
      cancelSignal fuel s signal = some s' → cancelSignal (fuel + 1) s signal = some s' :=
    fun _ _ _ h => Cascade.cascade_more h
  cases op with
  | default | composite _ | clone _ | drop _ => exact h
  | cancel token => exact Cascade.fold_more hcancel h
  | any constituents =>
      obtain ⟨middle, hfold, hnotify⟩ := Option.bind_eq_some_iff.mp h
      refine Option.bind_eq_some_iff.mpr
        ⟨middle, Cascade.fold_more ?_ hfold, Cascade.notify_more hcancel hnotify⟩
      intro s signal s' hregister
      simp only [registerDependent] at hregister ⊢
      split at hregister
      · rename_i hflag
        rw [if_pos hflag]
        exact Cascade.notify_more hcancel hregister
      · rename_i hflag
        rw [if_neg hflag]
        exact hregister

/-- Every operation ends, sets flags only, and keeps the graph coherent. -/
theorem apply_spec (h : g.Coherent) {op : Op} (hallowed : Op.Allowed g op) :
    ∃ g', g.apply g.enough op = some g' ∧ g'.Coherent ∧ g.FlagsLe g' := by
  cases op with
  | default => exact ⟨_, rfl, default_coherent h, fun _ hflag => hflag⟩
  | any constituents =>
      obtain ⟨g', hany, hcoherent, hflags, _⟩ := any_spec h hallowed (g.next + 1)
      exact ⟨g', hany, hcoherent, hflags⟩
  | composite members =>
      refine ⟨_, rfl, h.hold (.composite fun member hmem => ?_) ?_, fun _ hflag => hflag⟩
      · exact h.sound.handles member (hallowed member hmem)
      · intro node hnode
        obtain ⟨member, hmember, hin⟩ := mem_composite_nodes.mp hnode
        exact alive_of_held (hallowed member hmember) hin
  | clone token =>
      refine ⟨_, rfl, h.hold (h.sound.handles token hallowed) ?_, fun _ hflag => hflag⟩
      exact fun node hnode => alive_of_held hallowed hnode
  | cancel token =>
      have hbuilt := h.sound.handles token hallowed
      have hwithin : ∀ signal ∈ token.signals, signal < (g.record token).next :=
        fun signal hmem => hbuilt.nodes_lt signal (hbuilt.signals_subset signal hmem)
      have hfuel : (g.record token).unset < g.enough :=
        Nat.lt_of_le_of_lt (unset_le _) (Nat.lt_succ_of_lt (Nat.lt_succ_self _))
      obtain ⟨g', hcancel⟩ := cancel_signals_total hwithin (h.sound.record token) hfuel
      obtain ⟨hcoherent, _, hflags, _⟩ :=
        cancel_spec h hbuilt (fun _ _ => Nat.zero_le _) hcancel
      exact ⟨g', hcancel, hcoherent, hflags⟩
  | drop index =>
      refine ⟨_, rfl, h.with_handles ?_ ?_, fun _ hflag => hflag⟩
      · exact fun token hmem => h.sound.handles token (List.mem_of_mem_eraseIdx hmem)
      · intro signal halive
        have hany : ∃ held ∈ g.handles.eraseIdx index, held.nodes.contains signal = true :=
          List.any_eq_true.mp halive
        obtain ⟨held, hmem, hnode⟩ := hany
        exact alive_of_held (List.mem_of_mem_eraseIdx hmem) (List.contains_iff_mem.mp hnode)

/-- Every graph that a program reaches is coherent. -/
theorem run_coherent (h : Transition.Run Step empty g) : g.Coherent := by
  have hpreserves : Transition.Preserves Step Coherent := by
    rintro before after hcoherent ⟨op, hallowed, hstep⟩
    obtain ⟨final, hfinal, hafter, _⟩ := apply_spec hcoherent hallowed
    obtain rfl := Option.some.inj (hfinal.symm.trans hstep)
    exact hafter
  exact hpreserves.run h empty_coherent

/-- In a coherent graph a token that is kept alive and cancelled has all its signals set. -/
theorem Coherent.flagged_of_cancelled (h : g.Coherent) {token : CancellationToken}
    (hbuilt : Built g token) (halive : ∀ node ∈ token.nodes, g.alive node = true)
    (hcancelled : g.isCancelled token = true) : g.Flagged token := by
  refine hbuilt.flagged_of_cancelled ?_ hcancelled
  intro node hnode constituents hheap hflagged
  cases hflag : g.flags node with
  | true => rfl
  | false =>
      have hupset : g.Upset node := ⟨halive node hnode, hflag, constituents, hheap, hflagged⟩
      exact absurd hupset (h.settled node)

/-- The meaning of cancellation, in every graph that a program of constructions, clones,
cancellations and drops can reach. (1) A leaf is cancelled when a call reached it, itself or
through a composite. (2) An `any` token is cancelled when a call reached it or a constituent is
cancelled. (3) A composite is cancelled when all its members are. (4) Cancelling an `any` token
changes nothing below it. (5) A cancelled token stays cancelled. (6) A live `any` token that is
cancelled has its own flag set. (7) Every operation ends, with one result for any amount of fuel
that exceeds the number of states. -/
theorem cancellation_semantics (h : Transition.Run Step empty g) :
    (∀ signal, Built g (.single signal) →
      (g.isCancelled (.single signal) = true ↔ g.Called signal)) ∧
    (∀ signal constituents, Built g (.any signal constituents) →
      (g.isCancelled (.any signal constituents) = true ↔
        g.Called signal ∨ ∃ token ∈ constituents, g.isCancelled token = true)) ∧
    (∀ members, (g.isCancelled (compositeToken members) = true ↔
      ∀ member ∈ members, g.isCancelled member = true)) ∧
    (∀ signal constituents g', .any signal constituents ∈ g.handles →
      g.apply g.enough (.cancel (.any signal constituents)) = some g' →
      ∀ token ∈ constituents, g'.isCancelled token = g.isCancelled token ∧
        ∀ node ∈ token.nodes, g'.flags node = g.flags node) ∧
    (∀ g', Step g g' → ∀ token, g.isCancelled token = true → g'.isCancelled token = true) ∧
    (∀ signal constituents, Built g (.any signal constituents) → g.alive signal = true →
      g.isCancelled (.any signal constituents) = true → g.flags signal = true) ∧
    (∀ op, Op.Allowed g op → ∃ g', ∀ fuel, g.enough ≤ fuel → g.apply fuel op = some g') := by
  have hcoherent := run_coherent h
  refine ⟨?_, ?_, fun members => is_cancelled_composite, ?_, ?_, ?_, ?_⟩
  · intro signal hbuilt
    constructor
    · intro hflag
      cases hcoherent.justified signal hflag with
      | inl hcall => exact hcall
      | inr htriggered =>
          obtain ⟨constituents, hheap, _⟩ := htriggered
          cases hbuilt with
          | single _ hnone =>
              rw [hnone] at hheap
              cases hheap
    · exact hcoherent.called signal
  · intro signal constituents hbuilt
    rw [is_cancelled_any]
    constructor
    · rintro (hflag | hmember)
      · cases hcoherent.justified signal hflag with
        | inl hcall => exact .inl hcall
        | inr htriggered =>
            obtain ⟨found, hheap, hcancelled⟩ := htriggered
            cases hbuilt with
            | any _ hsome _ _ =>
                obtain rfl := Option.some.inj (hsome.symm.trans hheap)
                exact .inr hcancelled
      · exact .inr hmember
    · rintro (hcall | hmember)
      · exact .inl (hcoherent.called signal hcall)
      · exact .inr hmember
  · intro signal constituents g' hheld hcancel token htoken
    have hbuilt := hcoherent.sound.handles _ hheld
    have hleast : ∀ reached ∈ (CancellationToken.any signal constituents).signals,
        signal ≤ reached :=
      fun reached hmem => Nat.le_of_eq (List.mem_singleton.mp hmem).symm
    obtain ⟨_, _, _, hyounger⟩ := cancel_spec hcoherent hbuilt hleast hcancel
    have hbelow : Built g token ∧ ∀ node ∈ token.nodes, node < signal := by
      cases hbuilt with
      | any _ _ hconstituents hbelow => exact ⟨hconstituents token htoken, hbelow token htoken⟩
    have hsame : ∀ node ∈ token.nodes, g'.flags node = g.flags node :=
      fun node hnode => hyounger node (hbelow.2 node hnode)
    exact ⟨hbelow.1.is_cancelled_congr hsame, hsame⟩
  · rintro g' ⟨op, hallowed, hstep⟩ token hcancelled
    obtain ⟨final, hfinal, _, hflags⟩ := apply_spec hcoherent hallowed
    obtain rfl := Option.some.inj (hfinal.symm.trans hstep)
    exact is_cancelled_mono hflags hcancelled
  · intro signal constituents hbuilt halive hcancelled
    -- a state that is alive keeps what is below it alive
    obtain ⟨held, hheld, hnode⟩ := List.any_eq_true.mp halive
    have hin : signal ∈ held.nodes := List.contains_iff_mem.mp hnode
    have hnodes : ∀ node ∈ (CancellationToken.any signal constituents).nodes,
        g.alive node = true := by
      intro node hmem
      rcases mem_any_nodes.mp hmem with heq | ⟨token, htoken, hbelow⟩
      · exact heq ▸ halive
      · have hheap : g.heap signal = some constituents := by
          cases hbuilt with
          | any _ hsome _ _ => exact hsome
        exact alive_of_held hheld
          ((hcoherent.sound.handles held hheld).nodes_below hin hheap token htoken node hbelow)
    exact hcoherent.flagged_of_cancelled hbuilt hnodes hcancelled signal
      (List.mem_singleton.mpr rfl)
  · intro op hallowed
    obtain ⟨g', hresult, _⟩ := apply_spec hcoherent hallowed
    refine ⟨g', ?_⟩
    intro fuel hfuel
    induction fuel, hfuel using Nat.le_induction with
    | base => exact hresult
    | succ fuel _ ih => exact apply_more ih

/-- The graph after an operation that ends. -/
def after (g : TokenGraph) (op : Op) : TokenGraph :=
  (g.apply g.enough op).getD g

/-- A diamond: two `any` tokens share a leaf, and a third depends on the composite of the two. The
leaf is cancelled last. -/
def diamond : List Op :=
  [.default, .any [.single 0], .any [.single 0],
    .composite [.any 1 [.single 0], .any 2 [.single 0]],
    .any [compositeToken [.any 1 [.single 0], .any 2 [.single 0]]], .cancel (.single 0)]

/-- The cancellation has reached the top of the diamond, and whatever is done next ends. -/
theorem cancellation_semantics_diamond :
    let g := diamond.foldl after empty
    g.flags 3 = true ∧
      ∀ op, Op.Allowed g op → ∃ g', ∀ fuel, g.enough ≤ fuel → g.apply fuel op = some g' := by
  intro g
  have hleaf : ∀ {rest : List CancellationToken}, ∀ token ∈ [CancellationToken.single 0],
      token ∈ .single 0 :: rest := by
    intro rest token hmem
    rw [List.mem_singleton.mp hmem]
    exact List.mem_cons_self
  have hreach : Transition.Run Step empty g := by
    refine .head ⟨.default, trivial, rfl⟩ ?_
    refine .head ⟨.any [.single 0], hleaf, rfl⟩ ?_
    refine .head ⟨.any [.single 0], fun token hmem => .tail _ (hleaf token hmem), rfl⟩ ?_
    refine .head ⟨.composite [.any 1 [.single 0], .any 2 [.single 0]], ?_, rfl⟩ ?_
    · intro token hmem
      rcases List.mem_cons.mp hmem with rfl | hmem
      · exact .tail _ (.head _)
      · rw [List.mem_singleton.mp hmem]
        exact .head _
    refine .head ⟨.any [compositeToken [.any 1 [.single 0], .any 2 [.single 0]]], ?_, rfl⟩ ?_
    · intro token hmem
      rw [List.mem_singleton.mp hmem]
      exact .head _
    exact .single ⟨.cancel (.single 0), .tail _ (.tail _ (.tail _ (.tail _ (.head _)))), rfl⟩
  exact ⟨rfl, (cancellation_semantics hreach).2.2.2.2.2.2⟩

end EmbeddingServer.TokenGraph
