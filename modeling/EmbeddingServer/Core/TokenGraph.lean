import EmbeddingServer.Core.Activity
import EmbeddingServer.Lib.Cascade
import Mathlib.Logic.Function.Basic

/-!
# The graph of cancellation tokens

A token tree names the `CancellationState`s it shares with other tokens by the numbers of their
signals. The graph holds what these states hold: the flag of each signal, the constituents of each
`any` state, and the weak references to the `any` states that depend on a signal. A weak reference
is the number of the state, and it can be upgraded as long as a token that somebody holds contains
the state.

`CancellationSignal::cancel` is a cascade: it swaps the flag, and each dependent that finds one of
its constituents cancelled cancels its own signal. Its recursion runs on fuel; how much is enough
is proved.
-/

namespace EmbeddingServer

mutual
/-- The signals that `cancel`, `register_waiter` and `register_dependent` reach from a token: all
three descend through composites and stop at the signal of any other state. -/
def CancellationToken.signals : CancellationToken → List SignalId
  | .single signal => [signal]
  | .any signal _ => [signal]
  | .composite constituents => controlSignals constituents

/-- The signals of the tokens of some controls. -/
def controlSignals : List ExecutionControl → List SignalId
  | [] => []
  | .leaf cancellation _ :: rest => cancellation.signals ++ controlSignals rest
  | .composite constituents :: rest => controlSignals constituents ++ controlSignals rest
end

mutual
/-- The signals of all states that a token keeps alive. -/
def CancellationToken.nodes : CancellationToken → List SignalId
  | .single signal => [signal]
  | .any signal constituents => signal :: tokenNodes constituents
  | .composite constituents => controlNodes constituents

/-- The states that some tokens keep alive. -/
def tokenNodes : List CancellationToken → List SignalId
  | [] => []
  | token :: rest => token.nodes ++ tokenNodes rest

/-- The states that the tokens of some controls keep alive. -/
def controlNodes : List ExecutionControl → List SignalId
  | [] => []
  | .leaf cancellation _ :: rest => cancellation.nodes ++ controlNodes rest
  | .composite constituents :: rest => controlNodes constituents ++ controlNodes rest
end

/-- `ExecutionControl::composite` over leaf controls without deadlines, and the token of it. -/
def compositeToken (members : List CancellationToken) : CancellationToken :=
  .composite (members.map fun member => .leaf member none)

/-- All `CancellationState`s. `heap` holds the constituents of the `any` states, `handles` the
tokens that somebody holds, and `calls` is a ghost: the tokens that were cancelled by a call. -/
structure TokenGraph where
  next : SignalId
  heap : SignalId → Option (List CancellationToken)
  flags : SignalId → Bool
  dependents : SignalId → List SignalId
  handles : List CancellationToken
  calls : List CancellationToken

namespace TokenGraph

/-- Nothing was built yet. -/
def empty : TokenGraph :=
  { next := 0
    heap := fun _ => none
    flags := fun _ => false
    dependents := fun _ => []
    handles := []
    calls := [] }

/-- `CancellationToken::is_cancelled`. -/
def isCancelled (g : TokenGraph) (token : CancellationToken) : Bool :=
  token.isCancelled ⟨0, g.flags⟩

/-- `strong_count() != 0`. -/
def alive (g : TokenGraph) (signal : SignalId) : Bool :=
  g.handles.any fun token => token.nodes.contains signal

/-- `cancelled.swap(true)` and `dependents.retain`. -/
def swap (g : TokenGraph) (signal : SignalId) : TokenGraph :=
  { g with
    flags := Function.update g.flags signal true
    dependents := Function.update g.dependents signal ((g.dependents signal).filter g.alive) }

/-- `dependent.upgrade()` and the test of `CancellationState::source_changed`. -/
def sourceChanged (g : TokenGraph) (dependent : SignalId) : Bool :=
  g.alive dependent &&
    match g.heap dependent with
    | none => false
    | some constituents => constituents.any g.isCancelled

/-- The cascade of `CancellationSignal::cancel` and `CancellationState::source_changed`. -/
def propagation : Cascade.System TokenGraph SignalId where
  marked g := g.flags
  mark := swap
  notified g signal := (g.dependents signal).filter g.alive
  ready := sourceChanged

/-- `CancellationSignal::cancel`. -/
def cancelSignal (fuel : Nat) (g : TokenGraph) (signal : SignalId) : Option TokenGraph :=
  Cascade.cascade propagation fuel g signal

/-- `CancellationToken::cancel`. -/
def cancel (fuel : Nat) (g : TokenGraph) (token : CancellationToken) : Option TokenGraph :=
  token.signals.foldlM (cancelSignal fuel) { g with calls := token :: g.calls }

/-- The locked part of `CancellationSignal::register_dependent`. -/
def remember (g : TokenGraph) (dependent signal : SignalId) : TokenGraph :=
  let kept := (g.dependents signal).filter g.alive
  { g with
    dependents := Function.update g.dependents signal
      (if dependent ∈ kept then kept else kept ++ [dependent]) }

/-- `CancellationSignal::register_dependent`. -/
def registerDependent (fuel : Nat) (dependent : SignalId) (g : TokenGraph) (signal : SignalId) :
    Option TokenGraph :=
  let g := g.remember dependent signal
  if g.flags signal then Cascade.notify propagation (cancelSignal fuel) g dependent else some g

/-- A new state whose token is held. -/
def allocate (g : TokenGraph) (constituents : Option (List CancellationToken))
    (token : CancellationToken) : TokenGraph :=
  { g with
    next := g.next + 1
    heap := Function.update g.heap g.next constituents
    handles := token :: g.handles }

/-- `CancellationToken::any`. The constituents are registered one after the other, each with all
signals it reaches. -/
def any (fuel : Nat) (g : TokenGraph) (constituents : List CancellationToken) :
    Option TokenGraph := do
  let combined := g.next
  let g := g.allocate (some constituents) (.any combined constituents)
  let g ← (constituents.flatMap CancellationToken.signals).foldlM
    (registerDependent fuel combined) g
  Cascade.notify propagation (cancelSignal fuel) g combined

/-- What the program does with tokens. -/
inductive Op where
  | default
  | any (constituents : List CancellationToken)
  | composite (members : List CancellationToken)
  | clone (token : CancellationToken)
  | cancel (token : CancellationToken)
  /-- A held token is dropped. -/
  | drop (index : Nat)

/-- An operation uses tokens that are held. -/
def Op.Allowed (g : TokenGraph) : Op → Prop
  | .default | .drop _ => True
  | .any tokens | .composite tokens => ∀ token ∈ tokens, token ∈ g.handles
  | .clone token | .cancel token => token ∈ g.handles

/-- An operation, on fuel. -/
def apply (fuel : Nat) (g : TokenGraph) : Op → Option TokenGraph
  | .default => some (g.allocate none (.single g.next))
  | .any constituents => g.any fuel constituents
  | .composite members => some { g with handles := compositeToken members :: g.handles }
  | .clone token => some { g with handles := token :: g.handles }
  | .cancel token => g.cancel fuel token
  | .drop index => some { g with handles := g.handles.eraseIdx index }

/-- Fuel for an operation: more than there are states. -/
def enough (g : TokenGraph) : Nat :=
  g.next + 2

/-- One operation of a program. -/
def Step (g g' : TokenGraph) : Prop :=
  ∃ op, Op.Allowed g op ∧ g.apply g.enough op = some g'

end TokenGraph

/-! ## Tokens -/

/-- Some token of a list is cancelled. -/
theorem any_cancelled_iff (moment : Moment) (tokens : List CancellationToken) :
    anyCancelled moment tokens = true ↔ ∃ token ∈ tokens, token.isCancelled moment = true := by
  induction tokens with
  | nil => simp [anyCancelled]
  | cons token rest ih => simp [anyCancelled, ih]

/-- A composite is cancelled when all its members are. -/
theorem composite_token_cancelled_iff (moment : Moment) (members : List CancellationToken) :
    (compositeToken members).isCancelled moment = true ↔
      ∀ member ∈ members, member.isCancelled moment = true := by
  unfold compositeToken
  rw [CancellationToken.isCancelled]
  induction members with
  | nil => simp [allInactive]
  | cons member rest ih =>
      rw [List.map_cons, allInactive, Bool.and_eq_true, ih, List.forall_mem_cons,
        ExecutionControl.ensureActive]
      cases member.isCancelled moment with
      | true => simp
      | false => simp [deadlinePassed]

/-- A composite reaches the signals of its members. -/
@[simp]
theorem mem_composite_signals {members : List CancellationToken} {signal : SignalId} :
    signal ∈ (compositeToken members).signals ↔ ∃ member ∈ members, signal ∈ member.signals := by
  unfold compositeToken
  rw [CancellationToken.signals]
  induction members with
  | nil => simp [controlSignals]
  | cons member rest ih => simp [controlSignals, ih]

/-- A composite keeps its members alive. -/
@[simp]
theorem mem_composite_nodes {members : List CancellationToken} {signal : SignalId} :
    signal ∈ (compositeToken members).nodes ↔ ∃ member ∈ members, signal ∈ member.nodes := by
  unfold compositeToken
  rw [CancellationToken.nodes]
  induction members with
  | nil => simp [controlNodes]
  | cons member rest ih => simp [controlNodes, ih]

/-- Some tokens keep alive what each of them does. -/
@[simp]
theorem mem_token_nodes {tokens : List CancellationToken} {signal : SignalId} :
    signal ∈ tokenNodes tokens ↔ ∃ token ∈ tokens, signal ∈ token.nodes := by
  induction tokens with
  | nil => simp [tokenNodes]
  | cons token rest ih => simp [tokenNodes, ih]

/-- A token keeps itself and its constituents alive. -/
@[simp]
theorem mem_any_nodes {own signal : SignalId} {constituents : List CancellationToken} :
    signal ∈ (CancellationToken.any own constituents).nodes ↔
      signal = own ∨ ∃ token ∈ constituents, signal ∈ token.nodes := by
  rw [CancellationToken.nodes, List.mem_cons, mem_token_nodes]

namespace TokenGraph

/-- The token was built by `default`, `any` and `composite` out of states of the graph. An `any`
state is younger than everything below it. -/
inductive Built (g : TokenGraph) : CancellationToken → Prop where
  | single {signal : SignalId} (h : signal < g.next) (hheap : g.heap signal = none) :
      Built g (.single signal)
  | any {signal : SignalId} {constituents : List CancellationToken} (h : signal < g.next)
      (hheap : g.heap signal = some constituents)
      (hconstituents : ∀ token ∈ constituents, Built g token)
      (hbelow : ∀ token ∈ constituents, ∀ node ∈ token.nodes, node < signal) :
      Built g (.any signal constituents)
  | composite {members : List CancellationToken} (hmembers : ∀ member ∈ members, Built g member) :
      Built g (compositeToken members)

variable {g g' : TokenGraph} {token : CancellationToken}

/-- Tokens stay built when states are added. -/
theorem Built.extend (hnext : g.next ≤ g'.next)
    (hheap : ∀ signal, signal < g.next → g'.heap signal = g.heap signal) (h : Built g token) :
    Built g' token := by
  induction h with
  | single hlt hnone => exact .single (Nat.lt_of_lt_of_le hlt hnext) ((hheap _ hlt).trans hnone)
  | any hlt hsome _ hbelow ih =>
      exact .any (Nat.lt_of_lt_of_le hlt hnext) ((hheap _ hlt).trans hsome) ih hbelow
  | composite _ ih => exact .composite ih

/-- The states of a built token exist. -/
theorem Built.nodes_lt (h : Built g token) : ∀ node ∈ token.nodes, node < g.next := by
  induction h with
  | single hlt _ =>
      intro node hmem
      rw [CancellationToken.nodes, List.mem_singleton] at hmem
      exact hmem ▸ hlt
  | any hlt _ _ hbelow _ =>
      intro node hmem
      rcases mem_any_nodes.mp hmem with rfl | ⟨token, htoken, hnode⟩
      · exact hlt
      · exact Nat.lt_trans (hbelow token htoken node hnode) hlt
  | composite _ ih =>
      intro node hmem
      obtain ⟨member, hmember, hnode⟩ := mem_composite_nodes.mp hmem
      exact ih member hmember node hnode

/-- What a token reaches it keeps alive. -/
theorem Built.signals_subset (h : Built g token) : ∀ signal ∈ token.signals,
    signal ∈ token.nodes := by
  induction h with
  | single _ _ => exact fun signal hmem => hmem
  | any _ _ _ _ _ =>
      intro signal hmem
      rw [CancellationToken.signals, List.mem_singleton] at hmem
      exact mem_any_nodes.mpr (.inl hmem)
  | composite _ ih =>
      intro signal hmem
      obtain ⟨member, hmember, hsignal⟩ := mem_composite_signals.mp hmem
      exact mem_composite_nodes.mpr ⟨member, hmember, ih member hmember signal hsignal⟩

/-- Below an `any` state that a token keeps alive it keeps everything alive. -/
theorem Built.nodes_below (h : Built g token) {node : SignalId}
    {constituents : List CancellationToken} (hnode : node ∈ token.nodes)
    (hheap : g.heap node = some constituents) :
    ∀ constituent ∈ constituents, ∀ below ∈ constituent.nodes, below ∈ token.nodes := by
  induction h with
  | single _ hnone =>
      rw [CancellationToken.nodes, List.mem_singleton] at hnode
      rw [hnode, hnone] at hheap
      cases hheap
  | any _ hsome _ _ ih =>
      intro constituent hconstituent below hbelow
      rcases mem_any_nodes.mp hnode with rfl | ⟨token, htoken, hin⟩
      · obtain rfl := Option.some.inj (hsome.symm.trans hheap)
        exact mem_any_nodes.mpr (.inr ⟨constituent, hconstituent, hbelow⟩)
      · exact mem_any_nodes.mpr
          (.inr ⟨token, htoken, ih token htoken hin constituent hconstituent below hbelow⟩)
  | composite _ ih =>
      intro constituent hconstituent below hbelow
      obtain ⟨member, hmember, hin⟩ := mem_composite_nodes.mp hnode
      exact mem_composite_nodes.mpr
        ⟨member, hmember, ih member hmember hin constituent hconstituent below hbelow⟩

/-- An `any` token is cancelled when its flag is set or a constituent is cancelled. -/
theorem is_cancelled_any {signal : SignalId} {constituents : List CancellationToken} :
    g.isCancelled (.any signal constituents) = true ↔
      g.flags signal = true ∨ ∃ token ∈ constituents, g.isCancelled token = true := by
  unfold isCancelled
  rw [CancellationToken.isCancelled, Bool.or_eq_true, any_cancelled_iff]

/-- A composite is cancelled when all its members are. -/
theorem is_cancelled_composite {members : List CancellationToken} :
    g.isCancelled (compositeToken members) = true ↔
      ∀ member ∈ members, g.isCancelled member = true :=
  composite_token_cancelled_iff _ members

/-- A cancelled token stays cancelled while flags are only set. -/
theorem is_cancelled_mono (h : ∀ signal, g.flags signal = true → g'.flags signal = true)
    (hcancelled : g.isCancelled token = true) : g'.isCancelled token = true := by
  have hlater : Moment.Later ⟨0, g.flags⟩ ⟨0, g'.flags⟩ := ⟨Nat.le_refl 0, h⟩
  exact is_cancelled_later hlater token hcancelled

/-- Whether a built token is cancelled depends on the flags of its states only. -/
theorem Built.is_cancelled_congr (h : Built g token) {first second : TokenGraph}
    (hflags : ∀ node ∈ token.nodes, first.flags node = second.flags node) :
    first.isCancelled token = second.isCancelled token := by
  induction h with
  | single _ _ => exact hflags _ (List.mem_singleton.mpr rfl)
  | @any signal constituents _ _ _ _ ih =>
      have hown := hflags signal (mem_any_nodes.mpr (.inl rfl))
      have hconstituents : ∀ token ∈ constituents,
          first.isCancelled token = second.isCancelled token := by
        intro token htoken
        refine ih token htoken ?_
        intro node hnode
        exact hflags node (mem_any_nodes.mpr (.inr ⟨token, htoken, hnode⟩))
      rw [Bool.eq_iff_iff, is_cancelled_any, is_cancelled_any, hown]
      constructor
      · rintro (hflag | ⟨token, htoken, hcancelled⟩)
        · exact .inl hflag
        · exact .inr ⟨token, htoken, hconstituents token htoken ▸ hcancelled⟩
      · rintro (hflag | ⟨token, htoken, hcancelled⟩)
        · exact .inl hflag
        · exact .inr ⟨token, htoken, (hconstituents token htoken).symm ▸ hcancelled⟩
  | @composite members _ ih =>
      have hmembers : ∀ member ∈ members,
          first.isCancelled member = second.isCancelled member := by
        intro member hmember
        refine ih member hmember ?_
        intro node hnode
        exact hflags node (mem_composite_nodes.mpr ⟨member, hmember, hnode⟩)
      rw [Bool.eq_iff_iff, is_cancelled_composite, is_cancelled_composite]
      constructor
      · intro hall member hmember
        exact (hmembers member hmember) ▸ hall member hmember
      · intro hall member hmember
        exact (hmembers member hmember).symm ▸ hall member hmember

/-- All signals that a token reaches are set. -/
def Flagged (g : TokenGraph) (token : CancellationToken) : Prop :=
  ∀ signal ∈ token.signals, g.flags signal = true

/-- A token all of whose signals are set is cancelled. -/
theorem Built.cancelled_of_flagged (h : Built g token) {now : TokenGraph}
    (hflagged : now.Flagged token) : now.isCancelled token = true := by
  induction h with
  | single _ _ => exact hflagged _ (List.mem_singleton.mpr rfl)
  | any _ _ _ _ _ => exact is_cancelled_any.mpr (.inl (hflagged _ (List.mem_singleton.mpr rfl)))
  | composite _ ih =>
      refine is_cancelled_composite.mpr ?_
      intro member hmember
      refine ih member hmember ?_
      intro signal hsignal
      exact hflagged signal (mem_composite_signals.mpr ⟨member, hmember, hsignal⟩)

/-- The converse, where no `any` state of the token lags behind its constituents. -/
theorem Built.flagged_of_cancelled (h : Built g token)
    (hsettled : ∀ node ∈ token.nodes, ∀ constituents, g.heap node = some constituents →
      (∃ constituent ∈ constituents, g.Flagged constituent) → g.flags node = true)
    (hcancelled : g.isCancelled token = true) : g.Flagged token := by
  induction h with
  | single _ _ =>
      intro other hmem
      obtain rfl := List.mem_singleton.mp hmem
      exact hcancelled
  | @any signal constituents _ hheap _ _ ih =>
      intro other hmem
      obtain rfl := List.mem_singleton.mp hmem
      rcases is_cancelled_any.mp hcancelled with hflag | ⟨constituent, hmem, hconstituent⟩
      · exact hflag
      · have hbelow : g.Flagged constituent := by
          refine ih constituent hmem ?_ hconstituent
          intro node hnode
          exact hsettled node (mem_any_nodes.mpr (.inr ⟨constituent, hmem, hnode⟩))
        exact hsettled other (mem_any_nodes.mpr (.inl rfl)) constituents hheap
          ⟨constituent, hmem, hbelow⟩
  | composite _ ih =>
      intro signal hmem
      obtain ⟨member, hmember, hsignal⟩ := mem_composite_signals.mp hmem
      refine ih member hmember ?_ (is_cancelled_composite.mp hcancelled member hmember) signal
        hsignal
      intro node hnode
      exact hsettled node (mem_composite_nodes.mpr ⟨member, hmember, hnode⟩)

end TokenGraph

end EmbeddingServer
