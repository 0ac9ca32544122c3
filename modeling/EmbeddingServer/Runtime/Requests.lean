import EmbeddingServer.Lib.Transition
import EmbeddingServer.Lib.Tally
import EmbeddingServer.Runtime.Registry

/-!
# Requests on model slots

Any number of `embed_inner` calls run against the slots of a runtime while models are
registered, loaded and unloaded. A call looks its slot up, takes a lease by a second look-up
of the name, takes a queue permit of the slot, and hands both to its preflight job; they come
back with the result and travel in the request through the channel of the slot, the deque of
the scheduler and a batch job. Wherever the value that owns them is dropped, they are dropped.

A permit is counted in the slot first and in the runtime second, and uncounted in the same
order, each in a step of its own. The pool is a bounded queue of jobs; a batch job stands in
it under the number of the batch's first request. Which requests a scheduler puts into a
batch and when is free here, as is the moment at which a caller gives up, a deadline passes
or a scheduler is stopped or aborted: a request may be found inactive at every check.
-/

namespace EmbeddingServer.Requests

/-- A queue permit. -/
inductive Permit where
  | absent
  /-- Counted in the slot, not yet in the runtime. -/
  | counting
  | held
  /-- Uncounted in the slot, not yet in the runtime. -/
  | uncounting
  deriving DecidableEq, Repr

/-- Where an `embed_inner` call is, or the plan, the result or the request that it made. -/
inductive Pc where
  | absent
  /-- Admitted and validated; the slot is looked up next. -/
  | called (id : String)
  /-- The slot was found; `accepting` is read next. -/
  | looked (id : String)
  /-- The slot accepts; the lease is next. -/
  | accepted (id : String)
  /-- The lease is held; the control and the permit are next. -/
  | leased
  /-- The permit is acquired, in its two halves. -/
  | counting
  /-- The plan is made; the pool is next. -/
  | permitted
  /-- The preflight job is in the pool. -/
  | buffered
  /-- A worker runs the preflight job. -/
  | preflighting
  /-- The result is in the response channel. -/
  | prepared
  /-- The caller has the result; the channel of the slot is next. -/
  | sending
  /-- The request is in the channel of the slot. -/
  | inChannel
  /-- The request is in the deque of the scheduler. -/
  | pending
  /-- The request is in a batch job in the pool; the job goes by its first request. -/
  | batched (leader : Nat)
  /-- A worker executes the batch: the permit is dropped and `accepting` read again. -/
  | executing (leader : Nat)
  /-- The request was found active; the engine is next. -/
  | active (leader : Nat)
  /-- Whatever owns the lease and the permit is being dropped. -/
  | dropping
  deriving DecidableEq, Repr

/-- A call of `embed_inner`: the slot whose engine, sender and queue counter it uses, the slot
that counts its lease, and its permit. -/
structure Embed where
  pc : Pc
  slot : ModelKey
  lease : Option ModelKey
  permit : Permit
  deriving DecidableEq, Repr

/-- A call before it begins. -/
def Embed.absent : Embed :=
  { pc := .absent, slot := 0, lease := none, permit := .absent }

/-- `ModelSlot`, as far as requests use it. -/
structure Slot where
  accepting : Bool
  leases : Nat
  queued : Nat
  channel : List Nat
  /-- The receiver is closed or dropped. -/
  closed : Bool

/-- A new slot. -/
def Slot.new : Slot :=
  { accepting := true, leases := 0, queued := 0, channel := [], closed := false }

namespace Slot

/-- `accepting.store(false)`. -/
def refuse (slot : Slot) : Slot :=
  { slot with accepting := false }

/-- `leases.fetch_add(1)`. -/
def addLease (slot : Slot) : Slot :=
  { slot with leases := slot.leases + 1 }

/-- `leases.fetch_sub(1)`. -/
def dropLease (slot : Slot) : Slot :=
  { slot with leases := slot.leases - 1 }

/-- The step of `fetch_update` in `QueuePermit::acquire`. -/
def count (slot : Slot) : Slot :=
  { slot with queued := slot.queued + 1 }

/-- `local.fetch_sub(1)`. -/
def uncount (slot : Slot) : Slot :=
  { slot with queued := slot.queued - 1 }

/-- `try_send`. -/
def push (task : Nat) (slot : Slot) : Slot :=
  { slot with channel := slot.channel ++ [task] }

/-- `recv`. -/
def pop (slot : Slot) : Slot :=
  { slot with channel := slot.channel.tail }

/-- `receiver.close()`, or the receiver is dropped. -/
def close (slot : Slot) : Slot :=
  { slot with closed := true }

end Slot

/-- A job in the pool. -/
inductive Job where
  | preflight (task : Nat)
  | batch (leader : Nat)
  | load
  deriving DecidableEq, Repr

/-- The state. `explicit` counts the live leases that were handed out by `lease` itself,
`unloaded` records the slots for which `unload` has returned `Ok`, and `loads` that a load job
was submitted. -/
structure State where
  models : String → Option ModelKey
  slots : ModelKey → Slot
  nextKey : Nat
  queued : Nat
  pool : List Job
  started : Nat
  embeds : Nat → Embed
  explicit : ModelKey → Nat
  unloaded : ModelKey → Bool
  loads : Bool

/-- A new runtime. -/
def initial : State :=
  { models := fun _ => none
    slots := fun _ => Slot.new
    nextKey := 0
    queued := 0
    pool := []
    started := 0
    embeds := fun _ => Embed.absent
    explicit := fun _ => 0
    unloaded := fun _ => false
    loads := false }

/-- What a step is seen as. -/
inductive Label where
  | silent
  /-- A call takes its lease. -/
  | lease (task : Nat)
  /-- A preflight or an inference starts on the engine of the slot. -/
  | starts (key : ModelKey)
  /-- The runtime answers with `QueueFull`. -/
  | queue_full
  deriving DecidableEq, Repr

/-- The state with another state of a call. -/
def State.withEmbed (s : State) (task : Nat) (embed : Embed) : State :=
  { s with embeds := Function.update s.embeds task embed }

/-- The state with a changed slot. -/
def State.withSlot (s : State) (key : ModelKey) (change : Slot → Slot) : State :=
  { s with slots := Function.update s.slots key (change (s.slots key)) }

@[simp]
theorem State.with_slot_embeds (s : State) (key : ModelKey) (change : Slot → Slot) :
    (s.withSlot key change).embeds = s.embeds :=
  rfl

/-- The call at another program point. -/
def Embed.at (embed : Embed) (pc : Pc) : Embed :=
  { embed with pc := pc }

/-- Requests of the slot in the deque that are put into a batch with the first one. -/
def gather (s : State) (leader : Nat) (members : Nat → Bool) (task : Nat) : Embed :=
  let embed := s.embeds task
  if task = leader ∨ (members task ∧ embed.pc = .pending ∧ embed.slot = (s.embeds leader).slot) then
    embed.at (.batched leader)
  else embed

/-- The requests of a batch fail. -/
def scatter (s : State) (leader : Nat) (members : Nat → Bool) (task : Nat) : Embed :=
  let embed := s.embeds task
  if task = leader ∨ (members task ∧ embed.pc = .pending ∧ embed.slot = (s.embeds leader).slot) then
    embed.at .dropping
  else embed

/-- The requests of a batch whose job a worker has taken. -/
def unpack (s : State) (leader : Nat) (task : Nat) : Embed :=
  let embed := s.embeds task
  if embed.pc = .batched leader then embed.at (.executing leader) else embed

/-- One step, under the queue depth of the policy. -/
inductive Step (depth : Nat) : Label → State → State → Prop where
  /-- `register_engine`, or the publication of a load. -/
  | register {s : State} {id : String} (h : s.models id = none) :
      Step depth .silent s
        { s with
          models := Function.update s.models id (some s.nextKey)
          slots := Function.update s.slots s.nextKey Slot.new
          nextKey := s.nextKey + 1 }
  | unload {s : State} {id : String} {key : ModelKey} (h : s.models id = some key)
      (hidle : (s.slots key).leases = 0) :
      Step depth .silent s
        { s.withSlot key Slot.refuse with
          models := Function.update s.models id none
          unloaded := Function.update s.unloaded key true }
  /-- `finish_shutdown` stops a registered slot. -/
  | fence {s : State} {key : ModelKey} :
      Step depth .silent s (s.withSlot key Slot.refuse)
  /-- `finish_shutdown` clears the map of models. -/
  | clearModels {s : State} : Step depth .silent s { s with models := fun _ => none }
  /-- `lease` for an administrative caller. -/
  | takeLease {s : State} {id : String} {key : ModelKey} (h : s.models id = some key)
      (haccepting : (s.slots key).accepting = true) :
      Step depth .silent s
        { s.withSlot key Slot.addLease with
          explicit := Function.update s.explicit key (s.explicit key + 1) }
  | cloneLease {s : State} {key : ModelKey} (h : 0 < s.explicit key) :
      Step depth .silent s
        { s.withSlot key Slot.addLease with
          explicit := Function.update s.explicit key (s.explicit key + 1) }
  | dropLease {s : State} {key : ModelKey} (h : 0 < s.explicit key) :
      Step depth .silent s
        { s.withSlot key Slot.dropLease with
          explicit := Function.update s.explicit key (s.explicit key - 1) }
  -- `embed_inner`
  | call {s : State} (id : String) :
      Step depth .silent s
        { s.withEmbed s.started (Embed.absent.at (.called id)) with started := s.started + 1 }
  | lookUp {s : State} {task : Nat} {id : String} {key : ModelKey}
      (h : (s.embeds task).pc = .called id) (hfound : s.models id = some key) :
      Step depth .silent s
        (s.withEmbed task { (s.embeds task).at (.looked id) with slot := key })
  | accept {s : State} {task : Nat} {id : String} (h : (s.embeds task).pc = .looked id)
      (haccepting : (s.slots (s.embeds task).slot).accepting = true) :
      Step depth .silent s (s.withEmbed task ((s.embeds task).at (.accepted id)))
  -- The second look-up: the slot that counts the lease is the one registered now.
  | lease {s : State} {task : Nat} {id : String} {key : ModelKey}
      (h : (s.embeds task).pc = .accepted id) (hfound : s.models id = some key)
      (haccepting : (s.slots key).accepting = true) :
      Step depth (.lease task) s
        ((s.withSlot key Slot.addLease).withEmbed task
          { (s.embeds task).at .leased with lease := some key })
  /-- `fetch_update` of the counter of the slot. -/
  | count {s : State} {task : Nat} (h : (s.embeds task).pc = .leased)
      (hroom : (s.slots (s.embeds task).slot).queued < depth) :
      Step depth .silent s
        ((s.withSlot (s.embeds task).slot Slot.count).withEmbed task
          { (s.embeds task).at .counting with permit := .counting })
  | countFull {s : State} {task : Nat} (h : (s.embeds task).pc = .leased)
      (hfull : depth ≤ (s.slots (s.embeds task).slot).queued) :
      Step depth .queue_full s (s.withEmbed task ((s.embeds task).at .dropping))
  /-- `GaugeGuard::increment`. -/
  | countGlobal {s : State} {task : Nat} (h : (s.embeds task).pc = .counting) :
      Step depth .silent s
        { s.withEmbed task { (s.embeds task).at .permitted with permit := .held } with
          queued := s.queued + 1 }
  | submit {s : State} {task : Nat} (h : (s.embeds task).pc = .permitted)
      (hroom : s.pool.length < depth) :
      Step depth .silent s
        { s.withEmbed task ((s.embeds task).at .buffered) with
          pool := s.pool ++ [.preflight task] }
  | submitFull {s : State} {task : Nat} (h : (s.embeds task).pc = .permitted)
      (hfull : depth ≤ s.pool.length) :
      Step depth .queue_full s (s.withEmbed task ((s.embeds task).at .dropping))
  /-- A worker takes a preflight job. -/
  | preflight {s : State} {task : Nat} {rest : List Job} (h : s.pool = .preflight task :: rest) :
      Step depth .silent s
        { s.withEmbed task ((s.embeds task).at .preflighting) with pool := rest }
  /-- The job, if it is active, asks the engine of the slot. -/
  | startPreflight {s : State} {task : Nat} (h : (s.embeds task).pc = .preflighting) :
      Step depth (.starts (s.embeds task).slot) s s
  | prepare {s : State} {task : Nat} (h : (s.embeds task).pc = .preflighting) :
      Step depth .silent s (s.withEmbed task ((s.embeds task).at .prepared))
  | receive {s : State} {task : Nat} (h : (s.embeds task).pc = .prepared) :
      Step depth .silent s (s.withEmbed task ((s.embeds task).at .sending))
  | send {s : State} {task : Nat} (h : (s.embeds task).pc = .sending)
      (hopen : (s.slots (s.embeds task).slot).closed = false)
      (hroom : (s.slots (s.embeds task).slot).channel.length < depth) :
      Step depth .silent s
        ((s.withSlot (s.embeds task).slot (Slot.push task)).withEmbed task
          ((s.embeds task).at .inChannel))
  | sendFull {s : State} {task : Nat} (h : (s.embeds task).pc = .sending)
      (hopen : (s.slots (s.embeds task).slot).closed = false)
      (hfull : depth ≤ (s.slots (s.embeds task).slot).channel.length) :
      Step depth .queue_full s (s.withEmbed task ((s.embeds task).at .dropping))
  /-- An early return of the caller, a failed preflight, a closed channel, a caller that gave up
  before it took the result. -/
  | fail {s : State} {task : Nat}
      (h : (s.embeds task).pc = .leased ∨ (s.embeds task).pc = .permitted ∨
        (s.embeds task).pc = .preflighting ∨ (s.embeds task).pc = .prepared ∨
        (s.embeds task).pc = .sending) :
      Step depth .silent s (s.withEmbed task ((s.embeds task).at .dropping))
  -- `run_scheduler`
  | recv {s : State} {key : ModelKey} {task : Nat} (h : (s.slots key).channel.head? = some task) :
      Step depth .silent s
        ((s.withSlot key Slot.pop).withEmbed task
          ((s.embeds task).at .pending))
  /-- A pending request is found inactive, failed at the end of the scheduler, or dropped with
  it. -/
  | discard {s : State} {task : Nat} (h : (s.embeds task).pc = .pending) :
      Step depth .silent s (s.withEmbed task ((s.embeds task).at .dropping))
  | close {s : State} {key : ModelKey} :
      Step depth .silent s (s.withSlot key Slot.close)
  /-- What is left in a closed channel is failed or dropped with the receiver. -/
  | drain {s : State} {key : ModelKey} {task : Nat} (hclosed : (s.slots key).closed = true)
      (h : (s.slots key).channel.head? = some task) :
      Step depth .silent s
        ((s.withSlot key Slot.pop).withEmbed task
          ((s.embeds task).at .dropping))
  | dispatch {s : State} {leader : Nat} (members : Nat → Bool)
      (h : (s.embeds leader).pc = .pending) (hroom : s.pool.length < depth) :
      Step depth .silent s
        { s with embeds := gather s leader members, pool := s.pool ++ [.batch leader] }
  | dispatchFull {s : State} {leader : Nat} (members : Nat → Bool)
      (h : (s.embeds leader).pc = .pending) (hfull : depth ≤ s.pool.length) :
      Step depth .queue_full s { s with embeds := scatter s leader members }
  -- `execute_batch`
  | execute {s : State} {leader : Nat} {rest : List Job} (h : s.pool = .batch leader :: rest) :
      Step depth .silent s { s with embeds := unpack s leader, pool := rest }
  | activate {s : State} {task leader : Nat} (h : (s.embeds task).pc = .executing leader)
      (hqueue : (s.embeds task).permit = .absent)
      (haccepting : (s.slots (s.embeds task).slot).accepting = true) :
      Step depth .silent s (s.withEmbed task ((s.embeds task).at (.active leader)))
  | refuse {s : State} {task leader : Nat} (h : (s.embeds task).pc = .executing leader)
      (hqueue : (s.embeds task).permit = .absent) :
      Step depth .silent s (s.withEmbed task ((s.embeds task).at .dropping))
  | infer {s : State} {task leader : Nat} (h : (s.embeds task).pc = .active leader)
      (hchecked : ∀ other, (s.embeds other).pc ≠ .executing leader) :
      Step depth (.starts (s.embeds task).slot) s s
  | answer {s : State} {task leader : Nat} (h : (s.embeds task).pc = .active leader) :
      Step depth .silent s (s.withEmbed task ((s.embeds task).at .dropping))
  -- `QueuePermit::drop`, at the start of an execution or with its owner.
  | uncount {s : State} {task : Nat} (hpermit : (s.embeds task).permit = .held)
      (h : (s.embeds task).pc = .dropping ∨ ∃ leader, (s.embeds task).pc = .executing leader) :
      Step depth .silent s
        ((s.withSlot (s.embeds task).slot Slot.uncount).withEmbed task
          { s.embeds task with permit := .uncounting })
  | uncountGlobal {s : State} {task : Nat} (hpermit : (s.embeds task).permit = .uncounting) :
      Step depth .silent s
        { s.withEmbed task { s.embeds task with permit := .absent } with queued := s.queued - 1 }
  /-- `RuntimeLease::drop`. -/
  | release {s : State} {task : Nat} {key : ModelKey} (h : (s.embeds task).pc = .dropping)
      (hlease : (s.embeds task).lease = some key) :
      Step depth .silent s
        ((s.withSlot key Slot.dropLease).withEmbed task
          { s.embeds task with lease := none })
  -- `load_with`
  | submitLoad {s : State} (hroom : s.pool.length < depth) :
      Step depth .silent s { s with pool := s.pool ++ [.load], loads := true }
  | executeLoad {s : State} {rest : List Job} (h : s.pool = .load :: rest) :
      Step depth .silent s { s with pool := rest }

/-- A step with some label. -/
def Next (depth : Nat) (s s' : State) : Prop :=
  ∃ label, Step depth label s s'

end EmbeddingServer.Requests
