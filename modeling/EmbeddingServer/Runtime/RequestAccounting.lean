import EmbeddingServer.Runtime.Requests

/-!
# The books of requests

What is true in every state of every run: each slot's lease counter is the number of leases
counted on it, each slot's queue counter the number of permits taken from it, and the queue
counter of the runtime the number of permits counted there. A request in a channel or in a
job keeps its permit, and the channels and the pool hold each request at most once.
-/

namespace EmbeddingServer.Requests

open Tally

/-! ## What a call holds -/

/-- The lease of the call is counted on the slot. -/
def leaseOn (embed : Embed) (key : ModelKey) : Nat :=
  if embed.lease = some key then 1 else 0

/-- The permit is counted in a slot. -/
def Permit.inSlot : Permit → Nat
  | .counting | .held => 1
  | .absent | .uncounting => 0

/-- The permit is counted in the runtime. -/
def Permit.inRuntime : Permit → Nat
  | .held | .uncounting => 1
  | .absent | .counting => 0

/-- The permit of the call is counted on the slot. -/
def permitOn (embed : Embed) (key : ModelKey) : Nat :=
  if embed.slot = key then embed.permit.inSlot else 0

/-- Live leases that calls hold on the slot. -/
def State.leasesOn (s : State) (key : ModelKey) : Nat :=
  tally s.started fun task => leaseOn (s.embeds task) key

/-- Live permits of the slot. -/
def State.permitsOn (s : State) (key : ModelKey) : Nat :=
  tally s.started fun task => permitOn (s.embeds task) key

/-- Permits that are counted in the runtime. -/
def State.permitsCounted (s : State) : Nat :=
  tally s.started fun task => (s.embeds task).permit.inRuntime

/-- Before the lease. -/
def Pc.early : Pc → Bool
  | .absent | .called _ | .looked _ | .accepted _ => true
  | _ => false

/-- The slot is known. -/
def Pc.located : Pc → Bool
  | .absent | .called _ => false
  | _ => true

/-- The plan, result or request with the permit is alive. -/
def Pc.keepsPermit : Pc → Bool
  | .permitted | .buffered | .preflighting | .prepared | .sending | .inChannel | .pending
  | .batched _ => true
  | _ => false

/-- The owner of the lease is alive. -/
def Pc.keepsLease : Pc → Bool
  | .leased | .counting | .executing _ | .active _ => true
  | pc => pc.keepsPermit

/-- A request in one of the buffers. -/
def Pc.buffers : Pc → Bool
  | .inChannel | .buffered | .batched _ => true
  | _ => false

/-- What the program point of a call says about its lease and its permit. -/
structure Embed.WellFormed (nextKey : Nat) (embed : Embed) : Prop where
  located : embed.pc.located = true → embed.slot < nextKey
  leaseKey : ∀ key, embed.lease = some key → key < nextKey
  early : embed.pc.early = true → embed.lease = none
  unpermitted : embed.pc.early = true ∨ embed.pc = .leased → embed.permit = .absent
  counting : embed.permit = .counting ↔ embed.pc = .counting
  permit : embed.pc.keepsPermit = true → embed.permit = .held
  lease : embed.pc.keepsLease = true → ∃ key, embed.lease = some key

/-- The task of a job on behalf of a call. -/
def Job.task : Job → Option Nat
  | .preflight task | .batch task => some task
  | .load => none

/-- The job is in the pool by the program point of its call. -/
def Job.matches (s : State) : Job → Prop
  | .preflight task => (s.embeds task).pc = .buffered
  | .batch leader => (s.embeds leader).pc = .batched leader
  | .load => True

/-- Every buffer holds what its calls say, each at most once. -/
structure Buffered (s : State) : Prop where
  channel_distinct : ∀ key, (s.slots key).channel.Nodup
  channel : ∀ key, ∀ task ∈ (s.slots key).channel,
    (s.embeds task).pc = .inChannel ∧ (s.embeds task).slot = key
  pool_distinct : (s.pool.filterMap Job.task).Nodup
  pool : ∀ job ∈ s.pool, job.matches s

/-- The books are right. -/
structure Accounted (depth : Nat) (s : State) : Prop where
  bounded : ∀ task, s.started ≤ task → s.embeds task = Embed.absent
  keys : ∀ id key, s.models id = some key → key < s.nextKey
  unused : ∀ key, s.nextKey ≤ key → s.explicit key = 0
  formed : ∀ task, (s.embeds task).WellFormed s.nextKey
  leases : ∀ key, (s.slots key).leases = s.leasesOn key + s.explicit key
  queued : ∀ key, (s.slots key).queued = s.permitsOn key
  counted : s.queued = s.permitsCounted
  limit : ∀ key, (s.slots key).queued ≤ depth
  buffered : Buffered s

section

variable {depth : Nat} {s s' : State} {task : Nat} {embed : Embed}

/-- A call that has begun is numbered below the calls to come. -/
theorem Accounted.lt_started (hs : Accounted depth s) (h : (s.embeds task).pc ≠ .absent) :
    task < s.started := by
  by_contra hge
  rw [hs.bounded task (by omega)] at h
  exact h rfl

/-- A field of the slots that the change of one slot leaves alone. -/
theorem State.with_slot_same {α : Type} (s : State) (key : ModelKey) (change : Slot → Slot)
    (field : Slot → α) (h : ∀ slot, field (change slot) = field slot) (key' : ModelKey) :
    field ((s.withSlot key change).slots key') = field (s.slots key') := by
  by_cases hkey : key' = key
  · subst hkey
    simpa [State.withSlot] using h (s.slots key')
  · simp [State.withSlot, hkey]

/-! ## Steps of one call -/

/-- What a call changes in the books when its own record changes. -/
structure Balanced (depth : Nat) (s s' : State) (task : Nat) (embed : Embed) : Prop where
  leases : ∀ key, (s'.slots key).leases + leaseOn (s.embeds task) key =
    (s.slots key).leases + leaseOn embed key
  queued : ∀ key, (s'.slots key).queued + permitOn (s.embeds task) key =
    (s.slots key).queued + permitOn embed key
  limit : ∀ key, (s'.slots key).queued ≤ depth
  counted : s'.queued + (s.embeds task).permit.inRuntime = s.queued + embed.permit.inRuntime

/-- The calls of the jobs stay where they are. -/
theorem Job.matches.stay {job : Job} (h : job.matches s)
    (hstay : ∀ other, (s.embeds other).pc.buffers = true → s'.embeds other = s.embeds other) :
    job.matches s' := by
  cases job with
  | preflight other =>
      have hpc : (s.embeds other).pc = .buffered := h
      show (s'.embeds other).pc = .buffered
      rw [hstay other (by rw [hpc]; rfl)]
      exact hpc
  | batch leader =>
      have hpc : (s.embeds leader).pc = .batched leader := h
      show (s'.embeds leader).pc = .batched leader
      rw [hstay leader (by rw [hpc]; rfl)]
      exact hpc
  | load => trivial

/-- A step of one call keeps the books if it balances them. -/
theorem Accounted.of_one (hs : Accounted depth s) (hbegun : (s.embeds task).pc ≠ .absent)
    (hembeds : s'.embeds = Function.update s.embeds task embed) (hstarted : s'.started = s.started)
    (hmodels : s'.models = s.models) (hnext : s'.nextKey = s.nextKey)
    (hexplicit : s'.explicit = s.explicit) (hformed : embed.WellFormed s.nextKey)
    (hbalanced : Balanced depth s s' task embed) (hbuffered : Buffered s') :
    Accounted depth s' := by
  have htask := hs.lt_started hbegun
  -- A tally changes by what the call holds more or less.
  have htally : ∀ units : Embed → Nat,
      tally s'.started (fun other => units (s'.embeds other)) + units (s.embeds task) =
        tally s.started (fun other => units (s.embeds other)) + units embed := by
    intro units
    rw [hstarted, hembeds]
    have hchange := tally_change (fun other => units (s.embeds other))
      (fun other => units (Function.update s.embeds task embed other)) htask
      (fun other hother => by simp [hother])
    simpa using hchange
  constructor
  · intro other hother
    rw [hembeds, Function.update_of_ne (by omega)]
    exact hs.bounded other (by omega)
  · rw [hmodels, hnext]
    exact hs.keys
  · rw [hexplicit, hnext]
    exact hs.unused
  · intro other
    rw [hembeds, hnext]
    by_cases hother : other = task
    · subst hother
      simpa using hformed
    · simpa [hother] using hs.formed other
  · intro key
    have hnew := htally fun embed => leaseOn embed key
    have hold := hs.leases key
    have hbalance := hbalanced.leases key
    simp only [State.leasesOn] at *
    rw [hexplicit]
    omega
  · intro key
    have hnew := htally fun embed => permitOn embed key
    have hold := hs.queued key
    have hbalance := hbalanced.queued key
    simp only [State.permitsOn] at *
    omega
  · have hnew := htally fun embed => embed.permit.inRuntime
    have hold := hs.counted
    have hbalance := hbalanced.counted
    simp only [State.permitsCounted] at *
    omega
  · exact hbalanced.limit
  · exact hbuffered

/-- Buffers that keep their contents, and whose calls stay where they are. -/
theorem Buffered.congr (hs : Buffered s)
    (hstay : ∀ other, (s.embeds other).pc.buffers = true → s'.embeds other = s.embeds other)
    (hpool : s'.pool = s.pool)
    (hchannels : ∀ key, (s'.slots key).channel = (s.slots key).channel) : Buffered s' := by
  constructor
  · intro key
    rw [hchannels]
    exact hs.channel_distinct key
  · intro key other hmem
    rw [hchannels] at hmem
    obtain ⟨hpc, hslot⟩ := hs.channel key other hmem
    rw [hstay other (by rw [hpc]; rfl)]
    exact ⟨hpc, hslot⟩
  · rw [hpool]
    exact hs.pool_distinct
  · intro job hjob
    rw [hpool] at hjob
    exact (hs.pool job hjob).stay hstay

/-- A step of a call that is in no buffer leaves the buffers as they are. -/
theorem Buffered.of_one (hs : Buffered s) (hout : (s.embeds task).pc.buffers = false)
    (hembeds : s'.embeds = Function.update s.embeds task embed) (hpool : s'.pool = s.pool)
    (hchannels : ∀ key, (s'.slots key).channel = (s.slots key).channel) : Buffered s' := by
  refine hs.congr ?_ hpool hchannels
  intro other hin
  rw [hembeds, Function.update_of_ne]
  rintro rfl
  simp [hout] at hin

/-- A call at another point has no job in the pool. -/
theorem Buffered.not_mem_pool (hs : Buffered s) (hbuffered : (s.embeds task).pc ≠ .buffered)
    (hbatched : (s.embeds task).pc ≠ .batched task) : task ∉ s.pool.filterMap Job.task := by
  intro hmem
  obtain ⟨job, hjob, htask⟩ := List.mem_filterMap.mp hmem
  have hmatches := hs.pool job hjob
  cases job with
  | preflight other =>
      cases htask
      exact hbuffered hmatches
  | batch leader =>
      cases htask
      exact hbatched hmatches
  | load => cases htask

/-- A call moves on with what it holds. -/
theorem Accounted.of_move (hs : Accounted depth s) {pc : Pc} (hbegun : (s.embeds task).pc ≠ .absent)
    (hout : (s.embeds task).pc.buffers = false)
    (hformed : ((s.embeds task).at pc).WellFormed s.nextKey) :
    Accounted depth (s.withEmbed task ((s.embeds task).at pc)) :=
  hs.of_one hbegun rfl rfl rfl rfl rfl hformed
    ⟨fun _ => rfl, fun _ => rfl, hs.limit, rfl⟩
    (hs.buffered.of_one hout rfl rfl fun _ => rfl)

/-- A call moves on from one point to another with what it holds. -/
theorem Embed.WellFormed.move {nextKey : Nat} {pc : Pc} (h : embed.WellFormed nextKey)
    (hlocated : embed.pc.located = true) (hearly : pc.early = true → embed.pc.early = true)
    (hleased : pc ≠ .leased) (hcounting : pc ≠ .counting ∧ embed.pc ≠ .counting)
    (hpermit : pc.keepsPermit = true → embed.pc.keepsPermit = true)
    (hlease : pc.keepsLease = true → embed.pc.keepsLease = true) :
    (embed.at pc).WellFormed nextKey where
  located := fun _ => h.located hlocated
  leaseKey := h.leaseKey
  early := fun hpc => h.early (hearly hpc)
  unpermitted := by
    rintro (hpc | hpc)
    · exact h.unpermitted (.inl (hearly hpc))
    · exact absurd hpc hleased
  counting := by
    constructor
    · intro hpermit
      exact absurd (h.counting.mp hpermit) hcounting.2
    · intro hpc
      exact absurd hpc hcounting.1
  permit := fun hpc => h.permit (hpermit hpc)
  lease := fun hpc => h.lease (hlease hpc)

/-- A call whose permit is going, or gone. -/
theorem Embed.WellFormed.with_permit {nextKey : Nat} {permit : Permit}
    (h : embed.WellFormed nextKey)
    (hpc : embed.pc.early = false ∧ embed.pc ≠ .leased ∧ embed.pc ≠ .counting ∧
      embed.pc.keepsPermit = false) (hpermit : permit ≠ .counting) :
    { embed with permit := permit }.WellFormed nextKey := by
  obtain ⟨hearly, hleased, hcounting, hkeeps⟩ := hpc
  refine ⟨h.located, h.leaseKey, h.early, ?_, ?_, ?_, h.lease⟩
  · rintro (hpc | hpc)
    · exact absurd (hearly.symm.trans hpc) (by simp)
    · exact absurd hpc hleased
  · exact ⟨fun h => absurd h hpermit, fun h => absurd h hcounting⟩
  · intro hpc
    exact absurd (hkeeps.symm.trans hpc) (by simp)

/-- A call drops what it holds. -/
theorem Accounted.of_drop (hs : Accounted depth s) (hlocated : (s.embeds task).pc.located = true)
    (hout : (s.embeds task).pc.buffers = false) (hcounting : (s.embeds task).pc ≠ .counting) :
    Accounted depth (s.withEmbed task ((s.embeds task).at .dropping)) := by
  refine hs.of_move ?_ hout ?_
  · intro habsent
    simp [habsent, Pc.located] at hlocated
  · exact (hs.formed task).move hlocated (fun h => by cases h) (by simp) ⟨by simp, hcounting⟩
      (fun h => by cases h) (fun h => by cases h)

section Calls

variable {id : String} {key : ModelKey}

theorem Accounted.look_up (hs : Accounted depth s) (h : (s.embeds task).pc = .called id)
    (hfound : s.models id = some key) :
    Accounted depth (s.withEmbed task { (s.embeds task).at (.looked id) with slot := key }) := by
  have hformed := hs.formed task
  have hpermit := hformed.unpermitted (.inl (by rw [h]; rfl))
  have hlease := hformed.early (by rw [h]; rfl)
  refine hs.of_one (by simp [h]) rfl rfl rfl rfl rfl ?_ ⟨fun _ => rfl, ?_, hs.limit, rfl⟩
    (hs.buffered.of_one (by rw [h]; rfl) rfl rfl fun _ => rfl)
  · constructor <;>
      simp [Embed.at, Pc.early, Pc.keepsPermit, Pc.keepsLease, hpermit, hlease,
        hs.keys id key hfound]
  · intro key'
    simp [permitOn, Embed.at, Permit.inSlot, hpermit, State.withEmbed]

theorem Accounted.lease (hs : Accounted depth s) (h : (s.embeds task).pc = .accepted id)
    (hfound : s.models id = some key) :
    Accounted depth ((s.withSlot key Slot.addLease).withEmbed task
      { (s.embeds task).at .leased with lease := some key }) := by
  have hformed := hs.formed task
  have hpermit := hformed.unpermitted (.inl (by rw [h]; rfl))
  have hlease := hformed.early (by rw [h]; rfl)
  have hqueued := State.with_slot_same s key Slot.addLease Slot.queued fun _ => rfl
  refine hs.of_one (by simp [h]) rfl rfl rfl rfl rfl ?_ ⟨?_, ?_, ?_, rfl⟩
    (hs.buffered.of_one (by rw [h]; rfl) rfl rfl
      (State.with_slot_same s key Slot.addLease Slot.channel fun _ => rfl))
  · constructor <;>
      simp [Embed.at, Pc.early, Pc.keepsPermit, hpermit, hs.keys id key hfound,
        hformed.located (by rw [h]; rfl)]
  · intro key'
    by_cases hkey : key' = key
    · subst hkey
      simp [leaseOn, State.withEmbed, State.withSlot, Slot.addLease, hlease]
    · simp [leaseOn, State.withEmbed, State.withSlot, hlease, hkey, Ne.symm hkey]
  · intro key'
    exact congrArg (· + _) (hqueued key')
  · intro key'
    exact (hqueued key').trans_le (hs.limit key')

theorem Accounted.count (hs : Accounted depth s) (h : (s.embeds task).pc = .leased)
    (hroom : (s.slots (s.embeds task).slot).queued < depth) :
    Accounted depth ((s.withSlot (s.embeds task).slot Slot.count).withEmbed task
      { (s.embeds task).at .counting with permit := .counting }) := by
  have hformed := hs.formed task
  have hpermit := hformed.unpermitted (.inr h)
  have hleases := State.with_slot_same s (s.embeds task).slot Slot.count Slot.leases fun _ => rfl
  refine hs.of_one (by simp [h]) rfl rfl rfl rfl rfl ?_ ⟨?_, ?_, ?_, ?_⟩
    (hs.buffered.of_one (by rw [h]; rfl) rfl rfl
      (State.with_slot_same s _ Slot.count Slot.channel fun _ => rfl))
  · have hlease := hformed.lease (by rw [h]; rfl)
    have hlocated := hformed.located (by rw [h]; rfl)
    constructor <;> simp [Embed.at, Pc.early, Pc.keepsPermit, hlease, hlocated]
    exact hformed.leaseKey
  · intro key'
    exact congrArg (· + _) (hleases key')
  · intro key'
    by_cases hkey : key' = (s.embeds task).slot
    · subst hkey
      simp [permitOn, Embed.at, Permit.inSlot, State.withEmbed, State.withSlot, Slot.count, hpermit]
    · simp [permitOn, Embed.at, State.withEmbed, State.withSlot, hkey, Ne.symm hkey]
  · intro key'
    by_cases hkey : key' = (s.embeds task).slot
    · subst hkey
      simpa [State.withEmbed, State.withSlot, Slot.count] using Nat.succ_le_of_lt hroom
    · simpa [State.withEmbed, State.withSlot, hkey] using hs.limit key'
  · simp [Permit.inRuntime, hpermit, State.withEmbed, State.withSlot]

theorem Accounted.count_global (hs : Accounted depth s) (h : (s.embeds task).pc = .counting) :
    Accounted depth { s.withEmbed task { (s.embeds task).at .permitted with permit := .held } with
      queued := s.queued + 1 } := by
  have hformed := hs.formed task
  have hpermit := hformed.counting.mpr h
  refine hs.of_one (by simp [h]) rfl rfl rfl rfl rfl ?_ ⟨fun _ => rfl, ?_, hs.limit, ?_⟩
    (hs.buffered.of_one (by rw [h]; rfl) rfl rfl fun _ => rfl)
  · have hlease := hformed.lease (by rw [h]; rfl)
    have hlocated := hformed.located (by rw [h]; rfl)
    constructor <;> simp [Embed.at, Pc.early, hlease, hlocated]
    exact hformed.leaseKey
  · intro key'
    simp [permitOn, Embed.at, Permit.inSlot, hpermit, State.withEmbed]
  · simp [Permit.inRuntime, hpermit]

theorem Accounted.uncount (hs : Accounted depth s) (hpermit : (s.embeds task).permit = .held)
    (h : (s.embeds task).pc = .dropping ∨ ∃ leader, (s.embeds task).pc = .executing leader) :
    Accounted depth ((s.withSlot (s.embeds task).slot Slot.uncount).withEmbed task
      { s.embeds task with permit := .uncounting }) := by
  have hformed := hs.formed task
  have hleases := State.with_slot_same s (s.embeds task).slot Slot.uncount Slot.leases fun _ => rfl
  have hbegun : (s.embeds task).pc ≠ .absent := by
    rcases h with h | ⟨leader, h⟩ <;> simp [h]
  -- The permit is one of those that the counter of the slot counts.
  have hpositive : 1 ≤ (s.slots (s.embeds task).slot).queued := by
    have hown : permitOn (s.embeds task) (s.embeds task).slot = 1 := by
      simp [permitOn, hpermit, Permit.inSlot]
    rw [hs.queued, ← hown]
    exact le_tally (fun task' => permitOn (s.embeds task') (s.embeds task).slot)
      (hs.lt_started hbegun)
  refine hs.of_one hbegun rfl rfl rfl rfl rfl ?_ ⟨?_, ?_, ?_, ?_⟩
    (hs.buffered.of_one ?_ rfl rfl
      (State.with_slot_same s _ Slot.uncount Slot.channel fun _ => rfl))
  · refine hformed.with_permit ?_ (by simp)
    rcases h with h | ⟨leader, h⟩ <;> simp [h, Pc.early, Pc.keepsPermit]
  · intro key'
    exact congrArg (· + _) (hleases key')
  · intro key'
    by_cases hkey : key' = (s.embeds task).slot
    · subst hkey
      simp [permitOn, Permit.inSlot, State.withEmbed, State.withSlot, Slot.uncount, hpermit]
      omega
    · simp [permitOn, State.withEmbed, State.withSlot, hkey, Ne.symm hkey]
  · intro key'
    have hlimit := hs.limit key'
    by_cases hkey : key' = (s.embeds task).slot
    · subst hkey
      simp [State.withEmbed, State.withSlot, Slot.uncount]
      omega
    · simpa [State.withEmbed, State.withSlot, hkey] using hlimit
  · simp [Permit.inRuntime, hpermit, State.withEmbed, State.withSlot]
  · rcases h with h | ⟨leader, h⟩ <;> (rw [h]; rfl)

/-- A permit that is going is kept by nothing. -/
theorem Embed.WellFormed.uncounting {nextKey : Nat} (h : embed.WellFormed nextKey)
    (hpermit : embed.permit = .uncounting) :
    embed.pc.early = false ∧ embed.pc ≠ .leased ∧ embed.pc ≠ .counting ∧
      embed.pc.keepsPermit = false := by
  refine ⟨?_, ?_, ?_, ?_⟩
  · by_contra hpc
    have habsent := h.unpermitted (.inl (by simpa using hpc))
    simp [hpermit] at habsent
  · intro hpc
    have habsent := h.unpermitted (.inr hpc)
    simp [hpermit] at habsent
  · intro hpc
    have hcounting := h.counting.mpr hpc
    simp [hpermit] at hcounting
  · by_contra hpc
    have hheld := h.permit (by simpa using hpc)
    simp [hpermit] at hheld

theorem Accounted.uncount_global (hs : Accounted depth s)
    (hpermit : (s.embeds task).permit = .uncounting) :
    Accounted depth { s.withEmbed task { s.embeds task with permit := .absent } with
      queued := s.queued - 1 } := by
  have hformed := hs.formed task
  have hpc := hformed.uncounting hpermit
  have hbegun : (s.embeds task).pc ≠ .absent := by
    intro habsent
    simp [habsent, Pc.early] at hpc
  have hpositive : 1 ≤ s.queued := by
    have hown : (s.embeds task).permit.inRuntime = 1 := by
      simp [hpermit, Permit.inRuntime]
    rw [hs.counted, ← hown]
    exact le_tally (fun task' => (s.embeds task').permit.inRuntime) (hs.lt_started hbegun)
  refine hs.of_one hbegun rfl rfl rfl rfl rfl (hformed.with_permit hpc (by simp))
    ⟨fun _ => rfl, ?_, hs.limit, ?_⟩ (hs.buffered.of_one ?_ rfl rfl fun _ => rfl)
  · intro key'
    simp [permitOn, Permit.inSlot, hpermit, State.withEmbed]
  · simp [Permit.inRuntime, hpermit]
    omega
  · obtain ⟨_, _, _, hkeeps⟩ := hpc
    cases hcase : (s.embeds task).pc <;> simp [hcase, Pc.keepsPermit, Pc.buffers] at hkeeps ⊢

theorem Accounted.release (hs : Accounted depth s) (h : (s.embeds task).pc = .dropping)
    (hlease : (s.embeds task).lease = some key) :
    Accounted depth ((s.withSlot key Slot.dropLease).withEmbed task
      { s.embeds task with lease := none }) := by
  have hformed := hs.formed task
  have hqueued := State.with_slot_same s key Slot.dropLease Slot.queued fun _ => rfl
  have hbegun : (s.embeds task).pc ≠ .absent := by simp [h]
  have hpositive : 1 ≤ (s.slots key).leases := by
    have hown : leaseOn (s.embeds task) key = 1 := by simp [leaseOn, hlease]
    have hle := le_tally (fun task' => leaseOn (s.embeds task') key) (hs.lt_started hbegun)
    rw [hs.leases, ← hown]
    exact Nat.le_add_right_of_le hle
  refine hs.of_one hbegun rfl rfl rfl rfl rfl ?_ ⟨?_, ?_, ?_, rfl⟩
    (hs.buffered.of_one (by rw [h]; rfl) rfl rfl
      (State.with_slot_same s key Slot.dropLease Slot.channel fun _ => rfl))
  · refine ⟨hformed.located, fun _ h => (by cases h), fun _ => rfl, hformed.unpermitted,
      hformed.counting, hformed.permit, ?_⟩
    intro hpc
    simp [h, Pc.keepsLease, Pc.keepsPermit] at hpc
  · intro key'
    by_cases hkey : key' = key
    · subst hkey
      simp [leaseOn, State.withEmbed, State.withSlot, Slot.dropLease, hlease]
      omega
    · simp [leaseOn, State.withEmbed, State.withSlot, hlease, hkey, Ne.symm hkey]
  · intro key'
    exact congrArg (· + _) (hqueued key')
  · intro key'
    exact (hqueued key').trans_le (hs.limit key')

/-! ## Steps into and out of the buffers -/

/-- A call joins the pool with its job. -/
theorem Buffered.push_pool (hs : Buffered s) {job : Job} (hjob : job.task = some task)
    (hout : (s.embeds task).pc.buffers = false) (hmatches : job.matches s')
    (hstay : ∀ other, (s.embeds other).pc.buffers = true → s'.embeds other = s.embeds other)
    (hpool : s'.pool = s.pool ++ [job]) (hchannels : s'.slots = s.slots) : Buffered s' := by
  constructor
  · rw [hchannels]
    exact hs.channel_distinct
  · intro key other hmem
    rw [hchannels] at hmem
    obtain ⟨hpc, hslot⟩ := hs.channel key other hmem
    rw [hstay other (by rw [hpc]; rfl)]
    exact ⟨hpc, hslot⟩
  · rw [hpool, List.filterMap_append]
    have hnot : task ∉ s.pool.filterMap Job.task := by
      refine hs.not_mem_pool ?_ ?_ <;>
      · intro hpc
        simp [hpc, Pc.buffers] at hout
    simpa [hjob, List.nodup_append] using And.intro hs.pool_distinct
      fun other hother (heq : other = task) => hnot (heq ▸ hother)
  · intro other hother
    rw [hpool, List.mem_append, List.mem_singleton] at hother
    rcases hother with hother | rfl
    · exact (hs.pool other hother).stay hstay
    · exact hmatches

theorem Accounted.submit (hs : Accounted depth s) (h : (s.embeds task).pc = .permitted) :
    Accounted depth { s.withEmbed task ((s.embeds task).at .buffered) with
      pool := s.pool ++ [.preflight task] } := by
  refine hs.of_one (by simp [h]) rfl rfl rfl rfl rfl ?_ ⟨fun _ => rfl, fun _ => rfl, hs.limit, rfl⟩
    (hs.buffered.push_pool rfl (by rw [h]; rfl) ?_ ?_ rfl rfl)
  · exact (hs.formed task).move (by rw [h]; rfl) (fun h => by cases h) (by simp) (by simp [h])
      (fun _ => by rw [h]; rfl) (fun _ => by rw [h]; rfl)
  · simp [Job.matches, State.withEmbed, Embed.at]
  · intro other hother
    have hne : other ≠ task := by
      rintro rfl
      simp [h, Pc.buffers] at hother
    simp [State.withEmbed, hne]

/-- The first job leaves the pool: a step of its call alone. -/
theorem Accounted.preflight (hs : Accounted depth s) {rest : List Job}
    (hpool : s.pool = .preflight task :: rest) :
    Accounted depth { s.withEmbed task ((s.embeds task).at .preflighting) with pool := rest } := by
  have h : (s.embeds task).pc = .buffered := hs.buffered.pool (.preflight task) (by simp [hpool])
  have hdistinct := hs.buffered.pool_distinct
  rw [hpool] at hdistinct
  simp only [List.filterMap_cons, Job.task, List.nodup_cons] at hdistinct
  refine hs.of_one (by simp [h]) rfl rfl rfl rfl rfl ?_ ⟨fun _ => rfl,
    fun _ => rfl, hs.limit, rfl⟩ ?_
  · exact (hs.formed task).move (by rw [h]; rfl) (fun h => by cases h) (by simp) (by simp [h])
      (fun _ => by rw [h]; rfl) (fun _ => by rw [h]; rfl)
  · constructor
    · exact hs.buffered.channel_distinct
    · intro key other hmem
      obtain ⟨hpc, hslot⟩ := hs.buffered.channel key other hmem
      have hne : other ≠ task := by
        rintro rfl
        simp [h] at hpc
      simpa [State.withEmbed, hne] using And.intro hpc hslot
    · exact hdistinct.2
    · intro job hjob
      have hmatches := hs.buffered.pool job (by simp [hpool, hjob])
      -- The job of another call.
      have hne : ∀ other, job.task = some other → other ≠ task := by
        rintro other hother rfl
        exact hdistinct.1 (List.mem_filterMap.mpr ⟨job, hjob, hother⟩)
      cases job with
      | preflight other =>
          simpa [Job.matches, State.withEmbed, hne other rfl] using hmatches
      | batch leader =>
          simpa [Job.matches, State.withEmbed, hne leader rfl] using hmatches
      | load => trivial

theorem Accounted.send (hs : Accounted depth s) (h : (s.embeds task).pc = .sending) :
    Accounted depth ((s.withSlot (s.embeds task).slot (Slot.push task)).withEmbed task
      ((s.embeds task).at .inChannel)) := by
  have hleases := State.with_slot_same s (s.embeds task).slot (Slot.push task) Slot.leases
    fun _ => rfl
  have hqueued := State.with_slot_same s (s.embeds task).slot (Slot.push task) Slot.queued
    fun _ => rfl
  have hnot : ∀ key, task ∉ (s.slots key).channel := by
    intro key hmem
    have hpc := (hs.buffered.channel key task hmem).1
    simp [h] at hpc
  have hstay : ∀ other, (s.embeds other).pc.buffers = true → other ≠ task := by
    rintro other hother rfl
    simp [h, Pc.buffers] at hother
  refine hs.of_one (by simp [h]) rfl rfl rfl rfl rfl ?_ ⟨?_, ?_, ?_, rfl⟩ ?_
  · exact (hs.formed task).move (by rw [h]; rfl) (fun h => by cases h) (by simp) (by simp [h])
      (fun _ => by rw [h]; rfl) (fun _ => by rw [h]; rfl)
  · intro key'
    exact congrArg (· + _) (hleases key')
  · intro key'
    exact congrArg (· + _) (hqueued key')
  · intro key'
    exact (hqueued key').trans_le (hs.limit key')
  · constructor
    · intro key'
      by_cases hkey : key' = (s.embeds task).slot
      · subst hkey
        have hdistinct := hs.buffered.channel_distinct (s.embeds task).slot
        have hnot := hnot (s.embeds task).slot
        simp only [State.withEmbed, State.withSlot, Function.update_self, Slot.push]
        exact List.nodup_append.mpr ⟨hdistinct, by simp, by
          intro other hother last hlast heq
          rw [List.mem_singleton.mp hlast] at heq
          exact hnot (heq ▸ hother)⟩
      · simpa [State.withEmbed, State.withSlot, hkey] using hs.buffered.channel_distinct key'
    · intro key' other hmem
      by_cases hother : other = task
      · subst hother
        by_cases hkey : key' = (s.embeds other).slot
        · simp [State.withEmbed, Embed.at, hkey]
        · simp only [State.withEmbed, State.withSlot, Function.update_of_ne hkey] at hmem
          exact absurd hmem (hnot key')
      · have hbefore : other ∈ (s.slots key').channel := by
          by_cases hkey : key' = (s.embeds task).slot
          · subst hkey
            simpa [State.withEmbed, State.withSlot, Slot.push, hother] using hmem
          · simpa [State.withEmbed, State.withSlot, hkey] using hmem
        simpa [State.withEmbed, hother] using hs.buffered.channel key' other hbefore
    · exact hs.buffered.pool_distinct
    · intro job hjob
      refine (hs.buffered.pool job hjob).stay ?_
      intro other hother
      simp [State.withEmbed, hstay other hother]

/-- The first request leaves a channel, for the deque or to be dropped. -/
theorem Accounted.leave_channel (hs : Accounted depth s)
    (hhead : (s.slots key).channel.head? = some task) {pc : Pc}
    (hpc : pc = .pending ∨ pc = .dropping) :
    Accounted depth ((s.withSlot key Slot.pop).withEmbed task ((s.embeds task).at pc)) := by
  obtain ⟨rest, hchannel⟩ : ∃ rest, (s.slots key).channel = task :: rest :=
    List.head?_eq_some_iff.mp hhead
  obtain ⟨h, hslot⟩ := hs.buffered.channel key task (by simp [hchannel])
  have hleases := State.with_slot_same s key Slot.pop Slot.leases fun _ => rfl
  have hqueued := State.with_slot_same s key Slot.pop Slot.queued fun _ => rfl
  have hdistinct := hs.buffered.channel_distinct key
  rw [hchannel] at hdistinct
  refine hs.of_one (by simp [h]) rfl rfl rfl rfl rfl ?_ ⟨?_, ?_, ?_, rfl⟩ ?_
  · refine (hs.formed task).move (by rw [h]; rfl) ?_ ?_ ?_ ?_ ?_ <;>
      rcases hpc with rfl | rfl <;> simp [h, Pc.early, Pc.keepsPermit, Pc.keepsLease]
  · intro key'
    exact congrArg (· + _) (hleases key')
  · intro key'
    exact congrArg (· + _) (hqueued key')
  · intro key'
    exact (hqueued key').trans_le (hs.limit key')
  -- What is left in the channels was there before, and is not the call that left.
  · have hnew : ∀ key' other,
        other ∈ (((s.withSlot key Slot.pop).withEmbed task ((s.embeds task).at pc)).slots
          key').channel →
        other ∈ (s.slots key').channel ∧ other ≠ task := by
      intro key' other hmem
      by_cases hkey : key' = key
      · subst hkey
        have hrest : other ∈ rest := by
          simpa [State.withEmbed, State.withSlot, Slot.pop, hchannel] using hmem
        refine ⟨by simp [hchannel, hrest], ?_⟩
        rintro rfl
        exact (List.nodup_cons.mp hdistinct).1 hrest
      · have hbefore : other ∈ (s.slots key').channel := by
          simpa [State.withEmbed, State.withSlot, hkey] using hmem
        refine ⟨hbefore, ?_⟩
        rintro rfl
        exact hkey ((hs.buffered.channel key' other hbefore).2.symm.trans hslot)
    constructor
    · intro key'
      by_cases hkey : key' = key
      · subst hkey
        simpa [State.withEmbed, State.withSlot, Slot.pop, hchannel] using
          (List.nodup_cons.mp hdistinct).2
      · simpa [State.withEmbed, State.withSlot, hkey] using hs.buffered.channel_distinct key'
    · intro key' other hmem
      obtain ⟨hbefore, hne⟩ := hnew key' other hmem
      simpa [State.withEmbed, hne] using hs.buffered.channel key' other hbefore
    · exact hs.buffered.pool_distinct
    · intro job hjob
      -- A buffered call has no job in the pool.
      have hmatches := hs.buffered.pool job hjob
      cases job with
      | preflight other =>
          have hne : other ≠ task := by
            rintro rfl
            exact absurd (h.symm.trans hmatches) (by simp)
          simpa [Job.matches, State.withEmbed, hne] using hmatches
      | batch leader =>
          have hne : leader ≠ task := by
            rintro rfl
            exact absurd (h.symm.trans hmatches) (by simp)
          simpa [Job.matches, State.withEmbed, hne] using hmatches
      | load => trivial

/-! ## Steps of whole batches -/

/-- Calls move on together, each with what it holds. -/
theorem Accounted.of_many (hs : Accounted depth s)
    (hmove : ∀ task, s'.embeds task = s.embeds task ∨
      ((s.embeds task).pc ≠ .absent ∧ ∃ pc, s'.embeds task = (s.embeds task).at pc ∧
        ((s.embeds task).at pc).WellFormed s.nextKey))
    (hstarted : s'.started = s.started) (hmodels : s'.models = s.models)
    (hnext : s'.nextKey = s.nextKey) (hexplicit : s'.explicit = s.explicit)
    (hslots : s'.slots = s.slots) (hqueued : s'.queued = s.queued) (hbuffered : Buffered s') :
    Accounted depth s' := by
  have htally : ∀ units : Embed → Nat, (∀ embed pc, units (Embed.at embed pc) = units embed) →
      tally s'.started (fun task => units (s'.embeds task)) =
        tally s.started fun task => units (s.embeds task) := by
    intro units hunits
    rw [hstarted]
    refine tally_congr fun task _ => ?_
    rcases hmove task with hsame | ⟨_, pc, hat, _⟩
    · rw [hsame]
    · rw [hat, hunits]
  constructor
  · intro task htask
    rw [hstarted] at htask
    have habsent := hs.bounded task htask
    rcases hmove task with hsame | ⟨hbegun, _⟩
    · rw [hsame, habsent]
    · exact absurd (by rw [habsent]; rfl) hbegun
  · rw [hmodels, hnext]
    exact hs.keys
  · rw [hexplicit, hnext]
    exact hs.unused
  · intro task
    rw [hnext]
    rcases hmove task with hsame | ⟨_, pc, hat, hformed⟩
    · rw [hsame]
      exact hs.formed task
    · rw [hat]
      exact hformed
  · intro key
    rw [hslots, hexplicit]
    exact (hs.leases key).trans (congrArg (· + _) (htally (leaseOn · key) fun _ _ => rfl).symm)
  · intro key
    rw [hslots]
    exact (hs.queued key).trans (htally (permitOn · key) fun _ _ => rfl).symm
  · rw [hqueued]
    exact hs.counted.trans (htally (fun embed => embed.permit.inRuntime) fun _ _ => rfl).symm
  · rw [hslots]
    exact hs.limit
  · exact hbuffered

/-- The members of a batch are pending. -/
theorem pending_of_member {leader : Nat} {members : Nat → Bool}
    (h : (s.embeds leader).pc = .pending)
    (hmember : task = leader ∨ (members task = true ∧ (s.embeds task).pc = .pending ∧
      (s.embeds task).slot = (s.embeds leader).slot)) : (s.embeds task).pc = .pending := by
  rcases hmember with rfl | ⟨_, hpc, _⟩
  · exact h
  · exact hpc

theorem Accounted.dispatch (hs : Accounted depth s) {leader : Nat} (members : Nat → Bool)
    (h : (s.embeds leader).pc = .pending) :
    Accounted depth { s with
      embeds := gather s leader members
      pool := s.pool ++ [.batch leader] } := by
  refine hs.of_many ?_ rfl rfl rfl rfl rfl rfl
    (hs.buffered.push_pool rfl (by rw [h]; rfl) ?_ ?_ rfl rfl)
  · intro task
    show gather s leader members task = _ ∨ _ ∧ ∃ pc, gather s leader members task = _ ∧ _
    by_cases hmember : task = leader ∨ (members task = true ∧ (s.embeds task).pc = .pending ∧
        (s.embeds task).slot = (s.embeds leader).slot)
    · have hpc := pending_of_member h hmember
      refine .inr ⟨by simp [hpc], .batched leader, ?_, ?_⟩
      · simp only [gather, if_pos hmember]
      · exact (hs.formed task).move (by rw [hpc]; rfl) (fun h => by cases h) (by simp)
          (by simp [hpc]) (fun _ => by rw [hpc]; rfl) (fun _ => by rw [hpc]; rfl)
    · exact .inl (by simp only [gather, if_neg hmember])
  · simp [Job.matches, gather, Embed.at]
  · intro other hother
    refine if_neg ?_
    intro hmember
    have hpc := pending_of_member h hmember
    simp [hpc, Pc.buffers] at hother

theorem Accounted.dispatch_full (hs : Accounted depth s) {leader : Nat} (members : Nat → Bool)
    (h : (s.embeds leader).pc = .pending) :
    Accounted depth { s with embeds := scatter s leader members } := by
  refine hs.of_many ?_ rfl rfl rfl rfl rfl rfl (hs.buffered.congr ?_ rfl fun _ => rfl)
  · intro task
    show scatter s leader members task = _ ∨ _ ∧ ∃ pc, scatter s leader members task = _ ∧ _
    by_cases hmember : task = leader ∨ (members task = true ∧ (s.embeds task).pc = .pending ∧
        (s.embeds task).slot = (s.embeds leader).slot)
    · have hpc := pending_of_member h hmember
      refine .inr ⟨by simp [hpc], .dropping, ?_, ?_⟩
      · simp only [scatter, if_pos hmember]
      · exact (hs.formed task).move (by rw [hpc]; rfl) (fun h => by cases h) (by simp)
          (by simp [hpc]) (fun h => by cases h) (fun h => by cases h)
    · exact .inl (by simp only [scatter, if_neg hmember])
  · intro other hother
    refine if_neg ?_
    intro hmember
    have hpc := pending_of_member h hmember
    simp [hpc, Pc.buffers] at hother

theorem Accounted.execute (hs : Accounted depth s) {leader : Nat} {rest : List Job}
    (hpool : s.pool = .batch leader :: rest) :
    Accounted depth { s with embeds := unpack s leader, pool := rest } := by
  have hdistinct := hs.buffered.pool_distinct
  rw [hpool] at hdistinct
  simp only [List.filterMap_cons, Job.task, List.nodup_cons] at hdistinct
  have hkeep : ∀ other, (s.embeds other).pc ≠ .batched leader →
      unpack s leader other = s.embeds other := by
    intro other hother
    simp only [unpack, if_neg hother]
  refine hs.of_many ?_ rfl rfl rfl rfl rfl rfl ⟨hs.buffered.channel_distinct, ?_, hdistinct.2, ?_⟩
  · intro task
    show unpack s leader task = _ ∨ _ ∧ ∃ pc, unpack s leader task = _ ∧ _
    by_cases hpc : (s.embeds task).pc = .batched leader
    · refine .inr ⟨by simp [hpc], .executing leader, ?_, ?_⟩
      · simp only [unpack, if_pos hpc]
      · exact (hs.formed task).move (by rw [hpc]; rfl) (fun h => by cases h) (by simp)
          (by simp [hpc]) (fun h => by cases h) (fun _ => by rw [hpc]; rfl)
    · exact .inl (hkeep task hpc)
  · intro key other hmem
    obtain ⟨hpc, hslot⟩ := hs.buffered.channel key other hmem
    show (unpack s leader other).pc = _ ∧ (unpack s leader other).slot = _
    rw [hkeep other (by simp [hpc])]
    exact ⟨hpc, hslot⟩
  · intro job hjob
    have hmatches := hs.buffered.pool job (by simp [hpool, hjob])
    cases job with
    | preflight other =>
        have hpc : (s.embeds other).pc = .buffered := hmatches
        show (unpack s leader other).pc = _
        rw [hkeep other (by simp [hpc])]
        exact hpc
    | batch other =>
        have hpc : (s.embeds other).pc = .batched other := hmatches
        have hne : other ≠ leader := by
          rintro rfl
          exact hdistinct.1 (List.mem_filterMap.mpr ⟨_, hjob, rfl⟩)
        show (unpack s leader other).pc = _
        rw [hkeep other (by simp [hpc, hne])]
        exact hpc
    | load => trivial

end Calls

/-! ## Steps of the models -/

/-- Nothing is counted on a key that is still to be taken. -/
theorem Accounted.unlisted (hs : Accounted depth s) {key : ModelKey} (hkey : s.nextKey ≤ key) :
    s.leasesOn key = 0 ∧ s.permitsOn key = 0 := by
  have hzero : ∀ units : Embed → Nat, (∀ task, units (s.embeds task) = 0) →
      tally s.started (fun task => units (s.embeds task)) = 0 := by
    intro units hunits
    exact Finset.sum_eq_zero fun task _ => hunits task
  refine ⟨hzero (leaseOn · key) ?_, hzero (permitOn · key) ?_⟩
  · intro task
    have hformed := hs.formed task
    unfold leaseOn
    split
    case isTrue hlease => exact absurd (hformed.leaseKey key hlease) (Nat.not_lt.mpr hkey)
    case isFalse => rfl
  · intro task
    have hformed := hs.formed task
    unfold permitOn
    split
    case isTrue hslot =>
      have hearly : (s.embeds task).pc.early = true := by
        have hlocated : (s.embeds task).pc.located ≠ true := by
          intro hlocated
          have hlt := hformed.located hlocated
          rw [hslot] at hlt
          exact Nat.not_lt.mpr hkey hlt
        cases hpc : (s.embeds task).pc <;> simp [hpc, Pc.located] at hlocated <;> rfl
      rw [hformed.unpermitted (.inl hearly)]
      rfl
    case isFalse => rfl

theorem Embed.WellFormed.mono {nextKey nextKey' : Nat} (h : embed.WellFormed nextKey)
    (hle : nextKey ≤ nextKey') : embed.WellFormed nextKey' :=
  ⟨fun hpc => (h.located hpc).trans_le hle, fun key hkey => (h.leaseKey key hkey).trans_le hle,
    h.early, h.unpermitted, h.counting, h.permit, h.lease⟩

theorem Accounted.register (hs : Accounted depth s) (id : String) :
    Accounted depth { s with
      models := Function.update s.models id (some s.nextKey)
      slots := Function.update s.slots s.nextKey Slot.new
      nextKey := s.nextKey + 1 } := by
  obtain ⟨hleases, hpermits⟩ := hs.unlisted (le_refl s.nextKey)
  have hslot : ∀ {α : Type} (field : Slot → α) (key : ModelKey),
      (key = s.nextKey → field Slot.new = field (s.slots key)) →
      field (Function.update s.slots s.nextKey Slot.new key) = field (s.slots key) := by
    intro α field key hfield
    by_cases hkey : key = s.nextKey
    · subst hkey
      simpa using hfield rfl
    · simp [hkey]
  -- The counters of the new slot were zero already.
  have hqueued : ∀ key, (Function.update s.slots s.nextKey Slot.new key).queued =
      (s.slots key).queued := by
    intro key
    refine hslot Slot.queued key ?_
    rintro rfl
    exact ((hs.queued _).trans hpermits).symm
  have hchannel : ∀ key task, task ∈ (Function.update s.slots s.nextKey Slot.new key).channel →
      task ∈ (s.slots key).channel := by
    intro key task hmem
    by_cases hkey : key = s.nextKey
    · subst hkey
      simp [Slot.new] at hmem
    · simpa [hkey] using hmem
  constructor
  · exact hs.bounded
  · intro id' key hid
    by_cases hsame : id' = id
    · subst hsame
      have hkey : s.nextKey = key := by simpa using hid
      exact hkey ▸ Nat.lt_succ_self _
    · have hold : s.models id' = some key := by simpa [hsame] using hid
      exact (hs.keys id' key hold).trans (Nat.lt_succ_self _)
  · intro key hkey
    exact hs.unused key (by show s.nextKey ≤ key; have : s.nextKey + 1 ≤ key := hkey; omega)
  · intro task
    exact (hs.formed task).mono (Nat.le_succ _)
  · intro key
    refine (hslot Slot.leases key ?_).trans (hs.leases key)
    rintro rfl
    rw [hs.leases, hleases, hs.unused _ (le_refl _)]
    rfl
  · intro key
    exact (hqueued key).trans (hs.queued key)
  · exact hs.counted
  · intro key
    exact (hqueued key).trans_le (hs.limit key)
  · refine ⟨?_, fun key task hmem => hs.buffered.channel key task (hchannel key task hmem),
      hs.buffered.pool_distinct, hs.buffered.pool⟩
    intro key
    by_cases hkey : key = s.nextKey
    · subst hkey
      simp [Slot.new]
    · simpa [hkey] using hs.buffered.channel_distinct key

/-- A step that changes slots, models and explicit leases only. -/
theorem Accounted.of_slots (hs : Accounted depth s) (hembeds : s'.embeds = s.embeds)
    (hstarted : s'.started = s.started) (hpool : s'.pool = s.pool)
    (hnext : s'.nextKey = s.nextKey) (hglobal : s'.queued = s.queued)
    (hkeys : ∀ id key, s'.models id = some key → s.models id = some key)
    (hunused : ∀ key, s.nextKey ≤ key → s'.explicit key = 0)
    (hleases : ∀ key, (s'.slots key).leases + s.explicit key =
      (s.slots key).leases + s'.explicit key)
    (hqueued : ∀ key, (s'.slots key).queued = (s.slots key).queued)
    (hchannels : ∀ key, (s'.slots key).channel = (s.slots key).channel) : Accounted depth s' where
  bounded := by
    rw [hstarted, hembeds]
    exact hs.bounded
  keys := by
    intro id key hid
    rw [hnext]
    exact hs.keys id key (hkeys id key hid)
  unused := by
    rw [hnext]
    exact hunused
  formed := by
    rw [hembeds, hnext]
    exact hs.formed
  leases := by
    intro key
    have hold := hs.leases key
    have hbalance := hleases key
    simp only [State.leasesOn] at *
    rw [hstarted, hembeds]
    omega
  queued := by
    intro key
    rw [hqueued, hs.queued]
    simp only [State.permitsOn, hstarted, hembeds]
  counted := by
    rw [hglobal, hs.counted]
    simp only [State.permitsCounted, hstarted, hembeds]
  limit := by
    intro key
    rw [hqueued]
    exact hs.limit key
  buffered := hs.buffered.congr (fun _ _ => by rw [hembeds]) hpool hchannels

/-- Explicit leases are taken and dropped on a slot. -/
theorem Accounted.explicit (hs : Accounted depth s) {key : ModelKey} (hkey : key < s.nextKey)
    {change : Slot → Slot} {count : Nat}
    (hleases : (change (s.slots key)).leases + s.explicit key = (s.slots key).leases + count)
    (hqueued : ∀ slot, (change slot).queued = slot.queued)
    (hchannel : ∀ slot, (change slot).channel = slot.channel) :
    Accounted depth { s.withSlot key change with
      explicit := Function.update s.explicit key count } := by
  refine hs.of_slots rfl rfl rfl rfl rfl (fun _ _ h => h) ?_ ?_
    (State.with_slot_same s key change Slot.queued hqueued)
    (State.with_slot_same s key change Slot.channel hchannel)
  · intro key' hkey'
    have hne : key' ≠ key := by
      rintro rfl
      exact Nat.not_lt.mpr hkey' hkey
    simpa [hne] using hs.unused key' hkey'
  · intro key'
    by_cases hsame : key' = key
    · subst hsame
      simpa [State.withSlot] using hleases
    · simp [State.withSlot, hsame]

/-- A slot changes in a field that the books do not mention. -/
theorem Accounted.flag (hs : Accounted depth s) (key : ModelKey) (change : Slot → Slot)
    (hleases : ∀ slot, (change slot).leases = slot.leases)
    (hqueued : ∀ slot, (change slot).queued = slot.queued)
    (hchannel : ∀ slot, (change slot).channel = slot.channel) :
    Accounted depth (s.withSlot key change) := by
  refine hs.of_slots rfl rfl rfl rfl rfl (fun _ _ h => h) hs.unused ?_
    (State.with_slot_same s key change Slot.queued hqueued)
    (State.with_slot_same s key change Slot.channel hchannel)
  intro key'
  exact congrArg (· + _) (State.with_slot_same s key change Slot.leases hleases key')

/-- An explicit lease is on a slot that exists. -/
theorem Accounted.explicit_key (hs : Accounted depth s) {key : ModelKey} (h : 0 < s.explicit key) :
    key < s.nextKey := by
  by_contra hge
  have hzero := hs.unused key (Nat.not_lt.mp hge)
  omega

theorem Accounted.call (hs : Accounted depth s) (id : String) :
    Accounted depth { s.withEmbed s.started (Embed.absent.at (.called id)) with
      started := s.started + 1 } := by
  have habsent := hs.bounded s.started (le_refl _)
  have hothers : ∀ other, other ≠ s.started →
      (s.withEmbed s.started (Embed.absent.at (.called id))).embeds other = s.embeds other := by
    intro other hother
    simp [State.withEmbed, hother]
  -- The new call holds nothing yet.
  have htally : ∀ units : Embed → Nat, units (Embed.absent.at (.called id)) = 0 →
      tally (s.started + 1) (fun task => units
        ((s.withEmbed s.started (Embed.absent.at (.called id))).embeds task)) =
      tally s.started fun task => units (s.embeds task) := by
    intro units hunits
    rw [tally_succ]
    have hnew :
        units ((s.withEmbed s.started (Embed.absent.at (.called id))).embeds s.started) = 0 := by
      simpa [State.withEmbed] using hunits
    rw [hnew, Nat.add_zero]
    refine tally_congr fun task htask => ?_
    rw [hothers task htask.ne]
  constructor
  · intro task htask
    have hlt : s.started + 1 ≤ task := htask
    show (s.withEmbed s.started _).embeds task = _
    rw [hothers task (by omega)]
    exact hs.bounded task (by omega)
  · exact hs.keys
  · exact hs.unused
  · intro task
    by_cases htask : task = s.started
    · subst htask
      constructor <;>
        simp [State.withEmbed, Embed.at, Embed.absent, Pc.located, Pc.keepsPermit, Pc.keepsLease]
    · show ((s.withEmbed s.started _).embeds task).WellFormed s.nextKey
      rw [hothers task htask]
      exact hs.formed task
  · intro key
    exact (hs.leases key).trans
      (congrArg (· + _) (htally (leaseOn · key) (by simp [leaseOn, Embed.at, Embed.absent])).symm)
  · intro key
    refine (hs.queued key).trans (htally (permitOn · key) ?_).symm
    exact ite_self 0
  · exact hs.counted.trans (htally (fun embed => embed.permit.inRuntime) rfl).symm
  · exact hs.limit
  · refine hs.buffered.congr ?_ rfl fun _ => rfl
    intro other hother
    refine hothers other ?_
    rintro rfl
    simp [habsent, Embed.absent, Pc.buffers] at hother

/-! ## Every step -/

/-- Every step keeps the books. -/
theorem Accounted.step (hs : Accounted depth s) {label : Label} (hstep : Step depth label s s') :
    Accounted depth s' := by
  cases hstep with
  | register h => exact hs.register _
  | @unload _ id key h hidle =>
      have hflag := hs.flag key Slot.refuse (fun _ => rfl) (fun _ => rfl) fun _ => rfl
      refine hflag.of_slots rfl rfl rfl rfl rfl ?_ hflag.unused (fun _ => rfl) (fun _ => rfl)
        fun _ => rfl
      intro id' key' hid
      by_cases hsame : id' = id
      · subst hsame
        simp at hid
      · have hold : s.models id' = some key' := by simpa [hsame] using hid
        exact hold
  | fence => exact hs.flag _ Slot.refuse (fun _ => rfl) (fun _ => rfl) fun _ => rfl
  | close => exact hs.flag _ Slot.close (fun _ => rfl) (fun _ => rfl) fun _ => rfl
  | clearModels =>
      exact hs.of_slots rfl rfl rfl rfl rfl (fun _ _ h => by cases h) hs.unused (fun _ => rfl)
        (fun _ => rfl) fun _ => rfl
  | takeLease h haccepting =>
      refine hs.explicit (hs.keys _ _ h) ?_ (fun _ => rfl) fun _ => rfl
      simp only [Slot.addLease]
      omega
  | cloneLease h =>
      refine hs.explicit (hs.explicit_key h) ?_ (fun _ => rfl) fun _ => rfl
      simp only [Slot.addLease]
      omega
  | @dropLease _ key h =>
      have hleases := hs.leases key
      refine hs.explicit (hs.explicit_key h) ?_ (fun _ => rfl) fun _ => rfl
      simp only [Slot.dropLease]
      omega
  | call id => exact hs.call id
  | lookUp h hfound => exact hs.look_up h hfound
  | @accept _ task id h haccepting =>
      refine hs.of_move (by simp [h]) (by rw [h]; rfl) ?_
      exact (hs.formed task).move (by rw [h]; rfl) (fun _ => by rw [h]; rfl) (by simp) (by simp [h])
        (fun h => by cases h) (fun h => by cases h)
  | lease h hfound haccepting => exact hs.lease h hfound
  | count h hroom => exact hs.count h hroom
  | countGlobal h => exact hs.count_global h
  | submit h hroom => exact hs.submit h
  | preflight h => exact hs.preflight h
  | @prepare _ task h =>
      refine hs.of_move (by simp [h]) (by rw [h]; rfl) ?_
      exact (hs.formed task).move (by rw [h]; rfl) (fun h => by cases h) (by simp) (by simp [h])
        (fun _ => by rw [h]; rfl) (fun _ => by rw [h]; rfl)
  | @receive _ task h =>
      refine hs.of_move (by simp [h]) (by rw [h]; rfl) ?_
      exact (hs.formed task).move (by rw [h]; rfl) (fun h => by cases h) (by simp) (by simp [h])
        (fun _ => by rw [h]; rfl) (fun _ => by rw [h]; rfl)
  | send h hopen hroom => exact hs.send h
  | countFull h _ | submitFull h _ | sendFull h _ _ | discard h | refuse h _ | answer h =>
      exact hs.of_drop (by rw [h]; rfl) (by rw [h]; rfl) (by simp [h])
  | fail h =>
      rcases h with h | h | h | h | h <;>
        exact hs.of_drop (by rw [h]; rfl) (by rw [h]; rfl) (by simp [h])
  | recv h => exact hs.leave_channel h (.inl rfl)
  | drain hclosed h => exact hs.leave_channel h (.inr rfl)
  | dispatch members h hroom => exact hs.dispatch members h
  | dispatchFull members h hfull => exact hs.dispatch_full members h
  | execute h => exact hs.execute h
  | startPreflight h | infer h _ => exact hs
  | @activate _ task leader h hqueue haccepting =>
      refine hs.of_move (by simp [h]) (by rw [h]; rfl) ?_
      exact (hs.formed task).move (by rw [h]; rfl) (fun h => by cases h) (by simp) (by simp [h])
        (fun h => by cases h) (fun _ => by rw [h]; rfl)
  | uncount hpermit h => exact hs.uncount hpermit h
  | uncountGlobal hpermit => exact hs.uncount_global hpermit
  | release h hlease => exact hs.release h hlease
  | submitLoad hroom =>
      refine ⟨hs.bounded, hs.keys, hs.unused, hs.formed, hs.leases, hs.queued, hs.counted, hs.limit,
        hs.buffered.channel_distinct, hs.buffered.channel, ?_, ?_⟩
      · show ((s.pool ++ [Job.load]).filterMap Job.task).Nodup
        rw [List.filterMap_append, show [Job.load].filterMap Job.task = [] from rfl,
          List.append_nil]
        exact hs.buffered.pool_distinct
      · intro job hjob
        rw [List.mem_append, List.mem_singleton] at hjob
        rcases hjob with hjob | rfl
        · exact hs.buffered.pool job hjob
        · trivial
  | executeLoad h =>
      have hdistinct := hs.buffered.pool_distinct
      rw [h] at hdistinct
      refine ⟨hs.bounded, hs.keys, hs.unused, hs.formed, hs.leases, hs.queued, hs.counted, hs.limit,
        hs.buffered.channel_distinct, hs.buffered.channel, hdistinct, ?_⟩
      intro job hjob
      exact hs.buffered.pool job (by simp [h, hjob])

theorem accounted_initial : Accounted depth initial := by
  constructor
  · intro task _
    rfl
  · intro id key h
    cases h
  · intro key _
    rfl
  · intro task
    constructor <;> simp [initial, Embed.absent, Pc.located, Pc.keepsPermit, Pc.keepsLease]
  · intro key
    rfl
  · intro key
    rfl
  · rfl
  · intro key
    exact Nat.zero_le _
  · constructor <;> simp [initial, Slot.new]

/-- The books are right in every state of every run. -/
theorem accounted_run (hrun : Transition.Run (Next depth) initial s) : Accounted depth s := by
  induction hrun with
  | refl => exact accounted_initial
  | tail _ hlast ih =>
      obtain ⟨label, hstep⟩ := hlast
      exact ih.step hstep

end

end EmbeddingServer.Requests
