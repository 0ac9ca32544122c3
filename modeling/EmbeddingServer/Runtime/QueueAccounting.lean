import EmbeddingServer.Runtime.RequestAccounting

/-!
# Queue accounting

A permit is counted in its slot and in the runtime by two steps, and uncounted by two more, so
that the counter of the runtime is the sum of the counters of the slots but for the permits
that are half acquired or half released. Whatever stands in a buffer keeps its permit, which
bounds the buffers by the permits: the channel of a slot never refuses a request, and where
there is only one slot and no load the pool never refuses a job.

The answers `QueueFull` of the machine are those that the runtime gives by itself; a code that
an engine reports is passed on and is not one of them.
-/

namespace EmbeddingServer.Requests

open Tally

/-! ## Half acquired and half released permits -/

/-- Counted in its slot, not yet in the runtime. -/
def Permit.halfAcquired : Permit → Nat
  | .counting => 1
  | _ => 0

/-- Uncounted in its slot, not yet in the runtime. -/
def Permit.halfReleased : Permit → Nat
  | .uncounting => 1
  | _ => 0

/-- Permits between the two steps of `QueuePermit::acquire`. -/
def State.halfAcquired (s : State) : Nat :=
  tally s.started fun task => (s.embeds task).permit.halfAcquired

/-- Permits between the two steps of `QueuePermit::drop`. -/
def State.halfReleased (s : State) : Nat :=
  tally s.started fun task => (s.embeds task).permit.halfReleased

/-- The sum of the queue counters of all slots. -/
def State.queuedInSlots (s : State) : Nat :=
  tally s.nextKey fun key => (s.slots key).queued

/-- The accounting of the queue is exact. -/
structure QueueExact (depth : Nat) (s : State) : Prop where
  /-- The counter of a slot is the number of its live permits, within the policy. -/
  slot : ∀ key, (s.slots key).queued = s.permitsOn key ∧ (s.slots key).queued ≤ depth
  runtime : s.queued + s.halfAcquired = s.queuedInSlots + s.halfReleased
  /-- No counter is zero when a permit is about to be uncounted in it. -/
  uncount : ∀ task, (s.embeds task).permit = .held → 0 < (s.slots (s.embeds task).slot).queued
  uncountGlobal : ∀ task, (s.embeds task).permit = .uncounting → 0 < s.queued
  /-- The channel of the slot has room for every request that is about to be sent. -/
  send : ∀ task, (s.embeds task).pc = .sending →
    (s.slots (s.embeds task).slot).channel.length < depth
  /-- With one slot and no load the pool has room for every job that is about to be submitted,
  and the runtime answers `QueueFull` only when `queue_depth` permits are live. -/
  pool : s.nextKey ≤ 1 → s.loads = false →
    (∀ task, (s.embeds task).pc = .permitted ∨ (s.embeds task).pc = .pending →
      s.pool.length < depth) ∧
    ∀ s', Step depth .queue_full s s' → s.permitsOn 0 = depth

section

variable {depth : Nat} {s s' : State} {task : Nat} {key : ModelKey}

/-! ## The counter of the runtime -/

theorem Permit.halves (permit : Permit) :
    permit.inRuntime + permit.halfAcquired = permit.inSlot + permit.halfReleased := by
  cases permit <;> rfl

/-- A permit is taken from a slot that exists. -/
theorem Accounted.slot_lt (hs : Accounted depth s) (task : Nat)
    (h : (s.embeds task).permit.inSlot ≠ 0) : (s.embeds task).slot < s.nextKey := by
  have hformed := hs.formed task
  refine hformed.located ?_
  have hearly : (s.embeds task).pc.early ≠ true := by
    intro hearly
    rw [hformed.unpermitted (.inl hearly)] at h
    exact h rfl
  cases hpc : (s.embeds task).pc <;> first | rfl | exact absurd (by rw [hpc]; rfl) hearly

/-- The permit of a call is counted on one slot. -/
theorem Accounted.tally_permit_on (hs : Accounted depth s) (task : Nat) :
    tally s.nextKey (fun key => permitOn (s.embeds task) key) =
      (s.embeds task).permit.inSlot := by
  by_cases hpermit : (s.embeds task).permit.inSlot = 0
  · rw [hpermit]
    exact Finset.sum_eq_zero fun key _ => by simp [permitOn, hpermit]
  · have hslot := hs.slot_lt task hpermit
    rw [← tally_single hslot (s.embeds task).permit.inSlot]
    refine tally_congr fun key _ => ?_
    simp only [permitOn, eq_comm]

/-- The counters of the slots count every permit once. -/
theorem Accounted.queued_in_slots_eq (hs : Accounted depth s) :
    s.queuedInSlots = tally s.started fun task => (s.embeds task).permit.inSlot := by
  calc s.queuedInSlots
      = tally s.nextKey fun key => tally s.started fun task => permitOn (s.embeds task) key :=
        tally_congr fun key _ => hs.queued key
    _ = tally s.started fun task => tally s.nextKey fun key => permitOn (s.embeds task) key :=
        tally_comm s.nextKey s.started fun key task => permitOn (s.embeds task) key
    _ = tally s.started fun task => (s.embeds task).permit.inSlot :=
        tally_congr fun task _ => hs.tally_permit_on task

theorem Accounted.runtime (hs : Accounted depth s) :
    s.queued + s.halfAcquired = s.queuedInSlots + s.halfReleased := by
  rw [hs.counted, hs.queued_in_slots_eq]
  unfold State.permitsCounted State.halfAcquired State.halfReleased
  rw [← tally_add, ← tally_add]
  exact tally_congr fun task _ => (s.embeds task).permit.halves

/-! ## Permits that are there to be uncounted -/

theorem Accounted.begun_of_permit (hs : Accounted depth s) (task : Nat)
    (h : (s.embeds task).permit ≠ .absent) : task < s.started := by
  refine hs.lt_started ?_
  intro habsent
  exact h ((hs.formed task).unpermitted (.inl (by rw [habsent]; rfl)))

theorem Accounted.uncount_pos (hs : Accounted depth s) (h : (s.embeds task).permit = .held) :
    0 < (s.slots (s.embeds task).slot).queued := by
  have hbegun := hs.begun_of_permit task (by simp [h])
  have hone : permitOn (s.embeds task) (s.embeds task).slot = 1 := by
    simp [permitOn, h, Permit.inSlot]
  have hle := le_tally (fun other => permitOn (s.embeds other) (s.embeds task).slot) hbegun
  rw [hs.queued]
  unfold State.permitsOn
  omega

theorem Accounted.uncount_global_pos (hs : Accounted depth s)
    (h : (s.embeds task).permit = .uncounting) : 0 < s.queued := by
  have hbegun := hs.begun_of_permit task (by simp [h])
  have hone : (s.embeds task).permit.inRuntime = 1 := by
    simp [h, Permit.inRuntime]
  have hle := le_tally (fun other => (s.embeds other).permit.inRuntime) hbegun
  rw [hs.counted]
  unfold State.permitsCounted
  omega

/-! ## Buffers are bounded by permits -/

/-- Distinct calls that keep permits of one slot are within the policy. -/
theorem Accounted.length_le (hs : Accounted depth s) (key : ModelKey) {tasks : List Nat}
    (hdistinct : tasks.Nodup)
    (h : ∀ task ∈ tasks, (s.embeds task).pc.keepsPermit = true ∧ (s.embeds task).slot = key) :
    tasks.length ≤ depth := by
  have hle : tasks.length ≤ s.permitsOn key := by
    refine length_le_tally hdistinct fun task hmem => ?_
    obtain ⟨hkeeps, hslot⟩ := h task hmem
    have hpermit := (hs.formed task).permit hkeeps
    exact ⟨hs.begun_of_permit task (by simp [hpermit]),
      by simp [permitOn, hslot, hpermit, Permit.inSlot]⟩
  have hlimit := hs.limit key
  rw [hs.queued] at hlimit
  omega

/-- A request that is about to be sent finds room in the channel. -/
theorem Accounted.send_room (hs : Accounted depth s) (h : (s.embeds task).pc = .sending) :
    (s.slots (s.embeds task).slot).channel.length < depth := by
  have hchannel := hs.buffered.channel (s.embeds task).slot
  have hout : task ∉ (s.slots (s.embeds task).slot).channel := by
    intro hmem
    have hpc := (hchannel task hmem).1
    rw [h] at hpc
    cases hpc
  have hdistinct := (hs.buffered.channel_distinct (s.embeds task).slot).cons hout
  have hlength : (task :: (s.slots (s.embeds task).slot).channel).length ≤ depth := by
    refine hs.length_le (s.embeds task).slot hdistinct fun other hmem => ?_
    rcases List.mem_cons.mp hmem with rfl | hmem
    · exact ⟨by rw [h]; rfl, rfl⟩
    · obtain ⟨hpc, hslot⟩ := hchannel other hmem
      exact ⟨by rw [hpc]; rfl, hslot⟩
  exact hlength

/-- Without loads every job in the pool is there for a call. -/
theorem length_filter_map_task {jobs : List Job} (h : Job.load ∉ jobs) :
    (jobs.filterMap Job.task).length = jobs.length := by
  induction jobs with
  | nil => rfl
  | cons job rest ih =>
      have hrest : Job.load ∉ rest := fun hmem => h (List.mem_cons_of_mem job hmem)
      cases job with
      | preflight task => simpa [Job.task] using ih hrest
      | batch leader => simpa [Job.task] using ih hrest
      | load => exact absurd List.mem_cons_self h

/-- Jobs in the pool keep permits. -/
theorem Buffered.pool_keeps_permit (hs : Buffered s) (h : task ∈ s.pool.filterMap Job.task) :
    (s.embeds task).pc.keepsPermit = true := by
  obtain ⟨job, hjob, htask⟩ := List.mem_filterMap.mp h
  have hmatches := hs.pool job hjob
  cases job with
  | preflight other =>
      cases htask
      have hpc : (s.embeds task).pc = .buffered := hmatches
      rw [hpc]
      rfl
  | batch leader =>
      cases htask
      have hpc : (s.embeds task).pc = .batched task := hmatches
      rw [hpc]
      rfl
  | load => cases htask

/-- With one slot and no load in the pool, a job that is about to be submitted finds room. -/
theorem Accounted.pool_room (hs : Accounted depth s) (hone : s.nextKey ≤ 1)
    (hload : Job.load ∉ s.pool)
    (h : (s.embeds task).pc = .permitted ∨ (s.embeds task).pc = .pending) :
    s.pool.length < depth := by
  have hkeeps : (s.embeds task).pc.keepsPermit = true := by
    rcases h with h | h <;> rw [h] <;> rfl
  have hout : task ∉ s.pool.filterMap Job.task := by
    refine hs.buffered.not_mem_pool ?_ ?_ <;> rcases h with h | h <;> simp [h]
  -- The only slot is the first one.
  have hslot : ∀ other, (s.embeds other).pc.keepsPermit = true → (s.embeds other).slot = 0 := by
    intro other hother
    have hpermit := (hs.formed other).permit hother
    have hlt := (hs.slot_lt other (by simp [hpermit, Permit.inSlot])).trans_le hone
    exact Nat.lt_one_iff.mp hlt
  have hlength : (task :: s.pool.filterMap Job.task).length ≤ depth := by
    refine hs.length_le 0 (hs.buffered.pool_distinct.cons hout) fun other hmem => ?_
    rcases List.mem_cons.mp hmem with rfl | hmem
    · exact ⟨hkeeps, hslot other hkeeps⟩
    · have hother := hs.buffered.pool_keeps_permit hmem
      exact ⟨hother, hslot other hother⟩
  rw [List.length_cons, length_filter_map_task hload] at hlength
  exact hlength

/-! ## Loads -/

/-- A load job in the pool was submitted. -/
def LoadsKnown (s : State) : Prop :=
  Job.load ∈ s.pool → s.loads = true

/-- The pool loses its first job or gains one that is no load. -/
theorem LoadsKnown.of_pool (hs : LoadsKnown s) (hpool : ∀ job ∈ s'.pool, job = .load → job ∈ s.pool)
    (hloads : s'.loads = s.loads) : LoadsKnown s' := by
  intro hmem
  rw [hloads]
  exact hs (hpool .load hmem rfl)

theorem LoadsKnown.step (hs : LoadsKnown s) {label : Label} (hstep : Step depth label s s') :
    LoadsKnown s' := by
  cases hstep with
  | @submit _ task h hroom =>
      refine hs.of_pool ?_ rfl
      intro job hjob hload
      subst hload
      simpa using hjob
  | @dispatch _ leader members h hroom =>
      refine hs.of_pool ?_ rfl
      intro job hjob hload
      subst hload
      simpa using hjob
  | preflight h | execute h | executeLoad h =>
      refine hs.of_pool ?_ rfl
      intro job hjob _
      rw [h]
      exact List.mem_cons_of_mem _ hjob
  | submitLoad hroom =>
      intro _
      rfl
  | _ => exact hs

theorem loads_known_run (hrun : Transition.Run (Next depth) initial s) : LoadsKnown s := by
  induction hrun with
  | refl =>
      intro h
      cases h
  | tail _ hlast ih =>
      obtain ⟨label, hstep⟩ := hlast
      exact ih.step hstep

/-- With one slot and no load `QueueFull` means that the queue of the slot is full. -/
theorem Accounted.queue_full (hs : Accounted depth s) (hone : s.nextKey ≤ 1)
    (hload : Job.load ∉ s.pool) (hstep : Step depth .queue_full s s') : s.permitsOn 0 = depth := by
  generalize hlabel : Label.queue_full = label at hstep
  cases hstep with
  | @countFull _ task h hfull =>
      have hslot : (s.embeds task).slot = 0 :=
        Nat.lt_one_iff.mp (((hs.formed task).located (by rw [h]; rfl)).trans_le hone)
      rw [hslot] at hfull
      rw [← hs.queued]
      exact Nat.le_antisymm (hs.limit 0) hfull
  | submitFull h hfull => exact absurd (hs.pool_room hone hload (.inl h)) (Nat.not_lt.mpr hfull)
  | sendFull h hopen hfull => exact absurd (hs.send_room h) (Nat.not_lt.mpr hfull)
  | dispatchFull members h hfull =>
      exact absurd (hs.pool_room hone hload (.inr h)) (Nat.not_lt.mpr hfull)
  | _ => cases hlabel

/-- In every state of every run the accounting of the queue is exact. -/
theorem queue_accounting (hrun : Transition.Run (Next depth) initial s) : QueueExact depth s := by
  have hs := accounted_run hrun
  constructor
  · intro key
    exact ⟨hs.queued key, hs.limit key⟩
  · exact hs.runtime
  · intro task h
    exact hs.uncount_pos h
  · intro task h
    exact hs.uncount_global_pos h
  · intro task h
    exact hs.send_room h
  · intro hone hloads
    have hload : Job.load ∉ s.pool := by
      intro hmem
      have hknown := loads_known_run hrun hmem
      rw [hloads] at hknown
      cases hknown
    exact ⟨fun task h => hs.pool_room hone hload h, fun s' hstep => hs.queue_full hone hload hstep⟩

end

/-- A call is about to send its request, with its permit counted in both places. -/
theorem queue_accounting_sending :
    ∃ s, Transition.Run (Next 1) initial s ∧ QueueExact 1 s ∧ (s.embeds 0).pc = .sending ∧
      s.queued = 1 ∧ s.queuedInSlots = 1 := by
  have h : Transition.Run (Next 1) initial _ := .single ⟨_, @Step.register 1 _ "m" rfl⟩
  replace h := h.tail ⟨_, Step.call "m"⟩
  replace h := h.tail ⟨_, @Step.lookUp 1 _ 0 "m" 0 rfl rfl⟩
  replace h := h.tail ⟨_, @Step.accept 1 _ 0 "m" rfl rfl⟩
  replace h := h.tail ⟨_, @Step.lease 1 _ 0 "m" 0 rfl rfl rfl⟩
  replace h := h.tail ⟨_, @Step.count 1 _ 0 rfl (by decide)⟩
  replace h := h.tail ⟨_, @Step.countGlobal 1 _ 0 rfl⟩
  replace h := h.tail ⟨_, @Step.submit 1 _ 0 rfl (by decide)⟩
  replace h := h.tail ⟨_, @Step.preflight 1 _ 0 _ rfl⟩
  replace h := h.tail ⟨_, @Step.prepare 1 _ 0 rfl⟩
  replace h := h.tail ⟨_, @Step.receive 1 _ 0 rfl⟩
  exact ⟨_, h, queue_accounting h, rfl, rfl, by decide⟩

/-- Between the two steps of an acquisition the counter of the runtime is not the sum of the
counters of the slots. -/
theorem queued_half_acquired :
    ∃ s, Transition.Run (Next 1) initial s ∧ s.queued ≠ s.queuedInSlots := by
  have h : Transition.Run (Next 1) initial _ := .single ⟨_, @Step.register 1 _ "m" rfl⟩
  replace h := h.tail ⟨_, Step.call "m"⟩
  replace h := h.tail ⟨_, @Step.lookUp 1 _ 0 "m" 0 rfl rfl⟩
  replace h := h.tail ⟨_, @Step.accept 1 _ 0 "m" rfl rfl⟩
  replace h := h.tail ⟨_, @Step.lease 1 _ 0 "m" 0 rfl rfl rfl⟩
  replace h := h.tail ⟨_, @Step.count 1 _ 0 rfl (by decide)⟩
  exact ⟨_, h, by decide⟩

end EmbeddingServer.Requests
