import EmbeddingServer.Runtime.RequestAccounting

/-!
# Leases and the engines they protect

A call looks its slot up and takes its lease by a second look-up of the name. If the name is
unloaded and registered again in between, the lease is counted on the new slot while the call
goes on with the engine of the old one. In runs in which the second look-up finds the slot of
the first, every lease is counted on the slot that its call uses, and nothing starts on the
engine of a slot for which `unload` has returned `Ok`.
-/

namespace EmbeddingServer.Requests

open Tally

/-- The call is alive and uses the engine of the slot. -/
def usesEngine (embed : Embed) (key : ModelKey) : Nat :=
  if embed.lease.isSome = true ∧ embed.slot = key then 1 else 0

/-- Live calls that use the slot. -/
def State.usersOf (s : State) (key : ModelKey) : Nat :=
  tally s.started fun task => usesEngine (s.embeds task) key

/-- The leases of calls protect the engines that the calls use. -/
structure Protected (depth : Nat) (s : State) : Prop where
  /-- As long as the owner of a lease lives, it is counted on the slot that the call uses. -/
  own : ∀ task, (s.embeds task).pc.keepsLease = true →
    (s.embeds task).lease = some (s.embeds task).slot
  /-- Nothing starts on the engine of an unloaded slot. -/
  unloaded : ∀ key, s.unloaded key = true → ∀ s', ¬ Step depth (.starts key) s s'
  counter : ∀ key, (s.slots key).leases = s.usersOf key + s.explicit key

/-- A step that does not take a lease on another slot than the one that was looked up. -/
def SteadyNext (depth : Nat) (s s' : State) : Prop :=
  ∃ label, Step depth label s s' ∧
    ∀ task id, label = .lease task → (s.embeds task).pc = .accepted id →
      s.models id = some (s.embeds task).slot

/-- What such steps keep true. -/
structure Steady (s : State) : Prop where
  own : ∀ task key, (s.embeds task).lease = some key → (s.embeds task).slot = key
  distinct : ∀ id id' key, s.models id = some key → s.models id' = some key → id = id'
  gone : ∀ key, s.unloaded key = true →
    key < s.nextKey ∧ (∀ id, s.models id ≠ some key) ∧ (s.slots key).leases = 0

section

variable {depth : Nat} {s s' : State} {task : Nat} {key : ModelKey}

/-- The call keeps its slot, and its lease unless it drops it. -/
def Keeps (embed embed' : Embed) : Prop :=
  (embed'.lease = embed.lease ∨ embed'.lease = none) ∧ embed'.slot = embed.slot

theorem Keeps.refl (embed : Embed) : Keeps embed embed :=
  ⟨.inl rfl, rfl⟩

/-- A step in which calls keep their slots and no lease is taken. -/
theorem Steady.of_keeps (hs : Steady s) (hkeeps : ∀ task, Keeps (s.embeds task) (s'.embeds task))
    (hmodels : s'.models = s.models) (hunloaded : s'.unloaded = s.unloaded)
    (hnext : s'.nextKey = s.nextKey)
    (hleases : ∀ key, s.unloaded key = true → (s'.slots key).leases ≤ (s.slots key).leases) :
    Steady s' := by
  constructor
  · intro task key hlease
    obtain ⟨hsame | hnone, hslot⟩ := hkeeps task
    · rw [hslot]
      exact hs.own task key (hsame ▸ hlease)
    · rw [hnone] at hlease
      cases hlease
  · rw [hmodels]
    exact hs.distinct
  · intro key hgone
    rw [hunloaded] at hgone
    obtain ⟨hkey, hnames, hidle⟩ := hs.gone key hgone
    have hle := hleases key hgone
    rw [hnext, hmodels]
    exact ⟨hkey, hnames, by omega⟩

/-- The record of one call changes. -/
theorem keeps_update (embed : Embed) (hkeeps : Keeps (s.embeds task) embed) (other : Nat) :
    Keeps (s.embeds other) (Function.update s.embeds task embed other) := by
  by_cases hother : other = task
  · subst hother
    simpa using hkeeps
  · rw [Function.update_of_ne hother]
    exact .refl _

/-- A call that only moves on. -/
theorem keeps_at (pc : Pc) (other : Nat) :
    Keeps (s.embeds other) ((s.withEmbed task ((s.embeds task).at pc)).embeds other) :=
  keeps_update ((s.embeds task).at pc) ⟨.inl rfl, rfl⟩ other

/-- A slot changes, but not its lease counter upwards. -/
theorem with_slot_leases_le (change : Slot → Slot)
    (h : ∀ slot, (change slot).leases ≤ slot.leases) (key' : ModelKey) :
    ((s.withSlot key change).slots key').leases ≤ (s.slots key').leases := by
  by_cases hkey : key' = key
  · subst hkey
    simpa [State.withSlot] using h (s.slots key')
  · simp [State.withSlot, hkey]

/-- A call moves on and changes a slot, but not its lease counter upwards. -/
theorem Steady.of_slot (hs : Steady s) (key : ModelKey) (change : Slot → Slot)
    (h : ∀ slot, (change slot).leases ≤ slot.leases) {embed : Embed}
    (hkeeps : Keeps (s.embeds task) embed) :
    Steady ((s.withSlot key change).withEmbed task embed) :=
  hs.of_keeps (keeps_update embed hkeeps) rfl rfl rfl
    fun key' _ => with_slot_leases_le change h key'

/-- A lease is taken on a slot that is not unloaded. -/
theorem add_lease_le (h : s.unloaded key = false) (key' : ModelKey)
    (hgone : s.unloaded key' = true) :
    ((s.withSlot key Slot.addLease).slots key').leases ≤ (s.slots key').leases := by
  have hkey : key' ≠ key := by
    rintro rfl
    rw [h] at hgone
    cases hgone
  simp [State.withSlot, hkey]

/-- A registered slot is not unloaded. -/
theorem Steady.not_unloaded (hs : Steady s) {id : String} (h : s.models id = some key) :
    s.unloaded key = false := by
  by_contra hgone
  exact (hs.gone key (by simpa using hgone)).2.1 id h

/-- A slot with a live lease is not unloaded. -/
theorem Steady.not_unloaded_of_lease (hs : Steady s) (h : 0 < (s.slots key).leases) :
    s.unloaded key = false := by
  by_contra hgone
  have hidle := (hs.gone key (by simpa using hgone)).2.2
  omega

theorem Steady.register (hs : Steady s) (hbooks : Accounted depth s) {id : String}
    (hfree : s.models id = none) :
    Steady { s with
      models := Function.update s.models id (some s.nextKey)
      slots := Function.update s.slots s.nextKey Slot.new
      nextKey := s.nextKey + 1 } := by
  -- The key of the new slot is not the key of another model.
  have hfresh : ∀ id', s.models id' ≠ some s.nextKey := by
    intro id' hid
    exact Nat.lt_irrefl _ (hbooks.keys id' s.nextKey hid)
  constructor
  · exact hs.own
  · intro id₁ id₂ key h₁ h₂
    by_cases hid₁ : id₁ = id
    · subst hid₁
      have hkey : s.nextKey = key := by simpa using h₁
      subst hkey
      by_contra hne
      have hold : s.models id₂ = some s.nextKey := by
        simpa [Ne.symm hne] using h₂
      exact hfresh id₂ hold
    · have hold₁ : s.models id₁ = some key := by simpa [hid₁] using h₁
      by_cases hid₂ : id₂ = id
      · subst hid₂
        have hkey : s.nextKey = key := by simpa using h₂
        subst hkey
        exact absurd hold₁ (hfresh id₁)
      · exact hs.distinct id₁ id₂ key hold₁ (by simpa [hid₂] using h₂)
  · intro key hgone
    obtain ⟨hkey, hnames, hidle⟩ := hs.gone key hgone
    have hne : key ≠ s.nextKey := Nat.ne_of_lt hkey
    refine ⟨hkey.trans (Nat.lt_succ_self _), ?_, ?_⟩
    · intro id' hid
      by_cases hsame : id' = id
      · subst hsame
        have hkey : s.nextKey = key := by simpa using hid
        exact hne hkey.symm
      · exact hnames id' (by simpa [hsame] using hid)
    · simpa [hne] using hidle

theorem Steady.unload (hs : Steady s) (hbooks : Accounted depth s) {id : String}
    (h : s.models id = some key) (hidle : (s.slots key).leases = 0) :
    Steady { s.withSlot key Slot.refuse with
      models := Function.update s.models id none
      unloaded := Function.update s.unloaded key true } := by
  have hleases := State.with_slot_same s key Slot.refuse Slot.leases fun _ => rfl
  have hremoved : ∀ id' key', Function.update s.models id none id' = some key' →
      id' ≠ id ∧ s.models id' = some key' := by
    intro id' key' hid
    by_cases hsame : id' = id
    · subst hsame
      simp at hid
    · exact ⟨hsame, by simpa [hsame] using hid⟩
  constructor
  · exact hs.own
  · intro id₁ id₂ key' h₁ h₂
    exact hs.distinct id₁ id₂ key' (hremoved id₁ key' h₁).2 (hremoved id₂ key' h₂).2
  · intro key' hgone
    by_cases hkey : key' = key
    · subst hkey
      refine ⟨hbooks.keys id key' h, ?_, (hleases key').trans hidle⟩
      intro id' hid
      obtain ⟨hne, hold⟩ := hremoved id' key' hid
      exact hne (hs.distinct id' id key' hold h)
    · obtain ⟨hlt, hnames, hzero⟩ := hs.gone key' (by simpa [hkey] using hgone)
      refine ⟨hlt, ?_, (hleases key').trans hzero⟩
      intro id' hid
      exact hnames id' (hremoved id' key' hid).2

theorem Steady.clear_models (hs : Steady s) : Steady { s with models := fun _ => none } where
  own := hs.own
  distinct := by
    intro id id' key h
    cases h
  gone := by
    intro key hgone
    obtain ⟨hkey, _, hidle⟩ := hs.gone key hgone
    refine ⟨hkey, ⟨?_, hidle⟩⟩
    intro id h
    cases h

/-- A lease on the slot that the call uses. -/
theorem Steady.lease (hs : Steady s) {id : String} {pc : Pc} (h : s.models id = some key)
    (hslot : (s.embeds task).slot = key) :
    Steady ((s.withSlot key Slot.addLease).withEmbed task
      { (s.embeds task).at pc with lease := some key }) := by
  have hle := add_lease_le (hs.not_unloaded h)
  constructor
  · intro other key' hlease
    by_cases hother : other = task
    · subst hother
      have hkey : key = key' := by simpa [State.withEmbed] using hlease
      simpa [State.withEmbed, Embed.at, hkey] using hslot.trans hkey
    · have hold : (s.embeds other).lease = some key' := by
        simpa [State.withEmbed, hother] using hlease
      simpa [State.withEmbed, hother] using hs.own other key' hold
  · exact hs.distinct
  · intro key' hgone
    obtain ⟨hlt, hnames, hidle⟩ := hs.gone key' hgone
    exact ⟨hlt, hnames, Nat.le_zero.mp ((hle key' hgone).trans_eq hidle)⟩

/-! ## Every step -/

/-- Requests that are put into a batch, fail with it or leave it keep what they hold. -/
theorem keeps_gather (leader : Nat) (members : Nat → Bool) (other : Nat) :
    Keeps (s.embeds other) (gather s leader members other) := by
  simp only [gather]
  split
  · exact ⟨.inl rfl, rfl⟩
  · exact .refl _

theorem keeps_scatter (leader : Nat) (members : Nat → Bool) (other : Nat) :
    Keeps (s.embeds other) (scatter s leader members other) := by
  simp only [scatter]
  split
  · exact ⟨.inl rfl, rfl⟩
  · exact .refl _

theorem keeps_unpack (leader : Nat) (other : Nat) :
    Keeps (s.embeds other) (unpack s leader other) := by
  simp only [unpack]
  split
  · exact ⟨.inl rfl, rfl⟩
  · exact .refl _

theorem Steady.step (hs : Steady s) (hbooks : Accounted depth s) (hnext : SteadyNext depth s s') :
    Steady s' := by
  obtain ⟨label, hstep, hsteady⟩ := hnext
  have hleast : ∀ key, s.unloaded key = true → (s.slots key).leases ≤ (s.slots key).leases :=
    fun _ _ => le_refl _
  cases hstep with
  | register h => exact hs.register hbooks h
  | unload h hidle => exact hs.unload hbooks h hidle
  | clearModels => exact hs.clear_models
  | fence =>
      exact hs.of_keeps (fun _ => .refl _) rfl rfl rfl
        fun key _ => with_slot_leases_le Slot.refuse (fun _ => le_refl _) key
  | close =>
      exact hs.of_keeps (fun _ => .refl _) rfl rfl rfl
        fun key _ => with_slot_leases_le Slot.close (fun _ => le_refl _) key
  | takeLease h haccepting =>
      exact hs.of_keeps (fun _ => .refl _) rfl rfl rfl (add_lease_le (hs.not_unloaded h))
  | @cloneLease _ key h =>
      have hlive : 0 < (s.slots key).leases := by
        rw [hbooks.leases]
        omega
      exact hs.of_keeps (fun _ => .refl _) rfl rfl rfl
        (add_lease_le (hs.not_unloaded_of_lease hlive))
  | dropLease h =>
      exact hs.of_keeps (fun _ => .refl _) rfl rfl rfl
        fun key _ => with_slot_leases_le Slot.dropLease (fun _ => Nat.sub_le _ _) key
  | call id =>
      refine hs.of_keeps (keeps_update _ ⟨.inr rfl, ?_⟩) rfl rfl rfl hleast
      rw [hbooks.bounded s.started (le_refl _)]
      rfl
  | @lookUp _ task id key h hfound =>
      -- The slot changes, but there is no lease yet.
      have hlease := (hbooks.formed task).early (by rw [h]; rfl)
      refine ⟨?_, hs.distinct, hs.gone⟩
      intro other key' hother
      by_cases hsame : other = task
      · subst hsame
        simp [State.withEmbed, Embed.at, hlease] at hother
      · have hold : (s.embeds other).lease = some key' := by
          simpa [State.withEmbed, hsame] using hother
        simpa [State.withEmbed, hsame] using hs.own other key' hold
  | @lease _ task id key h hfound haccepting =>
      have hslot := hsteady task id rfl h
      rw [hfound] at hslot
      exact hs.lease hfound (Option.some.inj hslot).symm
  | accept _ _ | countFull _ _ | submit _ _ | submitFull _ _ | preflight _ | prepare _ | receive _
  | sendFull _ _ _ | fail _ | discard _ | activate _ _ _ | refuse _ _ | answer _ =>
      exact hs.of_keeps (keeps_at _) rfl rfl rfl hleast
  | countGlobal _ | uncountGlobal _ =>
      exact hs.of_keeps (keeps_update _ ⟨.inl rfl, rfl⟩) rfl rfl rfl hleast
  | count _ _ => exact hs.of_slot _ Slot.count (fun _ => le_refl _) ⟨.inl rfl, rfl⟩
  | @send _ task _ _ _ => exact hs.of_slot _ (Slot.push task) (fun _ => le_refl _) ⟨.inl rfl, rfl⟩
  | recv _ | drain _ _ => exact hs.of_slot _ Slot.pop (fun _ => le_refl _) ⟨.inl rfl, rfl⟩
  | uncount _ _ => exact hs.of_slot _ Slot.uncount (fun _ => le_refl _) ⟨.inl rfl, rfl⟩
  | release _ _ => exact hs.of_slot _ Slot.dropLease (fun _ => Nat.sub_le _ _) ⟨.inr rfl, rfl⟩
  | startPreflight _ | infer _ _ => exact hs
  | dispatch members h hroom => exact hs.of_keeps (keeps_gather _ members) rfl rfl rfl hleast
  | dispatchFull members h hfull => exact hs.of_keeps (keeps_scatter _ members) rfl rfl rfl hleast
  | execute h => exact hs.of_keeps (keeps_unpack _) rfl rfl rfl hleast
  | submitLoad _ | executeLoad _ => exact hs.of_keeps (fun _ => .refl _) rfl rfl rfl hleast

theorem steady_initial : Steady initial where
  own := by
    intro task key h
    cases h
  distinct := by
    intro id id' key h
    cases h
  gone := by
    intro key h
    cases h

theorem steady_run (hrun : Transition.Run (SteadyNext depth) initial s) :
    Accounted depth s ∧ Steady s := by
  induction hrun with
  | refl => exact ⟨accounted_initial, steady_initial⟩
  | tail _ hlast ih =>
      obtain ⟨label, hstep, _⟩ := id hlast
      exact ⟨ih.1.step hstep, ih.2.step ih.1 hlast⟩

/-! ## Protection -/

/-- A live call keeps its slot in use. -/
theorem Steady.in_use (hs : Steady s) (hbooks : Accounted depth s)
    (halive : (s.embeds task).pc.keepsLease = true) :
    (s.embeds task).lease = some (s.embeds task).slot ∧
      0 < (s.slots (s.embeds task).slot).leases := by
  obtain ⟨key, hlease⟩ := (hbooks.formed task).lease halive
  have hslot := hs.own task key hlease
  subst hslot
  refine ⟨hlease, ?_⟩
  have htask : task < s.started := by
    refine hbooks.lt_started ?_
    intro habsent
    simp [habsent, Pc.keepsLease, Pc.keepsPermit] at halive
  have hone : leaseOn (s.embeds task) (s.embeds task).slot = 1 := if_pos hlease
  have hle := le_tally (fun other => leaseOn (s.embeds other) (s.embeds task).slot) htask
  rw [hbooks.leases]
  unfold State.leasesOn
  omega

/-- What starts runs for a live call. -/
theorem starts_alive (hstep : Step depth (.starts key) s s') :
    ∃ task, (s.embeds task).slot = key ∧ (s.embeds task).pc.keepsLease = true := by
  generalize hlabel : Label.starts key = label at hstep
  cases hstep with
  | @startPreflight _ task h =>
      cases hlabel
      exact ⟨task, rfl, by rw [h]; rfl⟩
  | @infer _ task leader h hchecked =>
      cases hlabel
      exact ⟨task, rfl, by rw [h]; rfl⟩
  | _ => cases hlabel

/-- A preflight on the engine of the slot. -/
theorem starts_on (task : Nat) (h : (s.embeds task).pc = .preflighting)
    (hslot : (s.embeds task).slot = key) : Step depth (.starts key) s s :=
  hslot ▸ Step.startPreflight h

/-- The leases that are counted on a slot are those of the calls that use it. -/
theorem Steady.leases_on_eq (hs : Steady s) (key : ModelKey) : s.leasesOn key = s.usersOf key := by
  refine tally_congr fun task _ => ?_
  unfold leaseOn usesEngine
  cases hlease : (s.embeds task).lease with
  | none => simp
  | some key' => simp [hs.own task key' hlease]

/-- In every run in which each second look-up finds the slot of the first, the leases of calls
protect the engines that the calls use. -/
theorem lease_protects_engine (hrun : Transition.Run (SteadyNext depth) initial s) :
    Protected depth s := by
  obtain ⟨hbooks, hs⟩ := steady_run hrun
  constructor
  · intro task halive
    exact (hs.in_use hbooks halive).1
  · intro key hgone s' hstep
    obtain ⟨task, hslot, halive⟩ := starts_alive hstep
    have hlive := (hs.in_use hbooks halive).2
    rw [hslot, (hs.gone key hgone).2.2] at hlive
    exact Nat.lt_irrefl 0 hlive
  · intro key
    rw [hbooks.leases, hs.leases_on_eq]

end

/-- A preflight on the engine of a registered slot, under a lease of that slot. -/
theorem lease_protects_engine_preflight :
    ∃ s, Transition.Run (SteadyNext 1) initial s ∧ Protected 1 s ∧
      (s.embeds 0).pc = .preflighting ∧ (s.slots 0).leases = 1 := by
  have h : Transition.Run (SteadyNext 1) initial _ :=
    .single ⟨_, @Step.register 1 _ "m" rfl, by rintro _ _ ⟨⟩⟩
  replace h := h.tail ⟨_, Step.call "m", by rintro _ _ ⟨⟩⟩
  replace h := h.tail ⟨_, @Step.lookUp 1 _ 0 "m" 0 rfl rfl, by rintro _ _ ⟨⟩⟩
  replace h := h.tail ⟨_, @Step.accept 1 _ 0 "m" rfl rfl, by rintro _ _ ⟨⟩⟩
  replace h := h.tail ⟨_, @Step.lease 1 _ 0 "m" 0 rfl rfl rfl, by
    rintro _ _ ⟨⟩ ⟨⟩
    rfl⟩
  replace h := h.tail ⟨_, @Step.count 1 _ 0 rfl (by decide), by rintro _ _ ⟨⟩⟩
  replace h := h.tail ⟨_, @Step.countGlobal 1 _ 0 rfl, by rintro _ _ ⟨⟩⟩
  replace h := h.tail ⟨_, @Step.submit 1 _ 0 rfl (by decide), by rintro _ _ ⟨⟩⟩
  replace h := h.tail ⟨_, @Step.preflight 1 _ 0 _ rfl, by rintro _ _ ⟨⟩⟩
  exact ⟨_, h, lease_protects_engine h, rfl, rfl⟩

/-- A model is unloaded and registered again between the two look-ups of a call. The lease is
counted on the new slot, and a preflight starts on the engine of the unloaded one. -/
theorem preflight_on_unloaded_engine :
    ∃ s, Transition.Run (Next 1) initial s ∧ s.unloaded 0 = true ∧
      Step 1 (.starts 0) s s ∧
      ((s.embeds 0).pc.keepsLease = true ∧ (s.embeds 0).slot = 0 ∧
        (s.embeds 0).lease = some 1) ∧
      (s.slots 0).leases ≠ s.usersOf 0 + s.explicit 0 ∧ ¬ Protected 1 s := by
  have h : Transition.Run (Next 1) initial _ := .single ⟨_, @Step.register 1 _ "m" rfl⟩
  replace h := h.tail ⟨_, Step.call "m"⟩
  replace h := h.tail ⟨_, @Step.lookUp 1 _ 0 "m" 0 rfl rfl⟩
  replace h := h.tail ⟨_, @Step.accept 1 _ 0 "m" rfl rfl⟩
  replace h := h.tail ⟨_, @Step.unload 1 _ "m" 0 rfl rfl⟩
  replace h := h.tail ⟨_, @Step.register 1 _ "m" rfl⟩
  replace h := h.tail ⟨_, @Step.lease 1 _ 0 "m" 1 rfl rfl rfl⟩
  replace h := h.tail ⟨_, @Step.count 1 _ 0 rfl (by decide)⟩
  replace h := h.tail ⟨_, @Step.countGlobal 1 _ 0 rfl⟩
  replace h := h.tail ⟨_, @Step.submit 1 _ 0 rfl (by decide)⟩
  replace h := h.tail ⟨_, @Step.preflight 1 _ 0 _ rfl⟩
  refine ⟨_, h, rfl, starts_on 0 rfl rfl, ⟨rfl, rfl, rfl⟩, by decide, ?_⟩
  intro hprotected
  cases hprotected.own 0 rfl

end EmbeddingServer.Requests
