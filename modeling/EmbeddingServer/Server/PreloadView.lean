import EmbeddingServer.Server.Preload
import Mathlib.Data.List.Nodup

/-!
# What a lifecycle call leaves undone

Until the runtime drains, the set `loaded` and the gate differ from the registry only by what the
holder of the lifecycle lock is doing: `CallPc.view` reads the difference off the program point,
and `View.Holds` says that the shared state differs in this way and no other. The slots that a
strict preload has published are gated and not leased, so that its rollback finds nothing in its
way.

Each operation of the holder takes one view to the next.
-/

namespace EmbeddingServer.Preload

/-! ## Views -/

/-- How the gate and the set `loaded` differ from the registry. -/
structure View where
  /-- The models in the gate. -/
  gated : List String := []
  /-- The models that were loaded and are not yet shown. -/
  own : List String := []
  /-- Registered and not recorded. -/
  extra : List String := []
  /-- Recorded and no longer registered. -/
  missing : List String := []
  /-- Loaded before, and still to be visited. -/
  ready : List String := []

/-- The difference that a preload makes at the head of its loop. -/
def Frame.view (frame : Frame) : View where
  gated := frame.gated
  own := frame.newlyLoaded
  ready := frame.rest.filter fun id => !frame.gated.contains id

/-- The difference that a call makes at a program point. -/
def CallPc.view (models : List String) (kind : Kind) : CallPc → View
  | .load .published | .load .retracting =>
      match kind with
      | .load id => { extra := [id] }
      | _ => {}
  | .unloaded =>
      match kind with
      | .unload id => { missing := [id] }
      | _ => {}
  | .beginning gated => { ready := models.filter fun id => !gated.contains id }
  | .looping frame => frame.view
  | .inside frame id .published | .inside frame id .retracting =>
      { frame.view with own := frame.newlyLoaded ++ [id], extra := [id] }
  | .inside frame id _ => Frame.view { frame with rest := id :: frame.rest }
  | .rolling frame remaining _ =>
      { gated := frame.gated
        own := remaining
        missing := frame.newlyLoaded.filter fun id => !remaining.contains id }
  | .unrecording frame _ => { gated := frame.gated, missing := frame.newlyLoaded }
  | .ungating gated _ => { gated := gated }
  | _ => {}

/-- Some of the writes of the call are done, and others are not. -/
def CallPc.midway : CallPc → Bool
  | .load .published | .load .retracting | .unloaded | .looping _ | .inside _ _ _ | .rolling _ _ _
  | .unrecording _ _ | .ungating _ _ => true
  | _ => false

/-- The shared state is as the view says. -/
structure View.Holds (view : View) (task : Nat) (s : Shared) : Prop where
  gated : ∀ id, s.preloadPending id = true ↔ id ∈ view.gated
  loaded : ∀ id, s.loaded id = true ↔
    ((s.models id).isSome ∧ id ∉ view.extra) ∨ id ∈ view.missing
  extra : ∀ id ∈ view.extra, (s.models id).isSome
  missing : ∀ id ∈ view.missing, s.models id = none
  own : ∀ id ∈ view.own, id ∈ view.gated ∧ ∃ key, s.models id = some key ∧ s.leases key = 0
  nodup : view.own.Nodup
  ready : ∀ id ∈ view.ready, s.loaded id = true
  /-- What this call published and did not show is in the view. -/
  whole : ∀ id key, s.models id = some key → s.origin key = some task →
    s.committed task = true ∨ id ∈ view.own

/-- What was registered when the call took the lock is still there. -/
def View.Keeps (view : View) (task : Nat) (s : Shared) : Prop :=
  ∀ id key, s.entry task id = some key → s.models id = some key ∧ id ∉ view.own

/-- The gate is open, and the set `loaded` agrees with the registry. -/
structure Shared.Settled (s : Shared) : Prop where
  opened : ∀ id, s.preloadPending id = false
  agrees : ∀ id, s.loaded id = true ↔ (s.models id).isSome

/-- A call that is not midway has left no differences. -/
theorem View.Holds.settled {models : List String} {kind : Kind} {pc : CallPc} {task : Nat}
    {s : Shared} (h : (pc.view models kind).Holds task s) (hpc : pc.midway = false) :
    s.Settled := by
  have hview : (pc.view models kind).gated = [] ∧ (pc.view models kind).extra = [] ∧
      (pc.view models kind).missing = [] := by
    cases pc with
    | load inner =>
        cases inner with
        | entered | loading => exact ⟨rfl, rfl, rfl⟩
        | published | retracting => cases hpc
    | unloaded | looping | inside | rolling | unrecording | ungating => cases hpc
    | called | waiting | locked | beginning | committed | leaving | ended => exact ⟨rfl, rfl, rfl⟩
  obtain ⟨hgated, hextra, hmissing⟩ := hview
  constructor
  · intro id
    have hopen := h.gated id
    simpa [hgated] using hopen
  · intro id
    have hloaded := h.loaded id
    simpa [hextra, hmissing] using hloaded

/-- Where everything agrees and is shown, a call sees no differences. -/
theorem Shared.Settled.holds {task : Nat} {s : Shared} (h : s.Settled)
    (hshown : ∀ id key owner, s.models id = some key → s.origin key = some owner →
      s.committed owner = true) : View.Holds {} task s where
  gated id := by simp [h.opened id]
  loaded id := by simp [h.agrees id]
  extra _ hid := by cases hid
  missing _ hid := by cases hid
  own _ hid := by cases hid
  nodup := List.nodup_nil
  ready _ hid := by cases hid
  whole id key hmodel howner := .inl (hshown id key task hmodel howner)

/-- The keys of the registry are distinct and below the counter, and no other is leased. -/
structure Shared.Keyed (s : Shared) : Prop where
  below : ∀ id key, s.models id = some key → key < s.nextKey
  distinct : ∀ id id' key, s.models id = some key → s.models id' = some key → id = id'
  unleased : ∀ key, s.nextKey ≤ key → s.leases key = 0

/-! ## Operations of the holder -/

section

variable {s : Shared} {task : Nat} {view : View} {id : String}

theorem Shared.Keyed.publish (h : s.Keyed) (id : String) (preload : Option Nat) :
    (s.publish id preload).Keyed := by
  obtain ⟨hbelow, hdistinct, hunleased⟩ := h
  constructor <;> simp only [Shared.publish, Function.update_apply]
  all_goals grind

/-- Withdrawing a slot from the registry. -/
def Shared.withdraw (s : Shared) (id : String) (key : ModelKey) : Shared :=
  { s with
    models := Function.update s.models id none
    accepting := Function.update s.accepting key false }

/-- An unload changes nothing, or it withdraws a slot without leases. -/
theorem Shared.unload_cases (s : Shared) (id : String) :
    ((s.unload id).1 = false ∧ (s.unload id).2 = s ∧
      (s.draining = true ∨ ∀ key, s.models id = some key → s.leases key ≠ 0)) ∨
    ∃ key, (s.unload id).1 = true ∧ s.models id = some key ∧ s.leases key = 0 ∧
      (s.unload id).2 = s.withdraw id key := by
  unfold Shared.unload Shared.withdraw
  by_cases hdraining : s.draining = true
  · simp [hdraining]
  · cases hmodel : s.models id with
    | none => simp [hdraining]
    | some key =>
        by_cases hleases : s.leases key = 0
        · exact .inr ⟨key, by simp [hdraining, hleases]⟩
        · exact .inl (by simp [hdraining, hleases])

/-- The other slots stay registered. -/
theorem Shared.withdraw_models {key : ModelKey} {other : String} {found : ModelKey}
    (h : (s.withdraw id key).models other = some found) :
    other ≠ id ∧ s.models other = some found := by
  by_cases heq : other = id
  · simp [Shared.withdraw, heq] at h
  · exact ⟨heq, by simpa [Shared.withdraw, heq] using h⟩

theorem Shared.Keyed.withdraw (h : s.Keyed) (id : String) (key : ModelKey) :
    (s.withdraw id key).Keyed where
  below other found hmodel := h.below other found (Shared.withdraw_models hmodel).2
  distinct other other' found hmodel hmodel' :=
    h.distinct other other' found (Shared.withdraw_models hmodel).2
      (Shared.withdraw_models hmodel').2
  unleased := h.unleased

/-- The models that are still to be visited are loaded; how many there are does not matter. -/
theorem View.Holds.visit (h : view.Holds task s) {ready : List String}
    (hready : ∀ id ∈ ready, id ∈ view.ready) : View.Holds { view with ready := ready } task s :=
  { h with ready := fun id hid => h.ready id (hready id hid) }

/-- Gating the models that are not loaded. -/
theorem View.Holds.gate {gated ready : List String}
    (h : View.Holds { ready := ready } task s) :
    View.Holds { gated := gated, ready := ready } task (s.gate gated) := by
  obtain ⟨hgated, hloaded, hextra, hmissing, hown, hnodup, hready, hwhole⟩ := h
  refine ⟨?_, hloaded, hextra, hmissing, ?_, hnodup, hready, hwhole⟩
  · intro id
    have hopen := hgated id
    simp only [List.not_mem_nil, iff_false] at hopen
    simp [Shared.gate, hopen]
  · intro id hid
    cases hid

/-- Publishing a slot for the call. -/
theorem View.Holds.publish (h : view.Holds task s) (hkeyed : s.Keyed)
    (hmodel : s.models id = none) (hextra : view.extra = []) (hmissing : view.missing = [])
    {own : List String} {preload : Option Nat}
    (hown : preload = none ∧ own = view.own ∨
      preload = some task ∧ own = view.own ++ [id] ∧ id ∈ view.gated) :
    View.Holds { view with own := own, extra := [id] } task (s.publish id preload) := by
  obtain ⟨hgated, hloaded, _, hmissing', hown', hnodup, hready, hwhole⟩ := h
  obtain ⟨hbelow, hdistinct, hunleased⟩ := hkeyed
  -- A slot of the call is registered, so its model is not the new one.
  have hfresh : ∀ other ∈ view.own, other ≠ id := by
    intro other hother heq
    obtain ⟨_, key, hkey, _⟩ := hown' other hother
    rw [heq, hmodel] at hkey
    cases hkey
  constructor <;> simp only [Shared.publish, Function.update_apply, hextra, hmissing] at *
  all_goals grind

/-- Recording the published slot. -/
theorem View.Holds.record (h : view.Holds task s) (hextra : view.extra = [id]) :
    View.Holds { view with extra := [] } task (s.insertLoaded id) := by
  obtain ⟨hgated, hloaded, hextra', hmissing, hown, hnodup, hready, hwhole⟩ := h
  have hmodel := hextra' id (by rw [hextra]; exact List.mem_singleton_self id)
  constructor <;> simp only [Shared.insertLoaded, Function.update_apply, hextra] at *
  all_goals grind

/-- Taking the published slot back. -/
theorem View.Holds.retract {own : List String} {key : ModelKey} (h : view.Holds task s)
    (hkeyed : s.Keyed) (hextra : view.extra = [id]) (hmissing : view.missing = [])
    (hown : view.own = own ++ [id] ∨ view.own = [] ∧ own = []) :
    View.Holds { view with own := own, extra := [] } task (s.withdraw id key) := by
  obtain ⟨hgated, hloaded, _, _, hown', hnodup, hready, hwhole⟩ := h
  obtain ⟨hbelow, hdistinct, hunleased⟩ := hkeyed
  constructor <;> simp only [Shared.withdraw, Function.update_apply, hextra, hmissing] at *
  all_goals grind

/-- Unloading a model that the view lets go. -/
theorem View.Holds.unload {missing remaining : List String} {key : ModelKey}
    (h : view.Holds task s) (hkeyed : s.Keyed) (hmodel : s.models id = some key)
    (hextra : view.extra = []) (hready : view.ready = [])
    (hown : view.own = id :: remaining ∨ view.own = [] ∧ remaining = [])
    (hmissing : ∀ other, other ∈ missing ↔ other ∈ view.missing ∨ other = id) :
    View.Holds { view with own := remaining, missing := missing } task (s.withdraw id key) := by
  obtain ⟨hgated, hloaded, _, hmissing', hown', hnodup, _, hwhole⟩ := h
  obtain ⟨hbelow, hdistinct, hunleased⟩ := hkeyed
  constructor <;> simp only [Shared.withdraw, Function.update_apply, hextra, hready] at *
  all_goals grind

/-- Removing what is no longer registered from the set. -/
theorem View.Holds.unrecord {missing : List String} (h : view.Holds task s)
    (hmissing : view.missing = missing) (hextra : view.extra = []) (hready : view.ready = []) :
    View.Holds { view with missing := [] } task (s.removeLoaded missing) := by
  obtain ⟨hgated, hloaded, _, hmissing', hown, hnodup, _, hwhole⟩ := h
  constructor <;> simp only [Shared.removeLoaded, hextra, hready, hmissing] at *
  all_goals grind

/-- Opening the gate when nothing is hidden behind it. -/
theorem View.Holds.ungate {gated : List String} (h : View.Holds { gated := gated } task s) :
    View.Holds {} task (s.ungate gated) := by
  obtain ⟨hgated, hloaded, hextra, hmissing, hown, hnodup, hready, hwhole⟩ := h
  constructor <;> simp only [Shared.ungate] at *
  all_goals grind

/-- Opening the gate and showing what was loaded. -/
theorem View.Holds.commit {gated own : List String}
    (h : View.Holds { gated := gated, own := own } task s) :
    View.Holds {} task
      { s.ungate gated with committed := Function.update s.committed task true } := by
  obtain ⟨hgated, hloaded, hextra, hmissing, hown, hnodup, hready, hwhole⟩ := h
  constructor <;> simp only [Shared.ungate, Function.update_apply] at *
  all_goals grind

/-- The order in which the slots are given back does not matter. -/
theorem View.Holds.roll_back {frame : Frame} (h : frame.view.Holds task s) :
    View.Holds
      { gated := frame.gated
        own := frame.newlyLoaded.reverse
        missing := frame.newlyLoaded.filter fun id => !frame.newlyLoaded.reverse.contains id }
      task s := by
  have hnone :
      (frame.newlyLoaded.filter fun id => !frame.newlyLoaded.reverse.contains id) = [] := by
    simp [List.filter_eq_nil_iff]
  obtain ⟨hgated, hloaded, hextra, hmissing, hown, hnodup, _, hwhole⟩ := h
  rw [hnone]
  refine ⟨hgated, hloaded, hextra, hmissing, ?_, List.nodup_reverse.mpr hnodup,
    fun id hid => (by cases hid), ?_⟩
  · intro id hid
    exact hown id (List.mem_reverse.mp hid)
  · intro id key hmodel howner
    exact (hwhole id key hmodel howner).imp_right List.mem_reverse.mpr

end

end EmbeddingServer.Preload
