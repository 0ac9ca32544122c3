import EmbeddingServer.Core.Control

/-!
# The law of composite controls

A composite control is meant to be its leaves: active while one leaf is, cancelled if one leaf is
cancelled, and expired if all leaves are only expired. `ensureActive` reads the class of its error
from the tokens of the members, and the token of a member that is itself a composite counts as
cancelled as soon as all of its members are inactive, expired ones included. So the law fails for
a composite of composites whose leaves have all expired (`nested_expired_cancelled`), and only
there (`composite_law_iff`).
-/

namespace EmbeddingServer

/-! ## Leaves -/

/-- A leaf control: its token and its deadline. -/
structure LeafControl where
  cancellation : CancellationToken
  deadline : Option Instant

/-- The token of the leaf is cancelled. -/
def LeafControl.cancelled (moment : Moment) (leaf : LeafControl) : Bool :=
  leaf.cancellation.isCancelled moment

/-- The leaf is neither cancelled nor expired. -/
def LeafControl.active (moment : Moment) (leaf : LeafControl) : Bool :=
  !leaf.cancelled moment && !deadlinePassed moment leaf.deadline

mutual
/-- The leaves of a control, from left to right. -/
def ExecutionControl.leaves : ExecutionControl → List LeafControl
  | .leaf cancellation deadline => [⟨cancellation, deadline⟩]
  | .composite constituents => leavesOf constituents

/-- The leaves of a list of controls. -/
def leavesOf : List ExecutionControl → List LeafControl
  | [] => []
  | control :: rest => control.leaves ++ leavesOf rest
end

/-- The control is a composite. -/
def ExecutionControl.isComposite : ExecutionControl → Bool
  | .leaf _ _ => false
  | .composite _ => true

/-- No member of the control is a composite. -/
def ExecutionControl.flat : ExecutionControl → Bool
  | .leaf _ _ => true
  | .composite constituents => constituents.all fun control => !control.isComposite

/-! ## What the members say -/

mutual
/-- A control is inactive when all of its leaves are. -/
theorem ensure_active_ne_ok (moment : Moment) (control : ExecutionControl) :
    control.ensureActive moment ≠ .ok () ↔
      ∀ leaf ∈ control.leaves, leaf.active moment = false := by
  cases control with
  | leaf cancellation deadline =>
      by_cases hcancelled : cancellation.isCancelled moment = true
      · simp [ExecutionControl.ensureActive, ExecutionControl.leaves, LeafControl.active,
          LeafControl.cancelled, hcancelled]
      · by_cases hdeadline : deadlinePassed moment deadline = true
        · simp [ExecutionControl.ensureActive, ExecutionControl.leaves, LeafControl.active,
            hcancelled, hdeadline]
        · simp [ExecutionControl.ensureActive, ExecutionControl.leaves, LeafControl.active,
            LeafControl.cancelled, hcancelled, hdeadline]
  | composite constituents =>
      rw [ExecutionControl.leaves, ← all_inactive_iff moment constituents,
        ExecutionControl.ensureActive]
      by_cases hinactive : allInactive moment constituents = true
      · by_cases hcancelled : anyControlCancelled moment constituents = true
        · simp [hinactive, hcancelled]
        · simp [hinactive, hcancelled]
      · simp [hinactive]

/-- All controls of a list are inactive when all of their leaves are. -/
theorem all_inactive_iff (moment : Moment) (controls : List ExecutionControl) :
    allInactive moment controls = true ↔
      ∀ leaf ∈ leavesOf controls, leaf.active moment = false := by
  cases controls with
  | nil => simp [allInactive, leavesOf]
  | cons control rest =>
      have hhead := ensure_active_ne_ok moment control
      have hrest := all_inactive_iff moment rest
      rw [allInactive, leavesOf, Bool.and_eq_true, hrest]
      cases hcontrol : control.ensureActive moment with
      | ok _ =>
          have hactive : ¬ ∀ leaf ∈ control.leaves, leaf.active moment = false := by
            rw [← hhead, hcontrol]
            exact fun hne => hne rfl
          constructor
          · intro hall
            cases hall.1
          · intro hall
            exact absurd (fun leaf hleaf => hall leaf (List.mem_append_left _ hleaf)) hactive
      | error error =>
          have hinactive : ∀ leaf ∈ control.leaves, leaf.active moment = false := by
            rw [← hhead, hcontrol]
            exact fun heq => by cases heq
          constructor
          · intro hall leaf hleaf
            cases List.mem_append.mp hleaf with
            | inl hmem => exact hinactive leaf hmem
            | inr hmem => exact hall.2 leaf hmem
          · intro hall
            exact ⟨rfl, fun leaf hleaf => hall leaf (List.mem_append_right _ hleaf)⟩
end

/-- A cancelled token among the members: that of a cancelled leaf, or that of a composite. -/
theorem any_control_cancelled_iff (moment : Moment) {controls : List ExecutionControl}
    (h : allInactive moment controls = true) :
    anyControlCancelled moment controls = true ↔
      (∃ control ∈ controls, control.isComposite = true) ∨
        ∃ leaf ∈ leavesOf controls, leaf.cancelled moment = true := by
  induction controls with
  | nil => simp [anyControlCancelled, leavesOf]
  | cons control rest ih =>
      rw [allInactive, Bool.and_eq_true] at h
      cases control with
      | leaf cancellation deadline =>
          rw [anyControlCancelled, Bool.or_eq_true, ih h.2, leavesOf, ExecutionControl.leaves]
          simp only [List.mem_cons, List.singleton_append, exists_eq_or_imp,
            ExecutionControl.isComposite, Bool.false_eq_true, false_or, LeafControl.cancelled]
          exact or_left_comm
      | composite constituents =>
          -- The token of an inactive composite is cancelled, whatever its leaves are.
          have hmembers : allInactive moment constituents = true := by
            rw [all_inactive_iff, ← ExecutionControl.leaves, ← ensure_active_ne_ok]
            intro hok
            rw [hok] at h
            cases h.1
          rw [anyControlCancelled, hmembers, Bool.true_or]
          exact ⟨fun _ => .inl ⟨_, List.mem_cons_self, rfl⟩, fun _ => rfl⟩

/-! ## The law -/

/-- What a control says about its leaves. -/
structure CompositeLaw (moment : Moment) (control : ExecutionControl) : Prop where
  active : control.ensureActive moment = .ok () ↔ ∃ leaf ∈ control.leaves, leaf.active moment = true
  cancelled : (∀ leaf ∈ control.leaves, leaf.active moment = false) →
    (control.ensureActive moment = .error (.public .cancelled) ↔
      ∃ leaf ∈ control.leaves, leaf.cancelled moment = true)
  expired : (∀ leaf ∈ control.leaves, leaf.active moment = false) →
    (control.ensureActive moment = .error (.public .deadlineExceeded) ↔
      ∀ leaf ∈ control.leaves, leaf.cancelled moment = false ∧
        deadlinePassed moment leaf.deadline = true)

/-- The control is not a composite of composites, or one of its leaves is more than expired. -/
def ExecutionControl.lawful (moment : Moment) (control : ExecutionControl) : Bool :=
  control.flat || control.leaves.any fun leaf => leaf.active moment || leaf.cancelled moment

/-- What the leaves are worth together. -/
def leavesLaw (moment : Moment) (leaves : List LeafControl) : Except EngineFailure Unit :=
  if leaves.any (LeafControl.active moment) then .ok ()
  else if leaves.any (LeafControl.cancelled moment) then .error (.public .cancelled)
  else .error (.public .deadlineExceeded)

/-- The order of the leaves does not matter. -/
theorem leaves_law_perm (moment : Moment) {left right : List LeafControl} (h : left.Perm right) :
    leavesLaw moment left = leavesLaw moment right := by
  rw [leavesLaw, leavesLaw, h.any_eq, h.any_eq]

/-- The law determines the result. -/
theorem composite_law_eq (moment : Moment) (control : ExecutionControl) :
    CompositeLaw moment control ↔ control.ensureActive moment =
      leavesLaw moment control.leaves := by
  have hok := ensure_active_ne_ok moment control
  by_cases hactive : ∃ leaf ∈ control.leaves, leaf.active moment = true
  · have hresult : control.ensureActive moment = .ok () := by
      by_contra hne
      obtain ⟨leaf, hleaf, htrue⟩ := hactive
      rw [hok.mp hne leaf hleaf] at htrue
      cases htrue
    have hnone : ¬ ∀ leaf ∈ control.leaves, leaf.active moment = false := by
      intro hall
      exact hok.mpr hall hresult
    have hlaw : leavesLaw moment control.leaves = .ok () := by
      rw [leavesLaw, if_pos (List.any_eq_true.mpr hactive)]
    rw [hresult, hlaw]
    exact ⟨fun _ => rfl, fun _ => ⟨⟨fun _ => hactive, fun _ => hresult⟩,
      fun hall => absurd hall hnone, fun hall => absurd hall hnone⟩⟩
  · have hall : ∀ leaf ∈ control.leaves, leaf.active moment = false := by
      intro leaf hleaf
      rw [Bool.eq_false_iff]
      exact fun htrue => hactive ⟨leaf, hleaf, htrue⟩
    have hnone : control.leaves.any (LeafControl.active moment) = false := by
      rw [Bool.eq_false_iff]
      exact fun hany => hactive (List.any_eq_true.mp hany)
    have hresult : control.ensureActive moment ≠ .ok () := hok.mpr hall
    by_cases hcancelled : ∃ leaf ∈ control.leaves, leaf.cancelled moment = true
    · have hlaw : leavesLaw moment control.leaves = .error (.public .cancelled) := by
        rw [leavesLaw, hnone, if_neg Bool.false_ne_true, if_pos (List.any_eq_true.mpr hcancelled)]
      rw [hlaw]
      constructor
      · exact fun law => (law.cancelled hall).mpr hcancelled
      · intro heq
        refine ⟨⟨fun h => absurd h hresult, fun h => absurd h hactive⟩,
          fun _ => ⟨fun _ => hcancelled, fun _ => heq⟩, fun _ => ⟨fun h => ?_, fun h => ?_⟩⟩
        · rw [heq] at h
          cases h
        · obtain ⟨leaf, hleaf, htrue⟩ := hcancelled
          rw [(h leaf hleaf).1] at htrue
          cases htrue
    · have hfalse : control.leaves.any (LeafControl.cancelled moment) = false := by
        rw [Bool.eq_false_iff]
        exact fun hany => hcancelled (List.any_eq_true.mp hany)
      have hlaw : leavesLaw moment control.leaves = .error (.public .deadlineExceeded) := by
        rw [leavesLaw, hnone, hfalse]
        rfl
      -- An inactive leaf that is not cancelled has expired.
      have hexpired : ∀ leaf ∈ control.leaves, leaf.cancelled moment = false ∧
          deadlinePassed moment leaf.deadline = true := by
        intro leaf hleaf
        have hnot : leaf.cancelled moment = false := by
          rw [Bool.eq_false_iff]
          exact fun htrue => hcancelled ⟨leaf, hleaf, htrue⟩
        have hinactive := hall leaf hleaf
        rw [LeafControl.active, hnot] at hinactive
        exact ⟨hnot, by simpa using hinactive⟩
      rw [hlaw]
      constructor
      · exact fun law => (law.expired hall).mpr hexpired
      · intro heq
        refine ⟨⟨fun h => absurd h hresult, fun h => absurd h hactive⟩,
          fun _ => ⟨fun h => ?_, fun h => absurd h hcancelled⟩, fun _ =>
            ⟨fun _ => hexpired, fun _ => heq⟩⟩
        rw [heq] at h
        cases h

/-- The result is the law's exactly when the control is lawful. -/
theorem ensure_active_law (moment : Moment) (control : ExecutionControl) :
    control.ensureActive moment = leavesLaw moment control.leaves ↔
      control.lawful moment = true := by
  cases control with
  | leaf cancellation deadline =>
      have hlawful : (ExecutionControl.leaf cancellation deadline).lawful moment = true := rfl
      rw [hlawful]
      refine ⟨fun _ => rfl, fun _ => ?_⟩
      cases hcancelled : cancellation.isCancelled moment <;>
        cases hdeadline : deadlinePassed moment deadline <;>
        simp [ExecutionControl.ensureActive, ExecutionControl.leaves, leavesLaw,
          LeafControl.active, LeafControl.cancelled, hcancelled, hdeadline]
  | composite constituents =>
      rw [ExecutionControl.leaves, ExecutionControl.ensureActive]
      by_cases hinactive : allInactive moment constituents = true
      · have hall := (all_inactive_iff moment constituents).mp hinactive
        have hnone : (leavesOf constituents).any (LeafControl.active moment) = false := by
          rw [List.any_eq_false]
          exact fun leaf hleaf htrue => by rw [hall leaf hleaf] at htrue; cases htrue
        have hcomposite : constituents.all (fun control => !control.isComposite) = false ↔
            ∃ control ∈ constituents, control.isComposite = true := by
          simp [List.all_eq_false]
        have hleaf : ((leavesOf constituents).any fun leaf =>
            leaf.active moment || leaf.cancelled moment) =
            (leavesOf constituents).any (LeafControl.cancelled moment) := by
          rw [Bool.eq_iff_iff, List.any_eq_true, List.any_eq_true]
          refine exists_congr fun leaf => and_congr_right fun hmem => ?_
          rw [hall leaf hmem, Bool.false_or]
        have hany := any_control_cancelled_iff moment hinactive
        rw [ExecutionControl.lawful, ExecutionControl.flat, ExecutionControl.leaves,
          hleaf, leavesLaw, hnone, hinactive]
        -- All leaves are inactive: only the class of the failure is in question.
        cases hcancelled : (leavesOf constituents).any (LeafControl.cancelled moment) with
        | true =>
            rw [hany.mpr (.inr (List.any_eq_true.mp hcancelled))]
            simp
        | false =>
            have hleaves : ¬ ∃ leaf ∈ leavesOf constituents, leaf.cancelled moment = true := by
              rw [← List.any_eq_true, hcancelled]
              exact Bool.false_ne_true
            cases hflat : constituents.all (fun control => !control.isComposite) with
            | true =>
                have hnot : anyControlCancelled moment constituents = false := by
                  rw [Bool.eq_false_iff, Ne, hany]
                  rintro (hmember | hleaf)
                  · rw [← hcomposite, hflat] at hmember
                    cases hmember
                  · exact hleaves hleaf
                rw [hnot]
                simp
            | false =>
                -- A composite member counts as cancelled although no leaf is: the law is broken.
                rw [hany.mpr (.inl (hcomposite.mp hflat))]
                simp [EngineFailure.public, PublicError.forCode]
      -- An active leaf keeps the control active.
      · have hsome : (leavesOf constituents).any (LeafControl.active moment) = true := by
          by_contra hnone
          refine hinactive ((all_inactive_iff moment constituents).mpr fun leaf hleaf => ?_)
          rw [Bool.eq_false_iff]
          exact fun htrue => hnone (List.any_eq_true.mpr ⟨leaf, hleaf, htrue⟩)
        obtain ⟨leaf, hleaf, htrue⟩ := List.any_eq_true.mp hsome
        have hlawful : (ExecutionControl.composite constituents).lawful moment = true := by
          rw [ExecutionControl.lawful, Bool.or_eq_true]
          exact .inr (List.any_eq_true.mpr ⟨leaf, hleaf, by rw [htrue, Bool.true_or]⟩)
        rw [hlawful, leavesLaw, hsome]
        simp [hinactive]

/-- A check has three results. -/
theorem ensure_active_cases (moment : Moment) (control : ExecutionControl) :
    control.ensureActive moment = .ok () ∨
      control.ensureActive moment = .error (.public .cancelled) ∨
      control.ensureActive moment = .error (.public .deadlineExceeded) := by
  cases control with
  | leaf cancellation deadline =>
      rw [ExecutionControl.ensureActive]
      split
      · exact .inr (.inl rfl)
      · split
        · exact .inr (.inr rfl)
        · exact .inl rfl
  | composite constituents =>
      rw [ExecutionControl.ensureActive]
      split
      · exact .inl rfl
      · split
        · exact .inr (.inl rfl)
        · exact .inr (.inr rfl)

/-- A control that is not lawful passes for cancelled, although its leaves have only expired. -/
theorem unlawful_cancelled {moment : Moment} {control : ExecutionControl}
    (h : control.lawful moment = false) :
    control.ensureActive moment = .error (.public .cancelled) ∧
      leavesLaw moment control.leaves = .error (.public .deadlineExceeded) := by
  rw [ExecutionControl.lawful, Bool.or_eq_false_iff, List.any_eq_false] at h
  have hactive : ∀ leaf ∈ control.leaves, leaf.active moment = false := by
    intro leaf hleaf
    have hnot := h.2 leaf hleaf
    rw [Bool.or_eq_true, not_or] at hnot
    exact Bool.eq_false_iff.mpr hnot.1
  have hcancelled : ∀ leaf ∈ control.leaves, ¬ leaf.cancelled moment = true := by
    intro leaf hleaf
    have hnot := h.2 leaf hleaf
    rw [Bool.or_eq_true, not_or] at hnot
    exact hnot.2
  have hlaw : leavesLaw moment control.leaves = .error (.public .deadlineExceeded) := by
    rw [leavesLaw, if_neg, if_neg]
    · rw [List.any_eq_true]
      rintro ⟨leaf, hleaf, htrue⟩
      exact hcancelled leaf hleaf htrue
    · rw [List.any_eq_true]
      rintro ⟨leaf, hleaf, htrue⟩
      rw [hactive leaf hleaf] at htrue
      cases htrue
  refine ⟨?_, hlaw⟩
  have hunlawful : control.ensureActive moment ≠ leavesLaw moment control.leaves := by
    rw [Ne, ensure_active_law, ExecutionControl.lawful, Bool.or_eq_true, List.any_eq_true]
    rintro (hflat | ⟨leaf, hleaf, htrue⟩)
    · rw [h.1] at hflat
      cases hflat
    · exact h.2 leaf hleaf htrue
  obtain hok | hresult | hresult := ensure_active_cases moment control
  · exact absurd hok ((ensure_active_ne_ok moment control).mpr hactive)
  · exact hresult
  · rw [hlaw] at hunlawful
    exact absurd hresult hunlawful

/-- A nested composite control obeys the law exactly when it is not a composite of composites, or
one of its leaves is active or cancelled; and two controls with the same leaves agree exactly when
they are both lawful or both not. -/
theorem composite_law_iff (moment : Moment) :
    (∀ control : ExecutionControl,
      CompositeLaw moment control ↔ control.lawful moment = true) ∧
    ∀ left right : ExecutionControl, left.leaves.Perm right.leaves →
      (left.ensureActive moment = right.ensureActive moment ↔
        left.lawful moment = right.lawful moment) := by
  have hlaw : ∀ control : ExecutionControl,
      CompositeLaw moment control ↔ control.lawful moment = true :=
    fun control => (composite_law_eq moment control).trans (ensure_active_law moment control)
  refine ⟨hlaw, fun left right hperm => ?_⟩
  have hleaves := leaves_law_perm moment hperm
  cases hleft : left.lawful moment with
  | true =>
      rw [(ensure_active_law moment left).mpr hleft, hleaves]
      cases hright : right.lawful moment with
      | true =>
          rw [(ensure_active_law moment right).mpr hright]
          exact ⟨fun _ => rfl, fun _ => rfl⟩
      | false =>
          obtain ⟨hresult, hexpired⟩ := unlawful_cancelled hright
          rw [hresult, hexpired]
          exact ⟨fun heq => (by cases heq), fun heq => (by cases heq)⟩
  | false =>
      obtain ⟨hresult, hexpired⟩ := unlawful_cancelled hleft
      rw [hresult]
      cases hright : right.lawful moment with
      | true =>
          rw [(ensure_active_law moment right).mpr hright, ← hleaves, hexpired]
          exact ⟨fun heq => (by cases heq), fun heq => (by cases heq)⟩
      | false =>
          rw [(unlawful_cancelled hright).1]
          exact ⟨fun _ => rfl, fun _ => rfl⟩

/-- A composite of one composite, whose only leaf has expired, says that it was cancelled; the
inner composite alone says that it has expired. -/
theorem nested_expired_cancelled :
    ¬ CompositeLaw ⟨1, fun _ => false⟩
      (.composite [.composite [.leaf (.single 0) (some 0)]]) := by
  intro hlaw
  have hexpired := (hlaw.expired (by decide)).mpr (by decide)
  revert hexpired
  decide

end EmbeddingServer
