import EmbeddingServer.Lib.Transition
import Mathlib.Data.List.Basic

/-!
# Cascades of marks

A node is marked once. Marking it notifies some nodes, and a notified node that is ready is marked
in turn, depth first. Notification may come back to nodes that are marked already and may reach a
node on several ways; what bounds a cascade is the number of nodes that are not yet marked
(`cascade_total`).

`cascade_run` reduces what a cascade does to the marks it makes, one at a time, and
`cascade_settles` is about nodes that should have been marked: if marking a node upsets only nodes
that it notifies, a cascade leaves nothing upset that was not upset before.
-/

namespace Cascade

variable {σ Node : Type}

/-- A state with marked nodes. `notified` are the nodes that hear of the mark of a node, and
`ready` tells whether a node that hears of a mark is to be marked. -/
structure System (σ Node : Type) where
  marked : σ → Node → Bool
  mark : σ → Node → σ
  notified : σ → Node → List Node
  ready : σ → Node → Bool

variable (sys : System σ Node)

/-- A node hears of a mark; `next` marks it. -/
def notify (next : σ → Node → Option σ) (s : σ) (node : Node) : Option σ :=
  if sys.ready s node then next s node else some s

/-- Mark a node, and what becomes ready by it. The fuel bounds the depth. -/
def cascade : Nat → σ → Node → Option σ
  | 0, _, _ => none
  | fuel + 1, s, node =>
      if sys.marked s node then some s
      else (sys.notified s node).foldlM (notify sys (cascade fuel)) (sys.mark s node)

/-- A predicate of states that every mark of a node in the range keeps, where notification stays
in the range. -/
structure Kept (Inv : σ → Prop) (Within : Node → Prop) : Prop where
  mark : ∀ {s node}, Inv s → Within node → sys.marked s node = false → Inv (sys.mark s node)
  within : ∀ {s node other}, Inv s → Within node → other ∈ sys.notified s node → Within other

/-- One mark of a node in the range, for a reason. -/
def Marks (Within : Node → Prop) (Reason : σ → Node → Prop) (s s' : σ) : Prop :=
  ∃ node, Within node ∧ sys.marked s node = false ∧ Reason s node ∧ s' = sys.mark s node

variable {sys}
variable {Inv : σ → Prop} {Within : Node → Prop} {Reason : σ → Node → Prop}

/-- A cascade is a sequence of marks, each for a reason. -/
theorem cascade_run (hkept : Kept sys Inv Within)
    (hready : ∀ {s node}, Inv s → sys.ready s node = true → Reason s node)
    {fuel : Nat} {s s' : σ} {node : Node} (hinv : Inv s) (hwithin : Within node)
    (hreason : Reason s node) (h : cascade sys fuel s node = some s') :
    Inv s' ∧ Transition.Run (Marks sys Within Reason) s s' := by
  induction fuel generalizing s s' node with
  | zero => cases h
  | succ fuel ih =>
      -- the notified nodes, one after the other
      have hfold : ∀ (nodes : List Node) {s s' : σ}, Inv s → (∀ node ∈ nodes, Within node) →
          nodes.foldlM (notify sys (cascade sys fuel)) s = some s' →
          Inv s' ∧ Transition.Run (Marks sys Within Reason) s s' := by
        intro nodes
        induction nodes with
        | nil =>
            intro s s' hinv _ h
            cases h
            exact ⟨hinv, .refl⟩
        | cons first rest ihrest =>
            intro s s' hinv hall h
            rw [List.foldlM_cons] at h
            obtain ⟨middle, hfirst, hrest⟩ := Option.bind_eq_some_iff.mp h
            have hmiddle : Inv middle ∧ Transition.Run (Marks sys Within Reason) s middle := by
              unfold notify at hfirst
              split at hfirst
              · rename_i hfirstReady
                exact ih hinv (hall first List.mem_cons_self) (hready hinv hfirstReady) hfirst
              · cases hfirst
                exact ⟨hinv, .refl⟩
            obtain ⟨hfinal, hrun⟩ := ihrest hmiddle.1
              (fun node hmem => hall node (List.mem_cons_of_mem first hmem)) hrest
            exact ⟨hfinal, hmiddle.2.trans hrun⟩
      simp only [cascade] at h
      split at h
      · cases h
        exact ⟨hinv, .refl⟩
      · rename_i hmarked
        rw [Bool.not_eq_true] at hmarked
        obtain ⟨hfinal, hrun⟩ := hfold _ (hkept.mark hinv hwithin hmarked)
          (fun other hmem => hkept.within hinv hwithin hmem) h
        exact ⟨hfinal, .head ⟨node, hwithin, hmarked, hreason, rfl⟩ hrun⟩

/-- Marks are made and stay. -/
structure Marking (sys : System σ Node) : Prop where
  self : ∀ s node, sys.marked (sys.mark s node) node = true
  stays : ∀ s node other, sys.marked s other = true → sys.marked (sys.mark s node) other = true

/-- Along marks, marked nodes stay marked. -/
theorem Marking.run (hmarking : Marking sys) {s s' : σ}
    (h : Transition.Run (Marks sys Within Reason) s s') {node : Node}
    (hmarked : sys.marked s node = true) : sys.marked s' node = true := by
  have hpreserves : Transition.Preserves (Marks sys Within Reason)
      fun s => sys.marked s node = true := by
    rintro s s' hbefore ⟨other, _, _, _, rfl⟩
    exact hmarking.stays s other node hbefore
  exact hpreserves.run h hmarked

/-- What a cascade does to nodes that are upset. -/
structure Settling (sys : System σ Node) (Inv : σ → Prop) (Within : Node → Prop)
    (Upset : σ → Node → Prop) : Prop where
  mark : ∀ {s node other}, Inv s → Within node → sys.marked s node = false →
    Upset (sys.mark s node) other → Upset s other ∨ other ∈ sys.notified s node
  marked : ∀ {s node}, sys.marked s node = true → ¬ Upset s node
  ready : ∀ {s node}, Inv s → sys.ready s node = false → ¬ Upset s node

/-- A cascade marks its node and leaves nothing upset that was not upset before. -/
theorem cascade_settles (hkept : Kept sys Inv Within) (hmarking : Marking sys)
    {Upset : σ → Node → Prop} (hsettling : Settling sys Inv Within Upset)
    {fuel : Nat} {s s' : σ} {node : Node} (hinv : Inv s) (hwithin : Within node)
    (h : cascade sys fuel s node = some s') :
    sys.marked s' node = true ∧ ∀ other, Upset s' other → Upset s other := by
  induction fuel generalizing s s' node with
  | zero => cases h
  | succ fuel ih =>
      have hrun : ∀ {s s' : σ} {node : Node}, Inv s → Within node →
          cascade sys fuel s node = some s' →
          Inv s' ∧ Transition.Run (Marks sys Within fun _ _ => True) s s' := by
        intro s s' node hinv hwithin h
        exact cascade_run hkept (fun _ _ => trivial) hinv hwithin trivial h
      -- a node that has been notified is not upset, and later marks keep it so
      have hfold : ∀ (nodes : List Node) {s s' : σ}, Inv s → (∀ node ∈ nodes, Within node) →
          nodes.foldlM (notify sys (cascade sys fuel)) s = some s' →
          (∀ node, sys.marked s node = true → sys.marked s' node = true) ∧
          ∀ other, Upset s' other → Upset s other ∧ other ∉ nodes := by
        intro nodes
        induction nodes with
        | nil =>
            intro s s' _ _ h
            cases h
            exact ⟨fun _ h => h, fun _ hupset => ⟨hupset, List.not_mem_nil⟩⟩
        | cons first rest ihrest =>
            intro s s' hinv hall h
            rw [List.foldlM_cons] at h
            obtain ⟨middle, hfirst, hrest⟩ := Option.bind_eq_some_iff.mp h
            have hmiddle : Inv middle ∧
                (∀ node, sys.marked s node = true → sys.marked middle node = true) ∧
                ∀ other, Upset middle other → Upset s other ∧ other ≠ first := by
              unfold notify at hfirst
              split at hfirst
              · obtain ⟨hnext, hmarks⟩ := hrun hinv (hall first List.mem_cons_self) hfirst
                obtain ⟨hmarked, hless⟩ := ih hinv (hall first List.mem_cons_self) hfirst
                refine ⟨hnext, fun node hnode => hmarking.run hmarks hnode, ?_⟩
                intro other hupset
                refine ⟨hless other hupset, ?_⟩
                rintro rfl
                exact hsettling.marked hmarked hupset
              · rename_i hidle
                rw [Bool.not_eq_true] at hidle
                cases hfirst
                refine ⟨hinv, fun _ hnode => hnode, ?_⟩
                intro other hupset
                refine ⟨hupset, ?_⟩
                rintro rfl
                exact hsettling.ready hinv hidle hupset
            obtain ⟨hnext, hstays, hless⟩ := hmiddle
            obtain ⟨hrestStays, hrestLess⟩ := ihrest hnext
              (fun node hmem => hall node (List.mem_cons_of_mem first hmem)) hrest
            refine ⟨fun node hnode => hrestStays node (hstays node hnode), ?_⟩
            intro other hupset
            obtain ⟨hbefore, hnotRest⟩ := hrestLess other hupset
            obtain ⟨hstart, hne⟩ := hless other hbefore
            refine ⟨hstart, ?_⟩
            intro hmem
            cases List.mem_cons.mp hmem with
            | inl heq => exact hne heq
            | inr hrest => exact hnotRest hrest
      simp only [cascade] at h
      split at h
      · rename_i hmarked
        cases h
        exact ⟨hmarked, fun _ hupset => hupset⟩
      · rename_i hmarked
        rw [Bool.not_eq_true] at hmarked
        obtain ⟨hstays, hless⟩ := hfold _ (hkept.mark hinv hwithin hmarked)
          (fun other hmem => hkept.within hinv hwithin hmem) h
        refine ⟨hstays node (hmarking.self s node), ?_⟩
        intro other hupset
        obtain ⟨hafter, hnotified⟩ := hless other hupset
        cases hsettling.mark hinv hwithin hmarked hafter with
        | inl hbefore => exact hbefore
        | inr hmem => exact absurd hmem hnotified

/-- A fold that succeeds succeeds with steps that agree where the first ones succeed. -/
theorem fold_more {α : Type} {first second : σ → α → Option σ}
    (h : ∀ s item s', first s item = some s' → second s item = some s') {items : List α} {s s' : σ}
    (hfold : items.foldlM first s = some s') : items.foldlM second s = some s' := by
  induction items generalizing s with
  | nil => exact hfold
  | cons item rest ih =>
      rw [List.foldlM_cons] at hfold ⊢
      obtain ⟨middle, hitem, hrest⟩ := Option.bind_eq_some_iff.mp hfold
      exact Option.bind_eq_some_iff.mpr ⟨middle, h s item middle hitem, ih hrest⟩

/-- The same for a notification. -/
theorem notify_more {first second : σ → Node → Option σ}
    (h : ∀ s node s', first s node = some s' → second s node = some s') {s s' : σ} {node : Node}
    (hnotify : notify sys first s node = some s') : notify sys second s node = some s' := by
  unfold notify at hnotify ⊢
  split at hnotify
  · rename_i hready
    rw [if_pos hready]
    exact h s node s' hnotify
  · rename_i hready
    rw [if_neg hready]
    exact hnotify

/-- A cascade that ends with some fuel ends in the same state with more. -/
theorem cascade_more {fuel : Nat} {s s' : σ} {node : Node}
    (h : cascade sys fuel s node = some s') : cascade sys (fuel + 1) s node = some s' := by
  induction fuel generalizing s s' node with
  | zero => cases h
  | succ fuel ih =>
      rw [cascade] at h ⊢
      split at h
      · rename_i hmarked
        rw [if_pos hmarked]
        exact h
      · rename_i hmarked
        rw [if_neg hmarked]
        exact fold_more (fun _ _ _ => notify_more fun _ _ _ => ih) h

/-- Enough fuel for a cascade is more than the number of nodes that are not yet marked, for any
such count that a mark reduces. -/
theorem cascade_total (hkept : Kept sys Inv Within) (left : σ → Nat)
    (hleft : ∀ {s node}, Inv s → Within node → sys.marked s node = false →
      left (sys.mark s node) < left s)
    {fuel : Nat} {s : σ} {node : Node} (hinv : Inv s) (hwithin : Within node)
    (hfuel : left s < fuel) : ∃ s', cascade sys fuel s node = some s' ∧ left s' ≤ left s := by
  induction fuel generalizing s node with
  | zero => omega
  | succ fuel ih =>
      have hfold : ∀ (nodes : List Node) {s : σ}, Inv s → (∀ node ∈ nodes, Within node) →
          left s < fuel → ∃ s', nodes.foldlM (notify sys (cascade sys fuel)) s = some s' ∧
            left s' ≤ left s := by
        intro nodes
        induction nodes with
        | nil => exact fun _ _ _ => ⟨_, rfl, Nat.le_refl _⟩
        | cons first rest ihrest =>
            intro s hinv hall hfuel
            have hfirst : ∃ middle, notify sys (cascade sys fuel) s first = some middle ∧
                Inv middle ∧ left middle ≤ left s := by
              unfold notify
              split
              · obtain ⟨middle, hmiddle, hless⟩ :=
                  ih hinv (hall first List.mem_cons_self) hfuel
                have hnext : Inv middle ∧
                    Transition.Run (Marks sys Within fun _ _ => True) s middle :=
                  cascade_run hkept (fun _ _ => trivial) hinv (hall first List.mem_cons_self)
                    trivial hmiddle
                exact ⟨middle, hmiddle, hnext.1, hless⟩
              · exact ⟨s, rfl, hinv, Nat.le_refl _⟩
            obtain ⟨middle, hmiddle, hnext, hless⟩ := hfirst
            obtain ⟨final, hfinal, hbound⟩ := ihrest hnext
              (fun node hmem => hall node (List.mem_cons_of_mem first hmem)) (by omega)
            refine ⟨final, ?_, by omega⟩
            rw [List.foldlM_cons]
            exact Option.bind_eq_some_iff.mpr ⟨middle, hmiddle, hfinal⟩
      simp only [cascade]
      split
      · exact ⟨s, rfl, Nat.le_refl _⟩
      · rename_i hmarked
        rw [Bool.not_eq_true] at hmarked
        have hless := hleft hinv hwithin hmarked
        obtain ⟨final, hfinal, hbound⟩ := hfold _ (hkept.mark hinv hwithin hmarked)
          (fun other hmem => hkept.within hinv hwithin hmem) (by omega)
        exact ⟨final, hfinal, by omega⟩

end Cascade
