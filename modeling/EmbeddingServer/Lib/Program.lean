import EmbeddingServer.Lib.Transition
import Mathlib.Data.Set.Basic

/-!
# Programs over fault-prone primitives

A `Program` performs primitive operations one at a time and continues with their
replies. How a primitive replies and changes the state depends on a fault chosen from
outside, so a list of faults describes a run up to any point: `after` executes as many
primitives as the list is long. A crash is a run that goes no further, which makes the
states of all runs exactly the states in which a crash can leave the system.

`Program.wp` is the matching weakest precondition. Between two primitives the state may
change as `rely` says, every primitive must change it as `guar` says, and the
postcondition holds when the program is done. With `rely` equality the program runs
alone: `wp_after` is soundness for its interrupted runs and `wp_exec` for completed ones.
The last section lifts the rules to programs that fail with an error (`ExceptT`).
-/

/-- A program over primitives `Op` with replies `Reply`. -/
inductive Program (Op : Type) (Reply : Op → Type) (α : Type) where
  | done (value : α)
  | perform (op : Op) (next : Reply op → Program Op Reply α)

namespace Program

variable {Op : Type} {Reply : Op → Type} {α β ε : Type}

/-- Sequencing. -/
def bind : Program Op Reply α → (α → Program Op Reply β) → Program Op Reply β
  | .done value, rest => rest value
  | .perform op next, rest => .perform op fun reply => (next reply).bind rest

instance : Monad (Program Op Reply) where
  pure := .done
  bind := bind

/-- Sequencing obeys the monad laws. -/
instance : LawfulMonad (Program Op Reply) :=
  LawfulMonad.mk' _
    (fun {_} program => by
      show program.bind .done = program
      induction program with
      | done => rfl
      | perform op next ih =>
          rw [bind]
          exact congrArg _ (funext ih))
    (fun _ _ => rfl)
    (fun {_ _ _} program _ _ => by
      show (program.bind _).bind _ = program.bind fun value => Program.bind _ _
      induction program with
      | done => rfl
      | perform op next ih =>
          rw [bind, bind, bind]
          exact congrArg _ (funext ih))

/-- A single primitive. -/
def primitive (op : Op) : Program Op Reply (Reply op) :=
  .perform op .done

/-- Every primitive the program can come to perform is one of the allowed ones. -/
def All (allowed : Op → Prop) : Program Op Reply α → Prop
  | .done _ => True
  | .perform op next => allowed op ∧ ∀ reply, All allowed (next reply)

theorem All.mono {allowed allowed' : Op → Prop} {program : Program Op Reply α}
    (h : program.All allowed) (himp : ∀ op, allowed op → allowed' op) : program.All allowed' := by
  induction program with
  | done => trivial
  | perform op next ih => exact ⟨himp op h.1, fun reply => ih reply (h.2 reply)⟩

theorem All.bind {allowed : Op → Prop} {program : Program Op Reply α}
    {rest : α → Program Op Reply β} (h : program.All allowed)
    (hrest : ∀ value, (rest value).All allowed) : (program >>= rest).All allowed := by
  induction program with
  | done value => exact hrest value
  | perform op next ih => exact ⟨h.1, fun reply => ih reply (h.2 reply)⟩

/-- A predicate that holds of all primitives. -/
theorem all_of_forall {allowed : Op → Prop} (program : Program Op Reply α)
    (h : ∀ op, allowed op) : program.All allowed := by
  induction program with
  | done => trivial
  | perform op next ih => exact ⟨h op, ih⟩

variable {σ Fault : Type} (respond : Fault → σ → (op : Op) → Reply op × σ)

/-- Execute one primitive for each fault of the list, or until the program is done. -/
def after : List Fault → Program Op Reply α → σ → Program Op Reply α × σ
  | [], program, s => (program, s)
  | _ :: _, .done value, s => (.done value, s)
  | fault :: faults, .perform op next, s =>
      after faults (next (respond fault s op).1) (respond fault s op).2

/-- Execute the whole program; the `n`-th primitive is subject to the `n`-th fault. -/
def exec : (Nat → Fault) → Program Op Reply α → σ → α × σ
  | _, .done value, s => (value, s)
  | faults, .perform op next, s =>
      exec (fun n => faults (n + 1)) (next (respond (faults 0) s op).1) (respond (faults 0) s op).2

variable (faults : Set Fault) (rely guar : σ → σ → Prop)

/-- Weakest precondition under interference. -/
def wp : Program Op Reply α → (α → σ → Prop) → σ → Prop
  | .done value, post, s => ∀ s', rely s s' → post value s'
  | .perform op next, post, s =>
      ∀ s', rely s s' → ∀ fault ∈ faults,
        guar s' (respond fault s' op).2 ∧
          wp (next (respond fault s' op).1) post (respond fault s' op).2

variable {respond faults rely guar}

/-- Consequence. -/
theorem wp.mono {guar' : σ → σ → Prop} {program : Program Op Reply α} {post post' : α → σ → Prop}
    {s : σ} (h : wp respond faults rely guar program post s)
    (hguar : ∀ s s', guar s s' → guar' s s') (hpost : ∀ value s', post value s' → post' value s') :
    wp respond faults rely guar' program post' s := by
  induction program generalizing s with
  | done value => exact fun s' hs' => hpost value s' (h s' hs')
  | perform op next ih =>
      intro s' hs' fault hfault
      obtain ⟨hstep, hnext⟩ := h s' hs' fault hfault
      exact ⟨hguar _ _ hstep, ih _ hnext⟩

/-- Two specifications of the same program hold together. -/
theorem wp.and {guar' : σ → σ → Prop} {program : Program Op Reply α} {post post' : α → σ → Prop}
    {s : σ} (h : wp respond faults rely guar program post s)
    (h' : wp respond faults rely guar' program post' s) :
    wp respond faults rely (fun s s' => guar s s' ∧ guar' s s') program
      (fun value s' => post value s' ∧ post' value s') s := by
  induction program generalizing s with
  | done value => exact fun s' hs' => ⟨h s' hs', h' s' hs'⟩
  | perform op next ih =>
      intro s' hs' fault hfault
      obtain ⟨hstep, hnext⟩ := h s' hs' fault hfault
      obtain ⟨hstep', hnext'⟩ := h' s' hs' fault hfault
      exact ⟨⟨hstep, hstep'⟩, ih _ hnext hnext'⟩

/-- Sequencing runs the rest from every state the first part ends in. -/
theorem wp_bind (hrefl : ∀ s, rely s s) {program : Program Op Reply α}
    {rest : α → Program Op Reply β} {post : β → σ → Prop} {s : σ}
    (h : wp respond faults rely guar program
      (fun value s' => wp respond faults rely guar (rest value) post s') s) :
    wp respond faults rely guar (program >>= rest) post s := by
  induction program generalizing s with
  | done value => exact h s (hrefl s)
  | perform op next ih =>
      intro s' hs' fault hfault
      obtain ⟨hstep, hnext⟩ := h s' hs' fault hfault
      exact ⟨hstep, ih _ hnext⟩

/-- A final conversion of the value takes no step. -/
theorem wp_map {program : Program Op Reply α} {f : α → β} {post : β → σ → Prop} {s : σ}
    (h : wp respond faults rely guar program (fun value s' => post (f value) s') s) :
    wp respond faults rely guar (program >>= fun value => pure (f value)) post s := by
  induction program generalizing s with
  | done value => exact h
  | perform op next ih =>
      intro s' hs' fault hfault
      obtain ⟨hstep, hnext⟩ := h s' hs' fault hfault
      exact ⟨hstep, ih _ hnext⟩

/-- The precondition survives interference. -/
theorem wp.stable (htrans : ∀ a b c, rely a b → rely b c → rely a c)
    {program : Program Op Reply α} {post : α → σ → Prop} {s s' : σ}
    (h : wp respond faults rely guar program post s) (hs : rely s s') :
    wp respond faults rely guar program post s' := by
  cases program with
  | done value => exact fun t ht => h t (htrans _ _ _ hs ht)
  | perform op next => exact fun t ht => h t (htrans _ _ _ hs ht)

/-- Less interference. -/
theorem wp.alone (hrefl : ∀ s, rely s s) {program : Program Op Reply α} {post : α → σ → Prop}
    {s : σ} (h : wp respond faults rely guar program post s) :
    wp respond faults Eq guar program post s := by
  induction program generalizing s with
  | done value =>
      rintro s' rfl
      exact h s (hrefl s)
  | perform op next ih =>
      rintro s' rfl fault hfault
      obtain ⟨hstep, hnext⟩ := h s (hrefl s) fault hfault
      exact ⟨hstep, ih _ hnext⟩

/-- A program of allowed primitives keeps an invariant that each of them keeps. -/
theorem wp_of_all {allowed : Op → Prop} {inv : σ → Prop} {program : Program Op Reply α} {s : σ}
    (hall : program.All allowed) (hrely : ∀ s s', rely s s' → inv s → inv s')
    (hstep : ∀ op, allowed op → ∀ fault ∈ faults, ∀ s, inv s →
      guar s (respond fault s op).2 ∧ inv (respond fault s op).2) (hs : inv s) :
    wp respond faults rely guar program (fun _ s' => inv s') s := by
  induction program generalizing s with
  | done value => exact fun s' hs' => hrely s s' hs' hs
  | perform op next ih =>
      intro s' hs' fault hfault
      obtain ⟨hguar, hinv⟩ := hstep op hall.1 fault hfault s' (hrely s s' hs' hs)
      exact ⟨hguar, ih _ (hall.2 _) hinv⟩

/-! ## Programs that run alone -/

/-- A single primitive without interference. -/
theorem wp_primitive {op : Op} {post : Reply op → σ → Prop} {s : σ}
    (h : ∀ fault ∈ faults, guar s (respond fault s op).2 ∧
      post (respond fault s op).1 (respond fault s op).2) :
    wp respond faults Eq guar (primitive op) post s := by
  rintro s' rfl fault hfault
  obtain ⟨hstep, hpost⟩ := h fault hfault
  refine ⟨hstep, ?_⟩
  rintro s' rfl
  exact hpost

/-- The postcondition may use that the program got there by guaranteed steps. -/
theorem wp.run {program : Program Op Reply α} {post : α → σ → Prop} {s : σ}
    (h : wp respond faults Eq guar program post s) :
    wp respond faults Eq guar program
      (fun value s' => Transition.Run guar s s' ∧ post value s') s := by
  suffices hgeneral : ∀ start, Transition.Run guar start s →
      wp respond faults Eq guar program
        (fun value s' => Transition.Run guar start s' ∧ post value s') s from hgeneral s .refl
  intro start hstart
  induction program generalizing s with
  | done value =>
      rintro s' rfl
      exact ⟨hstart, h s rfl⟩
  | perform op next ih =>
      rintro s' rfl fault hfault
      obtain ⟨hstep, hnext⟩ := h s rfl fault hfault
      exact ⟨hstep, ih _ hnext (hstart.tail hstep)⟩

/-- An invariant that the guaranteed steps keep holds throughout. -/
theorem wp.keeps {inv : σ → Prop} {program : Program Op Reply α} {post : α → σ → Prop} {s : σ}
    (h : wp respond faults Eq guar program post s) (hstep : ∀ s s', guar s s' → inv s → inv s')
    (hs : inv s) :
    wp respond faults Eq (fun _ s' => inv s') program
      (fun value s' => inv s' ∧ post value s') s := by
  induction program generalizing s with
  | done value =>
      rintro s' rfl
      exact ⟨hs, h s rfl⟩
  | perform op next ih =>
      rintro s' rfl fault hfault
      obtain ⟨hguar, hnext⟩ := h s rfl fault hfault
      have hinv := hstep _ _ hguar hs
      exact ⟨hinv, ih _ hnext hinv⟩

/-- A specification covers every environment whose answers are among those it allows for. -/
theorem wp.narrow {Fault' : Type} {respond' : Fault' → σ → (op : Op) → Reply op × σ}
    {faults' : Set Fault'} {program : Program Op Reply α} {post : α → σ → Prop} {s : σ}
    (h : wp respond faults rely guar program post s)
    (hanswer : ∀ fault' ∈ faults', ∀ s op, ∃ fault ∈ faults, respond' fault' s op =
      respond fault s op) :
    wp respond' faults' rely guar program post s := by
  induction program generalizing s with
  | done value => exact h
  | perform op next ih =>
      intro s' hs' fault' hfault'
      obtain ⟨fault, hfault, heq⟩ := hanswer fault' hfault' s' op
      obtain ⟨hguar, hnext⟩ := h s' hs' fault hfault
      rw [heq]
      exact ⟨hguar, ih _ hnext⟩

/-- Soundness for interrupted runs: the run consists of guaranteed steps, and if the program
is done the postcondition holds. -/
theorem wp_after {program : Program Op Reply α} {post : α → σ → Prop} {s : σ}
    (h : wp respond faults Eq guar program post s) (schedule : List Fault)
    (hschedule : ∀ fault ∈ schedule, fault ∈ faults) :
    Transition.Run guar s (after respond schedule program s).2 ∧
    ∀ value, (after respond schedule program s).1 = .done value →
      post value (after respond schedule program s).2 := by
  induction schedule generalizing program s with
  | nil =>
      refine ⟨.refl, ?_⟩
      rintro value hdone
      cases program with
      | done => cases hdone; exact h s rfl
      | perform => cases hdone
  | cons fault rest ih =>
      cases program with
      | done value =>
          refine ⟨.refl, ?_⟩
          rintro value' ⟨rfl⟩
          exact h s rfl
      | perform op next =>
          obtain ⟨hstep, hnext⟩ := h s rfl fault (hschedule fault (by simp))
          obtain ⟨hrun, hdone⟩ :=
            ih hnext fun other hother => hschedule other (by simp [hother])
          exact ⟨.head hstep hrun, hdone⟩

/-- Soundness for runs to completion. -/
theorem wp_exec {program : Program Op Reply α} {post : α → σ → Prop} {s : σ}
    {schedule : Nat → Fault} (hschedule : ∀ n, schedule n ∈ faults)
    (h : wp respond faults Eq guar program post s) :
    post (exec respond schedule program s).1 (exec respond schedule program s).2 := by
  induction program generalizing s schedule with
  | done value => exact h s rfl
  | perform op next ih =>
      exact ih _ (fun n => hschedule (n + 1)) (h s rfl _ (hschedule 0)).2

/-- Completeness: what holds after every run to completion is a specification. -/
theorem wp_of_exec {program : Program Op Reply α} {post : α → σ → Prop} {s : σ}
    (hguar : ∀ s s', guar s s')
    (h : ∀ schedule : Nat → Fault, (∀ n, schedule n ∈ faults) →
      post (exec respond schedule program s).1 (exec respond schedule program s).2)
    {some : Fault} (hsome : some ∈ faults) : wp respond faults Eq guar program post s := by
  induction program generalizing s with
  | done value =>
      rintro s' rfl
      exact h (fun _ => some) fun _ => hsome
  | perform op next ih =>
      rintro s' rfl fault hfault
      refine ⟨hguar _ _, ih _ fun schedule hschedule => ?_⟩
      refine h (fun n => n.casesOn fault schedule) fun n => ?_
      cases n with
      | zero => exact hfault
      | succ n => exact hschedule n

/-- The second part of a sequence meets its specification wherever the first part ends. -/
theorem wp_unbind {program : Program Op Reply α} {rest : α → Program Op Reply β}
    {post : β → σ → Prop} {s : σ} (h : wp respond faults Eq guar (program >>= rest) post s) :
    wp respond faults Eq guar program
      (fun value s' => wp respond faults Eq guar (rest value) post s') s := by
  induction program generalizing s with
  | done value =>
      rintro s' rfl
      exact h
  | perform op next ih =>
      rintro s' rfl fault hfault
      obtain ⟨hstep, hnext⟩ := h s rfl fault hfault
      exact ⟨hstep, ih _ hnext⟩

/-- States that a program cannot tell apart satisfy the same specifications of its result. -/
theorem wp.congr {allowed : Op → Prop} {same : σ → σ → Prop} {program : Program Op Reply α}
    {post : α → Prop} {s t : σ} (hguar : ∀ s s', guar s s') (hall : program.All allowed)
    (hsame : ∀ op, allowed op → ∀ fault s t, same s t →
      (respond fault t op).1 = (respond fault s op).1 ∧
        same (respond fault s op).2 (respond fault t op).2)
    (h : wp respond faults Eq guar program (fun value _ => post value) s) (hst : same s t) :
    wp respond faults Eq guar program (fun value _ => post value) t := by
  induction program generalizing s t with
  | done value =>
      rintro t' rfl
      exact h s rfl
  | perform op next ih =>
      rintro t' rfl fault hfault
      obtain ⟨hreply, hnext⟩ := hsame op hall.1 fault s t hst
      refine ⟨hguar _ _, ?_⟩
      rw [hreply]
      exact ih _ (hall.2 _) (h s rfl fault hfault).2 hnext

/-- A sequence that is done has done its first part before the second. -/
theorem after_bind_done {program : Program Op Reply α} {rest : α → Program Op Reply β}
    {schedule : List Fault} {s : σ} {value : β}
    (h : (after respond schedule (program >>= rest) s).1 = .done value) :
    ∃ n first, (after respond (schedule.take n) program s).1 = .done first ∧
      after respond schedule (program >>= rest) s =
        after respond (schedule.drop n) (rest first)
          (after respond (schedule.take n) program s).2 := by
  induction schedule generalizing program s with
  | nil =>
      cases program with
      | done first => exact ⟨0, first, rfl, rfl⟩
      | perform op next => cases h
  | cons fault faults ih =>
      cases program with
      | done first => exact ⟨0, first, rfl, rfl⟩
      | perform op next =>
          obtain ⟨n, first, hfirst, hrest⟩ := ih h
          exact ⟨n + 1, first, hfirst, hrest⟩

/-! ## Programs among others that obey no rule -/

variable (respond) in
/-- The program can return the value. Every primitive is answered from a state of its own, so
between two primitives anyone may change anything. -/
inductive Returns : Program Op Reply α → α → Prop where
  | done (value : α) : Returns (.done value) value
  | perform {op : Op} {next : Reply op → Program Op Reply α} {value : α} (fault : Fault) (s : σ) :
      Returns (next (respond fault s op).1) value → Returns (.perform op next) value

/-- A sequence returns what its second part does from a value that the first part can return. -/
theorem Returns.bind {program : Program Op Reply α} {rest : α → Program Op Reply β} {value : β}
    (h : Returns respond (program >>= rest) value) :
    ∃ first, Returns respond program first ∧ Returns respond (rest first) value := by
  induction program with
  | done first => exact ⟨first, .done first, h⟩
  | perform op next ih =>
      have hrun : Returns respond (.perform op fun reply => next reply >>= rest) value := h
      cases hrun with
      | perform fault s hnext =>
          obtain ⟨first, hfirst, hrest⟩ := ih _ hnext
          exact ⟨first, .perform fault s hfirst, hrest⟩

/-- A sequence can return what its second part can from a value of the first. -/
theorem Returns.then {program : Program Op Reply α} {rest : α → Program Op Reply β} {first : α}
    {value : β} (h : Returns respond program first) (hrest : Returns respond (rest first) value) :
    Returns respond (program >>= rest) value := by
  induction h with
  | done first => exact hrest
  | perform fault s _ ih => exact .perform fault s (ih hrest)

/-- A program that is done returns its value. -/
theorem Returns.eq {first value : α}
    (h : Returns respond (.done first : Program Op Reply α) value) :
    first = value := by
  cases h
  rfl

/-- What a program returns after running alone it can return. -/
theorem returns_of_after {program : Program Op Reply α} {schedule : List Fault} {s : σ} {value : α}
    (h : (after respond schedule program s).1 = .done value) : Returns respond program value := by
  induction schedule generalizing program s with
  | nil =>
      have hdone : program = .done value := h
      rw [hdone]
      exact .done value
  | cons fault rest ih =>
      cases program with
      | done first =>
          have hdone : (.done first : Program Op Reply α) = .done value := h
          rw [hdone]
          exact .done value
      | perform op next => exact .perform fault s (ih h)

/-! ## Programs that fail with an error -/

section Fallible

/-- A fallible sequence that returns a value has returned one from its first part. -/
theorem Returns.bind_e {program : ExceptT ε (Program Op Reply) α}
    {rest : α → ExceptT ε (Program Op Reply) β} {value : β}
    (h : Returns respond (program >>= rest).run (.ok value)) :
    ∃ first, Returns respond program.run (.ok first) ∧
      Returns respond (rest first).run (.ok value) := by
  have hrun : Returns respond (program.run >>= ExceptT.bindCont rest) (.ok value) := h
  obtain ⟨result, hresult, hrest⟩ := hrun.bind
  cases result with
  | error error => cases hrest.eq
  | ok first => exact ⟨first, hresult, hrest⟩

theorem Returns.then_e {program : ExceptT ε (Program Op Reply) α}
    {rest : α → ExceptT ε (Program Op Reply) β} {first : α} {value : β}
    (h : Returns respond program.run (.ok first))
    (hrest : Returns respond (rest first).run (.ok value)) :
    Returns respond (program >>= rest).run (.ok value) := by
  have hrun : Returns respond (program.run >>= ExceptT.bindCont rest) (.ok value) := h.then hrest
  exact hrun

variable (respond faults rely guar) in
/-- Weakest precondition of a fallible program; the postcondition sees the error or the
value. -/
def wpE (program : ExceptT ε (Program Op Reply) α) (post : Except ε α → σ → Prop) (s : σ) : Prop :=
  wp respond faults rely guar program.run post s

theorem wpE.mono {guar' : σ → σ → Prop} {program : ExceptT ε (Program Op Reply) α}
    {post post' : Except ε α → σ → Prop} {s : σ}
    (h : wpE respond faults rely guar program post s) (hguar : ∀ s s', guar s s' → guar' s s')
    (hpost : ∀ result s', post result s' → post' result s') :
    wpE respond faults rely guar' program post' s :=
  wp.mono h hguar hpost

/-- Consequence in the postcondition only. -/
theorem wpE.imp {program : ExceptT ε (Program Op Reply) α} {post post' : Except ε α → σ → Prop}
    {s : σ} (h : wpE respond faults rely guar program post s)
    (hpost : ∀ result s', post result s' → post' result s') :
    wpE respond faults rely guar program post' s :=
  wp.mono h (fun _ _ hguar => hguar) hpost

/-- What must hold between the parts of a sequence: an error ends it, a value is passed on. -/
def andThen (post : Except ε β → σ → Prop) (rest : α → σ → Prop) : Except ε α → σ → Prop
  | .error error => post (.error error)
  | .ok value => rest value

/-- Sequencing. -/
theorem wp_e_bind (hrefl : ∀ s, rely s s) {program : ExceptT ε (Program Op Reply) α}
    {rest : α → ExceptT ε (Program Op Reply) β} {post : Except ε β → σ → Prop} {s : σ}
    (h : wpE respond faults rely guar program
      (andThen post fun value => wpE respond faults rely guar (rest value) post) s) :
    wpE respond faults rely guar (program >>= rest) post s := by
  change wp respond faults rely guar (program.run >>= ExceptT.bindCont rest) post s
  unfold wpE at h
  generalize program.run = run at h ⊢
  induction run generalizing s with
  | done result =>
      cases result with
      | error error => exact h
      | ok value => exact h s (hrefl s)
  | perform op next ih =>
      intro s' hs' fault hfault
      obtain ⟨hstep, hnext⟩ := h s' hs' fault hfault
      exact ⟨hstep, ih _ hnext⟩

/-- The second part of a fallible sequence meets its specification wherever the first part ends. -/
theorem wp_e_unbind {program : ExceptT ε (Program Op Reply) α}
    {rest : α → ExceptT ε (Program Op Reply) β} {post : Except ε β → σ → Prop} {s : σ}
    (h : wpE respond faults Eq guar (program >>= rest) post s) :
    wpE respond faults Eq guar program
      (andThen post fun value => wpE respond faults Eq guar (rest value) post) s := by
  have hrun : wp respond faults Eq guar (program.run >>= ExceptT.bindCont rest) post s := h
  refine wp.mono (wp_unbind hrun) (fun _ _ hguar => hguar) fun result s' hresult => ?_
  cases result with
  | error error => exact hresult s' rfl
  | ok value => exact hresult

/-- A fallible sequence that is done has failed in its first part or done it before the
second. -/
theorem after_bind_e_done {program : ExceptT ε (Program Op Reply) α}
    {rest : α → ExceptT ε (Program Op Reply) β} {schedule : List Fault} {s : σ}
    {result : Except ε β} (h : (after respond schedule (program >>= rest).run s).1 = .done result) :
    ∃ n first, (after respond (schedule.take n) program.run s).1 = .done first ∧
      ((∃ error, first = .error error ∧ (after respond schedule (program >>= rest).run s).2 =
          (after respond (schedule.take n) program.run s).2) ∨
        ∃ value, first = .ok value ∧ after respond schedule (program >>= rest).run s =
          after respond (schedule.drop n) (rest value).run
            (after respond (schedule.take n) program.run s).2) := by
  obtain ⟨n, first, hfirst, hrest⟩ := after_bind_done h
  refine ⟨n, first, hfirst, ?_⟩
  cases first with
  | error error =>
      refine Or.inl ⟨error, rfl, (congrArg Prod.snd hrest).trans ?_⟩
      cases schedule.drop n <;> rfl
  | ok value => exact Or.inr ⟨value, rfl, hrest⟩

end Fallible

end Program
