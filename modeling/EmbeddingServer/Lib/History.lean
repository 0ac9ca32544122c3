import EmbeddingServer.Lib.Program

/-!
# Programs among answers that come from anywhere

Seen from outside, a run of a program is the list of the primitives it performs with the replies
they get. `play` executes a program on a supply of answers, and `Ran` says that a run is possible
when each reply obeys a contract that its primitive has. There is no state: whatever the contract
does not exclude can happen between two primitives. `record` and `RanFrom` are the same for a
program that runs alone on a state.
-/

namespace Program

variable {Op : Type} {Reply : Op → Type} {α β ε : Type}

/-- A primitive that was performed, and its reply. -/
structure Event (Reply : Op → Type) where
  op : Op
  reply : Reply op

/-- Execute the program; the `n`-th primitive gets its reply from the `n`-th answer. -/
def play : (Nat → (op : Op) → Reply op) → Program Op Reply α → List (Event Reply) × α
  | _, .done value => ([], value)
  | answers, .perform op next =>
      let rest := play (fun n => answers (n + 1)) (next (answers 0 op))
      (⟨op, answers 0 op⟩ :: rest.1, rest.2)

/-- The program can perform the events and return the value. -/
inductive Ran (obeys : (op : Op) → Reply op → Prop) :
    Program Op Reply α → List (Event Reply) → α → Prop where
  | done (value : α) : Ran obeys (.done value) [] value
  | perform {op : Op} {next : Reply op → Program Op Reply α} {events : List (Event Reply)}
      {value : α} (reply : Reply op) (hreply : obeys op reply)
      (hnext : Ran obeys (next reply) events value) :
      Ran obeys (.perform op next) (⟨op, reply⟩ :: events) value

variable {obeys : (op : Op) → Reply op → Prop} {events : List (Event Reply)}

/-- Answers that obey a contract lead to a run. -/
theorem ran_play {answers : Nat → (op : Op) → Reply op} (h : ∀ n op, obeys op (answers n op))
    (program : Program Op Reply α) :
    Ran obeys program (play answers program).1 (play answers program).2 := by
  induction program generalizing answers with
  | done value => exact .done value
  | perform op next ih => exact .perform (answers 0 op) (h 0 op) (ih _ fun n op => h (n + 1) op)

/-- A program that is done performs nothing more. -/
theorem Ran.of_done {first value : α}
    (h : Ran obeys (.done first : Program Op Reply α) events value) :
    events = [] ∧ value = first := by
  cases h
  exact ⟨rfl, rfl⟩

/-- A single primitive. -/
theorem Ran.of_primitive {op : Op} {reply : Reply op}
    (h : Ran obeys (primitive op) events reply) : obeys op reply ∧ events = [⟨op, reply⟩] := by
  cases h with
  | perform reply' hreply hnext =>
      obtain ⟨rfl, rfl⟩ := hnext.of_done
      exact ⟨hreply, rfl⟩

/-- The parts of a sequence run one after the other. -/
theorem Ran.of_bind {program : Program Op Reply α} {rest : α → Program Op Reply β} {value : β}
    (h : Ran obeys (program >>= rest) events value) :
    ∃ before after first, events = before ++ after ∧ Ran obeys program before first ∧
      Ran obeys (rest first) after value := by
  induction program generalizing events with
  | done first => exact ⟨[], events, first, rfl, .done first, h⟩
  | perform op next ih =>
      have hrun : Ran obeys (.perform op fun reply => next reply >>= rest) events value := h
      cases hrun with
      | perform reply hreply hnext =>
          obtain ⟨before, after, first, rfl, hbefore, hafter⟩ := ih _ hnext
          exact ⟨⟨op, reply⟩ :: before, after, first, rfl, .perform reply hreply hbefore, hafter⟩

/-- A program of allowed primitives performs only these. -/
theorem Ran.all {allowed : Op → Prop} {program : Program Op Reply α} {value : α}
    (h : Ran obeys program events value) (hall : program.All allowed) :
    ∀ event ∈ events, allowed event.op := by
  induction h with
  | done value => exact fun event hmem => absurd hmem List.not_mem_nil
  | perform reply _ _ ih =>
      intro event hmem
      cases List.mem_cons.mp hmem with
      | inl heq => exact heq ▸ hall.1
      | inr hrest => exact ih (hall.2 _) event hrest

/-! ## Runs that change a state -/

section Stateful

variable {σ Fault : Type} (respond : Fault → σ → (op : Op) → Reply op × σ)

/-- Execute the program on a state; the `n`-th primitive is subject to the `n`-th fault. What it
performed, its value and the final state. -/
def record : (Nat → Fault) → Program Op Reply α → σ → List (Event Reply) × α × σ
  | _, .done value, s => ([], value, s)
  | faults, .perform op next, s =>
      let rest := record (fun n => faults (n + 1)) (next (respond (faults 0) s op).1)
        (respond (faults 0) s op).2
      (⟨op, (respond (faults 0) s op).1⟩ :: rest.1, rest.2)

/-- From the first state the program can perform the events, return the value and end in the
second. -/
inductive RanFrom : Program Op Reply α → σ → List (Event Reply) → α → σ → Prop where
  | done (value : α) (s : σ) : RanFrom (.done value) s [] value s
  | perform {op : Op} {next : Reply op → Program Op Reply α} {events : List (Event Reply)}
      {value : α} {s s' : σ} (fault : Fault)
      (hnext : RanFrom (next (respond fault s op).1) (respond fault s op).2 events value s') :
      RanFrom (.perform op next) s (⟨op, (respond fault s op).1⟩ :: events) value s'

variable {respond}

theorem ran_from_record (faults : Nat → Fault) (program : Program Op Reply α) (s : σ) :
    RanFrom respond program s (record respond faults program s).1
      (record respond faults program s).2.1 (record respond faults program s).2.2 := by
  induction program generalizing faults s with
  | done value => exact .done value s
  | perform op next ih => exact .perform (faults 0) (ih _ _ _)

/-- Forget the state. -/
theorem RanFrom.ran {program : Program Op Reply α} {value : α} {s s' : σ}
    (h : RanFrom respond program s events value s')
    (hobeys : ∀ fault s op, obeys op (respond fault s op).1) : Ran obeys program events value := by
  induction h with
  | done value s => exact .done value
  | perform fault _ ih => exact .perform _ (hobeys _ _ _) ih

/-- A specification holds of what the run ends with. -/
theorem RanFrom.spec {guar : σ → σ → Prop} {program : Program Op Reply α} {value : α} {s s' : σ}
    {post : α → σ → Prop} (h : RanFrom respond program s events value s')
    (hspec : wp respond Set.univ Eq guar program post s) : post value s' := by
  induction h with
  | done value s => exact hspec s rfl
  | @perform op next events value s s' fault _ ih =>
      exact ih (hspec s rfl fault (Set.mem_univ _)).2

theorem RanFrom.of_done {first value : α} {s s' : σ}
    (h : RanFrom respond (.done first : Program Op Reply α) s events value s') :
    events = [] ∧ value = first ∧ s' = s := by
  cases h
  exact ⟨rfl, rfl, rfl⟩

/-- The parts of a sequence run one after the other. -/
theorem RanFrom.of_bind {program : Program Op Reply α} {rest : α → Program Op Reply β} {value : β}
    {s s' : σ} (h : RanFrom respond (program >>= rest) s events value s') :
    ∃ before after first between, events = before ++ after ∧
      RanFrom respond program s before first between ∧
      RanFrom respond (rest first) between after value s' := by
  induction program generalizing events s with
  | done first => exact ⟨[], events, first, s, rfl, .done first s, h⟩
  | perform op next ih =>
      have hrun : RanFrom respond (.perform op fun reply => next reply >>= rest)
          s events value s' :=
        h
      cases hrun with
      | perform fault hnext =>
          obtain ⟨before, after, first, between, rfl, hbefore, hafter⟩ := ih _ hnext
          exact ⟨_ :: before, after, first, between, rfl, .perform fault hbefore, hafter⟩

/-- A fallible sequence that succeeds has succeeded in its first part. -/
theorem RanFrom.of_ok {program : ExceptT ε (Program Op Reply) α}
    {rest : α → ExceptT ε (Program Op Reply) β} {value : β} {s s' : σ}
    (h : RanFrom respond (program >>= rest).run s events (.ok value) s') :
    ∃ before after first between, events = before ++ after ∧
      RanFrom respond program.run s before (.ok first) between ∧
      RanFrom respond (rest first).run between after (.ok value) s' := by
  have hrun : RanFrom respond (program.run >>= ExceptT.bindCont rest) s events (.ok value) s' := h
  obtain ⟨before, after, first, between, rfl, hfirst, hrest⟩ := hrun.of_bind
  cases first with
  | error error => cases hrest.of_done.2.1
  | ok first => exact ⟨before, after, first, between, rfl, hfirst, hrest⟩

end Stateful

/-! ## Programs that fail with an error -/

section Fallible

/-- An error ends a fallible sequence. -/
theorem Ran.of_bind_e {program : ExceptT ε (Program Op Reply) α}
    {rest : α → ExceptT ε (Program Op Reply) β} {result : Except ε β}
    (h : Ran obeys (program >>= rest).run events result) :
    (∃ error, result = .error error ∧ Ran obeys program.run events (.error error)) ∨
      ∃ before after value, events = before ++ after ∧ Ran obeys program.run before (.ok value) ∧
        Ran obeys (rest value).run after result := by
  have hrun : Ran obeys (program.run >>= ExceptT.bindCont rest) events result := h
  obtain ⟨before, after, first, rfl, hfirst, hrest⟩ := hrun.of_bind
  cases first with
  | error error =>
      obtain ⟨rfl, rfl⟩ := hrest.of_done
      exact .inl ⟨error, rfl, (List.append_nil before).symm ▸ hfirst⟩
  | ok value => exact .inr ⟨before, after, value, rfl, hfirst, hrest⟩

/-- A fallible program that has its value. -/
theorem Ran.of_pure {value : α} {result : Except ε α}
    (h : Ran obeys (pure value : ExceptT ε (Program Op Reply) α).run events result) :
    events = [] ∧ result = .ok value :=
  Ran.of_done h

/-- A fallible program that has failed. -/
theorem Ran.of_throw {error : ε} {result : Except ε α}
    (h : Ran obeys (throw error : ExceptT ε (Program Op Reply) α).run events result) :
    events = [] ∧ result = .error error :=
  Ran.of_done h

end Fallible

end Program
