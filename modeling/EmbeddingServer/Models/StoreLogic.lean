import EmbeddingServer.Models.Store

/-!
# Reasoning about the store's code

The rules of `Program.wp` at the store's primitives, for code that runs alone. `Spec` asks
that every primitive changes the cache as `guar` allows and that the postcondition holds of
the result. The set of choices is a parameter: with all choices a specification covers every
failure, and with `Lucky` ones it says what happens when nothing fails.
-/

namespace EmbeddingServer

/-- No primitive fails from outside. -/
def Lucky (faults : Set Choice) : Prop :=
  ∀ choice ∈ faults, choice.fault = .none

/-- The specification of store code that runs alone. -/
abbrev Spec {α : Type} (faults : Set Choice) (guar : Cache → Cache → Prop) (body : StoreM α)
    (post : Except Error α → Cache → Prop) (s : Cache) : Prop :=
  Program.wpE respond faults Eq guar body post s

variable {faults : Set Choice} {guar : Cache → Cache → Prop} {α β : Type}

theorem spec_pure {value : α} {post : Except Error α → Cache → Prop} {s : Cache}
    (h : post (.ok value) s) : Spec faults guar (pure value) post s := by
  rintro s' rfl
  exact h

theorem spec_throw {error : Error} {post : Except Error α → Cache → Prop} {s : Cache}
    (h : post (.error error) s) : Spec faults guar (throw error) post s := by
  rintro s' rfl
  exact h

theorem spec_lift {result : Except Error α} {post : Except Error α → Cache → Prop} {s : Cache}
    (h : post result s) : Spec faults guar (lift result) post s := by
  rintro s' rfl
  exact h

theorem spec_bind {body : StoreM α} {rest : α → StoreM β} {post : Except Error β → Cache → Prop}
    {s : Cache}
    (h : Spec faults guar body
      (Program.andThen post fun value => Spec faults guar (rest value) post) s) :
    Spec faults guar (body >>= rest) post s :=
  Program.wp_e_bind (fun _ => rfl) h

theorem spec_attempt {body : StoreM α} {post : Except Error (Except Error α) → Cache → Prop}
    {s : Cache} (h : Spec faults guar body (fun result s' => post (.ok result) s') s) :
    Spec faults guar (attempt body) post s :=
  Program.wp_map h

theorem spec_fail_if {condition : Prop} [Decidable condition] {error : Error}
    {post : Except Error Unit → Cache → Prop} {s : Cache}
    (hfail : condition → post (.error error) s)
    (hok : ¬ condition → post (.ok ()) s) : Spec faults guar (failIf condition error) post s := by
  unfold failIf
  split
  · exact spec_throw (hfail ‹_›)
  · exact spec_pure (hok ‹_›)

/-- A primitive takes effect, or fails before or after it would. -/
theorem respond_cases (choice : Choice) (s : Cache) (op : FsOp) :
    respond choice s op = s.perform choice op ∨
    choice.fault ≠ .none ∧
      (respond choice s op = (.error .other, s) ∨
        respond choice s op = (.error .other, (s.perform choice op).2)) := by
  unfold respond
  split
  · exact Or.inr ⟨by simp_all, Or.inl rfl⟩
  · refine Or.inr ⟨by simp_all, ?_⟩
    cases op.transient with
    | true => exact Or.inl rfl
    | false => exact Or.inr rfl
  · exact Or.inl rfl

/-- A primitive: its effect and answer, and what is left if it fails before or after. -/
theorem spec_fs {op : FsOp} {post : Except Error op.Value → Cache → Prop} {s : Cache}
    (hrefl : guar s s) (hstay : ¬ Lucky faults → post (.error (.io .other)) s)
    (hrun : ∀ choice ∈ faults, guar s (s.perform choice op).2 ∧
      post ((s.perform choice op).1.mapError Error.io) (s.perform choice op).2)
    (hlate : ¬ Lucky faults → ∀ choice ∈ faults,
      post (.error (.io .other)) (s.perform choice op).2) :
    Spec faults guar (fs op) post s := by
  refine Program.wp_bind (fun _ => rfl) (Program.wp_primitive ?_)
  intro choice hchoice
  rcases respond_cases choice s op with hreply | ⟨hfault, hreply | hreply⟩
  · rw [hreply]
    refine ⟨(hrun choice hchoice).1, ?_⟩
    rintro s' rfl
    exact (hrun choice hchoice).2
  · rw [hreply]
    refine ⟨hrefl, ?_⟩
    rintro s' rfl
    exact hstay fun hlucky => hfault (hlucky choice hchoice)
  · rw [hreply]
    refine ⟨(hrun choice hchoice).1, ?_⟩
    rintro s' rfl
    exact hlate (fun hlucky => hfault (hlucky choice hchoice)) choice hchoice

/-- A primitive without effect. -/
theorem spec_query {op : FsOp} {post : Except Error op.Value → Cache → Prop} {s : Cache}
    (hpure : ∀ choice, (s.perform choice op).2 = s) (hrefl : guar s s)
    (hfail : ¬ Lucky faults → post (.error (.io .other)) s)
    (hok : ∀ choice, post ((s.perform choice op).1.mapError Error.io) s) :
    Spec faults guar (fs op) post s := by
  refine spec_fs hrefl hfail (fun choice _ => ?_) fun hbad choice _ => ?_
  · rw [hpure]
    exact ⟨hrefl, hok choice⟩
  · rw [hpure]
    exact hfail hbad

/-- `symlink_metadata` of a location. -/
theorem spec_symlink_metadata {loc : Loc} {post : Except Error FileKind → Cache → Prop} {s : Cache}
    (hrefl : guar s s) (hfail : ¬ Lucky faults → post (.error (.io .other)) s)
    (hnone : s.entry loc = none → post (.error (.io .notFound)) s)
    (hok : ∀ found, s.entry loc = some found → post (.ok found.kind) s) :
    Spec faults guar (symlinkMetadata loc) post s := by
  refine spec_bind (spec_query (fun _ => rfl) hrefl hfail fun choice => ?_)
  simp only [Cache.perform]
  cases hentry : s.entry loc with
  | none => exact spec_throw (hnone hentry)
  | some found => exact spec_pure (hok found hentry)

/-- Two specifications of the same code hold together. -/
theorem Spec.and {guar' : Cache → Cache → Prop} {body : StoreM α}
    {post post' : Except Error α → Cache → Prop} {s : Cache} (h : Spec faults guar body post s)
    (h' : Spec faults guar' body post' s) :
    Spec faults (fun s s' => guar s s' ∧ guar' s s') body
      (fun result s' => post result s' ∧ post' result s') s :=
  Program.wp.and h h'

/-- Consequence. -/
theorem Spec.mono {guar' : Cache → Cache → Prop} {body : StoreM α}
    {post post' : Except Error α → Cache → Prop} {s : Cache} (h : Spec faults guar body post s)
    (hguar : ∀ s s', guar s s' → guar' s s')
    (hpost : ∀ result s', post result s' → post' result s') :
    Spec faults guar' body post' s :=
  Program.wpE.mono h hguar hpost

/-- Consequence in the postcondition. -/
theorem Spec.imp {body : StoreM α} {post post' : Except Error α → Cache → Prop} {s : Cache}
    (h : Spec faults guar body post s) (hpost : ∀ result s', post result s' → post' result s') :
    Spec faults guar body post' s :=
  Program.wpE.imp h hpost

/-- The postcondition may use that the code got there by allowed steps. -/
theorem Spec.run {body : StoreM α} {post : Except Error α → Cache → Prop} {s : Cache}
    (h : Spec faults guar body post s) :
    Spec faults guar body (fun result s' => Transition.Run guar s s' ∧ post result s') s :=
  Program.wp.run h

/-- An invariant that the allowed steps keep holds throughout. -/
theorem Spec.keeps {inv : Cache → Prop} {body : StoreM α} {post : Except Error α → Cache → Prop}
    {s : Cache} (h : Spec faults guar body post s) (hstep : ∀ a b, guar a b → inv a → inv b)
    (hs : inv s) :
    Spec faults (fun _ b => inv b) body (fun result b => inv b ∧ post result b) s :=
  Program.wp.keeps h hstep hs

/-- Code whose result is not used. -/
theorem spec_discard {body : StoreM α} {s : Cache} (h : Spec faults guar body (fun _ _ => True) s) :
    Spec faults guar (body >>= fun _ => pure ()) (fun _ _ => True) s := by
  refine spec_bind (h.imp fun result a _ => ?_)
  cases result with
  | error error => trivial
  | ok value => exact spec_pure trivial

/-! ## Effects of the primitives on a cache -/

/-- Some paths were flushed, and nothing else changed. -/
def Synced (s s' : Cache) : Prop :=
  ∃ durable, s.durable ⊆ durable ∧ s' = { s with durable := durable }

theorem Synced.refl (s : Cache) : Synced s s :=
  ⟨s.durable, List.Subset.refl _, rfl⟩

theorem Synced.trans {a b c : Cache} (hab : Synced a b) (hbc : Synced b c) : Synced a c := by
  obtain ⟨d, hd, rfl⟩ := hab
  obtain ⟨e, he, rfl⟩ := hbc
  exact ⟨e, fun _ hmem => he (hd hmem), rfl⟩

theorem Synced.entry {s s' : Cache} (h : Synced s s') (loc : Loc) : s'.entry loc = s.entry loc := by
  obtain ⟨d, hd, rfl⟩ := h
  rfl

theorem Synced.marker {s s' : Cache} (h : Synced s s') : s'.marker = s.marker := by
  obtain ⟨d, hd, rfl⟩ := h
  rfl

theorem Synced.renames {s s' : Cache} (h : Synced s s') : s'.renames = s.renames := by
  obtain ⟨d, hd, rfl⟩ := h
  rfl

namespace Cache

/-- A rename that takes effect moves what stands at its source. -/
theorem rename_eq_some {s s' : Cache} {src dst : Loc} (h : s.rename src dst = some s') :
    ∃ moved, s.entry src = some moved ∧ replaceable (s.entry dst) moved = true ∧
      s' = { s with
        dirs := (s.dirs.erase src).insert dst moved
        durable := moveDurable s.durable src dst
        renames := (src, dst) :: s.renames } := by
  unfold rename at h
  split at h
  · cases h
  · rename_i moved hmoved
    split at h
    · rename_i hreplace
      exact ⟨moved, hmoved, hreplace, (Option.some.inj h).symm⟩
    · cases h

/-- Where everything stands after a rename. -/
theorem rename_entry {s s' : Cache} {src dst : Loc} (h : s.rename src dst = some s') (loc : Loc) :
    s'.entry loc =
      if loc = dst then s.entry src else if loc = src then none else s.entry loc := by
  obtain ⟨moved, hmoved, -, rfl⟩ := rename_eq_some h
  simp only [entry]
  split
  · rename_i heq
    subst heq
    rw [AList.lookup_insert]
    exact hmoved.symm
  · rename_i hdst
    rw [AList.lookup_insert_ne hdst]
    split
    · rename_i heq
      subst heq
      exact AList.lookup_erase _ _
    · rename_i hsrc
      exact AList.lookup_erase_ne hsrc

theorem rename_marker {s s' : Cache} {src dst : Loc} (h : s.rename src dst = some s') :
    s'.marker = s.marker := by
  obtain ⟨moved, -, -, rfl⟩ := rename_eq_some h
  rfl

theorem rename_renames {s s' : Cache} {src dst : Loc} (h : s.rename src dst = some s') :
    s'.renames = (src, dst) :: s.renames := by
  obtain ⟨moved, -, -, rfl⟩ := rename_eq_some h
  rfl

/-- A rename to a free place succeeds if there is something to move. -/
theorem rename_is_some {s : Cache} {src dst : Loc} (hsrc : (s.entry src).isSome)
    (hdst : s.entry dst = none) : (s.rename src dst).isSome := by
  obtain ⟨moved, hmoved⟩ := Option.isSome_iff_exists.mp hsrc
  simp [rename, hmoved, hdst, replaceable]

/-- There is always a free name in the quarantine directory. -/
theorem free_sequence_is_some (s : Cache) (key : String) (pid start : Nat) :
    (s.freeSequence key pid start).isSome := by
  rw [freeSequence, List.find?_isSome]
  by_contra hnone
  push Not at hnone
  -- Otherwise all candidates are taken, and they are more than there are entries.
  have hsubset : (List.range (s.dirs.keys.length + 1)).map (fun n =>
    Loc.quarantine key pid (start + n))
      ⊆ s.dirs.keys := by
    intro loc hloc
    obtain ⟨n, hn, rfl⟩ := List.mem_map.mp hloc
    have htaken := hnone (start + n) (List.mem_map.mpr ⟨n, hn, rfl⟩)
    by_contra habsent
    exact htaken (by simpa [entry, AList.lookup_eq_none, AList.mem_keys] using habsent)
  have hnodup : ((List.range (s.dirs.keys.length + 1)).map
      fun n => Loc.quarantine key pid (start + n)).Nodup := by
    refine List.Nodup.map ?_ List.nodup_range
    intro a b hab
    simpa using hab
  have hlength := (List.subperm_of_subset hnodup hsubset).length_le
  simp only [List.length_map, List.length_range] at hlength
  omega

/-- A free name is free. -/
theorem free_sequence_entry {s : Cache} {key : String} {pid start sequence : Nat}
    (h : s.freeSequence key pid start = some sequence) :
    s.entry (.quarantine key pid sequence) = none := by
  have := List.find?_some h
  simpa using this

end Cache

end EmbeddingServer
