import EmbeddingServer.Runtime.Readiness

/-!
# The gRPC health service

`spawn_grpc_server` publishes the readiness it finds, and `track_health` samples it and publishes
changes, until the server shuts down. A publication sets two statuses, one after the other. The
runtime goes on meanwhile, also between the first publication and the first sample, which is why
`grpc_health` cannot promise more than it does: as long as no sample differs from the first one, the
statuses are those of the spawn.
-/

namespace EmbeddingServer.GrpcHealth

/-- Program points of `track_health`. -/
inductive TrackPc where
  /-- `last_ready` is read next. -/
  | starting
  /-- The select; the last sample. -/
  | waiting (last : Bool)
  /-- The tick has come first; the readiness is sampled next. -/
  | sampling (last : Bool)
  /-- `publish_health`, the overall status first. -/
  | publishing (ready : Bool)
  | halfway (ready : Bool)
  /-- Behind the loop. -/
  | closing
  | closingHalfway
  | closed
  deriving DecidableEq, Repr

/-- The runtime, the signals to shut down, and the health service with its tracker. -/
structure World where
  runtime : Lifecycle.State
  stop : Bool
  pc : TrackPc
  overall : Bool
  embedding : Bool
  /-- Ghost: what was read of the readiness, the last reading first. -/
  readings : List Bool

/-- `state.application().readiness().is_ready()`. -/
def World.ready (w : World) : Bool :=
  w.runtime.readiness.isReady

/-- The task of the server is spawned. -/
def World.spawned (runtime : Lifecycle.State) : World where
  runtime := runtime
  stop := false
  pc := .starting
  overall := runtime.readiness.isReady
  embedding := runtime.readiness.isReady
  readings := [runtime.readiness.isReady]

/-- A step of the tracker. -/
inductive Track : World → World → Prop where
  | start {w : World} (h : w.pc = .starting) :
      Track w { w with pc := .waiting w.ready, readings := w.ready :: w.readings }
  -- The select is biased: the clock is looked at after the signals. A signal that comes between
  -- the tick and the sample has to wait for the next turn of the loop.
  | tick {w : World} {last : Bool} (h : w.pc = .waiting last) (hstop : w.stop = false) :
      Track w { w with pc := .sampling last }
  | same {w : World} {last : Bool} (h : w.pc = .sampling last) (hsame : w.ready = last) :
      Track w { w with pc := .waiting last, readings := w.ready :: w.readings }
  | changed {w : World} {last : Bool} (h : w.pc = .sampling last) (hchanged : w.ready ≠ last) :
      Track w { w with pc := .publishing w.ready, readings := w.ready :: w.readings }
  | publishOverall {w : World} {ready : Bool} (h : w.pc = .publishing ready) :
      Track w { w with pc := .halfway ready, overall := ready }
  | publishEmbedding {w : World} {ready : Bool} (h : w.pc = .halfway ready) :
      Track w { w with pc := .waiting ready, embedding := ready }
  | leave {w : World} {last : Bool} (h : w.pc = .waiting last) (hstop : w.stop = true) :
      Track w { w with pc := .closing }
  | closeOverall {w : World} (h : w.pc = .closing) :
      Track w { w with pc := .closingHalfway, overall := false }
  | closeEmbedding {w : World} (h : w.pc = .closingHalfway) :
      Track w { w with pc := .closed, embedding := false }

/-- A step of the tracker, of the runtime, or a signal. -/
inductive Step : World → World → Prop where
  | track {w w' : World} (h : Track w w') : Step w w'
  | runtime {w : World} {s : Lifecycle.State} (h : Lifecycle.Next w.runtime s) :
      Step w { w with runtime := s }
  | stop {w : World} : Step w { w with stop := true }

variable {w w' : World}

/-! ## What is published -/

/-- The status that readings leave, the last reading first: that of the spawn until a sample
differs from the one before it. -/
def published : List Bool → Bool
  | [] => false
  | [spawned] => spawned
  | [_, spawned] => spawned
  | last :: before :: earlier =>
      if last = before then published (before :: earlier) else last

/-- A sample like the one before it changes nothing. -/
theorem published_same {last first : Bool} {readings : List Bool} :
    published (last :: last :: first :: readings) = published (last :: first :: readings) := by
  show (if last = last then published (last :: first :: readings) else last) = _
  exact if_pos rfl

/-- A sample that differs is published. -/
theorem published_changed {last before first : Bool} {readings : List Bool} (h : last ≠ before) :
    published (last :: before :: first :: readings) = last :=
  if_neg h

/-- The status is the last sample unless all samples were the same and differ from the spawn. -/
theorem published_cases (last first : Bool) (readings : List Bool) :
    published (last :: first :: readings) = last ∨
      ∃ count, last :: first :: readings =
        List.replicate (count + 1) last ++ [published (last :: first :: readings)] := by
  induction readings generalizing last first with
  | nil => exact .inr ⟨0, rfl⟩
  | cons next readings ih =>
      by_cases h : last = first
      · rw [h, published_same]
        refine (ih first next).imp_right fun hstale => ?_
        obtain ⟨count, hcount⟩ := hstale
        refine ⟨count + 1, ?_⟩
        rw [List.replicate_succ, List.cons_append, ← hcount]
      · exact .inl (published_changed h)

/-- What the program point says about the statuses and the readings. -/
def Tracked (w : World) : Prop :=
  match w.pc with
  | .starting => ∃ spawned, w.readings = [spawned] ∧ w.overall = spawned ∧ w.embedding = spawned
  | .waiting last | .sampling last => ∃ first earlier, w.readings = last :: first :: earlier ∧
      w.overall = published w.readings ∧ w.embedding = published w.readings
  | .publishing ready => ∃ first earlier, w.readings = ready :: first :: earlier ∧
      published w.readings = ready
  | .halfway ready => ∃ first earlier, w.readings = ready :: first :: earlier ∧
      published w.readings = ready ∧ w.overall = ready
  | .closing => True
  | .closingHalfway => w.overall = false
  | .closed => w.overall = false ∧ w.embedding = false

theorem tracked_spawned (runtime : Lifecycle.State) : Tracked (.spawned runtime) :=
  ⟨_, rfl, rfl, rfl⟩

/-- The tracker keeps what its program point says. -/
theorem Tracked.track (hw : Tracked w) (h : Track w w') : Tracked w' := by
  unfold Tracked at hw
  cases h with
  | start h =>
      rw [h] at hw
      obtain ⟨spawned, hreadings, hoverall, hembedding⟩ := hw
      show ∃ first earlier, w.ready :: w.readings = w.ready :: first :: earlier ∧
        w.overall = published (w.ready :: w.readings) ∧
        w.embedding = published (w.ready :: w.readings)
      rw [hreadings]
      exact ⟨spawned, [], rfl, hoverall, hembedding⟩
  | tick h hstop =>
      rw [h] at hw
      exact hw
  | @same last h hsame =>
      rw [h] at hw
      obtain ⟨first, earlier, hreadings, hoverall, hembedding⟩ := hw
      show ∃ first earlier, w.ready :: w.readings = last :: first :: earlier ∧
        w.overall = published (w.ready :: w.readings) ∧
        w.embedding = published (w.ready :: w.readings)
      rw [hsame]
      rw [hreadings] at hoverall hembedding ⊢
      exact ⟨last, first :: earlier, rfl, by rw [published_same, hoverall],
        by rw [published_same, hembedding]⟩
  | @changed last h hchanged =>
      rw [h] at hw
      obtain ⟨first, earlier, hreadings, _, _⟩ := hw
      show ∃ first earlier, w.ready :: w.readings = w.ready :: first :: earlier ∧
        published (w.ready :: w.readings) = w.ready
      rw [hreadings]
      exact ⟨last, first :: earlier, rfl, published_changed hchanged⟩
  | @publishOverall ready h =>
      rw [h] at hw
      obtain ⟨first, earlier, hreadings, hpublished⟩ := hw
      exact ⟨first, earlier, hreadings, hpublished, rfl⟩
  | @publishEmbedding ready h =>
      rw [h] at hw
      obtain ⟨first, earlier, hreadings, hpublished, hoverall⟩ := hw
      exact ⟨first, earlier, hreadings, hoverall.trans hpublished.symm, hpublished.symm⟩
  | leave h hstop => trivial
  | closeOverall h => rfl
  | closeEmbedding h =>
      rw [h] at hw
      exact ⟨hw, rfl⟩

theorem tracked_preserved : Transition.Preserves Step Tracked := by
  intro w w' hw hstep
  cases hstep with
  | track h => exact hw.track h
  | runtime h => exact hw
  | stop => exact hw

/-! ## Shutdown -/

/-- Nothing is published behind the loop. -/
theorem closed_preserved : Transition.Preserves Step fun w =>
    w.pc = .closed ∧ w.overall = false ∧ w.embedding = false := by
  intro w w' hw hstep
  cases hstep with
  | track h =>
      cases h with
      | start h | tick h _ | same h _ | changed h _ | publishOverall h | publishEmbedding h
      | leave h _ | closeOverall h | closeEmbedding h => cases h.symm.trans hw.1
  | runtime h => exact hw
  | stop => exact hw

/-- The steps that the tracker has left once it has a signal. -/
def TrackPc.remaining : TrackPc → Nat
  | .sampling _ => 6
  | .publishing _ => 5
  | .halfway _ => 4
  | .starting => 4
  | .waiting _ => 3
  | .closing => 2
  | .closingHalfway => 1
  | .closed => 0

/-- With a signal, every step of the tracker is one of its last. -/
theorem Track.remaining_lt (h : Track w w') (hstop : w.stop = true) :
    w'.pc.remaining < w.pc.remaining ∧ w'.stop = true := by
  cases h with
  | tick h hopen => cases hstop.symm.trans hopen
  | same h _ =>
      rw [h]
      exact ⟨show 3 < 6 by decide, hstop⟩
  | start h | changed h _ | publishOverall h | publishEmbedding h | leave h _ | closeOverall h
  | closeEmbedding h =>
      rw [h]
      exact ⟨Nat.lt_succ_self _, hstop⟩

/-- The longest way to the end is that from a sample that differs. -/
theorem TrackPc.remaining_le (pc : TrackPc) : pc.remaining ≤ 6 := by
  cases pc <;> simp [TrackPc.remaining]

/-- With a signal, the tracker can always go on until it is done. -/
theorem exists_track (hstop : w.stop = true) (hpc : w.pc ≠ .closed) : ∃ w', Track w w' := by
  cases h : w.pc with
  | starting => exact ⟨_, .start h⟩
  | waiting last => exact ⟨_, .leave h hstop⟩
  | sampling last =>
      by_cases hsame : w.ready = last
      · exact ⟨_, .same h hsame⟩
      · exact ⟨_, .changed h hsame⟩
  | publishing ready => exact ⟨_, .publishOverall h⟩
  | halfway ready => exact ⟨_, .publishEmbedding h⟩
  | closing => exact ⟨_, .closeOverall h⟩
  | closingHalfway => exact ⟨_, .closeEmbedding h⟩
  | closed => exact absurd h hpc

/-- With a signal, the tracker is done after at most as many steps. -/
theorem exists_closed {count : Nat} (hcount : w.pc.remaining ≤ count) (hstop : w.stop = true) :
    ∃ w', Transition.Run Track w w' ∧ w'.pc = .closed := by
  induction count generalizing w with
  | zero =>
      refine ⟨w, .refl, ?_⟩
      cases h : w.pc <;> rw [h] at hcount <;> first | rfl | cases hcount
  | succ count ih =>
      by_cases hpc : w.pc = .closed
      · exact ⟨w, .refl, hpc⟩
      · obtain ⟨next, hnext⟩ := exists_track hstop hpc
        obtain ⟨hlt, hkept⟩ := hnext.remaining_lt hstop
        obtain ⟨last, hrun, hclosed⟩ := ih (by omega) hkept
        exact ⟨last, .head hnext hrun, hclosed⟩

/-! ## Behind the fence of the runtime -/

/-- No status that serves is shown or about to be. -/
structure Withheld (w : World) : Prop where
  overall : w.overall = false
  embedding : w.embedding = false
  publishing : w.pc ≠ .publishing true
  halfway : w.pc ≠ .halfway true

/-- Where readiness is withdrawn for good, so is what is shown. -/
theorem withheld_preserved : Transition.Preserves Step fun w =>
    (∀ s, Transition.Run Lifecycle.Next w.runtime s → s.readiness.isReady = false) ∧
      Withheld w := by
  intro w w' hw hstep
  obtain ⟨hfenced, hshown⟩ := hw
  have hready : w.ready = false := hfenced w.runtime .refl
  cases hstep with
  | runtime h =>
      refine ⟨fun s hrun => hfenced s (.head h hrun), ?_⟩
      exact ⟨hshown.overall, hshown.embedding, hshown.publishing, hshown.halfway⟩
  | stop => exact ⟨hfenced, hshown.overall, hshown.embedding, hshown.publishing, hshown.halfway⟩
  | track h =>
      cases h with
      | start h => exact ⟨hfenced, hshown.overall, hshown.embedding, nofun, nofun⟩
      | tick h hstop => exact ⟨hfenced, hshown.overall, hshown.embedding, nofun, nofun⟩
      | same h hsame => exact ⟨hfenced, hshown.overall, hshown.embedding, nofun, nofun⟩
      | changed h hchanged =>
          refine ⟨hfenced, hshown.overall, hshown.embedding, ?_, nofun⟩
          show TrackPc.publishing w.ready ≠ .publishing true
          rw [hready]
          exact nofun
      | @publishOverall ready h =>
          have hfalse : ready = false := by
            cases ready with
            | false => rfl
            | true => exact absurd h hshown.publishing
          refine ⟨hfenced, hfalse, hshown.embedding, nofun, ?_⟩
          show TrackPc.halfway ready ≠ .halfway true
          rw [hfalse]
          exact nofun
      | @publishEmbedding ready h =>
          have hfalse : ready = false := by
            cases ready with
            | false => rfl
            | true => exact absurd h hshown.halfway
          exact ⟨hfenced, hshown.overall, hfalse, nofun, nofun⟩
      | leave h hstop => exact ⟨hfenced, hshown.overall, hshown.embedding, nofun, nofun⟩
      | closeOverall h => exact ⟨hfenced, rfl, hshown.embedding, nofun, nofun⟩
      | closeEmbedding h => exact ⟨hfenced, hshown.overall, rfl, nofun, nofun⟩

/-- The runtime of a world has come from its own steps. -/
theorem runtime_run {runtime : Lifecycle.State} (h : Transition.Run Step w w')
    (hruntime : Transition.Run Lifecycle.Next runtime w.runtime) :
    Transition.Run Lifecycle.Next runtime w'.runtime := by
  induction h with
  | refl => exact hruntime
  | tail _ hstep ih =>
      cases hstep with
      | track h => cases h <;> exact ih
      | runtime h => exact ih.tail h
      | stop => exact ih

/-- What the health service shows, whatever the runtime does meanwhile. Between publications both
statuses agree, and they are the last sample unless every sample of the tracker was the same and
the spawn found the other value. Once the runtime is fenced off and the writes of the fence are
done, a service that is shown as not serving, with no publication to the contrary under way, stays
so; a tracker that sampled before them may still publish that it serves. With a signal to shut down
the tracker needs no one else to end, it takes at most six more steps, and then both statuses are
not serving for good. -/
theorem grpc_health {s : Lifecycle.State}
    (hreached : Transition.Run Lifecycle.Next Lifecycle.initial s)
    {w : World} (hrun : Transition.Run Step (.spawned s) w) :
    (∀ last, w.pc = .waiting last ∨ w.pc = .sampling last → w.overall = w.embedding ∧
      (w.overall = last ∨
        ∃ count, w.readings = List.replicate (count + 1) last ++ [w.overall])) ∧
    (w.runtime.admin = none → w.runtime.inner.registry.draining = true → Withheld w →
      ∀ w', Transition.Run Step w w' → w'.overall = false ∧ w'.embedding = false) ∧
    (w.stop = true → w.pc.remaining ≤ 6 ∧ (∀ w', Track w w' → w'.pc.remaining < w.pc.remaining) ∧
      ∃ w', Transition.Run Track w w' ∧ w'.pc = .closed) ∧
    (w.pc = .closed → ∀ w', Transition.Run Step w w' → w'.overall = false ∧
      w'.embedding = false) := by
  have hw := tracked_preserved.run hrun (tracked_spawned s)
  refine ⟨?_, ?_, ?_, ?_⟩
  · intro last hpc
    obtain ⟨first, earlier, hreadings, hoverall, hembedding⟩ : ∃ first earlier,
        w.readings = last :: first :: earlier ∧ w.overall = published w.readings ∧
        w.embedding = published w.readings := by
      unfold Tracked at hw
      rcases hpc with hpc | hpc <;> rwa [hpc] at hw
    refine ⟨hoverall.trans hembedding.symm, ?_⟩
    rw [hoverall, hreadings]
    exact published_cases last first earlier
  · intro hfree hdraining hwithheld w' hafter
    have hnow := Lifecycle.shown_preserved.run (runtime_run hrun hreached) Lifecycle.shown_initial
    -- A sample from now on says not ready, since the fence has been written.
    have hfenced : ∀ s', Transition.Run Lifecycle.Next w.runtime s' →
        s'.readiness.isReady = false := fun _ => hnow.never_ready hfree hdraining
    have hshown := (withheld_preserved.run hafter ⟨hfenced, hwithheld⟩).2
    exact ⟨hshown.overall, hshown.embedding⟩
  · intro hstop
    exact ⟨w.pc.remaining_le, fun w' h => (h.remaining_lt hstop).1,
      exists_closed (Nat.le_refl _) hstop⟩
  · intro hclosed w' hafter
    have hclosedNow : w.overall = false ∧ w.embedding = false := by
      unfold Tracked at hw
      rw [hclosed] at hw
      exact hw
    exact (closed_preserved.run hafter ⟨hclosed, hclosedNow⟩).2

/-- A model that was registered between the spawn and the first sample is not shown. -/
theorem grpc_health_stale : ∃ w, Transition.Run Step (.spawned Lifecycle.initial) w ∧
    w.pc = .waiting true ∧ w.overall = false ∧ w.embedding = false := by
  have h : Transition.Run Step (.spawned Lifecycle.initial) _ :=
    .single (.runtime ⟨.call 0, .begin rfl (.register "m")⟩)
  replace h := h.tail (.runtime ⟨.call 0, .enter rfl (.registered (by decide) false rfl)⟩)
  replace h := h.tail (.runtime ⟨.call 0, .write rfl⟩)
  replace h := h.tail (.runtime ⟨.call 0, .write rfl⟩)
  replace h := h.tail (.runtime ⟨.call 0, .write rfl⟩)
  replace h := h.tail (.runtime ⟨.call 0, .write rfl⟩)
  replace h := h.tail (.runtime ⟨.call 0, .leave rfl rfl⟩)
  replace h := h.tail (.track (.start rfl))
  have hagree := ((grpc_health .refl h).1 true (.inl rfl)).1
  exact ⟨_, h, rfl, rfl, hagree.symm.trans rfl⟩

end EmbeddingServer.GrpcHealth
