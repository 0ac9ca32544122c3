import EmbeddingServer.Lib.Exposition
import EmbeddingServer.Lib.Tally
import Mathlib.Algebra.Ring.Nat

/-!
# The metrics registry

`Metrics`, the two gauges that guards of the runtime raise and lower, and the text that is rendered
of them. A guard counts in two places, one after the other, and other threads may record between
the two. `metrics_exposition` is what a scraper reads: each series once, the requests and durations
of the operations recorded so far, and in the gauges the guards that are held.
-/

namespace EmbeddingServer.Metrics

/-- `u64::MAX`. -/
def maxWord : Nat :=
  2 ^ 64 - 1

/-- `Operation`. -/
inductive Operation where
  | embed
  | listModels
  | adminModel
  | health
  deriving DecidableEq, Repr

/-- `Operation::ALL`. -/
def Operation.all : List Operation :=
  [.embed, .listModels, .adminModel, .health]

/-- `Operation::label`. -/
def Operation.label : Operation → String
  | .embed => "embed"
  | .listModels => "list_models"
  | .adminModel => "admin_model"
  | .health => "health"

/-- `Outcome`. -/
inductive Outcome where
  | ok
  | invalid
  | overloaded
  | cancelled
  | failed
  deriving DecidableEq, Repr

/-- `Outcome::ALL`. -/
def Outcome.all : List Outcome :=
  [.ok, .invalid, .overloaded, .cancelled, .failed]

/-- `Outcome::label`. -/
def Outcome.label : Outcome → String
  | .ok => "ok"
  | .invalid => "invalid"
  | .overloaded => "overloaded"
  | .cancelled => "cancelled"
  | .failed => "failed"

/-- `GaugeKind`. -/
inductive GaugeKind where
  | active
  | queue
  deriving DecidableEq, Repr

/-- `Inner`. An entry that is absent counts as zero. -/
structure Inner where
  requests : Operation → Outcome → Nat
  durationsMicros : Operation → Nat
  queueDepth : Nat
  active : Nat

/-- `Inner::default`. -/
def Inner.default : Inner :=
  ⟨fun _ _ => 0, fun _ => 0, 0, 0⟩

/-- `u64::saturating_add`. -/
def saturatingAdd (left right : Nat) : Nat :=
  min (left + right) maxWord

/-- `Metrics::observe` of an operation that took some nanoseconds. The count wraps around. -/
def Inner.observe (inner : Inner) (operation : Operation) (outcome : Outcome) (elapsed : Nat) :
    Inner :=
  { inner with
    requests := Function.update inner.requests operation
      (Function.update (inner.requests operation) outcome
        ((inner.requests operation outcome + 1) % 2 ^ 64))
    durationsMicros := Function.update inner.durationsMicros operation
      (saturatingAdd (inner.durationsMicros operation) (min (elapsed / 1000) maxWord)) }

/-- The gauge of a kind. -/
def Inner.gauge (inner : Inner) : GaugeKind → Nat
  | .active => inner.active
  | .queue => inner.queueDepth

/-- `Metrics::increment_active` and `Metrics::increment_queue_depth`. -/
def Inner.increment (inner : Inner) : GaugeKind → Inner
  | .active => { inner with active := saturatingAdd inner.active 1 }
  | .queue => { inner with queueDepth := saturatingAdd inner.queueDepth 1 }

/-- `Metrics::decrement_active` and `Metrics::decrement_queue_depth`. -/
def Inner.decrement (inner : Inner) : GaugeKind → Inner
  | .active => { inner with active := inner.active - 1 }
  | .queue => { inner with queueDepth := inner.queueDepth - 1 }

/-! ## `Metrics::render` -/

/-- The series of the requests of an operation with an outcome. -/
def requestSeries (operation : Operation) (outcome : Outcome) : List Char :=
  "impossible_requests_total\x7boperation=\"".toList ++ operation.label.toList ++
    "\",outcome=\"".toList ++ outcome.label.toList ++ "\"\x7d".toList

/-- The series of the time an operation took. -/
def durationSeries (operation : Operation) : List Char :=
  "impossible_operation_duration_seconds_total\x7boperation=\"".toList ++
    operation.label.toList ++ "\"\x7d".toList

/-- The series of a gauge. -/
def gaugeSeries : GaugeKind → List Char
  | .active => "impossible_active_requests".toList
  | .queue => "impossible_queue_depth".toList

/-- `{micros / 1_000_000}.{micros % 1_000_000:06}`. -/
def secondsText (micros : Nat) : List Char :=
  let fraction := Nat.toDigits 10 (micros % 1000000)
  Nat.toDigits 10 (micros / 1000000) ++
    '.' :: (List.replicate (6 - fraction.length) '0' ++ fraction)

/-- A comment of the page. -/
def comment (text : String) : List Char :=
  '#' :: ' ' :: text.toList

/-- `Metrics::render`. -/
def Inner.render (inner : Inner) : List Char :=
  comment "HELP impossible_requests_total Completed requests." ++ ['\n'] ++
  comment "TYPE impossible_requests_total counter" ++ ['\n'] ++
  (Operation.all.flatMap fun operation => Outcome.all.flatMap fun outcome =>
    requestSeries operation outcome ++
      ' ' :: Nat.toDigits 10 (inner.requests operation outcome) ++ ['\n']) ++
  comment "HELP impossible_operation_duration_seconds_total Aggregate operation time." ++ ['\n'] ++
  comment "TYPE impossible_operation_duration_seconds_total counter" ++ ['\n'] ++
  (Operation.all.flatMap fun operation =>
    durationSeries operation ++ ' ' :: secondsText (inner.durationsMicros operation) ++ ['\n']) ++
  comment "TYPE impossible_queue_depth gauge" ++ ['\n'] ++
  gaugeSeries .queue ++ ' ' :: Nat.toDigits 10 inner.queueDepth ++ ['\n'] ++
  comment "TYPE impossible_active_requests gauge" ++ ['\n'] ++
  gaugeSeries .active ++ ' ' :: Nat.toDigits 10 inner.active ++ ['\n']

/-! ## Guards and recorders -/

/-- How far a `GaugeGuard` has come. -/
inductive Stage where
  /-- `fetch_add` is done. -/
  | counted
  /-- The guard is held. -/
  | held
  /-- `fetch_sub` is done. -/
  | uncounted
  | dropped
  deriving DecidableEq, Repr

/-- A `GaugeGuard`. -/
structure Guard where
  kind : GaugeKind
  stage : Stage
  deriving DecidableEq, Repr

/-- The registry, the atomic counters of the runtime and the guards made so far. -/
structure World where
  inner : Inner
  counters : GaugeKind → Nat
  made : Nat
  guards : Nat → Guard

/-- A runtime that has just started. -/
def World.fresh : World :=
  ⟨.default, fun _ => 0, 0, fun _ => ⟨.active, .dropped⟩⟩

/-- What a thread does under the lock of the registry, or to a counter. -/
inductive Event where
  | observe (operation : Operation) (outcome : Outcome) (elapsed : Nat)
  /-- The first half of `GaugeGuard::increment`. -/
  | count (kind : GaugeKind)
  /-- The second half. -/
  | raise (guard : Nat)
  /-- The first half of the drop. -/
  | uncount (guard : Nat)
  /-- The second half. -/
  | lower (guard : Nat)
  deriving DecidableEq, Repr

/-- A guard goes on. -/
def World.advance (w : World) (guard : Nat) (stage : Stage) : World :=
  { w with guards := Function.update w.guards guard ⟨(w.guards guard).kind, stage⟩ }

/-- One event, if it can happen. -/
def World.step (w : World) : Event → Option World
  | .observe operation outcome elapsed =>
      some { w with inner := w.inner.observe operation outcome elapsed }
  | .count kind =>
      some
        { w with
          counters := Function.update w.counters kind ((w.counters kind + 1) % 2 ^ 64)
          made := w.made + 1
          guards := Function.update w.guards w.made ⟨kind, .counted⟩ }
  | .raise guard =>
      if guard < w.made ∧ (w.guards guard).stage = .counted then
        some { w.advance guard .held with inner := w.inner.increment (w.guards guard).kind }
      else none
  | .uncount guard =>
      if guard < w.made ∧ (w.guards guard).stage = .held then
        let kind := (w.guards guard).kind
        some
          { w.advance guard .uncounted with
            counters := Function.update w.counters kind
              ((w.counters kind + (2 ^ 64 - 1)) % 2 ^ 64) }
      else none
  | .lower guard =>
      if guard < w.made ∧ (w.guards guard).stage = .uncounted then
        some { w.advance guard .dropped with inner := w.inner.decrement (w.guards guard).kind }
      else none

/-- Events that happen one after the other from the start. -/
inductive Recorded : List Event → World → Prop where
  | start : Recorded [] .fresh
  | record {events : List Event} {w w' : World} {event : Event} (h : Recorded events w)
      (hstep : w.step event = some w') : Recorded (events ++ [event]) w'

/-! ## What has been recorded -/

/-- The event is a request of the operation with the outcome. -/
def Event.isRequest (operation : Operation) (outcome : Outcome) : Event → Bool
  | .observe operation' outcome' _ => operation' = operation && outcome' = outcome
  | _ => false

/-- The microseconds that the event adds to an operation. -/
def Event.micros (operation : Operation) : Event → Nat
  | .observe operation' _ elapsed => if operation' = operation then elapsed / 1000 else 0
  | _ => 0

/-- What a guard weighs among those of a kind. -/
def Guard.weigh (kind : GaugeKind) (weight : Stage → Nat) (guard : Guard) : Nat :=
  if guard.kind = kind then weight guard.stage else 0

/-- The guards of a kind at some stages, for which the weight is one. -/
def World.tally (w : World) (kind : GaugeKind) (weight : Stage → Nat) : Nat :=
  Tally.tally w.made fun guard => (w.guards guard).weigh kind weight

/-- A guard that the atomic counter has. -/
def Stage.inCounter : Stage → Nat
  | .counted => 1
  | .held => 1
  | .uncounted => 0
  | .dropped => 0

/-- A guard that the gauge has. -/
def Stage.inGauge : Stage → Nat
  | .counted => 0
  | .held => 1
  | .uncounted => 1
  | .dropped => 0

/-- The registry says what was recorded. -/
structure Accurate (events : List Event) (w : World) : Prop where
  made_le : w.made ≤ events.length
  requests : ∀ operation outcome,
    w.inner.requests operation outcome = events.countP (Event.isRequest operation outcome)
  durations : ∀ operation,
    w.inner.durationsMicros operation =
      min (events.map (Event.micros operation)).sum maxWord
  gauges : ∀ kind, w.inner.gauge kind = w.tally kind Stage.inGauge
  counters : ∀ kind, w.counters kind = w.tally kind Stage.inCounter

section

variable {w w' : World} {events : List Event}

@[simp]
theorem Inner.gauge_observe (inner : Inner) (operation : Operation) (outcome : Outcome)
    (elapsed : Nat) (kind : GaugeKind) :
    (inner.observe operation outcome elapsed).gauge kind = inner.gauge kind := by
  cases kind <;> rfl

/-- Only the gauge of the kind is raised. -/
theorem Inner.gauge_increment (inner : Inner) (kind other : GaugeKind) :
    (inner.increment kind).gauge other =
      if other = kind then min (inner.gauge kind + 1) maxWord else inner.gauge other := by
  cases kind <;> cases other <;> rfl

/-- Only the gauge of the kind is lowered. -/
theorem Inner.gauge_decrement (inner : Inner) (kind other : GaugeKind) :
    (inner.decrement kind).gauge other =
      if other = kind then inner.gauge kind - 1 else inner.gauge other := by
  cases kind <;> cases other <;> rfl

@[simp]
theorem Inner.requests_increment (inner : Inner) (kind : GaugeKind) :
    (inner.increment kind).requests = inner.requests := by
  cases kind <;> rfl

@[simp]
theorem Inner.durations_micros_increment (inner : Inner) (kind : GaugeKind) :
    (inner.increment kind).durationsMicros = inner.durationsMicros := by
  cases kind <;> rfl

@[simp]
theorem Inner.requests_decrement (inner : Inner) (kind : GaugeKind) :
    (inner.decrement kind).requests = inner.requests := by
  cases kind <;> rfl

@[simp]
theorem Inner.durations_micros_decrement (inner : Inner) (kind : GaugeKind) :
    (inner.decrement kind).durationsMicros = inner.durationsMicros := by
  cases kind <;> rfl

/-- A guard that goes on changes the tally of its kind by the difference of the weights. -/
theorem World.tally_advance (w : World) {guard : Nat} (hguard : guard < w.made) (stage : Stage)
    (kind : GaugeKind) (weight : Stage → Nat) :
    (w.advance guard stage).tally kind weight + (w.guards guard).weigh kind weight =
      w.tally kind weight + Guard.weigh kind weight ⟨(w.guards guard).kind, stage⟩ := by
  have hself : (w.advance guard stage).guards guard = ⟨(w.guards guard).kind, stage⟩ :=
    Function.update_self ..
  rw [← hself]
  refine Tally.tally_change (fun other => (w.guards other).weigh kind weight)
    (fun other => ((w.advance guard stage).guards other).weigh kind weight) hguard ?_
  intro other hother
  have hsame : (w.advance guard stage).guards other = w.guards other :=
    Function.update_of_ne hother ..
  rw [hsame]

/-- A new guard. -/
theorem World.tally_count {kind : GaugeKind} (h : w.step (.count kind) = some w')
    (other : GaugeKind) (weight : Stage → Nat) :
    w'.tally other weight = w.tally other weight + Guard.weigh other weight ⟨kind, .counted⟩ := by
  cases h
  unfold World.tally
  dsimp only
  rw [Tally.tally_succ, Function.update_self]
  congr 1
  apply Tally.tally_congr
  intro guard hguard
  rw [Function.update_of_ne (by omega)]

/-- No tally of weights up to one is larger than the number of guards. -/
theorem World.tally_le (w : World) (kind : GaugeKind) {weight : Stage → Nat}
    (h : ∀ stage, weight stage ≤ 1) : w.tally kind weight ≤ w.made := by
  have hone : ∀ guard ∈ Finset.range w.made, (w.guards guard).weigh kind weight ≤ 1 := by
    intro guard _
    unfold Guard.weigh
    split
    · exact h _
    · exact Nat.zero_le _
  calc w.tally kind weight ≤ ∑ _guard ∈ Finset.range w.made, 1 := Finset.sum_le_sum hone
    _ = w.made := by rw [← Finset.card_eq_sum_ones, Finset.card_range]

/-- A guard weighs at most its tally. -/
theorem World.weight_le_tally (w : World) {guard : Nat} (hguard : guard < w.made)
    (weight : Stage → Nat) :
    weight (w.guards guard).stage ≤ w.tally (w.guards guard).kind weight := by
  have hle := Tally.le_tally
    (fun other => (w.guards other).weigh (w.guards guard).kind weight) hguard
  unfold Guard.weigh at hle
  rwa [if_pos rfl] at hle

theorem Stage.in_gauge_le (stage : Stage) : stage.inGauge ≤ 1 := by
  cases stage <;> decide

theorem Stage.in_counter_le (stage : Stage) : stage.inCounter ≤ 1 := by
  cases stage <;> decide

/-! ## Each event -/

/-- Saturation of the parts does not show in a saturated sum. -/
theorem saturating_add_min (left right : Nat) :
    saturatingAdd (min left maxWord) (min right maxWord) = min (left + right) maxWord := by
  unfold saturatingAdd
  omega

theorem accurate_fresh : Accurate [] .fresh :=
  { made_le := Nat.le_refl 0
    requests := fun _ _ => rfl
    durations := fun _ => rfl
    gauges := fun kind => by cases kind <;> rfl
    counters := fun _ => rfl }

/-- An operation is recorded. -/
theorem Accurate.observe (h : Accurate events w) {operation : Operation} {outcome : Outcome}
    {elapsed : Nat} (hshort : events.length + 1 < 2 ^ 64)
    (hstep : w.step (.observe operation outcome elapsed) = some w') :
    Accurate (events ++ [.observe operation outcome elapsed]) w' := by
  cases hstep
  refine ⟨?_, ?_, ?_, ?_, ?_⟩
  · have hmade := h.made_le
    rw [List.length_append, List.length_singleton]
    show w.made ≤ events.length + 1
    omega
  · intro operation' outcome'
    have hcount := h.requests operation outcome
    have hle : events.countP (Event.isRequest operation outcome) ≤ events.length :=
      List.countP_le_length
    rw [List.countP_append, List.countP_singleton]
    show (w.inner.observe operation outcome elapsed).requests operation' outcome' = _
    unfold Inner.observe Event.isRequest
    dsimp only
    by_cases hoperation : operation' = operation
    · rw [hoperation, Function.update_self]
      by_cases houtcome : outcome' = outcome
      · rw [houtcome, Function.update_self, hcount]
        simp only [decide_true, Bool.and_self, if_true]
        exact Nat.mod_eq_of_lt (by omega)
      · rw [Function.update_of_ne houtcome, h.requests]
        simp only [decide_true, decide_eq_false (Ne.symm houtcome), Bool.and_false]
        rfl
    · rw [Function.update_of_ne hoperation, h.requests]
      simp only [decide_eq_false (Ne.symm hoperation), Bool.false_and]
      rfl
  · intro operation'
    rw [List.map_append, List.sum_append, List.map_singleton, List.sum_singleton]
    show (w.inner.observe operation outcome elapsed).durationsMicros operation' = _
    unfold Inner.observe Event.micros
    dsimp only
    by_cases hoperation : operation' = operation
    · rw [hoperation, Function.update_self, h.durations, saturating_add_min, if_pos rfl]
      rfl
    · rw [Function.update_of_ne hoperation, h.durations, if_neg (Ne.symm hoperation), Nat.add_zero]
      rfl
  · intro kind
    show (w.inner.observe operation outcome elapsed).gauge kind = w.tally kind Stage.inGauge
    rw [Inner.gauge_observe, h.gauges]
  · exact h.counters

/-- A request count and a duration do not change with a guard. -/
theorem Accurate.of_guard (h : Accurate events w) {event : Event}
    (hrequest : ∀ operation outcome, event.isRequest operation outcome = false)
    (hmicros : ∀ operation, event.micros operation = 0)
    (hrequests : w'.inner.requests = w.inner.requests)
    (hdurations : w'.inner.durationsMicros = w.inner.durationsMicros)
    (hmade : w'.made ≤ w.made + 1)
    (hgauges : ∀ kind, w'.inner.gauge kind = w'.tally kind Stage.inGauge)
    (hcounters : ∀ kind, w'.counters kind = w'.tally kind Stage.inCounter) :
    Accurate (events ++ [event]) w' := by
  have hold := h.made_le
  refine ⟨?_, ?_, ?_, hgauges, hcounters⟩
  · rw [List.length_append, List.length_singleton]
    omega
  · intro operation outcome
    rw [hrequests, h.requests, List.countP_append, List.countP_singleton, hrequest]
    rfl
  · intro operation
    rw [hdurations, h.durations, List.map_append, List.sum_append, List.map_singleton,
      List.sum_singleton, hmicros, Nat.add_zero]

/-- A guard is made and counted. -/
theorem Accurate.count (h : Accurate events w) {kind : GaugeKind}
    (hshort : events.length + 1 < 2 ^ 64) (hstep : w.step (.count kind) = some w') :
    Accurate (events ++ [.count kind]) w' := by
  have htally := World.tally_count hstep
  have hmade := h.made_le
  cases hstep
  refine h.of_guard (fun _ _ => rfl) (fun _ => rfl) rfl rfl (Nat.le_refl _) ?_ ?_
  · intro other
    have hgauge := htally other Stage.inGauge
    have hzero : Guard.weigh other Stage.inGauge ⟨kind, .counted⟩ = 0 := by
      unfold Guard.weigh
      split <;> rfl
    rw [hgauge, hzero]
    exact h.gauges other
  · intro other
    have hcounter := htally other Stage.inCounter
    have hle := w.tally_le kind Stage.in_counter_le
    rw [hcounter]
    dsimp only
    by_cases heq : other = kind
    · have hone : Guard.weigh kind Stage.inCounter ⟨kind, .counted⟩ = 1 := by
        unfold Guard.weigh
        exact if_pos rfl
      rw [heq, Function.update_self, h.counters, hone]
      exact Nat.mod_eq_of_lt (by omega)
    · have hzero : Guard.weigh other Stage.inCounter ⟨kind, .counted⟩ = 0 := by
        unfold Guard.weigh
        exact if_neg (Ne.symm heq)
      rw [Function.update_of_ne heq, h.counters, hzero, Nat.add_zero]

/-- The tally of another kind does not change when a guard goes on. -/
theorem World.tally_advance_other (w : World) {guard : Nat} (hguard : guard < w.made)
    (stage : Stage) {kind : GaugeKind} (hkind : kind ≠ (w.guards guard).kind)
    (weight : Stage → Nat) : (w.advance guard stage).tally kind weight = w.tally kind weight := by
  have hchange := w.tally_advance hguard stage kind weight
  unfold Guard.weigh at hchange
  rw [if_neg (Ne.symm hkind), if_neg (Ne.symm hkind)] at hchange
  omega

/-- The tally of its own kind. -/
theorem World.tally_advance_self (w : World) {guard : Nat} (hguard : guard < w.made)
    (stage : Stage) (weight : Stage → Nat) :
    (w.advance guard stage).tally (w.guards guard).kind weight + weight (w.guards guard).stage =
      w.tally (w.guards guard).kind weight + weight stage := by
  have hchange := w.tally_advance hguard stage (w.guards guard).kind weight
  unfold Guard.weigh at hchange
  rwa [if_pos rfl, if_pos rfl] at hchange

/-- Where both stages weigh the same, no tally changes. -/
theorem World.tally_advance_same (w : World) {guard : Nat} (hguard : guard < w.made)
    {stage : Stage} {weight : Stage → Nat} (hsame : weight (w.guards guard).stage = weight stage)
    (kind : GaugeKind) : (w.advance guard stage).tally kind weight = w.tally kind weight := by
  by_cases hkind : kind = (w.guards guard).kind
  · have hself := w.tally_advance_self hguard stage weight
    rw [hkind]
    omega
  · exact w.tally_advance_other hguard stage hkind weight

/-- A guard is shown in the gauge. -/
theorem Accurate.raise (h : Accurate events w) {guard : Nat}
    (hshort : events.length + 1 < 2 ^ 64) (hstep : w.step (.raise guard) = some w') :
    Accurate (events ++ [.raise guard]) w' := by
  unfold World.step at hstep
  dsimp only at hstep
  split at hstep
  · rename_i henabled
    obtain ⟨hguard, hstage⟩ := henabled
    cases hstep
    have hmade := h.made_le
    refine h.of_guard (fun _ _ => rfl) (fun _ => rfl) (Inner.requests_increment ..)
      (Inner.durations_micros_increment ..) (Nat.le_succ _) ?_ ?_
    · intro kind
      show (w.inner.increment (w.guards guard).kind).gauge kind =
        (w.advance guard .held).tally kind Stage.inGauge
      rw [Inner.gauge_increment]
      by_cases hkind : kind = (w.guards guard).kind
      · have hself := w.tally_advance_self hguard .held Stage.inGauge
        have hle := w.tally_le (w.guards guard).kind Stage.in_gauge_le
        have hbefore : Stage.inGauge (w.guards guard).stage = 0 := by
          rw [hstage]
          rfl
        have hafter : Stage.inGauge .held = 1 := rfl
        rw [if_pos hkind, hkind, h.gauges]
        unfold maxWord
        omega
      · rw [if_neg hkind, w.tally_advance_other hguard .held hkind, h.gauges]
    · intro kind
      have hsame : Stage.inCounter (w.guards guard).stage = Stage.inCounter .held := by
        rw [hstage]
        rfl
      show w.counters kind = (w.advance guard .held).tally kind Stage.inCounter
      rw [w.tally_advance_same hguard hsame, h.counters]
  · cases hstep

/-- The counter of a guard that is held is not zero. -/
theorem Accurate.counter_pos (h : Accurate events w) {guard : Nat} (hguard : guard < w.made)
    (hstage : (w.guards guard).stage = .held) : 0 < w.counters (w.guards guard).kind := by
  have hweight := w.weight_le_tally hguard Stage.inCounter
  rw [hstage] at hweight
  rw [h.counters]
  exact hweight

/-- A guard that is dropped leaves the counter. -/
theorem Accurate.uncount (h : Accurate events w) {guard : Nat}
    (hshort : events.length + 1 < 2 ^ 64) (hstep : w.step (.uncount guard) = some w') :
    Accurate (events ++ [.uncount guard]) w' := by
  unfold World.step at hstep
  dsimp only at hstep
  split at hstep
  · rename_i henabled
    obtain ⟨hguard, hstage⟩ := henabled
    cases hstep
    have hmade := h.made_le
    refine h.of_guard (fun _ _ => rfl) (fun _ => rfl) rfl rfl (Nat.le_succ _) ?_ ?_
    · intro kind
      have hsame : Stage.inGauge (w.guards guard).stage = Stage.inGauge .uncounted := by
        rw [hstage]
        rfl
      show w.inner.gauge kind = (w.advance guard .uncounted).tally kind Stage.inGauge
      rw [w.tally_advance_same hguard hsame, h.gauges]
    · intro kind
      show Function.update w.counters (w.guards guard).kind _ kind =
        (w.advance guard .uncounted).tally kind Stage.inCounter
      by_cases hkind : kind = (w.guards guard).kind
      · have hself := w.tally_advance_self hguard .uncounted Stage.inCounter
        have hle := w.tally_le (w.guards guard).kind Stage.in_counter_le
        have hbefore : Stage.inCounter (w.guards guard).stage = 1 := by
          rw [hstage]
          rfl
        have hafter : Stage.inCounter .uncounted = 0 := rfl
        rw [hkind, Function.update_self, h.counters]
        omega
      · rw [Function.update_of_ne hkind, w.tally_advance_other hguard .uncounted hkind, h.counters]
  · cases hstep

/-- A dropped guard leaves the gauge. -/
theorem Accurate.lower (h : Accurate events w) {guard : Nat}
    (hstep : w.step (.lower guard) = some w') : Accurate (events ++ [.lower guard]) w' := by
  unfold World.step at hstep
  dsimp only at hstep
  split at hstep
  · rename_i henabled
    obtain ⟨hguard, hstage⟩ := henabled
    cases hstep
    have hmade := h.made_le
    refine h.of_guard (fun _ _ => rfl) (fun _ => rfl) (Inner.requests_decrement ..)
      (Inner.durations_micros_decrement ..) (Nat.le_succ _) ?_ ?_
    · intro kind
      show (w.inner.decrement (w.guards guard).kind).gauge kind =
        (w.advance guard .dropped).tally kind Stage.inGauge
      rw [Inner.gauge_decrement]
      by_cases hkind : kind = (w.guards guard).kind
      · have hself := w.tally_advance_self hguard .dropped Stage.inGauge
        have hbefore : Stage.inGauge (w.guards guard).stage = 1 := by
          rw [hstage]
          rfl
        have hafter : Stage.inGauge .dropped = 0 := rfl
        rw [if_pos hkind, hkind, h.gauges]
        omega
      · rw [if_neg hkind, w.tally_advance_other hguard .dropped hkind, h.gauges]
    · intro kind
      have hsame : Stage.inCounter (w.guards guard).stage = Stage.inCounter .dropped := by
        rw [hstage]
        rfl
      show w.counters kind = (w.advance guard .dropped).tally kind Stage.inCounter
      rw [w.tally_advance_same hguard hsame, h.counters]
  · cases hstep

/-- Every event keeps the registry accurate. -/
theorem Accurate.step (h : Accurate events w) {event : Event}
    (hshort : events.length + 1 < 2 ^ 64) (hstep : w.step event = some w') :
    Accurate (events ++ [event]) w' := by
  cases event with
  | observe operation outcome elapsed => exact h.observe hshort hstep
  | count kind => exact h.count hshort hstep
  | raise guard => exact h.raise hshort hstep
  | uncount guard => exact h.uncount hshort hstep
  | lower guard => exact h.lower hstep

/-- What was recorded is in the registry. -/
theorem Recorded.accurate (h : Recorded events w) (hshort : events.length < 2 ^ 64) :
    Accurate events w := by
  induction h with
  | start => exact accurate_fresh
  | record _ hstep ih =>
      rw [List.length_append, List.length_singleton] at hshort
      exact (ih (by omega)).step hshort hstep

/-! ## The page -/

/-- The comment as a line. -/
def commentLine (text : String) : Exposition.Line :=
  .comment (' ' :: text.toList)

/-- The lines of the page. -/
def Inner.lines (inner : Inner) : List Exposition.Line :=
  [commentLine "HELP impossible_requests_total Completed requests.",
    commentLine "TYPE impossible_requests_total counter"] ++
  (Operation.all.flatMap fun operation => Outcome.all.map fun outcome => .sample
    ⟨requestSeries operation outcome, Nat.toDigits 10 (inner.requests operation outcome)⟩) ++
  [commentLine "HELP impossible_operation_duration_seconds_total Aggregate operation time.",
    commentLine "TYPE impossible_operation_duration_seconds_total counter"] ++
  (Operation.all.map fun operation => .sample
    ⟨durationSeries operation, secondsText (inner.durationsMicros operation)⟩) ++
  [commentLine "TYPE impossible_queue_depth gauge",
    .sample ⟨gaugeSeries .queue, Nat.toDigits 10 inner.queueDepth⟩,
    commentLine "TYPE impossible_active_requests gauge",
    .sample ⟨gaugeSeries .active, Nat.toDigits 10 inner.active⟩]

/-- The series of the page, in its order. -/
def allSeries : List (List Char) :=
  (Operation.all.flatMap fun operation => Outcome.all.map fun outcome =>
    requestSeries operation outcome) ++
  Operation.all.map durationSeries ++ [gaugeSeries .queue, gaugeSeries .active]

theorem Inner.series_lines (inner : Inner) :
    (inner.lines.filterMap Exposition.Line.sample?).map Exposition.Sample.series = allSeries :=
  rfl

theorem write_comment_line (text : String) : (commentLine text).write = comment text :=
  rfl

theorem write_sample (series value : List Char) :
    (Exposition.Line.sample ⟨series, value⟩).write = series ++ ' ' :: value :=
  rfl

/-- `Metrics::render` writes these lines. -/
theorem Inner.render_eq (inner : Inner) : inner.render = Exposition.write inner.lines := by
  unfold Inner.render Inner.lines Exposition.write
  simp only [List.flatMap_append, List.flatMap_cons, List.flatMap_nil, List.flatMap_assoc,
    List.flatMap_map, write_comment_line, write_sample, List.append_nil, List.append_assoc]

/-- Texts by numbers, which are quick to compare. -/
def checksum (text : List Char) : Nat :=
  text.foldl (fun sum c => sum * 128 + c.toNat) 0

/-- No series is rendered twice, and each is a name. -/
theorem all_series_names : allSeries.Nodup ∧ ∀ series ∈ allSeries,
    series ≠ [] ∧ series.head? ≠ some '#' ∧ ' ' ∉ series ∧ '\n' ∉ series := by
  -- The kernel would decode every literal again for each comparison.
  have hrequests : "impossible_requests_total\x7boperation=\"".toList = _ := String.toList_ofList
  have houtcome : "\",outcome=\"".toList = _ := String.toList_ofList
  have hduration : "impossible_operation_duration_seconds_total\x7boperation=\"".toList = _ :=
    String.toList_ofList
  have hclose : "\"\x7d".toList = _ := String.toList_ofList
  have hqueue : "impossible_queue_depth".toList = _ := String.toList_ofList
  have hactive : "impossible_active_requests".toList = _ := String.toList_ofList
  have hembed : "embed".toList = _ := String.toList_ofList
  have hlist : "list_models".toList = _ := String.toList_ofList
  have hadmin : "admin_model".toList = _ := String.toList_ofList
  have hhealth : "health".toList = _ := String.toList_ofList
  have hok : "ok".toList = _ := String.toList_ofList
  have hinvalid : "invalid".toList = _ := String.toList_ofList
  have hoverloaded : "overloaded".toList = _ := String.toList_ofList
  have hcancelled : "cancelled".toList = _ := String.toList_ofList
  have hfailed : "failed".toList = _ := String.toList_ofList
  unfold allSeries requestSeries durationSeries gaugeSeries Operation.all Outcome.all
  simp only [List.flatMap_cons, List.flatMap_nil, List.map_cons, List.map_nil, Operation.label,
    Outcome.label, hrequests, houtcome, hduration, hclose, hqueue, hactive, hembed, hlist, hadmin,
    hhealth, hok, hinvalid, hoverloaded, hcancelled, hfailed]
  exact ⟨List.Nodup.of_map checksum (by decide +kernel), by decide +kernel⟩

theorem newline_not_mem_digits (value : Nat) : '\n' ∉ Nat.toDigits 10 value := by
  intro h
  have hdigit := Nat.isDigit_of_mem_toDigits (by decide) (by decide) h
  cases hdigit

/-- The text of a duration has a value and six places. -/
theorem seconds_text_reads (micros : Nat) : ∃ whole fraction,
    secondsText micros = whole ++ '.' :: fraction ∧ fraction.length = 6 ∧
      (∀ c ∈ whole ++ fraction, c.isDigit = true) ∧
      Nat.ofDigitChars 10 (whole ++ fraction) 0 = micros := by
  have hlength : (Nat.toDigits 10 (micros % 1000000)).length ≤ 6 := by
    rw [Nat.length_toDigits_le_iff (by decide) (by decide)]
    exact Nat.mod_lt _ (by decide)
  refine ⟨_, _, rfl, ?_, ?_, ?_⟩
  · rw [List.length_append, List.length_replicate]
    omega
  · intro c hc
    rw [List.mem_append, List.mem_append] at hc
    rcases hc with hc | hc | hc
    · exact Nat.isDigit_of_mem_toDigits (by decide) (by decide) hc
    · rw [(List.mem_replicate.mp hc).2]
      rfl
    · exact Nat.isDigit_of_mem_toDigits (by decide) (by decide) hc
  · have hpad : 6 - (Nat.toDigits 10 (micros % 1000000)).length +
        (Nat.toDigits 10 (micros % 1000000)).length = 6 := by omega
    rw [Nat.ofDigitChars_append, Nat.ofDigitChars_append, Nat.ofDigitChars_replicate_zero,
      Nat.ofDigitChars_ten_toDigits, Nat.ofDigitChars_eq_ofDigitChars_zero,
      Nat.ofDigitChars_ten_toDigits, ← Nat.mul_assoc, ← Nat.pow_add, Nat.add_comm _ (6 - _), hpad]
    exact Nat.div_add_mod micros 1000000

theorem newline_not_mem_seconds_text (micros : Nat) : '\n' ∉ secondsText micros := by
  intro h
  obtain ⟨whole, fraction, htext, _, hdigits, _⟩ := seconds_text_reads micros
  rw [htext, List.mem_append, List.mem_cons] at h
  rcases h with h | h | h
  · cases hdigits _ (List.mem_append_left _ h)
  · cases h
  · cases hdigits _ (List.mem_append_right _ h)

/-- A comment of one line. -/
theorem comment_line_readable {text : List Char} (h : '\n' ∉ text) :
    (commentLine (String.ofList text)).Readable := by
  show '\n' ∉ ' ' :: (String.ofList text).toList
  rw [String.toList_ofList, List.mem_cons, not_or]
  exact ⟨by decide, h⟩

/-- Every line of the page can be read. -/
theorem Inner.lines_readable (inner : Inner) : ∀ line ∈ inner.lines, line.Readable := by
  have hname : ∀ series ∈ allSeries, Exposition.Name series := fun series hseries =>
    have h := all_series_names.2 series hseries
    ⟨h.1, h.2.1, h.2.2.1, h.2.2.2⟩
  have hseries : ∀ entry, Exposition.Line.sample entry ∈ inner.lines →
      Exposition.Name entry.series := by
    intro entry hentry
    apply hname
    rw [← inner.series_lines]
    exact List.mem_map_of_mem (List.mem_filterMap.mpr ⟨_, hentry, rfl⟩)
  intro line hline
  have hmem := hline
  unfold Inner.lines at hmem
  simp only [List.mem_append, List.mem_cons, List.not_mem_nil, or_false, List.mem_flatMap,
    List.mem_map] at hmem
  obtain ((((rfl | rfl) | ⟨operation, _, outcome, _, rfl⟩) | (rfl | rfl)) | ⟨operation, _, rfl⟩) |
    (rfl | rfl | rfl | rfl) := hmem
  · exact comment_line_readable (by decide)
  · exact comment_line_readable (by decide)
  · exact ⟨hseries _ hline, newline_not_mem_digits _⟩
  · exact comment_line_readable (by decide)
  · exact comment_line_readable (by decide)
  · exact ⟨hseries _ hline, newline_not_mem_seconds_text _⟩
  · exact comment_line_readable (by decide)
  · exact ⟨hseries _ hline, newline_not_mem_digits _⟩
  · exact comment_line_readable (by decide)
  · exact ⟨hseries _ hline, newline_not_mem_digits _⟩

theorem Operation.mem_all (operation : Operation) : operation ∈ Operation.all := by
  cases operation <;> decide

theorem Outcome.mem_all (outcome : Outcome) : outcome ∈ Outcome.all := by
  cases outcome <;> decide

/-- The sample of an operation with an outcome. -/
theorem Inner.request_mem (inner : Inner) (operation : Operation) (outcome : Outcome) :
    .sample ⟨requestSeries operation outcome,
      Nat.toDigits 10 (inner.requests operation outcome)⟩ ∈ inner.lines := by
  unfold Inner.lines
  simp only [List.mem_append]
  refine .inl (.inl (.inl (.inr ?_)))
  rw [List.mem_flatMap]
  exact ⟨operation, operation.mem_all, List.mem_map.mpr ⟨outcome, outcome.mem_all, rfl⟩⟩

/-- The sample of the time of an operation. -/
theorem Inner.duration_mem (inner : Inner) (operation : Operation) :
    .sample ⟨durationSeries operation, secondsText (inner.durationsMicros operation)⟩ ∈
      inner.lines := by
  unfold Inner.lines
  simp only [List.mem_append]
  exact .inl (.inr (List.mem_map.mpr ⟨operation, operation.mem_all, rfl⟩))

/-- The sample of a gauge. -/
theorem Inner.gauge_mem (inner : Inner) (kind : GaugeKind) :
    .sample ⟨gaugeSeries kind, Nat.toDigits 10 (inner.gauge kind)⟩ ∈ inner.lines := by
  unfold Inner.lines
  rw [List.mem_append]
  right
  cases kind with
  | active => exact List.mem_cons_of_mem _ (List.mem_cons_of_mem _ (List.mem_cons_of_mem _
      (List.mem_singleton_self _)))
  | queue => exact List.mem_cons_of_mem _ List.mem_cons_self

/-- A sample of the page is found under its series. -/
theorem Inner.lookup_render (inner : Inner) {series value : List Char}
    (h : .sample ⟨series, value⟩ ∈ inner.lines) :
    Exposition.lookup inner.render series = some value := by
  rw [inner.render_eq]
  refine Exposition.lookup_write inner.lines_readable ?_ h
  rw [inner.series_lines]
  exact all_series_names.1

/-- What a scraper reads. The page has each series once and no other. The requests of an operation
with an outcome are those completed so far, the time of an operation is the sum of theirs in
microseconds, up to what a word holds, and a gauge is the number of guards whose holders have it,
or have not yet put it down. A guard that is dropped finds the counter above zero. -/
theorem metrics_exposition {events : List Event} {w : World} (h : Recorded events w)
    (hshort : events.length < 2 ^ 64) :
    (Exposition.read w.inner.render).map Exposition.Sample.series = allSeries ∧
    allSeries.Nodup ∧
    (∀ operation outcome,
      Exposition.lookup w.inner.render (requestSeries operation outcome) =
        some (Nat.toDigits 10 (events.countP (Event.isRequest operation outcome)))) ∧
    (∀ operation, ∃ whole fraction,
      Exposition.lookup w.inner.render (durationSeries operation) =
        some (whole ++ '.' :: fraction) ∧ fraction.length = 6 ∧
      Nat.ofDigitChars 10 (whole ++ fraction) 0 =
        min (events.map (Event.micros operation)).sum maxWord) ∧
    (∀ kind, Exposition.lookup w.inner.render (gaugeSeries kind) =
      some (Nat.toDigits 10 (w.tally kind Stage.inGauge))) ∧
    ∀ guard, (w.step (.uncount guard)).isSome = true →
      0 < w.counters (w.guards guard).kind := by
  have haccurate := h.accurate hshort
  refine ⟨?_, all_series_names.1, ?_, ?_, ?_, ?_⟩
  · rw [w.inner.render_eq, Exposition.read_write w.inner.lines_readable, w.inner.series_lines]
  · intro operation outcome
    rw [← haccurate.requests]
    exact w.inner.lookup_render (w.inner.request_mem operation outcome)
  · intro operation
    obtain ⟨whole, fraction, htext, hlength, _, hvalue⟩ :=
      seconds_text_reads (w.inner.durationsMicros operation)
    refine ⟨whole, fraction, ?_, hlength, ?_⟩
    · rw [← htext]
      exact w.inner.lookup_render (w.inner.duration_mem operation)
    · exact hvalue.trans (haccurate.durations operation)
  · intro kind
    rw [← haccurate.gauges]
    exact w.inner.lookup_render (w.inner.gauge_mem kind)
  · intro guard hstep
    unfold World.step at hstep
    dsimp only at hstep
    split at hstep
    · rename_i henabled
      exact haccurate.counter_pos henabled.1 henabled.2
    · cases hstep

/-- Two requests of which one still holds its guard. -/
theorem metrics_exposition_two : ∃ w, Recorded
      [.count .active, .raise 0, .count .active, .observe .embed .ok 1500000, .raise 1,
        .uncount 0, .lower 0] w ∧
    Exposition.lookup w.inner.render (gaugeSeries .active) = some ['1'] ∧
    Exposition.lookup w.inner.render (requestSeries .embed .ok) = some ['1'] := by
  have hfirst : Recorded [.count .active] _ := .record .start rfl
  have hraised : Recorded [.count .active, .raise 0] _ := .record hfirst rfl
  have hsecond : Recorded [.count .active, .raise 0, .count .active] _ := .record hraised rfl
  have hdone : Recorded [.count .active, .raise 0, .count .active, .observe .embed .ok 1500000] _ :=
    .record hsecond rfl
  have hshown : Recorded [.count .active, .raise 0, .count .active, .observe .embed .ok 1500000,
      .raise 1] _ := .record hdone rfl
  have hdropped : Recorded [.count .active, .raise 0, .count .active, .observe .embed .ok 1500000,
      .raise 1, .uncount 0] _ := .record hshown rfl
  have hrun : Recorded [.count .active, .raise 0, .count .active, .observe .embed .ok 1500000,
      .raise 1, .uncount 0, .lower 0] _ := .record hdropped rfl
  have hpage := metrics_exposition hrun (by decide)
  exact ⟨_, hrun, hpage.2.2.2.2.1 .active, hpage.2.2.1 .embed .ok⟩

end

end EmbeddingServer.Metrics
