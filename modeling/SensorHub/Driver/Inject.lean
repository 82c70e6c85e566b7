import SensorHub.Driver.Entry

set_option autoImplicit false

/-!
# What a successful write has stored

`sensorhub_write` returns `sizeof(sample)` whatever became of the sample: `sensorhub_push_sample`
returns nothing, and with the ring full it counts a drop and throws the sample away.

* `Stored`, `Room`.
* `exists_reachable_holding`: the timer can bring the ring to any fill level.
* **`write_stored_iff`**: a successful write has stored its sample if and only if the ring had room;
  **`write_to_full_ring`**.
-/

namespace SensorHub.Driver

open Trans RecordFifo

/-- From `d` to `d'`: exactly one sample more, an injected one with the values of `sample`. -/
structure Stored (d : Ring) (sample : Sample) (d' : Ring) : Prop where
  appended : ∃ item : Sample, d'.fifo = d.fifo ++ item.toBytes ∧
    item.value0 = sample.value0 ∧ item.value1 = sample.value1 ∧ item.value2 = sample.value2 ∧
    item.type = sampleUser ∧ item.seq = d.nextSeq
  injected : d'.injected = d.injected + 1
  generated : d'.generated = d.generated
  dropped : d'.dropped = d.dropped

/-- One more sample fits. -/
def Room (d : Ring) : Prop := d.fifo.length + sizeofSample ≤ fifoBytes

instance (d : Ring) : Decidable (Room d) := inferInstanceAs (Decidable (_ ≤ _))

theorem room_iff {d : Ring} {xs : List Sample} (h : Holds d xs) :
    Room d ↔ xs.length < fifoSamples := by
  rw [Room, h.length_fifo]
  unfold sizeofSample fifoBytes fifoSamples
  omega

/-- **The push of a write stores its sample if and only if the ring has room.** -/
theorem pushSample_stored_iff {d : Ring} {xs : List Sample} (h : Holds d xs) (sample : Sample)
    (now : UInt64) : Stored d sample (pushSample d (writeSample sample now) true) ↔ Room d := by
  rw [room_iff h]
  constructor
  · intro hstored
    by_contra hfull
    have hpush := (pushSample_full h hfull (writeSample sample now) true).2
    have hinjected := hstored.injected
    rw [hpush] at hinjected
    exact absurd hinjected.symm (by simp)
  · intro hroom
    have hpush := (pushSample_room h hroom (writeSample sample now) true).2
    rw [hpush]
    refine ⟨⟨stamp d (writeSample sample now), ?_, rfl, rfl, rfl, rfl, rfl⟩, rfl, rfl, rfl⟩
    rw [h.fifo, samplesToBytes, samplesToBytes, encodeAll_append]
    simp [encodeAll]

/-- The timer pushes into an idle driver. -/
theorem run_timerPush {s : Sys} (hidle : s.pc = fun _ => .idle) (now : UInt64)
    (randomValue : UInt32) : ∃ t, run drvStep s [.timer 0 now randomValue, .pushLock 0, .wake 0] =
      some t ∧ t.pc = (fun _ => .idle) ∧
      t.dev = pushSample s.dev (timerSample now randomValue) false := by
  refine ⟨{ pushLocked s (timerSample now randomValue) false with pc := fun _ => .idle }, ?_, rfl,
    rfl⟩
  have hback : Function.update (wakeUp (Function.update (fun _ => Pc.idle) 0 (.pushWake false))) 0
      .idle = fun _ => .idle := by
    funext i
    by_cases hi : i = 0
    · rw [hi, Function.update_self]
    · simp [Function.update_of_ne hi, wakeUp]
  simp [run, drvStep, hidle, Sys.goto, pushLocked, hback]

/-- **The timer alone brings the ring to any fill level.** -/
theorem exists_reachable_holding {k : ℕ} (hk : k ≤ fifoSamples) :
    ∃ s xs, Reachable drvStep Sys.init s ∧ s.pc = (fun _ => .idle) ∧ Holds s.dev xs ∧
      xs.length = k := by
  induction k with
  | zero => exact ⟨Sys.init, [], .refl _, rfl, holds_init, rfl⟩
  | succ k ih =>
      obtain ⟨s, xs, hs, hidle, hx, hlength⟩ := ih (by omega)
      obtain ⟨t, ht, htidle, hdev⟩ := run_timerPush hidle 5 7
      have hroom : xs.length < fifoSamples := by omega
      refine ⟨t, xs ++ [stamp s.dev (timerSample 5 7)], hs.trans ⟨_, ht⟩, htidle, ?_, ?_⟩
      · rw [hdev]
        exact (pushSample_room hx hroom _ _).1
      · rw [List.length_append, List.length_singleton, hlength]

/-- **A successful write has stored its sample if and only if the ring had room**, as a call that
runs alone in a reachable state, and in the locked section of a call among others. -/
theorem write_stored_iff {s : Sys} (h : Reachable drvStep Sys.init s) (sample : Sample)
    (now : UInt64) :
    (∀ count fault d', sensorhubWrite s.dev count fault sample now = (.ok sizeofSample, d') →
      (Stored s.dev sample d' ↔ Room s.dev)) ∧
    (∀ i t, s.pc i = .pushLock (writeSample sample now) true →
      drvStep s (.pushLock i) = some t → (Stored s.dev sample t.dev ↔ Room s.dev)) := by
  have hs : Whole s := h.inv Whole (fun _ _ _ hs => whole_step hs) whole_init
  obtain ⟨xs, hx, -⟩ := hs.ring
  have hpush := pushSample_stored_iff hx sample now
  constructor
  · intro count fault d' hwrite
    unfold sensorhubWrite at hwrite
    split_ifs at hwrite <;> cases hwrite
    exact hpush
  · intro i t hpc ht
    simp only [drvStep, hpc] at ht
    cases ht
    exact hpush

/-- One more sample fits in the ring. -/
theorem write_stored_iff_lastRoom : ∃ s xs, Reachable drvStep Sys.init s ∧ Holds s.dev xs ∧
    xs.length = 2047 ∧ ∃ d', sensorhubWrite s.dev sizeofSample false (timerSample 5 7) 9 =
      (.ok sizeofSample, d') ∧ Stored s.dev (timerSample 5 7) d' := by
  obtain ⟨s, xs, hs, -, hx, hlength⟩ := exists_reachable_holding (show 2047 ≤ fifoSamples by decide)
  have hroom : Room s.dev := (room_iff hx).mpr (by rw [hlength]; decide)
  exact ⟨s, xs, hs, hx, hlength, _, rfl,
    ((write_stored_iff hs (timerSample 5 7) 9).1 sizeofSample false _ rfl).mpr hroom⟩

/-- **A write that returns `sizeof(sample)` and stores nothing.** -/
theorem write_to_full_ring : ∃ s, Reachable drvStep Sys.init s ∧
    ∃ d', sensorhubWrite s.dev sizeofSample false (timerSample 5 7) 9 = (.ok sizeofSample, d') ∧
      d'.fifo = s.dev.fifo ∧ d'.dropped = s.dev.dropped + 1 ∧
      ¬ Stored s.dev (timerSample 5 7) d' := by
  obtain ⟨s, xs, hs, -, hx, hlength⟩ := exists_reachable_holding (le_refl fifoSamples)
  have hfull : ¬ xs.length < fifoSamples := by omega
  have hpush := (pushSample_full hx hfull (writeSample (timerSample 5 7) 9) true).2
  refine ⟨s, hs, _, rfl, ?_, ?_, ?_⟩
  · rw [hpush]
  · rw [hpush]
  · rw [pushSample_stored_iff hx, room_iff hx]
    exact hfull

end SensorHub.Driver
