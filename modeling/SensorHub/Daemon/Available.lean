import SensorHub.Daemon.Pipeline
import SensorHub.Driver.Inject

set_option autoImplicit false

/-!
# `read_available` drains the driver

`SensorDevice::read_available` of `userspace/src/device/sensor_device.cpp` reads until the driver
has nothing more. Each read takes at most the 64 samples of its buffer. Here the loop runs against
`sensorhub_read` on a descriptor with `O_NONBLOCK`; between two reads, the timer and writers may
push samples. Nobody else reads or resets the device, and no copy to user space faults.

* `AvailPc`, `onRead`, `Avail`, `availStep`: the loop.
* `availStep_read`, `holds_push`: what one read and one push do to a ring of whole samples.
* **`avail_pipe`**: the daemon of `Daemon.Pipeline` takes the same steps.
* `Conserved`, `conserved_run`: nothing is lost and nothing changes places; `reads_le`,
  `returned_split`: how often it reads, and what its last read finds.
* **`read_available_drains`**.
-/

namespace SensorHub

open Driver Trans

/-- Where `read_available` stands, with the samples in `out`. -/
inductive AvailPc
  /-- Before a `read`. -/
  | reading (out : List Sample)
  | returned (out : List Sample)
  /-- `throw sys_error("read sensor device")`. -/
  | threw (e : Errno)

/-- The body of the loop behind `read`. The `ERESTARTSYS` of an interrupted wait comes to user space
as `EINTR`. -/
def onRead (out : List Sample) : Except Errno Bytes → AvailPc
  | .ok buffer =>
      if 0 < buffer.length then
        .reading (out ++ bytesToSamples (buffer.length / sizeofSample) buffer)
      else .returned out
  | .error .EAGAIN => .returned out
  | .error .EINTR => .reading out
  | .error .ERESTARTSYS => .reading out
  | .error e => .threw e

/-- The driver's ring and the call of `read_available`. -/
structure Avail where
  dev : Ring
  pc : AvailPc

inductive AvailLabel
  /-- The timer or a writer runs the locked section of `sensorhub_push_sample`. -/
  | push (sample : Sample) (injected : Bool)
  /-- The next `read`; `signal` says that a signal is pending. -/
  | read (signal : Bool)

def AvailLabel.isRead : AvailLabel → Bool
  | .read _ => true
  | .push _ _ => false

def AvailLabel.isPush : AvailLabel → Bool
  | .read _ => false
  | .push _ _ => true

/-- One step. -/
def availStep (s : Avail) : AvailLabel → Option Avail
  | .push sample injected => some { s with dev := pushSample s.dev sample injected }
  | .read signal =>
      match s.pc with
      | .reading out =>
          (sensorhubRead s.dev bufferBytes true signal false).map fun r => ⟨r.2, onRead out r.1⟩
      | _ => none

/-- The sample that a push puts into the ring, if there is room. -/
def accepted (s : Avail) : AvailLabel → List Sample
  | .push sample _ =>
      let item := stamp s.dev sample
      if (kfifoIn s.dev.fifo item.toBytes).2 = sizeofSample then [item] else []
  | .read _ => []

/-! ### One step -/

variable {d : Ring} {xs : List Sample}

theorem Driver.Holds.hasData_iff (h : Holds d xs) : hasData d = true ↔ xs ≠ [] := by
  rw [hasData, h.fifo]
  cases xs with
  | nil => decide
  | cons x xs =>
      have hne : samplesToBytes (x :: xs) ≠ [] := by
        rw [← List.length_pos_iff, length_samplesToBytes, List.length_cons]
        exact Nat.mul_pos (by decide) (Nat.succ_pos _)
      cases hb : samplesToBytes (x :: xs) with
      | nil => exact absurd hb hne
      | cons b bs => simp

/-- A `read` into the buffer of `read_available`. -/
theorem sensorhubRead_buffer (d : Ring) (signal : Bool) :
    sensorhubRead d bufferBytes true signal false =
      if hasData d then some (.ok (readOut d bufferBytes).1, (readOut d bufferBytes).2)
      else some (.error .EAGAIN, d) := by
  have hlarge : ¬ bufferBytes < sizeofSample := by decide
  rw [sensorhubRead, if_neg hlarge]
  rfl

/-- **One read** of `read_available`: it takes the first 64 samples, or what there is; without any
it ends the call. -/
theorem availStep_read (h : Holds d xs) (out : List Sample) (signal : Bool) :
    ∃ d', Holds d' (xs.drop 64) ∧
      availStep ⟨d, .reading out⟩ (.read signal) =
        some ⟨d', if xs = [] then .returned out else .reading (out ++ xs.take 64)⟩ := by
  have hasked : askedSamples bufferBytes = 64 := rfl
  simp only [availStep, sensorhubRead_buffer]
  by_cases hxs : xs = []
  · have hdata : ¬ hasData d = true := by
      rw [h.hasData_iff]
      exact not_not.mpr hxs
    refine ⟨d, by rw [hxs] at h ⊢; exact h, ?_⟩
    rw [if_neg hdata, if_pos hxs]
    rfl
  · have hdata : hasData d = true := h.hasData_iff.mpr hxs
    obtain ⟨hout, hleft, -⟩ := readOut_holds h bufferBytes
    rw [hasked] at hout hleft
    have hpos : 0 < (samplesToBytes (xs.take 64)).length := by
      rw [length_samplesToBytes, List.length_take]
      exact Nat.mul_pos (by decide) (lt_min (by decide) (List.length_pos_iff.mpr hxs))
    refine ⟨(readOut d bufferBytes).2, hleft, ?_⟩
    rw [if_pos hdata, if_neg hxs, Option.map_some, onRead, hout, if_pos hpos, length_samplesToBytes,
      Nat.mul_div_cancel_left _ (by decide), bytesToSamples_samplesToBytes]

/-- **One push** adds the accepted sample at the end. -/
theorem holds_push {s : Avail} (h : Holds s.dev xs) (sample : Sample) (injected : Bool) :
    Holds (pushSample s.dev sample injected) (xs ++ accepted s (.push sample injected)) := by
  simp only [accepted, kfifoIn_holds h]
  by_cases hroom : xs.length < fifoSamples
  · simp only [if_pos hroom, if_true]
    exact (pushSample_room h hroom sample injected).1
  · simp only [if_neg hroom]
    rw [if_neg (by decide), List.append_nil]
    exact (pushSample_full h hroom sample injected).1

/-! ### The daemon takes the same steps -/

/-- The position of the main thread. -/
def AvailPc.main : AvailPc → MainPc
  | .reading out => .readCheck out
  | .returned out => .push out
  | .threw _ => .closed

theorem availStep_pipe {n c : ℕ} {a b : Avail} {l : AvailLabel} {s : Pipe n c}
    (hs : s.dev = a.dev ∧ s.main = a.pc.main) (h : availStep a l = some b) :
    ∃ t, Reachable Pipe.pipeStep s t ∧ t.dev = b.dev ∧ t.main = b.pc.main := by
  obtain ⟨hdev, hmain⟩ := hs
  cases l with
  | push sample injected =>
      cases h
      refine ⟨s.devicePush sample injected, ⟨[.device sample injected], rfl⟩, ?_, hmain⟩
      simp only [Pipe.devicePush, hdev]
  | read signal =>
      simp only [availStep, sensorhubRead_buffer] at h
      cases hpc : a.pc <;> simp only [hpc, reduceCtorEq] at h
      rename_i out
      rw [hpc] at hmain
      by_cases hdata : hasData a.dev = true
      · rw [if_pos hdata, Option.map_some, Option.some.injEq] at h
        subst h
        -- the test and the locked section
        refine ⟨{ s with dev := (readOut a.dev bufferBytes).2
                         main := (onRead out (.ok (readOut a.dev bufferBytes).1)).main },
          ⟨[.main, .main], ?_⟩, rfl, rfl⟩
        simp only [run, Pipe.pipeStep, Pipe.mainStep, hmain, AvailPc.main, hdev, hdata, if_true,
          Option.bind_some, onRead]
        split_ifs <;> rfl
      · rw [if_neg hdata, Option.map_some, Option.some.injEq] at h
        subst h
        refine ⟨{ s with main := .push out }, ⟨[.main], ?_⟩, hdev, rfl⟩
        simp only [run, Pipe.pipeStep, Pipe.mainStep, hmain, AvailPc.main, hdev, hdata,
          Bool.false_eq_true, if_false, Option.bind_some]

/-- **Refinement.** What `read_available` does against the driver, the main thread of the daemon
does. -/
theorem avail_pipe {n c : ℕ} {a b : Avail} {s : Pipe n c} (hdev : s.dev = a.dev)
    (hmain : s.main = a.pc.main) (h : Reachable availStep a b) :
    ∃ t, Reachable Pipe.pipeStep s t ∧ t.dev = b.dev ∧ t.main = b.pc.main :=
  Reachable.simulate (fun _ _ _ _ hs hst => availStep_pipe hs hst)
    (⟨hdev, hmain⟩ : s.dev = a.dev ∧ s.main = a.pc.main) h

/-! ### Whole calls -/

/-- The samples in `out`. -/
def AvailPc.out : AvailPc → List Sample
  | .reading out => out
  | .returned out => out
  | .threw _ => []

/-- The call has not failed, and `all` is what it has read and, behind it, what is in the ring. -/
def Conserved (all : List Sample) (s : Avail) : Prop :=
  (∀ e, s.pc ≠ .threw e) ∧ ∃ xs, Holds s.dev xs ∧ s.pc.out ++ xs = all

theorem conserved_step {all : List Sample} {s t : Avail} {l : AvailLabel} (hs : Conserved all s)
    (h : availStep s l = some t) : Conserved (all ++ accepted s l) t := by
  obtain ⟨hok, xs, hx, hall⟩ := hs
  cases l with
  | push sample injected =>
      cases h
      refine ⟨hok, _, holds_push hx sample injected, ?_⟩
      rw [← List.append_assoc, hall]
  | read signal =>
      obtain ⟨dev, pc⟩ := s
      cases pc with
      | reading out =>
          obtain ⟨d', hd', hstep⟩ := availStep_read hx out signal
          rw [hstep] at h
          cases h
          simp only [accepted, List.append_nil]
          by_cases hxs : xs = []
          · simp only [if_pos hxs]
            refine ⟨by simp, xs.drop 64, hd', ?_⟩
            rw [← hall, hxs]
            rfl
          · simp only [if_neg hxs]
            refine ⟨by simp, xs.drop 64, hd', ?_⟩
            rw [← hall, AvailPc.out, AvailPc.out, List.append_assoc, List.take_append_drop]
      | returned out => cases h
      | threw e => cases h

/-- **Nothing is lost and nothing changes places.** -/
theorem conserved_run {all : List Sample} {s t : Avail} {ls : List AvailLabel}
    (hs : Conserved all s) (h : run availStep s ls = some t) :
    Conserved (all ++ trace availStep accepted s ls) t := by
  induction ls generalizing s all with
  | nil =>
      cases h
      rw [trace, List.append_nil]
      exact hs
  | cons l ls ih =>
      obtain ⟨u, hu, h⟩ := run_cons_eq_some.mp h
      have hrest := ih (conserved_step hs hu) h
      rwa [trace_cons hu, ← List.append_assoc]

/-- The reads that are possible without pushes, at most, when the ring holds `k` samples. -/
def AvailPc.rounds (k : ℕ) : AvailPc → ℕ
  | .reading _ => k + 1
  | _ => 0

/-- **Every read but the last takes a sample.** -/
theorem reads_le {s t : Avail} {xs : List Sample} {ls : List AvailLabel} (hx : Holds s.dev xs)
    (h : run availStep s ls = some t) :
    ls.countP AvailLabel.isRead ≤ s.pc.rounds xs.length + ls.countP AvailLabel.isPush := by
  induction ls generalizing s xs with
  | nil => exact Nat.zero_le _
  | cons l ls ih =>
      obtain ⟨u, hu, h⟩ := run_cons_eq_some.mp h
      cases l with
      | push sample injected =>
          cases hu
          have hle := ih (holds_push hx sample injected) h
          have hone : (accepted s (.push sample injected)).length ≤ 1 := by
            simp only [accepted]
            split_ifs <;> simp
          rw [List.countP_cons_of_neg (by simp [AvailLabel.isRead]),
            List.countP_cons_of_pos (by rfl)]
          rw [List.length_append] at hle
          cases hpc : s.pc <;> simp only [hpc, AvailPc.rounds] at hle ⊢ <;> omega
      | read signal =>
          obtain ⟨dev, pc⟩ := s
          cases pc with
          | reading out =>
              obtain ⟨d', hd', hstep⟩ := availStep_read hx out signal
              rw [hstep] at hu
              cases hu
              have hle := ih hd' h
              rw [List.countP_cons_of_pos (by rfl),
                List.countP_cons_of_neg (by simp [AvailLabel.isPush])]
              by_cases hxs : xs = []
              · simp only [if_pos hxs, AvailPc.rounds] at hle ⊢
                omega
              · have hpos := List.length_pos_iff.mpr hxs
                simp only [if_neg hxs, AvailPc.rounds, List.length_drop] at hle ⊢
                omega
          | returned out => cases hu
          | threw e => cases hu

/-- **The last read finds the ring empty**; behind it there are only pushes. -/
theorem returned_split {all : List Sample} {s t : Avail} {ls : List AvailLabel}
    {out out₀ : List Sample} (hs : Conserved all s) (hpc : s.pc = .reading out₀)
    (h : run availStep s ls = some t) (ht : t.pc = .returned out) :
    ∃ ms signal ns u, ls = ms ++ .read signal :: ns ∧ (∀ l ∈ ns, l.isPush = true) ∧
      run availStep s ms = some u ∧ u.pc = .reading out ∧ u.dev.fifo = [] := by
  induction ls using List.reverseRecOn generalizing t with
  | nil =>
      cases h
      rw [hpc] at ht
      cases ht
  | append_singleton ls l ih =>
      obtain ⟨u, hu, hl⟩ := run_snoc_eq_some.mp h
      cases l with
      | push sample injected =>
          cases hl
          obtain ⟨ms, signal, ns, v, hls, hns, hv⟩ := ih hu ht
          refine ⟨ms, signal, ns ++ [.push sample injected], v, ?_, ?_, hv⟩
          · rw [hls, List.append_assoc, List.cons_append]
          · intro l hl
            rcases List.mem_append.mp hl with hl | hl
            · exact hns l hl
            · rw [List.mem_singleton.mp hl]
              rfl
      | read signal =>
          obtain ⟨-, xs, hx, -⟩ := conserved_run hs hu
          obtain ⟨dev, pc⟩ := u
          cases pc with
          | reading out' =>
              obtain ⟨d', -, hstep⟩ := availStep_read hx out' signal
              rw [hstep] at hl
              cases hl
              by_cases hxs : xs = []
              · simp only [if_pos hxs, AvailPc.returned.injEq] at ht
                refine ⟨ls, signal, [], _, rfl, by simp, hu, by rw [ht], ?_⟩
                rw [hx.fifo, hxs]
                rfl
              · simp only [if_neg hxs, reduceCtorEq] at ht
          | returned out' => cases hl
          | threw e => cases hl

/-- **Without pushes** one read for each 64 samples and one more are made. -/
theorem drained_alone {d : Ring} {xs : List Sample} (hx : Holds d xs) (out : List Sample)
    (signal : Bool) :
    ∃ d', run availStep ⟨d, .reading out⟩
        (List.replicate ((xs.length + 63) / 64 + 1) (.read signal)) =
      some ⟨d', .returned (out ++ xs)⟩ ∧ d'.fifo = [] := by
  induction hn : (xs.length + 63) / 64 generalizing d xs out with
  | zero =>
      have hxs : xs = [] := List.eq_nil_of_length_eq_zero (by omega)
      obtain ⟨d', hd', hstep⟩ := availStep_read hx out signal
      refine ⟨d', ?_, ?_⟩
      · rw [List.replicate_one, run_cons, hstep, if_pos hxs, hxs, List.append_nil]
        rfl
      · rw [hd'.fifo, hxs]
        rfl
  | succ n ih =>
      have hxs : xs ≠ [] := by
        rintro rfl
        cases hn
      obtain ⟨d', hd', hstep⟩ := availStep_read hx out signal
      have hrest : ((xs.drop 64).length + 63) / 64 = n := by
        rw [List.length_drop]
        omega
      obtain ⟨d'', hrun, hempty⟩ := ih hd' (out ++ xs.take 64) hrest
      refine ⟨d'', ?_, hempty⟩
      rw [List.replicate_succ, run_cons, hstep, if_neg hxs, Option.bind_some, hrun,
        List.append_assoc, List.take_append_drop]

/-- **`read_available` drains the driver.** From every reachable state of the driver, on a
descriptor with `O_NONBLOCK`, without other readers, resets and faults:
* the ring holds whole samples; without pushes, the call returns exactly these, in their order, and
  leaves the ring empty;
* with pushes between its reads, the call never fails; it reads at most once for each sample in the
  ring, once for each push and once more, and at any time some more reads make it return; when it
  has returned, its result is the samples that were in the ring and, behind them, those accepted
  before its last read, in the order they were pushed, and the last read left the ring empty. -/
theorem read_available_drains {sys : Sys} (h : Reachable drvStep Sys.init sys) :
    let xs := ringSamples sys.dev
    let start : Avail := ⟨sys.dev, .reading []⟩
    sys.dev.fifo = samplesToBytes xs ∧
    (∀ signal, ∃ d, run availStep start
        (List.replicate ((xs.length + 63) / 64 + 1) (.read signal)) = some ⟨d, .returned xs⟩ ∧
      d.fifo = []) ∧
    (∀ ls t, run availStep start ls = some t →
      ls.countP AvailLabel.isRead ≤ xs.length + 1 + ls.countP AvailLabel.isPush ∧
      (∀ e, t.pc ≠ .threw e) ∧
      (∀ out signal, t.pc = .reading out → ∃ n d zs,
        run availStep t (List.replicate (n + 1) (.read signal)) = some ⟨d, .returned zs⟩) ∧
      (∀ out, t.pc = .returned out → ∃ ms signal ns u,
        ls = ms ++ .read signal :: ns ∧ (∀ l ∈ ns, l.isPush = true) ∧
        run availStep start (ms ++ [.read signal]) = some u ∧
        u.pc = .returned out ∧ u.dev.fifo = [] ∧
        out = xs ++ trace availStep accepted start ms)) := by
  intro xs start
  have hw : Whole sys := h.inv Whole (fun _ _ _ hs => whole_step hs) whole_init
  obtain ⟨ys, hy, -⟩ := hw.ring
  have hxs : xs = ys := ringSamples_of_holds hy
  rw [← hxs] at hy
  have hstart : Conserved xs start := ⟨by simp [start], xs, hy, rfl⟩
  refine ⟨hy.fifo, drained_alone hy [], ?_⟩
  intro ls t ht
  obtain ⟨hok, zs, hz, -⟩ := conserved_run hstart ht
  refine ⟨reads_le hy ht, hok, ?_, ?_⟩
  · intro out signal hpc
    obtain ⟨d, hrun, -⟩ := drained_alone hz out signal
    obtain ⟨dev, pc⟩ := t
    simp only at hpc
    subst hpc
    exact ⟨_, d, _, hrun⟩
  · intro out hpc
    obtain ⟨ms, signal, ns, u, hls, hns, hu, hreading, hempty⟩ :=
      returned_split hstart rfl ht hpc
    obtain ⟨-, us, hus, hall⟩ := conserved_run hstart hu
    obtain ⟨dev, pc⟩ := u
    simp only at hreading hempty hall
    subst hreading
    have hnil : us = [] := by
      rw [← ringSamples_of_holds hus, ringSamples, hempty]
      rfl
    subst hnil
    obtain ⟨d', hd', hstep⟩ := availStep_read hus out signal
    refine ⟨ms, signal, ns, _, hls, hns, run_snoc_eq_some.mpr ⟨_, hu, hstep⟩, rfl, hd'.fifo, ?_⟩
    rw [← hall, AvailPc.out, List.append_nil]

/-- A ring of a hundred samples takes three reads. -/
theorem read_available_drains_hundred : ∃ sys xs d, Reachable drvStep Sys.init sys ∧
    xs.length = 100 ∧ run availStep ⟨sys.dev, .reading []⟩ (List.replicate 3 (.read false)) =
      some ⟨d, .returned xs⟩ ∧ d.fifo = [] := by
  obtain ⟨sys, xs, hsys, -, hx, hlength⟩ :=
    exists_reachable_holding (show 100 ≤ fifoSamples by decide)
  have hring : ringSamples sys.dev = xs := ringSamples_of_holds hx
  obtain ⟨-, halone, -⟩ := read_available_drains hsys
  obtain ⟨d, hrun, hempty⟩ := halone false
  rw [hring, hlength] at hrun
  exact ⟨sys, xs, d, hsys, hlength, hrun, hempty⟩

end SensorHub
