import SensorHub.Driver.Ring
import SensorHub.Trans.Run
import SensorHub.Uapi.Errno

set_option autoImplicit false

/-!
# Concurrent calls into the driver

Any number of threads are inside `sensorhub_read`, `sensorhub_write`, the timer callback or
`SENSORHUB_IOC_RESET`. A step is one locked section, one test of `sensorhub_has_data`, one copy to
user space or one `wake_up_interruptible`; the steps of different threads interleave freely.

* `Pc`, `Return`, `Log`, `Sys`, `drvStep`: the machine. `Log` is a record of what happened, nothing
  in the driver reads it.
* `Branch`, **`drvStep_branch`**: what a step can be; `Effect`, `drvStep_effect`: what it does to
  the ring and to the buffers.
* `Whole`, `whole_step`: the ring and every buffer on its way to user space hold whole samples.
* **`record_integrity`**: in every reachable state.
-/

namespace SensorHub.Driver

open Trans

/-- Where a thread stands in a call into the driver. -/
inductive Pc
  | idle
  /-- `sensorhub_read`, before the first `sensorhub_has_data`. -/
  | readCheck (count : ℕ) (nonblock : Bool)
  /-- In `wait_event_interruptible`, on `read_queue`, before a test of the condition. -/
  | readWait (count : ℕ)
  /-- Asleep on `read_queue`. -/
  | readSleep (count : ℕ)
  /-- Data was seen; before the locked section. -/
  | readLock (count : ℕ)
  /-- Before `copy_to_user`. -/
  | readCopy (samples : Bytes)
  /-- `sensorhub_push_sample`, before the locked section. -/
  | pushLock (sample : Sample) (injected : Bool)
  /-- Before `wake_up_interruptible`. -/
  | pushWake (injected : Bool)
  deriving DecidableEq

/-- A finished call: what a read delivered, how many bytes a write took, or the error. -/
inductive Return
  | read (i : ℕ) (result : Except Errno Bytes)
  | write (i : ℕ) (result : Except Errno ℕ)

/-- What happened so far. -/
structure Log where
  /-- Every sample that went through `sensorhub_push_sample`, with its number. -/
  pushed : List Sample
  /-- Those of them that found the ring full. -/
  refused : List Sample
  /-- The samples taken by `kfifo_out`, in the order of the removals. -/
  removed : List Sample
  /-- The samples that were in the ring at some `SENSORHUB_IOC_RESET`. -/
  cleared : List Sample
  /-- The pushes since the last `SENSORHUB_IOC_RESET`, or since the module was loaded. -/
  sinceReset : ℕ
  /-- How many of `refused` are older than that reset. -/
  forgotten : ℕ
  returns : List Return

/-- The driver with the threads inside it. -/
structure Sys where
  dev : Ring
  pc : ℕ → Pc
  log : Log

/-- The state after `sensorhub_init`. -/
def Sys.init : Sys := ⟨Ring.init, fun _ => .idle, ⟨[], [], [], [], 0, 0, []⟩⟩

/-- Steps of the threads; `i` is the thread. -/
inductive Label
  | read (i : ℕ) (count : ℕ) (nonblock : Bool)
  | check (i : ℕ)
  /-- The condition of `wait_event_interruptible` is tested; `signal` says that one is pending. -/
  | test (i : ℕ) (signal : Bool)
  /-- A signal arrives for a sleeping reader. -/
  | interrupt (i : ℕ)
  | readLock (i : ℕ)
  | copy (i : ℕ) (fault : Bool)
  /-- `sensorhub_write` of `count` bytes; `now` is `ktime_get_real_ns()`. -/
  | write (i : ℕ) (count : ℕ) (fault : Bool) (sample : Sample) (now : UInt64)
  /-- The timer callback finds the device enabled. -/
  | timer (i : ℕ) (now : UInt64) (randomValue : UInt32)
  | pushLock (i : ℕ)
  | wake (i : ℕ)
  | reset

namespace Sys

/-- Thread `i` moves on. -/
def goto (s : Sys) (i : ℕ) (pc : Pc) : Sys := { s with pc := Function.update s.pc i pc }

/-- Thread `i` returns from its call. -/
def ret (s : Sys) (i : ℕ) (r : Return) : Sys :=
  { s.goto i .idle with log := { s.log with returns := s.log.returns ++ [r] } }

end Sys

/-- The sample of `sensorhub_timer_cb`. -/
def timerSample (now : UInt64) (randomValue : UInt32) : Sample where
  seq := 0
  timestampNs := now
  type := sampleTemp
  value0 := (25000 + randomValue % 8000).toInt32
  value1 := 0
  value2 := 0

/-- The sample of `sensorhub_write`, from the one in the caller's buffer. -/
def writeSample (sample : Sample) (now : UInt64) : Sample :=
  { sample with timestampNs := now, type := sampleUser }

/-- `wake_up_interruptible(&dev->read_queue)`: every sleeper tests its condition again. -/
def wakeUp (pc : ℕ → Pc) : ℕ → Pc := fun i =>
  match pc i with
  | .readSleep count => .readWait count
  | p => p

/-- The locked section of a push, with the record of it. -/
def pushLocked (s : Sys) (sample : Sample) (injected : Bool) : Sys :=
  let item := stamp s.dev sample
  let full := (kfifoIn s.dev.fifo item.toBytes).2 ≠ sizeofSample
  { s with
    dev := pushSample s.dev sample injected
    log := { s.log with
      pushed := s.log.pushed ++ [item]
      refused := if full then s.log.refused ++ [item] else s.log.refused
      sinceReset := s.log.sinceReset + 1 } }

/-- The locked section of a read, with the record of it: the bytes and the new state. -/
def readLocked (s : Sys) (count : ℕ) : Bytes × Sys :=
  let (samples, dev) := readOut s.dev count
  (samples, { s with
    dev := dev
    log := { s.log with
      removed := s.log.removed ++ bytesToSamples (samples.length / sizeofSample) samples } })

/-- The locked section of `SENSORHUB_IOC_RESET`, with the record of it. -/
def resetLocked (s : Sys) : Sys :=
  { s with
    dev := reset s.dev
    log := { s.log with
      cleared := s.log.cleared ++ bytesToSamples (s.dev.fifo.length / sizeofSample) s.dev.fifo
      sinceReset := 0
      forgotten := s.log.refused.length } }

/-- One step. -/
def drvStep (s : Sys) : Label → Option Sys
  | .read i count nonblock =>
      match s.pc i with
      | .idle =>
          if count < sizeofSample then some (s.ret i (.read i (.error .EINVAL)))
          else some (s.goto i (.readCheck count nonblock))
      | _ => none
  | .check i =>
      match s.pc i with
      | .readCheck count nonblock =>
          if hasData s.dev then some (s.goto i (.readLock count))
          else if nonblock then some (s.ret i (.read i (.error .EAGAIN)))
          else some (s.goto i (.readWait count))
      | _ => none
  | .test i signal =>
      match s.pc i with
      | .readWait count =>
          if hasData s.dev then some (s.goto i (.readLock count))
          else if signal then some (s.ret i (.read i (.error .ERESTARTSYS)))
          else some (s.goto i (.readSleep count))
      | _ => none
  | .interrupt i =>
      match s.pc i with
      | .readSleep count => some (s.goto i (.readWait count))
      | _ => none
  | .readLock i =>
      match s.pc i with
      | .readLock count =>
          let (samples, s) := readLocked s count
          some (s.goto i (.readCopy samples))
      | _ => none
  | .copy i fault =>
      match s.pc i with
      | .readCopy samples =>
          if fault then some (s.ret i (.read i (.error .EFAULT)))
          else some (s.ret i (.read i (.ok samples)))
      | _ => none
  | .write i count fault sample now =>
      match s.pc i with
      | .idle =>
          if count ≠ sizeofSample then some (s.ret i (.write i (.error .EINVAL)))
          else if fault then some (s.ret i (.write i (.error .EFAULT)))
          else some (s.goto i (.pushLock (writeSample sample now) true))
      | _ => none
  | .timer i now randomValue =>
      match s.pc i with
      | .idle => some (s.goto i (.pushLock (timerSample now randomValue) false))
      | _ => none
  | .pushLock i =>
      match s.pc i with
      | .pushLock sample injected =>
          some ((pushLocked s sample injected).goto i (.pushWake injected))
      | _ => none
  | .wake i =>
      match s.pc i with
      | .pushWake injected =>
          let s := { s with pc := wakeUp s.pc }
          if injected then some (s.ret i (.write i (.ok sizeofSample))) else some (s.goto i .idle)
      | _ => none
  | .reset => some (resetLocked s)

/-! ### The branches of a step -/

/-- The branches of `drvStep`: where the thread stands, what it finds, and where it goes. -/
inductive Branch (s : Sys) : Label → Sys → Prop
  | readShort {i count : ℕ} {nonblock : Bool} (hpc : s.pc i = .idle) (hc : count < sizeofSample) :
      Branch s (.read i count nonblock) (s.ret i (.read i (.error .EINVAL)))
  | read {i count : ℕ} {nonblock : Bool} (hpc : s.pc i = .idle) (hc : ¬ count < sizeofSample) :
      Branch s (.read i count nonblock) (s.goto i (.readCheck count nonblock))
  | checkData {i count : ℕ} {nonblock : Bool} (hpc : s.pc i = .readCheck count nonblock)
      (hd : hasData s.dev = true) : Branch s (.check i) (s.goto i (.readLock count))
  | checkAgain {i count : ℕ} {nonblock : Bool} (hpc : s.pc i = .readCheck count nonblock)
      (hd : ¬ hasData s.dev = true) (hn : nonblock = true) :
      Branch s (.check i) (s.ret i (.read i (.error .EAGAIN)))
  | checkWait {i count : ℕ} {nonblock : Bool} (hpc : s.pc i = .readCheck count nonblock)
      (hd : ¬ hasData s.dev = true) : Branch s (.check i) (s.goto i (.readWait count))
  | testData {i count : ℕ} {signal : Bool} (hpc : s.pc i = .readWait count)
      (hd : hasData s.dev = true) : Branch s (.test i signal) (s.goto i (.readLock count))
  | testSignal {i count : ℕ} {signal : Bool} (hpc : s.pc i = .readWait count)
      (hd : ¬ hasData s.dev = true) :
      Branch s (.test i signal) (s.ret i (.read i (.error .ERESTARTSYS)))
  | testSleep {i count : ℕ} {signal : Bool} (hpc : s.pc i = .readWait count)
      (hd : ¬ hasData s.dev = true) : Branch s (.test i signal) (s.goto i (.readSleep count))
  | interrupt {i count : ℕ} (hpc : s.pc i = .readSleep count) :
      Branch s (.interrupt i) (s.goto i (.readWait count))
  | readLock {i count : ℕ} (hpc : s.pc i = .readLock count) :
      Branch s (.readLock i) ((readLocked s count).2.goto i (.readCopy (readLocked s count).1))
  | copyFault {i : ℕ} {samples : Bytes} {fault : Bool} (hpc : s.pc i = .readCopy samples)
      (hf : fault = true) : Branch s (.copy i fault) (s.ret i (.read i (.error .EFAULT)))
  | copy {i : ℕ} {samples : Bytes} {fault : Bool} (hpc : s.pc i = .readCopy samples) :
      Branch s (.copy i fault) (s.ret i (.read i (.ok samples)))
  | writeFails {i count : ℕ} {fault : Bool} {sample : Sample} {now : UInt64} {e : Errno}
      (hpc : s.pc i = .idle) :
      Branch s (.write i count fault sample now) (s.ret i (.write i (.error e)))
  | write {i count : ℕ} {fault : Bool} {sample : Sample} {now : UInt64} (hpc : s.pc i = .idle) :
      Branch s (.write i count fault sample now)
        (s.goto i (.pushLock (writeSample sample now) true))
  | timer {i : ℕ} {now : UInt64} {randomValue : UInt32} (hpc : s.pc i = .idle) :
      Branch s (.timer i now randomValue) (s.goto i (.pushLock (timerSample now randomValue) false))
  | pushLock {i : ℕ} {sample : Sample} {injected : Bool}
      (hpc : s.pc i = .pushLock sample injected) :
      Branch s (.pushLock i) ((pushLocked s sample injected).goto i (.pushWake injected))
  | wakeWrite {i : ℕ} {injected : Bool} (hpc : s.pc i = .pushWake injected) :
      Branch s (.wake i) ({ s with pc := wakeUp s.pc }.ret i (.write i (.ok sizeofSample)))
  | wake {i : ℕ} {injected : Bool} (hpc : s.pc i = .pushWake injected) :
      Branch s (.wake i) ({ s with pc := wakeUp s.pc }.goto i .idle)
  | reset : Branch s .reset (resetLocked s)

theorem drvStep_branch {s t : Sys} {l : Label} (h : drvStep s l = some t) : Branch s l t := by
  cases l with
  | read i count nonblock =>
      simp only [drvStep] at h
      cases hpc : s.pc i <;> simp only [hpc, reduceCtorEq] at h
      split_ifs at h with hc <;> cases h
      · exact .readShort hpc hc
      · exact .read hpc hc
  | check i =>
      simp only [drvStep] at h
      cases hpc : s.pc i <;> simp only [hpc, reduceCtorEq] at h
      split_ifs at h with hd hn <;> cases h
      · exact .checkData hpc hd
      · exact .checkAgain hpc hd hn
      · exact .checkWait hpc hd
  | test i signal =>
      simp only [drvStep] at h
      cases hpc : s.pc i <;> simp only [hpc, reduceCtorEq] at h
      split_ifs at h with hd hsignal <;> cases h
      · exact .testData hpc hd
      · exact .testSignal hpc hd
      · exact .testSleep hpc hd
  | interrupt i =>
      simp only [drvStep] at h
      cases hpc : s.pc i <;> simp only [hpc, reduceCtorEq] at h
      cases h
      exact .interrupt hpc
  | readLock i =>
      simp only [drvStep] at h
      cases hpc : s.pc i <;> simp only [hpc, reduceCtorEq] at h
      cases h
      exact .readLock hpc
  | copy i fault =>
      simp only [drvStep] at h
      cases hpc : s.pc i <;> simp only [hpc, reduceCtorEq] at h
      split_ifs at h with hf <;> cases h
      · exact .copyFault hpc hf
      · exact .copy hpc
  | write i count fault sample now =>
      simp only [drvStep] at h
      cases hpc : s.pc i <;> simp only [hpc, reduceCtorEq] at h
      split_ifs at h <;> cases h
      · exact .writeFails hpc
      · exact .writeFails hpc
      · exact .write hpc
  | timer i now randomValue =>
      simp only [drvStep] at h
      cases hpc : s.pc i <;> simp only [hpc, reduceCtorEq] at h
      cases h
      exact .timer hpc
  | pushLock i =>
      simp only [drvStep] at h
      cases hpc : s.pc i <;> simp only [hpc, reduceCtorEq] at h
      cases h
      exact .pushLock hpc
  | wake i =>
      simp only [drvStep] at h
      cases hpc : s.pc i <;> simp only [hpc, reduceCtorEq] at h
      split_ifs at h <;> cases h
      · exact .wakeWrite hpc
      · exact .wake hpc
  | reset =>
      cases h
      exact .reset

/-! ### What a step does to the ring and to the buffers of the reads -/

/-- The effect of a step: a thread moves on or fails, a read delivers, or one of the locked sections
runs. -/
inductive Effect (s : Sys) : Sys → Prop
  | goto (i : ℕ) (pc : Pc) (hpc : ∀ samples, pc ≠ .readCopy samples) : Effect s (s.goto i pc)
  | fail (i : ℕ) (r : Return) (hr : ∀ j samples, r ≠ .read j (.ok samples)) : Effect s (s.ret i r)
  | deliver (i : ℕ) (samples : Bytes) (hpc : s.pc i = .readCopy samples) :
      Effect s (s.ret i (.read i (.ok samples)))
  | readLock (i count : ℕ) (hpc : s.pc i = .readLock count) :
      Effect s ((readLocked s count).2.goto i (.readCopy (readLocked s count).1))
  | pushLock (i : ℕ) (sample : Sample) (injected : Bool)
      (hpc : s.pc i = .pushLock sample injected) :
      Effect s ((pushLocked s sample injected).goto i (.pushWake injected))
  | wake (i : ℕ) : Effect s ({ s with pc := wakeUp s.pc }.goto i .idle)
  | wakeWrite (i : ℕ) :
      Effect s ({ s with pc := wakeUp s.pc }.ret i (.write i (.ok sizeofSample)))
  | reset : Effect s (resetLocked s)

theorem drvStep_effect {s t : Sys} {l : Label} (h : drvStep s l = some t) : Effect s t := by
  cases drvStep_branch h with
  | readShort hpc hc => exact .fail _ _ (by simp)
  | read hpc hc => exact .goto _ _ (by simp)
  | checkData hpc hd => exact .goto _ _ (by simp)
  | checkAgain hpc hd hn => exact .fail _ _ (by simp)
  | checkWait hpc hd => exact .goto _ _ (by simp)
  | testData hpc hd => exact .goto _ _ (by simp)
  | testSignal hpc hd => exact .fail _ _ (by simp)
  | testSleep hpc hd => exact .goto _ _ (by simp)
  | interrupt hpc => exact .goto _ _ (by simp)
  | readLock hpc => exact .readLock _ _ hpc
  | copyFault hpc hf => exact .fail _ _ (by simp)
  | copy hpc => exact .deliver _ _ hpc
  | writeFails hpc => exact .fail _ _ (by simp)
  | write hpc => exact .goto _ _ (by simp)
  | timer hpc => exact .goto _ _ (by simp)
  | pushLock hpc => exact .pushLock _ _ _ hpc
  | wakeWrite hpc => exact .wakeWrite _
  | wake hpc => exact .wake _
  | reset => exact .reset

/-! ### Whole samples -/

/-- `bs` is the bytes of some of the pushed samples, in the order they were pushed. -/
def Recorded (pushed : List Sample) (bs : Bytes) : Prop :=
  ∃ ys, ys.Sublist pushed ∧ bs = samplesToBytes ys

theorem Recorded.snoc {pushed : List Sample} {bs : Bytes} (h : Recorded pushed bs) (item : Sample) :
    Recorded (pushed ++ [item]) bs := by
  obtain ⟨ys, hys, hbs⟩ := h
  exact ⟨ys, hys.trans (List.sublist_append_left _ _), hbs⟩

/-- The ring, the buffers of the reads and everything delivered hold whole pushed samples. -/
structure Whole (s : Sys) : Prop where
  ring : ∃ xs, Holds s.dev xs ∧ xs.Sublist s.log.pushed
  buffers : ∀ i bs, s.pc i = .readCopy bs → Recorded s.log.pushed bs
  delivered : ∀ i bs, Return.read i (.ok bs) ∈ s.log.returns → Recorded s.log.pushed bs

theorem whole_init : Whole Sys.init where
  ring := ⟨[], holds_init, .refl _⟩
  buffers _ _ h := by cases h
  delivered _ _ h := by cases h

theorem Whole.goto {s : Sys} (hs : Whole s) (i : ℕ) (pc : Pc)
    (hpc : ∀ bs, pc = .readCopy bs → Recorded s.log.pushed bs) : Whole (s.goto i pc) where
  ring := hs.ring
  buffers j bs h := by
    simp only [Sys.goto, Function.update_apply] at h
    split_ifs at h
    · exact hpc bs h
    · exact hs.buffers j bs h
  delivered := hs.delivered

theorem Whole.ret {s : Sys} (hs : Whole s) (i : ℕ) {r : Return}
    (hr : ∀ j bs, r = .read j (.ok bs) → Recorded s.log.pushed bs) : Whole (s.ret i r) where
  ring := hs.ring
  buffers := (hs.goto i .idle (by simp)).buffers
  delivered j bs h := by
    simp only [Sys.ret, List.mem_append, List.mem_singleton] at h
    rcases h with h | h
    · exact hs.delivered j bs h
    · exact hr j bs h.symm

theorem wakeUp_readCopy {pc : ℕ → Pc} {i : ℕ} {bs : Bytes} (h : wakeUp pc i = .readCopy bs) :
    pc i = .readCopy bs := by
  unfold wakeUp at h
  split at h
  · cases h
  · exact h

theorem Whole.wakeUp {s : Sys} (hs : Whole s) : Whole { s with pc := wakeUp s.pc } where
  ring := hs.ring
  buffers i bs h := hs.buffers i bs (wakeUp_readCopy h)
  delivered := hs.delivered

theorem whole_pushLocked {s : Sys} (hs : Whole s) (sample : Sample) (injected : Bool) :
    Whole (pushLocked s sample injected) where
  ring := by
    obtain ⟨xs, hx, hsub⟩ := hs.ring
    by_cases hroom : xs.length < fifoSamples
    · exact ⟨_, (pushSample_room hx hroom sample injected).1, hsub.append (.refl _)⟩
    · exact ⟨xs, (pushSample_full hx hroom sample injected).1,
        hsub.trans (List.sublist_append_left _ _)⟩
  buffers i bs h := (hs.buffers i bs h).snoc _
  delivered i bs h := (hs.delivered i bs h).snoc _

theorem whole_readLocked {s : Sys} (hs : Whole s) (count : ℕ) :
    Whole (readLocked s count).2 ∧ Recorded s.log.pushed (readLocked s count).1 := by
  obtain ⟨xs, hx, hsub⟩ := hs.ring
  obtain ⟨hout, hleft, -⟩ := readOut_holds hx count
  refine ⟨⟨⟨_, hleft, (List.drop_sublist _ _).trans hsub⟩, hs.buffers, hs.delivered⟩,
    _, (List.take_sublist _ _).trans hsub, hout⟩

theorem whole_step {s t : Sys} {l : Label} (hs : Whole s) (h : drvStep s l = some t) : Whole t := by
  cases drvStep_effect h with
  | goto i pc hpc => exact hs.goto i pc fun bs hbs => absurd hbs (hpc bs)
  | fail i r hr => exact hs.ret i fun j bs hbs => absurd hbs (hr j bs)
  | deliver i samples hpc =>
      apply hs.ret i
      intro j bs hbs
      cases hbs
      exact hs.buffers i samples hpc
  | readLock i count _ =>
      obtain ⟨hw, hrec⟩ := whole_readLocked hs count
      apply hw.goto i
      intro bs hbs
      cases hbs
      exact hrec
  | pushLock i sample injected _ => exact (whole_pushLocked hs sample injected).goto i _ (by simp)
  | wake i => exact hs.wakeUp.goto i _ (by simp)
  | wakeWrite i => exact hs.wakeUp.ret i (by simp)
  | reset => exact ⟨⟨[], holds_reset _, List.nil_sublist _⟩, hs.buffers, hs.delivered⟩

/-- **Record integrity.** In every reachable state the ring is a whole number of samples, namely
samples that were pushed, in push order; `kfifo_in` copies a sample or nothing; and whatever a read
returned is whole pushed samples. -/
theorem record_integrity {s : Sys} (h : Reachable drvStep Sys.init s) :
    s.dev.fifo.length % sizeofSample = 0 ∧
    Recorded s.log.pushed s.dev.fifo ∧
    (∀ sample, (kfifoIn s.dev.fifo (stamp s.dev sample).toBytes).2 = 0 ∨
      (kfifoIn s.dev.fifo (stamp s.dev sample).toBytes).2 = sizeofSample) ∧
    (∀ i bs, Return.read i (.ok bs) ∈ s.log.returns → Recorded s.log.pushed bs) := by
  have hs : Whole s := h.inv Whole (fun _ _ _ hs => whole_step hs) whole_init
  obtain ⟨xs, hx, hsub⟩ := hs.ring
  refine ⟨by rw [hx.length_fifo, Nat.mul_mod_right], ⟨xs, hsub, hx.fifo⟩, ?_, hs.delivered⟩
  intro sample
  rw [kfifoIn_holds hx]
  split_ifs
  · exact Or.inr rfl
  · exact Or.inl rfl

/-- A timer sample is pushed, and a non-blocking read of 100 bytes takes it. -/
def oneRead : List Label :=
  [.timer 0 5 7, .pushLock 0, .wake 0, .read 1 100 true, .check 1, .readLock 1, .copy 1 false]

theorem record_integrity_oneRead : ∃ s, run drvStep Sys.init oneRead = some s ∧
    s.dev.fifo = [] ∧ Recorded s.log.pushed (timerSample 5 7).toBytes := by
  obtain ⟨s, hs⟩ : ∃ s, run drvStep Sys.init oneRead = some s := ⟨_, rfl⟩
  have hf : (run drvStep Sys.init oneRead).map (fun s => s.dev.fifo) = some [] := rfl
  have hr : (run drvStep Sys.init oneRead).map (fun s => s.log.returns) =
      some [.read 1 (.ok (timerSample 5 7).toBytes)] := rfl
  rw [hs] at hf hr
  have hr' : s.log.returns = [.read 1 (.ok (timerSample 5 7).toBytes)] := Option.some.inj hr
  refine ⟨s, hs, Option.some.inj hf, (record_integrity ⟨_, hs⟩).2.2.2 1 _ ?_⟩
  rw [hr']
  exact List.mem_singleton_self _

end SensorHub.Driver
