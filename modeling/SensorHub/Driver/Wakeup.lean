import SensorHub.Driver.Calls

set_option autoImplicit false

/-!
# No sleeping reader is forgotten

A push makes its sample visible in the locked section and wakes the readers afterwards. In between,
readers may sleep while there is data. `wait_event_interruptible` puts a reader on `read_queue`
before it tests its condition, so a position `readSleep` begins with a test that found the ring
empty, and from then on every wake-up reaches the reader.

* `Awaited`: a reader sleeps beside data only while some push has its wake-up still to come.
* `Rouse`, `drvStep_rouse`: what a step means to the sleepers; `awaited_step`.
* **`sleeper_awaited`**: in every reachable state.
-/

namespace SensorHub.Driver

open Trans

/-- If there is data and a reader sleeps, a push has left its locked section and has not executed
its wake-up yet. -/
def Awaited (s : Sys) : Prop :=
  s.dev.fifo ≠ [] → (∃ i count, s.pc i = .readSleep count) →
    ∃ j injected, s.pc j = .pushWake injected

/-- What a step from `s` to `t` means to the sleepers. -/
inductive Rouse (s t : Sys) : Prop
  /-- A thread that was not about to wake the readers moves on, and does not fall asleep; no data is
  added. -/
  | moved (i : ℕ) (pc : Pc) (hpc : t.pc = Function.update s.pc i pc)
      (hfrom : ∀ injected, s.pc i ≠ .pushWake injected) (hto : ∀ count, pc ≠ .readSleep count)
      (hfifo : s.dev.fifo = [] → t.dev.fifo = [])
  /-- A reader has found the ring empty and falls asleep, or the ring was cleared. -/
  | empty (hfifo : t.dev.fifo = [])
  /-- A push leaves its locked section. -/
  | pushed (i : ℕ) (injected : Bool) (hpc : t.pc i = .pushWake injected)
  /-- Every sleeper is woken. -/
  | woken (hpc : ∀ i count, t.pc i ≠ .readSleep count)

theorem wakeUp_ne_readSleep (pc : ℕ → Pc) (i count : ℕ) : wakeUp pc i ≠ .readSleep count := by
  unfold wakeUp
  cases hpc : pc i <;> simp

/-- The wake-up of a push leaves nobody asleep, the push itself included. -/
theorem update_wakeUp_ne_readSleep (pc : ℕ → Pc) (i j count : ℕ) :
    Function.update (wakeUp pc) i .idle j ≠ .readSleep count := by
  by_cases hj : j = i
  · rw [hj, Function.update_self]
    exact Pc.noConfusion
  · rw [Function.update_of_ne hj]
    exact wakeUp_ne_readSleep pc j count

/-- A thread at a position that is not before a wake-up goes on to one that is not asleep, and the
ring keeps its content. -/
theorem Rouse.goto {s t : Sys} {i : ℕ} {pc pc' : Pc} (hpc : s.pc i = pc)
    (hpc' : t.pc = Function.update s.pc i pc') (hfrom : ∀ injected, pc ≠ .pushWake injected)
    (hto : ∀ count, pc' ≠ .readSleep count) (hdev : t.dev = s.dev) : Rouse s t := by
  refine .moved i pc' hpc' ?_ hto ?_
  · rw [hpc]
    exact hfrom
  · rw [hdev]
    exact id

theorem drvStep_rouse {s t : Sys} {l : Label} (h : drvStep s l = some t) : Rouse s t := by
  cases drvStep_branch h with
  | readShort hpc hc => exact .goto hpc rfl (by simp) (by simp) rfl
  | read hpc hc => exact .goto hpc rfl (by simp) (by simp) rfl
  | checkData hpc hd => exact .goto hpc rfl (by simp) (by simp) rfl
  | checkAgain hpc hd hn => exact .goto hpc rfl (by simp) (by simp) rfl
  | checkWait hpc hd => exact .goto hpc rfl (by simp) (by simp) rfl
  | testData hpc hd => exact .goto hpc rfl (by simp) (by simp) rfl
  | testSignal hpc hd => exact .goto hpc rfl (by simp) (by simp) rfl
  | testSleep hpc hd => exact .empty (fifo_eq_nil_of_not_hasData hd)
  | interrupt hpc => exact .goto hpc rfl (by simp) (by simp) rfl
  | @readLock i count hpc =>
      refine .moved i _ rfl (by simp [hpc]) (by simp) ?_
      -- a read only takes data away
      intro hnil
      simp [readLocked, Sys.goto, readOut, kfifoOut, RecordFifo.fetch, hnil]
  | copyFault hpc hf => exact .goto hpc rfl (by simp) (by simp) rfl
  | copy hpc => exact .goto hpc rfl (by simp) (by simp) rfl
  | writeFails hpc => exact .goto hpc rfl (by simp) (by simp) rfl
  | write hpc => exact .goto hpc rfl (by simp) (by simp) rfl
  | timer hpc => exact .goto hpc rfl (by simp) (by simp) rfl
  | @pushLock i sample injected hpc => exact .pushed i injected (Function.update_self i _ _)
  | @wakeWrite i injected hpc => exact .woken (update_wakeUp_ne_readSleep s.pc i)
  | @wake i injected hpc => exact .woken (update_wakeUp_ne_readSleep s.pc i)
  | reset => exact .empty rfl

theorem awaited_step {s t : Sys} {l : Label} (hs : Awaited s) (h : drvStep s l = some t) :
    Awaited t := by
  rintro hdata ⟨k, count, hk⟩
  cases drvStep_rouse h with
  | moved i pc hpc hfrom hto hfifo =>
      have hki : k ≠ i := by
        rintro rfl
        rw [hpc, Function.update_self] at hk
        exact hto count hk
      rw [hpc, Function.update_of_ne hki] at hk
      obtain ⟨j, injected, hj⟩ := hs (fun hnil => hdata (hfifo hnil)) ⟨k, count, hk⟩
      have hji : j ≠ i := by
        rintro rfl
        exact hfrom injected hj
      exact ⟨j, injected, by rw [hpc, Function.update_of_ne hji, hj]⟩
  | empty hfifo => exact absurd hfifo hdata
  | pushed i injected hpc => exact ⟨i, injected, hpc⟩
  | woken hpc => exact absurd hk (hpc k count)

/-- **No sleeping reader is forgotten.** For every interleaving of pushes, readers of both kinds and
resets: if the ring is not empty while a reader sleeps on `read_queue`, some push has left its
locked section and has not executed its `wake_up_interruptible` yet. -/
theorem sleeper_awaited {s : Sys} (h : Reachable drvStep Sys.init s) (hdata : s.dev.fifo ≠ [])
    {i count : ℕ} (hi : s.pc i = .readSleep count) : ∃ j injected, s.pc j = .pushWake injected := by
  have hinit : Awaited Sys.init := fun hdata => absurd rfl hdata
  have hs : Awaited s := h.inv Awaited (fun _ _ _ hs hst => awaited_step hs hst) hinit
  exact hs hdata ⟨i, count, hi⟩

/-- Two readers sleep; one push wakes them and one of them takes its sample, the other goes back to
sleep; a second push has left its locked section. -/
def asleepBesideData : List Label :=
  [.read 1 32 false, .check 1, .test 1 false, .read 2 32 false, .check 2, .test 2 false,
    .timer 0 5 7, .pushLock 0, .wake 0, .test 1 false, .readLock 1, .test 2 false,
    .timer 0 6 7, .pushLock 0]

theorem sleeper_awaited_asleepBesideData :
    ∃ s, run drvStep Sys.init asleepBesideData = some s ∧ s.dev.fifo ≠ [] ∧
      s.pc 2 = .readSleep 32 ∧ ∃ j injected, s.pc j = .pushWake injected := by
  obtain ⟨s, hs⟩ : ∃ s, run drvStep Sys.init asleepBesideData = some s := ⟨_, rfl⟩
  have hdata : (run drvStep Sys.init asleepBesideData).map (fun s => s.dev.fifo.length) =
      some 32 := rfl
  have hpc : (run drvStep Sys.init asleepBesideData).map (fun s => s.pc 2) =
      some (.readSleep 32) := rfl
  rw [hs, Option.map_some, Option.some.injEq] at hdata hpc
  have hne : s.dev.fifo ≠ [] := by
    intro hnil
    rw [hnil] at hdata
    cases hdata
  exact ⟨s, hs, hne, hpc, sleeper_awaited ⟨_, hs⟩ hne hpc⟩

end SensorHub.Driver
