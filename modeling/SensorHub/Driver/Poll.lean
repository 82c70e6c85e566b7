import SensorHub.Driver.Wakeup
import SensorHub.Trans.Level

set_option autoImplicit false

/-!
# Polling the device

`sensorhub_poll` of `kernel/sensorhub_drv.c` under `epoll`, which the daemon waits in
(`EpollLoop::run_once`). `poll_wait` puts the caller on `read_queue` before the FIFO is looked at,
and `sensorhub_push_sample` wakes the queue after the sample is in the FIFO. The watchers are the
`epoll` instances of any number of processes.

* `PollMask`, `sensorhubPoll`; `pollStep`: the driver's threads and the watchers.
* `wakeDue_kept`, **`announced`**: a push that has stored its sample owes a wake-up.
* **`no_sleep_beside_data`**: nobody sleeps in `epoll_wait` beside data that no push is about to
  announce, and who waits beside data is told.
-/

namespace SensorHub.Driver

open Trans

/-- The result of `sensorhub_poll`: `EPOLLIN | EPOLLRDNORM` and `EPOLLOUT | EPOLLWRNORM`. -/
structure PollMask where
  readable : Bool
  writable : Bool
  deriving DecidableEq

/-- `sensorhub_poll` behind `poll_wait`. -/
def sensorhubPoll (d : Ring) : PollMask := ⟨hasData d, true⟩

/-- What `epoll` is told of a file that is watched for `EPOLLIN`. -/
def epollIn (s : Sys) : Bool := (sensorhubPoll s.dev).readable

/-- The step is `wake_up_interruptible(&dev->read_queue)`. -/
def Label.wakes : Label → Bool
  | .wake _ => true
  | _ => false

/-- A push has left its locked section and has not executed its wake-up. -/
def WakeDue (s : Sys) : Prop := ∃ i injected, s.pc i = .pushWake injected

/-- The threads of the driver and those who watch the device. -/
def pollStep : Watched ℕ Sys → WatchLabel ℕ Label → Option (Watched ℕ Sys) :=
  watchStep drvStep epollIn Label.wakes

/-- A thread that is not before a wake-up moves on. -/
theorem WakeDue.update {s t : Sys} (hs : WakeDue s) {i : ℕ} {pc pc' : Pc} (hi : s.pc i = pc)
    (hfrom : ∀ injected, pc ≠ .pushWake injected) (ht : t.pc = Function.update s.pc i pc') :
    WakeDue t := by
  obtain ⟨j, injected, hj⟩ := hs
  have hji : j ≠ i := by
    rintro rfl
    exact hfrom injected (hi.symm.trans hj)
  exact ⟨j, injected, by rw [ht, Function.update_of_ne hji, hj]⟩

/-- Only a wake-up settles what a push owes. -/
theorem wakeDue_kept {s t : Sys} {l : Label} (h : drvStep s l = some t) (hl : l.wakes = false)
    (hs : WakeDue s) : WakeDue t := by
  cases drvStep_branch h with
  | readShort hpc hc => exact hs.update hpc (by simp) rfl
  | read hpc hc => exact hs.update hpc (by simp) rfl
  | checkData hpc hd => exact hs.update hpc (by simp) rfl
  | checkAgain hpc hd hn => exact hs.update hpc (by simp) rfl
  | checkWait hpc hd => exact hs.update hpc (by simp) rfl
  | testData hpc hd => exact hs.update hpc (by simp) rfl
  | testSignal hpc hd => exact hs.update hpc (by simp) rfl
  | testSleep hpc hd => exact hs.update hpc (by simp) rfl
  | interrupt hpc => exact hs.update hpc (by simp) rfl
  | readLock hpc => exact hs.update hpc (by simp) rfl
  | copyFault hpc hf => exact hs.update hpc (by simp) rfl
  | copy hpc => exact hs.update hpc (by simp) rfl
  | writeFails hpc => exact hs.update hpc (by simp) rfl
  | write hpc => exact hs.update hpc (by simp) rfl
  | timer hpc => exact hs.update hpc (by simp) rfl
  | pushLock hpc => exact hs.update hpc (by simp) rfl
  | wakeWrite hpc => cases hl
  | wake hpc => cases hl
  | reset => exact hs

/-- The FIFO gets data in the locked section of a push only. -/
theorem wakeDue_of_rise {s t : Sys} {l : Label} (h : drvStep s l = some t)
    (hs : epollIn s = false) (ht : epollIn t = true) : WakeDue t := by
  have hsame : t.dev = s.dev → WakeDue t := by
    intro hdev
    rw [epollIn, hdev] at ht
    exact absurd (ht.symm.trans hs) (by decide)
  cases drvStep_effect h with
  | goto i pc hpc => exact hsame rfl
  | fail i r hr => exact hsame rfl
  | deliver i samples hpc => exact hsame rfl
  | readLock i count hpc =>
      -- a read takes from an empty FIFO nothing, and leaves it empty
      have hnil : s.dev.fifo = [] := fifo_eq_nil_of_not_hasData (Bool.eq_false_iff.mp hs)
      have hempty : (readLocked s count).2.dev.fifo = [] := by
        simp [readLocked, readOut, kfifoOut, RecordFifo.fetch, hnil]
      have hdata : hasData (readLocked s count).2.dev = true := ht
      rw [hasData, hempty] at hdata
      cases hdata
  | pushLock i sample injected hpc => exact ⟨i, injected, Function.update_self ..⟩
  | wake i => exact hsame rfl
  | wakeWrite i => exact hsame rfl
  | reset => cases ht

/-- **The driver announces its data.** -/
theorem announced : Announced drvStep epollIn Label.wakes WakeDue := ⟨wakeDue_of_rise, wakeDue_kept⟩

/-- **Nobody sleeps beside data.** However pushes, readers, resets and any number of `epoll`
instances interleave, from the registration of the device on: who sleeps in `epoll_wait` while the
FIFO holds a sample has a push that is about to wake it; and who waits while the FIFO holds a sample
and no push is under way is told that the device is readable. -/
theorem no_sleep_beside_data {s : Watched ℕ Sys}
    (h : Reachable pollStep (Watched.init Sys.init) s) (hdata : s.src.dev.fifo ≠ []) (j : ℕ) :
    ((s.watch j).stage = .asleep → ∃ i injected, s.src.pc i = .pushWake injected) ∧
    ((s.watch j).stage = .working → (∀ i injected, s.src.pc i ≠ .pushWake injected) →
      ∃ t, run pollStep s [.wait j, .test j] = some t ∧ t.src = s.src ∧
        (t.watch j).told = (s.watch j).told + 1) := by
  obtain ⟨hnoticed, hsleepy⟩ := noticed_of_reachable announced h
  have hlevel : epollIn s.src = true := by
    by_contra hnot
    exact hdata (fifo_eq_nil_of_not_hasData hnot)
  constructor
  · intro hasleep
    have hpresent : (s.watch j).stage ≠ .absent := by rw [hasleep]; decide
    rcases hnoticed j hpresent hlevel with hready | hadding | htesting | hdue
    · rw [hsleepy j hasleep] at hready
      cases hready
    · rw [hasleep] at hadding
      cases hadding
    · rw [hasleep] at htesting
      cases htesting
    · exact hdue
  · intro hworking hquiet
    refine reported hnoticed hworking hlevel ?_
    rintro ⟨i, injected, hi⟩
    exact hquiet i injected hi

/-- The daemon sleeps in `epoll_wait`; the timer has stored a sample and has yet to wake it. -/
def asleepInEpoll : List (WatchLabel ℕ Label) :=
  [.add 0, .first 0, .wait 0, .src (.timer 0 5 7), .src (.pushLock 0)]

theorem no_sleep_beside_data_asleepInEpoll :
    ∃ s, run pollStep (Watched.init Sys.init) asleepInEpoll = some s ∧ s.src.dev.fifo ≠ [] ∧
      (s.watch 0).stage = .asleep ∧ ∃ i injected, s.src.pc i = .pushWake injected := by
  obtain ⟨s, hs⟩ : ∃ s, run pollStep (Watched.init Sys.init) asleepInEpoll = some s := ⟨_, rfl⟩
  have hr : (run pollStep (Watched.init Sys.init) asleepInEpoll).map
      (fun s => (s.src.dev.fifo.length, (s.watch 0).stage)) = some (32, .asleep) := rfl
  rw [hs] at hr
  obtain ⟨hlen, hasleep⟩ := Prod.ext_iff.mp (Option.some.inj hr)
  have hdata : s.src.dev.fifo ≠ [] := by
    intro hnil
    simp only [hnil, List.length_nil] at hlen
    cases hlen
  exact ⟨s, hs, hdata, hasleep, (no_sleep_beside_data ⟨_, hs⟩ hdata 0).1 hasleep⟩

end SensorHub.Driver
