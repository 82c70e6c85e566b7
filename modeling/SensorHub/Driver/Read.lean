import SensorHub.Driver.Calls

set_option autoImplicit false

/-!
# What a read returns

`sensorhub_read` looks for data in one section under the lock and takes it out in another one.
Whoever runs in between may leave the ring empty, and then `kfifo_out` copies nothing and the read
returns zero, which its caller takes for the end of the file.

* `Ended`, `Reads`, `readsStep`: the machine of `Driver.Calls` with the arguments of the reads and
  their results side by side. Nothing in the driver reads these records.
* `Ended.Proper`: the results a read may have.
* `FindsData`, `Orderly`, `orderly_step`: as long as every dequeue finds data, reads end properly.
* **`reads_end_properly`**; `twoReaders`, **`read_returns_zero`**: two readers and one sample.
-/

namespace SensorHub.Driver

open Trans

/-- A read that has returned: its arguments and its result. -/
structure Ended where
  count : ℕ
  nonblock : Bool
  result : Except Errno Bytes

/-- A positive number of whole samples; `-EAGAIN`, for a file with `O_NONBLOCK`; or the error of a
wait that was interrupted. -/
def Ended.Proper (e : Ended) : Prop :=
  match e.result with
  | .ok samples => 0 < samples.length ∧ sizeofSample ∣ samples.length
  | .error .EAGAIN => e.nonblock = true
  | .error .ERESTARTSYS => True
  | .error _ => False

/-- The driver, the arguments of each thread's latest read, and the reads that have returned. -/
structure Reads where
  sys : Sys
  asked : ℕ → ℕ × Bool
  ended : List Ended

namespace Reads

def init : Reads := ⟨Sys.init, fun _ => (0, false), []⟩

/-- The arguments of the reads, once `l` has begun. -/
def askedBy (asked : ℕ → ℕ × Bool) : Label → ℕ → ℕ × Bool
  | .read i count nonblock => Function.update asked i (count, nonblock)
  | _ => asked

/-- A return, if it is one from a read. -/
def endedBy (asked : ℕ → ℕ × Bool) : Return → Option Ended
  | .read i result => some ⟨(asked i).1, (asked i).2, result⟩
  | .write _ _ => none

/-- One step of the driver, with the records. -/
def readsStep (s : Reads) (l : Label) : Option Reads :=
  (drvStep s.sys l).map fun t =>
    let asked := askedBy s.asked l
    ⟨t, asked, s.ended ++ (t.log.returns.drop s.sys.log.returns.length).filterMap (endedBy asked)⟩

/-- A read that takes its samples finds some. -/
def FindsData (s : Reads) : Label → Prop
  | .readLock _ => hasData s.sys.dev = true
  | _ => True

/-- No copy to user space faults. -/
def NoFault : Label → Prop
  | .copy _ fault => fault = false
  | _ => True

/-- What is known of a read at its position; in a `strict` run a buffer is never empty. -/
def Standing (strict : Prop) (asked : ℕ × Bool) : Pc → Prop
  | .readCheck count nonblock => asked = (count, nonblock) ∧ sizeofSample ≤ count
  | .readWait count => asked.1 = count ∧ sizeofSample ≤ count
  | .readSleep count => asked.1 = count ∧ sizeofSample ≤ count
  | .readLock count => asked.1 = count ∧ sizeofSample ≤ count
  | .readCopy samples => sizeofSample ≤ asked.1 ∧
      (strict → 0 < samples.length ∧ sizeofSample ∣ samples.length)
  | _ => True

/-- The reads stand where they should; in a `strict` run they have ended as they should. -/
structure Orderly (strict : Prop) (s : Reads) : Prop where
  whole : Whole s.sys
  standing : ∀ i, Standing strict (s.asked i) (s.sys.pc i)
  ended : strict → ∀ e ∈ s.ended, sizeofSample ≤ e.count → e.Proper

theorem orderly_init (strict : Prop) : Orderly strict init :=
  ⟨whole_init, fun _ => trivial, fun _ _ h => by cases h⟩

variable {strict : Prop} {s : Reads} {t : Sys} {l : Label}

/-- A step that only moves thread `i` on. -/
theorem Orderly.moved (hs : Orderly strict s) (hw : Whole t) {i : ℕ} {pc : Pc}
    {asked : ℕ → ℕ × Bool} (hpc : t.pc = Function.update s.sys.pc i pc)
    (hasked : ∀ j, j ≠ i → asked j = s.asked j) (hi : Standing strict (asked i) pc)
    (hreturns : t.log.returns = s.sys.log.returns) :
    Orderly strict ⟨t, asked, s.ended ++
      (t.log.returns.drop s.sys.log.returns.length).filterMap (endedBy asked)⟩ where
  whole := hw
  standing j := by
    simp only [hpc, Function.update_apply]
    split_ifs with hj
    · rw [hj]
      exact hi
    · rw [hasked j hj]
      exact hs.standing j
  ended hstrict e he := by
    rw [hreturns, List.drop_length, List.filterMap_nil, List.append_nil] at he
    exact hs.ended hstrict e he

/-- A step in which thread `i` returns. -/
theorem Orderly.returned (hs : Orderly strict s) (hw : Whole t) {i : ℕ} {asked : ℕ → ℕ × Bool}
    (hpc : t.pc = Function.update s.sys.pc i .idle) (hasked : ∀ j, j ≠ i → asked j = s.asked j)
    {r : Return} (hreturns : t.log.returns = s.sys.log.returns ++ [r])
    (hr : strict → ∀ e, endedBy asked r = some e → sizeofSample ≤ e.count → e.Proper) :
    Orderly strict ⟨t, asked, s.ended ++
      (t.log.returns.drop s.sys.log.returns.length).filterMap (endedBy asked)⟩ where
  whole := hw
  standing j := by
    simp only [hpc, Function.update_apply]
    split_ifs with hj
    · trivial
    · rw [hasked j hj]
      exact hs.standing j
  ended hstrict e he hcount := by
    rw [hreturns, List.drop_left, List.mem_append, List.mem_filterMap] at he
    rcases he with he | ⟨r', hmem, he⟩
    · exact hs.ended hstrict e he hcount
    · rw [List.mem_singleton.mp hmem] at he
      exact hr hstrict e he hcount

/-- **A dequeue that finds data** takes a positive number of whole samples. -/
theorem readOut_pos {d : Ring} {xs : List Sample} (h : Holds d xs) (hd : hasData d = true)
    {count : ℕ} (hcount : sizeofSample ≤ count) :
    0 < (readOut d count).1.length ∧ sizeofSample ∣ (readOut d count).1.length := by
  rw [(readOut_holds h count).1, length_samplesToBytes, List.length_take]
  refine ⟨?_, dvd_mul_right _ _⟩
  have hxs : 0 < xs.length := by
    by_contra hnot
    have hnil : xs = [] := List.length_eq_zero_iff.mp (Nat.eq_zero_of_not_pos hnot)
    rw [hasData, h.fifo, hnil] at hd
    cases hd
  have hasked : 0 < askedSamples count := by
    unfold askedSamples sizeofSample readSamples at *
    omega
  exact Nat.mul_pos (by decide) (lt_min hasked hxs)

theorem standing_wakeUp (asked : ℕ → ℕ × Bool) {pc : ℕ → Pc}
    (h : ∀ i, Standing strict (asked i) (pc i)) (i : ℕ) :
    Standing strict (asked i) (wakeUp pc i) := by
  have hi := h i
  unfold wakeUp
  split
  · rename_i count heq
    rw [heq] at hi
    exact hi
  · exact hi

/-- **As long as every dequeue finds data, reads end properly.** -/
theorem orderly_step {u : Reads} (hs : Orderly strict s)
    (hok : strict → FindsData s l ∧ NoFault l) (h : readsStep s l = some u) :
    Orderly strict u := by
  obtain ⟨t, ht, rfl⟩ := Option.map_eq_some_iff.mp h
  have hw : Whole t := whole_step hs.whole ht
  -- what is known of a thread, at its position
  have hat : ∀ {i pc}, s.sys.pc i = pc → Standing strict (s.asked i) pc :=
    fun {i _} hpc => hpc ▸ hs.standing i
  have hwoken : Orderly strict { s with sys := { s.sys with pc := wakeUp s.sys.pc } } :=
    ⟨hs.whole.wakeUp, standing_wakeUp s.asked hs.standing, hs.ended⟩
  cases drvStep_branch ht with
  | @readShort i count nonblock hpc hc =>
      refine hs.returned hw rfl (fun j hj => Function.update_of_ne hj _ _) rfl ?_
      intro _ e he hcount
      cases he
      simp only [askedBy, Function.update_self] at hcount
      omega
  | @read i count nonblock hpc hc =>
      refine hs.moved hw rfl (fun j hj => Function.update_of_ne hj _ _) ?_ rfl
      rw [askedBy, Function.update_self]
      exact ⟨rfl, Nat.le_of_not_lt hc⟩
  | checkData hpc hd =>
      have hi := hat hpc
      exact hs.moved hw rfl (fun _ _ => rfl) ⟨congrArg Prod.fst hi.1, hi.2⟩ rfl
  | @checkAgain i count nonblock hpc hd hn =>
      have hi := hat hpc
      refine hs.returned hw rfl (fun _ _ => rfl) rfl ?_
      intro _ e he _
      cases he
      show (s.asked i).2 = true
      rw [hi.1]
      exact hn
  | checkWait hpc hd =>
      have hi := hat hpc
      exact hs.moved hw rfl (fun _ _ => rfl) ⟨congrArg Prod.fst hi.1, hi.2⟩ rfl
  | testData hpc hd =>
      have hi := hat hpc
      exact hs.moved hw rfl (fun _ _ => rfl) hi rfl
  | testSignal hpc hd =>
      refine hs.returned hw rfl (fun _ _ => rfl) rfl ?_
      intro _ e he _
      cases he
      trivial
  | testSleep hpc hd =>
      have hi := hat hpc
      exact hs.moved hw rfl (fun _ _ => rfl) hi rfl
  | interrupt hpc =>
      have hi := hat hpc
      exact hs.moved hw rfl (fun _ _ => rfl) hi rfl
  | @readLock i count hpc =>
      have hi := hat hpc
      obtain ⟨xs, hx, -⟩ := hs.whole.ring
      refine hs.moved hw rfl (fun _ _ => rfl) ⟨?_, ?_⟩ rfl
      · show sizeofSample ≤ (s.asked i).1
        rw [hi.1]
        exact hi.2
      · intro hstrict
        exact readOut_pos hx (hok hstrict).1 hi.2
  | copyFault hpc hf =>
      refine hs.returned hw rfl (fun _ _ => rfl) rfl ?_
      intro hstrict
      have hno := (hok hstrict).2
      rw [NoFault, hf] at hno
      cases hno
  | copy hpc =>
      refine hs.returned hw rfl (fun _ _ => rfl) rfl ?_
      intro hstrict e he _
      cases he
      exact (hat hpc).2 hstrict
  | writeFails hpc => exact hs.returned hw rfl (fun _ _ => rfl) rfl fun _ e he => by cases he
  | write hpc => exact hs.moved hw rfl (fun _ _ => rfl) trivial rfl
  | timer hpc => exact hs.moved hw rfl (fun _ _ => rfl) trivial rfl
  | pushLock hpc => exact hs.moved hw rfl (fun _ _ => rfl) trivial rfl
  | wakeWrite hpc => exact hwoken.returned hw rfl (fun _ _ => rfl) rfl fun _ e he => by cases he
  | wake hpc => exact hwoken.moved hw rfl (fun _ _ => rfl) trivial rfl
  | reset =>
      exact hs.moved hw (Function.update_eq_self 0 s.sys.pc).symm (fun _ _ => rfl) (hs.standing 0)
        rfl

/-- The reads of a run, with what is known of them. -/
theorem orderly_run {u : Reads} {ls : List Label} (h : run readsStep init ls = some u)
    (hok : strict → AllSteps readsStep FindsData init ls ∧ ∀ l ∈ ls, NoFault l) :
    Orderly strict u := by
  by_cases hstrict : strict
  · have hall := (hok hstrict).1.and_forall (hok hstrict).2
    exact run_inv_of (Orderly strict) (fun _ _ _ hs hl hstep => orderly_step hs (fun _ => hl) hstep)
      (orderly_init strict) hall h
  · exact run_inv (Orderly strict)
      (fun _ _ _ hs hstep => orderly_step hs (fun hyes => absurd hyes hstrict) hstep)
      (orderly_init strict) h

/-- A dequeue from an empty ring. -/
theorem readOut_empty {d : Ring} (hd : ¬ hasData d = true) (count : ℕ) :
    (readOut d count).1 = [] := by
  have hnil := fifo_eq_nil_of_not_hasData hd
  simp [readOut, kfifoOut, RecordFifo.fetch, hnil]

/-- The copy to user space ends the read. -/
theorem readsStep_copy {i : ℕ} {samples : Bytes} (hpc : s.sys.pc i = .readCopy samples) :
    readsStep s (.copy i false) = some ⟨s.sys.ret i (.read i (.ok samples)), s.asked,
      s.ended ++ [⟨(s.asked i).1, (s.asked i).2, .ok samples⟩]⟩ := by
  simp [readsStep, drvStep, hpc, Sys.ret, Sys.goto, askedBy, endedBy]

/-- **A dequeue that finds nothing** is a read of zero bytes. -/
theorem copy_of_not_findsData {u : Reads} {i : ℕ} (hs : Orderly strict s)
    (h : readsStep s (.readLock i) = some u) (hd : ¬ FindsData s (.readLock i)) :
    ∃ v e, readsStep u (.copy i false) = some v ∧ v.ended = s.ended ++ [e] ∧
      sizeofSample ≤ e.count ∧ e.result = .ok [] := by
  obtain ⟨t, ht, rfl⟩ := Option.map_eq_some_iff.mp h
  simp only [drvStep] at ht
  split at ht <;> cases ht
  rename_i count hpc
  have hi := hs.standing i
  rw [hpc] at hi
  have hout : (readLocked s.sys count).1 = [] := readOut_empty hd count
  have hreturns : (readLocked s.sys count).2.log.returns = s.sys.log.returns := rfl
  refine ⟨_, ⟨(s.asked i).1, (s.asked i).2, .ok []⟩, @readsStep_copy _ i [] ?_, ?_, ?_, rfl⟩
  · simp [Sys.goto, hout]
  · simp [Sys.goto, hreturns, askedBy]
  · show sizeofSample ≤ (s.asked i).1
    rw [hi.1]
    exact hi.2

end Reads

open Reads

/-- **Reads end properly while dequeues find data.** In a run without faults in which every read
that enters its locked section finds the ring not empty, every read of at least one sample returns a
positive number of whole samples, `-EAGAIN` for a file with `O_NONBLOCK`, or the error of an
interrupted wait. After any run, a read that enters its locked section with the ring empty returns
zero. -/
theorem reads_end_properly {ls : List Label} {s : Reads} (h : run readsStep Reads.init ls = some s)
    (hfault : ∀ l ∈ ls, NoFault l) :
    (AllSteps readsStep FindsData Reads.init ls →
      ∀ e ∈ s.ended, sizeofSample ≤ e.count → e.Proper) ∧
    (∀ i t, readsStep s (.readLock i) = some t → ¬ FindsData s (.readLock i) →
      ∃ u e, readsStep t (.copy i false) = some u ∧ u.ended = s.ended ++ [e] ∧
        sizeofSample ≤ e.count ∧ e.result = .ok []) := by
  constructor
  · intro hall
    exact (@orderly_run True s ls h fun _ => ⟨hall, hfault⟩).ended trivial
  · intro i t ht hd
    exact copy_of_not_findsData (@orderly_run False s ls h False.elim) ht hd

/-- One sample and one reader, who waits for it. -/
def oneReader : List Label :=
  [.read 1 100 false, .check 1, .timer 0 5 7, .pushLock 0, .wake 0, .test 1 false, .readLock 1,
    .copy 1 false]

theorem reads_end_properly_oneReader : ∃ s, run readsStep Reads.init oneReader = some s ∧
    s.ended.length = 1 ∧ ∀ e ∈ s.ended, sizeofSample ≤ e.count → e.Proper := by
  obtain ⟨s, hs⟩ : ∃ s, run readsStep Reads.init oneReader = some s := ⟨_, rfl⟩
  have hlength : (run readsStep Reads.init oneReader).map (fun s => s.ended.length) = some 1 := rfl
  rw [hs] at hlength
  refine ⟨s, hs, Option.some.inj hlength, (reads_end_properly hs ?_).1 ?_⟩
  · simp [oneReader, NoFault]
  · refine .cons rfl trivial (.cons rfl trivial (.cons rfl trivial (.cons rfl trivial ?_)))
    exact .cons rfl trivial (.cons rfl trivial (.cons rfl rfl (.cons rfl trivial trivial)))

/-- One sample and two readers, who both see it before either takes it. -/
def twoReaders : List Label :=
  [.timer 0 5 7, .pushLock 0, .wake 0, .read 1 32 false, .read 2 32 false, .check 1, .check 2,
    .readLock 1, .readLock 2, .copy 1 false, .copy 2 false]

/-- **A blocking read of 32 bytes that returns zero.** -/
theorem read_returns_zero : ∃ s, run readsStep Reads.init twoReaders = some s ∧
    (∀ l ∈ twoReaders, NoFault l) ∧
    ∃ e ∈ s.ended, e.count = 32 ∧ e.nonblock = false ∧ e.result = .ok [] ∧ ¬ e.Proper := by
  obtain ⟨s, hs⟩ : ∃ s, run readsStep Reads.init twoReaders = some s := ⟨_, rfl⟩
  have hended : (run readsStep Reads.init twoReaders).map (fun s => s.ended) =
      some [⟨32, false, .ok (timerSample 5 7).toBytes⟩, ⟨32, false, .ok []⟩] := rfl
  rw [hs, Option.map_some] at hended
  refine ⟨s, hs, by simp [twoReaders, NoFault], ⟨32, false, .ok []⟩, ?_, rfl, rfl, rfl, ?_⟩
  · rw [Option.some.inj hended]
    exact List.mem_cons_of_mem _ List.mem_cons_self
  · intro hproper
    exact absurd hproper.1 (lt_irrefl 0)

end SensorHub.Driver
