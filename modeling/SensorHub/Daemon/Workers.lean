import SensorHub.Queue.Model
import SensorHub.Uapi.Sample
import Mathlib.Algebra.BigOperators.Group.Finset.Basic
import Mathlib.Algebra.Order.Group.Multiset

set_option autoImplicit false

/-!
# The queue, the workers and what becomes of a sample

`userspace/src/main.cpp`, the half of the daemon behind the queue. The main thread submits samples;
each worker takes one, passes it to `LogWriter::write_sample`, broadcasts its line and counts it. A
step of a worker is what it does between two points another thread can see.

* `WorkerPc`, `Work`; `submit`, `workerStep`, `close`.
* `accounted`: the samples behind the main thread, wherever they are; **`accounted_submit`**,
  **`accounted_workerStep`**: a submission adds one, a worker only moves them.
* `weight`, **`workerStep_weight`**, `exists_workerStep`: behind a closed queue the workers end.
* `inLine`, **`inLine_submit`**, **`inLine_workerStep`**: one worker also keeps their order.
-/

namespace SensorHub

/-- Where a worker stands in its loop. -/
inductive WorkerPc
  /-- Before `queue.pop()`. -/
  | pop
  /-- It holds `item`, before `writer.write_sample(*item)`. -/
  | write (item : Sample)
  /-- Before `tcp.broadcast_line(line)`. -/
  | broadcast (item : Sample)
  /-- Before `stats.processed++`. -/
  | processed
  /-- Before `stats.exported++`. -/
  | exported
  /-- It left the loop. -/
  | exited

/-- The samples a worker has taken and not passed to `write_sample`. -/
def WorkerPc.held : WorkerPc → List Sample
  | .write item => [item]
  | _ => []

@[simp] theorem WorkerPc.held_pop : WorkerPc.pop.held = [] := rfl
@[simp] theorem WorkerPc.held_write (item : Sample) : (WorkerPc.write item).held = [item] := rfl
@[simp] theorem WorkerPc.held_broadcast (item : Sample) : (WorkerPc.broadcast item).held = [] := rfl
@[simp] theorem WorkerPc.held_exited : WorkerPc.exited.held = [] := rfl

/-- The queue with its `n` workers and the counters of `RuntimeStats`; the lists record which
samples were rejected by `push`, passed to `write_sample` and broadcast. -/
structure Work (n c : ℕ) where
  queue : BoundedQueue Sample c
  worker : Fin n → WorkerPc
  received : UInt64
  processed : UInt64
  exported : UInt64
  rejected : List Sample
  written : List Sample
  broadcast : List Sample

namespace Work

variable {n c : ℕ}

/-- All workers started, nothing submitted. -/
def init (n c : ℕ) : Work n c :=
  ⟨BoundedQueue.empty Sample c, fun _ => .pop, 0, 0, 0, [], [], []⟩

/-- `stats.received++; queue.push(sample);` -/
def submit (w : Work n c) (sample : Sample) : Work n c :=
  match w.queue.push sample with
  | (true, q) => { w with queue := q, received := w.received + 1 }
  | (false, q) =>
      { w with queue := q, received := w.received + 1, rejected := w.rejected ++ [sample] }

/-- `queue.close()`. -/
def close (w : Work n c) : Work n c := { w with queue := w.queue.close }

/-- The next step of worker `i`; `none` while it waits in `pop`, and once it has left. -/
def workerStep (w : Work n c) (i : Fin n) : Option (Work n c) :=
  match w.worker i with
  | .pop =>
      match w.queue.pop with
      | none => none
      | some (none, q) => some { w with queue := q, worker := Function.update w.worker i .exited }
      | some (some item, q) =>
          some { w with queue := q, worker := Function.update w.worker i (.write item) }
  | .write item =>
      some { w with
        worker := Function.update w.worker i (.broadcast item), written := w.written ++ [item] }
  | .broadcast item =>
      some { w with
        worker := Function.update w.worker i .processed, broadcast := w.broadcast ++ [item] }
  | .processed =>
      some { w with
        worker := Function.update w.worker i .exported, processed := w.processed + 1 }
  | .exported =>
      some { w with worker := Function.update w.worker i .pop, exported := w.exported + 1 }
  | .exited => none

theorem submit_accepted {w : Work n c} {sample : Sample} (h : (w.queue.push sample).1 = true) :
    submit w sample =
      { w with queue := (w.queue.push sample).2, received := w.received + 1 } := by
  unfold submit
  split
  · rename_i q hq
    rw [hq]
  · rename_i q hq
    rw [hq] at h; cases h

theorem submit_rejected {w : Work n c} {sample : Sample} (h : (w.queue.push sample).1 = false) :
    submit w sample =
      { w with
        queue := (w.queue.push sample).2, received := w.received + 1
        rejected := w.rejected ++ [sample] } := by
  unfold submit
  split
  · rename_i q hq
    rw [hq] at h; cases h
  · rename_i q hq
    rw [hq]

/-- What a worker can do: take the front of the queue, leave a closed and empty one, write, or take
a step behind the write. -/
theorem workerStep_cases {w w' : Work n c} {i : Fin n} (h : workerStep w i = some w') :
    (∃ item q, w.worker i = .pop ∧ w.queue.pop = some (some item, q) ∧
      w' = { w with queue := q, worker := Function.update w.worker i (.write item) }) ∨
    (w.worker i = .pop ∧ w.queue.closed = true ∧ w.queue.queue = [] ∧
      w' = { w with worker := Function.update w.worker i .exited }) ∨
    (∃ item, w.worker i = .write item ∧
      w' = { w with
        worker := Function.update w.worker i (.broadcast item), written := w.written ++ [item] }) ∨
    ((w.worker i).held = [] ∧ ∃ pc, pc.held = [] ∧ w'.worker = Function.update w.worker i pc ∧
      w'.queue = w.queue ∧ w'.rejected = w.rejected ∧ w'.written = w.written) := by
  unfold workerStep at h
  split at h
  · rename_i hpc
    split at h
    · cases h
    · rename_i q hq
      obtain ⟨hc, he, rfl⟩ := BoundedQueue.pop_nullopt hq
      exact Or.inr (Or.inl ⟨hpc, hc, he, (Option.some.inj h).symm⟩)
    · rename_i item q hq
      exact Or.inl ⟨item, q, hpc, hq, (Option.some.inj h).symm⟩
  · rename_i item hpc
    exact Or.inr (Or.inr (Or.inl ⟨item, hpc, (Option.some.inj h).symm⟩))
  · rename_i item hpc
    cases h
    exact Or.inr (Or.inr (Or.inr ⟨by rw [hpc]; rfl, _, rfl, rfl, rfl, rfl, rfl⟩))
  · rename_i hpc
    cases h
    exact Or.inr (Or.inr (Or.inr ⟨by rw [hpc]; rfl, _, rfl, rfl, rfl, rfl, rfl⟩))
  · rename_i hpc
    cases h
    exact Or.inr (Or.inr (Or.inr ⟨by rw [hpc]; rfl, _, rfl, rfl, rfl, rfl, rfl⟩))
  · cases h

/-! ### Nothing is lost or duplicated -/

/-- A sum over the workers after one of them has moved. -/
theorem sum_update_add {M : Type*} [AddCommMonoid M] (f : WorkerPc → M) (worker : Fin n → WorkerPc)
    (i : Fin n) (pc : WorkerPc) :
    ∑ j, f (Function.update worker i pc j) + f (worker i) = ∑ j, f (worker j) + f pc := by
  have hupd : (fun j => f (Function.update worker i pc j)) =
      Function.update (fun j => f (worker j)) i (f pc) := by
    funext j
    by_cases hj : j = i
    · subst hj; simp
    · simp [hj]
  rw [hupd, Finset.sum_update_of_mem (Finset.mem_univ i),
    ← Finset.add_sum_erase _ _ (Finset.mem_univ i), Finset.sdiff_singleton_eq_erase]
  abel

/-- The samples the workers hold. -/
def heldAll (worker : Fin n → WorkerPc) : Multiset Sample :=
  ∑ i, ((worker i).held : Multiset Sample)

/-- Every sample that was submitted, wherever it is now. -/
def accounted (w : Work n c) : Multiset Sample :=
  w.rejected + w.queue.queue + heldAll w.worker + w.written

theorem heldAll_update (worker : Fin n → WorkerPc) (i : Fin n) (pc : WorkerPc) :
    heldAll (Function.update worker i pc) + (worker i).held = heldAll worker + pc.held :=
  sum_update_add (fun pc => (pc.held : Multiset Sample)) worker i pc

theorem accounted_init : (init n c).accounted = 0 := by
  have hheld : heldAll (init n c).worker = 0 := Finset.sum_eq_zero fun _ _ => rfl
  rw [accounted, hheld]
  rfl

theorem accounted_close (w : Work n c) : w.close.accounted = w.accounted := rfl

/-- **A submission adds the sample.** -/
theorem accounted_submit (w : Work n c) (sample : Sample) :
    (submit w sample).accounted = w.accounted + {sample} := by
  cases hv : (w.queue.push sample).1 with
  | true =>
      rw [submit_accepted hv]
      simp only [accounted, (BoundedQueue.push_accepted hv).2.1, ← Multiset.coe_add,
        Multiset.coe_singleton]
      abel
  | false =>
      rw [submit_rejected hv]
      simp only [accounted, BoundedQueue.push_refused hv, ← Multiset.coe_add,
        Multiset.coe_singleton]
      abel

/-- **A worker only moves samples.** -/
theorem accounted_workerStep {w w' : Work n c} {i : Fin n} (h : workerStep w i = some w') :
    w'.accounted = w.accounted := by
  rcases workerStep_cases h with ⟨item, q, hpc, hq, rfl⟩ | ⟨hpc, -, -, rfl⟩ | ⟨item, hpc, rfl⟩ |
    ⟨hpc, pc, hheld, hw, hq, hr, hwr⟩
  · have hu := heldAll_update w.worker i (.write item)
    rw [hpc, WorkerPc.held_pop, WorkerPc.held_write, Multiset.coe_nil, add_zero,
      Multiset.coe_singleton] at hu
    simp only [accounted, hu, (BoundedQueue.pop_value hq).1, ← Multiset.cons_coe,
      ← Multiset.singleton_add]
    abel
  · have hu := heldAll_update w.worker i .exited
    rw [hpc, WorkerPc.held_pop, WorkerPc.held_exited, Multiset.coe_nil, add_zero, add_zero] at hu
    simp only [accounted, hu]
  · have hu := heldAll_update w.worker i (.broadcast item)
    rw [hpc, WorkerPc.held_write, WorkerPc.held_broadcast, Multiset.coe_nil, add_zero,
      Multiset.coe_singleton] at hu
    simp only [accounted, ← hu, ← Multiset.coe_add, Multiset.coe_singleton]
    abel
  · have hu := heldAll_update w.worker i pc
    rw [hpc, hheld, Multiset.coe_nil, add_zero, add_zero] at hu
    simp only [accounted, hw, hu, hq, hr, hwr]

/-! ### One worker keeps the order -/

/-- With one worker: the samples behind the main thread, oldest first. -/
def inLine (w : Work 1 c) : List Sample := w.written ++ (w.worker 0).held ++ w.queue.queue

theorem inLine_submit (w : Work 1 c) (sample : Sample) :
    (submit w sample).inLine = w.inLine ++ [sample] ∨ (submit w sample).inLine = w.inLine := by
  cases hv : (w.queue.push sample).1 with
  | true =>
      rw [submit_accepted hv]
      left
      simp only [inLine, (BoundedQueue.push_accepted hv).2.1, List.append_assoc]
  | false =>
      rw [submit_rejected hv]
      right
      simp only [inLine, BoundedQueue.push_refused hv]

theorem inLine_workerStep {w w' : Work 1 c} {i : Fin 1} (h : workerStep w i = some w') :
    w'.inLine = w.inLine := by
  obtain rfl : i = 0 := Subsingleton.elim i 0
  rcases workerStep_cases h with ⟨item, q, hpc, hq, rfl⟩ | ⟨hpc, -, -, rfl⟩ | ⟨item, hpc, rfl⟩ |
    ⟨hpc, pc, hheld, hw, hq, hr, hwr⟩
  · simp [inLine, hpc, (BoundedQueue.pop_value hq).1]
  · simp [inLine, hpc]
  · simp [inLine, hpc]
  · simp [inLine, hw, hq, hwr, hpc, hheld]

/-! ### Workers come to an end -/

/-- A worker's steps up to its exit or to its next `pop`. -/
def pcWeight : WorkerPc → ℕ
  | .pop => 1
  | .write _ => 5
  | .broadcast _ => 4
  | .processed => 3
  | .exported => 2
  | .exited => 0

/-- The steps the workers can take if nothing more is submitted. -/
def weight (w : Work n c) : ℕ := 5 * w.queue.queue.length + ∑ i, pcWeight (w.worker i)

theorem weight_move {w w' : Work n c} {i : Fin n} {pc : WorkerPc}
    (hw : w'.worker = Function.update w.worker i pc)
    (hd : 5 * w'.queue.queue.length + pcWeight pc + 1 =
      5 * w.queue.queue.length + pcWeight (w.worker i)) : w'.weight + 1 = w.weight := by
  have hsum := sum_update_add pcWeight w.worker i pc
  rw [← hw] at hsum
  unfold weight
  omega

/-- **Each step of a worker is one step less to take.** It moves that worker alone, and leaves a
closed queue closed. -/
theorem workerStep_weight {w w' : Work n c} {i : Fin n} (h : workerStep w i = some w') :
    w'.weight + 1 = w.weight ∧ w.worker i ≠ .exited ∧ w'.queue.closed = w.queue.closed ∧
      ∃ pc, w'.worker = Function.update w.worker i pc := by
  unfold workerStep at h
  split at h
  · rename_i hpc
    split at h
    · cases h
    · rename_i q hq
      cases h
      obtain ⟨-, -, rfl⟩ := BoundedQueue.pop_nullopt hq
      exact ⟨weight_move rfl (by rw [hpc]; rfl), by rw [hpc]; nofun, rfl, _, rfl⟩
    · rename_i item q hq
      cases h
      obtain ⟨hqueue, hclosed, -⟩ := BoundedQueue.pop_value hq
      refine ⟨weight_move rfl ?_, by rw [hpc]; nofun, hclosed, _, rfl⟩
      rw [hpc, hqueue, List.length_cons]
      simp only [pcWeight]
      omega
  · rename_i item hpc
    cases h
    exact ⟨weight_move rfl (by rw [hpc]; rfl), by rw [hpc]; nofun, rfl, _, rfl⟩
  · rename_i item hpc
    cases h
    exact ⟨weight_move rfl (by rw [hpc]; rfl), by rw [hpc]; nofun, rfl, _, rfl⟩
  · rename_i hpc
    cases h
    exact ⟨weight_move rfl (by rw [hpc]; rfl), by rw [hpc]; nofun, rfl, _, rfl⟩
  · rename_i hpc
    cases h
    exact ⟨weight_move rfl (by rw [hpc]; rfl), by rw [hpc]; nofun, rfl, _, rfl⟩
  · cases h

/-- Once the queue is closed no worker waits. -/
theorem exists_workerStep {w : Work n c} (hc : w.queue.closed = true) {i : Fin n}
    (hi : w.worker i ≠ .exited) : ∃ w', workerStep w i = some w' := by
  have hready : w.queue.ready = true := by rw [BoundedQueue.ready, hc, Bool.true_or]
  unfold workerStep
  split
  · rw [BoundedQueue.pop, if_pos hready]
    rcases w.queue.take with ⟨_ | item, q⟩ <;> exact ⟨_, rfl⟩
  · exact ⟨_, rfl⟩
  · exact ⟨_, rfl⟩
  · exact ⟨_, rfl⟩
  · exact ⟨_, rfl⟩
  · exact absurd ‹_› hi

end Work

end SensorHub
