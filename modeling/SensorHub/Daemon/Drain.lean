import SensorHub.Daemon.Main
import Mathlib.Data.UInt

set_option autoImplicit false

/-!
# What a clean shutdown leaves behind

The samples whose `push` returned true, from the queue through the workers into the log and to the
subscribers, and the counters that follow them. The counters are 64-bit words; the ledger carries
the numbers they stand for.

* `Ledger`, `ledger_submit`, **`ledger_workerStep`**: the books of the main thread and the workers.
* `accepted`: the samples whose `push` returned true in a run; **`ledger_run`**.
* **`drain_shutdown`**: when the workers are joined, everything accepted was written and broadcast;
  **`processed_wraps`**: the counters wrap.
-/

namespace SensorHub

open Trans

/-- The samples a worker has passed to `write_sample` and not to `broadcast_line`. -/
def WorkerPc.unsent : WorkerPc → List Sample
  | .broadcast item => [item]
  | _ => []

/-- The samples a worker has broadcast and not counted in `processed`. -/
def WorkerPc.uncounted : WorkerPc → ℕ
  | .processed => 1
  | _ => 0

/-- The samples a worker has counted in `processed` and not in `exported`. -/
def WorkerPc.unexported : WorkerPc → ℕ
  | .exported => 1
  | _ => 0

namespace Work

variable {n c : ℕ}

/-- The books: `accepted` lists the samples whose `push` returned true, `p` and `e` are the numbers
`processed` and `exported` stand for. -/
structure Ledger (accepted : List Sample) (p e : ℕ) (w : Work n c) : Prop where
  places : (accepted : Multiset Sample) = w.queue.queue + w.written + heldAll w.worker
  sent : (w.written : Multiset Sample) = w.broadcast + ∑ i, ((w.worker i).unsent : Multiset Sample)
  counted : w.broadcast.length = p + ∑ i, (w.worker i).uncounted
  carried : p = e + ∑ i, (w.worker i).unexported
  processed : w.processed = UInt64.ofNat p
  exported : w.exported = UInt64.ofNat e
  received : w.received = UInt64.ofNat (accepted.length + w.rejected.length)
  dropped : w.queue.dropped = UInt64.ofNat w.rejected.length
  /-- A worker leaves a closed and empty queue only. -/
  left : ∀ i, w.worker i = .exited → w.queue.closed = true ∧ w.queue.queue = []

theorem ledger_init : Ledger [] 0 0 (init n c) where
  places := by
    have hheld : heldAll (init n c).worker = 0 := Finset.sum_eq_zero fun _ _ => rfl
    rw [hheld]
    rfl
  sent := by
    have hsum : ∑ i, (((init n c).worker i).unsent : Multiset Sample) = 0 :=
      Finset.sum_eq_zero fun _ _ => rfl
    rw [hsum]
    rfl
  counted := by
    have hsum : ∑ i, ((init n c).worker i).uncounted = 0 := Finset.sum_eq_zero fun _ _ => rfl
    rw [hsum]
    rfl
  carried := by
    have hsum : ∑ i, ((init n c).worker i).unexported = 0 := Finset.sum_eq_zero fun _ _ => rfl
    rw [hsum]
  processed := rfl
  exported := rfl
  received := rfl
  dropped := rfl
  left := by
    intro i hi
    cases hi

variable {accepted : List Sample} {p e : ℕ} {w w' : Work n c}

theorem ledger_close (hw : Ledger accepted p e w) : Ledger accepted p e w.close :=
  { hw with left := fun i hi => ⟨rfl, (hw.left i hi).2⟩ }

theorem ledger_submit (hw : Ledger accepted p e w) (sample : Sample) :
    Ledger (accepted ++ if (w.queue.push sample).1 then [sample] else []) p e
      (submit w sample) := by
  cases hv : (w.queue.push sample).1 with
  | true =>
      rw [submit_accepted hv, if_pos rfl]
      obtain ⟨hopen, hqueue, hclosed, hdropped⟩ := BoundedQueue.push_accepted hv
      refine { hw with places := ?_, received := ?_, dropped := ?_, left := ?_ }
      · simp only [hqueue, ← Multiset.coe_add, hw.places]
        abel
      · rw [hw.received, List.length_append, List.length_singleton, Nat.add_right_comm,
          UInt64.ofNat_add _ 1]
        rfl
      · rw [hdropped]
        exact hw.dropped
      · intro i hi
        rw [(hw.left i hi).1] at hopen
        cases hopen
  | false =>
      rw [submit_rejected hv, if_neg Bool.false_ne_true, List.append_nil]
      have hqueue := BoundedQueue.push_refused hv
      refine { hw with places := ?_, received := ?_, dropped := ?_, left := ?_ }
      · rw [hqueue]
        exact hw.places
      · rw [hw.received, List.length_append, List.length_singleton, ← Nat.add_assoc,
          UInt64.ofNat_add _ 1]
        rfl
      · rw [hqueue, List.length_append, List.length_singleton, UInt64.ofNat_add, ← hw.dropped]
        rfl
      · intro i hi
        rw [hqueue]
        exact hw.left i hi

/-- A balance `a = x + s` when both sides and the sum `s` over the workers move. -/
theorem balance_move {M : Type*} [AddCancelCommMonoid M] {a a' x x' s s' d d' : M} (h : a = x + s)
    (hs : s' + d = s + d') (hx : a' + x + d = a + x' + d') : a' = x' + s' := by
  apply add_right_cancel (b := x + s + d)
  calc a' + (x + s + d) = a' + x + d + s := by abel
    _ = a + x' + d' + s := by rw [hx]
    _ = a + x' + (s + d') := by abel
    _ = x + s + x' + (s' + d) := by rw [hs, ← h]
    _ = x' + s' + (x + s + d) := by abel

/-- One worker moves to `pc`: the books stay balanced if what it moves is balanced. -/
theorem Ledger.move {p' e' : ℕ} {i : Fin n} {pc : WorkerPc} (hw : Ledger accepted p e w)
    (hworker : w'.worker = Function.update w.worker i pc)
    (hplaces : (w.queue.queue + w.written + (w.worker i).held : Multiset Sample) =
      w'.queue.queue + w'.written + pc.held)
    (hsent : (w'.written + w.broadcast + (w.worker i).unsent : Multiset Sample) =
      w.written + w'.broadcast + pc.unsent)
    (hcounted : w'.broadcast.length + p + (w.worker i).uncounted =
      w.broadcast.length + p' + pc.uncounted)
    (hcarried : p' + e + (w.worker i).unexported = p + e' + pc.unexported)
    (hprocessed : w'.processed = UInt64.ofNat p') (hexported : w'.exported = UInt64.ofNat e')
    (hfix : w'.received = w.received ∧ w'.rejected = w.rejected ∧
      w'.queue.dropped = w.queue.dropped)
    (hleft : ∀ j, w'.worker j = .exited → w'.queue.closed = true ∧ w'.queue.queue = []) :
    Ledger accepted p' e' w' := by
  obtain ⟨hreceived, hrejected, hdropped⟩ := hfix
  refine ⟨?_, ?_, ?_, ?_, hprocessed, hexported, ?_, ?_, hleft⟩
  · rw [hworker]
    refine balance_move hw.places (heldAll_update w.worker i pc) ?_
    rw [add_assoc (accepted : Multiset Sample), hplaces, add_assoc (accepted : Multiset Sample)]
  · rw [hworker]
    exact balance_move hw.sent (sum_update_add (fun pc => (pc.unsent : Multiset Sample)) _ i pc)
      hsent
  · rw [hworker]
    exact balance_move hw.counted (sum_update_add WorkerPc.uncounted _ i pc) hcounted
  · rw [hworker]
    exact balance_move hw.carried (sum_update_add WorkerPc.unexported _ i pc) hcarried
  · rw [hreceived, hrejected]
    exact hw.received
  · rw [hdropped, hrejected]
    exact hw.dropped

/-- **A worker moves samples and counts them.** -/
theorem ledger_workerStep {i : Fin n} (hw : Ledger accepted p e w)
    (h : workerStep w i = some w') :
    ∃ p' e', p ≤ p' ∧ e ≤ e' ∧ Ledger accepted p' e' w' := by
  have hleft : ∀ pc, pc ≠ .exited → ∀ j, Function.update w.worker i pc j = .exited →
      w.queue.closed = true ∧ w.queue.queue = [] := by
    intro pc hpc j hj
    by_cases hji : j = i
    · subst hji
      rw [Function.update_self] at hj
      exact absurd hj hpc
    · rw [Function.update_of_ne hji] at hj
      exact hw.left j hj
  unfold workerStep at h
  split at h
  · rename_i hpc
    split at h
    · cases h
    · -- it leaves
      rename_i q hq
      cases h
      obtain ⟨hclosed, hempty, rfl⟩ := BoundedQueue.pop_nullopt hq
      refine ⟨p, e, le_rfl, le_rfl, hw.move rfl ?_ ?_ ?_ ?_ hw.processed hw.exported
        ⟨rfl, rfl, rfl⟩ fun _ _ => ⟨hclosed, hempty⟩⟩ <;> rw [hpc] <;> rfl
    · rename_i item q hq
      cases h
      obtain ⟨hqueue, hclosed, hdropped⟩ := BoundedQueue.pop_value hq
      refine ⟨p, e, le_rfl, le_rfl, hw.move rfl ?_ ?_ ?_ ?_ hw.processed hw.exported
        ⟨rfl, rfl, hdropped⟩ ?_⟩
      · rw [hpc, hqueue, WorkerPc.held_pop, WorkerPc.held_write, ← Multiset.cons_coe,
          ← Multiset.singleton_add, Multiset.coe_nil, Multiset.coe_singleton]
        abel
      · rw [hpc]
        rfl
      · rw [hpc]
        rfl
      · rw [hpc]
        rfl
      · -- the queue was not empty, so nobody has left
        intro j hj
        have hempty := (hleft _ (by simp) j hj).2
        rw [hqueue] at hempty
        cases hempty
  · rename_i item hpc
    cases h
    refine ⟨p, e, le_rfl, le_rfl, hw.move rfl ?_ ?_ ?_ ?_ hw.processed hw.exported
      ⟨rfl, rfl, rfl⟩ (hleft _ (by simp))⟩
    · simp only [hpc, WorkerPc.held_write, WorkerPc.held_broadcast, ← Multiset.coe_add,
        Multiset.coe_nil]
      abel
    · simp only [hpc, WorkerPc.unsent, ← Multiset.coe_add, Multiset.coe_nil]
      abel
    · rw [hpc]
      rfl
    · rw [hpc]
      rfl
  · rename_i item hpc
    cases h
    refine ⟨p, e, le_rfl, le_rfl, hw.move rfl ?_ ?_ ?_ ?_ hw.processed hw.exported
      ⟨rfl, rfl, rfl⟩ (hleft _ (by simp))⟩
    · rw [hpc]
      rfl
    · simp only [hpc, WorkerPc.unsent, ← Multiset.coe_add, Multiset.coe_nil]
      abel
    · simp only [hpc, WorkerPc.uncounted, List.length_append, List.length_singleton]
      omega
    · rw [hpc]
      rfl
  · rename_i hpc
    cases h
    refine ⟨p + 1, e, Nat.le_succ p, le_rfl, hw.move rfl ?_ ?_ ?_ ?_ ?_ hw.exported
      ⟨rfl, rfl, rfl⟩ (hleft _ (by simp))⟩
    · rw [hpc]
      rfl
    · rw [hpc]
      rfl
    · simp only [hpc, WorkerPc.uncounted]
      omega
    · simp only [hpc, WorkerPc.unexported]
      omega
    · rw [hw.processed, UInt64.ofNat_add]
      rfl
  · rename_i hpc
    cases h
    refine ⟨p, e + 1, le_rfl, Nat.le_succ e, hw.move rfl ?_ ?_ ?_ ?_ hw.processed ?_
      ⟨rfl, rfl, rfl⟩ (hleft _ (by simp))⟩
    · rw [hpc]
      rfl
    · rw [hpc]
      rfl
    · rw [hpc]
      rfl
    · simp only [hpc, WorkerPc.unexported]
      omega
    · rw [hw.exported, UInt64.ofNat_add]
      rfl
  · cases h

end Work

namespace Process

variable {n c : ℕ}

/-- The sample a step adds to the queue. -/
def acceptedNow (s : Process n c) : ProcLabel n → List Sample
  | .submit sample => if (s.work.queue.push sample).1 then [sample] else []
  | _ => []

/-- The samples whose `push` returned true in the run of `ls` from `s`, oldest first. -/
def accepted (s : Process n c) (ls : List (ProcLabel n)) : List Sample :=
  trace procStep acceptedNow s ls

/-- What a step does to the work: nothing, a submission, a step of a worker, or `queue.close()`. -/
theorem procStep_work {s t : Process n c} {l : ProcLabel n} (h : procStep s l = some t) :
    (s.acceptedNow l = [] ∧ t.work = s.work) ∨
    (∃ sample, l = .submit sample ∧ t.work = s.work.submit sample) ∨
    (s.acceptedNow l = [] ∧ ∃ i, s.work.workerStep i = some t.work) ∨
    (s.acceptedNow l = [] ∧ t.work = s.work.close) := by
  cases l with
  | call throws =>
      obtain ⟨u, hu, rfl⟩ := Option.map_eq_some_iff.mp h
      refine Or.inl ⟨rfl, ?_⟩
      split_ifs
      · rfl
      · unfold call at hu
        split_ifs at hu
        · cases hu
          rfl
        · cases hu
          rfl
        · obtain ⟨q, -, rfl⟩ := Option.map_eq_some_iff.mp hu
          rfl
  | submit sample =>
      simp only [procStep] at h
      split_ifs at h
      cases h
      exact Or.inr (Or.inl ⟨sample, rfl, rfl⟩)
  | runOnce stop throws =>
      simp only [procStep] at h
      split_ifs at h <;> cases h <;> exact Or.inl ⟨rfl, rfl⟩
  | finish =>
      obtain ⟨phase, created, joined, running, work⟩ := s
      cases phase <;> simp only [procStep, finish] at h <;> try cases h
      case loop =>
        split_ifs at h
        cases h
        exact Or.inr (Or.inr (Or.inr ⟨rfl, rfl⟩))
      case join =>
        split_ifs at h
        · split at h <;> cases h
          exact Or.inl ⟨rfl, rfl⟩
        · cases h
          exact Or.inl ⟨rfl, rfl⟩
  | worker i throws =>
      simp only [procStep, workerRun] at h
      split_ifs at h
      · split at h <;> cases h
        exact Or.inl ⟨rfl, rfl⟩
      · obtain ⟨w, hw, rfl⟩ := Option.map_eq_some_iff.mp h
        exact Or.inr (Or.inr (Or.inl ⟨rfl, i, hw⟩))

theorem ledger_step {s t : Process n c} {l : ProcLabel n} {as : List Sample} {p e : ℕ}
    (hs : s.work.Ledger as p e) (h : procStep s l = some t) :
    ∃ p' e', p ≤ p' ∧ e ≤ e' ∧ t.work.Ledger (as ++ s.acceptedNow l) p' e' := by
  rcases procStep_work h with ⟨hl, hw⟩ | ⟨sample, rfl, hw⟩ | ⟨hl, i, hw⟩ | ⟨hl, hw⟩
  · rw [hl, List.append_nil, hw]
    exact ⟨p, e, le_rfl, le_rfl, hs⟩
  · rw [hw]
    exact ⟨p, e, le_rfl, le_rfl, Work.ledger_submit hs sample⟩
  · rw [hl, List.append_nil]
    exact Work.ledger_workerStep hs hw
  · rw [hl, List.append_nil, hw]
    exact ⟨p, e, le_rfl, le_rfl, Work.ledger_close hs⟩

/-- **The books balance along every run.** -/
theorem ledger_run {s t : Process n c} {ls : List (ProcLabel n)} {as : List Sample} {p e : ℕ}
    (hs : s.work.Ledger as p e) (h : run procStep s ls = some t) :
    ∃ p' e', t.work.Ledger (as ++ accepted s ls) p' e' := by
  induction ls generalizing s as p e with
  | nil =>
      cases h
      refine ⟨p, e, ?_⟩
      rw [accepted, trace, List.append_nil]
      exact hs
  | cons l ls ih =>
      obtain ⟨u, hu, h⟩ := run_cons_eq_some.mp h
      obtain ⟨p', e', -, -, hbooks⟩ := ledger_step hs hu
      rw [accepted, trace_cons hu, ← List.append_assoc]
      exact ih hbooks h

/-! ### The end of the loop -/

/-- Nothing has thrown in a run that has left the loop. -/
theorem going_of_closed {ls : List (ProcLabel n)} {s : Process n c}
    (h : run procStep (init n c) ls = some s) (hclosed : s.phase.closed = true) : Going s := by
  refine going_run going_init ?_ h
  intro l hmem hl
  rw [terminated_run going_init hmem hl h] at hclosed
  cases hclosed

/-- **Drain on shutdown.** When `main` has left its loop and joined the workers, the queue is empty,
the samples whose `push` returned true have each been passed once to `write_sample` and once to
`broadcast_line`, and the counters agree as 64-bit words. -/
theorem drain_shutdown {ls : List (ProcLabel n)} {s : Process n c}
    (h : run procStep (init n c) ls = some s) (hclosed : s.phase.closed = true)
    (hjoined : s.joined = n + 1) :
    s.work.queue.queue = [] ∧
    s.work.written.Perm (accepted (init n c) ls) ∧
    s.work.broadcast.Perm (accepted (init n c) ls) ∧
    s.work.processed = UInt64.ofNat (accepted (init n c) ls).length ∧
    s.work.exported = UInt64.ofNat (accepted (init n c) ls).length ∧
    s.work.received = s.work.processed + s.work.queue.dropped := by
  have hexited : ∀ i, s.work.worker i = .exited := by
    intro i
    refine (going_of_closed h hclosed).exited i ?_
    rw [hjoined]
    exact i.isLt
  have hidle : ∀ {M : Type} [AddCommMonoid M] (f : WorkerPc → M), f .exited = 0 →
      ∑ i, f (s.work.worker i) = 0 := by
    intro M _ f hf
    refine Finset.sum_eq_zero fun i _ => ?_
    rw [hexited i, hf]
  obtain ⟨p, e, hbooks⟩ := ledger_run Work.ledger_init h
  rw [List.nil_append] at hbooks
  have hempty := (hbooks.left _ (hexited (Fin.last n))).2
  have hwritten : (accepted (init n c) ls : Multiset Sample) = s.work.written := by
    have hheld : Work.heldAll s.work.worker = 0 := hidle (fun pc => (pc.held : Multiset Sample)) rfl
    rw [hbooks.places, hheld, hempty, Multiset.coe_nil, zero_add, add_zero]
  have hsent : (s.work.written : Multiset Sample) = s.work.broadcast := by
    rw [hbooks.sent, hidle (fun pc => (pc.unsent : Multiset Sample)) rfl, add_zero]
  have hp : p = (accepted (init n c) ls).length := by
    have hcounted := hbooks.counted
    rw [hidle WorkerPc.uncounted rfl, add_zero] at hcounted
    rw [← hcounted]
    exact (Multiset.coe_eq_coe.mp (hwritten.trans hsent)).length_eq.symm
  have he : e = p := by
    rw [hbooks.carried, hidle WorkerPc.unexported rfl, add_zero]
  refine ⟨hempty, (Multiset.coe_eq_coe.mp hwritten).symm,
    (Multiset.coe_eq_coe.mp (hwritten.trans hsent)).symm, ?_, ?_, ?_⟩
  · rw [hbooks.processed, hp]
  · rw [hbooks.exported, he, hp]
  · rw [hbooks.received, hbooks.processed, hbooks.dropped, hp, UInt64.ofNat_add]

theorem drain_shutdown_cleanExit : ∃ s, run procStep (init 0 4) cleanExit = some s ∧
    s.joined = 1 ∧ s.work.written.Perm [⟨0, 5, sampleTemp, 7, 0, 0⟩] ∧ s.work.processed = 1 := by
  obtain ⟨s, hs⟩ : ∃ s, run procStep (init 0 4) cleanExit = some s := ⟨_, rfl⟩
  have hend : (run procStep (init 0 4) cleanExit).map (fun s => (s.phase.closed, s.joined)) =
      some (true, 1) := rfl
  rw [hs] at hend
  obtain ⟨hclosed, hjoined⟩ := Prod.ext_iff.mp (Option.some.inj hend)
  obtain ⟨-, hwritten, -, hprocessed, -⟩ := drain_shutdown hs hclosed hjoined
  exact ⟨s, hs, hjoined, hwritten, hprocessed⟩

/-! ### A daemon that runs for long -/

/-- One worker waits at an empty queue, in the middle of the loop. -/
structure Waiting (s : Process 0 1) : Prop where
  phase : s.phase = .loop
  running : s.running = true
  created : s.created = 1
  joined : s.joined = 0
  worker : s.work.worker (Fin.last 0) = .pop
  empty : s.work.queue.queue = []
  opened : s.work.queue.closed = false

/-- A sample is submitted and handled. -/
def handled (sample : Sample) : List (ProcLabel 0) :=
  .submit sample :: List.replicate 5 (.worker (Fin.last 0) false)

/-- Only the counters and the records of such a state are open. -/
theorem Waiting.eq {s : Process 0 1} (hs : Waiting s) :
    s = ⟨.loop, 1, 0, true, { s.work with
      queue := ⟨[], false, s.work.queue.dropped, Nat.zero_le 1⟩
      worker := fun _ => .pop }⟩ := by
  obtain ⟨phase, created, joined, running, ⟨queue, closed, _, _⟩, worker, _⟩ := s
  obtain ⟨hphase, hrunning, hcreated, hjoined, hworker, hempty, hopened⟩ := hs
  obtain rfl : worker = fun _ => .pop := by
    funext i
    rw [Fin.subsingleton_one.elim i (Fin.last 0)]
    exact hworker
  cases hphase
  cases hrunning
  cases hcreated
  cases hjoined
  cases hempty
  cases hopened
  rfl

theorem handled_run {s : Process 0 1} (hs : Waiting s) (sample : Sample) :
    ∃ t, run procStep s (handled sample) = some t ∧ Waiting t ∧
      accepted s (handled sample) = [sample] := by
  rw [hs.eq]
  exact ⟨_, rfl, ⟨rfl, rfl, rfl, rfl, rfl, rfl, rfl⟩, rfl⟩

theorem handled_runs {s : Process 0 1} (hs : Waiting s) (sample : Sample) (k : ℕ) :
    ∃ ls t, run procStep s ls = some t ∧ Waiting t ∧ (accepted s ls).length = k := by
  induction k with
  | zero => exact ⟨[], s, rfl, hs, rfl⟩
  | succ k ih =>
      obtain ⟨ls, t, ht, hwait, hlen⟩ := ih
      obtain ⟨u, hu, hwait', hnew⟩ := handled_run hwait sample
      refine ⟨ls ++ handled sample, u, run_append_eq_some.mpr ⟨t, ht, hu⟩, hwait', ?_⟩
      rw [accepted, trace_append ht, List.length_append]
      exact congrArg₂ (· + ·) hlen (congrArg List.length hnew)

/-- A callback stops the daemon, and the worker is joined. -/
def stopped : List (ProcLabel 0) :=
  [.runOnce true false, .finish, .worker (Fin.last 0) false, .finish]

theorem stopped_run {s : Process 0 1} (hs : Waiting s) :
    ∃ t, run procStep s stopped = some t ∧ t.phase.closed = true ∧ t.joined = 1 ∧
      accepted s stopped = [] := by
  rw [hs.eq]
  exact ⟨_, rfl, rfl, rfl, rfl⟩

/-- `processed` is a 64-bit word: after `2 ^ 64` samples it reads zero. -/
theorem processed_wraps : ¬ ∀ (n c : ℕ) (ls : List (ProcLabel n)) (s : Process n c),
    run procStep (init n c) ls = some s → s.phase.closed = true → s.joined = n + 1 →
      s.work.processed.toNat = (accepted (init n c) ls).length := by
  intro hexact
  obtain ⟨s, hs, hwait, hnone⟩ : ∃ s, run procStep (init 0 1) (List.replicate 8 (.call false)) =
      some s ∧ Waiting s ∧ accepted (init 0 1) (List.replicate 8 (.call false)) = [] :=
    ⟨_, rfl, ⟨rfl, rfl, rfl, rfl, rfl, rfl, rfl⟩, rfl⟩
  obtain ⟨ls, t, ht, hwait', hlen⟩ := handled_runs hwait ⟨0, 5, sampleTemp, 7, 0, 0⟩ (2 ^ 64)
  obtain ⟨u, hu, hclosed, hjoined, hnone'⟩ := stopped_run hwait'
  have hrun := run_append_eq_some.mpr ⟨s, hs, run_append_eq_some.mpr ⟨t, ht, hu⟩⟩
  have hcount := hexact 0 1 _ u hrun hclosed hjoined
  have hall : accepted (init 0 1) (List.replicate 8 (.call false) ++ (ls ++ stopped)) =
      accepted s ls := by
    unfold accepted at hnone hnone' ⊢
    rw [trace_append hs, trace_append ht, hnone, hnone', List.nil_append, List.append_nil]
  rw [hall, hlen] at hcount
  have hlt := u.work.processed.toNat_lt
  omega

end Process

end SensorHub
