import SensorHub.Queue.Model
import SensorHub.Trans.CondVar

set_option autoImplicit false

/-!
# The waiters of the bounded queue

`BoundedQueue::pop` blocks on `not_empty_`. Here the wait is a state: a thread that finds the
predicate false is put among the blocked waiters, `push` notifies one of them and `close` all, and a
woken waiter re-tests the predicate when it has the mutex again. Another thread may take the element
in between.

* `WaitQueue`, `waitStep`: the queue, its condition variable and the steps of all threads.
* `popStep_cases`, `waitStep_cases`: what a step can do.
* `Awake`, **`no_lost_wakeup`**: while somebody is blocked the queue is open and there is a pending
  wake-up for every element.
* **`refines_history`**: forgetting the waiters leaves a run of the atomic queue.
-/

namespace SensorHub

open Trans

/-- The queue with its waiters; threads are numbered. -/
structure WaitQueue (α : Type*) (c : ℕ) where
  q : BoundedQueue α c
  notEmpty : CondVar ℕ

/-- A step of some thread, or of the scheduler. -/
inductive WaitOp (α : Type*)
  /-- `push(value)`; `pick` is the waiter that `notify_one` wakes, if any waits. -/
  | push (value : α) (pick : ℕ)
  /-- Thread `i`, neither blocked nor woken, enters `pop`. -/
  | enter (i : ℕ)
  /-- Woken thread `i` has the mutex again and re-tests the predicate. -/
  | retest (i : ℕ)
  /-- Blocked thread `i` wakes up without a notification. -/
  | spurious (i : ℕ)
  | close

namespace WaitQueue

variable {α : Type*} {c : ℕ}

/-- A fresh queue, nobody waiting. -/
def init (α : Type*) (c : ℕ) : WaitQueue α c := ⟨BoundedQueue.empty α c, CondVar.empty ℕ⟩

/-- Thread `i` tests the predicate with the mutex held: it takes and leaves, or it blocks. -/
def popStep (s : WaitQueue α c) (i : ℕ) : WaitQueue α c :=
  match s.q.pop with
  | some (_, q) => ⟨q, s.notEmpty.resume i⟩
  | none => ⟨s.q, s.notEmpty.block i⟩

/-- One step. -/
def waitStep (s : WaitQueue α c) : WaitOp α → Option (WaitQueue α c)
  | .push value pick =>
      match s.q.push value with
      | (true, q) => (s.notEmpty.notifyOne pick).map fun v => ⟨q, v⟩
      | (false, q) => some { s with q := q }
  | .enter i =>
      if i ∈ s.notEmpty.waiting ∨ i ∈ s.notEmpty.woken then none else some (s.popStep i)
  | .retest i => if i ∈ s.notEmpty.woken then some (s.popStep i) else none
  | .spurious i =>
      if i ∈ s.notEmpty.waiting then some { s with notEmpty := s.notEmpty.wake i } else none
  | .close => some ⟨s.q.close, s.notEmpty.notifyAll⟩

/-- A thread at the predicate leaves with a value, leaves a closed and empty queue, or blocks on an
open and empty one. -/
theorem popStep_cases (s : WaitQueue α c) (i : ℕ) :
    (∃ value q, s.q.pop = some (some value, q) ∧ s.popStep i = ⟨q, s.notEmpty.resume i⟩) ∨
    (s.q.pop = some (none, s.q) ∧ s.q.closed = true ∧ s.q.queue = [] ∧
      s.popStep i = ⟨s.q, s.notEmpty.resume i⟩) ∨
    (s.q.pop = none ∧ s.q.closed = false ∧ s.q.queue = [] ∧
      s.popStep i = ⟨s.q, s.notEmpty.block i⟩) := by
  unfold popStep
  rcases hp : s.q.pop with _ | ⟨_ | value, q⟩
  · refine Or.inr (Or.inr ⟨rfl, ?_⟩)
    have hr : s.q.ready = false := by
      unfold BoundedQueue.pop at hp
      split_ifs at hp with hr
      simpa using hr
    simp only [BoundedQueue.ready, Bool.or_eq_false_iff, Bool.not_eq_false',
      List.isEmpty_iff] at hr
    exact ⟨hr.1, hr.2, rfl⟩
  · obtain ⟨hc, he, rfl⟩ := BoundedQueue.pop_nullopt hp
    exact Or.inr (Or.inl ⟨rfl, hc, he, rfl⟩)
  · exact Or.inl ⟨value, q, rfl, rfl⟩

/-- What a step can do. -/
theorem waitStep_cases {s t : WaitQueue α c} {op : WaitOp α} (h : waitStep s op = some t) :
    (∃ value pick v, op = .push value pick ∧ (s.q.push value).1 = true ∧
      s.notEmpty.notifyOne pick = some v ∧ t = ⟨(s.q.push value).2, v⟩) ∨
    (∃ value pick, op = .push value pick ∧ (s.q.push value).1 = false ∧
      t = { s with q := (s.q.push value).2 }) ∨
    (∃ i, op = .enter i ∧ i ∉ s.notEmpty.waiting ∧ i ∉ s.notEmpty.woken ∧ t = s.popStep i) ∨
    (∃ i, op = .retest i ∧ i ∈ s.notEmpty.woken ∧ t = s.popStep i) ∨
    (∃ i, op = .spurious i ∧ i ∈ s.notEmpty.waiting ∧
      t = { s with notEmpty := s.notEmpty.wake i }) ∨
    (op = .close ∧ t = ⟨s.q.close, s.notEmpty.notifyAll⟩) := by
  cases op with
  | push value pick =>
      simp only [waitStep] at h
      split at h
      · rename_i q hq
        obtain ⟨v, hv, rfl⟩ := Option.map_eq_some_iff.mp h
        exact Or.inl ⟨value, pick, v, rfl, by rw [hq], hv, by rw [hq]⟩
      · rename_i q hq
        exact Or.inr (Or.inl ⟨value, pick, rfl, by rw [hq],
          by rw [hq]; exact (Option.some.inj h).symm⟩)
  | enter i =>
      simp only [waitStep] at h
      split_ifs at h with hi
      rw [not_or] at hi
      exact Or.inr (Or.inr (Or.inl ⟨i, rfl, hi.1, hi.2, (Option.some.inj h).symm⟩))
  | retest i =>
      simp only [waitStep] at h
      split_ifs at h with hi
      exact Or.inr (Or.inr (Or.inr (Or.inl ⟨i, rfl, hi, (Option.some.inj h).symm⟩)))
  | spurious i =>
      simp only [waitStep] at h
      split_ifs at h with hi
      exact Or.inr (Or.inr (Or.inr (Or.inr (Or.inl ⟨i, rfl, hi, (Option.some.inj h).symm⟩))))
  | close => exact Or.inr (Or.inr (Or.inr (Or.inr (Or.inr ⟨rfl, (Option.some.inj h).symm⟩))))

/-! ### No lost wake-up -/

/-- While somebody is blocked, the queue is open and each element has a pending wake-up. -/
def Awake (s : WaitQueue α c) : Prop :=
  s.notEmpty.waiting.Nonempty → s.q.closed = false ∧ s.q.size ≤ s.notEmpty.woken.card

theorem awake_popStep {s : WaitQueue α c} (hs : Awake s) (i : ℕ) : Awake (s.popStep i) := by
  rcases popStep_cases s i with ⟨value, q, hp, he⟩ | ⟨-, hc, -, he⟩ | ⟨-, hc, hq, he⟩
  · rw [he]
    intro hw
    obtain ⟨hopen, hle⟩ := hs hw
    obtain ⟨hqueue, hclosed, -⟩ := BoundedQueue.pop_value hp
    -- one element less, and at most one pending wake-up less
    have hcard : s.notEmpty.woken.card ≤ (s.notEmpty.resume i).woken.card + 1 :=
      Finset.pred_card_le_card_erase |> Nat.sub_le_iff_le_add.mp
    refine ⟨by rw [hclosed, hopen], ?_⟩
    simp only [BoundedQueue.size, hqueue, List.length_cons] at hle
    simp only [BoundedQueue.size]
    omega
  · rw [he]
    intro hw
    rw [(hs hw).1] at hc
    cases hc
  · rw [he]
    intro _
    exact ⟨hc, by simp [BoundedQueue.size, hq]⟩

theorem awake_step {s t : WaitQueue α c} {op : WaitOp α} (hs : Awake s)
    (h : waitStep s op = some t) : Awake t := by
  rcases waitStep_cases h with ⟨value, pick, v, -, hv, hn, rfl⟩ | ⟨value, pick, -, hv, rfl⟩ |
    ⟨i, -, -, -, rfl⟩ | ⟨i, -, -, rfl⟩ | ⟨i, -, hi, rfl⟩ | ⟨-, rfl⟩
  · obtain ⟨hopen, hqueue, hclosed, -⟩ := BoundedQueue.push_accepted hv
    intro hw
    rcases CondVar.notifyOne_eq_some hn with ⟨hnone, rfl⟩ | ⟨hpick, rfl⟩
    · simp only [hnone, Finset.not_nonempty_empty] at hw
    · obtain ⟨-, hle⟩ := hs ⟨pick, hpick⟩
      refine ⟨by rw [hclosed, hopen], ?_⟩
      simp only [BoundedQueue.size, hqueue, List.length_append, List.length_singleton] at hle ⊢
      rw [CondVar.card_woken_wake hpick]
      omega
  · rw [BoundedQueue.push_refused hv]
    exact hs
  · exact awake_popStep hs i
  · exact awake_popStep hs i
  · intro _
    obtain ⟨hopen, hle⟩ := hs ⟨i, hi⟩
    refine ⟨hopen, ?_⟩
    simp only [CondVar.card_woken_wake hi]
    omega
  · intro hw
    exact absurd hw Finset.not_nonempty_empty

theorem awake_init : Awake (init α c) := fun hw => absurd hw Finset.not_nonempty_empty

/-- **No lost wake-up.** In every reachable state with a blocked waiter the queue is open and holds
no more elements than there are woken waiters on their way. So nobody stays blocked with an element
at hand and no wake-up pending, and nobody stays blocked after `close`. -/
theorem no_lost_wakeup {s : WaitQueue α c} (h : Reachable waitStep (init α c) s) :
    (s.notEmpty.waiting.Nonempty → s.q.closed = false ∧ s.q.size ≤ s.notEmpty.woken.card) ∧
    (s.notEmpty.waiting.Nonempty → 0 < s.q.size → s.notEmpty.woken.Nonempty) ∧
    (s.q.closed = true → s.notEmpty.waiting = ∅) := by
  have hs : Awake s := h.inv Awake (fun _ _ _ hs => awake_step hs) awake_init
  refine ⟨hs, ?_, ?_⟩
  · intro hw hpos
    have hle := (hs hw).2
    exact Finset.card_pos.mp (by omega)
  · intro hc
    by_contra hne
    obtain ⟨hopen, -⟩ := hs (Finset.nonempty_iff_ne_empty.mpr hne)
    rw [hc] at hopen
    cases hopen

/-- Two threads block, one push wakes the first of them: the second stays blocked and one wake-up
is pending for the one element. -/
theorem no_lost_wakeup_two_waiters : ∃ s : WaitQueue ℕ 4,
    run waitStep (init ℕ 4) [.enter 1, .enter 2, .push 7 1] = some s ∧
      s.notEmpty.waiting = {2} ∧ s.q.size = 1 ∧ s.notEmpty.woken.Nonempty := by
  obtain ⟨s, hs⟩ : ∃ s, run waitStep (init ℕ 4) [.enter 1, .enter 2, .push 7 1] = some s := ⟨_, rfl⟩
  have he : (run waitStep (init ℕ 4) [.enter 1, .enter 2, .push 7 1]).map
      (fun s => (s.notEmpty.waiting, s.q.size)) = some ({2}, 1) := by decide
  rw [hs] at he
  obtain ⟨hw, hn⟩ := Prod.ext_iff.mp (Option.some.inj he)
  simp only at hw hn
  exact ⟨s, hs, hw, hn, (no_lost_wakeup ⟨_, hs⟩).2.1 (by rw [hw]; exact ⟨2, by decide⟩)
    (by rw [hn]; decide)⟩

/-! ### The waiters do not change what the queue does -/

theorem abs_popStep (s : WaitQueue α c) (i : ℕ) (r : History α c) (hr : r.q = s.q) :
    ∃ u, Reachable History.histStep r u ∧ u.q = (s.popStep i).q := by
  rcases popStep_cases s i with ⟨value, q, hp, he⟩ | ⟨-, -, -, he⟩ | ⟨-, -, -, he⟩
  · refine ⟨{ r with q := q, popped := r.popped ++ [value] }, ⟨[.pop], ?_⟩, by rw [he]⟩
    rw [run_cons]
    simp only [History.histStep, hr, hp]
    rfl
  · exact ⟨r, .refl r, by rw [he, hr]⟩
  · exact ⟨r, .refl r, by rw [he, hr]⟩

theorem abs_step {s t : WaitQueue α c} {op : WaitOp α} (h : waitStep s op = some t)
    (r : History α c) (hr : r.q = s.q) :
    ∃ u, Reachable History.histStep r u ∧ u.q = t.q := by
  rcases waitStep_cases h with ⟨value, pick, v, -, hv, hn, rfl⟩ | ⟨value, pick, -, hv, rfl⟩ |
    ⟨i, -, -, -, rfl⟩ | ⟨i, -, -, rfl⟩ | ⟨i, -, hi, rfl⟩ | ⟨-, rfl⟩
  · refine ⟨{ r with q := (s.q.push value).2, accepted := r.accepted ++ [value] },
      ⟨[.push value], ?_⟩, rfl⟩
    rw [run_cons, History.histStep_push_accepted (by rw [hr]; exact hv), hr]
    rfl
  · refine ⟨{ r with q := (s.q.push value).2, refused := r.refused + 1 }, ⟨[.push value], ?_⟩, rfl⟩
    rw [run_cons, History.histStep_push_refused (by rw [hr]; exact hv), hr]
    rfl
  · exact abs_popStep s i r hr
  · exact abs_popStep s i r hr
  · exact ⟨r, .refl r, hr⟩
  · exact ⟨{ r with q := r.q.close }, ⟨[.close], rfl⟩, by rw [hr]⟩

/-- **Refinement.** Every queue reached with waiters is reached by the atomic operations alone, so
`History.law_of_reachable` speaks about it. -/
theorem refines_history {s : WaitQueue α c} (h : Reachable waitStep (init α c) s) :
    ∃ r : History α c, Reachable History.histStep (History.init α c) r ∧ r.q = s.q := by
  obtain ⟨r, hr, hq⟩ := h.simulate (R := fun s r => r.q = s.q)
    (fun s _ _ r hr hst => abs_step hst r hr) (rfl : (History.init α c).q = (init α c).q)
  exact ⟨r, hr, hq⟩

end WaitQueue

end SensorHub
