import SensorHub.Trans.Run
import Mathlib.Tactic

set_option autoImplicit false

/-!
# The bounded queue between the main thread and the workers

`userspace/include/bounded_queue.hpp`. `capacity_` is a parameter of the type and the bound on the
content a field, so a queue that holds too much cannot be built. Every public operation runs its
critical section under `mutex_`; `pop` first waits for `closed_ || !queue_.empty()`, so it is a
partial operation here (`none` while the caller is blocked).

* `BoundedQueue`, `push`, `ready`, `pop`, `close`, `size`; what each of them returns.
* `History`, `histStep`: runs of the operations, with the values of the successful pushes, the
  values handed out and the number of refusals recorded beside the queue.
* **`Law`**, **`law_of_reachable`**: no loss, no duplication, no reordering, refusals counted.
* `closed_run`, **`drain_run`**: after `close` the accepted values are fixed, and popping hands out
  every one that is left.
-/

namespace SensorHub

open Trans

/-- `BoundedQueue<T>` of capacity `c`. -/
structure BoundedQueue (α : Type*) (c : ℕ) where
  queue : List α
  closed : Bool
  dropped : UInt64
  size_le : queue.length ≤ c

namespace BoundedQueue

variable {α : Type*} {c : ℕ}

/-- `explicit BoundedQueue(std::size_t capacity)`. -/
def empty (α : Type*) (c : ℕ) : BoundedQueue α c := ⟨[], false, 0, Nat.zero_le c⟩

/-- `bool push(T value)`. -/
def push (q : BoundedQueue α c) (value : α) : Bool × BoundedQueue α c :=
  if h : q.closed = true ∨ c ≤ q.queue.length then
    (false, { q with dropped := q.dropped + 1 })
  else
    (true, { q with
      queue := q.queue ++ [value]
      size_le := by rw [List.length_append, List.length_singleton]; omega })

/-- The predicate `pop` waits for. -/
def ready (q : BoundedQueue α c) : Bool := q.closed || !q.queue.isEmpty

/-- The part of `pop` behind the wait. -/
def take (q : BoundedQueue α c) : Option α × BoundedQueue α c :=
  match h : q.queue with
  | [] => (none, q)
  | value :: rest =>
      (some value, { q with
        queue := rest
        size_le := by have := q.size_le; rw [h, List.length_cons] at this; omega })

/-- `std::optional<T> pop()`, `none` while the wait lasts. -/
def pop (q : BoundedQueue α c) : Option (Option α × BoundedQueue α c) :=
  if q.ready then some q.take else none

/-- `void close()`. -/
def close (q : BoundedQueue α c) : BoundedQueue α c := { q with closed := true }

/-- `std::size_t size() const`. -/
def size (q : BoundedQueue α c) : ℕ := q.queue.length

/-! ### What the operations return -/

/-- **A push is refused exactly when the queue is closed or full.** -/
theorem push_refused_iff (q : BoundedQueue α c) (value : α) :
    (q.push value).1 = false ↔ q.closed = true ∨ q.size = c := by
  have hle := q.size_le
  unfold push size
  split_ifs with h
  · simp only [true_iff]
    rcases h with h | h
    · exact Or.inl h
    · exact Or.inr (by omega)
  · simp only [false_iff]
    rintro (hc | hs)
    · exact h (Or.inl hc)
    · exact h (Or.inr hs.ge)

theorem push_refused {q : BoundedQueue α c} {value : α} (h : (q.push value).1 = false) :
    (q.push value).2 = { q with dropped := q.dropped + 1 } := by
  unfold push at h ⊢
  split_ifs at h ⊢
  rfl

theorem push_accepted {q : BoundedQueue α c} {value : α} (h : (q.push value).1 = true) :
    q.closed = false ∧ (q.push value).2.queue = q.queue ++ [value] ∧
      (q.push value).2.closed = q.closed ∧ (q.push value).2.dropped = q.dropped := by
  unfold push at h ⊢
  split_ifs at h ⊢ with hc
  rw [not_or] at hc
  exact ⟨by simpa using hc.1, rfl, rfl, rfl⟩

theorem take_nil {q : BoundedQueue α c} (h : q.queue = []) : q.take = (none, q) := by
  unfold take
  split
  · rfl
  · rename_i h'
    rw [h] at h'; cases h'

theorem take_cons {q : BoundedQueue α c} {value : α} {rest : List α} (h : q.queue = value :: rest) :
    q.take.1 = some value ∧ q.take.2.queue = rest ∧ q.take.2.closed = q.closed ∧
      q.take.2.dropped = q.dropped := by
  unfold take
  split
  · rename_i h'
    rw [h] at h'; cases h'
  · rename_i h'
    rw [h] at h'
    cases h'
    exact ⟨rfl, rfl, rfl, rfl⟩

theorem pop_eq_some {q q' : BoundedQueue α c} {r : Option α} (h : q.pop = some (r, q')) :
    q.ready = true ∧ q.take = (r, q') := by
  unfold pop at h
  split_ifs at h with hr
  exact ⟨hr, Option.some.inj h⟩

/-- **`nullopt` means closed and empty.** -/
theorem pop_nullopt {q q' : BoundedQueue α c} (h : q.pop = some (none, q')) :
    q.closed = true ∧ q.queue = [] ∧ q' = q := by
  obtain ⟨hr, ht⟩ := pop_eq_some h
  cases hq : q.queue with
  | nil =>
      rw [take_nil hq] at ht
      simp only [ready, hq, List.isEmpty_nil, Bool.not_true, Bool.or_false] at hr
      exact ⟨hr, rfl, (Prod.ext_iff.mp ht).2.symm⟩
  | cons value rest =>
      have := (take_cons hq).1
      rw [ht] at this
      cases this

/-- **A value popped is the front of the queue.** -/
theorem pop_value {q q' : BoundedQueue α c} {value : α} (h : q.pop = some (some value, q')) :
    q.queue = value :: q'.queue ∧ q'.closed = q.closed ∧ q'.dropped = q.dropped := by
  obtain ⟨-, ht⟩ := pop_eq_some h
  cases hq : q.queue with
  | nil => rw [take_nil hq] at ht; cases ht
  | cons front rest =>
      obtain ⟨h1, h2, h3, h4⟩ := take_cons hq
      rw [ht] at h1 h2 h3 h4
      cases h1
      exact ⟨by rw [h2], h3, h4⟩

theorem pop_of_cons {q : BoundedQueue α c} {value : α} {rest : List α}
    (h : q.queue = value :: rest) : ∃ q', q.pop = some (some value, q') := by
  refine ⟨q.take.2, ?_⟩
  rw [pop, if_pos (by simp [ready, h])]
  exact congrArg some (Prod.ext (take_cons h).1 rfl)

end BoundedQueue

/-! ### Runs of the queue -/

/-- A critical section of one of the threads. Which thread runs it plays no role. -/
inductive QueueOp (α : Type*)
  | push (value : α)
  | pop
  | close

/-- A queue with the record of what its operations returned so far. -/
structure History (α : Type*) (c : ℕ) where
  q : BoundedQueue α c
  accepted : List α
  popped : List α
  refused : ℕ

namespace History

variable {α : Type*} {c : ℕ}

/-- A fresh queue. -/
def init (α : Type*) (c : ℕ) : History α c := ⟨BoundedQueue.empty α c, [], [], 0⟩

/-- One critical section, and its result in the record. -/
def histStep (s : History α c) : QueueOp α → Option (History α c)
  | .push value =>
      match s.q.push value with
      | (true, q) => some { s with q := q, accepted := s.accepted ++ [value] }
      | (false, q) => some { s with q := q, refused := s.refused + 1 }
  | .pop =>
      match s.q.pop with
      | none => none
      | some (none, q) => some { s with q := q }
      | some (some value, q) => some { s with q := q, popped := s.popped ++ [value] }
  | .close => some { s with q := s.q.close }

theorem histStep_push_accepted {s : History α c} {value : α} (h : (s.q.push value).1 = true) :
    histStep s (.push value) =
      some { s with q := (s.q.push value).2, accepted := s.accepted ++ [value] } := by
  rw [histStep]
  split
  · rename_i q hq
    rw [hq]
  · rename_i q hq
    rw [hq] at h; cases h

theorem histStep_push_refused {s : History α c} {value : α} (h : (s.q.push value).1 = false) :
    histStep s (.push value) =
      some { s with q := (s.q.push value).2, refused := s.refused + 1 } := by
  rw [histStep]
  split
  · rename_i q hq
    rw [hq] at h; cases h
  · rename_i q hq
    rw [hq]

/-- What a step can do: accept a value, refuse one, hand out the front, report the end, close. -/
theorem histStep_cases {s t : History α c} {op : QueueOp α} (h : histStep s op = some t) :
    (∃ value, op = .push value ∧ (s.q.push value).1 = true ∧
      t = { s with q := (s.q.push value).2, accepted := s.accepted ++ [value] }) ∨
    (∃ value, op = .push value ∧ (s.q.push value).1 = false ∧
      t = { s with q := (s.q.push value).2, refused := s.refused + 1 }) ∨
    (∃ value q, op = .pop ∧ s.q.pop = some (some value, q) ∧
      t = { s with q := q, popped := s.popped ++ [value] }) ∨
    (∃ q, op = .pop ∧ s.q.pop = some (none, q) ∧ t = { s with q := q }) ∨
    (op = .close ∧ t = { s with q := s.q.close }) := by
  cases op with
  | push value =>
      cases hv : (s.q.push value).1 with
      | true =>
          rw [histStep_push_accepted hv] at h
          exact Or.inl ⟨value, rfl, hv, (Option.some.inj h).symm⟩
      | false =>
          rw [histStep_push_refused hv] at h
          exact Or.inr (Or.inl ⟨value, rfl, hv, (Option.some.inj h).symm⟩)
  | pop =>
      simp only [histStep] at h
      split at h
      · cases h
      · rename_i q hq
        exact Or.inr (Or.inr (Or.inr (Or.inl ⟨q, rfl, hq, (Option.some.inj h).symm⟩)))
      · rename_i value q hq
        exact Or.inr (Or.inr (Or.inl ⟨value, q, rfl, hq, (Option.some.inj h).symm⟩))
  | close => exact Or.inr (Or.inr (Or.inr (Or.inr ⟨rfl, (Option.some.inj h).symm⟩)))

/-- The history law: accepted values are the popped ones followed by the content, and the counter
of refusals counts them as a 64-bit word. -/
structure Law (s : History α c) : Prop where
  order : s.accepted = s.popped ++ s.q.queue
  count : s.q.dropped = UInt64.ofNat s.refused

theorem law_init : Law (init α c) := ⟨rfl, rfl⟩

theorem law_step {s t : History α c} {op : QueueOp α} (hs : Law s) (h : histStep s op = some t) :
    Law t := by
  obtain ⟨ho, hc⟩ := hs
  rcases histStep_cases h with ⟨v, -, hv, rfl⟩ | ⟨v, -, hv, rfl⟩ | ⟨v, q, -, hq, rfl⟩ |
    ⟨q, -, hq, rfl⟩ | ⟨-, rfl⟩
  · obtain ⟨-, hqueue, -, hdrop⟩ := BoundedQueue.push_accepted hv
    exact ⟨by rw [hqueue, ho, List.append_assoc], by rw [hdrop, hc]⟩
  · rw [BoundedQueue.push_refused hv]
    exact ⟨ho, by simp only [hc, UInt64.ofNat_add]; rfl⟩
  · obtain ⟨hqueue, -, hdrop⟩ := BoundedQueue.pop_value hq
    exact ⟨by simp [ho, hqueue], by rw [hdrop, hc]⟩
  · obtain ⟨-, -, rfl⟩ := BoundedQueue.pop_nullopt hq
    exact ⟨ho, hc⟩
  · exact ⟨ho, hc⟩

/-- **The law holds in every reachable state.** -/
theorem law_of_reachable {s : History α c} (h : Reachable histStep (init α c) s) : Law s :=
  h.inv Law (fun _ _ _ hs => law_step hs) law_init

/-! ### After `close` -/

theorem closed_step {s t : History α c} {op : QueueOp α} (hs : s.q.closed = true)
    (h : histStep s op = some t) : t.q.closed = true ∧ t.accepted = s.accepted := by
  rcases histStep_cases h with ⟨v, -, hv, rfl⟩ | ⟨v, -, hv, rfl⟩ | ⟨v, q, -, hq, rfl⟩ |
    ⟨q, -, hq, rfl⟩ | ⟨-, rfl⟩
  · rw [(BoundedQueue.push_accepted hv).1] at hs
    cases hs
  · rw [BoundedQueue.push_refused hv]
    exact ⟨hs, rfl⟩
  · exact ⟨by rw [(BoundedQueue.pop_value hq).2.1, hs], rfl⟩
  · obtain ⟨-, -, rfl⟩ := BoundedQueue.pop_nullopt hq
    exact ⟨hs, rfl⟩
  · exact ⟨rfl, rfl⟩

/-- **No push succeeds after `close`**, and a closed queue stays closed. -/
theorem closed_run {s t : History α c} {ops : List (QueueOp α)} (hs : s.q.closed = true)
    (h : run histStep s ops = some t) : t.q.closed = true ∧ t.accepted = s.accepted := by
  refine run_inv (fun u => u.q.closed = true ∧ u.accepted = s.accepted)
    (fun u op v hu huv => ?_) ⟨hs, rfl⟩ h
  obtain ⟨hc, ha⟩ := closed_step hu.1 huv
  exact ⟨hc, ha.trans hu.2⟩

/-- **What is left is handed out**: as many pops as there are elements succeed, in order. -/
theorem drain_run (s : History α c) :
    ∃ t, run histStep s (List.replicate s.q.size .pop) = some t ∧
      t.popped = s.popped ++ s.q.queue ∧ t.q.queue = [] ∧ t.q.closed = s.q.closed := by
  generalize hn : s.q.size = n
  induction n generalizing s with
  | zero =>
      have hq : s.q.queue = [] := List.eq_nil_of_length_eq_zero hn
      exact ⟨s, rfl, by rw [hq, List.append_nil], hq, rfl⟩
  | succ n ih =>
      obtain ⟨v, rest, hq⟩ := List.exists_cons_of_length_eq_add_one hn
      obtain ⟨q', hpop⟩ := BoundedQueue.pop_of_cons hq
      obtain ⟨hqueue, hclosed, -⟩ := BoundedQueue.pop_value hpop
      have hlen : q'.size = n := by
        rw [BoundedQueue.size, hqueue, List.length_cons] at hn
        exact Nat.succ.inj hn
      obtain ⟨t, ht, hp, he, hc⟩ := ih { s with q := q', popped := s.popped ++ [v] } hlen
      refine ⟨t, ?_, by rw [hp, hqueue, List.append_assoc]; rfl, he, by rw [hc, hclosed]⟩
      rw [List.replicate_succ, run_cons]
      simp only [histStep, hpop]
      exact ht

/-- A queue that refuses keeps refusing. -/
theorem refused_run (s : History α c) (value : α) (hs : s.q.closed = true ∨ s.q.size = c) (n : ℕ) :
    ∃ t, run histStep s (List.replicate n (.push value)) = some t ∧ t.refused = s.refused + n := by
  induction n generalizing s with
  | zero => exact ⟨s, rfl, rfl⟩
  | succ n ih =>
      have hr := (BoundedQueue.push_refused_iff s.q value).mpr hs
      have hq := BoundedQueue.push_refused hr
      obtain ⟨t, ht, hn⟩ := ih { s with q := (s.q.push value).2, refused := s.refused + 1 }
        (by rw [hq]; exact hs)
      refine ⟨t, ?_, by rw [hn]; simp only; omega⟩
      rw [List.replicate_succ, run_cons, histStep_push_refused hr]
      exact ht

/-! ### The contract of the queue -/

/-- **A bounded FIFO with counted refusals.** In every reachable state the accepted values are those
handed out followed by the content, the capacity is kept, `dropped` is the number of refusals as a
`std::size_t`, and a push is refused exactly when the queue is closed or full. Once closed, no run
accepts anything; `nullopt` is returned by a closed, empty queue only; and popping what is left
hands out exactly the accepted values. -/
theorem boundedQueue_fifo {s : History α c} (h : Reachable histStep (init α c) s) :
    s.accepted = s.popped ++ s.q.queue ∧
    s.q.size ≤ c ∧
    s.q.dropped = UInt64.ofNat s.refused ∧
    (∀ value, (s.q.push value).1 = false ↔ s.q.closed = true ∨ s.q.size = c) ∧
    (s.q.closed = true → ∀ ops t, run histStep s ops = some t →
      t.q.closed = true ∧ t.accepted = s.accepted) ∧
    (∀ q, s.q.pop = some (none, q) → s.q.closed = true ∧ s.q.queue = []) ∧
    (s.q.closed = true → ∃ t, run histStep s (List.replicate s.q.size .pop) = some t ∧
      t.popped = s.accepted ∧ t.q.queue = []) := by
  have hlaw := law_of_reachable h
  refine ⟨hlaw.order, s.q.size_le, hlaw.count, s.q.push_refused_iff,
    fun hc ops t ht => closed_run hc ht, ?_, fun _ => ?_⟩
  · intro q hq
    obtain ⟨hc, he, -⟩ := BoundedQueue.pop_nullopt hq
    exact ⟨hc, he⟩
  · obtain ⟨t, ht, hp, he, -⟩ := drain_run s
    exact ⟨t, ht, by rw [hp, hlaw.order], he⟩

/-- The operations of the queue's unit test, on a queue of two. -/
def testOps : List (QueueOp ℕ) :=
  [.push 1, .push 2, .push 3, .pop, .pop, .close, .pop]

theorem boundedQueue_fifo_testOps : ∃ s : History ℕ 2,
    run histStep (init ℕ 2) testOps = some s ∧ s.popped = [1, 2] ∧ s.q.dropped = 1 ∧
      s.accepted = s.popped ++ s.q.queue := by
  obtain ⟨s, hs⟩ : ∃ s, run histStep (init ℕ 2) testOps = some s := ⟨_, rfl⟩
  have hp : (run histStep (init ℕ 2) testOps).map History.popped = some [1, 2] := by decide
  have hd : (run histStep (init ℕ 2) testOps).map (fun s => s.q.dropped) = some 1 := by decide
  rw [hs] at hp hd
  exact ⟨s, hs, Option.some.inj hp, Option.some.inj hd, (boundedQueue_fifo ⟨testOps, hs⟩).1⟩

/-- `dropped_` is a `std::size_t`: a full queue that has refused `2 ^ 64` pushes reports none. -/
theorem dropped_wraps : ¬ ∀ (c : ℕ) (s : History ℕ c), Reachable histStep (init ℕ c) s →
    s.q.dropped.toNat = s.refused := by
  intro hall
  obtain ⟨s, hs⟩ : ∃ s, histStep (init ℕ 1) (.push 0) = some s := ⟨_, rfl⟩
  have hfull : (histStep (init ℕ 1) (.push 0)).map (fun s => (s.q.size, s.refused)) =
      some (1, 0) := by decide
  rw [hs] at hfull
  obtain ⟨hsize, hzero⟩ := Prod.ext_iff.mp (Option.some.inj hfull)
  obtain ⟨t, ht, hn⟩ := refused_run s 0 (Or.inr hsize) (2 ^ 64)
  have hreach : Reachable histStep (init ℕ 1) t := ⟨_, run_cons_eq_some.mpr ⟨s, hs, ht⟩⟩
  have hlt := t.q.dropped.toNat_lt
  rw [hall 1 t hreach, hn] at hlt
  omega

end History

end SensorHub
