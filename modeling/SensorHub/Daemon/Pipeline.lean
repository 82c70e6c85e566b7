import SensorHub.Daemon.Workers
import SensorHub.Driver.Ring
import SensorHub.Trans.Run

set_option autoImplicit false

/-!
# From the driver to the log

The whole way of a sample in driver mode: the driver's ring, `SensorDevice::read_available` on the
main thread, the queue, the workers. The daemon is the only reader of the device, nobody resets it,
and neither `copy_to_user` nor `write_sample` fails. Pushes by the timer and by writers, the steps
of the main thread and those of the workers interleave freely.

* `MainPc`, `Pipe`, `pipeStep`: the machine; `MainPc.batch`.
* `Account`, `account_step`: every pushed sample is in exactly one place.
* `InOrder`, `inOrder_step`: with one worker they are in order.
* **`accounting`**: the numbers `0 … next_seq - 1` are partitioned.
-/

namespace SensorHub

open Driver Trans

/-- Where the main thread stands: in the event loop, in `read_available` before the test or before
the locked section of its next `read`, in the loop over the batch, or behind `queue.close()`. -/
inductive MainPc
  | loop
  | readCheck (out : List Sample)
  | readLock (out : List Sample)
  | push (rest : List Sample)
  | closed

/-- The samples the main thread has read and not pushed. -/
def MainPc.batch : MainPc → List Sample
  | .readCheck out => out
  | .readLock out => out
  | .push rest => rest
  | _ => []

/-- `sizeof(buffer)` in `SensorDevice::read_available`. -/
def bufferBytes : ℕ := 64 * sizeofSample

/-- The daemon on top of the driver; `pushed` records the samples that went through
`sensorhub_push_sample` and `dropped` those of them that found the ring full. -/
structure Pipe (n c : ℕ) where
  dev : Ring
  pushed : List Sample
  dropped : List Sample
  main : MainPc
  work : Work n c

inductive PipeLabel (n : ℕ)
  /-- The timer or a writer runs the locked section of `sensorhub_push_sample`. -/
  | device (sample : Sample) (injected : Bool)
  /-- The source callback begins. -/
  | drain
  /-- The main thread takes its next step in the callback. -/
  | main
  /-- The event loop has ended. -/
  | close
  | worker (i : Fin n)

namespace Pipe

variable {n c : ℕ}

/-- The driver was loaded and the daemon started. -/
def init (n c : ℕ) : Pipe n c := ⟨Ring.init, [], [], .loop, Work.init n c⟩

/-- The locked section of a push. -/
def devicePush (s : Pipe n c) (sample : Sample) (injected : Bool) : Pipe n c :=
  let item := stamp s.dev sample
  { s with
    dev := pushSample s.dev sample injected
    pushed := s.pushed ++ [item]
    dropped :=
      if (kfifoIn s.dev.fifo item.toBytes).2 ≠ sizeofSample then s.dropped ++ [item]
      else s.dropped }

/-- The next step of the source callback. A `read` that finds nothing fails with `EAGAIN`, which
ends `read_available`; so would one that returns 0. -/
def mainStep (s : Pipe n c) : Option (Pipe n c) :=
  match s.main with
  | .readCheck out =>
      if hasData s.dev then some { s with main := .readLock out }
      else some { s with main := .push out }
  | .readLock out =>
      let (buffer, dev) := readOut s.dev bufferBytes
      if 0 < buffer.length then
        let count := buffer.length / sizeofSample
        some { s with dev := dev, main := .readCheck (out ++ bytesToSamples count buffer) }
      else some { s with dev := dev, main := .push out }
  | .push (sample :: rest) => some { s with work := s.work.submit sample, main := .push rest }
  | .push [] => some { s with main := .loop }
  | _ => none

/-- One step. -/
def pipeStep (s : Pipe n c) : PipeLabel n → Option (Pipe n c)
  | .device sample injected => some (s.devicePush sample injected)
  | .drain =>
      match s.main with
      | .loop => some { s with main := .readCheck [] }
      | _ => none
  | .main => s.mainStep
  | .close =>
      match s.main with
      | .loop => some { s with work := s.work.close, main := .closed }
      | _ => none
  | .worker i => (s.work.workerStep i).map fun w => { s with work := w }

/-! ### Every sample is in one place -/

/-- Every pushed sample is in exactly one place, and the pushed samples are numbered from 0. -/
structure Account (s : Pipe n c) (xs : List Sample) : Prop where
  ring : Holds s.dev xs
  places : (s.dropped : Multiset Sample) + xs + s.main.batch + s.work.accounted = s.pushed
  numbers : s.pushed.map Sample.seq = (List.range s.pushed.length).map UInt64.ofNat
  next : s.dev.nextSeq = UInt64.ofNat s.pushed.length

theorem account_init : Account (init n c) [] where
  ring := holds_init
  places := by
    change (0 : Multiset Sample) + 0 + 0 + (Work.init n c).accounted = 0
    rw [Work.accounted_init]
    rfl
  numbers := rfl
  next := rfl

theorem account_devicePush {s : Pipe n c} {xs : List Sample} (hs : Account s xs) (sample : Sample)
    (injected : Bool) : ∃ ys, Account (s.devicePush sample injected) ys ∧
      (ys = xs ∨ ys = xs ++ [stamp s.dev sample]) := by
  obtain ⟨hnumbers, hnext⟩ := (Numbered.mk hs.numbers hs.next).push sample injected
  have hplaces := hs.places
  by_cases hroom : xs.length < fifoSamples
  · refine ⟨_, ⟨(pushSample_room hs.ring hroom sample injected).1, ?_, hnumbers, hnext⟩, Or.inr rfl⟩
    simp only [devicePush, kfifoIn_holds hs.ring, if_pos hroom, ne_eq, not_true_eq_false, if_false,
      ← Multiset.coe_add, Multiset.coe_singleton]
    rw [← hplaces]
    abel
  · refine ⟨xs, ⟨(pushSample_full hs.ring hroom sample injected).1, ?_, hnumbers, hnext⟩,
      Or.inl rfl⟩
    simp only [devicePush, kfifoIn_holds hs.ring, if_neg hroom, ← Multiset.coe_add,
      Multiset.coe_singleton]
    rw [if_pos (by decide), ← Multiset.coe_add, Multiset.coe_singleton, ← hplaces]
    abel

/-- What the main thread can do: look, move samples from the ring to its batch, submit the next one
of its batch, or come to the end of it. -/
theorem mainStep_cases {s t : Pipe n c} {xs : List Sample} (hx : Holds s.dev xs)
    (h : s.mainStep = some t) :
    (t.dev = s.dev ∧ t.pushed = s.pushed ∧ t.dropped = s.dropped ∧ t.work = s.work ∧
      t.main.batch = s.main.batch) ∨
    (∃ k dev, Holds dev (xs.drop k) ∧ dev.nextSeq = s.dev.nextSeq ∧
      t.main.batch = s.main.batch ++ xs.take k ∧ t = { s with dev := dev, main := t.main }) ∨
    (∃ sample rest, s.main = .push (sample :: rest) ∧
      t = { s with work := s.work.submit sample, main := .push rest }) := by
  unfold mainStep at h
  split at h
  · rename_i out hm
    split_ifs at h <;> cases h <;> exact Or.inl ⟨rfl, rfl, rfl, rfl, by rw [hm]; rfl⟩
  · rename_i out hm
    obtain ⟨hout, hleft, hseq⟩ := readOut_holds hx bufferBytes
    have hlen : (readOut s.dev bufferBytes).1.length / sizeofSample =
        (xs.take (askedSamples bufferBytes)).length := by
      rw [hout, length_samplesToBytes, Nat.mul_div_cancel_left _ (by decide)]
    refine Or.inr (Or.inl ⟨askedSamples bufferBytes, _, hleft, hseq, ?_⟩)
    simp only at h
    split_ifs at h with hpos
    · cases h
      refine ⟨?_, rfl⟩
      rw [hlen, hout, bytesToSamples_samplesToBytes, hm]
      rfl
    · cases h
      refine ⟨?_, rfl⟩
      have hnil : xs.take (askedSamples bufferBytes) = [] := by
        rw [hout, length_samplesToBytes] at hpos
        apply List.eq_nil_of_length_eq_zero
        unfold sizeofSample at hpos
        omega
      rw [hnil, hm, List.append_nil]
      rfl
  · rename_i sample rest hm
    cases h
    exact Or.inr (Or.inr ⟨sample, rest, hm, rfl⟩)
  · rename_i hm
    cases h
    exact Or.inl ⟨rfl, rfl, rfl, rfl, by rw [hm]; rfl⟩
  · cases h

/-- What a step can do: push a sample in the driver, take a step on the main thread, submit nothing
and move nothing, or take a step of a worker. -/
theorem pipeStep_cases {s t : Pipe n c} {l : PipeLabel n} (h : pipeStep s l = some t) :
    (∃ sample injected, l = .device sample injected ∧ t = s.devicePush sample injected) ∨
    (l = .main ∧ s.mainStep = some t) ∨
    (s.main = .loop ∧ ∃ main work, main.batch = [] ∧ (work = s.work ∨ work = s.work.close) ∧
      t = { s with main := main, work := work }) ∨
    (∃ i w, l = .worker i ∧ s.work.workerStep i = some w ∧ t = { s with work := w }) := by
  cases l with
  | device sample injected => cases h; exact Or.inl ⟨sample, injected, rfl, rfl⟩
  | drain =>
      simp only [pipeStep] at h
      split at h <;> cases h
      rename_i hm
      exact Or.inr (Or.inr (Or.inl ⟨hm, _, _, rfl, Or.inl rfl, rfl⟩))
  | main => exact Or.inr (Or.inl ⟨rfl, h⟩)
  | close =>
      simp only [pipeStep] at h
      split at h <;> cases h
      rename_i hm
      exact Or.inr (Or.inr (Or.inl ⟨hm, _, _, rfl, Or.inr rfl, rfl⟩))
  | worker i =>
      obtain ⟨w, hw, rfl⟩ := Option.map_eq_some_iff.mp h
      exact Or.inr (Or.inr (Or.inr ⟨i, w, rfl, hw, rfl⟩))

theorem account_mainStep {s t : Pipe n c} {xs : List Sample} (hs : Account s xs)
    (h : s.mainStep = some t) : ∃ ys, Account t ys := by
  obtain ⟨hring, hplaces, hnumbers, hnext⟩ := hs
  rcases mainStep_cases hring h with ⟨hd, hp, hdr, hw, hb⟩ | ⟨k, dev, hdev, hseq, hb, ht⟩ |
    ⟨sample, rest, hm, rfl⟩
  · exact ⟨xs, by rw [hd]; exact hring, by rw [hdr, hb, hw, hp]; exact hplaces,
      by rw [hp]; exact hnumbers, by rw [hd, hp]; exact hnext⟩
  · refine ⟨xs.drop k, ?_⟩
    rw [ht]
    refine ⟨hdev, ?_, hnumbers, by rw [hseq]; exact hnext⟩
    -- the ring is split into what moved to the batch and what stays
    have hsplit : (xs : Multiset Sample) = xs.take k + xs.drop k := by
      rw [Multiset.coe_add, List.take_append_drop]
    simp only [hb, ← Multiset.coe_add]
    rw [← hplaces, hsplit]
    abel
  · refine ⟨xs, hring, ?_, hnumbers, hnext⟩
    simp only [hm, MainPc.batch, ← Multiset.cons_coe, ← Multiset.singleton_add] at hplaces ⊢
    rw [Work.accounted_submit, ← hplaces]
    abel

/-- **No step loses or duplicates a sample.** -/
theorem account_step {s t : Pipe n c} {l : PipeLabel n} (hs : ∃ xs, Account s xs)
    (h : pipeStep s l = some t) : ∃ ys, Account t ys := by
  obtain ⟨xs, hs⟩ := hs
  rcases pipeStep_cases h with ⟨sample, injected, -, rfl⟩ | ⟨-, hmain⟩ |
    ⟨hm, main, work, hb, hw, rfl⟩ | ⟨i, w, -, hw, rfl⟩
  · obtain ⟨ys, hys, -⟩ := account_devicePush hs sample injected
    exact ⟨ys, hys⟩
  · exact account_mainStep hs hmain
  · refine ⟨xs, hs.ring, ?_, hs.numbers, hs.next⟩
    have hplaces := hs.places
    have hacc : work.accounted = s.work.accounted := by
      rcases hw with rfl | rfl
      · rfl
      · exact Work.accounted_close s.work
    simp only [hm, hb, hacc] at hplaces ⊢
    exact hplaces
  · exact ⟨xs, hs.ring, by simp only [Work.accounted_workerStep hw]; exact hs.places, hs.numbers,
      hs.next⟩

theorem account_of_reachable {s : Pipe n c} (h : Reachable pipeStep (init n c) s) :
    ∃ xs, Account s xs :=
  h.inv (fun s => ∃ xs, Account s xs) (fun _ _ _ hs hst => account_step hs hst) ⟨[], account_init⟩

/-! ### One worker -/

/-- With one worker: written, held, queued, batched and stored samples follow each other in the
order in which they were pushed. -/
def InOrder (s : Pipe 1 c) : Prop :=
  (s.work.inLine ++ s.main.batch ++ ringSamples s.dev).Sublist s.pushed

theorem inOrder_step {s t : Pipe 1 c} {l : PipeLabel 1} {xs : List Sample} (hs : InOrder s)
    (hx : Account s xs) (h : pipeStep s l = some t) : InOrder t := by
  unfold InOrder at hs ⊢
  rw [ringSamples_of_holds hx.ring] at hs
  rcases pipeStep_cases h with ⟨sample, injected, -, rfl⟩ | ⟨-, hmain⟩ |
    ⟨hm, main, work, hb, hw, rfl⟩ | ⟨i, w, -, hw, rfl⟩
  · obtain ⟨ys, hys, rfl | rfl⟩ := account_devicePush hx sample injected
    · rw [ringSamples_of_holds hys.ring]
      exact hs.trans (List.sublist_append_left _ _)
    · rw [ringSamples_of_holds hys.ring, ← List.append_assoc]
      exact hs.append (.refl _)
  · rcases mainStep_cases hx.ring hmain with ⟨hd, hp, -, hwork, hbatch⟩ |
      ⟨k, dev, hdev, -, hbatch, ht⟩ | ⟨sample, rest, hm, rfl⟩
    · rw [hwork, hbatch, hd, hp, ringSamples_of_holds hx.ring]
      exact hs
    · rw [hbatch, ht]
      simp only [ringSamples_of_holds hdev]
      rw [List.append_assoc, List.append_assoc, List.take_append_drop, ← List.append_assoc]
      exact hs
    · simp only [hm, MainPc.batch, ringSamples_of_holds hx.ring] at hs ⊢
      rcases Work.inLine_submit s.work sample with hline | hline
      · rw [hline, List.append_assoc s.work.inLine, List.singleton_append]
        exact hs
      · rw [hline]
        refine List.Sublist.trans ?_ hs
        exact ((List.Sublist.refl _).append (List.sublist_cons_self sample rest)).append (.refl _)
  · have hline : work.inLine = s.work.inLine := by
      rcases hw with rfl | rfl <;> rfl
    simp only [hline, hb, ringSamples_of_holds hx.ring]
    simpa only [hm, MainPc.batch] using hs
  · simp only [Work.inLine_workerStep hw, ringSamples_of_holds hx.ring]
    exact hs

theorem inOrder_init : InOrder (init 1 c) := by
  have hring : ringSamples (init 1 c).dev = [] := ringSamples_of_holds holds_init
  rw [InOrder, hring]
  exact List.Sublist.refl _

theorem inOrder_of_reachable {s : Pipe 1 c} (h : Reachable pipeStep (init 1 c) s) : InOrder s := by
  refine (h.inv (fun s => (∃ xs, Account s xs) ∧ InOrder s) (fun _ _ _ hs hst => ?_)
    ⟨⟨[], account_init⟩, inOrder_init⟩).2
  obtain ⟨⟨xs, hx⟩, ho⟩ := hs
  exact ⟨account_step ⟨xs, hx⟩ hst, inOrder_step ho hx hst⟩

/-! ### The accounting -/

/-- The sequence numbers of some samples. -/
def seqs (xs : List Sample) : Multiset ℕ := (xs : Multiset Sample).map fun x => x.seq.toNat

/-- **End-to-end accounting.** In every reachable state with fewer than `2 ^ 64` pushes, each of the
numbers `0 … next_seq - 1` belongs to exactly one sample, which was dropped because the ring was
full, is in the ring, is in the main thread's batch, was rejected by `BoundedQueue::push`, is in the
queue, is held by one worker, or was passed to `write_sample`. With one worker the numbers passed to
`write_sample` increase. -/
theorem accounting {s : Pipe n c} (h : Reachable pipeStep (init n c) s)
    (hk : s.pushed.length < 2 ^ 64) :
    seqs s.dropped + seqs (ringSamples s.dev) + seqs s.main.batch + seqs s.work.rejected +
        seqs s.work.queue.queue + ∑ i, seqs (s.work.worker i).held + seqs s.work.written =
      Multiset.range s.dev.nextSeq.toNat ∧
    (n = 1 → (s.work.written.map fun x => x.seq.toNat).Pairwise (· < ·)) := by
  obtain ⟨xs, hs⟩ := account_of_reachable h
  have hnum : Numbered s.dev s.pushed := ⟨hs.numbers, hs.next⟩
  have hrange := hnum.map_toNat hk
  constructor
  · have hnext := hnum.toNat_next hk
    have hplaces := congrArg (Multiset.map fun x => x.seq.toNat) hs.places
    rw [Multiset.map_coe, hrange, Multiset.coe_range] at hplaces
    rw [ringSamples_of_holds hs.ring, hnext, ← hplaces]
    simp only [seqs, Work.accounted, Work.heldAll, Multiset.map_add]
    rw [← Multiset.coe_mapAddMonoidHom, map_sum]
    simp only [Multiset.coe_mapAddMonoidHom]
    abel
  · rintro rfl
    have hsub : s.work.written.Sublist s.pushed := by
      refine List.Sublist.trans ?_ (inOrder_of_reachable h)
      rw [Work.inLine, List.append_assoc, List.append_assoc, List.append_assoc]
      exact List.sublist_append_left _ _
    refine List.Pairwise.sublist (hsub.map _) ?_
    rw [hrange]
    exact List.pairwise_lt_range

/-- Two samples are pushed and drained, and the worker writes the first. -/
def oneWritten : List (PipeLabel 1) :=
  [.device ⟨0, 5, sampleTemp, 7, 0, 0⟩ false, .device ⟨0, 6, sampleUser, 8, 0, 0⟩ true, .drain,
    .main, .main, .main, .main, .main, .worker (Fin.last 0), .worker (Fin.last 0)]

theorem accounting_oneWritten : ∃ s, run pipeStep (init 1 4) oneWritten = some s ∧
    s.work.written.map (fun x => x.seq.toNat) = [0] ∧
    seqs s.dropped + seqs (ringSamples s.dev) + seqs s.main.batch + seqs s.work.rejected +
        seqs s.work.queue.queue + ∑ i, seqs (s.work.worker i).held + seqs s.work.written =
      Multiset.range 2 := by
  obtain ⟨s, hs⟩ : ∃ s, run pipeStep (init 1 4) oneWritten = some s := ⟨_, rfl⟩
  have hp : (run pipeStep (init 1 4) oneWritten).map (fun s => s.pushed.length) = some 2 := rfl
  have hn : (run pipeStep (init 1 4) oneWritten).map (fun s => s.dev.nextSeq) = some 2 := rfl
  have hw : (run pipeStep (init 1 4) oneWritten).map
      (fun s => s.work.written.map fun x => x.seq.toNat) = some [0] := rfl
  rw [hs] at hp hn hw
  have hp' : s.pushed.length = 2 := Option.some.inj hp
  have hn' : s.dev.nextSeq = 2 := Option.some.inj hn
  refine ⟨s, hs, Option.some.inj hw, ?_⟩
  rw [(accounting ⟨_, hs⟩ (by omega)).1, hn']
  rfl

end Pipe

end SensorHub
