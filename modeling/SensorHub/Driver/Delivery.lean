import SensorHub.Driver.Calls
import Mathlib.Algebra.Order.Group.Multiset

set_option autoImplicit false

/-!
# Counters and deliveries of the driver

What the counters of `struct sensorhub_device` say about a run, and what becomes of each number that
`sensorhub_push_sample` hands out. Timer, writers, readers and `SENSORHUB_IOC_RESET` interleave as
in `Driver.Calls`; nothing but the three locked sections touches the ring and the counters.

* `drvStep_locked`, **`locked_step`**: a step runs one of the locked sections, or none.
* `Counted`, `counted_step`, **`counters_conserve`**: bytes stored are bytes read or still there.
* `DropsCounted`, `dropsCounted_step`, `refused_step`: what `dropped` counts.
* `Sorted`, `sorted_step`: each pushed sample was refused, removed, cleared, or is in the ring.
* `Apart`, `apart_step`: what one read takes no other read takes.
* **`delivery_order`**: removals are in the order of the numbers, and each number has one fate.
-/

namespace SensorHub.Driver

open Trans

/-! ### The locked sections -/

/-- The record without the results of the calls. -/
def Sys.record (s : Sys) : Log := { s.log with returns := [] }

/-- **A step runs one of the locked sections, or leaves the ring alone.** -/
theorem drvStep_locked {s t : Sys} {l : Label} (h : drvStep s l = some t) :
    ∃ u, t.dev = u.dev ∧ t.record = u.record ∧
      (u = s ∨ (∃ sample injected, u = pushLocked s sample injected) ∨
        (∃ count, u = (readLocked s count).2) ∨ u = resetLocked s) := by
  cases drvStep_effect h with
  | goto i pc _ => exact ⟨s, rfl, rfl, Or.inl rfl⟩
  | fail i r _ => exact ⟨s, rfl, rfl, Or.inl rfl⟩
  | deliver i samples _ => exact ⟨s, rfl, rfl, Or.inl rfl⟩
  | readLock i count _ =>
      exact ⟨(readLocked s count).2, rfl, rfl, Or.inr (Or.inr (Or.inl ⟨count, rfl⟩))⟩
  | pushLock i sample injected _ =>
      exact ⟨pushLocked s sample injected, rfl, rfl, Or.inr (Or.inl ⟨sample, injected, rfl⟩)⟩
  | wake i => exact ⟨s, rfl, rfl, Or.inl rfl⟩
  | wakeWrite i => exact ⟨s, rfl, rfl, Or.inl rfl⟩
  | reset => exact ⟨_, rfl, rfl, Or.inr (Or.inr (Or.inr rfl))⟩

/-- A property of the ring and the record that the locked sections keep holds after every step. -/
theorem locked_step {P : Ring → Log → Prop} {s t : Sys} {l : Label} (hs : P s.dev s.record)
    (hpush : ∀ sample injected, P (pushLocked s sample injected).dev
      (pushLocked s sample injected).record)
    (hread : ∀ count, P (readLocked s count).2.dev (readLocked s count).2.record)
    (hreset : P (resetLocked s).dev (resetLocked s).record)
    (h : drvStep s l = some t) : P t.dev t.record := by
  obtain ⟨u, hdev, hrec, hu⟩ := drvStep_locked h
  rw [hdev, hrec]
  rcases hu with rfl | ⟨sample, injected, rfl⟩ | ⟨count, rfl⟩ | rfl
  · exact hs
  · exact hpush sample injected
  · exact hread count
  · exact hreset

/-! ### The counters -/

/-- The counters of a ring of whole samples, against the record. -/
structure Counted (d : Ring) (log : Log) : Prop where
  ring : ∃ xs, Holds d xs
  bytes : 32 * (d.generated + d.injected) = d.readBytes + UInt64.ofNat d.fifo.length
  pushes : d.generated + d.injected + d.dropped = UInt64.ofNat log.sinceReset
  next : d.nextSeq = UInt64.ofNat log.pushed.length

theorem counted_init : Counted Sys.init.dev Sys.init.record := ⟨⟨[], holds_init⟩, rfl, rfl, rfl⟩

theorem counted_pushLocked {s : Sys} (hs : Counted s.dev s.record) (sample : Sample)
    (injected : Bool) :
    Counted (pushLocked s sample injected).dev (pushLocked s sample injected).record := by
  obtain ⟨xs, hx⟩ := hs.ring
  have hbytes := hs.bytes
  have hpushes : s.dev.generated + s.dev.injected + s.dev.dropped =
      UInt64.ofNat s.log.sinceReset := hs.pushes
  have hnext : (pushSample s.dev sample injected).nextSeq =
      UInt64.ofNat (s.log.pushed ++ [stamp s.dev sample]).length := by
    rw [nextSeq_pushSample, List.length_append, List.length_singleton, UInt64.ofNat_add]
    exact congrArg (· + 1) hs.next
  have hsince : UInt64.ofNat (s.log.sinceReset + 1) = UInt64.ofNat s.log.sinceReset + 1 :=
    UInt64.ofNat_add _ _
  by_cases hroom : xs.length < fifoSamples
  · obtain ⟨hholds, hring⟩ := pushSample_room hx hroom sample injected
    -- the ring is one sample longer, and one of the two counters goes up
    have hlen : UInt64.ofNat (pushSample s.dev sample injected).fifo.length =
        UInt64.ofNat s.dev.fifo.length + 32 := by
      rw [hholds.length_fifo, hx.length_fifo, List.length_append, List.length_singleton,
        Nat.mul_succ, UInt64.ofNat_add]
      rfl
    refine ⟨⟨_, hholds⟩, ?_, ?_, hnext⟩
    · simp only [pushLocked, hlen]
      rw [hring]
      cases injected <;> simp <;> grind
    · simp only [pushLocked, Sys.record, hsince]
      rw [hring]
      cases injected <;> simp <;> grind
  · obtain ⟨hholds, hring⟩ := pushSample_full hx hroom sample injected
    refine ⟨⟨_, hholds⟩, ?_, ?_, hnext⟩
    · simp only [pushLocked]
      rw [hring]
      exact hbytes
    · simp only [pushLocked, Sys.record, hsince]
      rw [hring]
      simp only
      grind

theorem counted_readLocked {s : Sys} (hs : Counted s.dev s.record) (count : ℕ) :
    Counted (readLocked s count).2.dev (readLocked s count).2.record := by
  obtain ⟨xs, hx⟩ := hs.ring
  have hleft := (readOut_holds hx count).2.1
  refine ⟨⟨_, hleft⟩, ?_, hs.pushes, hs.next⟩
  have hsplit : s.dev.fifo.length = (s.dev.fifo.take (maxBytes count)).length +
      (s.dev.fifo.drop (maxBytes count)).length := by
    rw [← List.length_append, List.take_append_drop]
  have hbytes := hs.bytes
  rw [hsplit, UInt64.ofNat_add] at hbytes
  simp only [readLocked, readOut, kfifoOut, RecordFifo.fetch]
  grind

theorem counted_resetLocked {s : Sys} (hs : Counted s.dev s.record) :
    Counted (resetLocked s).dev (resetLocked s).record :=
  ⟨⟨[], holds_reset s.dev⟩, rfl, rfl, hs.next⟩

theorem counted_step {s t : Sys} {l : Label} (hs : Counted s.dev s.record)
    (h : drvStep s l = some t) : Counted t.dev t.record :=
  locked_step hs (counted_pushLocked hs) (counted_readLocked hs) (counted_resetLocked hs) h

/-- **The counters conserve samples.** In every reachable state, modulo `2 ^ 64`: the bytes stored
since the last reset are those read plus those in the ring, the samples counted are the pushes since
the last reset, and `next_seq` is the number of pushes since the module was loaded. -/
theorem counters_conserve {s : Sys} (h : Reachable drvStep Sys.init s) :
    32 * (s.dev.generated + s.dev.injected) = s.dev.readBytes + UInt64.ofNat s.dev.fifo.length ∧
    s.dev.generated + s.dev.injected + s.dev.dropped = UInt64.ofNat s.log.sinceReset ∧
    s.dev.nextSeq = UInt64.ofNat s.log.pushed.length := by
  have hs : Counted s.dev s.record :=
    h.inv (fun s => Counted s.dev s.record) (fun _ _ _ hs hst => counted_step hs hst) counted_init
  exact ⟨hs.bytes, hs.pushes, hs.next⟩

/-- A timer sample and a written one; a read takes the first. -/
def twoPushed : List Label :=
  [.timer 0 5 7, .pushLock 0, .wake 0, .write 1 32 false ⟨9, 9, 9, 1, 2, 3⟩ 6, .pushLock 1, .wake 1,
    .read 2 32 true, .check 2, .readLock 2, .copy 2 true]

theorem counters_conserve_twoPushed : ∃ s, run drvStep Sys.init twoPushed = some s ∧
    s.dev.readBytes = 32 ∧ s.dev.fifo.length = 32 ∧
    32 * (s.dev.generated + s.dev.injected) = s.dev.readBytes + UInt64.ofNat s.dev.fifo.length := by
  obtain ⟨s, hs⟩ : ∃ s, run drvStep Sys.init twoPushed = some s := ⟨_, rfl⟩
  have hr : (run drvStep Sys.init twoPushed).map (fun s => (s.dev.readBytes, s.dev.fifo.length)) =
      some (32, 32) := rfl
  rw [hs] at hr
  obtain ⟨hread, hlen⟩ := Prod.ext_iff.mp (Option.some.inj hr)
  exact ⟨s, hs, hread, hlen, (counters_conserve ⟨_, hs⟩).1⟩

/-! ### What `dropped` counts -/

theorem dropped_pushSample (d : Ring) (sample : Sample) (injected : Bool) :
    (pushSample d sample injected).dropped =
      if (kfifoIn d.fifo (stamp d sample).toBytes).2 ≠ sizeofSample then d.dropped + 1
      else d.dropped := by
  unfold pushSample
  by_cases hfull : (kfifoIn d.fifo (stamp d sample).toBytes).2 ≠ sizeofSample
  · simp only [if_pos hfull]
  · simp only [if_neg hfull]
    cases injected <;> rfl

/-- `dropped` is the number of samples refused since the last reset. -/
structure DropsCounted (d : Ring) (log : Log) : Prop where
  older : log.forgotten ≤ log.refused.length
  dropped : d.dropped = UInt64.ofNat (log.refused.drop log.forgotten).length

theorem dropsCounted_init : DropsCounted Sys.init.dev Sys.init.record := ⟨le_rfl, rfl⟩

theorem dropsCounted_pushLocked {s : Sys} (hs : DropsCounted s.dev s.record) (sample : Sample)
    (injected : Bool) :
    DropsCounted (pushLocked s sample injected).dev (pushLocked s sample injected).record := by
  have holder : s.log.forgotten ≤ s.log.refused.length := hs.older
  have hdropped : s.dev.dropped = UInt64.ofNat (s.log.refused.drop s.log.forgotten).length :=
    hs.dropped
  have hpush := dropped_pushSample s.dev sample injected
  by_cases hfull : (kfifoIn s.dev.fifo (stamp s.dev sample).toBytes).2 ≠ sizeofSample
  · rw [if_pos hfull] at hpush
    refine ⟨?_, ?_⟩
    · simp only [pushLocked, Sys.record, if_pos hfull, List.length_append]
      omega
    · simp only [pushLocked, Sys.record, if_pos hfull]
      rw [hpush, hdropped, List.drop_append_of_le_length holder, List.length_append,
        List.length_singleton, UInt64.ofNat_add]
      rfl
  · rw [if_neg hfull] at hpush
    refine ⟨?_, ?_⟩
    · simp only [pushLocked, Sys.record, if_neg hfull]
      exact holder
    · simp only [pushLocked, Sys.record, if_neg hfull]
      rw [hpush, hdropped]

theorem dropsCounted_resetLocked (s : Sys) :
    DropsCounted (resetLocked s).dev (resetLocked s).record := by
  refine ⟨le_rfl, ?_⟩
  simp only [resetLocked, Sys.record, List.drop_length]
  rfl

theorem dropsCounted_step {s t : Sys} {l : Label} (hs : DropsCounted s.dev s.record)
    (h : drvStep s l = some t) : DropsCounted t.dev t.record :=
  locked_step hs (dropsCounted_pushLocked hs) (fun _ => ⟨hs.older, hs.dropped⟩)
    (dropsCounted_resetLocked s) h

/-- **A sample is refused only by a push that counts it in `dropped`.** -/
theorem refused_step {s t : Sys} {l : Label} (h : drvStep s l = some t) :
    t.log.refused = s.log.refused ∨
      ∃ x, t.log.refused = s.log.refused ++ [x] ∧ t.dev.dropped = s.dev.dropped + 1 := by
  obtain ⟨u, hdev, hrec, hu⟩ := drvStep_locked h
  have href : t.record.refused = u.record.refused := congrArg Log.refused hrec
  change t.log.refused = u.log.refused at href
  rw [href, hdev]
  rcases hu with rfl | ⟨sample, injected, rfl⟩ | ⟨count, rfl⟩ | rfl
  · exact Or.inl rfl
  · have hpush := dropped_pushSample s.dev sample injected
    by_cases hfull : (kfifoIn s.dev.fifo (stamp s.dev sample).toBytes).2 ≠ sizeofSample
    · rw [if_pos hfull] at hpush
      refine Or.inr ⟨stamp s.dev sample, ?_, hpush⟩
      simp only [pushLocked, if_pos hfull]
    · refine Or.inl ?_
      simp only [pushLocked, if_neg hfull]
  · exact Or.inl rfl
  · exact Or.inl rfl

/-! ### What becomes of a number -/

/-- Every pushed sample was refused by a full ring, removed by a read, cleared by a reset or is in
the ring; those removed come in push order, before those in the ring. -/
structure Sorted (d : Ring) (log : Log) : Prop where
  ring : Holds d (ringSamples d)
  places : (log.refused : Multiset Sample) + log.removed + log.cleared + ringSamples d = log.pushed
  order : (log.removed ++ ringSamples d).Sublist log.pushed
  numbered : Numbered d log.pushed

theorem sorted_init : Sorted Sys.init.dev Sys.init.record := by
  have hring : ringSamples Sys.init.dev = [] := ringSamples_of_holds holds_init
  refine ⟨?_, ?_, ?_, numbered_init⟩
  · rw [hring]
    exact holds_init
  · rw [hring]
    rfl
  · rw [hring]
    exact List.Sublist.refl _

theorem sorted_pushLocked {s : Sys} (hs : Sorted s.dev s.record) (sample : Sample)
    (injected : Bool) :
    Sorted (pushLocked s sample injected).dev (pushLocked s sample injected).record := by
  have hnum := hs.numbered.push sample injected
  have hplaces := hs.places
  have horder := hs.order
  by_cases hroom : (ringSamples s.dev).length < fifoSamples
  · have hholds := (pushSample_room hs.ring hroom sample injected).1
    have hring := ringSamples_of_holds hholds
    refine ⟨?_, ?_, ?_, hnum⟩
    · simp only [pushLocked, hring]
      exact hholds
    · simp only [pushLocked, Sys.record, hring, kfifoIn_holds hs.ring, if_pos hroom, ne_eq,
        not_true_eq_false, if_false, ← Multiset.coe_add] at hplaces ⊢
      rw [← hplaces]
      abel
    · simp only [pushLocked, Sys.record, hring]
      rw [← List.append_assoc]
      exact horder.append (.refl _)
  · have hholds := (pushSample_full hs.ring hroom sample injected).1
    have hring := ringSamples_of_holds hholds
    refine ⟨?_, ?_, ?_, hnum⟩
    · simp only [pushLocked, hring]
      exact hholds
    · simp only [pushLocked, Sys.record, hring, kfifoIn_holds hs.ring, if_neg hroom] at hplaces ⊢
      rw [if_pos (by decide), ← Multiset.coe_add, ← Multiset.coe_add, ← hplaces]
      abel
    · simp only [pushLocked, Sys.record, hring]
      exact horder.trans (List.sublist_append_left _ _)

/-- The samples a read of `count` bytes takes. -/
theorem readLocked_samples {s : Sys} (hs : Holds s.dev (ringSamples s.dev)) (count : ℕ) :
    bytesToSamples ((readLocked s count).1.length / sizeofSample) (readLocked s count).1 =
        (ringSamples s.dev).take (askedSamples count) ∧
      ringSamples (readLocked s count).2.dev = (ringSamples s.dev).drop (askedSamples count) ∧
      (readLocked s count).2.log.removed =
        s.log.removed ++ (ringSamples s.dev).take (askedSamples count) := by
  obtain ⟨hout, hleft, -⟩ := readOut_holds hs count
  have hsamples : bytesToSamples ((readOut s.dev count).1.length / sizeofSample)
      (readOut s.dev count).1 = (ringSamples s.dev).take (askedSamples count) := by
    rw [hout, length_samplesToBytes, Nat.mul_div_cancel_left _ (by decide),
      bytesToSamples_samplesToBytes]
  exact ⟨hsamples, ringSamples_of_holds hleft, congrArg (s.log.removed ++ ·) hsamples⟩

theorem sorted_readLocked {s : Sys} (hs : Sorted s.dev s.record) (count : ℕ) :
    Sorted (readLocked s count).2.dev (readLocked s count).2.record := by
  obtain ⟨-, hring, hremoved⟩ := readLocked_samples hs.ring count
  have hleft := (readOut_holds hs.ring count).2.1
  have hplaces := hs.places
  have horder := hs.order
  refine ⟨?_, ?_, ?_, ⟨hs.numbered.numbers, hs.numbered.next⟩⟩
  · rw [hring]
    exact hleft
  · -- the ring is split into what is removed and what stays
    have hsplit : (ringSamples s.dev : Multiset Sample) =
        (ringSamples s.dev).take (askedSamples count) +
          (ringSamples s.dev).drop (askedSamples count) := by
      rw [Multiset.coe_add, List.take_append_drop]
    rw [hring]
    change (s.log.refused : Multiset Sample) + (readLocked s count).2.log.removed + s.log.cleared +
      (ringSamples s.dev).drop (askedSamples count) = s.log.pushed
    change (s.log.refused : Multiset Sample) + s.log.removed + s.log.cleared +
      ringSamples s.dev = s.log.pushed at hplaces
    rw [← hplaces, hremoved, hsplit, ← Multiset.coe_add]
    abel
  · rw [hring]
    simp only [Sys.record, hremoved] at horder ⊢
    rw [List.append_assoc, List.take_append_drop]
    exact horder

theorem sorted_resetLocked {s : Sys} (hs : Sorted s.dev s.record) :
    Sorted (resetLocked s).dev (resetLocked s).record := by
  have hring : ringSamples (resetLocked s).dev = [] := ringSamples_of_holds (holds_reset s.dev)
  have hplaces := hs.places
  have horder := hs.order
  refine ⟨?_, ?_, ?_, ⟨hs.numbered.numbers, hs.numbered.next⟩⟩
  · rw [hring]
    exact holds_reset s.dev
  · rw [hring]
    simp only [Sys.record, resetLocked, ← Multiset.coe_add, Multiset.coe_nil] at hplaces ⊢
    rw [← hplaces, ringSamples]
    abel
  · rw [hring, List.append_nil]
    exact (List.sublist_append_left _ _).trans horder

theorem sorted_step {s t : Sys} {l : Label} (hs : Sorted s.dev s.record)
    (h : drvStep s l = some t) : Sorted t.dev t.record :=
  locked_step hs (sorted_pushLocked hs) (sorted_readLocked hs) (sorted_resetLocked hs) h

theorem Sorted.nodup_seq {d : Ring} {log : Log} (hs : Sorted d log)
    (hk : log.pushed.length < 2 ^ 64) : (log.pushed.map fun x => x.seq.toNat).Nodup := by
  rw [hs.numbered.map_toNat hk]
  exact List.nodup_range

/-! ### One read for each sample -/

/-- The samples in the buffer of a read. -/
def bufferSamples (bs : Bytes) : List Sample := bytesToSamples (bs.length / sizeofSample) bs

/-- The samples a finished call has delivered. -/
def Return.samples : Return → List Sample
  | .read _ (.ok bs) => bufferSamples bs
  | _ => []

/-- The samples that reads have delivered, call by call. -/
def Sys.delivered (s : Sys) : List Sample := s.log.returns.flatMap Return.samples

/-- What one read has taken no other read takes: the buffers on their way to user space and what was
delivered have no sample in common, and all of it was removed from the ring. -/
structure Apart (s : Sys) : Prop where
  nodup : s.delivered.Nodup
  removed : ∀ x ∈ s.delivered, x ∈ s.log.removed
  buffer : ∀ i bs, s.pc i = .readCopy bs → (bufferSamples bs).Nodup ∧
    ∀ x ∈ bufferSamples bs, x ∈ s.log.removed ∧ x ∉ s.delivered
  buffers : ∀ i j bs bs', i ≠ j → s.pc i = .readCopy bs → s.pc j = .readCopy bs' →
    ∀ x ∈ bufferSamples bs, x ∉ bufferSamples bs'

theorem apart_init : Apart Sys.init where
  nodup := List.nodup_nil
  removed _ h := by cases h
  buffer _ _ h := by cases h
  buffers _ _ _ _ _ h := by cases h

/-- Thread `i` moves on without a buffer, or drops the one it has. -/
theorem Apart.goto {s : Sys} (hs : Apart s) (i : ℕ) {pc : Pc} (hpc : ∀ bs, pc ≠ .readCopy bs) :
    Apart (s.goto i pc) := by
  have hold : ∀ j bs, (s.goto i pc).pc j = .readCopy bs → s.pc j = .readCopy bs := by
    intro j bs hj
    simp only [Sys.goto, Function.update_apply] at hj
    split_ifs at hj
    · exact absurd hj (hpc bs)
    · exact hj
  refine ⟨hs.nodup, hs.removed, ?_, ?_⟩
  · intro j bs hj
    exact hs.buffer j bs (hold j bs hj)
  · intro j k bs bs' hjk hj hk
    exact hs.buffers j k bs bs' hjk (hold j bs hj) (hold k bs' hk)

theorem Apart.ret_fail {s : Sys} (hs : Apart s) (i : ℕ) {r : Return} (hr : r.samples = []) :
    Apart (s.ret i r) := by
  have hg : Apart (s.goto i .idle) := hs.goto i (by simp)
  have hdel : (s.ret i r).delivered = s.delivered := by
    simp [Sys.delivered, Sys.ret, hr]
  refine ⟨by rw [hdel]; exact hs.nodup, by rw [hdel]; exact hs.removed, ?_, hg.buffers⟩
  rw [hdel]
  exact hg.buffer

theorem Apart.deliver {s : Sys} (hs : Apart s) {i : ℕ} {bs : Bytes} (hpc : s.pc i = .readCopy bs) :
    Apart (s.ret i (.read i (.ok bs))) := by
  obtain ⟨hnodup, hfresh⟩ := hs.buffer i bs hpc
  have hdel : (s.ret i (.read i (.ok bs))).delivered = s.delivered ++ bufferSamples bs := by
    simp [Sys.delivered, Sys.ret, Return.samples]
  have hold : ∀ j bs', (s.ret i (.read i (.ok bs))).pc j = .readCopy bs' →
      j ≠ i ∧ s.pc j = .readCopy bs' := by
    intro j bs' hj
    simp only [Sys.ret, Sys.goto, Function.update_apply] at hj
    split_ifs at hj with hji
    exact ⟨hji, hj⟩
  refine ⟨?_, ?_, ?_, ?_⟩
  · rw [hdel]
    refine List.nodup_append.mpr ⟨hs.nodup, hnodup, ?_⟩
    rintro x hx _ hx' rfl
    exact (hfresh x hx').2 hx
  · rw [hdel]
    intro x hx
    rcases List.mem_append.mp hx with hx | hx
    · exact hs.removed x hx
    · exact (hfresh x hx).1
  · intro j bs' hj
    obtain ⟨hji, hj⟩ := hold j bs' hj
    refine ⟨(hs.buffer j bs' hj).1, ?_⟩
    intro x hx
    refine ⟨((hs.buffer j bs' hj).2 x hx).1, ?_⟩
    rw [hdel, List.mem_append, not_or]
    exact ⟨((hs.buffer j bs' hj).2 x hx).2, hs.buffers j i bs' bs hji hj hpc x hx⟩
  · intro j k bs₁ bs₂ hjk hj hk
    exact hs.buffers j k bs₁ bs₂ hjk (hold j bs₁ hj).2 (hold k bs₂ hk).2

theorem Apart.readLock {s : Sys} (hs : Apart s) (hsort : Sorted s.dev s.record)
    (hnodup : s.log.pushed.Nodup) (i count : ℕ) :
    Apart ((readLocked s count).2.goto i (.readCopy (readLocked s count).1)) := by
  obtain ⟨hbuf, -, hremoved⟩ := readLocked_samples hsort.ring count
  have hbuf' : bufferSamples (readLocked s count).1 =
      (ringSamples s.dev).take (askedSamples count) := hbuf
  -- the ring has nothing in common with what was removed before
  have hfresh : (s.log.removed ++ ringSamples s.dev).Nodup := hnodup.sublist hsort.order
  obtain ⟨-, hring, hdisj⟩ := List.nodup_append.mp hfresh
  have hnew : ∀ x ∈ bufferSamples (readLocked s count).1, x ∉ s.log.removed := by
    intro x hx hx'
    rw [hbuf'] at hx
    exact hdisj x hx' x (List.mem_of_mem_take hx) rfl
  have hcases : ∀ j bs, ((readLocked s count).2.goto i (.readCopy (readLocked s count).1)).pc j =
      .readCopy bs → (j = i ∧ bs = (readLocked s count).1) ∨ (j ≠ i ∧ s.pc j = .readCopy bs) := by
    intro j bs hj
    simp only [Sys.goto, Function.update_apply] at hj
    split_ifs at hj with hji
    · cases hj
      exact Or.inl ⟨hji, rfl⟩
    · exact Or.inr ⟨hji, hj⟩
  have hmono : ∀ x ∈ s.log.removed, x ∈ (readLocked s count).2.log.removed := by
    intro x hx
    rw [hremoved]
    exact List.mem_append_left _ hx
  refine ⟨hs.nodup, fun x hx => hmono x (hs.removed x hx), ?_, ?_⟩
  · intro j bs hj
    rcases hcases j bs hj with ⟨-, rfl⟩ | ⟨-, hj⟩
    · refine ⟨by rw [hbuf']; exact hring.sublist (List.take_sublist _ _), ?_⟩
      intro x hx
      refine ⟨?_, fun hx' => hnew x hx (hs.removed x hx')⟩
      change x ∈ (readLocked s count).2.log.removed
      rw [hremoved, ← hbuf']
      exact List.mem_append_right _ hx
    · obtain ⟨hn, hb⟩ := hs.buffer j bs hj
      exact ⟨hn, fun x hx => ⟨hmono x (hb x hx).1, (hb x hx).2⟩⟩
  · intro j k bs bs' hjk hj hk x hx hx'
    rcases hcases j bs hj with ⟨rfl, rfl⟩ | ⟨-, hj⟩
    · rcases hcases k bs' hk with ⟨rfl, -⟩ | ⟨-, hk⟩
      · exact hjk rfl
      · exact hnew x hx ((hs.buffer k bs' hk).2 x hx').1
    · rcases hcases k bs' hk with ⟨-, rfl⟩ | ⟨-, hk⟩
      · exact hnew x hx' ((hs.buffer j bs hj).2 x hx).1
      · exact hs.buffers j k bs bs' hjk hj hk x hx hx'

theorem Apart.wakeUp {s : Sys} (hs : Apart s) : Apart { s with pc := wakeUp s.pc } where
  nodup := hs.nodup
  removed := hs.removed
  buffer i bs h := hs.buffer i bs (wakeUp_readCopy h)
  buffers i j bs bs' hij hi hj :=
    hs.buffers i j bs bs' hij (wakeUp_readCopy hi) (wakeUp_readCopy hj)

/-- **No step hands a sample to a second read.** -/
theorem apart_step {s t : Sys} {l : Label} (hs : Apart s) (hsort : Sorted s.dev s.record)
    (hnodup : s.log.pushed.Nodup) (h : drvStep s l = some t) : Apart t := by
  cases drvStep_effect h with
  | goto i pc hpc => exact hs.goto i hpc
  | fail i r hr =>
      refine hs.ret_fail i ?_
      unfold Return.samples
      split
      · exact absurd rfl (hr _ _)
      · rfl
  | deliver i samples hpc => exact hs.deliver hpc
  | readLock i count _ => exact hs.readLock hsort hnodup i count
  | pushLock i sample injected _ =>
      have hp : Apart (pushLocked s sample injected) :=
        ⟨hs.nodup, hs.removed, hs.buffer, hs.buffers⟩
      exact hp.goto i (by simp)
  | wake i => exact hs.wakeUp.goto i (by simp)
  | wakeWrite i => exact hs.wakeUp.ret_fail i rfl
  | reset => exact ⟨hs.nodup, hs.removed, hs.buffer, hs.buffers⟩

theorem pushed_step {s t : Sys} {l : Label} (h : drvStep s l = some t) :
    s.log.pushed.length ≤ t.log.pushed.length := by
  obtain ⟨u, -, hrec, hu⟩ := drvStep_locked h
  change s.log.pushed.length ≤ t.record.pushed.length
  rw [hrec]
  rcases hu with rfl | ⟨sample, injected, rfl⟩ | ⟨count, rfl⟩ | rfl
  · exact le_rfl
  · simp [pushLocked, Sys.record]
  · exact le_rfl
  · exact le_rfl

theorem sorted_apart_of_reachable {s : Sys} (h : Reachable drvStep Sys.init s) :
    Sorted s.dev s.record ∧ (s.log.pushed.length < 2 ^ 64 → Apart s) := by
  refine h.inv (fun s => Sorted s.dev s.record ∧ (s.log.pushed.length < 2 ^ 64 → Apart s)) ?_
    ⟨sorted_init, fun _ => apart_init⟩
  intro s l t hs hst
  refine ⟨sorted_step hs.1 hst, ?_⟩
  intro hk
  have hk' : s.log.pushed.length < 2 ^ 64 := (pushed_step hst).trans_lt hk
  exact apart_step (hs.2 hk') hs.1 (hs.1.nodup_seq hk').of_map hst

/-- **Order and fate of the numbers.** In every reachable state with fewer than `2 ^ 64` pushes: the
samples removed by `kfifo_out` have increasing numbers, each given by exactly one push; no sample
was delivered to two reads, and only removed ones were; and a number below `next_seq` that was
neither removed nor is in the ring belongs to a refused sample, or to one that was in the ring at a
reset. Each refused sample was counted: the step that refuses it adds one to `dropped`, and
`dropped` is the number of those refused since the last reset. -/
theorem delivery_order {s : Sys} (h : Reachable drvStep Sys.init s)
    (hk : s.log.pushed.length < 2 ^ 64) :
    (s.log.removed.map fun x => x.seq.toNat).Pairwise (· < ·) ∧
    (∀ x ∈ s.log.removed, x ∈ s.log.pushed ∧ (s.log.pushed.map Sample.seq).count x.seq = 1) ∧
    ((s.delivered.map Sample.seq).Nodup ∧ ∀ x ∈ s.delivered, x ∈ s.log.removed) ∧
    (∀ k < s.dev.nextSeq.toNat,
      (∀ x ∈ s.log.removed ++ ringSamples s.dev, x.seq.toNat ≠ k) →
      (∃ x ∈ s.log.refused, x.seq.toNat = k) ∨ ∃ x ∈ s.log.cleared, x.seq.toNat = k) ∧
    (∀ l t, drvStep s l = some t → t.log.refused = s.log.refused ∨
      ∃ x, t.log.refused = s.log.refused ++ [x] ∧ t.dev.dropped = s.dev.dropped + 1) ∧
    s.dev.dropped = UInt64.ofNat (s.log.refused.drop s.log.forgotten).length := by
  obtain ⟨hsort, hapart⟩ := sorted_apart_of_reachable h
  have hdrops : DropsCounted s.dev s.record :=
    h.inv (fun s => DropsCounted s.dev s.record) (fun _ _ _ hs hst => dropsCounted_step hs hst)
      dropsCounted_init
  have hap := hapart hk
  have hnum : Numbered s.dev s.log.pushed := hsort.numbered
  have hrange := hnum.map_toNat hk
  have hsub : s.log.removed.Sublist s.log.pushed :=
    (List.sublist_append_left _ _).trans hsort.order
  have hseq : (s.log.pushed.map Sample.seq).Nodup := by
    have hnodup : (s.log.pushed.map fun x => x.seq.toNat).Nodup := hsort.nodup_seq hk
    rw [← Function.comp_def UInt64.toNat Sample.seq, ← List.map_map] at hnodup
    exact hnodup.of_map
  refine ⟨?_, ?_, ⟨?_, hap.removed⟩, ?_, fun _ _ hst => refused_step hst, hdrops.dropped⟩
  · refine List.Pairwise.sublist (hsub.map _) ?_
    rw [hrange]
    exact List.pairwise_lt_range
  · intro x hx
    have hmem := hsub.subset hx
    exact ⟨hmem, List.count_eq_one_of_mem hseq (List.mem_map_of_mem hmem)⟩
  · refine hap.nodup.map_on ?_
    intro x hx y hy hxy
    exact List.inj_on_of_nodup_map hseq (hsub.subset (hap.removed x hx))
      (hsub.subset (hap.removed y hy)) hxy
  · intro k hlt hnone
    rw [hnum.toNat_next hk] at hlt
    have hmem : k ∈ s.log.pushed.map fun x => x.seq.toNat := by
      rw [hrange]
      exact List.mem_range.mpr hlt
    obtain ⟨x, hx, rfl⟩ := List.mem_map.mp hmem
    -- the sample with this number is in one of the four places
    have hplace : x ∈ (s.log.refused : Multiset Sample) + s.log.removed + s.log.cleared +
        ringSamples s.dev := by
      have hplaces : (s.log.refused : Multiset Sample) + s.log.removed + s.log.cleared +
        ringSamples s.dev = s.log.pushed := hsort.places
      rw [hplaces]
      exact hx
    simp only [Multiset.mem_add, Multiset.mem_coe] at hplace
    rcases hplace with ((hx | hx) | hx) | hx
    · exact Or.inl ⟨x, hx, rfl⟩
    · exact absurd rfl (hnone x (List.mem_append_left _ hx))
    · exact Or.inr ⟨x, hx, rfl⟩
    · exact absurd rfl (hnone x (List.mem_append_right _ hx))

/-- Two samples; a read takes the first, a reset clears the second. -/
def readThenReset : List Label :=
  [.timer 0 5 7, .pushLock 0, .wake 0, .timer 0 6 7, .pushLock 0, .wake 0,
    .read 2 32 true, .check 2, .readLock 2, .reset, .copy 2 false]

theorem delivery_order_readThenReset : ∃ s, run drvStep Sys.init readThenReset = some s ∧
    s.delivered.map Sample.seq = [0] ∧ s.dev.fifo = [] ∧
    ((∃ x ∈ s.log.refused, x.seq.toNat = 1) ∨ ∃ x ∈ s.log.cleared, x.seq.toNat = 1) := by
  obtain ⟨s, hs⟩ : ∃ s, run drvStep Sys.init readThenReset = some s := ⟨_, rfl⟩
  have hr : (run drvStep Sys.init readThenReset).map
      (fun s => (s.delivered.map Sample.seq, s.dev.fifo, s.dev.nextSeq)) = some ([0], [], 2) := rfl
  have hp : (run drvStep Sys.init readThenReset).map
      (fun s => (s.log.pushed.length,
        (s.log.removed ++ ringSamples s.dev).map fun x => x.seq.toNat)) = some (2, [0]) := rfl
  rw [hs] at hr hp
  obtain ⟨hdel, hdev⟩ := Prod.ext_iff.mp (Option.some.inj hr)
  obtain ⟨hfifo, hnext⟩ := Prod.ext_iff.mp hdev
  obtain ⟨hlen, hthere⟩ := Prod.ext_iff.mp (Option.some.inj hp)
  simp only at hdel hfifo hnext hlen hthere
  refine ⟨s, hs, hdel, hfifo, (delivery_order ⟨_, hs⟩ (by omega)).2.2.2.1 1 ?_ ?_⟩
  · rw [hnext]
    decide
  · intro x hx
    have hmem := List.mem_map_of_mem (f := fun x : Sample => x.seq.toNat) hx
    rw [hthere, List.mem_singleton] at hmem
    omega

end SensorHub.Driver
