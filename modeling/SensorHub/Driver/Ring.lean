import SensorHub.Uapi.Sample

set_option autoImplicit false

/-!
# The driver's ring and the sections under its lock

`kernel/sensorhub_drv.c`. `kfifo` is a byte queue of `SENSORHUB_FIFO_BYTES`; `kfifo_in` and
`kfifo_out` copy as many bytes as fit or are there. Every section between `spin_lock_irqsave` and
`spin_unlock_irqrestore` is one function on the fields the lock protects.

* `Ring`, `pushSample`, `hasData`, `readOut`, `reset`.
* `Holds d xs`: the ring of `d` is the bytes of the samples `xs`, which fit.
* **`pushSample_room`**, **`pushSample_full`**, **`readOut_holds`**: on such a ring a push takes a
  whole sample or none, and a read removes whole samples.
* `Numbered d pushed`, **`Numbered.push`**: the pushed samples are numbered one after the other.
* `ringSamples`: the samples of a ring, read off its bytes.
-/

namespace SensorHub.Driver

open RecordFifo

/-- `SENSORHUB_FIFO_BYTES`. -/
def fifoBytes : ℕ := 64 * 1024

/-- How many samples the ring has room for. -/
def fifoSamples : ℕ := 2048

/-- The samples that fit in the buffer on the stack of `sensorhub_read`. -/
def readSamples : ℕ := 64

/-- The fields of `struct sensorhub_device` that `lock` protects. -/
structure Ring where
  fifo : Bytes
  nextSeq : UInt64
  generated : UInt64
  injected : UInt64
  dropped : UInt64
  readBytes : UInt64
  deriving DecidableEq, Repr

/-- The ring after `kzalloc` and `kfifo_alloc`. -/
def Ring.init : Ring := ⟨[], 0, 0, 0, 0, 0⟩

/-- `kfifo_in`: the new content and the number of bytes copied. -/
def kfifoIn (fifo data : Bytes) : Bytes × ℕ := offer fifoBytes fifo data

/-- `kfifo_out`: the bytes copied out and the new content. -/
def kfifoOut (fifo : Bytes) (n : ℕ) : Bytes × Bytes := fetch n fifo

/-- `!kfifo_is_empty`, the body of `sensorhub_has_data`. -/
def hasData (d : Ring) : Bool := !d.fifo.isEmpty

theorem fifo_eq_nil_of_not_hasData {d : Ring} (h : ¬ hasData d = true) : d.fifo = [] := by
  cases hf : d.fifo with
  | nil => rfl
  | cons b bs => exact absurd (by rw [hasData, hf]; rfl) h

/-- The sample `sensorhub_push_sample` stores for `sample`: its number is the next one. -/
def stamp (d : Ring) (sample : Sample) : Sample := { sample with seq := d.nextSeq }

/-- The locked section of `sensorhub_push_sample`. -/
def pushSample (d : Ring) (sample : Sample) (injected : Bool) : Ring :=
  let item := stamp d sample
  let (fifo, copied) := kfifoIn d.fifo item.toBytes
  let d := { d with fifo := fifo, nextSeq := d.nextSeq + 1 }
  if copied ≠ sizeofSample then { d with dropped := d.dropped + 1 }
  else if injected then { d with injected := d.injected + 1 }
  else { d with generated := d.generated + 1 }

/-- `max_bytes` of `sensorhub_read`, from a `count` of at least one sample. -/
def maxBytes (count : ℕ) : ℕ := min (count - count % sizeofSample) (readSamples * sizeofSample)

/-- The locked section of `sensorhub_read`: the bytes taken and the ring. -/
def readOut (d : Ring) (count : ℕ) : Bytes × Ring :=
  let (samples, fifo) := kfifoOut d.fifo (maxBytes count)
  (samples, { d with fifo := fifo, readBytes := d.readBytes + UInt64.ofNat samples.length })

/-- The locked section of `SENSORHUB_IOC_RESET`. -/
def reset (d : Ring) : Ring :=
  { d with fifo := [], generated := 0, injected := 0, dropped := 0, readBytes := 0 }

/-! ### Rings that hold whole samples -/

/-- The ring holds the bytes of `xs`, and `xs` fits. -/
structure Holds (d : Ring) (xs : List Sample) : Prop where
  fifo : d.fifo = samplesToBytes xs
  fits : xs.length ≤ fifoSamples

theorem fifoBytes_eq : fifoBytes = sizeofSample * fifoSamples := rfl

theorem holds_init : Holds Ring.init [] := ⟨rfl, Nat.zero_le _⟩

theorem holds_reset (d : Ring) : Holds (reset d) [] := ⟨rfl, Nat.zero_le _⟩

theorem Holds.length_fifo {d : Ring} {xs : List Sample} (h : Holds d xs) :
    d.fifo.length = sizeofSample * xs.length := by
  rw [h.fifo, length_samplesToBytes]

/-- **`kfifo_in` takes a sample as a whole or not at all.** -/
theorem kfifoIn_holds {d : Ring} {xs : List Sample} (h : Holds d xs) (item : Sample) :
    kfifoIn d.fifo item.toBytes =
      if xs.length < fifoSamples then (samplesToBytes (xs ++ [item]), sizeofSample)
      else (samplesToBytes xs, 0) := by
  rw [kfifoIn, fifoBytes_eq, h.fifo]
  exact offer_encodeAll Sample.length_toBytes item h.fits

/-- **A push into a ring with room** appends the stamped sample and counts it. -/
theorem pushSample_room {d : Ring} {xs : List Sample} (h : Holds d xs)
    (hroom : xs.length < fifoSamples) (sample : Sample) (injected : Bool) :
    Holds (pushSample d sample injected) (xs ++ [stamp d sample]) ∧
      pushSample d sample injected =
        { d with
          fifo := samplesToBytes (xs ++ [stamp d sample])
          nextSeq := d.nextSeq + 1
          injected := if injected then d.injected + 1 else d.injected
          generated := if injected then d.generated else d.generated + 1 } := by
  have hpush : pushSample d sample injected =
      { d with
        fifo := samplesToBytes (xs ++ [stamp d sample])
        nextSeq := d.nextSeq + 1
        injected := if injected then d.injected + 1 else d.injected
        generated := if injected then d.generated else d.generated + 1 } := by
    simp only [pushSample, kfifoIn_holds h, if_pos hroom]
    cases injected <;> rfl
  refine ⟨⟨by rw [hpush], ?_⟩, hpush⟩
  rw [List.length_append, List.length_singleton]
  omega

/-- **A push into a full ring** uses up a number and counts a drop. -/
theorem pushSample_full {d : Ring} {xs : List Sample} (h : Holds d xs)
    (hfull : ¬ xs.length < fifoSamples) (sample : Sample) (injected : Bool) :
    Holds (pushSample d sample injected) xs ∧
      pushSample d sample injected =
        { d with nextSeq := d.nextSeq + 1, dropped := d.dropped + 1 } := by
  have hpush : pushSample d sample injected =
      { d with nextSeq := d.nextSeq + 1, dropped := d.dropped + 1 } := by
    simp only [pushSample, kfifoIn_holds h, if_neg hfull, ← h.fifo]
    rfl
  exact ⟨⟨by rw [hpush]; exact h.fifo, h.fits⟩, hpush⟩

theorem nextSeq_pushSample (d : Ring) (sample : Sample) (injected : Bool) :
    (pushSample d sample injected).nextSeq = d.nextSeq + 1 := by
  unfold pushSample
  simp only
  split_ifs <;> rfl

/-- The samples that were pushed so far carry the numbers `0, 1, …`, and the next one is theirs. -/
structure Numbered (d : Ring) (pushed : List Sample) : Prop where
  numbers : pushed.map Sample.seq = (List.range pushed.length).map UInt64.ofNat
  next : d.nextSeq = UInt64.ofNat pushed.length

theorem numbered_init : Numbered Ring.init [] := ⟨rfl, rfl⟩

/-- **A push hands out the next number**, whether or not the ring has room. -/
theorem Numbered.push {d : Ring} {pushed : List Sample} (h : Numbered d pushed) (sample : Sample)
    (injected : Bool) :
    Numbered (pushSample d sample injected) (pushed ++ [stamp d sample]) where
  numbers := by
    rw [List.map_append, h.numbers, List.length_append, List.length_singleton, List.range_succ,
      List.map_append, List.map_singleton, List.map_singleton, ← h.next]
    rfl
  next := by
    rw [nextSeq_pushSample, h.next, List.length_append, List.length_singleton, UInt64.ofNat_add]
    rfl

/-- As long as the numbers fit in 64 bits they are the positions in the list. -/
theorem Numbered.map_toNat {d : Ring} {pushed : List Sample} (h : Numbered d pushed)
    (hk : pushed.length < 2 ^ 64) :
    pushed.map (fun x => x.seq.toNat) = List.range pushed.length := by
  have hmap := congrArg (List.map UInt64.toNat) h.numbers
  rw [List.map_map, List.map_map] at hmap
  refine hmap.trans ?_
  conv_rhs => rw [← List.map_id (List.range pushed.length)]
  refine List.map_congr_left fun k hmem => ?_
  have hlt := List.mem_range.mp hmem
  rw [Function.comp_apply, UInt64.toNat_ofNat', id, Nat.mod_eq_of_lt (by omega)]

theorem Numbered.toNat_next {d : Ring} {pushed : List Sample} (h : Numbered d pushed)
    (hk : pushed.length < 2 ^ 64) : d.nextSeq.toNat = pushed.length := by
  rw [h.next, UInt64.toNat_ofNat', Nat.mod_eq_of_lt (by omega)]

/-- The number of samples a read of `count` bytes asks for. -/
def askedSamples (count : ℕ) : ℕ := min (count / sizeofSample) readSamples

theorem maxBytes_eq (count : ℕ) : maxBytes count = sizeofSample * askedSamples count := by
  unfold maxBytes askedSamples sizeofSample readSamples
  omega

/-- **A read removes whole samples**, the oldest ones. -/
theorem readOut_holds {d : Ring} {xs : List Sample} (h : Holds d xs) (count : ℕ) :
    (readOut d count).1 = samplesToBytes (xs.take (askedSamples count)) ∧
      Holds (readOut d count).2 (xs.drop (askedSamples count)) ∧
      (readOut d count).2.nextSeq = d.nextSeq := by
  have htake : (readOut d count).1 = samplesToBytes (xs.take (askedSamples count)) := by
    simp only [readOut, kfifoOut, fetch, h.fifo, maxBytes_eq]
    exact take_encodeAll Sample.length_toBytes _ xs
  have hdrop : (readOut d count).2.fifo = samplesToBytes (xs.drop (askedSamples count)) := by
    simp only [readOut, kfifoOut, fetch, h.fifo, maxBytes_eq]
    exact drop_encodeAll Sample.length_toBytes _ xs
  refine ⟨htake, ⟨hdrop, ?_⟩, rfl⟩
  rw [List.length_drop]
  exact (Nat.sub_le _ _).trans h.fits

end SensorHub.Driver

namespace SensorHub

open Driver

/-- The samples in a ring. -/
def ringSamples (d : Ring) : List Sample := bytesToSamples (d.fifo.length / sizeofSample) d.fifo

theorem ringSamples_of_holds {d : Ring} {xs : List Sample} (h : Holds d xs) :
    ringSamples d = xs := by
  rw [ringSamples, h.length_fifo, h.fifo, Nat.mul_div_cancel_left _ (by decide)]
  exact bytesToSamples_samplesToBytes xs

end SensorHub
