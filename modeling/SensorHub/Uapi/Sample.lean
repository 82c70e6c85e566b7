import SensorHub.Codec.LittleEndian
import SensorHub.Fifo.Record

set_option autoImplicit false

/-!
# The user-space interface: samples and configurations

`include/sensorhub_uapi.h`. A sample crosses the driver's ring and `read` as the bytes of
`struct sensorhub_sample`, two 64-bit and four 32-bit fields without padding.

* `Sample`, `Config`, `sampleTemp` … `sampleUser`.
* `Sample.toBytes`, `Sample.ofBytes`, `sizeofSample`; `length_toBytes`, **`ofBytes_toBytes`**.
* `samplesToBytes`, `bytesToSamples`: runs of samples, as `read` delivers them.
-/

namespace SensorHub

open LittleEndian RecordFifo

/-- Bytes, as the kernel and `std::string` hold them. -/
abbrev Bytes := List UInt8

/-- `struct sensorhub_sample`. -/
structure Sample where
  seq : UInt64
  timestampNs : UInt64
  type : UInt32
  value0 : Int32
  value1 : Int32
  value2 : Int32
  deriving DecidableEq, Repr

/-- `struct sensorhub_config`. -/
structure Config where
  intervalMs : UInt32
  enabled : UInt32
  deriving DecidableEq, Repr

/-! `enum sensorhub_sample_type`; the field itself is a plain 32-bit word. -/

def sampleTemp : UInt32 := 1
def sampleAccel : UInt32 := 2
def sampleGyro : UInt32 := 3
def sampleUser : UInt32 := 100

/-- `sizeof(struct sensorhub_sample)`. -/
def sizeofSample : ℕ := 32

namespace Sample

/-- The bytes of a sample in memory. -/
def toBytes (x : Sample) : Bytes :=
  toLE 8 x.seq.toNat ++ toLE 8 x.timestampNs.toNat ++ toLE 4 x.type.toNat ++
    toLE 4 x.value0.toUInt32.toNat ++ toLE 4 x.value1.toUInt32.toNat ++
    toLE 4 x.value2.toUInt32.toNat

/-- The sample that starts at the first byte of `bs`. -/
def ofBytes (bs : Bytes) : Sample where
  seq := UInt64.ofNat (ofLE (bs.take 8))
  timestampNs := UInt64.ofNat (ofLE ((bs.drop 8).take 8))
  type := UInt32.ofNat (ofLE ((bs.drop 16).take 4))
  value0 := (UInt32.ofNat (ofLE ((bs.drop 20).take 4))).toInt32
  value1 := (UInt32.ofNat (ofLE ((bs.drop 24).take 4))).toInt32
  value2 := (UInt32.ofNat (ofLE ((bs.drop 28).take 4))).toInt32

theorem length_toBytes (x : Sample) : x.toBytes.length = sizeofSample := by
  simp [toBytes, sizeofSample]

theorem ofLE_toLE_u64 (n : UInt64) : UInt64.ofNat (ofLE (toLE 8 n.toNat)) = n := by
  rw [ofLE_toLE n.toNat_lt, UInt64.ofNat_toNat]

theorem ofLE_toLE_u32 (n : UInt32) : UInt32.ofNat (ofLE (toLE 4 n.toNat)) = n := by
  rw [ofLE_toLE n.toNat_lt, UInt32.ofNat_toNat]

/-- **A sample is recovered from its bytes.** -/
theorem ofBytes_toBytes (x : Sample) : ofBytes x.toBytes = x := by
  simp [ofBytes, toBytes, List.drop_append, List.take_of_length_le,
    List.drop_of_length_le, ofLE_toLE_u64, ofLE_toLE_u32]

end Sample

/-- The bytes of consecutive samples. -/
def samplesToBytes (xs : List Sample) : Bytes := encodeAll Sample.toBytes xs

/-- The first `k` samples in a byte buffer. -/
def bytesToSamples (k : ℕ) (bs : Bytes) : List Sample := decodeAll Sample.ofBytes sizeofSample k bs

theorem length_samplesToBytes (xs : List Sample) :
    (samplesToBytes xs).length = sizeofSample * xs.length :=
  length_encodeAll Sample.length_toBytes xs

theorem bytesToSamples_samplesToBytes (xs : List Sample) :
    bytesToSamples xs.length (samplesToBytes xs) = xs :=
  decodeAll_encodeAll Sample.length_toBytes Sample.ofBytes_toBytes xs

end SensorHub
