import SensorHub.Uapi.Text

set_option autoImplicit false

/-!
# The line of a sample

`sample_to_line` of `userspace/src/storage/log_writer.cpp`: what a worker writes to the log and
broadcasts for a sample.

* `sampleTypeName`, `sampleToLine`; **`newline_notMem_sampleToLine`**: it is one line;
  `length_sampleToLine_le`: and a short one.
* `lineFields`, `splitOn_sampleToLine`: the blanks of a line separate its fields.
* `sampleOfLine`, **`line_determines_sample`**: different samples have different lines, up to the
  name of an unknown type.
-/

namespace SensorHub

/-- `sample_type_name`. -/
def sampleTypeName (type : UInt32) : Bytes :=
  if type = sampleTemp then ascii "temp"
  else if type = sampleAccel then ascii "accel"
  else if type = sampleGyro then ascii "gyro"
  else if type = sampleUser then ascii "user"
  else ascii "unknown"

/-- `sample_to_line`. -/
def sampleToLine (sample : Sample) : Bytes :=
  ascii "seq=" ++ decimal sample.seq.toNat ++
  ascii " ts_ns=" ++ decimal sample.timestampNs.toNat ++
  ascii " type=" ++ sampleTypeName sample.type ++
  ascii " v0=" ++ signedDecimal sample.value0.toInt ++
  ascii " v1=" ++ signedDecimal sample.value1.toInt ++
  ascii " v2=" ++ signedDecimal sample.value2.toInt

theorem newline_notMem_sampleTypeName (type : UInt32) : newline ∉ sampleTypeName type := by
  unfold sampleTypeName
  split_ifs <;> decide

/-- **The line of a sample is one line.** -/
theorem newline_notMem_sampleToLine (sample : Sample) : newline ∉ sampleToLine sample := by
  have hkeys : ∀ key ∈ ["seq=", " ts_ns=", " type=", " v0=", " v1=", " v2="],
      newline ∉ ascii key := by decide
  simp only [List.forall_mem_cons] at hkeys
  obtain ⟨hseq, hts, htype, hv0, hv1, hv2, -⟩ := hkeys
  simp only [sampleToLine, List.mem_append, not_or]
  exact ⟨⟨⟨⟨⟨⟨⟨⟨⟨⟨⟨hseq, newline_notMem_decimal _⟩, hts⟩, newline_notMem_decimal _⟩, htype⟩,
    newline_notMem_sampleTypeName _⟩, hv0⟩, newline_notMem_signedDecimal _⟩, hv1⟩,
    newline_notMem_signedDecimal _⟩, hv2⟩, newline_notMem_signedDecimal _⟩

theorem length_sampleTypeName_le (type : UInt32) : (sampleTypeName type).length ≤ 7 := by
  unfold sampleTypeName
  split_ifs <;> decide

theorem length_value_le (value : Int32) : (signedDecimal value.toInt).length ≤ 11 := by
  have hlow := value.le_toInt
  have hhigh := value.toInt_lt
  exact length_signedDecimal_le (k := 10) (by decide) (by omega)

/-- The line of a sample is a short one. -/
theorem length_sampleToLine_le (sample : Sample) : (sampleToLine sample).length ≤ 109 := by
  have hseq : (decimal sample.seq.toNat).length ≤ 20 :=
    length_decimal_le (by decide) (sample.seq.toNat_lt.trans (by decide))
  have hts : (decimal sample.timestampNs.toNat).length ≤ 20 :=
    length_decimal_le (by decide) (sample.timestampNs.toNat_lt.trans (by decide))
  have htype := length_sampleTypeName_le sample.type
  have h0 := length_value_le sample.value0
  have h1 := length_value_le sample.value1
  have h2 := length_value_le sample.value2
  have hkeys : ((["seq=", " ts_ns=", " type=", " v0=", " v1=", " v2="].map ascii).map
      List.length) = [4, 7, 6, 4, 4, 4] := by decide
  simp only [List.map_cons, List.cons.injEq] at hkeys
  obtain ⟨k0, k1, k2, k3, k4, k5, -⟩ := hkeys
  simp only [sampleToLine, List.length_append, k0, k1, k2, k3, k4, k5]
  omega

/-! ### A line, read again -/

/-- `' '`, between the fields of a line. -/
def space : UInt8 := 32

/-- The fields of the line of a sample. -/
def lineFields (sample : Sample) : List Bytes :=
  [ascii "seq=" ++ decimal sample.seq.toNat,
    ascii "ts_ns=" ++ decimal sample.timestampNs.toNat,
    ascii "type=" ++ sampleTypeName sample.type,
    ascii "v0=" ++ signedDecimal sample.value0.toInt,
    ascii "v1=" ++ signedDecimal sample.value1.toInt,
    ascii "v2=" ++ signedDecimal sample.value2.toInt]

theorem sampleToLine_eq_intercalate (sample : Sample) :
    sampleToLine sample = [space].intercalate (lineFields sample) := by
  have hts : ascii " ts_ns=" = space :: ascii "ts_ns=" := rfl
  have htype : ascii " type=" = space :: ascii "type=" := rfl
  have hv0 : ascii " v0=" = space :: ascii "v0=" := rfl
  have hv1 : ascii " v1=" = space :: ascii "v1=" := rfl
  have hv2 : ascii " v2=" = space :: ascii "v2=" := rfl
  simp only [sampleToLine, hts, htype, hv0, hv1, hv2, lineFields, List.intercalate_cons_cons,
    List.intercalate_singleton, List.append_assoc, List.cons_append, List.nil_append]

theorem space_notMem_sampleTypeName (type : UInt32) : space ∉ sampleTypeName type := by
  unfold sampleTypeName
  split_ifs <;> decide

theorem space_notMem_lineFields (sample : Sample) : ∀ field ∈ lineFields sample, space ∉ field := by
  have hkeys : ∀ key ∈ ["seq=", "ts_ns=", "type=", "v0=", "v1=", "v2="], space ∉ ascii key := by
    decide
  have hnat : ∀ n, space ∉ decimal n := notMem_decimal (by decide)
  have hint : ∀ n, space ∉ signedDecimal n := notMem_signedDecimal (by decide) (by decide)
  have hname := space_notMem_sampleTypeName sample.type
  simp only [List.forall_mem_cons] at hkeys
  obtain ⟨hseq, hts, htype, hv0, hv1, hv2, -⟩ := hkeys
  simp only [lineFields, List.forall_mem_cons, List.mem_append, not_or]
  exact ⟨⟨hseq, hnat _⟩, ⟨hts, hnat _⟩, ⟨htype, hname⟩, ⟨hv0, hint _⟩, ⟨hv1, hint _⟩,
    ⟨hv2, hint _⟩, by simp⟩

/-- **The blanks of a line separate its fields.** -/
theorem splitOn_sampleToLine (sample : Sample) :
    (sampleToLine sample).splitOn space = lineFields sample := by
  rw [sampleToLine_eq_intercalate]
  exact List.splitOn_intercalate space (space_notMem_lineFields sample) (List.cons_ne_nil _ _)

/-- The type with a name of `sample_type_name`; 0 for `unknown`. -/
def typeOfName (name : Bytes) : UInt32 :=
  if name = ascii "temp" then sampleTemp
  else if name = ascii "accel" then sampleAccel
  else if name = ascii "gyro" then sampleGyro
  else if name = ascii "user" then sampleUser
  else 0

/-- A sample, read from its line: each field is what follows its key. -/
def sampleOfLine (line : Bytes) : Option Sample :=
  match line.splitOn space with
  | [seq, ts, type, v0, v1, v2] =>
      some {
        seq := UInt64.ofNat (decimalValue (seq.drop 4))
        timestampNs := UInt64.ofNat (decimalValue (ts.drop 6))
        type := typeOfName (type.drop 5)
        value0 := Int32.ofInt (signedValue (v0.drop 3))
        value1 := Int32.ofInt (signedValue (v1.drop 3))
        value2 := Int32.ofInt (signedValue (v2.drop 3)) }
  | _ => none

/-- Everything but the type is recovered from the line of any sample. -/
theorem sampleOfLine_sampleToLine (sample : Sample) :
    sampleOfLine (sampleToLine sample) =
      some { sample with type := typeOfName (sampleTypeName sample.type) } := by
  have hkeys : (["seq=", "ts_ns=", "type=", "v0=", "v1=", "v2="].map ascii).map List.length =
      [4, 6, 5, 3, 3, 3] := by decide
  simp only [List.map_cons, List.cons.injEq] at hkeys
  obtain ⟨k0, k1, k2, k3, k4, k5, -⟩ := hkeys
  simp only [sampleOfLine, splitOn_sampleToLine, lineFields, List.drop_left' k0, List.drop_left' k1,
    List.drop_left' k2, List.drop_left' k3, List.drop_left' k4, List.drop_left' k5,
    decimalValue_decimal, signedValue_signedDecimal, UInt64.ofNat_toNat, Int32.ofInt_toInt]

theorem typeOfName_sampleTypeName {type : UInt32}
    (h : type ∈ [sampleTemp, sampleAccel, sampleGyro, sampleUser]) :
    typeOfName (sampleTypeName type) = type := by
  simp only [List.mem_cons, List.not_mem_nil, or_false] at h
  rcases h with rfl | rfl | rfl | rfl <;> rfl

/-- **A line determines its sample.** Two samples have the same line if and only if they agree in
everything but their types, and the types have the same name; a sample of a known type is recovered
from its line. The line has no line break and at most 109 bytes. -/
theorem line_determines_sample (a b : Sample) :
    (sampleToLine a = sampleToLine b ↔
      a.seq = b.seq ∧ a.timestampNs = b.timestampNs ∧ a.value0 = b.value0 ∧ a.value1 = b.value1 ∧
      a.value2 = b.value2 ∧ sampleTypeName a.type = sampleTypeName b.type) ∧
    (a.type ∈ [sampleTemp, sampleAccel, sampleGyro, sampleUser] →
      sampleOfLine (sampleToLine a) = some a) ∧
    newline ∉ sampleToLine a ∧ (sampleToLine a).length ≤ 109 := by
  refine ⟨⟨?_, ?_⟩, ?_, newline_notMem_sampleToLine a, length_sampleToLine_le a⟩
  · intro h
    have hfields : lineFields a = lineFields b := by
      rw [← splitOn_sampleToLine, h, splitOn_sampleToLine]
    simp only [lineFields, List.cons.injEq, List.append_cancel_left_eq, decimal_inj,
      signedDecimal_inj, UInt64.toNat_inj, Int32.toInt_inj, and_true] at hfields
    obtain ⟨hseq, hts, htype, h0, h1, h2⟩ := hfields
    exact ⟨hseq, hts, h0, h1, h2, htype⟩
  · rintro ⟨hseq, hts, h0, h1, h2, htype⟩
    simp only [sampleToLine, hseq, hts, h0, h1, h2, htype]
  · intro hknown
    rw [sampleOfLine_sampleToLine, typeOfName_sampleTypeName hknown]

end SensorHub
