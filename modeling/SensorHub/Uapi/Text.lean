import SensorHub.Uapi.Sample

set_option autoImplicit false

/-!
# Text

`std::string` as the bytes it holds, and the decimal numerals that `std::to_string` and the stream
operators print.

* `ascii`, `newline`; `find`, `find_eq_some`, `find_eq_none`, `find_append_cons`.
* `decimal`, `signedDecimal`.
* `length_decimal_le`, `length_signedDecimal_le`: how long a numeral is.
* `notMem_decimal`, `notMem_signedDecimal`: no blank and no line break is part of a numeral.
* `decimalValue_decimal`, `signedValue_signedDecimal`: a numeral stands for one number only.
-/

namespace SensorHub

/-- The bytes of a literal. -/
def ascii (s : String) : Bytes := s.toList.map fun c => c.toNat.toUInt8

/-- `'\n'`. -/
def newline : UInt8 := 10

/-- `std::string::find`; `none` is `npos`. -/
def find (c : UInt8) (s : Bytes) : Option ℕ := s.findIdx? (· == c)

/-- The first occurrence splits the string. -/
theorem find_eq_some {c : UInt8} {s : Bytes} {p : ℕ} (h : find c s = some p) :
    s = s.take p ++ c :: s.drop (p + 1) ∧ c ∉ s.take p ∧ p < s.length := by
  obtain ⟨hlt, hat, hbefore⟩ := List.findIdx?_eq_some_iff_getElem.mp h
  refine ⟨?_, ?_, hlt⟩
  · conv_lhs => rw [← List.take_append_drop p s, List.drop_eq_getElem_cons hlt]
    rw [beq_iff_eq.mp hat]
  · intro hmem
    obtain ⟨i, hi, hget⟩ := List.mem_iff_getElem.mp hmem
    rw [List.length_take] at hi
    rw [List.getElem_take] at hget
    exact absurd (beq_iff_eq.mpr hget) (hbefore i (by omega))

theorem find_eq_none {c : UInt8} {s : Bytes} (h : find c s = none) : c ∉ s := by
  intro hmem
  have hall := List.findIdx?_eq_none_iff.mp h c hmem
  rw [beq_self_eq_true] at hall
  cases hall

theorem find_of_notMem {c : UInt8} {s : Bytes} (h : c ∉ s) : find c s = none := by
  rw [find, List.findIdx?_eq_none_iff]
  intro b hb
  rw [beq_eq_false_iff_ne]
  rintro rfl
  exact h hb

theorem find_append_cons {c : UInt8} {s : Bytes} (h : c ∉ s) (rest : Bytes) :
    find c (s ++ c :: rest) = some s.length := by
  have hnone := find_of_notMem h
  unfold find at hnone ⊢
  rw [List.findIdx?_append, hnone, List.findIdx?_cons]
  simp

/-- `std::to_string`. -/
def decimal (n : ℕ) : Bytes := ascii (toString n)

/-- The same for a signed number. -/
def signedDecimal : ℤ → Bytes
  | .ofNat n => decimal n
  | .negSucc n => ascii "-" ++ decimal (n + 1)

theorem decimal_eq_map (n : ℕ) :
    decimal n = (Nat.toDigits 10 n).map fun c => c.toNat.toUInt8 := by
  rw [decimal, ascii, Nat.toString_eq_ofList_toDigits, String.toList_ofList]

/-- A digit of a number, as a character and as a byte. -/
theorem toNat_of_mem_toDigits {n : ℕ} {c : Char} (h : c ∈ Nat.toDigits 10 n) :
    48 ≤ c.toNat ∧ c.toNat ≤ 57 ∧ c.toNat.toUInt8.toNat = c.toNat := by
  have hdigit := Nat.isDigit_of_mem_toDigits (by decide) (by decide) h
  simp only [Char.isDigit, Bool.and_eq_true, decide_eq_true_eq] at hdigit
  have hlow : 48 ≤ c.toNat := hdigit.1
  have hhigh : c.toNat ≤ 57 := hdigit.2
  refine ⟨hlow, hhigh, ?_⟩
  rw [Nat.toUInt8_eq, UInt8.toNat_ofNat_of_lt' (by show c.toNat < 256; omega)]

/-- The bytes of a numeral are digits. -/
theorem digit_of_mem_decimal {n : ℕ} {b : UInt8} (h : b ∈ decimal n) :
    48 ≤ b.toNat ∧ b.toNat ≤ 57 := by
  rw [decimal_eq_map] at h
  obtain ⟨c, hc, rfl⟩ := List.mem_map.mp h
  obtain ⟨hlow, hhigh, heq⟩ := toNat_of_mem_toDigits hc
  rw [heq]
  exact ⟨hlow, hhigh⟩

theorem length_decimal_le {n k : ℕ} (hk : 0 < k) (hn : n < 10 ^ k) : (decimal n).length ≤ k := by
  rw [decimal, ascii, List.length_map, Nat.toString_eq_ofList_toDigits, String.toList_ofList]
  exact (Nat.length_toDigits_le_iff (by decide) hk).mpr hn

theorem length_signedDecimal_le {n : ℤ} {k : ℕ} (hk : 0 < k) (hn : n.natAbs < 10 ^ k) :
    (signedDecimal n).length ≤ k + 1 := by
  cases n with
  | ofNat n => exact (length_decimal_le hk hn).trans (Nat.le_succ k)
  | negSucc n =>
      have hdigits : (decimal (n + 1)).length ≤ k := length_decimal_le hk hn
      rw [signedDecimal, List.length_append]
      have hsign : (ascii "-").length = 1 := rfl
      omega

theorem notMem_decimal {b : UInt8} (h : b.toNat < 48) (n : ℕ) : b ∉ decimal n := by
  intro hmem
  have hdigit := (digit_of_mem_decimal hmem).1
  omega

theorem notMem_signedDecimal {b : UInt8} (h : b.toNat < 48) (hminus : b ∉ ascii "-") (n : ℤ) :
    b ∉ signedDecimal n := by
  cases n with
  | ofNat n => exact notMem_decimal h n
  | negSucc n =>
      rw [signedDecimal, List.mem_append]
      rintro (hmem | hmem)
      · exact hminus hmem
      · exact notMem_decimal h (n + 1) hmem

theorem newline_notMem_decimal (n : ℕ) : newline ∉ decimal n := notMem_decimal (by decide) n

theorem newline_notMem_signedDecimal (n : ℤ) : newline ∉ signedDecimal n :=
  notMem_signedDecimal (by decide) (by decide) n

/-! ### Numerals, read again -/

/-- The number that a string of digits stands for. -/
def decimalValue (s : Bytes) : ℕ := Nat.ofDigitChars 10 (s.map fun b => Char.ofNat b.toNat) 0

/-- The same with an optional minus sign. -/
def signedValue (s : Bytes) : ℤ :=
  if s.head? = some 45 then -(decimalValue s.tail : ℤ) else decimalValue s

theorem decimalValue_decimal (n : ℕ) : decimalValue (decimal n) = n := by
  have hchars : (decimal n).map (fun b => Char.ofNat b.toNat) = Nat.toDigits 10 n := by
    rw [decimal_eq_map, List.map_map]
    conv_rhs => rw [← List.map_id (Nat.toDigits 10 n)]
    refine List.map_congr_left fun c hc => ?_
    rw [Function.comp_apply, (toNat_of_mem_toDigits hc).2.2, Char.ofNat_toNat, id]
  rw [decimalValue, hchars, Nat.ofDigitChars_ten_toDigits]

theorem signedValue_signedDecimal (n : ℤ) : signedValue (signedDecimal n) = n := by
  cases n with
  | ofNat n =>
      have hhead : (decimal n).head? ≠ some 45 := by
        intro h
        exact notMem_decimal (by decide) n (List.mem_of_mem_head? h)
      rw [signedDecimal, signedValue, if_neg hhead, decimalValue_decimal]
      rfl
  | negSucc n =>
      have hsign : signedDecimal (.negSucc n) = 45 :: decimal (n + 1) := rfl
      rw [hsign, signedValue, List.head?_cons, if_pos rfl, List.tail_cons, decimalValue_decimal]
      rfl

/-- **Different numbers have different numerals.** -/
theorem decimal_inj {m n : ℕ} : decimal m = decimal n ↔ m = n := by
  refine ⟨fun h => ?_, congrArg decimal⟩
  rw [← decimalValue_decimal m, h, decimalValue_decimal]

theorem signedDecimal_inj {m n : ℤ} : signedDecimal m = signedDecimal n ↔ m = n := by
  refine ⟨fun h => ?_, congrArg signedDecimal⟩
  rw [← signedValue_signedDecimal m, h, signedValue_signedDecimal]

end SensorHub
