import SensorHub.Daemon.Settings

set_option autoImplicit false

/-!
# The numbers of a configuration file

`std::stoi` and `std::stoul` read a numeral at the beginning of a value and ignore what is behind
it, `std::stoul` takes a minus sign, and `sensor_interval_ms` is cut down to 32 bits without a
check.

* `NumericKey`, `Numeral`, `numeralValue`: the keys with numbers, and plain numerals.
* `scanNumeral_numeral`, `stoul_eq`, `toPort_eq_ok`: the conversions of a plain numeral.
* `Bare`, `numeral_of_bare`: a value that is converted is a plain numeral, if it has no minus sign
  and nothing behind its digits.
* **`numbers_exact_iff`**: when the numbers of an accepted text mean what it says;
  **`negative_capacity`**, a text where they do not.
-/

namespace SensorHub

open Driver (isDigit digitsValue)

/-- The keys whose values are numbers. -/
inductive NumericKey
  | tcpListenPort
  | udpExportPort
  | workerThreads
  | logRotateBytes
  | queueCapacity
  | sensorIntervalMs
  deriving DecidableEq

namespace NumericKey

def key : NumericKey → Key
  | tcpListenPort => .tcpListenPort
  | udpExportPort => .udpExportPort
  | workerThreads => .workerThreads
  | logRotateBytes => .logRotateBytes
  | queueCapacity => .queueCapacity
  | sensorIntervalMs => .sensorIntervalMs

/-- The number in the field. -/
def number (c : AppConfig) : NumericKey → ℕ
  | tcpListenPort => c.tcpListenPort.toNat
  | udpExportPort => c.udpExportPort.toNat
  | workerThreads => c.workerThreads.toNat
  | logRotateBytes => c.logRotateBytes.toNat
  | queueCapacity => c.queueCapacity.toNat
  | sensorIntervalMs => c.sensorIntervalMs.toNat

end NumericKey

/-- The values that the lines of a text give to a key. -/
def valuesIn (text : Bytes) (k : Key) : List Bytes := Fields.valuesOf k (settings (lines text))

/-- `'+'`. -/
def plusSign : UInt8 := 43

/-- `'-'`. -/
def minusSign : UInt8 := 45

/-- A numeral without its plus sign. -/
def numeralDigits (value : Bytes) : Bytes :=
  if value.head? = some plusSign then value.tail else value

/-- Decimal digits, with or without a plus sign in front. -/
structure Numeral (value : Bytes) : Prop where
  nonempty : numeralDigits value ≠ []
  digits : ∀ b ∈ numeralDigits value, isDigit b = true

/-- The number a numeral stands for. -/
def numeralValue (value : Bytes) : ℕ := digitsValue (numeralDigits value)

/-! ### The conversions of a numeral -/

theorem isSpace_of_isDigit {b : UInt8} (h : isDigit b = true) : isSpace b = false := by
  simp only [isDigit, Bool.and_eq_true, decide_eq_true_eq, UInt8.le_iff_toNat_le] at h
  have hlow : 48 ≤ b.toNat := h.1
  simp only [isSpace, Bool.or_eq_false_iff, Bool.and_eq_false_iff, decide_eq_false_iff_not,
    UInt8.le_iff_toNat_le, beq_eq_false_iff_ne]
  refine ⟨.inr fun hhigh => ?_, ?_⟩
  · have hle : b.toNat ≤ 13 := hhigh
    omega
  · rintro rfl
    exact absurd hlow (by decide)

theorem Numeral.head {value : Bytes} (h : Numeral value) :
    ∃ b rest, value = b :: rest ∧ isSpace b = false ∧ b ≠ minusSign := by
  cases value with
  | nil => exact absurd rfl h.nonempty
  | cons b rest =>
      refine ⟨b, rest, rfl, ?_⟩
      by_cases hplus : b = plusSign
      · rw [hplus]
        exact ⟨rfl, by decide⟩
      · have hdigit : isDigit b = true := by
          apply h.digits
          rw [numeralDigits, if_neg (by simpa using hplus)]
          exact List.mem_cons_self
        refine ⟨isSpace_of_isDigit hdigit, ?_⟩
        rintro rfl
        cases hdigit

/-- **A plain numeral is read whole.** -/
theorem scanNumeral_numeral {value : Bytes} (h : Numeral value) :
    scanNumeral value = some (false, numeralValue value) := by
  obtain ⟨b, rest, hvalue, hspace, hminus⟩ := h.head
  have hdrop : value.dropWhile isSpace = value := by
    rw [hvalue, List.dropWhile_cons_of_neg (by simp [hspace])]
  have hneg : value.head? ≠ some 45 := by
    rw [hvalue, List.head?_cons]
    exact fun hsome => hminus (Option.some.inj hsome)
  have hdigits : (if value.head? = some 45 ∨ value.head? = some 43 then value.tail else value) =
      numeralDigits value := by
    simp only [hneg, false_or]
    rfl
  simp only [scanNumeral, hdrop, hdigits, List.takeWhile_eq_self_iff.mpr h.digits]
  rw [if_neg h.nonempty, decide_eq_false hneg, numeralValue]

/-- `std::stoul` on a plain numeral. -/
theorem stoul_eq {value : Bytes} (hv : Numeral value) : stoul value =
    if 2 ^ 64 ≤ numeralValue value then .error (.outOfRange (ascii "stoul"))
    else .ok (UInt64.ofNat (numeralValue value)) := by
  simp only [stoul, scanNumeral_numeral hv, Bool.false_eq_true, if_false]

theorem stoul_numeral {value : Bytes} {n : UInt64} (h : stoul value = .ok n) (hv : Numeral value) :
    n.toNat = numeralValue value := by
  rw [stoul_eq hv] at h
  split_ifs at h with hrange
  cases h
  exact UInt64.toNat_ofNat_of_lt' (not_le.mp hrange)

/-- `std::stoi` on a plain numeral. -/
theorem stoi_eq {value : Bytes} (hv : Numeral value) : stoi value =
    if 2 ^ 31 ≤ numeralValue value then .error (.outOfRange (ascii "stoi"))
    else .ok (numeralValue value) := by
  simp only [stoi, scanNumeral_numeral hv, Bool.false_eq_true, if_false]
  congr 1
  rw [eq_iff_iff]
  omega

/-- `to_port` on a plain numeral. -/
theorem toPort_eq_ok {value : Bytes} {port : UInt16} (hv : Numeral value) :
    toPort value = .ok port ↔ port ≠ 0 ∧ port.toNat = numeralValue value := by
  have hport := port.toNat_lt
  have hzero : port ≠ 0 ↔ port.toNat ≠ 0 := by
    rw [ne_eq, ← UInt16.toNat_inj, UInt16.toNat_zero]
  rw [toPort, stoi_eq hv, hzero]
  by_cases hrange : 2 ^ 31 ≤ numeralValue value
  · rw [if_pos hrange]
    refine iff_of_false (fun h => by cases h) ?_
    omega
  · rw [if_neg hrange]
    by_cases hbad : (numeralValue value : ℤ) ≤ 0 ∨ 65535 < (numeralValue value : ℤ)
    · simp only [bind, Except.bind, hbad, if_true]
      refine iff_of_false (fun h => by cases h) ?_
      omega
    · simp only [bind, Except.bind, hbad, if_false, pure, Except.pure, Except.ok.injEq,
        Int.toNat_natCast]
      rw [← UInt16.toNat_inj, UInt16.toNat_ofNat_of_lt' (by show numeralValue value < 65536; omega)]
      omega

/-! ### Values that are converted -/

/-- No minus sign, and nothing behind the digits. -/
structure Bare (value : Bytes) : Prop where
  unsigned : value.head? ≠ some minusSign
  digits : ∀ b ∈ value.tail, isDigit b = true

theorem Numeral.bare {value : Bytes} (h : Numeral value) : Bare value where
  unsigned := by
    obtain ⟨b, rest, rfl, -, hminus⟩ := h.head
    exact fun hsome => hminus (Option.some.inj hsome)
  digits b hb := by
    have hdigits := h.digits
    unfold numeralDigits at hdigits
    split_ifs at hdigits
    · exact hdigits b hb
    · exact hdigits b (List.mem_of_mem_tail hb)

/-- **A trimmed value with a numeral in it is a plain one, if it is bare.** -/
theorem numeral_of_bare {value : Bytes} (hhead : ∀ b, value.head? = some b → isSpace b = false)
    (hscan : (scanNumeral value).isSome) (hbare : Bare value) : Numeral value := by
  have hdrop : value.dropWhile isSpace = value := by
    cases value with
    | nil => rfl
    | cons b rest => rw [List.dropWhile_cons_of_neg (by simp [hhead b rfl])]
  have hneg : value.head? ≠ some 45 := hbare.unsigned
  have hdigits : (if value.head? = some 45 ∨ value.head? = some 43 then value.tail else value) =
      numeralDigits value := by
    simp only [hneg, false_or]
    rfl
  simp only [scanNumeral, hdrop, hdigits] at hscan
  have hsome : (numeralDigits value).takeWhile isDigit ≠ [] := by
    intro hnil
    rw [if_pos hnil] at hscan
    cases hscan
  refine ⟨fun hnil => hsome (by rw [hnil]; rfl), ?_⟩
  intro b hb
  unfold numeralDigits at hb hsome
  split_ifs at hb hsome with hplus
  · exact hbare.digits b hb
  · cases value with
    | nil => cases hb
    | cons c rest =>
        rcases List.mem_cons.mp hb with rfl | hrest
        · by_contra hnot
          exact hsome (List.takeWhile_cons_of_neg hnot)
        · exact hbare.digits b hrest

theorem scanNumeral_of_stoul {value : Bytes} {n : UInt64} (h : (stoul value).toOption = some n) :
    (scanNumeral value).isSome := by
  unfold stoul at h
  split at h
  · cases h
  · rename_i hscan
    rw [hscan]
    rfl

theorem scanNumeral_of_toPort {value : Bytes} {port : UInt16}
    (h : (toPort value).toOption = some port) : (scanNumeral value).isSome := by
  unfold toPort stoi at h
  split at h
  · cases h
  · rename_i hscan
    rw [hscan]
    rfl

theorem scanNumeral_of_convert {k : NumericKey} {value : Bytes}
    (h : (k.key.convert value).isSome) : (scanNumeral value).isSome := by
  obtain ⟨x, hx⟩ := Option.isSome_iff_exists.mp h
  cases k with
  | tcpListenPort => exact scanNumeral_of_toPort hx
  | udpExportPort => exact scanNumeral_of_toPort hx
  | workerThreads => exact scanNumeral_of_stoul hx
  | logRotateBytes => exact scanNumeral_of_stoul hx
  | queueCapacity => exact scanNumeral_of_stoul hx
  | sensorIntervalMs =>
      obtain ⟨n, hn, -⟩ := Option.map_eq_some_iff.mp hx
      exact scanNumeral_of_stoul hn

theorem ok_of_toOption {ε α : Type*} {x : Except ε α} {a : α} (h : x.toOption = some a) :
    x = .ok a := by
  cases x with
  | error e => cases h
  | ok b => exact congrArg Except.ok (Option.some.inj h)

/-! ### Accepted texts -/

section Accepted

variable {text : Bytes} {c : AppConfig}

/-- In an accepted text the values of a numeric key have numerals in them, and no white space in
front. -/
theorem scanNumeral_of_mem {k : NumericKey} {w : Bytes} (h : outcome (lines text) = some c)
    (hw : w ∈ valuesIn text k.key) :
    (scanNumeral w).isSome ∧ ∀ b, w.head? = some b → isSpace b = false := by
  have hmem := Fields.mem_valuesOf.mp hw
  have hall := Fields.assignAll_isSome.mp (Option.isSome_iff_exists.mpr
    ⟨c, (outcome_eq_some.mp h).2.1⟩)
  refine ⟨scanNumeral_of_convert (hall _ hmem), ?_⟩
  intro b hb
  obtain ⟨u, rfl⟩ := mem_settings hmem
  exact Trim.head_strip hb

/-- **The number behind a plain last value**; only the interval may be cut down. -/
theorem number_of_last {k : NumericKey} {v : Bytes} (h : outcome (lines text) = some c)
    (hlast : (valuesIn text k.key).getLast? = some v) (hv : Numeral v) :
    k.number c =
      if k = .sensorIntervalMs then numeralValue v % 2 ^ 32 else numeralValue v := by
  have hget : some (k.key.get c) = k.key.convert v := by
    have hfield := Fields.get_assignAll (outcome_eq_some.mp h).2.1 k.key
    rw [valuesIn] at hlast
    rw [hlast] at hfield
    exact hfield
  cases k with
  | tcpListenPort => exact ((toPort_eq_ok hv).mp (ok_of_toOption hget.symm)).2
  | udpExportPort => exact ((toPort_eq_ok hv).mp (ok_of_toOption hget.symm)).2
  | workerThreads => exact stoul_numeral (ok_of_toOption hget.symm) hv
  | logRotateBytes => exact stoul_numeral (ok_of_toOption hget.symm) hv
  | queueCapacity => exact stoul_numeral (ok_of_toOption hget.symm) hv
  | sensorIntervalMs =>
      obtain ⟨n, hn, hcut⟩ := Option.map_eq_some_iff.mp hget.symm
      have hn' : n.toNat = numeralValue v := stoul_numeral (ok_of_toOption hn) hv
      show c.sensorIntervalMs.toNat = _
      rw [if_pos rfl, ← hn', ← UInt64.toNat_toUInt32]
      exact congrArg UInt32.toNat hcut.symm

/-- The numbers mean what the text says: every value of a numeric key is a plain numeral, and the
field has the number of the last one. -/
def NumbersExact (text : Bytes) (c : AppConfig) : Prop :=
  ∀ (k : NumericKey) (v : Bytes), (valuesIn text k.key).getLast? = some v →
    (∀ w ∈ valuesIn text k.key, Numeral w) ∧ k.number c = numeralValue v

/-- **When the numbers of an accepted text mean what it says**: if no value of a numeric key has a
minus sign or anything behind its digits, and the last interval fits in 32 bits. -/
theorem numbers_exact_iff {path : Bytes} (h : loadConfigFile path (some text) = .ok c) :
    NumbersExact text c ↔
      (∀ k : NumericKey, ∀ w ∈ valuesIn text k.key, Bare w) ∧
      ∀ v, (valuesIn text .sensorIntervalMs).getLast? = some v → numeralValue v < 2 ^ 32 := by
  rw [loadConfigFile_eq_ok] at h
  constructor
  · intro hexact
    refine ⟨?_, ?_⟩
    · intro k w hw
      have hne : valuesIn text k.key ≠ [] := List.ne_nil_of_mem hw
      exact ((hexact k _ (List.getLast?_eq_some_getLast hne)).1 w hw).bare
    · intro v hv
      rw [← (hexact .sensorIntervalMs v hv).2]
      exact c.sensorIntervalMs.toNat_lt
  · rintro ⟨hbare, hinterval⟩ k v hlast
    have hplain : ∀ w ∈ valuesIn text k.key, Numeral w := by
      intro w hw
      obtain ⟨hscan, hhead⟩ := scanNumeral_of_mem h hw
      exact numeral_of_bare hhead hscan (hbare k w hw)
    refine ⟨hplain, ?_⟩
    rw [number_of_last h hlast (hplain v (List.mem_of_getLast? hlast))]
    split_ifs with hk
    · rw [hk] at hlast
      exact Nat.mod_eq_of_lt (hinterval v hlast)
    · rfl

end Accepted

/-- An interval and a port, the second one with a plus sign. -/
def plainText : Bytes := ascii "sensor_interval_ms=250\ntcp_listen_port=+80\n"

theorem numbers_exact_iff_plainText : ∃ c, loadConfigFile [] (some plainText) = .ok c ∧
    NumbersExact plainText c := by
  refine ⟨_, rfl, (@numbers_exact_iff plainText _ [] rfl).mpr ⟨?_, ?_⟩⟩
  · intro k w hw
    cases k with
    | tcpListenPort =>
        rw [List.mem_singleton.mp (hw : w ∈ [ascii "+80"])]
        exact ⟨by decide, List.all_eq_true.mp rfl⟩
    | sensorIntervalMs =>
        rw [List.mem_singleton.mp (hw : w ∈ [ascii "250"])]
        exact ⟨by decide, List.all_eq_true.mp rfl⟩
    | _ => exact absurd (hw : w ∈ []) List.not_mem_nil
  · intro v hv
    rw [← Option.some.inj (hv : some (ascii "250") = some v)]
    decide

/-- A queue of capacity minus one. -/
def negativeText : Bytes := ascii "queue_capacity=-1\n"

/-- **A negative capacity is accepted**, as the largest number there is. -/
theorem negative_capacity : ∃ c, loadConfigFile [] (some negativeText) = .ok c ∧
    c.queueCapacity.toNat = 2 ^ 64 - 1 ∧ ¬ NumbersExact negativeText c := by
  refine ⟨_, rfl, by decide, ?_⟩
  intro hexact
  have hnumeral := (hexact .queueCapacity (ascii "-1") rfl).1 (ascii "-1") (by decide)
  exact absurd (hnumeral.digits minusSign (by decide)) (by decide)

end SensorHub
