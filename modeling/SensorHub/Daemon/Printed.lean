import SensorHub.Daemon.Numerals

set_option autoImplicit false

/-!
# A configuration, written down and read back

A configuration as a file of `key=value` lines, one for each field, in any order.

* `Key.print`, `printLine`, `unlines`, `printConfig`.
* `Writable`: the configurations that can be written down.
* `numeralValue_decimal`, `convert_print`: a printed value is converted back.
* `classify_printLine`, **`loadConfigFile_printConfig`**: and so is the whole file.
-/

namespace SensorHub

open Driver (isDigit digitsValue)

/-- The value of a field, as text: numbers in decimal, the flag as `true` or `false`. -/
def Key.print (c : AppConfig) : Key → Bytes
  | devicePath => c.devicePath
  | logFile => c.logFile
  | controlSocket => c.controlSocket
  | udpExportHost => c.udpExportHost
  | tcpListenPort => decimal c.tcpListenPort.toNat
  | udpExportPort => decimal c.udpExportPort.toNat
  | workerThreads => decimal c.workerThreads.toNat
  | logRotateBytes => decimal c.logRotateBytes.toNat
  | queueCapacity => decimal c.queueCapacity.toNat
  | simulateDevice => if c.simulateDevice then ascii "true" else ascii "false"
  | sensorIntervalMs => decimal c.sensorIntervalMs.toNat

/-- The line of a field. -/
def printLine (c : AppConfig) (k : Key) : Bytes := k.name ++ equalsSign :: k.print c

/-- Lines as a text. -/
def unlines (ls : List Bytes) : Bytes := ls.flatMap (· ++ [newline])

/-- The file with the lines of the fields, in the order of `ks`. -/
def printConfig (c : AppConfig) (ks : List Key) : Bytes := unlines (ks.map (printLine c))

/-- A text that survives comments, lines and trimming. -/
structure PlainText (s : Bytes) : Prop where
  comment : numberSign ∉ s
  line : newline ∉ s
  head : ∀ b, s.head? = some b → isSpace b = false
  last : ∀ b, s.getLast? = some b → isSpace b = false

/-- A configuration that can be written down. -/
structure AppConfig.Writable (c : AppConfig) : Prop where
  devicePath : PlainText c.devicePath
  logFile : PlainText c.logFile
  controlSocket : PlainText c.controlSocket
  udpExportHost : PlainText c.udpExportHost
  tcpListenPort : 1 ≤ c.tcpListenPort
  udpExportPort : 1 ≤ c.udpExportPort
  workerThreads : 1 ≤ c.workerThreads
  queueCapacity : 1 ≤ c.queueCapacity

/-! ### Printed numbers -/

theorem isDigit_of_mem_decimal {n : ℕ} {b : UInt8} (h : b ∈ decimal n) : isDigit b = true := by
  obtain ⟨hlow, hhigh⟩ := digit_of_mem_decimal h
  rw [isDigit, Bool.and_eq_true, decide_eq_true_eq, decide_eq_true_eq]
  exact ⟨UInt8.le_iff_toNat_le.mpr hlow, UInt8.le_iff_toNat_le.mpr hhigh⟩

theorem decimal_ne_nil (n : ℕ) : decimal n ≠ [] := by
  rw [decimal_eq_map, ne_eq, List.map_eq_nil_iff, ← List.length_eq_zero_iff]
  exact Nat.length_toDigits_pos.ne'

/-- **The digits of a number, read again.** -/
theorem digitsValue_decimal (n : ℕ) : digitsValue (decimal n) = n := by
  have hdigit : ∀ c ∈ Nat.toDigits 10 n, c.toNat.toUInt8.toNat = c.toNat :=
    fun _ hc => (toNat_of_mem_toDigits hc).2.2
  have hread : ∀ (cs : List Char) (m : ℕ), (∀ c ∈ cs, c.toNat.toUInt8.toNat = c.toNat) →
      (cs.map fun c => c.toNat.toUInt8).foldl (fun n b => 10 * n + (b.toNat - 48)) m =
        Nat.ofDigitChars 10 cs m := by
    intro cs
    induction cs with
    | nil => intro m _; exact Nat.ofDigitChars_nil.symm
    | cons c cs ih =>
        intro m hcs
        rw [List.map_cons, List.foldl_cons, hcs c List.mem_cons_self, Nat.ofDigitChars_cons]
        exact ih _ fun d hd => hcs d (List.mem_cons_of_mem c hd)
  rw [decimal_eq_map, digitsValue, hread _ _ hdigit, Nat.ofDigitChars_ten_toDigits]

theorem numeralDigits_decimal (n : ℕ) : numeralDigits (decimal n) = decimal n := by
  rw [numeralDigits, if_neg]
  intro hplus
  have hdigit := isDigit_of_mem_decimal (List.mem_of_mem_head? hplus)
  cases hdigit

theorem numeral_decimal (n : ℕ) : Numeral (decimal n) where
  nonempty := by
    rw [numeralDigits_decimal]
    exact decimal_ne_nil n
  digits b hb := by
    rw [numeralDigits_decimal] at hb
    exact isDigit_of_mem_decimal hb

theorem numeralValue_decimal (n : ℕ) : numeralValue (decimal n) = n := by
  rw [numeralValue, numeralDigits_decimal, digitsValue_decimal]

theorem stoul_decimal {n : ℕ} (hn : n < 2 ^ 64) : stoul (decimal n) = .ok (UInt64.ofNat n) := by
  rw [stoul_eq (numeral_decimal n), numeralValue_decimal, if_neg (not_le.mpr hn)]

theorem toPort_decimal {port : UInt16} (hport : 1 ≤ port) :
    toPort (decimal port.toNat) = .ok port := by
  rw [toPort_eq_ok (numeral_decimal _), numeralValue_decimal]
  refine ⟨?_, rfl⟩
  rintro rfl
  exact absurd hport (by decide)

theorem plainText_decimal (n : ℕ) : PlainText (decimal n) where
  comment h := by
    have hdigit := isDigit_of_mem_decimal h
    cases hdigit
  line := newline_notMem_decimal n
  head b h := isSpace_of_isDigit (isDigit_of_mem_decimal (List.mem_of_mem_head? h))
  last b h := isSpace_of_isDigit (isDigit_of_mem_decimal (List.mem_of_getLast? h))

/-! ### Printed fields -/

variable {c : AppConfig}

theorem plainText_flag : PlainText (ascii "true") ∧ PlainText (ascii "false") := by
  have htrue : ∀ b, (ascii "true").head? = some b → isSpace b = false := by
    rintro b ⟨⟩
    rfl
  have htrue' : ∀ b, (ascii "true").getLast? = some b → isSpace b = false := by
    rintro b ⟨⟩
    rfl
  have hfalse : ∀ b, (ascii "false").head? = some b → isSpace b = false := by
    rintro b ⟨⟩
    rfl
  exact ⟨⟨by decide, by decide, htrue, htrue'⟩, ⟨by decide, by decide, hfalse, htrue'⟩⟩

theorem plainText_print (hc : c.Writable) (k : Key) : PlainText (k.print c) := by
  cases k with
  | devicePath => exact hc.devicePath
  | logFile => exact hc.logFile
  | controlSocket => exact hc.controlSocket
  | udpExportHost => exact hc.udpExportHost
  | simulateDevice =>
      simp only [Key.print]
      split_ifs
      · exact plainText_flag.1
      · exact plainText_flag.2
  | _ => exact plainText_decimal _

/-- **A printed value is converted back.** -/
theorem convert_print (hc : c.Writable) (k : Key) : k.convert (k.print c) = some (k.get c) := by
  have hstoul : ∀ n : UInt64, (stoul (decimal n.toNat)).toOption = some n := by
    intro n
    rw [stoul_decimal n.toNat_lt, UInt64.ofNat_toNat]
    rfl
  cases k with
  | tcpListenPort => exact congrArg Except.toOption (toPort_decimal hc.tcpListenPort)
  | udpExportPort => exact congrArg Except.toOption (toPort_decimal hc.udpExportPort)
  | workerThreads => exact hstoul c.workerThreads
  | logRotateBytes => exact hstoul c.logRotateBytes
  | queueCapacity => exact hstoul c.queueCapacity
  | simulateDevice =>
      simp only [Key.print, Key.convert, Key.get]
      cases c.simulateDevice <;> rfl
  | sensorIntervalMs =>
      have hlt := c.sensorIntervalMs.toNat_lt
      have hcut : (UInt64.ofNat c.sensorIntervalMs.toNat).toUInt32 = c.sensorIntervalMs := by
        rw [← UInt32.toNat_inj, UInt64.toNat_toUInt32, UInt64.toNat_ofNat', Nat.mod_mod_of_dvd]
        · exact Nat.mod_eq_of_lt hlt
        · decide
      simp only [Key.print, Key.convert, stoul_decimal (hlt.trans (by decide))]
      exact congrArg some hcut
  | _ => rfl

theorem name_plain (k : Key) : equalsSign ∉ k.name ∧ numberSign ∉ k.name ∧ newline ∉ k.name ∧
    trim k.name = k.name := by
  cases k <;> decide

/-- **The line of a field sets it.** -/
theorem classify_printLine (hc : c.Writable) (k : Key) :
    classify (printLine c k) = .setting k (k.print c) := by
  obtain ⟨hequals, hnumber, -, htrim⟩ := name_plain k
  have hprint := plainText_print hc k
  have hbody : cutComment (printLine c k) = k.name ++ equalsSign :: k.print c := by
    apply cutComment_of_notMem
    rw [printLine, List.mem_append, List.mem_cons]
    rintro (h | h | h)
    · exact hnumber h
    · cases h
    · exact hprint.comment h
  have hvalue : trim (k.print c) = k.print c := Trim.strip_eq_self hprint.head hprint.last
  rw [classify_of_equals hbody hequals, htrim, hvalue, kindOf, k.find?_name]

theorem newline_notMem_printLine (hc : c.Writable) (k : Key) : newline ∉ printLine c k := by
  rw [printLine, List.mem_append, List.mem_cons]
  rintro (h | h | h)
  · exact (name_plain k).2.2.1 h
  · cases h
  · exact (plainText_print hc k).line h

/-! ### The file -/

theorem lines_unlines {ls : List Bytes} (h : ∀ line ∈ ls, newline ∉ line) :
    lines (unlines ls) = ls := by
  induction ls with
  | nil => rfl
  | cons line rest ih =>
      rw [List.forall_mem_cons] at h
      have hfirst : unlines (line :: rest) = line ++ newline :: unlines rest := by
        simp [unlines]
      rw [hfirst, lines_append_newline h.1, ih h.2]

theorem settings_printConfig (hc : c.Writable) (ks : List Key) :
    settings (ks.map (printLine c)) = ks.map fun k => (k, k.print c) := by
  rw [settings, List.map_map, List.filterMap_map]
  have hline : ∀ k, (LineKind.setting? ∘ (classify ∘ printLine c)) k = some (k, k.print c) := by
    intro k
    rw [Function.comp_apply, Function.comp_apply, classify_printLine hc]
    rfl
  rw [funext hline]
  exact List.filterMap_eq_map.symm ▸ rfl

/-- Every key is set once. -/
theorem valuesOf_printConfig {ks : List Key} (hperm : ks.Perm Key.all) (k : Key) :
    Fields.valuesOf k (ks.map fun k => (k, k.print c)) = [k.print c] := by
  have hall : Fields.valuesOf k (Key.all.map fun k => (k, k.print c)) = [k.print c] := by
    cases k <;> rfl
  have hvalues := (hperm.map fun k => (k, k.print c)).filterMap fun a =>
    if a.1 = k then some a.2 else none
  rw [← List.perm_singleton, ← hall]
  exact hvalues

/-- **Every configuration can be written down and read back**, with its lines in any order. -/
theorem loadConfigFile_printConfig {ks : List Key} (hperm : ks.Perm Key.all) (hc : c.Writable)
    (path : Bytes) : loadConfigFile path (some (printConfig c ks)) = .ok c := by
  have hlines : lines (printConfig c ks) = ks.map (printLine c) := by
    apply lines_unlines
    intro line hline
    obtain ⟨k, -, rfl⟩ := List.mem_map.mp hline
    exact newline_notMem_printLine hc k
  have hsome : ∀ a ∈ ks.map (fun k => (k, k.print c)), (a.1.convert a.2).isSome := by
    intro a ha
    obtain ⟨k, -, rfl⟩ := List.mem_map.mp ha
    rw [convert_print hc]
    rfl
  rw [loadConfigFile_eq_ok, hlines, outcome_eq_some, settings_printConfig hc]
  refine ⟨?_, ?_, ?_, ?_⟩
  · intro hbad
    obtain ⟨line, hline, hkind⟩ := List.mem_map.mp hbad
    obtain ⟨k, -, rfl⟩ := List.mem_map.mp hline
    rw [classify_printLine hc] at hkind
    cases hkind
  · have hassigned :
        (Key.fields.assignAll Key.convert {} (ks.map fun k => (k, k.print c))).isSome :=
      Fields.assignAll_isSome.mpr hsome
    obtain ⟨d, hd⟩ := Option.isSome_iff_exists.mp hassigned
    have hfields : ∀ k, Key.fields.get k d = Key.fields.get k c := by
      intro k
      have hget := Fields.get_assignAll hd k
      rw [valuesOf_printConfig hperm] at hget
      exact Option.some.inj (hget.trans (convert_print hc k))
    rw [hd, Key.fields.ext hfields]
  · rintro hzero
    have hworkers := hc.workerThreads
    rw [hzero] at hworkers
    exact absurd hworkers (by decide)
  · rintro hzero
    have hqueue := hc.queueCapacity
    rw [hzero] at hqueue
    exact absurd hqueue (by decide)

/-- The configuration a daemon starts with, with an equals sign in one of its paths and another one
empty. -/
def someConfig : AppConfig := { logFile := ascii "logs/a=b c.log", udpExportHost := [] }

theorem loadConfigFile_printConfig_someConfig : someConfig.Writable ∧
    loadConfigFile [] (some (printConfig someConfig Key.all.reverse)) = .ok someConfig := by
  have hwritable : someConfig.Writable := by
    refine ⟨⟨by decide, by decide, ?_, ?_⟩, ⟨by decide, by decide, ?_, ?_⟩,
      ⟨by decide, by decide, ?_, ?_⟩, ⟨by decide, by decide, ?_, ?_⟩, by decide, by decide,
      by decide, by decide⟩ <;> (rintro b ⟨⟩ <;> rfl)
  exact ⟨hwritable, loadConfigFile_printConfig (List.reverse_perm _) hwritable []⟩

end SensorHub
