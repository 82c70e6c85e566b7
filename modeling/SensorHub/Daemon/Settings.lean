import SensorHub.Daemon.ConfigFile
import SensorHub.Codec.Fields
import SensorHub.Codec.Trim

set_option autoImplicit false

/-!
# The settings of a configuration file

What `load_config_file` makes of a text depends on its lines, and of each line only on what kind of
line it is: one that says nothing, one without an equals sign, or an assignment to a field. The
fields are independent of each other, so the order of the lines does not matter beyond the last one
of each key.

* `Key.Field`, `Key.convert`, `Key.fields`: `AppConfig` by its fields; `assign_toOption`.
* `LineKind`, `classify`, `keyOf`: the kind of a line, and its key.
* `settings`, `outcome`, **`loadConfigFile_toOption`**: a text by the kinds of its lines.
* **`outcome_congr`**: what counts in a text.
-/

namespace SensorHub

namespace Key

/-- The type of the field. -/
def Field : Key → Type
  | devicePath | logFile | controlSocket | udpExportHost => Bytes
  | tcpListenPort | udpExportPort => UInt16
  | workerThreads | logRotateBytes | queueCapacity => UInt64
  | simulateDevice => Bool
  | sensorIntervalMs => UInt32

def get : (k : Key) → AppConfig → k.Field
  | devicePath, c => c.devicePath
  | logFile, c => c.logFile
  | controlSocket, c => c.controlSocket
  | udpExportHost, c => c.udpExportHost
  | tcpListenPort, c => c.tcpListenPort
  | udpExportPort, c => c.udpExportPort
  | workerThreads, c => c.workerThreads
  | logRotateBytes, c => c.logRotateBytes
  | queueCapacity, c => c.queueCapacity
  | simulateDevice, c => c.simulateDevice
  | sensorIntervalMs, c => c.sensorIntervalMs

def put : (k : Key) → k.Field → AppConfig → AppConfig
  | devicePath, x, c => { c with devicePath := x }
  | logFile, x, c => { c with logFile := x }
  | controlSocket, x, c => { c with controlSocket := x }
  | udpExportHost, x, c => { c with udpExportHost := x }
  | tcpListenPort, x, c => { c with tcpListenPort := x }
  | udpExportPort, x, c => { c with udpExportPort := x }
  | workerThreads, x, c => { c with workerThreads := x }
  | logRotateBytes, x, c => { c with logRotateBytes := x }
  | queueCapacity, x, c => { c with queueCapacity := x }
  | simulateDevice, x, c => { c with simulateDevice := x }
  | sensorIntervalMs, x, c => { c with sensorIntervalMs := x }

/-- The conversion of a value, without the text of its exception. -/
def convert : (k : Key) → Bytes → Option k.Field
  | devicePath, value => some value
  | logFile, value => some value
  | controlSocket, value => some value
  | udpExportHost, value => some value
  | tcpListenPort, value => (toPort value).toOption
  | udpExportPort, value => (toPort value).toOption
  | workerThreads, value => (stoul value).toOption
  | logRotateBytes, value => (stoul value).toOption
  | queueCapacity, value => (stoul value).toOption
  | simulateDevice, value => some (toBool value)
  | sensorIntervalMs, value => (stoul value).toOption.map UInt64.toUInt32

/-- `AppConfig` is a record with a field for each key. -/
def fields : Fields Key AppConfig where
  Field := Field
  get := get
  put := put
  get_put k x c := by cases k <;> rfl
  get_put_of_ne {k k'} h x c := by cases k <;> cases k' <;> first | rfl | exact absurd rfl h
  ext {c c'} h := by
    cases c
    cases c'
    simp only [AppConfig.mk.injEq]
    exact ⟨h .devicePath, h .logFile, h .controlSocket, h .udpExportHost, h .tcpListenPort,
      h .udpExportPort, h .workerThreads, h .logRotateBytes, h .queueCapacity, h .simulateDevice,
      h .sensorIntervalMs⟩

theorem toOption_map {ε α β : Type*} (x : Except ε α) (f : α → β) :
    (x.map f).toOption = x.toOption.map f := by
  cases x <;> rfl

theorem assign_toOption (k : Key) (config : AppConfig) (value : Bytes) :
    (k.assign config value).toOption = (k.convert value).map fun x => k.put x config := by
  cases k with
  | tcpListenPort | udpExportPort | workerThreads | logRotateBytes | queueCapacity =>
      exact toOption_map _ _
  | sensorIntervalMs => exact (toOption_map _ _).trans (Option.map_map _ _ _).symm
  | _ => rfl

theorem mem_all (k : Key) : k ∈ all := by cases k <;> decide

theorem name_injective {k k' : Key} (h : k.name = k'.name) : k = k' := by
  have hall : ∀ k ∈ all, ∀ k' ∈ all, k.name = k'.name → k = k' := by decide
  exact hall k k.mem_all k' k'.mem_all h

/-- The key of a name. -/
theorem find?_name (k : Key) : (all.find? fun k' => k'.name = k.name) = some k := by
  cases h : all.find? fun k' => k'.name = k.name with
  | none =>
      have hnone := List.find?_eq_none.mp h k k.mem_all
      exact absurd (decide_eq_true rfl) hnone
  | some k' =>
      have hname := List.find?_some h
      rw [name_injective (of_decide_eq_true hname)]

end Key

/-! ### The lines -/

/-- The kind of a line. -/
inductive LineKind
  | blank
  /-- Without an equals sign. -/
  | malformed
  /-- With a key that is none of those compared with. -/
  | unknown
  | setting (k : Key) (value : Bytes)
  deriving DecidableEq

/-- The assignment, if it is one. -/
def LineKind.setting? : LineKind → Option (Key × Bytes)
  | .setting k value => some (k, value)
  | _ => none

/-- The key and the value of a line without comment and without white space at its ends. -/
def keyValue (line : Bytes) : Option (Bytes × Bytes) :=
  (find equalsSign line).map fun pos => (trim (line.take pos), trim (line.drop (pos + 1)))

/-- The kind of a line with an equals sign. -/
def kindOf (key value : Bytes) : LineKind :=
  match Key.all.find? fun k => k.name = key with
  | some k => .setting k value
  | none => .unknown

/-- The kind of a line. -/
def classify (line : Bytes) : LineKind :=
  if trim (cutComment line) = [] then .blank
  else
    match keyValue (trim (cutComment line)) with
    | none => .malformed
    | some (key, value) => kindOf key value

/-- The text of the key of a line, if it has one. -/
def keyOf (line : Bytes) : Option Bytes := (keyValue (trim (cutComment line))).map Prod.fst

/-! ### Lines taken apart -/

theorem isSpace_equalsSign : isSpace equalsSign = false := rfl

theorem cutComment_eq_takeWhile (line : Bytes) :
    cutComment line = line.takeWhile (· != numberSign) := by
  have hfree : ∀ {s : Bytes}, numberSign ∉ s → ∀ b ∈ s, (b != numberSign) = true := by
    intro s hs b hb
    rw [bne_iff_ne]
    rintro rfl
    exact hs hb
  unfold cutComment
  cases h : find numberSign line with
  | none => exact (List.takeWhile_eq_self_iff.mpr (hfree (find_eq_none h))).symm
  | some pos =>
      obtain ⟨hsplit, hnot, -⟩ := find_eq_some h
      conv_rhs => rw [hsplit, List.takeWhile_append_of_pos (hfree hnot)]
      simp

theorem cutComment_append {s : Bytes} (h : numberSign ∉ s) (rest : Bytes) :
    cutComment (s ++ rest) = s ++ cutComment rest := by
  rw [cutComment_eq_takeWhile, cutComment_eq_takeWhile, List.takeWhile_append_of_pos]
  intro b hb
  rw [bne_iff_ne]
  rintro rfl
  exact h hb

theorem cutComment_comment (rest : Bytes) : cutComment (numberSign :: rest) = [] := by
  rw [cutComment_eq_takeWhile, List.takeWhile_cons_of_neg (by simp)]

theorem cutComment_of_notMem {s : Bytes} (h : numberSign ∉ s) : cutComment s = s := by
  have hnil := cutComment_append h []
  rwa [List.append_nil, show cutComment [] = [] from rfl, List.append_nil] at hnil

/-- **A line at its first equals sign.** -/
theorem keyValue_trim {a : Bytes} (h : equalsSign ∉ a) (b : Bytes) :
    keyValue (trim (a ++ equalsSign :: b)) = some (trim a, trim b) := by
  have hstrip : trim (a ++ equalsSign :: b) =
      a.dropWhile isSpace ++ equalsSign :: b.rdropWhile isSpace :=
    Trim.strip_append_cons isSpace_equalsSign a b
  have hnot : equalsSign ∉ a.dropWhile isSpace := fun hmem => h (List.dropWhile_subset _ hmem)
  rw [keyValue, hstrip, find_append_cons hnot, Option.map_some, List.take_left,
    List.drop_append, List.drop_of_length_le (Nat.le_succ _), Nat.succ_sub (le_refl _)]
  simp only [Nat.sub_self, List.nil_append, List.drop_succ_cons, List.drop_zero]
  exact congrArg some (Prod.ext (Trim.strip_dropWhile a) (Trim.strip_rdropWhile b))

/-- **A line with an equals sign.** -/
theorem classify_of_equals {line a b : Bytes} (hbody : cutComment line = a ++ equalsSign :: b)
    (h : equalsSign ∉ a) : classify line = kindOf (trim a) (trim b) := by
  have hne : trim (cutComment line) ≠ [] := by
    intro hnil
    have hspace := Trim.strip_eq_nil.mp hnil equalsSign (by rw [hbody]; simp)
    cases hspace
  rw [classify, if_neg hne, hbody, keyValue_trim h]

/-- **The first line of a text.** -/
theorem lines_append_newline {line : Bytes} (h : newline ∉ line) (rest : Bytes) :
    lines (line ++ newline :: rest) = line :: lines rest := by
  induction line with
  | nil => exact if_pos rfl
  | cons c line ih =>
      rw [List.mem_cons, not_or] at h
      rw [List.cons_append, lines, if_neg fun hc => h.1 hc.symm, ih h.2]

/-! ### The loop -/

/-- The body of the loop, on the kind of the line. -/
def applyKind (config : AppConfig) : LineKind → Option AppConfig
  | .blank => some config
  | .malformed => none
  | .unknown => some config
  | .setting k value => (k.convert value).map fun x => k.put x config

theorem parseLine_toOption (config : AppConfig) (lineNo : ℕ) (line : Bytes) :
    (parseLine config lineNo line).toOption = applyKind config (classify line) := by
  unfold parseLine classify keyValue
  simp only
  split_ifs
  · rfl
  · cases find equalsSign (trim (cutComment line)) with
    | none => rfl
    | some pos =>
        simp only [Option.map_some, setKey, kindOf]
        cases Key.all.find? fun k => k.name = trim ((trim (cutComment line)).take pos) with
        | none => rfl
        | some k => exact k.assign_toOption _ _

/-- The loop, on the kinds of the lines. -/
def applyAll (config : AppConfig) : List LineKind → Option AppConfig
  | [] => some config
  | e :: es => (applyKind config e).bind fun config => applyAll config es

theorem parseLines_toOption (config : AppConfig) (lineNo : ℕ) (ls : List Bytes) :
    (parseLines config lineNo ls).toOption = applyAll config (ls.map classify) := by
  induction ls generalizing config lineNo with
  | nil => rfl
  | cons line rest ih =>
      rw [parseLines, List.map_cons, applyAll, ← parseLine_toOption config (lineNo + 1)]
      cases parseLine config (lineNo + 1) line with
      | error e => rfl
      | ok config => exact ih config (lineNo + 1)

/-- **The loop fails at a malformed line, or assigns the settings.** -/
theorem applyAll_eq (config : AppConfig) (es : List LineKind) : applyAll config es =
    if .malformed ∈ es then none
    else Key.fields.assignAll Key.convert config (es.filterMap LineKind.setting?) := by
  induction es generalizing config with
  | nil => rfl
  | cons e es ih =>
      rw [applyAll]
      cases e with
      | blank =>
          rw [List.filterMap_cons_none rfl]
          simpa [applyKind] using ih config
      | malformed => simp [applyKind]
      | unknown =>
          rw [List.filterMap_cons_none rfl]
          simpa [applyKind] using ih config
      | setting k value =>
          simp only [applyKind, List.mem_cons, reduceCtorEq, false_or, List.filterMap_cons,
            LineKind.setting?, Fields.assignAll]
          cases k.convert value with
          | none => exact (ite_self none).symm
          | some x => exact ih (k.put x config)

/-- The assignments of the lines. -/
def settings (ls : List Bytes) : List (Key × Bytes) := (ls.map classify).filterMap LineKind.setting?

/-- What becomes of the lines; `none` is an exception. -/
def outcome (ls : List Bytes) : Option AppConfig :=
  if .malformed ∈ ls.map classify then none
  else (Key.fields.assignAll Key.convert {} (settings ls)).filter fun config =>
    config.workerThreads ≠ 0 ∧ config.queueCapacity ≠ 0

/-- **A text by the kinds of its lines.** -/
theorem loadConfigFile_toOption (path text : Bytes) :
    (loadConfigFile path (some text)).toOption = outcome (lines text) := by
  have hlines := parseLines_toOption {} 0 (lines text)
  rw [applyAll_eq] at hlines
  unfold loadConfigFile outcome
  simp only
  cases hparse : parseLines {} 0 (lines text) with
  | error e =>
      rw [hparse] at hlines
      split_ifs at hlines ⊢ with hbad
      · rfl
      · rw [settings, ← hlines]
        rfl
  | ok config =>
      rw [hparse] at hlines
      split_ifs at hlines with hbad
      · cases hlines
      rw [if_neg hbad, settings, ← hlines]
      by_cases hworkers : config.workerThreads = 0
      · simp [hworkers, Except.toOption, Option.filter_some]
      · by_cases hqueue : config.queueCapacity = 0
        · simp [hworkers, hqueue, Except.toOption, Option.filter_some]
        · simp [hworkers, hqueue, Except.toOption, Option.filter_some]

theorem loadConfigFile_eq_ok {path text : Bytes} {config : AppConfig} :
    loadConfigFile path (some text) = .ok config ↔ outcome (lines text) = some config := by
  rw [← loadConfigFile_toOption path]
  cases loadConfigFile path (some text) <;> simp [Except.toOption]

theorem outcome_eq_some {ls : List Bytes} {config : AppConfig} : outcome ls = some config ↔
    .malformed ∉ ls.map classify ∧
    Key.fields.assignAll Key.convert {} (settings ls) = some config ∧
    config.workerThreads ≠ 0 ∧ config.queueCapacity ≠ 0 := by
  unfold outcome
  split_ifs with hbad
  · simp [hbad]
  · rw [Option.filter_eq_some_iff, decide_eq_true_eq]
    simp only [hbad, not_false_eq_true, true_and]

/-- The value of an assignment has no white space at its ends. -/
theorem mem_settings {ls : List Bytes} {k : Key} {value : Bytes} (h : (k, value) ∈ settings ls) :
    ∃ u, value = trim u := by
  obtain ⟨kind, hkind, hsetting⟩ := List.mem_filterMap.mp h
  obtain ⟨line, -, rfl⟩ := List.mem_map.mp hkind
  unfold classify keyValue kindOf at hsetting
  split_ifs at hsetting
  · cases hsetting
  · cases hfind : find equalsSign (trim (cutComment line)) with
    | none =>
        rw [hfind] at hsetting
        cases hsetting
    | some pos =>
        simp only [hfind, Option.map_some] at hsetting
        split at hsetting
        · cases hsetting
          exact ⟨_, rfl⟩
        · cases hsetting

/-- **What counts in a text**: whether a line is malformed, whether a conversion fails, and the last
value of each key. -/
theorem outcome_congr {ls ms : List Bytes}
    (hbad : .malformed ∈ ls.map classify ↔ .malformed ∈ ms.map classify)
    (hfail : (∀ a ∈ settings ls, (a.1.convert a.2).isSome) ↔
      ∀ a ∈ settings ms, (a.1.convert a.2).isSome)
    (hlast : ∀ k, (Fields.valuesOf k (settings ls)).getLast? =
      (Fields.valuesOf k (settings ms)).getLast?) : outcome ls = outcome ms := by
  have hassign : Key.fields.assignAll Key.convert {} (settings ls) =
      Key.fields.assignAll Key.convert {} (settings ms) := Fields.assignAll_congr hfail hlast
  simp only [outcome, hbad, hassign]

end SensorHub
