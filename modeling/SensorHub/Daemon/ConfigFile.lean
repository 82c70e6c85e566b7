import SensorHub.Uapi.Text
import SensorHub.Driver.Config
import Mathlib.Data.List.DropRight

set_option autoImplicit false

/-!
# The configuration file

`userspace/src/config/config.cpp`: a text of `key=value` lines becomes an `AppConfig`, or an
exception of one of three types. `std::isspace` is that of the C locale, `unsigned long` has 64 bits
and `int` has 32.

* `AppConfig`, `ConfigError`.
* `trim`, `toBool`, `stoi`, `stoul`, `toPort`: the text of a value.
* `lines`, `Key`, `setKey`, `parseLine`, `parseLines`, `loadConfigFile`.
* **`loadConfigFile_valid`**: what an accepted configuration satisfies.
-/

namespace SensorHub

open Driver (isDigit digitsValue)

/-- `struct AppConfig`, with the values it is born with. -/
structure AppConfig where
  devicePath : Bytes := ascii "/dev/sensorhub0"
  logFile : Bytes := ascii "logs/sensorhub.log"
  controlSocket : Bytes := ascii "run/sensorhub.sock"
  udpExportHost : Bytes := ascii "127.0.0.1"
  tcpListenPort : UInt16 := 9090
  udpExportPort : UInt16 := 9091
  workerThreads : UInt64 := 2
  logRotateBytes : UInt64 := 1024 * 1024
  queueCapacity : UInt64 := 1024
  simulateDevice : Bool := false
  sensorIntervalMs : UInt32 := 500
  deriving DecidableEq

/-- What `load_config_file` throws, with its `what()`. -/
inductive ConfigError
  /-- `std::runtime_error`. -/
  | runtime (what : Bytes)
  /-- `std::invalid_argument`, from the conversions. -/
  | invalidArgument (what : Bytes)
  /-- `std::out_of_range`, from the conversions. -/
  | outOfRange (what : Bytes)
  deriving DecidableEq

/-! ### The text of a value -/

/-- `std::isspace`. -/
def isSpace (c : UInt8) : Bool := (9 ≤ c && c ≤ 13) || c == 32

/-- `trim`. -/
def trim (value : Bytes) : Bytes := (value.dropWhile isSpace).rdropWhile isSpace

/-- `to_bool`. -/
def toBool (value : Bytes) : Bool :=
  value = ascii "1" || value = ascii "true" || value = ascii "yes" || value = ascii "on"

/-- The numeral that `strtol` and `strtoul` find at the beginning of a string: whether it has a
minus sign, and its digits. -/
def scanNumeral (s : Bytes) : Option (Bool × ℕ) :=
  let s := s.dropWhile isSpace
  let negative : Bool := s.head? = some 45
  let s := if s.head? = some 45 ∨ s.head? = some 43 then s.tail else s
  let ds := s.takeWhile isDigit
  if ds = [] then none else some (negative, digitsValue ds)

/-- `std::stoi`. -/
def stoi (value : Bytes) : Except ConfigError ℤ :=
  match scanNumeral value with
  | none => .error (.invalidArgument (ascii "stoi"))
  | some (negative, n) =>
      let v : ℤ := if negative then -n else n
      if v < -2 ^ 31 ∨ 2 ^ 31 ≤ v then .error (.outOfRange (ascii "stoi")) else .ok v

/-- `std::stoul`; a minus sign negates modulo `2 ^ 64`. -/
def stoul (value : Bytes) : Except ConfigError UInt64 :=
  match scanNumeral value with
  | none => .error (.invalidArgument (ascii "stoul"))
  | some (negative, n) =>
      if 2 ^ 64 ≤ n then .error (.outOfRange (ascii "stoul"))
      else .ok (if negative then -UInt64.ofNat n else UInt64.ofNat n)

/-- `to_port`. -/
def toPort (value : Bytes) : Except ConfigError UInt16 := do
  let port ← stoi value
  if port ≤ 0 ∨ 65535 < port then throw (.runtime (ascii "invalid port: " ++ value))
  return UInt16.ofNat port.toNat

/-! ### The lines of the file -/

/-- What successive calls of `std::getline` return; a last line without a line break counts, an
empty one behind the last line break does not. -/
def lines : Bytes → List Bytes
  | [] => []
  | c :: cs =>
      if c = newline then [] :: lines cs
      else
        match lines cs with
        | [] => [[c]]
        | line :: rest => (c :: line) :: rest

/-- The keys of the file, in the order they are compared. -/
inductive Key
  | devicePath
  | logFile
  | controlSocket
  | udpExportHost
  | tcpListenPort
  | udpExportPort
  | workerThreads
  | logRotateBytes
  | queueCapacity
  | simulateDevice
  | sensorIntervalMs
  deriving DecidableEq

namespace Key

def all : List Key :=
  [devicePath, logFile, controlSocket, udpExportHost, tcpListenPort, udpExportPort, workerThreads,
    logRotateBytes, queueCapacity, simulateDevice, sensorIntervalMs]

def name : Key → Bytes
  | devicePath => ascii "device_path"
  | logFile => ascii "log_file"
  | controlSocket => ascii "control_socket"
  | udpExportHost => ascii "udp_export_host"
  | tcpListenPort => ascii "tcp_listen_port"
  | udpExportPort => ascii "udp_export_port"
  | workerThreads => ascii "worker_threads"
  | logRotateBytes => ascii "log_rotate_bytes"
  | queueCapacity => ascii "queue_capacity"
  | simulateDevice => ascii "simulate_device"
  | sensorIntervalMs => ascii "sensor_interval_ms"

/-- The assignment behind the comparison. -/
def assign (config : AppConfig) (value : Bytes) : Key → Except ConfigError AppConfig
  | devicePath => .ok { config with devicePath := value }
  | logFile => .ok { config with logFile := value }
  | controlSocket => .ok { config with controlSocket := value }
  | udpExportHost => .ok { config with udpExportHost := value }
  | tcpListenPort => (toPort value).map fun port => { config with tcpListenPort := port }
  | udpExportPort => (toPort value).map fun port => { config with udpExportPort := port }
  | workerThreads => (stoul value).map fun n => { config with workerThreads := n }
  | logRotateBytes => (stoul value).map fun n => { config with logRotateBytes := n }
  | queueCapacity => (stoul value).map fun n => { config with queueCapacity := n }
  | simulateDevice => .ok { config with simulateDevice := toBool value }
  | sensorIntervalMs => (stoul value).map fun n => { config with sensorIntervalMs := n.toUInt32 }

end Key

/-- The chain of comparisons; an unknown key is ignored. -/
def setKey (config : AppConfig) (key value : Bytes) : Except ConfigError AppConfig :=
  match Key.all.find? fun k => k.name = key with
  | some k => k.assign config value
  | none => .ok config

/-- `'#'`. -/
def numberSign : UInt8 := 35

/-- `'='`. -/
def equalsSign : UInt8 := 61

/-- A line up to its comment. -/
def cutComment (line : Bytes) : Bytes :=
  match find numberSign line with
  | some comment => line.take comment
  | none => line

/-- The body of the loop; `lineNo` has been counted up. -/
def parseLine (config : AppConfig) (lineNo : ℕ) (line : Bytes) : Except ConfigError AppConfig :=
  let line := trim (cutComment line)
  if line = [] then .ok config
  else
    match find equalsSign line with
    | none => .error (.runtime (ascii "invalid config line " ++ decimal lineNo))
    | some pos => setKey config (trim (line.take pos)) (trim (line.drop (pos + 1)))

/-- The loop; `lineNo` lines have been read. -/
def parseLines (config : AppConfig) (lineNo : ℕ) : List Bytes → Except ConfigError AppConfig
  | [] => .ok config
  | line :: rest =>
      match parseLine config (lineNo + 1) line with
      | .error e => .error e
      | .ok config => parseLines config (lineNo + 1) rest

/-- `load_config_file`; `file` is what the file `path` holds, `none` if it cannot be opened. -/
def loadConfigFile (path : Bytes) (file : Option Bytes) : Except ConfigError AppConfig :=
  match file with
  | none => .error (.runtime (ascii "cannot open config file: " ++ path))
  | some text =>
      match parseLines {} 0 (lines text) with
      | .error e => .error e
      | .ok config =>
          if config.workerThreads = 0 then
            .error (.runtime (ascii "worker_threads must be greater than 0"))
          else if config.queueCapacity = 0 then
            .error (.runtime (ascii "queue_capacity must be greater than 0"))
          else .ok config

/-! ### Accepted configurations -/

/-- What the code behind `load_config_file` relies on. -/
structure AppConfig.Valid (config : AppConfig) : Prop where
  tcpListenPort : config.tcpListenPort ≠ 0
  udpExportPort : config.udpExportPort ≠ 0
  workerThreads : config.workerThreads ≠ 0
  queueCapacity : config.queueCapacity ≠ 0

theorem exists_of_map_eq_ok {ε α β : Type*} {f : α → β} {x : Except ε α} {b : β}
    (h : x.map f = .ok b) : ∃ a, x = .ok a ∧ f a = b := by
  cases x with
  | error e => cases h
  | ok a => exact ⟨a, rfl, Except.ok.inj h⟩

theorem toPort_ne_zero {value : Bytes} {port : UInt16} (h : toPort value = .ok port) :
    port ≠ 0 := by
  unfold toPort at h
  cases hv : stoi value with
  | error e => rw [hv] at h; cases h
  | ok v =>
      rw [hv] at h
      by_cases hbad : v ≤ 0 ∨ 65535 < v
      · simp only [bind, Except.bind, hbad, if_true] at h
        cases h
      · simp only [bind, Except.bind, hbad, if_false] at h
        cases h
        intro hzero
        have hnat := congrArg UInt16.toNat hzero
        rw [UInt16.toNat_ofNat_of_lt' (by show v.toNat < 65536; omega)] at hnat
        rw [UInt16.toNat_zero] at hnat
        omega

/-- Both ports are set. -/
def AppConfig.Ports (config : AppConfig) : Prop :=
  config.tcpListenPort ≠ 0 ∧ config.udpExportPort ≠ 0

theorem ports_assign {config config' : AppConfig} {value : Bytes} {k : Key} (hc : config.Ports)
    (h : k.assign config value = .ok config') : config'.Ports := by
  -- where the other numbers come from does not matter, only which field they go to
  have hnumber : ∀ {f : UInt64 → AppConfig}, (stoul value).map f = .ok config' →
      (∀ n, (f n).Ports) → config'.Ports := by
    intro f hmap hf
    obtain ⟨n, -, rfl⟩ := exists_of_map_eq_ok hmap
    exact hf n
  cases k with
  | devicePath => cases h; exact hc
  | logFile => cases h; exact hc
  | controlSocket => cases h; exact hc
  | udpExportHost => cases h; exact hc
  | tcpListenPort =>
      obtain ⟨port, hport, rfl⟩ := exists_of_map_eq_ok h
      exact ⟨toPort_ne_zero hport, hc.2⟩
  | udpExportPort =>
      obtain ⟨port, hport, rfl⟩ := exists_of_map_eq_ok h
      exact ⟨hc.1, toPort_ne_zero hport⟩
  | workerThreads => exact hnumber h fun _ => hc
  | logRotateBytes => exact hnumber h fun _ => hc
  | queueCapacity => exact hnumber h fun _ => hc
  | simulateDevice => cases h; exact hc
  | sensorIntervalMs => exact hnumber h fun _ => hc

theorem ports_parseLine {config config' : AppConfig} {lineNo : ℕ} {line : Bytes}
    (hc : config.Ports) (h : parseLine config lineNo line = .ok config') : config'.Ports := by
  unfold parseLine at h
  simp only at h
  split_ifs at h
  · cases h
    exact hc
  · split at h
    · cases h
    · unfold setKey at h
      split at h
      · exact ports_assign hc h
      · cases h
        exact hc

theorem ports_parseLines {config config' : AppConfig} {lineNo : ℕ} {text : List Bytes}
    (hc : config.Ports) (h : parseLines config lineNo text = .ok config') : config'.Ports := by
  induction text generalizing config lineNo with
  | nil => cases h; exact hc
  | cons line rest ih =>
      rw [parseLines] at h
      split at h
      · cases h
      · rename_i hline
        exact ih (ports_parseLine hc hline) h

/-- **An accepted configuration is valid.** -/
theorem loadConfigFile_valid {path : Bytes} {file : Option Bytes} {config : AppConfig}
    (h : loadConfigFile path file = .ok config) : config.Valid := by
  unfold loadConfigFile at h
  split at h
  · cases h
  · split at h
    · cases h
    · rename_i hlines
      split_ifs at h with hworkers hqueue
      cases h
      have hborn : AppConfig.Ports {} := ⟨by decide, by decide⟩
      have hports := ports_parseLines hborn hlines
      exact ⟨hports.1, hports.2, hworkers, hqueue⟩

end SensorHub
