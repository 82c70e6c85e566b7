import SensorHub.Net.Reactor
import Mathlib.Data.List.DropRight

set_option autoImplicit false

/-!
# The commands of the daemon

`handle_control_command` and `build_stats_text` of `userspace/src/main.cpp`: the handler `main`
gives to its control server. What it finds in the rest of the daemon is a parameter.

* `RuntimeStats`, `DriverStats`, `buildStatsText`; `reported`, **`reported_buildStatsText`**: the
  text has a line for each number, and the number can be read off it.
* `Daemon`, `stripBlanks`, `reload`, `handleControlCommand`.
* **`handleControlCommand_running`**: only `shutdown` stops the daemon.
-/

namespace SensorHub

open LineFrame

/-- What `build_stats_text` reads of the daemon. -/
structure RuntimeStats where
  received : UInt64
  processed : UInt64
  exported : UInt64
  tcpClients : ℕ
  queueSize : ℕ
  queueDropped : UInt64

/-- What it reads of `struct sensorhub_stats`. -/
structure DriverStats where
  generated : UInt64
  injected : UInt64
  dropped : UInt64
  fifoBytes : UInt32

/-- One line of the text. -/
def statsLine (key : String) (value : Bytes) : Bytes := ascii key ++ ascii "=" ++ value ++ [newline]

/-- `build_stats_text`; in driver mode `device` is the answer of the driver, or the text of the
exception. -/
def buildStatsText (stats : RuntimeStats) (simulate : Bool) (device : Except Bytes DriverStats) :
    Bytes :=
  statsLine "mode" (ascii (if simulate then "simulate" else "driver")) ++
  statsLine "received" (decimal stats.received.toNat) ++
  statsLine "processed" (decimal stats.processed.toNat) ++
  statsLine "exported" (decimal stats.exported.toNat) ++
  statsLine "tcp_clients" (decimal stats.tcpClients) ++
  statsLine "queue_size" (decimal stats.queueSize) ++
  statsLine "queue_dropped" (decimal stats.queueDropped.toNat) ++
  if simulate then []
  else
    match device with
    | .ok stats =>
        statsLine "driver_generated" (decimal stats.generated.toNat) ++
        statsLine "driver_injected" (decimal stats.injected.toNat) ++
        statsLine "driver_dropped" (decimal stats.dropped.toNat) ++
        statsLine "driver_fifo_bytes" (decimal stats.fifoBytes.toNat)
    | .error what => statsLine "driver_error" what

/-! ### The numbers of the text -/

/-- The number on a line `key=number`. -/
def numberOn (key : String) (line : Bytes) : Option ℕ :=
  let value := line.drop (ascii key ++ ascii "=").length
  if ascii key ++ ascii "=" <+: line ∧ value = decimal (decimalValue value) then
    some (decimalValue value)
  else none

/-- The number that a text of such lines reports: that of the first line for `key`. -/
def reported (key : String) (text : Bytes) : Option ℕ :=
  (complete newline text).findSome? (numberOn key)

theorem reported_statsLine {key key' : String} {value : Bytes} (hkey : newline ∉ ascii key')
    (hvalue : newline ∉ value) (rest : Bytes) :
    reported key (statsLine key' value ++ rest) =
      (numberOn key (ascii key' ++ ascii "=" ++ value)).or (reported key rest) := by
  have hline : newline ∉ ascii key' ++ ascii "=" ++ value := by
    have heq : newline ∉ ascii "=" := by decide
    simp only [List.mem_append, not_or]
    exact ⟨⟨hkey, heq⟩, hvalue⟩
  have hsplit : statsLine key' value ++ rest =
      (ascii key' ++ ascii "=" ++ value) ++ newline :: rest := by
    rw [statsLine, List.append_assoc, List.singleton_append]
  rw [hsplit, reported, complete_append_cons hline, List.findSome?_cons, reported]
  cases numberOn key (ascii key' ++ ascii "=" ++ value) <;> rfl

/-- The line of the key. -/
theorem reported_self {key : String} (hkey : newline ∉ ascii key) (n : ℕ) (rest : Bytes) :
    reported key (statsLine key (decimal n) ++ rest) = some n := by
  have hnumber : numberOn key (ascii key ++ ascii "=" ++ decimal n) = some n := by
    simp only [numberOn, List.drop_left, decimalValue_decimal]
    rw [if_pos ⟨List.prefix_append _ _, trivial⟩]
  rw [reported_statsLine hkey (newline_notMem_decimal n), hnumber, Option.some_or]

/-- The line of another key. -/
theorem reported_of_ne {key key' : String} {value : Bytes} (hkey : newline ∉ ascii key')
    (hne : ¬ ascii key ++ ascii "=" <+: ascii key' ++ ascii "=")
    (hne' : ¬ ascii key' ++ ascii "=" <+: ascii key ++ ascii "=") (hvalue : newline ∉ value)
    (rest : Bytes) : reported key (statsLine key' value ++ rest) = reported key rest := by
  have hnone : numberOn key (ascii key' ++ ascii "=" ++ value) = none := by
    unfold numberOn
    refine if_neg ?_
    rintro ⟨hbegin, -⟩
    rcases List.prefix_or_prefix_of_prefix hbegin (List.prefix_append _ value) with h | h
    · exact hne h
    · exact hne' h
  rw [reported_statsLine hkey hvalue, hnone, Option.none_or]

/-- **The text reports its numbers.** -/
theorem reported_buildStatsText (stats : RuntimeStats) (simulate : Bool)
    (device : Except Bytes DriverStats) :
    reported "received" (buildStatsText stats simulate device) = some stats.received.toNat ∧
    reported "processed" (buildStatsText stats simulate device) = some stats.processed.toNat ∧
    reported "exported" (buildStatsText stats simulate device) = some stats.exported.toNat ∧
    reported "tcp_clients" (buildStatsText stats simulate device) = some stats.tcpClients ∧
    reported "queue_size" (buildStatsText stats simulate device) = some stats.queueSize ∧
    reported "queue_dropped" (buildStatsText stats simulate device) =
      some stats.queueDropped.toNat := by
  have hmode : newline ∉ ascii (if simulate then "simulate" else "driver") := by
    cases simulate <;> decide
  have hnumber : ∀ n, newline ∉ decimal n := newline_notMem_decimal
  simp only [buildStatsText, List.append_assoc]
  refine ⟨?_, ?_, ?_, ?_, ?_, ?_⟩
  all_goals
    rw [reported_of_ne (by decide) (by decide) (by decide) hmode]
    repeat rw [reported_of_ne (by decide) (by decide) (by decide) (hnumber _)]
    rw [reported_self (by decide)]

/-! ### The commands -/

/-- What the handler finds in the daemon: its mode, the statistics, `SensorDevice::get_stats`,
`load_config_file` (the `sensor_interval_ms` it returns; `none` if it throws) and
`SensorDevice::set_config` (whether it returns). -/
structure Daemon (W : Type*) where
  simulate : Bool
  stats : W → RuntimeStats
  deviceStats : W → Except Bytes DriverStats
  loadConfigFile : W → Option UInt32
  setConfig : W → Config → W × Bool

/-- The characters taken off the end of a command. -/
def isBlank (c : UInt8) : Bool := c == 10 || c == 13 || c == 32

/-- The loop at the beginning of `handle_control_command`. -/
def stripBlanks (cmd : Bytes) : Bytes := cmd.rdropWhile isBlank

variable {W : Type*}

/-- The command `reload`. -/
def reload (daemon : Daemon W) (host : Host W) : Host W × Reply :=
  match daemon.loadConfigFile host.world with
  | none => (host, .exception)
  | some interval =>
      if daemon.simulate then (host, .text (ascii "ok\n"))
      else
        match daemon.setConfig host.world ⟨interval, 1⟩ with
        | (world, true) => ({ host with world := world }, .text (ascii "ok\n"))
        | (world, false) => ({ host with world := world }, .exception)

/-- `handle_control_command`. -/
def handleControlCommand (daemon : Daemon W) : Handler (Host W) := fun host line =>
  let host := { host with log := host.log ++ [line] }
  let cmd := stripBlanks line
  if cmd = ascii "stats" then
    (host, .text (buildStatsText (daemon.stats host.world) daemon.simulate
      (daemon.deviceStats host.world)))
  else if cmd = ascii "reload" then reload daemon host
  else if cmd = ascii "shutdown" then ({ host with running := false }, .text (ascii "ok\n"))
  else (host, .text (ascii "unknown command\n"))

theorem reload_spec (daemon : Daemon W) (host : Host W) :
    (reload daemon host).2 ≠ .foreign ∧ (reload daemon host).1.log = host.log ∧
    (reload daemon host).1.running = host.running := by
  unfold reload
  split
  · exact ⟨nofun, rfl, rfl⟩
  · split
    · exact ⟨nofun, rfl, rfl⟩
    · split <;> exact ⟨nofun, rfl, rfl⟩

/-- The handler throws nothing but `std::exception`, and records its argument. -/
theorem handleControlCommand_spec (daemon : Daemon W) (host : Host W) (line : Bytes) :
    (handleControlCommand daemon host line).2 ≠ .foreign ∧
    (handleControlCommand daemon host line).1.log = host.log ++ [line] := by
  unfold handleControlCommand
  simp only
  split_ifs
  · exact ⟨nofun, rfl⟩
  · exact ⟨(reload_spec daemon _).1, (reload_spec daemon _).2.1⟩
  · exact ⟨nofun, rfl⟩
  · exact ⟨nofun, rfl⟩

theorem handleControlCommand_reload (daemon : Daemon W) (host : Host W) {line : Bytes}
    (h : stripBlanks line = ascii "reload") :
    handleControlCommand daemon host line =
      reload daemon { host with log := host.log ++ [line] } := by
  have hne : ascii "reload" ≠ ascii "stats" := by decide
  simp only [handleControlCommand, h, if_neg hne, if_true]

/-- Only `reload` changes the rest of the daemon. -/
theorem handleControlCommand_world (daemon : Daemon W) (host : Host W) {line : Bytes}
    (h : stripBlanks line ≠ ascii "reload") :
    (handleControlCommand daemon host line).1.world = host.world := by
  unfold handleControlCommand
  simp only [if_neg h]
  split_ifs <;> rfl

/-- **Only `shutdown` stops the daemon.** -/
theorem handleControlCommand_running (daemon : Daemon W) (host : Host W) {line : Bytes}
    (h : stripBlanks line ≠ ascii "shutdown") :
    (handleControlCommand daemon host line).1.running = host.running := by
  unfold handleControlCommand
  simp only [if_neg h]
  split_ifs
  · rfl
  · exact (reload_spec daemon _).2.2
  · rfl

end SensorHub
