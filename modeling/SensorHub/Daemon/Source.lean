import SensorHub.Daemon.ConfigFile
import SensorHub.Driver.Life
import SensorHub.Net.Isolation
import SensorHub.Net.Survival

set_option autoImplicit false

/-!
# The sample source and the configuration

Where `sensor_interval_ms` goes. `main` gives it to the timer of the simulated device when it starts
that device; `reload` gives it to the driver. In driver mode nothing is done with it at startup, and
in simulate mode nothing at a `reload`. Here the event loop runs with the handler of `main` over the
configuration file, which anybody may rewrite, and over the driver, which anybody may use in every
way that does not configure it.

* `Timerfd`, `simulatedStart`: `SimulatedSensorDevice::start`.
* `World`, `daemon`, `Source`, `startup`, `sourceStep`.
* `callsNow`, **`world_of_loopStep`**: a step of the loop calls the handler once or not at all.
* `Follows`, `KeepsInterval`, `follows_step`, **`source_follows_iff`**.
* `hundred`, **`interval_forgotten`**: a daemon in driver mode that starts with another interval.
-/

namespace SensorHub

open Trans Driver

/-! ### The simulated device -/

/-- `struct timespec`. -/
structure Timespec where
  sec : UInt64
  nsec : UInt64
  deriving DecidableEq

/-- A timer descriptor: whether it runs, and the interval it repeats with. -/
structure Timerfd where
  armed : Bool
  interval : Timespec
  deriving DecidableEq

/-- The interval in nanoseconds. -/
def Timerfd.periodNs (t : Timerfd) : ℕ := t.interval.sec.toNat * 10 ^ 9 + t.interval.nsec.toNat

/-- `timerfd_settime(fd, 0, {interval, value}, nullptr)`; an expiration of zero stops the timer. -/
def timerfdSettime (interval value : Timespec) : Except Errno Timerfd :=
  if 1000000000 ≤ interval.nsec ∨ 1000000000 ≤ value.nsec then .error .EINVAL
  else .ok ⟨value ≠ ⟨0, 0⟩, interval⟩

/-- `spec.it_value` and `spec.it_interval` of `SimulatedSensorDevice::start`. -/
def simulatedSpec (intervalMs : UInt32) : Timespec :=
  ⟨(intervalMs / 1000).toUInt64, (intervalMs % 1000 * 1000 * 1000).toUInt64⟩

/-- `SimulatedSensorDevice::start`. -/
def simulatedStart (intervalMs : UInt32) : Except Errno Timerfd :=
  timerfdSettime (simulatedSpec intervalMs) (simulatedSpec intervalMs)

/-- The products do not overflow. -/
theorem simulatedSpec_toNat (intervalMs : UInt32) :
    (simulatedSpec intervalMs).sec.toNat = intervalMs.toNat / 1000 ∧
    (simulatedSpec intervalMs).nsec.toNat = intervalMs.toNat % 1000 * 10 ^ 6 := by
  constructor
  · exact UInt32.toNat_div intervalMs 1000
  · simp only [simulatedSpec, UInt32.toNat_toUInt64, UInt32.toNat_mul, UInt32.toNat_mod,
      UInt32.reduceToNat]
    omega

/-- The timer is started with the interval it is given, except that `0` stops it. -/
theorem simulatedStart_spec (intervalMs : UInt32) : ∃ t, simulatedStart intervalMs = .ok t ∧
    (t.armed = true ↔ intervalMs ≠ 0) ∧ t.periodNs = intervalMs.toNat * 10 ^ 6 := by
  obtain ⟨hsec, hnsec⟩ := simulatedSpec_toNat intervalMs
  have hvalid : ¬ 1000000000 ≤ (simulatedSpec intervalMs).nsec := by
    rw [UInt64.le_iff_toNat_le, hnsec]
    show ¬ 1000000000 ≤ _
    omega
  refine ⟨⟨simulatedSpec intervalMs ≠ ⟨0, 0⟩, simulatedSpec intervalMs⟩, ?_, ?_, ?_⟩
  · exact if_neg (not_or.mpr ⟨hvalid, hvalid⟩)
  · have hzero : simulatedSpec intervalMs = ⟨0, 0⟩ ↔ intervalMs = 0 := by
      constructor
      · intro h
        rw [h] at hsec hnsec
        apply UInt32.toNat_inj.mp
        simp only [UInt64.toNat_zero, UInt32.toNat_zero] at hsec hnsec ⊢
        omega
      · rintro rfl
        rfl
    rw [decide_eq_true_eq, ne_eq, ne_eq, hzero]
  · rw [Timerfd.periodNs, hsec, hnsec]
    omega

/-! ### The daemon -/

/-- What the handler works on: the configuration file and the driver. -/
structure World where
  file : Option Bytes
  device : Device

/-- `SensorDevice::set_config`; its argument is no address that faults. -/
def World.setConfig (w : World) (cfg : Config) : World × Bool :=
  match exec w.device (.setConfig cfg false) with
  | some (.ok _, device) => ({ w with device := device }, true)
  | some (.error _, device) => ({ w with device := device }, false)
  | none => (w, false)

/-- The world once the driver has the interval, enabled. -/
def World.withInterval (w : World) (intervalMs : UInt32) : World :=
  { w with device := { w.device with
      config := ⟨intervalMs, 1⟩
      timer := hrtimerStart w.device.timer intervalMs } }

theorem World.setConfig_spec (w : World) (intervalMs : UInt32) :
    w.setConfig ⟨intervalMs, 1⟩ =
      if intervalBad intervalMs then (w, false) else (w.withInterval intervalMs, true) := by
  have hone : (1 : UInt32) ≠ 0 := by decide
  unfold setConfig
  by_cases hbad : intervalBad intervalMs = true
  · simp only [exec, Driver.setConfig, Device.configure, hbad, if_true, Bool.false_eq_true,
      if_false]
  · simp only [exec, Driver.setConfig, Device.configure, applyConfig, hbad, Bool.false_eq_true,
      if_false, hone, Option.map_some]
    rfl

/-- What `SensorDevice::get_stats` returns. -/
def Driver.Device.driverStats (d : Device) : DriverStats where
  generated := d.stats.generated
  injected := d.stats.injected
  dropped := d.stats.dropped
  fifoBytes := d.stats.fifoBytes

/-- What `main` passes to `handle_control_command`; `stats` is what its counters hold. -/
def daemon (path : Bytes) (stats : World → RuntimeStats) (simulate : Bool) : Daemon World where
  simulate := simulate
  stats := stats
  deviceStats w := .ok w.device.driverStats
  loadConfigFile w := (loadConfigFile path w.file).toOption.map AppConfig.sensorIntervalMs
  setConfig := World.setConfig

section Reload

variable {path : Bytes} {stats : World → RuntimeStats} {host : Host World} {config : AppConfig}

theorem reload_refused {simulate : Bool} {e : ConfigError}
    (h : loadConfigFile path host.world.file = .error e) :
    reload (daemon path stats simulate) host = (host, .exception) := by
  simp only [reload, daemon, h, Except.toOption, Option.map_none]

theorem reload_simulate (h : loadConfigFile path host.world.file = .ok config) :
    reload (daemon path stats true) host = (host, .text (ascii "ok\n")) := by
  simp only [reload, daemon, h, Except.toOption, Option.map_some, if_true]

theorem reload_driver (h : loadConfigFile path host.world.file = .ok config) :
    reload (daemon path stats false) host =
      if intervalBad config.sensorIntervalMs then (host, .exception)
      else ({ host with world := host.world.withInterval config.sensorIntervalMs },
        .text (ascii "ok\n")) := by
  simp only [reload, daemon, h, Except.toOption, Option.map_some, Bool.false_eq_true, if_false,
    World.setConfig_spec]
  by_cases hbad : intervalBad config.sensorIntervalMs = true
  · simp only [hbad, if_true]
  · simp only [hbad, Bool.false_eq_true, if_false]

end Reload

/-- The daemon in its event loop: the configuration `main` loaded, the timer of the simulated
device, the loop. `accepted` records the `sensor_interval_ms` of the configuration most recently
accepted, nothing in the daemon reads it. -/
structure Source where
  config : AppConfig
  timerfd : Option Timerfd
  loop : Reactor World
  accepted : UInt32

/-- `main` up to its event loop; `none` if an exception ends it. -/
def startup (path : Bytes) (file : Option Bytes) (device : Device) (fx : Fixed) : Option Source :=
  match loadConfigFile path file with
  | .error _ => none
  | .ok config =>
      if config.simulateDevice then
        match simulatedStart config.sensorIntervalMs with
        | .error _ => none
        | .ok timerfd =>
            some ⟨config, some timerfd, .init fx ⟨true, ⟨file, device⟩, []⟩,
              config.sensorIntervalMs⟩
      else
        -- `open_device`
        let device := { device with openCount := device.openCount + 1 }
        some ⟨config, none, .init fx ⟨true, ⟨file, device⟩, []⟩, config.sensorIntervalMs⟩

/-- The command lines the handler is called with in a step of the loop: one or none. -/
def Reactor.callsNow {W : Type*} (s : Reactor W) (l : LoopLabel) : List Bytes :=
  match s.concerned l with
  | some (entry, cl) => entry.client.callsIn cl
  | none => []

namespace Reactor

variable {W : Type*} {handler : Handler (Host W)} {s t : Reactor W} {l : LoopLabel}

theorem concerned_recv {entry : Entry} {result : RecvResult}
    (h : s.concerned l = some (entry, .recv result)) : l = .recv result := by
  unfold concerned at h
  split at h
  · split at h
    · cases h
    · split at h
      · obtain ⟨entry', -, hpair⟩ := Option.map_eq_some_iff.mp h
        cases hpair
      · cases h
  · split at h
    · obtain ⟨entry', -, hpair⟩ := Option.map_eq_some_iff.mp h
      cases hpair
      rfl
    · cases h
  · split at h
    · obtain ⟨entry', -, hpair⟩ := Option.map_eq_some_iff.mp h
      cases hpair
    · cases h
  · cases h

theorem callsNow_eq_nil (hl : ∀ result, l ≠ .recv result) : s.callsNow l = [] := by
  unfold callsNow
  split
  · rename_i entry cl hc
    cases cl with
    | recv result => exact absurd (concerned_recv hc) (hl result)
    | ready events => rfl
    | send result => rfl
  · rfl

theorem callsNow_recv {fd : ℕ} {events : UInt32} {entry : Entry} (hpc : s.pc = .recv fd events)
    (he : s.clients.lookup fd = some entry) (result : RecvResult) :
    s.callsNow (.recv result) = entry.client.calls result := by
  simp only [callsNow, concerned, hpc, he]
  rfl

/-- **A step of the loop calls the handler once or not at all**, and only the handler changes the
world. -/
theorem world_of_loopStep (h : loopStep handler s l = some t) :
    (s.callsNow l = [] ∧ t.host.world = s.host.world) ∨
    ∃ line, s.callsNow l = [line] ∧ t.host.world = (handler s.host line).1.world := by
  by_cases hrecv : ∃ result, l = .recv result
  · obtain ⟨result, rfl⟩ := hrecv
    cases step_of_loopStep h with
    | @recv fd events entry _ action host client hpc he hr =>
        have hcall := onRecv_calls handler events s.host entry.client result
        rw [hr] at hcall
        rw [act_host, callsNow_recv hpc he]
        rcases hcall with ⟨hnil, hhost⟩ | ⟨line, hline, hhost⟩
        · exact Or.inl ⟨hnil, congrArg Host.world hhost⟩
        · exact Or.inr ⟨line, hline, congrArg Host.world hhost⟩
  · refine Or.inl ⟨callsNow_eq_nil fun result hl => hrecv ⟨result, hl⟩, ?_⟩
    cases step_of_loopStep h with
    | recv hpc he hr => exact absurd ⟨_, rfl⟩ hrecv
    | dispatch hpc hbatch => exact (dispatch_host _ _).2
    | accept hpc h => exact congrArg Host.world (acceptReady_host h)
    | tcpAccept hpc h => exact congrArg Host.world (tcpAcceptReady_host h)
    | send hpc he htakes hr => rw [act_host]
    | _ => rfl

end Reactor

namespace Source

inductive Label
  | loop (l : LoopLabel)
  /-- Somebody writes or removes the configuration file. -/
  | edit (file : Option Bytes)
  /-- Somebody uses the driver, or its timer expires. -/
  | driver (l : DeviceLabel)

def world (s : Source) : World := s.loop.host.world

def setWorld (s : Source) (w : World) : Source :=
  { s with loop := { s.loop with host := { s.loop.host with world := w } } }

/-- The handler of the control server. -/
def handler (path : Bytes) (stats : World → RuntimeStats) (s : Source) : Handler (Host World) :=
  handleControlCommand (daemon path stats s.config.simulateDevice)

/-- The interval of the configuration that a call of the handler accepts: the line says `reload`,
the answer is `ok`. -/
def acceptedNow (path : Bytes) (stats : World → RuntimeStats) (s : Source) (line : Bytes) :
    Option UInt32 :=
  if stripBlanks line = ascii "reload" ∧
      (s.handler path stats s.loop.host line).2 = .text (ascii "ok\n") then
    (loadConfigFile path s.world.file).toOption.map AppConfig.sensorIntervalMs
  else none

/-- One step. -/
def sourceStep (path : Bytes) (stats : World → RuntimeStats) (s : Source) : Label → Option Source
  | .loop l =>
      (Reactor.loopStep (s.handler path stats) s.loop l).map fun loop =>
        { s with
          loop := loop
          accepted := (s.loop.callsNow l).foldl
            (fun ms line => (s.acceptedNow path stats line).getD ms) s.accepted }
  | .edit file => some (s.setWorld { s.world with file := file })
  | .driver l =>
      if l.configures then none
      else (deviceStep s.world.device l).map fun device =>
        s.setWorld { s.world with device := device }

/-- The active source is armed, with a period of `accepted` milliseconds. -/
def Follows (s : Source) : Prop :=
  if s.config.simulateDevice then
    ∃ t, s.timerfd = some t ∧ t.armed = true ∧ t.periodNs = s.accepted.toNat * 10 ^ 6
  else s.world.device.timer.armed = true ∧ s.world.device.timer.periodMs = s.accepted

/-- In simulate mode, a `reload` of a file that is accepted finds the same interval in it. -/
def KeepsInterval (path : Bytes) (s : Source) : Label → Prop
  | .loop l => s.config.simulateDevice = true → ∀ line ∈ s.loop.callsNow l,
      stripBlanks line = ascii "reload" → ∀ config, loadConfigFile path s.world.file = .ok config →
        config.sensorIntervalMs = s.accepted
  | _ => True

variable {path : Bytes} {stats : World → RuntimeStats} {s t : Source}

/-! ### One call of the handler -/

/-- What a call of the handler does: a configuration is accepted, and in driver mode the driver
gets its interval, or nothing changes. -/
inductive Called (path : Bytes) (stats : World → RuntimeStats) (s : Source) (line : Bytes) : Prop
  | accepted (config : AppConfig) (hline : stripBlanks line = ascii "reload")
      (hload : loadConfigFile path s.world.file = .ok config)
      (hnow : s.acceptedNow path stats line = some config.sensorIntervalMs)
      (hworld : (s.handler path stats s.loop.host line).1.world =
        if s.config.simulateDevice then s.world else s.world.withInterval config.sensorIntervalMs)
  | ignored (hnow : s.acceptedNow path stats line = none)
      (hworld : (s.handler path stats s.loop.host line).1.world = s.world)
      (hsimulate : s.config.simulateDevice = true → stripBlanks line = ascii "reload" →
        ∀ config, loadConfigFile path s.world.file ≠ .ok config)

theorem called (s : Source) (line : Bytes) : Called path stats s line := by
  by_cases hline : stripBlanks line = ascii "reload"
  · obtain ⟨host, hreload, hhost⟩ : ∃ host : Host World,
        s.handler path stats s.loop.host line =
          reload (daemon path stats s.config.simulateDevice) host ∧ s.world = host.world :=
      ⟨_, handleControlCommand_reload _ _ hline, rfl⟩
    -- an answer other than `ok` accepts nothing
    have hrefused : (s.handler path stats s.loop.host line).2 = .exception →
        s.acceptedNow path stats line = none := by
      intro hreply
      rw [acceptedNow, hreply, if_neg]
      rintro ⟨-, ⟨⟩⟩
    cases hload : loadConfigFile path host.world.file with
    | error e =>
        rw [reload_refused hload] at hreload
        refine .ignored (hrefused (by rw [hreload])) (by rw [hreload, hhost]) ?_
        intro _ _ config
        rw [hhost, hload]
        rintro ⟨⟩
    | ok config =>
        have haccepted : (s.handler path stats s.loop.host line).2 = .text (ascii "ok\n") →
            s.acceptedNow path stats line = some config.sensorIntervalMs := by
          intro hreply
          rw [acceptedNow, if_pos ⟨hline, hreply⟩, hhost, hload]
          rfl
        cases hsim : s.config.simulateDevice with
        | true =>
            rw [hsim, reload_simulate hload] at hreload
            refine .accepted config hline (hhost ▸ hload) (haccepted (by rw [hreload])) ?_
            rw [hreload, hsim, if_pos rfl, hhost]
        | false =>
            rw [hsim, reload_driver hload] at hreload
            by_cases hbad : intervalBad config.sensorIntervalMs = true
            · rw [if_pos hbad] at hreload
              refine .ignored (hrefused (by rw [hreload])) (by rw [hreload, hhost]) ?_
              intro h
              rw [hsim] at h
              cases h
            · rw [if_neg hbad] at hreload
              refine .accepted config hline (hhost ▸ hload) (haccepted (by rw [hreload])) ?_
              rw [hreload, hsim, if_neg Bool.false_ne_true, hhost]
  · refine .ignored (if_neg fun h => hline h.1) (handleControlCommand_world _ _ hline) ?_
    intro _ h
    exact absurd h hline

/-! ### Steps and runs -/

theorem Follows.congr (hs : s.Follows) (hconfig : t.config = s.config)
    (htimerfd : t.timerfd = s.timerfd) (htimer : t.world.device.timer = s.world.device.timer)
    (haccepted : t.accepted = s.accepted) : t.Follows := by
  simp only [Follows, hconfig, htimerfd, htimer, haccepted]
  exact hs

/-- In simulate mode the timer runs on, so another interval is one it does not have. -/
theorem follows_accept_simulate (hs : s.Follows) (hsim : s.config.simulateDevice = true)
    (hconfig : t.config = s.config) (htimerfd : t.timerfd = s.timerfd) :
    t.Follows ↔ t.accepted = s.accepted := by
  rw [Follows, if_pos hsim] at hs
  rw [Follows, hconfig, if_pos hsim, htimerfd]
  obtain ⟨timer, htimer, harmed, hperiod⟩ := hs
  constructor
  · rintro ⟨timer', htimer', -, hperiod'⟩
    rw [htimer] at htimer'
    cases htimer'
    apply UInt32.toNat_inj.mp
    omega
  · intro haccepted
    rw [haccepted]
    exact ⟨timer, htimer, harmed, hperiod⟩

/-- A call of the handler, in a step that changes nothing else. -/
theorem follows_call {line : Bytes} (hd : Agrees s.world.device) (hs : s.Follows)
    (hconfig : t.config = s.config) (htimerfd : t.timerfd = s.timerfd)
    (hworld : t.world = (s.handler path stats s.loop.host line).1.world)
    (haccepted : t.accepted = (s.acceptedNow path stats line).getD s.accepted) :
    Agrees t.world.device ∧ (t.Follows ↔ (s.config.simulateDevice = true →
      stripBlanks line = ascii "reload" → ∀ config, loadConfigFile path s.world.file = .ok config →
        config.sensorIntervalMs = s.accepted)) := by
  cases called s line with
  | ignored hnow hsame hsimulate =>
      rw [hsame] at hworld
      rw [hnow, Option.getD_none] at haccepted
      rw [hworld]
      refine ⟨hd, iff_of_true (hs.congr hconfig htimerfd (by rw [hworld]) haccepted) ?_⟩
      intro hsim hline config hload
      exact absurd hload (hsimulate hsim hline config)
  | accepted config hline hload hnow hthen =>
      rw [hthen] at hworld
      rw [hnow, Option.getD_some] at haccepted
      cases hsim : s.config.simulateDevice with
      | true =>
          rw [hsim, if_pos rfl] at hworld
          rw [follows_accept_simulate hs hsim hconfig htimerfd, hworld, haccepted]
          refine ⟨hd, fun h _ _ config' hload' => ?_, fun h => h rfl hline config hload⟩
          rw [hload] at hload'
          cases hload'
          exact h
      | false =>
          rw [hsim, if_neg Bool.false_ne_true] at hworld
          have hone : (1 : UInt32) ≠ 0 := by decide
          refine ⟨?_, iff_of_true ?_ fun h => absurd h Bool.false_ne_true⟩
          · rw [hworld]
            exact ⟨iff_of_true rfl hone, fun _ => rfl⟩
          · rw [Follows, hconfig, hsim, if_neg Bool.false_ne_true, hworld, haccepted]
            exact ⟨rfl, rfl⟩

/-- **What a step does to the source.** In simulate mode it goes on with the configuration exactly
if the step keeps the interval; in driver mode every step does. -/
theorem follows_step {l : Label} (hd : Agrees s.world.device) (hs : s.Follows)
    (h : sourceStep path stats s l = some t) :
    Agrees t.world.device ∧ (t.Follows ↔ KeepsInterval path s l) := by
  cases l with
  | edit file =>
      cases h
      exact ⟨hd, iff_of_true hs trivial⟩
  | driver l =>
      simp only [sourceStep] at h
      split_ifs at h with hl
      obtain ⟨device, hdev, rfl⟩ := Option.map_eq_some_iff.mp h
      have hframe := deviceStep_frame hd (Bool.eq_false_of_not_eq_true hl) hdev
      exact ⟨hd.congr hframe.1 hframe.2, iff_of_true (hs.congr rfl rfl hframe.2 rfl) trivial⟩
  | loop l =>
      obtain ⟨loop, hloop, rfl⟩ := Option.map_eq_some_iff.mp h
      rw [KeepsInterval]
      rcases Reactor.world_of_loopStep hloop with ⟨hnil, hworld⟩ | ⟨line, hline, hworld⟩
      · simp only [hnil, List.foldl_nil, List.not_mem_nil, false_imp_iff, implies_true]
        have hdevice : loop.host.world.device = s.world.device := congrArg World.device hworld
        refine ⟨?_, iff_of_true (hs.congr rfl rfl (congrArg Device.timer hdevice) rfl) trivial⟩
        show Agrees loop.host.world.device
        rw [hdevice]
        exact hd
      · simp only [hline, List.foldl_cons, List.foldl_nil, List.mem_singleton, forall_eq]
        exact follows_call hd hs rfl rfl hworld rfl

theorem sourceStep_config {l : Label} (h : sourceStep path stats s l = some t) :
    t.config = s.config := by
  cases l with
  | edit file => cases h; rfl
  | driver l =>
      simp only [sourceStep] at h
      split_ifs at h
      obtain ⟨device, -, rfl⟩ := Option.map_eq_some_iff.mp h
      rfl
  | loop l =>
      obtain ⟨loop, -, rfl⟩ := Option.map_eq_some_iff.mp h
      rfl

/-- In driver mode nothing is asked of the steps. -/
theorem allSteps_driver (hsim : s.config.simulateDevice = false) (ls : List Label) :
    AllSteps (sourceStep path stats) (KeepsInterval path) s ls := by
  induction ls generalizing s with
  | nil => trivial
  | cons l ls ih =>
      refine ⟨?_, fun t ht => ih ((congrArg AppConfig.simulateDevice (sourceStep_config ht)).trans
        hsim)⟩
      cases l with
      | loop l =>
          intro h
          rw [hsim] at h
          cases h
      | edit file => trivial
      | driver l => trivial

/-! ### From the start -/

/-- Every configuration that is accepted leads to the event loop. -/
theorem startup_of_load {file : Option Bytes} {config : AppConfig}
    (h : loadConfigFile path file = .ok config) (device : Device) (fx : Fixed) :
    ∃ s, startup path file device fx = some s ∧ s.config = config := by
  obtain ⟨timer, htimer, -⟩ := simulatedStart_spec config.sensorIntervalMs
  unfold startup
  rw [h]
  simp only [htimer]
  split_ifs
  · exact ⟨_, rfl, rfl⟩
  · exact ⟨_, rfl, rfl⟩

theorem startup_device {file : Option Bytes} {device : Device} {fx : Fixed}
    (h : startup path file device fx = some s) :
    s.world.device.config = device.config ∧ s.world.device.timer = device.timer := by
  unfold startup at h
  split at h
  · cases h
  · split_ifs at h
    · split at h
      · cases h
      · cases h
        exact ⟨rfl, rfl⟩
    · cases h
      exact ⟨rfl, rfl⟩

/-- **The source at the start.** -/
theorem follows_startup {file : Option Bytes} {device : Device} {fx : Fixed} (hd : Agrees device)
    (h : startup path file device fx = some s) :
    s.Follows ↔ (s.config.simulateDevice = true → s.config.sensorIntervalMs ≠ 0) ∧
      (s.config.simulateDevice = false → device.config.enabled ≠ 0 ∧
        device.config.intervalMs = s.config.sensorIntervalMs) := by
  unfold startup at h
  split at h
  · cases h
  · rename_i config hload
    split_ifs at h with hsim
    · obtain ⟨timer, htimer, harmed, hperiod⟩ := simulatedStart_spec config.sensorIntervalMs
      rw [htimer] at h
      cases h
      simp only [Follows, hsim, if_true, Option.some.injEq, exists_eq_left', harmed, hperiod,
        forall_const, Bool.true_eq_false, false_imp_iff, and_true]
    · cases h
      simp only [Follows, hsim, Bool.false_eq_true, if_false, false_imp_iff, true_and, forall_const]
      constructor
      · rintro ⟨harmed, hperiod⟩
        exact ⟨hd.armed.mp harmed, (hd.period harmed).symm.trans hperiod⟩
      · rintro ⟨henabled, hinterval⟩
        have harmed := hd.armed.mpr henabled
        exact ⟨harmed, (hd.period harmed).trans hinterval⟩

/-- **When the source follows the configuration.** For every configuration that is accepted at the
start, with the driver in any state that its module can have reached by then, and every run of the
event loop: in every state of the run the active source is armed with the interval of the
configuration most recently accepted, if and only if
* in simulate mode, the interval at the start is not `0`, and every file that a `reload` accepts has
  the interval accepted last;
* in driver mode, the driver happens to be enabled and to have the interval of the configuration
  already when the daemon starts. -/
theorem source_follows_iff {file : Option Bytes} {device : Device} {fx : Fixed}
    {ls : List Label} (hdevice : Reachable deviceStep Device.loaded device)
    (hs : startup path file device fx = some s) (h : run (sourceStep path stats) s ls = some t) :
    Always (sourceStep path stats) Follows s ls ↔
      (s.config.simulateDevice = true → s.config.sensorIntervalMs ≠ 0) ∧
      (s.config.simulateDevice = false → device.config.enabled ≠ 0 ∧
        device.config.intervalMs = s.config.sensorIntervalMs) ∧
      AllSteps (sourceStep path stats) (KeepsInterval path) s ls := by
  have hd : Agrees device := agrees_life hdevice
  rw [← and_assoc, ← follows_startup hd hs]
  obtain ⟨hconfig, htimer⟩ := startup_device hs
  have hinv : Agrees s.world.device := hd.congr hconfig htimer
  have hiff : s.Follows → (Always (sourceStep path stats) Follows s ls ↔
      AllSteps (sourceStep path stats) (KeepsInterval path) s ls) := by
    intro hf
    exact @always_iff_allSteps _ _ (sourceStep path stats) Follows (fun s => Agrees s.world.device)
      (KeepsInterval path) (fun _ _ _ hd hf hst => follows_step hd hf hst) s t ls hinv hf h
  constructor
  · intro hall
    exact ⟨hall.head, (hiff hall.head).mp hall⟩
  · rintro ⟨hf, hok⟩
    exact (hiff hf).mpr hok

/-- `config/sensorhub.conf`. -/
def confPath : Bytes := ascii "config/sensorhub.conf"

/-- Files that set the interval, and nothing else. -/
def fiveHundred : Bytes := ascii "sensor_interval_ms=500\n"
def hundred : Bytes := ascii "sensor_interval_ms=100\n"

def noStats (_ : World) : RuntimeStats := ⟨0, 0, 0, 0, 0, 0⟩

/-- A control client connects, the file is edited, the client sends `reload`, the timer expires. -/
def reloadHundred : List Label :=
  [.loop (.epollWait [⟨5, epollIn, 2⟩]), .loop .next, .loop (.accept (.conn 7 true)),
    .loop (.accept (.err .EAGAIN)), .loop .next, .edit (some hundred),
    .loop (.epollWait [⟨7, epollIn, 4⟩]), .loop .next,
    .loop (.recv (.data ⟨ascii "reload\n", by decide, by decide⟩)), .driver (.callback 5 7)]

theorem source_follows_iff_reloadHundred : ∃ s t,
    startup confPath (some fiveHundred) Device.loaded Reactor.firstFds = some s ∧
    run (sourceStep confPath noStats) s reloadHundred = some t ∧
    Always (sourceStep confPath noStats) Follows s reloadHundred ∧
    t.accepted = 100 ∧ t.world.device.timer.periodMs = 100 := by
  have hs : startup confPath (some fiveHundred) Device.loaded Reactor.firstFds =
      some ⟨{}, none, .init Reactor.firstFds ⟨true, ⟨some fiveHundred,
        { Device.loaded with openCount := 1 }⟩, []⟩, 500⟩ := rfl
  refine ⟨_, _, hs, rfl, ?_, rfl, rfl⟩
  refine (source_follows_iff (.refl _) hs rfl).mpr
    ⟨fun h => absurd h Bool.false_ne_true, fun _ => ⟨by decide, rfl⟩, ?_⟩
  exact allSteps_driver rfl reloadHundred

/-- **The driver keeps its own interval.** -/
theorem interval_forgotten : ∃ s,
    startup confPath (some hundred) Device.loaded Reactor.firstFds = some s ∧
    s.config.simulateDevice = false ∧ s.accepted = 100 ∧
    s.world.device.timer.periodMs = 500 ∧ ¬ s.Follows := by
  refine ⟨_, rfl, rfl, rfl, rfl, ?_⟩
  rintro ⟨-, hperiod⟩
  cases hperiod

end Source

end SensorHub
