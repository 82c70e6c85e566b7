import SensorHub.Daemon.Source
import SensorHub.Daemon.Workers

set_option autoImplicit false

/-!
# A `reload` command

The daemon with everything `handle_control_command` could touch: the configuration file, the driver,
the queue and the counters, behind the event loop with its control connections. The workers, whoever
edits the file and whoever uses the driver go on between the steps of the loop.

* `Unsent`, `unsent_step`: a connection that waits for its command has been sent nothing.
* `Answers`, **`answers_recv`**: a command line gets the answer of the handler.
* `Plant`, `plantDaemon`, `plantStep`; `steady_unsent_of_reachable`.
* `Applicable`, `reload_of_applicable`, `reload_of_not_applicable`; **`reload_atomic`**.
-/

namespace SensorHub

open Trans Driver

/-- A line in `calls` is the command of the `recv`. -/
theorem onRecv_of_calls {W : Type*} (handler : Handler W) (events : UInt32) (w : W)
    {client : Client} {result : RecvResult} {line : Bytes} (h : client.calls result = [line]) :
    ∃ request, onRecv handler events w client result =
      { client with request := request }.command handler w line := by
  cases result with
  | eof => cases h
  | err e => cases h
  | data chunk =>
      refine ⟨client.request ++ chunk.bytes, ?_⟩
      simp only [Client.calls] at h
      simp only [onRecv]
      cases hp : (find newline (client.request ++ chunk.bytes)).filter (· ≤ 127) with
      | some p =>
          rw [hp] at h
          cases h
          rfl
      | none =>
          rw [hp] at h
          cases h

namespace Reactor

variable {W : Type*} {fx : Fixed} {handler : Handler (Host W)} {s t : Reactor W} {l : LoopLabel}

/-! ### Connections that have not been answered -/

/-- Nothing is sent to a connection before its response is there. -/
structure Unsent (s : Reactor W) : Prop where
  sent : ∀ fd entry, s.clients.lookup fd = some entry → entry.client.responding = false →
    entry.client.sent = 0
  recv : ∀ fd events entry, s.pc = .recv fd events → s.clients.lookup fd = some entry →
    entry.client.responding = false
  send : ∀ fd events entry, s.pc = .send fd events → s.clients.lookup fd = some entry →
    entry.client.responding = true

theorem unsent_init (fx : Fixed) (host : Host W) : Unsent (init fx host) where
  sent _ _ h := by cases h
  recv _ _ _ h := by cases h
  send _ _ _ h := by cases h

/-- A step of one connection. -/
theorem Unsent.moves (hs : Unsent s) {fd : ℕ} {entry : Entry} {events : UInt32} {action : Action}
    (h : Moves fd entry events action s t)
    (hsent : entry.client.responding = false → entry.client.sent = 0)
    (hrecv : action = .recv → entry.client.responding = false)
    (hsend : action = .send → entry.client.responding = true) : Unsent t where
  sent k e hk := by
    rw [h.clients k] at hk
    split_ifs at hk
    · cases action <;> cases hk <;> exact hsent
    · exact hs.sent k e hk
  recv k events' e hpc hk := by
    rw [h.pc] at hpc
    rw [h.clients k] at hk
    cases action <;> cases hpc
    rw [if_pos rfl] at hk
    cases hk
    exact hrecv rfl
  send k events' e hpc hk := by
    rw [h.pc] at hpc
    rw [h.clients k] at hk
    cases action <;> cases hpc
    rw [if_pos rfl] at hk
    cases hk
    exact hsend rfl

theorem sendLoop_ne_recvAction (client : Client) : client.sendLoop ≠ .recv := by
  unfold Client.sendLoop
  split_ifs <;> (rintro ⟨⟩)

/-- **Nothing is sent early**, whatever the step. -/
theorem unsent_step (hs : Unsent s) (h : Effect handler s l t) : Unsent t := by
  cases h with
  | elsewhere hc ha hclients hinterest hid hpc =>
      -- a thread in `ready` stands where it stood
      have hsame : ∀ {pc : LoopPc}, busy pc ≠ none → t.pc = pc → s.pc = pc := by
        intro pc hbusy ht
        rcases hpc with hpc | ⟨-, hfree, -⟩
        · exact hpc.symm.trans ht
        · rw [ht] at hfree
          exact absurd hfree hbusy
      refine ⟨?_, ?_, ?_⟩
      · rw [hclients]
        exact hs.sent
      · intro fd events entry ht
        rw [hclients]
        exact hs.recv fd events entry (hsame (by rintro ⟨⟩) ht)
      · intro fd events entry ht
        rw [hclients]
        exact hs.send fd events entry (hsame (by rintro ⟨⟩) ht)
  | admitted fd hc ha hnew hclients hinterest hid hpc =>
      have hfree : busy t.pc = none := by
        rw [hpc.2]
        exact hpc.1
      refine ⟨?_, ?_, ?_⟩
      · intro k e hk
        rw [hclients, Table.lookup_insert_eq] at hk
        split_ifs at hk
        · cases hk
          exact fun _ => rfl
        · exact hs.sent k e hk
      · intro k events e ht
        exact absurd (ht ▸ hfree) (by rintro ⟨⟩)
      · intro k events e ht
        exact absurd (ht ▸ hfree) (by rintro ⟨⟩)
  | ready fd entry events ha hc he hpc hmoves =>
      refine hs.moves hmoves (hs.sent fd entry he) ?_ ?_
      · intro haction
        cases hr : entry.client.responding with
        | false => rfl
        | true =>
            simp only [SensorHub.ready, hr, Bool.not_true, Bool.false_eq_true, if_false] at haction
            exact absurd haction (sendLoop_ne_recvAction _)
      · intro haction
        cases hr : entry.client.responding with
        | true => rfl
        | false =>
            simp only [SensorHub.ready, hr, Bool.not_false, if_true] at haction
            cases haction
  | recv fd entry events result action host client ha hc he hpc hr hmoves =>
      have hold := hs.recv fd events entry hpc he
      obtain ⟨hsent, ⟨hresponding, rfl⟩ | ⟨hresponding, -, hsend, -⟩⟩ := onRecv_response hr
      · refine hs.moves hmoves (fun hno => ?_) (fun hno => ?_) fun _ => hresponding
        · rw [hresponding] at hno
          cases hno
        · exact absurd hno (sendLoop_ne_recvAction _)
      · refine hs.moves hmoves (fun _ => ?_) (fun _ => hresponding.trans hold)
          fun hyes => absurd hyes hsend
        exact hsent.trans (hs.sent fd entry he hold)
  | send fd entry events result action client ha hc he hpc htakes hr hmoves =>
      have hold := hs.send fd events entry hpc he
      have hresponding : client.responding = true := by
        cases sendStep_of_onSend hr <;> exact hold
      have hrecv : action ≠ .recv := by
        cases sendStep_of_onSend hr
        case sent => exact sendLoop_ne_recvAction _
        all_goals rintro ⟨⟩
      refine hs.moves hmoves (fun hno => ?_) (fun hno => absurd hno hrecv) fun _ => hresponding
      rw [hresponding] at hno
      cases hno

/-! ### A command and its answer -/

/-- The main thread is about to send `response` on the connection `fd`, from its first byte. -/
def Answers (fd : ℕ) (response : Bytes) (s : Reactor W) : Prop :=
  ∃ events entry, s.pc = .send fd events ∧ s.clients.lookup fd = some entry ∧
    entry.client.responding = true ∧ entry.client.response = response ∧ entry.client.sent = 0

theorem Answers.unique {fd : ℕ} {response response' : Bytes} (h : Answers fd response s)
    (h' : Answers fd response' s) : response = response' := by
  obtain ⟨-, entry, -, he, -, hresponse, -⟩ := h
  obtain ⟨-, entry', -, he', -, hresponse', -⟩ := h'
  rw [he] at he'
  cases he'
  exact hresponse.symm.trans hresponse'

/-- **A command line gets the answer of the handler.** -/
theorem answers_recv (hu : Unsent s) {result : RecvResult} {line response : Bytes}
    (hcall : s.callsNow (.recv result) = [line])
    (hreply : (handler s.host line).2.response = some response) (hne : response ≠ [])
    (h : loopStep handler s (.recv result) = some t) :
    t.host = (handler s.host line).1 ∧
    ∃ fd events, s.pc = .recv fd events ∧ Answers fd response t := by
  cases step_of_loopStep h with
  | @recv fd events entry _ action host client hpc he hr =>
      rw [callsNow_recv hpc he] at hcall
      obtain ⟨request, hcommand⟩ := onRecv_of_calls handler events s.host hcall
      rw [hcommand, Client.command_of_some _ hreply] at hr
      -- nothing of the response has been sent
      have hsent : entry.client.sent = 0 := hu.sent fd entry he (hu.recv fd events entry hpc he)
      have hloop : ({ entry.client with
          request := request, response := response, responding := true } : Client).sendLoop =
          .send := by
        have hlen := List.length_pos_iff.mpr hne
        rw [Client.sendLoop, if_pos]
        show entry.client.sent < response.length
        omega
      cases hr
      rw [hloop]
      exact ⟨rfl, fd, events, hpc, events, _, rfl, Finmap.lookup_insert _, rfl, rfl, hsent⟩

end Reactor

/-! ### The daemon with its queue -/

/-- What `build_stats_text` reads of the queue and the counters. -/
def Work.runtimeStats {n c : ℕ} (w : Work n c) (tcpClients : ℕ) : RuntimeStats where
  received := w.received
  processed := w.processed
  exported := w.exported
  tcpClients := tcpClients
  queueSize := w.queue.size
  queueDropped := w.queue.dropped

/-- Everything the handler has a reference to, besides `running`: the configuration file and the
driver, the queue and the counters. -/
structure Plant (n c : ℕ) where
  world : World
  work : Work n c

variable {n c : ℕ}

/-- `SensorDevice::set_config`. -/
def Plant.setConfig (p : Plant n c) (cfg : Config) : Plant n c × Bool :=
  ({ p with world := (p.world.setConfig cfg).1 }, (p.world.setConfig cfg).2)

/-- What `main` passes to `handle_control_command`. -/
def plantDaemon (path : Bytes) (simulate : Bool) (tcpClients : ℕ) : Daemon (Plant n c) where
  simulate := simulate
  stats p := p.work.runtimeStats tcpClients
  deviceStats p := .ok p.world.device.driverStats
  loadConfigFile p := (loadConfigFile path p.world.file).toOption.map AppConfig.sensorIntervalMs
  setConfig := Plant.setConfig

/-- The handler of the control server. -/
def plantHandler (path : Bytes) (simulate : Bool) (s : Reactor (Plant n c)) :
    Handler (Host (Plant n c)) :=
  handleControlCommand (plantDaemon path simulate s.tcp.length)

inductive PlantLabel (n : ℕ)
  | loop (l : LoopLabel)
  /-- Somebody writes or removes the configuration file. -/
  | edit (file : Option Bytes)
  /-- Somebody uses or configures the driver, or its timer expires. -/
  | driver (l : DeviceLabel)
  /-- The callback of the source submits a sample. -/
  | submit (sample : Sample)
  | worker (i : Fin n)
  /-- `main` closes the queue behind its loop. -/
  | close

/-- The daemon with another file, driver or queue. -/
def Reactor.setWorld {W : Type*} (s : Reactor W) (w : W) : Reactor W :=
  { s with host := { s.host with world := w } }

/-- One step. -/
def plantStep (path : Bytes) (simulate : Bool) (s : Reactor (Plant n c)) :
    PlantLabel n → Option (Reactor (Plant n c))
  | .loop l => Reactor.loopStep (plantHandler path simulate s) s l
  | .edit file =>
      some (s.setWorld { s.host.world with world := { s.host.world.world with file := file } })
  | .driver l =>
      (deviceStep s.host.world.world.device l).map fun device =>
        s.setWorld { s.host.world with world := { s.host.world.world with device := device } }
  | .submit sample =>
      if s.pc = .source then
        some (s.setWorld { s.host.world with work := s.host.world.work.submit sample })
      else none
  | .worker i =>
      (s.host.world.work.workerStep i).map fun work =>
        s.setWorld { s.host.world with work := work }
  | .close =>
      if s.pc = .left then
        some (s.setWorld { s.host.world with work := s.host.world.work.close })
      else none

/-- The daemon in front of its event loop. -/
def plantInit (fx : Fixed) (file : Option Bytes) (device : Device) : Reactor (Plant n c) :=
  .init fx ⟨true, ⟨⟨file, device⟩, Work.init n c⟩, []⟩

/-- A step is one of the loop, or leaves the loop as it is. -/
theorem plantStep_cases {path : Bytes} {simulate : Bool} {s t : Reactor (Plant n c)}
    {l : PlantLabel n} (h : plantStep path simulate s l = some t) :
    (∃ l', Reactor.loopStep (plantHandler path simulate s) s l' = some t) ∨
    ∃ w, t = s.setWorld w := by
  cases l with
  | loop l => exact Or.inl ⟨l, h⟩
  | edit file => exact Or.inr ⟨_, (Option.some.inj h).symm⟩
  | driver l =>
      obtain ⟨device, -, rfl⟩ := Option.map_eq_some_iff.mp h
      exact Or.inr ⟨_, rfl⟩
  | submit sample =>
      simp only [plantStep] at h
      split_ifs at h
      exact Or.inr ⟨_, (Option.some.inj h).symm⟩
  | worker i =>
      obtain ⟨work, -, rfl⟩ := Option.map_eq_some_iff.mp h
      exact Or.inr ⟨_, rfl⟩
  | close =>
      simp only [plantStep] at h
      split_ifs at h
      exact Or.inr ⟨_, (Option.some.inj h).symm⟩

/-- What holds of the loop in every state of the daemon. -/
theorem steady_unsent_of_reachable {path : Bytes} {simulate : Bool} {fx : Fixed}
    {file : Option Bytes} {device : Device} {s : Reactor (Plant n c)}
    (h : Reachable (plantStep path simulate) (plantInit fx file device) s) :
    Reactor.Steady fx s ∧ Reactor.Unsent s := by
  refine h.inv (fun s => Reactor.Steady fx s ∧ Reactor.Unsent s) ?_
    ⟨Reactor.steady_init fx _, Reactor.unsent_init fx _⟩
  rintro s l t ⟨hs, hu⟩ hst
  rcases plantStep_cases hst with ⟨l', hl⟩ | ⟨w, rfl⟩
  · exact ⟨Reactor.steady_step hs hl, Reactor.unsent_step hu (Reactor.effect_of_step hs hl)⟩
  · -- neither invariant looks at the world
    exact ⟨⟨hs.tables.frame _ _ _ _, hs.raised.congr rfl rfl rfl, hs.busy⟩,
      ⟨hu.sent, hu.recv, hu.send⟩⟩

/-! ### The command -/

section Reload

variable {path : Bytes} {simulate : Bool}

/-- The file can be applied: it is accepted and, in driver mode, the driver takes its interval. -/
def Applicable (path : Bytes) (simulate : Bool) (w : World) : Prop :=
  ∃ config, loadConfigFile path w.file = .ok config ∧
    (simulate = false → 10 ≤ config.sensorIntervalMs ∧ config.sensorIntervalMs ≤ 60000)

/-- A refused `reload`: the file is not accepted, or the driver does not take its interval. -/
theorem reload_of_not_applicable {host : Host (Plant n c)} {tcpClients : ℕ}
    (h : ¬ Applicable path simulate host.world.world) :
    reload (plantDaemon path simulate tcpClients) host = (host, .exception) := by
  cases hload : loadConfigFile path host.world.world.file with
  | error e => simp only [reload, plantDaemon, hload, Except.toOption, Option.map_none]
  | ok config =>
      cases simulate with
      | true => exact absurd ⟨config, hload, fun h => absurd h Bool.noConfusion⟩ h
      | false =>
          have hbad : intervalBad config.sensorIntervalMs = true := by
            by_contra hgood
            have hgood' := (intervalBad_eq_false _).mp (Bool.eq_false_of_not_eq_true hgood)
            exact h ⟨config, hload, fun _ => hgood'⟩
          simp only [reload, plantDaemon, hload, Except.toOption, Option.map_some,
            Bool.false_eq_true, if_false, Plant.setConfig, World.setConfig_spec, hbad, if_true]

/-- What an accepted `reload` does to the plant. -/
def Plant.reloaded (p : Plant n c) (simulate : Bool) (config : AppConfig) : Plant n c :=
  if simulate then p else { p with world := p.world.withInterval config.sensorIntervalMs }

theorem reload_of_applicable {host : Host (Plant n c)} {tcpClients : ℕ} {config : AppConfig}
    (hload : loadConfigFile path host.world.world.file = .ok config)
    (hgood : simulate = false → 10 ≤ config.sensorIntervalMs ∧ config.sensorIntervalMs ≤ 60000) :
    reload (plantDaemon path simulate tcpClients) host =
      ({ host with world := host.world.reloaded simulate config }, .text (ascii "ok\n")) := by
  cases simulate with
  | true =>
      simp only [reload, plantDaemon, hload, Except.toOption, Option.map_some, if_true,
        Plant.reloaded]
  | false =>
      have hok := (intervalBad_eq_false _).mpr (hgood rfl)
      simp only [reload, plantDaemon, hload, Except.toOption, Option.map_some, Bool.false_eq_true,
        if_false, Plant.setConfig, World.setConfig_spec, hok, Plant.reloaded]

/-- **A `reload` is applied or does nothing.** In every state the daemon can reach, whatever its
mode, the driver's configuration and the content of the file, a `reload` on a control connection
* is answered `ok` if and only if the file can be applied;
* if it can, in driver mode, the driver has the interval of the file, is enabled, and its timer is
  armed with that interval;
* if it cannot, is answered `error: command failed`, and leaves the driver and its timer, the queue,
  the counters and `running` as they were. -/
theorem reload_atomic {fx : Fixed} {file : Option Bytes} {device : Device}
    {s t : Reactor (Plant n c)} {result : RecvResult} {line : Bytes}
    (hs : Reachable (plantStep path simulate) (plantInit fx file device) s)
    (hcall : s.callsNow (.recv result) = [line]) (hline : stripBlanks line = ascii "reload")
    (h : plantStep path simulate s (.loop (.recv result)) = some t) :
    ∃ fd events, s.pc = .recv fd events ∧
      (t.Answers fd (ascii "ok\n") ↔ Applicable path simulate s.host.world.world) ∧
      (∀ config, loadConfigFile path s.host.world.world.file = .ok config →
        Applicable path simulate s.host.world.world → simulate = false →
        t.host.world.world.device.config = ⟨config.sensorIntervalMs, 1⟩ ∧
        t.host.world.world.device.timer.armed = true ∧
        t.host.world.world.device.timer.periodMs = config.sensorIntervalMs) ∧
      (¬ Applicable path simulate s.host.world.world →
        t.Answers fd commandFailed ∧ t.host.world = s.host.world ∧
        t.host.running = s.host.running) := by
  obtain ⟨-, hunsent⟩ := steady_unsent_of_reachable hs
  have hcommand := handleControlCommand_reload (plantDaemon path simulate s.tcp.length) s.host hline
  by_cases happ : Applicable path simulate s.host.world.world
  · obtain ⟨config, hload, hgood⟩ := happ
    have hreload := hcommand.trans (reload_of_applicable hload hgood)
    obtain ⟨hhost, fd, events, hpc, hans⟩ :=
      Reactor.answers_recv hunsent hcall (congrArg (fun r => r.2.response) hreload) (by decide) h
    rw [plantHandler, hreload] at hhost
    refine ⟨fd, events, hpc, iff_of_true hans ⟨config, hload, hgood⟩, ?_, ?_⟩
    · rintro config' hload' - rfl
      rw [hload] at hload'
      cases hload'
      rw [hhost]
      exact ⟨rfl, rfl, rfl⟩
    · exact fun hno => absurd ⟨config, hload, hgood⟩ hno
  · have hreload := hcommand.trans (reload_of_not_applicable happ)
    obtain ⟨hhost, fd, events, hpc, hans⟩ :=
      Reactor.answers_recv hunsent hcall (congrArg (fun r => r.2.response) hreload) (by decide) h
    rw [plantHandler, hreload] at hhost
    have hne : commandFailed ≠ ascii "ok\n" := by decide
    refine ⟨fd, events, hpc, iff_of_false (fun hok => hne (hans.unique hok)) happ, ?_, ?_⟩
    · exact fun _ _ hyes => absurd hyes happ
    · rw [hhost]
      exact fun _ => ⟨hans, rfl, rfl⟩

/-- A control client connects, a sample is submitted and taken, the file is edited. -/
def beforeReload : List (PlantLabel 1) :=
  [.loop (.epollWait [⟨5, epollIn, 2⟩, ⟨3, epollIn, 0⟩]), .loop .next,
    .loop (.accept (.conn 7 true)), .loop (.accept (.err .EAGAIN)), .loop .next,
    .submit (timerSample 5 7), .worker (Fin.last 0), .loop (.source true), .loop .next,
    .edit (some Source.hundred), .loop (.epollWait [⟨7, epollIn, 4⟩]), .loop .next]

def reloadReceived : RecvResult := .data ⟨ascii "reload\r\n", by decide, by decide⟩

theorem reload_atomic_hundred : ∃ s t : Reactor (Plant 1 4),
    run (plantStep Source.confPath false)
      (plantInit Reactor.firstFds (some Source.fiveHundred) Device.loaded) beforeReload = some s ∧
    plantStep Source.confPath false s (.loop (.recv reloadReceived)) = some t ∧
    t.Answers 7 (ascii "ok\n") ∧ t.host.world.world.device.config = ⟨100, 1⟩ := by
  obtain ⟨config, hload, hinterval⟩ : ∃ config,
      loadConfigFile Source.confPath (some Source.hundred) = .ok config ∧
      config.sensorIntervalMs = 100 := ⟨_, rfl, rfl⟩
  obtain ⟨s, t, hs, ht, hpc, hcall, hfile⟩ : ∃ s t : Reactor (Plant 1 4),
      run (plantStep Source.confPath false)
        (plantInit Reactor.firstFds (some Source.fiveHundred) Device.loaded) beforeReload =
          some s ∧
      plantStep Source.confPath false s (.loop (.recv reloadReceived)) = some t ∧
      s.pc = .recv 7 epollIn ∧ s.callsNow (.recv reloadReceived) = [ascii "reload\r"] ∧
      s.host.world.world.file = some Source.hundred := ⟨_, _, rfl, rfl, rfl, rfl, rfl⟩
  rw [← hfile] at hload
  have hgood : Applicable Source.confPath false s.host.world.world :=
    ⟨config, hload, fun _ => by rw [hinterval]; decide⟩
  obtain ⟨fd, events, hpc', hok, happly, -⟩ := reload_atomic ⟨_, hs⟩ hcall rfl ht
  rw [hpc] at hpc'
  cases hpc'
  refine ⟨s, t, hs, ht, hok.mpr hgood, ?_⟩
  rw [(happly config hload hgood rfl).1, hinterval]

end Reload

end SensorHub
