import SensorHub.Net.Command
import SensorHub.Net.Registry

set_option autoImplicit false

/-!
# What clients can do to the daemon

The event loop with the handler of `main`, under an ordinary environment: no signal arrives, nobody
sends `shutdown`, and `epoll_wait`, `epoll_ctl` and the reads of the source do not fail. `ready`
closes a connection on every error it does not know, but the two accept loops throw: the control
listener on everything except `EINTR` and `EAGAIN`, the TCP listener even on `EINTR`.

* `Ordinary`, `Fatal`: the environment, and the answers of `accept4` that are thrown.
* `Alive`, `alive_step`: without a fatal answer the loop goes on; `thrown_of_fatal`: else it stops.
* **`loop_survives_iff`**; `aborted`, **`aborted_stops`**: a peer that gives up early.
-/

namespace SensorHub.Reactor

open Trans

variable {W : Type*} {fx : Fixed} {s t : Reactor W} {daemon : Daemon W} {l : LoopLabel}

/-- The environment does nothing that may stop the daemon. -/
def Ordinary (fx : Fixed) : LoopLabel → Prop
  | .epollWait events => ∀ e ∈ events, e.fd ≠ fx.signal
  | .epollFail e => e = .EINTR
  | .source ok => ok = true
  | .accept (.conn _ added) => added = true
  | _ => True

/-- A failure of `accept4` that the accept loop does not handle. -/
def Fatal : LoopLabel → Prop
  | .accept (.err e) => e ≠ .EINTR ∧ e ≠ .EAGAIN
  | .tcpAccept (.error e) => e ≠ .EAGAIN
  | _ => False

/-- Nobody asked the daemon to stop. -/
def NoShutdown (s : Reactor W) : Prop := ∀ line ∈ s.host.log, stripBlanks line ≠ ascii "shutdown"

/-- No exception has left `run_once`, `running` is true, and no signal is about to be read. -/
structure Alive (fx : Fixed) (s : Reactor W) : Prop where
  pc : s.pc ≠ .thrown
  running : s.host.running = true
  noSignal : ∀ e ∈ s.batch, e.fd ≠ fx.signal

theorem alive_act {fd : ℕ} (ht : Tables fx s) (hfd : fd ∈ s.clients) (hr : s.host.running = true)
    (hb : ∀ e ∈ s.batch, e.fd ≠ fx.signal) (events : UInt32) {action : Action}
    (ha : action ≠ .throw) : Alive fx (s.act fd events action) := by
  cases action with
  | recv => exact ⟨by rintro ⟨⟩, hr, hb⟩
  | send => exact ⟨by rintro ⟨⟩, hr, hb⟩
  | wait => exact ⟨by rintro ⟨⟩, hr, hb⟩
  | wantWrite =>
      have hin : fd ∈ s.interest := (ht.interest fd).mpr (ht.mem_callbacks.mpr (Or.inl hfd))
      rw [act, modify, if_pos hin]
      exact ⟨by rintro ⟨⟩, hr, hb⟩
  | close =>
      rw [act, closeClient_eq ht hfd]
      exact ⟨by rintro ⟨⟩, hr, hb⟩
  | throw => exact absurd rfl ha

theorem Fixed.eq_signal {fd : ℕ} (h : fx.callback fd = some .signal) : fd = fx.signal := by
  by_contra hne
  simp only [Fixed.callback, if_neg hne] at h
  split_ifs at h <;> cases h

theorem alive_dispatch (ht : Tables fx s) (hs : Alive fx s) {e : Event} (he : e.fd ∈ s.callbacks)
    (hsig : e.fd ≠ fx.signal) : Alive fx (s.dispatch e) := by
  rcases ht.callback_cases he with ⟨cb, hcb, hfx, -⟩ | ⟨hcb, hcl⟩
  · cases cb with
    | source => simp only [dispatch, hcb]; exact ⟨by rintro ⟨⟩, hs.running, hs.noSignal⟩
    | signal => exact absurd (Fixed.eq_signal hfx) hsig
    | control => simp only [dispatch, hcb]; exact ⟨by rintro ⟨⟩, hs.running, hs.noSignal⟩
    | tcp => simp only [dispatch, hcb]; exact ⟨by rintro ⟨⟩, hs.running, hs.noSignal⟩
    | client key => exact absurd hfx (Fixed.callback_ne_client fx e.fd key)
  · obtain ⟨entry, hentry⟩ := Finmap.mem_iff.mp hcl
    simp only [dispatch, hcb, hentry]
    exact alive_act ht hcl hs.running hs.noSignal _ (ready_ne_throw _)

theorem alive_acceptReady (ht : Tables fx s) (hs : Alive fx s) {result : AcceptResult}
    (hl : Ordinary fx (.accept result)) (hf : ¬ Fatal (.accept result))
    (h : s.acceptReady result = some t) : Alive fx t := by
  cases result with
  | conn fd added =>
      simp only [acceptReady] at h
      split_ifs at h with hfd
      cases h
      have hcb : fd ∉ s.callbacks := fun h => hfd (ht.registered_files h)
      have hcl : fd ∉ s.clients := fun h => hcb (ht.mem_callbacks.mpr (Or.inl h))
      have hin : fd ∉ s.interest := fun h => hcb ((ht.interest fd).mp h)
      rcases addClient_cases (s := s.openFile fd .control) hcl s.nextId added with
        ⟨-, h⟩ | ⟨-, -, h⟩ | ⟨hbad, -⟩
      · rw [h]
        exact ⟨hs.pc, hs.running, hs.noSignal⟩
      · rw [h]
        exact ⟨hs.pc, hs.running, hs.noSignal⟩
      · exact absurd ⟨hl, hin⟩ hbad
  | err e =>
      simp only [Fatal, not_and, not_not] at hf
      by_cases he : e = .EINTR
      · subst he
        cases h
        exact hs
      · rw [hf he] at h
        cases h
        exact ⟨by rintro ⟨⟩, hs.running, hs.noSignal⟩

theorem alive_tcpAcceptReady (hs : Alive fx s) {result : Except Errno ℕ}
    (hf : ¬ Fatal (.tcpAccept result)) (h : s.tcpAcceptReady result = some t) : Alive fx t := by
  cases result with
  | ok fd =>
      simp only [tcpAcceptReady] at h
      split_ifs at h
      cases h
      exact ⟨hs.pc, hs.running, hs.noSignal⟩
  | error e =>
      simp only [Fatal, not_not] at hf
      subst hf
      cases h
      exact ⟨by rintro ⟨⟩, hs.running, hs.noSignal⟩

/-- `ready` behind a `recv`: what the handler does is all that can matter. -/
theorem alive_recv {fd : ℕ} {events : UInt32} {entry : Entry} (ht : Tables fx s) (hs : Alive fx s)
    (he : s.clients.lookup fd = some entry) {result : RecvResult} {action : Action} {host : Host W}
    {client : Client}
    (hr : onRecv (handleControlCommand daemon) events s.host entry.client result =
      (action, host, client))
    (hcmd : ∀ line ∈ host.log, stripBlanks line ≠ ascii "shutdown") :
    Alive fx ({ s with
      host := host
      clients := s.clients.insert fd { entry with client := client } }.act fd events action) := by
  have hfd := onRecv_fd (handleControlCommand daemon) events s.host entry.client result
  have hcall := onRecv_handler (handleControlCommand daemon) events s.host entry.client result
  rw [hr] at hfd hcall
  have hset := (ht.setClient he hfd).frame s.nextId s.batch s.pc host
  have hmem : fd ∈ s.clients.insert fd { entry with client := client } :=
    Finmap.mem_insert.mpr (Or.inl rfl)
  rcases hcall with ⟨hhost, ha⟩ | ⟨line, hhost, ha⟩
  · have hrun : host.running = true := (congrArg Host.running hhost).trans hs.running
    exact alive_act hset hmem hrun hs.noSignal _ ha
  · obtain ⟨hforeign, hlog⟩ := handleControlCommand_spec daemon s.host line
    have hline : stripBlanks line ≠ ascii "shutdown" := by
      refine hcmd line ?_
      rw [show host = _ from hhost, hlog]
      exact List.mem_append_right _ (List.mem_singleton_self line)
    refine alive_act hset hmem ?_ hs.noSignal _ fun h => hforeign (ha h)
    rw [← hs.running, ← handleControlCommand_running daemon s.host hline]
    exact congrArg Host.running hhost

/-! ### Only `ready` calls the handler -/

theorem eraseClient_host (s : Reactor W) (key : ℕ) : (s.eraseClient key).host = s.host := by
  unfold eraseClient
  split <;> rfl

theorem act_host (s : Reactor W) (fd : ℕ) (events : UInt32) (action : Action) :
    (s.act fd events action).host = s.host := by
  cases action with
  | recv => rfl
  | send => rfl
  | wait => rfl
  | wantWrite =>
      unfold act modify
      split_ifs <;> rfl
  | close => exact eraseClient_host _ fd
  | throw => rfl

theorem addClient_host (s : Reactor W) (fd conn : ℕ) (added : Bool) :
    (s.addClient fd conn added).host = s.host := by
  unfold addClient
  split
  · rfl
  · simp only
    split
    · rfl
    · exact eraseClient_host _ fd

theorem dispatch_host (s : Reactor W) (e : Event) :
    (s.dispatch e).host.log = s.host.log ∧ (s.dispatch e).host.world = s.host.world := by
  unfold dispatch
  split
  · exact ⟨rfl, rfl⟩
  · exact ⟨rfl, rfl⟩
  · exact ⟨rfl, rfl⟩
  · exact ⟨rfl, rfl⟩
  · exact ⟨rfl, rfl⟩
  · split
    · exact ⟨rfl, rfl⟩
    · rw [act_host]
      exact ⟨rfl, rfl⟩

theorem acceptReady_host {result : AcceptResult} (h : s.acceptReady result = some t) :
    t.host = s.host := by
  unfold acceptReady at h
  split at h
  · split_ifs at h
    cases h
    exact addClient_host _ _ _ _
  · cases h; rfl
  · cases h; rfl
  · cases h; rfl

theorem tcpAcceptReady_host {result : Except Errno ℕ} (h : s.tcpAcceptReady result = some t) :
    t.host = s.host := by
  unfold tcpAcceptReady at h
  split at h
  · split_ifs at h
    cases h
    rfl
  · cases h; rfl
  · cases h; rfl

/-- A command that was recorded stays recorded. -/
theorem NoShutdown.of_step (ht : NoShutdown t)
    (h : loopStep (handleControlCommand daemon) s l = some t) : NoShutdown s := by
  suffices hsub : ∀ line ∈ s.host.log, line ∈ t.host.log from fun line hl => ht line (hsub line hl)
  cases step_of_loopStep h with
  | dispatch hpc hbatch =>
      rw [(dispatch_host _ _).1]
      exact fun _ => id
  | accept hpc h =>
      rw [acceptReady_host h]
      exact fun _ => id
  | tcpAccept hpc h =>
      rw [tcpAcceptReady_host h]
      exact fun _ => id
  | @recv fd events entry result action host client hpc he hr =>
      have hcall := onRecv_handler (handleControlCommand daemon) events s.host entry.client result
      rw [hr] at hcall
      rw [act_host]
      rcases hcall with ⟨hhost, -⟩ | ⟨line, hhost, -⟩
      · rw [show host = s.host from hhost]
        exact fun _ => id
      · rw [show host = _ from hhost, (handleControlCommand_spec daemon s.host line).2]
        exact fun _ hl => List.mem_append_left _ hl
  | send hpc he htakes hr =>
      rw [act_host]
      exact fun _ => id
  | _ => exact fun _ => id

/-- **Without a fatal answer the loop goes on.** -/
theorem alive_step (hsteady : Steady fx s) (hs : Alive fx s) (hl : Ordinary fx l) (hf : ¬ Fatal l)
    (ht : NoShutdown t) (h : loopStep (handleControlCommand daemon) s l = some t) : Alive fx t := by
  have htab := hsteady.tables
  cases step_of_loopStep h with
  | epollWait hpc hrun hcan => exact ⟨by rintro ⟨⟩, hs.running, hl⟩
  | interrupted hpc => exact hs
  | epollFail hpc he => exact absurd hl he
  | leave hpc hrun =>
      rw [hs.running] at hrun
      cases hrun
  | done hpc hbatch => exact ⟨by rintro ⟨⟩, hs.running, hs.noSignal⟩
  | @dispatch e rest hpc hbatch =>
      have hreg := hsteady.raised.registered
      have hsig := hs.noSignal
      simp only [hbatch, List.mem_cons, forall_eq_or_imp] at hreg hsig
      exact alive_dispatch (s := { s with batch := rest }) (htab.frame _ _ _ _)
        ⟨hs.pc, hs.running, hsig.2⟩ hreg.1 hsig.1
  | sourceRead hpc => exact ⟨by rintro ⟨⟩, hs.running, hs.noSignal⟩
  | sourceFail hpc => cases hl
  | accept hpc h => exact alive_acceptReady htab hs hl hf h
  | tcpAccept hpc h => exact alive_tcpAcceptReady hs hf h
  | recv hpc he hr =>
      unfold NoShutdown at ht
      rw [act_host] at ht
      exact alive_recv htab hs he hr ht
  | @send fd events entry result action client hpc he htakes hr =>
      have hfd := onSend_fd events entry.client result
      have ha := onSend_ne_throw events entry.client result
      rw [hr] at hfd ha
      exact alive_act (htab.setClient he hfd) (Finmap.mem_insert.mpr (Or.inl rfl)) hs.running
        hs.noSignal _ ha
  | kept hfd hk => exact hs
  | dropped hfd hk => exact ⟨hs.pc, hs.running, hs.noSignal⟩
  | openOther hfd => exact ⟨hs.pc, hs.running, hs.noSignal⟩
  | closeOther hf hh => exact ⟨hs.pc, hs.running, hs.noSignal⟩

/-- **A fatal answer leaves `run_once`.** -/
theorem thrown_of_fatal {handler : Handler (Host W)} (hf : Fatal l)
    (h : loopStep handler s l = some t) : t.pc = .thrown := by
  cases step_of_loopStep h with
  | @accept result t hpc h =>
      cases result with
      | conn fd added => cases hf
      | err e =>
          obtain ⟨hintr, hagain⟩ := hf
          unfold acceptReady at h
          split at h
          · rename_i heq; cases heq
          · rename_i heq; cases heq; exact absurd rfl hintr
          · rename_i heq; cases heq; exact absurd rfl hagain
          · cases h; rfl
  | @tcpAccept result t hpc h =>
      cases result with
      | ok fd => cases hf
      | error e =>
          unfold tcpAcceptReady at h
          split at h
          · rename_i heq; cases heq
          · rename_i heq; cases heq; exact absurd rfl hf
          · cases h; rfl
  | _ => cases hf

/-- Nothing brings the loop back. -/
theorem thrown_step {handler : Handler (Host W)} (hs : s.pc = .thrown)
    (h : loopStep handler s l = some t) : t.pc = .thrown := by
  cases step_of_loopStep h with
  | kept hfd hk => exact hs
  | dropped hfd hk => exact hs
  | openOther hfd => exact hs
  | closeOther hf hh => exact hs
  | _ => simp_all

/-! ### Whole runs -/

theorem alive_run {w : W} {ls : List LoopLabel}
    (h : run (loopStep (handleControlCommand daemon)) (init fx ⟨true, w, []⟩) ls = some s)
    (hls : ∀ l ∈ ls, Ordinary fx l) (hf : ∀ l ∈ ls, ¬ Fatal l) (hcmd : NoShutdown s) :
    Alive fx s := by
  have hok : AllSteps (loopStep (handleControlCommand daemon))
      (fun _ l => Ordinary fx l ∧ ¬ Fatal l) (init fx ⟨true, w, []⟩) ls :=
    .of_forall (fun l hl _ => ⟨hls l hl, hf l hl⟩) _
  refine (run_inv_of (fun s => Steady fx s ∧ (NoShutdown s → Alive fx s)) ?_
    ⟨steady_init fx _, fun _ => ⟨nofun, rfl, nofun⟩⟩ hok h).2 hcmd
  intro s l t hs hl hst
  exact ⟨steady_step hs.1 hst,
    fun hcmd => alive_step hs.1 (hs.2 (hcmd.of_step hst)) hl.1 hl.2 hcmd hst⟩

theorem thrown_run {handler : Handler (Host W)} {ls : List LoopLabel} (hl : l ∈ ls) (hf : Fatal l)
    (h : run (loopStep handler) s ls = some t) : t.pc = .thrown := by
  obtain ⟨as, bs, rfl⟩ := List.append_of_mem hl
  obtain ⟨u, -, h⟩ := run_append_eq_some.mp h
  obtain ⟨v, hv, h⟩ := run_cons_eq_some.mp h
  exact run_inv (fun s => s.pc = .thrown) (fun _ _ _ hs hst => thrown_step hs hst)
    (thrown_of_fatal hf hv) h

/-- **Exactly the unhandled failures of `accept4` stop the daemon.** In every run of the event loop
in an ordinary environment without a `shutdown`, whatever `recv` and `send` return: no exception
leaves `run_once` and `running` stays true if and only if every failure of `accept4` on the TCP
listener is `EAGAIN`, and every one on the control listener `EINTR` or `EAGAIN`. -/
theorem loop_survives_iff (daemon : Daemon W) (w : W) {ls : List LoopLabel}
    (h : run (loopStep (handleControlCommand daemon)) (init fx ⟨true, w, []⟩) ls = some s)
    (hls : ∀ l ∈ ls, Ordinary fx l) (hcmd : NoShutdown s) :
    (s.pc ≠ .thrown ∧ s.host.running = true) ↔ ∀ l ∈ ls, ¬ Fatal l := by
  constructor
  · intro hs l hl hf
    exact hs.1 (thrown_run hl hf h)
  · intro hf
    have hs := alive_run h hls hf hcmd
    exact ⟨hs.pc, hs.running⟩

/-- A daemon that simulates its device and finds no configuration file. -/
def bareDaemon : Daemon Unit where
  simulate := true
  stats _ := ⟨0, 0, 0, 0, 0, 0⟩
  deviceStats _ := .error []
  loadConfigFile _ := none
  setConfig _ _ := ((), false)

/-- A subscriber connects, a control client resets its connection, nobody else comes. -/
def visitors : List LoopLabel :=
  [.epollWait [⟨6, epollIn, 3⟩, ⟨5, epollIn, 2⟩], .next, .tcpAccept (.ok 7),
    .tcpAccept (.error .EAGAIN), .next, .accept (.conn 8 true), .accept (.err .EINTR),
    .accept (.err .EAGAIN), .next, .epollWait [⟨8, epollIn, 5⟩], .next, .recv (.err (.other 104))]

theorem loop_survives_iff_visitors : ∃ s,
    run (loopStep (handleControlCommand bareDaemon)) (init firstFds ⟨true, (), []⟩) visitors =
      some s ∧ s.pc ≠ .thrown ∧ s.host.running = true := by
  obtain ⟨s, hs⟩ : ∃ s, run (loopStep (handleControlCommand bareDaemon))
      (init firstFds ⟨true, (), []⟩) visitors = some s := ⟨_, rfl⟩
  have hlog : (run (loopStep (handleControlCommand bareDaemon))
      (init firstFds ⟨true, (), []⟩) visitors).map (fun s => s.host.log) = some [] := by decide
  rw [hs] at hlog
  have hlog' : s.host.log = [] := Option.some.inj hlog
  refine ⟨s, hs, (loop_survives_iff bareDaemon () hs ?_ ?_).mpr ?_⟩
  · simp [visitors, Ordinary, firstFds]
  · simp [NoShutdown, hlog']
  · simp [visitors, Fatal]

/-- A peer gives up before its connection is accepted. -/
def aborted : List LoopLabel :=
  [.epollWait [⟨6, epollIn, 3⟩], .next, .tcpAccept (.error .ECONNABORTED)]

/-- **A peer that gives up early stops the daemon.** -/
theorem aborted_stops : (∀ l ∈ aborted, Ordinary firstFds l) ∧
    ∃ s, run (loopStep (handleControlCommand bareDaemon)) (init firstFds ⟨true, (), []⟩) aborted =
      some s ∧ NoShutdown s ∧ s.pc = .thrown :=
  ⟨by simp [aborted, Ordinary, firstFds], _, rfl, nofun, rfl⟩

end SensorHub.Reactor
