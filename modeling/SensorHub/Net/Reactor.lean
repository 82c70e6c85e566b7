import SensorHub.Net.Control
import SensorHub.Trans.Run
import SensorHub.Trans.Table

set_option autoImplicit false

/-!
# The event loop

`userspace/src/reactor/epoll_loop.cpp`, `userspace/src/net/control_server.cpp` and the accepting
half of `userspace/src/net/tcp_broadcaster.cpp`, put together as `main` puts them together, from the
moment it has made its four registrations. The label of a step holds what the kernel answers: the
events of `epoll_wait`, the number `accept4` returns, the results of `recv` and `send`. Between two
such answers the main thread is alone, except that workers drop TCP subscribers and that files are
opened and closed elsewhere in the process; both may free a descriptor number at any time.

* `File`, `Event`, `Callback`, `Entry`, `Fixed`, `Host`; `LoopPc`, `Reactor`, `LoopLabel`.
* `remove`, `modify`, `closeClient`, `addClient`: the operations on the tables.
* `acceptReady`, `tcpAcceptReady`, `dispatch`, `act`: the callbacks.
* `loopStep`: the machine; `Step`, **`step_of_loopStep`**: what a step can do.
-/

namespace SensorHub

/-- Who closes a descriptor. -/
inductive Holder
  /-- `main` itself; these stay open while the loop runs. -/
  | main
  | control
  | tcp
  | other
  deriving DecidableEq

/-- An open file. Its `id` tells it from every other file that was ever open. -/
structure File where
  id : ℕ
  holder : Holder
  deriving DecidableEq

/-- `epoll_event`; `conn` is the file it was raised for. -/
structure Event where
  fd : ℕ
  events : UInt32
  conn : ℕ
  deriving DecidableEq

/-- The callbacks that are ever registered. -/
inductive Callback
  | source
  | signal
  | control
  | tcp
  /-- `[this, key](uint32_t events) { ready(key, events); }` -/
  | client (key : ℕ)
  deriving DecidableEq

/-- An entry of `ControlServer::clients_`, with the file it was made for. -/
structure Entry where
  client : Client
  conn : ℕ
  deriving DecidableEq

/-- The four descriptors `main` registers. -/
structure Fixed where
  source : ℕ
  signal : ℕ
  control : ℕ
  tcp : ℕ
  nodup : [source, signal, control, tcp].Nodup

/-- The callback `main` registers for a descriptor. -/
def Fixed.callback (fx : Fixed) (fd : ℕ) : Option Callback :=
  if fd = fx.source then some .source
  else if fd = fx.signal then some .signal
  else if fd = fx.control then some .control
  else if fd = fx.tcp then some .tcp
  else none

/-- The four descriptors. -/
def Fixed.fds (fx : Fixed) : Finset ℕ := {fx.source, fx.signal, fx.control, fx.tcp}

/-- What the handler of `main` can change: `running`, and the rest of the daemon. `log` records the
command lines it was called with. -/
structure Host (W : Type*) where
  running : Bool
  world : W
  log : List Bytes

/-- Where the main thread stands. -/
inductive LoopPc
  /-- At the test of `while (running)`, before `epoll_wait`. -/
  | poll
  /-- In the loop of `run_once` over the events. -/
  | dispatch
  /-- In the callback of the source, before its reads. -/
  | source
  /-- In `ControlServer::accept_ready`, before `accept4`. -/
  | accept
  /-- In `TcpBroadcaster::accept_ready`, before `accept4`. -/
  | tcpAccept
  /-- In `ControlServer::ready`, before `recv` or `send`. -/
  | recv (fd : ℕ) (events : UInt32)
  | send (fd : ℕ) (events : UInt32)
  /-- An exception has left `run_once`. -/
  | thrown
  /-- `running` was found false. -/
  | left
  deriving DecidableEq

/-- The state: the descriptors of the process, the kernel's interest list, `EpollLoop::callbacks_`,
`ControlServer::clients_`, `TcpBroadcaster::clients_`, the events of the current `run_once` that are
still to be dispatched. -/
structure Reactor (W : Type*) where
  files : Table ℕ File
  nextId : ℕ
  interest : Table ℕ UInt32
  callbacks : Table ℕ Callback
  clients : Table ℕ Entry
  tcp : List ℕ
  batch : List Event
  pc : LoopPc
  host : Host W

/-- What `accept4` returns, and whether the `EPOLL_CTL_ADD` that follows it succeeds. -/
inductive AcceptResult
  | conn (fd : ℕ) (added : Bool)
  | err (e : Errno)
  deriving DecidableEq

inductive LoopLabel
  | epollWait (events : List Event)
  | epollFail (e : Errno)
  /-- The next event of the batch is dispatched; behind the last one `run_once` returns. -/
  | next
  /-- The callback of the source reads and submits samples, or a read throws. -/
  | source (ok : Bool)
  | accept (result : AcceptResult)
  | tcpAccept (result : Except Errno ℕ)
  | recv (result : RecvResult)
  | send (result : SendResult)
  /-- `main` leaves its loop. -/
  | leave
  /-- A worker in `broadcast_line` gets the result of its `send` of `size` bytes to `fd`. -/
  | broadcast (fd size : ℕ) (result : SendResult)
  /-- The rest of the process opens or closes a file. -/
  | openOther (fd : ℕ)
  | closeOther (fd : ℕ)

namespace Reactor

variable {W : Type*}

/-- The kernel's side of `open` and `accept4`: a number that is not in use. -/
def openFile (s : Reactor W) (fd : ℕ) (holder : Holder) : Reactor W :=
  { s with files := s.files.insert fd ⟨s.nextId, holder⟩, nextId := s.nextId + 1 }

/-- The kernel's side of `close`; a closed file is no longer of interest. -/
def closeFile (s : Reactor W) (fd : ℕ) : Reactor W :=
  { s with files := s.files.erase fd, interest := s.interest.erase fd }

/-- `EpollLoop::remove`. -/
def remove (s : Reactor W) (fd : ℕ) : Reactor W :=
  { s with interest := s.interest.erase fd, callbacks := s.callbacks.erase fd }

/-- `EpollLoop::modify`; the kernel refuses a descriptor that is not registered. -/
def modify (s : Reactor W) (fd : ℕ) (events : UInt32) : Reactor W :=
  if fd ∈ s.interest then { s with interest := s.interest.insert fd events }
  else { s with pc := .thrown }

/-- `clients_.erase(key)`: the `UniqueFd` of the entry closes its descriptor. -/
def eraseClient (s : Reactor W) (key : ℕ) : Reactor W :=
  match s.clients.lookup key with
  | some entry => { s with clients := s.clients.erase key }.closeFile entry.client.fd
  | none => s

/-- `ControlServer::close_client`. -/
def closeClient (s : Reactor W) (fd : ℕ) : Reactor W := (s.remove fd).eraseClient fd

/-- `ControlServer::add_client`. If the server is full the `UniqueFd` is destroyed on return. -/
def addClient (s : Reactor W) (fd conn : ℕ) (added : Bool) : Reactor W :=
  if 64 ≤ s.clients.keys.card then s.closeFile fd
  else
    let s := { s with clients := s.clients.insert fd ⟨Client.new fd, conn⟩ }
    if added = true ∧ fd ∉ s.interest then
      { s with
        interest := s.interest.insert fd (epollIn ||| epollRdHup)
        callbacks := s.callbacks.insert fd (.client fd) }
    else { s.eraseClient fd with pc := .thrown }

/-- The body of `ControlServer::accept_ready`; `none` if the kernel cannot answer so. -/
def acceptReady (s : Reactor W) : AcceptResult → Option (Reactor W)
  | .conn fd added =>
      if fd ∈ s.files then none
      else some ((s.openFile fd .control).addClient fd s.nextId added)
  | .err .EINTR => some s
  | .err .EAGAIN => some { s with pc := .dispatch }
  | .err _ => some { s with pc := .thrown }

/-- The body of `TcpBroadcaster::accept_ready`. -/
def tcpAcceptReady (s : Reactor W) : Except Errno ℕ → Option (Reactor W)
  | .ok fd =>
      if fd ∈ s.files then none
      else some { s.openFile fd .tcp with tcp := s.tcp ++ [fd] }
  | .error .EAGAIN => some { s with pc := .dispatch }
  | .error _ => some { s with pc := .thrown }

/-- What `ready` does next on the connection `fd`. -/
def act (s : Reactor W) (fd : ℕ) (events : UInt32) : Action → Reactor W
  | .recv => { s with pc := .recv fd events }
  | .send => { s with pc := .send fd events }
  | .wait => { s with pc := .dispatch }
  | .wantWrite => { s with pc := .dispatch }.modify fd epollOut
  | .close => { s.closeClient fd with pc := .dispatch }
  | .throw => { s with pc := .thrown }

/-- The body of the loop of `run_once`, up to the first system call of the callback. -/
def dispatch (s : Reactor W) (e : Event) : Reactor W :=
  match s.callbacks.lookup e.fd with
  | none => s
  | some .source => { s with pc := .source }
  | some .signal => { s with host := { s.host with running := false } }
  | some .control => { s with pc := .accept }
  | some .tcp => { s with pc := .tcpAccept }
  | some (.client key) =>
      match s.clients.lookup key with
      | none => { s with pc := .thrown }
      | some entry => s.act key e.events (ready entry.client)

/-- `epoll_wait` returns up to 32 events, of different registered descriptors. -/
def CanRaise (s : Reactor W) (events : List Event) : Prop :=
  events.length ≤ 32 ∧ (events.map Event.fd).Nodup ∧
    ∀ e ∈ events, e.fd ∈ s.interest ∧ (s.files.lookup e.fd).map File.id = some e.conn

instance (s : Reactor W) (events : List Event) : Decidable (s.CanRaise events) :=
  inferInstanceAs (Decidable (_ ∧ _ ∧ _))

/-- `broadcast_line` keeps a subscriber that took the whole line or nothing. -/
def keeps (size : ℕ) : SendResult → Bool
  | .err .EAGAIN => true
  | .err _ => false
  | .sent n => n == size

/-- One step. -/
def loopStep (handler : Handler (Host W)) (s : Reactor W) : LoopLabel → Option (Reactor W)
  | .epollWait events =>
      if s.pc = .poll ∧ s.host.running = true ∧ s.CanRaise events then
        some { s with batch := events, pc := .dispatch }
      else none
  | .epollFail e =>
      if s.pc = .poll ∧ s.host.running = true then
        if e = .EINTR then some s else some { s with pc := .thrown }
      else none
  | .leave =>
      if s.pc = .poll ∧ s.host.running = false then some { s with pc := .left } else none
  | .next =>
      if s.pc = .dispatch then
        match s.batch with
        | [] => some { s with pc := .poll }
        | e :: rest => some ({ s with batch := rest }.dispatch e)
      else none
  | .source ok =>
      if s.pc = .source then some { s with pc := if ok then .dispatch else .thrown } else none
  | .accept result => if s.pc = .accept then s.acceptReady result else none
  | .tcpAccept result => if s.pc = .tcpAccept then s.tcpAcceptReady result else none
  | .recv result =>
      match s.pc with
      | .recv fd events =>
          (s.clients.lookup fd).map fun entry =>
            let (action, host, client) := onRecv handler events s.host entry.client result
            { s with
              host := host
              clients := s.clients.insert fd { entry with client := client } }.act fd events action
      | _ => none
  | .send result =>
      match s.pc with
      | .send fd events =>
          (s.clients.lookup fd).bind fun entry =>
            if entry.client.takes result then
              let (action, client) := onSend events entry.client result
              some ({ s with clients :=
                s.clients.insert fd { entry with client := client } }.act fd events action)
            else none
      | _ => none
  | .broadcast fd size result =>
      if fd ∈ s.tcp then
        if keeps size result then some s
        else some ({ s with tcp := s.tcp.filter (· ≠ fd) }.closeFile fd)
      else none
  | .openOther fd => if fd ∈ s.files then none else some (s.openFile fd .other)
  | .closeOther fd =>
      if (s.files.lookup fd).map File.holder = some .other then some (s.closeFile fd) else none

/-- What a step can do, with its guards. -/
inductive Step (handler : Handler (Host W)) (s : Reactor W) : LoopLabel → Reactor W → Prop
  | epollWait {events : List Event} (hpc : s.pc = .poll) (hrun : s.host.running = true)
      (hcan : s.CanRaise events) :
      Step handler s (.epollWait events) { s with batch := events, pc := .dispatch }
  | interrupted (hpc : s.pc = .poll) : Step handler s (.epollFail .EINTR) s
  | epollFail {e : Errno} (hpc : s.pc = .poll) (he : e ≠ .EINTR) :
      Step handler s (.epollFail e) { s with pc := .thrown }
  | leave (hpc : s.pc = .poll) (hrun : s.host.running = false) :
      Step handler s .leave { s with pc := .left }
  | done (hpc : s.pc = .dispatch) (hbatch : s.batch = []) :
      Step handler s .next { s with pc := .poll }
  | dispatch {e : Event} {rest : List Event} (hpc : s.pc = .dispatch)
      (hbatch : s.batch = e :: rest) :
      Step handler s .next ({ s with batch := rest }.dispatch e)
  | sourceRead (hpc : s.pc = .source) : Step handler s (.source true) { s with pc := .dispatch }
  | sourceFail (hpc : s.pc = .source) : Step handler s (.source false) { s with pc := .thrown }
  | accept {result : AcceptResult} {t : Reactor W} (hpc : s.pc = .accept)
      (h : s.acceptReady result = some t) : Step handler s (.accept result) t
  | tcpAccept {result : Except Errno ℕ} {t : Reactor W} (hpc : s.pc = .tcpAccept)
      (h : s.tcpAcceptReady result = some t) : Step handler s (.tcpAccept result) t
  | recv {fd : ℕ} {events : UInt32} {entry : Entry} {result : RecvResult} {action : Action}
      {host : Host W} {client : Client} (hpc : s.pc = .recv fd events)
      (he : s.clients.lookup fd = some entry)
      (hr : onRecv handler events s.host entry.client result = (action, host, client)) :
      Step handler s (.recv result) ({ s with
        host := host
        clients := s.clients.insert fd { entry with client := client } }.act fd events action)
  | send {fd : ℕ} {events : UInt32} {entry : Entry} {result : SendResult} {action : Action}
      {client : Client} (hpc : s.pc = .send fd events) (he : s.clients.lookup fd = some entry)
      (htakes : entry.client.takes result = true)
      (hr : onSend events entry.client result = (action, client)) :
      Step handler s (.send result) ({ s with
        clients := s.clients.insert fd { entry with client := client } }.act fd events action)
  | kept {fd size : ℕ} {result : SendResult} (hfd : fd ∈ s.tcp) (hk : keeps size result = true) :
      Step handler s (.broadcast fd size result) s
  | dropped {fd size : ℕ} {result : SendResult} (hfd : fd ∈ s.tcp)
      (hk : keeps size result = false) :
      Step handler s (.broadcast fd size result)
        ({ s with tcp := s.tcp.filter (· ≠ fd) }.closeFile fd)
  | openOther {fd : ℕ} (hfd : fd ∉ s.files) :
      Step handler s (.openOther fd) (s.openFile fd .other)
  | closeOther {fd : ℕ} {f : File} (hf : s.files.lookup fd = some f) (hh : f.holder = .other) :
      Step handler s (.closeOther fd) (s.closeFile fd)

theorem step_of_loopStep {handler : Handler (Host W)} {s t : Reactor W} {l : LoopLabel}
    (h : loopStep handler s l = some t) : Step handler s l t := by
  cases l <;> simp only [loopStep] at h
  case epollWait events =>
    split_ifs at h with hc
    cases h
    exact .epollWait hc.1 hc.2.1 hc.2.2
  case epollFail e =>
    split_ifs at h with hc he <;> cases h
    · exact he ▸ .interrupted hc.1
    · exact .epollFail hc.1 he
  case next =>
    split_ifs at h with hpc
    split at h <;> cases h
    · exact .done hpc ‹_›
    · exact .dispatch hpc ‹_›
  case source ok =>
    split_ifs at h with hpc hok <;> cases h
    · exact hok ▸ .sourceRead hpc
    · exact Bool.eq_false_of_not_eq_true hok ▸ .sourceFail hpc
  case accept result =>
    split_ifs at h with hpc
    exact .accept hpc h
  case tcpAccept result =>
    split_ifs at h with hpc
    exact .tcpAccept hpc h
  case recv result =>
    split at h
    · obtain ⟨entry, he, rfl⟩ := Option.map_eq_some_iff.mp h
      exact .recv ‹_› he rfl
    · cases h
  case send result =>
    split at h
    · obtain ⟨entry, he, h⟩ := Option.bind_eq_some_iff.mp h
      split_ifs at h with htakes
      cases h
      exact .send ‹_› he htakes rfl
    · cases h
  case leave =>
    split_ifs at h with hc
    cases h
    exact .leave hc.1 hc.2
  case broadcast fd size result =>
    split_ifs at h with hfd hk <;> cases h
    · exact .kept hfd hk
    · exact .dropped hfd (Bool.eq_false_of_not_eq_true hk)
  case openOther fd =>
    split_ifs at h with hfd
    cases h
    exact .openOther hfd
  case closeOther fd =>
    split_ifs at h with hh
    cases h
    obtain ⟨f, hf, hholder⟩ := Option.map_eq_some_iff.mp hh
    exact .closeOther hf hholder

/-- `main` has made its four registrations. -/
def init (fx : Fixed) (host : Host W) : Reactor W where
  files := (((∅ : Table ℕ File).insert fx.tcp ⟨3, .main⟩).insert fx.control ⟨2, .main⟩
    |>.insert fx.signal ⟨1, .main⟩).insert fx.source ⟨0, .main⟩
  nextId := 4
  interest := (((∅ : Table ℕ UInt32).insert fx.tcp epollIn).insert fx.control epollIn
    |>.insert fx.signal epollIn).insert fx.source epollIn
  callbacks := (((∅ : Table ℕ Callback).insert fx.tcp .tcp).insert fx.control .control
    |>.insert fx.signal .signal).insert fx.source .source
  clients := ∅
  tcp := []
  batch := []
  pc := .poll
  host := host

end Reactor

end SensorHub
