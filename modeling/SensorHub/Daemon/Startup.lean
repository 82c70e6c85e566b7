import SensorHub.Daemon.ConfigFile
import SensorHub.Net.Subscribers

set_option autoImplicit false

/-!
# The descriptors of the daemon

`main` of `userspace/src/main.cpp` from its first socket to its return, with the functions that open
its descriptors: `create_udp_socket`, `TcpBroadcaster::listen_on`, `SensorDevice::open_device`,
`SimulatedSensorDevice::start`, `create_signal_fd`, `create_control_socket` and the constructor of
`EpollLoop`. Each of them has a fresh descriptor in a plain `int` until it hands it to a `UniqueFd`,
and has to close it by hand on the way out of every failure before that. Any call may fail, and the
rest of the process opens and closes descriptors in between.

* `Place`, `Address`, `Stmt`; `createUdpSocket`, `listenOn`, …, `startupStmts`: the statements.
* `Boot`, `BootLabel`, `bootStep`: they are run, until `main` returns or is terminated; `BootMove`,
  `bootStep_move`: what a step can be.
* `Moved`, `moved_op`: what an operation does to descriptors and records; `Shut`: openings that are
  over.
* `tidy`, `tidy_startupStmts`: no statement can throw while it has a descriptor that it does not
  close.
* `Booted`, `booted_step`: tidy statements lose no descriptor; `exists_own`: `main` can go on;
  **`startup_balanced`**.
-/

namespace SensorHub

open Trans

/-- The `UniqueFd` objects of `main`. -/
inductive Place
  | udpFd
  | listenFd
  | device
  | timerFd
  | signalFd
  | controlFd
  | epollFd
  deriving DecidableEq

/-- What a socket is bound to, or connected to; no host is `INADDR_ANY`. -/
inductive Address
  | inet (host : Option Bytes) (port : UInt16)
  | unix (sunPath : Bytes)
  deriving DecidableEq

/-- What is thrown: `sys_error`, or a `std::runtime_error` with a text of its own. -/
inductive Failure
  | sysError (action : Bytes) (e : Errno)
  | runtimeError (text : Bytes)
  deriving DecidableEq

/-- The calls on a descriptor that are checked. -/
inductive FdCall
  | bind (address : Address)
  | listen
  | timerfdSettime
  deriving DecidableEq

/-- The statements that matter to the descriptors. -/
inductive Stmt
  /-- A call that takes no part in them, and may throw. -/
  | call
  /-- `int fd = …; if (fd < 0) throw sys_error(action);` -/
  | openFd (action : Bytes)
  /-- A call on `fd`; if it fails, `close(fd)` and `throw sys_error(action)`. -/
  | check (action : Bytes) (effect : FdCall)
  /-- A test; if it fails, `close(fd)` and `throw std::runtime_error(text)`. -/
  | test (text : Bytes) (passed : Bool)
  /-- `UniqueFd x(fd)`. -/
  | construct (x : Place)
  /-- A member `UniqueFd x` of an object that is constructed. -/
  | default (x : Place)
  /-- `x.reset(fd)`. -/
  | reset (x : Place)
  /-- `std::vector<std::thread> workers`. -/
  | vector
  /-- `workers.emplace_back(…)`, which may throw. -/
  | thread
  /-- Every worker is joined. -/
  | join
  deriving DecidableEq

namespace Place

/-- The objects are different ones. -/
def number : Place → ℕ
  | .udpFd => 0
  | .listenFd => 1
  | .device => 2
  | .timerFd => 3
  | .signalFd => 4
  | .controlFd => 5
  | .epollFd => 6

theorem number_injective : Function.Injective number := by
  intro x y h
  cases x <;> cases y <;> first | rfl | cases h

/-- An operation on one object does not touch the others. -/
theorem number_notMem {x y : Place} (h : y ≠ x) : y.number ∉ [x.number] := by
  rw [List.mem_singleton]
  exact fun heq => h (number_injective heq)

theorem number_lt (x : Place) : x.number < 7 := by
  cases x <;> decide

end Place

/-- `sizeof(addr.sun_path)`. -/
def sizeofSunPath : ℕ := 108

/-- `addr.sun_path` behind `strncpy` from `path.c_str()`, up to the first zero byte. -/
def sunPath (path : Bytes) : Bytes := (path.takeWhile (· ≠ 0)).take (sizeofSunPath - 1)

section Functions

variable (config : AppConfig)

/-- `create_udp_socket`; `validHost` is what `inet_pton` says. -/
def createUdpSocket (validHost : Bool) : List Stmt :=
  [.openFd (ascii "socket UDP"),
    .test (ascii "invalid udp_export_host: " ++ config.udpExportHost) validHost,
    .construct .udpFd]

/-- `TcpBroadcaster::listen_on`. -/
def listenOn (port : UInt16) : List Stmt :=
  [.openFd (ascii "socket TCP"), .check (ascii "bind TCP") (.bind (.inet none port)),
    .check (ascii "listen TCP") .listen, .reset .listenFd]

/-- `SensorDevice::open_device`. -/
def openDevice (path : Bytes) : List Stmt := [.openFd (ascii "open " ++ path), .reset .device]

/-- `SimulatedSensorDevice::start`. -/
def startTimer : List Stmt :=
  [.openFd (ascii "timerfd_create"), .check (ascii "timerfd_settime") .timerfdSettime,
    .reset .timerFd]

/-- `create_signal_fd`; the first call is `pthread_sigmask`. -/
def createSignalFd : List Stmt := [.call, .openFd (ascii "signalfd"), .construct .signalFd]

/-- `create_control_socket`; the first call is `create_directories`. -/
def createControlSocket (path : Bytes) : List Stmt :=
  [.call, .openFd (ascii "socket AF_UNIX"),
    .test (ascii "control socket path is too long") (path.length < sizeofSunPath),
    .check (ascii "bind control socket") (.bind (.unix (sunPath path))),
    .check (ascii "listen control socket") .listen, .construct .controlFd]

/-- `EpollLoop::EpollLoop`. -/
def epollLoop : List Stmt :=
  [.default .epollFd, .openFd (ascii "epoll_create1"), .reset .epollFd]

/-- `simulated_device.start` or `real_device.open_device`. -/
def startSource : List Stmt :=
  if config.simulateDevice then startTimer else openDevice config.devicePath

/-- From the first socket to the last call of `loop.add`. -/
def prepareStmts (validHost : Bool) : List Stmt :=
  createUdpSocket config validHost ++ .default .listenFd :: listenOn config.tcpListenPort ++
    .vector :: List.replicate config.workerThreads.toNat .thread ++
    .default .device :: .default .timerFd :: startSource config ++
    createSignalFd ++ createControlSocket config.controlSocket ++ epollLoop ++
    List.replicate 4 .call

/-- The loop of `main`, which may throw, and what follows it. -/
def serveStmts : List Stmt := [.call, .join]

/-- `main` behind the construction of its log writer. -/
def startupStmts (validHost : Bool) : List Stmt := prepareStmts config validHost ++ serveStmts

end Functions

/-! ### Running the statements -/

/-- The objects that `main` has to destroy. -/
inductive Local
  | unique (x : Place)
  | workers
  deriving DecidableEq

inductive BootMode
  /-- In the `try` block. -/
  | running
  /-- Out of it, by an exception or at its end; the objects are destroyed. -/
  | unwinding (error : Option Failure)
  /-- Everything is destroyed, and the error is logged. -/
  | returned (error : Option Failure)
  /-- `std::terminate`. -/
  | terminated
  deriving DecidableEq

/-- The descriptors of the process; the statements that are left; `fd`, while it is neither closed
nor handed over; the objects that exist, the last one first; the workers that were not joined; the
openings that the statements made, and those that were closed by hand; the calls that were made on
openings. -/
structure Boot where
  fds : Fds
  rest : List Stmt
  fd : Option ℕ
  locals : List Local
  joinable : ℕ
  made : List ℕ
  dropped : List ℕ
  calls : List (ℕ × FdCall)
  mode : BootMode

inductive BootLabel
  /-- The next statement does what it should, and a test what it finds. -/
  | ok
  /-- The call of the next statement opens the descriptor `n`. -/
  | opened (n : ℕ)
  /-- The call of the next statement fails. -/
  | fails (e : Errno)
  /-- A call that takes no part throws. -/
  | throws (f : Failure)
  /-- The last object is destroyed. -/
  | destroy
  /-- The end of the `try` block, or of `main`. -/
  | leave
  /-- An operation of the rest of the process. -/
  | other (o : FdOp)

/-- The operation closes the descriptor `n`, or gives it to an object. -/
def FdOp.takes : FdOp → ℕ → Bool
  | .closeFile m, n => m = n
  | .construct _ next, n | .reset _ next, n => next = n
  | _, _ => false

/-- The label of a step of `main`. -/
def BootLabel.own : BootLabel → Bool
  | .other _ => false
  | _ => true

namespace Boot

def init (stmts : List Stmt) : Boot := ⟨.init, stmts, none, [], 0, [], [], [], .running⟩

/-- An exception leaves the `try` block; `fd` is whatever it is. -/
def raise (s : Boot) (f : Failure) : Boot := { s with rest := [], mode := .unwinding (some f) }

/-- `close(fd)`, and an exception. -/
def closeAndRaise (s : Boot) (f : Failure) : Option Boot :=
  s.fd.bind fun n => (opStep s.fds (.closeFile n)).map fun fds =>
    raise { s with
      fds := fds
      fd := none
      dropped := s.dropped ++ (s.fds.files n).toList } f

/-- `fd` is handed to an object. -/
def handOver (s : Boot) (o : ℕ → FdOp) (locals : List Local) : Option Boot :=
  s.fd.bind fun n => (opStep s.fds (o n)).map fun fds =>
    { s with fds := fds, fd := none, locals := locals }

/-- What a statement does if its calls succeed. -/
def exec (s : Boot) : Stmt → Option Boot
  | .call => some s
  | .openFd _ => none
  | .check _ effect =>
      s.fd.map fun n =>
        { s with calls := s.calls ++ (s.fds.files n).toList.map fun id => (id, effect) }
  | .test text passed => if passed then some s else s.closeAndRaise (.runtimeError text)
  | .construct x => s.handOver (fun n => .construct x.number n) (.unique x :: s.locals)
  | .default x =>
      (opStep s.fds (.construct x.number (-1))).map fun fds =>
        { s with fds := fds, locals := .unique x :: s.locals }
  | .reset x => s.handOver (fun n => .reset x.number n) s.locals
  | .vector => some { s with locals := .workers :: s.locals }
  | .thread => some { s with joinable := s.joinable + 1 }
  | .join => some { s with joinable := 0 }

/-- What a statement throws if its call fails. -/
def fail (s : Boot) (e : Errno) : Stmt → Option Boot
  | .openFd action => some (s.raise (.sysError action e))
  | .check action _ => s.closeAndRaise (.sysError action e)
  | _ => none

/-- The last object is destroyed; a worker that was not joined ends the process. -/
def destroyLocal (s : Boot) (locals : List Local) : Local → Option Boot
  | .unique x =>
      (opStep s.fds (.destroy x.number)).map fun fds => { s with fds := fds, locals := locals }
  | .workers =>
      some (if s.joinable = 0 then { s with locals := locals } else { s with mode := .terminated })

def bootStep (s : Boot) : BootLabel → Option Boot
  | .ok =>
      match s.mode, s.rest with
      | .running, stmt :: rest => exec { s with rest := rest } stmt
      | _, _ => none
  | .opened n =>
      match s.mode, s.rest with
      | .running, .openFd _ :: rest => (opStep s.fds (.openFile n)).map fun fds =>
          { s with fds := fds, rest := rest, fd := some n, made := s.made ++ [s.fds.next] }
      | _, _ => none
  | .fails e =>
      match s.mode, s.rest with
      | .running, stmt :: _ => s.fail e stmt
      | _, _ => none
  | .throws f =>
      match s.mode, s.rest with
      | .running, stmt :: _ => if stmt = .call ∨ stmt = .thread then some (s.raise f) else none
      | _, _ => none
  | .destroy =>
      match s.mode, s.locals with
      | .unwinding _, x :: locals => s.destroyLocal locals x
      | _, _ => none
  | .leave =>
      match s.mode, s.rest, s.locals with
      | .running, [], _ => some { s with mode := .unwinding none }
      | .unwinding error, _, [] => some { s with mode := .returned error }
      | _, _, _ => none
  | .other o =>
      if (∀ x ∈ o.objects, 7 ≤ x) ∧ s.fd.any o.takes = false then
        (opStep s.fds o).map fun fds => { s with fds := fds }
      else none

/-- How often the opening `id` was closed: by hand, or by a `UniqueFd`. -/
def closings (s : Boot) (id : ℕ) : ℕ := s.dropped.count id + s.fds.closes.count (some id)

/-- `main` is over. -/
def ended (s : Boot) : Prop := (∃ error, s.mode = .returned error) ∨ s.mode = .terminated

/-! ### The branches of a step -/

/-- The branches of `bootStep`: where `main` stands, what it finds, and where it goes. -/
inductive BootMove (s : Boot) : BootLabel → Boot → Prop
  | exec {stmt : Stmt} {rest : List Stmt} {t : Boot} (hmode : s.mode = .running)
      (hrest : s.rest = stmt :: rest) (hst : exec { s with rest := rest } stmt = some t) :
      BootMove s .ok t
  | opened {n : ℕ} {action : Bytes} {rest : List Stmt} {fds : Fds} (hmode : s.mode = .running)
      (hrest : s.rest = .openFd action :: rest) (hop : opStep s.fds (.openFile n) = some fds) :
      BootMove s (.opened n)
        { s with fds := fds, rest := rest, fd := some n, made := s.made ++ [s.fds.next] }
  | raise {l : BootLabel} {stmt : Stmt} {rest : List Stmt} (f : Failure)
      (hmode : s.mode = .running) (hrest : s.rest = stmt :: rest)
      (hstmt : (∃ action, stmt = .openFd action) ∨ stmt = .call ∨ stmt = .thread) :
      BootMove s l (s.raise f)
  | closeAndRaise {e : Errno} {f : Failure} {t : Boot} (hmode : s.mode = .running)
      (hst : s.closeAndRaise f = some t) : BootMove s (.fails e) t
  | destroy {error : Option Failure} {x : Place} {locals : List Local} {fds : Fds}
      (hmode : s.mode = .unwinding error) (hlocals : s.locals = .unique x :: locals)
      (hop : opStep s.fds (.destroy x.number) = some fds) :
      BootMove s .destroy { s with fds := fds, locals := locals }
  | destroyWorkers {error : Option Failure} {locals : List Local}
      (hmode : s.mode = .unwinding error) (hlocals : s.locals = .workers :: locals)
      (hzero : s.joinable = 0) : BootMove s .destroy { s with locals := locals }
  | terminate {error : Option Failure} {locals : List Local} (hmode : s.mode = .unwinding error)
      (hlocals : s.locals = .workers :: locals) (hpos : s.joinable ≠ 0) :
      BootMove s .destroy { s with mode := .terminated }
  | finish (hmode : s.mode = .running) (hrest : s.rest = []) :
      BootMove s .leave { s with mode := .unwinding none }
  | returns {error : Option Failure} (hmode : s.mode = .unwinding error) (hlocals : s.locals = []) :
      BootMove s .leave { s with mode := .returned error }
  | other {o : FdOp} {fds : Fds} (hobjects : ∀ x ∈ o.objects, 7 ≤ x)
      (htakes : s.fd.any o.takes = false) (hop : opStep s.fds o = some fds) :
      BootMove s (.other o) { s with fds := fds }

theorem bootStep_move {s t : Boot} {l : BootLabel} (h : bootStep s l = some t) :
    BootMove s l t := by
  cases l with
  | ok =>
      simp only [bootStep] at h
      split at h
      · rename_i stmt rest hmode hrest
        exact .exec hmode hrest h
      · cases h
  | opened n =>
      simp only [bootStep] at h
      split at h
      · rename_i action rest hmode hrest
        obtain ⟨fds, hop, rfl⟩ := Option.map_eq_some_iff.mp h
        exact .opened hmode hrest hop
      · cases h
  | fails e =>
      simp only [bootStep] at h
      split at h
      · rename_i stmt rest hmode hrest
        cases stmt with
        | openFd action =>
            cases h
            exact .raise _ hmode hrest (Or.inl ⟨action, rfl⟩)
        | check action effect => exact .closeAndRaise hmode h
        | _ => cases h
      · cases h
  | throws f =>
      simp only [bootStep] at h
      split at h
      · rename_i stmt rest hmode hrest
        split_ifs at h with hstmt
        cases h
        exact .raise f hmode hrest (Or.inr hstmt)
      · cases h
  | destroy =>
      simp only [bootStep] at h
      split at h
      · rename_i error x locals hmode hlocals
        cases x with
        | unique x =>
            obtain ⟨fds, hop, rfl⟩ := Option.map_eq_some_iff.mp h
            exact .destroy hmode hlocals hop
        | workers =>
            simp only [destroyLocal, Option.some.injEq] at h
            split_ifs at h with hzero
            · cases h
              exact .destroyWorkers hmode hlocals hzero
            · cases h
              exact .terminate hmode hlocals hzero
      · cases h
  | leave =>
      simp only [bootStep] at h
      split at h
      · rename_i hmode hrest
        cases h
        exact .finish hmode hrest
      · rename_i error hmode hlocals
        cases h
        exact .returns hmode hlocals
      · cases h
  | other o =>
      simp only [bootStep] at h
      split_ifs at h with hguard
      obtain ⟨fds, hop, rfl⟩ := Option.map_eq_some_iff.mp h
      exact .other hguard.1 hguard.2 hop

end Boot

/-! ### What an operation does to the other descriptors -/

namespace Fds

variable {s t : Fds} {o : FdOp}

/-- What an operation does to openings: a descriptor is open as before, or just opened; what is
closed was held; what is adopted was taken; what nobody holds stays open unless it is taken. -/
structure Moved (s t : Fds) (o : FdOp) : Prop where
  next : s.next ≤ t.next
  files : ∀ {n id}, t.files n = some id → s.files n = some id ∨ id = s.next
  closed : ∀ {c}, c ∈ t.closes → c ∉ s.closes →
    ∃ x n, s.Has x n ∧ c = s.files n ∧ t.files n = none
  adopted : ∀ {id}, id ∈ t.adopted → id ∉ s.adopted → ∃ n, o.takes n = true ∧ s.files n = some id
  kept : ∀ {n id}, s.files n = some id → id ∉ s.adopted → o.takes n = false →
    t.files n = some id

/-- The descriptors and the records are as before. -/
theorem moved_of_eq (hfiles : t.files = s.files) (hnext : t.next = s.next)
    (hcloses : t.closes = s.closes) (hadopted : t.adopted = s.adopted) : Moved s t o where
  next := hnext.ge
  files h := Or.inl (hfiles ▸ h)
  closed h hnot := absurd (hcloses ▸ h) hnot
  adopted h hnot := absurd (hadopted ▸ h) hnot
  kept h _ _ := hfiles ▸ h

/-- `reset` closes what the object holds, and nothing else. -/
theorem moved_reset (hs : Owned s) {x : ℕ} {fd : ℤ} (hx : s.objs x = some fd) (next : ℤ) :
    Moved s (s.reset x fd next) o ∧
      ∀ {n id}, (s.reset x fd next).files n = some id → s.files n = some id := by
  by_cases hfd : 0 ≤ fd
  · obtain ⟨m, rfl⟩ := Int.eq_ofNat_of_zero_le hfd
    obtain ⟨id, hfile, hadopted, -, -⟩ := hs.held hx
    have hfiles : (s.reset x m next).files = Function.update s.files m none := by
      simp only [reset, if_pos hfd, setFd, Fds.close, Int.toNat_natCast]
    have hcloses : (s.reset x m next).closes = s.closes ++ [s.files m] := by
      simp only [reset, if_pos hfd, setFd, Fds.close, Int.toNat_natCast]
    have hsub : ∀ {n id}, (s.reset x m next).files n = some id → s.files n = some id := by
      intro n id' h
      rw [hfiles, Function.update_apply] at h
      split_ifs at h
      exact h
    refine ⟨⟨?_, fun h => Or.inl (hsub h), ?_, ?_, ?_⟩, hsub⟩
    · simp only [reset, if_pos hfd, setFd, Fds.close, le_refl]
    · intro c hc hnot
      rw [hcloses, List.mem_append, List.mem_singleton] at hc
      refine ⟨x, m, hx, hc.resolve_left hnot, ?_⟩
      rw [hfiles, Function.update_self]
    · intro id' hid' hnot
      simp only [reset, if_pos hfd, setFd, Fds.close] at hid'
      exact absurd hid' hnot
    · intro n id' hn hnot _
      rw [hfiles, Function.update_of_ne, hn]
      rintro rfl
      rw [hfile] at hn
      cases hn
      exact hnot hadopted
  · have heq : s.reset x fd next = s.setFd x next := by rw [reset, if_neg hfd]
    rw [heq]
    exact ⟨moved_of_eq rfl rfl rfl rfl, id⟩

/-- An object is given a descriptor behind that. -/
theorem Moved.adopt {next : ℤ} (h : Moved s t o)
    (hsub : ∀ {n id}, t.files n = some id → s.files n = some id)
    (htakes : ∀ n : ℕ, next = n → o.takes n = true) : Moved s (t.adopt next) o where
  next := h.next
  files := h.files
  closed := h.closed
  adopted := by
    intro id hid hnot
    rcases List.mem_append.mp hid with hid | hid
    · exact h.adopted hid hnot
    · have hfile : t.file next = some id := Option.mem_toList.mp hid
      unfold file at hfile
      split_ifs at hfile with hnext
      exact ⟨next.toNat, htakes _ (Int.toNat_of_nonneg hnext).symm, hsub hfile⟩
  kept := h.kept

theorem moved_op (hs : Owned s) (h : opStep s o = some t) : Moved s t o := by
  cases o with
  | openFile m =>
      simp only [opStep] at h
      split at h
      · rename_i hm
        cases h
        refine ⟨Nat.le_succ _, ?_, fun hc hnot => absurd hc hnot, fun hid hnot => absurd hid hnot,
          ?_⟩
        · intro n id hn
          simp only [Function.update_apply] at hn
          split_ifs at hn
          · exact Or.inr (Option.some.inj hn).symm
          · exact Or.inl hn
        · intro n id hn _ _
          refine (Function.update_of_ne ?_ _ _).trans hn
          rintro rfl
          rw [hm] at hn
          cases hn
      · cases h
  | closeFile m =>
      simp only [opStep] at h
      split at h
      · cases h
      · split_ifs at h
        cases h
        refine ⟨le_refl _, ?_, fun hc hnot => absurd hc hnot, fun hid hnot => absurd hid hnot, ?_⟩
        · intro n id hn
          simp only [Function.update_apply] at hn
          split_ifs at hn
          exact Or.inl hn
        · intro n id hn _ htakes
          refine (Function.update_of_ne ?_ _ _).trans hn
          rintro rfl
          simp [FdOp.takes] at htakes
  | construct y next =>
      simp only [opStep] at h
      split at h
      · split_ifs at h
        cases h
        refine Moved.adopt (moved_of_eq rfl rfl rfl rfl) id ?_
        intro n hn
        exact decide_eq_true hn
      · cases h
  | reset y next =>
      simp only [opStep] at h
      split at h
      · cases h
      · rename_i fd hy
        split_ifs at h
        cases h
        obtain ⟨hmoved, hsub⟩ := moved_reset (o := .reset y next) hs hy next
        refine hmoved.adopt hsub ?_
        intro n hn
        exact decide_eq_true hn
  | moveConstruct y z =>
      simp only [opStep] at h
      split at h
      · cases h
        exact moved_of_eq rfl rfl rfl rfl
      · cases h
  | moveAssign y z =>
      simp only [opStep] at h
      split at h
      · rename_i fd other hy hz
        split_ifs at h
        · cases h
          have hmoved := (moved_reset (o := .moveAssign y z) hs hy (-1)).1
          exact ⟨hmoved.next, hmoved.files, hmoved.closed, hmoved.adopted, hmoved.kept⟩
        · cases h
          exact moved_of_eq rfl rfl rfl rfl
      · cases h
  | release y =>
      simp only [opStep] at h
      split at h
      · cases h
      · cases h
        exact moved_of_eq rfl rfl rfl rfl
  | destroy y =>
      simp only [opStep] at h
      split at h
      · cases h
      · rename_i fd hy
        cases h
        have hmoved := (moved_reset (o := .destroy y) hs hy (-1)).1
        exact ⟨hmoved.next, hmoved.files, hmoved.closed, hmoved.adopted, hmoved.kept⟩

/-- The opening `id` is over. -/
def Shut (s : Fds) (id : ℕ) : Prop := id < s.next ∧ ∀ n, s.files n ≠ some id

/-- **An opening that is over stays so**, even if its number is given out again. -/
theorem Shut.op {id : ℕ} (hid : Shut s id) (h : Moved s t o) : Shut t id := by
  refine ⟨hid.1.trans_le h.next, ?_⟩
  intro n hn
  rcases h.files hn with hn | rfl
  · exact hid.2 n hn
  · exact lt_irrefl _ hid.1

/-- What a `UniqueFd` has closed is over. -/
theorem shut_closed (hs : Owned s) (h : Moved s t o) (hshut : ∀ id, some id ∈ s.closes → Shut s id)
    {id : ℕ} (hid : some id ∈ t.closes) : Shut t id := by
  by_cases hold : some id ∈ s.closes
  · exact (hshut id hold).op h
  · obtain ⟨x, n, -, hfile, hnone⟩ := h.closed hid hold
    have hlt : id < s.next := hs.minted hfile.symm
    refine ⟨hlt.trans_le h.next, ?_⟩
    intro m hm
    rcases h.files hm with hm' | rfl
    · have hmn : m = n := hs.apart hm' hfile.symm
      rw [hmn, hnone] at hm
      cases hm
    · exact lt_irrefl _ hlt

/-- The objects that an operation does not touch are as before. -/
theorem opStep_objs {x : ℕ} (h : opStep s o = some t) (hx : x ∉ o.objects) :
    t.objs x = s.objs x := by
  cases o with
  | openFile m =>
      simp only [opStep] at h
      split at h
      · cases h
        rfl
      · cases h
  | closeFile m =>
      simp only [opStep] at h
      split at h
      · cases h
      · split_ifs at h
        cases h
        rfl
  | construct y next =>
      simp only [opStep] at h
      split at h
      · split_ifs at h
        cases h
        exact Function.update_of_ne (List.ne_of_not_mem_cons hx) _ _
      · cases h
  | reset y next =>
      simp only [opStep] at h
      split at h
      · cases h
      · split_ifs at h
        cases h
        exact reset_objs_of_ne s (List.ne_of_not_mem_cons hx) _ _
  | moveConstruct y z =>
      have hxy : x ≠ y := List.ne_of_not_mem_cons hx
      have hxz : x ≠ z := List.ne_of_not_mem_cons (List.not_mem_of_not_mem_cons hx)
      simp only [opStep] at h
      split at h
      · cases h
        exact (Function.update_of_ne hxz _ _).trans (Function.update_of_ne hxy _ _)
      · cases h
  | moveAssign y z =>
      have hxy : x ≠ y := List.ne_of_not_mem_cons hx
      have hxz : x ≠ z := List.ne_of_not_mem_cons (List.not_mem_of_not_mem_cons hx)
      simp only [opStep] at h
      split at h
      · split_ifs at h
        · cases h
          refine (Function.update_of_ne hxz _ _).trans ?_
          exact (Function.update_of_ne hxy _ _).trans (reset_objs_of_ne s hxy _ _)
        · cases h
          rfl
      · cases h
  | release y =>
      simp only [opStep] at h
      split at h
      · cases h
      · cases h
        exact Function.update_of_ne (List.ne_of_not_mem_cons hx) _ _
  | destroy y =>
      have hxy : x ≠ y := List.ne_of_not_mem_cons hx
      simp only [opStep] at h
      split at h
      · cases h
      · cases h
        exact (Function.update_of_ne hxy _ _).trans (reset_objs_of_ne s hxy _ _)

/-- A holder keeps its descriptor, or the descriptor is closed: by its `reset` or its end. -/
theorem Owned.held_or_closed (hs : Owned s) {x n id : ℕ} (hx : s.Has x n)
    (hid : s.files n = some id) (ho : x ∈ o.objects → o = .destroy x ∨ ∃ next, o = .reset x next)
    (h : opStep s o = some t) : (t.Has x n ∧ t.files n = some id) ∨ some id ∈ t.closes := by
  by_cases hmem : x ∈ o.objects
  · right
    have hcloses : ∀ next, some id ∈ (s.reset x n next).closes := by
      intro next
      simp [reset, setFd, Fds.close, hid]
    have hx' : s.objs x = some (n : ℤ) := hx
    rcases ho hmem with rfl | ⟨next, rfl⟩
    · simp only [opStep, hx', Option.some.injEq] at h
      rw [← h]
      exact hcloses (-1)
    · simp only [opStep, hx'] at h
      split_ifs at h
      cases h
      exact hcloses next
  · left
    obtain ⟨hhas, hfiles⟩ := hs.other hx hmem h
    exact ⟨hhas, hfiles.trans hid⟩

theorem opStep_construct {x : ℕ} {next : ℤ} (h : opStep s (.construct x next) = some t) :
    s.objs x = none ∧ t.objs x = some next ∧ t.files = s.files := by
  simp only [opStep] at h
  split at h
  · rename_i hx
    split_ifs at h
    cases h
    exact ⟨hx, Function.update_self _ _ _, rfl⟩
  · cases h

theorem opStep_reset {x n id : ℕ} (hs : Owned s) (hid : s.files n = some id)
    (hnot : id ∉ s.adopted) (h : opStep s (.reset x n) = some t) :
    t.Has x n ∧ t.files n = some id := by
  simp only [opStep] at h
  split at h
  · cases h
  · rename_i fd hx
    split_ifs at h
    cases h
    refine ⟨reset_objs_self s x fd n, ?_⟩
    exact (moved_reset (o := .openFile 0) hs hx n).1.kept hid hnot rfl

theorem opStep_destroy_objs {x : ℕ} (h : opStep s (.destroy x) = some t) : t.objs x = none := by
  simp only [opStep] at h
  split at h
  · cases h
  · cases h
    exact Function.update_self _ _ _

end Fds

/-! ### Tidy statements -/

/-- No statement can throw, and none opens a descriptor, while `fd` is one that it does not close,
and every object is constructed once; `held` says that `fd` is a descriptor, and `ls` which objects
exist. -/
def tidy : Bool → List Local → List Stmt → Bool
  | held, _, [] => !held
  | held, ls, .call :: rest => !held && tidy false ls rest
  | held, ls, .openFd _ :: rest => !held && tidy true ls rest
  | held, ls, .check _ _ :: rest => held && tidy true ls rest
  | held, ls, .test _ _ :: rest => held && tidy true ls rest
  | held, ls, .construct x :: rest =>
      held && .unique x ∉ ls && tidy false (.unique x :: ls) rest
  | held, ls, .default x :: rest =>
      !held && .unique x ∉ ls && tidy false (.unique x :: ls) rest
  | held, ls, .reset x :: rest => held && .unique x ∈ ls && tidy false ls rest
  | held, ls, .vector :: rest => !held && .workers ∉ ls && tidy false (.workers :: ls) rest
  | held, ls, .thread :: rest => !held && .workers ∈ ls && tidy false ls rest
  | held, ls, .join :: rest => !held && tidy false ls rest

theorem tidy_threads {ls : List Local} (h : .workers ∈ ls) (n : ℕ) (rest : List Stmt) :
    tidy false ls (List.replicate n .thread ++ rest) = tidy false ls rest := by
  induction n with
  | zero => rfl
  | succ n ih => simp [List.replicate_succ, tidy, h, ih]

/-- **The daemon is tidy**, whatever it is configured to be. -/
theorem tidy_startupStmts (config : AppConfig) (validHost : Bool) :
    tidy false [] (startupStmts config validHost) = true := by
  have hworkers : Local.workers ∈ [.workers, .unique .listenFd, .unique .udpFd] :=
    List.mem_cons_self
  simp only [startupStmts, prepareStmts, serveStmts, createUdpSocket, listenOn, createSignalFd,
    createControlSocket, epollLoop, startSource, List.append_assoc, List.cons_append,
    List.nil_append]
  simp only [tidy, tidy_threads hworkers]
  by_cases hsim : config.simulateDevice = true
  · rw [if_pos hsim, startTimer]
    simp only [List.cons_append, List.nil_append, tidy]
    decide
  · rw [if_neg hsim, openDevice]
    simp only [List.cons_append, List.nil_append, tidy]
    decide

/-! ### No descriptor is lost -/

namespace Boot

variable {s t : Boot}

/-- Where the opening `id` is: closed by hand or by its object, in `fd`, or in an object. -/
def Placed (s : Boot) (id : ℕ) : Prop :=
  id ∈ s.dropped ∨ some id ∈ s.fds.closes ∨ (∃ n, s.fd = some n ∧ s.fds.files n = some id) ∨
    ∃ x n, .unique x ∈ s.locals ∧ s.fds.Has x.number n ∧ s.fds.files n = some id

/-- The descriptors and the openings that the statements made. -/
structure Kept (s : Boot) : Prop where
  owned : s.fds.Owned
  fresh : ∀ {n}, s.fd = some n →
    ∃ id ∈ s.made, s.fds.files n = some id ∧ id ∉ s.fds.adopted
  there : ∀ x : Place, (s.fds.objs x.number).isSome = true ↔ .unique x ∈ s.locals
  placed : ∀ id ∈ s.made, s.Placed id
  shut : ∀ {id}, id ∈ s.dropped ∨ some id ∈ s.fds.closes → s.fds.Shut id
  apart : ∀ {id}, id ∈ s.dropped → id ∉ s.fds.adopted
  once : s.dropped.Nodup

theorem kept_init (stmts : List Stmt) : Kept (init stmts) where
  owned := Fds.owned_init
  fresh h := by cases h
  there x := by simp [init, Fds.init]
  placed id h := by cases h
  shut h := by simp [init, Fds.init] at h
  apart h := by cases h
  once := List.nodup_nil

/-- What an operation leaves as it is, whoever makes it. -/
theorem Kept.op (h : Kept s) {o : FdOp} {fds : Fds} (hop : opStep s.fds o = some fds) :
    fds.Owned ∧ (∀ {id}, id ∈ s.dropped ∨ some id ∈ fds.closes → fds.Shut id) ∧
      ∀ {id}, id ∈ s.dropped → id ∉ fds.adopted := by
  have hmoved : s.fds.Moved fds o := Fds.moved_op h.owned hop
  refine ⟨Fds.owned_op h.owned hop, ?_, ?_⟩
  · rintro id (hid | hid)
    · exact (h.shut (Or.inl hid)).op hmoved
    · exact Fds.shut_closed h.owned hmoved (fun id' hid' => h.shut (Or.inr hid')) hid
  · intro id hid hadopted
    obtain ⟨n, -, hn⟩ := hmoved.adopted hadopted (h.apart hid)
    exact (h.shut (Or.inl hid)).2 n hn

/-- What is closed or held stays closed or held, if the operation destroys or resets the objects of
`main` that it touches. -/
theorem Kept.placed_op (h : Kept s) {o : FdOp} {fds : Fds} (hop : opStep s.fds o = some fds)
    (ho : ∀ x : Place, x.number ∈ o.objects → (s.fds.objs x.number).isSome = true →
      o = .destroy x.number ∨ ∃ next, o = .reset x.number next)
    {id : ℕ} (hid : s.Placed id) :
    id ∈ s.dropped ∨ some id ∈ fds.closes ∨ (∃ n, s.fd = some n ∧ s.fds.files n = some id) ∨
      ∃ x n, .unique x ∈ s.locals ∧ fds.Has x.number n ∧ fds.files n = some id := by
  rcases hid with hid | hid | hid | ⟨x, n, hx, hhas, hn⟩
  · exact Or.inl hid
  · exact Or.inr (Or.inl ((Fds.opStep_records hop).2.subset hid))
  · exact Or.inr (Or.inr (Or.inl hid))
  · have hsome : (s.fds.objs x.number).isSome = true := (h.there x).mpr hx
    rcases h.owned.held_or_closed hhas hn (fun hmem => ho x hmem hsome) hop with hheld | hclosed
    · exact Or.inr (Or.inr (Or.inr ⟨x, n, hx, hheld⟩))
    · exact Or.inr (Or.inl hclosed)

/-- The rest of the process. -/
theorem Kept.other (h : Kept s) {o : FdOp} {fds : Fds} (hop : opStep s.fds o = some fds)
    (hobjects : ∀ x ∈ o.objects, 7 ≤ x) (htakes : s.fd.any o.takes = false) :
    Kept { s with fds := fds } := by
  obtain ⟨howned, hshut, hapart⟩ := h.op hop
  have hmoved : s.fds.Moved fds o := Fds.moved_op h.owned hop
  have hours : ∀ x : Place, x.number ∉ o.objects := by
    intro x hx
    have hle := hobjects _ hx
    have hlt := x.number_lt
    omega
  have hfree : ∀ {n}, s.fd = some n → o.takes n = false := by
    intro n hn
    rw [hn, Option.any_some] at htakes
    exact htakes
  -- `fd` is left alone
  have hfd : ∀ {n id}, s.fd = some n → s.fds.files n = some id → fds.files n = some id ∧
      id ∉ fds.adopted := by
    intro n id hn hid
    obtain ⟨id', -, hid', hnot⟩ := h.fresh hn
    rw [hid] at hid'
    cases hid'
    refine ⟨hmoved.kept hid hnot (hfree hn), ?_⟩
    intro hadopted
    obtain ⟨m, hm, hid''⟩ := hmoved.adopted hadopted hnot
    rw [h.owned.apart hid'' hid, hfree hn] at hm
    cases hm
  refine ⟨howned, ?_, ?_, ?_, hshut, hapart, h.once⟩
  · intro n hn
    obtain ⟨id, hmade, hid, -⟩ := h.fresh hn
    exact ⟨id, hmade, hfd hn hid⟩
  · intro x
    show (fds.objs x.number).isSome = true ↔ _
    rw [Fds.opStep_objs hop (hours x)]
    exact h.there x
  · intro id hid
    rcases h.placed_op hop (fun x hx => absurd hx (hours x)) (h.placed id hid) with
      hid | hid | ⟨n, hn, hid⟩ | hid
    · exact Or.inl hid
    · exact Or.inr (Or.inl hid)
    · exact Or.inr (Or.inr (Or.inl ⟨n, hn, (hfd hn hid).1⟩))
    · exact Or.inr (Or.inr (Or.inr hid))

/-- A call opens a descriptor. -/
theorem Kept.opened (h : Kept s) (hfd : s.fd = none) {n : ℕ} {fds : Fds} (rest : List Stmt)
    (hop : opStep s.fds (.openFile n) = some fds) :
    Kept { s with fds := fds, rest := rest, fd := some n, made := s.made ++ [s.fds.next] } := by
  have hother : Kept { s with fds := fds } := by
    refine h.other hop (by simp [FdOp.objects]) ?_
    rw [hfd, Option.any_none]
  have hnew : fds.files n = some s.fds.next := by
    simp only [opStep] at hop
    split at hop
    · cases hop
      exact Function.update_self _ _ _
    · cases hop
  have hnot : s.fds.next ∉ fds.adopted := by
    intro hadopted
    have hold : s.fds.next ∉ s.fds.adopted := fun hmem => lt_irrefl _ (h.owned.known _ hmem)
    obtain ⟨m, -, hm⟩ := (Fds.moved_op h.owned hop).adopted hadopted hold
    exact lt_irrefl _ (h.owned.minted hm)
  refine ⟨hother.owned, ?_, hother.there, ?_, hother.shut, hother.apart, hother.once⟩
  · intro m hm
    cases hm
    exact ⟨_, List.mem_append_right _ (List.mem_singleton_self _), hnew, hnot⟩
  · intro id hid
    rcases List.mem_append.mp hid with hid | hid
    · rcases hother.placed id hid with hid | hid | ⟨m, hm, -⟩ | hid
      · exact Or.inl hid
      · exact Or.inr (Or.inl hid)
      · have hm' : s.fd = some m := hm
        rw [hfd] at hm'
        cases hm'
      · exact Or.inr (Or.inr (Or.inr hid))
    · rw [List.mem_singleton.mp hid]
      exact Or.inr (Or.inr (Or.inl ⟨n, rfl, hnew⟩))

/-- `fd` is closed by hand. -/
theorem Kept.closed (h : Kept s) {n : ℕ} (hfd : s.fd = some n) {fds : Fds}
    (hop : opStep s.fds (.closeFile n) = some fds) :
    Kept { s with fds := fds, fd := none, dropped := s.dropped ++ (s.fds.files n).toList } := by
  obtain ⟨howned, hshut, hapart⟩ := h.op hop
  obtain ⟨id, -, hid, hnot⟩ := h.fresh hfd
  have hfds : fds = { s.fds with files := Function.update s.fds.files n none } := by
    simp only [opStep, hid] at hop
    split_ifs at hop
    exact (Option.some.inj hop).symm
  have hgone : fds.Shut id := by
    rw [hfds]
    refine ⟨h.owned.minted hid, ?_⟩
    intro m hm
    simp only [Function.update_apply] at hm
    split_ifs at hm with hmn
    exact hmn (h.owned.apart hm hid)
  have hadopted : id ∉ fds.adopted := by
    rw [hfds]
    exact hnot
  rw [hid, Option.toList_some]
  refine ⟨howned, ?_, ?_, ?_, ?_, ?_, ?_⟩
  · intro m hm
    cases hm
  · intro x
    show (fds.objs x.number).isSome = true ↔ _
    rw [Fds.opStep_objs hop (by simp [FdOp.objects])]
    exact h.there x
  · intro id' hid'
    rcases h.placed_op hop (fun x hx => by simp [FdOp.objects] at hx) (h.placed id' hid') with
      hid' | hid' | ⟨m, hm, hid'⟩ | hid'
    · exact Or.inl (List.mem_append_left _ hid')
    · exact Or.inr (Or.inl hid')
    · rw [hfd] at hm
      cases hm
      rw [hid] at hid'
      cases hid'
      exact Or.inl (List.mem_append_right _ (List.mem_singleton_self id))
    · exact Or.inr (Or.inr (Or.inr hid'))
  · rintro id' (hid' | hid')
    · rcases List.mem_append.mp hid' with hid' | hid'
      · exact hshut (Or.inl hid')
      · rw [List.mem_singleton.mp hid']
        exact hgone
    · exact hshut (Or.inr hid')
  · intro id' hid'
    rcases List.mem_append.mp hid' with hid' | hid'
    · exact hapart hid'
    · rw [List.mem_singleton.mp hid']
      exact hadopted
  · refine List.nodup_append.mpr ⟨h.once, List.nodup_singleton id, ?_⟩
    intro a ha b hb hab
    rw [hab, List.mem_singleton.mp hb] at ha
    exact (h.shut (Or.inl ha)).2 n hid

/-- An object is constructed, with `fd` if that is a descriptor. -/
theorem Kept.constructed (h : Kept s) {x : Place} {next : ℤ} {fds : Fds}
    (hop : opStep s.fds (.construct x.number next) = some fds)
    (hnext : ∀ {n}, s.fd = some n → next = n) :
    Kept { s with fds := fds, fd := none, locals := .unique x :: s.locals } := by
  obtain ⟨howned, hshut, hapart⟩ := h.op hop
  obtain ⟨hnone, hobj, hfiles⟩ := Fds.opStep_construct hop
  refine ⟨howned, ?_, ?_, ?_, hshut, hapart, h.once⟩
  · intro m hm
    cases hm
  · intro y
    show (fds.objs y.number).isSome = true ↔ .unique y ∈ Local.unique x :: s.locals
    by_cases hyx : y = x
    · rw [hyx, hobj]
      simp
    · rw [Fds.opStep_objs hop (Place.number_notMem hyx), h.there y]
      simp [hyx]
  · intro id hid
    have hours : ∀ y : Place, y.number ∈ (FdOp.construct x.number next).objects →
        (s.fds.objs y.number).isSome = true → FdOp.construct x.number next = .destroy y.number ∨
          ∃ next', FdOp.construct x.number next = .reset y.number next' := by
      intro y hy hsome
      rw [List.mem_singleton.mp hy, hnone] at hsome
      cases hsome
    rcases h.placed_op hop hours (h.placed id hid) with
      hid | hid | ⟨n, hn, hid⟩ | ⟨y, n, hy, hheld⟩
    · exact Or.inl hid
    · exact Or.inr (Or.inl hid)
    · refine Or.inr (Or.inr (Or.inr ⟨x, n, List.mem_cons_self, ?_, ?_⟩))
      · exact hobj.trans (congrArg some (hnext hn))
      · rw [hfiles]
        exact hid
    · exact Or.inr (Or.inr (Or.inr ⟨y, n, List.mem_cons_of_mem _ hy, hheld⟩))

/-- `x.reset(fd)`. -/
theorem Kept.reset (h : Kept s) {x : Place} {n : ℕ} {fds : Fds}
    (hop : opStep s.fds (.reset x.number n) = some fds) (hfd : s.fd = some n)
    (hx : .unique x ∈ s.locals) : Kept { s with fds := fds, fd := none } := by
  obtain ⟨howned, hshut, hapart⟩ := h.op hop
  obtain ⟨id, -, hid, hnot⟩ := h.fresh hfd
  obtain ⟨hhas, hfile⟩ := Fds.opStep_reset h.owned hid hnot hop
  refine ⟨howned, ?_, ?_, ?_, hshut, hapart, h.once⟩
  · intro m hm
    cases hm
  · intro y
    show (fds.objs y.number).isSome = true ↔ .unique y ∈ s.locals
    by_cases hyx : y = x
    · rw [hyx]
      refine iff_of_true ?_ hx
      rw [show fds.objs x.number = some (n : ℤ) from hhas]
      rfl
    · rw [Fds.opStep_objs hop (Place.number_notMem hyx)]
      exact h.there y
  · intro id' hid'
    have hours : ∀ y : Place, y.number ∈ (FdOp.reset x.number n).objects →
        (s.fds.objs y.number).isSome = true → FdOp.reset x.number n = .destroy y.number ∨
          ∃ next, FdOp.reset x.number n = .reset y.number next := by
      intro y hy _
      rw [List.mem_singleton.mp hy]
      exact Or.inr ⟨n, rfl⟩
    rcases h.placed_op hop hours (h.placed id' hid') with hid' | hid' | ⟨m, hm, hid'⟩ | hheld
    · exact Or.inl hid'
    · exact Or.inr (Or.inl hid')
    · rw [hfd] at hm
      cases hm
      rw [hid] at hid'
      cases hid'
      exact Or.inr (Or.inr (Or.inr ⟨x, n, hx, hhas, hfile⟩))
    · exact Or.inr (Or.inr (Or.inr hheld))

/-- An object is destroyed. -/
theorem Kept.destroy (h : Kept s) {x : Place} {locals : List Local} {fds : Fds}
    (hop : opStep s.fds (.destroy x.number) = some fds) (hfd : s.fd = none)
    (hlocals : s.locals = .unique x :: locals) (hx : .unique x ∉ locals) :
    Kept { s with fds := fds, locals := locals } := by
  obtain ⟨howned, hshut, hapart⟩ := h.op hop
  have hnone : fds.objs x.number = none := Fds.opStep_destroy_objs hop
  refine ⟨howned, ?_, ?_, ?_, hshut, hapart, h.once⟩
  · intro m hm
    have hm' : s.fd = some m := hm
    rw [hfd] at hm'
    cases hm'
  · intro y
    show (fds.objs y.number).isSome = true ↔ .unique y ∈ locals
    by_cases hyx : y = x
    · rw [hyx, hnone]
      exact iff_of_false (by simp) hx
    · rw [Fds.opStep_objs hop (Place.number_notMem hyx), h.there y, hlocals]
      simp [hyx]
  · intro id hid
    have hours : ∀ y : Place, y.number ∈ (FdOp.destroy x.number).objects →
        (s.fds.objs y.number).isSome = true → FdOp.destroy x.number = .destroy y.number ∨
          ∃ next, FdOp.destroy x.number = .reset y.number next := by
      intro y hy _
      rw [List.mem_singleton.mp hy]
      exact Or.inl rfl
    rcases h.placed_op hop hours (h.placed id hid) with
      hid | hid | ⟨m, hm, -⟩ | ⟨y, n, hy, hhas, hn⟩
    · exact Or.inl hid
    · exact Or.inr (Or.inl hid)
    · rw [hfd] at hm
      cases hm
    · rw [hlocals] at hy
      rcases List.mem_cons.mp hy with heq | hy
      · cases heq
        exact absurd hhas (Fds.not_has_of_none hnone n)
      · exact Or.inr (Or.inr (Or.inr ⟨y, n, hy, hhas, hn⟩))

/-- The vector of the workers comes and goes. -/
theorem Kept.frame (h : Kept s) {locals : List Local} (rest : List Stmt) (joinable : ℕ)
    (calls : List (ℕ × FdCall)) (mode : BootMode)
    (hlocals : ∀ x, .unique x ∈ locals ↔ .unique x ∈ s.locals) :
    Kept { s with
      rest := rest, locals := locals, joinable := joinable, calls := calls, mode := mode } := by
  refine ⟨h.owned, h.fresh, ?_, ?_, h.shut, h.apart, h.once⟩
  · intro x
    exact (h.there x).trans (hlocals x).symm
  · intro id hid
    rcases h.placed id hid with hid | hid | hid | ⟨x, n, hx, hheld⟩
    · exact Or.inl hid
    · exact Or.inr (Or.inl hid)
    · exact Or.inr (Or.inr (Or.inl hid))
    · exact Or.inr (Or.inr (Or.inr ⟨x, n, (hlocals x).mpr hx, hheld⟩))

/-- What holds from the first statement to the end of `main`. -/
structure Booted (s : Boot) : Prop where
  kept : Kept s
  typed : s.mode = .running → tidy s.fd.isSome s.locals s.rest = true
  free : s.mode ≠ .running → s.fd = none
  nodup : s.locals.Nodup
  joinable : 0 < s.joinable → .workers ∈ s.locals
  left : ∀ error, s.mode = .returned error → s.locals = []
  ended : s.mode = .terminated → 0 < s.joinable

theorem booted_init {stmts : List Stmt} (h : tidy false [] stmts = true) :
    Booted (init stmts) where
  kept := kept_init stmts
  typed _ := h
  free hmode := absurd rfl hmode
  nodup := List.nodup_nil
  joinable hpos := by cases hpos
  left _ hmode := by cases hmode
  ended hmode := by cases hmode

theorem fd_eq_none {fd : Option ℕ} (h : fd.isSome = false) : fd = none := by
  simpa using h

/-- In the `try` block. -/
theorem Kept.booted (h : Kept s) (hmode : s.mode = .running)
    (htidy : tidy s.fd.isSome s.locals s.rest = true) (hnodup : s.locals.Nodup)
    (hjoinable : 0 < s.joinable → .workers ∈ s.locals) : Booted s := by
  refine ⟨h, fun _ => htidy, fun hne => absurd hmode hne, hnodup, hjoinable, ?_, ?_⟩
  · intro error hmode'
    rw [hmode] at hmode'
    cases hmode'
  · intro hmode'
    rw [hmode] at hmode'
    cases hmode'

/-- On the way out. -/
theorem Kept.unwinding (h : Kept s) {error : Option Failure} (hmode : s.mode = .unwinding error)
    (hfd : s.fd = none) (hnodup : s.locals.Nodup)
    (hjoinable : 0 < s.joinable → .workers ∈ s.locals) : Booted s := by
  refine ⟨h, ?_, fun _ => hfd, hnodup, hjoinable, ?_, ?_⟩
  · intro hmode'
    rw [hmode] at hmode'
    cases hmode'
  · intro error' hmode'
    rw [hmode] at hmode'
    cases hmode'
  · intro hmode'
    rw [hmode] at hmode'
    cases hmode'

/-- An exception that finds `fd` handed over. -/
theorem Booted.raise (h : Booted s) (hfd : s.fd = none) (f : Failure) : Booted (s.raise f) := by
  have hkept : Kept (s.raise f) :=
    h.kept.frame [] s.joinable s.calls (.unwinding (some f)) fun _ => Iff.rfl
  exact hkept.unwinding rfl hfd h.nodup h.joinable

/-- An exception behind `close(fd)`. -/
theorem Booted.closeAndRaise (h : Booted s) {f : Failure} (hst : s.closeAndRaise f = some t) :
    Booted t := by
  unfold Boot.closeAndRaise at hst
  obtain ⟨n, hfd, hst⟩ := Option.bind_eq_some_iff.mp hst
  obtain ⟨fds, hop, rfl⟩ := Option.map_eq_some_iff.mp hst
  have hkept := (h.kept.closed hfd hop).frame [] s.joinable s.calls (.unwinding (some f))
    fun _ => Iff.rfl
  exact hkept.unwinding rfl rfl h.nodup h.joinable

/-- The next statement does what it should. -/
theorem booted_exec {stmt : Stmt} {rest : List Stmt} (h : Booted s) (hmode : s.mode = .running)
    (hrest : s.rest = stmt :: rest) (hst : exec { s with rest := rest } stmt = some t) :
    Booted t := by
  have htidy := h.typed hmode
  rw [hrest] at htidy
  have hkept : Kept { s with rest := rest } :=
    h.kept.frame rest s.joinable s.calls s.mode fun _ => Iff.rfl
  cases stmt with
  | call =>
      simp only [tidy, Bool.and_eq_true, Bool.not_eq_true'] at htidy
      cases hst
      refine hkept.booted hmode ?_ h.nodup h.joinable
      exact htidy.1 ▸ htidy.2
  | openFd action => cases hst
  | check action effect =>
      simp only [tidy, Bool.and_eq_true] at htidy
      obtain ⟨n, hfd, rfl⟩ := Option.map_eq_some_iff.mp hst
      refine (h.kept.frame rest s.joinable _ s.mode fun _ => Iff.rfl).booted hmode ?_ h.nodup
        h.joinable
      exact htidy.1 ▸ htidy.2
  | test text passed =>
      simp only [tidy, Bool.and_eq_true] at htidy
      have hbooted : Booted { s with rest := rest } :=
        hkept.booted hmode (htidy.1 ▸ htidy.2) h.nodup h.joinable
      simp only [exec] at hst
      split_ifs at hst
      · cases hst
        exact hbooted
      · exact hbooted.closeAndRaise hst
  | construct x =>
      simp only [tidy, Bool.and_eq_true, decide_eq_true_eq] at htidy
      obtain ⟨n, hfd, hst⟩ := Option.bind_eq_some_iff.mp hst
      obtain ⟨fds, hop, rfl⟩ := Option.map_eq_some_iff.mp hst
      refine (hkept.constructed hop ?_).booted hmode htidy.2 ?_ ?_
      · intro m hm
        rw [hfd] at hm
        cases hm
        rfl
      · exact List.nodup_cons.mpr ⟨htidy.1.2, h.nodup⟩
      · exact fun hpos => List.mem_cons_of_mem _ (h.joinable hpos)
  | default x =>
      simp only [tidy, Bool.and_eq_true, Bool.not_eq_true', decide_eq_true_eq] at htidy
      obtain ⟨fds, hop, rfl⟩ := Option.map_eq_some_iff.mp hst
      have hfd : s.fd = none := fd_eq_none htidy.1.1
      have hkept' := hkept.constructed hop (by
        intro m hm
        have hm' : s.fd = some m := hm
        rw [hfd] at hm'
        cases hm')
      rw [← hfd] at hkept'
      refine hkept'.booted hmode ?_ ?_ ?_
      · exact htidy.1.1 ▸ htidy.2
      · exact List.nodup_cons.mpr ⟨htidy.1.2, h.nodup⟩
      · exact fun hpos => List.mem_cons_of_mem _ (h.joinable hpos)
  | reset x =>
      simp only [tidy, Bool.and_eq_true, decide_eq_true_eq] at htidy
      obtain ⟨n, hfd, hst⟩ := Option.bind_eq_some_iff.mp hst
      obtain ⟨fds, hop, rfl⟩ := Option.map_eq_some_iff.mp hst
      exact (hkept.reset hop hfd htidy.1.2).booted hmode htidy.2 h.nodup h.joinable
  | vector =>
      simp only [tidy, Bool.and_eq_true, Bool.not_eq_true', decide_eq_true_eq] at htidy
      cases hst
      refine (h.kept.frame rest s.joinable s.calls s.mode ?_).booted hmode ?_ ?_ ?_
      · intro x
        simp
      · exact htidy.1.1 ▸ htidy.2
      · exact List.nodup_cons.mpr ⟨htidy.1.2, h.nodup⟩
      · exact fun _ => List.mem_cons_self
  | thread =>
      simp only [tidy, Bool.and_eq_true, Bool.not_eq_true', decide_eq_true_eq] at htidy
      cases hst
      refine (h.kept.frame rest (s.joinable + 1) s.calls s.mode fun _ => Iff.rfl).booted hmode ?_
        h.nodup fun _ => htidy.1.2
      exact htidy.1.1 ▸ htidy.2
  | join =>
      simp only [tidy, Bool.and_eq_true, Bool.not_eq_true'] at htidy
      cases hst
      refine (h.kept.frame rest 0 s.calls s.mode fun _ => Iff.rfl).booted hmode ?_ h.nodup ?_
      · exact htidy.1 ▸ htidy.2
      · intro hpos
        cases hpos

/-- A tidy statement that opens a descriptor, or that throws what it is not to blame for, finds
`fd` handed over. -/
theorem tidy_handedOver {held : Bool} {ls : List Local} {stmt : Stmt} {rest : List Stmt}
    (h : tidy held ls (stmt :: rest) = true)
    (hstmt : (∃ action, stmt = .openFd action) ∨ stmt = .call ∨ stmt = .thread) :
    held = false := by
  rcases hstmt with ⟨action, rfl⟩ | rfl | rfl
  · simp only [tidy, Bool.and_eq_true, Bool.not_eq_true'] at h
    exact h.1
  · simp only [tidy, Bool.and_eq_true, Bool.not_eq_true'] at h
    exact h.1
  · simp only [tidy, Bool.and_eq_true, Bool.not_eq_true'] at h
    exact h.1.1

/-- **Tidy statements lose no descriptor**, whatever fails. -/
theorem booted_step {l : BootLabel} (h : Booted s) (hst : bootStep s l = some t) : Booted t := by
  have hfd : ∀ {error}, s.mode = .unwinding error → s.fd = none := by
    intro error hmode
    exact h.free (by simp [hmode])
  cases bootStep_move hst with
  | exec hmode hrest hst => exact booted_exec h hmode hrest hst
  | opened hmode hrest hop =>
      have htidy := h.typed hmode
      rw [hrest] at htidy
      have hnone : s.fd = none := fd_eq_none (tidy_handedOver htidy (Or.inl ⟨_, rfl⟩))
      simp only [tidy, Bool.and_eq_true] at htidy
      exact (h.kept.opened hnone _ hop).booted hmode htidy.2 h.nodup h.joinable
  | raise f hmode hrest hstmt =>
      have htidy := h.typed hmode
      rw [hrest] at htidy
      exact h.raise (fd_eq_none (tidy_handedOver htidy hstmt)) f
  | closeAndRaise hmode hst => exact h.closeAndRaise hst
  | destroy hmode hlocals hop =>
      have hnodup := h.nodup
      have hjoinable := h.joinable
      rw [hlocals] at hnodup hjoinable
      rw [List.nodup_cons] at hnodup
      refine (h.kept.destroy hop (hfd hmode) hlocals hnodup.1).unwinding hmode (hfd hmode)
        hnodup.2 ?_
      intro hpos
      exact List.mem_of_ne_of_mem (by simp) (hjoinable hpos)
  | destroyWorkers hmode hlocals hzero =>
      have hnodup := h.nodup
      rw [hlocals, List.nodup_cons] at hnodup
      refine (h.kept.frame s.rest s.joinable s.calls s.mode ?_).unwinding hmode (hfd hmode)
        hnodup.2 ?_
      · intro x
        simp [hlocals]
      · intro hpos
        exact absurd hzero hpos.ne'
  | terminate hmode hlocals hpos =>
      have hkept := h.kept.frame s.rest s.joinable s.calls .terminated fun _ => Iff.rfl
      refine ⟨hkept, ?_, fun _ => hfd hmode, h.nodup, h.joinable, ?_,
        fun _ => Nat.pos_of_ne_zero hpos⟩
      · intro hmode'
        cases hmode'
      · intro error' hmode'
        cases hmode'
  | finish hmode hrest =>
      have htidy := h.typed hmode
      rw [hrest] at htidy
      simp only [tidy, Bool.not_eq_true'] at htidy
      exact (h.kept.frame s.rest s.joinable s.calls _ fun _ => Iff.rfl).unwinding rfl
        (fd_eq_none htidy) h.nodup h.joinable
  | returns hmode hlocals =>
      refine ⟨h.kept.frame s.rest s.joinable s.calls _ fun _ => Iff.rfl, ?_, fun _ => hfd hmode,
        h.nodup, h.joinable, fun _ _ => hlocals, ?_⟩
      · intro hmode'
        cases hmode'
      · intro hmode'
        cases hmode'
  | other hobjects htakes hop =>
      exact ⟨h.kept.other hop hobjects htakes, h.typed, h.free, h.nodup, h.joinable, h.left,
        h.ended⟩

/-! ### The way to the end -/

/-- How many steps of its own `main` has left at most. -/
def stepsLeft (s : Boot) : ℕ :=
  2 * s.rest.length + s.locals.length +
    match s.mode with
    | .running => 2
    | .unwinding _ => 1
    | .returned _ | .terminated => 0

theorem closeAndRaise_stepsLeft {f : Failure} (hmode : s.mode = .running)
    (hst : s.closeAndRaise f = some t) : t.stepsLeft < s.stepsLeft := by
  unfold closeAndRaise at hst
  obtain ⟨n, -, hst⟩ := Option.bind_eq_some_iff.mp hst
  obtain ⟨fds, -, rfl⟩ := Option.map_eq_some_iff.mp hst
  simp only [stepsLeft, raise, hmode, List.length_nil]
  omega

theorem exec_stepsLeft {stmt : Stmt} {rest : List Stmt} (hmode : s.mode = .running)
    (hst : exec { s with rest := rest } stmt = some t) :
    t.stepsLeft < 2 * (rest.length + 1) + s.locals.length + 2 := by
  cases stmt with
  | openFd action => cases hst
  | call | thread | join | vector =>
      cases hst
      simp only [stepsLeft, hmode, List.length_cons]
      omega
  | check action effect =>
      obtain ⟨n, -, rfl⟩ := Option.map_eq_some_iff.mp hst
      simp only [stepsLeft, hmode]
      omega
  | test text passed =>
      simp only [exec] at hst
      split_ifs at hst
      · cases hst
        simp only [stepsLeft, hmode]
        omega
      · have hlt := closeAndRaise_stepsLeft (s := { s with rest := rest }) hmode hst
        have heq : stepsLeft { s with rest := rest } = 2 * rest.length + s.locals.length + 2 := by
          simp only [stepsLeft, hmode]
        omega
  | construct x | reset x =>
      obtain ⟨n, -, hst⟩ := Option.bind_eq_some_iff.mp hst
      obtain ⟨fds, -, rfl⟩ := Option.map_eq_some_iff.mp hst
      simp only [stepsLeft, hmode, List.length_cons]
      omega
  | default x =>
      obtain ⟨fds, -, rfl⟩ := Option.map_eq_some_iff.mp hst
      simp only [stepsLeft, hmode, List.length_cons]
      omega

theorem stepsLeft_lt {l : BootLabel} (hl : l.own = true) (hst : bootStep s l = some t) :
    t.stepsLeft < s.stepsLeft := by
  cases bootStep_move hst with
  | exec hmode hrest hst =>
      have hlt := exec_stepsLeft hmode hst
      simp only [stepsLeft, hmode, hrest, List.length_cons] at hlt ⊢
      exact hlt
  | opened hmode hrest hop =>
      simp only [stepsLeft, hmode, hrest, List.length_cons]
      omega
  | raise f hmode hrest hstmt =>
      simp only [stepsLeft, raise, hmode, List.length_nil]
      omega
  | closeAndRaise hmode hst => exact closeAndRaise_stepsLeft hmode hst
  | destroy hmode hlocals hop | destroyWorkers hmode hlocals hzero =>
      simp only [stepsLeft, hmode, hlocals, List.length_cons]
      omega
  | terminate hmode _ _ | finish hmode _ | returns hmode _ =>
      simp only [stepsLeft, hmode]
      omega
  | other hobjects htakes hop => cases hl

/-- **`main` can always go on**, until it is over. -/
theorem exists_own (h : Booted s) (hopen : ¬ s.ended) :
    ∃ l, l.own = true ∧ (bootStep s l).isSome = true := by
  have hobj : ∀ {x : Place}, .unique x ∈ s.locals → ∃ v, s.fds.objs x.number = some v :=
    fun hx => Option.isSome_iff_exists.mp ((h.kept.there _).mpr hx)
  have hnew : ∀ {x : Place}, .unique x ∉ s.locals → s.fds.objs x.number = none := by
    intro x hx
    have hnone := mt (h.kept.there x).mp hx
    rwa [Bool.not_eq_true, Option.isSome_eq_false_iff, Option.isNone_iff_eq_none] at hnone
  have hfresh : ∀ {n}, s.fd = some n → s.fds.isFresh n = true := by
    intro n hn
    obtain ⟨id, -, hid, hnot⟩ := h.kept.fresh hn
    exact Fds.isFresh_iff.mpr (Or.inr ⟨n, id, rfl, hid, hnot⟩)
  cases hmode : s.mode with
  | returned error => exact absurd (Or.inl ⟨error, hmode⟩) hopen
  | terminated => exact absurd (Or.inr hmode) hopen
  | unwinding error =>
      cases hlocals : s.locals with
      | nil => exact ⟨.leave, rfl, by simp [bootStep, hmode, hlocals]⟩
      | cons x locals =>
          cases x with
          | workers => exact ⟨.destroy, rfl, by simp [bootStep, hmode, hlocals, destroyLocal]⟩
          | unique x =>
              obtain ⟨v, hv⟩ := hobj (x := x) (by simp [hlocals])
              exact ⟨.destroy, rfl, by simp [bootStep, hmode, hlocals, destroyLocal, opStep, hv]⟩
  | running =>
      have htidy := h.typed hmode
      cases hrest : s.rest with
      | nil => exact ⟨.leave, rfl, by simp [bootStep, hmode, hrest]⟩
      | cons stmt rest =>
          rw [hrest] at htidy
          cases stmt with
          | call | vector | thread | join =>
              exact ⟨.ok, rfl, by simp [bootStep, hmode, hrest, exec]⟩
          | openFd action => exact ⟨.fails .EINTR, rfl, by simp [bootStep, hmode, hrest, fail]⟩
          | check action effect =>
              simp only [tidy, Bool.and_eq_true] at htidy
              exact ⟨.ok, rfl, by simp [bootStep, hmode, hrest, exec, htidy.1]⟩
          | test text passed =>
              simp only [tidy, Bool.and_eq_true] at htidy
              obtain ⟨n, hn⟩ := Option.isSome_iff_exists.mp htidy.1
              obtain ⟨id, -, hid, hnot⟩ := h.kept.fresh hn
              refine ⟨.ok, rfl, ?_⟩
              cases passed with
              | true => simp [bootStep, hmode, hrest, exec]
              | false => simp [bootStep, hmode, hrest, exec, closeAndRaise, hn, opStep, hid, hnot]
          | construct x =>
              simp only [tidy, Bool.and_eq_true, decide_eq_true_eq] at htidy
              obtain ⟨n, hn⟩ := Option.isSome_iff_exists.mp htidy.1.1
              refine ⟨.ok, rfl, ?_⟩
              simp [bootStep, hmode, hrest, exec, handOver, hn, opStep, hnew htidy.1.2, hfresh hn]
          | default x =>
              simp only [tidy, Bool.and_eq_true, decide_eq_true_eq] at htidy
              have hminus : s.fds.isFresh (-1) = true := Fds.isFresh_iff.mpr (Or.inl rfl)
              refine ⟨.ok, rfl, ?_⟩
              simp [bootStep, hmode, hrest, exec, opStep, hnew htidy.1.2, hminus]
          | reset x =>
              simp only [tidy, Bool.and_eq_true, decide_eq_true_eq] at htidy
              obtain ⟨n, hn⟩ := Option.isSome_iff_exists.mp htidy.1.1
              obtain ⟨v, hv⟩ := hobj htidy.1.2
              refine ⟨.ok, rfl, ?_⟩
              simp [bootStep, hmode, hrest, exec, handOver, hn, opStep, hv, hfresh hn]

/-- What is closed was closed once, by hand or by its object. -/
theorem Kept.closings_eq_one (h : Kept s) {id : ℕ}
    (hid : id ∈ s.dropped ∨ some id ∈ s.fds.closes) : s.closings id = 1 := by
  -- what an object has closed was adopted, and what is closed by hand was not
  have hadopted : some id ∈ s.fds.closes → id ∈ s.fds.adopted := by
    intro hmem
    obtain ⟨id', hadopted, heq, -⟩ := h.owned.closed _ hmem
    cases heq
    exact hadopted
  unfold closings
  rcases hid with hid | hid
  · have hcloses : some id ∉ s.fds.closes := fun hmem => h.apart hid (hadopted hmem)
    rw [List.count_eq_one_of_mem h.once hid, List.count_eq_zero_of_not_mem hcloses]
  · have hdropped : id ∉ s.dropped := fun hmem => h.apart hmem (hadopted hid)
    rw [List.count_eq_zero_of_not_mem hdropped, List.count_eq_one_of_mem h.owned.once hid]

theorem Kept.closings_eq_zero (h : Kept s) {id n : ℕ} (hn : s.fds.files n = some id) :
    s.closings id = 0 := by
  have hdropped : id ∉ s.dropped := fun hmem => (h.shut (Or.inl hmem)).2 n hn
  have hcloses : some id ∉ s.fds.closes := fun hmem => (h.shut (Or.inr hmem)).2 n hn
  rw [closings, List.count_eq_zero_of_not_mem hdropped, List.count_eq_zero_of_not_mem hcloses]

/-- **Every descriptor of the daemon is closed exactly once.** However the daemon is configured,
whichever of its calls fail, and whatever the rest of the process opens and closes in between:
* an opening that the start of the daemon made is open, or was closed exactly once, by hand or by
  its `UniqueFd`;
* when `main` has returned, all of them are closed, and every worker was joined or none was created;
  with a worker that was not joined, the process is terminated instead;
* `main` can always go on until it has returned or is terminated, with steps of its own. -/
theorem startup_balanced (config : AppConfig) (validHost : Bool) {s : Boot}
    (h : Reachable bootStep (init (startupStmts config validHost)) s) :
    (∀ id ∈ s.made, s.closings id = 0 ∧ (∃ n, s.fds.files n = some id) ∨
      s.closings id = 1 ∧ ∀ n, s.fds.files n ≠ some id) ∧
    (∀ error, s.mode = .returned error → s.joinable = 0 ∧ ∀ id ∈ s.made, s.closings id = 1) ∧
    (s.mode = .terminated → 0 < s.joinable) ∧
    ∃ ls t, (∀ l ∈ ls, BootLabel.own l = true) ∧ run bootStep s ls = some t ∧ t.ended := by
  have hs : Booted s := h.inv Booted (fun _ _ _ hu huv => booted_step hu huv)
    (booted_init (tidy_startupStmts config validHost))
  have hdec : ∀ u l v, Booted u → BootLabel.own l = true → bootStep u l = some v →
      Booted v ∧ v.stepsLeft < u.stepsLeft :=
    fun u l v hu hl huv => ⟨booted_step hu huv, stepsLeft_lt hl huv⟩
  have hgo : ∀ u, Booted u → ¬ u.ended → ∃ l v, BootLabel.own l = true ∧ bootStep u l = some v := by
    intro u hu hopen
    obtain ⟨l, hl, hsome⟩ := exists_own hu hopen
    obtain ⟨v, hv⟩ := Option.isSome_iff_exists.mp hsome
    exact ⟨l, v, hl, hv⟩
  refine ⟨?_, ?_, hs.ended, exists_run_done hdec hgo hs⟩
  · intro id hid
    have hopen : ∀ n, s.fds.files n = some id → s.closings id = 0 ∧ ∃ n, s.fds.files n = some id :=
      fun n hn => ⟨hs.kept.closings_eq_zero hn, n, hn⟩
    rcases hs.kept.placed id hid with hid | hid | ⟨n, -, hn⟩ | ⟨x, n, -, -, hn⟩
    · exact Or.inr ⟨hs.kept.closings_eq_one (Or.inl hid), (hs.kept.shut (Or.inl hid)).2⟩
    · exact Or.inr ⟨hs.kept.closings_eq_one (Or.inr hid), (hs.kept.shut (Or.inr hid)).2⟩
    · exact Or.inl (hopen n hn)
    · exact Or.inl (hopen n hn)
  · intro error hmode
    have hlocals : s.locals = [] := hs.left error hmode
    have hfd : s.fd = none := hs.free (by simp [hmode])
    refine ⟨?_, ?_⟩
    · by_contra hpos
      have hmem := hs.joinable (Nat.pos_of_ne_zero hpos)
      rw [hlocals] at hmem
      cases hmem
    · intro id hid
      rcases hs.kept.placed id hid with hid | hid | ⟨n, hn, -⟩ | ⟨x, n, hx, -⟩
      · exact hs.kept.closings_eq_one (Or.inl hid)
      · exact hs.kept.closings_eq_one (Or.inr hid)
      · rw [hfd] at hn
        cases hn
      · rw [hlocals] at hx
        cases hx

/-- The TCP port is taken, and meanwhile the number of the UDP socket is given out again. -/
def portTaken : List BootLabel :=
  [.opened 3, .ok, .ok, .ok, .opened 4, .fails (.other 98), .destroy, .destroy,
    .other (.openFile 3), .leave]

theorem startup_balanced_portTaken :
    ∃ s, run bootStep (init (startupStmts {} true)) portTaken = some s ∧ s.made = [0, 1] ∧
      s.mode = .returned (some (.sysError (ascii "bind TCP") (.other 98))) ∧
      ∀ id ∈ s.made, s.closings id = 1 := by
  obtain ⟨s, hs⟩ : ∃ s, run bootStep (init (startupStmts {} true)) portTaken = some s := ⟨_, rfl⟩
  have hmade : (run bootStep (init (startupStmts {} true)) portTaken).map
      (fun s => (s.made, s.mode)) =
        some ([0, 1], .returned (some (.sysError (ascii "bind TCP") (.other 98)))) := rfl
  rw [hs, Option.map_some, Option.some.injEq, Prod.mk.injEq] at hmade
  exact ⟨s, hs, hmade.1, hmade.2, ((startup_balanced {} true ⟨_, hs⟩).2.1 _ hmade.2).2⟩

end Boot

end SensorHub
