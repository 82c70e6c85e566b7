import SensorHub.Codec.Line
import SensorHub.Uapi.Errno
import SensorHub.Uapi.Text

set_option autoImplicit false

/-!
# One control connection

`userspace/src/net/control_server.cpp`, as far as it is about one connection: the state a
`ControlServer::Client` keeps and what `ControlServer::ready` does with the result of each system
call. The two loops of `ready` are cut at their `recv` and `send`; an `Action` is the next of these
calls, or the way `ready` is left.

* `Client`, `Handler`, `Reply`, `RecvResult`, `SendResult`, `Action`.
* `ready`, `onRecv`, `onSend`: the code between two system calls.
* **`onRecv_data`**: a chunk is judged by `LineFrame.frame` of all bytes received.
-/

namespace SensorHub

open LineFrame

/-! `enum EPOLL_EVENTS` -/

def epollIn : UInt32 := 0x001
def epollOut : UInt32 := 0x004
def epollErr : UInt32 := 0x008
def epollHup : UInt32 := 0x010
def epollRdHup : UInt32 := 0x2000

/-- `ControlServer::Client`. -/
structure Client where
  fd : ℕ
  request : Bytes
  response : Bytes
  sent : ℕ
  responding : Bool
  deriving DecidableEq

/-- `Client{std::move(fd), {}, {}, 0, false}`. -/
def Client.new (fd : ℕ) : Client := ⟨fd, [], [], 0, false⟩

/-- How a call of the handler ends. -/
inductive Reply
  | text (response : Bytes)
  /-- It throws a `std::exception`. -/
  | exception
  /-- It throws something else. -/
  | foreign
  deriving DecidableEq

/-- `ControlServer::Handler`, with the state `W` that it reads and changes. -/
abbrev Handler (W : Type*) := W → Bytes → W × Reply

/-- What one `recv` into the buffer of 128 bytes can deliver. -/
structure Chunk where
  bytes : Bytes
  ne_nil : bytes ≠ []
  length_le : bytes.length ≤ 128
  deriving DecidableEq

inductive RecvResult
  | data (chunk : Chunk)
  /-- `recv` returns 0. -/
  | eof
  | err (e : Errno)
  deriving DecidableEq

inductive SendResult
  | sent (n : ℕ)
  | err (e : Errno)
  deriving DecidableEq

/-- What `ready` does next. -/
inductive Action
  | recv
  | send
  /-- It returns. -/
  | wait
  /-- `loop_.modify(fd, EPOLLOUT)`, and it returns. -/
  | wantWrite
  /-- `close_client(fd)`, and it returns. -/
  | close
  /-- An exception leaves it. -/
  | throw
  deriving DecidableEq

def commandFailed : Bytes := ascii "error: command failed\n"
def commandTooLong : Bytes := ascii "error: command too long\n"

/-- `events & (EPOLLERR | EPOLLHUP)`. -/
def broken (events : UInt32) : Bool := events &&& (epollErr ||| epollHup) ≠ 0

/-- The test of the send loop; behind the loop the connection is closed. -/
def Client.sendLoop (client : Client) : Action :=
  if client.sent < client.response.length then .send else .close

/-- The beginning of `ControlServer::ready`, up to the first system call. -/
def ready (client : Client) : Action :=
  if !client.responding then .recv else client.sendLoop

/-- A line was received. -/
def Client.command {W : Type*} (client : Client) (handler : Handler W) (w : W) (line : Bytes) :
    Action × W × Client :=
  match handler w line with
  | (w', .text response) =>
      let client := { client with response := response, responding := true }
      (client.sendLoop, w', client)
  | (w', .exception) =>
      let client := { client with response := commandFailed, responding := true }
      (client.sendLoop, w', client)
  | (w', .foreign) => (.throw, w', client)

/-- What the peer is told about a reply; `none` if the exception is not caught. -/
def Reply.response : Reply → Option Bytes
  | .text response => some response
  | .exception => some commandFailed
  | .foreign => none

section Command

variable {W : Type*} {handler : Handler W} {w : W} {line : Bytes}

theorem Client.command_of_some (client : Client) {response : Bytes}
    (h : (handler w line).2.response = some response) :
    client.command handler w line =
      ({ client with response := response, responding := true }.sendLoop, (handler w line).1,
        { client with response := response, responding := true }) := by
  unfold Client.command
  rcases hr : handler w line with ⟨w', text | _ | _⟩ <;> rw [hr] at h <;> cases h <;> rfl

theorem Client.command_of_none (client : Client) (h : (handler w line).2.response = none) :
    client.command handler w line = (.throw, (handler w line).1, client) := by
  unfold Client.command
  rcases hr : handler w line with ⟨w', text | _ | _⟩ <;> rw [hr] at h <;> cases h

end Command

/-- The body of the receive loop behind `recv`. -/
def onRecv {W : Type*} (handler : Handler W) (events : UInt32) (w : W) (client : Client) :
    RecvResult → Action × W × Client
  | .err .EINTR => (.recv, w, client)
  | .err .EAGAIN => (if !broken events then .wait else .close, w, client)
  | .err _ => (.close, w, client)
  | .eof => (.close, w, client)
  | .data chunk =>
      let client := { client with request := client.request ++ chunk.bytes }
      match (find newline client.request).filter (· ≤ 127) with
      | some p => client.command handler w (client.request.take p)
      | none =>
          if 127 < client.request.length then
            let client := { client with response := commandTooLong, responding := true }
            (client.sendLoop, w, client)
          else (.recv, w, client)

/-- The body of the send loop behind `send`. -/
def onSend (events : UInt32) (client : Client) : SendResult → Action × Client
  | .err .EINTR => (.send, client)
  | .err .EAGAIN => (if !broken events then .wantWrite else .close, client)
  | .err _ => (.close, client)
  | .sent n =>
      if n = 0 then (.close, client)
      else
        let client := { client with sent := client.sent + n }
        (client.sendLoop, client)

theorem Client.command_fd {W : Type*} (client : Client) (handler : Handler W) (w : W)
    (line : Bytes) : (client.command handler w line).2.2.fd = client.fd := by
  unfold Client.command
  split <;> rfl

theorem onRecv_fd {W : Type*} (handler : Handler W) (events : UInt32) (w : W) (client : Client)
    (result : RecvResult) : (onRecv handler events w client result).2.2.fd = client.fd := by
  unfold onRecv
  split
  · rfl
  · rfl
  · rfl
  · rfl
  · simp only
    split
    · rw [Client.command_fd]
    · split_ifs <;> rfl

theorem Client.sendLoop_ne_throw (client : Client) : client.sendLoop ≠ .throw := by
  unfold Client.sendLoop
  split_ifs <;> nofun

theorem ready_ne_throw (client : Client) : ready client ≠ .throw := by
  unfold ready
  split_ifs
  · nofun
  · exact client.sendLoop_ne_throw

theorem onSend_ne_throw (events : UInt32) (client : Client) (result : SendResult) :
    (onSend events client result).1 ≠ .throw := by
  unfold onSend
  split
  · nofun
  · simp only
    split_ifs <;> nofun
  · nofun
  · split_ifs
    · nofun
    · exact Client.sendLoop_ne_throw _

/-- The handler is called at most once, and only what it throws leaves `ready`. -/
theorem onRecv_handler {W : Type*} (handler : Handler W) (events : UInt32) (w : W)
    (client : Client) (result : RecvResult) :
    ((onRecv handler events w client result).2.1 = w ∧
      (onRecv handler events w client result).1 ≠ .throw) ∨
    ∃ line, (onRecv handler events w client result).2.1 = (handler w line).1 ∧
      ((onRecv handler events w client result).1 = .throw → (handler w line).2 = .foreign) := by
  unfold onRecv
  split
  · exact Or.inl ⟨rfl, nofun⟩
  · refine Or.inl ⟨rfl, ?_⟩
    split_ifs <;> nofun
  · exact Or.inl ⟨rfl, nofun⟩
  · exact Or.inl ⟨rfl, nofun⟩
  · rename_i chunk
    simp only
    split
    · rename_i p _
      refine Or.inr ⟨(client.request ++ chunk.bytes).take p, ?_⟩
      unfold Client.command
      rcases handler w ((client.request ++ chunk.bytes).take p) with ⟨w', text | _ | _⟩
      · exact ⟨rfl, fun h => absurd h (Client.sendLoop_ne_throw _)⟩
      · exact ⟨rfl, fun h => absurd h (Client.sendLoop_ne_throw _)⟩
      · exact ⟨rfl, fun _ => rfl⟩
    · split_ifs
      · exact Or.inl ⟨rfl, Client.sendLoop_ne_throw _⟩
      · exact Or.inl ⟨rfl, nofun⟩

theorem onSend_fd (events : UInt32) (client : Client) (result : SendResult) :
    (onSend events client result).2.fd = client.fd := by
  unfold onSend
  split
  · rfl
  · rfl
  · rfl
  · split_ifs <;> rfl

/-- The socket never takes more than it is offered. -/
def Client.takes (client : Client) : SendResult → Bool
  | .sent n => n ≤ client.response.length - client.sent
  | .err _ => true

/-! ### The verdict on a chunk -/

theorem frame_of_find {s : Bytes} {p : ℕ} (h : (find newline s).filter (· ≤ 127) = some p) :
    frame newline 127 s = .line (s.take p) := by
  obtain ⟨hp, hle⟩ := Option.filter_eq_some_iff.mp h
  obtain ⟨hsplit, hno, -⟩ := find_eq_some hp
  have hlen : (s.take p).length ≤ 127 := by
    rw [List.length_take]
    have := of_decide_eq_true hle
    omega
  rw [hsplit, frame_line hno hlen, ← hsplit]

theorem frame_of_not_find {s : Bytes} (h : (find newline s).filter (· ≤ 127) = none) :
    frame newline 127 s = if 127 < s.length then .overlong else .pending := by
  rw [frame, if_neg]
  intro hmem
  cases hf : find newline s with
  | none => exact find_eq_none hf (List.mem_of_mem_take hmem)
  | some p =>
      -- the first newline is too far away to be among these bytes
      rw [hf] at h
      have hfar := Option.filter_eq_none_iff.mp h p rfl
      simp only [decide_eq_true_eq] at hfar
      refine (find_eq_some hf).2.1 ?_
      exact List.take_subset_take_left s (by omega) hmem

/-- **A chunk is judged by all bytes received so far.** -/
theorem onRecv_data {W : Type*} (handler : Handler W) (events : UInt32) (w : W) (client : Client)
    (chunk : Chunk) :
    onRecv handler events w client (.data chunk) =
      match frame newline 127 (client.request ++ chunk.bytes) with
      | .line line =>
          { client with request := client.request ++ chunk.bytes }.command handler w line
      | .overlong =>
          let client := { client with
            request := client.request ++ chunk.bytes, response := commandTooLong,
            responding := true }
          (client.sendLoop, w, client)
      | .pending => (.recv, w, { client with request := client.request ++ chunk.bytes }) := by
  simp only [onRecv]
  cases hf : (find newline (client.request ++ chunk.bytes)).filter (· ≤ 127) with
  | some p => rw [frame_of_find hf]
  | none =>
      rw [frame_of_not_find hf]
      split_ifs <;> rfl

end SensorHub
