import SensorHub.Net.Control
import SensorHub.Trans.Run

set_option autoImplicit false

/-!
# The control protocol

One control connection on its own: the event loop calls `ready` again and again, and every `recv`
and `send` has any result the label gives it. Other connections do not matter here; what the
handler shares with them is its state.

* `Conn`, `connStep`; `received`, `Delivers`, `Quiet`: what the peer sent and how it arrived.
* `Handler.logged`: a handler that records its calls.
* `Framed`, `framed_step`: the connection after the bytes received so far.
* **`control_framing`**: the outcome depends on the stream only.
-/

namespace SensorHub

open LineFrame Trans

/-- Where the connection stands: registered with the event loop, in `ready` before a `recv` or a
`send`, closed, or left by an exception. -/
inductive ConnPc
  | idle
  | recv (events : UInt32)
  | send (events : UInt32)
  | closed
  | thrown
  deriving DecidableEq

def Action.pc (events : UInt32) : Action → ConnPc
  | .recv => .recv events
  | .send => .send events
  | .wait => .idle
  | .wantWrite => .idle
  | .close => .closed
  | .throw => .thrown

/-- A connection, with the state of the handler. -/
structure Conn (W : Type*) where
  world : W
  client : Client
  pc : ConnPc

inductive ConnLabel
  /-- The event loop calls `ready`. -/
  | ready (events : UInt32)
  | recv (result : RecvResult)
  | send (result : SendResult)
  deriving DecidableEq

namespace Conn

variable {W : Type*} {handler : Handler W}

/-- The connection was accepted. -/
def accepted (fd : ℕ) (w : W) : Conn W := ⟨w, Client.new fd, .idle⟩

/-- One step. -/
def connStep (handler : Handler W) (s : Conn W) : ConnLabel → Option (Conn W)
  | .ready events =>
      match s.pc with
      | .idle => some { s with pc := (SensorHub.ready s.client).pc events }
      | _ => none
  | .recv result =>
      match s.pc with
      | .recv events =>
          let (action, w, client) := onRecv handler events s.world s.client result
          some ⟨w, client, action.pc events⟩
      | _ => none
  | .send result =>
      match s.pc with
      | .send events =>
          if s.client.takes result then
            let (action, client) := onSend events s.client result
            some ⟨s.world, client, action.pc events⟩
          else none
      | _ => none

end Conn

/-! ### What the peer sends -/

/-- The bytes that arrive in a step. -/
def ConnLabel.bytes : ConnLabel → Bytes
  | .recv (.data chunk) => chunk.bytes
  | _ => []

@[simp] theorem ConnLabel.bytes_ready (events : UInt32) : (ready events).bytes = [] := rfl
@[simp] theorem ConnLabel.bytes_data (chunk : Chunk) :
    (recv (.data chunk)).bytes = chunk.bytes := rfl
@[simp] theorem ConnLabel.bytes_eof : (recv .eof).bytes = [] := rfl
@[simp] theorem ConnLabel.bytes_err (e : Errno) : (recv (.err e)).bytes = [] := rfl

/-- No error is reported for the connection: `ready` is called without `EPOLLERR` and `EPOLLHUP`,
and a `recv` that fails was interrupted or finds nothing. -/
def ConnLabel.Quiet : ConnLabel → Prop
  | .ready events => broken events = false
  | .recv (.err e) => e = .EINTR ∨ e = .EAGAIN
  | _ => True

/-- The bytes received in a run. -/
def received (ls : List ConnLabel) : Bytes := ls.flatMap ConnLabel.bytes

/-- The end of the stream was seen. -/
def Ended (ls : List ConnLabel) : Prop := .recv .eof ∈ ls

/-- The run delivers `stream`: what arrives is the beginning of it, and the end of it is reported
behind its last byte only. -/
structure Delivers (stream : Bytes) (ls : List ConnLabel) : Prop where
  initial : received ls <+: stream
  whole : Ended ls → received ls = stream

/-- The handler with a record of the commands it was called with. -/
def Handler.logged {W : Type*} (handler : Handler W) : Handler (W × List Bytes) :=
  fun (w, log) cmd => (((handler w cmd).1, log ++ [cmd]), (handler w cmd).2)

namespace Conn

variable {W : Type*}

/-- The connection still reads: `ready` can be called, or waits for the result of a `recv`. -/
def Reading (s : Conn W) : Prop :=
  s.pc = .idle ∨ ∃ events, broken events = false ∧ s.pc = .recv events

/-- The connection has its response, and reads no more. -/
structure Answered (response : Bytes) (s : Conn W) : Prop where
  responding : s.client.responding = true
  response_eq : s.client.response = response
  done : ∀ events, s.pc ≠ .recv events

/-- Nothing was decided: the bytes `rx` are kept, and the connection reads on until it is closed at
the end of the stream. -/
structure Undecided (rx : Bytes) (eof : Prop) (s : Conn W) : Prop where
  request : s.client.request = rx
  response : s.client.response = []
  responding : s.client.responding = false
  reading : ¬ eof → Reading s
  closed : eof → s.pc = .closed

/-- The connection after the bytes `rx` have arrived, and the end of the stream if `eof`. -/
def Framed (handler : Handler W) (w : W) (rx : Bytes) (eof : Prop) (s : Conn (W × List Bytes)) :
    Prop :=
  match frame newline 127 rx with
  | .pending => s.world = (w, []) ∧ Undecided rx eof s
  | .overlong => s.world = (w, []) ∧ Answered commandTooLong s
  | .line cmd => s.world = ((handler w cmd).1, [cmd]) ∧
      match (handler w cmd).2.response with
      | some response => Answered response s
      | none => s.pc = .thrown

theorem sendLoop_ne_recv (client : Client) (events events' : UInt32) :
    client.sendLoop.pc events ≠ .recv events' := by
  unfold Client.sendLoop
  split_ifs <;> nofun

theorem onSend_spec (events events' : UInt32) (client : Client) (result : SendResult) :
    (onSend events client result).2.responding = client.responding ∧
    (onSend events client result).2.response = client.response ∧
    (onSend events client result).1.pc events ≠ .recv events' := by
  unfold onSend
  split
  · exact ⟨rfl, rfl, nofun⟩
  · refine ⟨rfl, rfl, ?_⟩
    split_ifs <;> nofun
  · exact ⟨rfl, rfl, nofun⟩
  · split_ifs
    · exact ⟨rfl, rfl, nofun⟩
    · exact ⟨rfl, rfl, sendLoop_ne_recv _ _ _⟩

/-- **Nothing changes the response, and nothing more is read.** -/
theorem answered_step {handler : Handler W} {response : Bytes} {s t : Conn W} {l : ConnLabel}
    (hs : Answered response s) (h : connStep handler s l = some t) :
    Answered response t ∧ t.world = s.world ∧ l.bytes = [] ∧ l ≠ .recv .eof := by
  cases l with
  | ready events =>
      simp only [connStep] at h
      split at h <;> cases h
      refine ⟨⟨hs.responding, hs.response_eq, ?_⟩, rfl, rfl, nofun⟩
      intro events'
      simp only [ready, hs.responding, Bool.not_true, Bool.false_eq_true, if_false]
      exact sendLoop_ne_recv _ _ _
  | recv result =>
      simp only [connStep] at h
      split at h
      · rename_i events hpc
        exact absurd hpc (hs.done events)
      · cases h
  | send result =>
      simp only [connStep] at h
      split at h
      · split_ifs at h
        cases h
        rename_i events _ _
        refine ⟨⟨?_, ?_, fun events' => (onSend_spec events events' s.client result).2.2⟩, rfl, rfl,
          nofun⟩
        · rw [(onSend_spec events events s.client result).1, hs.responding]
        · rw [(onSend_spec events events s.client result).2.1, hs.response_eq]
      · cases h

/-- A command was received: the handler is called with it, and its reply is what is sent. -/
theorem framed_command (handler : Handler W) (w : W) (client : Client) (events : UInt32)
    (cmd : Bytes) {action : Action} {w' : W × List Bytes} {client' : Client}
    (h : client.command handler.logged (w, []) cmd = (action, w', client')) :
    w' = ((handler w cmd).1, [cmd]) ∧
      match (handler w cmd).2.response with
      | some response => Answered response ⟨w', client', action.pc events⟩
      | none => action.pc events = .thrown := by
  have hlogged : (handler.logged (w, []) cmd).2 = (handler w cmd).2 := rfl
  cases hresp : (handler w cmd).2.response with
  | some response =>
      rw [Client.command_of_some client (hlogged ▸ hresp)] at h
      cases h
      exact ⟨rfl, rfl, rfl, fun _ => sendLoop_ne_recv _ _ _⟩
  | none =>
      rw [Client.command_of_none client (hlogged ▸ hresp)] at h
      cases h
      exact ⟨rfl, rfl⟩

/-- A chunk arrives while nothing is decided. -/
theorem framed_data {handler : Handler W} {w : W} {s : Conn (W × List Bytes)} {eof : Prop}
    {events : UInt32} (hw : s.world = (w, [])) (hs : Undecided s.client.request eof s)
    (heof : ¬ eof) (hev : broken events = false) (chunk : Chunk) {action : Action}
    {w' : W × List Bytes} {client : Client}
    (h : onRecv handler.logged events s.world s.client (.data chunk) = (action, w', client)) :
    Framed handler w (s.client.request ++ chunk.bytes) eof ⟨w', client, action.pc events⟩ := by
  rw [onRecv_data, hw] at h
  unfold Framed
  cases hv : frame newline 127 (s.client.request ++ chunk.bytes) with
  | pending =>
      rw [hv] at h
      cases h
      exact ⟨rfl, rfl, hs.response, hs.responding, fun _ => Or.inr ⟨events, hev, rfl⟩,
        fun he => absurd he heof⟩
  | overlong =>
      rw [hv] at h
      cases h
      exact ⟨rfl, rfl, rfl, fun _ => sendLoop_ne_recv _ _ _⟩
  | line cmd =>
      rw [hv] at h
      exact framed_command handler w _ events cmd h

/-- The connection keeps its state and reads on. -/
theorem Undecided.framed {handler : Handler W} {w : W} {rx : Bytes} {eof : Prop}
    {s : Conn (W × List Bytes)} (hv : frame newline 127 rx = .pending) (hw : s.world = (w, []))
    (hs : Undecided rx eof s) : Framed handler w rx eof s := by
  unfold Framed
  rw [hv]
  exact ⟨hw, hs⟩

theorem undecided_recv {handler : Handler W} {w : W} {rx : Bytes} {eof : Prop}
    {s : Conn (W × List Bytes)} {events : UInt32} {result : RecvResult}
    (hv : frame newline 127 rx = .pending) (hw : s.world = (w, [])) (hs : Undecided rx eof s)
    (heof : ¬ eof) (hev : broken events = false) (hl : (ConnLabel.recv result).Quiet)
    {action : Action} {w' : W × List Bytes} {client : Client}
    (h : onRecv handler.logged events s.world s.client result = (action, w', client)) :
    Framed handler w (rx ++ (ConnLabel.recv result).bytes)
      (eof ∨ ConnLabel.recv result = .recv .eof) ⟨w', client, action.pc events⟩ := by
  obtain ⟨rfl, hresp, hresponding, hreading, hclosed⟩ := hs
  cases result with
  | data chunk =>
      have := framed_data hw ⟨rfl, hresp, hresponding, hreading, hclosed⟩ heof hev chunk h
      simpa using this
  | eof =>
      cases h
      refine Undecided.framed ?_ hw ⟨?_, hresp, hresponding, fun hn => ?_, fun _ => rfl⟩
      · simpa using hv
      · simp
      · exact absurd (Or.inr rfl) hn
  | err e =>
      have hne : ¬ (eof ∨ ConnLabel.recv (.err e) = .recv .eof) := by
        rintro (he | he)
        · exact heof he
        · cases he
      have hkeep : w' = s.world ∧ client = s.client ∧
          (action = .recv ∨ action = .wait) := by
        rcases hl with rfl | rfl
        · cases h
          exact ⟨rfl, rfl, Or.inl rfl⟩
        · simp only [onRecv, hev, Bool.not_false, if_true] at h
          cases h
          exact ⟨rfl, rfl, Or.inr rfl⟩
      obtain ⟨rfl, rfl, ha⟩ := hkeep
      refine Undecided.framed ?_ hw ⟨?_, hresp, hresponding, fun _ => ?_, fun he => absurd he hne⟩
      · simpa using hv
      · simp
      · rcases ha with rfl | rfl
        · exact Or.inr ⟨events, hev, rfl⟩
        · exact Or.inl rfl

theorem undecided_step {handler : Handler W} {w : W} {rx : Bytes} {eof : Prop}
    {s t : Conn (W × List Bytes)} {l : ConnLabel} (hv : frame newline 127 rx = .pending)
    (hw : s.world = (w, [])) (hs : Undecided rx eof s) (hl : l.Quiet)
    (h : connStep handler.logged s l = some t) :
    Framed handler w (rx ++ l.bytes) (eof ∨ l = .recv .eof) t := by
  have heof : ¬ eof := by
    intro he
    have hpc := hs.closed he
    cases l <;> simp only [connStep, hpc] at h <;> cases h
  cases l with
  | ready events =>
      simp only [connStep] at h
      split at h <;> cases h
      rw [ConnLabel.bytes_ready, List.append_nil]
      refine Undecided.framed hv hw
        ⟨hs.request, hs.response, hs.responding, fun _ => ?_, fun he => ?_⟩
      · refine Or.inr ⟨events, hl, ?_⟩
        simp [SensorHub.ready, hs.responding, Action.pc]
      · rcases he with he | he
        · exact absurd he heof
        · cases he
  | recv result =>
      simp only [connStep] at h
      split at h
      · rename_i events hpc
        have hev : broken events = false := by
          rcases hs.reading heof with hidle | ⟨events', hev, hrecv⟩
          · rw [hidle] at hpc; cases hpc
          · rw [hrecv] at hpc; cases hpc; exact hev
        rcases hr : onRecv handler.logged events s.world s.client result with ⟨action, w', client⟩
        rw [hr] at h
        cases h
        exact undecided_recv hv hw hs heof hev hl hr
      · cases h
  | send result =>
      simp only [connStep] at h
      split at h
      · rename_i events hpc
        rcases hs.reading heof with hidle | ⟨events', -, hrecv⟩
        · rw [hidle] at hpc; cases hpc
        · rw [hrecv] at hpc; cases hpc
      · cases h

/-- **One step of the protocol.** What arrived is judged as a whole. -/
theorem framed_step {handler : Handler W} {w : W} {rx : Bytes} {eof : Prop}
    {s t : Conn (W × List Bytes)} {l : ConnLabel} (hs : Framed handler w rx eof s) (hl : l.Quiet)
    (h : connStep handler.logged s l = some t) :
    Framed handler w (rx ++ l.bytes) (eof ∨ l = .recv .eof) t := by
  unfold Framed at hs
  cases hv : frame newline 127 rx with
  | pending =>
      rw [hv] at hs
      exact undecided_step hv hs.1 hs.2 hl h
  | overlong =>
      rw [hv] at hs
      obtain ⟨ht, hw, hb, -⟩ := answered_step hs.2 h
      rw [hb, List.append_nil, Framed, hv]
      exact ⟨hw.trans hs.1, ht⟩
  | line cmd =>
      rw [hv] at hs
      obtain ⟨hw, hs⟩ := hs
      cases hresp : (handler w cmd).2.response with
      | some response =>
          rw [hresp] at hs
          obtain ⟨ht, hw', hb, -⟩ := answered_step hs h
          rw [hb, List.append_nil, Framed, hv]
          simp only [hresp]
          exact ⟨hw'.trans hw, ht⟩
      | none =>
          rw [hresp] at hs
          have hpc : s.pc = .thrown := hs
          cases l <;> simp only [connStep, hpc] at h <;> cases h

theorem framed_accepted (handler : Handler W) (w : W) (fd : ℕ) :
    Framed handler w [] False (accepted fd (w, [])) :=
  Undecided.framed frame_nil rfl ⟨rfl, rfl, rfl, fun _ => Or.inl rfl, nofun⟩

/-- **A run of the protocol.** -/
theorem framed_run {handler : Handler W} {w : W} {rx : Bytes} {eof : Prop}
    {s t : Conn (W × List Bytes)} {ls : List ConnLabel} (hs : Framed handler w rx eof s)
    (hquiet : ∀ l ∈ ls, l.Quiet) (h : run (connStep handler.logged) s ls = some t) :
    Framed handler w (rx ++ received ls) (eof ∨ Ended ls) t := by
  induction ls generalizing s rx eof with
  | nil =>
      cases h
      simpa [received, Ended] using hs
  | cons l ls ih =>
      obtain ⟨u, hu, h⟩ := run_cons_eq_some.mp h
      have hl := hquiet l List.mem_cons_self
      have := ih (framed_step hs hl hu) (fun m hm => hquiet m (List.mem_cons_of_mem l hm)) h
      have hrx : rx ++ received (l :: ls) = rx ++ l.bytes ++ received ls := by
        simp [received]
      have hend : (eof ∨ Ended (l :: ls)) ↔ ((eof ∨ l = .recv .eof) ∨ Ended ls) := by
        simp [Ended, or_assoc, eq_comm]
      rw [hrx, hend]
      exact this

theorem exists_recv (handler : Handler W) {s : Conn W} {events : UInt32}
    (hpc : s.pc = .recv events) (result : RecvResult) :
    ∃ t, connStep handler s (.recv result) = some t := by
  simp only [connStep, hpc]
  exact ⟨_, rfl⟩

/-- A connection that reads takes whatever comes next. -/
theorem Reading.recv {handler : Handler W} {s : Conn W} (hs : Reading s)
    (hr : s.client.responding = false) (result : RecvResult) :
    ∃ ms t, run (connStep handler) s (ms ++ [.recv result]) = some t ∧ ∀ l ∈ ms, l.Quiet := by
  rcases hs with hpc | ⟨events, -, hpc⟩
  · have hready : connStep handler s (.ready epollIn) = some { s with pc := .recv epollIn } := by
      simp only [connStep, hpc, SensorHub.ready, hr, Bool.not_false, if_true, Action.pc]
    obtain ⟨t, ht⟩ := exists_recv handler (s := { s with pc := .recv epollIn }) rfl result
    refine ⟨[.ready epollIn], t, ?_, ?_⟩
    · exact run_snoc_eq_some.mpr ⟨_, run_cons_eq_some.mpr ⟨_, hready, rfl⟩, ht⟩
    · intro l hl
      rw [List.mem_singleton.mp hl]
      rfl
  · obtain ⟨t, ht⟩ := exists_recv handler hpc result
    exact ⟨[], t, run_snoc_eq_some.mpr ⟨s, rfl, ht⟩, by simp⟩

/-- **The control protocol.** However the stream of a connection is cut into chunks and spread over
the calls of `ready`: a line of at most 127 bytes is passed to the handler, once, when its newline
has arrived, and its reply is the response; 128 bytes without a newline are answered by an error;
and a shorter stream without one ends in a closed connection. Before that the connection reads on,
and takes whatever comes next. -/
theorem control_framing (handler : Handler W) (w : W) (fd : ℕ) {stream : Bytes}
    {ls : List ConnLabel} {s : Conn (W × List Bytes)}
    (h : run (connStep handler.logged) (accepted fd (w, [])) ls = some s)
    (hquiet : ∀ l ∈ ls, l.Quiet) (hd : Delivers stream ls) :
    (∀ cmd rest, stream = cmd ++ newline :: rest → newline ∉ cmd → cmd.length ≤ 127 →
      if cmd.length < (received ls).length then
        s.world = ((handler w cmd).1, [cmd]) ∧
          match (handler w cmd).2.response with
          | some response => s.client.responding = true ∧ s.client.response = response
          | none => s.pc = .thrown
      else s.world = (w, []) ∧ s.client.responding = false ∧ Reading s) ∧
    (newline ∉ stream.take 128 → 128 ≤ stream.length →
      s.world = (w, []) ∧
        if 128 ≤ (received ls).length then
          s.client.responding = true ∧ s.client.response = commandTooLong
        else s.client.responding = false ∧ Reading s) ∧
    (newline ∉ stream → stream.length ≤ 127 →
      s.world = (w, []) ∧ s.client.responding = false ∧ s.client.response = [] ∧
        (Ended ls → s.pc = .closed) ∧ (¬ Ended ls → Reading s)) ∧
    (s.client.responding = false → Reading s → ∀ result, ∃ ms t,
      run (connStep handler.logged) s (ms ++ [.recv result]) = some t ∧ ∀ l ∈ ms, l.Quiet) := by
  have hs : Framed handler w (received ls) (Ended ls) s := by
    simpa using framed_run (framed_accepted handler w fd) hquiet h
  unfold Framed at hs
  -- what arrived says nothing yet, or says what the whole stream says
  have hv : frame newline 127 (received ls) = .pending ∨
      frame newline 127 (received ls) = frame newline 127 stream := frame_of_prefix hd.initial
  refine ⟨?_, ?_, ?_, fun hr hreading => hreading.recv hr⟩
  · intro cmd rest hstream hcmd hlen
    rw [hstream, frame_line hcmd hlen] at hv
    rcases hv with hv | hv
    · rw [hv] at hs
      obtain ⟨hw, hu⟩ := hs
      obtain ⟨hno, hshort⟩ := of_frame_pending hv
      have hle : ¬ cmd.length < (received ls).length := by
        intro hlt
        have hpre : cmd ++ [newline] <+: received ls := by
          refine List.prefix_of_prefix_length_le ⟨rest, ?_⟩ hd.initial (by simpa using hlt)
          rw [hstream, List.append_assoc, List.singleton_append]
        exact hno (hpre.subset (List.mem_append_right _ (List.mem_singleton_self newline)))
      rw [if_neg hle]
      refine ⟨hw, hu.responding, hu.reading fun hend => hno ?_⟩
      rw [hd.whole hend, hstream]
      exact List.mem_append_right _ List.mem_cons_self
    · rw [hv] at hs
      obtain ⟨-, -, more, hrx⟩ := of_frame_line hv
      rw [if_pos (by rw [hrx, List.length_append, List.length_cons]; omega)]
      refine ⟨hs.1, ?_⟩
      have hanswer := hs.2
      split at hanswer
      · exact ⟨hanswer.responding, hanswer.response_eq⟩
      · exact hanswer
  · intro hno hlen
    rw [frame_overlong hno hlen] at hv
    rcases hv with hv | hv
    · rw [hv] at hs
      obtain ⟨hw, hu⟩ := hs
      have hshort := (of_frame_pending hv).2
      rw [if_neg (by omega)]
      refine ⟨hw, hu.responding, hu.reading ?_⟩
      intro hend
      rw [hd.whole hend] at hshort
      omega
    · rw [hv] at hs
      have hlong := (of_frame_overlong hv).2
      rw [if_pos (show 128 ≤ (received ls).length from hlong)]
      exact ⟨hs.1, hs.2.responding, hs.2.response_eq⟩
  · intro hno hlen
    rw [frame_pending hno hlen, or_self] at hv
    rw [hv] at hs
    exact ⟨hs.1, hs.2.responding, hs.2.response, hs.2.closed, hs.2.reading⟩

/-- The handler of the server's unit test, counting its calls. -/
def echo : Handler ℕ := fun n cmd => (n + 1, .text (ascii "ok:" ++ cmd ++ [newline]))

/-- A command that arrives in two pieces, with more behind it. -/
def splitStats : List ConnLabel :=
  [.ready epollIn, .recv (.data ⟨ascii "sta", by decide, by decide⟩), .recv (.err .EAGAIN),
    .ready epollIn, .recv (.err .EINTR), .recv (.data ⟨ascii "ts\nreload\n", by decide, by decide⟩)]

theorem control_framing_splitStats : ∃ s,
    run (connStep echo.logged) (accepted 5 (0, [])) splitStats = some s ∧
    s.world = (1, [ascii "stats"]) ∧ s.client.response = ascii "ok:stats\n" := by
  obtain ⟨s, hs⟩ : ∃ s, run (connStep echo.logged) (accepted 5 (0, [])) splitStats = some s :=
    ⟨_, rfl⟩
  have hquiet : ∀ l ∈ splitStats, l.Quiet := by
    simp only [splitStats, List.forall_mem_cons]
    exact ⟨rfl, trivial, Or.inr rfl, rfl, Or.inl rfl, trivial, by simp⟩
  have hd : Delivers (ascii "stats\nreload\nstats\n") splitStats :=
    ⟨⟨ascii "stats\n", rfl⟩, fun hend => absurd hend (by unfold Ended; decide)⟩
  have hmain := (control_framing echo 0 5 hs hquiet hd).1 (ascii "stats") _ rfl (by decide)
    (by decide)
  rw [if_pos (by decide)] at hmain
  exact ⟨s, hs, hmain.1, hmain.2.2⟩

end Conn

end SensorHub
