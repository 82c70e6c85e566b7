import SensorHub.Net.Framing

set_option autoImplicit false

/-!
# The response of a control connection

A control connection with what the outside sees of it: the events it is registered for, the commands
its handler was called with, the bytes its socket has accepted. `ready` sends from the offset
`sent`, as often as the event loop calls it, until the socket has taken the whole response.

* `Action.interest`, `Client.calls`, `Client.accepted`; `Session`, `sessionStep`.
* `conn_run`: a session is a run of the connection; `calls_run`: `calls` is what the handler sees.
* `Delivering`, `delivering_step`: the invariant; `Gentle`, `finished_step`: when it is closed.
* **`response_delivered`**: no byte of a response is lost or sent twice.
-/

namespace SensorHub

open Trans

/-- What the descriptor is registered for after the action; `none` once it is removed. -/
def Action.interest (registered : Option UInt32) : Action → Option UInt32
  | .wantWrite => some epollOut
  | .close => none
  | _ => registered

/-- The command line the handler is called with when `result` comes in. -/
def Client.calls (client : Client) : RecvResult → List Bytes
  | .data chunk =>
      let request := client.request ++ chunk.bytes
      match (find newline request).filter (· ≤ 127) with
      | some p => [request.take p]
      | none => []
  | _ => []

/-- The bytes that the socket takes from `data() + sent`. -/
def Client.accepted (client : Client) : SendResult → Bytes
  | .sent n => (client.response.drop client.sent).take n
  | .err _ => []

theorem Client.command_world {W : Type*} (client : Client) (handler : Handler W) (w : W)
    (line : Bytes) : (client.command handler w line).2.1 = (handler w line).1 := by
  unfold Client.command
  split <;> rename_i heq <;> rw [heq]

/-- The handler is called with the line in `calls`, if there is one. -/
theorem onRecv_calls {W : Type*} (handler : Handler W) (events : UInt32) (w : W) (client : Client)
    (result : RecvResult) :
    (client.calls result = [] ∧ (onRecv handler events w client result).2.1 = w) ∨
    ∃ line, client.calls result = [line] ∧
      (onRecv handler events w client result).2.1 = (handler w line).1 := by
  cases result with
  | eof => exact Or.inl ⟨rfl, rfl⟩
  | err e =>
      refine Or.inl ⟨rfl, ?_⟩
      unfold onRecv
      split <;> first | rfl | rename_i heq; cases heq
  | data chunk =>
      simp only [onRecv, Client.calls]
      cases (find newline (client.request ++ chunk.bytes)).filter (· ≤ 127) with
      | some p => exact Or.inr ⟨_, rfl, Client.command_world _ handler w _⟩
      | none =>
          refine Or.inl ⟨rfl, ?_⟩
          simp only
          split_ifs <;> rfl

theorem onRecv_logged {W : Type*} (handler : Handler W) (events : UInt32) (w : W × List Bytes)
    (client : Client) (result : RecvResult) :
    (onRecv handler.logged events w client result).2.1.2 = w.2 ++ client.calls result := by
  rcases onRecv_calls handler.logged events w client result with ⟨hnil, hw⟩ | ⟨line, hline, hw⟩
  · rw [hnil, hw, List.append_nil]
  · rw [hline, hw]
    rfl

/-- A `recv` gives the connection its response, or leaves it as it is. -/
theorem onRecv_response {W : Type*} {handler : Handler W} {events : UInt32} {w w' : W}
    {client client' : Client} {result : RecvResult} {action : Action}
    (h : onRecv handler events w client result = (action, w', client')) :
    client'.sent = client.sent ∧
    ((client'.responding = true ∧ action = client'.sendLoop) ∨
      (client'.responding = client.responding ∧ client'.response = client.response ∧
        action ≠ .send ∧ action ≠ .wantWrite)) := by
  unfold onRecv at h
  split at h
  · cases h
    exact ⟨rfl, Or.inr ⟨rfl, rfl, nofun, nofun⟩⟩
  · cases h
    refine ⟨rfl, Or.inr ⟨rfl, rfl, ?_, ?_⟩⟩ <;> split_ifs <;> nofun
  · cases h
    exact ⟨rfl, Or.inr ⟨rfl, rfl, nofun, nofun⟩⟩
  · cases h
    exact ⟨rfl, Or.inr ⟨rfl, rfl, nofun, nofun⟩⟩
  · simp only at h
    split at h
    · unfold Client.command at h
      split at h <;> cases h
      · exact ⟨rfl, Or.inl ⟨rfl, rfl⟩⟩
      · exact ⟨rfl, Or.inl ⟨rfl, rfl⟩⟩
      · exact ⟨rfl, Or.inr ⟨rfl, rfl, nofun, nofun⟩⟩
    · split_ifs at h <;> cases h
      · exact ⟨rfl, Or.inl ⟨rfl, rfl⟩⟩
      · exact ⟨rfl, Or.inr ⟨rfl, rfl, nofun, nofun⟩⟩

/-- A `send` that does not end the connection: it is repeated, postponed or has moved the offset. -/
inductive SendStep (events : UInt32) (client : Client) : SendResult → Action → Client → Prop
  | again : SendStep events client (.err .EINTR) .send client
  | later (hb : broken events = false) : SendStep events client (.err .EAGAIN) .wantWrite client
  | hung (hb : broken events = true) : SendStep events client (.err .EAGAIN) .close client
  | failed {e : Errno} (hintr : e ≠ .EINTR) (hagain : e ≠ .EAGAIN) :
      SendStep events client (.err e) .close client
  | nothing : SendStep events client (.sent 0) .close client
  | sent {n : ℕ} (hn : n ≠ 0) :
      SendStep events client (.sent n) { client with sent := client.sent + n }.sendLoop
        { client with sent := client.sent + n }

theorem sendStep_of_onSend {events : UInt32} {client client' : Client} {result : SendResult}
    {action : Action} (h : onSend events client result = (action, client')) :
    SendStep events client result action client' := by
  unfold onSend at h
  split at h
  · cases h
    exact .again
  · cases hb : broken events <;> rw [hb] at h <;> cases h
    · exact .later hb
    · exact .hung hb
  · rename_i hintr hagain
    cases h
    exact .failed (fun he => hintr (he ▸ rfl)) (fun he => hagain (he ▸ rfl))
  · split_ifs at h with hn
    · cases h
      exact hn ▸ .nothing
    · cases h
      exact .sent hn

/-- A connection with its registration, and the record of the calls of the handler and of the bytes
the socket has accepted. -/
structure Session (W : Type*) extends Conn W where
  interest : Option UInt32
  calls : List Bytes
  out : Bytes

namespace Session

variable {W : Type*}

/-- The connection was accepted and registered. -/
def accepted (fd : ℕ) (w : W) : Session W :=
  ⟨Conn.accepted fd w, some (epollIn ||| epollRdHup), [], []⟩

/-- What `ready` does next. -/
def act (s : Session W) (events : UInt32) (action : Action) : Session W :=
  { s with pc := action.pc events, interest := action.interest s.interest }

/-- One step. -/
def sessionStep (handler : Handler W) (s : Session W) : ConnLabel → Option (Session W)
  | .ready events =>
      match s.pc with
      | .idle => some (s.act events (SensorHub.ready s.client))
      | _ => none
  | .recv result =>
      match s.pc with
      | .recv events =>
          let (action, w, client) := onRecv handler events s.world s.client result
          some ({ s with
            world := w, client := client
            calls := s.calls ++ s.client.calls result }.act events action)
      | _ => none
  | .send result =>
      match s.pc with
      | .send events =>
          if s.client.takes result then
            let (action, client) := onSend events s.client result
            some ({ s with
              client := client, out := s.out ++ s.client.accepted result }.act events action)
          else none
      | _ => none

/-- What a step can do. -/
inductive Step (handler : Handler W) (s : Session W) : ConnLabel → Session W → Prop
  | ready {events : UInt32} (hpc : s.pc = .idle) :
      Step handler s (.ready events) (s.act events (SensorHub.ready s.client))
  | recv {events : UInt32} {result : RecvResult} {action : Action} {w : W} {client : Client}
      (hpc : s.pc = .recv events)
      (hr : onRecv handler events s.world s.client result = (action, w, client)) :
      Step handler s (.recv result) ({ s with
        world := w, client := client, calls := s.calls ++ s.client.calls result }.act events action)
  | send {events : UInt32} {result : SendResult} {action : Action} {client : Client}
      (hpc : s.pc = .send events) (htakes : s.client.takes result = true)
      (hr : onSend events s.client result = (action, client)) :
      Step handler s (.send result) ({ s with
        client := client, out := s.out ++ s.client.accepted result }.act events action)

variable {handler : Handler W} {s t : Session W} {l : ConnLabel}

theorem step_of_sessionStep (h : sessionStep handler s l = some t) : Step handler s l t := by
  cases l with
  | ready events =>
      simp only [sessionStep] at h
      split at h <;> cases h
      exact .ready ‹_›
  | recv result =>
      simp only [sessionStep] at h
      split at h <;> cases h
      exact .recv ‹_› rfl
  | send result =>
      simp only [sessionStep] at h
      split at h
      · split_ifs at h with htakes
        cases h
        exact .send ‹_› htakes rfl
      · cases h

/-- A session without its record is a connection. -/
theorem conn_run {ls : List ConnLabel} (h : run (sessionStep handler) s ls = some t) :
    run (Conn.connStep handler) s.toConn ls = some t.toConn := by
  induction ls generalizing s with
  | nil => cases h; rfl
  | cons l ls ih =>
      obtain ⟨u, hu, h⟩ := run_cons_eq_some.mp h
      refine run_cons_eq_some.mpr ⟨u.toConn, ?_, ih h⟩
      cases step_of_sessionStep hu with
      | ready hpc => simp only [Conn.connStep, hpc]; rfl
      | recv hpc hr => simp only [Conn.connStep, hpc, hr]; rfl
      | send hpc htakes hr => simp only [Conn.connStep, hpc, htakes, hr]; rfl

/-- **`calls` lists what the handler was called with.** -/
theorem calls_run {handler : Handler W} {s t : Session (W × List Bytes)} {ls : List ConnLabel}
    (hs : s.world.2 = s.calls) (h : run (sessionStep handler.logged) s ls = some t) :
    t.world.2 = t.calls := by
  refine run_inv (fun s => s.world.2 = s.calls) (fun s l t hs hst => ?_) hs h
  cases step_of_sessionStep hst with
  | ready hpc => exact hs
  | @recv events result action w client hpc hr =>
      have hlog := onRecv_logged handler events s.world s.client result
      rw [hr, hs] at hlog
      exact hlog
  | send hpc htakes hr => exact hs

/-! ### The invariant -/

/-- The bytes the socket has accepted are the first `sent` bytes of the response, and where `ready`
stands fits what is left of it. -/
structure Delivering (s : Session W) : Prop where
  sent_le : s.client.sent ≤ s.client.response.length
  out_eq : s.out = s.client.response.take s.client.sent
  unsent : s.client.responding = false → s.client.sent = 0
  recv : ∀ events, s.pc = .recv events → s.client.responding = false
  send : ∀ events, s.pc = .send events →
    s.client.responding = true ∧ s.client.sent < s.client.response.length
  idle : s.pc = .idle → s.client.responding = true →
    s.client.sent < s.client.response.length ∧ s.interest = some epollOut
  thrown : s.pc = .thrown → s.client.responding = false

theorem delivering_accepted (fd : ℕ) (w : W) : Delivering (accepted fd w) :=
  ⟨le_rfl, rfl, fun _ => rfl, nofun, nofun, nofun, nofun⟩

/-- `ready` goes on in its send loop. -/
theorem delivering_sendLoop {s : Session W} (events : UInt32)
    (hresponding : s.client.responding = true) (hle : s.client.sent ≤ s.client.response.length)
    (hout : s.out = s.client.response.take s.client.sent) :
    Delivering (s.act events s.client.sendLoop) := by
  have hset : s.client.responding ≠ false := by
    rw [hresponding]
    nofun
  unfold Client.sendLoop
  split_ifs with hlt
  · exact ⟨hle, hout, fun h => absurd h hset, nofun, fun _ _ => ⟨hresponding, hlt⟩, nofun, nofun⟩
  · exact ⟨hle, hout, fun h => absurd h hset, nofun, nofun, nofun, nofun⟩

/-- **A step sends on from where the last one stopped.** -/
theorem delivering_step (hs : Delivering s) (h : sessionStep handler s l = some t) :
    Delivering t := by
  cases step_of_sessionStep h with
  | ready hpc =>
      unfold SensorHub.ready
      cases hr : s.client.responding with
      | false =>
          exact ⟨hs.sent_le, hs.out_eq, hs.unsent, fun _ _ => hr, nofun, nofun, nofun⟩
      | true => exact delivering_sendLoop _ hr hs.sent_le hs.out_eq
  | @recv events result action w client hpc hr =>
      have hold := hs.recv events hpc
      have hzero := hs.unsent hold
      have hout : s.out = [] := by rw [hs.out_eq, hzero, List.take_zero]
      obtain ⟨hsent, ⟨hresponding, rfl⟩ | ⟨hresponding, hresponse, hsend, hwant⟩⟩ :=
        onRecv_response hr
      · -- the connection has its response
        refine delivering_sendLoop (s := { s with
          world := w, client := client, calls := s.calls ++ s.client.calls result }) _
          hresponding ?_ ?_
        · simp only [hsent, hzero, Nat.zero_le]
        · simp only [hsent, hzero, List.take_zero, hout]
      · have hstill : client.responding = false := hresponding.trans hold
        refine ⟨?_, ?_, fun _ => hsent.trans hzero, fun _ _ => hstill, ?_, ?_, fun _ => hstill⟩
        · simp only [act, hsent, hzero, Nat.zero_le]
        · simp only [act, hsent, hzero, List.take_zero, hout]
        · intro ev hpc'
          cases action <;> first | exact absurd rfl hsend | cases hpc'
        · intro hpc' hres
          rw [show client.responding = true from hres] at hstill
          cases hstill
  | @send events result action client hpc htakes hr =>
      obtain ⟨hresponding, hlt⟩ := hs.send events hpc
      have hkeep : s.out ++ [] = s.client.response.take s.client.sent := by
        rw [List.append_nil, hs.out_eq]
      cases sendStep_of_onSend hr with
      | again =>
          exact ⟨hs.sent_le, hkeep, hs.unsent, nofun, fun _ _ => ⟨hresponding, hlt⟩, nofun, nofun⟩
      | later hb =>
          exact ⟨hs.sent_le, hkeep, hs.unsent, nofun, nofun, fun _ _ => ⟨hlt, rfl⟩, nofun⟩
      | hung hb => exact ⟨hs.sent_le, hkeep, hs.unsent, nofun, nofun, nofun, nofun⟩
      | failed hintr hagain =>
          exact ⟨hs.sent_le, hkeep, hs.unsent, nofun, nofun, nofun, nofun⟩
      | nothing =>
          have hnone : s.client.accepted (.sent 0) = [] := rfl
          rw [← hnone] at hkeep
          exact ⟨hs.sent_le, hkeep, hs.unsent, nofun, nofun, nofun, nofun⟩
      | @sent n hn =>
          have hn' : n ≤ s.client.response.length - s.client.sent := of_decide_eq_true htakes
          refine delivering_sendLoop (s := { s with
            client := { s.client with sent := s.client.sent + n }
            out := s.out ++ s.client.accepted (.sent n) }) _ hresponding ?_ ?_
          · simp only
            omega
          · simp only [Client.accepted, hs.out_eq, List.take_add]

theorem delivering_run {fd : ℕ} {w : W} {ls : List ConnLabel}
    (h : run (sessionStep handler) (accepted fd w) ls = some s) : Delivering s :=
  run_inv Delivering (fun _ _ _ hs hst => delivering_step hs hst) (delivering_accepted fd w) h

theorem Delivering.closed_of_sent (hs : Delivering s) (hresponding : s.client.responding = true)
    (hall : s.client.sent = s.client.response.length) : s.pc = .closed := by
  have hset : s.client.responding ≠ false := by
    rw [hresponding]
    nofun
  cases hpc : s.pc with
  | idle => exact absurd hall (hs.idle hpc hresponding).1.ne
  | recv events => exact absurd (hs.recv events hpc) hset
  | send events => exact absurd hall (hs.send events hpc).2.ne
  | closed => rfl
  | thrown => exact absurd (hs.thrown hpc) hset

/-! ### Behind the request -/

/-- Once it responds, a connection keeps its request and its response. -/
structure Responding (s t : Session W) : Prop where
  responding : t.client.responding = true
  request_eq : t.client.request = s.client.request
  response_eq : t.client.response = s.client.response
  world_eq : t.world = s.world
  calls_eq : t.calls = s.calls

theorem responding_step (hs : Delivering s) (hresponding : s.client.responding = true)
    (h : sessionStep handler s l = some t) : Responding s t ∧ ∀ r, l ≠ .recv r := by
  cases step_of_sessionStep h with
  | ready hpc => exact ⟨⟨hresponding, rfl, rfl, rfl, rfl⟩, nofun⟩
  | recv hpc hr =>
      rw [hs.recv _ hpc] at hresponding
      cases hresponding
  | send hpc htakes hr =>
      cases sendStep_of_onSend hr <;> exact ⟨⟨hresponding, rfl, rfl, rfl, rfl⟩, nofun⟩

theorem responding_run {ls : List ConnLabel} (hs : Delivering s)
    (hresponding : s.client.responding = true) (h : run (sessionStep handler) s ls = some t) :
    Responding s t ∧ ∀ l ∈ ls, ∀ r, l ≠ .recv r := by
  induction ls generalizing s with
  | nil =>
      cases h
      exact ⟨⟨hresponding, rfl, rfl, rfl, rfl⟩, nofun⟩
  | cons l ls ih =>
      obtain ⟨u, hu, h⟩ := run_cons_eq_some.mp h
      obtain ⟨hsu, hl⟩ := responding_step hs hresponding hu
      obtain ⟨hut, hls⟩ := ih (delivering_step hs hu) hsu.responding h
      refine ⟨⟨hut.responding, hut.request_eq.trans hsu.request_eq,
        hut.response_eq.trans hsu.response_eq, hut.world_eq.trans hsu.world_eq,
        hut.calls_eq.trans hsu.calls_eq⟩, ?_⟩
      exact List.forall_mem_cons.mpr ⟨hl, hls⟩

/-! ### The end of the connection -/

/-- The step is no `send` that fails hard, returns 0, or finds `EAGAIN` on a broken connection. -/
def Gentle (s : Session W) : ConnLabel → Prop
  | .send (.err e) =>
      e = .EINTR ∨ (e = .EAGAIN ∧ ∀ events, s.pc = .send events → broken events = false)
  | .send (.sent n) => n ≠ 0
  | _ => True

/-- A connection that was closed while it responded has sent everything. -/
def Finished (s : Session W) : Prop :=
  s.pc = .closed → s.client.responding = true → s.client.sent = s.client.response.length

theorem finished_sendLoop {s : Session W} (events : UInt32)
    (hle : s.client.sent ≤ s.client.response.length) :
    Finished (s.act events s.client.sendLoop) := by
  unfold Client.sendLoop
  split_ifs with hlt
  · intro hpc
    cases hpc
  · intro _ _
    exact le_antisymm hle (Nat.le_of_not_lt hlt)

theorem finished_step (hs : Delivering s) (hl : Gentle s l) (h : sessionStep handler s l = some t) :
    Finished t := by
  have ht := delivering_step hs h
  cases step_of_sessionStep h with
  | ready hpc =>
      unfold SensorHub.ready
      split_ifs
      · intro hpc'
        cases hpc'
      · exact finished_sendLoop _ hs.sent_le
  | @recv events result action w client hpc hr =>
      have hold := hs.recv events hpc
      obtain ⟨-, ⟨-, rfl⟩ | ⟨hresponding, -⟩⟩ := onRecv_response hr
      · exact finished_sendLoop (s := { s with
          world := w, client := client, calls := s.calls ++ s.client.calls result }) _ ht.sent_le
      · intro _ hres
        rw [show client.responding = true from hres, hold] at hresponding
        cases hresponding
  | @send events result action client hpc htakes hr =>
      cases sendStep_of_onSend hr with
      | again =>
          intro hpc'
          cases hpc'
      | later hb =>
          intro hpc'
          cases hpc'
      | hung hb =>
          rcases hl with hl | ⟨-, hl⟩
          · cases hl
          · rw [hl events hpc] at hb
            cases hb
      | failed hintr hagain =>
          rcases hl with hl | ⟨hl, -⟩
          · exact absurd hl hintr
          · exact absurd hl hagain
      | nothing => exact absurd rfl hl
      | @sent n hn =>
          exact finished_sendLoop (s := { s with
            client := { s.client with sent := s.client.sent + n }
            out := s.out ++ s.client.accepted (.sent n) }) _ ht.sent_le

/-- A connection that has seen `EAGAIN` waits until it can write, and for nothing else. -/
structure Postponed (s : Session W) : Prop where
  responding : s.client.responding = true
  interest : s.pc = .closed ∨ s.interest = some epollOut

theorem postponed_act {s : Session W} (events : UInt32) {action : Action}
    (hresponding : s.client.responding = true)
    (h : s.interest = some epollOut ∨ action = .wantWrite ∨ action = .close) :
    Postponed (s.act events action) := by
  refine ⟨hresponding, ?_⟩
  cases action with
  | wantWrite => exact Or.inr rfl
  | close => exact Or.inl rfl
  | _ =>
      rcases h with h | h | h
      · exact Or.inr h
      · cases h
      · cases h

theorem postponed_step (hs : Delivering s)
    (hp : Postponed s ∨ l = .send (.err .EAGAIN)) (h : sessionStep handler s l = some t) :
    Postponed t := by
  cases step_of_sessionStep h with
  | ready hpc =>
      rcases hp with ⟨hresponding, hclosed | hinterest⟩ | hl
      · rw [hpc] at hclosed
        cases hclosed
      · exact postponed_act _ hresponding (Or.inl hinterest)
      · cases hl
  | recv hpc hr =>
      rcases hp with ⟨hresponding, -⟩ | hl
      · rw [hs.recv _ hpc] at hresponding
        cases hresponding
      · cases hl
  | @send events result action client hpc htakes hr =>
      have hresponding : client.responding = true := by
        cases sendStep_of_onSend hr <;> exact (hs.send events hpc).1
      rcases hp with ⟨-, hclosed | hinterest⟩ | hl
      · rw [hpc] at hclosed
        cases hclosed
      · exact postponed_act (s := { s with
          client := client, out := s.out ++ s.client.accepted result }) _ hresponding
          (Or.inl hinterest)
      · refine postponed_act (s := { s with
          client := client, out := s.out ++ s.client.accepted result }) _ hresponding ?_
        cases hl
        cases sendStep_of_onSend hr with
        | later hb => exact Or.inr (Or.inl rfl)
        | hung hb => exact Or.inr (Or.inr rfl)
        | failed hintr hagain => exact absurd rfl hagain

/-- **Every response is delivered without gap or repetition.** The socket has accepted the first
`sent` bytes of the response, and no others. Once the connection responds it is not read again and
the handler is not called again. While no `send` fails for good, the connection is closed exactly
when everything was accepted, and after an `EAGAIN` it is registered for `EPOLLOUT` only. -/
theorem response_delivered {fd : ℕ} {w : W} {ls : List ConnLabel}
    (h : run (sessionStep handler) (accepted fd w) ls = some s) :
    s.out = s.client.response.take s.client.sent ∧
    s.client.sent ≤ s.client.response.length ∧
    (s.client.responding = true → ∀ ms t, run (sessionStep handler) s ms = some t →
      (∀ l ∈ ms, ∀ r, l ≠ .recv r) ∧ t.client.request = s.client.request ∧
        t.client.response = s.client.response ∧ t.calls = s.calls ∧ t.world = s.world) ∧
    (AllSteps (sessionStep handler) Gentle (accepted fd w) ls → s.client.responding = true →
      (s.pc = .closed ↔ s.client.sent = s.client.response.length)) ∧
    (.send (.err .EAGAIN) ∈ ls → s.pc ≠ .closed →
      s.client.sent < s.client.response.length ∧ s.interest = some epollOut) := by
  have hs := delivering_run h
  refine ⟨hs.out_eq, hs.sent_le, ?_, ?_, ?_⟩
  · intro hresponding ms t hrun
    obtain ⟨ht, hms⟩ := responding_run hs hresponding hrun
    exact ⟨hms, ht.request_eq, ht.response_eq, ht.calls_eq, ht.world_eq⟩
  · intro hgentle hresponding
    have hfinished : Delivering s ∧ Finished s :=
      run_inv_of (fun s => Delivering s ∧ Finished s)
        (fun _ _ _ hs hl hst => ⟨delivering_step hs.1 hst, finished_step hs.1 hl hst⟩)
        ⟨delivering_accepted fd w, nofun⟩ hgentle h
    refine ⟨fun hpc => hfinished.2 hpc hresponding, fun hall => ?_⟩
    exact hs.closed_of_sent hresponding hall
  · intro hmem hopen
    obtain ⟨ms, ns, rfl⟩ := List.append_of_mem hmem
    obtain ⟨u, hu, hrest⟩ := run_append_eq_some.mp h
    obtain ⟨v, hv, hrest⟩ := run_cons_eq_some.mp hrest
    have hdelivering := delivering_run hu
    have hpostponed : Delivering s ∧ Postponed s :=
      run_inv (fun s => Delivering s ∧ Postponed s)
        (fun _ _ _ hs hst => ⟨delivering_step hs.1 hst, postponed_step hs.1 (Or.inl hs.2) hst⟩)
        ⟨delivering_step hdelivering hv, postponed_step hdelivering (Or.inr rfl) hv⟩ hrest
    obtain ⟨hresponding, hinterest⟩ := hpostponed.2
    refine ⟨?_, hinterest.resolve_left hopen⟩
    by_contra hge
    exact hopen (hs.closed_of_sent hresponding (le_antisymm hs.sent_le (Nat.le_of_not_lt hge)))

/-- The handler's reply of eight bytes goes out in two pieces, with a full socket in between. -/
def shortWrites : List ConnLabel :=
  [.ready epollIn, .recv (.data ⟨ascii "stats\n", by decide, by decide⟩), .send (.sent 3),
    .send (.err .EINTR), .send (.err .EAGAIN), .ready epollOut, .send (.sent 5)]

theorem response_delivered_shortWrites : ∃ s,
    run (sessionStep fun (_ : Unit) _ => ((), .text (ascii "mode=up\n"))) (accepted 7 ())
      shortWrites = some s ∧
    s.pc = .closed ∧ s.out = ascii "mode=up\n" ∧
    s.out = s.client.response.take s.client.sent := by
  obtain ⟨s, hs, hpc, hout⟩ : ∃ s,
      run (sessionStep fun (_ : Unit) _ => ((), .text (ascii "mode=up\n"))) (accepted 7 ())
        shortWrites = some s ∧ s.pc = .closed ∧ s.out = ascii "mode=up\n" := ⟨_, rfl, rfl, rfl⟩
  exact ⟨s, hs, hpc, hout, (response_delivered hs).1⟩

end Session

end SensorHub
