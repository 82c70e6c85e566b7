import SensorHub.Net.Isolation
import SensorHub.Tools.Sensorctl

set_option autoImplicit false

/-!
# A dialogue with the daemon

`sensorctl` of `userspace/tools/sensorctl.cpp`, from its `connect` on, and the connection it has
with `ControlServer`, over a stream socket of `c` bytes in each direction. The client writes its
request and then reads until the daemon has closed; the daemon reads until it has a line, and then
writes. Neither of them is stopped by the user; the kernel cuts the streams as it likes.

* `Door`, `CtlPc`, `Dialogue`, `DialogueLabel`, `dialogueStep`; `reply`, `outcome`.
* `Talking`, `talking_step`: the invariant of both sides.
* `effort`, `effort_lt`: no dialogue is endless; `can_go_on`: none is stuck.
* **`sensorctl_prints_reply`**.
-/

namespace SensorHub

open LineFrame Trans

/-- What the daemon has done with the connection. -/
inductive Door
  /-- It waits in the queue of `listen`. -/
  | backlog
  | admitted
  /-- `add_client` has closed it: there are 64 others. -/
  | refused
  deriving DecidableEq

/-- Where `sensorctl` stands. -/
inductive CtlPc
  | write
  | read
  /-- `main` has returned 0. -/
  | returned
  /-- `SIGPIPE` has ended it. -/
  | killed
  deriving DecidableEq

/-- The loops `sensorctl` has not left. -/
def CtlPc.left : CtlPc → ℕ
  | .write => 2
  | .read => 1
  | .returned | .killed => 0

/-- Both sides: the connection in the daemon, the bytes on the way in either direction, and what
`sensorctl` has written and printed. -/
structure Dialogue (W : Type*) where
  door : Door
  session : Session (W × List Bytes)
  upstream : Bytes
  downstream : Bytes
  pc : CtlPc
  written : ℕ
  printed : Bytes

inductive DialogueLabel
  /-- `accept4` and `add_client`. -/
  | accept (admitted : Bool)
  /-- A step of the daemon on the connection. -/
  | daemon (l : ConnLabel)
  /-- The next `n` bytes of the request enter the socket. -/
  | wrote (n : ℕ)
  /-- `write` finds the connection closed. -/
  | pipe
  /-- `read` returns `n` bytes. -/
  | read (n : ℕ)
  /-- `read` returns 0, or fails because the daemon left a part of the request unread. -/
  | readEnd

/-- A system call of the daemon was interrupted. -/
def DialogueLabel.interrupted : DialogueLabel → Prop
  | .daemon (.recv (.err .EINTR)) | .daemon (.send (.err .EINTR)) => True
  | _ => False

namespace Dialogue

section Reply

variable {W : Type*} (handler : Handler W) (w : W) (request : Bytes)

/-- What the daemon answers to the bytes of a request. -/
def reply : Bytes :=
  match frame newline 127 request with
  | .line cmd => (handler w cmd).2.response.getD []
  | .overlong => commandTooLong
  | .pending => []

/-- What the request does to the daemon, and the commands it is called with. -/
def outcome : W × List Bytes :=
  match frame newline 127 request with
  | .line cmd => ((handler w cmd).1, [cmd])
  | _ => (w, [])

end Reply

variable {W : Type*} {handler : Handler W} {w : W} {c fd : ℕ} {request : Bytes}
  {d d' : Dialogue W}

/-- `connect` has returned. -/
def init (fd : ℕ) (w : W) : Dialogue W :=
  ⟨.backlog, .accepted fd (w, []), [], [], .write, 0, []⟩

/-- The daemon has closed the connection, or has come to its end. -/
def gone (d : Dialogue W) : Bool := d.session.pc = .closed || d.session.pc = .thrown

/-- The connection can be read or written, and the daemon has asked for it. -/
def raised (c : ℕ) (d : Dialogue W) : Bool :=
  d.session.interest.any fun events =>
    (events &&& epollIn ≠ 0 && d.upstream ≠ []) ||
      (events &&& epollOut ≠ 0 && d.downstream.length < c)

/-- What the kernel can answer to the daemon while `sensorctl` holds its end. -/
def answers (c : ℕ) (d : Dialogue W) : ConnLabel → Bool
  | .ready events => !broken events && d.raised c
  | .recv (.data chunk) => chunk.bytes <+: d.upstream
  | .recv .eof => false
  | .recv (.err e) => e = .EINTR || (e = .EAGAIN && d.upstream = [])
  | .send (.sent n) => 0 < n && d.downstream.length + n ≤ c
  | .send (.err e) => e = .EINTR || (e = .EAGAIN && c ≤ d.downstream.length)

/-- One step. -/
def dialogueStep (handler : Handler W) (c : ℕ) (request : Bytes) (d : Dialogue W) :
    DialogueLabel → Option (Dialogue W)
  | .accept admitted =>
      if d.door = .backlog then
        if admitted then some { d with door := .admitted }
        else some { d with
          door := .refused
          session := { d.session with pc := .closed, interest := none } }
      else none
  | .daemon l =>
      if d.door = .admitted ∧ d.answers c l = true then
        (Session.sessionStep handler.logged d.session l).map fun session =>
          { d with
            session := session
            upstream := d.upstream.drop l.bytes.length
            downstream := d.downstream ++ d.session.client.acceptedIn l }
      else none
  | .wrote n =>
      if d.pc = .write ∧ d.gone = false ∧ 0 < n ∧ d.written + n ≤ request.length ∧
          d.upstream.length + n ≤ c then
        some { d with
          upstream := d.upstream ++ (request.drop d.written).take n
          written := d.written + n
          pc := if d.written + n = request.length then .read else .write }
      else none
  | .pipe =>
      if d.pc = .write ∧ d.gone = true then
        some { d with pc := if d.written = 0 then .killed else .read }
      else none
  | .read n =>
      if d.pc = .read ∧ 0 < n ∧ n ≤ 4096 ∧ n ≤ d.downstream.length then
        some { d with
          printed := d.printed ++ d.downstream.take n
          downstream := d.downstream.drop n }
      else none
  | .readEnd =>
      if d.pc = .read ∧ d.gone = true ∧ d.downstream = [] then some { d with pc := .returned }
      else none

/-! ### The invariant -/

/-- The daemon has read the beginning of the request, and stands where that leads to; what it has
sent is printed or on its way; `sensorctl` stops writing before the end of its request only if the
connection was closed, and reading only if it was closed and all is read. -/
structure Talking (handler : Handler W) (w : W) (request : Bytes) (d : Dialogue W) : Prop where
  arrived : ∃ rx, rx ++ d.upstream = request.take d.written ∧
    d.session.toConn.Framed handler w rx (d.door = .refused)
  written : d.written ≤ request.length
  waiting : d.door = .backlog →
    d.upstream = request.take d.written ∧ ∃ fd, d.session = .accepted fd (w, [])
  shut : d.door = .refused → d.session.out = [] ∧ d.gone = true
  delivering : d.session.Delivering
  finished : d.session.Finished
  calm : ∀ events, d.session.pc = .recv events ∨ d.session.pc = .send events →
    broken events = false
  reading : d.session.client.responding = false → d.session.pc ≠ .closed →
    d.session.interest = some (epollIn ||| epollRdHup)
  out : d.session.out = d.printed ++ d.downstream
  writing : d.pc = .write → d.written < request.length
  stopped : d.pc ≠ .write → d.written = request.length ∨ d.gone = true
  returned : d.pc = .returned → d.gone = true ∧ d.downstream = []
  killed : d.pc = .killed → d.gone = true ∧ d.written = 0

theorem talking_init (hrequest : 0 < request.length) : Talking handler w request (init fd w) where
  arrived := ⟨[], rfl, by
    have h : ((init fd w).door = .refused) = False := eq_false nofun
    rw [h]
    exact Conn.framed_accepted handler w fd⟩
  written := Nat.zero_le _
  waiting := fun _ => ⟨rfl, fd, rfl⟩
  shut := nofun
  delivering := Session.delivering_accepted fd _
  finished := nofun
  calm := by
    rintro events (h | h) <;> cases h
  reading := fun _ _ => rfl
  out := rfl
  writing := fun _ => hrequest
  stopped := fun h => absurd rfl h
  returned := nofun
  killed := nofun

/-- A step of the daemon that the kernel answers is quiet, gentle, and takes what has arrived. -/
theorem of_answers (h : Talking handler w request d) {l : ConnLabel} (hl : d.answers c l = true) :
    l.Quiet ∧ d.session.Gentle l ∧ l ≠ .recv .eof ∧ l.bytes <+: d.upstream := by
  have hcalm : ∀ events, d.session.pc = .send events → broken events = false :=
    fun events hpc => h.calm events (Or.inr hpc)
  match l with
  | .ready events =>
      simp only [answers, Bool.and_eq_true, Bool.not_eq_true'] at hl
      exact ⟨hl.1, trivial, nofun, List.nil_prefix⟩
  | .recv (.data chunk) => exact ⟨trivial, trivial, nofun, of_decide_eq_true hl⟩
  | .recv .eof => cases hl
  | .recv (.err e) =>
      simp only [answers, Bool.or_eq_true, Bool.and_eq_true, decide_eq_true_eq] at hl
      exact ⟨hl.imp_right And.left, trivial, nofun, List.nil_prefix⟩
  | .send (.sent n) =>
      simp only [answers, Bool.and_eq_true, decide_eq_true_eq] at hl
      exact ⟨trivial, hl.1.ne', nofun, List.nil_prefix⟩
  | .send (.err e) =>
      simp only [answers, Bool.or_eq_true, Bool.and_eq_true, decide_eq_true_eq] at hl
      exact ⟨trivial, hl.imp_right fun h => ⟨h.1, hcalm⟩, nofun, List.nil_prefix⟩

/-- What a step of the connection leaves as it is. -/
structure Kept (s t : Session (W × List Bytes)) (l : ConnLabel) : Prop where
  out : t.out = s.out ++ s.client.acceptedIn l
  calm : ∀ events, t.pc = .recv events ∨ t.pc = .send events →
    l = .ready events ∨ s.pc = .recv events ∨ s.pc = .send events
  interest : t.client.responding = false → t.pc ≠ .closed →
    s.client.responding = false ∧ s.pc ≠ .closed ∧ t.interest = s.interest

theorem kept_step {s t : Session (W × List Bytes)} {l : ConnLabel} (hs : s.Delivering)
    (h : Session.sessionStep handler.logged s l = some t) : Kept s t l := by
  have hcalm : ∀ {events events' : UInt32} {action : Action},
      action.pc events = .recv events' ∨ action.pc events = .send events' → events' = events := by
    intro events events' action h
    cases action <;> rcases h with h | h <;> cases h <;> rfl
  cases Session.step_of_sessionStep h with
  | @ready events hpc =>
      refine ⟨(List.append_nil _).symm, fun events' h => Or.inl ?_, ?_⟩
      · rw [hcalm h]
      · intro hresponding hclosed
        refine ⟨hresponding, by simp [hpc], ?_⟩
        have hr : s.client.responding = false := hresponding
        simp only [Session.act, SensorHub.ready, hr, Bool.not_false, if_true, Action.interest]
  | @recv events result action w client hpc hr =>
      refine ⟨(List.append_nil _).symm, fun events' h => Or.inr (Or.inl ?_), ?_⟩
      · rw [hcalm h, hpc]
      · intro hresponding hclosed
        refine ⟨hs.recv events hpc, by simp [hpc], ?_⟩
        obtain ⟨-, ⟨hset, -⟩ | ⟨-, -, -, hwant⟩⟩ := onRecv_response hr
        · rw [show client.responding = false from hresponding] at hset
          cases hset
        · cases action with
          | wantWrite => exact absurd rfl hwant
          | close => exact absurd rfl hclosed
          | _ => rfl
  | @send events result action client hpc htakes hr =>
      refine ⟨rfl, fun events' h => Or.inr (Or.inr ?_), ?_⟩
      · rw [hcalm h, hpc]
      · intro hresponding
        have hset : client.responding = true := by
          cases sendStep_of_onSend hr <;> exact (hs.send events hpc).1
        rw [show client.responding = false from hresponding] at hset
        cases hset

theorem talking_accept (h : Talking handler w request d) {admitted : Bool}
    (hstep : dialogueStep handler c request d (.accept admitted) = some d') :
    Talking handler w request d' := by
  simp only [dialogueStep] at hstep
  split_ifs at hstep with hdoor hadmitted
  · cases hstep
    obtain ⟨rx, hrx, hframed⟩ := h.arrived
    refine { h with arrived := ⟨rx, hrx, ?_⟩, waiting := nofun, shut := nofun }
    simpa only [hdoor, reduceCtorEq] using hframed
  · cases hstep
    obtain ⟨hupstream, fd, hsession⟩ := h.waiting hdoor
    have hframed : Conn.Framed handler w [] True { d.session.toConn with pc := .closed } := by
      rw [hsession]
      exact Conn.Undecided.framed frame_nil rfl
        ⟨rfl, rfl, rfl, fun h => absurd trivial h, fun _ => rfl⟩
    refine { h with
      arrived := ⟨[], hupstream, by simpa only using hframed⟩
      waiting := nofun
      shut := fun _ => ⟨by rw [hsession]; rfl, rfl⟩
      delivering := ?_
      finished := ?_
      calm := by rintro events (h | h) <;> cases h
      reading := fun _ hclosed => absurd rfl hclosed
      stopped := fun _ => Or.inr rfl
      returned := fun hpc => ⟨rfl, (h.returned hpc).2⟩
      killed := fun hpc => ⟨rfl, (h.killed hpc).2⟩ }
    · rw [hsession]
      exact ⟨le_rfl, rfl, fun _ => rfl, nofun, nofun, nofun, nofun⟩
    · intro _ hresponding
      rw [hsession] at hresponding
      cases hresponding

/-- A connection that is gone does nothing. -/
theorem not_gone_of_step {l : ConnLabel} {s : Session (W × List Bytes)}
    (h : Session.sessionStep handler.logged d.session l = some s) : d.gone = false := by
  cases Session.step_of_sessionStep h with
  | ready hpc => simp [gone, hpc]
  | recv hpc hr => simp [gone, hpc]
  | send hpc htakes hr => simp [gone, hpc]

/-- **A step of the daemon.** -/
theorem talking_daemon (h : Talking handler w request d) {l : ConnLabel}
    (hstep : dialogueStep handler c request d (.daemon l) = some d') :
    Talking handler w request d' := by
  simp only [dialogueStep] at hstep
  split_ifs at hstep with hguard
  obtain ⟨hdoor, hl⟩ := hguard
  obtain ⟨s, hs, rfl⟩ := Option.map_eq_some_iff.mp hstep
  obtain ⟨hquiet, hgentle, heof, hbytes⟩ := of_answers h hl
  have hkept := kept_step h.delivering hs
  have hlive := not_gone_of_step hs
  obtain ⟨rx, hrx, hframed⟩ := h.arrived
  have hconn : Conn.connStep handler.logged d.session.toConn l = some s.toConn := by
    have hrun := Session.conn_run (run_cons_eq_some.mpr ⟨s, hs, rfl⟩ : run _ d.session [l] = some s)
    obtain ⟨t, ht, hnil⟩ := run_cons_eq_some.mp hrun
    cases hnil
    exact ht
  refine { h with
    arrived := ⟨rx ++ l.bytes, ?_, ?_⟩
    waiting := fun hback => ?_
    shut := fun hshut => ?_
    delivering := Session.delivering_step h.delivering hs
    finished := Session.finished_step h.delivering hgentle hs
    calm := fun events hpc => ?_
    reading := fun hresponding hclosed => ?_
    out := ?_
    stopped := fun hpc => ?_
    returned := fun hpc => ?_
    killed := fun hpc => ?_ }
  · obtain ⟨rest, hrest⟩ := hbytes
    rw [← hrx, ← hrest, List.append_assoc, List.drop_left]
  · have hnext := Conn.framed_step hframed hquiet hconn
    have heq : (d.door = .refused ∨ l = .recv .eof) = (d.door = .refused) := by
      simp only [heof, or_false]
    rwa [heq] at hnext
  · rw [hdoor] at hback
    cases hback
  · rw [hdoor] at hshut
    cases hshut
  · rcases hkept.calm events hpc with hready | hold
    · rw [hready] at hquiet
      exact hquiet
    · exact h.calm events hold
  · obtain ⟨hold, hopen, hinterest⟩ := hkept.interest hresponding hclosed
    exact hinterest.trans (h.reading hold hopen)
  · simp only [hkept.out, h.out, List.append_assoc]
  · exact Or.inl ((h.stopped hpc).resolve_right (by rw [hlive]; nofun))
  · exact absurd (h.returned hpc).1 (by rw [hlive]; nofun)
  · exact absurd (h.killed hpc).1 (by rw [hlive]; nofun)

/-- More of the request is in the socket. -/
theorem talking_wrote (h : Talking handler w request d) {n : ℕ}
    (hle : d.written + n ≤ request.length) {pc : CtlPc}
    (hpc : if d.written + n = request.length then pc = .read else pc = .write) :
    Talking handler w request { d with
      upstream := d.upstream ++ (request.drop d.written).take n
      written := d.written + n
      pc := pc } := by
  have hupstream : ∀ {rx}, rx ++ d.upstream = request.take d.written →
      rx ++ (d.upstream ++ (request.drop d.written).take n) = request.take (d.written + n) := by
    intro rx hrx
    rw [← List.append_assoc, hrx, List.take_add]
  obtain ⟨rx, hrx, hframed⟩ := h.arrived
  have hcases : (pc = .read ∧ d.written + n = request.length) ∨
      (pc = .write ∧ d.written + n < request.length) := by
    split_ifs at hpc with hend
    · exact Or.inl ⟨hpc, hend⟩
    · exact Or.inr ⟨hpc, lt_of_le_of_ne hle hend⟩
  refine { h with
    arrived := ⟨rx, hupstream hrx, hframed⟩
    written := hle
    waiting := fun hdoor => ?_
    writing := fun hwrite => ?_
    stopped := fun hwrite => ?_
    returned := fun hreturned => ?_
    killed := fun hkilled => ?_ }
  · obtain ⟨hold, hsession⟩ := h.waiting hdoor
    exact ⟨by simpa using @hupstream [] hold, hsession⟩
  · rcases hcases with ⟨rfl, -⟩ | ⟨-, hlt⟩
    · cases hwrite
    · exact hlt
  · rcases hcases with ⟨-, hend⟩ | ⟨rfl, -⟩
    · exact Or.inl hend
    · exact absurd rfl hwrite
  · rcases hcases with ⟨rfl, -⟩ | ⟨rfl, -⟩ <;> cases hreturned
  · rcases hcases with ⟨rfl, -⟩ | ⟨rfl, -⟩ <;> cases hkilled

/-- **A step of either side.** -/
theorem talking_step {l : DialogueLabel} (h : Talking handler w request d)
    (hstep : dialogueStep handler c request d l = some d') : Talking handler w request d' := by
  cases l with
  | accept admitted => exact talking_accept h hstep
  | daemon l => exact talking_daemon h hstep
  | wrote n =>
      simp only [dialogueStep] at hstep
      split_ifs at hstep with hguard hend <;> cases hstep
      · exact talking_wrote h hguard.2.2.2.1 (by rw [if_pos hend])
      · exact talking_wrote h hguard.2.2.2.1 (by rw [if_neg hend])
  | pipe =>
      simp only [dialogueStep] at hstep
      split_ifs at hstep with hguard hzero <;> cases hstep
      · exact { h with
          writing := nofun
          stopped := fun _ => Or.inr hguard.2
          returned := nofun
          killed := fun _ => ⟨hguard.2, hzero⟩ }
      · exact { h with
          writing := nofun
          stopped := fun _ => Or.inr hguard.2
          returned := nofun
          killed := nofun }
  | read n =>
      simp only [dialogueStep] at hstep
      split_ifs at hstep with hguard
      obtain ⟨hpc, -⟩ := hguard
      cases hstep
      refine { h with
        out := ?_
        returned := fun hreturned => ?_
        killed := fun hkilled => ?_ }
      · rw [h.out, List.append_assoc, List.take_append_drop]
      · rw [show d.pc = .returned from hreturned] at hpc
        cases hpc
      · rw [show d.pc = .killed from hkilled] at hpc
        cases hpc
  | readEnd =>
      simp only [dialogueStep] at hstep
      split_ifs at hstep with hguard
      obtain ⟨hpc, hgone, hempty⟩ := hguard
      cases hstep
      exact { h with
        writing := nofun
        stopped := fun _ => Or.inr hgone
        returned := fun _ => ⟨hgone, hempty⟩
        killed := nofun }

/-! ### What is printed -/

/-- A whole line is no unfinished request. -/
theorem frame_concat_ne_pending (line : Bytes) :
    frame newline 127 (line ++ [newline]) ≠ .pending := by
  intro h
  exact (of_frame_pending h).1 (List.mem_append_right _ (List.mem_singleton_self newline))

/-- What was sent is the beginning of the reply; all of it, if the connection is gone. -/
theorem Talking.sent (h : Talking handler w request d)
    (hframe : frame newline 127 request ≠ .pending) (hdoor : d.door ≠ .refused) :
    d.session.out <+: reply handler w request ∧
      (d.gone = true → d.session.out = reply handler w request ∧
        d.session.world = outcome handler w request) ∧
      (d.session.client.responding = true →
        d.session.client.response = reply handler w request) := by
  obtain ⟨rx, hrx, hframed⟩ := h.arrived
  have hrefused : (d.door = .refused) = False := eq_false hdoor
  rw [hrefused] at hframed
  have hprefix : rx <+: request := by
    refine List.IsPrefix.trans ⟨d.upstream, hrx⟩ (List.take_prefix _ _)
  have hout := h.delivering.out_eq
  unfold Conn.Framed at hframed
  rcases frame_of_prefix hprefix with hpending | hsame
  · -- it still reads
    rw [hpending] at hframed
    obtain ⟨-, hundecided⟩ := hframed
    have hnone : d.session.out = [] := by
      rw [hout, h.delivering.unsent hundecided.responding, List.take_zero]
    refine ⟨by rw [hnone]; exact List.nil_prefix, fun hgone => ?_, fun hr => ?_⟩
    · rcases hundecided.reading not_false with hpc | ⟨events, -, hpc⟩ <;> simp [gone, hpc] at hgone
    · rw [hundecided.responding] at hr
      cases hr
  · have hanswered : ∀ {response}, d.session.toConn.Answered response →
        d.session.out <+: response ∧ (d.gone = true → d.session.out = response) := by
      intro response ha
      rw [hout, ha.response_eq]
      refine ⟨List.take_prefix _ _, fun hgone => ?_⟩
      have hclosed : d.session.pc = .closed := by
        simp only [gone, Bool.or_eq_true, decide_eq_true_eq] at hgone
        rcases hgone with hpc | hpc
        · exact hpc
        · have hr := h.delivering.thrown hpc
          rw [ha.responding] at hr
          cases hr
      rw [h.finished hclosed ha.responding, ha.response_eq, List.take_length]
    rw [hsame] at hframed
    unfold reply outcome
    cases hv : frame newline 127 request with
    | pending => exact absurd hv hframe
    | overlong =>
        rw [hv] at hframed
        obtain ⟨hpre, hall⟩ := hanswered hframed.2
        exact ⟨hpre, fun hgone => ⟨hall hgone, hframed.1⟩, fun _ => hframed.2.response_eq⟩
    | line cmd =>
        rw [hv] at hframed
        obtain ⟨hworld, hframed⟩ := hframed
        simp only
        cases hresponse : (handler w cmd).2.response with
        | some response =>
            rw [hresponse] at hframed
            obtain ⟨hpre, hall⟩ := hanswered hframed
            exact ⟨hpre, fun hgone => ⟨hall hgone, hworld⟩, fun _ => hframed.response_eq⟩
        | none =>
            rw [hresponse] at hframed
            have hr := h.delivering.thrown hframed
            have hnone : d.session.out = [] := by
              rw [hout, h.delivering.unsent hr, List.take_zero]
            rw [hnone]
            refine ⟨List.nil_prefix, fun _ => ⟨rfl, hworld⟩, fun hset => ?_⟩
            rw [hr] at hset
            cases hset

/-- A connection is not closed before a byte has arrived, unless it is refused. -/
theorem Talking.refused_of_gone (h : Talking handler w request d) (hgone : d.gone = true)
    (hzero : d.written = 0) : d.door = .refused := by
  by_contra hdoor
  obtain ⟨rx, hrx, hframed⟩ := h.arrived
  rw [hzero, List.take_zero] at hrx
  obtain ⟨rfl, -⟩ := List.append_eq_nil_iff.mp hrx
  rw [eq_false hdoor] at hframed
  unfold Conn.Framed at hframed
  rw [frame_nil] at hframed
  rcases hframed.2.reading not_false with hpc | ⟨events, -, hpc⟩ <;> simp [gone, hpc] at hgone

/-! ### No dialogue is endless -/

/-- What the daemon has to do on the connection before it waits again. -/
def busyness (c : ℕ) (d : Dialogue W) : ℕ :=
  match d.session.pc with
  | .idle => if d.raised c then 3 else 1
  | .recv _ | .send _ => 2
  | .closed | .thrown => 0

/-- What is left to do: each byte of the request enters the socket and leaves it, each byte of the
reply too, and each of these may wake the daemon. -/
def effort (c total : ℕ) (request : Bytes) (d : Dialogue W) : ℕ :=
  (if d.pc = .write then 4 * (request.length - d.written) else 0) + d.upstream.length +
    4 * (total - d.session.out.length) + 3 * d.downstream.length + d.pc.left +
    (if d.door = .backlog then 1 else 0) + d.busyness c

theorem busyness_le (hpc : d.session.pc ≠ .idle) : d.busyness c ≤ 2 := by
  unfold busyness
  split
  · rename_i h
    exact absurd h hpc
  all_goals omega

/-- Bytes on the way may wake the daemon. -/
theorem busyness_frame (hsession : d'.session = d.session) : d'.busyness c ≤ d.busyness c + 2 := by
  unfold busyness
  rw [hsession]
  split
  · split_ifs <;> omega
  all_goals omega

theorem busyness_idle (hpc : d.session.pc = .idle) (hraised : d.raised c = false) :
    d.busyness c = 1 := by
  simp only [busyness, hpc, hraised, Bool.false_eq_true, if_false]

theorem sendLoop_ne_idle (client : Client) (events : UInt32) :
    client.sendLoop.pc events ≠ .idle := by
  unfold Client.sendLoop
  split_ifs <;> nofun

/-- Behind data the connection is not idle. -/
theorem onRecv_ne_idle (events : UInt32) (v : W) (client : Client) (chunk : Chunk) :
    (onRecv handler events v client (.data chunk)).1.pc events ≠ .idle := by
  rw [onRecv_data]
  cases frame newline 127 (client.request ++ chunk.bytes) with
  | pending => nofun
  | overlong => exact sendLoop_ne_idle _ events
  | line cmd =>
      simp only [Client.command]
      split
      · exact sendLoop_ne_idle _ events
      · exact sendLoop_ne_idle _ events
      · nofun

/-- What an idle connection waits for: room for its response, or more of the request. -/
theorem Talking.raised_iff (h : Talking handler w request d) (hpc : d.session.pc = .idle) :
    d.raised c = true ↔
      if d.session.client.responding = true then d.downstream.length < c else d.upstream ≠ [] := by
  by_cases hr : d.session.client.responding = true
  · have hin : epollOut &&& epollIn = 0 := by decide
    have hout : epollOut ≠ 0 := by decide
    rw [if_pos hr, raised, (h.delivering.idle hpc hr).2]
    simp [hin, hout]
  · have hfalse : d.session.client.responding = false := Bool.eq_false_of_not_eq_true hr
    have hin : (epollIn ||| epollRdHup) &&& epollIn ≠ 0 := by decide
    have hout : (epollIn ||| epollRdHup) &&& epollOut = 0 := by decide
    rw [if_neg hr, raised, h.reading hfalse (by rw [hpc]; nofun)]
    simp [hin, hout]

/-- **Each step of the daemon gets on with the dialogue**, unless it is interrupted. -/
theorem effort_daemon (h : Talking handler w request d)
    (hframe : frame newline 127 request ≠ .pending) {l : ConnLabel}
    (hl : ¬ (DialogueLabel.daemon l).interrupted)
    (hstep : dialogueStep handler c request d (.daemon l) = some d') :
    d'.effort c (reply handler w request).length request <
      d.effort c (reply handler w request).length request := by
  have h' := talking_daemon h hstep
  simp only [dialogueStep] at hstep
  split_ifs at hstep with hguard
  obtain ⟨hdoor, hanswers⟩ := hguard
  obtain ⟨s, hs, rfl⟩ := Option.map_eq_some_iff.mp hstep
  have hbound := ((h'.sent hframe (by simp [hdoor])).1).length_le
  have hbytes := (of_answers h hanswers).2.2.2.length_le
  have hlen := congrArg List.length (kept_step h.delivering hs).out
  simp only [List.length_append] at hbound hlen
  -- what the step moves, and where it leaves the daemon
  suffices hmain : busyness c { d with
      session := s
      upstream := d.upstream.drop l.bytes.length
      downstream := d.downstream ++ d.session.client.acceptedIn l } <
      d.busyness c + l.bytes.length + (d.session.client.acceptedIn l).length by
    unfold effort
    simp only [List.length_append, List.length_drop]
    omega
  cases Session.step_of_sessionStep hs with
  | @ready events hpc =>
      simp only [answers, Bool.and_eq_true] at hanswers
      have hbusy : d.busyness c = 3 := by
        simp only [busyness, hpc, hanswers.2, if_true]
      have hnext : (SensorHub.ready d.session.client).pc events ≠ .idle := by
        unfold SensorHub.ready
        split_ifs
        · simp [Action.pc]
        · exact sendLoop_ne_idle _ events
      refine (busyness_le hnext).trans_lt ?_
      omega
  | @recv events result action v client hpc hr =>
      have hbusy : d.busyness c = 2 := by simp only [busyness, hpc]
      cases result with
      | eof => cases hanswers
      | data chunk =>
          have hnext : action.pc events ≠ .idle := by
            have hne := @onRecv_ne_idle (W × List Bytes) handler.logged events d.session.world
              d.session.client chunk
            rwa [hr] at hne
          have hsome : 0 < chunk.bytes.length := List.length_pos_iff.mpr chunk.ne_nil
          refine (busyness_le hnext).trans_lt ?_
          rw [ConnLabel.bytes_data]
          omega
      | err e =>
          simp only [answers, Bool.or_eq_true, Bool.and_eq_true, decide_eq_true_eq] at hanswers
          rcases hanswers with rfl | ⟨rfl, hempty⟩
          · exact absurd trivial hl
          · -- nothing is there, and the daemon waits for more
            have hcalm := h.calm events (Or.inl hpc)
            simp only [onRecv, hcalm, Bool.not_false, if_true, Prod.mk.injEq] at hr
            obtain ⟨rfl, rfl, rfl⟩ := hr
            have hread := h.delivering.recv events hpc
            rw [busyness_idle rfl]
            · omega
            · rw [Bool.eq_false_iff, ne_eq, h'.raised_iff rfl, if_neg]
              · simp [hempty]
              · simp [Session.act, hread]
  | @send events result action client hpc htakes hr =>
      have hbusy : d.busyness c = 2 := by simp only [busyness, hpc]
      cases result with
      | sent n =>
          simp only [answers, Bool.and_eq_true, decide_eq_true_eq] at hanswers
          have htaken : (d.session.client.acceptedIn (.send (.sent n))).length = n := by
            have hn : n ≤ d.session.client.response.length - d.session.client.sent :=
              of_decide_eq_true htakes
            rw [Client.acceptedIn, Client.accepted, List.length_take, List.length_drop,
              Nat.min_eq_left hn]
          have hnext : action.pc events ≠ .idle := by
            simp only [onSend, hanswers.1.ne', if_false, Prod.mk.injEq] at hr
            rw [← hr.1]
            exact sendLoop_ne_idle _ events
          refine (busyness_le hnext).trans_lt ?_
          omega
      | err e =>
          simp only [answers, Bool.or_eq_true, Bool.and_eq_true, decide_eq_true_eq] at hanswers
          rcases hanswers with rfl | ⟨rfl, hfull⟩
          · exact absurd trivial hl
          · -- the socket is full, and the daemon waits for room
            have hcalm := h.calm events (Or.inr hpc)
            simp only [onSend, hcalm, Bool.not_false, if_true, Prod.mk.injEq] at hr
            obtain ⟨rfl, rfl⟩ := hr
            have hresponding := (h.delivering.send events hpc).1
            rw [busyness_idle rfl]
            · omega
            · rw [Bool.eq_false_iff, ne_eq, h'.raised_iff rfl, if_pos]
              · simpa [Client.acceptedIn, Client.accepted] using hfull
              · exact hresponding

/-- **Every step gets on with the dialogue**, unless it is interrupted. -/
theorem effort_lt (h : Talking handler w request d)
    (hframe : frame newline 127 request ≠ .pending) {l : DialogueLabel} (hl : ¬ l.interrupted)
    (hstep : dialogueStep handler c request d l = some d') :
    d'.effort c (reply handler w request).length request <
      d.effort c (reply handler w request).length request := by
  cases l with
  | daemon l => exact effort_daemon h hframe hl hstep
  | accept admitted =>
      simp only [dialogueStep] at hstep
      split_ifs at hstep with hdoor hadmitted <;> cases hstep
      · unfold effort
        simp only [if_pos hdoor, reduceCtorEq, if_false]
        have hbusy : busyness c { d with door := .admitted } = d.busyness c := rfl
        omega
      · have hbusy : busyness c { d with
            door := .refused
            session := { d.session with pc := .closed, interest := none } } = 0 := rfl
        unfold effort
        simp only [if_pos hdoor, reduceCtorEq, if_false, hbusy]
        omega
  | wrote n =>
      simp only [dialogueStep] at hstep
      split_ifs at hstep with hguard hend <;> cases hstep
      all_goals
        obtain ⟨hpc, -, hn, hle, -⟩ := hguard
        have hlen : ((request.drop d.written).take n).length = n := by
          rw [List.length_take, List.length_drop]
          omega
      · have hbusy := @busyness_frame W c d { d with
          upstream := d.upstream ++ (request.drop d.written).take n
          written := d.written + n
          pc := .read } rfl
        unfold effort
        simp only [hpc, if_true, reduceCtorEq, if_false, CtlPc.left, List.length_append, hlen]
        omega
      · have hbusy := @busyness_frame W c d { d with
          upstream := d.upstream ++ (request.drop d.written).take n
          written := d.written + n
          pc := .write } rfl
        unfold effort
        simp only [hpc, if_true, CtlPc.left, List.length_append, hlen]
        omega
  | pipe =>
      simp only [dialogueStep] at hstep
      split_ifs at hstep with hguard hzero <;> cases hstep
      · have hbusy : busyness c { d with pc := .killed } = d.busyness c := rfl
        unfold effort
        simp only [hguard.1, if_true, reduceCtorEq, if_false, CtlPc.left]
        omega
      · have hbusy : busyness c { d with pc := .read } = d.busyness c := rfl
        unfold effort
        simp only [hguard.1, if_true, reduceCtorEq, if_false, CtlPc.left]
        omega
  | read n =>
      simp only [dialogueStep] at hstep
      split_ifs at hstep with hguard
      obtain ⟨hpc, hn, -, hle⟩ := hguard
      cases hstep
      have hbusy := @busyness_frame W c d { d with
        printed := d.printed ++ d.downstream.take n
        downstream := d.downstream.drop n } rfl
      unfold effort
      simp only [List.length_drop]
      omega
  | readEnd =>
      simp only [dialogueStep] at hstep
      split_ifs at hstep with hguard
      cases hstep
      have hbusy : busyness c { d with pc := .returned } = d.busyness c := rfl
      unfold effort
      simp only [hguard.1, reduceCtorEq, if_false, CtlPc.left]
      omega

/-! ### No dialogue is stuck -/

/-- `sensorctl` has come to its end. -/
def ended (d : Dialogue W) : Prop := d.pc = .returned ∨ d.pc = .killed

/-- When the whole request has arrived, the daemon reads no more. -/
theorem Talking.decided (h : Talking handler w request d)
    (hframe : frame newline 127 request ≠ .pending) (hempty : d.upstream = [])
    (hall : d.written = request.length) : d.session.client.responding = true ∨ d.gone = true := by
  obtain ⟨rx, hrx, hframed⟩ := h.arrived
  rw [hempty, List.append_nil, hall, List.take_length] at hrx
  subst hrx
  unfold Conn.Framed at hframed
  cases hv : frame newline 127 rx with
  | pending => exact absurd hv hframe
  | overlong =>
      rw [hv] at hframed
      exact Or.inl hframed.2.responding
  | line cmd =>
      rw [hv] at hframed
      obtain ⟨-, hframed⟩ := hframed
      cases hresponse : (handler w cmd).2.response with
      | some response =>
          rw [hresponse] at hframed
          exact Or.inl hframed.responding
      | none =>
          rw [hresponse] at hframed
          have hpc : d.session.pc = .thrown := hframed
          exact Or.inr (by simp [gone, hpc])

theorem exists_daemon {l : ConnLabel} {s : Session (W × List Bytes)} (hdoor : d.door = .admitted)
    (hanswers : d.answers c l = true)
    (hs : Session.sessionStep handler.logged d.session l = some s) :
    ∃ d', dialogueStep handler c request d (.daemon l) = some d' := by
  simp only [dialogueStep, hdoor, hanswers, and_self, if_true, hs, Option.map_some]
  exact ⟨_, rfl⟩

/-- A connection in `ready` goes on. -/
theorem Talking.busy_goes_on (h : Talking handler w request d) (hdoor : d.door = .admitted)
    {events : UInt32} (hpc : d.session.pc = .recv events ∨ d.session.pc = .send events) :
    ∃ l d', ¬ l.interrupted ∧ dialogueStep handler c request d l = some d' := by
  rcases hpc with hpc | hpc
  · have hrecv : ∀ result, ∃ s,
        Session.sessionStep handler.logged d.session (.recv result) = some s := by
      intro result
      simp only [Session.sessionStep, hpc]
      exact ⟨_, rfl⟩
    by_cases hempty : d.upstream = []
    · obtain ⟨s, hs⟩ := hrecv (.err .EAGAIN)
      obtain ⟨d', hd'⟩ := exists_daemon hdoor (by simp [answers, hempty]) hs
      exact ⟨.daemon (.recv (.err .EAGAIN)), d', not_false, hd'⟩
    · have hne : d.upstream.take 128 ≠ [] := by
        simpa [List.take_eq_nil_iff] using hempty
      have hle : (d.upstream.take 128).length ≤ 128 := List.length_take_le _ _
      let chunk : Chunk := ⟨d.upstream.take 128, hne, hle⟩
      have hchunk : d.answers c (.recv (.data chunk)) = true :=
        decide_eq_true (List.take_prefix 128 d.upstream)
      obtain ⟨s, hs⟩ := hrecv (.data chunk)
      obtain ⟨d', hd'⟩ := exists_daemon hdoor hchunk hs
      exact ⟨.daemon (.recv (.data chunk)), d', not_false, hd'⟩
  · have hsend : ∀ result, d.session.client.takes result = true → ∃ s,
        Session.sessionStep handler.logged d.session (.send result) = some s := by
      intro result htakes
      simp only [Session.sessionStep, hpc, htakes, if_true]
      exact ⟨_, rfl⟩
    have hlt := (h.delivering.send events hpc).2
    by_cases hroom : d.downstream.length < c
    · obtain ⟨s, hs⟩ := hsend (.sent 1) (decide_eq_true (by omega))
      obtain ⟨d', hd'⟩ := exists_daemon hdoor (by simpa [answers] using hroom) hs
      exact ⟨.daemon (.send (.sent 1)), d', not_false, hd'⟩
    · obtain ⟨s, hs⟩ := hsend (.err .EAGAIN) rfl
      obtain ⟨d', hd'⟩ := exists_daemon hdoor (by simpa [answers] using hroom) hs
      exact ⟨.daemon (.send (.err .EAGAIN)), d', not_false, hd'⟩

/-- `sensorctl` writes on while there is room, and reads while there is something. -/
theorem Talking.client_goes_on (h : Talking handler w request d) (hopen : ¬ d.ended)
    (hlive : d.gone = false) (hwrite : d.pc = .write → d.upstream.length < c)
    (hread : d.pc = .read → d.downstream ≠ []) :
    ∃ l d', ¬ l.interrupted ∧ dialogueStep handler c request d l = some d' := by
  cases hpc : d.pc with
  | write =>
      have hlt := h.writing hpc
      have hguard : d.pc = .write ∧ d.gone = false ∧ 0 < 1 ∧ d.written + 1 ≤ request.length ∧
          d.upstream.length + 1 ≤ c := ⟨hpc, hlive, one_pos, hlt, hwrite hpc⟩
      exact ⟨.wrote 1, _, not_false, if_pos hguard⟩
  | read =>
      have hlen := List.length_pos_iff.mpr (hread hpc)
      have hguard : d.pc = .read ∧ 0 < 1 ∧ 1 ≤ 4096 ∧ 1 ≤ d.downstream.length :=
        ⟨hpc, one_pos, by decide, hlen⟩
      exact ⟨.read 1, _, not_false, if_pos hguard⟩
  | returned => exact absurd (Or.inl hpc) hopen
  | killed => exact absurd (Or.inr hpc) hopen

/-- If the daemon waits in vain, `sensorctl` goes on. -/
theorem Talking.idle_goes_on (h : Talking handler w request d) (hopen : ¬ d.ended)
    (hlive : d.gone = false) (hc : 0 < c) (hframe : frame newline 127 request ≠ .pending)
    (hfits : request.length ≤ c ∨ (reply handler w request).length ≤ c)
    (hdoor : d.door = .admitted) (hpc : d.session.pc = .idle)
    (hidle : ¬ if d.session.client.responding = true then d.downstream.length < c
      else d.upstream ≠ []) :
    ∃ l d', ¬ l.interrupted ∧ dialogueStep handler c request d l = some d' := by
  by_cases hr : d.session.client.responding = true
  · -- the socket is full of the response
    rw [if_pos hr, Nat.not_lt] at hidle
    refine h.client_goes_on hopen hlive (fun hwrite => ?_) (fun _ hempty => ?_)
    · rcases hfits with hrequest | hreply
      · obtain ⟨rx, hrx, -⟩ := h.arrived
        have hlen := congrArg List.length hrx
        have hlt := h.writing hwrite
        rw [List.length_append, List.length_take] at hlen
        omega
      · -- then the response is longer than the socket
        have hsent := (h.delivering.idle hpc hr).1
        have hout := congrArg List.length h.out
        have hresponse := (h.sent hframe (by rw [hdoor]; nofun)).2.2 hr
        rw [h.delivering.out_eq, List.length_append, List.length_take] at hout
        rw [hresponse] at hsent hout
        omega
    · rw [hempty, List.length_nil] at hidle
      omega
  · rw [if_neg hr, not_not] at hidle
    refine h.client_goes_on hopen hlive (fun _ => ?_) (fun hread => ?_)
    · rw [hidle]
      exact hc
    · -- the whole request has arrived
      have hall := (h.stopped (by rw [hread]; nofun)).resolve_right (by rw [hlive]; nofun)
      rcases h.decided hframe hidle hall with hset | hgone
      · exact absurd hset hr
      · rw [hlive] at hgone
        cases hgone

/-- `sensorctl` comes to its end once the connection is gone. -/
theorem gone_goes_on (hopen : ¬ d.ended) (hgone : d.gone = true) :
    ∃ l d', ¬ l.interrupted ∧ dialogueStep handler c request d l = some d' := by
  cases hpc : d.pc with
  | write =>
      exact ⟨.pipe, _, not_false, if_pos ⟨hpc, hgone⟩⟩
  | read =>
      by_cases hempty : d.downstream = []
      · exact ⟨.readEnd, _, not_false, if_pos ⟨hpc, hgone, hempty⟩⟩
      · have hlen := List.length_pos_iff.mpr hempty
        have hguard : d.pc = .read ∧ 0 < 1 ∧ 1 ≤ 4096 ∧ 1 ≤ d.downstream.length :=
          ⟨hpc, one_pos, by decide, hlen⟩
        exact ⟨.read 1, _, not_false, if_pos hguard⟩
  | returned => exact absurd (Or.inl hpc) hopen
  | killed => exact absurd (Or.inr hpc) hopen

/-- **As long as `sensorctl` has not ended, somebody can go on**, if the request or the reply fits
into the socket. -/
theorem can_go_on (h : Talking handler w request d) (hc : 0 < c)
    (hframe : frame newline 127 request ≠ .pending)
    (hfits : request.length ≤ c ∨ (reply handler w request).length ≤ c) (hopen : ¬ d.ended) :
    ∃ l d', ¬ l.interrupted ∧ dialogueStep handler c request d l = some d' := by
  by_cases hgone : d.gone = true
  · exact gone_goes_on hopen hgone
  have hlive : d.gone = false := Bool.eq_false_of_not_eq_true hgone
  cases hdoor : d.door with
  | backlog =>
      refine ⟨.accept true, { d with door := .admitted }, not_false, ?_⟩
      simp only [dialogueStep, hdoor, if_true]
  | refused => exact absurd (h.shut hdoor).2 hgone
  | admitted =>
      cases hpc : d.session.pc with
      | recv events => exact h.busy_goes_on hdoor (Or.inl hpc)
      | send events => exact h.busy_goes_on hdoor (Or.inr hpc)
      | closed => exact absurd (by simp [gone, hpc]) hgone
      | thrown => exact absurd (by simp [gone, hpc]) hgone
      | idle =>
          by_cases hraised : d.raised c = true
          · have hready : Session.sessionStep handler.logged d.session (.ready epollIn) =
                some (d.session.act epollIn (SensorHub.ready d.session.client)) := by
              simp only [Session.sessionStep, hpc]
            have hcalm : broken epollIn = false := by decide
            have hanswers : d.answers c (.ready epollIn) = true := by
              simp [answers, hcalm, hraised]
            obtain ⟨d', hd'⟩ := exists_daemon hdoor hanswers hready
            exact ⟨.daemon (.ready epollIn), d', not_false, hd'⟩
          · exact h.idle_goes_on hopen hlive hc hframe hfits hdoor hpc
              fun hr => hraised ((h.raised_iff hpc).mpr hr)

/-- **`sensorctl` prints the reply to its command**, to a daemon whose loop goes on during the
dialogue. Whatever the command and the handler are, and however the two streams are cut:
* what is printed is the beginning of the daemon's reply to the request; when `sensorctl` returns it
  is all of it, and the handler was called once, with the first line, if that is short enough;
* a connection that is refused prints nothing, and only such a one is ended by `SIGPIPE`;
* without interrupted calls the dialogue ends, after a number of steps that the lengths of request
  and reply bound;
* it does not get stuck before that, if the request or the reply fits into the socket. -/
theorem sensorctl_prints_reply (command : Invocation) (hc : 0 < c) {ls : List DialogueLabel}
    (h : run (dialogueStep handler c command.request) (init fd w) ls = some d) :
    (d.printed <+: if d.door = .refused then [] else reply handler w command.request) ∧
    (d.pc = .returned →
      d.printed = (if d.door = .refused then [] else reply handler w command.request) ∧
        (d.door ≠ .refused → d.session.world = outcome handler w command.request)) ∧
    (d.pc = .killed → d.door = .refused ∧ d.printed = []) ∧
    ((∀ l ∈ ls, ¬ l.interrupted) →
      ls.length ≤ 4 * (command.request.length + (reply handler w command.request).length) + 4) ∧
    (command.request.length ≤ c ∨ (reply handler w command.request).length ≤ c →
      d.pc ≠ .returned → d.pc ≠ .killed →
      ∃ l d', ¬ l.interrupted ∧ dialogueStep handler c command.request d l = some d') := by
  have hlength : 0 < command.request.length := by
    rw [Invocation.request, List.length_append]
    exact Nat.add_pos_right _ (by decide)
  have hframe : frame newline 127 command.request ≠ .pending := frame_concat_ne_pending _
  have ht : Talking handler w command.request d :=
    run_inv _ (fun _ _ _ hs hst => talking_step hs hst) (talking_init hlength) h
  have hprinted : d.printed <+: d.session.out := ⟨d.downstream, ht.out.symm⟩
  refine ⟨?_, ?_, ?_, ?_, ?_⟩
  · by_cases hdoor : d.door = .refused
    · rw [if_pos hdoor, ← (ht.shut hdoor).1]
      exact hprinted
    · rw [if_neg hdoor]
      exact hprinted.trans (ht.sent hframe hdoor).1
  · intro hpc
    obtain ⟨hgone, hempty⟩ := ht.returned hpc
    have hall : d.printed = d.session.out := by rw [ht.out, hempty, List.append_nil]
    by_cases hdoor : d.door = .refused
    · rw [if_pos hdoor, hall]
      exact ⟨(ht.shut hdoor).1, fun h => absurd hdoor h⟩
    · obtain ⟨hout, hworld⟩ := (ht.sent hframe hdoor).2.1 hgone
      rw [if_neg hdoor, hall]
      exact ⟨hout, fun _ => hworld⟩
  · intro hpc
    obtain ⟨hgone, hzero⟩ := ht.killed hpc
    have hdoor := ht.refused_of_gone hgone hzero
    rw [(ht.shut hdoor).1] at hprinted
    exact ⟨hdoor, List.prefix_nil.mp hprinted⟩
  · intro hls
    have hdec : ∀ s l t, Talking handler w command.request s → ¬ DialogueLabel.interrupted l →
        dialogueStep handler c command.request s l = some t →
        Talking handler w command.request t ∧
          effort c (reply handler w command.request).length command.request t <
            effort c (reply handler w command.request).length command.request s :=
      fun _ _ _ hs hl hst => ⟨talking_step hs hst, effort_lt hs hframe hl hst⟩
    have hle := run_length_le hdec (talking_init hlength) hls h
    have hstart : effort c (reply handler w command.request).length command.request (init fd w) =
        4 * (command.request.length + (reply handler w command.request).length) + 4 := by
      have hidle : raised c (init fd w) = false := by
        have hout : (epollIn ||| epollRdHup) &&& epollOut = 0 := by decide
        simp [raised, init, Session.accepted, hout]
      rw [effort, busyness_idle rfl hidle]
      simp [init, Session.accepted, CtlPc.left]
      omega
    exact hle.trans hstart.le
  · intro hfits hreturned hkilled
    exact can_go_on ht hc hframe hfits (by rintro (h | h); exacts [hreturned h, hkilled h])

/-- `sensorctl stats` over a socket of six bytes: the request is read in two pieces, and the reply
does not fit. -/
def statsDialogue : List DialogueLabel :=
  [.wrote 6, .accept true, .daemon (.ready epollIn),
    .daemon (.recv (.data ⟨ascii "stat", by decide, by decide⟩)), .daemon (.recv (.err .EINTR)),
    .daemon (.recv (.data ⟨ascii "s\n", by decide, by decide⟩)), .daemon (.send (.sent 6)),
    .daemon (.send (.err .EAGAIN)), .read 4, .daemon (.ready epollOut), .daemon (.send (.sent 3)),
    .read 5, .readEnd]

theorem sensorctl_prints_reply_statsDialogue :
    ∃ d, run (dialogueStep Conn.echo 6 (Sensorctl.parseArgs [ascii "stats"]).request) (init 5 0)
        statsDialogue = some d ∧
      d.printed = ascii "ok:stats\n" ∧ d.session.world = (1, [ascii "stats"]) := by
  obtain ⟨d, hd, hpc, hdoor⟩ : ∃ d,
      run (dialogueStep Conn.echo 6 (Sensorctl.parseArgs [ascii "stats"]).request) (init 5 0)
        statsDialogue = some d ∧ d.pc = .returned ∧ d.door = .admitted := ⟨_, rfl, rfl, rfl⟩
  obtain ⟨-, hreturned, -⟩ := sensorctl_prints_reply _ (by decide) hd
  obtain ⟨hprinted, hworld⟩ := hreturned hpc
  rw [hdoor] at hprinted hworld
  exact ⟨d, hd, hprinted.trans rfl, (hworld nofun).trans rfl⟩

end Dialogue

end SensorHub
