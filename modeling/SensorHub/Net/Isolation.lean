import SensorHub.Net.Registry
import SensorHub.Net.Session

set_option autoImplicit false

/-!
# Control connections do not disturb each other

A step of the event loop is about one control connection or about none. It leaves the state and the
registration of every other connection alone, so the part of a run that is about a connection is a
session of its own, whatever else the loop does in between.

* `concerned`, `admits`, `about`: which connection a step is about; `Moves`, `moves_act`.
* `Effect`, **`effect_of_step`**: what a step does to the connections.
* `lifeStep`, `Follows`, **`follows_run`**: the events of a connection make a session.
* **`connections_isolated`**: two runs with the same events of a connection look the same to it.
-/

namespace SensorHub

open Trans

/-! ### What is seen of a connection -/

/-- The commands the handler is called with in a step of the connection. -/
def Client.callsIn (client : Client) : ConnLabel → List Bytes
  | .recv result => client.calls result
  | _ => []

/-- The bytes the socket accepts in a step of the connection. -/
def Client.acceptedIn (client : Client) : ConnLabel → Bytes
  | .send result => client.accepted result
  | _ => []

/-- What happens to a connection. -/
inductive ConnEvent
  /-- It is accepted and registered. -/
  | admitted
  | conn (l : ConnLabel)
  deriving DecidableEq

/-- The position of the connection `fd` in `ready`. -/
def connPc (fd : ℕ) : LoopPc → ConnPc
  | .recv key events => if key = fd then .recv events else .idle
  | .send key events => if key = fd then .send events else .idle
  | _ => .idle

/-- Where the main thread goes on. -/
def Action.loopPc (fd : ℕ) (events : UInt32) : Action → LoopPc
  | .recv => .recv fd events
  | .send => .send fd events
  | .throw => .thrown
  | _ => .dispatch

/-- The entry after the action. -/
def Action.kept (entry : Entry) : Action → Option Entry
  | .close => none
  | _ => some entry

/-! ### The number of a descriptor does not matter -/

/-- The handler whose reply is `reply`. -/
def Handler.ofReply (reply : Bytes → Reply) : Handler Unit := fun _ cmd => ((), reply cmd)

section Renumber

variable {W : Type*} {handler : Handler W} {reply : Bytes → Reply}

theorem command_ofReply (hreply : ∀ w cmd, (handler w cmd).2 = reply cmd) (client : Client) (w : W)
    (line : Bytes) (fd : ℕ) :
    Client.command { client with fd := fd } (.ofReply reply) () line =
      ((client.command handler w line).1, (),
        { (client.command handler w line).2.2 with fd := fd }) := by
  have hw : (handler w line).2.response = (reply line).response := by rw [hreply]
  cases hr : (reply line).response with
  | none =>
      rw [Client.command_of_none client (hw.trans hr), Client.command_of_none]
      exact hr
  | some response =>
      rw [Client.command_of_some client (hw.trans hr), Client.command_of_some]
      · rfl
      · exact hr

theorem onRecv_ofReply (hreply : ∀ w cmd, (handler w cmd).2 = reply cmd) (events : UInt32) (w : W)
    (client : Client) (result : RecvResult) (fd : ℕ) :
    onRecv (.ofReply reply) events () { client with fd := fd } result =
      ((onRecv handler events w client result).1, (),
        { (onRecv handler events w client result).2.2 with fd := fd }) := by
  cases result with
  | eof => rfl
  | err e => cases e <;> rfl
  | data chunk =>
      simp only [onRecv]
      cases hf : (find newline (client.request ++ chunk.bytes)).filter (· ≤ 127) with
      | some p => exact command_ofReply hreply { client with request := _ } w _ fd
      | none =>
          simp only
          split_ifs <;> rfl

theorem onSend_fd_eq (events : UInt32) (client : Client) (result : SendResult) (fd : ℕ) :
    onSend events { client with fd := fd } result =
      ((onSend events client result).1, { (onSend events client result).2 with fd := fd }) := by
  cases result with
  | err e => cases e <;> rfl
  | sent n =>
      simp only [onSend]
      split_ifs <;> rfl

end Renumber

namespace Reactor

variable {W : Type*} {fx : Fixed} {handler : Handler (Host W)} {s t : Reactor W} {l : LoopLabel}

/-- The connection whose `ready` runs in the step, and the step it takes. -/
def concerned (s : Reactor W) : LoopLabel → Option (Entry × ConnLabel)
  | .next =>
      match s.batch with
      | [] => none
      | e :: _ =>
          match s.callbacks.lookup e.fd with
          | some (.client key) => (s.clients.lookup key).map fun entry => (entry, .ready e.events)
          | _ => none
  | .recv result =>
      match s.pc with
      | .recv fd _ => (s.clients.lookup fd).map fun entry => (entry, .recv result)
      | _ => none
  | .send result =>
      match s.pc with
      | .send fd _ => (s.clients.lookup fd).map fun entry => (entry, .send result)
      | _ => none
  | _ => none

/-- The step admits a connection. -/
def admits (s : Reactor W) : LoopLabel → Bool
  | .accept (.conn fd added) => s.clients.keys.card < 64 ∧ added = true ∧ fd ∉ s.interest
  | _ => false

/-- What `f` says of the step if it is about the connection `k`. -/
def about {α : Type*} (f : Client → ConnLabel → List α) (k : ℕ) (s : Reactor W) (l : LoopLabel) :
    List α :=
  match s.concerned l with
  | some (entry, cl) => if entry.conn = k then f entry.client cl else []
  | none => []

/-- The event of the connection `k` in the step. -/
def eventsNow (k : ℕ) (s : Reactor W) (l : LoopLabel) : List ConnEvent :=
  (if s.admits l = true ∧ s.nextId = k then [.admitted] else []) ++
    about (fun _ cl => [.conn cl]) k s l

/-- The events of the connection `k` in a run. -/
def events (handler : Handler (Host W)) (k : ℕ) (s : Reactor W) (ls : List LoopLabel) :
    List ConnEvent :=
  trace (loopStep handler) (eventsNow k) s ls

/-- The commands the handler is called with for the connection `k`. -/
def calls (handler : Handler (Host W)) (k : ℕ) (s : Reactor W) (ls : List LoopLabel) :
    List Bytes :=
  trace (loopStep handler) (about Client.callsIn k) s ls

/-- The bytes that the socket of the connection `k` accepts. -/
def sent (handler : Handler (Host W)) (k : ℕ) (s : Reactor W) (ls : List LoopLabel) : Bytes :=
  trace (loopStep handler) (about Client.acceptedIn k) s ls

/-- The connection `k` is open. -/
def IsOpen (k : ℕ) (s : Reactor W) : Prop :=
  ∃ fd entry, s.clients.lookup fd = some entry ∧ entry.conn = k

/-! ### What a step does to the connections -/

/-- `ready` has dealt with the connection `fd`, which was to be left as `entry`, and goes on with
`action`. -/
structure Moves (fd : ℕ) (entry : Entry) (events : UInt32) (action : Action) (s t : Reactor W) :
    Prop where
  clients : ∀ k, t.clients.lookup k = if k = fd then action.kept entry else s.clients.lookup k
  interest : ∀ k, t.interest.lookup k =
    if k = fd then action.interest (s.interest.lookup fd) else s.interest.lookup k
  nextId : t.nextId = s.nextId
  pc : t.pc = action.loopPc fd events

theorem moves_act (hs : Tables fx s) {fd : ℕ} {entry : Entry}
    (he : s.clients.lookup fd = some entry) (events : UInt32) (action : Action) :
    Moves fd entry events action s (s.act fd events action) := by
  have hclients : ∀ k, s.clients.lookup k = if k = fd then some entry else s.clients.lookup k := by
    intro k
    split_ifs with hk
    · rw [hk, he]
    · rfl
  have hinterest : ∀ k, s.interest.lookup k =
      if k = fd then s.interest.lookup fd else s.interest.lookup k := by
    intro k
    split_ifs with hk
    · rw [hk]
    · rfl
  have hmem := Finmap.mem_of_lookup_eq_some he
  cases action with
  | recv => exact ⟨hclients, hinterest, rfl, rfl⟩
  | send => exact ⟨hclients, hinterest, rfl, rfl⟩
  | wait => exact ⟨hclients, hinterest, rfl, rfl⟩
  | wantWrite =>
      have hin : fd ∈ s.interest := (hs.interest fd).mpr (hs.mem_callbacks.mpr (Or.inl hmem))
      rw [act, modify, if_pos hin]
      exact ⟨hclients, fun k => Table.lookup_insert_eq _ _ _ _, rfl, rfl⟩
  | close =>
      rw [act, closeClient_eq hs hmem]
      refine ⟨fun k => Table.lookup_erase_eq _ _ _, fun k => ?_, rfl, rfl⟩
      simp only [Table.lookup_erase_eq, Action.interest]
      split_ifs <;> rfl
  | throw => exact ⟨hclients, hinterest, rfl, rfl⟩

theorem Moves.of_set {fd : ℕ} {entry : Entry} {events : UInt32} {action : Action} {host : Host W}
    (h : Moves fd entry events action
      { s with host := host, clients := s.clients.insert fd entry } t) :
    Moves fd entry events action s t := by
  refine ⟨fun k => ?_, h.interest, h.nextId, h.pc⟩
  rw [h.clients k, Table.lookup_insert_eq]
  split_ifs <;> rfl

/-- What a step does to the connections: it is about none of them, admits one, or is a step of the
`ready` of one. -/
inductive Effect (handler : Handler (Host W)) (s : Reactor W) (l : LoopLabel) (t : Reactor W) : Prop
  | elsewhere (hc : s.concerned l = none) (ha : s.admits l = false)
      (hclients : t.clients = s.clients)
      (hinterest : ∀ fd ∈ s.clients, t.interest.lookup fd = s.interest.lookup fd)
      (hid : s.nextId ≤ t.nextId)
      (hpc : t.pc = s.pc ∨ (busy s.pc = none ∧ busy t.pc = none ∧ s.pc ≠ .thrown))
  | admitted (fd : ℕ) (hc : s.concerned l = none) (ha : s.admits l = true) (hnew : fd ∉ s.clients)
      (hclients : t.clients = s.clients.insert fd ⟨Client.new fd, s.nextId⟩)
      (hinterest : t.interest = s.interest.insert fd (epollIn ||| epollRdHup))
      (hid : t.nextId = s.nextId + 1) (hpc : busy s.pc = none ∧ t.pc = s.pc)
  | ready (fd : ℕ) (entry : Entry) (events : UInt32) (ha : s.admits l = false)
      (hc : s.concerned l = some (entry, .ready events))
      (he : s.clients.lookup fd = some entry) (hpc : s.pc = .dispatch)
      (hmoves : Moves fd entry events (SensorHub.ready entry.client) s t)
  | recv (fd : ℕ) (entry : Entry) (events : UInt32) (result : RecvResult) (action : Action)
      (host : Host W) (client : Client) (ha : s.admits l = false)
      (hc : s.concerned l = some (entry, .recv result))
      (he : s.clients.lookup fd = some entry) (hpc : s.pc = .recv fd events)
      (hr : onRecv handler events s.host entry.client result = (action, host, client))
      (hmoves : Moves fd { entry with client := client } events action s t)
  | send (fd : ℕ) (entry : Entry) (events : UInt32) (result : SendResult) (action : Action)
      (client : Client) (ha : s.admits l = false)
      (hc : s.concerned l = some (entry, .send result))
      (he : s.clients.lookup fd = some entry) (hpc : s.pc = .send fd events)
      (htakes : entry.client.takes result = true)
      (hr : onSend events entry.client result = (action, client))
      (hmoves : Moves fd { entry with client := client } events action s t)

theorem effect_dispatch (hs : Steady fx s) {e : Event} {rest : List Event}
    (hpc : s.pc = .dispatch) (hbatch : s.batch = e :: rest) :
    Effect handler s .next ({ s with batch := rest }.dispatch e) := by
  have hreg : e.fd ∈ s.callbacks := by
    refine hs.raised.registered e ?_
    rw [hbatch]
    exact List.mem_cons_self
  have hbusy : busy s.pc = none := by
    rw [hpc]
    rfl
  rcases hs.tables.callback_cases hreg with ⟨cb, hcb, hfx, -⟩ | ⟨hcb, hmem⟩
  · -- a callback of `main`
    have hnone : ∀ key, cb ≠ .client key := by
      rintro key rfl
      exact Fixed.callback_ne_client fx e.fd key hfx
    have hc : s.concerned .next = none := by
      simp only [concerned, hbatch, hcb]
      cases cb <;> first | rfl | exact absurd rfl (hnone _)
    simp only [dispatch, hcb]
    have hne : s.pc ≠ .thrown := by
      rw [hpc]
      rintro ⟨⟩
    cases cb with
    | source => exact .elsewhere hc rfl rfl (fun _ _ => rfl) le_rfl (Or.inr ⟨hbusy, rfl, hne⟩)
    | signal => exact .elsewhere hc rfl rfl (fun _ _ => rfl) le_rfl (Or.inl rfl)
    | control => exact .elsewhere hc rfl rfl (fun _ _ => rfl) le_rfl (Or.inr ⟨hbusy, rfl, hne⟩)
    | tcp => exact .elsewhere hc rfl rfl (fun _ _ => rfl) le_rfl (Or.inr ⟨hbusy, rfl, hne⟩)
    | client key => exact absurd rfl (hnone key)
  · obtain ⟨entry, he⟩ := Finmap.mem_iff.mp hmem
    have hc : s.concerned .next = some (entry, .ready e.events) := by
      simp only [concerned, hbatch, hcb, he, Option.map_some]
    simp only [dispatch, hcb, he]
    have hm := moves_act (hs.tables.frame s.nextId rest s.pc s.host) he e.events
      (SensorHub.ready entry.client)
    exact .ready e.fd entry e.events rfl hc he hpc ⟨hm.clients, hm.interest, hm.nextId, hm.pc⟩

theorem effect_accept (hs : Steady fx s) (hpc : s.pc = .accept) {result : AcceptResult}
    (h : s.acceptReady result = some t) : Effect handler s (.accept result) t := by
  have hbusy : busy s.pc = none := by
    rw [hpc]
    rfl
  have hne : s.pc ≠ .thrown := by
    rw [hpc]
    rintro ⟨⟩
  cases result with
  | conn fd added =>
      simp only [acceptReady] at h
      split_ifs at h with hfd
      cases h
      have hcb : fd ∉ s.callbacks := fun h => hfd (hs.tables.registered_files h)
      have hnew : fd ∉ s.clients := fun h => hcb (hs.tables.mem_callbacks.mpr (Or.inl h))
      -- the other connections have other numbers
      have hother : ∀ k ∈ s.clients, (s.interest.erase fd).lookup k = s.interest.lookup k := by
        intro k hk
        rw [Table.lookup_erase_eq, if_neg (ne_of_mem_of_not_mem hk hnew)]
      rcases addClient_cases (s := s.openFile fd .control) hnew s.nextId added with
        ⟨hfull, h⟩ | ⟨hroom, hadd, h⟩ | ⟨hfail, h⟩
      · have ha : s.admits (.accept (.conn fd added)) = false :=
          decide_eq_false fun h => absurd h.1 (Nat.not_lt.mpr hfull)
        rw [h]
        exact .elsewhere rfl ha rfl hother (Nat.le_succ _) (Or.inl rfl)
      · have ha : s.admits (.accept (.conn fd added)) = true := decide_eq_true ⟨hroom, hadd⟩
        rw [h]
        exact .admitted fd rfl ha hnew rfl rfl rfl ⟨hbusy, rfl⟩
      · have ha : s.admits (.accept (.conn fd added)) = false :=
          decide_eq_false fun h => hfail h.2
        rw [h]
        exact .elsewhere rfl ha rfl hother (Nat.le_succ _) (Or.inr ⟨hbusy, rfl, hne⟩)
  | err e =>
      unfold acceptReady at h
      split at h
      · rename_i heq; cases heq
      · cases h
        exact .elsewhere rfl rfl rfl (fun _ _ => rfl) le_rfl (Or.inl rfl)
      · cases h
        exact .elsewhere rfl rfl rfl (fun _ _ => rfl) le_rfl (Or.inr ⟨hbusy, rfl, hne⟩)
      · cases h
        exact .elsewhere rfl rfl rfl (fun _ _ => rfl) le_rfl (Or.inr ⟨hbusy, rfl, hne⟩)

/-- **A step is about one connection at most.** -/
theorem effect_of_step (hs : Steady fx s) (h : loopStep handler s l = some t) :
    Effect handler s l t := by
  -- the main thread moves on, outside of `ready`
  have helse : ∀ {pc pc' : LoopPc}, s.pc = pc → busy pc = none ∧ busy pc' = none ∧ pc ≠ .thrown →
      s.concerned l = none → s.admits l = false → ∀ batch,
      Effect handler s l { s with batch := batch, pc := pc' } := by
    rintro pc pc' rfl hfree hc ha batch
    exact .elsewhere hc ha rfl (fun _ _ => rfl) le_rfl (Or.inr hfree)
  have hclose : ∀ {fd : ℕ} {tcp : List ℕ}, s.concerned l = none → s.admits l = false →
      fd ∉ s.callbacks → Effect handler s l ({ s with tcp := tcp }.closeFile fd) := by
    intro fd tcp hc ha hcb
    refine .elsewhere hc ha rfl (fun k hk => ?_) le_rfl (Or.inl rfl)
    have hk' : k ∈ s.callbacks := hs.tables.mem_callbacks.mpr (Or.inl hk)
    exact (Table.lookup_erase_eq _ _ _).trans (if_neg (ne_of_mem_of_not_mem hk' hcb))
  cases step_of_loopStep h with
  | epollWait hpc hrun hcan => exact helse hpc ⟨rfl, rfl, by decide⟩ rfl rfl _
  | interrupted hpc => exact .elsewhere rfl rfl rfl (fun _ _ => rfl) le_rfl (Or.inl rfl)
  | epollFail hpc he => exact helse hpc ⟨rfl, rfl, by decide⟩ rfl rfl _
  | leave hpc hrun => exact helse hpc ⟨rfl, rfl, by decide⟩ rfl rfl _
  | done hpc hbatch =>
      exact helse hpc ⟨rfl, rfl, by decide⟩ (by simp only [concerned, hbatch]) rfl _
  | dispatch hpc hbatch => exact effect_dispatch hs hpc hbatch
  | sourceRead hpc => exact helse hpc ⟨rfl, rfl, by decide⟩ rfl rfl _
  | sourceFail hpc => exact helse hpc ⟨rfl, rfl, by decide⟩ rfl rfl _
  | accept hpc h => exact effect_accept hs hpc h
  | @tcpAccept result t hpc h =>
      unfold tcpAcceptReady at h
      split at h
      · split_ifs at h
        cases h
        exact .elsewhere rfl rfl rfl (fun _ _ => rfl) (Nat.le_succ _) (Or.inl rfl)
      · cases h
        exact helse hpc ⟨rfl, rfl, by decide⟩ rfl rfl _
      · cases h
        exact helse hpc ⟨rfl, rfl, by decide⟩ rfl rfl _
  | @recv fd events entry result action host client hpc he hr =>
      have hc : s.concerned (.recv result) = some (entry, .recv result) := by
        simp only [concerned, hpc, he, Option.map_some]
      have hfd := onRecv_fd handler events s.host entry.client result
      rw [hr] at hfd
      have hm := moves_act ((hs.tables.setClient he hfd).frame s.nextId s.batch s.pc host)
        (Finmap.lookup_insert s.clients) events action
      exact .recv fd entry events result action host client rfl hc he hpc hr hm.of_set
  | @send fd events entry result action client hpc he htakes hr =>
      have hc : s.concerned (.send result) = some (entry, .send result) := by
        simp only [concerned, hpc, he, Option.map_some]
      have hfd := onSend_fd events entry.client result
      rw [hr] at hfd
      have hm := moves_act ((hs.tables.setClient he hfd).frame s.nextId s.batch s.pc s.host)
        (Finmap.lookup_insert s.clients) events action
      exact .send fd entry events result action client rfl hc he hpc htakes hr hm.of_set
  | kept hfd hk => exact .elsewhere rfl rfl rfl (fun _ _ => rfl) le_rfl (Or.inl rfl)
  | @dropped fd size result hfd hk =>
      obtain ⟨id, hid⟩ := hs.tables.tcp fd hfd
      exact hclose rfl rfl (hs.tables.not_registered hid (Or.inl rfl))
  | openOther hfd => exact .elsewhere rfl rfl rfl (fun _ _ => rfl) (Nat.le_succ _) (Or.inl rfl)
  | closeOther hf hh => exact hclose rfl rfl (hs.tables.not_registered hf (Or.inr hh))

/-! ### The numbers of the connections -/

/-- A file that is opened gets a number of its own. -/
structure Distinct (s : Reactor W) : Prop where
  born : ∀ fd entry, s.clients.lookup fd = some entry → entry.conn < s.nextId
  inj : ∀ fd fd' entry entry', s.clients.lookup fd = some entry →
    s.clients.lookup fd' = some entry' → entry.conn = entry'.conn → fd = fd'

theorem distinct_init (fx : Fixed) (host : Host W) : Distinct (init fx host) := ⟨nofun, nofun⟩

/-- A connection that is there after a step of `ready` was there before. -/
theorem Moves.old {fd k : ℕ} {entry entry' e : Entry} {events : UInt32} {action : Action}
    (h : Moves fd entry' events action s t) (he : s.clients.lookup fd = some entry)
    (hconn : entry'.conn = entry.conn) (hk : t.clients.lookup k = some e) :
    ∃ e', s.clients.lookup k = some e' ∧ e'.conn = e.conn := by
  rw [h.clients k] at hk
  split_ifs at hk with hkfd
  · subst hkfd
    refine ⟨entry, he, ?_⟩
    cases action <;> cases hk <;> exact hconn.symm
  · exact ⟨e, hk, rfl⟩

theorem Distinct.moves {fd : ℕ} {entry entry' : Entry} {events : UInt32} {action : Action}
    (hs : Distinct s) (h : Moves fd entry' events action s t)
    (he : s.clients.lookup fd = some entry) (hconn : entry'.conn = entry.conn) : Distinct t := by
  refine ⟨fun k e hk => ?_, fun k k' e e' hk hk' hee => ?_⟩
  · obtain ⟨e₀, hk₀, hconn₀⟩ := h.old he hconn hk
    rw [← hconn₀, h.nextId]
    exact hs.born k e₀ hk₀
  · obtain ⟨e₀, hk₀, hconn₀⟩ := h.old he hconn hk
    obtain ⟨e₁, hk₁, hconn₁⟩ := h.old he hconn hk'
    exact hs.inj k k' e₀ e₁ hk₀ hk₁ (hconn₀.trans (hee.trans hconn₁.symm))

theorem distinct_step (hs : Distinct s) (h : Effect handler s l t) : Distinct t := by
  cases h with
  | elsewhere hc ha hclients hinterest hid hpc =>
      refine ⟨?_, ?_⟩ <;> rw [hclients]
      · exact fun fd entry he => (hs.born fd entry he).trans_le hid
      · exact hs.inj
  | admitted fd hc ha hnew hclients hinterest hid hpc =>
      have hcase : ∀ k e, t.clients.lookup k = some e →
          (k = fd ∧ e.conn = s.nextId) ∨ s.clients.lookup k = some e := by
        intro k e hk
        rw [hclients, Table.lookup_insert_eq] at hk
        split_ifs at hk with hkfd
        · cases hk
          exact Or.inl ⟨hkfd, rfl⟩
        · exact Or.inr hk
      refine ⟨fun k e hk => ?_, fun k k' e e' hk hk' hee => ?_⟩
      · rw [hid]
        rcases hcase k e hk with ⟨-, hconn⟩ | hk
        · omega
        · have := hs.born k e hk
          omega
      · rcases hcase k e hk with ⟨rfl, hconn⟩ | hk <;>
          rcases hcase k' e' hk' with ⟨rfl, hconn'⟩ | hk'
        · rfl
        · have := hs.born k' e' hk'
          omega
        · have := hs.born k e hk
          omega
        · exact hs.inj k k' e e' hk hk' hee
  | ready fd entry events ha hc he hpc hmoves => exact hs.moves hmoves he rfl
  | recv fd entry events result action host client ha hc he hpc hr hmoves =>
      exact hs.moves hmoves he rfl
  | send fd entry events result action client ha hc he hpc htakes hr hmoves =>
      exact hs.moves hmoves he rfl

/-! ### A connection is a session -/

/-- The life of a connection: `none` until it is admitted, a session from then on. -/
def lifeStep (reply : Bytes → Reply) :
    Option (Session Unit) → ConnEvent → Option (Option (Session Unit))
  | none, .admitted => some (some (Session.accepted 0 ()))
  | some σ, .conn cl => (Session.sessionStep (.ofReply reply) σ cl).map some
  | _, _ => none

/-- The connection `k` is open as `fd`, in the state of the session. -/
structure Open (k fd : ℕ) (entry : Entry) (s : Reactor W) (σ : Session Unit) : Prop where
  lookup : s.clients.lookup fd = some entry
  conn : entry.conn = k
  client : σ.client = { entry.client with fd := 0 }
  interest : σ.interest = s.interest.lookup fd
  pc : σ.pc = connPc fd s.pc ∨ (σ.pc = .thrown ∧ s.pc = .thrown)

/-- No entry belongs to the connection `k`. -/
def Absent (k : ℕ) (s : Reactor W) : Prop :=
  ∀ fd entry, s.clients.lookup fd = some entry → entry.conn ≠ k

/-- The connection `k` is where its life says it is. -/
def Follows (k : ℕ) (s : Reactor W) : Option (Session Unit) → Prop
  | none => Absent k s
  | some σ => k < s.nextId ∧
      ((∃ fd entry, Open k fd entry s σ) ∨ (σ.pc = .closed ∧ Absent k s))

theorem connPc_of_not_busy {fd : ℕ} {pc : LoopPc} (h : busy pc ≠ some fd) :
    connPc fd pc = .idle := by
  cases pc with
  | recv key events => exact if_neg fun hk => h (congrArg some hk)
  | send key events => exact if_neg fun hk => h (congrArg some hk)
  | _ => rfl

theorem connPc_ne_closed (fd : ℕ) (pc : LoopPc) : connPc fd pc ≠ .closed := by
  unfold connPc
  split
  · split_ifs <;> nofun
  · split_ifs <;> nofun
  · nofun

theorem busy_loopPc (fd : ℕ) (events : UInt32) (action : Action) :
    busy (action.loopPc fd events) = none ∨ busy (action.loopPc fd events) = some fd := by
  cases action <;> first | exact Or.inl rfl | exact Or.inr rfl

/-- The step leaves the connections alone. -/
theorem follows_elsewhere {k : ℕ} {σ : Option (Session Unit)} (hf : Follows k s σ)
    (hclients : t.clients = s.clients)
    (hinterest : ∀ fd ∈ s.clients, t.interest.lookup fd = s.interest.lookup fd)
    (hid : s.nextId ≤ t.nextId)
    (hpc : t.pc = s.pc ∨ (busy s.pc = none ∧ busy t.pc = none ∧ s.pc ≠ .thrown)) :
    Follows k t σ := by
  have habsent : Absent k s → Absent k t := fun h fd entry he => h fd entry (hclients ▸ he)
  cases σ with
  | none => exact habsent hf
  | some σ =>
      obtain ⟨hborn, hcase⟩ := hf
      refine ⟨hborn.trans_le hid, ?_⟩
      rcases hcase with ⟨fd, entry, hopen⟩ | ⟨hclosed, hnone⟩
      · refine Or.inl ⟨fd, entry, ?_, hopen.conn, hopen.client, ?_, ?_⟩
        · rw [hclients]
          exact hopen.lookup
        · rw [hinterest fd (Finmap.mem_of_lookup_eq_some hopen.lookup)]
          exact hopen.interest
        · rcases hpc with hpc | ⟨hbusy, hbusy', hne⟩
          · rw [hpc]
            exact hopen.pc
          · have hidle : connPc fd s.pc = .idle := connPc_of_not_busy (by rw [hbusy]; rintro ⟨⟩)
            have hidle' : connPc fd t.pc = .idle := connPc_of_not_busy (by rw [hbusy']; rintro ⟨⟩)
            rcases hopen.pc with hpc | ⟨-, hthrown⟩
            · exact Or.inl (hpc.trans (hidle.trans hidle'.symm))
            · exact absurd hthrown hne
      · exact Or.inr ⟨hclosed, habsent hnone⟩

section Admitted

variable {k fd : ℕ} (hclients : t.clients = s.clients.insert fd ⟨Client.new fd, s.nextId⟩)
  (hinterest : t.interest = s.interest.insert fd (epollIn ||| epollRdHup))
  (hid : t.nextId = s.nextId + 1)

include hclients hinterest hid

theorem follows_new (hk : s.nextId = k) (hpc : busy s.pc = none ∧ t.pc = s.pc) :
    Follows k t (some (Session.accepted 0 ())) := by
  refine ⟨by rw [hid, hk]; exact Nat.lt_succ_self k,
    Or.inl ⟨fd, ⟨Client.new fd, s.nextId⟩, ?_, hk, rfl, ?_, Or.inl ?_⟩⟩
  · rw [hclients, Finmap.lookup_insert]
  · rw [hinterest, Finmap.lookup_insert]
    rfl
  · rw [hpc.2, connPc_of_not_busy (by rw [hpc.1]; rintro ⟨⟩)]
    rfl

/-- Another connection is admitted. -/
theorem follows_admitted {σ : Option (Session Unit)} (hf : Follows k s σ) (hk : s.nextId ≠ k)
    (hnew : fd ∉ s.clients) (hpc : t.pc = s.pc) : Follows k t σ := by
  have habsent : Absent k s → Absent k t := by
    intro hnone k' e hk'
    rw [hclients, Table.lookup_insert_eq] at hk'
    split_ifs at hk'
    · cases hk'
      exact hk
    · exact hnone k' e hk'
  cases σ with
  | none => exact habsent hf
  | some σ =>
      obtain ⟨hborn, hcase⟩ := hf
      refine ⟨by rw [hid]; exact hborn.trans (Nat.lt_succ_self _), ?_⟩
      rcases hcase with ⟨fd', e, hopen⟩ | ⟨hclosed, hnone⟩
      · have hfd : fd' ≠ fd :=
          ne_of_mem_of_not_mem (Finmap.mem_of_lookup_eq_some hopen.lookup) hnew
        refine Or.inl ⟨fd', e, ?_, hopen.conn, hopen.client, ?_, ?_⟩
        · rw [hclients, Table.lookup_insert_eq, if_neg hfd]
          exact hopen.lookup
        · rw [hinterest, Table.lookup_insert_eq, if_neg hfd]
          exact hopen.interest
        · rw [hpc]
          exact hopen.pc
      · exact Or.inr ⟨hclosed, habsent hnone⟩

end Admitted

section Worked

variable {k fd : ℕ} {entry entry' : Entry} {events : UInt32} {action : Action}

/-- The step is one of another connection. -/
theorem follows_other {σ : Option (Session Unit)} (hf : Follows k s σ)
    (he : s.clients.lookup fd = some entry) (hne : entry.conn ≠ k)
    (hmoves : Moves fd entry' events action s t) (hconn : entry'.conn = entry.conn)
    (hbusy : busy s.pc = none ∨ busy s.pc = some fd) (hthrown : s.pc ≠ .thrown) :
    Follows k t σ := by
  have habsent : Absent k s → Absent k t := by
    intro hnone k' e hk'
    obtain ⟨e₀, hk₀, hconn₀⟩ := hmoves.old he hconn hk'
    rw [← hconn₀]
    exact hnone k' e₀ hk₀
  cases σ with
  | none => exact habsent hf
  | some σ =>
      obtain ⟨hborn, hcase⟩ := hf
      refine ⟨by rw [hmoves.nextId]; exact hborn, ?_⟩
      rcases hcase with ⟨fd', e, hopen⟩ | ⟨hclosed, hnone⟩
      · have hfd : fd' ≠ fd := by
          rintro rfl
          rw [hopen.lookup] at he
          cases he
          exact hne hopen.conn
        have hidle : ∀ {pc}, busy pc = none ∨ busy pc = some fd → connPc fd' pc = .idle := by
          rintro pc (h | h) <;> refine connPc_of_not_busy ?_ <;> rw [h]
          · nofun
          · exact fun h => hfd (Option.some.inj h).symm
        refine Or.inl ⟨fd', e, ?_, hopen.conn, hopen.client, ?_, ?_⟩
        · rw [hmoves.clients, if_neg hfd]
          exact hopen.lookup
        · rw [hmoves.interest, if_neg hfd]
          exact hopen.interest
        · rcases hopen.pc with hpc | ⟨-, h⟩
          · rw [hmoves.pc, hidle (busy_loopPc fd events action), ← hidle hbusy]
            exact Or.inl hpc
          · exact absurd h hthrown
      · exact Or.inr ⟨hclosed, habsent hnone⟩

/-- The step is one of the connection `k`. -/
theorem follows_moves {σ σ' : Session Unit} (hd : Distinct s) (hborn : k < s.nextId)
    (hopen : Open k fd entry s σ) (hmoves : Moves fd entry' events action s t)
    (hconn : entry'.conn = entry.conn) (hclient : σ'.client = { entry'.client with fd := 0 })
    (hinterest : σ'.interest = action.interest σ.interest) (hpc : σ'.pc = action.pc events) :
    Follows k t (some σ') := by
  refine ⟨by rw [hmoves.nextId]; exact hborn, ?_⟩
  have hlookup : t.clients.lookup fd = action.kept entry' := by
    rw [hmoves.clients, if_pos rfl]
  have hreg : σ'.interest = t.interest.lookup fd := by
    rw [hinterest, hopen.interest, hmoves.interest, if_pos rfl]
  have hpos : action ≠ .throw → action ≠ .close → σ'.pc = connPc fd t.pc := by
    intro hthrow hclose
    rw [hpc, hmoves.pc]
    cases action <;> first | rfl | exact absurd rfl hthrow | exact absurd rfl hclose |
      exact (if_pos rfl).symm
  by_cases hclose : action = .close
  · -- no entry is left
    subst hclose
    refine Or.inr ⟨hpc, fun k' e hk' hconn' => ?_⟩
    obtain ⟨e₀, hk₀, hconn₀⟩ := hmoves.old hopen.lookup hconn hk'
    have hfd := hd.inj k' fd e₀ entry hk₀ hopen.lookup
      (hconn₀.trans (hconn'.trans hopen.conn.symm))
    rw [hfd, hlookup] at hk'
    cases hk'
  · have hkept : action.kept entry' = some entry' := by
      cases action <;> first | rfl | exact absurd rfl hclose
    refine Or.inl ⟨fd, entry', hlookup.trans hkept, hconn.trans hopen.conn, hclient, hreg, ?_⟩
    by_cases hthrow : action = .throw
    · subst hthrow
      exact Or.inr ⟨hpc, hmoves.pc⟩
    · exact Or.inl (hpos hthrow hclose)

end Worked

section About

variable {α : Type*} {f : Client → ConnLabel → List α} {k : ℕ} {entry : Entry} {cl : ConnLabel}

theorem about_none (hc : s.concerned l = none) : about f k s l = [] := by
  rw [about, hc]

theorem about_self (hc : s.concerned l = some (entry, cl)) (hk : entry.conn = k) :
    about f k s l = f entry.client cl := by
  rw [about, hc]
  exact if_pos hk

theorem about_other (hc : s.concerned l = some (entry, cl)) (hk : entry.conn ≠ k) :
    about f k s l = [] := by
  rw [about, hc]
  exact if_neg hk

theorem eventsNow_of_not_admits (ha : s.admits l = false) :
    eventsNow k s l = about (fun _ cl => [.conn cl]) k s l := by
  rw [eventsNow, ha, if_neg (fun h => Bool.false_ne_true h.1), List.nil_append]

end About

/-- The record of a life. -/
def lifeCalls (σ : Option (Session Unit)) : List Bytes := σ.elim [] Session.calls
def lifeOut (σ : Option (Session Unit)) : Bytes := σ.elim [] Session.out

/-- The life of the connection `k` goes on as the step says. -/
structure Advances (reply : Bytes → Reply) (k : ℕ) (s : Reactor W) (l : LoopLabel) (t : Reactor W)
    (σ σ' : Option (Session Unit)) : Prop where
  run_eq : run (lifeStep reply) σ (eventsNow k s l) = some σ'
  follows : Follows k t σ'
  calls : lifeCalls σ' = lifeCalls σ ++ about Client.callsIn k s l
  out : lifeOut σ' = lifeOut σ ++ about Client.acceptedIn k s l

variable {reply : Bytes → Reply} {k : ℕ}

/-- The step is not about the connection `k`. -/
theorem Advances.still {σ : Option (Session Unit)} (hf : Follows k t σ)
    (hevents : eventsNow k s l = []) (hcalls : about Client.callsIn k s l = [])
    (hout : about Client.acceptedIn k s l = []) : Advances reply k s l t σ σ := by
  refine ⟨by rw [hevents]; rfl, hf, ?_, ?_⟩
  · rw [hcalls, List.append_nil]
  · rw [hout, List.append_nil]

/-- The step is one of a `ready`: the session of that connection takes it, every other stays. -/
theorem advances_moves {fd : ℕ} {entry entry' : Entry} {events : UInt32} {action : Action}
    {cl : ConnLabel} {σ : Option (Session Unit)} (hd : Distinct s) (hf : Follows k s σ)
    (ha : s.admits l = false) (hc : s.concerned l = some (entry, cl))
    (he : s.clients.lookup fd = some entry) (hmoves : Moves fd entry' events action s t)
    (hconn : entry'.conn = entry.conn) (hbusy : busy s.pc = none ∨ busy s.pc = some fd)
    (hthrown : s.pc ≠ .thrown)
    (hsession : ∀ σ : Session Unit, σ.client = { entry.client with fd := 0 } →
      σ.pc = connPc fd s.pc → ∃ client calls out,
        Session.sessionStep (.ofReply reply) σ cl =
          some (Session.act { σ with client := client, calls := calls, out := out } events action) ∧
        client = { entry'.client with fd := 0 } ∧ calls = σ.calls ++ entry.client.callsIn cl ∧
        out = σ.out ++ entry.client.acceptedIn cl) :
    ∃ σ', Advances reply k s l t σ σ' := by
  by_cases hk : entry.conn = k
  · have hevents : eventsNow k s l = [.conn cl] := by
      rw [eventsNow_of_not_admits ha, about_self hc hk]
    cases σ with
    | none => exact absurd hk (hf fd entry he)
    | some σ =>
        obtain ⟨hborn, ⟨fd', e, hopen⟩ | ⟨-, hnone⟩⟩ := hf
        · obtain rfl := hd.inj fd' fd e entry hopen.lookup he (hopen.conn.trans hk.symm)
          obtain rfl : e = entry := Option.some.inj (hopen.lookup.symm.trans he)
          have hpc := hopen.pc.resolve_right fun h => hthrown h.2
          obtain ⟨client, calls, out, hstep, hclient, hcalls, hout⟩ :=
            hsession σ hopen.client hpc
          have hfollows : Follows k t (some (Session.act
              { σ with client := client, calls := calls, out := out } events action)) :=
            follows_moves hd hborn hopen hmoves hconn hclient rfl rfl
          refine ⟨_, ?_, hfollows, ?_, ?_⟩
          · rw [hevents, run_cons, lifeStep, hstep]
            rfl
          · rw [about_self hc hk]
            exact hcalls
          · rw [about_self hc hk]
            exact hout
        · exact absurd hk (hnone fd entry he)
  · refine ⟨σ, .still (follows_other hf he hk hmoves hconn hbusy hthrown) ?_ (about_other hc hk)
      (about_other hc hk)⟩
    rw [eventsNow_of_not_admits ha, about_other hc hk]

/-- **One step of the loop is one step of a session, or none.** -/
theorem advances_step {σ : Option (Session Unit)}
    (hreply : ∀ host cmd, (handler host cmd).2 = reply cmd) (hd : Distinct s) (hf : Follows k s σ)
    (h : Effect handler s l t) : ∃ σ', Advances reply k s l t σ σ' := by
  cases h with
  | elsewhere hc ha hclients hinterest hid hpc =>
      refine ⟨σ, .still (follows_elsewhere hf hclients hinterest hid hpc) ?_ (about_none hc)
        (about_none hc)⟩
      rw [eventsNow_of_not_admits ha, about_none hc]
  | admitted fd hc ha hnew hclients hinterest hid hpc =>
      by_cases hk : s.nextId = k
      · have hevents : eventsNow k s l = [.admitted] := by
          rw [eventsNow, if_pos ⟨ha, hk⟩, about_none hc]
          rfl
        cases σ with
        | none =>
            refine ⟨some (Session.accepted 0 ()), by rw [hevents]; rfl, ?_, ?_, ?_⟩
            · exact follows_new hclients hinterest hid hk hpc
            · rw [about_none hc]
              rfl
            · rw [about_none hc]
              rfl
        | some σ => exact absurd hf.1 (hk ▸ lt_irrefl _)
      · have hevents : eventsNow k s l = [] := by
          rw [eventsNow, if_neg (fun h => hk h.2), about_none hc]
          rfl
        exact ⟨σ, .still (follows_admitted hclients hinterest hid hf hk hnew hpc.2) hevents
          (about_none hc) (about_none hc)⟩
  | ready fd entry events ha hc he hpc hmoves =>
      refine advances_moves hd hf ha hc he hmoves rfl (by rw [hpc]; exact Or.inl rfl)
        (by rw [hpc]; rintro ⟨⟩) fun σ hclient hidle => ?_
      refine ⟨σ.client, σ.calls, σ.out, ?_, hclient, (List.append_nil _).symm,
        (List.append_nil _).symm⟩
      rw [hpc] at hidle
      have hready : SensorHub.ready σ.client = SensorHub.ready entry.client := by
        rw [hclient]
        rfl
      simp only [Session.sessionStep, hidle, connPc, hready]
      rfl
  | recv fd entry events result action host client ha hc he hpc hr hmoves =>
      refine advances_moves hd hf ha hc he hmoves rfl (by rw [hpc]; exact Or.inr rfl)
        (by rw [hpc]; rintro ⟨⟩) fun σ hclient hidle => ?_
      have hrecv := onRecv_ofReply hreply events s.host entry.client result 0
      rw [hr] at hrecv
      refine ⟨{ client with fd := 0 }, σ.calls ++ entry.client.calls result, σ.out, ?_, rfl, rfl,
        (List.append_nil _).symm⟩
      rw [hpc, connPc, if_pos rfl] at hidle
      have hcalls : σ.client.calls result = entry.client.calls result := by
        rw [hclient]
        cases result <;> rfl
      simp only [Session.sessionStep, hidle, hcalls]
      rw [hclient, hrecv]
  | send fd entry events result action client ha hc he hpc htakes hr hmoves =>
      refine advances_moves hd hf ha hc he hmoves rfl (by rw [hpc]; exact Or.inr rfl)
        (by rw [hpc]; rintro ⟨⟩) fun σ hclient hidle => ?_
      have hsend := onSend_fd_eq events entry.client result 0
      rw [hr] at hsend
      refine ⟨{ client with fd := 0 }, σ.calls, σ.out ++ entry.client.accepted result, ?_, rfl,
        (List.append_nil _).symm, rfl⟩
      rw [hpc, connPc, if_pos rfl] at hidle
      have haccepted : σ.client.accepted result = entry.client.accepted result := by
        rw [hclient]
        cases result <;> rfl
      have htakes' : σ.client.takes result = true := by
        rw [hclient, ← htakes]
        cases result <;> rfl
      simp only [Session.sessionStep, hidle, haccepted, htakes', if_true]
      rw [hclient, hsend]

/-- **The events of a connection make a session.** -/
theorem follows_run {σ : Option (Session Unit)} {ls : List LoopLabel}
    (hreply : ∀ host cmd, (handler host cmd).2 = reply cmd) (hs : Steady fx s) (hd : Distinct s)
    (hf : Follows k s σ) (h : run (loopStep handler) s ls = some t) :
    ∃ σ', run (lifeStep reply) σ (events handler k s ls) = some σ' ∧ Follows k t σ' ∧
      lifeCalls σ' = lifeCalls σ ++ calls handler k s ls ∧
      lifeOut σ' = lifeOut σ ++ sent handler k s ls := by
  induction ls generalizing s σ with
  | nil =>
      cases h
      exact ⟨σ, rfl, hf, (List.append_nil _).symm, (List.append_nil _).symm⟩
  | cons l ls ih =>
      obtain ⟨u, hu, h⟩ := run_cons_eq_some.mp h
      have heffect := effect_of_step hs hu
      obtain ⟨σ₁, hadv⟩ := advances_step hreply hd hf heffect
      obtain ⟨σ', hrun, hfollows, hcalls, hout⟩ :=
        ih (steady_step hs hu) (distinct_step hd heffect) hadv.follows h
      refine ⟨σ', ?_, hfollows, ?_, ?_⟩
      · rw [events, trace_cons hu]
        exact run_append_eq_some.mpr ⟨σ₁, hadv.run_eq, hrun⟩
      · rw [calls, trace_cons hu, ← List.append_assoc, ← hadv.calls]
        exact hcalls
      · rw [sent, trace_cons hu, ← List.append_assoc, ← hadv.out]
        exact hout

theorem isOpen_iff {σ : Option (Session Unit)} (hf : Follows k s σ) :
    IsOpen k s ↔ ∃ σ', σ = some σ' ∧ σ'.pc ≠ .closed := by
  constructor
  · rintro ⟨fd, entry, he, hk⟩
    cases σ with
    | none => exact absurd hk (hf fd entry he)
    | some σ =>
        obtain ⟨-, ⟨fd', e, hopen⟩ | ⟨-, hnone⟩⟩ := hf
        · refine ⟨σ, rfl, ?_⟩
          rcases hopen.pc with hpc | ⟨hpc, -⟩
          · rw [hpc]
            exact connPc_ne_closed fd' s.pc
          · rw [hpc]
            nofun
        · exact absurd hk (hnone fd entry he)
  · rintro ⟨σ', rfl, hpc⟩
    obtain ⟨-, ⟨fd, e, hopen⟩ | ⟨hclosed, -⟩⟩ := hf
    · exact ⟨fd, e, hopen.lookup, hopen.conn⟩
    · exact absurd hclosed hpc

theorem follows_init (fx : Fixed) (host : Host W) (k : ℕ) : Follows k (init fx host) none := nofun

/-- A step of one connection leaves every other as it is. -/
theorem other_unchanged {fd : ℕ} {entry other : Entry} {cl : ConnLabel} (hs : Steady fx s)
    (h : loopStep handler s l = some t) (hc : s.concerned l = some (entry, cl))
    (ho : s.clients.lookup fd = some other) (hne : other.conn ≠ entry.conn) :
    t.clients.lookup fd = some other ∧ t.interest.lookup fd = s.interest.lookup fd ∧
      t.callbacks.lookup fd = s.callbacks.lookup fd := by
  have hmoved : ∃ fd' entry' events action, s.clients.lookup fd' = some entry ∧
      Moves fd' entry' events action s t := by
    cases effect_of_step hs h with
    | elsewhere hc' => rw [hc'] at hc; cases hc
    | admitted fd hc' => rw [hc'] at hc; cases hc
    | ready fd' _ _ _ hc' he _ hmoves =>
        rw [hc'] at hc
        cases hc
        exact ⟨fd', _, _, _, he, hmoves⟩
    | recv fd' _ _ _ _ _ _ _ hc' he _ _ hmoves =>
        rw [hc'] at hc
        cases hc
        exact ⟨fd', _, _, _, he, hmoves⟩
    | send fd' _ _ _ _ _ _ hc' he _ _ _ hmoves =>
        rw [hc'] at hc
        cases hc
        exact ⟨fd', _, _, _, he, hmoves⟩
  obtain ⟨fd', entry', events, action, he, hmoves⟩ := hmoved
  have hfd : fd ≠ fd' := by
    rintro rfl
    rw [ho] at he
    cases he
    exact hne rfl
  have hclient : t.clients.lookup fd = some other := by
    rw [hmoves.clients, if_neg hfd]
    exact ho
  refine ⟨hclient, by rw [hmoves.interest, if_neg hfd], ?_⟩
  rw [(steady_step hs h).tables.callback, hs.tables.callback,
    if_pos (Finmap.mem_of_lookup_eq_some hclient), if_pos (Finmap.mem_of_lookup_eq_some ho)]

/-- **Control connections are isolated from one another.** A step of one connection leaves the
entry and the registration of every other as they are. If the reply of the handler depends on the
command only, a connection that goes through the same events in two runs, whatever happens to the
others in between, has its handler called with the same command, sends the same bytes and is open
in the one if and only if it is open in the other. -/
theorem connections_isolated (hreply : ∀ host cmd, (handler host cmd).2 = reply cmd)
    {host host' : Host W} {fx' : Fixed} {ls ls' : List LoopLabel} {s' : Reactor W}
    (h : run (loopStep handler) (init fx host) ls = some s)
    (h' : run (loopStep handler) (init fx' host') ls' = some s') :
    (∀ l t entry cl fd other, loopStep handler s l = some t →
      s.concerned l = some (entry, cl) → s.clients.lookup fd = some other →
      other.conn ≠ entry.conn →
      t.clients.lookup fd = some other ∧ t.interest.lookup fd = s.interest.lookup fd ∧
        t.callbacks.lookup fd = s.callbacks.lookup fd) ∧
    ∀ k k', events handler k (init fx host) ls = events handler k' (init fx' host') ls' →
      calls handler k (init fx host) ls = calls handler k' (init fx' host') ls' ∧
      sent handler k (init fx host) ls = sent handler k' (init fx' host') ls' ∧
      (IsOpen k s ↔ IsOpen k' s') := by
  constructor
  · intro l t entry cl fd other hst hc ho hne
    exact other_unchanged (steady_of_reachable ⟨ls, h⟩) hst hc ho hne
  · intro k k' hevents
    obtain ⟨σ, hrun, hfollows, hcalls, hout⟩ := follows_run hreply (steady_init fx host)
      (distinct_init fx host) (follows_init fx host k) h
    obtain ⟨σ', hrun', hfollows', hcalls', hout'⟩ := follows_run hreply (steady_init fx' host')
      (distinct_init fx' host') (follows_init fx' host' k') h'
    rw [hevents, hrun'] at hrun
    cases hrun
    refine ⟨?_, ?_, ?_⟩
    · exact hcalls.symm.trans hcalls'
    · exact hout.symm.trans hout'
    · rw [isOpen_iff hfollows, isOpen_iff hfollows']

/-- A connection comes, sends a command and gets it back. -/
def alone : List LoopLabel :=
  [.epollWait [⟨5, epollIn, 2⟩], .next, .accept (.conn 7 true), .accept (.err .EAGAIN), .next,
    .epollWait [⟨7, epollIn, 4⟩], .next, .recv (.data ⟨ascii "a\n", by decide, by decide⟩),
    .send (.sent 1)]

/-- The same behind another connection, which goes away in the same batch. -/
def inCompany : List LoopLabel :=
  [.epollWait [⟨5, epollIn, 2⟩], .next, .accept (.conn 7 true), .accept (.conn 8 true),
    .accept (.err .EAGAIN), .next, .epollWait [⟨7, epollIn, 4⟩, ⟨8, epollIn, 5⟩], .next,
    .recv .eof, .next, .recv (.data ⟨ascii "a\n", by decide, by decide⟩), .send (.sent 1)]

/-- A handler that returns the command. -/
def echo : Handler (Host Unit) := fun host cmd => (host, .text cmd)

theorem connections_isolated_inCompany : ∃ s s',
    run (loopStep echo) (init firstFds ⟨true, (), []⟩) alone = some s ∧
    run (loopStep echo) (init firstFds ⟨true, (), []⟩) inCompany = some s' ∧
    sent echo 4 (init firstFds ⟨true, (), []⟩) alone = ascii "a" ∧
    sent echo 5 (init firstFds ⟨true, (), []⟩) inCompany = ascii "a" := by
  have hreply : ∀ host cmd, (echo host cmd).2 = .text cmd := fun _ _ => rfl
  obtain ⟨s, hs⟩ : ∃ s, run (loopStep echo) (init firstFds ⟨true, (), []⟩) alone = some s :=
    ⟨_, rfl⟩
  obtain ⟨s', hs'⟩ : ∃ s, run (loopStep echo) (init firstFds ⟨true, (), []⟩) inCompany = some s :=
    ⟨_, rfl⟩
  have hsent : sent echo 4 (init firstFds ⟨true, (), []⟩) alone = ascii "a" := by decide
  have hsame := (connections_isolated hreply hs hs').2 4 5 (by decide)
  exact ⟨s, s', hs, hs', hsent, hsame.2.1.symm.trans hsent⟩

end Reactor

end SensorHub
