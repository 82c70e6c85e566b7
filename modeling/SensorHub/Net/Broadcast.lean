import SensorHub.Net.Reactor
import SensorHub.Storage.SampleLine
import SensorHub.Tools.Subscribe

set_option autoImplicit false

/-!
# What the subscribers see

`TcpBroadcaster::accept_ready` and `broadcast_line` of `userspace/src/net/tcp_broadcaster.cpp`. A
call of `broadcast_line` holds the mutex while it goes through the list, so calls do not overlap and
nobody joins in between; but each `send` may take all of the payload, a part of it or nothing, and
the list is erased from on the way. Subscribers are told apart by the number of their `accept4`.

* `Socket`, `Pass`, `Broadcaster`, `broadcastStep`; `Broadcaster.begun`, `triedNow`.
* `Whole`, `Cut`: the socket of a listed subscriber, and that of one that was dropped.
* `Served`, `served_step`: the invariant; `pass_run`: one call.
* **`subscribers_see_lines`**.
-/

namespace SensorHub

open LineFrame Trans
open scoped List

/-- `line + "\n"`. -/
def payload (line : Bytes) : Bytes := line ++ [newline]

/-- The socket of a subscriber: how many lines had been broadcast when it joined, what it has
accepted, and whether it was closed. -/
structure Socket where
  joined : ℕ
  taken : Bytes
  closed : Bool

/-- A call of `broadcast_line` that holds the mutex: its line, and the index of its iterator. -/
structure Pass where
  line : Bytes
  it : ℕ

/-- `clients_`, with the sockets of all subscribers that were ever accepted, the lines of the calls
that have returned, and the call that holds the mutex. -/
structure Broadcaster where
  clients : List ℕ
  accepted : ℕ
  socket : ℕ → Socket
  lines : List Bytes
  pass : Option Pass

inductive BroadcastLabel
  /-- `accept_ready` has accepted a connection and adds it under the mutex. -/
  | accept
  /-- `broadcast_line` takes the mutex. -/
  | broadcast (line : Bytes)
  /-- The result of its next `send`. -/
  | send (result : SendResult)
  /-- The iterator has reached the end of the list; the mutex is released. -/
  | finish

/-- The bytes of the payload that the socket accepts. -/
def acceptedBytes (line : Bytes) : SendResult → Bytes
  | .sent n => (payload line).take n
  | .err _ => []

/-- The socket never takes more than it is offered. -/
def canTake (line : Bytes) : SendResult → Bool
  | .sent n => n ≤ (payload line).length
  | .err _ => true

namespace Broadcaster

/-- No subscriber yet. -/
def init : Broadcaster := ⟨[], 0, fun _ => ⟨0, [], false⟩, [], none⟩

/-- The position of the iterator. -/
def it (s : Broadcaster) : ℕ := s.pass.elim 0 Pass.it

/-- The lines of all calls that have taken the mutex. -/
def begun (s : Broadcaster) : List Bytes := s.lines ++ (s.pass.map Pass.line).toList

/-- The body of the loop behind the `send` to subscriber `c`. -/
def onSend (s : Broadcaster) (pass : Pass) (c : ℕ) (result : SendResult) : Broadcaster :=
  let socket := { s.socket c with taken := (s.socket c).taken ++ acceptedBytes pass.line result }
  if Reactor.keeps (payload pass.line).length result then
    { s with
      socket := Function.update s.socket c socket
      pass := some { pass with it := pass.it + 1 } }
  else
    { s with
      clients := s.clients.eraseIdx pass.it
      socket := Function.update s.socket c { socket with closed := true } }

/-- One step. -/
def broadcastStep (s : Broadcaster) : BroadcastLabel → Option Broadcaster
  | .accept =>
      match s.pass with
      | none => some { s with
          clients := s.clients ++ [s.accepted]
          accepted := s.accepted + 1
          socket := Function.update s.socket s.accepted ⟨s.lines.length, [], false⟩ }
      | some _ => none
  | .broadcast line =>
      match s.pass with
      | none => some { s with pass := some ⟨line, 0⟩ }
      | some _ => none
  | .send result =>
      s.pass.bind fun pass => s.clients[pass.it]?.bind fun c =>
        if canTake pass.line result then some (s.onSend pass c result) else none
  | .finish =>
      s.pass.bind fun pass =>
        if s.clients.length ≤ pass.it then
          some { s with lines := s.lines ++ [pass.line], pass := none }
        else none

/-- The subscriber a step sends to. -/
def triedNow (s : Broadcaster) : BroadcastLabel → List ℕ
  | .send _ => s.clients[s.it]?.toList
  | _ => []

/-- What a step can do. -/
inductive Step (s : Broadcaster) : BroadcastLabel → Broadcaster → Prop
  | accept (hpass : s.pass = none) : Step s .accept { s with
      clients := s.clients ++ [s.accepted]
      accepted := s.accepted + 1
      socket := Function.update s.socket s.accepted ⟨s.lines.length, [], false⟩ }
  | broadcast {line : Bytes} (hpass : s.pass = none) :
      Step s (.broadcast line) { s with pass := some ⟨line, 0⟩ }
  | send {pass : Pass} {c : ℕ} {result : SendResult} (hpass : s.pass = some pass)
      (hc : s.clients[pass.it]? = some c) (htake : canTake pass.line result = true) :
      Step s (.send result) (s.onSend pass c result)
  | finish {pass : Pass} (hpass : s.pass = some pass) (hend : s.clients.length ≤ pass.it) :
      Step s .finish { s with lines := s.lines ++ [pass.line], pass := none }

variable {s t : Broadcaster} {l : BroadcastLabel}

theorem step_of_broadcastStep (h : broadcastStep s l = some t) : Step s l t := by
  cases l with
  | accept =>
      simp only [broadcastStep] at h
      split at h <;> cases h
      exact .accept ‹_›
  | broadcast line =>
      simp only [broadcastStep] at h
      split at h <;> cases h
      exact .broadcast ‹_›
  | send result =>
      obtain ⟨pass, hpass, h⟩ := Option.bind_eq_some_iff.mp h
      obtain ⟨c, hc, h⟩ := Option.bind_eq_some_iff.mp h
      split_ifs at h with htake
      cases h
      exact .send hpass hc htake
  | finish =>
      obtain ⟨pass, hpass, h⟩ := Option.bind_eq_some_iff.mp h
      split_ifs at h with hend
      cases h
      exact .finish hpass hend

end Broadcaster

/-! ### One socket -/

/-- A listed subscriber has accepted whole lines, in order, of those broadcast since it joined. -/
structure Whole (seen : List Bytes) (k : Socket) : Prop where
  joined : k.joined ≤ seen.length
  opened : k.closed = false
  taken : ∃ ys, ys <+ seen.drop k.joined ∧ k.taken = ys.flatMap payload

/-- One that was dropped has accepted whole lines, and then less than a whole line. -/
structure Cut (seen : List Bytes) (k : Socket) : Prop where
  closed : k.closed = true
  taken : ∃ ys line tail, ys ++ [line] <+ seen.drop k.joined ∧ tail <+: payload line ∧
    tail ≠ payload line ∧ k.taken = ys.flatMap payload ++ tail

section Socket

variable {seen seen' : List Bytes} {k : Socket} {line : Bytes}

theorem Whole.mono (h : Whole seen k) (hseen : seen <+: seen') : Whole seen' k := by
  obtain ⟨ys, hys, htaken⟩ := h.taken
  exact ⟨h.joined.trans hseen.length_le, h.opened, ys, hys.trans (hseen.sublist.drop _), htaken⟩

theorem Cut.mono (h : Cut seen k) (hseen : seen <+: seen') : Cut seen' k := by
  obtain ⟨ys, line, tail, hys, hrest⟩ := h.taken
  exact ⟨h.closed, ys, line, tail, hys.trans (hseen.sublist.drop _), hrest⟩

/-- The next line is offered: it is taken or refused as a whole, or the socket is closed. -/
theorem Whole.offer (h : Whole seen k) {result : SendResult} (htake : canTake line result = true) :
    if Reactor.keeps (payload line).length result then
      Whole (seen ++ [line]) { k with taken := k.taken ++ acceptedBytes line result }
    else
      Cut (seen ++ [line])
        { k with taken := k.taken ++ acceptedBytes line result, closed := true } := by
  obtain ⟨ys, hys, htaken⟩ := h.taken
  have hnext : ys ++ [line] <+ (seen ++ [line]).drop k.joined := by
    rw [List.drop_append_of_le_length h.joined]
    exact hys.append (List.Sublist.refl _)
  split_ifs with hkeeps
  · refine ⟨h.joined.trans (by simp), h.opened, ?_⟩
    cases result with
    | err e =>
        refine ⟨ys, (List.sublist_append_left ys [line]).trans hnext, ?_⟩
        rw [htaken, acceptedBytes, List.append_nil]
    | sent n =>
        have hn : n = (payload line).length := beq_iff_eq.mp hkeeps
        refine ⟨ys ++ [line], hnext, ?_⟩
        simp only [acceptedBytes]
        rw [htaken, hn, List.take_length]
        simp
  · refine ⟨rfl, ys, line, acceptedBytes line result, hnext, ?_, ?_, by rw [htaken]⟩
    · cases result with
      | err e => exact List.nil_prefix
      | sent n => exact List.take_prefix _ _
    · intro hall
      cases result with
      | err e => simp [acceptedBytes, payload] at hall
      | sent n =>
          have hn : n ≤ (payload line).length := of_decide_eq_true htake
          have hlen := congrArg List.length hall
          rw [acceptedBytes, List.length_take] at hlen
          have hne : n ≠ (payload line).length := fun h => hkeeps (beq_iff_eq.mpr h)
          omega

end Socket

namespace Broadcaster

variable {s t : Broadcaster} {l : BroadcastLabel}

/-! ### The list -/

/-- Behind the iterator the current line was offered, before it not yet; who is not in the list was
dropped. -/
structure Served (s : Broadcaster) : Prop where
  nodup : s.clients.Nodup
  known : ∀ c ∈ s.clients, c < s.accepted
  waiting : ∀ c ∈ s.clients.drop s.it, Whole s.lines (s.socket c)
  served : ∀ c ∈ s.clients.take s.it, Whole s.begun (s.socket c)
  dropped : ∀ c < s.accepted, c ∉ s.clients → Cut s.begun (s.socket c)

theorem served_init : Served init := ⟨List.nodup_nil, nofun, nofun, nofun, nofun⟩

theorem served_accept (hs : Served s) (hpass : s.pass = none) : Served { s with
    clients := s.clients ++ [s.accepted]
    accepted := s.accepted + 1
    socket := Function.update s.socket s.accepted ⟨s.lines.length, [], false⟩ } := by
  have hit : s.it = 0 := by rw [it, hpass]; rfl
  have hnew : s.accepted ∉ s.clients := fun h => lt_irrefl _ (hs.known _ h)
  have hother : ∀ c, c < s.accepted →
      Function.update s.socket s.accepted ⟨s.lines.length, [], false⟩ c = s.socket c :=
    fun c hc => Function.update_of_ne hc.ne _ _
  refine ⟨?_, ?_, ?_, ?_, ?_⟩
  · refine List.nodup_append.mpr ⟨hs.nodup, List.nodup_singleton _, ?_⟩
    rintro c hc d hd rfl
    exact hnew (List.mem_singleton.mp hd ▸ hc)
  · intro c hc
    rcases List.mem_append.mp hc with hc | hc
    · exact (hs.known c hc).trans (Nat.lt_succ_self _)
    · rw [List.mem_singleton.mp hc]
      exact Nat.lt_succ_self _
  · intro c hc
    rcases List.mem_append.mp (List.mem_of_mem_drop hc) with hc | hc
    · simp only [hother c (hs.known c hc)]
      exact hs.waiting c (by rw [hit]; exact hc)
    · rw [List.mem_singleton.mp hc]
      simp only [Function.update_self]
      exact ⟨le_rfl, rfl, [], List.nil_sublist _, rfl⟩
  · intro c hc
    simp [it, hpass] at hc
  · intro c hc hmem
    rw [List.mem_append, not_or, List.mem_singleton] at hmem
    have hlt : c < s.accepted := lt_of_le_of_ne (Nat.le_of_lt_succ hc) hmem.2
    simp only [hother c hlt]
    exact hs.dropped c hlt hmem.1

theorem served_broadcast (hs : Served s) (hpass : s.pass = none) (line : Bytes) :
    Served { s with pass := some ⟨line, 0⟩ } := by
  have hit : s.it = 0 := by rw [it, hpass]; rfl
  have hbegun : s.begun = s.lines := by
    rw [begun, hpass]
    exact List.append_nil _
  refine ⟨hs.nodup, hs.known, ?_, ?_, ?_⟩
  · intro c hc
    exact hs.waiting c (by rw [hit]; exact hc)
  · intro c hc
    simp [it] at hc
  · intro c hc hmem
    have hcut := hs.dropped c hc hmem
    rw [hbegun] at hcut
    exact hcut.mono (List.prefix_append _ _)

theorem served_finish (hs : Served s) {pass : Pass} (hpass : s.pass = some pass)
    (hend : s.clients.length ≤ pass.it) :
    Served { s with lines := s.lines ++ [pass.line], pass := none } := by
  have hit : s.it = pass.it := by rw [it, hpass]; rfl
  have hbegun : s.begun = s.lines ++ [pass.line] := by rw [begun, hpass]; rfl
  refine ⟨hs.nodup, hs.known, ?_, ?_, ?_⟩
  · intro c hc
    rw [← hbegun]
    refine hs.served c ?_
    rw [hit, List.take_of_length_le hend]
    exact hc
  · intro c hc
    simp [it] at hc
  · intro c hc hmem
    have hcut := hs.dropped c hc hmem
    rw [hbegun] at hcut
    exact hcut.mono (List.prefix_append _ _)

/-- The list around the iterator. -/
theorem split_at {pass : Pass} {c : ℕ} (hc : s.clients[pass.it]? = some c) :
    ∃ before after, s.clients = before ++ c :: after ∧ before.length = pass.it := by
  obtain ⟨hlt, hget⟩ := List.getElem?_eq_some_iff.mp hc
  refine ⟨s.clients.take pass.it, s.clients.drop (pass.it + 1), ?_, List.length_take_of_le hlt.le⟩
  conv_lhs => rw [← List.take_append_drop pass.it s.clients, List.drop_eq_getElem_cons hlt, hget]

theorem served_send (hs : Served s) {pass : Pass} {c : ℕ} {result : SendResult}
    (hpass : s.pass = some pass) (hc : s.clients[pass.it]? = some c)
    (htake : canTake pass.line result = true) : Served (s.onSend pass c result) := by
  have hit : s.it = pass.it := by rw [it, hpass]; rfl
  have hbegun : s.begun = s.lines ++ [pass.line] := by rw [begun, hpass]; rfl
  obtain ⟨before, after, hclients, hlen⟩ := split_at hc
  have hdrop : s.clients.drop pass.it = c :: after := by rw [hclients, List.drop_left' hlen]
  have htakeIt : s.clients.take pass.it = before := by rw [hclients, List.take_left' hlen]
  have hmem : c ∈ s.clients := List.mem_of_getElem? hc
  have hnodup := hs.nodup
  rw [hclients, List.nodup_append] at hnodup
  have hbefore : ∀ c' ∈ before, c' ≠ c := fun c' h => hnodup.2.2 c' h c List.mem_cons_self
  have hafter : ∀ c' ∈ after, c' ≠ c := fun c' h => (List.nodup_cons.mp hnodup.2.1).1 ∘ (· ▸ h)
  have hwaiting : ∀ c' ∈ after, Whole s.lines (s.socket c') := fun c' h =>
    hs.waiting c' (by rw [hit, hdrop]; exact List.mem_cons_of_mem c h)
  have hserved : ∀ c' ∈ before, Whole (s.lines ++ [pass.line]) (s.socket c') := fun c' h =>
    hbegun ▸ hs.served c' (by rw [hit, htakeIt]; exact h)
  have hdropped : ∀ c' < s.accepted, c' ∉ s.clients →
      Cut (s.lines ++ [pass.line]) (s.socket c') := fun c' h h' => hbegun ▸ hs.dropped c' h h'
  have hoffer := Whole.offer (hs.waiting c (by rw [hit, hdrop]; exact List.mem_cons_self)) htake
  unfold onSend
  split_ifs at hoffer ⊢ with hkeeps
  · -- the iterator moves on
    refine ⟨hs.nodup, hs.known, ?_, ?_, ?_⟩
    · intro c' hc'
      have hc' : c' ∈ s.clients.drop (pass.it + 1) := hc'
      rw [← List.drop_drop, hdrop] at hc'
      simp only [Function.update_of_ne (hafter c' hc')]
      exact hwaiting c' hc'
    · intro c' hc'
      have hc' : c' ∈ s.clients.take (pass.it + 1) := hc'
      rw [List.take_add_one, htakeIt, hc, List.mem_append] at hc'
      rcases hc' with hc' | hc'
      · simp only [Function.update_of_ne (hbefore c' hc')]
        exact hserved c' hc'
      · obtain rfl : c' = c := List.mem_singleton.mp hc'
        simp only [Function.update_self]
        exact hoffer
    · intro c' hlt hc'
      simp only [Function.update_of_ne (show c' ≠ c from fun h => hc' (h ▸ hmem))]
      exact hdropped c' hlt hc'
  · -- the subscriber is erased, and the iterator stands at the next one
    have herase : s.clients.eraseIdx pass.it = before ++ after := by
      rw [List.eraseIdx_eq_take_drop_succ, htakeIt, ← List.drop_drop, hdrop]
      rfl
    have hsub : before ++ after <+ s.clients := by
      rw [hclients]
      exact (List.Sublist.refl before).append (List.sublist_cons_self c after)
    simp only [herase]
    refine ⟨hs.nodup.sublist hsub, fun c' hc' => hs.known c' (hsub.subset hc'), ?_, ?_, ?_⟩
    · intro c' hc'
      simp only [it, hpass, Option.elim_some, List.drop_left' hlen] at hc'
      simp only [Function.update_of_ne (hafter c' hc')]
      exact hwaiting c' hc'
    · intro c' hc'
      simp only [it, hpass, Option.elim_some, List.take_left' hlen] at hc'
      simp only [Function.update_of_ne (hbefore c' hc'), begun, hpass]
      exact hserved c' hc'
    · intro c' hlt hc'
      simp only [begun, hpass]
      by_cases hcc : c' = c
      · subst hcc
        simp only [Function.update_self]
        exact hoffer
      · simp only [Function.update_of_ne hcc]
        refine hdropped c' hlt fun h => hc' ?_
        rw [hclients, List.mem_append, List.mem_cons] at h
        exact List.mem_append.mpr (h.imp_right fun h => h.resolve_left hcc)

/-- **Every step keeps the lines whole.** -/
theorem served_step (hs : Served s) (h : broadcastStep s l = some t) : Served t := by
  cases step_of_broadcastStep h with
  | accept hpass => exact served_accept hs hpass
  | broadcast hpass => exact served_broadcast hs hpass _
  | send hpass hc htake => exact served_send hs hpass hc htake
  | finish hpass hend => exact served_finish hs hpass hend

/-! ### One call -/

theorem onSend_spec {pass : Pass} {c : ℕ} (hpass : s.pass = some pass)
    (hc : s.clients[pass.it]? = some c) (result : SendResult) :
    (s.onSend pass c result).clients <+ s.clients ∧ (s.onSend pass c result).pass ≠ none ∧
      c :: (s.onSend pass c result).clients.drop (s.onSend pass c result).it =
        s.clients.drop pass.it := by
  obtain ⟨before, after, hclients, hlen⟩ := split_at hc
  have hdrop : s.clients.drop pass.it = c :: after := by rw [hclients, List.drop_left' hlen]
  unfold onSend
  split_ifs with hkeeps
  · refine ⟨List.Sublist.refl _, nofun, ?_⟩
    simp only [it, Option.elim_some]
    rw [← List.drop_drop, hdrop]
    rfl
  · refine ⟨List.eraseIdx_sublist _ _, by simp only [hpass]; nofun, ?_⟩
    simp only [it, hpass, Option.elim_some]
    rw [List.eraseIdx_eq_take_drop_succ, List.drop_left' (by rw [hclients, List.take_left' hlen,
      hlen]), ← List.drop_drop, hdrop]
    rfl

/-- A call under way tries the subscribers before it one after the other. -/
theorem pass_run {ms : List BroadcastLabel} (hms : ∀ l ∈ ms, l ≠ .finish) (hpass : s.pass ≠ none)
    (h : run broadcastStep s ms = some t) :
    trace broadcastStep triedNow s ms ++ t.clients.drop t.it = s.clients.drop s.it ∧
      t.clients <+ s.clients ∧ t.pass ≠ none := by
  induction ms generalizing s with
  | nil =>
      cases h
      exact ⟨rfl, List.Sublist.refl _, hpass⟩
  | cons l ms ih =>
      obtain ⟨u, hu, h⟩ := run_cons_eq_some.mp h
      cases step_of_broadcastStep hu with
      | accept hnone => exact absurd hnone hpass
      | broadcast hnone => exact absurd hnone hpass
      | finish hsome hend => exact absurd rfl (hms _ List.mem_cons_self)
      | @send pass c result hsome hc htake =>
          obtain ⟨hsub, hpass', hrest⟩ := onSend_spec hsome hc result
          obtain ⟨htried, hsub', hend⟩ :=
            ih (fun m hm => hms m (List.mem_cons_of_mem _ hm)) hpass' h
          refine ⟨?_, hsub'.trans hsub, hend⟩
          have hit : s.it = pass.it := by rw [it, hsome]; rfl
          have hnow : triedNow s (.send result) = [c] := by rw [triedNow, hit, hc]; rfl
          rw [trace_cons hu, hnow, List.append_assoc, htried, hit, ← hrest]
          rfl

/-- **A call tries each listed subscriber once**, in the order of the list, and those that remain
keep their order. -/
theorem call_run {line : Bytes} {ms : List BroadcastLabel} (hms : ∀ l ∈ ms, l ≠ .finish)
    (h : run broadcastStep s (.broadcast line :: (ms ++ [.finish])) = some t) :
    trace broadcastStep triedNow s (.broadcast line :: (ms ++ [.finish])) = s.clients ∧
      t.clients <+ s.clients := by
  obtain ⟨u, hu, h⟩ := run_cons_eq_some.mp h
  obtain ⟨v, hv, hfinish⟩ := run_snoc_eq_some.mp h
  cases step_of_broadcastStep hu with
  | broadcast hnone =>
      obtain ⟨htried, hsub, -⟩ := pass_run hms (by nofun) hv
      cases step_of_broadcastStep hfinish with
      | @finish pass hsome hend =>
          refine ⟨?_, hsub⟩
          have hit : v.it = pass.it := by rw [it, hsome]; rfl
          rw [hit, List.drop_of_length_le hend, List.append_nil] at htried
          rw [trace_cons hu, trace_append hv, trace_cons hfinish]
          simpa [triedNow, trace, it] using htried

/-! ### What a subscriber prints -/

/-- What a subscriber prints is what it was sent. -/
theorem printed_of_taken {ys : List Bytes} {tail taken : Bytes} (hys : ∀ line ∈ ys, newline ∉ line)
    (htail : newline ∉ tail) (htaken : taken = ys.flatMap payload ++ tail) (count : ℤ)
    {reads : List ReadResult} (hreads : reads.flatMap ReadResult.bytes <+: taken) :
    (Subscriber.subscribe count .init reads).1.printed <+: ys := by
  have hcomplete : complete newline taken = ys := by
    rw [htaken]
    exact (complete_flatMap hys tail).trans (by rw [complete_of_notMem htail, List.append_nil])
  rw [← hcomplete]
  exact (Subscriber.printed_prefix count reads).trans (complete_mono hreads)

theorem newline_notMem_of_proper {line tail : Bytes} (hline : newline ∉ line)
    (hinitial : tail <+: payload line) (hne : tail ≠ payload line) : newline ∉ tail := by
  rcases List.prefix_concat_iff.mp hinitial with h | h
  · exact absurd h hne
  · exact fun hmem => hline (h.subset hmem)

/-- **TCP subscribers see only whole lines.** The bytes a socket has accepted are whole payloads of
lines broadcast since it joined, in that order, followed by less than a payload if the subscriber
was dropped. Each call of `broadcast_line` tries every listed subscriber once. What
`sensor_subscribe` prints of the stream, however it is cut, are lines that were broadcast, in order
and without repetition; and the line of a sample is one line. -/
theorem subscribers_see_lines {ls : List BroadcastLabel} (h : run broadcastStep init ls = some s) :
    (∀ c < s.accepted, ∃ ys tail, (s.socket c).taken = ys.flatMap payload ++ tail ∧
      ys <+ s.begun.drop (s.socket c).joined ∧
      (tail ≠ [] → c ∉ s.clients ∧ (s.socket c).closed = true ∧
        ∃ line, ys ++ [line] <+ s.begun.drop (s.socket c).joined ∧ tail <+: payload line ∧
          tail ≠ payload line) ∧
      ((∀ line ∈ s.begun, newline ∉ line) → ∀ count reads,
        reads.flatMap ReadResult.bytes <+: (s.socket c).taken →
        (Subscriber.subscribe count .init reads).1.printed <+ s.begun.drop (s.socket c).joined)) ∧
    (∀ line ms t, (∀ l ∈ ms, l ≠ .finish) →
      run broadcastStep s (.broadcast line :: (ms ++ [.finish])) = some t →
      trace broadcastStep triedNow s (.broadcast line :: (ms ++ [.finish])) = s.clients ∧
        t.clients <+ s.clients) ∧
    ∀ sample, newline ∉ sampleToLine sample := by
  have hs : Served s := run_inv Served (fun _ _ _ hs hst => served_step hs hst) served_init h
  refine ⟨fun c hc => ?_, fun line ms t hms hrun => call_run hms hrun, newline_notMem_sampleToLine⟩
  by_cases hmem : c ∈ s.clients
  · have hwhole : Whole s.begun (s.socket c) := by
      rw [← List.take_append_drop s.it s.clients, List.mem_append] at hmem
      rcases hmem with hmem | hmem
      · exact hs.served c hmem
      · exact (hs.waiting c hmem).mono (List.prefix_append _ _)
    obtain ⟨ys, hys, htaken⟩ := hwhole.taken
    refine ⟨ys, [], by rw [htaken, List.append_nil], hys, fun h => absurd rfl h, ?_⟩
    intro hlines count reads hreads
    have hys' : ∀ line ∈ ys, newline ∉ line := fun line hl =>
      hlines line (List.mem_of_mem_drop (hys.subset hl))
    exact (printed_of_taken hys' List.not_mem_nil (by rw [htaken, List.append_nil]) count
      hreads).sublist.trans hys
  · obtain ⟨hclosed, ys, line, tail, hys, hinitial, hne, htaken⟩ := hs.dropped c hc hmem
    have hys' : ys <+ s.begun.drop (s.socket c).joined :=
      (List.sublist_append_left ys [line]).trans hys
    refine ⟨ys, tail, htaken, hys', fun _ => ⟨hmem, hclosed, line, hys, hinitial, hne⟩, ?_⟩
    intro hlines count reads hreads
    have hno : ∀ l ∈ ys ++ [line], newline ∉ l := fun l hl =>
      hlines l (List.mem_of_mem_drop (hys.subset hl))
    have htail := newline_notMem_of_proper (hno line (by simp)) hinitial hne
    exact (printed_of_taken (fun l hl => hno l (List.mem_append_left _ hl)) htail htaken count
      hreads).sublist.trans hys'

/-- A subscriber takes a line, and a part of the next. -/
def cutShort : List BroadcastLabel :=
  [.accept, .broadcast (ascii "a"), .send (.sent 2), .finish, .broadcast (ascii "bc"),
    .send (.sent 2), .finish]

theorem subscribers_see_lines_cutShort : ∃ s, run broadcastStep init cutShort = some s ∧
    s.clients = [] ∧ (s.socket 0).taken = ascii "a\nbc" ∧
    (Subscriber.subscribe 5 .init [.data ⟨ascii "a\nb", by decide, by decide⟩]).1.printed <+
      [ascii "a", ascii "bc"] := by
  obtain ⟨s, hs, hclients, haccepted, hbegun, hsocket⟩ : ∃ s,
      run broadcastStep init cutShort = some s ∧ s.clients = [] ∧ s.accepted = 1 ∧
      s.begun = [ascii "a", ascii "bc"] ∧ s.socket 0 = ⟨0, ascii "a\nbc", true⟩ :=
    ⟨_, rfl, rfl, rfl, rfl, rfl⟩
  obtain ⟨ys, tail, -, -, -, hprinted⟩ := (subscribers_see_lines hs).1 0 (by rw [haccepted]; decide)
  rw [hbegun, hsocket] at hprinted
  exact ⟨s, hs, hclients, by rw [hsocket],
    hprinted (by decide) 5 _ ⟨ascii "c", rfl⟩⟩

end Broadcaster

end SensorHub
