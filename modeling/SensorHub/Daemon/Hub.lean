import SensorHub.Daemon.Drain
import SensorHub.Daemon.Pipeline
import SensorHub.Driver.Calls
import SensorHub.Net.Broadcast
import SensorHub.Storage.LogWriter

set_option autoImplicit false

/-!
# The daemon with its outputs

`userspace/src/main.cpp` in driver mode, from the samples of the driver to the three places they
leave the daemon by: the log file, the datagrams and the TCP subscribers. The samples move as in
`Daemon.Pipeline`; between `write_sample` and the counters a worker also passes `sendto` and the
loop of `broadcast_line`, which other threads see the steps of.

* `Stage`, `Hub`, `hubStep`; `Move`, `move_of_hubStep`: what a step can do.
* **`pipe_reachable`**, **`tcp_reachable`**: the daemon refines the pipeline and the broadcaster.
* `Linked`, **`linked_of_reachable`**: the call that holds the mutex is a worker's, on the line of
  its sample.
* **`begun_eq`**: the lines that are broadcast are those of samples that were written.
-/

namespace SensorHub

open Driver LineFrame Storage Trans

/-- Where a worker stands between `write_sample` and `stats.processed++`. -/
inductive Stage
  /-- Before `sendto`. -/
  | datagram
  /-- Before `broadcast_line` takes the mutex. -/
  | lock
  /-- In the loop of `broadcast_line`. -/
  | loop
  deriving DecidableEq

/-- The pipeline, the log writer with its files, the payloads of the calls of `sendto`, and the
broadcaster. An exception of a worker ends the process. -/
structure Hub (n c : ℕ) where
  pipe : Pipe n c
  stage : Fin n → Stage
  log : LogState
  datagrams : List Bytes
  tcp : Broadcaster
  terminated : Bool

inductive HubLabel (n : ℕ)
  /-- `sensorhub_timer_cb` pushes a sample. -/
  | timer (now : UInt64) (randomValue : UInt32)
  /-- `sensorhub_write` pushes one. -/
  | inject (sample : Sample) (now : UInt64)
  | drain
  | main
  | close
  /-- `accept_ready` adds a subscriber. -/
  | accept
  /-- A worker pops, or counts. -/
  | turn (i : Fin n)
  /-- `write_sample`, under `writer_mutex`. -/
  | write (i : Fin n) (os : Os)
  | datagram (i : Fin n)
  /-- `broadcast_line` takes the mutex. -/
  | lock (i : Fin n)
  | send (i : Fin n) (result : SendResult)
  /-- `broadcast_line` returns. -/
  | unlock (i : Fin n)

section Worker

variable {n c : ℕ} {i : Fin n}

theorem Pipe.pipeStep_worker {s : Pipe n c} {work : Work n c}
    (h : s.work.workerStep i = some work) :
    pipeStep s (.worker i) = some { s with work := work } :=
  Option.map_eq_some_iff.mpr ⟨work, h, rfl⟩

/-- The main thread leaves the workers and what they have done alone. -/
theorem Pipe.pipeStep_main {s t : Pipe n c} {xs : List Sample} {l : PipeLabel n}
    (hx : Holds s.dev xs) (hl : l ∈ [.drain, .main, .close]) (h : pipeStep s l = some t) :
    t.work.worker = s.work.worker ∧ t.work.written = s.work.written ∧
      t.work.broadcast = s.work.broadcast ∧ t.pushed = s.pushed := by
  rcases pipeStep_cases h with ⟨sample, injected, rfl, -⟩ | ⟨-, hmain⟩ |
    ⟨-, main, work, -, hwork, rfl⟩ | ⟨i, w, rfl, -⟩
  · simp at hl
  · rcases mainStep_cases hx hmain with ⟨-, hp, -, hw, -⟩ | ⟨k, dev, -, -, -, ht⟩ |
      ⟨sample, rest, -, rfl⟩
    · rw [hw, hp]
      exact ⟨rfl, rfl, rfl, rfl⟩
    · rw [ht]
      exact ⟨rfl, rfl, rfl, rfl⟩
    · cases hv : (s.work.queue.push sample).1 with
      | true =>
          rw [Work.submit_accepted hv]
          exact ⟨rfl, rfl, rfl, rfl⟩
      | false =>
          rw [Work.submit_rejected hv]
          exact ⟨rfl, rfl, rfl, rfl⟩
  · rcases hwork with rfl | rfl <;> exact ⟨rfl, rfl, rfl, rfl⟩
  · simp at hl

namespace Work

variable {w w' : Work n c} {item : Sample}

theorem workerStep_write (hpc : w.worker i = .write item) : w.workerStep i = some { w with
    worker := Function.update w.worker i (.broadcast item), written := w.written ++ [item] } := by
  rw [workerStep, hpc]

theorem workerStep_broadcast (hpc : w.worker i = .broadcast item) : w.workerStep i = some { w with
    worker := Function.update w.worker i .processed, broadcast := w.broadcast ++ [item] } := by
  rw [workerStep, hpc]

/-- Elsewhere a worker neither writes nor broadcasts, nor comes to do the latter. -/
theorem workerStep_turn (hheld : ∀ item, w.worker i ≠ .write item)
    (hunsent : ∀ item, w.worker i ≠ .broadcast item) (h : w.workerStep i = some w') :
    w'.written = w.written ∧ w'.broadcast = w.broadcast ∧
      ∃ pc, w'.worker = Function.update w.worker i pc ∧ pc.unsent = [] := by
  unfold workerStep at h
  cases hpc : w.worker i with
  | write item => exact absurd hpc (hheld item)
  | broadcast item => exact absurd hpc (hunsent item)
  | exited => rw [hpc] at h; cases h
  | processed => rw [hpc] at h; cases h; exact ⟨rfl, rfl, _, rfl, rfl⟩
  | exported => rw [hpc] at h; cases h; exact ⟨rfl, rfl, _, rfl, rfl⟩
  | pop =>
      rw [hpc] at h
      cases hq : w.queue.pop with
      | none => simp only [hq] at h; cases h
      | some r =>
          obtain ⟨_ | item, q⟩ := r
          · simp only [hq] at h
            cases h
            exact ⟨rfl, rfl, _, rfl, rfl⟩
          · simp only [hq] at h
            cases h
            exact ⟨rfl, rfl, _, rfl, rfl⟩

/-- One worker broadcasts in the order in which it writes. -/
theorem sentInLine_step {w w' : Work 1 c} {i : Fin 1}
    (hw : w.written = w.broadcast ++ (w.worker 0).unsent) (h : w.workerStep i = some w') :
    w'.written = w'.broadcast ++ (w'.worker 0).unsent := by
  obtain rfl : i = 0 := Subsingleton.elim i 0
  by_cases hheld : ∃ item, w.worker 0 = .write item
  · obtain ⟨item, hpc⟩ := hheld
    rw [workerStep_write hpc] at h
    cases h
    simp [hw, hpc, WorkerPc.unsent]
  · by_cases hunsent : ∃ item, w.worker 0 = .broadcast item
    · obtain ⟨item, hpc⟩ := hunsent
      rw [workerStep_broadcast hpc] at h
      cases h
      simp [hw, hpc, WorkerPc.unsent]
    · push Not at hheld hunsent
      obtain ⟨hwritten, hbroadcast, pc, hworker, hpc⟩ := workerStep_turn hheld hunsent h
      have hbefore : (w.worker 0).unsent = [] := by
        cases hpc : w.worker 0 with
        | broadcast item => exact absurd hpc (hunsent item)
        | _ => rfl
      rw [hwritten, hbroadcast, hworker, Function.update_self, hpc, hw, hbefore]

end Work

/-- The books of the workers are kept in every run of the pipeline. -/
theorem Pipe.ledger_of_reachable {s : Pipe n c} (h : Reachable pipeStep (init n c) s) :
    ∃ accepted p e, Work.Ledger accepted p e s.work := by
  refine h.inv_reachable (fun s => ∃ accepted p e, Work.Ledger accepted p e s.work)
    (fun s l t hs hledger hst => ?_) ⟨[], 0, 0, Work.ledger_init⟩
  obtain ⟨xs, hx⟩ := account_of_reachable hs
  obtain ⟨accepted, p, e, hw⟩ := hledger
  rcases pipeStep_cases hst with ⟨sample, injected, -, rfl⟩ | ⟨-, hmain⟩ |
    ⟨-, main, work, -, hwork, rfl⟩ | ⟨i, w, -, hw', rfl⟩
  · exact ⟨accepted, p, e, hw⟩
  · rcases mainStep_cases hx.ring hmain with ⟨-, -, -, hwork, -⟩ | ⟨k, dev, -, -, -, ht⟩ |
      ⟨sample, rest, -, rfl⟩
    · exact ⟨accepted, p, e, by rw [hwork]; exact hw⟩
    · exact ⟨accepted, p, e, by rw [ht]; exact hw⟩
    · exact ⟨_, p, e, Work.ledger_submit hw sample⟩
  · rcases hwork with rfl | rfl
    · exact ⟨accepted, p, e, hw⟩
    · exact ⟨accepted, p, e, Work.ledger_close hw⟩
  · obtain ⟨p', e', -, -, hledger⟩ := Work.ledger_workerStep hw hw'
    exact ⟨accepted, p', e', hledger⟩

theorem Pipe.sentInLine_of_reachable {s : Pipe 1 c} (h : Reachable pipeStep (init 1 c) s) :
    s.work.written = s.work.broadcast ++ (s.work.worker 0).unsent := by
  refine h.inv_reachable (fun s => s.work.written = s.work.broadcast ++ (s.work.worker 0).unsent)
    (fun s l t hs hline hst => ?_) rfl
  obtain ⟨xs, hx⟩ := account_of_reachable hs
  have hmain : l ∈ [.drain, .main, .close] → t.work.written =
      t.work.broadcast ++ (t.work.worker 0).unsent := by
    intro hl
    obtain ⟨hworker, hwritten, hbroadcast, -⟩ := pipeStep_main hx.ring hl hst
    rw [hworker, hwritten, hbroadcast]
    exact hline
  cases l with
  | device sample injected => cases hst; exact hline
  | drain => exact hmain (by simp)
  | main => exact hmain (by simp)
  | close => exact hmain (by simp)
  | worker i =>
      obtain ⟨w, hw, rfl⟩ := Option.map_eq_some_iff.mp hst
      exact Work.sentInLine_step hline hw

/-- Every sample that was written went through the driver. -/
theorem Pipe.written_le_pushed {s : Pipe n c} (h : Reachable pipeStep (init n c) s) :
    (s.work.written : Multiset Sample) ≤ s.pushed := by
  obtain ⟨xs, hs⟩ := account_of_reachable h
  rw [← hs.places, Work.accounted]
  exact (Multiset.le_add_left _ _).trans (Multiset.le_add_left _ _)

theorem Pipe.written_sublist_pushed {s : Pipe 1 c} (h : Reachable pipeStep (init 1 c) s) :
    s.work.written.Sublist s.pushed := by
  refine List.Sublist.trans ?_ (inOrder_of_reachable h)
  rw [Work.inLine, List.append_assoc, List.append_assoc, List.append_assoc]
  exact List.sublist_append_left _ _

end Worker

namespace Hub

variable {n c : ℕ}

/-- The daemon has started on the files `disk`. -/
def init (n c : ℕ) (path : Bytes) (rotateBytes : UInt64) (disk : Disk) : Hub n c :=
  ⟨Pipe.init n c, fun _ => .datagram, ⟨.new path rotateBytes, disk⟩, [], Broadcaster.init, false⟩

/-- A step of the pipeline. -/
def onPipe (s : Hub n c) (l : PipeLabel n) : Option (Hub n c) :=
  (Pipe.pipeStep s.pipe l).map fun pipe => { s with pipe := pipe }

/-- The sample that worker `i` exports, if it is at `stage`. -/
def exporting (s : Hub n c) (i : Fin n) (stage : Stage) : Option Sample :=
  match s.pipe.work.worker i with
  | .broadcast item => if s.stage i = stage then some item else none
  | _ => none

/-- One step. -/
def hubStep (s : Hub n c) (l : HubLabel n) : Option (Hub n c) :=
  if s.terminated then none
  else
    match l with
    | .timer now randomValue => s.onPipe (.device (timerSample now randomValue) false)
    | .inject sample now => s.onPipe (.device (writeSample sample now) true)
    | .drain => s.onPipe .drain
    | .main => s.onPipe .main
    | .close => s.onPipe .close
    | .accept =>
        match s.pipe.main with
        | .loop => (s.tcp.broadcastStep .accept).map fun tcp => { s with tcp := tcp }
        | _ => none
    | .turn i =>
        match s.pipe.work.worker i with
        | .write _ => none
        | .broadcast _ => none
        | _ => s.onPipe (.worker i)
    | .write i os =>
        match s.pipe.work.worker i with
        | .write item =>
            match s.log.writeSample os item with
            | some (.ok (), log) =>
                (s.onPipe (.worker i)).map fun t =>
                  { t with log := log, stage := Function.update s.stage i .datagram }
            | some (.error _, log) => some { s with log := log, terminated := true }
            | none => none
        | _ => none
    | .datagram i =>
        (s.exporting i .datagram).map fun item =>
          { s with
            datagrams := s.datagrams ++ [sampleToLine item]
            stage := Function.update s.stage i .lock }
    | .lock i =>
        (s.exporting i .lock).bind fun item =>
          (s.tcp.broadcastStep (.broadcast (sampleToLine item))).map fun tcp =>
            { s with tcp := tcp, stage := Function.update s.stage i .loop }
    | .send i result =>
        (s.exporting i .loop).bind fun _ =>
          (s.tcp.broadcastStep (.send result)).map fun tcp => { s with tcp := tcp }
    | .unlock i =>
        (s.exporting i .loop).bind fun _ =>
          (s.tcp.broadcastStep .finish).bind fun tcp =>
            (s.onPipe (.worker i)).map fun t => { t with tcp := tcp }

/-- What a step can do. -/
inductive Move (s : Hub n c) : HubLabel n → Hub n c → Prop
  | device {l : HubLabel n} (sample : Sample) (injected : Bool)
      (htype : sample.type = sampleTemp ∨ sample.type = sampleUser) :
      Move s l { s with pipe := s.pipe.devicePush sample injected }
  | main {l : HubLabel n} {m : PipeLabel n} {pipe : Pipe n c} (hm : m ∈ [.drain, .main, .close])
      (hpipe : Pipe.pipeStep s.pipe m = some pipe) : Move s l { s with pipe := pipe }
  | accept {tcp : Broadcaster} (htcp : s.tcp.broadcastStep .accept = some tcp) :
      Move s .accept { s with tcp := tcp }
  | turn {i : Fin n} {work : Work n c} (hheld : ∀ item, s.pipe.work.worker i ≠ .write item)
      (hunsent : ∀ item, s.pipe.work.worker i ≠ .broadcast item)
      (hwork : s.pipe.work.workerStep i = some work) :
      Move s (.turn i) { s with pipe := { s.pipe with work := work } }
  | write {i : Fin n} {os : Os} {item : Sample} {log : LogState} {work : Work n c}
      (hpc : s.pipe.work.worker i = .write item)
      (hlog : s.log.writeSample os item = some (.ok (), log))
      (hwork : s.pipe.work.workerStep i = some work) :
      Move s (.write i os) { s with
        pipe := { s.pipe with work := work }
        log := log
        stage := Function.update s.stage i .datagram }
  | throws {i : Fin n} {os : Os} {item : Sample} {e : LogError} {log : LogState}
      (hlog : s.log.writeSample os item = some (.error e, log)) :
      Move s (.write i os) { s with log := log, terminated := true }
  | datagram {i : Fin n} {item : Sample} (hpc : s.pipe.work.worker i = .broadcast item)
      (hstage : s.stage i = .datagram) :
      Move s (.datagram i) { s with
        datagrams := s.datagrams ++ [sampleToLine item]
        stage := Function.update s.stage i .lock }
  | lock {i : Fin n} {item : Sample} {tcp : Broadcaster}
      (hpc : s.pipe.work.worker i = .broadcast item) (hstage : s.stage i = .lock)
      (htcp : s.tcp.broadcastStep (.broadcast (sampleToLine item)) = some tcp) :
      Move s (.lock i) { s with tcp := tcp, stage := Function.update s.stage i .loop }
  | send {i : Fin n} {item : Sample} {result : SendResult} {tcp : Broadcaster}
      (hpc : s.pipe.work.worker i = .broadcast item) (hstage : s.stage i = .loop)
      (htcp : s.tcp.broadcastStep (.send result) = some tcp) :
      Move s (.send i result) { s with tcp := tcp }
  | unlock {i : Fin n} {item : Sample} {tcp : Broadcaster} {work : Work n c}
      (hpc : s.pipe.work.worker i = .broadcast item) (hstage : s.stage i = .loop)
      (htcp : s.tcp.broadcastStep .finish = some tcp)
      (hwork : s.pipe.work.workerStep i = some work) :
      Move s (.unlock i) { s with pipe := { s.pipe with work := work }, tcp := tcp }

variable {s t : Hub n c} {l : HubLabel n}

theorem exporting_eq_some {i : Fin n} {stage : Stage} {item : Sample} :
    s.exporting i stage = some item ↔
      s.pipe.work.worker i = .broadcast item ∧ s.stage i = stage := by
  unfold exporting
  cases hpc : s.pipe.work.worker i with
  | broadcast other =>
      by_cases hstage : s.stage i = stage
      · simp [hstage]
      · simp [hstage]
  | _ => simp

/-- A step of the pipeline for worker `i` is one of the worker. -/
theorem onPipe_worker {i : Fin n} (h : s.onPipe (.worker i) = some t) :
    ∃ work, s.pipe.work.workerStep i = some work ∧
      t = { s with pipe := { s.pipe with work := work } } := by
  obtain ⟨pipe, hpipe, rfl⟩ := Option.map_eq_some_iff.mp h
  obtain ⟨work, hwork, rfl⟩ := Option.map_eq_some_iff.mp hpipe
  exact ⟨work, hwork, rfl⟩

theorem move_of_hubStep (h : hubStep s l = some t) : Move s l t := by
  unfold hubStep at h
  by_cases hterm : s.terminated = true
  · rw [if_pos hterm] at h
    cases h
  rw [if_neg hterm] at h
  cases l with
  | timer now randomValue =>
      cases h
      exact .device _ false (Or.inl rfl)
  | inject sample now =>
      cases h
      exact .device _ true (Or.inr rfl)
  | drain =>
      obtain ⟨pipe, hpipe, rfl⟩ := Option.map_eq_some_iff.mp h
      exact .main (by simp) hpipe
  | main =>
      obtain ⟨pipe, hpipe, rfl⟩ := Option.map_eq_some_iff.mp h
      exact .main (by simp) hpipe
  | close =>
      obtain ⟨pipe, hpipe, rfl⟩ := Option.map_eq_some_iff.mp h
      exact .main (by simp) hpipe
  | accept =>
      cases hm : s.pipe.main with
      | loop =>
          simp only [hm] at h
          obtain ⟨tcp, htcp, rfl⟩ := Option.map_eq_some_iff.mp h
          exact .accept htcp
      | _ => simp [hm] at h
  | turn i =>
      cases hpc : s.pipe.work.worker i with
      | write item => simp [hpc] at h
      | broadcast item => simp [hpc] at h
      | _ =>
          simp only [hpc] at h
          obtain ⟨work, hwork, rfl⟩ := onPipe_worker h
          exact .turn (by simp [hpc]) (by simp [hpc]) hwork
  | write i os =>
      cases hpc : s.pipe.work.worker i with
      | write item =>
          simp only [hpc] at h
          cases hlog : s.log.writeSample os item with
          | none => simp [hlog] at h
          | some result =>
              obtain ⟨_ | ⟨⟨⟩⟩, log⟩ := result
              · simp only [hlog] at h
                cases h
                exact .throws hlog
              · simp only [hlog] at h
                obtain ⟨u, hu, rfl⟩ := Option.map_eq_some_iff.mp h
                obtain ⟨work, hwork, rfl⟩ := onPipe_worker hu
                exact .write hpc hlog hwork
      | _ => simp [hpc] at h
  | datagram i =>
      obtain ⟨item, hitem, rfl⟩ := Option.map_eq_some_iff.mp h
      obtain ⟨hpc, hstage⟩ := exporting_eq_some.mp hitem
      exact .datagram hpc hstage
  | lock i =>
      obtain ⟨item, hitem, h⟩ := Option.bind_eq_some_iff.mp h
      obtain ⟨tcp, htcp, rfl⟩ := Option.map_eq_some_iff.mp h
      obtain ⟨hpc, hstage⟩ := exporting_eq_some.mp hitem
      exact .lock hpc hstage htcp
  | send i result =>
      obtain ⟨item, hitem, h⟩ := Option.bind_eq_some_iff.mp h
      obtain ⟨tcp, htcp, rfl⟩ := Option.map_eq_some_iff.mp h
      obtain ⟨hpc, hstage⟩ := exporting_eq_some.mp hitem
      exact .send hpc hstage htcp
  | unlock i =>
      obtain ⟨item, hitem, h⟩ := Option.bind_eq_some_iff.mp h
      obtain ⟨tcp, htcp, h⟩ := Option.bind_eq_some_iff.mp h
      obtain ⟨u, hu, rfl⟩ := Option.map_eq_some_iff.mp h
      obtain ⟨work, hwork, rfl⟩ := onPipe_worker hu
      obtain ⟨hpc, hstage⟩ := exporting_eq_some.mp hitem
      exact .unlock hpc hstage htcp hwork

/-! ### The levels below -/

section Reached

variable {path : Bytes} {rotateBytes : UInt64} {disk : Disk}

/-- **The samples move as in the pipeline.** -/
theorem pipe_reachable (h : Reachable hubStep (init n c path rotateBytes disk) s) :
    Reachable Pipe.pipeStep (Pipe.init n c) s.pipe := by
  refine h.inv (fun s => Reachable Pipe.pipeStep (Pipe.init n c) s.pipe)
    (fun s l t hs hst => ?_) (.refl _)
  cases move_of_hubStep hst with
  | device sample injected htype => exact hs.tail (l := .device sample injected) rfl
  | main hm hpipe => exact hs.tail hpipe
  | turn hheld hunsent hwork => exact hs.tail (Pipe.pipeStep_worker hwork)
  | write hpc hlog hwork => exact hs.tail (Pipe.pipeStep_worker hwork)
  | unlock hpc hstage htcp hwork => exact hs.tail (Pipe.pipeStep_worker hwork)
  | _ => exact hs

/-- **The subscribers are served as by the broadcaster.** -/
theorem tcp_reachable (h : Reachable hubStep (init n c path rotateBytes disk) s) :
    Reachable Broadcaster.broadcastStep Broadcaster.init s.tcp := by
  refine h.inv (fun s => Reachable Broadcaster.broadcastStep Broadcaster.init s.tcp)
    (fun s l t hs hst => ?_) (.refl _)
  cases move_of_hubStep hst with
  | accept htcp => exact hs.tail htcp
  | lock hpc hstage htcp => exact hs.tail htcp
  | send hpc hstage htcp => exact hs.tail htcp
  | unlock hpc hstage htcp hwork => exact hs.tail htcp
  | _ => exact hs

end Reached

/-! ### The worker that holds the mutex -/

/-- What has been broadcast, and whose call holds the mutex. -/
structure Linked (s : Hub n c) : Prop where
  lines : s.tcp.lines = s.pipe.work.broadcast.map sampleToLine
  free : s.tcp.pass = none → ∀ i, s.exporting i .loop = none
  held : ∀ pass, s.tcp.pass = some pass → ∃ i item, s.exporting i .loop = some item ∧
    pass.line = sampleToLine item ∧ ∀ j, j ≠ i → s.exporting j .loop = none

theorem exporting_congr {i : Fin n} (hworker : t.pipe.work.worker i = s.pipe.work.worker i)
    (hstage : t.stage i = s.stage i) (stage : Stage) :
    t.exporting i stage = s.exporting i stage := by
  rw [exporting, hworker, hstage, exporting]

theorem exporting_of_ne {i : Fin n} (h : ∀ item, s.pipe.work.worker i ≠ .broadcast item)
    (stage : Stage) : s.exporting i stage = none := by
  cases hex : s.exporting i stage with
  | none => rfl
  | some item => exact absurd (exporting_eq_some.mp hex).1 (h item)

theorem exporting_of_unsent {i : Fin n} (h : (s.pipe.work.worker i).unsent = []) (stage : Stage) :
    s.exporting i stage = none := by
  refine exporting_of_ne (fun item hpc => ?_) stage
  rw [hpc] at h
  cases h

theorem exporting_of_stage {i : Fin n} {stage : Stage} (h : s.stage i ≠ stage) :
    s.exporting i stage = none := by
  cases hex : s.exporting i stage with
  | none => rfl
  | some item => exact absurd (exporting_eq_some.mp hex).2 h

/-- A step that neither begins nor ends a call. -/
theorem Linked.frame (hs : Linked s) (hlines : t.tcp.lines = s.tcp.lines)
    (hbroadcast : t.pipe.work.broadcast = s.pipe.work.broadcast)
    (hpass : t.tcp.pass.map Pass.line = s.tcp.pass.map Pass.line)
    (hexp : ∀ i, t.exporting i .loop = s.exporting i .loop) : Linked t where
  lines := by rw [hlines, hbroadcast]; exact hs.lines
  free := by
    intro hnone i
    rw [hnone, Option.map_none, eq_comm, Option.map_eq_none_iff] at hpass
    rw [hexp]
    exact hs.free hpass i
  held := by
    intro pass hsome
    rw [hsome, Option.map_some, eq_comm, Option.map_eq_some_iff] at hpass
    obtain ⟨before, hbefore, hline⟩ := hpass
    obtain ⟨i, item, hitem, hlink, hrest⟩ := hs.held before hbefore
    exact ⟨i, item, by rw [hexp]; exact hitem, by rw [← hline]; exact hlink,
      fun j hj => by rw [hexp]; exact hrest j hj⟩

/-- Worker `i` moves and was not in the loop of `broadcast_line`, nor is it now. -/
theorem exporting_loop_update {i : Fin n} {pc : WorkerPc} {stage : Stage}
    (hworker : t.pipe.work.worker = Function.update s.pipe.work.worker i pc)
    (hstage : t.stage = Function.update s.stage i stage) (hbefore : s.exporting i .loop = none)
    (hafter : pc.unsent = [] ∨ stage ≠ .loop) (j : Fin n) :
    t.exporting j .loop = s.exporting j .loop := by
  by_cases hj : j = i
  · subst hj
    rw [hbefore]
    rcases hafter with hpc | hne
    · exact exporting_of_unsent (by rw [hworker, Function.update_self]; exact hpc) _
    · exact exporting_of_stage (by rw [hstage, Function.update_self]; exact hne)
  · exact exporting_congr (by rw [hworker, Function.update_of_ne hj])
      (by rw [hstage, Function.update_of_ne hj]) _

theorem Linked.lock (hs : Linked s) {i : Fin n} {item : Sample} {tcp : Broadcaster}
    (hpc : s.pipe.work.worker i = .broadcast item)
    (htcp : s.tcp.broadcastStep (.broadcast (sampleToLine item)) = some tcp) :
    Linked { s with tcp := tcp, stage := Function.update s.stage i .loop } := by
  cases Broadcaster.step_of_broadcastStep htcp with
  | broadcast hpass =>
      refine ⟨hs.lines, (fun h => by cases h), ?_⟩
      intro pass hsome
      cases hsome
      refine ⟨i, item, exporting_eq_some.mpr ⟨hpc, Function.update_self _ _ _⟩, rfl, ?_⟩
      intro j hj
      refine (exporting_congr (s := s) ?_ ?_ _).trans (hs.free hpass j)
      · rfl
      · exact Function.update_of_ne hj _ _

theorem Linked.unlock (hs : Linked s) {i : Fin n} {item : Sample} {tcp : Broadcaster}
    {work : Work n c} (hpc : s.pipe.work.worker i = .broadcast item) (hstage : s.stage i = .loop)
    (htcp : s.tcp.broadcastStep .finish = some tcp)
    (hwork : s.pipe.work.workerStep i = some work) :
    Linked { s with pipe := { s.pipe with work := work }, tcp := tcp } := by
  cases Broadcaster.step_of_broadcastStep htcp with
  | @finish pass hpass hend =>
      rw [Work.workerStep_broadcast hpc] at hwork
      cases hwork
      obtain ⟨k, other, hother, hline, hrest⟩ := hs.held pass hpass
      -- the worker that returns is the one that holds the mutex
      have hmine : s.exporting i .loop = some item := exporting_eq_some.mpr ⟨hpc, hstage⟩
      have hik : i = k := by
        by_contra hne
        rw [hrest i hne] at hmine
        cases hmine
      subst hik
      rw [hmine] at hother
      cases hother
      refine ⟨?_, ?_, fun pass h => by cases h⟩
      · simp only [hs.lines, hline, List.map_append, List.map_singleton]
      · intro _ j
        by_cases hj : j = i
        · subst hj
          exact exporting_of_unsent (by simp only [Function.update_self]; rfl) _
        · refine (exporting_congr (s := s) ?_ ?_ _).trans (hrest j hj)
          · exact Function.update_of_ne hj _ _
          · rfl

/-- **A step keeps the worker and the broadcaster in step.** -/
theorem linked_step {xs : List Sample} (hx : Holds s.pipe.dev xs) (hs : Linked s)
    (h : hubStep s l = some t) : Linked t := by
  cases move_of_hubStep h with
  | device sample injected htype => exact hs.frame rfl rfl rfl fun _ => rfl
  | main hm hpipe =>
      obtain ⟨hworker, -, hbroadcast, -⟩ := Pipe.pipeStep_main hx hm hpipe
      refine hs.frame rfl hbroadcast rfl fun i => exporting_congr ?_ ?_ _
      · exact congrFun hworker i
      · rfl
  | accept htcp =>
      cases Broadcaster.step_of_broadcastStep htcp with
      | accept hpass => exact hs.frame rfl rfl rfl fun _ => rfl
  | @turn i work hheld hunsent hwork =>
      obtain ⟨-, hbroadcast, pc, hworker, hpc⟩ := Work.workerStep_turn hheld hunsent hwork
      exact hs.frame rfl hbroadcast rfl (exporting_loop_update hworker
        (Function.update_eq_self i s.stage).symm (exporting_of_ne hunsent _) (.inl hpc))
  | write hpc hlog hwork =>
      rw [Work.workerStep_write hpc] at hwork
      cases hwork
      exact hs.frame rfl rfl rfl (exporting_loop_update rfl rfl
        (exporting_of_unsent (by rw [hpc]; rfl) _) (.inr (by decide)))
  | throws hlog => exact hs.frame rfl rfl rfl fun _ => rfl
  | datagram hpc hstage =>
      exact hs.frame rfl rfl rfl (exporting_loop_update (Function.update_eq_self _ _).symm rfl
        (exporting_of_stage (by rw [hstage]; decide)) (.inr (by decide)))
  | lock hpc hstage htcp => exact hs.lock hpc htcp
  | send hpc hstage htcp =>
      cases Broadcaster.step_of_broadcastStep htcp with
      | @send pass k result hpass hk htake =>
          refine hs.frame ?_ rfl ?_ fun _ => rfl
          · simp only [Broadcaster.onSend]
            split_ifs <;> rfl
          · simp only [Broadcaster.onSend]
            split_ifs <;> simp [hpass]
  | unlock hpc hstage htcp hwork => exact hs.unlock hpc hstage htcp hwork

section Exports

variable {path : Bytes} {rotateBytes : UInt64} {disk : Disk}

theorem linked_init : Linked (init n c path rotateBytes disk) where
  lines := rfl
  free _ i := exporting_of_stage (by change Stage.datagram ≠ _; decide)
  held pass h := by cases h

theorem linked_of_reachable (h : Reachable hubStep (init n c path rotateBytes disk) s) :
    Linked s := by
  refine h.inv_reachable Linked (fun s l t hs hlinked hst => ?_) linked_init
  obtain ⟨xs, hx⟩ := Pipe.account_of_reachable (pipe_reachable hs)
  exact linked_step hx.ring hlinked hst

/-- The driver makes samples of two types. -/
theorem type_of_pushed (h : Reachable hubStep (init n c path rotateBytes disk) s) :
    ∀ x ∈ s.pipe.pushed, x.type = sampleTemp ∨ x.type = sampleUser := by
  refine h.inv_reachable (fun s => ∀ x ∈ s.pipe.pushed, x.type = sampleTemp ∨ x.type = sampleUser)
    (fun s l t hs htyped hst => ?_) (fun x hx => by cases hx)
  cases move_of_hubStep hst with
  | device sample injected htype =>
      intro x hx
      rcases List.mem_append.mp hx with hx | hx
      · exact htyped x hx
      · rw [List.mem_singleton.mp hx]
        exact htype
  | main hm hpipe =>
      obtain ⟨xs, hx⟩ := Pipe.account_of_reachable (pipe_reachable hs)
      obtain ⟨-, -, -, hpushed⟩ := Pipe.pipeStep_main hx.ring hm hpipe
      simp only [hpushed]
      exact htyped
  | _ => exact htyped

/-- **A line of the daemon is read back** as the sample it was made of. -/
theorem sampleOfLine_pushed (h : Reachable hubStep (init n c path rotateBytes disk) s) {x : Sample}
    (hx : x ∈ s.pipe.pushed) : sampleOfLine (sampleToLine x) = some x := by
  have hknown : x.type ∈ [sampleTemp, sampleAccel, sampleGyro, sampleUser] := by
    rcases type_of_pushed h x hx with htype | htype <;> rw [htype] <;> decide
  rw [sampleOfLine_sampleToLine, typeOfName_sampleTypeName hknown]

/-- **The calls of `broadcast_line`** are on lines of samples that were written, each at most once;
one worker makes them in that order. -/
theorem begun_eq (h : Reachable hubStep (init n c path rotateBytes disk) s) :
    ∃ xs : List Sample, s.tcp.begun = xs.map sampleToLine ∧
      (xs : Multiset Sample) ≤ s.pipe.work.written ∧ (n = 1 → xs <+: s.pipe.work.written) := by
  have hlinked := linked_of_reachable h
  obtain ⟨accepted, p, e, hledger⟩ := Pipe.ledger_of_reachable (pipe_reachable h)
  cases hpass : s.tcp.pass with
  | none =>
      refine ⟨s.pipe.work.broadcast, ?_, ?_, ?_⟩
      · simp [Broadcaster.begun, hpass, hlinked.lines]
      · rw [hledger.sent]
        exact Multiset.le_add_right _ _
      · rintro rfl
        rw [Pipe.sentInLine_of_reachable (pipe_reachable h)]
        exact List.prefix_append _ _
  | some pass =>
      obtain ⟨i, item, hitem, hline, -⟩ := hlinked.held pass hpass
      have hunsent : (s.pipe.work.worker i).unsent = [item] := by
        rw [(exporting_eq_some.mp hitem).1]
        rfl
      refine ⟨s.pipe.work.broadcast ++ [item], ?_, ?_, ?_⟩
      · simp [Broadcaster.begun, hpass, hlinked.lines, hline]
      · rw [hledger.sent, ← Multiset.coe_add, ← hunsent]
        refine add_le_add_right ?_ _
        exact Finset.single_le_sum (f := fun i => ((s.pipe.work.worker i).unsent : Multiset Sample))
          (fun _ _ => Multiset.zero_le _) (Finset.mem_univ i)
      · rintro rfl
        obtain rfl : i = 0 := Subsingleton.elim i 0
        rw [Pipe.sentInLine_of_reachable (pipe_reachable h), hunsent]

end Exports

end Hub

end SensorHub
