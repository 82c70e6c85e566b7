import SensorHub.Daemon.Hub
import SensorHub.Storage.ReadBack

set_option autoImplicit false

/-!
# What leaves the daemon

The samples of the driver at the three places they leave the daemon by: the stream of a TCP
subscriber, the datagrams, and the log with its archive. Each is read back as the samples it was
made of.

* **`subscribers_get_samples`**: what a subscriber prints are samples of the driver, none twice.
* `Sent`, `sent_step`, **`exports_agree`**: datagrams and broadcasts carry the lines of the samples
  that were passed to the log.
* `Granted`, `log_run`, **`log_reads_back`**: the files are the latest samples.
-/

namespace SensorHub.Hub

open Driver LineFrame Storage Trans

variable {n c : ℕ} {s t : Hub n c} {l : HubLabel n} {path : Bytes} {rotateBytes : UInt64}
  {disk : Disk}

/-- A subscriber joins, the timer fires, and the one worker takes the sample to all three places. -/
def oneExported : List (HubLabel 1) :=
  let w := Fin.last 0
  [.accept, .timer 5 7, .drain, .main, .main, .main, .main, .main, .turn w,
    .write w (.granting true), .datagram w, .lock w, .send w (.sent 43), .unlock w]

/-- The line of its sample. -/
def exportedLine : Bytes := ascii "seq=0 ts_ns=5 type=temp v0=25007 v1=0 v2=0"

/-! ### What a subscriber prints -/

/-- What a subscriber prints are lines whose call of `broadcast_line` has begun. -/
theorem printed_sublist_begun {b : Broadcaster} (hb : Broadcaster.Served b) {k : ℕ}
    (hk : k < b.accepted) (hlines : ∀ line ∈ b.begun, newline ∉ line) (count : ℤ)
    {reads : List ReadResult} (hreads : reads.flatMap ReadResult.bytes <+: (b.socket k).taken) :
    (Subscriber.subscribe count .init reads).1.printed.Sublist b.begun := by
  have hdrop : ∀ {ys : List Bytes}, ys.Sublist (b.begun.drop (b.socket k).joined) →
      ys.Sublist b.begun := fun hys => hys.trans (List.drop_sublist _ _)
  by_cases hmem : k ∈ b.clients
  · have hwhole : Whole b.begun (b.socket k) := by
      rw [← List.take_append_drop b.it b.clients, List.mem_append] at hmem
      rcases hmem with hmem | hmem
      · exact hb.served k hmem
      · exact (hb.waiting k hmem).mono (List.prefix_append _ _)
    obtain ⟨ys, hys, htaken⟩ := hwhole.taken
    have hno : ∀ line ∈ ys, newline ∉ line := fun line hl => hlines line ((hdrop hys).subset hl)
    rw [← List.append_nil (ys.flatMap _)] at htaken
    exact (Broadcaster.printed_of_taken hno List.not_mem_nil htaken count hreads).sublist.trans
      (hdrop hys)
  · obtain ⟨-, ys, line, tail, hys, hinitial, hne, htaken⟩ := hb.dropped k hk hmem
    have hno : ∀ l ∈ ys ++ [line], newline ∉ l := fun l hl => hlines l ((hdrop hys).subset hl)
    have htail := Broadcaster.newline_notMem_of_proper (hno line (by simp)) hinitial hne
    exact (Broadcaster.printed_of_taken (fun l hl => hno l (List.mem_append_left _ hl)) htail htaken
      count hreads).sublist.trans ((List.sublist_append_left ys [line]).trans (hdrop hys))

/-- **From the driver to the subscriber.** Whatever part of its stream `sensor_subscribe` has read,
and however it was cut: the lines it has printed, read back, are samples that went through
`sensorhub_push_sample` and were passed to `write_sample`, which returned, none of them twice; and
with one worker their numbers increase. -/
theorem subscribers_get_samples (h : Reachable hubStep (init n c path rotateBytes disk) s)
    (hpushed : s.pipe.pushed.length < 2 ^ 64) {k : ℕ} (hk : k < s.tcp.accepted) (count : ℤ)
    (reads : List ReadResult) (hreads : reads.flatMap ReadResult.bytes <+: (s.tcp.socket k).taken) :
    ∃ xs : List Sample,
      (Subscriber.subscribe count .init reads).1.printed.map sampleOfLine = xs.map some ∧
      (xs : Multiset Sample) ≤ s.pipe.work.written ∧
      (s.pipe.work.written : Multiset Sample) ≤ s.pipe.pushed ∧
      (xs.map fun x => x.seq.toNat).Nodup ∧
      (n = 1 → (xs.map fun x => x.seq.toNat).Pairwise (· < ·)) := by
  have hpipe := pipe_reachable h
  have hserved : Broadcaster.Served s.tcp :=
    (tcp_reachable h).inv _ (fun _ _ _ hs hst => Broadcaster.served_step hs hst)
      Broadcaster.served_init
  obtain ⟨zs, hbegun, hzs, hone⟩ := begun_eq h
  have hlines : ∀ line ∈ s.tcp.begun, newline ∉ line := by
    intro line hl
    rw [hbegun] at hl
    obtain ⟨x, -, rfl⟩ := List.mem_map.mp hl
    exact newline_notMem_sampleToLine x
  have hprinted := printed_sublist_begun hserved hk hlines count hreads
  rw [hbegun] at hprinted
  obtain ⟨xs, hxs, hprint⟩ := List.sublist_map_iff.mp hprinted
  have hwritten : (xs : Multiset Sample) ≤ s.pipe.work.written :=
    (Multiset.coe_le.mpr hxs.subperm).trans hzs
  have hle := Pipe.written_le_pushed hpipe
  obtain ⟨ys, haccount⟩ := Pipe.account_of_reachable hpipe
  have hrange := (Numbered.mk haccount.numbers haccount.next).map_toNat hpushed
  refine ⟨xs, ?_, hwritten, hle, ?_, ?_⟩
  · rw [hprint, List.map_map]
    refine List.map_congr_left fun x hx => ?_
    have hmem : x ∈ s.pipe.pushed :=
      Multiset.mem_coe.mp (Multiset.mem_of_le (hwritten.trans hle) (Multiset.mem_coe.mpr hx))
    rw [Function.comp_apply, sampleOfLine_pushed h hmem]
  · have hsub := Multiset.map_le_map (f := fun x : Sample => x.seq.toNat) (hwritten.trans hle)
    rw [Multiset.map_coe, Multiset.map_coe, hrange] at hsub
    exact Multiset.coe_nodup.mp
      (Multiset.nodup_of_le hsub (Multiset.coe_nodup.mpr List.nodup_range))
  · rintro rfl
    have hsub : xs.Sublist s.pipe.pushed :=
      (hxs.trans (hone rfl).sublist).trans (Pipe.written_sublist_pushed hpipe)
    refine List.Pairwise.sublist (hsub.map _) ?_
    rw [hrange]
    exact List.pairwise_lt_range

theorem subscribers_get_samples_oneExported : ∃ s,
    run hubStep (init 1 4 (ascii "log") 0 ⟨none, none⟩) oneExported = some s ∧
    ∃ xs : List Sample, (Subscriber.subscribe 5 .init
      [.data ⟨payload exportedLine, by decide, by decide⟩]).1.printed.map sampleOfLine =
        xs.map some ∧ (xs.map fun x => x.seq.toNat).Pairwise (· < ·) := by
  obtain ⟨s, hs⟩ : ∃ s, run hubStep (init 1 4 (ascii "log") 0 ⟨none, none⟩) oneExported = some s :=
    ⟨_, rfl⟩
  have hp : (run hubStep (init 1 4 (ascii "log") 0 ⟨none, none⟩) oneExported).map
      (fun s => s.pipe.pushed.length) = some 1 := rfl
  have ha : (run hubStep (init 1 4 (ascii "log") 0 ⟨none, none⟩) oneExported).map
      (fun s => (s.tcp.accepted, (s.tcp.socket 0).taken)) = some (1, payload exportedLine) := rfl
  rw [hs] at hp ha
  obtain ⟨haccepted, htaken⟩ := Prod.mk.inj (Option.some.inj ha)
  have hpushed : s.pipe.pushed.length = 1 := Option.some.inj hp
  obtain ⟨xs, hxs, -, -, -, hone⟩ := subscribers_get_samples ⟨_, hs⟩ (by omega)
    (by omega : 0 < s.tcp.accepted) 5 [.data ⟨payload exportedLine, by decide, by decide⟩]
    (by rw [htaken]; exact List.prefix_rfl)
  exact ⟨s, hs, xs, hxs, hone rfl⟩

/-! ### The three exports -/

/-- The lines whose worker stands before `sendto`. -/
def unsentDatagrams (s : Hub n c) : Multiset Bytes :=
  ∑ i, (((s.exporting i .datagram).toList.map sampleToLine : List Bytes) : Multiset Bytes)

/-- Worker `i` moves. -/
theorem unsentDatagrams_move {i : Fin n}
    (h : ∀ j, j ≠ i → t.exporting j .datagram = s.exporting j .datagram) :
    t.unsentDatagrams + ((s.exporting i .datagram).toList.map sampleToLine : List Bytes) =
      s.unsentDatagrams + ((t.exporting i .datagram).toList.map sampleToLine : List Bytes) := by
  have hrest : ∑ j ∈ Finset.univ.erase i,
      (((t.exporting j .datagram).toList.map sampleToLine : List Bytes) : Multiset Bytes) =
      ∑ j ∈ Finset.univ.erase i,
        (((s.exporting j .datagram).toList.map sampleToLine : List Bytes) : Multiset Bytes) :=
    Finset.sum_congr rfl fun j hj => by rw [h j (Finset.ne_of_mem_erase hj)]
  rw [unsentDatagrams, unsentDatagrams, ← Finset.add_sum_erase _ _ (Finset.mem_univ i),
    ← Finset.add_sum_erase _ _ (Finset.mem_univ i), hrest]
  abel

theorem unsentDatagrams_congr (h : ∀ i, t.exporting i .datagram = s.exporting i .datagram) :
    t.unsentDatagrams = s.unsentDatagrams := by
  rw [unsentDatagrams, unsentDatagrams]
  exact Finset.sum_congr rfl fun i _ => by rw [h i]

/-- Every written sample was handed to `sendto` once, or its worker is about to do so. -/
def Sent (s : Hub n c) : Prop :=
  ((s.pipe.work.written.map sampleToLine : List Bytes) : Multiset Bytes) =
    s.datagrams + s.unsentDatagrams

/-- Worker `i` moves, and what it writes and sends is balanced. -/
theorem Sent.move (hs : Sent s) (i : Fin n) (before after : Option Sample)
    (hrest : ∀ j, j ≠ i → t.exporting j .datagram = s.exporting j .datagram)
    (hbefore : s.exporting i .datagram = before) (hafter : t.exporting i .datagram = after)
    (hbalance : ((t.pipe.work.written.map sampleToLine ++ s.datagrams ++
        before.toList.map sampleToLine : List Bytes) : Multiset Bytes) =
      (s.pipe.work.written.map sampleToLine ++ t.datagrams ++
        after.toList.map sampleToLine : List Bytes)) : Sent t := by
  refine Work.balance_move hs (unsentDatagrams_move hrest) ?_
  rw [hbefore, hafter, Multiset.coe_add, Multiset.coe_add, Multiset.coe_add, Multiset.coe_add]
  exact hbalance

theorem sent_step {xs : List Sample} (hx : Holds s.pipe.dev xs) (hs : Sent s)
    (h : hubStep s l = some t) : Sent t := by
  cases move_of_hubStep h with
  | device sample injected htype => exact hs
  | @main _ m pipe hm hpipe =>
      obtain ⟨hworker, hwritten, -, -⟩ := Pipe.pipeStep_main hx hm hpipe
      have hunsent : unsentDatagrams { s with pipe := pipe } = s.unsentDatagrams := by
        refine unsentDatagrams_congr fun i => exporting_congr ?_ ?_ _
        · exact congrFun hworker i
        · rfl
      rw [Sent, hwritten, hunsent]
      exact hs
  | accept htcp => exact hs
  | @turn i work hheld hunsent hwork =>
      obtain ⟨hwritten, -, pc, hworker, hpc⟩ := Work.workerStep_turn hheld hunsent hwork
      refine hs.move i none none (fun j hj => exporting_congr ?_ ?_ _)
        (exporting_of_ne hunsent _) (exporting_of_unsent ?_ _) ?_
      · simp only [hworker, Function.update_of_ne hj]
      · rfl
      · simp only [hworker, Function.update_self, hpc]
      · simp only [hwritten]
  | @write i os item log work hpc hlog hwork =>
      rw [Work.workerStep_write hpc] at hwork
      cases hwork
      refine hs.move i none (some item) (fun j hj => exporting_congr ?_ ?_ _)
        (exporting_of_unsent (by rw [hpc]; rfl) _) (exporting_eq_some.mpr ⟨?_, ?_⟩) ?_
      · exact Function.update_of_ne hj _ _
      · exact Function.update_of_ne hj _ _
      · exact Function.update_self _ _ _
      · exact Function.update_self _ _ _
      · rw [Multiset.coe_eq_coe]
        simp only [List.map_append, Option.toList, List.map_cons, List.map_nil, List.append_nil,
          List.append_assoc]
        exact List.perm_append_comm.append_left _
  | throws hlog => exact hs
  | @datagram i item hpc hstage =>
      refine hs.move i (some item) none (fun j hj => exporting_congr ?_ ?_ _)
        (exporting_eq_some.mpr ⟨hpc, hstage⟩) (exporting_of_stage ?_) ?_
      · rfl
      · exact Function.update_of_ne hj _ _
      · simp
      · simp [Option.toList]
  | @lock i item tcp hpc hstage htcp =>
      refine hs.move i none none (fun j hj => exporting_congr ?_ ?_ _)
        (exporting_of_stage (by rw [hstage]; decide)) (exporting_of_stage ?_) rfl
      · rfl
      · exact Function.update_of_ne hj _ _
      · simp
  | send hpc hstage htcp => exact hs
  | @unlock i item tcp work hpc hstage htcp hwork =>
      rw [Work.workerStep_broadcast hpc] at hwork
      cases hwork
      refine hs.move i none none (fun j hj => exporting_congr ?_ ?_ _)
        (exporting_of_stage (by rw [hstage]; decide)) (exporting_of_unsent ?_ _) rfl
      · exact Function.update_of_ne hj _ _
      · rfl
      · simp only [Function.update_self]
        rfl

theorem sent_of_reachable (h : Reachable hubStep (init n c path rotateBytes disk) s) : Sent s := by
  refine h.inv_reachable Sent (fun s l t hs hsent hst => ?_) ?_
  · obtain ⟨xs, hx⟩ := Pipe.account_of_reachable (pipe_reachable hs)
    exact sent_step hx.ring hsent hst
  · have hnone : unsentDatagrams (init n c path rotateBytes disk) = 0 :=
      Finset.sum_eq_zero fun i _ => rfl
    rw [Sent, hnone]
    rfl

/-- **The exports agree.** Every sample that was passed to `write_sample`, which returned, was
handed to `sendto` once or its worker is about to do so, and was broadcast once or its worker has
yet to finish; while no worker is between its write and its count, datagrams and broadcasts carry
the lines of these samples, each once. -/
theorem exports_agree (h : Reachable hubStep (init n c path rotateBytes disk) s) :
    ((s.pipe.work.written.map sampleToLine : List Bytes) : Multiset Bytes) =
      s.datagrams + s.unsentDatagrams ∧
    ((s.pipe.work.written.map sampleToLine : List Bytes) : Multiset Bytes) =
      s.tcp.lines + ∑ i, (((s.pipe.work.worker i).unsent.map sampleToLine : List Bytes) :
        Multiset Bytes) ∧
    ((∀ i, (s.pipe.work.worker i).unsent = []) →
      s.datagrams.Perm (s.pipe.work.written.map sampleToLine) ∧
      s.tcp.begun.Perm (s.pipe.work.written.map sampleToLine)) := by
  have hsent := sent_of_reachable h
  have hlinked := linked_of_reachable h
  obtain ⟨accepted, p, e, hledger⟩ := Pipe.ledger_of_reachable (pipe_reachable h)
  have hlines : ((s.pipe.work.written.map sampleToLine : List Bytes) : Multiset Bytes) =
      s.tcp.lines + ∑ i, (((s.pipe.work.worker i).unsent.map sampleToLine : List Bytes) :
        Multiset Bytes) := by
    have hmap := congrArg (Multiset.mapAddMonoidHom sampleToLine) hledger.sent
    rw [map_add, map_sum] at hmap
    rw [hlinked.lines]
    exact hmap
  refine ⟨hsent, hlines, ?_⟩
  intro hidle
  have hnone : ∀ i stage, s.exporting i stage = none := fun i stage =>
    exporting_of_unsent (hidle i) stage
  constructor
  · have hzero : s.unsentDatagrams = 0 := Finset.sum_eq_zero fun i _ => by rw [hnone]; rfl
    rw [Sent, hzero, add_zero, Multiset.coe_eq_coe] at hsent
    exact hsent.symm
  · have hpass : s.tcp.pass = none := by
      cases hpass : s.tcp.pass with
      | none => rfl
      | some pass =>
          obtain ⟨i, item, hitem, -⟩ := hlinked.held pass hpass
          rw [hnone] at hitem
          cases hitem
    have hzero : ∑ i, (((s.pipe.work.worker i).unsent.map sampleToLine : List Bytes) :
        Multiset Bytes) = 0 := Finset.sum_eq_zero fun i _ => by rw [hidle]; rfl
    rw [hzero, add_zero, Multiset.coe_eq_coe] at hlines
    rw [Broadcaster.begun, hpass, Option.map_none, Option.toList, List.append_nil]
    exact hlines.symm

theorem exports_agree_oneExported : ∃ s,
    run hubStep (init 1 4 (ascii "log") 0 ⟨none, none⟩) oneExported = some s ∧
    s.datagrams.Perm [exportedLine] ∧ s.tcp.begun.Perm [exportedLine] := by
  obtain ⟨s, hs⟩ : ∃ s, run hubStep (init 1 4 (ascii "log") 0 ⟨none, none⟩) oneExported = some s :=
    ⟨_, rfl⟩
  have hw : (run hubStep (init 1 4 (ascii "log") 0 ⟨none, none⟩) oneExported).map
      (fun s => (s.pipe.work.written.map sampleToLine, (s.pipe.work.worker 0).unsent)) =
      some ([exportedLine], []) := rfl
  rw [hs] at hw
  obtain ⟨hwritten, hunsent⟩ := Prod.mk.inj (Option.some.inj hw)
  have hidle : ∀ i, (s.pipe.work.worker i).unsent = [] := by
    intro i
    rw [Subsingleton.elim i 0]
    exact hunsent
  obtain ⟨hdatagrams, hbegun⟩ := (exports_agree ⟨_, hs⟩).2.2 hidle
  rw [hwritten] at hdatagrams hbegun
  exact ⟨s, hs, hdatagrams, hbegun⟩

/-! ### The log, read back -/

/-- The operating system grants what `write_sample` asks for. -/
def Granted : HubLabel n → Prop
  | .write _ os => os = .granting true
  | _ => True

/-- If all is granted, the log is written by the samples in the order of `written`. -/
theorem log_run {ls : List (HubLabel n)} (hgranted : ∀ l ∈ ls, Granted l)
    (h : run hubStep (init n c path rotateBytes disk) ls = some s) :
    run attemptStep ⟨.new path rotateBytes, disk⟩ (s.pipe.work.written.map .accepted) =
      some s.log := by
  refine (run_inv_of (fun s => Reachable hubStep (init n c path rotateBytes disk) s ∧
    run attemptStep ⟨.new path rotateBytes, disk⟩ (s.pipe.work.written.map .accepted) = some s.log)
    (fun s l t hs hl hst => ?_) ⟨.refl _, rfl⟩ ((allSteps_iff_forall h).mpr hgranted) h).2
  obtain ⟨hreach, hrun⟩ := hs
  refine ⟨hreach.tail hst, ?_⟩
  cases move_of_hubStep hst with
  | device sample injected htype => exact hrun
  | main hm hpipe =>
      obtain ⟨xs, hx⟩ := Pipe.account_of_reachable (pipe_reachable hreach)
      obtain ⟨-, hwritten, -, -⟩ := Pipe.pipeStep_main hx.ring hm hpipe
      rw [hwritten]
      exact hrun
  | accept htcp => exact hrun
  | turn hheld hunsent hwork =>
      rw [(Work.workerStep_turn hheld hunsent hwork).1]
      exact hrun
  | write hpc hlog hwork =>
      rw [Work.workerStep_write hpc] at hwork
      cases hwork
      rw [hl] at hlog
      rw [List.map_append, List.map_singleton, run_snoc_eq_some]
      exact ⟨s.log, hrun, by rw [attemptStep, Attempt.accepted, hlog]; rfl⟩
  | throws hlog =>
      rw [hl] at hlog
      exact absurd hlog (writeSample_granting_ne_error _ _ _ _ _)
  | datagram hpc hstage => exact hrun
  | lock hpc hstage htcp => exact hrun
  | send hpc hstage htcp => exact hrun
  | unlock hpc hstage htcp hwork =>
      rw [Work.workerStep_broadcast hpc] at hwork
      cases hwork
      exact hrun

/-- **The log is a record of the samples.** On files that held whole lines of samples, also of an
earlier run, and with every file operation granted: the lines of the archive and of the log, read
back, are the latest of those samples and of the ones this run has passed to `write_sample`, in that
order; all of them, if the log is not rotated. The sample that was written last is the last line. -/
theorem log_reads_back {older newer : List Sample} (hdisk : Holding disk older newer)
    (hknown : ∀ x ∈ older ++ newer, Known x) {ls : List (HubLabel n)}
    (hgranted : ∀ l ∈ ls, Granted l)
    (h : run hubStep (init n c path rotateBytes disk) ls = some s) :
    ∃ xs, xs <:+ older ++ newer ++ s.pipe.work.written ∧ readBack s.log.disk = xs.map some ∧
      (rotateBytes = 0 → xs = older ++ newer ++ s.pipe.work.written) ∧
      ∀ x, s.pipe.work.written.getLast? = some x →
        LogState.payload x <:+ text s.log.disk.live ∧ xs.getLast? = some x := by
  have hlog := log_run hgranted h
  have hreach : Reachable hubStep (init n c path rotateBytes disk) s := ⟨ls, h⟩
  obtain ⟨older', newer', hholding, hsuffix, hall⟩ := holding_run hdisk hlog
  have hknown' : ∀ x ∈ older' ++ newer', Known x := by
    intro x hx
    rcases List.mem_append.mp (hsuffix.subset hx) with hx | hx
    · exact hknown x hx
    · have hmem : x ∈ s.pipe.pushed := Multiset.mem_coe.mp
        (Multiset.mem_of_le (Pipe.written_le_pushed (pipe_reachable hreach))
          (Multiset.mem_coe.mpr hx))
      rcases type_of_pushed hreach x hmem with htype | htype <;> rw [Known, htype] <;> decide
  refine ⟨older' ++ newer', hsuffix, readBack_eq hholding hknown', hall, ?_⟩
  intro x hx
  obtain ⟨before, hbefore⟩ := List.getLast?_eq_some_iff.mp hx
  rw [hbefore] at hlog hsuffix
  have hlast := last_line_run hlog
  refine ⟨hlast, ?_⟩
  have hne : older' ++ newer' ≠ [] := by
    intro hnil
    rw [hholding.live, (List.append_eq_nil_iff.mp hnil).2] at hlast
    have hempty := List.suffix_nil.mp hlast
    simp [LogState.payload] at hempty
  obtain ⟨given, hgiven⟩ := hsuffix
  have hend := congrArg List.getLast? hgiven
  rw [List.getLast?_append_of_ne_nil _ hne, ← List.append_assoc, List.getLast?_concat] at hend
  exact hend

/-- The same run on a log that holds a line of an earlier one. -/
def earlierSample : Sample := ⟨7, 3, sampleUser, -1, 2, 0⟩

def earlierLog : Disk := ⟨some ⟨LogState.payload earlierSample, by decide⟩, none⟩

theorem log_reads_back_oneExported : ∃ s,
    run hubStep (init 1 4 (ascii "log") 0 earlierLog) oneExported = some s ∧
    readBack s.log.disk = [some earlierSample, some ⟨0, 5, sampleTemp, 25007, 0, 0⟩] := by
  obtain ⟨s, hs⟩ : ∃ s, run hubStep (init 1 4 (ascii "log") 0 earlierLog) oneExported = some s :=
    ⟨_, rfl⟩
  have hw : (run hubStep (init 1 4 (ascii "log") 0 earlierLog) oneExported).map
      (fun s => s.pipe.work.written) = some [⟨0, 5, sampleTemp, 25007, 0, 0⟩] := rfl
  rw [hs] at hw
  have hdisk : Holding earlierLog [] [earlierSample] := ⟨rfl, by simp [earlierLog, text]⟩
  have hknown : ∀ x ∈ [] ++ [earlierSample], Known x := by
    intro x hx
    rw [List.mem_singleton.mp hx]
    decide
  have hgranted : ∀ l ∈ oneExported, Granted l := by
    simp [oneExported, Granted]
  obtain ⟨xs, -, hback, hall, -⟩ := log_reads_back hdisk hknown hgranted hs
  have hwritten : s.pipe.work.written = [⟨0, 5, sampleTemp, 25007, 0, 0⟩] := Option.some.inj hw
  refine ⟨s, hs, ?_⟩
  rw [hback, hall rfl, hwritten]
  rfl

end SensorHub.Hub
