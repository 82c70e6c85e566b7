import SensorHub.Daemon.Drain
import SensorHub.Net.Command

set_option autoImplicit false

/-!
# The numbers of a `stats` reply

`build_stats_text` of `userspace/src/main.cpp` reads six numbers, one after the other, on the main
thread. Meanwhile the workers go on: they take samples from the queue and count them. The main
thread itself submits nothing before the reply is complete.

* `StatsField`, `Reporting`, `reportStep`: the daemon with a reply under construction.
* `Within`: what is known of the fields read so far; `within_mono`, `within_read`.
* **`stats_consistent`**: the numbers that a reply reports count no sample twice.
-/

namespace SensorHub

open Trans

/-- What `build_stats_text` reads next, behind `received`. -/
inductive StatsField
  | processed
  | exported
  | tcpClients
  | queueSize
  | queueDropped
  /-- `device->get_stats()`; then the text is complete. -/
  | device

/-- The daemon, the reply under construction with the fields it has read, and the replies sent. -/
structure Reporting (n c : ℕ) where
  proc : Process n c
  building : Option (StatsField × RuntimeStats)
  replies : List Bytes

inductive ReportLabel (n : ℕ)
  | proc (l : ProcLabel n)
  /-- The handler is called for the command `stats`, and reads `stats.received`. -/
  | stats
  /-- The main thread reads the next field; `clients` is `tcp.client_count()`, `device` the answer
  of the driver. -/
  | next (clients : ℕ) (device : Except Bytes DriverStats)

/-- The step is a worker's. -/
def ProcLabel.isWorker {n : ℕ} : ProcLabel n → Bool
  | .worker _ _ => true
  | _ => false

/-- The step submits a sample. -/
def ReportLabel.isSubmit {n : ℕ} : ReportLabel n → Bool
  | .proc (.submit _) => true
  | _ => false

namespace Reporting

variable {n c : ℕ}

def init (n c : ℕ) : Reporting n c := ⟨Process.init n c, none, []⟩

/-- The next read of the main thread. -/
def read (simulate : Bool) (s : Reporting n c) (clients : ℕ) (device : Except Bytes DriverStats) :
    StatsField × RuntimeStats → Reporting n c
  | (.processed, stats) =>
      { s with building := some (.exported, { stats with processed := s.proc.work.processed }) }
  | (.exported, stats) =>
      { s with building := some (.tcpClients, { stats with exported := s.proc.work.exported }) }
  | (.tcpClients, stats) =>
      { s with building := some (.queueSize, { stats with tcpClients := clients }) }
  | (.queueSize, stats) =>
      { s with
        building := some (.queueDropped, { stats with queueSize := s.proc.work.queue.size }) }
  | (.queueDropped, stats) =>
      { s with
        building := some (.device, { stats with queueDropped := s.proc.work.queue.dropped }) }
  | (.device, stats) =>
      { s with building := none, replies := s.replies ++ [buildStatsText stats simulate device] }

/-- One step. While a reply is under construction the main thread does nothing else. -/
def reportStep (simulate : Bool) (s : Reporting n c) : ReportLabel n → Option (Reporting n c)
  | .proc l =>
      if s.building.isNone || l.isWorker then
        (Process.procStep s.proc l).map fun proc => { s with proc := proc }
      else none
  | .stats =>
      if s.building.isNone ∧ s.proc.phase = .loop ∧ s.proc.running = true then
        some { s with building := some (.processed, ⟨s.proc.work.received, 0, 0, 0, 0, 0⟩) }
      else none
  | .next clients device =>
      if s.proc.phase = .loop then s.building.map (s.read simulate clients device) else none

end Reporting

/-- The numbers of a reply do not contradict each other. -/
def RuntimeStats.Consistent (stats : RuntimeStats) : Prop :=
  stats.processed.toNat + stats.queueSize + stats.queueDropped.toNat ≤ stats.received.toNat ∧
  stats.exported.toNat + stats.queueSize + stats.queueDropped.toNat ≤ stats.received.toNat

namespace Work

variable {n c : ℕ} {accepted : List Sample} {p e : ℕ} {w w' : Work n c}

theorem Ledger.exported_le (hw : Ledger accepted p e w) : e ≤ p := by
  rw [hw.carried]
  exact Nat.le_add_right _ _

/-- A sample that was counted is not in the queue. -/
theorem Ledger.processed_add_size_le (hw : Ledger accepted p e w) :
    p + w.queue.size ≤ accepted.length := by
  have hplaces := congrArg Multiset.card hw.places
  have hsent := congrArg Multiset.card hw.sent
  have hcounted := hw.counted
  simp only [Multiset.card_add, Multiset.coe_card] at hplaces hsent
  unfold BoundedQueue.size
  omega

/-- A worker leaves alone what belongs to the main thread. -/
theorem workerStep_received {i : Fin n} (h : workerStep w i = some w') :
    w'.received = w.received ∧ w'.rejected = w.rejected := by
  unfold workerStep at h
  split at h
  · split at h <;> cases h <;> exact ⟨rfl, rfl⟩
  all_goals
    cases h
    try exact ⟨rfl, rfl⟩

/-- What is known of a reply with the fields before `f` read. -/
def Within (accepted : List Sample) (p e : ℕ) (w : Work n c) (stats : RuntimeStats) :
    StatsField → Prop
  | .processed => stats.received = w.received
  | .exported => stats.received = w.received ∧ stats.processed.toNat ≤ p
  | .tcpClients | .queueSize =>
      stats.received = w.received ∧ stats.processed.toNat ≤ p ∧ stats.exported.toNat ≤ e
  | .queueDropped =>
      stats.received = w.received ∧ stats.processed.toNat + stats.queueSize ≤ accepted.length ∧
        stats.exported.toNat + stats.queueSize ≤ accepted.length
  | .device => stats.Consistent

/-- What was read stays a lower bound while only the workers move. -/
theorem within_mono {p' e' : ℕ} {stats : RuntimeStats} {f : StatsField}
    (h : Within accepted p e w stats f) (hp : p ≤ p') (he : e ≤ e')
    (hreceived : w'.received = w.received) : Within accepted p' e' w' stats f := by
  cases f with
  | processed => exact h.trans hreceived.symm
  | exported => exact ⟨h.1.trans hreceived.symm, h.2.trans hp⟩
  | tcpClients => exact ⟨h.1.trans hreceived.symm, h.2.1.trans hp, h.2.2.trans he⟩
  | queueSize => exact ⟨h.1.trans hreceived.symm, h.2.1.trans hp, h.2.2.trans he⟩
  | queueDropped => exact ⟨h.1.trans hreceived.symm, h.2⟩
  | device => exact h

end Work

namespace Reporting

variable {n c : ℕ} {simulate : Bool}

/-- The replies and the one under construction, after `k` submissions. -/
structure Sound (simulate : Bool) (k : ℕ) (s : Reporting n c) : Prop where
  books : ∃ accepted p e, s.proc.work.Ledger accepted p e ∧
    accepted.length + s.proc.work.rejected.length = k ∧
    ∀ f stats, s.building = some (f, stats) → s.proc.work.Within accepted p e stats f
  sent : ∀ reply ∈ s.replies, ∃ stats device,
    reply = buildStatsText stats simulate device ∧ stats.Consistent

theorem sound_init : Sound simulate 0 (init n c) where
  books := ⟨[], 0, 0, Work.ledger_init, rfl, nofun⟩
  sent := nofun

/-- A submission is accepted or rejected. -/
theorem submitted_step {s t : Process n c} {l : ProcLabel n} (h : Process.procStep s l = some t) :
    (s.acceptedNow l).length + t.work.rejected.length =
      s.work.rejected.length + if (ReportLabel.proc l).isSubmit then 1 else 0 := by
  cases l with
  | submit sample =>
      simp only [Process.procStep] at h
      split_ifs at h
      cases h
      cases hv : (s.work.queue.push sample).1 with
      | true => simp [Process.acceptedNow, Work.submit_accepted hv, hv, ReportLabel.isSubmit,
          Nat.add_comm]
      | false => simp [Process.acceptedNow, Work.submit_rejected hv, hv, ReportLabel.isSubmit]
  | _ =>
      have hrejected : t.work.rejected = s.work.rejected := by
        rcases Process.procStep_work h with ⟨-, hw⟩ | ⟨_, hl, -⟩ | ⟨-, i, hw⟩ | ⟨-, hw⟩
        · rw [hw]
        · cases hl
        · exact (Work.workerStep_received hw).2
        · rw [hw]
          rfl
      rw [hrejected]
      exact Nat.zero_add _

/-- While a worker moves, the main thread submits nothing. -/
theorem received_worker {s t : Process n c} {l : ProcLabel n} (hl : l.isWorker = true)
    (h : Process.procStep s l = some t) :
    s.acceptedNow l = [] ∧ t.work.received = s.work.received := by
  cases l <;> cases hl
  rcases Process.procStep_work h with ⟨hnone, hw⟩ | ⟨_, hl, -⟩ | ⟨hnone, i, hw⟩ | ⟨hnone, hw⟩
  · exact ⟨hnone, by rw [hw]⟩
  · cases hl
  · exact ⟨hnone, (Work.workerStep_received hw).1⟩
  · exact ⟨hnone, by rw [hw]; rfl⟩

theorem sound_proc {s : Reporting n c} {proc : Process n c} {l : ProcLabel n} {k : ℕ}
    (hs : Sound simulate k s) (hl : s.building.isNone || l.isWorker)
    (h : Process.procStep s.proc l = some proc) :
    Sound simulate (k + if (ReportLabel.proc l).isSubmit then 1 else 0)
      { s with proc := proc } := by
  obtain ⟨as, p, e, hbooks, hk, hwithin⟩ := hs.books
  obtain ⟨p', e', hp, he, hbooks'⟩ := Process.ledger_step hbooks h
  refine ⟨⟨_, p', e', hbooks', ?_, ?_⟩, hs.sent⟩
  · have hstep := submitted_step h
    rw [List.length_append]
    simp only
    omega
  · intro f stats hbuild
    simp only at hbuild
    rw [hbuild, Option.isNone_some, Bool.false_or] at hl
    obtain ⟨hnone, hreceived⟩ := received_worker hl h
    rw [hnone, List.append_nil]
    exact Work.within_mono (hwithin f stats hbuild) hp he hreceived

/-- **The next field.** The counters are read before the queue, so what they count had left it. -/
theorem sound_read {s : Reporting n c} {k : ℕ} (hs : Sound simulate k s) (hk : k < 2 ^ 64)
    {f : StatsField} {stats : RuntimeStats} (hbuild : s.building = some (f, stats)) (clients : ℕ)
    (device : Except Bytes DriverStats) :
    Sound simulate k (s.read simulate clients device (f, stats)) := by
  obtain ⟨as, p, e, hbooks, hlen, hwithin⟩ := hs.books
  have hfield := hwithin f stats hbuild
  have hsize := hbooks.processed_add_size_le
  have hexported := hbooks.exported_le
  have hword : ∀ m ≤ k, (UInt64.ofNat m).toNat = m :=
    fun m hm => UInt64.toNat_ofNat_of_lt' (hm.trans_lt hk)
  have hp : s.proc.work.processed.toNat = p := by
    rw [hbooks.processed, hword p (by omega)]
  have he : s.proc.work.exported.toNat = e := by
    rw [hbooks.exported, hword e (by omega)]
  -- a reply that goes on, with one more field
  have hgo : ∀ {f' stats'}, s.proc.work.Within as p e stats' f' →
      Sound simulate k { s with building := some (f', stats') } := by
    intro f' stats' hnext
    refine ⟨⟨as, p, e, hbooks, hlen, ?_⟩, hs.sent⟩
    intro g r hg
    cases hg
    exact hnext
  cases f with
  | processed => exact hgo ⟨hfield, hp.le⟩
  | exported => exact hgo ⟨hfield.1, hfield.2, he.le⟩
  | tcpClients => exact hgo hfield
  | queueSize =>
      obtain ⟨hreceived, hprocessed, hexp⟩ := hfield
      refine hgo ⟨hreceived, ?_, ?_⟩
      · simp only
        omega
      · simp only
        omega
  | queueDropped =>
      obtain ⟨hreceived, hprocessed, hexp⟩ := hfield
      have hdropped : s.proc.work.queue.dropped.toNat = s.proc.work.rejected.length := by
        rw [hbooks.dropped, hword _ (by omega)]
      have htotal : stats.received.toNat = k := by
        rw [hreceived, hbooks.received, hlen, hword k le_rfl]
      refine hgo ⟨?_, ?_⟩
      · simp only
        omega
      · simp only
        omega
  | device =>
      refine ⟨⟨as, p, e, hbooks, hlen, nofun⟩, ?_⟩
      intro reply hmem
      rcases List.mem_append.mp hmem with hmem | hmem
      · exact hs.sent reply hmem
      · exact ⟨stats, device, List.mem_singleton.mp hmem, hfield⟩

theorem sound_step {s t : Reporting n c} {l : ReportLabel n} {k : ℕ} (hs : Sound simulate k s)
    (hk : k < 2 ^ 64) (h : reportStep simulate s l = some t) :
    Sound simulate (k + if l.isSubmit then 1 else 0) t := by
  cases l with
  | proc l =>
      simp only [reportStep] at h
      split_ifs at h with hl
      obtain ⟨proc, hproc, rfl⟩ := Option.map_eq_some_iff.mp h
      exact sound_proc hs hl hproc
  | stats =>
      simp only [reportStep] at h
      split_ifs at h
      cases h
      obtain ⟨as, p, e, hbooks, hlen, -⟩ := hs.books
      refine ⟨⟨as, p, e, hbooks, hlen, ?_⟩, hs.sent⟩
      intro f stats hbuild
      cases hbuild
      rfl
  | next clients device =>
      simp only [reportStep] at h
      split_ifs at h
      obtain ⟨⟨f, stats⟩, hbuild, rfl⟩ := Option.map_eq_some_iff.mp h
      exact sound_read hs hk hbuild clients device

theorem sound_run {s t : Reporting n c} {ls : List (ReportLabel n)} {k : ℕ}
    (hs : Sound simulate k s) (hk : k + ls.countP ReportLabel.isSubmit < 2 ^ 64)
    (h : run (reportStep simulate) s ls = some t) :
    Sound simulate (k + ls.countP ReportLabel.isSubmit) t := by
  induction ls generalizing s k with
  | nil => cases h; exact hs
  | cons l ls ih =>
      obtain ⟨u, hu, h⟩ := run_cons_eq_some.mp h
      rw [List.countP_cons, Nat.add_comm (ls.countP _), ← Nat.add_assoc] at hk ⊢
      exact ih (sound_step hs (by omega) hu) hk h

/-- **Every `stats` reply is consistent.** However the workers interleave with the reads of
`build_stats_text`, while fewer than `2 ^ 64` samples have been submitted, each reply reports the
five numbers, and they do not contradict each other. -/
theorem stats_consistent {ls : List (ReportLabel n)} {s : Reporting n c}
    (h : run (reportStep simulate) (init n c) ls = some s)
    (hfew : ls.countP ReportLabel.isSubmit < 2 ^ 64) :
    ∀ reply ∈ s.replies, ∃ received processed exported queueSize queueDropped,
      reported "received" reply = some received ∧ reported "processed" reply = some processed ∧
      reported "exported" reply = some exported ∧ reported "queue_size" reply = some queueSize ∧
      reported "queue_dropped" reply = some queueDropped ∧
      processed + queueSize + queueDropped ≤ received ∧
      exported + queueSize + queueDropped ≤ received := by
  intro reply hreply
  have hsound : Sound simulate (0 + ls.countP ReportLabel.isSubmit) s :=
    sound_run sound_init (by rwa [Nat.zero_add]) h
  obtain ⟨stats, device, rfl, hprocessed, hexported⟩ := hsound.sent reply hreply
  obtain ⟨h1, h2, h3, -, h5, h6⟩ := reported_buildStatsText stats simulate device
  exact ⟨_, _, _, _, _, h1, h2, h3, h5, h6, hprocessed, hexported⟩

/-- A sample is submitted; the worker takes it while the reply is under construction. -/
def statsDuringPop : List (ReportLabel 0) :=
  List.replicate 8 (.proc (.call false)) ++ [.proc (.submit ⟨0, 5, sampleTemp, 7, 0, 0⟩), .stats,
    .next 2 (.error []), .proc (.worker (Fin.last 0) false), .next 2 (.error []),
    .next 2 (.error []), .next 2 (.error []), .next 2 (.error []), .next 2 (.error [])]

theorem stats_consistent_duringPop : ∃ s, run (reportStep true) (init 0 4) statsDuringPop = some s ∧
    s.replies = [buildStatsText ⟨1, 0, 0, 2, 0, 0⟩ true (.error [])] ∧
    ∀ reply ∈ s.replies, ∃ received processed exported queueSize queueDropped,
      reported "received" reply = some received ∧ reported "processed" reply = some processed ∧
      reported "exported" reply = some exported ∧ reported "queue_size" reply = some queueSize ∧
      reported "queue_dropped" reply = some queueDropped ∧
      processed + queueSize + queueDropped ≤ received ∧
      exported + queueSize + queueDropped ≤ received := by
  obtain ⟨s, hs, hreplies⟩ : ∃ s, run (reportStep true) (init 0 4) statsDuringPop = some s ∧
      s.replies = [buildStatsText ⟨1, 0, 0, 2, 0, 0⟩ true (.error [])] := ⟨_, rfl, rfl⟩
  exact ⟨s, hs, hreplies, stats_consistent hs (by decide)⟩

end Reporting

end SensorHub
