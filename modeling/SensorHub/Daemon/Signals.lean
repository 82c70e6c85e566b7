import SensorHub.Daemon.Drain

set_option autoImplicit false

/-!
# Signals

`main` of `userspace/src/main.cpp` and the two signals it wants to read from a descriptor. A thread
starts with the signal mask of the thread that creates it, and `create_signal_fd` blocks the signals
in the calling thread only; `main` calls it when its workers run already. A signal that is sent to
the process goes to any thread that does not block it, and by default ends the process; only if all
threads block it does it wait for `signal_fd`. A process can also be started with a signal ignored,
which `main` does not change. Such a signal is discarded at once unless the main thread blocks it;
then it waits, for `signal_fd` or for a worker that does not block it and discards it.

* `Signal`, `Mask`, `Signalled`, `SignalLabel`, `signalStep`; `takes`: somebody does not block it.
* `Masked`, `masked_step`: the masks of the threads, in every run; `kill_step`: what a signal does.
* **`signal_handled_iff`**: who handles a signal.
-/

namespace SensorHub

open Trans

/-- The signals of `create_signal_fd`. -/
inductive Signal
  | SIGINT
  | SIGTERM
  deriving DecidableEq

/-- Which of them a thread blocks. -/
abbrev Mask := Signal → Bool

/-- The process with the masks of its threads, the signals that wait for `signal_fd`, and the signal
that has ended the process. -/
structure Signalled (n c : ℕ) where
  proc : Process n c
  main : Mask
  worker : Fin (n + 1) → Mask
  pending : Mask
  killed : Option Signal

inductive SignalLabel (n : ℕ)
  /-- A step of `main` or of a worker. -/
  | proc (l : ProcLabel n)
  /-- The signal is sent to the process. -/
  | kill (sig : Signal)
  /-- A thread that does not block the signal finds it waiting, and it is ignored. -/
  | discard (sig : Signal)
  /-- The callback of `signal_fd` reads the signal. -/
  | read (sig : Signal)

/-- The thread is over. -/
def WorkerPc.isExited : WorkerPc → Bool
  | .exited => true
  | _ => false

/-- `main` has not come to `queue.close()`. -/
def Phase.early (phase : Phase) : Bool := !phase.closed && phase != .terminated

/-- `main` has left `create_signal_fd`. -/
def Phase.guarded : Phase → Bool
  | .spawn | .source | .createSignalFd => false
  | _ => true

namespace Signalled

variable {n c : ℕ} {s t : Signalled n c} {inherited ignored : Mask} {sig : Signal}

/-- The first worker runs; the process was started with the mask `inherited`. -/
def init (n c : ℕ) (inherited : Mask) : Signalled n c :=
  ⟨.init n c, inherited, fun _ => inherited, fun _ => false, none⟩

/-- Some thread does not block the signal. -/
def takes (s : Signalled n c) (sig : Signal) : Prop :=
  s.main sig = false ∨
    ∃ i : Fin (n + 1), i < s.proc.created ∧ (s.proc.work.worker i).isExited = false ∧
      s.worker i sig = false

instance (s : Signalled n c) (sig : Signal) : Decidable (s.takes sig) :=
  inferInstanceAs (Decidable (_ ∨ _))

/-- The masks behind a call of `main`: a new worker has the mask of `main`, and `create_signal_fd`
blocks both signals in `main`. -/
def called (s : Signalled n c) : Signalled n c :=
  match s.proc.phase with
  | .spawn =>
      { s with worker := fun i => if (i : ℕ) = s.proc.created then s.main else s.worker i }
  | .createSignalFd => { s with main := fun _ => true }
  | _ => s

/-- One step; the process was started with the signals of `ignored` ignored, and the others at their
default. -/
def signalStep (ignored : Mask) (s : Signalled n c) : SignalLabel n → Option (Signalled n c)
  | .proc l =>
      match s.killed with
      | some _ => none
      | none =>
          (s.proc.procStep l).map fun proc =>
            match l with
            | .call _ => { s.called with proc := proc }
            | _ => { s with proc := proc }
  | .kill sig =>
      if s.killed = none ∧ s.proc.phase.ended = false then
        if ignored sig then
          if s.main sig then some { s with pending := Function.update s.pending sig true }
          else some s
        else if s.takes sig then some { s with killed := some sig }
        else some { s with pending := Function.update s.pending sig true }
      else none
  | .discard sig =>
      if s.killed = none ∧ ignored sig = true ∧ s.pending sig = true ∧ s.takes sig then
        some { s with pending := Function.update s.pending sig false }
      else none
  | .read sig =>
      if s.killed = none ∧ s.pending sig = true then
        (s.proc.procStep (.runOnce true false)).map fun proc =>
          { s with proc := proc, pending := Function.update s.pending sig false }
      else none

/-! ### The masks -/

/-- The queue is open, and its workers are there. -/
structure Attended (w : Work (n + 1) c) : Prop where
  opened : w.queue.closed = false
  there : ∀ i, (w.worker i).isExited = false

/-- While the process lives: the workers have the mask it was started with, and so has `main` until
it has left `create_signal_fd`; before `queue.close()` no worker is over. -/
structure Masked (inherited : Mask) (s : Signalled n c) : Prop where
  main : s.proc.phase.ended = false →
    s.main = if s.proc.phase.guarded then fun _ => true else inherited
  worker : ∀ i : Fin (n + 1), i < s.proc.created → s.worker i = inherited
  alive : s.proc.phase.early = true → Attended s.proc.work

theorem masked_init : Masked inherited (init n c inherited) where
  main _ := by
    have hphase : (Process.init n c).phase.guarded = false := by
      unfold Process.init
      by_cases hn : n = 0
      · simp only [if_pos hn]
        rfl
      · simp only [if_neg hn]
        rfl
    rw [init, hphase]
    rfl
  worker _ _ := rfl
  alive _ := ⟨rfl, fun _ => rfl⟩

/-- A worker leaves its loop only behind `queue.close()`. -/
theorem workerStep_attended {w w' : Work (n + 1) c} {i : Fin (n + 1)}
    (hw : Attended w) (h : w.workerStep i = some w') : Attended w' := by
  obtain ⟨hopen, hthere⟩ := hw
  obtain ⟨-, -, hclosed, -⟩ := Work.workerStep_weight h
  refine ⟨hclosed.trans hopen, ?_⟩
  have hset : ∀ {pc : WorkerPc}, pc.isExited = false →
      ∀ j, (Function.update w.worker i pc j).isExited = false := by
    intro pc hpc j
    by_cases hji : j = i
    · rw [hji, Function.update_self]
      exact hpc
    · rw [Function.update_of_ne hji]
      exact hthere j
  unfold Work.workerStep at h
  split at h
  · split at h
    · cases h
    · rename_i q hq
      rw [(BoundedQueue.pop_nullopt hq).1] at hopen
      cases hopen
    · cases h
      exact hset rfl
  · cases h
    exact hset rfl
  · cases h
    exact hset rfl
  · cases h
    exact hset rfl
  · cases h
    exact hset rfl
  · cases h

theorem submit_attended {w : Work (n + 1) c} (hw : Attended w) (sample : Sample) :
    Attended (w.submit sample) := by
  cases hpush : (w.queue.push sample).1 with
  | true =>
      rw [Work.submit_accepted hpush]
      exact ⟨(BoundedQueue.push_accepted hpush).2.2.1.trans hw.opened, hw.there⟩
  | false =>
      rw [Work.submit_rejected hpush, BoundedQueue.push_refused hpush]
      exact ⟨hw.opened, hw.there⟩

/-- What a call of `main` does to the process. -/
theorem call_cases {p q : Process n c} {throws : Bool} (h : p.procStep (.call throws) = some q) :
    p.phase.early = true ∧ p.phase.ended = false ∧ q.work = p.work ∧
      (q.created = p.created ∨ (p.phase = .spawn ∧ q.created = p.created + 1)) ∧
      (q.phase.ended = true ∨
        q.phase.guarded = (p.phase.guarded || p.phase = .createSignalFd)) := by
  obtain ⟨r, hr, rfl⟩ := Option.map_eq_some_iff.mp h
  have hunwind : p.unwind.phase.ended = true := by
    unfold Process.unwind
    by_cases hlt : p.joined < p.created
    · simp only [if_pos hlt]
      rfl
    · simp only [if_neg hlt]
      rfl
  unfold Process.call at hr
  by_cases hspawn : p.phase = .spawn
  · rw [if_pos hspawn] at hr
    cases hr
    refine ⟨by rw [hspawn]; rfl, by rw [hspawn]; rfl, ?_⟩
    cases throws with
    | true => exact ⟨rfl, Or.inl rfl, Or.inl hunwind⟩
    | false =>
        refine ⟨rfl, Or.inr ⟨hspawn, rfl⟩, Or.inr ?_⟩
        simp only [Bool.false_eq_true, if_false, hspawn]
        split_ifs <;> rfl
  · rw [if_neg hspawn] at hr
    obtain ⟨phase, hphase, rfl⟩ := Option.map_eq_some_iff.mp hr
    refine ⟨?_, ?_, ?_⟩
    · cases hp : p.phase <;> rw [hp] at hphase <;> cases hphase <;> rfl
    · cases hp : p.phase <;> rw [hp] at hphase <;> cases hphase <;> rfl
    · cases throws with
      | true => exact ⟨rfl, Or.inl rfl, Or.inl hunwind⟩
      | false =>
          refine ⟨rfl, Or.inl rfl, Or.inr ?_⟩
          cases hp : p.phase <;> rw [hp] at hphase <;> cases hphase <;> rfl

/-- What any other step does to it: the workers that exist and the calls that `main` has left stay,
and before `queue.close()` the queue stays attended. -/
theorem other_cases {p q : Process n c} {l : ProcLabel n} (hl : ∀ throws, l ≠ .call throws)
    (h : p.procStep l = some q) :
    p.phase.ended = false ∧ q.created = p.created ∧
      (q.phase.ended = false → q.phase.guarded = p.phase.guarded) ∧
      (q.phase.early = true → p.phase.early = true ∧ (Attended p.work → Attended q.work)) := by
  cases l with
  | call throws => exact absurd rfl (hl throws)
  | submit sample =>
      simp only [Process.procStep] at h
      split_ifs at h with hguard
      cases h
      exact ⟨by rw [hguard.1]; rfl, rfl, fun _ => rfl, fun hq => ⟨hq, fun hw =>
        submit_attended hw sample⟩⟩
  | runOnce stop throws =>
      simp only [Process.procStep] at h
      split_ifs at h with hguard hthrows <;> cases h
      · refine ⟨by rw [hguard.1]; rfl, rfl, fun hq => ?_, fun _ => ⟨by rw [hguard.1]; rfl, id⟩⟩
        unfold Process.unwind at hq
        split_ifs at hq <;> cases hq
      · exact ⟨by rw [hguard.1]; rfl, rfl, fun _ => rfl, fun hq => ⟨hq, id⟩⟩
  | finish =>
      obtain ⟨phase, created, joined, running, work⟩ := p
      cases phase <;> simp only [Process.procStep, Process.finish] at h <;> try cases h
      case loop =>
        split_ifs at h
        cases h
        refine ⟨rfl, rfl, fun _ => rfl, fun hq => ?_⟩
        cases hq
      case join =>
        split_ifs at h
        · split at h <;> cases h
          refine ⟨rfl, rfl, fun _ => rfl, fun hq => ?_⟩
          cases hq
        · cases h
          refine ⟨rfl, rfl, fun hq => ?_, fun hq => ?_⟩ <;> cases hq
  | worker i throws =>
      simp only [Process.procStep, Process.workerRun] at h
      split_ifs at h with hguard
      · split at h <;> cases h
        refine ⟨hguard.1, rfl, fun hq => ?_, fun hq => ?_⟩ <;> cases hq
      · obtain ⟨w, hw, rfl⟩ := Option.map_eq_some_iff.mp h
        exact ⟨hguard.1, rfl, fun _ => rfl, fun hq => ⟨hq, fun hatt => workerStep_attended hatt hw⟩⟩

/-- A step of the process that is no call of `main` leaves the masks alone. -/
theorem masked_other (hs : Masked inherited s) {l : ProcLabel n} {q : Process n c}
    (hl : ∀ throws, l ≠ .call throws) (h : s.proc.procStep l = some q) {pending : Mask} :
    Masked inherited { s with proc := q, pending := pending } := by
  obtain ⟨hended, hcreated, hguarded, hearly⟩ := other_cases hl h
  refine ⟨fun hq => ?_, fun i hi => ?_, fun hq => ?_⟩
  · rw [hguarded hq]
    exact hs.main hended
  · exact hs.worker i (by rwa [← hcreated])
  · obtain ⟨hp, hkeep⟩ := hearly hq
    exact hkeep (hs.alive hp)

theorem masked_call (hs : Masked inherited s) {throws : Bool} {q : Process n c}
    (h : s.proc.procStep (.call throws) = some q) :
    Masked inherited { s.called with proc := q } := by
  obtain ⟨hearly, hended, hwork, hcreated, hguarded⟩ := call_cases h
  have hmain := hs.main hended
  refine ⟨fun hq => ?_, fun i hi => ?_, fun _ => hwork ▸ hs.alive hearly⟩
  · -- only `create_signal_fd` changes the mask of `main`
    rcases hguarded with hover | hguarded
    · rw [hover] at hq
      cases hq
    · show s.called.main = if q.phase.guarded then fun _ => true else inherited
      rw [hguarded]
      cases hp : s.proc.phase <;> rw [hp] at hmain <;> simp only [called, hp] <;> first
        | exact hmain
        | rfl
  · -- a new worker gets that of `main`
    by_cases hspawn : s.proc.phase = .spawn
    · have hinherited : s.main = inherited := by
        rw [hmain, hspawn]
        rfl
      have hle : (i : ℕ) ≤ s.proc.created := by
        have hi : (i : ℕ) < q.created := hi
        rcases hcreated with hsame | ⟨-, hmore⟩ <;> omega
      simp only [called, hspawn]
      split_ifs with heq
      · exact hinherited
      · exact hs.worker i (lt_of_le_of_ne hle heq)
    · have hsame : q.created = s.proc.created :=
        hcreated.resolve_right fun hmore => hspawn hmore.1
      have hworker : s.called.worker = s.worker := by
        unfold called
        split
        · rename_i hp
          exact absurd hp hspawn
        · rfl
        · rfl
      show s.called.worker i = inherited
      rw [hworker]
      exact hs.worker i (hsame ▸ hi)

/-- **The masks of the threads**, in every run. -/
theorem masked_step {l : SignalLabel n} (hs : Masked inherited s)
    (h : signalStep ignored s l = some t) : Masked inherited t := by
  cases l with
  | proc l =>
      simp only [signalStep] at h
      split at h
      · cases h
      · obtain ⟨q, hq, rfl⟩ := Option.map_eq_some_iff.mp h
        cases l with
        | call throws => exact masked_call hs hq
        | _ => exact masked_other hs (by intro _ hl; cases hl) hq
  | kill sig =>
      simp only [signalStep] at h
      split_ifs at h <;> cases h <;> exact ⟨hs.main, hs.worker, hs.alive⟩
  | discard sig =>
      simp only [signalStep] at h
      split_ifs at h
      cases h
      exact ⟨hs.main, hs.worker, hs.alive⟩
  | read sig =>
      simp only [signalStep] at h
      split_ifs at h
      obtain ⟨q, hq, rfl⟩ := Option.map_eq_some_iff.mp h
      exact masked_other hs (by intro _ hl; cases hl) hq

/-- **Who takes a signal**: a worker that is not over, or `main` before it has left
`create_signal_fd`, if the signal was not blocked when the process was started; otherwise nobody. -/
theorem Masked.takes_iff (hs : Masked inherited s) (hlive : s.proc.phase.ended = false) :
    s.takes sig ↔ inherited sig = false ∧ (s.proc.phase.guarded = false ∨
      ∃ i : Fin (n + 1), i < s.proc.created ∧ (s.proc.work.worker i).isExited = false) := by
  have hmain := congrFun (hs.main hlive) sig
  constructor
  · rintro (hopen | ⟨i, hi, hthere, hopen⟩)
    · cases hg : s.proc.phase.guarded with
      | true =>
          rw [hg, if_pos rfl, hopen] at hmain
          cases hmain
      | false =>
          rw [hg, if_neg Bool.false_ne_true, hopen] at hmain
          exact ⟨hmain.symm, Or.inl rfl⟩
    · rw [hs.worker i hi] at hopen
      exact ⟨hopen, Or.inr ⟨i, hi, hthere⟩⟩
  · rintro ⟨hopen, hg | ⟨i, hi, hthere⟩⟩
    · rw [hg, if_neg Bool.false_ne_true] at hmain
      exact Or.inl (hmain.trans hopen)
    · refine Or.inr ⟨i, hi, hthere, ?_⟩
      rw [hs.worker i hi]
      exact hopen

/-! ### The process under the signals -/

/-- The process takes its own steps, whatever signals come. -/
theorem proc_reachable {ls : List (SignalLabel n)} {s₀ : Signalled n c}
    (h : run (signalStep ignored) s₀ ls = some s) : Reachable Process.procStep s₀.proc s.proc := by
  refine run_inv (fun s => Reachable Process.procStep s₀.proc s.proc) (fun u l v hu huv => ?_)
    (.refl _) h
  cases l with
  | proc l =>
      simp only [signalStep] at huv
      split at huv
      · cases huv
      · obtain ⟨q, hq, rfl⟩ := Option.map_eq_some_iff.mp huv
        cases l <;> exact hu.tail hq
  | kill sig =>
      simp only [signalStep] at huv
      split_ifs at huv <;> cases huv <;> exact hu
  | discard sig =>
      simp only [signalStep] at huv
      split_ifs at huv
      cases huv
      exact hu
  | read sig =>
      simp only [signalStep] at huv
      split_ifs at huv
      obtain ⟨q, hq, rfl⟩ := Option.map_eq_some_iff.mp huv
      exact hu.tail hq

/-- Without further signals it takes any of them. -/
theorem exists_signal_run {ms : List (ProcLabel n)} {q : Process n c} (hlive : s.killed = none)
    (h : run Process.procStep s.proc ms = some q) :
    ∃ u, run (signalStep ignored) s (ms.map .proc) = some u ∧ u.proc = q ∧ u.killed = none := by
  induction ms generalizing s with
  | nil =>
      cases h
      exact ⟨s, rfl, rfl, hlive⟩
  | cons l ms ih =>
      obtain ⟨p, hp, h⟩ := run_cons_eq_some.mp h
      obtain ⟨v, hv, hproc, hkilled⟩ : ∃ v, signalStep ignored s (.proc l) = some v ∧ v.proc = p ∧
          v.killed = none := by
        simp only [signalStep, hlive, hp, Option.map_some]
        refine ⟨_, rfl, ?_, ?_⟩
        · cases l <;> rfl
        · cases l with
          | call throws =>
              show s.called.killed = none
              unfold called
              split <;> exact hlive
          | _ => rfl
      obtain ⟨u, hu, hrest⟩ := ih hkilled (hproc ▸ h)
      exact ⟨u, run_cons_eq_some.mpr ⟨v, hv, hu⟩, hrest⟩

/-- In the loop nothing has thrown. -/
theorem going_of_loop {ls : List (SignalLabel n)}
    (h : run (signalStep ignored) (init n c inherited) ls = some s) (hloop : s.proc.phase = .loop) :
    Process.Going s.proc := by
  obtain ⟨ps, hps⟩ := proc_reachable h
  refine Process.going_run Process.going_init (fun l hmem hl => ?_) hps
  rw [Process.terminated_run Process.going_init hmem hl hps] at hloop
  cases hloop

/-- **From the loop to the return of 0**, once the signal is read. -/
theorem shutdown_run {ls : List (SignalLabel n)}
    (h : run (signalStep ignored) (init n c inherited) ls = some s) (hlive : s.killed = none)
    (hpending : s.pending sig = true) (hloop : s.proc.phase = .loop)
    (hrunning : s.proc.running = true) :
    ∃ ms u, run (signalStep ignored) s (.read sig :: ms) = some u ∧ u.killed = none ∧
      u.proc.phase = .returned 0 ∧ u.proc.work.queue.queue = [] ∧
      ∀ i, u.proc.work.worker i = .exited := by
  obtain ⟨ps, hps⟩ := proc_reachable h
  have hgoing := going_of_loop h hloop
  have hread : s.proc.procStep (.runOnce true false) = some { s.proc with running := false } := by
    simp only [Process.procStep, hloop, hrunning, and_self, if_true, Bool.false_eq_true, if_false,
      Bool.not_true]
  have hstopped : Process.Going { s.proc with running := false } :=
    Process.going_step hgoing (by intro hl; cases hl) hread
  obtain ⟨ms, q, hms, hq, hreturned⟩ := exists_run_done
    (fun _ _ _ hs hl hst => Process.leaving_step hs hl hst)
    (fun _ hs hd => Process.leaving_go hs hd) ⟨hstopped, Or.inr ⟨hloop, rfl⟩⟩
  obtain ⟨u, hu, hproc, hkilled⟩ := @exists_signal_run n c { s with
    proc := { s.proc with running := false }
    pending := Function.update s.pending sig false } ignored ms q hlive hq
  have hstep : signalStep ignored s (.read sig) = some { s with
      proc := { s.proc with running := false }
      pending := Function.update s.pending sig false } := by
    simp only [signalStep, hlive, hpending, and_self, if_true, hread, Option.map_some]
  have hend := Process.going_run hstopped hms hq
  have hexited : ∀ i, q.work.worker i = .exited := by
    intro i
    refine hend.exited i ?_
    rw [(hend.ended 0 hreturned).2]
    exact i.isLt
  have hrun : run Process.procStep (.init n c) (ps ++ (.runOnce true false :: ms)) = some q :=
    run_append_eq_some.mpr ⟨s.proc, hps, run_cons_eq_some.mpr ⟨_, hread, hq⟩⟩
  obtain ⟨p, e, hbooks⟩ := Process.ledger_run Work.ledger_init hrun
  refine ⟨ms.map .proc, u, run_cons_eq_some.mpr ⟨_, hstep, hu⟩, hkilled, ?_, ?_, ?_⟩
  · rw [hproc]
    exact hreturned
  · rw [hproc]
    exact (hbooks.left _ (hexited (Fin.last n))).2
  · rw [hproc]
    exact hexited

/-- **What a signal does**: it ends the process, waits, or is discarded. -/
theorem kill_step (hlive : s.killed = none) (hended : s.proc.phase.ended = false)
    (ignored : Mask) (sig : Signal) :
    ∃ t, signalStep ignored s (.kill sig) = some t ∧ t.proc = s.proc ∧
      (t.killed = some sig ↔ ignored sig = false ∧ s.takes sig) ∧
      (¬ (ignored sig = false ∧ s.takes sig) → s.main sig = true →
        t = { s with pending := Function.update s.pending sig true }) ∧
      (ignored sig = true → s.main sig = false → t = s) := by
  have hnone : ¬ none = some sig := (Option.some_ne_none sig).symm
  simp only [signalStep, hlive, hended, and_self, if_true]
  by_cases hignored : ignored sig = true
  · rw [if_pos hignored, hignored]
    by_cases hblocked : s.main sig = true
    · rw [if_pos hblocked]
      refine ⟨_, rfl, rfl, iff_of_false hnone (by simp), fun _ _ => rfl, ?_⟩
      intro _ hopen
      rw [hopen] at hblocked
      cases hblocked
    · rw [if_neg hblocked]
      refine ⟨s, rfl, rfl, iff_of_false ?_ (by simp), fun _ hyes => absurd hyes hblocked,
        fun _ _ => rfl⟩
      rwa [hlive]
  · have hdefault : ignored sig = false := by simpa using hignored
    rw [if_neg hignored, hdefault]
    by_cases htakes : s.takes sig
    · rw [if_pos htakes]
      exact ⟨_, rfl, rfl, iff_of_true rfl ⟨rfl, htakes⟩, fun hnot => absurd ⟨rfl, htakes⟩ hnot,
        fun hyes => absurd hyes Bool.false_ne_true⟩
    · rw [if_neg htakes]
      exact ⟨_, rfl, rfl, iff_of_false hnone fun hr => htakes hr.2, fun _ _ => rfl,
        fun hyes => absurd hyes Bool.false_ne_true⟩

/-- A process that has ended takes no step. -/
theorem signalStep_of_killed (hkilled : t.killed = some sig) (l : SignalLabel n) :
    signalStep ignored t l = none := by
  cases l <;> simp [signalStep, hkilled]

/-- **Who handles a signal.** In every state of the daemon, a signal that the process was started
with neither blocked nor ignored ends it at once, as long as one of its workers is there or `main`
has not left `create_signal_fd`; so it does whenever it arrives in the loop. What is in the queue
then is never written. No other signal ends the process. One that comes in the loop waits for
`signal_fd`, and if it is read the daemon can drain its queue, join its workers and return 0; an
ignored one is lost if it comes before `main` has left `create_signal_fd`, and in the loop as well,
if it was not blocked from the start and a worker finds it first. -/
theorem signal_handled_iff {ls : List (SignalLabel n)}
    (h : run (signalStep ignored) (init n c inherited) ls = some s) (hlive : s.killed = none)
    (hended : s.proc.phase.ended = false) (sig : Signal) :
    ∃ t, signalStep ignored s (.kill sig) = some t ∧ t.proc = s.proc ∧
      (t.killed = some sig ↔
        ignored sig = false ∧ inherited sig = false ∧ (s.proc.phase.guarded = false ∨
          ∃ i : Fin (n + 1), i < s.proc.created ∧ (s.proc.work.worker i).isExited = false)) ∧
      (t.killed = some sig → ∀ l, signalStep ignored t l = none) ∧
      (s.proc.phase = .loop →
        (t.killed = some sig ↔ ignored sig = false ∧ inherited sig = false)) ∧
      (s.proc.phase = .loop → s.proc.running = true → inherited sig = true ∨ ignored sig = true →
        ∃ ms u, run (signalStep ignored) t (.read sig :: ms) = some u ∧ u.killed = none ∧
          u.proc.phase = .returned 0 ∧ u.proc.work.queue.queue = [] ∧
          ∀ i, u.proc.work.worker i = .exited) ∧
      (ignored sig = true → inherited sig = false → s.proc.phase.guarded = false → t = s) ∧
      (ignored sig = true → inherited sig = false → s.proc.phase = .loop →
        ∃ u, signalStep ignored t (.discard sig) = some u ∧ u.proc = s.proc ∧
          u.killed = none ∧ u.pending sig = false) := by
  have hm : Masked inherited s := run_inv _ (fun _ _ _ hs hst => masked_step hs hst) masked_init h
  have htakes := @Masked.takes_iff n c s inherited sig hm hended
  have hmain := congrFun (hm.main hended) sig
  -- in the loop all workers are there
  have hloop : s.proc.phase = .loop → (s.takes sig ↔ inherited sig = false) := by
    intro hphase
    rw [htakes]
    refine ⟨And.left, fun hopen => ⟨hopen, Or.inr ⟨0, (going_of_loop h hphase).created, ?_⟩⟩⟩
    exact (hm.alive (by rw [hphase]; rfl)).there 0
  have hguarded : s.proc.phase = .loop → s.main sig = true := by
    intro hphase
    rw [hmain, hphase]
    rfl
  obtain ⟨t, hstep, hproc, hkilled, hpends, hdiscards⟩ := kill_step hlive hended ignored sig
  refine ⟨t, hstep, hproc, ?_, signalStep_of_killed, ?_, ?_, ?_, ?_⟩
  · rw [hkilled, htakes]
  · intro hphase
    rw [hkilled, hloop hphase]
  · intro hphase hrunning hkept
    have hspared : ¬ (ignored sig = false ∧ s.takes sig) := by
      rw [hloop hphase]
      rintro ⟨hdefault, hopen⟩
      simp [hdefault, hopen] at hkept
    obtain rfl := hpends hspared (hguarded hphase)
    exact shutdown_run (run_snoc_eq_some.mpr ⟨s, h, hstep⟩) hlive (Function.update_self ..) hphase
      hrunning
  · intro hignored hopen hunguarded
    refine hdiscards hignored ?_
    rw [hmain, hunguarded, if_neg Bool.false_ne_true, hopen]
  · intro hignored hopen hphase
    have hspared : ¬ (ignored sig = false ∧ s.takes sig) := by
      rintro ⟨hdefault, -⟩
      exact absurd (hignored.symm.trans hdefault) (by decide)
    obtain rfl := hpends hspared (hguarded hphase)
    -- a worker finds it
    refine ⟨{ s with
      pending := Function.update (Function.update s.pending sig true) sig false }, ?_, rfl, hlive,
      Function.update_self ..⟩
    simp only [signalStep]
    exact if_pos ⟨hlive, hignored, Function.update_self .., (hloop hphase).mpr hopen⟩

/-- The daemon is in its loop with a sample in its queue. -/
def oneQueued : List (SignalLabel 0) :=
  [.proc (.call false), .proc (.call false), .proc (.call false), .proc (.call false),
    .proc (.call false), .proc (.call false), .proc (.call false), .proc (.call false),
    .proc (.submit ⟨0, 5, sampleTemp, 7, 0, 0⟩)]

/-- **`SIGTERM` ends a daemon that was started in the usual way, with its queue unwritten.** -/
theorem signal_handled_iff_oneQueued :
    ∃ s t, run (signalStep fun _ => false) (init 0 4 fun _ => false) oneQueued = some s ∧
      signalStep (fun _ => false) s (.kill .SIGTERM) = some t ∧ t.killed = some .SIGTERM ∧
      t.proc.work.queue.queue.length = 1 ∧ t.proc.work.written = [] ∧
      ∀ l, signalStep (fun _ => false) t l = none := by
  obtain ⟨s, hs⟩ : ∃ s, run (signalStep fun _ => false) (init 0 4 fun _ => false) oneQueued =
      some s := ⟨_, rfl⟩
  have hend : (run (signalStep fun _ => false) (init 0 4 fun _ => false) oneQueued).map
      (fun s => (s.killed, s.proc.phase, s.proc.work.queue.queue.length, s.proc.work.written)) =
        some (none, .loop, 1, []) := rfl
  rw [hs, Option.map_some, Option.some.injEq] at hend
  simp only [Prod.mk.injEq] at hend
  obtain ⟨hlive, hphase, hqueue, hwritten⟩ := hend
  obtain ⟨t, ht, hproc, -, hdead, hloop, -, -⟩ :=
    signal_handled_iff hs hlive (by rw [hphase]; rfl) .SIGTERM
  have hkilled := (hloop hphase).mpr ⟨rfl, rfl⟩
  exact ⟨s, t, hs, ht, hkilled, hproc ▸ hqueue, hproc ▸ hwritten, hdead hkilled⟩

end Signalled

end SensorHub
