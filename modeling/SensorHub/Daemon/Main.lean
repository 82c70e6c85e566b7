import SensorHub.Daemon.Workers
import SensorHub.Trans.Run

set_option autoImplicit false

/-!
# How the daemon ends

`main` of `userspace/src/main.cpp` from the moment its first worker runs. Each call it makes may
throw; the exception unwinds `main`, which destroys `workers`, and the destructor of a thread that
was not joined calls `std::terminate`. So does an exception that leaves the function of a worker.

* `Phase`, `Process`, `ProcLabel`, `procStep`; `unwind`.
* `Going`, `going_step`: the straight way; `terminated_of_throws`: what becomes of an exception.
* **`orderly_iff`**: the exit is orderly if and only if nothing throws; `noDevice`,
  **`noDevice_terminates`**.
-/

namespace SensorHub

open Trans

/-- The next call of `main`. -/
inductive Phase
  /-- `workers.emplace_back` for the next worker. -/
  | spawn
  /-- `simulated_device.start` or `real_device.open_device`. -/
  | source
  | createSignalFd
  | createControlSocket
  | epollLoop
  | addSource
  | addSignal
  | addControl
  | addTcp
  /-- `while (running)`. -/
  | loop
  /-- Behind `queue.close()`: `join` for the next worker, or the end of `main`. -/
  | join
  | returned (code : ℕ)
  /-- `std::terminate` was called. -/
  | terminated
  deriving DecidableEq

namespace Phase

/-- The phase behind a call that returns. -/
def next : Phase → Option Phase
  | .source => some .createSignalFd
  | .createSignalFd => some .createControlSocket
  | .createControlSocket => some .epollLoop
  | .epollLoop => some .addSource
  | .addSource => some .addSignal
  | .addSignal => some .addControl
  | .addControl => some .addTcp
  | .addTcp => some .loop
  | _ => none

/-- The process is over. -/
def ended : Phase → Bool
  | .returned _ => true
  | .terminated => true
  | _ => false

/-- The queue was closed. -/
def closed : Phase → Bool
  | .join => true
  | .returned _ => true
  | _ => false

end Phase

/-- The process: `n + 1` workers are configured, `created` of them run, `joined` were joined. -/
structure Process (n c : ℕ) where
  phase : Phase
  created : ℕ
  joined : ℕ
  running : Bool
  work : Work (n + 1) c

inductive ProcLabel (n : ℕ)
  /-- The next call of `main` before its loop. -/
  | call (throws : Bool)
  /-- The callback of the source submits a sample. -/
  | submit (sample : Sample)
  /-- `run_once` comes to its end; `stop` says that a callback has set `running` to false. -/
  | runOnce (stop throws : Bool)
  /-- `main` takes its next step behind the loop. -/
  | finish
  /-- A worker takes a step; `throws` says that its `write_sample` throws. -/
  | worker (i : Fin (n + 1)) (throws : Bool)

/-- The step throws. -/
def ProcLabel.Throws {n : ℕ} : ProcLabel n → Prop
  | .call throws => throws = true
  | .runOnce _ throws => throws = true
  | .worker _ throws => throws = true
  | _ => False

namespace Process

variable {n c : ℕ}

/-- The first worker runs. -/
def init (n c : ℕ) : Process n c :=
  ⟨if n = 0 then .source else .spawn, 1, 0, true, Work.init (n + 1) c⟩

/-- An exception leaves the `try` block: the threads are destroyed, and if each of them was joined
the handler returns 1. -/
def unwind (s : Process n c) : Process n c :=
  { s with phase := if s.joined < s.created then .terminated else .returned 1 }

/-- `main` goes on to the next call. -/
def call (s : Process n c) : Option (Process n c) :=
  if s.phase = .spawn then
    some { s with
      created := s.created + 1
      phase := if s.created + 1 < n + 1 then .spawn else .source }
  else s.phase.next.map fun p => { s with phase := p }

/-- `main` behind its loop. A `join` waits for the worker. -/
def finish (s : Process n c) : Option (Process n c) :=
  match s.phase with
  | .loop => if s.running then none else some { s with work := s.work.close, phase := .join }
  | .join =>
      if h : s.joined < n + 1 then
        match s.work.worker ⟨s.joined, h⟩ with
        | .exited => some { s with joined := s.joined + 1 }
        | _ => none
      else some { s with phase := .returned 0 }
  | _ => none

/-- Worker `i` runs. -/
def workerRun (s : Process n c) (i : Fin (n + 1)) (throws : Bool) : Option (Process n c) :=
  if s.phase.ended = false ∧ i < s.created then
    if throws then
      match s.work.worker i with
      | .write _ => some { s with phase := .terminated }
      | _ => none
    else (s.work.workerStep i).map fun w => { s with work := w }
  else none

/-- One step. -/
def procStep (s : Process n c) : ProcLabel n → Option (Process n c)
  | .call throws => s.call.map fun t => if throws then s.unwind else t
  | .submit sample =>
      if s.phase = .loop ∧ s.running = true then some { s with work := s.work.submit sample }
      else none
  | .runOnce stop throws =>
      if s.phase = .loop ∧ s.running = true then
        if throws then some s.unwind else some { s with running := !stop }
      else none
  | .finish => s.finish
  | .worker i throws => s.workerRun i throws

/-- The exit is orderly: no `std::terminate`, and when `main` has returned it has returned 0 or 1,
with the queue closed and every worker joined. -/
structure Orderly (s : Process n c) : Prop where
  alive : s.phase ≠ .terminated
  exit : ∀ code, s.phase = .returned code →
    (code = 0 ∨ code = 1) ∧ s.work.queue.closed = true ∧ s.joined = n + 1 ∧
      ∀ i, s.work.worker i = .exited

/-! ### The straight way -/

/-- The state while nothing has thrown. -/
structure Going (s : Process n c) : Prop where
  alive : s.phase ≠ .terminated
  created : 1 ≤ s.created
  spawning : s.phase = .spawn → s.created < n + 1
  spawned : s.phase ≠ .spawn → s.created = n + 1
  before : s.phase.closed = false → s.joined = 0
  joined_le : s.joined ≤ n + 1
  closed : s.phase.closed = true → s.work.queue.closed = true
  exited : ∀ i : Fin (n + 1), i < s.joined → s.work.worker i = .exited
  ended : ∀ code, s.phase = .returned code → code = 0 ∧ s.joined = n + 1

theorem going_init : Going (init n c) := by
  unfold init
  by_cases hn : n = 0
  · subst hn
    exact ⟨nofun, le_rfl, nofun, fun _ => rfl, fun _ => rfl, Nat.zero_le _, nofun, nofun, nofun⟩
  · simp only [if_neg hn]
    exact ⟨nofun, le_rfl, fun _ => Nat.succ_lt_succ (Nat.pos_of_ne_zero hn), fun h => absurd rfl h,
      fun _ => rfl, Nat.zero_le _, nofun, nofun, nofun⟩

theorem Going.orderly {s : Process n c} (hs : Going s) : Orderly s where
  alive := hs.alive
  exit code hcode := by
    obtain ⟨hzero, hjoined⟩ := hs.ended code hcode
    refine ⟨Or.inl hzero, hs.closed (by rw [hcode]; rfl), hjoined, fun i => hs.exited i ?_⟩
    rw [hjoined]
    exact i.isLt

theorem Phase.next_spec {p q : Phase} (h : p.next = some q) :
    p ≠ .spawn ∧ p.closed = false ∧ q ≠ .spawn ∧ q ≠ .terminated ∧ q.closed = false := by
  cases p <;> cases h <;> exact ⟨nofun, rfl, nofun, nofun, rfl⟩

theorem going_call {s t : Process n c} (hs : Going s) (h : s.call = some t) : Going t := by
  unfold call at h
  split_ifs at h with hspawn hmore
  · cases h
    have hzero := hs.before (by rw [hspawn]; rfl)
    exact ⟨nofun, Nat.succ_pos _, fun _ => hmore, fun h => absurd rfl h, fun _ => hzero,
      hs.joined_le, nofun, hs.exited, nofun⟩
  · cases h
    have hzero := hs.before (by rw [hspawn]; rfl)
    have hlt := hs.spawning hspawn
    exact ⟨nofun, Nat.succ_pos _, nofun, fun _ => by simp only; omega, fun _ => hzero,
      hs.joined_le, nofun, hs.exited, nofun⟩
  · obtain ⟨q, hq, rfl⟩ := Option.map_eq_some_iff.mp h
    obtain ⟨-, hopen, hne, hterm, hclosed⟩ := Phase.next_spec hq
    refine ⟨hterm, hs.created, fun h => absurd h hne, fun _ => hs.spawned hspawn,
      fun _ => hs.before hopen, hs.joined_le, ?_, hs.exited, ?_⟩
    · intro h
      rw [hclosed] at h
      cases h
    · intro code hcode
      subst hcode
      cases hclosed

theorem going_finish {s t : Process n c} (hs : Going s) (h : s.finish = some t) : Going t := by
  obtain ⟨phase, created, joined, running, work⟩ := s
  cases phase <;> simp only [finish] at h <;> try cases h
  case loop =>
    split_ifs at h
    cases h
    exact ⟨nofun, hs.created, nofun, fun _ => hs.spawned nofun, nofun, hs.joined_le, fun _ => rfl,
      hs.exited, nofun⟩
  case join =>
    split_ifs at h with hlt
    · split at h <;> cases h
      rename_i hexit
      refine ⟨nofun, hs.created, nofun, fun _ => hs.spawned nofun, nofun, hlt,
        fun _ => hs.closed rfl, ?_, nofun⟩
      intro i hi
      rcases Nat.lt_succ_iff_lt_or_eq.mp hi with hi | hi
      · exact hs.exited i hi
      · rw [← hexit]
        exact congrArg work.worker (Fin.ext hi)
    · cases h
      have hall : joined = n + 1 := le_antisymm hs.joined_le (Nat.le_of_not_lt hlt)
      exact ⟨nofun, hs.created, nofun, fun _ => hs.spawned nofun, nofun, hs.joined_le,
        fun _ => hs.closed rfl, hs.exited, fun code hcode => ⟨by cases hcode; rfl, hall⟩⟩

/-- A worker that has left its loop stays out of it. -/
theorem going_worker {s : Process n c} {w : Work (n + 1) c} {i : Fin (n + 1)} (hs : Going s)
    (hw : s.work.workerStep i = some w) : Going { s with work := w } := by
  obtain ⟨-, hne, hclosed, pc, hworker⟩ := Work.workerStep_weight hw
  refine ⟨hs.alive, hs.created, hs.spawning, hs.spawned, hs.before, hs.joined_le, ?_, ?_, hs.ended⟩
  · intro h
    rw [hclosed]
    exact hs.closed h
  · intro j hj
    have hj' := hs.exited j hj
    have hji : j ≠ i := fun h => hne (h ▸ hj')
    rw [hworker, Function.update_of_ne hji]
    exact hj'

/-- **A step that does not throw stays on the straight way.** -/
theorem going_step {s t : Process n c} {l : ProcLabel n} (hs : Going s) (hl : ¬ l.Throws)
    (h : procStep s l = some t) : Going t := by
  cases l with
  | call throws =>
      obtain ⟨u, hu, rfl⟩ := Option.map_eq_some_iff.mp h
      rw [if_neg (show ¬ throws = true from hl)]
      exact going_call hs hu
  | submit sample =>
      simp only [procStep] at h
      split_ifs at h with hc
      cases h
      refine ⟨hs.alive, hs.created, hs.spawning, hs.spawned, hs.before, hs.joined_le, ?_,
        ?_, hs.ended⟩
      · intro h
        rw [hc.1] at h
        cases h
      · intro i hi
        rw [hs.before (by rw [hc.1]; rfl)] at hi
        cases hi
  | runOnce stop throws =>
      simp only [procStep] at h
      split_ifs at h with hc hthrows
      · exact absurd hthrows hl
      · cases h
        exact ⟨hs.alive, hs.created, hs.spawning, hs.spawned, hs.before, hs.joined_le, hs.closed,
          hs.exited, hs.ended⟩
  | finish => exact going_finish hs h
  | worker i throws =>
      simp only [procStep, workerRun] at h
      split_ifs at h with hc hthrows
      · exact absurd hthrows hl
      · obtain ⟨w, hw, rfl⟩ := Option.map_eq_some_iff.mp h
        exact going_worker hs hw

/-! ### An exception -/

theorem unwind_terminated {s : Process n c} (hs : Going s) (hopen : s.phase.closed = false) :
    s.unwind.phase = .terminated := by
  have hzero := hs.before hopen
  have hpos := hs.created
  unfold unwind
  exact if_pos (by omega)

/-- **Every exception ends in `std::terminate`.** -/
theorem terminated_of_throws {s t : Process n c} {l : ProcLabel n} (hs : Going s) (hl : l.Throws)
    (h : procStep s l = some t) : t.phase = .terminated := by
  cases l with
  | call throws =>
      obtain ⟨u, hu, rfl⟩ := Option.map_eq_some_iff.mp h
      rw [if_pos (show throws = true from hl)]
      refine unwind_terminated hs ?_
      unfold call at hu
      by_cases hspawn : s.phase = .spawn
      · rw [hspawn]
        rfl
      · rw [if_neg hspawn] at hu
        obtain ⟨q, hq, -⟩ := Option.map_eq_some_iff.mp hu
        exact (Phase.next_spec hq).2.1
  | submit sample => cases hl
  | runOnce stop throws =>
      simp only [procStep] at h
      split_ifs at h with hc hthrows
      · cases h
        exact unwind_terminated hs (by rw [hc.1]; rfl)
      · exact absurd hl hthrows
  | finish => cases hl
  | worker i throws =>
      simp only [procStep, workerRun] at h
      split_ifs at h with hc hthrows
      · split at h <;> cases h
        rfl
      · exact absurd hl hthrows

theorem terminated_step {s : Process n c} (hs : s.phase = .terminated) (l : ProcLabel n) :
    procStep s l = none := by
  obtain ⟨phase, created, joined, running, work⟩ := s
  cases hs
  cases l <;> rfl

theorem terminated_run {s t : Process n c} {ls : List (ProcLabel n)} (hs : Going s)
    {l : ProcLabel n} (hmem : l ∈ ls) (hl : l.Throws) (h : run procStep s ls = some t) :
    t.phase = .terminated := by
  induction ls generalizing s with
  | nil => cases hmem
  | cons m ls ih =>
      obtain ⟨u, hu, h⟩ := run_cons_eq_some.mp h
      by_cases hm : m.Throws
      · -- the process is over, so `m` was its last step
        have hterm := terminated_of_throws hs hm hu
        cases ls with
        | nil => cases h; exact hterm
        | cons k ls =>
            obtain ⟨v, hv, -⟩ := run_cons_eq_some.mp h
            rw [terminated_step hterm] at hv
            cases hv
      · rcases List.mem_cons.mp hmem with rfl | hmem
        · exact absurd hl hm
        · exact ih (going_step hs hm hu) hmem h

theorem going_run {s t : Process n c} {ls : List (ProcLabel n)} (hs : Going s)
    (hls : ∀ l ∈ ls, ¬ l.Throws) (h : run procStep s ls = some t) : Going t := by
  have hok : AllSteps procStep (fun _ l => ¬ l.Throws) s ls := .of_forall (fun l hl _ => hls l hl) s
  exact run_inv_of Going (fun _ _ _ hs hl hst => going_step hs hl hst) hs hok h

/-! ### The end of the loop -/

/-- `main` has left its loop, or is about to. -/
structure Leaving (s : Process n c) : Prop where
  going : Going s
  past : s.phase.closed = true ∨ (s.phase = .loop ∧ s.running = false)

/-- The steps that are left. -/
def stepsLeft (s : Process n c) : ℕ :=
  s.work.weight + (n + 1 - s.joined) +
    match s.phase with
    | .loop => 2
    | .join => 1
    | _ => 0

theorem leaving_finish {s t : Process n c} (hs : Leaving s) (h : s.finish = some t) :
    Leaving t ∧ t.stepsLeft < s.stepsLeft := by
  have ht := going_finish hs.going h
  obtain ⟨phase, created, joined, running, work⟩ := s
  cases phase <;> simp only [finish] at h <;> try cases h
  case loop =>
    split_ifs at h
    cases h
    refine ⟨⟨ht, Or.inl rfl⟩, ?_⟩
    have hw : work.close.weight = work.weight := rfl
    simp only [stepsLeft, hw]
    omega
  case join =>
    split_ifs at h with hlt
    · split at h <;> cases h
      refine ⟨⟨ht, Or.inl rfl⟩, ?_⟩
      simp only [stepsLeft]
      omega
    · cases h
      refine ⟨⟨ht, Or.inl rfl⟩, ?_⟩
      simp only [stepsLeft]
      omega

/-- Behind the loop each step is one of the last. -/
theorem leaving_step {s t : Process n c} {l : ProcLabel n} (hs : Leaving s) (hl : ¬ l.Throws)
    (h : procStep s l = some t) : Leaving t ∧ t.stepsLeft < s.stepsLeft := by
  have hstopped : ¬ (s.phase = .loop ∧ s.running = true) := by
    rintro ⟨hp, hr⟩
    rcases hs.past with hc | hc
    · rw [hp] at hc
      cases hc
    · rw [hc.2] at hr
      cases hr
  cases l with
  | call throws =>
      obtain ⟨u, hu, -⟩ := Option.map_eq_some_iff.mp h
      obtain ⟨phase, created, joined, running, work⟩ := s
      rcases hs.past with hc | ⟨hc, -⟩
      · cases phase <;> cases hc <;> cases hu
      · cases hc
        cases hu
  | submit sample =>
      simp only [procStep, if_neg hstopped] at h
      cases h
  | runOnce stop throws =>
      simp only [procStep, if_neg hstopped] at h
      cases h
  | finish => exact leaving_finish hs h
  | worker i throws =>
      simp only [procStep, workerRun] at h
      split_ifs at h with hc hthrows
      · exact absurd hthrows hl
      · obtain ⟨w, hw, rfl⟩ := Option.map_eq_some_iff.mp h
        have hweight := (Work.workerStep_weight hw).1
        refine ⟨⟨going_worker hs.going hw, hs.past⟩, ?_⟩
        simp only [stepsLeft]
        omega

theorem procStep_worker {s : Process n c} {i : Fin (n + 1)} {w : Work (n + 1) c}
    (hp : s.phase.ended = false) (hi : i < s.created) (hw : s.work.workerStep i = some w) :
    procStep s (.worker i false) = some { s with work := w } := by
  simp only [procStep, workerRun, if_pos (And.intro hp hi), hw]
  rfl

/-- Until `main` has returned 0, it or a worker can go on. -/
theorem leaving_go {s : Process n c} (hs : Leaving s) (hd : s.phase ≠ .returned 0) :
    ∃ l t, ¬ ProcLabel.Throws l ∧ procStep s l = some t := by
  obtain ⟨phase, created, joined, running, work⟩ := s
  rcases hs.past with hc | ⟨hp, hr⟩
  · cases phase with
    | join =>
        by_cases hlt : joined < n + 1
        · by_cases hexit : work.worker ⟨joined, hlt⟩ = .exited
          · exact ⟨.finish, _, nofun, by simp only [procStep, finish, dif_pos hlt, hexit]; rfl⟩
          · have hcreated : created = n + 1 := hs.going.spawned nofun
            obtain ⟨w, hw⟩ := Work.exists_workerStep (hs.going.closed rfl) hexit
            exact ⟨.worker ⟨joined, hlt⟩ false, _, nofun,
              procStep_worker rfl (by rw [hcreated]; exact hlt) hw⟩
        · exact ⟨.finish, _, nofun, by simp only [procStep, finish, dif_neg hlt]; rfl⟩
    | returned code => exact absurd (congrArg Phase.returned (hs.going.ended code rfl).1) hd
    | _ => cases hc
  · cases hp
    cases hr
    exact ⟨.finish, _, nofun, rfl⟩

/-- **The exit is orderly if and only if nothing throws.** Whatever call of `main` behind the first
worker throws, and whichever `write_sample`, the process ends in `std::terminate`. If nothing
throws, it ends once the loop is over: every continuation is bounded, and one leads to the return
of 0. -/
theorem orderly_iff {ls : List (ProcLabel n)} {s : Process n c}
    (h : run procStep (init n c) ls = some s) :
    (Orderly s ↔ ∀ l ∈ ls, ¬ l.Throws) ∧
    ((∀ l ∈ ls, ¬ l.Throws) → s.phase.closed = true ∨ (s.phase = .loop ∧ s.running = false) →
      (∃ bound, ∀ ms t, (∀ l ∈ ms, ¬ ProcLabel.Throws l) → run procStep s ms = some t →
        ms.length ≤ bound) ∧
      ∃ ms t, (∀ l ∈ ms, ¬ ProcLabel.Throws l) ∧ run procStep s ms = some t ∧
        t.phase = .returned 0) := by
  refine ⟨⟨fun hs l hmem hl => ?_, fun hls => ?_⟩, fun hls hpast => ⟨⟨s.stepsLeft, ?_⟩, ?_⟩⟩
  · exact hs.alive (terminated_run going_init hmem hl h)
  · exact (going_run going_init hls h).orderly
  · intro ms t hms hrun
    exact run_length_le (fun _ _ _ hs hl hst => leaving_step hs hl hst)
      ⟨going_run going_init hls h, hpast⟩ hms hrun
  · exact exists_run_done (fun _ _ _ hs hl hst => leaving_step hs hl hst)
      (fun _ hs hd => leaving_go hs hd) ⟨going_run going_init hls h, hpast⟩

/-- One worker; a sample is handled, a callback stops the daemon. -/
def cleanExit : List (ProcLabel 0) :=
  [.call false, .call false, .call false, .call false, .call false, .call false, .call false,
    .call false, .submit ⟨0, 5, sampleTemp, 7, 0, 0⟩, .runOnce true false,
    .worker (Fin.last 0) false, .worker (Fin.last 0) false, .finish, .worker (Fin.last 0) false,
    .worker (Fin.last 0) false, .worker (Fin.last 0) false, .worker (Fin.last 0) false, .finish,
    .finish]

theorem orderly_iff_cleanExit : ∃ s, run procStep (init 0 4) cleanExit = some s ∧
    s.phase = .returned 0 ∧ Orderly s := by
  obtain ⟨s, hs⟩ : ∃ s, run procStep (init 0 4) cleanExit = some s := ⟨_, rfl⟩
  have hp : (run procStep (init 0 4) cleanExit).map (fun s => s.phase) = some (.returned 0) := rfl
  rw [hs] at hp
  refine ⟨s, hs, Option.some.inj hp, (orderly_iff hs).1.mpr ?_⟩
  simp [cleanExit, ProcLabel.Throws]

/-- The device cannot be opened. -/
def noDevice : List (ProcLabel 0) := [.call true]

/-- **A daemon without its device does not exit: it is terminated.** -/
theorem noDevice_terminates : ∃ s, run procStep (init 0 4) noDevice = some s ∧
    s.phase = .terminated ∧ ¬ Orderly s :=
  ⟨_, rfl, rfl, fun h => h.alive rfl⟩

end Process

end SensorHub
