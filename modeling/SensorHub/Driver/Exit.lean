import SensorHub.Driver.Config

set_option autoImplicit false

/-!
# Unloading the driver

`sensorhub_exit` cancels the timer, removes debugfs and the sysfs group, deregisters the device and
frees it. Stores may run until `sysfs_remove_group` has returned, and it returns only when none is
running; no file is open any more, so there are no ioctls. The callback is not one step here: it
takes the timer off the queue, looks at `enabled`, and puts it back or not.

* `ExitPc`, `ExitSys`, `exitAdvance`, `exitStep`; `ExitBranch`, `exitStep_branch`: what a step can
  be.
* `Stopped`, `stopped_step`, **`exit_safe`**: when the last timer call of the stores behind the
  `hrtimer_cancel` of `sensorhub_exit` is not a start, the device is freed with its timer at rest.
* `Sampling`, `LeftStarted`: when it is a start, a device that stays enabled goes on sampling.
* `rearmed`, **`exit_unsafe`**: a store that re-arms the timer of a device that is then freed.
-/

namespace SensorHub.Driver

open Trans

variable {n : ℕ}

/-- The next statement of `sensorhub_exit`. -/
inductive ExitPc
  /-- `sensorhub_exit` has not been called. -/
  | loaded
  | hrtimerCancel
  | debugfsRemove
  | sysfsRemove
  | miscDeregister
  | kfifoFree
  | kfree
  | done
  deriving DecidableEq

/-- The driver while it is being unloaded, with `n` threads that write sysfs attributes.
`lastStart` records that the last timer call of a store since the `hrtimer_cancel` of
`sensorhub_exit` was `hrtimer_start`. -/
structure ExitSys (n : ℕ) where
  config : Config
  timer : Timer
  pc : Fin n → CfgPc
  exit : ExitPc
  lastStart : Bool

/-- The state after `sensorhub_init`. -/
def ExitSys.init (n : ℕ) : ExitSys n :=
  ⟨CfgSys.init.config, CfgSys.init.timer, fun _ => .idle, .loaded, false⟩

inductive ExitLabel (n : ℕ)
  /-- A sysfs attribute is written. -/
  | store (i : Fin n) (st : Store)
  /-- Thread `i` takes the next step of its store. -/
  | step (i : Fin n)
  /-- The armed timer expires and its callback begins. -/
  | fire
  /-- The callback takes its next step. -/
  | callback
  /-- `sensorhub_exit` executes its next statement. -/
  | exit

/-- Whether the sysfs attributes are still there. -/
def ExitPc.admits : ExitPc → Bool
  | .loaded | .hrtimerCancel | .debugfsRemove | .sysfsRemove => true
  | _ => false

/-- Whether the `hrtimer_cancel` of `sensorhub_exit` is done. -/
def ExitPc.cancelled : ExitPc → Bool
  | .loaded | .hrtimerCancel => false
  | _ => true

def CfgPc.isIdle : CfgPc → Bool
  | .idle => true
  | _ => false

theorem CfgPc.isIdle_iff {pc : CfgPc} : pc.isIdle = true ↔ pc = .idle := by
  cases pc <;> simp [isIdle]

/-- `lastStart` after a step of a store at `pc`. -/
def startsTimer (before : Bool) : CfgPc → Bool
  | .timerCall cfg => cfg.enabled ≠ 0
  | _ => before

theorem startsTimer_of_ne {before : Bool} {pc : CfgPc} (h : ∀ cfg, pc ≠ .timerCall cfg) :
    startsTimer before pc = before := by
  cases pc with
  | timerCall cfg => exact absurd rfl (h cfg)
  | _ => rfl

/-- The callback: `READ_ONCE(dev->config.enabled)`, then either the end with `HRTIMER_NORESTART`, or
`hrtimer_forward_now` and the end with `HRTIMER_RESTART`. -/
def callbackAdvance (config : Config) (t : Timer) : Option Timer :=
  match t.cb with
  | .off => none
  | .begun =>
      if config.enabled = 0 then some { t with cb := .off } else some { t with cb := .restart }
  | .restart => some { t with armed := true, cb := .off, periodMs := config.intervalMs }

/-- `sensorhub_exit`, statement by statement. `hrtimer_cancel` waits for the callback and
`sysfs_remove_group` for the stores. -/
def exitAdvance (s : ExitSys n) : Option (ExitSys n) :=
  match s.exit with
  | .loaded => some { s with exit := .hrtimerCancel }
  | .hrtimerCancel =>
      match hrtimerCancel s.timer with
      | none => none
      | some t => some { s with timer := t, exit := .debugfsRemove, lastStart := false }
  | .debugfsRemove => some { s with exit := .sysfsRemove }
  | .sysfsRemove =>
      if ∀ i, (s.pc i).isIdle = true then some { s with exit := .miscDeregister } else none
  | .miscDeregister => some { s with exit := .kfifoFree }
  | .kfifoFree => some { s with exit := .kfree }
  | .kfree => some { s with exit := .done }
  | .done => none

/-- One step; nothing happens to a device that has been freed. -/
def exitStep (s : ExitSys n) : ExitLabel n → Option (ExitSys n)
  | .store i st =>
      match s.pc i with
      | .idle =>
          if s.exit.admits then some { s with pc := Function.update s.pc i (.snapInterval st) }
          else none
      | _ => none
  | .step i =>
      match advance s.config s.timer (s.pc i) with
      | none => none
      | some (config, timer, pc) =>
          some { s with
            config := config, timer := timer, pc := Function.update s.pc i pc
            lastStart := startsTimer s.lastStart (s.pc i) }
  | .fire =>
      if s.exit ≠ .done ∧ s.timer.armed ∧ s.timer.cb = .off then
        some { s with timer := { s.timer with armed := false, cb := .begun } }
      else none
  | .callback =>
      if s.exit = .done then none
      else (callbackAdvance s.config s.timer).map fun t => { s with timer := t }
  | .exit => exitAdvance s

/-- The branches of `exitStep`. A statement of `sensorhub_exit` that touches neither the timer nor
the stores only moves on. -/
inductive ExitBranch (s : ExitSys n) : ExitLabel n → ExitSys n → Prop
  | store {i : Fin n} {st : Store} (hpc : s.pc i = .idle) (ha : s.exit.admits = true) :
      ExitBranch s (.store i st) { s with pc := Function.update s.pc i (.snapInterval st) }
  | step {i : Fin n} {config : Config} {timer : Timer} {pc : CfgPc}
      (hadv : advance s.config s.timer (s.pc i) = some (config, timer, pc)) :
      ExitBranch s (.step i)
        { s with
          config := config, timer := timer, pc := Function.update s.pc i pc
          lastStart := startsTimer s.lastStart (s.pc i) }
  | fire (ha : s.timer.armed = true) :
      ExitBranch s .fire { s with timer := { s.timer with armed := false, cb := .begun } }
  | callback {timer : Timer} (ht : callbackAdvance s.config s.timer = some timer) :
      ExitBranch s .callback { s with timer := timer }
  | cancel (he : s.exit = .hrtimerCancel) (hcb : s.timer.cb = .off) :
      ExitBranch s .exit
        { s with
          timer := { s.timer with armed := false }
          exit := .debugfsRemove
          lastStart := false }
  | removed (he : s.exit = .sysfsRemove) (hidle : ∀ i, s.pc i = .idle) :
      ExitBranch s .exit { s with exit := .miscDeregister }
  | next {exit : ExitPc} (hc : exit.cancelled = s.exit.cancelled)
      (ha : exit.admits = s.exit.admits) : ExitBranch s .exit { s with exit := exit }

theorem exitAdvance_branch {s t : ExitSys n} (h : exitAdvance s = some t) :
    ExitBranch s .exit t := by
  unfold exitAdvance at h
  cases he : s.exit with
  | loaded =>
      simp only [he, Option.some.injEq] at h
      exact h ▸ .next (by rw [he]; rfl) (by rw [he]; rfl)
  | hrtimerCancel =>
      simp only [he, hrtimerCancel] at h
      by_cases hcb : s.timer.cb = .off
      · simp only [hcb, if_true, Option.some.injEq] at h
        rw [← hcb] at h
        exact h ▸ .cancel he hcb
      · simp only [hcb, if_false, reduceCtorEq] at h
  | debugfsRemove =>
      simp only [he, Option.some.injEq] at h
      exact h ▸ .next (by rw [he]; rfl) (by rw [he]; rfl)
  | sysfsRemove =>
      simp only [he] at h
      split_ifs at h with hidle
      cases h
      exact .removed he fun i => CfgPc.isIdle_iff.mp (hidle i)
  | miscDeregister =>
      simp only [he, Option.some.injEq] at h
      exact h ▸ .next (by rw [he]; rfl) (by rw [he]; rfl)
  | kfifoFree =>
      simp only [he, Option.some.injEq] at h
      exact h ▸ .next (by rw [he]; rfl) (by rw [he]; rfl)
  | kfree =>
      simp only [he, Option.some.injEq] at h
      exact h ▸ .next (by rw [he]; rfl) (by rw [he]; rfl)
  | done => simp only [he, reduceCtorEq] at h

theorem exitStep_branch {s t : ExitSys n} {l : ExitLabel n} (h : exitStep s l = some t) :
    ExitBranch s l t := by
  cases l with
  | store i st =>
      simp only [exitStep] at h
      cases hpc : s.pc i <;> simp only [hpc, reduceCtorEq] at h
      split_ifs at h with ha
      cases h
      exact .store hpc ha
  | step i =>
      simp only [exitStep] at h
      cases hadv : advance s.config s.timer (s.pc i) with
      | none => simp only [hadv, reduceCtorEq] at h
      | some r =>
          obtain ⟨config, timer, pc⟩ := r
          simp only [hadv, Option.some.injEq] at h
          exact h ▸ .step hadv
  | fire =>
      simp only [exitStep] at h
      split_ifs at h with hf
      cases h
      exact .fire hf.2.1
  | callback =>
      simp only [exitStep] at h
      split_ifs at h
      obtain ⟨timer, ht, rfl⟩ := Option.map_eq_some_iff.mp h
      exact .callback ht
  | exit => exact exitAdvance_branch h

/-- The condition under which unloading is safe: when `sysfs_remove_group` returns, the last timer
call of the stores since `sensorhub_exit` cancelled the timer is not `hrtimer_start`. -/
def ExitOk (s : ExitSys n) (l : ExitLabel n) : Prop :=
  l = .exit → s.exit = .sysfsRemove → s.lastStart = false

/-- Behind the `hrtimer_cancel` of `sensorhub_exit` the timer is at rest unless a store started it;
behind `sysfs_remove_group` no store runs and none has. -/
structure Stopped (s : ExitSys n) : Prop where
  rest : s.exit.cancelled = true → s.lastStart = false → s.timer.armed = false ∧ s.timer.cb = .off
  noStores : s.exit.admits = false → (∀ i, s.pc i = .idle) ∧ s.lastStart = false

theorem stopped_init : Stopped (ExitSys.init n) := ⟨nofun, nofun⟩

theorem stopped_step {s t : ExitSys n} {l : ExitLabel n} (hs : Stopped s) (hok : ExitOk s l)
    (h : exitStep s l = some t) : Stopped t := by
  cases exitStep_branch h with
  | store hpc ha => exact ⟨hs.rest, fun hn => by simp only [ha, Bool.true_eq_false] at hn⟩
  | @step i config' timer' pc' hadv =>
      have hadmits : s.exit.admits = true := by
        by_contra hn
        have hidle := (hs.noStores (by simpa using hn)).1 i
        rw [hidle] at hadv
        cases hadv
      refine ⟨?_, fun hn => by simp only [hadmits, Bool.true_eq_false] at hn⟩
      intro hc hl
      simp only at hc hl ⊢
      rcases advance_cases hadv with ⟨cfg, hpc, he, -⟩ | ⟨cfg, -, -, -, hcb, rfl, -⟩ |
        ⟨cfg, hpc, rfl, -⟩ | ⟨hpc, -, -, -, rfl⟩
      · -- a start sets `lastStart`
        simp only [hpc, startsTimer, ne_eq, decide_not, Bool.not_eq_false', decide_eq_true_eq] at hl
        exact absurd hl he
      · exact ⟨rfl, hcb⟩
      · exact hs.rest hc (by simpa only [hpc, startsTimer] using hl)
      · rw [startsTimer_of_ne hpc] at hl
        exact hs.rest hc hl
  | fire ha =>
      refine ⟨?_, hs.noStores⟩
      intro hc hl
      rw [(hs.rest hc hl).1] at ha
      cases ha
  | callback ht =>
      refine ⟨?_, hs.noStores⟩
      intro hc hl
      simp only [callbackAdvance, (hs.rest hc hl).2] at ht
      cases ht
  | cancel he hcb => exact ⟨fun _ _ => ⟨rfl, hcb⟩, by rintro ⟨⟩⟩
  | removed he hidle =>
      refine ⟨fun _ => hs.rest (by rw [he]; rfl), ?_⟩
      intro _
      exact ⟨hidle, hok rfl he⟩
  | next hc ha => exact ⟨fun hc' => hs.rest (hc ▸ hc'), fun ha' => hs.noStores (ha ▸ ha')⟩

/-! ### Without the condition -/

/-- A device that is enabled and whose timer was started last has its timer queued or its callback
running, or a store is about to start the timer. -/
def Sampling (s : ExitSys n) : Prop :=
  s.config.enabled = 1 → s.lastStart = true →
    s.timer.armed = true ∨ s.timer.cb ≠ .off ∨ ∃ i cfg, s.pc i = .timerCall cfg ∧ cfg.enabled ≠ 0

theorem sampling_init : Sampling (ExitSys.init n) := by
  intro _ hl
  cases hl

theorem sampling_step {s t : ExitSys n} {l : ExitLabel n} (hs : Sampling s)
    (h : exitStep s l = some t) : Sampling t := by
  cases exitStep_branch h with
  | store hpc ha =>
      intro hen hl
      refine (hs hen hl).imp_right (Or.imp_right fun hp => ?_)
      exact exists_start_update hp (fun _ h' => by rw [hpc] at h'; cases h') _
  | @step i config' timer' pc' hadv =>
      intro hen hl
      simp only at hen hl ⊢
      rcases advance_cases hadv with ⟨cfg, -, -, -, rfl, -⟩ | ⟨cfg, hpc, he, -⟩ |
        ⟨cfg, hpc, rfl, rfl, rfl⟩ | ⟨hpc, -, -, hconf, rfl⟩
      · exact Or.inl rfl
      · -- a cancel clears `lastStart`
        simp [hpc, startsTimer, he] at hl
      · refine Or.inr (Or.inr ⟨i, cfg, by simp only [Function.update_self], ?_⟩)
        intro he
        simp only [he, if_true] at hen
        cases hen
      · rw [startsTimer_of_ne hpc] at hl
        refine (hs (hconf ▸ hen) hl).imp_right (Or.imp_right fun hp => ?_)
        exact exists_start_update hp (fun cfg h' => absurd h' (hpc cfg)) pc'
  | fire ha => exact fun _ _ => Or.inr (Or.inl (by rintro ⟨⟩))
  | callback ht =>
      intro hen _
      simp only at hen ⊢
      simp only [callbackAdvance, hen] at ht
      split at ht <;> cases ht
      · exact Or.inr (Or.inl (by rintro ⟨⟩))
      · exact Or.inl rfl
  | cancel he hcb =>
      intro _ hl
      cases hl
  | removed he hidle => exact hs
  | next hc ha => exact hs

/-- `sysfs_remove_group` returned behind a start. -/
structure LeftStarted (s : ExitSys n) : Prop where
  removed : s.exit.admits = false
  idle : ∀ i, s.pc i = .idle
  started : s.lastStart = true

theorem leftStarted_of_not_ok {s t : ExitSys n} {l : ExitLabel n} (hbad : ¬ ExitOk s l)
    (h : exitStep s l = some t) : LeftStarted t := by
  simp only [ExitOk, not_forall] at hbad
  obtain ⟨rfl, hexit, hl⟩ := hbad
  simp only [exitStep, exitAdvance, hexit] at h
  split_ifs at h with hidle
  cases h
  refine ⟨rfl, fun i => ?_, Bool.eq_true_of_not_eq_false hl⟩
  exact CfgPc.isIdle_iff.mp (hidle i)

theorem leftStarted_step {s t : ExitSys n} {l : ExitLabel n} (hs : LeftStarted s)
    (h : exitStep s l = some t) : LeftStarted t := by
  have hremoved := hs.removed
  cases exitStep_branch h with
  | store hpc ha =>
      rw [ha] at hremoved
      cases hremoved
  | @step i config timer pc hadv =>
      rw [hs.idle i] at hadv
      cases hadv
  | fire ha => exact ⟨hremoved, hs.idle, hs.started⟩
  | callback ht => exact ⟨hremoved, hs.idle, hs.started⟩
  | cancel he hcb =>
      rw [he] at hremoved
      cases hremoved
  | removed he hidle =>
      rw [he] at hremoved
      cases hremoved
  | next hc ha => exact ⟨ha.trans hremoved, hs.idle, hs.started⟩

/-- **Unloading is safe** in every run that meets the condition: when the device is about to be
freed, the timer is not armed and no callback runs. In a run that does not meet it and leaves the
device enabled, the timer is armed or its callback runs. -/
theorem exit_safe {ls : List (ExitLabel n)} {s : ExitSys n}
    (h : run exitStep (ExitSys.init n) ls = some s) (hfree : s.exit = .kfree) :
    (AllSteps exitStep ExitOk (ExitSys.init n) ls →
      s.timer.armed = false ∧ s.timer.cb = .off) ∧
    (¬ AllSteps exitStep ExitOk (ExitSys.init n) ls → s.config.enabled = 1 →
      s.timer.armed = true ∨ s.timer.cb ≠ .off) := by
  constructor
  · intro hok
    have hs : Stopped s :=
      run_inv_of Stopped (fun _ _ _ hs hok h => stopped_step hs hok h) stopped_init hok h
    obtain ⟨-, hl⟩ := hs.noStores (by rw [hfree]; rfl)
    exact hs.rest (by rw [hfree]; rfl) hl
  · intro hok hen
    obtain ⟨_, l, _, u, v, -, -, hbad, hv, hend⟩ := exists_step_of_not_allSteps hok h
    have hleft : LeftStarted s := run_inv LeftStarted
      (fun _ _ _ hs hst => leftStarted_step hs hst) (leftStarted_of_not_ok hbad hv) hend
    have hs : Sampling s :=
      run_inv Sampling (fun _ _ _ hs hst => sampling_step hs hst) sampling_init h
    rcases hs hen hleft.started with ha | hc | ⟨i, cfg, hi, -⟩
    · exact Or.inl ha
    · exact Or.inr hc
    · rw [hleft.idle i] at hi
      cases hi

/-- A store writes `1` and is done before `sensorhub_exit` begins. -/
def storeThenExit : List (ExitLabel 1) :=
  let i : Fin 1 := ⟨0, Nat.one_pos⟩
  [.store i (.enabled [49]), .step i, .step i, .step i, .step i, .step i, .fire, .callback,
    .callback, .exit, .exit, .exit, .exit, .exit, .exit]

theorem exit_safe_storeThenExit : ∃ s, run exitStep (ExitSys.init 1) storeThenExit = some s ∧
    s.exit = .kfree ∧ s.timer.armed = false ∧ s.timer.cb = .off := by
  refine ⟨_, rfl, rfl, (@exit_safe 1 storeThenExit _ rfl rfl).1 ?_⟩
  exact .cons rfl nofun <| .cons rfl nofun <| .cons rfl nofun <| .cons rfl nofun <|
    .cons rfl nofun <| .cons rfl nofun <| .cons rfl nofun <| .cons rfl nofun <| .cons rfl nofun <|
    .cons rfl nofun <| .cons rfl nofun <| .cons rfl nofun <| .cons rfl (fun _ _ => rfl) <|
    .cons rfl nofun <| .cons rfl nofun trivial

/-- `sensorhub_exit` cancels the timer; a store that was under way starts it again and returns;
everything else is torn down. -/
def rearmed : List (ExitLabel 1) :=
  let i : Fin 1 := ⟨0, Nat.one_pos⟩
  [.store i (.enabled [49]), .step i, .step i, .exit, .exit, .step i, .step i, .step i,
    .exit, .exit, .exit, .exit]

/-- **The device is freed with its timer armed.** -/
theorem exit_unsafe : ∃ s, run exitStep (ExitSys.init 1) rearmed = some s ∧
    s.exit = .kfree ∧ s.timer.armed = true :=
  ⟨_, rfl, rfl, rfl⟩

end SensorHub.Driver
