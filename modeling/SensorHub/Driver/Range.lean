import SensorHub.Driver.Config

set_option autoImplicit false

/-!
# The range of the configuration

`SENSORHUB_IOC_SET_CONFIG` and `interval_ms_store` check the interval they are given;
`enabled_store` checks nothing and writes back the interval it has copied. The timer callback reads
`enabled` and, after it has pushed its sample, `interval_ms`, and uses the value later still. Here
the callback is cut into these steps too, and every period that is given to the timer is recorded.

* `RaceSys`, `raceStep`: configuration calls and timer callbacks, access by access.
* `cfgStep_refines`: the callback in one step, as `cfgStep` has it, is a run of these steps.
* `InRange`, `Ranged`, `advance_inRange`, `ranged_step`: the interval is in range wherever it is
  kept, in the device, in a copy and in the callback.
* **`config_in_range`**: so is every interval the timer is ever started or forwarded with.
-/

namespace SensorHub.Driver

open Trans

/-- The configuration, the timer and the threads inside a configuration call. `tick` is the interval
that a running callback has read and not used yet; `periods` are the periods of all calls of
`hrtimer_start` and `hrtimer_forward_now` so far. -/
structure RaceSys where
  config : Config
  timer : Timer
  pc : ℕ → CfgPc
  tick : Option UInt32
  periods : List UInt32

/-- The state after `sensorhub_init`, which has started the timer. -/
def RaceSys.init : RaceSys :=
  ⟨CfgSys.init.config, CfgSys.init.timer, CfgSys.init.pc, none, [CfgSys.init.config.intervalMs]⟩

inductive RaceLabel
  | setConfig (i : ℕ) (cfg : Config) (fault : Bool)
  | store (i : ℕ) (st : Store)
  /-- Thread `i` takes the next step of its call. -/
  | step (i : ℕ)
  /-- The armed timer expires and its callback begins. -/
  | fire
  /-- The callback takes its next step. -/
  | callback

/-- The period of the `hrtimer_start` that a call is about to execute. -/
def startPeriod : CfgPc → List UInt32
  | .timerCall cfg => if cfg.enabled = 0 then [] else [cfg.intervalMs]
  | _ => []

/-- `sensorhub_timer_cb`: the read of `enabled`, that of `interval_ms`, `hrtimer_forward_now`. -/
def callbackStep (s : RaceSys) : Option RaceSys :=
  match s.timer.cb, s.tick with
  | .off, _ => none
  | .begun, _ =>
      if s.config.enabled = 0 then some { s with timer := { s.timer with cb := .off } }
      else some { s with timer := { s.timer with cb := .restart } }
  | .restart, none => some { s with tick := some s.config.intervalMs }
  | .restart, some ms =>
      some { s with
        timer := { armed := true, cb := .off, periodMs := ms }
        tick := none
        periods := s.periods ++ [ms] }

/-- One step. -/
def raceStep (s : RaceSys) : RaceLabel → Option RaceSys
  | .setConfig i cfg fault =>
      match s.pc i with
      | .idle =>
          match setConfig cfg fault with
          | .error _ => some s
          | .ok cfg => some { s with pc := Function.update s.pc i (.writeInterval cfg) }
      | _ => none
  | .store i st =>
      match s.pc i with
      | .idle => some { s with pc := Function.update s.pc i (.snapInterval st) }
      | _ => none
  | .step i =>
      (advance s.config s.timer (s.pc i)).map fun r =>
        { s with
          config := r.1
          timer := r.2.1
          pc := Function.update s.pc i r.2.2
          periods := s.periods ++ startPeriod (s.pc i) }
  | .fire =>
      if s.timer.armed ∧ s.timer.cb = .off then
        some { s with timer := { s.timer with armed := false, cb := .begun } }
      else none
  | .callback => callbackStep s

/-! ### The callback in one step -/

/-- The two systems agree, and no callback is running. -/
structure SameCfg (s : CfgSys) (r : RaceSys) : Prop where
  config : r.config = s.config
  timer : r.timer = s.timer
  pc : r.pc = s.pc
  rest : s.timer.cb = .off
  tick : r.tick = none

theorem advance_cb {config config' : Config} {timer timer' : Timer} {pc pc' : CfgPc}
    (h : advance config timer pc = some (config', timer', pc')) : timer'.cb = timer.cb := by
  rcases advance_cases h with ⟨cfg, -, -, -, rfl, -⟩ | ⟨cfg, -, -, -, -, rfl, -⟩ |
    ⟨cfg, -, rfl, -⟩ | ⟨-, -, -, -, rfl⟩ <;> rfl

/-- The callback of an armed timer, from its expiry to its end. -/
theorem callback_run {s : CfgSys} {r : RaceSys} (hr : SameCfg s r) (ha : s.timer.armed = true) :
    ∃ u, Reachable raceStep r u ∧ SameCfg { s with timer := timerCb s.config s.timer } u := by
  obtain ⟨config, timer, pc, tick, periods⟩ := r
  obtain ⟨rfl, rfl, rfl, hrest, rfl⟩ := hr
  by_cases he : s.config.enabled = 0
  · refine ⟨⟨s.config, timerCb s.config s.timer, s.pc, none, periods⟩,
      ⟨[.fire, .callback], ?_⟩, ⟨rfl, rfl, rfl, ?_, rfl⟩⟩
    · simp [run, raceStep, callbackStep, timerCb, ha, hrest, he]
    · simp only [timerCb, he, if_true, hrest]
  · refine ⟨⟨s.config, timerCb s.config s.timer, s.pc, none, periods ++ [s.config.intervalMs]⟩,
      ⟨[.fire, .callback, .callback, .callback], ?_⟩, ⟨rfl, rfl, rfl, ?_, rfl⟩⟩
    · simp [run, raceStep, callbackStep, timerCb, ha, hrest, he]
    · simp only [timerCb, he, if_false, hrest]

theorem cfgStep_matched {s t : CfgSys} {l : CfgLabel} {r : RaceSys} (hr : SameCfg s r)
    (h : cfgStep s l = some t) : ∃ u, Reachable raceStep r u ∧ SameCfg t u := by
  cases l with
  | setConfig i cfg fault =>
      simp only [cfgStep] at h
      cases hpc : s.pc i <;> simp only [hpc, reduceCtorEq] at h
      cases hset : setConfig cfg fault <;> simp only [hset, Option.some.injEq] at h <;> subst h
      · exact ⟨r, .refl r, hr⟩
      · refine ⟨{ r with pc := Function.update r.pc i (.writeInterval _) },
          ⟨[.setConfig i cfg fault], ?_⟩, ⟨hr.config, hr.timer, by rw [hr.pc], hr.rest, hr.tick⟩⟩
        simp only [run, raceStep, hr.pc, hpc, hset, Option.bind_some]
  | store i st =>
      simp only [cfgStep] at h
      cases hpc : s.pc i <;> simp only [hpc, reduceCtorEq, Option.some.injEq] at h
      subst h
      refine ⟨{ r with pc := Function.update r.pc i (.snapInterval st) }, ⟨[.store i st], ?_⟩,
        ⟨hr.config, hr.timer, by rw [hr.pc], hr.rest, hr.tick⟩⟩
      simp only [run, raceStep, hr.pc, hpc, Option.bind_some]
  | step i =>
      simp only [cfgStep, Option.map_eq_some_iff] at h
      obtain ⟨⟨config', timer', pc'⟩, hadv, rfl⟩ := h
      refine ⟨{ r with
          config := config', timer := timer', pc := Function.update r.pc i pc'
          periods := r.periods ++ startPeriod (r.pc i) }, ⟨[.step i], ?_⟩,
        ⟨rfl, rfl, by rw [hr.pc], (advance_cb hadv).trans hr.rest, hr.tick⟩⟩
      simp only [run, raceStep, hr.config, hr.timer, hr.pc, hadv, Option.map_some, Option.bind_some]
  | callback =>
      simp only [cfgStep] at h
      split_ifs at h with ha
      cases h
      exact callback_run hr ha

/-- **Refinement.** What the system reaches with the callback as one step, it reaches with the
callback cut into its accesses. -/
theorem cfgStep_refines {s : CfgSys} (h : Reachable cfgStep CfgSys.init s) :
    ∃ r, Reachable raceStep RaceSys.init r ∧ SameCfg s r :=
  Reachable.simulate (fun _ _ _ _ hr hst => cfgStep_matched hr hst)
    (⟨rfl, rfl, rfl, rfl, rfl⟩ : SameCfg CfgSys.init RaceSys.init) h

/-! ### The interval is in range wherever it is kept -/

/-- The intervals that the driver accepts. -/
def InRange (ms : UInt32) : Prop := 10 ≤ ms ∧ ms ≤ 60000

/-- The interval in the local copy of a call, if it has one. -/
def CfgPc.copy : CfgPc → Option UInt32
  | .idle | .snapInterval _ => none
  | .snapEnabled _ ms => some ms
  | .writeInterval cfg | .writeEnabled cfg | .timerCall cfg => some cfg.intervalMs

/-- The range invariant: of the device, of the copies in flight, of the interval the callback has
read, and of all periods so far. -/
structure Ranged (s : RaceSys) : Prop where
  interval : InRange s.config.intervalMs
  enabled : s.config.enabled = 0 ∨ s.config.enabled = 1
  copies : ∀ i, ∀ ms ∈ (s.pc i).copy, InRange ms
  tick : ∀ ms ∈ s.tick, InRange ms
  periods : ∀ ms ∈ s.periods, InRange ms

theorem inRange_of_not_bad {ms : UInt32} (h : intervalBad ms ≠ true) : InRange ms :=
  (intervalBad_eq_false ms).mp (Bool.eq_false_of_not_eq_true h)

theorem setConfig_inRange {cfg cfg' : Config} {fault : Bool} (h : setConfig cfg fault = .ok cfg') :
    InRange cfg'.intervalMs := by
  simp only [setConfig] at h
  split_ifs at h with hf hbad
  cases h
  exact inRange_of_not_bad hbad

/-- A store asks for the interval it was given and has checked, or for the one it has copied. -/
theorem Store.request_inRange {st : Store} {cfg cfg' : Config} (hcfg : InRange cfg.intervalMs)
    (h : st.request cfg = .ok cfg') : InRange cfg'.intervalMs := by
  cases st with
  | intervalMs buf =>
      simp only [Store.request] at h
      cases hk : kstrtouint buf with
      | error e => simp only [hk, reduceCtorEq] at h
      | ok ms =>
          simp only [hk] at h
          split_ifs at h with hbad
          cases h
          exact inRange_of_not_bad hbad
  | enabled buf =>
      simp only [Store.request] at h
      cases hk : kstrtobool buf with
      | error e => simp only [hk, reduceCtorEq] at h
      | ok b =>
          simp only [hk] at h
          cases h
          exact hcfg

/-- One step of a call: what it writes, what it copies and what it gives to the timer are in
range. -/
theorem advance_inRange {config config' : Config} {timer timer' : Timer} {pc pc' : CfgPc}
    (hconfig : InRange config.intervalMs) (hen : config.enabled = 0 ∨ config.enabled = 1)
    (hpc : ∀ ms ∈ pc.copy, InRange ms)
    (h : advance config timer pc = some (config', timer', pc')) :
    InRange config'.intervalMs ∧ (config'.enabled = 0 ∨ config'.enabled = 1) ∧
      (∀ ms ∈ pc'.copy, InRange ms) ∧ ∀ ms ∈ startPeriod pc, InRange ms := by
  cases pc with
  | idle => cases h
  | snapInterval st =>
      cases h
      refine ⟨hconfig, hen, ?_, by simp [startPeriod]⟩
      intro ms hms
      cases hms
      exact hconfig
  | snapEnabled st ms =>
      have hms : InRange ms := hpc ms rfl
      simp only [advance] at h
      cases hreq : st.request ⟨ms, config.enabled⟩ with
      | error e =>
          simp only [hreq] at h
          cases h
          exact ⟨hconfig, hen, by simp [CfgPc.copy], by simp [startPeriod]⟩
      | ok cfg =>
          simp only [hreq] at h
          cases h
          refine ⟨hconfig, hen, ?_, by simp [startPeriod]⟩
          intro ms' hms'
          cases hms'
          exact Store.request_inRange hms hreq
  | writeInterval cfg =>
      cases h
      exact ⟨hpc _ rfl, hen, hpc, by simp [startPeriod]⟩
  | writeEnabled cfg =>
      cases h
      refine ⟨hconfig, ?_, hpc, by simp [startPeriod]⟩
      by_cases he : cfg.enabled = 0
      · exact Or.inl (if_pos he)
      · exact Or.inr (if_neg he)
  | timerCall cfg =>
      have hcfg : InRange cfg.intervalMs := hpc _ rfl
      simp only [advance] at h
      by_cases he : cfg.enabled = 0
      · simp only [he, if_true, Option.map_eq_some_iff] at h
        obtain ⟨t, -, h⟩ := h
        cases h
        exact ⟨hconfig, hen, by simp [CfgPc.copy], by simp [startPeriod, he]⟩
      · simp only [he, if_false] at h
        cases h
        refine ⟨hconfig, hen, by simp [CfgPc.copy], ?_⟩
        intro ms hms
        simp only [startPeriod, he, if_false, List.mem_singleton] at hms
        rw [hms]
        exact hcfg

theorem ranged_init : Ranged RaceSys.init := by
  have h500 : InRange 500 := ⟨by decide, by decide⟩
  refine ⟨h500, Or.inr rfl, by simp [RaceSys.init, CfgSys.init, CfgPc.copy], by simp [RaceSys.init],
    ?_⟩
  intro ms hms
  rw [List.mem_singleton.mp hms]
  exact h500

theorem Ranged.update {s : RaceSys} (hs : Ranged s) {i : ℕ} {pc : CfgPc}
    (hpc : ∀ ms ∈ pc.copy, InRange ms) :
    ∀ j, ∀ ms ∈ (Function.update s.pc i pc j).copy, InRange ms := by
  intro j
  by_cases hj : j = i
  · rw [hj, Function.update_self]
    exact hpc
  · rw [Function.update_of_ne hj]
    exact hs.copies j

theorem ranged_callback {s t : RaceSys} (hs : Ranged s) (h : callbackStep s = some t) :
    Ranged t := by
  simp only [callbackStep] at h
  cases hcb : s.timer.cb with
  | off => simp only [hcb, reduceCtorEq] at h
  | begun =>
      simp only [hcb] at h
      split_ifs at h <;> cases h <;>
        exact ⟨hs.interval, hs.enabled, hs.copies, hs.tick, hs.periods⟩
  | restart =>
      cases htick : s.tick with
      | none =>
          simp only [hcb, htick] at h
          cases h
          refine ⟨hs.interval, hs.enabled, hs.copies, ?_, hs.periods⟩
          intro ms hms
          cases hms
          exact hs.interval
      | some ms =>
          simp only [hcb, htick] at h
          cases h
          refine ⟨hs.interval, hs.enabled, hs.copies, by simp, ?_⟩
          intro ms' hms'
          rcases List.mem_append.mp hms' with h | h
          · exact hs.periods ms' h
          · rw [List.mem_singleton.mp h]
            exact hs.tick ms htick

theorem ranged_step {s t : RaceSys} {l : RaceLabel} (hs : Ranged s) (h : raceStep s l = some t) :
    Ranged t := by
  cases l with
  | setConfig i cfg fault =>
      simp only [raceStep] at h
      cases hpc : s.pc i <;> simp only [hpc, reduceCtorEq] at h
      cases hset : setConfig cfg fault with
      | error e =>
          simp only [hset] at h
          cases h
          exact hs
      | ok cfg' =>
          simp only [hset] at h
          cases h
          refine ⟨hs.interval, hs.enabled, hs.update ?_, hs.tick, hs.periods⟩
          intro ms hms
          cases hms
          exact setConfig_inRange hset
  | store i st =>
      simp only [raceStep] at h
      cases hpc : s.pc i <;> simp only [hpc, reduceCtorEq] at h
      cases h
      exact ⟨hs.interval, hs.enabled, hs.update (by simp [CfgPc.copy]), hs.tick, hs.periods⟩
  | step i =>
      simp only [raceStep, Option.map_eq_some_iff] at h
      obtain ⟨⟨config', timer', pc'⟩, hadv, rfl⟩ := h
      obtain ⟨hint, hen, hcopy, hstart⟩ :=
        advance_inRange hs.interval hs.enabled (hs.copies i) hadv
      refine ⟨hint, hen, hs.update hcopy, hs.tick, ?_⟩
      intro ms hms
      rcases List.mem_append.mp hms with h | h
      · exact hs.periods ms h
      · exact hstart ms h
  | fire =>
      simp only [raceStep] at h
      split_ifs at h
      cases h
      exact ⟨hs.interval, hs.enabled, hs.copies, hs.tick, hs.periods⟩
  | callback => exact ranged_callback hs h

/-- **The configuration stays in range.** For every interleaving of configuration calls with
arbitrary arguments and of timer callbacks, `interval_ms` is between 10 and 60000 and `enabled` is 0
or 1, and every period that the timer was started or forwarded with is between 10 and 60000 ms. -/
theorem config_in_range {s : RaceSys} (h : Reachable raceStep RaceSys.init s) :
    (10 ≤ s.config.intervalMs ∧ s.config.intervalMs ≤ 60000) ∧
    (s.config.enabled = 0 ∨ s.config.enabled = 1) ∧
    ∀ ms ∈ s.periods, 10 ≤ ms ∧ ms ≤ 60000 := by
  have hs : Ranged s := h.inv Ranged (fun _ _ _ hs hst => ranged_step hs hst) ranged_init
  exact ⟨hs.interval, hs.enabled, hs.periods⟩

/-- `enabled_store` copies the interval 500, the callback reads it, `SENSORHUB_IOC_SET_CONFIG` sets
20 and starts the timer, the store writes 500 back, and the callback forwards the timer. -/
def staleCopies : List RaceLabel :=
  [.store 1 (.enabled [49]), .step 1, .step 1, .fire, .callback, .callback,
    .setConfig 2 ⟨20, 7⟩ false, .step 2, .step 2, .step 2, .step 1, .step 1, .step 1, .callback]

theorem config_in_range_staleCopies :
    ∃ s, run raceStep RaceSys.init staleCopies = some s ∧ s.periods = [500, 20, 500, 500] ∧
      s.config.intervalMs = 500 ∧ ∀ ms ∈ s.periods, 10 ≤ ms ∧ ms ≤ 60000 := by
  obtain ⟨s, hs⟩ : ∃ s, run raceStep RaceSys.init staleCopies = some s := ⟨_, rfl⟩
  have hend := hs
  refine ⟨s, hs, ?_, ?_, (config_in_range ⟨_, hs⟩).2.2⟩
  · cases hend
    rfl
  · cases hend
    rfl

end SensorHub.Driver
