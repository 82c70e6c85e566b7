import SensorHub.Uapi.Sample
import SensorHub.Uapi.Errno
import SensorHub.Trans.Run

set_option autoImplicit false

/-!
# The driver's configuration and its timer

`sensorhub_apply_config` is reached from three entry points (`SENSORHUB_IOC_SET_CONFIG`,
`interval_ms_store`, `enabled_store`) and takes no lock: it writes two fields and then starts or
cancels the timer. Here each access to a field of `config` and each call of the timer interface is
a step of its own, and the calls of any number of threads interleave with each other and with the
timer callback.

* `kstrtouint`, `kstrtobool`: the kernel's parsers, as the two stores use them.
* `Timer`, `hrtimerStart`, `hrtimerCancel`, `timerCb`.
* `CfgPc`, `advance`: a call, step by step; `CfgSys`, `cfgStep`: all of them.
* `Agree`, `agree_step`, **`config_timer_agree`**: when `hrtimer_cancel` never runs behind the back
  of an enabling call, an idle enabled device has its timer armed.
* `lostStart`, **`config_timer_disagree`**: a disabling and an enabling store that leave the device
  enabled and the timer off.
-/

namespace SensorHub.Driver

open Trans

/-! ### The kernel's parsers -/

/-- The C string in a buffer. -/
def cString (buf : Bytes) : Bytes := buf.takeWhile (· ≠ 0)

/-- Whether a byte is a decimal digit. -/
def isDigit (b : UInt8) : Bool := 48 ≤ b && b ≤ 57

/-- The value of a string of decimal digits. -/
def digitsValue (ds : Bytes) : ℕ := ds.foldl (fun n b => 10 * n + (b.toNat - 48)) 0

/-- `kstrtouint(buf, 10, &res)`: an optional `+`, decimal digits, an optional final newline. -/
def kstrtouint (buf : Bytes) : Except Errno UInt32 :=
  let s := cString buf
  let s := if s.head? = some 43 then s.tail else s
  let ds := s.takeWhile isDigit
  let rest := s.dropWhile isDigit
  if 2 ^ 64 ≤ digitsValue ds then .error .ERANGE
  else if ds = [] then .error .EINVAL
  else if rest ≠ [] ∧ rest ≠ [10] then .error .EINVAL
  else if 2 ^ 32 ≤ digitsValue ds then .error .ERANGE
  else .ok (UInt32.ofNat (digitsValue ds))

/-- `kstrtobool(buf, &res)`: the first character, or the first two of `on` and `off`, decide. -/
def kstrtobool (buf : Bytes) : Except Errno Bool :=
  match cString buf with
  | [] => .error .EINVAL
  | b :: rest =>
      if b ∈ [121, 89, 116, 84, 49] then .ok true          -- y Y t T 1
      else if b ∈ [110, 78, 102, 70, 48] then .ok false    -- n N f F 0
      else if b ∈ [111, 79] then                           -- o O
        match rest with
        | [] => .error .EINVAL
        | b' :: _ =>
            if b' ∈ [110, 78] then .ok true
            else if b' ∈ [102, 70] then .ok false
            else .error .EINVAL
      else .error .EINVAL

/-! ### The timer -/

/-- Where a running timer callback stands: it has begun, or it will return `HRTIMER_RESTART`. -/
inductive CbPc
  | off
  | begun
  | restart
  deriving DecidableEq

/-- `struct hrtimer`: queued or not, its callback, and the period last given to it. -/
structure Timer where
  armed : Bool
  cb : CbPc
  periodMs : UInt32
  deriving DecidableEq

/-- `hrtimer_start(timer, ms_to_ktime(ms), HRTIMER_MODE_REL)`. -/
def hrtimerStart (t : Timer) (ms : UInt32) : Timer := { t with armed := true, periodMs := ms }

/-- `hrtimer_cancel(timer)`: it waits for a running callback. -/
def hrtimerCancel (t : Timer) : Option Timer :=
  if t.cb = .off then some { t with armed := false } else none

/-- `sensorhub_timer_cb` as one step, without the sample it pushes: a disabled device gives
`HRTIMER_NORESTART`, an enabled one is forwarded by the configured interval. -/
def timerCb (config : Config) (t : Timer) : Timer :=
  if config.enabled = 0 then { t with armed := false }
  else { t with armed := true, periodMs := config.intervalMs }

/-! ### A configuration call, step by step -/

/-- A write to one of the two sysfs attributes. -/
inductive Store
  | intervalMs (buf : Bytes)
  | enabled (buf : Bytes)

/-- Where a thread stands in a configuration call. -/
inductive CfgPc
  | idle
  /-- `cfg = g_sensorhub->config`, before the read of `interval_ms`. -/
  | snapInterval (st : Store)
  /-- The same, before the read of `enabled`. -/
  | snapEnabled (st : Store) (intervalMs : UInt32)
  /-- `sensorhub_apply_config(dev, cfg)`, before the write of `interval_ms`. -/
  | writeInterval (cfg : Config)
  | writeEnabled (cfg : Config)
  /-- Before `hrtimer_start` or `hrtimer_cancel`. -/
  | timerCall (cfg : Config)

/-- `interval_ms < 10 || interval_ms > 60000`. -/
def intervalBad (ms : UInt32) : Bool := ms < 10 || 60000 < ms

theorem intervalBad_eq_false (ms : UInt32) : intervalBad ms = false ↔ 10 ≤ ms ∧ ms ≤ 60000 := by
  simp only [intervalBad, Bool.or_eq_false_iff, decide_eq_false_iff_not, UInt32.not_lt]

/-- The two stores behind the copy of the configuration: what to apply, or the error. -/
def Store.request (st : Store) (cfg : Config) : Except Errno Config :=
  match st with
  | .intervalMs buf =>
      match kstrtouint buf with
      | .error e => .error e
      | .ok ms => if intervalBad ms then .error .EINVAL else .ok { cfg with intervalMs := ms }
  | .enabled buf =>
      match kstrtobool buf with
      | .error e => .error e
      | .ok b => .ok { cfg with enabled := if b then 1 else 0 }

/-- `SENSORHUB_IOC_SET_CONFIG` in front of `sensorhub_apply_config`. -/
def setConfig (cfg : Config) (fault : Bool) : Except Errno Config :=
  if fault then .error .EFAULT else if intervalBad cfg.intervalMs then .error .EINVAL else .ok cfg

/-- The next step of a call, on the shared configuration and timer. A call that fails its checks
returns at once. -/
def advance (config : Config) (timer : Timer) : CfgPc → Option (Config × Timer × CfgPc)
  | .idle => none
  | .snapInterval st => some (config, timer, .snapEnabled st config.intervalMs)
  | .snapEnabled st intervalMs =>
      match st.request ⟨intervalMs, config.enabled⟩ with
      | .error _ => some (config, timer, .idle)
      | .ok cfg => some (config, timer, .writeInterval cfg)
  | .writeInterval cfg =>
      some ({ config with intervalMs := cfg.intervalMs }, timer, .writeEnabled cfg)
  | .writeEnabled cfg =>
      some ({ config with enabled := if cfg.enabled = 0 then 0 else 1 }, timer, .timerCall cfg)
  | .timerCall cfg =>
      if cfg.enabled = 0 then (hrtimerCancel timer).map fun t => (config, t, .idle)
      else some (config, hrtimerStart timer cfg.intervalMs, .idle)

/-- What a step of a call can do: start or cancel the timer and return, write `enabled`, or leave
`enabled` and the timer alone. -/
theorem advance_cases {config config' : Config} {timer timer' : Timer} {pc pc' : CfgPc}
    (h : advance config timer pc = some (config', timer', pc')) :
    (∃ cfg, pc = .timerCall cfg ∧ cfg.enabled ≠ 0 ∧ config' = config ∧
      timer' = hrtimerStart timer cfg.intervalMs ∧ pc' = .idle) ∨
    (∃ cfg, pc = .timerCall cfg ∧ cfg.enabled = 0 ∧ config' = config ∧ timer.cb = .off ∧
      timer' = { timer with armed := false } ∧ pc' = .idle) ∨
    (∃ cfg, pc = .writeEnabled cfg ∧ timer' = timer ∧ pc' = .timerCall cfg ∧
      config' = { config with enabled := if cfg.enabled = 0 then 0 else 1 }) ∨
    ((∀ cfg, pc ≠ .timerCall cfg) ∧ (∀ cfg, pc' ≠ .timerCall cfg) ∧ pc ≠ .idle ∧
      config'.enabled = config.enabled ∧ timer' = timer) := by
  cases pc with
  | idle => cases h
  | snapInterval st => cases h; exact Or.inr (Or.inr (Or.inr (by simp)))
  | snapEnabled st ms =>
      simp only [advance] at h
      split at h <;> cases h <;> exact Or.inr (Or.inr (Or.inr (by simp)))
  | writeInterval cfg => cases h; exact Or.inr (Or.inr (Or.inr (by simp)))
  | writeEnabled cfg => cases h; exact Or.inr (Or.inr (Or.inl ⟨cfg, rfl, rfl, rfl, rfl⟩))
  | timerCall cfg =>
      simp only [advance, hrtimerCancel] at h
      split_ifs at h with he hc
      · cases h
        exact Or.inr (Or.inl ⟨cfg, rfl, he, rfl, hc, rfl, rfl⟩)
      · cases h
      · cases h
        exact Or.inl ⟨cfg, rfl, he, rfl, rfl, rfl⟩

/-! ### Concurrent calls -/

/-- The configuration, the timer and the threads inside a configuration call. -/
structure CfgSys where
  config : Config
  timer : Timer
  pc : ℕ → CfgPc

/-- The state after `sensorhub_init`: enabled, every 500 ms, timer started. -/
def CfgSys.init : CfgSys := ⟨⟨500, 1⟩, ⟨true, .off, 500⟩, fun _ => .idle⟩

inductive CfgLabel
  /-- Thread `i` enters `SENSORHUB_IOC_SET_CONFIG` with `cfg` in its buffer. -/
  | setConfig (i : ℕ) (cfg : Config) (fault : Bool)
  /-- Thread `i` writes a sysfs attribute. -/
  | store (i : ℕ) (st : Store)
  /-- Thread `i` takes the next step of its call. -/
  | step (i : ℕ)
  /-- The armed timer expires. -/
  | callback

/-- One step; the callback is a single step here. -/
def cfgStep (s : CfgSys) : CfgLabel → Option CfgSys
  | .setConfig i cfg fault =>
      match s.pc i with
      | .idle =>
          match setConfig cfg fault with
          | .error _ => some s
          | .ok cfg => some { s with pc := Function.update s.pc i (.writeInterval cfg) }
      | _ => none
  | .store i st =>
      match s.pc i with
      | .idle => some { s with pc := Function.update s.pc i (.snapInterval st) }
      | _ => none
  | .step i =>
      (advance s.config s.timer (s.pc i)).map fun r =>
        ⟨r.1, r.2.1, Function.update s.pc i r.2.2⟩
  | .callback => if s.timer.armed then some { s with timer := timerCb s.config s.timer } else none

/-- No configuration call is in progress. -/
def Quiescent (s : CfgSys) : Prop := ∀ i, s.pc i = .idle

/-- Some enabling call has its `hrtimer_start` still to come. -/
def StartPending (s : CfgSys) : Prop := ∃ i cfg, s.pc i = .timerCall cfg ∧ cfg.enabled ≠ 0

/-- The condition under which configuration and timer agree: `hrtimer_cancel` does not run while the
device is enabled, unless an enabling call is about to start the timer. -/
def CancelSafe (s : CfgSys) : CfgLabel → Prop
  | .step i => ∀ cfg, s.pc i = .timerCall cfg → cfg.enabled = 0 → s.config.enabled = 1 →
      StartPending s
  | _ => True

/-- An enabled device has its timer armed, or about to be. -/
def Agree (s : CfgSys) : Prop := s.config.enabled = 1 → s.timer.armed = true ∨ StartPending s

/-- A pending start survives the steps of the other threads. -/
theorem exists_start_update {ι : Type*} [DecidableEq ι] {pc : ι → CfgPc} {i : ι}
    (h : ∃ j cfg, pc j = .timerCall cfg ∧ cfg.enabled ≠ 0)
    (hi : ∀ cfg, pc i = .timerCall cfg → cfg.enabled = 0) (pc' : CfgPc) :
    ∃ j cfg, Function.update pc i pc' j = .timerCall cfg ∧ cfg.enabled ≠ 0 := by
  obtain ⟨j, cfg, hj, he⟩ := h
  have hji : j ≠ i := by
    rintro rfl
    exact he (hi cfg hj)
  exact ⟨j, cfg, by rw [Function.update_of_ne hji, hj], he⟩

theorem StartPending.update {s : CfgSys} (h : StartPending s) {i : ℕ}
    (hi : ∀ cfg, s.pc i = .timerCall cfg → cfg.enabled = 0) (config : Config) (timer : Timer)
    (pc' : CfgPc) : StartPending ⟨config, timer, Function.update s.pc i pc'⟩ :=
  exists_start_update h hi pc'

theorem agree_advance {s t : CfgSys} {i : ℕ} (hs : Agree s) (hok : CancelSafe s (.step i))
    (h : cfgStep s (.step i) = some t) : Agree t := by
  simp only [cfgStep, Option.map_eq_some_iff] at h
  obtain ⟨⟨config', timer', pc'⟩, hadv, rfl⟩ := h
  intro hen
  rcases advance_cases hadv with ⟨cfg, -, -, rfl, rfl, -⟩ | ⟨cfg, hpc, he, rfl, -, rfl, -⟩ |
    ⟨cfg, hpc, rfl, rfl, rfl⟩ | ⟨hpc, -, -, hconf, rfl⟩
  · exact Or.inl rfl
  · -- a cancel: the condition gives a pending start, of another thread
    refine Or.inr ((hok cfg hpc he hen).update (fun cfg' h' => ?_) _ _ _)
    rw [hpc] at h'
    cases h'
    exact he
  · refine Or.inr ⟨i, cfg, by simp only [Function.update_self], fun he => ?_⟩
    simp only [he, if_true] at hen
    cases hen
  · rcases hs (hconf ▸ hen) with ha | hp
    · exact Or.inl ha
    · exact Or.inr (hp.update (fun cfg h' => absurd h' (hpc cfg)) _ _ _)

theorem agree_step {s t : CfgSys} {l : CfgLabel} (hs : Agree s) (hok : CancelSafe s l)
    (h : cfgStep s l = some t) : Agree t := by
  cases l with
  | setConfig i cfg fault =>
      simp only [cfgStep] at h
      split at h <;> try cases h
      rename_i hi
      split at h <;> cases h
      · exact hs
      · intro hen
        exact (hs hen).imp_right fun hp => hp.update (fun _ h' => by rw [hi] at h'; cases h') _ _ _
  | store i st =>
      simp only [cfgStep] at h
      split at h <;> cases h
      rename_i hi
      intro hen
      exact (hs hen).imp_right fun hp => hp.update (fun _ h' => by rw [hi] at h'; cases h') _ _ _
  | step i => exact agree_advance hs hok h
  | callback =>
      simp only [cfgStep] at h
      split_ifs at h
      cases h
      intro hen
      left
      simp only [timerCb]
      rw [if_neg (by rw [hen]; decide)]

theorem agree_init : Agree CfgSys.init := fun _ => Or.inl rfl

theorem Quiescent.not_pending {s : CfgSys} (h : Quiescent s) : ¬ StartPending s := by
  rintro ⟨i, cfg, hi, -⟩
  rw [h i] at hi
  cases hi

/-- The last configuration call cancels the timer of an enabled device. -/
theorem unsafe_cancel {s t : CfgSys} {i : ℕ} (hbad : ¬ CancelSafe s (.step i))
    (hlast : ∀ j, j ≠ i → s.pc j = .idle) (h : cfgStep s (.step i) = some t) :
    Quiescent t ∧ t.config.enabled = 1 ∧ t.timer.armed = false := by
  simp only [CancelSafe, not_forall] at hbad
  obtain ⟨cfg, hpc, he, hen, -⟩ := hbad
  simp only [cfgStep, hpc, advance, he, if_true, hrtimerCancel] at h
  split_ifs at h
  · cases h
    refine ⟨?_, hen, rfl⟩
    intro j
    by_cases hj : j = i
    · simp only [hj, Function.update_self]
    · simp only [Function.update_of_ne hj, hlast j hj]
  · cases h

/-- **Configuration and timer.** In every run in which no `hrtimer_cancel` runs behind an enabling
call, a device that reports enabled while no configuration call is in progress has its timer armed.
The condition is needed: when the last call in progress breaks it, the state it leaves is not so. -/
theorem config_timer_agree {ls : List CfgLabel} {s : CfgSys}
    (h : run cfgStep CfgSys.init ls = some s) :
    (AllSteps cfgStep CancelSafe CfgSys.init ls → Quiescent s → s.config.enabled = 1 →
      s.timer.armed = true) ∧
    (∀ t i, ¬ CancelSafe s (.step i) → (∀ j, j ≠ i → s.pc j = .idle) →
      cfgStep s (.step i) = some t →
      Quiescent t ∧ t.config.enabled = 1 ∧ t.timer.armed = false) := by
  refine ⟨?_, fun t i hbad hlast h => unsafe_cancel hbad hlast h⟩
  intro hok hq hen
  have hs : Agree s := run_inv_of Agree (fun _ _ _ hs hok h => agree_step hs hok h) agree_init hok h
  exact (hs hen).resolve_right hq.not_pending

/-- Thread 1 writes `0` to `enabled`; when it is done, thread 2 writes `1`. -/
def storesInTurn : List CfgLabel :=
  [.store 1 (.enabled [48]), .step 1, .step 1, .step 1, .step 1, .step 1,
    .store 2 (.enabled [49]), .step 2, .step 2, .step 2, .step 2, .step 2]

theorem config_timer_agree_storesInTurn : ∃ s, run cfgStep CfgSys.init storesInTurn = some s ∧
    s.config.enabled = 1 ∧ s.timer.armed = true := by
  refine ⟨_, rfl, rfl, (@config_timer_agree storesInTurn _ rfl).1 ?_ ?_ rfl⟩
  · exact .cons rfl trivial <| .cons rfl nofun <| .cons rfl nofun <| .cons rfl nofun <|
      .cons rfl nofun <| .cons rfl (fun _ _ _ hen => nomatch hen) <| .cons rfl trivial <|
      .cons rfl nofun <| .cons rfl nofun <| .cons rfl nofun <| .cons rfl nofun <|
      .cons rfl (fun _ hpc he => by cases hpc; cases he) trivial
  · intro i
    simp only [CfgSys.init, Function.update_apply]
    split_ifs <;> rfl

/-- Thread 1 writes `0` to `enabled`, thread 2 writes `1` between the two halves of that call. -/
def lostStart : List CfgLabel :=
  [.store 1 (.enabled [48]), .step 1, .step 1, .step 1, .step 1,
    .store 2 (.enabled [49]), .step 2, .step 2, .step 2, .step 2, .step 2,
    .step 1]

/-- **Sampling stops while the device reports enabled.** -/
theorem config_timer_disagree : ∃ s, run cfgStep CfgSys.init lostStart = some s ∧ Quiescent s ∧
    s.config.enabled = 1 ∧ s.timer.armed = false := by
  refine ⟨_, rfl, ?_, rfl, rfl⟩
  intro i
  simp only [CfgSys.init, Function.update_apply]
  split_ifs <;> rfl

end SensorHub.Driver
