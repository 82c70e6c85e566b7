import SensorHub.Driver.Life
import SensorHub.Driver.Update
import SensorHub.Uapi.Text

set_option autoImplicit false

/-!
# Two ways to configure the driver

`SENSORHUB_IOC_SET_CONFIG` replaces the configuration, the two sysfs attributes replace one field of
it each; all of them end in `sensorhub_apply_config`. The calls come one after the other here, with
callbacks of the timer in between.

* `Call.interval`, `Call.enabled`, `acceptedNow`: what a call that succeeds sets.
* `startsNow`: when the timer is started or forwarded, and with which period.
* `Settled`, `Applied`, `deviceStep_cases`, **`settled_step`**: what a step does to all of these.
* `stored_intervalFirst`, `stored_enabledFirst`: two stores and the call that sets both values.
* **`paths_agree`**; **`stopped_period`**: the period of a timer that was stopped.
-/

namespace SensorHub.Driver

open Trans

/-! ### What is observed of a step -/

/-- `enabled ? 1 : 0`, for a word. -/
def normalised (enabled : UInt32) : UInt32 := if enabled = 0 then 0 else 1

/-- The interval that a call sets if it succeeds. -/
def Call.interval : Call → Option UInt32
  | .setConfig cfg _ => some cfg.intervalMs
  | .store (.intervalMs buf) => (kstrtouint buf).toOption
  | _ => none

/-- The value of `enabled` that a call sets if it succeeds. -/
def Call.enabled : Call → Option UInt32
  | .setConfig cfg _ => some (normalised cfg.enabled)
  | .store (.enabled buf) => (kstrtobool buf).toOption.map flag
  | _ => none

/-- The value that a call sets in this step, if it is accepted. -/
def acceptedNow (value : Call → Option UInt32) (d : Device) : DeviceLabel → List UInt32
  | .call c =>
      match exec d c with
      | some (.ok _, _) => (value c).toList
      | _ => []
  | _ => []

/-- The period `sensorhub_apply_config` starts the timer with, if it does. -/
def startedBy : Except Errno Config → List UInt32
  | .ok cfg => if cfg.enabled = 0 then [] else [cfg.intervalMs]
  | .error _ => []

/-- The periods that `hrtimer_start` and `hrtimer_forward_now` are called with in a step. -/
def startsNow (d : Device) : DeviceLabel → List UInt32
  | .call (.setConfig cfg fault) => startedBy (setConfig cfg fault)
  | .call (.store st) => startedBy (st.request d.config)
  | .callback _ _ => if d.config.enabled = 0 then [] else [d.config.intervalMs]
  | _ => []

/-- A timer that is started or forwarded in the step gets the interval that is configured then. -/
def OnTime (d : Device) (l : DeviceLabel) : Prop :=
  ∀ period ∈ startsNow d l, ∀ d', deviceStep d l = some d' → period = d'.config.intervalMs

/-! ### A step -/

/-- The device behind `sensorhub_apply_config`. -/
def Device.applied (d : Device) (cfg : Config) : Device :=
  { d with
    config := ⟨cfg.intervalMs, normalised cfg.enabled⟩
    timer := if cfg.enabled = 0 then { d.timer with armed := false }
      else hrtimerStart d.timer cfg.intervalMs }

/-- Between two calls: no callback runs, `enabled` is `0` or `1`, the timer is that of the
configuration. -/
structure Settled (d : Device) : Prop where
  cb : d.timer.cb = .off
  enabled : normalised d.config.enabled = d.config.enabled
  agrees : Agrees d

theorem settled_loaded : Settled Device.loaded := ⟨rfl, rfl, agrees_loaded⟩

theorem normalised_normalised (e : UInt32) : normalised (normalised e) = normalised e := by
  unfold normalised
  by_cases he : e = 0
  · rw [if_pos he, if_pos rfl]
  · rw [if_neg he, if_neg (by decide)]

theorem normalised_eq_zero {e : UInt32} : normalised e = 0 ↔ e = 0 := by
  unfold normalised
  split_ifs with he
  · exact iff_of_true rfl he
  · exact iff_of_false (by decide) he

theorem normalised_flag (e : Bool) : normalised (flag e) = flag e := by
  cases e <;> rfl

/-- `sensorhub_apply_config` returns. -/
theorem configure_ok {d : Device} (hcb : d.timer.cb = .off) (cfg : Config) (out : Out) :
    d.configure (.ok cfg) out = some (.ok out, d.applied cfg) := by
  unfold Device.configure applyConfig Device.applied
  by_cases he : cfg.enabled = 0
  · simp only [he, if_true, hrtimerCancel, hcb, Option.map_some, normalised]
  · simp only [he, if_false, Option.map_some, normalised]

theorem Settled.applied {d : Device} (hd : Settled d) (cfg : Config) : Settled (d.applied cfg) where
  cb := by
    unfold Device.applied
    by_cases he : cfg.enabled = 0
    · simp only [he, if_true, hd.cb]
    · simp only [he, if_false, hrtimerStart, hd.cb]
  enabled := normalised_normalised cfg.enabled
  agrees := agrees_configure hd.agrees (configure_ok hd.cb cfg .zero)

/-- The configuration `cfg` was checked and applied: what it sets is what was accepted. -/
structure Applied (d : Device) (l : DeviceLabel) (cfg : Config) (d' : Device) : Prop where
  device : d' = d.applied cfg
  interval : cfg.intervalMs = (acceptedNow Call.interval d l).getLastD d.config.intervalMs
  enabled : normalised cfg.enabled = (acceptedNow Call.enabled d l).getLastD d.config.enabled
  starts : startsNow d l = if cfg.enabled = 0 then [] else [cfg.intervalMs]

/-- Neither the configuration nor the timer has changed, and nothing was accepted. -/
structure Untouched (d : Device) (l : DeviceLabel) (d' : Device) : Prop where
  config : d'.config = d.config
  timer : d'.timer = d.timer
  accepted : ∀ value, value = Call.interval ∨ value = Call.enabled → acceptedNow value d l = []
  starts : startsNow d l = [] ∨ d.timer.armed = true ∧ startsNow d l = [d.config.intervalMs]

theorem setConfig_eq_ok {cfg cfg' : Config} {fault : Bool} (h : setConfig cfg fault = .ok cfg') :
    cfg' = cfg := by
  unfold setConfig at h
  split_ifs at h
  cases h
  rfl

/-- The calls that configure the device: the request is applied, or the call fails. -/
theorem configured {d d' : Device} {c : Call} {request : Except Errno Config} {out : Out}
    (hd : Settled d) (hexec : exec d c = d.configure request out)
    (hstarts : startsNow d (.call c) = startedBy request)
    (h : deviceStep d (.call c) = some d') :
    (∃ cfg, request = .ok cfg ∧ d' = d.applied cfg ∧
      (∀ value, acceptedNow value d (.call c) = (value c).toList) ∧
      startsNow d (.call c) = if cfg.enabled = 0 then [] else [cfg.intervalMs]) ∨
    Untouched d (.call c) d' := by
  simp only [deviceStep, hexec] at h
  cases request with
  | error e =>
      cases h
      refine Or.inr ⟨rfl, rfl, ?_, Or.inl hstarts⟩
      intro value _
      simp only [acceptedNow, hexec, Device.configure]
  | ok cfg =>
      rw [configure_ok hd.cb] at hexec h
      cases h
      refine Or.inl ⟨cfg, rfl, rfl, ?_, hstarts⟩
      intro value
      simp only [acceptedNow, hexec]

theorem request_interval {buf : Bytes} {cfg cfg' : Config}
    (h : (Store.intervalMs buf).request cfg = .ok cfg') :
    kstrtouint buf = .ok cfg'.intervalMs ∧ cfg'.enabled = cfg.enabled := by
  simp only [Store.request] at h
  split at h
  · cases h
  · rename_i ms hms
    split_ifs at h
    cases h
    exact ⟨hms, rfl⟩

theorem request_enabled {buf : Bytes} {cfg cfg' : Config}
    (h : (Store.enabled buf).request cfg = .ok cfg') :
    ∃ e, kstrtobool buf = .ok e ∧ cfg' = { cfg with enabled := flag e } := by
  simp only [Store.request] at h
  split at h
  · cases h
  · rename_i e he
    cases h
    exact ⟨e, he, rfl⟩

/-- **What a step does**: it applies what was accepted, or leaves configuration and timer alone. -/
theorem deviceStep_cases {d d' : Device} {l : DeviceLabel} (hd : Settled d)
    (h : deviceStep d l = some d') : (∃ cfg, Applied d l cfg d') ∨ Untouched d l d' := by
  cases hl : l.configures with
  | false =>
      obtain ⟨hconfig, htimer⟩ := deviceStep_frame hd.agrees hl h
      refine Or.inr ⟨hconfig, htimer, ?_, ?_⟩
      · intro value hvalue
        unfold acceptedNow
        split
        · rename_i c
          -- such a call has neither value
          have hnone : value c = none := by
            rcases hvalue with rfl | rfl <;> cases c <;> first | rfl | cases hl
          split
          · rw [hnone, Option.toList_none]
          · rfl
        · rfl
      · unfold startsNow
        split
        · cases hl
        · cases hl
        · simp only [deviceStep] at h
          split_ifs at h with harmed
          rw [if_neg (hd.agrees.armed.mp harmed)]
          exact Or.inr ⟨harmed, rfl⟩
        · exact Or.inl rfl
  | true =>
      unfold DeviceLabel.configures at hl
      split at hl
      · rename_i cfg fault
        rcases configured hd rfl rfl h with ⟨cfg', hreq, hdev, haccepted, hstarts⟩ | hkept
        · cases setConfig_eq_ok hreq
          exact Or.inl ⟨cfg, hdev, by rw [haccepted]; rfl, by rw [haccepted]; rfl, hstarts⟩
        · exact Or.inr hkept
      · rename_i st
        rcases configured hd rfl rfl h with ⟨cfg, hreq, hdev, haccepted, hstarts⟩ | hkept
        · refine Or.inl ⟨cfg, hdev, ?_, ?_, hstarts⟩
          · rw [haccepted]
            cases st with
            | intervalMs buf =>
                rw [Call.interval, (request_interval hreq).1]
                rfl
            | enabled buf =>
                obtain ⟨e, -, rfl⟩ := request_enabled hreq
                rfl
          · rw [haccepted]
            cases st with
            | intervalMs buf =>
                rw [(request_interval hreq).2]
                exact hd.enabled
            | enabled buf =>
                obtain ⟨e, he, rfl⟩ := request_enabled hreq
                rw [Call.enabled, he]
                exact normalised_flag e
        · exact Or.inr hkept
      · cases hl

/-- **A step.** The configuration is what was accepted last, the timer has the period it was given
last, and that was the configured interval. -/
theorem settled_step {d d' : Device} {l : DeviceLabel} (hd : Settled d)
    (h : deviceStep d l = some d') :
    Settled d' ∧ OnTime d l ∧
    d'.config.intervalMs = (acceptedNow Call.interval d l).getLastD d.config.intervalMs ∧
    d'.config.enabled = (acceptedNow Call.enabled d l).getLastD d.config.enabled ∧
    d'.timer.periodMs = (startsNow d l).getLastD d.timer.periodMs := by
  rcases deviceStep_cases hd h with ⟨cfg, ⟨rfl, hinterval, henabled, hstarts⟩⟩ |
    ⟨hconfig, htimer, haccepted, hstarts⟩
  · refine ⟨hd.applied cfg, ?_, hinterval, henabled, ?_⟩
    · intro period hperiod d' hd'
      rw [h] at hd'
      cases hd'
      rw [hstarts] at hperiod
      split_ifs at hperiod
      · cases hperiod
      · exact List.mem_singleton.mp hperiod
    · rw [hstarts, Device.applied]
      by_cases he : cfg.enabled = 0
      · simp only [if_pos he, List.getLastD_nil]
      · simp only [if_neg he]
        rfl
  · refine ⟨⟨by rw [htimer]; exact hd.cb, by rw [hconfig]; exact hd.enabled,
      hd.agrees.congr hconfig htimer⟩, ?_, ?_, ?_, ?_⟩
    · intro period hperiod d'' hd''
      rw [h] at hd''
      cases hd''
      rcases hstarts with hnone | ⟨-, hone⟩
      · rw [hnone] at hperiod
        cases hperiod
      · rw [hone] at hperiod
        rw [hconfig]
        exact List.mem_singleton.mp hperiod
    · rw [haccepted _ (Or.inl rfl), hconfig]
      rfl
    · rw [haccepted _ (Or.inr rfl), hconfig]
      rfl
    · rw [htimer]
      rcases hstarts with hnone | ⟨harmed, hone⟩
      · rw [hnone]
        rfl
      · -- the timer was forwarded by the interval it had
        rw [hone]
        exact hd.agrees.period harmed

/-! ### Two stores and the call that sets both values -/

section Stores

variable {d d₁ : Device} {i e : UInt32} {fault : Bool} {out : Out} {buf buf' : Bytes}

theorem applied_congr {ms en en' : UInt32} (h : normalised en = normalised en') (d : Device) :
    d.applied ⟨ms, en⟩ = d.applied ⟨ms, en'⟩ := by
  have hzero : en = 0 ↔ en' = 0 := by
    rw [← normalised_eq_zero, h, normalised_eq_zero]
  simp only [Device.applied, h, hzero]

/-- A second `sensorhub_apply_config` takes effect alone, but for the period of a timer that the
first one has started and the second one stops. -/
theorem applied_applied (d : Device) (cfg cfg' : Config) :
    ((d.applied cfg).applied cfg').config = (d.applied cfg').config ∧
    ((d.applied cfg).applied cfg').timer.armed = (d.applied cfg').timer.armed ∧
    (((d.applied cfg).applied cfg').timer.periodMs = (d.applied cfg').timer.periodMs ↔
      (cfg'.enabled = 0 → cfg.enabled ≠ 0 → cfg.intervalMs = d.timer.periodMs)) := by
  refine ⟨rfl, ?_, ?_⟩
  · simp only [Device.applied]
    split_ifs <;> rfl
  · simp only [Device.applied]
    by_cases he' : cfg'.enabled = 0
    · by_cases he : cfg.enabled = 0
      · simp only [he, he', if_true, ne_eq, not_true_eq_false, false_imp_iff, implies_true]
      · simp only [he, he', if_true, if_false, hrtimerStart, ne_eq, not_false_eq_true,
          forall_const]
    · simp only [he', if_false, hrtimerStart, false_imp_iff]

theorem applied_applied_eq {cfg cfg' : Config} (h : cfg'.enabled = 0 → cfg.enabled = 0) :
    (d.applied cfg).applied cfg' = d.applied cfg' := by
  simp only [Device.applied]
  by_cases he' : cfg'.enabled = 0
  · simp only [h he', he', if_true]
  · simp only [he', if_false, hrtimerStart]
    split_ifs <;> rfl

theorem exec_setConfig (hd : Settled d)
    (h : exec d (.setConfig ⟨i, e⟩ fault) = some (.ok out, d₁)) :
    intervalBad i = false ∧ d₁ = d.applied ⟨i, e⟩ := by
  cases hreq : setConfig ⟨i, e⟩ fault with
  | error err =>
      rw [exec, hreq] at h
      cases h
  | ok cfg =>
      rw [exec, hreq, configure_ok hd.cb] at h
      cases setConfig_eq_ok hreq
      cases h
      refine ⟨?_, rfl⟩
      unfold setConfig at hreq
      split_ifs at hreq with _ hbad
      exact Bool.eq_false_of_not_eq_true hbad

theorem deviceStep_storeInterval (hd : Settled d) (hbuf : kstrtouint buf = .ok i)
    (hi : intervalBad i = false) :
    deviceStep d (.call (.store (.intervalMs buf))) =
      some (d.applied { d.config with intervalMs := i }) := by
  simp only [deviceStep, exec, Store.request, hbuf, hi, Bool.false_eq_true, if_false,
    configure_ok hd.cb, Option.map_some]

theorem deviceStep_storeEnabled (hd : Settled d) {b : Bool} (hbuf : kstrtobool buf' = .ok b) :
    deviceStep d (.call (.store (.enabled buf'))) =
      some (d.applied { d.config with enabled := flag b }) := by
  simp only [deviceStep, exec, Store.request, hbuf, configure_ok hd.cb, Option.map_some, flag]

theorem normalised_eq_flag (e : UInt32) : normalised e = normalised (flag (decide (e ≠ 0))) := by
  rw [normalised_flag, normalised, flag]
  by_cases he : e = 0
  · simp only [he, if_true, ne_eq, not_true_eq_false, decide_false, Bool.false_eq_true, if_false]
  · simp only [he, if_false, ne_eq, not_false_eq_true, decide_true, if_true]

/-- **First `interval_ms`, then `enabled`.** -/
theorem stored_intervalFirst (hd : Settled d) (hi : intervalBad i = false)
    (hbuf : kstrtouint buf = .ok i) (hbuf' : kstrtobool buf' = .ok (decide (e ≠ 0))) :
    ∃ d₂, run deviceStep d [.call (.store (.intervalMs buf)), .call (.store (.enabled buf'))] =
        some d₂ ∧
      d₂.config = (d.applied ⟨i, e⟩).config ∧
      d₂.timer.armed = (d.applied ⟨i, e⟩).timer.armed ∧
      (d₂.timer.periodMs = (d.applied ⟨i, e⟩).timer.periodMs ↔
        e ≠ 0 ∨ d.config.enabled = 0 ∨ i = d.config.intervalMs) := by
  have hfirst := deviceStep_storeInterval hd hbuf hi
  have hsecond := deviceStep_storeEnabled (hd.applied { d.config with intervalMs := i }) hbuf'
  refine ⟨_, run_cons_eq_some.mpr ⟨_, hfirst, run_cons_eq_some.mpr ⟨_, hsecond, rfl⟩⟩, ?_⟩
  obtain ⟨hconfig, harmed, hperiod⟩ := applied_applied d { d.config with intervalMs := i }
    ⟨i, flag (decide (e ≠ 0))⟩
  rw [applied_congr (normalised_eq_flag e)]
  refine ⟨hconfig, harmed, hperiod.trans ?_⟩
  have hflag : flag (decide (e ≠ 0)) = 0 ↔ e = 0 := by
    rw [← normalised_eq_zero, ← normalised_eq_flag, normalised_eq_zero]
  simp only [hflag]
  by_cases he : e = 0
  · by_cases hen : d.config.enabled = 0
    · simp only [he, hen, ne_eq, not_true_eq_false, false_imp_iff, implies_true, false_or, true_or]
    · rw [hd.agrees.period (hd.agrees.armed.mpr hen)]
      simp only [he, hen, ne_eq, not_true_eq_false, not_false_eq_true, forall_const, false_or]
  · simp only [he, false_imp_iff, ne_eq, not_false_eq_true, true_or]

/-- **First `enabled`, then `interval_ms`.** -/
theorem stored_enabledFirst (hd : Settled d) (hi : intervalBad i = false)
    (hbuf : kstrtouint buf = .ok i) (hbuf' : kstrtobool buf' = .ok (decide (e ≠ 0))) :
    run deviceStep d [.call (.store (.enabled buf')), .call (.store (.intervalMs buf))] =
      some (d.applied ⟨i, e⟩) := by
  have hfirst := deviceStep_storeEnabled hd hbuf'
  have hsecond := deviceStep_storeInterval
    (hd.applied { d.config with enabled := flag (decide (e ≠ 0)) }) hbuf hi
  refine run_cons_eq_some.mpr ⟨_, hfirst, run_cons_eq_some.mpr ⟨_, hsecond, ?_⟩⟩
  rw [run_nil, applied_applied_eq normalised_eq_zero.mp]
  refine congrArg some (applied_congr ?_ d)
  exact (normalised_normalised _).trans (normalised_eq_flag e).symm

end Stores

/-- **The paths agree.** For every sequence of calls, accepted or rejected, and callbacks of the
timer from `sensorhub_init` on:
* the configuration holds the interval accepted last and the value of `enabled` accepted last;
* the timer is armed if and only if `enabled` is `1`;
* it was last started or forwarded with a period that was the configured interval then;
* a `SENSORHUB_IOC_SET_CONFIG` that is accepted leaves the device exactly as a store to `enabled`
  and then one to `interval_ms`, and with the same configuration and armed state as the stores in
  the other order, but then with the same period if and only if it enables the device, finds it
  disabled or finds it with that interval. -/
theorem paths_agree {ls : List DeviceLabel} {d : Device}
    (h : run deviceStep Device.loaded ls = some d) :
    d.config.intervalMs =
      (trace deviceStep (acceptedNow Call.interval) Device.loaded ls).getLastD 500 ∧
    d.config.enabled = (trace deviceStep (acceptedNow Call.enabled) Device.loaded ls).getLastD 1 ∧
    (d.timer.armed = true ↔ d.config.enabled = 1) ∧
    d.timer.periodMs = (trace deviceStep startsNow Device.loaded ls).getLastD 500 ∧
    AllSteps deviceStep OnTime Device.loaded ls ∧
    ∀ i e fault out d₁ buf buf', exec d (.setConfig ⟨i, e⟩ fault) = some (.ok out, d₁) →
      kstrtouint buf = .ok i → kstrtobool buf' = .ok (decide (e ≠ 0)) →
      run deviceStep d [.call (.store (.enabled buf')), .call (.store (.intervalMs buf))] =
        some d₁ ∧
      ∃ d₂, run deviceStep d [.call (.store (.intervalMs buf)), .call (.store (.enabled buf'))] =
          some d₂ ∧
        d₂.config = d₁.config ∧ d₂.timer.armed = d₁.timer.armed ∧
        (d₂.timer.periodMs = d₁.timer.periodMs ↔
          e ≠ 0 ∨ d.config.enabled = 0 ∨ i = d.config.intervalMs) := by
  have hd : Settled d := run_inv Settled (fun _ _ _ hd hst => (settled_step hd hst).1)
    settled_loaded h
  refine ⟨?_, ?_, ?_, ?_, ?_, ?_⟩
  · refine @run_getLastD _ _ _ _ _ Settled (fun d => d.config.intervalMs) ?_ _ _ _
      settled_loaded h
    intro d l d' hd hst
    obtain ⟨hinv, -, hinterval, -⟩ := settled_step hd hst
    exact ⟨hinv, hinterval⟩
  · refine @run_getLastD _ _ _ _ _ Settled (fun d => d.config.enabled) ?_ _ _ _ settled_loaded h
    intro d l d' hd hst
    obtain ⟨hinv, -, -, henabled, -⟩ := settled_step hd hst
    exact ⟨hinv, henabled⟩
  · have hone : d.config.enabled ≠ 0 ↔ d.config.enabled = 1 := by
      rw [← hd.enabled, normalised]
      split_ifs <;> decide
    exact hd.agrees.armed.trans hone
  · refine @run_getLastD _ _ _ _ _ Settled (fun d => d.timer.periodMs) ?_ _ _ _ settled_loaded h
    intro d l d' hd hst
    obtain ⟨hinv, -, -, -, hperiod⟩ := settled_step hd hst
    exact ⟨hinv, hperiod⟩
  · have hall : AllSteps deviceStep (fun _ _ => True) Device.loaded ls :=
      .of_forall (fun _ _ _ => trivial) _
    refine (allSteps_congr ?_ settled_loaded h).mpr hall
    intro d l d' hd hst
    obtain ⟨hinv, hontime, -⟩ := settled_step hd hst
    exact ⟨iff_of_true hontime trivial, fun _ => hinv⟩
  · intro i e fault out d₁ buf buf' hset hbuf hbuf'
    obtain ⟨hi, rfl⟩ := exec_setConfig hd hset
    exact ⟨stored_enabledFirst hd hi hbuf hbuf', stored_intervalFirst hd hi hbuf hbuf'⟩

/-- The device is disabled, a bad interval is refused, and `100` is stored while it is disabled;
then it is enabled, and its timer expires. -/
def disabledMeanwhile : List DeviceLabel :=
  [.call (.setConfig ⟨200, 7⟩ false), .callback 5 7, .call (.store (.enabled (ascii "off\n"))),
    .call (.store (.intervalMs (ascii "5\n"))), .call (.store (.intervalMs (ascii "100\n"))),
    .call (.store (.enabled (ascii "1\n"))), .callback 6 8]

theorem paths_agree_disabledMeanwhile : ∃ d,
    run deviceStep Device.loaded disabledMeanwhile = some d ∧
    d.config = ⟨100, 1⟩ ∧ d.timer.armed = true ∧
    d.timer.periodMs =
      (trace deviceStep startsNow Device.loaded disabledMeanwhile).getLastD 500 ∧
    AllSteps deviceStep OnTime Device.loaded disabledMeanwhile := by
  obtain ⟨d, hd, hconfig⟩ : ∃ d, run deviceStep Device.loaded disabledMeanwhile = some d ∧
      d.config = ⟨100, 1⟩ := ⟨_, rfl, rfl⟩
  obtain ⟨-, -, harmed, hperiod, hontime, -⟩ := paths_agree hd
  refine ⟨d, hd, hconfig, harmed.mpr ?_, hperiod, hontime⟩
  rw [hconfig]

/-- **The period of a stopped timer.** A fresh device is disabled with the interval `100`, by
`SENSORHUB_IOC_SET_CONFIG` or by the two stores: its timer was last started with another period. -/
theorem stopped_period : ∃ d₁ d₂,
    exec Device.loaded (.setConfig ⟨100, 0⟩ false) = some (.ok .zero, d₁) ∧
    kstrtouint (ascii "100") = .ok 100 ∧ kstrtobool (ascii "0") = .ok false ∧
    run deviceStep Device.loaded
      [.call (.store (.intervalMs (ascii "100"))), .call (.store (.enabled (ascii "0")))] =
        some d₂ ∧
    d₁.timer.periodMs = 500 ∧ d₂.timer.periodMs = 100 :=
  ⟨_, _, rfl, rfl, rfl, rfl, rfl, rfl⟩

end SensorHub.Driver
