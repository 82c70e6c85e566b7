import SensorHub.Driver.Entry

set_option autoImplicit false

/-!
# The life of the device

The driver from `sensorhub_init` on, its calls one at a time and its timer in between. What
`Driver.Config` shows to go wrong between calls that overlap cannot happen here.

* `Device.loaded`, `Device.timerCb`; `DeviceLabel`, `deviceStep`.
* `Agrees`, `agrees_step`: the timer is that of the configuration; **`agrees_life`**: always.
* `deviceStep_frame`: who leaves both alone.
* **`enabling_run`**: that the timer may expire between the steps of a call makes no difference.
-/

namespace SensorHub.Driver

open Trans

/-- The device after `sensorhub_init`. -/
def Device.loaded : Device := ⟨Ring.init, CfgSys.init.config, CfgSys.init.timer, 0⟩

/-- `sensorhub_timer_cb`. -/
def Device.timerCb (d : Device) (now : UInt64) (randomValue : UInt32) : Device :=
  { d with
    ring := if d.config.enabled = 0 then d.ring
      else pushSample d.ring (timerSample now randomValue) false
    timer := Driver.timerCb d.config d.timer }

inductive DeviceLabel
  | call (c : Call)
  /-- The armed timer expires. -/
  | callback (now : UInt64) (randomValue : UInt32)
  /-- `sensorhub_open` and `sensorhub_release`. -/
  | opened
  | released

/-- The step ends in `sensorhub_apply_config`, unless a check fails before. -/
def DeviceLabel.configures : DeviceLabel → Bool
  | .call (.setConfig _ _) => true
  | .call (.store _) => true
  | _ => false

def deviceStep (d : Device) : DeviceLabel → Option Device
  | .call c => (exec d c).map Prod.snd
  | .callback now randomValue =>
      if d.timer.armed then some (d.timerCb now randomValue) else none
  | .opened => some { d with openCount := d.openCount + 1 }
  | .released => some { d with openCount := d.openCount - 1 }

/-- The timer is armed while the device is enabled, and with the configured interval. -/
structure Agrees (d : Device) : Prop where
  armed : d.timer.armed = true ↔ d.config.enabled ≠ 0
  period : d.timer.armed = true → d.timer.periodMs = d.config.intervalMs

theorem agrees_loaded : Agrees Device.loaded := ⟨by decide, fun _ => rfl⟩

theorem Agrees.congr {d d' : Device} (hd : Agrees d) (hconfig : d'.config = d.config)
    (htimer : d'.timer = d.timer) : Agrees d' := by
  constructor
  · rw [hconfig, htimer]
    exact hd.armed
  · rw [hconfig, htimer]
    exact hd.period

/-- `sensorhub_apply_config` brings configuration and timer together, whatever they were. -/
theorem agrees_configure {d d' : Device} (hd : Agrees d) {request : Except Errno Config} {out : Out}
    {r : Except Errno Out} (h : d.configure request out = some (r, d')) : Agrees d' := by
  cases request with
  | error e => cases h; exact hd
  | ok cfg =>
      obtain ⟨⟨config, timer⟩, happly, hpair⟩ := Option.map_eq_some_iff.mp h
      cases hpair
      unfold applyConfig at happly
      simp only at happly
      split_ifs at happly with he
      · obtain ⟨t, ht, hpair⟩ := Option.map_eq_some_iff.mp happly
        cases hpair
        unfold hrtimerCancel at ht
        split_ifs at ht
        cases ht
        exact ⟨iff_of_false Bool.false_ne_true (not_not.mpr rfl),
          fun h => absurd h Bool.false_ne_true⟩
      · cases happly
        have hone : (1 : UInt32) ≠ 0 := by decide
        exact ⟨iff_of_true rfl hone, fun _ => rfl⟩

/-- While the timer is armed, its callback leaves the configuration and the timer as they are. -/
theorem timerCb_eq {d : Device} (hd : Agrees d) (harmed : d.timer.armed = true) :
    Driver.timerCb d.config d.timer = d.timer := by
  rw [Driver.timerCb, if_neg (hd.armed.mp harmed), ← hd.period harmed, ← harmed]

/-- A step that does not configure the device changes neither the configuration nor the timer. -/
theorem deviceStep_frame {d d' : Device} {l : DeviceLabel} (hd : Agrees d)
    (hl : l.configures = false) (h : deviceStep d l = some d') :
    d'.config = d.config ∧ d'.timer = d.timer := by
  cases l with
  | call c =>
      obtain ⟨⟨r, d''⟩, hexec, rfl⟩ := Option.map_eq_some_iff.mp h
      cases c with
      | read count nonblock signal fault =>
          obtain ⟨r', -, hpair⟩ := Option.map_eq_some_iff.mp hexec
          cases hpair
          exact ⟨rfl, rfl⟩
      | setConfig cfg fault => cases hl
      | store st => cases hl
      | _ =>
          cases hexec
          exact ⟨rfl, rfl⟩
  | callback now randomValue =>
      simp only [deviceStep] at h
      split_ifs at h with harmed
      cases h
      exact ⟨rfl, timerCb_eq hd harmed⟩
  | opened => cases h; exact ⟨rfl, rfl⟩
  | released => cases h; exact ⟨rfl, rfl⟩

theorem agrees_step {d d' : Device} {l : DeviceLabel} (hd : Agrees d)
    (h : deviceStep d l = some d') : Agrees d' := by
  cases hl : l.configures with
  | false =>
      obtain ⟨hconfig, htimer⟩ := deviceStep_frame hd hl h
      exact hd.congr hconfig htimer
  | true =>
      unfold DeviceLabel.configures at hl
      split at hl
      · obtain ⟨⟨r, d''⟩, hexec, rfl⟩ := Option.map_eq_some_iff.mp h
        exact agrees_configure hd hexec
      · obtain ⟨⟨r, d''⟩, hexec, rfl⟩ := Option.map_eq_some_iff.mp h
        exact agrees_configure hd hexec
      · cases hl

/-- **As long as calls do not overlap, configuration and timer agree.** -/
theorem agrees_life {d : Device} (h : Reachable deviceStep Device.loaded d) : Agrees d :=
  h.inv Agrees (fun _ _ _ hd => agrees_step hd) agrees_loaded

/-! ### The timer during a call -/

/-- How far thread `i` is with an enabling `sensorhub_apply_config`. -/
def Enabling (cfg : Config) (i : ℕ) (s : CfgSys) : Prop :=
  match s.pc i with
  | .writeInterval cfg' => cfg' = cfg
  | .writeEnabled cfg' => cfg' = cfg ∧ s.config.intervalMs = cfg.intervalMs
  | .timerCall cfg' => cfg' = cfg ∧ s.config = ⟨cfg.intervalMs, 1⟩
  | .idle => s.config = ⟨cfg.intervalMs, 1⟩ ∧ s.timer.armed = true ∧
      s.timer.periodMs = cfg.intervalMs
  | _ => False

theorem enabling_advance {s t : CfgSys} {cfg : Config} {i : ℕ} (he : cfg.enabled ≠ 0)
    (hs : Enabling cfg i s) (h : cfgStep s (.step i) = some t) : Enabling cfg i t := by
  obtain ⟨⟨config, timer, pc⟩, hadv, rfl⟩ := Option.map_eq_some_iff.mp h
  unfold Enabling at hs ⊢
  simp only [Function.update_self]
  cases hpc : s.pc i with
  | writeInterval cfg' =>
      rw [hpc] at hs hadv
      cases hs
      cases hadv
      exact ⟨rfl, rfl⟩
  | writeEnabled cfg' =>
      rw [hpc] at hs hadv
      obtain ⟨rfl, hinterval⟩ := hs
      cases hadv
      refine ⟨rfl, ?_⟩
      simp only [hinterval, if_neg he]
  | timerCall cfg' =>
      rw [hpc] at hs hadv
      obtain ⟨rfl, hconfig⟩ := hs
      simp only [advance, if_neg he] at hadv
      cases hadv
      exact ⟨hconfig, rfl, rfl⟩
  | idle =>
      rw [hpc] at hadv
      cases hadv
  | snapInterval st =>
      rw [hpc] at hs
      exact hs.elim
  | snapEnabled st ms =>
      rw [hpc] at hs
      exact hs.elim

theorem enabling_callback {s t : CfgSys} {cfg : Config} {i : ℕ} (hs : Enabling cfg i s)
    (h : cfgStep s .callback = some t) : Enabling cfg i t := by
  simp only [cfgStep] at h
  split_ifs at h
  cases h
  unfold Enabling at hs ⊢
  simp only
  split at hs
  · exact hs
  · exact hs
  · exact hs
  · obtain ⟨hconfig, -, -⟩ := hs
    have hone : (1 : UInt32) ≠ 0 := by decide
    simp only [hconfig, timerCb, if_neg hone, and_self]
  · exact hs.elim

/-- **An enabling call whose steps the timer interrupts** ends as the call that runs alone. -/
theorem enabling_run {s t : CfgSys} {cfg : Config} {i : ℕ} {ls : List CfgLabel}
    (he : cfg.enabled ≠ 0) (hi : s.pc i = .writeInterval cfg)
    (hls : ∀ l ∈ ls, l = .step i ∨ l = .callback) (h : run cfgStep s ls = some t)
    (hidle : t.pc i = .idle) : t.config = ⟨cfg.intervalMs, 1⟩ ∧ t.timer.armed = true ∧
      t.timer.periodMs = cfg.intervalMs := by
  have hstart : Enabling cfg i s := by
    rw [Enabling, hi]
  have hend : Enabling cfg i t := by
    refine run_inv_of (Enabling cfg i) ?_ hstart (.of_forall (fun l hl _ => hls l hl) s) h
    rintro s l t hs (rfl | rfl) hst
    · exact enabling_advance he hs hst
    · exact enabling_callback hs hst
  rw [Enabling, hidle] at hend
  exact hend

end SensorHub.Driver
