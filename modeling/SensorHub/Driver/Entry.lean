import SensorHub.Driver.Calls
import SensorHub.Driver.Config

set_option autoImplicit false

/-!
# One call at a time

The entry points of `kernel/sensorhub_drv.c` from their first statement to their `return`, while no
other operation runs: `sensorhub_read`, `sensorhub_write`, `sensorhub_ioctl` and the two sysfs
stores. A result of `none` says that the call does not return on its own.

* `Device`, `Stats`, `Call`, `Out`; `sensorhubRead`, `sensorhubWrite`, `applyConfig`, `exec`.
* **`read_run`**, **`write_run`**, **`store_run`**, **`setConfig_run`**: the step by step machines
  of `Driver.Calls` and `Driver.Config` do the same when one thread runs alone.
* `LosesSamples`, **`failed_unchanged_iff`**: which failing calls leave the device as it was.
-/

namespace SensorHub.Driver

open Trans

/-- `struct sensorhub_stats`. -/
structure Stats where
  generated : UInt64
  injected : UInt64
  dropped : UInt64
  readBytes : UInt64
  fifoBytes : UInt32
  fifoCapacity : UInt32
  openCount : UInt32
  deriving DecidableEq

/-- `struct sensorhub_device`. -/
structure Device where
  ring : Ring
  config : Config
  timer : Timer
  openCount : UInt32
  deriving DecidableEq

/-- A call with its arguments and with what the outside answers: whether the copy from or to user
space faults, whether a signal ends the wait of a read, and the time. -/
inductive Call
  | read (count : ℕ) (nonblock signal fault : Bool)
  | write (count : ℕ) (fault : Bool) (sample : Sample) (now : UInt64)
  | getConfig (fault : Bool)
  | setConfig (cfg : Config) (fault : Bool)
  | getStats (fault : Bool)
  | reset
  /-- `sensorhub_ioctl` with any other command. -/
  | otherIoctl
  | store (st : Store)

/-- What a successful call returns or copies to its caller. -/
inductive Out
  | samples (bs : Bytes)
  | size (n : ℕ)
  | config (cfg : Config)
  | stats (stats : Stats)
  | zero
  deriving DecidableEq

/-- `sensorhub_read`. -/
def sensorhubRead (d : Ring) (count : ℕ) (nonblock signal fault : Bool) :
    Option (Except Errno Bytes × Ring) :=
  if count < sizeofSample then some (.error .EINVAL, d)
  else if hasData d then
    let (samples, d) := readOut d count
    if fault then some (.error .EFAULT, d) else some (.ok samples, d)
  else if nonblock then some (.error .EAGAIN, d)
  else if signal then some (.error .ERESTARTSYS, d)
  else none

/-- `sensorhub_write`. -/
def sensorhubWrite (d : Ring) (count : ℕ) (fault : Bool) (sample : Sample) (now : UInt64) :
    Except Errno ℕ × Ring :=
  if count ≠ sizeofSample then (.error .EINVAL, d)
  else if fault then (.error .EFAULT, d)
  else (.ok sizeofSample, pushSample d (writeSample sample now) true)

/-- `sensorhub_apply_config`. -/
def applyConfig (timer : Timer) (cfg : Config) : Option (Config × Timer) :=
  let config : Config := ⟨cfg.intervalMs, if cfg.enabled = 0 then 0 else 1⟩
  if cfg.enabled = 0 then (hrtimerCancel timer).map fun t => (config, t)
  else some (config, hrtimerStart timer cfg.intervalMs)

/-- The number of bytes a sysfs store reports as written. -/
def Store.count : Store → ℕ
  | .intervalMs buf => buf.length
  | .enabled buf => buf.length

/-- The fields `SENSORHUB_IOC_GET_STATS` copies out. -/
def Device.stats (d : Device) : Stats where
  generated := d.ring.generated
  injected := d.ring.injected
  dropped := d.ring.dropped
  readBytes := d.ring.readBytes
  fifoBytes := UInt32.ofNat d.ring.fifo.length
  fifoCapacity := UInt32.ofNat fifoBytes
  openCount := d.openCount

/-- A checked configuration is applied, or the error of the check is returned. -/
def Device.configure (d : Device) (request : Except Errno Config) (out : Out) :
    Option (Except Errno Out × Device) :=
  match request with
  | .error e => some (.error e, d)
  | .ok cfg =>
      (applyConfig d.timer cfg).map fun r => (.ok out, { d with config := r.1, timer := r.2 })

/-- The driver's entry points. -/
def exec (d : Device) : Call → Option (Except Errno Out × Device)
  | .read count nonblock signal fault =>
      (sensorhubRead d.ring count nonblock signal fault).map fun r =>
        (r.1.map Out.samples, { d with ring := r.2 })
  | .write count fault sample now =>
      let r := sensorhubWrite d.ring count fault sample now
      some (r.1.map Out.size, { d with ring := r.2 })
  | .getConfig fault => some (if fault then .error .EFAULT else .ok (.config d.config), d)
  | .setConfig cfg fault => d.configure (setConfig cfg fault) .zero
  | .getStats fault => some (if fault then .error .EFAULT else .ok (.stats d.stats), d)
  | .reset => some (.ok .zero, { d with ring := reset d.ring })
  | .otherIoctl => some (.error .ENOTTY, d)
  | .store st => d.configure (st.request d.config) (.size st.count)

/-! ### The step by step machines -/

/-- **A read that runs alone**, step by step. -/
theorem read_run {s : Sys} {i : ℕ} (hi : s.pc i = .idle) {count : ℕ} {nonblock signal fault : Bool}
    {r : Except Errno Bytes} {d : Ring}
    (h : sensorhubRead s.dev count nonblock signal fault = some (r, d)) :
    ∃ ls t, run drvStep s ls = some t ∧ t.dev = d ∧ t.pc = s.pc ∧
      t.log.returns = s.log.returns ++ [.read i r] := by
  have hidle : Function.update s.pc i .idle = s.pc := by rw [← hi, Function.update_eq_self]
  unfold sensorhubRead at h
  split_ifs at h with hc hd hf hn hs
  · cases h
    refine ⟨[.read i count nonblock], s.ret i (.read i (.error .EINVAL)), ?_, rfl, hidle, rfl⟩
    simp [run, drvStep, hi, hc]
  · cases h
    refine ⟨[.read i count nonblock, .check i, .readLock i, .copy i true],
      ((readLocked s count).2.ret i (.read i (.error .EFAULT))), ?_, rfl, hidle, rfl⟩
    simp [run, drvStep, hi, hc, hd, Sys.goto, Sys.ret, readLocked]
  · cases h
    refine ⟨[.read i count nonblock, .check i, .readLock i, .copy i false],
      ((readLocked s count).2.ret i (.read i (.ok (readOut s.dev count).1))), ?_, rfl, hidle, rfl⟩
    simp [run, drvStep, hi, hc, hd, Sys.goto, Sys.ret, readLocked]
  · cases h
    refine ⟨[.read i count nonblock, .check i], s.ret i (.read i (.error .EAGAIN)), ?_, rfl, hidle,
      rfl⟩
    simp [run, drvStep, hi, hc, hd, hn, Sys.goto, Sys.ret]
  · cases h
    refine ⟨[.read i count nonblock, .check i, .test i true],
      s.ret i (.read i (.error .ERESTARTSYS)), ?_, rfl, hidle, rfl⟩
    simp [run, drvStep, hi, hc, hd, hn, Sys.goto, Sys.ret]

/-- **A write that runs alone**, step by step. -/
theorem write_run {s : Sys} {i : ℕ} (hi : s.pc i = .idle) (count : ℕ) (fault : Bool)
    (sample : Sample) (now : UInt64) :
    ∃ ls t, run drvStep s ls = some t ∧
      t.dev = (sensorhubWrite s.dev count fault sample now).2 ∧
      t.log.returns =
        s.log.returns ++ [.write i (sensorhubWrite s.dev count fault sample now).1] := by
  unfold sensorhubWrite
  split_ifs with hc hf
  · refine ⟨[.write i count fault sample now], s.ret i (.write i (.error .EINVAL)), ?_, rfl, rfl⟩
    simp [run, drvStep, hi, hc]
  · refine ⟨[.write i count fault sample now], s.ret i (.write i (.error .EFAULT)), ?_, rfl, rfl⟩
    simp [run, drvStep, hi, hc, hf]
  · refine ⟨[.write i count fault sample now, .pushLock i, .wake i],
      { pushLocked s (writeSample sample now) true with
        pc := wakeUp (Function.update s.pc i (.pushWake true)) }.ret i
          (.write i (.ok sizeofSample)),
      ?_, rfl, rfl⟩
    simp [run, drvStep, hi, not_not.mp hc, hf, Sys.goto, Sys.ret, pushLocked]

/-- `sensorhub_apply_config` that runs alone, step by step. -/
theorem apply_run {s : CfgSys} {i : ℕ} {cfg : Config} (hi : s.pc i = .writeInterval cfg)
    {config : Config} {timer : Timer} (h : applyConfig s.timer cfg = some (config, timer)) :
    run cfgStep s [.step i, .step i, .step i] =
      some ⟨config, timer, Function.update s.pc i .idle⟩ := by
  unfold applyConfig at h
  simp only at h
  split_ifs at h with he
  · obtain ⟨t, ht, hpair⟩ := Option.map_eq_some_iff.mp h
    cases hpair
    simp [run, cfgStep, advance, hi, he, ht]
  · cases h
    simp [run, cfgStep, advance, hi, he]

/-- A call that checks its request in the steps `ls`, and applies it. -/
theorem configure_run {s : CfgSys} {i : ℕ} (hi : s.pc i = .idle) {request : Except Errno Config}
    (ls : List CfgLabel) (herr : ∀ e, request = .error e → run cfgStep s ls = some s)
    (hok : ∀ cfg, request = .ok cfg →
      run cfgStep s ls = some { s with pc := Function.update s.pc i (.writeInterval cfg) })
    {d d' : Device} (hc : d.config = s.config) (ht : d.timer = s.timer) {out : Out}
    {r : Except Errno Out} (h : d.configure request out = some (r, d')) :
    ∃ ms, run cfgStep s ms = some ⟨d'.config, d'.timer, s.pc⟩ := by
  have hidle : Function.update s.pc i .idle = s.pc := by rw [← hi, Function.update_eq_self]
  cases request with
  | error e =>
      cases h
      refine ⟨ls, (herr e rfl).trans ?_⟩
      rw [hc, ht]
  | ok cfg =>
      simp only [Device.configure, ht] at h
      obtain ⟨⟨config, timer⟩, happly, hpair⟩ := Option.map_eq_some_iff.mp h
      cases hpair
      refine ⟨ls ++ [.step i, .step i, .step i], run_append_eq_some.mpr ⟨_, hok cfg rfl, ?_⟩⟩
      have hrest := apply_run (s := { s with pc := Function.update s.pc i (.writeInterval cfg) })
        (i := i) (Function.update_self i _ s.pc) happly
      simpa only [Function.update_idem, hidle] using hrest

/-- **A sysfs store that runs alone**, step by step. -/
theorem store_run {s : CfgSys} {i : ℕ} (hi : s.pc i = .idle) (st : Store) {d d' : Device}
    (hc : d.config = s.config) (ht : d.timer = s.timer) {r : Except Errno Out}
    (h : exec d (.store st) = some (r, d')) :
    ∃ ls, run cfgStep s ls = some ⟨d'.config, d'.timer, s.pc⟩ := by
  simp only [exec, hc] at h
  refine configure_run hi [.store i st, .step i, .step i] ?_ ?_ hc ht h
  · intro e he
    have hidle : Function.update s.pc i .idle = s.pc := by rw [← hi, Function.update_eq_self]
    simp [run, cfgStep, advance, hi, he, hidle]
  · intro cfg hcfg
    simp [run, cfgStep, advance, hi, hcfg]

/-- **A `SENSORHUB_IOC_SET_CONFIG` that runs alone**, step by step. -/
theorem setConfig_run {s : CfgSys} {i : ℕ} (hi : s.pc i = .idle) (cfg : Config) (fault : Bool)
    {d d' : Device} (hc : d.config = s.config) (ht : d.timer = s.timer) {r : Except Errno Out}
    (h : exec d (.setConfig cfg fault) = some (r, d')) :
    ∃ ls, run cfgStep s ls = some ⟨d'.config, d'.timer, s.pc⟩ := by
  refine configure_run hi [.setConfig i cfg fault] ?_ ?_ hc ht h
  · intro e he
    simp [run, cfgStep, hi, he]
  · intro cfg' hcfg
    simp [run, cfgStep, hi, hcfg]

/-! ### Calls that fail -/

/-- The call takes samples out of the ring and then fails to copy them to its caller. -/
def LosesSamples (d : Device) : Call → Prop
  | .read count _ _ fault => sizeofSample ≤ count ∧ hasData d.ring = true ∧ fault = true
  | _ => False

/-- A read of at least one sample from a ring that is not empty takes something out of it. -/
theorem readOut_ne {d : Ring} {count : ℕ} (hc : sizeofSample ≤ count) (hd : hasData d = true) :
    (readOut d count).2 ≠ d := by
  intro heq
  have hfifo : (d.fifo.drop (maxBytes count)).length = d.fifo.length :=
    congrArg (fun r => List.length (Ring.fifo r)) heq
  have hne : d.fifo ≠ [] := by
    rintro hnil
    simp [hasData, hnil] at hd
  have hpos : 0 < d.fifo.length := List.length_pos_iff.mpr hne
  have hmax : 0 < maxBytes count := by
    rw [maxBytes_eq]
    unfold askedSamples sizeofSample readSamples at *
    omega
  rw [List.length_drop] at hfifo
  omega

theorem read_failed_iff {d d' : Ring} {count : ℕ} {nonblock signal fault : Bool} {e : Errno}
    (h : sensorhubRead d count nonblock signal fault = some (.error e, d')) :
    d' = d ↔ ¬ (sizeofSample ≤ count ∧ hasData d = true ∧ fault = true) := by
  unfold sensorhubRead at h
  split_ifs at h with hc hd hf hn hs
  · cases h
    simp only [true_iff]
    omega
  · cases h
    have hle := Nat.le_of_not_lt hc
    exact iff_of_false (readOut_ne hle hd) (not_not.mpr ⟨hle, hd, hf⟩)
  · cases h
  · cases h
    simp [hd]
  · cases h
    simp [hd]

theorem write_failed {d d' : Ring} {count : ℕ} {fault : Bool} {sample : Sample} {now : UInt64}
    {e : Errno} (h : sensorhubWrite d count fault sample now = (.error e, d')) : d' = d := by
  unfold sensorhubWrite at h
  split_ifs at h with hc hf
  · exact (Prod.ext_iff.mp h).2.symm
  · exact (Prod.ext_iff.mp h).2.symm
  · cases (Prod.ext_iff.mp h).1

theorem configure_failed {d d' : Device} {request : Except Errno Config} {out : Out} {e : Errno}
    (h : d.configure request out = some (.error e, d')) : d' = d := by
  cases request with
  | error e' => cases h; rfl
  | ok cfg =>
      obtain ⟨r, -, hpair⟩ := Option.map_eq_some_iff.mp h
      cases hpair

/-- **A failing call changes nothing, except a read that loses samples.** -/
theorem failed_unchanged_iff {d d' : Device} {call : Call} {e : Errno}
    (h : exec d call = some (.error e, d')) : d' = d ↔ ¬ LosesSamples d call := by
  cases call with
  | read count nonblock signal fault =>
      obtain ⟨⟨r | bs, ring⟩, hread, hpair⟩ := Option.map_eq_some_iff.mp h
      · cases hpair
        rw [LosesSamples, ← read_failed_iff hread]
        constructor
        · exact congrArg Device.ring
        · rintro rfl
          rfl
      · cases (Prod.ext_iff.mp hpair).1
  | write count fault sample now =>
      have hpair := Prod.ext_iff.mp (Option.some.inj h)
      rcases hw : sensorhubWrite d.ring count fault sample now with ⟨r | n, ring⟩
      · rw [hw] at hpair
        obtain rfl := hpair.2
        rw [write_failed hw]
        simp [LosesSamples]
      · rw [hw] at hpair
        cases hpair.1
  | getConfig fault =>
      obtain rfl := (Prod.ext_iff.mp (Option.some.inj h)).2
      simp [LosesSamples]
  | setConfig cfg fault => simp [LosesSamples, configure_failed h]
  | getStats fault =>
      obtain rfl := (Prod.ext_iff.mp (Option.some.inj h)).2
      simp [LosesSamples]
  | reset => cases h
  | otherIoctl =>
      obtain rfl := (Prod.ext_iff.mp (Option.some.inj h)).2
      simp [LosesSamples]
  | store st => simp [LosesSamples, configure_failed h]

/-- The device after the first sample of its timer. -/
def firstSample : Device :=
  ⟨pushSample Ring.init (timerSample 5 7) false, CfgSys.init.config, CfgSys.init.timer, 1⟩

theorem failed_unchanged_iff_shortRead : ∃ d', exec firstSample (.read 16 true false true) =
    some (.error .EINVAL, d') ∧ d' = firstSample := by
  have hshort : exec firstSample (.read 16 true false true) = some (.error .EINVAL, firstSample) :=
    rfl
  exact ⟨_, hshort, (failed_unchanged_iff hshort).mpr (by simp [LosesSamples, sizeofSample])⟩

/-- **A read that fails in `copy_to_user` has lost the sample.** -/
theorem failed_read_changes : ∃ d', exec firstSample (.read 32 true false true) =
    some (.error .EFAULT, d') ∧ d'.ring.fifo = [] ∧ d'.ring.readBytes = 32 ∧ d' ≠ firstSample :=
  ⟨_, rfl, rfl, rfl, by decide⟩

end SensorHub.Driver
