import SensorHub.Driver.Paths

set_option autoImplicit false

/-!
# The ioctl interface, byte by byte

`sensorhub_ioctl` of `kernel/sensorhub_drv.c` as it meets `SensorDevice` of
`userspace/src/device/sensor_device.cpp`: command numbers, structures in memory, and copies between
the kernel's stack and the caller's buffer. `struct sensorhub_stats` ends with four bytes of
padding; the kernel's copy of it lies where older values lie on the stack.

* `ioc`, `iocGetConfig` … `iocReset`: the numbers of `include/sensorhub_uapi.h`.
* `configBytes`, `configOfBytes`, `Stats.store`, `Stats.ofBytes`: the structures in memory.
* `sensorhubIoctl`, `callOf`: a request in bytes, and the call that it is.
* `getStats`, `getConfig`, `setConfigCall`: the members of `SensorDevice`.
* **`ioctl_exec`**, **`ioctl_user`**, **`ioctl_interface`**: the bytes carry the calls, and nothing
  else.
-/

namespace SensorHub.Driver

open Trans LittleEndian

/-! ### Command numbers -/

/-- `_IOC(dir, SENSORHUB_IOC_MAGIC, nr, size)`; `SENSORHUB_IOC_MAGIC` is `'S'`. -/
def ioc (dir nr size : UInt32) : UInt32 :=
  (dir <<< 30) ||| (size <<< 16) ||| ((83 : UInt32) <<< 8) ||| nr

/-- `_IOC_SIZE`. -/
def iocSize (cmd : UInt32) : ℕ := ((cmd >>> 16) &&& 16383).toNat

/-- `sizeof(struct sensorhub_config)`. -/
def sizeofConfig : ℕ := 8

/-- `sizeof(struct sensorhub_stats)`, with its padding. -/
def sizeofStats : ℕ := 48

/-- `SENSORHUB_IOC_GET_CONFIG`. -/
def iocGetConfig : UInt32 := ioc 2 1 8

/-- `SENSORHUB_IOC_SET_CONFIG`. -/
def iocSetConfig : UInt32 := ioc 1 2 8

/-- `SENSORHUB_IOC_GET_STATS`. -/
def iocGetStats : UInt32 := ioc 2 3 48

/-- `SENSORHUB_IOC_RESET`. -/
def iocReset : UInt32 := ioc 0 4 0

/-! ### Structures in memory -/

/-- A configuration in memory. -/
def configBytes (cfg : Config) : Bytes := toLE 4 cfg.intervalMs.toNat ++ toLE 4 cfg.enabled.toNat

/-- The configuration at the start of a buffer. -/
def configOfBytes (bs : Bytes) : Config :=
  ⟨UInt32.ofNat (ofLE (bs.take 4)), UInt32.ofNat (ofLE ((bs.drop 4).take 4))⟩

/-- The fields of the counters, in memory. -/
def Stats.fields (stats : Stats) : Bytes :=
  toLE 8 stats.generated.toNat ++ toLE 8 stats.injected.toNat ++ toLE 8 stats.dropped.toNat ++
    toLE 8 stats.readBytes.toNat ++ toLE 4 stats.fifoBytes.toNat ++
    toLE 4 stats.fifoCapacity.toNat ++ toLE 4 stats.openCount.toNat

/-- The fields are assigned, and the padding keeps what is there. -/
def Stats.store (stats : Stats) (mem : Bytes) : Bytes := stats.fields ++ mem.drop 44

/-- The counters at the start of a buffer. -/
def Stats.ofBytes (bs : Bytes) : Stats where
  generated := UInt64.ofNat (ofLE (bs.take 8))
  injected := UInt64.ofNat (ofLE ((bs.drop 8).take 8))
  dropped := UInt64.ofNat (ofLE ((bs.drop 16).take 8))
  readBytes := UInt64.ofNat (ofLE ((bs.drop 24).take 8))
  fifoBytes := UInt32.ofNat (ofLE ((bs.drop 32).take 4))
  fifoCapacity := UInt32.ofNat (ofLE ((bs.drop 36).take 4))
  openCount := UInt32.ofNat (ofLE ((bs.drop 40).take 4))

/-- `memset(&stats, 0, sizeof(stats))`. -/
def memsetStats (mem : Bytes) : Bytes := List.replicate sizeofStats 0 ++ mem.drop sizeofStats

/-! ### A request -/

/-- `copy_to_user`, which may fault behind its first `k` bytes. -/
def copyToUser (user bytes : Bytes) : Option ℕ → Except Errno Unit × Bytes
  | none => (.ok (), bytes ++ user.drop bytes.length)
  | some k => (.error .EFAULT, bytes.take k ++ user.drop (bytes.take k).length)

/-- `sensorhub_ioctl`. The caller's memory at `arg` is `user`, that of the local `stats` is `stack`;
`fault` says where the copy from or to user space faults. -/
def sensorhubIoctl (d : Device) (cmd : UInt32) (user stack : Bytes) (fault : Option ℕ) :
    Option (Except Errno Unit × Device × Bytes) :=
  if cmd = iocGetConfig then
    let (r, user) := copyToUser user (configBytes d.config) fault
    some (r, d, user)
  else if cmd = iocSetConfig then
    if fault.isSome then some (.error .EFAULT, d, user)
    else
      let cfg := configOfBytes user
      if intervalBad cfg.intervalMs then some (.error .EINVAL, d, user)
      else (applyConfig d.timer cfg).map fun r =>
        (.ok (), { d with config := r.1, timer := r.2 }, user)
  else if cmd = iocGetStats then
    let stats := (d.stats.store (memsetStats stack)).take sizeofStats
    let (r, user) := copyToUser user stats fault
    some (r, d, user)
  else if cmd = iocReset then some (.ok (), { d with ring := reset d.ring }, user)
  else some (.error .ENOTTY, d, user)

/-- The call that a request is. -/
def callOf (cmd : UInt32) (user : Bytes) (fault : Option ℕ) : Call :=
  if cmd = iocGetConfig then .getConfig fault.isSome
  else if cmd = iocSetConfig then .setConfig (configOfBytes user) fault.isSome
  else if cmd = iocGetStats then .getStats fault.isSome
  else if cmd = iocReset then .reset
  else .otherIoctl

/-- What a call copies to its caller, in bytes. -/
def Out.bytes : Out → Bytes
  | .config cfg => configBytes cfg
  | .stats counters => counters.fields ++ List.replicate 4 0
  | _ => []

theorem ofBytes_configBytes (cfg : Config) (rest : Bytes) :
    configOfBytes (configBytes cfg ++ rest) = cfg := by
  simp [configOfBytes, configBytes, Sample.ofLE_toLE_u32]

theorem length_configBytes (cfg : Config) : (configBytes cfg).length = sizeofConfig := by
  simp [configBytes, sizeofConfig]

theorem length_fields (stats : Stats) : stats.fields.length = 44 := by
  simp [Stats.fields]

theorem ofBytes_fields (stats : Stats) (rest : Bytes) :
    Stats.ofBytes (stats.fields ++ rest) = stats := by
  simp [Stats.ofBytes, Stats.fields, List.drop_append, List.drop_of_length_le,
    Sample.ofLE_toLE_u32, Sample.ofLE_toLE_u64]

/-- What `SENSORHUB_IOC_GET_STATS` copies does not depend on what was on the stack. -/
theorem store_memset (stats : Stats) (stack : Bytes) :
    (stats.store (memsetStats stack)).take sizeofStats = stats.fields ++ List.replicate 4 0 := by
  have hpad : (memsetStats stack).drop 44 = List.replicate 4 0 ++ stack.drop 48 := by
    rw [memsetStats, sizeofStats, List.drop_append_of_le_length (by simp), List.drop_replicate]
  rw [Stats.store, hpad, ← List.append_assoc]
  refine List.take_left' ?_
  rw [List.length_append, length_fields, List.length_replicate, sizeofStats]

/-! ### Bytes and calls -/

variable (d : Device) (cmd : UInt32) (user stack : Bytes) (fault : Option ℕ)

theorem copyToUser_fst (user bytes : Bytes) (fault : Option ℕ) :
    (copyToUser user bytes fault).1 = if fault.isSome then .error .EFAULT else .ok () := by
  cases fault with
  | none => rfl
  | some k => rfl

/-- **A request does what its call does.** -/
theorem ioctl_exec : (sensorhubIoctl d cmd user stack fault).map (fun r => (r.1, r.2.1)) =
    (exec d (callOf cmd user fault)).map fun r => (r.1.map fun _ => (), r.2) := by
  unfold sensorhubIoctl callOf
  by_cases hget : cmd = iocGetConfig
  · simp only [if_pos hget, exec, Option.map_some, copyToUser_fst]
    cases fault with
    | none => rfl
    | some k => rfl
  by_cases hset : cmd = iocSetConfig
  · simp only [if_neg hget, if_pos hset, exec, setConfig]
    cases fault with
    | some k => rfl
    | none =>
        by_cases hbad : intervalBad (configOfBytes user).intervalMs = true
        · simp [hbad, Device.configure, Except.map]
        · simp only [hbad, Device.configure, Option.isSome_none, Bool.false_eq_true, if_false,
            Option.map_map]
          rfl
  by_cases hstats : cmd = iocGetStats
  · simp only [if_neg hget, if_neg hset, if_pos hstats, exec, Option.map_some, copyToUser_fst]
    cases fault with
    | none => rfl
    | some k => rfl
  by_cases hreset : cmd = iocReset
  · simp only [if_neg hget, if_neg hset, if_neg hstats, if_pos hreset, exec, Option.map_some]
    rfl
  · simp only [if_neg hget, if_neg hset, if_neg hstats, if_neg hreset, exec, Option.map_some]
    rfl

/-- What was on the kernel's stack has no influence. -/
theorem ioctl_stack (stack' : Bytes) :
    sensorhubIoctl d cmd user stack fault = sensorhubIoctl d cmd user stack' fault := by
  unfold sensorhubIoctl
  rw [store_memset, store_memset]

/-- A copy ends where its bytes end. -/
theorem drop_copyToUser {user bytes : Bytes} {n : ℕ} (hn : bytes.length ≤ n) (fault : Option ℕ) :
    (copyToUser user bytes fault).2.drop n = user.drop n := by
  have hcopy : ∀ bs : Bytes, bs.length ≤ n → (bs ++ user.drop bs.length).drop n = user.drop n := by
    intro bs hbs
    rw [List.drop_append, List.drop_of_length_le hbs, List.nil_append, List.drop_drop]
    congr 1
    omega
  cases fault with
  | none => exact hcopy bytes hn
  | some k => exact hcopy (bytes.take k) ((List.length_take_le' k bytes).trans hn)

/-- **A request writes to the bytes that its number allows it**, and to no others. -/
theorem ioctl_user {r : Except Errno Unit} {d' : Device} {user' : Bytes}
    (h : sensorhubIoctl d cmd user stack fault = some (r, d', user')) :
    user'.drop (iocSize cmd) = user.drop (iocSize cmd) := by
  unfold sensorhubIoctl at h
  by_cases hget : cmd = iocGetConfig
  · rw [if_pos hget] at h
    cases h
    refine drop_copyToUser ?_ fault
    rw [length_configBytes, hget]
    decide
  by_cases hset : cmd = iocSetConfig
  · rw [if_neg hget, if_pos hset] at h
    by_cases hfault : fault.isSome = true
    · rw [if_pos hfault] at h
      cases h
      rfl
    · rw [if_neg hfault] at h
      by_cases hbad : intervalBad (configOfBytes user).intervalMs = true
      · simp only [hbad, if_true] at h
        cases h
        rfl
      · simp only [hbad] at h
        obtain ⟨c, -, hpair⟩ := Option.map_eq_some_iff.mp h
        cases hpair
        rfl
  by_cases hstats : cmd = iocGetStats
  · rw [if_neg hget, if_neg hset, if_pos hstats, store_memset] at h
    cases h
    refine drop_copyToUser ?_ fault
    rw [List.length_append, length_fields, List.length_replicate, hstats]
    decide
  by_cases hreset : cmd = iocReset
  · rw [if_neg hget, if_neg hset, if_neg hstats, if_pos hreset] at h
    cases h
    rfl
  · rw [if_neg hget, if_neg hset, if_neg hstats, if_neg hreset] at h
    cases h
    rfl

/-! ### The members of the daemon's device -/

/-- A failing `ioctl` throws; its text has the action and the error. -/
abbrev IoctlError := Bytes × Errno

/-- `SensorDevice::get_stats`. -/
def getStats : Option (Except IoctlError Stats × Device) :=
  (sensorhubIoctl d iocGetStats (List.replicate sizeofStats 0) stack none).map fun r =>
    match r.1 with
    | .ok () => (.ok (Stats.ofBytes r.2.2), r.2.1)
    | .error e => (.error (ascii "ioctl GET_STATS", e), r.2.1)

/-- `SensorDevice::get_config`. -/
def getConfig : Option (Except IoctlError Config × Device) :=
  (sensorhubIoctl d iocGetConfig (List.replicate sizeofConfig 0) stack none).map fun r =>
    match r.1 with
    | .ok () => (.ok (configOfBytes r.2.2), r.2.1)
    | .error e => (.error (ascii "ioctl GET_CONFIG", e), r.2.1)

/-- `SensorDevice::set_config`. -/
def setConfigCall (cfg : Config) : Option (Except IoctlError Unit × Device) :=
  (sensorhubIoctl d iocSetConfig (configBytes cfg) stack none).map fun r =>
    match r.1 with
    | .ok () => (.ok (), r.2.1)
    | .error e => (.error (ascii "ioctl SET_CONFIG", e), r.2.1)

theorem getStats_eq : getStats d stack = some (.ok d.stats, d) := by
  have hioctl : sensorhubIoctl d iocGetStats (List.replicate sizeofStats 0) stack none =
      some (.ok (), d, d.stats.fields ++ (List.replicate 4 0 ++ [])) := by
    unfold sensorhubIoctl
    rw [if_neg (by decide), if_neg (by decide), if_pos rfl, store_memset]
    simp [copyToUser, length_fields, sizeofStats]
  rw [getStats, hioctl, Option.map_some]
  simp only [ofBytes_fields]

theorem getConfig_eq : getConfig d stack = some (.ok d.config, d) := by
  have hioctl : sensorhubIoctl d iocGetConfig (List.replicate sizeofConfig 0) stack none =
      some (.ok (), d, configBytes d.config ++ []) := by
    unfold sensorhubIoctl
    rw [if_pos rfl]
    simp [copyToUser, length_configBytes]
  rw [getConfig, hioctl, Option.map_some]
  simp only [ofBytes_configBytes]

variable {d}

theorem setConfigCall_eq (hcb : d.timer.cb = .off) (cfg : Config) : setConfigCall d stack cfg =
    some (if intervalBad cfg.intervalMs then (.error (ascii "ioctl SET_CONFIG", .EINVAL), d)
      else (.ok (), d.applied cfg)) := by
  have hload : configOfBytes (configBytes cfg) = cfg := by
    have hback := ofBytes_configBytes cfg []
    rwa [List.append_nil] at hback
  unfold setConfigCall sensorhubIoctl
  rw [if_neg (by decide), if_pos rfl, hload]
  by_cases hbad : intervalBad cfg.intervalMs = true
  · simp only [hbad, Option.isSome_none, Bool.false_eq_true, if_false, if_true, Option.map_some]
  · obtain ⟨r, hr, hpair⟩ := Option.map_eq_some_iff.mp (configure_ok hcb cfg .zero)
    have hdev : ({ d with config := r.1, timer := r.2 } : Device) = d.applied cfg :=
      (Prod.ext_iff.mp hpair).2
    simp only [hbad, hr, hdev, Option.isSome_none, Bool.false_eq_true, if_false, Option.map_some]

/-- The calls of the interface return. -/
theorem exec_callOf (hcb : d.timer.cb = .off) : ∃ r, exec d (callOf cmd user fault) = some r := by
  have hconfigure : ∀ request, ∃ r, d.configure request .zero = some r := by
    intro request
    cases request with
    | error e => exact ⟨_, rfl⟩
    | ok cfg => exact ⟨_, configure_ok hcb cfg .zero⟩
  unfold callOf
  by_cases hget : cmd = iocGetConfig
  · rw [if_pos hget]
    exact ⟨_, rfl⟩
  by_cases hset : cmd = iocSetConfig
  · rw [if_neg hget, if_pos hset]
    exact hconfigure _
  by_cases hstats : cmd = iocGetStats
  · rw [if_neg hget, if_neg hset, if_pos hstats]
    exact ⟨_, rfl⟩
  by_cases hreset : cmd = iocReset
  · rw [if_neg hget, if_neg hset, if_neg hstats, if_pos hreset]
    exact ⟨_, rfl⟩
  · rw [if_neg hget, if_neg hset, if_neg hstats, if_neg hreset]
    exact ⟨_, rfl⟩

/-- **The interface carries calls, and nothing else.** For every device whose callback is not
running, every command number and every buffer, whatever is on the kernel's stack and wherever a
copy faults:
the request returns with the result of its call and the device that the call leaves; it depends on
no byte of the stack, and writes to no byte of the caller beyond the size in its number. So
`get_stats` and `get_config` return the counters and the configuration of the device, and
`set_config` applies an interval between 10 and 60000 and refuses any other with `EINVAL`. -/
theorem ioctl_interface (hcb : d.timer.cb = .off) :
    (∃ r d' user', sensorhubIoctl d cmd user stack fault = some (r, d', user') ∧
      (exec d (callOf cmd user fault)).map (fun r => (r.1.map fun _ => (), r.2)) = some (r, d') ∧
      (∀ stack', sensorhubIoctl d cmd user stack' fault = some (r, d', user')) ∧
      user'.drop (iocSize cmd) = user.drop (iocSize cmd)) ∧
    getStats d stack = some (.ok d.stats, d) ∧ getConfig d stack = some (.ok d.config, d) ∧
    ∀ cfg, setConfigCall d stack cfg =
      some (if 10 ≤ cfg.intervalMs ∧ cfg.intervalMs ≤ 60000 then (.ok (), d.applied cfg)
        else (.error (ascii "ioctl SET_CONFIG", .EINVAL), d)) := by
  refine ⟨?_, getStats_eq d stack, getConfig_eq d stack, fun cfg => ?_⟩
  · have hexec := ioctl_exec d cmd user stack fault
    obtain ⟨result, hresult⟩ := exec_callOf cmd user fault hcb
    rw [hresult, Option.map_some] at hexec
    obtain ⟨⟨r, d', user'⟩, hioctl, hpair⟩ := Option.map_eq_some_iff.mp hexec
    refine ⟨r, d', user', hioctl, ?_, fun stack' => ?_, ioctl_user d cmd user stack fault hioctl⟩
    · rw [hresult, Option.map_some, ← hpair]
    · rw [ioctl_stack d cmd user stack' fault stack, hioctl]
  · rw [setConfigCall_eq stack hcb]
    cases hbad : intervalBad cfg.intervalMs with
    | false => rw [if_neg Bool.false_ne_true, if_pos ((intervalBad_eq_false _).mp hbad)]
    | true =>
        rw [if_pos rfl, if_neg]
        intro hrange
        rw [(intervalBad_eq_false _).mpr hrange] at hbad
        cases hbad

theorem ioctl_interface_loaded : ∃ r d' user',
    sensorhubIoctl Device.loaded iocGetStats (List.replicate 50 7) (List.replicate 48 9) none =
      some (r, d', user') ∧ user'.drop 44 = [0, 0, 0, 0, 7, 7] ∧
    getStats Device.loaded (List.replicate 48 9) =
      some (.ok Device.loaded.stats, Device.loaded) := by
  obtain ⟨⟨r, d', user', hioctl, -⟩, hstats, -⟩ := ioctl_interface iocGetStats (List.replicate 50 7)
    (List.replicate 48 9) none (d := Device.loaded) rfl
  have huser : (sensorhubIoctl Device.loaded iocGetStats (List.replicate 50 7)
      (List.replicate 48 9) none).map (fun r => r.2.2.drop 44) = some [0, 0, 0, 0, 7, 7] := by
    decide +kernel
  rw [hioctl] at huser
  exact ⟨r, d', user', hioctl, Option.some.inj huser, hstats⟩

end SensorHub.Driver
