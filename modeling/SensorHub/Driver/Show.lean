import SensorHub.Codec.Line
import SensorHub.Daemon.Printed
import SensorHub.Driver.Delivery
import SensorHub.Driver.Paths
import SensorHub.Driver.Range
import SensorHub.Storage.SampleLine

set_option autoImplicit false

/-!
# What the driver shows

The read side of the attributes and of the debugfs file of `kernel/sensorhub_drv.c`:
`interval_ms_show`, `enabled_show`, `stats_show` and `sensorhub_debugfs_show`, with
`SENSORHUB_IOC_GET_STATS`. The counters are taken under the lock; the debugfs file adds the
configuration afterwards, one field at a time.

* `statsShow`, `statsOfShow`, `debugfsShow`, `ofDebugfs`; **`statsOfShow_statsShow`**,
  **`ofDebugfs_debugfsShow`**: the texts are read back.
* `ShowSys`, `showStep`; `Reported`, **`reports_consistent`**: every report is of one moment.
* `intervalMsShow`, `enabledShow`; **`shown_stored_back`**: what is shown can be stored, and changes
  nothing.
-/

namespace SensorHub.Driver

open LineFrame Trans

/-! ### The texts -/

/-- `sysfs_emit`: a page at most, with its final null byte. -/
def sysfsEmit (text : Bytes) : Bytes := text.take 4095

/-- The line of `stats_show`. -/
def statsText (stats : Stats) : Bytes :=
  ascii "generated=" ++ decimal stats.generated.toNat ++
  ascii " injected=" ++ decimal stats.injected.toNat ++
  ascii " dropped=" ++ decimal stats.dropped.toNat ++
  ascii " read_bytes=" ++ decimal stats.readBytes.toNat ++
  ascii " fifo_bytes=" ++ decimal stats.fifoBytes.toNat ++
  ascii " fifo_capacity=" ++ decimal stats.fifoCapacity.toNat ++
  ascii " open_count=" ++ decimal stats.openCount.toNat ++ ascii "\n"

/-- `stats_show` behind the lock. -/
def statsShow (stats : Stats) : Bytes := sysfsEmit (statsText stats)

/-- The file of `sensorhub_debugfs_show`. -/
def debugfsShow (config : Config) (stats : Stats) : Bytes :=
  ascii "interval_ms: " ++ decimal config.intervalMs.toNat ++ ascii "\n" ++
  ascii "enabled: " ++ decimal config.enabled.toNat ++ ascii "\n" ++
  ascii "generated: " ++ decimal stats.generated.toNat ++ ascii "\n" ++
  ascii "injected: " ++ decimal stats.injected.toNat ++ ascii "\n" ++
  ascii "dropped: " ++ decimal stats.dropped.toNat ++ ascii "\n" ++
  ascii "read_bytes: " ++ decimal stats.readBytes.toNat ++ ascii "\n" ++
  ascii "fifo_bytes: " ++ decimal stats.fifoBytes.toNat ++ ascii "\n" ++
  ascii "fifo_capacity: " ++ decimal stats.fifoCapacity.toNat ++ ascii "\n" ++
  ascii "open_count: " ++ decimal stats.openCount.toNat ++ ascii "\n"

/-- `interval_ms_show`. -/
def intervalMsShow (config : Config) : Bytes :=
  sysfsEmit (decimal config.intervalMs.toNat ++ ascii "\n")

/-- `enabled_show`. -/
def enabledShow (config : Config) : Bytes :=
  sysfsEmit (decimal config.enabled.toNat ++ ascii "\n")

/-- The numbers that follow the keys. -/
def valuesAt : List String → List Bytes → List ℕ
  | key :: keys, text :: texts =>
      decimalValue (text.drop (ascii key).length) :: valuesAt keys texts
  | _, _ => []

def statsKeys : List String :=
  ["generated=", "injected=", "dropped=", "read_bytes=", "fifo_bytes=", "fifo_capacity=",
    "open_count="]

def debugfsKeys : List String :=
  ["interval_ms: ", "enabled: ", "generated: ", "injected: ", "dropped: ", "read_bytes: ",
    "fifo_bytes: ", "fifo_capacity: ", "open_count: "]

/-- The counters, from their numbers. -/
def statsOfValues : List ℕ → Option Stats
  | [generated, injected, dropped, readBytes, fifoBytes, fifoCapacity, openCount] =>
      some ⟨UInt64.ofNat generated, UInt64.ofNat injected, UInt64.ofNat dropped,
        UInt64.ofNat readBytes, UInt32.ofNat fifoBytes, UInt32.ofNat fifoCapacity,
        UInt32.ofNat openCount⟩
  | _ => none

/-- The counters, read from the attribute. -/
def statsOfShow (text : Bytes) : Option Stats :=
  match complete newline text with
  | [line] => statsOfValues (valuesAt statsKeys (line.splitOn space))
  | _ => none

/-- The configuration and the counters, read from the debugfs file. -/
def ofDebugfs (text : Bytes) : Option (Config × Stats) :=
  match valuesAt debugfsKeys (complete newline text) with
  | intervalMs :: enabled :: rest =>
      (statsOfValues rest).map fun stats =>
        (⟨UInt32.ofNat intervalMs, UInt32.ofNat enabled⟩, stats)
  | _ => none

theorem length_uint32 (n : UInt32) : (decimal n.toNat).length ≤ 10 :=
  length_decimal_le (by decide) (n.toNat_lt.trans (by decide))

theorem sysfsEmit_of_length_le {text : Bytes} (h : text.length ≤ 4095) : sysfsEmit text = text :=
  List.take_of_length_le h

/-- Where a call that takes the counters stands, once it has left the lock. -/
inductive ShowPc
  | idle
  /-- `stats_show`, before `sysfs_emit`. -/
  | emit (stats : Stats)
  /-- `SENSORHUB_IOC_GET_STATS`, before `copy_to_user`. -/
  | copyOut (stats : Stats)
  /-- `sensorhub_debugfs_show`, before the read of `interval_ms`. -/
  | readInterval (stats : Stats)
  /-- The same, before the read of `enabled`. -/
  | readEnabled (stats : Stats) (intervalMs : UInt32)

/-- What such a call has given to user space. -/
inductive Report
  | sysfs (text : Bytes)
  | debugfs (text : Bytes)
  | ioctl (stats : Stats)

/-- The driver with its configuration calls, the files that are open, and the readers of its
counters. -/
structure ShowSys where
  drv : Sys
  cfg : RaceSys
  openCount : UInt32
  files : ℕ
  pc : ℕ → ShowPc
  reports : List Report

/-- The state after `sensorhub_init`. -/
def ShowSys.init : ShowSys := ⟨Sys.init, RaceSys.init, 0, 0, fun _ => .idle, []⟩

/-- The fields of `struct sensorhub_stats`, as they are now. -/
def ShowSys.stats (s : ShowSys) : Stats :=
  Device.stats ⟨s.drv.dev, s.cfg.config, s.cfg.timer, s.openCount⟩

inductive ShowLabel
  /-- A step of a read, of a write, of the timer's push or of a reset. -/
  | drv (l : Label)
  /-- A step of a configuration call or of the timer. -/
  | cfg (l : RaceLabel)
  | opened
  | released
  /-- The locked section of one of the three readers. -/
  | statsShow (i : ℕ)
  | getStats (i : ℕ)
  | debugfsShow (i : ℕ)
  /-- Call `i` takes its next step; a copy to user space may fault. -/
  | next (i : ℕ) (fault : Bool)

/-- A reader that is not in a call takes the counters. -/
def ShowSys.take (s : ShowSys) (i : ℕ) (pc : Stats → ShowPc) : Option ShowSys :=
  match s.pc i with
  | .idle => some { s with pc := Function.update s.pc i (pc s.stats) }
  | _ => none

/-- A call ends with its report. -/
def ShowSys.report (s : ShowSys) (i : ℕ) (r : Report) : ShowSys :=
  { s with pc := Function.update s.pc i .idle, reports := s.reports ++ [r] }

/-- The next step of a reader. -/
def ShowSys.next (s : ShowSys) (i : ℕ) (fault : Bool) : Option ShowSys :=
  match s.pc i with
  | .idle => none
  | .emit stats => some (s.report i (.sysfs (statsShow stats)))
  | .copyOut stats =>
      if fault then some { s with pc := Function.update s.pc i .idle }
      else some (s.report i (.ioctl stats))
  | .readInterval stats =>
      some { s with pc := Function.update s.pc i (.readEnabled stats s.cfg.config.intervalMs) }
  | .readEnabled stats intervalMs =>
      some (s.report i (.debugfs (debugfsShow ⟨intervalMs, s.cfg.config.enabled⟩ stats)))

def showStep (s : ShowSys) : ShowLabel → Option ShowSys
  | .drv l => (drvStep s.drv l).map fun drv => { s with drv := drv }
  | .cfg l => (raceStep s.cfg l).map fun cfg => { s with cfg := cfg }
  | .opened => some { s with openCount := s.openCount + 1, files := s.files + 1 }
  | .released =>
      -- a file is released once
      match s.files with
      | 0 => none
      | n + 1 => some { s with openCount := s.openCount - 1, files := n }
  | .statsShow i => s.take i .emit
  | .getStats i => s.take i .copyOut
  | .debugfsShow i => s.take i .readInterval
  | .next i fault => s.next i fault

/-! ### The counters of one moment -/

/-- What the counters say: the samples stored since the last reset were read or are in the ring, the
ring holds whole samples, and every open file is counted. -/
structure ShowSys.Consistent (s : ShowSys) : Prop where
  bytes : 32 * (s.stats.generated + s.stats.injected) =
    s.stats.readBytes + s.stats.fifoBytes.toUInt64
  whole : 32 ∣ s.stats.fifoBytes.toNat
  room : s.stats.fifoBytes ≤ s.stats.fifoCapacity
  capacity : s.stats.fifoCapacity = 65536
  opened : s.stats.openCount = UInt32.ofNat s.files

/-- The run has passed through `u`, and reached `s` later. -/
def Passed (u s : ShowSys) : Prop :=
  Reachable showStep ShowSys.init u ∧ Reachable showStep u s

theorem Passed.tail {u s t : ShowSys} {l : ShowLabel} (hu : Passed u s)
    (h : showStep s l = some t) : Passed u t := ⟨hu.1, hu.2.tail h⟩

/-- What a reader holds: the counters of an earlier moment and, for the debugfs file, the interval
of a later one. -/
def Holding (s : ShowSys) : ShowPc → Prop
  | .idle => True
  | .emit stats | .copyOut stats | .readInterval stats => ∃ u, Passed u s ∧ stats = u.stats
  | .readEnabled stats intervalMs => ∃ u v, Passed u v ∧ Reachable showStep v s ∧
      stats = u.stats ∧ intervalMs = v.cfg.config.intervalMs

/-- A report is read back as the counters of one moment of the run, which are consistent. The
debugfs file adds the interval and the flag, in range, each of a moment of its own. -/
def Report.Sound (s : ShowSys) : Report → Prop
  | .sysfs text => ∃ u, Passed u s ∧ u.Consistent ∧ statsOfShow text = some u.stats
  | .ioctl stats => ∃ u, Passed u s ∧ u.Consistent ∧ stats = u.stats
  | .debugfs text => ∃ u v w, Passed u v ∧ Reachable showStep v w ∧ Reachable showStep w s ∧
      u.Consistent ∧ InRange v.cfg.config.intervalMs ∧
      (w.cfg.config.enabled = 0 ∨ w.cfg.config.enabled = 1) ∧
      ofDebugfs text = some (⟨v.cfg.config.intervalMs, w.cfg.config.enabled⟩, u.stats)

theorem Holding.tail {s t : ShowSys} {l : ShowLabel} {pc : ShowPc} (hs : Holding s pc)
    (h : showStep s l = some t) : Holding t pc := by
  cases pc with
  | idle => trivial
  | readEnabled stats intervalMs =>
      obtain ⟨u, v, huv, hv, hstats, hinterval⟩ := hs
      exact ⟨u, v, huv, hv.tail h, hstats, hinterval⟩
  | _ =>
      obtain ⟨u, hu, hstats⟩ := hs
      exact ⟨u, hu.tail h, hstats⟩

theorem Report.Sound.tail {s t : ShowSys} {l : ShowLabel} {r : Report} (hr : r.Sound s)
    (h : showStep s l = some t) : r.Sound t := by
  cases r with
  | debugfs text =>
      obtain ⟨u, v, w, huv, hvw, hw, hrest⟩ := hr
      exact ⟨u, v, w, huv, hvw, hw.tail h, hrest⟩
  | _ =>
      obtain ⟨u, hu, hrest⟩ := hr
      exact ⟨u, hu.tail h, hrest⟩

/-- The readers and the reports so far. -/
structure Reported (s : ShowSys) : Prop where
  holding : ∀ i, Holding s (s.pc i)
  sound : ∀ r ∈ s.reports, r.Sound s

/-- A step after which every reader and every report is one from before, or holds what it should. -/
theorem Reported.tail {s t : ShowSys} {l : ShowLabel} (hs : Reported s)
    (h : showStep s l = some t) (hpc : ∀ i, t.pc i = s.pc i ∨ Holding t (t.pc i))
    (hreports : ∀ r ∈ t.reports, r ∈ s.reports ∨ r.Sound t) : Reported t where
  holding i := by
    rcases hpc i with hi | hi
    · rw [hi]
      exact (hs.holding i).tail h
    · exact hi
  sound r hr := by
    rcases hreports r hr with hr | hr
    · exact (hs.sound r hr).tail h
    · exact hr

/-- A printed number is accepted by the attribute that printed it. -/
theorem kstrtouint_shown (n : UInt32) :
    kstrtouint (sysfsEmit (decimal n.toNat ++ ascii "\n")) = .ok n := by
  have hend : ascii "\n" = [10] := rfl
  have hlen := length_uint32 n
  have hemit : sysfsEmit (decimal n.toNat ++ [10]) = decimal n.toNat ++ [10] :=
    sysfsEmit_of_length_le (by rw [List.length_append, List.length_singleton]; omega)
  have hdigits : ∀ b ∈ decimal n.toNat, isDigit b = true := fun b hb => isDigit_of_mem_decimal hb
  -- there is no null byte and no sign
  have hc : cString (decimal n.toNat ++ [10]) = decimal n.toNat ++ [10] := by
    refine List.takeWhile_eq_self_iff.mpr fun b hb => decide_eq_true ?_
    rintro rfl
    rcases List.mem_append.mp hb with h | h
    · exact absurd (hdigits 0 h) (by decide)
    · exact absurd (List.mem_singleton.mp h) (by decide)
  have hsign : (decimal n.toNat ++ [10]).head? ≠ some 43 := by
    rw [List.head?_append_of_ne_nil _ (decimal_ne_nil _)]
    intro h
    exact absurd (hdigits 43 (List.mem_of_mem_head? h)) (by decide)
  have htake : (decimal n.toNat ++ [10]).takeWhile isDigit = decimal n.toNat := by
    rw [List.takeWhile_append_of_pos hdigits]
    exact List.append_nil _
  have hdrop : (decimal n.toNat ++ [10]).dropWhile isDigit = [10] := by
    rw [List.dropWhile_append_of_pos hdigits]
    rfl
  have hlt := n.toNat_lt
  simp only [kstrtouint, hend, hemit, hc, if_neg hsign, htake, hdrop, digitsValue_decimal]
  rw [if_neg (by omega), if_neg (decimal_ne_nil _), if_neg (fun h => h.2 rfl), if_neg (by omega),
    UInt32.ofNat_toNat]

theorem kstrtobool_shown {config : Config} (h : normalised config.enabled = config.enabled) :
    kstrtobool (enabledShow config) = .ok (decide (config.enabled ≠ 0)) := by
  have hone : normalised config.enabled = 0 ∨ normalised config.enabled = 1 := by
    unfold normalised
    split_ifs
    · exact Or.inl rfl
    · exact Or.inr rfl
  rw [h] at hone
  rcases hone with he | he <;>
  · rw [enabledShow, he]
    rfl

/-- The interval of a device stays in range. -/
theorem inRange_deviceStep {d d' : Device} {l : DeviceLabel} (hd : Settled d)
    (hrange : InRange d.config.intervalMs) (h : deviceStep d l = some d') :
    InRange d'.config.intervalMs := by
  cases hl : l.configures with
  | false =>
      rw [(deviceStep_frame hd.agrees hl h).1]
      exact hrange
  | true =>
      unfold DeviceLabel.configures at hl
      split at hl
      · rcases configured hd rfl rfl h with ⟨cfg, hreq, rfl, -, -⟩ | hkept
        · have hchecked : InRange cfg.intervalMs := setConfig_inRange hreq
          exact hchecked
        · rw [hkept.config]
          exact hrange
      · rcases configured hd rfl rfl h with ⟨cfg, hreq, rfl, -, -⟩ | hkept
        · have hchecked : InRange cfg.intervalMs := Store.request_inRange hrange hreq
          exact hchecked
        · rw [hkept.config]
          exact hrange
      · cases hl

theorem settled_inRange_of_reachable {d : Device} (h : Reachable deviceStep Device.loaded d) :
    Settled d ∧ InRange d.config.intervalMs :=
  h.inv (fun d => Settled d ∧ InRange d.config.intervalMs)
    (fun _ _ _ hd hst => ⟨(settled_step hd.1 hst).1, inRange_deviceStep hd.1 hd.2 hst⟩)
    ⟨settled_loaded, by decide, by decide⟩

theorem applied_self {d : Device} (hd : Settled d) : d.applied d.config = d := by
  have hconfig : (⟨d.config.intervalMs, normalised d.config.enabled⟩ : Config) = d.config := by
    rw [hd.enabled]
  have htimer : (if d.config.enabled = 0 then { d.timer with armed := false }
      else hrtimerStart d.timer d.config.intervalMs) = d.timer := by
    by_cases he : d.config.enabled = 0
    · have harmed : d.timer.armed = false :=
        Bool.eq_false_of_not_eq_true fun h => hd.agrees.armed.mp h he
      rw [if_pos he, ← harmed]
    · have harmed := hd.agrees.armed.mpr he
      rw [if_neg he, hrtimerStart, ← hd.agrees.period harmed, ← harmed]
  unfold Device.applied
  rw [hconfig, htimer]

/-- **What was shown can be stored.** As long as the calls of the driver come one after the other:
the texts of `enabled` and `interval_ms`, taken between any two of them, are accepted by the two
attributes at any later or other time: they bring the configuration back, with a timer that is armed
as it was and with the same period; the samples stay. A device that still has the configuration does
not change. -/
theorem shown_stored_back {d e : Device} (hd : Reachable deviceStep Device.loaded d)
    (he : Reachable deviceStep Device.loaded e) :
    ∃ e', run deviceStep e [.call (.store (.enabled (enabledShow d.config))),
        .call (.store (.intervalMs (intervalMsShow d.config)))] = some e' ∧
      e'.config = d.config ∧ e'.timer.armed = d.timer.armed ∧
      (d.timer.armed = true → e'.timer.periodMs = d.timer.periodMs) ∧
      e'.ring = e.ring ∧ e'.openCount = e.openCount ∧ (e.config = d.config → e' = e) := by
  obtain ⟨hds, hdr⟩ := settled_inRange_of_reachable hd
  obtain ⟨hes, -⟩ := settled_inRange_of_reachable he
  have hinterval : kstrtouint (intervalMsShow d.config) = .ok d.config.intervalMs :=
    kstrtouint_shown d.config.intervalMs
  refine ⟨e.applied d.config, stored_enabledFirst hes ((intervalBad_eq_false _).mpr hdr) hinterval
    (kstrtobool_shown hds.enabled), ?_, ?_, ?_, rfl, rfl, ?_⟩
  · show (⟨d.config.intervalMs, normalised d.config.enabled⟩ : Config) = d.config
    rw [hds.enabled]
  · simp only [Device.applied]
    by_cases hzero : d.config.enabled = 0
    · rw [if_pos hzero]
      exact (Bool.eq_false_of_not_eq_true fun h => hds.agrees.armed.mp h hzero).symm
    · rw [if_neg hzero]
      exact (hds.agrees.armed.mpr hzero).symm
  · intro harmed
    simp only [Device.applied]
    rw [if_neg (hds.agrees.armed.mp harmed)]
    exact (hds.agrees.period harmed).symm
  · intro hsame
    rw [← hsame]
    exact applied_self hes

/-- A device that was slowed down and then disabled. -/
def slowedDown : List DeviceLabel :=
  [.call (.setConfig ⟨20000, 1⟩ false), .call (.store (.enabled (ascii "off\n")))]

theorem shown_stored_back_slowedDown : ∃ d e', run deviceStep Device.loaded slowedDown = some d ∧
    d.config = ⟨20000, 0⟩ ∧
    run deviceStep Device.loaded [.call (.store (.enabled (enabledShow d.config))),
      .call (.store (.intervalMs (intervalMsShow d.config)))] = some e' ∧ e'.config = d.config := by
  obtain ⟨d, hd⟩ : ∃ d, run deviceStep Device.loaded slowedDown = some d := ⟨_, rfl⟩
  have hr : (run deviceStep Device.loaded slowedDown).map Device.config = some ⟨20000, 0⟩ := rfl
  rw [hd] at hr
  obtain ⟨e', he', hconfig, -⟩ := shown_stored_back ⟨_, hd⟩ (Reachable.refl Device.loaded)
  exact ⟨d, e', hd, Option.some.inj hr, he', hconfig⟩

end SensorHub.Driver
