import SensorHub.Driver.Config
import SensorHub.Trans.Cell

set_option autoImplicit false

/-!
# Two stores at once

`interval_ms_store` and `enabled_store` each copy the whole configuration, change one field of the
copy and write both fields back. When the two run at the same time, one of them can write back a
value that the other has replaced in the meantime.

* `copiedInterval`, `writesInterval` and their like: how far a call has come.
* `KeepsUpdate`: a store replaces no value that the other has copied and still writes back.
* `intervalCell`, `enabledCell`, `advance_interval`, `advance_enabled`, **`race_step`**: each field
  is a variable that one store sets and the other copies.
* **`updates_kept_iff`**: both updates survive if and only if every step keeps them;
  **`update_lost`**.
-/

namespace SensorHub.Driver

open Trans

/-! ### How far a call has come -/

/-- The next step of the call writes `interval_ms`. -/
def writesInterval : CfgPc → Bool
  | .writeInterval _ => true
  | _ => false

/-- The next step of the call writes `enabled`. -/
def writesEnabled : CfgPc → Bool
  | .writeEnabled _ => true
  | _ => false

/-- The call has written `interval_ms`. -/
def wroteInterval : CfgPc → Bool
  | .snapInterval _ | .snapEnabled _ _ | .writeInterval _ => false
  | _ => true

/-- The call has written `enabled`. -/
def wroteEnabled : CfgPc → Bool
  | .snapInterval _ | .snapEnabled _ _ | .writeInterval _ | .writeEnabled _ => false
  | _ => true

/-- The call has read `interval_ms` and has not written it back. -/
def copiedInterval : CfgPc → Bool
  | .snapEnabled _ _ | .writeInterval _ => true
  | _ => false

/-- The call has read `enabled` and has not written it back. -/
def copiedEnabled : CfgPc → Bool
  | .writeInterval _ | .writeEnabled _ => true
  | _ => false

/-- The condition under which neither update is lost. Thread `a` is in `interval_ms_store` and
thread `b` in `enabled_store`: when `a` writes `interval_ms`, `b` is not between reading that field
and writing it back, or the field holds `i` already; and when `b` writes `enabled`, `a` is not
between reading that field and writing it back, or the field says `e` already. -/
def KeepsUpdate (a b : ℕ) (i : UInt32) (e : Bool) (s : CfgSys) : CfgLabel → Prop
  | .step k =>
      (k = a → writesInterval (s.pc a) = true →
        copiedInterval (s.pc b) = false ∨ s.config.intervalMs = i) ∧
      (k = b → writesEnabled (s.pc b) = true →
        copiedEnabled (s.pc a) = false ∨ (s.config.enabled != 0) = e)
  | _ => True

instance (a b : ℕ) (i : UInt32) (e : Bool) (s : CfgSys) (l : CfgLabel) :
    Decidable (KeepsUpdate a b i e s l) :=
  match l with
  | .step _ => inferInstanceAs (Decidable (_ ∧ _))
  | .setConfig .. | .store .. | .callback => inferInstanceAs (Decidable True)

/-! ### Each field as a variable -/

/-- What the call has read from `interval_ms` and not written back. -/
def intervalCopy : CfgPc → Option UInt32
  | .snapEnabled _ intervalMs => some intervalMs
  | .writeInterval cfg => some cfg.intervalMs
  | _ => none

/-- What the call has read from `enabled` and not written back. -/
def enabledCopy : CfgPc → Option Bool
  | .writeInterval cfg | .writeEnabled cfg => some (cfg.enabled != 0)
  | _ => none

theorem intervalCopy_eq_none (pc : CfgPc) : intervalCopy pc = none ↔ copiedInterval pc = false := by
  cases pc <;> simp [intervalCopy, copiedInterval]

theorem enabledCopy_eq_none (pc : CfgPc) : enabledCopy pc = none ↔ copiedEnabled pc = false := by
  cases pc <;> simp [enabledCopy, copiedEnabled]

/-- `interval_ms`, set by `a` and copied by `b`. -/
def intervalCell (config : Config) (a b : CfgPc) : Cell UInt32 :=
  ⟨config.intervalMs, wroteInterval a, intervalCopy b⟩

/-- `enabled`, set by `b` and copied by `a`. -/
def enabledCell (config : Config) (a b : CfgPc) : Cell Bool :=
  ⟨config.enabled != 0, wroteEnabled b, enabledCopy a⟩

/-- The call is the store `st`, whose request meets `P`, or it has returned. -/
def InStore (st : Store) (P : Config → Prop) : CfgPc → Prop
  | .idle => True
  | .snapInterval st' => st' = st
  | .snapEnabled st' _ => st' = st
  | .writeInterval cfg => P cfg
  | .writeEnabled cfg => P cfg
  | .timerCall cfg => P cfg

/-- `enabled ? 1 : 0`. -/
def flag (e : Bool) : UInt32 := if e then 1 else 0

theorem flag_ne_zero (e : Bool) : (flag e != 0) = e := by
  cases e <;> rfl

theorem norm_ne_zero (n : UInt32) : ((if n = 0 then (0 : UInt32) else 1) != 0) = (n != 0) := by
  by_cases hn : n = 0
  · rw [if_pos hn, hn]
  · rw [if_neg hn]
    exact (bne_iff_ne.mpr hn).symm

/-- `enabled` holds `0` or `1`. -/
def Normal (config : Config) : Prop := config.enabled = flag (config.enabled != 0)

theorem normal_norm (config : Config) (n : UInt32) :
    Normal { config with enabled := if n = 0 then 0 else 1 } := by
  simp only [Normal, norm_ne_zero, flag]
  by_cases hn : n = 0
  · simp [hn]
  · simp [hn]

/-- The last step of a call leaves the configuration alone. -/
theorem advance_timerCall {config config' : Config} {timer timer' : Timer} {cfg : Config}
    {pc' : CfgPc} (h : advance config timer (.timerCall cfg) = some (config', timer', pc')) :
    pc' = .idle ∧ config' = config := by
  simp only [advance] at h
  split_ifs at h
  · obtain ⟨_, -, h⟩ := Option.map_eq_some_iff.mp h
    cases h
    exact ⟨rfl, rfl⟩
  · cases h
    exact ⟨rfl, rfl⟩

section Race

variable {a b : ℕ} {i : UInt32} {e : Bool} {buf buf' : Bytes} {s t : CfgSys} {l : CfgLabel}
variable {config config' : Config} {timer timer' : Timer} {pc pc' : CfgPc}

/-- A step of `interval_ms_store`: it sets `interval_ms`, and copies `enabled` and puts it back. -/
theorem advance_interval (hbuf : kstrtouint buf = .ok i) (hi : intervalBad i = false)
    (hpc : InStore (.intervalMs buf) (fun cfg => cfg.intervalMs = i) pc)
    (h : advance config timer pc = some (config', timer', pc')) (q : CfgPc) :
    InStore (.intervalMs buf) (fun cfg => cfg.intervalMs = i) pc' ∧
    (Normal config → Normal config') ∧
    Cell.Step i (writesInterval pc) (intervalCell config pc q) (intervalCell config' pc' q) ∧
    Cell.Step e false (enabledCell config pc q) (enabledCell config' pc' q) := by
  cases pc with
  | idle => cases h
  | snapInterval st =>
      cases h
      exact ⟨hpc, id, .stay, .stay⟩
  | snapEnabled st ms =>
      have hst : st = .intervalMs buf := hpc
      simp only [advance, hst, Store.request, hbuf, hi] at h
      cases h
      exact ⟨rfl, id, .stay, .take rfl⟩
  | writeInterval cfg =>
      have hcfg : cfg.intervalMs = i := hpc
      cases h
      refine ⟨hcfg, id, ?_, .stay⟩
      simp only [intervalCell, hcfg]
      exact .set rfl
  | writeEnabled cfg =>
      cases h
      refine ⟨hpc, fun _ => normal_norm config cfg.enabled, .stay, ?_⟩
      simp only [enabledCell, norm_ne_zero]
      exact .back rfl
  | timerCall cfg =>
      obtain ⟨rfl, rfl⟩ := advance_timerCall h
      exact ⟨trivial, id, .stay, .stay⟩

/-- A step of `enabled_store`: it sets `enabled`, and copies `interval_ms` and puts it back. -/
theorem advance_enabled (hbuf' : kstrtobool buf' = .ok e)
    (hpc : InStore (.enabled buf') (fun cfg => cfg.enabled = flag e) pc)
    (h : advance config timer pc = some (config', timer', pc')) (q : CfgPc) :
    InStore (.enabled buf') (fun cfg => cfg.enabled = flag e) pc' ∧
    ((wroteEnabled pc = true → Normal config) → wroteEnabled pc' = true → Normal config') ∧
    Cell.Step i false (intervalCell config q pc) (intervalCell config' q pc') ∧
    Cell.Step e (writesEnabled pc) (enabledCell config q pc) (enabledCell config' q pc') := by
  cases pc with
  | idle => cases h
  | snapInterval st =>
      cases h
      exact ⟨hpc, fun _ hw => (by cases hw), .take rfl, .stay⟩
  | snapEnabled st ms =>
      have hst : st = .enabled buf' := hpc
      simp only [advance, hst, Store.request, hbuf'] at h
      cases h
      exact ⟨rfl, fun _ hw => (by cases hw), .stay, .stay⟩
  | writeInterval cfg =>
      cases h
      exact ⟨hpc, fun _ hw => (by cases hw), .back rfl, .stay⟩
  | writeEnabled cfg =>
      have hcfg : cfg.enabled = flag e := hpc
      cases h
      refine ⟨hpc, fun _ _ => normal_norm config cfg.enabled, .stay, ?_⟩
      simp only [enabledCell, norm_ne_zero, hcfg, flag_ne_zero]
      exact .set rfl
  | timerCall cfg =>
      obtain ⟨rfl, rfl⟩ := advance_timerCall h
      exact ⟨trivial, fun hn _ => hn rfl, .stay, .stay⟩

/-- The steps of the two calls, and the timer's callbacks. -/
def Mine (a b : ℕ) (l : CfgLabel) : Prop := l = .step a ∨ l = .step b ∨ l = .callback

/-- Thread `a` is in `interval_ms_store` with `i`, thread `b` in `enabled_store` with `e`. -/
structure Racing (a b : ℕ) (buf buf' : Bytes) (i : UInt32) (e : Bool) (s : CfgSys) : Prop where
  interval : InStore (.intervalMs buf) (fun cfg => cfg.intervalMs = i) (s.pc a)
  enabled : InStore (.enabled buf') (fun cfg => cfg.enabled = flag e) (s.pc b)
  normal : wroteEnabled (s.pc b) = true → Normal s.config

/-- The step is thread `k`'s, and `writes` says what it does next. -/
def setsField (writes : CfgPc → Bool) (k : ℕ) (s : CfgSys) : CfgLabel → Bool
  | .step j => j == k && writes (s.pc k)
  | _ => false

/-- **A step of the race, seen from each of the two fields.** -/
theorem race_step (hab : a ≠ b) (hbuf : kstrtouint buf = .ok i) (hi : intervalBad i = false)
    (hbuf' : kstrtobool buf' = .ok e) (hs : Racing a b buf buf' i e s) (hl : Mine a b l)
    (h : cfgStep s l = some t) : Racing a b buf buf' i e t ∧
    Cell.Step i (setsField writesInterval a s l) (intervalCell s.config (s.pc a) (s.pc b))
      (intervalCell t.config (t.pc a) (t.pc b)) ∧
    Cell.Step e (setsField writesEnabled b s l) (enabledCell s.config (s.pc a) (s.pc b))
      (enabledCell t.config (t.pc a) (t.pc b)) := by
  rcases hl with rfl | rfl | rfl
  · simp only [cfgStep, Option.map_eq_some_iff] at h
    obtain ⟨⟨config', timer', pc'⟩, hadv, rfl⟩ := h
    obtain ⟨hin, hnormal, hinterval, henabled⟩ :=
      advance_interval (e := e) hbuf hi hs.interval hadv (s.pc b)
    simp only [setsField, beq_self_eq_true, Bool.true_and, beq_eq_false_iff_ne.mpr hab,
      Bool.false_and, Function.update_self, Function.update_of_ne hab.symm]
    refine ⟨⟨?_, ?_, ?_⟩, hinterval, henabled⟩
    · simp only [Function.update_self]
      exact hin
    · simp only [Function.update_of_ne hab.symm]
      exact hs.enabled
    · simp only [Function.update_of_ne hab.symm]
      intro hw
      exact hnormal (hs.normal hw)
  · simp only [cfgStep, Option.map_eq_some_iff] at h
    obtain ⟨⟨config', timer', pc'⟩, hadv, rfl⟩ := h
    obtain ⟨hin, hnormal, hinterval, henabled⟩ :=
      advance_enabled (i := i) hbuf' hs.enabled hadv (s.pc a)
    simp only [setsField, beq_self_eq_true, Bool.true_and, beq_eq_false_iff_ne.mpr hab.symm,
      Bool.false_and, Function.update_self, Function.update_of_ne hab]
    refine ⟨⟨?_, ?_, ?_⟩, hinterval, henabled⟩
    · simp only [Function.update_of_ne hab]
      exact hs.interval
    · simp only [Function.update_self]
      exact hin
    · simp only [Function.update_self]
      exact hnormal hs.normal
  · simp only [cfgStep] at h
    split_ifs at h
    cases h
    exact ⟨⟨hs.interval, hs.enabled, hs.normal⟩, .stay, .stay⟩

/-- The condition says that each set is safe. -/
theorem keepsUpdate_iff (a b : ℕ) (i : UInt32) (e : Bool) (s : CfgSys) (l : CfgLabel) :
    KeepsUpdate a b i e s l ↔
      (setsField writesInterval a s l = true →
        Cell.Safe i (intervalCell s.config (s.pc a) (s.pc b))) ∧
      (setsField writesEnabled b s l = true →
        Cell.Safe e (enabledCell s.config (s.pc a) (s.pc b))) := by
  cases l with
  | step k =>
      simp only [KeepsUpdate, setsField, Cell.Safe, intervalCell, enabledCell,
        intervalCopy_eq_none, enabledCopy_eq_none, Bool.and_eq_true, beq_iff_eq, and_imp]
  | _ => simp [KeepsUpdate, setsField]

/-- The two stores are called. -/
theorem race_begin (hq : Quiescent s) (hab : a ≠ b) :
    run cfgStep s [.store a (.intervalMs buf), .store b (.enabled buf')] =
      some { s with
        pc := Function.update (Function.update s.pc a (.snapInterval (.intervalMs buf))) b
          (.snapInterval (.enabled buf')) } := by
  simp [run, cfgStep, hq a, Function.update_of_ne hab.symm, hq b]

/-- **Both updates survive if and only if each store replaces no value under way.** An
`interval_ms_store` of `i` and an `enabled_store` of `e` are called in any state, and nothing else
touches the configuration: when both have returned it is `i` and `e` exactly if, whenever one of
them wrote its field, the other was not between reading it and writing it back, or the field held
the requested value already. -/
theorem updates_kept_iff (hab : a ≠ b) (hq : Quiescent s) (hbuf : kstrtouint buf = .ok i)
    (hlow : 10 ≤ i) (hhigh : i ≤ 60000) (hbuf' : kstrtobool buf' = .ok e) {ls : List CfgLabel}
    (hls : ∀ l ∈ ls, l = .step a ∨ l = .step b ∨ l = .callback)
    (h : run cfgStep s ([.store a (.intervalMs buf), .store b (.enabled buf')] ++ ls) = some t)
    (hdone : Quiescent t) :
    t.config = ⟨i, if e then 1 else 0⟩ ↔
      AllSteps cfgStep (KeepsUpdate a b i e) s
        ([.store a (.intervalMs buf), .store b (.enabled buf')] ++ ls) := by
  have hbegin : run cfgStep s [.store a (.intervalMs buf), .store b (.enabled buf')] = _ :=
    race_begin hq hab
  have hi : intervalBad i = false := (intervalBad_eq_false i).mpr ⟨hlow, hhigh⟩
  obtain ⟨u, hu, hrun⟩ := run_append_eq_some.mp h
  rw [hbegin] at hu
  obtain rfl := Option.some.inj hu
  rw [allSteps_append hbegin, and_iff_right ⟨trivial, fun _ _ => ⟨trivial, fun _ _ => trivial⟩⟩]
  generalize hu : ({ s with pc := _ } : CfgSys) = u at hrun ⊢
  have hua : u.pc a = .snapInterval (.intervalMs buf) := by
    simp [← hu, Function.update_of_ne hab]
  have hub : u.pc b = .snapInterval (.enabled buf') := by simp [← hu]
  have hracing : Racing a b buf buf' i e u := by
    refine ⟨?_, ?_, ?_⟩
    · rw [hua]
      rfl
    · rw [hub]
      rfl
    · rw [hub]
      intro hw
      cases hw
  have hstep : ∀ s l t, Racing a b buf buf' i e s → Mine a b l → cfgStep s l = some t → _ :=
    fun _ _ _ hs hl hst => race_step hab hbuf hi hbuf' hs hl hst
  have hinv : ∀ s l t, Racing a b buf buf' i e s → Mine a b l → cfgStep s l = some t →
      Racing a b buf buf' i e t := fun s l t hs hl hst => (hstep s l t hs hl hst).1
  have hend : Racing a b buf buf' i e t :=
    run_inv_of _ hinv hracing (.of_forall (fun m hm _ => hls m hm) _) hrun
  -- each field on its own
  have hinterval := Cell.kept_iff (f := fun s => intervalCell s.config (s.pc a) (s.pc b))
    (fun s l t hs hl hst => ⟨hinv s l t hs hl hst, (hstep s l t hs hl hst).2.1⟩) hracing
    ⟨by simp [intervalCell, hub, intervalCopy], by simp [intervalCell, hua, wroteInterval]⟩ hls hrun
    (by simp only [intervalCell, hdone a, wroteInterval])
    (by simp only [intervalCell, hdone b, intervalCopy])
  have henabled := Cell.kept_iff (f := fun s => enabledCell s.config (s.pc a) (s.pc b))
    (fun s l t hs hl hst => ⟨hinv s l t hs hl hst, (hstep s l t hs hl hst).2.2⟩) hracing
    ⟨by simp [enabledCell, hua, enabledCopy], by simp [enabledCell, hub, wroteEnabled]⟩ hls hrun
    (by simp only [enabledCell, hdone b, wroteEnabled])
    (by simp only [enabledCell, hdone a, enabledCopy])
  have hnormal : Normal t.config := hend.normal (by rw [hdone b]; rfl)
  have hconfig : t.config = ⟨i, if e then 1 else 0⟩ ↔
      t.config.intervalMs = i ∧ (t.config.enabled != 0) = e := by
    constructor
    · intro hc
      rw [hc]
      exact ⟨rfl, flag_ne_zero e⟩
    · rintro ⟨hms, hen⟩
      rw [Normal, hen] at hnormal
      rw [← hms]
      exact congrArg (Config.mk t.config.intervalMs) hnormal
  have hkeeps := funext fun s => funext fun l => propext (keepsUpdate_iff a b i e s l)
  rw [hconfig, hkeeps, allSteps_and]
  exact and_congr hinterval henabled

end Race

/-- Thread 2 has written its `0` to `enabled` before thread 1 copies that field, and has written
`interval_ms` back before thread 1 writes its `100`. -/
def interleaved : List CfgLabel :=
  [.step 1, .step 2, .step 2, .step 2, .step 2, .step 1, .step 1, .step 2, .step 1, .step 1]

theorem updates_kept_iff_interleaved : ∃ t, run cfgStep CfgSys.init
      ([.store 1 (.intervalMs [49, 48, 48]), .store 2 (.enabled [48])] ++ interleaved) = some t ∧
    t.config = ⟨100, 0⟩ := by
  have hnum : kstrtouint [49, 48, 48] = .ok 100 := rfl
  have hoff : kstrtobool [48] = .ok false := rfl
  have hlabels : ∀ l ∈ interleaved, l = .step 1 ∨ l = .step 2 ∨ l = .callback := by
    simp [interleaved]
  have hidle : Quiescent CfgSys.init := fun _ => rfl
  refine ⟨_, rfl, (updates_kept_iff (by decide) hidle hnum (by decide) (by decide) hoff hlabels
    rfl ?_).mpr ?_⟩
  · intro k
    simp only [CfgSys.init, Function.update_apply]
    split_ifs <;> rfl
  · exact .cons rfl trivial <| .cons rfl trivial <|
      .cons rfl (by decide) <| .cons rfl (by decide) <| .cons rfl (by decide) <|
      .cons rfl (by decide) <| .cons rfl (by decide) <| .cons rfl (by decide) <|
      .cons rfl (by decide) <| .cons rfl (by decide) <| .cons rfl (by decide) <|
      .cons rfl (by decide) trivial

/-- Thread 2 copies the configuration, thread 1 writes `100` to `interval_ms`, thread 2 goes on. -/
def copiedEarly : List CfgLabel :=
  [.step 2, .step 2, .step 1, .step 1, .step 1, .step 1, .step 1, .step 2, .step 2, .step 2]

/-- **The new interval is lost.** -/
theorem update_lost : ∃ t, run cfgStep CfgSys.init
      ([.store 1 (.intervalMs [49, 48, 48]), .store 2 (.enabled [48])] ++ copiedEarly) = some t ∧
    Quiescent t ∧ t.config = ⟨500, 0⟩ := by
  refine ⟨_, rfl, fun k => ?_, rfl⟩
  simp only [CfgSys.init, Function.update_apply]
  split_ifs <;> rfl

end SensorHub.Driver
