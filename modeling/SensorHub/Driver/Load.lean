import SensorHub.Driver.Config
import SensorHub.Trans.Run

set_option autoImplicit false

/-!
# Loading and unloading the driver

`sensorhub_init` of `kernel/sensorhub_drv.c`, statement by statement and with the labels its errors
go to, `sensorhub_exit`, and what users may do in the meantime: the device can be opened as soon as
it is registered, and the attributes can be written as soon as they are there. `held` is what the
module holds of the kernel, the last acquisition first; `misordered` records a release of something
else than the last acquisition.

* `Resource`, `LoadPc`, `Module`; `initAdvance`, `exitAdvance`, `loadStep`.
* `owned`, `Balanced`, **`balanced_step`**: what is held is what the next statement counts on.
* `Unopened`, `Quiet`, **`quiet_step`**: nobody uses a device whose initialisation may fail.
* **`load_unload_balanced`**: every path releases what it acquired, in reverse order.
-/

namespace SensorHub.Driver.Load

open Trans

/-- What `sensorhub_init` acquires, in this order. -/
inductive Resource
  | device
  | fifo
  | misc
  | sysfs
  | debugfs
  deriving DecidableEq

/-- The next statement of `sensorhub_init` or of `sensorhub_exit`. -/
inductive LoadPc
  /-- `sensorhub_init` was not called, or failed to allocate, or `sensorhub_exit` is done. -/
  | unloaded
  | kfifoAlloc
  | miscRegister
  | sysfsCreateGroup
  | debugfsCreateDir
  | hrtimerStart
  /-- `sensorhub_init` has returned 0. -/
  | loaded
  | errDeregisterMisc (ret : Errno)
  | errFreeFifo (ret : Errno)
  | errFreeDev (ret : Errno)
  /-- `sensorhub_init` has returned `ret`. -/
  | failed (ret : Errno)
  | hrtimerCancel
  | debugfsRemove
  | sysfsRemoveGroup
  | miscDeregister
  | kfifoFree
  | kfree
  deriving DecidableEq

/-- The module and what it holds. `opens` counts the open files of the device. -/
structure Module where
  pc : LoadPc
  held : List Resource
  /-- `debugfs_dir` is not `NULL`. -/
  debugfsDir : Bool
  config : Config
  armed : Bool
  opens : ℕ
  misordered : Bool

/-- Not loaded yet. -/
def Module.init : Module := ⟨.unloaded, [], false, ⟨0, 0⟩, false, 0, false⟩

inductive LoadLabel
  /-- `sensorhub_init` is called, and `kzalloc` succeeds or not. -/
  | load (allocated : Bool)
  /-- Its next statement; `result` is the error of the call it makes, if any. -/
  | init (result : Option Errno)
  /-- The next statement of `sensorhub_exit`. -/
  | exit
  | openFile
  | release
  /-- `SENSORHUB_IOC_SET_CONFIG` on an open file. -/
  | ioctl (cfg : Config) (fault : Bool)
  /-- `interval_ms_store` or `enabled_store`. -/
  | store (st : Store)

namespace Module

def acquire (s : Module) (r : Resource) (pc : LoadPc) : Module :=
  { s with held := r :: s.held, pc := pc }

def drop (s : Module) (r : Resource) (pc : LoadPc) : Module :=
  { s with
    held := s.held.erase r, pc := pc
    misordered := s.misordered || s.held.head? ≠ some r }

/-- `sensorhub_apply_config`, if the request is accepted. -/
def configure (s : Module) : Except Errno Config → Module
  | .error _ => s
  | .ok cfg => { s with
      config := ⟨cfg.intervalMs, if cfg.enabled = 0 then 0 else 1⟩, armed := cfg.enabled ≠ 0 }

/-- `sensorhub_init` behind its `kzalloc`. -/
def initAdvance (s : Module) (result : Option Errno) : Option Module :=
  match s.pc, result with
  | .kfifoAlloc, none => some (s.acquire .fifo .miscRegister)
  | .kfifoAlloc, some ret => some { s with pc := .errFreeDev ret }
  | .miscRegister, none => some (s.acquire .misc .sysfsCreateGroup)
  | .miscRegister, some ret => some { s with pc := .errFreeFifo ret }
  | .sysfsCreateGroup, none => some (s.acquire .sysfs .debugfsCreateDir)
  | .sysfsCreateGroup, some ret => some { s with pc := .errDeregisterMisc ret }
  | .debugfsCreateDir, none => some { s.acquire .debugfs .hrtimerStart with debugfsDir := true }
  | .debugfsCreateDir, some _ => some { s with pc := .hrtimerStart, debugfsDir := false }
  | .hrtimerStart, _ => some { s with pc := .loaded, armed := true }
  | .errDeregisterMisc ret, _ => some (s.drop .misc (.errFreeFifo ret))
  | .errFreeFifo ret, _ => some (s.drop .fifo (.errFreeDev ret))
  | .errFreeDev ret, _ => some (s.drop .device (.failed ret))
  | _, _ => none

/-- `sensorhub_exit`; the kernel does not call it while a file of the device is open. -/
def exitAdvance (s : Module) : Option Module :=
  match s.pc with
  | .loaded => if s.opens = 0 then some { s with pc := .hrtimerCancel } else none
  | .hrtimerCancel => some { s with pc := .debugfsRemove, armed := false }
  | .debugfsRemove =>
      if s.debugfsDir then some (s.drop .debugfs .sysfsRemoveGroup)
      else some { s with pc := .sysfsRemoveGroup }
  | .sysfsRemoveGroup => some (s.drop .sysfs .miscDeregister)
  | .miscDeregister => some (s.drop .misc .kfifoFree)
  | .kfifoFree => some (s.drop .fifo .kfree)
  | .kfree => some (s.drop .device .unloaded)
  | _ => none

end Module

/-- Whether `sensorhub_exit` was called. A module that is going away cannot be opened. -/
def LoadPc.going : LoadPc → Bool
  | .hrtimerCancel | .debugfsRemove | .sysfsRemoveGroup | .miscDeregister | .kfifoFree | .kfree =>
      true
  | _ => false

/-- Whether the module can be loaded. -/
def LoadPc.ended : LoadPc → Bool
  | .unloaded | .failed _ => true
  | _ => false

/-- One step. -/
def loadStep (s : Module) : LoadLabel → Option Module
  | .load allocated =>
      if s.pc.ended then
        if allocated then
          some { s with
            pc := .kfifoAlloc, held := .device :: s.held, debugfsDir := false, config := ⟨500, 1⟩
            armed := false, opens := 0 }
        else some { s with pc := .unloaded }
      else none
  | .init result => s.initAdvance result
  | .exit => s.exitAdvance
  | .openFile =>
      if .misc ∈ s.held ∧ s.pc.going = false then some { s with opens := s.opens + 1 } else none
  | .release => if 0 < s.opens then some { s with opens := s.opens - 1 } else none
  | .ioctl cfg fault => if 0 < s.opens then some (s.configure (setConfig cfg fault)) else none
  | .store st => if .sysfs ∈ s.held then some (s.configure (st.request s.config)) else none

/-! ### What is held -/

/-- What the statement at `pc` counts on, the last acquisition first. -/
def owned (debugfsDir : Bool) : LoadPc → List Resource
  | .unloaded | .failed _ => []
  | .kfifoAlloc | .errFreeDev _ | .kfree => [.device]
  | .miscRegister | .errFreeFifo _ | .kfifoFree => [.fifo, .device]
  | .sysfsCreateGroup | .errDeregisterMisc _ | .miscDeregister => [.misc, .fifo, .device]
  | .debugfsCreateDir | .sysfsRemoveGroup => [.sysfs, .misc, .fifo, .device]
  | .hrtimerStart | .loaded | .hrtimerCancel | .debugfsRemove =>
      (if debugfsDir then [.debugfs] else []) ++ [.sysfs, .misc, .fifo, .device]

theorem nodup_owned (debugfsDir : Bool) (pc : LoadPc) : (owned debugfsDir pc).Nodup := by
  cases debugfsDir <;> cases pc <;> simp [owned]

/-- With the attributes the device and its FIFO are there. -/
theorem owned_of_sysfs {debugfsDir : Bool} {pc : LoadPc} (h : .sysfs ∈ owned debugfsDir pc) :
    .device ∈ owned debugfsDir pc ∧ .fifo ∈ owned debugfsDir pc := by
  cases debugfsDir <;> cases pc <;> simp [owned] at h ⊢

theorem owned_ended {debugfsDir : Bool} {pc : LoadPc} (h : pc.ended = true) :
    owned debugfsDir pc = [] := by
  cases pc <;> first | rfl | cases h

structure Balanced (s : Module) : Prop where
  held : s.held = owned s.debugfsDir s.pc
  ordered : s.misordered = false

variable {s t : Module} {l : LoadLabel}

theorem balanced_init : Balanced .init := ⟨rfl, rfl⟩

theorem Balanced.acquire (hs : Balanced s) (r : Resource) {pc : LoadPc} (dir : Bool)
    (h : owned dir pc = r :: owned s.debugfsDir s.pc) :
    Balanced { s.acquire r pc with debugfsDir := dir } :=
  ⟨by change r :: s.held = owned dir pc; rw [h, hs.held], hs.ordered⟩

/-- A release of the last acquisition. -/
theorem Balanced.drop (hs : Balanced s) {r : Resource} {pc : LoadPc}
    (h : owned s.debugfsDir s.pc = r :: owned s.debugfsDir pc) : Balanced (s.drop r pc) := by
  have hheld := hs.held
  rw [h] at hheld
  refine ⟨?_, ?_⟩
  · simp only [Module.drop, hheld, List.erase_cons_head]
  · simp [Module.drop, hheld, hs.ordered]

theorem Balanced.goto (hs : Balanced s) {pc : LoadPc} (h : owned s.debugfsDir pc =
    owned s.debugfsDir s.pc) (armed : Bool) : Balanced { s with pc := pc, armed := armed } :=
  ⟨by rw [h]; exact hs.held, hs.ordered⟩

theorem balanced_initAdvance (hs : Balanced s) {result : Option Errno}
    (h : s.initAdvance result = some t) : Balanced t := by
  unfold Module.initAdvance at h
  cases hpc : s.pc with
  | kfifoAlloc =>
      rw [hpc] at h
      cases result <;> cases h
      · exact hs.acquire _ s.debugfsDir (by rw [hpc]; rfl)
      · exact hs.goto (by rw [hpc]; rfl) s.armed
  | miscRegister =>
      rw [hpc] at h
      cases result <;> cases h
      · exact hs.acquire _ s.debugfsDir (by rw [hpc]; rfl)
      · exact hs.goto (by rw [hpc]; rfl) s.armed
  | sysfsCreateGroup =>
      rw [hpc] at h
      cases result <;> cases h
      · exact hs.acquire _ s.debugfsDir (by rw [hpc]; rfl)
      · exact hs.goto (by rw [hpc]; rfl) s.armed
  | debugfsCreateDir =>
      rw [hpc] at h
      cases result <;> cases h
      · exact hs.acquire _ true (by rw [hpc]; rfl)
      · exact ⟨by rw [hs.held, hpc]; rfl, hs.ordered⟩
  | hrtimerStart =>
      rw [hpc] at h
      cases h
      exact hs.goto (by rw [hpc]; rfl) true
  | errDeregisterMisc ret =>
      rw [hpc] at h
      cases h
      exact hs.drop (by rw [hpc]; rfl)
  | errFreeFifo ret =>
      rw [hpc] at h
      cases h
      exact hs.drop (by rw [hpc]; rfl)
  | errFreeDev ret =>
      rw [hpc] at h
      cases h
      exact hs.drop (by rw [hpc]; rfl)
  | _ => rw [hpc] at h; cases h

theorem balanced_exitAdvance (hs : Balanced s) (h : s.exitAdvance = some t) : Balanced t := by
  unfold Module.exitAdvance at h
  cases hpc : s.pc with
  | loaded =>
      simp only [hpc] at h
      split_ifs at h
      cases h
      exact hs.goto (by rw [hpc]; rfl) s.armed
  | hrtimerCancel =>
      rw [hpc] at h
      cases h
      exact hs.goto (by rw [hpc]; rfl) false
  | debugfsRemove =>
      simp only [hpc] at h
      by_cases hdir : s.debugfsDir = true
      · rw [if_pos hdir] at h
        cases h
        exact hs.drop (by rw [hpc, hdir]; rfl)
      · rw [if_neg hdir] at h
        cases h
        rw [Bool.not_eq_true] at hdir
        exact hs.goto (by rw [hpc, hdir]; rfl) s.armed
  | sysfsRemoveGroup =>
      rw [hpc] at h
      cases h
      exact hs.drop (by rw [hpc]; rfl)
  | miscDeregister =>
      rw [hpc] at h
      cases h
      exact hs.drop (by rw [hpc]; rfl)
  | kfifoFree =>
      rw [hpc] at h
      cases h
      exact hs.drop (by rw [hpc]; rfl)
  | kfree =>
      rw [hpc] at h
      cases h
      exact hs.drop (by rw [hpc]; rfl)
  | _ => rw [hpc] at h; cases h

/-- What users do leaves alone what is held. -/
structure UserStep (s t : Module) : Prop where
  pc : t.pc = s.pc
  held : t.held = s.held
  debugfsDir : t.debugfsDir = s.debugfsDir
  misordered : t.misordered = s.misordered

theorem userStep_configure (s : Module) (request : Except Errno Config) :
    UserStep s (s.configure request) := by
  cases request <;> exact ⟨rfl, rfl, rfl, rfl⟩

/-- **What is held is what the next statement counts on**, after every step. -/
theorem balanced_step (hs : Balanced s) (h : loadStep s l = some t) : Balanced t := by
  have huser : UserStep s t → Balanced t := fun hu =>
    ⟨by rw [hu.held, hu.debugfsDir, hu.pc]; exact hs.held, hu.misordered.trans hs.ordered⟩
  cases l with
  | load allocated =>
      simp only [loadStep] at h
      by_cases hended : s.pc.ended = true
      · have hnone : owned s.debugfsDir s.pc = [] := owned_ended hended
        rw [if_pos hended] at h
        by_cases ha : allocated = true
        · rw [if_pos ha] at h
          cases h
          exact ⟨by rw [hs.held, hnone]; rfl, hs.ordered⟩
        · rw [if_neg ha] at h
          cases h
          exact ⟨by rw [hs.held, hnone]; rfl, hs.ordered⟩
      · rw [if_neg hended] at h
        cases h
  | init result => exact balanced_initAdvance hs h
  | exit => exact balanced_exitAdvance hs h
  | openFile =>
      simp only [loadStep] at h
      split_ifs at h
      cases h
      exact huser ⟨rfl, rfl, rfl, rfl⟩
  | release =>
      simp only [loadStep] at h
      split_ifs at h
      cases h
      exact huser ⟨rfl, rfl, rfl, rfl⟩
  | ioctl cfg fault =>
      simp only [loadStep] at h
      split_ifs at h
      cases h
      exact huser (userStep_configure s _)
  | store st =>
      simp only [loadStep] at h
      split_ifs at h
      cases h
      exact huser (userStep_configure s _)

/-! ### Who uses the device -/

/-- The device is opened once `sensorhub_init` has returned. -/
def Unopened (s : Module) : LoadLabel → Prop
  | .openFile => s.pc = .loaded
  | _ => True

/-- Up to the creation of the attributes, and once `sensorhub_init` has begun to undo itself. -/
def LoadPc.mayFail : LoadPc → Bool
  | .kfifoAlloc | .miscRegister | .sysfsCreateGroup => true
  | .errDeregisterMisc _ | .errFreeFifo _ | .errFreeDev _ | .failed _ => true
  | _ => false

/-- Files are open on a loaded device only, and the timer is not armed where `sensorhub_init` may
fail. -/
structure Quiet (s : Module) : Prop where
  opens : 0 < s.opens → s.pc = .loaded
  armed : s.pc.mayFail = true → s.armed = false

theorem quiet_init : Quiet .init := ⟨fun h => absurd h (lt_irrefl 0), fun _ => rfl⟩

theorem Quiet.closed (hs : Quiet s) (h : s.pc ≠ .loaded) : s.opens = 0 := by
  by_contra hpos
  exact h (hs.opens (Nat.pos_of_ne_zero hpos))

theorem quiet_initAdvance (hs : Quiet s) {result : Option Errno}
    (h : s.initAdvance result = some t) : Quiet t := by
  have hkeep : t.opens = s.opens ∧ (t.pc.mayFail = true → s.pc.mayFail = true ∧ t.armed = s.armed) ∧
      s.pc ≠ .loaded := by
    unfold Module.initAdvance at h
    cases hpc : s.pc <;> rw [hpc] at h <;> cases result <;> cases h <;>
      exact ⟨rfl, by simp [Module.acquire, Module.drop, LoadPc.mayFail], by simp⟩
  obtain ⟨hopens, hfail, hpc⟩ := hkeep
  refine ⟨fun hpos => ?_, fun hmay => ?_⟩
  · rw [hopens, hs.closed hpc] at hpos
    exact absurd hpos (lt_irrefl 0)
  · obtain ⟨hbefore, harmed⟩ := hfail hmay
    rw [harmed]
    exact hs.armed hbefore

theorem quiet_exitAdvance (hs : Quiet s) (h : s.exitAdvance = some t) : Quiet t := by
  have hkeep : t.opens = s.opens ∧ t.pc.mayFail = false ∧ (s.pc = .loaded → s.opens = 0) := by
    unfold Module.exitAdvance at h
    cases hpc : s.pc with
    | loaded =>
        simp only [hpc] at h
        split_ifs at h with hzero
        cases h
        exact ⟨rfl, rfl, fun _ => hzero⟩
    | debugfsRemove =>
        simp only [hpc] at h
        split_ifs at h <;> cases h <;> exact ⟨rfl, rfl, by simp⟩
    | _ =>
        rw [hpc] at h
        cases h <;> exact ⟨rfl, rfl, by simp⟩
  obtain ⟨hopens, hfail, hzero⟩ := hkeep
  refine ⟨fun hpos => ?_, fun hmay => ?_⟩
  · by_cases hpc : s.pc = .loaded
    · rw [hopens, hzero hpc] at hpos
      exact absurd hpos (lt_irrefl 0)
    · rw [hopens, hs.closed hpc] at hpos
      exact absurd hpos (lt_irrefl 0)
  · rw [hfail] at hmay
    cases hmay

/-- **No step disturbs a module that may fail to load**, unless its device is opened early. -/
theorem quiet_step (hb : Balanced s) (hs : Quiet s) (hl : Unopened s l)
    (h : loadStep s l = some t) : Quiet t := by
  cases l with
  | load allocated =>
      simp only [loadStep] at h
      split_ifs at h with hended ha
      · cases h
        exact ⟨fun hpos => absurd hpos (lt_irrefl 0), fun _ => rfl⟩
      · cases h
        refine ⟨fun hpos => ?_, fun hmay => by cases hmay⟩
        have hpc := hs.opens hpos
        rw [hpc] at hended
        cases hended
  | init result => exact quiet_initAdvance hs h
  | exit => exact quiet_exitAdvance hs h
  | openFile =>
      simp only [loadStep] at h
      split_ifs at h
      cases h
      exact ⟨fun _ => hl, hs.armed⟩
  | release =>
      simp only [loadStep] at h
      split_ifs at h with hpos
      cases h
      exact ⟨fun _ => hs.opens hpos, hs.armed⟩
  | ioctl cfg fault =>
      simp only [loadStep] at h
      split_ifs at h with hpos
      cases h
      have hpc := hs.opens hpos
      cases hrequest : setConfig cfg fault with
      | error e => exact hs
      | ok cfg' =>
          refine ⟨hs.opens, fun hmay => ?_⟩
          simp [Module.configure, hpc, LoadPc.mayFail] at hmay
  | store st =>
      simp only [loadStep] at h
      split_ifs at h with hsysfs
      cases h
      cases hrequest : st.request s.config with
      | error e => exact hs
      | ok cfg =>
          -- the attributes are there, so the creation of the group has succeeded
          refine ⟨hs.opens, fun hmay => ?_⟩
          rw [hb.held] at hsysfs
          exfalso
          change s.pc.mayFail = true at hmay
          cases hpc : s.pc <;> rw [hpc] at hsysfs hmay <;>
            simp [owned, LoadPc.mayFail] at hsysfs hmay

/-- **Every path through `sensorhub_init` and `sensorhub_exit` is balanced.** Over any number of
loads, whichever call fails, and whatever users do in between: each release is that of the last
acquisition, nothing is held twice, and nothing is held once `sensorhub_init` has failed or
`sensorhub_exit` is done; a loaded module holds everything, the debugfs directory if it could be
made. If no file is opened before `sensorhub_init` has returned, an open file finds the device and
its FIFO allocated, and a failed `sensorhub_init` leaves no timer armed. -/
theorem load_unload_balanced {ls : List LoadLabel} (h : run loadStep .init ls = some s) :
    s.misordered = false ∧ s.held.Nodup ∧ (s.pc.ended = true → s.held = []) ∧
    (s.pc = .loaded → (∀ r, r ≠ .debugfs → r ∈ s.held) ∧
      (.debugfs ∈ s.held ↔ s.debugfsDir = true)) ∧
    (.sysfs ∈ s.held → .device ∈ s.held ∧ .fifo ∈ s.held) ∧
    (AllSteps loadStep Unopened .init ls →
      (0 < s.opens → .device ∈ s.held ∧ .fifo ∈ s.held) ∧
      (s.pc.mayFail = true → s.armed = false)) := by
  have hb : Balanced s :=
    run_inv Balanced (fun _ _ _ hs hst => balanced_step hs hst) balanced_init h
  have hheld := hb.held
  refine ⟨hb.ordered, by rw [hheld]; exact nodup_owned _ _, ?_, ?_, ?_, ?_⟩
  · intro hended
    rw [hheld, owned_ended hended]
  · intro hpc
    rw [hheld, hpc]
    refine ⟨fun r hr => ?_, ?_⟩
    · cases s.debugfsDir <;> cases r <;> first | decide | exact absurd rfl hr
    · cases s.debugfsDir <;> decide
  · rw [hheld]
    exact owned_of_sysfs
  · intro hok
    have hquiet : Balanced s ∧ Quiet s := by
      refine run_inv_of (fun s => Balanced s ∧ Quiet s) (fun s l t hs hl hst => ?_)
        ⟨balanced_init, quiet_init⟩ hok h
      exact ⟨balanced_step hs.1 hst, quiet_step hs.1 hs.2 hl hst⟩
    refine ⟨fun hpos => ?_, hquiet.2.armed⟩
    rw [hheld, hquiet.2.opens hpos]
    cases s.debugfsDir <;> decide

/-- The group cannot be created; the next attempt succeeds without debugfs, the device is used, and
the module is unloaded. -/
def secondAttempt : List LoadLabel :=
  [.load true, .init none, .init none, .init (some (.other 17)), .init none, .init none, .init none,
    .load true, .init none, .init none, .init none, .init (some (.other 1)), .init none, .openFile,
    .ioctl ⟨100, 1⟩ false, .release, .exit, .exit, .exit, .exit, .exit, .exit, .exit]

theorem load_unload_balanced_secondAttempt : ∃ s, run loadStep .init secondAttempt = some s ∧
    s.pc = .unloaded ∧ s.held = [] ∧ s.misordered = false := by
  obtain ⟨s, hs⟩ : ∃ s, run loadStep .init secondAttempt = some s := ⟨_, rfl⟩
  have hp : (run loadStep .init secondAttempt).map Module.pc = some .unloaded := rfl
  rw [hs] at hp
  have hpc : s.pc = .unloaded := Option.some.inj hp
  obtain ⟨hordered, -, hended, -⟩ := load_unload_balanced hs
  exact ⟨s, hs, hpc, hended (by rw [hpc]; rfl), hordered⟩

/-- A file that was opened early outlives the device, and has left the timer armed. -/
example : (run loadStep .init [.load true, .init none, .init none, .openFile,
    .ioctl ⟨100, 1⟩ false, .init (some (.other 12)), .init none, .init none, .init none]).map
      (fun s => (s.held, s.opens, s.armed)) = some ([], 1, true) := rfl

end SensorHub.Driver.Load
