import SensorHub.Driver.Delivery
import SensorHub.Daemon.Printed
import SensorHub.Storage.SampleLine

set_option autoImplicit false

/-!
# Injected values

`userspace/tools/sensor_inject.cpp`, any number of processes of it at once, beside the timer of the
driver, its readers and its resets, which interleave as in `Driver.Calls`. The path a process is
given may lead to the driver's node or to some other file.

* `injectValue`, `stoi_signedDecimal`: the arguments; `InjectPc`, `Bench`, `benchStep`: the
  processes on the driver.
* `outside_step`: what the other threads do to them; `given`, `Accounted`, `accounted_step`: the
  samples of type `user` are the values of the processes that were served.
* **`injections_accounted`**.
-/

namespace SensorHub

open Trans Driver

/-! ### The arguments -/

/-- `device`, from the arguments behind the name of the program. -/
def injectDevice (args : List Bytes) : Bytes := args.headD (ascii "/dev/sensorhub0")

/-- `value`. -/
def injectValue : List Bytes → Except ConfigError Int32
  | _ :: text :: _ => (stoi text).map Int32.ofInt
  | _ => .ok 12345

/-- `ex.what()`. -/
def ConfigError.what : ConfigError → Bytes
  | .runtime what | .invalidArgument what | .outOfRange what => what

/-- **A number that is written out is read again.** -/
theorem stoi_signedDecimal {v : ℤ} (hlow : -2 ^ 31 ≤ v) (hhigh : v < 2 ^ 31) :
    stoi (signedDecimal v) = .ok v := by
  have hscan : scanNumeral (signedDecimal v) = some (decide (v < 0), v.natAbs) := by
    cases v with
    | ofNat n =>
        rw [show signedDecimal (Int.ofNat n) = decimal n from rfl,
          scanNumeral_numeral (numeral_decimal n), numeralValue_decimal]
        simp
    | negSucc n =>
        have hdigits : ∀ b ∈ decimal (n + 1), isDigit b = true :=
          fun b hb => isDigit_of_mem_decimal hb
        have htake : (decimal (n + 1)).takeWhile isDigit = decimal (n + 1) :=
          List.takeWhile_eq_self_iff.mpr hdigits
        have hsign : signedDecimal (.negSucc n) = 45 :: decimal (n + 1) := rfl
        rw [hsign]
        simp only [scanNumeral, List.dropWhile_cons_of_neg (show ¬ isSpace 45 = true by decide),
          List.head?_cons, true_or, if_true, List.tail_cons, htake, if_neg (decimal_ne_nil (n + 1)),
          digitsValue_decimal]
        simp
  have hsigned : (if decide (v < 0) = true then -(v.natAbs : ℤ) else v.natAbs) = v := by
    simp only [decide_eq_true_eq]
    split_ifs <;> omega
  have hrange : ¬ (v < -2 ^ 31 ∨ 2 ^ 31 ≤ v) := by
    rw [not_or]
    exact ⟨not_lt.mpr hlow, not_le.mpr hhigh⟩
  rw [stoi, hscan]
  simp only [hsigned, if_neg hrange]

/-- The number that `sensor_inject` was given. -/
theorem injectValue_signedDecimal (device : Bytes) (v : Int32) :
    injectValue [device, signedDecimal v.toInt] = .ok v := by
  rw [injectValue, stoi_signedDecimal v.le_toInt v.toInt_lt]
  simp [Except.map]

/-! ### The processes -/

/-- Where a process of `sensor_inject` stands. -/
inductive InjectPc
  | start
  /-- The file is open; `node` says that it is the driver's. -/
  | opened (node : Bool) (value : Int32)
  /-- In `sensorhub_write`, before and behind the locked section of its push. -/
  | pushing (value : Int32)
  | waking (value : Int32)
  /-- `write` has returned, and the file is closed. -/
  | written (node : Bool) (value : Int32) (result : Except Errno ℕ)
  /-- `text` is printed, and 0 returned. -/
  | printed (node : Bool) (value : Int32) (text : Bytes)
  /-- `text` is printed to `std::cerr`, and 1 returned. -/
  | failed (text : Bytes)

/-- The driver, and the processes. -/
structure Bench (n : ℕ) where
  sys : Sys
  pc : Fin n → InjectPc

inductive BenchLabel (n : ℕ)
  /-- The arguments are read, and `open` fails, or finds the driver's node or another file. -/
  | start (i : Fin n) (found : Except Errno Bool)
  /-- The sample is made at the time `timestamp`, and `write` is called. -/
  | write (i : Fin n) (timestamp : UInt64) (fault : Bool) (now : UInt64)
  /-- It is written to the other file. -/
  | writeElsewhere (i : Fin n) (result : Except Errno ℕ)
  | pushLock (i : Fin n)
  | wake (i : Fin n)
  /-- The result of `write` is looked at. -/
  | finish (i : Fin n) (errno : Errno)
  /-- A step of another thread, or a reset. -/
  | other (l : Label)

/-- The step is one of a thread that is none of the first `n`, or a reset. -/
def outside (n : ℕ) : Label → Bool
  | .read i _ _ | .check i | .test i _ | .interrupt i | .readLock i | .copy i _ | .timer i _ _
  | .pushLock i | .wake i => n ≤ i
  | .write .. => false
  | .reset => true

/-- What a call of `write` has returned between two states of the driver. -/
def newResult (s t : Sys) : Option (Except Errno ℕ) :=
  match (t.log.returns.drop s.log.returns.length).head? with
  | some (.write _ result) => some result
  | _ => none

/-- The sample of `sensor_inject`. -/
def injectSample (timestamp : UInt64) (value : Int32) : Sample where
  seq := 0
  timestampNs := timestamp
  type := sampleUser
  value0 := value
  value1 := 0
  value2 := 0

/-- What is printed when `text` is caught. -/
def injectError (text : Bytes) : Bytes := ascii "sensor_inject: " ++ text ++ ascii "\n"

/-- What is printed otherwise. -/
def injectedText (device : Bytes) (value : Int32) : Bytes :=
  ascii "injected value=" ++ signedDecimal value.toInt ++ ascii " to " ++ device ++ ascii "\n"

namespace Bench

variable {n : ℕ}

def init (n : ℕ) : Bench n := ⟨Sys.init, fun _ => .start⟩

/-- The driver is in the state `sys`, and the process `i` moves on. -/
def goto (s : Bench n) (sys : Sys) (i : Fin n) (pc : InjectPc) : Bench n :=
  ⟨sys, Function.update s.pc i pc⟩

/-- The first statements of a process, up to `open`. -/
def begin (strerror : Errno → Bytes) (args : List Bytes) (found : Except Errno Bool) : InjectPc :=
  match injectValue args, found with
  | .error e, _ => .failed (injectError e.what)
  | .ok _, .error e =>
      .failed (injectError (ascii "open " ++ injectDevice args ++ ascii ": " ++ strerror e))
  | .ok value, .ok node => .opened node value

/-- The statements behind `close`. -/
def conclude (strerror : Errno → Bytes) (args : List Bytes) (node : Bool) (value : Int32)
    (result : Except Errno ℕ) (errno : Errno) : InjectPc :=
  match result with
  | .ok size =>
      if size = sizeofSample then .printed node value (injectedText (injectDevice args) value)
      else .failed (injectError (ascii "write sample: " ++ strerror errno))
  | .error _ => .failed (injectError (ascii "write sample: " ++ strerror errno))

def benchStep (strerror : Errno → Bytes) (args : Fin n → List Bytes) (s : Bench n) :
    BenchLabel n → Option (Bench n)
  | .start i found =>
      match s.pc i with
      | .start => some (s.goto s.sys i (begin strerror (args i) found))
      | _ => none
  | .write i timestamp fault now =>
      match s.pc i with
      | .opened true value =>
          (drvStep s.sys (.write i sizeofSample fault (injectSample timestamp value) now)).map
            fun sys =>
              s.goto sys i ((newResult s.sys sys).elim (.pushing value) (.written true value))
      | _ => none
  | .writeElsewhere i result =>
      match s.pc i with
      | .opened false value => some (s.goto s.sys i (.written false value result))
      | _ => none
  | .pushLock i =>
      match s.pc i with
      | .pushing value =>
          (drvStep s.sys (.pushLock i)).map fun sys => s.goto sys i (.waking value)
      | _ => none
  | .wake i =>
      match s.pc i with
      | .waking value =>
          (drvStep s.sys (.wake i)).map fun sys =>
            s.goto sys i ((newResult s.sys sys).elim (.waking value) (.written true value))
      | _ => none
  | .finish i errno =>
      match s.pc i with
      | .written node value result =>
          some (s.goto s.sys i (conclude strerror (args i) node value result errno))
      | _ => none
  | .other l =>
      if outside n l then (drvStep s.sys l).map fun sys => { s with sys := sys } else none

/-! ### What the other threads do -/

/-- A step of another thread leaves the processes where they are, and pushes no sample of type
`user`. -/
structure Beside (n : ℕ) (s t : Sys) : Prop where
  same : ∀ i < n, (∀ count, s.pc i ≠ .readSleep count) → t.pc i = s.pc i
  pushing : ∀ i, n ≤ i → ∀ sample injected, t.pc i = .pushLock sample injected →
    s.pc i = .pushLock sample injected ∨ sample.type = sampleTemp
  pushed : t.log.pushed = s.log.pushed ∨ ∃ i sample injected, n ≤ i ∧
    s.pc i = .pushLock sample injected ∧ t.log.pushed = s.log.pushed ++ [stamp s.dev sample]

theorem wakeUp_of_ne {pc : ℕ → Pc} {i : ℕ} (h : ∀ count, pc i ≠ .readSleep count) :
    wakeUp pc i = pc i := by
  unfold wakeUp
  split
  · rename_i count hpc
    exact absurd hpc (h count)
  · rfl

theorem wakeUp_pushLock {pc : ℕ → Pc} {i : ℕ} {sample : Sample} {injected : Bool}
    (h : wakeUp pc i = .pushLock sample injected) : pc i = .pushLock sample injected := by
  unfold wakeUp at h
  split at h
  · cases h
  · exact h

/-- The thread `i` moves on, and what it does concerns none of the processes. -/
theorem beside_update {s t : Sys} {i : ℕ} {pc : Pc} (hi : n ≤ i)
    (hpc : t.pc = Function.update s.pc i pc)
    (hpush : ∀ sample injected, pc = .pushLock sample injected → sample.type = sampleTemp)
    (hlog : t.log.pushed = s.log.pushed) : Beside n s t where
  same j hj _ := by
    rw [hpc, Function.update_of_ne (by omega)]
  pushing j _ sample injected hj := by
    rw [hpc, Function.update_apply] at hj
    split_ifs at hj
    · exact Or.inr (hpush sample injected hj)
    · exact Or.inl hj
  pushed := Or.inl hlog

/-- The thread `i` wakes the readers, and moves on. -/
theorem beside_wake {s t : Sys} {i : ℕ} (hi : n ≤ i)
    (hpc : t.pc = Function.update (wakeUp s.pc) i .idle) (hlog : t.log.pushed = s.log.pushed) :
    Beside n s t where
  same j hj hsleep := by
    rw [hpc, Function.update_of_ne (by omega), wakeUp_of_ne hsleep]
  pushing j _ sample injected hj := by
    rw [hpc, Function.update_apply] at hj
    split_ifs at hj
    exact Or.inl (wakeUp_pushLock hj)
  pushed := Or.inl hlog

theorem outside_step {s t : Sys} {l : Label} (hl : outside n l = true) (h : drvStep s l = some t) :
    Beside n s t := by
  cases drvStep_branch h with
  | readShort hpc hc | checkAgain hpc hd hn | testSignal hpc hd | copyFault hpc hf | copy hpc =>
      exact beside_update (of_decide_eq_true hl) rfl (by simp) rfl
  | read hpc hc | checkData hpc hd | checkWait hpc hd | testData hpc hd | testSleep hpc hd
  | interrupt hpc | readLock hpc =>
      exact beside_update (of_decide_eq_true hl) rfl (by simp) rfl
  | timer hpc =>
      refine beside_update (of_decide_eq_true hl) rfl ?_ rfl
      intro sample injected heq
      cases heq
      rfl
  | writeFails hpc | write hpc => cases hl
  | @pushLock i sample injected hpc =>
      have hi : n ≤ i := of_decide_eq_true hl
      refine ⟨?_, ?_, Or.inr ⟨i, sample, injected, hi, hpc, rfl⟩⟩
      · intro j hj _
        exact Function.update_of_ne (by omega) _ _
      · intro j _ sample' injected' hj
        simp only [Sys.goto, Function.update_apply] at hj
        split_ifs at hj
        exact Or.inl hj
  | wakeWrite hpc | wake hpc => exact beside_wake (of_decide_eq_true hl) rfl rfl
  | reset =>
      exact ⟨fun _ _ _ => rfl, fun _ _ _ _ hj => Or.inl hj, Or.inl rfl⟩

end Bench

/-! ### What was injected -/

namespace InjectPc

/-- The value that the process has read. -/
def value : InjectPc → Option Int32
  | .start | .failed _ => none
  | .opened _ v | .pushing v | .waking v | .written _ v _ | .printed _ v _ => some v

/-- The value that the process has given to the driver. -/
def given : InjectPc → Multiset Int32
  | .waking v | .written true v (.ok _) | .printed true v _ => {v}
  | _ => 0

/-- Where the thread of the process stands in the driver. -/
def Stands (pc : Pc) : InjectPc → Prop
  | .pushing v => ∃ sample, pc = .pushLock sample true ∧ sample.type = sampleUser ∧
      sample.value0 = v ∧ sample.value1 = 0 ∧ sample.value2 = 0
  | .waking _ => pc = .pushWake true
  | _ => pc = .idle

theorem Stands.awake {pc : Pc} {p : InjectPc} (h : Stands pc p) (count : ℕ) :
    pc ≠ .readSleep count := by
  rintro rfl
  cases p with
  | pushing v =>
      obtain ⟨sample, hpc, -⟩ := h
      cases hpc
  | _ => cases h

end InjectPc

/-- The values of the samples of type `user` that were pushed. -/
def userValues (s : Sys) : List Int32 :=
  (s.log.pushed.filter fun x => x.type = sampleUser).map Sample.value0

theorem userValues_concat {s t : Sys} {x : Sample} (h : t.log.pushed = s.log.pushed ++ [x]) :
    userValues t = userValues s ++ if x.type = sampleUser then [x.value0] else [] := by
  rw [userValues, h, List.filter_append, List.map_append, userValues]
  by_cases hx : x.type = sampleUser
  · simp [hx]
  · simp [hx]

namespace Bench

variable {n : ℕ} {strerror : Errno → Bytes} {args : Fin n → List Bytes} {s t : Bench n}

/-- The processes stand in the driver where they are; what was pushed with the type `user` is what
they have given. -/
structure Accounted (args : Fin n → List Bytes) (s : Bench n) : Prop where
  reached : Reachable drvStep Sys.init s.sys
  threads : ∀ i : Fin n, (s.pc i).Stands (s.sys.pc i)
  others : ∀ j, n ≤ j → ∀ sample injected, s.sys.pc j = .pushLock sample injected →
    sample.type = sampleTemp
  sizes : ∀ i v size, s.pc i = .written true v (.ok size) → size = sizeofSample
  values : (userValues s.sys : Multiset Int32) = ∑ i, (s.pc i).given
  zeros : ∀ x ∈ s.sys.log.pushed, x.type = sampleUser → x.value1 = 0 ∧ x.value2 = 0
  read : ∀ i v, (s.pc i).value = some v → injectValue (args i) = .ok v
  texts : ∀ i node v text, s.pc i = .printed node v text →
    text = injectedText (injectDevice (args i)) v

theorem accounted_init : Accounted args (init n) where
  reached := .refl _
  threads _ := rfl
  others _ _ _ _ h := by cases h
  sizes _ _ _ h := by cases h
  values := by
    have hzero : ∀ i : Fin n, ((init n).pc i).given = 0 := fun _ => rfl
    rw [Finset.sum_eq_zero fun i _ => hzero i]
    rfl
  zeros _ h := by cases h
  read _ _ h := by cases h
  texts _ _ _ _ h := by cases h

theorem sum_given_update (pc : Fin n → InjectPc) (i : Fin n) (p : InjectPc) :
    ∑ j, (Function.update pc i p j).given + (pc i).given = ∑ j, (pc j).given + p.given := by
  have hupdate : (fun j => (Function.update pc i p j).given) =
      Function.update (fun j => (pc j).given) i p.given := by
    funext j
    by_cases hj : j = i
    · subst hj
      simp
    · simp [hj]
  rw [hupdate, Finset.sum_update_of_mem (Finset.mem_univ i),
    ← Finset.add_sum_erase _ _ (Finset.mem_univ i), Finset.sdiff_singleton_eq_erase]
  abel

/-- The process `i` moves on, with or without a step of the driver. -/
theorem Accounted.goto (h : Accounted args s) {sys : Sys} {i : Fin n} {p : InjectPc}
    (hreached : Reachable drvStep Sys.init sys) (hstands : p.Stands (sys.pc i))
    (hprocs : ∀ j : Fin n, j ≠ i → sys.pc j = s.sys.pc j)
    (hothers : ∀ j, n ≤ j → ∀ sample injected, sys.pc j = .pushLock sample injected →
      s.sys.pc j = .pushLock sample injected)
    (hsize : ∀ v size, p = .written true v (.ok size) → size = sizeofSample)
    (hvalues : (userValues sys : Multiset Int32) + (s.pc i).given =
      (userValues s.sys : Multiset Int32) + p.given)
    (hzeros : ∀ x ∈ sys.log.pushed, x.type = sampleUser → x.value1 = 0 ∧ x.value2 = 0)
    (hread : ∀ v, p.value = some v → injectValue (args i) = .ok v)
    (htext : ∀ node v text, p = .printed node v text →
      text = injectedText (injectDevice (args i)) v) :
    Accounted args (s.goto sys i p) where
  reached := hreached
  threads j := by
    by_cases hj : j = i
    · subst hj
      simpa [Bench.goto] using hstands
    · simpa [Bench.goto, hj, hprocs j hj] using h.threads j
  others j hj sample injected hpc := h.others j hj sample injected (hothers j hj _ _ hpc)
  sizes j v size hpc := by
    simp only [Bench.goto, Function.update_apply] at hpc
    split_ifs at hpc
    · exact hsize v size hpc
    · exact h.sizes j v size hpc
  values := by
    have hsum := sum_given_update s.pc i p
    rw [← h.values, ← hvalues] at hsum
    exact (add_right_cancel hsum).symm
  zeros := hzeros
  read j v hpc := by
    simp only [Bench.goto, Function.update_apply] at hpc
    split_ifs at hpc with hj
    · subst hj
      exact hread v hpc
    · exact h.read j v hpc
  texts j node v text hpc := by
    simp only [Bench.goto, Function.update_apply] at hpc
    split_ifs at hpc with hj
    · subst hj
      exact htext node v text hpc
    · exact h.texts j node v text hpc

/-- A step of the process that the driver has no part in. -/
theorem Accounted.stay (h : Accounted args s) {i : Fin n} {p : InjectPc}
    (hidle : s.sys.pc i = .idle) (hstands : p.Stands .idle)
    (hsize : ∀ v size, p = .written true v (.ok size) → size = sizeofSample)
    (hgiven : (s.pc i).given = p.given)
    (hread : ∀ v, p.value = some v → injectValue (args i) = .ok v)
    (htext : ∀ node v text, p = .printed node v text →
      text = injectedText (injectDevice (args i)) v) :
    Accounted args (s.goto s.sys i p) := by
  refine h.goto h.reached ?_ (fun _ _ => rfl) (fun _ _ _ _ hpc => hpc) hsize ?_ h.zeros hread htext
  · rw [hidle]
    exact hstands
  · rw [hgiven]

theorem begin_cases (strerror : Errno → Bytes) (args : List Bytes) (found : Except Errno Bool) :
    (∃ text, begin strerror args found = .failed text) ∨
      ∃ node v, injectValue args = .ok v ∧ begin strerror args found = .opened node v := by
  unfold begin
  cases hargs : injectValue args with
  | error e => exact Or.inl ⟨_, rfl⟩
  | ok v =>
      cases found with
      | ok node => exact Or.inr ⟨node, v, rfl, rfl⟩
      | error e => exact Or.inl ⟨_, rfl⟩

theorem conclude_cases (strerror : Errno → Bytes) (args : List Bytes) (node : Bool) (v : Int32)
    (result : Except Errno ℕ) (errno : Errno) :
    (∃ text, conclude strerror args node v result errno = .failed text ∧
        result ≠ .ok sizeofSample) ∨
      conclude strerror args node v result errno =
          .printed node v (injectedText (injectDevice args) v) ∧
        result = .ok sizeofSample := by
  unfold conclude
  cases result with
  | error e => exact Or.inl ⟨_, rfl, by simp⟩
  | ok size =>
      by_cases hsize : size = sizeofSample
      · exact Or.inr ⟨if_pos hsize, by rw [hsize]⟩
      · exact Or.inl ⟨_, if_neg hsize, by simpa using hsize⟩

/-- A thread that returns from `write`. -/
theorem newResult_ret (s u : Sys) (i : ℕ) (result : Except Errno ℕ)
    (hlog : u.log.returns = s.log.returns) :
    newResult s (u.ret i (.write i result)) = some result := by
  simp [newResult, Sys.ret, hlog]

theorem newResult_goto (s : Sys) (i : ℕ) (pc : Pc) : newResult s (s.goto i pc) = none := by
  simp [newResult, Sys.goto]

/-- `write` is called. -/
theorem Accounted.write (h : Accounted args s) {i : Fin n} {v : Int32}
    (hpc : s.pc i = .opened true v) {timestamp now : UInt64} {fault : Bool} {sys : Sys}
    (hst : drvStep s.sys (.write i sizeofSample fault (injectSample timestamp v) now) = some sys) :
    Accounted args
      (s.goto sys i ((newResult s.sys sys).elim (.pushing v) (.written true v))) := by
  have hthread := h.threads i
  rw [hpc] at hthread
  have hidle : s.sys.pc i = .idle := hthread
  have hreached := h.reached.tail hst
  have hread : injectValue (args i) = .ok v := h.read i v (by rw [hpc]; rfl)
  have hne : ∀ j : Fin n, j ≠ i → (j : ℕ) ≠ i := fun j hj heq => hj (Fin.ext heq)
  simp only [drvStep, hidle, ne_eq, not_true_eq_false, if_false] at hst
  split_ifs at hst with hfault
  · cases hst
    rw [newResult_ret s.sys s.sys i _ rfl]
    refine h.goto hreached ?_ ?_ ?_ ?_ ?_ h.zeros ?_ (by simp)
    · exact Function.update_self _ _ _
    · intro j hj
      exact Function.update_of_ne (hne j hj) _ _
    · intro j hj sample injected hj'
      simp only [Sys.ret, Sys.goto, Function.update_apply] at hj'
      split_ifs at hj'
      exact hj'
    · intro v' size heq
      cases heq
    · rw [hpc]
      rfl
    · intro v' hv'
      cases hv'
      exact hread
  · cases hst
    rw [newResult_goto]
    refine h.goto hreached ?_ ?_ ?_ ?_ ?_ h.zeros ?_ (by simp)
    · refine ⟨_, Function.update_self _ _ _, rfl, rfl, rfl, rfl⟩
    · intro j hj
      exact Function.update_of_ne (hne j hj) _ _
    · intro j hj sample injected hj'
      simp only [Sys.goto, Function.update_apply] at hj'
      split_ifs at hj' with heq
      · have hlt := i.isLt
        omega
      · exact hj'
    · intro v' size heq
      cases heq
    · rw [hpc]
      rfl
    · intro v' hv'
      cases hv'
      exact hread

/-- The locked section of the push. -/
theorem Accounted.pushLock (h : Accounted args s) {i : Fin n} {v : Int32}
    (hpc : s.pc i = .pushing v) {sys : Sys} (hst : drvStep s.sys (.pushLock i) = some sys) :
    Accounted args (s.goto sys i (.waking v)) := by
  have hthread := h.threads i
  rw [hpc] at hthread
  obtain ⟨sample, hlock, htype, hvalue, hzero, hzero'⟩ := hthread
  have hreached := h.reached.tail hst
  have hread : injectValue (args i) = .ok v := h.read i v (by rw [hpc]; rfl)
  simp only [drvStep, hlock] at hst
  cases hst
  refine h.goto hreached ?_ ?_ ?_ ?_ ?_ ?_ ?_ (by simp)
  · exact Function.update_self _ _ _
  · intro j hj
    exact Function.update_of_ne (fun heq => hj (Fin.ext heq)) _ _
  · intro j hj sample' injected hj'
    simp only [Sys.goto, Function.update_apply] at hj'
    split_ifs at hj'
    exact hj'
  · intro v' size heq
    cases heq
  · have htype' : (stamp s.sys.dev sample).type = sampleUser := htype
    have hvalue' : (stamp s.sys.dev sample).value0 = v := hvalue
    rw [userValues_concat (x := stamp s.sys.dev sample) rfl, if_pos htype', hvalue', hpc,
      ← Multiset.coe_add]
    exact add_zero _
  · intro x hx htype'
    rcases List.mem_append.mp hx with hx | hx
    · exact h.zeros x hx htype'
    · rw [List.mem_singleton.mp hx]
      exact ⟨hzero, hzero'⟩
  · intro v' hv'
    cases hv'
    exact hread

/-- `wake_up_interruptible`, and the return from `write`. -/
theorem Accounted.wake (h : Accounted args s) {i : Fin n} {v : Int32} (hpc : s.pc i = .waking v)
    {sys : Sys} (hst : drvStep s.sys (.wake i) = some sys) :
    Accounted args (s.goto sys i ((newResult s.sys sys).elim (.waking v) (.written true v))) := by
  have hthread := h.threads i
  rw [hpc] at hthread
  have hwake : s.sys.pc i = .pushWake true := hthread
  have hreached := h.reached.tail hst
  have hread : injectValue (args i) = .ok v := h.read i v (by rw [hpc]; rfl)
  simp only [drvStep, hwake, if_true] at hst
  cases hst
  rw [newResult_ret s.sys { s.sys with pc := wakeUp s.sys.pc } i _ rfl]
  refine h.goto hreached ?_ ?_ ?_ ?_ ?_ h.zeros ?_ (by simp)
  · exact Function.update_self _ _ _
  · intro j hj
    refine (Function.update_of_ne (fun heq => hj (Fin.ext heq)) _ _).trans ?_
    exact wakeUp_of_ne (h.threads j).awake
  · intro j hj sample injected hj'
    simp only [Sys.ret, Sys.goto, Function.update_apply] at hj'
    split_ifs at hj'
    exact wakeUp_pushLock hj'
  · intro v' size heq
    cases heq
    rfl
  · rw [hpc]
    rfl
  · intro v' hv'
    cases hv'
    exact hread

/-- Another thread, or a reset. -/
theorem Accounted.other (h : Accounted args s) {l : Label} {sys : Sys} (hl : outside n l = true)
    (hst : drvStep s.sys l = some sys) : Accounted args { s with sys := sys } := by
  have hbeside : Beside n s.sys sys := outside_step hl hst
  have htemp : sampleTemp ≠ sampleUser := by decide
  refine ⟨h.reached.tail hst, ?_, ?_, h.sizes, ?_, ?_, h.read, h.texts⟩
  · intro i
    show (s.pc i).Stands (sys.pc i)
    rw [hbeside.same i i.isLt (h.threads i).awake]
    exact h.threads i
  · intro j hj sample injected hpc
    rcases hbeside.pushing j hj sample injected hpc with hpc | htype
    · exact h.others j hj sample injected hpc
    · exact htype
  · rcases hbeside.pushed with hpushed | ⟨j, sample, injected, hj, hpc, hpushed⟩
    · rw [userValues, hpushed]
      exact h.values
    · have htype : (stamp s.sys.dev sample).type ≠ sampleUser := by
        rw [show (stamp s.sys.dev sample).type = sample.type from rfl,
          h.others j hj sample injected hpc]
        exact htemp
      rw [userValues_concat hpushed, if_neg htype, List.append_nil]
      exact h.values
  · intro x hx htype
    rcases hbeside.pushed with hpushed | ⟨j, sample, injected, hj, hpc, hpushed⟩
    · exact h.zeros x (hpushed ▸ hx) htype
    · have hx' : x ∈ s.sys.log.pushed ++ [stamp s.sys.dev sample] := hpushed ▸ hx
      rcases List.mem_append.mp hx' with hx' | hx'
      · exact h.zeros x hx' htype
      · rw [List.mem_singleton.mp hx'] at htype
        exact absurd ((h.others j hj sample injected hpc).symm.trans htype) htemp

theorem accounted_step {l : BenchLabel n} (h : Accounted args s)
    (hst : benchStep strerror args s l = some t) : Accounted args t := by
  have hidle : ∀ {i : Fin n} {p : InjectPc}, s.pc i = p → p.Stands (s.sys.pc i) := by
    rintro i p rfl
    exact h.threads i
  cases l with
  | start i found =>
      simp only [benchStep] at hst
      split at hst
      · rename_i hpc
        cases hst
        rcases begin_cases strerror (args i) found with ⟨text, hbegin⟩ | ⟨node, v, hargs, hbegin⟩
        · rw [hbegin]
          refine h.stay (hidle hpc) rfl (by simp) (by rw [hpc]; rfl) ?_ (by simp)
          intro v hv
          cases hv
        · rw [hbegin]
          refine h.stay (hidle hpc) rfl (by simp) (by rw [hpc]; rfl) ?_ (by simp)
          intro v' hv'
          cases hv'
          exact hargs
      · cases hst
  | write i timestamp fault now =>
      simp only [benchStep] at hst
      split at hst
      · rename_i v hpc
        obtain ⟨sys, hsys, rfl⟩ := Option.map_eq_some_iff.mp hst
        exact h.write hpc hsys
      · cases hst
  | writeElsewhere i result =>
      simp only [benchStep] at hst
      split at hst
      · rename_i v hpc
        cases hst
        refine h.stay (hidle hpc) rfl (by simp) (by rw [hpc]; rfl) ?_ (by simp)
        intro v' hv'
        cases hv'
        exact h.read i v (by rw [hpc]; rfl)
      · cases hst
  | pushLock i =>
      simp only [benchStep] at hst
      split at hst
      · rename_i v hpc
        obtain ⟨sys, hsys, rfl⟩ := Option.map_eq_some_iff.mp hst
        exact h.pushLock hpc hsys
      · cases hst
  | wake i =>
      simp only [benchStep] at hst
      split at hst
      · rename_i v hpc
        obtain ⟨sys, hsys, rfl⟩ := Option.map_eq_some_iff.mp hst
        exact h.wake hpc hsys
      · cases hst
  | finish i errno =>
      simp only [benchStep] at hst
      split at hst
      · rename_i node v result hpc
        cases hst
        rcases conclude_cases strerror (args i) node v result errno with
          ⟨text, hend, hresult⟩ | ⟨hend, hresult⟩
        · rw [hend]
          refine h.stay (hidle hpc) rfl (by simp) ?_ ?_ (by simp)
          · rw [hpc]
            cases node with
            | false => rfl
            | true =>
                cases result with
                | error e => rfl
                | ok size => exact absurd (by rw [h.sizes i v size hpc]) hresult
          · intro v' hv'
            cases hv'
        · rw [hend]
          refine h.stay (hidle hpc) rfl (by simp) ?_ ?_ ?_
          · rw [hpc, hresult]
            cases node <;> rfl
          · intro v' hv'
            cases hv'
            exact h.read i v (by rw [hpc]; rfl)
          · intro node' v' text heq
            cases heq
            rfl
      · cases hst
  | other l =>
      simp only [benchStep] at hst
      split_ifs at hst with hl
      obtain ⟨sys, hsys, rfl⟩ := Option.map_eq_some_iff.mp hst
      exact h.other hl hsys

/-- What a process has given is among what was pushed. -/
theorem Accounted.exists_pushed (h : Accounted args s) {i : Fin n} {v : Int32}
    (hgiven : v ∈ (s.pc i).given) :
    ∃ x ∈ s.sys.log.pushed, x.type = sampleUser ∧ x.value0 = v := by
  have hsum : v ∈ ∑ j, (s.pc j).given :=
    Multiset.mem_sum.mpr ⟨i, Finset.mem_univ i, hgiven⟩
  rw [← h.values, Multiset.mem_coe, userValues] at hsum
  obtain ⟨x, hx, hvalue⟩ := List.mem_map.mp hsum
  obtain ⟨hmem, htype⟩ := List.mem_filter.mp hx
  exact ⟨x, hmem, of_decide_eq_true htype, hvalue⟩

/-- The fields of the line of an injected sample. -/
theorem lineFields_user {x : Sample} (htype : x.type = sampleUser) (hone : x.value1 = 0)
    (htwo : x.value2 = 0) :
    (lineFields x).drop 2 = [ascii "type=user", ascii "v0=" ++ signedDecimal x.value0.toInt,
      ascii "v1=0", ascii "v2=0"] := by
  rw [lineFields, htype, hone, htwo]
  rfl

/-- **What is injected is accounted for.** For any number of processes, in every state that they,
the timer, the readers and the resets of the driver can reach:
* the values of the samples of type `user` that went through the driver are exactly the values of
  the processes that were served by it, each as often as there are processes with it;
* every pushed sample was refused by a full ring, taken by a read, cleared by a reset, or is in the
  ring;
* a process that was given a number written out, and says that it was injected, says so with the
  same number; and if what it had opened was the driver's node, a sample went through the driver
  whose line has the same number, and zeros behind it. -/
theorem injections_accounted (h : Reachable (benchStep strerror args) (init n) s) :
    (userValues s.sys : Multiset Int32) = ∑ i, (s.pc i).given ∧
    (s.sys.log.refused : Multiset Sample) + s.sys.log.removed + s.sys.log.cleared +
      ringSamples s.sys.dev = s.sys.log.pushed ∧
    ∀ i device v node v' text, args i = [device, signedDecimal v.toInt] →
      s.pc i = .printed node v' text → text = injectedText device v ∧
        (node = true → ∃ x ∈ s.sys.log.pushed, (lineFields x).drop 2 =
          [ascii "type=user", ascii "v0=" ++ signedDecimal v.toInt, ascii "v1=0",
            ascii "v2=0"]) := by
  have hs : Accounted args s :=
    h.inv (Accounted args) (fun _ _ _ hu huv => accounted_step hu huv) accounted_init
  refine ⟨hs.values, (sorted_apart_of_reachable hs.reached).1.places, ?_⟩
  intro i device v node v' text hargs hpc
  have hread : injectValue (args i) = .ok v' := hs.read i v' (by rw [hpc]; rfl)
  rw [hargs, injectValue_signedDecimal] at hread
  cases hread
  have htext := hs.texts i node v text hpc
  rw [hargs] at htext
  refine ⟨htext, ?_⟩
  rintro rfl
  have hgiven : v ∈ (s.pc i).given := by
    rw [hpc]
    exact Multiset.mem_singleton_self v
  obtain ⟨x, hx, htype, hvalue⟩ := hs.exists_pushed hgiven
  obtain ⟨hone, htwo⟩ := hs.zeros x hx htype
  refine ⟨x, hx, ?_⟩
  rw [lineFields_user htype hone htwo, hvalue]

/-- Three processes; the second writes between the push and the wake-up of the first, the third to
another file, and the timer fires. -/
def twoInjected : List (BenchLabel 3) :=
  [.start 0 (.ok true), .start 1 (.ok true), .start 2 (.ok false), .write 0 7 false 8, .pushLock 0,
    .other (.timer 3 9 4), .write 1 7 false 8, .pushLock 1, .wake 1, .writeElsewhere 2 (.ok 32),
    .finish 1 .EINTR, .finish 2 .EINTR, .other (.pushLock 3), .wake 0, .finish 0 .EINTR]

/-- `sensor_inject /dev/sensorhub0 -5`, `sensor_inject` and `sensor_inject /dev/null 7`. -/
def threeArgs : Fin 3 → List Bytes := fun i =>
  if i.val = 0 then [ascii "/dev/sensorhub0", signedDecimal (-5)]
  else if i.val = 1 then []
  else [ascii "/dev/null", signedDecimal 7]

theorem injections_accounted_twoInjected :
    ∃ s, run (benchStep (fun _ => []) threeArgs) (init 3) twoInjected = some s ∧
      userValues s.sys = [-5, 12345] ∧
      (userValues s.sys : Multiset Int32) = ∑ i, (s.pc i).given := by
  obtain ⟨s, hs⟩ : ∃ s, run (benchStep (fun _ => []) threeArgs) (init 3) twoInjected = some s :=
    ⟨_, rfl⟩
  have hvalues : (run (benchStep (fun _ => []) threeArgs) (init 3) twoInjected).map
      (fun s => userValues s.sys) = some [-5, 12345] := rfl
  rw [hs, Option.map_some, Option.some.injEq] at hvalues
  exact ⟨s, hs, hvalues, (injections_accounted ⟨_, hs⟩).1⟩

end Bench

end SensorHub
