import SensorHub.Daemon.Pipeline
import SensorHub.Uapi.Errno
import Mathlib.Data.UInt
import Mathlib.Tactic

set_option autoImplicit false

/-!
# The daemon on the simulated device

`SimulatedSensorDevice::read_available` of `userspace/src/device/sensor_device.cpp`, and the source
callback of `main` on top of it. The kernel counts the expirations of the timer; a read takes them
all, and the device makes one sample for each of them. Behind the queue the samples go the same way
as those of the driver.

* `timerfdRead`, `simulatedSample`, `simulatedLoop`, `simulatedRead`; **`simulatedLoop_eq`**.
* `SimPipe`, `simStep`; `Made`, **`made_step`**: the samples made are numbered by the expirations.
* **`simulated_accounting`**: every expiration becomes one sample, and only the queue refuses any.
-/

namespace SensorHub

open Trans

/-- `read` of the timer descriptor, which does not block: the expirations since the last one. -/
def timerfdRead (ticks : UInt64) : Except Errno UInt64 :=
  if ticks = 0 then .error .EAGAIN else .ok ticks

/-- The sample made for one expiration. -/
def simulatedSample (seq now : UInt64) : Sample where
  seq := seq
  timestampNs := now
  type := sampleTemp
  value0 := 25000 + (seq * 37 % 8000).toUInt32.toInt32
  value1 := 0
  value2 := 0

/-- The loop over the expirations; `now i` is the clock in round `i`. -/
def simulatedLoop (now : ℕ → UInt64) : ℕ → ℕ → UInt64 → List Sample → UInt64 × List Sample
  | 0, _, seq, out => (seq, out)
  | left + 1, i, seq, out =>
      simulatedLoop now left (i + 1) (seq + 1) (out ++ [simulatedSample seq (now i)])

/-- `SimulatedSensorDevice::read_available` behind its `read`: the samples or the exception, and
`seq_`. -/
def simulatedRead (now : ℕ → UInt64) (seq : UInt64) :
    Except Errno UInt64 → UInt64 × Except Errno (List Sample)
  | .error .EAGAIN => (seq, .ok [])
  | .error e => (seq, .error e)
  | .ok expirations =>
      let (seq, out) := simulatedLoop now expirations.toNat 0 seq []
      (seq, .ok out)

/-- **One sample for each expiration**, numbered on from `seq_`. -/
theorem simulatedLoop_eq (now : ℕ → UInt64) (left i : ℕ) (seq : UInt64) (out : List Sample) :
    simulatedLoop now left i seq out = (seq + UInt64.ofNat left, out ++ (List.range left).map
      fun j => simulatedSample (seq + UInt64.ofNat j) (now (i + j))) := by
  induction left generalizing i seq out with
  | zero => simp [simulatedLoop]
  | succ left ih =>
      have hnext : ∀ j, seq + 1 + UInt64.ofNat j = seq + UInt64.ofNat (j + 1) := by
        intro j
        rw [UInt64.ofNat_add, UInt64.add_assoc, UInt64.add_comm 1]
        rfl
      rw [simulatedLoop, ih, hnext, List.range_succ_eq_map]
      simp only [List.map_cons, List.map_map, List.append_assoc, List.singleton_append,
        Prod.mk.injEq, true_and]
      refine congrArg _ (List.cons_eq_cons.mpr ⟨by simp, List.map_congr_left fun j _ => ?_⟩)
      rw [Function.comp_apply, hnext, Nat.add_right_comm]
      rfl

theorem toInt_toInt32 {u : UInt32} (h : u.toNat < 2 ^ 31) : u.toInt32.toInt = u.toNat := by
  have hbits : u.toBitVec.toInt = u.toBitVec.toNat :=
    BitVec.toInt_eq_toNat_of_lt (by rw [UInt32.toNat_toBitVec]; omega)
  exact hbits

/-- Neither the conversion nor the sum overflows. -/
theorem simulatedSample_value (seq now : UInt64) : (simulatedSample seq now).value0.toInt =
    25000 + ((seq.toNat * 37 % 2 ^ 64 % 8000 : ℕ) : ℤ) := by
  have hmod : (seq * 37 % 8000).toUInt32.toNat = seq.toNat * 37 % 2 ^ 64 % 8000 := by
    rw [UInt64.toNat_toUInt32, UInt64.toNat_mod, UInt64.toNat_mul]
    simp only [UInt64.reduceToNat]
    omega
  have hlt : seq.toNat * 37 % 2 ^ 64 % 8000 < 8000 := Nat.mod_lt _ (by decide)
  have hbase : (25000 : Int32).toInt = 25000 := rfl
  rw [simulatedSample, Int32.toInt_add, toInt_toInt32 (by omega), hmod, hbase,
    Int.bmod_eq_of_le (by omega) (by omega)]

/-! ### The daemon -/

/-- The daemon on the simulated device: the expirations the kernel has counted and not handed out,
`seq_`, the main thread and the workers. `expired` counts all expirations and `made` records the
samples that `read_available` has returned. -/
structure SimPipe (n c : ℕ) where
  ticks : UInt64
  seq : UInt64
  main : MainPc
  work : Work n c
  expired : ℕ
  made : List Sample

inductive SimLabel (n : ℕ)
  /-- The timer expires. -/
  | expire
  /-- The source callback calls `read_available`. -/
  | drain (now : ℕ → UInt64)
  /-- The main thread pushes the next sample of the batch, or comes to its end. -/
  | push
  | close
  | worker (i : Fin n)

namespace SimPipe

variable {n c : ℕ}

/-- The daemon has started. -/
def init (n c : ℕ) : SimPipe n c := ⟨0, 0, .loop, Work.init n c, 0, []⟩

/-- One step. An exception of `read_available` leaves the loop; none is thrown here, for the read
fails with `EAGAIN` only. -/
def simStep (s : SimPipe n c) : SimLabel n → Option (SimPipe n c)
  | .expire => some { s with ticks := s.ticks + 1, expired := s.expired + 1 }
  | .drain now =>
      match s.main with
      | .loop =>
          match simulatedRead now s.seq (timerfdRead s.ticks) with
          | (seq, .ok out) =>
              some { s with ticks := 0, seq := seq, main := .push out, made := s.made ++ out }
          | (_, .error _) => none
      | _ => none
  | .push =>
      match s.main with
      | .push (sample :: rest) => some { s with work := s.work.submit sample, main := .push rest }
      | .push [] => some { s with main := .loop }
      | _ => none
  | .close =>
      match s.main with
      | .loop => some { s with work := s.work.close, main := .closed }
      | _ => none
  | .worker i => (s.work.workerStep i).map fun work => { s with work := work }

/-- The samples for the expirations that are counted. -/
def batch (s : SimPipe n c) (now : ℕ → UInt64) : List Sample :=
  (List.range s.ticks.toNat).map fun j => simulatedSample (s.seq + UInt64.ofNat j) (now j)

theorem simulatedRead_eq (s : SimPipe n c) (now : ℕ → UInt64) :
    simulatedRead now s.seq (timerfdRead s.ticks) = (s.seq + s.ticks, .ok (s.batch now)) := by
  by_cases hticks : s.ticks = 0
  · rw [timerfdRead, if_pos hticks, batch, hticks]
    simp [simulatedRead]
  · rw [timerfdRead, if_neg hticks, simulatedRead, simulatedLoop_eq, UInt64.ofNat_toNat, batch]
    simp

variable {s t : SimPipe n c} {l : SimLabel n}

/-- What a step can do. -/
theorem simStep_cases (h : simStep s l = some t) :
    (t = { s with ticks := s.ticks + 1, expired := s.expired + 1 }) ∨
    (s.main = .loop ∧ ∃ now, t = { s with
      ticks := 0, seq := s.seq + s.ticks, main := .push (s.batch now)
      made := s.made ++ s.batch now }) ∨
    (∃ sample rest, s.main = .push (sample :: rest) ∧
      t = { s with work := s.work.submit sample, main := .push rest }) ∨
    (s.main.batch = [] ∧ ∃ main work, main.batch = [] ∧ (work = s.work ∨ work = s.work.close) ∧
      t = { s with main := main, work := work }) ∨
    (∃ i work, s.work.workerStep i = some work ∧ t = { s with work := work }) := by
  cases l with
  | expire =>
      cases h
      exact Or.inl rfl
  | drain now =>
      simp only [simStep, simulatedRead_eq] at h
      cases hm : s.main <;> rw [hm] at h <;> cases h
      exact Or.inr (Or.inl ⟨rfl, now, rfl⟩)
  | push =>
      simp only [simStep] at h
      cases hm : s.main with
      | push rest =>
          rw [hm] at h
          cases rest with
          | nil =>
              cases h
              exact Or.inr (Or.inr (Or.inr (Or.inl ⟨rfl, _, s.work, rfl, Or.inl rfl, rfl⟩)))
          | cons sample rest =>
              cases h
              exact Or.inr (Or.inr (Or.inl ⟨sample, rest, rfl, rfl⟩))
      | _ => rw [hm] at h; cases h
  | close =>
      simp only [simStep] at h
      cases hm : s.main <;> rw [hm] at h <;> cases h
      exact Or.inr (Or.inr (Or.inr (Or.inl ⟨rfl, _, _, rfl, Or.inr rfl, rfl⟩)))
  | worker i =>
      obtain ⟨work, hwork, rfl⟩ := Option.map_eq_some_iff.mp h
      exact Or.inr (Or.inr (Or.inr (Or.inr ⟨i, work, hwork, rfl⟩)))

/-! ### Every expiration becomes one sample -/

/-- The books: the samples made are those of the first expirations, in order, and each is in one
place. -/
structure Made (s : SimPipe n c) : Prop where
  bound : s.made.length + s.ticks.toNat ≤ s.expired
  count : UInt64.ofNat s.made.length + s.ticks = UInt64.ofNat s.expired
  next : s.seq = UInt64.ofNat s.made.length
  shape : ∀ k x, s.made[k]? = some x → x = simulatedSample (UInt64.ofNat k) x.timestampNs
  places : (s.main.batch : Multiset Sample) + s.work.accounted = s.made

theorem made_init : Made (init n c) where
  bound := le_rfl
  count := rfl
  next := rfl
  shape k x h := by cases h
  places := by
    change (0 : Multiset Sample) + (Work.init n c).accounted = 0
    rw [Work.accounted_init]
    rfl

theorem length_batch (s : SimPipe n c) (now : ℕ → UInt64) :
    (s.batch now).length = s.ticks.toNat := by
  rw [batch, List.length_map, List.length_range]

theorem made_drain (hs : Made s) (hm : s.main = .loop) (now : ℕ → UInt64) : Made { s with
    ticks := 0, seq := s.seq + s.ticks, main := .push (s.batch now)
    made := s.made ++ s.batch now } where
  bound := by
    rw [List.length_append, length_batch]
    exact hs.bound
  count := by
    simp only [List.length_append, length_batch, UInt64.ofNat_add, UInt64.ofNat_toNat,
      UInt64.add_zero]
    exact hs.count
  next := by
    simp only [List.length_append, length_batch, UInt64.ofNat_add, UInt64.ofNat_toNat, hs.next]
  shape := by
    intro k x hx
    rw [List.getElem?_append] at hx
    by_cases hk : k < s.made.length
    · rw [if_pos hk] at hx
      exact hs.shape k x hx
    · rw [if_neg hk, batch, List.getElem?_map, Option.map_eq_some_iff] at hx
      obtain ⟨j, hj, rfl⟩ := hx
      obtain ⟨-, rfl⟩ := List.getElem?_eq_some_iff.mp hj
      rw [List.getElem_range, hs.next, ← UInt64.ofNat_add, Nat.add_sub_cancel' (by omega)]
      rfl
  places := by
    have hplaces := hs.places
    have hnone : s.main.batch = [] := by rw [hm]; rfl
    rw [hnone, Multiset.coe_nil, zero_add] at hplaces
    rw [MainPc.batch, hplaces, ← Multiset.coe_add, add_comm]

theorem made_step (hs : Made s) (h : simStep s l = some t) : Made t := by
  rcases simStep_cases h with rfl | ⟨hm, now, rfl⟩ | ⟨sample, rest, hm, rfl⟩ |
    ⟨hb, main, work, hb', hwork, rfl⟩ | ⟨i, work, hwork, rfl⟩
  · refine { hs with bound := ?_, count := ?_ }
    · have hle : (s.ticks + 1).toNat ≤ s.ticks.toNat + 1 := by
        rw [UInt64.toNat_add]
        exact Nat.mod_le _ _
      have hbound := hs.bound
      simp only
      omega
    · simp only [UInt64.ofNat_add s.expired 1]
      rw [← UInt64.add_assoc, hs.count]
      rfl
  · exact made_drain hs hm now
  · refine { hs with places := ?_ }
    have hplaces := hs.places
    simp only [hm, MainPc.batch, ← Multiset.cons_coe, ← Multiset.singleton_add] at hplaces ⊢
    rw [Work.accounted_submit, ← hplaces]
    abel
  · refine { hs with places := ?_ }
    have hacc : work.accounted = s.work.accounted := by
      rcases hwork with rfl | rfl
      · rfl
      · exact Work.accounted_close s.work
    rw [hacc, hb', ← hb]
    exact hs.places
  · exact { hs with places := by rw [Work.accounted_workerStep hwork]; exact hs.places }

theorem made_of_reachable (h : Reachable simStep (init n c) s) : Made s :=
  h.inv Made (fun _ _ _ hs hst => made_step hs hst) made_init

/-- The numbers of the samples are their positions. -/
theorem Made.map_toNat (hs : Made s) (hk : s.expired < 2 ^ 64) :
    s.made.map (fun x => x.seq.toNat) = List.range s.made.length := by
  have hbound := hs.bound
  refine List.ext_getElem (by simp) fun k h _ => ?_
  rw [List.length_map] at h
  have hshape := hs.shape k _ (List.getElem?_eq_getElem h)
  rw [List.getElem_map, List.getElem_range, hshape, simulatedSample, UInt64.toNat_ofNat',
    Nat.mod_eq_of_lt (by omega)]

/-- One worker keeps the order. -/
def InOrder (s : SimPipe 1 c) : Prop := (s.work.inLine ++ s.main.batch).Sublist s.made

theorem inOrder_step {s t : SimPipe 1 c} {l : SimLabel 1} (hs : InOrder s)
    (h : simStep s l = some t) : InOrder t := by
  unfold InOrder at hs ⊢
  rcases simStep_cases h with rfl | ⟨hm, now, rfl⟩ | ⟨sample, rest, hm, rfl⟩ |
    ⟨hb, main, work, hb', hwork, rfl⟩ | ⟨i, work, hwork, rfl⟩
  · exact hs
  · have hnone : s.main.batch = [] := by rw [hm]; rfl
    rw [hnone, List.append_nil] at hs
    exact hs.append (.refl _)
  · simp only [hm, MainPc.batch] at hs ⊢
    rcases Work.inLine_submit s.work sample with hline | hline
    · rw [hline, List.append_assoc, List.singleton_append]
      exact hs
    · rw [hline]
      exact ((List.Sublist.refl _).append (List.sublist_cons_self sample rest)).trans hs
  · have hline : work.inLine = s.work.inLine := by
      rcases hwork with rfl | rfl <;> rfl
    rw [hline, hb', ← hb]
    exact hs
  · rw [Work.inLine_workerStep hwork]
    exact hs

/-- **Accounting on the simulated device.** In every reachable state with fewer than `2 ^ 64`
expirations: every expiration has become one sample or is still counted by the kernel, however many
of them a read found; the samples are numbered `0, 1, …` in that order, with the value of their
number, between 25000 and 32999; and each is in the batch, rejected by the queue, queued, held by a
worker or written. One worker writes them in order. -/
theorem simulated_accounting (h : Reachable simStep (init n c) s) (hk : s.expired < 2 ^ 64) :
    s.made.length + s.ticks.toNat = s.expired ∧
    s.made.map (fun x => x.seq.toNat) = List.range s.made.length ∧
    (∀ x ∈ s.made, x.type = sampleTemp ∧ x.value1 = 0 ∧ x.value2 = 0 ∧
      x.value0.toInt = 25000 + ((x.seq.toNat * 37 % 2 ^ 64 % 8000 : ℕ) : ℤ) ∧
      25000 ≤ x.value0.toInt ∧ x.value0.toInt ≤ 32999) ∧
    Pipe.seqs s.main.batch + Pipe.seqs s.work.rejected + Pipe.seqs s.work.queue.queue +
        ∑ i, Pipe.seqs (s.work.worker i).held + Pipe.seqs s.work.written =
      Multiset.range s.made.length ∧
    (n = 1 → (s.work.written.map fun x => x.seq.toNat).Pairwise (· < ·)) := by
  have hs := made_of_reachable h
  have hrange := hs.map_toNat hk
  refine ⟨?_, hrange, ?_, ?_, ?_⟩
  · have hcount := congrArg UInt64.toNat hs.count
    have hbound := hs.bound
    rw [UInt64.toNat_add, UInt64.toNat_ofNat', UInt64.toNat_ofNat'] at hcount
    omega
  · intro x hx
    obtain ⟨k, hk⟩ := List.mem_iff_getElem?.mp hx
    have hshape := hs.shape k x hk
    have hvalue : x.value0.toInt = 25000 + ((x.seq.toNat * 37 % 2 ^ 64 % 8000 : ℕ) : ℤ) := by
      rw [hshape]
      exact simulatedSample_value _ _
    have hlt : x.seq.toNat * 37 % 2 ^ 64 % 8000 < 8000 := Nat.mod_lt _ (by decide)
    refine ⟨by rw [hshape]; rfl, by rw [hshape]; rfl, by rw [hshape]; rfl, hvalue, ?_, ?_⟩
    · omega
    · omega
  · have hplaces := congrArg (Multiset.map fun x => x.seq.toNat) hs.places
    rw [Multiset.map_coe, hrange, Multiset.coe_range] at hplaces
    rw [← hplaces]
    simp only [Pipe.seqs, Work.accounted, Work.heldAll, Multiset.map_add]
    rw [← Multiset.coe_mapAddMonoidHom, map_sum]
    simp only [Multiset.coe_mapAddMonoidHom]
    abel
  · rintro rfl
    have hsub : s.work.written.Sublist s.made := by
      refine List.Sublist.trans ?_
        (h.inv InOrder (fun _ _ _ hs hst => inOrder_step hs hst) (.refl _))
      rw [Work.inLine, List.append_assoc, List.append_assoc]
      exact List.sublist_append_left _ _
    refine List.Pairwise.sublist (hsub.map _) ?_
    rw [hrange]
    exact List.pairwise_lt_range

/-- Two expirations before the first read, one after it; the worker writes one sample. -/
def threeTicks : List (SimLabel 1) :=
  [.expire, .expire, .drain fun i => UInt64.ofNat i, .push, .expire, .push, .push,
    .worker (Fin.last 0), .worker (Fin.last 0)]

theorem simulated_accounting_threeTicks : ∃ s, run simStep (init 1 4) threeTicks = some s ∧
    s.made.length + s.ticks.toNat = 3 ∧
    (s.work.written.map fun x => x.seq.toNat).Pairwise (· < ·) := by
  obtain ⟨s, hs⟩ : ∃ s, run simStep (init 1 4) threeTicks = some s := ⟨_, rfl⟩
  have he : (run simStep (init 1 4) threeTicks).map (fun s => s.expired) = some 3 := rfl
  rw [hs] at he
  have hexpired : s.expired = 3 := Option.some.inj he
  obtain ⟨hcount, -, -, -, hone⟩ := simulated_accounting ⟨_, hs⟩ (by omega)
  exact ⟨s, hs, by rw [hcount, hexpired], hone rfl⟩

end SimPipe

end SensorHub
