import Mathlib.Tactic
import Mathlib.Data.Finset.Card

set_option autoImplicit false

/-!
# Condition variables

A condition variable is a set of blocked waiters and a set of waiters that were woken and have not
re-acquired the mutex yet. No thread is in both: the structure carries that fact.

* `block`, `wake`, `notifyOne`, `notifyAll`, `resume`.
* `card_woken_wake`: a wake-up adds one pending wake-up.
-/

/-- Blocked and woken waiters of a condition variable. -/
structure CondVar (ι : Type*) where
  waiting : Finset ι
  woken : Finset ι
  disj : Disjoint waiting woken

namespace CondVar

variable {ι : Type*} [DecidableEq ι]

/-- Nobody waits. -/
def empty (ι : Type*) : CondVar ι := ⟨∅, ∅, Finset.disjoint_empty_left ∅⟩

/-- Thread `i` blocks, if it is not waiting already. -/
def block (v : CondVar ι) (i : ι) : CondVar ι where
  waiting := insert i v.waiting
  woken := v.woken.erase i
  disj := by
    rw [Finset.disjoint_insert_left]
    exact ⟨Finset.notMem_erase i v.woken, v.disj.mono_right (Finset.erase_subset i v.woken)⟩

/-- A blocked waiter is woken, by a notification or spuriously. -/
def wake (v : CondVar ι) (i : ι) : CondVar ι where
  waiting := v.waiting.erase i
  woken := insert i v.woken
  disj := by
    rw [Finset.disjoint_insert_right]
    exact ⟨Finset.notMem_erase i v.waiting, v.disj.mono_left (Finset.erase_subset i v.waiting)⟩

/-- `notify_one`: some blocked waiter `i` is woken, none if nobody waits. -/
def notifyOne (v : CondVar ι) (i : ι) : Option (CondVar ι) :=
  if v.waiting = ∅ then some v else if i ∈ v.waiting then some (v.wake i) else none

/-- `notify_all`. -/
def notifyAll (v : CondVar ι) : CondVar ι := ⟨∅, v.waiting ∪ v.woken, Finset.disjoint_empty_left _⟩

/-- A woken waiter has the mutex again and leaves. -/
def resume (v : CondVar ι) (i : ι) : CondVar ι where
  waiting := v.waiting
  woken := v.woken.erase i
  disj := v.disj.mono_right (Finset.erase_subset i v.woken)

/-- **A wake-up adds one pending wake-up.** -/
theorem card_woken_wake {v : CondVar ι} {i : ι} (h : i ∈ v.waiting) :
    (v.wake i).woken.card = v.woken.card + 1 :=
  Finset.card_insert_of_notMem (Finset.disjoint_left.mp v.disj h)

theorem notifyOne_eq_some {v v' : CondVar ι} {i : ι} (h : v.notifyOne i = some v') :
    (v.waiting = ∅ ∧ v' = v) ∨ (i ∈ v.waiting ∧ v' = v.wake i) := by
  unfold notifyOne at h
  split_ifs at h with h0 hi
  · exact Or.inl ⟨h0, (Option.some.inj h).symm⟩
  · exact Or.inr ⟨hi, (Option.some.inj h).symm⟩

end CondVar
