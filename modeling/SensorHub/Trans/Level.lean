import SensorHub.Trans.Run
import Mathlib.Logic.Function.Basic

set_option autoImplicit false

/-!
# Waiting for a level

A source is ready or not, and announces it: some of its steps wake those who watch it. A watcher
puts itself on the source's queue first and tests the level after that; from then on a wake-up puts
it on its ready list. To wait, it takes the source from the list and tests the level again, or goes
to sleep if the list is empty. While the level is found, the source stays on the list.

* `Watch`, `Watched`, `watchStep`: watchers, and a system of them around a source.
* `Announced`: the source owes a wake-up from the moment it becomes ready until it has made it.
* `Noticed`, **`noticed_step`**, **`noticed_of_reachable`**: no watcher misses the level.
* **`reported`**: a watcher that waits while the source is ready and owes nothing is told.
-/

namespace Trans

/-- Where a watcher stands. -/
inductive Stage
  | absent
  /-- On the queue, before its first test. -/
  | adding
  /-- Between two waits. -/
  | working
  /-- Taken from the ready list, before the test. -/
  | testing
  | asleep
  deriving DecidableEq

/-- A watcher: its stage, whether the source is on its ready list, and how often it was told. -/
structure Watch where
  stage : Stage
  ready : Bool
  told : ℕ
  deriving DecidableEq

/-- A wake-up reaches those who are on the queue. -/
def Watch.wake (w : Watch) : Watch :=
  match w.stage with
  | .absent => w
  | .asleep => { w with stage := .working, ready := true }
  | _ => { w with ready := true }

/-- A source and its watchers. -/
structure Watched (ι σ : Type*) where
  src : σ
  watch : ι → Watch

inductive WatchLabel (ι ℓ : Type*)
  /-- A step of the source. -/
  | src (l : ℓ)
  /-- The watcher puts itself on the queue. -/
  | add (j : ι)
  /-- Its first test. -/
  | first (j : ι)
  /-- It waits: it takes the source from its list, or falls asleep. -/
  | wait (j : ι)
  | test (j : ι)
  /-- A sleeper is woken by something else, or by the clock. -/
  | expire (j : ι)
  | remove (j : ι)

variable {ι σ ℓ : Type*}

def Watched.init (s : σ) : Watched ι σ := ⟨s, fun _ => ⟨.absent, false, 0⟩⟩

/-- The source owes a wake-up (`due`) when it has become ready, until it makes one. -/
structure Announced (step : σ → ℓ → Option σ) (level : σ → Bool) (wakes : ℓ → Bool)
    (due : σ → Prop) : Prop where
  rise : ∀ {s l t}, step s l = some t → level s = false → level t = true → due t
  keep : ∀ {s l t}, step s l = some t → wakes l = false → due s → due t

/-- A watcher that has not been told of a level is about to test it, or to be woken. -/
def Noticed (level : σ → Bool) (due : σ → Prop) (s : Watched ι σ) : Prop :=
  ∀ j, (s.watch j).stage ≠ .absent → level s.src = true →
    (s.watch j).ready = true ∨ (s.watch j).stage = .adding ∨ (s.watch j).stage = .testing ∨
      due s.src

/-- A sleeper has nothing on its list. -/
def Sleepy (s : Watched ι σ) : Prop :=
  ∀ j, (s.watch j).stage = .asleep → (s.watch j).ready = false

variable {step : σ → ℓ → Option σ} {level : σ → Bool} {wakes : ℓ → Bool} {due : σ → Prop}

theorem Watch.ready_wake {w : Watch} (h : w.stage ≠ .absent) : w.wake.ready = true := by
  unfold Watch.wake
  cases hw : w.stage with
  | absent => exact absurd hw h
  | _ => rfl

theorem Watch.stage_wake {w : Watch} (h : w.wake.stage ≠ .absent) : w.stage ≠ .absent := by
  intro hw
  rw [Watch.wake, hw] at h
  exact h hw

theorem Watch.wake_ne_asleep (w : Watch) : w.wake.stage ≠ .asleep := by
  unfold Watch.wake
  cases hw : w.stage <;> simp [hw]

theorem noticed_src (ha : Announced step level wakes due) {s : Watched ι σ} {l : ℓ} {src : σ}
    (hs : Noticed level due s) (h : step s.src l = some src) : Noticed level due
      ⟨src, if wakes l then fun j => (s.watch j).wake else s.watch⟩ := by
  intro j hj hlevel
  cases hl : wakes l with
  | true =>
      simp only [hl, if_true] at hj ⊢
      exact Or.inl (Watch.ready_wake (Watch.stage_wake hj))
  | false =>
      simp only [hl, Bool.false_eq_true, if_false] at hj ⊢
      cases hbefore : level s.src with
      | false => exact Or.inr (Or.inr (Or.inr (ha.rise h hbefore hlevel)))
      | true =>
          rcases hs j hj hbefore with hready | hadding | htesting | hdue
          · exact Or.inl hready
          · exact Or.inr (Or.inl hadding)
          · exact Or.inr (Or.inr (Or.inl htesting))
          · exact Or.inr (Or.inr (Or.inr (ha.keep h hl hdue)))

variable [DecidableEq ι]

/-- Watcher `j` becomes `w`. -/
def Watched.set (s : Watched ι σ) (j : ι) (w : Watch) : Watched ι σ :=
  { s with watch := Function.update s.watch j w }

def watchStep (step : σ → ℓ → Option σ) (level : σ → Bool) (wakes : ℓ → Bool) (s : Watched ι σ) :
    WatchLabel ι ℓ → Option (Watched ι σ)
  | .src l =>
      (step s.src l).map fun src =>
        ⟨src, if wakes l then fun j => (s.watch j).wake else s.watch⟩
  | .add j =>
      if (s.watch j).stage = .absent then some (s.set j { s.watch j with stage := .adding })
      else none
  | .first j =>
      if (s.watch j).stage = .adding then
        some (s.set j { s.watch j with
          stage := .working, ready := (s.watch j).ready || level s.src })
      else none
  | .wait j =>
      if (s.watch j).stage = .working then
        if (s.watch j).ready then
          some (s.set j { s.watch j with stage := .testing, ready := false })
        else some (s.set j { s.watch j with stage := .asleep })
      else none
  | .test j =>
      if (s.watch j).stage = .testing then
        if level s.src then some (s.set j ⟨.working, true, (s.watch j).told + 1⟩)
        else some (s.set j { s.watch j with stage := .working })
      else none
  | .expire j =>
      if (s.watch j).stage = .asleep then some (s.set j { s.watch j with stage := .working })
      else none
  | .remove j =>
      if (s.watch j).stage = .working then
        some (s.set j { s.watch j with stage := .absent, ready := false })
      else none

/-- A watcher that moves on is not overlooked if it was not. -/
theorem Noticed.set {s : Watched ι σ} (hs : Noticed level due s) {j : ι} {w : Watch}
    (hw : w.stage ≠ .absent → level s.src = true →
      w.ready = true ∨ w.stage = .adding ∨ w.stage = .testing ∨ due s.src) :
    Noticed level due (s.set j w) := by
  intro k hk hlevel
  simp only [Watched.set] at hk ⊢
  by_cases hkj : k = j
  · subst hkj
    rw [Function.update_self] at hk ⊢
    exact hw hk hlevel
  · rw [Function.update_of_ne hkj] at hk ⊢
    exact hs k hk hlevel

theorem Sleepy.set {s : Watched ι σ} (hs : Sleepy s) {j : ι} {w : Watch}
    (hw : w.stage = .asleep → w.ready = false) : Sleepy (s.set j w) := by
  intro k hk
  simp only [Watched.set] at hk ⊢
  by_cases hkj : k = j
  · subst hkj
    rw [Function.update_self] at hk ⊢
    exact hw hk
  · rw [Function.update_of_ne hkj] at hk ⊢
    exact hs k hk

/-- **Every step keeps the watchers informed.** -/
theorem noticed_step (ha : Announced step level wakes due) {s t : Watched ι σ}
    {l : WatchLabel ι ℓ} (hs : Noticed level due s ∧ Sleepy s)
    (h : watchStep step level wakes s l = some t) : Noticed level due t ∧ Sleepy t := by
  obtain ⟨hnoticed, hsleepy⟩ := hs
  cases l with
  | src l =>
      obtain ⟨src, hsrc, rfl⟩ := Option.map_eq_some_iff.mp h
      refine ⟨noticed_src ha hnoticed hsrc, fun j hj => ?_⟩
      cases hl : wakes l with
      | true =>
          simp only [hl, if_true] at hj
          exact absurd hj (Watch.wake_ne_asleep _)
      | false =>
          simp only [hl, Bool.false_eq_true, if_false] at hj ⊢
          exact hsleepy j hj
  | add j =>
      simp only [watchStep] at h
      split_ifs at h with hstage
      cases h
      exact ⟨hnoticed.set fun _ _ => Or.inr (Or.inl rfl), hsleepy.set fun hw => by cases hw⟩
  | first j =>
      simp only [watchStep] at h
      split_ifs at h with hstage
      cases h
      refine ⟨hnoticed.set fun _ hlevel => Or.inl ?_, hsleepy.set fun hw => by cases hw⟩
      rw [hlevel, Bool.or_true]
  | wait j =>
      simp only [watchStep] at h
      split_ifs at h with hstage hready
      · cases h
        exact ⟨hnoticed.set fun _ _ => Or.inr (Or.inr (Or.inl rfl)), hsleepy.set fun _ => rfl⟩
      · cases h
        have hnot : (s.watch j).ready = false := (Bool.not_eq_true _).mp hready
        refine ⟨hnoticed.set fun _ hlevel => ?_, hsleepy.set fun _ => hnot⟩
        -- the list is empty and no test is to come, so the wake-up is
        have hpresent : (s.watch j).stage ≠ .absent := by rw [hstage]; decide
        rcases hnoticed j hpresent hlevel with h | h | h | hdue
        · exact absurd h hready
        · rw [hstage] at h
          cases h
        · rw [hstage] at h
          cases h
        · exact Or.inr (Or.inr (Or.inr hdue))
  | test j =>
      simp only [watchStep] at h
      split_ifs at h with hstage hlevel
      · cases h
        exact ⟨hnoticed.set fun _ _ => Or.inl rfl, hsleepy.set fun hw => by cases hw⟩
      · cases h
        exact ⟨hnoticed.set fun _ h => absurd h hlevel, hsleepy.set fun hw => by cases hw⟩
  | expire j =>
      simp only [watchStep] at h
      split_ifs at h with hstage
      cases h
      refine ⟨hnoticed.set fun _ hlevel => ?_, hsleepy.set fun hw => by cases hw⟩
      have hpresent : (s.watch j).stage ≠ .absent := by rw [hstage]; decide
      rcases hnoticed j hpresent hlevel with h | h | h | hdue
      · exact Or.inl h
      · rw [hstage] at h
        cases h
      · rw [hstage] at h
        cases h
      · exact Or.inr (Or.inr (Or.inr hdue))
  | remove j =>
      simp only [watchStep] at h
      split_ifs at h with hstage
      cases h
      exact ⟨hnoticed.set fun h => absurd rfl h, hsleepy.set fun hw => by cases hw⟩

/-- **No watcher misses the level.** -/
theorem noticed_of_reachable (ha : Announced step level wakes due) {s₀ : σ} {s : Watched ι σ}
    (h : Reachable (watchStep step level wakes) (Watched.init s₀) s) :
    Noticed level due s ∧ Sleepy s := by
  refine h.inv (fun s => Noticed level due s ∧ Sleepy s) (fun _ _ _ => noticed_step ha) ⟨?_, ?_⟩
  · intro j hj
    exact absurd rfl hj
  · intro j _
    rfl

/-- **A watcher that waits is told**, if the source is ready and owes no wake-up. -/
theorem reported {s : Watched ι σ} (hs : Noticed level due s) {j : ι}
    (hj : (s.watch j).stage = .working) (hlevel : level s.src = true) (hdue : ¬ due s.src) :
    ∃ t, run (watchStep step level wakes) s [.wait j, .test j] = some t ∧ t.src = s.src ∧
      (t.watch j).told = (s.watch j).told + 1 := by
  have hpresent : (s.watch j).stage ≠ .absent := by rw [hj]; decide
  have hready : (s.watch j).ready = true := by
    rcases hs j hpresent hlevel with h | h | h | h
    · exact h
    · rw [hj] at h
      cases h
    · rw [hj] at h
      cases h
    · exact absurd h hdue
  have hwait : watchStep step level wakes s (.wait j) =
      some (s.set j { s.watch j with stage := .testing, ready := false }) := by
    rw [watchStep, if_pos hj, if_pos hready]
  have htest : watchStep step level wakes
      (s.set j { s.watch j with stage := .testing, ready := false }) (.test j) =
        some ((s.set j { s.watch j with stage := .testing, ready := false }).set j
          ⟨.working, true, (s.watch j).told + 1⟩) := by
    have hset : (s.set j { s.watch j with stage := .testing, ready := false }).watch j =
        ⟨.testing, false, (s.watch j).told⟩ := Function.update_self ..
    have hsame : level (s.set j { s.watch j with stage := .testing, ready := false }).src = true :=
      hlevel
    rw [watchStep, hset, if_pos rfl, if_pos hsame]
  refine ⟨_, run_cons_eq_some.mpr ⟨_, hwait, run_cons_eq_some.mpr ⟨_, htest, rfl⟩⟩, rfl, ?_⟩
  simp only [Watched.set, Function.update_self]

end Trans
