import SensorHub.Trans.Run

set_option autoImplicit false

/-!
# An update beside a copy

A variable with two users. One sets it, once; the other reads it and later writes back what it has
read. Seen from the variable, a step sets it, takes the copy, puts the copy back or does neither.

* `Cell`, `Cell.Step`.
* `Cell.Fresh`, `Cell.Stale`: the copy is what the variable holds; the update is lost, or will be.
* **`Cell.kept_iff`**: the update is kept if and only if it finds no copy under way, or changes
  nothing.
-/

namespace Trans

variable {α σ ℓ : Type*}

/-- A variable, whether it was set, and the copy that is still to be written back. -/
structure Cell (α : Type*) where
  value : α
  isSet : Bool
  copy : Option α

namespace Cell

/-- A step, seen from the variable; the flag says that it sets the variable. -/
inductive Step (target : α) : Bool → Cell α → Cell α → Prop
  | set {c : Cell α} (hset : c.isSet = false) : Step target true c ⟨target, true, c.copy⟩
  | take {c : Cell α} (hcopy : c.copy = none) :
      Step target false c ⟨c.value, c.isSet, some c.value⟩
  | back {c : Cell α} {v : α} (hcopy : c.copy = some v) : Step target false c ⟨v, c.isSet, none⟩
  | stay {c : Cell α} : Step target false c c

/-- The copy is what the variable holds, and once set the variable holds `target`. -/
structure Fresh (target : α) (c : Cell α) : Prop where
  copy : ∀ v, c.copy = some v → v = c.value
  value : c.isSet = true → c.value = target

/-- The variable was set, and what is there, or will be when the copy is back, is another value. -/
def Stale (target : α) (c : Cell α) : Prop := c.isSet = true ∧ c.copy.getD c.value ≠ target

/-- No copy is under way, or the variable holds `target`. -/
def Safe (target : α) (c : Cell α) : Prop := c.copy = none ∨ c.value = target

variable {target : α} {c c' : Cell α} {b : Bool}

theorem Fresh.step (hc : Fresh target c) (hsafe : b = true → Safe target c)
    (h : Step target b c c') : Fresh target c' := by
  cases h with
  | set hset =>
      refine ⟨?_, fun _ => rfl⟩
      intro v hv
      rcases hsafe rfl with hnone | hvalue
      · simp only [hnone, reduceCtorEq] at hv
      · rw [hc.copy v hv, hvalue]
  | take hcopy =>
      refine ⟨?_, hc.value⟩
      intro v hv
      exact (Option.some.inj hv).symm
  | back hcopy =>
      refine ⟨by simp, ?_⟩
      intro hset
      rw [← hc.value hset]
      exact hc.copy _ hcopy
  | stay => exact hc

/-- A set that is not safe leaves a copy of another value under way. -/
theorem Fresh.stale (hc : Fresh target c) (hbad : ¬ Safe target c) (h : Step target true c c') :
    Stale target c' := by
  cases h with
  | set hset =>
      obtain ⟨hcopy, hvalue⟩ := not_or.mp hbad
      obtain ⟨v, hv⟩ := Option.ne_none_iff_exists'.mp hcopy
      refine ⟨rfl, ?_⟩
      simp only [hv, Option.getD_some, hc.copy v hv]
      exact hvalue

theorem Stale.step (hc : Stale target c) (h : Step target b c c') : Stale target c' := by
  obtain ⟨hset, hne⟩ := hc
  cases h with
  | set hnot =>
      rw [hnot] at hset
      cases hset
  | take hcopy =>
      rw [hcopy] at hne
      exact ⟨hset, hne⟩
  | back hcopy =>
      rw [hcopy] at hne
      exact ⟨hset, hne⟩
  | stay => exact ⟨hset, hne⟩

/-- **The update is kept if and only if it is safe when it is made.** `f` is the variable of a
system, and `sets` tells which of its steps set it. -/
theorem kept_iff {step : σ → ℓ → Option σ} {Inv : σ → Prop} {mine : ℓ → Prop} {f : σ → Cell α}
    {sets : σ → ℓ → Bool}
    (hstep : ∀ s l t, Inv s → mine l → step s l = some t →
      Inv t ∧ Step target (sets s l) (f s) (f t))
    {s t : σ} {ls : List ℓ} (hs : Inv s) (hfresh : Fresh target (f s)) (hls : ∀ l ∈ ls, mine l)
    (h : run step s ls = some t) (hset : (f t).isSet = true) (hcopy : (f t).copy = none) :
    (f t).value = target ↔
      AllSteps step (fun s l => sets s l = true → Safe target (f s)) s ls := by
  have hgood : ∀ s l t, Inv s ∧ Fresh target (f s) → mine l → step s l = some t →
      ((sets s l = true → Safe target (f s)) → Inv t ∧ Fresh target (f t)) ∧
        (¬ (sets s l = true → Safe target (f s)) → Inv t ∧ Stale target (f t)) := by
    intro s l t hs hl hst
    obtain ⟨hinv, hcell⟩ := hstep s l t hs.1 hl hst
    refine ⟨fun hsafe => ⟨hinv, hs.2.step hsafe hcell⟩, ?_⟩
    intro hbad
    obtain ⟨hsets, hunsafe⟩ := Classical.not_imp.mp hbad
    rw [hsets] at hcell
    exact ⟨hinv, hs.2.stale hunsafe hcell⟩
  have hbad : ∀ s l t, Inv s ∧ Stale target (f s) → mine l → step s l = some t →
      Inv t ∧ Stale target (f t) := by
    intro s l t hs hl hst
    obtain ⟨hinv, hcell⟩ := hstep s l t hs.1 hl hst
    exact ⟨hinv, hs.2.step hcell⟩
  obtain ⟨hkept, hlost⟩ := run_good_or_bad hgood hbad ⟨hs, hfresh⟩ hls h
  constructor
  · intro hvalue
    by_contra hbad
    have hne := (hlost hbad).2.2
    rw [hcopy] at hne
    exact hne hvalue
  · intro hok
    exact (hkept hok).2.value hset

end Cell

end Trans
