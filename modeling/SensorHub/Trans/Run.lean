import Mathlib.Tactic.Common

set_option autoImplicit false

/-!
# Runs of a labelled transition system

A system is a partial step function `step : σ → ℓ → Option σ`. All nondeterminism (the scheduler,
the results of system calls, the arguments of concurrent callers) is in the label; `none` says that
the label is not enabled in the state.

* `run`, `Reachable`: the state after a list of labels, and the states some list leads to.
* **`run_inv`**, **`Reachable.inv`**: what one step preserves, every run preserves.
* **`Reachable.simulate`**: forward simulation.
* `AllSteps`: every step of a run meets a condition on the state before it and on its label;
  **`run_inv_of`** is the invariant rule for such runs, `exists_step_of_not_allSteps` finds the step
  that breaks the condition in another; **`allSteps_congr`** compares two conditions, and
  **`run_good_or_bad`** reads off the last state whether the condition was met.
* `Always`, **`always_iff_allSteps`**: what holds in every state of a run.
* `trace`: what is observed of the steps of a run; **`run_getLastD`**: what is observed last.
* **`run_length_le`**, **`exists_run_done`**: a measure that every step decreases.
-/

namespace Trans

variable {σ ℓ : Type*} {step : σ → ℓ → Option σ}

/-- The state after the labels `ls`, if each is enabled when its turn comes. -/
def run (step : σ → ℓ → Option σ) : σ → List ℓ → Option σ
  | s, [] => some s
  | s, l :: ls => (step s l).bind fun t => run step t ls

/-- Some list of labels leads from `s` to `t`. -/
def Reachable (step : σ → ℓ → Option σ) (s t : σ) : Prop := ∃ ls, run step s ls = some t

@[simp] theorem run_nil (s : σ) : run step s [] = some s := rfl

theorem run_cons (s : σ) (l : ℓ) (ls : List ℓ) :
    run step s (l :: ls) = (step s l).bind fun t => run step t ls := rfl

theorem run_cons_eq_some {s u : σ} {l : ℓ} {ls : List ℓ} :
    run step s (l :: ls) = some u ↔ ∃ t, step s l = some t ∧ run step t ls = some u := by
  rw [run_cons, Option.bind_eq_some_iff]

theorem run_append (s : σ) (ls ms : List ℓ) :
    run step s (ls ++ ms) = (run step s ls).bind fun t => run step t ms := by
  induction ls generalizing s with
  | nil => rfl
  | cons l ls ih =>
      rw [List.cons_append, run_cons, run_cons]
      cases step s l with
      | none => rfl
      | some t => exact ih t

theorem run_append_eq_some {s u : σ} {ls ms : List ℓ} :
    run step s (ls ++ ms) = some u ↔ ∃ t, run step s ls = some t ∧ run step t ms = some u := by
  rw [run_append, Option.bind_eq_some_iff]

theorem run_snoc_eq_some {s u : σ} {ls : List ℓ} {l : ℓ} :
    run step s (ls ++ [l]) = some u ↔ ∃ t, run step s ls = some t ∧ step t l = some u := by
  simp [run_append_eq_some, run_cons_eq_some]

/-- **The invariant rule for runs.** -/
theorem run_inv (Inv : σ → Prop) (hstep : ∀ s l t, Inv s → step s l = some t → Inv t)
    {s t : σ} {ls : List ℓ} (hs : Inv s) (h : run step s ls = some t) : Inv t := by
  induction ls generalizing s with
  | nil => cases h; exact hs
  | cons l ls ih =>
      obtain ⟨u, hu, h⟩ := run_cons_eq_some.mp h
      exact ih (hstep s l u hs hu) h

theorem Reachable.refl (s : σ) : Reachable step s s := ⟨[], rfl⟩

theorem Reachable.tail {s t u : σ} {l : ℓ} (h : Reachable step s t) (hl : step t l = some u) :
    Reachable step s u := by
  obtain ⟨ls, h⟩ := h
  exact ⟨ls ++ [l], run_snoc_eq_some.mpr ⟨t, h, hl⟩⟩

/-- **The invariant rule for reachable states.** -/
theorem Reachable.inv {s t : σ} (h : Reachable step s t) (Inv : σ → Prop)
    (hstep : ∀ s l t, Inv s → step s l = some t → Inv t) (hs : Inv s) : Inv t := by
  obtain ⟨ls, h⟩ := h
  exact run_inv Inv hstep hs h

/-- The same rule, where a step may count on all that is known of reachable states. -/
theorem Reachable.inv_reachable {s t : σ} (h : Reachable step s t) (Inv : σ → Prop)
    (hstep : ∀ u l v, Reachable step s u → Inv u → step u l = some v → Inv v) (hs : Inv s) :
    Inv t := by
  refine (h.inv (fun u => Reachable step s u ∧ Inv u) (fun u l v hu huv => ?_) ⟨.refl s, hs⟩).2
  exact ⟨hu.1.tail huv, hstep u l v hu.1 hu.2 huv⟩

theorem Reachable.trans {s t u : σ} (h : Reachable step s t) (h' : Reachable step t u) :
    Reachable step s u := by
  obtain ⟨ls, h⟩ := h
  obtain ⟨ms, h'⟩ := h'
  exact ⟨ls ++ ms, run_append_eq_some.mpr ⟨t, h, h'⟩⟩

/-- **Forward simulation.** If each step is matched by a run of the other system, the reachable
states are matched by reachable states. -/
theorem Reachable.simulate {τ m : Type*} {step' : τ → m → Option τ} {R : σ → τ → Prop}
    (hstep : ∀ s l t r, R s r → step s l = some t → ∃ u, Reachable step' r u ∧ R t u)
    {s t : σ} {r : τ} (hr : R s r) (h : Reachable step s t) :
    ∃ u, Reachable step' r u ∧ R t u := by
  refine h.inv (fun x => ∃ u, Reachable step' r u ∧ R x u) (fun x l y hx hxy => ?_)
    ⟨r, .refl r, hr⟩
  obtain ⟨u, hu, hR⟩ := hx
  obtain ⟨v, hv, hRv⟩ := hstep x l y u hR hxy
  exact ⟨v, hu.trans hv, hRv⟩

/-! ### Runs whose steps meet a condition -/

/-- Every step of the run of `ls` from `s` meets `ok`, a condition on the state before the step and
on its label. -/
def AllSteps (step : σ → ℓ → Option σ) (ok : σ → ℓ → Prop) : σ → List ℓ → Prop
  | _, [] => True
  | s, l :: ls => ok s l ∧ ∀ t, step s l = some t → AllSteps step ok t ls

theorem AllSteps.cons {ok : σ → ℓ → Prop} {s t : σ} {l : ℓ} {ls : List ℓ}
    (h : step s l = some t) (hl : ok s l) (ht : AllSteps step ok t ls) :
    AllSteps step ok s (l :: ls) := by
  refine ⟨hl, ?_⟩
  intro u hu
  rw [h] at hu
  cases hu
  exact ht

theorem AllSteps.of_forall {ok : σ → ℓ → Prop} {ls : List ℓ} (h : ∀ l ∈ ls, ∀ s, ok s l) (s : σ) :
    AllSteps step ok s ls := by
  induction ls generalizing s with
  | nil => trivial
  | cons l ls ih =>
      exact ⟨h l List.mem_cons_self s,
        fun t _ => ih (fun m hm => h m (List.mem_cons_of_mem l hm)) t⟩

theorem AllSteps.and_forall {ok : σ → ℓ → Prop} {P : ℓ → Prop} {s : σ} {ls : List ℓ}
    (h : AllSteps step ok s ls) (hls : ∀ l ∈ ls, P l) :
    AllSteps step (fun s l => ok s l ∧ P l) s ls := by
  induction ls generalizing s with
  | nil => trivial
  | cons l ls ih =>
      exact ⟨⟨h.1, hls l List.mem_cons_self⟩,
        fun t ht => ih (h.2 t ht) fun m hm => hls m (List.mem_cons_of_mem l hm)⟩

theorem allSteps_append {ok : σ → ℓ → Prop} {s t : σ} {ls ms : List ℓ}
    (h : run step s ls = some t) :
    AllSteps step ok s (ls ++ ms) ↔ AllSteps step ok s ls ∧ AllSteps step ok t ms := by
  induction ls generalizing s with
  | nil =>
      cases h
      simp [AllSteps]
  | cons l ls ih =>
      obtain ⟨u, hu, h⟩ := run_cons_eq_some.mp h
      simp only [List.cons_append, AllSteps, hu, Option.some.injEq, forall_eq', ih h, and_assoc]

/-- **The invariant rule for runs whose steps all meet `ok`.** -/
theorem run_inv_of {ok : σ → ℓ → Prop} (Inv : σ → Prop)
    (hstep : ∀ s l t, Inv s → ok s l → step s l = some t → Inv t)
    {s t : σ} {ls : List ℓ} (hs : Inv s) (hok : AllSteps step ok s ls)
    (h : run step s ls = some t) : Inv t := by
  induction ls generalizing s with
  | nil => cases h; exact hs
  | cons l ls ih =>
      obtain ⟨u, hu, h⟩ := run_cons_eq_some.mp h
      exact ih (hstep s l u hs hok.1 hu) (hok.2 u hu) h

/-- In a run, a condition on the labels alone is one on the list of labels. -/
theorem allSteps_iff_forall {P : ℓ → Prop} {s t : σ} {ls : List ℓ} (h : run step s ls = some t) :
    AllSteps step (fun _ l => P l) s ls ↔ ∀ l ∈ ls, P l := by
  induction ls generalizing s with
  | nil => exact iff_of_true trivial (by simp)
  | cons l ls ih =>
      obtain ⟨u, hu, h⟩ := run_cons_eq_some.mp h
      simp only [AllSteps, hu, Option.some.injEq, forall_eq', ih h, List.forall_mem_cons]

/-- **When every step of a run does what it should.** If from a state with the invariant a step
meets `P` exactly when it meets `ok`, and then keeps the invariant, the same holds of whole runs. -/
theorem allSteps_congr {P ok : σ → ℓ → Prop} {Inv : σ → Prop}
    (hstep : ∀ s l t, Inv s → step s l = some t → (P s l ↔ ok s l) ∧ (ok s l → Inv t))
    {s t : σ} {ls : List ℓ} (hs : Inv s) (h : run step s ls = some t) :
    AllSteps step P s ls ↔ AllSteps step ok s ls := by
  induction ls generalizing s with
  | nil => exact Iff.rfl
  | cons l ls ih =>
      obtain ⟨u, hu, h⟩ := run_cons_eq_some.mp h
      obtain ⟨hiff, hinv⟩ := hstep s l u hs hu
      simp only [AllSteps, hu, Option.some.injEq, forall_eq', hiff]
      exact and_congr_right fun hok => ih (hinv hok) h

theorem allSteps_and {P Q : σ → ℓ → Prop} {s : σ} {ls : List ℓ} :
    AllSteps step (fun s l => P s l ∧ Q s l) s ls ↔
      AllSteps step P s ls ∧ AllSteps step Q s ls := by
  induction ls generalizing s with
  | nil => exact (and_self_iff).symm
  | cons l ls ih =>
      simp only [AllSteps, ih, forall_and]
      exact and_and_and_comm

/-- When the first step that breaks `ok` leads from the good states to the bad ones, and these are
never left, the last state tells whether the run meets `ok` throughout. -/
theorem run_good_or_bad {ok : σ → ℓ → Prop} {mine : ℓ → Prop} {Good Bad : σ → Prop}
    (hgood : ∀ s l t, Good s → mine l → step s l = some t →
      (ok s l → Good t) ∧ (¬ ok s l → Bad t))
    (hbad : ∀ s l t, Bad s → mine l → step s l = some t → Bad t)
    {s t : σ} {ls : List ℓ} (hs : Good s) (hls : ∀ l ∈ ls, mine l) (h : run step s ls = some t) :
    (AllSteps step ok s ls → Good t) ∧ (¬ AllSteps step ok s ls → Bad t) := by
  constructor
  · intro hok
    exact run_inv_of Good (fun s l t hs hl hst => (hgood s l t hs hl.2 hst).1 hl.1) hs
      (hok.and_forall hls) h
  · intro hok
    induction ls generalizing s with
    | nil => exact absurd trivial hok
    | cons l ls ih =>
        obtain ⟨u, hu, h⟩ := run_cons_eq_some.mp h
        have hl : mine l := hls l List.mem_cons_self
        have hrest : ∀ m ∈ ls, mine m := fun m hm => hls m (List.mem_cons_of_mem l hm)
        by_cases hsl : ok s l
        · refine ih ((hgood s l u hs hl hu).1 hsl) hrest h ?_
          intro hall
          exact hok (.cons hu hsl hall)
        · -- from the first bad state on
          exact run_inv_of Bad (fun s l t hs hl hst => hbad s l t hs hl hst)
            ((hgood s l u hs hl hu).2 hsl) (.of_forall (fun m hm _ => hrest m hm) u) h

/-- A run that does not meet `ok` throughout has a step that breaks it. -/
theorem exists_step_of_not_allSteps {ok : σ → ℓ → Prop} {s t : σ} {ls : List ℓ}
    (hok : ¬ AllSteps step ok s ls) (h : run step s ls = some t) :
    ∃ ms l ns u v, ls = ms ++ l :: ns ∧ run step s ms = some u ∧ ¬ ok u l ∧ step u l = some v ∧
      run step v ns = some t := by
  induction ls generalizing s with
  | nil => exact absurd trivial hok
  | cons l ls ih =>
      obtain ⟨v, hv, h⟩ := run_cons_eq_some.mp h
      by_cases hl : ok s l
      · have hrest : ¬ AllSteps step ok v ls := fun hall => hok (.cons hv hl hall)
        obtain ⟨ms, m, ns, u, w, rfl, hu, hm, hw, ht⟩ := ih hrest h
        exact ⟨l :: ms, m, ns, u, w, rfl, run_cons_eq_some.mpr ⟨v, hv, hu⟩, hm, hw, ht⟩
      · exact ⟨[], l, ls, s, v, rfl, rfl, hl, hv, h⟩

/-! ### What holds throughout a run -/

section Always

variable {P : σ → Prop}

/-- `P` holds in every state that the run of `ls` from `s` passes. -/
def Always (step : σ → ℓ → Option σ) (P : σ → Prop) (s : σ) (ls : List ℓ) : Prop :=
  ∀ ms t, ms <+: ls → run step s ms = some t → P t

theorem Always.head {s : σ} {ls : List ℓ} (h : Always step P s ls) : P s :=
  h [] s List.nil_prefix rfl

theorem always_nil {s : σ} : Always step P s [] ↔ P s := by
  refine ⟨Always.head, ?_⟩
  intro hs ms t hms h
  rw [List.prefix_nil.mp hms] at h
  cases h
  exact hs

theorem always_cons {s t : σ} {l : ℓ} {ls : List ℓ} (h : step s l = some t) :
    Always step P s (l :: ls) ↔ P s ∧ Always step P t ls := by
  constructor
  · intro hall
    refine ⟨hall.head, ?_⟩
    intro ms u hms hu
    exact hall (l :: ms) u (List.cons_prefix_cons.mpr ⟨rfl, hms⟩) (run_cons_eq_some.mpr ⟨t, h, hu⟩)
  · rintro ⟨hs, hall⟩ ms u hms hu
    cases ms with
    | nil =>
        cases hu
        exact hs
    | cons m ms =>
        obtain ⟨rfl, hrest⟩ := List.cons_prefix_cons.mp hms
        obtain ⟨v, hv, hu⟩ := run_cons_eq_some.mp hu
        rw [h] at hv
        cases hv
        exact hall ms u hrest hu

/-- **When a property holds throughout.** If a step from a state that has the property keeps it
exactly when the step meets `ok`, a run has it throughout exactly when its steps all meet `ok`. -/
theorem always_iff_allSteps {Inv : σ → Prop} {ok : σ → ℓ → Prop}
    (hstep : ∀ s l t, Inv s → P s → step s l = some t → Inv t ∧ (P t ↔ ok s l))
    {s t : σ} {ls : List ℓ} (hs : Inv s) (hp : P s) (h : run step s ls = some t) :
    Always step P s ls ↔ AllSteps step ok s ls := by
  induction ls generalizing s with
  | nil => exact iff_of_true (always_nil.mpr hp) trivial
  | cons l ls ih =>
      obtain ⟨u, hu, h⟩ := run_cons_eq_some.mp h
      obtain ⟨hinv, hiff⟩ := hstep s l u hs hp hu
      rw [always_cons hu]
      constructor
      · rintro ⟨-, hall⟩
        exact .cons hu (hiff.mp hall.head) ((ih hinv hall.head h).mp hall)
      · rintro ⟨hok, hall⟩
        exact ⟨hp, (ih hinv (hiff.mpr hok) h).mpr (hall u hu)⟩

end Always

/-! ### What is observed of a run -/

section Trace

variable {α : Type*} {obs : σ → ℓ → List α}

/-- What `obs` sees of the steps of the run of `ls` from `s`, one after the other. -/
def trace (step : σ → ℓ → Option σ) (obs : σ → ℓ → List α) : σ → List ℓ → List α
  | _, [] => []
  | s, l :: ls => obs s l ++ (step s l).elim [] fun t => trace step obs t ls

theorem trace_cons {s t : σ} {l : ℓ} (h : step s l = some t) (ls : List ℓ) :
    trace step obs s (l :: ls) = obs s l ++ trace step obs t ls := by
  rw [trace, h, Option.elim_some]

theorem trace_append {s t : σ} {ls : List ℓ} (h : run step s ls = some t) (ms : List ℓ) :
    trace step obs s (ls ++ ms) = trace step obs s ls ++ trace step obs t ms := by
  induction ls generalizing s with
  | nil => cases h; rfl
  | cons l ls ih =>
      obtain ⟨u, hu, h⟩ := run_cons_eq_some.mp h
      rw [List.cons_append, trace_cons hu, trace_cons hu, ih h, List.append_assoc]

/-- **What is observed last.** If the last observation of a step is what `f` is behind it, and a
step without one leaves `f` alone, the same holds of whole runs. -/
theorem run_getLastD {Inv : σ → Prop} {f : σ → α}
    (hstep : ∀ s l t, Inv s → step s l = some t → Inv t ∧ f t = (obs s l).getLastD (f s))
    {s t : σ} {ls : List ℓ} (hs : Inv s) (h : run step s ls = some t) :
    f t = (trace step obs s ls).getLastD (f s) := by
  induction ls generalizing s with
  | nil =>
      cases h
      rfl
  | cons l ls ih =>
      obtain ⟨u, hu, h⟩ := run_cons_eq_some.mp h
      obtain ⟨hinv, hf⟩ := hstep s l u hs hu
      rw [ih hinv h, hf, trace_cons hu]
      simp only [List.getLastD_eq_getLast?, List.getLast?_append]
      cases (trace step obs u ls).getLast? <;> rfl

end Trace

/-! ### Runs that end -/

section Decreasing

variable {Inv : σ → Prop} {ok : ℓ → Prop} {μ : σ → ℕ}

/-- **No run is longer than its measure.** -/
theorem run_length_le (hdec : ∀ s l t, Inv s → ok l → step s l = some t → Inv t ∧ μ t < μ s)
    {s t : σ} {ls : List ℓ} (hs : Inv s) (hok : ∀ l ∈ ls, ok l) (h : run step s ls = some t) :
    ls.length ≤ μ s := by
  induction ls generalizing s with
  | nil => exact Nat.zero_le _
  | cons l ls ih =>
      obtain ⟨u, hu, h⟩ := run_cons_eq_some.mp h
      obtain ⟨hinv, hlt⟩ := hdec s l u hs (hok l List.mem_cons_self) hu
      have hle := ih hinv (fun m hm => hok m (List.mem_cons_of_mem l hm)) h
      rw [List.length_cons]
      omega

/-- **A system that can always go on until it is done gets done.** -/
theorem exists_run_done (hdec : ∀ s l t, Inv s → ok l → step s l = some t → Inv t ∧ μ t < μ s)
    {Done : σ → Prop} (hgo : ∀ s, Inv s → ¬ Done s → ∃ l t, ok l ∧ step s l = some t)
    {s : σ} (hs : Inv s) : ∃ ls t, (∀ l ∈ ls, ok l) ∧ run step s ls = some t ∧ Done t := by
  induction hn : μ s using Nat.strongRecOn generalizing s with
  | ind n ih =>
      by_cases hd : Done s
      · exact ⟨[], s, by simp, rfl, hd⟩
      · obtain ⟨l, u, hl, hu⟩ := hgo s hs hd
        obtain ⟨hinv, hlt⟩ := hdec s l u hs hl hu
        obtain ⟨ls, t, hok, hrun, ht⟩ := ih (μ u) (hn ▸ hlt) hinv rfl
        refine ⟨l :: ls, t, ?_, run_cons_eq_some.mpr ⟨u, hu, hrun⟩, ht⟩
        rintro m (_ | ⟨_, hm⟩)
        · exact hl
        · exact hok m hm

end Decreasing

end Trans
