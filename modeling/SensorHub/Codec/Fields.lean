import Mathlib.Data.List.Basic
import Mathlib.Tactic.Common

set_option autoImplicit false

/-!
# Assignments to the fields of a record

A record has a field for each key. A list of assignments gives fields new values, one after the
other, each from a text that has to be converted first. The whole list fails if a conversion does;
otherwise the last assignment to a field counts, whatever the order of the others.

* `Fields`: a record by its fields; `assignAll`, `valuesOf`.
* **`assignAll_isSome`**, **`get_assignAll`**: when a list succeeds, and what it leaves in a field.
* **`assignAll_congr`**: lists that fail together and agree on the last values do the same.
-/

/-- A record of type `σ` with a field of type `Field k` for each key `k`. -/
structure Fields (κ σ : Type*) where
  Field : κ → Type
  get : (k : κ) → σ → Field k
  put : (k : κ) → Field k → σ → σ
  get_put : ∀ k x s, get k (put k x s) = x
  get_put_of_ne : ∀ {k k'}, k ≠ k' → ∀ x s, get k (put k' x s) = get k s
  ext : ∀ {s t}, (∀ k, get k s = get k t) → s = t

namespace Fields

variable {κ σ ρ : Type*} (F : Fields κ σ) (convert : (k : κ) → ρ → Option (F.Field k))

/-- The assignments, one after the other. -/
def assignAll : σ → List (κ × ρ) → Option σ
  | s, [] => some s
  | s, a :: as => (convert a.1 a.2).bind fun x => assignAll (F.put a.1 x s) as

variable {F convert}

/-- **A list of assignments succeeds if and only if every conversion does.** -/
theorem assignAll_isSome {s : σ} {as : List (κ × ρ)} :
    (F.assignAll convert s as).isSome ↔ ∀ a ∈ as, (convert a.1 a.2).isSome := by
  induction as generalizing s with
  | nil => simp [assignAll]
  | cons a as ih =>
      rw [assignAll, List.forall_mem_cons]
      cases hx : convert a.1 a.2 with
      | none => simp
      | some x => simpa using ih

variable [DecidableEq κ]

/-- The texts that are assigned to the field of `k`. -/
def valuesOf (k : κ) (as : List (κ × ρ)) : List ρ :=
  as.filterMap fun a => if a.1 = k then some a.2 else none

theorem mem_valuesOf {k : κ} {v : ρ} {as : List (κ × ρ)} : v ∈ valuesOf k as ↔ (k, v) ∈ as := by
  rw [valuesOf, List.mem_filterMap]
  constructor
  · rintro ⟨⟨k', w⟩, hmem, hw⟩
    split_ifs at hw with hk
    cases hw
    exact hk ▸ hmem
  · intro hmem
    exact ⟨(k, v), hmem, if_pos rfl⟩

theorem valuesOf_cons_self (k : κ) (v : ρ) (as : List (κ × ρ)) :
    valuesOf k ((k, v) :: as) = v :: valuesOf k as := by
  simp [valuesOf]

theorem valuesOf_cons_of_ne {k k' : κ} (h : k ≠ k') (v : ρ) (as : List (κ × ρ)) :
    valuesOf k ((k', v) :: as) = valuesOf k as := by
  simp [valuesOf, h.symm]

theorem valuesOf_append (k : κ) (as bs : List (κ × ρ)) :
    valuesOf k (as ++ bs) = valuesOf k as ++ valuesOf k bs :=
  List.filterMap_append

/-- **The last assignment to a field counts.** -/
theorem get_assignAll {s t : σ} {as : List (κ × ρ)} (h : F.assignAll convert s as = some t)
    (k : κ) :
    some (F.get k t) = ((valuesOf k as).getLast?).elim (some (F.get k s)) (convert k) := by
  induction as generalizing s with
  | nil =>
      cases h
      rfl
  | cons a as ih =>
      obtain ⟨k', v⟩ := a
      obtain ⟨x, hx, h⟩ := Option.bind_eq_some_iff.mp h
      rw [ih h]
      by_cases hk : k = k'
      · subst hk
        rw [valuesOf_cons_self, List.getLast?_cons, F.get_put]
        cases (valuesOf k as).getLast? with
        | none => exact hx.symm
        | some w => rfl
      · rw [valuesOf_cons_of_ne hk, F.get_put_of_ne hk]

/-- **What counts in a list of assignments**: whether a conversion fails, and the last values. -/
theorem assignAll_congr {s : σ} {as bs : List (κ × ρ)}
    (hfail : (∀ a ∈ as, (convert a.1 a.2).isSome) ↔ ∀ b ∈ bs, (convert b.1 b.2).isSome)
    (hlast : ∀ k, (valuesOf k as).getLast? = (valuesOf k bs).getLast?) :
    F.assignAll convert s as = F.assignAll convert s bs := by
  rw [← assignAll_isSome (s := s), ← assignAll_isSome (s := s)] at hfail
  cases has : F.assignAll convert s as with
  | none =>
      rw [has, Option.isSome_none] at hfail
      cases hbs : F.assignAll convert s bs with
      | none => rfl
      | some u => exact absurd (hfail.mpr (by rw [hbs]; rfl)) Bool.false_ne_true
  | some t =>
      rw [has, Option.isSome_some] at hfail
      obtain ⟨u, hu⟩ := Option.isSome_iff_exists.mp (hfail.mp rfl)
      rw [hu]
      refine congrArg some (F.ext fun k => Option.some.inj ?_)
      rw [get_assignAll has, get_assignAll hu, hlast]

end Fields
