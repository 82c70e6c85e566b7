import Mathlib.Data.List.DropRight
import Mathlib.Tactic.Common

set_option autoImplicit false

/-!
# Lists without the padding at their ends

`strip p` takes the elements with `p` off both ends of a list.

* `strip_append_left`, `strip_append_right`: padding at an end does not matter.
* `strip_eq_nil`, `strip_eq_self`, `head_strip`: what is padding, and what has none at its ends.
* **`strip_append_cons`**: around an element that is no padding both sides are stripped at their
  outer end.
-/

namespace Trim

variable {α : Type*} {p : α → Bool}

/-- A list without the elements with `p` at its ends. -/
def strip (p : α → Bool) (xs : List α) : List α := (xs.dropWhile p).rdropWhile p

theorem rdropWhile_append_right {ws : List α} (hws : ∀ x ∈ ws, p x = true) (xs : List α) :
    (xs ++ ws).rdropWhile p = xs.rdropWhile p := by
  have hrev : ∀ x ∈ ws.reverse, p x = true := fun x hx => hws x (List.mem_reverse.mp hx)
  rw [List.rdropWhile, List.reverse_append, List.dropWhile_append_of_pos hrev, List.rdropWhile]

/-- Padding in front does not matter. -/
theorem strip_append_left {ws : List α} (hws : ∀ x ∈ ws, p x = true) (xs : List α) :
    strip p (ws ++ xs) = strip p xs := by
  rw [strip, List.dropWhile_append_of_pos hws, strip]

/-- Padding at the end does not matter. -/
theorem strip_append_right {ws : List α} (hws : ∀ x ∈ ws, p x = true) (xs : List α) :
    strip p (xs ++ ws) = strip p xs := by
  rw [strip, strip, List.dropWhile_append]
  split_ifs with hempty
  · rw [List.isEmpty_iff.mp hempty, List.dropWhile_eq_nil_iff.mpr hws]
  · exact rdropWhile_append_right hws _

theorem strip_eq_nil {xs : List α} : strip p xs = [] ↔ ∀ x ∈ xs, p x = true := by
  rw [strip, List.rdropWhile_eq_nil_iff]
  constructor
  · intro hrest x hx
    rw [← List.takeWhile_append_dropWhile (p := p) (l := xs), List.mem_append] at hx
    rcases hx with hx | hx
    · exact List.mem_takeWhile_imp hx
    · exact hrest x hx
  · intro hall x hx
    exact hall x (List.dropWhile_subset p hx)

theorem strip_dropWhile (xs : List α) : strip p (xs.dropWhile p) = strip p xs := by
  rw [strip, List.dropWhile_idempotent, strip]

theorem strip_rdropWhile (xs : List α) : strip p (xs.rdropWhile p) = strip p xs := by
  have hpad : ∀ x ∈ xs.rtakeWhile p, p x = true := fun x hx => List.mem_rtakeWhile_imp hx
  rw [← strip_append_right hpad (xs.rdropWhile p), List.rdropWhile_append_rtakeWhile]

/-- **Around an element that is no padding** both sides are stripped at their outer end. -/
theorem strip_append_cons {c : α} (hc : p c = false) (xs ys : List α) :
    strip p (xs ++ c :: ys) = xs.dropWhile p ++ c :: ys.rdropWhile p := by
  have hfront : (xs ++ c :: ys).dropWhile p = xs.dropWhile p ++ c :: ys := by
    rw [List.dropWhile_append]
    split_ifs with hempty
    · rw [List.isEmpty_iff.mp hempty, List.dropWhile_cons_of_neg (by simp [hc]), List.nil_append]
    · rfl
  have hpad : ∀ x ∈ ys.rtakeWhile p, p x = true := fun x hx => List.mem_rtakeWhile_imp hx
  have hsplit : xs.dropWhile p ++ c :: ys =
      (xs.dropWhile p ++ c :: ys.rdropWhile p) ++ ys.rtakeWhile p := by
    rw [List.append_assoc, List.cons_append, List.rdropWhile_append_rtakeWhile]
  rw [strip, hfront, hsplit, rdropWhile_append_right hpad, List.rdropWhile_eq_self_iff]
  intro hne
  rw [List.getLast_append_of_ne_nil _ (List.cons_ne_nil _ _)]
  by_cases hys : ys.rdropWhile p = []
  · simp [hys, hc]
  · rw [List.getLast_cons hys]
    exact List.rdropWhile_last_not p ys hys

/-- What has no padding at its ends. -/
theorem strip_eq_self {xs : List α} (hhead : ∀ x, xs.head? = some x → p x = false)
    (hlast : ∀ x, xs.getLast? = some x → p x = false) : strip p xs = xs := by
  have hfront : xs.dropWhile p = xs := by
    cases xs with
    | nil => rfl
    | cons x xs => rw [List.dropWhile_cons_of_neg (by simp [hhead x rfl])]
  rw [strip, hfront, List.rdropWhile_eq_self_iff]
  intro hne
  rw [hlast _ (List.getLast?_eq_some_getLast hne)]
  exact Bool.false_ne_true

theorem head_strip {xs : List α} {x : α} (h : (strip p xs).head? = some x) : p x = false := by
  obtain ⟨rest, hrest⟩ := List.rdropWhile_prefix p (xs.dropWhile p)
  cases hs : strip p xs with
  | nil => rw [hs] at h; cases h
  | cons y ys =>
      rw [hs] at h
      cases h
      have hdrop : xs.dropWhile p = x :: (ys ++ rest) := by
        rw [← hrest, ← List.cons_append, ← hs]
        rfl
      have hne : xs.dropWhile p ≠ [] := by
        rw [hdrop]
        exact List.cons_ne_nil _ _
      have hnot := List.head_dropWhile_not p hne
      simpa [hdrop] using hnot

end Trim
