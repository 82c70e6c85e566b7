import Mathlib.Tactic.Common

set_option autoImplicit false

/-!
# Greedy segmentation with one archived segment

Pieces of some weight are added one after the other to a live segment. A live segment that has
reached the limit is first archived, in place of the one archived before, and a new one is begun. A
limit of zero is none.

* `Segments`, `Segments.push`, `Segments.pushAll`.
* **`pushAll_suffix`**: archive and live segment are the latest pieces, in order and whole.
* **`pushAll_unlimited`**: without a limit nothing is lost.
* `total_length`: the weight of a segment of lists, by their lengths.
-/

/-- The archived and the live segment. -/
structure Segments (α : Type*) where
  archive : List α
  live : List α

namespace Segments

variable {α : Type*} (weight : α → ℕ) (limit : ℕ)

/-- The weight of a segment. -/
def total : List α → ℕ
  | [] => 0
  | x :: xs => weight x + total xs

/-- One more piece. -/
def push (s : Segments α) (x : α) : Segments α :=
  if 0 < limit ∧ limit ≤ total weight s.live then ⟨s.live, [x]⟩
  else ⟨s.archive, s.live ++ [x]⟩

/-- Pieces, one after the other. -/
def pushAll (s : Segments α) (xs : List α) : Segments α := xs.foldl (push weight limit) s

/-- All pieces that are kept, the oldest first. -/
def kept (s : Segments α) : List α := s.archive ++ s.live

variable {weight limit}

theorem pushAll_append (s : Segments α) (xs ys : List α) :
    pushAll weight limit s (xs ++ ys) = pushAll weight limit (pushAll weight limit s xs) ys :=
  List.foldl_append

theorem kept_push_suffix (s : Segments α) (x : α) :
    (push weight limit s x).kept <:+ s.kept ++ [x] := by
  unfold push
  split_ifs
  · exact ⟨s.archive, by simp [kept]⟩
  · exact ⟨[], by simp [kept]⟩

/-- **Only the oldest pieces are ever given up.** -/
theorem pushAll_suffix (s : Segments α) (xs : List α) :
    (pushAll weight limit s xs).kept <:+ s.kept ++ xs := by
  induction xs generalizing s with
  | nil => exact ⟨[], by simp [pushAll]⟩
  | cons x xs ih =>
      have hrest := ih (push weight limit s x)
      have hfirst : (push weight limit s x).kept ++ xs <:+ s.kept ++ [x] ++ xs := by
        obtain ⟨given, hgiven⟩ := kept_push_suffix s x
        exact ⟨given, by rw [← List.append_assoc, hgiven]⟩
      rw [List.append_assoc, List.singleton_append] at hfirst
      exact hrest.trans hfirst

/-- **Without a limit nothing is given up.** -/
theorem pushAll_unlimited (s : Segments α) (xs : List α) :
    pushAll weight 0 s xs = ⟨s.archive, s.live ++ xs⟩ := by
  induction xs generalizing s with
  | nil => simp [pushAll]
  | cons x xs ih =>
      have hpush : push weight 0 s x = ⟨s.archive, s.live ++ [x]⟩ := if_neg (by simp)
      show pushAll weight 0 (push weight 0 s x) xs = _
      rw [ih, hpush, List.append_assoc, List.singleton_append]

theorem total_length (xs : List (List α)) : total List.length xs = xs.flatten.length := by
  induction xs with
  | nil => rfl
  | cons x xs ih => rw [total, ih, List.flatten_cons, List.length_append]

end Segments
