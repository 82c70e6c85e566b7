import Mathlib.Data.List.TakeWhile
import Mathlib.Tactic.Common

set_option autoImplicit false

/-!
# The lines of a stream

A reader looks for the separator `sep` among the first `lim + 1` elements of a stream of which it
has seen some prefix. What it can say from a prefix it says of the whole stream: the verdict is
monotone, so it does not depend on how the stream is cut into pieces.

* `Frame`, `frame`: the verdict on what was seen.
* `frame_line`, `frame_overlong`, `frame_pending`: the three kinds of streams.
* **`frame_append`**, `frame_of_prefix`: a verdict is final.
* `complete`: the lines of a stream that have ended; **`complete_mono`**, `complete_flatMap`,
  `length_complete`.
-/

namespace LineFrame

variable {α : Type*} [DecidableEq α] {sep : α} {lim : ℕ}

/-- What a prefix of a stream says about its first line. -/
inductive Frame (α : Type*)
  /-- Neither the end of the line nor too much of it was seen. -/
  | pending
  | line (body : List α)
  | overlong
  deriving DecidableEq

/-- The verdict on the elements seen so far: a line of at most `lim` elements that has ended, a
line that is longer, or neither yet. -/
def frame (sep : α) (lim : ℕ) (xs : List α) : Frame α :=
  if sep ∈ xs.take (lim + 1) then .line (xs.takeWhile (· ≠ sep))
  else if lim < xs.length then .overlong
  else .pending

theorem frame_line {body rest : List α} (hbody : sep ∉ body) (hlen : body.length ≤ lim) :
    frame sep lim (body ++ sep :: rest) = .line body := by
  have hmem : sep ∈ (body ++ sep :: rest).take (lim + 1) := by
    rw [List.take_append, List.mem_append]
    right
    obtain ⟨k, hk⟩ : ∃ k, lim + 1 - body.length = k + 1 := ⟨lim - body.length, by omega⟩
    rw [hk, List.take_succ_cons]
    exact List.mem_cons_self
  rw [frame, if_pos hmem, List.takeWhile_append_of_pos fun a ha => ?_]
  · simp
  · simp only [decide_eq_true_eq]
    rintro rfl
    exact hbody ha

theorem frame_overlong {xs : List α} (hno : sep ∉ xs.take (lim + 1)) (hlen : lim < xs.length) :
    frame sep lim xs = .overlong := by
  rw [frame, if_neg hno, if_pos hlen]

theorem frame_pending {xs : List α} (hno : sep ∉ xs) (hlen : xs.length ≤ lim) :
    frame sep lim xs = .pending := by
  rw [frame, if_neg fun h => hno (List.mem_of_mem_take h), if_neg (by omega)]

theorem frame_nil : frame sep lim [] = .pending := frame_pending (by simp) (by simp)

/-- While nothing can be said, the separator was not seen and little else was. -/
theorem of_frame_pending {xs : List α} (h : frame sep lim xs = .pending) :
    sep ∉ xs ∧ xs.length ≤ lim := by
  unfold frame at h
  split_ifs at h with hmem hlen
  rw [List.take_of_length_le (by omega)] at hmem
  exact ⟨hmem, by omega⟩

theorem of_frame_overlong {xs : List α} (h : frame sep lim xs = .overlong) :
    sep ∉ xs.take (lim + 1) ∧ lim < xs.length := by
  unfold frame at h
  split_ifs at h with hmem hlen
  exact ⟨hmem, hlen⟩

theorem of_frame_line {xs body : List α} (h : frame sep lim xs = .line body) :
    sep ∉ body ∧ body.length ≤ lim ∧ ∃ rest, xs = body ++ sep :: rest := by
  have hmem : sep ∈ xs.take (lim + 1) := by
    by_contra hno
    rw [frame, if_neg hno] at h
    split_ifs at h
  obtain ⟨as, bs, hsplit, has⟩ := List.eq_append_cons_of_mem hmem
  have hlen : as.length ≤ lim := by
    have hle := List.length_take_le (lim + 1) xs
    rw [hsplit, List.length_append, List.length_cons] at hle
    omega
  have hxs : xs = as ++ sep :: (bs ++ xs.drop (lim + 1)) := by
    conv_lhs => rw [← List.take_append_drop (lim + 1) xs, hsplit]
    simp
  rw [hxs, frame_line has hlen] at h
  cases h
  exact ⟨has, hlen, _, hxs⟩

/-- **A verdict is final.** -/
theorem frame_append {xs : List α} (h : frame sep lim xs ≠ .pending) (ys : List α) :
    frame sep lim (xs ++ ys) = frame sep lim xs := by
  cases hv : frame sep lim xs with
  | pending => exact absurd hv h
  | line body =>
      obtain ⟨hbody, hlen, rest, rfl⟩ := of_frame_line hv
      rw [List.append_assoc, List.cons_append, frame_line hbody hlen]
  | overlong =>
      obtain ⟨hno, hlen⟩ := of_frame_overlong hv
      refine frame_overlong ?_ (by rw [List.length_append]; omega)
      rwa [List.take_append_of_le_length (by omega)]

theorem frame_of_prefix {xs ys : List α} (h : xs <+: ys) :
    frame sep lim xs = .pending ∨ frame sep lim xs = frame sep lim ys := by
  obtain ⟨zs, rfl⟩ := h
  by_cases hv : frame sep lim xs = .pending
  · exact Or.inl hv
  · exact Or.inr (frame_append hv zs).symm

/-! ### All lines -/

/-- The lines of a stream that have ended. -/
def complete (sep : α) (xs : List α) : List (List α) := (xs.splitOn sep).dropLast

theorem complete_of_notMem {xs : List α} (h : sep ∉ xs) : complete sep xs = [] := by
  rw [complete, List.splitOn_eq_singleton h]
  rfl

theorem complete_append_cons {body : List α} (h : sep ∉ body) (rest : List α) :
    complete sep (body ++ sep :: rest) = body :: complete sep rest := by
  rw [complete, List.splitOn_append_cons_self_of_not_mem h,
    List.dropLast_cons_of_ne_nil (List.splitOn_ne_nil sep rest)]
  rfl

/-- Lines that have ended come before what follows them. -/
theorem complete_flatMap {ls : List (List α)} (h : ∀ l ∈ ls, sep ∉ l) (rest : List α) :
    complete sep (ls.flatMap (· ++ [sep]) ++ rest) = ls ++ complete sep rest := by
  induction ls with
  | nil => rfl
  | cons l ls ih =>
      have hl := h l List.mem_cons_self
      rw [List.flatMap_cons, List.append_assoc, List.append_assoc, List.singleton_append,
        complete_append_cons hl, ih fun m hm => h m (List.mem_cons_of_mem l hm), List.cons_append]

/-- A stream has as many lines that have ended as it has separators. -/
theorem length_complete (xs : List α) : (complete sep xs).length = xs.count sep := by
  -- one line after the other, while there is one
  induction hn : xs.length using Nat.strongRecOn generalizing xs with
  | ind n ih =>
      by_cases hmem : sep ∈ xs
      · obtain ⟨body, rest, rfl, hbody⟩ := List.eq_append_cons_of_mem hmem
        have hlt : rest.length < n := by
          rw [← hn, List.length_append, List.length_cons]
          omega
        rw [complete_append_cons hbody, List.length_cons, ih rest.length hlt rest rfl,
          List.count_append, List.count_eq_zero_of_not_mem hbody, List.count_cons_self,
          Nat.zero_add]
      · rw [complete_of_notMem hmem, List.count_eq_zero_of_not_mem hmem, List.length_nil]

/-- **What has ended stays as it is.** -/
theorem complete_mono {xs ys : List α} (h : xs <+: ys) : complete sep xs <+: complete sep ys := by
  obtain ⟨zs, rfl⟩ := h
  -- one line after the other, while `xs` has one
  induction hn : xs.length using Nat.strongRecOn generalizing xs with
  | ind n ih =>
      by_cases hmem : sep ∈ xs
      · obtain ⟨body, rest, rfl, hbody⟩ := List.eq_append_cons_of_mem hmem
        rw [List.append_assoc, List.cons_append, complete_append_cons hbody,
          complete_append_cons hbody]
        refine List.cons_prefix_cons.mpr ⟨rfl, ih rest.length ?_ rfl⟩
        rw [← hn, List.length_append, List.length_cons]
        omega
      · rw [complete_of_notMem hmem]
        exact List.nil_prefix

end LineFrame
