import Mathlib.Tactic
import Mathlib.Data.List.Flatten

set_option autoImplicit false

/-!
# A bounded FIFO of units that carries fixed-size records

The queue copies as many units as fit: `offer` keeps `min (units offered) (room)` of them, `fetch`
hands out `min (units asked) (units held)`. Nothing in the queue knows about records. If every
record has `w` units and `w` divides the capacity, then a queue that starts with whole records
only ever holds whole records, and a `fetch` of a multiple of `w` units hands out whole records.

* `offer`, `fetch`; `encodeAll`, `decodeAll`.
* **`offer_encodeAll`**: an offered record is taken as a whole or not at all.
* **`take_encodeAll`**, **`drop_encodeAll`**: what `fetch` splits off is records.
* **`decodeAll_encodeAll`**: the records can be read back from the units.
-/

namespace RecordFifo

variable {α β : Type*}

/-- Offer `data` to a queue of capacity `cap` holding `buf`: the new content and the number of
units copied. -/
def offer (cap : ℕ) (buf data : List β) : List β × ℕ :=
  (buf ++ data.take (cap - buf.length), min data.length (cap - buf.length))

/-- Ask a queue holding `buf` for `n` units: the units handed out and the new content. -/
def fetch (n : ℕ) (buf : List β) : List β × List β := (buf.take n, buf.drop n)

/-- The units of a list of records. -/
def encodeAll (enc : α → List β) (xs : List α) : List β := xs.flatMap enc

/-- The first `k` records of `w` units in `bs`. -/
def decodeAll (dec : List β → α) (w : ℕ) : ℕ → List β → List α
  | 0, _ => []
  | k + 1, bs => dec (bs.take w) :: decodeAll dec w k (bs.drop w)

section Encode

variable {enc : α → List β} {w : ℕ}

@[simp] theorem encodeAll_nil : encodeAll enc [] = [] := rfl

@[simp] theorem encodeAll_cons (x : α) (xs : List α) :
    encodeAll enc (x :: xs) = enc x ++ encodeAll enc xs := rfl

@[simp] theorem encodeAll_append (xs ys : List α) :
    encodeAll enc (xs ++ ys) = encodeAll enc xs ++ encodeAll enc ys := by
  simp [encodeAll]

theorem length_encodeAll (hw : ∀ a, (enc a).length = w) (xs : List α) :
    (encodeAll enc xs).length = w * xs.length := by
  induction xs with
  | nil => rfl
  | cons x xs ih =>
      rw [encodeAll_cons, List.length_append, hw, ih, List.length_cons, Nat.mul_succ, Nat.add_comm]

/-- **The first `w * k` units are the first `k` records.** -/
theorem take_encodeAll (hw : ∀ a, (enc a).length = w) (k : ℕ) (xs : List α) :
    (encodeAll enc xs).take (w * k) = encodeAll enc (xs.take k) := by
  induction xs generalizing k with
  | nil => simp
  | cons x xs ih =>
      cases k with
      | zero => simp
      | succ k =>
          rw [encodeAll_cons, Nat.mul_succ, Nat.add_comm, List.take_append, hw,
            List.take_of_length_le (by rw [hw]; omega), Nat.add_sub_cancel_left, ih,
            List.take_succ_cons, encodeAll_cons]

/-- **Dropping `w * k` units drops `k` records.** -/
theorem drop_encodeAll (hw : ∀ a, (enc a).length = w) (k : ℕ) (xs : List α) :
    (encodeAll enc xs).drop (w * k) = encodeAll enc (xs.drop k) := by
  induction xs generalizing k with
  | nil => simp
  | cons x xs ih =>
      cases k with
      | zero => simp
      | succ k =>
          rw [encodeAll_cons, Nat.mul_succ, Nat.add_comm, List.drop_append, hw,
            List.drop_of_length_le (by rw [hw]; omega), Nat.add_sub_cancel_left, ih,
            List.drop_succ_cons, List.nil_append]

/-- **A record is taken as a whole or not at all.** -/
theorem offer_encodeAll (hw : ∀ a, (enc a).length = w) {c : ℕ} (x : α) {xs : List α}
    (hle : xs.length ≤ c) :
    offer (w * c) (encodeAll enc xs) (enc x) =
      if xs.length < c then (encodeAll enc (xs ++ [x]), w) else (encodeAll enc xs, 0) := by
  have hroom : w * c - w * xs.length = w * (c - xs.length) := (Nat.mul_sub w c xs.length).symm
  simp only [offer, length_encodeAll hw, hw, hroom]
  split_ifs with h
  · have hge : w ≤ w * (c - xs.length) := Nat.le_mul_of_pos_right w (by omega)
    rw [List.take_of_length_le (by rw [hw]; exact hge), Nat.min_eq_left hge, encodeAll_append,
      encodeAll_cons, encodeAll_nil, List.append_nil]
  · have h0 : c - xs.length = 0 := by omega
    rw [h0, Nat.mul_zero, List.take_zero, List.append_nil, Nat.min_zero]

/-- **The records can be read back.** -/
theorem decodeAll_encodeAll {dec : List β → α} (hw : ∀ a, (enc a).length = w)
    (hdec : ∀ a, dec (enc a) = a) (xs : List α) :
    decodeAll dec w xs.length (encodeAll enc xs) = xs := by
  induction xs with
  | nil => rfl
  | cons x xs ih =>
      rw [List.length_cons, decodeAll, encodeAll_cons, List.take_left' (hw x),
        List.drop_left' (hw x), hdec, ih]

end Encode

end RecordFifo
