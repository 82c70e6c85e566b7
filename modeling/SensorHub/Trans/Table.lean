import Mathlib.Data.Finmap
import Mathlib.Tactic.Common

set_option autoImplicit false

/-!
# Tables

Finite maps with one type of values, as programs keep them: looked up by key, changed one key at a
time. Two tables are compared by their keys.

* `Table`; **`lookup_insert_eq`**, **`lookup_erase_eq`**: a lookup after a change.
* `erase_insert_of_notMem`, `mem_iff_isSome`; `keys_insert`, `card_insert_le`, `card_erase_le`.
-/

/-- A finite map from `α` to `β`. -/
abbrev Table (α β : Type*) := Finmap fun _ : α => β

namespace Table

variable {α β : Type*} [DecidableEq α]

theorem lookup_insert_eq (t : Table α β) (a k : α) (b : β) :
    (Finmap.insert a b t).lookup k = if k = a then some b else t.lookup k := by
  split_ifs with h
  · rw [h, Finmap.lookup_insert]
  · exact Finmap.lookup_insert_of_ne t h

theorem lookup_erase_eq (t : Table α β) (a k : α) :
    (t.erase a).lookup k = if k = a then none else t.lookup k := by
  split_ifs with h
  · rw [h, Finmap.lookup_erase]
  · exact Finmap.lookup_erase_ne h

theorem erase_insert_of_notMem {t : Table α β} {a : α} (h : a ∉ t) (b : β) :
    (Finmap.insert a b t).erase a = t := by
  refine Finmap.ext_lookup fun k => ?_
  rw [lookup_erase_eq, lookup_insert_eq]
  split_ifs with hk
  · rw [hk, Finmap.lookup_eq_none.mpr h]
  · rfl

theorem mem_iff_isSome {t : Table α β} {k : α} : k ∈ t ↔ (t.lookup k).isSome = true :=
  Finmap.lookup_isSome.symm

theorem keys_insert (t : Table α β) (a : α) (b : β) :
    (Finmap.insert a b t).keys = insert a t.keys := by
  ext k
  rw [Finmap.mem_keys, Finmap.mem_insert, Finset.mem_insert, Finmap.mem_keys]

theorem card_insert_le (t : Table α β) (a : α) (b : β) :
    (Finmap.insert a b t).keys.card ≤ t.keys.card + 1 := by
  rw [keys_insert]
  exact Finset.card_insert_le a t.keys

theorem card_insert_of_mem {t : Table α β} {a : α} (h : a ∈ t) (b : β) :
    (Finmap.insert a b t).keys.card = t.keys.card := by
  rw [keys_insert, Finset.insert_eq_of_mem (Finmap.mem_keys.mpr h)]

theorem card_erase_le (t : Table α β) (a : α) : (t.erase a).keys.card ≤ t.keys.card := by
  rw [Finmap.keys_erase]
  exact Finset.card_le_card (Finset.erase_subset a t.keys)

end Table
