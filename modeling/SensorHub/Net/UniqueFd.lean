import SensorHub.Trans.Run
import Mathlib.Tactic
import Mathlib.Data.List.Nodup

set_option autoImplicit false

/-!
# Owners of descriptors

`UniqueFd` of `userspace/include/fd.hpp`. The kernel hands out the numbers of closed descriptors
again, so each opening has an identity of its own here, which no number tells; the records of what
was adopted, released and closed are about openings.

* `Fds`, `FdOp`, `opStep`: the descriptors of a process, its `UniqueFd` objects and the operations.
* `eraseOps`, `FdLabel`, `fdStep`: the same with `std::vector<UniqueFd>::erase`.
* `Owned`: what holds of the owners; `Owned.rearrange`, `Owned.close`, `Owned.adopt`,
  `Owned.release`: the four things an operation is made of; `owned_op`, `owned_step`.
* `shiftDown_run`, **`erase_spec`**, `erase_closes`: an erasure closes one descriptor.
* **`unique_fd_owns`**.
-/

namespace SensorHub

open Trans

/-- The descriptors of a process and its `UniqueFd` objects. -/
structure Fds where
  /-- The opening that an open descriptor refers to. -/
  files : ℕ → Option ℕ
  /-- The identity of the next opening. -/
  next : ℕ
  /-- `fd_` of the objects that exist. -/
  objs : ℕ → Option ℤ
  /-- The calls of `close` in `UniqueFd::reset`: the opening that was closed, or `none` if the
  descriptor was not open. -/
  closes : List (Option ℕ)
  /-- The openings that were given to an object. -/
  adopted : List ℕ
  /-- The openings that were taken back with `release`. -/
  released : List ℕ

namespace Fds

def init : Fds := ⟨fun _ => none, 0, fun _ => none, [], [], []⟩

/-- The opening of a valid descriptor. -/
def file (s : Fds) (fd : ℤ) : Option ℕ := if 0 ≤ fd then s.files fd.toNat else none

/-- `close(fd)`. -/
def close (s : Fds) (fd : ℤ) : Fds :=
  { s with
    files := Function.update s.files fd.toNat none
    closes := s.closes ++ [s.files fd.toNat] }

/-- `fd_ = fd`. -/
def setFd (s : Fds) (x : ℕ) (fd : ℤ) : Fds := { s with objs := Function.update s.objs x (some fd) }

/-- `reset(next)` on the object `x`, whose `fd_` is `fd`. -/
def reset (s : Fds) (x : ℕ) (fd next : ℤ) : Fds :=
  (if 0 ≤ fd then s.close fd else s).setFd x next

/-- The opening of `fd` now belongs to an object. -/
def adopt (s : Fds) (fd : ℤ) : Fds := { s with adopted := s.adopted ++ (s.file fd).toList }

/-- What an object may be given: `-1`, or a descriptor that was opened and not adopted. -/
def isFresh (s : Fds) (next : ℤ) : Bool :=
  next = -1 || (s.file next).any fun id => id ∉ s.adopted

end Fds

/-- The operations of `UniqueFd`, and those of the rest of the process. -/
inductive FdOp
  /-- A system call opens the descriptor `n`. -/
  | openFile (n : ℕ)
  /-- A descriptor that is not in the hands of an object is closed elsewhere. -/
  | closeFile (n : ℕ)
  /-- The constructors, the default one with `-1`. -/
  | construct (x : ℕ) (next : ℤ)
  | reset (x : ℕ) (next : ℤ)
  /-- `UniqueFd x(std::move(y))`. -/
  | moveConstruct (x y : ℕ)
  /-- `x = std::move(y)`. -/
  | moveAssign (x y : ℕ)
  | release (x : ℕ)
  | destroy (x : ℕ)

/-- One operation. -/
def opStep (s : Fds) : FdOp → Option Fds
  | .openFile n =>
      match s.files n with
      | none => some { s with files := Function.update s.files n (some s.next), next := s.next + 1 }
      | some _ => none
  | .closeFile n =>
      match s.files n with
      | none => none
      | some id =>
          if id ∈ s.adopted ∧ id ∉ s.released then none
          else some { s with files := Function.update s.files n none }
  | .construct x next =>
      match s.objs x with
      | none => if s.isFresh next then some ((s.setFd x next).adopt next) else none
      | some _ => none
  | .reset x next =>
      match s.objs x with
      | none => none
      | some fd => if s.isFresh next then some ((s.reset x fd next).adopt next) else none
  | .moveConstruct x y =>
      match s.objs x, s.objs y with
      | none, some fd => some ((s.setFd x fd).setFd y (-1))
      | _, _ => none
  | .moveAssign x y =>
      match s.objs x, s.objs y with
      | some fd, some other =>
          if x ≠ y then some (((s.reset x fd (-1)).setFd x other).setFd y (-1)) else some s
      | _, _ => none
  | .release x =>
      match s.objs x with
      | none => none
      | some fd => some { s.setFd x (-1) with released := s.released ++ (s.file fd).toList }
  | .destroy x =>
      match s.objs x with
      | none => none
      | some fd =>
          some { s.reset x fd (-1) with objs := Function.update (s.reset x fd (-1)).objs x none }

/-- `erase` at the first of the elements `slots`: the others are moved down by assignments, and the
last one is destroyed. -/
def eraseOps : List ℕ → List FdOp
  | [] => []
  | [x] => [.destroy x]
  | x :: y :: rest => .moveAssign x y :: eraseOps (y :: rest)

inductive FdLabel
  | op (o : FdOp)
  /-- `erase(begin() + i)` of a vector whose elements are the objects `slots`. -/
  | erase (slots : List ℕ) (i : ℕ)

/-- One step. -/
def fdStep (s : Fds) : FdLabel → Option Fds
  | .op o => opStep s o
  | .erase slots i =>
      if slots.Nodup ∧ (∀ x ∈ slots, (s.objs x).isSome = true) ∧ i < slots.length then
        run opStep s (eraseOps (slots.drop i))
      else none

/-! ### Who owns what -/

namespace Fds

variable {s : Fds} {x y n : ℕ}

/-- The object `x` holds the valid descriptor `n`. -/
def Has (s : Fds) (x n : ℕ) : Prop := s.objs x = some (n : ℤ)

theorem not_has_of_none (hx : s.objs x = none) (m : ℕ) : ¬ s.Has x m := by
  intro h
  rw [Has, hx] at h
  cases h

/-- `-1` is not a valid descriptor. -/
theorem some_minus_one_ne (m : ℕ) : some (-1 : ℤ) ≠ some (m : ℤ) := by
  intro h
  have heq : (-1 : ℤ) = m := Option.some.inj h
  omega

theorem file_natCast (s : Fds) (n : ℕ) : s.file n = s.files n := by
  rw [file, if_pos (Int.natCast_nonneg n), Int.toNat_natCast]

/-- The ownership of descriptors: openings have one number each; what is held is open, adopted, and
neither released nor closed, and has one holder; what was adopted is released, closed or held; what
was closed was adopted and not released, and was closed once. -/
structure Owned (s : Fds) : Prop where
  minted : ∀ {n id}, s.files n = some id → id < s.next
  known : ∀ id ∈ s.adopted, id < s.next
  apart : ∀ {m n id}, s.files m = some id → s.files n = some id → m = n
  held : ∀ {x n}, s.Has x n → ∃ id, s.files n = some id ∧ id ∈ s.adopted ∧ id ∉ s.released ∧
    some id ∉ s.closes
  alone : ∀ {x y n}, s.Has x n → s.Has y n → x = y
  settled : ∀ id ∈ s.adopted, id ∈ s.released ∨ some id ∈ s.closes ∨
    ∃ x n, s.Has x n ∧ s.files n = some id
  closed : ∀ c ∈ s.closes, ∃ id ∈ s.adopted, c = some id ∧ id ∉ s.released
  once : s.closes.Nodup
  returned : ∀ id ∈ s.released, id ∈ s.adopted

theorem owned_init : Owned init where
  minted h := by cases h
  known _ h := by cases h
  apart h := by cases h
  held h := by cases h
  alone h := by cases h
  settled _ h := by cases h
  closed _ h := by cases h
  once := List.nodup_nil
  returned _ h := by cases h

/-- **The same descriptors in other hands**, one hand each. -/
theorem Owned.rearrange (hs : Owned s) {objs : ℕ → Option ℤ}
    (hold : ∀ {x n : ℕ}, objs x = some (n : ℤ) → ∃ y, s.Has y n)
    (hone : ∀ {x y n : ℕ}, objs x = some (n : ℤ) → objs y = some (n : ℤ) → x = y)
    (hnew : ∀ {y n : ℕ}, s.Has y n → ∃ x, objs x = some (n : ℤ)) :
    Owned { s with objs := objs } where
  minted := hs.minted
  known := hs.known
  apart := hs.apart
  held h := by
    obtain ⟨y, hy⟩ := hold h
    exact hs.held hy
  alone := hone
  settled id hid := by
    refine (hs.settled id hid).imp_right (Or.imp_right ?_)
    rintro ⟨y, n, hy, hn⟩
    obtain ⟨x, hx⟩ := hnew hy
    exact ⟨x, n, hx, hn⟩
  closed := hs.closed
  once := hs.once
  returned := hs.returned

/-- Who holds something, after the object `x` was given `fd`. -/
theorem has_setFd {fd : ℤ} {z m : ℕ} :
    (s.setFd x fd).Has z m ↔ if z = x then fd = m else s.Has z m := by
  simp only [Has, setFd, Function.update_apply]
  split_ifs
  · rw [Option.some.injEq]
  · rfl

/-- Who holds something, after the holder of `n` was left with `-1`. -/
theorem Owned.has_dropped (hs : Owned s) (hx : s.Has x n) {z m : ℕ} :
    (s.setFd x (-1)).Has z m ↔ s.Has z m ∧ m ≠ n := by
  rw [has_setFd]
  by_cases hzx : z = x
  · rw [if_pos hzx, hzx]
    refine iff_of_false (by omega) ?_
    rintro ⟨hm, hmn⟩
    have hcast : (m : ℤ) = n := Option.some.inj (hm.symm.trans hx)
    exact hmn (Nat.cast_inj.mp hcast)
  · rw [if_neg hzx]
    refine ⟨fun hz => ⟨hz, ?_⟩, And.left⟩
    rintro rfl
    exact hzx (hs.alone hz hx)

/-- **A held descriptor is closed**, and its holder is left with `-1`. -/
theorem Owned.close (hs : Owned s) (hx : s.Has x n) : Owned ((s.close n).setFd x (-1)) := by
  obtain ⟨id, hfile, hadopted, hreleased, hclosed⟩ := hs.held hx
  have hhas : ∀ {z m : ℕ}, ((s.close n).setFd x (-1)).Has z m ↔ s.Has z m ∧ m ≠ n :=
    hs.has_dropped hx
  have hfiles : ∀ {m id'}, ((s.close n).setFd x (-1)).files m = some id' →
      s.files m = some id' ∧ m ≠ n := by
    intro m id' hm
    simp only [setFd, Fds.close, Int.toNat_natCast, Function.update_apply] at hm
    split_ifs at hm with hmn
    exact ⟨hm, hmn⟩
  have hcloses : ((s.close n).setFd x (-1)).closes = s.closes ++ [some id] := by
    simp only [setFd, Fds.close, Int.toNat_natCast, hfile]
  refine ⟨?_, hs.known, ?_, ?_, ?_, ?_, ?_, ?_, hs.returned⟩
  · intro m id' hm
    exact hs.minted (hfiles hm).1
  · intro m m' id' hm hm'
    exact hs.apart (hfiles hm).1 (hfiles hm').1
  · intro z m hz
    obtain ⟨hz, hmn⟩ := hhas.mp hz
    obtain ⟨id', hfile', hadopted', hreleased', hclosed'⟩ := hs.held hz
    refine ⟨id', ?_, hadopted', hreleased', ?_⟩
    · simp only [setFd, Fds.close, Int.toNat_natCast, Function.update_of_ne hmn]
      exact hfile'
    · rw [hcloses, List.mem_append, List.mem_singleton]
      rintro (h | h)
      · exact hclosed' h
      · cases h
        exact hmn (hs.apart hfile' hfile)
  · intro z z' m hz hz'
    exact hs.alone (hhas.mp hz).1 (hhas.mp hz').1
  · intro id' hid'
    rw [hcloses, List.mem_append, List.mem_singleton]
    rcases hs.settled id' hid' with h | h | ⟨z, m, hz, hm⟩
    · exact Or.inl h
    · exact Or.inr (Or.inl (Or.inl h))
    · by_cases hmn : m = n
      · rw [hmn, hfile] at hm
        exact Or.inr (Or.inl (Or.inr hm.symm))
      · refine Or.inr (Or.inr ⟨z, m, hhas.mpr ⟨hz, hmn⟩, ?_⟩)
        simp only [setFd, Fds.close, Int.toNat_natCast, Function.update_of_ne hmn]
        exact hm
  · intro c hc
    rw [hcloses, List.mem_append, List.mem_singleton] at hc
    rcases hc with hc | hc
    · exact hs.closed c hc
    · exact ⟨id, hadopted, hc, hreleased⟩
  · rw [hcloses]
    exact List.nodup_append.mpr ⟨hs.once, List.nodup_singleton _, by
      intro a ha b hb hab
      rw [List.mem_singleton.mp hb] at hab
      exact hclosed (hab ▸ ha)⟩

/-- **A fresh descriptor is adopted** by an object that holds none. -/
theorem Owned.adopt (hs : Owned s) (hx : ∀ m, ¬ s.Has x m) {id : ℕ} (hfile : s.files n = some id)
    (hfresh : id ∉ s.adopted) :
    Owned { s.setFd x n with adopted := s.adopted ++ [id] } := by
  have hsettled : ∀ {z m : ℕ}, s.Has z m → (s.setFd x n).Has z m := by
    intro z m hz
    rw [has_setFd, if_neg]
    · exact hz
    · rintro rfl
      exact hx m hz
  have hclosed : some id ∉ s.closes := by
    intro hmem
    obtain ⟨id', hid', heq, -⟩ := hs.closed _ hmem
    cases heq
    exact hfresh hid'
  -- nobody holds the number of a fresh descriptor
  have hnobody : ∀ z, ¬ s.Has z n := by
    intro z hz
    obtain ⟨id', hfile', hadopted', -⟩ := hs.held hz
    rw [hfile] at hfile'
    cases hfile'
    exact hfresh hadopted'
  refine ⟨hs.minted, ?_, hs.apart, ?_, ?_, ?_, ?_, hs.once, ?_⟩
  · intro id' hid'
    rcases List.mem_append.mp hid' with h | h
    · exact hs.known id' h
    · rw [List.mem_singleton.mp h]
      exact hs.minted hfile
  · intro z m hz
    have hz' := has_setFd.mp hz
    by_cases hzx : z = x
    · rw [if_pos hzx, Nat.cast_inj] at hz'
      refine ⟨id, hz' ▸ hfile, List.mem_append_right _ (List.mem_singleton_self id), ?_, hclosed⟩
      intro hmem
      exact hfresh (hs.returned id hmem)
    · rw [if_neg hzx] at hz'
      obtain ⟨id', hfile', hadopted', hrest⟩ := hs.held hz'
      exact ⟨id', hfile', List.mem_append_left _ hadopted', hrest⟩
  · intro z z' m hz hz'
    have h := has_setFd.mp hz
    have h' := has_setFd.mp hz'
    by_cases hzx : z = x
    · by_cases hzx' : z' = x
      · rw [hzx, hzx']
      · rw [if_pos hzx, Nat.cast_inj] at h
        rw [if_neg hzx', ← h] at h'
        exact absurd h' (hnobody z')
    · rw [if_neg hzx] at h
      by_cases hzx' : z' = x
      · rw [if_pos hzx', Nat.cast_inj] at h'
        rw [← h'] at h
        exact absurd h (hnobody z)
      · rw [if_neg hzx'] at h'
        exact hs.alone h h'
  · intro id' hid'
    rcases List.mem_append.mp hid' with h | h
    · refine (hs.settled id' h).imp_right (Or.imp_right ?_)
      rintro ⟨z, m, hz, hm⟩
      exact ⟨z, m, hsettled hz, hm⟩
    · rw [List.mem_singleton.mp h]
      refine Or.inr (Or.inr ⟨x, n, ?_, hfile⟩)
      exact has_setFd.mpr (by rw [if_pos rfl])
  · intro c hc
    obtain ⟨id', hid', hrest⟩ := hs.closed c hc
    exact ⟨id', List.mem_append_left _ hid', hrest⟩
  · intro id' hid'
    exact List.mem_append_left _ (hs.returned id' hid')

/-- **A held descriptor is released**, and its holder is left with `-1`. -/
theorem Owned.release (hs : Owned s) (hx : s.Has x n) {id : ℕ} (hfile : s.files n = some id) :
    Owned { s.setFd x (-1) with released := s.released ++ [id] } := by
  have hhas : ∀ {z m : ℕ}, (s.setFd x (-1)).Has z m ↔ s.Has z m ∧ m ≠ n := hs.has_dropped hx
  obtain ⟨id', hfile', hadopted, -, hclosed⟩ := hs.held hx
  rw [hfile] at hfile'
  cases hfile'
  refine ⟨hs.minted, hs.known, hs.apart, ?_, ?_, ?_, ?_, hs.once, ?_⟩
  · intro z m hz
    obtain ⟨hz, hmn⟩ := hhas.mp hz
    obtain ⟨id', hfile', hadopted', hreleased', hclosed'⟩ := hs.held hz
    refine ⟨id', hfile', hadopted', ?_, hclosed'⟩
    rw [List.mem_append, List.mem_singleton]
    rintro (h | rfl)
    · exact hreleased' h
    · exact hmn (hs.apart hfile' hfile)
  · intro z z' m hz hz'
    exact hs.alone (hhas.mp hz).1 (hhas.mp hz').1
  · intro id' hid'
    rcases hs.settled id' hid' with h | h | ⟨z, m, hz, hm⟩
    · exact Or.inl (List.mem_append_left _ h)
    · exact Or.inr (Or.inl h)
    · by_cases hmn : m = n
      · rw [hmn, hfile] at hm
        cases hm
        exact Or.inl (List.mem_append_right _ (List.mem_singleton_self id))
      · exact Or.inr (Or.inr ⟨z, m, hhas.mpr ⟨hz, hmn⟩, hm⟩)
  · intro c hc
    obtain ⟨id', hid', rfl, hreleased'⟩ := hs.closed c hc
    refine ⟨id', hid', rfl, ?_⟩
    rw [List.mem_append, List.mem_singleton]
    rintro (h | rfl)
    · exact hreleased' h
    · exact hclosed hc
  · intro id' hid'
    rcases List.mem_append.mp hid' with h | h
    · exact hs.returned id' h
    · rw [List.mem_singleton.mp h]
      exact hadopted

/-! ### The operations -/

theorem owned_openFile (hs : Owned s) (hn : s.files n = none) :
    Owned { s with files := Function.update s.files n (some s.next), next := s.next + 1 } := by
  -- what is open stays open, and the new opening is nobody's
  have hkeep : ∀ {m id}, s.files m = some id →
      Function.update s.files n (some s.next) m = some id := by
    intro m id hm
    rw [Function.update_of_ne, hm]
    rintro rfl
    rw [hn] at hm
    cases hm
  have hcases : ∀ {m id}, Function.update s.files n (some s.next) m = some id →
      (m = n ∧ id = s.next) ∨ s.files m = some id := by
    intro m id hm
    by_cases hmn : m = n
    · rw [hmn, Function.update_self] at hm
      exact Or.inl ⟨hmn, (Option.some.inj hm).symm⟩
    · rw [Function.update_of_ne hmn] at hm
      exact Or.inr hm
  refine ⟨?_, ?_, ?_, ?_, hs.alone, ?_, hs.closed, hs.once, hs.returned⟩
  · intro m id hm
    rcases hcases hm with ⟨-, rfl⟩ | hm
    · exact Nat.lt_succ_self _
    · exact Nat.lt_succ_of_lt (hs.minted hm)
  · intro id hid
    exact Nat.lt_succ_of_lt (hs.known id hid)
  · intro m m' id hm hm'
    rcases hcases hm with ⟨hmn, hid⟩ | hold <;> rcases hcases hm' with ⟨hmn', hid'⟩ | hold'
    · rw [hmn, hmn']
    · rw [hid] at hold'
      exact absurd (hs.minted hold') (lt_irrefl _)
    · rw [hid'] at hold
      exact absurd (hs.minted hold) (lt_irrefl _)
    · exact hs.apart hold hold'
  · intro z m hz
    obtain ⟨id, hfile, hrest⟩ := hs.held hz
    exact ⟨id, hkeep hfile, hrest⟩
  · intro id hid
    refine (hs.settled id hid).imp_right (Or.imp_right ?_)
    rintro ⟨z, m, hz, hm⟩
    exact ⟨z, m, hz, hkeep hm⟩

theorem owned_closeFile (hs : Owned s) {id : ℕ} (hn : s.files n = some id)
    (hfree : ¬ (id ∈ s.adopted ∧ id ∉ s.released)) :
    Owned { s with files := Function.update s.files n none } := by
  -- the descriptor is not in the hands of an object
  have hheld : ∀ {z m : ℕ}, s.Has z m → m ≠ n := by
    rintro z m hz rfl
    obtain ⟨id', hfile, hadopted, hreleased, -⟩ := hs.held hz
    rw [hn] at hfile
    cases hfile
    exact hfree ⟨hadopted, hreleased⟩
  have hold : ∀ {m id}, Function.update s.files n none m = some id → s.files m = some id := by
    intro m id hm
    by_cases hmn : m = n
    · rw [hmn, Function.update_self] at hm
      cases hm
    · rwa [Function.update_of_ne hmn] at hm
  refine ⟨fun hm => hs.minted (hold hm), hs.known, fun hm hm' => hs.apart (hold hm) (hold hm'), ?_,
    hs.alone, ?_, hs.closed, hs.once, hs.returned⟩
  · intro z m hz
    obtain ⟨id', hfile, hrest⟩ := hs.held hz
    refine ⟨id', ?_, hrest⟩
    show Function.update s.files n none m = some id'
    rw [Function.update_of_ne (hheld hz), hfile]
  · intro id' hid'
    refine (hs.settled id' hid').imp_right (Or.imp_right ?_)
    rintro ⟨z, m, hz, hm⟩
    refine ⟨z, m, hz, ?_⟩
    show Function.update s.files n none m = some id'
    rw [Function.update_of_ne (hheld hz), hm]

/-- An object that holds nothing is given `-1`, or is destroyed. -/
theorem owned_idle (hs : Owned s) (hx : ∀ m, ¬ s.Has x m) {v : Option ℤ}
    (hv : ∀ m : ℕ, v ≠ some (m : ℤ)) : Owned { s with objs := Function.update s.objs x v } := by
  have hhas : ∀ {z m : ℕ}, Function.update s.objs x v z = some (m : ℤ) ↔ s.Has z m := by
    intro z m
    by_cases hzx : z = x
    · rw [hzx, Function.update_self]
      exact iff_of_false (hv m) (hx m)
    · rw [Function.update_of_ne hzx]
      rfl
  refine hs.rearrange ?_ ?_ ?_
  · intro z m hz
    exact ⟨z, hhas.mp hz⟩
  · intro z z' m hz hz'
    exact hs.alone (hhas.mp hz) (hhas.mp hz')
  · intro z m hz
    exact ⟨z, hhas.mpr hz⟩

/-- `reset()`. -/
theorem owned_reset (hs : Owned s) {fd : ℤ} (hx : s.objs x = some fd) :
    Owned (s.reset x fd (-1)) := by
  unfold reset
  by_cases hfd : 0 ≤ fd
  · obtain ⟨m, rfl⟩ := Int.eq_ofNat_of_zero_le hfd
    rw [if_pos hfd]
    exact hs.close hx
  · rw [if_neg hfd]
    refine owned_idle hs ?_ some_minus_one_ne
    intro m hm
    have heq : fd = m := Option.some.inj (hx.symm.trans hm)
    omega

theorem reset_objs_self (s : Fds) (x : ℕ) (fd next : ℤ) : (s.reset x fd next).objs x = some next :=
  Function.update_self x _ _

theorem reset_objs_of_ne (s : Fds) {x y : ℕ} (hyx : y ≠ x) (fd next : ℤ) :
    (s.reset x fd next).objs y = s.objs y := by
  unfold reset
  split_ifs <;> exact Function.update_of_ne hyx _ _

/-- After `reset()` the object holds nothing. -/
theorem not_has_reset (s : Fds) (x : ℕ) (fd : ℤ) (m : ℕ) : ¬ (s.reset x fd (-1)).Has x m := by
  intro h
  exact some_minus_one_ne m ((reset_objs_self s x fd (-1)).symm.trans h)

/-- The content of `y` is moved to `x`, which holds nothing. -/
theorem owned_move (hs : Owned s) (hx : ∀ m, ¬ s.Has x m) (hxy : x ≠ y) {fd : ℤ}
    (hy : s.objs y = some fd) : Owned ((s.setFd x fd).setFd y (-1)) := by
  have hhas : ∀ {z m : ℕ}, ((s.setFd x fd).setFd y (-1)).Has z m ↔
      (z = x ∧ s.Has y m) ∨ (z ≠ x ∧ z ≠ y ∧ s.Has z m) := by
    intro z m
    have hym : s.Has y m ↔ fd = m := by rw [Has, hy, Option.some.injEq]
    rw [has_setFd, has_setFd, hym]
    by_cases hzy : z = y
    · have hzx : z ≠ x := by
        rintro rfl
        exact hxy hzy
      simp only [hzy, if_true]
      rw [hzy] at hzx
      refine iff_of_false (by omega) ?_
      rintro (⟨h, -⟩ | ⟨-, h, -⟩)
      · exact hzx h
      · exact h rfl
    · by_cases hzx : z = x
      · simp [hzx, hxy]
      · simp [hzy, hzx]
  refine hs.rearrange ?_ ?_ ?_
  · intro z m hz
    rcases hhas.mp hz with ⟨-, h⟩ | ⟨-, -, h⟩
    · exact ⟨y, h⟩
    · exact ⟨z, h⟩
  · intro z z' m hz hz'
    rcases hhas.mp hz with ⟨rfl, h⟩ | ⟨hzx, hzy, h⟩ <;>
      rcases hhas.mp hz' with ⟨rfl, h'⟩ | ⟨hzx', hzy', h'⟩
    · rfl
    · exact absurd (hs.alone h h').symm hzy'
    · exact absurd (hs.alone h h') hzy
    · exact hs.alone h h'
  · intro z m hz
    by_cases hzy : z = y
    · rw [hzy] at hz
      exact ⟨x, hhas.mpr (Or.inl ⟨rfl, hz⟩)⟩
    · refine ⟨z, hhas.mpr (Or.inr ⟨?_, hzy, hz⟩)⟩
      rintro rfl
      exact hx m hz

/-- `release()`. -/
theorem owned_release (hs : Owned s) {fd : ℤ} (hx : s.objs x = some fd) :
    Owned { s.setFd x (-1) with released := s.released ++ (s.file fd).toList } := by
  by_cases hfd : 0 ≤ fd
  · obtain ⟨n, rfl⟩ := Int.eq_ofNat_of_zero_le hfd
    obtain ⟨id, hfile, -⟩ := hs.held hx
    rw [file_natCast, hfile]
    exact hs.release hx hfile
  · have hnone : s.file fd = none := if_neg hfd
    have hidle : Owned (s.setFd x (-1)) := by
      have hreset := owned_reset hs hx
      rwa [reset, if_neg hfd] at hreset
    rw [hnone, Option.toList_none, List.append_nil]
    exact hidle

/-- A fresh argument is `-1` or an opening that was not adopted. -/
theorem isFresh_iff {next : ℤ} :
    s.isFresh next = true ↔
      next = -1 ∨ ∃ m id : ℕ, next = m ∧ s.files m = some id ∧ id ∉ s.adopted := by
  simp only [isFresh, file, Bool.or_eq_true, decide_eq_true_eq, Option.any_eq_true]
  refine or_congr_right ⟨?_, ?_⟩
  · rintro ⟨id, hid, hnot⟩
    by_cases hnext : 0 ≤ next
    · rw [if_pos hnext] at hid
      exact ⟨next.toNat, id, (Int.toNat_of_nonneg hnext).symm, hid, hnot⟩
    · rw [if_neg hnext] at hid
      cases hid
  · rintro ⟨m, id, rfl, hid, hnot⟩
    exact ⟨id, (file_natCast s m).trans hid, hnot⟩

/-- An object that holds nothing is given a fresh argument. -/
theorem owned_give (hs : Owned s) (hx : ∀ m, ¬ s.Has x m) {next : ℤ}
    (hnext : s.isFresh next = true) : Owned ((s.setFd x next).adopt next) := by
  rcases isFresh_iff.mp hnext with rfl | ⟨m, id, rfl, hfile, hnot⟩
  · have hnone : (s.setFd x (-1)).adopt (-1) = s.setFd x (-1) := by
      simp [adopt, file]
    rw [hnone]
    exact owned_idle hs hx some_minus_one_ne
  · have hsome : (s.setFd x m).adopt m = { s.setFd x m with adopted := s.adopted ++ [id] } := by
      simp [adopt, file, setFd, hfile]
    rw [hsome]
    exact hs.adopt hx hfile hnot

/-- What is fresh is not closed by `reset()`. -/
theorem isFresh_reset (hs : Owned s) {fd next : ℤ} (hx : s.objs x = some fd)
    (hnext : s.isFresh next = true) : (s.reset x fd (-1)).isFresh next = true := by
  rw [isFresh_iff] at hnext ⊢
  refine hnext.imp_right ?_
  rintro ⟨m, id, hm, hfile, hnot⟩
  refine ⟨m, id, hm, ?_, ?_⟩
  · unfold reset
    by_cases hfd : 0 ≤ fd
    · obtain ⟨n, rfl⟩ := Int.eq_ofNat_of_zero_le hfd
      have hmn : m ≠ n := by
        rintro rfl
        obtain ⟨id', hfile', hadopted, -⟩ := hs.held hx
        rw [hfile] at hfile'
        cases hfile'
        exact hnot hadopted
      rw [if_pos hfd]
      simp only [setFd, close, Int.toNat_natCast, Function.update_of_ne hmn, hfile]
    · rw [if_neg hfd]
      exact hfile
  · unfold reset
    split_ifs <;> exact hnot

theorem setFd_reset (s : Fds) (x : ℕ) (fd fd' next : ℤ) :
    (s.reset x fd fd').setFd x next = s.reset x fd next := by
  simp only [reset, setFd, Function.update_idem]

/-- **Every operation keeps the owners in order.** -/
theorem owned_op {t : Fds} {o : FdOp} (hs : Owned s) (h : opStep s o = some t) : Owned t := by
  cases o with
  | openFile n =>
      simp only [opStep] at h
      cases hn : s.files n with
      | none =>
          simp only [hn, Option.some.injEq] at h
          rw [← h]
          exact owned_openFile hs hn
      | some id => simp only [hn, reduceCtorEq] at h
  | closeFile n =>
      simp only [opStep] at h
      cases hn : s.files n with
      | none => simp only [hn, reduceCtorEq] at h
      | some id =>
          simp only [hn] at h
          by_cases hheld : id ∈ s.adopted ∧ id ∉ s.released
          · rw [if_pos hheld] at h
            cases h
          · rw [if_neg hheld, Option.some.injEq] at h
            rw [← h]
            exact owned_closeFile hs hn hheld
  | construct x next =>
      simp only [opStep] at h
      cases hx : s.objs x with
      | some fd => simp only [hx, reduceCtorEq] at h
      | none =>
          simp only [hx] at h
          by_cases hnext : s.isFresh next = true
          · rw [if_pos hnext, Option.some.injEq] at h
            rw [← h]
            exact owned_give hs (not_has_of_none hx) hnext
          · rw [if_neg hnext] at h
            cases h
  | reset x next =>
      simp only [opStep] at h
      cases hx : s.objs x with
      | none => simp only [hx, reduceCtorEq] at h
      | some fd =>
          simp only [hx] at h
          by_cases hnext : s.isFresh next = true
          · rw [if_pos hnext, Option.some.injEq, ← setFd_reset s x fd (-1) next] at h
            rw [← h]
            exact owned_give (owned_reset hs hx) (not_has_reset s x fd) (isFresh_reset hs hx hnext)
          · rw [if_neg hnext] at h
            cases h
  | moveConstruct x y =>
      simp only [opStep] at h
      cases hx : s.objs x with
      | some fd => simp only [hx, reduceCtorEq] at h
      | none =>
          cases hy : s.objs y with
          | none => simp only [hx, hy, reduceCtorEq] at h
          | some fd =>
              simp only [hx, hy, Option.some.injEq] at h
              rw [← h]
              refine owned_move hs (not_has_of_none hx) ?_ hy
              rintro rfl
              rw [hx] at hy
              cases hy
  | moveAssign x y =>
      simp only [opStep] at h
      cases hx : s.objs x with
      | none => simp only [hx, reduceCtorEq] at h
      | some fd =>
          cases hy : s.objs y with
          | none => simp only [hx, hy, reduceCtorEq] at h
          | some other =>
              simp only [hx, hy] at h
              by_cases hxy : x ≠ y
              · rw [if_pos hxy, Option.some.injEq] at h
                rw [← h]
                refine owned_move (owned_reset hs hx) (not_has_reset s x fd) hxy ?_
                rw [reset_objs_of_ne s hxy.symm, hy]
              · rw [if_neg hxy, Option.some.injEq] at h
                rw [← h]
                exact hs
  | release x =>
      simp only [opStep] at h
      cases hx : s.objs x with
      | none => simp only [hx, reduceCtorEq] at h
      | some fd =>
          simp only [hx, Option.some.injEq] at h
          rw [← h]
          exact owned_release hs hx
  | destroy x =>
      simp only [opStep] at h
      cases hx : s.objs x with
      | none => simp only [hx, reduceCtorEq] at h
      | some fd =>
          simp only [hx, Option.some.injEq] at h
          rw [← h]
          exact owned_idle (owned_reset hs hx) (not_has_reset s x fd) fun m hm => by cases hm

theorem owned_step {t : Fds} {l : FdLabel} (hs : Owned s) (h : fdStep s l = some t) : Owned t := by
  cases l with
  | op o => exact owned_op hs h
  | erase slots i =>
      simp only [fdStep] at h
      split_ifs at h
      exact run_inv Owned (fun _ _ _ hs hst => owned_op hs hst) hs h

/-! ### Erasing an element of a vector -/

theorem opStep_destroy {fd : ℤ} (hx : s.objs x = some fd) :
    opStep s (.destroy x) =
      some { s.reset x fd (-1) with
        objs := Function.update (s.reset x fd (-1)).objs x none } := by
  simp only [opStep, hx]

theorem opStep_moveAssign {fd other : ℤ} (hx : s.objs x = some fd) (hy : s.objs y = some other)
    (hxy : x ≠ y) :
    opStep s (.moveAssign x y) =
      some (((s.reset x fd (-1)).setFd x other).setFd y (-1)) := by
  simp only [opStep, hx, hy, ne_eq, hxy, not_false_eq_true, if_true]

theorem file_close {fd : ℤ} (hfd : 0 ≤ fd) (fd' : ℤ) :
    (s.close fd).file fd' = if fd' = fd then none else s.file fd' := by
  simp only [file, close]
  by_cases hfd' : 0 ≤ fd'
  · have hcongr : fd'.toNat = fd.toNat ↔ fd' = fd := by omega
    simp only [if_pos hfd', Function.update_apply, hcongr]
  · rw [if_neg hfd', if_neg hfd', ite_self]

/-- `reset()` does nothing to an object that holds `-1`. -/
theorem reset_minus_one (hx : s.objs x = some (-1)) : s.reset x (-1) (-1) = s := by
  have hminus : ¬ (0 : ℤ) ≤ -1 := by decide
  rw [reset, if_neg hminus, setFd, ← hx, Function.update_eq_self]

/-- **The tail is moved down** into an element that holds nothing: the elements but the last get the
content of the next one, the last one is destroyed, and nothing is closed. -/
theorem shiftDown_run {rest : List ℕ} {fds : List ℤ} (hnodup : (x :: rest).Nodup)
    (hx : s.objs x = some (-1)) (hrest : rest.map s.objs = fds.map some) :
    ∃ objs, run opStep s (eraseOps (x :: rest)) = some { s with objs := objs } ∧
      (x :: rest).dropLast.map objs = fds.map some ∧ ∀ y ∉ x :: rest, objs y = s.objs y := by
  induction rest generalizing s x fds with
  | nil =>
      refine ⟨Function.update s.objs x none, ?_, hrest, ?_⟩
      · rw [eraseOps, run_cons, opStep_destroy hx, reset_minus_one hx]
        rfl
      · intro y hy
        exact Function.update_of_ne (List.ne_of_not_mem_cons hy) _ _
  | cons y rest ih =>
      obtain ⟨fd, fds, rfl⟩ : ∃ fd fds', fds = fd :: fds' := by
        cases fds with
        | nil => cases hrest
        | cons fd fds => exact ⟨fd, fds, rfl⟩
      rw [List.map_cons, List.map_cons, List.cons.injEq] at hrest
      obtain ⟨hy, hrest⟩ := hrest
      obtain ⟨hxrest, hyrest, hnodup'⟩ : x ∉ y :: rest ∧ y ∉ rest ∧ rest.Nodup := by
        simpa only [List.nodup_cons] using hnodup
      have hxy : x ≠ y := List.ne_of_not_mem_cons hxrest
      -- the first assignment; then the same holds of `y` and what follows it
      have hfirst := opStep_moveAssign hx hy hxy
      rw [reset_minus_one hx] at hfirst
      have hkeep : ∀ z ∉ [x, y], ((s.setFd x fd).setFd y (-1)).objs z = s.objs z := by
        intro z hz
        simp only [List.mem_cons, List.not_mem_nil, or_false, not_or] at hz
        simp only [setFd, Function.update_of_ne hz.2, Function.update_of_ne hz.1]
      have hrest' : rest.map ((s.setFd x fd).setFd y (-1)).objs = fds.map some := by
        rw [← hrest]
        refine List.map_congr_left fun z hz => hkeep z ?_
        simp only [List.mem_cons, List.not_mem_nil, or_false, not_or]
        constructor
        · rintro rfl
          exact hxrest (List.mem_cons_of_mem y hz)
        · rintro rfl
          exact hyrest hz
      obtain ⟨objs, hrun, hobjs, hothers⟩ := ih (List.nodup_cons.mpr ⟨hyrest, hnodup'⟩)
        (Function.update_self y _ _) hrest'
      refine ⟨objs, ?_, ?_, ?_⟩
      · rw [eraseOps, run_cons, hfirst, Option.bind_some, hrun]
        rfl
      · have hobjs_x : objs x = some fd := by
          rw [hothers x hxrest]
          simp only [setFd, Function.update_of_ne hxy, Function.update_self]
        rw [List.dropLast_cons_cons, List.map_cons, hobjs, hobjs_x, List.map_cons]
      · intro z hz
        have hzrest : z ∉ y :: rest := List.not_mem_of_not_mem_cons hz
        have hzx : z ≠ x := List.ne_of_not_mem_cons hz
        have hzy : z ≠ y := List.ne_of_not_mem_cons hzrest
        rw [hothers z hzrest]
        exact hkeep z (by simp [hzx, hzy])

/-- The first operation of an erasure begins with `reset()`. -/
theorem eraseOps_reset {rest : List ℕ} {fd : ℤ} (hx : s.objs x = some fd) (hnot : x ∉ rest)
    (hlive : ∀ y ∈ rest, (s.objs y).isSome = true) :
    run opStep s (eraseOps (x :: rest)) =
      run opStep (s.reset x fd (-1)) (eraseOps (x :: rest)) := by
  have hself := reset_objs_self s x fd (-1)
  cases rest with
  | nil => rw [eraseOps, run_cons, run_cons, opStep_destroy hx, opStep_destroy hself,
      reset_minus_one hself]
  | cons y rest =>
      have hxy : x ≠ y := List.ne_of_not_mem_cons hnot
      obtain ⟨other, hy⟩ := Option.isSome_iff_exists.mp (hlive y List.mem_cons_self)
      have hy' : (s.reset x fd (-1)).objs y = some other := by
        rw [reset_objs_of_ne s hxy.symm, hy]
      rw [eraseOps, run_cons, run_cons, opStep_moveAssign hx hy hxy,
        opStep_moveAssign hself hy' hxy, reset_minus_one hself]

/-- **An erasure closes one descriptor**: that of the erased element, if it holds one. The others
keep theirs, one place further down from there on. -/
theorem erase_spec {slots : List ℕ} {fds : List ℤ} {i : ℕ} {fd : ℤ} (hnodup : slots.Nodup)
    (hslots : slots.map s.objs = fds.map some) (hi : fds[i]? = some fd) :
    ∃ objs, fdStep s (.erase slots i) =
        some { (if 0 ≤ fd then s.close fd else s) with objs := objs } ∧
      slots.dropLast.map objs = (fds.eraseIdx i).map some ∧ ∀ y ∉ slots, objs y = s.objs y := by
  -- the vector, cut at the element
  obtain ⟨before, after, rfl, hbefore⟩ :
      ∃ before after, fds = before ++ fd :: after ∧ before.length = i := by
    obtain ⟨hlt, hget⟩ := List.getElem?_eq_some_iff.mp hi
    refine ⟨fds.take i, fds.drop (i + 1), ?_, List.length_take_of_le hlt.le⟩
    rw [← hget, ← List.drop_eq_getElem_cons hlt, List.take_append_drop]
  rw [List.map_append, List.map_cons] at hslots
  obtain ⟨lower, upper, rfl, hlower, hupper⟩ := List.map_eq_append_iff.mp hslots
  obtain ⟨x, rest, rfl, hx, hrest⟩ := List.map_eq_cons_iff.mp hupper
  have hlength : lower.length = i := by
    rw [← hbefore, ← List.length_map s.objs, hlower, List.length_map]
  obtain ⟨-, hnodup', hdisjoint⟩ := List.nodup_append.mp hnodup
  have hlive : ∀ y ∈ lower ++ x :: rest, (s.objs y).isSome = true := by
    intro y hy
    have hmem : s.objs y ∈ (lower ++ x :: rest).map s.objs := List.mem_map_of_mem hy
    rw [hslots, ← List.map_cons, ← List.map_append] at hmem
    obtain ⟨fd', -, hfd'⟩ := List.mem_map.mp hmem
    rw [← hfd']
    rfl
  have hguard : (lower ++ x :: rest).Nodup ∧
      (∀ y ∈ lower ++ x :: rest, (s.objs y).isSome = true) ∧ i < (lower ++ x :: rest).length := by
    refine ⟨hnodup, hlive, ?_⟩
    rw [List.length_append, List.length_cons]
    omega
  have hxrest : x ∉ rest := (List.nodup_cons.mp hnodup').1
  -- behind the `reset()` of the element, the tail is moved down
  have hrest' : rest.map (s.reset x fd (-1)).objs = after.map some := by
    rw [← hrest]
    refine List.map_congr_left fun y hy => reset_objs_of_ne s ?_ fd (-1)
    rintro rfl
    exact hxrest hy
  obtain ⟨objs, hrun, hobjs, hothers⟩ :=
    shiftDown_run hnodup' (reset_objs_self s x fd (-1)) hrest'
  have hkeep : ∀ y ∉ x :: rest, objs y = s.objs y := by
    intro y hy
    rw [hothers y hy, reset_objs_of_ne s (List.ne_of_not_mem_cons hy)]
  refine ⟨objs, ?_, ?_, ?_⟩
  · rw [fdStep, if_pos hguard, List.drop_left' hlength,
      eraseOps_reset hx hxrest fun y hy => hlive y (by simp [hy]), hrun]
    rfl
  · rw [List.dropLast_append_of_ne_nil (List.cons_ne_nil x rest), List.map_append, hobjs,
      List.eraseIdx_append_of_length_le hbefore.le, hbefore, Nat.sub_self, List.eraseIdx_cons_zero,
      List.map_append, ← hlower]
    congr 1
    refine List.map_congr_left fun y hy => hkeep y ?_
    intro hmem
    exact hdisjoint y hy y hmem rfl
  · intro y hy
    exact hkeep y fun hmem => hy (List.mem_append_right lower hmem)

/-- The same, with what is closed spelled out. -/
theorem erase_closes {slots : List ℕ} {fds : List ℤ} {i : ℕ} {fd : ℤ} (hnodup : slots.Nodup)
    (hslots : slots.map s.objs = fds.map some) (hi : fds[i]? = some fd) :
    ∃ t, fdStep s (.erase slots i) = some t ∧
      t.closes = s.closes ++ (if 0 ≤ fd then [s.file fd] else []) ∧
      (∀ fd', t.file fd' = if 0 ≤ fd ∧ fd' = fd then none else s.file fd') ∧
      slots.dropLast.map t.objs = (fds.eraseIdx i).map some ∧
      ∀ y ∉ slots, t.objs y = s.objs y := by
  obtain ⟨objs, hstep, hobjs, hothers⟩ := erase_spec hnodup hslots hi
  by_cases hfd : 0 ≤ fd
  · rw [if_pos hfd] at hstep
    refine ⟨_, hstep, ?_, ?_, hobjs, hothers⟩
    · rw [if_pos hfd, file, if_pos hfd]
      rfl
    · intro fd'
      simp only [hfd, true_and]
      exact file_close hfd fd'
  · rw [if_neg hfd] at hstep
    refine ⟨_, hstep, ?_, ?_, hobjs, hothers⟩
    · rw [if_neg hfd, List.append_nil]
    · intro fd'
      rw [if_neg fun h => hfd h.1]
      rfl

end Fds

open Fds

/-- **`UniqueFd` owns each descriptor exactly once.** After every sequence of operations, in which
objects are only given `-1` or descriptors that were opened and not adopted before:
* the valid descriptors that objects hold are open and pairwise distinct;
* `close` was called once for each adopted opening that is neither held nor released, never for one
  that is held or released, and never for anything else;
* erasing an element of a vector closes its descriptor, if it holds one, and no other; the other
  elements keep theirs. -/
theorem unique_fd_owns {s : Fds} (h : Reachable fdStep Fds.init s) :
    (∀ x fd, s.objs x = some fd → 0 ≤ fd → ∃ id, s.file fd = some id ∧ some id ∉ s.closes) ∧
    (∀ x y fd, s.objs x = some fd → s.objs y = some fd → 0 ≤ fd → x = y) ∧
    (∀ id ∈ s.adopted, id ∉ s.released → (∀ x fd, s.objs x = some fd → s.file fd ≠ some id) →
      s.closes.count (some id) = 1) ∧
    (∀ id ∈ s.released, s.closes.count (some id) = 0) ∧
    (∀ c ∈ s.closes, ∃ id ∈ s.adopted, c = some id) ∧
    (∀ (slots : List ℕ) (fds : List ℤ) (i : ℕ) (fd : ℤ), slots.Nodup →
      slots.map s.objs = fds.map some → fds[i]? = some fd →
      ∃ t, fdStep s (.erase slots i) = some t ∧
        t.closes = s.closes ++ (if 0 ≤ fd then [s.file fd] else []) ∧
        (∀ fd', t.file fd' = if 0 ≤ fd ∧ fd' = fd then none else s.file fd') ∧
        slots.dropLast.map t.objs = (fds.eraseIdx i).map some ∧
        ∀ y ∉ slots, t.objs y = s.objs y) := by
  have hs : Owned s := h.inv Owned (fun _ _ _ hs hst => owned_step hs hst) owned_init
  refine ⟨?_, ?_, ?_, ?_, ?_, ?_⟩
  · intro x fd hx hfd
    obtain ⟨n, rfl⟩ := Int.eq_ofNat_of_zero_le hfd
    obtain ⟨id, hfile, -, -, hclosed⟩ := hs.held hx
    exact ⟨id, (file_natCast s n).trans hfile, hclosed⟩
  · intro x y fd hx hy hfd
    obtain ⟨n, rfl⟩ := Int.eq_ofNat_of_zero_le hfd
    exact hs.alone hx hy
  · intro id hid hreleased hheld
    rcases hs.settled id hid with h | h | ⟨x, n, hx, hn⟩
    · exact absurd h hreleased
    · exact List.count_eq_one_of_mem hs.once h
    · exact absurd ((file_natCast s n).trans hn) (hheld x n hx)
  · intro id hid
    refine List.count_eq_zero_of_not_mem fun hmem => ?_
    obtain ⟨id', -, heq, hreleased⟩ := hs.closed _ hmem
    cases heq
    exact hreleased hid
  · intro c hc
    obtain ⟨id, hid, heq, -⟩ := hs.closed c hc
    exact ⟨id, hid, heq⟩
  · intro slots fds i fd hnodup hslots hi
    exact erase_closes hnodup hslots hi

/-- Three clients; the number 6 was used before, for a descriptor that was released. -/
def threeClients : List FdLabel :=
  [.op (.openFile 6), .op (.construct 9 6), .op (.release 9), .op (.closeFile 6), .op (.destroy 9),
    .op (.openFile 5), .op (.construct 0 5), .op (.openFile 6), .op (.construct 1 6),
    .op (.openFile 7), .op (.construct 2 (-1)), .op (.reset 2 7)]

theorem unique_fd_owns_threeClients :
    ∃ s t, run fdStep Fds.init threeClients = some s ∧ fdStep s (.erase [0, 1, 2] 1) = some t ∧
      t.closes = [some 2] ∧ [0, 1].map t.objs = [some 5, some 7] := by
  obtain ⟨s, hs⟩ : ∃ s, run fdStep Fds.init threeClients = some s := ⟨_, rfl⟩
  have hobjs : (run fdStep Fds.init threeClients).map (fun s => [0, 1, 2].map s.objs) =
      some [some 5, some 6, some 7] := rfl
  have hcloses : (run fdStep Fds.init threeClients).map (fun s => (s.closes, s.file 6)) =
      some ([], some 2) := rfl
  rw [hs, Option.map_some, Option.some.injEq] at hobjs hcloses
  rw [Prod.mk.injEq] at hcloses
  obtain ⟨-, -, -, -, -, herase⟩ := unique_fd_owns ⟨_, hs⟩
  obtain ⟨t, ht, htcloses, -, htobjs, -⟩ := herase [0, 1, 2] [5, 6, 7] 1 6 (by decide) hobjs rfl
  refine ⟨s, t, hs, ht, ?_, htobjs⟩
  rw [htcloses, hcloses.1, hcloses.2]
  rfl

end SensorHub
