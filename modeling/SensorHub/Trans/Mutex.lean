import SensorHub.Trans.Run
import Mathlib.Logic.Function.Basic

set_option autoImplicit false

/-!
# Critical sections

Threads share a state behind a mutex. A call waits for the mutex, executes its statements one at a
time, and gives the mutex back when it leaves, in whichever way it does (`std::lock_guard`).
Between two statements any other thread may run.

* `Section`: the statements of the calls; `Guarded`, `guardStep`: the threads and the mutex.
* `Exclusive`, **`exclusive_step`**: at most one thread is inside.
* `Within`, `Whole`, `Ends`, `Serial`: a call up to a statement, a call, what is left of a call, and
  calls one after the other.
* **`serial_of_reachable`**: whatever the interleaving, the shared state is one that whole calls
  leave behind, in the order in which they have left, or that the call inside has made of it.
-/

namespace Trans

/-- The statements of calls `κ` on a shared state `σ`: the place at which a call begins, and what
the statement at a place does with an answer `ε` from outside. It goes on at a place, or leaves. -/
structure Section (σ κ π ε : Type*) where
  enter : κ → π
  act : σ → π → ε → Option (σ × Option π)

/-- Where a thread stands. -/
inductive Spot (κ π : Type*)
  | outside
  | waiting (k : κ)
  | inside (k : κ) (p : π)

/-- The shared state, the owner of the mutex, the threads, and the calls that have left. -/
structure Guarded (ι σ κ π : Type*) where
  shared : σ
  owner : Option ι
  spot : ι → Spot κ π
  left : List κ

inductive GuardLabel (ι κ ε : Type*)
  /-- Thread `i` calls, and waits for the mutex. -/
  | call (i : ι) (k : κ)
  /-- The mutex is free, and `i` gets it. -/
  | lock (i : ι)
  /-- Thread `i` executes its next statement. -/
  | act (i : ι) (e : ε)

variable {ι σ κ π ε : Type*}

def Guarded.init (s : σ) : Guarded ι σ κ π := ⟨s, none, fun _ => .outside, []⟩

/-- Who is inside owns the mutex. -/
def Exclusive (g : Guarded ι σ κ π) : Prop :=
  ∀ i k p, g.spot i = .inside k p → g.owner = some i

theorem exclusive_init (s : σ) : Exclusive (Guarded.init s : Guarded ι σ κ π) := by
  intro i k p hi
  cases hi

variable [DecidableEq ι]

def guardStep (M : Section σ κ π ε) (g : Guarded ι σ κ π) :
    GuardLabel ι κ ε → Option (Guarded ι σ κ π)
  | .call i k =>
      match g.spot i with
      | .outside => some { g with spot := Function.update g.spot i (.waiting k) }
      | _ => none
  | .lock i =>
      match g.spot i, g.owner with
      | .waiting k, none =>
          some { g with
            owner := some i
            spot := Function.update g.spot i (.inside k (M.enter k)) }
      | _, _ => none
  | .act i e =>
      match g.spot i with
      | .inside k p =>
          match M.act g.shared p e with
          | none => none
          | some (s, some q) =>
              some { g with shared := s, spot := Function.update g.spot i (.inside k q) }
          | some (s, none) =>
              some ⟨s, none, Function.update g.spot i .outside, g.left ++ [k]⟩
      | _ => none

variable {M : Section σ κ π ε}

/-- What a step does. -/
inductive GuardMove (M : Section σ κ π ε) (g : Guarded ι σ κ π) : Guarded ι σ κ π → Prop
  | call {i : ι} (k : κ) (hi : g.spot i = .outside) :
      GuardMove M g { g with spot := Function.update g.spot i (.waiting k) }
  | lock {i : ι} {k : κ} (hi : g.spot i = .waiting k) (hfree : g.owner = none) :
      GuardMove M g { g with
        owner := some i
        spot := Function.update g.spot i (.inside k (M.enter k)) }
  | act {i : ι} {k : κ} {p q : π} {e : ε} {s : σ} (hi : g.spot i = .inside k p)
      (hact : M.act g.shared p e = some (s, some q)) :
      GuardMove M g { g with shared := s, spot := Function.update g.spot i (.inside k q) }
  | leave {i : ι} {k : κ} {p : π} {e : ε} {s : σ} (hi : g.spot i = .inside k p)
      (hact : M.act g.shared p e = some (s, none)) :
      GuardMove M g ⟨s, none, Function.update g.spot i .outside, g.left ++ [k]⟩

theorem guardMove_of_guardStep {g g' : Guarded ι σ κ π} {l : GuardLabel ι κ ε}
    (h : guardStep M g l = some g') : GuardMove M g g' := by
  cases l with
  | call i k =>
      simp only [guardStep] at h
      cases hi : g.spot i with
      | outside =>
          rw [hi] at h
          cases h
          exact .call k hi
      | _ => rw [hi] at h; cases h
  | lock i =>
      simp only [guardStep] at h
      cases hi : g.spot i with
      | waiting k =>
          cases hfree : g.owner with
          | none =>
              rw [hi, hfree] at h
              cases h
              exact .lock hi hfree
          | some j => rw [hi, hfree] at h; cases h
      | _ => rw [hi] at h; cases h
  | act i e =>
      simp only [guardStep] at h
      cases hi : g.spot i with
      | inside k p =>
          rw [hi] at h
          cases hact : M.act g.shared p e with
          | none => simp only [hact] at h; cases h
          | some r =>
              obtain ⟨s, q⟩ := r
              cases q with
              | none =>
                  simp only [hact] at h
                  cases h
                  exact .leave hi hact
              | some q =>
                  simp only [hact] at h
                  cases h
                  exact .act hi hact
      | _ => rw [hi] at h; cases h

/-! ### Mutual exclusion -/

/-- **Every step keeps the mutual exclusion.** -/
theorem exclusive_step {g g' : Guarded ι σ κ π} {l : GuardLabel ι κ ε} (hg : Exclusive g)
    (h : guardStep M g l = some g') : Exclusive g' := by
  intro j k' p' hj
  cases guardMove_of_guardStep h with
  | @call i k hi =>
      by_cases hij : j = i
      · subst hij
        simp only [Function.update_self, reduceCtorEq] at hj
      · simp only [Function.update_of_ne hij] at hj
        exact hg j k' p' hj
  | @lock i k hi hfree =>
      by_cases hij : j = i
      · rw [hij]
      · simp only [Function.update_of_ne hij] at hj
        have howner := hg j k' p' hj
        rw [hfree] at howner
        cases howner
  | @act i k p q e s hi hact =>
      by_cases hij : j = i
      · rw [hij]
        exact hg i k p hi
      · simp only [Function.update_of_ne hij] at hj
        exact hg j k' p' hj
  | @leave i k p e s hi hact =>
      by_cases hij : j = i
      · subst hij
        simp only [Function.update_self, reduceCtorEq] at hj
      · -- two threads inside would both own the mutex
        simp only [Function.update_of_ne hij] at hj
        have hboth := (hg j k' p' hj).symm.trans (hg i k p hi)
        exact absurd (Option.some.inj hboth) hij

/-! ### Calls one after the other -/

/-- A call of `k` that began in `s` has come to the place `p`, with the state `t`. -/
inductive Within (M : Section σ κ π ε) (s : σ) (k : κ) : σ → π → Prop
  | enter : Within M s k s (M.enter k)
  | act {t u : σ} {p q : π} {e : ε} (h : Within M s k t p)
      (hact : M.act t p e = some (u, some q)) : Within M s k u q

/-- A call of `k` from its first statement to its last. -/
def Whole (M : Section σ κ π ε) (s : σ) (k : κ) (t : σ) : Prop :=
  ∃ u p e, Within M s k u p ∧ M.act u p e = some (t, none)

/-- From the place `p` and the state `s`, the call can leave with the state `t`. -/
inductive Ends (M : Section σ κ π ε) : σ → π → σ → Prop
  | leave {s t : σ} {p : π} {e : ε} (hact : M.act s p e = some (t, none)) : Ends M s p t
  | act {s t u : σ} {p q : π} {e : ε} (hact : M.act s p e = some (u, some q))
      (h : Ends M u q t) : Ends M s p t

theorem Within.ends {s t u : σ} {k : κ} {p : π} (h : Within M s k t p) (hu : Ends M t p u) :
    Ends M s (M.enter k) u := by
  induction h with
  | enter => exact hu
  | act _ hact ih => exact ih (.act hact hu)

theorem Whole.ends {s t : σ} {k : κ} (h : Whole M s k t) : Ends M s (M.enter k) t := by
  obtain ⟨u, p, e, hwithin, hact⟩ := h
  exact hwithin.ends (.leave hact)

/-- The first statement of what is left of a call. -/
theorem Ends.first {s t : σ} {p : π} (h : Ends M s p t) : ∃ e,
    M.act s p e = some (t, none) ∨ ∃ u q, M.act s p e = some (u, some q) ∧ Ends M u q t := by
  cases h with
  | leave hact => exact ⟨_, Or.inl hact⟩
  | act hact h => exact ⟨_, Or.inr ⟨_, _, hact, h⟩⟩

/-- A statement behind which the call always goes on. -/
theorem Ends.next {s t : σ} {p : π} {u : ε → σ} {q : ε → π} (h : Ends M s p t)
    (hact : ∀ e, M.act s p e = some (u e, some (q e))) : ∃ e, Ends M (u e) (q e) t := by
  obtain ⟨e, hleave | ⟨v, r, hgo, hrest⟩⟩ := h.first
  · rw [hact] at hleave
    cases hleave
  · rw [hact] at hgo
    cases hgo
    exact ⟨e, hrest⟩

/-- Whole calls, one after the other. -/
inductive Serial (M : Section σ κ π ε) (s : σ) : List κ → σ → Prop
  | nil : Serial M s [] s
  | snoc {ks : List κ} {k : κ} {t u : σ} (h : Serial M s ks t) (hcall : Whole M t k u) :
      Serial M s (ks ++ [k]) u

/-- **What every whole call keeps**, calls one after the other keep. -/
theorem Serial.inv {s t : σ} {ks : List κ} (h : Serial M s ks t) (Inv : List κ → σ → Prop)
    (hstep : ∀ ks t k u, Inv ks t → Whole M t k u → Inv (ks ++ [k]) u) (hs : Inv [] s) :
    Inv ks t := by
  induction h with
  | nil => exact hs
  | snoc _ hcall ih => exact hstep _ _ _ _ ih hcall

/-- The calls that have left took effect one after the other, and left `t`; the call that is inside,
if there is one, has made of `t` what is there. -/
structure Serialised (M : Section σ κ π ε) (s : σ) (g : Guarded ι σ κ π) (t : σ) : Prop where
  calls : Serial M s g.left t
  free : g.owner = none → g.shared = t
  inside : ∀ i, g.owner = some i → ∃ k p, g.spot i = .inside k p ∧ Within M t k g.shared p

theorem serialised_step {s t : σ} {g g' : Guarded ι σ κ π} {l : GuardLabel ι κ ε}
    (hex : Exclusive g) (hg : Serialised M s g t) (h : guardStep M g l = some g') :
    ∃ t', Serialised M s g' t' := by
  cases guardMove_of_guardStep h with
  | @call i k hi =>
      refine ⟨t, hg.calls, hg.free, fun j hj => ?_⟩
      obtain ⟨k', p, hspot, hwithin⟩ := hg.inside j hj
      have hij : j ≠ i := by
        rintro rfl
        rw [hi] at hspot
        cases hspot
      exact ⟨k', p, by simpa only [Function.update_of_ne hij] using hspot, hwithin⟩
  | @lock i k hi hfree =>
      refine ⟨t, hg.calls, fun hnone => ?_, fun j hj => ?_⟩
      · cases hnone
      · cases hj
        refine ⟨k, M.enter k, Function.update_self .., ?_⟩
        rw [hg.free hfree]
        exact .enter
  | @act i k p q e u hi hact =>
      have howner : g.owner = some i := hex i k p hi
      refine ⟨t, hg.calls, fun hnone => ?_, fun j hj => ?_⟩
      · rw [howner] at hnone
        cases hnone
      · have hji : j = i := Option.some.inj (hj.symm.trans howner)
        obtain ⟨k', p', hspot, hwithin⟩ := hg.inside i howner
        rw [hi] at hspot
        cases hspot
        subst hji
        exact ⟨k, q, Function.update_self .., hwithin.act hact⟩
  | @leave i k p e u hi hact =>
      obtain ⟨k', p', hspot, hwithin⟩ := hg.inside i (hex i k p hi)
      rw [hi] at hspot
      cases hspot
      exact ⟨u, hg.calls.snoc ⟨_, _, _, hwithin, hact⟩, fun _ => rfl, fun j hj => by cases hj⟩

/-- **A mutex makes calls atomic.** -/
theorem serial_of_reachable {s : σ} {g : Guarded ι σ κ π}
    (h : Reachable (guardStep M) (Guarded.init s) g) :
    Exclusive g ∧ ∃ t, Serialised M s g t := by
  have hinit : Serialised M s (Guarded.init s : Guarded ι σ κ π) s :=
    ⟨.nil, fun _ => rfl, fun i hi => by cases hi⟩
  refine h.inv (fun g => Exclusive g ∧ ∃ t, Serialised M s g t) ?_ ⟨exclusive_init s, s, hinit⟩
  rintro g l g' ⟨hex, t, hg⟩ hstep
  exact ⟨exclusive_step hex hstep, serialised_step hex hg hstep⟩

end Trans
