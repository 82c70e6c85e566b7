import SensorHub.Net.Broadcast
import SensorHub.Net.UniqueFd

set_option autoImplicit false

/-!
# The subscribers as descriptors

`TcpBroadcaster` of `userspace/src/net/tcp_broadcaster.cpp` on the descriptors it really has:
`clients_` is a `std::vector<UniqueFd>`, whose elements are moved when it grows and when one of them
is erased; numbers that were closed are given out again, to whoever opens a file next. The rest of
the process opens and closes descriptors at any time.

* `FdBroadcaster`, `tcpStep`; `growOps`, `grow_run`: the vector moves to new memory.
* `heldBy`, `Owned.other`: what the rest of the process does to the elements; `wire`: what was sent.
* `Matches`, `matches_step`: the elements are the subscribers of `Broadcaster`, in the same order.
* **`sends_reach_subscribers`**.
-/

namespace SensorHub

open Trans
open scoped List

/-- The objects that an operation touches. -/
def FdOp.objects : FdOp → List ℕ
  | .openFile _ | .closeFile _ => []
  | .construct x _ | .reset x _ | .release x | .destroy x => [x]
  | .moveConstruct x y | .moveAssign x y => [x, y]

/-- The elements move to new memory: each is moved to its new place, and destroyed. -/
def growOps : List ℕ → List ℕ → List FdOp
  | x :: xs, y :: ys => .moveConstruct y x :: .destroy x :: growOps xs ys
  | _, _ => []

/-- The descriptors of the process, the elements of `clients_`, the opening of each subscriber that
was ever accepted, a connection that is accepted and not yet in the vector, the lines that were
broadcast, the call that holds the mutex, and the calls of `send`: the opening that each was on, and
the bytes it took. -/
structure FdBroadcaster where
  fds : Fds
  slots : List ℕ
  openings : List ℕ
  pending : Option ℕ
  lines : List Bytes
  pass : Option Pass
  sends : List (Option ℕ × Bytes)

inductive TcpLabel
  /-- An operation of the rest of the process. -/
  | other (o : FdOp)
  /-- `accept4` returns `n`. -/
  | accept4 (n : ℕ)
  /-- The vector moves to the places `ys`. -/
  | grow (ys : List ℕ)
  /-- `clients_.emplace_back(fd)`, at the place `x`. -/
  | emplace (x : ℕ)
  | broadcast (line : Bytes)
  | send (result : SendResult)
  | finish

namespace FdBroadcaster

def init : FdBroadcaster := ⟨.init, [], [], none, [], none, []⟩

/-- The opening that the object `x` holds. -/
def heldBy (s : Fds) (x : ℕ) : Option ℕ := (s.objs x).bind s.file

/-- What was sent on the opening `id`. -/
def wire (s : FdBroadcaster) (id : ℕ) : Bytes :=
  (s.sends.filter fun call => call.1 = some id).flatMap Prod.snd

/-- The body of the loop behind the `send` on the element `x`. -/
def onSend (s : FdBroadcaster) (pass : Pass) (x : ℕ) (result : SendResult) :
    Option FdBroadcaster :=
  let s := { s with sends := s.sends ++ [(heldBy s.fds x, acceptedBytes pass.line result)] }
  if Reactor.keeps (payload pass.line).length result then
    some { s with pass := some { pass with it := pass.it + 1 } }
  else
    (fdStep s.fds (.erase s.slots pass.it)).map fun fds =>
      { s with fds := fds, slots := s.slots.dropLast }

def tcpStep (s : FdBroadcaster) : TcpLabel → Option FdBroadcaster
  | .other o =>
      if ∀ x ∈ o.objects, x ∉ s.slots then
        (opStep s.fds o).map fun fds => { s with fds := fds }
      else none
  | .accept4 n =>
      match s.pending with
      | none => (opStep s.fds (.openFile n)).map fun fds => { s with fds := fds, pending := some n }
      | some _ => none
  | .grow ys =>
      if s.pass = none ∧ ys.length = s.slots.length ∧ (s.slots ++ ys).Nodup then
        (run opStep s.fds (growOps s.slots ys)).map fun fds => { s with fds := fds, slots := ys }
      else none
  | .emplace x =>
      match s.pass, s.pending with
      | none, some n =>
          if x ∈ s.slots then none
          else (opStep s.fds (.construct x n)).map fun fds =>
            { s with
              fds := fds
              slots := s.slots ++ [x]
              openings := s.openings ++ (s.fds.file n).toList
              pending := none }
      | _, _ => none
  | .broadcast line =>
      match s.pass with
      | none => some { s with pass := some ⟨line, 0⟩ }
      | some _ => none
  | .send result =>
      s.pass.bind fun pass => s.slots[pass.it]?.bind fun x =>
        if canTake pass.line result then s.onSend pass x result else none
  | .finish =>
      s.pass.bind fun pass =>
        if s.slots.length ≤ pass.it then
          some { s with lines := s.lines ++ [pass.line], pass := none }
        else none

end FdBroadcaster

/-! ### The elements of the vector -/

namespace Fds

variable {s t : Fds} {x n : ℕ}

/-- What `reset` does to the holder of another descriptor: nothing. -/
theorem Owned.reset_other (hs : Owned s) (hx : s.Has x n) {y : ℕ} {fd : ℤ} (hyx : x ≠ y)
    (hy : s.objs y = some fd) (next : ℤ) :
    (s.reset y fd next).Has x n ∧ (s.reset y fd next).files n = s.files n := by
  refine ⟨(reset_objs_of_ne s hyx fd next).trans hx, ?_⟩
  unfold reset
  by_cases hfd : 0 ≤ fd
  · obtain ⟨m, rfl⟩ := Int.eq_ofNat_of_zero_le hfd
    have hnm : n ≠ m := by
      rintro rfl
      exact hyx (hs.alone hx hy)
    rw [if_pos hfd]
    simp only [setFd, Fds.close, Int.toNat_natCast, Function.update_of_ne hnm]
  · rw [if_neg hfd]
    rfl

/-- An operation that does not touch a holder leaves it its descriptor, and that open. -/
theorem Owned.other (hs : Owned s) {o : FdOp} (hx : s.Has x n) (ho : x ∉ o.objects)
    (h : opStep s o = some t) : t.Has x n ∧ t.files n = s.files n := by
  obtain ⟨id, hfile, hadopted, hreleased, -⟩ := hs.held hx
  have hset : ∀ {u : Fds} {y : ℕ} {v : Option ℤ}, x ≠ y → u.Has x n →
      Function.update u.objs y v x = some (n : ℤ) := by
    intro u y v hyx hu
    rw [Function.update_of_ne hyx]
    exact hu
  cases o with
  | openFile m =>
      simp only [opStep] at h
      cases hm : s.files m with
      | some id' => rw [hm] at h; cases h
      | none =>
          rw [hm] at h
          cases h
          refine ⟨hx, Function.update_of_ne ?_ _ _⟩
          rintro rfl
          rw [hm] at hfile
          cases hfile
  | closeFile m =>
      simp only [opStep] at h
      cases hm : s.files m with
      | none => rw [hm] at h; cases h
      | some id' =>
          rw [hm] at h
          simp only at h
          split_ifs at h with hfree
          cases h
          refine ⟨hx, Function.update_of_ne ?_ _ _⟩
          rintro rfl
          rw [hm] at hfile
          cases hfile
          exact hfree ⟨hadopted, hreleased⟩
  | construct y next =>
      have hyx : x ≠ y := List.ne_of_not_mem_cons ho
      simp only [opStep] at h
      cases hy : s.objs y with
      | some fd => rw [hy] at h; cases h
      | none =>
          rw [hy] at h
          simp only at h
          split_ifs at h
          cases h
          exact ⟨hset hyx hx, rfl⟩
  | reset y next =>
      have hyx : x ≠ y := List.ne_of_not_mem_cons ho
      simp only [opStep] at h
      cases hy : s.objs y with
      | none => rw [hy] at h; cases h
      | some fd =>
          rw [hy] at h
          simp only at h
          split_ifs at h
          cases h
          exact hs.reset_other hx hyx hy next
  | moveConstruct y z =>
      have hyx : x ≠ y := List.ne_of_not_mem_cons ho
      have hzx : x ≠ z := List.ne_of_not_mem_cons (List.not_mem_of_not_mem_cons ho)
      simp only [opStep] at h
      split at h
      · cases h
        exact ⟨hset hzx (hset hyx hx), rfl⟩
      · cases h
  | moveAssign y z =>
      have hyx : x ≠ y := List.ne_of_not_mem_cons ho
      have hzx : x ≠ z := List.ne_of_not_mem_cons (List.not_mem_of_not_mem_cons ho)
      simp only [opStep] at h
      split at h
      · rename_i fd other hy hz
        split_ifs at h
        · cases h
          obtain ⟨hobjs, hfiles⟩ := hs.reset_other hx hyx hy (-1)
          exact ⟨hset hzx (hset hyx hobjs), hfiles⟩
        · cases h
          exact ⟨hx, rfl⟩
      · cases h
  | release y =>
      have hyx : x ≠ y := List.ne_of_not_mem_cons ho
      simp only [opStep] at h
      cases hy : s.objs y with
      | none => rw [hy] at h; cases h
      | some fd =>
          rw [hy] at h
          cases h
          exact ⟨hset hyx hx, rfl⟩
  | destroy y =>
      have hyx : x ≠ y := List.ne_of_not_mem_cons ho
      simp only [opStep] at h
      cases hy : s.objs y with
      | none => rw [hy] at h; cases h
      | some fd =>
          rw [hy] at h
          cases h
          obtain ⟨hobjs, hfiles⟩ := hs.reset_other hx hyx hy (-1)
          exact ⟨hset hyx hobjs, hfiles⟩

/-- The records of what was adopted and closed only grow. -/
theorem opStep_records {o : FdOp} (h : opStep s o = some t) :
    s.adopted <+: t.adopted ∧ s.closes <+: t.closes := by
  have hreset : ∀ (x : ℕ) (fd next : ℤ), s.closes <+: (s.reset x fd next).closes ∧
      (s.reset x fd next).adopted = s.adopted := by
    intro x fd next
    unfold reset
    by_cases hfd : 0 ≤ fd
    · rw [if_pos hfd]
      exact ⟨List.prefix_append _ _, rfl⟩
    · rw [if_neg hfd]
      exact ⟨List.prefix_refl _, rfl⟩
  cases o with
  | openFile m =>
      simp only [opStep] at h
      split at h
      · cases h
        exact ⟨List.prefix_refl _, List.prefix_refl _⟩
      · cases h
  | closeFile m =>
      simp only [opStep] at h
      split at h
      · cases h
      · split_ifs at h
        cases h
        exact ⟨List.prefix_refl _, List.prefix_refl _⟩
  | construct y next =>
      simp only [opStep] at h
      split at h
      · split_ifs at h
        cases h
        exact ⟨List.prefix_append _ _, List.prefix_refl _⟩
      · cases h
  | reset y next =>
      simp only [opStep] at h
      split at h
      · cases h
      · rename_i fd hy
        split_ifs at h
        cases h
        refine ⟨?_, (hreset y fd next).1⟩
        show s.adopted <+: (s.reset y fd next).adopted ++ _
        rw [(hreset y fd next).2]
        exact List.prefix_append _ _
  | moveConstruct y z =>
      simp only [opStep] at h
      split at h
      · cases h
        exact ⟨List.prefix_refl _, List.prefix_refl _⟩
      · cases h
  | moveAssign y z =>
      simp only [opStep] at h
      split at h
      · rename_i fd other hy hz
        split_ifs at h
        · cases h
          refine ⟨?_, (hreset y fd (-1)).1⟩
          show s.adopted <+: (s.reset y fd (-1)).adopted
          rw [(hreset y fd (-1)).2]
        · cases h
          exact ⟨List.prefix_refl _, List.prefix_refl _⟩
      · cases h
  | release y =>
      simp only [opStep] at h
      split at h
      · cases h
      · cases h
        exact ⟨List.prefix_refl _, List.prefix_refl _⟩
  | destroy y =>
      simp only [opStep] at h
      split at h
      · cases h
      · rename_i fd hy
        cases h
        refine ⟨?_, (hreset y fd (-1)).1⟩
        show s.adopted <+: (s.reset y fd (-1)).adopted
        rw [(hreset y fd (-1)).2]

theorem erase_adopted {slots : List ℕ} {i : ℕ} (h : fdStep s (.erase slots i) = some t) :
    s.adopted <+: t.adopted := by
  simp only [fdStep] at h
  split_ifs at h
  exact run_inv (fun u => s.adopted <+: u.adopted)
    (fun _ _ _ hu huv => hu.trans (opStep_records huv).1) (List.prefix_refl _) h

/-- **The vector moves**: the new elements hold what the old ones held, and nothing is closed. -/
theorem grow_run {xs ys : List ℕ} (hlen : ys.length = xs.length) (hnodup : (xs ++ ys).Nodup)
    (h : run opStep s (growOps xs ys) = some t) :
    ∃ objs, t = { s with objs := objs } ∧ ys.map objs = xs.map s.objs ∧
      ∀ z ∉ xs ++ ys, objs z = s.objs z := by
  induction xs generalizing s ys with
  | nil =>
      cases List.eq_nil_of_length_eq_zero hlen
      cases h
      exact ⟨t.objs, rfl, rfl, fun z _ => rfl⟩
  | cons x xs ih =>
      cases ys with
      | nil => cases hlen
      | cons y ys =>
          obtain ⟨u, hmove, h⟩ := run_cons_eq_some.mp h
          obtain ⟨v, hdestroy, h⟩ := run_cons_eq_some.mp h
          have hdisjoint : x ∉ xs ++ y :: ys ∧ y ∉ xs ++ ys ∧ (xs ++ ys).Nodup := by
            obtain ⟨hx, hrest⟩ := List.nodup_cons.mp hnodup
            obtain ⟨hy, hrest⟩ := List.nodup_middle.mp hrest |> List.nodup_cons.mp
            exact ⟨hx, hy, hrest⟩
          obtain ⟨hx, hy, hnodup'⟩ := hdisjoint
          have hxy : x ≠ y := fun h => hx (h ▸ List.mem_append_right xs List.mem_cons_self)
          -- the element at its new place, and the old one destroyed
          obtain ⟨fd, hfd, rfl⟩ : ∃ fd, s.objs x = some fd ∧
              u = (s.setFd y fd).setFd x (-1) := by
            simp only [opStep] at hmove
            split at hmove
            · rename_i fd _ hfd
              exact ⟨fd, hfd, (Option.some.inj hmove).symm⟩
            · cases hmove
          have hminus : ((s.setFd y fd).setFd x (-1)).objs x = some (-1) := Function.update_self ..
          rw [opStep_destroy hminus, reset_minus_one hminus] at hdestroy
          cases hdestroy
          have hkeep : ∀ z, z ≠ x → z ≠ y →
              Function.update ((s.setFd y fd).setFd x (-1)).objs x none z = s.objs z := by
            intro z hzx hzy
            simp only [setFd, Function.update_of_ne hzx, Function.update_of_ne hzy]
          obtain ⟨objs, rfl, hmap, hothers⟩ := ih (Nat.succ.inj hlen) hnodup' h
          refine ⟨objs, rfl, ?_, ?_⟩
          · have hobjs_y : objs y = some fd := by
              rw [hothers y hy]
              simp only [setFd, Function.update_of_ne hxy.symm, Function.update_self]
            have hold : xs.map (Function.update ((s.setFd y fd).setFd x (-1)).objs x none) =
                xs.map s.objs := by
              refine List.map_congr_left fun z hz => hkeep z ?_ ?_
              · rintro rfl
                exact hx (List.mem_append_left _ hz)
              · rintro rfl
                exact hy (List.mem_append_left _ hz)
            rw [List.map_cons, List.map_cons, hobjs_y, hfd, hmap, hold]
          · intro z hz
            have hzx : z ≠ x := fun h => hz (by simp [h])
            have hzy : z ≠ y := fun h => hz (by simp [h])
            rw [hothers z fun hmem => hz (by
              rcases List.mem_append.mp hmem with h | h
              · exact List.mem_cons_of_mem _ (List.mem_append_left _ h)
              · exact List.mem_cons_of_mem _ (List.mem_append_right _ (List.mem_cons_of_mem _ h)))]
            exact hkeep z hzx hzy

end Fds

/-! ### The vector and the list -/

namespace FdBroadcaster

open Fds

theorem heldBy_of_has {s : Fds} {x n : ℕ} (h : s.Has x n) : heldBy s x = s.files n := by
  rw [heldBy, h, Option.bind_some, file_natCast]

theorem wire_concat (s : FdBroadcaster) (call : Option ℕ × Bytes) (id : ℕ) :
    wire { s with sends := s.sends ++ [call] } id =
      wire s id ++ if call.1 = some id then call.2 else [] := by
  simp only [wire, List.filter_append, List.flatMap_append]
  congr 1
  by_cases hcall : call.1 = some id
  · simp [hcall]
  · simp [hcall]

theorem wire_eq_nil {s : FdBroadcaster} {id : ℕ} (h : ∀ call ∈ s.sends, call.1 ≠ some id) :
    wire s id = [] := by
  have hnone : s.sends.filter (fun call => call.1 = some id) = [] := by
    rw [List.filter_eq_nil_iff]
    intro call hcall
    simp [h call hcall]
  rw [wire, hnone, List.flatMap_nil]

/-- The elements of the vector hold the open descriptors of the subscribers in the list, in its
order; the descriptor of a subscriber that is not in the list any more was closed. -/
structure Matches (f : FdBroadcaster) (b : Broadcaster) : Prop where
  owned : f.fds.Owned
  pass : b.pass = f.pass
  lines : b.lines = f.lines
  accepted : b.accepted = f.openings.length
  known : ∀ c ∈ b.clients, c < b.accepted
  clients : b.clients.Nodup
  places : f.slots.Nodup
  openings : f.openings.Nodup
  adopted : ∀ id ∈ f.openings, id ∈ f.fds.adopted
  held : ∀ x ∈ f.slots, ∃ n, f.fds.Has x n
  slots : f.slots.map (heldBy f.fds) = b.clients.map fun c => f.openings[c]?
  dropped : ∀ c id, f.openings[c]? = some id → c ∉ b.clients → some id ∈ f.fds.closes
  sends : ∀ call ∈ f.sends, ∃ id ∈ f.openings, call.1 = some id
  taken : ∀ c id, f.openings[c]? = some id → f.wire id = (b.socket c).taken

theorem matches_init : Matches init Broadcaster.init where
  owned := owned_init
  pass := rfl
  lines := rfl
  accepted := rfl
  known := fun _ h => absurd h List.not_mem_nil
  clients := List.nodup_nil
  places := List.nodup_nil
  openings := List.nodup_nil
  adopted := fun _ h => absurd h List.not_mem_nil
  held := fun _ h => absurd h List.not_mem_nil
  slots := rfl
  dropped := fun _ _ h => by cases h
  sends := fun _ h => absurd h List.not_mem_nil
  taken := fun _ _ h => by cases h

variable {f g : FdBroadcaster} {b : Broadcaster}

theorem Matches.length (h : Matches f b) : b.clients.length = f.slots.length := by
  rw [← List.length_map fun c => f.openings[c]?, ← h.slots, List.length_map]

/-- The subscriber of an element, and the opening that both have. -/
theorem Matches.client (h : Matches f b) {i x : ℕ} (hx : f.slots[i]? = some x) :
    ∃ c id, b.clients[i]? = some c ∧ f.openings[c]? = some id ∧ heldBy f.fds x = some id := by
  have hmap : (b.clients.map fun c => f.openings[c]?)[i]? = some (heldBy f.fds x) := by
    rw [← h.slots, List.getElem?_map, hx, Option.map_some]
  rw [List.getElem?_map] at hmap
  obtain ⟨c, hc, hopening⟩ := Option.map_eq_some_iff.mp hmap
  have hlt : c < f.openings.length := by
    rw [← h.accepted]
    exact h.known c (List.mem_of_getElem? hc)
  have hid := List.getElem?_eq_getElem hlt
  exact ⟨c, f.openings[c], hc, hid, hopening.symm.trans hid⟩

/-- The rest of the process leaves the elements alone. -/
theorem Matches.frame (h : Matches f b) {fds : Fds} {pending : Option ℕ} (howned : fds.Owned)
    (hheld : ∀ x ∈ f.slots, ∀ n, f.fds.Has x n → fds.Has x n ∧ fds.files n = f.fds.files n)
    (hadopted : f.fds.adopted ⊆ fds.adopted) (hcloses : f.fds.closes ⊆ fds.closes) :
    Matches { f with fds := fds, pending := pending } b where
  owned := howned
  pass := h.pass
  lines := h.lines
  accepted := h.accepted
  known := h.known
  clients := h.clients
  places := h.places
  openings := h.openings
  adopted id hid := hadopted (h.adopted id hid)
  held x hx := by
    obtain ⟨n, hn⟩ := h.held x hx
    exact ⟨n, (hheld x hx n hn).1⟩
  slots := by
    rw [← h.slots]
    refine List.map_congr_left fun x hx => ?_
    obtain ⟨n, hn⟩ := h.held x hx
    obtain ⟨hhas, hfiles⟩ := hheld x hx n hn
    rw [heldBy_of_has hhas, heldBy_of_has hn, hfiles]
  dropped c id hid hc := hcloses (h.dropped c id hid hc)
  sends := h.sends
  taken := h.taken

theorem Matches.op (h : Matches f b) {o : FdOp} {fds : Fds} {pending : Option ℕ}
    (ho : ∀ x ∈ o.objects, x ∉ f.slots) (hop : opStep f.fds o = some fds) :
    Matches { f with fds := fds, pending := pending } b := by
  obtain ⟨hadopted, hcloses⟩ := opStep_records hop
  refine h.frame (owned_op h.owned hop) ?_ hadopted.subset hcloses.subset
  intro x hx n hn
  exact h.owned.other hn (fun hmem => ho x hmem hx) hop

theorem Matches.grow (h : Matches f b) {ys : List ℕ} {fds : Fds}
    (hlen : ys.length = f.slots.length) (hnodup : (f.slots ++ ys).Nodup)
    (hrun : run opStep f.fds (growOps f.slots ys) = some fds) :
    Matches { f with fds := fds, slots := ys } b := by
  have howned : fds.Owned := run_inv Owned (fun _ _ _ hs hst => owned_op hs hst) h.owned hrun
  obtain ⟨objs, rfl, hmap, -⟩ := grow_run hlen hnodup hrun
  refine { h with
    owned := howned
    places := (List.nodup_append.mp hnodup).2.1
    held := fun y hy => ?_
    slots := ?_ }
  · have hmem : objs y ∈ f.slots.map f.fds.objs := hmap ▸ List.mem_map_of_mem hy
    obtain ⟨x, hx, hobj⟩ := List.mem_map.mp hmem
    obtain ⟨n, hn⟩ := h.held x hx
    exact ⟨n, hobj.symm.trans hn⟩
  · have hcongr : ys.map (heldBy { f.fds with objs := objs }) =
        (ys.map objs).map fun o => o.bind f.fds.file := by
      rw [List.map_map]
      rfl
    rw [hcongr, hmap, List.map_map, ← h.slots]
    rfl

/-- `emplace_back` of a fresh descriptor. -/
theorem Matches.emplace (h : Matches f b) {x n : ℕ} {fds : Fds} (hx : x ∉ f.slots)
    (hop : opStep f.fds (.construct x n) = some fds) :
    Matches { f with
      fds := fds
      slots := f.slots ++ [x]
      openings := f.openings ++ (f.fds.file n).toList
      pending := none } { b with
        clients := b.clients ++ [b.accepted]
        accepted := b.accepted + 1
        socket := Function.update b.socket b.accepted ⟨b.lines.length, [], false⟩ } := by
  have howned := owned_op h.owned hop
  have hothers : ∀ y ∈ f.slots, ∀ m, f.fds.Has y m → fds.Has y m ∧ fds.files m = f.fds.files m := by
    intro y hy m hm
    refine h.owned.other hm ?_ hop
    rintro hmem
    exact hx (List.mem_singleton.mp hmem ▸ hy)
  obtain ⟨hadopted, hcloses⟩ := opStep_records hop
  -- the descriptor is open, and was not given to an object before
  obtain ⟨id, hfile, hfresh, rfl⟩ : ∃ id, f.fds.files n = some id ∧ id ∉ f.fds.adopted ∧
      fds = { f.fds.setFd x n with adopted := f.fds.adopted ++ [id] } := by
    simp only [opStep] at hop
    split at hop
    · split_ifs at hop with hnext
      rcases isFresh_iff.mp hnext with hminus | ⟨m, id, hm, hfile, hnot⟩
      · omega
      · cases Nat.cast_inj.mp hm
        refine ⟨id, hfile, hnot, ?_⟩
        rw [← Option.some.inj hop]
        simp [adopt, file, setFd, hfile]
    · cases hop
  have hlist : (f.fds.file n).toList = [id] := by rw [file_natCast, hfile, Option.toList_some]
  have hnew : id ∉ f.openings := fun hmem => hfresh (h.adopted id hmem)
  have hhas : ({ f.fds.setFd x n with adopted := f.fds.adopted ++ [id] } : Fds).Has x n :=
    Function.update_self ..
  rw [hlist]
  have hold : ∀ c < f.openings.length, (f.openings ++ [id])[c]? = f.openings[c]? :=
    fun c hc => List.getElem?_append_left hc
  refine ⟨howned, h.pass, h.lines, ?_, ?_, ?_, ?_, ?_, ?_, ?_, ?_, ?_, ?_, ?_⟩
  · simp [h.accepted]
  · intro c hc
    rcases List.mem_append.mp hc with hc | hc
    · exact (h.known c hc).trans (Nat.lt_succ_self _)
    · rw [List.mem_singleton.mp hc]
      exact Nat.lt_succ_self _
  · refine List.nodup_append.mpr ⟨h.clients, List.nodup_singleton _, ?_⟩
    rintro c hc c' hc' rfl
    exact lt_irrefl _ (List.mem_singleton.mp hc' ▸ h.known c hc)
  · refine List.nodup_append.mpr ⟨h.places, List.nodup_singleton _, ?_⟩
    rintro y hy y' hy' rfl
    exact hx (List.mem_singleton.mp hy' ▸ hy)
  · refine List.nodup_append.mpr ⟨h.openings, List.nodup_singleton _, ?_⟩
    rintro a ha a' ha' rfl
    exact hnew (List.mem_singleton.mp ha' ▸ ha)
  · intro a ha
    rcases List.mem_append.mp ha with ha | ha
    · exact hadopted.subset (h.adopted a ha)
    · rw [List.mem_singleton.mp ha]
      exact List.mem_append_right _ (List.mem_singleton_self id)
  · intro y hy
    rcases List.mem_append.mp hy with hy | hy
    · obtain ⟨m, hm⟩ := h.held y hy
      exact ⟨m, (hothers y hy m hm).1⟩
    · rw [List.mem_singleton.mp hy]
      exact ⟨n, hhas⟩
  · have hslots : f.slots.map (heldBy { f.fds.setFd x n with adopted := f.fds.adopted ++ [id] }) =
        f.slots.map (heldBy f.fds) := by
      refine List.map_congr_left fun y hy => ?_
      obtain ⟨m, hm⟩ := h.held y hy
      obtain ⟨hhas, hfiles⟩ := hothers y hy m hm
      rw [heldBy_of_has hhas, heldBy_of_has hm, hfiles]
    have hclients : b.clients.map (fun c => (f.openings ++ [id])[c]?) =
        b.clients.map fun c => f.openings[c]? := by
      refine List.map_congr_left fun c hc => hold c ?_
      rw [← h.accepted]
      exact h.known c hc
    have hlast : heldBy { f.fds.setFd x n with adopted := f.fds.adopted ++ [id] } x = some id :=
      (heldBy_of_has hhas).trans hfile
    rw [List.map_append, List.map_append, hslots, hclients, h.slots, List.map_singleton,
      List.map_singleton, hlast, h.accepted, List.getElem?_concat_length]
  · intro c a ha hc
    have hne : c ≠ f.openings.length := by
      rintro rfl
      exact hc (List.mem_append_right _ (by rw [h.accepted]; exact List.mem_singleton_self _))
    have hlt : c < f.openings.length := by
      have := (List.getElem?_eq_some_iff.mp ha).1
      rw [List.length_append, List.length_singleton] at this
      omega
    rw [hold c hlt] at ha
    exact hcloses.subset (h.dropped c a ha fun hmem => hc (List.mem_append_left _ hmem))
  · intro call hcall
    obtain ⟨a, ha, hon⟩ := h.sends call hcall
    exact ⟨a, List.mem_append_left _ ha, hon⟩
  · intro c a ha
    have hlt : c < f.openings.length + 1 := by
      simpa using (List.getElem?_eq_some_iff.mp ha).1
    by_cases hc : c < f.openings.length
    · rw [hold c hc] at ha
      simp only [Function.update_of_ne (show c ≠ b.accepted by rw [h.accepted]; exact hc.ne)]
      exact h.taken c a ha
    · obtain rfl : c = f.openings.length := by omega
      rw [List.getElem?_concat_length] at ha
      cases ha
      have hnone : wire f id = [] := by
        refine wire_eq_nil fun call hcall => ?_
        obtain ⟨a, ha, hon⟩ := h.sends call hcall
        rintro hid
        rw [hon] at hid
        cases hid
        exact hnew ha
      simp only [h.accepted, Function.update_self]
      exact hnone

/-- A call of `send` is recorded. -/
theorem Matches.sent (h : Matches f b) {i x c : ℕ} (hx : f.slots[i]? = some x)
    (hc : b.clients[i]? = some c) (bytes : Bytes) (socket : ℕ → Socket)
    (hself : (socket c).taken = (b.socket c).taken ++ bytes)
    (hother : ∀ c' ≠ c, socket c' = b.socket c') :
    Matches { f with sends := f.sends ++ [(heldBy f.fds x, bytes)] }
      { b with socket := socket } := by
  obtain ⟨c', id, hc', hid, hheld⟩ := h.client hx
  obtain rfl : c' = c := Option.some.inj (hc'.symm.trans hc)
  refine { h with sends := fun call hcall => ?_, taken := fun c a ha => ?_ }
  · rcases List.mem_append.mp hcall with hcall | hcall
    · exact h.sends call hcall
    · rw [List.mem_singleton.mp hcall]
      exact ⟨id, List.mem_of_getElem? hid, hheld⟩
  · have hwire : wire { f with sends := f.sends ++ [(heldBy f.fds x, bytes)] } a =
        wire f a ++ if a = id then bytes else [] := by
      rw [wire_concat, hheld]
      simp only [Option.some.injEq, eq_comm]
    by_cases hcc : c = c'
    · subst hcc
      obtain rfl : a = id := Option.some.inj (ha.symm.trans hid)
      rw [hwire, if_pos rfl, hself, h.taken c a ha]
    · have hne : a ≠ id := by
        rintro rfl
        have hlt := (List.getElem?_eq_some_iff.mp ha).1
        exact hcc ((List.getElem?_inj hlt h.openings).mp (ha.trans hid.symm))
      rw [hwire, if_neg hne, List.append_nil, h.taken c a ha]
      exact congrArg Socket.taken (hother c hcc).symm

/-- What is left of a list without repetition, when one element is erased. -/
theorem mem_eraseIdx_iff {α : Type*} [DecidableEq α] {l : List α} (hl : l.Nodup) {i : ℕ} {a : α}
    (ha : l[i]? = some a) {b : α} : b ∈ l.eraseIdx i ↔ b ≠ a ∧ b ∈ l := by
  obtain ⟨hi, rfl⟩ := List.getElem?_eq_some_iff.mp ha
  rw [← hl.erase_getElem i hi]
  exact hl.mem_erase_iff

/-- **An element is erased**: one descriptor is closed, that of the subscriber that is dropped, and
the others are those of the others. -/
theorem Matches.erase (h : Matches f b) {i x : ℕ} (hx : f.slots[i]? = some x) :
    ∃ fds, fdStep f.fds (.erase f.slots i) = some fds ∧
      Matches { f with fds := fds, slots := f.slots.dropLast }
        { b with clients := b.clients.eraseIdx i } := by
  obtain ⟨c, id, hc, hid, hheld⟩ := h.client hx
  obtain ⟨n, hn⟩ := h.held x (List.mem_of_getElem? hx)
  -- the descriptors of the elements
  let number (y : ℕ) : ℤ := (f.fds.objs y).getD (-1)
  have hnumber : ∀ y ∈ f.slots, f.fds.objs y = some (number y) := by
    intro y hy
    obtain ⟨m, hm⟩ := h.held y hy
    rw [Has] at hm
    simp only [number, hm, Option.getD_some]
  have hslots : f.slots.map f.fds.objs = (f.slots.map number).map some := by
    rw [List.map_map]
    exact List.map_congr_left hnumber
  have hx' : (f.slots.map number)[i]? = some (n : ℤ) := by
    rw [List.getElem?_map, hx, Option.map_some]
    simp only [number, show f.fds.objs x = some (n : ℤ) from hn, Option.getD_some]
  have hdistinct : (f.slots.map number).Nodup := by
    refine List.Nodup.map_on (fun y hy z hz hyz => ?_) h.places
    obtain ⟨m, hm⟩ := h.held y hy
    refine h.owned.alone hm ?_
    rw [Has, hnumber z hz, ← hyz, ← hnumber y hy]
    exact hm
  have hn0 : (0 : ℤ) ≤ n := Int.natCast_nonneg n
  obtain ⟨t, hstep, hcloses, hfiles, hobjs, -⟩ := erase_closes h.places hslots hx'
  rw [if_pos hn0, file_natCast, ← heldBy_of_has hn, hheld] at hcloses
  have hsub := List.eraseIdx_sublist b.clients i
  refine ⟨t, hstep, { h with
    owned := owned_step h.owned hstep
    known := fun c' hc' => h.known c' (hsub.subset hc')
    clients := h.clients.sublist hsub
    places := h.places.sublist (List.dropLast_sublist _)
    adopted := ?_
    held := ?_
    slots := ?_
    dropped := ?_ }⟩
  · intro a ha
    exact (erase_adopted hstep).subset (h.adopted a ha)
  · intro y hy
    have hmem : t.objs y ∈ ((f.slots.map number).eraseIdx i).map some :=
      hobjs ▸ List.mem_map_of_mem hy
    obtain ⟨fd, hfd, hobj⟩ := List.mem_map.mp hmem
    obtain ⟨z, hz, rfl⟩ := List.mem_map.mp (List.mem_of_mem_eraseIdx hfd)
    obtain ⟨m, hm⟩ := h.held z hz
    exact ⟨m, hobj.symm.trans ((hnumber z hz).symm.trans hm)⟩
  · have hleft : ∀ fd ∈ (f.slots.map number).eraseIdx i, t.file fd = f.fds.file fd := by
      intro fd hfd
      rw [hfiles, if_neg]
      rintro ⟨-, rfl⟩
      exact ((mem_eraseIdx_iff hdistinct hx').mp hfd).1 rfl
    have hbefore : f.slots.map (heldBy f.fds) = (f.slots.map number).map f.fds.file := by
      rw [List.map_map]
      refine List.map_congr_left fun y hy => ?_
      rw [heldBy, hnumber y hy, Option.bind_some, Function.comp_apply]
    calc f.slots.dropLast.map (heldBy t)
        = (f.slots.dropLast.map t.objs).map (fun o => o.bind t.file) := by
          rw [List.map_map]
          rfl
      _ = ((f.slots.map number).eraseIdx i).map t.file := by
          rw [hobjs, List.map_map]
          rfl
      _ = ((f.slots.map number).eraseIdx i).map f.fds.file := List.map_congr_left hleft
      _ = (b.clients.eraseIdx i).map fun c => f.openings[c]? := by
          rw [← List.eraseIdx_map, ← hbefore, h.slots, List.eraseIdx_map]
  · intro c' id' hid' hc'
    rw [hcloses]
    by_cases hcc : c' = c
    · subst hcc
      obtain rfl : id' = id := Option.some.inj (hid'.symm.trans hid)
      exact List.mem_append_right _ (List.mem_singleton_self _)
    · refine List.mem_append_left _ (h.dropped c' id' hid' fun hmem => ?_)
      exact hc' ((mem_eraseIdx_iff h.clients hc).mpr ⟨hcc, hmem⟩)

/-- A `send` and what follows it. -/
theorem Matches.onSend (h : Matches f b) {pass : Pass} {x c : ℕ} (hx : f.slots[pass.it]? = some x)
    (hc : b.clients[pass.it]? = some c) (result : SendResult) :
    ∃ g, f.onSend pass x result = some g ∧ Matches g (b.onSend pass c result) := by
  unfold FdBroadcaster.onSend Broadcaster.onSend
  by_cases hkeeps : Reactor.keeps (payload pass.line).length result = true
  · simp only [if_pos hkeeps]
    have hsent := h.sent hx hc (acceptedBytes pass.line result)
      (Function.update b.socket c { b.socket c with
        taken := (b.socket c).taken ++ acceptedBytes pass.line result })
      (by rw [Function.update_self]) fun c' hc' => Function.update_of_ne hc' _ _
    exact ⟨_, rfl, { hsent with pass := rfl }⟩
  · simp only [if_neg hkeeps]
    have hsent := h.sent hx hc (acceptedBytes pass.line result)
      (Function.update b.socket c { b.socket c with
        taken := (b.socket c).taken ++ acceptedBytes pass.line result
        closed := true })
      (by rw [Function.update_self]) fun c' hc' => Function.update_of_ne hc' _ _
    obtain ⟨fds, hstep, herased⟩ := hsent.erase hx
    exact ⟨_, by rw [hstep, Option.map_some], herased⟩

/-- **The list follows the vector**, step by step. -/
theorem matches_step {l : TcpLabel} (h : Matches f b) (hstep : tcpStep f l = some g) :
    ∃ b', Reachable Broadcaster.broadcastStep b b' ∧ Matches g b' := by
  cases l with
  | other o =>
      simp only [tcpStep] at hstep
      split_ifs at hstep with ho
      obtain ⟨fds, hop, rfl⟩ := Option.map_eq_some_iff.mp hstep
      exact ⟨b, .refl b, h.op ho hop⟩
  | accept4 n =>
      simp only [tcpStep] at hstep
      split at hstep
      · obtain ⟨fds, hop, rfl⟩ := Option.map_eq_some_iff.mp hstep
        exact ⟨b, .refl b, h.op (fun x hx => absurd hx List.not_mem_nil) hop⟩
      · cases hstep
  | grow ys =>
      simp only [tcpStep] at hstep
      split_ifs at hstep with hguard
      obtain ⟨-, hlen, hnodup⟩ := hguard
      obtain ⟨fds, hrun, rfl⟩ := Option.map_eq_some_iff.mp hstep
      exact ⟨b, .refl b, h.grow hlen hnodup hrun⟩
  | emplace x =>
      simp only [tcpStep] at hstep
      split at hstep
      · rename_i n hpass hpending
        split_ifs at hstep with hx
        obtain ⟨fds, hop, rfl⟩ := Option.map_eq_some_iff.mp hstep
        have hbpass : b.pass = none := h.pass.trans hpass
        refine ⟨_, (Reachable.refl b).tail (l := .accept) ?_, h.emplace hx hop⟩
        simp only [Broadcaster.broadcastStep, hbpass]
      · cases hstep
  | broadcast line =>
      simp only [tcpStep] at hstep
      split at hstep
      · rename_i hpass
        cases hstep
        have hbpass : b.pass = none := h.pass.trans hpass
        refine ⟨{ b with pass := some ⟨line, 0⟩ },
          (Reachable.refl b).tail (l := .broadcast line) ?_, { h with pass := rfl }⟩
        simp only [Broadcaster.broadcastStep, hbpass]
      · cases hstep
  | send result =>
      obtain ⟨pass, hpass, hstep⟩ := Option.bind_eq_some_iff.mp hstep
      obtain ⟨x, hx, hstep⟩ := Option.bind_eq_some_iff.mp hstep
      split_ifs at hstep with htake
      obtain ⟨c, id, hc, -, -⟩ := h.client hx
      have hbpass : b.pass = some pass := h.pass.trans hpass
      obtain ⟨g', hg', hmatches⟩ := h.onSend hx hc result
      obtain rfl : g' = g := Option.some.inj (hg'.symm.trans hstep)
      refine ⟨_, (Reachable.refl b).tail (l := .send result) ?_, hmatches⟩
      simp only [Broadcaster.broadcastStep, hbpass, Option.bind_some, hc, if_pos htake]
  | finish =>
      obtain ⟨pass, hpass, hstep⟩ := Option.bind_eq_some_iff.mp hstep
      split_ifs at hstep with hend
      cases hstep
      have hbpass : b.pass = some pass := h.pass.trans hpass
      have hbend : b.clients.length ≤ pass.it := h.length ▸ hend
      refine ⟨{ b with lines := b.lines ++ [pass.line], pass := none },
        (Reachable.refl b).tail (l := .finish) ?_, { h with pass := rfl, lines := ?_ }⟩
      · simp only [Broadcaster.broadcastStep, hbpass, Option.bind_some, if_pos hbend]
      · rw [h.lines]

/-- A subscriber that is listed has got whole lines. -/
theorem Matches.whole (h : Matches f b) (hs : Broadcaster.Served b) {x : ℕ} (hx : x ∈ f.slots) :
    ∃ id ys, heldBy f.fds x = some id ∧ ys <+ b.begun ∧ f.wire id = ys.flatMap payload := by
  obtain ⟨i, hi⟩ := List.getElem?_of_mem hx
  obtain ⟨c, id, hc, hid, hheld⟩ := h.client hi
  have hwhole : Whole b.begun (b.socket c) := by
    have hmem := List.mem_of_getElem? hc
    rw [← List.take_append_drop b.it b.clients, List.mem_append] at hmem
    rcases hmem with hmem | hmem
    · exact hs.served c hmem
    · exact (hs.waiting c hmem).mono (List.prefix_append _ _)
  obtain ⟨ys, hys, htaken⟩ := hwhole.taken
  exact ⟨id, ys, hheld, hys.trans (List.drop_sublist _ _), (h.taken c id hid).trans htaken⟩

/-- **The lines reach the subscribers, and nobody else.** Whatever descriptors the rest of the
process opens and closes, under whatever numbers, and whenever the vector moves its elements, the
vector behaves as the list of `Broadcaster`:
* its elements hold the open descriptors of the listed subscribers, in their order, and each of them
  has been sent whole lines, in order;
* `send` is called on openings of subscribers only, and what the opening of a subscriber was sent is
  what its socket has taken; every other file of the process is sent nothing;
* the descriptor of a subscriber that was dropped is closed once, that of one that is listed never;
* an element can always be sent to and, if need be, erased. -/
theorem sends_reach_subscribers (h : Reachable tcpStep init f) :
    ∃ b, Reachable Broadcaster.broadcastStep Broadcaster.init b ∧
      b.pass = f.pass ∧ b.lines = f.lines ∧ b.accepted = f.openings.length ∧ f.openings.Nodup ∧
      f.slots.map (heldBy f.fds) = b.clients.map (fun c => f.openings[c]?) ∧
      (∀ x ∈ f.slots, ∃ id ys, heldBy f.fds x = some id ∧ ys <+ b.begun ∧
        f.wire id = ys.flatMap payload) ∧
      (∀ c id, f.openings[c]? = some id → f.wire id = (b.socket c).taken ∧
        f.fds.closes.count (some id) = if c ∈ b.clients then 0 else 1) ∧
      (∀ call ∈ f.sends, ∃ id ∈ f.openings, call.1 = some id) ∧
      (∀ id ∉ f.openings, f.wire id = []) ∧
      ∀ pass x result, f.pass = some pass → f.slots[pass.it]? = some x →
        canTake pass.line result = true → ∃ g, tcpStep f (.send result) = some g := by
  obtain ⟨b, hb, hm⟩ := h.simulate (fun _ _ _ _ hm hst => matches_step hm hst) matches_init
  have hs : Broadcaster.Served b :=
    hb.inv Broadcaster.Served (fun _ _ _ hs hst => Broadcaster.served_step hs hst)
      Broadcaster.served_init
  refine ⟨b, hb, hm.pass, hm.lines, hm.accepted, hm.openings, hm.slots, fun x hx => hm.whole hs hx,
    fun c id hid => ⟨hm.taken c id hid, ?_⟩, hm.sends, ?_, ?_⟩
  · by_cases hc : c ∈ b.clients
    · rw [if_pos hc]
      refine List.count_eq_zero_of_not_mem ?_
      have hmem : some id ∈ f.slots.map (heldBy f.fds) := by
        rw [hm.slots, ← hid]
        exact List.mem_map_of_mem hc
      obtain ⟨x, hx, hheld⟩ := List.mem_map.mp hmem
      obtain ⟨n, hn⟩ := hm.held x hx
      obtain ⟨id', hfile, -, -, hclosed⟩ := hm.owned.held hn
      rw [heldBy_of_has hn, hfile] at hheld
      cases hheld
      exact hclosed
    · rw [if_neg hc]
      exact List.count_eq_one_of_mem hm.owned.once (hm.dropped c id hid hc)
  · intro id hid
    refine wire_eq_nil fun call hcall hon => ?_
    obtain ⟨id', hid', hon'⟩ := hm.sends call hcall
    rw [hon'] at hon
    cases hon
    exact hid hid'
  · intro pass x result hpass hx htake
    obtain ⟨c, id, hc, -, -⟩ := hm.client hx
    obtain ⟨g, hg, -⟩ := hm.onSend hx hc result
    refine ⟨g, ?_⟩
    simp only [tcpStep, hpass, Option.bind_some, hx, if_pos htake, hg]

/-- Two subscribers; the first takes a part of the line and is dropped, and its number is given to
another file before the next line. -/
def numberReused : List TcpLabel :=
  [.accept4 5, .emplace 0, .accept4 6, .grow [1], .emplace 2, .broadcast [104], .send (.sent 1),
    .send (.sent 2), .finish, .other (.openFile 5), .broadcast [105], .send (.sent 2), .finish]

theorem sends_reach_subscribers_numberReused :
    ∃ f, run tcpStep init numberReused = some f ∧ f.fds.files 5 = some 2 ∧
      f.fds.closes.count (some 0) = 1 ∧ f.wire 2 = [] ∧ f.wire 1 = [104, 10, 105, 10] := by
  obtain ⟨f, hf⟩ : ∃ f, run tcpStep init numberReused = some f := ⟨_, rfl⟩
  have hend : (run tcpStep init numberReused).map
      (fun f => (f.fds.files 5, f.slots.map (heldBy f.fds), f.openings, f.wire 1)) =
        some (some 2, [some 1], [0, 1], [104, 10, 105, 10]) := rfl
  rw [hf, Option.map_some, Option.some.injEq] at hend
  simp only [Prod.mk.injEq] at hend
  obtain ⟨h5, hslots, hopenings, hwire⟩ := hend
  obtain ⟨b, -, -, -, -, -, hheld, -, hclosed, -, hothers, -⟩ := sends_reach_subscribers ⟨_, hf⟩
  have hdropped : 0 ∉ b.clients := by
    intro hmem
    have hopen : some 0 ∈ f.slots.map (heldBy f.fds) := by
      rw [hheld]
      exact List.mem_map.mpr ⟨0, hmem, by rw [hopenings]; rfl⟩
    rw [hslots] at hopen
    cases hopen with
    | tail _ h => cases h
  obtain ⟨-, hcount⟩ := hclosed 0 0 (by rw [hopenings]; rfl)
  rw [if_neg hdropped] at hcount
  exact ⟨f, hf, h5, hcount, hothers 2 (by rw [hopenings]; decide), hwire⟩

end FdBroadcaster

end SensorHub
