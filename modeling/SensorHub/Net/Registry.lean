import SensorHub.Net.Reactor

set_option autoImplicit false

/-!
# The registries stay in step

`EpollLoop::callbacks_`, the kernel's interest list and `ControlServer::clients_` change in
callbacks while `run_once` goes through events it fetched before, and numbers of closed descriptors
are used again at once. A descriptor that is registered is closed by its own `ready` only, and the
event that `ready` was called for is no longer in the batch; so every event that is still in it
belongs to the file it was raised for.

* `Tables`: the three tables and the descriptors; one lemma for each operation on them.
* `Raised`, `Busy`: the batch, and the connection `ready` works on; `Steady`, `steady_step`.
* **`registries_agree`**.
-/

namespace SensorHub.Reactor

open Trans

variable {W : Type*} {fx : Fixed} {s : Reactor W} {fd : ℕ}

/-- The tables agree: the callback of a descriptor is the one `main` gave it or that of its
connection; a connection owns the descriptor it is filed under. -/
structure Tables (fx : Fixed) (s : Reactor W) : Prop where
  callback : ∀ fd, s.callbacks.lookup fd =
    if fd ∈ s.clients then some (.client fd) else fx.callback fd
  interest : ∀ fd, fd ∈ s.interest ↔ fd ∈ s.callbacks
  main : ∀ fd, (fx.callback fd).isSome = true → ∃ id, s.files.lookup fd = some ⟨id, .main⟩
  client : ∀ fd entry, s.clients.lookup fd = some entry →
    entry.client.fd = fd ∧ s.files.lookup fd = some ⟨entry.conn, .control⟩
  tcp : ∀ fd ∈ s.tcp, ∃ id, s.files.lookup fd = some ⟨id, .tcp⟩
  room : s.clients.keys.card ≤ 64

namespace Tables

theorem frame (hs : Tables fx s) (nextId : ℕ) (batch : List Event) (pc : LoopPc) (host : Host W) :
    Tables fx { s with nextId := nextId, batch := batch, pc := pc, host := host } :=
  ⟨hs.callback, hs.interest, hs.main, hs.client, hs.tcp, hs.room⟩

theorem mem_callbacks (hs : Tables fx s) :
    fd ∈ s.callbacks ↔ fd ∈ s.clients ∨ (fx.callback fd).isSome = true := by
  rw [Table.mem_iff_isSome, hs.callback]
  split_ifs with h <;> simp [h]

/-- A connection is none of the four descriptors. -/
theorem not_main (hs : Tables fx s) (h : fd ∈ s.clients) : fx.callback fd = none := by
  obtain ⟨entry, he⟩ := Finmap.mem_iff.mp h
  by_contra hmain
  obtain ⟨id, hid⟩ := hs.main fd (Option.isSome_iff_ne_none.mpr hmain)
  rw [(hs.client fd entry he).2] at hid
  cases hid

/-- A registered descriptor is open, and held by `main` or by the control server. -/
theorem registered (hs : Tables fx s) (h : fd ∈ s.callbacks) :
    ∃ f, s.files.lookup fd = some f ∧ f.holder ≠ .tcp ∧ f.holder ≠ .other := by
  rcases hs.mem_callbacks.mp h with hc | hm
  · obtain ⟨entry, he⟩ := Finmap.mem_iff.mp hc
    exact ⟨_, (hs.client fd entry he).2, nofun, nofun⟩
  · obtain ⟨id, hid⟩ := hs.main fd hm
    exact ⟨_, hid, nofun, nofun⟩

theorem registered_files (hs : Tables fx s) (h : fd ∈ s.callbacks) : fd ∈ s.files := by
  obtain ⟨f, hf, -⟩ := hs.registered h
  exact Finmap.mem_of_lookup_eq_some hf

theorem not_registered {f : File} (hs : Tables fx s) (hf : s.files.lookup fd = some f)
    (hh : f.holder = .tcp ∨ f.holder = .other) : fd ∉ s.callbacks := by
  intro h
  obtain ⟨g, hg, htcp, hother⟩ := hs.registered h
  rw [hf] at hg
  cases hg
  exact hh.elim htcp hother

theorem openFile (hs : Tables fx s) (hfd : fd ∉ s.files) (holder : Holder) :
    Tables fx (s.openFile fd holder) := by
  have hkeep : ∀ k f, s.files.lookup k = some f →
      (s.openFile fd holder).files.lookup k = some f := by
    intro k f hk
    have hne : k ≠ fd := fun h => hfd (h ▸ Finmap.mem_of_lookup_eq_some hk)
    simp only [Reactor.openFile, Table.lookup_insert_eq, if_neg hne, hk]
  refine ⟨hs.callback, hs.interest, ?_, ?_, ?_, hs.room⟩
  · intro k hk
    obtain ⟨id, hid⟩ := hs.main k hk
    exact ⟨id, hkeep k _ hid⟩
  · intro k entry hk
    exact ⟨(hs.client k entry hk).1, hkeep k _ (hs.client k entry hk).2⟩
  · intro k hk
    obtain ⟨id, hid⟩ := hs.tcp k hk
    exact ⟨id, hkeep k _ hid⟩

/-- A file that nobody waits for is closed. -/
theorem closeFile (hs : Tables fx s) (hcb : fd ∉ s.callbacks) (htcp : fd ∉ s.tcp) :
    Tables fx (s.closeFile fd) := by
  have hkeep : ∀ k f, k ≠ fd → s.files.lookup k = some f →
      (s.closeFile fd).files.lookup k = some f := by
    intro k f hne hk
    simp only [Reactor.closeFile, Table.lookup_erase_eq, if_neg hne, hk]
  have hreg : ∀ k, k ∈ s.callbacks → k ≠ fd := fun k hk h => hcb (h ▸ hk)
  refine ⟨hs.callback, ?_, ?_, ?_, ?_, hs.room⟩
  · intro k
    simp only [Reactor.closeFile, Finmap.mem_erase, hs.interest]
    exact ⟨fun h => h.2, fun h => ⟨hreg k h, h⟩⟩
  · intro k hk
    obtain ⟨id, hid⟩ := hs.main k hk
    exact ⟨id, hkeep k _ (hreg k (hs.mem_callbacks.mpr (Or.inr hk))) hid⟩
  · intro k entry hk
    have hmem := hs.mem_callbacks.mpr (Or.inl (Finmap.mem_of_lookup_eq_some hk))
    exact ⟨(hs.client k entry hk).1, hkeep k _ (hreg k hmem) (hs.client k entry hk).2⟩
  · intro k hk
    obtain ⟨id, hid⟩ := hs.tcp k hk
    exact ⟨id, hkeep k _ (fun h => htcp (h ▸ hk)) hid⟩

theorem setClient (hs : Tables fx s) {entry : Entry} (he : s.clients.lookup fd = some entry)
    {client : Client} (hfd : client.fd = entry.client.fd) :
    Tables fx { s with clients := s.clients.insert fd { entry with client := client } } := by
  have hmem := Finmap.mem_of_lookup_eq_some he
  refine ⟨?_, hs.interest, hs.main, ?_, hs.tcp, ?_⟩
  · intro k
    have hiff : k ∈ s.clients.insert fd { entry with client := client } ↔ k ∈ s.clients := by
      rw [Finmap.mem_insert]
      exact ⟨fun h => h.elim (fun h => h ▸ hmem) id, Or.inr⟩
    simp only [hiff]
    exact hs.callback k
  · intro k entry' hk
    simp only [Table.lookup_insert_eq] at hk
    split_ifs at hk with hkfd
    · cases hk
      rw [hkfd]
      exact ⟨hfd.trans (hs.client fd entry he).1, (hs.client fd entry he).2⟩
    · exact hs.client k entry' hk
  · rw [Table.card_insert_of_mem hmem]
    exact hs.room

theorem setInterest (hs : Tables fx s) (hfd : fd ∈ s.interest) (events : UInt32) :
    Tables fx { s with interest := s.interest.insert fd events } := by
  refine ⟨hs.callback, ?_, hs.main, hs.client, hs.tcp, hs.room⟩
  intro k
  rw [Finmap.mem_insert, ← hs.interest k]
  exact ⟨fun h => h.elim (fun h => h ▸ hfd) id, Or.inr⟩

end Tables

theorem eraseClient_eq {entry : Entry} (he : s.clients.lookup fd = some entry) :
    s.eraseClient fd = { s with clients := s.clients.erase fd }.closeFile entry.client.fd := by
  rw [eraseClient, he]

theorem closeClient_eq (hs : Tables fx s) (hfd : fd ∈ s.clients) :
    s.closeClient fd = { s with
      files := s.files.erase fd
      interest := (s.interest.erase fd).erase fd
      callbacks := s.callbacks.erase fd
      clients := s.clients.erase fd } := by
  obtain ⟨entry, he⟩ := Finmap.mem_iff.mp hfd
  rw [closeClient, eraseClient_eq (s := s.remove fd) he, (hs.client fd entry he).1]
  rfl

theorem Tables.closeClient (hs : Tables fx s) (hfd : fd ∈ s.clients) :
    Tables fx (s.closeClient fd) := by
  rw [closeClient_eq hs hfd]
  refine ⟨?_, ?_, ?_, ?_, ?_, ?_⟩
  · intro k
    simp only [Table.lookup_erase_eq, Finmap.mem_erase, hs.callback k]
    by_cases hne : k = fd
    · rw [if_pos hne, if_neg (fun h => h.1 hne), hne, hs.not_main hfd]
    · simp [hne]
  · intro k
    simp only [Finmap.mem_erase, hs.interest]
    exact ⟨fun h => h.2, fun h => ⟨h.1, h⟩⟩
  · intro k hk
    obtain ⟨id, hid⟩ := hs.main k hk
    have hne : k ≠ fd := by
      rintro rfl
      rw [hs.not_main hfd] at hk
      cases hk
    exact ⟨id, by rw [Table.lookup_erase_eq, if_neg hne]; exact hid⟩
  · intro k entry hk
    simp only [Table.lookup_erase_eq] at hk ⊢
    split_ifs at hk ⊢ with hne
    exact hs.client k entry hk
  · intro k hk
    obtain ⟨id, hid⟩ := hs.tcp k hk
    have hne : k ≠ fd := by
      rintro rfl
      obtain ⟨entry, he⟩ := Finmap.mem_iff.mp hfd
      rw [(hs.client k entry he).2] at hid
      cases hid
    exact ⟨id, by rw [Table.lookup_erase_eq, if_neg hne]; exact hid⟩
  · exact (Table.card_erase_le s.clients fd).trans hs.room

/-- A connection is turned away, registered, or dropped because it could not be registered. -/
theorem addClient_cases (hfd : fd ∉ s.clients) (conn : ℕ) (added : Bool) :
    (64 ≤ s.clients.keys.card ∧ s.addClient fd conn added = s.closeFile fd) ∨
    (s.clients.keys.card < 64 ∧ (added = true ∧ fd ∉ s.interest) ∧
      s.addClient fd conn added = { s with
        clients := s.clients.insert fd ⟨Client.new fd, conn⟩
        interest := s.interest.insert fd (epollIn ||| epollRdHup)
        callbacks := s.callbacks.insert fd (.client fd) }) ∨
    (¬ (added = true ∧ fd ∉ s.interest) ∧
      s.addClient fd conn added = { s.closeFile fd with pc := .thrown }) := by
  unfold addClient
  by_cases hfull : 64 ≤ s.clients.keys.card
  · exact Or.inl ⟨hfull, if_pos hfull⟩
  · rw [if_neg hfull]
    by_cases hadd : added = true ∧ fd ∉ s.interest
    · exact Or.inr (Or.inl ⟨by omega, hadd, if_pos hadd⟩)
    · refine Or.inr (Or.inr ⟨hadd, ?_⟩)
      simp only [if_neg hadd]
      rw [eraseClient_eq (Finmap.lookup_insert s.clients)]
      simp only [Table.erase_insert_of_notMem hfd, Client.new]

theorem Tables.addClient (hs : Tables fx s) (hfd : fd ∉ s.files) (added : Bool) :
    Tables fx ((s.openFile fd .control).addClient fd s.nextId added) := by
  have hcb : fd ∉ s.callbacks := fun h => hfd (hs.registered_files h)
  have hcl : fd ∉ s.clients := fun h => hcb (hs.mem_callbacks.mpr (Or.inl h))
  have htcp : fd ∉ s.tcp := by
    intro h
    obtain ⟨id, hid⟩ := hs.tcp fd h
    exact hfd (Finmap.mem_of_lookup_eq_some hid)
  have ho := hs.openFile hfd .control
  rcases addClient_cases (s := s.openFile fd .control) hcl s.nextId added with
    ⟨-, h⟩ | ⟨hroom, -, h⟩ | ⟨-, h⟩
  · rw [h]
    exact ho.closeFile hcb htcp
  · rw [h]
    refine ⟨?_, ?_, ho.main, ?_, ho.tcp, ?_⟩
    · intro k
      simp only [Table.lookup_insert_eq, Finmap.mem_insert]
      by_cases hne : k = fd
      · simp [hne]
      · simpa [hne] using ho.callback k
    · intro k
      simp only [Finmap.mem_insert, ho.interest]
    · intro k entry hk
      simp only [Table.lookup_insert_eq] at hk
      split_ifs at hk with hne
      · cases hk
        subst hne
        exact ⟨rfl, by simp only [Reactor.openFile, Table.lookup_insert_eq, if_true]⟩
      · exact ho.client k entry hk
    · have hcard := Table.card_insert_le (s.openFile fd .control).clients fd
        ⟨Client.new fd, s.nextId⟩
      exact hcard.trans hroom
  · rw [h]
    exact (ho.closeFile hcb htcp).frame _ _ _ _

/-! ### The batch -/

/-- The connection whose `ready` is running. -/
def busy : LoopPc → Option ℕ
  | .recv fd _ => some fd
  | .send fd _ => some fd
  | _ => none

/-- The events still to be dispatched: of different descriptors, each registered, and still that of
the file the event was raised for. -/
structure Raised (s : Reactor W) : Prop where
  nodup : (s.batch.map Event.fd).Nodup
  registered : ∀ e ∈ s.batch, e.fd ∈ s.callbacks
  same : ∀ e ∈ s.batch, (s.files.lookup e.fd).map File.id = some e.conn

theorem Raised.congr {t : Reactor W} (hs : Raised s) (hb : t.batch = s.batch)
    (hc : t.callbacks = s.callbacks) (hf : t.files = s.files) : Raised t := by
  refine ⟨?_, ?_, ?_⟩ <;> rw [hb]
  · exact hs.nodup
  · rw [hc]
    exact hs.registered
  · rw [hf]
    exact hs.same

/-- Nothing but `fd` was closed, opened or taken out of the loop between `s` and `t`. -/
structure Touches (fd : ℕ) (s t : Reactor W) : Prop where
  batch : t.batch = s.batch
  files : ∀ k, k ≠ fd → t.files.lookup k = s.files.lookup k
  callbacks : ∀ k, k ≠ fd → k ∈ s.callbacks → k ∈ t.callbacks

theorem Touches.trans {r t : Reactor W} (h : Touches fd r s) (h' : Touches fd s t) :
    Touches fd r t where
  batch := h'.batch.trans h.batch
  files k hk := (h'.files k hk).trans (h.files k hk)
  callbacks k hk hr := h'.callbacks k hk (h.callbacks k hk hr)

theorem touches_openFile (s : Reactor W) (fd : ℕ) (holder : Holder) :
    Touches fd s (s.openFile fd holder) where
  batch := rfl
  files k hk := by simp only [openFile, Table.lookup_insert_eq, if_neg hk]
  callbacks _ _ h := h

theorem touches_closeFile (s : Reactor W) (fd : ℕ) : Touches fd s (s.closeFile fd) where
  batch := rfl
  files k hk := by simp only [closeFile, Table.lookup_erase_eq, if_neg hk]
  callbacks _ _ h := h

theorem touches_closeClient (hs : Tables fx s) (hfd : fd ∈ s.clients) :
    Touches fd s (s.closeClient fd) := by
  rw [closeClient_eq hs hfd]
  exact ⟨rfl, fun k hk => by simp only [Table.lookup_erase_eq, if_neg hk],
    fun k hk h => Finmap.mem_erase.mpr ⟨hk, h⟩⟩

theorem touches_addClient (hfd : fd ∉ s.clients) (conn : ℕ) (added : Bool) :
    Touches fd s (s.addClient fd conn added) := by
  rcases addClient_cases hfd conn added with ⟨-, h⟩ | ⟨-, -, h⟩ | ⟨-, h⟩
  · rw [h]
    exact touches_closeFile s fd
  · rw [h]
    exact ⟨rfl, fun _ _ => rfl, fun _ _ hk => Finmap.mem_insert.mpr (Or.inr hk)⟩
  · rw [h]
    exact ⟨rfl, (touches_closeFile s fd).files, fun _ _ hk => hk⟩

/-- What happens to other descriptors does not matter to the batch. -/
theorem Raised.touch {t : Reactor W} (hs : Raised s) (h : Touches fd s t)
    (hfd : fd ∉ s.batch.map Event.fd) : Raised t := by
  have hne : ∀ e ∈ s.batch, e.fd ≠ fd := by
    rintro e he rfl
    exact hfd (List.mem_map_of_mem he)
  refine ⟨?_, ?_, ?_⟩
  · rw [h.batch]
    exact hs.nodup
  · rw [h.batch]
    exact fun e he => h.callbacks _ (hne e he) (hs.registered e he)
  · rw [h.batch]
    intro e he
    rw [h.files _ (hne e he)]
    exact hs.same e he

theorem Raised.not_mem (hs : Raised s) (hfd : fd ∉ s.callbacks) : fd ∉ s.batch.map Event.fd := by
  intro h
  obtain ⟨e, he, rfl⟩ := List.mem_map.mp h
  exact hfd (hs.registered e he)

/-- The invariant of the loop. -/
structure Steady (fx : Fixed) (s : Reactor W) : Prop where
  tables : Tables fx s
  raised : Raised s
  busy : ∀ fd, busy s.pc = some fd → fd ∈ s.clients ∧ fd ∉ s.batch.map Event.fd

/-- The main thread is not in `ready`. -/
theorem Steady.of_free (ht : Tables fx s) (hr : Raised s) (hpc : Reactor.busy s.pc = none) :
    Steady fx s :=
  ⟨ht, hr, fun fd hfd => by rw [hpc] at hfd; cases hfd⟩

/-- A file that is not registered was opened or closed. -/
theorem Steady.touch {t : Reactor W} (hs : Steady fx s) (ht : Tables fx t) (h : Touches fd s t)
    (hfd : fd ∉ s.callbacks) (hcl : t.clients = s.clients) (hpc : t.pc = s.pc) : Steady fx t := by
  refine ⟨ht, hs.raised.touch h (hs.raised.not_mem hfd), ?_⟩
  intro k hk
  rw [hcl, h.batch]
  rw [hpc] at hk
  exact hs.busy k hk

theorem steady_act (ht : Tables fx s) (hr : Raised s) (hfd : fd ∈ s.clients)
    (hb : fd ∉ s.batch.map Event.fd) (events : UInt32) (action : Action) :
    Steady fx (s.act fd events action) := by
  have hbusy : ∀ k, some fd = some k → k ∈ s.clients ∧ k ∉ s.batch.map Event.fd := by
    rintro k ⟨⟩
    exact ⟨hfd, hb⟩
  cases action with
  | recv => exact ⟨ht.frame _ _ _ _, hr.congr rfl rfl rfl, hbusy⟩
  | send => exact ⟨ht.frame _ _ _ _, hr.congr rfl rfl rfl, hbusy⟩
  | wait => exact .of_free (ht.frame _ _ _ _) (hr.congr rfl rfl rfl) rfl
  | wantWrite =>
      have hin : fd ∈ s.interest := (ht.interest fd).mpr (ht.mem_callbacks.mpr (Or.inl hfd))
      rw [act, modify, if_pos hin]
      exact .of_free ((ht.setInterest hin epollOut).frame _ _ _ _) (hr.congr rfl rfl rfl) rfl
  | close =>
      exact .of_free ((ht.closeClient hfd).frame _ _ _ _)
        ((hr.touch (touches_closeClient ht hfd) hb).congr rfl rfl rfl) rfl
  | throw => exact .of_free (ht.frame _ _ _ _) (hr.congr rfl rfl rfl) rfl

/-! ### The steps -/

/-- What `run_once` finds for an event: a callback of `main`, or that of a connection. -/
theorem Tables.callback_cases (hs : Tables fx s) (hfd : fd ∈ s.callbacks) :
    (∃ cb, s.callbacks.lookup fd = some cb ∧ fx.callback fd = some cb ∧ fd ∉ s.clients) ∨
    (s.callbacks.lookup fd = some (.client fd) ∧ fd ∈ s.clients) := by
  have hcb := hs.callback fd
  by_cases hcl : fd ∈ s.clients
  · rw [if_pos hcl] at hcb
    exact Or.inr ⟨hcb, hcl⟩
  · rw [if_neg hcl] at hcb
    obtain ⟨cb, hmem⟩ := Finmap.mem_iff.mp hfd
    exact Or.inl ⟨cb, hmem, hcb.symm.trans hmem, hcl⟩

theorem Fixed.callback_ne_client (fx : Fixed) (fd key : ℕ) :
    fx.callback fd ≠ some (.client key) := by
  unfold Fixed.callback
  split_ifs <;> nofun

theorem steady_dispatch (ht : Tables fx s) (hr : Raised s) {e : Event} (he : e.fd ∈ s.callbacks)
    (hb : e.fd ∉ s.batch.map Event.fd) (hpc : s.pc = .dispatch) : Steady fx (s.dispatch e) := by
  have hfree : ∀ pc host, Reactor.busy pc = none → Steady fx { s with pc := pc, host := host } :=
    fun pc host h => .of_free (ht.frame _ _ _ _) (hr.congr rfl rfl rfl) h
  rcases ht.callback_cases he with ⟨cb, hcb, hfx, -⟩ | ⟨hcb, hcl⟩
  · cases cb with
    | source => simp only [dispatch, hcb]; exact hfree _ _ rfl
    | signal =>
        simp only [dispatch, hcb]
        exact hfree _ _ (by rw [hpc]; rfl)
    | control => simp only [dispatch, hcb]; exact hfree _ _ rfl
    | tcp => simp only [dispatch, hcb]; exact hfree _ _ rfl
    | client key => exact absurd hfx (Fixed.callback_ne_client fx e.fd key)
  · obtain ⟨entry, hentry⟩ := Finmap.mem_iff.mp hcl
    simp only [dispatch, hcb, hentry]
    exact steady_act ht hr hcl hb _ _

theorem steady_acceptReady {t : Reactor W} (hs : Steady fx s) (hpc : s.pc = .accept)
    {result : AcceptResult} (h : s.acceptReady result = some t) : Steady fx t := by
  cases result with
  | conn fd added =>
      simp only [acceptReady] at h
      split_ifs at h with hfd
      cases h
      have hcb : fd ∉ s.callbacks := fun h => hfd (hs.tables.registered_files h)
      have hcl : fd ∉ s.clients := fun h => hcb (hs.tables.mem_callbacks.mpr (Or.inl h))
      have htouch : Touches fd s ((s.openFile fd .control).addClient fd s.nextId added) :=
        (touches_openFile s fd .control).trans
          (touches_addClient (s := s.openFile fd .control) hcl _ _)
      refine .of_free (hs.tables.addClient hfd added)
        (hs.raised.touch htouch (hs.raised.not_mem hcb)) ?_
      rcases addClient_cases (s := s.openFile fd .control) hcl s.nextId added with
        ⟨-, h⟩ | ⟨-, -, h⟩ | ⟨-, h⟩ <;> rw [h]
      · exact congrArg Reactor.busy hpc
      · exact congrArg Reactor.busy hpc
      · rfl
  | err e =>
      have hfree : ∀ pc, Reactor.busy pc = none → Steady fx { s with pc := pc } :=
        fun pc h => .of_free (hs.tables.frame _ _ _ _) (hs.raised.congr rfl rfl rfl) h
      unfold acceptReady at h
      split at h
      · rename_i heq; cases heq
      · cases h; exact hs
      · cases h; exact hfree _ rfl
      · cases h; exact hfree _ rfl

theorem steady_tcpAcceptReady {t : Reactor W} (hs : Steady fx s) {result : Except Errno ℕ}
    (h : s.tcpAcceptReady result = some t) : Steady fx t := by
  have hfree : ∀ pc, Reactor.busy pc = none → Steady fx { s with pc := pc } :=
    fun pc h => .of_free (hs.tables.frame _ _ _ _) (hs.raised.congr rfl rfl rfl) h
  unfold tcpAcceptReady at h
  split at h
  · rename_i fd
    split_ifs at h with hfd
    cases h
    have hcb : fd ∉ s.callbacks := fun h => hfd (hs.tables.registered_files h)
    have ho := hs.tables.openFile hfd .tcp
    have ht : Tables fx { s.openFile fd .tcp with tcp := s.tcp ++ [fd] } := by
      refine ⟨ho.callback, ho.interest, ho.main, ho.client, ?_, ho.room⟩
      intro k hk
      rcases List.mem_append.mp hk with hk | hk
      · exact ho.tcp k hk
      · rw [List.mem_singleton.mp hk]
        exact ⟨s.nextId, by simp only [openFile, Table.lookup_insert_eq, if_true]⟩
    have htouch := touches_openFile s fd .tcp
    exact hs.touch ht ⟨htouch.batch, htouch.files, htouch.callbacks⟩ hcb rfl rfl
  · cases h; exact hfree _ rfl
  · cases h; exact hfree _ rfl

theorem steady_broadcast (hs : Steady fx s) (hfd : fd ∈ s.tcp) :
    Steady fx ({ s with tcp := s.tcp.filter (· ≠ fd) }.closeFile fd) := by
  obtain ⟨id, hid⟩ := hs.tables.tcp fd hfd
  have hcb := hs.tables.not_registered hid (Or.inl rfl)
  have hsub : Tables fx { s with tcp := s.tcp.filter (· ≠ fd) } :=
    ⟨hs.tables.callback, hs.tables.interest, hs.tables.main, hs.tables.client,
      fun k hk => hs.tables.tcp k (List.mem_of_mem_filter hk), hs.tables.room⟩
  have htouch := touches_closeFile { s with tcp := s.tcp.filter (· ≠ fd) } fd
  refine hs.touch (hsub.closeFile hcb ?_) ⟨htouch.batch, htouch.files, htouch.callbacks⟩ hcb rfl rfl
  simp [List.mem_filter]

/-- **Every step keeps the registries in step.** -/
theorem steady_step {handler : Handler (Host W)} {t : Reactor W} {l : LoopLabel}
    (hs : Steady fx s) (h : loopStep handler s l = some t) : Steady fx t := by
  have hfree : ∀ pc, Reactor.busy pc = none → Steady fx { s with pc := pc } :=
    fun pc h => .of_free (hs.tables.frame _ _ _ _) (hs.raised.congr rfl rfl rfl) h
  cases step_of_loopStep h with
  | epollWait hpc hrun hcan =>
      obtain ⟨-, hnodup, hall⟩ := hcan
      exact .of_free (hs.tables.frame _ _ _ _) ⟨hnodup,
        fun e he => (hs.tables.interest e.fd).mp (hall e he).1, fun e he => (hall e he).2⟩ rfl
  | interrupted hpc => exact hs
  | epollFail hpc he => exact hfree _ rfl
  | leave hpc hrun => exact hfree _ rfl
  | done hpc hbatch => exact hfree _ rfl
  | dispatch hpc hbatch =>
      obtain ⟨hnodup, hreg, hsame⟩ := hs.raised
      simp only [hbatch, List.map_cons, List.nodup_cons, List.mem_cons, forall_eq_or_imp]
        at hnodup hreg hsame
      exact steady_dispatch (hs.tables.frame _ _ _ _) ⟨hnodup.2, hreg.2, hsame.2⟩ hreg.1 hnodup.1
        hpc
  | sourceRead hpc => exact hfree _ rfl
  | sourceFail hpc => exact hfree _ rfl
  | accept hpc h => exact steady_acceptReady hs hpc h
  | tcpAccept hpc h => exact steady_tcpAcceptReady hs h
  | @recv fd events entry result action host client hpc he hr =>
      have hfd := onRecv_fd handler events s.host entry.client result
      rw [hr] at hfd
      exact steady_act ((hs.tables.setClient he hfd).frame _ _ _ _) (hs.raised.congr rfl rfl rfl)
        (Finmap.mem_insert.mpr (Or.inl rfl)) (hs.busy fd (by rw [hpc]; rfl)).2 _ _
  | @send fd events entry result action client hpc he htakes hr =>
      have hfd := onSend_fd events entry.client result
      rw [hr] at hfd
      exact steady_act (hs.tables.setClient he hfd) (hs.raised.congr rfl rfl rfl)
        (Finmap.mem_insert.mpr (Or.inl rfl)) (hs.busy fd (by rw [hpc]; rfl)).2 _ _
  | kept hfd hk => exact hs
  | dropped hfd hk => exact steady_broadcast hs hfd
  | openOther hfd =>
      have hcb := fun h => hfd (hs.tables.registered_files h)
      exact hs.touch (hs.tables.openFile hfd .other) (touches_openFile s _ .other) hcb rfl rfl
  | @closeOther fd f hf hh =>
      have hcb := hs.tables.not_registered hf (Or.inr hh)
      have htcp : fd ∉ s.tcp := by
        intro hmem
        obtain ⟨id, hid⟩ := hs.tables.tcp fd hmem
        rw [hf] at hid
        cases hid
        cases hh
      exact hs.touch (hs.tables.closeFile hcb htcp) (touches_closeFile s fd) hcb rfl rfl

theorem Fixed.isSome_callback (fx : Fixed) (fd : ℕ) :
    (fx.callback fd).isSome = true ↔ fd ∈ fx.fds := by
  unfold Fixed.callback Fixed.fds
  split_ifs with h₁ h₂ h₃ h₄ <;> simp [*]

theorem steady_init (fx : Fixed) (host : Host W) : Steady fx (init fx host) := by
  refine .of_free ⟨fun fd => ?_, fun fd => ?_, fun fd hfd => ?_, nofun, nofun, ?_⟩
    ⟨List.nodup_nil, nofun, nofun⟩ rfl
  · have hempty : fd ∉ (init fx host).clients := Finmap.notMem_empty
    rw [if_neg hempty]
    simp only [init, Table.lookup_insert_eq, Finmap.lookup_empty, Fixed.callback]
  · simp only [init, Finmap.mem_insert]
    exact ⟨id, id⟩
  · simp only [init, Table.lookup_insert_eq]
    rw [Fixed.isSome_callback, Fixed.fds] at hfd
    simp only [Finset.mem_insert, Finset.mem_singleton] at hfd
    split_ifs with h₁ h₂ h₃ h₄
    · exact ⟨_, rfl⟩
    · exact ⟨_, rfl⟩
    · exact ⟨_, rfl⟩
    · exact ⟨_, rfl⟩
    · tauto
  · exact Nat.zero_le _

theorem steady_of_reachable {handler : Handler (Host W)} {host : Host W}
    (h : Reachable (loopStep handler) (init fx host) s) : Steady fx s :=
  h.inv (Steady fx) (fun _ _ _ hs hst => steady_step hs hst) (steady_init fx host)

/-- **The registries stay in step.** In every reachable state the callbacks, the interest list and
the connections together with the four descriptors of `main` have the same keys; there are at most
64 connections, each under the descriptor it owns. Each event still to be dispatched belongs to the
file that has its number now, and the callback found for it is the one `main` gave that descriptor,
or that of the very connection the event was raised for. -/
theorem registries_agree {handler : Handler (Host W)} {host : Host W}
    (h : Reachable (loopStep handler) (init fx host) s) :
    s.callbacks.keys = s.interest.keys ∧
    s.callbacks.keys = s.clients.keys ∪ fx.fds ∧ Disjoint s.clients.keys fx.fds ∧
    s.clients.keys.card ≤ 64 ∧
    (∀ key entry, s.clients.lookup key = some entry → entry.client.fd = key) ∧
    (∀ e ∈ s.batch, (s.files.lookup e.fd).map File.id = some e.conn ∧
      ((e.fd ∈ fx.fds ∧ s.callbacks.lookup e.fd = fx.callback e.fd) ∨
        (s.callbacks.lookup e.fd = some (.client e.fd) ∧
          ∃ entry, s.clients.lookup e.fd = some entry ∧ entry.conn = e.conn))) ∧
    (∀ fd events, s.pc = .recv fd events ∨ s.pc = .send fd events → fd ∈ s.clients) := by
  have hs := steady_of_reachable h
  have ht := hs.tables
  refine ⟨?_, ?_, ?_, ht.room, fun key entry hk => (ht.client key entry hk).1, ?_, ?_⟩
  · ext fd
    rw [Finmap.mem_keys, Finmap.mem_keys, ht.interest]
  · ext fd
    rw [Finmap.mem_keys, Finset.mem_union, Finmap.mem_keys, ht.mem_callbacks,
      Fixed.isSome_callback]
  · rw [Finset.disjoint_left]
    intro fd hfd hmain
    rw [Finmap.mem_keys] at hfd
    rw [← Fixed.isSome_callback, ht.not_main hfd] at hmain
    cases hmain
  · intro e he
    have hsame := hs.raised.same e he
    refine ⟨hsame, ?_⟩
    rcases ht.callback_cases (hs.raised.registered e he) with ⟨cb, hcb, hfx, -⟩ | ⟨hcb, hcl⟩
    · refine Or.inl ⟨?_, hcb.trans hfx.symm⟩
      rw [← Fixed.isSome_callback, hfx]
      rfl
    · obtain ⟨entry, hentry⟩ := Finmap.mem_iff.mp hcl
      rw [(ht.client e.fd entry hentry).2] at hsame
      exact Or.inr ⟨hcb, entry, hentry, Option.some.inj hsame⟩
  · intro fd events hpc
    rcases hpc with hpc | hpc
    · exact (hs.busy fd (by rw [hpc]; rfl)).1
    · exact (hs.busy fd (by rw [hpc]; rfl)).1

/-- The descriptors of a daemon that opened nothing before. -/
def firstFds : Fixed := ⟨3, 4, 5, 6, by decide⟩

/-- A control connection is accepted; in the next batch it ends, and its number is given to a new
connection before the batch is over. -/
def reused : List LoopLabel :=
  [.epollWait [⟨5, epollIn, 2⟩], .next, .accept (.conn 7 true), .accept (.err .EAGAIN), .next,
    .epollWait [⟨7, epollIn, 4⟩, ⟨5, epollIn, 2⟩], .next, .recv .eof, .next, .accept (.conn 7 true)]

theorem registries_agree_reused : ∃ s,
    run (loopStep fun host _ => (host, .exception)) (init firstFds ⟨true, (), []⟩) reused = some s ∧
    s.interest.keys = {3, 4, 5, 6, 7} ∧ s.callbacks.keys = {3, 4, 5, 6, 7} := by
  obtain ⟨s, hs⟩ : ∃ s, run (loopStep fun host _ => (host, .exception))
      (init firstFds ⟨true, (), []⟩) reused = some s := ⟨_, rfl⟩
  have hi : (run (loopStep fun host _ => (host, .exception)) (init firstFds ⟨true, (), []⟩)
      reused).map (fun s => s.interest.keys) = some {3, 4, 5, 6, 7} := by decide
  rw [hs] at hi
  have hi' : s.interest.keys = {3, 4, 5, 6, 7} := Option.some.inj hi
  exact ⟨s, hs, hi', (registries_agree ⟨_, hs⟩).1.trans hi'⟩

end SensorHub.Reactor
