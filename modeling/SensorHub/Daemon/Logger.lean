import SensorHub.Trans.Mutex
import SensorHub.Uapi.Text

set_option autoImplicit false

/-!
# The logger

`Logger` of `userspace/src/common/logger.cpp`, called by all threads of the daemon. `std::cerr` is
not buffered: every operand of `<<` is a write of its own, and `mutex_` keeps those of one call
together. A write may be refused, behind some of its bytes; from then on the stream has failed and
writes nothing.

* `LogLevel`, `Logger`, `Logger.insert`, `LogCall`, `loggerSection`: the statements of `set_level`
  and `log`.
* `logLine`, `printedBy`, `levelAfter`, `textAfter`: the lines of a sequence of calls.
* `Wrote`, `Wrote.trans`: a text has been written, or the part of it before the refused write.
* `Stands`, `stands_of_within`: how far a call is; **`log_lines_whole`**: the output consists of
  whole lines, filtered by the level in force, up to the first write that is refused.
-/

namespace SensorHub

open Trans

/-- `enum class LogLevel`. -/
inductive LogLevel
  | debug
  | info
  | warn
  | error
  deriving DecidableEq

/-- `static_cast<int>(level)`. -/
def LogLevel.toNat : LogLevel → ℕ
  | .debug => 0
  | .info => 1
  | .warn => 2
  | .error => 3

/-- `level_name`. -/
def levelName : LogLevel → Bytes
  | .debug => ascii "DEBUG"
  | .info => ascii "INFO"
  | .warn => ascii "WARN"
  | .error => ascii "ERROR"

/-- `level_`, what has been written to `std::cerr`, and whether that has failed. -/
structure Logger where
  level : LogLevel
  err : Bytes
  failed : Bool

/-- `Logger::instance`, at its first call. -/
def Logger.new : Logger := ⟨.info, [], false⟩

/-- `std::cerr << piece`, when `taken` bytes would be accepted. -/
def Logger.insert (s : Logger) (piece : Bytes) (taken : ℕ) : Logger :=
  if s.failed then s
  else if piece.length ≤ taken then { s with err := s.err ++ piece }
  else { s with err := s.err ++ piece.take taken, failed := true }

/-- What a statement gets from outside: the text of `now_string()`, and how many bytes of its
operand `std::cerr` accepts. -/
structure LogAnswer where
  now : Bytes
  taken : ℕ

/-- A call; `tid` is the text of `std::this_thread::get_id()`. -/
inductive LogCall
  | setLevel (level : LogLevel)
  | log (level : LogLevel) (tid message : Bytes)

def logDebug (tid message : Bytes) : LogCall := .log .debug tid message

def logInfo (tid message : Bytes) : LogCall := .log .info tid message

def logWarn (tid message : Bytes) : LogCall := .log .warn tid message

def logError (tid message : Bytes) : LogCall := .log .error tid message

/-- The next statement of a call. -/
inductive LogPlace
  | setLevel (level : LogLevel)
  /-- The comparison with `level_`. -/
  | compare (level : LogLevel) (tid message : Bytes)
  /-- `std::cerr << now_string()`. -/
  | now (level : LogLevel) (tid message : Bytes)
  /-- The operands that have yet to be written. -/
  | operands (rest : List Bytes)

/-- The operands behind the time. -/
def operands (level : LogLevel) (tid message : Bytes) : List Bytes :=
  [ascii " [", levelName level, ascii "]", ascii " [tid=", tid, ascii "] ", message, ascii "\n"]

/-- The statements of `Logger`. -/
def loggerSection : Section Logger LogCall LogPlace LogAnswer where
  enter
    | .setLevel level => .setLevel level
    | .log level tid message => .compare level tid message
  act s
    | .setLevel level, _ => some ({ s with level := level }, none)
    | .compare level tid message, _ =>
        if level.toNat < s.level.toNat then some (s, none)
        else some (s, some (.now level tid message))
    | .now level tid message, e =>
        some (s.insert e.now e.taken, some (.operands (operands level tid message)))
    | .operands [], _ => none
    | .operands [piece], e => some (s.insert piece e.taken, none)
    | .operands (piece :: rest), e => some (s.insert piece e.taken, some (.operands rest))

/-! ### Lines -/

/-- The line of a message. -/
def logLine (level : LogLevel) (tid message now : Bytes) : Bytes :=
  now ++ (operands level tid message).flatten

/-- What a call at the time `now` writes while `level` is in force. -/
def printedBy (level : LogLevel) : LogCall → Bytes → Bytes
  | .setLevel _, _ => []
  | .log l tid message, now => if l.toNat < level.toNat then [] else logLine l tid message now

/-- The level that is in force after a call. -/
def levelAfter (level : LogLevel) : LogCall → LogLevel
  | .setLevel level => level
  | .log _ _ _ => level

/-- The level behind calls, each at its time. -/
def levelAll (level : LogLevel) (calls : List (LogCall × Bytes)) : LogLevel :=
  calls.foldl (fun level c => levelAfter level c.1) level

/-- What the calls write, each its line. -/
def textAfter (level : LogLevel) : List (LogCall × Bytes) → Bytes
  | [] => []
  | c :: calls => printedBy level c.1 c.2 ++ textAfter (levelAfter level c.1) calls

theorem levelAll_snoc (level : LogLevel) (calls : List (LogCall × Bytes)) (k : LogCall)
    (now : Bytes) :
    levelAll level (calls ++ [(k, now)]) = levelAfter (levelAll level calls) k := by
  rw [levelAll, List.foldl_append]
  rfl

theorem textAfter_snoc (level : LogLevel) (calls : List (LogCall × Bytes)) (k : LogCall)
    (now : Bytes) :
    textAfter level (calls ++ [(k, now)]) =
      textAfter level calls ++ printedBy (levelAll level calls) k now := by
  induction calls generalizing level with
  | nil => simp [textAfter, levelAll]
  | cons c calls ih =>
      rw [List.cons_append, textAfter, ih, textAfter, List.append_assoc]
      rfl

/-! ### What has been written -/

/-- From `s` to `t` the text was written: all of it, or the part before the write that was refused,
or nothing of it when the stream had failed before. -/
structure Wrote (s t : Logger) (text : Bytes) : Prop where
  failed : s.failed = true → t.failed = true ∧ t.err = s.err
  fine : s.failed = false → ∃ part, t.err = s.err ++ part ∧ part <+: text ∧
    (t.failed = false ↔ part = text)

variable {s t u : Logger} {text more : Bytes}

theorem Wrote.refl (s : Logger) : Wrote s s [] where
  failed h := ⟨h, rfl⟩
  fine h := ⟨[], by rw [List.append_nil], List.nil_prefix, iff_of_true h rfl⟩

theorem wrote_insert (s : Logger) (piece : Bytes) (taken : ℕ) :
    Wrote s (s.insert piece taken) piece := by
  unfold Logger.insert
  by_cases hfailed : s.failed = true
  · rw [if_pos hfailed]
    refine ⟨fun h => ⟨h, rfl⟩, ?_⟩
    intro hfine
    rw [hfailed] at hfine
    cases hfine
  · rw [if_neg hfailed]
    refine ⟨fun h => absurd h hfailed, ?_⟩
    intro hfine
    by_cases hall : piece.length ≤ taken
    · rw [if_pos hall]
      exact ⟨piece, rfl, List.prefix_refl piece, iff_of_true hfine rfl⟩
    · rw [if_neg hall]
      refine ⟨piece.take taken, rfl, List.take_prefix taken piece, iff_of_false (by simp) ?_⟩
      intro htake
      have hlength := congrArg List.length htake
      rw [List.length_take] at hlength
      omega

/-- **One text after the other.** Behind a refused write nothing follows. -/
theorem Wrote.trans (h : Wrote s t text) (h' : Wrote t u more) : Wrote s u (text ++ more) := by
  refine ⟨?_, ?_⟩
  · intro hs
    obtain ⟨ht, herr⟩ := h.failed hs
    obtain ⟨hu, herr'⟩ := h'.failed ht
    exact ⟨hu, herr'.trans herr⟩
  · intro hs
    obtain ⟨part, hpart, hbegin, hwhole⟩ := h.fine hs
    by_cases ht : t.failed = false
    · obtain ⟨part', hpart', hbegin', hwhole'⟩ := h'.fine ht
      obtain rfl := hwhole.mp ht
      refine ⟨part ++ part', ?_, (List.prefix_append_right_inj part).mpr hbegin', ?_⟩
      · rw [hpart', hpart, List.append_assoc]
      · rw [hwhole', List.append_cancel_left_eq]
    · obtain ⟨hu, herr⟩ := h'.failed (by simpa using ht)
      refine ⟨part, herr.trans hpart, hbegin.trans (List.prefix_append text more), ?_⟩
      refine iff_of_false (by simp [hu]) ?_
      rintro rfl
      have hlength := hbegin.length_le
      rw [List.length_append] at hlength
      have hmore : more = [] := List.length_eq_zero_iff.mp (by omega)
      exact ht (hwhole.mpr (by rw [hmore, List.append_nil]))

theorem insert_level (s : Logger) (piece : Bytes) (taken : ℕ) :
    (s.insert piece taken).level = s.level := by
  unfold Logger.insert
  split_ifs <;> rfl

/-! ### How far a call is -/

/-- A call of `k` that began in `s`: the place it has come to, and what it has written. -/
def Stands (s : Logger) (k : LogCall) (t : Logger) : LogPlace → Prop
  | .setLevel level => k = .setLevel level ∧ t = s
  | .compare level tid message => k = .log level tid message ∧ t = s
  | .now level tid message =>
      k = .log level tid message ∧ ¬ level.toNat < s.level.toNat ∧ t = s
  | .operands rest => ∃ level tid message now written, k = .log level tid message ∧
      ¬ level.toNat < s.level.toNat ∧ written ++ rest = operands level tid message ∧
      t.level = s.level ∧ Wrote s t (now ++ written.flatten)

theorem stands_act {k : LogCall} {p q : LogPlace} {e : LogAnswer} (h : Stands s k t p)
    (hact : loggerSection.act t p e = some (u, some q)) : Stands s k u q := by
  cases p with
  | setLevel level => cases hact
  | compare level tid message =>
      obtain ⟨rfl, rfl⟩ := h
      simp only [loggerSection] at hact
      by_cases hlevel : level.toNat < t.level.toNat
      · rw [if_pos hlevel] at hact
        cases hact
      · rw [if_neg hlevel] at hact
        cases hact
        exact ⟨rfl, hlevel, rfl⟩
  | now level tid message =>
      obtain ⟨rfl, hlevel, rfl⟩ := h
      cases hact
      refine ⟨level, tid, message, e.now, [], rfl, hlevel, rfl, insert_level _ _ _, ?_⟩
      rw [List.flatten_nil, List.append_nil]
      exact wrote_insert _ _ _
  | operands rest =>
      obtain ⟨level, tid, message, now, written, rfl, hlevel, hrest, hsame, hwrote⟩ := h
      match rest, hact with
      | piece :: next :: rest, hact =>
          cases hact
          refine ⟨level, tid, message, now, written ++ [piece], rfl, hlevel, ?_,
            (insert_level _ _ _).trans hsame, ?_⟩
          · rw [← hrest, List.append_assoc, List.singleton_append]
          · have hmore := hwrote.trans (wrote_insert _ piece e.taken)
            rw [List.append_assoc] at hmore
            rwa [List.flatten_append, List.flatten_singleton]

theorem stands_of_within {k : LogCall} {p : LogPlace} (h : Within loggerSection s k t p) :
    Stands s k t p := by
  induction h with
  | enter =>
      cases k with
      | setLevel level => exact ⟨rfl, rfl⟩
      | log level tid message => exact ⟨rfl, rfl⟩
  | act _ hact ih => exact stands_act ih hact

/-- **A whole call** changes the level or writes its line. -/
theorem whole_logger {k : LogCall} (h : Whole loggerSection s k t) :
    ∃ now, t.level = levelAfter s.level k ∧ Wrote s t (printedBy s.level k now) := by
  obtain ⟨u, p, e, hwithin, hact⟩ := h
  have hstands := stands_of_within hwithin
  cases p with
  | setLevel level =>
      obtain ⟨rfl, rfl⟩ := hstands
      cases hact
      exact ⟨[], rfl, ⟨(Wrote.refl _).failed, (Wrote.refl _).fine⟩⟩
  | compare level tid message =>
      obtain ⟨rfl, rfl⟩ := hstands
      simp only [loggerSection] at hact
      by_cases hlevel : level.toNat < u.level.toNat
      · rw [if_pos hlevel] at hact
        cases hact
        refine ⟨[], rfl, ?_⟩
        rw [printedBy, if_pos hlevel]
        exact Wrote.refl _
      · rw [if_neg hlevel] at hact
        cases hact
  | now level tid message => cases hact
  | operands rest =>
      obtain ⟨level, tid, message, now, written, rfl, hlevel, hrest, hsame, hwrote⟩ := hstands
      match rest, hact with
      | [piece], hact =>
          cases hact
          refine ⟨now, (insert_level _ _ _).trans hsame, ?_⟩
          have hmore := hwrote.trans (wrote_insert u piece e.taken)
          have hall : written.flatten ++ piece = (operands level tid message).flatten := by
            rw [← hrest, List.flatten_append, List.flatten_singleton]
          rw [List.append_assoc, hall, ← logLine] at hmore
          rw [printedBy, if_neg hlevel]
          exact hmore

/-- The call that is inside has written a part of its line. -/
theorem part_of_stands {k : LogCall} {p : LogPlace} (h : Stands s k t p) :
    ∃ now part, t.level = s.level ∧ Wrote s t part ∧ part <+: printedBy s.level k now := by
  cases p with
  | setLevel level =>
      obtain ⟨rfl, rfl⟩ := h
      exact ⟨[], [], rfl, .refl t, List.nil_prefix⟩
  | compare level tid message =>
      obtain ⟨rfl, rfl⟩ := h
      exact ⟨[], [], rfl, .refl t, List.nil_prefix⟩
  | now level tid message =>
      obtain ⟨rfl, -, rfl⟩ := h
      exact ⟨[], [], rfl, .refl t, List.nil_prefix⟩
  | operands rest =>
      obtain ⟨level, tid, message, now, written, rfl, hlevel, hrest, hsame, hwrote⟩ := h
      refine ⟨now, now ++ written.flatten, hsame, hwrote, ?_⟩
      rw [printedBy, if_neg hlevel, logLine, ← hrest, List.flatten_append]
      exact ⟨rest.flatten, by simp⟩

/-- **No line is torn, unless a write is refused.** However the threads interleave, the calls that
have returned, one after the other, give a text: each its whole line or, below the level that the
calls before it have set, nothing; a call that is inside adds the beginning of its line. What
`std::cerr` has got is that text if it has not refused a write, and else the beginning of that text
up to the first write it refused. -/
theorem log_lines_whole {ι : Type} [DecidableEq ι] (hfine : s.failed = false)
    {g : Guarded ι Logger LogCall LogPlace}
    (h : Reachable (guardStep loggerSection) (Guarded.init s) g) :
    ∃ (calls : List (LogCall × Bytes)) (part written : Bytes), calls.map Prod.fst = g.left ∧
      g.shared.level = levelAll s.level calls ∧ g.shared.err = s.err ++ written ∧
      written <+: textAfter s.level calls ++ part ∧
      (g.shared.failed = false ↔ written = textAfter s.level calls ++ part) ∧
      (g.owner = none → part = []) ∧
      ∀ i, g.owner = some i → ∃ k p now, g.spot i = .inside k p ∧
        part <+: printedBy (levelAll s.level calls) k now := by
  obtain ⟨-, t, ht⟩ := serial_of_reachable h
  obtain ⟨calls, hcalls, hlevel, hwrote⟩ : ∃ calls : List (LogCall × Bytes),
      calls.map Prod.fst = g.left ∧ t.level = levelAll s.level calls ∧
      Wrote s t (textAfter s.level calls) := by
    refine ht.calls.inv (fun ks t => ∃ calls : List (LogCall × Bytes), calls.map Prod.fst = ks ∧
      t.level = levelAll s.level calls ∧ Wrote s t (textAfter s.level calls)) ?_
      ⟨[], rfl, rfl, .refl s⟩
    rintro ks t k u ⟨calls, rfl, hlevel, hwrote⟩ hwhole
    obtain ⟨now, hnext, hline⟩ := whole_logger hwhole
    refine ⟨calls ++ [(k, now)], by simp, ?_, ?_⟩
    · rw [hnext, hlevel, levelAll_snoc]
    · rw [textAfter_snoc, ← hlevel]
      exact hwrote.trans hline
  cases howner : g.owner with
  | none =>
      rw [ht.free howner]
      obtain ⟨written, herr, hbegin, hwhole⟩ := hwrote.fine hfine
      refine ⟨calls, [], written, hcalls, hlevel, herr, ?_, ?_, fun _ => rfl,
        fun i hi => by cases hi⟩
      · rwa [List.append_nil]
      · rwa [List.append_nil]
  | some i =>
      obtain ⟨k, p, hspot, hwithin⟩ := ht.inside i howner
      obtain ⟨now, part, hsame, hmore, hpart⟩ := part_of_stands (stands_of_within hwithin)
      obtain ⟨written, herr, hbegin, hwhole⟩ := (hwrote.trans hmore).fine hfine
      refine ⟨calls, part, written, hcalls, hsame.trans hlevel, herr, hbegin, hwhole, ?_, ?_⟩
      · intro hnone
        cases hnone
      · intro j hj
        cases hj
        exact ⟨k, p, now, hspot, by rwa [← hlevel]⟩

/-- One thread logs a message while another waits with a warning, whose turn then comes; the third
write of the warning is refused behind two bytes. -/
def twoMessages : List (GuardLabel Bool LogCall LogAnswer) :=
  [.call false (logInfo (ascii "1") (ascii "ready")), .lock false, .act false ⟨[], 0⟩,
    .act false ⟨ascii "12:00", 9⟩, .call true (logWarn (ascii "2") (ascii "late")),
    .act false ⟨[], 9⟩, .act false ⟨[], 9⟩, .act false ⟨[], 9⟩, .act false ⟨[], 9⟩,
    .act false ⟨[], 9⟩, .act false ⟨[], 9⟩, .act false ⟨[], 9⟩, .act false ⟨[], 9⟩, .lock true,
    .act true ⟨[], 0⟩, .act true ⟨ascii "12:00", 9⟩, .act true ⟨[], 9⟩, .act true ⟨[], 2⟩,
    .act true ⟨[], 9⟩]

theorem log_lines_whole_twoMessages : ∃ g, run (guardStep loggerSection)
      (Guarded.init Logger.new) twoMessages = some g ∧
    g.left.length = 1 ∧ g.shared.err = ascii "12:00 [INFO] [tid=1] ready\n12:00 [WA" ∧
    g.shared.failed = true ∧
    ∃ (calls : List (LogCall × Bytes)) (part : Bytes), calls.map Prod.fst = g.left ∧
      g.shared.err <+: textAfter .info calls ++ part := by
  obtain ⟨g, hg⟩ : ∃ g, run (guardStep loggerSection) (Guarded.init Logger.new) twoMessages =
      some g := ⟨_, rfl⟩
  have hr : (run (guardStep loggerSection) (Guarded.init Logger.new) twoMessages).map
      (fun g => (g.left.length, g.shared.err, g.shared.failed)) =
        some (1, ascii "12:00 [INFO] [tid=1] ready\n12:00 [WA", true) := rfl
  rw [hg] at hr
  obtain ⟨hleft, hrest⟩ := Prod.ext_iff.mp (Option.some.inj hr)
  obtain ⟨herr, hfailed⟩ := Prod.ext_iff.mp hrest
  obtain ⟨calls, part, written, hcalls, -, hwritten, hbegin, -⟩ := log_lines_whole rfl ⟨_, hg⟩
  refine ⟨g, hg, hleft, herr, hfailed, calls, part, hcalls, ?_⟩
  rw [hwritten]
  exact hbegin

end SensorHub
