import SensorHub.Storage.ReadBack
import SensorHub.Trans.Mutex

set_option autoImplicit false

/-!
# The writers of the log

The workers of `main` share one `LogWriter`, behind `writer_mutex`. Here `write_sample` runs
statement by statement, with its two helpers, and the threads interleave between the statements; any
call to the operating system may fail. A call that throws leaves as well: `lock` gives the mutex
back.

* `WritePlace`, `writeSection`: the statements of `write_sample`.
* `ends_count`, `ends_flush`, `ends_line`, `ends_close`, `ends_full`, `ends_openAppend`,
  `ends_stat`, **`whole_write`**: from the first statement to the last they do what
  `LogState.writeSample` does in one step.
* **`writes_serial`**: threads that interleave leave the log as calls one after the other do.
-/

namespace SensorHub.Storage

open Trans LogState

/-- The next statement of `write_sample`. -/
inductive WritePlace
  /-- `stream_.is_open()`. -/
  | isOpen (sample : Sample)
  | createDirectories (sample : Sample)
  /-- `current_bytes_ = exists(…) ? file_size(…) : 0`. -/
  | stat (sample : Sample)
  /-- `stream_.open(path_, std::ios::app)`. -/
  | openAppend (sample : Sample)
  /-- The condition of `rotate_if_needed`. -/
  | full (sample : Sample)
  | close (sample : Sample)
  | remove (sample : Sample)
  | rename (sample : Sample)
  /-- `current_bytes_ = 0`. -/
  | restart (sample : Sample)
  /-- `stream_.open(path_, std::ios::trunc)`. -/
  | openTrunc (sample : Sample)
  /-- `stream_ << line`, into the buffer of the stream. -/
  | line (sample : Sample)
  /-- `stream_ << '\n'`. -/
  | newline (sample : Sample) (buffer : Bytes)
  | flush (sample : Sample) (buffer : Bytes)
  /-- `current_bytes_ += line.size() + 1`. -/
  | count (sample : Sample)

/-- What a stream that has not failed adds to its buffer. -/
def buffered (s : LogState) (buffer bytes : Bytes) : Bytes :=
  if s.writer.failed then buffer else buffer ++ bytes

variable {ε : Type*}

/-- The statements of `write_sample`. The answer to a call of the operating system is `ok e`. -/
def writeSection (ok : ε → Bool) : Section LogState Sample WritePlace ε where
  enter := .isOpen
  act s
    | .isOpen x, _ => some (s, some (if s.writer.isOpen then .full x else .createDirectories x))
    | .createDirectories x, e =>
        if hasParentPath s.writer.path && !ok e then some (s, none) else some (s, some (.stat x))
    | .stat x, e =>
        if ok e then
          some ({ s with writer := { s.writer with
            currentBytes := UInt64.ofNat (text s.disk.live).length } }, some (.openAppend x))
        else some (s, none)
    | .openAppend x, e =>
        if ok e then
          some (⟨{ s.writer with
              isOpen := true, mode := .app, linked := true, failed := false, buffer := [] },
            { s.disk with live := some (s.disk.live.getD .empty) }⟩, some (.full x))
        else some ({ s with writer := { s.writer with failed := true } }, none)
    | .full x, _ =>
        if s.writer.rotateBytes = 0 ∨ s.writer.currentBytes < s.writer.rotateBytes then
          some (s, some (.line x))
        else some (s, some (.close x))
    | .close x, e => some (s.close { Os.granting true with close := ok e }, some (.remove x))
    | .remove x, e =>
        some ({ s with disk := if ok e then { s.disk with archive := none } else s.disk },
          some (.rename x))
    | .rename x, e =>
        match s.disk.live with
        | some f =>
            some ({ s with disk := if ok e then ⟨none, some f⟩ else s.disk }, some (.restart x))
        | none => some (s, some (.restart x))
    | .restart x, _ =>
        some ({ s with writer := { s.writer with currentBytes := 0 } }, some (.openTrunc x))
    | .openTrunc x, e =>
        if ok e then
          some (⟨{ s.writer with
              isOpen := true, mode := .trunc 0, linked := true, failed := false },
            { s.disk with live := some .empty }⟩, some (.line x))
        else some ({ s with writer := { s.writer with failed := true } }, none)
    | .line x, _ => some (s, some (.newline x (buffered s [] (sampleToLine x))))
    | .newline x buffer, _ => some (s, some (.flush x (buffered s buffer [newline])))
    | .flush x buffer, e =>
        (s.put (.granting (ok e)) buffer).map fun s => (s, some (.count x))
    | .count x, _ => some (s.counted x, none)

/-! ### The statements of a call together -/

variable {ok : ε → Bool} {s t : LogState} {x : Sample} {buffer : Bytes}

theorem ends_count (h : Ends (writeSection ok) s (.count x) t) : t = s.counted x := by
  obtain ⟨e, hact | ⟨u, q, hact, -⟩⟩ := h.first
  · cases hact
    rfl
  · cases hact

theorem ends_flush (h : Ends (writeSection ok) s (.flush x buffer) t) :
    ∃ e, (s.put (.granting (ok e)) buffer).map (counted x) = some t := by
  obtain ⟨e, hact | ⟨u, q, hact, hrest⟩⟩ := h.first
  · obtain ⟨u, -, hpair⟩ := Option.map_eq_some_iff.mp hact
    cases hpair
  · obtain ⟨u, hput, hpair⟩ := Option.map_eq_some_iff.mp hact
    cases hpair
    exact ⟨e, by rw [hput, Option.map_some, ends_count hrest]⟩

/-- A stream that has failed does not write, whatever is in its buffer. -/
theorem put_of_failed (hfailed : s.writer.failed = true) (os : Os) (bytes : Bytes) :
    s.put os bytes = some s := by
  rw [put, if_pos hfailed]

theorem ends_line (h : Ends (writeSection ok) s (.line x) t) :
    ∃ e, (s.put (.granting (ok e)) (payload x)).map (counted x) = some t := by
  obtain ⟨e, hnewline⟩ := h.next fun _ => rfl
  obtain ⟨e, hflush⟩ := hnewline.next fun _ => rfl
  obtain ⟨e, hput⟩ := ends_flush hflush
  refine ⟨e, ?_⟩
  by_cases hfailed : s.writer.failed = true
  · rw [put_of_failed hfailed] at hput ⊢
    exact hput
  · have hbuffer : buffered s (buffered s [] (sampleToLine x)) [newline] = payload x := by
      rw [buffered, if_neg hfailed, buffered, if_neg hfailed, List.nil_append, payload]
    rw [hbuffer] at hput
    exact hput

theorem close_granting {os : Os} {accept : Bool} (h : os.close = accept) (s : LogState) :
    s.close os = s.close { Os.granting true with close := accept } := by
  rw [LogState.close, LogState.close, h]

/-- What is left behind the rotation. -/
def Finishes (os : Os) (x : Sample) (r : Except LogError Unit × LogState) (t : LogState) : Prop :=
  match r with
  | (.error _, s) => t = s
  | (.ok (), s) => (s.put os (payload x)).map (counted x) = some t

/-- The statement that renames does what `renameLive` does. -/
theorem act_rename (s : LogState) (x : Sample) (e : ε) : (writeSection ok).act s (.rename x) e =
    some ({ s with disk := renameLive { Os.granting true with rename := ok e } s.disk },
      some (.restart x)) := by
  cases hlive : s.disk.live with
  | some f => simp only [writeSection, renameLive, hlive]
  | none => simp only [writeSection, renameLive, hlive]

/-- The statements of a rotation, up to the one that opens the new file. -/
theorem ends_close (h : Ends (writeSection ok) s (.close x) t) :
    ∃ e₁ e₂ e₃, ∀ os : Os, os.close = ok e₁ → os.remove = ok e₂ → os.rename = ok e₃ →
      Ends (writeSection ok) ⟨{ (s.close os).writer with currentBytes := 0 },
        renameLive os (removeArchive os (s.close os).disk)⟩ (.openTrunc x) t := by
  obtain ⟨e₁, hremoves⟩ := h.next fun _ => rfl
  obtain ⟨e₂, hrenames⟩ := hremoves.next fun _ => rfl
  obtain ⟨e₃, hrestarts⟩ := hrenames.next fun e => act_rename _ _ e
  obtain ⟨e, hopens⟩ := hrestarts.next fun _ => rfl
  refine ⟨e₁, e₂, e₃, fun os hclose hremove hrename => ?_⟩
  have hfiles : ∀ d, renameLive os (removeArchive os d) =
      renameLive { Os.granting true with rename := ok e₃ }
        (if ok e₂ then { d with archive := none } else d) := by
    intro d
    rw [renameLive, removeArchive, renameLive, hremove, hrename]
  rw [close_granting hclose, hfiles]
  exact hopens

theorem put_granting {os : Os} {accept : Bool} (h : os.write = accept) (bytes : Bytes)
    (s : LogState) : s.put os bytes = s.put (.granting accept) bytes := by
  rw [put, put, h, Os.granting]

/-- The answers that count for `rotate_if_needed` and what follows it. -/
structure Answers (os : Os) (close remove rename openTrunc write : Bool) : Prop where
  close : os.close = close
  remove : os.remove = remove
  rename : os.rename = rename
  openTrunc : os.openTrunc = openTrunc
  write : os.write = write

theorem ends_full (h : Ends (writeSection ok) s (.full x) t) :
    ∃ e₁ e₂ e₃ e₄ e₅, ∀ os, Answers os (ok e₁) (ok e₂) (ok e₃) (ok e₄) (ok e₅) →
      Finishes os x (s.rotateIfNeeded os) t := by
  by_cases hroom : s.writer.rotateBytes = 0 ∨ s.writer.currentBytes < s.writer.rotateBytes
  · obtain ⟨e, hline⟩ := h.next fun _ => if_pos hroom
    obtain ⟨e₅, hput⟩ := ends_line hline
    refine ⟨e, e, e, e, e₅, fun os hos => ?_⟩
    rw [rotateIfNeeded, if_pos hroom, Finishes, put_granting hos.write]
    exact hput
  · obtain ⟨e, hcloses⟩ := h.next fun _ => if_neg hroom
    obtain ⟨e₁, e₂, e₃, hclosed⟩ := ends_close hcloses
    -- every system with these three answers leaves the same files
    have hsame : ∀ os : Os, os.close = ok e₁ → os.remove = ok e₂ → os.rename = ok e₃ →
        s.close os = s.close ⟨true, true, true, ok e₁, ok e₂, ok e₃, true, true⟩ ∧
        ∀ d, renameLive os (removeArchive os d) =
          renameLive ⟨true, true, true, ok e₁, ok e₂, ok e₃, true, true⟩
            (removeArchive ⟨true, true, true, ok e₁, ok e₂, ok e₃, true, true⟩ d) := by
      intro os hclose hremove hrename
      refine ⟨?_, fun d => ?_⟩
      · rw [LogState.close, LogState.close, hclose]
      · rw [renameLive, removeArchive, renameLive, removeArchive, hremove, hrename]
    obtain ⟨e₄, hact | ⟨u, q, hact, hrest⟩⟩ :=
      (hclosed ⟨true, true, true, ok e₁, ok e₂, ok e₃, true, true⟩ rfl rfl rfl).first
    · -- the new file cannot be opened
      cases htrunc : ok e₄ with
      | true => simp [writeSection, htrunc] at hact
      | false =>
          simp only [writeSection, htrunc, Bool.false_eq_true, if_false] at hact
          cases hact
          refine ⟨e₁, e₂, e₃, e₄, e₄, fun os hos => ?_⟩
          obtain ⟨hclose, hdisk⟩ := hsame os hos.close hos.remove hos.rename
          simp only [rotateIfNeeded, if_neg hroom, hos.openTrunc, htrunc, Bool.false_eq_true,
            if_false, Finishes, hclose, hdisk]
    · cases htrunc : ok e₄ with
      | false => simp [writeSection, htrunc] at hact
      | true =>
          simp only [writeSection, htrunc, if_true] at hact
          cases hact
          obtain ⟨e₅, hput⟩ := ends_line hrest
          refine ⟨e₁, e₂, e₃, e₄, e₅, fun os hos => ?_⟩
          obtain ⟨hclose, hdisk⟩ := hsame os hos.close hos.remove hos.rename
          simp only [rotateIfNeeded, if_neg hroom, hos.openTrunc, htrunc, if_true, Finishes,
            hclose, hdisk, put_granting hos.write]
          exact hput

theorem writeSample_of_finishes {os : Os} {u : LogState} (hopen : s.openIfNeeded os = (.ok (), u))
    (h : Finishes os x (u.rotateIfNeeded os) t) : ∃ r, s.writeSample os x = some (r, t) := by
  cases hrotate : u.rotateIfNeeded os with
  | mk result v =>
      rw [hrotate] at h
      cases result with
      | error e =>
          cases h
          exact ⟨.error e, by simp only [writeSample, hopen, hrotate]⟩
      | ok =>
          obtain ⟨w, hput, hw⟩ := Option.map_eq_some_iff.mp h
          cases hw
          refine ⟨.ok (), ?_⟩
          simp only [writeSample, hopen, hrotate, hput, Option.map_some]
          rfl

theorem writeSample_of_error {os : Os} {e : LogError} (hopen : s.openIfNeeded os = (.error e, t)) :
    ∃ r, s.writeSample os x = some (r, t) :=
  ⟨.error e, by simp only [writeSample, hopen]⟩

/-- The file is opened, or cannot be. -/
theorem ends_openAppend (hclosed : s.writer.isOpen ≠ true)
    (h : Ends (writeSection ok) { s with writer := { s.writer with
      currentBytes := UInt64.ofNat (text s.disk.live).length } } (.openAppend x) t) :
    ∃ e₃ e₄ e₅ e₆ e₇ e₈, ∀ d : Bool, (hasParentPath s.writer.path && !d) ≠ true →
      ∃ r, s.writeSample ⟨d, true, ok e₃, ok e₄, ok e₅, ok e₆, ok e₇, ok e₈⟩ x = some (r, t) := by
  obtain ⟨e₃, hact | ⟨u, q, hact, hrest⟩⟩ := h.first
  · cases hopen : ok e₃ with
    | true => simp [writeSection, hopen] at hact
    | false =>
        simp only [writeSection, hopen, Bool.false_eq_true, if_false] at hact
        cases hact
        refine ⟨e₃, e₃, e₃, e₃, e₃, e₃, fun d hd => writeSample_of_error
          (e := .runtime (ascii "cannot open log file: " ++ s.writer.path)) ?_⟩
        simp only [openIfNeeded, if_neg hclosed, if_neg hd, hopen, Bool.not_true,
          Bool.false_eq_true, if_false]
  · cases hopen : ok e₃ with
    | false => simp [writeSection, hopen] at hact
    | true =>
        simp only [writeSection, hopen, if_true] at hact
        cases hact
        obtain ⟨e₄, e₅, e₆, e₇, e₈, hfull⟩ := ends_full hrest
        refine ⟨e₃, e₄, e₅, e₆, e₇, e₈, fun d hd =>
          writeSample_of_finishes ?_ (hfull _ ⟨rfl, rfl, rfl, rfl, rfl⟩)⟩
        simp only [openIfNeeded, if_neg hclosed, if_neg hd, hopen, Bool.not_true,
          Bool.false_eq_true, if_false, if_true]

/-- The size of the file is asked for. -/
theorem ends_stat (hclosed : s.writer.isOpen ≠ true)
    (h : Ends (writeSection ok) s (.stat x) t) :
    ∃ e₂ e₃ e₄ e₅ e₆ e₇ e₈, ∀ d : Bool, (hasParentPath s.writer.path && !d) ≠ true →
      ∃ r, s.writeSample ⟨d, ok e₂, ok e₃, ok e₄, ok e₅, ok e₆, ok e₇, ok e₈⟩ x =
        some (r, t) := by
  obtain ⟨e₂, hact | ⟨u, q, hact, hrest⟩⟩ := h.first
  · cases hstat : ok e₂ with
    | true => simp [writeSection, hstat] at hact
    | false =>
        simp only [writeSection, hstat, Bool.false_eq_true, if_false] at hact
        cases hact
        refine ⟨e₂, e₂, e₂, e₂, e₂, e₂, e₂, fun d hd =>
          writeSample_of_error (e := .filesystem) ?_⟩
        simp only [openIfNeeded, if_neg hclosed, if_neg hd, hstat, Bool.not_false, if_true]
  · cases hstat : ok e₂ with
    | false => simp [writeSection, hstat] at hact
    | true =>
        simp only [writeSection, hstat, if_true] at hact
        cases hact
        obtain ⟨e₃, e₄, e₅, e₆, e₇, e₈, hopened⟩ := ends_openAppend hclosed hrest
        refine ⟨e₂, e₃, e₄, e₅, e₆, e₇, e₈, fun d hd => ?_⟩
        rw [hstat]
        exact hopened d hd

/-- **A call, from its first statement to its last**, does what `writeSample` does in one step. -/
theorem whole_write (h : Whole (writeSection ok) s x t) : ∃ e₁ e₂ e₃ e₄ e₅ e₆ e₇ e₈ r,
    s.writeSample ⟨ok e₁, ok e₂, ok e₃, ok e₄, ok e₅, ok e₆, ok e₇, ok e₈⟩ x =
      some (r, t) := by
  obtain ⟨e, hrest⟩ := h.ends.next fun _ => rfl
  by_cases hisOpen : s.writer.isOpen = true
  · rw [if_pos hisOpen] at hrest
    obtain ⟨e₄, e₅, e₆, e₇, e₈, hfull⟩ := ends_full hrest
    refine ⟨e, e, e, e₄, e₅, e₆, e₇, e₈,
      writeSample_of_finishes ?_ (hfull _ ⟨rfl, rfl, rfl, rfl, rfl⟩)⟩
    rw [openIfNeeded, if_pos hisOpen]
  · rw [if_neg hisOpen] at hrest
    obtain ⟨e₁, hact | ⟨u, q, hact, hrest⟩⟩ := hrest.first
    · by_cases hdir : (hasParentPath s.writer.path && !ok e₁) = true
      · simp only [writeSection, if_pos hdir] at hact
        cases hact
        refine ⟨e₁, e, e, e, e, e, e, e, writeSample_of_error (e := .filesystem) ?_⟩
        rw [openIfNeeded, if_neg hisOpen, if_pos hdir]
      · simp only [writeSection, if_neg hdir] at hact
        cases hact
    · by_cases hdir : (hasParentPath s.writer.path && !ok e₁) = true
      · simp only [writeSection, if_pos hdir] at hact
        cases hact
      · simp only [writeSection, if_neg hdir] at hact
        cases hact
        obtain ⟨e₂, e₃, e₄, e₅, e₆, e₇, e₈, hstat⟩ := ends_stat hisOpen hrest
        exact ⟨e₁, e₂, e₃, e₄, e₅, e₆, e₇, e₈, hstat (ok e₁) hdir⟩

/-! ### Threads that interleave -/

/-- One call of `write_sample`. -/
def writeStep (s : LogState) (c : Os × Sample) : Option LogState :=
  (s.writeSample c.1 c.2).map Prod.snd

variable {ι : Type} [DecidableEq ι] {g : Guarded ι LogState Sample WritePlace}

/-- Calls one after the other, with answers among those of `ok`. -/
theorem serial_calls {samples : List Sample} (h : Serial (writeSection ok) s samples t) :
    ∃ calls : List (Os × Sample), calls.map Prod.snd = samples ∧
      run writeStep s calls = some t ∧
      ((∀ e, ok e = true) → ∀ c ∈ calls, c.1 = .granting true) := by
  refine h.inv (fun samples t => ∃ calls : List (Os × Sample), calls.map Prod.snd = samples ∧
    run writeStep s calls = some t ∧ ((∀ e, ok e = true) → ∀ c ∈ calls, c.1 = .granting true))
    ?_ ⟨[], rfl, rfl, fun _ c hc => absurd hc List.not_mem_nil⟩
  rintro samples t x u ⟨calls, rfl, hrun, hgranted⟩ hcall
  obtain ⟨e₁, e₂, e₃, e₄, e₅, e₆, e₇, e₈, r, hwrite⟩ := whole_write hcall
  refine ⟨calls ++ [(⟨ok e₁, ok e₂, ok e₃, ok e₄, ok e₅, ok e₆, ok e₇, ok e₈⟩, x)], by simp,
    ?_, ?_⟩
  · refine run_snoc_eq_some.mpr ⟨t, hrun, ?_⟩
    rw [writeStep, hwrite, Option.map_some]
  · intro hok c hc
    rcases List.mem_append.mp hc with hc | hc
    · exact hgranted hok c hc
    · rw [List.mem_singleton.mp hc]
      simp only [hok]
      rfl

/-- Granted calls are those of `attemptStep`. -/
theorem run_granted (s : LogState) (samples : List Sample) :
    run writeStep s (samples.map fun x => (.granting true, x)) =
      run attemptStep s (samples.map .accepted) := by
  induction samples generalizing s with
  | nil => rfl
  | cons x samples ih =>
      have hstep : writeStep s (.granting true, x) = attemptStep s (.accepted x) := rfl
      rw [List.map_cons, List.map_cons, run_cons, run_cons, hstep]
      exact congrArg _ (funext ih)

/-- **Whole lines.** If the operating system grants everything, on files that held whole lines of
samples: when no call is inside, the lines of the archive and of the log read back as the latest of
those samples and of the ones whose calls have left, in that order; all of them, if the log is not
rotated. -/
theorem lines_stay_whole {path : Bytes} {rotateBytes : UInt64} {disk : Disk}
    {older newer : List Sample} (hok : ∀ e, ok e = true)
    (hdisk : Holding disk older newer)
    (h : Reachable (guardStep (writeSection ok)) (Guarded.init ⟨.new path rotateBytes, disk⟩) g)
    (hknown : ∀ x ∈ older ++ newer ++ g.left, Known x) (hfree : g.owner = none) :
    ∃ xs, xs <:+ older ++ newer ++ g.left ∧ readBack g.shared.disk = xs.map some ∧
      (rotateBytes = 0 → xs = older ++ newer ++ g.left) := by
  obtain ⟨-, t, ht⟩ := serial_of_reachable h
  obtain ⟨calls, hcalls, hrun, hgranted⟩ := serial_calls ht.calls
  have hlabels : calls = g.left.map fun x => (.granting true, x) := by
    rw [← hcalls, List.map_map]
    refine (List.map_id calls).symm.trans (List.map_congr_left fun c hc => ?_)
    exact Prod.ext (hgranted hok c hc) rfl
  have haccepted : run attemptStep ⟨.new path rotateBytes, disk⟩ (g.left.map .accepted) =
      some g.shared := by
    rw [ht.free hfree, ← hrun, hlabels, run_granted]
  obtain ⟨older', newer', hholding, hsuffix, hall⟩ := holding_run hdisk haccepted
  exact ⟨older' ++ newer', hsuffix, readBack_eq hholding fun x hx => hknown x (hsuffix.subset hx),
    hall⟩

/-- Both of them have written, the second after it has waited. -/
def bothWritten : List (GuardLabel Bool Sample Unit) :=
  [.call false ⟨0, 5, 1, 25007, 0, 0⟩, .lock false, .act false (), .act false (),
    .call true ⟨1, 6, 1, 25008, 0, 0⟩, .act false (), .act false (), .act false (), .act false (),
    .act false (), .act false (), .act false (), .lock true, .act true (), .act true (),
    .act true (), .act true (), .act true (), .act true ()]

theorem lines_stay_whole_bothWritten : ∃ g, run (guardStep (writeSection fun _ => true))
      (Guarded.init ⟨.new (ascii "log") 0, ⟨none, none⟩⟩) bothWritten = some g ∧
    g.left = [⟨0, 5, 1, 25007, 0, 0⟩, ⟨1, 6, 1, 25008, 0, 0⟩] ∧
    readBack g.shared.disk = g.left.map some := by
  obtain ⟨g, hg⟩ : ∃ g, run (guardStep (writeSection fun _ => true))
      (Guarded.init ⟨.new (ascii "log") 0, ⟨none, none⟩⟩) bothWritten = some g := ⟨_, rfl⟩
  have hr : (run (guardStep (writeSection fun _ => true))
      (Guarded.init ⟨.new (ascii "log") 0, ⟨none, none⟩⟩) bothWritten).map
        (fun g => (g.left, g.owner)) =
          some ([⟨0, 5, 1, 25007, 0, 0⟩, ⟨1, 6, 1, 25008, 0, 0⟩], none) := rfl
  rw [hg] at hr
  obtain ⟨hleft, hfree⟩ := Prod.ext_iff.mp (Option.some.inj hr)
  change g.left = _ at hleft
  have hknown : ∀ x ∈ [] ++ [] ++ g.left, Known x := by
    rw [hleft]
    decide
  obtain ⟨xs, -, hback, hall⟩ :=
    lines_stay_whole (fun _ => rfl) (⟨rfl, rfl⟩ : Holding ⟨none, none⟩ [] []) ⟨_, hg⟩ hknown hfree
  exact ⟨g, hg, hleft, by rw [hback, hall rfl, List.append_nil, List.nil_append]⟩

end SensorHub.Storage
