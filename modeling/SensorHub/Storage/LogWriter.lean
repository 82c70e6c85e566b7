import SensorHub.Storage.SampleLine

set_option autoImplicit false

/-!
# The log and its archive

`LogWriter` of `userspace/src/storage/log_writer.cpp` with the two files it works on, `path_` and
`path_ + ".1"`. What the operating system answers to a call is an argument; a call that fails
changes no file. A stream opened with `app` writes at the end of its file, one opened with `trunc`
alone at an offset of its own. What a refused flush was to write stays in the buffer of the stream,
which writes nothing more until `close`; `close` tries to write it once more.

* `LogFile`, `Disk`, `OpenMode`, `OpenMode.place`, `LogWriter`, `Os`, `LogState`.
* `openIfNeeded`, `close`, `rotateIfNeeded`, `put`, `writeSample`.
* `opened`, `Due`, `turned`, **`writeSample_ok`**: a write that returns has opened the file, rotated
  it if that was due, and put the line.
* `AtEnd`: the stream appends, whichever way it was opened; `put_accepted`.
* `Kept`, `Harmless`, `Spared`, **`live_kept_iff`**; **`failed_rename_destroys`**: a rename that
  fails.
-/

namespace SensorHub.Storage

/-- A file. Its size fits in `off_t`. -/
structure LogFile where
  content : Bytes
  fits : content.length < 2 ^ 63
  deriving DecidableEq

/-- `file_size`. -/
def LogFile.size (f : LogFile) : ℕ := f.content.length

/-- A file without content. -/
def LogFile.empty : LogFile := ⟨[], by decide⟩

/-- What is at `path_` and at `path_ + ".1"`. -/
structure Disk where
  live : Option LogFile
  archive : Option LogFile
  deriving DecidableEq

/-- The bytes at a path; a file that is not there has none. -/
def text : Option LogFile → Bytes
  | some f => f.content
  | none => []

/-- How the file of a stream was opened: with `app`, or with `trunc` alone; then the stream writes
where it has come to. -/
inductive OpenMode
  | app
  | trunc (offset : ℕ)
  deriving DecidableEq

namespace OpenMode

/-- The content of the file behind a write; beyond the end, a hole is filled with zeros. -/
def place (bytes content : Bytes) : OpenMode → Bytes
  | .app => content ++ bytes
  | .trunc offset =>
      content.take offset ++ List.replicate (offset - content.length) 0 ++ bytes ++
        content.drop (offset + bytes.length)

/-- The position behind a write of `size` bytes. -/
def advance (size : ℕ) : OpenMode → OpenMode
  | .app => .app
  | .trunc offset => .trunc (offset + size)

theorem place_trunc_of_le {content : Bytes} {offset : ℕ} (h : content.length ≤ offset)
    (bytes : Bytes) : (trunc offset).place bytes content =
      content ++ List.replicate (offset - content.length) 0 ++ bytes := by
  rw [place, List.take_of_length_le h, List.drop_of_length_le (by omega), List.append_nil]

theorem place_trunc_of_lt {content : Bytes} {offset : ℕ} (h : offset < content.length)
    (bytes : Bytes) : (trunc offset).place bytes content =
      content.take offset ++ bytes ++ content.drop (offset + bytes.length) := by
  rw [place, Nat.sub_eq_zero_of_le h.le, List.replicate_zero, List.append_nil]

end OpenMode

/-- The members of `LogWriter`; of `stream_`, whether a file is open, how it was opened, whether it
is the one at `path_` (or one that is at neither path), whether `failbit` or `badbit` is set, and
what is in the buffer. -/
structure LogWriter where
  path : Bytes
  rotateBytes : UInt64
  isOpen : Bool
  mode : OpenMode
  linked : Bool
  failed : Bool
  buffer : Bytes
  currentBytes : UInt64
  deriving DecidableEq

/-- `LogWriter::LogWriter`. -/
def LogWriter.new (path : Bytes) (rotateBytes : UInt64) : LogWriter :=
  ⟨path, rotateBytes, false, .app, false, false, [], 0⟩

/-- Whether the calls of one `write_sample` succeed, as far as they are made. -/
structure Os where
  createDirectories : Bool
  /-- `exists` and `file_size`. -/
  stat : Bool
  openAppend : Bool
  /-- The write of what is in the buffer when the stream is closed. -/
  close : Bool
  remove : Bool
  rename : Bool
  openTrunc : Bool
  write : Bool
  deriving DecidableEq

/-- Every call succeeds; the write, if `write` says so. -/
def Os.granting (write : Bool) : Os := ⟨true, true, true, true, true, true, true, write⟩

/-- An exception of `write_sample`: one of `std::filesystem`, or the `std::runtime_error` with its
text. -/
inductive LogError
  | filesystem
  | runtime (what : Bytes)
  deriving DecidableEq

/-- The writer and its files. -/
structure LogState where
  writer : LogWriter
  disk : Disk
  deriving DecidableEq

/-- `'/'`. -/
def slash : UInt8 := 47

/-- `has_parent_path`. -/
def hasParentPath (path : Bytes) : Bool := path.contains slash

namespace LogState

/-- `open_if_needed`. -/
def openIfNeeded (os : Os) (s : LogState) : Except LogError Unit × LogState :=
  if s.writer.isOpen then (.ok (), s)
  else if hasParentPath s.writer.path && !os.createDirectories then (.error .filesystem, s)
  else if !os.stat then (.error .filesystem, s)
  else
    let w := { s.writer with currentBytes := UInt64.ofNat (text s.disk.live).length }
    if os.openAppend then
      (.ok (), ⟨{ w with
          isOpen := true, mode := .app, linked := true, failed := false, buffer := [] },
        { s.disk with live := some (s.disk.live.getD .empty) }⟩)
    else
      (.error (.runtime (ascii "cannot open log file: " ++ w.path)),
        { s with writer := { w with failed := true } })

/-- The bytes reach the file of the stream. The operating system does not accept a write beyond the
end of `off_t`. -/
def deliver (bytes : Bytes) (s : LogState) : Option LogState :=
  let w := { s.writer with mode := s.writer.mode.advance bytes.length, buffer := [] }
  match s.disk.live with
  | some f =>
      if s.writer.linked then
        if h : (s.writer.mode.place bytes f.content).length < 2 ^ 63 then
          some ⟨w, { s.disk with live := some ⟨s.writer.mode.place bytes f.content, h⟩ }⟩
        else none
      else some { s with writer := w }
  | none => some { s with writer := w }

/-- `stream_.close()`. -/
def close (os : Os) (s : LogState) : LogState :=
  let t :=
    if os.close ∧ s.writer.buffer ≠ [] then (s.deliver s.writer.buffer).getD s else s
  { t with writer := { t.writer with isOpen := false, buffer := [] } }

/-- `std::filesystem::remove` of `path_ + ".1"`. -/
def removeArchive (os : Os) (d : Disk) : Disk := if os.remove then { d with archive := none } else d

/-- `std::filesystem::rename` of `path_` to `path_ + ".1"`, which replaces what is there. Without a
file at `path_` it fails. -/
def renameLive (os : Os) (d : Disk) : Disk :=
  match d.live with
  | some f => if os.rename then ⟨none, some f⟩ else d
  | none => d

/-- `rotate_if_needed`. -/
def rotateIfNeeded (os : Os) (s : LogState) : Except LogError Unit × LogState :=
  if s.writer.rotateBytes = 0 ∨ s.writer.currentBytes < s.writer.rotateBytes then (.ok (), s)
  else
    let s := s.close os
    let w := { s.writer with currentBytes := 0 }
    let d := renameLive os (removeArchive os s.disk)
    if os.openTrunc then
      (.ok (), ⟨{ w with isOpen := true, mode := .trunc 0, linked := true, failed := false },
        { d with live := some .empty }⟩)
    else
      (.error (.runtime (ascii "cannot reopen log file after rotation: " ++ w.path)),
        ⟨{ w with failed := true }, d⟩)

/-- `stream_ << … ; stream_.flush()`. A stream that has failed does nothing, and one whose write is
refused has failed. -/
def put (os : Os) (bytes : Bytes) (s : LogState) : Option LogState :=
  if s.writer.failed then some s
  else if !os.write then
    some { s with writer := { s.writer with failed := true, buffer := s.writer.buffer ++ bytes } }
  else s.deliver (s.writer.buffer ++ bytes)

/-- What a sample is written as. -/
def payload (sample : Sample) : Bytes := sampleToLine sample ++ [newline]

/-- `write_sample`: its exception, if any, and what it leaves behind. -/
def writeSample (os : Os) (sample : Sample) (s : LogState) :
    Option (Except LogError Unit × LogState) :=
  match s.openIfNeeded os with
  | (.error e, s) => some (.error e, s)
  | (.ok (), s) =>
      match s.rotateIfNeeded os with
      | (.error e, s) => some (.error e, s)
      | (.ok (), s) =>
          (s.put os (payload sample)).map fun s =>
            (.ok (), { s with writer := { s.writer with
              currentBytes :=
                s.writer.currentBytes + UInt64.ofNat ((sampleToLine sample).length + 1) } })

/-! ### Writes that return -/

variable {os : Os} {sample : Sample} {s t : LogState}

/-- The state after a successful `open_if_needed`. -/
def opened (s : LogState) : LogState :=
  if s.writer.isOpen then s
  else ⟨{ s.writer with
      isOpen := true, mode := .app, linked := true, failed := false, buffer := []
      currentBytes := UInt64.ofNat (text s.disk.live).length },
    { s.disk with live := some (s.disk.live.getD .empty) }⟩

/-- What `rotate_if_needed` compares with `rotate_bytes_`. -/
def countedBytes (s : LogState) : UInt64 :=
  if s.writer.isOpen then s.writer.currentBytes else UInt64.ofNat (text s.disk.live).length

/-- The next write rotates the log. -/
def Due (s : LogState) : Prop :=
  s.writer.rotateBytes ≠ 0 ∧ s.writer.rotateBytes ≤ s.countedBytes

instance (s : LogState) : Decidable s.Due := inferInstanceAs (Decidable (_ ∧ _))

/-- The state after a rotation. -/
def rotated (os : Os) (s : LogState) : LogState :=
  ⟨{ (s.close os).writer with
      isOpen := true, mode := .trunc 0, linked := true, failed := false, currentBytes := 0 },
    { renameLive os (removeArchive os (s.close os).disk) with live := some .empty }⟩

/-- The state before the line is put. -/
def turned (os : Os) (s : LogState) : LogState := if s.Due then rotated os s.opened else s.opened

/-- The line is counted. -/
def counted (sample : Sample) (s : LogState) : LogState :=
  { s with writer := { s.writer with
    currentBytes := s.writer.currentBytes + UInt64.ofNat ((sampleToLine sample).length + 1) } }

theorem counted_disk (sample : Sample) (s : LogState) : (s.counted sample).disk = s.disk := by
  rw [counted]

theorem opened_rotateBytes (s : LogState) : s.opened.writer.rotateBytes = s.writer.rotateBytes := by
  unfold opened
  split_ifs <;> rfl

theorem opened_currentBytes (s : LogState) : s.opened.writer.currentBytes = s.countedBytes := by
  unfold opened countedBytes
  split_ifs <;> rfl

theorem opened_live {f : LogFile} (h : s.disk.live = some f) : s.opened.disk.live = some f := by
  unfold opened
  split_ifs
  · exact h
  · simp [h]

theorem text_opened (s : LogState) : text s.opened.disk.live = text s.disk.live := by
  unfold opened
  split_ifs
  · rfl
  · cases h : s.disk.live <;> simp [text, LogFile.empty]

theorem opened_archive (s : LogState) : s.opened.disk.archive = s.disk.archive := by
  unfold opened
  split_ifs <;> rfl

/-- Only the live file and the position of the stream change. -/
theorem deliver_frame {bytes : Bytes} (h : s.deliver bytes = some t) :
    t.disk.archive = s.disk.archive ∧
      t.writer = { s.writer with mode := s.writer.mode.advance bytes.length, buffer := [] } := by
  unfold deliver at h
  split at h
  · split_ifs at h <;> cases h <;> exact ⟨rfl, rfl⟩
  · cases h
    exact ⟨rfl, rfl⟩

theorem close_frame (os : Os) (s : LogState) : (s.close os).disk.archive = s.disk.archive ∧
    (s.close os).writer = { s.writer with
      isOpen := false, buffer := [], mode := (s.close os).writer.mode } := by
  unfold close
  by_cases hretry : os.close = true ∧ s.writer.buffer ≠ []
  · simp only [if_pos hretry]
    cases hdeliver : s.deliver s.writer.buffer with
    | none => exact ⟨rfl, rfl⟩
    | some t =>
        obtain ⟨harchive, hwriter⟩ := deliver_frame hdeliver
        rw [Option.getD_some, harchive, hwriter]
        exact ⟨rfl, rfl⟩
  · simp only [if_neg hretry]
    exact ⟨trivial, trivial⟩

/-- With nothing in the buffer, a stream is only closed. -/
theorem close_of_buffer_nil (os : Os) (h : s.writer.buffer = []) :
    s.close os = { s with writer := { s.writer with isOpen := false } } := by
  unfold close
  rw [if_neg fun hretry => hretry.2 h]
  simp only [← h]

theorem openIfNeeded_ok (h : s.openIfNeeded os = (.ok (), t)) : t = s.opened := by
  unfold openIfNeeded at h
  unfold opened
  split_ifs at h ⊢ <;> cases h <;> rfl

/-- The test of `rotate_if_needed`. -/
theorem not_due_iff (s : LogState) :
    ¬ s.Due ↔ s.writer.rotateBytes = 0 ∨ s.countedBytes < s.writer.rotateBytes := by
  rw [Due, not_and_or, not_ne_iff, UInt64.not_le]

theorem rotateIfNeeded_ok (h : s.opened.rotateIfNeeded os = (.ok (), t)) : t = s.turned os := by
  unfold rotateIfNeeded at h
  rw [opened_rotateBytes, opened_currentBytes] at h
  unfold turned
  by_cases hdue : s.Due
  · rw [if_neg fun hnot => s.not_due_iff.mpr hnot hdue] at h
    rw [if_pos hdue]
    simp only at h
    split_ifs at h <;> cases h
    rfl
  · rw [if_pos (s.not_due_iff.mp hdue)] at h
    rw [if_neg hdue]
    cases h
    rfl

/-- **A write that returns** has put its line and counted it. -/
theorem writeSample_ok (h : s.writeSample os sample = some (.ok (), t)) :
    ∃ u, (s.turned os).put os (payload sample) = some u ∧ t = u.counted sample := by
  unfold writeSample at h
  split at h
  · cases h
  · rename_i v hopen
    rw [openIfNeeded_ok hopen] at h
    split at h
    · cases h
    · rename_i w hrotate
      obtain ⟨u, hu, heq⟩ := Option.map_eq_some_iff.mp h
      rw [rotateIfNeeded_ok hrotate] at hu
      cases heq
      exact ⟨u, hu, rfl⟩

/-- What a line leaves alone. -/
theorem put_frame {bytes : Bytes} (h : s.put os bytes = some t) :
    t.disk.archive = s.disk.archive ∧ t.writer.currentBytes = s.writer.currentBytes := by
  unfold put at h
  split_ifs at h
  · cases h; exact ⟨rfl, rfl⟩
  · cases h; exact ⟨rfl, rfl⟩
  · obtain ⟨harchive, hwriter⟩ := deliver_frame h
    exact ⟨harchive, by rw [hwriter]⟩

/-- What is at `path_` stays there. -/
theorem text_put_of_failed {bytes : Bytes} (hquiet : s.writer.failed = true ∨ os.write = false)
    (h : s.put os bytes = some t) : text t.disk.live = text s.disk.live := by
  unfold put at h
  split_ifs at h with hfailed hwrite
  · cases h; rfl
  · cases h; rfl
  · exact absurd hquiet (by simp_all)

/-! ### Streams that append -/

/-- The stream appends to a file of this size, and nothing is left in its buffer. -/
structure AtEnd (w : LogWriter) (size : ℕ) : Prop where
  linked : w.linked = true
  buffer : w.buffer = []
  mode : w.mode = .app ∨ w.mode = .trunc size

theorem AtEnd.place {w : LogWriter} {content : Bytes} (h : AtEnd w content.length)
    (bytes : Bytes) : w.mode.place bytes content = content ++ bytes := by
  rcases h.mode with happ | htrunc
  · rw [happ]
    rfl
  · rw [htrunc, OpenMode.place_trunc_of_le le_rfl, Nat.sub_self, List.replicate_zero,
      List.append_nil]

theorem AtEnd.advance {w : LogWriter} {size : ℕ} (h : AtEnd w size) (more : ℕ) :
    AtEnd { w with mode := w.mode.advance more, buffer := [] } (size + more) := by
  refine ⟨h.linked, rfl, ?_⟩
  rcases h.mode with happ | htrunc
  · left
    rw [happ]
    rfl
  · right
    rw [htrunc]
    rfl

/-- A line that is accepted is appended. -/
theorem put_accepted {bytes : Bytes} {f : LogFile} (hfailed : s.writer.failed = false)
    (hwrite : os.write = true) (hlive : s.disk.live = some f) (hend : AtEnd s.writer f.size)
    (h : s.put os bytes = some t) :
    t.writer = { s.writer with mode := s.writer.mode.advance bytes.length, buffer := [] } ∧
      ∃ g, t.disk.live = some g ∧ g.content = f.content ++ bytes := by
  unfold put at h
  rw [hfailed, hwrite, hend.buffer, List.nil_append] at h
  simp only [Bool.false_eq_true, if_false, Bool.not_true] at h
  refine ⟨(deliver_frame h).2, ?_⟩
  simp only [deliver, hlive, hend.linked, if_true] at h
  split_ifs at h
  cases h
  exact ⟨_, rfl, hend.place bytes⟩

theorem text_put {bytes : Bytes} {f : LogFile} (hfailed : s.writer.failed = false)
    (hwrite : os.write = true) (hlive : s.disk.live = some f) (hend : AtEnd s.writer f.size)
    (h : s.put os bytes = some t) : text t.disk.live = text s.disk.live ++ bytes := by
  obtain ⟨-, g, hg, hcontent⟩ := put_accepted hfailed hwrite hlive hend h
  rw [hg, hlive]
  exact hcontent

theorem put_isSome {bytes : Bytes} {f : LogFile} (hlive : s.disk.live = some f)
    (hend : AtEnd s.writer f.size) (hfits : (f.content ++ bytes).length < 2 ^ 63) :
    (s.put os bytes).isSome := by
  have hplace : (s.writer.mode.place bytes f.content).length < 2 ^ 63 := by
    rwa [hend.place bytes]
  simp only [put, deliver, hlive, hend.linked, hend.buffer, List.nil_append, if_true,
    dif_pos hplace]
  split_ifs <;> rfl

end LogState

/-! ### What becomes of the live file -/

/-- The bytes of `f` are at `path_` or at `path_ + ".1"`. -/
def Kept (f : LogFile) (d : Disk) : Prop :=
  f.content <:+: text d.live ∨ f.content <:+: text d.archive

/-- What the stream writes does no harm to the live file `f`: unless it lies over bytes of `f`,
whose content happens to be there all the same. -/
def Harmless (w : LogWriter) (bytes : Bytes) (f : LogFile) : Prop :=
  w.linked = true → ∀ offset, w.mode = .trunc offset → offset < f.size →
    f.content <:+: f.content.take offset ++ bytes ++ f.content.drop (offset + bytes.length)

/-- The stream is open, and when it is closed, what is in its buffer reaches the live file `f`. -/
def Retried (os : Os) (w : LogWriter) (f : LogFile) : Prop :=
  w.isOpen = true ∧ os.close = true ∧ w.buffer ≠ [] ∧
    (w.mode.place w.buffer f.content).length < 2 ^ 63

/-- The stream is open, has not failed, and the line is accepted. -/
def Written (os : Os) (w : LogWriter) : Prop :=
  w.isOpen = true ∧ w.failed = false ∧ os.write = true

/-- The bytes of `f` happen to be in the line that is accepted, or in an archive that could be
neither removed nor replaced. -/
def Spared (os : Os) (sample : Sample) (f : LogFile) (d : Disk) : Prop :=
  (f.content <:+: if os.write then LogState.payload sample else []) ∨
    os.rename = false ∧ os.remove = false ∧ f.content <:+: text d.archive

section Rotation

open LogState

variable {os : Os} {sample : Sample} {s t u : LogState} {f : LogFile}

theorem harmless_iff {w : LogWriter} (hlinked : w.linked = true) (bytes : Bytes) (f : LogFile) :
    f.content <:+: w.mode.place bytes f.content ↔ Harmless w bytes f := by
  unfold Harmless
  cases hmode : w.mode with
  | app =>
      refine iff_of_true (List.prefix_append _ _).isInfix ?_
      intro _ offset heq
      cases heq
  | trunc offset =>
      by_cases hinside : offset < f.size
      · rw [OpenMode.place_trunc_of_lt hinside]
        refine ⟨?_, fun hall => hall hlinked offset rfl hinside⟩
        intro hinfix _ offset' heq _
        cases heq
        exact hinfix
      · rw [OpenMode.place_trunc_of_le (not_lt.mp hinside), List.append_assoc]
        refine iff_of_true (List.prefix_append _ _).isInfix ?_
        intro _ offset' heq hlt
        cases heq
        exact absurd hlt hinside

/-- What reaches the file of the stream. -/
theorem infix_deliver {bytes : Bytes} (hlive : s.disk.live = some f)
    (h : s.deliver bytes = some t) : (∃ g, t.disk.live = some g) ∧
    (f.content <:+: text t.disk.live ↔ Harmless s.writer bytes f) := by
  simp only [deliver, hlive] at h
  split_ifs at h with hlinked hfits
  · cases h
    exact ⟨⟨_, rfl⟩, harmless_iff hlinked bytes f⟩
  · cases h
    refine ⟨⟨f, hlive⟩, iff_of_true ?_ fun hyes => absurd hyes hlinked⟩
    rw [hlive]
    exact List.infix_refl f.content

theorem infix_put {bytes : Bytes} (hlive : s.disk.live = some f) (h : s.put os bytes = some t) :
    f.content <:+: text t.disk.live ↔
      (s.writer.failed = false → os.write = true →
        Harmless s.writer (s.writer.buffer ++ bytes) f) := by
  by_cases hquiet : s.writer.failed = true ∨ os.write = false
  · rw [text_put_of_failed hquiet h, hlive]
    refine iff_of_true (List.infix_refl f.content) ?_
    intro hfine hwrite
    rw [hfine, hwrite] at hquiet
    simp at hquiet
  · rw [not_or, Bool.not_eq_true, Bool.not_eq_false] at hquiet
    simp only [put, hquiet.1, hquiet.2, Bool.false_eq_true, if_false, Bool.not_true] at h
    rw [(infix_deliver hlive h).2]
    exact ⟨fun hsafe _ _ => hsafe, fun hsafe => hsafe hquiet.1 hquiet.2⟩

/-- What the buffer does to the file when the stream is closed. -/
theorem infix_close (os : Os) (hlive : s.disk.live = some f) (hopen : s.writer.isOpen = true) :
    ∃ g, (s.close os).disk.live = some g ∧ (f.content <:+: g.content ↔
      (Retried os s.writer f → Harmless s.writer s.writer.buffer f)) := by
  unfold LogState.close
  by_cases hretry : os.close = true ∧ s.writer.buffer ≠ []
  · simp only [if_pos hretry]
    cases hdeliver : s.deliver s.writer.buffer with
    | none =>
        refine ⟨f, hlive, iff_of_true (List.infix_refl f.content) ?_⟩
        rintro ⟨-, -, -, hfits⟩
        simp only [deliver, hlive, dif_pos hfits] at hdeliver
        split_ifs at hdeliver
    | some t =>
        obtain ⟨⟨g, hg⟩, hinfix⟩ := infix_deliver hlive hdeliver
        rw [hg] at hinfix
        refine ⟨g, hg, hinfix.trans ⟨fun hsafe _ => hsafe, fun hsafe => ?_⟩⟩
        intro hlinked
        refine hsafe ⟨hopen, hretry.1, hretry.2, ?_⟩ hlinked
        by_contra hlong
        simp only [deliver, hlive, hlinked, if_true, dif_neg hlong] at hdeliver
        cases hdeliver
  · simp only [if_neg hretry]
    refine ⟨f, hlive, iff_of_true (List.infix_refl f.content) ?_⟩
    rintro ⟨-, hclose, hbuffer, -⟩
    exact absurd ⟨hclose, hbuffer⟩ hretry

/-- A rotation whose rename succeeds archives the live file. -/
theorem rotated_archive (hrename : os.rename = true) (hlive : (s.close os).disk.live = some f) :
    (rotated os s).disk.archive = some f := by
  have hkept : (removeArchive os (s.close os).disk).live = some f := by
    unfold removeArchive
    split_ifs <;> exact hlive
  simp [rotated, renameLive, hkept, hrename]

/-- One whose rename fails leaves the archive, unless it could be removed. -/
theorem rotated_archive_of_failed (hrename : os.rename = false) :
    (rotated os s).disk.archive = if os.remove then none else s.disk.archive := by
  have hkept : renameLive os (removeArchive os (s.close os).disk) =
      removeArchive os (s.close os).disk := by
    unfold renameLive
    split
    · rw [if_neg (by simp [hrename])]
    · rfl
  rw [rotated, hkept, ← (close_frame os s).1]
  unfold removeArchive
  split_ifs <;> rfl

theorem rotated_atEnd (os : Os) (s : LogState) : AtEnd (rotated os s).writer 0 := by
  refine ⟨rfl, ?_, Or.inr rfl⟩
  rw [rotated, (close_frame os s).2]

/-- Behind a rotation the live file is the line, if it is accepted. -/
theorem text_put_rotated {bytes : Bytes} (h : (rotated os s).put os bytes = some u) :
    text u.disk.live = if os.write then bytes else [] := by
  cases hwrite : os.write with
  | false => exact text_put_of_failed (.inr hwrite) h
  | true => exact text_put rfl hwrite rfl (rotated_atEnd os s) h

/-- A stream that was opened for this call appends, and has nothing in its buffer. -/
theorem opened_writer (s : LogState) : s.writer.isOpen = true ∧ s.opened.writer = s.writer ∨
    s.writer.isOpen = false ∧ s.opened.writer.mode = .app ∧ s.opened.writer.buffer = [] := by
  unfold opened
  cases hopen : s.writer.isOpen with
  | true => exact Or.inl ⟨rfl, rfl⟩
  | false => exact Or.inr ⟨rfl, rfl, rfl⟩

theorem opened_isOpen (s : LogState) : s.opened.writer.isOpen = true := by
  unfold opened
  split_ifs with hopen
  · exact hopen
  · rfl

/-- The line of a call that does not rotate. -/
theorem infix_put_opened (hlive : s.disk.live = some f)
    (h : s.opened.put os (payload sample) = some u) :
    f.content <:+: text u.disk.live ↔
      (Written os s.writer → Harmless s.writer (s.writer.buffer ++ payload sample) f) := by
  rw [infix_put (opened_live hlive) h]
  rcases opened_writer s with ⟨hopen, hsame⟩ | ⟨hclosed, happ, -⟩
  · rw [hsame]
    exact ⟨fun hsafe hw => hsafe hw.2.1 hw.2.2, fun hsafe hfine hwrite =>
      hsafe ⟨hopen, hfine, hwrite⟩⟩
  · refine iff_of_true ?_ fun hw => absurd hw.1 (by simp [hclosed])
    intro _ _ _ offset htrunc
    rw [happ] at htrunc
    cases htrunc

/-- The close of a call that does. -/
theorem infix_close_opened (os : Os) (hlive : s.disk.live = some f) :
    ∃ g, (s.opened.close os).disk.live = some g ∧ (f.content <:+: g.content ↔
      (Retried os s.writer f → Harmless s.writer s.writer.buffer f)) := by
  obtain ⟨g, hg, hinfix⟩ := infix_close os (opened_live hlive) (opened_isOpen s)
  refine ⟨g, hg, hinfix.trans ?_⟩
  rcases opened_writer s with ⟨-, hsame⟩ | ⟨hclosed, -, hbuffer⟩
  · rw [hsame]
  · exact iff_of_true (fun hr => absurd hbuffer hr.2.2.1) fun hr => absurd hr.1 (by simp [hclosed])

/-- **When the live file survives a write.** If no rotation is due, the line must not lie over bytes
of it. In a rotation the rename must succeed, and what the stream still has in its buffer must not
lie over bytes of it either. Otherwise its bytes are there only if they happen to be elsewhere. -/
theorem live_kept_iff (hlive : s.disk.live = some f)
    (h : s.writeSample os sample = some (.ok (), t)) :
    Kept f t.disk ↔
      (s.Due → os.rename = true ∧
          (Retried os s.writer f → Harmless s.writer s.writer.buffer f) ∨
        Spared os sample f s.disk) ∧
      (¬ s.Due →
        (Written os s.writer → Harmless s.writer (s.writer.buffer ++ payload sample) f) ∨
        f.content <:+: text s.disk.archive) := by
  obtain ⟨u, hput, rfl⟩ := writeSample_ok h
  have harchive := (put_frame hput).1
  rw [counted_disk, Kept]
  by_cases hdue : s.Due
  · rw [turned, if_pos hdue] at hput harchive
    rw [text_put_rotated hput, harchive, and_iff_left (absurd hdue), forall_prop_of_true hdue,
      Spared]
    cases hrename : os.rename with
    | true =>
        obtain ⟨g, hg, hinfix⟩ := infix_close_opened os hlive
        rw [rotated_archive hrename hg]
        simp only [text, hinfix, true_and, Bool.true_eq_false, false_and, or_false]
        exact or_comm
    | false =>
        rw [rotated_archive_of_failed hrename, opened_archive]
        cases os.remove with
        | true =>
            -- Nothing is left of the archive, so it has the bytes of an empty file only.
            simp only [if_true, text, List.infix_nil, Bool.true_eq_false, false_and, and_false,
              or_false, Bool.false_eq_true, false_or]
            refine ⟨fun hkept => hkept.elim id ?_, .inl⟩
            intro hempty
            rw [hempty]
            exact List.nil_infix
        | false => simp
  · rw [turned, if_neg hdue] at hput harchive
    rw [infix_put_opened hlive hput, harchive, opened_archive, and_iff_right (absurd · hdue),
      forall_prop_of_true hdue]

/-- A new writer over a log that has reached its limit. -/
def overLimit : LogState := ⟨.new (ascii "log") 1, ⟨some ⟨ascii "x", by decide⟩, none⟩⟩

/-- A sample of the temperature. -/
def someSample : Sample := ⟨1, 2, sampleTemp, 25000, 0, 0⟩

theorem live_kept_iff_overLimit : ∃ f t, overLimit.disk.live = some f ∧
    overLimit.writeSample (.granting true) someSample = some (.ok (), t) ∧ overLimit.Due ∧
    Kept f t.disk := by
  obtain ⟨t, ht⟩ : ∃ t, overLimit.writeSample (.granting true) someSample = some (.ok (), t) :=
    ⟨_, rfl⟩
  have hdue : overLimit.Due := by decide
  refine ⟨_, t, rfl, ht, hdue, (live_kept_iff rfl ht).mpr ⟨fun _ => .inl ⟨rfl, ?_⟩, absurd hdue⟩⟩
  rintro ⟨hopen, -⟩
  cases hopen

/-- Behind a rotation, while somebody else has put an "x" into the new file. -/
def grownLog : LogState :=
  ⟨{ LogWriter.new (ascii "log") 100 with isOpen := true, mode := .trunc 0, linked := true },
    ⟨some ⟨ascii "x", by decide⟩, none⟩⟩

-- The line lies over it, although nothing is rotated.
example : ¬ grownLog.Due ∧ ∃ f t, grownLog.disk.live = some f ∧
    grownLog.writeSample (.granting true) someSample = some (.ok (), t) ∧ ¬ Kept f t.disk := by
  refine ⟨by decide, _, _, rfl, rfl, ?_⟩
  unfold Kept
  decide

/-- **A rotation whose rename fails** empties the live file, and the write returns. -/
theorem failed_rename_destroys : ∃ f t, overLimit.disk.live = some f ∧
    overLimit.writeSample { Os.granting true with rename := false } someSample =
      some (.ok (), t) ∧ ¬ Kept f t.disk := by
  refine ⟨_, _, rfl, rfl, ?_⟩
  unfold Kept
  decide

end Rotation

end SensorHub.Storage
