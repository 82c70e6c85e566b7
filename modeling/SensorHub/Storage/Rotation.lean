import SensorHub.Storage.LogWriter
import SensorHub.Codec.Segments
import SensorHub.Trans.Run

set_option autoImplicit false

/-!
# Sequences of writes

One `LogWriter` writes samples one after the other, and nobody else touches its files. Every call
succeeds, but the operating system may refuse the write of a line.

* `Attempt`, `attemptStep`, `Sound`; **`sound_accepted`**, **`miscount_refused`**: what an accepted
  and what a refused line does to a writer whose count is right.
* `greedy`, `Represents`, **`rotation_greedy`**: with all lines accepted the two files are the
  segments of `Segments`, cut between lines.
* `Goes`, **`goes_iff_accepted`**: lines are appended and the count is right if and only if no line
  is refused; **`refusal_loses_later_lines`**.
-/

namespace SensorHub.Storage

open Trans LogState

/-- A call of `write_sample` and what the operating system says to the line. -/
structure Attempt where
  sample : Sample
  accept : Bool

/-- An accepted line. -/
def Attempt.accepted (sample : Sample) : Attempt := ⟨sample, true⟩

/-- One call. -/
def attemptStep (s : LogState) (l : Attempt) : Option LogState :=
  (s.writeSample (.granting l.accept) l.sample).map Prod.snd

/-- The size of the live file. -/
def liveSize (s : LogState) : ℕ := (text s.disk.live).length

/-- An open stream is fit for use, on a file, whose bytes are counted, and appends to it. -/
structure Sound (s : LogState) : Prop where
  failed : s.writer.isOpen = true → s.writer.failed = false
  file : s.writer.isOpen = true → ∃ f, s.disk.live = some f
  counted : s.writer.isOpen = true → s.writer.currentBytes.toNat = liveSize s
  atEnd : s.writer.isOpen = true → AtEnd s.writer (liveSize s)

theorem sound_new (path : Bytes) (rotateBytes : UInt64) (disk : Disk) :
    Sound ⟨.new path rotateBytes, disk⟩ where
  failed h := by cases h
  file h := by cases h
  counted h := by cases h
  atEnd h := by cases h

variable {s t u : LogState} {l : Attempt} {sample : Sample}

theorem length_text_lt (f : Option LogFile) : (text f).length < 2 ^ 63 := by
  cases f with
  | none => decide
  | some f => exact f.fits

/-- **The opened stream**: fit for use, on a file, whose bytes are counted, and at its end. -/
theorem Sound.opened (h : Sound s) : s.opened.writer.isOpen = true ∧
    s.opened.writer.failed = false ∧ (∃ f, s.opened.disk.live = some f) ∧
    s.opened.writer.currentBytes.toNat = liveSize s ∧ AtEnd s.opened.writer (liveSize s) := by
  unfold LogState.opened
  by_cases hopen : s.writer.isOpen = true
  · rw [if_pos hopen]
    exact ⟨hopen, h.failed hopen, h.file hopen, h.counted hopen, h.atEnd hopen⟩
  · rw [if_neg hopen]
    refine ⟨rfl, rfl, ⟨_, rfl⟩, ?_, rfl, rfl, Or.inl rfl⟩
    have hlt := length_text_lt s.disk.live
    exact UInt64.toNat_ofNat_of_lt' (by unfold UInt64.size; omega)

/-- The live segment has reached the limit. -/
def Full (s : LogState) : Prop :=
  0 < s.writer.rotateBytes.toNat ∧ s.writer.rotateBytes.toNat ≤ liveSize s

instance (s : LogState) : Decidable (Full s) := inferInstanceAs (Decidable (_ ∧ _))

theorem Sound.due_iff (h : Sound s) : s.Due ↔ Full s := by
  have hcount : s.countedBytes.toNat = liveSize s := by
    rw [← opened_currentBytes]
    exact h.opened.2.2.2.1
  rw [Due, Full, UInt64.le_iff_toNat_le, hcount, ne_eq, ← UInt64.toNat_inj, UInt64.toNat_zero,
    Nat.pos_iff_ne_zero]

/-- **With all other calls successful** a write turns the files over, puts its line and counts
it. -/
theorem attemptStep_eq (s : LogState) (l : Attempt) : attemptStep s l =
    ((s.turned (.granting l.accept)).put (.granting l.accept) (payload l.sample)).map
      (counted l.sample) := by
  have hopen : s.openIfNeeded (.granting l.accept) = (.ok (), s.opened) := by
    unfold openIfNeeded LogState.opened
    split_ifs <;> simp_all [Os.granting]
  have hrotate : s.opened.rotateIfNeeded (.granting l.accept) =
      (.ok (), s.turned (.granting l.accept)) := by
    unfold rotateIfNeeded
    rw [opened_rotateBytes, opened_currentBytes]
    unfold turned
    by_cases hdue : s.Due
    · rw [if_neg fun hnot => s.not_due_iff.mpr hnot hdue, if_pos hdue]
      rfl
    · rw [if_pos (s.not_due_iff.mp hdue), if_neg hdue]
  simp only [attemptStep, writeSample, hopen, hrotate, Option.map_map]
  rfl

/-- Before the line is put. -/
structure Turned (s v : LogState) : Prop where
  isOpen : v.writer.isOpen = true
  failed : v.writer.failed = false
  file : ∃ f, v.disk.live = some f
  counted : v.writer.currentBytes.toNat = liveSize v
  atEnd : AtEnd v.writer (liveSize v)
  rotateBytes : v.writer.rotateBytes = s.writer.rotateBytes
  live : text v.disk.live = if Full s then [] else text s.disk.live
  archive : v.disk.archive = if Full s then s.disk.live else s.disk.archive

/-- **A live segment that is full becomes the archive**, and an empty one is begun. -/
theorem Sound.turned (h : Sound s) (write : Bool) : Turned s (s.turned (.granting write)) := by
  obtain ⟨hopen, hfailed, hfile, hcount, hend⟩ := h.opened
  unfold LogState.turned
  by_cases hfull : Full s
  · rw [if_pos (h.due_iff.mpr hfull)]
    obtain ⟨f, hf⟩ : ∃ f, s.disk.live = some f := by
      cases hlive : s.disk.live with
      | some f => exact ⟨f, rfl⟩
      | none =>
          obtain ⟨hpos, hle⟩ := hfull
          rw [liveSize, hlive] at hle
          exact absurd (hpos.trans_le hle) (lt_irrefl 0)
    have hclosed := close_of_buffer_nil (.granting write) hend.buffer
    refine ⟨rfl, rfl, ⟨_, rfl⟩, rfl, rotated_atEnd _ _, ?_, ?_, ?_⟩
    · rw [rotated, hclosed]
      exact opened_rotateBytes s
    · rw [if_pos hfull]
      rfl
    · rw [if_pos hfull, hf]
      refine rotated_archive rfl ?_
      rw [hclosed]
      exact opened_live hf
  · rw [if_neg fun hdue => hfull (h.due_iff.mp hdue)]
    have hsize : liveSize s.opened = liveSize s := by
      rw [liveSize, liveSize, text_opened]
    refine ⟨hopen, hfailed, hfile, ?_, ?_, opened_rotateBytes s, ?_, ?_⟩
    · rw [hcount, hsize]
    · rw [hsize]
      exact hend
    · rw [if_neg hfull, text_opened]
    · rw [if_neg hfull, opened_archive]

theorem length_payload (sample : Sample) :
    (payload sample).length = (sampleToLine sample).length + 1 := by
  rw [payload, List.length_append, List.length_singleton]

theorem toNat_counted (sample : Sample) (s : LogState) :
    (s.counted sample).writer.currentBytes.toNat =
      (s.writer.currentBytes.toNat + (payload sample).length) % 2 ^ 64 := by
  rw [LogState.counted, UInt64.toNat_add, UInt64.toNat_ofNat', length_payload, Nat.add_mod_mod]

/-- One accepted line, from `s` to `t`. -/
structure Appended (s : LogState) (sample : Sample) (t : LogState) : Prop where
  isOpen : t.writer.isOpen = true
  rotateBytes : t.writer.rotateBytes = s.writer.rotateBytes
  live : text t.disk.live = (if Full s then [] else text s.disk.live) ++ payload sample
  archive : t.disk.archive = if Full s then s.disk.live else s.disk.archive

theorem liveSize_eq {f : LogFile} (h : s.disk.live = some f) : liveSize s = f.size := by
  rw [liveSize, h]
  rfl

theorem LogState.AtEnd.counted (h : AtEnd s.writer (liveSize s)) (sample : Sample) :
    AtEnd (s.counted sample).writer (liveSize (s.counted sample)) := by
  have hsize : liveSize (s.counted sample) = liveSize s := by
    rw [liveSize, counted_disk, ← liveSize]
  rw [hsize, LogState.counted]
  exact ⟨h.linked, h.buffer, h.mode⟩

/-- **An accepted line** is appended, and the count stays right. -/
theorem sound_accepted (hs : Sound s) (h : attemptStep s (.accepted sample) = some t) :
    Sound t ∧ Appended s sample t := by
  have hturned := hs.turned true
  obtain ⟨f, hf⟩ := hturned.file
  simp only [attemptStep_eq, Attempt.accepted] at h
  obtain ⟨u, hu, rfl⟩ := Option.map_eq_some_iff.mp h
  have hend : AtEnd (s.turned (.granting true)).writer f.size := by
    rw [← liveSize_eq hf]
    exact hturned.atEnd
  obtain ⟨hwriter, g, hg, -⟩ := put_accepted hturned.failed rfl hf hend hu
  have htext := text_put hturned.failed rfl hf hend hu
  have hsize : liveSize u = liveSize (s.turned (.granting true)) + (payload sample).length := by
    rw [liveSize, htext, List.length_append]
    rfl
  have hisOpen : u.writer.isOpen = true :=
    (congrArg LogWriter.isOpen hwriter).trans hturned.isOpen
  have hfailed : u.writer.failed = false :=
    (congrArg LogWriter.failed hwriter).trans hturned.failed
  have hrotate : u.writer.rotateBytes = s.writer.rotateBytes :=
    (congrArg LogWriter.rotateBytes hwriter).trans hturned.rotateBytes
  have hgrown : AtEnd u.writer (liveSize u) := by
    rw [hwriter, hsize]
    exact hturned.atEnd.advance _
  refine ⟨⟨fun _ => ?_, fun _ => ⟨g, hg⟩, fun _ => ?_, fun _ => hgrown.counted sample⟩,
    ?_, ?_, ?_, ?_⟩
  · rw [LogState.counted]
    exact hfailed
  · have hlt : liveSize u < 2 ^ 63 := length_text_lt u.disk.live
    have hcount := hturned.counted
    have hcurrent := (put_frame hu).2
    have hlength := length_payload sample
    rw [toNat_counted, hcurrent, liveSize, counted_disk, ← liveSize]
    omega
  · rw [LogState.counted]
    exact hisOpen
  · rw [LogState.counted]
    exact hrotate
  · rw [counted_disk, htext, hturned.live]
  · rw [counted_disk, (put_frame hu).1]
    exact hturned.archive

/-- A line that still fits in the file can be accepted. -/
theorem attemptStep_accepted_isSome (hs : Sound s)
    (hfits : liveSize s + (payload sample).length < 2 ^ 63) :
    (attemptStep s (.accepted sample)).isSome := by
  have hturned := hs.turned true
  obtain ⟨f, hf⟩ := hturned.file
  have hend := hturned.atEnd
  rw [liveSize_eq hf] at hend
  have hle : f.content.length ≤ liveSize s := by
    have htext : text (s.turned (.granting true)).disk.live = f.content := by
      rw [hf]
      rfl
    rw [← htext, hturned.live]
    split_ifs
    · exact Nat.zero_le _
    · exact le_refl _
  have hlt : (f.content ++ payload sample).length < 2 ^ 63 := by
    rw [List.length_append]
    omega
  rw [attemptStep_eq, Option.isSome_map]
  exact put_isSome hf hend hlt

/-! ### Greedy segmentation -/

/-- The files as segments, whose pieces are the initial contents and the lines. -/
def greedy (rotateBytes : UInt64) (disk : Disk) (samples : List Sample) : Segments Bytes :=
  Segments.pushAll List.length rotateBytes.toNat ⟨[text disk.archive], [text disk.live]⟩
    (samples.map payload)

/-- The files hold the pieces of the segments. -/
structure Represents (seg : Segments Bytes) (s : LogState) : Prop where
  archive : text s.disk.archive = seg.archive.flatten
  live : text s.disk.live = seg.live.flatten

theorem Represents.full_iff {seg : Segments Bytes} (h : Represents seg s) :
    Full s ↔ 0 < s.writer.rotateBytes.toNat ∧
      s.writer.rotateBytes.toNat ≤ Segments.total List.length seg.live := by
  rw [Full, liveSize, h.live, Segments.total_length]

/-- **A write is a push.** -/
theorem Represents.push {seg : Segments Bytes} (h : Represents seg s) (ht : Appended s sample t) :
    Represents (Segments.push List.length s.writer.rotateBytes.toNat seg (payload sample)) t := by
  have hfull := h.full_iff
  unfold Segments.push
  split_ifs with hlimit
  · refine ⟨?_, ?_⟩
    · rw [ht.archive, if_pos (hfull.mpr hlimit)]
      exact h.live
    · rw [ht.live, if_pos (hfull.mpr hlimit)]
      simp
  · have hnot : ¬ Full s := fun hf => hlimit (hfull.mp hf)
    refine ⟨?_, ?_⟩
    · rw [ht.archive, if_neg hnot]
      exact h.archive
    · rw [ht.live, if_neg hnot, h.live]
      simp

section Greedy

variable {path : Bytes} {rotateBytes : UInt64} {disk : Disk} {samples : List Sample}

theorem greedy_snoc (samples : List Sample) (sample : Sample) :
    greedy rotateBytes disk (samples ++ [sample]) =
      Segments.push List.length rotateBytes.toNat (greedy rotateBytes disk samples)
        (payload sample) := by
  rw [greedy, List.map_append, Segments.pushAll_append]
  rfl

/-- **The files are the segments**, after any number of accepted lines. -/
theorem run_greedy (h : run attemptStep ⟨.new path rotateBytes, disk⟩
    (samples.map .accepted) = some s) :
    Sound s ∧ s.writer.rotateBytes = rotateBytes ∧
      Represents (greedy rotateBytes disk samples) s := by
  induction samples using List.reverseRecOn generalizing s with
  | nil =>
      cases h
      exact ⟨sound_new path rotateBytes disk, rfl, ⟨by simp [greedy, Segments.pushAll],
        by simp [greedy, Segments.pushAll]⟩⟩
  | append_singleton samples sample ih =>
      rw [List.map_append, List.map_singleton, run_snoc_eq_some] at h
      obtain ⟨u, hu, h⟩ := h
      obtain ⟨hsound, hrotate, hrep⟩ := ih hu
      obtain ⟨ht, happended⟩ := sound_accepted hsound h
      have hpush := hrep.push happended
      rw [hrotate, ← greedy_snoc] at hpush
      exact ⟨ht, happended.rotateBytes.trans hrotate, hpush⟩

/-- **Log rotation is greedy segmentation.** After any accepted lines, the last one of `sample`: the
last write made a full live segment the archive and began an empty one, and appended its line; the
count is the size of the live file; before the line that size was below the limit; each file is a
sequence of whole pieces, and together they are the latest ones; without a limit they are all.
Another line is accepted as long as the file can hold it. -/
theorem rotation_greedy {sample : Sample} (h : run attemptStep ⟨.new path rotateBytes, disk⟩
    ((samples ++ [sample]).map .accepted) = some t) :
    (∃ s, run attemptStep ⟨.new path rotateBytes, disk⟩ (samples.map .accepted) = some s ∧
      text t.disk.live = (if Full s then [] else text s.disk.live) ++ payload sample ∧
      t.disk.archive = if Full s then s.disk.live else s.disk.archive) ∧
    t.writer.currentBytes.toNat = (text t.disk.live).length ∧
    (0 < rotateBytes → ∃ before, text t.disk.live = before ++ payload sample ∧
      before.length < rotateBytes.toNat) ∧
    (∃ older archived live : List Bytes,
      [text disk.archive, text disk.live] ++ (samples ++ [sample]).map payload =
        older ++ archived ++ live ∧
      text t.disk.archive = archived.flatten ∧ text t.disk.live = live.flatten) ∧
    text t.disk.archive ++ text t.disk.live <:+
      text disk.archive ++ text disk.live ++ ((samples ++ [sample]).map payload).flatten ∧
    (rotateBytes = 0 → text t.disk.archive = text disk.archive ∧
      text t.disk.live = text disk.live ++ ((samples ++ [sample]).map payload).flatten) ∧
    (∀ next, (text t.disk.live).length + (payload next).length < 2 ^ 63 →
      (attemptStep t (.accepted next)).isSome) := by
  obtain ⟨htsound, -, hrep⟩ := run_greedy h
  rw [List.map_append, List.map_singleton, run_snoc_eq_some] at h
  obtain ⟨s, hs, h⟩ := h
  obtain ⟨hsound, hrotate, hreps⟩ := run_greedy hs
  have happended := (sound_accepted hsound h).2
  obtain ⟨older, holder⟩ := @Segments.pushAll_suffix _ List.length rotateBytes.toNat
    ⟨[text disk.archive], [text disk.live]⟩ ((samples ++ [sample]).map payload)
  refine ⟨⟨s, hs, happended.live, happended.archive⟩, htsound.counted happended.isOpen, ?_, ?_, ?_,
    ?_, fun next => attemptStep_accepted_isSome htsound⟩
  · intro hpos
    refine ⟨_, happended.live, ?_⟩
    have hlimit : 0 < rotateBytes.toNat := UInt64.lt_iff_toNat_lt.mp hpos
    split_ifs with hfull
    · exact hlimit
    · rw [Full, hrotate, not_and, not_le] at hfull
      exact hfull hlimit
  · exact ⟨older, _, _, by rw [List.append_assoc]; exact holder.symm, hrep.archive, hrep.live⟩
  · rw [hrep.archive, hrep.live, ← List.flatten_append]
    refine ⟨older.flatten, ?_⟩
    rw [← List.flatten_append]
    refine (congrArg List.flatten holder).trans ?_
    simp [Segments.kept]
  · intro hzero
    have hunlimited : greedy rotateBytes disk (samples ++ [sample]) =
        ⟨[text disk.archive], [text disk.live] ++ (samples ++ [sample]).map payload⟩ := by
      rw [greedy, hzero]
      exact Segments.pushAll_unlimited _ _
    rw [hunlimited] at hrep
    refine ⟨?_, ?_⟩
    · rw [hrep.archive, List.flatten_singleton]
    · rw [hrep.live, List.flatten_append, List.flatten_singleton]

/-- Three lines over a limit of 50 bytes, with both files there before. -/
theorem rotation_greedy_three : ∃ t, run attemptStep
    ⟨.new (ascii "log") 50, ⟨some ⟨ascii "old", by decide⟩, some ⟨ascii "older", by decide⟩⟩⟩
    (([someSample, someSample] ++ [someSample]).map .accepted) = some t ∧
    t.writer.currentBytes.toNat = (text t.disk.live).length := by
  obtain ⟨t, ht⟩ : ∃ t, run attemptStep
      ⟨.new (ascii "log") 50, ⟨some ⟨ascii "old", by decide⟩, some ⟨ascii "older", by decide⟩⟩⟩
      (([someSample, someSample] ++ [someSample]).map .accepted) = some t := ⟨_, rfl⟩
  exact ⟨t, ht, (rotation_greedy ht).2.1⟩

end Greedy

/-! ### Lines that are refused -/

/-- **A refused line** is counted all the same. -/
theorem miscount_refused (hs : Sound s) (h : attemptStep s ⟨sample, false⟩ = some t) :
    t.writer.currentBytes.toNat ≠ liveSize t := by
  have hturned := hs.turned false
  simp only [attemptStep_eq] at h
  obtain ⟨u, hu, rfl⟩ := Option.map_eq_some_iff.mp h
  have htext := text_put_of_failed (.inr rfl) hu
  have hcurrent := (put_frame hu).2
  have hlt := length_text_lt u.disk.live
  have hcount := hturned.counted
  have hshort := length_sampleToLine_le sample
  rw [toNat_counted, length_payload, hcurrent, hcount, liveSize, liveSize, counted_disk, ← htext]
  omega

/-- What is expected of a write: a line that would be accepted is appended to the live file, or
begins the new one of a rotation, and the count is the size of the live file. -/
def Goes (s : LogState) (l : Attempt) : Prop :=
  ∀ t, attemptStep s l = some t →
    (l.accept = true →
      text t.disk.live = text s.disk.live ++ payload l.sample ∨
        text t.disk.live = payload l.sample ∧ t.disk.archive = s.disk.live) ∧
    t.writer.currentBytes.toNat = (text t.disk.live).length

theorem Sound.goes_iff (hs : Sound s) (h : attemptStep s l = some t) :
    (Goes s l ↔ l.accept = true) ∧ (l.accept = true → Sound t) := by
  obtain ⟨sample, accept⟩ := l
  cases accept with
  | true =>
      obtain ⟨ht, happended⟩ := sound_accepted hs h
      refine ⟨iff_of_true ?_ rfl, fun _ => ht⟩
      intro u hu
      rw [h] at hu
      cases hu
      refine ⟨fun _ => ?_, ht.counted happended.isOpen⟩
      by_cases hfull : Full s
      · exact .inr ⟨by rw [happended.live, if_pos hfull, List.nil_append],
          by rw [happended.archive, if_pos hfull]⟩
      · exact .inl (by rw [happended.live, if_neg hfull])
  | false =>
      refine ⟨iff_of_false ?_ Bool.false_ne_true, fun hyes => absurd hyes Bool.false_ne_true⟩
      intro hgoes
      exact miscount_refused hs h (hgoes t h).2

/-- **Writes go as they should if and only if none is refused.** One refused line already makes the
count wrong. -/
theorem goes_iff_accepted {path : Bytes} {rotateBytes : UInt64} {disk : Disk} {ls : List Attempt}
    (h : run attemptStep ⟨.new path rotateBytes, disk⟩ ls = some t) :
    AllSteps attemptStep Goes ⟨.new path rotateBytes, disk⟩ ls ↔ ∀ l ∈ ls, l.accept = true := by
  rw [← allSteps_iff_forall h]
  exact allSteps_congr (fun _ _ _ hs hstep => hs.goes_iff hstep)
    (sound_new path rotateBytes disk) h

theorem goes_iff_accepted_two : ∃ t, run attemptStep ⟨.new (ascii "log") 50, ⟨none, none⟩⟩
    [.accepted someSample, .accepted someSample] = some t ∧
    AllSteps attemptStep Goes ⟨.new (ascii "log") 50, ⟨none, none⟩⟩
      [.accepted someSample, .accepted someSample] := by
  obtain ⟨t, ht⟩ : ∃ t, run attemptStep ⟨.new (ascii "log") 50, ⟨none, none⟩⟩
      [.accepted someSample, .accepted someSample] = some t := ⟨_, rfl⟩
  exact ⟨t, ht, (goes_iff_accepted ht).mpr (by simp [Attempt.accepted])⟩

/-- **One refused line loses the next one too**: the stream stays failed. -/
theorem refusal_loses_later_lines : ∃ t,
    run attemptStep ⟨.new (ascii "log") 0, ⟨none, none⟩⟩
      [⟨someSample, false⟩, .accepted someSample] = some t ∧
    text t.disk.live = [] ∧ t.writer.currentBytes.toNat ≠ (text t.disk.live).length ∧
    ¬ AllSteps attemptStep Goes ⟨.new (ascii "log") 0, ⟨none, none⟩⟩
      [⟨someSample, false⟩, .accepted someSample] := by
  refine ⟨_, rfl, rfl, by decide, ?_⟩
  intro hall
  exact absurd (hall.1 _ rfl).2 (by decide)

end SensorHub.Storage
