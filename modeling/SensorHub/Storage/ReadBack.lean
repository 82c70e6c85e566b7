import SensorHub.Codec.Line
import SensorHub.Storage.Rotation

set_option autoImplicit false

/-!
# Reading the log back

The log and its archive as a record of samples: after any number of accepted writes, on files that
held nothing but whole lines, the lines of the archive and of the log together are the lines of the
latest samples, and each of them is read back as its sample.

* `readBack`: the lines of the archive and of the log, read back.
* `Holding`: the files hold the lines of some samples, and nothing else.
* **`holding_run`**: so they do after a run; **`readBack_eq`**: and are read back as those samples.
-/

namespace SensorHub.Storage

open LineFrame Trans

/-- The lines of `path_ + ".1"` and of `path_`, each read back as a sample. -/
def readBack (disk : Disk) : List (Option Sample) :=
  (complete newline (text disk.archive ++ text disk.live)).map sampleOfLine

/-- The type has a name of its own. -/
def Known (x : Sample) : Prop := x.type ∈ [sampleTemp, sampleAccel, sampleGyro, sampleUser]

instance (x : Sample) : Decidable (Known x) := inferInstanceAs (Decidable (_ ∈ _))

/-- The archive holds the lines of `older` and the log those of `newer`. -/
structure Holding (disk : Disk) (older newer : List Sample) : Prop where
  archive : text disk.archive = older.flatMap LogState.payload
  live : text disk.live = newer.flatMap LogState.payload

variable {disk : Disk} {older newer samples : List Sample} {path : Bytes} {rotateBytes : UInt64}
  {s : LogState}

/-- **Files of whole lines are read back.** -/
theorem readBack_eq (h : Holding disk older newer) (hknown : ∀ x ∈ older ++ newer, Known x) :
    readBack disk = (older ++ newer).map some := by
  have htext : text disk.archive ++ text disk.live =
      ((older ++ newer).map sampleToLine).flatMap (· ++ [newline]) ++ [] := by
    rw [h.archive, h.live, List.flatMap_map, List.append_nil, ← List.flatMap_append]
    rfl
  have hlines : ∀ line ∈ (older ++ newer).map sampleToLine, newline ∉ line := by
    intro line hl
    obtain ⟨x, -, rfl⟩ := List.mem_map.mp hl
    exact newline_notMem_sampleToLine x
  rw [readBack, htext, complete_flatMap hlines, complete_of_notMem List.not_mem_nil,
    List.append_nil, List.map_map]
  refine List.map_congr_left fun x hx => ?_
  rw [Function.comp_apply, sampleOfLine_sampleToLine, typeOfName_sampleTypeName (hknown x hx)]

/-- The pieces of the files, as lists of samples. -/
def pieces (older newer samples : List Sample) : List (List Sample) :=
  [older, newer] ++ samples.map ([·])

theorem flatten_pieces (older newer samples : List Sample) :
    (pieces older newer samples).flatten = older ++ newer ++ samples := by
  have hone : (samples.map ([·])).flatten = samples := by
    rw [← List.flatMap_def]
    exact List.flatMap_singleton' samples
  rw [pieces, List.flatten_append, hone]
  simp

theorem map_pieces (h : Holding disk older newer) (samples : List Sample) :
    (pieces older newer samples).map (List.flatMap LogState.payload) =
      [text disk.archive, text disk.live] ++ samples.map LogState.payload := by
  rw [pieces, List.map_append, h.archive, h.live, List.map_map]
  refine congrArg _ (List.map_congr_left fun x _ => ?_)
  simp

theorem flatten_map_flatMap (ls : List (List Sample)) :
    (ls.map (List.flatMap LogState.payload)).flatten = ls.flatten.flatMap LogState.payload := by
  induction ls with
  | nil => rfl
  | cons l ls ih => simp [ih]

/-- **After a run** on such files they hold the lines of the latest samples; all of them, if the log
is not rotated. -/
theorem holding_run (hdisk : Holding disk older newer)
    (h : run attemptStep ⟨.new path rotateBytes, disk⟩ (samples.map .accepted) = some s) :
    ∃ older' newer', Holding s.disk older' newer' ∧
      older' ++ newer' <:+ older ++ newer ++ samples ∧
      (rotateBytes = 0 → older' ++ newer' = older ++ newer ++ samples) := by
  obtain ⟨-, -, hrep⟩ := run_greedy h
  by_cases hzero : rotateBytes = 0
  · have hall : greedy rotateBytes disk samples =
        ⟨[text disk.archive], [text disk.live] ++ samples.map LogState.payload⟩ := by
      rw [greedy, hzero]
      exact Segments.pushAll_unlimited _ _
    rw [hall] at hrep
    refine ⟨older, newer ++ samples, ⟨?_, ?_⟩, ?_, fun _ => by rw [List.append_assoc]⟩
    · rw [hrep.archive, List.flatten_singleton, hdisk.archive]
    · rw [hrep.live, List.flatten_append, List.flatten_singleton, hdisk.live, List.flatMap_append,
        ← List.flatMap_def]
    · rw [List.append_assoc]
  · -- the pieces that are kept are lists of samples, too
    obtain ⟨lost, hlost⟩ := @Segments.pushAll_suffix _ List.length rotateBytes.toNat
      ⟨[text disk.archive], [text disk.live]⟩ (samples.map LogState.payload)
    change lost ++ (_ ++ _) = [text disk.archive, text disk.live] ++ _ at hlost
    rw [← map_pieces hdisk, eq_comm, List.map_eq_append_iff] at hlost
    obtain ⟨given, rest, hsplit, -, hrest⟩ := hlost
    obtain ⟨archived, live, rfl, harchived, hlive⟩ := List.map_eq_append_iff.mp hrest
    refine ⟨archived.flatten, live.flatten, ⟨?_, ?_⟩, ?_, fun h => absurd h hzero⟩
    · rw [hrep.archive, greedy, ← harchived, flatten_map_flatMap]
    · rw [hrep.live, greedy, ← hlive, flatten_map_flatMap]
    · refine ⟨given.flatten, ?_⟩
      rw [← flatten_pieces, hsplit, List.flatten_append, List.flatten_append]

/-- With every call granted, `write_sample` does not throw. -/
theorem writeSample_granting_ne_error (s t : LogState) (sample : Sample) (write : Bool)
    (e : LogError) : s.writeSample (.granting write) sample ≠ some (.error e, t) := by
  intro h
  unfold LogState.writeSample at h
  have hopen : ∀ u, s.openIfNeeded (.granting write) ≠ (.error e, u) := by
    intro u hu
    unfold LogState.openIfNeeded at hu
    by_cases hisOpen : s.writer.isOpen = true
    · rw [if_pos hisOpen] at hu
      cases hu
    · simp [hisOpen, Os.granting] at hu
  cases hs : s.openIfNeeded (.granting write) with
  | mk result u =>
      rw [hs] at h
      cases result with
      | error e' =>
          cases h
          exact hopen t hs
      | ok =>
          cases hu : u.rotateIfNeeded (.granting write) with
          | mk result v =>
              simp only [hu] at h
              cases result with
              | error e' =>
                  unfold LogState.rotateIfNeeded at hu
                  by_cases hlimit : u.writer.rotateBytes = 0 ∨
                      u.writer.currentBytes < u.writer.rotateBytes
                  · rw [if_pos hlimit] at hu
                    cases hu
                  · simp [hlimit, Os.granting] at hu
              | ok =>
                  obtain ⟨w, -, hw⟩ := Option.map_eq_some_iff.mp h
                  cases hw

/-- The line that was written last is the last one of the log. -/
theorem last_line_run {sample : Sample} (h : run attemptStep ⟨.new path rotateBytes, disk⟩
    ((samples ++ [sample]).map .accepted) = some s) :
    LogState.payload sample <:+ text s.disk.live := by
  rw [List.map_append, List.map_singleton, run_snoc_eq_some] at h
  obtain ⟨u, hu, h⟩ := h
  obtain ⟨hsound, -, -⟩ := run_greedy hu
  rw [(sound_accepted hsound h).2.live]
  exact List.suffix_append _ _

end SensorHub.Storage
