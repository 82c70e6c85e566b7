import SensorHub.Codec.Line
import SensorHub.Uapi.Text

set_option autoImplicit false

/-!
# The subscriber

The reading loop of `userspace/tools/sensor_subscribe.cpp`. The stream of the broadcaster comes in
pieces; a line is printed as soon as its end has come, until `count` lines were printed.

* `Block`, `ReadResult`, `Subscriber`; `printLines`, `feed`, `subscribe`.
* `Carried`, `carried_printLines`: what was read is what was printed and what is pending.
* **`printed_eq_take`**: the first `count` lines of what was read, however it was cut;
  **`printed_prefix`**.
* `stopped_subscribe`, **`subscribe_prints_first_lines`**: a stream that ends.
-/

namespace SensorHub

open LineFrame

/-- What one `read` into the buffer of 1024 bytes can deliver. -/
structure Block where
  bytes : Bytes
  ne_nil : bytes ≠ []
  length_le : bytes.length ≤ 1024

inductive ReadResult
  | data (block : Block)
  /-- `read` returns 0. -/
  | eof
  /-- `read` fails. -/
  | fail

/-- The variables of the loop, and what was printed. -/
structure Subscriber where
  pending : Bytes
  lines : ℕ
  printed : List Bytes
  deriving DecidableEq

/-- `std::string pending; int lines = 0;` -/
def Subscriber.init : Subscriber := ⟨[], 0, []⟩

namespace Subscriber

/-- The inner loop. Each round takes a byte or more from `pending`, so `pending.size()` rounds are
enough. -/
def printLines (count : ℤ) : ℕ → Subscriber → Subscriber
  | 0, s => s
  | rounds + 1, s =>
      match find newline s.pending with
      | none => s
      | some pos =>
          if s.lines < count then
            printLines count rounds
              ⟨s.pending.drop (pos + 1), s.lines + 1, s.printed ++ [s.pending.take pos]⟩
          else s

/-- The body of the outer loop behind `read`. -/
def feed (count : ℤ) (s : Subscriber) (block : Bytes) : Subscriber :=
  let s := { s with pending := s.pending ++ block }
  printLines count s.pending.length s

/-- `return lines == count ? 0 : 1;` -/
def exitCode (count : ℤ) (s : Subscriber) : ℕ := if s.lines = count then 0 else 1

/-- The outer loop, and what `main` returns; `none` while it waits in `read`. -/
def subscribe (count : ℤ) (s : Subscriber) : List ReadResult → Subscriber × Option ℕ
  | [] => (s, if s.lines < count then none else some (s.exitCode count))
  | result :: rest =>
      if s.lines < count then
        match result with
        | .data block => subscribe count (s.feed count block.bytes) rest
        | .eof => (s, some (s.exitCode count))
        | .fail => (s, some 1)
      else (s, some (s.exitCode count))

end Subscriber

/-- The bytes that arrive. -/
def ReadResult.bytes : ReadResult → Bytes
  | .data block => block.bytes
  | _ => []

namespace Subscriber

variable {count : ℤ} {s : Subscriber} {stream : Bytes}

/-- `stream` was read: its beginning was printed, line by line, and the rest is pending. -/
structure Carried (count : ℤ) (stream : Bytes) (s : Subscriber) : Prop where
  stream_eq : stream = s.printed.flatMap (· ++ [newline]) ++ s.pending
  printed : ∀ line ∈ s.printed, newline ∉ line
  lines : s.lines = s.printed.length
  le : (s.lines : ℤ) ≤ max count 0

/-- Nothing more can be printed. -/
def Done (count : ℤ) (s : Subscriber) : Prop := (s.lines : ℤ) < count → newline ∉ s.pending

theorem carried_init (count : ℤ) : Carried count [] init :=
  ⟨rfl, nofun, rfl, le_max_right _ _⟩

theorem carried_print {pos : ℕ} (hs : Carried count stream s)
    (hpos : find newline s.pending = some pos) (hlt : (s.lines : ℤ) < count) :
    Carried count stream
      ⟨s.pending.drop (pos + 1), s.lines + 1, s.printed ++ [s.pending.take pos]⟩ := by
  obtain ⟨hsplit, hno, -⟩ := find_eq_some hpos
  refine ⟨?_, ?_, ?_, ?_⟩
  · rw [hs.stream_eq]
    conv_lhs => rw [hsplit]
    simp
  · intro line hline
    rcases List.mem_append.mp hline with hline | hline
    · exact hs.printed line hline
    · rw [List.mem_singleton.mp hline]
      exact hno
  · simp [hs.lines]
  · simp only [Nat.cast_add, Nat.cast_one]
    omega

/-- **The inner loop prints what can be printed.** -/
theorem carried_printLines {rounds : ℕ} (hs : Carried count stream s)
    (hrounds : s.pending.length ≤ rounds) :
    Carried count stream (printLines count rounds s) ∧ Done count (printLines count rounds s) := by
  induction rounds generalizing s with
  | zero =>
      have hnil := List.eq_nil_of_length_eq_zero (Nat.le_zero.mp hrounds)
      refine ⟨hs, fun _ => ?_⟩
      rw [printLines, hnil]
      exact List.not_mem_nil
  | succ rounds ih =>
      unfold printLines
      split
      · rename_i hnone
        exact ⟨hs, fun _ => find_eq_none hnone⟩
      · rename_i pos hpos
        split_ifs with hlt
        · refine ih (carried_print hs hpos hlt) ?_
          have hlen := (find_eq_some hpos).2.2
          rw [List.length_drop]
          omega
        · exact ⟨hs, fun h => absurd h hlt⟩

theorem carried_feed (hs : Carried count stream s) (block : Bytes) :
    Carried count (stream ++ block) (s.feed count block) ∧ Done count (s.feed count block) := by
  refine carried_printLines ⟨?_, hs.printed, hs.lines, hs.le⟩ le_rfl
  rw [hs.stream_eq, List.append_assoc]

/-- What was printed are the first `count` lines of what was read. -/
theorem Carried.printed_eq_take (hs : Carried count stream s) (hdone : Done count s) :
    s.printed = (complete newline stream).take count.toNat := by
  have hcomplete : complete newline stream = s.printed ++ complete newline s.pending := by
    rw [hs.stream_eq, complete_flatMap hs.printed]
  have hlines := hs.lines
  have hle := hs.le
  by_cases hlt : (s.lines : ℤ) < count
  · rw [hcomplete, complete_of_notMem (hdone hlt), List.append_nil, List.take_of_length_le]
    omega
  · rw [hcomplete, List.take_append_of_le_length (by omega), List.take_of_length_le (by omega)]

theorem carried_subscribe (hs : Carried count stream s) (hdone : Done count s)
    (reads : List ReadResult) :
    ∃ got, got <+: stream ++ reads.flatMap ReadResult.bytes ∧
      Carried count got (subscribe count s reads).1 ∧ Done count (subscribe count s reads).1 := by
  induction reads generalizing s stream with
  | nil => exact ⟨stream, by simp, hs, hdone⟩
  | cons result rest ih =>
      have hstop : stream <+: stream ++ (result :: rest).flatMap ReadResult.bytes :=
        List.prefix_append _ _
      unfold subscribe
      split_ifs with hlt
      · cases result with
        | data block =>
            obtain ⟨hfeed, hfeed'⟩ := carried_feed hs block.bytes
            obtain ⟨got, hgot, hcarried⟩ := ih hfeed hfeed'
            refine ⟨got, ?_, hcarried⟩
            rwa [List.append_assoc] at hgot
        | eof => exact ⟨stream, hstop, hs, hdone⟩
        | fail => exact ⟨stream, hstop, hs, hdone⟩
      · exact ⟨stream, hstop, hs, hdone⟩

/-- **Whatever is printed is a line of the stream.** -/
theorem printed_prefix (count : ℤ) (reads : List ReadResult) :
    (subscribe count init reads).1.printed <+:
      complete newline (reads.flatMap ReadResult.bytes) := by
  obtain ⟨got, hgot, hcarried, hdone⟩ := carried_subscribe (carried_init count)
    (fun _ => List.not_mem_nil) reads
  rw [hcarried.printed_eq_take hdone]
  exact (List.take_prefix _ _).trans (complete_mono hgot)

/-! ### A stream that ends -/

/-- The stream ends: all of it was read, or `count` lines were printed before. -/
theorem stopped_subscribe (hs : Carried count stream s) (hdone : Done count s)
    (blocks : List Block) :
    ∃ got t, subscribe count s (blocks.map .data ++ [.eof]) = (t, some (t.exitCode count)) ∧
      got <+: stream ++ blocks.flatMap Block.bytes ∧ Carried count got t ∧ Done count t ∧
      ((t.lines : ℤ) < count → got = stream ++ blocks.flatMap Block.bytes) := by
  induction blocks generalizing s stream with
  | nil =>
      refine ⟨stream, s, ?_, by simp, hs, hdone, fun _ => by simp⟩
      rw [List.map_nil, List.nil_append, subscribe]
      split_ifs <;> rfl
  | cons block blocks ih =>
      by_cases hlt : (s.lines : ℤ) < count
      · obtain ⟨hfeed, hfeed'⟩ := carried_feed hs block.bytes
        obtain ⟨got, t, ht, hgot, hrest⟩ := ih hfeed hfeed'
        rw [List.append_assoc, ← List.flatMap_cons] at hgot hrest
        refine ⟨got, t, ?_, hgot, hrest⟩
        rw [List.map_cons, List.cons_append, subscribe, if_pos hlt, ht]
      · refine ⟨stream, s, ?_, List.prefix_append _ _, hs, hdone, fun h => absurd h hlt⟩
        rw [List.map_cons, List.cons_append, subscribe, if_neg hlt]

/-- **The subscriber prints the first lines.** For every stream, cut into blocks in any way and
followed by the end of the file, and every `count`: the subscriber prints the first `count` lines of
the stream, or all it has, each as it is and none that has not ended, and returns 0 if there were
`count` lines, otherwise 1. -/
theorem subscribe_prints_first_lines (count : ℕ) (blocks : List Block) :
    let stream := blocks.flatMap Block.bytes
    let out := subscribe count init (blocks.map .data ++ [.eof])
    out.1.printed = (complete newline stream).take count ∧
    out.1.printed.length = min count (stream.count newline) ∧
    (∀ line ∈ out.1.printed, newline ∉ line) ∧
    out.1.printed.flatMap (· ++ [newline]) <+: stream ∧
    out.2 = some (if count ≤ stream.count newline then 0 else 1) := by
  intro stream out
  obtain ⟨got, t, ht, hgot, hcarried, hdone, hall⟩ := stopped_subscribe (carried_init count)
    (fun _ => List.not_mem_nil) blocks
  rw [List.nil_append] at hgot hall
  have hout : out = (t, some (t.exitCode count)) := ht
  have hlines := hcarried.lines
  have htake : t.printed = (complete newline stream).take count := by
    have hprinted := hcarried.printed_eq_take hdone
    rw [Int.toNat_natCast] at hprinted
    by_cases hlt : (t.lines : ℤ) < count
    · rw [hprinted, hall hlt]
    · -- `count` lines were printed, and they are the first ones of the whole stream too
      have hfirst : t.printed <+: complete newline stream := by
        rw [hprinted]
        exact (List.take_prefix _ _).trans (complete_mono hgot)
      have hlength : t.printed.length = count := by
        have hle := hcarried.le
        omega
      rw [← hlength]
      exact List.prefix_iff_eq_take.mp hfirst
  have hlength : t.printed.length = min count (stream.count newline) := by
    rw [htake, List.length_take, length_complete]
  rw [hout]
  refine ⟨htake, hlength, hcarried.printed, ?_, ?_⟩
  · have hstream : t.printed.flatMap (· ++ [newline]) <+: got :=
      ⟨t.pending, hcarried.stream_eq.symm⟩
    exact hstream.trans hgot
  · simp only [exitCode, hlines, hlength]
    congr 1
    split_ifs <;> omega

end Subscriber

end SensorHub
