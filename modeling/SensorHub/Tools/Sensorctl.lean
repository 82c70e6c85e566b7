import SensorHub.Uapi.Text
import Mathlib.Data.List.Basic

set_option autoImplicit false

/-!
# The arguments of `sensorctl`

The argument scan of `userspace/tools/sensorctl.cpp`. The command is the first argument, whatever it
is, until the scan meets a word that is neither an option nor a command it knows; the scan never
takes over a command it knows.

* `Invocation`, `scanArgs`, `parseArgs`, `Invocation.request`.
* `paths`, `unknownWords`, **`parseArgs_eq`**: the path given last, and the last word that is not a
  known command, or else the first argument.
* **`option_order`**: options may come first if and only if the command is not a known one;
  **`option_first_sent`**: `-c` itself is sent.
-/

namespace SensorHub

/-- `config_path` and `command`. -/
@[ext] structure Invocation where
  configPath : Bytes
  command : Bytes
  deriving DecidableEq

namespace Sensorctl

/-- `arg == "-c" || arg == "--config"`. -/
def isConfigOption (arg : Bytes) : Bool := arg = ascii "-c" || arg = ascii "--config"

/-- `arg` is one of the commands that the scan passes over. -/
def isKnown (arg : Bytes) : Bool :=
  arg = ascii "stats" || arg = ascii "reload" || arg = ascii "shutdown"

/-- The second branch of the scan. -/
def scanWord (s : Invocation) (arg : Bytes) : Invocation :=
  if isKnown arg then s else { s with command := arg }

/-- The loop over `argv`. An option without a value is a word. -/
def scanArgs (s : Invocation) : List Bytes → Invocation
  | [] => s
  | [arg] => scanWord s arg
  | arg :: next :: rest =>
      if isConfigOption arg then scanArgs { s with configPath := next } rest
      else scanArgs (scanWord s arg) (next :: rest)

/-- The path and the command for the arguments behind the name of the program. -/
def parseArgs (args : List Bytes) : Invocation :=
  scanArgs ⟨ascii "config/sensorhub.conf", args.headD (ascii "stats")⟩ args

end Sensorctl

/-- What is written to the control socket. -/
def Invocation.request (s : Invocation) : Bytes := s.command ++ ascii "\n"

namespace Sensorctl

/-! ### What the scan selects -/

/-- The values of the options. -/
def paths : List Bytes → List Bytes
  | [] | [_] => []
  | arg :: next :: rest => if isConfigOption arg then next :: paths rest else paths (next :: rest)

/-- The words that are neither options, nor values of options, nor known commands. -/
def unknownWords : List Bytes → List Bytes
  | [] => []
  | [arg] => if isKnown arg then [] else [arg]
  | arg :: next :: rest =>
      if isConfigOption arg then unknownWords rest
      else if isKnown arg then unknownWords (next :: rest)
      else arg :: unknownWords (next :: rest)

theorem scanArgs_eq (s : Invocation) (args : List Bytes) :
    scanArgs s args =
      ⟨(paths args).getLastD s.configPath, (unknownWords args).getLastD s.command⟩ := by
  induction s, args using scanArgs.induct with
  | case1 s => rfl
  | case2 s arg =>
      simp only [scanArgs, scanWord, paths, unknownWords]
      split_ifs <;> rfl
  | case3 s arg next rest hopt ih =>
      simp only [scanArgs, paths, unknownWords, if_pos hopt, ih, List.getLastD_cons]
  | case4 s arg next rest hopt ih =>
      rw [scanArgs, if_neg hopt, ih, paths, if_neg hopt, unknownWords, if_neg hopt, scanWord]
      by_cases hknown : isKnown arg = true
      · simp only [if_pos hknown]
      · simp only [if_neg hknown, List.getLastD_cons]

/-- **What `sensorctl` does with its arguments**: it loads the path given last, and sends the last
word that is not a known command; if there is none, it sends its first argument. -/
theorem parseArgs_eq (args : List Bytes) :
    parseArgs args =
      ⟨(paths args).getLastD (ascii "config/sensorhub.conf"),
        (unknownWords args).getLastD (args.headD (ascii "stats"))⟩ :=
  scanArgs_eq _ args

variable {opt w : Bytes}

/-- An option is not a known command. -/
theorem isKnown_of_isConfigOption (h : isConfigOption opt = true) : isKnown opt = false := by
  simp only [isConfigOption, Bool.or_eq_true, decide_eq_true_eq] at h
  rcases h with rfl | rfl <;> decide

/-- The command first, as the scripts have it. -/
theorem parseArgs_command_first (hopt : isConfigOption opt = true) (hw : isConfigOption w = false)
    (p : Bytes) : parseArgs [w, opt, p] = ⟨p, w⟩ := by
  rw [parseArgs_eq]
  by_cases hknown : isKnown w = true
  · simp [paths, unknownWords, hopt, hw, hknown]
  · simp [paths, unknownWords, hopt, hw, hknown]

/-- The option first: a known command is passed over, and the option is sent in its place. -/
theorem parseArgs_option_first (hopt : isConfigOption opt = true) (p : Bytes) :
    parseArgs [opt, p, w] = ⟨p, if isKnown w then opt else w⟩ := by
  rw [parseArgs_eq]
  by_cases hknown : isKnown w = true
  · simp [paths, unknownWords, hopt, hknown]
  · simp [paths, unknownWords, hopt, hknown]

theorem parseArgs_option_only (hopt : isConfigOption opt = true) (p : Bytes) :
    parseArgs [opt, p] = ⟨p, opt⟩ := by
  rw [parseArgs_eq]
  simp [paths, unknownWords, hopt]

theorem request_inj {s t : Invocation} : s.request = t.request ↔ s.command = t.command := by
  rw [Invocation.request, Invocation.request, List.append_left_inj]

/-- **When the order of the arguments does not matter.** For a word that is not an option, the
command before and after the option select the same path and send the word, if and only if the word
is none of `stats`, `reload` and `shutdown`. An option without a command never sends what an empty
list of arguments sends. -/
theorem option_order (hopt : isConfigOption opt = true) (hw : isConfigOption w = false)
    (p : Bytes) :
    (((parseArgs [w, opt, p]).configPath = p ∧ (parseArgs [opt, p, w]).configPath = p ∧
        (parseArgs [w, opt, p]).request = w ++ ascii "\n" ∧
        (parseArgs [opt, p, w]).request = w ++ ascii "\n") ↔
      ¬ (w = ascii "stats" ∨ w = ascii "reload" ∨ w = ascii "shutdown")) ∧
    (parseArgs [opt, p]).request ≠ (parseArgs []).request := by
  have hknown : isKnown w = true ↔
      (w = ascii "stats" ∨ w = ascii "reload" ∨ w = ascii "shutdown") := by
    simp only [isKnown, Bool.or_eq_true, decide_eq_true_eq, or_assoc]
  rw [parseArgs_command_first hopt hw, parseArgs_option_first hopt, parseArgs_option_only hopt,
    ← hknown]
  refine ⟨⟨?_, ?_⟩, ?_⟩
  · rintro ⟨-, -, -, hsent⟩ hk
    -- the option would be the word
    rw [if_pos hk] at hsent
    have hopt' : opt = w := List.append_cancel_right hsent
    rw [hopt', hw] at hopt
    cases hopt
  · intro hk
    rw [if_neg hk]
    exact ⟨rfl, rfl, rfl, rfl⟩
  · rw [Ne, request_inj]
    intro hstats
    have hstats' : opt = ascii "stats" := hstats
    have hopt' := isKnown_of_isConfigOption hopt
    rw [hstats'] at hopt'
    cases hopt'

theorem option_order_ping :
    (parseArgs [ascii "-c", ascii "a.conf", ascii "ping"]).request = ascii "ping\n" := by
  have h := (@option_order (ascii "-c") (ascii "ping") rfl rfl (ascii "a.conf")).1.mpr (by decide)
  exact h.2.2.2

/-- **`-c` is sent to the daemon as a command.** -/
theorem option_first_sent :
    ¬ ((parseArgs [ascii "stats", ascii "-c", ascii "a.conf"]).request =
      (parseArgs [ascii "-c", ascii "a.conf", ascii "stats"]).request) ∧
    (parseArgs [ascii "-c", ascii "a.conf", ascii "stats"]).request = ascii "-c\n" ∧
    ¬ ((parseArgs [ascii "-c", ascii "a.conf"]).request = (parseArgs []).request) := by
  decide

end Sensorctl

end SensorHub
