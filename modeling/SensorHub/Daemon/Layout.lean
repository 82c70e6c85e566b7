import SensorHub.Daemon.Settings
import Mathlib.Logic.Relation

set_option autoImplicit false

/-!
# The layout of a configuration file

Comments, white space, line ends, unknown keys, the order of the lines and values that are set again
do not change what `load_config_file` makes of a text.

* `Edge`, `classify_addSpace`, `classify_comment`: edits within a line.
* `toCrlf`, `classify_toCrlf`: the line ends.
* `Edit`: the edits of a text; `outcome_insert`, `outcome_swap`, `outcome_delete`.
* **`layout_irrelevant`**: any number of edits.
-/

namespace SensorHub

/-! ### Edits within a line -/

/-- White space. -/
def Blank (s : Bytes) : Prop := ∀ b ∈ s, isSpace b = true

instance (s : Bytes) : Decidable (Blank s) :=
  decidable_of_iff (s.all isSpace = true) List.all_eq_true

/-- Where white space may be added to the line `a ++ b`, between `a` and `b`: at its start or end,
in front of its comment, and on both sides of its first equals sign, with or without more white
space in between. -/
inductive Edge : Bytes → Bytes → Prop
  | lineStart {a b : Bytes} (h : Blank a) : Edge a b
  | lineEnd {a b : Bytes} (h : Blank b) : Edge a b
  | comment {a s rest : Bytes} (ha : numberSign ∉ a) (hs : Blank s) :
      Edge a (s ++ numberSign :: rest)
  | beforeEquals {a s rest : Bytes} (ha : numberSign ∉ a) (ha' : equalsSign ∉ a) (hs : Blank s) :
      Edge a (s ++ equalsSign :: rest)
  | afterEquals {a s rest : Bytes} (ha : numberSign ∉ a) (ha' : equalsSign ∉ a) (hs : Blank s) :
      Edge (a ++ equalsSign :: s) rest

theorem Blank.numberSign {s : Bytes} (h : Blank s) : numberSign ∉ s := fun hmem => by
  cases h _ hmem

theorem Blank.equalsSign {s : Bytes} (h : Blank s) : equalsSign ∉ s := fun hmem => by
  cases h _ hmem

theorem trim_append_blank {s : Bytes} (h : Blank s) (a : Bytes) : trim (a ++ s) = trim a :=
  Trim.strip_append_right h a

theorem trim_blank_append {s : Bytes} (h : Blank s) (a : Bytes) : trim (s ++ a) = trim a :=
  Trim.strip_append_left h a

/-- What is read of a line. -/
theorem classify_congr {line line' : Bytes} (h : trim (cutComment line') = trim (cutComment line)) :
    classify line' = classify line := by
  rw [classify, classify, h]

/-- What follows a comment sign is not read. -/
theorem cutComment_append_of_mem {s : Bytes} (h : numberSign ∈ s) (rest : Bytes) :
    cutComment (s ++ rest) = cutComment s := by
  obtain ⟨a, b, rfl, ha⟩ := List.eq_append_cons_of_mem h
  rw [List.append_assoc, List.cons_append, cutComment_append ha, cutComment_append ha,
    cutComment_comment, cutComment_comment]

/-- **A comment behind a line.** -/
theorem classify_comment (line rest : Bytes) :
    classify (line ++ numberSign :: rest) = classify line := by
  apply classify_congr
  by_cases h : numberSign ∈ line
  · rw [cutComment_append_of_mem h]
  · rw [cutComment_append h, cutComment_comment, List.append_nil, cutComment_of_notMem h]

theorem classify_equals {a : Bytes} (ha : numberSign ∉ a) (ha' : equalsSign ∉ a) (rest : Bytes) :
    classify (a ++ equalsSign :: rest) = kindOf (trim a) (trim (cutComment rest)) := by
  apply classify_of_equals _ ha'
  have hsign : numberSign ∉ [equalsSign] := by decide
  rw [cutComment_append ha, ← List.singleton_append, cutComment_append hsign, List.singleton_append]

/-- **White space at an edge.** -/
theorem classify_addSpace {a b ws : Bytes} (hedge : Edge a b) (hws : Blank ws) :
    classify (a ++ ws ++ b) = classify (a ++ b) := by
  cases hedge with
  | lineStart h =>
      apply classify_congr
      rw [List.append_assoc, cutComment_append h.numberSign, cutComment_append hws.numberSign,
        cutComment_append h.numberSign, trim_blank_append h, trim_blank_append hws,
        trim_blank_append h]
  | lineEnd h =>
      apply classify_congr
      by_cases ha : numberSign ∈ a
      · rw [List.append_assoc, cutComment_append_of_mem ha, cutComment_append_of_mem ha]
      · rw [List.append_assoc, cutComment_append ha, cutComment_append hws.numberSign,
          cutComment_append ha, cutComment_of_notMem h.numberSign, trim_append_blank h,
          ← List.append_assoc, trim_append_blank h, trim_append_blank hws]
  | comment ha hs =>
      apply classify_congr
      rw [List.append_assoc, cutComment_append ha, cutComment_append hws.numberSign,
        cutComment_append hs.numberSign, cutComment_comment, List.append_nil, cutComment_append ha,
        cutComment_append hs.numberSign, cutComment_comment, List.append_nil,
        trim_append_blank hs, ← List.append_assoc, trim_append_blank hs, trim_append_blank hws]
  | @beforeEquals _ s rest ha ha' hs =>
      have hkey : trim (a ++ ws ++ s) = trim (a ++ s) := by
        rw [trim_append_blank hs, trim_append_blank hws, trim_append_blank hs]
      rw [← List.append_assoc, ← List.append_assoc, classify_equals _ _, classify_equals _ _, hkey]
      all_goals simp [ha, ha', hs.numberSign, hs.equalsSign, hws.numberSign, hws.equalsSign]
  | @afterEquals a s _ ha ha' hs =>
      have hvalue : trim (cutComment (s ++ (ws ++ b))) = trim (cutComment (s ++ b)) := by
        rw [cutComment_append hs.numberSign, cutComment_append hws.numberSign,
          cutComment_append hs.numberSign, trim_blank_append hs, trim_blank_append hws,
          trim_blank_append hs]
      rw [List.append_assoc, List.append_assoc, List.cons_append, classify_equals ha ha',
        List.append_assoc, List.cons_append, classify_equals ha ha', hvalue]

/-! ### Line ends -/

/-- `'\r'`. -/
def carriageReturn : UInt8 := 13

/-- A text with `\r\n` for each `\n`. -/
def toCrlf (text : Bytes) : Bytes :=
  text.flatMap fun b => if b = newline then [carriageReturn, newline] else [b]

theorem toCrlf_of_notMem {s : Bytes} (h : newline ∉ s) : toCrlf s = s := by
  induction s with
  | nil => rfl
  | cons b s ih =>
      rw [List.mem_cons, not_or] at h
      have hb : ¬ b = newline := fun heq => h.1 heq.symm
      have hrest : toCrlf (b :: s) = b :: toCrlf s := by simp [toCrlf, hb]
      rw [hrest, ih h.2]

theorem toCrlf_append_newline {line : Bytes} (h : newline ∉ line) (rest : Bytes) :
    toCrlf (line ++ newline :: rest) = (line ++ [carriageReturn]) ++ newline :: toCrlf rest := by
  have happend : toCrlf (line ++ newline :: rest) =
      toCrlf line ++ (carriageReturn :: newline :: toCrlf rest) := by
    simp [toCrlf]
  rw [happend, toCrlf_of_notMem h, List.append_assoc, List.singleton_append]

/-- **A text has no line break, or it has a first line.** -/
theorem text_cases (text : Bytes) :
    newline ∉ text ∨ ∃ line rest, newline ∉ line ∧ text = line ++ newline :: rest := by
  by_cases h : newline ∈ text
  · obtain ⟨line, rest, htext, hline⟩ := List.eq_append_cons_of_mem h
    exact .inr ⟨line, rest, hline, htext⟩
  · exact .inl h

/-- **The line ends.** -/
theorem classify_toCrlf (text : Bytes) :
    (lines (toCrlf text)).map classify = (lines text).map classify := by
  induction hn : text.length using Nat.strongRecOn generalizing text with
  | ind n ih =>
      rcases text_cases text with h | ⟨line, rest, hline, rfl⟩
      · rw [toCrlf_of_notMem h]
      · have hshort : rest.length < n := by
          rw [← hn, List.length_append, List.length_cons]
          omega
        have hend : classify (line ++ [carriageReturn]) = classify line := by
          have hadd := @classify_addSpace line [] [carriageReturn] (.lineEnd (by decide))
            (by decide)
          rwa [List.append_nil, List.append_nil] at hadd
        have hline' : newline ∉ line ++ [carriageReturn] := by
          rw [List.mem_append, not_or]
          exact ⟨hline, by decide⟩
        rw [toCrlf_append_newline hline, lines_append_newline hline', lines_append_newline hline,
          List.map_cons, List.map_cons, hend, ih _ hshort rest rfl]

/-! ### Lines and their keys -/

theorem classify_of_keyOf {line key : Bytes} (h : keyOf line = some key) :
    ∃ value, classify line = kindOf key value := by
  obtain ⟨⟨key', value⟩, hvalue, rfl⟩ := Option.map_eq_some_iff.mp h
  refine ⟨value, ?_⟩
  have hne : trim (cutComment line) ≠ [] := by
    intro hnil
    rw [hnil] at hvalue
    cases hvalue
  rw [classify, if_neg hne, hvalue]

theorem kindOf_eq_setting {key value value' : Bytes} {k : Key}
    (h : kindOf key value = .setting k value') : k.name = key := by
  unfold kindOf at h
  split at h
  · rename_i k' hfind
    cases h
    have hname := List.find?_some hfind
    exact of_decide_eq_true hname
  · cases h

theorem keyOf_of_setting {line value : Bytes} {k : Key} (h : classify line = .setting k value) :
    keyOf line = some k.name := by
  unfold classify at h
  split_ifs at h
  rw [keyOf]
  cases hvalue : keyValue (trim (cutComment line)) with
  | none =>
      rw [hvalue] at h
      cases h
  | some pair =>
      rw [hvalue] at h
      rw [Option.map_some, kindOf_eq_setting h]

/-- The values a line gives to a key: at most one. -/
def lineValues (k : Key) (line : Bytes) : List Bytes := Fields.valuesOf k (settings [line])

theorem lineValues_eq_nil_or {k : Key} (line : Bytes) :
    lineValues k line = [] ∨ keyOf line = some k.name := by
  rw [or_iff_not_imp_right]
  intro hkey
  rw [List.eq_nil_iff_forall_not_mem]
  intro v hv
  obtain ⟨kind, hkind, hsetting⟩ := List.mem_filterMap.mp (Fields.mem_valuesOf.mp hv)
  rw [List.map_singleton, List.mem_singleton] at hkind
  cases kind <;> cases hsetting
  exact hkey (keyOf_of_setting hkind.symm)

theorem lineValues_ne_nil {k : Key} {line : Bytes} (h : keyOf line = some k.name) :
    lineValues k line ≠ [] := by
  obtain ⟨value, hkind⟩ := classify_of_keyOf h
  rw [kindOf, k.find?_name] at hkind
  have hmem : value ∈ lineValues k line := by
    apply Fields.mem_valuesOf.mpr
    simp [settings, hkind, LineKind.setting?]
  exact List.ne_nil_of_mem hmem

theorem settings_append (ls ms : List Bytes) :
    settings (ls ++ ms) = settings ls ++ settings ms := by
  rw [settings, List.map_append, List.filterMap_append]
  rfl

theorem settings_cons (line : Bytes) (ls : List Bytes) :
    settings (line :: ls) = settings [line] ++ settings ls :=
  settings_append [line] ls

theorem valuesOf_settings_cons (k : Key) (line : Bytes) (ls : List Bytes) :
    Fields.valuesOf k (settings (line :: ls)) =
      lineValues k line ++ Fields.valuesOf k (settings ls) := by
  rw [settings_cons, Fields.valuesOf_append]
  rfl

/-! ### Edits of whole lines -/

/-- **A line that says nothing.** -/
theorem outcome_insert {line : Bytes} (h : classify line = .blank ∨ classify line = .unknown)
    (xs ys : List Bytes) : outcome (xs ++ line :: ys) = outcome (xs ++ ys) := by
  have hsettings : settings [line] = [] := by
    rcases h with h | h <;> simp [settings, h, LineKind.setting?]
  have hsame : settings (xs ++ line :: ys) = settings (xs ++ ys) := by
    rw [settings_append, settings_cons, hsettings, List.nil_append, settings_append]
  apply outcome_congr
  · rcases h with h | h <;> simp [h]
  · rw [hsame]
  · intro k
    rw [hsame]

/-- **Two lines with different keys.** -/
theorem outcome_swap {l m : Bytes} (h : keyOf l ≠ keyOf m) (xs ys : List Bytes) :
    outcome (xs ++ m :: l :: ys) = outcome (xs ++ l :: m :: ys) := by
  have hperm : (xs ++ m :: l :: ys).Perm (xs ++ l :: m :: ys) :=
    (List.Perm.swap l m ys).append_left xs
  have hsettings : (settings (xs ++ m :: l :: ys)).Perm (settings (xs ++ l :: m :: ys)) :=
    (hperm.map classify).filterMap _
  apply outcome_congr
  · exact (hperm.map classify).mem_iff
  · exact ⟨fun hall a ha => hall a (hsettings.mem_iff.mpr ha),
      fun hall a ha => hall a (hsettings.mem_iff.mp ha)⟩
  · intro k
    have hcomm : lineValues k m ++ lineValues k l = lineValues k l ++ lineValues k m := by
      rcases @lineValues_eq_nil_or k l with hl | hl
      · rw [hl, List.append_nil, List.nil_append]
      · rcases @lineValues_eq_nil_or k m with hm | hm
        · rw [hm, List.append_nil, List.nil_append]
        · exact absurd (hl.trans hm.symm) h
    rw [settings_append, settings_append, Fields.valuesOf_append, Fields.valuesOf_append,
      valuesOf_settings_cons, valuesOf_settings_cons, valuesOf_settings_cons,
      valuesOf_settings_cons, ← List.append_assoc (lineValues k m), hcomm, List.append_assoc]

/-- **A line whose key is set again.** -/
theorem outcome_delete {l m key : Bytes} {xs ys : List Bytes} {c : AppConfig}
    (hl : keyOf l = some key) (hm : m ∈ ys) (hkey : keyOf m = some key)
    (h : outcome (xs ++ l :: ys) = some c) : outcome (xs ++ ys) = some c := by
  obtain ⟨hgood, hassign, -⟩ := outcome_eq_some.mp h
  have hall := Fields.assignAll_isSome.mp (Option.isSome_iff_exists.mpr ⟨c, hassign⟩)
  rw [← h]
  apply outcome_congr
  · refine iff_of_false (fun hbad => hgood ?_) hgood
    simp only [List.map_append, List.map_cons, List.mem_append, List.mem_cons] at hbad ⊢
    exact hbad.imp id .inr
  · refine iff_of_true (fun a ha => hall a ?_) hall
    rw [settings_append, List.mem_append] at ha ⊢
    rw [settings_cons, List.mem_append]
    exact ha.imp id .inr
  · intro k
    rw [settings_append, settings_append, Fields.valuesOf_append, Fields.valuesOf_append,
      valuesOf_settings_cons]
    rcases @lineValues_eq_nil_or k l with hnil | hname
    · rw [hnil, List.nil_append]
    · -- the later line gives the same key another value, and that one counts
      have hlater : Fields.valuesOf k (settings ys) ≠ [] := by
        obtain ⟨before, after, rfl⟩ := List.append_of_mem hm
        have hvalue : lineValues k m ≠ [] := by
          apply lineValues_ne_nil
          rw [hkey, ← hl, hname]
        rw [settings_append, Fields.valuesOf_append, valuesOf_settings_cons]
        simp [hvalue]
      rw [List.getLast?_append_of_ne_nil _ hlater, List.getLast?_append_of_ne_nil,
        List.getLast?_append_of_ne_nil _ hlater]
      exact List.append_ne_nil_of_right_ne_nil _ hlater

/-- The edits of a text, by what they do to its lines. -/
inductive Edit (path text text' : Bytes) : Prop
  /-- One more blank line, or comment line. -/
  | insertBlank (xs ys : List Bytes) (line : Bytes) (hline : Blank (cutComment line))
      (h : lines text = xs ++ ys) (h' : lines text' = xs ++ line :: ys)
  /-- One more line with an unknown key. -/
  | insertUnknown (xs ys : List Bytes) (line key : Bytes) (hkey : keyOf line = some key)
      (hunknown : ∀ k : Key, k.name ≠ key)
      (h : lines text = xs ++ ys) (h' : lines text' = xs ++ line :: ys)
  /-- A comment behind a line. -/
  | appendComment (xs ys : List Bytes) (line rest : Bytes) (h : lines text = xs ++ line :: ys)
      (h' : lines text' = xs ++ (line ++ numberSign :: rest) :: ys)
  /-- White space around a key, around a value or at the end of a line. -/
  | addSpace (xs ys : List Bytes) (a b ws : Bytes) (hedge : Edge a b) (hws : Blank ws)
      (h : lines text = xs ++ (a ++ b) :: ys) (h' : lines text' = xs ++ (a ++ ws ++ b) :: ys)
  | crlf (h' : text' = toCrlf text)
  /-- Two adjacent lines whose keys differ, the other way round. -/
  | swap (xs ys : List Bytes) (l m : Bytes) (hkeys : keyOf l ≠ keyOf m)
      (h : lines text = xs ++ l :: m :: ys) (h' : lines text' = xs ++ m :: l :: ys)
  /-- Of an accepted text, a line less whose key is set again further down. -/
  | delete (xs ys : List Bytes) (l m key : Bytes) (c : AppConfig)
      (haccepted : loadConfigFile path (some text) = .ok c) (hl : keyOf l = some key)
      (hm : m ∈ ys) (hkey : keyOf m = some key)
      (h : lines text = xs ++ l :: ys) (h' : lines text' = xs ++ ys)

theorem outcome_of_classify {ls ms : List Bytes} (h : ls.map classify = ms.map classify) :
    outcome ls = outcome ms := by
  rw [outcome, outcome, settings, settings, h]

theorem Edit.outcome {path text text' : Bytes} (h : Edit path text text') :
    SensorHub.outcome (lines text') = SensorHub.outcome (lines text) := by
  cases h with
  | insertBlank xs ys line hline h h' =>
      have hblank : classify line = .blank := if_pos (Trim.strip_eq_nil.mpr hline)
      rw [h, h', outcome_insert (.inl hblank)]
  | insertUnknown xs ys line key hkey hunknown h h' =>
      obtain ⟨value, hkind⟩ := classify_of_keyOf hkey
      have hnone : (Key.all.find? fun k => k.name = key) = none :=
        List.find?_eq_none.mpr fun k _ hname => hunknown k (of_decide_eq_true hname)
      rw [kindOf, hnone] at hkind
      rw [h, h', outcome_insert (.inr hkind)]
  | appendComment xs ys line rest h h' =>
      apply outcome_of_classify
      rw [h, h', List.map_append, List.map_append, List.map_cons, List.map_cons, classify_comment]
  | addSpace xs ys a b ws hedge hws h h' =>
      apply outcome_of_classify
      rw [h, h', List.map_append, List.map_append, List.map_cons, List.map_cons,
        classify_addSpace hedge hws]
  | crlf h' =>
      apply outcome_of_classify
      rw [h', classify_toCrlf]
  | swap xs ys l m hkeys h h' => rw [h, h', outcome_swap hkeys]
  | delete xs ys l m key c haccepted hl hm hkey h h' =>
      rw [loadConfigFile_eq_ok, h] at haccepted
      rw [h, h', haccepted, outcome_delete hl hm hkey haccepted]

/-- **Layout does not change a configuration**: after any number of edits a text gives the same
configuration, or it fails in both cases. -/
theorem layout_irrelevant {path text text' : Bytes}
    (h : Relation.ReflTransGen (Edit path) text text') :
    (loadConfigFile path (some text')).toOption = (loadConfigFile path (some text)).toOption := by
  rw [loadConfigFile_toOption, loadConfigFile_toOption]
  induction h with
  | refl => rfl
  | tail _ hedit ih => rw [hedit.outcome, ih]

/-- A text, and the same with white space and a comment. -/
def terseText : Bytes := ascii "worker_threads=3\n"

def laidOutText : Bytes := ascii "worker_threads =3# three\r\n"

theorem layout_irrelevant_laidOutText :
    (loadConfigFile [] (some laidOutText)).toOption =
      (loadConfigFile [] (some terseText)).toOption ∧
    (loadConfigFile [] (some terseText)).toOption = some { workerThreads := 3 } := by
  refine ⟨layout_irrelevant ?_, rfl⟩
  have hspace : Edit [] terseText (ascii "worker_threads =3\n") :=
    .addSpace [] [] (ascii "worker_threads") (ascii "=3") (ascii " ")
      (@Edge.beforeEquals _ [] _ (by decide) (by decide) (by decide)) (by decide) rfl rfl
  have hcomment : Edit [] (ascii "worker_threads =3\n") (ascii "worker_threads =3# three\n") :=
    .appendComment [] [] (ascii "worker_threads =3") (ascii " three") rfl rfl
  exact ((Relation.ReflTransGen.single hspace).tail hcomment).tail (.crlf rfl)

end SensorHub
