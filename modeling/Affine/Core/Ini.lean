import Affine.Lib.Log
import Affine.Lib.Mealy
import Affine.Lib.Text

set_option relaxedAutoImplicit false
set_option autoImplicit false

/-!
# The configuration file

`ini_get_bool` and `ini_get_u32` (`affine-core/src/util.rs`), which look up a value in the
configuration file. Both scan the lines of the file in the same way, and differ in how they parse
the value. The scan is a machine that reads lines and keeps the name of the section
(`Affine.iniStep`); its first output is the value of the first line that answers the question
(`Affine.Selected`).

## Main definitions

* `Affine.iniGetBool`, `Affine.iniGetU32`, with `Affine.parseBool` and `Affine.parseU32`.
* `Affine.Entry`, `Affine.InSection`, `Affine.Selected` — the line that is looked for, as a property
  of the lines of the file.
* `Affine.SameAnswers` — two files that give the same answers.

## Main results

* `Affine.ini_lookup` — what the lookups return, and what they do not depend on.
-/

namespace Affine

open Text (EqIgnoreAsciiCase)

/-! ## The source -/

/-- `parse_bool`. -/
def parseBool (value : List Char) : Option Bool :=
  if value = ['1'] ∨ EqIgnoreAsciiCase value ['t', 'r', 'u', 'e'] ∨
      EqIgnoreAsciiCase value ['y', 'e', 's'] ∨ EqIgnoreAsciiCase value ['o', 'n'] then some true
  else if value = ['0'] ∨ EqIgnoreAsciiCase value ['f', 'a', 'l', 's', 'e'] ∨
      EqIgnoreAsciiCase value ['n', 'o'] ∨ EqIgnoreAsciiCase value ['o', 'f', 'f'] then some false
  else none

/-- `parse_u32`. -/
def parseU32 (value : List Char) : Option UInt32 :=
  match value with
  | '0' :: 'x' :: hex | '0' :: 'X' :: hex => UInt32.ofNat <$> Text.fromStrRadix 16 UInt32.size hex
  | _ => UInt32.ofNat <$> Text.fromStrRadix 10 UInt32.size value

/-- The line, which is trimmed, has nothing in it but a comment at most. -/
def skipped (line : List Char) : Prop :=
  line = [] ∨ line.head? = some ';' ∨ line.head? = some '#'

/-- The line, which is trimmed, is the header of a section. -/
def header (line : List Char) : Prop := line.head? = some '[' ∧ line.getLast? = some ']'

instance (line : List Char) : Decidable (skipped line) := inferInstanceAs (Decidable (_ ∨ _))
instance (line : List Char) : Decidable (header line) := inferInstanceAs (Decidable (_ ∧ _))

/-- The name in a header: `line[1..line.len() - 1].trim()`. -/
def headerName (line : List Char) : List Char := Text.trim line.tail.dropLast

section Get

variable {α : Type} (parse : List Char → Option α) (name key : List Char) (default : α)

/-- The loop of `ini_get_bool` and of `ini_get_u32`, in the section `current`. -/
def iniScan : List Char → List (List Char) → α
  | _, [] => default
  | current, rawLine :: lines =>
    let line := Text.trim rawLine
    if skipped line then iniScan current lines
    else if header line then iniScan (headerName line) lines
    else if ¬ EqIgnoreAsciiCase current name then iniScan current lines
    else
      match Text.splitOnce '=' line with
      | none => iniScan current lines
      | some (rawKey, rawValue) =>
        if ¬ EqIgnoreAsciiCase (Text.trim rawKey) key then iniScan current lines
        else (parse (Text.trim rawValue)).getD default

/-- The body that `ini_get_bool` and `ini_get_u32` share; there are no contents if the file cannot
be read as a text. -/
def iniGet (contents : Option (List Char)) : α :=
  match contents with
  | none => default
  | some text => iniScan parse name key default [] (Text.lines text)

end Get

/-- `ini_get_bool`. -/
def iniGetBool (contents : Option (List Char)) (name key : List Char) (default : Bool) : Bool :=
  iniGet parseBool name key default contents

/-- `ini_get_u32`. -/
def iniGetU32 (contents : Option (List Char)) (name key : List Char) (default : UInt32) : UInt32 :=
  iniGet parseU32 name key default contents

/-! ## The line that is looked for -/

/-- The lines of a text, trimmed. -/
def iniLines (text : List Char) : List (List Char) := (Text.lines text).map Text.trim

/-- The line gives the key this value: it is not blank, no comment and no header, the text before
its first `=` is the key, and the text behind it is the value. -/
structure Entry (key line value : List Char) : Prop where
  notSkipped : ¬ skipped line
  notHeader : ¬ header line
  split : ∃ rawKey rawValue, line = rawKey ++ '=' :: rawValue ∧ '=' ∉ rawKey ∧
    EqIgnoreAsciiCase (Text.trim rawKey) key ∧ Text.trim rawValue = value

/-- The last header among these lines has this name. -/
def InSection (name : List Char) (before : List (List Char)) : Prop :=
  ∃ line, Log.last (fun line => decide (header line)) before = some line ∧
    EqIgnoreAsciiCase (headerName line) name

/-- The value of the first line that gives the key a value under a header with the name. -/
def Selected (name key : List Char) (lines : List (List Char)) (value : List Char) : Prop :=
  ∃ before line after, lines = before ++ line :: after ∧
    (InSection name before ∧ Entry key line value) ∧
      ∀ earlier line' value', earlier ++ [line'] <+: before →
        ¬ (InSection name earlier ∧ Entry key line' value')

/-- The lookups of a key find the same in both texts. -/
def SameAnswers (name key text text' : List Char) : Prop :=
  (∀ default, iniGetBool (some text) name key default = iniGetBool (some text') name key default) ∧
    ∀ default, iniGetU32 (some text) name key default = iniGetU32 (some text') name key default

/-! ## The scan as a machine -/

section Machine

variable (name key : List Char)

/-- What a line does to the name of the section, and the value it gives the key. -/
def iniStep (current line : List Char) : List Char × Option (List Char) :=
  if skipped line then (current, none)
  else if header line then (headerName line, none)
  else if ¬ EqIgnoreAsciiCase current name then (current, none)
  else
    match Text.splitOnce '=' line with
    | none => (current, none)
    | some (rawKey, rawValue) =>
      (current,
        if EqIgnoreAsciiCase (Text.trim rawKey) key then some (Text.trim rawValue) else none)

/-- The first value that the lines give the key, from a section on. -/
def found (current : List Char) (lines : List (List Char)) : Option (List Char) :=
  match Mealy.seek (iniStep name key) current lines with
  | .inl _ => none
  | .inr (value, _) => some value

variable {name key} {current line next value : List Char} {lines lines' : List (List Char)}

/-- A line without the value is skipped. -/
lemma found_cons_none (h : iniStep name key current line = (next, none)) :
    found name key current (line :: lines) = found name key next lines := by
  rw [found, Mealy.seek_cons_none (by rw [h]), h]
  rfl

/-- The first line with the value ends the search. -/
lemma found_cons_some (h : iniStep name key current line = (next, some value)) :
    found name key current (line :: lines) = some value := by
  rw [found, Mealy.seek_cons_some (by rw [h])]

/-- The scan parses the first value that is found.

**Proof sketch.** Induction on the lines; the cases are the checks of the source, and in each the
step of the machine skips the line or finds the value. -/
lemma iniScan_eq {α : Type} (parse : List Char → Option α) (default : α) (current : List Char)
    (lines : List (List Char)) :
    iniScan parse name key default current lines =
      ((found name key current (lines.map Text.trim)).bind parse).getD default := by
  induction lines generalizing current with
  | nil => rfl
  | cons line lines ih =>
    rw [iniScan, List.map_cons]
    split
    · next hskip => rw [found_cons_none (by rw [iniStep, if_pos hskip]), ih]
    split
    · next hskip hheader =>
      rw [found_cons_none (by rw [iniStep, if_neg hskip, if_pos hheader]), ih]
    split
    · next hskip hheader hname =>
      rw [found_cons_none (by rw [iniStep, if_neg hskip, if_neg hheader, if_pos hname]), ih]
    next hskip hheader hname =>
    split
    · next hsplit =>
      have hstep : iniStep name key current (Text.trim line) = (current, none) := by
        simp only [iniStep, if_neg hskip, if_neg hheader, if_neg hname, hsplit]
      rw [found_cons_none hstep, ih]
    next rawKey rawValue hsplit =>
    split
    · next hkey =>
      have hstep : iniStep name key current (Text.trim line) = (current, none) := by
        simp only [iniStep, if_neg hskip, if_neg hheader, if_neg hname, hsplit, if_neg hkey]
      rw [found_cons_none hstep, ih]
    · next hkey =>
      rw [not_not] at hkey
      have hstep : iniStep name key current (Text.trim line) =
          (current, some (Text.trim rawValue)) := by
        simp only [iniStep, if_neg hskip, if_neg hheader, if_neg hname, hsplit, if_pos hkey]
      rw [found_cons_some hstep]
      rfl

/-- What both lookups return. -/
lemma iniGet_eq {α : Type} (parse : List Char → Option α) (default : α) (text : List Char) :
    iniGet parse name key default (some text) =
      ((found name key [] (iniLines text)).bind parse).getD default := iniScan_eq ..

/-- A header is not a comment. -/
lemma not_skipped_of_header (h : header line) : ¬ skipped line := by
  rintro (rfl | hcomment | hcomment)
  · cases h.1
  · rw [h.1] at hcomment
    cases hcomment
  · rw [h.1] at hcomment
    cases hcomment

/-- The section is that of the last header. -/
lemma iniStep_current : (iniStep name key current line).1 =
    if header line then headerName line else current := by
  by_cases hheader : header line
  · rw [iniStep, if_neg (not_skipped_of_header hheader), if_pos hheader, if_pos hheader]
  · rw [iniStep, if_neg hheader, if_neg hheader]
    split
    · rfl
    split
    · rfl
    split <;> rfl

/-- The machine has the name of the last header as its section. -/
lemma run_iniStep (before : List (List Char)) :
    (Mealy.run (iniStep name key) [] before).1 =
      ((Log.last (fun line => decide (header line)) before).map headerName).getD [] := by
  induction before using List.reverseRecOn with
  | nil => rfl
  | append_singleton before line ih =>
    rw [Mealy.run_append, Log.last_concat]
    simp only [Mealy.run_cons, Mealy.run_nil, iniStep_current, ih, decide_eq_true_eq]
    split <;> rfl

/-- The machine outputs the value of a line that gives the key one in the section.

**Proof sketch.** The name is not empty, so that the machine is in its section only behind a header
with this name. -/
lemma iniStep_output_iff (hname : name ≠ []) (before : List (List Char)) :
    (iniStep name key (Mealy.run (iniStep name key) [] before).1 line).2 = some value ↔
      InSection name before ∧ Entry key line value := by
  have hsection : EqIgnoreAsciiCase (Mealy.run (iniStep name key) [] before).1 name ↔
      InSection name before := by
    rw [run_iniStep, InSection]
    cases Log.last (fun line => decide (header line)) before with
    | none =>
      refine iff_of_false (fun h => hname ?_) (by simp)
      exact List.map_eq_nil_iff.mp (Eq.symm h)
    | some line => simp
  rw [← hsection]
  generalize (Mealy.run (iniStep name key) [] before).1 = current
  unfold iniStep
  split
  · next hskip => exact iff_of_false (by simp) fun h => h.2.notSkipped hskip
  split
  · next hheader => exact iff_of_false (by simp) fun h => h.2.notHeader hheader
  split
  · next hother => exact iff_of_false (by simp) fun h => hother h.1
  next hskip hheader hsame =>
  rw [not_not] at hsame
  split
  · next hsplit =>
    refine iff_of_false (by simp) fun h => ?_
    obtain ⟨rawKey, rawValue, hline, hfirst, -⟩ := h.2.split
    rw [Text.splitOnce_eq_some_iff.mpr ⟨hline, hfirst⟩] at hsplit
    cases hsplit
  · next rawKey rawValue hsplit =>
    obtain ⟨hline, hfirst⟩ := Text.splitOnce_eq_some_iff.mp hsplit
    constructor
    · intro h
      by_cases hkey : EqIgnoreAsciiCase (Text.trim rawKey) key
      · rw [if_pos hkey] at h
        exact ⟨hsame, hskip, hheader, rawKey, rawValue, hline, hfirst, hkey, Option.some.inj h⟩
      · rw [if_neg hkey] at h
        cases h
    · rintro ⟨-, -, -, rawKey', rawValue', hline', hfirst', hkey, rfl⟩
      have hsplit' := Text.splitOnce_eq_some_iff.mpr ⟨hline', hfirst'⟩
      rw [hsplit] at hsplit'
      obtain ⟨rfl, rfl⟩ := Prod.mk.inj (Option.some.inj hsplit')
      rw [if_pos hkey]

/-- **The first value that is found is the selected one.**

**Proof sketch.** A search finds the first output of the machine (`Mealy.seek_eq_inr_iff`), and the
machine outputs the values of the entries in the section (`iniStep_output_iff`). -/
lemma found_eq_some_iff (hname : name ≠ []) (lines : List (List Char)) (value : List Char) :
    found name key [] lines = some value ↔ Selected name key lines value := by
  have hnone : ∀ before, (∃ s, Mealy.seek (iniStep name key) [] before = .inl s) ↔
      ∀ earlier line' value', earlier ++ [line'] <+: before →
        ¬ (InSection name earlier ∧ Entry key line' value') := by
    intro before
    rw [Mealy.seek_eq_inl_iff]
    constructor
    · intro h earlier line' value' hprefix hmatch
      rw [← iniStep_output_iff hname, h earlier line' hprefix] at hmatch
      cases hmatch
    · intro h earlier line' hprefix
      rw [Option.eq_none_iff_forall_ne_some]
      intro value' hvalue
      exact h earlier line' value' hprefix ((iniStep_output_iff hname earlier).mp hvalue)
  have hfound : found name key [] lines = some value ↔
      ∃ after, Mealy.seek (iniStep name key) [] lines = .inr (value, after) := by
    unfold found
    split
    · next hseek => simp [hseek]
    · next value' after hseek => simp [hseek]
  rw [hfound, Selected]
  simp only [Mealy.seek_eq_inr_iff, iniStep_output_iff hname, hnone]
  constructor
  · rintro ⟨after, before, line, hlines, hfirst, hmatch⟩
    exact ⟨before, line, after, hlines, hmatch, hfirst⟩
  · rintro ⟨before, line, after, hlines, hmatch, hfirst⟩
    exact ⟨after, before, line, hlines, hfirst, hmatch⟩

/-- Both lookups parse the value of the selected line. -/
lemma iniGet_of_selected {α : Type} (parse : List Char → Option α) (default : α) {text : List Char}
    (hname : name ≠ []) (h : Selected name key (iniLines text) value) :
    iniGet parse name key default (some text) = (parse value).getD default := by
  rw [iniGet_eq, (found_eq_some_iff hname _ value).mpr h]
  rfl

/-- Without a selected line both lookups return the default. -/
lemma iniGet_of_not_selected {α : Type} (parse : List Char → Option α) (default : α)
    {text : List Char} (hname : name ≠ [])
    (h : ∀ value, ¬ Selected name key (iniLines text) value) :
    iniGet parse name key default (some text) = default := by
  have hnone : found name key [] (iniLines text) = none :=
    Option.eq_none_iff_forall_ne_some.mpr fun value hvalue =>
      h value ((found_eq_some_iff hname _ value).mp hvalue)
  rw [iniGet_eq, hnone]
  rfl

/-! ## What the lookups do not depend on -/

/-- Lines that are skipped can be left out. -/
lemma found_skipped (h : ∀ line ∈ lines', skipped line) (after : List (List Char)) :
    found name key current (lines ++ lines' ++ after) =
      found name key current (lines ++ after) := by
  have hskip : ∀ next, Mealy.seek (iniStep name key) next lines' = .inl next := by
    intro next
    induction lines' with
    | nil => rfl
    | cons line lines' ih =>
      have hline : iniStep name key next line = (next, none) := if_pos (h line List.mem_cons_self)
      rw [Mealy.seek_cons_none (by rw [hline]), hline]
      exact ih fun line' hline' => h line' (List.mem_cons_of_mem line hline')
  simp only [found, Mealy.seek_append]
  cases Mealy.seek (iniStep name key) current lines with
  | inl next => simp only [hskip]
  | inr result => rfl

/-- Lines behind one that is found are not read. -/
lemma found_append_of_some (h : found name key current lines = some value)
    (after : List (List Char)) : found name key current (lines ++ after) = some value := by
  simp only [found, Mealy.seek_append] at h ⊢
  cases hseek : Mealy.seek (iniStep name key) current lines with
  | inl next =>
    rw [hseek] at h
    cases h
  | inr result =>
    rw [hseek] at h
    exact h

/-- The lookups read a text only through the value that is found in it. -/
lemma sameAnswers_of_found {text text' : List Char}
    (h : found name key [] (iniLines text) = found name key [] (iniLines text')) :
    SameAnswers name key text text' := by
  constructor
  · intro default
    rw [iniGetBool, iniGetBool, iniGet_eq, iniGet_eq, h]
  · intro default
    rw [iniGetU32, iniGetU32, iniGet_eq, iniGet_eq, h]

/-- The lines of a text that ends with a line feed, and of one behind it. -/
lemma iniLines_append {text : List Char} (h : Text.LineStart text) (text' : List Char) :
    iniLines (text ++ text') = iniLines text ++ iniLines text' := by
  rw [iniLines, Text.lines_append h, List.map_append]
  rfl

/-- Ending the last line adds a blank line at most. -/
lemma found_newline (text : List Char) :
    found name key [] (iniLines (text ++ ['\n'])) = found name key [] (iniLines text) := by
  rcases Text.map_trim_lines_newline text with h | h
  · rw [iniLines, h, iniLines]
  · have hblank : ∀ line ∈ [[]], skipped line := by
      intro line hline
      exact Or.inl (List.mem_singleton.mp hline)
    have hskip : found name key [] (iniLines text ++ [[]] ++ []) =
        found name key [] (iniLines text ++ []) := found_skipped hblank []
    rw [List.append_nil, List.append_nil] at hskip
    rw [iniLines, h]
    exact hskip

end Machine

/-- **What the lookups return, and what they do not depend on.**

Both lookups return the value of the selected line, parsed, or else the default. Inserting blank
lines and comments at the start of a line, or ending the last line, changes nothing, nor does what
stands behind the selected line.

**Proof sketch.** Both scans run the same machine, whose first output is the selected value. It
outputs nothing at a line that is skipped and stays in its state, and the lines behind the first
output are not read. -/
theorem ini_lookup (name key : List Char) (hname : name ≠ []) :
    (∀ text,
      (∀ value, Selected name key (iniLines text) value →
        (∀ default, iniGetBool (some text) name key default = (parseBool value).getD default) ∧
          ∀ default, iniGetU32 (some text) name key default = (parseU32 value).getD default) ∧
      ((∀ value, ¬ Selected name key (iniLines text) value) →
        (∀ default, iniGetBool (some text) name key default = default) ∧
          ∀ default, iniGetU32 (some text) name key default = default)) ∧
    (∀ before inserted after, Text.LineStart before → Text.LineStart inserted ∨ after = [] →
      (∀ line ∈ iniLines inserted, skipped line) →
        SameAnswers name key (before ++ inserted ++ after) (before ++ after)) ∧
    (∀ text, SameAnswers name key (text ++ ['\n']) text) ∧
    ∀ before after after' value, Text.LineStart before →
      Selected name key (iniLines before) value →
        SameAnswers name key (before ++ after) (before ++ after') := by
  refine ⟨fun text => ⟨fun value h => ?_, fun h => ?_⟩, ?_, fun text => ?_, ?_⟩
  · exact ⟨fun default => iniGet_of_selected parseBool default hname h,
      fun default => iniGet_of_selected parseU32 default hname h⟩
  · exact ⟨fun default => iniGet_of_not_selected parseBool default hname h,
      fun default => iniGet_of_not_selected parseU32 default hname h⟩
  · intro before inserted after hbefore hinserted hskip
    have hlines : iniLines (inserted ++ after) = iniLines inserted ++ iniLines after := by
      rcases hinserted with hinserted | rfl
      · exact iniLines_append hinserted after
      · rw [List.append_nil]
        exact (List.append_nil _).symm
    apply sameAnswers_of_found
    rw [List.append_assoc, iniLines_append hbefore, hlines, ← List.append_assoc,
      found_skipped hskip, iniLines_append hbefore]
  · exact sameAnswers_of_found (found_newline text)
  · intro before after after' value hbefore h
    rw [← found_eq_some_iff hname] at h
    apply sameAnswers_of_found
    rw [iniLines_append hbefore, iniLines_append hbefore, found_append_of_some h,
      found_append_of_some h]

/-- A key is given a second value. -/
theorem ini_lookup_duplicate : ['i', 'o'] ≠ [] ∧
    SameAnswers ['i', 'o'] ['k']
      (['[', 'I', 'O', ']', '\n', 'K', '=', '2', '\n'] ++ ['k', '=', '1', '\n'])
      ['[', 'I', 'O', ']', '\n', 'K', '=', '2', '\n'] :=
  ⟨by decide,
    (ini_lookup ['i', 'o'] ['k'] (by decide)).2.2.2 ['[', 'I', 'O', ']', '\n', 'K', '=', '2', '\n']
      ['k', '=', '1', '\n'] [] ['2'] (Or.inr rfl)
      ((found_eq_some_iff (by decide) _ _).mp (by decide))⟩

end Affine
