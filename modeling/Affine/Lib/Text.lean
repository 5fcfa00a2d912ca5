import Mathlib.Data.List.DropRight

set_option relaxedAutoImplicit false
set_option autoImplicit false

/-!
# Text

Operations on texts, as the standard library of the language defines them. A text is the list of
its characters.

## Main definitions

* `Text.lines` — the lines of a text, without their ends.
* `Text.trim`, `Text.splitOnce`, `Text.EqIgnoreAsciiCase` — the parts of a line.
* `Text.fromStrRadix` — the number that a text stands for.

## Main results

* `Text.lines_append`, `Text.map_trim_lines_newline` — the lines of a longer text.
* `Text.splitOnce_eq_some_iff`.
-/

namespace Text

/-- The characters with the property `White_Space`. -/
def isWhitespace (c : Char) : Bool :=
  let n := c.toNat
  (0x09 ≤ n ∧ n ≤ 0x0D) ∨ n = 0x20 ∨ n = 0x85 ∨ n = 0xA0 ∨ n = 0x1680 ∨
    (0x2000 ≤ n ∧ n ≤ 0x200A) ∨ n = 0x2028 ∨ n = 0x2029 ∨ n = 0x202F ∨ n = 0x205F ∨ n = 0x3000

/-- A text without white space at its ends. -/
def trim (s : List Char) : List Char := (s.dropWhile isWhitespace).rdropWhile isWhitespace

/-- A line without the carriage return in front of its line feed. -/
def stripCr (line : List Char) : List Char :=
  if line.getLast? = some '\r' then line.dropLast else line

/-- The lines of a text. A line ends with a line feed, or with a carriage return and a line feed;
the last one may lack its end. -/
def lines (s : List Char) : List (List Char) :=
  let parts := s.splitOn '\n'
  let last := parts.getLastD []
  parts.dropLast.map stripCr ++ if last.isEmpty then [] else [last]

/-- The text up to the first `c`, and the text behind it. -/
def splitOnce (c : Char) (s : List Char) : Option (List Char × List Char) :=
  match s.dropWhile (· ≠ c) with
  | [] => none
  | _ :: after => some (s.takeWhile (· ≠ c), after)

/-- The texts are the same up to the case of the ASCII letters. -/
def EqIgnoreAsciiCase (s t : List Char) : Prop := s.map Char.toLower = t.map Char.toLower

instance (s t : List Char) : Decidable (EqIgnoreAsciiCase s t) :=
  inferInstanceAs (Decidable (_ = _))

/-- The value of a digit. -/
def toDigit (radix : ℕ) (c : Char) : Option ℕ :=
  let n := c.toNat
  let d :=
    if 0x30 ≤ n ∧ n ≤ 0x39 then n - 0x30
    else if 0x61 ≤ n ∧ n ≤ 0x7A then n - 0x61 + 10
    else if 0x41 ≤ n ∧ n ≤ 0x5A then n - 0x41 + 10
    else radix
  if d < radix then some d else none

/-- The number below `bound` with these digits. -/
def ofDigits (radix bound : ℕ) (digits : List Char) : Option ℕ :=
  digits.foldlM (fun n c => (toDigit radix c).bind fun d =>
    if n * radix + d < bound then some (n * radix + d) else none) 0

/-- The number below `bound` that a text stands for: its digits, behind a plus sign if there is
one. -/
def fromStrRadix (radix bound : ℕ) (s : List Char) : Option ℕ :=
  match s with
  | [] => none
  | '+' :: digits => if digits.isEmpty then none else ofDigits radix bound digits
  | digits => ofDigits radix bound digits

/-! ## Lines -/

/-- A line begins behind this text. -/
def LineStart (s : List Char) : Prop := s = [] ∨ s.getLast? = some '\n'

/-- An empty text has no lines. -/
lemma lines_nil : lines [] = [] := rfl

/-- The lines up to a line feed, and those behind it. -/
lemma lines_newline (s t : List Char) :
    lines (s ++ '\n' :: t) = (s.splitOn '\n').map stripCr ++ lines t := by
  have hparts : t.splitOn '\n' ≠ [] := List.splitOn_ne_nil _ _
  have hlast : (s.splitOn '\n' ++ t.splitOn '\n').getLastD [] = (t.splitOn '\n').getLastD [] := by
    rw [List.getLastD_eq_getLast?, List.getLastD_eq_getLast?,
      List.getLast?_append_of_ne_nil _ hparts]
  rw [lines, lines, List.splitOn_append_cons_self]
  simp only [hlast, List.dropLast_append_of_ne_nil hparts, List.map_append, List.append_assoc]

/-- The lines of two texts, where the second begins a line. -/
lemma lines_append {s : List Char} (hs : LineStart s) (t : List Char) :
    lines (s ++ t) = lines s ++ lines t := by
  rcases hs with rfl | hs
  · rfl
  obtain ⟨s, rfl⟩ := List.getLast?_eq_some_iff.mp hs
  have hfirst := lines_newline s []
  rw [lines_nil, List.append_nil] at hfirst
  rw [hfirst, List.append_assoc, List.singleton_append, lines_newline]

/-- White space at the end of a text is lost. -/
lemma trim_concat (s : List Char) {c : Char} (hc : isWhitespace c = true) :
    trim (s ++ [c]) = trim s := by
  rw [trim, trim, List.dropWhile_append]
  split
  · next hempty =>
    rw [List.isEmpty_iff.mp hempty, List.dropWhile_cons_of_pos hc]
    rfl
  · rw [List.rdropWhile_concat_pos _ _ _ hc]

/-- A carriage return at the end of a line is trimmed anyway. -/
lemma trim_stripCr (line : List Char) : trim (stripCr line) = trim line := by
  unfold stripCr
  split
  · next hcr =>
    obtain ⟨line, rfl⟩ := List.getLast?_eq_some_iff.mp hcr
    rw [List.dropLast_concat, trim_concat line rfl]
  · rfl

/-- A line feed at the end of a text adds at most an empty line. -/
lemma map_trim_lines_newline (s : List Char) :
    (lines (s ++ ['\n'])).map trim = (lines s).map trim ∨
      (lines (s ++ ['\n'])).map trim = (lines s).map trim ++ [[]] := by
  have hparts : s.splitOn '\n' ≠ [] := List.splitOn_ne_nil _ _
  have hsplit := List.dropLast_concat_getLast hparts
  have hlast : (s.splitOn '\n').getLastD [] = (s.splitOn '\n').getLast hparts := by
    rw [List.getLastD_eq_getLast?, List.getLast?_eq_some_getLast hparts]
    rfl
  rw [lines_newline, lines_nil, List.append_nil, ← hsplit]
  simp only [lines, hlast, List.map_append, List.map_cons, List.map_nil]
  by_cases hempty : (s.splitOn '\n').getLast hparts = []
  · right
    rw [hempty]
    simp [stripCr, trim]
  · left
    rw [if_neg (by simpa using hempty), List.map_cons, List.map_nil, trim_stripCr]

/-! ## Splitting -/

/-- A text is split at the first `c`. -/
lemma splitOnce_eq_some_iff {c : Char} {s before after : List Char} :
    splitOnce c s = some (before, after) ↔ s = before ++ c :: after ∧ c ∉ before := by
  constructor
  · intro h
    unfold splitOnce at h
    split at h
    · cases h
    · next d rest hrest =>
      obtain ⟨rfl, rfl⟩ := Prod.mk.inj (Option.some.inj h)
      have hd : d = c := by
        have hhead := List.head?_dropWhile_not (fun x => decide (x ≠ c)) s
        rw [hrest] at hhead
        simpa using hhead
      have hsplit := List.takeWhile_append_dropWhile (p := fun x => decide (x ≠ c)) (l := s)
      rw [hrest, hd] at hsplit
      refine ⟨hsplit.symm, fun hmem => ?_⟩
      simpa using List.mem_takeWhile_imp hmem
  · rintro ⟨rfl, hc⟩
    have hbefore : ∀ x ∈ before, decide (x ≠ c) = true := fun x hx =>
      decide_eq_true (ne_of_mem_of_not_mem hx hc)
    rw [splitOnce, List.dropWhile_append_of_pos hbefore, List.takeWhile_append_of_pos hbefore,
      List.dropWhile_cons_of_neg (by simp), List.takeWhile_cons_of_neg (by simp), List.append_nil]

end Text
