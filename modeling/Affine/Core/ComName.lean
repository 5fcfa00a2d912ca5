import Affine.Lib.Utf16
import Mathlib.Data.List.Infix
import Mathlib.Data.List.TakeWhile

set_option relaxedAutoImplicit false
set_option autoImplicit false

/-!
# The name of a port

`parse_com_name` (`affine-core/src/serial.rs`), which takes the path of a serial port from the
friendly name that Windows keeps for it, such as `USB Serial Port (COM3)`. It takes the letters and
digits from the first `COM` of the name on. That is the number of the port only if the description
in front of the parentheses does not contain `COM` itself (`Affine.com_name_iff`).

## Main definitions

* `Affine.parseComName` — the source.
* `Affine.friendlyName`, `Affine.friendlyBytes` — the name of a port with a description and a
  number.

## Main results

* `Affine.com_name_iff`, with the counterexample `Affine.com_name_virtual`.
-/

namespace Affine

/-! ## The source -/

/-- The text that `parse_com_name` looks for. -/
def com : List Char := ['C', 'O', 'M']

/-- What stands in front of the name of a device in its path: `\\`, a dot and one more backslash. -/
def devicePrefix : List Char := [Char.ofNat 0x5C, Char.ofNat 0x5C, '.', Char.ofNat 0x5C]

/-- `&name[name.find(text)?..]`: the rest of a name from the first place of a text on. -/
def findFrom (text name : List Char) : Option (List Char) := name.tails.find? text.isPrefixOf

/-- `parse_com_name`. -/
def parseComName (raw : List UInt8) : Option (List Char) :=
  let wide := (Utf16.ofLeBytes raw).takeWhile (· ≠ 0)
  let name := Utf16.decodeLossy wide
  match findFrom com name with
  | none => none
  | some suffix =>
    let comName := suffix.takeWhile Char.isAlphanum
    if comName.isEmpty then none else some (devicePrefix ++ comName)

/-! ## The names of ports -/

/-- The name of a port with a description `d` and the number `n`. -/
def friendlyName (d n : List Char) : List Char := d ++ [' ', '('] ++ com ++ n ++ [')']

/-- The bytes of a name, with the code unit zero at its end and any bytes behind it. -/
def friendlyBytes (d n : List Char) (behind : List UInt8) : List UInt8 :=
  Utf16.leBytes (Utf16.encode (friendlyName d n) ++ [0]) ++ behind

/-! ## The first place of a text -/

/-- A `COM` at the beginning of a name with another `COM` in it is not overlapped by that one. -/
lemma prefix_of_prefix_append {c : Char} {u v : List Char} (h : com <+: c :: u ++ com ++ v) :
    com <+: c :: u := by
  match u, h with
  | [], h => simp [com] at h
  | [e], h => simp [com] at h
  | e :: f :: u, h => simpa [com] using h

/-- The rest of a name from its first `COM` on. -/
lemma findFrom_com {u : List Char} (v : List Char) (h : ¬ com <:+: u) :
    findFrom com (u ++ com ++ v) = some (com ++ v) := by
  induction u with
  | nil => rfl
  | cons c u ih =>
    have hhere : ¬ com.isPrefixOf (c :: u ++ com ++ v) := by
      rw [List.isPrefixOf_iff_prefix]
      intro hbegins
      exact h (prefix_of_prefix_append hbegins).isInfix
    have hlater : ¬ com <:+: u := by
      intro hinfix
      exact h (List.infix_cons hinfix)
    unfold findFrom at ih ⊢
    rw [← ih hlater]
    exact List.find?_cons_of_neg hhere

/-- A name that contains `COM` has a first place of it. -/
lemma exists_first {d : List Char} (h : com <:+: d) :
    ∃ u v, d = u ++ com ++ v ∧ ¬ com <:+: u := by
  induction d with
  | nil => exact absurd (List.infix_nil.mp h) (by decide)
  | cons c d ih =>
    by_cases hhere : com <+: c :: d
    · obtain ⟨v, hv⟩ := hhere
      exact ⟨[], v, hv.symm, by decide⟩
    · obtain ⟨u, v, rfl, hu⟩ := ih ((List.infix_cons_iff.mp h).resolve_left hhere)
      refine ⟨c :: u, v, rfl, ?_⟩
      intro hcu
      rcases List.infix_cons_iff.mp hcu with hbegins | hinfix
      · exact hhere (hbegins.trans ⟨com ++ v, by simp⟩)
      · exact hu hinfix

/-- The space and the parenthesis in front of the number do not end a `COM`. -/
lemma not_infix_open {d : List Char} (h : ¬ com <:+: d) : ¬ com <:+: d ++ [' ', '('] := by
  have hlast : ∀ (l : List Char) (c : Char), c ≠ 'M' → ¬ com <:+: l → ¬ com <:+: l ++ [c] := by
    intro l c hc hl hinfix
    rcases List.infix_concat_iff.mp hinfix with hsuffix | hinfix
    · refine hc ?_
      simpa [com] using (hsuffix.getLast (by decide)).symm
    · exact hl hinfix
  rw [← List.singleton_append, ← List.append_assoc]
  exact hlast _ _ (by decide) (hlast _ _ (by decide) h)

/-! ## The name that is found -/

/-- The letters and digits at the beginning of a text are the number `n` exactly if the text begins
with `n`, and no letter or digit follows. -/
lemma takeWhile_eq_iff {n v : List Char} (hn : ∀ c ∈ n, c.isAlphanum) :
    v.takeWhile Char.isAlphanum = n ↔ ∃ w, v = n ++ w ∧ ∀ c ∈ w.head?, ¬ c.isAlphanum := by
  constructor
  · rintro rfl
    refine ⟨v.dropWhile Char.isAlphanum, List.takeWhile_append_dropWhile.symm, ?_⟩
    intro c hc
    have := List.head?_dropWhile_not Char.isAlphanum v
    rw [hc] at this
    simpa using this
  · rintro ⟨w, rfl, hw⟩
    rw [List.takeWhile_append_of_pos hn]
    cases w with
    | nil => simp
    | cons c w => rw [List.takeWhile_cons_of_neg (hw c rfl), List.append_nil]

/-- What `parse_com_name` makes of a name whose first `COM` stands in front of `v`. -/
lemma parseComName_of_first {d n u v : List Char} (hnul : Char.ofNat 0 ∉ friendlyName d n)
    (behind : List UInt8) (hname : friendlyName d n = u ++ com ++ v) (hfirst : ¬ com <:+: u) :
    parseComName (friendlyBytes d n behind) =
      some (devicePrefix ++ com ++ v.takeWhile Char.isAlphanum) := by
  have hwide : ((Utf16.ofLeBytes (friendlyBytes d n behind)).takeWhile (· ≠ 0)) =
      Utf16.encode (friendlyName d n) := by
    rw [friendlyBytes, Utf16.ofLeBytes_leBytes_append, List.append_assoc,
      List.takeWhile_append_of_pos]
    · simp
    · intro unit hunit
      exact decide_eq_true (ne_of_mem_of_not_mem hunit (Utf16.zero_notMem_encode hnul))
  have halnum : (com ++ v).takeWhile Char.isAlphanum = com ++ v.takeWhile Char.isAlphanum :=
    List.takeWhile_append_of_pos (List.all_eq_true.mp rfl)
  unfold parseComName
  dsimp only
  rw [hwide, Utf16.decodeLossy_encode, hname, findFrom_com v hfirst]
  dsimp only
  rw [halnum, if_neg (by simp [com]), List.append_assoc]

/-- **The name of a port.** For every description without the character zero and every number, and
whatever stands behind the zero at the end, `parse_com_name` gives the path of the port with this
number exactly if the first `COM` of the description, if there is one, is the name of the port as
well: the number follows it, and no letter or digit follows the number.

**Proof sketch.** The name that is decoded is the friendly name. If the description does not contain
`COM`, its first place is the one in the parentheses. Otherwise it is in the description, and the
letters and digits from there on end at the space in front of the parentheses at the latest. -/
theorem com_name_iff (d n : List Char) (behind : List UInt8) (hd : Char.ofNat 0 ∉ d)
    (hn : ∀ c ∈ n, c.isDigit) :
    parseComName (friendlyBytes d n behind) = some (devicePrefix ++ com ++ n) ↔
      ∀ u v, d = u ++ com ++ v → ¬ com <:+: u →
        ∃ w, v = n ++ w ∧ ∀ c ∈ w.head?, ¬ c.isAlphanum := by
  have halnum : ∀ c ∈ n, c.isAlphanum := fun c hc => by simp [Char.isAlphanum, hn c hc]
  have hnul : Char.ofNat 0 ∉ friendlyName d n := by
    have hzero : Char.ofNat 0 ∉ n := fun hmem => absurd (hn _ hmem) (by decide)
    simp [friendlyName, com, hd, hzero]
  have hinside : ∀ {u v}, d = u ++ com ++ v → ¬ com <:+: u →
      (parseComName (friendlyBytes d n behind) = some (devicePrefix ++ com ++ n) ↔
        ∃ w, v = n ++ w ∧ ∀ c ∈ w.head?, ¬ c.isAlphanum) := by
    intro u v hdesc hfirst
    have hname : friendlyName d n = u ++ com ++ (v ++ ' ' :: '(' :: com ++ n ++ [')']) := by
      simp [friendlyName, hdesc]
    have hend : (v ++ ' ' :: '(' :: com ++ n ++ [')']).takeWhile Char.isAlphanum =
        v.takeWhile Char.isAlphanum := by
      simp only [List.append_assoc, List.cons_append, List.takeWhile_append]
      split_ifs with hall
      · rw [List.takeWhile_cons_of_neg (by decide), List.append_nil]
        exact (List.takeWhile_prefix _).eq_of_length hall |>.symm
      · rfl
    rw [parseComName_of_first hnul behind hname hfirst, hend, Option.some_inj,
      List.append_cancel_left_eq, takeWhile_eq_iff halnum]
  constructor
  · intro hfound u v hdesc hfirst
    exact (hinside hdesc hfirst).mp hfound
  · intro hcond
    by_cases hcom : com <:+: d
    · obtain ⟨u, v, hdesc, hfirst⟩ := exists_first hcom
      exact (hinside hdesc hfirst).mpr (hcond u v hdesc hfirst)
    · have hname : friendlyName d n = d ++ [' ', '('] ++ com ++ (n ++ [')']) := by
        simp [friendlyName]
      rw [parseComName_of_first hnul behind hname (not_infix_open hcom),
        (takeWhile_eq_iff halnum).mpr ⟨[')'], rfl, by simp⟩]

/-- A description without the text `COM`. -/
theorem com_name_serial :
    parseComName (friendlyBytes ['U', 'S', 'B', ' ', 'S', 'e', 'r', 'i', 'a', 'l'] ['1', '2'] []) =
        some (devicePrefix ++ com ++ ['1', '2']) ↔
      ∀ u v, ['U', 'S', 'B', ' ', 'S', 'e', 'r', 'i', 'a', 'l'] = u ++ com ++ v → ¬ com <:+: u →
        ∃ w, v = ['1', '2'] ++ w ∧ ∀ c ∈ w.head?, ¬ c.isAlphanum :=
  com_name_iff _ _ [] (by decide) (List.all_eq_true.mp rfl)

/-- The description `Virtual COM Port`. -/
def virtualComPort : List Char :=
  ['V', 'i', 'r', 't', 'u', 'a', 'l', ' '] ++ com ++ [' ', 'P', 'o', 'r', 't']

/-- **The text `COM` of the description is taken for the port name**, and the number is lost. -/
theorem com_name_virtual :
    Char.ofNat 0 ∉ virtualComPort ∧
    parseComName (friendlyBytes virtualComPort ['3'] []) = some (devicePrefix ++ com) ∧
    parseComName (friendlyBytes virtualComPort ['3'] []) ≠ some (devicePrefix ++ com ++ ['3']) := by
  decide

end Affine
