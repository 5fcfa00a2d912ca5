import Mathlib.Data.List.TakeWhile

set_option relaxedAutoImplicit false
set_option autoImplicit false

/-!
# Multi-strings

A list of strings in one buffer: each string is closed by a terminator, and the list by an empty
string. What stands behind the empty string does not belong to the list, and a buffer that ends
inside a string has it as its last one.

## Main definitions

* `MultiString.encode` — strings, each with its terminator.
* `MultiString.parse` — the strings of a buffer.

## Main results

* `MultiString.parse_terminated`, `MultiString.parse_unterminated`.
* `MultiString.parse_cons`, `MultiString.parse_last` — the first string of a buffer.
-/

namespace MultiString

variable {α : Type} [DecidableEq α] {nul : α}

/-- The strings, each with its terminator. -/
def encode (nul : α) (strings : List (List α)) : List α := strings.flatMap (· ++ [nul])

/-- The strings of a buffer: its parts between terminators, up to the first empty one. -/
def parse (nul : α) (buffer : List α) : List (List α) :=
  (buffer.splitOn nul).takeWhile (· ≠ [])

/-- An empty list has no strings. -/
lemma parse_nil (nul : α) : parse nul [] = [] := rfl

/-- An empty string closes the list. -/
lemma parse_nul (rest : List α) : parse nul (nul :: rest) = [] := by
  have hsplit := List.splitOn_append_cons_self_of_not_mem (List.not_mem_nil (a := nul)) rest
  rw [List.nil_append] at hsplit
  rw [parse, hsplit, List.takeWhile_cons_of_neg (by simp)]

/-- The first string, if the buffer has its terminator. -/
lemma parse_cons {s : List α} (hnul : nul ∉ s) (hne : s ≠ []) (rest : List α) :
    parse nul (s ++ nul :: rest) = s :: parse nul rest := by
  rw [parse, List.splitOn_append_cons_self_of_not_mem hnul, List.takeWhile_cons_of_pos (by simpa)]
  rfl

/-- A buffer without a terminator is one string. -/
lemma parse_last {s : List α} (hnul : nul ∉ s) (hne : s ≠ []) : parse nul s = [s] := by
  rw [parse, List.splitOn_eq_singleton hnul, List.takeWhile_cons_of_pos (by simpa)]
  rfl

/-- Looking for the first terminator: the buffer has a string in front of it, or is one string. -/
lemma findIdx?_nul (nul : α) (buffer : List α) :
    (∃ s rest, buffer = s ++ nul :: rest ∧ nul ∉ s ∧
        buffer.findIdx? (fun a => decide (a = nul)) = some s.length) ∨
      nul ∉ buffer ∧ buffer.findIdx? (fun a => decide (a = nul)) = none := by
  induction buffer with
  | nil => exact .inr ⟨List.not_mem_nil, rfl⟩
  | cons a buffer ih =>
    by_cases ha : a = nul
    · subst ha
      exact .inl ⟨[], buffer, rfl, List.not_mem_nil, by simp [List.findIdx?_cons]⟩
    · rcases ih with ⟨s, rest, rfl, hnul, hfind⟩ | ⟨hnul, hfind⟩
      · refine .inl ⟨a :: s, rest, rfl, by simp [Ne.symm ha, hnul], ?_⟩
        rw [List.findIdx?_cons, hfind]
        simp [ha]
      · refine .inr ⟨by simp [Ne.symm ha, hnul], ?_⟩
        rw [List.findIdx?_cons, hfind]
        simp [ha]

/-- The strings in front of a buffer. -/
lemma parse_encode_append {strings : List (List α)} (h : ∀ s ∈ strings, s ≠ [] ∧ nul ∉ s)
    (rest : List α) : parse nul (encode nul strings ++ rest) = strings ++ parse nul rest := by
  induction strings with
  | nil => rfl
  | cons s strings ih =>
    obtain ⟨hne, hnul⟩ := h s List.mem_cons_self
    have ih' := ih fun s' hs' => h s' (List.mem_cons_of_mem s hs')
    have hsplit : encode nul (s :: strings) ++ rest = s ++ nul :: (encode nul strings ++ rest) := by
      simp [encode]
    rw [hsplit, parse_cons hnul hne, ih', List.cons_append]

/-- **The list of a buffer ends at the empty string**, whatever stands behind it. -/
theorem parse_terminated {strings : List (List α)} (h : ∀ s ∈ strings, s ≠ [] ∧ nul ∉ s)
    (rest : List α) : parse nul (encode nul strings ++ nul :: rest) = strings := by
  rw [parse_encode_append h, parse_nul, List.append_nil]

/-- **A buffer that ends inside a string** has it as its last one. -/
theorem parse_unterminated {strings : List (List α)} (h : ∀ s ∈ strings, s ≠ [] ∧ nul ∉ s)
    {tail : List α} (hnul : nul ∉ tail) (hne : tail ≠ []) :
    parse nul (encode nul strings ++ tail) = strings ++ [tail] := by
  rw [parse_encode_append h, parse_last hnul hne]

end MultiString
