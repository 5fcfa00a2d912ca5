import Mathlib.Data.List.Basic

set_option relaxedAutoImplicit false
set_option autoImplicit false

/-!
# Machines that answer each input symbol

A machine with states `σ` reads one symbol of `ι` at a time and answers each with an output in
`ο`. `Mealy.run` is its run over a word: the final state and one output for every symbol, so a
statement about the run also says at which symbol an output appears.

## Main results

* `Mealy.run_append` — a run over a concatenation is the run over the first part followed by
  the run over the second.
* `Mealy.run_take` — the outputs of a prefix are a prefix of the outputs.

A reader that stops at the first output, when the machine has an output only now and then, is
`Mealy.seek`; `Mealy.seek_append` says that it does not matter how the word is cut into pieces,
and `Mealy.seek_eq_inr_iff` describes the stop by the run.
-/

namespace Mealy

variable {σ ι ο : Type}

/-- The final state and the outputs of a run. -/
def run (step : σ → ι → σ × ο) : σ → List ι → σ × List ο
  | s, [] => (s, [])
  | s, x :: xs =>
    let (s', o) := step s x
    let (s'', os) := run step s' xs
    (s'', o :: os)

variable (step : σ → ι → σ × ο)

/-- A machine without input stays. -/
@[simp] lemma run_nil (s : σ) : run step s [] = (s, []) := rfl

/-- A machine takes the first input, and then the others. -/
@[simp] lemma run_cons (s : σ) (x : ι) (xs : List ι) :
    run step s (x :: xs) =
      ((run step (step s x).1 xs).1, (step s x).2 :: (run step (step s x).1 xs).2) := rfl

/-- Inputs behind others are taken from the state that those leave. -/
lemma run_append (s : σ) (xs ys : List ι) :
    run step s (xs ++ ys) =
      ((run step (run step s xs).1 ys).1,
        (run step s xs).2 ++ (run step (run step s xs).1 ys).2) := by
  induction xs generalizing s with
  | nil => rfl
  | cons x xs ih => simp [ih]

/-- Every symbol is answered once. -/
@[simp] lemma length_run (s : σ) (xs : List ι) : (run step s xs).2.length = xs.length := by
  induction xs generalizing s with
  | nil => rfl
  | cons x xs ih => simp [ih]

/-- A run over a prefix gives the same outputs, as far as it goes. -/
lemma run_take (s : σ) (xs : List ι) (k : ℕ) :
    (run step s (xs.take k)).2 = (run step s xs).2.take k := by
  induction xs generalizing s k with
  | nil => simp
  | cons x xs ih => cases k <;> simp [ih]

/-! ## Stopping at the first output -/

/-- Read symbols up to the first output: the state if there is none, otherwise the output and
the symbols that are left. -/
def seek {ρ : Type} (step : σ → ι → σ × Option ρ) : σ → List ι → σ ⊕ ρ × List ι
  | s, [] => .inl s
  | s, x :: xs =>
    match (step s x).2 with
    | some r => .inr (r, xs)
    | none => seek step (step s x).1 xs

variable {ρ : Type} {step : σ → ι → σ × Option ρ}

/-- An input without an output is passed over. -/
lemma seek_cons_none {s : σ} {x : ι} (h : (step s x).2 = none) (xs : List ι) :
    seek step s (x :: xs) = seek step (step s x).1 xs := by
  simp [seek, h]

/-- The first output ends the search. -/
lemma seek_cons_some {s : σ} {x : ι} {r : ρ} (h : (step s x).2 = some r) (xs : List ι) :
    seek step s (x :: xs) = .inr (r, xs) := by
  simp [seek, h]

/-- Reading a concatenation is reading its parts one after the other. -/
lemma seek_append (s : σ) (xs ys : List ι) :
    seek step s (xs ++ ys) =
      match seek step s xs with
      | .inl s' => seek step s' ys
      | .inr (r, rest) => .inr (r, rest ++ ys) := by
  induction xs generalizing s with
  | nil => rfl
  | cons x xs ih =>
    cases h : (step s x).2 with
    | none => rw [List.cons_append, seek_cons_none h, seek_cons_none h, ih]
    | some r => rw [List.cons_append, seek_cons_some h, seek_cons_some h]

/-- Nothing is found in a word exactly when no prefix of it ends in an output.

**Proof sketch.** Induction on the input. -/
lemma seek_eq_inl_iff (s : σ) (xs : List ι) :
    (∃ s', seek step s xs = .inl s') ↔
      ∀ pre x, pre ++ [x] <+: xs → (step (run step s pre).1 x).2 = none := by
  induction xs generalizing s with
  | nil => simp [seek]
  | cons y ys ih =>
    cases h : (step s y).2 with
    | none =>
      rw [seek_cons_none h, ih]
      constructor
      · intro hys pre x hpre
        rcases pre with _ | ⟨z, pre⟩
        · obtain ⟨rfl, -⟩ := List.cons_prefix_cons.mp hpre
          exact h
        · obtain ⟨rfl, hpre'⟩ := List.cons_prefix_cons.mp hpre
          exact hys pre x hpre'
      · intro hyys pre x hpre
        exact hyys (y :: pre) x (List.cons_prefix_cons.mpr ⟨rfl, hpre⟩)
    | some r =>
      rw [seek_cons_some h]
      constructor
      · rintro ⟨s', hs'⟩
        cases hs'
      · intro hyys
        have := hyys [] y (List.cons_prefix_cons.mpr ⟨rfl, List.nil_prefix⟩)
        rw [run_nil, h] at this
        cases this

/-- What is found is the first output of the run.

**Proof sketch.** Induction on the input: the first input ends the search, or it is passed over. -/
lemma seek_eq_inr_iff (s : σ) (xs rest : List ι) (r : ρ) :
    seek step s xs = .inr (r, rest) ↔
      ∃ pre x, xs = pre ++ x :: rest ∧ (∃ s', seek step s pre = .inl s') ∧
        (step (run step s pre).1 x).2 = some r := by
  induction xs generalizing s with
  | nil => simp [seek]
  | cons y ys ih =>
    cases h : (step s y).2 with
    | none =>
      rw [seek_cons_none h, ih]
      constructor
      · rintro ⟨pre, x, rfl, hpre, hx⟩
        exact ⟨y :: pre, x, rfl, by rwa [seek_cons_none h], hx⟩
      · rintro ⟨pre, x, he, hpre, hx⟩
        rcases pre with _ | ⟨z, pre⟩
        · obtain ⟨rfl, rfl⟩ := List.cons.inj he
          rw [run_nil, h] at hx
          cases hx
        · obtain ⟨rfl, rfl⟩ := List.cons.inj he
          exact ⟨pre, x, rfl, by rwa [seek_cons_none h] at hpre, hx⟩
    | some r' =>
      rw [seek_cons_some h]
      constructor
      · intro he
        obtain ⟨rfl, rfl⟩ : r' = r ∧ ys = rest := by simpa using he
        exact ⟨[], y, rfl, ⟨s, rfl⟩, h⟩
      · rintro ⟨pre, x, he, ⟨s', hpre⟩, hx⟩
        rcases pre with _ | ⟨z, pre⟩
        · obtain ⟨rfl, rfl⟩ := List.cons.inj he
          rw [run_nil, h] at hx
          rw [Option.some.inj hx]
        · obtain ⟨rfl, -⟩ := List.cons.inj he
          rw [seek_cons_some h] at hpre
          cases hpre

/-- A word whose run has its only output at the last symbol is read to its end.

**Proof sketch.** Induction on the input: the outputs in front of the last one are none. -/
lemma seek_of_run {s : σ} {xs : List ι} {r : ρ} {k : ℕ}
    (h : (run step s xs).2 = List.replicate k none ++ [some r]) :
    seek step s xs = .inr (r, []) := by
  induction xs generalizing s k with
  | nil => simp at h
  | cons x xs ih =>
    rw [run_cons] at h
    cases k with
    | zero =>
      obtain ⟨hx, hnil⟩ : (step s x).2 = some r ∧ (run step (step s x).1 xs).2 = [] := by
        simpa using h
      obtain rfl : xs = [] := by
        have := congrArg List.length hnil
        rw [length_run] at this
        exact List.length_eq_zero_iff.mp this
      exact seek_cons_some hx []
    | succ k =>
      obtain ⟨hx, hrest⟩ : (step s x).2 = none ∧
          (run step (step s x).1 xs).2 = List.replicate k none ++ [some r] := by
        simpa [List.replicate_succ] using h
      rw [seek_cons_none hx]
      exact ih hrest

end Mealy
