import Mathlib.Data.List.Basic

set_option relaxedAutoImplicit false
set_option autoImplicit false

/-!
# What was there when

A trace is what an observer has seen of a run so far. Its times are the numbers up to its length,
and what is there at a time is a function of the part of the trace before it. A thread that reads
something keeps what was there at the time; the facts below are what remains of it when the run goes
on.

## Main definitions

* `Trace.Seen` — something was there at a time, not before another one.
* `Trace.Quiet` — nothing of a kind has happened since a time.

## Main results

* `Trace.Seen.of_quiet` — what was seen since a time at which it was there and has not changed.
-/

namespace Trace

variable {l α : Type}

/-- At the time `k`, not before `n`, this was there. -/
def Seen (f : List l → α) (ls : List l) (n k : ℕ) (a : α) : Prop :=
  n ≤ k ∧ k ≤ ls.length ∧ f (ls.take k) = a

/-- Since the time `n` nothing of a kind has happened. -/
def Quiet (p : l → Prop) (ls : List l) (n : ℕ) : Prop :=
  ∀ j x, n ≤ j → ls[j]? = some x → ¬ p x

variable {f : List l → α} {p : l → Prop} {ls : List l} {n k : ℕ} {a : α}

/-- What is there now. -/
lemma Seen.now (hn : n ≤ ls.length) (ha : f ls = a) : Seen f ls n ls.length a :=
  ⟨hn, Nat.le_refl _, by rwa [List.take_length]⟩

/-- The trace goes on. -/
lemma Seen.append (h : Seen f ls n k a) (ls' : List l) : Seen f (ls ++ ls') n k a := by
  obtain ⟨hn, hk, ha⟩ := h
  refine ⟨hn, ?_, ?_⟩
  · rw [List.length_append]
    omega
  · rwa [List.take_append_of_le_length hk]

/-- Nothing has happened since now. -/
lemma Quiet.now (p : l → Prop) (ls : List l) : Quiet p ls ls.length := by
  intro j x hj hx
  rw [List.getElem?_eq_none hj] at hx
  cases hx

/-- Something of another kind happens. -/
lemma Quiet.concat (h : Quiet p ls n) {x : l} (hx : ¬ p x) : Quiet p (ls ++ [x]) n := by
  intro j y hj hy
  rcases Nat.lt_trichotomy j ls.length with hlt | rfl | hgt
  · rw [List.getElem?_append_left hlt] at hy
    exact h j y hj hy
  · rw [List.getElem?_concat_length] at hy
    rwa [← Option.some.inj hy]
  · rw [List.getElem?_eq_none (by simp; omega)] at hy
    cases hy

/-- If something of the kind is in the trace, then it was before the quiet time. -/
lemma Quiet.lt_of_split {pre post : List l} {x : l} (h : Quiet p (pre ++ x :: post) n) (hx : p x) :
    pre.length < n := by
  by_contra hle
  exact h pre.length x (by omega) (by simp) hx

/-- **What was seen since a time at which it was there and has not changed** is what was there
then. -/
lemma Seen.of_quiet {pre post : List l} {b : α} (h : Seen f (pre ++ post) n k a)
    (hn : pre.length ≤ n) (hsame : ∀ post', post' <+: post → f (pre ++ post') = b) : a = b := by
  obtain ⟨hnk, hk, rfl⟩ := h
  rw [List.take_append, List.take_of_length_le (by omega)]
  exact hsame _ (List.take_prefix _ _)

end Trace
