import Mathlib.Data.List.Basic
import Mathlib.Logic.Relation

set_option relaxedAutoImplicit false
set_option autoImplicit false

/-!
# Labelled runs

A system whose steps may carry a label: what an observer sees of a run is the list of its labels.
A step without a label is internal. One system implements another if every run of the first has a
run of the second with the same labels; `Labelled.Runs.simulation` reduces this to single steps.

## Main definitions

* `Labelled.Runs` — the runs of a system, with their labels.

## Main results

* `Labelled.Runs.invariant` — what the start has and every step keeps holds after every run.
* `Labelled.Runs.simulation` — a relation that every step keeps carries runs over with their labels.
-/

namespace Labelled

variable {σ τ l : Type}

/-- The runs of a system from a state: the labels that an observer sees, the first one first, and
the state at the end. -/
inductive Runs (Step : σ → Option l → σ → Prop) (s : σ) : List l → σ → Prop
  | nil : Runs Step s [] s
  | step {ls : List l} {t u : σ} {o : Option l} (h : Runs Step s ls t) (hstep : Step t o u) :
      Runs Step s (ls ++ o.toList) u

namespace Runs

variable {Step : σ → Option l → σ → Prop} {s t u : σ} {ls ls' : List l}

/-- An internal step. -/
lemma silent (h : Runs Step s ls t) (hstep : Step t none u) : Runs Step s ls u := by
  have hrun := h.step hstep
  rwa [Option.toList_none, List.append_nil] at hrun

/-- A visible step. -/
lemma visible {a : l} (h : Runs Step s ls t) (hstep : Step t (some a) u) :
    Runs Step s (ls ++ [a]) u := h.step hstep

/-- A run of one step. -/
lemma single {o : Option l} (hstep : Step s o u) : Runs Step s o.toList u := Runs.nil.step hstep

/-- Two runs, one behind the other. -/
lemma append (h : Runs Step s ls t) (h' : Runs Step t ls' u) : Runs Step s (ls ++ ls') u := by
  induction h' with
  | nil => rwa [List.append_nil]
  | step _ hstep ih =>
    rw [← List.append_assoc]
    exact ih.step hstep

/-- **Invariants hold after every run**, also those that speak of the labels so far.

**Proof sketch.** Induction on the run. -/
theorem invariant {P : List l → σ → Prop} (hs : P [] s)
    (hstep : ∀ ls t o u, P ls t → Step t o u → P (ls ++ o.toList) u) (h : Runs Step s ls t) :
    P ls t := by
  induction h with
  | nil => exact hs
  | step _ hu ih => exact hstep _ _ _ _ ih hu

/-- **Simulation.** If each step of the first system from a related pair of states is a run of the
second one with the same label that ends in a related pair, then every run of the first system is
one of the second with the same labels.

**Proof sketch.** Induction on the run of the first system; the runs of the second one are put
together by `append`. -/
theorem simulation {Spec : τ → Option l → τ → Prop} {R : σ → τ → Prop} {a : τ} (hs : R s a)
    (hstep : ∀ t b o u, R t b → Step t o u → ∃ c, Runs Spec b o.toList c ∧ R u c)
    (h : Runs Step s ls t) : ∃ b, Runs Spec a ls b ∧ R t b := by
  induction h with
  | nil => exact ⟨a, .nil, hs⟩
  | step _ hu ih =>
    obtain ⟨b, hb, hR⟩ := ih
    obtain ⟨c, hc, hR'⟩ := hstep _ _ _ _ hR hu
    exact ⟨c, hb.append hc, hR'⟩

end Runs

end Labelled
