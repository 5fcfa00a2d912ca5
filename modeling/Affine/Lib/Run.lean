import Mathlib.Data.List.Induction

set_option relaxedAutoImplicit false
set_option autoImplicit false

/-!
# Runs of a state machine

A system takes one step for each event of a list; a step can stop with an error, and then the
run ends there. `Run.Always` says that a property holds of every state that a run reaches, the
states between the events included.

The rules below reduce a statement about a run to one about a step. `Run.always_iff` is the rule
for a property that not every step preserves: if, from states of an invariant, a step preserves
the property exactly under some condition on the state before it and the event, then the property
holds along a run exactly if every step of the run meets that condition.

## Main results

* `Run.exec_invariant` — an invariant holds after every run.
* `Run.always_of_eachStep` — a property holds along a run whose steps meet its condition.
* `Run.always_iff` — a property holds along a run exactly if its steps meet their condition.

`Run.observed` is a system with notes about its run, for properties that need more than the state.
-/

namespace Run

variable {σ α ε : Type}

/-- The state after a list of events. -/
def exec (step : α → σ → Except ε σ) : σ → List α → Except ε σ
  | s, [] => .ok s
  | s, a :: as =>
    match step a s with
    | .ok s' => exec step s' as
    | .error e => .error e

variable (step : α → σ → Except ε σ)

/-- A run without actions stays. -/
@[simp] lemma exec_nil (s : σ) : exec step s [] = .ok s := rfl

/-- A run succeeds if its first step does, and then the others. -/
lemma exec_cons_eq_ok {s t : σ} {a : α} {as : List α} :
    exec step s (a :: as) = .ok t ↔ ∃ s', step a s = .ok s' ∧ exec step s' as = .ok t := by
  rw [exec]
  cases step a s <;> simp

/-- The last step of a run. -/
lemma exec_concat_eq_ok {s t : σ} {as : List α} {a : α} :
    exec step s (as ++ [a]) = .ok t ↔ ∃ s', exec step s as = .ok s' ∧ step a s' = .ok t := by
  induction as generalizing s with
  | nil => simp [exec_cons_eq_ok]
  | cons b as ih =>
    simp only [List.cons_append, exec_cons_eq_ok, ih]
    constructor
    · rintro ⟨s₁, hb, s₂, has, ha⟩
      exact ⟨s₂, ⟨s₁, hb, has⟩, ha⟩
    · rintro ⟨s₂, ⟨s₁, hb, has⟩, ha⟩
      exact ⟨s₁, hb, s₂, has, ha⟩

/-- A run can be cut in two. -/
lemma exec_append (s : σ) (as bs : List α) :
    exec step s (as ++ bs) = exec step s as >>= fun t => exec step t bs := by
  induction as generalizing s with
  | nil => rfl
  | cons a as ih =>
    rw [List.cons_append, exec, exec]
    cases step a s with
    | ok t => exact ih t
    | error e => rfl

/-- A step that is itself a run of smaller steps. -/
lemma exec_flatMap {β : Type} {small : β → σ → Except ε σ} {f : α → List β}
    (h : ∀ a s, step a s = exec small s (f a)) (s : σ) (as : List α) :
    exec step s as = exec small s (as.flatMap f) := by
  induction as generalizing s with
  | nil => rfl
  | cons a as ih =>
    rw [List.flatMap_cons, exec_append, exec, h]
    cases exec small s (f a) with
    | ok t => exact ih t
    | error e => rfl

/-- The property holds of every state that the run reaches. -/
def Always (s : σ) (as : List α) (P : σ → Prop) : Prop :=
  ∀ pre t, pre <+: as → exec step s pre = .ok t → P t

/-- Every step of the run meets a condition on the state before it and the event. -/
def EachStep (s : σ) (as : List α) (C : σ → α → Prop) : Prop :=
  ∀ pre a t u, pre ++ [a] <+: as → exec step s pre = .ok t → step a t = .ok u → C t a

variable {γ : Type}

/-- A step together with notes about the run, which the system itself does not read: the event and
the states before and behind it decide what is noted. -/
def observed (note : α → σ → σ → γ → γ) (a : α) (s : σ × γ) : Except ε (σ × γ) :=
  (step a s.1).map fun t => (t, note a s.1 t s.2)

variable {step} {s : σ} {as : List α}

/-- A step with notes is a step of the system. -/
lemma observed_eq_ok {note : α → σ → σ → γ → γ} {a : α} {s t : σ × γ} :
    observed step note a s = .ok t ↔ ∃ u, step a s.1 = .ok u ∧ (u, note a s.1 u s.2) = t := by
  unfold observed
  cases step a s.1 <;> simp [Except.map]

/-- A run with notes is a run of the system. -/
lemma exec_observed {note : α → σ → σ → γ → γ} {g : γ} {t : σ × γ}
    (h : exec (observed step note) (s, g) as = .ok t) : exec step s as = .ok t.1 := by
  induction as using List.reverseRecOn generalizing t with
  | nil =>
    cases h
    rfl
  | append_singleton as a ih =>
    obtain ⟨t', has, ha⟩ := (exec_concat_eq_ok _).mp h
    obtain ⟨u, hu, rfl⟩ := observed_eq_ok.mp ha
    exact (exec_concat_eq_ok step).mpr ⟨t'.1, ih has, hu⟩

/-- The steps of a run meet a condition whether or not notes are taken. -/
lemma EachStep.observed {note : α → σ → σ → γ → γ} {g : γ} {C : σ → α → Prop}
    (h : EachStep step s as C) :
    EachStep (observed step note) (s, g) as fun r a => C r.1 a := by
  intro pre a t u hpre ht ha
  obtain ⟨u', hu', -⟩ := observed_eq_ok.mp ha
  exact h pre a t.1 u' hpre (exec_observed ht) hu'

/-- **Invariants hold after every run.**

**Proof sketch.** Induction on the run, whose last step is from a state of the invariant. -/
theorem exec_invariant {P : σ → Prop} (hs : P s)
    (hstep : ∀ a t u, P t → step a t = .ok u → P u) {t : σ} (h : exec step s as = .ok t) : P t := by
  induction as using List.reverseRecOn generalizing t with
  | nil =>
    cases h
    exact hs
  | append_singleton as a ih =>
    obtain ⟨t', has, ha⟩ := (exec_concat_eq_ok step).mp h
    exact hstep a t' t (ih has) ha

/-- If from an invariant every step is possible and leads back to it, then so does every run. -/
lemma exists_exec {P : σ → Prop} (hs : P s)
    (hstep : ∀ a t, P t → ∃ u, step a t = .ok u ∧ P u) (as : List α) :
    ∃ t, exec step s as = .ok t ∧ P t := by
  induction as generalizing s with
  | nil => exact ⟨s, rfl, hs⟩
  | cons a as ih =>
    obtain ⟨u, hu, hPu⟩ := hstep a s hs
    obtain ⟨t, ht, hPt⟩ := ih hPu
    exact ⟨t, (exec_cons_eq_ok step).mpr ⟨u, hu, ht⟩, hPt⟩

/-- **A property holds along a run whose steps meet its condition**, if such steps preserve it.

**Proof sketch.** Induction on the prefixes of the run. -/
theorem always_of_eachStep {P : σ → Prop} {C : σ → α → Prop} (hs : P s)
    (hstep : ∀ a t u, P t → C t a → step a t = .ok u → P u) (h : EachStep step s as C) :
    Always step s as P := by
  intro pre
  induction pre using List.reverseRecOn with
  | nil =>
    rintro t - ht
    cases ht
    exact hs
  | append_singleton pre a ih =>
    intro u hpre hu
    obtain ⟨t, ht, ha⟩ := (exec_concat_eq_ok step).mp hu
    have hPt := ih t ((List.prefix_append pre [a]).trans hpre) ht
    exact hstep a t u hPt (h pre a t u hpre ht ha) ha

/-- **A property holds along a run exactly if every step meets its condition.**

**Proof sketch.** If the property holds along the run, then it holds before and after each step,
so the step meets the condition. Conversely, the condition carries the property, with the
invariant, over each step (`always_of_eachStep`). -/
theorem always_iff {I P : σ → Prop} {C : σ → α → Prop} (hinv : I s)
    (hinvStep : ∀ a t u, I t → step a t = .ok u → I u) (hs : P s)
    (hstep : ∀ a t u, I t → P t → step a t = .ok u → (P u ↔ C t a)) :
    Always step s as P ↔ EachStep step s as C := by
  constructor
  · intro h pre a t u hpre ht ha
    have hIt : I t := exec_invariant hinv hinvStep ht
    have hPt := h pre t ((List.prefix_append pre [a]).trans hpre) ht
    have hPu := h (pre ++ [a]) u hpre ((exec_concat_eq_ok step).mpr ⟨t, ht, ha⟩)
    exact (hstep a t u hIt hPt ha).mp hPu
  · intro h
    have hboth : Always step s as fun t => I t ∧ P t :=
      always_of_eachStep ⟨hinv, hs⟩
        (fun a t u ht ha hu => ⟨hinvStep a t u ht.1 hu, (hstep a t u ht.1 ht.2 hu).mpr ha⟩) h
    exact fun pre t hpre ht => (hboth pre t hpre ht).2

/-- A property that does not hold at the end of a run does not hold along it. -/
lemma not_always_of_exec {P : σ → Prop} [DecidablePred P]
    (h : (exec step s as).map (fun t => decide (P t)) = .ok false) : ¬ Always step s as P := by
  intro hP
  cases ht : exec step s as with
  | error e =>
    rw [ht] at h
    cases h
  | ok t =>
    rw [ht] at h
    exact of_decide_eq_false (Except.ok.inj h) (hP as t (List.prefix_refl as) ht)

/-- A condition on the events alone. -/
lemma eachStep_of_forall_mem {C : σ → α → Prop} (h : ∀ a ∈ as, ∀ t, C t a) :
    EachStep step s as C := by
  intro pre a t u hpre _ _
  exact h a (hpre.subset (List.mem_append_right pre (List.mem_singleton_self a))) t

/-- Two conditions that agree on the steps from states of an invariant. -/
theorem eachStep_congr {I : σ → Prop} {C D : σ → α → Prop} (hinv : I s)
    (hinvStep : ∀ a t u, I t → step a t = .ok u → I u)
    (h : ∀ a t u, I t → step a t = .ok u → (C t a ↔ D t a)) :
    EachStep step s as C ↔ EachStep step s as D := by
  constructor
  · intro hC pre a t u hpre ht ha
    exact (h a t u (exec_invariant hinv hinvStep ht) ha).mp (hC pre a t u hpre ht ha)
  · intro hD pre a t u hpre ht ha
    exact (h a t u (exec_invariant hinv hinvStep ht) ha).mpr (hD pre a t u hpre ht ha)

end Run
