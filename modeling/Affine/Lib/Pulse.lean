import Mathlib.Data.Finset.Prod
import Mathlib.Algebra.BigOperators.Intervals
import Mathlib.Data.List.GetD

set_option relaxedAutoImplicit false
set_option autoImplicit false

/-!
# The rising edges of a signal

A signal that is sampled at discrete times is a list of Booleans. It rises at a time at which it is
up and was not up before, and each maximal interval in which it is up begins with a rising edge, so
there are as many of these intervals as there are rising edges.

## Main definitions

* `Pulse.before`, `Pulse.rising` — the sample before a time, and the rising edges of a signal.
* `Pulse.intervals` — the maximal intervals in which a signal is up, as pairs of their first and
  their last time.

## Main results

* `Pulse.getElem?_rising` — what a rising edge is.
* `Pulse.count_rising` — there are as many of them as there are maximal intervals.
-/

namespace Pulse

/-- The sample before the time `k`, when `prev` was the sample before the signal. -/
def before (prev : Bool) (bs : List Bool) (k : ℕ) : Bool :=
  if k = 0 then prev else bs.getD (k - 1) false

/-- The rising edges of a signal, when `prev` was the sample before it. -/
def rising : Bool → List Bool → List Bool
  | _, [] => []
  | prev, b :: bs => (b && !prev) :: rising b bs

/-- The maximal intervals in which a signal is up. -/
def intervals (bs : List Bool) : Finset (ℕ × ℕ) :=
  (Finset.range bs.length ×ˢ Finset.range bs.length).filter fun p =>
    p.1 ≤ p.2 ∧ (∀ k, p.1 ≤ k → k ≤ p.2 → bs.getD k false = true) ∧
      before false bs p.1 = false ∧ bs.getD (p.2 + 1) false = false

variable {bs : List Bool} {prev : Bool} {k : ℕ}

/-- A signal rises where it is up and was not up before. -/
lemma getElem?_rising (prev : Bool) (bs : List Bool) (k : ℕ) :
    (rising prev bs)[k]? = bs[k]?.map fun b => b && !before prev bs k := by
  induction bs generalizing prev k with
  | nil => simp [rising]
  | cons b bs ih =>
    cases k with
    | zero => simp [rising, before]
    | succ k =>
      rw [rising, List.getElem?_cons_succ, List.getElem?_cons_succ, ih]
      have hbefore : before b bs k = before prev (b :: bs) (k + 1) := by
        cases k <;> simp [before]
      rw [hbefore]

/-- There is a rising edge where a bit is set and the one before is not. -/
lemma getD_rising (prev : Bool) (bs : List Bool) (k : ℕ) :
    (rising prev bs).getD k false = (bs.getD k false && !before prev bs k) := by
  rw [List.getD_eq_getElem?_getD, getElem?_rising, List.getD_eq_getElem?_getD]
  cases bs[k]? <;> rfl

/-- There is an edge bit for every bit. -/
@[simp] lemma length_rising (prev : Bool) (bs : List Bool) :
    (rising prev bs).length = bs.length := by
  induction bs generalizing prev with
  | nil => rfl
  | cons b bs ih => simp [rising, ih]

/-- A signal that is up goes down at some time.

**Proof sketch.** The first time behind `k` at which the signal is down, or its end. -/
lemma exists_last (h : bs.getD k false = true) :
    ∃ j, k ≤ j ∧ j < bs.length ∧ (∀ i, k ≤ i → i ≤ j → bs.getD i false = true) ∧
      bs.getD (j + 1) false = false := by
  have hdown : ∃ n, bs.getD (k + n) false = false :=
    ⟨bs.length, List.getD_eq_default _ _ (by omega)⟩
  classical
  obtain ⟨n, hn, hmin⟩ : ∃ n, bs.getD (k + n) false = false ∧
      ∀ m < n, bs.getD (k + m) false = true := by
    refine ⟨Nat.find hdown, Nat.find_spec hdown, fun m hm => ?_⟩
    exact Bool.eq_true_of_not_eq_false (Nat.find_min hdown hm)
  have hpos : 0 < n := by
    rcases Nat.eq_zero_or_pos n with rfl | hpos
    · rw [Nat.add_zero, h] at hn
      cases hn
    · exact hpos
  refine ⟨k + n - 1, by omega, ?_, ?_, ?_⟩
  · by_contra hlen
    have hlast := hmin (n - 1) (by omega)
    rw [List.getD_eq_default _ _ (by omega)] at hlast
    cases hlast
  · intro i hki hin
    have hup := hmin (i - k) (by omega)
    rwa [Nat.add_sub_cancel' hki] at hup
  · rwa [show k + n - 1 + 1 = k + n by omega]

/-- The samples that are up, counted by their times. -/
lemma count_eq_card (bs : List Bool) :
    bs.count true = ((Finset.range bs.length).filter fun k => bs.getD k false = true).card := by
  induction bs with
  | nil => rfl
  | cons b bs ih =>
    rw [List.count_cons, ih, Finset.card_filter, Finset.card_filter, List.length_cons,
      Finset.sum_range_succ']
    simp only [List.getD_cons_succ, List.getD_cons_zero, beq_iff_eq]

/-- **There are as many rising edges as maximal intervals.**

**Proof sketch.** A maximal interval begins with a rising edge, two that begin at the same time end
at the same time, and the interval of a rising edge goes on until the signal is down. -/
theorem count_rising (bs : List Bool) :
    (rising false bs).count true = (intervals bs).card := by
  rw [count_eq_card, length_rising]
  symm
  apply Finset.card_bij fun p _ => p.1
  · intro p hp
    simp only [intervals, Finset.mem_filter, Finset.mem_product, Finset.mem_range] at hp
    obtain ⟨⟨hstart, -⟩, hle, hup, hbefore, -⟩ := hp
    simp only [Finset.mem_filter, Finset.mem_range, getD_rising, hbefore, hup p.1 le_rfl hle]
    exact ⟨hstart, rfl⟩
  · intro p hp q hq hpq
    simp only [intervals, Finset.mem_filter] at hp hq
    obtain ⟨-, hple, hpup, -, hpend⟩ := hp
    obtain ⟨-, hqle, hqup, -, hqend⟩ := hq
    -- the one that ends first is followed by a sample that is down
    have hnot : ∀ {a b : ℕ × ℕ}, a.1 = b.1 → a.1 ≤ a.2 →
        (∀ k, b.1 ≤ k → k ≤ b.2 → bs.getD k false = true) → bs.getD (a.2 + 1) false = false →
        ¬ a.2 < b.2 := by
      intro a b hab hale hbup haend hlt
      have hup := hbup (a.2 + 1) (by omega) (by omega)
      rw [haend] at hup
      cases hup
    have h1 := hnot hpq hple hqup hpend
    have h2 := hnot hpq.symm hqle hpup hqend
    exact Prod.ext hpq (by omega)
  · intro k hk
    simp only [Finset.mem_filter, Finset.mem_range, getD_rising, Bool.and_eq_true,
      Bool.not_eq_true'] at hk
    obtain ⟨hlen, hup, hbefore⟩ := hk
    obtain ⟨j, hkj, hj, hall, hend⟩ := exists_last hup
    refine ⟨(k, j), ?_, rfl⟩
    simp only [intervals, Finset.mem_filter, Finset.mem_product, Finset.mem_range]
    exact ⟨⟨hlen, hj⟩, hkj, hall, hbefore, hend⟩

end Pulse
