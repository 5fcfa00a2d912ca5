import Affine.Lib.Run
import Mathlib.Data.List.Chain
import Mathlib.Data.UInt

set_option relaxedAutoImplicit false
set_option autoImplicit false

/-!
# Values with a change counter

A writer keeps a value and a counter, and advances the counter with every change of the value. A
reader remembers the counter it has last seen, or zero if it has seen nothing yet, and takes the
value again when the counter differs. As the counter wraps around, equal counters do not by
themselves mean that the value is still the same; they do if the value has changed fewer than `2^64`
times since the reader took it.

## Main definitions

* `Versioned.Cell` — a value and its counter.
* `Versioned.Step` — the value stays, or the counter advances.
* `Versioned.Tracks` — what the reader remembers is from at most so many changes ago.
* `Versioned.Advanced` — at most so many changes lead from one cell to another.
* `Versioned.noteChange` — the values that the cell has held in a run of a system.
* `Versioned.Identifies`, `Versioned.IdentifiesAlong` — among these values, equal counters mean
  equal values.

## Main results

* `Versioned.Tracks.step`, `Versioned.tracks_self` — what the writer and the reader do.
* `Versioned.Tracks.current` — a reader that has seen the counter has the value.
* `Versioned.identifiesAlong_of_eachStep` — counters identify the values along a run whose changes
  advance the counter.
-/

namespace Versioned

variable {α β : Type}

/-- A value and the counter of its changes. -/
structure Cell (α : Type) where
  version : UInt64
  value : α

/-- A step of the writer: it leaves the cell as it is or advances the counter. -/
def Step (c c' : Cell α) : Prop := c' = c ∨ c'.version = c.version + 1

/-- The reader has taken nothing yet, or what it has taken is the value at most `n` changes ago; in
the latter case, `seen` is the counter at that time, and `got` is what the reader took. -/
def Tracks (f : α → β) (n : ℕ) (c : Cell α) (seen : UInt64) (got : Option β) : Prop :=
  seen = 0 ∨ ∃ k ≤ n, c.version = seen + UInt64.ofNat k ∧ (k = 0 → got = some (f c.value))

variable {f : α → β} {n m : ℕ} {c c' : Cell α} {seen : UInt64} {got : Option β}

/-- A counter is back where it was only after `2^64` changes. -/
lemma eq_zero_of_advance {v : UInt64} {k : ℕ} (hk : k < 2 ^ 64) (h : v = v + UInt64.ofNat k) :
    k = 0 := by
  have hzero : UInt64.ofNat k = 0 := by
    calc UInt64.ofNat k = v + UInt64.ofNat k - v := by grind
      _ = v - v := by rw [← h]
      _ = 0 := by grind
  have hmod := congrArg UInt64.toNat hzero
  rw [UInt64.toNat_ofNat', Nat.mod_eq_of_lt hk] at hmod
  exact hmod

/-- A reader that has taken nothing yet. -/
lemma tracks_zero : Tracks f n c 0 got := .inl rfl

/-- A reader that takes the value is up to date. -/
lemma tracks_self : Tracks f n c c.version (some (f c.value)) :=
  .inr ⟨0, Nat.zero_le n, (UInt64.add_zero _).symm, fun _ => rfl⟩

/-- What is tracked up to some changes is tracked up to more. -/
lemma Tracks.mono (h : Tracks f n c seen got) (hnm : n ≤ m) : Tracks f m c seen got := by
  rcases h with hzero | ⟨k, hk, hversion, hgot⟩
  · exact .inl hzero
  · exact .inr ⟨k, hk.trans hnm, hversion, hgot⟩

/-- A step of the writer is one more change. -/
lemma Tracks.step (h : Tracks f n c seen got) (hstep : Step c c') :
    Tracks f (n + 1) c' seen got := by
  rcases hstep with rfl | hadvance
  · exact h.mono (Nat.le_succ n)
  · rcases h with hzero | ⟨k, hk, hversion, -⟩
    · exact .inl hzero
    · refine .inr ⟨k + 1, Nat.succ_le_succ hk, ?_, fun h => absurd h (Nat.succ_ne_zero k)⟩
      rw [hadvance, hversion, UInt64.add_assoc, UInt64.ofNat_add]
      rfl

/-- **Equal counters mean the same value**: a reader that has seen the counter of the cell, and has
taken something, has taken its value, if there were fewer than `2^64` changes since.

**Proof sketch.** The counter has advanced by the number of changes modulo `2^64`. -/
theorem Tracks.current (h : Tracks f n c seen got) (hn : n < 2 ^ 64) (hseen : c.version = seen)
    (hnonzero : c.version ≠ 0) : got = some (f c.value) := by
  rcases h with hzero | ⟨k, hk, hversion, hgot⟩
  · exact absurd (hseen.trans hzero) hnonzero
  · rw [hseen] at hversion
    exact hgot (eq_zero_of_advance (by omega) hversion)

/-- At most `n` changes lead from one cell to the other. -/
def Advanced (n : ℕ) (c c' : Cell α) : Prop :=
  ∃ k ≤ n, c'.version = c.version + UInt64.ofNat k ∧ (k = 0 → c' = c)

/-- No change. -/
lemma Advanced.refl (c : Cell α) : Advanced 0 c c :=
  ⟨0, le_rfl, (UInt64.add_zero _).symm, fun _ => rfl⟩

/-- A step of the writer is one more change. -/
lemma Advanced.step {c₀ : Cell α} (h : Advanced n c₀ c) (hstep : Step c c') :
    Advanced (n + 1) c₀ c' := by
  obtain ⟨k, hk, hversion, hsame⟩ := h
  rcases hstep with rfl | hadvance
  · exact ⟨k, hk.trans (Nat.le_succ n), hversion, hsame⟩
  · refine ⟨k + 1, Nat.succ_le_succ hk, ?_, fun h => absurd h (Nat.succ_ne_zero k)⟩
    rw [hadvance, hversion, UInt64.add_assoc, UInt64.ofNat_add]
    rfl

/-- Fewer than `2^64` changes come back to a counter only if they are none. -/
lemma Advanced.eq_of_version (h : Advanced n c c') (hn : n < 2 ^ 64)
    (hversion : c'.version = c.version) : c' = c := by
  obtain ⟨k, hk, hk', hsame⟩ := h
  rw [hversion] at hk'
  exact hsame (eq_zero_of_advance (by omega) hk')

/-! ### The values that a cell has held -/

section History

variable {π : Type} (version : π → UInt64)

/-- Equal counters mean equal values. -/
def Identifies (seen : List π) : Prop := ∀ p ∈ seen, ∀ q ∈ seen, version p = version q → p = q

instance [DecidableEq π] (seen : List π) : Decidable (Identifies version seen) :=
  inferInstanceAs (Decidable (∀ p ∈ seen, ∀ q ∈ seen, version p = version q → p = q))

/-- Every value has the next counter behind the value before it. -/
def Numbered (seen : List π) : Prop := seen.IsChain fun p q => version q = version p + 1

variable {version} {seen : List π}

/-- A page behind the last one has the next number. -/
lemma Numbered.concat {p q : π} (h : Numbered version seen) (hlast : seen.getLast? = some p)
    (hq : version q = version p + 1) : Numbered version (seen ++ [q]) := by
  refine List.isChain_append.mpr ⟨h, List.isChain_singleton q, ?_⟩
  intro x hx y hy
  obtain rfl : x = p := Option.some.inj ((Option.mem_def.mp hx).symm.trans hlast)
  obtain rfl : q = y := Option.some.inj (Option.mem_def.mp hy)
  exact hq

/-- The counters are those of the first value and the position. -/
lemma Numbered.version_getElem (h : Numbered version seen) {i j : ℕ} (hi : i + j < seen.length) :
    version seen[i + j] = version seen[i] + UInt64.ofNat j := by
  induction j with
  | zero => simp
  | succ j ih =>
    have hnext := List.isChain_iff_getElem.mp h (i + j) hi
    rw [show seen[i + (j + 1)] = seen[i + j + 1] from rfl, hnext, ih (by omega), UInt64.add_assoc,
      UInt64.ofNat_add]
    rfl

/-- **Counters identify values** that are numbered one after the other, if they are not more than
the counters.

**Proof sketch.** The counters of two values differ by their distance, which is less than `2^64`, so
equal counters are those of one position. -/
lemma Numbered.identifies (h : Numbered version seen) (hlen : seen.length ≤ 2 ^ 64) :
    Identifies version seen := by
  have hsame (i j : ℕ) (hij : i + j < seen.length)
      (heq : version seen[i] = version seen[i + j]) : j = 0 := by
    rw [h.version_getElem hij] at heq
    exact eq_zero_of_advance (by omega) heq
  intro p hp q hq heq
  obtain ⟨i, hi, rfl⟩ := List.getElem_of_mem hp
  obtain ⟨j, hj, rfl⟩ := List.getElem_of_mem hq
  rcases Nat.le_total i j with hij | hij
  · obtain ⟨k, rfl⟩ := Nat.exists_eq_add_of_le hij
    obtain rfl := hsame i k hj heq
    rfl
  · obtain ⟨k, rfl⟩ := Nat.exists_eq_add_of_le hij
    obtain rfl := hsame j k hi heq.symm
    rfl

variable {σ ε : Type} [DecidableEq π]

/-- The value is noted when a step has changed it. -/
def noteChange (value : σ → π) (_ : α) (t u : σ) (seen : List π) : List π :=
  if value u = value t then seen else seen ++ [value u]

/-- **Counters identify the values** that the cell holds in a run, as long as these are not more
than the counters. -/
def IdentifiesAlong (step : α → σ → Except ε σ) (value : σ → π) (version : π → UInt64) (s : σ)
    (as : List α) : Prop :=
  Run.Always (Run.observed step (noteChange value)) (s, [value s]) as fun r =>
    r.2.length ≤ 2 ^ 64 → Identifies version r.2

/-- Counters identify values along a run whose steps leave the value or advance the counter.

**Proof sketch.** The values that are noted are numbered, and the last of them is the current
one. -/
theorem identifiesAlong_of_eachStep {step : α → σ → Except ε σ} {value : σ → π}
    {C : σ → α → Prop}
    (hstep : ∀ a t u, C t a → step a t = .ok u →
      value u = value t ∨ version (value u) = version (value t) + 1)
    {s : σ} {as : List α} (h : Run.EachStep step s as C) :
    IdentifiesAlong step value version s as := by
  have hnumbered : Run.Always (Run.observed step (noteChange value)) (s, [value s]) as fun r =>
      Numbered version r.2 ∧ r.2.getLast? = some (value r.1) := by
    refine Run.always_of_eachStep ⟨List.isChain_singleton _, rfl⟩ ?_ h.observed
    rintro a ⟨t, seen⟩ r ⟨hseen, hlast⟩ hC hr
    obtain ⟨u, hu, rfl⟩ := Run.observed_eq_ok.mp hr
    by_cases hsame : value u = value t
    · simp only [noteChange, if_pos hsame]
      exact ⟨hseen, hlast.trans (congrArg some hsame.symm)⟩
    · simp only [noteChange, if_neg hsame]
      exact ⟨hseen.concat hlast ((hstep a t u hC hu).resolve_left hsame), List.getLast?_concat⟩
  exact fun pre r hpre hr hlen => (hnumbered pre r hpre hr).1.identifies hlen

end History

end Versioned
