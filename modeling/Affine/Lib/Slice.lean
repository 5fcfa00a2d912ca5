import Mathlib.Data.Vector.Basic

set_option relaxedAutoImplicit false
set_option autoImplicit false

/-!
# Byte slices whose accesses can fail

Code over byte slices stops as soon as an index or a range leaves the slice. `Exec` is
the result of running such code: a value, or the `Fault` that stopped it. The operations below
are the slice operations of the language, each with the lemma that says when it succeeds; code
written over them is shown free of faults by rewriting with those lemmas.

## Main definitions

* `Slice.Fault`, `Slice.Exec` — what stops slice code, and the result of running it.
* `Slice.get`, `Slice.range`, `Slice.set`, `Slice.copyWithin`, `Slice.copyFromSlice` — the
  operations on a slice, or on an array of fixed length.
* `Slice.iterate` — a loop whose body either continues with a new state or returns.

## Main results

* `Slice.get_eq_ok`, `Slice.range_eq_ok`, `Slice.set_eq_ok`, `Slice.copyWithin_toList` — the
  operations succeed inside the bounds, with these values.
* `Slice.iterate_spec` — the rule for a loop with an invariant and a measure.
* `Slice.iterate_search_iff` — what a loop that looks for something returns.
-/

namespace Slice

/-- What stops slice code before it returns a value. -/
inductive Fault
  /-- An index at or past the end of the slice. -/
  | index
  /-- A range whose end lies past the end of the slice, or before its start. -/
  | range
  /-- `copy_from_slice` between slices of different lengths. -/
  | length
  /-- A loop that has not returned within its fuel. -/
  | fuel
  deriving DecidableEq, Repr

/-- The result of running slice code: a value, or the fault that stopped it. -/
abbrev Exec := Except Fault

variable {α β σ ρ ε : Type}

/-- A computation goes on with the value of the one before. -/
@[simp] lemma ok_bind (a : α) (f : α → Except ε β) : (Except.ok a >>= f) = f a := rfl

/-- A fault ends the computation. -/
@[simp] lemma error_bind (e : ε) (f : α → Except ε β) :
    ((Except.error e : Except ε α) >>= f) = Except.error e := rfl

/-- A value is a computation that raises no fault. -/
@[simp] lemma pure_eq_ok (a : α) : (pure a : Exec α) = Except.ok a := rfl

/-- A sequence of two runs that ends in a value has run both parts to a value. -/
lemma bind_eq_ok {x : Except ε α} {f : α → Except ε β} {b : β} :
    x >>= f = .ok b ↔ ∃ a, x = .ok a ∧ f a = .ok b := by
  cases x <;> simp

/-- A value is computed from one that the computation returns. -/
lemma map_eq_ok {x : Exec α} {f : α → β} {b : β} : f <$> x = .ok b ↔ ∃ a, x = .ok a ∧ f a = b := by
  cases x <;> simp

/-! ## The operations of a slice -/

/-- `xs[i]`. -/
def get (xs : List α) (i : ℕ) : Exec α :=
  match xs[i]? with
  | some x => .ok x
  | none => .error .index

/-- `&xs[a..b]`. -/
def range (xs : List α) (a b : ℕ) : Exec (List α) :=
  if a ≤ b ∧ b ≤ xs.length then .ok ((xs.take b).drop a) else .error .range

/-- `xs[i] = x` in an array of length `n`. -/
def set {n : ℕ} (xs : List.Vector α n) (i : ℕ) (x : α) : Exec (List.Vector α n) :=
  if h : i < n then .ok (xs.set ⟨i, h⟩ x) else .error .index

/-- `xs.copy_within(a..b, dest)` in an array of length `n`. -/
def copyWithin {n : ℕ} (xs : List.Vector α n) (a b dest : ℕ) : Exec (List.Vector α n) :=
  if h : a ≤ b ∧ b ≤ n ∧ dest + (b - a) ≤ n then
    .ok ⟨xs.toList.take dest ++ (xs.toList.take b).drop a ++ xs.toList.drop (dest + (b - a)), by
      simp; omega⟩
  else .error .range

/-- `dst.copy_from_slice(src)` into an array of length `n`. -/
def copyFromSlice (n : ℕ) (src : List α) : Exec (List.Vector α n) :=
  if h : src.length = n then .ok ⟨src, h⟩ else .error .length

/-- Storing `ys` from the place `i` on: `xs[i..i + ys.len()].copy_from_slice(ys)`. -/
def write (xs : List α) (i : ℕ) (ys : List α) : Exec (List α) :=
  if i + ys.length ≤ xs.length then .ok (xs.take i ++ ys ++ xs.drop (i + ys.length))
  else .error .range

/-- An access to an element that is there. -/
lemma get_eq_ok {xs : List α} {i : ℕ} {x : α} (h : xs[i]? = some x) : get xs i = .ok x := by
  simp [get, h]

/-- Reading inside the slice gives the element there. -/
lemma get_of_lt {xs : List α} {i : ℕ} (h : i < xs.length) : get xs i = .ok xs[i] :=
  get_eq_ok (List.getElem?_eq_getElem h)

/-- An access within the bounds reads the element. -/
lemma get_eq_getD {xs : List α} {i : ℕ} (h : i < xs.length) (a : α) :
    get xs i = .ok (xs.getD i a) := by
  rw [get_of_lt h, List.getD_eq_getElem?_getD, List.getElem?_eq_getElem h, Option.getD_some]

/-- A range within the bounds is cut out. -/
lemma range_eq_ok {xs : List α} {a b : ℕ} (hab : a ≤ b) (hb : b ≤ xs.length) :
    range xs a b = .ok ((xs.take b).drop a) := by
  simp [range, hab, hb]

/-- Reading among the first `k` elements. -/
lemma get_eq_getD_take {xs : List α} {i k : ℕ} (hi : i < k) (hk : k ≤ xs.length) (a : α) :
    get xs i = .ok ((xs.take k).getD i a) := by
  refine get_eq_ok ?_
  rw [List.getD_eq_getElem?_getD, List.getElem?_take_of_lt hi, List.getElem?_eq_getElem (by omega)]
  rfl

/-- A range among the first `k` elements. -/
lemma range_eq_take {xs : List α} {a b k : ℕ} (hab : a ≤ b) (hb : b ≤ k) (hk : k ≤ xs.length) :
    range xs a b = .ok (((xs.take k).drop a).take (b - a)) := by
  rw [range_eq_ok hab (by omega), List.drop_take, List.drop_take, List.take_take,
    Nat.min_eq_left (by omega)]

/-- A store within the bounds raises no fault. -/
lemma set_eq_ok {n : ℕ} (xs : List.Vector α n) {i : ℕ} (h : i < n) (x : α) :
    set xs i x = .ok (xs.set ⟨i, h⟩ x) := by
  simp [set, h]

/-- Storing an element behind the first `len`. -/
lemma take_set {n : ℕ} (xs : List.Vector α n) {len : ℕ} (h : len < n) (x : α) :
    (xs.set ⟨len, h⟩ x).toList.take (len + 1) = xs.toList.take len ++ [x] := by
  rw [List.Vector.toList_set, List.take_set, List.take_add_one, List.getElem?_eq_getElem (by simpa),
    Option.toList_some, List.set_append_right _ _ (by simp),
    List.length_take_of_le (by simp; omega)]
  simp

/-- Moving `xs[a..b]` to the front leaves it there. -/
lemma copyWithin_toList {n : ℕ} (xs : List.Vector α n) {a b : ℕ} (hab : a ≤ b) (hb : b ≤ n) :
    ∃ ys, copyWithin xs a b 0 = .ok ys ∧
      ys.toList.take (b - a) = (xs.toList.take b).drop a := by
  have hlen : ((xs.toList.take b).drop a).length = b - a := by simp; omega
  refine ⟨_, dif_pos ⟨hab, hb, by omega⟩, ?_⟩
  simp only [List.Vector.toList_mk, List.take_zero, List.nil_append]
  rw [List.take_append_of_le_length (by omega), List.take_of_length_le (by omega)]

/-- A copy of the right length raises no fault. -/
lemma copyFromSlice_eq_ok {n : ℕ} {src : List α} (h : src.length = n) :
    copyFromSlice n src = .ok ⟨src, h⟩ := dif_pos h

/-- A copy of the right length is its source. -/
lemma exists_copyFromSlice {n : ℕ} (src : List α) (h : src.length = n) :
    ∃ v, copyFromSlice n src = .ok v ∧ v.toList = src :=
  ⟨_, copyFromSlice_eq_ok h, rfl⟩

/-- Copying `n` bytes out of a slice. -/
lemma exists_copy (xs : List α) {n a b : ℕ} (hab : a + n = b) (hb : b ≤ xs.length) :
    ∃ s v, range xs a b = .ok s ∧ copyFromSlice n s = .ok v ∧ v.toList = (xs.drop a).take n := by
  have hlen : ((xs.take b).drop a).length = n := by
    rw [List.length_drop, List.length_take]
    omega
  refine ⟨_, _, range_eq_ok (by omega) hb, copyFromSlice_eq_ok hlen, ?_⟩
  rw [List.Vector.toList_mk, List.drop_take]
  congr 1
  omega

/-! ## Loops -/

/-- One pass of a loop: continue with a new state, or return. -/
inductive Flow (σ ρ : Type)
  | again (s : σ)
  | ret (r : ρ)

/-- At most `fuel` passes of a loop. -/
def iterate (body : σ → Exec (Flow σ ρ)) : ℕ → σ → Exec ρ
  | 0, _ => .error .fuel
  | fuel + 1, s => do
    match ← body s with
    | .again s' => iterate body fuel s'
    | .ret r => .ok r

variable {body : σ → Exec (Flow σ ρ)} {I : σ → Prop} {Q : σ → ρ → Prop}

/-- **Loops terminate with their postcondition**: from a state of the invariant, each pass either
returns something that meets the postcondition, or keeps the invariant, decreases the measure,
and whatever meets the postcondition afterwards meets it here.

**Proof sketch.** Induction on the fuel, which exceeds the measure. -/
theorem iterate_spec (μ : σ → ℕ)
    (hbody : ∀ s, I s →
      (∃ s', body s = .ok (.again s') ∧ I s' ∧ μ s' < μ s ∧ ∀ r, Q s' r → Q s r) ∨
        ∃ r, body s = .ok (.ret r) ∧ Q s r)
    {s : σ} (hs : I s) {fuel : ℕ} (hfuel : μ s < fuel) :
    ∃ r, iterate body fuel s = .ok r ∧ Q s r := by
  induction fuel generalizing s with
  | zero => omega
  | succ fuel ih =>
    rcases hbody s hs with ⟨s', hb, hs', hμ, hQ⟩ | ⟨r, hb, hr⟩
    · obtain ⟨r, hiter, hr⟩ := ih hs' (by omega)
      refine ⟨r, ?_, hQ r hr⟩
      rw [iterate, hb]
      exact hiter
    · refine ⟨r, ?_, hr⟩
      rw [iterate, hb]
      rfl

/-- What a pass of a search does: it stops, with a value or a fault, or goes on. -/
def searchPass (stop : Option (Exec ρ)) (next : σ) : Exec (Flow σ ρ) :=
  match stop with
  | some (.ok r) => .ok (.ret r)
  | some (.error e) => .error e
  | none => .ok (.again next)

/-- **A search returns what it finds first**: a loop that stops where `stop` says so, with a value or
a fault, and otherwise goes on at the next state, comes to what the first such state gives, if there
is enough fuel for it.

**Proof sketch.** Induction on the fuel. The first pass stops, or the rest of the search begins at
the next state. -/
theorem iterate_search_iff {stop : σ → Option (Exec ρ)} {next : σ → σ}
    (hbody : ∀ s, body s = searchPass (stop s) (next s)) {fuel : ℕ} {s : σ} {x : Exec ρ}
    (hx : x ≠ .error .fuel) :
    iterate body fuel s = x ↔
      ∃ k < fuel, stop (next^[k] s) = some x ∧ ∀ j < k, stop (next^[j] s) = none := by
  induction fuel generalizing s with
  | zero => simpa [iterate] using hx.symm
  | succ fuel ih =>
    cases hstop : stop s with
    | some x' =>
      have hfirst : iterate body (fuel + 1) s = x' := by
        rw [iterate, hbody, hstop]
        cases x' <;> rfl
      rw [hfirst]
      constructor
      · rintro rfl
        exact ⟨0, by omega, hstop, by simp⟩
      · rintro ⟨k, -, hk, hbefore⟩
        cases k with
        | zero => exact Option.some.inj (hstop.symm.trans hk)
        | succ k => simpa [hstop] using hbefore 0 (by omega)
    | none =>
      have hlater : iterate body (fuel + 1) s = iterate body fuel (next s) := by
        rw [iterate, hbody, hstop]
        rfl
      rw [hlater]
      refine ih.trans ⟨?_, ?_⟩
      · rintro ⟨k, hk, hfound, hbefore⟩
        refine ⟨k + 1, by omega, hfound, fun j hj => ?_⟩
        cases j with
        | zero => exact hstop
        | succ j => exact hbefore j (by omega)
      · rintro ⟨k, hk, hfound, hbefore⟩
        cases k with
        | zero => simp [hstop] at hfound
        | succ k =>
          refine ⟨k, by omega, hfound, fun j hj => ?_⟩
          exact hbefore (j + 1) (by omega)

end Slice
