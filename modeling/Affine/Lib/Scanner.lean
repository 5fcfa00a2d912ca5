import Mathlib.Data.List.Basic

set_option relaxedAutoImplicit false
set_option autoImplicit false

/-!
# Decoding a stream from its front

A scanner looks at the front of the symbols it has not used yet and waits for more of them, or
uses up some of them, possibly for a frame. If its decisions are final, in that more symbols at
the end do not change them, then it does not matter whether the symbols arrive one by one, in
pieces, or all at once.

## Main definitions

* `Scanner` — the decisions of a scanner.
* `Scanner.decode` — the frames in a word, and the symbols that are left.

## Main results

* `Scanner.decode_eq_none`, `Scanner.decode_eq_some` — decoding, decision by decision.
* `Scanner.decode_append` — decoding a word piece by piece.
* `Scanner.decode_flatMap` — a stream of items, each of which is used up at once.
* `Scanner.exists_pieces`, `Scanner.exists_spans` — a word is cut into the pieces that are used up,
  and every frame has a part of the word of its own.
-/

variable {α ρ : Type}

/-- A scanner: it waits (`none`), or uses up `n` symbols for at most one frame. -/
structure Scanner (α ρ : Type) where
  head : List α → Option (ℕ × Option ρ)
  pos : ∀ {xs n r}, head xs = some (n, r) → 0 < n
  le : ∀ {xs n r}, head xs = some (n, r) → n ≤ xs.length
  stable : ∀ {xs x}, head xs = some x → ∀ ys, head (xs ++ ys) = some x

namespace Scanner

variable (s : Scanner α ρ)

/-- There is nothing at the head of an empty input. -/
lemma head_nil : s.head [] = none := by
  cases h : s.head [] with
  | none => rfl
  | some x =>
    have hpos := s.pos h
    have hle := s.le h
    simp only [List.length_nil] at hle
    omega

/-- At most `fuel` decisions of the scanner. -/
def decodeFuel : ℕ → List α → List ρ × List α
  | 0, xs => ([], xs)
  | fuel + 1, xs =>
    match s.head xs with
    | none => ([], xs)
    | some (n, r) => (r.toList ++ (decodeFuel fuel (xs.drop n)).1, (decodeFuel fuel (xs.drop n)).2)

/-- The frames in a word, and the symbols that are left when the scanner waits. -/
def decode (xs : List α) : List ρ × List α := s.decodeFuel xs.length xs

/-- Fuel for the length of the input is enough, and more of it changes nothing.

**Proof sketch.** Induction on the fuel: a decision uses up symbols. -/
lemma decodeFuel_congr (m n : ℕ) (xs : List α) (hm : xs.length ≤ m) (hn : xs.length ≤ n) :
    s.decodeFuel m xs = s.decodeFuel n xs := by
  induction m generalizing n xs with
  | zero =>
    obtain rfl : xs = [] := List.length_eq_zero_iff.mp (by omega)
    cases n with
    | zero => rfl
    | succ n => simp [decodeFuel, s.head_nil]
  | succ m ih =>
    cases n with
    | zero =>
      obtain rfl : xs = [] := List.length_eq_zero_iff.mp (by omega)
      simp [decodeFuel, s.head_nil]
    | succ n =>
      simp only [decodeFuel]
      cases h : s.head xs with
      | none => rfl
      | some x =>
        obtain ⟨k, r⟩ := x
        have hpos := s.pos h
        have hle := s.le h
        have hlen : (xs.drop k).length = xs.length - k := List.length_drop
        simp only
        rw [ih n (xs.drop k) (by omega) (by omega)]

/-- A word at which the scanner waits is left over. -/
lemma decode_eq_none {xs : List α} (h : s.head xs = none) : s.decode xs = ([], xs) := by
  unfold decode
  cases xs.length with
  | zero => rfl
  | succ n => simp [decodeFuel, h]

/-- The first decision for a word, followed by those for the rest. -/
lemma decode_eq_some {xs : List α} {n : ℕ} {r : Option ρ} (h : s.head xs = some (n, r)) :
    s.decode xs = (r.toList ++ (s.decode (xs.drop n)).1, (s.decode (xs.drop n)).2) := by
  have hpos := s.pos h
  have hle := s.le h
  obtain ⟨k, hk⟩ : ∃ k, xs.length = k + 1 := ⟨xs.length - 1, by omega⟩
  have hlen : (xs.drop n).length = xs.length - n := List.length_drop
  rw [decode, hk, decodeFuel, h]
  simp only
  rw [s.decodeFuel_congr k (xs.drop n).length (xs.drop n) (by omega) (Nat.le_refl _)]
  rfl

/-- The scanner waits at what is left over. -/
lemma head_decode (xs : List α) : s.head (s.decode xs).2 = none := by
  induction hlen : xs.length using Nat.strongRecOn generalizing xs with
  | ind k ih =>
    cases h : s.head xs with
    | none => rw [s.decode_eq_none h, h]
    | some x =>
      obtain ⟨n, r⟩ := x
      have hpos := s.pos h
      have hle := s.le h
      rw [s.decode_eq_some h]
      exact ih (xs.drop n).length (by rw [List.length_drop]; omega) (xs.drop n) rfl

/-- **Decoding does not depend on how the symbols arrive**: a concatenation is decoded by
decoding the first part, and then what is left of it followed by the second part.

**Proof sketch.** Induction on the length of the first part. If the scanner decides something for
it, it decides the same for the concatenation, because its decisions are stable. -/
theorem decode_append (xs ys : List α) :
    s.decode (xs ++ ys) =
      ((s.decode xs).1 ++ (s.decode ((s.decode xs).2 ++ ys)).1,
        (s.decode ((s.decode xs).2 ++ ys)).2) := by
  induction hlen : xs.length using Nat.strongRecOn generalizing xs with
  | ind k ih =>
    cases h : s.head xs with
    | none => rw [s.decode_eq_none h, List.nil_append]
    | some x =>
      obtain ⟨n, r⟩ := x
      have hpos := s.pos h
      have hle := s.le h
      rw [s.decode_eq_some (s.stable h ys), List.drop_append_of_le_length hle, s.decode_eq_some h,
        ih (xs.drop n).length (by rw [List.length_drop]; omega) (xs.drop n) rfl]
      simp only [List.append_assoc]

/-- **A stream of items** that the scanner uses up one at a time is decoded item by item, and
nothing is left. -/
theorem decode_flatMap {ι : Type} (bytes : ι → List α) (frame : ι → Option ρ) (items : List ι)
    (h : ∀ i ∈ items, s.head (bytes i) = some ((bytes i).length, frame i)) :
    s.decode (items.flatMap bytes) = (items.filterMap frame, []) := by
  induction items with
  | nil => exact s.decode_eq_none s.head_nil
  | cons i items ih =>
    have hi := s.stable (h i (List.mem_cons_self ..)) (items.flatMap bytes)
    have hrest := ih fun j hj => h j (List.mem_cons_of_mem _ hj)
    rw [List.flatMap_cons, s.decode_eq_some hi, List.drop_left, hrest]
    cases hf : frame i with
    | none => rw [List.filterMap_cons_none hf]; rfl
    | some r => rw [List.filterMap_cons_some hf]; rfl

/-! ## Where the frames are -/

/-- **A word is cut into pieces**: each is used up by one decision, possibly for a frame, and what
is left over stands behind them.

**Proof sketch.** Induction on the length of the word; the first decision gives the first piece. -/
theorem exists_pieces (xs : List α) :
    ∃ pieces : List (List α × Option ρ), xs = pieces.flatMap Prod.fst ++ (s.decode xs).2 ∧
      (s.decode xs).1 = pieces.filterMap Prod.snd ∧
      ∀ p ∈ pieces, ∃ ys, s.head (p.1 ++ ys) = some (p.1.length, p.2) := by
  induction hlen : xs.length using Nat.strongRecOn generalizing xs with
  | ind k ih =>
    cases h : s.head xs with
    | none =>
      rw [s.decode_eq_none h]
      exact ⟨[], rfl, rfl, nofun⟩
    | some x =>
      obtain ⟨n, r⟩ := x
      have hpos := s.pos h
      have hle := s.le h
      obtain ⟨pieces, hword, hframes, hpieces⟩ :=
        ih (xs.drop n).length (by rw [List.length_drop]; omega) (xs.drop n) rfl
      have htake : (xs.take n).length = n := List.length_take_of_le hle
      rw [s.decode_eq_some h]
      refine ⟨(xs.take n, r) :: pieces, ?_, ?_, ?_⟩
      · rw [List.flatMap_cons, List.append_assoc, ← hword, List.take_append_drop]
      · cases r with
        | none => simp [hframes]
        | some r => simp [hframes]
      · intro p hp
        rcases List.mem_cons.mp hp with rfl | hp
        · refine ⟨xs.drop n, ?_⟩
          rw [List.take_append_drop, htake]
          exact h
        · exact hpieces p hp

variable {s}

/-- The parts of a word that some of its pieces are, when a word `pre` stands before them.

**Proof sketch.** Induction on the pieces. The first piece begins behind the word in front, and the
spans of the others begin behind it. -/
lemma spans_of_pieces {P : List α → ρ → Prop} {keep : ρ → Bool}
    {pieces : List (List α × Option ρ)}
    (hP : ∀ p ∈ pieces, ∀ r, p.2 = some r → keep r = true → P p.1 r) (pre rest : List α) :
    ∃ spans : List (ℕ × ℕ), spans.Pairwise (fun a b => a.1 + a.2 ≤ b.1) ∧
      (∀ a ∈ spans, pre.length ≤ a.1) ∧
      List.Forall₂ (fun a r => a.1 + a.2 ≤ (pre ++ (pieces.flatMap Prod.fst ++ rest)).length ∧
          P (((pre ++ (pieces.flatMap Prod.fst ++ rest)).drop a.1).take a.2) r)
        spans ((pieces.filterMap Prod.snd).filter keep) := by
  induction pieces generalizing pre with
  | nil => exact ⟨[], .nil, nofun, .nil⟩
  | cons p pieces ih =>
    obtain ⟨spans, hpair, hstart, hall⟩ :=
      ih (fun q hq => hP q (List.mem_cons_of_mem p hq)) (pre ++ p.1)
    have hword : pre ++ ((p :: pieces).flatMap Prod.fst ++ rest) =
        pre ++ p.1 ++ (pieces.flatMap Prod.fst ++ rest) := by
      simp only [List.flatMap_cons, List.append_assoc]
    have hpre : ∀ a ∈ spans, pre.length + p.1.length ≤ a.1 := by
      intro a ha
      have := hstart a ha
      simpa only [List.length_append] using this
    have hskip : ∀ a ∈ spans, pre.length ≤ a.1 := by
      intro a ha
      have := hpre a ha
      omega
    rw [hword]
    obtain ⟨bytes, frame⟩ := p
    cases frame with
    | none => exact ⟨spans, hpair, hskip, hall⟩
    | some r =>
      have hframes : ((bytes, some r) :: pieces).filterMap Prod.snd =
          r :: pieces.filterMap Prod.snd := rfl
      rw [hframes]
      by_cases hkeep : keep r = true
      · refine ⟨(pre.length, bytes.length) :: spans, ?_, ?_, ?_⟩
        · exact List.pairwise_cons.mpr ⟨hpre, hpair⟩
        · intro a ha
          rcases List.mem_cons.mp ha with rfl | ha
          · exact Nat.le_refl _
          · exact hskip a ha
        · rw [List.filter_cons_of_pos hkeep]
          refine .cons ⟨?_, ?_⟩ hall
          · simp only [List.length_append]
            omega
          · rw [List.append_assoc, List.drop_left, List.take_left]
            exact hP _ List.mem_cons_self r rfl hkeep
      · refine ⟨spans, hpair, hskip, ?_⟩
        rw [List.filter_cons_of_neg hkeep]
        exact hall

/-- **Every frame has a part of the word of its own**: the frames of a kind come, in order, from
disjoint parts of the word, with a property that holds where the scanner finds such a frame. -/
theorem exists_spans {P : List α → ρ → Prop} {keep : ρ → Bool}
    (hP : ∀ bytes ys r, s.head (bytes ++ ys) = some (bytes.length, some r) → keep r = true →
      P bytes r) (xs : List α) :
    ∃ spans : List (ℕ × ℕ), spans.Pairwise (fun a b => a.1 + a.2 ≤ b.1) ∧
      List.Forall₂ (fun a r => a.1 + a.2 ≤ xs.length ∧ P ((xs.drop a.1).take a.2) r) spans
        ((s.decode xs).1.filter keep) := by
  obtain ⟨pieces, hword, hframes, hpieces⟩ := s.exists_pieces xs
  have hfound : ∀ p ∈ pieces, ∀ r, p.2 = some r → keep r = true → P p.1 r := by
    intro p hp r hr hkeep
    obtain ⟨ys, hys⟩ := hpieces p hp
    rw [hr] at hys
    exact hP p.1 ys r hys hkeep
  obtain ⟨spans, hpair, -, hall⟩ := spans_of_pieces hfound [] (s.decode xs).2
  rw [List.nil_append, ← hword] at hall
  exact ⟨spans, hpair, hframes ▸ hall⟩

variable (s)

/-! ## Reading up to the next frame -/

/-- At most `fuel` decisions, up to the first frame. -/
def nextFuel : ℕ → List α → Option ρ × List α
  | 0, xs => (none, xs)
  | fuel + 1, xs =>
    match s.head xs with
    | none => (none, xs)
    | some (n, none) => nextFuel fuel (xs.drop n)
    | some (n, some r) => (some r, xs.drop n)

/-- The first frame in a word, if there is one, and the symbols behind it. -/
def next (xs : List α) : Option ρ × List α := s.nextFuel xs.length xs

/-- Fuel for the length of the input is enough, and more of it changes nothing.

**Proof sketch.** Induction on the fuel: a decision uses up symbols. -/
lemma nextFuel_congr (m n : ℕ) (xs : List α) (hm : xs.length ≤ m) (hn : xs.length ≤ n) :
    s.nextFuel m xs = s.nextFuel n xs := by
  induction m generalizing n xs with
  | zero =>
    obtain rfl : xs = [] := List.length_eq_zero_iff.mp (by omega)
    cases n with
    | zero => rfl
    | succ n => simp [nextFuel, s.head_nil]
  | succ m ih =>
    cases n with
    | zero =>
      obtain rfl : xs = [] := List.length_eq_zero_iff.mp (by omega)
      simp [nextFuel, s.head_nil]
    | succ n =>
      simp only [nextFuel]
      cases h : s.head xs with
      | none => rfl
      | some x =>
        obtain ⟨k, _ | r⟩ := x
        · have hpos := s.pos h
          have hle := s.le h
          have hlen : (xs.drop k).length = xs.length - k := List.length_drop
          exact ih n (xs.drop k) (by omega) (by omega)
        · rfl

/-- Nothing is found where more input is awaited. -/
lemma next_eq_none {xs : List α} (h : s.head xs = none) : s.next xs = (none, xs) := by
  unfold next
  cases xs.length with
  | zero => rfl
  | succ n => simp [nextFuel, h]

/-- An item at the head is the next one. -/
lemma next_found {xs : List α} {n : ℕ} {r : ρ} (h : s.head xs = some (n, some r)) :
    s.next xs = (some r, xs.drop n) := by
  have hpos := s.pos h
  have hle := s.le h
  obtain ⟨k, hk⟩ : ∃ k, xs.length = k + 1 := ⟨xs.length - 1, by omega⟩
  rw [next, hk, nextFuel, h]

/-- What is skipped at the head is passed over. -/
lemma next_skip {xs : List α} {n : ℕ} (h : s.head xs = some (n, none)) :
    s.next xs = s.next (xs.drop n) := by
  have hpos := s.pos h
  have hle := s.le h
  obtain ⟨k, hk⟩ : ∃ k, xs.length = k + 1 := ⟨xs.length - 1, by omega⟩
  have hlen : (xs.drop n).length = xs.length - n := List.length_drop
  rw [next, hk, nextFuel, h]
  exact s.nextFuel_congr k (xs.drop n).length (xs.drop n) (by omega) (Nat.le_refl _)

/-- Decoding a word is reading up to the next frame until there is none. -/
theorem decode_next (xs : List α) :
    s.decode xs =
      match s.next xs with
      | (none, rest) => ([], rest)
      | (some r, rest) => (r :: (s.decode rest).1, (s.decode rest).2) := by
  induction hlen : xs.length using Nat.strongRecOn generalizing xs with
  | ind k ih =>
    cases h : s.head xs with
    | none => rw [s.next_eq_none h, s.decode_eq_none h]
    | some x =>
      obtain ⟨n, _ | r⟩ := x
      · have hpos := s.pos h
        have hle := s.le h
        rw [s.next_skip h, s.decode_eq_some h]
        exact ih (xs.drop n).length (by rw [List.length_drop]; omega) (xs.drop n) rfl
      · rw [s.next_found h, s.decode_eq_some h]
        rfl

/-- A frame uses up at least one symbol.

**Proof sketch.** Induction on the length of the input. -/
lemma length_next {xs : List α} {r : ρ} {rest : List α} (h : s.next xs = (some r, rest)) :
    rest.length < xs.length := by
  induction hlen : xs.length using Nat.strongRecOn generalizing xs with
  | ind k ih =>
    cases hd : s.head xs with
    | none =>
      rw [s.next_eq_none hd] at h
      cases h
    | some x =>
      have hpos := s.pos hd
      have hle := s.le hd
      obtain ⟨n, _ | r'⟩ := x
      · rw [s.next_skip hd] at h
        have := ih (xs.drop n).length (by rw [List.length_drop]; omega) h rfl
        rw [List.length_drop] at this
        omega
      · rw [s.next_found hd] at h
        cases h
        rw [List.length_drop]
        omega

/-- What is found next is what some decision of the scanner has found.

**Proof sketch.** Induction on the length of the input. -/
lemma next_of_head {P : ρ → Prop} (h : ∀ xs n r, s.head xs = some (n, some r) → P r)
    {xs rest : List α} {r : ρ} (hnext : s.next xs = (some r, rest)) : P r := by
  induction hlen : xs.length using Nat.strongRecOn generalizing xs with
  | _ len ih =>
    cases hhead : s.head xs with
    | none =>
      rw [s.next_eq_none hhead] at hnext
      cases hnext
    | some x =>
      obtain ⟨n, found⟩ := x
      cases found with
      | none =>
        rw [s.next_skip hhead] at hnext
        have hpos := s.pos hhead
        have hle := s.le hhead
        exact ih (xs.drop n).length (by rw [List.length_drop]; omega) hnext rfl
      | some r' =>
        rw [s.next_found hhead] at hnext
        cases hnext
        exact h xs n r hhead

end Scanner
