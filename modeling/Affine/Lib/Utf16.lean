import Mathlib.Data.List.Infix
import Mathlib.Data.UInt

set_option relaxedAutoImplicit false
set_option autoImplicit false

/-!
# UTF-16

The code units of a text, and the text of any code units, where each surrogate without its other
half stands for the replacement character. A text is the list of its characters. The code units of a
text decode to the text (`Utf16.decodeLossy_encode`).

## Main definitions

* `Utf16.encode` — the code units of a text.
* `Utf16.decodeLossy` — the text of code units.
* `Utf16.leBytes`, `Utf16.ofLeBytes` — code units as pairs of bytes, the low one first.

## Main results

* `Utf16.decodeLossy_encode`, `Utf16.ofLeBytes_leBytes_append`, `Utf16.zero_notMem_encode`.
* `Utf16.infix_decodeLossy_iff` — looking for a text in what was decoded.
-/

namespace Utf16

/-- The first half of a pair. -/
def isLead (u : UInt16) : Prop := 0xD800 ≤ u ∧ u < 0xDC00

/-- The second half of a pair. -/
def isTrail (u : UInt16) : Prop := 0xDC00 ≤ u ∧ u ≤ 0xDFFF

instance (u : UInt16) : Decidable (isLead u) := inferInstanceAs (Decidable (_ ∧ _))
instance (u : UInt16) : Decidable (isTrail u) := inferInstanceAs (Decidable (_ ∧ _))

/-- The character that stands for a surrogate without its other half. -/
def replacement : Char := Char.ofNat 0xFFFD

/-- The character of a pair. -/
def ofPair (u v : UInt16) : Char :=
  Char.ofNat (0x10000 + (u.toNat % 0x400) * 0x400 + v.toNat % 0x400)

/-- The character of a code unit without another half. -/
def ofUnit (u : UInt16) : Char := if isLead u ∨ isTrail u then replacement else Char.ofNat u.toNat

/-- The code units of a character: one, or a pair. -/
def encodeChar (c : Char) : List UInt16 :=
  if c.toNat < 0x10000 then [UInt16.ofNat c.toNat]
  else [UInt16.ofNat (0xD800 + (c.toNat - 0x10000) / 0x400),
    UInt16.ofNat (0xDC00 + (c.toNat - 0x10000) % 0x400)]

/-- The code units of a text. -/
def encode (cs : List Char) : List UInt16 := cs.flatMap encodeChar

/-- The text of code units. -/
def decodeLossy : List UInt16 → List Char
  | [] => []
  | [u] => [ofUnit u]
  | u :: v :: us =>
    if isLead u ∧ isTrail v then ofPair u v :: decodeLossy us else ofUnit u :: decodeLossy (v :: us)

/-! ## Characters -/

/-- A character is no surrogate. -/
lemma toNat_valid (c : Char) : c.toNat < 0xD800 ∨ 0xDFFF < c.toNat ∧ c.toNat < 0x110000 := c.valid

/-- A character of one code unit is not a half of a pair. -/
lemma not_half {c : Char} (h : c.toNat < 0x10000) :
    ¬ isLead (UInt16.ofNat c.toNat) ∧ ¬ isTrail (UInt16.ofNat c.toNat) := by
  have hc := toNat_valid c
  have hunit : (UInt16.ofNat c.toNat).toNat = c.toNat := by
    rw [UInt16.toNat_ofNat']
    omega
  simp only [isLead, isTrail, UInt16.le_iff_toNat_le, UInt16.lt_iff_toNat_lt, hunit,
    UInt16.reduceToNat]
  omega

/-- A character of one code unit is the one of its code unit. -/
lemma ofUnit_ofNat {c : Char} (h : c.toNat < 0x10000) : ofUnit (UInt16.ofNat c.toNat) = c := by
  have hunit : (UInt16.ofNat c.toNat).toNat = c.toNat := by
    rw [UInt16.toNat_ofNat']
    omega
  rw [ofUnit, if_neg (not_or.mpr (not_half h)), hunit, Char.ofNat_toNat]

/-- The code units of a character of two are a pair, and the pair of this character. -/
lemma encodeChar_pair {c : Char} (h : ¬ c.toNat < 0x10000) :
    ∃ u v, encodeChar c = [u, v] ∧ isLead u ∧ isTrail v ∧ ofPair u v = c := by
  have hc := toNat_valid c
  have hu : (UInt16.ofNat (0xD800 + (c.toNat - 0x10000) / 0x400)).toNat =
      0xD800 + (c.toNat - 0x10000) / 0x400 := by
    rw [UInt16.toNat_ofNat']
    omega
  have hv : (UInt16.ofNat (0xDC00 + (c.toNat - 0x10000) % 0x400)).toNat =
      0xDC00 + (c.toNat - 0x10000) % 0x400 := by
    rw [UInt16.toNat_ofNat']
    omega
  refine ⟨_, _, if_neg h, ?_, ?_, ?_⟩
  · simp only [isLead, UInt16.le_iff_toNat_le, UInt16.lt_iff_toNat_lt, hu, UInt16.reduceToNat]
    omega
  · simp only [isTrail, UInt16.le_iff_toNat_le, hv, UInt16.reduceToNat]
    omega
  · have hpair : 0x10000 + ((0xD800 + (c.toNat - 0x10000) / 0x400) % 0x400) * 0x400 +
        (0xDC00 + (c.toNat - 0x10000) % 0x400) % 0x400 = c.toNat := by
      omega
    rw [ofPair, hu, hv, hpair, Char.ofNat_toNat]

/-! ## Texts -/

/-- The code units of the first character of a text decode to it. -/
lemma decodeLossy_encodeChar_append (c : Char) (us : List UInt16) :
    decodeLossy (encodeChar c ++ us) = c :: decodeLossy us := by
  by_cases h : c.toNat < 0x10000
  · have hnot : ∀ v, ¬ (isLead (UInt16.ofNat c.toNat) ∧ isTrail v) := by
      intro v hpair
      exact (not_half h).1 hpair.1
    rw [encodeChar, if_pos h, List.singleton_append]
    cases us with
    | nil => rw [decodeLossy, decodeLossy, ofUnit_ofNat h]
    | cons v us => rw [decodeLossy, if_neg (hnot v), ofUnit_ofNat h]
  · obtain ⟨u, v, hunits, hlead, htrail, hc⟩ := encodeChar_pair h
    rw [hunits, List.cons_append, List.singleton_append, decodeLossy, if_pos ⟨hlead, htrail⟩, hc]

/-- **The code units of a text decode to the text.** -/
theorem decodeLossy_encode (cs : List Char) : decodeLossy (encode cs) = cs := by
  induction cs with
  | nil => rfl
  | cons c cs ih =>
    rw [encode, List.flatMap_cons, ← encode, decodeLossy_encodeChar_append, ih]

/-- Only the character zero has a code unit zero. -/
lemma zero_notMem_encodeChar {c : Char} (hc : c ≠ Char.ofNat 0) : 0 ∉ encodeChar c := by
  have hpos : c.toNat ≠ 0 := by
    intro hzero
    exact hc (by rw [← Char.ofNat_toNat c, hzero])
  intro hmem
  by_cases h : c.toNat < 0x10000
  · rw [encodeChar, if_pos h, List.mem_singleton] at hmem
    have := congrArg UInt16.toNat hmem
    rw [UInt16.toNat_ofNat', UInt16.toNat_zero] at this
    omega
  · obtain ⟨u, v, hunits, hlead, htrail, -⟩ := encodeChar_pair h
    rw [hunits] at hmem
    rcases List.mem_cons.mp hmem with rfl | hmem
    · exact absurd hlead (by decide)
    · rw [← List.mem_singleton.mp hmem] at htrail
      exact absurd htrail (by decide)

/-- A text without the character zero has no code unit zero. -/
theorem zero_notMem_encode {cs : List Char} (hcs : Char.ofNat 0 ∉ cs) : 0 ∉ encode cs := by
  intro hmem
  obtain ⟨c, hc, hunit⟩ := List.mem_flatMap.mp hmem
  exact zero_notMem_encodeChar (ne_of_mem_of_not_mem hc hcs) hunit

/-! ## Parts of texts -/

/-- A number outside the surrogates is that of its character. -/
lemma toNat_ofNat {n : ℕ} (h : n < 0xD800 ∨ 0xDFFF < n ∧ n < 0x110000) :
    (Char.ofNat n).toNat = n := by
  rw [Char.ofNat, dif_pos (show n.isValidChar from h)]
  rfl

/-- A pair is a character above those of one code unit. -/
lemma le_toNat_ofPair (u v : UInt16) : 0x10000 ≤ (ofPair u v).toNat := by
  rw [ofPair, toNat_ofNat (by omega)]
  omega

/-- Below the surrogates, a code unit without another half is the one of its character only. -/
lemma ofUnit_eq_iff {c : Char} (hc : c.toNat < 0xD800) (u : UInt16) :
    ofUnit u = c ↔ u = UInt16.ofNat c.toNat := by
  constructor
  · intro h
    have hu := u.toNat_lt
    by_cases hhalf : isLead u ∨ isTrail u
    · rw [ofUnit, if_pos hhalf] at h
      rw [← h, replacement, toNat_ofNat (by omega)] at hc
      omega
    · rw [ofUnit, if_neg hhalf] at h
      simp only [isLead, isTrail, UInt16.le_iff_toNat_le, UInt16.lt_iff_toNat_lt,
        UInt16.reduceToNat] at hhalf
      rw [← h, toNat_ofNat (by omega), UInt16.ofNat_toNat]
  · rintro rfl
    exact ofUnit_ofNat (by omega)

/-- A text below the surrogates begins a text that was decoded if its code units begin the code
units.

**Proof sketch.** Induction on the text. A character below the surrogates is one code unit, and no
pair decodes to it. -/
lemma prefix_decodeLossy_iff {cs : List Char} (hcs : ∀ c ∈ cs, c.toNat < 0xD800)
    (us : List UInt16) : cs <+: decodeLossy us ↔ encode cs <+: us := by
  induction cs generalizing us with
  | nil => simp [encode]
  | cons c cs ih =>
    have hc : c.toNat < 0xD800 := hcs c List.mem_cons_self
    have ih' := ih fun c' hc' => hcs c' (List.mem_cons_of_mem c hc')
    have hunits : encode (c :: cs) = UInt16.ofNat c.toNat :: encode cs := by
      rw [encode, List.flatMap_cons, encodeChar, if_pos (by omega)]
      rfl
    rw [hunits]
    match us with
    | [] => simp [decodeLossy]
    | [u] =>
      rw [decodeLossy, List.cons_prefix_cons, List.cons_prefix_cons, eq_comm, ofUnit_eq_iff hc,
        ← ih' [], decodeLossy, eq_comm]
    | u :: v :: us =>
      rw [decodeLossy]
      split
      · next hpair =>
        refine iff_of_false (fun h => ?_) (fun h => ?_)
        · have hle := le_toNat_ofPair u v
          rw [← (List.cons_prefix_cons.mp h).1] at hle
          omega
        · have hlead := hpair.1
          rw [← (List.cons_prefix_cons.mp h).1] at hlead
          exact (not_half (by omega)).1 hlead
      · rw [List.cons_prefix_cons, List.cons_prefix_cons, eq_comm, ofUnit_eq_iff hc,
          ← ih' (v :: us), eq_comm]

/-- **A text below the surrogates is part of a text that was decoded exactly if its code units are
part of the code units**, halves of pairs included.

**Proof sketch.** Induction on the code units, a pair at a time. The second half of a pair begins
no such text. -/
theorem infix_decodeLossy_iff {cs : List Char} (hcs : ∀ c ∈ cs, c.toNat < 0xD800)
    (us : List UInt16) : cs <:+: decodeLossy us ↔ encode cs <:+: us := by
  induction us using decodeLossy.induct with
  | case1 =>
    rw [decodeLossy, List.infix_nil, List.infix_nil, ← List.prefix_nil, ← List.prefix_nil,
      ← prefix_decodeLossy_iff hcs [], decodeLossy]
  | case2 u =>
    have hnil := prefix_decodeLossy_iff hcs []
    rw [decodeLossy, List.prefix_nil, List.prefix_nil] at hnil
    have hone := prefix_decodeLossy_iff hcs [u]
    rw [decodeLossy] at hone
    rw [decodeLossy, List.infix_cons_iff, List.infix_cons_iff, List.infix_nil, List.infix_nil, hone,
      hnil]
  | case3 u v us hpair ih =>
    have hall := prefix_decodeLossy_iff hcs (u :: v :: us)
    rw [decodeLossy, if_pos hpair] at hall
    rw [decodeLossy, if_pos hpair, List.infix_cons_iff, List.infix_cons_iff, List.infix_cons_iff,
      hall, ih]
    refine or_congr_right ⟨.inr, fun h => h.elim (fun hsecond => ?_) id⟩
    cases cs with
    | nil => exact List.nil_infix
    | cons c cs =>
      have hc := hcs c List.mem_cons_self
      have htrail := hpair.2
      rw [encode, List.flatMap_cons, encodeChar, if_pos (by omega)] at hsecond
      rw [← (List.cons_prefix_cons.mp hsecond).1] at htrail
      exact absurd htrail (not_half (by omega)).2
  | case4 u v us hpair ih =>
    have hall := prefix_decodeLossy_iff hcs (u :: v :: us)
    rw [decodeLossy, if_neg hpair] at hall
    have htail : encode cs <:+: u :: v :: us ↔
        encode cs <+: u :: v :: us ∨ encode cs <:+: v :: us := List.infix_cons_iff
    rw [decodeLossy, if_neg hpair, List.infix_cons_iff, htail, hall, ih]

/-! ## Bytes -/

/-- Code units as bytes, the low one of each first. -/
def leBytes (us : List UInt16) : List UInt8 :=
  us.flatMap fun (u : UInt16) => [UInt8.ofNat u.toNat, UInt8.ofNat (u.toNat / 256)]

/-- The code units of bytes, without a last byte that is alone. -/
def ofLeBytes : List UInt8 → List UInt16
  | lo :: hi :: bytes => UInt16.ofNat (lo.toNat + 256 * hi.toNat) :: ofLeBytes bytes
  | _ => []

/-- The bytes of a code unit give it back. -/
lemma ofLeBytes_unit (u : UInt16) (bytes : List UInt8) :
    ofLeBytes (UInt8.ofNat u.toNat :: UInt8.ofNat (u.toNat / 256) :: bytes) =
      u :: ofLeBytes bytes := by
  have hu := u.toNat_lt
  have hvalue :
      (UInt8.ofNat u.toNat).toNat + 256 * (UInt8.ofNat (u.toNat / 256)).toNat = u.toNat := by
    rw [UInt8.toNat_ofNat', UInt8.toNat_ofNat']
    omega
  rw [ofLeBytes, hvalue, UInt16.ofNat_toNat]

/-- **The bytes of code units give them back**, whatever follows. -/
theorem ofLeBytes_leBytes_append (us : List UInt16) (bytes : List UInt8) :
    ofLeBytes (leBytes us ++ bytes) = us ++ ofLeBytes bytes := by
  induction us with
  | nil => rfl
  | cons u us ih =>
    rw [leBytes, List.flatMap_cons, ← leBytes, List.append_assoc, List.cons_append,
      List.singleton_append, ofLeBytes_unit, ih, List.cons_append]

end Utf16
