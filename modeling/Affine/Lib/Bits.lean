import Mathlib.Data.Nat.Bitwise
import Mathlib.Data.Vector.Basic

set_option relaxedAutoImplicit false
set_option autoImplicit false

/-!
# Bits in bytes

Code that regroups bits tests and sets them one by one, with masks that are shifted ones. Here a
byte is the function of its bits, and a sequence of bytes of which only the low `w` bits are used
is a sequence of bits, bit `i` being bit `i % w` of byte `i / w`.

## Main definitions

* `Bits.collect` — the byte whose low bits are set one after the other where a test succeeds.
* `Bits.lane` — a bit of a sequence of bytes with `w` bits each.

## Main results

* `Bits.testBit_collect`, `Bits.collect_lt` — the bits of a collected byte.
* `Bits.lane_collect` — regrouping a sequence of bits into bytes keeps it.
-/

namespace Bits

/-- The mask of a single bit. -/
lemma toNat_mask {k : ℕ} (hk : k < 8) : ((1 : UInt8) <<< UInt8.ofNat k).toNat = 2 ^ k := by
  have hshift : (UInt8.ofNat k).toNat % 8 = k := by
    rw [UInt8.toNat_ofNat']
    omega
  have hlt : 2 ^ k < 2 ^ 8 := Nat.pow_lt_pow_right (by omega) hk
  rw [UInt8.toNat_shiftLeft, hshift, Nat.shiftLeft_eq, UInt8.toNat_one, Nat.one_mul,
    Nat.mod_eq_of_lt hlt]

/-- Testing a single bit. -/
lemma and_mask_ne_zero_iff (b : UInt8) {k : ℕ} (hk : k < 8) :
    b &&& (1 <<< UInt8.ofNat k) ≠ 0 ↔ b.toNat.testBit k = true := by
  rw [ne_eq, ← UInt8.toNat_inj, UInt8.toNat_and, toNat_mask hk, Nat.and_two_pow]
  cases b.toNat.testBit k with
  | false => simp
  | true => simp

/-- Setting a single bit. -/
lemma testBit_or_mask (b : UInt8) {k : ℕ} (hk : k < 8) (j : ℕ) :
    (b ||| (1 <<< UInt8.ofNat k)).toNat.testBit j = (b.toNat.testBit j || decide (k = j)) := by
  rw [UInt8.toNat_or, toNat_mask hk, Nat.testBit_lor, Nat.testBit_two_pow]

/-- The byte whose low `n` bits are set, one after the other, where the test succeeds. -/
def collect (n : ℕ) (p : ℕ → Bool) : UInt8 :=
  (List.range n).foldl (fun b k => if p k then b ||| (1 <<< UInt8.ofNat k) else b) 0

/-- The bits of a collected byte.

**Proof sketch.** Induction on the number of bits; the last one is set last. -/
lemma testBit_collect {n : ℕ} (hn : n ≤ 8) (p : ℕ → Bool) (j : ℕ) :
    (collect n p).toNat.testBit j = (decide (j < n) && p j) := by
  induction n with
  | zero => simp [collect]
  | succ n ih =>
    have hstep : collect (n + 1) p =
        if p n then collect n p ||| (1 <<< UInt8.ofNat n) else collect n p := by
      rw [collect, List.range_succ, List.foldl_append]
      rfl
    rw [hstep]
    by_cases hp : p n = true
    · rw [if_pos hp, testBit_or_mask _ (by omega), ih (by omega)]
      by_cases hj : n = j
      · subst hj
        simp [hp]
      · have hlt : j < n + 1 ↔ j < n := by omega
        simp [hj, hlt]
    · rw [if_neg hp, ih (by omega)]
      by_cases hj : n = j
      · subst hj
        simp [hp]
      · have hlt : j < n + 1 ↔ j < n := by omega
        simp [hlt]

/-- Nothing but the low bits is collected. -/
lemma collect_lt {n : ℕ} (hn : n ≤ 8) (p : ℕ → Bool) : (collect n p).toNat < 2 ^ n := by
  apply Nat.lt_pow_two_of_testBit
  intro j hj
  rw [testBit_collect hn]
  simp [Nat.not_lt.mpr hj]

/-- Bit `i` of a sequence of bytes with `w` bits each. -/
def lane (w : ℕ) (bytes : List UInt8) (i : ℕ) : Bool :=
  (bytes.getD (i / w) 0).toNat.testBit (i % w)

/-- **Regrouping bits keeps them**: if the bits of each byte are collected from a sequence of bits,
then the bytes are that sequence. -/
lemma lane_collect {w m : ℕ} (hw : 0 < w) (hw8 : w ≤ 8) (q : ℕ → Bool) {i : ℕ} (hi : i < m * w) :
    lane w (List.Vector.ofFn fun g : Fin m => collect w fun k => q (g.val * w + k)).toList i =
      q i := by
  have hbyte : i / w < m := Nat.div_lt_of_lt_mul (by rwa [Nat.mul_comm])
  have hget : (List.Vector.ofFn fun g : Fin m => collect w fun k => q (g.val * w + k)).toList.getD
      (i / w) 0 = collect w fun k => q (i / w * w + k) := by
    rw [List.getD_eq_getElem?_getD, List.Vector.toList_ofFn, List.getElem?_ofFn, dif_pos hbyte]
    rfl
  rw [lane, hget, testBit_collect hw8, Nat.div_add_mod']
  simp [Nat.mod_lt i hw]

end Bits
