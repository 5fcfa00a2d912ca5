import Mathlib.Data.List.Basic

set_option relaxedAutoImplicit false
set_option autoImplicit false

/-!
# Wrapping byte checksums

The checksums of byte protocols: the sum of the bytes modulo `256`, and its negation, each as
the fold that computes it.

## Main results

* `Checksum.sum_append`, `Checksum.negSum_eq` — the sum of a concatenation, and the negated sum
  as the negation of the sum.
-/

namespace Checksum

/-- The sum of the bytes modulo `256`. -/
def sum (bs : List UInt8) : UInt8 := bs.foldl (fun s b => s + b) 0

/-- Zero less each of the bytes, modulo `256`. -/
def negSum (bs : List UInt8) : UInt8 := bs.foldl (fun s b => s - b) 0

/-- A running sum starts at any value. -/
lemma foldl_add (bs : List UInt8) (a : UInt8) :
    bs.foldl (fun s b => s + b) a = a + sum bs := by
  induction bs generalizing a with
  | nil => simp [sum]
  | cons b bs ih =>
    have hsum : sum (b :: bs) = 0 + b + sum bs := by rw [← ih]; rfl
    rw [List.foldl_cons, ih, hsum, UInt8.zero_add, UInt8.add_assoc]

/-- Nothing sums to zero. -/
@[simp] lemma sum_nil : sum [] = 0 := rfl

/-- The sum of a byte and more bytes. -/
@[simp] lemma sum_cons (b : UInt8) (bs : List UInt8) : sum (b :: bs) = b + sum bs := by
  rw [sum, List.foldl_cons, foldl_add, UInt8.zero_add]

/-- The sum of bytes behind others. -/
@[simp] lemma sum_append (xs ys : List UInt8) : sum (xs ++ ys) = sum xs + sum ys := by
  induction xs with
  | nil => simp
  | cons x xs ih => simp [ih, UInt8.add_assoc]

/-- A running difference starts at any value. -/
lemma foldl_sub (bs : List UInt8) (a : UInt8) :
    bs.foldl (fun s b => s - b) a = a - sum bs := by
  induction bs generalizing a with
  | nil => simp
  | cons b bs ih =>
    simp only [List.foldl_cons, sum_cons]
    rw [ih, UInt8.sub_eq_add_neg, UInt8.sub_eq_add_neg, UInt8.sub_eq_add_neg, UInt8.neg_add,
      UInt8.sub_eq_add_neg, UInt8.add_assoc]

/-- The negated sum is the negative of the sum. -/
lemma negSum_eq (bs : List UInt8) : negSum bs = -sum bs := by
  simp [negSum, foldl_sub]

end Checksum
