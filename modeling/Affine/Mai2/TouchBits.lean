import Affine.Lib.Bits
import Affine.Mai2.TouchHid

set_option relaxedAutoImplicit false
set_option autoImplicit false

/-!
# Repacking the touch bits

`pack_legacy_touch_bits` (`affine-mai2/src/lib.rs`) regroups the 34 touch zones from bytes of eight
into bytes of five. The module proves that this loses none of them and adds nothing.

## Main definitions

* `Affine.unpackLegacyTouchBits` — the way back, from bytes of five to bytes of eight.

## Main results

* `Affine.packLegacyTouchBits_lossless` — the bits of the packed bytes, and what follows from them.
-/

namespace Affine

/-- Whether a touch zone is set, for all numbers: those from 34 on stand for no zone. -/
def touchZone (touchBits : List.Vector UInt8 5) (i : ℕ) : Bool :=
  decide (i < 34) && Bits.lane 8 touchBits.toList i

/-- The packed bytes collect the touch zones in order. -/
lemma packLegacyTouchBits_eq (touchBits : List.Vector UInt8 5) :
    packLegacyTouchBits touchBits =
      .ofFn fun group => Bits.collect 5 fun k => touchZone touchBits (group.val * 5 + k) := by
  unfold packLegacyTouchBits Bits.collect
  congr 1
  funext group
  congr 1
  funext packed bit
  refine if_congr ?_ rfl rfl
  rw [Bits.and_mask_ne_zero_iff _ (Nat.mod_lt _ (by omega))]
  simp [touchZone, Bits.lane]

/-- From bytes of five bits to bytes of eight. -/
def unpackLegacyTouchBits (touch : List.Vector UInt8 7) : List.Vector UInt8 5 :=
  .ofFn fun byte => Bits.collect 8 fun k => Bits.lane 5 touch.toList (byte.val * 8 + k)

/-- The bits of the packed bytes are the touch zones. -/
lemma lane_packLegacyTouchBits (touchBits : List.Vector UInt8 5) {i : ℕ} (hi : i < 35) :
    Bits.lane 5 (packLegacyTouchBits touchBits).toList i = touchZone touchBits i := by
  rw [packLegacyTouchBits_eq]
  exact Bits.lane_collect (by omega) (by omega) (touchZone touchBits) hi

/-- The bytes that are packed are bytes of five bits. -/
lemma getD_packLegacyTouchBits (touchBits : List.Vector UInt8 5) {group : ℕ} (hgroup : group < 7) :
    (packLegacyTouchBits touchBits).toList.getD group 0 =
      Bits.collect 5 fun k => touchZone touchBits (group * 5 + k) := by
  rw [packLegacyTouchBits_eq, List.getD_eq_getElem?_getD, List.Vector.toList_ofFn,
    List.getElem?_ofFn, dif_pos hgroup]
  rfl

/-- **Repacking the touch bits is lossless and canonical**: for every touch zone, its bit in the
packed bytes is its bit in the bytes it comes from, and no other bit is set. So two states are
packed alike exactly if they agree on the 34 zones, every packed byte is below 32, and the zones
can be unpacked again.

**Proof sketch.** Each packed byte collects five of the zones (`packLegacyTouchBits_eq`), and
regrouping bits keeps them (`Bits.lane_collect`), on the way back too. -/
theorem packLegacyTouchBits_lossless (touchBits : List.Vector UInt8 5) :
    (∀ i < 34,
        ((packLegacyTouchBits touchBits).toList.getD (i / 5) 0).toNat.testBit (i % 5) =
          (touchBits.toList.getD (i / 8) 0).toNat.testBit (i % 8)) ∧
      (∀ group < 7, ∀ bit, ¬ (bit < 5 ∧ group * 5 + bit < 34) →
        ((packLegacyTouchBits touchBits).toList.getD group 0).toNat.testBit bit = false) ∧
      (∀ touchBits', packLegacyTouchBits touchBits = packLegacyTouchBits touchBits' ↔
        ∀ i < 34, (touchBits.toList.getD (i / 8) 0).toNat.testBit (i % 8) =
          (touchBits'.toList.getD (i / 8) 0).toNat.testBit (i % 8)) ∧
      (∀ group < 7, ((packLegacyTouchBits touchBits).toList.getD group 0).toNat < 32) ∧
      ∀ i < 34,
        ((unpackLegacyTouchBits (packLegacyTouchBits touchBits)).toList.getD (i / 8) 0).toNat.testBit
          (i % 8) = (touchBits.toList.getD (i / 8) 0).toNat.testBit (i % 8) := by
  have hzone : ∀ (bits : List.Vector UInt8 5) (i : ℕ), i < 34 →
      touchZone bits i = Bits.lane 8 bits.toList i := by
    intro bits i hi
    simp [touchZone, hi]
  have hbit : ∀ (bits : List.Vector UInt8 5) (i : ℕ), i < 34 →
      Bits.lane 5 (packLegacyTouchBits bits).toList i = Bits.lane 8 bits.toList i := by
    intro bits i hi
    rw [lane_packLegacyTouchBits bits (by omega), hzone bits i hi]
  refine ⟨hbit touchBits, fun group hgroup bit hout => ?_, fun touchBits' => ⟨fun h i hi => ?_,
    fun h => ?_⟩, fun group hgroup => ?_, fun i hi => ?_⟩
  · rw [getD_packLegacyTouchBits _ hgroup, Bits.testBit_collect (by omega), touchZone]
    by_cases hfive : bit < 5
    · have hlast : ¬ group * 5 + bit < 34 := fun h => hout ⟨hfive, h⟩
      simp [hlast]
    · simp [hfive]
  · have hboth := hbit touchBits i hi
    rw [h, hbit touchBits' i hi] at hboth
    exact hboth.symm
  · have hsame : touchZone touchBits = touchZone touchBits' := by
      funext i
      by_cases hi : i < 34
      · rw [hzone _ i hi, hzone _ i hi]
        exact h i hi
      · simp [touchZone, hi]
    rw [packLegacyTouchBits_eq, packLegacyTouchBits_eq, hsame]
  · rw [getD_packLegacyTouchBits _ hgroup]
    exact Bits.collect_lt (by omega) _
  · have hback : Bits.lane 8 (unpackLegacyTouchBits (packLegacyTouchBits touchBits)).toList i =
        Bits.lane 5 (packLegacyTouchBits touchBits).toList i :=
      Bits.lane_collect (by omega) (by omega) _ (by omega)
    exact hback.trans (hbit touchBits i hi)

end Affine
