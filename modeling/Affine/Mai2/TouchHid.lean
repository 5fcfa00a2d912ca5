import Affine.Core.Port
import Affine.Lib.Slice
import Mathlib.Data.List.Basic
import Mathlib.Data.UInt

set_option relaxedAutoImplicit false
set_option autoImplicit false

/-!
# The touch HID

`parse_touch_hid_part` and `TouchHidAssembler` (`affine-mai2/src/lib.rs`). The touch HID sends each
touch state as two reports, its parts, with the number of the frame modulo `256`. The assembler
keeps which parts of one frame it has seen, and gives the touch state with the second one.

Reports may be lost. As long as no `255` consecutive frames are lost between two parts that arrive,
the assembler gives exactly the frames of which both parts arrive (`Affine.touch_reassembled`).

## Main definitions

* `Affine.parseTouchHidPart`, `Affine.packLegacyTouchBits`, `Affine.TouchHidAssembler.push`,
  `Affine.touchHidLoop` — the source.
* `Affine.TouchStream`, `Affine.Delivery` — what the device sends, and what arrives.
* `Affine.TouchStream.InOrder`, `Affine.FewLost` — the arrivals are in the order of sending, with
  short gaps.

## Main results

* `Affine.touch_reassembled`.
-/

namespace Affine

open Slice (Exec)

/-! ## The source -/

def mai2TouchHidReportId : UInt8 := 0x31
def mai2TouchHidReportLen : ℕ := 64
def mai2TouchHidPartCount : UInt8 := 2

/-- `TouchHidPart`. -/
structure TouchHidPart where
  streamSeq : UInt8
  partIndex : UInt8
  partCount : UInt8
  touchBits : List.Vector UInt8 5
  deriving DecidableEq

/-- Where a report begins: behind a report number, or behind one more byte. -/
def reportStart (report : List UInt8) : Option ℕ :=
  if report[0]? = some mai2TouchHidReportId then some 0
  else if report[1]? = some mai2TouchHidReportId then some 1
  else none

/-- `parse_touch_hid_part`. -/
def parseTouchHidPart (report : List UInt8) : Exec (Option TouchHidPart) :=
  match reportStart report with
  | none => return none
  | some start =>
    if report.length - start < mai2TouchHidReportLen then return none
    else do
      let data ← Slice.range report start (start + mai2TouchHidReportLen)
      let partIndex ← Slice.get data 4
      let partCount ← Slice.get data 5
      if (← Slice.get data 1) ≠ 1 ∨ (← Slice.get data 2) ≠ 1 ∨
          partCount ≠ mai2TouchHidPartCount ∨ partIndex ≥ partCount ∨
          (← Slice.get data 7) = 0 ∨ (← Slice.get data 7) > 17 ∨
          (← Slice.get data 12) &&& 0x04 = 0 then return none
      else
        let touchBits ← Slice.copyFromSlice 5 (← Slice.range data 50 55)
        return some { streamSeq := ← Slice.get data 3, partIndex, partCount, touchBits }

/-- `pack_legacy_touch_bits`: five bits to a byte. -/
def packLegacyTouchBits (touchBits : List.Vector UInt8 5) : List.Vector UInt8 7 :=
  .ofFn fun group => (List.range 5).foldl (fun packed bit =>
    let touchIndex := group.val * 5 + bit
    if touchIndex < 34 ∧
        touchBits.toList.getD (touchIndex / 8) 0 &&& (1 <<< UInt8.ofNat (touchIndex % 8)) ≠ 0 then
      packed ||| (1 <<< UInt8.ofNat bit)
    else packed) 0

/-- `TouchHidAssembler`. -/
structure TouchHidAssembler where
  streamSeq : UInt8
  partMask : UInt8
  touchBits : List.Vector UInt8 5
  deriving DecidableEq

namespace TouchHidAssembler

/-- `TouchHidAssembler::default`. -/
def default : TouchHidAssembler where
  streamSeq := 0
  partMask := 0
  touchBits := List.Vector.replicate 5 0

/-- `TouchHidAssembler::push`. -/
def push (a : TouchHidAssembler) (part : TouchHidPart) :
    TouchHidAssembler × Option (List.Vector UInt8 7) :=
  if part.partCount ≠ mai2TouchHidPartCount ∨ part.partIndex ≥ part.partCount then (a, none)
  else
    let a :=
      if a.partMask = 0 ∨ a.streamSeq ≠ part.streamSeq then
        { streamSeq := part.streamSeq, partMask := 0, touchBits := List.Vector.replicate 5 0 }
      else a
    let a := { a with
      touchBits := part.touchBits
      partMask := a.partMask ||| (1 <<< part.partIndex) }
    if a.partMask = (1 <<< part.partCount) - 1 then
      ({ a with partMask := 0 }, some (packLegacyTouchBits a.touchBits))
    else (a, none)

/-- What `touch_hid_thread` does with a report, with the touch state that it applies. -/
def report (a : TouchHidAssembler) (report : Chunk 65) :
    Exec (TouchHidAssembler × Option (List.Vector UInt8 7)) :=
  if report.1.length = 0 then return (a, none)
  else do
    match ← parseTouchHidPart report.1 with
    | none => return (a, none)
    | some part => return a.push part

end TouchHidAssembler

/-- The loop of `touch_hid_thread` over its reports, with what it applies at each of them. -/
def touchHidLoop : TouchHidAssembler → List (Chunk 65) →
    Exec (List (Option (List.Vector UInt8 7)))
  | _, [] => return []
  | a, report :: reports => do
    let (a, touch) ← a.report report
    let touches ← touchHidLoop a reports
    return touch :: touches

/-! ## What is sent and what arrives -/

/-- The number of a part in its report. -/
def partNo (p : Bool) : UInt8 := if p then 1 else 0

/-- What the device sends: for each frame two reports, the parts `false` and `true`, in one of the
two orders, with the number of the frame modulo `256`. -/
structure TouchStream where
  first : ℕ → Bool
  report : ℕ → Bool → Chunk 65
  bits : ℕ → Bool → List.Vector UInt8 5
  wellFormed : ∀ f p, parseTouchHidPart (report f p).1 =
    .ok (some ⟨UInt8.ofNat f, partNo p, mai2TouchHidPartCount, bits f p⟩)

/-- A report that arrives: a part of a frame, or one that `parse_touch_hid_part` rejects. -/
inductive Delivery
  | part (f : ℕ) (p : Bool)
  | rejected (report : Chunk 65) (h : parseTouchHidPart report.1 = .ok none)

/-- The part that arrives. -/
def Delivery.part? : Delivery → Option (ℕ × Bool)
  | part f p => some (f, p)
  | rejected _ _ => none

/-- The parts that arrive. -/
def partsOf (ds : List Delivery) : List (ℕ × Bool) := ds.filterMap Delivery.part?

/-- The parts of the first delivery come first. -/
lemma partsOf_cons (d : Delivery) (ds : List Delivery) :
    partsOf (d :: ds) = d.part?.toList ++ partsOf ds := by
  cases d <;> rfl

/-- No `255` consecutive frames are lost as a whole between two parts that arrive. -/
def FewLost (parts : List (ℕ × Bool)) : Prop :=
  ∀ n, (∃ a ∈ parts, a.1 < n) → (∃ b ∈ parts, n + 255 ≤ b.1) →
    ∃ c ∈ parts, n ≤ c.1 ∧ c.1 < n + 255

namespace TouchStream

variable (s : TouchStream)

/-- The place of a part in the order of sending. -/
def sentAt (a : ℕ × Bool) : ℕ := 2 * a.1 + if a.2 = s.first a.1 then 0 else 1

/-- The parts arrive in the order of sending, each at most once. -/
def InOrder (parts : List (ℕ × Bool)) : Prop := parts.Pairwise fun a b => s.sentAt a < s.sentAt b

/-- The bytes that arrive. -/
def bytes : Delivery → Chunk 65
  | .part f p => s.report f p
  | .rejected report _ => report

/-- **What is to be applied** at an arrival behind others: the touch state of a frame at its second
part, with the bits of that part. -/
def expected (before : List (ℕ × Bool)) : Delivery → Option (List.Vector UInt8 7)
  | .part f p => if (f, !p) ∈ before then some (packLegacyTouchBits (s.bits f p)) else none
  | .rejected _ _ => none

end TouchStream

/-! ## The assembler behind some parts -/

namespace TouchHidAssembler

/-- What the assembler knows behind the parts `parts`: nothing, if it has the whole of the frame of
the last part, and otherwise that part. -/
def Knows (a : TouchHidAssembler) (parts : List (ℕ × Bool)) : Prop :=
  match parts.getLast? with
  | none => a.partMask = 0
  | some (f, p) =>
    if (f, !p) ∈ parts then a.partMask = 0
    else a.partMask = 1 <<< partNo p ∧ a.streamSeq = UInt8.ofNat f

variable {a : TouchHidAssembler} {parts : List (ℕ × Bool)}

/-- A part of a stream has one of the two numbers. -/
lemma partNo_valid (p : Bool) :
    ¬ (mai2TouchHidPartCount ≠ mai2TouchHidPartCount ∨ partNo p ≥ mai2TouchHidPartCount) := by
  cases p <;> decide

/-- The first part of a frame, in an assembler without a part of this frame. -/
lemma push_first {seq : UInt8} {bits : List.Vector UInt8 5} (p : Bool)
    (h : a.partMask = 0 ∨ a.streamSeq ≠ seq) :
    a.push ⟨seq, partNo p, mai2TouchHidPartCount, bits⟩ = (⟨seq, 1 <<< partNo p, bits⟩, none) := by
  have hmask : (0 : UInt8) ||| 1 <<< partNo p = 1 <<< partNo p := by cases p <;> decide
  have hopen : (1 : UInt8) <<< partNo p ≠ 1 <<< mai2TouchHidPartCount - 1 := by
    cases p <;> decide
  simp only [push, if_neg (partNo_valid p), if_pos h, hmask, if_neg hopen]

/-- The second part of a frame. -/
lemma push_second {seq : UInt8} {bits : List.Vector UInt8 5} (p : Bool)
    (hmask : a.partMask = 1 <<< partNo (!p)) (hseq : a.streamSeq = seq) :
    a.push ⟨seq, partNo p, mai2TouchHidPartCount, bits⟩ =
      (⟨seq, 0, bits⟩, some (packLegacyTouchBits bits)) := by
  subst hseq
  have hone : (1 : UInt8) <<< partNo (!p) ≠ 0 := by cases p <;> decide
  have hkeep : ¬ (a.partMask = 0 ∨ a.streamSeq ≠ a.streamSeq) := by
    rintro (hzero | hne)
    · exact hone (hmask ▸ hzero)
    · exact hne rfl
  have hboth : a.partMask ||| 1 <<< partNo p = 1 <<< mai2TouchHidPartCount - 1 := by
    rw [hmask]
    cases p <;> decide
  simp only [push, if_neg (partNo_valid p), if_neg hkeep, if_pos hboth]

/-- Behind the second part of a frame the assembler knows nothing. -/
lemma knows_whole {f : ℕ} {p : Bool} (hzero : a.partMask = 0) (hother : (f, !p) ∈ parts) :
    a.Knows (parts ++ [(f, p)]) := by
  unfold Knows
  rw [List.getLast?_concat]
  dsimp only
  rw [if_pos (List.mem_append_left _ hother)]
  exact hzero

/-- Behind the first part of a frame the assembler knows it. -/
lemma knows_half {f : ℕ} {p : Bool} {bits : List.Vector UInt8 5} (hother : (f, !p) ∉ parts) :
    Knows ⟨UInt8.ofNat f, 1 <<< partNo p, bits⟩ (parts ++ [(f, p)]) := by
  unfold Knows
  rw [List.getLast?_concat]
  dsimp only
  rw [if_neg (by simp [hother])]
  exact ⟨rfl, rfl⟩

end TouchHidAssembler

namespace TouchStream

variable {s : TouchStream} {parts : List (ℕ × Bool)}

/-- Later parts are of later frames, or of the same. -/
lemma fst_le_of_sentAt {a b : ℕ × Bool} (h : s.sentAt a < s.sentAt b) : a.1 ≤ b.1 := by
  unfold sentAt at h
  split at h <;> split at h <;> omega

/-- The part that is sent behind another of its frame is the other one. -/
lemma snd_of_sentAt {f : ℕ} {p q : Bool} (h : s.sentAt (f, p) < s.sentAt (f, q)) : p = !q := by
  cases p <;> cases q <;> first | rfl | exact absurd h (lt_irrefl _)

/-- **Between two parts that arrive one behind the other, fewer than `255` frames are lost.** -/
lemma FewLost.next {a b : ℕ × Bool} {before behind : List (ℕ × Bool)}
    (hfew : FewLost (before ++ a :: b :: behind))
    (horder : s.InOrder (before ++ a :: b :: behind)) : b.1 ≤ a.1 + 255 := by
  by_contra hfar
  obtain ⟨c, hc, hlow, hhigh⟩ := hfew (a.1 + 1)
    ⟨a, by simp, by omega⟩ ⟨b, by simp, by omega⟩
  obtain ⟨-, hrest, hbefore⟩ := List.pairwise_append.mp horder
  obtain ⟨-, hrest⟩ := List.pairwise_cons.mp hrest
  obtain ⟨hbehind, -⟩ := List.pairwise_cons.mp hrest
  rcases List.mem_append.mp hc with hc | hc
  · have := fst_le_of_sentAt (hbefore c hc a (by simp))
    omega
  · rcases List.mem_cons.mp hc with rfl | hc
    · omega
    · rcases List.mem_cons.mp hc with rfl | hc
      · omega
      · have := fst_le_of_sentAt (hbehind c hc)
        omega

/-- A part is not in front of itself. -/
lemma InOrder.not_mem {b : ℕ × Bool} {before behind : List (ℕ × Bool)}
    (horder : s.InOrder (before ++ b :: behind)) : b ∉ before := by
  intro hb
  exact lt_irrefl _ ((List.pairwise_append.mp horder).2.2 b hb b List.mem_cons_self)

/-- In front of a part whose frame has begun stands the other part of this frame. -/
lemma InOrder.last_of_other {f : ℕ} {p : Bool} {a : ℕ × Bool} {before behind : List (ℕ × Bool)}
    (horder : s.InOrder (before ++ [a] ++ (f, p) :: behind)) (hother : (f, !p) ∈ before ++ [a]) :
    a = (f, !p) := by
  rw [List.append_assoc, List.singleton_append] at horder
  obtain ⟨-, hrest, hbefore⟩ := List.pairwise_append.mp horder
  have hnext : s.sentAt a < s.sentAt (f, p) :=
    (List.pairwise_cons.mp hrest).1 _ List.mem_cons_self
  rcases List.mem_append.mp hother with hmem | hmem
  · -- then `a` would be strictly between the two parts of the frame `f`
    have hlow := hbefore _ hmem a List.mem_cons_self
    unfold sentAt at hlow hnext
    dsimp only at hlow hnext
    split_ifs at hlow hnext <;> omega
  · exact (List.mem_singleton.mp hmem).symm

/-- The part in front of a part whose frame has not begun is of another frame, and the two numbers
modulo `256` differ. -/
lemma seq_ne_of_new {f : ℕ} {p : Bool} {a : ℕ × Bool} {before behind : List (ℕ × Bool)}
    (horder : s.InOrder (before ++ [a] ++ (f, p) :: behind))
    (hfew : FewLost (before ++ [a] ++ (f, p) :: behind)) (hother : (f, !p) ∉ before ++ [a]) :
    UInt8.ofNat a.1 ≠ UInt8.ofNat f := by
  rw [List.append_assoc, List.singleton_append] at horder hfew
  obtain ⟨g, q⟩ := a
  have hsent : s.sentAt (g, q) < s.sentAt (f, p) :=
    (List.pairwise_cons.mp (List.pairwise_append.mp horder).2.1).1 _ List.mem_cons_self
  have hle : g ≤ f := fst_le_of_sentAt hsent
  have hnext : f ≤ g + 255 := FewLost.next hfew horder
  have hne : g ≠ f := by
    rintro rfl
    rw [snd_of_sentAt hsent] at hother
    exact hother (by simp)
  intro heq
  have hmod : g % 256 = f % 256 := by simpa using congrArg UInt8.toNat heq
  omega

end TouchStream

/-! ## The run -/

namespace TouchHidAssembler

variable {s : TouchStream} {a : TouchHidAssembler}

/-- A report that `parse_touch_hid_part` rejects changes nothing. -/
lemma report_rejected {report : Chunk 65} (h : parseTouchHidPart report.1 = .ok none) :
    a.report report = .ok (a, none) := by
  unfold TouchHidAssembler.report
  split_ifs with hlen
  · rfl
  · rw [h]
    rfl

/-- A part that arrives is pushed. -/
lemma report_part (f : ℕ) (p : Bool) : a.report (s.report f p) =
    .ok (a.push ⟨UInt8.ofNat f, partNo p, mai2TouchHidPartCount, s.bits f p⟩) := by
  have hparse := s.wellFormed f p
  have hlen : (s.report f p).1.length ≠ 0 := by
    intro hzero
    rw [List.length_eq_zero_iff.mp hzero] at hparse
    cases hparse
  unfold TouchHidAssembler.report
  rw [if_neg hlen, hparse]
  rfl

/-- **One part.** It is applied as it is to be, and the assembler knows the parts up to it.

**Proof sketch.** If the other part has arrived, it was the last one, and the assembler has it: the
frame is whole. Otherwise what the assembler has is of another frame, of which the sequence number
differs because few frames are lost. -/
lemma push_step {f : ℕ} {p : Bool} {before behind : List (ℕ × Bool)} (hknows : a.Knows before)
    (horder : s.InOrder (before ++ (f, p) :: behind))
    (hfew : FewLost (before ++ (f, p) :: behind)) :
    ∃ a', a.push ⟨UInt8.ofNat f, partNo p, mai2TouchHidPartCount, s.bits f p⟩ =
        (a', s.expected before (.part f p)) ∧
      a'.Knows (before ++ [(f, p)]) := by
  unfold TouchStream.expected
  by_cases hother : (f, !p) ∈ before
  · -- the second part of its frame: the first one is what the assembler knows
    rcases List.eq_nil_or_concat before with rfl | ⟨init, last, rfl⟩
    · exact absurd hother List.not_mem_nil
    rw [List.concat_eq_append] at *
    have hlast : last = (f, !p) := horder.last_of_other hother
    have hnew : (f, p) ∉ init ++ [last] := horder.not_mem
    subst hlast
    unfold Knows at hknows
    rw [List.getLast?_concat] at hknows
    dsimp only at hknows
    rw [Bool.not_not, if_neg hnew] at hknows
    obtain ⟨hmask, hseq⟩ := hknows
    rw [push_second p hmask hseq]
    dsimp only
    rw [if_pos hother]
    exact ⟨_, rfl, knows_whole rfl hother⟩
  · -- the first part of its frame: what the assembler knows is of another frame
    have hdrop : a.partMask = 0 ∨ a.streamSeq ≠ UInt8.ofNat f := by
      rcases List.eq_nil_or_concat before with rfl | ⟨init, last, rfl⟩
      · exact .inl hknows
      rw [List.concat_eq_append] at *
      unfold Knows at hknows
      rw [List.getLast?_concat] at hknows
      dsimp only at hknows
      split_ifs at hknows with hwhole
      · exact .inl hknows
      · rw [hknows.2]
        exact .inr (TouchStream.seq_ne_of_new horder hfew hother)
    rw [push_first p hdrop]
    dsimp only
    rw [if_neg hother]
    exact ⟨_, rfl, knows_half hother⟩

/-- **The run.** Behind parts that the assembler knows, each arrival gives what is expected of it.

**Proof sketch.** Induction on the arrivals. What the assembler knows of the parts that have arrived
is the invariant; `push_step` moves it over a part, and a rejected report leaves both as they are.
-/
lemma touchHidLoop_run {before : List (ℕ × Bool)} {ds : List Delivery} (hknows : a.Knows before)
    (horder : s.InOrder (before ++ partsOf ds)) (hfew : FewLost (before ++ partsOf ds)) :
    ∃ outs, touchHidLoop a (ds.map s.bytes) = .ok outs ∧
      ∀ k, outs[k]? = ds[k]?.map (s.expected (before ++ partsOf (ds.take k))) := by
  induction ds generalizing a before with
  | nil => exact ⟨[], rfl, by simp⟩
  | cons d ds ih =>
    obtain ⟨a', hreport, hknows', hbefore⟩ : ∃ a',
        a.report (s.bytes d) = .ok (a', s.expected before d) ∧
        a'.Knows (before ++ d.part?.toList) ∧
        before ++ partsOf (d :: ds) = before ++ d.part?.toList ++ partsOf ds := by
      cases d with
      | part f p =>
        obtain ⟨a', hpush, hknows'⟩ := push_step hknows horder hfew
        exact ⟨a', by rw [TouchStream.bytes, report_part, hpush], hknows',
          by rw [partsOf_cons, List.append_assoc]⟩
      | rejected report h =>
        exact ⟨a, report_rejected h, by simpa [Delivery.part?] using hknows,
          by rw [partsOf_cons, List.append_assoc]⟩
    rw [hbefore] at horder hfew
    obtain ⟨outs, hloop, houts⟩ := ih hknows' horder hfew
    refine ⟨s.expected before d :: outs, ?_, ?_⟩
    · simp only [List.map_cons, touchHidLoop, hreport, hloop, Slice.ok_bind]
      rfl
    · rintro (_ | k)
      · simp [partsOf]
      · rw [List.getElem?_cons_succ, List.getElem?_cons_succ, houts k, List.take_succ_cons,
          partsOf_cons, List.append_assoc]

end TouchHidAssembler

/-! ## The second part of a frame -/

/-- The parts around an arrival. -/
lemma partsOf_split {ds : List Delivery} {k f : ℕ} {p : Bool} (h : ds[k]? = some (.part f p)) :
    partsOf ds = partsOf (ds.take k) ++ (f, p) :: partsOf (ds.drop (k + 1)) := by
  obtain ⟨hk, hget⟩ := List.getElem?_eq_some_iff.mp h
  conv_lhs => rw [← List.take_append_drop k ds, List.drop_eq_getElem_cons hk, hget]
  simp [partsOf, Delivery.part?]

/-- A part that is among the parts arrives somewhere. -/
lemma exists_getElem_of_mem_partsOf {ds : List Delivery} {f : ℕ} {p : Bool}
    (h : (f, p) ∈ partsOf ds) : ∃ k : ℕ, ds[k]? = some (.part f p) := by
  obtain ⟨d, hd, hpart⟩ := List.mem_filterMap.mp h
  cases d with
  | part f' p' =>
    cases hpart
    exact List.getElem?_of_mem hd
  | rejected report h => cases hpart

/-- An earlier arrival is sent earlier. -/
lemma TouchStream.InOrder.sentAt_lt {s : TouchStream} {ds : List Delivery} {j k f g : ℕ}
    {p q : Bool} (horder : s.InOrder (partsOf ds)) (hj : ds[j]? = some (.part g q))
    (hk : ds[k]? = some (.part f p)) (h : j < k) : s.sentAt (g, q) < s.sentAt (f, p) := by
  have hmem : (g, q) ∈ partsOf (ds.take k) := by
    have htake : (ds.take k)[j]? = some (.part g q) := by rw [List.getElem?_take_of_lt h, hj]
    rw [partsOf_split htake]
    simp
  rw [partsOf_split hk] at horder
  exact (List.pairwise_append.mp horder).2.2 _ hmem _ List.mem_cons_self

/-- **The second part of a frame.** Of a frame of which both parts arrive, exactly one part arrives
behind the other.

**Proof sketch.** The parts arrive in the order in which they were sent, so that the second part of
the frame is the one that comes behind the other. -/
lemma existsUnique_second {s : TouchStream} {ds : List Delivery} {f : ℕ}
    (horder : s.InOrder (partsOf ds)) (hboth : ∀ p, (f, p) ∈ partsOf ds) :
    ∃! k : ℕ, ∃ p, ds[k]? = some (.part f p) ∧ (f, !p) ∈ partsOf (ds.take k) := by
  have hsecond : s.sentAt (f, s.first f) < s.sentAt (f, !s.first f) := by
    simp [TouchStream.sentAt]
  have hunique : ∀ {k p}, ds[k]? = some (.part f p) → (f, !p) ∈ partsOf (ds.take k) →
      p = !s.first f := by
    intro k p hk hother
    rw [partsOf_split hk] at horder
    have hlt := (List.pairwise_append.mp horder).2.2 _ hother _ List.mem_cons_self
    by_contra hne
    have hp : p = s.first f := by cases p <;> cases hf : s.first f <;> simp_all
    rw [hp] at hlt
    exact lt_asymm hlt hsecond
  obtain ⟨k, hk⟩ := exists_getElem_of_mem_partsOf (hboth (!s.first f))
  refine ⟨k, ⟨_, hk, ?_⟩, ?_⟩
  · -- the first part does not arrive behind the second
    have hfirst := hboth (s.first f)
    rw [partsOf_split hk] at horder hfirst
    rw [Bool.not_not]
    rcases List.mem_append.mp hfirst with hmem | hmem
    · exact hmem
    · rcases List.mem_cons.mp hmem with heq | hmem
      · simp at heq
      · have := (List.pairwise_cons.mp (List.pairwise_append.mp horder).2.1).1 _ hmem
        exact absurd this (lt_asymm hsecond)
  · rintro j ⟨p, hj, hother⟩
    rw [hunique hj hother] at hj
    rcases lt_trichotomy j k with hlt | heq | hlt
    · exact absurd (horder.sentAt_lt hj hk hlt) (lt_irrefl _)
    · exact heq
    · exact absurd (horder.sentAt_lt hk hj hlt) (lt_irrefl _)

/-! ## The touch states -/

/-- **The touch HID under loss.** For every stream of frames and all arrivals in the order of
sending, with rejected reports between them and with no `255` consecutive frames lost as a whole,
the loop applies at each arrival what is expected of it: at the second part of a frame the touch
state with the bits of this part, and elsewhere nothing. A frame of which both parts arrive is
applied exactly once.

**Proof sketch.** The assembler knows the last part that arrived, unless its frame is whole
(`TouchHidAssembler.touchHidLoop_run`). The numbers of two frames whose parts arrive one behind the
other differ by at most `255`, so that they differ modulo `256` as well. -/
theorem touch_reassembled (s : TouchStream) (ds : List Delivery) (horder : s.InOrder (partsOf ds))
    (hfew : FewLost (partsOf ds)) :
    ∃ outs, touchHidLoop .default (ds.map s.bytes) = .ok outs ∧
      (∀ k, outs[k]? = ds[k]?.map (s.expected (partsOf (ds.take k)))) ∧
      ∀ f, (∀ p, (f, p) ∈ partsOf ds) →
        ∃! k : ℕ, ∃ p, ds[k]? = some (.part f p) ∧
          outs[k]? = some (some (packLegacyTouchBits (s.bits f p))) := by
  have hnothing : TouchHidAssembler.Knows .default [] := rfl
  obtain ⟨outs, hloop, houts⟩ := TouchHidAssembler.touchHidLoop_run hnothing horder hfew
  simp only [List.nil_append] at houts
  refine ⟨outs, hloop, houts, fun f hboth => ?_⟩
  have happlied : ∀ k, (∃ p, ds[k]? = some (.part f p) ∧
      outs[k]? = some (some (packLegacyTouchBits (s.bits f p)))) ↔
      ∃ p, ds[k]? = some (.part f p) ∧ (f, !p) ∈ partsOf (ds.take k) := by
    intro k
    refine exists_congr fun p => and_congr_right fun hk => ?_
    rw [houts k, hk, Option.map_some, TouchStream.expected]
    split_ifs with hother <;> simp [hother]
  simp only [happlied]
  exact existsUnique_second horder hboth

/-- A report with one touched panel, without a report number of the system in front of it. -/
def touchReport (seq part panels : UInt8) : List UInt8 :=
  [mai2TouchHidReportId, 1, 1, seq, part, mai2TouchHidPartCount, 0, 1, 0, 0, 0, 0, 4] ++
    List.replicate 37 0 ++ [panels, 0, 0, 0, 0] ++ List.replicate 9 0

/-- A device that sends the part `true` of the odd frames first. -/
def alternating : TouchStream where
  first f := f % 2 = 1
  report f p := ⟨touchReport (UInt8.ofNat f) (partNo p) (UInt8.ofNat f), by
    show 64 ≤ 65
    decide⟩
  bits f _ := ⟨[UInt8.ofNat f, 0, 0, 0, 0], rfl⟩
  wellFormed f p := by cases p <;> rfl

/-- The frames `1` to `254` are lost, and half of the frame `0`. -/
def longLoss : List Delivery := [.part 0 false, .part 255 true, .part 255 false]

/-- The pair behind the loss is reassembled, and with nothing of the half that came before. -/
theorem touch_reassembled_longLoss :
    ∃ outs, touchHidLoop .default (longLoss.map alternating.bytes) = .ok outs ∧
      (∀ k, outs[k]? = longLoss[k]?.map (alternating.expected (partsOf (longLoss.take k)))) ∧
      ∀ f, (∀ p, (f, p) ∈ partsOf longLoss) →
        ∃! k : ℕ, ∃ p, longLoss[k]? = some (.part f p) ∧
          outs[k]? = some (some (packLegacyTouchBits (alternating.bits f p))) := by
  refine touch_reassembled alternating longLoss ?_ ?_
  · unfold TouchStream.InOrder
    decide
  · rintro n ⟨a, ha, hlow⟩ ⟨b, hb, hhigh⟩
    have hlast : ∀ b ∈ partsOf longLoss, b.1 ≤ 255 := by decide
    have := hlast b hb
    omega

end Affine
