import Affine.Mai2.Frame
import Mathlib.Logic.Relation

set_option relaxedAutoImplicit false
set_option autoImplicit false

/-!
# False headers

A byte `FF` in the receive buffer may start a frame, or only look like it: a touch frame with
buttons and board information both end with the sum of their other bytes. `try_parse_frame` compares
the sum for the former only, so board information is taken as announced, and a false header of that
kind uses up all the bytes that it announces.

Below, a candidate is an `FF` header with all the bytes that it announces. The candidates that the
loop comes to do no harm exactly if none of them is board information with a wrong sum
(`Affine.falseHeadersHarmless_iff`).

## Main definitions

* `Affine.Candidate`, `Affine.Corrupted` — a complete candidate, and one with a wrong sum.
* `Affine.StartsNoFrame` — no frame starts at the front.
* `Affine.RxBuf.FalseHeadersHarmless` — a corrupted candidate costs one byte.
* `Affine.RxBuf.BoardInfoSummed` — the loop comes to no corrupted board information.

## Main results

* `Affine.mai2Head_skip_iff` — when the decoder skips a byte.
* `Affine.falseHeadersHarmless_iff`.
-/

namespace Affine

open Relation (ReflTransGen)

/-! ## Candidates -/

/-- The header of a touch frame with buttons. -/
def TouchHeader (bs : List UInt8) : Prop :=
  bs.getD 0 0 = 0xFF ∧ bs.getD 1 0 = 0x01 ∧ (bs.getD 2 0 = 0x0A ∨ bs.getD 2 0 = 0x00)

/-- The header of board information. -/
def BoardInfoHeader (bs : List UInt8) : Prop :=
  bs.getD 0 0 = 0xFF ∧ bs.getD 1 0 = affineCmdGetBoardInfo

/-- The `FF` header at the front announces `n` bytes, and they are there. -/
def Candidate (bs : List UInt8) (n : ℕ) : Prop :=
  (TouchHeader bs ∧ n = 14 ∨ BoardInfoHeader bs ∧ n = 3 + (bs.getD 2 0).toNat + 1) ∧
    n ≤ bs.length

/-- The last of `n` bytes is the sum of those before it. -/
def ChecksumHolds (bs : List UInt8) (n : ℕ) : Prop :=
  bs.getD (n - 1) 0 = Checksum.sum (bs.take (n - 1))

instance (bs : List UInt8) (n : ℕ) : Decidable (ChecksumHolds bs n) :=
  inferInstanceAs (Decidable (_ = _))

/-- A candidate whose last byte is not the sum of the others. -/
def Corrupted (bs : List UInt8) : Prop := ∃ n, Candidate bs n ∧ ¬ ChecksumHolds bs n

/-- Board information whose last byte is not the sum of the others. -/
def CorruptBoardInfo (bs : List UInt8) : Prop := BoardInfoHeader bs ∧ Corrupted bs

/-- No frame starts at the front, whatever follows: the byte is neither `FF` nor an opening
parenthesis, or the header or the end of the frame is wrong. -/
def StartsNoFrame (bs : List UInt8) : Prop :=
  (bs ≠ [] ∧ bs.getD 0 0 ≠ 0xFF ∧ bs.getD 0 0 ≠ 0x28) ∨
    (bs.getD 0 0 = 0xFF ∧ 3 ≤ bs.length ∧ ¬ TouchHeader bs ∧ ¬ BoardInfoHeader bs) ∨
    Corrupted bs ∨
    (bs.getD 0 0 = 0x28 ∧ 9 ≤ bs.length ∧ bs.getD 8 0 ≠ 0x29)

variable {bs : List UInt8} {n : ℕ}

/-- A candidate begins with its header byte. -/
lemma Candidate.pos (h : Candidate bs n) : bs.getD 0 0 = 0xFF := by
  rcases h.1 with ⟨h, -⟩ | ⟨h, -⟩ <;> exact h.1

/-- The two headers differ in their second byte. -/
lemma BoardInfoHeader.not_touch (h : BoardInfoHeader bs) : ¬ TouchHeader bs := by
  intro htouch
  have := htouch.2.1.symm.trans h.2
  exact absurd this (by decide)

/-- A touch candidate is corrupted exactly if its checksum is wrong. -/
lemma TouchHeader.corrupted_iff (h : TouchHeader bs) (hlen : 14 ≤ bs.length) :
    Corrupted bs ↔ ¬ ChecksumHolds bs 14 := by
  constructor
  · rintro ⟨n, ⟨⟨-, rfl⟩ | ⟨hinfo, -⟩, -⟩, hsum⟩
    · exact hsum
    · exact absurd h hinfo.not_touch
  · exact fun hsum => ⟨14, ⟨.inl ⟨h, rfl⟩, hlen⟩, hsum⟩

/-- A board-info candidate is corrupted exactly if its checksum is wrong. -/
lemma BoardInfoHeader.corrupted_iff (h : BoardInfoHeader bs)
    (hlen : 3 + (bs.getD 2 0).toNat + 1 ≤ bs.length) :
    Corrupted bs ↔ ¬ ChecksumHolds bs (3 + (bs.getD 2 0).toNat + 1) := by
  constructor
  · rintro ⟨n, ⟨⟨htouch, -⟩ | ⟨-, rfl⟩, -⟩, hsum⟩
    · exact absurd htouch h.not_touch
    · exact hsum
  · exact fun hsum => ⟨_, ⟨.inr ⟨h, rfl⟩, hlen⟩, hsum⟩

/-! ## The decisions of the decoder at a candidate -/

/-- A touch frame with buttons is taken if its sum holds, and otherwise costs one byte. -/
lemma mai2Head_touch (h : TouchHeader bs) (hlen : 14 ≤ bs.length) :
    mai2Head bs =
      if ChecksumHolds bs 14 then
        some (14, some (.touch (some ((bs.getD 3 0 &&& 0x0F) ||| (bs.getD 4 0 &&& 0xF0)))
          (some (bs.getD 5 0 &&& 0x3F)) (some (touchAt bs 6))))
      else some (1, none) := by
  rw [mai2Head, if_neg (by omega), if_pos h.1, if_neg (by omega), if_pos h.2, if_neg (by omega)]
  rfl

/-- Board information is taken as announced. -/
lemma mai2Head_boardInfo (h : BoardInfoHeader bs)
    (hlen : 3 + (bs.getD 2 0).toNat + 1 ≤ bs.length) :
    mai2Head bs = some (3 + (bs.getD 2 0).toNat + 1,
      some (.boardInfo (boardVersion ((bs.drop 3).take (bs.getD 2 0).toNat)))) := by
  have htouch : ¬ (bs.getD 1 0 = 0x01 ∧ (bs.getD 2 0 = 0x0A ∨ bs.getD 2 0 = 0x00)) :=
    fun ht => h.not_touch ⟨h.1, ht⟩
  rw [mai2Head, if_neg (by omega), if_pos h.1, if_neg (by omega), if_neg htouch, if_pos h.2,
    if_neg (by omega)]

/-- The decoder waits for the rest of an announced frame. -/
lemma mai2Head_incomplete (h : TouchHeader bs ∨ BoardInfoHeader bs)
    (hnone : ∀ n, ¬ Candidate bs n) : mai2Head bs = none := by
  rcases h with htouch | hinfo
  · have hlen : bs.length < 14 := not_le.mp fun hlen => hnone 14 ⟨.inl ⟨htouch, rfl⟩, hlen⟩
    rw [mai2Head]
    split_ifs with hnil hff h3 hheader <;> first | rfl | exact absurd htouch.1 ‹_› | skip
    all_goals exact absurd htouch.2 hheader
  · have hlen : bs.length < 3 + (bs.getD 2 0).toNat + 1 :=
      not_le.mp fun hlen => hnone _ ⟨.inr ⟨hinfo, rfl⟩, hlen⟩
    have htouch : ¬ (bs.getD 1 0 = 0x01 ∧ (bs.getD 2 0 = 0x0A ∨ bs.getD 2 0 = 0x00)) :=
      fun h => hinfo.not_touch ⟨hinfo.1, h⟩
    by_cases h3 : bs.length < 3
    · rw [mai2Head, if_pos hinfo.1, if_pos h3, ite_self]
    · rw [mai2Head, if_neg (by omega), if_pos hinfo.1, if_neg h3, if_neg htouch, if_pos hinfo.2,
        if_pos hlen]

/-- Another header behind `FF` costs one byte, once it is there. -/
lemma mai2Head_otherHeader (hff : bs.getD 0 0 = 0xFF) (htouch : ¬ TouchHeader bs)
    (hinfo : ¬ BoardInfoHeader bs) :
    mai2Head bs = if 3 ≤ bs.length then some (1, none) else none := by
  have ht : ¬ (bs.getD 1 0 = 0x01 ∧ (bs.getD 2 0 = 0x0A ∨ bs.getD 2 0 = 0x00)) :=
    fun h => htouch ⟨hff, h⟩
  have hi : ¬ bs.getD 1 0 = affineCmdGetBoardInfo := fun h => hinfo ⟨hff, h⟩
  by_cases h3 : 3 ≤ bs.length
  · rw [mai2Head, if_neg (by omega), if_pos hff, if_neg (by omega), if_neg ht, if_neg hi, if_pos h3]
  · rw [mai2Head, if_pos hff, if_pos (show bs.length < 3 by omega), ite_self, if_neg h3]

/-- Behind `FF`, no frame starts if the header is another one, or the candidate is corrupted. -/
lemma startsNoFrame_of_ff (h : bs.getD 0 0 = 0xFF) :
    StartsNoFrame bs ↔
      (3 ≤ bs.length ∧ ¬ TouchHeader bs ∧ ¬ BoardInfoHeader bs) ∨ Corrupted bs := by
  have hparen : (0xFF : UInt8) ≠ 0x28 := by decide
  simp only [StartsNoFrame, h, ne_eq, not_true_eq_false, false_and, and_false, false_or, true_and,
    hparen, or_false]

/-- In front of another byte stands no candidate. -/
lemma startsNoFrame_of_ne_ff (h : bs.getD 0 0 ≠ 0xFF) :
    StartsNoFrame bs ↔
      (bs ≠ [] ∧ bs.getD 0 0 ≠ 0x28) ∨
        (bs.getD 0 0 = 0x28 ∧ 9 ≤ bs.length ∧ bs.getD 8 0 ≠ 0x29) := by
  have hcorrupted : ¬ Corrupted bs := by
    rintro ⟨n, hcandidate, -⟩
    exact h hcandidate.pos
  simp only [StartsNoFrame, h, hcorrupted, ne_eq, not_false_eq_true, true_and, false_and, false_or]

/-- **When the decoder skips a byte**: if no frame starts there, unless it is board information
with a wrong sum.

**Proof sketch.** The branches of the decoder: behind `FF` there is a complete candidate of one of
the two kinds, an incomplete one, or another header. -/
theorem mai2Head_skip_iff :
    mai2Head bs = some (1, none) ↔ StartsNoFrame bs ∧ ¬ CorruptBoardInfo bs := by
  by_cases hff : bs.getD 0 0 = 0xFF
  swap
  · have hcorrupted : ¬ CorruptBoardInfo bs := fun h => hff h.1.1
    rw [startsNoFrame_of_ne_ff hff, mai2Head, if_neg hff]
    split_ifs with hnil hparen h9 hclose <;> simp_all
  rw [startsNoFrame_of_ff hff]
  by_cases hcandidate : ∃ n, Candidate bs n
  · obtain ⟨n, ⟨htouch, rfl⟩ | ⟨hinfo, rfl⟩, hlen⟩ := hcandidate
    · have hinfo : ¬ BoardInfoHeader bs := fun h => h.not_touch htouch
      rw [mai2Head_touch htouch hlen, htouch.corrupted_iff hlen]
      by_cases hsum : ChecksumHolds bs 14 <;> simp [htouch, hinfo, hsum, CorruptBoardInfo]
    · rw [mai2Head_boardInfo hinfo hlen]
      simp [hinfo, CorruptBoardInfo]
  · have hnone : ∀ n, ¬ Candidate bs n := not_exists.mp hcandidate
    have hcorrupted : ¬ Corrupted bs := by
      rintro ⟨n, hn, -⟩
      exact hnone n hn
    by_cases hheader : TouchHeader bs ∨ BoardInfoHeader bs
    · rw [mai2Head_incomplete hheader hnone]
      rcases hheader with h | h <;> simp [h, hcorrupted]
    · obtain ⟨htouch, hinfo⟩ := not_or.mp hheader
      rw [mai2Head_otherHeader hff htouch hinfo]
      by_cases h3 : 3 ≤ bs.length <;> simp [h3, htouch, hinfo, hcorrupted, CorruptBoardInfo]

/-- The decoder skips one byte at a time. -/
lemma mai2Head_skip_one (h : mai2Head bs = some (n, none)) : n = 1 := by
  unfold mai2Head at h
  split_ifs at h <;> simp_all

/-- The frames behind `FF` have the right sum, unless they are corrupted board information.

**Proof sketch.** The cases are the two kinds of candidates. The decoder checks the sum of the first
one itself. -/
lemma checksumHolds_of_frame {frame : ParsedFrame} (hff : bs.getD 0 0 = 0xFF)
    (h : mai2Head bs = some (n, some frame)) (hinfo : ¬ CorruptBoardInfo bs) :
    ChecksumHolds bs n := by
  by_cases hcandidate : ∃ n, Candidate bs n
  · obtain ⟨m, ⟨htouch, rfl⟩ | ⟨hheader, rfl⟩, hlen⟩ := hcandidate
    · rw [mai2Head_touch htouch hlen] at h
      split at h
      · next hsum =>
        cases h
        exact hsum
      · cases h
    · rw [mai2Head_boardInfo hheader hlen] at h
      cases h
      by_contra hsum
      exact hinfo ⟨hheader, (hheader.corrupted_iff hlen).mpr hsum⟩
  · have hnone : ∀ n, ¬ Candidate bs n := not_exists.mp hcandidate
    by_cases hheader : TouchHeader bs ∨ BoardInfoHeader bs
    · rw [mai2Head_incomplete hheader hnone] at h
      cases h
    · obtain ⟨htouch, hother⟩ := not_or.mp hheader
      rw [mai2Head_otherHeader hff htouch hother] at h
      split at h <;> cases h

/-! ## The positions that the loop comes to -/

namespace RxBuf

/-- A pass of the loop of `try_parse_frame` that goes on. -/
def Skips (rx next : RxBuf) : Prop := rx.scan = .ok (.again next)

/-- A pass of the loop, which goes on or returns, and the buffer that it leaves. -/
def Leaves (rx next : RxBuf) : Prop :=
  rx.Skips next ∨ ∃ frame, rx.scan = .ok (.ret (frame, next))

/-- The loop comes from one buffer to another. -/
def Reaches : RxBuf → RxBuf → Prop := ReflTransGen Skips

/-- **False headers do no harm.** At every position that the loop comes to: if a pass uses up more
than one byte from an `FF` on, then these bytes end with the sum of the others, and a corrupted
candidate costs exactly one byte, at which the loop goes on. So a touch frame is delivered if no
frame starts at a byte before it. -/
structure FalseHeadersHarmless (rx : RxBuf) : Prop where
  summed : ∀ here next, rx.Reaches here → here.live.head? = some 0xFF → here.Leaves next →
    next.len + 1 < here.len → ChecksumHolds here.live (here.len - next.len)
  resumes : ∀ here, rx.Reaches here → Corrupted here.live →
    ∃ next, here.Skips next ∧ next.live = here.live.drop 1
  delivered : ∀ i item buttons0 ioStatus touch rest,
    StreamItem.frame item = some (.touch buttons0 ioStatus touch) →
    rx.live.drop i = item.bytes ++ rest → (∀ j < i, StartsNoFrame (rx.live.drop j)) →
    ∃ next, rx.tryParseFrame = .ok (some (.touch buttons0 ioStatus touch), next) ∧
      next.live = rest

/-- No position that the loop comes to holds board information with a wrong sum: that is, none
behind bytes at which no frame starts. -/
def BoardInfoSummed (rx : RxBuf) : Prop :=
  ∀ i, (∀ j < i, StartsNoFrame (rx.live.drop j)) → ¬ CorruptBoardInfo (rx.live.drop i)

variable {rx here next : RxBuf}

/-- A pass goes on exactly if the decoder skips a byte. -/
lemma skips_of_head (h : rx.len ≤ 512) (hhead : mai2Head rx.live = some (1, none)) :
    ∃ next, rx.Skips next ∧ next.len ≤ 512 ∧ next.live = rx.live.drop 1 := by
  have hle := (mai2Head_bounds hhead).2
  rw [length_live h] at hle
  obtain ⟨next, hconsume, hlen, hlive⟩ := consume_spec h hle
  refine ⟨next, ?_, by omega, hlive⟩
  rw [Skips, scan_eq h, hhead]
  simp [hconsume]

/-- A pass that goes on skips one byte, as the scanner does.

**Proof sketch.** A pass is a decision of the scanner (`scan_eq`), and the decisions that go on skip
one byte. -/
lemma Skips.head (hskips : rx.Skips next) (h : rx.len ≤ 512) :
    mai2Head rx.live = some (1, none) ∧ next.len ≤ 512 ∧ next.live = rx.live.drop 1 := by
  rw [Skips, scan_eq h] at hskips
  cases hhead : mai2Head rx.live with
  | none =>
    rw [hhead] at hskips
    cases hskips
  | some x =>
    obtain ⟨n, _ | frame⟩ := x
    · obtain rfl := mai2Head_skip_one hhead
      obtain ⟨next', hnext, hlen, hlive⟩ := skips_of_head h hhead
      rw [Skips, scan_eq h, hhead] at hnext
      rw [hhead, hnext] at hskips
      cases hskips
      exact ⟨rfl, hlen, hlive⟩
    · have hle := (mai2Head_bounds hhead).2
      rw [length_live h] at hle
      obtain ⟨next', hconsume, -, -⟩ := consume_spec h hle
      rw [hhead] at hskips
      simp only [hconsume, Slice.ok_bind] at hskips
      cases hskips

/-- A pass that uses up bytes is a decision of the decoder.

**Proof sketch.** A pass that goes on skips one byte; one that returns a frame uses up its bytes. A
pass that waits uses up none. -/
lemma Leaves.head (hleaves : rx.Leaves next) (h : rx.len ≤ 512) (hless : next.len < rx.len) :
    ∃ frame, mai2Head rx.live = some (rx.len - next.len, frame) := by
  rcases hleaves with hskips | ⟨found, hret⟩
  · obtain ⟨hhead, hlen, hlive⟩ := hskips.head h
    have hone : rx.len - next.len = 1 := by
      have := congrArg List.length hlive
      rw [List.length_drop, length_live h, length_live hlen] at this
      omega
    exact ⟨none, by rw [hhead, hone]⟩
  · rw [scan_eq h] at hret
    cases hhead : mai2Head rx.live with
    | none =>
      rw [hhead] at hret
      cases hret
      exact absurd hless (lt_irrefl _)
    | some x =>
      obtain ⟨n, frame⟩ := x
      have hle := (mai2Head_bounds hhead).2
      rw [length_live h] at hle
      obtain ⟨next', hconsume, hlen, -⟩ := consume_spec h hle
      rw [hhead] at hret
      cases frame with
      | none =>
        simp only [hconsume, Slice.ok_bind] at hret
        cases hret
      | some frame =>
        simp only [hconsume, Slice.ok_bind] at hret
        cases hret
        exact ⟨some frame, by rw [show rx.len - next.len = n by omega]⟩

/-- The loop comes to the bytes behind those that it skips. -/
lemma Reaches.drop (h : rx.len ≤ 512) (hreaches : rx.Reaches here) :
    here.len ≤ 512 ∧ ∃ i, here.live = rx.live.drop i ∧
      ∀ j < i, mai2Head (rx.live.drop j) = some (1, none) := by
  induction hreaches with
  | refl => exact ⟨h, 0, rfl, fun _ hj => absurd hj (Nat.not_lt_zero _)⟩
  | tail _ hskips ih =>
    obtain ⟨hlen, i, hlive, hbefore⟩ := ih
    obtain ⟨hhead, hlen', hlive'⟩ := hskips.head hlen
    refine ⟨hlen', i + 1, by rw [hlive', hlive, List.drop_drop], fun j hj => ?_⟩
    rcases Nat.lt_succ_iff_lt_or_eq.mp hj with hj | rfl
    · exact hbefore j hj
    · rwa [← hlive]

/-- The loop comes to every position behind bytes that it skips. -/
lemma exists_reaches (h : rx.len ≤ 512) {i : ℕ}
    (hbefore : ∀ j < i, mai2Head (rx.live.drop j) = some (1, none)) :
    ∃ here, rx.Reaches here ∧ here.len ≤ 512 ∧ here.live = rx.live.drop i := by
  induction i with
  | zero => exact ⟨rx, .refl, h, rfl⟩
  | succ i ih =>
    obtain ⟨here, hreaches, hlen, hlive⟩ := ih fun j hj => hbefore j (Nat.lt_succ_of_lt hj)
    have hhead := hbefore i (Nat.lt_succ_self i)
    rw [← hlive] at hhead
    obtain ⟨next, hskips, hlen', hlive'⟩ := skips_of_head hlen hhead
    exact ⟨next, hreaches.tail hskips, hlen', by rw [hlive', hlive, List.drop_drop]⟩

/-- The first frame of a buffer stands behind the bytes that the loop skips. -/
lemma next_drop {bs : List UInt8} {i : ℕ}
    (hbefore : ∀ j < i, mai2Head (bs.drop j) = some (1, none)) :
    mai2Scanner.next bs = mai2Scanner.next (bs.drop i) := by
  induction i with
  | zero => rfl
  | succ i ih =>
    rw [ih fun j hj => hbefore j (Nat.lt_succ_of_lt hj),
      mai2Scanner.next_skip (hbefore i (Nat.lt_succ_self i)), List.drop_drop]

/-- With no corrupted board information on its way, the loop skips every byte at which no frame
starts. -/
lemma BoardInfoSummed.skips (hinfo : rx.BoardInfoSummed) {i : ℕ}
    (hbefore : ∀ j < i, StartsNoFrame (rx.live.drop j)) :
    ∀ j < i, mai2Head (rx.live.drop j) = some (1, none) := by
  intro j hj
  exact mai2Head_skip_iff.mpr
    ⟨hbefore j hj, hinfo j fun k hk => hbefore k (hk.trans hj)⟩

end RxBuf

/-- **When false headers do no harm**: exactly if the loop comes to no board information whose last
byte is not the sum of the others.

**Proof sketch.** Without such board information the decoder skips exactly the bytes at which no
frame starts (`mai2Head_skip_iff`), and its frames have the right sum. Conversely, by induction on
the position, the loop skips all bytes before board information with a wrong sum, and there the pass
returns a frame where it should skip a byte. -/
theorem falseHeadersHarmless_iff (rx : RxBuf) (h : rx.len ≤ 512) :
    rx.FalseHeadersHarmless ↔ rx.BoardInfoSummed := by
  constructor
  · intro hharmless i
    induction i using Nat.strongRecOn with
    | ind i ih =>
      intro hbefore hcorrupt
      have hskipped : ∀ j < i, mai2Head (rx.live.drop j) = some (1, none) := fun j hj =>
        mai2Head_skip_iff.mpr ⟨hbefore j hj, ih j hj fun k hk => hbefore k (hk.trans hj)⟩
      obtain ⟨here, hreaches, hlen, hlive⟩ := RxBuf.exists_reaches h hskipped
      rw [← hlive] at hcorrupt
      obtain ⟨next, hskips, -⟩ := hharmless.resumes here hreaches hcorrupt.2
      exact (mai2Head_skip_iff.mp (hskips.head hlen).1).2 hcorrupt
  · intro hinfo
    have hreached : ∀ here, rx.Reaches here → here.len ≤ 512 ∧ ¬ CorruptBoardInfo here.live := by
      intro here hreaches
      obtain ⟨hlen, i, hlive, hbefore⟩ := hreaches.drop h
      exact ⟨hlen, hlive ▸ hinfo i fun j hj => (mai2Head_skip_iff.mp (hbefore j hj)).1⟩
    refine ⟨fun here next hreaches hff hleaves hmore => ?_, fun here hreaches hcorrupted => ?_,
      fun i item buttons0 ioStatus touch rest hframe hrest hbefore => ?_⟩
    · obtain ⟨hlen, hsummed⟩ := hreached here hreaches
      obtain ⟨_ | frame, hhead⟩ := hleaves.head hlen (by omega)
      · have := mai2Head_skip_one hhead
        omega
      · have hfront : here.live.getD 0 0 = 0xFF := by
          rw [List.getD_eq_getElem?_getD, ← List.head?_eq_getElem?, hff]
          rfl
        exact checksumHolds_of_frame hfront hhead hsummed
    · obtain ⟨hlen, hsummed⟩ := hreached here hreaches
      have hhead := mai2Head_skip_iff.mpr ⟨.inr (.inr (.inl hcorrupted)), hsummed⟩
      obtain ⟨next, hskips, -, hlive⟩ := RxBuf.skips_of_head hlen hhead
      exact ⟨next, hskips, hlive⟩
    · obtain ⟨found, next, hparse, -, hnext⟩ := RxBuf.tryParseFrame_spec h
      have hitem := mai2Scanner.stable item.head_bytes rest
      rw [hframe] at hitem
      rw [RxBuf.next_drop (hinfo.skips hbefore), hrest, mai2Scanner.next_found hitem,
        List.drop_left] at hnext
      obtain ⟨rfl, rfl⟩ := Prod.mk.inj hnext
      exact ⟨next, hparse, rfl⟩

/-- A buffer with these bytes at its front. -/
def RxBuf.ofBytes (bytes : List UInt8) : RxBuf where
  buf := .ofFn fun k => bytes.getD k 0
  len := bytes.length

/-- A touch frame with buttons. -/
def heldTouch : StreamItem := .touch 0x0A 0x01 0 0 ⟨[1, 0, 0, 0, 0, 0, 0], rfl⟩ (.inl rfl)

/-- A header of board information with 14 bytes, a touch frame, and the first byte of the frame
behind it. -/
def swallowedTouch : List UInt8 := [0xFF, 0xF0, 0x0E] ++ heldTouch.bytes ++ [0xFF]

/-- For the buffer with the false header, too, the sums decide. -/
theorem falseHeadersHarmless_iff_swallowed :
    (RxBuf.ofBytes swallowedTouch).FalseHeadersHarmless ↔
      (RxBuf.ofBytes swallowedTouch).BoardInfoSummed :=
  falseHeadersHarmless_iff (RxBuf.ofBytes swallowedTouch) (by decide +kernel)

/-- The false header swallows the touch frame. -/
theorem touch_swallowed :
    (RxBuf.ofBytes swallowedTouch).tryParseFrame.map Prod.fst = .ok (some (.boardInfo none)) ∧
      ¬ (RxBuf.ofBytes swallowedTouch).FalseHeadersHarmless := by
  have hparse : (RxBuf.ofBytes swallowedTouch).tryParseFrame.map Prod.fst =
      .ok (some (.boardInfo none)) := by decide +kernel
  have hlive : (RxBuf.ofBytes swallowedTouch).live = swallowedTouch := by decide +kernel
  refine ⟨hparse, fun hharmless => ?_⟩
  have hbefore : ∀ j < 3, StartsNoFrame (swallowedTouch.drop j) := by
    rintro (_ | _ | _ | j) hj
    · exact .inr (.inr (.inl ⟨18, ⟨.inr ⟨⟨rfl, rfl⟩, rfl⟩, by decide⟩, by decide⟩))
    · exact .inl (by decide)
    · exact .inl (by decide)
    · omega
  obtain ⟨next, hdelivered, -⟩ := hharmless.delivered 3 heldTouch (some 0x01) (some 0)
    (some ⟨[1, 0, 0, 0, 0, 0, 0], rfl⟩) [0xFF] (by decide) (by rw [hlive]; decide)
    (by rw [hlive]; exact hbefore)
  rw [hdelivered] at hparse
  cases hparse

end Affine
