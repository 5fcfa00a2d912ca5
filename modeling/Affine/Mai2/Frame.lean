import Affine.Core.Port
import Affine.Lib.Checksum
import Affine.Lib.Scanner
import Affine.Lib.Slice
import Mathlib.Data.List.GetD

set_option relaxedAutoImplicit false
set_option autoImplicit false

/-!
# The frames of a maimai board

The stream decoder of `affine-mai2/src/lib.rs`: `try_parse_frame` and `consume` on the receive
buffer, and the loops of `serial_reader_thread` around them.

The bytes of the buffer that count are its first `len`. On these the decoder is the scanner
`mai2Scanner`, which decides from the bytes at the front (`tryParseFrame_spec`), and its
decisions are final. So the reader decodes the concatenation of what it has read
(`readerLoop_spec`), and its buffer never overflows.

## Main definitions

* `Affine.RxBuf`, `Affine.ParsedFrame`, `Affine.tryParseFrame` — the decoder.
* `Affine.readerLoop` — the loops of `serial_reader_thread`, up to what is done with a frame.
* `Affine.mai2Scanner` — the decoder as a scanner.
* `Affine.StreamItem` — a frame of one of the three formats, or a byte between frames.

## Main results

* `Affine.tryParseFrame_spec`, `Affine.readerLoop_spec` — the decoder refines the scanner.
* `Affine.readerLoop_items` — the reader loses and duplicates nothing.
-/

namespace Affine

open Slice (Exec Flow)

/-! ## The source -/

def affineCmdGetBoardInfo : UInt8 := 0xF0

/-- The receive buffer, of `AFFINE_SERIAL_RX_BUF_LEN` bytes, and how many of them count. -/
structure RxBuf where
  buf : List.Vector UInt8 512
  len : ℕ

/-- A decoded frame. The version is the bytes of its text, or `none` for `unknown`. -/
inductive ParsedFrame
  | touch (buttons0 ioStatus : Option UInt8) (touch : Option (List.Vector UInt8 7))
  | boardInfo (version : Option (List UInt8))
  deriving DecidableEq

/-- `parse_board_info`, without the conversion of the bytes to a text. -/
def parseBoardInfo (data : List UInt8) : Exec (Option (List UInt8)) :=
  if data.length = 0 then return none
  else do
    let length := (← Slice.get data 0).toNat
    if length = 0 ∨ length + 1 > data.length then return none
    else return some (← Slice.range data 1 (1 + length))

namespace RxBuf

/-- `consume`. -/
def consume (rx : RxBuf) (count : ℕ) : Exec RxBuf :=
  if count ≥ rx.len then return { rx with len := 0 }
  else do
    let buf ← Slice.copyWithin rx.buf count rx.len 0
    return { buf := buf, len := rx.len - count }

/-- The body of the loop of `try_parse_frame`. -/
def scan (rx : RxBuf) : Exec (Flow RxBuf (Option ParsedFrame × RxBuf)) :=
  let b := rx.buf.toList
  if rx.len = 0 then return .ret (none, rx)
  else do
    if (← Slice.get b 0) = 0xFF then
      if rx.len < 3 then return .ret (none, rx)
      else if (← Slice.get b 1) = 0x01 ∧ ((← Slice.get b 2) = 0x0A ∨ (← Slice.get b 2) = 0x00) then
        if rx.len < 14 then return .ret (none, rx)
        else
          let checksum := Checksum.sum (← Slice.range b 0 13)
          if (← Slice.get b 13) = checksum then
            let buttons0 := ((← Slice.get b 3) &&& 0x0F) ||| ((← Slice.get b 4) &&& 0xF0)
            let ioStatus := (← Slice.get b 5) &&& 0x3F
            let touch ← Slice.copyFromSlice 7 (← Slice.range b 6 13)
            return .ret (some (.touch (some buttons0) (some ioStatus) (some touch)),
              ← rx.consume 14)
          else return .again (← rx.consume 1)
      else if (← Slice.get b 1) = affineCmdGetBoardInfo then
        let total := 3 + (← Slice.get b 2).toNat + 1
        if total > b.length then return .again (← rx.consume 1)
        else if rx.len < total then return .ret (none, rx)
        else
          let version ← parseBoardInfo (← Slice.range b 3 (3 + (← Slice.get b 2).toNat))
          return .ret (some (.boardInfo version), ← rx.consume total)
      else return .again (← rx.consume 1)
    else if (← Slice.get b 0) = 0x28 then
      if rx.len < 9 then return .ret (none, rx)
      else if (← Slice.get b 8) = 0x29 then
        let touch ← Slice.copyFromSlice 7 (← Slice.range b 1 8)
        return .ret (some (.touch none none (some touch)), ← rx.consume 9)
      else return .again (← rx.consume 1)
    else return .again (← rx.consume 1)

/-- `try_parse_frame`. Every pass of its loop that goes on has used up a byte. -/
def tryParseFrame (rx : RxBuf) : Exec (Option ParsedFrame × RxBuf) :=
  Slice.iterate scan (rx.len + 1) rx

/-- The loop around `try_parse_frame`, with the frames it has found. -/
def drain (rx : RxBuf) : Exec (List ParsedFrame × RxBuf) :=
  Slice.iterate (fun s : List ParsedFrame × RxBuf => do
    match ← s.2.tryParseFrame with
    | (some frame, rx) => return .again (s.1 ++ [frame], rx)
    | (none, rx) => return .ret (s.1, rx)) (rx.len + 1) ([], rx)

/-- The body of the byte loop of `serial_reader_thread`. -/
def push (rx : RxBuf) (byte : UInt8) : Exec (List ParsedFrame × RxBuf) := do
  let rx := if rx.len ≥ 512 then { rx with len := 0 } else rx
  let buf ← Slice.set rx.buf rx.len byte
  drain { buf := buf, len := rx.len + 1 }

/-- The byte loop of `serial_reader_thread`. -/
def pushAll : RxBuf → List UInt8 → Exec (List ParsedFrame × RxBuf)
  | rx, [] => return ([], rx)
  | rx, b :: bs => do
    let (frames, rx) ← rx.push b
    let (frames', rx) ← pushAll rx bs
    return (frames ++ frames', rx)

end RxBuf

/-- The loop of `serial_reader_thread` over its reads. A failed read ends it. -/
def readerLoop : RxBuf → List (PortRead 256) → Exec (List ParsedFrame × RxBuf)
  | rx, [] => return ([], rx)
  | rx, none :: _ => return ([], rx)
  | rx, some readBuf :: rest =>
    if readBuf.1.length = 0 then readerLoop rx rest
    else do
      let (frames, rx) ← rx.pushAll readBuf
      let (frames', rx) ← readerLoop rx rest
      return (frames ++ frames', rx)

/-! ## The decoder as a scanner -/

/-- Seven bytes of a frame. -/
def touchAt (bs : List UInt8) (k : ℕ) : List.Vector UInt8 7 :=
  List.Vector.ofFn fun i => bs.getD (k + i) 0

/-- The version in the payload of a board-info frame. -/
def boardVersion (data : List UInt8) : Option (List UInt8) :=
  let length := (data.getD 0 0).toNat
  if length = 0 ∨ length + 1 > data.length then none else some ((data.drop 1).take length)

/-- The decision for the bytes received so far: wait, or use up some of them. -/
def mai2Head (bs : List UInt8) : Option (ℕ × Option ParsedFrame) :=
  if bs.length = 0 then none
  else if bs.getD 0 0 = 0xFF then
    if bs.length < 3 then none
    else if bs.getD 1 0 = 0x01 ∧ (bs.getD 2 0 = 0x0A ∨ bs.getD 2 0 = 0x00) then
      if bs.length < 14 then none
      else if bs.getD 13 0 = Checksum.sum (bs.take 13) then
        some (14, some (.touch (some ((bs.getD 3 0 &&& 0x0F) ||| (bs.getD 4 0 &&& 0xF0)))
          (some (bs.getD 5 0 &&& 0x3F)) (some (touchAt bs 6))))
      else some (1, none)
    else if bs.getD 1 0 = affineCmdGetBoardInfo then
      if bs.length < 3 + (bs.getD 2 0).toNat + 1 then none
      else some (3 + (bs.getD 2 0).toNat + 1,
        some (.boardInfo (boardVersion ((bs.drop 3).take (bs.getD 2 0).toNat))))
    else some (1, none)
  else if bs.getD 0 0 = 0x28 then
    if bs.length < 9 then none
    else if bs.getD 8 0 = 0x29 then some (9, some (.touch none none (some (touchAt bs 1))))
    else some (1, none)
  else some (1, none)

/-- The touch bytes are found in front of more bytes. -/
lemma touchAt_append {bs : List UInt8} {k : ℕ} (h : k + 7 ≤ bs.length) (ys : List UInt8) :
    touchAt (bs ++ ys) k = touchAt bs k := by
  unfold touchAt
  congr 1
  funext i
  exact List.getD_append bs ys 0 (k + i) (by omega)

/-- The decoder's decisions are final.

**Proof sketch.** The cases are the checks of the decoder. Where it decides, all bytes that it looks
at are there, so they are the same in front of more bytes. -/
lemma mai2Head_append {bs : List UInt8} {x : ℕ × Option ParsedFrame} (h : mai2Head bs = some x)
    (ys : List UInt8) : mai2Head (bs ++ ys) = some x := by
  have hlen : (bs ++ ys).length = bs.length + ys.length := List.length_append
  have hget : ∀ i, i < bs.length → (bs ++ ys).getD i 0 = bs.getD i 0 :=
    fun i hi => List.getD_append bs ys 0 i hi
  unfold mai2Head at h ⊢
  by_cases hnil : bs.length = 0
  · rw [if_pos hnil] at h
    cases h
  rw [if_neg hnil] at h
  rw [if_neg (by omega), hget 0 (by omega)]
  by_cases hff : bs.getD 0 0 = 0xFF
  · rw [if_pos hff] at h ⊢
    by_cases h3 : bs.length < 3
    · rw [if_pos h3] at h
      cases h
    rw [if_neg h3] at h
    rw [if_neg (by omega), hget 1 (by omega), hget 2 (by omega)]
    by_cases htouch : bs.getD 1 0 = 0x01 ∧ (bs.getD 2 0 = 0x0A ∨ bs.getD 2 0 = 0x00)
    · rw [if_pos htouch] at h ⊢
      by_cases h14 : bs.length < 14
      · rw [if_pos h14] at h
        cases h
      rw [if_neg h14] at h
      rw [if_neg (by omega), hget 13 (by omega), hget 3 (by omega), hget 4 (by omega),
        hget 5 (by omega), List.take_append_of_le_length (by omega), touchAt_append (by omega), h]
    · rw [if_neg htouch] at h ⊢
      by_cases hinfo : bs.getD 1 0 = affineCmdGetBoardInfo
      · rw [if_pos hinfo] at h ⊢
        by_cases htotal : bs.length < 3 + (bs.getD 2 0).toNat + 1
        · rw [if_pos htotal] at h
          cases h
        rw [if_neg htotal] at h
        rw [if_neg (by omega), List.drop_append_of_le_length (by omega),
          List.take_append_of_le_length (by rw [List.length_drop]; omega), h]
      · rw [if_neg hinfo] at h ⊢
        exact h
  · rw [if_neg hff] at h ⊢
    by_cases hparen : bs.getD 0 0 = 0x28
    · rw [if_pos hparen] at h ⊢
      by_cases h9 : bs.length < 9
      · rw [if_pos h9] at h
        cases h
      rw [if_neg h9] at h
      rw [if_neg (by omega), hget 8 (by omega), touchAt_append (by omega), h]
    · rw [if_neg hparen] at h ⊢
      exact h

/-- What the decoder uses up is there, and is at least one byte. -/
lemma mai2Head_bounds {bs : List UInt8} {n : ℕ} {frame : Option ParsedFrame}
    (h : mai2Head bs = some (n, frame)) : 0 < n ∧ n ≤ bs.length := by
  unfold mai2Head at h
  split_ifs at h <;> simp only [Option.some.injEq, Prod.mk.injEq] at h <;> omega

/-- The decoder as a scanner. -/
def mai2Scanner : Scanner UInt8 ParsedFrame where
  head := mai2Head
  pos h := (mai2Head_bounds h).1
  le h := (mai2Head_bounds h).2
  stable := mai2Head_append

/-- The decoder waits for at most one more byte than `258`. -/
lemma length_of_mai2Head_eq_none {bs : List UInt8} (h : mai2Head bs = none) : bs.length ≤ 258 := by
  have hbyte : (bs.getD 2 0).toNat ≤ 255 := by
    have := (bs.getD 2 0).toNat_lt
    omega
  unfold mai2Head at h
  split_ifs at h <;> omega

/-! ## The decoder refines the scanner -/

/-- `parse_board_info` stays within its payload. -/
lemma parseBoardInfo_eq (data : List UInt8) : parseBoardInfo data = .ok (boardVersion data) := by
  unfold parseBoardInfo boardVersion
  by_cases hnil : data.length = 0
  · rw [if_pos hnil, List.length_eq_zero_iff.mp hnil]
    rfl
  · rw [if_neg hnil, Slice.get_eq_getD (by omega) 0, Slice.ok_bind]
    by_cases hlen : (data.getD 0 0).toNat = 0 ∨ (data.getD 0 0).toNat + 1 > data.length
    · rw [if_pos hlen, if_pos hlen]
      rfl
    · rw [if_neg hlen, if_neg hlen, Slice.range_eq_ok (by omega) (by omega), List.drop_take]
      simp only [Slice.ok_bind, Nat.add_sub_cancel_left]
      rfl

/-- The copy of the touch bytes raises no fault. -/
lemma copyFromSlice_touchAt {bs : List UInt8} {k : ℕ} (h : k + 7 ≤ bs.length) :
    Slice.copyFromSlice 7 ((bs.drop k).take 7) = .ok (touchAt bs k) := by
  have hlen : ((bs.drop k).take 7).length = 7 := by
    rw [List.length_take, List.length_drop]
    omega
  rw [Slice.copyFromSlice_eq_ok hlen]
  congr 1
  apply Subtype.ext
  change (bs.drop k).take 7 = (touchAt bs k).toList
  rw [touchAt, List.Vector.toList_ofFn]
  apply List.ext_getElem
  · rw [hlen, List.length_ofFn]
  · intro i hi _
    rw [hlen] at hi
    rw [List.getElem_take, List.getElem_drop, List.getElem_ofFn,
      List.getD_eq_getElem _ _ (by simp; omega)]

namespace RxBuf

/-- The bytes of the buffer that count. -/
def live (rx : RxBuf) : List UInt8 := rx.buf.toList.take rx.len

/-- The length counts the bytes that are left. -/
lemma length_live {rx : RxBuf} (h : rx.len ≤ 512) : rx.live.length = rx.len := by
  simp [live, h]

/-- Using up bytes drops them from the front. -/
lemma consume_spec {rx : RxBuf} (h : rx.len ≤ 512) {count : ℕ} (hcount : count ≤ rx.len) :
    ∃ rx', rx.consume count = .ok rx' ∧ rx'.len = rx.len - count ∧
      rx'.live = rx.live.drop count := by
  unfold consume
  by_cases hall : count ≥ rx.len
  · obtain rfl : count = rx.len := by omega
    refine ⟨{ rx with len := 0 }, if_pos hall, by simp, ?_⟩
    rw [List.drop_of_length_le (by rw [length_live h])]
    rfl
  · obtain ⟨ys, hys, hlive⟩ := Slice.copyWithin_toList rx.buf (by omega : count ≤ rx.len) h
    refine ⟨⟨ys, rx.len - count⟩, ?_, rfl, hlive⟩
    rw [if_neg hall, hys]
    rfl

/-- One pass of the decoder is a decision of the scanner.

**Proof sketch.** The cases are the checks of the source, in its order. Each access is within the
bytes that the checks before it have found. -/
lemma scan_eq {rx : RxBuf} (h : rx.len ≤ 512) :
    rx.scan =
      match mai2Head rx.live with
      | none => .ok (.ret (none, rx))
      | some (n, none) => do return .again (← rx.consume n)
      | some (n, some frame) => do return .ret (some frame, ← rx.consume n) := by
  have hlen := length_live h
  have hbuf : rx.buf.toList.length = 512 := rx.buf.toList_length
  have hget : ∀ i, i < rx.len → Slice.get rx.buf.toList i = .ok (rx.live.getD i 0) :=
    fun i hi => Slice.get_eq_getD_take hi (by omega) 0
  have hrange : ∀ a b, a ≤ b → b ≤ rx.len →
      Slice.range rx.buf.toList a b = .ok ((rx.live.drop a).take (b - a)) :=
    fun a b hab hb => Slice.range_eq_take hab hb (by omega)
  unfold scan mai2Head
  simp only [hlen]
  by_cases hnil : rx.len = 0
  · rw [if_pos hnil, if_pos hnil]
    rfl
  rw [if_neg hnil, if_neg hnil, hget 0 (by omega)]
  simp only [Slice.ok_bind]
  by_cases hff : rx.live.getD 0 0 = 0xFF
  · rw [if_pos hff, if_pos hff]
    by_cases h3 : rx.len < 3
    · rw [if_pos h3, if_pos h3]
      rfl
    rw [if_neg h3, if_neg h3, hget 1 (by omega), hget 2 (by omega)]
    simp only [Slice.ok_bind]
    by_cases htouch : rx.live.getD 1 0 = 0x01 ∧ (rx.live.getD 2 0 = 0x0A ∨ rx.live.getD 2 0 = 0x00)
    · rw [if_pos htouch, if_pos htouch]
      by_cases h14 : rx.len < 14
      · rw [if_pos h14, if_pos h14]
        rfl
      rw [if_neg h14, if_neg h14, hrange 0 13 (by omega) (by omega), hget 13 (by omega)]
      simp only [Slice.ok_bind, List.drop_zero, Nat.sub_zero]
      by_cases hck : rx.live.getD 13 0 = Checksum.sum (rx.live.take 13)
      · rw [if_pos hck, if_pos hck, hget 3 (by omega), hget 4 (by omega), hget 5 (by omega),
          hrange 6 13 (by omega) (by omega)]
        simp only [Slice.ok_bind, copyFromSlice_touchAt (show 6 + 7 ≤ rx.live.length by omega)]
      · rw [if_neg hck, if_neg hck]
    · rw [if_neg htouch, if_neg htouch]
      by_cases hinfo : rx.live.getD 1 0 = affineCmdGetBoardInfo
      · have hbyte := (rx.live.getD 2 0).toNat_lt
        rw [if_pos hinfo, if_pos hinfo, if_neg (by omega)]
        by_cases htotal : rx.len < 3 + (rx.live.getD 2 0).toNat + 1
        · rw [if_pos htotal, if_pos htotal]
          rfl
        rw [if_neg htotal, if_neg htotal, hrange 3 _ (by omega) (by omega)]
        simp only [Slice.ok_bind, parseBoardInfo_eq, Nat.add_sub_cancel_left]
      · rw [if_neg hinfo, if_neg hinfo]
  · rw [if_neg hff, if_neg hff]
    by_cases hparen : rx.live.getD 0 0 = 0x28
    · rw [if_pos hparen, if_pos hparen]
      by_cases h9 : rx.len < 9
      · rw [if_pos h9, if_pos h9]
        rfl
      rw [if_neg h9, if_neg h9, hget 8 (by omega)]
      simp only [Slice.ok_bind]
      by_cases hclose : rx.live.getD 8 0 = 0x29
      · rw [if_pos hclose, if_pos hclose, hrange 1 8 (by omega) (by omega)]
        simp only [Slice.ok_bind, copyFromSlice_touchAt (show 1 + 7 ≤ rx.live.length by omega)]
      · rw [if_neg hclose, if_neg hclose]
    · rw [if_neg hparen, if_neg hparen]

/-- **`try_parse_frame` refines the scanner**: it raises no fault, and it returns the first frame
in the bytes that count, with the bytes behind it left.

**Proof sketch.** Each pass of the loop is a decision of the scanner (`scan_eq`), and a pass that
skips bytes leaves fewer of them. -/
theorem tryParseFrame_spec {rx : RxBuf} (h : rx.len ≤ 512) :
    ∃ frame rx', rx.tryParseFrame = .ok (frame, rx') ∧ rx'.len ≤ 512 ∧
      mai2Scanner.next rx.live = (frame, rx'.live) := by
  have hloop : ∃ r, rx.tryParseFrame = .ok r ∧ r.2.len ≤ 512 ∧
      mai2Scanner.next rx.live = (r.1, r.2.live) := by
    refine Slice.iterate_spec (I := fun rx : RxBuf => rx.len ≤ 512)
      (Q := fun (rx : RxBuf) (r : Option ParsedFrame × RxBuf) =>
        r.2.len ≤ 512 ∧ mai2Scanner.next rx.live = (r.1, r.2.live))
      RxBuf.len (fun rx hrx => ?_) h (Nat.lt_succ_self rx.len)
    rw [scan_eq hrx]
    cases hhead : mai2Head rx.live with
    | none => exact .inr ⟨(none, rx), rfl, hrx, mai2Scanner.next_eq_none hhead⟩
    | some x =>
      obtain ⟨n, frame⟩ := x
      obtain ⟨hpos, hle⟩ := mai2Head_bounds hhead
      rw [length_live hrx] at hle
      obtain ⟨rx', hconsume, hlen, hlive⟩ := consume_spec hrx hle
      cases frame with
      | none =>
        refine .inl ⟨rx', by simp [hconsume], by omega, by omega, fun r hr => ⟨hr.1, ?_⟩⟩
        rw [mai2Scanner.next_skip hhead]
        exact hlive ▸ hr.2
      | some frame =>
        refine .inr ⟨(some frame, rx'), by simp [hconsume], by simp only; omega, ?_⟩
        rw [mai2Scanner.next_found hhead, hlive]
  obtain ⟨⟨frame, rx'⟩, hloop, hrx', hnext⟩ := hloop
  exact ⟨frame, rx', hloop, hrx', hnext⟩

/-- A frame from the decoder has both of its button fields or none. -/
lemma isSome_of_tryParseFrame {rx rx' : RxBuf} (h : rx.len ≤ 512) {buttons0 ioStatus : Option UInt8}
    {touch : Option (List.Vector UInt8 7)}
    (hparse : rx.tryParseFrame = .ok (some (.touch buttons0 ioStatus touch), rx')) :
    buttons0.isSome = ioStatus.isSome := by
  obtain ⟨frame, rx₁, hframe, -, hnext⟩ := tryParseFrame_spec h
  rw [hparse] at hframe
  cases hframe
  refine mai2Scanner.next_of_head (P := fun frame => ∀ b io t, frame = .touch b io t →
    b.isSome = io.isSome) (fun xs n frame hhead b io t hf => ?_) hnext _ _ _ rfl
  subst hf
  change mai2Head xs = _ at hhead
  unfold mai2Head at hhead
  split_ifs at hhead <;> cases hhead <;> rfl

/-- The loop around `try_parse_frame` decodes the bytes that count.

**Proof sketch.** A pass of the loop finds what the scanner finds next (`tryParseFrame_spec`), and
uses up bytes. -/
theorem drain_spec {rx : RxBuf} (h : rx.len ≤ 512) :
    ∃ rx', rx.drain = .ok ((mai2Scanner.decode rx.live).1, rx') ∧ rx'.len ≤ 512 ∧
      rx'.live = (mai2Scanner.decode rx.live).2 := by
  have hloop : ∃ r, rx.drain = .ok r ∧ r.2.len ≤ 512 ∧
      r.1 = [] ++ (mai2Scanner.decode rx.live).1 ∧ r.2.live = (mai2Scanner.decode rx.live).2 := by
    refine Slice.iterate_spec (I := fun s : List ParsedFrame × RxBuf => s.2.len ≤ 512)
      (Q := fun s r : List ParsedFrame × RxBuf => r.2.len ≤ 512 ∧
        r.1 = s.1 ++ (mai2Scanner.decode s.2.live).1 ∧ r.2.live = (mai2Scanner.decode s.2.live).2)
      (fun s => s.2.len) (fun s hs => ?_) h (Nat.lt_succ_self rx.len)
    obtain ⟨frame, rx', hparse, hrx', hnext⟩ := tryParseFrame_spec hs
    have hdecode := mai2Scanner.decode_next s.2.live
    rw [hnext] at hdecode
    cases frame with
    | none =>
      refine .inr ⟨(s.1, rx'), by simp [hparse], hrx', ?_, ?_⟩
      · simp [hdecode]
      · rw [hdecode]
    | some frame =>
      have hless := mai2Scanner.length_next hnext
      rw [length_live hs, length_live hrx'] at hless
      refine .inl ⟨(s.1 ++ [frame], rx'), by simp [hparse], hrx', hless, fun r hr => ?_⟩
      obtain ⟨hr512, hframes, hrest⟩ := hr
      refine ⟨hr512, ?_, ?_⟩
      · rw [hframes, hdecode]
        simp
      · rw [hrest, hdecode]
  obtain ⟨⟨frames, rx'⟩, hloop, hrx', rfl, hlive⟩ := hloop
  exact ⟨rx', hloop, hrx', hlive⟩

/-- The state between two reads: the decoder waits. -/
def Waiting (rx : RxBuf) : Prop := rx.len ≤ 512 ∧ mai2Head rx.live = none

/-- A waiting decoder has room for a byte, which is decoded behind the bytes that are left. -/
lemma push_spec {rx : RxBuf} (h : rx.Waiting) (byte : UInt8) :
    ∃ rx', rx.push byte = .ok ((mai2Scanner.decode (rx.live ++ [byte])).1, rx') ∧ rx'.Waiting ∧
      rx'.live = (mai2Scanner.decode (rx.live ++ [byte])).2 := by
  obtain ⟨h512, hhead⟩ := h
  have hlen := length_of_mai2Head_eq_none hhead
  rw [length_live h512] at hlen
  have hroom : rx.len < 512 := by omega
  have hlive : (RxBuf.mk (rx.buf.set ⟨rx.len, hroom⟩ byte) (rx.len + 1)).live = rx.live ++ [byte] :=
    Slice.take_set rx.buf hroom byte
  have hstored : (RxBuf.mk (rx.buf.set ⟨rx.len, hroom⟩ byte) (rx.len + 1)).len ≤ 512 := hroom
  obtain ⟨rx', hdrain, hrx', hrest⟩ := drain_spec hstored
  rw [hlive] at hdrain hrest
  refine ⟨rx', ?_, ⟨hrx', ?_⟩, hrest⟩
  · rw [push, if_neg (by omega), Slice.set_eq_ok _ hroom]
    exact hdrain
  · rw [hrest]
    exact mai2Scanner.head_decode _

/-- The byte loop decodes the bytes behind those that are left. -/
lemma pushAll_spec {rx : RxBuf} (h : rx.Waiting) (bs : List UInt8) :
    ∃ rx', rx.pushAll bs = .ok ((mai2Scanner.decode (rx.live ++ bs)).1, rx') ∧ rx'.Waiting ∧
      rx'.live = (mai2Scanner.decode (rx.live ++ bs)).2 := by
  induction bs generalizing rx with
  | nil =>
    have hdecode := mai2Scanner.decode_eq_none h.2
    refine ⟨rx, ?_, h, ?_⟩ <;> simp [pushAll, hdecode]
  | cons b bs ih =>
    obtain ⟨rx₁, hpush, hrx₁, hlive₁⟩ := push_spec h b
    obtain ⟨rx₂, hall, hrx₂, hlive₂⟩ := ih hrx₁
    have happend := mai2Scanner.decode_append (rx.live ++ [b]) bs
    rw [List.append_assoc, List.singleton_append, ← hlive₁] at happend
    refine ⟨rx₂, ?_, hrx₂, ?_⟩
    · rw [pushAll, hpush]
      simp only [Slice.ok_bind, hall]
      rw [happend]
      rfl
    · rw [hlive₂, happend]

end RxBuf

/-- **The reader decodes the bytes of its reads**, in whatever pieces they come: it raises no
fault, drops no byte, and waits at what is left.

**Proof sketch.** Induction on the reads. The decoder waits between them, so that the buffer has
room for each byte (`RxBuf.push_spec`), and decoding is independent of the pieces. -/
theorem readerLoop_spec {rx : RxBuf} (h : rx.Waiting) (cs : List (Chunk 256)) :
    ∃ rx', readerLoop rx (cs.map some) =
        .ok ((mai2Scanner.decode (rx.live ++ Chunk.joined cs)).1, rx') ∧ rx'.Waiting ∧
      rx'.live = (mai2Scanner.decode (rx.live ++ Chunk.joined cs)).2 := by
  induction cs generalizing rx with
  | nil =>
    have hdecode := mai2Scanner.decode_eq_none h.2
    refine ⟨rx, ?_, h, ?_⟩ <;> simp [readerLoop, hdecode]
  | cons c cs ih =>
    by_cases hnil : c.1.length = 0
    · have hc : c.1 = [] := List.length_eq_zero_iff.mp hnil
      rw [List.map_cons, readerLoop, if_pos hnil, Chunk.joined_cons, hc, List.nil_append]
      exact ih h
    · obtain ⟨rx₁, hpush, hrx₁, hlive₁⟩ := RxBuf.pushAll_spec h c.1
      obtain ⟨rx₂, hloop, hrx₂, hlive₂⟩ := ih hrx₁
      have happend := mai2Scanner.decode_append (rx.live ++ c.1) (Chunk.joined cs)
      rw [List.append_assoc, ← Chunk.joined_cons, ← hlive₁] at happend
      refine ⟨rx₂, ?_, hrx₂, ?_⟩
      · rw [List.map_cons, readerLoop, if_neg hnil, hpush]
        simp only [Slice.ok_bind, hloop]
        rw [happend]
        rfl
      · rw [hlive₂, happend]

/-! ## Streams of frames -/

/-- A piece of the stream from the board: a touch frame with buttons, a touch frame without, a
board-info frame, or a byte that starts no frame. -/
inductive StreamItem
  | touch (h b3 b4 b5 : UInt8) (t : List.Vector UInt8 7) (hh : h = 0x0A ∨ h = 0x00)
  | ascii (t : List.Vector UInt8 7)
  | boardInfo (payload : List UInt8) (ck : UInt8) (hlen : payload.length ≤ 255)
  | noise (b : UInt8) (hb : b ≠ 0xFF ∧ b ≠ 0x28)

namespace StreamItem

/-- The bytes of a piece. A touch frame with buttons ends with the sum of its other bytes. -/
def bytes : StreamItem → List UInt8
  | touch h b3 b4 b5 t _ =>
    let body := [0xFF, 0x01, h, b3, b4, b5] ++ t.toList
    body ++ [Checksum.sum body]
  | ascii t => 0x28 :: t.toList ++ [0x29]
  | boardInfo payload ck _ => [0xFF, 0xF0, UInt8.ofNat payload.length] ++ payload ++ [ck]
  | noise b _ => [b]

/-- The frame in a piece. -/
def frame : StreamItem → Option ParsedFrame
  | touch _ b3 b4 b5 t _ =>
    some (.touch (some ((b3 &&& 0x0F) ||| (b4 &&& 0xF0))) (some (b5 &&& 0x3F)) (some t))
  | ascii t => some (.touch none none (some t))
  | boardInfo payload _ _ => some (.boardInfo (boardVersion payload))
  | noise _ _ => none

/-- The touch bytes, where they are known. -/
lemma touchAt_eq (pre post : List UInt8) (t : List.Vector UInt8 7) :
    touchAt (pre ++ (t.toList ++ post)) pre.length = t := by
  have hlen : pre.length + 7 ≤ (pre ++ (t.toList ++ post)).length := by
    simp [List.length_append]
  have hcopy := copyFromSlice_touchAt hlen
  have htake : ((pre ++ (t.toList ++ post)).drop pre.length).take 7 = t.toList := by
    rw [List.drop_left, List.take_left' t.toList_length]
  rw [htake, Slice.copyFromSlice_eq_ok t.toList_length] at hcopy
  exact (Except.ok.inj hcopy).symm

/-- The scanner uses up a piece at once.

**Proof sketch.** The cases are the kinds of pieces. The checks of the decoder are decided by the
header, the length and the checksum of the piece. -/
lemma head_bytes (item : StreamItem) :
    mai2Scanner.head item.bytes = some (item.bytes.length, item.frame) := by
  change mai2Head item.bytes = _
  cases item with
  | touch h b3 b4 b5 t hh =>
    have hlen := t.toList_length
    simp only [bytes, frame]
    generalize hck : Checksum.sum ([0xFF, 0x01, h, b3, b4, b5] ++ t.toList) = ck
    have hbody : ([0xFF, 0x01, h, b3, b4, b5] ++ t.toList).length = 13 := by simp
    have hsize : ([0xFF, 0x01, h, b3, b4, b5] ++ t.toList ++ [ck]).length = 14 := by simp
    have hlast : ([0xFF, 0x01, h, b3, b4, b5] ++ t.toList ++ [ck]).getD 13 0 = ck := by
      rw [List.getD_append_right _ _ _ _ (by omega), hbody]
      rfl
    have htouch : touchAt ([0xFF, 0x01, h, b3, b4, b5] ++ t.toList ++ [ck]) 6 = t := by
      rw [List.append_assoc]
      exact touchAt_eq [0xFF, 0x01, h, b3, b4, b5] [ck] t
    rw [mai2Head, hsize, if_neg (by omega), if_pos (by rfl), if_neg (by omega),
      if_pos (by exact ⟨rfl, hh⟩), if_neg (by omega), hlast, List.take_left' hbody, if_pos hck.symm,
      htouch]
    rfl
  | ascii t =>
    have hlen := t.toList_length
    simp only [bytes, frame]
    have hbody : (0x28 :: t.toList).length = 8 := by simp
    have hsize : (0x28 :: t.toList ++ [0x29]).length = 9 := by simp
    have hlast : (0x28 :: t.toList ++ [0x29]).getD 8 0 = 0x29 := by
      rw [List.getD_append_right _ _ _ _ (by omega), hbody]
      rfl
    have htouch : touchAt (0x28 :: t.toList ++ [0x29]) 1 = t := touchAt_eq [0x28] [0x29] t
    rw [mai2Head, hsize, if_neg (by omega), if_neg (by simp), if_pos (by rfl), if_neg (by omega),
      hlast, if_pos rfl, htouch]
  | boardInfo payload ck hlen =>
    simp only [bytes, frame]
    have hn : (UInt8.ofNat payload.length).toNat = payload.length := by
      rw [UInt8.toNat_ofNat']
      omega
    have hsize : ([0xFF, 0xF0, UInt8.ofNat payload.length] ++ payload ++ [ck]).length =
        payload.length + 4 := by
      simp only [List.length_append, List.length_cons, List.length_nil]
      omega
    have hthird : ([0xFF, 0xF0, UInt8.ofNat payload.length] ++ payload ++ [ck]).getD 2 0 =
        UInt8.ofNat payload.length := rfl
    have hpayload : (([0xFF, 0xF0, UInt8.ofNat payload.length] ++ payload ++ [ck]).drop 3).take
        payload.length = payload := by
      rw [List.append_assoc]
      exact List.take_left
    rw [mai2Head, hsize, if_neg (by omega), if_pos (by rfl), if_neg (by omega), if_neg (by simp),
      if_pos (by rfl), hthird, hn, if_neg (by omega), hpayload]
    congr 2
    omega
  | noise b hb => simp [bytes, frame, mai2Head, hb.1, hb.2]

end StreamItem

/-- **The reader loses and duplicates nothing**: however the bytes of a list of pieces are cut
into reads, a reader with an empty buffer finds exactly the frames in the pieces, in order, and
its buffer is empty afterwards.

**Proof sketch.** The reader decodes the concatenation (`readerLoop_spec`), and the scanner uses
up each piece at once, whatever follows it. -/
theorem readerLoop_items (buf : List.Vector UInt8 512) (items : List StreamItem)
    (cs : List (Chunk 256)) (hcs : Chunk.joined cs = items.flatMap StreamItem.bytes) :
    ∃ rx', readerLoop ⟨buf, 0⟩ (cs.map some) = .ok (items.filterMap StreamItem.frame, rx') ∧
      rx'.len = 0 := by
  have hdecode := mai2Scanner.decode_flatMap StreamItem.bytes StreamItem.frame items
    fun item _ => item.head_bytes
  have hempty : (RxBuf.mk buf 0).Waiting := ⟨Nat.zero_le _, rfl⟩
  obtain ⟨rx', hloop, hwaiting, hlive⟩ := readerLoop_spec hempty cs
  rw [show (RxBuf.mk buf 0).live = [] from rfl, List.nil_append, hcs, hdecode] at hloop hlive
  refine ⟨rx', hloop, ?_⟩
  rw [← RxBuf.length_live hwaiting.1, hlive]
  rfl

/-- A touch frame without buttons between two bytes of noise, in three reads. -/
theorem readerLoop_items_split :
    ∃ rx', readerLoop ⟨List.Vector.replicate 512 0, 0⟩ (List.map some
        [⟨[0x00, 0x28, 1, 2], by decide⟩, ⟨[], by decide⟩,
          ⟨[3, 4, 5, 6, 7, 0x29, 0x01], by decide⟩]) =
      .ok ([.touch none none (some ⟨[1, 2, 3, 4, 5, 6, 7], rfl⟩)], rx') ∧ rx'.len = 0 :=
  readerLoop_items _ [.noise 0x00 (by decide), .ascii ⟨[1, 2, 3, 4, 5, 6, 7], rfl⟩,
    .noise 0x01 (by decide)] _ (by decide)

end Affine
