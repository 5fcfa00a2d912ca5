import Affine.Lib.Checksum
import Affine.Lib.Slice
import Affine.Lib.Stuffing
import Mathlib.Data.List.GetD

set_option relaxedAutoImplicit false
set_option autoImplicit false

/-!
# The slider protocol

The serial protocol of the CHUNITHM and Mercury boards (`affine-core/src/slider.rs`): the
encoder `send_slider_frame` and the incremental decoder `SliderParser`.

The decoder is connected to the general receiver of stuffed frames: `SliderParser.push`
computes, without a fault, a step of `sliderDeframer`.

## Main definitions

* `Affine.sendSliderFrame` — the encoder.
* `Affine.SliderParser`, `Affine.SliderParser.push` — the decoder.
* `Affine.SliderParser.pushAll` — the decoder on a byte stream.
* `Affine.sliderDeframer`, `Affine.SliderParser.abs` — the decoder as a receiver of stuffed
  frames.

## Main results

* `Affine.SliderParser.push_spec`, `Affine.SliderParser.pushAll_spec` — the decoder never
  leaves its buffer and refines `sliderDeframer`.
* `Affine.sliderDeframer_delivers_iff` — the receiver delivers exactly the frames that are as
  long as they announce.
-/

namespace Affine

open Slice (Exec)

/-! ## The source -/

def sliderCmdAutoScan : UInt8 := 0x01
def sliderCmdSetLed : UInt8 := 0x02
def sliderCmdAutoScanStart : UInt8 := 0x03
def sliderCmdAutoScanStop : UInt8 := 0x04
def sliderCmdAutoAir : UInt8 := 0x05
def sliderCmdAutoAirStart : UInt8 := 0x06
def sliderCmdSetAirLed : UInt8 := 0x07

/-- `send_slider_frame`: the frame is handed to the writer, whose result is returned. The
frame itself is `sendSliderFrame id cmd payload`. -/
def sendSliderFrame {α : Type} (writer : List UInt8 → α) (cmd : UInt8) (payload : List UInt8) :
    α :=
  let frame := [0xFF, cmd, UInt8.ofNat payload.length] ++ payload
  let checksum := Checksum.negSum frame
  writer (frame ++ [checksum])

/-- A decoded packet. -/
structure SliderPacket where
  cmd : UInt8
  payload : List UInt8
  deriving DecidableEq, Repr

/-- The state of the decoder. -/
structure SliderParser where
  buf : List.Vector UInt8 128
  len : ℕ
  escaped : Bool
  active : Bool

namespace SliderParser

/-- `SliderParser::default`. -/
def default : SliderParser where
  buf := List.Vector.replicate 128 0
  len := 0
  escaped := false
  active := false

/-- `SliderParser::push`. -/
def push (p : SliderParser) (byte : UInt8) : Exec (Option SliderPacket × SliderParser) :=
  if byte = 0xFF then do
    let buf ← Slice.set p.buf 0 byte
    return (none, { buf := buf, len := 1, escaped := false, active := true })
  else if ¬ p.active then
    return (none, p)
  else if byte = 0xFD then
    return (none, { p with escaped := true })
  else
    let decoded := if p.escaped then byte + 1 else byte
    if 128 ≤ p.len then
      return (none, { p with escaped := false, active := false, len := 0 })
    else do
      let buf ← Slice.set p.buf p.len decoded
      let len := p.len + 1
      if len < 4 then
        return (none, { buf := buf, len := len, escaped := false, active := p.active })
      else do
        let size := (← Slice.get buf.toList 2).toNat
        let total := size + 4
        if len < total then
          return (none, { buf := buf, len := len, escaped := false, active := p.active })
        else do
          let cmd ← Slice.get buf.toList 1
          let payload ← Slice.range buf.toList 3 (3 + size)
          return (some { cmd := cmd, payload := payload },
            { buf := buf, len := 0, escaped := false, active := false })

/-- The decoder on a byte stream: the answer to each byte, and the final state. -/
def pushAll : SliderParser → List UInt8 → Exec (List (Option SliderPacket) × SliderParser)
  | p, [] => .ok ([], p)
  | p, b :: bs => do
    let (o, p') ← p.push b
    let (os, p'') ← pushAll p' bs
    return (o :: os, p'')

/-- A state the decoder can be in after some byte stream. -/
def Reachable (p : SliderParser) : Prop := ∃ bs os, pushAll default bs = .ok (os, p)

end SliderParser

/-! ## The decoder as a receiver of stuffed frames -/

/-- The stuffing of slider frames: `FF` starts a frame, and behind `FD` a byte is sent less
one. -/
def sliderCode : Stuffing.Code UInt8 where
  sync := 0xFF
  esc := 0xFD
  down b := b - 1
  up b := b + 1
  up_down := Stuffing.byte_up_down
  sync_ne_esc := by decide
  down_ne_sync := by rintro b (rfl | rfl) <;> decide
  down_ne_esc := by rintro b (rfl | rfl) <;> decide

/-- The packet in the bytes of a finished frame. -/
def sliderPacketOf (bytes : List UInt8) : SliderPacket where
  cmd := bytes.getD 1 0
  payload := (bytes.drop 3).take (bytes.getD 2 0).toNat

/-- The receiver that `SliderParser` refines: a frame holds at most `128` bytes, its leading
`FF` included, and ends with the byte that makes it four longer than its third byte says. -/
def sliderDeframer : Stuffing.Deframer UInt8 SliderPacket where
  toCode := sliderCode
  start := [0xFF]
  accept acc v :=
    let bytes := acc ++ [v]
    if 128 ≤ acc.length then .drop
    else if bytes.length < 4 then .more
    else if bytes.length < (bytes.getD 2 0).toNat + 4 then .more
    else .emit (sliderPacketOf bytes)

/-- The bytes of a frame, its leading `FF` and its checksum included, are as many as its
third byte announces, and fit the buffer. -/
def SliderComplete (bytes : List UInt8) : Prop :=
  bytes.length = (bytes.getD 2 0).toNat + 4 ∧ bytes.length ≤ 128

instance (bytes : List UInt8) : Decidable (SliderComplete bytes) :=
  inferInstanceAs (Decidable (_ ∧ _))

/-- The treatment of a byte by the receiver, in terms of the bytes collected with it. -/
lemma sliderDeframer_accept (xs : List UInt8) (v : UInt8) :
    sliderDeframer.accept (sliderDeframer.start ++ xs) v =
      let bytes := 0xFF :: (xs ++ [v])
      if 128 < bytes.length then .drop
      else if bytes.length < 4 then .more
      else if bytes.length < (bytes.getD 2 0).toNat + 4 then .more
      else .emit (sliderPacketOf bytes) := by
  have hfull : 128 ≤ ([0xFF] ++ xs).length ↔ 128 < (0xFF :: (xs ++ [v])).length := by
    simp only [List.length_append, List.length_cons, List.length_nil]
    omega
  exact if_congr hfull rfl rfl

/-- **What the receiver delivers**: it collects `xs` behind the leading `FF` and delivers a
packet at `v` exactly when these bytes are a complete frame, and the packet is the one in them.

**Proof sketch.** With `xs` collected and `v` delivered, the frame is at least as long as its
third byte announces; if it has more than four bytes then the byte before `v` was collected, so
the frame is not longer either. Conversely, every proper prefix of a complete frame has fewer
than four bytes, or has the same third byte and is shorter than announced. -/
theorem sliderDeframer_delivers_iff (xs : List UInt8) (v : UInt8) (packet : SliderPacket) :
    sliderDeframer.Absorbs sliderDeframer.start xs ∧
        sliderDeframer.accept (sliderDeframer.start ++ xs) v = .emit packet ↔
      SliderComplete (0xFF :: (xs ++ [v])) ∧ sliderPacketOf (0xFF :: (xs ++ [v])) = packet := by
  have hlen : (0xFF :: (xs ++ [v])).length = xs.length + 2 := by simp
  -- the third byte is already among the first bytes of the frame, once there are three
  have hthird : ∀ pre w post, xs ++ [v] = pre ++ w :: post → 2 ≤ pre.length + 1 →
      (0xFF :: (pre ++ [w])).getD 2 0 = (0xFF :: (xs ++ [v])).getD 2 0 := by
    intro pre w post he hpre
    rw [he, show pre ++ w :: post = (pre ++ [w]) ++ post by simp, List.getD_cons_succ,
      List.getD_cons_succ, List.getD_append (pre ++ [w]) post 0 1 (by simp; omega)]
  rw [sliderDeframer_accept]
  constructor
  · rintro ⟨ha, hv⟩
    simp only [hlen] at hv
    split_ifs at hv with h128 h4 hsize
    refine ⟨⟨?_, by omega⟩, by simpa using hv⟩
    rcases List.eq_nil_or_concat' xs with rfl | ⟨init, w, rfl⟩
    · simp at h4
    · have hw := (sliderDeframer.absorbs_iff _ _).mp ha init w [] rfl
      have hsame := hthird init w [v] (by simp)
      rw [sliderDeframer_accept] at hw
      simp only [List.length_append, List.length_cons, List.length_nil] at hw h4 h128 hsize ⊢
      split_ifs at hw with _ h4' hsize'
      · omega
      · rw [hsame (by omega)] at hsize'
        omega
  · rintro ⟨⟨hsize, h128⟩, rfl⟩
    rw [hlen] at hsize h128
    refine ⟨(sliderDeframer.absorbs_iff _ _).mpr fun pre w post he => ?_, ?_⟩
    · have hpre : pre.length + post.length + 1 = xs.length := by simp [he]; omega
      rw [sliderDeframer_accept]
      simp only [List.length_cons, List.length_append, List.length_nil]
      rw [if_neg (by omega)]
      by_cases h4 : pre.length + 2 < 4
      · rw [if_pos (by omega)]
      · rw [if_neg (by omega), hthird pre w (post ++ [v]) (by simp [he]) (by omega),
          if_pos (by omega)]
    · simp only [hlen]
      rw [if_neg (by omega), if_neg (by omega), if_neg (by omega)]

namespace SliderParser

/-- The state of the receiver that a state of the decoder stands for. -/
def abs (p : SliderParser) : Stuffing.Deframer.State UInt8 :=
  if p.active then some (p.buf.toList.take p.len, p.escaped) else none

/-- While the decoder is active, the receiver has collected the bytes stored so far. -/
lemma abs_active {buf : List.Vector UInt8 128} {len : ℕ} {escaped : Bool} :
    abs ⟨buf, len, escaped, true⟩ = some (buf.toList.take len, escaped) := rfl

/-- An inactive decoder stands for a receiver in front of the first frame. -/
lemma abs_inactive {buf : List.Vector UInt8 128} {len : ℕ} {escaped : Bool} :
    abs ⟨buf, len, escaped, false⟩ = none := rfl

/-- **The decoder refines the receiver**: with at most `128` bytes stored, pushing a byte
raises no fault, keeps that bound, and is a step of the receiver with the same answer.

**Proof sketch.** The branches of `push` are those of the receiver's step. The stored bytes of
the new state are the old ones and the decoded byte (`Slice.take_set`), so the reads at `1`, `2` and
the payload range are reads of the collected bytes. -/
theorem push_spec {p : SliderParser} (hp : p.len ≤ 128) (byte : UInt8) :
    ∃ o p', p.push byte = .ok (o, p') ∧ p'.len ≤ 128 ∧
      sliderDeframer.step p.abs byte = (p'.abs, o) := by
  obtain ⟨buf, len, escaped, active⟩ := p
  simp only at hp
  by_cases hsync : byte = 0xFF
  · subst hsync
    refine ⟨none, ⟨buf.set ⟨0, by omega⟩ 0xFF, 1, false, true⟩, ?_, by simp, ?_⟩
    · rw [push, if_pos rfl, Slice.set_eq_ok buf (by omega)]
      rfl
    · rw [abs_active, Slice.take_set buf (by omega)]
      exact sliderDeframer.step_sync _
  cases active with
  | false =>
    refine ⟨none, ⟨buf, len, escaped, false⟩, by simp [push, hsync], hp, ?_⟩
    exact sliderDeframer.step_none hsync
  | true =>
    by_cases hesc : byte = 0xFD
    · subst hesc
      refine ⟨none, ⟨buf, len, true, true⟩, by simp [push], hp, ?_⟩
      exact sliderDeframer.step_esc _ _
    have hlen : (buf.toList.take len).length = len := by simp; omega
    rw [abs_active, sliderDeframer.step_value _ _ hsync hesc]
    simp only [push, if_neg hsync, if_neg hesc, not_true_eq_false, if_false]
    generalize hv : (if escaped then byte + 1 else byte) = v
    have hv' : (if escaped then sliderDeframer.up byte else byte) = v := hv
    rw [hv']
    by_cases hfull : 128 ≤ len
    · refine ⟨none, ⟨buf, 0, false, false⟩, by simp [hfull], by simp, ?_⟩
      exact sliderDeframer.store_drop (by simp [sliderDeframer, hlen, hfull])
    -- the decoded byte is stored behind the others
    have hlt : len < 128 := by omega
    have htake := Slice.take_set buf hlt v
    rw [if_neg hfull, Slice.set_eq_ok buf hlt]
    simp only [Slice.ok_bind]
    generalize buf.set ⟨len, hlt⟩ v = buf' at htake ⊢
    have haccept : sliderDeframer.accept (buf.toList.take len) v =
        if len + 1 < 4 then .more
        else if len + 1 < ((buf.toList.take len ++ [v]).getD 2 0).toNat + 4 then .more
        else .emit (sliderPacketOf (buf.toList.take len ++ [v])) := by
      simp [sliderDeframer, hlen, hfull]
    by_cases h4 : len + 1 < 4
    · refine ⟨none, ⟨buf', len + 1, false, true⟩, by rw [if_pos h4]; rfl, by simp; omega, ?_⟩
      rw [abs_active, htake]
      exact sliderDeframer.store_more (by rw [haccept, if_pos h4])
    rw [if_neg h4, Slice.get_eq_getD_take (k := len + 1) (by omega) (by simp; omega) 0, htake,
      Slice.get_eq_getD_take (k := len + 1) (by omega) (by simp; omega) 0, htake]
    simp only [Slice.ok_bind]
    by_cases htotal : len + 1 < ((buf.toList.take len ++ [v]).getD 2 0).toNat + 4
    · refine ⟨none, ⟨buf', len + 1, false, true⟩, by rw [if_pos htotal]; rfl, by simp; omega, ?_⟩
      rw [abs_active, htake]
      exact sliderDeframer.store_more (by rw [haccept, if_neg h4, if_pos htotal])
    rw [if_neg htotal, Slice.range_eq_take (k := len + 1) (by omega) (by omega) (by simp; omega),
      htake]
    refine ⟨_, ⟨buf', 0, false, false⟩, rfl, by simp, ?_⟩
    rw [sliderDeframer.store_emit (by rw [haccept, if_neg h4, if_neg htotal])]
    simp [abs_inactive, sliderPacketOf]

/-- **The decoder on a stream refines the receiver on that stream.**

**Proof sketch.** Induction on the stream, with `push_spec` for the first byte. -/
theorem pushAll_spec {p : SliderParser} (hp : p.len ≤ 128) (bs : List UInt8) :
    ∃ os p', pushAll p bs = .ok (os, p') ∧ p'.len ≤ 128 ∧
      Mealy.run sliderDeframer.step p.abs bs = (p'.abs, os) := by
  induction bs generalizing p with
  | nil => exact ⟨[], p, rfl, hp, rfl⟩
  | cons b bs ih =>
    obtain ⟨o, p₁, hpush, hp₁, hstep⟩ := push_spec hp b
    obtain ⟨os, p₂, hall, hp₂, hrun⟩ := ih hp₁
    refine ⟨o :: os, p₂, ?_, hp₂, ?_⟩
    · rw [pushAll, hpush]
      simp only [Slice.ok_bind, hall]
      rfl
    · rw [Mealy.run_cons, hstep, hrun]

/-- The decoder on a stream is determined by the receiver's run. -/
lemma pushAll_eq_ok {p p' : SliderParser} (hp : p.len ≤ 128) {bs : List UInt8}
    {os : List (Option SliderPacket)} (h : pushAll p bs = .ok (os, p')) :
    p'.len ≤ 128 ∧ Mealy.run sliderDeframer.step p.abs bs = (p'.abs, os) := by
  obtain ⟨os', p'', h', hp'', hrun⟩ := pushAll_spec hp bs
  rw [h] at h'
  cases h'
  exact ⟨hp'', hrun⟩

/-- The decoder starts with an empty buffer. -/
lemma len_default : default.len ≤ 128 := by simp [default]

/-- The decoder starts in front of the first frame. -/
lemma abs_default : default.abs = none := rfl

/-- The bound on the stored bytes holds in every reachable state. -/
lemma Reachable.len_le {p : SliderParser} (hp : p.Reachable) : p.len ≤ 128 := by
  obtain ⟨bs, os, h⟩ := hp
  exact (pushAll_eq_ok len_default h).1

end SliderParser

end Affine
