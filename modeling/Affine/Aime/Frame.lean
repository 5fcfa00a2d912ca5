import Affine.Core.Port
import Affine.Lib.Checksum
import Affine.Lib.Slice
import Affine.Lib.Stuffing
import Mathlib.Data.List.GetD

set_option relaxedAutoImplicit false
set_option autoImplicit false

/-!
# The frames of the card reader

The codec of the Aime card reader (`affine-aime/src/lib.rs`): `encode_frame`, and `read_frame`,
which reads the port until it has a frame.

The bytes of a frame are those of a stuffed frame, so the byte loop of `read_frame` refines the
receiver `aimeDeframer` up to its first output (`FrameReader.bytes_spec`), and the loop over
the reads refines that receiver on the concatenation of what was read (`readLoop_spec`).

## Main definitions

* `Affine.encodeFrame`, `Affine.readFrame` — the codec.
* `Affine.FrameReader` — the local variables of `read_frame`.
* `Affine.ReadResult` — how a call of `read_frame` ends, given what the port returns.
* `Affine.aimeDeframer` — the decoder as a receiver of stuffed frames.

## Main results

* `Affine.readLoop_spec` — the decoder raises no fault and does not depend on how the bytes are
  cut into reads.
* `Affine.readFrame_encodeFrame` — the decoder recovers every encoded frame.
-/

namespace Affine

open Slice (Exec Flow)

/-! ## The source -/

/-- `encode_frame`. -/
def encodeFrame (seq cmd : UInt8) (payload : List UInt8) : List UInt8 :=
  let body := [UInt8.ofNat (5 + payload.length), 0, seq, cmd, UInt8.ofNat payload.length] ++ payload
  let checksum := Checksum.sum body
  0xE0 :: (body ++ [checksum]).flatMap fun byte =>
    if byte = 0xD0 ∨ byte = 0xE0 then [0xD0, byte - 1] else [byte]

/-- The local variables of `read_frame`. -/
structure FrameReader where
  started : Bool
  escaped : Bool
  decoded : List UInt8
  deriving DecidableEq, Repr

namespace FrameReader

/-- The local variables before the first read. -/
def init : FrameReader where
  started := false
  escaped := false
  decoded := []

/-- The body of the inner loop of `read_frame`: the next state, or what `read_frame` returns. -/
def byte (r : FrameReader) (byte : UInt8) : Exec (Flow FrameReader (Option (List UInt8))) :=
  if ¬ r.started then
    if byte = 0xE0 then return .again { r with started := true, decoded := [] }
    else return .again r
  else if byte = 0xE0 then
    return .again { r with decoded := [], escaped := false }
  else if byte = 0xD0 then
    return .again { r with escaped := true }
  else
    let value := if r.escaped then byte + 1 else byte
    let decoded := r.decoded ++ [value]
    let r' := { r with escaped := false, decoded := decoded }
    if 2 ≤ decoded.length then do
      let expected := (← Slice.get decoded 0).toNat + 1
      if decoded.length = expected then do
        let checksum := Checksum.sum (← Slice.range decoded 0 (decoded.length - 1))
        if checksum ≠ (← Slice.get decoded (decoded.length - 1)) then return .ret none
        else return .ret (some decoded.dropLast)
      else return .again r'
    else return .again r'

/-- The inner loop of `read_frame`. A call that returns drops the bytes behind the last one it
looked at. -/
def bytes : FrameReader → List UInt8 →
    Exec (Flow FrameReader (Option (List UInt8) × List UInt8))
  | r, [] => return .again r
  | r, b :: bs => do
    match ← r.byte b with
    | .again r' => r'.bytes bs
    | .ret frame => return .ret (frame, bs)

end FrameReader

/-- How a call of `read_frame` ends when the port returns these reads: it is still waiting for
more, or it has returned and dropped some bytes of the last read. -/
inductive ReadResult
  | waiting (r : FrameReader)
  | returned (frame : Option (List UInt8)) (dropped : List UInt8) (rest : List (PortRead 64))

/-- The outer loop of `read_frame`. -/
def readLoop : FrameReader → List (PortRead 64) → Exec ReadResult
  | r, [] => return .waiting r
  | _, none :: rest => return .returned none [] rest
  | r, some buf :: rest =>
    if buf.1.length = 0 then readLoop r rest
    else do
      match ← r.bytes buf with
      | .again r' => readLoop r' rest
      | .ret (frame, dropped) => return .returned frame dropped rest

/-- `read_frame`. -/
def readFrame (reads : List (PortRead 64)) : Exec ReadResult := readLoop .init reads

/-! ## The decoder as a receiver of stuffed frames -/

/-- The stuffing of the reader's frames: `E0` starts a frame, and behind `D0` a byte is sent
less one. -/
def aimeCode : Stuffing.Code UInt8 where
  sync := 0xE0
  esc := 0xD0
  down b := b - 1
  up b := b + 1
  up_down := Stuffing.byte_up_down
  sync_ne_esc := by decide
  down_ne_sync := by rintro b (rfl | rfl) <;> decide
  down_ne_esc := by rintro b (rfl | rfl) <;> decide

/-- The bytes of a frame, its checksum included, are one more than its first byte announces. -/
def AimeComplete (decoded : List UInt8) : Prop :=
  2 ≤ decoded.length ∧ decoded.length = (decoded.getD 0 0).toNat + 1

instance (decoded : List UInt8) : Decidable (AimeComplete decoded) :=
  inferInstanceAs (Decidable (_ ∧ _))

/-- The receiver that `read_frame` refines. A complete frame whose checksum is wrong ends the
call too, without a result. -/
def aimeDeframer : Stuffing.Deframer UInt8 (Option (List UInt8)) where
  toCode := aimeCode
  start := []
  accept acc v :=
    if AimeComplete (acc ++ [v]) then .emit (if Checksum.sum acc = v then some acc else none)
    else .more

/-- **What the receiver delivers**: it collects `xs` and delivers at `v` exactly when these
bytes are complete; if `v` is their checksum, it delivers `xs`.

**Proof sketch.** Every prefix of `xs` has the same first byte as the complete frame and is
shorter, so it is not complete. -/
theorem aimeDeframer_delivers_iff (xs : List UInt8) (v : UInt8) (frame : Option (List UInt8)) :
    aimeDeframer.Absorbs aimeDeframer.start xs ∧
        aimeDeframer.accept (aimeDeframer.start ++ xs) v = .emit frame ↔
      AimeComplete (xs ++ [v]) ∧ frame = if Checksum.sum xs = v then some xs else none := by
  have haccept : ∀ pre w, aimeDeframer.accept (aimeDeframer.start ++ pre) w =
      if AimeComplete (pre ++ [w]) then
        .emit (if Checksum.sum pre = w then some pre else none) else .more := fun _ _ => rfl
  constructor
  · rintro ⟨-, hv⟩
    rw [haccept] at hv
    by_cases hcomplete : AimeComplete (xs ++ [v])
    · rw [if_pos hcomplete] at hv
      exact ⟨hcomplete, (Stuffing.Verdict.emit.inj hv).symm⟩
    · rw [if_neg hcomplete] at hv
      cases hv
  · rintro ⟨hcomplete, rfl⟩
    refine ⟨(aimeDeframer.absorbs_iff _ _).mpr fun pre w post he => ?_, ?_⟩
    · rw [haccept, if_neg]
      rintro ⟨htwo, hsize⟩
      obtain ⟨-, hsize'⟩ := hcomplete
      rcases pre with _ | ⟨b, pre⟩
      · exact absurd htwo (by simp)
      · rw [he] at hsize'
        simp only [List.cons_append, List.getD_cons_zero, List.length_cons, List.length_append,
          List.length_nil] at hsize hsize'
        omega
    · rw [haccept, if_pos hcomplete]

namespace FrameReader

/-- The state of the receiver that a state of `read_frame` stands for. -/
def abs (r : FrameReader) : Stuffing.Deframer.State UInt8 :=
  if r.started then some (r.decoded, r.escaped) else none

/-- No escape is pending before the first `E0`. -/
def Sound (r : FrameReader) : Prop := r.started = false → r.escaped = false

/-- No escape is pending at the start. -/
lemma init_sound : init.Sound := fun _ => rfl

/-- The byte loop's body raises no fault and is a step of the receiver.

**Proof sketch.** The branches are those of the receiver's step. When a byte is stored, the
slice accesses are reads of the first and the last of at least two bytes. -/
theorem byte_spec {r : FrameReader} (hr : r.Sound) (b : UInt8) :
    (∃ r', r.byte b = .ok (.again r') ∧ r'.Sound ∧ aimeDeframer.step r.abs b = (r'.abs, none)) ∨
      ∃ frame s, r.byte b = .ok (.ret frame) ∧ aimeDeframer.step r.abs b = (s, some frame) := by
  obtain ⟨started, escaped, decoded⟩ := r
  by_cases hsync : b = 0xE0
  · subst hsync
    cases started with
    | false =>
      obtain rfl : escaped = false := hr rfl
      exact .inl ⟨_, rfl, by simp [Sound], aimeDeframer.step_sync _⟩
    | true => exact .inl ⟨_, rfl, by simp [Sound], aimeDeframer.step_sync _⟩
  cases started with
  | false => exact .inl ⟨_, by simp [byte, hsync], hr, aimeDeframer.step_none hsync⟩
  | true =>
    by_cases hesc : b = 0xD0
    · subst hesc
      exact .inl ⟨_, rfl, by simp [Sound], aimeDeframer.step_esc _ _⟩
    have hstep := aimeDeframer.step_value decoded escaped hsync hesc
    generalize hv : (if escaped then b + 1 else b) = v
    rw [show (if escaped then aimeDeframer.up b else b) = v from hv] at hstep
    have hlen : (decoded ++ [v]).length = decoded.length + 1 := by simp
    have hfirst : 2 ≤ (decoded ++ [v]).length →
        Slice.get (decoded ++ [v]) 0 = .ok ((decoded ++ [v]).getD 0 0) :=
      fun h => Slice.get_eq_getD (by omega) 0
    by_cases hcomplete : AimeComplete (decoded ++ [v])
    · obtain ⟨htwo, hsize⟩ := hcomplete
      have hinit : Slice.range (decoded ++ [v]) 0 ((decoded ++ [v]).length - 1) = .ok decoded := by
        rw [Slice.range_eq_ok (by omega) (by omega)]
        simp
      have hlast : Slice.get (decoded ++ [v]) ((decoded ++ [v]).length - 1) = .ok v :=
        Slice.get_eq_ok (by simp)
      have haccept : aimeDeframer.accept decoded v =
          .emit (if Checksum.sum decoded = v then some decoded else none) := if_pos ⟨htwo, hsize⟩
      refine .inr ⟨_, _, ?_, hstep.trans (aimeDeframer.store_emit haccept)⟩
      simp only [byte, hsync, hesc, hv, not_true_eq_false, if_false, if_pos htwo, hfirst htwo,
        Slice.ok_bind, if_pos hsize, hinit, hlast]
      by_cases hck : Checksum.sum decoded = v <;> simp [hck]
    · refine .inl ⟨⟨true, false, decoded ++ [v]⟩, ?_, by simp [Sound], ?_⟩
      · simp only [byte, hsync, hesc, hv, not_true_eq_false, if_false]
        by_cases htwo : 2 ≤ (decoded ++ [v]).length
        · rw [if_pos htwo, hfirst htwo, Slice.ok_bind, if_neg fun h => hcomplete ⟨htwo, h⟩]
          rfl
        · rw [if_neg htwo]
          rfl
      · exact hstep.trans (aimeDeframer.store_more (if_neg hcomplete))

/-- The byte loop refines the receiver up to its first output.

**Proof sketch.** Induction on the bytes; each of them is a step of the receiver (`byte_spec`). -/
theorem bytes_spec {r : FrameReader} (hr : r.Sound) (bs : List UInt8) :
    (∃ r', r.bytes bs = .ok (.again r') ∧ r'.Sound ∧
      Mealy.seek aimeDeframer.step r.abs bs = .inl r'.abs) ∨
      ∃ frame rest, r.bytes bs = .ok (.ret (frame, rest)) ∧
        Mealy.seek aimeDeframer.step r.abs bs = .inr (frame, rest) := by
  induction bs generalizing r with
  | nil => exact .inl ⟨r, rfl, hr, rfl⟩
  | cons b bs ih =>
    rcases byte_spec hr b with ⟨r₁, hbyte, hr₁, hstep⟩ | ⟨frame, s, hbyte, hstep⟩
    · have hseek : Mealy.seek aimeDeframer.step r.abs (b :: bs) =
          Mealy.seek aimeDeframer.step r₁.abs bs := by
        rw [Mealy.seek_cons_none (by rw [hstep]), hstep]
      have hbytes : r.bytes (b :: bs) = r₁.bytes bs := by
        rw [bytes, hbyte]
        rfl
      rw [hseek, hbytes]
      exact ih hr₁
    · refine .inr ⟨frame, bs, ?_, Mealy.seek_cons_some (by rw [hstep]) bs⟩
      rw [bytes, hbyte]
      rfl

end FrameReader

/-- **The loop over the reads refines the receiver on the bytes of all reads**: as long as the
port returns no error, it does not matter how they are cut.

**Proof sketch.** Induction on the reads: an empty read changes nothing, and a read in which
nothing is found leaves the receiver where the byte loop leaves it (`FrameReader.bytes_spec`). -/
theorem readLoop_spec {r : FrameReader} (hr : r.Sound) (cs : List (Chunk 64)) :
    (∃ r', r'.Sound ∧ Mealy.seek aimeDeframer.step r.abs (Chunk.joined cs) = .inl r'.abs ∧
      ∀ tail, readLoop r (cs.map some ++ tail) = readLoop r' tail) ∨
      ∃ frame dropped rest,
        Mealy.seek aimeDeframer.step r.abs (Chunk.joined cs) =
          .inr (frame, dropped ++ Chunk.joined rest) ∧
        ∀ tail, readLoop r (cs.map some ++ tail) =
          .ok (.returned frame dropped (rest.map some ++ tail)) := by
  induction cs generalizing r with
  | nil => exact .inl ⟨r, hr, rfl, fun _ => rfl⟩
  | cons c cs ih =>
    rw [Chunk.joined_cons, Mealy.seek_append]
    rcases FrameReader.bytes_spec hr c.1 with
      ⟨r₁, hbytes, hr₁, hseek⟩ | ⟨frame, left, hbytes, hseek⟩
    · have hloop : ∀ tail, readLoop r ((c :: cs).map some ++ tail) =
          readLoop r₁ (cs.map some ++ tail) := by
        intro tail
        by_cases hnil : c.1.length = 0
        · have hc : c.1 = [] := List.length_eq_zero_iff.mp hnil
          rw [hc] at hbytes
          cases hbytes
          simp [readLoop, hnil]
        · simp [readLoop, hnil, hbytes]
      simp only [hseek, hloop]
      exact ih hr₁
    · refine .inr ⟨frame, left, cs, by simp only [hseek], fun tail => ?_⟩
      have hnil : ¬ c.1.length = 0 := by
        intro hnil
        rw [List.length_eq_zero_iff.mp hnil] at hbytes
        cases hbytes
      simp [readLoop, hnil, hbytes]

/-! ## What a call returns -/

/-- The bytes that the port returns before its first error. -/
def answerBytes : List (PortRead 64) → List UInt8
  | some c :: rest => c.1 ++ answerBytes rest
  | _ => []

/-- The last of these bytes completes a frame: it is not an escape byte, and with it the
unescaped bytes behind the last `E0` are one more than the first of them announces. -/
def FrameEnd (bs : List UInt8) : Prop :=
  0xE0 ∈ bs ∧ bs.getLast? ≠ some 0xD0 ∧ AimeComplete (aimeCode.received bs)

/-- The first frame that is completed in these bytes has a correct checksum, and `frame` is what
it holds before the checksum. -/
def FirstFrame (bs frame : List UInt8) : Prop :=
  ∃ t, t <+: bs ∧ FrameEnd t ∧
    (∀ pre b, pre ++ [b] <+: t → pre ++ [b] ≠ t → ¬ FrameEnd (pre ++ [b])) ∧
    aimeCode.received t = frame ++ [Checksum.sum frame]

/-- The receiver delivers at a byte that completes a frame. -/
lemma aimeDeframer_emit_iff (s : List UInt8) (b : UInt8) (frame : Option (List UInt8)) :
    (aimeDeframer.step (Mealy.run aimeDeframer.step none s).1 b).2 = some frame ↔
      FrameEnd (s ++ [b]) ∧ ∃ xs v, aimeCode.received (s ++ [b]) = xs ++ [v] ∧
        frame = if Checksum.sum xs = v then some xs else none := by
  rw [aimeDeframer.emit_iff, FrameEnd, List.getLast?_concat]
  constructor
  · rintro ⟨hsync, hesc, xs, v, hxs, hdelivers⟩
    obtain ⟨hcomplete, hframe⟩ := (aimeDeframer_delivers_iff xs v frame).mp hdelivers
    exact ⟨⟨hsync, fun he => hesc (Option.some.inj he), hxs ▸ hcomplete⟩, xs, v, hxs, hframe⟩
  · rintro ⟨⟨hsync, hesc, hcomplete⟩, xs, v, hxs, hframe⟩
    rw [hxs] at hcomplete
    exact ⟨hsync, fun he => hesc (congrArg some he), xs, v, hxs,
      (aimeDeframer_delivers_iff xs v frame).mpr ⟨hcomplete, hframe⟩⟩

/-- The receiver emits nothing exactly if the byte ends no frame. -/
lemma aimeDeframer_emit_none_iff (s : List UInt8) (b : UInt8) :
    (aimeDeframer.step (Mealy.run aimeDeframer.step none s).1 b).2 = none ↔
      ¬ FrameEnd (s ++ [b]) := by
  constructor
  · intro hnone hend
    rcases List.eq_nil_or_concat' (aimeCode.received (s ++ [b])) with hnil | ⟨xs, v, hxs⟩
    · have hcomplete := hend.2.2
      rw [hnil] at hcomplete
      exact absurd hcomplete (by decide)
    · have := (aimeDeframer_emit_iff s b _).mpr ⟨hend, xs, v, hxs, rfl⟩
      rw [hnone] at this
      cases this
  · intro hend
    cases h : (aimeDeframer.step (Mealy.run aimeDeframer.step none s).1 b).2 with
    | none => rfl
    | some frame => exact absurd ((aimeDeframer_emit_iff s b frame).mp h).1 hend

/-- The receiver finds the first frame of a byte stream. -/
lemma seek_eq_firstFrame (bs frame : List UInt8) :
    (∃ left, Mealy.seek aimeDeframer.step none bs = .inr (some frame, left)) ↔
      FirstFrame bs frame := by
  simp only [Mealy.seek_eq_inr_iff, Mealy.seek_eq_inl_iff, aimeDeframer_emit_none_iff,
    aimeDeframer_emit_iff]
  constructor
  · rintro ⟨left, pre, b, rfl, hnone, hend, xs, v, hxs, hframe⟩
    have hck : Checksum.sum xs = v := by
      by_contra hck
      rw [if_neg hck] at hframe
      cases hframe
    rw [if_pos hck] at hframe
    obtain rfl : frame = xs := Option.some.inj hframe
    refine ⟨pre ++ [b], ⟨left, by simp⟩, hend, fun pre' b' hpre' hne => ?_, hck ▸ hxs⟩
    rcases List.prefix_concat_iff.mp hpre' with heq | hprefix
    · exact absurd heq hne
    · exact hnone pre' b' hprefix
  · rintro ⟨t, ⟨left, rfl⟩, hend, hfirst, hrec⟩
    rcases List.eq_nil_or_concat' t with rfl | ⟨pre, b, rfl⟩
    · exact absurd hend.1 (by simp)
    · refine ⟨left, pre, b, by simp, fun pre' b' hpre' => ?_, hend, frame, _, hrec,
        (if_pos rfl).symm⟩
      refine hfirst pre' b' (hpre'.trans (List.prefix_append _ _)) fun heq => ?_
      have := hpre'.length_le
      rw [heq, List.length_append, List.length_singleton] at this
      omega

/-- The reads before the first error of the port, and those from it on. -/
lemma exists_split_reads (reads : List (PortRead 64)) :
    ∃ (cs : List (Chunk 64)) (tail : List (PortRead 64)), reads = cs.map some ++ tail ∧
      (tail = [] ∨ ∃ rest, tail = none :: rest) ∧ answerBytes reads = Chunk.joined cs := by
  induction reads with
  | nil => exact ⟨[], [], rfl, .inl rfl, rfl⟩
  | cons x reads ih =>
    cases x with
    | none => exact ⟨[], none :: reads, rfl, .inr ⟨reads, rfl⟩, rfl⟩
    | some c =>
      obtain ⟨cs, tail, rfl, htail, hbytes⟩ := ih
      exact ⟨c :: cs, tail, rfl, htail, by rw [answerBytes, hbytes, Chunk.joined_cons]⟩

/-- **What a call of `read_frame` returns**: the first frame in the bytes before an error of the
port, if that frame has a correct checksum.

**Proof sketch.** The reads before the first error are run by the receiver (`readLoop_spec`). If
it finds nothing in them, the call waits or returns nothing. -/
theorem readFrame_eq_some_iff (reads : List (PortRead 64)) (frame : List UInt8) :
    (∃ dropped rest, readFrame reads = .ok (.returned (some frame) dropped rest)) ↔
      FirstFrame (answerBytes reads) frame := by
  obtain ⟨cs, tail, rfl, htail, hbytes⟩ := exists_split_reads reads
  rw [hbytes, ← seek_eq_firstFrame, readFrame]
  rcases readLoop_spec FrameReader.init_sound cs with
    ⟨r', -, hnone, hloop⟩ | ⟨found, dropped, rest, hfound, hret⟩
  · have hnothing : ¬ ∃ left, Mealy.seek aimeDeframer.step none (Chunk.joined cs) =
        .inr (some frame, left) := by
      rintro ⟨left, hleft⟩
      rw [show none = FrameReader.init.abs from rfl, hnone] at hleft
      cases hleft
    refine iff_of_false ?_ hnothing
    rintro ⟨dropped, rest, h⟩
    rw [hloop] at h
    rcases htail with rfl | ⟨rest', rfl⟩ <;> cases h
  · rw [hret]
    constructor
    · rintro ⟨dropped', rest', h⟩
      cases h
      exact ⟨_, hfound⟩
    · rintro ⟨left, hleft⟩
      rw [show none = FrameReader.init.abs from rfl, hfound] at hleft
      cases hleft
      exact ⟨dropped, _, rfl⟩

/-! ## The round trip -/

/-- The bytes of a request between `E0` and the checksum. -/
def aimeBody (seq cmd : UInt8) (payload : List UInt8) : List UInt8 :=
  [UInt8.ofNat (5 + payload.length), 0, seq, cmd, UInt8.ofNat payload.length] ++ payload

/-- The length of the body of a frame: five bytes in front of the payload. -/
lemma length_aimeBody (seq cmd : UInt8) (payload : List UInt8) :
    (aimeBody seq cmd payload).length = 5 + payload.length := by
  simp [aimeBody]
  omega

/-- `encode_frame` frames the body and its checksum. -/
lemma encodeFrame_eq (seq cmd : UInt8) (payload : List UInt8) :
    encodeFrame seq cmd payload = aimeDeframer.frame
      (aimeBody seq cmd payload ++ [Checksum.sum (aimeBody seq cmd payload)]) := by
  have hone : aimeDeframer.stuffOne =
      fun b : UInt8 => if b = 0xD0 ∨ b = 0xE0 then [0xD0, b - 1] else [b] := by
    funext b
    simp only [Stuffing.Code.stuffOne, aimeDeframer, aimeCode, or_comm]
  simp only [encodeFrame, Stuffing.Deframer.frame, Stuffing.Code.stuff, hone]
  rfl

/-- The receiver collects the body of a request and delivers it at the checksum. -/
lemma aimeDeframer_body (seq cmd : UInt8) {payload : List UInt8} (hlen : payload.length ≤ 250) :
    aimeDeframer.Absorbs aimeDeframer.start (aimeBody seq cmd payload) ∧
      aimeDeframer.accept (aimeDeframer.start ++ aimeBody seq cmd payload)
        (Checksum.sum (aimeBody seq cmd payload)) = .emit (some (aimeBody seq cmd payload)) := by
  have hfirst : (UInt8.ofNat (5 + payload.length)).toNat = 5 + payload.length := by
    rw [UInt8.toNat_ofNat']
    omega
  have hzero : (aimeBody seq cmd payload ++ [Checksum.sum (aimeBody seq cmd payload)]).getD 0 0 =
      UInt8.ofNat (5 + payload.length) := rfl
  refine (aimeDeframer_delivers_iff _ _ _).mpr ⟨?_, (if_pos rfl).symm⟩
  rw [AimeComplete, hzero, hfirst, List.length_append, length_aimeBody, List.length_singleton]
  omega

/-- **The decoder recovers every encoded frame**: if `read_frame` is still waiting after some
reads, then however the same bytes followed by an encoded frame are cut into reads, it returns
the body of the frame with all bytes used, and it is waiting as long as a byte of the frame is
missing.

**Proof sketch.** The receiver has found nothing in the bytes before the frame and finds the
body at the last byte of the frame, whatever its state was (`Stuffing.Deframer.run_frame`). It
finds nothing in fewer bytes, because it would leave some of the frame behind. -/
theorem readFrame_encodeFrame (seq cmd : UInt8) (payload : List UInt8)
    (hlen : payload.length ≤ 250) (gs : List (Chunk 64)) (r : FrameReader)
    (hgs : readFrame (gs.map some) = .ok (.waiting r)) :
    (∀ cs : List (Chunk 64), Chunk.joined cs = Chunk.joined gs ++ encodeFrame seq cmd payload →
      ∃ rest, Chunk.joined rest = [] ∧ readFrame (cs.map some) =
        .ok (.returned (some ([UInt8.ofNat (5 + payload.length), 0, seq, cmd,
          UInt8.ofNat payload.length] ++ payload)) [] (rest.map some))) ∧
      ∀ (cs : List (Chunk 64)) (missing : List UInt8), missing ≠ [] →
        Chunk.joined cs ++ missing = Chunk.joined gs ++ encodeFrame seq cmd payload →
        ∃ r', readFrame (cs.map some) = .ok (.waiting r') := by
  obtain ⟨ha, hv⟩ := aimeDeframer_body seq cmd hlen
  have hseek : Mealy.seek aimeDeframer.step FrameReader.init.abs
      (Chunk.joined gs ++ encodeFrame seq cmd payload) =
        .inr (some (aimeBody seq cmd payload), []) := by
    rcases readLoop_spec FrameReader.init_sound gs with
      ⟨r', -, hgarbage, -⟩ | ⟨frame, dropped, rest, -, hret⟩
    · rw [Mealy.seek_append, hgarbage, encodeFrame_eq]
      exact Mealy.seek_of_run (congrArg Prod.snd (aimeDeframer.run_frame r'.abs ha hv))
    · have := hret []
      rw [List.append_nil, ← readFrame, hgs] at this
      cases this
  constructor
  · intro cs hcs
    rcases readLoop_spec FrameReader.init_sound cs with
      ⟨r', -, hnone, -⟩ | ⟨frame, dropped, rest, hfound, hret⟩
    · rw [hcs, hseek] at hnone
      cases hnone
    · rw [hcs, hseek] at hfound
      obtain ⟨rfl, hnil⟩ := Prod.mk.inj (Sum.inr.inj hfound)
      obtain ⟨rfl, hrest⟩ := List.append_eq_nil_iff.mp hnil.symm
      have := hret []
      rw [List.append_nil, List.append_nil] at this
      exact ⟨rest, hrest, this⟩
  · intro cs missing hmissing hcs
    rcases readLoop_spec FrameReader.init_sound cs with
      ⟨r', -, -, hloop⟩ | ⟨frame, dropped, rest, hfound, -⟩
    · exact ⟨r', by simpa [readFrame, readLoop] using hloop []⟩
    · rw [← hcs, Mealy.seek_append, hfound] at hseek
      obtain ⟨-, hnil⟩ := Prod.mk.inj (Sum.inr.inj hseek)
      exact absurd (List.append_eq_nil_iff.mp hnil).2 hmissing

/-- A request with special bytes in its sequence number, its payload and its checksum, behind
half a frame that ends in an escape byte. -/
theorem readFrame_encodeFrame_escaped :
    (∀ cs : List (Chunk 64), Chunk.joined cs =
        Chunk.joined [(⟨[0xE0, 0x07, 0xD0], by decide⟩ : Chunk 64)] ++
          encodeFrame 0xE0 0x42 [0xD0, 0xD5] →
      ∃ rest, Chunk.joined rest = [] ∧ readFrame (cs.map some) =
        .ok (.returned (some ([UInt8.ofNat (5 + 2), 0, 0xE0, 0x42, UInt8.ofNat 2] ++
          [0xD0, 0xD5])) [] (rest.map some))) ∧
      ∀ (cs : List (Chunk 64)) (missing : List UInt8), missing ≠ [] →
        Chunk.joined cs ++ missing =
          Chunk.joined [(⟨[0xE0, 0x07, 0xD0], by decide⟩ : Chunk 64)] ++
            encodeFrame 0xE0 0x42 [0xD0, 0xD5] →
        ∃ r', readFrame (cs.map some) = .ok (.waiting r') :=
  readFrame_encodeFrame 0xE0 0x42 [0xD0, 0xD5] (by decide) [⟨[0xE0, 0x07, 0xD0], by decide⟩]
    ⟨true, true, [0x07]⟩ rfl

end Affine
