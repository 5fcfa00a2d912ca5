import Affine.Core.Slider
import Mathlib.Data.List.GetD

set_option relaxedAutoImplicit false
set_option autoImplicit false

/-!
# Frames on the slider link

What the slider decoder delivers from a byte stream. A frame whose bytes are escaped reaches
the other side whatever precedes it (`pushAll_link`). `send_slider_frame` does not escape, so
its frames do so exactly when none of their bytes is special (`pushAll_sendSliderFrame_iff`),
and the decoder does not compare the checksum, so what it delivers has a correct one exactly
when the frames on the link do (`checksumHolds_iff`).

## Main definitions

* `Affine.escapedFrame` — a frame with `FD` and `FF` escaped.
* `Affine.LinkItem` — a complete frame with noise behind it, or a frame that is cut.
* `Affine.frameBytes`, `Affine.FrameComplete` — the unescaped bytes of the frame a stream is
  in, and whether its last byte completes that frame.

## Main results

* `Affine.pushAll_link`, `Affine.pushAll_sendSliderFrame_iff`, `Affine.checksumHolds_iff`.
* `Affine.push_delivers_iff` — a byte is answered with a packet exactly when it completes a
  frame.
-/

namespace Affine

open SliderParser

/-! ## The contents of a frame -/

/-- The bytes of a frame between the leading `FF` and the checksum. -/
def sliderContents (cmd : UInt8) (payload : List UInt8) : List UInt8 :=
  cmd :: UInt8.ofNat payload.length :: payload

/-- The checksum of a frame, as `send_slider_frame` computes it. -/
def sliderChecksum (cmd : UInt8) (payload : List UInt8) : UInt8 :=
  Checksum.negSum (0xFF :: sliderContents cmd payload)

/-- A frame with every `FD` and `FF` behind its leading `FF` escaped. -/
def escapedFrame (cmd : UInt8) (payload : List UInt8) : List UInt8 :=
  0xFF :: (sliderContents cmd payload ++ [sliderChecksum cmd payload]).flatMap fun b =>
    if b = 0xFD ∨ b = 0xFF then [0xFD, b - 1] else [b]

/-- `send_slider_frame` frames the contents and their checksum. -/
lemma escapedFrame_eq (cmd : UInt8) (payload : List UInt8) :
    escapedFrame cmd payload =
      sliderDeframer.frame (sliderContents cmd payload ++ [sliderChecksum cmd payload]) := by
  have hone : sliderDeframer.stuffOne =
      fun b : UInt8 => if b = 0xFD ∨ b = 0xFF then [0xFD, b - 1] else [b] := by
    funext b
    simp only [Stuffing.Code.stuffOne, sliderDeframer, sliderCode, or_comm]
  simp only [escapedFrame, Stuffing.Deframer.frame, Stuffing.Code.stuff, hone]
  rfl

/-- The command and the size stand in front of the payload. -/
lemma length_sliderContents (cmd : UInt8) (payload : List UInt8) :
    (sliderContents cmd payload).length = payload.length + 2 := rfl

/-- The size of a payload fits into its byte. -/
lemma toNat_length_payload {payload : List UInt8} (hlen : payload.length ≤ 124) :
    (UInt8.ofNat payload.length).toNat = payload.length := by
  rw [UInt8.toNat_ofNat']
  omega

/-- The decoder collects the contents of a frame and delivers the packet at the byte behind
them, whatever that byte is. -/
lemma sliderDeframer_contents (cmd : UInt8) {payload : List UInt8} (hlen : payload.length ≤ 124)
    (v : UInt8) :
    sliderDeframer.Absorbs sliderDeframer.start (sliderContents cmd payload) ∧
      sliderDeframer.accept (sliderDeframer.start ++ sliderContents cmd payload) v =
        .emit ⟨cmd, payload⟩ := by
  have hthird : (0xFF :: (sliderContents cmd payload ++ [v])).getD 2 0 =
      UInt8.ofNat payload.length := rfl
  refine (sliderDeframer_delivers_iff _ _ _).mpr ⟨⟨?_, ?_⟩, ?_⟩
  · rw [hthird, toNat_length_payload hlen]
    simp [length_sliderContents]
  · simp only [List.length_cons, List.length_append, length_sliderContents, List.length_nil]
    omega
  · rw [sliderPacketOf, hthird, toNat_length_payload hlen]
    simp [sliderContents]

/-! ## Escaped frames -/

/-- Bytes without `FF`. -/
abbrev Noise := {bs : List UInt8 // 0xFF ∉ bs}

/-- A piece of the byte stream on the link: a complete frame followed by noise, or the first
`k` bytes of a frame. -/
inductive LinkItem
  | frame (cmd : UInt8) (payload : List UInt8) (hlen : payload.length ≤ 124) (noise : Noise)
  | cut (cmd : UInt8) (payload : List UInt8) (hlen : payload.length ≤ 124) (k : ℕ)
      (hk : k < (escapedFrame cmd payload).length)

namespace LinkItem

/-- The bytes of a piece. -/
def bytes : LinkItem → List UInt8
  | frame cmd payload _ noise => escapedFrame cmd payload ++ noise
  | cut cmd payload _ k _ => (escapedFrame cmd payload).take k

/-- The answers to the bytes of a piece: the packet at the last byte of a complete frame, and
nothing at every other byte. -/
def answers : LinkItem → List (Option SliderPacket)
  | frame cmd payload _ noise =>
    List.replicate ((escapedFrame cmd payload).length - 1) none ++ [some ⟨cmd, payload⟩] ++
      List.replicate noise.1.length none
  | cut _ _ _ k _ => List.replicate k none

/-- From every state, the receiver answers a piece as it should. -/
lemma run_bytes (s : Stuffing.Deframer.State UInt8) (item : LinkItem) :
    (Mealy.run sliderDeframer.step s item.bytes).2 = item.answers := by
  cases item with
  | frame cmd payload hlen noise =>
    obtain ⟨ha, hv⟩ := sliderDeframer_contents cmd hlen (sliderChecksum cmd payload)
    rw [bytes, answers, escapedFrame_eq, Mealy.run_append, sliderDeframer.run_frame s ha hv,
      sliderDeframer.run_none noise.2]
  | cut cmd payload hlen k hk =>
    rw [bytes, answers, escapedFrame_eq]
    rw [escapedFrame_eq] at hk
    obtain ⟨ha, hv⟩ := sliderDeframer_contents cmd hlen (sliderChecksum cmd payload)
    exact sliderDeframer.run_frame_take s ha hv hk

/-- The answers to pieces of the stream are those to each of them. -/
lemma run_flatMap_bytes (s : Stuffing.Deframer.State UInt8) (items : List LinkItem) :
    (Mealy.run sliderDeframer.step s (items.flatMap bytes)).2 = items.flatMap answers := by
  induction items generalizing s with
  | nil => rfl
  | cons item items ih => rw [List.flatMap_cons, Mealy.run_append, run_bytes, ih, List.flatMap_cons]

end LinkItem

/-- **The decoder resynchronises and loses no escaped frame**: over noise, complete frames
with noise behind them and frames cut anywhere, it answers the last byte of each complete
frame with the packet that was sent, and no other byte.

**Proof sketch.** The decoder refines the receiver (`pushAll_spec`), which answers each piece
correctly from every state (`LinkItem.run_bytes`): a frame starts with `FF`, which resets it,
and behind a complete frame it ignores everything up to the next `FF`. -/
theorem pushAll_link (noise : Noise) (items : List LinkItem) :
    ∃ p, pushAll default (noise.1 ++ items.flatMap LinkItem.bytes) =
      .ok (List.replicate noise.1.length none ++ items.flatMap LinkItem.answers, p) := by
  obtain ⟨os, p, hall, -, hrun⟩ :=
    pushAll_spec len_default (noise.1 ++ items.flatMap LinkItem.bytes)
  have hos : os = List.replicate noise.1.length none ++ items.flatMap LinkItem.answers := by
    have := congrArg Prod.snd hrun
    rw [abs_default, Mealy.run_append, sliderDeframer.run_none noise.2,
      LinkItem.run_flatMap_bytes] at this
    exact this.symm
  exact ⟨p, hos ▸ hall⟩

/-! ## When a packet is delivered -/

/-- The unescaped bytes, from its leading `FF` on, of the frame that a byte stream is in. -/
def frameBytes (s : List UInt8) : List UInt8 := 0xFF :: sliderCode.received s

/-- The last byte of the stream completes a frame: it is not an escape byte, and with it the
unescaped bytes are as many as the third of them announces. -/
def FrameComplete (s : List UInt8) : Prop :=
  0xFF ∈ s ∧ s.getLast? ≠ some 0xFD ∧ SliderComplete (frameBytes s)

/-- **When a packet is delivered**: after a byte stream, a byte is answered with a packet
exactly when it completes a frame, and the packet is the one in the bytes of that frame.

**Proof sketch.** The decoder refines the receiver, which delivers at a byte when it collects
the contents before it and accepts it as the last (`Stuffing.Deframer.emit_iff`);
`sliderDeframer_delivers_iff` says for which contents it does. -/
theorem push_delivers_iff {s : List UInt8} {os : List (Option SliderPacket)} {p : SliderParser}
    (h : pushAll default s = .ok (os, p)) (b : UInt8) (packet : SliderPacket) :
    (∃ p', p.push b = .ok (some packet, p')) ↔
      FrameComplete (s ++ [b]) ∧ sliderPacketOf (frameBytes (s ++ [b])) = packet := by
  obtain ⟨hlen, hrun⟩ := pushAll_eq_ok len_default h
  obtain ⟨o, p', hpush, -, hstep⟩ := push_spec hlen b
  have hstate : (Mealy.run sliderDeframer.step none s).1 = p.abs := by rw [← abs_default, hrun]
  have hanswer : (∃ p', p.push b = .ok (some packet, p')) ↔
      (sliderDeframer.step (Mealy.run sliderDeframer.step none s).1 b).2 = some packet := by
    rw [hstate, hstep, hpush]
    simp
  rw [hanswer, sliderDeframer.emit_iff, FrameComplete, List.getLast?_concat, frameBytes]
  constructor
  · rintro ⟨hsync, hesc, xs, v, hxs, hdelivers⟩
    obtain ⟨hcomplete, hpacket⟩ := (sliderDeframer_delivers_iff xs v packet).mp hdelivers
    rw [← hxs] at hcomplete hpacket
    exact ⟨⟨hsync, fun he => hesc (Option.some.inj he), hcomplete⟩, hpacket⟩
  · rintro ⟨⟨hsync, hesc, hcomplete⟩, hpacket⟩
    rcases List.eq_nil_or_concat' (sliderCode.received (s ++ [b])) with hnil | ⟨xs, v, hxs⟩
    · rw [hnil] at hcomplete
      exact absurd hcomplete (by decide)
    · rw [hxs] at hcomplete hpacket
      exact ⟨hsync, fun he => hesc (congrArg some he), xs, v, hxs,
        (sliderDeframer_delivers_iff xs v packet).mpr ⟨hcomplete, hpacket⟩⟩

/-! ## Frames that are not escaped -/

/-- Bytes behind others are decoded from the state that those leave. -/
lemma pushAll_append {p p' : SliderParser} {xs : List UInt8} {os : List (Option SliderPacket)}
    (h : pushAll p xs = .ok (os, p')) (ys : List UInt8) :
    pushAll p (xs ++ ys) = (do
      let (os', p'') ← pushAll p' ys
      return (os ++ os', p'')) := by
  induction xs generalizing p os with
  | nil =>
    cases h
    rw [List.nil_append]
    cases pushAll p' ys <;> rfl
  | cons x xs ih =>
    simp only [pushAll, Slice.bind_eq_ok, Prod.exists] at h
    obtain ⟨o, p₁, hpush, os₁, p₂, hxs, heq⟩ := h
    cases heq
    rw [List.cons_append, pushAll, hpush]
    simp only [Slice.ok_bind]
    rw [ih hxs]
    cases pushAll p' ys <;> rfl

/-- The answer to the last byte of a stream. -/
lemma pushAll_concat {s : List UInt8} {b : UInt8} {os : List (Option SliderPacket)}
    {o : Option SliderPacket} {p'' : SliderParser}
    (h : pushAll default (s ++ [b]) = .ok (os ++ [o], p'')) :
    ∃ os' p', pushAll default s = .ok (os', p') ∧ p'.push b = .ok (o, p'') := by
  obtain ⟨os', p', hs, hp', -⟩ := pushAll_spec len_default s
  obtain ⟨o', p₁, hpush, -, -⟩ := push_spec hp' b
  refine ⟨os', p', hs, ?_⟩
  rw [pushAll_append hs] at h
  simp only [pushAll, hpush, Slice.ok_bind, Slice.pure_eq_ok, Except.ok.injEq, Prod.mk.injEq] at h
  obtain ⟨hos, rfl⟩ := h
  obtain ⟨-, ho⟩ := List.append_inj' hos rfl
  obtain ⟨rfl, -⟩ := List.cons.inj ho
  exact hpush

/-- No byte of the frame has to be escaped: neither the command nor a byte of the payload is
special, and the sum behind the checksum does not make that one special. -/
def PlainFrame (cmd : UInt8) (payload : List UInt8) : Prop :=
  (∀ b ∈ cmd :: payload, b ≠ 0xFD ∧ b ≠ 0xFF) ∧
    Checksum.sum (sliderContents cmd payload) ≠ 2 ∧ Checksum.sum (sliderContents cmd payload) ≠ 4

instance (cmd : UInt8) (payload : List UInt8) : Decidable (PlainFrame cmd payload) :=
  inferInstanceAs (Decidable (_ ∧ _ ∧ _))

/-- The checksum counts the leading `FF`. -/
lemma sliderChecksum_eq (cmd : UInt8) (payload : List UInt8) :
    sliderChecksum cmd payload = 1 - Checksum.sum (sliderContents cmd payload) := by
  rw [sliderChecksum, Checksum.negSum_eq, Checksum.sum_cons]
  grind

/-- A frame is plain exactly when none of the bytes behind its leading `FF` is special. -/
lemma plainFrame_iff {cmd : UInt8} {payload : List UInt8} (hlen : payload.length ≤ 124) :
    PlainFrame cmd payload ↔
      sliderCode.sync ∉ sliderContents cmd payload ++ [sliderChecksum cmd payload] ∧
        sliderCode.esc ∉ sliderContents cmd payload ++ [sliderChecksum cmd payload] := by
  have hn : ∀ v : UInt8, 124 < v.toNat → UInt8.ofNat payload.length ≠ v := by
    rintro v hv rfl
    rw [toNat_length_payload hlen] at hv
    omega
  have hck : ∀ v w : UInt8, w = 1 - v → (v ≠ Checksum.sum (sliderContents cmd payload) ↔
      sliderChecksum cmd payload ≠ w) := by
    rintro v w rfl
    rw [sliderChecksum_eq]
    grind
  have hspecial : ∀ v : UInt8, 124 < v.toNat →
      (v ∉ sliderContents cmd payload ++ [sliderChecksum cmd payload] ↔
        (∀ b ∈ cmd :: payload, b ≠ v) ∧ sliderChecksum cmd payload ≠ v) := by
    intro v hv
    have := hn v hv
    simp only [sliderContents, List.mem_append, List.mem_cons, List.not_mem_nil, or_false]
    grind
  rw [show sliderCode.sync = 0xFF from rfl, show sliderCode.esc = 0xFD from rfl,
    hspecial 0xFF (by decide), hspecial 0xFD (by decide), ← hck 2 0xFF (by decide),
    ← hck 4 0xFD (by decide), PlainFrame]
  simp only [forall_and]
  tauto

/-- The decoder delivers a packet at the last byte of a frame only when it has used every byte
of it, so when none of them was special. -/
lemma frameComplete_special {body : List UInt8} (h : FrameComplete (0xFF :: body))
    (hlen : (frameBytes (0xFF :: body)).length = body.length + 1) :
    sliderCode.sync ∉ body ∧ sliderCode.esc ∉ body := by
  obtain ⟨pre, hpre⟩ := sliderCode.eq_append_sinceSync h.1
  have hcount := sliderCode.length_unstuff_add_count false (sliderCode.sinceSync (0xFF :: body))
  have hsplit := congrArg List.length hpre
  simp only [frameBytes, Stuffing.Code.received, List.length_cons, List.length_append]
    at hlen hsplit
  have hnil : pre = [] := List.eq_nil_of_length_eq_zero (by omega)
  have hbody : body = sliderCode.sinceSync (0xFF :: body) := by
    rw [hnil] at hpre
    exact (List.cons.inj hpre).2
  constructor
  · rw [hbody]
    exact sliderCode.sync_notMem_sinceSync _
  · rw [hbody]
    exact List.count_eq_zero.mp (by omega)

/-- **The encoder and the decoder agree exactly on plain frames**: the decoder answers the bytes
that `send_slider_frame` writes with the packet at the last byte, in every reachable state, if
and only if none of these bytes would have to be escaped.

**Proof sketch.** A plain frame is an escaped frame, and these are always delivered. Conversely
suppose a fresh decoder delivers the packet. It has as many bytes as the frame, and they come
from the bytes behind the last `FF` without the escape bytes (`frameComplete_special`); so there
is no second `FF` and no escape byte. -/
theorem pushAll_sendSliderFrame_iff (cmd : UInt8) (payload : List UInt8)
    (hlen : payload.length ≤ 124) :
    (∀ p : SliderParser, p.Reachable → ∃ p',
      pushAll p (sendSliderFrame id cmd payload) =
        .ok (List.replicate (payload.length + 3) none ++ [some ⟨cmd, payload⟩], p')) ↔
      PlainFrame cmd payload := by
  have hbody : sendSliderFrame id cmd payload =
      (0xFF :: sliderContents cmd payload) ++ [sliderChecksum cmd payload] := rfl
  constructor
  · intro h
    obtain ⟨p'', hdefault⟩ := h default ⟨[], [], rfl⟩
    rw [hbody] at hdefault
    obtain ⟨os, p', hs, hpush⟩ := pushAll_concat hdefault
    obtain ⟨hcomplete, hpacket⟩ := (push_delivers_iff hs _ _).mp ⟨p'', hpush⟩
    have hsize : (frameBytes (sendSliderFrame id cmd payload)).length = payload.length + 4 := by
      obtain ⟨hl, -⟩ := hcomplete.2.2
      rw [← hbody] at hpacket hl
      have := congrArg (fun packet => packet.payload.length) hpacket
      simp only [sliderPacketOf, List.length_take, List.length_drop] at this
      omega
    exact (plainFrame_iff hlen).mpr
      (frameComplete_special hcomplete (by simpa [hbody, length_sliderContents] using hsize))
  · intro hplain p hp
    obtain ⟨hsync, hesc⟩ := (plainFrame_iff hlen).mp hplain
    obtain ⟨os, p', hall, -, hrun⟩ := pushAll_spec hp.len_le (sendSliderFrame id cmd payload)
    obtain ⟨ha, hv⟩ := sliderDeframer_contents cmd hlen (sliderChecksum cmd payload)
    have hframe : sendSliderFrame id cmd payload =
        sliderDeframer.frame (sliderContents cmd payload ++ [sliderChecksum cmd payload]) := by
      rw [Stuffing.Deframer.frame, sliderDeframer.stuff_eq_self hsync hesc]
      rfl
    have hlen' : (sendSliderFrame id cmd payload).length - 1 = payload.length + 3 := by
      simp [hbody, length_sliderContents]
    rw [hframe, sliderDeframer.run_frame _ ha hv, ← hframe, hlen'] at hrun
    obtain rfl := (congrArg Prod.snd hrun).symm
    exact ⟨p', hall⟩

/-- A plain frame: dark red on the air LEDs, decoded from the start. -/
theorem pushAll_sendSliderFrame_air :
    ∃ p', pushAll default (sendSliderFrame id sliderCmdSetAirLed [0x80, 0, 0]) =
      .ok (List.replicate 6 none ++ [some ⟨sliderCmdSetAirLed, [0x80, 0, 0]⟩], p') :=
  (pushAll_sendSliderFrame_iff sliderCmdSetAirLed [0x80, 0, 0] (by decide)).mpr (by decide +kernel)
    default ⟨[], [], rfl⟩

/-- Full red on the air LEDs is misread: its `FF` starts a new frame, with command zero. -/
theorem sendSliderFrame_red_misread :
    ¬ ∀ p : SliderParser, p.Reachable → ∃ p',
      pushAll p (sendSliderFrame id sliderCmdSetAirLed [0xFF, 0, 0]) =
        .ok (List.replicate 6 none ++ [some ⟨sliderCmdSetAirLed, [0xFF, 0, 0]⟩], p') := by
  intro h
  obtain ⟨p', hp'⟩ := h default ⟨[], [], rfl⟩
  have hmisread : (Mealy.run sliderDeframer.step none
      (sendSliderFrame id sliderCmdSetAirLed [0xFF, 0, 0])).2 =
        List.replicate 6 none ++ [some ⟨0x00, []⟩] := by decide
  have hrun := congrArg Prod.snd (pushAll_eq_ok len_default hp').2
  rw [abs_default, hmisread] at hrun
  simp at hrun

/-! ## Checksums -/

/-- Every frame that is complete in the byte stream has the correct checksum. -/
def ChecksumsCorrect (s : List UInt8) : Prop :=
  ∀ t, t <+: s → FrameComplete t → Checksum.sum (frameBytes t) = 0

/-- **The decoder relies on the checksums of the link**: the frames behind the packets it
delivers have correct checksums if and only if all complete frames of the stream do. -/
theorem checksumHolds_iff (s : List UInt8) :
    (∀ pre b post os p packet p', s = pre ++ b :: post → pushAll default pre = .ok (os, p) →
        p.push b = .ok (some packet, p') → Checksum.sum (frameBytes (pre ++ [b])) = 0) ↔
      ChecksumsCorrect s := by
  constructor
  · rintro h t ⟨post, hpost⟩ ht
    rcases List.eq_nil_or_concat' t with rfl | ⟨pre, b, rfl⟩
    · exact absurd ht.1 (by simp)
    · obtain ⟨os, p, hpre, -⟩ := pushAll_spec len_default pre
      obtain ⟨p', hpush⟩ := (push_delivers_iff hpre b _).mpr ⟨ht, rfl⟩
      exact h pre b post os p _ p' (by simp [← hpost]) hpre hpush
  · intro h pre b post os p packet p' hs hpre hpush
    obtain ⟨hcomplete, -⟩ := (push_delivers_iff hpre b packet).mp ⟨p', hpush⟩
    exact h _ ⟨post, by simp [hs]⟩ hcomplete

/-- A frame with one touch value and the checksum `00` instead of `FA` is delivered. -/
theorem push_wrong_checksum :
    ¬ ∀ pre b post os p packet p', [0xFF, 0x01, 0x01, 0x05, 0x00] = pre ++ b :: post →
        pushAll default pre = .ok (os, p) → p.push b = .ok (some packet, p') →
          Checksum.sum (frameBytes (pre ++ [b])) = 0 := by
  intro h
  obtain ⟨os, p, hpre, -⟩ := pushAll_spec len_default [0xFF, 0x01, 0x01, 0x05]
  obtain ⟨p', hpush⟩ := (push_delivers_iff hpre 0x00 ⟨0x01, [0x05]⟩).mpr
    ⟨⟨by decide, by decide, by decide⟩, by decide⟩
  exact absurd (h _ _ [] os p _ p' rfl hpre hpush) (by decide)

end Affine
