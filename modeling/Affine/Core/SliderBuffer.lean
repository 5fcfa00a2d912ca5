import Affine.Core.Slider

set_option relaxedAutoImplicit false
set_option autoImplicit false

/-!
# The buffer of the slider decoder

The representation invariant of `SliderParser` (`affine-core/src/slider.rs`), for every byte
stream. The announced size is a byte that the other side chooses, and may exceed the buffer; an
escape byte uses up a byte of the stream without storing one; and the overflow test stands before
the store. Every branch of `push` is one case of `SliderParser.Push`, and the invariant is
derived from these cases.

## Main definitions

* `Affine.SliderParser.announced` — the payload size that the stored bytes announce.
* `Affine.SliderParser.Push` — what pushing a byte can do.
* `Affine.SliderParser.Inv` — the representation invariant.

## Main results

* `Affine.SliderParser.push_cases` — pushing a byte raises no fault and does one of these.
* `Affine.SliderParser.pushAll_keeps_buffer` — the invariant after every byte stream, and what
  is returned from then on.
-/

namespace Affine

namespace SliderParser

/-- The payload size that the third byte of the buffer announces. -/
def announced (p : SliderParser) : ℕ := (p.buf.toList.getD 2 0).toNat

/-- The byte that is stored for a byte of the stream. -/
def decode (p : SliderParser) (byte : UInt8) : UInt8 := if p.escaped then byte + 1 else byte

/-- What pushing a byte does: one constructor for each way out of `push`. -/
inductive Push (p : SliderParser) (byte : UInt8) : Option SliderPacket → SliderParser → Prop
  /-- The byte starts a frame. -/
  | start {p' : SliderParser} (hbyte : byte = 0xFF)
      (hbuf : p'.buf.toList = p.buf.toList.set 0 byte) (hlen : p'.len = 1)
      (hactive : p'.active = true) : Push p byte none p'
  /-- The byte lies outside a frame. -/
  | skip (hbyte : byte ≠ 0xFF) (hactive : p.active = false) : Push p byte none p
  /-- The byte announces a stuffed one. -/
  | escape (hbyte : byte = 0xFD) (hactive : p.active = true) :
      Push p byte none { p with escaped := true }
  /-- The buffer is full. -/
  | overflow (hactive : p.active = true) (hfull : 128 ≤ p.len) :
      Push p byte none { p with escaped := false, active := false, len := 0 }
  /-- The byte is stored, and the frame goes on. -/
  | store {p' : SliderParser} (hactive : p.active = true) (hroom : p.len < 128)
      (hbuf : p'.buf.toList = p.buf.toList.set p.len (p.decode byte)) (hlen : p'.len = p.len + 1)
      (hmore : p'.len < 4 ∨ p'.len < p'.announced + 4) (hactive' : p'.active = true) :
      Push p byte none p'
  /-- The byte is stored, and ends the frame. -/
  | packet {p' : SliderParser} {packet : SliderPacket} (hactive : p.active = true)
      (hroom : p.len < 128) (hbuf : p'.buf.toList = p.buf.toList.set p.len (p.decode byte))
      (hfour : 4 ≤ p.len + 1) (hall : p'.announced + 4 ≤ p.len + 1) (hlen : p'.len = 0)
      (hactive' : p'.active = false) (hpayload : packet.payload.length = p'.announced) :
      Push p byte (some packet) p'

/-- **Pushing a byte raises no fault**, and does what one of the cases says.

**Proof sketch.** The cases are the branches of `push`. The store is below the overflow test, and
the payload is only cut out of the buffer once as many bytes are stored as it needs. -/
theorem push_cases {p : SliderParser} (hp : p.len ≤ 128) (byte : UInt8) :
    ∃ o p', p.push byte = .ok (o, p') ∧ Push p byte o p' := by
  by_cases hsync : byte = 0xFF
  · subst hsync
    refine ⟨none, ⟨p.buf.set ⟨0, Nat.succ_pos 127⟩ 0xFF, 1, false, true⟩, ?_,
      .start rfl (List.Vector.toList_set _ _ _) rfl rfl⟩
    rw [push, if_pos rfl, Slice.set_eq_ok p.buf (Nat.succ_pos 127)]
    rfl
  by_cases hactive : p.active = true
  swap
  · rw [Bool.not_eq_true] at hactive
    exact ⟨none, p, by simp [push, hsync, hactive], .skip hsync hactive⟩
  by_cases hesc : byte = 0xFD
  · subst hesc
    exact ⟨none, _, by simp [push, hactive], .escape rfl hactive⟩
  have hdecode : (if p.escaped then byte + 1 else byte) = p.decode byte := rfl
  simp only [push, if_neg hsync, if_neg hesc, hactive, not_true_eq_false, if_false, hdecode]
  by_cases hfull : 128 ≤ p.len
  · exact ⟨none, _, by rw [if_pos hfull]; rfl, .overflow hactive hfull⟩
  have hroom : p.len < 128 := by omega
  rw [if_neg hfull, Slice.set_eq_ok p.buf hroom, Slice.ok_bind]
  have hbuf := List.Vector.toList_set p.buf ⟨p.len, hroom⟩ (p.decode byte)
  generalize p.buf.set ⟨p.len, hroom⟩ (p.decode byte) = buf at hbuf ⊢
  by_cases hfour : p.len + 1 < 4
  · exact ⟨none, ⟨buf, p.len + 1, false, true⟩, by rw [if_pos hfour]; rfl,
      .store hactive hroom hbuf rfl (.inl hfour) rfl⟩
  have h128 : buf.toList.length = 128 := buf.toList_length
  rw [if_neg hfour, Slice.get_eq_getD (by omega) 0, Slice.ok_bind]
  by_cases hmore : p.len + 1 < (buf.toList.getD 2 0).toNat + 4
  · exact ⟨none, ⟨buf, p.len + 1, false, true⟩, by rw [if_pos hmore]; rfl,
      .store hactive hroom hbuf rfl (.inr hmore) rfl⟩
  rw [if_neg hmore, Slice.get_eq_getD (by omega) 0, Slice.ok_bind,
    Slice.range_eq_ok (by omega) (by omega), Slice.ok_bind]
  refine ⟨_, ⟨buf, 0, false, false⟩, rfl,
    .packet hactive hroom hbuf (by omega) ?_ rfl rfl ?_⟩
  · show (buf.toList.getD 2 0).toNat + 4 ≤ p.len + 1
    omega
  · show ((buf.toList.take _).drop 3).length = (buf.toList.getD 2 0).toNat
    rw [List.length_drop, List.length_take]
    omega

/-- The representation invariant: outside a frame nothing is stored, and inside one the stored
bytes fit the buffer, start with `FF`, and are fewer than they announce. -/
structure Inv (p : SliderParser) : Prop where
  len_le : p.len ≤ 128
  active : p.active = true → 1 ≤ p.len ∧ p.buf.toList.getD 0 0 = 0xFF
  inactive : p.active = false → p.len = 0
  unfinished : p.active = true → p.len < 4 ∨ p.len < p.announced + 4

/-- The decoder starts in the invariant. -/
lemma inv_default : default.Inv where
  len_le := by simp [default]
  active h := by simp [default] at h
  inactive _ := rfl
  unfinished h := by simp [default] at h

/-- A store leaves the other bytes of the buffer as they are. -/
lemma getD_store {p p' : SliderParser} {k i : ℕ} {v : UInt8}
    (hbuf : p'.buf.toList = p.buf.toList.set k v) (hne : k ≠ i) :
    p'.buf.toList.getD i 0 = p.buf.toList.getD i 0 := by
  rw [hbuf, List.getD_eq_getElem?_getD, List.getD_eq_getElem?_getD, List.getElem?_set_ne hne]

/-- A store behind the header leaves the announced size. -/
lemma announced_store {p p' : SliderParser} {v : UInt8}
    (hbuf : p'.buf.toList = p.buf.toList.set p.len v) (hlen : 3 ≤ p.len) :
    p'.announced = p.announced := by
  rw [announced, getD_store hbuf (by omega), announced]

/-- Every case of `push` keeps the invariant.

**Proof sketch.** The cases are the ways out of `push`. -/
lemma Push.inv {p p' : SliderParser} {byte : UInt8} {o : Option SliderPacket}
    (h : Push p byte o p') (hp : p.Inv) : p'.Inv := by
  cases h with
  | start hbyte hbuf hlen hactive =>
    refine ⟨by omega, fun _ => ⟨by omega, ?_⟩, fun h => ?_, fun _ => .inl (by omega)⟩
    · rw [hbuf, hbyte, List.getD_eq_getElem?_getD, List.getElem?_set_self (by simp)]
      rfl
    · rw [hactive] at h
      cases h
  | skip hbyte hactive => exact hp
  | escape hbyte hactive => exact ⟨hp.len_le, hp.active, hp.inactive, hp.unfinished⟩
  | overflow hactive hfull =>
    exact ⟨Nat.zero_le _, nofun, fun _ => rfl, nofun⟩
  | store hactive hroom hbuf hlen hmore hactive' =>
    obtain ⟨hpos, hsync⟩ := hp.active hactive
    refine ⟨by omega, fun _ => ⟨by omega, ?_⟩, fun h => ?_, fun _ => hmore⟩
    · rw [getD_store hbuf (by omega), hsync]
    · rw [hactive'] at h
      cases h
  | packet hactive hroom hbuf hfour hall hlen hactive' hpayload =>
    refine ⟨by omega, fun h => ?_, fun _ => hlen, fun h => ?_⟩ <;>
    · rw [hactive'] at h
      cases h

/-- **A packet is returned exactly when the frame is as long as it announces**: with one byte
less stored, the frame was still unfinished, and its third byte is the same unless it was stored
last, in which case there are no four bytes yet. -/
lemma Push.packet_length {p p' : SliderParser} {byte : UInt8} {packet : SliderPacket}
    (h : Push p byte (some packet) p') (hp : p.Inv) :
    p.len + 1 = p'.announced + 4 ∧ packet.payload.length = p'.announced ∧ p'.announced ≤ 124 := by
  cases h with
  | packet hactive hroom hbuf hfour hall hlen hactive' hpayload =>
    have hsame : p'.announced = p.announced := announced_store hbuf (by omega)
    have hbefore := hp.unfinished hactive
    exact ⟨by omega, hpayload, by omega⟩

/-! ## Frames that do not fit -/

/-- The decoder is outside a frame, or inside one that announces more than fits. -/
def Oversized (p : SliderParser) : Prop :=
  p.active = true → 3 ≤ p.len ∧ 124 < p.announced

/-- Without a new `FF`, a frame that does not fit stays one until it is given up, and nothing is
returned. -/
lemma Push.oversized {p p' : SliderParser} {byte : UInt8} {o : Option SliderPacket}
    (h : Push p byte o p') (hover : p.Oversized) (hbyte : byte ≠ 0xFF) :
    o = none ∧ p'.Oversized := by
  cases h with
  | start hbyte' => exact absurd hbyte' hbyte
  | skip => exact ⟨rfl, hover⟩
  | escape => exact ⟨rfl, hover⟩
  | overflow => exact ⟨rfl, nofun⟩
  | store hactive hroom hbuf hlen =>
    obtain ⟨hthree, hsize⟩ := hover hactive
    refine ⟨rfl, fun _ => ⟨by omega, ?_⟩⟩
    rw [announced_store hbuf hthree]
    exact hsize
  | packet hactive hroom hbuf hfour hall =>
    -- the whole frame would have to fit the buffer
    obtain ⟨hthree, hsize⟩ := hover hactive
    have hsame := announced_store hbuf hthree
    omega

/-- Outside a frame only `FF` has an effect. -/
lemma Push.inactive {p p' : SliderParser} {byte : UInt8} {o : Option SliderPacket}
    (h : Push p byte o p') (hp : p.active = false) (hbyte : byte ≠ 0xFF) :
    p'.active = false := by
  cases h with
  | start hbyte' => exact absurd hbyte' hbyte
  | skip => exact hp
  | escape _ hactive | overflow hactive | store hactive | packet hactive =>
    exact absurd (hp.symm.trans hactive) Bool.false_ne_true

/-- With a full buffer, the decoder is outside a frame after a byte that is neither `FF` nor an
escape byte. -/
lemma Push.full {p p' : SliderParser} {byte : UInt8} {o : Option SliderPacket}
    (h : Push p byte o p') (hlen : p.len = 128) (hsync : byte ≠ 0xFF)
    (hesc : byte ≠ 0xFD) : o = none ∧ p'.active = false := by
  cases h with
  | start hbyte => exact absurd hbyte hsync
  | skip _ hidle => exact ⟨rfl, hidle⟩
  | escape hbyte => exact absurd hbyte hesc
  | overflow => exact ⟨rfl, rfl⟩
  | store _ hroom | packet _ hroom => omega

/-! ## Byte streams -/

/-- A property of the state that every byte other than `FF` keeps, and under which nothing is
returned, holds until the next `FF`. -/
lemma pushAll_until_sync {I : SliderParser → Prop}
    (hstep : ∀ {p byte o p'}, Push p byte o p' → I p → byte ≠ 0xFF → o = none ∧ I p')
    {p : SliderParser} (hp : p.Inv) (hI : I p) {bs : List UInt8} (hbs : 0xFF ∉ bs) :
    ∃ os p', pushAll p bs = .ok (os, p') ∧ I p' ∧ ∀ o ∈ os, o = none := by
  induction bs generalizing p with
  | nil => exact ⟨[], p, rfl, hI, by simp⟩
  | cons b bs ih =>
    simp only [List.mem_cons, not_or] at hbs
    obtain ⟨o, p₁, hpush, hcase⟩ := push_cases hp.len_le b
    obtain ⟨rfl, hI₁⟩ := hstep hcase hI (Ne.symm hbs.1)
    obtain ⟨os, p₂, hall, hI₂, hnone⟩ := ih (hcase.inv hp) hI₁ hbs.2
    refine ⟨none :: os, p₂, ?_, hI₂, by simpa using hnone⟩
    rw [pushAll, hpush]
    simp only [Slice.ok_bind, hall]
    rfl

/-- The decoder on a stream raises no fault and keeps the invariant. -/
lemma pushAll_inv {p : SliderParser} (hp : p.Inv) (bs : List UInt8) :
    ∃ os p', pushAll p bs = .ok (os, p') ∧ p'.Inv := by
  induction bs generalizing p with
  | nil => exact ⟨[], p, rfl, hp⟩
  | cons b bs ih =>
    obtain ⟨o, p₁, hpush, hcase⟩ := push_cases hp.len_le b
    obtain ⟨os, p₂, hall, hp₂⟩ := ih (hcase.inv hp)
    refine ⟨o :: os, p₂, ?_, hp₂⟩
    rw [pushAll, hpush]
    simp only [Slice.ok_bind, hall]
    rfl

/-- **The representation invariant of the decoder**: after every byte stream, no access has left
the buffer, at most `128` bytes are stored, a frame in progress starts with `FF`, and none is
stored outside a frame. The next byte raises no fault either; if it completes a packet, then
exactly as many bytes are stored as announced, at most `124` of them payload. A frame that
announces more is not returned, whatever follows until the next `FF`; and with the buffer full,
the next byte that is neither `FF` nor `FD` ends the frame, after which the decoder stays outside
a frame until the next `FF`.

**Proof sketch.** The invariant holds at first and is kept by every case of `push`. Until the
next `FF`, an oversized frame stays oversized or is given up, because no store changes its third
byte and the frame would have to fit the buffer to be complete. -/
theorem pushAll_keeps_buffer (bs : List UInt8) :
    ∃ os p, pushAll default bs = .ok (os, p) ∧
      p.len ≤ 128 ∧
      (p.active = true → 1 ≤ p.len ∧ p.buf.toList.getD 0 0 = 0xFF) ∧
      (p.active = false → p.len = 0) ∧
      (∀ byte, ∃ o p', p.push byte = .ok (o, p') ∧ ∀ packet, o = some packet →
        p.len + 1 = p'.announced + 4 ∧ packet.payload.length = p'.announced ∧
          p'.announced ≤ 124) ∧
      (p.active = true → 3 ≤ p.len → 124 < p.announced → ∀ cs, 0xFF ∉ cs →
        ∃ os' p', pushAll p cs = .ok (os', p') ∧ ∀ o ∈ os', o = none) ∧
      (p.active = true → p.len = 128 → ∀ byte cs, byte ≠ 0xFF → byte ≠ 0xFD → 0xFF ∉ cs →
        ∃ p' os' p'', p.push byte = .ok (none, p') ∧ p'.active = false ∧
          pushAll p' cs = .ok (os', p'') ∧ p''.active = false ∧ ∀ o ∈ os', o = none) := by
  obtain ⟨os, p, hall, hp⟩ := pushAll_inv inv_default bs
  refine ⟨os, p, hall, hp.len_le, hp.active, hp.inactive, fun byte => ?_,
    fun _ hthree hsize cs hcs => ?_, fun _ hlen byte cs hsync hesc hcs => ?_⟩
  · obtain ⟨o, p', hpush, hcase⟩ := push_cases hp.len_le byte
    refine ⟨o, p', hpush, fun packet ho => ?_⟩
    subst ho
    exact hcase.packet_length hp
  · obtain ⟨os', p', hall', -, hnone⟩ :=
      pushAll_until_sync Push.oversized hp (fun _ => ⟨hthree, hsize⟩) hcs
    exact ⟨os', p', hall', hnone⟩
  · obtain ⟨o, p', hpush, hcase⟩ := push_cases hp.len_le byte
    obtain ⟨rfl, hidle⟩ := hcase.full hlen hsync hesc
    -- outside a frame, a packet would need one
    have hstep : ∀ {q b o q'}, Push q b o q' → q.active = false → b ≠ 0xFF →
        o = none ∧ q'.active = false := by
      intro q b o q' h hq hb
      have hover : q.Oversized := fun hactive => absurd (hq.symm.trans hactive) Bool.false_ne_true
      exact ⟨(h.oversized hover hb).1, h.inactive hq hb⟩
    obtain ⟨os', p'', hall', hidle', hnone⟩ :=
      pushAll_until_sync hstep (hcase.inv hp) hidle hcs
    exact ⟨p', os', p'', hpush, hidle, hall', hidle', hnone⟩

end SliderParser

end Affine
