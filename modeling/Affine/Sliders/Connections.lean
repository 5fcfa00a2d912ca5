import Affine.Chuni.Loop
import Affine.Mercury.Loop

set_option relaxedAutoImplicit false
set_option autoImplicit false

/-!
# Packets and connections

Both slider threads keep their decoder when the port closes. What follows for their packets is the
same for both (`packets_from_one_connection_iff`).

## Main results

* `Affine.packets_from_one_connection_iff` — when no packet mixes two connections.
-/

namespace Affine

/-- **When no packet mixes two connections**: in a run of `chuni_thread`, every packet that is
handled comes from the current connection if and only if no frame which an earlier connection broke
off is completed before the first `FF` of a later one and handled, and likewise for
`mercury_thread`. The runs are those of the actions of the threads, among them all runs of passes
and calls (`ChuniThread.exec_step`, `MercuryThread.exec_step`).

**Proof sketch.** `SliderLoop.oneConnection_iff` for the two threads, whose decoders are fresh when
they start. -/
theorem packets_from_one_connection_iff (chuniState : ChuniStatePage)
    (chuniControl : ChuniControlPage)
    (chuniActions : List (SliderAction (ChuniControlPage → ChuniControlPage) ChuniTick))
    (mercuryState : MercuryStatePage) (mercuryControl : MercuryControlPage)
    (mercuryActions : List (SliderAction (MercuryControlPage → MercuryControlPage) MercuryTick)) :
    (Run.EachStep chuniLoop.step (.init chuniState chuniControl, .empty) chuniActions
        chuniLoop.OneConnection ↔
      Run.EachStep chuniLoop.step (.init chuniState chuniControl, .empty) chuniActions
        chuniLoop.BrokenStay) ∧
    (Run.EachStep mercuryLoop.step (.init mercuryState mercuryControl, .empty) mercuryActions
        mercuryLoop.OneConnection ↔
      Run.EachStep mercuryLoop.step (.init mercuryState mercuryControl, .empty) mercuryActions
        mercuryLoop.BrokenStay) :=
  ⟨SliderLoop.oneConnection_iff rfl chuniActions, SliderLoop.oneConnection_iff rfl mercuryActions⟩

/-- A connection that brings the first three bytes of a scan frame, and another that brings `n`
zeros. -/
def brokenOff (κ ι : Type) (n : ℕ) : List (SliderAction κ ι) :=
  [.connect, .byte 0xFF, .byte 0x01, .byte 0x20, .close, .connect] ++
    (List.replicate n 0x00).map .byte

/-- If the thread handles the scan frame of zeros, then its last byte completes a packet of two
connections. -/
lemma brokenOff_mixes {κ ι τ : Type} {l : SliderLoop κ ι τ} {t : τ} (ht : l.parser t = .default)
    (hhandles : l.handles ⟨0x01, List.replicate 32 0x00⟩)
    (hbefore : (Run.exec l.step (t, .empty) (brokenOff κ ι 32)).map
        (fun r => (l.isOpen r.1, r.2.earlier, r.2.current)) =
      .ok (true, [0xFF, 0x01, 0x20], List.replicate 32 0x00)) :
    ¬ Run.EachStep l.step (t, .empty) (brokenOff κ ι 33) l.OneConnection := by
  rw [SliderLoop.oneConnection_iff ht]
  intro hstay
  have hconcat : brokenOff κ ι 33 = brokenOff κ ι 32 ++ [.byte 0x00] := rfl
  obtain ⟨r', hr', -⟩ := SliderLoop.exists_exec ht (brokenOff κ ι 33)
  rw [hconcat] at hr' hstay
  obtain ⟨r, hr, hlast⟩ := (Run.exec_concat_eq_ok _).mp hr'
  rw [hr] at hbefore
  simp only [Except.map, Except.ok.injEq, Prod.mk.injEq] at hbefore
  obtain ⟨hopen, hearlier, hcurrent⟩ := hbefore
  have hnext := hstay _ _ r r' (List.prefix_refl _) hr hlast 0x00 rfl hopen
  rw [SliderStream.all, hearlier, hcurrent] at hnext
  refine hnext (by decide) ⟨by decide, by decide, by decide⟩ ?_
  have hpacket : sliderPacketOf
      (frameBytes ([0xFF, 0x01, 0x20] ++ List.replicate 32 0x00 ++ [0x00])) =
        ⟨0x01, List.replicate 32 0x00⟩ := by decide
  rwa [hpacket]

/-- The read fails behind the first three bytes of a scan frame, and the next connection brings
zeros: the last of them completes the frame, in both threads. -/
theorem packet_of_two_connections :
    ¬ Run.EachStep chuniLoop.step (.init .default .default, .empty) (brokenOff _ _ 33)
        chuniLoop.OneConnection ∧
      ¬ Run.EachStep mercuryLoop.step (.init .default .default, .empty) (brokenOff _ _ 33)
        mercuryLoop.OneConnection :=
  ⟨brokenOff_mixes rfl (by decide) (by decide +kernel),
    brokenOff_mixes rfl (by decide) (by decide +kernel)⟩

end Affine
