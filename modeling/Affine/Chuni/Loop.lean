import Affine.Chuni.Started
import Affine.Core.SliderLoop

set_option relaxedAutoImplicit false
set_option autoImplicit false

/-!
# The CHUNITHM slider thread in single actions

`chuni_thread` as a `SliderLoop`. A run of its passes and of the calls of the game is a run of the
actions in which they are made (`ChuniThread.exec_step`).

## Main definitions

* `Affine.chuniLoop` — the thread as a slider loop.
* `Affine.ChuniEvent.actions` — the actions of a pass or a call.

## Main results

* `Affine.ChuniThread.pass_eq_exec`, `Affine.ChuniThread.exec_step`.
-/

namespace Affine

open Slice (Exec)

namespace ChuniThread

/-- Writing a command neither opens nor closes the port, and leaves the decoder and the state page
alone. -/
lemma send_frame (t : ChuniThread) (tick : ChuniTick) (cmd : UInt8) (payload : List UInt8) :
    (t.send tick cmd payload).port.isOpen = t.port.isOpen ∧
      (t.send tick cmd payload).parser = t.parser ∧
      (t.send tick cmd payload).statePage = t.statePage :=
  ⟨t.port.write_isOpen (tick.takes cmd) _, rfl, rfl⟩

/-- So do the commands of a pass. -/
lemma sendAll_frame (t : ChuniThread) (tick : ChuniTick) :
    ((t.sendActive tick).sendLeds tick).port.isOpen = t.port.isOpen ∧
      ((t.sendActive tick).sendLeds tick).parser = t.parser ∧
      ((t.sendActive tick).sendLeds tick).statePage = t.statePage := by
  have hactive : (t.sendActive tick).port.isOpen = t.port.isOpen ∧
      (t.sendActive tick).parser = t.parser ∧ (t.sendActive tick).statePage = t.statePage := by
    unfold sendActive
    dsimp only
    split
    · split
      · obtain ⟨hopen, hparser, hpage⟩ := t.send_frame tick sliderCmdAutoAirStart []
        obtain ⟨hopen', hparser', hpage'⟩ :=
          (t.send tick sliderCmdAutoAirStart []).send_frame tick sliderCmdAutoScanStart []
        exact ⟨hopen'.trans hopen, hparser'.trans hparser, hpage'.trans hpage⟩
      · exact t.send_frame tick sliderCmdAutoScanStop []
    · exact ⟨rfl, rfl, rfl⟩
  obtain ⟨hopen, hparser, hpage⟩ := hactive
  rw [← hopen, ← hparser, ← hpage]
  generalize t.sendActive tick = u
  unfold sendLeds
  dsimp only
  split <;> split
  · exact ⟨by simp [send, sendSliderFrame], rfl, rfl⟩
  · exact u.send_frame tick sliderCmdSetLed _
  · exact u.send_frame tick sliderCmdSetAirLed _
  · exact ⟨rfl, rfl, rfl⟩

end ChuniThread

/-- `chuni_thread`. A packet is handled if it is a scan frame with the pressure of all cells, or an
air frame. -/
def chuniLoop : SliderLoop (ChuniControlPage → ChuniControlPage) ChuniTick ChuniThread where
  isOpen t := t.port.isOpen
  parser t := t.parser
  setParser parser t := { t with parser := parser }
  handles packet :=
    packet.cmd = sliderCmdAutoScan ∧ 32 ≤ packet.payload.length ∨
      packet.cmd = sliderCmdAutoAir ∧ packet.payload ≠ []
  call f t := { t with controlPage := f t.controlPage }
  connect t := { t with port := .opened }.markConnected
  serve tick t := (t.sendActive tick).sendLeds tick
  applyPacket packet t := t.applyPacket packet
  close t := { t with port := t.port.close, statePage := .default }
  connect_isOpen _ := rfl
  serve_isOpen tick t := (t.sendAll_frame tick).1
  setParser_isOpen _ _ := rfl
  applyPacket_isOpen packet t u h := by
    obtain ⟨page, hpage⟩ := t.applyPacket_eq_ok packet
    obtain rfl := Except.ok.inj (hpage.symm.trans h)
    rfl
  parser_setParser _ _ := rfl
  parser_call _ _ := rfl
  parser_connect _ := rfl
  parser_serve tick t := (t.sendAll_frame tick).2.1
  parser_applyPacket packet t u h := by
    obtain ⟨page, hpage⟩ := t.applyPacket_eq_ok packet
    obtain rfl := Except.ok.inj (hpage.symm.trans h)
    rfl
  parser_close _ := rfl
  applyPacket_ok packet t := (t.applyPacket_eq_ok packet).imp' _ fun _ h => h

/-- The actions of a call of the game, or of a pass. -/
def ChuniEvent.actions :
    ChuniEvent → List (SliderAction (ChuniControlPage → ChuniControlPage) ChuniTick)
  | .start => [.call .start]
  | .stop => [.call .stop]
  | .setLeds rgb => [.call (·.setLeds rgb)]
  | .setAirLedsFromColors board rgb => [.call (·.setAirLedsFromColors board rgb)]
  | .pass tick => SliderAction.ofPass (tick.found && tick.opens) tick tick.read

namespace ChuniThread

/-- The bytes of a read are handled one by one. -/
lemma receive_cons (t : ChuniThread) (b : UInt8) (bytes : List UInt8) :
    t.receive (b :: bytes) = chuniLoop.receive b t >>= fun u => u.receive bytes := by
  rw [receive, SliderLoop.receive]
  show (t.parser.push b >>= _) = (t.parser.push b >>= _) >>= _
  cases t.parser.push b with
  | error e => rfl
  | ok answer =>
    obtain ⟨packet, parser⟩ := answer
    cases packet <;> rfl

/-- Serving an open port is writing the commands, and then the read. -/
lemma serve_eq (t : ChuniThread) (tick : ChuniTick) :
    t.serve tick = chuniLoop.finish tick.read (chuniLoop.serve tick t) := by
  unfold serve SliderLoop.finish
  cases tick.read with
  | none => rfl
  | some bytes => exact chuniLoop.exec_receive (fun _ => rfl) receive_cons _ bytes.1

/-- A pass is the run of its actions. -/
theorem pass_eq_exec (t : ChuniThread) (tick : ChuniTick) :
    t.pass tick =
      Run.exec chuniLoop.act t
        (SliderAction.ofPass (tick.found && tick.opens) tick tick.read) := by
  have hopened : chuniLoop.opened t = t.opened := rfl
  rw [pass_eq, chuniLoop.exec_ofPass, hopened, serve_eq]
  exact if_congr (by rw [Bool.and_eq_true]; rfl) rfl rfl

/-- **A run of passes and calls is a run of their actions.** -/
theorem exec_step (t : ChuniThread) (events : List ChuniEvent) :
    Run.exec step t events = Run.exec chuniLoop.act t (events.flatMap ChuniEvent.actions) := by
  refine Run.exec_flatMap step (fun e t => ?_) t events
  cases e with
  | pass tick => exact t.pass_eq_exec tick
  | start | stop | setLeds rgb | setAirLedsFromColors board rgb => rfl

end ChuniThread

end Affine
