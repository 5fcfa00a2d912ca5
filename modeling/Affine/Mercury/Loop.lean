import Affine.Core.SliderLoop
import Affine.Mercury.Thread

set_option relaxedAutoImplicit false
set_option autoImplicit false

/-!
# The Mercury touch thread in single actions

`mercury_thread` as a `SliderLoop`. A run of its passes and of the calls of the game is a run of the
actions in which they are made (`MercuryThread.exec_step`).

## Main definitions

* `Affine.MercuryEvent`, `Affine.MercuryThread.step` — the calls of the game and the passes.
* `Affine.mercuryLoop` — the thread as a slider loop.

## Main results

* `Affine.MercuryThread.pass_eq_exec`, `Affine.MercuryThread.exec_step`.
-/

namespace Affine

open Slice (Exec)

/-- A call of the game, or a pass of the thread. -/
inductive MercuryEvent
  | start
  | setLeds
  | pass (tick : MercuryTick)

/-- An event, for the thread. -/
def MercuryThread.step (e : MercuryEvent) (t : MercuryThread) : Exec MercuryThread :=
  match e with
  | .start => .ok { t with controlPage := t.controlPage.start }
  | .setLeds => .ok { t with controlPage := t.controlPage.setLeds }
  | .pass tick => t.pass tick

/-- `mercury_thread`. A packet is handled if it is a scan frame with all cells. -/
def mercuryLoop :
    SliderLoop (MercuryControlPage → MercuryControlPage) MercuryTick MercuryThread where
  isOpen t := t.port.isOpen
  parser t := t.parser
  setParser parser t := { t with parser := parser }
  handles packet := packet.cmd = sliderCmdAutoScan ∧ 30 ≤ packet.payload.length
  call f t := { t with controlPage := f t.controlPage }
  connect t := { t with port := .opened }.markConnected
  serve tick t := t.sendActive tick
  applyPacket packet t := t.applyPacket packet
  close t := { t with port := t.port.close, statePage := .default }
  connect_isOpen _ := rfl
  serve_isOpen tick t := (t.sendActive_frame tick).1
  setParser_isOpen _ _ := rfl
  applyPacket_isOpen packet t u h := by
    obtain ⟨page, hpage⟩ := t.applyPacket_eq_ok packet
    obtain rfl := Except.ok.inj (hpage.symm.trans h)
    rfl
  parser_setParser _ _ := rfl
  parser_call _ _ := rfl
  parser_connect _ := rfl
  parser_serve tick t := (t.sendActive_frame tick).2.1
  parser_applyPacket packet t u h := by
    obtain ⟨page, hpage⟩ := t.applyPacket_eq_ok packet
    obtain rfl := Except.ok.inj (hpage.symm.trans h)
    rfl
  parser_close _ := rfl
  applyPacket_ok packet t := (t.applyPacket_eq_ok packet).imp' _ fun _ h => h

/-- The actions of a call of the game, or of a pass. -/
def MercuryEvent.actions :
    MercuryEvent → List (SliderAction (MercuryControlPage → MercuryControlPage) MercuryTick)
  | .start => [.call .start]
  | .setLeds => [.call .setLeds]
  | .pass tick => SliderAction.ofPass (tick.found && tick.opens) tick tick.read

namespace MercuryThread

/-- The bytes of a read are handled one by one. -/
lemma receive_cons (t : MercuryThread) (b : UInt8) (bytes : List UInt8) :
    t.receive (b :: bytes) = mercuryLoop.receive b t >>= fun u => u.receive bytes := by
  rw [receive, SliderLoop.receive]
  show (t.parser.push b >>= _) = (t.parser.push b >>= _) >>= _
  cases t.parser.push b with
  | error e => rfl
  | ok answer =>
    obtain ⟨packet, parser⟩ := answer
    cases packet <;> rfl

/-- Serving an open port is writing the commands, and then the read. -/
lemma serve_eq (t : MercuryThread) (tick : MercuryTick) :
    t.serve tick = mercuryLoop.finish tick.read (mercuryLoop.serve tick t) := by
  unfold serve SliderLoop.finish
  cases tick.read with
  | none => rfl
  | some bytes => exact mercuryLoop.exec_receive (fun _ => rfl) receive_cons _ bytes.1

/-- A pass is the run of its actions. -/
theorem pass_eq_exec (t : MercuryThread) (tick : MercuryTick) :
    t.pass tick =
      Run.exec mercuryLoop.act t
        (SliderAction.ofPass (tick.found && tick.opens) tick tick.read) := by
  rw [mercuryLoop.exec_ofPass, SliderLoop.opened, ← serve_eq]
  obtain ⟨sp, cp, ⟨isOpen, sent, wire⟩, parser, la, ls⟩ := t
  unfold pass
  cases isOpen <;> cases hfound : tick.found <;> cases hopens : tick.opens <;>
    simp [SerialPort.reopen, SerialPort.close, mercuryLoop]

/-- **A run of passes and calls is a run of their actions.** -/
theorem exec_step (t : MercuryThread) (events : List MercuryEvent) :
    Run.exec step t events = Run.exec mercuryLoop.act t (events.flatMap MercuryEvent.actions) := by
  refine Run.exec_flatMap step (fun e t => ?_) t events
  cases e with
  | pass tick => exact t.pass_eq_exec tick
  | start | setLeds => rfl

end MercuryThread

end Affine
