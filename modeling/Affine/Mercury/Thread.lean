import Affine.Core.Port
import Affine.Core.Slider

set_option relaxedAutoImplicit false
set_option autoImplicit false

/-!
# The Mercury touch thread

The shared pages, the calls of the game on the control page, and the loop of `mercury_thread`
(`affine-mercury/src/lib.rs`). The callback of the game and the log are left out, and so are the
colours of `set_leds`: the thread looks at their sequence and sends none of them.

## Main definitions

* `Affine.MercuryStatePage`, `Affine.MercuryControlPage` with the calls of the game.
* `Affine.MercuryTick` — what the board and the system do in a pass.
* `Affine.MercuryThread`, `Affine.MercuryThread.pass` — the thread with its pages, and a pass.

## Main results

* `Affine.MercuryThread.applyPacket_eq_ok` — a packet never leaves a buffer.
-/

namespace Affine

open Slice (Exec)

/-- `MercuryStatePage`, without its reserved bytes. -/
structure MercuryStatePage where
  opbtn : UInt8
  gamebtn : UInt8
  connected : UInt8
  cells : List.Vector UInt8 240
  sequence : UInt64
  deriving DecidableEq

/-- `MercuryStatePage::default`. -/
def MercuryStatePage.default : MercuryStatePage where
  opbtn := 0
  gamebtn := 0
  connected := 0
  cells := List.Vector.replicate 240 0
  sequence := 0

/-- `MercuryControlPage`, without its reserved bytes and the colours. -/
structure MercuryControlPage where
  active : UInt8
  ledsSequence : UInt64
  deriving DecidableEq

/-- `MercuryControlPage::default`. -/
def MercuryControlPage.default : MercuryControlPage where
  active := 0
  ledsSequence := 0

namespace MercuryControlPage

/-- `MercuryRuntime::start`. -/
def start (page : MercuryControlPage) : MercuryControlPage := { page with active := 1 }

/-- `MercuryRuntime::set_leds`. -/
def setLeds (page : MercuryControlPage) : MercuryControlPage :=
  { page with ledsSequence := page.ledsSequence + 1 }

end MercuryControlPage

/-- What the board and the system do in a pass of the loop. -/
structure MercuryTick where
  /-- `find_any` finds a board. -/
  found : Bool
  /-- The port opens. -/
  opens : Bool
  /-- What the port does with the frame that starts the scan. -/
  takes : PortWrite
  /-- The result of the read. -/
  read : PortRead 64

/-- `mercury_thread`: the shared pages, and the variables of the thread. -/
structure MercuryThread where
  statePage : MercuryStatePage
  controlPage : MercuryControlPage
  port : SerialPort
  parser : SliderParser
  lastActive : Bool
  lastLedsSequence : UInt64

namespace MercuryThread

/-- The thread at its start, on any pages: they are shared and may have been used before. -/
def init (statePage : MercuryStatePage) (controlPage : MercuryControlPage) : MercuryThread where
  statePage := statePage
  controlPage := controlPage
  port := .default
  parser := .default
  lastActive := false
  lastLedsSequence := 0

/-- `apply_cells_frame`, without the callback. -/
def applyCellsFrame (t : MercuryThread) (cells : List.Vector Bool 240) : MercuryThread :=
  { t with
    statePage := { t.statePage with
      connected := 1
      cells := cells.map fun value => if value then 1 else 0
      sequence := t.statePage.sequence + 1 } }

/-- The cells in the payload of a scan frame: the bits of its bytes, the lowest first. -/
def cellsOf (bytes : List UInt8) : List.Vector Bool 240 :=
  .ofFn fun i => bytes.getD (i / 8) 0 &&& (1 <<< UInt8.ofNat (i % 8)) ≠ 0

/-- What the thread does with a packet. -/
def applyPacket (t : MercuryThread) (packet : SliderPacket) : Exec MercuryThread :=
  if packet.cmd = sliderCmdAutoScan ∧ 30 ≤ packet.payload.length then do
    let bytes ← Slice.range packet.payload 0 30
    return t.applyCellsFrame (cellsOf bytes)
  else return t

/-- The loop over the bytes of a read. -/
def receive (t : MercuryThread) : List UInt8 → Exec MercuryThread
  | [] => .ok t
  | byte :: bytes => do
    let (packet, parser) ← t.parser.push byte
    let t := { t with parser := parser }
    match packet with
    | some packet => receive (← t.applyPacket packet) bytes
    | none => receive t bytes

/-- The start command of a pass, and the sequence of the LEDs. -/
def sendActive (t : MercuryThread) (tick : MercuryTick) : MercuryThread :=
  let control := t.controlPage
  let active : Bool := control.active ≠ 0
  let t :=
    if active ∧ ¬ t.lastActive then
      { t with port := (sendSliderFrame (t.port.write tick.takes) sliderCmdAutoScanStart []).2 }
    else t
  let t := { t with lastActive := active }
  if control.ledsSequence ≠ t.lastLedsSequence then
    { t with lastLedsSequence := control.ledsSequence }
  else t

/-- The part of a pass that runs with an open port. -/
def serve (t : MercuryThread) (tick : MercuryTick) : Exec MercuryThread :=
  let t := t.sendActive tick
  match tick.read with
  | none => .ok { t with port := t.port.close, statePage := .default }
  | some bytes => t.receive bytes.1

/-- What the thread does when it has opened the port. -/
def markConnected (t : MercuryThread) : MercuryThread :=
  { t with
    statePage := { t.statePage with
      connected := 1
      sequence := t.statePage.sequence + 1 }
    lastActive := false }

/-- A pass of the loop. -/
def pass (t : MercuryThread) (tick : MercuryTick) : Exec MercuryThread :=
  if ¬ t.port.isOpen then
    if ¬ tick.found then .ok t
    else
      let (opened, port) := t.port.reopen tick.opens
      let t := { t with port := port }
      if ¬ opened then .ok t else t.markConnected.serve tick
  else t.serve tick

/-! ## What a pass does -/

/-- A packet changes the state page at most. -/
lemma applyPacket_eq_ok (t : MercuryThread) (packet : SliderPacket) :
    ∃ page, t.applyPacket packet = .ok { t with statePage := page } := by
  unfold applyPacket
  split
  · rename_i h
    rw [Slice.range_eq_ok (Nat.zero_le 30) h.2]
    exact ⟨_, rfl⟩
  · exact ⟨t.statePage, rfl⟩

/-- The commands of a pass neither open nor close the port, and leave the decoder and the state page
alone. -/
lemma sendActive_frame (t : MercuryThread) (tick : MercuryTick) :
    (t.sendActive tick).port.isOpen = t.port.isOpen ∧
      (t.sendActive tick).parser = t.parser ∧ (t.sendActive tick).statePage = t.statePage := by
  unfold sendActive
  dsimp only
  split <;> split <;> simp [sendSliderFrame]

end MercuryThread

end Affine
