import Affine.Core.Port
import Affine.Core.Slider

set_option relaxedAutoImplicit false
set_option autoImplicit false

/-!
# The CHUNITHM slider thread

The shared pages, the calls of the game on the control page, and the loop of `chuni_thread`
(`affine-chuni/src/lib.rs`). One pass of the loop reads the control page once, so a call of the
game during a pass counts as one before or behind it.

What the slider and the system do in a pass is a parameter: whether a board is found and opens,
which commands the port takes, and what the read at the end returns. The callback of the game and
the log are left out.

## Main definitions

* `Affine.ChuniStatePage`, `Affine.ChuniControlPage` with the calls of the game.
* `Affine.ChuniTick` — what the slider and the system do in a pass.
* `Affine.ChuniThread`, `Affine.ChuniThread.pass` — the thread with its pages, and a pass.

## Main results

* `Affine.ChuniThread.pass_ok` — a pass does not leave a buffer.
* `Affine.ChuniThread.pass_open` — what a pass that ends with an open port has sent.
-/

namespace Affine

open Slice (Exec)

/-- `ChuniStatePage`, without its reserved bytes. -/
structure ChuniStatePage where
  opbtn : UInt8
  beams : UInt8
  connected : UInt8
  coinCounter : UInt16
  pressure : List.Vector UInt8 32
  sequence : UInt64
  deriving DecidableEq

/-- `ChuniStatePage::default`. -/
def ChuniStatePage.default : ChuniStatePage where
  opbtn := 0
  beams := 0
  connected := 0
  coinCounter := 0
  pressure := List.Vector.replicate 32 0
  sequence := 0

/-- `ChuniControlPage`, without its reserved bytes. -/
structure ChuniControlPage where
  active : UInt8
  sliderLedsSequence : UInt64
  sliderLeds : List.Vector UInt8 96
  airLedsSequence : UInt64
  airLeds : List.Vector UInt8 3
  deriving DecidableEq

/-- `ChuniControlPage::default`. -/
def ChuniControlPage.default : ChuniControlPage where
  active := 0
  sliderLedsSequence := 0
  sliderLeds := List.Vector.replicate 96 0
  airLedsSequence := 0
  airLeds := List.Vector.replicate 3 0

namespace ChuniControlPage

/-- `ChuniRuntime::start`. -/
def start (page : ChuniControlPage) : ChuniControlPage := { page with active := 1 }

/-- `ChuniRuntime::stop`. -/
def stop (page : ChuniControlPage) : ChuniControlPage := { page with active := 0 }

/-- `ChuniRuntime::set_leds`. -/
def setLeds (page : ChuniControlPage) (rgb : List UInt8) : ChuniControlPage :=
  if h : rgb.length < 96 then page
  else
    { page with
      sliderLeds := ⟨rgb.take 96, by simp; omega⟩
      sliderLedsSequence := page.sliderLedsSequence + 1 }

/-- `ChuniRuntime::set_air_leds_from_colors`. -/
def setAirLedsFromColors (page : ChuniControlPage) (board : UInt8) (rgb : List UInt8) :
    ChuniControlPage :=
  if h : board ≠ 0 ∨ rgb.length < 153 then page
  else
    { page with
      airLeds := ⟨[rgb[152], rgb[150], rgb[151]], rfl⟩
      airLedsSequence := page.airLedsSequence + 1 }

end ChuniControlPage

/-- What the slider and the system do in a pass of the loop. -/
structure ChuniTick where
  /-- `find_any` finds a board. -/
  found : Bool
  /-- The port opens. -/
  opens : Bool
  /-- What the port does with the frame that has a command. -/
  takes : UInt8 → PortWrite
  /-- The result of the read. -/
  read : PortRead 64

/-- `chuni_thread`: the shared pages, and the variables of the thread. -/
structure ChuniThread where
  statePage : ChuniStatePage
  controlPage : ChuniControlPage
  port : SerialPort
  parser : SliderParser
  lastActive : Bool
  lastSliderLedsSequence : UInt64
  lastAirLedsSequence : UInt64

namespace ChuniThread

/-- The thread at its start, on any pages: they are shared and may have been used before. -/
def init (statePage : ChuniStatePage) (controlPage : ChuniControlPage) : ChuniThread where
  statePage := statePage
  controlPage := controlPage
  port := .default
  parser := .default
  lastActive := false
  lastSliderLedsSequence := 0
  lastAirLedsSequence := 0

/-- `send_slider_frame` on the port of the thread; its result is ignored. -/
def send (t : ChuniThread) (tick : ChuniTick) (cmd : UInt8) (payload : List UInt8) : ChuniThread :=
  { t with port := (sendSliderFrame (t.port.write (tick.takes cmd)) cmd payload).2 }

/-- `apply_scan_frame`, without the callback. -/
def applyScanFrame (t : ChuniThread) (pressure : List.Vector UInt8 32) (beams : Option UInt8) :
    ChuniThread :=
  { t with
    statePage := { t.statePage with
      connected := 1
      pressure := pressure
      beams := beams.getD t.statePage.beams
      sequence := t.statePage.sequence + 1 } }

/-- What the thread does with a packet. -/
def applyPacket (t : ChuniThread) (packet : SliderPacket) : Exec ChuniThread :=
  if packet.cmd = sliderCmdAutoScan ∧ 32 ≤ packet.payload.length then do
    let pressure ← Slice.copyFromSlice 32 (← Slice.range packet.payload 0 32)
    return t.applyScanFrame pressure packet.payload[32]?
  else if packet.cmd = sliderCmdAutoAir then
    match packet.payload.head? with
    | some beams =>
      return { t with
        statePage := { t.statePage with
          beams := beams
          connected := 1
          sequence := t.statePage.sequence + 1 } }
    | none => return t
  else return t

/-- The loop over the bytes of a read. -/
def receive (t : ChuniThread) : List UInt8 → Exec ChuniThread
  | [] => .ok t
  | byte :: bytes => do
    let (packet, parser) ← t.parser.push byte
    let t := { t with parser := parser }
    match packet with
    | some packet => receive (← t.applyPacket packet) bytes
    | none => receive t bytes

/-- The start and stop commands of a pass. -/
def sendActive (t : ChuniThread) (tick : ChuniTick) : ChuniThread :=
  let active : Bool := t.controlPage.active ≠ 0
  if active ≠ t.lastActive then
    let t :=
      if active then
        (t.send tick sliderCmdAutoAirStart []).send tick sliderCmdAutoScanStart []
      else
        t.send tick sliderCmdAutoScanStop []
    { t with lastActive := active }
  else t

/-- The LED commands of a pass. -/
def sendLeds (t : ChuniThread) (tick : ChuniTick) : ChuniThread :=
  let control := t.controlPage
  let t :=
    if control.sliderLedsSequence ≠ t.lastSliderLedsSequence then
      { t.send tick sliderCmdSetLed control.sliderLeds.toList with
        lastSliderLedsSequence := control.sliderLedsSequence }
    else t
  if control.airLedsSequence ≠ t.lastAirLedsSequence then
    { t.send tick sliderCmdSetAirLed control.airLeds.toList with
      lastAirLedsSequence := control.airLedsSequence }
  else t

/-- The part of a pass that runs with an open port. -/
def serve (t : ChuniThread) (tick : ChuniTick) : Exec ChuniThread :=
  let t := (t.sendActive tick).sendLeds tick
  match tick.read with
  | none => .ok { t with port := t.port.close, statePage := .default }
  | some bytes => t.receive bytes.1

/-- What the thread does when it has opened the port. -/
def markConnected (t : ChuniThread) : ChuniThread :=
  { t with
    statePage := { t.statePage with
      connected := 1
      sequence := t.statePage.sequence + 1 }
    lastActive := false }

/-- A pass of the loop. -/
def pass (t : ChuniThread) (tick : ChuniTick) : Exec ChuniThread :=
  if ¬ t.port.isOpen then
    if ¬ tick.found then .ok t
    else
      let (opened, port) := t.port.reopen tick.opens
      let t := { t with port := port }
      if ¬ opened then .ok t else t.markConnected.serve tick
  else t.serve tick

/-! ## What a pass does -/

variable {t u : ChuniThread} {tick : ChuniTick}

/-- A packet changes the state page at most. -/
lemma applyPacket_eq_ok (t : ChuniThread) (packet : SliderPacket) :
    ∃ page, t.applyPacket packet = .ok { t with statePage := page } := by
  unfold applyPacket
  split
  · rename_i h
    rw [Slice.range_eq_ok (Nat.zero_le 32) h.2]
    have hlen : ((packet.payload.take 32).drop 0).length = 32 := by
      have := h.2
      simp
      omega
    rw [Slice.ok_bind, Slice.copyFromSlice_eq_ok hlen]
    exact ⟨_, rfl⟩
  · split
    · split
      · exact ⟨_, rfl⟩
      · exact ⟨t.statePage, rfl⟩
    · exact ⟨t.statePage, rfl⟩

/-- The bytes of a read change the state page and the decoder. -/
lemma receive_eq_ok (hlen : t.parser.len ≤ 128) (bytes : List UInt8) :
    ∃ page parser, parser.len ≤ 128 ∧
      t.receive bytes = .ok { t with statePage := page, parser := parser } := by
  induction bytes generalizing t with
  | nil => exact ⟨t.statePage, t.parser, hlen, rfl⟩
  | cons byte bytes ih =>
    obtain ⟨packet, parser, hpush, hparser, -⟩ := SliderParser.push_spec hlen byte
    cases packet with
    | none =>
      rw [receive, hpush]
      exact ih (t := { t with parser := parser }) hparser
    | some packet =>
      obtain ⟨page, hpage⟩ := applyPacket_eq_ok { t with parser := parser } packet
      have hreceive : t.receive (byte :: bytes) =
          ({ t with parser := parser }.applyPacket packet >>= fun t => t.receive bytes) := by
        rw [receive, hpush]
        rfl
      rw [hreceive, hpage]
      exact ih (t := { t with statePage := page, parser := parser }) hparser

/-- The frame with a command, if the port takes it. -/
def taken (tick : ChuniTick) (cmd : UInt8) (payload : List UInt8) : List (List UInt8) :=
  if (tick.takes cmd).ok then [sendSliderFrame id cmd payload] else []

/-- The bytes of the frame with a command that go out. -/
def out (tick : ChuniTick) (cmd : UInt8) (payload : List UInt8) : List UInt8 :=
  (tick.takes cmd).out (sendSliderFrame id cmd payload)

/-- A command on an open port. -/
lemma send_eq (hopen : t.port.isOpen = true) (cmd : UInt8) (payload : List UInt8) :
    t.send tick cmd payload =
      { t with
        port := ⟨true, t.port.sent ++ taken tick cmd payload,
          t.port.wire ++ out tick cmd payload⟩ } := by
  obtain ⟨sp, cp, ⟨isOpen, sent, wire⟩, parser, la, ls, lair⟩ := t
  obtain rfl : isOpen = true := hopen
  cases htakes : (tick.takes cmd).ok <;>
    simp [send, sendSliderFrame, SerialPort.write, taken, out, htakes]

/-- The slider is to be active. -/
def wanted (t : ChuniThread) : Bool := t.controlPage.active ≠ 0

/-- The start and stop frames of a pass that the port takes. -/
def activeFrames (t : ChuniThread) (tick : ChuniTick) : List (List UInt8) :=
  if t.wanted = t.lastActive then []
  else if t.wanted then taken tick sliderCmdAutoAirStart [] ++ taken tick sliderCmdAutoScanStart []
  else taken tick sliderCmdAutoScanStop []

/-- The LED frames of a pass that the port takes. -/
def ledFrames (t : ChuniThread) (tick : ChuniTick) : List (List UInt8) :=
  (if t.controlPage.sliderLedsSequence = t.lastSliderLedsSequence then []
    else taken tick sliderCmdSetLed t.controlPage.sliderLeds.toList) ++
  (if t.controlPage.airLedsSequence = t.lastAirLedsSequence then []
    else taken tick sliderCmdSetAirLed t.controlPage.airLeds.toList)

/-- The start and stop commands of a pass, on an open port. -/
lemma sendActive_eq (hopen : t.port.isOpen = true) (tick : ChuniTick) :
    ∃ wire, t.sendActive tick =
      { t with
        port := ⟨true, t.port.sent ++ t.activeFrames tick, wire⟩
        lastActive := t.wanted } := by
  obtain ⟨sp, cp, ⟨isOpen, sent, wire⟩, parser, la, ls, lair⟩ := t
  obtain rfl : isOpen = true := hopen
  unfold sendActive activeFrames wanted
  by_cases hactive : cp.active ≠ 0 <;> cases la <;> simp [hactive, send_eq]

/-- The LED commands of a pass, on an open port. -/
lemma sendLeds_eq (hopen : t.port.isOpen = true) (tick : ChuniTick) :
    ∃ wire, t.sendLeds tick =
      { t with
        port := ⟨true, t.port.sent ++ t.ledFrames tick, wire⟩
        lastSliderLedsSequence := t.controlPage.sliderLedsSequence
        lastAirLedsSequence := t.controlPage.airLedsSequence } := by
  obtain ⟨sp, cp, ⟨isOpen, sent, wire⟩, parser, la, ls, lair⟩ := t
  obtain rfl : isOpen = true := hopen
  unfold sendLeds ledFrames
  by_cases hslider : cp.sliderLedsSequence = ls <;> by_cases hair : cp.airLedsSequence = lair <;>
    simp [hslider, hair, send_eq]

/-- The thread with its port open: as it is, or just opened. -/
def opened (t : ChuniThread) : ChuniThread :=
  if t.port.isOpen then t else { t with port := .opened }.markConnected

/-- The port is open at the end of the pass. -/
def EndsOpen (t : ChuniThread) (tick : ChuniTick) : Prop :=
  (t.port.isOpen ∨ tick.found ∧ tick.opens) ∧ tick.read ≠ none

/-- A port that was just opened is open. -/
lemma opened_isOpen (t : ChuniThread) : t.opened.port.isOpen = true := by
  unfold opened
  split
  · assumption
  · rfl

/-- Opening the port leaves the decoder. -/
lemma opened_parser_eq (t : ChuniThread) : t.opened.parser = t.parser := by
  unfold opened
  split <;> rfl

/-- Opening the port leaves the control page. -/
lemma opened_controlPage (t : ChuniThread) : t.opened.controlPage = t.controlPage := by
  unfold opened
  split <;> rfl

/-- Opening the port leaves whether the slider is to be active. -/
lemma opened_wanted (t : ChuniThread) : t.opened.wanted = t.wanted := by
  rw [wanted, opened_controlPage, ← wanted]

/-- A pass serves the port if there is one, and otherwise changes nothing. -/
lemma pass_eq (t : ChuniThread) (tick : ChuniTick) :
    t.pass tick =
      if t.port.isOpen ∨ tick.found ∧ tick.opens then t.opened.serve tick else .ok t := by
  obtain ⟨sp, cp, ⟨isOpen, sent, wire⟩, parser, la, ls, lair⟩ := t
  unfold pass opened
  cases isOpen <;> cases hfound : tick.found <;> cases hopens : tick.opens <;>
    simp [SerialPort.reopen, SerialPort.close]

/-- What serving an open port does: the frames that the port takes are sent, and the read changes
the state page and the decoder, or closes the port.

**Proof sketch.** The two send sections first, then the read, which is up to the port. -/
lemma serve_eq_ok (hopen : t.port.isOpen = true) (hlen : t.parser.len ≤ 128) (tick : ChuniTick) :
    ∃ page parser wire, parser.len ≤ 128 ∧ t.serve tick = .ok
      { t with
        statePage := page
        port := ⟨tick.read.isSome, t.port.sent ++ t.activeFrames tick ++ t.ledFrames tick, wire⟩
        parser := parser
        lastActive := t.wanted
        lastSliderLedsSequence := t.controlPage.sliderLedsSequence
        lastAirLedsSequence := t.controlPage.airLedsSequence } := by
  obtain ⟨wire, hsent⟩ : ∃ wire, (t.sendActive tick).sendLeds tick =
      { t with
        port := ⟨true, t.port.sent ++ t.activeFrames tick ++ t.ledFrames tick, wire⟩
        lastActive := t.wanted
        lastSliderLedsSequence := t.controlPage.sliderLedsSequence
        lastAirLedsSequence := t.controlPage.airLedsSequence } := by
    obtain ⟨wire, hactive⟩ := sendActive_eq hopen tick
    obtain ⟨wire', hleds⟩ := sendLeds_eq (t := t.sendActive tick) (by rw [hactive]) tick
    rw [hactive] at hleds
    rw [hactive, hleds]
    exact ⟨wire', rfl⟩
  unfold serve
  rw [hsent]
  cases hread : tick.read with
  | none => exact ⟨.default, t.parser, wire, hlen, rfl⟩
  | some bytes =>
    obtain ⟨page, parser, hparser, hreceive⟩ := receive_eq_ok (t := { t with
        port := ⟨true, t.port.sent ++ t.activeFrames tick ++ t.ledFrames tick, wire⟩
        lastActive := t.wanted
        lastSliderLedsSequence := t.controlPage.sliderLedsSequence
        lastAirLedsSequence := t.controlPage.airLedsSequence }) hlen bytes.1
    exact ⟨page, parser, wire, hparser, hreceive⟩

/-- **A pass never leaves a buffer**, and keeps the bound of the decoder.

**Proof sketch.** Serving the port is the only part with buffers (`serve_eq_ok`). -/
theorem pass_ok (hlen : t.parser.len ≤ 128) (tick : ChuniTick) :
    ∃ u, t.pass tick = .ok u ∧ u.parser.len ≤ 128 := by
  rw [pass_eq]
  split
  · obtain ⟨page, parser, wire, hparser, hserve⟩ :=
      serve_eq_ok t.opened_isOpen (by rwa [opened_parser_eq]) tick
    exact ⟨_, hserve, hparser⟩
  · exact ⟨t, rfl, hlen⟩

/-- **What a pass does**: the port is open behind it exactly if it was open or could be opened and
the read did not fail. Then `lastActive` is what the game wants, and the frames that the port took
are sent behind the earlier ones of the connection. -/
theorem pass_open (hlen : t.parser.len ≤ 128) (h : t.pass tick = .ok u) :
    u.controlPage = t.controlPage ∧ (u.port.isOpen ↔ t.EndsOpen tick) ∧
      (u.port.isOpen → u.lastActive = t.wanted ∧
        u.port.sent = t.opened.port.sent ++ t.opened.activeFrames tick ++
          t.opened.ledFrames tick) := by
  rw [pass_eq] at h
  split at h
  · rename_i hopen
    obtain ⟨page, parser, wire, hparser, hserve⟩ :=
      serve_eq_ok t.opened_isOpen (by rwa [opened_parser_eq]) tick
    rw [hserve] at h
    cases h
    refine ⟨t.opened_controlPage, ?_, fun _ => ⟨?_, rfl⟩⟩
    · simp [EndsOpen, hopen, Option.isSome_iff_ne_none]
    · exact t.opened_wanted
  · rename_i hopen
    cases h
    have hclosed : ¬ t.port.isOpen := fun h => hopen (.inl h)
    exact ⟨rfl, iff_of_false hclosed fun h => hopen h.1, fun h => absurd h hclosed⟩

/-- Behind a pass that ends with an open port, the remembered sequences are those of the control
page. -/
lemma pass_sequences (hlen : t.parser.len ≤ 128) (h : t.pass tick = .ok u) (hu : u.port.isOpen) :
    u.lastSliderLedsSequence = t.controlPage.sliderLedsSequence ∧
      u.lastAirLedsSequence = t.controlPage.airLedsSequence := by
  rw [pass_eq] at h
  split at h
  · obtain ⟨page, parser, wire, -, hserve⟩ :=
      serve_eq_ok t.opened_isOpen (by rwa [opened_parser_eq]) tick
    rw [hserve] at h
    cases h
    rw [opened_controlPage]
    exact ⟨rfl, rfl⟩
  · rename_i hclosed
    cases h
    exact absurd (.inl hu) hclosed

end ChuniThread

end Affine
