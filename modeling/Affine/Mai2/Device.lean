import Affine.Mai2.Frame

set_option relaxedAutoImplicit false
set_option autoImplicit false

/-!
# The device of a player

`DeviceHandle` and its pages (`affine-mai2/src/lib.rs`), and the handlers that the threads of a
player share: `apply_device_frame`, the page part of `disconnect_session`, and
`clear_inputs_on_source_drop`.

## Main definitions

* `Affine.Mai2InputPage`, `Affine.Mai2OutputPage`, `Affine.DeviceHandle` — the shared state.
* `Affine.DeviceHandle.applyDeviceFrame`, `Affine.DeviceHandle.disconnectSession`,
  `Affine.DeviceHandle.clearInputsOnSourceDrop` — the handlers.

## Main results

* `Affine.DeviceHandle.clearInputsOnSourceDrop_touch`,
  `Affine.DeviceHandle.clearInputsOnSourceDrop_buttons` — what is zero after a HID has dropped.
-/

namespace Affine

/-- `Mai2InputPage`, without its reserved bytes. -/
structure Mai2InputPage where
  buttons0 : UInt8
  ioStatus : UInt8
  connected : UInt8
  touch : List.Vector UInt8 7
  sequence : UInt64
  deriving DecidableEq

/-- `[0u8; 7]`: no touch. -/
def noTouch : List.Vector UInt8 7 := List.Vector.replicate 7 0

/-- `Mai2InputPage::default`. -/
def Mai2InputPage.default : Mai2InputPage where
  buttons0 := 0
  ioStatus := 0
  connected := 0
  touch := noTouch
  sequence := 0

/-- `Mai2OutputPage`, without its reserved bytes. -/
structure Mai2OutputPage where
  touchEnabled : UInt8
  buttonsSequence : UInt64
  buttons : List.Vector UInt8 56
  billboardSequence : UInt64
  billboard : List.Vector UInt8 24
  pwmSequence : UInt64
  pwm : List.Vector UInt8 3
  deriving DecidableEq

/-- `Mai2OutputPage::default`. -/
def Mai2OutputPage.default : Mai2OutputPage where
  touchEnabled := 0
  buttonsSequence := 0
  buttons := List.Vector.replicate 56 0
  billboardSequence := 0
  billboard := List.Vector.replicate 24 0
  pwmSequence := 0
  pwm := List.Vector.replicate 3 0

/-- Where a touch state comes from. -/
inductive TouchSource
  | serial
  | touchHid
  | synthetic
  deriving DecidableEq

/-- `DeviceHandle`, without the counters that are only logged. -/
structure DeviceHandle where
  enabled : Bool
  hidConnected : Bool
  vendorConnected : Bool
  touchHidConnected : Bool
  touchFrames : UInt64
  touchSerialFrames : UInt64
  touchHidFrames : UInt64
  touchLastUpdateMs : UInt64
  inputPage : Mai2InputPage
  outputPage : Mai2OutputPage
  deriving DecidableEq

namespace DeviceHandle

/-- `DeviceHandle::new` on fresh pages. -/
def new (enabled : Bool) : DeviceHandle where
  enabled := enabled
  hidConnected := false
  vendorConnected := false
  touchHidConnected := false
  touchFrames := 0
  touchSerialFrames := 0
  touchHidFrames := 0
  touchLastUpdateMs := 0
  inputPage := .default
  outputPage := { Mai2OutputPage.default with touchEnabled := if enabled then 1 else 0 }

/-- The page update with which a source announces itself. -/
def markConnected (d : DeviceHandle) : DeviceHandle :=
  { d with
    inputPage := { d.inputPage with connected := 1, sequence := d.inputPage.sequence + 1 } }

/-- `apply_device_frame`; `now` is the clock when the touch counters are updated. -/
def applyDeviceFrame (d : DeviceHandle) (buttons0 ioStatus : Option UInt8)
    (touch : Option (List.Vector UInt8 7)) (touchSource : TouchSource) (now : UInt64) :
    DeviceHandle :=
  let page := d.inputPage
  let d := { d with
    inputPage := {
      buttons0 := buttons0.getD page.buttons0
      ioStatus := ioStatus.getD page.ioStatus
      connected := 1
      touch := touch.getD page.touch
      sequence := page.sequence + 1 } }
  if touch.isSome then
    { d with
      touchFrames := d.touchFrames + 1
      touchSerialFrames := d.touchSerialFrames + if touchSource = .serial then 1 else 0
      touchHidFrames := d.touchHidFrames + if touchSource = .touchHid then 1 else 0
      touchLastUpdateMs := now }
  else d

/-- What the serial reader and the vendor thread do with a frame: its buttons count only while
the button HID is not connected. The effect of board information is not on the device. -/
def applyParsedFrame (d : DeviceHandle) (frame : ParsedFrame) (touchSource : TouchSource)
    (now : UInt64) : DeviceHandle :=
  match frame with
  | .touch buttons0 ioStatus touch =>
    let useButtons := !d.hidConnected
    d.applyDeviceFrame (if useButtons then buttons0 else none)
      (if useButtons then ioStatus else none) touch touchSource now
  | .boardInfo _ => d

/-- What the button HID thread does with a report: button frames are told from the other reports
of the endpoint by their second byte. -/
def applyButtonReport (d : DeviceHandle) (report : List UInt8) (now : UInt64) : DeviceHandle :=
  match report with
  | r0 :: r1 :: _ =>
    if r1 > 0x3F ∨ (r0 = 0xA5 ∧ r1 = 0x5A) then d
    else d.applyDeviceFrame (some r0) (some r1) none .synthetic now
  | _ => d

/-- The part of `disconnect_session` behind the end of the session and its reader. -/
def disconnectSession (d : DeviceHandle) : DeviceHandle :=
  if d.vendorConnected ∨ d.touchHidConnected ∨ d.hidConnected then d.markConnected
  else { d with inputPage := .default }

/-- `clear_inputs_on_source_drop`. -/
def clearInputsOnSourceDrop (d : DeviceHandle) : DeviceHandle :=
  let buttonsLive := d.hidConnected || d.vendorConnected
  let touchLive := d.touchHidConnected || d.vendorConnected
  if buttonsLive ∧ touchLive then d
  else
    let page := d.inputPage
    let clearButtons := !buttonsLive ∧ (page.buttons0 ≠ 0 ∨ page.ioStatus ≠ 0)
    let clearTouch := !touchLive ∧ page.touch ≠ noTouch
    { d with
      inputPage := {
        buttons0 := if clearButtons then 0 else page.buttons0
        ioStatus := if clearButtons then 0 else page.ioStatus
        connected := page.connected
        touch := if clearTouch then noTouch else page.touch
        sequence := if clearButtons ∨ clearTouch then page.sequence + 1 else page.sequence } }

/-! ### What the handlers leave alone -/

section Frame

variable (d : DeviceHandle) (buttons0 ioStatus : Option UInt8)
  (touch : Option (List.Vector UInt8 7)) (touchSource : TouchSource) (now : UInt64)

/-- A device frame leaves the flag of the button HID. -/
@[simp] lemma applyDeviceFrame_hidConnected :
    (d.applyDeviceFrame buttons0 ioStatus touch touchSource now).hidConnected = d.hidConnected := by
  unfold applyDeviceFrame
  cases touch <;> rfl

/-- A device frame leaves the flag of the vendor HID. -/
@[simp] lemma applyDeviceFrame_vendorConnected :
    (d.applyDeviceFrame buttons0 ioStatus touch touchSource now).vendorConnected =
      d.vendorConnected := by
  unfold applyDeviceFrame
  cases touch <;> rfl

/-- A device frame leaves the flag of the touch HID. -/
@[simp] lemma applyDeviceFrame_touchHidConnected :
    (d.applyDeviceFrame buttons0 ioStatus touch touchSource now).touchHidConnected =
      d.touchHidConnected := by
  unfold applyDeviceFrame
  cases touch <;> rfl

/-- A frame writes the fields it has, and no others, into the page. -/
@[simp] lemma applyDeviceFrame_inputPage :
    (d.applyDeviceFrame buttons0 ioStatus touch touchSource now).inputPage =
      { buttons0 := buttons0.getD d.inputPage.buttons0
        ioStatus := ioStatus.getD d.inputPage.ioStatus
        connected := 1
        touch := touch.getD d.inputPage.touch
        sequence := d.inputPage.sequence + 1 } := by
  unfold applyDeviceFrame
  cases touch <;> rfl

/-- The flags of the sources. -/
def flags : Bool × Bool × Bool := (d.hidConnected, d.vendorConnected, d.touchHidConnected)

/-- A parsed frame leaves the flags. -/
lemma applyParsedFrame_flags (frame : ParsedFrame) :
    (d.applyParsedFrame frame touchSource now).flags = d.flags := by
  cases frame with
  | touch b io t => simp [applyParsedFrame, flags]
  | boardInfo version => rfl

/-- A button report leaves the flags. -/
lemma applyButtonReport_flags (report : List UInt8) :
    (d.applyButtonReport report now).flags = d.flags := by
  unfold applyButtonReport
  split
  · split
    · rfl
    · simp [flags]
  · rfl

/-- A button report leaves the touch of the page alone. -/
lemma applyButtonReport_touch (report : List UInt8) :
    (d.applyButtonReport report now).inputPage.touch = d.inputPage.touch := by
  unfold applyButtonReport
  split
  · split
    · rfl
    · simp
  · rfl

/-- Clearing the inputs leaves the flags. -/
@[simp] lemma clearInputsOnSourceDrop_flags : d.clearInputsOnSourceDrop.flags = d.flags := by
  unfold clearInputsOnSourceDrop
  dsimp only
  split <;> rfl

/-- A parsed frame leaves the output page. -/
lemma applyParsedFrame_outputPage (frame : ParsedFrame) :
    (d.applyParsedFrame frame touchSource now).outputPage = d.outputPage := by
  cases frame with
  | touch b io t =>
    simp only [applyParsedFrame, applyDeviceFrame]
    cases t <;> rfl
  | boardInfo version => rfl

/-- Disconnecting the session leaves the output page. -/
lemma disconnectSession_outputPage : d.disconnectSession.outputPage = d.outputPage := by
  unfold disconnectSession
  split <;> rfl

/-- Clearing the inputs leaves the output page. -/
lemma clearInputsOnSourceDrop_outputPage :
    d.clearInputsOnSourceDrop.outputPage = d.outputPage := by
  unfold clearInputsOnSourceDrop
  dsimp only
  split <;> rfl

end Frame

variable (d : DeviceHandle)

/-- After a HID source has dropped, the touch is zero unless another HID feeds it. -/
lemma clearInputsOnSourceDrop_touch (h : (d.touchHidConnected || d.vendorConnected) = false) :
    d.clearInputsOnSourceDrop.inputPage.touch = noTouch := by
  unfold clearInputsOnSourceDrop
  simp only [h, Bool.false_eq_true, and_false, if_false, Bool.not_false, true_and]
  by_cases hzero : d.inputPage.touch = noTouch <;> simp [hzero]

/-- After a HID source has dropped, the buttons are zero unless another HID feeds them. -/
lemma clearInputsOnSourceDrop_buttons (h : (d.hidConnected || d.vendorConnected) = false) :
    d.clearInputsOnSourceDrop.inputPage.buttons0 = 0 ∧
      d.clearInputsOnSourceDrop.inputPage.ioStatus = 0 := by
  unfold clearInputsOnSourceDrop
  simp only [h, Bool.false_eq_true, false_and, if_false, Bool.not_false, true_and]
  by_cases hzero : d.inputPage.buttons0 ≠ 0 ∨ d.inputPage.ioStatus ≠ 0
  · simp [hzero]
  · rw [if_neg hzero, if_neg hzero]
    exact ⟨not_not.mp (not_or.mp hzero).1, not_not.mp (not_or.mp hzero).2⟩

end DeviceHandle

end Affine
