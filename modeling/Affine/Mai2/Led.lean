import Affine.Lib.Versioned
import Affine.Mai2.Device
import Mathlib.Data.Vector.Basic
import Mathlib.Logic.Function.Basic

set_option relaxedAutoImplicit false
set_option autoImplicit false

/-!
# The LED calls of the game

The LED calls on the output pages (`affine-mai2/src/lib.rs`) and the payloads that the device
loops make of a page. Each of the three LED channels of a page has a sequence number that advances
when its value changes (`Affine.Mai2OutputPage.setPwm_step` and its siblings).

`led_gs_update` takes two steps that other threads can interleave with: it computes the new buttons
under the lock of the latch, and then updates the page.

## Main definitions

* `Affine.LedChannel`, `Affine.Mai2OutputPage.led` — the channels of a page.
* `Affine.Mai2Runtime` with the LED calls.
* `Affine.buttonRgbPayload` — the target colours of the buttons.
-/

namespace Affine

/-! ## The pages -/

/-- The LED channels of a page. -/
inductive LedChannel
  | buttons
  | billboard
  | pwm
  deriving DecidableEq

namespace LedChannel

/-- The command that carries a channel. -/
def cmd : LedChannel → UInt8
  | buttons => 0x14
  | billboard => 0x15
  | pwm => 0x16

/-- The number of bytes of a channel. -/
def size : LedChannel → ℕ
  | buttons => 56
  | billboard => 24
  | pwm => 3

/-- Each channel has its own command. -/
lemma cmd_injective : Function.Injective cmd := by
  rintro (_ | _ | _) (_ | _ | _) h <;> first | rfl | exact absurd h (by decide)

end LedChannel

namespace Mai2OutputPage

/-- A channel of the page, with its sequence number. -/
def led (page : Mai2OutputPage) :
    (channel : LedChannel) → Versioned.Cell (List.Vector UInt8 channel.size)
  | .buttons => ⟨page.buttonsSequence, page.buttons⟩
  | .billboard => ⟨page.billboardSequence, page.billboard⟩
  | .pwm => ⟨page.pwmSequence, page.pwm⟩

variable (page : Mai2OutputPage)

/-- The page update of `led_set_fet_output`. -/
def setPwm (rgb : List.Vector UInt8 3) : Mai2OutputPage :=
  if page.pwm ≠ rgb then { page with pwm := rgb, pwmSequence := page.pwmSequence + 1 } else page

/-- The page update of `led_gs_update`. -/
def setButtons (payload : List.Vector UInt8 56) : Mai2OutputPage :=
  if page.buttons ≠ payload then
    { page with buttons := payload, buttonsSequence := page.buttonsSequence + 1 }
  else page

/-- The page update of `led_billboard_set`. -/
def setBillboard (payload : List.Vector UInt8 24) : Mai2OutputPage :=
  if page.billboard ≠ payload then
    { page with billboard := payload, billboardSequence := page.billboardSequence + 1 }
  else page

/-- No channel changes without its sequence number. -/
def LedStep (page page' : Mai2OutputPage) : Prop :=
  ∀ channel, Versioned.Step (page.led channel) (page'.led channel)

/-- The PWM colours change with their sequence number. -/
lemma setPwm_step (rgb : List.Vector UInt8 3) : page.LedStep (page.setPwm rgb) := by
  unfold setPwm
  split
  · rintro (_ | _ | _)
    · exact .inl rfl
    · exact .inl rfl
    · exact .inr rfl
  · exact fun _ => .inl rfl

/-- The buttons change with their sequence number. -/
lemma setButtons_step (payload : List.Vector UInt8 56) :
    page.LedStep (page.setButtons payload) := by
  unfold setButtons
  split
  · rintro (_ | _ | _)
    · exact .inr rfl
    · exact .inl rfl
    · exact .inl rfl
  · exact fun _ => .inl rfl

/-- The billboard changes with its sequence number. -/
lemma setBillboard_step (payload : List.Vector UInt8 24) :
    page.LedStep (page.setBillboard payload) := by
  unfold setBillboard
  split
  · rintro (_ | _ | _)
    · exact .inl rfl
    · exact .inr rfl
    · exact .inl rfl
  · exact fun _ => .inl rfl

end Mai2OutputPage

/-! ## The calls -/

/-- `Mai2Runtime`, with the part of `SharedState` that the LED calls use: the devices of the two
players, and the button colours that each player was last told to show. -/
structure Mai2Runtime where
  devices : Fin 2 → DeviceHandle
  ledStartLatch : Fin 2 → List.Vector UInt8 24

/-- The buttons that `led_gs_update` makes of its argument, four bytes for each: the colour to
start from, the target and the speed. With the speed zero the fade starts at its target, and
otherwise at the latched colour. -/
def gsPayload (latch : List.Vector UInt8 24) (rgbs : List.Vector UInt8 32) :
    List.Vector UInt8 56 :=
  .ofFn fun k =>
    let i := k.val / 7
    let j := k.val % 7
    let target (j : ℕ) := rgbs.toList.getD (i * 4 + j) 0
    let speed := rgbs.toList.getD (i * 4 + 3) 0
    if j < 3 then
      if speed = 0 then target j else latch.toList.getD (i * 3 + j) 0
    else if j < 6 then target (j - 3)
    else speed

/-- The target colours, which `led_gs_update` latches. -/
def gsLatch (rgbs : List.Vector UInt8 32) : List.Vector UInt8 24 :=
  .ofFn fun k => rgbs.toList.getD (k.val / 3 * 4 + k.val % 3) 0

namespace Mai2Runtime

variable (rt : Mai2Runtime)

/-- `output_page.update` of a device. -/
def updateOutput (board : Fin 2) (f : Mai2OutputPage → Mai2OutputPage) : Mai2Runtime :=
  { rt with
    devices := Function.update rt.devices board
      { rt.devices board with outputPage := f (rt.devices board).outputPage } }

/-- An update of a board changes its own page only. -/
lemma updateOutput_outputPage (board player : Fin 2) (f : Mai2OutputPage → Mai2OutputPage) :
    ((rt.updateOutput board f).devices player).outputPage =
      if player = board then f (rt.devices player).outputPage
      else (rt.devices player).outputPage := by
  rcases eq_or_ne player board with rfl | hne
  · rw [if_pos rfl]
    simp only [updateOutput, Function.update_self]
  · rw [if_neg hne]
    simp only [updateOutput, Function.update_of_ne hne]

/-- `set_touch_enabled`. -/
def setTouchEnabled (player1 player2 : Bool) : Mai2Runtime :=
  let rt := rt.updateOutput 0 fun page => { page with touchEnabled := if player1 then 1 else 0 }
  rt.updateOutput 1 fun page => { page with touchEnabled := if player2 then 1 else 0 }

/-- `led_set_fet_output`. -/
def ledSetFetOutput (board : UInt8) (rgb : List.Vector UInt8 3) : Mai2Runtime :=
  if h : board.toNat < 2 then rt.updateOutput ⟨board.toNat, h⟩ (·.setPwm rgb) else rt

/-- The arguments that `led_gs_update` accepts: the board, and the first 32 bytes. -/
def gsAccepted (board : UInt8) (rgb : List UInt8) : Option (Fin 2 × List.Vector UInt8 32) :=
  if h : board.toNat ≤ 1 ∧ 32 ≤ rgb.length then
    some (⟨board.toNat, by omega⟩, ⟨rgb.take 32, by simp; omega⟩)
  else none

/-- The step of `led_gs_update` under the lock of the latch, with the payload it computes. -/
def ledGsLatch (board : Fin 2) (rgbs : List.Vector UInt8 32) :
    List.Vector UInt8 56 × Mai2Runtime :=
  (gsPayload (rt.ledStartLatch board) rgbs,
    { rt with ledStartLatch := Function.update rt.ledStartLatch board (gsLatch rgbs) })

/-- The page update of `led_gs_update`. -/
def ledGsPage (board : Fin 2) (payload : List.Vector UInt8 56) : Mai2Runtime :=
  rt.updateOutput board (·.setButtons payload)

/-- `led_gs_update`, when nothing comes between its steps. -/
def ledGsUpdate (board : UInt8) (rgb : List UInt8) : Mai2Runtime :=
  match gsAccepted board rgb with
  | none => rt
  | some (board, rgbs) =>
    let (payload, rt) := rt.ledGsLatch board rgbs
    rt.ledGsPage board payload

/-- `led_billboard_set`. -/
def ledBillboardSet (board : UInt8) (rgb : List UInt8) : Mai2Runtime :=
  if h : board.toNat ≤ 1 ∧ 3 ≤ rgb.length then
    let payload : List.Vector UInt8 24 := .ofFn fun k => rgb.getD (k.val % 3) 0
    rt.updateOutput ⟨board.toNat, by omega⟩ (·.setBillboard payload)
  else rt

end Mai2Runtime

/-! ## The payloads of a page -/

/-- `button_rgb_payload`: the target colours of the buttons. -/
def buttonRgbPayload (buttons : List.Vector UInt8 56) : List.Vector UInt8 24 :=
  .ofFn fun k => buttons.toList.getD (k.val / 3 * 7 + 3 + k.val % 3) 0

/-- The payload of a channel on the serial link: the buttons as target colours. -/
def serialPayload : (channel : LedChannel) → List.Vector UInt8 channel.size → List UInt8
  | .buttons, buttons => (buttonRgbPayload buttons).toList
  | .billboard, billboard => billboard.toList
  | .pwm, pwm => pwm.toList

/-- The payload of a channel on the vendor HID: the channel as it is. -/
def hidPayload (channel : LedChannel) (value : List.Vector UInt8 channel.size) : List UInt8 :=
  value.toList

end Affine
