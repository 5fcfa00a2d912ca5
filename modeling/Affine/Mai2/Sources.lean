import Affine.Lib.Run
import Affine.Mai2.Device

set_option relaxedAutoImplicit false
set_option autoImplicit false

/-!
# The input sources of a player

Four sources feed the input page of a player: the serial session, the vendor HID, the touch HID
and the button HID. Each connects, delivers frames and drops, in any order; an event below is one
of these, with the handler that the source's thread runs for it.

`clear_inputs_on_source_drop` clears what no source feeds any more. `disconnect_session` clears
the page only if no HID is connected, and otherwise leaves the input of the serial session on it,
so no input is stuck after the drops of a run exactly if each serial drop with a HID connected
finds nothing to clear (`no_stuck_input_iff`).

## Main definitions

* `Affine.Player`, `Affine.SourceEvent`, `Affine.SourceEvent.step` — a player, and what happens to
  it.
* `Affine.Player.NoStuck` — the fields that no source feeds are zero.

## Main results

* `Affine.Player.noStuck_step_iff` — which events keep the fields without a source zero.
* `Affine.no_stuck_input_iff` — the same for the drops of a run.
-/

namespace Affine

open Slice (Exec)

/-- A player: the device, and whether there is a serial session. -/
structure Player where
  device : DeviceHandle
  session : Bool
  deriving DecidableEq

/-- What can happen to a source, with the clock where the handler reads it. -/
inductive SourceEvent
  | connectSerial
  | serialFrame (frame : ParsedFrame) (now : UInt64)
  | dropSerial
  | connectVendor
  | vendorFrame (frame : ParsedFrame) (now : UInt64)
  | dropVendor
  | connectTouchHid
  | touchHidFrame (touch : List.Vector UInt8 7) (now : UInt64)
  | dropTouchHid
  | connectHid
  | hidReport (report : List UInt8) (now : UInt64)
  | dropHid

namespace SourceEvent

/-- The event ends a source. -/
def isDrop : SourceEvent → Bool
  | dropSerial | dropVendor | dropTouchHid | dropHid => true
  | _ => false

/-- The state after an event. A source connects when it is not connected, and delivers frames and
drops when it is; `disconnect_session` also runs without a session. -/
def next (p : Player) : SourceEvent → Player
  | connectSerial =>
    if p.session then p else { device := p.device.markConnected, session := true }
  | serialFrame frame now =>
    if p.session then { p with device := p.device.applyParsedFrame frame .serial now } else p
  | dropSerial => { device := p.device.disconnectSession, session := false }
  | connectVendor =>
    if p.device.vendorConnected then p
    else { p with device := { p.device with vendorConnected := true }.markConnected }
  | vendorFrame frame now =>
    if p.device.vendorConnected then
      { p with device := p.device.applyParsedFrame frame .synthetic now }
    else p
  | dropVendor =>
    if p.device.vendorConnected then
      { p with device := { p.device with vendorConnected := false }.clearInputsOnSourceDrop }
    else p
  | connectTouchHid =>
    if p.device.touchHidConnected then p
    else { p with device := { p.device with touchHidConnected := true }.markConnected }
  | touchHidFrame touch now =>
    if p.device.touchHidConnected then
      { p with device := p.device.applyDeviceFrame none none (some touch) .touchHid now }
    else p
  | dropTouchHid =>
    if p.device.touchHidConnected then
      { p with device := { p.device with touchHidConnected := false }.clearInputsOnSourceDrop }
    else p
  | connectHid => { p with device := { p.device with hidConnected := true } }
  | hidReport report now =>
    if p.device.hidConnected then { p with device := p.device.applyButtonReport report now } else p
  | dropHid =>
    if p.device.hidConnected then
      { p with device := { p.device with hidConnected := false }.clearInputsOnSourceDrop }
    else p

/-- An event as a step of a run. -/
def step (e : SourceEvent) (p : Player) : Exec Player := .ok (e.next p)

end SourceEvent

namespace Player

/-- A player on fresh pages, before any source connects. -/
def init (enabled : Bool) : Player where
  device := .new enabled
  session := false

variable (p : Player)

/-- A source of touch is connected. -/
def touchFed : Prop := p.session ∨ p.device.touchHidConnected ∨ p.device.vendorConnected

/-- A source of buttons is connected. -/
def buttonsFed : Prop := p.session ∨ p.device.hidConnected ∨ p.device.vendorConnected

/-- The touch of the page is clear. -/
def touchClear : Prop := p.device.inputPage.touch = noTouch

/-- The buttons of the page are clear. -/
def buttonsClear : Prop := p.device.inputPage.buttons0 = 0 ∧ p.device.inputPage.ioStatus = 0

/-- **No stuck input**: the fields of the page that no connected source feeds are zero. -/
def NoStuck : Prop := (¬ p.touchFed → p.touchClear) ∧ (¬ p.buttonsFed → p.buttonsClear)

/-- If the serial session drops while a HID is connected, then the touch is clear unless a HID
feeds it, and so are the buttons. -/
def DropFindsClear (e : SourceEvent) : Prop :=
  e = .dropSerial →
    p.device.vendorConnected ∨ p.device.touchHidConnected ∨ p.device.hidConnected →
      (¬ (p.device.touchHidConnected ∨ p.device.vendorConnected) → p.touchClear) ∧
        (¬ (p.device.hidConnected ∨ p.device.vendorConnected) → p.buttonsClear)

variable {p}

/-- Events that only add sources, or that write a field of a connected source, keep the rest. -/
lemma NoStuck.mono {q : Player} (hp : p.NoStuck)
    (htouch : ¬ q.touchFed → ¬ p.touchFed ∧ q.device.inputPage.touch = p.device.inputPage.touch)
    (hbuttons : ¬ q.buttonsFed → ¬ p.buttonsFed ∧
      q.device.inputPage.buttons0 = p.device.inputPage.buttons0 ∧
      q.device.inputPage.ioStatus = p.device.inputPage.ioStatus) : q.NoStuck := by
  constructor
  · intro hq
    obtain ⟨hfed, heq⟩ := htouch hq
    exact heq.trans (hp.1 hfed)
  · intro hq
    obtain ⟨hfed, hb, hio⟩ := hbuttons hq
    exact ⟨hb.trans (hp.2 hfed).1, hio.trans (hp.2 hfed).2⟩

/-- After `clear_inputs_on_source_drop` nothing is stuck, whatever was on the page. -/
lemma noStuck_clearInputs (d : DeviceHandle) (session : Bool) :
    NoStuck ⟨d.clearInputsOnSourceDrop, session⟩ := by
  have hflags := d.clearInputsOnSourceDrop_flags
  simp only [DeviceHandle.flags, Prod.mk.injEq] at hflags
  obtain ⟨hhid, hvendor, htouchHid⟩ := hflags
  constructor
  · intro h
    refine d.clearInputsOnSourceDrop_touch ?_
    simp only [touchFed, hvendor, htouchHid] at h
    rw [Bool.or_eq_false_iff]
    exact ⟨Bool.eq_false_iff.mpr fun ht => h (.inr (.inl ht)),
      Bool.eq_false_iff.mpr fun hv => h (.inr (.inr hv))⟩
  · intro h
    refine d.clearInputsOnSourceDrop_buttons ?_
    simp only [buttonsFed, hvendor, hhid] at h
    rw [Bool.or_eq_false_iff]
    exact ⟨Bool.eq_false_iff.mpr fun ht => h (.inr (.inl ht)),
      Bool.eq_false_iff.mpr fun hv => h (.inr (.inr hv))⟩

/-- Behind a serial drop, input is stuck exactly if the drop found some that only the session fed
and did not clear the page, because a HID is connected. -/
lemma noStuck_dropSerial_iff (p : Player) :
    (SourceEvent.dropSerial.next p).NoStuck ↔ p.DropFindsClear .dropSerial := by
  obtain ⟨d, session⟩ := p
  by_cases hhid : d.vendorConnected ∨ d.touchHidConnected ∨ d.hidConnected
  · have hpage : d.disconnectSession = d.markConnected := if_pos hhid
    simp [SourceEvent.next, hpage, NoStuck, DropFindsClear, touchFed, buttonsFed, touchClear,
      buttonsClear, DeviceHandle.markConnected, hhid]
  · have hpage : d.disconnectSession = { d with inputPage := .default } := if_neg hhid
    refine iff_of_true ?_ fun _ h => absurd h hhid
    simp [SourceEvent.next, hpage, NoStuck, touchClear, buttonsClear, Mai2InputPage.default]

/-- No other event makes input stuck: a frame writes fields that its source feeds, a connection
only adds a source, and after the drop of a HID nothing is stuck.

**Proof sketch.** The cases are the events. A frame comes from a source that feeds what it writes, a
connection takes no source away, and the drop of a HID clears what has none left. -/
lemma NoStuck.next {e : SourceEvent} (hp : p.NoStuck) (he : e ≠ .dropSerial) :
    (e.next p).NoStuck := by
  obtain ⟨d, session⟩ := p
  cases e with
  | connectSerial =>
    cases session with
    | true => exact hp
    | false => exact hp.mono (fun h => absurd (.inl rfl) h) (fun h => absurd (.inl rfl) h)
  | serialFrame frame now =>
    cases session with
    | false => exact hp
    | true => exact hp.mono (fun h => absurd (.inl rfl) h) (fun h => absurd (.inl rfl) h)
  | dropSerial => exact absurd rfl he
  | connectVendor =>
    simp only [SourceEvent.next]
    split
    · exact hp
    · exact hp.mono (fun h => absurd (.inr (.inr rfl)) h) (fun h => absurd (.inr (.inr rfl)) h)
  | vendorFrame frame now =>
    simp only [SourceEvent.next]
    split
    · next hvendor =>
      have hflags := d.applyParsedFrame_flags .synthetic now frame
      simp only [DeviceHandle.flags, Prod.mk.injEq] at hflags
      refine hp.mono (fun h => absurd (.inr (.inr ?_)) h) (fun h => absurd (.inr (.inr ?_)) h) <;>
        exact hflags.2.1.trans hvendor
    · exact hp
  | dropVendor =>
    simp only [SourceEvent.next]
    split
    · exact noStuck_clearInputs _ _
    · exact hp
  | connectTouchHid =>
    simp only [SourceEvent.next]
    split
    · exact hp
    · exact hp.mono (fun h => absurd (.inr (.inl rfl)) h) (fun h => ⟨h, rfl, rfl⟩)
  | touchHidFrame touch now =>
    simp only [SourceEvent.next]
    split
    · next htouch =>
      refine hp.mono (fun h => absurd (.inr (.inl ?_)) h) (fun h => ⟨?_, by simp, by simp⟩)
      · simpa [buttonsFed] using h
      · simpa using htouch
    · exact hp
  | dropTouchHid =>
    simp only [SourceEvent.next]
    split
    · exact noStuck_clearInputs _ _
    · exact hp
  | connectHid =>
    exact hp.mono (fun h => ⟨h, rfl⟩) (fun h => absurd (.inr (.inl rfl)) h)
  | hidReport report now =>
    simp only [SourceEvent.next]
    split
    · next hhid =>
      have hflags := d.applyButtonReport_flags now report
      simp only [DeviceHandle.flags, Prod.mk.injEq] at hflags
      obtain ⟨hh, hv, ht⟩ := hflags
      refine hp.mono (fun h => ⟨?_, d.applyButtonReport_touch now report⟩)
        (fun h => absurd (.inr (.inl (hh.trans hhid))) h)
      simpa [touchFed, hv, ht] using h
    · exact hp
  | dropHid =>
    simp only [SourceEvent.next]
    split
    · exact noStuck_clearInputs _ _
    · exact hp

/-- From a state without stuck input, an event leads to another such state exactly if it is not a
serial drop that leaves some input which only the session fed. -/
theorem noStuck_step_iff {e : SourceEvent} (hp : p.NoStuck) :
    (e.next p).NoStuck ↔ p.DropFindsClear e := by
  by_cases he : e = .dropSerial
  · subst he
    exact p.noStuck_dropSerial_iff
  · exact iff_of_true (hp.next he) fun h => absurd h he

end Player

/-- If the event ends a source, then nothing is stuck once its handler has finished. -/
def NoStuckAfterDrop (p : Player) (e : SourceEvent) : Prop := e.isDrop → (e.next p).NoStuck

/-- **When no input is stuck after the drops of a run**: exactly if each time the serial session
drops while a HID is connected, the fields that no HID feeds are already zero.

**Proof sketch.** Nothing is stuck on fresh pages. By `Player.noStuck_step_iff` every event keeps
it so, if the serial drops meet the condition. Conversely, a serial drop with a HID connected
leaves the fields of the page, so what is zero afterwards was zero before. -/
theorem no_stuck_input_iff (enabled : Bool) (es : List SourceEvent) :
    Run.EachStep SourceEvent.step (.init enabled) es NoStuckAfterDrop ↔
      Run.EachStep SourceEvent.step (.init enabled) es Player.DropFindsClear := by
  have hfresh : (Player.init enabled).NoStuck := ⟨fun _ => rfl, fun _ => ⟨rfl, rfl⟩⟩
  have hall : Run.Always SourceEvent.step (.init enabled) es Player.NoStuck ↔
      Run.EachStep SourceEvent.step (.init enabled) es Player.DropFindsClear := by
    refine Run.always_iff (I := fun _ => True) trivial (fun _ _ _ _ _ => trivial) hfresh ?_
    intro e p q _ hp hq
    obtain rfl := Except.ok.inj hq
    exact Player.noStuck_step_iff hp
  rw [← hall]
  constructor
  · intro h
    refine hall.mpr fun pre e p q hpre hp hq he hhid => ?_
    subst he
    have hafter := h pre .dropSerial p q hpre hp hq rfl
    have hpage : p.device.disconnectSession = p.device.markConnected := if_pos hhid
    simpa [SourceEvent.next, hpage, Player.NoStuck, Player.touchFed, Player.buttonsFed,
      Player.touchClear, Player.buttonsClear, DeviceHandle.markConnected] using hafter
  · intro h pre e p q hpre hp hq _
    obtain rfl := Except.ok.inj hq
    exact h (pre ++ [e]) (e.next p) hpre ((Run.exec_concat_eq_ok _).mpr ⟨p, hp, rfl⟩)

/-- The button HID is connected, and the serial session drops while a sensor is touched. -/
theorem touch_stuck_after_serial_drop :
    ¬ Run.EachStep SourceEvent.step (.init true)
      [.connectHid, .connectSerial,
        .serialFrame (.touch none none (some ⟨[1, 0, 0, 0, 0, 0, 0], rfl⟩)) 1000, .dropSerial]
      NoStuckAfterDrop := by
  intro h
  have hafter := h [.connectHid, .connectSerial,
    .serialFrame (.touch none none (some ⟨[1, 0, 0, 0, 0, 0, 0], rfl⟩)) 1000] .dropSerial _ _
    (List.prefix_refl _) rfl rfl rfl
  have hclear : (⟨[1, 0, 0, 0, 0, 0, 0], rfl⟩ : List.Vector UInt8 7) = noTouch :=
    hafter.1 (by rintro (hs | ht | hv) <;> contradiction)
  exact absurd (congrArg List.Vector.toList hclear) (by decide)

end Affine
