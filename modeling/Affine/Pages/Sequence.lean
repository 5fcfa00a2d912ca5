import Affine.Chuni.Loop
import Affine.Lib.Versioned
import Affine.Mai2.DropRace
import Affine.Mai2.Sources
import Affine.Mercury.Loop

set_option relaxedAutoImplicit false
set_option autoImplicit false

/-!
# The sequence numbers of the pages

Every writer of an input or state page advances its sequence number, except for the full reset when
a device disconnects: that writes the default page, with the number zero. So numbers identify the
contents as long as no reset turns the number of a page back (`page_sequence_identifies`).

A reader can see the page behind every single write. For the slider threads these are the actions of
`SliderLoop.act`. For the input page of a player they are the writes below, by whichever thread.

## Main definitions

* `Affine.Mai2PageWrite` — the writes of the input page of a player.
* `Affine.SliderPage` — the state page of a slider thread.

## Main results

* `Affine.SourceEvent.next_atMostOne`, `Affine.HidRace.Step.atMostOne` — the handlers of the input
  sources and the steps of their threads make these writes.
* `Affine.SliderPage.version_act` — what an action does to the state page.
* `Affine.page_sequence_identifies`.
-/

namespace Affine

open Slice (Exec)
open Versioned (IdentifiesAlong)

/-! ## The input page of a player -/

/-- A write of the input page of a player. -/
inductive Mai2PageWrite
  /-- A source announces itself. -/
  | markConnected
  /-- The update of `apply_device_frame`. -/
  | frame (buttons0 ioStatus : Option UInt8) (touch : Option (List.Vector UInt8 7))
  /-- The update of `clear_inputs_on_source_drop`, with what it has found of the sources. -/
  | clear (buttonsLive touchLive : Bool)
  /-- `disconnect_session` without a HID. -/
  | reset
  deriving DecidableEq

namespace Mai2PageWrite

/-- The page behind a write. -/
def apply (page : Mai2InputPage) : Mai2PageWrite → Mai2InputPage
  | markConnected => { page with connected := 1, sequence := page.sequence + 1 }
  | frame buttons0 ioStatus touch =>
    { buttons0 := buttons0.getD page.buttons0
      ioStatus := ioStatus.getD page.ioStatus
      connected := 1
      touch := touch.getD page.touch
      sequence := page.sequence + 1 }
  | clear buttonsLive touchLive =>
    let clearButtons := !buttonsLive ∧ (page.buttons0 ≠ 0 ∨ page.ioStatus ≠ 0)
    let clearTouch := !touchLive ∧ page.touch ≠ noTouch
    { buttons0 := if clearButtons then 0 else page.buttons0
      ioStatus := if clearButtons then 0 else page.ioStatus
      connected := page.connected
      touch := if clearTouch then noTouch else page.touch
      sequence := if clearButtons ∨ clearTouch then page.sequence + 1 else page.sequence }
  | reset => .default

/-- A write as a step of a run. -/
def step (w : Mai2PageWrite) (page : Mai2InputPage) : Exec Mai2InputPage := .ok (w.apply page)

/-- The write does not reset the page, unless that is cleared already. -/
def NotTurnedBack (page : Mai2InputPage) (w : Mai2PageWrite) : Prop :=
  w = .reset → page = .default

/-- A write leaves the page alone or advances its sequence, unless it turns it back. -/
lemma apply_sequence {page : Mai2InputPage} {w : Mai2PageWrite} (hback : NotTurnedBack page w) :
    w.apply page = page ∨ (w.apply page).sequence = page.sequence + 1 := by
  cases w with
  | markConnected => exact .inr rfl
  | frame buttons0 ioStatus touch => exact .inr rfl
  | clear buttonsLive touchLive =>
    simp only [apply]
    by_cases hbuttons : !buttonsLive ∧ (page.buttons0 ≠ 0 ∨ page.ioStatus ≠ 0)
    · exact .inr (if_pos (.inl hbuttons))
    · by_cases htouch : !touchLive ∧ page.touch ≠ noTouch
      · exact .inr (if_pos (.inr htouch))
      · -- nothing is to be cleared
        simp only [hbuttons, htouch, if_false, or_self, true_or]
  | reset => exact .inl (hback rfl).symm

/-- The page is left alone, or one write is made. -/
def AtMostOne (page page' : Mai2InputPage) : Prop :=
  page' = page ∨ ∃ w : Mai2PageWrite, page' = w.apply page

/-- A step that leaves the page. -/
lemma atMostOne_self (page : Mai2InputPage) : AtMostOne page page := .inl rfl

/-- An update of the page counts once. -/
lemma atMostOne_apply (page : Mai2InputPage) (w : Mai2PageWrite) : AtMostOne page (w.apply page) :=
  .inr ⟨w, rfl⟩

end Mai2PageWrite

open Mai2PageWrite (AtMostOne atMostOne_self atMostOne_apply)

namespace DeviceHandle

variable (d : DeviceHandle)

/-- Disconnecting the session counts at most once. -/
lemma disconnectSession_atMostOne : AtMostOne d.inputPage d.disconnectSession.inputPage := by
  unfold disconnectSession
  split
  · exact atMostOne_apply d.inputPage .markConnected
  · exact atMostOne_apply d.inputPage .reset

/-- Clearing the inputs of a lost source counts once. -/
lemma clearUpdate_atMostOne (buttonsLive touchLive : Bool) :
    AtMostOne d.inputPage (d.clearUpdate buttonsLive touchLive).inputPage :=
  atMostOne_apply d.inputPage (.clear buttonsLive touchLive)

/-- The check behind a lost source counts at most once. -/
lemma clearInputsOnSourceDrop_atMostOne :
    AtMostOne d.inputPage d.clearInputsOnSourceDrop.inputPage := by
  rw [clearInputsOnSourceDrop_eq]
  split
  · exact atMostOne_self d.inputPage
  · exact d.clearUpdate_atMostOne _ _

/-- A device frame counts at most once. -/
lemma applyDeviceFrame_atMostOne (buttons0 ioStatus : Option UInt8)
    (touch : Option (List.Vector UInt8 7)) (touchSource : TouchSource) (now : UInt64) :
    AtMostOne d.inputPage
      (d.applyDeviceFrame buttons0 ioStatus touch touchSource now).inputPage := by
  rw [applyDeviceFrame_inputPage]
  exact atMostOne_apply d.inputPage (.frame buttons0 ioStatus touch)

/-- A parsed frame counts at most once. -/
lemma applyParsedFrame_atMostOne (frame : ParsedFrame) (touchSource : TouchSource) (now : UInt64) :
    AtMostOne d.inputPage (d.applyParsedFrame frame touchSource now).inputPage := by
  cases frame with
  | touch buttons0 ioStatus touch => exact d.applyDeviceFrame_atMostOne _ _ touch touchSource now
  | boardInfo version => exact atMostOne_self d.inputPage

/-- A button report counts at most once. -/
lemma applyButtonReport_atMostOne (report : List UInt8) (now : UInt64) :
    AtMostOne d.inputPage (d.applyButtonReport report now).inputPage := by
  unfold applyButtonReport
  split
  · split
    · exact atMostOne_self d.inputPage
    · exact d.applyDeviceFrame_atMostOne _ _ none .synthetic now
  · exact atMostOne_self d.inputPage

end DeviceHandle

/-- **The handlers of the input sources write the page at most once**, and with one of these
writes.

**Proof sketch.** The cases are the events, each with its handler. -/
theorem SourceEvent.next_atMostOne (p : Player) (e : SourceEvent) :
    AtMostOne p.device.inputPage (e.next p).device.inputPage := by
  cases e with
  | connectSerial | connectVendor | connectTouchHid =>
    simp only [SourceEvent.next]
    split
    · exact atMostOne_self p.device.inputPage
    · exact atMostOne_apply p.device.inputPage .markConnected
  | serialFrame frame now | vendorFrame frame now =>
    simp only [SourceEvent.next]
    split
    · exact p.device.applyParsedFrame_atMostOne frame _ now
    · exact atMostOne_self p.device.inputPage
  | dropSerial => exact p.device.disconnectSession_atMostOne
  | dropVendor | dropTouchHid | dropHid =>
    simp only [SourceEvent.next]
    split
    · exact DeviceHandle.clearInputsOnSourceDrop_atMostOne _
    · exact atMostOne_self p.device.inputPage
  | touchHidFrame touch now =>
    simp only [SourceEvent.next]
    split
    · exact p.device.applyDeviceFrame_atMostOne none none (some touch) .touchHid now
    · exact atMostOne_self p.device.inputPage
  | connectHid => exact atMostOne_self p.device.inputPage
  | hidReport report now =>
    simp only [SourceEvent.next]
    split
    · exact p.device.applyButtonReport_atMostOne report now
    · exact atMostOne_self p.device.inputPage

/-- **So do the steps of the HID threads**, in any interleaving.

**Proof sketch.** The cases are the steps; each has one update of the page at most. -/
theorem HidRace.Step.atMostOne {s t : HidRace} (h : s.Step t) :
    AtMostOne s.device.inputPage t.device.inputPage := by
  cases h with
  | retry i | drop i =>
    show AtMostOne _ (s.device.storeFlag i false).inputPage
    rw [DeviceHandle.storeFlag_inputPage]
    exact atMostOne_self s.device.inputPage
  | connect i =>
    show AtMostOne _ (s.device.storeFlag i true).inputPage
    rw [DeviceHandle.storeFlag_inputPage]
    exact atMostOne_self s.device.inputPage
  | markConnected i => exact atMostOne_apply s.device.inputPage .markConnected
  | vendorLoad => exact atMostOne_self s.device.inputPage
  | vendorApply useHidButtons buttons0 ioStatus touch now =>
    exact s.device.applyDeviceFrame_atMostOne _ _ touch .synthetic now
  | touchFrame touch now =>
    exact s.device.applyDeviceFrame_atMostOne none none (some touch) .touchHid now
  | buttonReport report now => exact s.device.applyButtonReport_atMostOne report now
  | clear i c =>
    cases c with
    | update buttonsLive touchLive => exact s.device.clearUpdate_atMostOne buttonsLive touchLive
    | loadHid | loadVendor | loadTouchHid buttonsLive | loadVendorAgain buttonsLive =>
      exact atMostOne_self s.device.inputPage

/-! ## The state page of a slider thread -/

/-- The state page of a slider thread, which the thread clears when the port closes. -/
structure SliderPage {κ ι τ : Type} (l : SliderLoop κ ι τ) (π : Type) where
  page : τ → π
  version : π → UInt64
  cleared : π
  page_call : ∀ k t, page (l.call k t) = page t
  version_connect : ∀ t, version (page (l.connect t)) = version (page t) + 1
  page_serve : ∀ i t, page (l.serve i t) = page t
  page_setParser : ∀ parser t, page (l.setParser parser t) = page t
  version_applyPacket : ∀ packet t u, l.applyPacket packet t = .ok u →
    page u = page t ∨ version (page u) = version (page t) + 1
  page_close : ∀ t, page (l.close t) = cleared

namespace SliderPage

variable {κ ι τ π : Type} {l : SliderLoop κ ι τ} (p : SliderPage l π)

/-- The port does not close, unless the page is cleared already. -/
def NotTurnedBack (t : τ) (a : SliderAction κ ι) : Prop :=
  a = .close → l.isOpen t → p.page t = p.cleared

/-- An action leaves the page alone or advances its sequence, unless it turns it back.

**Proof sketch.** The cases are the actions; each has one update of the page at most. -/
theorem version_act {a : SliderAction κ ι} {t u : τ} (hback : p.NotTurnedBack t a)
    (h : l.act a t = .ok u) :
    p.page u = p.page t ∨ p.version (p.page u) = p.version (p.page t) + 1 := by
  cases a with
  | call k =>
    obtain rfl := Except.ok.inj h
    exact .inl (p.page_call k t)
  | connect =>
    obtain rfl := Except.ok.inj h
    split
    · exact .inl rfl
    · exact .inr (p.version_connect t)
  | serve i =>
    obtain rfl := Except.ok.inj h
    split
    · exact .inl (p.page_serve i t)
    · exact .inl rfl
  | byte b =>
    simp only [SliderLoop.act] at h
    split at h
    · obtain ⟨o, parser, -, ⟨-, rfl⟩ | ⟨packet, -, hu⟩⟩ := l.receive_eq_ok.mp h
      · exact .inl (p.page_setParser parser t)
      · rw [← p.page_setParser parser t]
        exact p.version_applyPacket packet _ u hu
    · obtain rfl := Except.ok.inj h
      exact .inl rfl
  | close =>
    obtain rfl := Except.ok.inj h
    split
    · rename_i hopen
      exact .inl ((p.page_close t).trans (hback rfl hopen).symm)
    · exact .inl rfl

end SliderPage

/-- A scan frame or an air frame advances the sequence of the state page. -/
lemma ChuniThread.applyPacket_sequence {t u : ChuniThread} {packet : SliderPacket}
    (h : t.applyPacket packet = .ok u) :
    u.statePage = t.statePage ∨ u.statePage.sequence = t.statePage.sequence + 1 := by
  unfold applyPacket at h
  split at h
  · obtain ⟨bytes, -, h⟩ := Slice.bind_eq_ok.mp h
    obtain ⟨pressure, -, h⟩ := Slice.bind_eq_ok.mp h
    obtain rfl := Except.ok.inj h
    exact .inr rfl
  · split at h
    · split at h
      · obtain rfl := Except.ok.inj h
        exact .inr rfl
      · obtain rfl := Except.ok.inj h
        exact .inl rfl
    · obtain rfl := Except.ok.inj h
      exact .inl rfl

/-- A scan frame advances the sequence of the state page. -/
lemma MercuryThread.applyPacket_sequence {t u : MercuryThread} {packet : SliderPacket}
    (h : t.applyPacket packet = .ok u) :
    u.statePage = t.statePage ∨ u.statePage.sequence = t.statePage.sequence + 1 := by
  unfold applyPacket at h
  split at h
  · obtain ⟨bytes, -, h⟩ := Slice.bind_eq_ok.mp h
    obtain rfl := Except.ok.inj h
    exact .inr rfl
  · obtain rfl := Except.ok.inj h
    exact .inl rfl

/-- The state page of `chuni_thread`. -/
def chuniPage : SliderPage chuniLoop ChuniStatePage where
  page t := t.statePage
  version page := page.sequence
  cleared := .default
  page_call _ _ := rfl
  version_connect _ := rfl
  page_serve tick t := (t.sendAll_frame tick).2.2
  page_setParser _ _ := rfl
  version_applyPacket _ _ _ h := ChuniThread.applyPacket_sequence h
  page_close _ := rfl

/-- The state page of `mercury_thread`. -/
def mercuryPage : SliderPage mercuryLoop MercuryStatePage where
  page t := t.statePage
  version page := page.sequence
  cleared := .default
  page_call _ _ := rfl
  version_connect _ := rfl
  page_serve tick t := (t.sendActive_frame tick).2.2
  page_setParser _ _ := rfl
  version_applyPacket _ _ _ h := MercuryThread.applyPacket_sequence h
  page_close _ := rfl

/-! ## Runs -/

/-- **When sequence numbers identify the contents of a page**: in a run with fewer than `2^64`
updates that turns no page back, all that a reader can have seen of the page with one number is the
same contents. A page is turned back when `disconnect_session` resets the input page of a player, or
when a slider thread closes its port, and the page is not cleared already.

**Proof sketch.** Every other write leaves the page alone or advances its number
(`Mai2PageWrite.apply_sequence`, `SliderPage.version_act`), so the contents that a reader can have
seen are numbered one after the other (`Versioned.identifiesAlong_of_eachStep`). -/
theorem page_sequence_identifies (page : Mai2InputPage) (writes : List Mai2PageWrite)
    (chuniState : ChuniStatePage) (chuniControl : ChuniControlPage)
    (chuniActions : List (SliderAction (ChuniControlPage → ChuniControlPage) ChuniTick))
    (mercuryState : MercuryStatePage) (mercuryControl : MercuryControlPage)
    (mercuryActions : List (SliderAction (MercuryControlPage → MercuryControlPage) MercuryTick)) :
    (Run.EachStep Mai2PageWrite.step page writes Mai2PageWrite.NotTurnedBack →
      IdentifiesAlong Mai2PageWrite.step id Mai2InputPage.sequence page writes) ∧
    (Run.EachStep chuniLoop.act (.init chuniState chuniControl) chuniActions
        chuniPage.NotTurnedBack →
      IdentifiesAlong chuniLoop.act ChuniThread.statePage ChuniStatePage.sequence
        (.init chuniState chuniControl) chuniActions) ∧
    (Run.EachStep mercuryLoop.act (.init mercuryState mercuryControl) mercuryActions
        mercuryPage.NotTurnedBack →
      IdentifiesAlong mercuryLoop.act MercuryThread.statePage MercuryStatePage.sequence
        (.init mercuryState mercuryControl) mercuryActions) := by
  refine ⟨fun h => ?_, fun h => ?_, fun h => ?_⟩
  · refine Versioned.identifiesAlong_of_eachStep (fun w page page' hback hw => ?_) h
    obtain rfl := Except.ok.inj hw
    exact Mai2PageWrite.apply_sequence hback
  · exact Versioned.identifiesAlong_of_eachStep
      (fun _ _ _ hback ha => chuniPage.version_act hback ha) h
  · exact Versioned.identifiesAlong_of_eachStep
      (fun _ _ _ hback ha => mercuryPage.version_act hback ha) h

/-- The bytes of a scan frame whose cells all have one value. -/
def scanBytes (κ ι : Type) (value : UInt8) : List (SliderAction κ ι) :=
  (sendSliderFrame id sliderCmdAutoScan (List.replicate 32 value)).map .byte

/-- Each page is updated and not turned back. -/
theorem page_sequence_identifies_connected :
    IdentifiesAlong Mai2PageWrite.step id Mai2InputPage.sequence .default
        [.markConnected, .frame (some 1) none none, .clear false true] ∧
      IdentifiesAlong chuniLoop.act ChuniThread.statePage ChuniStatePage.sequence
        (.init .default .default) (.connect :: scanBytes _ _ 1) ∧
      IdentifiesAlong mercuryLoop.act MercuryThread.statePage MercuryStatePage.sequence
        (.init .default .default) (.connect :: scanBytes _ _ 1) := by
  obtain ⟨hmai2, hchuni, hmercury⟩ := page_sequence_identifies .default
    [.markConnected, .frame (some 1) none none, .clear false true] .default .default
    (.connect :: scanBytes _ _ 1) .default .default (.connect :: scanBytes _ _ 1)
  refine ⟨hmai2 (Run.eachStep_of_forall_mem ?_), hchuni (Run.eachStep_of_forall_mem ?_),
    hmercury (Run.eachStep_of_forall_mem ?_)⟩
  · rintro w hmem page rfl
    exact absurd hmem (by decide)
  · rintro a hmem t rfl
    simp [scanBytes] at hmem
  · rintro a hmem t rfl
    simp [scanBytes] at hmem

/-- Two connections with one frame each. -/
def twoConnections (κ ι : Type) : List (SliderAction κ ι) :=
  .connect :: scanBytes κ ι 1 ++ .close :: .connect :: scanBytes κ ι 2

/-- Two connections bring one frame each, and these are different: the second time the pages have
the same number with other contents. -/
theorem sequence_reused_after_reset :
    ¬ IdentifiesAlong Mai2PageWrite.step id Mai2InputPage.sequence .default
        [.markConnected, .frame (some 1) none none, .reset, .markConnected,
          .frame (some 2) none none] ∧
      ¬ IdentifiesAlong chuniLoop.act ChuniThread.statePage ChuniStatePage.sequence
        (.init .default .default) (twoConnections _ _) ∧
      ¬ IdentifiesAlong mercuryLoop.act MercuryThread.statePage MercuryStatePage.sequence
        (.init .default .default) (twoConnections _ _) :=
  ⟨Run.not_always_of_exec (by decide +kernel), Run.not_always_of_exec (by decide +kernel),
    Run.not_always_of_exec (by decide +kernel)⟩

end Affine
