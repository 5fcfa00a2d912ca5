import Affine.Mai2.Sources

set_option relaxedAutoImplicit false
set_option autoImplicit false

/-!
# The connected flag

Every source of a player marks the input page as connected, when it opens or with its frames. Only
`disconnect_session` takes the mark back, and only if no HID is connected then. What runs when a HID
drops, `clear_inputs_on_source_drop`, leaves the mark. So the mark is right along a run exactly if
the last source to drop is always the serial session, or the button HID while the page is not
marked (`Affine.connected_truthful_iff`).

## Main definitions

* `Affine.Player.ConnectedTruthful` — without a source the page is not marked.
* `Affine.Player.LastDropClears` — which source may drop last.

## Main results

* `Affine.Player.connectedTruthful_next_iff`, `Affine.connected_truthful_iff`.
-/

namespace Affine

namespace DeviceHandle

variable (d : DeviceHandle)

/-- `clear_inputs_on_source_drop` leaves the mark. -/
@[simp] lemma clearInputsOnSourceDrop_connected :
    d.clearInputsOnSourceDrop.inputPage.connected = d.inputPage.connected := by
  unfold clearInputsOnSourceDrop
  dsimp only
  split <;> rfl

/-- A frame marks the page, unless it is board information. -/
lemma applyParsedFrame_connected (frame : ParsedFrame) (touchSource : TouchSource) (now : UInt64)
    (h : d.inputPage.connected = 1) :
    (d.applyParsedFrame frame touchSource now).inputPage.connected = 1 := by
  cases frame with
  | touch buttons0 ioStatus touch => simp [applyParsedFrame]
  | boardInfo version => exact h

/-- A report of the button HID marks the page or leaves the mark. -/
lemma applyButtonReport_connected (report : List UInt8) (now : UInt64)
    (h : d.inputPage.connected = 1) :
    (d.applyButtonReport report now).inputPage.connected = 1 := by
  unfold applyButtonReport
  split
  · split
    · exact h
    · simp
  · exact h

end DeviceHandle

namespace Player

variable (p : Player)

/-- Some source is connected. -/
def HasSource : Prop :=
  p.session = true ∨ p.device.vendorConnected = true ∨ p.device.touchHidConnected = true ∨
    p.device.hidConnected = true

/-- A source is connected that marks the page when it opens: any but the button HID. -/
def HasMarkingSource : Prop :=
  p.session = true ∨ p.device.vendorConnected = true ∨ p.device.touchHidConnected = true

/-- Such a source finds its mark. -/
def Marked : Prop := p.HasMarkingSource → p.device.inputPage.connected = 1

/-- **The connected flag is truthful**: without a source the page is not marked. -/
def ConnectedTruthful : Prop := ¬ p.HasSource → p.device.inputPage.connected = 0

/-- The vendor and the touch HID are never the last source to drop, and the button HID is only
while the page is not marked: otherwise another source stays connected. -/
def LastDropClears : SourceEvent → Prop
  | .dropVendor =>
    p.device.vendorConnected = true →
      p.session = true ∨ p.device.touchHidConnected = true ∨ p.device.hidConnected = true
  | .dropTouchHid =>
    p.device.touchHidConnected = true →
      p.session = true ∨ p.device.vendorConnected = true ∨ p.device.hidConnected = true
  | .dropHid =>
    p.device.hidConnected = true → p.HasMarkingSource ∨ p.device.inputPage.connected = 0
  | _ => True

variable {p}

/-- The flags and the session decide which sources are connected. -/
lemma hasSource_congr {q : Player} (hsession : q.session = p.session)
    (hflags : q.device.flags = p.device.flags) :
    (q.HasSource ↔ p.HasSource) ∧ (q.HasMarkingSource ↔ p.HasMarkingSource) := by
  simp only [DeviceHandle.flags, Prod.mk.injEq] at hflags
  simp only [HasSource, HasMarkingSource, hsession, hflags, and_self]

/-- Behind a frame of a connected source the page is marked. -/
lemma Marked.frame {d : DeviceHandle} (h : p.Marked) (hflags : d.flags = p.device.flags)
    (hkeeps : p.device.inputPage.connected = 1 → d.inputPage.connected = 1) :
    Marked { p with device := d } := by
  intro hsource
  have hcongr := hasSource_congr (p := p) (q := { p with device := d }) rfl hflags
  exact hkeeps (h (hcongr.2.mp hsource))

/-- Behind the drop of a HID the page is marked, if it was before and another source needs it. -/
lemma Marked.dropHid {d : DeviceHandle} (h : p.Marked)
    (hpage : d.inputPage = p.device.inputPage)
    (hfewer : HasMarkingSource { p with device := d } → p.HasMarkingSource) :
    Marked { p with device := d.clearInputsOnSourceDrop } := by
  intro hsource
  have hcongr := hasSource_congr (p := { p with device := d })
    (q := { p with device := d.clearInputsOnSourceDrop }) rfl d.clearInputsOnSourceDrop_flags
  show d.clearInputsOnSourceDrop.inputPage.connected = 1
  rw [d.clearInputsOnSourceDrop_connected, hpage]
  exact h (hfewer (hcongr.2.mp hsource))

/-- Every event keeps the marks.

**Proof sketch.** The cases are the events. A source that connects marks the page, a frame keeps the
mark, and a source that is lost leaves the mark unless it was the last one. -/
lemma Marked.next (h : p.Marked) (e : SourceEvent) : (e.next p).Marked := by
  cases e with
  | connectSerial =>
    simp only [SourceEvent.next]
    split
    · exact h
    · exact fun _ => rfl
  | serialFrame frame now =>
    simp only [SourceEvent.next]
    split
    · exact h.frame (p.device.applyParsedFrame_flags .serial now frame)
        (p.device.applyParsedFrame_connected frame .serial now)
    · exact h
  | dropSerial =>
    intro hsource
    simp only [SourceEvent.next, DeviceHandle.disconnectSession] at hsource ⊢
    split
    · rfl
    · next hnone =>
      rw [if_neg hnone] at hsource
      rcases hsource with hs | hv | ht
      · cases hs
      · exact absurd (.inl hv) hnone
      · exact absurd (.inr (.inl ht)) hnone
  | connectVendor =>
    simp only [SourceEvent.next]
    split
    · exact h
    · exact fun _ => rfl
  | vendorFrame frame now =>
    simp only [SourceEvent.next]
    split
    · exact h.frame (p.device.applyParsedFrame_flags .synthetic now frame)
        (p.device.applyParsedFrame_connected frame .synthetic now)
    · exact h
  | dropVendor =>
    simp only [SourceEvent.next]
    split
    · refine h.dropHid rfl ?_
      rintro (hs | hv | ht)
      · exact .inl hs
      · cases hv
      · exact .inr (.inr ht)
    · exact h
  | connectTouchHid =>
    simp only [SourceEvent.next]
    split
    · exact h
    · exact fun _ => rfl
  | touchHidFrame touch now =>
    simp only [SourceEvent.next]
    split
    · refine h.frame ?_ fun _ => ?_
      · simp [DeviceHandle.flags]
      · simp
    · exact h
  | dropTouchHid =>
    simp only [SourceEvent.next]
    split
    · refine h.dropHid rfl ?_
      rintro (hs | hv | ht)
      · exact .inl hs
      · exact .inr (.inl hv)
      · cases ht
    · exact h
  | connectHid => exact h
  | hidReport report now =>
    simp only [SourceEvent.next]
    split
    · exact h.frame (p.device.applyButtonReport_flags now report)
        (p.device.applyButtonReport_connected report now)
    · exact h
  | dropHid =>
    simp only [SourceEvent.next]
    split
    · exact h.dropHid rfl id
    · exact h

/-- An event that ends no source leaves some source connected, or does nothing.

**Proof sketch.** The cases are the events. A source that connects is connected behind it, and a
frame comes from a source that is. -/
lemma next_eq_or_hasSource (p : Player) {e : SourceEvent} (he : e.isDrop = false) :
    e.next p = p ∨ (e.next p).HasSource := by
  cases e with
  | connectSerial =>
    simp only [SourceEvent.next]
    split
    · exact .inl rfl
    · exact .inr (.inl rfl)
  | serialFrame frame now =>
    simp only [SourceEvent.next]
    split
    · next hs => exact .inr (.inl hs)
    · exact .inl rfl
  | connectVendor =>
    simp only [SourceEvent.next]
    split
    · exact .inl rfl
    · exact .inr (.inr (.inl rfl))
  | vendorFrame frame now =>
    simp only [SourceEvent.next]
    split
    · next hv =>
      have hcongr := hasSource_congr (p := p)
        (q := { p with device := p.device.applyParsedFrame frame .synthetic now }) rfl
        (p.device.applyParsedFrame_flags .synthetic now frame)
      exact .inr (hcongr.1.mpr (.inr (.inl hv)))
    · exact .inl rfl
  | connectTouchHid =>
    simp only [SourceEvent.next]
    split
    · exact .inl rfl
    · exact .inr (.inr (.inr (.inl rfl)))
  | touchHidFrame touch now =>
    simp only [SourceEvent.next]
    split
    · next ht => exact .inr (.inr (.inr (.inl (by simpa using ht))))
    · exact .inl rfl
  | connectHid => exact .inr (.inr (.inr (.inr rfl)))
  | hidReport report now =>
    simp only [SourceEvent.next]
    split
    · next hh =>
      have hcongr := hasSource_congr (p := p)
        (q := { p with device := p.device.applyButtonReport report now }) rfl
        (p.device.applyButtonReport_flags now report)
      exact .inr (hcongr.1.mpr (.inr (.inr (.inr hh))))
    · exact .inl rfl
  | dropSerial => cases he
  | dropVendor => cases he
  | dropTouchHid => cases he
  | dropHid => cases he

/-- The drop of the serial session marks the page if a HID is connected, and clears it
otherwise. -/
lemma connectedTruthful_dropSerial (p : Player) :
    (SourceEvent.dropSerial.next p).ConnectedTruthful := by
  intro hnone
  simp only [SourceEvent.next, DeviceHandle.disconnectSession] at hnone ⊢
  split
  · next hhid =>
    rw [if_pos hhid] at hnone
    exact absurd (.inr hhid) hnone
  · rfl

/-- Behind the drop of a HID the flag is truthful if another source is connected, or if the page
was not marked before. -/
lemma connectedTruthful_clearInputs {d : DeviceHandle} {session : Bool} :
    ConnectedTruthful ⟨d.clearInputsOnSourceDrop, session⟩ ↔
      HasSource ⟨d, session⟩ ∨ d.inputPage.connected = 0 := by
  have hcongr := hasSource_congr (p := ⟨d, session⟩) (q := ⟨d.clearInputsOnSourceDrop, session⟩)
    rfl d.clearInputsOnSourceDrop_flags
  rw [ConnectedTruthful, hcongr.1, d.clearInputsOnSourceDrop_connected]
  exact or_iff_not_imp_left.symm

/-- **What an event does to the connected flag**: it stays truthful exactly if the event does not
drop the vendor HID or the touch HID as the last source, nor the button HID from a marked page.

**Proof sketch.** A serial drop marks the page if a HID is connected, and clears it otherwise. A
HID drop leaves the mark, which the vendor and the touch HID have set and the button HID may not
have. Every other event keeps some source connected, or does nothing. -/
theorem connectedTruthful_next_iff (hmarked : p.Marked) (h : p.ConnectedTruthful)
    (e : SourceEvent) : (e.next p).ConnectedTruthful ↔ p.LastDropClears e := by
  have hother (he : e.isDrop = false) : (e.next p).ConnectedTruthful := by
    rcases p.next_eq_or_hasSource he with hsame | hsource
    · rwa [hsame]
    · exact fun hnone => absurd hsource hnone
  cases e with
  | dropSerial => exact iff_of_true p.connectedTruthful_dropSerial trivial
  | dropVendor =>
    by_cases hv : p.device.vendorConnected = true
    · -- the vendor HID has marked the page
      have hmark := hmarked (.inr (.inl hv))
      simp only [LastDropClears, SourceEvent.next, if_pos hv, connectedTruthful_clearInputs, hmark]
      simp [HasSource, hv]
    · rw [show SourceEvent.dropVendor.next p = p from if_neg hv]
      exact iff_of_true h fun hv' => absurd hv' hv
  | dropTouchHid =>
    by_cases ht : p.device.touchHidConnected = true
    · have hmark := hmarked (.inr (.inr ht))
      simp only [LastDropClears, SourceEvent.next, if_pos ht, connectedTruthful_clearInputs, hmark]
      simp [HasSource, ht]
    · rw [show SourceEvent.dropTouchHid.next p = p from if_neg ht]
      exact iff_of_true h fun ht' => absurd ht' ht
  | dropHid =>
    by_cases hh : p.device.hidConnected = true
    · simp only [LastDropClears, SourceEvent.next, if_pos hh, connectedTruthful_clearInputs]
      simp [HasSource, HasMarkingSource, hh]
    · rw [show SourceEvent.dropHid.next p = p from if_neg hh]
      exact iff_of_true h fun hh' => absurd hh' hh
  | _ => exact iff_of_true (hother rfl) trivial

end Player

/-- **When the connected flag is truthful**: exactly if the last source to drop is always the
serial session, or the button HID while the page is not marked.

**Proof sketch.** The sources that mark the page find it marked (`Player.Marked.next`), so by
`Player.connectedTruthful_next_iff` each event keeps the flag truthful exactly under the
condition. -/
theorem connected_truthful_iff (enabled : Bool) (es : List SourceEvent) :
    Run.Always SourceEvent.step (.init enabled) es Player.ConnectedTruthful ↔
      Run.EachStep SourceEvent.step (.init enabled) es Player.LastDropClears := by
  refine Run.always_iff (I := Player.Marked) ?_ ?_ (fun _ => rfl) ?_
  · rintro (hs | hv | ht)
    · cases hs
    · cases hv
    · cases ht
  · intro e p q hp hq
    obtain rfl := Except.ok.inj hq
    exact hp.next e
  · intro e p q hmarked hp hq
    obtain rfl := Except.ok.inj hq
    exact Player.connectedTruthful_next_iff hmarked hp e

/-- The vendor HID connects and drops, with no other source. -/
theorem mark_left_behind :
    ¬ Run.Always SourceEvent.step (.init true) [.connectVendor, .dropVendor]
      Player.ConnectedTruthful := by
  intro h
  have hpage := h [.connectVendor, .dropVendor] _ (List.prefix_refl _) rfl
    (by rintro (hs | hv | ht | hh) <;> contradiction)
  exact absurd hpage (by decide)

end Affine
