import Affine.Mai2.Device
import Mathlib.Logic.Function.Basic
import Mathlib.Logic.Relation

set_option relaxedAutoImplicit false
set_option autoImplicit false

/-!
# Races between the drops of the HID sources

The vendor thread, the touch thread and the button thread of a player run side by side. Each sets
its own flag when it has opened its device, writes frames into the input page, and behind the loop
clears its flag and runs `clear_inputs_on_source_drop`, which loads the flags one by one and then
updates the page. A step below is one access to a flag or one update of the page, and the threads
take their steps in any order.

Two sources that drop at once may each see the other one alive. Still no input is left behind,
because a thread that sees a flag set leaves the clearing to the thread of that flag, which has it
still before it (`Affine.HidRace.Inv`).

## Main definitions

* `Affine.HidSource`, `Affine.HidPc`, `Affine.ClearPc` — the threads, and where they are.
* `Affine.HidRace`, `Affine.HidRace.Step` — the player with its threads, and their steps.
* `Affine.InputField` — the buttons and the touch of the page.

## Main results

* `Affine.ClearPc.next_spec` — what a step of `clear_inputs_on_source_drop` does.
* `Affine.ClearPc.alone` — without other steps it is `DeviceHandle.clearInputsOnSourceDrop`.
* `Affine.no_held_input_after_drops` — no interleaving leaves held input.
-/

namespace Affine

/-- The HID threads of a player: `vendor_command_thread`, `touch_hid_thread`, `hid_thread`. -/
inductive HidSource
  | vendor
  | touchHid
  | hid
  deriving DecidableEq

namespace DeviceHandle

variable (d : DeviceHandle)

/-- The flag of a source. -/
def flag : HidSource → Bool
  | .vendor => d.vendorConnected
  | .touchHid => d.touchHidConnected
  | .hid => d.hidConnected

/-- A store to the flag of a source. -/
def storeFlag (i : HidSource) (connected : Bool) : DeviceHandle :=
  match i with
  | .vendor => { d with vendorConnected := connected }
  | .touchHid => { d with touchHidConnected := connected }
  | .hid => { d with hidConnected := connected }

/-- The page update of `clear_inputs_on_source_drop`. -/
def clearUpdate (buttonsLive touchLive : Bool) : DeviceHandle :=
  let page := d.inputPage
  let clearButtons := !buttonsLive ∧ (page.buttons0 ≠ 0 ∨ page.ioStatus ≠ 0)
  let clearTouch := !touchLive ∧ page.touch ≠ noTouch
  { d with
    inputPage := {
      buttons0 := if clearButtons then 0 else page.buttons0
      ioStatus := if clearButtons then 0 else page.ioStatus
      connected := page.connected
      touch := if clearTouch then noTouch else page.touch
      sequence := if clearButtons ∨ clearTouch then page.sequence + 1 else page.sequence } }

/-- `clear_inputs_on_source_drop` updates the page unless both inputs have a live source. -/
lemma clearInputsOnSourceDrop_eq :
    d.clearInputsOnSourceDrop =
      if (d.hidConnected || d.vendorConnected) ∧ (d.touchHidConnected || d.vendorConnected) then d
      else d.clearUpdate (d.hidConnected || d.vendorConnected)
        (d.touchHidConnected || d.vendorConnected) := rfl

/-- A store to a flag is seen in this flag only. -/
lemma storeFlag_flag (i j : HidSource) (connected : Bool) :
    (d.storeFlag i connected).flag j = if j = i then connected else d.flag j := by
  cases i <;> cases j <;> rfl

/-- A store to a flag leaves the input page. -/
lemma storeFlag_inputPage (i : HidSource) (connected : Bool) :
    (d.storeFlag i connected).inputPage = d.inputPage := by
  cases i <;> rfl

/-- The mark of a connection leaves the flags. -/
lemma markConnected_flag (j : HidSource) : d.markConnected.flag j = d.flag j := by
  cases j <;> rfl

/-- A device frame leaves the flags. -/
lemma applyDeviceFrame_flag (buttons0 ioStatus : Option UInt8)
    (touch : Option (List.Vector UInt8 7)) (source : TouchSource) (now : UInt64) (j : HidSource) :
    (d.applyDeviceFrame buttons0 ioStatus touch source now).flag j = d.flag j := by
  cases j <;> simp [flag]

/-- A button report leaves the flags. -/
lemma applyButtonReport_flag (report : List UInt8) (now : UInt64) (j : HidSource) :
    (d.applyButtonReport report now).flag j = d.flag j := by
  have hflags := d.applyButtonReport_flags now report
  simp only [flags, Prod.mk.injEq] at hflags
  cases j
  · exact hflags.2.1
  · exact hflags.2.2
  · exact hflags.1

end DeviceHandle

/-- Where a thread is in `clear_inputs_on_source_drop`: before one of its loads, or before the page
update, with what it has found so far. -/
inductive ClearPc
  | loadHid
  | loadVendor
  | loadTouchHid (buttonsLive : Bool)
  | loadVendorAgain (buttonsLive : Bool)
  | update (buttonsLive touchLive : Bool)

/-- Where a thread is: without a device, behind the store to its flag, in its loop, between the load
and the page update of the vendor thread, or behind its loop. -/
inductive HidPc
  | apart
  | opened
  | serving
  | applying (useHidButtons : Bool) (buttons0 ioStatus : Option UInt8)
      (touch : Option (List.Vector UInt8 7))
  | clearing (c : ClearPc)

/-- The thread has opened its device and not left its loop. -/
def HidPc.IsOpen : HidPc → Prop
  | apart | clearing _ => False
  | opened | serving | applying _ _ _ _ => True

namespace ClearPc

/-- The end of the loads: there is nothing to clear, or the page is to be updated. -/
def afterLoads (buttonsLive touchLive : Bool) : Option ClearPc :=
  if buttonsLive ∧ touchLive then none else some (.update buttonsLive touchLive)

/-- A step of `clear_inputs_on_source_drop`: where the thread is behind it, if the call has not
returned, and the device. -/
def next (d : DeviceHandle) : ClearPc → Option ClearPc × DeviceHandle
  | loadHid => (some (if d.hidConnected then .loadTouchHid true else .loadVendor), d)
  | loadVendor => (some (.loadTouchHid d.vendorConnected), d)
  | loadTouchHid buttonsLive =>
    (if d.touchHidConnected then afterLoads buttonsLive true
      else some (.loadVendorAgain buttonsLive), d)
  | loadVendorAgain buttonsLive => (afterLoads buttonsLive d.vendorConnected, d)
  | update buttonsLive touchLive => (none, d.clearUpdate buttonsLive touchLive)

/-- A step of the call when no other thread takes one. -/
def StepAlone (s t : Option ClearPc × DeviceHandle) : Prop := ∃ c, s.1 = some c ∧ t = c.next s.2

/-- Behind its loads the call takes the update alone, if there is one. -/
lemma alone_afterLoads (d : DeviceHandle) (b t : Bool) :
    Relation.ReflTransGen StepAlone (afterLoads b t, d)
      (none, if b ∧ t then d else d.clearUpdate b t) := by
  unfold afterLoads
  split
  · exact .refl
  · exact .single ⟨_, rfl, rfl⟩

/-- From the load of the touch flag on the call goes on to its end alone. -/
lemma alone_loadTouchHid (d : DeviceHandle) (b : Bool) :
    Relation.ReflTransGen StepAlone (some (.loadTouchHid b), d)
      (none, if b ∧ (d.touchHidConnected || d.vendorConnected) then d
        else d.clearUpdate b (d.touchHidConnected || d.vendorConnected)) := by
  cases ht : d.touchHidConnected with
  | true =>
    refine .head ⟨_, rfl, rfl⟩ ?_
    rw [next, ht, if_pos rfl, Bool.true_or]
    exact alone_afterLoads d b true
  | false =>
    refine .head ⟨_, rfl, rfl⟩ (.head ⟨.loadVendorAgain b, ?_, rfl⟩ ?_)
    · rw [next, ht, if_neg Bool.false_ne_true]
    · rw [Bool.false_or]
      simp only [next]
      exact alone_afterLoads d b d.vendorConnected

/-- Without other steps, the call does what `DeviceHandle.clearInputsOnSourceDrop` says. -/
lemma alone (d : DeviceHandle) :
    Relation.ReflTransGen StepAlone (some .loadHid, d) (none, d.clearInputsOnSourceDrop) := by
  have htouch := alone_loadTouchHid d (d.hidConnected || d.vendorConnected)
  rw [← d.clearInputsOnSourceDrop_eq] at htouch
  cases hh : d.hidConnected with
  | true =>
    rw [hh, Bool.true_or] at htouch
    refine .head ⟨_, rfl, rfl⟩ ?_
    rw [next, hh, if_pos rfl]
    exact htouch
  | false =>
    rw [hh, Bool.false_or] at htouch
    refine .head ⟨_, rfl, rfl⟩ (.head ⟨.loadVendor, ?_, rfl⟩ ?_)
    · rw [next, hh, if_neg Bool.false_ne_true]
    · exact htouch

end ClearPc

/-! ## The steps of the threads -/

/-- A player with its HID threads, and no serial session. -/
structure HidRace where
  device : DeviceHandle
  pc : HidSource → HidPc

namespace HidRace

/-- A thread takes a step: the device behind it, and where the thread is then. -/
def move (s : HidRace) (i : HidSource) (device : DeviceHandle) (pc : HidPc) : HidRace where
  device := device
  pc := Function.update s.pc i pc

/-- The steps of the threads. -/
inductive Step (s : HidRace) : HidRace → Prop
  /-- The device of a source is not there, or does not open. -/
  | retry (i : HidSource) (h : s.pc i = .apart) :
      Step s (s.move i (s.device.storeFlag i false) .apart)
  /-- The device opens. The button thread goes on to its loop. -/
  | connect (i : HidSource) (h : s.pc i = .apart) :
      Step s (s.move i (s.device.storeFlag i true) (if i = .hid then .serving else .opened))
  | markConnected (i : HidSource) (h : s.pc i = .opened) :
      Step s (s.move i s.device.markConnected .serving)
  /-- The vendor thread loads the flag of the button HID for a touch frame. -/
  | vendorLoad (buttons0 ioStatus : Option UInt8) (touch : Option (List.Vector UInt8 7))
      (h : s.pc .vendor = .serving) :
      Step s (s.move .vendor s.device
        (.applying (!s.device.hidConnected) buttons0 ioStatus touch))
  | vendorApply (useHidButtons : Bool) (buttons0 ioStatus : Option UInt8)
      (touch : Option (List.Vector UInt8 7)) (now : UInt64)
      (h : s.pc .vendor = .applying useHidButtons buttons0 ioStatus touch) :
      Step s (s.move .vendor
        (s.device.applyDeviceFrame (if useHidButtons then buttons0 else none)
          (if useHidButtons then ioStatus else none) touch .synthetic now) .serving)
  | touchFrame (touch : List.Vector UInt8 7) (now : UInt64) (h : s.pc .touchHid = .serving) :
      Step s (s.move .touchHid
        (s.device.applyDeviceFrame none none (some touch) .touchHid now) .serving)
  | buttonReport (report : List UInt8) (now : UInt64) (h : s.pc .hid = .serving) :
      Step s (s.move .hid (s.device.applyButtonReport report now) .serving)
  /-- The loop of a thread ends, and the thread clears its flag. -/
  | drop (i : HidSource) (h : s.pc i = .serving) :
      Step s (s.move i (s.device.storeFlag i false) (.clearing .loadHid))
  /-- A step of `clear_inputs_on_source_drop`. -/
  | clear (i : HidSource) (c : ClearPc) (h : s.pc i = .clearing c) :
      Step s (s.move i (c.next s.device).2
        (match (c.next s.device).1 with | some c' => .clearing c' | none => .apart))

/-- No source is connected, and the page holds no input. -/
structure Cleared (d : DeviceHandle) : Prop where
  flags : ∀ i, d.flag i = false
  buttons0 : d.inputPage.buttons0 = 0
  ioStatus : d.inputPage.ioStatus = 0
  touch : d.inputPage.touch = noTouch

/-- The threads at their start. -/
def start (d : DeviceHandle) : HidRace where
  device := d
  pc := fun _ => .apart

/-- What the threads can come to in any interleaving. -/
def Reaches : HidRace → HidRace → Prop := Relation.ReflTransGen Step

/-- Every source has dropped, and its thread has finished clearing. -/
def AllDropped (s : HidRace) : Prop :=
  (∀ i, s.device.flag i = false) ∧ ∀ i c, s.pc i ≠ .clearing c

end HidRace

/-! ## The fields of the page -/

/-- The input fields of the page: the buttons with the status bits, and the touch. -/
inductive InputField
  | buttons
  | touch

namespace InputField

/-- The source writes the field. -/
def FedBy : InputField → HidSource → Prop
  | buttons, i => i = .hid ∨ i = .vendor
  | touch, i => i = .touchHid ∨ i = .vendor

/-- The field is zero. -/
def Clear (page : Mai2InputPage) : InputField → Prop
  | buttons => page.buttons0 = 0 ∧ page.ioStatus = 0
  | touch => page.touch = noTouch

/-- A thread that is here in `clear_inputs_on_source_drop` has not yet seen a source of the field,
so that it will clear the field unless it sees one. -/
def Owed : InputField → ClearPc → Prop
  | buttons, .loadHid | buttons, .loadVendor => True
  | buttons, .loadTouchHid b | buttons, .loadVendorAgain b | buttons, .update b _ => b = false
  | touch, .update _ t => t = false
  | touch, _ => True

/-- A source of the field is connected. -/
def Live (k : InputField) (d : DeviceHandle) : Prop := ∃ i, k.FedBy i ∧ d.flag i = true

end InputField

open InputField

/-- The page update leaves the flags and the fields that are clear. -/
lemma DeviceHandle.clearUpdate_clear (d : DeviceHandle) (b t : Bool) (k : InputField)
    (h : k.Clear d.inputPage) : k.Clear (d.clearUpdate b t).inputPage := by
  cases k with
  | buttons =>
    obtain ⟨hbuttons, hstatus⟩ := h
    simp [Clear, clearUpdate, hbuttons, hstatus]
  | touch =>
    have htouch : d.inputPage.touch = noTouch := h
    simp [Clear, clearUpdate, htouch]

/-- The page update clears the fields for which no source was seen. -/
lemma DeviceHandle.clearUpdate_owed (d : DeviceHandle) (b t : Bool) (k : InputField)
    (h : k.Owed (.update b t)) : k.Clear (d.clearUpdate b t).inputPage := by
  cases k with
  | buttons =>
    obtain rfl : b = false := h
    by_cases hzero : d.inputPage.buttons0 ≠ 0 ∨ d.inputPage.ioStatus ≠ 0
    · simp [Clear, clearUpdate, hzero]
    · have hclear := not_or.mp hzero
      exact d.clearUpdate_clear false t .buttons ⟨not_not.mp hclear.1, not_not.mp hclear.2⟩
  | touch =>
    obtain rfl : t = false := h
    by_cases hzero : d.inputPage.touch = noTouch <;> simp [Clear, clearUpdate, hzero]

/-- A thread that has seen no source of a field goes on to the page update. -/
lemma ClearPc.owed_afterLoads {b t : Bool} {k : InputField} (h : k.Owed (.update b t)) :
    ∃ c, afterLoads b t = some c ∧ k.Owed c := by
  refine ⟨.update b t, if_neg ?_, h⟩
  rintro ⟨rfl, rfl⟩
  cases k <;> cases h

/-- **What a step of `clear_inputs_on_source_drop` does**: it leaves the flags and the fields that
are clear, and a thread that owes a field clears it now, or still owes it, or has seen a source of
the field.

**Proof sketch.** The steps one by one: each load finds the flag set, which makes the field live,
or leaves what the thread owes. -/
theorem ClearPc.next_spec (d : DeviceHandle) (c : ClearPc) (k : InputField) :
    (∀ i, (c.next d).2.flag i = d.flag i) ∧
      (k.Clear d.inputPage → k.Clear (c.next d).2.inputPage) ∧
      (k.Owed c → k.Clear (c.next d).2.inputPage ∨ k.Live d ∨
        ∃ c', (c.next d).1 = some c' ∧ k.Owed c') := by
  cases c with
  | update b t =>
    refine ⟨fun i => ?_, d.clearUpdate_clear b t k, fun h => .inl (d.clearUpdate_owed b t k h)⟩
    cases i <;> rfl
  | loadHid =>
    refine ⟨fun _ => rfl, id, fun h => .inr ?_⟩
    cases hflag : d.hidConnected with
    | true =>
      cases k with
      | buttons => exact .inl ⟨.hid, .inl rfl, hflag⟩
      | touch => exact .inr ⟨.loadTouchHid true, by simp [next, hflag], trivial⟩
    | false =>
      refine .inr ⟨.loadVendor, by simp [next, hflag], ?_⟩
      cases k <;> exact trivial
  | loadVendor =>
    refine ⟨fun _ => rfl, id, fun h => .inr ?_⟩
    cases hflag : d.vendorConnected with
    | true =>
      exact .inl ⟨.vendor, by cases k <;> exact .inr rfl, hflag⟩
    | false =>
      refine .inr ⟨.loadTouchHid false, by simp [next, hflag], ?_⟩
      cases k
      · exact rfl
      · exact trivial
  | loadTouchHid b =>
    refine ⟨fun _ => rfl, id, fun h => .inr ?_⟩
    cases hflag : d.touchHidConnected with
    | true =>
      cases k with
      | buttons =>
        obtain ⟨c, hc, howed⟩ := owed_afterLoads (t := true) (k := .buttons) h
        exact .inr ⟨c, by simp [next, hflag, hc], howed⟩
      | touch => exact .inl ⟨.touchHid, .inl rfl, hflag⟩
    | false =>
      refine .inr ⟨.loadVendorAgain b, by simp [next, hflag], ?_⟩
      cases k
      · exact h
      · exact trivial
  | loadVendorAgain b =>
    refine ⟨fun _ => rfl, id, fun h => .inr ?_⟩
    cases hflag : d.vendorConnected with
    | true => exact .inl ⟨.vendor, by cases k <;> exact .inr rfl, hflag⟩
    | false =>
      have howed : k.Owed (.update b false) := by
        cases k
        · exact h
        · exact rfl
      obtain ⟨c, hc, hck⟩ := owed_afterLoads howed
      exact .inr ⟨c, by simp [next, hflag, hc], hck⟩

/-! ## The invariant -/

namespace HidRace

variable {s t : HidRace}

/-- The field will be cleared when its sources have dropped: one of them is connected, or a thread
owes it. -/
def Held (s : HidRace) (k : InputField) : Prop :=
  k.Live s.device ∨ ∃ i c, s.pc i = .clearing c ∧ k.Owed c

/-- The flag of a source is set exactly while its device is open, and a field that is not clear is
held. -/
structure Inv (s : HidRace) : Prop where
  alive : ∀ i, s.device.flag i = true ↔ (s.pc i).IsOpen
  held : ∀ k : InputField, ¬ k.Clear s.device.inputPage → s.Held k

section Move

variable {i : HidSource} {device : DeviceHandle} {pc : HidPc}

/-- A step that leaves the flags of the other sources keeps the flags right. -/
lemma alive_move (h : ∀ j, s.device.flag j = true ↔ (s.pc j).IsOpen)
    (hother : ∀ j, j ≠ i → device.flag j = s.device.flag j)
    (hi : device.flag i = true ↔ pc.IsOpen) (j : HidSource) :
    (s.move i device pc).device.flag j = true ↔ ((s.move i device pc).pc j).IsOpen := by
  rcases eq_or_ne j i with rfl | hne
  · simpa only [move, Function.update_self] using hi
  · simp only [move, Function.update_of_ne hne, hother j hne]
    exact h j

/-- A step of a thread that is not clearing keeps what is held, if it leaves the flags that are
set. -/
lemma Held.move {k : InputField} (h : s.Held k) (hpc : ∀ c, s.pc i ≠ .clearing c)
    (hflags : ∀ j, s.device.flag j = true → device.flag j = true) :
    (s.move i device pc).Held k := by
  rcases h with ⟨j, hfed, hj⟩ | ⟨j, c, hj, howed⟩
  · exact .inl ⟨j, hfed, hflags j hj⟩
  · refine .inr ⟨j, c, ?_, howed⟩
    have hne : j ≠ i := by
      rintro rfl
      exact hpc c hj
    simp only [HidRace.move, Function.update_of_ne hne, hj]

/-- A step of a thread whose device stays open keeps the flags right, if it leaves them. -/
lemma alive_of_open (h : ∀ j, s.device.flag j = true ↔ (s.pc j).IsOpen) (hbefore : (s.pc i).IsOpen)
    (hopen : pc.IsOpen) (hflags : ∀ j, device.flag j = s.device.flag j) (j : HidSource) :
    (s.move i device pc).device.flag j = true ↔ ((s.move i device pc).pc j).IsOpen := by
  refine alive_move h (fun j _ => hflags j) (iff_of_true ?_ hopen) j
  rw [hflags, h i]
  exact hbefore

/-- A step that writes the fields of a connected source, and no others, keeps what is held. -/
lemma Inv.held_write (hinv : s.Inv) (hopen : (s.pc i).IsOpen)
    (hflags : ∀ j, device.flag j = s.device.flag j) {k : InputField}
    (hpage : k.FedBy i ∨ (k.Clear s.device.inputPage → k.Clear device.inputPage))
    (hk : ¬ k.Clear device.inputPage) : (s.move i device pc).Held k := by
  have hkept : ∀ j, s.device.flag j = true → device.flag j = true :=
    fun j hj => (hflags j).trans hj
  rcases hpage with hfed | hclear
  · exact .inl ⟨i, hfed, hkept i ((hinv.alive i).mpr hopen)⟩
  · refine (hinv.held k (mt hclear hk)).move (fun c hc => ?_) hkept
    rw [hc] at hopen
    exact hopen

end Move

/-- **A step keeps the flags right.**

**Proof sketch.** A thread stores to its own flag when it opens its device and behind its loop, and
no other step changes a flag. -/
theorem Step.alive (halive : ∀ i, s.device.flag i = true ↔ (s.pc i).IsOpen) (h : s.Step t) :
    ∀ i, t.device.flag i = true ↔ (t.pc i).IsOpen := by
  cases h with
  | retry i hpc =>
    refine alive_move halive (fun j hj => by rw [s.device.storeFlag_flag, if_neg hj]) ?_
    rw [s.device.storeFlag_flag, if_pos rfl]
    exact iff_of_false Bool.false_ne_true id
  | connect i hpc =>
    refine alive_move halive (fun j hj => by rw [s.device.storeFlag_flag, if_neg hj]) ?_
    rw [s.device.storeFlag_flag, if_pos rfl]
    refine iff_of_true rfl ?_
    split <;> exact trivial
  | markConnected i hpc =>
    exact alive_of_open halive (by rw [hpc]; exact trivial) trivial s.device.markConnected_flag
  | vendorLoad buttons0 ioStatus touch hpc =>
    exact alive_of_open halive (by rw [hpc]; exact trivial) trivial fun _ => rfl
  | vendorApply useHidButtons buttons0 ioStatus touch now hpc =>
    exact alive_of_open halive (by rw [hpc]; exact trivial) trivial
      (s.device.applyDeviceFrame_flag _ _ _ _ _)
  | touchFrame touch now hpc =>
    exact alive_of_open halive (by rw [hpc]; exact trivial) trivial
      (s.device.applyDeviceFrame_flag _ _ _ _ _)
  | buttonReport report now hpc =>
    exact alive_of_open halive (by rw [hpc]; exact trivial) trivial
      (s.device.applyButtonReport_flag _ _)
  | drop i hpc =>
    refine alive_move halive (fun j hj => by rw [s.device.storeFlag_flag, if_neg hj]) ?_
    rw [s.device.storeFlag_flag, if_pos rfl]
    exact iff_of_false Bool.false_ne_true id
  | clear i c hpc =>
    have hflags := (c.next_spec s.device .touch).1
    refine alive_move halive (fun j _ => hflags j) ?_
    have hi := halive i
    rw [hpc] at hi
    rw [hflags i, hi]
    cases (c.next s.device).1 <;> exact Iff.rfl

/-- **A step keeps the invariant.**

**Proof sketch.** A frame writes fields of a connected source. A drop leaves a thread that owes
both fields. A step of the clearing thread clears what it owes, or still owes it, or has seen a
source of it (`ClearPc.next_spec`). -/
theorem Inv.step (hinv : s.Inv) (h : s.Step t) : t.Inv := by
  refine ⟨h.alive hinv.alive, fun k hk => ?_⟩
  cases h with
  | retry i hpc =>
    simp only [HidRace.move, s.device.storeFlag_inputPage] at hk
    refine (hinv.held k hk).move (fun c hc => ?_) fun j hj => ?_
    · rw [hpc] at hc
      cases hc
    · -- the flag that is stored was not set
      have hne : j ≠ i := by
        rintro rfl
        have := (hinv.alive j).mp hj
        rw [hpc] at this
        exact this
      rw [s.device.storeFlag_flag, if_neg hne, hj]
  | connect i hpc =>
    simp only [HidRace.move, s.device.storeFlag_inputPage] at hk
    refine (hinv.held k hk).move (fun c hc => ?_) fun j hj => ?_
    · rw [hpc] at hc
      cases hc
    · rw [s.device.storeFlag_flag, hj, ite_self]
  | markConnected i hpc =>
    refine hinv.held_write (by rw [hpc]; exact trivial) s.device.markConnected_flag (.inr ?_) hk
    intro hclear
    cases k <;> exact hclear
  | vendorLoad buttons0 ioStatus touch hpc =>
    exact hinv.held_write (by rw [hpc]; exact trivial) (fun _ => rfl) (.inr id) hk
  | vendorApply useHidButtons buttons0 ioStatus touch now hpc =>
    refine hinv.held_write (by rw [hpc]; exact trivial)
      (s.device.applyDeviceFrame_flag _ _ _ _ _) (.inl ?_) hk
    cases k <;> exact .inr rfl
  | touchFrame touch now hpc =>
    refine hinv.held_write (by rw [hpc]; exact trivial)
      (s.device.applyDeviceFrame_flag _ _ _ _ _) ?_ hk
    cases k with
    | buttons => exact .inr fun hclear => by simpa [Clear] using hclear
    | touch => exact .inl (.inl rfl)
  | buttonReport report now hpc =>
    refine hinv.held_write (by rw [hpc]; exact trivial)
      (s.device.applyButtonReport_flag _ _) ?_ hk
    cases k with
    | buttons => exact .inl (.inl rfl)
    | touch =>
      exact .inr fun hclear => (s.device.applyButtonReport_touch now report).trans hclear
  | drop i hpc =>
    refine .inr ⟨i, .loadHid, Function.update_self .., ?_⟩
    cases k <;> exact trivial
  | clear i c hpc =>
    obtain ⟨hflags, hclear, howes⟩ := c.next_spec s.device k
    have hlive : k.Live s.device → k.Live (c.next s.device).2 := by
      rintro ⟨j, hfed, hj⟩
      exact ⟨j, hfed, (hflags j).trans hj⟩
    rcases hinv.held k (mt hclear hk) with h | ⟨j, c', hj, howed⟩
    · exact .inl (hlive h)
    · rcases eq_or_ne j i with rfl | hne
      · obtain rfl : c = c' := by
          rw [hpc] at hj
          exact HidPc.clearing.inj hj
        rcases howes howed with hcleared | h | ⟨c', hnext, howed'⟩
        · exact absurd hcleared hk
        · exact .inl (hlive h)
        · refine .inr ⟨j, c', ?_, howed'⟩
          simp only [HidRace.move, Function.update_self, hnext]
      · refine .inr ⟨j, c', ?_, howed⟩
        simp only [HidRace.move, Function.update_of_ne hne, hj]

/-- Every interleaving keeps the invariant. -/
lemma Inv.reaches (hinv : s.Inv) (h : s.Reaches t) : t.Inv := by
  induction h with
  | refl => exact hinv
  | tail _ hstep ih => exact ih.step hstep

/-- The threads start in the invariant. -/
lemma Cleared.inv {d : DeviceHandle} (hd : Cleared d) : (start d).Inv := by
  refine ⟨fun i => ?_, fun k hk => absurd ?_ hk⟩
  · rw [start, hd.flags i]
    exact iff_of_false Bool.false_ne_true id
  · cases k with
    | buttons => exact ⟨hd.buttons0, hd.ioStatus⟩
    | touch => exact hd.touch

end HidRace

/-- **Races between drops leave no held input**: from a cleared page, in every interleaving of the
threads, once all flags are clear and every thread has finished its clearing, the buttons, the
status bits and the touch of the page are zero.

**Proof sketch.** A field that is not clear is held by a connected source or by a thread that is
still to clear it (`HidRace.Inv.step`), and there is neither. -/
theorem no_held_input_after_drops (d : DeviceHandle) (hd : HidRace.Cleared d) (s : HidRace)
    (h : (HidRace.start d).Reaches s) (hdropped : s.AllDropped) :
    s.device.inputPage.buttons0 = 0 ∧ s.device.inputPage.ioStatus = 0 ∧
      s.device.inputPage.touch = noTouch := by
  obtain ⟨hflags, hclearing⟩ := hdropped
  have hclear : ∀ k : InputField, k.Clear s.device.inputPage := by
    intro k
    by_contra hk
    rcases (hd.inv.reaches h).held k hk with ⟨i, -, hi⟩ | ⟨i, c, hi, -⟩
    · rw [hflags i] at hi
      exact Bool.false_ne_true hi
    · exact hclearing i c hi
  exact ⟨(hclear .buttons).1, (hclear .buttons).2, hclear .touch⟩

/-- The touch and the button HID deliver input and drop at the same time, before either of their
threads clears anything. -/
theorem no_held_input_after_two_drops :
    ∃ s, (HidRace.start (.new true)).Reaches s ∧ s.device.inputPage.sequence = 4 ∧
      s.device.inputPage.buttons0 = 0 ∧ s.device.inputPage.ioStatus = 0 ∧
      s.device.inputPage.touch = noTouch := by
  have hd : HidRace.Cleared (.new true) := ⟨fun i => by cases i <;> rfl, rfl, rfl, rfl⟩
  have hfrom : Relation.ReflTransGen HidRace.Step (HidRace.start (.new true))
      (HidRace.start (.new true)) := .refl
  have hdrops := hfrom.tail (.connect .touchHid rfl) |>.tail (.markConnected .touchHid rfl)
    |>.tail (.touchFrame ⟨[1, 0, 0, 0, 0, 0, 0], rfl⟩ 1000 rfl)
    |>.tail (.connect .hid rfl) |>.tail (.buttonReport [1, 2] 1001 rfl)
    |>.tail (.drop .touchHid rfl) |>.tail (.drop .hid rfl)
  have hrun := hdrops.tail (.clear .touchHid .loadHid rfl)
    |>.tail (.clear .touchHid .loadVendor rfl)
    |>.tail (.clear .hid .loadHid rfl) |>.tail (.clear .hid .loadVendor rfl)
    |>.tail (.clear .hid (.loadTouchHid false) rfl)
    |>.tail (.clear .hid (.loadVendorAgain false) rfl)
    |>.tail (.clear .hid (.update false false) rfl)
    |>.tail (.clear .touchHid (.loadTouchHid false) rfl)
    |>.tail (.clear .touchHid (.loadVendorAgain false) rfl)
    |>.tail (.clear .touchHid (.update false false) rfl)
  refine ⟨_, hrun, by decide, no_held_input_after_drops _ hd _ hrun ⟨fun i => ?_, fun i c => ?_⟩⟩
  · cases i <;> rfl
  · cases i <;> exact nofun

end Affine
