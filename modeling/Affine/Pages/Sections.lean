import Affine.Lib.History
import Affine.Mai2.Attach
import Affine.Pages.Sequence

set_option relaxedAutoImplicit false
set_option autoImplicit false

/-!
# The sections of the mai2 pages

What the threads of a player do with its two pages under their mutexes (`affine-mai2/src/lib.rs`),
field by field and, in the arrays, byte by byte: the updates of the input sources and of the LED
calls change the page in place, and a read copies it. The other modules take each of these sections
for one step; here they are shown to be one, as the mutex makes them atomic.

So a snapshot of the input page never holds a part of a frame
(`Affine.input_snapshots_whole`), and a device loop that compares the sequence numbers of its
snapshots of the output page misses no change of an LED channel
(`Affine.output_snapshots_numbered`).

## Main definitions

* `Affine.InputPageOp`, `Affine.OutputPageOp` — the calls on the pages, with their `code` and
  `effect`.

## Main results

* `Affine.InputPageOp.code_run`, `Affine.OutputPageOp.code_run` — the sections do as a whole what the
  rest of the model says.
* `Affine.input_snapshots_whole`, `Affine.output_snapshots_numbered`.
-/

namespace Affine

open Locked (Code Field)

/-! ## The input page -/

/-- `page.touch`. -/
def Mai2InputPage.touchField : Field Mai2InputPage 7 UInt8 where
  get := fun page => page.touch.get
  put := fun v page => { page with touch := .ofFn v }
  get_put := fun v _ => funext fun i => List.Vector.get_ofFn v i
  put_put := fun _ _ _ => rfl
  put_get := fun page => by rw [List.Vector.ofFn_get]

/-- The calls on the input page of a player. -/
inductive InputPageOp
  | read
  | write (w : Mai2PageWrite)

namespace InputPageOp

/-- `page.sequence = page.sequence.wrapping_add(1)`. -/
def advance : Code Mai2InputPage Unit := do
  let sequence ← Code.load Mai2InputPage.sequence
  Code.store fun page => { page with sequence := sequence + 1 }

/-- The update of `apply_device_frame`. -/
def frame (buttons0 ioStatus : Option UInt8) (touch : Option (List.Vector UInt8 7)) :
    Code Mai2InputPage Unit := do
  Code.store fun page => { page with connected := 1 }
  Code.whenSome buttons0 fun b => Code.store fun page => { page with buttons0 := b }
  Code.whenSome ioStatus fun b => Code.store fun page => { page with ioStatus := b }
  Code.whenSome touch fun t => Mai2InputPage.touchField.copyIn (List.finRange 7) t.get
  advance

/-- The buttons in the update of `clear_inputs_on_source_drop`: whether they were changed. -/
def clearButtons (buttonsLive : Bool) : Code Mai2InputPage Bool :=
  if buttonsLive then pure false
  else do
    let buttons0 ← Code.load Mai2InputPage.buttons0
    let pressed ← if buttons0 ≠ 0 then pure true else Code.load fun page => page.ioStatus ≠ 0
    if pressed then
      Code.store fun page => { page with buttons0 := 0 }
      Code.store fun page => { page with ioStatus := 0 }
      pure true
    else pure false

/-- The touch in the update of `clear_inputs_on_source_drop`: whether it was changed. -/
def clearTouch (touchLive : Bool) : Code Mai2InputPage Bool :=
  if touchLive then pure false
  else do
    let touch ← Mai2InputPage.touchField.copyOut (List.finRange 7) fun _ => 0
    if List.Vector.ofFn touch ≠ noTouch then
      Mai2InputPage.touchField.copyIn (List.finRange 7) noTouch.get
      pure true
    else pure false

/-- The update of `clear_inputs_on_source_drop`. -/
def clear (buttonsLive touchLive : Bool) : Code Mai2InputPage Unit := do
  let buttonsChanged ← clearButtons buttonsLive
  let touchChanged ← clearTouch touchLive
  if buttonsChanged || touchChanged then advance else pure ()

/-- What a write of the page does under the mutex, access by access. -/
def writeCode : Mai2PageWrite → Code Mai2InputPage Unit
  | .markConnected => do
    Code.store fun page => { page with connected := 1 }
    advance
  | .frame buttons0 ioStatus touch => frame buttons0 ioStatus touch
  | .clear buttonsLive touchLive => clear buttonsLive touchLive
  | .reset => do
    Code.store fun page => { page with buttons0 := 0 }
    Code.store fun page => { page with ioStatus := 0 }
    Code.store fun page => { page with connected := 0 }
    Mai2InputPage.touchField.copyIn (List.finRange 7) noTouch.get
    Code.store fun page => { page with sequence := 0 }

/-- What a call does under the mutex, access by access. A read returns what it has copied. -/
def code : InputPageOp → Code Mai2InputPage (Option Mai2InputPage)
  | read => do
    let buttons0 ← Code.load Mai2InputPage.buttons0
    let ioStatus ← Code.load Mai2InputPage.ioStatus
    let connected ← Code.load Mai2InputPage.connected
    let touch ← Mai2InputPage.touchField.copyOut (List.finRange 7) fun _ => 0
    let sequence ← Code.load Mai2InputPage.sequence
    pure (some ⟨buttons0, ioStatus, connected, .ofFn touch, sequence⟩)
  | write w => do
    writeCode w
    pure none

/-- What a call does as a whole. -/
def effect (op : InputPageOp) (page : Mai2InputPage) : Option Mai2InputPage × Mai2InputPage :=
  match op with
  | read => (some page, page)
  | write w => (none, w.apply page)

/-- Writing the touch bytes one by one. -/
lemma touchField_put (page : Mai2InputPage) (t : List.Vector UInt8 7) :
    Mai2InputPage.touchField.put t.get page = { page with touch := t } := by
  simp [Mai2InputPage.touchField, List.Vector.ofFn_get]

/-- Reading the touch bytes one by one. -/
lemma ofFn_touchField_get (page : Mai2InputPage) :
    List.Vector.ofFn (Mai2InputPage.touchField.get page) = page.touch :=
  List.Vector.ofFn_get page.touch

/-- The section for a frame does what the update does. -/
lemma frame_run (buttons0 ioStatus : Option UInt8) (touch : Option (List.Vector UInt8 7))
    (page : Mai2InputPage) :
    (frame buttons0 ioStatus touch).run page =
      ((), (Mai2PageWrite.frame buttons0 ioStatus touch).apply page) := by
  cases buttons0 <;> cases ioStatus <;> cases touch <;>
    simp [frame, advance, touchField_put, Mai2PageWrite.apply]

/-- The buttons are cleared if they have no live source and hold input. -/
lemma clearButtons_run (buttonsLive : Bool) (page : Mai2InputPage) :
    (clearButtons buttonsLive).run page =
      if !buttonsLive ∧ (page.buttons0 ≠ 0 ∨ page.ioStatus ≠ 0) then
        (true, { page with buttons0 := 0, ioStatus := 0 })
      else (false, page) := by
  cases buttonsLive
  · by_cases hb : page.buttons0 = 0
    · by_cases hio : page.ioStatus = 0 <;> simp [clearButtons, hb, hio]
    · simp [clearButtons, hb]
  · simp [clearButtons]

/-- The touch is cleared if it has no live source and holds input. -/
lemma clearTouch_run (touchLive : Bool) (page : Mai2InputPage) :
    (clearTouch touchLive).run page =
      if !touchLive ∧ page.touch ≠ noTouch then (true, { page with touch := noTouch })
      else (false, page) := by
  cases touchLive
  · by_cases ht : page.touch = noTouch <;>
      simp [clearTouch, ofFn_touchField_get, touchField_put, ht]
  · simp [clearTouch]

/-- The section that clears does what the update does. -/
lemma clear_run (buttonsLive touchLive : Bool) (page : Mai2InputPage) :
    (clear buttonsLive touchLive).run page =
      ((), (Mai2PageWrite.clear buttonsLive touchLive).apply page) := by
  simp only [clear, Code.run_bind, clearButtons_run, clearTouch_run, Mai2PageWrite.apply]
  by_cases hb : !buttonsLive ∧ (page.buttons0 ≠ 0 ∨ page.ioStatus ≠ 0)
  · by_cases ht : !touchLive ∧ page.touch ≠ noTouch
    · simp only [if_pos hb, if_pos ht]
      simp [advance, hb]
    · simp only [if_pos hb, if_neg ht]
      simp [advance, hb]
  · by_cases ht : !touchLive ∧ page.touch ≠ noTouch
    · simp only [if_neg hb, if_pos ht]
      simp [advance, ht]
    · simp only [hb, ht, or_self, if_false]
      rfl

/-- A section does as a whole what the call is to do. -/
lemma code_run (op : InputPageOp) (page : Mai2InputPage) : op.code.run page = op.effect page := by
  cases op with
  | read => simp [code, effect, ofFn_touchField_get]
  | write w =>
    cases w with
    | markConnected => simp [code, writeCode, effect, advance, Mai2PageWrite.apply]
    | frame buttons0 ioStatus touch => simp [code, writeCode, effect, frame_run]
    | clear buttonsLive touchLive => simp [code, writeCode, effect, clear_run]
    | reset =>
      simp [code, writeCode, effect, touchField_put, Mai2PageWrite.apply, Mai2InputPage.default]

end InputPageOp

/-- The runs of threads that call the input page of a player. -/
abbrev InputPageRuns {ι : Type} [DecidableEq ι] (page : Mai2InputPage)
    (ls : List (Locked.Label ι InputPageOp (Option Mai2InputPage)))
    (s : Locked.System ι Mai2InputPage InputPageOp (Option Mai2InputPage)) : Prop :=
  Labelled.Runs (Locked.Step InputPageOp.code) (Locked.System.start page) ls s

namespace Mai2PageWrite

/-- The page behind some writes. -/
def applyAll (page : Mai2InputPage) (ws : List Mai2PageWrite) : Mai2InputPage := ws.foldl apply page

/-- The last write comes behind the others. -/
@[simp] lemma applyAll_concat (page : Mai2InputPage) (ws : List Mai2PageWrite) (w : Mai2PageWrite) :
    applyAll page (ws ++ [w]) = w.apply (applyAll page ws) := by
  simp [applyAll]

/-- What every write keeps holds behind all of them. -/
lemma applyAll_keeps {P : Mai2InputPage → Prop} {page : Mai2InputPage} {ws : List Mai2PageWrite}
    (hpage : P page) (hstep : ∀ w ∈ ws, ∀ page, P page → P (w.apply page)) :
    P (applyAll page ws) := by
  induction ws using List.reverseRecOn with
  | nil => exact hpage
  | append_singleton ws w ih =>
    rw [applyAll_concat]
    exact hstep w (by simp) _ (ih fun v hv => hstep v (List.mem_append_left _ hv))

/-- The touch is that of a page, or none, or the whole touch of a frame. -/
def TouchFrom (page : Mai2InputPage) (ws : List Mai2PageWrite) (touch : List.Vector UInt8 7) :
    Prop :=
  touch = page.touch ∨ touch = noTouch ∨
    ∃ buttons0 ioStatus, .frame buttons0 ioStatus (some touch) ∈ ws

/-- The buttons are those of a page, or none, or both of the button fields of a frame. -/
def ButtonsFrom (page : Mai2InputPage) (ws : List Mai2PageWrite) (buttons0 ioStatus : UInt8) :
    Prop :=
  (buttons0 = page.buttons0 ∧ ioStatus = page.ioStatus) ∨ (buttons0 = 0 ∧ ioStatus = 0) ∨
    ∃ touch, .frame (some buttons0) (some ioStatus) touch ∈ ws

/-- The writes that the threads of a player make. The serial reader and the vendor thread apply the
frames of the decoder, with or without their buttons; the touch HID has touch states, and the button
HID reports of two bytes. -/
inductive Made : Mai2PageWrite → Prop
  | markConnected : Made .markConnected
  | parsed (rx rx' : RxBuf) (hrx : rx.len ≤ 512) (buttons0 ioStatus : Option UInt8)
      (touch : Option (List.Vector UInt8 7))
      (h : rx.tryParseFrame = .ok (some (.touch buttons0 ioStatus touch), rx')) (useButtons : Bool) :
      Made (.frame (if useButtons then buttons0 else none) (if useButtons then ioStatus else none)
        touch)
  | touchHid (touch : List.Vector UInt8 7) : Made (.frame none none (some touch))
  | buttonReport (r0 r1 : UInt8) : Made (.frame (some r0) (some r1) none)
  | clear (buttonsLive touchLive : Bool) : Made (.clear buttonsLive touchLive)
  | reset : Made .reset

/-- A thread's frame has both of its button fields or none. -/
lemma Made.isSome_eq {buttons0 ioStatus : Option UInt8} {touch : Option (List.Vector UInt8 7)}
    (h : Made (.frame buttons0 ioStatus touch)) : buttons0.isSome = ioStatus.isSome := by
  cases h with
  | parsed rx rx' hrx buttons0 ioStatus touch hparse useButtons =>
    cases useButtons with
    | true => exact RxBuf.isSome_of_tryParseFrame hrx hparse
    | false => rfl
  | touchHid touch => rfl
  | buttonReport r0 r1 => rfl

/-- Behind any writes the touch is whole. -/
lemma applyAll_touch (page : Mai2InputPage) (ws : List Mai2PageWrite) :
    TouchFrom page ws (applyAll page ws).touch := by
  refine applyAll_keeps (P := fun page' => TouchFrom page ws page'.touch) (.inl rfl) ?_
  intro w hw page' hpage'
  cases w with
  | markConnected => exact hpage'
  | frame buttons0 ioStatus touch =>
    cases touch with
    | none => exact hpage'
    | some t => exact .inr (.inr ⟨buttons0, ioStatus, hw⟩)
  | clear buttonsLive touchLive =>
    by_cases ht : !touchLive ∧ page'.touch ≠ noTouch
    · exact .inr (.inl (if_pos ht))
    · simpa only [apply, if_neg ht] using hpage'
  | reset => exact .inr (.inl rfl)

/-- Behind the writes of the threads so are the buttons.

**Proof sketch.** Induction on the writes (`applyAll_keeps`). A frame of a thread has both bytes of
the buttons or none. -/
lemma applyAll_buttons (page : Mai2InputPage) {ws : List Mai2PageWrite} (hws : ∀ w ∈ ws, w.Made) :
    ButtonsFrom page ws (applyAll page ws).buttons0 (applyAll page ws).ioStatus := by
  refine applyAll_keeps (P := fun page' => ButtonsFrom page ws page'.buttons0 page'.ioStatus)
    (.inl ⟨rfl, rfl⟩) ?_
  intro w hw page' hpage'
  cases w with
  | markConnected => exact hpage'
  | frame buttons0 ioStatus touch =>
    have hboth := (hws _ hw).isSome_eq
    cases buttons0 with
    | none =>
      cases ioStatus with
      | none => exact hpage'
      | some io => cases hboth
    | some b =>
      cases ioStatus with
      | none => cases hboth
      | some io => exact .inr (.inr ⟨touch, hw⟩)
  | clear buttonsLive touchLive =>
    by_cases hb : !buttonsLive ∧ (page'.buttons0 ≠ 0 ∨ page'.ioStatus ≠ 0)
    · exact .inr (.inl ⟨if_pos hb, if_pos hb⟩)
    · simpa only [apply, if_neg hb] using hpage'
  | reset => exact .inr (.inl ⟨rfl, rfl⟩)

end Mai2PageWrite

namespace DeviceHandle

variable (d : DeviceHandle) (now : UInt64)

/-- The page is left alone, or a thread of the player makes one write. -/
def Makes (page page' : Mai2InputPage) : Prop :=
  page' = page ∨ ∃ w : Mai2PageWrite, w.Made ∧ page' = w.apply page

/-- A frame of the decoder is applied as one of these writes. -/
lemma applyParsedFrame_makes {rx rx' : RxBuf} {frame : ParsedFrame} (hrx : rx.len ≤ 512)
    (hparse : rx.tryParseFrame = .ok (some frame, rx')) (source : TouchSource) :
    Makes d.inputPage (d.applyParsedFrame frame source now).inputPage := by
  cases frame with
  | touch buttons0 ioStatus touch =>
    refine .inr ⟨_, .parsed rx rx' hrx buttons0 ioStatus touch hparse (!d.hidConnected), ?_⟩
    rw [applyParsedFrame, applyDeviceFrame_inputPage]
    rfl
  | boardInfo version => exact .inl rfl

/-- So is a touch state of the touch HID. -/
lemma applyTouch_makes (touch : List.Vector UInt8 7) (source : TouchSource) :
    Makes d.inputPage (d.applyDeviceFrame none none (some touch) source now).inputPage := by
  rw [applyDeviceFrame_inputPage]
  exact .inr ⟨_, .touchHid touch, rfl⟩

/-- So is a report of the button HID. -/
lemma applyButtonReport_makes (report : List UInt8) :
    Makes d.inputPage (d.applyButtonReport report now).inputPage := by
  unfold applyButtonReport
  split
  · split
    · exact .inl rfl
    · rw [applyDeviceFrame_inputPage]
      exact .inr ⟨_, .buttonReport _ _, rfl⟩
  · exact .inl rfl

/-- `disconnect_session` makes one of these writes. -/
lemma disconnectSession_makes : Makes d.inputPage d.disconnectSession.inputPage := by
  unfold disconnectSession
  split
  · exact .inr ⟨_, .markConnected, rfl⟩
  · exact .inr ⟨_, .reset, rfl⟩

/-- So does `clear_inputs_on_source_drop`, or none. -/
lemma clearInputsOnSourceDrop_makes :
    Makes d.inputPage d.clearInputsOnSourceDrop.inputPage := by
  rw [clearInputsOnSourceDrop_eq]
  split
  · exact .inl rfl
  · exact .inr ⟨_, .clear _ _, rfl⟩

end DeviceHandle

namespace InputPageOp

variable {ι : Type}

/-- The writes among some calls. -/
def writes (ops : List (ι × InputPageOp)) : List Mai2PageWrite :=
  ops.filterMap fun p =>
    match p.2 with
    | read => none
    | write w => some w

/-- The writes of a history are those among its operations. -/
lemma mem_writes {ops : List (ι × InputPageOp)} {w : Mai2PageWrite} :
    w ∈ writes ops ↔ ∃ i, (i, write w) ∈ ops := by
  simp only [writes, List.mem_filterMap]
  constructor
  · rintro ⟨⟨i, op⟩, hmem, heq⟩
    cases op with
    | read => cases heq
    | write w' =>
      cases heq
      exact ⟨i, hmem⟩
  · rintro ⟨i, hmem⟩
    exact ⟨(i, write w), hmem, rfl⟩

/-- Reads do not change the page. -/
lemma after_eq (page : Mai2InputPage) (ops : List (ι × InputPageOp)) :
    Locked.after effect page ops = Mai2PageWrite.applyAll page (writes ops) := by
  induction ops using List.reverseRecOn with
  | nil => rfl
  | append_singleton ops p ih =>
    obtain ⟨i, op⟩ := p
    rw [Locked.after_concat, ih]
    cases op with
    | read => simp [writes, effect]
    | write w => simp [writes, effect]

end InputPageOp

/-- **A snapshot of the input page is the page behind some whole writes**, whichever threads of the
player read and write it at the same time, as long as none of them is killed. So it never mixes two
touch states, nor the buttons of two frames.

**Proof sketch.** The mutex makes the sections atomic (`Locked.atomic`), and each does as a whole
what the model says (`InputPageOp.code_run`). So the calls have happened one behind the other, and a
read has returned the page behind the writes before it. Whole writes take their touch from one frame,
and both button fields, as the frames of the threads have both or none (`Made.isSome_eq`). -/
theorem input_snapshots_whole {ι : Type} [DecidableEq ι] {page₀ : Mai2InputPage}
    {ls : List (Locked.Label ι InputPageOp (Option Mai2InputPage))}
    {s : Locked.System ι Mai2InputPage InputPageOp (Option Mai2InputPage)}
    (h : InputPageRuns page₀ ls s) (hkilled : ∀ i, .killed i ∉ ls)
    (hmade : ∀ i w, .call i (.write w) ∈ ls → w.Made) :
    ∃ ws : List Mai2PageWrite, (∀ w ∈ ws, ∃ i, .call i (.write w) ∈ ls) ∧
      (s.owner = none → s.memory = Mai2PageWrite.applyAll page₀ ws) ∧
      ∀ i page, .returns i .read (some page) ∈ ls → ∃ pre, pre <+: ws ∧
        page = Mai2PageWrite.applyAll page₀ pre ∧
        Mai2PageWrite.TouchFrom page₀ pre page.touch ∧
        Mai2PageWrite.ButtonsFrom page₀ pre page.buttons0 page.ioStatus := by
  obtain ⟨a, ops, hops, hsim⟩ := Locked.exists_history InputPageOp.code_run h hkilled
  have hcalls : ∀ w ∈ InputPageOp.writes ops, ∃ i, .call i (.write w) ∈ ls := by
    intro w hw
    obtain ⟨i, hi⟩ := InputPageOp.mem_writes.mp hw
    exact ⟨i, hops.call_mem hi⟩
  refine ⟨InputPageOp.writes ops, hcalls, ?_, ?_⟩
  · intro hfree
    rw [hsim.free hfree, hops.memory, InputPageOp.after_eq]
  · intro i page hi
    obtain ⟨pre, hpre, hpage⟩ := hops.returned i .read _ hi
    have hpage : page = Mai2PageWrite.applyAll page₀ (InputPageOp.writes pre) := by
      rw [← InputPageOp.after_eq]
      exact Option.some.inj hpage
    have hearlier : InputPageOp.writes pre <+: InputPageOp.writes ops :=
      ((List.prefix_append pre _).trans hpre).filterMap _
    refine ⟨InputPageOp.writes pre, hearlier, hpage, ?_, ?_⟩
    · rw [hpage]
      exact Mai2PageWrite.applyAll_touch page₀ _
    · rw [hpage]
      refine Mai2PageWrite.applyAll_buttons page₀ fun w hw => ?_
      obtain ⟨j, hj⟩ := hcalls w (hearlier.subset hw)
      exact hmade j w hj

/-- The theorem for a thread that applies a button report and a thread that then reads the page. -/
theorem input_snapshots_whole_frame :
    ∃ (ls : List (Locked.Label Bool InputPageOp (Option Mai2InputPage)))
      (s : Locked.System Bool Mai2InputPage InputPageOp (Option Mai2InputPage))
      (ws pre : List Mai2PageWrite), InputPageRuns .default ls s ∧
        .returns true .read (some ⟨3, 1, 1, noTouch, 1⟩) ∈ ls ∧
        s.memory = Mai2PageWrite.applyAll .default ws ∧ pre <+: ws ∧
        Mai2PageWrite.ButtonsFrom .default pre 3 1 := by
  have hwrite := Locked.Step.runs_alone InputPageOp.code (s := .start .default) (i := false)
    (.write (.frame (some 3) (some 1) none)) rfl rfl
  have hrun := hwrite.append (Locked.Step.runs_alone InputPageOp.code (i := true) .read rfl rfl)
  obtain ⟨ws, -, hmemory, hreads⟩ := input_snapshots_whole hrun (by simp) fun i w hw => by
    obtain ⟨-, rfl⟩ : i = false ∧ w = .frame (some 3) (some 1) none := by simpa using hw
    exact .buttonReport 3 1
  obtain ⟨pre, hpre, -, -, hbuttons⟩ := hreads true ⟨3, 1, 1, noTouch, 1⟩ (by
    simp [InputPageOp.code_run, InputPageOp.effect, Mai2PageWrite.apply, Mai2InputPage.default,
      Locked.System.start])
  refine ⟨_, _, ws, pre, hrun, ?_, hmemory rfl, hpre, hbuttons⟩
  simp [InputPageOp.code_run, InputPageOp.effect, Mai2PageWrite.apply, Mai2InputPage.default,
    Locked.System.start]

/-! ## The output page -/

namespace Mai2OutputPage

/-- The array of an LED channel. -/
def channelField : (channel : LedChannel) → Field Mai2OutputPage channel.size UInt8
  | .buttons =>
    { get := fun page => page.buttons.get
      put := fun v page => { page with buttons := .ofFn v }
      get_put := fun v _ => funext fun i => List.Vector.get_ofFn v i
      put_put := fun _ _ _ => rfl
      put_get := fun page => by rw [List.Vector.ofFn_get] }
  | .billboard =>
    { get := fun page => page.billboard.get
      put := fun v page => { page with billboard := .ofFn v }
      get_put := fun v _ => funext fun i => List.Vector.get_ofFn v i
      put_put := fun _ _ _ => rfl
      put_get := fun page => by rw [List.Vector.ofFn_get] }
  | .pwm =>
    { get := fun page => page.pwm.get
      put := fun v page => { page with pwm := .ofFn v }
      get_put := fun v _ => funext fun i => List.Vector.get_ofFn v i
      put_put := fun _ _ _ => rfl
      put_get := fun page => by rw [List.Vector.ofFn_get] }

/-- A store to the sequence number of an LED channel. -/
def storeSequence (page : Mai2OutputPage) (sequence : UInt64) : LedChannel → Mai2OutputPage
  | .buttons => { page with buttonsSequence := sequence }
  | .billboard => { page with billboardSequence := sequence }
  | .pwm => { page with pwmSequence := sequence }

end Mai2OutputPage

/-- The calls on the output page of a player. -/
inductive OutputPageOp
  | read
  | setTouchEnabled (enabled : Bool)
  | led (update : LedUpdate)

namespace OutputPageOp

open Mai2OutputPage (channelField storeSequence)

/-- The update of an LED call: the channel is compared with the payload, and then changed. -/
def ledCode (update : LedUpdate) : Code Mai2OutputPage Unit := do
  let value ← (channelField update.channel).copyOut (List.finRange _) fun _ => 0
  if List.Vector.ofFn value ≠ update.payload then
    (channelField update.channel).copyIn (List.finRange _) update.payload.get
    let sequence ← Code.load fun page => (page.led update.channel).version
    Code.store fun page => page.storeSequence (sequence + 1) update.channel
  else pure ()

/-- What a call does under the mutex, access by access. A read returns what it has copied. -/
def code : OutputPageOp → Code Mai2OutputPage (Option Mai2OutputPage)
  | read => do
    let touchEnabled ← Code.load Mai2OutputPage.touchEnabled
    let buttonsSequence ← Code.load Mai2OutputPage.buttonsSequence
    let buttons ← (channelField .buttons).copyOut (List.finRange _) fun _ => 0
    let billboardSequence ← Code.load Mai2OutputPage.billboardSequence
    let billboard ← (channelField .billboard).copyOut (List.finRange _) fun _ => 0
    let pwmSequence ← Code.load Mai2OutputPage.pwmSequence
    let pwm ← (channelField .pwm).copyOut (List.finRange _) fun _ => 0
    pure (some
      { touchEnabled := touchEnabled
        buttonsSequence := buttonsSequence
        buttons := .ofFn buttons
        billboardSequence := billboardSequence
        billboard := .ofFn billboard
        pwmSequence := pwmSequence
        pwm := .ofFn pwm })
  | setTouchEnabled enabled => do
    Code.store fun page => { page with touchEnabled := if enabled then 1 else 0 }
    pure none
  | led update => do
    ledCode update
    pure none

/-- What a call does as a whole. -/
def effect (op : OutputPageOp) (page : Mai2OutputPage) :
    Option Mai2OutputPage × Mai2OutputPage :=
  match op with
  | read => (some page, page)
  | setTouchEnabled enabled => (none, { page with touchEnabled := if enabled then 1 else 0 })
  | led update => (none, update.apply page)

/-- Reading the LEDs of a channel one by one. -/
lemma ofFn_channelField_get (channel : LedChannel) (page : Mai2OutputPage) :
    List.Vector.ofFn ((channelField channel).get page) = (page.led channel).value := by
  cases channel <;> exact List.Vector.ofFn_get _

/-- The channel with its sequence number behind a change. -/
lemma apply_of_ne {channel : LedChannel} {payload : List.Vector UInt8 channel.size}
    {page : Mai2OutputPage} (h : (page.led channel).value ≠ payload) :
    storeSequence ((channelField channel).put payload.get page) ((page.led channel).version + 1)
      channel = LedUpdate.apply page ⟨channel, payload⟩ := by
  have hpayload := List.Vector.ofFn_get payload
  cases channel with
  | buttons =>
    have hput := congrArg
      (fun v => { page with buttons := v, buttonsSequence := page.buttonsSequence + 1 }) hpayload
    exact hput.trans (if_pos h).symm
  | billboard =>
    have hput := congrArg
      (fun v => { page with billboard := v, billboardSequence := page.billboardSequence + 1 })
      hpayload
    exact hput.trans (if_pos h).symm
  | pwm =>
    have hput := congrArg (fun v => { page with pwm := v, pwmSequence := page.pwmSequence + 1 })
      hpayload
    exact hput.trans (if_pos h).symm

/-- Writing what is there changes nothing. -/
lemma apply_of_eq {channel : LedChannel} {page : Mai2OutputPage} :
    LedUpdate.apply page ⟨channel, (page.led channel).value⟩ = page := by
  cases channel <;> exact if_neg (not_not.mpr rfl)

/-- The version of a channel does not depend on its value. -/
lemma led_put_version (channel : LedChannel) (v : Fin channel.size → UInt8)
    (page : Mai2OutputPage) :
    (((channelField channel).put v page).led channel).version = (page.led channel).version := by
  cases channel <;> rfl

/-- The section for LEDs does what the update does. -/
lemma ledCode_run (update : LedUpdate) (page : Mai2OutputPage) :
    (ledCode update).run page = ((), update.apply page) := by
  obtain ⟨channel, payload⟩ := update
  by_cases h : (page.led channel).value = payload
  · subst h
    simp [ledCode, ofFn_channelField_get, apply_of_eq]
  · simp [ledCode, ofFn_channelField_get, h, led_put_version, apply_of_ne h]

/-- A section does as a whole what the call is to do. -/
lemma code_run (op : OutputPageOp) (page : Mai2OutputPage) : op.code.run page = op.effect page := by
  cases op with
  | read => simp [code, effect, channelField, List.Vector.ofFn_get]
  | setTouchEnabled enabled => simp [code, effect]
  | led update => simp [code, effect, ledCode_run]

end OutputPageOp

/-- The runs of threads that call the output page of a player. -/
abbrev OutputPageRuns {ι : Type} [DecidableEq ι] (page : Mai2OutputPage)
    (ls : List (Locked.Label ι OutputPageOp (Option Mai2OutputPage)))
    (s : Locked.System ι Mai2OutputPage OutputPageOp (Option Mai2OutputPage)) : Prop :=
  Labelled.Runs (Locked.Step OutputPageOp.code) (Locked.System.start page) ls s

namespace OutputPageOp

variable {ι : Type}

/-- The call may change an LED channel. -/
def isLed : OutputPageOp → Bool
  | read | setTouchEnabled _ => false
  | led _ => true

/-- The number of LED calls among some calls. -/
def ledCount (ops : List (ι × OutputPageOp)) : ℕ := ops.countP fun p => p.2.isLed

/-- An LED call leaves a channel as it is or advances its number. -/
lemma led_apply (update : LedUpdate) (page : Mai2OutputPage) (channel : LedChannel) :
    Versioned.Step (page.led channel) ((update.apply page).led channel) := by
  obtain ⟨c, payload⟩ := update
  cases c with
  | buttons => exact page.setButtons_step payload channel
  | billboard => exact page.setBillboard_step payload channel
  | pwm => exact page.setPwm_step payload channel

/-- A channel changes at most as often as there are LED calls. -/
lemma advanced_after (page : Mai2OutputPage) (channel : LedChannel)
    (pre ops : List (ι × OutputPageOp)) :
    Versioned.Advanced (ledCount ops) ((Locked.after effect page pre).led channel)
      ((Locked.after effect page (pre ++ ops)).led channel) := by
  induction ops using List.reverseRecOn with
  | nil =>
    rw [List.append_nil]
    exact .refl _
  | append_singleton ops p ih =>
    obtain ⟨i, op⟩ := p
    rw [← List.append_assoc, Locked.after_concat]
    cases op with
    | read | setTouchEnabled enabled =>
      simpa [ledCount, isLed, effect, Mai2OutputPage.led] using ih
    | led update =>
      have hcount : ledCount (ops ++ [(i, led update)]) = ledCount ops + 1 := by
        simp [ledCount, isLed]
      rw [hcount]
      exact ih.step (led_apply update _ channel)

/-- Two snapshots of one history in which a channel has the same number show the same value. -/
lemma eq_of_version {page : Mai2OutputPage} {channel : LedChannel}
    {pre pre' ops : List (ι × OutputPageOp)} (hfew : ledCount ops < 2 ^ 64) (hpre : pre <+: pre')
    (hpre' : pre' <+: ops)
    (hversion : ((Locked.after effect page pre').led channel).version =
      ((Locked.after effect page pre).led channel).version) :
    (Locked.after effect page pre').led channel = (Locked.after effect page pre).led channel := by
  obtain ⟨more, rfl⟩ := hpre
  have hmore : ledCount more ≤ ledCount ops := by
    have hsub : more.Sublist ops := (List.sublist_append_right pre more).trans hpre'.sublist
    exact hsub.countP_le
  exact (advanced_after page channel pre more).eq_of_version (by omega) hversion

end OutputPageOp

/-- **Snapshots of the output page are numbered**: whichever threads read and write the page at the
same time, each snapshot is the page behind some whole calls, and two snapshots in which an LED
channel has the same number show the same value of it, as long as there are fewer than `2^64` LED
calls and no thread is killed.

**Proof sketch.** The calls have happened one behind the other (`Locked.exists_history`), so of two
snapshots one is behind all the calls of the other. The calls between them have advanced the number
of the channel with each change (`OutputPageOp.advanced_after`). -/
theorem output_snapshots_numbered {ι : Type} [DecidableEq ι] {page₀ : Mai2OutputPage}
    {ls : List (Locked.Label ι OutputPageOp (Option Mai2OutputPage))}
    {s : Locked.System ι Mai2OutputPage OutputPageOp (Option Mai2OutputPage)}
    (h : OutputPageRuns page₀ ls s) (hkilled : ∀ i, .killed i ∉ ls)
    (hfew : OutputPageOp.ledCount (Locked.calls ls) < 2 ^ 64) :
    (∃ ops : List (ι × OutputPageOp), ops.Subperm (Locked.calls ls) ∧
      ∀ i page, .returns i .read (some page) ∈ ls →
        ∃ pre, pre <+: ops ∧ page = Locked.after OutputPageOp.effect page₀ pre) ∧
      ∀ i j page page' channel, .returns i .read (some page) ∈ ls →
        .returns j .read (some page') ∈ ls →
        (page.led channel).version = (page'.led channel).version →
        page.led channel = page'.led channel := by
  obtain ⟨a, ops, hops, -⟩ := Locked.exists_history OutputPageOp.code_run h hkilled
  have hcount : OutputPageOp.ledCount ops < 2 ^ 64 :=
    (hops.subperm.countP_le _).trans_lt hfew
  have hsnap : ∀ i page, .returns i .read (some page) ∈ ls →
      ∃ pre, pre <+: ops ∧ page = Locked.after OutputPageOp.effect page₀ pre := by
    intro i page hi
    obtain ⟨pre, hpre, hpage⟩ := hops.returned i .read _ hi
    exact ⟨pre, (List.prefix_append pre _).trans hpre, Option.some.inj hpage⟩
  refine ⟨⟨ops, hops.subperm, hsnap⟩, ?_⟩
  intro i j page page' channel hi hj hversion
  obtain ⟨pre, hpre, rfl⟩ := hsnap i page hi
  obtain ⟨pre', hpre', rfl⟩ := hsnap j page' hj
  rcases List.prefix_or_prefix_of_prefix hpre hpre' with hle | hle
  · exact (OutputPageOp.eq_of_version hcount hle hpre' hversion.symm).symm
  · exact OutputPageOp.eq_of_version hcount hle hpre hversion

/-- The theorem for an LED call and two reads behind it. -/
theorem output_snapshots_numbered_read :
    ∃ (ls : List (Locked.Label Bool OutputPageOp (Option Mai2OutputPage)))
      (s : Locked.System Bool Mai2OutputPage OutputPageOp (Option Mai2OutputPage))
      (page page' : Mai2OutputPage), OutputPageRuns .default ls s ∧
        .returns false .read (some page) ∈ ls ∧ .returns true .read (some page') ∈ ls ∧
        page.pwmSequence = 1 ∧ page.led .pwm = page'.led .pwm := by
  have hled := Locked.Step.runs_alone OutputPageOp.code (s := .start .default) (i := false)
    (.led ⟨.pwm, List.Vector.replicate 3 1⟩) rfl rfl
  have hread := hled.append (Locked.Step.runs_alone OutputPageOp.code (i := false) .read rfl rfl)
  have hrun := hread.append (Locked.Step.runs_alone OutputPageOp.code (i := true) .read rfl rfl)
  simp only [OutputPageOp.code_run, OutputPageOp.effect] at hrun
  obtain ⟨-, hsame⟩ := output_snapshots_numbered hrun (by simp) (by decide)
  have hfalse := hsame false true (LedUpdate.apply .default ⟨.pwm, List.Vector.replicate 3 1⟩)
    (LedUpdate.apply .default ⟨.pwm, List.Vector.replicate 3 1⟩) .pwm
  refine ⟨_, _, _, _, hrun, ?_, ?_, rfl, hfalse ?_ ?_ rfl⟩ <;> simp [Locked.System.start]

end Affine
