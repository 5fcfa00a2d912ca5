import Affine.Mai2.SerialLoop

set_option relaxedAutoImplicit false
set_option autoImplicit false

/-!
# The vendor HID loop

`vendor_command_thread` (`affine-mai2/src/lib.rs`), one step at a time: a step either tries to open
the vendor HID, or is a pass of the inner loop over the open HID. What the system and the device do
in a step is a parameter. A pass reads the output page once, so a change of that page during a pass
counts as one before or behind it. Logs and the counters that are only logged are left out.

## Main definitions

* `Affine.HidDevice`, `Affine.sendHidFrame`, and `Affine.hidWire`.
* `Affine.VendorTick` — what happens in a step.
* `Affine.VendorThread`, `Affine.VendorThread.step` — the state of the thread, and a step.

## Main results

* `Affine.VendorThread.step_keeps` — a step runs without a fault, keeps what the loop remembers of
  the LEDs true, and behind the LED section it has seen the sequence numbers of the page.
-/

namespace Affine

open Slice (Exec)

/-- An open HID, with the reports that it has taken, the oldest first. -/
structure HidDevice where
  sent : List (List UInt8)
  deriving DecidableEq

/-- The report that carries a command: a frame behind the report number, filled up with zeros. -/
def hidReport (cmd : UInt8) (payload : List UInt8) : List UInt8 :=
  0 :: mai2Frame cmd payload ++ List.replicate (65 - (payload.length + 5)) 0

/-- `send_hid_frame`; `ok` is whether the system takes the report. -/
def sendHidFrame (hid : HidDevice) (ok : Bool) (cmd : UInt8) (payload : List UInt8) :
    Bool × HidDevice :=
  if payload.length + 4 > 64 then (false, hid)
  else if ok then (true, { sent := hid.sent ++ [hidReport cmd payload] })
  else (false, hid)

/-- Commands of the vendor loop. A report goes out as a whole. -/
def hidWire : Wire HidDevice where
  send answer cmd payload hid := sendHidFrame hid answer.ok cmd payload
  sent hid := hid.sent
  isOpen _ := true
  frame := hidReport
  command report := report[2]?
  command_frame _ _ := rfl
  sent_send answer cmd payload hid := by
    unfold sendHidFrame
    split
    · rfl
    · cases answer <;> rfl
  isOpen_send _ _ _ _ := rfl

/-- What the system and the device do in a step. -/
structure VendorTick where
  /-- `HidApi::new` succeeds. -/
  available : Bool
  /-- `find_hid_path` finds the interface. -/
  found : Bool
  /-- The HID opens. -/
  opens : Bool
  /-- The readings of the clock when the HID is opened. -/
  heartbeatMs : UInt64
  boardInfoMs : UInt64
  /-- The result of the read, and the clock when its touch frames are applied. -/
  read : PortRead 65
  touchMs : UInt64
  /-- The reading of the clock. -/
  now : UInt64
  /-- What the HID does with the report that has a command. -/
  takes : UInt8 → PortWrite

/-- What `vendor_command_read_once` does with a frame. -/
def applyVendorFrame (now : UInt64) (s : DeviceHandle × LoopVars) (frame : ParsedFrame) :
    DeviceHandle × LoopVars :=
  (s.1.applyParsedFrame frame .synthetic now,
    match frame with
    | .touch _ _ _ => s.2
    | .boardInfo _ => s.2.boardInfo)

/-- The buffer that `vendor_command_read_once` fills with a report. -/
def RxBuf.load (report : Chunk 65) : RxBuf where
  buf := ⟨report.1 ++ List.replicate (512 - report.1.length) 0, by
    have := report.2
    simp
    omega⟩
  len := min report.1.length 512

/-- `vendor_command_read_once`, with the device and the variables of the loop. -/
def vendorCommandReadOnce (read : PortRead 65) (now : UInt64) (s : DeviceHandle × LoopVars) :
    Exec (Bool × DeviceHandle × LoopVars) :=
  match read with
  | none => return (false, s)
  | some report =>
    if report.1.length = 0 then return (true, s)
    else do
      let (frames, _) ← (RxBuf.load report).drain
      return (true, frames.foldl (applyVendorFrame now) s)

/-- The state of `vendor_command_thread`: the open HID with the variables of the inner loop. -/
structure VendorThread where
  link : Option (Link HidDevice)

namespace VendorThread

/-- The thread at its start. -/
def init : VendorThread where
  link := none

/-- The end of the inner loop. -/
def drop (device : DeviceHandle) : PassEnd × DeviceHandle × VendorThread :=
  (.rescan, { device with vendorConnected := false }.clearInputsOnSourceDrop, init)

/-- The outer loop tries to open the HID. -/
def connect (device : DeviceHandle) (tick : VendorTick) : PassEnd × DeviceHandle × VendorThread :=
  if ¬ device.enabled then (.rescan, { device with vendorConnected := false }, init)
  else if ¬ tick.available then (.rescan, device, init)
  else if ¬ tick.found then (.rescan, { device with vendorConnected := false }, init)
  else if ¬ tick.opens then (.rescan, { device with vendorConnected := false }, init)
  else
    (.connected, { device with vendorConnected := true }.markConnected,
      { link := some ⟨⟨[]⟩, .start tick.heartbeatMs tick.boardInfoMs⟩ })

/-- The part of a pass of the inner loop behind the read. -/
def serve (device : DeviceHandle) (tick : VendorTick) (link : Link HidDevice) :
    PassEnd × DeviceHandle × VendorThread :=
  let sections := do
    let link ← link.heartbeat hidWire tick.takes tick.now
    let link ← link.queryBoardInfo hidWire tick.takes tick.now
    link.writeLeds hidWire tick.takes hidPayload device.outputPage
  match sections with
  | .error _ => drop device
  | .ok link => (.done, device, { link := some link })

/-- A step of the thread. -/
def step (t : VendorThread) (device : DeviceHandle) (tick : VendorTick) :
    Exec (PassEnd × DeviceHandle × VendorThread) :=
  match t.link with
  | none => return connect device tick
  | some link =>
    if ¬ device.enabled then return drop device
    else do
      let (ok, device, vars) ← vendorCommandReadOnce tick.read tick.touchMs (device, link.vars)
      if ¬ ok then return drop device
      else return serve device tick { link with vars := vars }

/-! ## What a step does to the LEDs -/

/-- What the loop remembers of the LEDs of a page is true, up to `n` changes since. -/
def Tracks (t : VendorThread) (output : Mai2OutputPage) (n : ℕ) : Prop :=
  ∀ link, t.link = some link → link.Tracks hidWire hidPayload output n

/-- What a step may do: the output page stays, what the loop remembers of it is still true, and at
the end of the LED section it has seen every channel. -/
structure StepKeeps (output : Mai2OutputPage) (n : ℕ)
    (result : PassEnd × DeviceHandle × VendorThread) : Prop where
  outputPage : result.2.1.outputPage = output
  tracks : result.2.2.Tracks output n
  seen : result.1 = .done → ∃ link, result.2.2.link = some link ∧
    ∀ channel, (output.led channel).version = link.vars.last channel

variable {t : VendorThread} {device : DeviceHandle} {tick : VendorTick} {n : ℕ}

/-- Without a HID there is nothing to remember. -/
lemma tracks_init {output : Mai2OutputPage} : init.Tracks output n := nofun

/-- Giving up the HID. -/
lemma stepKeeps_drop (device : DeviceHandle) : StepKeeps device.outputPage n (drop device) :=
  ⟨DeviceHandle.clearInputsOnSourceDrop_outputPage _, tracks_init, nofun⟩

/-- Trying to open the HID: it is not opened, or it is a new connection. -/
lemma connect_cases (device : DeviceHandle) (tick : VendorTick) :
    (∃ device', connect device tick = (.rescan, device', init) ∧
        device'.outputPage = device.outputPage) ∨
      connect device tick = (.connected, { device with vendorConnected := true }.markConnected,
        { link := some ⟨⟨[]⟩, .start tick.heartbeatMs tick.boardInfoMs⟩ }) := by
  unfold connect
  split
  · exact .inl ⟨_, rfl, rfl⟩
  split
  · exact .inl ⟨_, rfl, rfl⟩
  split
  · exact .inl ⟨_, rfl, rfl⟩
  split
  · exact .inl ⟨_, rfl, rfl⟩
  · exact .inr rfl

/-- Trying to open the HID keeps what the loop remembers. -/
lemma connect_keeps (device : DeviceHandle) (tick : VendorTick) :
    StepKeeps device.outputPage n (connect device tick) := by
  rcases connect_cases device tick with ⟨device', hconnect, hpage⟩ | hconnect
  · rw [hconnect]
    exact ⟨hpage, tracks_init, nofun⟩
  · rw [hconnect]
    refine ⟨rfl, fun link hlink => ?_, nofun⟩
    cases hlink
    exact Link.Tracks.start rfl _ _

/-- The frames of a report change neither the output page nor what is remembered of the LEDs. -/
lemma foldl_applyVendorFrame (now : UInt64) (frames : List ParsedFrame)
    (s : DeviceHandle × LoopVars) :
    (frames.foldl (applyVendorFrame now) s).1.outputPage = s.1.outputPage ∧
      (frames.foldl (applyVendorFrame now) s).2.last = s.2.last := by
  induction frames generalizing s with
  | nil => exact ⟨rfl, rfl⟩
  | cons frame frames ih =>
    obtain ⟨hpage, hlast⟩ := ih (applyVendorFrame now s frame)
    rw [List.foldl_cons, hpage, hlast]
    refine ⟨s.1.applyParsedFrame_outputPage _ _ frame, ?_⟩
    cases frame with
    | touch b io t => rfl
    | boardInfo version =>
      funext channel
      exact s.2.last_boardInfo channel

/-- The read of a report raises no fault, and leaves the output page and the LEDs. -/
lemma readOnce_eq_ok (read : PortRead 65) (now : UInt64) (s : DeviceHandle × LoopVars) :
    ∃ ok s', vendorCommandReadOnce read now s = .ok (ok, s') ∧ s'.1.outputPage = s.1.outputPage ∧
      s'.2.last = s.2.last := by
  unfold vendorCommandReadOnce
  cases read with
  | none => exact ⟨false, s, rfl, rfl, rfl⟩
  | some report =>
    dsimp only
    split
    · exact ⟨true, s, rfl, rfl, rfl⟩
    · have hload : (RxBuf.load report).len ≤ 512 := Nat.min_le_right _ _
      obtain ⟨rx, hdrain, -⟩ := RxBuf.drain_spec hload
      rw [hdrain]
      obtain ⟨hpage, hlast⟩ := foldl_applyVendorFrame now _ s
      exact ⟨true, _, rfl, hpage, hlast⟩

/-- The sections of a pass keep what the loop remembers. -/
lemma serve_keeps {link : Link HidDevice}
    (h : link.Tracks hidWire hidPayload device.outputPage n) :
    StepKeeps device.outputPage n (serve device tick link) := by
  unfold serve
  dsimp only
  generalize hsections : (link.heartbeat hidWire tick.takes tick.now >>= fun link =>
    link.queryBoardInfo hidWire tick.takes tick.now >>= fun link =>
      link.writeLeds hidWire tick.takes hidPayload device.outputPage) = sections
  cases sections with
  | error l₁ => exact stepKeeps_drop device
  | ok l₃ =>
    obtain ⟨l₁, hheart, hrest⟩ := Slice.bind_eq_ok.mp hsections
    obtain ⟨l₂, hquery, hleds⟩ := Slice.bind_eq_ok.mp hrest
    obtain ⟨h₃, hseen⟩ := ((h.heartbeat hheart).queryBoardInfo hquery).writeLeds hleds
    refine ⟨rfl, fun link hlink => ?_, fun _ => ⟨l₃, rfl, hseen⟩⟩
    cases hlink
    exact h₃

/-- **A step runs without a fault and keeps what the loop remembers of the LEDs true**, and behind
the LED section it has seen every channel of the page.

**Proof sketch.** The read changes the input page at most (`readOnce_eq_ok`), and the sections keep
the memory true (`serve_keeps`). -/
theorem step_keeps (h : t.Tracks device.outputPage n) (tick : VendorTick) :
    ∃ result, t.step device tick = .ok result ∧ StepKeeps device.outputPage n result := by
  obtain ⟨link⟩ := t
  unfold step
  cases link with
  | none => exact ⟨_, rfl, connect_keeps device tick⟩
  | some link =>
    dsimp only
    split
    · exact ⟨_, rfl, stepKeeps_drop device⟩
    obtain ⟨ok, ⟨device', vars⟩, hread, hpage, hlast⟩ :=
      readOnce_eq_ok tick.read tick.touchMs (device, link.vars)
    rw [hread, Slice.ok_bind]
    simp only at hpage hlast
    have hlink := h link rfl
    have hlink' :
        Link.Tracks hidWire { link with vars := vars } hidPayload device'.outputPage n := by
      rw [hpage]
      refine ⟨hlink.isOpen, fun channel => ?_⟩
      rw [hlast]
      exact hlink.led channel
    rw [← hpage]
    cases ok
    · exact ⟨_, rfl, stepKeeps_drop device'⟩
    · exact ⟨_, rfl, serve_keeps hlink'⟩

end VendorThread

end Affine
