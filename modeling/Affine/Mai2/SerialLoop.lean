import Affine.Core.Port
import Affine.Lib.Checksum
import Affine.Mai2.Link

set_option relaxedAutoImplicit false
set_option autoImplicit false

/-!
# The serial device loop

`device_thread` (`affine-mai2/src/lib.rs`), one pass of its loop at a time. What the system, the
device and the reader thread of the session do in a pass is a parameter, and so is what the loads
of the touch counters return. A pass reads the output page once, so a change of that page during a
pass counts as one before or behind it. Logs and the counters that are only logged are left out.

## Main definitions

* `Affine.SerialSession` with `writeFrame`, and `Affine.serialWire`.
* `Affine.SerialTick` — what happens around a pass.
* `Affine.SerialThread`, `Affine.SerialThread.pass` — the variables of the loop, and a pass.

## Main results

* `Affine.SerialThread.pass_keeps` — a pass keeps what the loop remembers of the LEDs true, and
  behind the LED section it has seen the sequence numbers of the page.
-/

namespace Affine

def affineTouchStaleLedPauseMs : UInt64 := 300
def affineTouchStaleReconnectMs : UInt64 := 1000
def affineTouchStaleGraceMs : UInt64 := 3000

/-- The frame that `send_frame` writes. -/
def mai2Frame (cmd : UInt8) (payload : List UInt8) : List UInt8 :=
  let frame := [0xFF, cmd, UInt8.ofNat payload.length] ++ payload
  frame ++ [Checksum.sum frame]

/-- `send_frame`; `answer` is what the system does with the frame. -/
def sendFrame (port : SerialPort) (answer : PortWrite) (cmd : UInt8) (payload : List UInt8) :
    Bool × SerialPort :=
  port.write answer (mai2Frame cmd payload)

/-- `SerialSession`, without the flags of the board information. -/
structure SerialSession where
  port : SerialPort
  active : Bool
  readerFailed : Bool
  deriving DecidableEq

namespace SerialSession

/-- `SerialSession::new`. -/
def new (port : SerialPort) : SerialSession where
  port := port
  active := true
  readerFailed := false

/-- `SerialSession::is_active`. -/
def isActive (s : SerialSession) : Bool := s.active && !s.readerFailed

/-- `SerialSession::write_frame`. -/
def writeFrame (s : SerialSession) (answer : PortWrite) (cmd : UInt8) (payload : List UInt8) :
    Bool × SerialSession :=
  if ¬ s.active then (false, s)
  else
    let (written, port) := sendFrame s.port answer cmd payload
    (written, { s with port := port })

/-- The reader thread stops when a read fails. -/
def failReader (s : SerialSession) : SerialSession :=
  { s with readerFailed := true, active := false }

end SerialSession

/-- Commands of the serial loop. -/
def serialWire : Wire SerialSession where
  send answer cmd payload s := s.writeFrame answer cmd payload
  sent s := s.port.sent
  isOpen s := s.port.isOpen
  frame := mai2Frame
  command frame := frame[1]?
  command_frame _ _ := rfl
  sent_send answer cmd payload s := by
    obtain ⟨⟨isOpen, sent, wire⟩, active, readerFailed⟩ := s
    cases isOpen <;> cases active <;> cases hok : answer.ok <;>
      simp [SerialSession.writeFrame, sendFrame, SerialPort.write, hok]
  isOpen_send answer cmd payload s := by
    obtain ⟨⟨isOpen, sent, wire⟩, active, readerFailed⟩ := s
    cases isOpen <;> cases active <;> cases hok : answer.ok <;>
      simp [SerialSession.writeFrame, sendFrame, SerialPort.write, hok]

/-- What the system, the device and the reader do around a pass of the loop. -/
structure SerialTick where
  /-- The vendor HID interface is present. -/
  vendorPresent : Bool
  /-- `find_com_port` finds the device. -/
  found : Bool
  /-- The port opens. -/
  opens : Bool
  /-- The readings of the clock when a session is opened. -/
  heartbeatMs : UInt64
  boardInfoMs : UInt64
  connectedMs : UInt64
  /-- The reader has failed since the last pass. -/
  readerFails : Bool
  /-- The reader has received board information since the last pass. -/
  boardInfo : Bool
  /-- The reading of the clock. -/
  now : UInt64
  /-- What the port does with the frame that has a command. -/
  takes : UInt8 → PortWrite
  /-- The loads of the touch counters of the device. -/
  touchFrames : UInt64
  touchLastUpdateMs : UInt64

/-- How a pass ends: without a connection, with a new one, before the LED section because touch
input is stale, or behind the LED section. -/
inductive PassEnd
  | rescan
  | connected
  | suspended
  | done
  deriving DecidableEq

/-- `touch_serial_age_ms`. -/
def touchSerialAgeMs (lastUpdateMs now connectedSinceMs : UInt64) : Option UInt64 :=
  if lastUpdateMs ≠ 0 then some (saturatingSub now lastUpdateMs)
  else if connectedSinceMs ≠ 0 then some (saturatingSub now connectedSinceMs)
  else none

/-- The variables of `device_thread`. -/
structure SerialThread where
  session : Option SerialSession
  vars : LoopVars
  connectedSinceMs : UInt64
  lastTouchFrames : UInt64
  ledOutputSuspended : Bool

namespace SerialThread

/-- The thread at its start, with a reading of the clock and of the touch counter. -/
def init (now touchFrames : UInt64) : SerialThread where
  session := none
  vars := .start now 0
  connectedSinceMs := 0
  lastTouchFrames := touchFrames
  ledOutputSuspended := false

/-- `disconnect_session`. -/
def disconnect (t : SerialThread) (device : DeviceHandle) : DeviceHandle × SerialThread :=
  (device.disconnectSession, { t with session := none })

/-- The loop opens a session if there is none; `none` if it cannot. -/
def connect (t : SerialThread) (device : DeviceHandle) (tick : SerialTick) :
    Option (DeviceHandle × SerialThread) :=
  if t.session.isSome then some (device, t)
  else if ¬ tick.found then none
  else
    let (opened, port) := SerialPort.default.reopen tick.opens
    if ¬ opened then none
    else
      some (device.markConnected,
        { t with
          session := some (.new port)
          vars := .start tick.heartbeatMs tick.boardInfoMs
          connectedSinceMs := tick.connectedMs })

/-- Whether touch input is watched: it is enabled, and the session is not new. -/
def touchProtectActive (t : SerialThread) (output : Mai2OutputPage) (tick : SerialTick) : Bool :=
  output.touchEnabled ≠ 0 ∧ t.connectedSinceMs ≠ 0 ∧
    affineTouchStaleGraceMs ≤ saturatingSub tick.now t.connectedSinceMs

/-- Touch input is watched, and is at least this old. -/
def touchOlder (t : SerialThread) (output : Mai2OutputPage) (tick : SerialTick)
    (limit : UInt64) : Bool :=
  t.touchProtectActive output tick ∧
    ((touchSerialAgeMs tick.touchLastUpdateMs tick.now t.connectedSinceMs).map
      fun age => decide (limit ≤ age)).getD false

/-- New touch frames resume LED output, and stale touch input suspends it. -/
def checkTouch (t : SerialThread) (output : Mai2OutputPage) (tick : SerialTick) : SerialThread :=
  let t :=
    if tick.touchFrames ≠ t.lastTouchFrames then
      { t with lastTouchFrames := tick.touchFrames, ledOutputSuspended := false }
    else t
  if t.touchOlder output tick affineTouchStaleLedPauseMs then
    { t with ledOutputSuspended := true }
  else t

/-- The part of a pass behind the checks of the session. -/
def serve (t : SerialThread) (device : DeviceHandle) (tick : SerialTick)
    (session : SerialSession) : PassEnd × DeviceHandle × SerialThread :=
  let link : Link SerialSession := ⟨session, t.vars⟩
  let commands := do
    let link ← link.heartbeat serialWire tick.takes tick.now
    link.queryBoardInfo serialWire tick.takes tick.now
  match commands with
  | .error link => (.rescan, { t with vars := link.vars }.disconnect device)
  | .ok link =>
    let output := device.outputPage
    let t := { t with session := some link.conn, vars := link.vars }.checkTouch output tick
    if t.touchOlder output tick affineTouchStaleReconnectMs then (.rescan, t.disconnect device)
    else if t.ledOutputSuspended then (.suspended, device, t)
    else
      match link.writeLeds serialWire tick.takes serialPayload output with
      | .error link => (.rescan, { t with vars := link.vars }.disconnect device)
      | .ok link => (.done, device, { t with session := some link.conn, vars := link.vars })

/-- A pass of the loop. -/
def pass (t : SerialThread) (device : DeviceHandle) (tick : SerialTick) :
    PassEnd × DeviceHandle × SerialThread :=
  if ¬ device.enabled then (.rescan, t.disconnect device)
  else if device.vendorConnected ∨ tick.vendorPresent then (.rescan, t.disconnect device)
  else
    match t.connect device tick with
    | none => (.rescan, device, t)
    | some (device, t) =>
      match t.session with
      | none => (.rescan, device, t)
      | some session =>
        let session := if tick.readerFails then session.failReader else session
        let t := { t with
          session := some session
          vars := if tick.boardInfo then t.vars.boardInfo else t.vars }
        if ¬ session.isActive then (.rescan, t.disconnect device)
        else t.serve device tick session

/-! ## What a pass does to the LEDs -/

/-- What the loop remembers of the LEDs of a page is true, up to `n` changes since. -/
def Tracks (t : SerialThread) (output : Mai2OutputPage) (n : ℕ) : Prop :=
  ∀ session, t.session = some session →
    Link.Tracks serialWire ⟨session, t.vars⟩ serialPayload output n

variable {t t' : SerialThread} {device device' : DeviceHandle} {tick : SerialTick} {n : ℕ}
  {exit : PassEnd}

/-- Without a session there is nothing to remember. -/
lemma tracks_of_none {output : Mai2OutputPage} (h : t.session = none) : t.Tracks output n := by
  intro session hsession
  rw [h] at hsession
  cases hsession

/-- The touch checks leave the session. -/
@[simp] lemma checkTouch_session (t : SerialThread) (output : Mai2OutputPage) :
    (t.checkTouch output tick).session = t.session := by
  unfold checkTouch
  dsimp only
  split <;> split <;> rfl

/-- The touch checks leave the variables of the connection. -/
@[simp] lemma checkTouch_vars (t : SerialThread) (output : Mai2OutputPage) :
    (t.checkTouch output tick).vars = t.vars := by
  unfold checkTouch
  dsimp only
  split <;> split <;> rfl

/-- What a pass may do: the output page stays, what the loop remembers of it is still true, and at
the end of the LED section it has seen every channel. -/
structure PassKeeps (output : Mai2OutputPage) (n : ℕ)
    (result : PassEnd × DeviceHandle × SerialThread) : Prop where
  outputPage : result.2.1.outputPage = output
  tracks : result.2.2.Tracks output n
  seen : result.1 = .done → result.2.2.session.isSome ∧
    ∀ channel, (output.led channel).version = result.2.2.vars.last channel

/-- Giving up the session. -/
lemma passKeeps_disconnect (t : SerialThread) (device : DeviceHandle) :
    PassKeeps device.outputPage n (.rescan, t.disconnect device) :=
  ⟨device.disconnectSession_outputPage, tracks_of_none rfl, nofun⟩

/-- The part of a pass behind the checks of the session.

**Proof sketch.** The sections keep what the loop remembers one by one (`Link.Tracks`), and a
section that fails gives up the session. -/
lemma serve_keeps {session : SerialSession}
    (h : Link.Tracks serialWire ⟨session, t.vars⟩ serialPayload device.outputPage n) :
    PassKeeps device.outputPage n (t.serve device tick session) := by
  unfold serve
  dsimp only
  generalize hcommands : (Link.heartbeat serialWire tick.takes tick.now ⟨session, t.vars⟩ >>=
    fun link => link.queryBoardInfo serialWire tick.takes tick.now) = commands
  cases commands with
  | error l₁ => exact passKeeps_disconnect _ _
  | ok l₂ =>
    obtain ⟨l₁, hheart, hquery⟩ := Slice.bind_eq_ok.mp hcommands
    have h₂ := (h.heartbeat hheart).queryBoardInfo hquery
    dsimp only
    split
    · exact passKeeps_disconnect _ _
    split
    · refine ⟨rfl, fun session hsession => ?_, nofun⟩
      rw [checkTouch_session] at hsession
      cases hsession
      rw [checkTouch_vars]
      exact h₂
    · cases hleds : l₂.writeLeds serialWire tick.takes serialPayload device.outputPage with
      | error l₃ => exact passKeeps_disconnect _ _
      | ok l₃ =>
        obtain ⟨h₃, hseen⟩ := h₂.writeLeds hleds
        refine ⟨rfl, fun session hsession => ?_, fun _ => ⟨rfl, hseen⟩⟩
        cases hsession
        exact h₃

/-- Behind the connecting step there is the session that was there, or a new one.

**Proof sketch.** The cases are the branches of the source. -/
lemma connect_cases (h : t.connect device tick = some (device', t')) :
    (t.session.isSome ∧ device' = device ∧ t' = t) ∨
      (¬ t.session.isSome ∧ device' = device.markConnected ∧
        t' = { t with
          session := some (.new .opened)
          vars := .start tick.heartbeatMs tick.boardInfoMs
          connectedSinceMs := tick.connectedMs }) := by
  unfold connect at h
  split at h
  · next hsession =>
    cases h
    exact .inl ⟨hsession, rfl, rfl⟩
  · next hsession =>
    split at h
    · cases h
    cases hopens : tick.opens
    · rw [hopens] at h
      cases h
    · rw [hopens] at h
      cases h
      exact .inr ⟨hsession, rfl, rfl⟩

/-- Opening a session. -/
lemma connect_tracks (h : t.Tracks device.outputPage n)
    (hconnect : t.connect device tick = some (device', t')) :
    device'.outputPage = device.outputPage ∧ t'.Tracks device.outputPage n := by
  obtain ⟨-, rfl, rfl⟩ | ⟨-, rfl, rfl⟩ := connect_cases hconnect
  · exact ⟨rfl, h⟩
  · refine ⟨rfl, fun session hsession => ?_⟩
    cases hsession
    exact Link.Tracks.start rfl _ _

/-- The reader changes nothing that the loop remembers of the LEDs. -/
lemma tracks_reader {session : SerialSession} {vars : LoopVars} {output : Mai2OutputPage}
    (h : Link.Tracks serialWire ⟨session, vars⟩ serialPayload output n)
    (readerFails boardInfo : Bool) :
    Link.Tracks serialWire ⟨if readerFails then session.failReader else session,
      if boardInfo then vars.boardInfo else vars⟩ serialPayload output n := by
  have hsent : (if readerFails then session.failReader else session).port = session.port := by
    cases readerFails <;> rfl
  have hlast : (if boardInfo then vars.boardInfo else vars).last = vars.last := by
    funext channel
    cases boardInfo
    · rfl
    · exact vars.last_boardInfo channel
  constructor
  · exact (congrArg SerialPort.isOpen hsent).trans h.isOpen
  · intro channel
    have hled := h.led channel
    simp only [Link.lastFrame, serialWire, hsent, hlast] at hled ⊢
    exact hled

/-- **A pass keeps what the loop remembers of the LEDs true**, and behind the LED section it has
seen every channel of the page.

**Proof sketch.** A pass that ends early keeps the session or gives it up; the sections of the
others keep the memory true (`serve_keeps`). -/
theorem pass_keeps (h : t.Tracks device.outputPage n) (tick : SerialTick) :
    PassKeeps device.outputPage n (t.pass device tick) := by
  unfold pass
  split
  · exact passKeeps_disconnect _ _
  split
  · exact passKeeps_disconnect _ _
  cases hconnect : t.connect device tick with
  | none => exact ⟨rfl, h, nofun⟩
  | some result =>
    obtain ⟨device₁, t₁⟩ := result
    obtain ⟨hpage, ht₁⟩ := connect_tracks h hconnect
    dsimp only
    cases hsession : t₁.session with
    | none => exact ⟨hpage, ht₁, nofun⟩
    | some session =>
      have hlink := tracks_reader (ht₁ session hsession) tick.readerFails tick.boardInfo
      rw [← hpage] at hlink ⊢
      dsimp only
      generalize (if tick.readerFails then session.failReader else session) = session' at hlink ⊢
      generalize (if tick.boardInfo then t₁.vars.boardInfo else t₁.vars) = vars at hlink ⊢
      split
      · exact passKeeps_disconnect _ _
      · exact serve_keeps (t := { t₁ with session := some session', vars := vars }) hlink

end SerialThread

end Affine
