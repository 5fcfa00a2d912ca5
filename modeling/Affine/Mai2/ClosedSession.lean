import Affine.Mai2.DropRace
import Affine.Mai2.SerialLoop

set_option relaxedAutoImplicit false
set_option autoImplicit false

/-!
# Closed serial sessions

`device_thread` and the reader threads it starts (`affine-mai2/src/lib.rs`), over any number of
sessions, next to the HID threads of the player (`Affine.HidRace`). A step is an access to what the
threads share, and the threads take their steps in any order. Each way out of a session goes through
`disconnect_session`, which closes the session, joins its reader and only then resets the input
page.

## Main definitions

* `Affine.ReaderPc`, `Affine.DevicePc` — where the threads are.
* `Affine.SerialRace`, `Affine.SerialRace.Step` — the player with its threads, and their steps.
* `Affine.SerialRace.Inv` — the device thread holds the reader that may still run.
* `Affine.SerialRace.DeviceTurn` — what a step of the device thread does.

## Main results

* `Affine.SerialRace.deviceStep_turn` — the cases of a step of the device thread.
* `Affine.SerialRace.Inv.step`, `Affine.closed_session_writes_nothing`.
-/

namespace Affine

/-! ## The threads -/

/-- Where a reader thread is: before the check of its loop, before the check of
`SerialSession::read`, in the read of the port, in the loops over the bytes it has read and the
frames of the last byte, between the load of a flag and the page update for a frame, between the two
stores for a board-info frame or behind a failed read, or at its end. -/
inductive ReaderPc
  | loop
  | read
  | reading
  | serving (bytes : List UInt8) (frames : List ParsedFrame)
  | applying (useSerialButtons : Bool) (buttons0 ioStatus : Option UInt8)
      (touch : Option (List.Vector UInt8 7)) (bytes : List UInt8) (frames : List ParsedFrame)
  | logging (bytes : List UInt8) (frames : List ParsedFrame)
  | failed
  | finished

/-- A reader thread, with its receive buffer. -/
structure SerialReader where
  pc : ReaderPc
  rx : RxBuf

/-- A reader thread at its start. -/
def SerialReader.start : SerialReader where
  pc := .loop
  rx := ⟨List.Vector.replicate 512 0, 0⟩

namespace LoopVars

/-- The flags of a new session. -/
def newFlags (vars : LoopVars) : LoopVars :=
  { vars with boardInfoPending := true, boardInfoLogged := false }

/-- The variables of a new session, whose flags are there already. -/
def startWith (vars : LoopVars) (heartbeatMs boardInfoMs : UInt64) : LoopVars :=
  { start heartbeatMs boardInfoMs with
    boardInfoPending := vars.boardInfoPending
    boardInfoLogged := vars.boardInfoLogged }

/-- No query is to be sent any more. -/
def clearPending (vars : LoopVars) : LoopVars := { vars with boardInfoPending := false }

/-- The board information is in the log. -/
def setLogged (vars : LoopVars) : LoopVars := { vars with boardInfoLogged := true }

end LoopVars

/-- Where the device thread is: in its loop, from the top on, with the session `i` from the point on
where it has one, or in `disconnect_session`. -/
inductive DevicePc
  | top
  | probe
  | connect
  | opened (i : ℕ)
  | checkActive (i : ℕ)
  | checkFailed (i : ℕ)
  | heartbeat (i : ℕ)
  | boardInfo (i : ℕ)
  | query (i : ℕ)
  /-- The query was sent again, and it was late: `board_info_logged` is loaded, and both flags are
  stored. -/
  | giveUp (i : ℕ)
  | clearPending (i : ℕ)
  | setLogged (i : ℕ)
  | checkTouch (i : ℕ)
  | leds (i : ℕ) (output : Mai2OutputPage) (channels : List LedChannel)
  /-- `disconnect_session` has been called. -/
  | takeSession
  | closePort (i : ℕ)
  | takeHandle
  | join (i : ℕ)
  | loadVendor
  | loadTouchHid
  | loadHid
  | update (hidConnected : Bool)

/-- The device thread: the sessions and the readers are given by their numbers. -/
structure DeviceThread where
  pc : DevicePc
  session : Option ℕ
  readerHandle : Option ℕ
  vars : LoopVars
  connectedSinceMs : UInt64
  lastTouchFrames : UInt64
  ledOutputSuspended : Bool

namespace DeviceThread

/-- The thread at its start, with a reading of the clock and of the touch counter. -/
def start (now touchFrames : UInt64) : DeviceThread where
  pc := .top
  session := none
  readerHandle := none
  vars := .start now 0
  connectedSinceMs := 0
  lastTouchFrames := touchFrames
  ledOutputSuspended := false

/-- The variables of the loop, with the session it has. -/
def loopVars (t : DeviceThread) (session : SerialSession) : SerialThread where
  session := some session
  vars := t.vars
  connectedSinceMs := t.connectedSinceMs
  lastTouchFrames := t.lastTouchFrames
  ledOutputSuspended := t.ledOutputSuspended

end DeviceThread

/-- A player with its threads: the sessions that have been opened, each with its reader thread, by
their numbers. -/
structure SerialRace where
  device : DeviceHandle
  hid : HidSource → HidPc
  sessions : List SerialSession
  readers : List SerialReader
  thread : DeviceThread

namespace SerialRace

/-- The threads at their start, on any pages: they are shared and may have been used before. -/
def start (enabled : Bool) (inputPage : Mai2InputPage) (outputPage : Mai2OutputPage)
    (now : UInt64) : SerialRace where
  device := { DeviceHandle.new enabled with inputPage := inputPage, outputPage := outputPage }
  hid := fun _ => .apart
  sessions := []
  readers := []
  thread := .start now 0

variable (s : SerialRace)

/-- The player with its HID threads. -/
def hidRace : HidRace := ⟨s.device, s.hid⟩

/-- A session. -/
def session (i : ℕ) : SerialSession := s.sessions.getD i (.new .default)

/-- The device thread goes on. -/
def goto (pc : DevicePc) : SerialRace := { s with thread := { s.thread with pc := pc } }

/-- A reader thread goes on. -/
def setReader (i : ℕ) (reader : SerialReader) : SerialRace :=
  { s with readers := s.readers.set i reader }

/-- A store to a session. -/
def setSession (i : ℕ) (session : SerialSession) : SerialRace :=
  { s with sessions := s.sessions.set i session }

/-- A store to the flags of a session. -/
def storeFlags (i : ℕ) (store : LoopVars → LoopVars) : SerialRace :=
  if s.thread.session = some i then
    { s with thread := { s.thread with vars := store s.thread.vars } }
  else s

/-! ### The device thread -/

/-- A section that writes to the session: if that fails, the session is given up. -/
def runSection (i : ℕ)
    (commands : Link SerialSession → Except (Link SerialSession) (Link SerialSession))
    (next : DevicePc) : SerialRace :=
  match commands ⟨s.session i, s.thread.vars⟩ with
  | .ok link =>
    { s.setSession i link.conn with thread := { s.thread with vars := link.vars, pc := next } }
  | .error link =>
    { s.setSession i link.conn with
      thread := { s.thread with vars := link.vars, pc := .takeSession } }

/-- A step of the device thread; `none` while it waits for a reader. -/
def deviceStep (tick : SerialTick) : Option SerialRace :=
  match s.thread.pc with
  | .top => s.goto (if s.device.enabled then .probe else .takeSession)
  | .probe =>
    s.goto (if s.device.vendorConnected ∨ tick.vendorPresent then .takeSession else .connect)
  | .connect =>
    match s.thread.session with
    | some i => s.goto (.checkActive i)
    | none =>
      if ¬ tick.found then s.goto .top
      else
        let (opened, port) := SerialPort.default.reopen tick.opens
        if ¬ opened then s.goto .top
        else
          let i := s.readers.length
          some { s with
            sessions := s.sessions ++ [.new port]
            readers := s.readers ++ [.start]
            thread := { s.thread with
              pc := .opened i
              readerHandle := some i
              session := some i
              vars := s.thread.vars.newFlags } }
  | .opened i =>
    some { s with
      device := s.device.markConnected
      thread := { s.thread with
        pc := .checkActive i
        vars := s.thread.vars.startWith tick.heartbeatMs tick.boardInfoMs
        connectedSinceMs := tick.connectedMs } }
  | .checkActive i => s.goto (if (s.session i).active then .checkFailed i else .takeSession)
  | .checkFailed i => s.goto (if (s.session i).readerFailed then .takeSession else .heartbeat i)
  | .heartbeat i => s.runSection i (·.heartbeat serialWire tick.takes tick.now) (.boardInfo i)
  | .boardInfo i =>
    s.goto (if s.thread.vars.boardInfoPending then .query i else .checkTouch i)
  | .query i =>
    s.runSection i (·.sendQuery serialWire tick.takes tick.now)
      (if s.thread.vars.QueryLate tick.now then .giveUp i else .checkTouch i)
  | .giveUp i =>
    s.goto (if s.thread.vars.boardInfoLogged then .checkTouch i else .clearPending i)
  | .clearPending i => (s.storeFlags i .clearPending).goto (.setLogged i)
  | .setLogged i => (s.storeFlags i .setLogged).goto (.checkTouch i)
  | .checkTouch i =>
    let output := s.device.outputPage
    let t := (s.thread.loopVars (s.session i)).checkTouch output tick
    some { s with
      thread := { s.thread with
        pc :=
          if t.touchOlder output tick affineTouchStaleReconnectMs then .takeSession
          else if t.ledOutputSuspended then .top
          else .leds i output [.buttons, .billboard, .pwm]
        lastTouchFrames := t.lastTouchFrames
        ledOutputSuspended := t.ledOutputSuspended } }
  | .leds _ _ [] => s.goto .top
  | .leds i output (channel :: channels) =>
    s.runSection i (·.writeLed serialWire tick.takes serialPayload output channel)
      (.leds i output channels)
  | .takeSession =>
    match s.thread.session with
    | none => s.goto .takeHandle
    | some i =>
      some { s.setSession i { s.session i with active := false } with
        thread := { s.thread with session := none, pc := .closePort i } }
  | .closePort i =>
    (s.setSession i { s.session i with port := (s.session i).port.close }).goto .takeHandle
  | .takeHandle =>
    match s.thread.readerHandle with
    | none => s.goto .loadVendor
    | some i => some { s with thread := { s.thread with readerHandle := none, pc := .join i } }
  | .join i =>
    match s.readers[i]? with
    | some ⟨.finished, _⟩ => s.goto .loadVendor
    | _ => none
  | .loadVendor => s.goto (if s.device.vendorConnected then .update true else .loadTouchHid)
  | .loadTouchHid => s.goto (if s.device.touchHidConnected then .update true else .loadHid)
  | .loadHid => s.goto (.update s.device.hidConnected)
  | .update hidConnected =>
    some { s with
      device :=
        if hidConnected then s.device.markConnected else { s.device with inputPage := .default }
      thread := { s.thread with pc := .top } }

/-! ### The reader threads -/

/-- A step of a reader thread; `none` at its end. -/
def readerStep (i : ℕ) (read : PortRead 256) (now : UInt64) : Option SerialRace :=
  match s.readers[i]? with
  | none => none
  | some r =>
    match r.pc with
    | .loop => s.setReader i { r with pc := if (s.session i).active then .read else .finished }
    | .read => s.setReader i { r with pc := if (s.session i).active then .reading else .loop }
    | .reading =>
      match read with
      | none =>
        (s.setSession i { s.session i with readerFailed := true }).setReader i
          { r with pc := .failed }
      | some bytes =>
        s.setReader i { r with pc := if bytes.1.length = 0 then .loop else .serving bytes.1 [] }
    | .failed =>
      (s.setSession i { s.session i with active := false }).setReader i { r with pc := .finished }
    | .serving [] [] => s.setReader i { r with pc := .loop }
    | .serving (byte :: bytes) [] =>
      match r.rx.push byte with
      | .error _ => s.setReader i { r with pc := .finished }
      | .ok (frames, rx) => s.setReader i ⟨.serving bytes frames, rx⟩
    | .serving bytes (.touch buttons0 ioStatus touch :: frames) =>
      s.setReader i { r with
        pc := .applying (!s.device.hidConnected) buttons0 ioStatus touch bytes frames }
    | .serving bytes (.boardInfo _ :: frames) =>
      (s.storeFlags i .clearPending).setReader i { r with pc := .logging bytes frames }
    | .logging bytes frames =>
      (s.storeFlags i .setLogged).setReader i { r with pc := .serving bytes frames }
    | .applying useSerialButtons buttons0 ioStatus touch bytes frames =>
      some { s.setReader i { r with pc := .serving bytes frames } with
        device := s.device.applyDeviceFrame (if useSerialButtons then buttons0 else none)
          (if useSerialButtons then ioStatus else none) touch .serial now }
    | .finished => none

/-! ### The steps -/

/-- The steps of the threads, and the changes of the output page by the game. -/
inductive Step (s : SerialRace) : SerialRace → Prop
  | device (tick : SerialTick) (t : SerialRace) (h : s.deviceStep tick = some t) : Step s t
  | reader (i : ℕ) (read : PortRead 256) (now : UInt64) (t : SerialRace)
      (h : s.readerStep i read now = some t) : Step s t
  | hid (r : HidRace) (h : s.hidRace.Step r) : Step s { s with device := r.device, hid := r.pc }
  | output (page : Mai2OutputPage) :
      Step s { s with device := { s.device with outputPage := page } }

/-- What the threads can come to in any interleaving. -/
def Reaches : SerialRace → SerialRace → Prop := Relation.ReflTransGen Step

end SerialRace

/-! ## The invariant -/

/-- Behind the first step of `disconnect_session` the session is taken. -/
def DevicePc.sessionTaken : DevicePc → Bool
  | closePort _ | takeHandle | join _ | loadVendor | loadTouchHid | loadHid | update _ => true
  | _ => false

/-- Behind the join the reader has ended, and `disconnect_session` resets the page. -/
def DevicePc.joined : DevicePc → Bool
  | loadVendor | loadTouchHid | loadHid | update _ => true
  | _ => false

namespace SerialRace

/-- The reader that may still run: the one that the device thread has the handle of or waits for. -/
def mayRun (s : SerialRace) : Option ℕ :=
  match s.thread.pc with
  | .join i => some i
  | _ => s.thread.readerHandle

/-- The device thread has a reader exactly if it has a session, which is the one of the reader, and
only this reader may run. The flags of the HID threads are right. -/
structure Inv (s : SerialRace) : Prop where
  session : s.thread.session =
    if s.thread.pc.sessionTaken then none else s.thread.readerHandle
  joining : ∀ i, s.thread.pc = .join i → s.thread.readerHandle = none
  joined : s.thread.pc.joined = true → s.thread.readerHandle = none
  alive : ∀ i r, s.readers[i]? = some r → r.pc ≠ .finished → s.mayRun = some i
  hid : ∀ i, s.device.flag i = true ↔ (s.hid i).IsOpen

variable {s t : SerialRace}

/-- The threads start in the invariant. -/
lemma inv_start (enabled : Bool) (inputPage : Mai2InputPage) (outputPage : Mai2OutputPage)
    (now : UInt64) : (start enabled inputPage outputPage now).Inv where
  session := rfl
  joining := nofun
  joined := nofun
  alive i r hr := by
    rw [start, List.getElem?_nil] at hr
    cases hr
  hid i := iff_of_false (by cases i <;> exact Bool.false_ne_true) id

/-- Where the device thread goes on without a store: what it has loaded, and where it goes. -/
inductive Goes (s : SerialRace) (tick : SerialTick) : DevicePc → DevicePc → Prop
  | enabled : Goes s tick .top .probe
  | disabled : Goes s tick .top .takeSession
  | present : Goes s tick .probe .takeSession
  | absent (h : s.device.vendorConnected = false) : Goes s tick .probe .connect
  | connected (i : ℕ) (h : s.thread.session = some i) : Goes s tick .connect (.checkActive i)
  | notOpened (h : s.thread.session = none) : Goes s tick .connect .top
  | active (i : ℕ) : Goes s tick (.checkActive i) (.checkFailed i)
  | inactive (i : ℕ) : Goes s tick (.checkActive i) .takeSession
  | reading (i : ℕ) : Goes s tick (.checkFailed i) (.heartbeat i)
  | readFailed (i : ℕ) : Goes s tick (.checkFailed i) .takeSession
  | pending (i : ℕ) (h : s.thread.vars.boardInfoPending = true) :
      Goes s tick (.boardInfo i) (.query i)
  | answered (i : ℕ) : Goes s tick (.boardInfo i) (.checkTouch i)
  | logged (i : ℕ) (h : s.thread.vars.boardInfoLogged = true) :
      Goes s tick (.giveUp i) (.checkTouch i)
  | notLogged (i : ℕ) : Goes s tick (.giveUp i) (.clearPending i)
  | ledsWritten (i : ℕ) (output : Mai2OutputPage) : Goes s tick (.leds i output []) .top
  | noSession (h : s.thread.session = none) : Goes s tick .takeSession .takeHandle
  | noHandle (h : s.thread.readerHandle = none) : Goes s tick .takeHandle .loadVendor
  | joined (i : ℕ) (rx : RxBuf) (h : s.readers[i]? = some ⟨.finished, rx⟩) :
      Goes s tick (.join i) .loadVendor
  | vendor (h : s.device.vendorConnected = true) : Goes s tick .loadVendor (.update true)
  | noVendor : Goes s tick .loadVendor .loadTouchHid
  | touchHid (h : s.device.touchHidConnected = true) : Goes s tick .loadTouchHid (.update true)
  | noTouchHid : Goes s tick .loadTouchHid .loadHid
  | hid : Goes s tick .loadHid (.update s.device.hidConnected)

/-- What a step of the device thread does: it goes on without a store, or it is one of the steps
with a store, each from its place in the thread. -/
inductive DeviceTurn (s : SerialRace) (tick : SerialTick) : SerialRace → Prop
  | goto (pc pc' : DevicePc) (hpc : s.thread.pc = pc) (h : s.Goes tick pc pc') :
      DeviceTurn s tick (s.goto pc')
  | openSession (hpc : s.thread.pc = .connect) (hnone : s.thread.session = none) :
      DeviceTurn s tick { s with
        sessions := s.sessions ++ [.new .opened]
        readers := s.readers ++ [.start]
        thread := { s.thread with
          pc := .opened s.readers.length
          readerHandle := some s.readers.length
          session := some s.readers.length
          vars := s.thread.vars.newFlags } }
  | opened (i : ℕ) (hpc : s.thread.pc = .opened i) : DeviceTurn s tick { s with
      device := s.device.markConnected
      thread := { s.thread with
        pc := .checkActive i
        vars := s.thread.vars.startWith tick.heartbeatMs tick.boardInfoMs
        connectedSinceMs := tick.connectedMs } }
  | heartbeat (i : ℕ) (hpc : s.thread.pc = .heartbeat i) : DeviceTurn s tick
      (s.runSection i (·.heartbeat serialWire tick.takes tick.now) (.boardInfo i))
  | query (i : ℕ) (hpc : s.thread.pc = .query i) : DeviceTurn s tick
      (s.runSection i (·.sendQuery serialWire tick.takes tick.now)
        (if s.thread.vars.QueryLate tick.now then .giveUp i else .checkTouch i))
  | clearPending (i : ℕ) (hpc : s.thread.pc = .clearPending i) :
      DeviceTurn s tick ((s.storeFlags i .clearPending).goto (.setLogged i))
  | setLogged (i : ℕ) (hpc : s.thread.pc = .setLogged i) :
      DeviceTurn s tick ((s.storeFlags i .setLogged).goto (.checkTouch i))
  | checkTouch (i : ℕ) (pc : DevicePc) (lastTouchFrames : UInt64) (suspended : Bool)
      (hpc : s.thread.pc = .checkTouch i)
      (hpc' : pc = .takeSession ∨ pc = .top ∨
        pc = .leds i s.device.outputPage [.buttons, .billboard, .pwm]) :
      DeviceTurn s tick { s with
        thread := { s.thread with
          pc := pc
          lastTouchFrames := lastTouchFrames
          ledOutputSuspended := suspended } }
  | writeLed (i : ℕ) (output : Mai2OutputPage) (channel : LedChannel) (channels : List LedChannel)
      (hpc : s.thread.pc = .leds i output (channel :: channels)) : DeviceTurn s tick
      (s.runSection i (·.writeLed serialWire tick.takes serialPayload output channel)
        (.leds i output channels))
  | takeSession (i : ℕ) (hpc : s.thread.pc = .takeSession) (h : s.thread.session = some i) :
      DeviceTurn s tick { s.setSession i { s.session i with active := false } with
        thread := { s.thread with session := none, pc := .closePort i } }
  | closePort (i : ℕ) (hpc : s.thread.pc = .closePort i) : DeviceTurn s tick
      ((s.setSession i { s.session i with port := (s.session i).port.close }).goto .takeHandle)
  | takeHandle (i : ℕ) (hpc : s.thread.pc = .takeHandle) (h : s.thread.readerHandle = some i) :
      DeviceTurn s tick
        { s with thread := { s.thread with readerHandle := none, pc := .join i } }
  | update (hidConnected : Bool) (hpc : s.thread.pc = .update hidConnected) :
      DeviceTurn s tick { s with
        device :=
          if hidConnected then s.device.markConnected else { s.device with inputPage := .default }
        thread := { s.thread with pc := .top } }

/-- The thread goes on at one of two places, without a store. -/
lemma DeviceTurn.ite {tick : SerialTick} {pc pc₁ pc₂ : DevicePc} {c : Prop} [Decidable c]
    (hpc : s.thread.pc = pc) (h₁ : c → s.Goes tick pc pc₁) (h₂ : ¬ c → s.Goes tick pc pc₂) :
    s.DeviceTurn tick (s.goto (if c then pc₁ else pc₂)) := by
  split
  · next h => exact .goto _ _ hpc (h₁ h)
  · next h => exact .goto _ _ hpc (h₂ h)

/-- **A step of the device thread**: one of the cases of `DeviceTurn`.

**Proof sketch.** The cases are the places of the thread, and in each the branches of the source. -/
lemma deviceStep_turn {tick : SerialTick} (h : s.deviceStep tick = some t) :
    s.DeviceTurn tick t := by
  unfold deviceStep at h
  cases hpc : s.thread.pc <;> rw [hpc] at h <;> dsimp only at h
  case top =>
    cases h
    exact .ite hpc (fun _ => .enabled) fun _ => .disabled
  case probe =>
    cases h
    exact .ite hpc (fun _ => .present) fun h => .absent (Bool.eq_false_iff.mpr (not_or.mp h).1)
  case connect =>
    cases hsession : s.thread.session with
    | some i =>
      rw [hsession] at h
      cases h
      exact .goto _ _ hpc (.connected i hsession)
    | none =>
      rw [hsession] at h
      dsimp only at h
      split at h
      · cases h
        exact .goto _ _ hpc (.notOpened hsession)
      · cases hopens : tick.opens <;> rw [hopens] at h <;> cases h
        · exact .goto _ _ hpc (.notOpened hsession)
        · exact .openSession hpc hsession
  case opened i =>
    cases h
    exact .opened i hpc
  case checkActive i =>
    cases h
    exact .ite hpc (fun _ => .active i) fun _ => .inactive i
  case checkFailed i =>
    cases h
    exact .ite hpc (fun _ => .readFailed i) fun _ => .reading i
  case heartbeat i =>
    cases h
    exact .heartbeat i hpc
  case boardInfo i =>
    cases h
    exact .ite hpc (.pending i) fun _ => .answered i
  case query i =>
    cases h
    exact .query i hpc
  case giveUp i =>
    cases h
    exact .ite hpc (.logged i) fun _ => .notLogged i
  case clearPending i =>
    cases h
    exact .clearPending i hpc
  case setLogged i =>
    cases h
    exact .setLogged i hpc
  case checkTouch i =>
    cases h
    refine .checkTouch i _ _ _ hpc ?_
    split_ifs
    · exact .inl rfl
    · exact .inr (.inl rfl)
    · exact .inr (.inr rfl)
  case leds i output channels =>
    cases channels with
    | nil =>
      cases h
      exact .goto _ _ hpc (.ledsWritten i output)
    | cons channel channels =>
      cases h
      exact .writeLed i output channel channels hpc
  case takeSession =>
    cases hsession : s.thread.session with
    | none =>
      rw [hsession] at h
      cases h
      exact .goto _ _ hpc (.noSession hsession)
    | some i =>
      rw [hsession] at h
      cases h
      exact .takeSession i hpc hsession
  case closePort i =>
    cases h
    exact .closePort i hpc
  case takeHandle =>
    cases hhandle : s.thread.readerHandle with
    | none =>
      rw [hhandle] at h
      cases h
      exact .goto _ _ hpc (.noHandle hhandle)
    | some i =>
      rw [hhandle] at h
      cases h
      exact .takeHandle i hpc hhandle
  case join i =>
    split at h
    · next rx hfinished =>
      cases h
      exact .goto _ _ hpc (.joined i rx hfinished)
    · cases h
  case loadVendor =>
    cases h
    exact .ite hpc .vendor fun _ => .noVendor
  case loadTouchHid =>
    cases h
    exact .ite hpc .touchHid fun _ => .noTouchHid
  case loadHid =>
    cases h
    exact .goto _ _ hpc .hid
  case update hidConnected =>
    cases h
    exact .update hidConnected hpc

/-- What a step of a reader does to the other threads, and to the ports. -/
structure ReaderStep (s : SerialRace) (i : ℕ) (t : SerialRace) : Prop where
  runs : ∃ r, s.readers[i]? = some r ∧ r.pc ≠ .finished
  readers : ∃ r, t.readers = s.readers.set i r
  pc : t.thread.pc = s.thread.pc
  session : t.thread.session = s.thread.session
  readerHandle : t.thread.readerHandle = s.thread.readerHandle
  ports : t.sessions.map (·.port) = s.sessions.map (·.port)
  flags : ∀ j, t.device.flag j = s.device.flag j
  hid : t.hid = s.hid

/-- A store to a session that leaves its port. -/
lemma ports_setSession {i : ℕ} {session : SerialSession}
    (hport : session.port = (s.session i).port) :
    (s.setSession i session).sessions.map (·.port) = s.sessions.map (·.port) := by
  rw [setSession, List.map_set, hport]
  by_cases hi : i < s.sessions.length
  · rw [SerialRace.session, List.getD_eq_getElem _ _ hi, ← List.map_set, List.set_getElem_self]
  · rw [List.set_eq_of_length_le (by simpa using hi)]

/-- A reader that goes on, with a store to its session. -/
lemma ReaderStep.store {i : ℕ} {r : SerialReader} (hr : s.readers[i]? = some r)
    (hrun : r.pc ≠ .finished) {session : SerialSession} (hport : session.port = (s.session i).port)
    (r' : SerialReader) : s.ReaderStep i ((s.setSession i session).setReader i r') :=
  ⟨⟨r, hr, hrun⟩, ⟨r', rfl⟩, rfl, rfl, rfl, ports_setSession hport, fun _ => rfl, rfl⟩

/-- A reader that goes on. -/
lemma ReaderStep.goOn {i : ℕ} {r : SerialReader} (hr : s.readers[i]? = some r)
    (hrun : r.pc ≠ .finished) (r' : SerialReader) : s.ReaderStep i (s.setReader i r') :=
  ⟨⟨r, hr, hrun⟩, ⟨r', rfl⟩, rfl, rfl, rfl, rfl, fun _ => rfl, rfl⟩

/-- A store to the flags of the session of the device thread. -/
lemma storeFlags_eq {i : ℕ} (h : s.thread.session = some i)
    (store : LoopVars → LoopVars) :
    s.storeFlags i store = { s with thread := { s.thread with vars := store s.thread.vars } } :=
  if_pos h

/-- A reader that goes on, with a store to the flags of its session. -/
lemma ReaderStep.storeFlags {i : ℕ} {r : SerialReader} (hr : s.readers[i]? = some r)
    (hrun : r.pc ≠ .finished) (store : LoopVars → LoopVars) (r' : SerialReader) :
    s.ReaderStep i ((s.storeFlags i store).setReader i r') := by
  unfold SerialRace.storeFlags
  split
  · exact ⟨⟨r, hr, hrun⟩, ⟨r', rfl⟩, rfl, rfl, rfl, rfl, fun _ => rfl, rfl⟩
  · exact .goOn hr hrun r'

/-- **A step of a reader**: it has not ended, and it leaves the other threads.

**Proof sketch.** The cases are the places of the reader, and in each the branches of the source. -/
lemma readerStep_spec {i : ℕ} {read : PortRead 256} {now : UInt64}
    (h : s.readerStep i read now = some t) : s.ReaderStep i t := by
  unfold readerStep at h
  cases hr : s.readers[i]? with
  | none =>
    rw [hr] at h
    cases h
  | some r =>
    rw [hr] at h
    dsimp only at h
    have hrun : r.pc ≠ .finished := by
      intro hfinished
      rw [hfinished] at h
      cases h
    split at h
    -- the checks of the loop and of the read
    · cases h
      exact .goOn hr hrun _
    · cases h
      exact .goOn hr hrun _
    -- the read of the port, and the end behind a failed one
    · split at h
      · cases h
        exact .store hr hrun (by rfl) _
      · cases h
        exact .goOn hr hrun _
    · cases h
      exact .store hr hrun (by rfl) _
    -- the loops over the bytes and the frames
    · cases h
      exact .goOn hr hrun _
    · split at h
      · cases h
        exact .goOn hr hrun _
      · cases h
        exact .goOn hr hrun _
    · cases h
      exact .goOn hr hrun _
    -- the stores for a board-info frame
    · cases h
      exact .storeFlags hr hrun _ _
    · cases h
      exact .storeFlags hr hrun _ _
    · cases h
      exact ⟨⟨r, hr, hrun⟩, ⟨_, rfl⟩, rfl, rfl, rfl, rfl,
        s.device.applyDeviceFrame_flag _ _ _ _ _, rfl⟩
    · cases h

/-- **A step of a reader keeps the invariant.**

**Proof sketch.** The reader was the one that may run, and still is. -/
lemma Inv.readerStep (hinv : s.Inv) {i : ℕ} (h : s.ReaderStep i t) : t.Inv := by
  have hmay : t.mayRun = s.mayRun := by rw [mayRun, mayRun, h.pc, h.readerHandle]
  constructor
  · rw [h.session, h.pc, h.readerHandle]
    exact hinv.session
  · rw [h.pc, h.readerHandle]
    exact hinv.joining
  · rw [h.pc, h.readerHandle]
    exact hinv.joined
  · intro j r hr hrun
    obtain ⟨r₀, hr₀, hrun₀⟩ := h.runs
    obtain ⟨r₁, hreaders⟩ := h.readers
    rw [hmay]
    rcases eq_or_ne i j with rfl | hne
    · exact hinv.alive i r₀ hr₀ hrun₀
    · rw [hreaders, List.getElem?_set_ne hne] at hr
      exact hinv.alive j r hr hrun
  · intro j
    rw [h.flags, h.hid]
    exact hinv.hid j

/-- What a device step does to the other threads: it starts no reader and leaves the flags. -/
structure DeviceStep (s t : SerialRace) : Prop where
  readers : t.readers = s.readers
  sessions : t.sessions.length = s.sessions.length
  flags : ∀ j, t.device.flag j = s.device.flag j
  hid : t.hid = s.hid

/-- A step of the device thread that opens no session keeps the invariant if it keeps the reader
that may run, or that one has ended. -/
lemma Inv.keep (hinv : s.Inv) (h : s.DeviceStep t)
    (hsession : t.thread.session =
      if t.thread.pc.sessionTaken then none else t.thread.readerHandle)
    (hjoining : ∀ i, t.thread.pc = .join i → t.thread.readerHandle = none)
    (hjoined : t.thread.pc.joined = true → t.thread.readerHandle = none)
    (hmay : ∀ (i : ℕ) (r : SerialReader), s.readers[i]? = some r → r.pc ≠ .finished →
      t.mayRun = s.mayRun) : t.Inv := by
  refine ⟨hsession, hjoining, hjoined, fun i r hr hrun => ?_, fun j => ?_⟩
  · rw [h.readers] at hr
    rw [hmay i r hr hrun]
    exact hinv.alive i r hr hrun
  · rw [h.flags, h.hid]
    exact hinv.hid j

/-- Apart from the join, the reader that may run is the one of the handle. -/
lemma mayRun_of_not_join (h : ∀ i, s.thread.pc ≠ .join i) : s.mayRun = s.thread.readerHandle := by
  unfold mayRun
  split
  · next i hjoin => exact absurd hjoin (h i)
  · rfl

/-- In its loop the device thread does not join. -/
lemma loop_spec {pc : DevicePc} (h : pc.sessionTaken = false) :
    (∀ i, pc ≠ .join i) ∧ pc.joined ≠ true := by
  constructor
  · rintro i rfl
    cases h
  · intro hjoined
    cases pc <;> simp_all [DevicePc.sessionTaken, DevicePc.joined]

/-- A step of the device thread in its loop, or into `disconnect_session`, keeps the invariant if it
opens no session. -/
lemma Inv.stay (hinv : s.Inv) (h : s.DeviceStep t) (hpc : s.thread.pc.sessionTaken = false)
    (hpc' : t.thread.pc.sessionTaken = false) (hsession : t.thread.session = s.thread.session)
    (hhandle : t.thread.readerHandle = s.thread.readerHandle) : t.Inv := by
  obtain ⟨hjoin, hjoined⟩ := loop_spec hpc'
  refine hinv.keep h ?_ (fun i hi => absurd hi (hjoin i)) (fun hi => absurd hi hjoined) ?_
  · have hsame := hinv.session
    rw [hpc] at hsame
    rw [hsession, hhandle, hpc', hsame]
  · intro _ _ _ _
    rw [mayRun_of_not_join hjoin, mayRun_of_not_join (loop_spec hpc).1, hhandle]

/-- Behind the join there is neither a session nor a reader. -/
lemma Inv.reset (hinv : s.Inv) (h : s.DeviceStep t) (hpc : s.thread.pc.joined = true)
    (hsession : t.thread.session = s.thread.session)
    (hhandle : t.thread.readerHandle = s.thread.readerHandle)
    (hpc' : t.thread.pc.joined = true ∨ t.thread.pc = .top) : t.Inv := by
  have hnone : t.thread.readerHandle = none := by rw [hhandle, hinv.joined hpc]
  have hjoin : ∀ {pc : DevicePc}, pc.joined = true ∨ pc = .top → ∀ i, pc ≠ .join i := by
    rintro pc hor i rfl
    rcases hor with hjoined | htop
    · cases hjoined
    · cases htop
  have htaken : s.thread.session = none := by
    rw [hinv.session, hinv.joined hpc, ite_self]
  refine hinv.keep h ?_ (fun _ _ => hnone) (fun _ => hnone) ?_
  · rw [hsession, htaken, hnone, ite_self]
  · intro _ _ _ _
    rw [mayRun_of_not_join (hjoin hpc'), mayRun_of_not_join (hjoin (.inl hpc)), hhandle]

/-- The device thread goes on. -/
lemma DeviceStep.goto (s : SerialRace) (pc : DevicePc) : s.DeviceStep (s.goto pc) :=
  ⟨rfl, rfl, fun _ => rfl, rfl⟩

/-- The device thread goes on in its loop, or into `disconnect_session`. -/
lemma Inv.goto (hinv : s.Inv) (hpc : s.thread.pc.sessionTaken = false) {pc : DevicePc}
    (hpc' : pc.sessionTaken = false) : (s.goto pc).Inv :=
  hinv.stay (.goto s pc) hpc hpc' rfl rfl

/-- A section that writes to the session. -/
lemma Inv.runSection (hinv : s.Inv) (hpc : s.thread.pc.sessionTaken = false) (i : ℕ)
    (commands : Link SerialSession → Except (Link SerialSession) (Link SerialSession))
    {next : DevicePc} (hnext : next.sessionTaken = false) : (s.runSection i commands next).Inv := by
  unfold SerialRace.runSection
  split
  · exact hinv.stay ⟨rfl, List.length_set, fun _ => rfl, rfl⟩ hpc hnext rfl rfl
  · exact hinv.stay ⟨rfl, List.length_set, fun _ => rfl, rfl⟩ hpc rfl rfl rfl

/-- A store to the flags of a session. -/
lemma Inv.storeFlags (hinv : s.Inv) (hpc : s.thread.pc.sessionTaken = false) (i : ℕ)
    (store : LoopVars → LoopVars) {next : DevicePc} (hnext : next.sessionTaken = false) :
    ((s.storeFlags i store).goto next).Inv := by
  unfold SerialRace.storeFlags
  split
  · exact hinv.stay ⟨rfl, rfl, fun _ => rfl, rfl⟩ hpc hnext rfl rfl
  · exact hinv.goto hpc hnext

/-- The device thread opens a session and starts its reader, when no other reader runs.

**Proof sketch.** Without a session there is no handle, so that every earlier reader has ended. -/
lemma Inv.openSession (hinv : s.Inv) (hpc : s.thread.pc = .connect)
    (hnone : s.thread.session = none) (session : SerialSession) (vars : LoopVars) : Inv { s with
      sessions := s.sessions ++ [session]
      readers := s.readers ++ [.start]
      thread := { s.thread with
        pc := .opened s.readers.length
        readerHandle := some s.readers.length
        session := some s.readers.length
        vars := vars } } := by
  have hmay : s.mayRun = none := by
    have hhandle := hinv.session
    rw [hpc, hnone] at hhandle
    rw [mayRun, hpc]
    exact hhandle.symm
  refine ⟨rfl, nofun, nofun, fun i r hr hrun => ?_, hinv.hid⟩
  show some s.readers.length = some i
  rcases lt_trichotomy i s.readers.length with hlt | heq | hgt
  · -- a reader of an earlier session would run
    rw [List.getElem?_append_left hlt] at hr
    rw [hinv.alive i r hr hrun] at hmay
    cases hmay
  · rw [heq]
  · rw [List.getElem?_eq_none (by simp; omega)] at hr
    cases hr

/-- The device thread goes on without a store.

**Proof sketch.** In its loop the thread keeps what it has. In `disconnect_session` it goes on when
it has taken the session, the handle, and the end of the reader. -/
lemma Inv.goes (hinv : s.Inv) {tick : SerialTick} {pc pc' : DevicePc} (hpc : s.thread.pc = pc)
    (h : s.Goes tick pc pc') : (s.goto pc').Inv := by
  have hmay := mayRun_of_not_join (s := s)
  have hsession := hinv.session
  rw [hpc] at hmay hsession
  cases h with
  | enabled | disabled | present | absent | connected | notOpened | active | inactive | reading
  | readFailed | pending | answered | logged | notLogged | ledsWritten =>
    exact hinv.goto (by rw [hpc]; rfl) rfl
  | noSession hnone =>
    exact hinv.keep (.goto s _) hnone nofun nofun fun _ _ _ _ => (hmay nofun).symm
  | noHandle hnone =>
    exact hinv.keep (.goto s _) hsession nofun (fun _ => hnone) fun _ _ _ _ => (hmay nofun).symm
  | joined i rx hfinished =>
    refine hinv.keep (.goto s _) hsession nofun (fun _ => hinv.joining i hpc) ?_
    intro j r hr hrun
    -- the only reader that could run has ended
    have hj := hinv.alive j r hr hrun
    rw [mayRun, hpc, Option.some_inj] at hj
    rw [← hj, hfinished, Option.some_inj] at hr
    exact absurd (congrArg SerialReader.pc hr).symm hrun
  | vendor | noVendor | touchHid | noTouchHid | hid =>
    exact hinv.reset (.goto s _) (by rw [hpc]; rfl) rfl rfl (.inl rfl)

/-- **A step of the device thread keeps the invariant.**

**Proof sketch.** In its loop the thread keeps the session and the handle, or opens a session when
it has neither, so that no reader runs. Every way out of a session leads to `disconnect_session`,
which takes both and goes on only when the reader has ended. -/
theorem Inv.deviceStep (hinv : s.Inv) {tick : SerialTick} (h : s.deviceStep tick = some t) :
    t.Inv := by
  have hmay := mayRun_of_not_join (s := s)
  have hsession := hinv.session
  cases deviceStep_turn h with
  | goto pc pc' hpc hgoes => exact hinv.goes hpc hgoes
  | openSession hpc hnone => exact hinv.openSession hpc hnone _ _
  | opened i hpc =>
    exact hinv.stay ⟨rfl, rfl, s.device.markConnected_flag, rfl⟩ (by rw [hpc]; rfl) rfl rfl rfl
  | heartbeat i hpc => exact hinv.runSection (by rw [hpc]; rfl) i _ rfl
  | query i hpc => exact hinv.runSection (by rw [hpc]; rfl) i _ (by split <;> rfl)
  | clearPending i hpc => exact hinv.storeFlags (by rw [hpc]; rfl) i _ rfl
  | setLogged i hpc => exact hinv.storeFlags (by rw [hpc]; rfl) i _ rfl
  | checkTouch i pc lastTouchFrames suspended hpc hpc' =>
    refine hinv.stay ⟨rfl, rfl, fun _ => rfl, rfl⟩ (by rw [hpc]; rfl) ?_ rfl rfl
    rcases hpc' with rfl | rfl | rfl <;> rfl
  | writeLed i output channel channels hpc => exact hinv.runSection (by rw [hpc]; rfl) i _ rfl
  | takeSession i hpc hi =>
    rw [hpc] at hmay
    exact hinv.keep ⟨rfl, List.length_set, fun _ => rfl, rfl⟩ rfl nofun nofun
      fun _ _ _ _ => (hmay nofun).symm
  | closePort i hpc =>
    rw [hpc] at hmay hsession
    exact hinv.keep ⟨rfl, List.length_set, fun _ => rfl, rfl⟩ hsession nofun nofun
      fun _ _ _ _ => (hmay nofun).symm
  | takeHandle i hpc hi =>
    rw [hpc] at hmay hsession
    rw [hi] at hmay
    exact hinv.keep ⟨rfl, rfl, fun _ => rfl, rfl⟩ hsession (fun _ _ => rfl) nofun
      fun _ _ _ _ => (hmay nofun).symm
  | update hidConnected hpc =>
    refine hinv.reset ⟨rfl, rfl, ?_, rfl⟩ (by rw [hpc]; rfl) rfl rfl (.inr rfl)
    intro j
    cases hidConnected
    · cases j <;> rfl
    · exact s.device.markConnected_flag j

/-- **A step keeps the invariant.** -/
theorem Inv.step (hinv : s.Inv) (h : s.Step t) : t.Inv := by
  cases h with
  | device tick _ h => exact hinv.deviceStep h
  | reader i read now _ h => exact hinv.readerStep (readerStep_spec h)
  | hid r h => exact ⟨hinv.session, hinv.joining, hinv.joined, hinv.alive, h.alive hinv.hid⟩
  | output page =>
    refine ⟨hinv.session, hinv.joining, hinv.joined, hinv.alive, fun i => ?_⟩
    cases i
    · exact hinv.hid .vendor
    · exact hinv.hid .touchHid
    · exact hinv.hid .hid

/-- Every interleaving keeps the invariant. -/
lemma Inv.reaches (hinv : s.Inv) (h : s.Reaches t) : t.Inv := by
  induction h with
  | refl => exact hinv
  | tail _ hstep ih => exact ih.step hstep

/-! ## Readers that have ended -/

/-- A reader thread has started and not ended. -/
def ReaderAlive (s : SerialRace) (i : ℕ) : Prop :=
  ∃ r, s.readers[i]? = some r ∧ r.pc ≠ .finished

/-- A reader thread has ended. -/
def ReaderEnded (s : SerialRace) (i : ℕ) : Prop :=
  ∃ r, s.readers[i]? = some r ∧ r.pc = .finished

/-- The device thread starts readers, and changes none. -/
lemma deviceStep_readers {tick : SerialTick} (h : s.deviceStep tick = some t) :
    t.readers = s.readers ∨ t.readers = s.readers ++ [.start] := by
  have hsection : ∀ i commands next, (s.runSection i commands next).readers = s.readers := by
    intro i commands next
    unfold runSection
    split <;> rfl
  have hflags : ∀ i store, (s.storeFlags i store).readers = s.readers := by
    intro i store
    unfold storeFlags
    split <;> rfl
  cases deviceStep_turn h with
  | openSession => exact .inr rfl
  | heartbeat | query | writeLed => exact .inl (hsection _ _ _)
  | clearPending | setLogged => exact .inl (hflags _ _)
  | goto | opened | checkTouch | takeSession | closePort | takeHandle | update => exact .inl rfl

/-- A reader that has ended takes no step. -/
lemma ReaderEnded.readerStep {i : ℕ} (h : s.ReaderEnded i) (read : PortRead 256) (now : UInt64) :
    s.readerStep i read now = none := by
  obtain ⟨r, hr, hpc⟩ := h
  unfold SerialRace.readerStep
  rw [hr]
  dsimp only
  rw [hpc]

/-- A reader that has ended stays so. -/
lemma ReaderEnded.step {i : ℕ} (h : s.ReaderEnded i) (hstep : s.Step t) : t.ReaderEnded i := by
  obtain ⟨r, hr, hpc⟩ := h
  refine ⟨r, ?_, hpc⟩
  cases hstep with
  | device tick _ h =>
    rcases deviceStep_readers h with hsame | hnew
    · rw [hsame, hr]
    · rw [hnew, List.getElem?_append_left (List.getElem?_eq_some_iff.mp hr).1, hr]
  | reader j read now _ h =>
    obtain ⟨⟨r₀, hr₀, hrun⟩, ⟨r₁, hreaders⟩, -⟩ := readerStep_spec h
    have hne : j ≠ i := by
      rintro rfl
      rw [hr₀, Option.some_inj] at hr
      rw [hr] at hrun
      exact hrun hpc
    rw [hreaders, List.getElem?_set_ne hne, hr]
  | hid r h => exact hr
  | output page => exact hr

/-- Behind the join every reader that was started has ended. -/
lemma Inv.ended (hinv : s.Inv) (hpc : s.thread.pc.joined = true) {i : ℕ}
    (hi : i < s.readers.length) : s.ReaderEnded i := by
  have hmay : s.mayRun = none := by
    rw [mayRun_of_not_join, hinv.joined hpc]
    intro j hjoin
    rw [hjoin] at hpc
    cases hpc
  refine ⟨s.readers[i], List.getElem?_eq_getElem hi, ?_⟩
  by_contra hrun
  have := hinv.alive i _ (List.getElem?_eq_getElem hi) hrun
  rw [hmay] at this
  cases this

end SerialRace

/-! ## While no HID is connected -/

/-- The page update of `clear_inputs_on_source_drop` leaves a page that holds no input. -/
lemma DeviceHandle.clearUpdate_default {d : DeviceHandle} (h : d.inputPage = .default)
    (b t : Bool) :
    (d.clearUpdate b t).inputPage = .default := by
  simp [clearUpdate, h, Mai2InputPage.default]

/-- Without a connected HID the HID threads leave a page that holds no input.

**Proof sketch.** A thread that writes has its device open, so that its flag is set. -/
lemma HidRace.Step.default {s t : HidRace} (h : s.Step t)
    (halive : ∀ i, s.device.flag i = true ↔ (s.pc i).IsOpen) (hflags : ∀ i, s.device.flag i = false)
    (hpage : s.device.inputPage = .default) : t.device.inputPage = .default := by
  have hclosed : ∀ i, ¬ (s.pc i).IsOpen := by
    intro i hopen
    rw [← halive i, hflags i] at hopen
    cases hopen
  cases h with
  | retry i hpc =>
    rw [HidRace.move, s.device.storeFlag_inputPage]
    exact hpage
  | connect i hpc =>
    rw [HidRace.move, s.device.storeFlag_inputPage]
    exact hpage
  | drop i hpc => exact absurd (by rw [hpc]; trivial) (hclosed i)
  | clear i c hpc =>
    cases c with
    | update b t => exact DeviceHandle.clearUpdate_default hpage b t
    | _ => exact hpage
  | markConnected i hpc => exact absurd (by rw [hpc]; trivial) (hclosed i)
  | vendorLoad buttons0 ioStatus touch hpc => exact absurd (by rw [hpc]; trivial) (hclosed .vendor)
  | vendorApply useHidButtons buttons0 ioStatus touch now hpc =>
    exact absurd (by rw [hpc]; trivial) (hclosed .vendor)
  | touchFrame touch now hpc => exact absurd (by rw [hpc]; trivial) (hclosed .touchHid)
  | buttonReport report now hpc => exact absurd (by rw [hpc]; trivial) (hclosed .hid)

namespace SerialRace

variable {s t : SerialRace}

/-- No HID source is connected. -/
def NoHid (s : SerialRace) : Prop := ∀ i, s.device.flag i = false

/-- A step that opens no session, while no HID source is connected. -/
def QuietStep (s t : SerialRace) : Prop :=
  s.Step t ∧ s.NoHid ∧ t.NoHid ∧ t.readers.length = s.readers.length

/-- What the threads can come to while no HID source is connected and no session is opened. -/
def QuietReaches : SerialRace → SerialRace → Prop := Relation.ReflTransGen QuietStep

/-- The device thread has no session, and is between its loop and `disconnect_session`. -/
structure Idle (s : SerialRace) : Prop where
  inv : s.Inv
  session : s.thread.session = none
  readerHandle : s.thread.readerHandle = none
  pc : s.thread.pc = .top ∨ s.thread.pc = .probe ∨ s.thread.pc = .connect ∨
    s.thread.pc = .takeSession ∨ s.thread.pc = .takeHandle ∨ s.thread.pc = .loadVendor ∨
    s.thread.pc = .loadTouchHid ∨ s.thread.pc = .loadHid ∨ s.thread.pc = .update false

/-- The device thread has seen no HID source so far, and is going to reset the page. -/
def Resetting (s : SerialRace) : Prop :=
  s.thread.pc = .loadVendor ∨ s.thread.pc = .loadTouchHid ∨ s.thread.pc = .loadHid ∨
    s.thread.pc = .update false

/-- An idle thread that goes on, with the page left as it is. -/
lemma Idle.goto (hidle : s.Idle) {pc : DevicePc} (hinv : (s.goto pc).Inv)
    (hpc : pc = .top ∨ pc = .probe ∨ pc = .connect ∨ pc = .takeSession ∨ pc = .takeHandle ∨
      pc = .loadVendor ∨ pc = .loadTouchHid ∨ pc = .loadHid ∨ pc = .update false)
    (hreset : s.Resetting → (s.goto pc).Resetting) :
    (s.goto pc).Idle ∧
      (s.device.inputPage = .default → (s.goto pc).device.inputPage = .default) ∧
      (s.Resetting → (s.goto pc).Resetting ∨ (s.goto pc).device.inputPage = .default) :=
  ⟨⟨hinv, hidle.session, hidle.readerHandle, hpc⟩, id, fun hr => .inl (hreset hr)⟩

/-- **A quiet step of an idle thread**: it stays idle, and it is resetting the page as long as it
has not done so, and from then on the page holds no input.

**Proof sketch.** No reader runs, the HID threads write nothing, and the device thread finds no HID
source connected. -/
lemma Idle.step (hidle : s.Idle) (h : s.QuietStep t) :
    t.Idle ∧ (s.device.inputPage = .default → t.device.inputPage = .default) ∧
      (s.Resetting → t.Resetting ∨ t.device.inputPage = .default) := by
  obtain ⟨hstep, hnone, -, hlength⟩ := h
  have hinv := hidle.inv.step hstep
  have hmay : s.mayRun = none := by
    rw [mayRun_of_not_join, hidle.readerHandle]
    intro i hjoin
    have := hidle.pc
    rw [hjoin] at this
    simp at this
  cases hstep with
  | reader i read now _ h =>
    obtain ⟨r, hr, hrun⟩ := (readerStep_spec h).runs
    rw [hidle.inv.alive i r hr hrun] at hmay
    cases hmay
  | hid r h =>
    exact ⟨⟨hinv, hidle.session, hidle.readerHandle, hidle.pc⟩,
      h.default hidle.inv.hid hnone, .inl⟩
  | output page => exact ⟨⟨hinv, hidle.session, hidle.readerHandle, hidle.pc⟩, id, .inl⟩
  | device tick _ h =>
    have hplace := hidle.pc
    cases deviceStep_turn h with
    | goto pc pc' hpc hgoes =>
      rw [hpc] at hplace
      cases hgoes with
      | enabled | disabled | present | absent | notOpened | noSession | noHandle =>
        exact hidle.goto hinv (by simp) (by simp [Resetting, hpc])
      | noVendor | noTouchHid =>
        exact hidle.goto hinv (by simp) fun _ => by simp [SerialRace.goto, Resetting]
      | hid =>
        have hflag : s.device.hidConnected = false := hnone .hid
        exact hidle.goto hinv (by simp [hflag]) fun _ => by
          simp [SerialRace.goto, Resetting, hflag]
      | vendor hflag => exact absurd (hflag.symm.trans (hnone .vendor)) nofun
      | touchHid hflag => exact absurd (hflag.symm.trans (hnone .touchHid)) nofun
      | connected i hi => exact absurd (hi.symm.trans hidle.session) nofun
      | active | inactive | reading | readFailed | pending | answered | logged
      | notLogged | ledsWritten | joined => simp at hplace
    | openSession => simp at hlength
    | update hidConnected hpc =>
      rw [hpc] at hplace
      obtain rfl : hidConnected = false := by simpa using hplace
      exact ⟨⟨hinv, hidle.session, hidle.readerHandle, .inl rfl⟩, fun _ => rfl, fun _ => .inr rfl⟩
    | takeSession i hpc hi => exact absurd (hi.symm.trans hidle.session) nofun
    | takeHandle i hpc hi => exact absurd (hi.symm.trans hidle.readerHandle) nofun
    | opened i hpc | heartbeat i hpc | query i hpc | clearPending i hpc | setLogged i hpc
    | closePort i hpc | writeLed i output channel channels hpc
    | checkTouch i pc lastTouchFrames suspended hpc =>
      rw [hpc] at hplace
      simp at hplace

/-- Quiet steps of an idle thread. -/
lemma Idle.reaches (hidle : s.Idle) (h : s.QuietReaches t) :
    t.Idle ∧ (s.device.inputPage = .default → t.device.inputPage = .default) ∧
      (s.Resetting → t.Resetting ∨ t.device.inputPage = .default) := by
  induction h with
  | refl => exact ⟨hidle, id, .inl⟩
  | tail _ hstep ih =>
    obtain ⟨hidle', hkeep, hreset⟩ := ih
    obtain ⟨hidle'', hkeep', hreset'⟩ := hidle'.step hstep
    refine ⟨hidle'', fun hpage => hkeep' (hkeep hpage), fun hr => ?_⟩
    rcases hreset hr with hresetting | hpage
    · exact hreset' hresetting
    · exact .inr (hkeep' hpage)

/-- Behind the join the device thread is idle. -/
lemma Inv.idle (hinv : s.Inv) (hpc : s.thread.pc = .loadVendor) : s.Idle := by
  have hhandle : s.thread.readerHandle = none := hinv.joined (by rw [hpc]; rfl)
  have hsession : s.thread.session = none := by rw [hinv.session, hhandle, ite_self]
  exact ⟨hinv, hsession, hhandle, by simp [hpc]⟩

end SerialRace

/-- **A closed serial session writes nothing more**: in every interleaving of the device thread, its
readers, the HID threads and the game, at the top of the loop the device thread has a session
exactly if it has the handle of a reader, at most one reader runs, and behind the return of
`disconnect_session` no reader of an earlier session takes a step. From this return on, the input
page is the default one until a session is opened, if no HID source is connected since
`disconnect_session` looks for one.

**Proof sketch.** The device thread holds the handle of the only reader that may run, together with
its session (`SerialRace.Inv.step`), and it resets the page only behind the join. Then no reader
runs, and without a HID source the other threads leave the page (`SerialRace.Idle.step`). -/
theorem closed_session_writes_nothing (enabled : Bool) (inputPage : Mai2InputPage)
    (outputPage : Mai2OutputPage) (now : UInt64) (s : SerialRace)
    (h : (SerialRace.start enabled inputPage outputPage now).Reaches s) :
    (s.thread.pc = .top → (s.thread.session.isSome ↔ s.thread.readerHandle.isSome)) ∧
      (∀ i j, s.ReaderAlive i → s.ReaderAlive j → i = j) ∧
      (∀ hidConnected tick t, s.thread.pc = .update hidConnected → s.deviceStep tick = some t →
        ∀ u, t.Reaches u → ∀ i < s.readers.length, ∀ read now, u.readerStep i read now = none) ∧
      (s.thread.pc = .loadVendor → ∀ t, s.QuietReaches t → t.thread.pc = .top →
        ∀ u, t.QuietReaches u → u.device.inputPage = .default) := by
  have hinv := (SerialRace.inv_start enabled inputPage outputPage now).reaches h
  refine ⟨fun hpc => ?_, ?_, ?_, ?_⟩
  · rw [hinv.session, hpc]
    exact Iff.rfl
  · rintro i j ⟨r, hr, hrun⟩ ⟨r', hr', hrun'⟩
    have hi := hinv.alive i r hr hrun
    rw [hinv.alive j r' hr' hrun', Option.some_inj] at hi
    exact hi.symm
  · intro hidConnected tick t hpc hreturn u hu i hi read now
    have hended : t.ReaderEnded i :=
      (hinv.ended (by rw [hpc]; rfl) hi).step (.device tick t hreturn)
    refine SerialRace.ReaderEnded.readerStep ?_ read now
    induction hu with
    | refl => exact hended
    | tail _ hstep ih => exact ih.step hstep
  · intro hpc t ht htop u hu
    obtain ⟨hidle, -, hreset⟩ := (hinv.idle hpc).reaches ht
    rcases hreset (.inl hpc) with hresetting | hpage
    · simp [SerialRace.Resetting, htop] at hresetting
    · exact (hidle.reaches hu).2.1 hpage

/-- A device that is there, and whose port opens. -/
def presentTick : SerialTick where
  vendorPresent := false
  found := true
  opens := true
  heartbeatMs := 0
  boardInfoMs := 0
  connectedMs := 0
  readerFails := false
  boardInfo := false
  now := 0
  takes _ := .whole
  touchFrames := 0
  touchLastUpdateMs := 0

/-- A turn of the device thread or of a reader. -/
inductive SerialTurn
  | device
  | reader (i : ℕ)

/-- Turns of the device thread with a device that is there, and of readers whose reads fail. -/
def SerialRace.turns : List SerialTurn → SerialRace → Option SerialRace
  | [], s => some s
  | .device :: turns, s => s.deviceStep presentTick >>= SerialRace.turns turns
  | .reader i :: turns, s => s.readerStep i none 0 >>= SerialRace.turns turns

/-- Turns are an interleaving of the threads. -/
lemma SerialRace.reaches_of_turns {turns : List SerialTurn} {s t : SerialRace}
    (h : SerialRace.turns turns s = some t) : s.Reaches t := by
  induction turns generalizing s with
  | nil =>
    cases h
    exact .refl
  | cons turn turns ih =>
    cases turn with
    | device =>
      obtain ⟨u, hu, h⟩ := Option.bind_eq_some_iff.mp h
      exact .head (.device presentTick u hu) (ih h)
    | reader i =>
      obtain ⟨u, hu, h⟩ := Option.bind_eq_some_iff.mp h
      exact .head (.reader i none 0 u hu) (ih h)

/-- A session is opened and marks the page, the first read of its port fails, and the device thread
joins the reader. -/
def failedRead : List SerialTurn :=
  List.replicate 4 .device ++ List.replicate 4 (.reader 0) ++ List.replicate 5 .device

/-- The reader of a session fails. The device thread disconnects, and behind the reset the page
holds no input. -/
theorem closed_session_writes_nothing_failed :
    ∃ s t, SerialRace.turns failedRead (.start true .default .default 0) = some s ∧
      s.device.inputPage.connected = 1 ∧ s.QuietReaches t ∧ t.thread.pc = .top ∧
      t.device.inputPage = .default := by
  obtain ⟨s, hs⟩ : ∃ s, SerialRace.turns failedRead (.start true .default .default 0) = some s :=
    ⟨_, rfl⟩
  obtain ⟨-, -, -, hpage⟩ := closed_session_writes_nothing true .default .default 0 s
    (SerialRace.reaches_of_turns hs)
  have hstart : Relation.ReflTransGen SerialRace.QuietStep s s := .refl
  cases hs
  have hquiet := hstart.tail ⟨.device presentTick _ rfl, by rintro (_ | _ | _) <;> rfl,
      by rintro (_ | _ | _) <;> rfl, rfl⟩
    |>.tail ⟨.device presentTick _ rfl, by rintro (_ | _ | _) <;> rfl,
      by rintro (_ | _ | _) <;> rfl, rfl⟩
    |>.tail ⟨.device presentTick _ rfl, by rintro (_ | _ | _) <;> rfl,
      by rintro (_ | _ | _) <;> rfl, rfl⟩
    |>.tail ⟨.device presentTick _ rfl, by rintro (_ | _ | _) <;> rfl,
      by rintro (_ | _ | _) <;> rfl, rfl⟩
  exact ⟨_, _, rfl, rfl, hquiet, rfl, hpage rfl _ hquiet rfl _ .refl⟩

end Affine
