import Affine.Mai2.ClosedSession
import Affine.Mai2.LedSuspension

set_option relaxedAutoImplicit false
set_option autoImplicit false

/-!
# Passes as interleavings

There are two models of the loop of `device_thread` (`affine-mai2/src/lib.rs`): in
`Affine.SerialThread.pass` a pass of it is one step, and in `Affine.SerialRace` each access to what
the threads share is. A pass in which the reader receives no board information is one of the
interleavings: the device thread goes through its loop while the reader rests, or its read fails
behind the opening of the session.

## Main definitions

* `Affine.SerialThread.passes` — passes one behind the other.
* `Affine.SerialRace.serialThread` — the variables of the loop.
* `Affine.SerialRace.Passes` — an interleaving ends at the top of the loop with a given result.

## Main results

* `Affine.SerialRace.pass_passes`, `Affine.SerialRace.start_passes` — a pass, and every run of
  passes, is an interleaving.
-/

namespace Affine

/-- The end of a pass, by how its LED section ends. -/
def SerialThread.endLeds (t : SerialThread) (device : DeviceHandle) :
    Except (Link SerialSession) (Link SerialSession) → DeviceHandle × SerialThread
  | .ok link => (device, { t with session := some link.conn, vars := link.vars })
  | .error link => { t with vars := link.vars }.disconnect device

/-- Passes one behind the other. -/
def SerialThread.passes (t : SerialThread) (device : DeviceHandle) :
    List SerialTick → DeviceHandle × SerialThread
  | [] => (device, t)
  | tick :: ticks =>
    let (_, device, t) := t.pass device tick
    t.passes device ticks

/-- A session that `disconnect_session` has ended. -/
def SerialSession.close (session : SerialSession) : SerialSession :=
  { session with active := false, port := session.port.close }

namespace SerialRace

/-- The variables of the loop, with the session of the device thread. -/
def serialThread (s : SerialRace) : SerialThread where
  session := s.thread.session.map s.session
  vars := s.thread.vars
  connectedSinceMs := s.thread.connectedSinceMs
  lastTouchFrames := s.thread.lastTouchFrames
  ledOutputSuspended := s.thread.ledOutputSuspended

/-- The reader of the device thread is in front of the check of its loop. -/
structure Resting (s : SerialRace) : Prop where
  inv : s.Inv
  length : s.sessions.length = s.readers.length
  reader : ∀ i, s.thread.readerHandle = some i → ∃ rx, s.readers[i]? = some ⟨.loop, rx⟩

/-- An interleaving leads to the top of the loop, with this device and these variables. -/
def Passes (s : SerialRace) (result : DeviceHandle × SerialThread) : Prop :=
  ∃ t, s.Reaches t ∧ t.Resting ∧ t.thread.pc = .top ∧ t.device = result.1 ∧
    t.serialThread = result.2

/-- The device thread has ended its session, and has taken the handle of its reader. -/
def closed (s : SerialRace) (i : ℕ) : SerialRace :=
  { s.setSession i (s.session i).close with
    thread := { s.thread with session := none, readerHandle := none } }

/-- The reader of a session has failed. -/
def failed (s : SerialRace) (i : ℕ) (rx : RxBuf) : SerialRace :=
  (s.setSession i (s.session i).failReader).setReader i ⟨.finished, rx⟩

/-- The device thread has checked touch input. -/
def checked (s : SerialRace) (t : SerialThread) (pc : DevicePc) : SerialRace :=
  { s with
    thread := { s.thread with
      pc := pc
      lastTouchFrames := t.lastTouchFrames
      ledOutputSuspended := t.ledOutputSuspended } }

/-- The device thread has opened a session, and has started its reader. -/
def opened (s : SerialRace) : SerialRace :=
  { s with
    sessions := s.sessions ++ [.new .opened]
    readers := s.readers ++ [.start]
    thread := { s.thread with
      pc := .opened s.readers.length
      readerHandle := some s.readers.length
      session := some s.readers.length
      vars := s.thread.vars.newFlags } }

/-- A new session is on the page, and the variables of the loop have their values at its start. -/
def connected (s : SerialRace) (tick : SerialTick) : SerialRace :=
  { s.opened with
    device := s.device.markConnected
    thread := { s.opened.thread with
      pc := .checkActive s.readers.length
      vars := .start tick.heartbeatMs tick.boardInfoMs
      connectedSinceMs := tick.connectedMs } }

variable {s t : SerialRace} {result : DeviceHandle × SerialThread} {tick : SerialTick} {i : ℕ}

/-- An interleaving in front of one that makes a pass. -/
lemma Passes.of_reaches (hreach : s.Reaches t) (h : t.Passes result) : s.Passes result := by
  obtain ⟨u, hu, hrest⟩ := h
  exact ⟨u, hreach.trans hu, hrest⟩

/-- The device thread takes a step first. -/
lemma Passes.of_deviceStep (hstep : s.deviceStep tick = some t) (h : t.Passes result) :
    s.Passes result :=
  h.of_reaches (.single (.device tick t hstep))

/-- The device thread goes on while the reader waits. -/
lemma Resting.goto (h : s.Resting) {pc : DevicePc} (hinv : (s.goto pc).Inv) :
    (s.goto pc).Resting :=
  ⟨hinv, h.length, h.reader⟩

/-- A session that was stored. -/
lemma session_setSession (hi : i < s.sessions.length) (session : SerialSession) :
    (s.setSession i session).session i = session := by
  simp [SerialRace.session, setSession, hi]

/-- A reader that was stored. -/
lemma readers_setReader (hi : i < s.readers.length) (reader : SerialReader) :
    (s.setReader i reader).readers[i]? = some reader :=
  List.getElem?_set_self hi

/-- Only the last store to a reader is seen. -/
lemma setReader_setReader (s : SerialRace) (reader reader' : SerialReader) :
    (s.setReader i reader).setReader i reader' = s.setReader i reader' := by
  simp only [setReader, List.set_set]

/-- The device thread has the session with its number. -/
lemma serialThread_session (h : s.thread.session = some i) :
    s.serialThread.session = some (s.session i) := by
  rw [serialThread, h, Option.map_some]

/-- In its loop, the device thread has the reader of its session, which rests. -/
lemma Resting.holds (h : s.Resting) (hpc : s.thread.pc.sessionTaken = false)
    (hsession : s.thread.session = some i) :
    s.thread.readerHandle = some i ∧ i < s.sessions.length ∧
      ∃ rx, s.readers[i]? = some ⟨.loop, rx⟩ := by
  have hhandle : s.thread.readerHandle = some i := by
    rw [← hsession, h.inv.session, hpc]
    rfl
  obtain ⟨rx, hr⟩ := h.reader i hhandle
  exact ⟨hhandle, h.length ▸ (List.getElem?_eq_some_iff.mp hr).1, rx, hr⟩

/-! ## `disconnect_session` -/

/-- The update of `disconnect_session`, behind the loads of the flags. -/
lemma update_reaches {hidConnected : Bool}
    (h : hidConnected = true ↔
      s.device.vendorConnected ∨ s.device.touchHidConnected ∨ s.device.hidConnected) :
    (s.goto (.update hidConnected)).Reaches { s with
      device := s.device.disconnectSession
      thread := { s.thread with pc := .top } } := by
  refine .single (.device presentTick _ ?_)
  unfold DeviceHandle.disconnectSession
  simp only [← h]
  rfl

/-- The part of `disconnect_session` behind the join.

**Proof sketch.** The loads of the flags, up to the first that is set, and the update. -/
lemma reset_reaches (s : SerialRace) :
    (s.goto .loadVendor).Reaches { s with
      device := s.device.disconnectSession
      thread := { s.thread with pc := .top } } := by
  have hvendor : (s.goto .loadVendor).Reaches
      (s.goto (if s.device.vendorConnected then .update true else .loadTouchHid)) :=
    .single (.device presentTick _ rfl)
  have htouch : (s.goto .loadTouchHid).Reaches
      (s.goto (if s.device.touchHidConnected then .update true else .loadHid)) :=
    .single (.device presentTick _ rfl)
  have hhid : (s.goto .loadHid).Reaches (s.goto (.update s.device.hidConnected)) :=
    .single (.device presentTick _ rfl)
  split at hvendor
  · next hconnected => exact hvendor.trans (update_reaches (by simp [hconnected]))
  · next hvendor' =>
    refine hvendor.trans ?_
    split at htouch
    · next hconnected => exact htouch.trans (update_reaches (by simp [hconnected]))
    · next htouch' =>
      exact (htouch.trans hhid).trans (update_reaches (by simp [hvendor', htouch']))

/-- The join, when the session is closed and the reader is in front of the check of its loop, or at
its end.

**Proof sketch.** The reader finds the session closed and ends, if it has not ended yet; then the
join returns. -/
lemma join_reaches {rx : RxBuf} {pc : ReaderPc} (hreader : s.readers[i]? = some ⟨pc, rx⟩)
    (hpc : pc = .loop ∨ pc = .finished) (hclosed : (s.session i).active = false) :
    (s.goto (.join i)).Reaches ((s.setReader i ⟨.finished, rx⟩).goto .loadVendor) := by
  obtain ⟨hlt, hget⟩ := List.getElem?_eq_some_iff.mp hreader
  have hjoin : ((s.setReader i ⟨.finished, rx⟩).goto (.join i)).Reaches
      ((s.setReader i ⟨.finished, rx⟩).goto .loadVendor) := by
    refine .single (.device presentTick _ ?_)
    have hset : ((s.setReader i ⟨.finished, rx⟩).goto (.join i)).readers[i]? =
        some ⟨.finished, rx⟩ := List.getElem?_set_self hlt
    simp only [deviceStep, SerialRace.goto] at hset ⊢
    rw [hset]
  rcases hpc with rfl | rfl
  · refine .trans (.single (.reader i none 0 _ ?_)) hjoin
    have hsame : (s.goto (.join i)).readers[i]? = some ⟨.loop, rx⟩ := hreader
    have hactive : ((s.goto (.join i)).session i).active = false := hclosed
    unfold readerStep
    rw [hsame]
    dsimp only
    rw [hactive]
    rfl
  · have hsame : s.setReader i ⟨.finished, rx⟩ = s := by
      rw [setReader, ← hget, List.set_getElem_self]
    rw [hsame] at hjoin ⊢
    exact hjoin

/-- The session and the handle are taken, and the reader is joined.

**Proof sketch.** The device thread takes the session, closes its port and takes the handle, and
then the reader ends. -/
lemma close_reaches (hpc : s.thread.pc = .takeSession) (hsession : s.thread.session = some i)
    (hhandle : s.thread.readerHandle = some i) (hi : i < s.sessions.length) {rx : RxBuf}
    {pc : ReaderPc} (hreader : s.readers[i]? = some ⟨pc, rx⟩)
    (hrest : pc = .loop ∨ pc = .finished) :
    s.Reaches (((s.closed i).setReader i ⟨.finished, rx⟩).goto .loadVendor) := by
  have htake : s.Reaches { s.setSession i { s.session i with active := false } with
      thread := { s.thread with session := none, pc := .closePort i } } := by
    refine .single (.device presentTick _ ?_)
    unfold deviceStep
    rw [hpc]
    dsimp only
    rw [hsession]
  have hclose : Reaches { s.setSession i { s.session i with active := false } with
      thread := { s.thread with session := none, pc := .closePort i } }
      { s.setSession i (s.session i).close with
        thread := { s.thread with session := none, pc := .takeHandle } } := by
    refine .single (.device presentTick _ ?_)
    have hsame : SerialRace.session { s.setSession i { s.session i with active := false } with
        thread := { s.thread with session := none, pc := .closePort i } } i =
        { s.session i with active := false } := session_setSession hi _
    unfold deviceStep
    dsimp only
    rw [hsame]
    simp only [setSession, SerialRace.goto, List.set_set, SerialSession.close]
  have htakeHandle : Reaches { s.setSession i (s.session i).close with
      thread := { s.thread with session := none, pc := .takeHandle } }
      ((s.closed i).goto (.join i)) := by
    refine .single (.device presentTick _ ?_)
    unfold deviceStep
    dsimp only
    rw [hhandle]
    rfl
  have hclosed : ((s.closed i).session i).active = false :=
    congrArg SerialSession.active (session_setSession hi _)
  exact ((htake.trans hclose).trans htakeHandle).trans (join_reaches hreader hrest hclosed)

/-- **`disconnect_session`**, when the reader is in front of the check of its loop or at its end.

**Proof sketch.** The session and the handle are there together, or neither is. With them the reader
ends first; then the page is reset. -/
lemma disconnect_passes (hinv : s.Inv) (hlength : s.sessions.length = s.readers.length)
    (hpc : s.thread.pc = .takeSession)
    (hreader : ∀ i, s.thread.readerHandle = some i →
      ∃ rx pc, s.readers[i]? = some ⟨pc, rx⟩ ∧ (pc = .loop ∨ pc = .finished)) :
    s.Passes (s.serialThread.disconnect s.device) := by
  have hsame : s.thread.session = s.thread.readerHandle := by rw [hinv.session, hpc]; rfl
  obtain ⟨t, hreach, hdevice, hthread, hlen⟩ : ∃ t : SerialRace, s.Reaches (t.goto .loadVendor) ∧
      t.device = s.device ∧ t.thread = { s.thread with session := none, readerHandle := none } ∧
      t.sessions.length = t.readers.length := by
    cases hsession : s.thread.session with
    | none =>
      rw [hsession] at hsame
      have htake : s.Reaches (s.goto .takeHandle) := by
        refine .single (.device presentTick _ ?_)
        unfold deviceStep
        rw [hpc]
        dsimp only
        rw [hsession]
      have hhandle : (s.goto .takeHandle).Reaches (s.goto .loadVendor) := by
        refine .single (.device presentTick _ ?_)
        unfold deviceStep
        dsimp only [SerialRace.goto]
        rw [← hsame]
      have hthread : { s.thread with
          session := s.thread.session, readerHandle := s.thread.readerHandle } =
          { s.thread with session := none, readerHandle := none } := by
        rw [hsession, ← hsame]
      exact ⟨s, htake.trans hhandle, rfl, hthread, hlength⟩
    | some i =>
      rw [hsession] at hsame
      obtain ⟨rx, pc, hr, hrest⟩ := hreader i hsame.symm
      have hi := (List.getElem?_eq_some_iff.mp hr).1
      rw [← hlength] at hi
      refine ⟨_, close_reaches hpc hsession hsame.symm hi hr hrest, rfl, rfl, ?_⟩
      simp [closed, setReader, setSession, hlength]
  have hend := hreach.trans t.reset_reaches
  refine ⟨_, hend, ⟨hinv.reaches hend, hlen, ?_⟩, rfl, ?_, ?_⟩
  · intro i hi
    rw [hthread] at hi
    cases hi
  · rw [hdevice]
    rfl
  · rw [SerialThread.disconnect, serialThread, serialThread, hthread]
    rfl

/-- Giving up the session while its reader rests. -/
lemma Resting.disconnect (h : s.Resting) (hpc : s.thread.pc = .takeSession) :
    s.Passes (s.serialThread.disconnect s.device) := by
  refine disconnect_passes h.inv h.length hpc fun i hi => ?_
  obtain ⟨rx, hr⟩ := h.reader i hi
  exact ⟨rx, .loop, hr, .inl rfl⟩

/-! ## The sections of a pass -/

/-- **A section that writes to the session**: the pass goes on, or the session is given up.

**Proof sketch.** If the commands fail, the rest of the pass is `disconnect_session`. -/
lemma Resting.section_passes (h : s.Resting) (hpc : s.thread.pc.sessionTaken = false)
    (hsession : s.thread.session = some i)
    {commands : Link SerialSession → Except (Link SerialSession) (Link SerialSession)}
    {next : DevicePc} (hnext : next.sessionTaken = false)
    (hstep : s.deviceStep tick = some (s.runSection i commands next))
    (rest : Link SerialSession → DeviceHandle × SerialThread)
    (hrest : ∀ link (t : SerialRace), t.Resting → t.thread.pc = next → t.thread.session = some i →
      t.session i = link.conn → t.device = s.device →
      t.serialThread = { s.serialThread with session := some link.conn, vars := link.vars } →
      t.Passes (rest link)) :
    s.Passes (match commands ⟨s.session i, s.thread.vars⟩ with
      | .ok link => rest link
      | .error link => { s.serialThread with vars := link.vars }.disconnect s.device) := by
  obtain ⟨-, hi, -⟩ := h.holds hpc hsession
  refine .of_deviceStep hstep ?_
  have hinv := h.inv.runSection hpc i commands hnext
  unfold runSection at hinv ⊢
  cases hcommands : commands ⟨s.session i, s.thread.vars⟩ with
  | ok link =>
    rw [hcommands] at hinv
    dsimp only at hinv ⊢
    refine hrest link _ ⟨hinv, ?_, h.reader⟩ rfl hsession (session_setSession hi _) rfl ?_
    · exact List.length_set.trans h.length
    · simp only [serialThread, hsession, Option.map_some]
      exact congrArg (SerialThread.mk · link.vars _ _ _)
        (congrArg some (session_setSession hi link.conn))
  | error link =>
    rw [hcommands] at hinv
    dsimp only at hinv ⊢
    have hrests : Resting { s.setSession i link.conn with
        thread := { s.thread with vars := link.vars, pc := .takeSession } } :=
      ⟨hinv, List.length_set.trans h.length, h.reader⟩
    exact hrests.disconnect rfl

variable (tick)

/-- The LED section.

**Proof sketch.** Induction on the channels that are left. -/
lemma Resting.leds_passes {output : Mai2OutputPage} {channels : List LedChannel} (h : s.Resting)
    (hpc : s.thread.pc = .leds i output channels) (hsession : s.thread.session = some i) :
    s.Passes (s.serialThread.endLeds s.device
      (Link.writeAll serialWire tick.takes serialPayload output channels
        ⟨s.session i, s.thread.vars⟩)) := by
  induction channels generalizing s with
  | nil =>
    have hstep : s.deviceStep tick = some (s.goto .top) := by
      unfold deviceStep
      rw [hpc]
    have hinv : (s.goto .top).Inv := h.inv.goto (by rw [hpc]; rfl) rfl
    refine .of_deviceStep hstep ⟨_, .refl, h.goto hinv, rfl, rfl, ?_⟩
    simp only [serialThread, SerialRace.goto, hsession, Option.map_some]
    rfl
  | cons channel channels ih =>
    have hstep : s.deviceStep tick = some (s.runSection i
        (·.writeLed serialWire tick.takes serialPayload output channel)
        (.leds i output channels)) := by
      unfold deviceStep
      rw [hpc]
    have hsection := h.section_passes (by rw [hpc]; rfl) hsession rfl hstep (fun link =>
      s.serialThread.endLeds s.device
        (Link.writeAll serialWire tick.takes serialPayload output channels link)) ?_
    · rw [Link.writeAll, List.foldlM_cons]
      cases hwrite : Link.writeLed serialWire tick.takes ⟨s.session i, s.thread.vars⟩
          serialPayload output channel with
      | ok link =>
        rw [hwrite] at hsection
        exact hsection
      | error link =>
        rw [hwrite] at hsection
        exact hsection
    · intro link t ht hpc' hsession' hconn hdevice hthread
      have hvars : t.thread.vars = link.vars := congrArg SerialThread.vars hthread
      have hrest := ih ht hpc' hsession'
      rw [hconn, hvars, hdevice, hthread] at hrest
      exact hrest

/-- The check of touch input changes the two variables about it. -/
lemma checkTouch_eq (t : SerialThread) (output : Mai2OutputPage) :
    { t with
      lastTouchFrames := (t.checkTouch output tick).lastTouchFrames
      ledOutputSuspended := (t.checkTouch output tick).ledOutputSuspended } =
      t.checkTouch output tick := by
  unfold SerialThread.checkTouch
  dsimp only
  split <;> split <;> rfl

/-- The rest of a pass: the touch checks, and the LEDs behind them. -/
lemma finish_snd (t : SerialThread) (device : DeviceHandle) (link : Link SerialSession) :
    (t.finish device tick link).2 =
      let t := t.checkTouch device.outputPage tick
      if t.touchOlder device.outputPage tick affineTouchStaleReconnectMs then t.disconnect device
      else if t.ledOutputSuspended then (device, t)
      else t.endLeds device
        (link.writeLeds serialWire tick.takes serialPayload device.outputPage) := by
  unfold SerialThread.finish
  dsimp only
  split_ifs
  · rfl
  · rfl
  · cases link.writeLeds serialWire tick.takes serialPayload device.outputPage <;> rfl

/-- The check of touch input, and the LED section.

**Proof sketch.** The cases are the ways on behind the check: to `disconnect_session`, to the top of
the loop, or to the LED section. -/
lemma Resting.checkTouch_passes (h : s.Resting) (hpc : s.thread.pc = .checkTouch i)
    (hsession : s.thread.session = some i) :
    s.Passes (s.serialThread.finish s.device tick ⟨s.session i, s.thread.vars⟩).2 := by
  rw [finish_snd]
  dsimp only
  generalize ht : s.serialThread.checkTouch s.device.outputPage tick = t
  have hthread : ∀ pc, (s.checked t pc).serialThread = t := by
    intro pc
    rw [← ht, ← checkTouch_eq, ht]
    rfl
  have hrests : ∀ pc, pc.sessionTaken = false → (s.checked t pc).Resting := by
    intro pc hpc'
    exact ⟨h.inv.stay ⟨rfl, rfl, fun _ => rfl, rfl⟩ (by rw [hpc]; rfl) hpc' rfl rfl, h.length,
      h.reader⟩
  have hstep : s.deviceStep tick = some (s.checked t <|
      if t.touchOlder s.device.outputPage tick affineTouchStaleReconnectMs then .takeSession
      else if t.ledOutputSuspended then .top
      else .leds i s.device.outputPage [.buttons, .billboard, .pwm]) := by
    have hloop : s.thread.loopVars (s.session i) = s.serialThread := by
      rw [serialThread, hsession]
      rfl
    unfold deviceStep
    rw [hpc]
    dsimp only
    rw [hloop, ht]
    rfl
  refine .of_deviceStep hstep ?_
  split_ifs
  · have hdisconnect := (hrests .takeSession rfl).disconnect rfl
    rw [hthread] at hdisconnect
    exact hdisconnect
  · exact ⟨_, .refl, hrests .top rfl, rfl, rfl, hthread _⟩
  · have hrest := hrests (.leds i s.device.outputPage [.buttons, .billboard, .pwm]) rfl
    have hleds := hrest.leds_passes tick rfl hsession
    rw [hthread, ← Link.writeLeds_eq] at hleds
    exact hleds

/-- The part of a pass behind the commands, which have left this link. -/
lemma Resting.finish_passes (h : s.Resting) (hpc : s.thread.pc = .checkTouch i)
    (hsession : s.thread.session = some i) {t : SerialThread} {device : DeviceHandle}
    {link : Link SerialSession} (hconn : s.session i = link.conn) (hdevice : s.device = device)
    (hthread : s.serialThread = { t with session := some link.conn, vars := link.vars }) :
    s.Passes
      ({ t with session := some link.conn, vars := link.vars }.finish device tick link).2 := by
  have hvars : s.thread.vars = link.vars := congrArg SerialThread.vars hthread
  have htouch := h.checkTouch_passes tick hpc hsession
  rw [hconn, hvars, hdevice, hthread] at htouch
  exact htouch

/-- The query is given up. -/
lemma deviceStep_clearPending (hpc : s.thread.pc = .clearPending i)
    (hsession : s.thread.session = some i) : s.deviceStep tick = some { s with
      thread := { s.thread with vars := s.thread.vars.clearPending, pc := .setLogged i } } := by
  unfold deviceStep
  rw [hpc]
  dsimp only
  rw [storeFlags_eq hsession]
  rfl

/-- It is stored that the query is given up. -/
lemma deviceStep_setLogged (hpc : s.thread.pc = .setLogged i)
    (hsession : s.thread.session = some i) : s.deviceStep tick = some { s with
      thread := { s.thread with vars := s.thread.vars.setLogged, pc := .checkTouch i } } := by
  unfold deviceStep
  rw [hpc]
  dsimp only
  rw [storeFlags_eq hsession]
  rfl

/-- The query is given up, unless the reader has received the board information.

**Proof sketch.** The flag is loaded. If it is set, the pass goes on; otherwise both flags are
stored first. -/
lemma Resting.giveUp_passes (h : s.Resting) (hpc : s.thread.pc = .giveUp i)
    (hsession : s.thread.session = some i) {t : SerialThread} {device : DeviceHandle}
    {link link' : Link SerialSession}
    (hlink : link' = if ¬ link.vars.boardInfoLogged then { link with vars := link.vars.boardInfo }
      else link)
    (hconn : s.session i = link.conn) (hdevice : s.device = device)
    (hthread : s.serialThread = { t with session := some link.conn, vars := link.vars }) :
    s.Passes
      ({ t with session := some link'.conn, vars := link'.vars }.finish device tick link').2 := by
  have hvars : s.thread.vars = link.vars := congrArg SerialThread.vars hthread
  have hload : s.deviceStep tick =
      some (s.goto (if s.thread.vars.boardInfoLogged then .checkTouch i else .clearPending i)) := by
    unfold deviceStep
    rw [hpc]
  refine .of_deviceStep hload ?_
  rw [hvars]
  cases hlogged : link.vars.boardInfoLogged with
  | true =>
    have hrest : (s.goto (.checkTouch i)).Resting :=
      h.goto (h.inv.goto (by rw [hpc]; rfl) rfl)
    rw [hlogged, if_neg (not_not.mpr rfl)] at hlink
    rw [if_pos rfl, hlink]
    exact hrest.finish_passes tick rfl hsession hconn hdevice hthread
  | false =>
    have hclear := deviceStep_clearPending (s := s.goto (.clearPending i)) tick rfl hsession
    have hlog := deviceStep_setLogged (s := { s with
      thread := { s.thread with vars := s.thread.vars.clearPending, pc := .setLogged i } })
      tick rfl hsession
    have hrest : Resting { s with
        thread := { s.thread with vars := s.thread.vars.boardInfo, pc := .checkTouch i } } :=
      ⟨h.inv.stay ⟨rfl, rfl, fun _ => rfl, rfl⟩ (by rw [hpc]; rfl) rfl rfl rfl, h.length, h.reader⟩
    rw [hlogged, if_pos Bool.false_ne_true] at hlink
    rw [if_neg Bool.false_ne_true, hlink]
    refine .of_deviceStep hclear (.of_deviceStep hlog ?_)
    refine hrest.finish_passes tick rfl hsession hconn hdevice ?_
    rw [← hvars]
    exact congrArg (fun t : SerialThread => { t with vars := s.thread.vars.boardInfo }) hthread

/-- The query for board information, and the part of the pass behind it.

**Proof sketch.** The flag is loaded. If it is set, the query is a section that writes to the
session, and a late one is given up behind it. -/
lemma Resting.boardInfo_passes (h : s.Resting) (hpc : s.thread.pc = .boardInfo i)
    (hsession : s.thread.session = some i) :
    s.Passes (match Link.queryBoardInfo serialWire tick.takes tick.now
        ⟨s.session i, s.thread.vars⟩ with
      | .ok link => ({ s.serialThread with
          session := some link.conn, vars := link.vars }.finish s.device tick link).2
      | .error link => { s.serialThread with vars := link.vars }.disconnect s.device) := by
  have hload : s.deviceStep tick =
      some (s.goto (if s.thread.vars.boardInfoPending then .query i else .checkTouch i)) := by
    unfold deviceStep
    rw [hpc]
  refine .of_deviceStep hload ?_
  rw [Link.queryBoardInfo_eq]
  dsimp only
  cases hpending : s.thread.vars.boardInfoPending with
  | false =>
    have hrest : (s.goto (.checkTouch i)).Resting :=
      h.goto (h.inv.goto (by rw [hpc]; rfl) rfl)
    rw [if_neg Bool.false_ne_true, if_neg Bool.false_ne_true]
    refine hrest.finish_passes tick rfl hsession rfl rfl ?_
    rw [serialThread]
    simp only [SerialRace.goto, hsession, Option.map_some]
    rfl
  | true =>
    have hrest : (s.goto (.query i)).Resting := h.goto (h.inv.goto (by rw [hpc]; rfl) rfl)
    rw [if_pos rfl, if_pos rfl]
    have hquery : (s.goto (.query i)).deviceStep tick = some ((s.goto (.query i)).runSection i
        (·.sendQuery serialWire tick.takes tick.now)
        (if s.thread.vars.QueryLate tick.now then .giveUp i else .checkTouch i)) := rfl
    have hsection := hrest.section_passes rfl hsession (by split <;> rfl) hquery (fun link =>
        let link' : Link SerialSession :=
          if s.thread.vars.QueryLate tick.now ∧ ¬ link.vars.boardInfoLogged then
            { link with vars := link.vars.boardInfo } else link
        ({ s.serialThread with
          session := some link'.conn, vars := link'.vars }.finish s.device tick link').2) ?_
    · have hsend : Link.sendQuery serialWire tick.takes tick.now ⟨s.session i, s.thread.vars⟩ =
        Link.sendQuery serialWire tick.takes tick.now
          ⟨(s.goto (.query i)).session i, (s.goto (.query i)).thread.vars⟩ := rfl
      rw [hsend]
      dsimp only at hsection
      generalize Link.sendQuery serialWire tick.takes tick.now
        ⟨(s.goto (.query i)).session i, (s.goto (.query i)).thread.vars⟩ = sent at hsection ⊢
      cases sent <;> exact hsection
    · intro link t ht hpc' hsession' hconn hdevice hthread
      by_cases hlate : s.thread.vars.QueryLate tick.now
      · rw [if_pos hlate] at hpc'
        refine ht.giveUp_passes tick hpc' hsession' ?_ hconn hdevice hthread
        simp only [hlate, true_and]
      · rw [if_neg hlate] at hpc'
        rw [if_neg fun hgivenUp => hlate hgivenUp.1]
        exact ht.finish_passes tick hpc' hsession' hconn hdevice hthread

/-- The part of a pass behind the checks of the session.

**Proof sketch.** The heartbeat is a section that writes to the session, with the query behind it.
-/
lemma Resting.serve_passes (h : s.Resting) (hpc : s.thread.pc = .heartbeat i)
    (hsession : s.thread.session = some i) :
    s.Passes (s.serialThread.serve s.device tick (s.session i)).2 := by
  have hheartbeat : s.deviceStep tick = some (s.runSection i
      (·.heartbeat serialWire tick.takes tick.now) (.boardInfo i)) := by
    unfold deviceStep
    rw [hpc]
  have hsection := h.section_passes (by rw [hpc]; rfl) hsession rfl hheartbeat (fun link =>
    match link.queryBoardInfo serialWire tick.takes tick.now with
    | .ok link => ({ s.serialThread with
        session := some link.conn, vars := link.vars }.finish s.device tick link).2
    | .error link => { s.serialThread with vars := link.vars }.disconnect s.device) ?_
  · unfold SerialThread.serve
    dsimp only
    have hvars : s.serialThread.vars = s.thread.vars := rfl
    rw [hvars]
    cases hheart : Link.heartbeat serialWire tick.takes tick.now ⟨s.session i, s.thread.vars⟩ with
    | error link =>
      rw [hheart] at hsection
      exact hsection
    | ok link =>
      rw [hheart] at hsection
      dsimp only at hsection
      rw [Slice.ok_bind]
      cases hquery : link.queryBoardInfo serialWire tick.takes tick.now with
      | error link' =>
        rw [hquery] at hsection
        exact hsection
      | ok link' =>
        rw [hquery] at hsection
        exact hsection
  · intro link t ht hpc' hsession' hconn hdevice hthread
    have hvars : t.thread.vars = link.vars := congrArg SerialThread.vars hthread
    have hrest := ht.boardInfo_passes tick hpc' hsession'
    rw [hconn, hvars, hdevice, hthread] at hrest
    exact hrest

/-! ## A pass -/

/-- The reader goes from the check of its loop to a failed read, and ends.

**Proof sketch.** The turns of the reader, one after the other. -/
lemma fail_reaches {rx : RxBuf} (hreader : s.readers[i]? = some ⟨.loop, rx⟩)
    (hlt : i < s.sessions.length) (hactive : (s.session i).active = true) :
    s.Reaches (s.failed i rx) := by
  have hi : i < s.readers.length := (List.getElem?_eq_some_iff.mp hreader).1
  have hloop : s.Reaches (s.setReader i ⟨.read, rx⟩) := by
    refine .single (.reader i none 0 _ ?_)
    unfold readerStep
    rw [hreader]
    dsimp only
    rw [hactive]
    rfl
  have hread : (s.setReader i ⟨.read, rx⟩).Reaches (s.setReader i ⟨.reading, rx⟩) := by
    refine .single (.reader i none 0 _ ?_)
    have hactive' : ((s.setReader i ⟨.read, rx⟩).session i).active = true := hactive
    unfold readerStep
    rw [readers_setReader hi]
    dsimp only
    rw [hactive', setReader_setReader]
    rfl
  have hfails : (s.setReader i ⟨.reading, rx⟩).Reaches
      ((s.setSession i { s.session i with readerFailed := true }).setReader i ⟨.failed, rx⟩) := by
    refine .single (.reader i none 0 _ ?_)
    unfold readerStep
    rw [readers_setReader hi]
    exact congrArg some (setReader_setReader (s.setSession i _) ⟨.reading, rx⟩ _)
  have hends : ((s.setSession i { s.session i with readerFailed := true }).setReader i
      ⟨.failed, rx⟩).Reaches (s.failed i rx) := by
    refine .single (.reader i none 0 _ ?_)
    have hreader' : ((s.setSession i { s.session i with readerFailed := true }).setReader i
        ⟨.failed, rx⟩).readers[i]? = some ⟨.failed, rx⟩ := readers_setReader hi _
    have hsame : ((s.setSession i { s.session i with readerFailed := true }).setReader i
        ⟨.failed, rx⟩).session i = { s.session i with readerFailed := true } :=
      session_setSession hlt _
    unfold readerStep
    rw [hreader']
    dsimp only
    rw [hsame]
    simp only [setSession, setReader, List.set_set, failed, SerialSession.failReader]
  exact ((hloop.trans hread).trans hfails).trans hends

/-- The reader fails behind the opening of its session, and the session is given up.

**Proof sketch.** The reader goes to its end first, and then the device thread gives up the session.
-/
lemma Resting.failed_passes (h : s.Resting) (hpc : s.thread.pc = .checkActive i)
    (hsession : s.thread.session = some i) (hactive : (s.session i).active = true) :
    s.Passes (s.serialThread.disconnect s.device) := by
  obtain ⟨hhandle, hi, rx, hr⟩ := h.holds (by rw [hpc]; rfl) hsession
  have hreach := fail_reaches hr hi hactive
  have hpc' : (s.failed i rx).thread.pc = .checkActive i := hpc
  have hclosed : ((s.failed i rx).session i).active = false :=
    congrArg SerialSession.active (session_setSession hi _)
  have hstep : (s.failed i rx).deviceStep presentTick =
      some ((s.failed i rx).goto .takeSession) := by
    unfold deviceStep
    rw [hpc']
    dsimp only
    rw [hclosed]
    rfl
  have hinv : ((s.failed i rx).goto .takeSession).Inv :=
    (h.inv.reaches hreach).goto (by rw [hpc']; rfl) rfl
  have hlength : (s.failed i rx).sessions.length = (s.failed i rx).readers.length := by
    simp [failed, setReader, setSession, h.length]
  have hreader : ∀ j, s.thread.readerHandle = some j → ∃ rx' pc,
      (s.failed i rx).readers[j]? = some ⟨pc, rx'⟩ ∧ (pc = .loop ∨ pc = .finished) := by
    intro j hj
    obtain rfl := Option.some.inj (hhandle.symm.trans hj)
    exact ⟨rx, .finished, readers_setReader (List.getElem?_eq_some_iff.mp hr).1 _, .inr rfl⟩
  exact (Passes.of_deviceStep hstep (disconnect_passes hinv hlength rfl hreader)).of_reaches hreach

/-- The checks of the session, and the part of the pass behind them.

**Proof sketch.** The two checks lead to `disconnect_session` or to the heartbeat. -/
lemma Resting.checkActive_passes (h : s.Resting) (hpc : s.thread.pc = .checkActive i)
    (hsession : s.thread.session = some i) :
    let session := if tick.readerFails then (s.session i).failReader else s.session i
    s.Passes (if ¬ session.isActive then s.serialThread.disconnect s.device
      else (s.serialThread.serve s.device tick session).2) := by
  have hgoOn : ∀ pc, pc.sessionTaken = false → (s.goto pc).Resting := fun pc hpc' =>
    h.goto (h.inv.goto (by rw [hpc]; rfl) hpc')
  dsimp only
  cases hactive : (s.session i).active with
  | false =>
    have hstep : s.deviceStep tick = some (s.goto .takeSession) := by
      unfold deviceStep
      rw [hpc]
      dsimp only
      rw [hactive]
      rfl
    have hclosed :
        (if tick.readerFails then (s.session i).failReader else s.session i).isActive = false := by
      cases tick.readerFails <;> simp [SerialSession.isActive, SerialSession.failReader, hactive]
    rw [hclosed, if_pos Bool.false_ne_true]
    exact .of_deviceStep hstep ((hgoOn .takeSession rfl).disconnect rfl)
  | true =>
    cases hfails : tick.readerFails with
    | true =>
      rw [if_pos rfl, if_pos (by simp [SerialSession.isActive, SerialSession.failReader])]
      exact h.failed_passes hpc hsession hactive
    | false =>
      have hstep : s.deviceStep tick = some (s.goto (.checkFailed i)) := by
        unfold deviceStep
        rw [hpc]
        dsimp only
        rw [hactive]
        rfl
      rw [if_neg Bool.false_ne_true]
      refine .of_deviceStep hstep ?_
      cases hfailed : (s.session i).readerFailed with
      | true =>
        have hstep' : (s.goto (.checkFailed i)).deviceStep tick = some (s.goto .takeSession) := by
          show some (s.goto (if (s.session i).readerFailed then .takeSession else .heartbeat i)) = _
          rw [hfailed]
          rfl
        rw [if_pos (by simp [SerialSession.isActive, hfailed])]
        exact .of_deviceStep hstep' ((hgoOn .takeSession rfl).disconnect rfl)
      | false =>
        have hstep' : (s.goto (.checkFailed i)).deviceStep tick = some (s.goto (.heartbeat i)) := by
          show some (s.goto (if (s.session i).readerFailed then .takeSession else .heartbeat i)) = _
          rw [hfailed]
          rfl
        rw [if_neg (by simp [SerialSession.isActive, hactive, hfailed])]
        exact .of_deviceStep hstep' ((hgoOn (.heartbeat i) rfl).serve_passes tick rfl hsession)

/-- The part of a pass behind the opening of the session.

**Proof sketch.** Without board information the reader changes nothing, so that the checks are those
of the pass. -/
lemma Resting.connected_passes (h : s.Resting) (hpc : s.thread.pc = .checkActive i)
    (hsession : s.thread.session = some i) {t : SerialThread} {device : DeviceHandle}
    (henabled : device.enabled = true)
    (hvendor : ¬ (device.vendorConnected ∨ tick.vendorPresent))
    (hconnect : t.connect device tick = some (s.device, s.serialThread))
    (hboard : tick.boardInfo = false) : s.Passes (t.pass device tick).2 := by
  have hactive := h.checkActive_passes tick hpc hsession
  unfold SerialThread.pass
  rw [if_neg (not_not.mpr henabled), if_neg hvendor, hconnect]
  dsimp only
  rw [serialThread_session hsession, hboard]
  dsimp only at hactive ⊢
  generalize (if tick.readerFails then (s.session i).failReader else s.session i) = session
    at hactive ⊢
  cases hrun : session.isActive with
  | false =>
    rw [hrun, if_pos Bool.false_ne_true] at hactive
    rw [if_pos Bool.false_ne_true]
    exact hactive
  | true =>
    rw [hrun, if_neg (not_not.mpr rfl)] at hactive
    rw [if_neg (not_not.mpr rfl)]
    exact hactive

/-- A pass without a session that opens none. -/
lemma pass_of_connect_none {t : SerialThread} {device : DeviceHandle}
    (henabled : device.enabled = true) (hvendor : ¬ (device.vendorConnected ∨ tick.vendorPresent))
    (hconnect : t.connect device tick = none) : (t.pass device tick).2 = (device, t) := by
  unfold SerialThread.pass
  rw [if_neg (not_not.mpr henabled), if_neg hvendor, hconnect]

/-- A pass that has no session, from the opening of one on.

**Proof sketch.** The port is not found, it does not open, or the session is opened and marked, and
then served as in every later pass. -/
lemma Resting.connect_passes (h : s.Resting) (hpc : s.thread.pc = .connect)
    (hsession : s.thread.session = none) (henabled : s.device.enabled = true)
    (hvendor : ¬ (s.device.vendorConnected ∨ tick.vendorPresent))
    (hboard : tick.boardInfo = false) : s.Passes (s.serialThread.pass s.device tick).2 := by
  have hno : ¬ s.serialThread.session.isSome = true := by simp [serialThread, hsession]
  have htop : s.serialThread.connect s.device tick = none →
      s.deviceStep tick = some (s.goto .top) → s.Passes (s.serialThread.pass s.device tick).2 := by
    intro hconnect hstep
    rw [pass_of_connect_none tick henabled hvendor hconnect]
    exact .of_deviceStep hstep
      ⟨_, .refl, h.goto (h.inv.goto (by rw [hpc]; rfl) rfl), rfl, rfl, rfl⟩
  unfold SerialThread.connect deviceStep at htop
  rw [if_neg hno, hpc] at htop
  dsimp only at htop
  rw [hsession] at htop
  dsimp only at htop
  by_cases hfound : tick.found = true
  · cases hopens : tick.opens with
    | false =>
      rw [if_neg (not_not.mpr hfound), if_neg (not_not.mpr hfound), hopens] at htop
      exact htop rfl rfl
    | true =>
      clear htop
      have hopen : s.deviceStep tick = some s.opened := by
        unfold deviceStep
        rw [hpc]
        dsimp only
        rw [hsession]
        dsimp only
        rw [if_neg (not_not.mpr hfound), hopens]
        rfl
      have hmark : s.opened.deviceStep tick = some (s.connected tick) := rfl
      have hrests : (s.connected tick).Resting := by
        refine ⟨(h.inv.deviceStep hopen).deviceStep hmark, ?_, ?_⟩
        · simp [connected, opened, h.length]
        · rintro i hi
          cases hi
          exact ⟨_, List.getElem?_concat_length⟩
      have hnew : (s.connected tick).session s.readers.length = .new .opened := by
        simp [SerialRace.session, connected, opened, ← h.length]
      have hconnect : s.serialThread.connect s.device tick =
          some ((s.connected tick).device, (s.connected tick).serialThread) := by
        unfold SerialThread.connect
        rw [if_neg hno, if_neg (not_not.mpr hfound), hopens, serialThread]
        show _ = some (_, { s.serialThread with
          session := some ((s.connected tick).session s.readers.length)
          vars := .start tick.heartbeatMs tick.boardInfoMs
          connectedSinceMs := tick.connectedMs })
        rw [hnew]
        rfl
      exact .of_deviceStep hopen (.of_deviceStep hmark
        (hrests.connected_passes tick rfl rfl henabled hvendor hconnect hboard))
  · rw [if_pos hfound, if_pos hfound] at htop
    exact htop rfl rfl

/-- **A pass is an interleaving** of the device thread and its reader, if the reader receives no
board information.

**Proof sketch.** The device thread goes on alone, up to a section that ends the pass. Each way out
of the session is a run of `disconnect_session`, in which the reader ends (`disconnect_passes`). -/
theorem pass_passes (h : s.Resting) (hpc : s.thread.pc = .top) (hboard : tick.boardInfo = false) :
    s.Passes (s.serialThread.pass s.device tick).2 := by
  have hgoOn : ∀ pc, pc.sessionTaken = false → (s.goto pc).Resting := fun pc hpc' =>
    h.goto (h.inv.goto (by rw [hpc]; rfl) hpc')
  have htop : s.deviceStep tick =
      some (s.goto (if s.device.enabled then .probe else .takeSession)) := by
    unfold deviceStep
    rw [hpc]
  refine .of_deviceStep htop ?_
  cases henabled : s.device.enabled with
  | false =>
    unfold SerialThread.pass
    rw [if_neg Bool.false_ne_true, if_pos (by rw [henabled]; exact Bool.false_ne_true)]
    exact (hgoOn .takeSession rfl).disconnect rfl
  | true =>
    have hprobe : (s.goto .probe).deviceStep tick = some (s.goto
        (if s.device.vendorConnected ∨ tick.vendorPresent then .takeSession else .connect)) := rfl
    refine .of_deviceStep hprobe ?_
    by_cases hvendor : s.device.vendorConnected ∨ tick.vendorPresent
    · unfold SerialThread.pass
      rw [if_pos hvendor, if_neg (not_not.mpr henabled), if_pos hvendor]
      exact (hgoOn .takeSession rfl).disconnect rfl
    · rw [if_neg hvendor]
      cases hsession : s.thread.session with
      | some i =>
        have hstep : (s.goto .connect).deviceStep tick = some (s.goto (.checkActive i)) := by
          unfold deviceStep
          dsimp only [SerialRace.goto]
          rw [hsession]
        have hchecks := hgoOn (.checkActive i) rfl
        refine .of_deviceStep hstep
          (hchecks.connected_passes tick rfl hsession henabled hvendor ?_ hboard)
        unfold SerialThread.connect
        rw [serialThread_session hsession, if_pos Option.isSome_some]
        rfl
      | none => exact (hgoOn .connect rfl).connect_passes tick rfl hsession henabled hvendor hboard

/-- Passes one behind the other. -/
lemma passes_passes (ticks : List SerialTick) (h : s.Resting) (hpc : s.thread.pc = .top)
    (hboard : ∀ tick ∈ ticks, tick.boardInfo = false) :
    s.Passes (s.serialThread.passes s.device ticks) := by
  induction ticks generalizing s with
  | nil => exact ⟨s, .refl, h, hpc, rfl, rfl⟩
  | cons tick ticks ih =>
    obtain ⟨t, hreach, hrests, htop, hdevice, hthread⟩ :=
      pass_passes tick h hpc (hboard tick List.mem_cons_self)
    have hrest := ih hrests htop fun tick' htick => hboard tick' (List.mem_cons_of_mem _ htick)
    rw [hdevice, hthread] at hrest
    exact hrest.of_reaches hreach

/-- **Every run of passes is an interleaving** of the threads, if the readers receive no board
information: it reaches the same device and the same variables of the loop.

**Proof sketch.** Induction on the passes (`pass_passes`). No reader runs at the start. -/
theorem start_passes (enabled : Bool) (inputPage : Mai2InputPage) (outputPage : Mai2OutputPage)
    (now : UInt64) (ticks : List SerialTick) (hboard : ∀ tick ∈ ticks, tick.boardInfo = false) :
    (start enabled inputPage outputPage now).Passes
      ((SerialThread.init now 0).passes
        { DeviceHandle.new enabled with inputPage := inputPage, outputPage := outputPage } ticks) :=
  passes_passes ticks ⟨inv_start enabled inputPage outputPage now, rfl, nofun⟩ rfl hboard

end SerialRace

end Affine
