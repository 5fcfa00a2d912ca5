import Affine.Lib.Run
import Affine.Mai2.VendorLoop

set_option relaxedAutoImplicit false
set_option autoImplicit false

/-!
# The delivery of LED updates

The LED calls of the game against the two device loops of a player: any calls, with the two steps of
`led_gs_update` apart, between any passes of the loops. No update is lost: behind the LED section of
a pass, the last frame of each channel carries what the page says (`led_updates_delivered`).

## Main definitions

* `Affine.LedEvent`, `Affine.LedSystem` — the calls and the passes.

## Main results

* `Affine.LedSystem.exec_tracks` — what the loops remember of the LEDs is true in every run.
* `Affine.led_updates_delivered`, with the witness `Affine.led_updates_delivered_billboard`.
-/

namespace Affine

open Slice (Exec)

/-- A step of a call of the game, a pass of a loop, or a change of the rest of the device. -/
inductive LedEvent
  | setTouchEnabled (player1 player2 : Bool)
  | setFetOutput (board : UInt8) (rgb : List.Vector UInt8 3)
  | billboardSet (board : UInt8) (rgb : List UInt8)
  /-- `led_gs_update` is called and takes its step under the lock of the latch. -/
  | gsLatch (board : UInt8) (rgb : List UInt8)
  /-- One of the pending calls of `led_gs_update` updates its page. -/
  | gsPage (k : ℕ)
  | serialPass (tick : SerialTick)
  | vendorStep (tick : VendorTick)
  /-- The other sources of the player change the input page and their flags. -/
  | input (page : Mai2InputPage) (hidConnected touchHidConnected : Bool)

/-- The event is an LED call. -/
def LedEvent.isLedCall : LedEvent → Bool
  | setFetOutput _ _ | billboardSet _ _ | gsLatch _ _ => true
  | _ => false

/-- The runtime, the calls of `led_gs_update` between their two steps, and the loops of a player. -/
structure LedSystem where
  runtime : Mai2Runtime
  pending : List (Fin 2 × List.Vector UInt8 56)
  serial : SerialThread
  vendor : VendorThread

namespace LedSystem

/-- The system at the start of the loops, on any pages: they are shared and may have been used
before. -/
def init (runtime : Mai2Runtime) (now touchFrames : UInt64) : LedSystem where
  runtime := runtime
  pending := []
  serial := .init now touchFrames
  vendor := .init

/-- The device of the player is replaced. -/
def setDevice (s : LedSystem) (player : Fin 2) (device : DeviceHandle) : LedSystem :=
  { s with
    runtime := { s.runtime with devices := Function.update s.runtime.devices player device } }

/-- An event, for the loops of a player. -/
def step (player : Fin 2) (e : LedEvent) (s : LedSystem) : Exec LedSystem :=
  match e with
  | .setTouchEnabled player1 player2 =>
    return { s with runtime := s.runtime.setTouchEnabled player1 player2 }
  | .setFetOutput board rgb => return { s with runtime := s.runtime.ledSetFetOutput board rgb }
  | .billboardSet board rgb => return { s with runtime := s.runtime.ledBillboardSet board rgb }
  | .gsLatch board rgb =>
    match Mai2Runtime.gsAccepted board rgb with
    | none => return s
    | some (board, rgbs) =>
      let (payload, runtime) := s.runtime.ledGsLatch board rgbs
      return { s with runtime := runtime, pending := s.pending ++ [(board, payload)] }
  | .gsPage k =>
    match s.pending[k]? with
    | none => return s
    | some (board, payload) =>
      return { s with
        runtime := s.runtime.ledGsPage board payload
        pending := s.pending.eraseIdx k }
  | .serialPass tick =>
    let (_, device, serial) := s.serial.pass (s.runtime.devices player) tick
    return { s.setDevice player device with serial := serial }
  | .vendorStep tick => do
    let (_, device, vendor) ← s.vendor.step (s.runtime.devices player) tick
    return { s.setDevice player device with vendor := vendor }
  | .input page hidConnected touchHidConnected =>
    return s.setDevice player { s.runtime.devices player with
      inputPage := page
      hidConnected := hidConnected
      touchHidConnected := touchHidConnected }

/-- `led_gs_update` is its two steps, when nothing comes between them. -/
lemma exec_gsUpdate (player : Fin 2) (s : LedSystem) (board : UInt8) (rgb : List UInt8) :
    Run.exec (step player) s [.gsLatch board rgb, .gsPage s.pending.length] =
      .ok { s with runtime := s.runtime.ledGsUpdate board rgb } := by
  simp only [Run.exec, step, Mai2Runtime.ledGsUpdate]
  cases Mai2Runtime.gsAccepted board rgb with
  | none => simp
  | some accepted => simp [List.eraseIdx_append_of_length_le]

/-- The output page of the player. -/
def output (s : LedSystem) (player : Fin 2) : Mai2OutputPage :=
  (s.runtime.devices player).outputPage

/-- What the loops remember of the LEDs is true, up to `n` changes since. -/
structure Tracks (s : LedSystem) (player : Fin 2) (n : ℕ) : Prop where
  serial : s.serial.Tracks (s.output player) n
  vendor : s.vendor.Tracks (s.output player) n

variable {s s' : LedSystem} {player : Fin 2} {n : ℕ}

/-- An update of an output page advances the sequence numbers of what it changes. -/
lemma updateOutput_step {f : Mai2OutputPage → Mai2OutputPage}
    (hf : ∀ page : Mai2OutputPage, page.LedStep (f page)) (rt : Mai2Runtime)
    (board player : Fin 2) :
    (rt.devices player).outputPage.LedStep
      ((rt.updateOutput board f).devices player).outputPage := by
  rw [rt.updateOutput_outputPage]
  split
  · exact hf _
  · exact fun _ => .inl rfl

/-- An update of an output page is one change. -/
lemma Tracks.update (h : s.Tracks player n) {runtime : Mai2Runtime}
    {pending : List (Fin 2 × List.Vector UInt8 56)}
    (hstep : (s.output player).LedStep (runtime.devices player).outputPage) :
    Tracks { s with runtime := runtime, pending := pending } player (n + 1) :=
  ⟨fun session hsession => (h.serial session hsession).step hstep,
    fun link hlink => (h.vendor link hlink).step hstep⟩

/-- What leaves the LEDs of the page alone is no change. -/
lemma Tracks.congr (h : s.Tracks player n) (hserial : s'.serial = s.serial)
    (hvendor : s'.vendor = s.vendor) (hled : (s'.output player).led = (s.output player).led) :
    s'.Tracks player n := by
  constructor
  · intro session hsession
    rw [hserial] at hsession ⊢
    exact ⟨(h.serial session hsession).isOpen, fun channel => by
      rw [hled]
      exact (h.serial session hsession).led channel⟩
  · intro link hlink
    rw [hvendor] at hlink
    exact ⟨(h.vendor link hlink).isOpen, fun channel => by
      rw [hled]
      exact (h.vendor link hlink).led channel⟩

/-- A pass of a loop that keeps the output page of the player. -/
lemma tracks_setDevice {device : DeviceHandle} {serial : SerialThread} {vendor : VendorThread}
    (hpage : device.outputPage = s.output player) (hserial : serial.Tracks (s.output player) n)
    (hvendor : vendor.Tracks (s.output player) n) :
    Tracks { s.setDevice player device with serial := serial, vendor := vendor } player n := by
  have houtput : ∀ serial vendor,
      output { s.setDevice player device with serial := serial, vendor := vendor } player =
        s.output player := by
    intro serial vendor
    simp only [output, setDevice, Function.update_self]
    exact hpage
  constructor
  · rw [houtput]
    exact hserial
  · rw [houtput]
    exact hvendor

/-- An update of an output page that leaves its LEDs alone. -/
lemma updateOutput_led {f : Mai2OutputPage → Mai2OutputPage}
    (hf : ∀ page : Mai2OutputPage, (f page).led = page.led) (rt : Mai2Runtime)
    (board player : Fin 2) :
    ((rt.updateOutput board f).devices player).outputPage.led =
      (rt.devices player).outputPage.led := by
  rw [rt.updateOutput_outputPage]
  split
  · exact hf _
  · rfl

/-- Switching the touch panels leaves the LEDs. -/
lemma setTouchEnabled_led (rt : Mai2Runtime) (player1 player2 : Bool) (player : Fin 2) :
    ((rt.setTouchEnabled player1 player2).devices player).outputPage.led =
      (rt.devices player).outputPage.led := by
  have htouch : ∀ (value : UInt8) (page : Mai2OutputPage),
      Mai2OutputPage.led { page with touchEnabled := value } = page.led := by
    intro value page
    funext channel
    cases channel <;> rfl
  rw [Mai2Runtime.setTouchEnabled, updateOutput_led (htouch _), updateOutput_led (htouch _)]

/-- **An event keeps what the loops remember true.** The number of changes grows only with the
calls: a change of `led_gs_update` is paid for by the call that is pending.

**Proof sketch.** The calls update an output page or add a pending call; a pass of a loop keeps the
page (`SerialThread.pass_keeps`, `VendorThread.step_keeps`). -/
theorem step_tracks (h : s.Tracks player n) (e : LedEvent) :
    ∃ s' n', step player e s = .ok s' ∧ s'.Tracks player n' ∧
      n' + s'.pending.length ≤ n + s.pending.length + if e.isLedCall then 1 else 0 := by
  cases e with
  | setTouchEnabled player1 player2 =>
    exact ⟨_, n, rfl, h.congr rfl rfl (setTouchEnabled_led _ _ _ _), le_rfl⟩
  | setFetOutput board rgb =>
    refine ⟨_, n + 1, rfl, h.update ?_, by simp [LedEvent.isLedCall]; omega⟩
    unfold Mai2Runtime.ledSetFetOutput
    split
    · exact updateOutput_step (·.setPwm_step rgb) _ _ _
    · exact fun _ => .inl rfl
  | billboardSet board rgb =>
    refine ⟨_, n + 1, rfl, h.update ?_, by simp [LedEvent.isLedCall]; omega⟩
    unfold Mai2Runtime.ledBillboardSet
    split
    · exact updateOutput_step (·.setBillboard_step _) _ _ _
    · exact fun _ => .inl rfl
  | gsLatch board rgb =>
    simp only [step]
    cases Mai2Runtime.gsAccepted board rgb with
    | none => exact ⟨s, n, rfl, h, Nat.le_add_right _ _⟩
    | some accepted =>
      refine ⟨_, n, rfl, h.congr rfl rfl rfl, ?_⟩
      simp [LedEvent.isLedCall]
      omega
  | gsPage k =>
    simp only [step]
    cases hk : s.pending[k]? with
    | none => exact ⟨s, n, rfl, h, Nat.le_add_right _ _⟩
    | some entry =>
      refine ⟨_, n + 1, rfl, h.update (updateOutput_step (·.setButtons_step _) _ _ _), ?_⟩
      obtain ⟨hlt, -⟩ := List.getElem?_eq_some_iff.mp hk
      simp [LedEvent.isLedCall, List.length_eraseIdx_of_lt hlt]
      omega
  | serialPass tick =>
    have hkeeps := SerialThread.pass_keeps h.serial tick
    exact ⟨_, n, rfl, tracks_setDevice hkeeps.outputPage hkeeps.tracks h.vendor,
      Nat.le_add_right _ _⟩
  | vendorStep tick =>
    obtain ⟨⟨exit, device, vendor⟩, hstep, hkeeps⟩ := VendorThread.step_keeps h.vendor tick
    refine ⟨_, n, ?_, tracks_setDevice hkeeps.outputPage h.serial hkeeps.tracks,
      Nat.le_add_right _ _⟩
    simp only [step, hstep]
    rfl
  | input page hidConnected touchHidConnected =>
    exact ⟨_, n, rfl, tracks_setDevice rfl h.serial h.vendor, Nat.le_add_right _ _⟩

/-- **What the loops remember of the LEDs is true in every run**, up to as many changes as there
were LED calls, and no run has a fault.

**Proof sketch.** Induction on the run, with `step_tracks` for its last event. -/
theorem exec_tracks (player : Fin 2) (runtime : Mai2Runtime) (now touchFrames : UInt64)
    (events : List LedEvent) :
    ∃ s n, Run.exec (step player) (init runtime now touchFrames) events = .ok s ∧
      s.Tracks player n ∧ n + s.pending.length ≤ events.countP (·.isLedCall) := by
  induction events using List.reverseRecOn with
  | nil =>
    exact ⟨_, 0, rfl, ⟨SerialThread.tracks_of_none rfl, VendorThread.tracks_init⟩, le_rfl⟩
  | append_singleton events e ih =>
    obtain ⟨s, n, hrun, htracks, hcalls⟩ := ih
    obtain ⟨s', n', hstep, htracks', hcalls'⟩ := step_tracks htracks e
    refine ⟨s', n', (Run.exec_concat_eq_ok _).mpr ⟨s, hrun, hstep⟩, htracks', ?_⟩
    rw [List.countP_append, List.countP_singleton]
    omega

end LedSystem

/-- **LED updates are never lost**: with fewer than `2^64` LED calls, every run of the calls and the
two loops of a player goes on without a fault. If then the next pass of the serial loop ends behind
its LED section, the session is open, and for each channel whose sequence number on the page is not
zero, the last frame of that channel in the session carries the page: the target colours of the
buttons, and the other two channels as they are. The same holds of the vendor loop, whose reports
carry all three channels as they are.

**Proof sketch.** What the loops remember is true (`LedSystem.exec_tracks`); a pass keeps it so and
has seen the sequence numbers of the page at the end (`SerialThread.pass_keeps`,
`VendorThread.step_keeps`), so the last frame is up to date (`Link.Tracks.current`). -/
theorem led_updates_delivered (player : Fin 2) (runtime : Mai2Runtime) (now touchFrames : UInt64)
    (events : List LedEvent) (hcalls : events.countP (·.isLedCall) < 2 ^ 64) :
    ∃ s, Run.exec (LedSystem.step player) (.init runtime now touchFrames) events = .ok s ∧
      (∀ tick device serial,
        s.serial.pass (s.runtime.devices player) tick = (.done, device, serial) →
          ∃ session, serial.session = some session ∧ session.port.isOpen ∧
            ∀ channel, ((s.output player).led channel).version ≠ 0 →
              Log.last (fun frame => frame[1]? = some channel.cmd) session.port.sent =
                some (mai2Frame channel.cmd
                  (serialPayload channel ((s.output player).led channel).value))) ∧
      (∀ tick device vendor,
        s.vendor.step (s.runtime.devices player) tick = .ok (.done, device, vendor) →
          ∃ link, vendor.link = some link ∧
            ∀ channel, ((s.output player).led channel).version ≠ 0 →
              Log.last (fun report => report[2]? = some channel.cmd) link.conn.sent =
                some (hidReport channel.cmd
                  (hidPayload channel ((s.output player).led channel).value))) := by
  obtain ⟨s, n, hrun, htracks, hn⟩ := LedSystem.exec_tracks player runtime now touchFrames events
  have hn64 : n < 2 ^ 64 := by omega
  refine ⟨s, hrun, ?_, ?_⟩
  · intro tick device serial hpass
    have hkeeps := SerialThread.pass_keeps htracks.serial tick
    have hseen := hkeeps.seen
    have hserial := hkeeps.tracks
    simp only [LedSystem.output] at hserial ⊢
    rw [hpass] at hseen hserial
    obtain ⟨hsome, hversion⟩ := hseen rfl
    obtain ⟨session, hsession⟩ := Option.isSome_iff_exists.mp hsome
    have hlink := hserial session hsession
    exact ⟨session, hsession, hlink.isOpen,
      fun channel hnonzero => hlink.current hn64 (hversion channel) hnonzero⟩
  · intro tick device vendor hstep
    obtain ⟨result, hok, hkeeps⟩ := VendorThread.step_keeps htracks.vendor tick
    obtain rfl : result = (.done, device, vendor) := Except.ok.inj (hok.symm.trans hstep)
    obtain ⟨link, hlink, hversion⟩ := hkeeps.seen rfl
    exact ⟨link, hlink,
      fun channel hnonzero => (hkeeps.tracks link hlink).current hn64 (hversion channel) hnonzero⟩

/-- A runtime on fresh pages. -/
def freshRuntime : Mai2Runtime where
  devices _ := .new true
  ledStartLatch _ := List.Vector.replicate 24 0

/-- A pass in which the port opens and takes every frame. -/
def takingTick : SerialTick where
  vendorPresent := false
  found := true
  opens := true
  heartbeatMs := 0
  boardInfoMs := 0
  connectedMs := 0
  readerFails := false
  boardInfo := false
  now := 0
  takes _ := .whole
  touchFrames := 0
  touchLastUpdateMs := 0

/-- A step in which the vendor HID opens, sends an empty report and takes every report. -/
def takingVendorTick : VendorTick where
  available := true
  found := true
  opens := true
  heartbeatMs := 0
  boardInfoMs := 0
  read := some (.empty 65)
  touchMs := 0
  now := 0
  takes _ := .whole

/-- The game sets the billboard. The first pass of the serial loop sends it, and so does the first
step of the vendor loop behind the one that opens the HID. -/
theorem led_updates_delivered_billboard :
    (∃ s session, Run.exec (LedSystem.step 0) (.init freshRuntime 0 0)
        [.billboardSet 0 [1, 2, 3]] = .ok s ∧
      (s.serial.pass (s.runtime.devices 0) takingTick).2.2.session = some session ∧
      Log.last (fun frame => frame[1]? = some 0x15) session.port.sent =
        some (mai2Frame 0x15 (List.replicate 8 [1, 2, 3]).flatten)) ∧
    ∃ s device vendor link, Run.exec (LedSystem.step 0) (.init freshRuntime 0 0)
        [.billboardSet 0 [1, 2, 3], .vendorStep takingVendorTick] = .ok s ∧
      s.vendor.step (s.runtime.devices 0) takingVendorTick = .ok (.done, device, vendor) ∧
      vendor.link = some link ∧
      Log.last (fun report => report[2]? = some 0x15) link.conn.sent =
        some (hidReport 0x15 (List.replicate 8 [1, 2, 3]).flatten) := by
  constructor
  · obtain ⟨s, hs, hserial, -⟩ :=
      led_updates_delivered 0 freshRuntime 0 0 [.billboardSet 0 [1, 2, 3]] (by decide)
    have hstate := Except.ok.inj hs
    subst hstate
    obtain ⟨session, hsession, -, hsent⟩ := hserial takingTick _ _
      (Prod.ext (by decide +kernel : (SerialThread.pass _ _ takingTick).1 = .done) rfl)
    refine ⟨_, session, rfl, hsession, (hsent .billboard (by decide +kernel)).trans ?_⟩
    decide +kernel
  · obtain ⟨s, hs, -, hvendor⟩ := led_updates_delivered 0 freshRuntime 0 0
      [.billboardSet 0 [1, 2, 3], .vendorStep takingVendorTick] (by decide)
    have hstate := Except.ok.inj hs
    subst hstate
    obtain ⟨link, hlink, hsent⟩ := hvendor takingVendorTick _ _ rfl
    refine ⟨_, _, _, link, rfl, rfl, hlink, (hsent .billboard (by decide +kernel)).trans ?_⟩
    decide +kernel

end Affine
