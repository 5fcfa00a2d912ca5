import Affine.Chuni.Thread
import Affine.Lib.Log
import Affine.Lib.Run

set_option relaxedAutoImplicit false
set_option autoImplicit false

/-!
# Whether the slider is started

`chuni_thread` remembers in `lastActive` whether it has started the slider. It sets the variable
whenever it tries to write the start or stop commands, and ignores whether the port takes them, so
the variable tells the truth along a run exactly if the port takes every such command
(`slider_truthful_iff`).

## Main definitions

* `Affine.ChuniEvent`, `Affine.ChuniRun` — the calls of the game and the passes of the thread.
* `Affine.SliderStarted` — both start commands were sent behind the last stop command.
* `Affine.ChuniRun.Truthful` — `lastActive` agrees with the commands that were sent.
* `Affine.ChuniRun.CommandsTaken` — the port takes the start and stop commands of a pass.

## Main results

* `Affine.slider_truthful_iff`.
-/

namespace Affine

open Slice (Exec)

/-- A call of the game, or a pass of the thread. -/
inductive ChuniEvent
  | start
  | stop
  | setLeds (rgb : List UInt8)
  | setAirLedsFromColors (board : UInt8) (rgb : List UInt8)
  | pass (tick : ChuniTick)

/-- An event, for the thread. -/
def ChuniThread.step (e : ChuniEvent) (t : ChuniThread) : Exec ChuniThread :=
  match e with
  | .start => .ok { t with controlPage := t.controlPage.start }
  | .stop => .ok { t with controlPage := t.controlPage.stop }
  | .setLeds rgb => .ok { t with controlPage := t.controlPage.setLeds rgb }
  | .setAirLedsFromColors board rgb =>
    .ok { t with controlPage := t.controlPage.setAirLedsFromColors board rgb }
  | .pass tick => t.pass tick

/-- An event never leaves a buffer, and keeps the bound of the decoder. -/
lemma ChuniThread.step_ok {t : ChuniThread} (hlen : t.parser.len ≤ 128) (e : ChuniEvent) :
    ∃ u, step e t = .ok u ∧ u.parser.len ≤ 128 := by
  cases e with
  | pass tick => exact ChuniThread.pass_ok hlen tick
  | start | stop | setLeds rgb | setAirLedsFromColors board rgb => exact ⟨_, rfl, hlen⟩

/-- The thread, and how many frames the connection had carried at the end of its last pass with
`lastActive` set, if there was such a pass. -/
structure ChuniRun where
  thread : ChuniThread
  activeSent : Option ℕ

namespace ChuniRun

/-- The thread at its start. -/
def init (statePage : ChuniStatePage) (controlPage : ChuniControlPage) : ChuniRun where
  thread := .init statePage controlPage
  activeSent := none

/-- The number of frames is kept up to date at the end of a pass. -/
def record (r : ChuniRun) (u : ChuniThread) : ChuniRun where
  thread := u
  activeSent :=
    if ¬ u.port.isOpen then none
    else if u.lastActive then some u.port.sent.length
    else r.activeSent

/-- A call of the game. -/
def call (r : ChuniRun) (f : ChuniControlPage → ChuniControlPage) : ChuniRun :=
  { r with thread := { r.thread with controlPage := f r.thread.controlPage } }

/-- An event. -/
def step (e : ChuniEvent) (r : ChuniRun) : Exec ChuniRun :=
  match e with
  | .start => .ok (r.call .start)
  | .stop => .ok (r.call .stop)
  | .setLeds rgb => .ok (r.call (·.setLeds rgb))
  | .setAirLedsFromColors board rgb => .ok (r.call (·.setAirLedsFromColors board rgb))
  | .pass tick => r.record <$> r.thread.pass tick

end ChuniRun

/-! ## The commands on a connection -/

def airStartFrame : List UInt8 := sendSliderFrame id sliderCmdAutoAirStart []
def scanStartFrame : List UInt8 := sendSliderFrame id sliderCmdAutoScanStart []
def scanStopFrame : List UInt8 := sendSliderFrame id sliderCmdAutoScanStop []

/-- The frame stops the slider. -/
def isScanStop (frame : List UInt8) : Bool := frame = scanStopFrame

/-- Both start commands were sent behind the last stop command. -/
def SliderStarted (sent : List (List UInt8)) : Prop :=
  airStartFrame ∈ Log.since isScanStop sent ∧ scanStartFrame ∈ Log.since isScanStop sent

instance (sent : List (List UInt8)) : Decidable (SliderStarted sent) :=
  inferInstanceAs (Decidable (_ ∧ _))

/-- Frames with different commands are different. -/
lemma sendSliderFrame_ne {cmd cmd' : UInt8} (h : cmd ≠ cmd') (payload payload' : List UInt8) :
    sendSliderFrame id cmd payload ≠ sendSliderFrame id cmd' payload' := by
  intro heq
  simp only [sendSliderFrame, id_eq, List.cons_append, List.cons.injEq] at heq
  exact h heq.2.1

/-- Frames among which the stop frame is not. -/
lemma isScanStop_eq_false {new : List (List UInt8)} (hnew : scanStopFrame ∉ new) :
    ∀ frame ∈ new, isScanStop frame = false := by
  intro frame hframe
  refine decide_eq_false ?_
  rintro rfl
  exact hnew hframe

/-- With a start command missing from the frames behind the last stop command, the slider is
started by new frames exactly if both commands are among them. -/
lemma started_append_iff {sent new : List (List UInt8)}
    (hsent : ∀ frame ∈ Log.since isScanStop sent, frame ≠ airStartFrame ∧ frame ≠ scanStartFrame)
    (hnew : scanStopFrame ∉ new) :
    SliderStarted (sent ++ new) ↔ airStartFrame ∈ new ∧ scanStartFrame ∈ new := by
  have hair : airStartFrame ∉ Log.since isScanStop sent := fun h => (hsent _ h).1 rfl
  have hscan : scanStartFrame ∉ Log.since isScanStop sent := fun h => (hsent _ h).2 rfl
  rw [SliderStarted, Log.since_append (isScanStop_eq_false hnew), List.mem_append, List.mem_append]
  simp only [hair, hscan, false_or]

/-- A started slider stays started without a new stop command. -/
lemma started_append {sent new : List (List UInt8)} (h : SliderStarted sent)
    (hnew : scanStopFrame ∉ new) : SliderStarted (sent ++ new) := by
  rw [SliderStarted, Log.since_append (isScanStop_eq_false hnew)]
  exact ⟨List.mem_append_left _ h.1, List.mem_append_left _ h.2⟩

namespace ChuniThread

variable {t : ChuniThread} {tick : ChuniTick}

/-- Frames of a pass carry one of its commands. -/
lemma exists_of_mem_taken {frame : List UInt8} {cmd : UInt8} {payload : List UInt8}
    (h : frame ∈ taken tick cmd payload) : frame = sendSliderFrame id cmd payload := by
  unfold taken at h
  split at h
  · exact List.mem_singleton.mp h
  · simp at h

/-- LED frames neither start nor stop the slider. -/
lemma ne_of_mem_ledFrames {frame : List UInt8} (h : frame ∈ t.ledFrames tick) :
    frame ≠ airStartFrame ∧ frame ≠ scanStartFrame ∧ frame ≠ scanStopFrame := by
  have hled : ∃ cmd payload, (cmd = sliderCmdSetLed ∨ cmd = sliderCmdSetAirLed) ∧
      frame = sendSliderFrame id cmd payload := by
    rcases List.mem_append.mp h with h | h <;> split at h
    · simp at h
    · exact ⟨_, _, .inl rfl, exists_of_mem_taken h⟩
    · simp at h
    · exact ⟨_, _, .inr rfl, exists_of_mem_taken h⟩
  obtain ⟨cmd, payload, hcmd, rfl⟩ := hled
  refine ⟨sendSliderFrame_ne ?_ _ _, sendSliderFrame_ne ?_ _ _, sendSliderFrame_ne ?_ _ _⟩ <;>
    rcases hcmd with rfl | rfl <;> decide

/-- The LED frames are not the stop frame. -/
lemma scanStop_notMem_ledFrames (t : ChuniThread) (tick : ChuniTick) :
    scanStopFrame ∉ t.ledFrames tick :=
  fun h => (ne_of_mem_ledFrames h).2.2 rfl

/-- The commands that a pass writes when the slider is to be started. -/
lemma mem_activeFrames_start (hwanted : t.wanted = true) (hlast : t.lastActive = false)
    (tick : ChuniTick) :
    (airStartFrame ∈ t.activeFrames tick ↔ (tick.takes sliderCmdAutoAirStart).ok) ∧
      (scanStartFrame ∈ t.activeFrames tick ↔ (tick.takes sliderCmdAutoScanStart).ok) ∧
      scanStopFrame ∉ t.activeFrames tick := by
  rw [activeFrames, hwanted, hlast]
  cases hair : (tick.takes sliderCmdAutoAirStart).ok <;>
    cases hscan : (tick.takes sliderCmdAutoScanStart).ok <;> simp [taken, hair, hscan] <;> decide

/-- The command that a pass writes when the slider is to be stopped. -/
lemma mem_activeFrames_stop (hwanted : t.wanted = false) (hlast : t.lastActive = true)
    (tick : ChuniTick) :
    (scanStopFrame ∈ t.activeFrames tick ↔ (tick.takes sliderCmdAutoScanStop).ok) ∧
      airStartFrame ∉ t.activeFrames tick ∧ scanStartFrame ∉ t.activeFrames tick := by
  rw [activeFrames, hwanted, hlast]
  cases hstop : (tick.takes sliderCmdAutoScanStop).ok <;> simp [taken, hstop]
  decide

/-- A pass writes neither start nor stop command when nothing changes. -/
lemma activeFrames_eq_nil (h : t.wanted = t.lastActive) : t.activeFrames tick = [] := if_pos h

end ChuniThread

namespace ChuniRun

/-- **`lastActive` is truthful** with the port open: if it is set, then the slider was started
behind the last stop command, and if it is not set after an active period of the connection, then
the stop command was sent behind that period. -/
def Truthful (r : ChuniRun) : Prop :=
  r.thread.port.isOpen →
    (r.thread.lastActive → SliderStarted r.thread.port.sent) ∧
      (r.thread.lastActive = false → ∀ n, r.activeSent = some n →
        scanStopFrame ∈ r.thread.port.sent.drop n)

/-- If a pass ends with an open port and finds that the game wants another state than the one
remembered for this connection, then the port takes the commands for it. -/
def CommandsTaken (r : ChuniRun) (e : ChuniEvent) : Prop :=
  ∀ tick, e = .pass tick → r.thread.EndsOpen tick →
    r.thread.wanted ≠ r.thread.opened.lastActive →
      if r.thread.wanted then
        (tick.takes sliderCmdAutoAirStart).ok ∧ (tick.takes sliderCmdAutoScanStart).ok
      else (tick.takes sliderCmdAutoScanStop).ok

/-- What holds whether or not the port takes the commands: without `lastActive` no start command
was sent behind the last active period, and with it that period lasts. -/
structure Inv (r : ChuniRun) : Prop where
  len : r.thread.parser.len ≤ 128
  closed : r.thread.port.isOpen = false → r.activeSent = none
  active : r.thread.port.isOpen → r.thread.lastActive →
    r.activeSent = some r.thread.port.sent.length
  inactive : r.thread.port.isOpen → r.thread.lastActive = false →
    ∀ frame ∈ r.thread.port.sent.drop (r.activeSent.getD 0),
      frame ≠ airStartFrame ∧ frame ≠ scanStartFrame

variable {r : ChuniRun} {tick : ChuniTick} {u : ChuniThread}

/-- Opening the port keeps the invariant. -/
lemma Inv.opened (h : r.Inv) : Inv { r with thread := r.thread.opened } := by
  cases hopen : r.thread.port.isOpen with
  | true =>
    have heq : r.thread.opened = r.thread := if_pos hopen
    rwa [heq]
  | false =>
    have heq : r.thread.opened = { r.thread with port := .opened }.markConnected :=
      if_neg (by simp [hopen])
    rw [heq]
    exact ⟨h.len, nofun, nofun, fun _ _ => by simp [ChuniThread.markConnected]⟩

/-- Opening the port keeps `lastActive` truthful. -/
lemma Truthful.opened (h : r.Truthful) (hinv : r.Inv) :
    Truthful { r with thread := r.thread.opened } := by
  cases hopen : r.thread.port.isOpen with
  | true =>
    have heq : r.thread.opened = r.thread := if_pos hopen
    rwa [heq]
  | false =>
    have heq : r.thread.opened = { r.thread with port := .opened }.markConnected :=
      if_neg (by simp [hopen])
    rw [heq]
    refine fun _ => ⟨nofun, fun _ n hn => ?_⟩
    rw [show r.activeSent = none from hinv.closed hopen] at hn
    exact absurd hn (by simp)

/-- A pass keeps the invariant, whatever the port takes.

**Proof sketch.** What a pass sends is known (`ChuniThread.pass_open`). A pass with the slider to be
inactive sends no start command, and the stop command if it was active before. -/
lemma Inv.record (hinv : r.Inv) (h : r.thread.pass tick = .ok u) : (r.record u).Inv := by
  obtain ⟨u', hu', hlen⟩ := ChuniThread.pass_ok hinv.len tick
  obtain rfl : u' = u := by rw [hu'] at h; exact Except.ok.inj h
  obtain ⟨-, -, hopen⟩ := ChuniThread.pass_open hinv.len h
  refine ⟨hlen, fun hclosed => ?_, ?_, ?_⟩
  · simp only [ChuniRun.record] at hclosed ⊢
    rw [if_pos (by simp [hclosed])]
  · intro hu hlast
    simp only [ChuniRun.record] at hu hlast ⊢
    rw [if_neg (by simp [hu]), if_pos hlast]
  · intro hu hlast frame hframe
    simp only [ChuniRun.record] at hu hlast hframe
    rw [if_neg (by simp [hu]), if_neg (by simp [hlast])] at hframe
    obtain ⟨hactive, hsent⟩ := hopen hu
    have hwanted : r.thread.opened.wanted = false := by
      rw [ChuniThread.opened_wanted, ← hactive, hlast]
    have hled : ∀ frame ∈ r.thread.opened.ledFrames tick,
        frame ≠ airStartFrame ∧ frame ≠ scanStartFrame :=
      fun frame hf => ⟨(ChuniThread.ne_of_mem_ledFrames hf).1,
        (ChuniThread.ne_of_mem_ledFrames hf).2.1⟩
    rw [hsent] at hframe
    cases hb : r.thread.opened.lastActive with
    | false =>
      rw [ChuniThread.activeFrames_eq_nil (hwanted.trans hb.symm), List.append_nil,
        List.drop_append, List.mem_append] at hframe
      rcases hframe with hframe | hframe
      · exact hinv.opened.inactive r.thread.opened_isOpen hb frame hframe
      · exact hled frame (List.mem_of_mem_drop hframe)
    | true =>
      rw [hinv.opened.active r.thread.opened_isOpen hb, Option.getD_some, List.append_assoc,
        List.drop_left, List.mem_append] at hframe
      rcases hframe with hframe | hframe
      · obtain ⟨-, hair, hscan⟩ := ChuniThread.mem_activeFrames_stop hwanted hb tick
        constructor
        · rintro rfl
          exact hair hframe
        · rintro rfl
          exact hscan hframe
      · exact hled frame hframe

/-- Frames that are sent later do not change what stands at or behind a position. -/
lemma mem_drop_append {frame : List UInt8} {sent new : List (List UInt8)} {n : ℕ}
    (h : frame ∈ sent.drop n) : frame ∈ (sent ++ new).drop n := by
  rw [List.drop_append]
  exact List.mem_append_left _ h

/-- The commands of a pass that ends with an open port. -/
lemma commandsTaken_pass_iff (hends : r.thread.EndsOpen tick) :
    r.CommandsTaken (.pass tick) ↔
      (r.thread.wanted ≠ r.thread.opened.lastActive →
        if r.thread.wanted then
          (tick.takes sliderCmdAutoAirStart).ok ∧ (tick.takes sliderCmdAutoScanStart).ok
        else (tick.takes sliderCmdAutoScanStop).ok) := by
  constructor
  · exact fun h => h tick rfl hends
  · rintro h tick' htick -
    cases htick
    exact h

/-- Truthfulness behind a pass that ends with an open port, in terms of the frames sent. -/
lemma truthful_record_of_open (hu : u.port.isOpen) :
    (r.record u).Truthful ↔
      (u.lastActive → SliderStarted u.port.sent) ∧
        (u.lastActive = false → ∀ n, r.activeSent = some n →
          scanStopFrame ∈ u.port.sent.drop n) := by
  simp only [Truthful, record, hu, forall_const, not_true_eq_false, if_false]
  refine and_congr_right fun _ => forall_congr' fun hlast => ?_
  rw [if_neg (by simp [hlast])]

/-- A pass that ends with an open port keeps `lastActive` truthful exactly if the port takes the
commands of the pass.

**Proof sketch.** If nothing changes, then no start or stop command is written, and LED frames
change nothing. When the slider is to be started, neither start command stands behind the last stop
command (`Inv.inactive`), so both have to be written now. When it is to be stopped, its active
period lasted up to this pass (`Inv.active`), so the stop command has to be written now. -/
theorem truthful_record_iff (hinv : r.Inv) (ht : r.Truthful)
    (h : r.thread.pass tick = .ok u) : (r.record u).Truthful ↔ r.CommandsTaken (.pass tick) := by
  obtain ⟨-, hends, hopen⟩ := ChuniThread.pass_open hinv.len h
  by_cases hu : u.port.isOpen
  swap
  · refine iff_of_true (fun h => absurd h hu) fun tick' htick hopen' => ?_
    cases htick
    exact absurd (hends.mpr hopen') hu
  obtain ⟨hactive, hsent⟩ := hopen hu
  obtain ⟨hstarted, hstopped⟩ := ht.opened hinv r.thread.opened_isOpen
  have hinvOpen := hinv.opened
  have hwanted := r.thread.opened_wanted
  have hled := r.thread.opened.scanStop_notMem_ledFrames tick
  rw [commandsTaken_pass_iff (hends.mp hu), truthful_record_of_open hu, hactive, hsent,
    List.append_assoc]
  cases hw : r.thread.wanted <;> cases hb : r.thread.opened.lastActive
  case false.false =>
    refine iff_of_true ⟨nofun, fun _ n hn => ?_⟩ (fun h => absurd rfl h)
    exact mem_drop_append (hstopped hb n hn)
  case true.true =>
    refine iff_of_true ⟨fun _ => started_append (hstarted hb) ?_, nofun⟩ (fun h => absurd rfl h)
    rw [ChuniThread.activeFrames_eq_nil (by rw [hwanted, hw, hb]), List.nil_append]
    exact hled
  case false.true =>
    obtain ⟨hstop, -⟩ := ChuniThread.mem_activeFrames_stop (hwanted.trans hw) hb tick
    have hperiod : r.activeSent = some r.thread.opened.port.sent.length :=
      hinvOpen.active r.thread.opened_isOpen hb
    simp [hperiod, hstop, hled]
  case true.false =>
    obtain ⟨hair, hscan, hstop⟩ :=
      ChuniThread.mem_activeFrames_start (hwanted.trans hw) hb tick
    have hnone : ∀ frame ∈ Log.since isScanStop r.thread.opened.port.sent,
        frame ≠ airStartFrame ∧ frame ≠ scanStartFrame := by
      intro frame hframe
      refine hinvOpen.inactive r.thread.opened_isOpen hb frame ?_
      cases hperiod : r.activeSent with
      | none => exact Log.mem_of_mem_since hframe
      | some n =>
        exact Log.mem_drop_of_mem_since hframe
          ⟨scanStopFrame, hstopped hb n hperiod, decide_eq_true rfl⟩
    have hairLed : airStartFrame ∉ r.thread.opened.ledFrames tick :=
      fun h => (ChuniThread.ne_of_mem_ledFrames h).1 rfl
    have hscanLed : scanStartFrame ∉ r.thread.opened.ledFrames tick :=
      fun h => (ChuniThread.ne_of_mem_ledFrames h).2.1 rfl
    have hnew : scanStopFrame ∉
        r.thread.opened.activeFrames tick ++ r.thread.opened.ledFrames tick := by
      simp [hstop, hled]
    simp only [reduceCtorEq, false_implies, and_true, true_implies, ne_eq, not_false_eq_true,
      if_true, started_append_iff hnone hnew, List.mem_append, hair, hscan, hairLed, hscanLed,
      or_false]

/-- Every event keeps the invariant. -/
lemma Inv.step {e : ChuniEvent} {r' : ChuniRun} (hinv : r.Inv) (h : step e r = .ok r') :
    r'.Inv := by
  cases e with
  | pass tick =>
    obtain ⟨u, hu, rfl⟩ := Slice.map_eq_ok.mp h
    exact hinv.record hu
  | start | stop | setLeds rgb | setAirLedsFromColors board rgb =>
    cases h
    exact ⟨hinv.len, hinv.closed, hinv.active, hinv.inactive⟩

/-- An event keeps `lastActive` truthful exactly if it is not a pass whose commands the port does
not take. -/
theorem truthful_step_iff {e : ChuniEvent} {r' : ChuniRun} (hinv : r.Inv) (ht : r.Truthful)
    (h : step e r = .ok r') : r'.Truthful ↔ r.CommandsTaken e := by
  cases e with
  | pass tick =>
    obtain ⟨u, hu, rfl⟩ := Slice.map_eq_ok.mp h
    exact truthful_record_iff hinv ht hu
  | start | stop | setLeds rgb | setAirLedsFromColors board rgb =>
    cases h
    exact iff_of_true ht nofun

/-- A run never leaves a buffer. -/
theorem exists_exec (hinv : r.Inv) (events : List ChuniEvent) :
    ∃ r', Run.exec step r events = .ok r' ∧ r'.Inv := by
  refine Run.exists_exec hinv (fun e r hinv => ?_) events
  have hstep : ∃ r', step e r = .ok r' := by
    cases e with
    | pass tick =>
      obtain ⟨u, hu, -⟩ := ChuniThread.pass_ok hinv.len tick
      exact ⟨r.record u, Slice.map_eq_ok.mpr ⟨u, hu, rfl⟩⟩
    | start | stop | setLeds rgb | setAirLedsFromColors board rgb => exact ⟨_, rfl⟩
  obtain ⟨r', hr'⟩ := hstep
  exact ⟨r', hr', hinv.step hr'⟩

/-- The thread starts in the invariant. -/
lemma inv_init (statePage : ChuniStatePage) (controlPage : ChuniControlPage) :
    (init statePage controlPage).Inv := ⟨Nat.zero_le 128, fun _ => rfl, nofun, nofun⟩

end ChuniRun

/-- **The thread is truthful about the slider exactly if its commands are taken**: from any pages,
`lastActive` agrees with the commands on the connection in every state of a run if and only if in
each pass that ends with an open port and has to start or stop the slider, the port takes the start
commands or the stop command.

**Proof sketch.** `truthful_step_iff` for each step, with the invariant `ChuniRun.Inv`. -/
theorem slider_truthful_iff (statePage : ChuniStatePage) (controlPage : ChuniControlPage)
    (events : List ChuniEvent) :
    Run.Always ChuniRun.step (.init statePage controlPage) events ChuniRun.Truthful ↔
      Run.EachStep ChuniRun.step (.init statePage controlPage) events ChuniRun.CommandsTaken :=
  Run.always_iff (I := ChuniRun.Inv) (ChuniRun.inv_init statePage controlPage)
    (fun _ _ _ h hstep => h.step hstep) nofun
    fun _ _ _ hinv ht h => ChuniRun.truthful_step_iff hinv ht h

/-- A pass in which the port opens and takes every frame but the one that starts the scan. -/
def scanStartLost : ChuniTick where
  found := true
  opens := true
  takes cmd := if cmd = sliderCmdAutoScanStart then .failed 0 else .whole
  read := some ⟨[], Nat.zero_le 64⟩

/-- The game starts the slider, and the frame that starts the scan is lost: the thread remembers
that the slider is active. -/
theorem lost_start_remembered :
    ¬ Run.Always ChuniRun.step (.init .default .default) [.start, .pass scanStartLost]
      ChuniRun.Truthful := by
  intro h
  obtain ⟨r, hr, -⟩ := ChuniRun.exists_exec (ChuniRun.inv_init .default .default)
    [.start, .pass scanStartLost]
  have hstate : (Run.exec ChuniRun.step (.init .default .default)
      [.start, .pass scanStartLost]).map (fun r =>
        (r.thread.port.isOpen, r.thread.lastActive, r.thread.port.sent)) =
      .ok (true, true, [airStartFrame]) := by decide +kernel
  rw [hr] at hstate
  simp only [Except.map, Except.ok.injEq, Prod.mk.injEq] at hstate
  obtain ⟨hopen, hactive, hsent⟩ := hstate
  have hstarted := (h _ r (List.prefix_refl _) hr hopen).1 hactive
  rw [hsent] at hstarted
  exact absurd hstarted (by decide)

end Affine
