import Affine.Chuni.Started

set_option relaxedAutoImplicit false
set_option autoImplicit false

/-!
# The LEDs on a connection

`chuni_thread` writes the colours of a channel when the sequence of the control page differs from
the one it has remembered. It remembers a sequence whether or not the port takes the frame, and
keeps it when the port closes. So a new connection shows nothing until the game makes the next call,
and a frame that the port does not take is not repeated (`chuni_leds_shown_iff`).

## Main definitions

* `Affine.ChuniLedChannel` — the slider LEDs and the air LEDs.
* `Affine.ChuniLedRun` — the thread, with the control snapshot of its last pass.
* `Affine.ChuniLedRun.LedsShown` — the connection shows the colours of the snapshot.
* `Affine.ChuniLedRun.LedsSent` — a pass does not have to rely on a frame that it does not send.

## Main results

* `Affine.ChuniLedChannel.shows_pass` — the last frame of a channel behind a pass.
* `Affine.chuni_leds_shown_iff`.
-/

namespace Affine

open Slice (Exec)

/-- The two LED channels of the slider. -/
inductive ChuniLedChannel
  | slider
  | air
  deriving DecidableEq

namespace ChuniLedChannel

/-- The command of the frames of the channel. -/
def cmd : ChuniLedChannel → UInt8
  | slider => sliderCmdSetLed
  | air => sliderCmdSetAirLed

/-- The sequence of the channel on the control page. -/
def sequence : ChuniLedChannel → ChuniControlPage → UInt64
  | slider, page => page.sliderLedsSequence
  | air, page => page.airLedsSequence

/-- The colours of the channel on the control page. -/
def colours : ChuniLedChannel → ChuniControlPage → List UInt8
  | slider, page => page.sliderLeds.toList
  | air, page => page.airLeds.toList

/-- The sequence of the channel that the thread remembers. -/
def last : ChuniLedChannel → ChuniThread → UInt64
  | slider, t => t.lastSliderLedsSequence
  | air, t => t.lastAirLedsSequence

/-- The frame with the colours of the channel. -/
def frame (c : ChuniLedChannel) (page : ChuniControlPage) : List UInt8 :=
  sendSliderFrame id c.cmd (c.colours page)

/-- The frames of the channel that a pass sends. -/
def frames (c : ChuniLedChannel) (t : ChuniThread) (tick : ChuniTick) : List (List UInt8) :=
  if c.sequence t.controlPage = c.last t then []
  else ChuniThread.taken tick c.cmd (c.colours t.controlPage)

/-- The frame sets the colours of the channel. -/
def sets (c : ChuniLedChannel) (frame : List UInt8) : Bool := frame[1]? = some c.cmd

/-- The last frame of the channel on a connection carries the colours of the page. -/
def Shows (c : ChuniLedChannel) (sent : List (List UInt8)) (page : ChuniControlPage) : Prop :=
  Log.last c.sets sent = some (c.frame page)

instance (c : ChuniLedChannel) (sent : List (List UInt8)) (page : ChuniControlPage) :
    Decidable (c.Shows sent page) :=
  inferInstanceAs (Decidable (_ = _))

end ChuniLedChannel

/-- The thread, and the control snapshot of its last pass if that ended with an open port. -/
abbrev ChuniLedRun := ChuniThread × Option ChuniControlPage

namespace ChuniLedRun

/-- The thread at its start. -/
def init (statePage : ChuniStatePage) (controlPage : ChuniControlPage) : ChuniLedRun :=
  (.init statePage controlPage, none)

/-- The snapshot of a pass is noted at its end. -/
def note (e : ChuniEvent) (t u : ChuniThread) (snapshot : Option ChuniControlPage) :
    Option ChuniControlPage :=
  match e with
  | .pass _ => if u.port.isOpen then some t.controlPage else none
  | _ => snapshot

/-- An event. -/
def step : ChuniEvent → ChuniLedRun → Exec ChuniLedRun := Run.observed ChuniThread.step note

variable (r : ChuniLedRun)

/-- **The LEDs are shown**: behind a pass with an open port, the last frame of each channel that the
game has set carries the colours of the snapshot. -/
def LedsShown : Prop :=
  ∀ page, r.2 = some page → ∀ c : ChuniLedChannel, c.sequence page ≠ 0 → c.Shows r.1.port.sent page

/-- A pass that ends with an open port, for a channel that the game has set. If the sequence is not
the remembered one, then the port takes the frame, or the connection shows the colours already. If
it is the remembered one, then the last pass was on the same connection and saw the same colours. -/
def LedsSent (e : ChuniEvent) : Prop :=
  ∀ tick, e = .pass tick → r.1.EndsOpen tick → ∀ c : ChuniLedChannel,
    c.sequence r.1.controlPage ≠ 0 →
      if c.sequence r.1.controlPage = c.last r.1 then
        ∃ page, r.2 = some page ∧ c.colours page = c.colours r.1.controlPage
      else (tick.takes c.cmd).ok = true ∨ r.1.port.isOpen ∧ c.Shows r.1.port.sent r.1.controlPage

end ChuniLedRun

namespace ChuniLedChannel

variable {c : ChuniLedChannel} {t u : ChuniThread} {tick : ChuniTick}

/-- The last frame of the channel among the frames of a command. -/
lemma last_taken (cmd : UInt8) (payload : List UInt8) :
    Log.last c.sets (ChuniThread.taken tick cmd payload) =
      if cmd = c.cmd ∧ (tick.takes cmd).ok = true then some (sendSliderFrame id cmd payload)
      else none := by
  have hsets : c.sets (sendSliderFrame id cmd payload) = decide (cmd = c.cmd) := by
    simp [sets, sendSliderFrame]
  unfold ChuniThread.taken
  by_cases htakes : (tick.takes cmd).ok = true
  · by_cases hcmd : cmd = c.cmd
    · rw [if_pos htakes, if_pos ⟨hcmd, htakes⟩, Log.last, List.filter_singleton, hsets,
        decide_eq_true hcmd]
      rfl
    · rw [if_pos htakes, if_neg fun h => hcmd h.1, Log.last, List.filter_singleton, hsets,
        decide_eq_false hcmd]
      rfl
  · rw [if_neg htakes, if_neg fun h => htakes h.2]
    rfl

/-- The start and stop frames set no colours. -/
lemma last_activeFrames : Log.last c.sets (t.activeFrames tick) = none := by
  have hother (cmd : UInt8) (hcmd : cmd ≠ c.cmd) :
      Log.last c.sets (ChuniThread.taken tick cmd []) = none := by
    rw [last_taken, if_neg fun h => hcmd h.1]
  unfold ChuniThread.activeFrames
  split
  · rfl
  · split
    · rw [Log.last_append, hother _ (by cases c <;> decide), hother _ (by cases c <;> decide)]
      rfl
    · exact hother _ (by cases c <;> decide)

/-- The frames for a channel set its colours and no others. -/
lemma last_frames (c' : ChuniLedChannel) :
    Log.last c.sets (c'.frames t tick) =
      if c' = c ∧ c.sequence t.controlPage ≠ c.last t ∧ (tick.takes c.cmd).ok = true then
        some (c.frame t.controlPage)
      else none := by
  have hcmd : c'.cmd = c.cmd ↔ c' = c := by cases c <;> cases c' <;> decide
  unfold frames
  by_cases hseq : c'.sequence t.controlPage = c'.last t
  · rw [if_pos hseq, if_neg]
    · rfl
    · rintro ⟨rfl, hne, -⟩
      exact hne hseq
  · rw [if_neg hseq, last_taken]
    simp only [hcmd]
    by_cases hc : c' = c
    · subst hc
      simp [hseq, frame]
    · rw [if_neg fun h => hc h.1, if_neg fun h => hc h.1]

/-- The LED frames of a pass set the colours of the channel if its sequence is new and the port
takes the frame. -/
lemma last_ledFrames :
    Log.last c.sets (t.ledFrames tick) =
      if c.sequence t.controlPage ≠ c.last t ∧ (tick.takes c.cmd).ok = true then
        some (c.frame t.controlPage)
      else none := by
  have hframes : t.ledFrames tick = slider.frames t tick ++ air.frames t tick := rfl
  rw [hframes, Log.last_append, last_frames, last_frames]
  cases c with
  | slider => simp
  | air => simp

/-- Two pages have the same frame for the channel exactly if they have the same colours. -/
lemma frame_inj {page page' : ChuniControlPage} :
    c.frame page = c.frame page' ↔ c.colours page = c.colours page' := by
  constructor
  · intro h
    have hlen : (c.colours page).length = (c.colours page').length := by
      cases c <;> simp [colours]
    simp only [frame, sendSliderFrame, id_eq, List.append_assoc] at h
    have hpayload := (List.append_inj h rfl).2
    exact (List.append_inj hpayload hlen).1
  · intro h
    rw [frame, frame, h]

/-- **The last frame of the channel behind a pass** is the one that the pass sends, or else the last
one that the connection had before.

**Proof sketch.** A new connection has carried nothing. On an open one, the frames of the pass come
behind those before it, and among them only the LED frame of the channel is of its kind. -/
lemma shows_pass (hlen : t.parser.len ≤ 128) (h : t.pass tick = .ok u) (hu : u.port.isOpen) :
    c.Shows u.port.sent t.controlPage ↔
      c.sequence t.controlPage ≠ c.last t ∧ (tick.takes c.cmd).ok = true ∨
        t.port.isOpen ∧ c.Shows t.port.sent t.controlPage := by
  obtain ⟨-, -, hopen⟩ := ChuniThread.pass_open hlen h
  obtain ⟨-, hsent⟩ := hopen hu
  have hlast : c.last t.opened = c.last t := by
    unfold ChuniThread.opened
    split
    · rfl
    · cases c <;> rfl
  have hbefore : c.Shows t.opened.port.sent t.controlPage ↔
      t.port.isOpen ∧ c.Shows t.port.sent t.controlPage := by
    unfold ChuniThread.opened
    split
    · rename_i hport
      exact (and_iff_right hport).symm
    · rename_i hport
      -- a new connection has carried nothing
      exact iff_of_false (by simp [Shows, Log.last, ChuniThread.markConnected]) fun h => hport h.1
  rw [← hbefore, Shows, hsent, Log.last_append, last_ledFrames, Log.last_append, last_activeFrames,
    Option.none_or, t.opened_controlPage, hlast]
  split
  · rename_i hnew
    simp [hnew]
  · rename_i hold
    rw [Option.none_or]
    exact ⟨.inr, fun h => h.resolve_left hold⟩

end ChuniLedChannel

namespace ChuniLedRun

/-- What holds whether or not the port takes the frames: the thread remembers the sequences of the
last snapshot, while the port is open. -/
structure Inv (r : ChuniLedRun) : Prop where
  len : r.1.parser.len ≤ 128
  snapshot : r.1.port.isOpen ↔ r.2.isSome
  last : ∀ page, r.2 = some page → ∀ c : ChuniLedChannel, c.last r.1 = c.sequence page

variable {r r' : ChuniLedRun} {e : ChuniEvent} {tick : ChuniTick} {u : ChuniThread}

/-- The thread starts in the invariant: nothing was sent, and nothing is remembered. -/
lemma inv_init (statePage : ChuniStatePage) (controlPage : ChuniControlPage) :
    (init statePage controlPage).Inv :=
  ⟨Nat.zero_le 128, iff_of_false (by simp [init, ChuniThread.init, SerialPort.default]) nofun,
    nofun⟩

/-- A call of the game changes the control page and nothing else. -/
lemma step_call (he : ∀ tick, e ≠ .pass tick) (h : step e r = .ok r') :
    ∃ page, r' = ({ r.1 with controlPage := page }, r.2) := by
  obtain ⟨u, hu, rfl⟩ := Run.observed_eq_ok.mp h
  cases e with
  | start | stop | setLeds rgb | setAirLedsFromColors board rgb =>
    cases hu
    exact ⟨_, rfl⟩
  | pass tick => exact absurd rfl (he tick)

/-- A pass notes its snapshot, if the port is open at its end. -/
lemma step_pass (h : step (.pass tick) r = .ok r') :
    ∃ u, r.1.pass tick = .ok u ∧
      r' = (u, if u.port.isOpen then some r.1.controlPage else none) := by
  obtain ⟨u, hu, rfl⟩ := Run.observed_eq_ok.mp h
  exact ⟨u, hu, rfl⟩

/-- Every event keeps the invariant.

**Proof sketch.** A pass is `ChuniThread.pass_open`; the other events change the pages only. -/
lemma Inv.step (hinv : r.Inv) (h : ChuniLedRun.step e r = .ok r') : r'.Inv := by
  by_cases he : ∃ tick, e = .pass tick
  · obtain ⟨tick, rfl⟩ := he
    obtain ⟨u, hu, rfl⟩ := step_pass h
    obtain ⟨u', hu', hlen⟩ := ChuniThread.pass_ok hinv.len tick
    obtain rfl : u' = u := Except.ok.inj (hu'.symm.trans hu)
    refine ⟨hlen, ?_, ?_⟩
    · show u'.port.isOpen ↔ (if u'.port.isOpen then some r.1.controlPage else none).isSome
      split <;> simp_all
    · intro page hpage c
      simp only [Option.ite_none_right_eq_some, Option.some.injEq] at hpage
      obtain ⟨hopen, rfl⟩ := hpage
      obtain ⟨hslider, hair⟩ := ChuniThread.pass_sequences hinv.len hu hopen
      cases c with
      | slider => exact hslider
      | air => exact hair
  · obtain ⟨page, rfl⟩ := step_call (fun tick htick => he ⟨tick, htick⟩) h
    refine ⟨hinv.len, hinv.snapshot, fun page' hpage' c => ?_⟩
    rw [← hinv.last page' hpage' c]
    cases c <;> rfl

/-- A pass that ends with an open port shows the colours of a channel exactly under the condition.

**Proof sketch.** If the sequence is new, then this is `ChuniLedChannel.shows_pass`. If it is the
remembered one, then nothing is sent. The connection shows the colours that the last pass saw, so
these have to be the colours of now; a new connection shows nothing. -/
lemma shows_iff (hinv : r.Inv) (hshown : r.LedsShown) (h : r.1.pass tick = .ok u)
    (hu : u.port.isOpen) {c : ChuniLedChannel} (hset : c.sequence r.1.controlPage ≠ 0) :
    c.Shows u.port.sent r.1.controlPage ↔
      if c.sequence r.1.controlPage = c.last r.1 then
        ∃ page, r.2 = some page ∧ c.colours page = c.colours r.1.controlPage
      else (tick.takes c.cmd).ok = true ∨ r.1.port.isOpen ∧ c.Shows r.1.port.sent r.1.controlPage := by
  rw [ChuniLedChannel.shows_pass hinv.len h hu]
  split
  · rename_i hseq
    rw [or_iff_right fun h => h.1 hseq, hinv.snapshot]
    constructor
    · rintro ⟨hsome, hnow⟩
      obtain ⟨page, hpage⟩ := Option.isSome_iff_exists.mp hsome
      have hthen : c.Shows r.1.port.sent page :=
        hshown page hpage c (by rwa [← hinv.last page hpage c, ← hseq])
      rw [ChuniLedChannel.Shows] at hthen hnow
      exact ⟨page, hpage, ChuniLedChannel.frame_inj.mp (Option.some.inj (hthen.symm.trans hnow))⟩
    · rintro ⟨page, hpage, hcolours⟩
      have hthen : c.Shows r.1.port.sent page :=
        hshown page hpage c (by rwa [← hinv.last page hpage c, ← hseq])
      rw [ChuniLedChannel.Shows, ChuniLedChannel.frame_inj.mpr hcolours] at hthen
      exact ⟨by rw [hpage]; rfl, hthen⟩
  · rename_i hseq
    rw [and_iff_right hseq]

/-- **What an event does to the LEDs**: they stay shown exactly if the event is not a pass that
relies on a frame it does not send.

**Proof sketch.** Only a pass sends frames. If the port is open behind it, each channel is
`shows_iff`. -/
theorem ledsShown_step_iff (hinv : r.Inv) (hshown : r.LedsShown)
    (h : ChuniLedRun.step e r = .ok r') : r'.LedsShown ↔ r.LedsSent e := by
  by_cases he : ∃ tick, e = .pass tick
  · obtain ⟨tick, rfl⟩ := he
    obtain ⟨u, hu, rfl⟩ := step_pass h
    obtain ⟨-, hends, -⟩ := ChuniThread.pass_open hinv.len hu
    by_cases hopen : u.port.isOpen
    · have hafter : LedsShown (u, if u.port.isOpen then some r.1.controlPage else none) ↔
          ∀ c : ChuniLedChannel, c.sequence r.1.controlPage ≠ 0 →
            c.Shows u.port.sent r.1.controlPage := by
        simp [LedsShown, hopen]
      rw [hafter]
      constructor
      · rintro hshows tick' htick - c hset
        cases htick
        exact (shows_iff hinv hshown hu hopen hset).mp (hshows c hset)
      · intro hsent c hset
        exact (shows_iff hinv hshown hu hopen hset).mpr
          (hsent tick rfl (hends.mp hopen) c hset)
    · refine iff_of_true ?_ ?_
      · simp [LedsShown, hopen]
      · intro tick' htick hends'
        cases htick
        exact absurd (hends.mpr hends') hopen
  · have hcall (tick : ChuniTick) : e ≠ .pass tick := fun htick => he ⟨tick, htick⟩
    obtain ⟨page, rfl⟩ := step_call hcall h
    exact iff_of_true hshown fun tick htick => absurd htick (hcall tick)

/-- A run never leaves a buffer. -/
lemma exists_exec (hinv : r.Inv) (events : List ChuniEvent) :
    ∃ r', Run.exec step r events = .ok r' ∧ r'.Inv := by
  refine Run.exists_exec hinv (fun e r hinv => ?_) events
  obtain ⟨u, hu, -⟩ := ChuniThread.step_ok hinv.len e
  have hstep : step e r = .ok (u, note e r.1 u r.2) := Run.observed_eq_ok.mpr ⟨u, hu, rfl⟩
  exact ⟨_, hstep, hinv.step hstep⟩

end ChuniLedRun

/-- **When the LEDs are shown**: from any pages, behind every pass of a run with an open port the
last frame of each channel that the game has set carries the colours of the snapshot, if and only if
each such pass finds a sequence it has not remembered and a port that takes the frame, or colours
that the connection shows already.

**Proof sketch.** `ChuniLedRun.ledsShown_step_iff` for each step, with the invariant
`ChuniLedRun.Inv`. -/
theorem chuni_leds_shown_iff (statePage : ChuniStatePage) (controlPage : ChuniControlPage)
    (events : List ChuniEvent) :
    Run.Always ChuniLedRun.step (.init statePage controlPage) events ChuniLedRun.LedsShown ↔
      Run.EachStep ChuniLedRun.step (.init statePage controlPage) events ChuniLedRun.LedsSent :=
  Run.always_iff (I := ChuniLedRun.Inv) (ChuniLedRun.inv_init statePage controlPage)
    (fun _ _ _ hinv h => hinv.step h) nofun
    fun _ _ _ hinv hshown h => ChuniLedRun.ledsShown_step_iff hinv hshown h

/-- A pass in which the port opens, takes every frame and brings no bytes. -/
def quietTick : ChuniTick where
  found := true
  opens := true
  takes _ := .whole
  read := some (.empty 64)

/-- The game sets the slider LEDs once. The colours are shown, the read fails, and the port opens
again: nothing is sent on the new connection. -/
theorem leds_dark_after_reconnect :
    ¬ Run.Always ChuniLedRun.step (.init .default .default)
      [.setLeds (List.replicate 96 0x10), .pass quietTick, .pass { quietTick with read := none },
        .pass quietTick] ChuniLedRun.LedsShown := by
  intro h
  obtain ⟨r, hr, -⟩ := ChuniLedRun.exists_exec (ChuniLedRun.inv_init .default .default)
    [.setLeds (List.replicate 96 0x10), .pass quietTick, .pass { quietTick with read := none },
      .pass quietTick]
  have hstate : (Run.exec ChuniLedRun.step (.init .default .default)
      [.setLeds (List.replicate 96 0x10), .pass quietTick, .pass { quietTick with read := none },
        .pass quietTick]).map (fun r =>
          (r.2.map ChuniControlPage.sliderLedsSequence, r.1.port.sent)) =
      .ok (some 1, []) := by decide +kernel
  rw [hr] at hstate
  simp only [Except.map, Except.ok.injEq, Prod.mk.injEq, Option.map_eq_some_iff] at hstate
  obtain ⟨⟨page, hpage, hsequence⟩, hsent⟩ := hstate
  have hset : ChuniLedChannel.slider.sequence page ≠ 0 := by
    rw [ChuniLedChannel.sequence, hsequence]
    decide
  have hshows := h _ r (List.prefix_refl _) hr page hpage .slider hset
  rw [ChuniLedChannel.Shows, hsent] at hshows
  exact absurd hshows (by simp [Log.last])

end Affine
