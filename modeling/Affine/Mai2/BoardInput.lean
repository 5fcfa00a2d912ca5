import Affine.Mai2.ClosedSession

set_option relaxedAutoImplicit false
set_option autoImplicit false

/-!
# What the board has sent

The way of the input from the serial port of a mai2 player to its input page
(`serial_reader_thread`, `apply_device_frame` and `device_thread` in `affine-mai2/src/lib.rs`), over
any number of sessions, in every interleaving of the device thread, its readers and the game, as
long as no HID source is connected. The page shows the frames in the bytes that the reader has taken
so far, apart from frames of the last byte that it has still to apply.

## Main definitions

* `Affine.BoardState` — the input of a board, and how frames change it.
* `Affine.WatchedRace` — a player, with the bytes that the reader has taken of the present session.
* `Affine.WatchedRace.Shows` — the page shows the frames in these bytes.

## Main results

* `Affine.WatchedRace.Shows.step`, `Affine.WatchedRace.exists_shows` — every step keeps this.
* `Affine.decode_items` — the frames in bytes that are pieces of a stream, with a part of the next.
-/

namespace Affine

/-! ## The input of a board -/

/-- The input of a board: its buttons, its status bits, and its touch sensors. -/
structure BoardState where
  buttons0 : UInt8
  ioStatus : UInt8
  touch : List.Vector UInt8 7
  deriving DecidableEq

namespace BoardState

/-- No input. -/
def idle : BoardState where
  buttons0 := 0
  ioStatus := 0
  touch := noTouch

/-- A frame tells what it has, and leaves the rest. -/
def apply (b : BoardState) : ParsedFrame → BoardState
  | .touch buttons0 ioStatus touch =>
    { buttons0 := buttons0.getD b.buttons0
      ioStatus := ioStatus.getD b.ioStatus
      touch := touch.getD b.touch }
  | .boardInfo _ => b

/-- The input behind frames. -/
def after (frames : List ParsedFrame) : BoardState := frames.foldl apply idle

/-- Without frames there is no input. -/
@[simp] lemma after_nil : after [] = idle := rfl

/-- The last frame is applied to what the others leave. -/
@[simp] lemma after_concat (frames : List ParsedFrame) (frame : ParsedFrame) :
    after (frames ++ [frame]) = (after frames).apply frame := by
  rw [after, List.foldl_append]
  rfl

end BoardState

/-- The page shows an input; before it has been marked connected it shows none. -/
structure Mai2InputPage.IsInput (page : Mai2InputPage) (b : BoardState) : Prop where
  buttons0 : page.buttons0 = b.buttons0
  ioStatus : page.ioStatus = b.ioStatus
  touch : page.touch = b.touch
  apart : page.connected = 0 → b = .idle

namespace Mai2InputPage

/-- The default page holds no input. -/
lemma isInput_default : Mai2InputPage.default.IsInput .idle := ⟨rfl, rfl, rfl, fun _ => rfl⟩

/-- A page that is marked connected shows the same input. -/
lemma IsInput.markConnected {d : DeviceHandle} {b : BoardState} (h : d.inputPage.IsInput b) :
    d.markConnected.inputPage.IsInput b :=
  ⟨h.buttons0, h.ioStatus, h.touch,
    fun hzero => absurd (show (1 : UInt8) = 0 from hzero) (by decide)⟩

/-- The update of a page for a touch frame. -/
lemma IsInput.applyDeviceFrame {d : DeviceHandle} {b : BoardState} (h : d.inputPage.IsInput b)
    (buttons0 ioStatus : Option UInt8) (touch : Option (List.Vector UInt8 7))
    (source : TouchSource) (now : UInt64) :
    (d.applyDeviceFrame buttons0 ioStatus touch source now).inputPage.IsInput
      (b.apply (.touch buttons0 ioStatus touch)) := by
  rw [d.applyDeviceFrame_inputPage]
  refine ⟨?_, ?_, ?_, fun hzero => absurd (show (1 : UInt8) = 0 from hzero) (by decide)⟩
  · exact congrArg buttons0.getD h.buttons0
  · exact congrArg ioStatus.getD h.ioStatus
  · exact congrArg touch.getD h.touch

end Mai2InputPage

/-! ## Pieces of a stream -/

/-- A part of a piece that is not whole, or nothing. -/
def StreamItem.Incomplete (part : List UInt8) : Prop :=
  ∃ item : StreamItem, part <+: item.bytes ∧ part ≠ item.bytes

/-- The scanner waits at a part of a piece, because its decisions are final. -/
lemma StreamItem.Incomplete.head {part : List UInt8} (h : StreamItem.Incomplete part) :
    mai2Scanner.head part = none := by
  obtain ⟨item, ⟨rest, hrest⟩, hne⟩ := h
  cases hhead : mai2Scanner.head part with
  | none => rfl
  | some x =>
    have hwhole := mai2Scanner.stable hhead rest
    rw [hrest, item.head_bytes, Option.some_inj] at hwhole
    have hle := mai2Scanner.le (n := x.1) (r := x.2) hhead
    rw [← hwhole, ← hrest, List.length_append] at hle
    have hnil : rest = [] := List.length_eq_zero_iff.mp (by omega)
    rw [hnil, List.append_nil] at hrest
    exact absurd hrest hne

/-- **The frames in pieces**, of which the last may not be whole. -/
lemma decode_items (items : List StreamItem) {part : List UInt8}
    (hpart : StreamItem.Incomplete part) :
    mai2Scanner.decode (items.flatMap StreamItem.bytes ++ part) =
      (items.filterMap StreamItem.frame, part) := by
  have hdecode := mai2Scanner.decode_flatMap StreamItem.bytes StreamItem.frame items
    fun item _ => item.head_bytes
  rw [mai2Scanner.decode_append, hdecode, List.nil_append,
    mai2Scanner.decode_eq_none hpart.head, List.append_nil]

/-! ## A watched player -/

/-- A HID thread that has no device leaves the page. -/
lemma HidRace.Step.apart_inputPage {s t : HidRace} (h : s.Step t)
    (hapart : ∀ i, s.pc i = .apart) : t.device.inputPage = s.device.inputPage := by
  cases h with
  | retry i _ => exact s.device.storeFlag_inputPage i false
  | connect i _ => exact s.device.storeFlag_inputPage i true
  | markConnected i hpc | touchFrame touch now hpc | buttonReport report now hpc | drop i hpc
  | clear i c hpc | vendorLoad buttons0 ioStatus touch hpc
  | vendorApply useHidButtons buttons0 ioStatus touch now hpc =>
    rw [hapart] at hpc
    cases hpc

/-- A store to the flags of a session leaves the readers and the device. -/
lemma SerialRace.storeFlags_frame (s : SerialRace) (i : ℕ) (store : LoopVars → LoopVars) :
    (s.storeFlags i store).readers = s.readers ∧ (s.storeFlags i store).device = s.device := by
  unfold storeFlags
  split
  · exact ⟨rfl, rfl⟩
  · exact ⟨rfl, rfl⟩

/-- The frames that the reader has still to apply. -/
def ReaderPc.pending : ReaderPc → List ParsedFrame
  | serving _ frames | logging _ frames => frames
  | applying _ buttons0 ioStatus touch _ frames => .touch buttons0 ioStatus touch :: frames
  | _ => []

/-- The byte that the reader takes next, if its step is to take one. -/
def ReaderPc.takes : ReaderPc → List UInt8
  | serving (byte :: _) [] => [byte]
  | _ => []

/-- A player, with the bytes that the reader has taken since the page was last reset. -/
structure WatchedRace where
  race : SerialRace
  taken : List UInt8

namespace WatchedRace

/-- The threads at their start, with a fresh input page. -/
def start (enabled : Bool) (outputPage : Mai2OutputPage) (now : UInt64) : WatchedRace where
  race := .start enabled .default outputPage now
  taken := []

/-- The bytes that a reader takes in its step. -/
def takes (w : WatchedRace) (i : ℕ) : List UInt8 :=
  (w.race.readers[i]?.map fun r => r.pc.takes).getD []

/-- The steps of the threads while no HID source is connected. The device thread resets the page
when a session has ended. -/
inductive Step (w : WatchedRace) : WatchedRace → Prop
  | device (tick : SerialTick) (t : SerialRace) (h : w.race.deviceStep tick = some t) :
      Step w ⟨t, match w.race.thread.pc with | .update _ => [] | _ => w.taken⟩
  | reader (i : ℕ) (read : PortRead 256) (now : UInt64) (t : SerialRace)
      (h : w.race.readerStep i read now = some t) : Step w ⟨t, w.taken ++ w.takes i⟩
  | hid (r : HidRace) (h : w.race.hidRace.Step r) (hapart : ∀ i, r.pc i = .apart) :
      Step w ⟨{ w.race with device := r.device, hid := r.pc }, w.taken⟩
  | output (page : Mai2OutputPage) :
      Step w ⟨{ w.race with device := { w.race.device with outputPage := page } }, w.taken⟩

/-- Frames that are some of those in bytes: all but some of those that the last byte ends. -/
def Nearly (taken : List UInt8) (frames : List ParsedFrame) : Prop :=
  (mai2Scanner.decode taken.dropLast).1 <+: frames ∧ frames <+: (mai2Scanner.decode taken).1

/-- A reader that runs waits behind the bytes that it has taken, and has applied the frames in them,
apart from those that are pending. It has found no HID source connected. -/
structure ReaderShows (taken : List UInt8) (frames : List ParsedFrame) (r : SerialReader) : Prop where
  waiting : r.rx.Waiting
  live : r.rx.live = (mai2Scanner.decode taken).2
  pending : frames ++ r.pc.pending = (mai2Scanner.decode taken).1
  serial : ∀ useSerialButtons buttons0 ioStatus touch bytes rest,
    r.pc = .applying useSerialButtons buttons0 ioStatus touch bytes rest → useSerialButtons = true

/-- **The page shows what the board has sent**: the frames that have been applied, which are those
in the bytes that the reader has taken, apart from the ones that it has still to apply. -/
structure Shows (w : WatchedRace) (frames : List ParsedFrame) : Prop where
  inv : w.race.Inv
  apart : ∀ i, w.race.hid i = .apart
  page : w.race.device.inputPage.IsInput (.after frames)
  last : (mai2Scanner.decode w.taken.dropLast).1 <+: frames
  reader : ∀ (i : ℕ) (r : SerialReader), w.race.readers[i]? = some r → r.pc ≠ .finished →
    ReaderShows w.taken frames r
  ended : (∀ (i : ℕ) (r : SerialReader), w.race.readers[i]? = some r → r.pc = .finished) →
    frames = (mai2Scanner.decode w.taken).1
  fresh : w.race.thread.session = none → w.race.thread.pc.sessionTaken = false →
    w.taken = [] ∧ frames = []
  reset : w.race.thread.pc ≠ .update true

variable {w w' : WatchedRace} {frames : List ParsedFrame} {t : SerialRace}

/-- No HID source is connected. -/
lemma Shows.noHid (h : w.Shows frames) : w.race.NoHid := by
  intro i
  rw [← Bool.not_eq_true, h.inv.hid i, h.apart i]
  exact id

/-- The threads start with a page that shows no input. -/
lemma shows_start (enabled : Bool) (outputPage : Mai2OutputPage) (now : UInt64) :
    (start enabled outputPage now).Shows [] where
  inv := SerialRace.inv_start _ _ _ _
  apart _ := rfl
  page := Mai2InputPage.isInput_default
  last := List.prefix_refl _
  reader i r hr := by cases hr
  ended _ := rfl
  fresh _ _ := ⟨rfl, rfl⟩
  reset := nofun

/-- The frames that have been applied are nearly those in the bytes that have been taken. -/
lemma Shows.nearly (h : w.Shows frames) : Nearly w.taken frames := by
  refine ⟨h.last, ?_⟩
  by_cases hended : ∀ (i : ℕ) (r : SerialReader), w.race.readers[i]? = some r → r.pc = .finished
  · rw [h.ended hended]
  · push Not at hended
    obtain ⟨i, r, hr, hrun⟩ := hended
    rw [← (h.reader i r hr hrun).pending]
    exact List.prefix_append _ _

/-! ## The steps -/

/-- A step that leaves the readers, the page and the HID threads. -/
lemma Shows.keep (h : w.Shows frames) (hinv : t.Inv) (hreaders : t.readers = w.race.readers)
    (hpage : t.device.inputPage.IsInput (.after frames)) (hhid : t.hid = w.race.hid)
    (hfresh : t.thread.session = none → t.thread.pc.sessionTaken = false →
      w.taken = [] ∧ frames = [])
    (hreset : t.thread.pc ≠ .update true) : Shows ⟨t, w.taken⟩ frames where
  inv := hinv
  apart i := by
    rw [hhid]
    exact h.apart i
  page := hpage
  last := h.last
  reader := by
    rw [hreaders]
    exact h.reader
  ended := by
    rw [hreaders]
    exact h.ended
  fresh := hfresh
  reset := hreset

/-- The device thread goes on in its loop, or into `disconnect_session`. -/
lemma Shows.stay (h : w.Shows frames) (hinv : t.Inv) (hpc : w.race.thread.pc.sessionTaken = false)
    (hreaders : t.readers = w.race.readers) (hpage : t.device.inputPage.IsInput (.after frames))
    (hhid : t.hid = w.race.hid) (hsession : t.thread.session = w.race.thread.session)
    (hpc' : t.thread.pc.sessionTaken = false) : Shows ⟨t, w.taken⟩ frames := by
  refine h.keep hinv hreaders hpage hhid (fun hnone _ => h.fresh (hsession ▸ hnone) hpc) ?_
  intro hupdate
  rw [hupdate] at hpc'
  cases hpc'

/-- The device thread goes on in `disconnect_session`. -/
lemma Shows.leave (h : w.Shows frames) (hinv : t.Inv) (hreaders : t.readers = w.race.readers)
    (hpage : t.device.inputPage = w.race.device.inputPage) (hhid : t.hid = w.race.hid)
    (hpc' : t.thread.pc.sessionTaken = true) (hreset : t.thread.pc ≠ .update true) :
    Shows ⟨t, w.taken⟩ frames := by
  refine h.keep hinv hreaders (hpage ▸ h.page) hhid (fun _ hloop => ?_) hreset
  rw [hloop] at hpc'
  cases hpc'

/-- A section of the device thread. -/
lemma Shows.section (h : w.Shows frames) (hpc : w.race.thread.pc.sessionTaken = false) {i : ℕ}
    {commands : Link SerialSession → Except (Link SerialSession) (Link SerialSession)}
    {next : DevicePc} (hinv : (w.race.runSection i commands next).Inv)
    (hnext : next.sessionTaken = false) :
    Shows ⟨w.race.runSection i commands next, w.taken⟩ frames := by
  unfold SerialRace.runSection at hinv ⊢
  split at hinv
  · exact h.stay hinv hpc rfl h.page rfl rfl hnext
  · exact h.stay hinv hpc rfl h.page rfl rfl rfl

/-- A store of the device thread to the flags of a session. -/
lemma Shows.storeFlags (h : w.Shows frames) (hpc : w.race.thread.pc.sessionTaken = false) {i : ℕ}
    {store : LoopVars → LoopVars} {next : DevicePc}
    (hinv : ((w.race.storeFlags i store).goto next).Inv) (hnext : next.sessionTaken = false) :
    Shows ⟨(w.race.storeFlags i store).goto next, w.taken⟩ frames := by
  by_cases hsession : w.race.thread.session = some i
  · rw [SerialRace.storeFlags_eq hsession] at hinv ⊢
    exact h.stay hinv hpc rfl h.page rfl rfl hnext
  · rw [SerialRace.storeFlags, if_neg hsession] at hinv ⊢
    exact h.stay hinv hpc rfl h.page rfl rfl hnext

/-- The device thread opens a session, whose reader has taken nothing.

**Proof sketch.** Without a session the page shows nothing and every reader has ended, so that the
new reader is the only one that runs, with an empty buffer. -/
lemma Shows.openSession (h : w.Shows frames) (hpc : w.race.thread.pc = .connect)
    (hnone : w.race.thread.session = none) {t : SerialRace} (hinv : t.Inv)
    (hreaders : t.readers = w.race.readers ++ [.start])
    (hdevice : t.device = w.race.device) (hhid : t.hid = w.race.hid)
    (hsession : t.thread.session.isSome) (hpc' : t.thread.pc ≠ .update true) :
    Shows ⟨t, w.taken⟩ frames := by
  obtain ⟨htaken, hframes⟩ := h.fresh hnone (by rw [hpc]; rfl)
  have hended : ∀ (i : ℕ) (r : SerialReader), w.race.readers[i]? = some r → r.pc = .finished := by
    intro i r hr
    by_contra hrun
    have hmay := h.inv.alive i r hr hrun
    rw [SerialRace.mayRun_of_not_join (by rw [hpc]; nofun)] at hmay
    have hhandle := h.inv.session
    rw [hpc, hnone, hmay] at hhandle
    cases hhandle
  refine ⟨hinv, fun i => ?_, ?_, h.last, fun i r hr hrun => ?_, fun hall => ?_, fun hno => ?_, hpc'⟩
  · rw [hhid]
    exact h.apart i
  · rw [hdevice]
    exact h.page
  · rw [hreaders] at hr
    rcases Nat.lt_trichotomy i w.race.readers.length with hlt | heq | hgt
    · rw [List.getElem?_append_left hlt] at hr
      exact absurd (hended i r hr) hrun
    · rw [heq, List.getElem?_concat_length] at hr
      obtain rfl := Option.some.inj hr
      rw [htaken, hframes]
      exact ⟨⟨Nat.zero_le _, rfl⟩, rfl, rfl, nofun⟩
    · rw [List.getElem?_eq_none (by simp; omega)] at hr
      cases hr
  · have hnew := hall w.race.readers.length .start (by rw [hreaders, List.getElem?_concat_length])
    cases hnew
  · rw [hno] at hsession
    cases hsession

/-- The device thread resets the page, when every reader has ended. -/
lemma Shows.resetPage (h : w.Shows frames) (hpc : w.race.thread.pc = .update false) (hinv : t.Inv)
    (hreaders : t.readers = w.race.readers) (hpage : t.device.inputPage = .default)
    (hhid : t.hid = w.race.hid) (hpc' : t.thread.pc = .top) : Shows ⟨t, []⟩ [] := by
  have hended : ∀ (i : ℕ) (r : SerialReader), w.race.readers[i]? = some r → r.pc = .finished := by
    intro i r hr
    obtain ⟨r', hr', hfinished⟩ :=
      h.inv.ended (by rw [hpc]; rfl) (List.getElem?_eq_some_iff.mp hr).1
    rw [hr, Option.some_inj] at hr'
    rw [hr', hfinished]
  refine ⟨hinv, fun i => ?_, ?_, List.prefix_refl _, fun i r hr hrun => ?_, fun _ => rfl,
    fun _ _ => ⟨rfl, rfl⟩, ?_⟩
  · rw [hhid]
    exact h.apart i
  · rw [hpage]
    exact Mai2InputPage.isInput_default
  · rw [hreaders] at hr
    exact absurd (hended i r hr) hrun
  · rw [hpc']
    exact nofun

/-- The device thread goes on without a store. -/
lemma Shows.goes (h : w.Shows frames) {tick : SerialTick} {pc pc' : DevicePc}
    (hpc : w.race.thread.pc = pc) (hgoes : w.race.Goes tick pc pc')
    (hinv : (w.race.goto pc').Inv) : Shows ⟨w.race.goto pc', w.taken⟩ frames := by
  cases hgoes with
  | enabled | disabled | present | absent | connected | notOpened | active | inactive | reading
  | readFailed | pending | answered | logged | notLogged | ledsWritten =>
    exact h.stay hinv (by rw [hpc]; rfl) rfl h.page rfl rfl rfl
  | noSession | noHandle | joined | noVendor | noTouchHid =>
    exact h.leave hinv rfl rfl rfl rfl nofun
  -- no HID source is connected
  | vendor hflag => exact absurd (hflag.symm.trans (h.noHid .vendor)) nofun
  | touchHid hflag => exact absurd (hflag.symm.trans (h.noHid .touchHid)) nofun
  | hid =>
    have hflag : w.race.device.hidConnected = false := h.noHid .hid
    rw [hflag] at hinv ⊢
    exact h.leave hinv rfl rfl rfl rfl nofun

/-- **A step of the device thread** leaves what the page shows, or resets the page when the session
has ended.

**Proof sketch.** Apart from `markConnected` of a new session, which leaves the input, the thread
writes to the page only in the reset. No HID source is connected, so that every session ends with
it, behind the join. -/
lemma Shows.device (h : w.Shows frames) {tick : SerialTick}
    (ht : w.race.deviceStep tick = some t) :
    ∃ frames', Shows ⟨t, match w.race.thread.pc with | .update _ => [] | _ => w.taken⟩ frames' := by
  have hinv := h.inv.deviceStep ht
  cases SerialRace.deviceStep_turn ht with
  | goto pc pc' hpc hgoes =>
    have hshows := h.goes hpc hgoes hinv
    refine ⟨frames, ?_⟩
    rw [hpc]
    cases hgoes <;> exact hshows
  | openSession hpc hnone =>
    rw [hpc]
    exact ⟨_, h.openSession hpc hnone hinv rfl rfl rfl rfl nofun⟩
  | opened i hpc =>
    rw [hpc]
    exact ⟨_, h.stay hinv (by rw [hpc]; rfl) rfl h.page.markConnected rfl rfl rfl⟩
  | heartbeat i hpc =>
    rw [hpc]
    exact ⟨_, h.section (by rw [hpc]; rfl) hinv rfl⟩
  | query i hpc =>
    rw [hpc]
    exact ⟨_, h.section (by rw [hpc]; rfl) hinv (by split <;> rfl)⟩
  | clearPending i hpc | setLogged i hpc =>
    rw [hpc]
    exact ⟨_, h.storeFlags (by rw [hpc]; rfl) hinv rfl⟩
  | checkTouch i pc lastTouchFrames suspended hpc hpc' =>
    rw [hpc]
    refine ⟨_, h.stay hinv (by rw [hpc]; rfl) rfl h.page rfl rfl ?_⟩
    rcases hpc' with rfl | rfl | rfl <;> rfl
  | writeLed i output channel channels hpc =>
    rw [hpc]
    exact ⟨_, h.section (by rw [hpc]; rfl) hinv rfl⟩
  | takeSession i hpc | closePort i hpc | takeHandle i hpc =>
    rw [hpc]
    exact ⟨_, h.leave hinv rfl rfl rfl rfl nofun⟩
  | update hidConnected hpc =>
    cases hidConnected with
    | true => exact absurd hpc h.reset
    | false =>
      rw [hpc]
      exact ⟨_, h.resetPage hpc hinv rfl rfl rfl rfl⟩

/-- A reader that runs goes on, or ends behind the frames in the bytes that it has taken.

**Proof sketch.** The reader that goes on is the only one that runs; the others have ended, and stay
so. -/
lemma Shows.goOn (h : w.Shows frames) {i : ℕ} (hstep : w.race.ReaderStep i t)
    {r' : SerialReader} (hreaders : t.readers = w.race.readers.set i r') {taken : List UInt8}
    {frames' : List ParsedFrame} (hpage : t.device.inputPage.IsInput (.after frames'))
    (hlast : (mai2Scanner.decode taken.dropLast).1 <+: frames')
    (hreader : r'.pc ≠ .finished → ReaderShows taken frames' r')
    (hended : r'.pc = .finished → frames' = (mai2Scanner.decode taken).1) :
    Shows ⟨t, taken⟩ frames' := by
  have hinv := h.inv.readerStep hstep
  obtain ⟨r, hr, hrun⟩ := hstep.runs
  have hi : i < w.race.readers.length := (List.getElem?_eq_some_iff.mp hr).1
  have hnew : t.readers[i]? = some r' := by rw [hreaders, List.getElem?_set_self hi]
  refine ⟨hinv, fun j => ?_, hpage, hlast, fun j r₁ hr₁ hrun₁ => ?_, fun hall => ?_,
    fun hnone hloop => ?_, ?_⟩
  · rw [hstep.hid]
    exact h.apart j
  · rcases eq_or_ne i j with rfl | hne
    · rw [hnew, Option.some_inj] at hr₁
      rw [← hr₁] at hrun₁ ⊢
      exact hreader hrun₁
    · -- only one reader may run
      rw [hreaders, List.getElem?_set_ne hne] at hr₁
      have hmay := h.inv.alive j r₁ hr₁ hrun₁
      rw [h.inv.alive i r hr hrun, Option.some_inj] at hmay
      exact absurd hmay hne
  · exact hended (hall i r' hnew)
  · -- without a session no reader runs
    have hmay := h.inv.alive i r hr hrun
    have hsession := h.inv.session
    rw [hstep.pc] at hloop
    rw [SerialRace.mayRun_of_not_join (SerialRace.loop_spec hloop).1] at hmay
    rw [hloop, hmay, ← hstep.session, hnone] at hsession
    cases hsession
  · rw [hstep.pc]
    exact h.reset

/-- A reader that takes no byte and applies no frame. -/
lemma Shows.readerStays (h : w.Shows frames) {i : ℕ} {r : SerialReader}
    (hr : w.race.readers[i]? = some r) (hstep : w.race.ReaderStep i t) {pc : ReaderPc}
    (hreaders : t.readers = w.race.readers.set i ⟨pc, r.rx⟩)
    (hpage : t.device.inputPage = w.race.device.inputPage) (hpending : pc.pending = r.pc.pending)
    (hrun : r.pc ≠ .finished)
    (hserial : ∀ useSerialButtons buttons0 ioStatus touch bytes rest,
      pc = .applying useSerialButtons buttons0 ioStatus touch bytes rest →
      useSerialButtons = true) : Shows ⟨t, w.taken⟩ frames := by
  have hshows := h.reader i r hr hrun
  refine h.goOn hstep hreaders (hpage ▸ h.page) h.last (fun _ => ?_) fun hfinished => ?_
  · exact ⟨hshows.waiting, hshows.live, hpending ▸ hshows.pending, hserial⟩
  · have hdecode := hshows.pending
    rw [← hpending, show pc = .finished from hfinished] at hdecode
    rw [← hdecode]
    exact (List.append_nil _).symm

/-- A reader that is done with a frame. -/
lemma Shows.applyFrame (h : w.Shows frames) {i : ℕ} {r : SerialReader}
    (hr : w.race.readers[i]? = some r) (hrun : r.pc ≠ .finished) (hstep : w.race.ReaderStep i t)
    {pc : ReaderPc} (hreaders : t.readers = w.race.readers.set i ⟨pc, r.rx⟩) {frame : ParsedFrame}
    (hpending : r.pc.pending = frame :: pc.pending)
    (hpage : t.device.inputPage.IsInput ((BoardState.after frames).apply frame))
    (hserial : ∀ useSerialButtons buttons0 ioStatus touch bytes rest,
      pc ≠ .applying useSerialButtons buttons0 ioStatus touch bytes rest)
    (hgoes : pc ≠ .finished) : Shows ⟨t, w.taken⟩ (frames ++ [frame]) := by
  have hshows := h.reader i r hr hrun
  refine h.goOn hstep hreaders ?_ (h.last.trans (List.prefix_append _ _)) (fun _ => ?_)
    fun hfinished => absurd hfinished hgoes
  · rw [BoardState.after_concat]
    exact hpage
  · refine ⟨hshows.waiting, hshows.live, ?_, fun u b io x bytes rest happlying =>
      absurd happlying (hserial u b io x bytes rest)⟩
    rw [← hshows.pending, hpending, List.append_assoc]
    rfl

/-- A reader that takes a byte has the frames that it ends before it. -/
lemma Shows.takeByte (h : w.Shows frames) {i : ℕ} {r : SerialReader}
    (hr : w.race.readers[i]? = some r) (hrun : r.pc ≠ .finished) (hstep : w.race.ReaderStep i t)
    (hpending : r.pc.pending = []) {byte : UInt8} {rx' : RxBuf} {bytes : List UInt8}
    (hreaders : t.readers = w.race.readers.set i
      ⟨.serving bytes (mai2Scanner.decode (r.rx.live ++ [byte])).1, rx'⟩)
    (hpage : t.device.inputPage = w.race.device.inputPage) (hwaiting : rx'.Waiting)
    (hlive : rx'.live = (mai2Scanner.decode (r.rx.live ++ [byte])).2) :
    Shows ⟨t, w.taken ++ [byte]⟩ frames := by
  have hshows := h.reader i r hr hrun
  have hdecoded := hshows.pending
  rw [hpending, List.append_nil] at hdecoded
  have hdecode := mai2Scanner.decode_append w.taken [byte]
  rw [← hshows.live] at hdecode
  refine h.goOn hstep hreaders (hpage ▸ h.page) ?_ (fun _ => ⟨hwaiting, ?_, ?_, nofun⟩) nofun
  · rw [List.dropLast_concat, hdecoded]
  · rw [hlive, hdecode]
  · rw [hdecode, ← hdecoded]
    rfl

/-- **A step of a reader**: a byte that it takes brings its frames, which it then applies one by
one.

**Proof sketch.** The cases are the places of the reader. A byte moves into the bytes that are
taken, with the frames that it ends pending, and a pending frame moves into those that have been
applied. No HID source is connected, so the buttons of a frame are applied too. -/
lemma Shows.readerStep (h : w.Shows frames) {i : ℕ} {read : PortRead 256} {now : UInt64}
    (ht : w.race.readerStep i read now = some t) :
    ∃ frames', Shows ⟨t, w.taken ++ w.takes i⟩ frames' := by
  have hstep := SerialRace.readerStep_spec ht
  obtain ⟨r, hr, hrun⟩ := hstep.runs
  have hshows := h.reader i r hr hrun
  have htakes : w.takes i = r.pc.takes := by rw [takes, hr]; rfl
  rw [htakes]
  unfold SerialRace.readerStep at ht
  rw [hr] at ht
  dsimp only at ht
  have hnil : ∀ {u : SerialRace} {frames' : List ParsedFrame}, Shows ⟨u, w.taken⟩ frames' →
      Shows ⟨u, w.taken ++ []⟩ frames' := by
    intro u frames' hu
    rwa [List.append_nil]
  obtain ⟨pc, rx⟩ := r
  cases pc with
  | loop =>
    cases ht
    refine ⟨frames, hnil ?_⟩
    exact h.readerStays hr hstep rfl rfl (by split <;> rfl) nofun (by split <;> nofun)
  | read =>
    cases ht
    refine ⟨frames, hnil ?_⟩
    exact h.readerStays hr hstep rfl rfl (by split <;> rfl) nofun (by split <;> nofun)
  | reading =>
    refine ⟨frames, hnil ?_⟩
    cases read with
    | none =>
      cases ht
      exact h.readerStays hr hstep rfl rfl rfl nofun nofun
    | some bytes =>
      cases ht
      exact h.readerStays hr hstep rfl rfl (by split <;> rfl) nofun (by split <;> nofun)
  | failed =>
    cases ht
    refine ⟨frames, hnil ?_⟩
    exact h.readerStays hr hstep rfl rfl rfl nofun nofun
  | finished => cases ht
  | logging bytes rest =>
    cases ht
    refine ⟨frames, hnil ?_⟩
    obtain ⟨hreaders, hdevice⟩ := w.race.storeFlags_frame i .setLogged
    exact h.readerStays hr hstep (congrArg (List.set · i _) hreaders)
      (congrArg DeviceHandle.inputPage hdevice) rfl nofun nofun
  | applying useSerialButtons buttons0 ioStatus touch bytes rest =>
    obtain rfl := hshows.serial _ _ _ _ _ _ rfl
    cases ht
    refine ⟨frames ++ [.touch buttons0 ioStatus touch], hnil ?_⟩
    exact h.applyFrame hr hrun hstep rfl rfl (h.page.applyDeviceFrame _ _ _ _ _) nofun nofun
  | serving bytes rest =>
    cases rest with
    | nil =>
      cases bytes with
      | nil =>
        cases ht
        refine ⟨frames, hnil ?_⟩
        exact h.readerStays hr hstep rfl rfl rfl nofun nofun
      | cons byte bytes =>
        obtain ⟨rx', hpush, hwaiting, hlive⟩ := RxBuf.push_spec hshows.waiting byte
        dsimp only at hpush hlive ht
        rw [hpush] at ht
        cases ht
        exact ⟨frames, h.takeByte hr hrun hstep rfl rfl rfl hwaiting hlive⟩
    | cons frame rest =>
      cases frame with
      | touch buttons0 ioStatus touch =>
        have hflag : w.race.device.hidConnected = false := h.noHid .hid
        cases bytes
        all_goals
          cases ht
          refine ⟨frames, hnil (h.readerStays hr hstep rfl rfl rfl nofun ?_)⟩
          rintro _ _ _ _ _ _ ⟨⟩
          rw [hflag]
          rfl
      | boardInfo version =>
        obtain ⟨hreaders, hdevice⟩ := w.race.storeFlags_frame i .clearPending
        have hpage : (w.race.storeFlags i .clearPending).device.inputPage.IsInput
            ((BoardState.after frames).apply (.boardInfo version)) := by
          rw [hdevice]
          exact h.page
        cases bytes
        all_goals
          cases ht
          exact ⟨_, hnil (h.applyFrame hr hrun hstep (congrArg (List.set · i _) hreaders) rfl hpage
            nofun nofun)⟩

/-- **A step keeps what the page shows of the bytes.** -/
lemma Shows.step (h : w.Shows frames) (hstep : w.Step w') : ∃ frames', w'.Shows frames' := by
  cases hstep with
  | device tick t ht => exact h.device ht
  | reader i read now t ht => exact h.readerStep ht
  | hid r hr hapart =>
    refine ⟨frames, h.inv.step (.hid r hr), hapart, ?_, h.last, h.reader, h.ended, h.fresh, h.reset⟩
    show r.device.inputPage.IsInput _
    rw [hr.apart_inputPage h.apart]
    exact h.page
  | output page =>
    exact ⟨frames, h.inv.step (.output page), h.apart, h.page, h.last, h.reader, h.ended, h.fresh,
      h.reset⟩

/-- **The page of a player shows what the board has sent**, in every interleaving. -/
theorem exists_shows {enabled : Bool} {outputPage : Mai2OutputPage} {now : UInt64}
    (h : Relation.ReflTransGen Step (start enabled outputPage now) w) :
    ∃ frames, w.Shows frames := by
  induction h with
  | refl => exact ⟨[], shows_start enabled outputPage now⟩
  | tail _ hstep ih =>
    obtain ⟨frames, hshows⟩ := ih
    exact hshows.step hstep

/-! ## Progress -/

/-- What the threads can come to. -/
def Reaches : WatchedRace → WatchedRace → Prop := Relation.ReflTransGen Step

variable {i : ℕ} {rx : RxBuf} {bytes : List UInt8} {rest : List ParsedFrame}

/-- A step of a reader, with where it is then. -/
lemma exists_step {pc : ReaderPc} (hr : w.race.readers[i]? = some ⟨pc, rx⟩) (read : PortRead 256)
    {r' : SerialReader} (ht : w.race.readerStep i read 0 = some t)
    (hreaders : t.readers = w.race.readers.set i r') :
    ∃ w', w.Step w' ∧ w'.taken = w.taken ++ pc.takes ∧ w'.race.readers[i]? = some r' := by
  have htakes : w.takes i = pc.takes := by rw [takes, hr]; rfl
  refine ⟨⟨t, w.taken ++ w.takes i⟩, .reader i read 0 t ht, by rw [htakes], ?_⟩
  show t.readers[i]? = some r'
  rw [hreaders, List.getElem?_set_self (List.getElem?_eq_some_iff.mp hr).1]

/-- A reader with a frame before it applies the frame.

**Proof sketch.** The two steps of the reader for the frame, one behind the other. -/
lemma exists_applied {frame : ParsedFrame}
    (hr : w.race.readers[i]? = some ⟨.serving bytes (frame :: rest), rx⟩) :
    ∃ w', w.Reaches w' ∧ w'.taken = w.taken ∧
      w'.race.readers[i]? = some ⟨.serving bytes rest, rx⟩ := by
  cases frame with
  | touch buttons0 ioStatus touch =>
    have hload : w.race.readerStep i none 0 = some (w.race.setReader i
        ⟨.applying (!w.race.device.hidConnected) buttons0 ioStatus touch bytes rest, rx⟩) := by
      rw [SerialRace.readerStep, hr]
      cases bytes <;> rfl
    obtain ⟨w₁, hstep₁, htaken₁, hr₁⟩ := exists_step hr none hload rfl
    obtain ⟨w₂, hstep₂, htaken₂, hr₂⟩ := exists_step hr₁ none
      (by rw [SerialRace.readerStep, hr₁]) rfl
    refine ⟨w₂, .head hstep₁ (.single hstep₂), ?_, hr₂⟩
    rw [htaken₂, htaken₁, ReaderPc.takes, ReaderPc.takes, List.append_nil, List.append_nil]
    · nofun
    · cases bytes <;> nofun
  | boardInfo version =>
    have hclear : w.race.readerStep i none 0 = some
        ((w.race.storeFlags i .clearPending).setReader i ⟨.logging bytes rest, rx⟩) := by
      rw [SerialRace.readerStep, hr]
      cases bytes <;> rfl
    obtain ⟨w₁, hstep₁, htaken₁, hr₁⟩ := exists_step hr none hclear
      (congrArg (List.set · i _) (w.race.storeFlags_frame i _).1)
    obtain ⟨w₂, hstep₂, htaken₂, hr₂⟩ := exists_step hr₁ none
      (by rw [SerialRace.readerStep, hr₁])
      (congrArg (List.set · i _) (w₁.race.storeFlags_frame i _).1)
    refine ⟨w₂, .head hstep₁ (.single hstep₂), ?_, hr₂⟩
    rw [htaken₂, htaken₁, ReaderPc.takes, ReaderPc.takes, List.append_nil, List.append_nil]
    · nofun
    · cases bytes <;> nofun

/-- A reader applies all frames before it. -/
lemma exists_appliedAll
    (hr : w.race.readers[i]? = some ⟨.serving bytes rest, rx⟩) :
    ∃ w', w.Reaches w' ∧ w'.taken = w.taken ∧
      w'.race.readers[i]? = some ⟨.serving bytes [], rx⟩ := by
  induction rest generalizing w with
  | nil => exact ⟨w, .refl, rfl, hr⟩
  | cons frame rest ih =>
    obtain ⟨w₁, hreach₁, htaken₁, hr₁⟩ := exists_applied hr
    obtain ⟨w₂, hreach₂, htaken₂, hr₂⟩ := ih hr₁
    exact ⟨w₂, hreach₁.trans hreach₂, htaken₂.trans htaken₁, hr₂⟩

/-- **A reader gets through every read**: it can go on until it has taken all bytes and applied all
frames in them.

**Proof sketch.** Induction on the bytes. The decoder waits between two of them, so that it has room
for the next one. -/
lemma exists_taken (hwaiting : rx.Waiting)
    (hr : w.race.readers[i]? = some ⟨.serving bytes [], rx⟩) :
    ∃ w' rx', w.Reaches w' ∧ w'.taken = w.taken ++ bytes ∧
      w'.race.readers[i]? = some ⟨.serving [] [], rx'⟩ := by
  induction bytes generalizing w rx with
  | nil => exact ⟨w, rx, .refl, (List.append_nil _).symm, hr⟩
  | cons byte bytes ih =>
    obtain ⟨rx₁, hpush, hwaiting₁, -⟩ := RxBuf.push_spec hwaiting byte
    have htake : w.race.readerStep i none 0 = some (w.race.setReader i
        ⟨.serving bytes (mai2Scanner.decode (rx.live ++ [byte])).1, rx₁⟩) := by
      rw [SerialRace.readerStep, hr]
      dsimp only
      rw [hpush]
    obtain ⟨w₁, hstep₁, htaken₁, hr₁⟩ := exists_step hr none htake rfl
    obtain ⟨w₂, hreach₂, htaken₂, hr₂⟩ := exists_appliedAll hr₁
    obtain ⟨w₃, rx₃, hreach₃, htaken₃, hr₃⟩ := ih hwaiting₁ hr₂
    refine ⟨w₃, rx₃, .head hstep₁ (hreach₂.trans hreach₃), ?_, hr₃⟩
    rw [htaken₃, htaken₂, htaken₁, List.append_assoc]
    rfl

end WatchedRace

end Affine
