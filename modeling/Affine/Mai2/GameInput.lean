import Affine.Lib.Bits
import Affine.Mai2.BoardInput
import Affine.Mai2.Coin
import Mathlib.Tactic.IntervalCases

set_option relaxedAutoImplicit false
set_option autoImplicit false

/-!
# What the game reads of the boards

The whole way of the buttons of a mai2 cabinet, from the bytes on the two serial links to what
`get_gamebtns` and `get_opbtns` return (`affine-mai2/src/lib.rs`): the reader and the device thread
of each player (`Affine.WatchedRace`), and any number of processes that poll. The steps are the
accesses to what the threads share, in any order.

## Main definitions

* `Affine.StreamItem.button`, `Affine.StreamItem.status` — the buttons on the wire.
* `Affine.GameInput`, `Affine.GameInput.Step` — the players and the processes, and their steps.
* `Affine.Mai2PollPage.Reports` — the poll page reports the buttons on the wire.

## Main results

* `Affine.mapButtons_testBit` — the bits of the game buttons.
* `Affine.game_reads_board` — the poll page reports the last frame with buttons.
-/

namespace Affine

/-! ## The bits of the buttons -/

/-- A bit of the output that is set for a bit of the input. -/
lemma testBit_button (b : UInt8) {j m : ℕ} (hj : j < 8) {mask : UInt8} {out : UInt16}
    (hmask : mask = 1 <<< UInt8.ofNat j) (hout : out.toNat = 2 ^ m) (k : ℕ) :
    (if b &&& mask ≠ 0 then out else 0).toNat.testBit k =
      (decide (m = k) && b.toNat.testBit j) := by
  have hbit := Bits.and_mask_ne_zero_iff b hj
  rw [← hmask] at hbit
  by_cases hb : b.toNat.testBit j = true
  · rw [if_pos (hbit.mpr hb), hout, Nat.testBit_two_pow, hb, Bool.and_true]
  · rw [if_neg (mt hbit.mp hb), Bool.eq_false_iff.mpr hb, Bool.and_false]
    exact Nat.zero_testBit k

/-- The buttons of the game: a bit for each of the eight buttons, and one for the select button. -/
lemma mapButtons_testBit (buttons0 buttons1 : UInt8) {k : ℕ} (hk : k < 16) :
    (mapButtons buttons0 buttons1).toNat.testBit k =
      if k < 8 then buttons0.toNat.testBit k else decide (k = 8) && buttons1.toNat.testBit 0 := by
  have hbutton : ∀ (j : ℕ) (mask : UInt8) (out : UInt16), j < 8 → mask = 1 <<< UInt8.ofNat j →
      out.toNat = 2 ^ j → (if buttons0 &&& mask ≠ 0 then out else 0).toNat.testBit k =
        (decide (j = k) && buttons0.toNat.testBit j) :=
    fun j mask out hj hmask hout => testBit_button buttons0 hj hmask hout k
  have hselect : (if buttons1 &&& (1 <<< (0 : UInt8)) ≠ 0 then (0x100 : UInt16) else 0).toNat.testBit
      k = (decide (8 = k) && buttons1.toNat.testBit 0) :=
    testBit_button buttons1 (j := 0) (by decide) rfl rfl k
  simp only [mapButtons, UInt16.toNat_or, Nat.testBit_lor]
  rw [hbutton 0 0x01 0x01 (by decide) rfl rfl, hbutton 1 0x02 0x02 (by decide) rfl rfl,
    hbutton 2 0x04 0x04 (by decide) rfl rfl, hbutton 3 0x08 0x08 (by decide) rfl rfl,
    hbutton 4 0x10 0x10 (by decide) rfl rfl, hbutton 5 0x20 0x20 (by decide) rfl rfl,
    hbutton 6 0x40 0x40 (by decide) rfl rfl, hbutton 7 0x80 0x80 (by decide) rfl rfl, hselect]
  interval_cases k <;> simp

/-! ## The buttons on the wire -/

namespace StreamItem

/-- The bytes of a touch frame that carry buttons. -/
def buttonBytes : StreamItem → Option (UInt8 × UInt8 × UInt8)
  | touch _ b3 b4 b5 _ _ => some (b3, b4, b5)
  | _ => none

/-- Such bytes of the last frame that has them; before it nothing is pressed. -/
def lastButtonBytes (items : List StreamItem) : UInt8 × UInt8 × UInt8 :=
  (items.filterMap buttonBytes).getLast?.getD (0, 0, 0)

/-- A button on the wire: the first four are low bits of one byte, the next four high bits of the
next, and the select button is a bit of the third. -/
def button (items : List StreamItem) (k : ℕ) : Bool :=
  if k < 4 then (lastButtonBytes items).1.toNat.testBit k
  else if k < 8 then (lastButtonBytes items).2.1.toNat.testBit k
  else decide (k = 8) && (lastButtonBytes items).2.2.toNat.testBit 0

/-- A bit of the status on the wire. -/
def status (items : List StreamItem) (k : ℕ) : Bool :=
  (lastButtonBytes items).2.2.toNat.testBit k

/-- The input behind the frames of a stream.

**Proof sketch.** Induction on the pieces, from behind. Only a touch frame with buttons changes
them. -/
lemma after_frames (items : List StreamItem) :
    (BoardState.after (items.filterMap frame)).buttons0 =
        ((lastButtonBytes items).1 &&& 0x0F) ||| ((lastButtonBytes items).2.1 &&& 0xF0) ∧
      (BoardState.after (items.filterMap frame)).ioStatus =
        (lastButtonBytes items).2.2 &&& 0x3F := by
  induction items using List.reverseRecOn with
  | nil => exact ⟨rfl, rfl⟩
  | append_singleton items item ih =>
    rw [List.filterMap_append]
    cases item with
    | touch h b3 b4 b5 t hh =>
      have hlast : lastButtonBytes (items ++ [.touch h b3 b4 b5 t hh]) = (b3, b4, b5) := by
        simp [lastButtonBytes, List.filterMap_append, buttonBytes]
      rw [hlast, show [touch h b3 b4 b5 t hh].filterMap frame = [.touch _ _ _] from rfl,
        BoardState.after_concat]
      exact ⟨rfl, rfl⟩
    | ascii t =>
      have hlast : lastButtonBytes (items ++ [.ascii t]) = lastButtonBytes items := by
        simp [lastButtonBytes, List.filterMap_append, buttonBytes]
      rw [hlast, show [ascii t].filterMap frame = [.touch none none (some t)] from rfl,
        BoardState.after_concat]
      exact ih
    | boardInfo payload ck hlen =>
      have hlast : lastButtonBytes (items ++ [.boardInfo payload ck hlen]) =
          lastButtonBytes items := by
        simp [lastButtonBytes, List.filterMap_append, buttonBytes]
      rw [hlast, show [boardInfo payload ck hlen].filterMap frame = [.boardInfo _] from rfl,
        BoardState.after_concat]
      exact ih
    | noise b hb =>
      have hlast : lastButtonBytes (items ++ [.noise b hb]) = lastButtonBytes items := by
        simp [lastButtonBytes, List.filterMap_append, buttonBytes]
      rw [hlast, show [noise b hb].filterMap frame = [] from rfl, List.append_nil]
      exact ih

/-- The game buttons behind the frames of a stream. -/
lemma mapButtons_after (items : List StreamItem) {k : ℕ} (hk : k < 16) :
    (mapButtons (BoardState.after (items.filterMap frame)).buttons0
      (BoardState.after (items.filterMap frame)).ioStatus).toNat.testBit k = button items k := by
  obtain ⟨hbuttons, hstatus⟩ := after_frames items
  have hlow : ∀ j < 16, (0x0F : UInt8).toNat.testBit j = decide (j < 4) := by decide
  have hhigh : ∀ j < 16, (0xF0 : UInt8).toNat.testBit j = decide (4 ≤ j ∧ j < 8) := by decide
  rw [mapButtons_testBit _ _ hk, hbuttons, hstatus, button]
  simp only [UInt8.toNat_or, UInt8.toNat_and, Nat.testBit_lor, Nat.testBit_land, hlow k hk,
    hhigh k hk]
  by_cases h4 : k < 4
  · have h8 : k < 8 := by omega
    simp [h4, h8]
  · by_cases h8 : k < 8
    · simp [h4, h8, Nat.not_lt.mp h4]
    · simp [h4, h8]

/-- A bit of the status behind the frames of a stream. -/
lemma status_after (items : List StreamItem) {k : ℕ} (hk : k < 6) :
    (BoardState.after (items.filterMap frame)).ioStatus &&& (1 <<< UInt8.ofNat k) ≠ 0 ↔
      status items k = true := by
  have hmask : ∀ j < 6, (0x3F : UInt8).toNat.testBit j = true := by decide
  rw [Bits.and_mask_ne_zero_iff _ (by omega), (after_frames items).2, status, UInt8.toNat_and,
    Nat.testBit_land, hmask k hk, Bool.and_true]

/-- A shorter part of a piece. -/
lemma Incomplete.dropLast {part : List UInt8} (h : Incomplete part) : Incomplete part.dropLast := by
  obtain ⟨item, hprefix, hne⟩ := h
  refine ⟨item, (List.dropLast_prefix part).trans hprefix, fun heq => ?_⟩
  have hle := hprefix.length_le
  rw [← heq, List.length_dropLast] at hle
  have hnil : part = [] := List.length_eq_zero_iff.mp (by omega)
  rw [hnil] at heq hne
  exact hne heq

/-- A piece without its last byte. -/
lemma incomplete_dropLast (item : StreamItem) : Incomplete item.bytes.dropLast := by
  refine ⟨item, List.dropLast_prefix _, fun heq => ?_⟩
  have hlength := congrArg List.length heq
  have hpos := mai2Scanner.pos item.head_bytes
  rw [List.length_dropLast] at hlength
  omega

/-- Nothing is a part of every piece. -/
lemma incomplete_nil : Incomplete [] := by
  refine ⟨.noise 0 (by decide), List.nil_prefix, nofun⟩

/-- **Nearly all of a stream**: frames that are all of those in pieces, or all but the last one.

**Proof sketch.** The last byte of a part of a piece ends no frame, and the last byte of a whole
piece ends no frame but its own. -/
lemma exists_nearly {items : List StreamItem} {part : List UInt8} {frames : List ParsedFrame}
    (hpart : Incomplete part)
    (h : WatchedRace.Nearly (items.flatMap bytes ++ part) frames) :
    ∃ shown, (shown = items ∨ part = [] ∧ shown = items.dropLast) ∧
      frames = shown.filterMap frame := by
  obtain ⟨hlast, hall⟩ := h
  rw [decode_items items hpart] at hall
  by_cases hnil : part = []
  · subst hnil
    rcases List.eq_nil_or_concat items with rfl | ⟨init, item, rfl⟩
    · exact ⟨[], .inl rfl, List.prefix_nil.mp hall⟩
    · -- the frames of the last piece may still be missing
      have hbytes : item.bytes ≠ [] := by
        intro hempty
        have hpos := mai2Scanner.pos item.head_bytes
        rw [hempty] at hpos
        exact Nat.lt_irrefl _ hpos
      rw [List.concat_eq_append, List.append_nil, List.flatMap_append, List.flatMap_singleton,
        List.dropLast_append_of_ne_nil hbytes, decode_items init item.incomplete_dropLast] at hlast
      rw [List.concat_eq_append, List.filterMap_append] at hall
      obtain ⟨more, rfl⟩ := hlast
      have hmore := (List.prefix_append_right_inj _).mp hall
      cases hframe : item.frame with
      | none =>
        rw [List.filterMap_cons_none hframe] at hmore
        obtain rfl := List.prefix_nil.mp hmore
        exact ⟨init, .inr ⟨rfl, by simp⟩, List.append_nil _⟩
      | some frame =>
        rw [List.filterMap_cons_some hframe] at hmore
        rcases List.prefix_cons_iff.mp hmore with rfl | ⟨rest, rfl, hrest⟩
        · exact ⟨init, .inr ⟨rfl, by simp⟩, List.append_nil _⟩
        · obtain rfl := List.prefix_nil.mp hrest
          refine ⟨init ++ [item], .inl (List.concat_eq_append ..).symm, ?_⟩
          rw [List.filterMap_append, List.filterMap_cons_some hframe, List.filterMap_nil]
  · refine ⟨items, .inl rfl, ?_⟩
    rw [List.dropLast_append_of_ne_nil hnil, decode_items items hpart.dropLast] at hlast
    exact hall.eq_of_length_le hlast.length_le

end StreamItem

/-! ## The poll page -/

/-- `get_gamebtns`. -/
def Mai2PollPage.getGamebtns (page : Mai2PollPage) : UInt16 × UInt16 :=
  (page.player1Btn, page.player2Btn)

/-- The buttons of a player in what `get_gamebtns` returns. -/
def Mai2PollPage.gameBtn (page : Mai2PollPage) : Fin 2 → UInt16
  | 0 => page.getGamebtns.1
  | 1 => page.getGamebtns.2

/-- The poll page reports the inputs of the two boards, and the keys. -/
structure Mai2PollPage.ReportsBoards (page : Mai2PollPage) (boards : Fin 2 → BoardState)
    (keys : Keys) : Prop where
  buttons : ∀ p, page.gameBtn p = mapButtons (boards p).buttons0 (boards p).ioStatus
  test : page.getOpbtns &&& mai2IoOpbtnTest ≠ 0 ↔
    (∃ p, (boards p).ioStatus &&& (1 <<< (1 : UInt8)) ≠ 0) ∨ keys.test = true
  service : page.getOpbtns &&& mai2IoOpbtnService ≠ 0 ↔
    (∃ p, (boards p).ioStatus &&& (1 <<< (2 : UInt8)) ≠ 0) ∨ keys.service = true

/-- **The poll page reports the buttons on the wire**: those of the game, and those for test and
service, which are also keys. -/
structure Mai2PollPage.Reports (page : Mai2PollPage) (items : Fin 2 → List StreamItem)
    (keys : Keys) : Prop where
  buttons : ∀ p, ∀ k < 16, (page.gameBtn p).toNat.testBit k = StreamItem.button (items p) k
  test : page.getOpbtns &&& mai2IoOpbtnTest ≠ 0 ↔
    (∃ p, StreamItem.status (items p) 1 = true) ∨ keys.test = true
  service : page.getOpbtns &&& mai2IoOpbtnService ≠ 0 ↔
    (∃ p, StreamItem.status (items p) 2 = true) ∨ keys.service = true

namespace Mai2InputPage.IsInput

variable {page : Mai2InputPage} {b : BoardState}

/-- What `poll` reads of a player's buttons. -/
lemma gameButtons (h : page.IsInput b) : page.gameButtons = mapButtons b.buttons0 b.ioStatus := by
  rw [Mai2InputPage.gameButtons, h.buttons0, h.ioStatus]
  split
  · rfl
  · next happart =>
    rw [h.apart (not_not.mp happart)]
    rfl

/-- What `poll` reads of a bit of the status. -/
lemma statusBit (h : page.IsInput b) (bit : UInt8) :
    page.statusBit bit = true ↔ b.ioStatus &&& (1 <<< bit) ≠ 0 := by
  rw [Mai2InputPage.statusBit, decide_eq_true_eq, h.ioStatus, and_iff_right_iff_imp]
  intro hbit hapart
  rw [h.apart hapart] at hbit
  exact hbit (UInt8.zero_and ..)

end Mai2InputPage.IsInput

/-- The bits for test and service do not depend on each other, or on the coin. -/
lemma opbtn_bits (test service : Bool) (coin : Prop) [Decidable coin] :
    (((if test then mai2IoOpbtnTest else 0) ||| (if service then mai2IoOpbtnService else 0) |||
        (if coin then mai2IoOpbtnCoin else 0)) &&& mai2IoOpbtnTest ≠ 0 ↔ test = true) ∧
      (((if test then mai2IoOpbtnTest else 0) ||| (if service then mai2IoOpbtnService else 0) |||
        (if coin then mai2IoOpbtnCoin else 0)) &&& mai2IoOpbtnService ≠ 0 ↔ service = true) := by
  by_cases hcoin : coin
  · rw [if_pos hcoin]
    revert test service
    decide
  · rw [if_neg hcoin]
    revert test service
    decide

/-- **A poll reports the inputs that its pages show.** -/
lemma Mai2PollPage.poll_reports (page : Mai2PollPage) {p1 p2 : Mai2InputPage}
    {boards : Fin 2 → BoardState} (h1 : p1.IsInput (boards 0)) (h2 : p2.IsInput (boards 1))
    (keys : Keys) : (page.poll p1 p2 keys).ReportsBoards boards keys := by
  obtain ⟨htest, hservice⟩ := opbtn_bits (p1.statusBit 1 || p2.statusBit 1 || keys.test)
    (p1.statusBit 2 || p2.statusBit 2 || keys.service)
    (coinPressed p1 keys = true ∧ page.affineCoin = 0)
  refine ⟨fun p => ?_, ?_, ?_⟩
  · match p with
    | 0 => exact h1.gameButtons
    | 1 => exact h2.gameButtons
  · rw [Fin.exists_fin_two, ← h1.statusBit, ← h2.statusBit]
    refine htest.trans ?_
    rw [Bool.or_eq_true, Bool.or_eq_true]
  · rw [Fin.exists_fin_two, ← h1.statusBit, ← h2.statusBit]
    refine hservice.trans ?_
    rw [Bool.or_eq_true, Bool.or_eq_true]

/-- A fresh poll page reports that nothing is pressed. -/
lemma Mai2PollPage.reportsBoards_default :
    Mai2PollPage.default.ReportsBoards (fun _ => .idle) ⟨false, false, false⟩ := by
  refine ⟨fun p => ?_, by decide, by decide⟩
  match p with
  | 0 => rfl
  | 1 => rfl

/-- The inputs behind the frames of streams are the buttons on the wire. -/
lemma Mai2PollPage.ReportsBoards.reports {page : Mai2PollPage} {items : Fin 2 → List StreamItem}
    {keys : Keys} (h : page.ReportsBoards
      (fun p => .after ((items p).filterMap StreamItem.frame)) keys) :
    page.Reports items keys := by
  refine ⟨fun p k hk => ?_, ?_, ?_⟩
  · rw [h.buttons, StreamItem.mapButtons_after _ hk]
  · rw [h.test]
    exact or_congr_left (exists_congr fun p => StreamItem.status_after (items p) (k := 1) (by decide))
  · rw [h.service]
    exact or_congr_left (exists_congr fun p => StreamItem.status_after (items p) (k := 2) (by decide))

/-! ## The players and the processes -/

/-- Two players, and processes that poll. The last fields are the history that the reports are
compared with: for each process, the bytes that the readers had taken when its poll read the pages;
and for the latest poll that has updated the poll page, these bytes and the keys that it has seen. -/
structure GameInput (ι : Type) where
  players : Fin 2 → WatchedRace
  pollPage : Mai2PollPage
  clients : ι → ClientPc
  read : ι → Fin 2 → List UInt8
  polled : Fin 2 → List UInt8
  keys : Keys

namespace GameInput

variable {ι : Type} [DecidableEq ι]

/-- The players at their start, on fresh pages. -/
def start (enabled : Fin 2 → Bool) (outputPage : Mai2OutputPage) (now : UInt64) : GameInput ι where
  players p := .start (enabled p) outputPage now
  pollPage := .default
  clients _ := .idle
  read _ _ := []
  polled _ := []
  keys := ⟨false, false, false⟩

/-- The steps of the threads of the players, and of `poll` in the processes. -/
inductive Step (s : GameInput ι) : GameInput ι → Prop
  | player (p : Fin 2) (w : WatchedRace) (h : (s.players p).Step w) :
      Step s { s with players := Function.update s.players p w }
  | readP1 (i : ι) (h : s.clients i = .idle) :
      Step s { s with
        clients := Function.update s.clients i
          (.readOne (s.players 0).race.device.inputPage)
        read := Function.update s.read i
          (Function.update (s.read i) 0 (s.players 0).taken) }
  | readP2 (i : ι) (p1 : Mai2InputPage) (h : s.clients i = .readOne p1) :
      Step s { s with
        clients := Function.update s.clients i
          (.readBoth p1 (s.players 1).race.device.inputPage)
        read := Function.update s.read i
          (Function.update (s.read i) 1 (s.players 1).taken) }
  | update (i : ι) (p1 p2 : Mai2InputPage) (keys : Keys) (h : s.clients i = .readBoth p1 p2) :
      Step s { s with
        pollPage := s.pollPage.poll p1 p2 keys
        clients := Function.update s.clients i .idle
        polled := s.read i
        keys := keys }

/-- The page shows frames that are nearly those in the bytes. -/
def Showed (page : Mai2InputPage) (taken : List UInt8) : Prop :=
  ∃ frames, WatchedRace.Nearly taken frames ∧ page.IsInput (.after frames)

/-- **Each process has read what the boards had sent**, and so had the latest poll. -/
structure Inv (s : GameInput ι) : Prop where
  players : ∀ p, ∃ frames, (s.players p).Shows frames
  one : ∀ i p1, s.clients i = .readOne p1 → Showed p1 (s.read i 0)
  both : ∀ i p1 p2, s.clients i = .readBoth p1 p2 →
    Showed p1 (s.read i 0) ∧ Showed p2 (s.read i 1)
  page : ∃ frames : Fin 2 → List ParsedFrame, (∀ p, WatchedRace.Nearly (s.polled p) (frames p)) ∧
    s.pollPage.ReportsBoards (fun p => .after (frames p)) s.keys

variable {s t : GameInput ι}

omit [DecidableEq ι] in
/-- The threads start with pages that show no input. -/
lemma inv_start (enabled : Fin 2 → Bool) (outputPage : Mai2OutputPage) (now : UInt64) :
    Inv (start (ι := ι) enabled outputPage now) where
  players p := ⟨[], WatchedRace.shows_start (enabled p) outputPage now⟩
  one := nofun
  both := nofun
  page := ⟨fun _ => [], fun _ => ⟨List.prefix_refl _, List.prefix_refl _⟩,
    Mai2PollPage.reportsBoards_default⟩

omit [DecidableEq ι] in
/-- The page that a player shows now. -/
lemma Inv.showed (hinv : s.Inv) (p : Fin 2) :
    Showed (s.players p).race.device.inputPage (s.players p).taken := by
  obtain ⟨frames, hshows⟩ := hinv.players p
  exact ⟨frames, hshows.nearly, hshows.page⟩

/-- **A step keeps the invariant.**

**Proof sketch.** The cases are the threads. A step of a board's threads keeps what its page shows,
a read takes that over, and a poll writes what was read. -/
lemma Inv.step (hinv : s.Inv) (h : s.Step t) : t.Inv := by
  cases h with
  | player p w h =>
    refine ⟨fun q => ?_, hinv.one, hinv.both, hinv.page⟩
    rcases eq_or_ne q p with rfl | hne
    · obtain ⟨frames, hshows⟩ := hinv.players q
      simp only [Function.update_self]
      exact hshows.step h
    · simp only [Function.update_of_ne hne]
      exact hinv.players q
  | readP1 i hi =>
    refine ⟨hinv.players, fun j p1 hj => ?_, fun j p1 p2 hj => ?_, hinv.page⟩
    · rcases eq_or_ne j i with rfl | hne
      · simp only [Function.update_self] at hj ⊢
        cases hj
        exact hinv.showed 0
      · simp only [Function.update_of_ne hne] at hj ⊢
        exact hinv.one j p1 hj
    · rcases eq_or_ne j i with rfl | hne
      · simp only [Function.update_self] at hj
        cases hj
      · simp only [Function.update_of_ne hne] at hj ⊢
        exact hinv.both j p1 p2 hj
  | readP2 i q1 hi =>
    refine ⟨hinv.players, fun j p1 hj => ?_, fun j p1 p2 hj => ?_, hinv.page⟩
    · rcases eq_or_ne j i with rfl | hne
      · simp only [Function.update_self] at hj
        cases hj
      · simp only [Function.update_of_ne hne] at hj ⊢
        exact hinv.one j p1 hj
    · rcases eq_or_ne j i with rfl | hne
      · simp only [Function.update_self] at hj ⊢
        cases hj
        exact ⟨hinv.one j q1 hi, hinv.showed 1⟩
      · simp only [Function.update_of_ne hne] at hj ⊢
        exact hinv.both j p1 p2 hj
  | update i p1 p2 keys hi =>
    obtain ⟨⟨frames1, hnearly1, hinput1⟩, ⟨frames2, hnearly2, hinput2⟩⟩ := hinv.both i p1 p2 hi
    refine ⟨hinv.players, fun j q1 hj => ?_, fun j q1 q2 hj => ?_, ?_⟩
    · rcases eq_or_ne j i with rfl | hne
      · simp only [Function.update_self] at hj
        cases hj
      · simp only [Function.update_of_ne hne] at hj
        exact hinv.one j q1 hj
    · rcases eq_or_ne j i with rfl | hne
      · simp only [Function.update_self] at hj
        cases hj
      · simp only [Function.update_of_ne hne] at hj
        exact hinv.both j q1 q2 hj
    · refine ⟨fun p => match p with | 0 => frames1 | 1 => frames2, fun p => ?_, ?_⟩
      · match p with
        | 0 => exact hnearly1
        | 1 => exact hnearly2
      · exact s.pollPage.poll_reports hinput1 hinput2 keys

/-- Every interleaving keeps the invariant. -/
lemma Inv.reaches (hinv : s.Inv) (h : Relation.ReflTransGen Step s t) : t.Inv := by
  induction h with
  | refl => exact hinv
  | tail _ hstep ih => exact ih.step hstep

end GameInput

/-- **The game reads what the boards have sent**: in every interleaving of the device threads and
the readers of both players, over any number of sessions, with the polls of any number of processes,
while no HID source is connected. Suppose that the bytes that the readers had taken of their
sessions, when the latest poll read the pages, are pieces of a stream and a part of the next one.
Then the poll page reports the buttons of the last of these pieces that has any, unless it is the
very last piece and ended with the last of these bytes: that piece may be missing.

**Proof sketch.** At every moment the page of a player shows the frames in the bytes that its reader
has taken, apart from some that the last byte ended (`WatchedRace.Shows.step`); a process keeps the
pages that it has read, and the poll page is computed from them (`Mai2PollPage.poll_reports`). The
frames in pieces are those that were put into them (`decode_items`). -/
theorem game_reads_board {ι : Type} [DecidableEq ι] (enabled : Fin 2 → Bool)
    (outputPage : Mai2OutputPage) (now : UInt64) {s : GameInput ι}
    (h : Relation.ReflTransGen GameInput.Step (GameInput.start enabled outputPage now) s)
    {items : Fin 2 → List StreamItem} {part : Fin 2 → List UInt8}
    (hpart : ∀ p, StreamItem.Incomplete (part p))
    (hpolled : ∀ p, s.polled p = (items p).flatMap StreamItem.bytes ++ part p) :
    ∃ shown : Fin 2 → List StreamItem,
      (∀ p, shown p = items p ∨ part p = [] ∧ shown p = (items p).dropLast) ∧
        s.pollPage.Reports shown s.keys := by
  obtain ⟨frames, hnearly, hpage⟩ := ((GameInput.inv_start enabled outputPage now).reaches h).page
  have hshown : ∀ p, ∃ shown, (shown = items p ∨ part p = [] ∧ shown = (items p).dropLast) ∧
      frames p = shown.filterMap StreamItem.frame := by
    intro p
    have hp := hnearly p
    rw [hpolled p] at hp
    exact StreamItem.exists_nearly (hpart p) hp
  choose shown hshown hframes using hshown
  refine ⟨shown, hshown, Mai2PollPage.ReportsBoards.reports ?_⟩
  have hboards : (fun p => BoardState.after (frames p)) =
      fun p => .after ((shown p).filterMap StreamItem.frame) := by
    funext p
    rw [hframes p]
  rw [← hboards]
  exact hpage

/-- The steps of a player are steps of the cabinet. -/
lemma GameInput.reaches_player {ι : Type} [DecidableEq ι] (s : GameInput ι) (p : Fin 2)
    {w : WatchedRace} (h : (s.players p).Reaches w) :
    Relation.ReflTransGen GameInput.Step s
      { s with players := Function.update s.players p w } := by
  induction h with
  | refl =>
    rw [Function.update_eq_self]
  | tail hreach hstep ih =>
    rename_i w₁ w₂
    have hplayer := GameInput.Step.player (s := { s with players := Function.update s.players p w₁ })
      p w₂ (by simpa only [Function.update_self] using hstep)
    simp only [Function.update_idem] at hplayer
    exact ih.tail hplayer

/-- The length byte of a touch frame with buttons. -/
lemma withButtons : (0x0A : UInt8) = 0x0A ∨ (0x0A : UInt8) = 0x00 := .inl rfl

/-- A touch frame with the first button pressed. -/
def pressedItem : StreamItem := .touch 0x0A 0x01 0x00 0x00 noTouch withButtons

/-- The frame, and the first byte of the next one. -/
def pressedBytes : List UInt8 := pressedItem.bytes ++ [0xFF]

/-- The device thread opens a session, and a read brings the bytes. -/
lemma exists_pressed : ∃ w : WatchedRace,
    (WatchedRace.start true .default 0).Reaches w ∧ w.taken = pressedBytes := by
  have hopen : ∃ w : WatchedRace, (WatchedRace.start true .default 0).Reaches w ∧ w.taken = [] ∧
      w.race.readers[0]? =
        some ⟨.serving pressedBytes [], ⟨List.Vector.replicate 512 0, 0⟩⟩ := by
    have hstart : (WatchedRace.start true .default 0).Reaches _ := .refl
    have hread := hstart.tail (.device presentTick _ rfl) |>.tail (.device presentTick _ rfl)
      |>.tail (.device presentTick _ rfl) |>.tail (.reader 0 none 0 _ rfl)
      |>.tail (.reader 0 none 0 _ rfl)
      |>.tail (.reader 0 (some ⟨pressedBytes, by decide⟩) 0 _ rfl)
    exact ⟨_, hread, rfl, rfl⟩
  obtain ⟨w, hreach, htaken, hr⟩ := hopen
  obtain ⟨w', -, hreach', htaken', -⟩ := WatchedRace.exists_taken ⟨Nat.zero_le _, rfl⟩ hr
  refine ⟨w', hreach.trans hreach', ?_⟩
  rw [htaken', htaken]
  rfl

/-- The board of the first player has sent a pressed button, and the game polls. -/
theorem game_reads_board_pressed :
    ∃ s : GameInput Unit,
      Relation.ReflTransGen GameInput.Step (.start (fun _ => true) .default 0) s ∧
        (s.pollPage.gameBtn 0).toNat.testBit 0 = true := by
  obtain ⟨s, hs, hpolled⟩ : ∃ s : GameInput Unit,
      Relation.ReflTransGen GameInput.Step (.start (fun _ => true) .default 0) s ∧
        ∀ p, s.polled p = (if p = 0 then [pressedItem] else []).flatMap StreamItem.bytes ++
          if p = 0 then [0xFF] else [] := by
    obtain ⟨w, hreach, htaken⟩ := exists_pressed
    have hplayer := GameInput.reaches_player
      (GameInput.start (ι := Unit) (fun _ => true) .default 0) 0 hreach
    have hread := hplayer.tail (.readP1 () rfl) |>.tail (.readP2 () _ rfl)
      |>.tail (.update () _ _ ⟨false, false, false⟩ rfl)
    refine ⟨_, hread, fun p => ?_⟩
    match p with
    | 0 => exact htaken
    | 1 => rfl
  have hpart : ∀ p : Fin 2, StreamItem.Incomplete (if p = 0 then [0xFF] else []) := by
    intro p
    match p with
    | 0 => exact ⟨pressedItem, ⟨pressedItem.bytes.tail, rfl⟩, by decide⟩
    | 1 => exact StreamItem.incomplete_nil
  obtain ⟨shown, hshown, hreports⟩ := game_reads_board (fun _ => true) .default 0 hs hpart hpolled
  refine ⟨s, hs, ?_⟩
  rw [hreports.buttons 0 0 (by decide)]
  rcases hshown 0 with h | ⟨h, -⟩
  · rw [h]
    decide
  · cases h

end Affine
