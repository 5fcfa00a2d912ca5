import Affine.Aime.Reader
import Affine.Lib.Run

set_option relaxedAutoImplicit false
set_option autoImplicit false

/-!
# Runs of the card reader

What holds along whole runs of the reader, for every behaviour of the port.

The reply to a request is not compared with the request, so the replies of a run match their
requests exactly when the reader's answers do (`replies_match_iff`). A poll that fails to
transport its request keeps the cached card, so the card is fresh along a run exactly when every
poll is answered or starts without a card (`card_fresh_iff`).

## Main definitions

* `Affine.Call` — a request, with the behaviour of the port.
* `Affine.Op`, `Affine.Session` — the operations, and the reader with a report on the last poll.
* `Affine.Session.Fresh` — the cached card is the one that the last poll saw.

## Main results

* `Affine.replies_match_iff`, `Affine.card_fresh_iff`.
-/

namespace Affine

open Slice (Exec)

/-! ## Requests and replies -/

/-- A call of `transact`, with the behaviour of the port. -/
structure Call where
  cmd : UInt8
  payload : List UInt8
  line : Line

/-- A call of `transact`, as a step of the reader. -/
def Call.step (c : Call) (r : Reader) : Exec Reader := do
  let (_, r) ← r.transact c.line c.cmd c.payload
  return r

/-- If the call has a response, then the frame it is taken from carries the sequence number and
the command of the request that was written last. -/
def ReplyMatches (r : Reader) (c : Call) : Prop :=
  ∀ response r', r.transact c.line c.cmd c.payload = .ok (.ok response, r') →
    ∃ frame dropped rest, readFrame c.line.reads = .ok (.returned (some frame) dropped rest) ∧
      r'.port.sent.getLast? = some (encodeFrame r.seq c.cmd c.payload) ∧
      frame.getD 2 0 = r.seq ∧ frame.getD 3 0 = c.cmd

/-- If the request is written, then the first frame in the answer, if it is sound and has the form
of a reply, carries the current sequence number and the command. -/
def AnswerMatches (r : Reader) (c : Call) : Prop :=
  r.Connects c.line → c.line.writes.ok → ∀ frame, FirstFrame (answerBytes c.line.reads) frame →
    ReplyShaped frame → frame.getD 2 0 = r.seq ∧ frame.getD 3 0 = c.cmd

/-- For a call that returns, the reply matches exactly when the answer does. -/
lemma replyMatches_iff {r u : Reader} {c : Call} (h : c.step r = .ok u) :
    ReplyMatches r c ↔ AnswerMatches r c := by
  obtain ⟨⟨x, r₁⟩, htransact, -⟩ := Slice.bind_eq_ok.mp h
  constructor
  · intro hreply hconnects hwrites frame hfirst hshape
    rcases (Reader.transact_spec htransact).2 with ⟨-, hno⟩ | ⟨_, _, _, _, _, _, _, rfl, -⟩
    · exact absurd ⟨hconnects, hwrites, frame, hfirst, hshape⟩ hno
    · obtain ⟨frame', dropped, rest, hread, -, hmatch⟩ := hreply _ _ htransact
      obtain ⟨dropped', rest', hread'⟩ := (readFrame_eq_some_iff _ _).mpr hfirst
      rw [hread] at hread'
      cases hread'
      exact hmatch
  · intro hanswer response r' htransact'
    rcases (Reader.transact_spec htransact').2 with
      ⟨hx, -⟩ | ⟨frame, dropped, rest, hconnects, hwrites, hread, hshape, -, hsent⟩
    · cases hx
    · have hfirst := (readFrame_eq_some_iff _ _).mp ⟨dropped, rest, hread⟩
      exact ⟨frame, dropped, rest, hread, hsent, hanswer hconnects hwrites frame hfirst hshape⟩

/-- **Replies match their requests exactly if the answers do**: in every run of requests, each
response is taken from a frame with the sequence number and the command of its request, if and
only if the first frame behind each request carries them. -/
theorem replies_match_iff (calls : List Call) :
    Run.EachStep Call.step .default calls ReplyMatches ↔
      Run.EachStep Call.step .default calls AnswerMatches :=
  forall₄_congr fun _ _ _ _ => forall₃_congr fun _ _ hstep => replyMatches_iff hstep

/-- A port that takes the request and then returns these bytes in one read. -/
def Line.answering (bs : Chunk 64) : Line where
  found := true
  opens := true
  writes := .whole
  reads := [some bs]

/-- The reader repeats its answer to the version request, and the poll that follows takes the
second copy as its own reply. -/
theorem repeated_reply_taken :
    ¬ Run.EachStep Call.step .default
      [⟨sgCmdGetFwVersion, [], .answering ⟨[0xE0, 6, 0, 0, 0x30, 0, 0, 0x36], by decide⟩⟩,
        ⟨sgCmdPoll, [], .answering ⟨[0xE0, 6, 0, 0, 0x30, 0, 0, 0x36], by decide⟩⟩]
      ReplyMatches := by
  intro h
  have hsecond := h [⟨sgCmdGetFwVersion, [], _⟩] ⟨sgCmdPoll, [], _⟩
    ⟨⟨true, [encodeFrame 0 sgCmdGetFwVersion []], encodeFrame 0 sgCmdGetFwVersion []⟩, 1, false,
      .none⟩
    ⟨⟨true, [encodeFrame 0 sgCmdGetFwVersion [], encodeFrame 1 sgCmdPoll []],
      encodeFrame 0 sgCmdGetFwVersion [] ++ encodeFrame 1 sgCmdPoll []⟩, 2, false, .none⟩
    (List.prefix_refl _) (by decide +kernel) (by decide +kernel)
  obtain ⟨frame, dropped, rest, hread, -, hseq, -⟩ := hsecond ⟨0, []⟩
    ⟨⟨true, [encodeFrame 0 sgCmdGetFwVersion [], encodeFrame 1 sgCmdPoll []],
      encodeFrame 0 sgCmdGetFwVersion [] ++ encodeFrame 1 sgCmdPoll []⟩, 2, false, .none⟩
    (by decide +kernel)
  have hfirst : readFrame [some ⟨[0xE0, 6, 0, 0, 0x30, 0, 0, 0x36], by decide⟩] =
      .ok (.returned (some [6, 0, 0, 0x30, 0, 0]) [] []) := by rfl
  obtain ⟨rfl, -, -⟩ : [6, 0, 0, 0x30, 0, 0] = frame ∧ _ ∧ _ := by
    simpa using hfirst.symm.trans hread
  exact absurd hseq (by decide)

/-! ## The cached card -/

/-- An operation of the reader, with the behaviour of the port in its exchanges. -/
inductive Op
  | init (fw hw board : Line)
  | poll (unitNo : UInt8) (line : Line)
  | getAimeId (unitNo : UInt8) (luid : List UInt8) (line : Line)
  | getFelicaId (unitNo : UInt8) (idmOut : UInt64)
  | getMifareUid (unitNo : UInt8) (uidOut : List UInt8)
  | mifareSelect (unitNo : UInt8) (uid : List UInt8) (line : Line)
  | mifareSetKey (unitNo keyType : UInt8) (key : List UInt8) (line : Line)
  | mifareAuthenticate (unitNo keyType : UInt8) (payload : List UInt8) (line : Line)
  | mifareReadBlock (unitNo : UInt8) (uid : List UInt8) (blockNo : UInt8) (block : List UInt8)
      (line : Line)
  | felicaTransact (unitNo : UInt8) (req res : List UInt8) (resSizeWritten : ℕ) (line : Line)
  | radioOn (unitNo : UInt8) (line : Line)
  | radioOff (unitNo : UInt8) (line : Line)
  | toUpdateMode (unitNo : UInt8) (line : Line)
  | sendHexData (unitNo : UInt8) (payload : List UInt8) (statusOut : Option UInt8) (line : Line)
  | ledSetColor (unitNo : UInt8) (rgb : List.Vector UInt8 3) (line : Line)

/-- What became of a poll on unit 0: its result, and the payload of its reply if there was one. -/
structure PollReport where
  result : Hresult
  reply : Option (List UInt8)
  deriving DecidableEq

/-- The reader, with a report on the most recent poll on unit 0. -/
structure Session where
  reader : Reader
  lastPoll : Option PollReport
  deriving DecidableEq

namespace Op

/-- The state of the reader after an operation. -/
def reader : Op → Reader → Exec Reader
  | init fw hw board, r => (·.2) <$> r.init fw hw board
  | poll unitNo line, r => (·.2) <$> Aime.poll r unitNo line
  | getAimeId unitNo luid line, r => (·.2.2) <$> Aime.getAimeId r unitNo luid line
  | getFelicaId _ _, r => return r
  | getMifareUid unitNo uidOut, r => (fun _ => r) <$> Aime.getMifareUid r unitNo uidOut
  | mifareSelect unitNo uid line, r => (·.2) <$> Aime.mifareSelect r unitNo uid line
  | mifareSetKey unitNo keyType key line, r => (·.2) <$> Aime.mifareSetKey r unitNo keyType key line
  | mifareAuthenticate unitNo keyType payload line, r =>
    (·.2) <$> Aime.mifareAuthenticate r unitNo keyType payload line
  | mifareReadBlock unitNo uid blockNo block line, r =>
    (·.2.2) <$> Aime.mifareReadBlock r unitNo uid blockNo block line
  | felicaTransact unitNo req res resSizeWritten line, r =>
    (·.2.2.2) <$> Aime.felicaTransact r unitNo req res resSizeWritten line
  | radioOn unitNo line, r => (·.2) <$> Aime.radioOn r unitNo line
  | radioOff unitNo line, r => (·.2) <$> Aime.radioOff r unitNo line
  | toUpdateMode unitNo line, r => (·.2) <$> Aime.toUpdateMode r unitNo line
  | sendHexData unitNo payload statusOut line, r =>
    (·.2.2) <$> Aime.sendHexData r unitNo payload statusOut line
  | ledSetColor unitNo rgb line, r => Aime.ledSetColor r unitNo rgb line

/-- The report on the most recent poll after an operation. -/
def report : Op → Session → Exec (Option PollReport)
  | poll unitNo line, s =>
    if unitNo = 0 then do
      let (result, _) ← s.reader.poll line
      let (response, _) ← s.reader.transact line sgCmdPoll []
      return some { result, reply := response.toOption.map (·.payload) }
    else return s.lastPoll
  | _, s => return s.lastPoll

/-- An operation as a step of the session. -/
def step (op : Op) (s : Session) : Exec Session := do
  return { reader := ← op.reader s.reader, lastPoll := ← op.report s }

end Op

section Frame

variable {α : Type} {r : Reader} {line : Line} {cmd : UInt8} {payload : List UInt8}

/-- The result of an operation, read off with `reader`, has the card of `r`. -/
def KeepsCard (r : Reader) (reader : α → Reader) (x : Exec α) : Prop :=
  ∀ a, x = .ok a → (reader a).card = r.card

/-- A result with the same card. -/
lemma keepsCard_ok {reader : α → Reader} {a : α} (h : (reader a).card = r.card) :
    KeepsCard r reader (.ok a) := by
  intro b hb
  cases hb
  exact h

/-- An operation that looks up something without changing the reader. -/
lemma keepsCard_bind {β : Type} {reader : α → Reader} {x : Exec β} {k : β → Exec α}
    (hk : ∀ b, KeepsCard r reader (k b)) : KeepsCard r reader (x >>= k) := by
  intro a ha
  obtain ⟨b, -, hb⟩ := Slice.bind_eq_ok.mp ha
  exact hk b a hb

/-- An operation that starts with a request. -/
lemma keepsCard_transact {reader : α → Reader}
    {k : Except Hresult ReaderResponse × Reader → Exec α}
    (hk : ∀ x r', KeepsCard r' reader (k (x, r'))) :
    KeepsCard r reader (r.transact line cmd payload >>= k) := by
  intro a ha
  obtain ⟨⟨x, r'⟩, htransact, hk'⟩ := Slice.bind_eq_ok.mp ha
  exact (hk x r' a hk').trans (Reader.transact_card htransact)

/-- A simple command keeps the card. -/
lemma keepsCard_simple (unitNo : UInt8) :
    KeepsCard r (·.2) (Aime.simple r unitNo cmd payload line) := by
  unfold Aime.simple
  split
  · exact keepsCard_ok rfl
  · exact keepsCard_transact fun x r' => keepsCard_ok rfl

/-- `aime_init` keeps the card. -/
lemma keepsCard_init (fw hw board : Line) : KeepsCard r (·.2) (r.init fw hw board) := by
  unfold Reader.init
  by_cases hconnects : r.Connects fw
  · obtain ⟨port, hensure, -⟩ := Reader.ensureConnected_of_connects hconnects
    rw [hensure]
    change KeepsCard { r with port := port } _ _
    dsimp only
    split
    · exact keepsCard_ok rfl
    · refine keepsCard_transact fun _ _ => keepsCard_transact fun _ _ => ?_
      exact keepsCard_transact fun _ _ => keepsCard_ok rfl
  · obtain ⟨port, hensure⟩ := Reader.ensureConnected_of_not_connects hconnects
    rw [hensure]
    exact keepsCard_ok rfl

/-- `get_aime_id` keeps the card. -/
lemma keepsCard_getAimeId (unitNo : UInt8) (luid : List UInt8) :
    KeepsCard r (·.2.2) (Aime.getAimeId r unitNo luid line) := by
  unfold Aime.getAimeId Reader.getAimeId
  split
  · exact keepsCard_ok rfl
  split
  · exact keepsCard_ok rfl
  split
  · refine keepsCard_bind fun head => keepsCard_transact fun x r' => ?_
    cases x with
    | error err => exact keepsCard_ok rfl
    | ok response =>
      dsimp only
      split
      · exact keepsCard_ok rfl
      · exact keepsCard_bind fun s => keepsCard_bind fun id => keepsCard_ok rfl
  · exact keepsCard_ok rfl

/-- `mifare_read_block` keeps the card. -/
lemma keepsCard_mifareReadBlock (unitNo : UInt8) (uid : List UInt8) (blockNo : UInt8)
    (block : List UInt8) :
    KeepsCard r (·.2.2) (Aime.mifareReadBlock r unitNo uid blockNo block line) := by
  unfold Aime.mifareReadBlock
  split
  · exact keepsCard_ok rfl
  split
  · exact keepsCard_ok rfl
  refine keepsCard_bind fun head => keepsCard_transact fun x r' => ?_
  cases x with
  | error err => exact keepsCard_ok rfl
  | ok response =>
    dsimp only
    split
    · exact keepsCard_bind fun s => keepsCard_bind fun out => keepsCard_ok rfl
    · exact keepsCard_ok rfl

/-- `felica_transact` keeps the card. -/
lemma keepsCard_felicaTransact (unitNo : UInt8) (req res : List UInt8) (resSizeWritten : ℕ) :
    KeepsCard r (·.2.2.2) (Aime.felicaTransact r unitNo req res resSizeWritten line) := by
  unfold Aime.felicaTransact
  split
  · exact keepsCard_ok rfl
  refine keepsCard_transact fun x r' => ?_
  cases x with
  | error err => exact keepsCard_ok rfl
  | ok response =>
    dsimp only
    split
    · refine keepsCard_bind fun s => keepsCard_bind fun s' => ?_
      exact keepsCard_bind fun dst => keepsCard_ok rfl
    · exact keepsCard_ok rfl

/-- `send_hex_data` keeps the card. -/
lemma keepsCard_sendHexData (unitNo : UInt8) (statusOut : Option UInt8) :
    KeepsCard r (·.2.2) (Aime.sendHexData r unitNo payload statusOut line) := by
  unfold Aime.sendHexData
  split
  · exact keepsCard_ok rfl
  refine keepsCard_transact fun x r' => ?_
  cases x with
  | error err => exact keepsCard_ok rfl
  | ok response => exact keepsCard_ok rfl

/-- `led_set_color` keeps the card. -/
lemma keepsCard_ledSetColor (unitNo : UInt8) (rgb : List.Vector UInt8 3) :
    KeepsCard r id (Aime.ledSetColor r unitNo rgb line) := by
  unfold Aime.ledSetColor
  split
  · exact keepsCard_ok rfl
  · exact keepsCard_transact fun x r' => keepsCard_ok rfl

/-- What is read off a result keeps its card. -/
lemma keepsCard_map {reader : α → Reader} {x : Exec α} (h : KeepsCard r reader x) :
    KeepsCard r id (reader <$> x) := by
  intro r' hr'
  obtain ⟨a, ha, rfl⟩ := Slice.map_eq_ok.mp hr'
  exact h a ha

/-- Every operation except a poll on unit 0 leaves the cached card alone.

**Proof sketch.** The cases are the operations, each with its own lemma above. -/
theorem Op.keepsCard {op : Op} (hop : ∀ line, op ≠ .poll 0 line) :
    KeepsCard r id (op.reader r) := by
  cases op with
  | init fw hw board => exact keepsCard_map (keepsCard_init fw hw board)
  | poll unitNo line =>
    have hunit : unitNo ≠ 0 := fun h => hop line (h ▸ rfl)
    refine keepsCard_map ?_
    rw [Aime.poll, if_pos hunit]
    exact keepsCard_ok rfl
  | getAimeId unitNo luid line => exact keepsCard_map (keepsCard_getAimeId unitNo luid)
  | getFelicaId unitNo idmOut => exact keepsCard_ok rfl
  | getMifareUid unitNo uidOut =>
    intro r' hr'
    obtain ⟨a, -, rfl⟩ := Slice.map_eq_ok.mp hr'
    rfl
  | mifareSelect unitNo uid line =>
    refine keepsCard_map ?_
    unfold Aime.mifareSelect
    split
    · exact keepsCard_ok rfl
    split
    · exact keepsCard_ok rfl
    · exact keepsCard_simple unitNo
  | mifareSetKey unitNo keyType key line =>
    refine keepsCard_map ?_
    unfold Aime.mifareSetKey
    split
    · exact keepsCard_ok rfl
    split
    · exact keepsCard_ok rfl
    · exact keepsCard_simple unitNo
  | mifareAuthenticate unitNo keyType payload line => exact keepsCard_map (keepsCard_simple unitNo)
  | mifareReadBlock unitNo uid blockNo block line =>
    exact keepsCard_map (keepsCard_mifareReadBlock unitNo uid blockNo block)
  | felicaTransact unitNo req res resSizeWritten line =>
    exact keepsCard_map (keepsCard_felicaTransact unitNo req res resSizeWritten)
  | radioOn unitNo line => exact keepsCard_map (keepsCard_simple unitNo)
  | radioOff unitNo line => exact keepsCard_map (keepsCard_simple unitNo)
  | toUpdateMode unitNo line => exact keepsCard_map (keepsCard_simple unitNo)
  | sendHexData unitNo payload statusOut line =>
    exact keepsCard_map (keepsCard_sendHexData unitNo statusOut)
  | ledSetColor unitNo rgb line => exact keepsCard_ledSetColor unitNo rgb

end Frame

/-! ### Freshness -/

/-- There is no cached card, or the most recent poll on unit 0 succeeded and its reply describes
the cached card. -/
def Session.Fresh (s : Session) : Prop :=
  s.reader.card = .none ∨
    ∃ payload, s.lastPoll = some ⟨sOk, some payload⟩ ∧ Describes payload s.reader.card

/-- If the operation is a poll on unit 0, then it is answered or there is no cached card. -/
def PollAnswered (s : Session) (op : Op) : Prop :=
  ∀ line, op = .poll 0 line → s.reader.card = .none ∨ s.reader.Answered line

/-- The state before the first operation. -/
def Session.init : Session where
  reader := .default
  lastPoll := none

/-- A poll on unit 0 leads to a fresh state exactly when it is answered or there was no card.

**Proof sketch.** The cases are the exits of the poll: it is answered, or it leaves the card. -/
lemma fresh_poll_iff {line : Line} {s u : Session} (h : (Op.poll 0 line).step s = .ok u) :
    u.Fresh ↔ s.reader.card = .none ∨ s.reader.Answered line := by
  obtain ⟨r', hreader, h⟩ := Slice.bind_eq_ok.mp h
  obtain ⟨last, hreport, h⟩ := Slice.bind_eq_ok.mp h
  obtain rfl : Session.mk r' last = u := Except.ok.inj h
  obtain ⟨⟨result, r₁⟩, hpoll, rfl⟩ := Slice.map_eq_ok.mp hreader
  replace hpoll : s.reader.poll line = .ok (result, r₁) := hpoll
  obtain ⟨⟨x, r₂⟩, htransact, hlast⟩ :
      ∃ y, s.reader.transact line sgCmdPoll [] = .ok y ∧
        last = some ⟨result, y.1.toOption.map (·.payload)⟩ := by
    simp only [Op.report, if_true, hpoll, Slice.ok_bind] at hreport
    obtain ⟨y, hy, hlast⟩ := Slice.bind_eq_ok.mp hreport
    exact ⟨y, hy, (Except.ok.inj hlast).symm⟩
  rcases Reader.poll_spec hpoll with ⟨hno, rfl, hcard⟩ | ⟨hanswered, hcard⟩
  · simp only [Session.Fresh, hcard, hno, or_false]
    refine or_iff_left ?_
    rintro ⟨payload, hsome, -⟩
    rw [hlast] at hsome
    have hresult : eFail = sOk := congrArg PollReport.result (Option.some.inj hsome)
    exact absurd hresult (by decide)
  · refine iff_of_true ?_ (.inr hanswered)
    rcases hcard with hnone | ⟨response, r₃, htransact', rfl, hdesc⟩
    · exact .inl hnone
    · rw [htransact] at htransact'
      cases htransact'
      exact .inr ⟨response.payload, hlast, hdesc⟩

/-- From a fresh state, an operation leads to a fresh state exactly when it is not an unanswered
poll with a cached card.

**Proof sketch.** Apart from the poll no operation changes the card (`Op.keepsCard`). -/
lemma fresh_step_iff {op : Op} {s u : Session} (hs : s.Fresh) (h : op.step s = .ok u) :
    u.Fresh ↔ PollAnswered s op := by
  by_cases hop : ∃ line, op = .poll 0 line
  · obtain ⟨line, rfl⟩ := hop
    rw [fresh_poll_iff h]
    constructor
    · rintro hanswered line' he
      cases he
      exact hanswered
    · exact fun hanswered => hanswered line rfl
  · have hne : ∀ line, op ≠ .poll 0 line := fun line he => hop ⟨line, he⟩
    obtain ⟨r', hreader, h⟩ := Slice.bind_eq_ok.mp h
    obtain ⟨last, hreport, h⟩ := Slice.bind_eq_ok.mp h
    obtain rfl : Session.mk r' last = u := Except.ok.inj h
    have hcard : r'.card = s.reader.card := Op.keepsCard hne r' hreader
    have hlast : last = s.lastPoll := by
      cases op with
      | poll unitNo line =>
        have hunit : unitNo ≠ 0 := fun h => hne line (h ▸ rfl)
        simp only [Op.report, if_neg hunit] at hreport
        exact (Except.ok.inj hreport).symm
      | _ => exact (Except.ok.inj hreport).symm
    refine iff_of_true ?_ fun line he => absurd he (hne line)
    simpa only [Session.Fresh, hcard, hlast] using hs

/-- **The cached card is fresh exactly if no poll is left unanswered while there is one**: in
every run of operations, the cached card is at all times the one that the most recent poll on
unit 0 saw, if and only if each of these polls is answered or starts without a cached card.

**Proof sketch.** Operations other than a poll keep the card and the report (`Op.keepsCard`). A
poll that is answered sets the card to what its reply describes, or forgets it; one that is not
keeps the card and fails (`Reader.poll_spec`). -/
theorem card_fresh_iff (ops : List Op) :
    Run.Always Op.step .init ops Session.Fresh ↔ Run.EachStep Op.step .init ops PollAnswered :=
  Run.always_iff (I := fun _ => True) trivial (fun _ _ _ _ _ => trivial) (.inl rfl)
    fun _ _ _ _ hs h => fresh_step_iff hs h

/-- A poll sees a card; the next one cannot be written, fails, and leaves the card cached. -/
theorem failed_poll_keeps_card :
    ¬ Run.Always Op.step .init
      [.poll 0 (.answering ⟨[0xE0, 13, 0, 0, 0x42, 0, 7, 1, 0x10, 4, 1, 2, 3, 4, 0x75], by decide⟩),
        .poll 0 ⟨true, true, .failed 0, []⟩]
      Session.Fresh := by
  intro h
  have hlast := h _ ⟨⟨⟨false, [encodeFrame 0 sgCmdPoll []], encodeFrame 0 sgCmdPoll []⟩, 2, false,
    .mifare ⟨[1, 2, 3, 4], rfl⟩⟩, some ⟨eFail, none⟩⟩ (List.prefix_refl _) (by decide +kernel)
  rcases hlast with hnone | ⟨payload, hsome, -⟩
  · cases hnone
  · have hresult : eFail = sOk := congrArg PollReport.result (Option.some.inj hsome)
    exact absurd hresult (by decide)

end Affine
