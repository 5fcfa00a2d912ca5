import Affine.Aime.Reader
import Affine.Lib.Labelled
import Affine.Lib.Remote

set_option relaxedAutoImplicit false
set_option autoImplicit false

/-!
# The card service

What the exported operations of `affine-aime/src/lib.rs` are for, without the serial line: a card
reader that answers requests, behind a link that may fail. A call makes some requests, and what it
returns and remembers depends on the responses. This is the specification that the operations over
the wire are compared with; how the reader answers is a parameter.

## Main definitions

* `Affine.CardReader` — how a reader serves requests.
* `Affine.CardCall`, `Affine.Returned` — the exported operations, and what they return.
* `Affine.CardCall.requests`, `Affine.CardCall.finish` — the requests of a call, and what it makes
  of the response.
* `Affine.CardHost.Step` — a call, with the link and the reader.
-/

namespace Affine

open Remote (Attempt Peer)

/-! ## Calls -/

/-- A request to the reader. -/
structure CardRequest where
  cmd : UInt8
  payload : List UInt8
  deriving DecidableEq

/-- How a card reader with states `δ` serves a request. Its responses fit into a frame. -/
structure CardReader (δ : Type) where
  serve : δ → CardRequest → ReaderResponse × δ
  fits : ∀ d q, (serve d q).1.payload.length ≤ 249

/-- A call of an exported operation; buffers are passed with the content that they have before. -/
inductive CardCall
  | init
  | poll (unitNo : UInt8)
  | getAimeId (unitNo : UInt8) (luid : List UInt8)
  | getFelicaId (unitNo : UInt8) (idmOut : UInt64)
  | getMifareUid (unitNo : UInt8) (uidOut : List UInt8)
  | mifareSelect (unitNo : UInt8) (uid : List UInt8)
  | mifareSetKey (unitNo keyType : UInt8) (key : List UInt8)
  | mifareAuthenticate (unitNo keyType : UInt8) (payload : List UInt8)
  | mifareReadBlock (unitNo : UInt8) (uid : List UInt8) (blockNo : UInt8) (block : List UInt8)
  | felicaTransact (unitNo : UInt8) (req res : List UInt8) (resSizeWritten : ℕ)
  | radioOn (unitNo : UInt8)
  | radioOff (unitNo : UInt8)
  | toUpdateMode (unitNo : UInt8)
  | sendHexData (unitNo : UInt8) (payload : List UInt8) (statusOut : Option UInt8)
  | ledSetColor (unitNo : UInt8) (rgb : List.Vector UInt8 3)

/-- What a call returns, with the content of its buffers afterwards. -/
inductive Returned
  | result (result : Hresult)
  | buffer (result : Hresult) (buffer : List UInt8)
  | idm (result : Hresult) (idm : UInt64)
  | exchanged (result : Hresult) (res : List UInt8) (written : ℕ)
  | status (result : Hresult) (status : Option UInt8)
  | nothing
  deriving DecidableEq

/-- What the host remembers between calls, the connection apart. -/
structure CardMemory where
  initialized : Bool
  card : CachedCard
  deriving DecidableEq

/-- What the host remembers. -/
def Reader.memory (r : Reader) : CardMemory := ⟨r.initialized, r.card⟩

/-- The host remembers this after a call. -/
def Reader.remember (r : Reader) (m : CardMemory) : Reader :=
  { r with initialized := m.initialized, card := m.card }

/-- What is remembered holds the cached card. -/
@[simp] lemma Reader.memory_card (r : Reader) : r.memory.card = r.card := rfl

/-- Remembering what is remembered changes nothing. -/
@[simp] lemma Reader.remember_memory (r : Reader) : r.remember r.memory = r := rfl

namespace CardCall

/-- The requests of a call: `up` is whether the reader is connected. -/
@[simp] def requests (up : Bool) (m : CardMemory) : CardCall → List CardRequest
  | init =>
    if up && !m.initialized then
      [⟨sgCmdGetFwVersion, []⟩, ⟨sgCmdGetHwVersion, []⟩, ⟨sgCmdExtBoardInfo, []⟩]
    else []
  | poll unitNo => if unitNo = 0 then [⟨sgCmdPoll, []⟩] else []
  | getAimeId unitNo luid =>
    match m.card with
    | .mifare uid =>
      if unitNo = 0 ∧ luid.length = 10 then [⟨sgCmdMifareReadBlock, uid.toList ++ [2]⟩] else []
    | _ => []
  | getFelicaId _ _ => []
  | getMifareUid _ _ => []
  | mifareSelect unitNo uid =>
    if unitNo = 0 ∧ uid.length = 4 then [⟨sgCmdMifareSelect, uid⟩] else []
  | mifareSetKey unitNo keyType key =>
    if unitNo = 0 ∧ key.length = 6 then
      [⟨if keyType = 0 then sgCmdMifareSetKeyAime else sgCmdMifareSetKeyBana, key⟩]
    else []
  | mifareAuthenticate unitNo keyType payload =>
    if unitNo = 0 then
      [⟨if keyType = 0 then sgCmdMifareAuthAime else sgCmdMifareAuthBana, payload⟩]
    else []
  | mifareReadBlock unitNo uid blockNo block =>
    if unitNo = 0 ∧ uid.length = 4 ∧ block.length = 16 then
      [⟨sgCmdMifareReadBlock, uid ++ [blockNo]⟩]
    else []
  | felicaTransact unitNo req _ _ => if unitNo = 0 then [⟨sgCmdFelicaEncap, req⟩] else []
  | radioOn unitNo => if unitNo = 0 then [⟨sgCmdRadioOn, []⟩] else []
  | radioOff unitNo => if unitNo = 0 then [⟨sgCmdRadioOff, []⟩] else []
  | toUpdateMode unitNo => if unitNo = 0 then [⟨sgCmdToUpdateMode, []⟩] else []
  | sendHexData unitNo payload _ => if unitNo = 0 then [⟨sgCmdSendHexData, payload⟩] else []
  | ledSetColor unitNo rgb => if unitNo = 0 then [⟨sgCmdExtLedRgb, rgb.toList⟩] else []

end CardCall

/-! ## Responses -/

/-- The result of a request of which only the status matters. -/
def statusOf : Option ReaderResponse → Hresult
  | none => eFail
  | some response => if response.status = 0 then sOk else sFalse

/-- The first bytes of a list. -/
def firstBytes (n : ℕ) (bs : List UInt8) (h : n ≤ bs.length) : List.Vector UInt8 n :=
  ⟨bs.take n, List.length_take_of_le h⟩

/-- The card that the response to a poll shows, and the result of the poll. -/
def cardSeen : List UInt8 → Hresult × CachedCard
  | [] => (sFalse, .none)
  | count :: rest =>
    if count = 0 then (sFalse, .none)
    else
      match rest with
      | kind :: _ :: numbers =>
        if kind = 0x10 then
          if h : 4 ≤ numbers.length then (sOk, .mifare (firstBytes 4 numbers h))
          else (eFail, .none)
        else if kind = 0x20 then
          if h : 8 ≤ numbers.length ∧ 8 ≤ (numbers.drop 8).length then
            (sOk, .felica (firstBytes 8 numbers h.1) (firstBytes 8 (numbers.drop 8) h.2))
          else (eFail, .none)
        else (sFalse, .none)
      | _ => (eFail, .none)

namespace CardCall

/-- What a call returns and remembers: `up` is whether the reader is connected, and `reply` the
response to the request, if there is one. -/
@[simp] def finish (up : Bool) (m : CardMemory) (reply : Option ReaderResponse) :
    CardCall → Returned × CardMemory
  | init => if up then (.result sOk, { m with initialized := true }) else (.result eFail, m)
  | poll unitNo =>
    if unitNo = 0 then
      match reply with
      | none => (.result eFail, m)
      | some response =>
        (.result (cardSeen response.payload).1, { m with card := (cardSeen response.payload).2 })
    else (.result sFalse, m)
  | getAimeId unitNo luid =>
    if unitNo ≠ 0 then (.buffer sFalse luid, m)
    else if luid.length ≠ 10 then (.buffer eInvalidarg luid, m)
    else
      match m.card, reply with
      | .mifare _, none => (.buffer eFail luid, m)
      | .mifare _, some response =>
        if response.status = 0 ∧ 16 ≤ response.payload.length then
          (.buffer sOk ((response.payload.drop 6).take 10), m)
        else (.buffer sFalse luid, m)
      | _, _ => (.buffer sFalse luid, m)
  | getFelicaId unitNo idmOut =>
    match m.card with
    | .felica idm _ =>
      if unitNo = 0 then (.idm sOk (idm.toList.foldl (fun n b => n * 256 + b.toUInt64) 0), m)
      else (.idm sFalse idmOut, m)
    | _ => (.idm sFalse idmOut, m)
  | getMifareUid unitNo uidOut =>
    if unitNo ≠ 0 then (.buffer sFalse uidOut, m)
    else if uidOut.length ≠ 4 then (.buffer eInvalidarg uidOut, m)
    else
      match m.card with
      | .mifare uid => (.buffer sOk uid.toList, m)
      | _ => (.buffer sFalse uidOut, m)
  | mifareSelect unitNo uid =>
    if unitNo ≠ 0 then (.result sFalse, m)
    else if uid.length ≠ 4 then (.result eInvalidarg, m)
    else (.result (statusOf reply), m)
  | mifareSetKey unitNo _ key =>
    if unitNo ≠ 0 then (.result sFalse, m)
    else if key.length ≠ 6 then (.result eInvalidarg, m)
    else (.result (statusOf reply), m)
  | mifareReadBlock unitNo uid _ block =>
    if unitNo ≠ 0 then (.buffer sFalse block, m)
    else if uid.length ≠ 4 ∨ block.length ≠ 16 then (.buffer eInvalidarg block, m)
    else
      match reply with
      | none => (.buffer eFail block, m)
      | some response =>
        if response.status = 0 ∧ 16 ≤ response.payload.length then
          (.buffer sOk (response.payload.take 16), m)
        else (.buffer sFalse block, m)
  | felicaTransact unitNo _ res written =>
    if unitNo ≠ 0 then (.exchanged sFalse res written, m)
    else
      match reply with
      | none => (.exchanged eFail res written, m)
      | some response =>
        if response.status = 0 then
          (.exchanged sOk
            (response.payload.take res.length ++ res.drop response.payload.length)
            (min response.payload.length res.length), m)
        else (.exchanged sFalse res written, m)
  | sendHexData unitNo _ statusOut =>
    if unitNo ≠ 0 then (.status sFalse statusOut, m)
    else
      match reply with
      | none => (.status eFail statusOut, m)
      | some response => (.status (statusOf reply) (statusOut.map fun _ => response.status), m)
  | mifareAuthenticate unitNo _ _ | radioOn unitNo | radioOff unitNo | toUpdateMode unitNo =>
    (.result (if unitNo = 0 then statusOf reply else sFalse), m)
  | ledSetColor _ _ => (.nothing, m)

/-- A call that sets up the connection, whether or not it has requests. -/
def connects : CardCall → Bool
  | init => true
  | _ => false

end CardCall

/-! ## The host -/

/-- The link and the reader, with what the host remembers. -/
structure CardHost (δ : Type) where
  peer : Peer δ
  memory : CardMemory
  deriving DecidableEq

namespace CardHost

variable {δ : Type}

/-- The host before the requests of a call. -/
def opened (h : CardHost δ) (c : CardCall) (t : Attempt) : CardHost δ :=
  { h with peer.up := h.peer.up || c.connects && t.dials }

/-- A call: its requests, and what it makes of the first response. -/
def call (reader : CardReader δ) (ts : ℕ → Attempt) (h : CardHost δ) (c : CardCall) :
    Returned × CardHost δ :=
  let h := h.opened c (ts 0)
  let (replies, peer) := Remote.askAll reader.serve ts h.peer (c.requests h.peer.up h.memory)
  let (returned, memory) := c.finish h.peer.up h.memory replies.head?.join
  (returned, ⟨peer, memory⟩)

/-- A call, with some behaviour of the link. -/
def Step (reader : CardReader δ) (h : CardHost δ) (o : Option (CardCall × Returned))
    (h' : CardHost δ) : Prop :=
  ∃ c ts, o = some (c, (h.call reader ts c).1) ∧ h' = (h.call reader ts c).2

end CardHost

end Affine
