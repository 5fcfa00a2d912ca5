import Affine.Aime.Frame
import Mathlib.Data.Vector.Basic

set_option relaxedAutoImplicit false
set_option autoImplicit false

/-!
# The card reader

`Reader` and the exported operations of `affine-aime/src/lib.rs`. What the port does during one
exchange with the reader is a `Line`; an operation that waits for an answer which never comes
does not return, and is a fault of the model.

## Main definitions

* `Affine.Reader`, `Affine.CachedCard` — the state of the reader.
* `Affine.Line` — the behaviour of the port during one exchange.
* `Affine.Reader.transact` — a request and its reply.
* `Affine.Reader.poll`, `Affine.Reader.getAimeId`, and the other operations.

## Main results

* `Affine.Reader.transact_spec` — a request has a response only if the reader is connected, takes
  the request, and answers with a frame in the form of a reply.
* `Affine.Reader.transact_card`, `Affine.Reader.poll_spec` — what the operations do to the cached
  card.
-/

namespace Affine

open Slice (Exec)

/-! ## The source -/

abbrev Hresult := Int32

def sOk : Hresult := 0
def sFalse : Hresult := 1
def eFail : Hresult := (0x80004005 : UInt32).toInt32
def eInvalidarg : Hresult := (0x80070057 : UInt32).toInt32

def sgCmdGetFwVersion : UInt8 := 0x30
def sgCmdGetHwVersion : UInt8 := 0x32
def sgCmdRadioOn : UInt8 := 0x40
def sgCmdRadioOff : UInt8 := 0x41
def sgCmdPoll : UInt8 := 0x42
def sgCmdMifareSelect : UInt8 := 0x43
def sgCmdMifareSetKeyAime : UInt8 := 0x50
def sgCmdMifareAuthAime : UInt8 := 0x51
def sgCmdMifareReadBlock : UInt8 := 0x52
def sgCmdMifareSetKeyBana : UInt8 := 0x54
def sgCmdMifareAuthBana : UInt8 := 0x55
def sgCmdToUpdateMode : UInt8 := 0x60
def sgCmdSendHexData : UInt8 := 0x61
def sgCmdFelicaEncap : UInt8 := 0x71
def sgCmdExtLedRgb : UInt8 := 0x81
def sgCmdExtBoardInfo : UInt8 := 0xF0

/-- The card seen by the last poll. -/
inductive CachedCard
  | none
  | mifare (uid : List.Vector UInt8 4)
  | felica (idm pmm : List.Vector UInt8 8)
  deriving DecidableEq

/-- The state of the reader. -/
structure Reader where
  port : SerialPort
  seq : UInt8
  initialized : Bool
  card : CachedCard
  deriving DecidableEq

/-- A reply without its header. -/
structure ReaderResponse where
  status : UInt8
  payload : List UInt8
  deriving DecidableEq, Repr

/-- What the port does during one exchange: whether the reader is found and its port opens, if it
is not open already, what becomes of the bytes of the request, and what the reads return. -/
structure Line where
  found : Bool
  opens : Bool
  writes : PortWrite
  reads : List (PortRead 64)

namespace Reader

/-- `Reader::default`. -/
def default : Reader where
  port := .default
  seq := 0
  initialized := false
  card := .none

/-- `Reader::ensure_connected`. -/
def ensureConnected (r : Reader) (line : Line) : Bool × Reader :=
  if r.port.isOpen then (true, r)
  else if ¬ line.found then (false, r)
  else
    let (opened, port) := r.port.reopen line.opens
    (opened, { r with port := port })

/-- The end of `Reader::transact`: the header of the reply is checked and taken off. -/
def replyOf (response : List UInt8) : Exec (Except Hresult ReaderResponse) :=
  if response.length < 6 then return .error eFail
  else do
    let status ← Slice.get response 4
    let payloadLen := (← Slice.get response 5).toNat
    if response.length < 6 + payloadLen then return .error eFail
    else return .ok { status, payload := ← Slice.range response 6 (6 + payloadLen) }

/-- `Reader::transact`. -/
def transact (r : Reader) (line : Line) (cmd : UInt8) (payload : List UInt8) :
    Exec (Except Hresult ReaderResponse × Reader) :=
  match r.ensureConnected line with
  | (false, r) => return (.error eFail, r)
  | (true, r) =>
    let frame := encodeFrame r.seq cmd payload
    let r := { r with seq := r.seq + 1 }
    match r.port.write line.writes frame with
    | (false, port) => return (.error eFail, { r with port := port.close })
    | (true, port) => do
      match ← readFrame line.reads with
      | .waiting _ => .error .fuel
      | .returned none _ _ => return (.error eFail, { r with port := port.close })
      | .returned (some response) _ _ => return (← replyOf response, { r with port := port })

/-- `Reader::init`, without the texts that are only logged. -/
def init (r : Reader) (fw hw board : Line) : Exec (Hresult × Reader) :=
  match r.ensureConnected fw with
  | (false, r) => return (eFail, r)
  | (true, r) =>
    if r.initialized then return (sOk, r)
    else do
      let (_, r) ← r.transact fw sgCmdGetFwVersion []
      let (_, r) ← r.transact hw sgCmdGetHwVersion []
      let (_, r) ← r.transact board sgCmdExtBoardInfo []
      return (sOk, { r with initialized := true })

/-- `Reader::poll`. -/
def poll (r : Reader) (line : Line) : Exec (Hresult × Reader) := do
  match ← r.transact line sgCmdPoll [] with
  | (.error err, r) => return (err, r)
  | (.ok response, r) =>
    if response.payload.isEmpty then return (sFalse, { r with card := .none })
    else
      let count ← Slice.get response.payload 0
      if count = 0 then return (sFalse, { r with card := .none })
      else if response.payload.length < 3 then return (eFail, { r with card := .none })
      else
        let kind ← Slice.get response.payload 1
        if kind = 0x10 then
          if response.payload.length < 7 then return (eFail, { r with card := .none })
          else
            let uid ← Slice.copyFromSlice 4 (← Slice.range response.payload 3 7)
            return (sOk, { r with card := .mifare uid })
        else if kind = 0x20 then
          if response.payload.length < 19 then return (eFail, { r with card := .none })
          else
            let idm ← Slice.copyFromSlice 8 (← Slice.range response.payload 3 11)
            let pmm ← Slice.copyFromSlice 8 (← Slice.range response.payload 11 19)
            return (sOk, { r with card := .felica idm pmm })
        else return (sFalse, { r with card := .none })

/-- `Reader::get_aime_id`; the middle result is the content of `luid` afterwards. -/
def getAimeId (r : Reader) (luid : List UInt8) (line : Line) :
    Exec (Hresult × List UInt8 × Reader) :=
  if luid.length ≠ 10 then return (eInvalidarg, luid, r)
  else
    match r.card with
    | .mifare uid => do
      let head ← Slice.copyFromSlice 4 uid.toList
      match ← r.transact line sgCmdMifareReadBlock (head.toList ++ [2]) with
      | (.error err, r) => return (err, luid, r)
      | (.ok response, r) =>
        if response.status ≠ 0 ∨ response.payload.length < 16 then return (sFalse, luid, r)
        else
          let id ← Slice.copyFromSlice luid.length (← Slice.range response.payload 6 16)
          return (sOk, id.toList, r)
    | _ => return (sFalse, luid, r)

/-- `Reader::get_felica_id`; the second result is the value of `idm_out` afterwards. -/
def getFelicaId (r : Reader) (idmOut : UInt64) : Hresult × UInt64 :=
  match r.card with
  | .felica idm _ => (sOk, idm.toList.foldl (fun n b => n * 256 + b.toUInt64) 0)
  | _ => (sFalse, idmOut)

/-- `Reader::get_mifare_uid`; the second result is the content of `uid_out` afterwards. -/
def getMifareUid (r : Reader) (uidOut : List UInt8) : Exec (Hresult × List UInt8) :=
  if uidOut.length ≠ 4 then return (eInvalidarg, uidOut)
  else
    match r.card with
    | .mifare uid => do
      let out ← Slice.copyFromSlice uidOut.length uid.toList
      return (sOk, out.toList)
    | _ => return (sFalse, uidOut)

end Reader

/-! ### The exported operations -/

namespace Aime

/-- The result of an operation that only looks at the status of the reply. -/
def statusResult : Except Hresult ReaderResponse → Hresult
  | .ok response => if response.status = 0 then sOk else sFalse
  | .error err => err

/-- An operation that sends a request and looks at the status of the reply. -/
def simple (r : Reader) (unitNo cmd : UInt8) (payload : List UInt8) (line : Line) :
    Exec (Hresult × Reader) :=
  if unitNo ≠ 0 then return (sFalse, r)
  else do
    let (response, r) ← r.transact line cmd payload
    return (statusResult response, r)

def poll (r : Reader) (unitNo : UInt8) (line : Line) : Exec (Hresult × Reader) :=
  if unitNo ≠ 0 then return (sFalse, r) else r.poll line

def getAimeId (r : Reader) (unitNo : UInt8) (luid : List UInt8) (line : Line) :
    Exec (Hresult × List UInt8 × Reader) :=
  if unitNo ≠ 0 then return (sFalse, luid, r) else r.getAimeId luid line

def getFelicaId (r : Reader) (unitNo : UInt8) (idmOut : UInt64) : Hresult × UInt64 :=
  if unitNo ≠ 0 then (sFalse, idmOut) else r.getFelicaId idmOut

def getMifareUid (r : Reader) (unitNo : UInt8) (uidOut : List UInt8) :
    Exec (Hresult × List UInt8) :=
  if unitNo ≠ 0 then return (sFalse, uidOut) else r.getMifareUid uidOut

def mifareSelect (r : Reader) (unitNo : UInt8) (uid : List UInt8) (line : Line) :
    Exec (Hresult × Reader) :=
  if unitNo ≠ 0 then return (sFalse, r)
  else if uid.length ≠ 4 then return (eInvalidarg, r)
  else simple r unitNo sgCmdMifareSelect uid line

def mifareSetKey (r : Reader) (unitNo keyType : UInt8) (key : List UInt8) (line : Line) :
    Exec (Hresult × Reader) :=
  if unitNo ≠ 0 then return (sFalse, r)
  else if key.length ≠ 6 then return (eInvalidarg, r)
  else
    let cmd := if keyType = 0 then sgCmdMifareSetKeyAime else sgCmdMifareSetKeyBana
    simple r unitNo cmd key line

def mifareAuthenticate (r : Reader) (unitNo keyType : UInt8) (payload : List UInt8)
    (line : Line) : Exec (Hresult × Reader) :=
  let cmd := if keyType = 0 then sgCmdMifareAuthAime else sgCmdMifareAuthBana
  simple r unitNo cmd payload line

/-- The middle result is the content of `block` afterwards. -/
def mifareReadBlock (r : Reader) (unitNo : UInt8) (uid : List UInt8) (blockNo : UInt8)
    (block : List UInt8) (line : Line) : Exec (Hresult × List UInt8 × Reader) :=
  if unitNo ≠ 0 then return (sFalse, block, r)
  else if uid.length ≠ 4 ∨ block.length ≠ 16 then return (eInvalidarg, block, r)
  else do
    let head ← Slice.copyFromSlice 4 uid
    match ← r.transact line sgCmdMifareReadBlock (head.toList ++ [blockNo]) with
    | (.ok response, r) =>
      if response.status = 0 ∧ 16 ≤ response.payload.length then
        let out ← Slice.copyFromSlice block.length (← Slice.range response.payload 0 16)
        return (sOk, out.toList, r)
      else return (sFalse, block, r)
    | (.error err, r) => return (err, block, r)

/-- The middle results are the content of `res` and the value of `res_size_written` afterwards. -/
def felicaTransact (r : Reader) (unitNo : UInt8) (req res : List UInt8) (resSizeWritten : ℕ)
    (line : Line) : Exec (Hresult × List UInt8 × ℕ × Reader) :=
  if unitNo ≠ 0 then return (sFalse, res, resSizeWritten, r)
  else do
    match ← r.transact line sgCmdFelicaEncap req with
    | (.ok response, r) =>
      if response.status = 0 then
        let copyLen := min response.payload.length res.length
        let src ← Slice.range response.payload 0 copyLen
        let dst ← Slice.copyFromSlice (← Slice.range res 0 copyLen).length src
        return (sOk, dst.toList ++ res.drop copyLen, copyLen, r)
      else return (sFalse, res, resSizeWritten, r)
    | (.error err, r) => return (err, res, resSizeWritten, r)

def radioOn (r : Reader) (unitNo : UInt8) (line : Line) : Exec (Hresult × Reader) :=
  simple r unitNo sgCmdRadioOn [] line

def radioOff (r : Reader) (unitNo : UInt8) (line : Line) : Exec (Hresult × Reader) :=
  simple r unitNo sgCmdRadioOff [] line

def toUpdateMode (r : Reader) (unitNo : UInt8) (line : Line) : Exec (Hresult × Reader) :=
  simple r unitNo sgCmdToUpdateMode [] line

/-- The middle result is the value behind `status_out` afterwards. -/
def sendHexData (r : Reader) (unitNo : UInt8) (payload : List UInt8) (statusOut : Option UInt8)
    (line : Line) : Exec (Hresult × Option UInt8 × Reader) :=
  if unitNo ≠ 0 then return (sFalse, statusOut, r)
  else do
    match ← r.transact line sgCmdSendHexData payload with
    | (.ok response, r) =>
      return (if response.status = 0 then sOk else sFalse,
        statusOut.map fun _ => response.status, r)
    | (.error err, r) => return (err, statusOut, r)

def ledSetColor (r : Reader) (unitNo : UInt8) (rgb : List.Vector UInt8 3) (line : Line) :
    Exec Reader :=
  if unitNo ≠ 0 then return r
  else do
    let (_, r) ← r.transact line sgCmdExtLedRgb rgb.toList
    return r

end Aime

/-! ## What a request comes to -/

/-- A decoded frame in the form of a reply: a header of six bytes, the last of which counts the
bytes behind it that are there. -/
def ReplyShaped (frame : List UInt8) : Prop :=
  6 ≤ frame.length ∧ 6 + (frame.getD 5 0).toNat ≤ frame.length

instance (frame : List UInt8) : Decidable (ReplyShaped frame) :=
  inferInstanceAs (Decidable (_ ∧ _))

/-- The status and the payload in a reply. -/
def responseIn (frame : List UInt8) : ReaderResponse where
  status := frame.getD 4 0
  payload := (frame.drop 6).take (frame.getD 5 0).toNat

namespace Reader

/-- The reader's port is open, or can be opened. -/
def Connects (r : Reader) (line : Line) : Prop := r.port.isOpen ∨ line.found ∧ line.opens

/-- The port of the reader is open or opens, takes the request, and the first frame in the answer
is sound and has the form of a reply. -/
def Answered (r : Reader) (line : Line) : Prop :=
  r.Connects line ∧ line.writes.ok ∧
    ∃ frame, FirstFrame (answerBytes line.reads) frame ∧ ReplyShaped frame

/-- A reader that connects has its port open. -/
lemma ensureConnected_of_connects {r : Reader} {line : Line} (h : r.Connects line) :
    ∃ port, r.ensureConnected line = (true, { r with port := port }) ∧ port.isOpen := by
  unfold ensureConnected
  by_cases hopen : r.port.isOpen
  · exact ⟨r.port, by simp [hopen], hopen⟩
  · obtain ⟨hfound, hopens⟩ := h.resolve_left hopen
    exact ⟨.opened, by simp [hopen, hfound, hopens, SerialPort.reopen], rfl⟩

/-- A reader that does not connect fails, and changes its port at most. -/
lemma ensureConnected_of_not_connects {r : Reader} {line : Line} (h : ¬ r.Connects line) :
    ∃ port, r.ensureConnected line = (false, { r with port := port }) := by
  obtain ⟨hopen, hline⟩ := not_or.mp h
  unfold ensureConnected
  by_cases hfound : line.found
  · have hopens : ¬ line.opens := fun ho => hline ⟨hfound, ho⟩
    exact ⟨r.port.close, by simp [hopen, hfound, hopens, SerialPort.reopen]⟩
  · exact ⟨r.port, by simp [hopen, hfound]⟩

/-- The port is open afterwards if it was or could be opened. -/
lemma ensureConnected_eq (r : Reader) (line : Line) : ∃ port,
    r.ensureConnected line = (port.isOpen, { r with port := port }) ∧
      port.isOpen = (r.port.isOpen || line.found && line.opens) := by
  unfold ensureConnected
  cases hopen : r.port.isOpen with
  | true => exact ⟨r.port, by simp [hopen], by simp [hopen]⟩
  | false =>
    cases hfound : line.found with
    | false => exact ⟨r.port, by simp [hopen], by simp [hopen]⟩
    | true =>
      cases hopens : line.opens with
      | false => exact ⟨r.port.close, by simp [SerialPort.reopen, SerialPort.close], rfl⟩
      | true => exact ⟨.opened, by simp [SerialPort.reopen], rfl⟩

/-- A reader connects if its port is open, or if a port is found and opens. -/
lemma connects_iff (r : Reader) (line : Line) :
    r.Connects line ↔ (r.port.isOpen || line.found && line.opens) = true := by
  simp [Connects]

/-- `read_frame` makes a reply of a frame exactly if it has the form of one. -/
lemma replyOf_eq (frame : List UInt8) :
    replyOf frame = .ok (if ReplyShaped frame then .ok (responseIn frame) else .error eFail) := by
  unfold replyOf
  by_cases hsix : frame.length < 6
  · rw [if_pos hsix, if_neg fun h : ReplyShaped frame => by have := h.1; omega]
    rfl
  · rw [if_neg hsix, Slice.get_eq_getD (by omega) 0, Slice.get_eq_getD (by omega) 0]
    simp only [Slice.ok_bind]
    by_cases hsize : frame.length < 6 + (frame.getD 5 0).toNat
    · rw [if_pos hsize, if_neg fun h : ReplyShaped frame => by have := h.2; omega]
      rfl
    · rw [if_neg hsize, if_pos ⟨by omega, by omega⟩, Slice.range_eq_ok (by omega) (by omega)]
      simp only [Slice.ok_bind, responseIn, List.drop_take]
      rw [show 6 + (frame.getD 5 0).toNat - 6 = (frame.getD 5 0).toNat by omega]
      rfl

/-- **What a request comes to**, if the call returns: the cached card stays, and there is a
response only if the reader answered, namely the one in the frame that `read_frame` returned.

**Proof sketch.** The exits of `transact` in order: no connection, a failed write, a failed read,
and a frame, which is a reply or not (`replyOf_eq`). -/
theorem transact_spec {r r' : Reader} {line : Line} {cmd : UInt8} {payload : List UInt8}
    {x : Except Hresult ReaderResponse} (h : r.transact line cmd payload = .ok (x, r')) :
    r'.card = r.card ∧
      ((x = .error eFail ∧ ¬ r.Answered line) ∨
        ∃ frame dropped rest, r.Connects line ∧ line.writes.ok ∧
          readFrame line.reads = .ok (.returned (some frame) dropped rest) ∧ ReplyShaped frame ∧
          x = .ok (responseIn frame) ∧
          r'.port.sent.getLast? = some (encodeFrame r.seq cmd payload)) := by
  unfold transact at h
  by_cases hconnects : r.Connects line
  · obtain ⟨port, hensure, hopen⟩ := ensureConnected_of_connects hconnects
    rw [hensure] at h
    by_cases hwrites : line.writes.ok
    · obtain ⟨port', hwrite, -, hsent⟩ :=
        SerialPort.write_of_ok hopen hwrites (encodeFrame r.seq cmd payload)
      simp only [hwrite] at h
      obtain ⟨result, hread, h⟩ := Slice.bind_eq_ok.mp h
      cases result with
      | waiting s => cases h
      | returned found dropped rest =>
        cases found with
        | none =>
          cases h
          refine ⟨rfl, .inl ⟨rfl, ?_⟩⟩
          rintro ⟨-, -, frame, hfirst, -⟩
          obtain ⟨dropped', rest', hread'⟩ := (readFrame_eq_some_iff line.reads frame).mpr hfirst
          rw [hread] at hread'
          cases hread'
        | some frame =>
          simp only [replyOf_eq, Slice.ok_bind, Slice.pure_eq_ok] at h
          cases h
          refine ⟨rfl, ?_⟩
          by_cases hshape : ReplyShaped frame
          · exact .inr ⟨frame, dropped, rest, hconnects, hwrites, hread, hshape, if_pos hshape,
              hsent ▸ List.getLast?_concat⟩
          · refine .inl ⟨if_neg hshape, ?_⟩
            rintro ⟨-, -, frame', hfirst, hshape'⟩
            obtain ⟨dropped', rest', hread'⟩ := (readFrame_eq_some_iff line.reads frame').mpr hfirst
            rw [hread] at hread'
            cases hread'
            exact hshape hshape'
    · obtain ⟨port', hwrite, -⟩ :=
        SerialPort.write_of_not_ok hopen hwrites (encodeFrame r.seq cmd payload)
      simp only [hwrite] at h
      cases h
      exact ⟨rfl, .inl ⟨rfl, fun ha => hwrites ha.2.1⟩⟩
  · obtain ⟨port, hensure⟩ := ensureConnected_of_not_connects hconnects
    rw [hensure] at h
    cases h
    exact ⟨rfl, .inl ⟨rfl, fun ha => hconnects ha.1⟩⟩

/-- An answered request has the response that is in the answer. -/
lemma answered_of_transact {r r' : Reader} {line : Line} {cmd : UInt8} {payload : List UInt8}
    {response : ReaderResponse} (h : r.transact line cmd payload = .ok (.ok response, r')) :
    r.Answered line := by
  rcases transact_spec h with
    ⟨-, ⟨hx, -⟩ | ⟨frame, dropped, rest, hconnects, hwrites, hread, hshape, -⟩⟩
  · cases hx
  · exact ⟨hconnects, hwrites, frame, (readFrame_eq_some_iff _ _).mp ⟨dropped, rest, hread⟩, hshape⟩

/-- A request leaves the cached card. -/
lemma transact_card {r r' : Reader} {line : Line} {cmd : UInt8} {payload : List UInt8}
    {x : Except Hresult ReaderResponse} (h : r.transact line cmd payload = .ok (x, r')) :
    r'.card = r.card := (transact_spec h).1

end Reader

/-! ## The card in a reply -/

/-- The payload of a reply to a poll describes this card: the number of cards, the kind and the
size of the first, and its numbers. -/
inductive Describes : List UInt8 → CachedCard → Prop
  | mifare (count size : UInt8) (uid : List.Vector UInt8 4) (rest : List UInt8) (h : count ≠ 0) :
      Describes (count :: 0x10 :: size :: (uid.toList ++ rest)) (.mifare uid)
  | felica (count size : UInt8) (idm pmm : List.Vector UInt8 8) (rest : List UInt8)
      (h : count ≠ 0) :
      Describes (count :: 0x20 :: size :: (idm.toList ++ (pmm.toList ++ rest))) (.felica idm pmm)

/-- Behind a header that announces a Mifare card, the copied range is the card. -/
lemma copy_mifare {count size : UInt8} {numbers : List UInt8} (hcount : count ≠ 0)
    (hlen : 7 ≤ (count :: 0x10 :: size :: numbers).length) :
    ∃ s uid, Slice.range (count :: 0x10 :: size :: numbers) 3 7 = .ok s ∧
      Slice.copyFromSlice 4 s = .ok uid ∧
        Describes (count :: 0x10 :: size :: numbers) (.mifare uid) := by
  obtain ⟨s, uid, hs, huid, hcopy⟩ := Slice.exists_copy (count :: 0x10 :: size :: numbers)
    (n := 4) (a := 3) (b := 7) rfl hlen
  refine ⟨s, uid, hs, huid, ?_⟩
  have hnumbers : numbers = uid.toList ++ numbers.drop 4 := by
    rw [hcopy]
    exact (List.take_append_drop 4 numbers).symm
  rw [hnumbers]
  exact .mifare count size uid _ hcount

/-- Behind a header that announces a FeliCa card, the copied ranges are the card. -/
lemma copy_felica {count size : UInt8} {numbers : List UInt8} (hcount : count ≠ 0)
    (hlen : 19 ≤ (count :: 0x20 :: size :: numbers).length) :
    ∃ s idm s' pmm, Slice.range (count :: 0x20 :: size :: numbers) 3 11 = .ok s ∧
      Slice.copyFromSlice 8 s = .ok idm ∧
      Slice.range (count :: 0x20 :: size :: numbers) 11 19 = .ok s' ∧
      Slice.copyFromSlice 8 s' = .ok pmm ∧
        Describes (count :: 0x20 :: size :: numbers) (.felica idm pmm) := by
  obtain ⟨s, idm, hs, hidm, hcopy⟩ := Slice.exists_copy (count :: 0x20 :: size :: numbers)
    (n := 8) (a := 3) (b := 11) rfl (by omega)
  obtain ⟨s', pmm, hs', hpmm, hcopy'⟩ := Slice.exists_copy (count :: 0x20 :: size :: numbers)
    (n := 8) (a := 11) (b := 19) rfl hlen
  refine ⟨s, idm, s', pmm, hs, hidm, hs', hpmm, ?_⟩
  have hrest : numbers.drop 8 = pmm.toList ++ numbers.drop 16 := by
    rw [hcopy', show 16 = 8 + 8 from rfl, ← List.drop_drop]
    exact (List.take_append_drop 8 (numbers.drop 8)).symm
  have hnumbers : numbers = idm.toList ++ (pmm.toList ++ numbers.drop 16) := by
    rw [hcopy, ← hrest]
    exact (List.take_append_drop 8 numbers).symm
  rw [hnumbers]
  exact .felica count size idm pmm _ hcount

namespace Reader

/-- **What a poll does to the cached card**: without an answer the card stays and the poll fails;
with an answer the card is forgotten, unless the poll succeeds, and then the answer describes it.

**Proof sketch.** The exits of `poll` in order. Behind the length checks the payload has its three
header bytes, and the copied ranges are the card (`copy_mifare`, `copy_felica`). -/
theorem poll_spec {r r' : Reader} {line : Line} {result : Hresult}
    (h : r.poll line = .ok (result, r')) :
    (¬ r.Answered line ∧ result = eFail ∧ r'.card = r.card) ∨
      r.Answered line ∧ (r'.card = .none ∨ ∃ response r₁,
        r.transact line sgCmdPoll [] = .ok (.ok response, r₁) ∧ result = sOk ∧
          Describes response.payload r'.card) := by
  unfold poll at h
  obtain ⟨⟨x, r₁⟩, htransact, h⟩ := Slice.bind_eq_ok.mp h
  cases x with
  | error err =>
    cases h
    rcases transact_spec htransact with ⟨hcard, ⟨hx, hno⟩ | ⟨_, _, _, _, _, _, _, hx, _⟩⟩
    · exact .inl ⟨hno, Except.error.inj hx, hcard⟩
    · cases hx
  | ok response =>
    refine .inr ⟨answered_of_transact htransact, ?_⟩
    suffices hcard : r'.card = .none ∨ result = sOk ∧ Describes response.payload r'.card from
      hcard.imp_right fun ⟨hresult, hdesc⟩ => ⟨response, r₁, htransact, hresult, hdesc⟩
    dsimp only at h
    generalize response.payload = payload at h ⊢
    rcases payload with _ | ⟨count, payload⟩
    · cases h
      exact .inl rfl
    change (if count = 0 then _ else _) = _ at h
    by_cases hcount : count = 0
    · rw [if_pos hcount] at h
      cases h
      exact .inl rfl
    rw [if_neg hcount] at h
    rcases payload with _ | ⟨kind, _ | ⟨size, numbers⟩⟩
    · cases h
      exact .inl rfl
    · cases h
      exact .inl rfl
    have hlength : (count :: kind :: size :: numbers).length = numbers.length + 3 := rfl
    rw [if_neg (by omega)] at h
    change (if kind = 0x10 then _ else _) = _ at h
    by_cases hmifare : kind = 0x10
    · subst hmifare
      rw [if_pos rfl] at h
      by_cases hshort : (count :: 0x10 :: size :: numbers).length < 7
      · rw [if_pos hshort] at h
        cases h
        exact .inl rfl
      obtain ⟨s, uid, hs, huid, hcard⟩ := copy_mifare hcount (not_lt.mp hshort)
      rw [if_neg hshort, hs, Slice.ok_bind, huid] at h
      cases h
      exact .inr ⟨rfl, hcard⟩
    rw [if_neg hmifare] at h
    by_cases hfelica : kind = 0x20
    · subst hfelica
      rw [if_pos rfl] at h
      by_cases hshort : (count :: 0x20 :: size :: numbers).length < 19
      · rw [if_pos hshort] at h
        cases h
        exact .inl rfl
      obtain ⟨s, idm, s', pmm, hs, hidm, hs', hpmm, hcard⟩ :=
        copy_felica hcount (not_lt.mp hshort)
      rw [if_neg hshort, hs, Slice.ok_bind, hidm, Slice.ok_bind, hs', Slice.ok_bind, hpmm] at h
      cases h
      exact .inr ⟨rfl, hcard⟩
    · rw [if_neg hfelica] at h
      cases h
      exact .inl rfl

end Reader

end Affine
