import Affine.Aime.Reader

set_option relaxedAutoImplicit false
set_option autoImplicit false

/-!
# The length of a request

`encode_frame` (`affine-aime/src/lib.rs`) stores the length of the body and that of the payload in a
byte each. `felica_transact`, `send_hex_data` and `mifare_authenticate` take a payload of any
length, and nothing on the way to the port limits it. So the frame tells the truth about its length
exactly for payloads of at most `250` bytes (`Affine.request_truthful_iff`): from `251` on the
length of the body does not fit into its byte.

## Main definitions

* `Affine.Reader.sendRequest` — the part of `transact` up to the write.
* `Affine.PayloadOp` — the operations that take a payload of any length.
* `Affine.FrameTruthful`, `Affine.PayloadOp.RequestTruthful` — the lengths in a frame are right, and
  an operation writes such a frame or nothing.

## Main results

* `Affine.frameTruthful_iff`, `Affine.request_truthful_iff`.
-/

namespace Affine

open Slice (Exec)

/-! ## Frames -/

/-- **The frame tells the truth about its length**: its first byte is the number of bytes of the
body, the fifth is that of the payload, and `read_frame` finds the payload in it. -/
structure FrameTruthful (frame payload : List UInt8) : Prop where
  bodyLength :
    ((aimeCode.received frame).getD 0 0).toNat = (aimeCode.received frame).dropLast.length
  payloadLength : ((aimeCode.received frame).getD 4 0).toNat = payload.length
  decodes : ∀ cs : List (Chunk 64), Chunk.joined cs = frame →
    ∃ header rest, header.length = 5 ∧ Chunk.joined rest = [] ∧
      readFrame (cs.map some) = .ok (.returned (some (header ++ payload)) [] (rest.map some))

/-- A frame begins with the synchronisation byte. -/
lemma encodeFrame_ne_nil (seq cmd : UInt8) (payload : List UInt8) :
    encodeFrame seq cmd payload ≠ [] := by
  rw [encodeFrame_eq]
  exact List.cons_ne_nil _ _

/-- Behind an encoded frame the decoder has the body and the checksum. -/
lemma received_encodeFrame (seq cmd : UInt8) (payload : List UInt8) :
    aimeCode.received (encodeFrame seq cmd payload) =
      aimeBody seq cmd payload ++ [Checksum.sum (aimeBody seq cmd payload)] := by
  rw [encodeFrame_eq]
  exact aimeCode.received_stuff _

/-- **A frame tells the truth about its length exactly if the payload has at most `250` bytes.**

**Proof sketch.** The body has five bytes more than the payload, and a byte holds at most `255`. -/
theorem frameTruthful_iff (seq cmd : UInt8) (payload : List UInt8) :
    FrameTruthful (encodeFrame seq cmd payload) payload ↔ payload.length ≤ 250 := by
  have hreceived := received_encodeFrame seq cmd payload
  have hfirst : (aimeCode.received (encodeFrame seq cmd payload)).getD 0 0 =
      UInt8.ofNat (5 + payload.length) := by
    rw [hreceived]
    rfl
  have hlength : (aimeCode.received (encodeFrame seq cmd payload)).dropLast.length =
      5 + payload.length := by
    rw [hreceived, List.dropLast_concat, length_aimeBody]
  constructor
  · intro h
    have hbody := h.bodyLength
    rw [hfirst, hlength] at hbody
    have hbyte := (UInt8.ofNat (5 + payload.length)).toNat_lt
    omega
  · intro hlen
    refine ⟨?_, ?_, ?_⟩
    · rw [hfirst, hlength, UInt8.toNat_ofNat']
      omega
    · have hfifth : (aimeCode.received (encodeFrame seq cmd payload)).getD 4 0 =
          UInt8.ofNat payload.length := by
        rw [hreceived]
        rfl
      rw [hfifth, UInt8.toNat_ofNat']
      omega
    · intro cs hcs
      obtain ⟨hdecodes, -⟩ := readFrame_encodeFrame seq cmd payload hlen [] .init rfl
      obtain ⟨rest, hrest, hread⟩ := hdecodes cs hcs
      exact ⟨_, rest, rfl, hrest, hread⟩

/-! ## Operations -/

/-- `Reader::transact` up to the write: the frame that the port takes, if it does. -/
def Reader.sendRequest (r : Reader) (line : Line) (cmd : UInt8) (payload : List UInt8) :
    Option (List UInt8) × Reader :=
  match r.ensureConnected line with
  | (false, r) => (none, r)
  | (true, r) =>
    let frame := encodeFrame r.seq cmd payload
    let r := { r with seq := r.seq + 1 }
    match r.port.write line.writes frame with
    | (false, port) => (none, { r with port := port.close })
    | (true, port) => (some frame, { r with port := port })

/-- `Reader::transact` is the write and then the read of the answer. -/
lemma Reader.transact_eq (r : Reader) (line : Line) (cmd : UInt8) (payload : List UInt8) :
    r.transact line cmd payload =
      match r.sendRequest line cmd payload with
      | (none, r) => return (.error eFail, r)
      | (some _, r) => do
        match ← readFrame line.reads with
        | .waiting _ => .error .fuel
        | .returned none _ _ => return (.error eFail, { r with port := r.port.close })
        | .returned (some response) _ _ => return (← replyOf response, r) := by
  unfold transact sendRequest
  generalize r.ensureConnected line = connected
  obtain ⟨_ | _, r₁⟩ := connected
  · rfl
  · dsimp only
    generalize r₁.port.write line.writes (encodeFrame r₁.seq cmd payload) = written
    obtain ⟨_ | _, port⟩ := written <;> rfl

/-- The bytes of a request that go out. -/
def Reader.requestOut (r : Reader) (line : Line) (cmd : UInt8) (payload : List UInt8) :
    List UInt8 :=
  if (r.ensureConnected line).1 then line.writes.out (encodeFrame r.seq cmd payload) else []

/-- What the write of a request does: the port takes the frame exactly if it is open or opens, and
the system writes it. Otherwise the port is closed. -/
lemma Reader.sendRequest_spec (r : Reader) (line : Line) (cmd : UInt8) (payload : List UInt8) :
    (r.Connects line ∧ line.writes.ok = true ∧ ∃ r',
        r.sendRequest line cmd payload = (some (encodeFrame r.seq cmd payload), r') ∧
          r'.port.isOpen = true) ∨
      ¬ (r.Connects line ∧ line.writes.ok = true) ∧
        ∃ r', r.sendRequest line cmd payload = (none, r') ∧ r'.port.isOpen = false := by
  obtain ⟨port, hensure, hup⟩ := r.ensureConnected_eq line
  rw [connects_iff, ← hup, sendRequest, hensure]
  cases hopen : port.isOpen with
  | false => exact .inr ⟨by simp, _, rfl, hopen⟩
  | true =>
    by_cases hwrites : line.writes.ok = true
    · obtain ⟨port', hwrite, hopen', -⟩ :=
        SerialPort.write_of_ok hopen hwrites (encodeFrame r.seq cmd payload)
      exact .inl ⟨rfl, hwrites, by simp [hwrite, hopen']⟩
    · obtain ⟨port', hwrite, -⟩ :=
        SerialPort.write_of_not_ok hopen hwrites (encodeFrame r.seq cmd payload)
      exact .inr ⟨fun h => hwrites h.2, by simp [hwrite, SerialPort.close]⟩

/-- What goes out with a request, whether or not the write succeeds. -/
lemma Reader.sendRequest_wire (r : Reader) (line : Line) (cmd : UInt8) (payload : List UInt8) :
    (r.sendRequest line cmd payload).2.port.wire =
      (r.ensureConnected line).2.port.wire ++ r.requestOut line cmd payload := by
  obtain ⟨port, hensure, -⟩ := r.ensureConnected_eq line
  rw [sendRequest, requestOut, hensure]
  cases hopen : port.isOpen with
  | false => simp
  | true =>
    have hwire := SerialPort.write_wire hopen line.writes (encodeFrame r.seq cmd payload)
    dsimp only
    rw [if_pos rfl, ← hwire]
    cases port.write line.writes (encodeFrame r.seq cmd payload) with
    | mk written port' => cases written <;> rfl

/-- The read of the answer writes nothing.

**Proof sketch.** The cases are the exits of a request; behind the send they close the port at most.
-/
lemma Reader.transact_wire {r r' : Reader} {line : Line} {cmd : UInt8} {payload : List UInt8}
    {x : Except Hresult ReaderResponse} (h : r.transact line cmd payload = .ok (x, r')) :
    r'.port.wire = (r.sendRequest line cmd payload).2.port.wire := by
  rw [transact_eq] at h
  cases hsend : r.sendRequest line cmd payload with
  | mk frame r₁ =>
    rw [hsend] at h
    cases frame with
    | none =>
      cases h
      rfl
    | some frame =>
      obtain ⟨result, -, h⟩ := Slice.bind_eq_ok.mp h
      cases result with
      | waiting s => cases h
      | returned found dropped rest =>
        cases found with
        | none =>
          cases h
          rfl
        | some response =>
          obtain ⟨reply, -, h⟩ := Slice.bind_eq_ok.mp h
          cases h
          rfl

/-- The operations that take a payload of any length, with their other arguments. -/
inductive PayloadOp
  | felicaTransact (res : List UInt8) (resSizeWritten : ℕ)
  | sendHexData (statusOut : Option UInt8)
  | mifareAuthenticate (keyType : UInt8)

namespace PayloadOp

/-- The command of an operation. -/
def cmd : PayloadOp → UInt8
  | felicaTransact _ _ => sgCmdFelicaEncap
  | sendHexData _ => sgCmdSendHexData
  | mifareAuthenticate keyType => if keyType = 0 then sgCmdMifareAuthAime else sgCmdMifareAuthBana

/-- The result of an operation, and the reader behind it. -/
def run (op : PayloadOp) (r : Reader) (unitNo : UInt8) (payload : List UInt8) (line : Line) :
    Exec (Hresult × Reader) :=
  match op with
  | felicaTransact res resSizeWritten => do
    let (result, _, _, r) ← Aime.felicaTransact r unitNo payload res resSizeWritten line
    return (result, r)
  | sendHexData statusOut => do
    let (result, _, r) ← Aime.sendHexData r unitNo payload statusOut line
    return (result, r)
  | mifareAuthenticate keyType => Aime.mifareAuthenticate r unitNo keyType payload line

/-- What has gone out when an operation comes to its write. -/
def wireBefore (r : Reader) (unitNo : UInt8) (line : Line) : List UInt8 :=
  if unitNo = 0 then (r.ensureConnected line).2.port.wire else r.port.wire

/-- **The request of an operation tells the truth about its length**: either the operation fails and
not a byte goes out, or the lengths in the frame that it hands to the port are right, of which the
system writes all or, if the write fails, a part. -/
def RequestTruthful (op : PayloadOp) (r : Reader) (unitNo : UInt8) (payload : List UInt8)
    (line : Line) : Prop :=
  (∃ result r', op.run r unitNo payload line = .ok (result, r') ∧ result ≠ sOk ∧
      r'.port.wire = wireBefore r unitNo line) ∨
    unitNo = 0 ∧
      (r.sendRequest line op.cmd payload).2.port.wire =
        wireBefore r unitNo line ++ line.writes.out (encodeFrame r.seq op.cmd payload) ∧
      FrameTruthful (encodeFrame r.seq op.cmd payload) payload

/-- The operation reaches a port, and a byte of the request goes out. -/
def Writes (r : Reader) (unitNo : UInt8) (line : Line) : Prop :=
  unitNo = 0 ∧ r.Connects line ∧ line.writes ≠ .failed 0

variable {r r' : Reader} {line : Line} {payload : List UInt8}

/-- An operation whose request is not taken fails. -/
lemma run_of_sendRequest_none (op : PayloadOp)
    (h : r.sendRequest line op.cmd payload = (none, r')) :
    op.run r 0 payload line = .ok (eFail, r') := by
  have htransact : r.transact line op.cmd payload = .ok (.error eFail, r') := by
    rw [r.transact_eq, h]
    rfl
  cases op <;>
    simp only [run, cmd, Aime.felicaTransact, Aime.sendHexData, Aime.mifareAuthenticate,
      Aime.simple] at htransact ⊢ <;>
    rw [htransact] <;> rfl

/-- The reader behind an operation is the one behind its request.

**Proof sketch.** The cases are the operations with a payload. Behind the request none of them
writes to the reader. -/
lemma exists_transact (op : PayloadOp) {result : Hresult}
    (h : op.run r 0 payload line = .ok (result, r')) :
    ∃ x, r.transact line op.cmd payload = .ok (x, r') := by
  cases op with
  | felicaTransact res resSizeWritten =>
    obtain ⟨⟨result', res', n, r₁⟩, hop, hrun⟩ := Slice.bind_eq_ok.mp h
    cases hrun
    rw [Aime.felicaTransact, if_neg (by simp)] at hop
    obtain ⟨⟨x, r₂⟩, htransact, hop⟩ := Slice.bind_eq_ok.mp hop
    cases x with
    | error err =>
      cases hop
      exact ⟨_, htransact⟩
    | ok response =>
      dsimp only at hop
      split at hop
      · obtain ⟨src, -, hop⟩ := Slice.bind_eq_ok.mp hop
        obtain ⟨part, -, hop⟩ := Slice.bind_eq_ok.mp hop
        obtain ⟨dst, -, hop⟩ := Slice.bind_eq_ok.mp hop
        cases hop
        exact ⟨_, htransact⟩
      · cases hop
        exact ⟨_, htransact⟩
  | sendHexData statusOut =>
    obtain ⟨⟨result', status', r₁⟩, hop, hrun⟩ := Slice.bind_eq_ok.mp h
    cases hrun
    rw [Aime.sendHexData, if_neg (by simp)] at hop
    obtain ⟨⟨x, r₂⟩, htransact, hop⟩ := Slice.bind_eq_ok.mp hop
    cases x <;> cases hop <;> exact ⟨_, htransact⟩
  | mifareAuthenticate keyType =>
    rw [run, Aime.mifareAuthenticate, Aime.simple, if_neg (by simp)] at h
    obtain ⟨⟨x, r₂⟩, htransact, hop⟩ := Slice.bind_eq_ok.mp h
    cases hop
    exact ⟨x, htransact⟩

/-- An operation tells the truth about its length if its frame does. -/
lemma requestTruthful_of_frameTruthful (op : PayloadOp) (hconnects : r.Connects line)
    (h : FrameTruthful (encodeFrame r.seq op.cmd payload) payload) :
    op.RequestTruthful r 0 payload line := by
  obtain ⟨port, hensure, -⟩ := Reader.ensureConnected_of_connects hconnects
  have hwire := r.sendRequest_wire line op.cmd payload
  rw [Reader.requestOut, hensure, if_pos rfl] at hwire
  refine .inr ⟨rfl, ?_, h⟩
  rw [hwire, wireBefore, if_pos rfl, hensure]

/-- If a byte of the request goes out, then the frame has to tell the truth. -/
lemma RequestTruthful.frameTruthful {op : PayloadOp} (h : op.RequestTruthful r 0 payload line)
    (hconnects : r.Connects line) (hout : line.writes ≠ .failed 0) :
    FrameTruthful (encodeFrame r.seq op.cmd payload) payload := by
  rcases h with ⟨result, r', hrun, -, hnothing⟩ | ⟨-, -, htruthful⟩
  · obtain ⟨x, htransact⟩ := op.exists_transact hrun
    obtain ⟨port, hensure, -⟩ := Reader.ensureConnected_of_connects hconnects
    rw [Reader.transact_wire htransact, r.sendRequest_wire, wireBefore, if_pos rfl,
      Reader.requestOut, hensure, if_pos rfl, List.append_right_eq_self] at hnothing
    exact absurd (PortWrite.out_eq_nil hnothing (encodeFrame_ne_nil _ _ _)) hout
  · exact htruthful

end PayloadOp

end Affine
