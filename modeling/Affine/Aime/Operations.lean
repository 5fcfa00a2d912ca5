import Affine.Aime.Service

set_option relaxedAutoImplicit false
set_option autoImplicit false

/-!
# Operations as calls of the card service

The exported operations of `affine-aime/src/lib.rs`, taken apart: an operation is the requests that
it makes and what it makes of the response (`Affine.CardCall.runsAs`). This holds for every
behaviour of the port, and says nothing yet about the reader at the other end.

## Main definitions

* `Affine.CardCall.run` — the operations.
* `Affine.CardCall.RunsAs` — an operation is its request, and what it makes of the response.

## Main results

* `Affine.Reader.poll_of_transact` — a poll shows the card in the response.
* `Affine.CardCall.runsAs` — every operation but `init`, which has several requests.
-/

namespace Affine

open Slice (Exec)

/-! ## Requests -/

/-- A request keeps whether the reader is initialized.

**Proof sketch.** The cases are the exits of `transact`; none of them stores the flag. -/
lemma Reader.transact_initialized {r r' : Reader} {line : Line} {cmd : UInt8}
    {payload : List UInt8} {x : Except Hresult ReaderResponse}
    (h : r.transact line cmd payload = .ok (x, r')) : r'.initialized = r.initialized := by
  obtain ⟨port, hensure, -⟩ := r.ensureConnected_eq line
  rw [transact, hensure] at h
  cases hopen : port.isOpen with
  | false =>
    rw [hopen] at h
    cases h
    rfl
  | true =>
    rw [hopen] at h
    dsimp only at h
    split at h
    · cases h
      rfl
    · obtain ⟨result, -, h⟩ := Slice.bind_eq_ok.mp h
      cases result with
      | waiting => cases h
      | returned frame =>
        cases frame with
        | none =>
          cases h
          rfl
        | some frame =>
          obtain ⟨reply, -, h⟩ := Slice.bind_eq_ok.mp h
          cases h
          rfl

/-- A request that fails fails with `E_FAIL`. -/
lemma Reader.transact_error {r r' : Reader} {line : Line} {cmd : UInt8} {payload : List UInt8}
    {e : Hresult} (h : r.transact line cmd payload = .ok (.error e, r')) : e = eFail := by
  rcases (transact_spec h).2 with ⟨hx, -⟩ | ⟨_, _, _, _, _, _, _, hx, -⟩
  · exact Except.error.inj hx
  · cases hx

/-- The poll with a response.

**Proof sketch.** The cases are the checks of the source, which agree with the patterns of
`cardSeen`. Where a card is seen, the copies are the first bytes of its numbers. -/
lemma Reader.poll_of_transact {r r' : Reader} {line : Line} {response : ReaderResponse}
    (h : r.transact line sgCmdPoll [] = .ok (.ok response, r')) :
    r.poll line = .ok ((cardSeen response.payload).1,
      { r' with card := (cardSeen response.payload).2 }) := by
  rw [poll, h, Slice.ok_bind]
  dsimp only
  rcases response.payload with _ | ⟨count, rest⟩
  · rfl
  change (if count = 0 then _ else _) = _
  by_cases hcount : count = 0
  · have hseen : cardSeen (count :: rest) = (sFalse, .none) := if_pos hcount
    rw [if_pos hcount, hseen]
    rfl
  rw [if_neg hcount]
  rcases rest with _ | ⟨kind, _ | ⟨size, numbers⟩⟩
  · rw [cardSeen, if_neg hcount]
    · rfl
    · rintro _ _ _ ⟨⟩
  · rw [cardSeen, if_neg hcount]
    · rfl
    · rintro _ _ _ ⟨⟩
  have hlength : (count :: kind :: size :: numbers).length = numbers.length + 3 := rfl
  rw [if_neg (by omega), cardSeen, if_neg hcount]
  change (if kind = 0x10 then _ else _) = _
  by_cases hmifare : kind = 0x10
  · rw [if_pos hmifare, if_pos hmifare]
    by_cases hfits : 4 ≤ numbers.length
    · obtain ⟨s, uid, hs, huid, hcopy⟩ := Slice.exists_copy (count :: kind :: size :: numbers)
        (n := 4) (a := 3) (b := 7) rfl (by omega)
      obtain rfl : uid = firstBytes 4 numbers hfits := Subtype.ext hcopy
      rw [if_neg (by omega), dif_pos hfits, hs, Slice.ok_bind, huid]
      rfl
    · rw [if_pos (by omega), dif_neg hfits]
      rfl
  rw [if_neg hmifare, if_neg hmifare]
  by_cases hfelica : kind = 0x20
  · rw [if_pos hfelica, if_pos hfelica]
    by_cases hfits : 8 ≤ numbers.length ∧ 8 ≤ (numbers.drop 8).length
    · have hsize : 16 ≤ numbers.length := by
        have := hfits.2
        rw [List.length_drop] at this
        omega
      obtain ⟨s, idm, hs, hidm, hcopy⟩ := Slice.exists_copy (count :: kind :: size :: numbers)
        (n := 8) (a := 3) (b := 11) rfl (by omega)
      obtain ⟨s', pmm, hs', hpmm, hcopy'⟩ := Slice.exists_copy (count :: kind :: size :: numbers)
        (n := 8) (a := 11) (b := 19) rfl (by omega)
      obtain rfl : idm = firstBytes 8 numbers hfits.1 := Subtype.ext hcopy
      obtain rfl : pmm = firstBytes 8 (numbers.drop 8) hfits.2 := by
        refine Subtype.ext (hcopy'.trans ?_)
        simp [firstBytes]
      rw [if_neg (by omega), dif_pos hfits, hs, Slice.ok_bind, hidm, Slice.ok_bind, hs',
        Slice.ok_bind, hpmm]
      rfl
    · have hsize : numbers.length < 16 := by
        rw [List.length_drop] at hfits
        omega
      rw [if_pos (by omega), dif_neg hfits]
      rfl
  · rw [if_neg hfelica, if_neg hfelica]
    rfl

/-- A request leaves what the reader remembers. -/
lemma Reader.transact_memory {r r' : Reader} {line : Line} {cmd : UInt8} {payload : List UInt8}
    {x : Except Hresult ReaderResponse} (h : r.transact line cmd payload = .ok (x, r')) :
    r'.memory = r.memory :=
  CardMemory.mk.injEq .. ▸ ⟨transact_initialized h, transact_card h⟩

/-! ## Operations -/

namespace CardCall

/-- An operation, with what the line does in its exchanges. -/
@[simp] def run (lines : ℕ → Line) (r : Reader) : CardCall → Exec (Returned × Reader)
  | init => do
    let (result, r) ← r.init (lines 0) (lines 1) (lines 2)
    return (.result result, r)
  | poll unitNo => do
    let (result, r) ← Aime.poll r unitNo (lines 0)
    return (.result result, r)
  | getAimeId unitNo luid => do
    let (result, luid, r) ← Aime.getAimeId r unitNo luid (lines 0)
    return (.buffer result luid, r)
  | getFelicaId unitNo idmOut =>
    let (result, idm) := Aime.getFelicaId r unitNo idmOut
    return (.idm result idm, r)
  | getMifareUid unitNo uidOut => do
    let (result, uid) ← Aime.getMifareUid r unitNo uidOut
    return (.buffer result uid, r)
  | mifareSelect unitNo uid => do
    let (result, r) ← Aime.mifareSelect r unitNo uid (lines 0)
    return (.result result, r)
  | mifareSetKey unitNo keyType key => do
    let (result, r) ← Aime.mifareSetKey r unitNo keyType key (lines 0)
    return (.result result, r)
  | mifareAuthenticate unitNo keyType payload => do
    let (result, r) ← Aime.mifareAuthenticate r unitNo keyType payload (lines 0)
    return (.result result, r)
  | mifareReadBlock unitNo uid blockNo block => do
    let (result, block, r) ← Aime.mifareReadBlock r unitNo uid blockNo block (lines 0)
    return (.buffer result block, r)
  | felicaTransact unitNo req res resSizeWritten => do
    let (result, res, written, r) ← Aime.felicaTransact r unitNo req res resSizeWritten (lines 0)
    return (.exchanged result res written, r)
  | radioOn unitNo => do
    let (result, r) ← Aime.radioOn r unitNo (lines 0)
    return (.result result, r)
  | radioOff unitNo => do
    let (result, r) ← Aime.radioOff r unitNo (lines 0)
    return (.result result, r)
  | toUpdateMode unitNo => do
    let (result, r) ← Aime.toUpdateMode r unitNo (lines 0)
    return (.result result, r)
  | sendHexData unitNo payload statusOut => do
    let (result, status, r) ← Aime.sendHexData r unitNo payload statusOut (lines 0)
    return (.status result status, r)
  | ledSetColor unitNo rgb => do
    let r ← Aime.ledSetColor r unitNo rgb (lines 0)
    return (.nothing, r)

/-- The host before the requests of a call. -/
def opened (c : CardCall) (line : Line) (r : Reader) : Reader :=
  if c.connects then (r.ensureConnected line).2 else r

/-- What an operation with at most one request does: it makes of the response what the call
makes of it. -/
def RunsAs (c : CardCall) : Prop :=
  ∀ (lines : ℕ → Line) (r : Reader),
    match c.requests r.port.isOpen r.memory with
    | [] => c.run lines r = .ok ((c.finish r.port.isOpen r.memory none).1,
        r.remember (c.finish r.port.isOpen r.memory none).2)
    | q :: _ => ∀ x r', r.transact (lines 0) q.cmd q.payload = .ok (x, r') →
        c.run lines r = .ok ((c.finish r.port.isOpen r'.memory x.toOption).1,
          r'.remember (c.finish r.port.isOpen r'.memory x.toOption).2)

/-- `poll` makes one request, and remembers the card in the response. -/
lemma runsAs_poll (unitNo : UInt8) : RunsAs (.poll unitNo) := by
  intro lines r
  by_cases hunit : unitNo = 0
  · simp only [requests, hunit, if_true]
    intro x r' htransact
    cases x with
    | error e =>
      obtain rfl := Reader.transact_error htransact
      simp [run, Aime.poll, Reader.poll, htransact, finish, Except.toOption]
    | ok response =>
      simp [run, Aime.poll, Reader.poll_of_transact htransact, finish, Except.toOption]
      rfl
  · simp [requests, run, Aime.poll, finish, hunit]

/-- `get_aime_id` makes one request for a cached card without an access code, and none otherwise.

**Proof sketch.** The cases are the cached card, and the result of the request. -/
lemma runsAs_getAimeId (unitNo : UInt8) (luid : List UInt8) : RunsAs (.getAimeId unitNo luid) := by
  intro lines r
  by_cases hunit : unitNo = 0
  · by_cases hlen : luid.length = 10
    · cases hcard : r.card with
      | mifare uid =>
        simp only [requests, Reader.memory_card, hcard, hunit, hlen, and_self, if_true]
        intro x r' htransact
        have hhead : Slice.copyFromSlice 4 uid.toList = .ok uid := Slice.copyFromSlice_eq_ok uid.2
        have hcard' : r'.card = .mifare uid := (Reader.transact_card htransact).trans hcard
        cases x with
        | error e =>
          obtain rfl := Reader.transact_error htransact
          simp [run, Aime.getAimeId, Reader.getAimeId, hlen, hcard, hhead, htransact, finish,
            hcard', Except.toOption]
        | ok response =>
          by_cases hgood : response.status = 0 ∧ 16 ≤ response.payload.length
          · obtain ⟨s, id, hs, hid, hcopy⟩ := Slice.exists_copy response.payload
              (n := luid.length) (a := 6) (b := 16) (by omega) hgood.2
            replace hcopy := hcopy.trans (by rw [hlen])
            simp [run, Aime.getAimeId, Reader.getAimeId, hlen, hcard, hhead, htransact, finish,
              hcard', Except.toOption, hgood, not_lt.mpr hgood.2, hs, hid, hcopy]
          · have hgo : response.status ≠ 0 ∨ response.payload.length < 16 := by
              rw [← not_le, ← not_and_or]
              exact hgood
            simp [run, Aime.getAimeId, Reader.getAimeId, hlen, hcard, hhead, htransact, finish,
              hcard', Except.toOption, hgood, hgo]
      | none => simp [requests, run, Aime.getAimeId, Reader.getAimeId, finish, hunit, hlen, hcard]
      | felica idm pmm =>
        simp [requests, run, Aime.getAimeId, Reader.getAimeId, finish, hunit, hlen, hcard]
    · cases hcard : r.card <;>
        simp [requests, run, Aime.getAimeId, Reader.getAimeId, finish, hunit, hlen, hcard]
  · cases hcard : r.card <;> simp [requests, run, Aime.getAimeId, finish, hunit, hcard]

/-- `get_felica_id` reads the cached card, without a request. -/
lemma runsAs_getFelicaId (unitNo : UInt8) (idmOut : UInt64) :
    RunsAs (.getFelicaId unitNo idmOut) := by
  intro lines r
  by_cases hunit : unitNo = 0
  · cases hcard : r.card <;>
      simp [requests, run, Aime.getFelicaId, Reader.getFelicaId, finish, hunit, hcard]
  · cases hcard : r.card <;> simp [requests, run, Aime.getFelicaId, finish, hunit, hcard]

/-- `get_mifare_uid` reads the cached card, without a request. -/
lemma runsAs_getMifareUid (unitNo : UInt8) (uidOut : List UInt8) :
    RunsAs (.getMifareUid unitNo uidOut) := by
  intro lines r
  by_cases hunit : unitNo = 0
  · by_cases hlen : uidOut.length = 4
    · cases hcard : r.card with
      | mifare uid =>
        obtain ⟨out, hout, hcopy⟩ := Slice.exists_copyFromSlice uid.toList
          (uid.2.trans hlen.symm)
        simp [requests, run, Aime.getMifareUid, Reader.getMifareUid, finish, hunit, hlen, hcard,
          hout, hcopy]
      | none =>
        simp [requests, run, Aime.getMifareUid, Reader.getMifareUid, finish, hunit, hlen, hcard]
      | felica idm pmm =>
        simp [requests, run, Aime.getMifareUid, Reader.getMifareUid, finish, hunit, hlen, hcard]
    · simp [requests, run, Aime.getMifareUid, Reader.getMifareUid, finish, hunit, hlen]
  · simp [requests, run, Aime.getMifareUid, finish, hunit]

/-- A call of which only the status of the response matters. -/
lemma simple_of_transact {r r' : Reader} {line : Line} {cmd : UInt8} {payload : List UInt8}
    {x : Except Hresult ReaderResponse} (h : r.transact line cmd payload = .ok (x, r')) :
    Aime.simple r 0 cmd payload line = .ok (statusOf x.toOption, r') := by
  rw [Aime.simple, if_neg (not_not.mpr rfl), h]
  cases x with
  | error e =>
    obtain rfl := Reader.transact_error h
    rfl
  | ok response => rfl

/-- The operations that look at the length of their argument, and at the status of the response.

**Proof sketch.** The cases are the two checks of the source. -/
lemma runsAs_sized {c : CardCall} {unitNo cmd : UInt8} {payload : List UInt8} {k : ℕ}
    (hrequests : ∀ up m, c.requests up m =
      if unitNo = 0 ∧ payload.length = k then [⟨cmd, payload⟩] else [])
    (hrun : ∀ lines r, c.run lines r = (do
      let (result, r) ← (if unitNo ≠ 0 then pure (sFalse, r)
        else if payload.length ≠ k then pure (eInvalidarg, r)
        else Aime.simple r unitNo cmd payload (lines 0))
      return (.result result, r)))
    (hfinish : ∀ up m reply, c.finish up m reply =
      if unitNo ≠ 0 then (.result sFalse, m)
      else if payload.length ≠ k then (.result eInvalidarg, m)
      else (.result (statusOf reply), m)) :
    RunsAs c := by
  intro lines r
  by_cases hunit : unitNo = 0
  · subst hunit
    by_cases hlen : payload.length = k
    · rw [hrequests, if_pos ⟨rfl, hlen⟩]
      intro x r' htransact
      rw [hrun, hfinish]
      simp [hlen, simple_of_transact htransact]
    · rw [hrequests, if_neg fun h => hlen h.2, hrun, hfinish]
      simp [hlen]
  · rw [hrequests, if_neg fun h => hunit h.1, hrun, hfinish]
    simp [hunit]

/-- The operations that only look at the status of the response. -/
lemma runsAs_simple {c : CardCall} {unitNo cmd : UInt8} {payload : List UInt8}
    (hrequests : ∀ up m, c.requests up m = if unitNo = 0 then [⟨cmd, payload⟩] else [])
    (hrun : ∀ lines r, c.run lines r = (do
      let (result, r) ← Aime.simple r unitNo cmd payload (lines 0)
      return (.result result, r)))
    (hfinish : ∀ up m reply,
      c.finish up m reply = (.result (if unitNo = 0 then statusOf reply else sFalse), m)) :
    RunsAs c := by
  intro lines r
  by_cases hunit : unitNo = 0
  · simp only [hrequests, hunit, if_true]
    intro x r' htransact
    subst hunit
    rw [hrun, simple_of_transact htransact, hfinish]
    rfl
  · rw [hrequests, if_neg hunit, hrun, Aime.simple, if_pos hunit, hfinish, if_neg hunit]
    rfl

/-- `mifare_read_block` makes one request if the sizes are right.

**Proof sketch.** The cases are the checks of the source, and the result of the request. -/
lemma runsAs_mifareReadBlock (unitNo : UInt8) (uid : List UInt8) (blockNo : UInt8)
    (block : List UInt8) : RunsAs (.mifareReadBlock unitNo uid blockNo block) := by
  intro lines r
  by_cases hunit : unitNo = 0
  · by_cases hlen : uid.length = 4 ∧ block.length = 16
    · simp only [requests, hunit, hlen, and_self, if_true]
      intro x r' htransact
      obtain ⟨head, hhead, huid⟩ := Slice.exists_copyFromSlice uid hlen.1
      cases x with
      | error e =>
        obtain rfl := Reader.transact_error htransact
        simp [run, Aime.mifareReadBlock, hlen, hhead, huid, htransact, finish, Except.toOption]
      | ok response =>
        by_cases hgood : response.status = 0 ∧ 16 ≤ response.payload.length
        · obtain ⟨s, out, hs, hout, hcopy⟩ := Slice.exists_copy response.payload
            (n := block.length) (a := 0) (b := 16) (by omega) hgood.2
          replace hcopy := hcopy.trans (by rw [hlen.2])
          simp [run, Aime.mifareReadBlock, hlen, hhead, huid, htransact, finish, Except.toOption,
            hgood, hs, hout, hcopy]
        · simp [run, Aime.mifareReadBlock, hlen, hhead, huid, htransact, finish, Except.toOption,
            hgood]
    · have hlen' : uid.length ≠ 4 ∨ block.length ≠ 16 := by
        rw [← not_and_or]
        exact hlen
      simp [requests, run, Aime.mifareReadBlock, finish, hunit, hlen, hlen']
  · simp [requests, run, Aime.mifareReadBlock, finish, hunit]

/-- `felica_transact` makes one request if the sizes are right.

**Proof sketch.** The cases are the check of the unit, and the result of the request. -/
lemma runsAs_felicaTransact (unitNo : UInt8) (req res : List UInt8) (written : ℕ) :
    RunsAs (.felicaTransact unitNo req res written) := by
  intro lines r
  by_cases hunit : unitNo = 0
  · simp only [requests, hunit, if_true]
    intro x r' htransact
    cases x with
    | error e =>
      obtain rfl := Reader.transact_error htransact
      simp [run, Aime.felicaTransact, htransact, finish, Except.toOption]
    | ok response =>
      by_cases hgood : response.status = 0
      · have hsrc := Slice.range_eq_ok (Nat.zero_le _) (Nat.min_le_left response.payload.length
          res.length)
        have hdst := Slice.range_eq_ok (Nat.zero_le _) (Nat.min_le_right response.payload.length
          res.length)
        obtain ⟨dst, hcopy, hlist⟩ := Slice.exists_copyFromSlice
          (n := ((res.take (min response.payload.length res.length)).drop 0).length)
          ((response.payload.take (min response.payload.length res.length)).drop 0) (by simp)
        rw [run, Aime.felicaTransact, if_neg (not_not.mpr rfl), htransact]
        simp only [Slice.ok_bind, if_pos hgood, hsrc, hdst, hcopy, hlist]
        rcases Nat.le_total response.payload.length res.length with h | h
        · simp [finish, Except.toOption, hgood, h]
        · simp [finish, Except.toOption, hgood, h, List.drop_eq_nil_of_le h]
      · simp [run, Aime.felicaTransact, htransact, finish, Except.toOption, hgood]
  · simp [requests, run, Aime.felicaTransact, finish, hunit]

/-- `send_hex_data` makes one request, and passes on the status of the response. -/
lemma runsAs_sendHexData (unitNo : UInt8) (payload : List UInt8) (statusOut : Option UInt8) :
    RunsAs (.sendHexData unitNo payload statusOut) := by
  intro lines r
  by_cases hunit : unitNo = 0
  · simp only [requests, hunit, if_true]
    intro x r' htransact
    cases x with
    | error e =>
      obtain rfl := Reader.transact_error htransact
      simp [run, Aime.sendHexData, htransact, finish, Except.toOption]
    | ok response =>
      simp [run, Aime.sendHexData, htransact, finish, Except.toOption, statusOf]
  · simp [requests, run, Aime.sendHexData, finish, hunit]

/-- `led_set_color` makes one request, and ignores the response. -/
lemma runsAs_ledSetColor (unitNo : UInt8) (rgb : List.Vector UInt8 3) :
    RunsAs (.ledSetColor unitNo rgb) := by
  intro lines r
  by_cases hunit : unitNo = 0
  · simp only [requests, hunit, if_true]
    intro x r' htransact
    simp [run, Aime.ledSetColor, htransact, finish]
  · simp [requests, run, Aime.ledSetColor, finish, hunit]

/-- **An operation is its request, and what it makes of the response.** -/
theorem runsAs (c : CardCall) (hc : c ≠ .init) : c.RunsAs := by
  cases c with
  | init => exact absurd rfl hc
  | poll => exact runsAs_poll _
  | getAimeId => exact runsAs_getAimeId _ _
  | getFelicaId => exact runsAs_getFelicaId _ _
  | getMifareUid => exact runsAs_getMifareUid _ _
  | mifareSelect => exact runsAs_sized (fun _ _ => rfl) (fun _ _ => rfl) fun _ _ _ => rfl
  | mifareSetKey => exact runsAs_sized (fun _ _ => rfl) (fun _ _ => rfl) fun _ _ _ => rfl
  | mifareAuthenticate => exact runsAs_simple (fun _ _ => rfl) (fun _ _ => rfl) fun _ _ _ => rfl
  | mifareReadBlock => exact runsAs_mifareReadBlock _ _ _ _
  | felicaTransact => exact runsAs_felicaTransact _ _ _ _
  | radioOn => exact runsAs_simple (fun _ _ => rfl) (fun _ _ => rfl) fun _ _ _ => rfl
  | radioOff => exact runsAs_simple (fun _ _ => rfl) (fun _ _ => rfl) fun _ _ _ => rfl
  | toUpdateMode => exact runsAs_simple (fun _ _ => rfl) (fun _ _ => rfl) fun _ _ _ => rfl
  | sendHexData => exact runsAs_sendHexData _ _ _
  | ledSetColor => exact runsAs_ledSetColor _ _

/-- Apart from `aime_init` a call makes at most one request. -/
lemma length_requests_le {c : CardCall} (hc : c ≠ .init) (up : Bool) (m : CardMemory) :
    (c.requests up m).length ≤ 1 := by
  cases c with
  | init => exact absurd rfl hc
  | getAimeId =>
    rw [requests]
    split
    · split <;> simp
    · simp
  | getFelicaId => simp [requests]
  | getMifareUid => simp [requests]
  | _ =>
    rw [requests]
    split <;> simp

end CardCall

end Affine
