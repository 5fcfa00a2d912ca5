import Affine.Aime.Session

set_option relaxedAutoImplicit false
set_option autoImplicit false

/-!
# The card reader and its caller

The operations of `affine-aime/src/lib.rs` cut their results out of replies at fixed places, behind
length checks, and copy them into buffers of the game. A reply can neither stop an operation at
one of these accesses (`Affine.ops_never_fault`) nor get into a buffer through an operation that
fails (`Affine.failed_reads_keep_buffers`).

## Main definitions

* `Affine.Op.lines` — the exchanges of an operation.
* `Affine.Safe` — a computation returns, or waits for an answer of the reader.

## Main results

* `Affine.Op.safe`, `Affine.ops_never_fault` — no operation leaves the bounds of a slice.
* `Affine.failed_reads_keep_buffers` — what the operations write into the buffers of the caller.
-/

namespace Affine

open Slice (Exec)

/-! ## Accesses within bounds -/

/-- The computation returns, or it waits in `read_frame` for an answer on one of these lines. So no
access leaves its bounds. -/
def Safe {α : Type} (lines : List Line) (x : Exec α) : Prop :=
  (∃ a, x = .ok a) ∨
    x = .error .fuel ∧ ∃ line ∈ lines, ∃ s, readFrame line.reads = .ok (.waiting s)

section Safe

variable {α β : Type} {lines : List Line} {r : Reader} {line : Line}

/-- A computation that returns is safe. -/
lemma safe_ok (a : α) : Safe lines (.ok a) := .inl ⟨a, rfl⟩

/-- A safe computation behind a safe one. -/
lemma Safe.bind {x : Exec α} {f : α → Exec β} (hx : Safe lines x)
    (hf : ∀ a, x = .ok a → Safe lines (f a)) : Safe lines (x >>= f) := by
  rcases hx with ⟨a, ha⟩ | ⟨hwait, hline⟩
  · have hfa := hf a ha
    rw [ha]
    exact hfa
  · rw [hwait]
    exact .inr ⟨rfl, hline⟩

/-- What is computed from a safe result is safe. -/
lemma Safe.map {x : Exec α} (hx : Safe lines x) (f : α → β) : Safe lines (f <$> x) := by
  rcases hx with ⟨a, rfl⟩ | ⟨rfl, hline⟩
  · exact .inl ⟨f a, rfl⟩
  · exact .inr ⟨rfl, hline⟩

/-- `read_frame` has no fault, whatever the port returns. -/
lemma exists_readFrame (reads : List (PortRead 64)) : ∃ result, readFrame reads = .ok result := by
  obtain ⟨cs, tail, rfl, htail, -⟩ := exists_split_reads reads
  rcases readLoop_spec FrameReader.init_sound cs with
    ⟨r', -, -, hloop⟩ | ⟨frame, dropped, rest, -, hret⟩
  · rw [readFrame, hloop]
    rcases htail with rfl | ⟨rest, rfl⟩ <;> exact ⟨_, rfl⟩
  · exact ⟨_, hret tail⟩

/-- A request is safe: the header and the payload of a reply are only taken from frames that are
long enough.

**Proof sketch.** The cases are the exits of a request: the port does not open, it does not take the
frame, or `read_frame` waits, finds none or returns one. -/
lemma safe_transact (hline : line ∈ lines) (cmd : UInt8) (payload : List UInt8) :
    Safe lines (r.transact line cmd payload) := by
  unfold Reader.transact
  cases r.ensureConnected line with
  | mk connected r =>
    cases connected with
    | false => exact safe_ok _
    | true =>
      dsimp only
      cases r.port.write line.writes (encodeFrame r.seq cmd payload) with
      | mk written port =>
        cases written with
        | false => exact safe_ok _
        | true =>
          obtain ⟨result, hread⟩ := exists_readFrame line.reads
          simp only [hread, Slice.ok_bind]
          cases result with
          | waiting s => exact .inr ⟨rfl, line, hline, s, hread⟩
          | returned frame dropped rest =>
            cases frame with
            | none => exact safe_ok _
            | some frame =>
              simp only [Reader.replyOf_eq, Slice.ok_bind]
              exact safe_ok _

/-- What follows a request is safe if it is safe behind a reply; if there is none, it returns. -/
lemma safe_reply (hline : line ∈ lines) (cmd : UInt8) (payload : List UInt8)
    {f : Except Hresult ReaderResponse × Reader → Exec β}
    (herror : ∀ err r', ∃ b, f (.error err, r') = .ok b)
    (hreply : ∀ response r', Safe lines (f (.ok response, r'))) :
    Safe lines (r.transact line cmd payload >>= f) := by
  refine (safe_transact hline cmd payload).bind fun reply _ => ?_
  obtain ⟨x, r'⟩ := reply
  cases x with
  | error err => exact .inl (herror err r')
  | ok response => exact hreply response r'

/-- Copying `n` bytes out of a slice that is long enough. -/
lemma safe_copy {xs : List UInt8} {n a b : ℕ} (hab : a + n = b) (hb : b ≤ xs.length)
    {f : List.Vector UInt8 n → Exec β} (hf : ∀ v, Safe lines (f v)) :
    Safe lines (Slice.range xs a b >>= fun s => Slice.copyFromSlice n s >>= f) := by
  obtain ⟨s, v, hs, hv, -⟩ := Slice.exists_copy xs hab hb
  rw [hs, Slice.ok_bind, hv]
  exact hf v

/-- Copying a whole slice of the right length. -/
lemma safe_copyFromSlice {src : List UInt8} {n : ℕ} (h : src.length = n)
    {f : List.Vector UInt8 n → Exec β} (hf : ∀ v, Safe lines (f v)) :
    Safe lines (Slice.copyFromSlice n src >>= f) := by
  rw [Slice.copyFromSlice_eq_ok h]
  exact hf _

/-- A simple command is safe. -/
lemma safe_simple (hline : line ∈ lines) (unitNo cmd : UInt8) (payload : List UInt8) :
    Safe lines (Aime.simple r unitNo cmd payload line) := by
  unfold Aime.simple
  split
  · exact safe_ok _
  · exact (safe_transact hline cmd payload).bind fun _ _ => safe_ok _

/-- `aime_init` is safe, whichever of its three lines goes quiet. -/
lemma safe_init {fw hw board : Line} (hfw : fw ∈ lines) (hhw : hw ∈ lines)
    (hboard : board ∈ lines) :
    Safe lines (r.init fw hw board) := by
  unfold Reader.init
  cases r.ensureConnected fw with
  | mk connected r =>
    cases connected with
    | false => exact safe_ok _
    | true =>
      dsimp only
      split
      · exact safe_ok _
      refine (safe_transact hfw _ _).bind fun _ _ => ?_
      refine (safe_transact hhw _ _).bind fun _ _ => ?_
      exact (safe_transact hboard _ _).bind fun _ _ => safe_ok _

/-- A poll looks at the first three bytes of a payload only if they are there, and at the numbers
of a card only if all of them are.

**Proof sketch.** The cases are the checks of the source, and each access is within the length that
the check before it has found. -/
lemma safe_poll (hline : line ∈ lines) : Safe lines (r.poll line) := by
  unfold Reader.poll
  refine safe_reply hline _ _ (fun _ _ => ⟨_, rfl⟩) fun response r' => ?_
  dsimp only
  by_cases hempty : response.payload.isEmpty
  · rw [if_pos hempty]
    exact safe_ok _
  have hpos : 0 < response.payload.length := by
    rw [List.isEmpty_iff] at hempty
    exact List.length_pos_of_ne_nil hempty
  rw [if_neg hempty, Slice.get_of_lt hpos, Slice.ok_bind]
  split
  · exact safe_ok _
  by_cases hthree : response.payload.length < 3
  · rw [if_pos hthree]
    exact safe_ok _
  rw [if_neg hthree, Slice.get_of_lt (by omega), Slice.ok_bind]
  split
  · by_cases hshort : response.payload.length < 7
    · rw [if_pos hshort]
      exact safe_ok _
    rw [if_neg hshort]
    exact safe_copy (by omega) (by omega) fun _ => safe_ok _
  split
  · by_cases hshort : response.payload.length < 19
    · rw [if_pos hshort]
      exact safe_ok _
    rw [if_neg hshort]
    refine safe_copy (by omega) (by omega) fun _ => ?_
    exact safe_copy (by omega) (by omega) fun _ => safe_ok _
  · exact safe_ok _

/-- `get_aime_id` copies ten bytes at most into the buffer of the caller. -/
lemma safe_getAimeId (hline : line ∈ lines) (unitNo : UInt8) (luid : List UInt8) :
    Safe lines (Aime.getAimeId r unitNo luid line) := by
  unfold Aime.getAimeId Reader.getAimeId
  split
  · exact safe_ok _
  split
  · exact safe_ok _
  rename_i hlen
  split
  · rename_i uid _
    refine safe_copyFromSlice uid.toList_length fun head => ?_
    refine safe_reply hline _ _ (fun _ _ => ⟨_, rfl⟩) fun response r' => ?_
    dsimp only
    split
    · exact safe_ok _
    · rename_i hshort
      rw [not_or] at hshort
      exact safe_copy (by omega) (by omega) fun _ => safe_ok _
  · exact safe_ok _

/-- `get_mifare_uid` copies no more of the cached card than the buffer holds. -/
lemma safe_getMifareUid (unitNo : UInt8) (uidOut : List UInt8) :
    Safe lines (Aime.getMifareUid r unitNo uidOut) := by
  unfold Aime.getMifareUid Reader.getMifareUid
  split
  · exact safe_ok _
  split
  · exact safe_ok _
  rename_i hlen
  split
  · rename_i uid _
    exact safe_copyFromSlice (by rw [uid.toList_length]; omega) fun _ => safe_ok _
  · exact safe_ok _

/-- `mifare_read_block` copies the block only where both sizes are right. -/
lemma safe_mifareReadBlock (hline : line ∈ lines) (unitNo : UInt8) (uid : List UInt8)
    (blockNo : UInt8) (block : List UInt8) :
    Safe lines (Aime.mifareReadBlock r unitNo uid blockNo block line) := by
  unfold Aime.mifareReadBlock
  split
  · exact safe_ok _
  split
  · exact safe_ok _
  rename_i hlen
  rw [not_or] at hlen
  refine safe_copyFromSlice (not_not.mp hlen.1) fun head => ?_
  refine safe_reply hline _ _ (fun _ _ => ⟨_, rfl⟩) fun response r' => ?_
  dsimp only
  split
  · rename_i hready
    exact safe_copy (by omega) hready.2 fun _ => safe_ok _
  · exact safe_ok _

/-- `felica_transact` copies no more of the response than the buffer holds. -/
lemma safe_felicaTransact (hline : line ∈ lines) (unitNo : UInt8) (req res : List UInt8)
    (resSizeWritten : ℕ) :
    Safe lines (Aime.felicaTransact r unitNo req res resSizeWritten line) := by
  unfold Aime.felicaTransact
  split
  · exact safe_ok _
  refine safe_reply hline _ _ (fun _ _ => ⟨_, rfl⟩) fun response r' => ?_
  dsimp only
  split
  · -- both slices are as long as the shorter of the two buffers
    rw [Slice.range_eq_ok (Nat.zero_le _) (Nat.min_le_left _ _), Slice.ok_bind,
      Slice.range_eq_ok (Nat.zero_le _) (Nat.min_le_right _ _), Slice.ok_bind]
    exact safe_copyFromSlice (by simp) fun _ => safe_ok _
  · exact safe_ok _

/-- `send_hex_data` stores the status of the response, if it is asked for. -/
lemma safe_sendHexData (hline : line ∈ lines) (unitNo : UInt8) (payload : List UInt8)
    (statusOut : Option UInt8) : Safe lines (Aime.sendHexData r unitNo payload statusOut line) := by
  unfold Aime.sendHexData
  split
  · exact safe_ok _
  exact safe_reply hline _ _ (fun _ _ => ⟨_, rfl⟩) fun _ _ => safe_ok _

/-- `led_set_color` is safe. -/
lemma safe_ledSetColor (hline : line ∈ lines) (unitNo : UInt8) (rgb : List.Vector UInt8 3) :
    Safe lines (Aime.ledSetColor r unitNo rgb line) := by
  unfold Aime.ledSetColor
  split
  · exact safe_ok _
  · exact (safe_transact hline _ _).bind fun _ _ => safe_ok _

end Safe

/-- What the port does in the exchanges of an operation. -/
def Op.lines : Op → List Line
  | init fw hw board => [fw, hw, board]
  | poll _ line | getAimeId _ _ line | mifareSelect _ _ line | mifareSetKey _ _ _ line
  | mifareAuthenticate _ _ _ line | mifareReadBlock _ _ _ _ line | felicaTransact _ _ _ _ line
  | radioOn _ line | radioOff _ line | toUpdateMode _ line | sendHexData _ _ _ line
  | ledSetColor _ _ line => [line]
  | getFelicaId _ _ | getMifareUid _ _ => []

/-- **No operation leaves the bounds of a slice**, whatever the state of the reader and whatever
the port returns.

**Proof sketch.** The cases are the operations, each with its own lemma above. -/
theorem Op.safe (op : Op) (r : Reader) : Safe op.lines (op.reader r) := by
  cases op with
  | init fw hw board =>
    exact (safe_init (by simp [lines]) (by simp [lines]) (by simp [lines])).map _
  | poll unitNo line =>
    refine Safe.map ?_ _
    unfold Aime.poll
    split
    · exact safe_ok _
    · exact safe_poll List.mem_cons_self
  | getAimeId unitNo luid line => exact (safe_getAimeId List.mem_cons_self unitNo luid).map _
  | getFelicaId unitNo idmOut => exact safe_ok _
  | getMifareUid unitNo uidOut => exact (safe_getMifareUid unitNo uidOut).map _
  | mifareSelect unitNo uid line =>
    refine Safe.map ?_ _
    unfold Aime.mifareSelect
    split
    · exact safe_ok _
    split
    · exact safe_ok _
    · exact safe_simple List.mem_cons_self _ _ _
  | mifareSetKey unitNo keyType key line =>
    refine Safe.map ?_ _
    unfold Aime.mifareSetKey
    split
    · exact safe_ok _
    split
    · exact safe_ok _
    · exact safe_simple List.mem_cons_self _ _ _
  | mifareAuthenticate unitNo keyType payload line =>
    exact (safe_simple List.mem_cons_self _ _ _).map _
  | mifareReadBlock unitNo uid blockNo block line =>
    exact (safe_mifareReadBlock List.mem_cons_self unitNo uid blockNo block).map _
  | felicaTransact unitNo req res resSizeWritten line =>
    exact (safe_felicaTransact List.mem_cons_self unitNo req res resSizeWritten).map _
  | radioOn unitNo line | radioOff unitNo line | toUpdateMode unitNo line =>
    exact (safe_simple List.mem_cons_self _ _ _).map _
  | sendHexData unitNo payload statusOut line =>
    exact (safe_sendHexData List.mem_cons_self unitNo payload statusOut).map _
  | ledSetColor unitNo rgb line => exact safe_ledSetColor List.mem_cons_self unitNo rgb

/-- **No reply stops the reader with a fault**: every run of operations, from every state of the
reader, with all arguments and all behaviour of the port, goes through to its end, unless one of
its operations waits in `read_frame` for an answer.

**Proof sketch.** Induction on the run, with `Op.safe` for the first operation. -/
theorem ops_never_fault (r : Reader) (ops : List Op) :
    (∃ r', Run.exec Op.reader r ops = .ok r') ∨
      Run.exec Op.reader r ops = .error .fuel ∧
        ∃ op ∈ ops, ∃ line ∈ op.lines, ∃ s, readFrame line.reads = .ok (.waiting s) := by
  induction ops generalizing r with
  | nil => exact .inl ⟨r, rfl⟩
  | cons op ops ih =>
    rw [Run.exec]
    rcases op.safe r with ⟨r', hop⟩ | ⟨hwait, hline⟩
    · rw [hop]
      rcases ih r' with hok | ⟨hwait, op', hmem, hline⟩
      · exact .inl hok
      · exact .inr ⟨hwait, op', List.mem_cons_of_mem op hmem, hline⟩
    · rw [hwait]
      exact .inr ⟨rfl, op, List.mem_cons_self, hline⟩

/-! ## The buffers of the caller -/

section Buffers

variable {r r' : Reader} {unitNo : UInt8} {line : Line} {result : Hresult}

/-- A failing `get_aime_id` leaves the buffer of the caller.

**Proof sketch.** The buffer is written behind the check of the result only. -/
lemma getAimeId_buffer {luid luid' : List UInt8}
    (h : Aime.getAimeId r unitNo luid line = .ok (result, luid', r')) :
    result = sOk ∨ luid' = luid := by
  unfold Aime.getAimeId Reader.getAimeId at h
  split at h
  · cases h
    exact .inr rfl
  split at h
  · cases h
    exact .inr rfl
  split at h
  · obtain ⟨head, -, h⟩ := Slice.bind_eq_ok.mp h
    obtain ⟨⟨x, r₁⟩, -, h⟩ := Slice.bind_eq_ok.mp h
    cases x with
    | error err =>
      cases h
      exact .inr rfl
    | ok response =>
      dsimp only at h
      split at h
      · cases h
        exact .inr rfl
      · obtain ⟨s, -, h⟩ := Slice.bind_eq_ok.mp h
        obtain ⟨id, -, h⟩ := Slice.bind_eq_ok.mp h
        cases h
        exact .inl rfl
  · cases h
    exact .inr rfl

/-- A failing `get_felica_id` leaves the variable of the caller. -/
lemma getFelicaId_buffer (r : Reader) (unitNo : UInt8) (idmOut : UInt64) :
    (Aime.getFelicaId r unitNo idmOut).1 = sOk ∨
      (Aime.getFelicaId r unitNo idmOut).2 = idmOut := by
  unfold Aime.getFelicaId Reader.getFelicaId
  split
  · exact .inr rfl
  split
  · exact .inl rfl
  · exact .inr rfl

/-- A failing `get_mifare_uid` leaves the buffer of the caller. -/
lemma getMifareUid_buffer {uidOut uidOut' : List UInt8}
    (h : Aime.getMifareUid r unitNo uidOut = .ok (result, uidOut')) :
    result = sOk ∨ uidOut' = uidOut := by
  unfold Aime.getMifareUid Reader.getMifareUid at h
  split at h
  · cases h
    exact .inr rfl
  split at h
  · cases h
    exact .inr rfl
  split at h
  · obtain ⟨out, -, h⟩ := Slice.bind_eq_ok.mp h
    cases h
    exact .inl rfl
  · cases h
    exact .inr rfl

/-- A failing `mifare_read_block` leaves the buffer of the caller.

**Proof sketch.** The cases are the exits of the operation. The block is written on one of them
only. -/
lemma mifareReadBlock_buffer {uid block block' : List UInt8} {blockNo : UInt8}
    (h : Aime.mifareReadBlock r unitNo uid blockNo block line = .ok (result, block', r')) :
    result = sOk ∨ block' = block := by
  unfold Aime.mifareReadBlock at h
  split at h
  · cases h
    exact .inr rfl
  split at h
  · cases h
    exact .inr rfl
  obtain ⟨head, -, h⟩ := Slice.bind_eq_ok.mp h
  obtain ⟨⟨x, r₁⟩, -, h⟩ := Slice.bind_eq_ok.mp h
  cases x with
  | error err =>
    cases h
    exact .inr rfl
  | ok response =>
    dsimp only at h
    split at h
    · obtain ⟨s, -, h⟩ := Slice.bind_eq_ok.mp h
      obtain ⟨out, -, h⟩ := Slice.bind_eq_ok.mp h
      cases h
      exact .inl rfl
    · cases h
      exact .inr rfl

/-- What `felica_transact` does to the buffer and the size: nothing unless it succeeds, and then
the payload of the reply, as far as there is room for it, is copied to the front of the buffer.

**Proof sketch.** The cases are the checks in front of the copy; behind them the size and the bytes
are those of the copy. -/
lemma felicaTransact_buffer {req res res' : List UInt8} {size size' : ℕ}
    (h : Aime.felicaTransact r unitNo req res size line = .ok (result, res', size', r')) :
    (result ≠ sOk ∧ res' = res ∧ size' = size) ∨
      (result = sOk ∧ ∃ frame dropped rest,
        readFrame line.reads = .ok (.returned (some frame) dropped rest) ∧ ReplyShaped frame ∧
        size' = min (responseIn frame).payload.length res.length ∧
        res' = (responseIn frame).payload.take size' ++ res.drop size') := by
  unfold Aime.felicaTransact at h
  split at h
  · cases h
    exact .inl ⟨by decide, rfl, rfl⟩
  obtain ⟨⟨x, r₁⟩, htransact, h⟩ := Slice.bind_eq_ok.mp h
  cases x with
  | error err =>
    cases h
    rcases (Reader.transact_spec htransact).2 with ⟨hx, -⟩ | ⟨_, _, _, _, _, _, _, hx, _⟩
    · rw [Except.error.inj hx]
      exact .inl ⟨by decide, rfl, rfl⟩
    · cases hx
  | ok response =>
    dsimp only at h
    split at h
    · rw [Slice.range_eq_ok (Nat.zero_le _) (Nat.min_le_left _ _), Slice.ok_bind,
        Slice.range_eq_ok (Nat.zero_le _) (Nat.min_le_right _ _), Slice.ok_bind,
        Slice.copyFromSlice_eq_ok (by simp)] at h
      cases h
      rcases (Reader.transact_spec htransact).2 with
        ⟨hx, -⟩ | ⟨frame, dropped, rest, -, -, hread, hshape, hx, -⟩
      · cases hx
      obtain rfl : response = responseIn frame := Except.ok.inj hx
      exact .inr ⟨rfl, frame, dropped, rest, hread, hshape, rfl, rfl⟩
    · cases h
      exact .inl ⟨by decide, rfl, rfl⟩

end Buffers

/-- **Failed reads leave the buffers of the caller alone**: for all units, buffers, cards and
replies, an operation that does not return `S_OK` has left its output as it was. If
`felica_transact` returns `S_OK`, then the size is that of the payload in the reply or of the
buffer, whichever is less, as many bytes of the buffer are those of the payload, and the bytes
behind them are as they were.

**Proof sketch.** Every exit of an operation that does not return `S_OK` returns the output it
was given. A failed request is not `S_OK`, so `felica_transact` has a reply if it succeeds. -/
theorem failed_reads_keep_buffers (r : Reader) (unitNo : UInt8) (line : Line) :
    (∀ luid result luid' r', Aime.getAimeId r unitNo luid line = .ok (result, luid', r') →
        result ≠ sOk → luid' = luid) ∧
      (∀ idmOut, (Aime.getFelicaId r unitNo idmOut).1 ≠ sOk →
        (Aime.getFelicaId r unitNo idmOut).2 = idmOut) ∧
      (∀ uidOut result uidOut', Aime.getMifareUid r unitNo uidOut = .ok (result, uidOut') →
        result ≠ sOk → uidOut' = uidOut) ∧
      (∀ uid blockNo block result block' r',
        Aime.mifareReadBlock r unitNo uid blockNo block line = .ok (result, block', r') →
        result ≠ sOk → block' = block) ∧
      ∀ req res size result res' size' r',
        Aime.felicaTransact r unitNo req res size line = .ok (result, res', size', r') →
        (result ≠ sOk → res' = res ∧ size' = size) ∧
          (result = sOk → ∃ frame dropped rest,
            readFrame line.reads = .ok (.returned (some frame) dropped rest) ∧
            ReplyShaped frame ∧ size' = min (responseIn frame).payload.length res.length ∧
            res'.length = res.length ∧
            res'.take size' = (responseIn frame).payload.take size' ∧
            res'.drop size' = res.drop size') := by
  refine ⟨fun _ _ _ _ h hne => (getAimeId_buffer h).resolve_left hne,
    fun idmOut hne => (getFelicaId_buffer r unitNo idmOut).resolve_left hne,
    fun _ _ _ h hne => (getMifareUid_buffer h).resolve_left hne,
    fun _ _ _ _ _ _ h hne => (mifareReadBlock_buffer h).resolve_left hne, ?_⟩
  intro req res size result res' size' r' h
  rcases felicaTransact_buffer h with
    ⟨hne, hres, hsize⟩ | ⟨hok, frame, dropped, rest, hread, hshape, hsize, hres⟩
  · exact ⟨fun _ => ⟨hres, hsize⟩, fun hok => absurd hok hne⟩
  · refine ⟨fun hne => absurd hok hne, fun _ => ⟨frame, dropped, rest, hread, hshape, hsize, ?_⟩⟩
    have hlen : ((responseIn frame).payload.take size').length = size' := by
      rw [List.length_take]
      omega
    rw [hres]
    refine ⟨?_, List.take_left' hlen, List.drop_left' hlen⟩
    rw [List.length_append, hlen, List.length_drop]
    omega

end Affine
