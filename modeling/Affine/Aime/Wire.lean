import Affine.Aime.ReadSequence
import Affine.Aime.Request
import Affine.Aime.Service

set_option relaxedAutoImplicit false
set_option autoImplicit false

/-!
# Exchanges over the wire

`Reader::transact` (`affine-aime/src/lib.rs`) with a card reader at the other end of the serial
line. The reader decodes each request, serves it and sends the reply as a frame, with the sequence
number and the command of the request. The line may fail to connect, take a part of
a request only or all of it without saying so, and fail before the whole reply has arrived, and it
cuts the reply into reads as it likes.

## Main definitions

* `Affine.CardReader.answer` — what the reader sends back.
* `Affine.Line.Meets` — what the line does with the answer.
* `Affine.CardWire` — the host and the reader, with `exchange`.

## Main results

* `Affine.CardReader.answer_encodeFrame` — the reader decodes the requests of the host.
* `Affine.CardWire.exchange_refines` — an exchange over the wire is one of the service.
-/

namespace Affine

open Remote (Attempt Fate Peer)
open Slice (Exec)

/-! ## The reader -/

/-- The contents of a reply. -/
def replyBody (seq cmd : UInt8) (response : ReaderResponse) : List UInt8 :=
  [UInt8.ofNat (6 + response.payload.length), 0, seq, cmd, response.status,
    UInt8.ofNat response.payload.length] ++ response.payload

/-- The length of the body of a reply: six bytes in front of the payload. -/
lemma length_replyBody (seq cmd : UInt8) (response : ReaderResponse) :
    (replyBody seq cmd response).length = 6 + response.payload.length := by
  simp [replyBody]
  omega

/-- The body of a reply and its checksum are as long as the first byte announces. -/
lemma complete_replyBody (seq cmd : UInt8) (response : ReaderResponse)
    (h : response.payload.length ≤ 249) :
    AimeComplete (replyBody seq cmd response ++ [Checksum.sum (replyBody seq cmd response)]) := by
  have hlength := length_replyBody seq cmd response
  have hfirst : ((replyBody seq cmd response ++
      [Checksum.sum (replyBody seq cmd response)]).getD 0 0).toNat =
      6 + response.payload.length := by
    change (UInt8.ofNat (6 + response.payload.length)).toNat = _
    rw [UInt8.toNat_ofNat']
    omega
  rw [AimeComplete, hfirst, List.length_append, List.length_singleton]
  omega

/-- A reply that fits into a frame is a well-formed frame. -/
def replyFrame (seq cmd : UInt8) (response : ReaderResponse)
    (h : response.payload.length ≤ 249) : AimeFrame where
  body := replyBody seq cmd response
  complete := complete_replyBody seq cmd response h

section Reader

variable {δ : Type} (R : CardReader δ)

/-- A receiver finds the body of a request at its last byte. -/
lemma seek_encodeFrame (seq cmd : UInt8) {payload : List UInt8} (hlen : payload.length ≤ 250) :
    Mealy.seek aimeDeframer.step none (encodeFrame seq cmd payload) =
      .inr (some (aimeBody seq cmd payload), []) := by
  obtain ⟨habsorbs, hemit⟩ := aimeDeframer_body seq cmd hlen
  rw [encodeFrame_eq]
  exact Mealy.seek_of_run (congrArg Prod.snd (aimeDeframer.run_frame none habsorbs hemit))

/-- What the reader sends back, and its state afterwards, when the host writes these bytes: nothing
unless they are a request. -/
def CardReader.answer (d : δ) (written : List UInt8) : List UInt8 × δ :=
  match Mealy.seek aimeDeframer.step none written with
  | .inr (some (_ :: _ :: seq :: cmd :: _ :: payload), _) =>
    ((replyFrame seq cmd (R.serve d ⟨cmd, payload⟩).1 (R.fits d _)).bytes,
      (R.serve d ⟨cmd, payload⟩).2)
  | _ => ([], d)

/-- The reader decodes the requests of the host. -/
lemma CardReader.answer_encodeFrame (d : δ) (seq : UInt8) (q : CardRequest)
    (hlen : q.payload.length ≤ 250) :
    R.answer d (encodeFrame seq q.cmd q.payload) =
      ((replyFrame seq q.cmd (R.serve d q).1 (R.fits d q)).bytes, (R.serve d q).2) := by
  unfold CardReader.answer
  rw [seek_encodeFrame seq q.cmd hlen]
  rfl

/-- A part of a request is none: the reader does nothing. -/
lemma CardReader.answer_take (d : δ) (seq : UInt8) (q : CardRequest) (hlen : q.payload.length ≤ 250)
    {n : ℕ} (hn : n < (encodeFrame seq q.cmd q.payload).length) :
    R.answer d ((encodeFrame seq q.cmd q.payload).take n) = ([], d) := by
  have hseek := seek_encodeFrame seq q.cmd hlen
  cases htake : Mealy.seek aimeDeframer.step none ((encodeFrame seq q.cmd q.payload).take n) with
  | inl state => rw [CardReader.answer, htake]
  | inr found =>
    -- the reader would find something before the last byte of the request
    rw [← List.take_append_drop n (encodeFrame seq q.cmd q.payload), Mealy.seek_append, htake]
      at hseek
    obtain ⟨-, hnil⟩ := Prod.mk.inj (Sum.inr.inj hseek)
    have hdrop := (List.append_eq_nil_iff.mp hnil).2
    rw [List.drop_eq_nil_iff] at hdrop
    omega

end Reader

/-! ## The line -/

/-- What the line does with a request and the answer of the reader: a byte of the request is
missing; the whole request goes out, but the write does not say so; it fails before the whole answer
has arrived; or it delivers the answer, cut into reads in any way. -/
inductive Line.Meets (line : Line) (request answer : List UInt8) : Fate → Prop
  | unsent (n : ℕ) (h : line.writes = .failed n) (hn : n < request.length) :
      Meets line request answer .unsent
  | late (n : ℕ) (h : line.writes = .failed n) (hn : request.length ≤ n) :
      Meets line request answer .lost
  | lost (h : line.writes = .whole) (cs : List (Chunk 64)) (rest : List (PortRead 64))
      (hreads : line.reads = cs.map some ++ none :: rest) (hpart : Chunk.joined cs <+: answer)
      (hne : Chunk.joined cs ≠ answer) : Meets line request answer .lost
  | answered (h : line.writes = .whole) (cs : List (Chunk 64)) (rest : List (PortRead 64))
      (hreads : line.reads = cs.map some ++ rest) (hall : Chunk.joined cs = answer) :
      Meets line request answer .answered

/-- A reply that has not arrived as a whole before the port reports an error is not returned. -/
lemma readFrame_lost (f : AimeFrame) {cs : List (Chunk 64)} {rest : List (PortRead 64)}
    (hpart : Chunk.joined cs <+: f.bytes) (hne : Chunk.joined cs ≠ f.bytes) :
    readFrame (cs.map some ++ none :: rest) = .ok (.returned none [] rest) := by
  rcases readLoop_spec FrameReader.init_sound cs with
    ⟨r', -, -, hloop⟩ | ⟨frame, dropped, rest', hfound, -⟩
  · exact hloop (none :: rest)
  · -- the receiver would find something before the last byte of the frame
    obtain ⟨missing, hmissing⟩ := hpart
    have hseek := f.seek_bytes []
    rw [List.append_nil, ← hmissing, Mealy.seek_append,
      show none = FrameReader.init.abs from rfl, hfound] at hseek
    obtain ⟨-, hnil⟩ := Prod.mk.inj (Sum.inr.inj hseek)
    obtain ⟨-, rfl⟩ := List.append_eq_nil_iff.mp hnil
    rw [List.append_nil] at hmissing
    exact absurd hmissing hne

/-- A reply is in the form of one, and holds the response. -/
lemma replyOf_replyBody (seq cmd : UInt8) (response : ReaderResponse)
    (h : response.payload.length ≤ 249) :
    Reader.replyOf (replyBody seq cmd response) = .ok (.ok response) := by
  have hcount : ((replyBody seq cmd response).getD 5 0).toNat = response.payload.length := by
    change (UInt8.ofNat response.payload.length).toNat = _
    rw [UInt8.toNat_ofNat']
    omega
  have hlength := length_replyBody seq cmd response
  have hshape : ReplyShaped (replyBody seq cmd response) := ⟨by omega, by omega⟩
  rw [Reader.replyOf_eq, if_pos hshape, responseIn, hcount]
  simp [replyBody]

/-! ## Exchanges -/

/-- The host, and the state of the reader. -/
structure CardWire (δ : Type) where
  host : Reader
  reader : δ
  deriving DecidableEq

namespace CardWire

variable {δ : Type} (R : CardReader δ)

/-- The link and the reader. -/
def peer (s : CardWire δ) : Peer δ := ⟨s.host.port.isOpen, s.reader⟩

/-- The service that the host and the reader stand for. -/
def abs (s : CardWire δ) : CardHost δ := ⟨s.peer, s.host.memory⟩

/-- The reader behind a request: it has seen the bytes that have gone out. -/
def served (line : Line) (s : CardWire δ) (q : CardRequest) : δ :=
  (R.answer s.reader (s.host.requestOut line q.cmd q.payload)).2

/-- `Reader::transact`, with the reader at the other end. -/
def exchange (line : Line) (s : CardWire δ) (q : CardRequest) :
    Exec (Option ReaderResponse × CardWire δ) := do
  let (x, host) ← s.host.transact line q.cmd q.payload
  return (x.toOption, ⟨host, served R line s q⟩)

/-- The line connects or not, and then does something with the answer of the reader. -/
structure Meets (line : Line) (t : Attempt) (s : CardWire δ) (q : CardRequest) : Prop where
  fits : q.payload.length ≤ 250
  dials : t.dials = (line.found && line.opens)
  answer : s.host.Connects line →
    line.Meets (encodeFrame s.host.seq q.cmd q.payload)
      (R.answer s.reader (encodeFrame s.host.seq q.cmd q.payload)).1 t.fate

variable {R}

/-- An exchange whose request is not taken: the host has an error, and the reader has seen what has
gone out. -/
lemma exchange_of_not_taken {line : Line} {s : CardWire δ} {q : CardRequest}
    (h : ¬ (s.host.Connects line ∧ line.writes.ok = true)) :
    ∃ s', exchange R line s q = .ok (none, s') ∧ s'.peer = ⟨false, served R line s q⟩ := by
  rcases s.host.sendRequest_spec line q.cmd q.payload with
    ⟨hconnects, hok, -⟩ | ⟨-, r', hsend, hclosed⟩
  · exact absurd ⟨hconnects, hok⟩ h
  · refine ⟨⟨r', served R line s q⟩, ?_, by rw [peer, hclosed]⟩
    rw [exchange, Reader.transact_eq, hsend]
    rfl

/-- An exchange whose request is taken: the host reads, and the reader has seen the request.

**Proof sketch.** The port is open and takes the whole frame, so the reader has seen it; what is
left is the read of the reply. -/
lemma exchange_of_taken {line : Line} {s : CardWire δ} {q : CardRequest}
    (hconnects : s.host.Connects line) (hwrites : line.writes = .whole) :
    ∃ r', r'.port.isOpen = true ∧
      served R line s q = (R.answer s.reader (encodeFrame s.host.seq q.cmd q.payload)).2 ∧
      exchange R line s q = do
        match ← readFrame line.reads with
        | .waiting _ => .error .fuel
        | .returned none _ _ =>
          return (none, ⟨{ r' with port := r'.port.close }, served R line s q⟩)
        | .returned (some response) _ _ =>
          return ((← Reader.replyOf response).toOption, ⟨r', served R line s q⟩) := by
  rcases s.host.sendRequest_spec line q.cmd q.payload with
    ⟨-, -, r', hsend, hopen⟩ | ⟨hno, -⟩
  · refine ⟨r', hopen, ?_, ?_⟩
    · obtain ⟨port, hensure, -⟩ := Reader.ensureConnected_of_connects hconnects
      rw [served, Reader.requestOut, hensure, if_pos rfl, hwrites]
      rfl
    · rw [exchange, Reader.transact_eq, hsend]
      dsimp only
      cases readFrame line.reads with
      | error e => rfl
      | ok result =>
        cases result with
        | waiting r => rfl
        | returned found dropped rest =>
          cases found with
          | none => rfl
          | some response =>
            show (Reader.replyOf response >>= _) >>= _ = Reader.replyOf response >>= _
            cases Reader.replyOf response <;> rfl
  · exact absurd ⟨hconnects, by rw [hwrites]; rfl⟩ hno

/-- **An exchange over the wire is one of the service.**

**Proof sketch.** The reader decodes the request (`CardReader.answer_encodeFrame`). What arrives of
its reply is either the whole frame, which the host decodes again (`readFrame_frame`), or too little
for a frame (`readFrame_lost`). -/
theorem exchange_refines {line : Line} {t : Attempt} {s : CardWire δ} {q : CardRequest}
    (h : Meets R line t s q) :
    ∃ s', exchange R line s q = .ok ((Remote.ask R.serve t s.peer q).1, s') ∧
      s'.peer = (Remote.ask R.serve t s.peer q).2 := by
  have hanswer := R.answer_encodeFrame s.reader s.host.seq q h.fits
  have hup : (s.peer.up || t.dials) = true ↔ s.host.Connects line := by
    rw [Reader.connects_iff, h.dials]
    rfl
  unfold Remote.ask
  by_cases hconnects : s.host.Connects line
  · have hmeets := h.answer hconnects
    obtain ⟨port, hensure, -⟩ := Reader.ensureConnected_of_connects hconnects
    have hserved : served R line s q =
        (R.answer s.reader (line.writes.out (encodeFrame s.host.seq q.cmd q.payload))).2 := by
      rw [served, Reader.requestOut, hensure, if_pos rfl]
    rw [if_pos (hup.mpr hconnects)]
    cases hfate : t.fate with
    | unsent =>
      rw [hfate] at hmeets
      cases hmeets with
      | unsent n hwrites hn =>
        -- a part of the request is none for the reader
        obtain ⟨s', hexchange, hpeer⟩ :=
          exchange_of_not_taken (R := R) (q := q) fun hok => by
            rw [hwrites] at hok
            exact Bool.false_ne_true hok.2
        refine ⟨s', hexchange, hpeer.trans ?_⟩
        rw [hserved, hwrites, PortWrite.out, R.answer_take s.reader s.host.seq q h.fits hn]
        rfl
    | lost =>
      rw [hfate] at hmeets
      cases hmeets with
      | late n hwrites hn =>
        obtain ⟨s', hexchange, hpeer⟩ :=
          exchange_of_not_taken (R := R) (q := q) fun hok => by
            rw [hwrites] at hok
            exact Bool.false_ne_true hok.2
        refine ⟨s', hexchange, hpeer.trans ?_⟩
        rw [hserved, hwrites, PortWrite.out, List.take_of_length_le hn, hanswer]
        rfl
      | lost hwrites cs rest hreads hpart hne =>
        obtain ⟨r', -, hseen, hexchange⟩ := exchange_of_taken (R := R) (q := q) hconnects hwrites
        rw [hanswer] at hpart hne
        rw [hexchange, hreads, readFrame_lost _ hpart hne, hseen, hanswer]
        exact ⟨_, rfl, rfl⟩
    | answered =>
      rw [hfate] at hmeets
      cases hmeets with
      | answered hwrites cs rest hreads hall =>
        obtain ⟨r', hopen, hseen, hexchange⟩ :=
          exchange_of_taken (R := R) (q := q) hconnects hwrites
        rw [hanswer] at hall
        obtain ⟨dropped, es, -, hread⟩ := readFrame_frame _ [] (hall.trans (List.append_nil _).symm)
        have hreply := replyOf_replyBody s.host.seq q.cmd _ (R.fits s.reader q)
        rw [hexchange, hreads, hread, hseen, hanswer]
        simp only [Slice.ok_bind, replyFrame, hreply, Slice.pure_eq_ok]
        refine ⟨_, rfl, ?_⟩
        rw [peer, hopen]
        rfl
  · rw [if_neg (mt hup.mp hconnects)]
    obtain ⟨s', hexchange, hpeer⟩ :=
      exchange_of_not_taken (R := R) (q := q) fun hok => hconnects hok.1
    refine ⟨s', hexchange, hpeer.trans ?_⟩
    obtain ⟨port, hensure⟩ := Reader.ensureConnected_of_not_connects hconnects
    have hdown : s.host.port.isOpen = false :=
      Bool.eq_false_iff.mpr fun hopen => hconnects (.inl hopen)
    rw [served, Reader.requestOut, hensure, peer, hdown]
    rfl

end CardWire

end Affine
