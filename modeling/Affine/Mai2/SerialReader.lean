import Affine.Lib.Run
import Affine.Mai2.FalseHeader
import Affine.Mai2.VendorLoop

set_option relaxedAutoImplicit false
set_option autoImplicit false

/-!
# The bytes of the serial reader

What `serial_reader_thread` and `vendor_command_read_once` (`affine-mai2/src/lib.rs`) make of the
bytes they receive, whatever these are. Both decode them with the same scanner, so it does not
matter whether the bytes come one at a time or all at once (`Affine.batch_eq_incremental`), every
touch frame has bytes of its own (`Affine.touch_frames_have_spans`), and the buffer of the serial
reader has room for every byte, because the decoder waits for at most `259` of them
(`Affine.reader_never_overflows`).

## Main definitions

* `Affine.RxBuf.loaded` — the buffer behind the copy of the bytes of a report.
* `Affine.delivered`, `Affine.receivedBytes` — what the reads bring before one of them fails.
* `Affine.TouchBytes` — the bytes of a touch frame.
* `Affine.RxBuf.byteStep`, `Affine.RxBuf.pushStored` — the byte loop as a run, and its body without
  the overflow reset.

## Main results

* `Affine.batch_eq_incremental`, `Affine.touch_frames_have_spans`, `Affine.reader_never_overflows`.
-/

namespace Affine

open Slice (Exec)

/-! ## Batch and incremental parsing -/

/-- The buffer into which bytes were copied at once. -/
def RxBuf.loaded (bs : Chunk 512) : RxBuf where
  buf := ⟨bs.1 ++ List.replicate (512 - bs.1.length) 0, by
    have := bs.2
    simp
    omega⟩
  len := bs.1.length

/-- The vendor thread loads its reports in this way. -/
lemma RxBuf.load_eq (report : Chunk 65) :
    RxBuf.load report = RxBuf.loaded ⟨report.1, report.2.trans (by omega)⟩ := by
  have hlen : min report.1.length 512 = report.1.length :=
    Nat.min_eq_left (report.2.trans (by omega))
  rw [load, loaded, hlen]

/-- What is left in a loaded buffer is what was copied. -/
lemma RxBuf.loaded_live (bs : Chunk 512) : (RxBuf.loaded bs).live = bs.1 :=
  List.take_left

/-- An empty buffer waits, whatever stands in it. -/
lemma RxBuf.waiting_empty (buf : List.Vector UInt8 512) : (RxBuf.mk buf 0).Waiting :=
  ⟨Nat.zero_le _, rfl⟩

/-- **Batch and incremental parsing agree**: bytes that are loaded at once and then parsed until no
frame is left give the same frames, and leave the same bytes, as bytes that are appended and parsed
one at a time.

**Proof sketch.** Both loops decode the bytes with the scanner (`RxBuf.drain_spec`,
`RxBuf.pushAll_spec`), whose decisions more bytes do not change. -/
theorem batch_eq_incremental (bs : Chunk 512) (buf : List.Vector UInt8 512) :
    ∃ frames batch incremental, (RxBuf.loaded bs).drain = .ok (frames, batch) ∧
      RxBuf.pushAll ⟨buf, 0⟩ bs.1 = .ok (frames, incremental) ∧ batch.live = incremental.live := by
  have hroom : (RxBuf.loaded bs).len ≤ 512 := bs.2
  obtain ⟨batch, hbatch, -, hleft⟩ := RxBuf.drain_spec hroom
  obtain ⟨incremental, hpush, -, hleft'⟩ := RxBuf.pushAll_spec (RxBuf.waiting_empty buf) bs.1
  rw [RxBuf.loaded_live] at hbatch hleft
  exact ⟨_, batch, incremental, hbatch, hpush, hleft.trans hleft'.symm⟩

/-! ## The reads of the serial reader -/

/-- The reads before the first one that fails. -/
def delivered : List (PortRead 256) → List (Chunk 256)
  | some c :: reads => c :: delivered reads
  | _ => []

/-- The bytes of these reads. -/
def receivedBytes (reads : List (PortRead 256)) : List UInt8 := Chunk.joined (delivered reads)

/-- The reads from the first one that fails on do not matter. -/
lemma readerLoop_delivered (rx : RxBuf) (reads : List (PortRead 256)) :
    readerLoop rx reads = readerLoop rx ((delivered reads).map some) := by
  induction reads generalizing rx with
  | nil => rfl
  | cons x reads ih =>
    cases x with
    | none => rfl
    | some c =>
      simp only [delivered, List.map_cons, readerLoop, ih]

/-- A reader with an empty buffer decodes the bytes it receives. -/
lemma readerLoop_received (buf : List.Vector UInt8 512) (reads : List (PortRead 256)) :
    ∃ rx', readerLoop ⟨buf, 0⟩ reads = .ok ((mai2Scanner.decode (receivedBytes reads)).1, rx') ∧
      rx'.Waiting ∧ rx'.live = (mai2Scanner.decode (receivedBytes reads)).2 := by
  obtain ⟨rx', hloop, hwaiting, hlive⟩ :=
    readerLoop_spec (RxBuf.waiting_empty buf) (delivered reads)
  rw [← readerLoop_delivered] at hloop
  exact ⟨rx', hloop, hwaiting, hlive⟩

/-! ## Touch frames -/

/-- The bytes of a touch frame, with what the reader reports of it: a frame with buttons ends with
the sum of its other bytes, and a frame without is set in parentheses. -/
inductive TouchBytes : List UInt8 → ParsedFrame → Prop
  | buttons (h b3 b4 b5 : UInt8) (t : List.Vector UInt8 7) (hh : h = 0x0A ∨ h = 0x00) :
      TouchBytes
        ([0xFF, 0x01, h, b3, b4, b5] ++ t.toList ++
          [Checksum.sum ([0xFF, 0x01, h, b3, b4, b5] ++ t.toList)])
        (.touch (some ((b3 &&& 0x0F) ||| (b4 &&& 0xF0))) (some (b5 &&& 0x3F)) (some t))
  | ascii (t : List.Vector UInt8 7) :
      TouchBytes (0x28 :: t.toList ++ [0x29]) (.touch none none (some t))

/-- The frame is a touch frame. -/
def ParsedFrame.isTouch : ParsedFrame → Bool
  | touch _ _ _ => true
  | boardInfo _ => false

/-- A decision for a touch frame with buttons is made at the bytes of one. -/
lemma touchBytes_of_fourteen {bytes ys : List UInt8} (hlen : bytes.length = 14)
    (hff : (bytes ++ ys).getD 0 0 = 0xFF)
    (hheader : (bytes ++ ys).getD 1 0 = 0x01 ∧
      ((bytes ++ ys).getD 2 0 = 0x0A ∨ (bytes ++ ys).getD 2 0 = 0x00))
    (hsum : (bytes ++ ys).getD 13 0 = Checksum.sum ((bytes ++ ys).take 13)) :
    TouchBytes bytes (.touch
      (some (((bytes ++ ys).getD 3 0 &&& 0x0F) ||| ((bytes ++ ys).getD 4 0 &&& 0xF0)))
      (some ((bytes ++ ys).getD 5 0 &&& 0x3F)) (some (touchAt (bytes ++ ys) 6))) := by
  match bytes, hlen with
  | [a0, a1, a2, a3, a4, a5, a6, a7, a8, a9, a10, a11, a12, a13], _ =>
    obtain rfl : a0 = 0xFF := hff
    obtain rfl : a1 = 0x01 := hheader.1
    obtain rfl : a13 =
        Checksum.sum [0xFF, 0x01, a2, a3, a4, a5, a6, a7, a8, a9, a10, a11, a12] := hsum
    exact .buttons a2 a3 a4 a5 ⟨[a6, a7, a8, a9, a10, a11, a12], rfl⟩ hheader.2

/-- A decision for a touch frame without buttons is made at the bytes of one. -/
lemma touchBytes_of_nine {bytes ys : List UInt8} (hlen : bytes.length = 9)
    (hopen : (bytes ++ ys).getD 0 0 = 0x28) (hclose : (bytes ++ ys).getD 8 0 = 0x29) :
    TouchBytes bytes (.touch none none (some (touchAt (bytes ++ ys) 1))) := by
  match bytes, hlen with
  | [a0, a1, a2, a3, a4, a5, a6, a7, a8], _ =>
    obtain rfl : a0 = 0x28 := hopen
    obtain rfl : a8 = 0x29 := hclose
    exact .ascii ⟨[a1, a2, a3, a4, a5, a6, a7], rfl⟩

/-- The decision for a touch frame is made at its bytes. -/
lemma touchBytes_of_head {bytes ys : List UInt8} {frame : ParsedFrame}
    (h : mai2Head (bytes ++ ys) = some (bytes.length, some frame)) (htouch : frame.isTouch = true) :
    TouchBytes bytes frame := by
  unfold mai2Head at h
  split_ifs at h with hnil hff h3 hheader h14 hsum hinfo htotal hopen h9 hclose <;>
    simp only [Option.some.injEq, Prod.mk.injEq, reduceCtorEq, and_false] at h
  · obtain ⟨hlen, rfl⟩ := h
    exact touchBytes_of_fourteen hlen.symm hff hheader hsum
  · obtain ⟨-, rfl⟩ := h
    cases htouch
  · obtain ⟨hlen, rfl⟩ := h
    exact touchBytes_of_nine hlen.symm hopen hclose

/-- **Touch input is neither fabricated nor used twice**: whatever bytes the reader receives, the
touch frames that it returns stand, in order, in disjoint parts of the stream, each of which is a
touch frame with what the reader reports of it.

**Proof sketch.** The reader decodes the stream (`readerLoop_received`), each frame from a part of
its own (`Scanner.exists_spans`), and a touch frame is decided on at its bytes
(`touchBytes_of_head`). -/
theorem touch_frames_have_spans (buf : List.Vector UInt8 512) (reads : List (PortRead 256)) :
    ∃ frames rx', readerLoop ⟨buf, 0⟩ reads = .ok (frames, rx') ∧
      ∃ spans : List (ℕ × ℕ), spans.Pairwise (fun a b => a.1 + a.2 ≤ b.1) ∧
        List.Forall₂ (fun a frame => a.1 + a.2 ≤ (receivedBytes reads).length ∧
            TouchBytes (((receivedBytes reads).drop a.1).take a.2) frame)
          spans (frames.filter ParsedFrame.isTouch) := by
  obtain ⟨rx', hloop, -⟩ := readerLoop_received buf reads
  refine ⟨_, rx', hloop, Scanner.exists_spans (s := mai2Scanner) (P := TouchBytes) ?_ _⟩
  intro bytes ys frame hhead htouch
  exact touchBytes_of_head hhead htouch

/-! ## Room for every byte -/

namespace RxBuf

/-- The body of the byte loop without the overflow reset. -/
def pushStored (rx : RxBuf) (byte : UInt8) : Exec (List ParsedFrame × RxBuf) := do
  let buf ← Slice.set rx.buf rx.len byte
  drain { buf := buf, len := rx.len + 1 }

/-- The buffer behind a byte. -/
def byteStep (byte : UInt8) (rx : RxBuf) : Exec RxBuf := do
  let (_, rx) ← rx.push byte
  return rx

/-- With room in the buffer, the reset is not executed. -/
lemma push_eq_pushStored {rx : RxBuf} (h : rx.len < 512) (byte : UInt8) :
    rx.push byte = rx.pushStored byte := by
  rw [push, if_neg (by omega)]
  rfl

/-- A waiting decoder holds at most `258` bytes. -/
lemma Waiting.len_le {rx : RxBuf} (h : rx.Waiting) : rx.len ≤ 258 := by
  have hlen := length_of_mai2Head_eq_none h.2
  rwa [length_live h.1] at hlen

/-- A byte that is taken leaves a decoder that waits. -/
lemma Waiting.byteStep {rx rx' : RxBuf} {byte : UInt8} (h : rx.Waiting)
    (hstep : byteStep byte rx = .ok rx') : rx'.Waiting := by
  obtain ⟨rx₁, hpush, hwaiting, -⟩ := push_spec h byte
  rw [RxBuf.byteStep, hpush] at hstep
  cases hstep
  exact hwaiting

/-- The byte loop of a read, as a run. -/
lemma exec_byteStep (rx : RxBuf) (bs : List UInt8) :
    Run.exec RxBuf.byteStep rx bs = Prod.snd <$> rx.pushAll bs := by
  induction bs generalizing rx with
  | nil => rfl
  | cons b bs ih =>
    rw [Run.exec, RxBuf.byteStep, pushAll]
    cases rx.push b with
    | error e => rfl
    | ok x =>
      simp only [Slice.ok_bind, Slice.pure_eq_ok, ih]
      cases x.2.pushAll bs <;> rfl

end RxBuf

/-- The bytes of all reads, as a run. -/
lemma exec_received (rx : RxBuf) (reads : List (PortRead 256)) :
    Run.exec RxBuf.byteStep rx (receivedBytes reads) = Prod.snd <$> readerLoop rx reads := by
  rw [readerLoop_delivered, receivedBytes]
  induction delivered reads generalizing rx with
  | nil => rfl
  | cons c cs ih =>
    rw [Chunk.joined_cons, Run.exec_append, RxBuf.exec_byteStep, List.map_cons, readerLoop]
    split
    · next hnil =>
      rw [List.length_eq_zero_iff.mp hnil]
      exact ih rx
    · cases rx.pushAll c.1 with
      | error e => rfl
      | ok x =>
        change Run.exec RxBuf.byteStep x.2 (Chunk.joined cs) = _
        rw [ih]
        simp only [Slice.ok_bind]
        cases readerLoop x.2 (cs.map some) <;> rfl

/-- **The buffer of the serial reader never overflows**: whatever bytes the reader receives, every
call of `try_parse_frame` and every loop around it comes to its end inside the buffer, and between
two bytes at most `258` are left, so that the overflow reset is never executed. No byte is lost: the
stream is made up of the returned frames, of bytes that were rejected one at a time, and of what is
left.

**Proof sketch.** Between two bytes the decoder waits (`RxBuf.push_spec`), and it does not wait for
more than `259` bytes. -/
theorem reader_never_overflows (buf : List.Vector UInt8 512) (reads : List (PortRead 256)) :
    (∀ rx : RxBuf, rx.len ≤ 512 → (∃ r, rx.tryParseFrame = .ok r) ∧ ∃ r, rx.drain = .ok r) ∧
      (∃ frames rx', readerLoop ⟨buf, 0⟩ reads = .ok (frames, rx') ∧
        Run.exec RxBuf.byteStep ⟨buf, 0⟩ (receivedBytes reads) = .ok rx' ∧
        ∃ pieces : List (List UInt8 × Option ParsedFrame),
          receivedBytes reads = pieces.flatMap Prod.fst ++ rx'.live ∧
          frames = pieces.filterMap Prod.snd ∧ ∀ p ∈ pieces, p.2 = none → p.1.length = 1) ∧
      Run.Always RxBuf.byteStep ⟨buf, 0⟩ (receivedBytes reads) fun rx =>
        rx.len ≤ 258 ∧ ∀ byte, rx.push byte = rx.pushStored byte := by
  refine ⟨fun rx hrx => ⟨?_, ?_⟩, ?_, ?_⟩
  · obtain ⟨frame, rx', hparse, -⟩ := RxBuf.tryParseFrame_spec hrx
    exact ⟨_, hparse⟩
  · obtain ⟨rx', hdrain, -⟩ := RxBuf.drain_spec hrx
    exact ⟨_, hdrain⟩
  · obtain ⟨rx', hloop, -, hlive⟩ := readerLoop_received buf reads
    obtain ⟨pieces, hword, hframes, hpieces⟩ := mai2Scanner.exists_pieces (receivedBytes reads)
    refine ⟨_, rx', hloop, by rw [exec_received, hloop]; rfl, pieces, ?_, hframes, ?_⟩
    · rw [hlive]
      exact hword
    · intro p hp hnone
      obtain ⟨ys, hhead⟩ := hpieces p hp
      rw [hnone] at hhead
      exact mai2Head_skip_one hhead
  · intro pre rx hpre hrx
    have hwaiting : rx.Waiting :=
      Run.exec_invariant (RxBuf.waiting_empty buf) (fun _ _ _ h hstep => h.byteStep hstep) hrx
    have hlen := hwaiting.len_le
    exact ⟨hlen, RxBuf.push_eq_pushStored (by omega)⟩

end Affine
