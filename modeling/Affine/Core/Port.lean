import Mathlib.Data.List.Basic

set_option relaxedAutoImplicit false
set_option autoImplicit false

/-!
# Serial ports

The part of `SerialPort` (`affine-core/src/serial.rs`) that its users rely on: whether it is
open, and what was written since it was opened. Whether an open or a write succeeds, which bytes of
a write go out, and what a read returns, is up to the device, so it is a parameter of each operation.

## Main definitions

* `Affine.SerialPort` with `reopen`, `write`, `close`.
* `Affine.PortWrite` — what becomes of the bytes of a write.
* `Affine.PortRead` — the result of a read into a buffer.
* `Affine.Chunk.joined` — the bytes of several reads.
-/

namespace Affine

/-- At most `n` bytes. -/
abbrev Chunk (n : ℕ) := {bs : List UInt8 // bs.length ≤ n}

/-- No bytes. -/
def Chunk.empty (n : ℕ) : Chunk n := ⟨[], Nat.zero_le n⟩

/-- The result of a read into a buffer of `n` bytes: an error, or the bytes that were there. -/
abbrev PortRead (n : ℕ) := Option (Chunk n)

/-- The bytes of several reads. -/
def Chunk.joined {n : ℕ} (cs : List (Chunk n)) : List UInt8 := cs.flatMap fun c => c.1

/-- No chunks have no bytes. -/
@[simp] lemma Chunk.joined_nil {n : ℕ} : Chunk.joined ([] : List (Chunk n)) = [] := rfl

/-- The bytes of the first chunk come first. -/
@[simp] lemma Chunk.joined_cons {n : ℕ} (c : Chunk n) (cs : List (Chunk n)) :
    Chunk.joined (c :: cs) = c.1 ++ Chunk.joined cs := rfl

/-- The bytes of chunks behind others come behind theirs. -/
lemma Chunk.joined_append {n : ℕ} (cs ds : List (Chunk n)) :
    Chunk.joined (cs ++ ds) = Chunk.joined cs ++ Chunk.joined ds := List.flatMap_append

/-- What the system does with the bytes of a write. -/
inductive PortWrite
  /-- All of them are written, and `write` says so. -/
  | whole
  /-- The write fails or its time is over, with up to `n` of the bytes on the wire: none of them,
  some, or all if the last has gone out just before the system cancels. -/
  | failed (n : ℕ)
  deriving DecidableEq, Repr

/-- What the write returns, if the port is open. -/
def PortWrite.ok : PortWrite → Bool
  | whole => true
  | failed _ => false

/-- The bytes of a frame that go out. -/
def PortWrite.out (answer : PortWrite) (frame : List UInt8) : List UInt8 :=
  match answer with
  | whole => frame
  | failed n => frame.take n

/-- Nothing of a frame goes out only if the write fails at once. -/
lemma PortWrite.out_eq_nil {answer : PortWrite} {frame : List UInt8} (h : answer.out frame = [])
    (hframe : frame ≠ []) : answer = .failed 0 := by
  cases answer with
  | whole => exact absurd h hframe
  | failed n =>
    obtain rfl : n = 0 := (List.take_eq_nil_iff.mp h).resolve_right hframe
    rfl

/-- A serial port: whether it is open, and what has gone out since it was last opened: the frames of
the writes that have succeeded, the oldest first, and the bytes of all writes. -/
structure SerialPort where
  isOpen : Bool
  sent : List (List UInt8)
  wire : List UInt8
  deriving DecidableEq, Repr

namespace SerialPort

/-- `SerialPort::default`. -/
def default : SerialPort where
  isOpen := false
  sent := []
  wire := []

/-- A port that was just opened. -/
def opened : SerialPort where
  isOpen := true
  sent := []
  wire := []

/-- A port that was just opened is open. -/
@[simp] lemma opened_isOpen : opened.isOpen = true := rfl

/-- Nothing has gone out on a port that was just opened. -/
@[simp] lemma opened_sent : opened.sent = [] := rfl

/-- `SerialPort::close`. -/
def close (p : SerialPort) : SerialPort := { p with isOpen := false }

/-- `SerialPort::open`, which closes the port first; `ok` is whether the system opens it. -/
def reopen (p : SerialPort) (ok : Bool) : Bool × SerialPort :=
  if ok then (true, opened) else (false, p.close)

/-- `SerialPort::write`; `answer` is what the system does with the frame. -/
def write (p : SerialPort) (answer : PortWrite) (frame : List UInt8) : Bool × SerialPort :=
  if p.isOpen then
    (answer.ok,
      { p with
        sent := if answer.ok then p.sent ++ [frame] else p.sent
        wire := p.wire ++ answer.out frame })
  else (false, p)

/-- A write neither opens nor closes the port. -/
@[simp] lemma write_isOpen (p : SerialPort) (answer : PortWrite) (frame : List UInt8) :
    (p.write answer frame).2.isOpen = p.isOpen := by
  unfold write
  split <;> rfl

/-- What an open port does with a frame that the system writes. -/
lemma write_of_ok {p : SerialPort} {answer : PortWrite} (hopen : p.isOpen = true)
    (hok : answer.ok = true) (frame : List UInt8) :
    ∃ p', p.write answer frame = (true, p') ∧ p'.isOpen = true ∧ p'.sent = p.sent ++ [frame] :=
  ⟨(p.write answer frame).2, by simp [write, hopen, hok], by simp [hopen],
    by simp [write, hopen, hok]⟩

/-- What an open port does with a frame that the system does not write as a whole. -/
lemma write_of_not_ok {p : SerialPort} {answer : PortWrite} (hopen : p.isOpen = true)
    (hok : ¬ answer.ok = true) (frame : List UInt8) :
    ∃ p', p.write answer frame = (false, p') ∧ p'.sent = p.sent :=
  ⟨(p.write answer frame).2, by simp [write, hopen, hok], by simp [write, hopen, hok]⟩

/-- The bytes of a write go out behind the earlier ones. -/
@[simp] lemma write_wire {p : SerialPort} (hopen : p.isOpen = true) (answer : PortWrite)
    (frame : List UInt8) : (p.write answer frame).2.wire = p.wire ++ answer.out frame := by
  simp [write, hopen]

end SerialPort

end Affine
