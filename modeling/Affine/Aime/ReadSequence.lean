import Affine.Aime.Frame
import Mathlib.Data.List.Count
import Mathlib.Data.List.OfFn

set_option relaxedAutoImplicit false
set_option autoImplicit false

/-!
# Frame after frame

`read_frame` keeps nothing between its calls: it returns in the middle of a read if a frame ends
there, and drops the bytes behind the frame. It returns only at a frame or at an error of the port.
So successive calls recover the frames of a stream exactly if no read holds bytes of two frames
(`Affine.readFrames_eq_iff`), and a call returns exactly if the port reports an error or the bytes
complete a frame (`Affine.readFrame_returns_iff`).

## Main definitions

* `Affine.AimeFrame` — a well-formed frame.
* `Affine.readFrames` — successive calls of `read_frame`.
* `Affine.ReadFrameReturns` — a call of `read_frame` comes back, on a port that can be read forever.

## Main results

* `Affine.readFrames_eq_iff`, `Affine.readFrame_returns_iff`.
-/

namespace Affine

open Slice (Exec)

/-! ## Successive calls -/

/-- The contents of a well-formed frame: with the checksum behind them, they are one byte more than
their first byte announces. -/
structure AimeFrame where
  body : List UInt8
  complete : AimeComplete (body ++ [Checksum.sum body])

namespace AimeFrame

/-- The bytes of a frame as they are sent. -/
def bytes (f : AimeFrame) : List UInt8 := aimeDeframer.frame (f.body ++ [Checksum.sum f.body])

/-- The receiver finds a frame at its last byte. -/
lemma seek_bytes (f : AimeFrame) (rest : List UInt8) :
    Mealy.seek aimeDeframer.step none (f.bytes ++ rest) = .inr (some f.body, rest) := by
  obtain ⟨ha, hv⟩ := (aimeDeframer_delivers_iff f.body (Checksum.sum f.body) _).mpr
    ⟨f.complete, rfl⟩
  rw [if_pos rfl] at hv
  have hframe : Mealy.seek aimeDeframer.step none f.bytes = .inr (some f.body, []) :=
    Mealy.seek_of_run (congrArg Prod.snd (aimeDeframer.run_frame none ha hv))
  rw [Mealy.seek_append, hframe]
  rfl

/-- A frame holds a single `E0`, its first byte. -/
lemma count_bytes (f : AimeFrame) : f.bytes.count 0xE0 = 1 := by
  have hnone : (0xE0 : UInt8) ∉ aimeCode.stuff (f.body ++ [Checksum.sum f.body]) :=
    aimeCode.sync_notMem_stuff _
  change List.count 0xE0 (0xE0 :: aimeCode.stuff (f.body ++ [Checksum.sum f.body])) = 1
  rw [List.count_cons_self, List.count_eq_zero_of_not_mem hnone]

/-- Each frame has one `E0`, at its start. -/
lemma count_flatMap_bytes (fs : List AimeFrame) :
    (fs.flatMap bytes).count 0xE0 = fs.length := by
  induction fs with
  | nil => rfl
  | cons f fs ih => rw [List.flatMap_cons, List.count_append, count_bytes, ih, List.length_cons,
      Nat.add_comm]

/-- Frames start with `E0`. -/
lemma mem_of_prefix (fs : List AimeFrame) {bs : List UInt8} (h : bs <+: fs.flatMap bytes)
    (hne : bs ≠ []) : 0xE0 ∈ bs := by
  obtain ⟨b, bs, rfl⟩ := List.exists_cons_of_ne_nil hne
  cases fs with
  | nil => exact absurd (List.prefix_nil.mp h) hne
  | cons f fs =>
    obtain ⟨rfl, -⟩ := List.cons_prefix_cons.mp
      (show b :: bs <+: 0xE0 :: (aimeCode.stuff _ ++ fs.flatMap bytes) from h)
    exact List.mem_cons_self

end AimeFrame

/-- Successive calls of `read_frame`: what those return that do return. A call leaves the reads
that it has not looked at to the next one. -/
def readFrames : ℕ → List (PortRead 64) → Exec (List (Option (List UInt8)))
  | 0, _ => .ok []
  | calls + 1, reads => do
    match ← readFrame reads with
    | .waiting _ => return []
    | .returned frame _ rest => return frame :: (← readFrames calls rest)

/-- No read holds bytes of two frames: where a frame ends, so does a read. -/
def OneFramePerRead (frames : List AimeFrame) (cs : List (Chunk 64)) : Prop :=
  ∀ fs gs, frames = fs ++ gs →
    ∃ ds es, cs = ds ++ es ∧ Chunk.joined ds = fs.flatMap AimeFrame.bytes

/-- A call leaves the last of its reads.

**Proof sketch.** Induction on the reads. -/
lemma readLoop_suffix {r : FrameReader} {reads rest : List (PortRead 64)}
    {frame : Option (List UInt8)} {dropped : List UInt8}
    (h : readLoop r reads = .ok (.returned frame dropped rest)) : rest <:+ reads := by
  induction reads generalizing r with
  | nil => cases h
  | cons x reads ih =>
    cases x with
    | none =>
      cases h
      exact List.suffix_cons none _
    | some buf =>
      rw [readLoop] at h
      split at h
      · exact (ih h).trans (List.suffix_cons _ _)
      · obtain ⟨flow, -, hflow⟩ := Slice.bind_eq_ok.mp h
        cases flow with
        | again r' => exact (ih hflow).trans (List.suffix_cons _ _)
        | ret result =>
          cases hflow
          exact List.suffix_cons _ _

/-- A call that returns has used up some reads, and drops the bytes of the last of them behind the
frame. -/
lemma readFrame_returned {cs : List (Chunk 64)} {frame : Option (List UInt8)}
    {dropped : List UInt8} {rest : List (PortRead 64)}
    (h : readFrame (cs.map some) = .ok (.returned frame dropped rest)) :
    ∃ ds es, cs = ds ++ es ∧ rest = es.map some ∧
      Mealy.seek aimeDeframer.step none (Chunk.joined cs) =
        .inr (frame, dropped ++ Chunk.joined es) := by
  obtain ⟨ds, hds⟩ := readLoop_suffix h
  rcases readLoop_spec FrameReader.init_sound cs with
    ⟨r', -, -, hloop⟩ | ⟨frame', dropped', rest', hseek, hret⟩
  · have := hloop []
    rw [List.append_nil, ← readFrame, h] at this
    cases this
  · have := hret []
    rw [List.append_nil, List.append_nil, ← readFrame, h] at this
    cases this
    obtain ⟨ds', es', rfl, rfl, hes⟩ := List.map_eq_append_iff.mp hds.symm
    obtain rfl : es' = rest' := List.map_injective_iff.mpr (Option.some_injective _) hes
    exact ⟨ds', es', rfl, rfl, hseek⟩

/-- What a call does when the bytes start with a frame: it returns the frame. -/
lemma readFrame_frame (f : AimeFrame) (more : List UInt8) {cs : List (Chunk 64)}
    (h : Chunk.joined cs = f.bytes ++ more) :
    ∃ dropped es, more = dropped ++ Chunk.joined es ∧ ∀ tail, readFrame (cs.map some ++ tail) =
      .ok (.returned (some f.body) dropped (es.map some ++ tail)) := by
  have hseek := f.seek_bytes more
  rw [← h] at hseek
  rcases readLoop_spec FrameReader.init_sound cs with
    ⟨r', -, hnone, -⟩ | ⟨frame, dropped, rest, hfound, hret⟩
  · rw [show none = FrameReader.init.abs from rfl, hnone] at hseek
    cases hseek
  · rw [show none = FrameReader.init.abs from rfl, hfound] at hseek
    obtain ⟨rfl, hleft⟩ := Prod.mk.inj (Sum.inr.inj hseek)
    exact ⟨dropped, rest, hleft.symm, hret⟩

/-- Each call that returns has found an `E0`, and so have the calls behind it.

**Proof sketch.** Induction on the calls: the first one has used up an `E0`. -/
lemma length_readFrames_le {calls : ℕ} {cs : List (Chunk 64)} {results : List (Option (List UInt8))}
    (h : readFrames calls (cs.map some) = .ok results) :
    results.length ≤ (Chunk.joined cs).count 0xE0 := by
  induction calls generalizing cs results with
  | zero =>
    cases h
    exact Nat.zero_le _
  | succ calls ih =>
    obtain ⟨result, hresult, hmore⟩ := Slice.bind_eq_ok.mp h
    cases result with
    | waiting r =>
      cases hmore
      exact Nat.zero_le _
    | returned frame dropped rest =>
      obtain ⟨results', hresults, hcons⟩ := Slice.bind_eq_ok.mp hmore
      cases hcons
      obtain ⟨ds, es, rfl, rfl, hseek⟩ := readFrame_returned hresult
      have hrest := ih hresults
      obtain ⟨pre, x, hbytes, -, hemit⟩ := (Mealy.seek_eq_inr_iff _ _ _ _).mp hseek
      have hsync : 0xE0 ∈ pre ++ [x] := ((aimeDeframer_emit_iff pre x frame).mp hemit).1.1
      have hfound := List.count_pos_iff.mpr hsync
      have hsplit : Chunk.joined (ds ++ es) = (pre ++ [x]) ++ (dropped ++ Chunk.joined es) := by
        rw [hbytes]
        simp
      rw [hsplit, List.length_cons]
      simp only [List.count_append] at hfound ⊢
      omega

/-- The reads of the first frame are the first of the reads. -/
lemma OneFramePerRead.head {f : AimeFrame} {gs : List AimeFrame} {cs : List (Chunk 64)}
    (h : OneFramePerRead (f :: gs) cs) :
    ∃ ds es, cs = ds ++ es ∧ Chunk.joined ds = f.bytes := by
  obtain ⟨ds, es, hcs, hds⟩ := h [f] gs rfl
  exact ⟨ds, es, hcs, by simpa using hds⟩

/-- Behind the reads of the first frame, the reads are those of the other frames. -/
lemma oneFramePerRead_cons_iff {f : AimeFrame} {gs : List AimeFrame} {ds es : List (Chunk 64)}
    (hds : Chunk.joined ds = f.bytes) :
    OneFramePerRead (f :: gs) (ds ++ es) ↔ OneFramePerRead gs es := by
  constructor
  · intro h fs' gs' hgs
    obtain ⟨ds', es', hsplit, hds'⟩ := h (f :: fs') gs' (by rw [hgs, List.cons_append])
    rw [List.flatMap_cons, ← hds] at hds'
    rcases List.append_eq_append_iff.mp hsplit with ⟨m, rfl, rfl⟩ | ⟨m, rfl, rfl⟩
    · refine ⟨m, es', rfl, ?_⟩
      rw [Chunk.joined_append] at hds'
      exact List.append_cancel_left hds'
    · refine ⟨[], es, rfl, ?_⟩
      rw [Chunk.joined_append, List.append_assoc] at hds'
      have hnil := List.self_eq_append_right.mp hds'
      exact (List.append_eq_nil_iff.mp hnil).2.symm
  · intro h fs' gs' hgs
    cases fs' with
    | nil => exact ⟨[], ds ++ es, rfl, rfl⟩
    | cons f' fs' =>
      obtain ⟨rfl, rfl⟩ := List.cons.inj hgs
      obtain ⟨ds', es', rfl, hds'⟩ := h fs' gs' rfl
      refine ⟨ds ++ ds', es', (List.append_assoc ..).symm, ?_⟩
      rw [Chunk.joined_append, hds, hds', List.flatMap_cons]

/-- **When successive calls return the frames of a stream**: for frames whose bytes are cut into
reads in any way, exactly if no read holds bytes of two frames.

**Proof sketch.** Induction on the frames. The first call returns the first frame and drops what
its last read holds behind it (`readFrame_frame`). Bytes that are dropped start with the `E0` of
the next frame, so that there are fewer `E0` left than frames, and some call does not return
(`length_readFrames_le`). If nothing is dropped, then the other calls read the other frames. -/
theorem readFrames_eq_iff (frames : List AimeFrame) (cs : List (Chunk 64))
    (hcs : Chunk.joined cs = frames.flatMap AimeFrame.bytes) :
    readFrames frames.length (cs.map some) = .ok (frames.map fun f => some f.body) ↔
      OneFramePerRead frames cs := by
  induction frames generalizing cs with
  | nil =>
    refine iff_of_true rfl fun fs gs h => ⟨[], cs, rfl, ?_⟩
    rw [(List.append_eq_nil_iff.mp h.symm).1]
    rfl
  | cons f gs ih =>
    rw [List.flatMap_cons] at hcs
    obtain ⟨dropped, es, hmore, hframe⟩ := readFrame_frame f _ hcs
    have hcall := hframe []
    rw [List.append_nil, List.append_nil] at hcall
    obtain ⟨ds, es', rfl, hes, -⟩ := readFrame_returned hcall
    obtain rfl : es = es' := List.map_injective_iff.mpr (Option.some_injective _) hes
    have hds : Chunk.joined ds = f.bytes ++ dropped := by
      rw [Chunk.joined_append, hmore, ← List.append_assoc] at hcs
      exact List.append_cancel_right hcs
    have hcalls : readFrames (f :: gs).length ((ds ++ es).map some) =
          .ok ((f :: gs).map fun f => some f.body) ↔
        readFrames gs.length (es.map some) = .ok (gs.map fun f => some f.body) := by
      rw [List.length_cons, readFrames, hcall, List.map_cons, Slice.ok_bind]
      simp only [Slice.bind_eq_ok, Slice.pure_eq_ok, Except.ok.injEq, List.cons.injEq, true_and,
        exists_eq_right]
    rw [hcalls]
    by_cases hdropped : dropped = []
    · subst hdropped
      rw [List.append_nil] at hds
      rw [List.nil_append] at hmore
      rw [ih es hmore.symm, oneFramePerRead_cons_iff hds]
    · have hsync : 0xE0 ∈ dropped :=
        AimeFrame.mem_of_prefix gs (by rw [hmore]; exact List.prefix_append _ _) hdropped
      refine iff_of_false (fun hcalls => ?_) (fun hone => ?_)
      · have hle := length_readFrames_le hcalls
        have hcount := congrArg (List.count 0xE0) hmore
        have hfound := List.count_pos_iff.mpr hsync
        rw [AimeFrame.count_flatMap_bytes, List.count_append] at hcount
        rw [List.length_map] at hle
        omega
      · obtain ⟨ds', es', hsplit, hds'⟩ := hone.head
        obtain ⟨dropped', rest', hnil, hframe'⟩ := readFrame_frame f []
          (by rw [hds', List.append_nil])
        have hcall' := hframe' (es'.map some)
        rw [← List.map_append, ← hsplit, hcall] at hcall'
        have hsame := (ReadResult.returned.inj (Except.ok.inj hcall')).2.1
        exact hdropped (hsame.trans (List.append_eq_nil_iff.mp hnil.symm).1)

/-- The answer to a poll without a card. -/
def emptyPoll : AimeFrame := ⟨[0x05, 0, 0, 0x42, 0], by decide⟩

/-- Two frames, each in a read of its own. -/
theorem readFrames_eq_iff_apart :
    readFrames 2 ([⟨emptyPoll.bytes, by decide⟩, ⟨emptyPoll.bytes, by decide⟩].map some) =
        .ok [some emptyPoll.body, some emptyPoll.body] ↔
      OneFramePerRead [emptyPoll, emptyPoll]
        [⟨emptyPoll.bytes, by decide⟩, ⟨emptyPoll.bytes, by decide⟩] :=
  readFrames_eq_iff [emptyPoll, emptyPoll] _ (by decide)

/-- Two frames in one read: the second one is lost. -/
theorem second_frame_lost :
    Chunk.joined [(⟨emptyPoll.bytes ++ emptyPoll.bytes, by decide⟩ : Chunk 64)] =
        [emptyPoll, emptyPoll].flatMap AimeFrame.bytes ∧
      readFrames 2 [some ⟨emptyPoll.bytes ++ emptyPoll.bytes, by decide⟩] =
        .ok [some emptyPoll.body] ∧
      readFrames 2 [some ⟨emptyPoll.bytes ++ emptyPoll.bytes, by decide⟩] ≠
        .ok [some emptyPoll.body, some emptyPoll.body] := by
  have hlost : readFrames 2 [some ⟨emptyPoll.bytes ++ emptyPoll.bytes, by decide⟩] =
      .ok [some emptyPoll.body] := by decide +kernel
  refine ⟨by decide +kernel, hlost, fun h => ?_⟩
  rw [hlost] at h
  cases h

/-! ## Whether a call returns -/

/-- With these reads and no others the call of `read_frame` returns. -/
def ReturnsOn (reads : List (PortRead 64)) : Prop :=
  ∃ frame dropped rest, readFrame reads = .ok (.returned frame dropped rest)

/-- The receiver finds nothing in bytes that complete no frame. -/
lemma seek_eq_inl_iff_frameEnd (bs : List UInt8) :
    (∃ s, Mealy.seek aimeDeframer.step none bs = .inl s) ↔ ¬ ∃ s, s <+: bs ∧ FrameEnd s := by
  rw [Mealy.seek_eq_inl_iff]
  simp only [aimeDeframer_emit_none_iff, not_exists, not_and]
  constructor
  · intro h s hs hend
    rcases List.eq_nil_or_concat' s with rfl | ⟨pre, x, rfl⟩
    · exact absurd hend.1 List.not_mem_nil
    · exact h pre x hs hend
  · exact fun h pre x hpre => h (pre ++ [x]) hpre

/-- **When a call returns on some reads**: if one of them is an error, or if the bytes before the
errors complete a frame.

**Proof sketch.** Before the first error the call runs the receiver (`readLoop_spec`), which finds
something exactly if a frame is completed. -/
theorem returnsOn_iff (reads : List (PortRead 64)) :
    ReturnsOn reads ↔ none ∈ reads ∨ ∃ s, s <+: answerBytes reads ∧ FrameEnd s := by
  obtain ⟨cs, tail, rfl, htail, hbytes⟩ := exists_split_reads reads
  rw [hbytes]
  rcases readLoop_spec FrameReader.init_sound cs with
    ⟨r', -, hnone, hloop⟩ | ⟨frame, dropped, rest, hfound, hret⟩
  · have hnothing : ¬ ∃ s, s <+: Chunk.joined cs ∧ FrameEnd s :=
      (seek_eq_inl_iff_frameEnd _).mp ⟨_, hnone⟩
    rw [or_iff_left hnothing, ReturnsOn, readFrame, hloop]
    rcases htail with rfl | ⟨rest, rfl⟩
    · refine iff_of_false ?_ (by simp)
      rintro ⟨frame, dropped, rest, h⟩
      cases h
    · exact iff_of_true ⟨none, [], rest, rfl⟩ (by simp)
  · refine iff_of_true ⟨frame, dropped, _, hret tail⟩ (.inr ?_)
    by_contra hnothing
    obtain ⟨s, hs⟩ := (seek_eq_inl_iff_frameEnd _).mpr hnothing
    rw [show none = FrameReader.init.abs from rfl, hfound] at hs
    cases hs

/-- The first `n` results of a port. -/
def firstReads (port : ℕ → PortRead 64) (n : ℕ) : List (PortRead 64) := (List.range n).map port

/-- A call of `read_frame` on a port that can be read forever returns, after finitely many reads. -/
def ReadFrameReturns (port : ℕ → PortRead 64) : Prop := ∃ n, ReturnsOn (firstReads port n)

/-- **When a call of `read_frame` comes back**: exactly if a read of the port fails, or if the bytes
that the port returns complete a frame.

**Proof sketch.** `returnsOn_iff` for the first reads of the port. -/
theorem readFrame_returns_iff (port : ℕ → PortRead 64) :
    ReadFrameReturns port ↔
      (∃ n, port n = none) ∨ ∃ n s, s <+: answerBytes (firstReads port n) ∧ FrameEnd s := by
  simp only [ReadFrameReturns, returnsOn_iff]
  constructor
  · rintro ⟨n, hnone | hend⟩
    · obtain ⟨k, -, hk⟩ := List.mem_map.mp hnone
      exact .inl ⟨k, hk⟩
    · exact .inr ⟨n, hend⟩
  · rintro (⟨n, hnone⟩ | ⟨n, hend⟩)
    · exact ⟨n + 1, .inl (List.mem_map.mpr ⟨n, List.mem_range.mpr (Nat.lt_succ_self n), hnone⟩)⟩
    · exact ⟨n, .inr hend⟩

/-- A port on which every read times out. -/
def silentPort : ℕ → PortRead 64 := fun _ => some (.empty 64)

/-- The reader is silent, and the call does not come back. -/
theorem readFrame_hangs : ¬ ReadFrameReturns silentPort := by
  rintro ⟨n, hreturns⟩
  have hbytes : answerBytes (firstReads silentPort n) = [] := by
    rw [firstReads]
    induction List.range n with
    | nil => rfl
    | cons k ks ih => exact ih
  rcases (returnsOn_iff _).mp hreturns with hnone | ⟨s, hs, hend⟩
  · obtain ⟨k, -, hk⟩ := List.mem_map.mp hnone
    cases hk
  · rw [hbytes, List.prefix_nil] at hs
    subst hs
    exact absurd hend.1 List.not_mem_nil

end Affine
