import Affine.Aime.ReadSequence
import Affine.Lib.Run

set_option relaxedAutoImplicit false
set_option autoImplicit false

/-!
# What the decoder of the card reader accepts, and what it holds

`read_frame` (`affine-aime/src/lib.rs`) collects the bytes behind the last `E0` and compares their
number with the length byte after each one. It returns only frames whose length byte and checksum
are right (`Affine.readFrame_accepts_sound`). The comparison is an equality and is made from the
second byte on, so a length byte of zero is never met, and then the collected bytes grow without
bound (`Affine.readFrame_zero_length`); for all other length bytes they stay within it
(`Affine.readFrame_bounded_iff`).

## Main definitions

* `Affine.FirstEnd` — the bytes up to the first completed frame.
* `Affine.FrameReader.Next`, `Affine.FrameReader.next` — what a byte does that does not end the
  call, and the byte loop as a state machine.
* `Affine.ReadStep` — a call looks at a byte in a state of its local variables.
* `Affine.ReadBounded` — the collected bytes stay within what they announce.

## Main results

* `Affine.readFrame_accepts_sound`, `Affine.readFrame_bounded_iff`, `Affine.readFrame_zero_length`.
-/

namespace Affine

open Slice (Exec)

/-! ## What a call accepts -/

/-- These bytes are the first of `bs` that complete a frame. -/
def FirstEnd (bs t : List UInt8) : Prop :=
  t <+: bs ∧ FrameEnd t ∧ ∀ s, s <+: t → FrameEnd s → s = t

/-- There is at most one first frame. -/
lemma FirstEnd.unique {bs s t : List UInt8} (hs : FirstEnd bs s) (ht : FirstEnd bs t) : s = t := by
  rcases List.prefix_or_prefix_of_prefix hs.1 ht.1 with h | h
  · exact ht.2.2 s h hs.2.1
  · exact (hs.2.2 t h ht.2.1).symm

/-- Without an error, the bytes of the reads are all that is read. -/
lemma answerBytes_map_some (cs : List (Chunk 64)) :
    answerBytes (cs.map some) = Chunk.joined cs := by
  induction cs with
  | nil => rfl
  | cons c cs ih => rw [List.map_cons, answerBytes, ih, Chunk.joined_cons]

/-- What the receiver finds, it finds at the first completed frame. -/
lemma firstEnd_of_seek {bs left : List UInt8} {frame : Option (List UInt8)}
    (h : Mealy.seek aimeDeframer.step none bs = .inr (frame, left)) :
    ∃ t xs v, bs = t ++ left ∧ FirstEnd bs t ∧ aimeCode.received t = xs ++ [v] ∧
      frame = if Checksum.sum xs = v then some xs else none := by
  obtain ⟨pre, b, rfl, hpre, hemit⟩ := (Mealy.seek_eq_inr_iff _ _ _ _).mp h
  obtain ⟨hend, xs, v, hxs, hframe⟩ := (aimeDeframer_emit_iff pre b frame).mp hemit
  have hnone := (seek_eq_inl_iff_frameEnd pre).mp hpre
  refine ⟨pre ++ [b], xs, v, by simp, ⟨⟨left, by simp⟩, hend, fun s hs hsend => ?_⟩, hxs, hframe⟩
  rcases List.prefix_concat_iff.mp hs with heq | hprefix
  · exact heq
  · exact absurd ⟨s, hprefix, hsend⟩ hnone

/-- **How a call ends**: at an error of the port before which no frame was completed, or at the
byte that completes the first frame, with the contents before the checksum if it is right.

**Proof sketch.** Before the first error the call runs the receiver (`readLoop_spec`). -/
lemma readFrame_ends {reads rest : List (PortRead 64)} {frame : Option (List UInt8)}
    {dropped : List UInt8} (h : readFrame reads = .ok (.returned frame dropped rest)) :
    ∃ used, reads = used ++ rest ∧
      ((frame = none ∧ ¬ ∃ t, FirstEnd (answerBytes reads) t) ∨
        ∃ t xs v, none ∉ used ∧ answerBytes used = t ++ dropped ∧
          FirstEnd (answerBytes reads) t ∧ aimeCode.received t = xs ++ [v] ∧
          frame = if Checksum.sum xs = v then some xs else none) := by
  obtain ⟨used, rfl⟩ := readLoop_suffix h
  refine ⟨used, rfl, ?_⟩
  obtain ⟨cs, tail, hsplit, htail, hbytes⟩ := exists_split_reads (used ++ rest)
  rcases readLoop_spec FrameReader.init_sound cs with
    ⟨r', -, hnone, hloop⟩ | ⟨found, left, es, hfound, hret⟩
  · rw [hsplit, readFrame, hloop] at h
    refine .inl ⟨?_, ?_⟩
    · rcases htail with rfl | ⟨rest', rfl⟩ <;> cases h
      rfl
    · rintro ⟨t, ht, hend, -⟩
      rw [hbytes] at ht
      exact (seek_eq_inl_iff_frameEnd _).mp ⟨_, hnone⟩ ⟨t, ht, hend⟩
  · rw [hsplit, readFrame, hret] at h
    cases h
    obtain ⟨t, xs, v, ht, hfirst, hxs, hframe⟩ := firstEnd_of_seek hfound
    -- the reads of the call are those in which the receiver has found the frame
    obtain ⟨ds, es', rfl, hes, -⟩ := readFrame_returned (by simpa [readFrame] using hret [])
    obtain rfl : es = es' := List.map_injective_iff.mpr (Option.some_injective _) hes
    rw [List.map_append, List.append_assoc] at hsplit
    obtain rfl := List.append_cancel_right hsplit
    refine .inr ⟨t, xs, v, by simp, ?_, by rw [hbytes]; exact hfirst, hxs, hframe⟩
    rw [Chunk.joined_append, ← List.append_assoc] at ht
    rw [answerBytes_map_some, List.append_cancel_right ht]

/-- **The decoder accepts only sound frames**: whatever the port returns and however it is cut
into reads, if a call returns `d`, then `d` is as long as its first byte says and not empty, and
the bytes it has used end with an `E0` and bytes without `E0` that stand, unescaped, for `d` and
its checksum. If the checksum of the first completed frame is another one, the call returns
nothing.

**Proof sketch.** A call returns `d` only at the byte that completes the first frame
(`readFrame_ends`). If a frame is completed, then the call returns (`returnsOn_iff`), and it
returns at this frame because there is only one first frame. -/
theorem readFrame_accepts_sound (reads : List (PortRead 64)) :
    (∀ d dropped rest, readFrame reads = .ok (.returned (some d) dropped rest) →
      ∃ used pre raw, reads = used ++ rest ∧ none ∉ used ∧
        answerBytes used = pre ++ 0xE0 :: raw ++ dropped ∧ 0xE0 ∉ raw ∧
        raw.getLast? ≠ some 0xD0 ∧ aimeCode.unstuff false raw = d ++ [Checksum.sum d] ∧
        1 ≤ d.length ∧ d.length = (d.getD 0 0).toNat) ∧
      ∀ t xs v, FirstEnd (answerBytes reads) t → aimeCode.received t = xs ++ [v] →
        v ≠ Checksum.sum xs →
          ∃ dropped rest, readFrame reads = .ok (.returned none dropped rest) := by
  constructor
  · intro d dropped rest h
    obtain ⟨used, hused, ⟨hnone, -⟩ | ⟨t, xs, v, hreads, hbytes, ⟨-, hend, -⟩, hxs, hframe⟩⟩ :=
      readFrame_ends h
    · cases hnone
    have hck : Checksum.sum xs = v := by
      by_contra hck
      rw [if_neg hck] at hframe
      cases hframe
    rw [if_pos hck] at hframe
    obtain rfl : d = xs := Option.some.inj hframe
    obtain ⟨hsync, hesc, htwo, hsize⟩ := hend
    obtain ⟨pre, hpre⟩ := aimeCode.eq_append_sinceSync hsync
    rw [hxs, List.length_append, List.length_singleton] at htwo hsize
    rw [List.getD_append _ _ _ _ (by omega)] at hsize
    refine ⟨used, pre, aimeCode.sinceSync t, hused, hreads, ?_, aimeCode.sync_notMem_sinceSync t,
      fun hlast => hesc ?_, hck ▸ hxs, by omega, by omega⟩
    · rw [hbytes]
      exact congrArg (· ++ dropped) hpre
    · rw [hpre, List.getLast?_append, List.getLast?_cons, hlast]
      rfl
  · intro t xs v hfirst hxs hne
    obtain ⟨frame, dropped, rest, hret⟩ :=
      (returnsOn_iff reads).mpr (.inr ⟨t, hfirst.1, hfirst.2.1⟩)
    obtain ⟨used, hused, ⟨-, hnothing⟩ | ⟨t', xs', v', -, -, hfirst', hxs', hframe⟩⟩ :=
      readFrame_ends hret
    · exact absurd ⟨t, hfirst⟩ hnothing
    obtain rfl := hfirst.unique hfirst'
    rw [hxs] at hxs'
    obtain ⟨rfl, hv⟩ := List.append_inj' hxs' rfl
    obtain ⟨rfl, -⟩ := List.cons.inj hv
    rw [if_neg (Ne.symm hne)] at hframe
    exact ⟨dropped, rest, hframe ▸ hret⟩

/-! ## What a call holds -/

namespace FrameReader

/-- What a byte is collected as. -/
def value (r : FrameReader) (b : UInt8) : UInt8 := if r.escaped then b + 1 else b

/-- What a byte does that does not end the call: one constructor for each way through the body of
the loop. -/
inductive Next (r : FrameReader) (b : UInt8) : FrameReader → Prop
  /-- The byte starts a frame. -/
  | start {r' : FrameReader} (hb : b = 0xE0) (hdecoded : r'.decoded = [])
      (hstarted : r'.started = true) : Next r b r'
  /-- The byte lies before the first frame. -/
  | skip (hb : b ≠ 0xE0) (hstarted : r.started = false) : Next r b r
  /-- The byte announces a stuffed one. -/
  | escape (hb : b = 0xD0) (hstarted : r.started = true) : Next r b { r with escaped := true }
  /-- The byte is collected, and does not complete the frame. -/
  | store {r' : FrameReader} (hsync : b ≠ 0xE0) (hesc : b ≠ 0xD0)
      (hdecoded : r'.decoded = r.decoded ++ [r.value b]) (hmore : ¬ AimeComplete r'.decoded)
      (hstarted : r'.started = true) : Next r b r'

/-- A byte raises no fault: it does one of these, or it completes the frame and ends the call.

**Proof sketch.** The cases are the branches of the source. The size is looked at behind the check
that two bytes are there, so that every access is within the frame. -/
lemma byte_cases (r : FrameReader) (b : UInt8) :
    (∃ r', r.byte b = .ok (.again r') ∧ Next r b r') ∨
      ∃ frame, r.byte b = .ok (.ret frame) ∧ AimeComplete (r.decoded ++ [r.value b]) := by
  obtain ⟨started, escaped, decoded⟩ := r
  by_cases hsync : b = 0xE0
  · subst hsync
    cases started <;> exact .inl ⟨_, rfl, .start rfl rfl rfl⟩
  cases started with
  | false => exact .inl ⟨_, by simp [byte, hsync], .skip hsync rfl⟩
  | true =>
    by_cases hesc : b = 0xD0
    · exact .inl ⟨_, by simp [byte, hesc], .escape hesc rfl⟩
    have hvalue : (if escaped then b + 1 else b) = value ⟨true, escaped, decoded⟩ b := rfl
    simp only [byte, hsync, hesc, not_true_eq_false, if_false, hvalue]
    generalize hv : value ⟨true, escaped, decoded⟩ b = v
    have hfirst : 2 ≤ (decoded ++ [v]).length →
        Slice.get (decoded ++ [v]) 0 = .ok ((decoded ++ [v]).getD 0 0) :=
      fun h => Slice.get_eq_getD (by omega) 0
    by_cases htwo : 2 ≤ (decoded ++ [v]).length
    swap
    · rw [if_neg htwo]
      exact .inl ⟨_, rfl, .store hsync hesc (by rw [hv]) (fun h => htwo h.1) rfl⟩
    rw [if_pos htwo, hfirst htwo, Slice.ok_bind]
    by_cases hsize : (decoded ++ [v]).length = ((decoded ++ [v]).getD 0 0).toNat + 1
    swap
    · rw [if_neg hsize]
      exact .inl ⟨_, rfl, .store hsync hesc (by rw [hv]) (fun h => hsize h.2) rfl⟩
    have hlast : Slice.get (decoded ++ [v]) ((decoded ++ [v]).length - 1) = .ok v :=
      Slice.get_eq_ok (by simp)
    rw [if_pos hsize, Slice.range_eq_ok (by omega) (by omega), hlast]
    simp only [Slice.ok_bind]
    split <;> exact .inr ⟨_, rfl, htwo, hsize⟩

/-- A byte that does not end the call does one of these. -/
lemma next_of_again {r r' : FrameReader} {b : UInt8} (h : r.byte b = .ok (.again r')) :
    Next r b r' := by
  rcases byte_cases r b with ⟨r'', hbyte, hnext⟩ | ⟨frame, hbyte, -⟩
  · rw [h] at hbyte
    cases hbyte
    exact hnext
  · rw [h] at hbyte
    cases hbyte

/-- A byte that ends the call completes the frame. -/
lemma complete_of_ret {r : FrameReader} {b : UInt8} {frame : Option (List UInt8)}
    (h : r.byte b = .ok (.ret frame)) : AimeComplete (r.decoded ++ [r.value b]) := by
  rcases byte_cases r b with ⟨r', hbyte, -⟩ | ⟨frame', -, hcomplete⟩
  · rw [h] at hbyte
    cases hbyte
  · exact hcomplete

/-- The body of the loop as the step of a state machine, which stops where the call returns. -/
def next (b : UInt8) (r : FrameReader) : Except Unit FrameReader :=
  match r.byte b with
  | .ok (.again r') => .ok r'
  | _ => .error ()

/-- The loop over the bytes goes on exactly if the byte ends no frame. -/
lemma next_eq_ok {r r' : FrameReader} {b : UInt8} :
    next b r = .ok r' ↔ r.byte b = .ok (.again r') := by
  rcases byte_cases r b with ⟨r'', hbyte, -⟩ | ⟨frame, hbyte, -⟩ <;> simp [next, hbyte]

/-- The loop over the bytes of a read is a run. -/
lemma bytes_eq_again_iff {r r' : FrameReader} {bs : List UInt8} :
    r.bytes bs = .ok (.again r') ↔ Run.exec next r bs = .ok r' := by
  induction bs generalizing r with
  | nil => simp [bytes]
  | cons b bs ih =>
    rw [Run.exec_cons_eq_ok, bytes, Slice.bind_eq_ok]
    constructor
    · rintro ⟨flow, hbyte, hflow⟩
      cases flow with
      | again r₁ => exact ⟨r₁, next_eq_ok.mpr hbyte, ih.mp hflow⟩
      | ret frame => cases hflow
    · rintro ⟨r₁, hbyte, hrun⟩
      exact ⟨.again r₁, next_eq_ok.mp hbyte, ih.mpr hrun⟩

end FrameReader

/-- The loop over the reads is a run on the bytes of all of them. -/
lemma readLoop_eq_waiting_iff {r r' : FrameReader} {cs : List (Chunk 64)} :
    readLoop r (cs.map some) = .ok (.waiting r') ↔
      Run.exec FrameReader.next r (Chunk.joined cs) = .ok r' := by
  induction cs generalizing r with
  | nil => simp [readLoop, Chunk.joined]
  | cons c cs ih =>
    rw [Chunk.joined_cons, Run.exec_append, List.map_cons, readLoop]
    by_cases hnil : c.1.length = 0
    · rw [if_pos hnil, ih, List.length_eq_zero_iff.mp hnil]
      rfl
    rw [if_neg hnil, Slice.bind_eq_ok, Slice.bind_eq_ok]
    constructor
    · rintro ⟨flow, hbytes, hflow⟩
      cases flow with
      | again r₁ => exact ⟨r₁, FrameReader.bytes_eq_again_iff.mp hbytes, ih.mp hflow⟩
      | ret result => cases hflow
    · rintro ⟨r₁, hbytes, hrun⟩
      exact ⟨.again r₁, FrameReader.bytes_eq_again_iff.mpr hbytes, ih.mpr hrun⟩

/-- A call on these reads looks at the byte `b` with these local variables: it is still waiting
behind the reads `cs`, and in the next one it has gone through `bs`. -/
def ReadStep (reads : List (PortRead 64)) (r : FrameReader) (b : UInt8) : Prop :=
  ∃ (cs : List (Chunk 64)) (c : Chunk 64) (bs more : List UInt8) (r₀ : FrameReader),
    cs.map some ++ [some c] <+: reads ∧ c.1 = bs ++ b :: more ∧
      readFrame (cs.map some) = .ok (.waiting r₀) ∧ r₀.bytes bs = .ok (.again r)

/-- The steps of a call are those of a run.

**Proof sketch.** From left to right the chunks that were read are put in front of the bytes of the
current one. From right to left, induction on the reads: the byte is in the first chunk, or in a
later one. -/
lemma readStep_iff {reads : List (PortRead 64)} {r : FrameReader} {b : UInt8} :
    ReadStep reads r b ↔
      ∃ pre, pre ++ [b] <+: answerBytes reads ∧ Run.exec FrameReader.next .init pre = .ok r := by
  constructor
  · rintro ⟨cs, c, bs, more, r₀, ⟨tail, rfl⟩, hc, hwait, hbytes⟩
    refine ⟨Chunk.joined cs ++ bs, ?_, ?_⟩
    · have hreads : ∀ ds : List (Chunk 64), answerBytes (ds.map some ++ some c :: tail) =
          Chunk.joined ds ++ (c.1 ++ answerBytes tail) := by
        intro ds
        induction ds with
        | nil => rfl
        | cons d ds ih =>
          rw [List.map_cons, List.cons_append, answerBytes, ih, Chunk.joined_cons,
            List.append_assoc]
      rw [List.append_assoc (cs.map some), List.singleton_append, hreads, hc]
      exact ⟨more ++ answerBytes tail, by simp⟩
    · rw [Run.exec_append, readLoop_eq_waiting_iff.mp hwait]
      exact FrameReader.bytes_eq_again_iff.mp hbytes
  · rintro ⟨pre, hpre, hrun⟩
    suffices h : ∃ (cs : List (Chunk 64)) (c : Chunk 64) (bs more : List UInt8),
        cs.map some ++ [some c] <+: reads ∧ c.1 = bs ++ b :: more ∧ pre = Chunk.joined cs ++ bs by
      obtain ⟨cs, c, bs, more, hreads, hc, rfl⟩ := h
      rw [Run.exec_append, Slice.bind_eq_ok] at hrun
      obtain ⟨r₀, hcs, hbs⟩ := hrun
      exact ⟨cs, c, bs, more, r₀, hreads, hc, readLoop_eq_waiting_iff.mpr hcs,
        FrameReader.bytes_eq_again_iff.mpr hbs⟩
    clear hrun
    induction reads generalizing pre with
    | nil => simp [answerBytes] at hpre
    | cons x reads ih =>
      cases x with
      | none => simp [answerBytes] at hpre
      | some c =>
        obtain ⟨more, hmore⟩ := hpre
        rw [List.append_assoc, List.singleton_append, answerBytes] at hmore
        rcases List.append_eq_append_iff.mp hmore with ⟨m, hm, hbm⟩ | ⟨m, rfl, hm⟩
        · cases m with
          | nil =>
            -- the byte is the first of the next read that is not empty
            obtain ⟨cs, c', bs, more', hreads, hc', hpre'⟩ :=
              ih [] ⟨more, by simpa using hbm⟩
            refine ⟨c :: cs, c', bs, more', by simpa using hreads, hc', ?_⟩
            rw [Chunk.joined_cons, List.append_assoc, ← hpre', hm, List.append_nil, List.append_nil]
          | cons b' m =>
            obtain ⟨rfl, -⟩ := List.cons.inj hbm
            exact ⟨[], c, pre, m, by simp, hm.symm ▸ rfl, rfl⟩
        · obtain ⟨cs, c', bs, more', hreads, hc', rfl⟩ := ih m ⟨more, by simpa using hm.symm⟩
          exact ⟨c :: cs, c', bs, more', by simpa using hreads, hc', by simp [Chunk.joined_cons]⟩

/-- The collected bytes are at most one more than the first of them announces. -/
def Bounded (decoded : List UInt8) : Prop :=
  decoded.length ≤ (decoded.getD 0 0).toNat + 1 ∧ decoded.length ≤ 256

instance (decoded : List UInt8) : Decidable (Bounded decoded) :=
  inferInstanceAs (Decidable (_ ∧ _))

/-- With every byte that a call looks at, the collected bytes stay bounded, the byte that ends the
call included. -/
def ReadBounded (reads : List (PortRead 64)) : Prop :=
  ∀ r b, ReadStep reads r b →
    (∀ r', r.byte b = .ok (.again r') → Bounded r'.decoded) ∧
      ∀ frame, r.byte b = .ok (.ret frame) → Bounded (r.decoded ++ [r.value b])

namespace FrameReader

/-- Between the bytes, a frame in progress is not complete, and nothing is collected before the
first frame. -/
def Open (r : FrameReader) : Prop :=
  ¬ AimeComplete r.decoded ∧ (r.started = false → r.decoded = [])

/-- Nothing is in progress at the start. -/
lemma open_init : init.Open := ⟨by decide, fun _ => rfl⟩

/-- A byte that ends no frame leaves a frame that is not complete. -/
lemma open_next {b : UInt8} {r r' : FrameReader} (h : r.Open) (hnext : next b r = .ok r') :
    r'.Open := by
  cases next_of_again (next_eq_ok.mp hnext) with
  | start hb hdecoded hstarted => exact ⟨by rw [hdecoded]; decide, by simp [hstarted]⟩
  | skip => exact h
  | escape _ hstarted => exact ⟨h.1, by simp [hstarted]⟩
  | store hsync hesc hdecoded hmore hstarted => exact ⟨hmore, by simp [hstarted]⟩

end FrameReader

/-- Complete bytes are bounded. -/
lemma bounded_of_complete {decoded : List UInt8} (h : AimeComplete decoded) : Bounded decoded := by
  have hbyte := (decoded.getD 0 0).toNat_lt
  exact ⟨h.2.le, by rw [h.2]; omega⟩

/-- **When a step keeps the bound**: unless it collects a byte behind a length byte of zero.

**Proof sketch.** Behind another length byte the collected bytes are fewer than the complete frame
has, as it was not complete before. Behind a length byte of zero, two bytes are one too many. -/
lemma bounded_next_iff {b : UInt8} {r r' : FrameReader} (hopen : r.Open)
    (hbounded : Bounded r.decoded) (hnext : FrameReader.next b r = .ok r') :
    Bounded r'.decoded ↔ (r.decoded = [0] → b = 0xE0 ∨ b = 0xD0) := by
  cases FrameReader.next_of_again (FrameReader.next_eq_ok.mp hnext) with
  | start hb hdecoded => exact iff_of_true (by rw [hdecoded]; decide) fun _ => .inl hb
  | skip hb hstarted =>
    refine iff_of_true hbounded fun h => ?_
    rw [hopen.2 hstarted] at h
    cases h
  | escape hb => exact iff_of_true hbounded fun _ => .inr hb
  | store hsync hesc hdecoded hmore =>
    rw [hdecoded]
    cases hcollected : r.decoded with
    | nil => exact iff_of_true ⟨by simp, by simp⟩ nofun
    | cons x xs =>
      have hx := x.toNat_lt
      have hone := hopen.1
      simp only [hcollected, Bounded, AimeComplete, List.getD_cons_zero, List.length_cons,
        List.length_append, List.length_nil, List.cons_append, List.cons.injEq] at *
      by_cases hzero : x = 0 ∧ xs = []
      · refine iff_of_false ?_ fun h => (h hzero).elim hsync hesc
        obtain ⟨rfl, rfl⟩ := hzero
        simp
      · refine iff_of_true ?_ fun h => absurd h hzero
        have hlen : xs = [] → x.toNat ≠ 0 := fun hxs hx0 =>
          hzero ⟨UInt8.toNat_inj.mp hx0, hxs⟩
        rw [← List.length_eq_zero_iff] at hlen
        omega

/-- **When the collected bytes stay bounded**: for all reads, exactly if no byte is collected while
the only byte behind the last `E0` is a length byte of zero.

**Proof sketch.** The steps of a call are those of a run (`readStep_iff`). Along a run the bound is
kept by the steps that meet the condition and by no others (`bounded_next_iff`), and the byte that
ends a call completes the frame. -/
theorem readFrame_bounded_iff (reads : List (PortRead 64)) :
    ReadBounded reads ↔
      ∀ r b, ReadStep reads r b → r.decoded = [0] → b = 0xE0 ∨ b = 0xD0 := by
  have hrun : Run.Always FrameReader.next .init (answerBytes reads) (fun r => Bounded r.decoded) ↔
      Run.EachStep FrameReader.next .init (answerBytes reads)
        (fun r b => r.decoded = [0] → b = 0xE0 ∨ b = 0xD0) :=
    Run.always_iff FrameReader.open_init (fun _ _ _ => FrameReader.open_next)
      ⟨by decide, by decide⟩ (fun _ _ _ => bounded_next_iff)
  constructor
  · intro h r b hstep hzero
    rcases FrameReader.byte_cases r b with ⟨r', hbyte, -⟩ | ⟨frame, hbyte, hcomplete⟩
    · obtain ⟨pre, hpre, hexec⟩ := readStep_iff.mp hstep
      have hopen := Run.exec_invariant FrameReader.open_init (fun _ _ _ => FrameReader.open_next)
        hexec
      refine (bounded_next_iff hopen ?_ (FrameReader.next_eq_ok.mpr hbyte)).mp
        ((h r b hstep).1 r' hbyte) hzero
      rw [hzero]
      exact ⟨by decide, by decide⟩
    · rw [hzero] at hcomplete
      exact absurd hcomplete.2 (by simp)
  · intro h r b hstep
    obtain ⟨pre, hpre, hexec⟩ := readStep_iff.mp hstep
    refine ⟨fun r' hbyte => ?_, fun frame hbyte =>
      bounded_of_complete (FrameReader.complete_of_ret hbyte)⟩
    refine hrun.mpr (fun pre' a t u hpre' ht _ => ?_) (pre ++ [b]) r' hpre
      ((Run.exec_concat_eq_ok _).mpr ⟨r, hexec, FrameReader.next_eq_ok.mpr hbyte⟩)
    exact h t a (readStep_iff.mpr ⟨pre', hpre', ht⟩)

/-- The third byte is collected behind a length byte of zero. -/
theorem readFrame_not_bounded : ¬ ReadBounded [some ⟨[0xE0, 0x00, 0x01], by decide⟩] := by
  intro h
  have hstep : ReadStep [some ⟨[0xE0, 0x00, 0x01], by decide⟩] ⟨true, false, [0]⟩ 0x01 :=
    ⟨[], ⟨[0xE0, 0x00, 0x01], by decide⟩, [0xE0, 0x00], [], .init, List.prefix_refl _, rfl, rfl,
      rfl⟩
  have hbounded := (h _ _ hstep).1 ⟨true, false, [0, 1]⟩ rfl
  exact absurd hbounded.1 (by decide)

/-- Behind a length byte of zero, bytes without special ones are collected. -/
lemma exec_zero_length (xs : List UInt8) {bs : List UInt8} (hsync : 0xE0 ∉ bs) (hesc : 0xD0 ∉ bs) :
    Run.exec FrameReader.next ⟨true, false, 0 :: xs⟩ bs = .ok ⟨true, false, 0 :: (xs ++ bs)⟩ := by
  induction bs generalizing xs with
  | nil => rw [List.append_nil, Run.exec_nil]
  | cons b bs ih =>
    simp only [List.mem_cons, not_or] at hsync hesc
    have hbyte : FrameReader.byte ⟨true, false, 0 :: xs⟩ b =
        .ok (.again ⟨true, false, 0 :: (xs ++ [b])⟩) := by
      simp [FrameReader.byte, Ne.symm hsync.1, Ne.symm hesc.1, Slice.get]
    refine (Run.exec_cons_eq_ok _).mpr ⟨_, FrameReader.next_eq_ok.mpr hbyte, ?_⟩
    rw [ih (xs ++ [b]) hsync.2 hesc.2, List.append_assoc, List.singleton_append]

/-- **A length byte of zero is never met**: a call that reads it collects all bytes behind it, as
many as there are before the next special one. -/
theorem readFrame_zero_length {cs : List (Chunk 64)} {bs : List UInt8}
    (hcs : Chunk.joined cs = 0xE0 :: 0x00 :: bs) (hsync : 0xE0 ∉ bs) (hesc : 0xD0 ∉ bs) :
    readFrame (cs.map some) = .ok (.waiting ⟨true, false, 0 :: bs⟩) := by
  refine readLoop_eq_waiting_iff.mpr ?_
  rw [hcs]
  exact exec_zero_length [] hsync hesc

end Affine
