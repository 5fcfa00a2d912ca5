import Affine.Core.Port
import Affine.Core.SliderLink
import Affine.Lib.Run

set_option relaxedAutoImplicit false
set_option autoImplicit false

/-!
# The loop of a slider thread

`chuni_thread` and `mercury_thread` run the same loop: they open the port, write the commands that
the control page asks for, push the bytes of a read one by one, and close the port when a read
fails. A `SliderLoop` is such a thread, in the single actions of which its passes are made.

The decoder is not replaced when the port opens again, so a frame that one connection broke off goes
on with the first bytes of the next. A packet mixes two connections exactly if these bytes complete
it (`SliderLoop.oneConnection_iff`).

## Main definitions

* `Affine.SliderLoop`, `Affine.SliderAction`, `Affine.SliderLoop.act` — a thread, and its actions.
* `Affine.SliderAction.ofPass` — the actions of a pass.
* `Affine.SliderStream` — the bytes of the current connection and of those before.
* `Affine.SliderLoop.OneConnection` — what is handled comes from the current connection.
* `Affine.SliderLoop.BrokenStay` — what an earlier connection broke off is not handled.

## Main results

* `Affine.SliderLoop.exec_ofPass` — the actions of a pass do what the pass does.
* `Affine.SliderLoop.oneConnection_iff`.
-/

namespace Affine

open Slice (Exec)

/-- A thread that serves a slider. `κ` are the calls of the game, `ι` is what decides which commands
a pass writes, and `τ` are the variables of the thread with its pages. -/
structure SliderLoop (κ ι τ : Type) where
  isOpen : τ → Bool
  parser : τ → SliderParser
  setParser : SliderParser → τ → τ
  call : κ → τ → τ
  /-- The port opens. -/
  connect : τ → τ
  /-- The commands of a pass are written. -/
  serve : ι → τ → τ
  /-- What the thread does with a packet. -/
  applyPacket : SliderPacket → τ → Exec τ
  /-- The packets with which it does something. -/
  handles : SliderPacket → Bool
  /-- A read fails, and the port closes. -/
  close : τ → τ
  connect_isOpen : ∀ t, isOpen (connect t) = true
  serve_isOpen : ∀ i t, isOpen (serve i t) = isOpen t
  setParser_isOpen : ∀ p t, isOpen (setParser p t) = isOpen t
  applyPacket_isOpen : ∀ packet t u, applyPacket packet t = .ok u → isOpen u = isOpen t
  parser_setParser : ∀ p t, parser (setParser p t) = p
  parser_call : ∀ k t, parser (call k t) = parser t
  parser_connect : ∀ t, parser (connect t) = parser t
  parser_serve : ∀ i t, parser (serve i t) = parser t
  parser_applyPacket : ∀ packet t u, applyPacket packet t = .ok u → parser u = parser t
  parser_close : ∀ t, parser (close t) = parser t
  applyPacket_ok : ∀ packet t, ∃ u, applyPacket packet t = .ok u

/-- An action of a thread, or a call of the game. -/
inductive SliderAction (κ ι : Type)
  | call (k : κ)
  | connect
  | serve (i : ι)
  | byte (b : UInt8)
  | close

namespace SliderAction

variable {κ ι : Type} {n : ℕ}

/-- The actions of a read. -/
def ofRead : PortRead n → List (SliderAction κ ι)
  | none => [.close]
  | some bytes => bytes.1.map .byte

/-- The actions of a pass, in which the port may open and the read has this result. -/
def ofPass (opens : Bool) (i : ι) (read : PortRead n) : List (SliderAction κ ι) :=
  (if opens then [.connect] else []) ++ .serve i :: ofRead read

end SliderAction

/-- The bytes that a thread has read: those of the earlier connections, and those of the current
one. -/
structure SliderStream where
  earlier : List UInt8
  current : List UInt8

namespace SliderStream

/-- No byte was read. -/
def empty : SliderStream := ⟨[], []⟩

variable (s : SliderStream)

/-- All bytes, the oldest first. -/
def all : List UInt8 := s.earlier ++ s.current

/-- A new connection has brought no bytes. -/
def reconnect : SliderStream := ⟨s.all, []⟩

/-- The current connection has brought a byte. -/
def feed (b : UInt8) : SliderStream := { s with current := s.current ++ [b] }

/-- A new connection keeps the bytes so far. -/
@[simp] lemma all_reconnect : s.reconnect.all = s.all := List.append_nil s.all

/-- A byte comes behind all others. -/
@[simp] lemma all_feed (b : UInt8) : (s.feed b).all = s.all ++ [b] :=
  (List.append_assoc s.earlier s.current [b]).symm

end SliderStream

/-- The bytes of the frame that a stream is in: its last `FF`, and what follows. -/
def frameSpan (s : List UInt8) : List UInt8 := 0xFF :: sliderCode.sinceSync s

/-- The frame that a stream is in comes from its end exactly if the last `FF` does. -/
lemma frameSpan_suffix_iff (earlier current : List UInt8) :
    frameSpan (earlier ++ current) <:+ current ↔ 0xFF ∈ current := by
  constructor
  · intro hsuffix
    exact hsuffix.subset (by simp [frameSpan])
  · intro hsync
    obtain ⟨pre, hpre⟩ :=
      sliderCode.eq_append_sinceSync (show sliderCode.sync ∈ current from hsync)
    have hsince : sliderCode.sinceSync (earlier ++ current) = sliderCode.sinceSync current := by
      conv_lhs => rw [hpre, ← List.append_assoc]
      exact sliderCode.sinceSync_append _ (sliderCode.sync_notMem_sinceSync _)
    rw [frameSpan, hsince]
    exact ⟨pre, hpre.symm⟩

namespace SliderLoop

variable {κ ι τ : Type} (l : SliderLoop κ ι τ)

/-- A byte is pushed, and the packet that it completes is handled. -/
def receive (b : UInt8) (t : τ) : Exec τ := do
  let (packet, parser) ← (l.parser t).push b
  let t := l.setParser parser t
  match packet with
  | some packet => l.applyPacket packet t
  | none => return t

/-- An action. The port opens when it is closed; the others need it open, and calls are possible at
any time. -/
def act (a : SliderAction κ ι) (t : τ) : Exec τ :=
  match a with
  | .call k => .ok (l.call k t)
  | .connect => .ok (if l.isOpen t then t else l.connect t)
  | .serve i => .ok (if l.isOpen t then l.serve i t else t)
  | .byte b => if l.isOpen t then l.receive b t else .ok t
  | .close => .ok (if l.isOpen t then l.close t else t)

/-- A byte goes through the decoder, and then the packet that it completes is handled. -/
lemma receive_eq_ok {b : UInt8} {t u : τ} :
    l.receive b t = .ok u ↔ ∃ o parser, (l.parser t).push b = .ok (o, parser) ∧
      (o = none ∧ l.setParser parser t = u ∨
        ∃ packet, o = some packet ∧ l.applyPacket packet (l.setParser parser t) = .ok u) := by
  rw [receive, Slice.bind_eq_ok]
  constructor
  · rintro ⟨⟨o, parser⟩, hpush, hu⟩
    refine ⟨o, parser, hpush, ?_⟩
    cases o with
    | none => exact .inl ⟨rfl, Except.ok.inj hu⟩
    | some packet => exact .inr ⟨packet, rfl, hu⟩
  · rintro ⟨o, parser, hpush, ⟨rfl, rfl⟩ | ⟨packet, rfl, hu⟩⟩
    · exact ⟨(none, parser), hpush, rfl⟩
    · exact ⟨(some packet, parser), hpush, hu⟩

/-- A byte leaves the port alone, and the decoder is given it. -/
lemma receive_frame {b : UInt8} {t u : τ} (h : l.receive b t = .ok u) :
    l.isOpen u = l.isOpen t ∧ ∃ o, (l.parser t).push b = .ok (o, l.parser u) := by
  obtain ⟨o, parser, hpush, ⟨-, rfl⟩ | ⟨packet, -, hu⟩⟩ := l.receive_eq_ok.mp h
  · rw [l.parser_setParser]
    exact ⟨l.setParser_isOpen parser t, o, hpush⟩
  · rw [l.parser_applyPacket packet _ u hu, l.parser_setParser]
    exact ⟨(l.applyPacket_isOpen packet _ u hu).trans (l.setParser_isOpen parser t), o, hpush⟩

/-- A byte never leaves the buffer of the decoder. -/
lemma exists_receive {t : τ} (hlen : (l.parser t).len ≤ 128) (b : UInt8) :
    ∃ u, l.receive b t = .ok u := by
  obtain ⟨o, parser, hpush, -⟩ := SliderParser.push_spec hlen b
  cases o with
  | none => exact ⟨_, l.receive_eq_ok.mpr ⟨none, parser, hpush, .inl ⟨rfl, rfl⟩⟩⟩
  | some packet =>
    obtain ⟨u, hu⟩ := l.applyPacket_ok packet (l.setParser parser t)
    exact ⟨u, l.receive_eq_ok.mpr ⟨some packet, parser, hpush, .inr ⟨packet, rfl, hu⟩⟩⟩

/-- The loop of a thread over the bytes of a read, if it pushes them one by one. -/
lemma exec_receive {loop : τ → List UInt8 → Exec τ} (hnil : ∀ t, loop t [] = .ok t)
    (hcons : ∀ t b bytes, loop t (b :: bytes) = l.receive b t >>= fun u => loop u bytes) (t : τ)
    (bytes : List UInt8) : loop t bytes = Run.exec l.receive t bytes := by
  induction bytes generalizing t with
  | nil => exact hnil t
  | cons b bytes ih =>
    rw [hcons, Run.exec]
    cases l.receive b t with
    | ok u => exact ih u
    | error e => rfl

/-- The thread with its port open: as it is, or just opened. -/
def opened (t : τ) : τ := if l.isOpen t then t else l.connect t

/-- A port that was just opened is open. -/
lemma opened_isOpen (t : τ) : l.isOpen (l.opened t) = true := by
  unfold opened
  split
  · assumption
  · exact l.connect_isOpen t

/-- The bytes of a read are pushed one by one, if the port is open. -/
lemma exec_bytes (t : τ) (bytes : List UInt8) :
    Run.exec l.act t (bytes.map .byte) =
      if l.isOpen t then Run.exec l.receive t bytes else .ok t := by
  induction bytes generalizing t with
  | nil => simp
  | cons b bytes ih =>
    rw [List.map_cons, Run.exec, Run.exec, act]
    by_cases hopen : l.isOpen t
    · rw [if_pos hopen, if_pos hopen]
      cases hreceive : l.receive b t with
      | error e => rfl
      | ok u =>
        have hu : l.isOpen u = true := (l.receive_frame hreceive).1.trans hopen
        simp only [ih, if_pos hu]
    · rw [if_neg hopen, if_neg hopen]
      simp only [ih, if_neg hopen]

/-- The end of a pass: the bytes of the read are pushed, or the port closes. -/
def finish {n : ℕ} (read : PortRead n) (t : τ) : Exec τ :=
  match read with
  | none => .ok (l.close t)
  | some bytes => Run.exec l.receive t bytes.1

/-- **The actions of a pass** do what the pass does: with an open port the commands are written, and
the bytes of the read are pushed, or the port closes.

**Proof sketch.** The cases are whether the port is open behind the attempt to connect, and the
result of the read. -/
theorem exec_ofPass {n : ℕ} (t : τ) (opens : Bool) (i : ι) (read : PortRead n) :
    Run.exec l.act t (SliderAction.ofPass opens i read) =
      if l.isOpen t ∨ opens then l.finish read (l.serve i (l.opened t)) else .ok t := by
  have hconnect : Run.exec l.act t (if opens then [.connect] else []) =
      .ok (if opens then l.opened t else t) := by
    cases opens <;> rfl
  rw [SliderAction.ofPass, Run.exec_append, hconnect, Slice.ok_bind, Run.exec, act]
  by_cases hopens : l.isOpen t ∨ opens
  · have hstart : (if opens then l.opened t else t) = l.opened t := by
      split
      · rfl
      · rename_i hclosed
        exact (if_pos (hopens.resolve_right hclosed)).symm
    have hserve : l.isOpen (l.serve i (l.opened t)) = true :=
      (l.serve_isOpen i _).trans (l.opened_isOpen t)
    rw [hstart, if_pos (l.opened_isOpen t), if_pos hopens]
    cases read with
    | none =>
      show Run.exec l.act _ [.close] = _
      rw [Run.exec, act, if_pos hserve]
      rfl
    | some bytes =>
      show Run.exec l.act _ (bytes.1.map .byte) = _
      rw [exec_bytes, if_pos hserve]
      rfl
  · obtain ⟨hclosed, hno⟩ := not_or.mp hopens
    rw [if_neg hno, if_neg hclosed, if_neg hopens]
    cases read with
    | none =>
      show Run.exec l.act t [.close] = _
      rw [Run.exec, act, if_neg hclosed]
      rfl
    | some bytes =>
      show Run.exec l.act t (bytes.1.map .byte) = _
      rw [exec_bytes, if_neg hclosed]

/-- The bytes that are read are noted, and where a new connection starts. -/
def note (a : SliderAction κ ι) (t _ : τ) (s : SliderStream) : SliderStream :=
  match a with
  | .connect => if l.isOpen t then s else s.reconnect
  | .byte b => if l.isOpen t then s.feed b else s
  | _ => s

/-- An action, with the bytes that were read. -/
def step : SliderAction κ ι → τ × SliderStream → Exec (τ × SliderStream) :=
  Run.observed l.act l.note

/-- **No packet mixes two connections**: if a byte is answered with a packet that the thread
handles, then the bytes of its frame are bytes of the current connection. -/
def OneConnection (r : τ × SliderStream) (a : SliderAction κ ι) : Prop :=
  ∀ b packet p, a = .byte b → l.isOpen r.1 → (l.parser r.1).push b = .ok (some packet, p) →
    l.handles packet → frameSpan (r.2.all ++ [b]) <:+ r.2.current ++ [b]

/-- A frame that an earlier connection broke off is not handled: if a byte comes before the first
`FF` of its connection, then with it the frame does not have the announced length, or the thread
does nothing with its packet. -/
def BrokenStay (r : τ × SliderStream) (a : SliderAction κ ι) : Prop :=
  ∀ b, a = .byte b → l.isOpen r.1 → 0xFF ∉ r.2.current ++ [b] → FrameComplete (r.2.all ++ [b]) →
    ¬ l.handles (sliderPacketOf (frameBytes (r.2.all ++ [b])))

/-- The decoder has been given all bytes. -/
def Fed (r : τ × SliderStream) : Prop :=
  ∃ os, SliderParser.pushAll .default r.2.all = .ok (os, l.parser r.1)

variable {l} {r r' : τ × SliderStream} {a : SliderAction κ ι}

/-- The decoder is given every byte that is read, and nothing else changes it.

**Proof sketch.** The cases are the actions. Only a byte is given to the decoder, and it is the next
one of the stream. -/
lemma Fed.step (h : l.Fed r) (hr : l.step a r = .ok r') : l.Fed r' := by
  obtain ⟨os, hos⟩ := h
  obtain ⟨u, hu, rfl⟩ := Run.observed_eq_ok.mp hr
  cases a with
  | call k =>
    obtain rfl := Except.ok.inj hu
    exact ⟨os, by rw [l.parser_call]; exact hos⟩
  | connect =>
    obtain rfl := Except.ok.inj hu
    simp only [note, Fed]
    split
    · exact ⟨os, hos⟩
    · rw [l.parser_connect, SliderStream.all_reconnect]
      exact ⟨os, hos⟩
  | serve i =>
    obtain rfl := Except.ok.inj hu
    simp only [note, Fed]
    split
    · rw [l.parser_serve]
      exact ⟨os, hos⟩
    · exact ⟨os, hos⟩
  | byte b =>
    simp only [act, note, Fed] at hu ⊢
    split at hu
    · rename_i hopen
      obtain ⟨-, o, ho⟩ := l.receive_frame hu
      rw [if_pos hopen, SliderStream.all_feed, pushAll_append hos]
      simp only [SliderParser.pushAll, ho, Slice.ok_bind]
      exact ⟨os ++ [o], rfl⟩
    · rename_i hclosed
      obtain rfl := Except.ok.inj hu
      rw [if_neg hclosed]
      exact ⟨os, hos⟩
  | close =>
    obtain rfl := Except.ok.inj hu
    simp only [note, Fed]
    split
    · rw [l.parser_close]
      exact ⟨os, hos⟩
    · exact ⟨os, hos⟩

/-- A packet mixes two connections exactly if it is the packet of a frame that was broken off.

**Proof sketch.** The decoder answers a byte with a packet if the byte completes a frame
(`push_delivers_iff`). The bytes of this frame start at the last `FF` that was read, so they come
from the current connection exactly if that has brought an `FF` (`frameSpan_suffix_iff`). -/
theorem oneConnection_iff_brokenStay (h : l.Fed r) :
    l.OneConnection r a ↔ l.BrokenStay r a := by
  obtain ⟨os, hos⟩ := h
  have hspan (b : UInt8) :
      frameSpan (r.2.all ++ [b]) <:+ r.2.current ++ [b] ↔ 0xFF ∈ r.2.current ++ [b] := by
    rw [SliderStream.all, List.append_assoc]
    exact frameSpan_suffix_iff r.2.earlier (r.2.current ++ [b])
  constructor
  · rintro hone b rfl hopen hnone hcomplete hhandles
    obtain ⟨p, hp⟩ := (push_delivers_iff hos b _).mpr ⟨hcomplete, rfl⟩
    exact hnone ((hspan b).mp (hone b _ p rfl hopen hp hhandles))
  · rintro hstay b packet p rfl hopen hp hhandles
    obtain ⟨hcomplete, rfl⟩ := (push_delivers_iff hos b packet).mp ⟨p, hp⟩
    by_contra hother
    exact hstay b rfl hopen (fun hsync => hother ((hspan b).mpr hsync)) hcomplete hhandles

/-- **When no packet mixes two connections**: along a run, exactly if no frame that a connection
broke off is completed before the first `FF` of a later connection and then handled.

**Proof sketch.** The decoder has been given all bytes in every state of the run (`Fed.step`), so
the two conditions agree at every step (`oneConnection_iff_brokenStay`). -/
theorem oneConnection_iff {t : τ} (ht : l.parser t = .default) (actions : List (SliderAction κ ι)) :
    Run.EachStep l.step (t, .empty) actions l.OneConnection ↔
      Run.EachStep l.step (t, .empty) actions l.BrokenStay :=
  Run.eachStep_congr (I := l.Fed) ⟨[], by rw [ht]; rfl⟩ (fun _ _ _ hfed hr => hfed.step hr)
    fun _ _ _ hfed _ => oneConnection_iff_brokenStay hfed

/-- A run never leaves a buffer. -/
lemma exists_exec {t : τ} (ht : l.parser t = .default) (actions : List (SliderAction κ ι)) :
    ∃ r, Run.exec l.step (t, .empty) actions = .ok r ∧ l.Fed r := by
  refine Run.exists_exec (P := l.Fed) ⟨[], by rw [ht]; rfl⟩ (fun a r hfed => ?_) actions
  have hact : ∃ u, l.act a r.1 = .ok u := by
    cases a with
    | byte b =>
      simp only [act]
      split
      · obtain ⟨os, hos⟩ := hfed
        exact l.exists_receive (SliderParser.Reachable.len_le ⟨_, _, hos⟩) b
      · exact ⟨_, rfl⟩
    | call k | connect | serve i | close => exact ⟨_, rfl⟩
  obtain ⟨u, hu⟩ := hact
  have hstep : l.step a r = .ok (u, l.note a r.1 u r.2) := Run.observed_eq_ok.mpr ⟨u, hu, rfl⟩
  exact ⟨_, hstep, hfed.step hstep⟩

end SliderLoop

end Affine
