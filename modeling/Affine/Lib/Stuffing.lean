import Affine.Lib.Mealy
import Mathlib.Data.List.Induction
import Mathlib.Data.List.TakeWhile

set_option relaxedAutoImplicit false
set_option autoImplicit false

/-!
# Byte stuffing and the recovery of frames

A frame on a byte link starts with a synchronisation symbol. So that this symbol cannot occur
inside a frame, it is stuffed: an escape symbol announces that the next symbol stands for
another one. The receiver starts over at every synchronisation symbol, undoes the stuffing and
collects the symbols until the collected ones make up a frame.

The module is generic in the alphabet, in the two special symbols, and in the rule that tells
a finished frame: a receiver supplies `Deframer.accept`.

## Main definitions

* `Stuffing.Code` — the special symbols and the shift applied to a stuffed symbol.
* `Stuffing.Code.stuff`, `Stuffing.Code.unstuff`, `Stuffing.Code.pending` — stuffing a word,
  undoing it, and whether the undoing is left after an escape symbol.
* `Stuffing.Deframer` — a receiver; `Stuffing.Deframer.step` is its treatment of one symbol.

## Main results

* `Stuffing.Code.unstuff_stuff`, `Stuffing.Code.sync_notMem_stuff` — stuffing is undone, and
  leaves no synchronisation symbol.
* `Stuffing.Deframer.run_frame`, `Stuffing.Deframer.run_frame_take` — from every state, a
  complete stuffed frame is delivered at its last symbol, and a cut one is not delivered.
* `Stuffing.Deframer.step_emit_iff` — what is delivered, and when, as a property of the
  symbols since the last synchronisation symbol.
-/

namespace Stuffing

variable {α ρ : Type} [DecidableEq α]

/-- The special symbols of a stuffed link. A symbol equal to one of them is sent as the escape
symbol followed by its image under `down`, which is neither of them. -/
structure Code (α : Type) [DecidableEq α] where
  /-- The first symbol of every frame. -/
  sync : α
  /-- The symbol that announces a stuffed one. -/
  esc : α
  /-- What is sent after the escape symbol. -/
  down : α → α
  /-- How the receiver reads a symbol after the escape symbol. -/
  up : α → α
  up_down : ∀ b, up (down b) = b
  sync_ne_esc : sync ≠ esc
  down_ne_sync : ∀ b, b = sync ∨ b = esc → down b ≠ sync
  down_ne_esc : ∀ b, b = sync ∨ b = esc → down b ≠ esc

/-- A byte that is sent less one. -/
lemma byte_up_down (b : UInt8) : b - 1 + 1 = b := UInt8.sub_add_cancel b 1

namespace Code

variable (c : Code α)

/-- One symbol as it is sent. -/
def stuffOne (b : α) : List α :=
  if b = c.sync ∨ b = c.esc then [c.esc, c.down b] else [b]

/-- A word as it is sent. -/
def stuff (xs : List α) : List α := xs.flatMap c.stuffOne

/-- The word a receiver reads, given whether the symbol before was the escape symbol. -/
def unstuff : Bool → List α → List α
  | _, [] => []
  | pend, b :: bs =>
    if b = c.esc then unstuff true bs
    else (if pend then c.up b else b) :: unstuff false bs

/-- Whether the receiver is left after an escape symbol. -/
def pending : Bool → List α → Bool
  | pend, [] => pend
  | _, b :: bs => pending (decide (b = c.esc)) bs

/-- Bytes behind others are stuffed behind them. -/
@[simp] lemma stuff_append (xs ys : List α) : c.stuff (xs ++ ys) = c.stuff xs ++ c.stuff ys :=
  List.flatMap_append

/-- The stuffing of one byte. -/
lemma stuff_singleton (b : α) : c.stuff [b] = c.stuffOne b := by simp [stuff]

/-- Bytes behind others are unstuffed with the escape that those leave pending. -/
lemma unstuff_append (pend : Bool) (xs ys : List α) :
    c.unstuff pend (xs ++ ys) = c.unstuff pend xs ++ c.unstuff (c.pending pend xs) ys := by
  induction xs generalizing pend with
  | nil => rfl
  | cons b xs ih =>
    by_cases hb : b = c.esc <;> simp [unstuff, pending, hb, ih]

/-- What is pending behind all bytes. -/
lemma pending_append (pend : Bool) (xs ys : List α) :
    c.pending pend (xs ++ ys) = c.pending (c.pending pend xs) ys := by
  induction xs generalizing pend with
  | nil => rfl
  | cons b xs ih => simp [pending, ih]

/-- A stuffed byte is unstuffed to itself. -/
@[simp] lemma unstuff_stuffOne (b : α) : c.unstuff false (c.stuffOne b) = [b] := by
  by_cases hb : b = c.sync ∨ b = c.esc
  · simp [stuffOne, hb, unstuff, c.down_ne_esc b hb, c.up_down]
  · rw [stuffOne, if_neg hb]
    simp [unstuff, (not_or.mp hb).2]

/-- No escape is pending behind a stuffed byte. -/
@[simp] lemma pending_stuffOne (b : α) : c.pending false (c.stuffOne b) = false := by
  by_cases hb : b = c.sync ∨ b = c.esc
  · simp [stuffOne, hb, pending, c.down_ne_esc b hb]
  · rw [stuffOne, if_neg hb]
    simp [pending, (not_or.mp hb).2]

/-- No escape is pending behind stuffed bytes. -/
@[simp] lemma pending_stuff (xs : List α) : c.pending false (c.stuff xs) = false := by
  induction xs with
  | nil => rfl
  | cons b xs ih =>
    rw [show b :: xs = [b] ++ xs from rfl, stuff_append, stuff_singleton, pending_append,
      pending_stuffOne, ih]

/-- The receiver reads back the word that was stuffed. -/
@[simp] lemma unstuff_stuff (xs : List α) : c.unstuff false (c.stuff xs) = xs := by
  induction xs with
  | nil => rfl
  | cons b xs ih =>
    rw [show b :: xs = [b] ++ xs from rfl, stuff_append, stuff_singleton, unstuff_append,
      unstuff_stuffOne, pending_stuffOne, ih]

/-- The stuffing of a byte has no sync byte in it. -/
lemma sync_notMem_stuffOne (b : α) : c.sync ∉ c.stuffOne b := by
  by_cases hb : b = c.sync ∨ b = c.esc
  · simp [stuffOne, hb, c.sync_ne_esc, (c.down_ne_sync b hb).symm]
  · rw [stuffOne, if_neg hb]
    simpa using fun h : c.sync = b => hb (.inl h.symm)

/-- The synchronisation symbol does not occur in a stuffed word. -/
lemma sync_notMem_stuff (xs : List α) : c.sync ∉ c.stuff xs := by
  simp only [stuff, List.mem_flatMap, not_exists, not_and]
  exact fun b _ => c.sync_notMem_stuffOne b

/-- A byte that is neither of the two marks is stuffed as it is. -/
lemma stuffOne_of_ne {b : α} (hs : b ≠ c.sync) (he : b ≠ c.esc) : c.stuffOne b = [b] := by
  simp [stuffOne, hs, he]

/-- A word without special symbols is sent as it is. -/
lemma stuff_eq_self {xs : List α} (hs : c.sync ∉ xs) (he : c.esc ∉ xs) : c.stuff xs = xs := by
  induction xs with
  | nil => rfl
  | cons b xs ih =>
    simp only [List.mem_cons, not_or] at hs he
    rw [show b :: xs = [b] ++ xs from rfl, stuff_append, stuff_singleton,
      c.stuffOne_of_ne (Ne.symm hs.1) (Ne.symm he.1), ih hs.2 he.2]

/-- Every escape symbol of the link is lost to the receiver, so it reads at most as many
symbols as were sent. -/
lemma length_unstuff_add_count (pend : Bool) (xs : List α) :
    (c.unstuff pend xs).length + xs.count c.esc = xs.length := by
  induction xs generalizing pend with
  | nil => rfl
  | cons b xs ih =>
    by_cases hb : b = c.esc
    · simp [unstuff, hb, ← ih true]; omega
    · simp [unstuff, hb, ← ih false]; omega

/-- The symbols behind the last synchronisation symbol of a word. -/
def sinceSync (xs : List α) : List α := (xs.reverse.takeWhile (· ≠ c.sync)).reverse

/-- There is no sync byte behind the last one. -/
lemma sync_notMem_sinceSync (xs : List α) : c.sync ∉ c.sinceSync xs := by
  intro h
  have := List.mem_takeWhile_imp (List.mem_reverse.mp h)
  simp at this

/-- What is behind the last sync byte, where it is known. -/
lemma sinceSync_append (pre : List α) {body : List α} (h : c.sync ∉ body) :
    c.sinceSync (pre ++ c.sync :: body) = body := by
  have hbody : ∀ b ∈ body.reverse, decide (b ≠ c.sync) = true := by
    intro b hb
    simpa using fun he : b = c.sync => h (he ▸ List.mem_reverse.mp hb)
  rw [sinceSync, List.reverse_append, List.reverse_cons, List.append_assoc,
    List.takeWhile_append_of_pos hbody]
  simp

/-- A word with a synchronisation symbol splits at the last one. -/
lemma eq_append_sinceSync {xs : List α} (h : c.sync ∈ xs) :
    ∃ pre, xs = pre ++ c.sync :: c.sinceSync xs := by
  induction xs using List.reverseRecOn with
  | nil => simp at h
  | append_singleton xs b ih =>
    by_cases hb : b = c.sync
    · subst hb
      exact ⟨xs, by rw [show xs ++ [c.sync] = xs ++ c.sync :: [] from rfl,
        c.sinceSync_append xs (by simp)]⟩
    · have hmem : c.sync ∈ xs := by simpa [Ne.symm hb] using h
      obtain ⟨pre, hpre⟩ := ih hmem
      refine ⟨pre, ?_⟩
      have hsplit : xs ++ [b] = pre ++ c.sync :: (c.sinceSync xs ++ [b]) := by
        conv_lhs => rw [hpre]
        simp
      rw [hsplit, c.sinceSync_append pre (by simp [c.sync_notMem_sinceSync xs, Ne.symm hb])]

/-- The contents, as far as received, of the frame that a word is in. -/
def received (xs : List α) : List α := c.unstuff false (c.sinceSync xs)

/-- A sync byte discards what was received. -/
lemma received_sync (xs : List α) : c.received (xs ++ [c.sync]) = [] := by
  rw [received, show xs ++ [c.sync] = xs ++ c.sync :: [] from rfl, c.sinceSync_append xs (by simp)]
  rfl

/-- A symbol that is not special adds itself, or what it stands for, to the contents. -/
lemma received_concat {xs : List α} (h : c.sync ∈ xs) {b : α} (hs : b ≠ c.sync)
    (he : b ≠ c.esc) :
    c.received (xs ++ [b]) =
      c.received xs ++ [if c.pending false (c.sinceSync xs) then c.up b else b] := by
  obtain ⟨pre, hpre⟩ := c.eq_append_sinceSync h
  have hbody : c.sync ∉ c.sinceSync xs ++ [b] := by
    simpa [c.sync_notMem_sinceSync xs] using Ne.symm hs
  have hsplit : xs ++ [b] = pre ++ c.sync :: (c.sinceSync xs ++ [b]) := by
    conv_lhs => rw [hpre]
    simp
  rw [received, hsplit, c.sinceSync_append pre hbody, unstuff_append]
  simp only [unstuff, if_neg he]
  rfl

/-- Behind a whole frame the contents are those that were stuffed. -/
lemma received_stuff (xs : List α) : c.received (c.sync :: c.stuff xs) = xs := by
  have hsince := c.sinceSync_append [] (c.sync_notMem_stuff xs)
  rw [List.nil_append] at hsince
  rw [received, hsince, c.unstuff_stuff]

end Code

/-! ## Receivers -/

/-- What a receiver does with a symbol it has read: collect it, deliver a frame, or give up
until the next synchronisation symbol. -/
inductive Verdict (ρ : Type)
  | more
  | emit (r : ρ)
  | drop

/-- A receiver of stuffed frames. -/
structure Deframer (α ρ : Type) [DecidableEq α] extends Code α where
  /-- What is collected at a synchronisation symbol. -/
  start : List α
  /-- What to do with the next symbol, given the collected ones. -/
  accept : List α → α → Verdict ρ

namespace Deframer

/-- The state of a receiver: waiting for a synchronisation symbol, or the collected symbols
and whether the symbol before was the escape symbol. -/
abbrev State (α : Type) := Option (List α × Bool)

variable (d : Deframer α ρ)

/-- The treatment of a symbol after undoing the stuffing. -/
def store (acc : List α) (v : α) : State α × Option ρ :=
  match d.accept acc v with
  | .more => (some (acc ++ [v], false), none)
  | .emit r => (none, some r)
  | .drop => (none, none)

/-- The treatment of one symbol, and the frame it completes. -/
def step (s : State α) (b : α) : State α × Option ρ :=
  if b = d.sync then (some (d.start, false), none)
  else
    match s with
    | none => (none, none)
    | some (acc, pend) =>
      if b = d.esc then (some (acc, true), none)
      else d.store acc (if pend then d.up b else b)

/-- The receiver collects all of these symbols. -/
def Absorbs : List α → List α → Prop
  | _, [] => True
  | acc, v :: vs => d.accept acc v = .more ∧ Absorbs (acc ++ [v]) vs

/-- What the receiver collects is decided symbol by symbol. -/
lemma absorbs_iff (acc xs : List α) :
    d.Absorbs acc xs ↔ ∀ pre v post, xs = pre ++ v :: post → d.accept (acc ++ pre) v = .more := by
  induction xs generalizing acc with
  | nil => simp [Absorbs]
  | cons x xs ih =>
    rw [Absorbs, ih]
    constructor
    · rintro ⟨hx, hxs⟩ pre v post he
      cases pre with
      | nil =>
        obtain ⟨rfl, -⟩ : x = v ∧ xs = post := by simpa using he
        simpa using hx
      | cons y pre =>
        obtain ⟨rfl, rfl⟩ : x = y ∧ xs = pre ++ v :: post := by simpa using he
        simpa using hxs pre v post rfl
    · intro h
      refine ⟨by simpa using h [] x xs rfl, fun pre v post he => ?_⟩
      subst he
      simpa using h (x :: pre) v post rfl

/-- A sync byte starts a frame, in every state. -/
lemma step_sync (s : State α) : d.step s d.sync = (some (d.start, false), none) := by
  simp [step]

/-- Bytes in front of the first sync byte are ignored. -/
lemma step_none {b : α} (hb : b ≠ d.sync) : d.step none b = (none, none) := by
  simp [step, hb]

/-- An escape byte is remembered. -/
lemma step_esc (acc : List α) (pend : Bool) :
    d.step (some (acc, pend)) d.esc = (some (acc, true), none) := by
  simp [step, d.sync_ne_esc.symm]

/-- Another byte is stored, shifted behind an escape byte. -/
lemma step_value (acc : List α) (pend : Bool) {b : α} (hs : b ≠ d.sync) (he : b ≠ d.esc) :
    d.step (some (acc, pend)) b = d.store acc (if pend then d.up b else b) := by
  simp [step, hs, he]

/-- A value that does not complete the frame is kept. -/
lemma store_more {acc : List α} {v : α} (h : d.accept acc v = .more) :
    d.store acc v = (some (acc ++ [v], false), none) := by
  simp [store, h]

/-- A value that completes the frame makes the receiver wait for the next one. -/
lemma store_emit {acc : List α} {v : α} {r : ρ} (h : d.accept acc v = .emit r) :
    d.store acc v = (none, some r) := by
  simp [store, h]

/-- A value that is rejected makes the receiver wait for the next frame. -/
lemma store_drop {acc : List α} {v : α} (h : d.accept acc v = .drop) :
    d.store acc v = (none, none) := by
  simp [store, h]

/-- Between frames, everything up to the next synchronisation symbol is ignored. -/
lemma run_none {bs : List α} (h : d.sync ∉ bs) :
    Mealy.run d.step none bs = (none, List.replicate bs.length none) := by
  induction bs with
  | nil => rfl
  | cons b bs ih =>
    simp only [List.mem_cons, not_or] at h
    rw [Mealy.run_cons, d.step_none (Ne.symm h.1), ih h.2]
    rfl

/-- While the symbols are collected, nothing is delivered. -/
lemma run_absorbs {bs : List α} (h : d.sync ∉ bs) (acc : List α) (pend : Bool)
    (ha : d.Absorbs acc (d.unstuff pend bs)) :
    Mealy.run d.step (some (acc, pend)) bs =
      (some (acc ++ d.unstuff pend bs, d.pending pend bs), List.replicate bs.length none) := by
  induction bs generalizing acc pend with
  | nil => simp [Code.unstuff, Code.pending]
  | cons b bs ih =>
    simp only [List.mem_cons, not_or] at h
    by_cases hb : b = d.esc
    · subst hb
      simp only [Code.unstuff, if_true] at ha
      rw [Mealy.run_cons, d.step_esc, ih h.2 acc true ha]
      simp [Code.unstuff, Code.pending, List.replicate_succ]
    · simp only [Code.unstuff, if_neg hb] at ha
      obtain ⟨hv, hvs⟩ := ha
      rw [Mealy.run_cons, d.step_value acc pend (Ne.symm h.1) hb, d.store_more hv,
        ih h.2 _ false hvs]
      simp [Code.unstuff, Code.pending, hb, List.replicate_succ]

/-- A receiver that does not collect everything has stopped collecting.

**Proof sketch.** Induction on the bytes, up to the first value that completes the frame or is
rejected. -/
lemma run_not_absorbs {bs : List α} (h : d.sync ∉ bs) (acc : List α) (pend : Bool)
    (ha : ¬ d.Absorbs acc (d.unstuff pend bs)) :
    (Mealy.run d.step (some (acc, pend)) bs).1 = none := by
  induction bs generalizing acc pend with
  | nil => exact absurd trivial ha
  | cons b bs ih =>
    simp only [List.mem_cons, not_or] at h
    by_cases hb : b = d.esc
    · subst hb
      simp only [Code.unstuff, if_true] at ha
      rw [Mealy.run_cons, d.step_esc]
      exact ih h.2 acc true ha
    · simp only [Code.unstuff, if_neg hb, Absorbs] at ha
      rw [Mealy.run_cons, d.step_value acc pend (Ne.symm h.1) hb]
      cases hv : d.accept acc (if pend then d.up b else b) with
      | more =>
        rw [d.store_more hv]
        exact ih h.2 _ false (fun hvs => ha ⟨hv, hvs⟩)
      | emit r => rw [d.store_emit hv, d.run_none h.2]
      | drop => rw [d.store_drop hv, d.run_none h.2]

/-- The frame with contents `xs`, as it is sent. -/
def frame (xs : List α) : List α := d.sync :: d.stuff xs

/-- **A complete frame is delivered at its last symbol**, whatever the receiver was doing.

**Proof sketch.** The synchronisation symbol resets the receiver, which collects the stuffed
contents up to the last symbol (`run_absorbs`). The last symbol is sent as itself or behind an
escape symbol; either way the receiver reads it last and delivers. -/
lemma run_frame (s : State α) {xs : List α} {v : α} {r : ρ} (ha : d.Absorbs d.start xs)
    (hr : d.accept (d.start ++ xs) v = .emit r) :
    Mealy.run d.step s (d.frame (xs ++ [v])) =
      (none, List.replicate ((d.frame (xs ++ [v])).length - 1) none ++ [some r]) := by
  have hbody : Mealy.run d.step (some (d.start, false)) (d.stuff xs) =
      (some (d.start ++ xs, false), List.replicate (d.stuff xs).length none) := by
    have := d.run_absorbs (d.sync_notMem_stuff xs) d.start false (by simpa using ha)
    simpa using this
  have hlast : Mealy.run d.step (some (d.start ++ xs, false)) (d.stuffOne v) =
      (none, List.replicate ((d.stuffOne v).length - 1) none ++ [some r]) := by
    by_cases hv : v = d.sync ∨ v = d.esc
    · have hs : d.step (some (d.start ++ xs, true)) (d.down v) = (none, some r) := by
        rw [d.step_value _ _ (d.down_ne_sync v hv) (d.down_ne_esc v hv), if_pos rfl, d.up_down,
          d.store_emit hr]
      simp [Code.stuffOne, hv, d.step_esc, hs]
    · obtain ⟨hv1, hv2⟩ := not_or.mp hv
      have hs : d.step (some (d.start ++ xs, false)) v = (none, some r) := by
        rw [d.step_value _ _ hv1 hv2, if_neg (by decide), d.store_emit hr]
      rw [Code.stuffOne, if_neg hv]
      simp [hs]
  have hpos : 0 < (d.stuffOne v).length := by
    by_cases hv : v = d.sync ∨ v = d.esc <;> simp [Code.stuffOne, hv]
  rw [frame, Mealy.run_cons, d.step_sync, Code.stuff_append, Code.stuff_singleton,
    Mealy.run_append, hbody, hlast]
  simp only [List.length_cons, List.length_append, Prod.mk.injEq, true_and]
  rw [← List.append_assoc, List.replicate_append_replicate, ← List.cons_append,
    ← List.replicate_succ]
  congr 2
  omega

/-- **A frame that is cut delivers nothing.** -/
lemma run_frame_take (s : State α) {xs : List α} {v : α} {r : ρ} (ha : d.Absorbs d.start xs)
    (hr : d.accept (d.start ++ xs) v = .emit r) {k : ℕ} (hk : k < (d.frame (xs ++ [v])).length) :
    (Mealy.run d.step s ((d.frame (xs ++ [v])).take k)).2 = List.replicate k none := by
  rw [Mealy.run_take, d.run_frame s ha hr, List.take_append_of_le_length (by simp; omega),
    List.take_replicate, Nat.min_eq_left (by omega)]

/-- The state of a receiver after a word depends only on the part after its last
synchronisation symbol. -/
lemma run_fst_of_sync (s : State α) (pre body : List α) :
    (Mealy.run d.step s (pre ++ d.sync :: body)).1 =
      (Mealy.run d.step (some (d.start, false)) body).1 := by
  rw [Mealy.run_append, Mealy.run_cons, d.step_sync]

/-- After a synchronisation symbol and a body, a frame is delivered at a symbol that is neither of
the special ones, if the receiver has collected all symbols of the body and accepts this one as
the last of a frame. -/
lemma step_emit_iff (s : State α) (pre : List α) {body : List α} (hbody : d.sync ∉ body) (b : α)
    (r : ρ) :
    (d.step (Mealy.run d.step s (pre ++ d.sync :: body)).1 b).2 = some r ↔
      b ≠ d.sync ∧ b ≠ d.esc ∧ d.Absorbs d.start (d.unstuff false body) ∧
        d.accept (d.start ++ d.unstuff false body)
          (if d.pending false body then d.up b else b) = .emit r := by
  rw [run_fst_of_sync]
  by_cases hb : b = d.sync
  · simp [step, hb]
  by_cases ha : d.Absorbs d.start (d.unstuff false body)
  · rw [d.run_absorbs hbody _ _ ha]
    by_cases he : b = d.esc
    · simp [he, d.step_esc]
    · rw [d.step_value _ _ hb he]
      simp only [ne_eq, hb, he, not_false_eq_true, ha, true_and, store]
      cases d.accept (d.start ++ d.unstuff false body)
        (if d.pending false body then d.up b else b) <;> simp
  · rw [d.run_not_absorbs hbody _ _ ha, d.step_none hb]
    simp [ha]

/-- **When a frame is delivered**: at a symbol with which the contents received since the last
synchronisation symbol end, if the receiver collects the others and accepts the last one.

**Proof sketch.** Before any synchronisation symbol the receiver ignores everything. Otherwise
its state depends only on what follows the last one (`step_emit_iff`), and what this symbol adds
to the contents is what the receiver stores. -/
lemma emit_iff (s : List α) (b : α) (r : ρ) :
    (d.step (Mealy.run d.step none s).1 b).2 = some r ↔
      d.sync ∈ s ++ [b] ∧ b ≠ d.esc ∧ ∃ xs v, d.received (s ++ [b]) = xs ++ [v] ∧
        d.Absorbs d.start xs ∧ d.accept (d.start ++ xs) v = .emit r := by
  by_cases hs : b = d.sync
  · rw [hs, d.received_sync, d.step_sync]
    simp
  by_cases hmem : d.sync ∈ s
  · obtain ⟨pre, hpre⟩ := d.eq_append_sinceSync hmem
    have hiff := d.step_emit_iff none pre (d.sync_notMem_sinceSync s) b r
    rw [← hpre] at hiff
    rw [hiff]
    by_cases he : b = d.esc
    · simp [he]
    · rw [d.received_concat hmem hs he]
      constructor
      · rintro ⟨-, -, ha, hv⟩
        exact ⟨by simp [hmem], he, _, _, rfl, ha, hv⟩
      · rintro ⟨-, -, xs, v, hxs, ha, hv⟩
        obtain ⟨rfl, hlast⟩ := List.append_inj' hxs rfl
        obtain ⟨rfl, -⟩ := List.cons.inj hlast
        exact ⟨hs, he, ha, hv⟩
  · rw [d.run_none hmem, d.step_none hs]
    simp [hmem, Ne.symm hs]

end Deframer

end Stuffing
