import Affine.Lib.Run
import Affine.Mai2.Fade

set_option relaxedAutoImplicit false
set_option autoImplicit false

/-!
# Concurrent fades

`led_gs_update` (`affine-mai2/src/lib.rs`) latches the targets under one lock and updates the page
under another, one after the other. Several threads may call it for the same board, and then their
latch sections and their page updates may come in different orders. The targets in the page are
those of the call that updates it last, and the latch holds those of the call that latches last
(`Affine.GsOrder.Describes`), so the two agree exactly if these calls have the same targets.

## Main definitions

* `Affine.GsStep`, `Affine.GsThreads.step` — the two steps of a call, taken by any threads.
* `Affine.GsOrder` — the calls that were last to latch and last to update a page.

## Main results

* `Affine.GsThreads.describes` — what the steps leave in the latch and in the page.
* `Affine.gs_threads_agree_iff`.
-/

namespace Affine

/-- A step of a thread in `led_gs_update`: a call begins with its section under the lock of the
latch, and ends with its update of the page. -/
inductive GsStep (ι : Type)
  | latch (i : ι) (call : GsCall)
  | page (i : ι)

/-- The runtime, and for each thread that is between the two steps of a call the board and the
payload. -/
structure GsThreads (ι : Type) where
  runtime : Mai2Runtime
  pending : ι → Option (Fin 2 × List.Vector UInt8 56)

namespace GsThreads

variable {ι : Type}

/-- No call has begun, on fresh pages. -/
def init (enabled : Fin 2 → Bool) : GsThreads ι where
  runtime := .fresh enabled
  pending _ := none

variable [DecidableEq ι]

/-- A thread that is not in a call begins one. A call that is not accepted returns at once. -/
def latch (s : GsThreads ι) (i : ι) (call : GsCall) : Except Unit (GsThreads ι) :=
  match s.pending i with
  | some _ => .error ()
  | none =>
    match Mai2Runtime.gsAccepted call.board call.rgb with
    | none => .ok s
    | some (board, rgbs) =>
      let (payload, runtime) := s.runtime.ledGsLatch board rgbs
      .ok { runtime := runtime, pending := Function.update s.pending i (some (board, payload)) }

/-- A thread that is in a call ends it. -/
def page (s : GsThreads ι) (i : ι) : Except Unit (GsThreads ι) :=
  match s.pending i with
  | none => .error ()
  | some (board, payload) =>
    .ok {
      runtime := s.runtime.ledGsPage board payload
      pending := Function.update s.pending i none }

/-- A step of a thread. -/
def step : GsStep ι → GsThreads ι → Except Unit (GsThreads ι)
  | .latch i call, s => s.latch i call
  | .page i, s => s.page i

end GsThreads

/-- The target colours of a call. -/
def GsCall.targets (call : GsCall) : List.Vector UInt8 24 :=
  .ofFn fun k => call.byte (k.val / 3 * 4 + k.val % 3)

/-- The target colours of a call, or black. -/
def targetsOf : Option GsCall → List.Vector UInt8 24
  | none => List.Vector.replicate 24 0
  | some call => call.targets

/-- The order of the steps: the call that each thread has begun last, and for each board the
accepted call that was last to latch and the one that was last to update the page. -/
structure GsOrder (ι : Type) where
  begun : ι → Option GsCall
  latched : Fin 2 → Option GsCall
  shown : Fin 2 → Option GsCall

namespace GsOrder

variable {ι : Type}

/-- Nothing has happened yet. -/
def init : GsOrder ι where
  begun _ := none
  latched _ := none
  shown _ := none

variable [DecidableEq ι]

/-- The order with one more step. -/
def add (o : GsOrder ι) : GsStep ι → GsOrder ι
  | .latch i call =>
    { o with
      begun := Function.update o.begun i (some call)
      latched := fun board => if call.acceptedOn board then some call else o.latched board }
  | .page i =>
    { o with
      shown := fun board => ((o.begun i).filter (GsCall.acceptedOn board)).or (o.shown board) }

/-- The order of these steps. -/
def ofSteps (steps : List (GsStep ι)) : GsOrder ι := steps.foldl add init

/-- The latches and the pages are those of the last calls, and each thread between its two steps
holds the targets of its call. -/
structure Describes (o : GsOrder ι) (s : GsThreads ι) : Prop where
  latch : ∀ board, s.runtime.ledStartLatch board = targetsOf (o.latched board)
  page : ∀ board,
    buttonRgbPayload (s.runtime.page board).buttons = targetsOf (o.shown board)
  pending : ∀ i board payload, s.pending i = some (board, payload) →
    ∃ call, o.begun i = some call ∧ (∀ b, call.acceptedOn b = decide (b = board)) ∧
      buttonRgbPayload payload = call.targets

end GsOrder

/-! ## One step -/

/-- What an accepted call is accepted for. -/
lemma gsAccepted_eq_some {call : GsCall} {board : Fin 2} {rgbs : List.Vector UInt8 32}
    (h : Mai2Runtime.gsAccepted call.board call.rgb = some (board, rgbs)) :
    (∀ b, call.acceptedOn b = decide (b = board)) ∧ gsLatch rgbs = call.targets := by
  unfold Mai2Runtime.gsAccepted at h
  split at h
  · next hcall =>
    obtain ⟨rfl, rfl⟩ := Prod.mk.inj (Option.some.inj h)
    refine ⟨fun b => ?_, ?_⟩
    · rw [GsCall.acceptedOn, decide_eq_decide, Fin.ext_iff]
      exact ⟨fun hb => hb.1.symm, fun hb => ⟨hb.symm, hcall.2⟩⟩
    · apply List.Vector.ext
      intro k
      have hk := k.isLt
      simp only [gsLatch, GsCall.targets, List.Vector.get_ofFn]
      show byteAt ⟨call.rgb.take 32, _⟩ _ = call.byte _
      exact byteAt_rgbs rfl (by omega)
  · cases h

/-- A call that `led_gs_update` rejects is accepted on no board. -/
lemma gsAccepted_eq_none {call : GsCall}
    (h : Mai2Runtime.gsAccepted call.board call.rgb = none) (b : Fin 2) :
    call.acceptedOn b = false := by
  unfold Mai2Runtime.gsAccepted at h
  split at h
  · cases h
  · next hcall =>
    refine decide_eq_false fun hb => hcall ⟨?_, hb.2⟩
    have hb2 := b.isLt
    omega

/-- The targets in the payload that a call builds are those it latches. -/
lemma buttonRgbPayload_gsPayload (latch : List.Vector UInt8 24) (rgbs : List.Vector UInt8 32) :
    buttonRgbPayload (gsPayload latch rgbs) = gsLatch rgbs := by
  apply List.Vector.ext
  intro k
  have hk := k.isLt
  simp only [buttonRgbPayload, gsLatch, List.Vector.get_ofFn]
  exact gsPayload_target latch rgbs (show k.val / 3 < 8 by omega) (show k.val % 3 < 3 by omega)

namespace GsOrder

variable {ι : Type} [DecidableEq ι] {o : GsOrder ι} {s s' : GsThreads ι}

/-- The latch section of a call.

**Proof sketch.** A rejected call latches nothing. An accepted one latches its targets on its board,
and its payload is pending with the same targets. -/
lemma Describes.latch_step (h : o.Describes s) {i : ι} {call : GsCall}
    (hstep : s.latch i call = .ok s') : (o.add (.latch i call)).Describes s' := by
  unfold GsThreads.latch at hstep
  split at hstep
  · cases hstep
  next hidle =>
  split at hstep
  · next hrejected =>
    cases hstep
    refine ⟨fun board => ?_, h.page, fun j board payload hj => ?_⟩
    · simp only [add, gsAccepted_eq_none hrejected board, Bool.false_eq_true, if_false]
      exact h.latch board
    · have hne : j ≠ i := by
        rintro rfl
        rw [hidle] at hj
        cases hj
      simp only [add, Function.update_of_ne hne]
      exact h.pending j board payload hj
  · next board rgbs haccepted =>
    cases hstep
    obtain ⟨hboard, htargets⟩ := gsAccepted_eq_some haccepted
    refine ⟨fun b => ?_, h.page, fun j b payload hj => ?_⟩
    · simp only [add, hboard b, decide_eq_true_eq]
      by_cases hb : b = board
      · subst hb
        rw [if_pos rfl]
        exact (Function.update_self ..).trans htargets
      · rw [if_neg hb, ← h.latch b]
        exact Function.update_of_ne hb _ _
    · by_cases hi : j = i
      · subst hi
        simp only [Function.update_self, Option.some.injEq, Prod.mk.injEq] at hj
        obtain ⟨rfl, rfl⟩ := hj
        refine ⟨call, Function.update_self .., hboard, ?_⟩
        rw [← htargets]
        exact buttonRgbPayload_gsPayload _ _
      · simp only [Function.update_of_ne hi] at hj
        simp only [add, Function.update_of_ne hi]
        exact h.pending j b payload hj

/-- The page update of a call.

**Proof sketch.** The page of the board shows the payload of the call, whose targets are known. The
other board is left. -/
lemma Describes.page_step (h : o.Describes s) {i : ι}
    (hstep : s.page i = .ok s') : (o.add (.page i)).Describes s' := by
  unfold GsThreads.page at hstep
  split at hstep
  · cases hstep
  next board payload hpending =>
  cases hstep
  obtain ⟨call, hbegun, hboard, htargets⟩ := h.pending i board payload hpending
  refine ⟨h.latch, fun b => ?_, fun j b payload' hj => ?_⟩
  · simp only [add, hbegun, Option.filter, hboard b, decide_eq_true_eq]
    rw [Mai2Runtime.page, Mai2Runtime.ledGsPage, Mai2Runtime.updateOutput_outputPage]
    by_cases hb : b = board
    · rw [if_pos hb, if_pos hb, setButtons_buttons]
      exact htargets
    · rw [if_neg hb, if_neg hb]
      exact h.page b
  · by_cases hi : j = i
    · subst hi
      simp only [Function.update_self] at hj
      cases hj
    · simp only [Function.update_of_ne hi] at hj
      exact h.pending j b payload' hj

end GsOrder

/-! ## Runs -/

/-- A fresh page and a fresh latch are black. -/
lemma GsOrder.describes_init {ι : Type} (enabled : Fin 2 → Bool) :
    (GsOrder.init (ι := ι)).Describes (.init enabled) := by
  refine ⟨fun _ => rfl, fun board => ?_, fun _ _ _ h => by cases h⟩
  have hhistory := gsHistory_gsRun enabled [] board
  apply List.Vector.ext
  intro k
  have hk := k.isLt
  have hblack := hhistory.targets (k.val / 3) (by omega) (k.val % 3) (by omega)
  rw [hhistory.latch (k.val / 3) (by omega) (k.val % 3) (by omega)] at hblack
  show (buttonRgbPayload _).get k = (List.Vector.replicate 24 0).get k
  rw [List.Vector.get_replicate, buttonRgbPayload, List.Vector.get_ofFn]
  exact hblack

variable {ι : Type} [DecidableEq ι]

/-- **What the steps leave**: in every run, the latch of a board holds the targets of the call that
was last to latch, and the page those of the call that was last to update it.

**Proof sketch.** Induction on the run. The payload of a call carries the targets that the call has
latched, whatever comes between its two steps. -/
theorem GsThreads.describes (enabled : Fin 2 → Bool) {steps : List (GsStep ι)} {s : GsThreads ι}
    (h : Run.exec GsThreads.step (.init enabled) steps = .ok s) :
    (GsOrder.ofSteps steps).Describes s := by
  induction steps using List.reverseRecOn generalizing s with
  | nil =>
    cases h
    exact GsOrder.describes_init enabled
  | append_singleton steps a ih =>
    obtain ⟨s', hs', hstep⟩ := (Run.exec_concat_eq_ok _).mp h
    have hdescribes := ih hs'
    rw [GsOrder.ofSteps, List.foldl_append]
    cases a with
    | latch i call => exact hdescribes.latch_step hstep
    | page i => exact hdescribes.page_step hstep

/-- **When latch and page agree**: after every interleaving of calls by any threads, and so in
particular once all of them have returned, the targets in the page of a board are the latched ones
exactly if the call that was last to latch has the same targets as the call that was last to update
the page.

**Proof sketch.** `GsThreads.describes`. -/
theorem gs_threads_agree_iff (enabled : Fin 2 → Bool) (steps : List (GsStep ι)) (s : GsThreads ι)
    (h : Run.exec GsThreads.step (.init enabled) steps = .ok s) (board : Fin 2) :
    buttonRgbPayload (s.runtime.page board).buttons = s.runtime.ledStartLatch board ↔
      targetsOf ((GsOrder.ofSteps steps).latched board) =
        targetsOf ((GsOrder.ofSteps steps).shown board) := by
  have hdescribes := GsThreads.describes enabled h
  rw [hdescribes.page board, hdescribes.latch board]
  exact eq_comm

/-- A call for the first board with the same byte everywhere. -/
def GsCall.uniform (byte : UInt8) : GsCall where
  board := 0
  rgb := List.replicate 32 byte

/-- Two calls of which the first to latch is also the first to update the page. -/
def twoCallsInOrder : List (GsStep Bool) :=
  [.latch false (.uniform 1), .latch true (.uniform 2), .page false, .page true]

/-- Two calls whose steps come in the same order agree. -/
theorem gs_threads_agree_in_order :
    ∃ s, Run.exec GsThreads.step (.init fun _ => false) twoCallsInOrder = .ok s ∧
      (buttonRgbPayload (s.runtime.page ⟨0, Nat.zero_lt_two⟩).buttons =
          s.runtime.ledStartLatch ⟨0, Nat.zero_lt_two⟩ ↔
        targetsOf ((GsOrder.ofSteps twoCallsInOrder).latched ⟨0, Nat.zero_lt_two⟩) =
          targetsOf ((GsOrder.ofSteps twoCallsInOrder).shown ⟨0, Nat.zero_lt_two⟩)) :=
  ⟨_, rfl, gs_threads_agree_iff (fun _ => false) _ _ rfl ⟨0, Nat.zero_lt_two⟩⟩

/-- The second call to latch is the first to update the page, and all calls return. -/
theorem gs_threads_disagree :
    ¬ ∀ (steps : List (GsStep Bool)) (s : GsThreads Bool),
      Run.exec GsThreads.step (.init fun _ => false) steps = .ok s →
      (∀ i, s.pending i = none) → ∀ board,
        buttonRgbPayload (s.runtime.page board).buttons = s.runtime.ledStartLatch board := by
  intro h
  have hagree := h
    [.latch false (.uniform 1), .latch true (.uniform 2), .page true, .page false] _ rfl
    (by decide) ⟨0, Nat.zero_lt_two⟩
  exact absurd hagree (by decide +kernel)

end Affine
