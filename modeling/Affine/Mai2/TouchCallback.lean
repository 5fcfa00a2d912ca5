import Affine.Lib.Labelled
import Affine.Lib.Trace
import Affine.Mai2.Device
import Mathlib.Data.List.Induction
import Mathlib.Logic.Function.Basic

set_option relaxedAutoImplicit false
set_option autoImplicit false

/-!
# The touch callback of the game

`touch_callback_thread` of the players, with `set_touch_callback` and `set_touch_enabled`
(`affine-mai2/src/lib.rs`). A pass of a thread looks whether touch is enabled, reads the touch of the
input page, and copies the callback out of its mutex; then, without the mutex, it calls it. Between
any two of these accesses the sources may write the page, and the game may register another callback
or disable touch.

So a call may have a callback that was replaced, or a touch that has passed; but nothing it has is
older than the call of the same player before it.

## Main definitions

* `Affine.TouchRegisters` — what the passes read.
* `Affine.TouchCallbacks`, `Affine.TouchCallbacks.Step` — the threads of the players and of the game.
* `Affine.TouchCallbacks.Passing` — what a thread has read in its pass, and when.

## Main results

* `Affine.touch_calls_current`, with the witness `Affine.touch_calls_current_stale`.
-/

namespace Affine

open Trace (Seen Quiet)

variable {ι κ γ : Type}

/-! ## The threads -/

/-- What an observer sees: what is written, and the calls of callbacks with their returns. -/
inductive TouchLabel (ι γ : Type)
  | touch (i : ι) (t : List.Vector UInt8 7)
  | enable (i : ι) (enabled : Bool)
  | register (c : Option γ)
  | call (i : ι) (c : γ) (t : List.Vector UInt8 7)
  | returns (i : ι)

/-- The touch of the input pages, `touch_enabled` of the output pages, and the callback. -/
structure TouchRegisters (ι γ : Type) where
  touch : ι → List.Vector UInt8 7
  enabled : ι → Bool
  callback : Option γ

/-- Where the thread of a player is. -/
inductive TouchPc (γ : Type)
  | top
  | enabled
  | read (t : List.Vector UInt8 7)
  | locked (t : List.Vector UInt8 7)
  | copied (t : List.Vector UInt8 7) (c : γ)
  | running (c : γ) (t : List.Vector UInt8 7)

/-- Where a thread of the game is in `set_touch_callback`. -/
inductive RegisterPc (γ : Type)
  | idle
  | waiting (c : Option γ)
  | locked (c : Option γ)

/-- The threads of the players and of the game, with the owner of the mutex of the callback. -/
structure TouchCallbacks (ι κ γ : Type) where
  registers : TouchRegisters ι γ
  owner : Option (ι ⊕ κ)
  pc : ι → TouchPc γ
  caller : κ → RegisterPc γ

section Registers

variable [DecidableEq ι]

/-- What is written. -/
def TouchRegisters.write (r : TouchRegisters ι γ) : TouchLabel ι γ → TouchRegisters ι γ
  | .touch i t => { r with touch := Function.update r.touch i t }
  | .enable i enabled => { r with enabled := Function.update r.enabled i enabled }
  | .register c => { r with callback := c }
  | .call _ _ _ | .returns _ => r

/-- What the writes of a trace leave. -/
def TouchRegisters.after (r : TouchRegisters ι γ) (ls : List (TouchLabel ι γ)) :
    TouchRegisters ι γ :=
  ls.foldl write r

/-- The last write comes behind the others. -/
@[simp] lemma TouchRegisters.after_concat (r : TouchRegisters ι γ) (ls : List (TouchLabel ι γ))
    (x : TouchLabel ι γ) : r.after (ls ++ [x]) = (r.after ls).write x := by
  simp [after]

end Registers

namespace TouchCallbacks

/-- The threads at their start. -/
def start (r : TouchRegisters ι γ) : TouchCallbacks ι κ γ where
  registers := r
  owner := none
  pc := fun _ => .top
  caller := fun _ => .idle

section Threads

variable [DecidableEq ι] [DecidableEq κ]

/-- A player's thread goes on. -/
def move (s : TouchCallbacks ι κ γ) (i : ι) (pc : TouchPc γ) : TouchCallbacks ι κ γ :=
  { s with pc := Function.update s.pc i pc }

/-- A thread of the game goes on. -/
def moveCaller (s : TouchCallbacks ι κ γ) (g : κ) (pc : RegisterPc γ) : TouchCallbacks ι κ γ :=
  { s with caller := Function.update s.caller g pc }

/-- The steps of the sources, of the players' threads and of the game; `device` says which players
are enabled. -/
inductive Step (device : ι → Bool) (s : TouchCallbacks ι κ γ) :
    Option (TouchLabel ι γ) → TouchCallbacks ι κ γ → Prop
  /-- A source writes the input page. -/
  | touch (i : ι) (t : List.Vector UInt8 7) :
      Step device s (some (.touch i t)) { s with registers := s.registers.write (.touch i t) }
  /-- `set_touch_enabled` writes an output page. -/
  | enable (i : ι) (enabled : Bool) :
      Step device s (some (.enable i enabled))
        { s with registers := s.registers.write (.enable i enabled) }
  | check (i : ι) (hpc : s.pc i = .top) (hdevice : device i = true)
      (henabled : s.registers.enabled i = true) : Step device s none (s.move i .enabled)
  | read (i : ι) (hpc : s.pc i = .enabled) :
      Step device s none (s.move i (.read (s.registers.touch i)))
  | lock (i : ι) (t : List.Vector UInt8 7) (hpc : s.pc i = .read t) (hfree : s.owner = none) :
      Step device s none { s.move i (.locked t) with owner := some (.inl i) }
  /-- The callback is copied, and the mutex released. Without a callback the pass is over. -/
  | copy (i : ι) (t : List.Vector UInt8 7) (hpc : s.pc i = .locked t) :
      Step device s none
        { s.move i (s.registers.callback.elim .top (.copied t)) with owner := none }
  | call (i : ι) (t : List.Vector UInt8 7) (c : γ) (hpc : s.pc i = .copied t c) :
      Step device s (some (.call i c t)) (s.move i (.running c t))
  | returns (i : ι) (c : γ) (t : List.Vector UInt8 7) (hpc : s.pc i = .running c t) :
      Step device s (some (.returns i)) (s.move i .top)
  /-- The game calls `set_touch_callback`. -/
  | callRegister (g : κ) (c : Option γ) (hpc : s.caller g = .idle) :
      Step device s none (s.moveCaller g (.waiting c))
  | lockRegister (g : κ) (c : Option γ) (hpc : s.caller g = .waiting c) (hfree : s.owner = none) :
      Step device s none { s.moveCaller g (.locked c) with owner := some (.inr g) }
  | register (g : κ) (c : Option γ) (hpc : s.caller g = .locked c) :
      Step device s (some (.register c))
        { s.moveCaller g .idle with
          registers := s.registers.write (.register c)
          owner := none }

end Threads

/-! ## What a thread has read -/

section Passes

variable [DecidableEq ι]

/-- The thread of the player calls a callback, or comes back from one. -/
def IsOwn (i : ι) : TouchLabel ι γ → Prop
  | .call j _ _ | .returns j => j = i
  | _ => False

variable (r : TouchRegisters ι γ) (ls : List (TouchLabel ι γ)) (i : ι)

/-- Touch was enabled at the time `k`, and the thread made no call since `n`. -/
def SeenEnabled (n k : ℕ) : Prop :=
  Quiet (IsOwn i) ls n ∧ Seen (fun ls => (r.after ls).enabled i) ls n k true

/-- Then the page had this touch. -/
def SeenTouch (n k₁ k₂ : ℕ) (t : List.Vector UInt8 7) : Prop :=
  SeenEnabled r ls i n k₁ ∧ Seen (fun ls => (r.after ls).touch i) ls k₁ k₂ t

/-- Then this callback was registered. -/
def SeenCallback (n k₁ k₂ k₃ : ℕ) (t : List.Vector UInt8 7) (c : γ) : Prop :=
  SeenTouch r ls i n k₁ k₂ t ∧ Seen (fun ls => (r.after ls).callback) ls k₂ k₃ (some c)

/-- What a thread has read in its pass, and in which order. -/
def Passing : TouchPc γ → Prop
  | .top | .running _ _ => True
  | .enabled => ∃ n k, SeenEnabled r ls i n k
  | .read t | .locked t => ∃ n k₁ k₂, SeenTouch r ls i n k₁ k₂ t
  | .copied t c => ∃ n k₁ k₂ k₃, SeenCallback r ls i n k₁ k₂ k₃ t c

variable {r ls i} {pc : TouchPc γ}

/-- What was read stays read while others go on. -/
lemma Passing.concat (h : Passing r ls i pc) {x : TouchLabel ι γ} (hx : ¬ IsOwn i x) :
    Passing r (ls ++ [x]) i pc := by
  cases pc with
  | top | running c t => trivial
  | enabled =>
    obtain ⟨n, k, hquiet, hseen⟩ := h
    exact ⟨n, k, hquiet.concat hx, hseen.append _⟩
  | read t | locked t =>
    obtain ⟨n, k₁, k₂, ⟨hquiet, hseen⟩, htouch⟩ := h
    exact ⟨n, k₁, k₂, ⟨hquiet.concat hx, hseen.append _⟩, htouch.append _⟩
  | copied t c =>
    obtain ⟨n, k₁, k₂, k₃, ⟨⟨hquiet, hseen⟩, htouch⟩, hcallback⟩ := h
    exact ⟨n, k₁, k₂, k₃, ⟨⟨hquiet.concat hx, hseen.append _⟩, htouch.append _⟩,
      hcallback.append _⟩

/-- What holds of the threads after every run. -/
structure Inv (r : TouchRegisters ι γ) (ls : List (TouchLabel ι γ))
    (s : TouchCallbacks ι κ γ) : Prop where
  registers : s.registers = r.after ls
  passing : ∀ i, Passing r ls i (s.pc i)
  /-- Every call so far had what its thread had read. -/
  calls : ∀ pre i c t post, ls = pre ++ .call i c t :: post →
    ∃ n k₁ k₂ k₃, SeenCallback r pre i n k₁ k₂ k₃ t c
  owner : ∀ i, s.owner = some (.inl i) → ∃ t, s.pc i = .locked t
  callerOwner : ∀ g, s.owner = some (.inr g) → ∃ c, s.caller g = .locked c

variable {s s' : TouchCallbacks ι κ γ}

/-- The threads start in the invariant. -/
lemma inv_start (r : TouchRegisters ι γ) : Inv r [] (start r : TouchCallbacks ι κ γ) where
  registers := rfl
  passing := fun _ => trivial
  calls := by simp
  owner := nofun
  callerOwner := nofun

/-- The calls of a trace with one more label. -/
lemma Inv.calls_concat (h : Inv r ls s) {x : TouchLabel ι γ}
    (hx : ∀ i c t, x = .call i c t → ∃ n k₁ k₂ k₃, SeenCallback r ls i n k₁ k₂ k₃ t c) :
    ∀ pre i c t post, ls ++ [x] = pre ++ .call i c t :: post →
      ∃ n k₁ k₂ k₃, SeenCallback r pre i n k₁ k₂ k₃ t c := by
  intro pre i c t post heq
  rcases List.eq_nil_or_concat' post with rfl | ⟨post', y, rfl⟩
  · obtain ⟨rfl, hlast⟩ := List.append_inj' heq rfl
    exact hx i c t (List.cons.inj hlast).1
  · rw [← List.cons_append, ← List.append_assoc] at heq
    obtain ⟨hls, -⟩ := List.append_inj' heq rfl
    exact h.calls pre i c t post' hls

/-- Something is written. -/
lemma Inv.write (h : Inv r ls s) {x : TouchLabel ι γ} (hx : ∀ i, ¬ IsOwn i x) :
    Inv r (ls ++ [x]) { s with registers := s.registers.write x } where
  registers := by rw [TouchRegisters.after_concat, ← h.registers]
  passing := fun i => (h.passing i).concat (hx i)
  calls := by
    refine h.calls_concat ?_
    rintro i c t rfl
    exact absurd rfl (hx i)
  owner := h.owner
  callerOwner := h.callerOwner

/-- A thread of a player goes on, with what it has read. It has the mutex then, or has released it,
or another thread has it. -/
lemma Inv.goOn (h : Inv r ls s) {i : ι} {pc : TouchPc γ} (owner : Option (ι ⊕ κ))
    (hpassing : Passing r ls i pc)
    (howner : ∀ j, owner = some (.inl j) →
      (j = i ∧ ∃ t, pc = .locked t) ∨ (j ≠ i ∧ s.owner = some (.inl j)))
    (hcaller : ∀ g, owner = some (.inr g) → s.owner = some (.inr g)) :
    Inv r ls { s.move i pc with owner := owner } where
  registers := h.registers
  passing := by
    intro j
    by_cases hji : j = i
    · subst hji
      simpa [move] using hpassing
    · simpa [move, hji] using h.passing j
  calls := h.calls
  owner := by
    intro j hj
    rcases howner j hj with ⟨rfl, t, rfl⟩ | ⟨hji, hj'⟩
    · exact ⟨t, by simp [move]⟩
    · simpa [move, hji] using h.owner j hj'
  callerOwner := fun g hg => h.callerOwner g (hcaller g hg)

/-- A thread of a player that does not have the mutex goes on without it. -/
lemma Inv.without (h : Inv r ls s) {i : ι} {pc : TouchPc γ} (hpassing : Passing r ls i pc)
    (hnot : ∀ t, s.pc i ≠ .locked t) : Inv r ls (s.move i pc) := by
  refine h.goOn s.owner hpassing ?_ fun g hg => hg
  intro j hj
  refine .inr ⟨?_, hj⟩
  rintro rfl
  obtain ⟨t, ht⟩ := h.owner j hj
  exact hnot t ht

/-- A thread of a player makes a call or comes back from one. -/
lemma Inv.own (h : Inv r ls s) {i : ι} {x : TouchLabel ι γ} {pc : TouchPc γ}
    (hother : ∀ j, j ≠ i → ¬ IsOwn j x) (hwrite : s.registers.write x = s.registers)
    (hpassing : ∀ ls, Passing r ls i pc) (hnot : ∀ t, s.pc i ≠ .locked t)
    (hx : ∀ j c t, x = .call j c t → ∃ n k₁ k₂ k₃, SeenCallback r ls j n k₁ k₂ k₃ t c) :
    Inv r (ls ++ [x]) (s.move i pc) where
  registers := by
    rw [TouchRegisters.after_concat, ← h.registers, hwrite]
    rfl
  passing := by
    intro j
    by_cases hji : j = i
    · subst hji
      simpa [move] using hpassing _
    · simpa [move, hji] using (h.passing j).concat (hother j hji)
  calls := h.calls_concat hx
  owner := (h.without (hpassing ls) hnot).owner
  callerOwner := h.callerOwner

section Callers

variable [DecidableEq κ]

/-- A thread of the game goes on. It has the mutex then, or another thread has it. -/
lemma Inv.caller (h : Inv r ls s) {g : κ} {pc : RegisterPc γ} (owner : Option (ι ⊕ κ))
    (howner : ∀ i, owner = some (.inl i) → s.owner = some (.inl i))
    (hcaller : ∀ g', owner = some (.inr g') →
      (g' = g ∧ ∃ c, pc = .locked c) ∨ (g' ≠ g ∧ s.owner = some (.inr g'))) :
    Inv r ls { s.moveCaller g pc with owner := owner } where
  registers := h.registers
  passing := h.passing
  calls := h.calls
  owner := fun i hi => h.owner i (howner i hi)
  callerOwner := by
    intro g' hg'
    rcases hcaller g' hg' with ⟨rfl, c, rfl⟩ | ⟨hne, hold⟩
    · exact ⟨c, by simp [moveCaller]⟩
    · simpa [moveCaller, hne] using h.callerOwner g' hold

/-- **Every step keeps what the threads have read.**

**Proof sketch.** A thread reads what is there now, so it is not older than its last call; and what
it has read stays read while others write (`Passing.concat`). -/
lemma Inv.step {device : ι → Bool} (h : Inv r ls s) {o : Option (TouchLabel ι γ)}
    (hstep : Step device s o s') : Inv r (ls ++ o.toList) s' := by
  cases hstep with
  | touch i t => exact h.write fun _ => id
  | enable i enabled => exact h.write fun _ => id
  | check i hpc hdevice henabled =>
    rw [Option.toList_none, List.append_nil]
    rw [h.registers] at henabled
    exact h.without ⟨_, _, .now _ ls, .now le_rfl henabled⟩ (by simp [hpc])
  | read i hpc =>
    rw [Option.toList_none, List.append_nil]
    have hpassing := h.passing i
    rw [hpc] at hpassing
    obtain ⟨n, k, henabled⟩ := hpassing
    refine h.without ⟨n, k, _, henabled, .now henabled.2.2.1 ?_⟩ (by simp [hpc])
    rw [h.registers]
  | lock i t hpc hfree =>
    rw [Option.toList_none, List.append_nil]
    have hpassing := h.passing i
    rw [hpc] at hpassing
    refine h.goOn _ hpassing ?_ nofun
    rintro j ⟨⟩
    exact .inl ⟨rfl, t, rfl⟩
  | copy i t hpc =>
    rw [Option.toList_none, List.append_nil]
    have hpassing := h.passing i
    rw [hpc] at hpassing
    obtain ⟨n, k₁, k₂, htouch⟩ := hpassing
    refine h.goOn _ ?_ nofun nofun
    cases hcallback : s.registers.callback with
    | none => trivial
    | some c =>
      refine ⟨n, k₁, k₂, _, htouch, .now htouch.2.2.1 ?_⟩
      rw [← h.registers, hcallback]
  | call i t c hpc =>
    have hpassing := h.passing i
    rw [hpc] at hpassing
    refine h.own (fun j hji => Ne.symm hji) rfl (fun _ => trivial) (by simp [hpc]) ?_
    rintro j c' t' ⟨⟩
    exact hpassing
  | returns i c t hpc =>
    exact h.own (fun j hji => Ne.symm hji) rfl (fun _ => trivial) (by simp [hpc]) nofun
  | callRegister g c hpc =>
    rw [Option.toList_none, List.append_nil]
    refine h.caller s.owner (fun i hi => hi) fun g' hg' => .inr ⟨?_, hg'⟩
    rintro rfl
    obtain ⟨c', hc'⟩ := h.callerOwner g' hg'
    rw [hpc] at hc'
    cases hc'
  | lockRegister g c hpc hfree =>
    rw [Option.toList_none, List.append_nil]
    refine h.caller _ nofun ?_
    rintro g' ⟨⟩
    exact .inl ⟨rfl, c, rfl⟩
  | register g c hpc =>
    exact (h.write (x := .register c) fun _ => id).caller none nofun nofun

/-- The invariant holds after every run. -/
lemma inv_runs {device : ι → Bool}
    (h : Labelled.Runs (Step device) (start r : TouchCallbacks ι κ γ) ls s) : Inv r ls s :=
  h.invariant (P := Inv r) (inv_start r) fun _ _ _ _ hinv hstep => hinv.step hstep

end Callers

/-! ## What was there -/

/-- Without a registration the callback stays. -/
lemma after_callback {mid : List (TouchLabel ι γ)} (hmid : ∀ c, TouchLabel.register c ∉ mid) :
    (r.after (ls ++ mid)).callback = (r.after ls).callback := by
  induction mid using List.reverseRecOn with
  | nil => rw [List.append_nil]
  | append_singleton mid x ih =>
    have hmid' : ∀ c, TouchLabel.register c ∉ mid := fun c hc => hmid c (by simp [hc])
    rw [← List.append_assoc, TouchRegisters.after_concat, ← ih hmid']
    cases x with
    | register c => exact absurd (by simp) (hmid c)
    | touch j t | enable j enabled | call j c t | returns j => rfl

/-- Without a change `touch_enabled` stays. -/
lemma after_enabled {mid : List (TouchLabel ι γ)} (hmid : ∀ b, TouchLabel.enable i b ∉ mid) :
    (r.after (ls ++ mid)).enabled i = (r.after ls).enabled i := by
  induction mid using List.reverseRecOn with
  | nil => rw [List.append_nil]
  | append_singleton mid x ih =>
    have hmid' : ∀ b, TouchLabel.enable i b ∉ mid := fun b hb => hmid b (by simp [hb])
    rw [← List.append_assoc, TouchRegisters.after_concat, ← ih hmid']
    cases x with
    | enable j enabled =>
      have hij : i ≠ j := by
        rintro rfl
        exact hmid enabled (by simp)
      simp [TouchRegisters.write, hij]
    | register c | touch j t | call j c t | returns j => rfl

/-- What the second of two calls of a thread has was there before both of them, if nothing has
changed it.

**Proof sketch.** The second call has read what it has behind the first one, and from then on
nothing was written. -/
lemma stale_once {pre mid mid' : List (TouchLabel ι γ)} {c c' : γ}
    {t t' : List.Vector UInt8 7} {n k₁ k₂ k₃ : ℕ}
    (h : SeenCallback r (pre ++ (mid ++ .call i c t :: mid')) i n k₁ k₂ k₃ t' c') :
    ((∀ d, TouchLabel.register d ∉ mid ++ .call i c t :: mid') →
      (r.after pre).callback = some c') ∧
      ((∀ b, TouchLabel.enable i b ∉ mid ++ .call i c t :: mid') →
        (r.after pre).enabled i = true) := by
  obtain ⟨⟨⟨hquiet, henabled⟩, htouch⟩, hcallback⟩ := h
  have hlate : pre.length < n := by
    rw [← List.append_assoc] at hquiet
    have hlt := hquiet.lt_of_split rfl
    rw [List.length_append] at hlt
    omega
  have horder : n ≤ k₂ := henabled.1.trans htouch.1
  constructor
  · intro hnone
    refine (hcallback.of_quiet (by omega) fun post' hpost' => ?_).symm
    exact after_callback fun d hd => hnone d (hpost'.subset hd)
  · intro hnone
    refine (henabled.of_quiet hlate.le fun post' hpost' => ?_).symm
    exact after_enabled fun b hb => hnone b (hpost'.subset hb)

section Results

variable [DecidableEq κ] (device : ι → Bool)

/-- A thread of the game that waits for a free mutex registers its callback. -/
lemma registers_free {g : κ} {c : Option γ} (hpc : s.caller g = .waiting c)
    (hfree : s.owner = none) :
    ∃ t : TouchCallbacks ι κ γ, Labelled.Runs (Step device) s [.register c] t ∧
      t.caller g = .idle ∧ t.registers.callback = c ∧ t.pc = s.pc := by
  have hlock : Labelled.Runs (Step device) s []
      { s.moveCaller g (.locked c) with owner := some (.inr g) } :=
    Labelled.Runs.nil.silent (.lockRegister g c hpc hfree)
  have hlocked : (s.moveCaller g (.locked c)).caller g = .locked c := by simp [moveCaller]
  exact ⟨_, hlock.visible (.register g c hlocked), by simp [moveCaller], rfl, rfl⟩

/-- A thread of the game that waits for the mutex registers its callback while the callbacks that
run go on.

**Proof sketch.** The mutex is free, or its owner can release it at once: a thread of a player
copies the callback, and a thread of the game registers its own. In both cases the thread that waits
is next. -/
lemma Inv.registers_waiting (h : Inv r ls s) {g : κ} {c : Option γ}
    (hpc : s.caller g = .waiting c) :
    ∃ (ls' : List (TouchLabel ι γ)) (t : TouchCallbacks ι κ γ),
      Labelled.Runs (Step device) s ls' t ∧ t.caller g = .idle ∧ t.registers.callback = c ∧
        (∀ i d u, s.pc i = .running d u → t.pc i = .running d u) ∧
        ∀ x ∈ ls', ∃ d, x = .register d := by
  have honly (d : Option γ) : ∀ x ∈ [(.register d : TouchLabel ι γ)], ∃ d, x = .register d := by
    intro x hx
    exact ⟨d, List.mem_singleton.mp hx⟩
  cases howner : s.owner with
  | none =>
    obtain ⟨t, hrun, hidle, hc, hsame⟩ := registers_free device hpc howner
    exact ⟨_, t, hrun, hidle, hc, fun i d u hi => by rw [hsame, hi], honly c⟩
  | some owner =>
    cases owner with
    | inl i =>
      -- a thread between its copy and the release
      obtain ⟨u, hu⟩ := h.owner i howner
      have hcopy : Labelled.Runs (Step device) s []
          { s.move i (s.registers.callback.elim .top (.copied u)) with owner := none } :=
        Labelled.Runs.nil.silent (.copy i u hu)
      obtain ⟨t, hrun, hidle, hc, hsame⟩ := registers_free device
        (s := { s.move i (s.registers.callback.elim .top (.copied u)) with owner := none }) hpc rfl
      refine ⟨_, t, hcopy.append hrun, hidle, hc, fun j d v hj => ?_, honly c⟩
      have hji : j ≠ i := by
        rintro rfl
        rw [hu] at hj
        cases hj
      rw [hsame]
      simpa [move, hji] using hj
    | inr g' =>
      -- another registration
      obtain ⟨c', hc'⟩ := h.callerOwner g' howner
      have hne : g ≠ g' := by
        rintro rfl
        rw [hpc] at hc'
        cases hc'
      have hother : Labelled.Runs (Step device) s [.register c']
          { s.moveCaller g' .idle with
            registers := s.registers.write (.register c')
            owner := none } := Labelled.Runs.nil.visible (.register g' c' hc')
      obtain ⟨t, hrun, hidle, hc, hsame⟩ := registers_free device
        (s := { s.moveCaller g' .idle with
          registers := s.registers.write (.register c')
          owner := none }) (g := g) (c := c) (by simpa [moveCaller, hne] using hpc) rfl
      refine ⟨_, t, hother.append hrun, hidle, hc, fun j d v hj => by rw [hsame]; exact hj, ?_⟩
      intro x hx
      simp only [List.singleton_append, List.mem_cons, List.not_mem_nil,
        or_false] at hx
      rcases hx with rfl | rfl
      · exact ⟨c', rfl⟩
      · exact ⟨c, rfl⟩

end Results

end Passes

end TouchCallbacks

section Results

open TouchCallbacks (Step SeenCallback start)

variable [DecidableEq ι] [DecidableEq κ]

/-- **The calls of the touch callback are current, and block nothing.** In every run of the sources,
the players' threads and the game: each call has touch that was enabled, then a touch of the page,
and then a callback, all at times behind the return from the player's call before it. So once the
game has registered another callback, or disabled touch, each player's thread makes at most one more
call without regard to it. While a callback runs, its thread does not have the mutex, and a thread of
the game that waits for the mutex registers its callback even if no callback ever returns.

**Proof sketch.** What a thread has read in its pass is an invariant, with the times
(`TouchCallbacks.Inv.step`). Between two calls there is a whole pass, which begins behind the first
of them (`TouchCallbacks.stale_once`). -/
theorem touch_calls_current {device : ι → Bool} {r : TouchRegisters ι γ}
    {ls : List (TouchLabel ι γ)} {s : TouchCallbacks ι κ γ}
    (h : Labelled.Runs (Step device) (start r) ls s) :
    (∀ pre i c t post, ls = pre ++ .call i c t :: post →
      ∃ n k₁ k₂ k₃, SeenCallback r pre i n k₁ k₂ k₃ t c) ∧
      (∀ pre mid i c t mid' c' t' post,
        ls = pre ++ (mid ++ .call i c t :: mid') ++ .call i c' t' :: post →
        ((∀ d, TouchLabel.register d ∉ mid ++ .call i c t :: mid') →
          (r.after pre).callback = some c') ∧
          ((∀ b, TouchLabel.enable i b ∉ mid ++ .call i c t :: mid') →
            (r.after pre).enabled i = true)) ∧
      (∀ i c t, s.pc i = .running c t → s.owner ≠ some (.inl i)) ∧
      ∀ g c, s.caller g = .waiting c →
        ∃ (ls' : List (TouchLabel ι γ)) (t : TouchCallbacks ι κ γ),
          Labelled.Runs (Step device) s ls' t ∧ t.caller g = .idle ∧ t.registers.callback = c ∧
            (∀ i d u, s.pc i = .running d u → t.pc i = .running d u) ∧
            ∀ x ∈ ls', ∃ d, x = .register d := by
  have hinv := TouchCallbacks.inv_runs h
  refine ⟨hinv.calls, ?_, ?_, fun g c hpc => hinv.registers_waiting device hpc⟩
  · intro pre mid i c t mid' c' t' post hls
    obtain ⟨n, k₁, k₂, k₃, hseen⟩ := hinv.calls _ i c' t' post hls
    exact TouchCallbacks.stale_once hseen
  · intro i c t hpc howner
    obtain ⟨u, hu⟩ := hinv.owner i howner
    rw [hpc] at hu
    cases hu

/-- A player's thread has copied a callback when the game replaces it, and calls it. -/
theorem touch_calls_current_stale :
    ∃ (r : TouchRegisters Unit Bool) (s : TouchCallbacks Unit Unit Bool),
      Labelled.Runs (Step fun _ => true) (start r)
          [.register (some false), .call () true noTouch] s ∧
        (r.after [.register (some false)]).callback = some false ∧
        ∃ n k₁ k₂ k₃, SeenCallback r [.register (some false)] () n k₁ k₂ k₃ noTouch true := by
  let r : TouchRegisters Unit Bool := ⟨fun _ => noTouch, fun _ => true, some true⟩
  have hcheck : Labelled.Runs (Step (κ := Unit) fun _ => true) (start r) [] _ :=
    Labelled.Runs.nil.silent (.check () rfl rfl rfl)
  have hcopied := ((hcheck.silent (.read () rfl)).silent (.lock () noTouch rfl rfl)).silent
    (.copy () noTouch rfl)
  have hregister := ((hcopied.silent (.callRegister () (some false) rfl)).silent
    (.lockRegister () (some false) rfl rfl)).visible (.register () (some false) rfl)
  have hcall := hregister.visible (.call () noTouch true rfl)
  obtain ⟨n, k₁, k₂, k₃, hseen⟩ :=
    (touch_calls_current hcall).1 [.register (some false)] () true noTouch [] rfl
  exact ⟨r, _, hcall, rfl, n, k₁, k₂, k₃, hseen⟩

end Results

end Affine
