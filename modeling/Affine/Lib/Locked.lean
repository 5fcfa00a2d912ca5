import Affine.Lib.Code
import Affine.Lib.Labelled

set_option relaxedAutoImplicit false
set_option autoImplicit false

/-!
# Critical sections

Threads share a memory and one lock. A thread that calls an operation waits for the lock, runs the
code of the operation access by access, and releases the lock. A thread can be killed anywhere. If
it owns the lock then the lock goes to the next thread that waits for it, and the memory stays as it
is.

The lock makes operations atomic (`Locked.atomic`): an observer of the calls and the results cannot
tell these threads from threads whose operations happen at one instant between their call and their
return. What is left of an operation whose thread was killed is some part of it.

## Main definitions

* `Locked.System`, `Locked.Step` — the threads with the memory and the lock.
* `Locked.Atomic`, `Locked.Atomic.Step` — the threads whose operations are atomic.

## Main results

* `Locked.atomic` — every run of the one system is a run of the other with the same calls and
  results.
* `Locked.Step.runs_alone` — a call that no other thread comes between returns.
-/

namespace Locked

/-! ## The threads -/

/-- What an observer sees: a call, a return with its result, and the end of a thread. -/
inductive Label (ι Op R : Type)
  | call (i : ι) (op : Op)
  | returns (i : ι) (op : Op) (r : R)
  | killed (i : ι)

/-- Where a thread is: outside of the operations, waiting for the lock, or with the rest of the
code before it. -/
inductive Pc (M Op R : Type)
  | idle
  | waiting (op : Op)
  | inside (op : Op) (rest : Code M R)
  | dead

/-- The threads with the memory and the owner of the lock. -/
structure System (ι M Op R : Type) where
  memory : M
  owner : Option ι
  pc : ι → Pc M Op R

/-- Where a thread with atomic operations is: an operation is before it, or its result is there. -/
inductive AtomicPc (Op R : Type)
  | idle
  | waiting (op : Op)
  | done (op : Op) (r : R)
  | dead

/-- The threads whose operations are atomic, with the memory. -/
structure Atomic (ι M Op R : Type) where
  memory : M
  pc : ι → AtomicPc Op R

variable {ι M Op R : Type} [DecidableEq ι]

/-- The threads at their start. -/
def System.start (m : M) : System ι M Op R where
  memory := m
  owner := none
  pc := fun _ => .idle

/-- The threads at their start. -/
def Atomic.start (m : M) : Atomic ι M Op R where
  memory := m
  pc := fun _ => .idle

/-- A changed entry of a function, or another one. -/
lemma eq_of_update {α : Type} {f : ι → α} {i j : ι} {x y : α}
    (h : Function.update f i x j = y) : (j = i ∧ x = y) ∨ f j = y := by
  by_cases hji : j = i
  · subst hji
    exact .inl ⟨rfl, by rwa [Function.update_self] at h⟩
  · exact .inr (by rwa [Function.update_of_ne hji] at h)

open Function in
/-- The steps of the threads. A thread that is killed gives the lock back if it owns it. -/
inductive Step (code : Op → Code M R) (s : System ι M Op R) :
    Option (Label ι Op R) → System ι M Op R → Prop
  | call (i : ι) (op : Op) (h : s.pc i = .idle) :
      Step code s (some (.call i op)) { s with pc := update s.pc i (.waiting op) }
  | acquire (i : ι) (op : Op) (h : s.pc i = .waiting op) (hfree : s.owner = none) :
      Step code s none { s with owner := some i, pc := update s.pc i (.inside op (code op)) }
  | access (i : ι) (op : Op) (store : M → M) (next : M → Code M R)
      (h : s.pc i = .inside op (.access store next)) :
      Step code s none
        { s with memory := store s.memory, pc := update s.pc i (.inside op (next s.memory)) }
  | release (i : ι) (op : Op) (r : R) (h : s.pc i = .inside op (.ret r)) :
      Step code s (some (.returns i op r)) { s with owner := none, pc := update s.pc i .idle }
  | kill (i : ι) (h : s.pc i ≠ .dead) :
      Step code s (some (.killed i))
        { s with owner := if s.owner = some i then none else s.owner, pc := update s.pc i .dead }

open Function in
/-- The steps of the threads with atomic operations. A thread that is killed while an operation is
before it may leave something of it behind. -/
inductive Atomic.Step (effect : Op → M → R × M) (torn : Op → M → M → Prop)
    (s : Atomic ι M Op R) : Option (Label ι Op R) → Atomic ι M Op R → Prop
  | call (i : ι) (op : Op) (h : s.pc i = .idle) :
      Step effect torn s (some (.call i op)) { s with pc := update s.pc i (.waiting op) }
  | perform (i : ι) (op : Op) (h : s.pc i = .waiting op) :
      Step effect torn s none
        { memory := (effect op s.memory).2
          pc := update s.pc i (.done op (effect op s.memory).1) }
  | returns (i : ι) (op : Op) (r : R) (h : s.pc i = .done op r) :
      Step effect torn s (some (.returns i op r)) { s with pc := update s.pc i .idle }
  | kill (i : ι) (h : s.pc i ≠ .dead) :
      Step effect torn s (some (.killed i)) { s with pc := update s.pc i .dead }
  | killPartway (i : ι) (op : Op) (m : M) (h : s.pc i = .waiting op) (hm : torn op s.memory m) :
      Step effect torn s (some (.killed i)) { memory := m, pc := update s.pc i .dead }

/-- Where the thread is for an observer: an operation that has not released the lock is before
it. -/
def Pc.toAtomic : Pc M Op R → AtomicPc Op R
  | idle => .idle
  | waiting op | inside op _ => .waiting op
  | dead => .dead

/-- How the threads with the lock correspond to those with atomic operations. Only the owner of
the lock is inside, and what it has done so far is not yet done there. -/
structure Sim (code : Op → Code M R) (s : System ι M Op R) (a : Atomic ι M Op R) : Prop where
  pc : ∀ i, a.pc i = (s.pc i).toAtomic
  owner : ∀ i op c, s.pc i = .inside op c → s.owner = some i
  inside : ∀ i, s.owner = some i →
    ∃ op c, s.pc i = .inside op c ∧ (code op).Reaches a.memory c s.memory
  free : s.owner = none → s.memory = a.memory

section Atomicity

open Function

variable {code : Op → Code M R} {effect : Op → M → R × M} {torn : Op → M → M → Prop}
  {s : System ι M Op R} {a : Atomic ι M Op R}

/-- Where the threads are behind a step of one of them. -/
lemma Sim.update_pc (h : Sim code s a) (i : ι) (pc : Pc M Op R) (j : ι) :
    update a.pc i pc.toAtomic j = (update s.pc i pc j).toAtomic := by
  by_cases hj : j = i
  · subst hj
    rw [update_self, update_self]
  · rw [update_of_ne hj, update_of_ne hj]
    exact h.pc j

/-- A thread that does not own the lock changes where it is, but not to inside. -/
lemma Sim.outside (h : Sim code s a) {i : ι} (hi : ∀ op c, s.pc i ≠ .inside op c) {pc : Pc M Op R}
    (hpc : ∀ op c, pc ≠ .inside op c) :
    Sim code { s with pc := update s.pc i pc } { a with pc := update a.pc i pc.toAtomic } where
  pc := h.update_pc i pc
  owner := by
    intro j op c hj
    by_cases hji : j = i
    · subst hji
      exact absurd (by simpa using hj) (hpc op c)
    · exact h.owner j op c (by simpa [hji] using hj)
  inside := by
    intro j hj
    obtain ⟨op, c, hc, hreach⟩ := h.inside j hj
    have hji : j ≠ i := by
      rintro rfl
      exact hi op c hc
    exact ⟨op, c, by simpa [hji] using hc, hreach⟩
  free := h.free

omit [DecidableEq ι] in
/-- No thread is inside when the lock is free. -/
lemma Sim.not_inside (h : Sim code s a) (hfree : s.owner = none) (i : ι) (op : Op)
    (c : Code M R) : s.pc i ≠ .inside op c := by
  intro hi
  rw [h.owner i op c hi] at hfree
  cases hfree

/-- A thread gets the lock.

**Proof sketch.** The lock was free, so that no other thread is in its code. The owner has made no
access. -/
lemma Sim.acquire (h : Sim code s a) {i : ι} {op : Op} (hi : s.pc i = .waiting op)
    (hfree : s.owner = none) :
    Sim code { s with owner := some i, pc := update s.pc i (.inside op (code op)) } a where
  pc := by
    intro j
    rw [← h.update_pc i (.inside op (code op)) j]
    by_cases hji : j = i
    · subst hji
      rw [update_self, h.pc, hi]
      rfl
    · rw [update_of_ne hji]
  owner := by
    intro j op' c hj
    by_cases hji : j = i
    · rw [hji]
    · exact absurd (by simpa [hji] using hj) (h.not_inside hfree j op' c)
  inside := by
    intro j hj
    obtain rfl : i = j := Option.some.inj hj
    exact ⟨op, code op, update_self .., by rw [h.free hfree]; exact .refl⟩
  free := by
    intro hnone
    cases hnone

/-- The owner of the lock makes an access.

**Proof sketch.** The code of the owner goes on behind the access, and stands for the same as
before: its operation is performed when it is done. The other threads stay where they are. -/
lemma Sim.access (h : Sim code s a) {i : ι} {op : Op} {store : M → M} {next : M → Code M R}
    (hi : s.pc i = .inside op (.access store next)) :
    Sim code
      { s with memory := store s.memory, pc := update s.pc i (.inside op (next s.memory)) } a where
  pc := by
    intro j
    rw [← h.update_pc i (.inside op (next s.memory)) j]
    by_cases hji : j = i
    · subst hji
      rw [update_self, h.pc, hi]
      rfl
    · rw [update_of_ne hji]
  owner := by
    intro j op' c hj
    by_cases hji : j = i
    · subst hji
      exact h.owner j op _ hi
    · exact h.owner j op' c (by simpa [hji] using hj)
  inside := by
    intro j hj
    obtain rfl : i = j := Option.some.inj ((h.owner i op _ hi).symm.trans hj)
    obtain ⟨op', c, hc, hreach⟩ := h.inside i hj
    obtain ⟨rfl, rfl⟩ : op = op' ∧ Code.access store next = c := by
      rw [hi] at hc
      cases hc
      exact ⟨rfl, rfl⟩
    exact ⟨op, next s.memory, update_self .., hreach.tail (.mk store next s.memory)⟩
  free := by
    intro hnone
    exact absurd hi (h.not_inside hnone i op _)

/-- The owner of the lock gives it back, and is then outside: what it has done becomes the memory
of the atomic operations. -/
lemma Sim.leave (h : Sim code s a) {i : ι} (hi : s.owner = some i) {pc : Pc M Op R}
    (hpc : ∀ op c, pc ≠ .inside op c) :
    Sim code { s with owner := none, pc := update s.pc i pc }
      { memory := s.memory, pc := update a.pc i pc.toAtomic } where
  pc := h.update_pc i pc
  owner := by
    intro j op c hj
    by_cases hji : j = i
    · subst hji
      exact absurd (by simpa using hj) (hpc op c)
    · have howner := h.owner j op c (by simpa [hji] using hj)
      exact absurd (Option.some.inj (howner.symm.trans hi)) hji
  inside := by
    intro j hj
    cases hj
  free := fun _ => rfl

/-- **A step of the threads is a run of the threads with atomic operations.**

**Proof sketch.** A call is a call, and getting the lock and the accesses are not seen. When the
owner releases the lock, its operation is performed and returns: what is left of its code has the
effect of the whole. When the owner is killed, what it has done so far stays. -/
lemma Sim.step (hrun : ∀ op m, (code op).run m = effect op m)
    (htorn : ∀ op m c m', (code op).Reaches m c m' → torn op m m') (h : Sim code s a)
    {o : Option (Label ι Op R)} {s' : System ι M Op R} (hstep : Step code s o s') :
    ∃ a', Labelled.Runs (Atomic.Step effect torn) a o.toList a' ∧ Sim code s' a' := by
  cases hstep with
  | call i op hi =>
    have hai : a.pc i = .idle := by rw [h.pc, hi]; rfl
    exact ⟨_, .single (.call i op hai), h.outside (by simp [hi]) (by simp)⟩
  | acquire i op hi hfree => exact ⟨a, .nil, h.acquire hi hfree⟩
  | access i op store next hi => exact ⟨a, .nil, h.access hi⟩
  | release i op r hi =>
    have howner := h.owner i op _ hi
    have hai : a.pc i = .waiting op := by rw [h.pc, hi]; rfl
    obtain ⟨op', c, hc, hreach⟩ := h.inside i howner
    obtain ⟨rfl, rfl⟩ : op = op' ∧ Code.ret r = c := by
      rw [hi] at hc
      cases hc
      exact ⟨rfl, rfl⟩
    have heffect : effect op a.memory = (r, s.memory) :=
      (hrun op a.memory).symm.trans hreach.run_eq.symm
    have hperform : Atomic.Step effect torn a none
        { memory := (effect op a.memory).2, pc := update a.pc i (.done op (effect op a.memory).1) } :=
      .perform i op hai
    rw [heffect] at hperform
    refine ⟨_, (Labelled.Runs.nil.silent hperform).visible (.returns i op r (update_self ..)), ?_⟩
    rw [update_idem]
    exact h.leave howner (by simp)
  | kill i hi =>
    by_cases howner : s.owner = some i
    · obtain ⟨op, c, hc, hreach⟩ := h.inside i howner
      have hai : a.pc i = .waiting op := by rw [h.pc, hc]; rfl
      refine ⟨_, .single (.killPartway i op s.memory hai (htorn op _ _ _ hreach)), ?_⟩
      rw [if_pos howner]
      exact h.leave howner (by simp)
    · have hai : a.pc i ≠ .dead := by
        rw [h.pc]
        cases hpc : s.pc i <;> simp_all [Pc.toAtomic]
      refine ⟨_, .single (.kill i hai), ?_⟩
      rw [if_neg howner]
      refine h.outside ?_ (by simp)
      intro op c hc
      exact howner (h.owner i op c hc)

/-- **The lock makes operations atomic.** Every run of the threads is a run of the threads with
atomic operations that has the same calls, results and killed threads, and the two correspond at
the end.

**Proof sketch.** `Sim` relates the two starts and is kept by every step (`Sim.step`). -/
theorem atomic (hrun : ∀ op m, (code op).run m = effect op m)
    (htorn : ∀ op m c m', (code op).Reaches m c m' → torn op m m') {m : M}
    {ls : List (Label ι Op R)} (h : Labelled.Runs (Step code) (System.start m) ls s) :
    ∃ a, Labelled.Runs (Atomic.Step effect torn) (Atomic.start m) ls a ∧ Sim code s a := by
  have hstart : Sim code (System.start m : System ι M Op R) (Atomic.start m) :=
    { pc := fun _ => rfl
      owner := by simp [System.start]
      inside := by simp [System.start]
      free := fun _ => rfl }
  exact h.simulation hstart fun t b o u hR hu => hR.step hrun htorn hu

end Atomicity

/-! ## A thread alone -/

/-- A thread that has the lock comes to the end of its code. -/
lemma Step.runs_inside {code : Op → Code M R} {i : ι} {op : Op} (c : Code M R)
    (s : System ι M Op R) (hi : s.pc i = .inside op c) :
    Labelled.Runs (Step code) s [.returns i op (c.run s.memory).1]
      { memory := (c.run s.memory).2, owner := none, pc := Function.update s.pc i .idle } := by
  induction c generalizing s with
  | ret r => exact Labelled.Runs.nil.visible (.release i op r hi)
  | access store next ih =>
    have haccess : Labelled.Runs (Step code) s [] _ :=
      Labelled.Runs.nil.silent (.access i op store next hi)
    have hrest := haccess.append (ih s.memory _ (Function.update_self ..))
    rwa [Function.update_idem] at hrest

/-- **A call that no other thread comes between returns**, and does what its code does as a
whole. -/
lemma Step.runs_alone (code : Op → Code M R) {s : System ι M Op R} {i : ι} (op : Op)
    (hi : s.pc i = .idle) (hfree : s.owner = none) :
    Labelled.Runs (Step code) s [.call i op, .returns i op ((code op).run s.memory).1]
      { s with memory := ((code op).run s.memory).2 } := by
  have hcall : Labelled.Runs (Step code) s [.call i op] _ :=
    Labelled.Runs.nil.visible (.call i op hi)
  have hacquire := hcall.silent (.acquire i op (Function.update_self ..) hfree)
  have hrun := hacquire.append (Step.runs_inside (code op) _ (Function.update_self ..))
  have hpc : Function.update s.pc i .idle = s.pc := by
    rw [← hi]
    exact Function.update_eq_self i s.pc
  rw [Function.update_idem, Function.update_idem, hpc] at hrun
  rw [← hfree] at hrun
  exact hrun

end Locked
