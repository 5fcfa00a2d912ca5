import Affine.Lib.Locked
import Mathlib.Data.List.Perm.Subperm

set_option relaxedAutoImplicit false
set_option autoImplicit false

/-!
# Histories of critical sections

Threads call operations on a memory under a lock (`Locked.System`), or atomic operations
(`Locked.Atomic`). If no thread is killed then the operations happen one behind the other in some
order: each has a call of its own, every result is the one of its place in the order, and the memory
is what the operations leave.

## Main definitions

* `Locked.History` — an order of the operations of a run.

## Main results

* `Locked.Atomic.exists_history`, `Locked.exists_history` — there is one.
-/

namespace Locked

variable {ι M Op R : Type} [DecidableEq ι]

section History

variable {effect : Op → M → R × M} {torn : Op → M → M → Prop} {ls : List (Label ι Op R)}
  {a : Atomic ι M Op R} {m₀ : M}

/-- The memory behind some operations, one behind the other. -/
def after (effect : Op → M → R × M) (m : M) (ops : List (ι × Op)) : M :=
  ops.foldl (fun m p => (effect p.2 m).2) m

omit [DecidableEq ι] in
/-- The last operation is carried out on what the others leave. -/
@[simp] lemma after_concat (m : M) (ops : List (ι × Op)) (p : ι × Op) :
    after effect m (ops ++ [p]) = (effect p.2 (after effect m ops)).2 := by
  simp [after]

/-- The operation `op` of the thread `i` has the result `r` at its place in the list. -/
def ResultIn (effect : Op → M → R × M) (m : M) (ops : List (ι × Op)) (i : ι) (op : Op) (r : R) :
    Prop :=
  ∃ pre, pre ++ [(i, op)] <+: ops ∧ r = (effect op (after effect m pre)).1

omit [DecidableEq ι] in
/-- A result that an operation can have had stays one in a longer history. -/
lemma ResultIn.concat {ops : List (ι × Op)} {i : ι} {op : Op} {r : R}
    (h : ResultIn effect m₀ ops i op r) (p : ι × Op) : ResultIn effect m₀ (ops ++ [p]) i op r := by
  obtain ⟨pre, hpre, hr⟩ := h
  exact ⟨pre, hpre.trans (List.prefix_append ops [p]), hr⟩

/-- The calls among some labels. -/
def calls (ls : List (Label ι Op R)) : List (ι × Op) :=
  ls.filterMap fun
    | .call i op => some (i, op)
    | .returns _ _ _ | .killed _ => none

omit [DecidableEq ι] in
/-- The calls of a run are those among its labels. -/
lemma mem_calls {i : ι} {op : Op} : (i, op) ∈ calls ls ↔ .call i op ∈ ls := by
  simp only [calls, List.mem_filterMap]
  constructor
  · rintro ⟨x, hx, heq⟩
    cases x with
    | call j op' =>
      cases heq
      exact hx
    | returns j op' r => cases heq
    | killed j => cases heq
  · intro h
    exact ⟨_, h, rfl⟩

omit [DecidableEq ι] in
/-- The calls of a run that goes on. -/
@[simp] lemma calls_append (ls ls' : List (Label ι Op R)) :
    calls (ls ++ ls') = calls ls ++ calls ls' := List.filterMap_append

/-- The operations of a run are those of a list: with those that are still to be performed they are
the calls, the memory is what they leave, and every result is the one of its place. -/
structure History (effect : Op → M → R × M) (m₀ : M) (ls : List (Label ι Op R))
    (a : Atomic ι M Op R) (ops : List (ι × Op)) : Prop where
  memory : a.memory = after effect m₀ ops
  called : ∃ pending, (∀ i op, (i, op) ∈ pending ↔ a.pc i = .waiting op) ∧ pending.Nodup ∧
    (ops ++ pending).Perm (calls ls)
  done : ∀ i op r, a.pc i = .done op r → ResultIn effect m₀ ops i op r
  returned : ∀ i op r, .returns i op r ∈ ls → ResultIn effect m₀ ops i op r

omit [DecidableEq ι] in
/-- Each operation of a history has a call of its own. -/
lemma History.subperm {ops : List (ι × Op)} (h : History effect m₀ ls a ops) :
    ops.Subperm (calls ls) := by
  obtain ⟨pending, -, -, hperm⟩ := h.called
  exact (List.sublist_append_left ops pending).subperm.trans hperm.subperm

omit [DecidableEq ι] in
/-- Every operation of a history was called. -/
lemma History.call_mem {ops : List (ι × Op)} (h : History effect m₀ ls a ops) {i : ι} {op : Op}
    (hop : (i, op) ∈ ops) : .call i op ∈ ls := mem_calls.mp (h.subperm.subset hop)

/-- A thread that is not waiting changes where it is, but not to waiting. -/
lemma waiting_update {pc : ι → AtomicPc Op R} {i : ι} {x : AtomicPc Op R}
    (hi : ∀ op, pc i ≠ .waiting op) (hx : ∀ op, x ≠ .waiting op) (j : ι) (op : Op) :
    Function.update pc i x j = .waiting op ↔ pc j = .waiting op := by
  by_cases hji : j = i
  · subst hji
    rw [Function.update_self]
    exact ⟨fun h => absurd h (hx op), fun h => absurd h (hi op)⟩
  · rw [Function.update_of_ne hji]

section Step

open Function

variable {ops : List (ι × Op)} {i : ι} {op : Op}

/-- A call is to be performed.

**Proof sketch.** The operation comes to the pending ones; nothing is performed. -/
lemma History.call (h : History effect m₀ ls a ops) (hi : a.pc i = .idle) :
    History effect m₀ (ls ++ [.call i op]) { a with pc := update a.pc i (.waiting op) } ops where
  memory := h.memory
  called := by
    obtain ⟨pending, hmem, hnodup, hperm⟩ := h.called
    have hnew : ∀ op', (i, op') ∉ pending := by
      intro op' hop'
      rw [hmem, hi] at hop'
      cases hop'
    refine ⟨pending ++ [(i, op)], ?_, ?_, ?_⟩
    · intro j op'
      by_cases hji : j = i
      · subst hji
        simp [hnew, eq_comm]
      · simp [hmem, hji]
    · exact hnodup.append (List.nodup_singleton _) (by simpa using hnew op)
    · rw [← List.append_assoc, calls_append]
      exact hperm.append (.refl _)
  done := by
    intro j op' r hj
    rcases eq_of_update hj with ⟨-, hop⟩ | hj
    · cases hop
    · exact h.done j op' r hj
  returned := by
    intro j op' r hj
    exact h.returned j op' r (by simpa using hj)

/-- An operation is performed.

**Proof sketch.** The operation moves from the pending ones to the end of the list. The others keep
their places, so their results stay. -/
lemma History.perform (h : History effect m₀ ls a ops) (hi : a.pc i = .waiting op) :
    History effect m₀ ls
      { memory := (effect op a.memory).2, pc := update a.pc i (.done op (effect op a.memory).1) }
      (ops ++ [(i, op)]) where
  memory := by rw [after_concat, ← h.memory]
  called := by
    obtain ⟨pending, hmem, hnodup, hperm⟩ := h.called
    obtain ⟨l₁, l₂, rfl⟩ := List.append_of_mem ((hmem i op).mpr hi)
    have hmiddle := List.nodup_middle.mp hnodup
    have hnew : ∀ op', (i, op') ∉ l₁ ++ l₂ := by
      intro op' hop'
      have hwaiting := (hmem i op').mp (by simp at hop' ⊢; tauto)
      obtain rfl : op = op' := by simpa [hi] using hwaiting
      exact (List.nodup_cons.mp hmiddle).1 hop'
    refine ⟨l₁ ++ l₂, ?_, (List.nodup_cons.mp hmiddle).2, ?_⟩
    · intro j op'
      by_cases hji : j = i
      · subst hji
        simpa using hnew op'
      · dsimp only
        rw [update_of_ne hji, ← hmem]
        simp [hji]
    · have hmove : (l₁ ++ (i, op) :: l₂).Perm ([(i, op)] ++ (l₁ ++ l₂)) := List.perm_middle
      rw [List.append_assoc]
      exact (hmove.symm.append_left ops).trans hperm
  done := by
    intro j op' r hj
    rcases eq_of_update hj with ⟨rfl, hop⟩ | hj
    · cases hop
      exact ⟨ops, List.prefix_rfl, by rw [h.memory]⟩
    · exact (h.done j op' r hj).concat (i, op)
  returned := by
    intro j op' r hj
    exact (h.returned j op' r hj).concat (i, op)

/-- An operation that is performed returns. -/
lemma History.returns {r : R} (h : History effect m₀ ls a ops) (hi : a.pc i = .done op r) :
    History effect m₀ (ls ++ [.returns i op r]) { a with pc := update a.pc i .idle } ops where
  memory := h.memory
  called := by
    obtain ⟨pending, hmem, hnodup, hperm⟩ := h.called
    refine ⟨pending, ?_, hnodup, by simpa [calls] using hperm⟩
    intro j op'
    rw [waiting_update (by simp [hi]) (by simp), hmem]
  done := by
    intro j op' r' hj
    rcases eq_of_update hj with ⟨-, hop⟩ | hj
    · cases hop
    · exact h.done j op' r' hj
  returned := by
    intro j op' r' hj
    rcases List.mem_append.mp hj with hj | hj
    · exact h.returned j op' r' hj
    · obtain ⟨rfl, rfl, rfl⟩ : j = i ∧ op' = op ∧ r' = r := by simpa using hj
      exact h.done j op' r' hi

end Step

/-- A step of a thread that is not killed adds at most its operation to the list. -/
lemma History.step {ops : List (ι × Op)} (h : History effect m₀ ls a ops)
    {o : Option (Label ι Op R)} {a' : Atomic ι M Op R} (hstep : Atomic.Step effect torn a o a')
    (ho : ∀ i, .killed i ∉ ls ++ o.toList) :
    ∃ ops', History effect m₀ (ls ++ o.toList) a' ops' := by
  cases hstep with
  | call i op hi => exact ⟨ops, h.call hi⟩
  | perform i op hi =>
    rw [Option.toList_none, List.append_nil]
    exact ⟨_, h.perform hi⟩
  | returns i op r hi => exact ⟨ops, h.returns hi⟩
  | kill i _ => exact absurd (by simp) (ho i)
  | killPartway i _ _ _ _ => exact absurd (by simp) (ho i)

/-- **Threads that are not killed have a history.** If the operations are atomic and no thread is
killed, then they happen one behind the other in some order, in which every result is the one that
its operation has at its place, and that leaves the memory as it is.

**Proof sketch.** Induction on the run; the history grows when an operation is performed. -/
theorem Atomic.exists_history (h : Labelled.Runs (Atomic.Step effect torn) (Atomic.start m₀) ls a)
    (hkilled : ∀ i, .killed i ∉ ls) : ∃ ops, History effect m₀ ls a ops := by
  have hinv : (∀ i, .killed i ∉ ls) → ∃ ops, History effect m₀ ls a ops := by
    refine h.invariant (P := fun ls a => (∀ i, .killed i ∉ ls) → ∃ ops, History effect m₀ ls a ops)
      ?_ ?_
    · intro _
      exact ⟨[], rfl, ⟨[], by simp [Atomic.start], List.nodup_nil, .refl _⟩,
        by simp [Atomic.start], by simp⟩
    · intro ls t o u ih hu ho
      obtain ⟨ops, hops⟩ := ih fun i hi => ho i (List.mem_append_left _ hi)
      exact hops.step hu ho
  exact hinv hkilled

/-- **Threads with a lock have a history**, if none of them is killed.

**Proof sketch.** The lock makes their operations atomic (`atomic`), and those have one
(`Atomic.exists_history`). -/
theorem exists_history {code : Op → Code M R} (hrun : ∀ op m, (code op).run m = effect op m)
    {s : System ι M Op R} (h : Labelled.Runs (Step code) (System.start m₀) ls s)
    (hkilled : ∀ i, .killed i ∉ ls) :
    ∃ (a : Atomic ι M Op R) (ops : List (ι × Op)), History effect m₀ ls a ops ∧ Sim code s a := by
  obtain ⟨a, ha, hsim⟩ := atomic hrun (fun op m c m' hreach => ⟨c, hreach⟩ :
    ∀ op m c m', (code op).Reaches m c m' → ∃ c, (code op).Reaches m c m') h
  obtain ⟨ops, hops⟩ := Atomic.exists_history ha hkilled
  exact ⟨a, ops, hops, hsim⟩

end History

end Locked
