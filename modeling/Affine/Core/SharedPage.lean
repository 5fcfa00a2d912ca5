import Affine.Lib.History
import Mathlib.Data.Fintype.Basic

set_option relaxedAutoImplicit false
set_option autoImplicit false

/-!
# Shared pages

`SharedPage` (`affine-core/src/shared_memory.rs`): a value of `n` bytes in memory that several
processes have mapped, and a named mutex. `read`, `write` and `update` wait for the mutex, copy the
value byte by byte or run code on it in place, and release the mutex. `lock` does not look at what
`WaitForSingleObject` returns, so that a thread also goes on when the last owner of the mutex has
died inside, and finds the page as it was left.

## Main definitions

* `Affine.PageOp`, `Affine.PageOp.code` — the calls, and what they do under the mutex.
* `Affine.PageOp.effect` — what a call does as a whole.
* `Affine.PageOp.Torn` — what a call can leave behind if its thread dies inside.

## Main results

* `Affine.shared_page_atomic` — calls are atomic, whichever threads make them and die.
-/

namespace Affine

open Locked (Code Field)

/-- The bytes of a page. -/
abbrev PageBytes (n : ℕ) := Fin n → UInt8

/-- The calls of a page; an update has a result of its own. -/
inductive PageOp (n : ℕ) (R : Type)
  | read
  | write (value : PageBytes n)
  | update (f : Code (PageBytes n) R)

/-- What a call returns. -/
inductive PageResult (n : ℕ) (R : Type)
  | value (v : PageBytes n)
  | unit
  | result (r : R)
  deriving DecidableEq

namespace PageOp

variable {n : ℕ} {R : Type}

/-- `SharedPage::read`, `SharedPage::write` and `SharedPage::update` between `lock` and `unlock`.
`*self.view` and `*self.view = value` copy the bytes in the given order. -/
def code (order : List (Fin n)) : PageOp n R → Code (PageBytes n) (PageResult n R)
  | read => do
    let value ← Field.self.copyOut order fun _ => 0
    pure (.value value)
  | write value => do
    Field.self.copyIn order value
    pure .unit
  | update f => do
    let result ← f
    pure (.result result)

/-- What a call does as a whole: its result, and the page behind it. -/
def effect (op : PageOp n R) (page : PageBytes n) : PageResult n R × PageBytes n :=
  match op with
  | read => (.value page, page)
  | write value => (.unit, value)
  | update f => (.result (f.run page).1, (f.run page).2)

/-- What a call can make of the page if its thread dies inside. A read leaves it as it is, a write
has written some of the bytes, and an update has made some of its accesses. -/
def Torn (op : PageOp n R) (page page' : PageBytes n) : Prop :=
  match op with
  | read => page' = page
  | write value => ∀ i, page' i = page i ∨ page' i = value i
  | update f => ∃ rest, f.Reaches page rest page'

/-- The code of a call does as a whole what the call is to do. -/
lemma code_run {order : List (Fin n)} (horder : ∀ i, i ∈ order) (op : PageOp n R)
    (page : PageBytes n) : (op.code order).run page = op.effect page := by
  cases op with
  | read => simp [code, effect, Field.copyOut_run, Field.self, horder]
  | write value => simp [code, effect, Field.copyIn_run, Field.self, horder]
  | update f => simp [code, effect]

/-- What a call has done when its thread dies inside. -/
lemma torn_of_reaches {order : List (Fin n)} (op : PageOp n R) {page page' : PageBytes n}
    {rest : Code (PageBytes n) (PageResult n R)}
    (h : (op.code order).Reaches page rest page') : op.Torn page page' := by
  cases op with
  | read =>
    exact (h.keeps (P := fun page' => page' = page)
      ((Field.self.copyOut_keeps order _ _).bind fun _ => .pure _) rfl).1
  | write value =>
    exact (h.keeps ((Field.self.copyIn_keeps order value page).bind fun _ => .pure _)
      fun _ => .inl rfl).1
  | update f =>
    obtain ⟨rest, hrest, -⟩ := h.of_map
    exact ⟨rest, hrest⟩

end PageOp

/-! ## The threads -/

/-- Threads of any processes that call `read`, `write` and `update` on a page of `n` bytes. -/
abbrev SharedPage (ι : Type) (n : ℕ) (R : Type) :=
  Locked.System ι (PageBytes n) (PageOp n R) (PageResult n R)

/-- The same threads with calls that are atomic. -/
abbrev AtomicPage (ι : Type) (n : ℕ) (R : Type) :=
  Locked.Atomic ι (PageBytes n) (PageOp n R) (PageResult n R)

/-- What an observer sees of the threads. -/
abbrev PageLabel (ι : Type) (n : ℕ) (R : Type) :=
  Locked.Label ι (PageOp n R) (PageResult n R)

/-- The runs of the threads on a page. -/
abbrev SharedPage.Runs {ι : Type} [DecidableEq ι] {n : ℕ} {R : Type} (order : List (Fin n))
    (page : PageBytes n) (ls : List (PageLabel ι n R)) (s : SharedPage ι n R) : Prop :=
  Labelled.Runs (Locked.Step (PageOp.code order)) (Locked.System.start page) ls s

/-- The runs of the threads with atomic calls. -/
abbrev AtomicPage.Runs {ι : Type} [DecidableEq ι] {n : ℕ} {R : Type} (page : PageBytes n)
    (ls : List (PageLabel ι n R)) (a : AtomicPage ι n R) : Prop :=
  Labelled.Runs (Locked.Atomic.Step PageOp.effect PageOp.Torn) (Locked.Atomic.start page) ls a

variable {ι : Type} [DecidableEq ι] {n : ℕ} {R : Type}

/-- **Calls on a shared page are atomic**, whichever threads of whichever processes make them, and
wherever these die. An observer of the calls, their results and the dead threads sees what threads
with atomic calls show, and the page is theirs whenever no thread has the mutex. If a thread has
the mutex, then it is alive and has a call. And if no thread has died, then the calls have happened
one behind the other in some order, in which each result is the one of its place.

**Proof sketch.** The mutex makes sections atomic (`Locked.atomic`), and the bytes of a value are
all copied within one section (`PageOp.code_run`). Of a call whose thread died inside, some of the
bytes or accesses are left (`PageOp.torn_of_reaches`). -/
theorem shared_page_atomic {order : List (Fin n)} (horder : ∀ i, i ∈ order) {page : PageBytes n}
    {ls : List (PageLabel ι n R)} {s : SharedPage ι n R} (h : SharedPage.Runs order page ls s) :
    ∃ a : AtomicPage ι n R, AtomicPage.Runs page ls a ∧
      (s.owner = none → s.memory = a.memory) ∧
      (∀ i, s.owner = some i → ∃ op rest, s.pc i = .inside op rest) ∧
      ((∀ i, .killed i ∉ ls) →
        ∃ ops, Locked.History PageOp.effect page ls a ops) := by
  obtain ⟨a, ha, hsim⟩ := Locked.atomic (fun op page => op.code_run horder page)
    (fun op _ _ _ hreach => op.torn_of_reaches hreach) h
  refine ⟨a, ha, hsim.free, ?_, Locked.Atomic.exists_history ha⟩
  intro i hi
  obtain ⟨op, rest, hpc, -⟩ := hsim.inside i hi
  exact ⟨op, rest, hpc⟩

/-- A writer dies behind its first byte, and a reader that then gets the mutex reads what is left. -/
lemma exists_torn_run :
    ∃ s : SharedPage Bool 2 Unit, SharedPage.Runs [0, 1] (fun _ => 0)
      [.call false (.write fun _ => 1), .killed false, .call true .read,
        .returns true .read (.value fun i => if i = 0 then 1 else 0)] s := by
  have h : SharedPage.Runs [0, 1] (fun _ => 0) []
      (Locked.System.start fun _ => 0 : SharedPage Bool 2 Unit) := .nil
  have h := h.visible (.call false (.write fun _ => 1) rfl)
  have h := h.silent (.acquire false _ rfl rfl)
  have h := h.silent (.access false _ _ _ rfl)
  have h := h.visible (.kill false nofun)
  have h := h.visible (.call true .read rfl)
  have h := h.silent (.acquire true _ rfl rfl)
  have h := h.silent (.access true _ _ _ rfl)
  have h := h.silent (.access true _ _ _ rfl)
  have hread : (fun i : Fin 2 => if i = 0 then (1 : UInt8) else 0) =
      Function.update (Function.update (fun _ => 0) 0 1) 1 0 := by decide
  rw [hread]
  exact ⟨_, h.visible (.release true _ _ rfl)⟩

/-- The theorem for a run in which a writer dies inside. -/
theorem shared_page_atomic_torn :
    ∃ (ls : List (PageLabel Bool 2 Unit)) (s : SharedPage Bool 2 Unit) (a : AtomicPage Bool 2 Unit),
      .killed false ∈ ls ∧ SharedPage.Runs [0, 1] (fun _ => 0) ls s ∧
        AtomicPage.Runs (fun _ => 0) ls a := by
  obtain ⟨s, hs⟩ := exists_torn_run
  obtain ⟨a, ha, -⟩ := shared_page_atomic (by decide) hs
  exact ⟨_, s, a, by simp, hs, ha⟩

end Affine
