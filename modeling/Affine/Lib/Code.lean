import Mathlib.Data.List.FinRange
import Mathlib.Logic.Function.Basic
import Mathlib.Logic.Relation

set_option relaxedAutoImplicit false
set_option autoImplicit false

/-!
# Code on a memory

Code that reads and writes a memory access by access. As a whole it has an effect, a result and the
memory behind it; on the way, it has made some of its accesses.

## Main definitions

* `Locked.Code` — code; `Locked.Code.run` is its effect, and `Locked.Code.Reaches` is what it can
  have done on the way.
* `Locked.Code.Keeps` — every access keeps a property of the memory.
* `Locked.Field` — an array in the memory, with the code that copies it.

## Main results

* `Locked.Code.Reaches.run_eq` — what is left of the code has the effect of the whole.
* `Locked.Code.Reaches.keeps` — what every access keeps holds on the way.
* `Locked.Field.copyOut_run`, `Locked.Field.copyIn_run` — the effect of the copies.
-/

namespace Locked

/-- Code that runs under the lock: it returns, or makes one access to the memory, a store that may
be none, and goes on with what it has read. -/
inductive Code (M R : Type)
  | ret (r : R)
  | access (store : M → M) (next : M → Code M R)

namespace Code

variable {M R S : Type}

/-- One piece of code behind the other. -/
def bind : Code M R → (R → Code M S) → Code M S
  | ret r, k => k r
  | access store next, k => access store fun m => (next m).bind k

instance : Monad (Code M) where
  pure := ret
  bind := bind

/-- Read from the memory. -/
def load (f : M → R) : Code M R := access id fun m => ret (f m)

/-- Write to the memory. -/
def store (f : M → M) : Code M Unit := access f fun _ => ret ()

/-- `if let Some(x)` without an else. -/
def whenSome (x : Option R) (f : R → Code M Unit) : Code M Unit :=
  match x with
  | some r => f r
  | none => pure ()

/-- What is done for a value that is there. -/
@[simp] lemma whenSome_some (r : R) (f : R → Code M Unit) : whenSome (some r) f = f r := rfl

/-- Nothing is done without a value. -/
@[simp] lemma whenSome_none (f : R → Code M Unit) : whenSome none f = pure () := rfl

/-- The whole code at one instant: the result, and the memory behind it. -/
def run : Code M R → M → R × M
  | ret r, m => (r, m)
  | access store next, m => (next m).run (store m)

/-- A result makes no access. -/
@[simp] lemma run_pure (r : R) (m : M) : (pure r : Code M R).run m = (r, m) := rfl

/-- A load leaves the memory. -/
@[simp] lemma run_load (f : M → R) (m : M) : (load f).run m = (f m, m) := rfl

/-- A store changes the memory at once. -/
@[simp] lemma run_store (f : M → M) (m : M) : (store f).run m = ((), f m) := rfl

/-- Code behind other code runs on the memory that this leaves. -/
@[simp] lemma run_bind (c : Code M R) (k : R → Code M S) (m : M) :
    (c >>= k).run m = (k (c.run m).1).run (c.run m).2 := by
  induction c generalizing m with
  | ret r => rfl
  | access store next ih => exact ih m (store m)

/-- One access. -/
inductive Access : Code M R × M → Code M R × M → Prop
  | mk (store : M → M) (next : M → Code M R) (m : M) :
      Access (access store next, m) (next m, store m)

/-- After some accesses the rest of the code is `c'` and the memory is `m'`. -/
def Reaches (c : Code M R) (m : M) (c' : Code M R) (m' : M) : Prop :=
  Relation.ReflTransGen Access (c, m) (c', m')

/-- What is left of the code has the effect of the whole. -/
lemma Reaches.run_eq {c c' : Code M R} {m m' : M} (h : c.Reaches m c' m') :
    c'.run m' = c.run m := by
  suffices hall : ∀ p q : Code M R × M, Relation.ReflTransGen Access p q →
      q.1.run q.2 = p.1.run p.2 from hall (c, m) (c', m') h
  intro p q hpq
  induction hpq with
  | refl => rfl
  | tail _ hstep ih =>
    rw [← ih]
    cases hstep
    rfl

/-- A property of the memory that every access of the code keeps. -/
inductive Keeps (P : M → Prop) : Code M R → Prop
  | ret (r : R) : Keeps P (ret r)
  | access {store : M → M} {next : M → Code M R} (hstore : ∀ m, P m → P (store m))
      (hnext : ∀ m, P m → Keeps P (next m)) : Keeps P (access store next)

section Keeps

variable {P : M → Prop}

/-- A result keeps every property. -/
lemma Keeps.pure (r : R) : (Pure.pure r : Code M R).Keeps P := .ret r

/-- A load keeps every property. -/
lemma Keeps.load (f : M → R) : (Code.load f).Keeps P := .access (fun _ h => h) fun _ _ => .ret _

/-- A store keeps what its change of the memory keeps. -/
lemma Keeps.store {f : M → M} (h : ∀ m, P m → P (f m)) : (Code.store f).Keeps P :=
  .access h fun _ _ => .ret ()

/-- Code behind other code keeps what both keep. -/
lemma Keeps.bind {c : Code M R} {k : R → Code M S} (hc : c.Keeps P) (hk : ∀ r, (k r).Keeps P) :
    (c >>= k).Keeps P := by
  induction hc with
  | ret r => exact hk r
  | access hstore _ ih => exact .access hstore ih

end Keeps

/-- What every access keeps holds on the way, and of the rest of the code. -/
lemma Reaches.keeps {P : M → Prop} {c c' : Code M R} {m m' : M} (h : c.Reaches m c' m')
    (hc : c.Keeps P) (hm : P m) : P m' ∧ c'.Keeps P := by
  suffices hall : ∀ p q : Code M R × M, Relation.ReflTransGen Access p q →
      p.1.Keeps P ∧ P p.2 → q.1.Keeps P ∧ P q.2 from (hall (c, m) (c', m') h ⟨hc, hm⟩).symm
  intro p q hpq hp
  induction hpq with
  | refl => exact hp
  | tail _ hstep ih =>
    cases hstep with
    | mk store next m =>
      obtain ⟨hkeeps, hPm⟩ := ih
      cases hkeeps with
      | access hstore hnext => exact ⟨hnext _ hPm, hstore _ hPm⟩

/-- Code whose result is only changed at the end makes the same accesses. -/
lemma Reaches.of_map {c : Code M R} {g : R → S} {c' : Code M S} {m m' : M}
    (h : (c >>= fun r => pure (g r)).Reaches m c' m') :
    ∃ rest, c.Reaches m rest m' ∧ c' = rest >>= fun r => pure (g r) := by
  suffices hall : ∀ p q : Code M S × M, Relation.ReflTransGen Access p q →
      p = (c >>= fun r => pure (g r), m) →
      ∃ rest, c.Reaches m rest q.2 ∧ q.1 = rest >>= fun r => pure (g r) from
    hall _ (c', m') h rfl
  rintro p q hpq rfl
  induction hpq with
  | refl => exact ⟨c, .refl, rfl⟩
  | tail _ hstep ih =>
    obtain ⟨rest, hrest, heq⟩ := ih
    cases hstep with
    | mk store next m₁ =>
      cases rest with
      | ret r => cases heq
      | access store' next' =>
        cases heq
        exact ⟨next' m₁, hrest.tail (.mk store next' m₁), rfl⟩

end Code

/-! ## Arrays in the memory -/

/-- An array in the memory. -/
structure Field (M : Type) (n : ℕ) (V : Type) where
  get : M → Fin n → V
  put : (Fin n → V) → M → M
  get_put : ∀ v m, get (put v m) = v
  put_put : ∀ v w m, put v (put w m) = put v m
  put_get : ∀ m, put (get m) m = m

namespace Field

variable {M V : Type} {n : ℕ}

/-- The memory that is an array. -/
def self : Field (Fin n → V) n V where
  get := id
  put := fun v _ => v
  get_put := fun _ _ => rfl
  put_put := fun _ _ _ => rfl
  put_get := fun _ => rfl

variable (F : Field M n V)

/-- The entries are copied out of the memory into `value`, in some order. -/
def copyOut : List (Fin n) → (Fin n → V) → Code M (Fin n → V)
  | [], value => pure value
  | i :: order, value => do
    let v ← Code.load fun m => F.get m i
    copyOut order (Function.update value i v)

/-- The entries are copied into the memory, in some order. -/
def copyIn : List (Fin n) → (Fin n → V) → Code M Unit
  | [], _ => pure ()
  | i :: order, value => do
    Code.store fun m => F.put (Function.update (F.get m) i (value i)) m
    copyIn order value

/-- Copying out reads the fields that are listed, and leaves the memory. -/
lemma copyOut_run (order : List (Fin n)) (value : Fin n → V) (m : M) :
    (F.copyOut order value).run m = (fun i => if i ∈ order then F.get m i else value i, m) := by
  induction order generalizing value with
  | nil => simp [copyOut]
  | cons j order ih =>
    simp only [copyOut, Code.run_bind, Code.run_load, ih, Prod.mk.injEq, and_true]
    funext i
    by_cases hij : i = j
    · subst hij
      simp
    · simp [hij]

/-- Copying in writes the fields that are listed. -/
lemma copyIn_run (order : List (Fin n)) (value : Fin n → V) (m : M) :
    (F.copyIn order value).run m =
      ((), F.put (fun i => if i ∈ order then value i else F.get m i) m) := by
  induction order generalizing m with
  | nil => simp [copyIn, F.put_get]
  | cons j order ih =>
    simp only [copyIn, Code.run_bind, Code.run_store, ih, F.get_put, F.put_put, Prod.mk.injEq,
      true_and]
    congr 1
    funext i
    by_cases hij : i = j
    · subst hij
      simp
    · simp [hij]

/-- A copy of all entries is the array. -/
@[simp] lemma copyOut_finRange_run (value : Fin n → V) (m : M) :
    (F.copyOut (List.finRange n) value).run m = (F.get m, m) := by
  simp [copyOut_run]

/-- An array into which all entries are copied is their array. -/
@[simp] lemma copyIn_finRange_run (value : Fin n → V) (m : M) :
    (F.copyIn (List.finRange n) value).run m = ((), F.put value m) := by
  simp [copyIn_run]

/-- Copying out of the memory leaves it as it is. -/
lemma copyOut_keeps (order : List (Fin n)) (value : Fin n → V) (P : M → Prop) :
    (F.copyOut order value).Keeps P := by
  induction order generalizing value with
  | nil => exact .pure _
  | cons j order ih => exact (Code.Keeps.load _).bind fun _ => ih _

/-- Copying into the memory leaves each entry as it is or gives it its new value. -/
lemma copyIn_keeps (order : List (Fin n)) (value : Fin n → V) (m : M) :
    (F.copyIn order value).Keeps
      fun m' => ∀ i, F.get m' i = F.get m i ∨ F.get m' i = value i := by
  induction order with
  | nil => exact .pure _
  | cons j order ih =>
    refine (Code.Keeps.store ?_).bind fun _ => ih
    intro m' h i
    rw [F.get_put]
    by_cases hij : i = j
    · subst hij
      exact .inr (Function.update_self ..)
    · rw [Function.update_of_ne hij]
      exact h i

end Field

end Locked
