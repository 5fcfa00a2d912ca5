import Mathlib.Data.List.DropRight

set_option relaxedAutoImplicit false
set_option autoImplicit false

/-!
# Logs

A log is a list of entries, the oldest first. Two questions about it come up for the commands
that were sent over a connection: what is the last entry of a kind, and which entries stand
behind that one.

## Main definitions

* `Log.last` — the last entry of a kind.
* `Log.since` — the entries behind the last one of a kind.
-/

namespace Log

variable {α : Type} (kind : α → Bool)

/-- The last entry of a kind. -/
def last (log : List α) : Option α := (log.filter kind).getLast?

/-- The entries behind the last one of a kind: all entries, if none is of the kind. -/
def since (log : List α) : List α := log.rtakeWhile fun x => !kind x

variable {kind} {log new : List α}

/-- The last entry of a kind is the new one, or the one before. -/
lemma last_concat (x : α) : last kind (log ++ [x]) = if kind x then some x else last kind log := by
  rw [last, List.filter_append]
  by_cases hx : kind x
  · rw [if_pos hx, List.filter_singleton, hx]
    exact List.getLast?_concat
  · rw [if_neg hx, List.filter_singleton, Bool.eq_false_iff.mpr hx]
    simp [last]

/-- The last entry of a kind is among the new ones, or else among the old ones. -/
lemma last_append : last kind (log ++ new) = (last kind new).or (last kind log) := by
  rw [last, List.filter_append, List.getLast?_append]
  rfl

/-- Entries of other kinds stand behind the last one of the kind. -/
lemma since_append (h : ∀ x ∈ new, kind x = false) :
    since kind (log ++ new) = since kind log ++ new := by
  induction new using List.reverseRecOn with
  | nil => simp
  | append_singleton new x ih =>
    have hx : (!kind x) = true := by rw [h x (by simp)]; rfl
    have ih := ih fun y hy => h y (by simp [hy])
    rw [since] at ih ⊢
    rw [← List.append_assoc, List.rtakeWhile_concat_pos (fun x => !kind x) _ x hx, ih,
      List.append_assoc]

/-- The entries behind the last one of a kind are entries of the log. -/
lemma mem_of_mem_since {x : α} (hx : x ∈ since kind log) : x ∈ log :=
  (List.rtakeWhile_suffix _ _).subset hx

/-- If one of the kind is among the entries from `n` on, then so are all behind the last one.

**Proof sketch.** Induction on the entries, from behind. -/
lemma mem_drop_of_mem_since {x : α} {n : ℕ} (hx : x ∈ since kind log)
    (h : ∃ y ∈ log.drop n, kind y) : x ∈ log.drop n := by
  induction log using List.reverseRecOn with
  | nil => simp [since] at hx
  | append_singleton log y ih =>
    by_cases hn : n ≤ log.length
    · rw [List.drop_append_of_le_length hn] at h ⊢
      by_cases hy : kind y
      · rw [since, List.rtakeWhile_concat_neg (fun x => !kind x) _ y (by simp [hy])] at hx
        simp at hx
      · rw [since_append (by simpa using hy), List.mem_append] at hx
        obtain ⟨z, hz, hkind⟩ := h
        rcases hx with hx | hx
        · refine List.mem_append_left _ (ih hx ⟨z, ?_, hkind⟩)
          rcases List.mem_append.mp hz with hz | hz
          · exact hz
          · obtain rfl := List.mem_singleton.mp hz
            exact absurd hkind hy
        · exact List.mem_append_right _ hx
    · rw [List.drop_eq_nil_of_le (by simp; omega)] at h
      simp at h

end Log
