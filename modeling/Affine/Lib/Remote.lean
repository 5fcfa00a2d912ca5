import Mathlib.Data.List.Basic

set_option relaxedAutoImplicit false
set_option autoImplicit false

/-!
# Requests over an unreliable link

A client sends requests to a server, one at a time, over a link that can be down, that can lose a
request before it arrives, and that can lose the reply. What the link does in an exchange is an
`Attempt`; `Remote.ask` is the exchange as the client and the server see it. An implementation of
the exchange, with its own state and its own view of the link, carries over to any number of
exchanges (`Remote.exchangeAll_refines`).

## Main definitions

* `Remote.Fate`, `Remote.Attempt` — what the link does in an exchange.
* `Remote.Peer` — the link and the server.
* `Remote.ask`, `Remote.askAll` — a request, and several.
* `Remote.exchangeAll`, `Remote.Along` — the exchanges of an implementation.

## Main results

* `Remote.exchangeAll_refines` — an implementation of one exchange is one of several.
-/

namespace Remote

/-- What becomes of an exchange on a link that is up: the request is lost, the reply is lost, or the
reply arrives. -/
inductive Fate
  | unsent
  | lost
  | answered
  deriving DecidableEq

/-- What the link does in an exchange: whether it can be set up, if it is down, and what then
becomes of the exchange. -/
structure Attempt where
  dials : Bool
  fate : Fate
  deriving DecidableEq

/-- The link and the server: whether the link is up, and the state of the server. -/
structure Peer (δ : Type) where
  up : Bool
  server : δ
  deriving DecidableEq

section Ask

variable {δ ρ α : Type} (serve : δ → ρ → α × δ)

/-- A request. The link is down behind an exchange that fails. -/
def ask (t : Attempt) (p : Peer δ) (q : ρ) : Option α × Peer δ :=
  if p.up || t.dials then
    match t.fate with
    | .unsent => (none, { p with up := false })
    | .lost => (none, ⟨false, (serve p.server q).2⟩)
    | .answered => (some (serve p.server q).1, ⟨true, (serve p.server q).2⟩)
  else (none, p)

/-- Several requests, one after the other. -/
def askAll (ts : ℕ → Attempt) (p : Peer δ) : List ρ → List (Option α) × Peer δ
  | [] => ([], p)
  | q :: qs =>
    let (x, p) := ask serve (ts 0) p q
    let (xs, p) := askAll (fun n => ts (n + 1)) p qs
    (x :: xs, p)

end Ask

section Exchange

variable {δ ρ α σ ι ε : Type} {serve : δ → ρ → α × δ}

/-- Several exchanges of an implementation. -/
def exchangeAll (exchange : ι → σ → ρ → Except ε (Option α × σ)) (lines : ℕ → ι) (s : σ) :
    List ρ → Except ε (List (Option α) × σ)
  | [] => .ok ([], s)
  | q :: qs => do
    let (x, s) ← exchange (lines 0) s q
    let (xs, s) ← exchangeAll exchange (fun n => lines (n + 1)) s qs
    return (x :: xs, s)

/-- What holds of each exchange, in the state in which it starts. -/
def Along (exchange : ι → σ → ρ → Except ε (Option α × σ)) (Meets : ι → Attempt → σ → ρ → Prop)
    (lines : ℕ → ι) (ts : ℕ → Attempt) (s : σ) : List ρ → Prop
  | [] => True
  | q :: qs => Meets (lines 0) (ts 0) s q ∧ ∀ x s', exchange (lines 0) s q = .ok (x, s') →
      Along exchange Meets (fun n => lines (n + 1)) (fun n => ts (n + 1)) s' qs

variable {exchange : ι → σ → ρ → Except ε (Option α × σ)} {Meets : ι → Attempt → σ → ρ → Prop}

/-- **An implementation of one exchange is one of several**: they return, with the replies and the
peer of the exchanges that it implements.

**Proof sketch.** Induction on the requests. -/
theorem exchangeAll_refines (abs : σ → Peer δ)
    (hexchange : ∀ line t s q, Meets line t s q → ∃ s',
      exchange line s q = .ok ((ask serve t (abs s) q).1, s') ∧
        abs s' = (ask serve t (abs s) q).2)
    {lines : ℕ → ι} {ts : ℕ → Attempt} {s : σ} {qs : List ρ}
    (h : Along exchange Meets lines ts s qs) :
    ∃ s', exchangeAll exchange lines s qs = .ok ((askAll serve ts (abs s) qs).1, s') ∧
      abs s' = (askAll serve ts (abs s) qs).2 := by
  induction qs generalizing lines ts s with
  | nil => exact ⟨s, rfl, rfl⟩
  | cons q qs ih =>
    obtain ⟨hmeets, hrest⟩ := h
    obtain ⟨s₁, hfirst, habs⟩ := hexchange _ _ _ _ hmeets
    obtain ⟨s₂, hothers, habs'⟩ := ih (hrest _ s₁ hfirst)
    refine ⟨s₂, ?_, ?_⟩
    · rw [exchangeAll, hfirst]
      change (exchangeAll exchange (fun n => lines (n + 1)) s₁ qs >>= _) = _
      rw [hothers, habs]
      rfl
    · rw [habs', habs]
      rfl

/-- What every exchange keeps is kept by several.

**Proof sketch.** Induction on the requests. -/
lemma exchangeAll_keeps {β : Type} (f : σ → β)
    (hkeep : ∀ line s q x s', exchange line s q = .ok (x, s') → f s' = f s) {lines : ℕ → ι}
    {s s' : σ} {qs : List ρ} {xs : List (Option α)}
    (h : exchangeAll exchange lines s qs = .ok (xs, s')) : f s' = f s := by
  induction qs generalizing lines s xs with
  | nil =>
    cases h
    rfl
  | cons q qs ih =>
    cases hfirst : exchange (lines 0) s q with
    | error e =>
      rw [exchangeAll, hfirst] at h
      cases h
    | ok r =>
      rw [exchangeAll, hfirst] at h
      change (exchangeAll exchange (fun n => lines (n + 1)) r.2 qs >>= _) = _ at h
      cases hothers : exchangeAll exchange (fun n => lines (n + 1)) r.2 qs with
      | error e =>
        rw [hothers] at h
        cases h
      | ok rs =>
        rw [hothers] at h
        cases h
        exact (ih hothers).trans (hkeep _ _ _ _ _ hfirst)

end Exchange

end Remote
