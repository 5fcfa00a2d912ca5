import Mathlib.Data.List.Chain
import Mathlib.Data.List.Induction

set_option relaxedAutoImplicit false
set_option autoImplicit false

/-!
# Requests that are repeated

A requester opens connections, one at a time. On each it sends a request some time behind the start,
repeats it while no answer has come, and gives it up with the first repetition that is late. The
answer may come between any two steps, so also behind the check whether it has come. A log tells
what happens on the connections, which are given by their numbers.

The requests on a connection are few, because they are far apart: if `m` of them take longer than
the time behind which a repetition is late, then there are at most `m + 1` of them. This needs no
assumption on the clock, whose readings are compared only with earlier ones that the requester has
kept.

## Main definitions

* `Retry.Timing`, `Retry.Event` — the times of a requester, and what stands in a log.
* `Retry.Bounded` — the requests of a log are few and far apart, and they come to an end.
* `Retry.State`, `Retry.Step`, `Retry.Runs` — the requester.

## Main results

* `Retry.Inv.step` — every step keeps what the requester knows of its log.
* `Retry.Runs.bounded` — every log of a requester is bounded.
-/

namespace Retry

/-- When a request may be sent: `delay` behind the start of the connection, and each repetition
`timeout` behind the request before it. A repetition later than `limit` behind the start is the last
one. -/
structure Timing where
  delay : ℕ
  timeout : ℕ
  limit : ℕ

/-- What happens on a connection, with the reading of the clock where it matters; a pass of the
requester begins. -/
inductive Event
  | connect (i t : ℕ)
  | pass
  | request (i t : ℕ)
  | answered (i : ℕ)
  | givenUp (i : ℕ)
  deriving DecidableEq

namespace Event

/-- The connection of an event. -/
def connection : Event → Option ℕ
  | connect i _ | request i _ | answered i | givenUp i => some i
  | pass => none

/-- The reading of the clock of a request on a connection. -/
def requestTime (i : ℕ) : Event → Option ℕ
  | request j t => if j = i then some t else none
  | _ => none

/-- Only a request has the time of one. -/
lemma requestTime_eq_some {e : Event} {i t : ℕ} :
    e.requestTime i = some t ↔ e = .request i t := by
  cases e with
  | request j t' =>
    rw [requestTime]
    by_cases hj : j = i
    · simp [hj]
    · simp [hj]
  | _ => simp [requestTime]

end Event

/-! ## Logs -/

/-- The readings of the clock of the requests on a connection. -/
def times (i : ℕ) (log : List Event) : List ℕ := log.filterMap (Event.requestTime i)

/-- The connection needs no more requests. -/
def Settled (i : ℕ) (log : List Event) : Prop := .answered i ∈ log ∨ .givenUp i ∈ log

/-- A pass has begun since the connection needs no more requests. -/
def Over (i : ℕ) (log : List Event) : Prop :=
  ∃ before after, log = before ++ .pass :: after ∧ Settled i before

/-- There are at most `n` requests on each connection, the first at least `delay` behind its start,
and each other one at least `timeout` behind the one before it. From the first pass on that begins
when the connection needs no more requests, there is none on it. -/
structure Bounded (n delay timeout : ℕ) (log : List Event) : Prop where
  length_le : ∀ i, (times i log).length ≤ n
  apart : ∀ i, (times i log).IsChain fun t t' => t + timeout ≤ t'
  connected : ∀ i t, .request i t ∈ log → ∃ start, .connect i start ∈ log
  delayed : ∀ i start t, .connect i start ∈ log → .request i t ∈ log → start + delay ≤ t
  ends : ∀ i before t after, log = before ++ .request i t :: after → ¬ Over i before

variable {n delay timeout i : ℕ} {log : List Event}

/-- The times of the requests in a log that goes on. -/
lemma times_append (i : ℕ) (log log' : List Event) :
    times i (log ++ log') = times i log ++ times i log' := List.filterMap_append

/-- The last event adds its time if it is a request. -/
lemma times_concat (i : ℕ) (log : List Event) (e : Event) :
    times i (log ++ [e]) = times i log ++ (e.requestTime i).toList := by
  rw [times_append]
  cases h : e.requestTime i <;> simp [times, h]

/-- An event that is no request of the session adds no time. -/
lemma times_concat_of_none {e : Event} (h : e.requestTime i = none) :
    times i (log ++ [e]) = times i log := by
  rw [times_concat, h, Option.toList_none, List.append_nil]

/-- A request counts on its own connection. -/
lemma length_times_request (i j t : ℕ) :
    (times j [.request i t]).length = if i = j then 1 else 0 := by
  by_cases hij : i = j
  · simp [times, Event.requestTime, hij]
  · simp [times, Event.requestTime, hij]

/-- The times are those of the requests in the log. -/
lemma mem_times {t : ℕ} : t ∈ times i log ↔ .request i t ∈ log := by
  simp [times, Event.requestTime_eq_some]

/-- A session is settled by an answer, or by giving up. -/
lemma settled_concat {e : Event} :
    Settled i (log ++ [e]) ↔ Settled i log ∨ e = .answered i ∨ e = .givenUp i := by
  simp only [Settled, List.mem_append, List.mem_singleton, eq_comm (b := e)]
  tauto

/-- A session that is over has been settled. -/
lemma Over.settled (h : Over i log) : Settled i log := by
  obtain ⟨before, after, rfl, hsettled⟩ := h
  exact hsettled.imp (List.mem_append_left _) (List.mem_append_left _)

/-- A session is over from the first pass on that begins when it is settled. -/
lemma over_concat {e : Event} :
    Over i (log ++ [e]) ↔ Over i log ∨ (e = .pass ∧ Settled i log) := by
  constructor
  · rintro ⟨before, after, h, hsettled⟩
    rcases after.eq_nil_or_concat with rfl | ⟨after, e', rfl⟩
    · obtain ⟨rfl, he⟩ := List.append_inj' h rfl
      exact Or.inr ⟨(List.singleton_inj.mp he), hsettled⟩
    · rw [List.concat_eq_append, ← List.cons_append, ← List.append_assoc] at h
      obtain ⟨hlog, -⟩ := List.append_inj' h rfl
      exact Or.inl ⟨before, after, hlog, hsettled⟩
  · rintro (⟨before, after, rfl, hsettled⟩ | ⟨rfl, hsettled⟩)
    · exact ⟨before, after ++ [e], by simp, hsettled⟩
    · exact ⟨log, [], rfl, hsettled⟩

/-- A bounded log may go on with this event. -/
def Allows (n delay timeout : ℕ) (log : List Event) : Event → Prop
  | .connect i _ => times i log = []
  | .request i t =>
    (times i log).length < n ∧ (∀ last ∈ (times i log).getLast?, last + timeout ≤ t) ∧
      (∃ start, .connect i start ∈ log) ∧ (∀ start, .connect i start ∈ log → start + delay ≤ t) ∧
      ¬ Over i log
  | _ => True

/-- The empty log is within the bounds. -/
lemma Bounded.nil : Bounded n delay timeout [] where
  length_le _ := Nat.zero_le n
  apart _ := .nil
  connected := nofun
  delayed := nofun
  ends i before t after h := by simp at h

/-- **A bounded log that goes on.**

**Proof sketch.** One case for each bound. What is new in it concerns the last event only, and is
what `Allows` demands. -/
lemma Bounded.concat (h : Bounded n delay timeout log) {e : Event}
    (he : Allows n delay timeout log e) : Bounded n delay timeout (log ++ [e]) := by
  constructor
  · intro i
    rw [times_concat, List.length_append]
    cases htime : e.requestTime i with
    | none => exact h.length_le i
    | some t =>
      obtain rfl := Event.requestTime_eq_some.mp htime
      exact he.1
  · intro i
    rw [times_concat]
    cases htime : e.requestTime i with
    | none =>
      rw [Option.toList_none, List.append_nil]
      exact h.apart i
    | some t =>
      obtain rfl := Event.requestTime_eq_some.mp htime
      refine List.isChain_append.mpr ⟨h.apart i, .singleton _, fun last hlast t' ht' => ?_⟩
      obtain rfl : t = t' := by simpa using ht'
      exact he.2.1 last hlast
  · intro i t ht
    rcases List.mem_append.mp ht with ht | ht
    · obtain ⟨start, hstart⟩ := h.connected i t ht
      exact ⟨start, List.mem_append_left _ hstart⟩
    · obtain rfl := List.mem_singleton.mp ht
      obtain ⟨start, hstart⟩ := he.2.2.1
      exact ⟨start, List.mem_append_left _ hstart⟩
  · intro i start t hstart ht
    rcases List.mem_append.mp hstart with hold | hnew
    · rcases List.mem_append.mp ht with hold' | hnew'
      · exact h.delayed i start t hold hold'
      · obtain rfl := List.mem_singleton.mp hnew'
        exact he.2.2.2.1 start hold
    · obtain rfl := List.mem_singleton.mp hnew
      have hnone : times i log = [] := he
      rcases List.mem_append.mp ht with hold' | hnew'
      · have hmem := mem_times.mpr hold'
        rw [hnone] at hmem
        cases hmem
      · cases List.mem_singleton.mp hnew'
  · intro i before t after hlog
    rcases after.eq_nil_or_concat with rfl | ⟨after, e', rfl⟩
    · obtain ⟨rfl, heq⟩ := List.append_inj' hlog rfl
      obtain rfl := List.singleton_inj.mp heq
      exact he.2.2.2.2
    · rw [List.concat_eq_append, ← List.cons_append, ← List.append_assoc] at hlog
      obtain ⟨hlog, -⟩ := List.append_inj' hlog rfl
      exact h.ends i before t after hlog

/-- Requests that are far apart take their time. -/
lemma isChain_length_le {ts : List ℕ} {t first : ℕ}
    (hchain : (ts ++ [t]).IsChain fun t t' => t + timeout ≤ t')
    (hfirst : ∀ t' ∈ ts ++ [t], first ≤ t') : first + timeout * ts.length ≤ t := by
  induction ts using List.reverseRecOn generalizing t with
  | nil => simpa using hfirst
  | append_singleton ts u ih =>
    obtain ⟨hchain', -, hlast⟩ := List.isChain_append.mp hchain
    have hu := ih hchain' fun t' ht' => hfirst t' (List.mem_append_left _ ht')
    have htu : u + timeout ≤ t := hlast u (by simp) t (by simp)
    rw [List.length_append, List.length_singleton, Nat.mul_succ]
    omega

/-! ## The requester -/

/-- Where a requester is: without a connection, with one that has no start yet, in its loop, between
the check for an answer and the request, or behind a late repetition. -/
inductive Stage
  | closed
  | opening
  | loop
  | asking
  | givingUp
  deriving DecidableEq

/-- A requester, with the number of its connections so far. Of the current one it knows the start,
the reading of the clock at the last request, and whether it waits for an answer. -/
structure State where
  connections : ℕ
  stage : Stage
  start : ℕ
  last : Option ℕ
  pending : Bool

namespace State

/-- A requester at its start. -/
def init (start : ℕ) (last : Option ℕ) (pending : Bool) : State where
  connections := 0
  stage := .closed
  start := start
  last := last
  pending := pending

variable (p : Timing) (s : State) (t : ℕ)

/-- A request may be sent. -/
def Due : Prop :=
  match s.last with
  | none => s.start + p.delay ≤ t
  | some last => last + p.timeout ≤ t

/-- A request is a repetition, and it is late. -/
def Late : Prop := s.last.isSome ∧ s.start + p.limit < t

instance : Decidable (s.Late p t) := inferInstanceAs (Decidable (_ ∧ _))

end State

/-- The steps of a requester, and the answers. -/
inductive Step (p : Timing) (s : State) : List Event → State → Prop
  | connect (h : s.stage = .closed) :
      Step p s [] { s with
        connections := s.connections + 1
        stage := .opening
        pending := true }
  | start (i t : ℕ) (hi : s.connections = i + 1) (h : s.stage = .opening) :
      Step p s [.connect i t] { s with stage := .loop, start := t, last := none }
  | close : Step p s [] { s with stage := .closed }
  | pass (h : s.stage = .closed ∨ s.stage = .loop) : Step p s [.pass] s
  | check (h : s.stage = .loop) (hp : s.pending = true) : Step p s [] { s with stage := .asking }
  | skip (h : s.stage = .asking) : Step p s [] { s with stage := .loop }
  | request (i t : ℕ) (hi : s.connections = i + 1) (h : s.stage = .asking) (hdue : s.Due p t) :
      Step p s [.request i t] { s with
        stage := if s.Late p t then .givingUp else .loop
        last := some t }
  | late (h : s.stage = .givingUp) (hp : s.pending = false) :
      Step p s [] { s with stage := .loop }
  | giveUp (i : ℕ) (hi : s.connections = i + 1) (h : s.stage = .givingUp) :
      Step p s [.givenUp i] { s with stage := .loop, pending := false }
  | answer (i : ℕ) (hi : s.connections = i + 1) : Step p s [.answered i] { s with pending := false }
  /-- An answer on a connection that is closed. -/
  | stray (i : ℕ) (hi : i < s.connections) (h : s.stage = .closed ∨ s.connections ≠ i + 1) :
      Step p s [.answered i] s

/-- What a requester can come to, with its log. -/
inductive Runs (p : Timing) (s : State) : List Event → State → Prop
  | refl : Runs p s [] s
  | tail {log new : List Event} {t u : State} (h : Runs p s log t) (hstep : Step p t new u) :
      Runs p s (log ++ new) u

namespace Runs

variable {p : Timing} {s t u : State} {log log' : List Event}

/-- A run of one step. -/
lemma single (h : Step p s log t) : Runs p s log t := Runs.refl.tail h

/-- The requester may give up its connection. -/
lemma close (h : Runs p s log t) : Runs p s log { t with stage := .closed } := by
  have hclose := h.tail .close
  rwa [List.append_nil] at hclose

/-- Two runs, one behind the other. -/
lemma trans (h : Runs p s log t) (h' : Runs p t log' u) : Runs p s (log ++ log') u := by
  induction h' with
  | refl => rwa [List.append_nil]
  | tail _ hstep ih =>
    rw [← List.append_assoc]
    exact ih.tail hstep

end Runs

/-- What a requester knows of the current connection. -/
structure Knows (m : ℕ) (s : State) (log : List Event) (i : ℕ) : Prop where
  settled : Settled i log → s.pending = false
  asking : s.stage = .asking → ¬ Over i log
  unsent : s.stage = .opening → times i log = [] ∧ ∀ t, .connect i t ∉ log
  sent : s.stage ≠ .opening → (times i log).getLast? = s.last ∧
    ∀ t, .connect i t ∈ log ↔ t = s.start
  few : s.pending = true ∨ s.stage = .asking → s.stage ≠ .givingUp → (times i log).length ≤ m

section Knows

variable {m : ℕ} {s : State} {e : Event}

/-- A connection that is being opened is not in the log behind an event that is no request on it and
not its start. -/
lemma Knows.unsent_concat (h : Knows m s log i) (hrequest : e.requestTime i = none)
    (hconnect : ∀ t, e ≠ .connect i t) (hopening : s.stage = .opening) :
    times i (log ++ [e]) = [] ∧ ∀ t, .connect i t ∉ log ++ [e] := by
  obtain ⟨htimes, hlog⟩ := h.unsent hopening
  refine ⟨by rw [times_concat_of_none hrequest, htimes], fun t ht => ?_⟩
  rcases List.mem_append.mp ht with hold | hnew
  · exact hlog t hold
  · exact hconnect t (List.mem_singleton.mp hnew).symm

/-- Such an event changes neither the last request nor the start. -/
lemma Knows.sent_concat (h : Knows m s log i) (hrequest : e.requestTime i = none)
    (hconnect : ∀ t, e ≠ .connect i t) (hopened : s.stage ≠ .opening) :
    (times i (log ++ [e])).getLast? = s.last ∧
      ∀ t, .connect i t ∈ log ++ [e] ↔ t = s.start := by
  obtain ⟨hlast, hstart⟩ := h.sent hopened
  refine ⟨by rw [times_concat_of_none hrequest, hlast], fun t => ?_⟩
  rw [List.mem_append, List.mem_singleton, or_iff_left (Ne.symm (hconnect t)), hstart]

end Knows

/-- The log is bounded and is about connections that were opened, and the requester knows of the
current one. -/
structure Inv (p : Timing) (m : ℕ) (s : State) (log : List Event) : Prop where
  bounded : Bounded (m + 1) p.delay p.timeout log
  old : ∀ e ∈ log, ∀ i ∈ e.connection, i < s.connections
  knows : ∀ i, s.connections = i + 1 → s.stage ≠ .closed → Knows m s log i

namespace Inv

variable {p : Timing} {m : ℕ} {s t : State} {new : List Event}

/-- The requester starts in the invariant. -/
lemma init (start : ℕ) (last : Option ℕ) (pending : Bool) :
    Inv p m (.init start last pending) [] :=
  ⟨.nil, nofun, nofun⟩

/-- Nothing has happened yet on a connection that is not open. -/
lemma fresh (h : Inv p m s log) :
    ¬ Settled s.connections log ∧ times s.connections log = [] ∧
      ∀ t, .connect s.connections t ∉ log := by
  have hnone : ∀ e ∈ log, s.connections ∉ e.connection := by
    intro e he hi
    exact lt_irrefl _ (h.old e he _ hi)
  refine ⟨?_, ?_, fun t ht => hnone _ ht rfl⟩
  · rintro (hanswered | hgivenUp)
    · exact hnone _ hanswered rfl
    · exact hnone _ hgivenUp rfl
  · rw [List.eq_nil_iff_forall_not_mem]
    intro t ht
    exact hnone _ (mem_times.mp ht) rfl

/-- A step without an event. -/
lemma silent (h : Inv p m s log) (hconnections : t.connections = s.connections)
    (hknows : ∀ i, s.connections = i + 1 → t.stage ≠ .closed → Knows m t log i) :
    Inv p m t (log ++ []) := by
  rw [List.append_nil]
  refine ⟨h.bounded, fun e he i hi => ?_, fun i hi => hknows i (hconnections ▸ hi)⟩
  rw [hconnections]
  exact h.old e he i hi

/-- A step with an event. -/
lemma event (h : Inv p m s log) {e : Event} (hconnections : t.connections = s.connections)
    (hallows : Allows (m + 1) p.delay p.timeout log e)
    (hconnection : ∀ i ∈ e.connection, i < s.connections)
    (hknows : ∀ i, s.connections = i + 1 → t.stage ≠ .closed → Knows m t (log ++ [e]) i) :
    Inv p m t (log ++ [e]) := by
  refine ⟨h.bounded.concat hallows, fun e' he' i hi => ?_, fun i hi => hknows i (hconnections ▸ hi)⟩
  rw [hconnections]
  rcases List.mem_append.mp he' with hold | hnew
  · exact h.old e' hold i hi
  · obtain rfl := List.mem_singleton.mp hnew
    exact hconnection i hi

/-- The log may go on with a request that is due.

**Proof sketch.** What the requester knows (`Knows`) is what each of the bounds demands of a
request. -/
lemma allows_request (h : Inv p m s log) {i t : ℕ} (hi : s.connections = i + 1)
    (hstage : s.stage = .asking) (hdue : s.Due p t) :
    Allows (m + 1) p.delay p.timeout log (.request i t) := by
  have hknows := h.knows i hi (by rw [hstage]; nofun)
  obtain ⟨hlast, hstart⟩ := hknows.sent (by rw [hstage]; nofun)
  have hfew := hknows.few (Or.inr hstage) (by rw [hstage]; nofun)
  unfold State.Due at hdue
  refine ⟨Nat.lt_succ_of_le hfew, ?_, ⟨s.start, (hstart _).mpr rfl⟩, fun start hconnect => ?_,
    hknows.asking hstage⟩
  · intro last hmem
    rw [hlast, Option.mem_def] at hmem
    rw [hmem] at hdue
    exact hdue
  · obtain rfl := (hstart start).mp hconnect
    cases hlast' : s.last with
    | none =>
      rw [hlast'] at hdue
      exact hdue
    | some last =>
      rw [hlast'] at hdue hlast
      have hrequest := mem_times.mp (List.mem_of_getLast? hlast)
      have hfirst := h.bounded.delayed i s.start last hconnect hrequest
      dsimp only at hdue
      omega

/-- A request that is not late is one of the first `m`: they are far apart, and the last of them is
within the limit.

**Proof sketch.** The requests before this one are `timeout` apart and all behind `delay`, so that
more of them would make this one late. -/
lemma length_le_of_early (hm : 0 < m) (hlimit : p.limit < p.delay + p.timeout * m)
    (h : Inv p m s log) {i t : ℕ} (hi : s.connections = i + 1) (hstage : s.stage = .asking)
    (hdue : s.Due p t) (hearly : ¬ s.Late p t) :
    (times i (log ++ [.request i t])).length ≤ m := by
  have hknows := h.knows i hi (by rw [hstage]; nofun)
  obtain ⟨hlast, hstart⟩ := hknows.sent (by rw [hstage]; nofun)
  have hbounded := h.bounded.concat (h.allows_request hi hstage hdue)
  rw [times_append, List.length_append, length_times_request, if_pos rfl]
  cases hlast' : s.last with
  | none =>
    rw [hlast', List.getLast?_eq_none_iff] at hlast
    rw [hlast]
    exact hm
  | some last =>
    have hintime : t ≤ s.start + p.limit := by
      by_contra hlate
      exact hearly ⟨by rw [hlast']; rfl, by omega⟩
    have hchain := hbounded.apart i
    have htimes : times i (log ++ [.request i t]) = times i log ++ [t] := by
      rw [times_concat, Event.requestTime, if_pos rfl]
      rfl
    rw [htimes] at hchain
    have hlength := isChain_length_le hchain fun t' ht' => by
      rw [← htimes] at ht'
      exact hbounded.delayed i s.start t'
        (List.mem_append_left _ ((hstart _).mpr rfl)) (mem_times.mp ht')
    have hmul : p.timeout * (times i log).length < p.timeout * m := by omega
    exact Nat.lt_of_mul_lt_mul_left hmul

/-- **A step keeps what the requester knows.**

**Proof sketch.** Behind a repetition that is not late, fewer than `m + 1` requests have been sent,
as they are far apart. Behind a late one the requester sends no other. -/
theorem step (hm : 0 < m) (hlimit : p.limit < p.delay + p.timeout * m) (h : Inv p m s log)
    (hstep : Step p s new t) : Inv p m t (log ++ new) := by
  cases hstep with
  | connect hclosed =>
    obtain ⟨hsettled, htimes, hconnect⟩ := h.fresh
    rw [List.append_nil]
    refine ⟨h.bounded, fun e he i hi => (h.old e he i hi).trans (Nat.lt_succ_self _), ?_⟩
    intro i hi _
    obtain rfl : s.connections = i := Nat.succ_injective hi
    refine ⟨fun hs => absurd hs hsettled, nofun, fun _ => ⟨htimes, hconnect⟩,
      fun hopening => absurd rfl hopening, fun _ _ => ?_⟩
    rw [htimes]
    exact Nat.zero_le m
  | start i t hi hopening =>
    have hknows := h.knows i hi (by rw [hopening]; nofun)
    obtain ⟨htimes, hconnect⟩ := hknows.unsent hopening
    refine h.event rfl htimes (by rintro j ⟨⟩; omega) fun j hj _ => ?_
    obtain rfl : i = j := by omega
    have htimes' : times i (log ++ [.connect i t]) = [] := by
      rw [times_concat_of_none rfl, htimes]
    refine ⟨fun hs => hknows.settled (by simpa [settled_concat] using hs), nofun, nofun,
      fun _ => ⟨by rw [htimes']; rfl, fun t' => by simp [hconnect]⟩, fun _ _ => ?_⟩
    rw [htimes']
    exact Nat.zero_le m
  | close => exact h.silent rfl fun i hi hclosed => absurd rfl hclosed
  | pass hstage =>
    refine h.event rfl trivial nofun fun i hi hclosed => ?_
    have hknows := h.knows i hi hclosed
    have hloop : s.stage = .loop := hstage.resolve_left hclosed
    refine ⟨fun hs => hknows.settled (by simpa [settled_concat] using hs),
      fun hasking => ?_, hknows.unsent_concat rfl nofun, hknows.sent_concat rfl nofun, ?_⟩
    · rw [hloop] at hasking
      cases hasking
    · rw [times_concat_of_none rfl]
      exact hknows.few
  | check hloop hp =>
    refine h.silent rfl fun i hi hclosed => ?_
    have hknows := h.knows i hi (by rw [hloop]; nofun)
    refine ⟨hknows.settled, fun _ hover => ?_, nofun,
      fun _ => hknows.sent (by rw [hloop]; nofun),
      fun _ _ => hknows.few (Or.inl hp) (by rw [hloop]; nofun)⟩
    rw [hknows.settled hover.settled] at hp
    cases hp
  | skip hasking =>
    refine h.silent rfl fun i hi hclosed => ?_
    have hknows := h.knows i hi (by rw [hasking]; nofun)
    exact ⟨hknows.settled, nofun, nofun, fun _ => hknows.sent (by rw [hasking]; nofun),
      fun _ _ => hknows.few (Or.inr hasking) (by rw [hasking]; nofun)⟩
  | request i t hi hasking hdue =>
    have hknows := h.knows i hi (by rw [hasking]; nofun)
    have hallows := h.allows_request hi hasking hdue
    obtain ⟨-, hstart⟩ := hknows.sent (by rw [hasking]; nofun)
    refine h.event rfl hallows (by rintro j ⟨⟩; omega) fun j hj _ => ?_
    obtain rfl : i = j := by omega
    have htimes : times i (log ++ [.request i t]) = times i log ++ [t] := by
      rw [times_concat, Event.requestTime, if_pos rfl]
      rfl
    refine ⟨fun hs => hknows.settled (by simpa [settled_concat] using hs), fun hstage => ?_,
      fun hstage => ?_, fun _ => ⟨?_, fun t' => by simpa using hstart t'⟩, fun _ hstage => ?_⟩
    · dsimp only at hstage
      split at hstage <;> cases hstage
    · dsimp only at hstage
      split at hstage <;> cases hstage
    · rw [htimes]
      exact List.getLast?_concat
    · exact h.length_le_of_early hm hlimit hi hasking hdue fun hlate => hstage (if_pos hlate)
  | late hgivingUp hp =>
    refine h.silent rfl fun i hi hclosed => ?_
    have hknows := h.knows i hi (by rw [hgivingUp]; nofun)
    refine ⟨fun _ => hp, nofun, nofun, fun _ => hknows.sent (by rw [hgivingUp]; nofun),
      fun hpending => ?_⟩
    rcases hpending with hpending | hasking
    · rw [show s.pending = true from hpending] at hp
      cases hp
    · cases hasking
  | giveUp i hi hgivingUp =>
    have hknows := h.knows i hi (by rw [hgivingUp]; nofun)
    refine h.event rfl trivial (by rintro j ⟨⟩; omega) fun j hj _ => ?_
    obtain rfl : i = j := by omega
    exact ⟨fun _ => rfl, nofun, nofun,
      fun _ => hknows.sent_concat rfl nofun (by rw [hgivingUp]; nofun), by simp⟩
  | answer i hi =>
    refine h.event rfl trivial (by rintro j ⟨⟩; omega) fun j hj hclosed => ?_
    obtain rfl : i = j := by omega
    have hknows := h.knows i hi hclosed
    refine ⟨fun _ => rfl, fun hasking => ?_, hknows.unsent_concat rfl nofun,
      hknows.sent_concat rfl nofun, fun hpending => ?_⟩
    · rw [over_concat]
      simpa using hknows.asking hasking
    · rw [times_concat_of_none rfl]
      exact hknows.few (Or.inr (hpending.resolve_left nofun))
  | stray i hi hstray =>
    refine h.event rfl trivial (by rintro j ⟨⟩; exact hi) fun j hj hclosed => ?_
    have hne : i ≠ j := by
      rintro rfl
      exact hstray.elim hclosed (absurd hj)
    have hknows := h.knows j hj hclosed
    refine ⟨fun hs => hknows.settled (by simpa [settled_concat, hne] using hs),
      fun hasking => ?_, hknows.unsent_concat rfl nofun, hknows.sent_concat rfl nofun, ?_⟩
    · rw [over_concat]
      simpa using hknows.asking hasking
    · rw [times_concat_of_none rfl]
      exact hknows.few

end Inv

section Runs

variable {p : Timing} {m : ℕ} (hm : 0 < m) (hlimit : p.limit < p.delay + p.timeout * m)
  {start : ℕ} {last : Option ℕ} {pending : Bool} {s : State}
include hm hlimit

/-- Every run keeps the invariant.

**Proof sketch.** Induction on the run, with `Inv.step` for its last step. -/
lemma Runs.inv (h : Runs p (.init start last pending) log s) : Inv p m s log := by
  induction h with
  | refl => exact .init start last pending
  | tail _ hstep ih => exact ih.step hm hlimit hstep

/-- **The requests on every connection are few and far apart, and they come to an end**: if `m` of
them take longer than the time behind which a repetition is late, there are at most `m + 1`. -/
theorem Runs.bounded (h : Runs p (.init start last pending) log s) :
    Bounded (m + 1) p.delay p.timeout log := (h.inv hm hlimit).bounded

end Runs

end Retry
