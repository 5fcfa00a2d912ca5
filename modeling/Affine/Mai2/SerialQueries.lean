import Affine.Mai2.ClosedSession
import Affine.Mai2.Queries

set_option relaxedAutoImplicit false
set_option autoImplicit false

/-!
# Queries on the serial link

The queries of `device_thread` (`affine-mai2/src/lib.rs`), one session after the other. The answer
comes through the reader thread, between any two accesses of the device thread to the flags of the
session. A reader of a closed session may still receive one, but stores to its own session.

## Main definitions

* `Affine.SerialRace.asker` — the device thread as a requester.
* `Affine.SerialRace.Runs` — runs of the threads, with their logs.
* `Affine.SerialRace.Holds` — what the device thread relies on.

## Main results

* `Affine.SerialRace.Holds.deviceStep`, `Affine.SerialRace.Holds.readerStep` — the steps.
* `Affine.SerialRace.Runs.simulates` — the device thread is a requester.
-/

namespace Affine

/-! ## The device thread -/

namespace DevicePc

/-- The session that the loop works on. -/
def session : DevicePc → Option ℕ
  | opened i | checkActive i | checkFailed i | heartbeat i | boardInfo i | query i | giveUp i
  | clearPending i | setLogged i | checkTouch i | leds i _ _ => some i
  | _ => none

/-- Where the loop is as a requester, with a session. -/
def stage : DevicePc → Retry.Stage
  | opened _ => .opening
  | query _ => .asking
  | giveUp _ | clearPending _ => .givingUp
  | _ => .loop

end DevicePc

namespace SerialRace

/-- Where the device thread is as a requester. -/
def stage (s : SerialRace) : Retry.Stage :=
  if s.thread.session.isSome then s.thread.pc.stage else .closed

/-- The device thread as a requester. -/
def asker (s : SerialRace) : Retry.State := s.thread.vars.asker s.readers.length s.stage

/-- The number of queries that a session has carried. -/
def queries (s : SerialRace) (i : ℕ) : ℕ := serialWire.queries (s.session i)

/-- What a step of the device thread adds to the log: a pass begins, a session has its start, a
query is written, or it is given up. -/
def deviceEvents (s : SerialRace) (tick : SerialTick) (t : SerialRace) : List Retry.Event :=
  match s.thread.pc with
  | .top => [.pass]
  | .opened i => [.connect i tick.boardInfoMs.toNat]
  | .query i => if t.queries i = s.queries i then [] else [.request i tick.now.toNat]
  | .clearPending i => [.givenUp i]
  | _ => []

/-- What a step of a reader adds to the log: it has received board information. -/
def readerEvents (s : SerialRace) (i : ℕ) : List Retry.Event :=
  match s.readers[i]? with
  | some ⟨.serving _ (.boardInfo _ :: _), _⟩ => [.answered i]
  | _ => []

/-- What the threads can come to in any interleaving, with the log. -/
inductive Runs (s : SerialRace) : List Retry.Event → SerialRace → Prop
  | refl : Runs s [] s
  | device {log : List Retry.Event} {t : SerialRace} (h : Runs s log t) (tick : SerialTick)
      (u : SerialRace) (hstep : t.deviceStep tick = some u) :
      Runs s (log ++ t.deviceEvents tick u) u
  | reader {log : List Retry.Event} {t : SerialRace} (h : Runs s log t) (i : ℕ)
      (read : PortRead 256) (now : UInt64) (u : SerialRace)
      (hstep : t.readerStep i read now = some u) : Runs s (log ++ t.readerEvents i) u
  | hid {log : List Retry.Event} {t : SerialRace} (h : Runs s log t) (r : HidRace)
      (hstep : t.hidRace.Step r) : Runs s log { t with device := r.device, hid := r.pc }
  | output {log : List Retry.Event} {t : SerialRace} (h : Runs s log t) (page : Mai2OutputPage) :
      Runs s log { t with device := { t.device with outputPage := page } }

variable {s t : SerialRace} {i : ℕ}

/-- Every interleaving has its log. -/
lemma reaches_iff_runs : s.Reaches t ↔ ∃ log, s.Runs log t := by
  constructor
  · intro h
    induction h with
    | refl => exact ⟨[], .refl⟩
    | tail _ hstep ih =>
      obtain ⟨log, h⟩ := ih
      cases hstep with
      | device tick _ hstep => exact ⟨_, h.device tick _ hstep⟩
      | reader i read now _ hstep => exact ⟨_, h.reader i read now _ hstep⟩
      | hid r hstep => exact ⟨_, h.hid r hstep⟩
      | output page => exact ⟨_, h.output page⟩
  · rintro ⟨log, h⟩
    induction h with
    | refl => exact .refl
    | device _ tick u hstep ih => exact ih.tail (.device tick u hstep)
    | reader _ i read now u hstep ih => exact ih.tail (.reader i read now u hstep)
    | hid _ r hstep ih => exact ih.tail (.hid r hstep)
    | output _ page ih => exact ih.tail (.output page)

/-- What the device thread relies on: it works on the session it has, which is the last one that was
opened, and board information that is in the log, or about to be, is not waited for. -/
structure Holds (s : SerialRace) : Prop where
  pc : ∀ i, s.thread.pc.session = some i → s.thread.session = some i
  last : ∀ i, s.thread.session = some i → s.readers.length = i + 1
  length : s.sessions.length = s.readers.length
  logged : s.thread.vars.boardInfoLogged = true → s.thread.vars.boardInfoPending = false
  setLogged : ∀ i, s.thread.pc = .setLogged i → s.thread.vars.boardInfoPending = false
  logging : ∀ i bytes frames rx, s.readers[i]? = some ⟨.logging bytes frames, rx⟩ →
    s.thread.session = some i → s.thread.vars.boardInfoPending = false

/-- A step of the serial threads is a run of the requester. -/
structure Simulates (s : SerialRace) (events : List Retry.Event) (t : SerialRace) : Prop where
  holds : t.Holds
  runs : Retry.Runs boardInfoTiming s.asker events t.asker
  queries : ∀ i, t.queries i = s.queries i + (Retry.times i events).length

/-- A step that leaves the sessions, the readers and the flags. -/
lemma Holds.keep (h : s.Holds) (hsession : t.thread.session = s.thread.session)
    (hreaders : t.readers = s.readers) (hlength : t.sessions.length = s.sessions.length)
    (hpending : t.thread.vars.boardInfoPending = s.thread.vars.boardInfoPending)
    (hlogged : t.thread.vars.boardInfoLogged = s.thread.vars.boardInfoLogged)
    (hpc : ∀ i, t.thread.pc.session = some i → s.thread.session = some i)
    (hset : ∀ i, t.thread.pc = .setLogged i → s.thread.vars.boardInfoPending = false) :
    t.Holds := by
  refine ⟨fun i hi => ?_, fun i hi => ?_, ?_, ?_, fun i hi => ?_, ?_⟩
  · rw [hsession]
    exact hpc i hi
  · rw [hreaders]
    exact h.last i (hsession ▸ hi)
  · rw [hlength, hreaders]
    exact h.length
  · rw [hpending, hlogged]
    exact h.logged
  · rw [hpending]
    exact hset i hi
  · intro i bytes frames rx hr hi
    rw [hpending]
    rw [hreaders] at hr
    rw [hsession] at hi
    exact h.logging i bytes frames rx hr hi

/-- The queries of a session that was stored. -/
lemma queries_setSession (hi : i < s.sessions.length) (session : SerialSession) :
    (s.setSession i session).queries i = serialWire.queries session := by
  simp [queries, SerialRace.session, setSession, hi]

/-- A store leaves the queries of the other sessions. -/
lemma queries_setSession_ne {j : ℕ} (hij : j ≠ i) (session : SerialSession) :
    (s.setSession i session).queries j = s.queries j := by
  unfold queries SerialRace.session setSession
  rw [List.getD_eq_getElem?_getD, List.getElem?_set_ne hij.symm, List.getD_eq_getElem?_getD]

/-- What a step does that sends no query: it leaves the sessions, the readers and the variables of
the queries. -/
structure Quiet (s t : SerialRace) : Prop where
  session : t.thread.session = s.thread.session
  query : t.thread.vars.query = s.thread.vars.query
  readers : t.readers = s.readers
  length : t.sessions.length = s.sessions.length
  queries : ∀ i, t.queries i = s.queries i

namespace Quiet

/-- The device thread goes on. -/
lemma goto (s : SerialRace) (pc : DevicePc) : Quiet s (s.goto pc) :=
  ⟨rfl, rfl, rfl, rfl, fun _ => rfl⟩

/-- A store to a session that leaves the queries it has carried. -/
lemma setSession (s : SerialRace) (i : ℕ) (session : SerialSession)
    (h : serialWire.queries session = s.queries i) : Quiet s (s.setSession i session) := by
  refine ⟨rfl, rfl, rfl, List.length_set, fun j => ?_⟩
  by_cases hij : j = i
  · subst hij
    by_cases hj : j < s.sessions.length
    · rw [queries_setSession hj, h]
    · rw [SerialRace.setSession, List.set_eq_of_length_le (by omega)]
  · exact queries_setSession_ne hij session

variable (h : Quiet s t)
include h

/-- Two quiet steps, one behind the other. -/
lemma trans {u : SerialRace} (h' : Quiet t u) : Quiet s u :=
  ⟨h'.session.trans h.session, h'.query.trans h.query, h'.readers.trans h.readers,
    h'.length.trans h.length, fun i => (h'.queries i).trans (h.queries i)⟩

/-- A quiet step leaves the requester in its stage. -/
lemma asker (hstage : t.stage = s.stage) : t.asker = s.asker := by
  rw [SerialRace.asker, SerialRace.asker, h.readers, hstage]
  exact LoopVars.asker_of_query h.query

/-- A quiet step keeps what the device thread relies on. -/
lemma holds (hholds : s.Holds)
    (hpc : ∀ i, t.thread.pc.session = some i → s.thread.session = some i)
    (hset : ∀ i, t.thread.pc = .setLogged i → s.thread.vars.boardInfoPending = false) :
    t.Holds := by
  have hquery := h.query
  simp only [LoopVars.query, Prod.mk.injEq] at hquery
  obtain ⟨-, -, hpending, hlogged⟩ := hquery
  exact hholds.keep h.session h.readers h.length hpending hlogged hpc hset

/-- A step that adds nothing to the log. -/
lemma simulates (hholds : s.Holds)
    (hpc : ∀ i, t.thread.pc.session = some i → s.thread.session = some i)
    (hset : ∀ i, t.thread.pc = .setLogged i → s.thread.vars.boardInfoPending = false)
    (hstage : t.thread.pc.stage = s.thread.pc.stage) :
    Simulates s [] t := by
  have hasker := h.asker (by rw [stage, stage, h.session, hstage])
  exact ⟨h.holds hholds hpc hset, hasker ▸ .refl, h.queries⟩

end Quiet

section Section

variable {commands : Link SerialSession → Except (Link SerialSession) (Link SerialSession)}
  {link : Link SerialSession}

/-- A section that succeeds. -/
lemma runSection_ok (h : commands ⟨s.session i, s.thread.vars⟩ = .ok link) (next : DevicePc) :
    s.runSection i commands next = { s.setSession i link.conn with
      thread := { s.thread with vars := link.vars, pc := next } } := by
  rw [runSection, h]

/-- A section that fails gives up the session. -/
lemma runSection_error (h : commands ⟨s.session i, s.thread.vars⟩ = .error link)
    (next : DevicePc) : s.runSection i commands next = { s.setSession i link.conn with
      thread := { s.thread with vars := link.vars, pc := .takeSession } } := by
  rw [runSection, h]

end Section

/-- A section that sends no query. -/
lemma Quiet.runSection (s : SerialRace) (i : ℕ)
    {commands : Link SerialSession → Except (Link SerialSession) (Link SerialSession)}
    (hkeeps : ∀ l, Link.KeepsQueries serialWire l (Link.behind (commands l))) (next : DevicePc) :
    Quiet s (s.runSection i commands next) ∧
      ((s.runSection i commands next).thread.pc = next ∨
        (s.runSection i commands next).thread.pc = .takeSession) := by
  have hlink := hkeeps ⟨s.session i, s.thread.vars⟩
  have hstore := Quiet.setSession s i _ hlink.queries
  cases hcommands : commands ⟨s.session i, s.thread.vars⟩ with
  | ok link =>
    rw [hcommands] at hlink hstore
    rw [runSection_ok hcommands]
    exact ⟨⟨rfl, hlink.query, rfl, hstore.length, hstore.queries⟩, Or.inl rfl⟩
  | error link =>
    rw [hcommands] at hlink hstore
    rw [runSection_error hcommands]
    exact ⟨⟨rfl, hlink.query, rfl, hstore.length, hstore.queries⟩, Or.inr rfl⟩

/-- A section that sends no query, as a step.

**Proof sketch.** The section goes on within the loop, or to `disconnect_session`; in both cases
nothing is asked. -/
lemma Holds.runSection (h : s.Holds) {i : ℕ} (hi : s.thread.pc.session = some i)
    (hstage : s.thread.pc.stage = .loop)
    {commands : Link SerialSession → Except (Link SerialSession) (Link SerialSession)}
    (hkeeps : ∀ l, Link.KeepsQueries serialWire l (Link.behind (commands l))) {next : DevicePc}
    (hnext : next.session = some i) (hnext' : next.stage = .loop) (hset : next ≠ .setLogged i) :
    Simulates s [] (s.runSection i commands next) := by
  obtain ⟨hquiet, hpc⟩ := Quiet.runSection s i hkeeps next
  have hsession := h.pc i hi
  rcases hpc with hpc | hpc
  · refine hquiet.simulates h (fun j hj => ?_) (fun j hj => ?_) (by rw [hpc, hnext', hstage])
    · rw [hpc, hnext] at hj
      rw [← hj]
      exact hsession
    · rw [hpc] at hj
      rw [hj] at hnext
      obtain rfl : j = i := Option.some.inj hnext
      exact absurd hj hset
  · refine hquiet.simulates h (fun j hj => ?_) (fun j hj => ?_) (by rw [hpc, hstage]; rfl)
    · rw [hpc] at hj
      cases hj
    · rw [hpc] at hj
      cases hj

/-- The device thread goes on. -/
lemma Holds.goto (h : s.Holds) {pc : DevicePc}
    (hpc : ∀ i, pc.session = some i → s.thread.session = some i)
    (hset : ∀ i, pc = .setLogged i → s.thread.vars.boardInfoPending = false)
    (hstage : pc.stage = s.thread.pc.stage) : Simulates s [] (s.goto pc) :=
  (Quiet.goto s pc).simulates h hpc hset hstage

/-- A step within a session. -/
lemma runs_of_step {events : List Retry.Event} (hsession : s.thread.session = some i)
    (hsession' : t.thread.session = some i) (hreaders : t.readers.length = s.readers.length)
    (h : Retry.Step boardInfoTiming (s.thread.vars.asker s.readers.length s.thread.pc.stage) events
      (t.thread.vars.asker s.readers.length t.thread.pc.stage)) :
    Retry.Runs boardInfoTiming s.asker events t.asker := by
  rw [asker, asker, stage, stage, hsession, hsession', hreaders]
  exact .single h

/-- A query that is stored in a session is in the log. -/
lemma queries_sent {session : SerialSession}
    (h : (s.setSession i session).queries i = s.queries i + 1) (j t : ℕ) :
    (s.setSession i session).queries j =
      s.queries j + (Retry.times j [.request i t]).length := by
  by_cases hij : j = i
  · subst hij
    rw [h, Retry.length_times_request, if_pos rfl]
  · rw [queries_setSession_ne hij, Retry.length_times_request, if_neg (Ne.symm hij)]
    rfl

/-- A query is not sent: it is not due, or its write fails.

**Proof sketch.** The thread was about to ask; the requester goes back to its loop. -/
lemma Holds.skipQuery (h : s.Holds) (hpc : s.thread.pc = .query i) (tick : SerialTick)
    (hquiet : Quiet s t) (hnext : t.thread.pc = .takeSession ∨ t.thread.pc = .checkTouch i) :
    Simulates s (s.deviceEvents tick t) t := by
  have hsession := h.pc i (by rw [hpc]; rfl)
  have hasking : s.stage = .asking := by
    rw [stage, hsession, hpc]
    rfl
  have hevents : s.deviceEvents tick t = [] := by
    rw [deviceEvents, hpc]
    exact if_pos (hquiet.queries i)
  have hloop : t.stage = .loop := by
    rw [stage, hquiet.session, hsession]
    rcases hnext with hnext | hnext <;> rw [hnext] <;> rfl
  have hasker : t.asker = { s.asker with stage := .loop } := by
    rw [asker, hloop, hquiet.readers]
    exact LoopVars.asker_of_query hquiet.query
  rw [hevents]
  refine ⟨hquiet.holds h (fun j hj => ?_) (fun j hj => ?_), ?_, hquiet.queries⟩
  · rcases hnext with hnext | hnext <;> rw [hnext] at hj <;> cases hj
    exact hsession
  · rcases hnext with hnext | hnext <;> rw [hnext] at hj <;> cases hj
  · rw [hasker]
    exact .single (.skip hasking)

/-- **A query is sent** if it is due, and is given up if it is late.

**Proof sketch.** The cases are the results of the section. If it fails or is not due, nothing is
asked; otherwise one query more is in the session, and it is the request of the requester. -/
lemma Holds.query (h : s.Holds) {i : ℕ} (hpc : s.thread.pc = .query i) (tick : SerialTick) :
    Simulates s (s.deviceEvents tick (s.runSection i (·.sendQuery serialWire tick.takes tick.now)
        (if s.thread.vars.QueryLate tick.now then .giveUp i else .checkTouch i)))
      (s.runSection i (·.sendQuery serialWire tick.takes tick.now)
        (if s.thread.vars.QueryLate tick.now then .giveUp i else .checkTouch i)) := by
  have hsession := h.pc i (by rw [hpc]; rfl)
  have hlast := h.last i hsession
  have hi : i < s.sessions.length := by rw [h.length, hlast]; exact Nat.lt_succ_self i
  have hspec := Link.sendQuery_spec serialWire tick.takes tick.now ⟨s.session i, s.thread.vars⟩
  cases hsend : Link.sendQuery serialWire tick.takes tick.now ⟨s.session i, s.thread.vars⟩ with
  | error link =>
    rw [hsend] at hspec
    have hstore := Quiet.setSession s i _ hspec.queries
    rw [runSection_error hsend]
    exact h.skipQuery hpc tick ⟨rfl, hspec.query, rfl, hstore.length, hstore.queries⟩
      (Or.inl rfl)
  | ok link =>
    rw [hsend] at hspec
    rw [runSection_ok hsend]
    rcases hspec with ⟨hdue, hvars, hqueries⟩ | ⟨hnot, rfl⟩
    · have hself := queries_setSession hi link.conn
      rw [hqueries] at hself
      have hone := fun j => queries_sent hself j tick.now.toNat
      have hne : (s.setSession i link.conn).queries i ≠ s.queries i := by
        rw [hself]
        exact Nat.succ_ne_self _
      have hevents : ∀ pc, s.deviceEvents tick { s.setSession i link.conn with
          thread := { s.thread with vars := link.vars, pc := pc } } =
            [.request i tick.now.toNat] := by
        intro pc
        rw [deviceEvents, hpc]
        exact if_neg hne
      have hflags : link.vars.boardInfoPending = s.thread.vars.boardInfoPending ∧
          link.vars.boardInfoLogged = s.thread.vars.boardInfoLogged := by
        rw [hvars]
        exact ⟨rfl, rfl⟩
      rw [hevents]
      refine ⟨h.keep rfl rfl List.length_set hflags.1 hflags.2 (fun j hj => ?_) (fun j hj => ?_),
        ?_, hone⟩
      · dsimp only at hj
        split at hj <;> cases hj <;> exact hsession
      · dsimp only at hj
        split at hj <;> cases hj
      · have hrequest := LoopVars.request_step (i := i) hdue hvars
        have hstage' : (if s.thread.vars.QueryLate tick.now then DevicePc.giveUp i
            else .checkTouch i).stage =
            if s.thread.vars.QueryLate tick.now then Retry.Stage.givingUp else .loop := by
          split <;> rfl
        rw [← hlast, ← hstage'] at hrequest
        exact runs_of_step hsession hsession rfl (by rw [hpc]; exact hrequest)
    · have hlate : ¬ s.thread.vars.QueryLate tick.now := fun hlate =>
        hnot (Or.inr ⟨hlate.1, hlate.2.1⟩)
      have hstore := Quiet.setSession s i (s.session i) rfl
      rw [if_neg hlate]
      exact h.skipQuery hpc tick ⟨rfl, rfl, rfl, hstore.length, hstore.queries⟩ (Or.inr rfl)

/-- A pass begins. -/
lemma Holds.pass (h : s.Holds) (hpc : s.thread.pc = .top) {pc : DevicePc}
    (hsession : pc.session = none) (hstage : pc.stage = .loop)
    (hset : ∀ i, pc = .setLogged i → s.thread.vars.boardInfoPending = false) :
    Simulates s [.pass] (s.goto pc) := by
  obtain ⟨hholds, hruns, -⟩ := h.goto (fun i hi => by rw [hsession] at hi; cases hi) hset
    (by rw [hpc, hstage]; rfl)
  refine ⟨hholds, ?_, fun _ => rfl⟩
  have hbegin : Retry.Step boardInfoTiming s.asker [.pass] s.asker := by
    refine .pass ?_
    show s.stage = .closed ∨ s.stage = .loop
    rw [stage, hpc]
    split
    · exact Or.inr rfl
    · exact Or.inl rfl
  exact (Retry.Runs.single hbegin).trans hruns

/-- A session is opened.

**Proof sketch.** The new session has the next number, and the requester opens its connection. -/
lemma Holds.openSession (h : s.Holds) (hnone : s.thread.session = none) :
    Simulates s [] { s with
      sessions := s.sessions ++ [.new .opened]
      readers := s.readers ++ [.start]
      thread := { s.thread with
        pc := .opened s.readers.length
        readerHandle := some s.readers.length
        session := some s.readers.length
        vars := s.thread.vars.newFlags } } := by
  constructor
  · refine ⟨fun i hi => hi, fun i hi => ?_, ?_, nofun, nofun, fun i bytes frames rx hr hi => ?_⟩
    · obtain rfl := Option.some.inj hi
      exact List.length_append
    · rw [List.length_append, List.length_append, h.length]
      rfl
    · obtain rfl := Option.some.inj hi
      rw [List.getElem?_concat_length] at hr
      cases hr
  · have hclosed : s.asker.stage = .closed := by
      show s.stage = .closed
      rw [stage, hnone]
      rfl
    unfold asker
    dsimp only
    rw [List.length_append]
    exact .single (.connect hclosed)
  · intro i
    unfold queries SerialRace.session
    dsimp only
    rw [List.getD_eq_getElem?_getD, List.getD_eq_getElem?_getD]
    by_cases hi : i < s.sessions.length
    · rw [List.getElem?_append_left hi]
      rfl
    · rw [List.getElem?_append_right (by omega), List.getElem?_eq_none (l := s.sessions) (by omega)]
      cases i - s.sessions.length <;> rfl

/-- A session has its start. -/
lemma Holds.start (h : s.Holds) (hpc : s.thread.pc = .opened i) (device : DeviceHandle)
    (heartbeatMs boardInfoMs connectedMs : UInt64) :
    Simulates s [.connect i boardInfoMs.toNat] { s with
      device := device
      thread := { s.thread with
        pc := .checkActive i
        vars := s.thread.vars.startWith heartbeatMs boardInfoMs
        connectedSinceMs := connectedMs } } := by
  have hsession := h.pc i (by rw [hpc]; rfl)
  have hopening : s.thread.pc.stage = .opening := by rw [hpc]; rfl
  refine ⟨h.keep rfl rfl rfl rfl rfl (fun j hj => ?_) nofun, ?_, fun _ => rfl⟩
  · cases hj
    exact hsession
  · exact runs_of_step hsession hsession rfl (.start i _ (h.last i hsession) hopening)

/-- The flag of the query is set when it is loaded. -/
lemma Holds.check (h : s.Holds) (hpc : s.thread.pc = .boardInfo i)
    (hpending : s.thread.vars.boardInfoPending = true) : Simulates s [] (s.goto (.query i)) := by
  have hsession := h.pc i (by rw [hpc]; rfl)
  have hloop : s.thread.pc.stage = .loop := by rw [hpc]; rfl
  refine ⟨(Quiet.goto s (.query i)).holds h (fun j hj => ?_) nofun, ?_, fun _ => rfl⟩
  · cases hj
    exact hsession
  · exact runs_of_step hsession hsession rfl (.check hloop hpending)

/-- The query is late, but the board information is there. -/
lemma Holds.late (h : s.Holds) (hpc : s.thread.pc = .giveUp i)
    (hlogged : s.thread.vars.boardInfoLogged = true) :
    Simulates s [] (s.goto (.checkTouch i)) := by
  have hsession := h.pc i (by rw [hpc]; rfl)
  have hgivingUp : s.thread.pc.stage = .givingUp := by rw [hpc]; rfl
  refine ⟨(Quiet.goto s (.checkTouch i)).holds h (fun j hj => ?_) nofun, ?_, fun _ => rfl⟩
  · cases hj
    exact hsession
  · exact runs_of_step hsession hsession rfl (.late hgivingUp (h.logged hlogged))

/-- The query is given up. -/
lemma Holds.giveUp (h : s.Holds) (hpc : s.thread.pc = .clearPending i) :
    Simulates s [.givenUp i] ((s.storeFlags i .clearPending).goto (.setLogged i)) := by
  have hsession := h.pc i (by rw [hpc]; rfl)
  have hgivingUp : s.thread.pc.stage = .givingUp := by rw [hpc]; rfl
  rw [storeFlags_eq hsession]
  refine ⟨⟨fun j hj => ?_, h.last, h.length, fun _ => rfl, fun _ _ => rfl,
    fun _ _ _ _ _ _ => rfl⟩, ?_, fun _ => rfl⟩
  · cases hj
    exact hsession
  · exact runs_of_step hsession hsession rfl (.giveUp i (h.last i hsession) hgivingUp)

/-- It is in the log that the query is given up. -/
lemma Holds.logGivenUp (h : s.Holds) (hpc : s.thread.pc = .setLogged i) :
    Simulates s [] ((s.storeFlags i .setLogged).goto (.checkTouch i)) := by
  have hsession := h.pc i (by rw [hpc]; rfl)
  rw [storeFlags_eq hsession]
  refine ⟨⟨fun j hj => ?_, h.last, h.length, fun _ => h.setLogged i hpc, nofun, h.logging⟩, ?_,
    fun _ => rfl⟩
  · cases hj
    exact hsession
  · have hasker : ((({ s with thread := { s.thread with
        vars := s.thread.vars.setLogged } } : SerialRace).goto (.checkTouch i))).asker =
          s.asker := by
      rw [asker, asker, stage, stage, hpc]
      rfl
    rw [hasker]
    exact .refl

/-- The session is taken, to be closed. -/
lemma Holds.takeSession (h : s.Holds) (i : ℕ) :
    Simulates s [] { s.setSession i { s.session i with active := false } with
      thread := { s.thread with session := none, pc := .closePort i } } := by
  have hstore := Quiet.setSession s i { s.session i with active := false } rfl
  refine ⟨⟨nofun, nofun, hstore.length.trans h.length, h.logged, nofun, nofun⟩, ?_, hstore.queries⟩
  have hclose : Retry.Step boardInfoTiming s.asker [] { s.asker with stage := .closed } := .close
  exact .single hclose

/-- The device thread goes on without a store. -/
lemma Holds.goes (h : s.Holds) {tick : SerialTick} {pc pc' : DevicePc} (hpc : s.thread.pc = pc)
    (hgoes : s.Goes tick pc pc') :
    Simulates s (s.deviceEvents tick (s.goto pc')) (s.goto pc') := by
  unfold deviceEvents
  rw [hpc]
  cases hgoes with
  | enabled | disabled => exact h.pass hpc rfl rfl nofun
  | connected i hi => exact h.goto (by rintro _ ⟨⟩; exact hi) nofun (by rw [hpc]; rfl)
  | pending i hpending => exact h.check hpc hpending
  | logged i hlogged => exact h.late hpc hlogged
  -- the thread works on its session, as before
  | active | reading | answered | notLogged =>
    exact h.goto (by rintro _ ⟨⟩; exact h.pc _ (by rw [hpc]; rfl)) nofun (by rw [hpc]; rfl)
  | present | absent | notOpened | inactive | readFailed | ledsWritten | noSession | noHandle
  | joined | vendor | noVendor | touchHid | noTouchHid | hid =>
    exact h.goto nofun nofun (by rw [hpc]; rfl)

/-- **A step of the device thread is a run of the requester.**

**Proof sketch.** Apart from the sections below, the thread leaves the variables of the queries. -/
theorem Holds.deviceStep (h : s.Holds) {tick : SerialTick} (hstep : s.deviceStep tick = some t) :
    Simulates s (s.deviceEvents tick t) t := by
  cases deviceStep_turn hstep with
  | goto pc pc' hpc hgoes => exact h.goes hpc hgoes
  | query i hpc => exact h.query hpc tick
  | openSession hpc hnone =>
    rw [deviceEvents, hpc]
    exact h.openSession hnone
  | opened i hpc =>
    rw [deviceEvents, hpc]
    exact h.start hpc _ _ _ _
  | heartbeat i hpc =>
    rw [deviceEvents, hpc]
    exact h.runSection (by rw [hpc]; rfl) (by rw [hpc]; rfl) (fun l => .heartbeat) rfl rfl nofun
  | clearPending i hpc =>
    rw [deviceEvents, hpc]
    exact h.giveUp hpc
  | setLogged i hpc =>
    rw [deviceEvents, hpc]
    exact h.logGivenUp hpc
  | checkTouch i pc lastTouchFrames suspended hpc hpc' =>
    have hsession := h.pc i (by rw [hpc]; rfl)
    rw [deviceEvents, hpc]
    refine Quiet.simulates ⟨rfl, rfl, rfl, rfl, fun _ => rfl⟩ h (fun j hj => ?_) (fun j hj => ?_) ?_
    · rcases hpc' with rfl | rfl | rfl <;> cases hj
      exact hsession
    · rcases hpc' with rfl | rfl | rfl <;> cases hj
    · rw [hpc]
      rcases hpc' with rfl | rfl | rfl <;> rfl
  | writeLed i output channel channels hpc =>
    rw [deviceEvents, hpc]
    exact h.runSection (by rw [hpc]; rfl) (by rw [hpc]; rfl) (fun l => .writeLed channel) rfl rfl
      nofun
  | takeSession i hpc hi =>
    rw [deviceEvents, hpc]
    exact h.takeSession i
  | closePort i hpc =>
    have hstore := Quiet.setSession s i { s.session i with port := (s.session i).port.close } rfl
    rw [deviceEvents, hpc]
    exact (hstore.trans (.goto _ _)).simulates h nofun nofun (by rw [hpc]; rfl)
  | takeHandle i hpc hi | update hidConnected hpc =>
    rw [deviceEvents, hpc]
    exact Quiet.simulates ⟨rfl, rfl, rfl, rfl, fun _ => rfl⟩ h nofun nofun (by rw [hpc]; rfl)

/-! ## The reader threads -/

/-- A step of another thread that sends no query. -/
lemma Quiet.elsewhere (h : Quiet s t) (hholds : s.Holds) (hpc : t.thread.pc = s.thread.pc) :
    Simulates s [] t :=
  h.simulates hholds (fun i hi => hholds.pc i (hpc ▸ hi))
    (fun i hi => hholds.setLogged i (hpc ▸ hi)) (by rw [hpc])

/-- A reader goes on.

**Proof sketch.** The place of a reader matters only between the two stores for a board-info frame.
-/
lemma Simulates.setReader {events : List Retry.Event} (h : Simulates s events t) (i : ℕ)
    (reader : SerialReader) (hlogging : ∀ bytes frames, reader.pc = .logging bytes frames →
      t.thread.session = some i → t.thread.vars.boardInfoPending = false) :
    Simulates s events (t.setReader i reader) := by
  obtain ⟨hholds, hruns, hqueries⟩ := h
  have hlength : (t.setReader i reader).readers.length = t.readers.length := List.length_set
  refine ⟨⟨hholds.pc, fun j hj => ?_, ?_, hholds.logged, hholds.setLogged, ?_⟩, ?_, hqueries⟩
  · rw [hlength]
    exact hholds.last j hj
  · rw [hlength]
    exact hholds.length
  · intro j bytes frames rx hr hj
    by_cases hij : i = j
    · subst hij
      have hi : i < t.readers.length := by
        rw [← hlength]
        exact (List.getElem?_eq_some_iff.mp hr).1
      rw [SerialRace.setReader, List.getElem?_set_self hi, Option.some_inj] at hr
      exact hlogging bytes frames (congrArg SerialReader.pc hr) hj
    · rw [SerialRace.setReader, List.getElem?_set_ne hij] at hr
      exact hholds.logging j bytes frames rx hr hj
  · have hasker : (t.setReader i reader).asker = t.asker := by
      rw [asker, hlength]
      rfl
    rw [hasker]
    exact hruns

/-- A reader has received board information.

**Proof sketch.** The flag is cleared if the session is the one of the device thread; otherwise the
answer is a stray one. -/
lemma Holds.receive (h : s.Holds) (hi : i < s.readers.length) :
    Simulates s [.answered i] (s.storeFlags i .clearPending) := by
  by_cases hsession : s.thread.session = some i
  · rw [storeFlags_eq hsession]
    exact ⟨⟨h.pc, h.last, h.length, fun _ => rfl, fun _ _ => rfl, fun _ _ _ _ _ _ => rfl⟩,
      runs_of_step hsession hsession rfl (.answer i (h.last i hsession)), fun _ => rfl⟩
  · rw [storeFlags, if_neg hsession]
    refine ⟨h, .single (.stray i hi ?_), fun _ => rfl⟩
    cases hsession' : s.thread.session with
    | none =>
      left
      show s.stage = .closed
      rw [stage, hsession']
      rfl
    | some j =>
      right
      intro hlast
      have hlast' := h.last j hsession'
      have hj : j = i := Nat.succ_injective (hlast'.symm.trans hlast)
      rw [hj] at hsession'
      exact hsession hsession'

/-- Board information is in the log. -/
lemma Holds.logReceived (h : s.Holds)
    (hpending : s.thread.session = some i → s.thread.vars.boardInfoPending = false) :
    Simulates s [] (s.storeFlags i .setLogged) := by
  by_cases hsession : s.thread.session = some i
  · rw [storeFlags_eq hsession]
    exact ⟨⟨h.pc, h.last, h.length, fun _ => hpending hsession, h.setLogged, h.logging⟩, .refl,
      fun _ => rfl⟩
  · rw [storeFlags, if_neg hsession]
    exact ⟨h, .refl, fun _ => rfl⟩

/-- Nothing is done. -/
lemma Simulates.refl (h : s.Holds) : Simulates s [] s := ⟨h, .refl, fun _ => rfl⟩

/-- **A step of a reader is a run of the requester.**

**Proof sketch.** The cases are the places of the reader. Only the two stores for a board-info frame
touch the variables of the queries: the first one is the answer, and the second one finds the flag
cleared. -/
theorem Holds.readerStep (h : s.Holds) {read : PortRead 256} {now : UInt64}
    (hstep : s.readerStep i read now = some t) : Simulates s (s.readerEvents i) t := by
  unfold SerialRace.readerStep at hstep
  unfold readerEvents
  cases hr : s.readers[i]? with
  | none =>
    rw [hr] at hstep
    cases hstep
  | some r =>
    rw [hr] at hstep
    dsimp only at hstep ⊢
    obtain ⟨pc, rx⟩ := r
    have hi := (List.getElem?_eq_some_iff.mp hr).1
    cases pc with
    | loop =>
      cases hstep
      exact (Simulates.refl h).setReader i _ fun _ _ hpc => by
        dsimp only at hpc
        split at hpc <;> cases hpc
    | read =>
      cases hstep
      exact (Simulates.refl h).setReader i _ fun _ _ hpc => by
        dsimp only at hpc
        split at hpc <;> cases hpc
    | reading =>
      dsimp only at hstep
      cases read with
      | none =>
        cases hstep
        have hstore := Quiet.setSession s i { s.session i with readerFailed := true } rfl
        exact (hstore.elsewhere h rfl).setReader i _ nofun
      | some bytes =>
        cases hstep
        exact (Simulates.refl h).setReader i _ fun _ _ hpc => by
          dsimp only at hpc
          split at hpc <;> cases hpc
    | failed =>
      cases hstep
      have hstore := Quiet.setSession s i { s.session i with active := false } rfl
      exact (hstore.elsewhere h rfl).setReader i _ nofun
    | serving bytes frames =>
      cases frames with
      | nil =>
        cases bytes with
        | nil =>
          cases hstep
          exact (Simulates.refl h).setReader i _ nofun
        | cons byte bytes =>
          dsimp only at hstep
          split at hstep <;> cases hstep <;> exact (Simulates.refl h).setReader i _ nofun
      | cons frame frames =>
        cases frame with
        | touch buttons0 ioStatus touch =>
          cases bytes <;> cases hstep <;> exact (Simulates.refl h).setReader i _ nofun
        | boardInfo version =>
          have hclear : (s.storeFlags i .clearPending).thread.session = some i →
              (s.storeFlags i .clearPending).thread.vars.boardInfoPending = false := by
            unfold storeFlags
            split
            · intro _
              rfl
            · next hother => exact fun hsession => absurd hsession hother
          cases bytes <;> cases hstep <;> exact (h.receive hi).setReader i _ fun _ _ _ => hclear
    | applying useSerialButtons buttons0 ioStatus touch bytes frames =>
      cases hstep
      have hquiet : Quiet s { s with
          device := s.device.applyDeviceFrame (if useSerialButtons then buttons0 else none)
            (if useSerialButtons then ioStatus else none) touch .serial now } :=
        ⟨rfl, rfl, rfl, rfl, fun _ => rfl⟩
      exact (hquiet.elsewhere h rfl).setReader i _ nofun
    | logging bytes frames =>
      cases hstep
      exact (h.logReceived fun hsession => h.logging i bytes frames rx hr hsession).setReader i _
        nofun
    | finished => cases hstep

/-! ## Runs -/

/-- Two runs of the requester, one behind the other. -/
lemma Simulates.trans {events events' : List Retry.Event} {u : SerialRace}
    (h : Simulates s events t) (h' : Simulates t events' u) :
    Simulates s (events ++ events') u := by
  refine ⟨h'.holds, h.runs.trans h'.runs, fun i => ?_⟩
  rw [h'.queries, h.queries, Retry.times_append, List.length_append, Nat.add_assoc]

/-- The HID threads and the game send no query. -/
lemma Simulates.elsewhere {events : List Retry.Event} {u : SerialRace} (h : Simulates s events t)
    (hquiet : Quiet t u) (hpc : u.thread.pc = t.thread.pc) : Simulates s events u := by
  have hrun := h.trans (hquiet.elsewhere h.holds hpc)
  rwa [List.append_nil] at hrun

/-- **The device thread is a requester**, in every interleaving. -/
theorem Runs.simulates {log : List Retry.Event} (h : s.Runs log t) (hholds : s.Holds) :
    Simulates s log t := by
  induction h with
  | refl => exact .refl hholds
  | device _ tick u hstep ih => exact ih.trans (ih.holds.deviceStep hstep)
  | reader _ i read now u hstep ih => exact ih.trans (ih.holds.readerStep hstep)
  | hid _ r _ ih => exact ih.elsewhere ⟨rfl, rfl, rfl, rfl, fun _ => rfl⟩ rfl
  | output _ page ih => exact ih.elsewhere ⟨rfl, rfl, rfl, rfl, fun _ => rfl⟩ rfl

/-- What the device thread relies on holds at the start. -/
lemma holds_start (enabled : Bool) (inputPage : Mai2InputPage) (outputPage : Mai2OutputPage)
    (now : UInt64) : (start enabled inputPage outputPage now).Holds where
  pc := nofun
  last := nofun
  length := rfl
  logged := nofun
  setLogged := nofun
  logging := nofun

end SerialRace

end Affine
