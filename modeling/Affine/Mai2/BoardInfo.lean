import Affine.Mai2.SerialQueries
import Affine.Mai2.VendorLoop

set_option relaxedAutoImplicit false
set_option autoImplicit false

/-!
# Board-info queries are bounded

The queries of `vendor_command_thread` (`affine-mai2/src/lib.rs`), which reads the answers itself,
and what holds for both threads: each of them is a requester (`Retry.State`), on the serial link and
on the vendor HID, so that a connection carries at most four queries.

## Main definitions

* `Affine.Link.Asks` — the sections of a pass are a run of the requester.
* `Affine.VendorThread.Runs` — runs of the thread, with their logs.

## Main results

* `Affine.VendorThread.Runs.simulates` — the vendor thread is a requester.
* `Affine.board_info_queries_bounded` — there are at most four queries on a connection.
-/

namespace Affine

/-! ## The vendor HID -/

namespace Link

variable {ρ : Type} {w : Wire ρ} {takes : UInt8 → PortWrite} {now : UInt64} {i : ℕ} {l l' : Link ρ}

/-- What the sections of a pass add to the log of a loop without a reader thread: a query is
written, or it is given up. -/
def queryEvents (w : Wire ρ) (i : ℕ) (now : UInt64) (l l' : Link ρ) : List Retry.Event :=
  (if w.queries l'.conn = w.queries l.conn then [] else [.request i now.toNat]) ++
    if l.vars.boardInfoPending ∧ ¬ l'.vars.boardInfoPending then [.givenUp i] else []

/-- Board information that is in the log is not waited for, and the sections between the links are a
run of the requester. -/
structure Asks (w : Wire ρ) (i : ℕ) (now : UInt64) (l l' : Link ρ) : Prop where
  logged : l'.vars.boardInfoLogged = true → l'.vars.boardInfoPending = false
  runs : Retry.Runs boardInfoTiming (l.vars.asker (i + 1) .loop) (queryEvents w i now l l')
    (l'.vars.asker (i + 1) .loop)
  queries : w.queries l'.conn =
    w.queries l.conn + (Retry.times i (queryEvents w i now l l')).length

namespace KeepsQueries

/-- A section that sends no query leaves whether one is to be sent. -/
lemma pending (h : KeepsQueries w l l') :
    l'.vars.boardInfoPending = l.vars.boardInfoPending := by
  have hquery := h.query
  simp only [LoopVars.query, Prod.mk.injEq] at hquery
  exact hquery.2.2.1

/-- A section that sends no query leaves whether its answer is in the log. -/
lemma logged (h : KeepsQueries w l l') : l'.vars.boardInfoLogged = l.vars.boardInfoLogged := by
  have hquery := h.query
  simp only [LoopVars.query, Prod.mk.injEq] at hquery
  exact hquery.2.2.2

/-- A section that sends no query adds nothing to the log. -/
lemma queryEvents (h : KeepsQueries w l l') : l.queryEvents w i now l' = [] := by
  rw [Link.queryEvents, h.queries, h.pending]
  simp

/-- A section that sends no query. -/
lemma asks (h : KeepsQueries w l l')
    (hlogged : l.vars.boardInfoLogged = true → l.vars.boardInfoPending = false) :
    Asks w i now l l' := by
  refine ⟨?_, ?_, ?_⟩
  · rw [h.logged, h.pending]
    exact hlogged
  · rw [h.queryEvents, LoopVars.asker_of_query h.query]
    exact .refl
  · rw [h.queryEvents, h.queries]
    rfl

/-- A section that sends no query in front of others. -/
lemma trans_asks {l₁ l₂ l₃ : Link ρ} (h : KeepsQueries w l₁ l₂) (h' : Asks w i now l₂ l₃) :
    Asks w i now l₁ l₃ := by
  have hevents : l₁.queryEvents w i now l₃ = l₂.queryEvents w i now l₃ := by
    rw [Link.queryEvents, Link.queryEvents, h.queries, h.pending]
  refine ⟨h'.logged, ?_, ?_⟩
  · rw [hevents, ← LoopVars.asker_of_query h.query]
    exact h'.runs
  · rw [hevents, ← h.queries]
    exact h'.queries

end KeepsQueries

/-- A section that sends no query behind others. -/
lemma Asks.trans_keeps {l₁ l₂ l₃ : Link ρ} (h : Asks w i now l₁ l₂) (h' : KeepsQueries w l₂ l₃) :
    Asks w i now l₁ l₃ := by
  have hevents : l₁.queryEvents w i now l₃ = l₁.queryEvents w i now l₂ := by
    rw [Link.queryEvents, Link.queryEvents, h'.queries, h'.pending]
  refine ⟨?_, ?_, ?_⟩
  · rw [h'.logged, h'.pending]
    exact h.logged
  · rw [hevents, LoopVars.asker_of_query h'.query]
    exact h.runs
  · rw [hevents, h'.queries]
    exact h.queries

/-- Board information that is waited for is not in the log. -/
lemma logged_of_pending {vars : LoopVars}
    (hlogged : vars.boardInfoLogged = true → vars.boardInfoPending = false)
    (hpending : vars.boardInfoPending = true) : vars.boardInfoLogged = false := by
  by_contra hlog
  rw [hlogged (Bool.eq_true_of_not_eq_false hlog)] at hpending
  cases hpending

/-- A query that is written, and is given up if it is late.

**Proof sketch.** The request is a step of the requester, and with the flag still set a late one is
followed by giving up. -/
lemma asks_of_sent (hlogged : l.vars.boardInfoLogged = true → l.vars.boardInfoPending = false)
    (hpending : l.vars.boardInfoPending = true) (hdue : l.vars.QueryDue now)
    (hvars : l'.vars = { l.vars with boardInfoRequestMs := now })
    (hqueries : w.queries l'.conn = w.queries l.conn + 1) :
    Asks w i now l (if l.vars.QueryLate now ∧ ¬ l'.vars.boardInfoLogged then
      { l' with vars := l'.vars.boardInfo } else l') := by
  have hlogged' : l'.vars.boardInfoLogged = l.vars.boardInfoLogged := by rw [hvars]
  have hpending' : l'.vars.boardInfoPending = true := by rw [hvars]; exact hpending
  have hnot := logged_of_pending hlogged hpending
  have hne : w.queries l'.conn ≠ w.queries l.conn := by
    rw [hqueries]
    exact Nat.succ_ne_self _
  have hcheck : Retry.Step boardInfoTiming (l.vars.asker (i + 1) .loop) []
      (l.vars.asker (i + 1) .asking) := .check rfl hpending
  have hrequest := LoopVars.request_step (i := i) hdue hvars
  by_cases hgiveUp : l.vars.QueryLate now
  · have hevents : l.queryEvents w i now { l' with vars := l'.vars.boardInfo } =
        [.request i now.toNat, .givenUp i] := by
      rw [queryEvents, if_neg hne, if_pos ⟨hpending, Bool.false_ne_true⟩]
      rfl
    rw [if_pos ⟨hgiveUp, by rw [hlogged', hnot]; exact Bool.false_ne_true⟩]
    refine ⟨fun _ => rfl, ?_, ?_⟩
    · rw [if_pos hgiveUp] at hrequest
      rw [hevents]
      exact ((Retry.Runs.single hcheck).tail hrequest).tail (.giveUp i rfl rfl)
    · rw [hevents, hqueries, ← List.singleton_append, Retry.times_concat_of_none rfl,
        Retry.length_times_request, if_pos rfl]
  · have hevents : l.queryEvents w i now l' = [.request i now.toNat] := by
      rw [queryEvents, if_neg hne, if_neg fun h => h.2 hpending']
      rfl
    rw [if_neg fun h => hgiveUp h.1]
    refine ⟨fun hlog => ?_, ?_, ?_⟩
    · rw [hlogged', hnot] at hlog
      cases hlog
    · rw [if_neg hgiveUp] at hrequest
      rw [hevents]
      exact (Retry.Runs.single hcheck).tail hrequest
    · rw [hevents, hqueries, Retry.length_times_request, if_pos rfl]

/-- **The query for board information is a run of the requester.**

**Proof sketch.** The cases are the flag and the result of the section of the query. -/
lemma asks_queryBoardInfo
    (hlogged : l.vars.boardInfoLogged = true → l.vars.boardInfoPending = false) :
    Asks w i now l (behind (l.queryBoardInfo w takes now)) := by
  have hspec := sendQuery_spec w takes now l
  rw [queryBoardInfo_eq]
  split
  · next hpending =>
    cases hsend : l.sendQuery w takes now with
    | error l' =>
      rw [hsend] at hspec
      exact hspec.asks hlogged
    | ok l' =>
      rw [hsend] at hspec
      rcases hspec with ⟨hdue, hvars, hqueries⟩ | ⟨hdue, rfl⟩
      · exact asks_of_sent hlogged hpending hdue hvars hqueries
      · have hlate : ¬ l'.vars.QueryLate now := fun hlate => hdue (Or.inr ⟨hlate.1, hlate.2.1⟩)
        dsimp only
        rw [if_neg fun h => hlate h.1]
        exact (KeepsQueries.refl l').asks hlogged
  · exact (KeepsQueries.refl l).asks hlogged

end Link

/-- The frames of the report that a pass reads. -/
def VendorTick.frames (tick : VendorTick) : List ParsedFrame :=
  match tick.read with
  | none => []
  | some report =>
    if report.1.length = 0 then []
    else
      match (RxBuf.load report).drain with
      | .ok (frames, _) => frames
      | .error _ => []

/-- What a frame adds to the log. -/
def ParsedFrame.answer (i : ℕ) : ParsedFrame → Option Retry.Event
  | .touch _ _ _ => none
  | .boardInfo _ => some (.answered i)

namespace VendorThread

/-- The sections of a pass. -/
def sections (device : DeviceHandle) (tick : VendorTick) (link : Link HidDevice) :
    Except (Link HidDevice) (Link HidDevice) := do
  let link ← link.heartbeat hidWire tick.takes tick.now
  let link ← link.queryBoardInfo hidWire tick.takes tick.now
  link.writeLeds hidWire tick.takes hidPayload device.outputPage

/-- The part of a pass behind the read is its sections, and what becomes of their result. -/
lemma serve_eq (device : DeviceHandle) (tick : VendorTick) (link : Link HidDevice) :
    serve device tick link =
      match sections device tick link with
      | .error _ => drop device
      | .ok link => (.done, device, { link := some link }) := rfl

/-- What a step adds to the log, with the number of the connection, or of the next one: the HID is
opened, or a pass begins, it reads board information, and then come its sections. -/
def events (t : VendorThread) (i : ℕ) (device : DeviceHandle) (tick : VendorTick) :
    List Retry.Event :=
  match t.link with
  | none =>
    match (connect device tick).2.2.link with
    | none => []
    | some _ => [.connect i tick.boardInfoMs.toNat]
  | some link =>
    .pass ::
      if ¬ device.enabled then []
      else
        match vendorCommandReadOnce tick.read tick.touchMs (device, link.vars) with
        | .ok (true, device, vars) =>
          let link := { link with vars := vars }
          tick.frames.filterMap (ParsedFrame.answer i) ++
            link.queryEvents hidWire i tick.now (Link.behind (sections device tick link))
        | _ => []

/-- What the thread can come to, with the log and the number of the connection, or of the next one.
The other threads may leave any device to each step. -/
inductive Runs : List Retry.Event → ℕ → VendorThread → Prop
  | init : Runs [] 0 init
  | step {log : List Retry.Event} {i : ℕ} {t : VendorThread} (h : Runs log i t)
      (device : DeviceHandle) (tick : VendorTick) (exit : PassEnd) (device' : DeviceHandle)
      (t' : VendorThread) (hstep : t.step device tick = .ok (exit, device', t')) :
      Runs (log ++ t.events i device tick)
        (if t.link.isSome ∧ t'.link.isNone then i + 1 else i) t'

/-- The thread is a requester with this log. -/
def Simulates (log : List Retry.Event) (i : ℕ) (t : VendorThread) : Prop :=
  ∃ a, Retry.Runs boardInfoTiming (.init 0 none false) log a ∧
    match t.link with
    | none => a.connections = i ∧ a.stage = .closed
    | some link => a = link.vars.asker (i + 1) .loop ∧
        (link.vars.boardInfoLogged = true → link.vars.boardInfoPending = false) ∧
        hidWire.queries link.conn = (Retry.times i log).length

/-- The sections of a pass are a run of the requester.

**Proof sketch.** Only the section of the query has events, and the others leave its variables. -/
lemma asks_sections (i : ℕ) {link : Link HidDevice} (device : DeviceHandle) (tick : VendorTick)
    (hlogged : link.vars.boardInfoLogged = true → link.vars.boardInfoPending = false) :
    Link.Asks hidWire i tick.now link (Link.behind (sections device tick link)) := by
  have hheart : Link.KeepsQueries hidWire link
      (Link.behind (link.heartbeat hidWire tick.takes tick.now)) := .heartbeat
  unfold sections
  cases hheartbeat : link.heartbeat hidWire tick.takes tick.now with
  | error link₁ =>
    rw [hheartbeat] at hheart
    exact hheart.asks hlogged
  | ok link₁ =>
    rw [hheartbeat] at hheart
    have hlogged₁ : link₁.vars.boardInfoLogged = true → link₁.vars.boardInfoPending = false := by
      rw [show link₁.vars.boardInfoLogged = link.vars.boardInfoLogged from hheart.logged,
        show link₁.vars.boardInfoPending = link.vars.boardInfoPending from hheart.pending]
      exact hlogged
    have hquery : Link.Asks hidWire i tick.now link₁
        (Link.behind (link₁.queryBoardInfo hidWire tick.takes tick.now)) :=
      Link.asks_queryBoardInfo hlogged₁
    rw [Slice.ok_bind]
    cases hboard : link₁.queryBoardInfo hidWire tick.takes tick.now with
    | error link₂ =>
      rw [hboard] at hquery
      exact hheart.trans_asks hquery
    | ok link₂ =>
      rw [hboard] at hquery
      rw [Slice.ok_bind]
      exact (hheart.trans_asks hquery).trans_keeps .writeLeds

/-- The frames of a report are answers. -/
lemma runs_frames (i : ℕ) (now : UInt64) (frames : List ParsedFrame) (s : DeviceHandle × LoopVars)
    (hlogged : s.2.boardInfoLogged = true → s.2.boardInfoPending = false) :
    Retry.Runs boardInfoTiming (s.2.asker (i + 1) .loop) (frames.filterMap (ParsedFrame.answer i))
        ((frames.foldl (applyVendorFrame now) s).2.asker (i + 1) .loop) ∧
      ((frames.foldl (applyVendorFrame now) s).2.boardInfoLogged = true →
        (frames.foldl (applyVendorFrame now) s).2.boardInfoPending = false) ∧
      Retry.times i (frames.filterMap (ParsedFrame.answer i)) = [] := by
  induction frames generalizing s with
  | nil => exact ⟨.refl, hlogged, rfl⟩
  | cons frame frames ih =>
    cases frame with
    | touch buttons0 ioStatus touch =>
      exact ih (applyVendorFrame now s (.touch buttons0 ioStatus touch)) hlogged
    | boardInfo version =>
      have hanswer : Retry.Step boardInfoTiming (s.2.asker (i + 1) .loop) [.answered i]
          (s.2.boardInfo.asker (i + 1) .loop) := .answer i rfl
      obtain ⟨hruns, hlogged', htimes⟩ :=
        ih (applyVendorFrame now s (.boardInfo version)) fun _ => rfl
      exact ⟨(Retry.Runs.single hanswer).trans hruns, hlogged', htimes⟩

/-- A read applies the frames of its report.

**Proof sketch.** The cases are the results of the read; the frames of a report are those that are
drained from the buffer. -/
lemma eq_foldl_of_readOnce {tick : VendorTick} {s s' : DeviceHandle × LoopVars}
    (h : vendorCommandReadOnce tick.read tick.touchMs s = .ok (true, s')) :
    s' = tick.frames.foldl (applyVendorFrame tick.touchMs) s := by
  unfold vendorCommandReadOnce at h
  unfold VendorTick.frames
  cases hread : tick.read with
  | none =>
    rw [hread] at h
    cases h
  | some report =>
    rw [hread] at h
    dsimp only at h ⊢
    split at h
    · next hnil =>
      cases h
      rw [if_pos hnil]
      rfl
    · next hnil =>
      rw [if_neg hnil]
      cases hdrain : (RxBuf.load report).drain with
      | error e =>
        rw [hdrain] at h
        cases h
      | ok result =>
        rw [hdrain] at h
        cases h
        rfl

/-- The requester with this log may give up the connection. -/
lemma simulates_drop {log : List Retry.Event} {i : ℕ} {a : Retry.State}
    (h : Retry.Runs boardInfoTiming (.init 0 none false) log a) (hi : a.connections = i + 1) :
    Simulates log (i + 1) init := ⟨_, h.close, hi, rfl⟩

/-- Trying to open the HID is a connection of the requester, or nothing.

**Proof sketch.** The cases are `connect_cases`. A new connection opens and starts in one step. -/
lemma Simulates.connect {log : List Retry.Event} {i : ℕ} (h : Simulates log i init)
    (device : DeviceHandle) (tick : VendorTick) :
    Simulates (log ++ init.events i device tick) i (connect device tick).2.2 := by
  obtain ⟨a, hruns, hi, hclosed⟩ := h
  unfold events
  dsimp only [init]
  rcases connect_cases device tick with ⟨device', hconnect, -⟩ | hnew
  · rw [hconnect]
    dsimp only [init]
    rw [List.append_nil]
    exact ⟨a, hruns, hi, hclosed⟩
  · rw [hnew]
    have hfresh := (hruns.inv (m := 3) (by decide) (by decide)).fresh.2.1
    rw [hi] at hfresh
    have hconnect := (hruns.tail (.connect hclosed)).tail
      (.start i tick.boardInfoMs.toNat (by rw [← hi]) rfl)
    rw [List.append_nil] at hconnect
    refine ⟨_, hconnect, ?_, nofun, ?_⟩
    · rw [hi]
      rfl
    · rw [Retry.times_concat_of_none rfl, hfresh]
      rfl

/-- **A pass is a run of the requester.**

**Proof sketch.** The cases are the exits of a pass. The frames of the report come first, then the
sections, and where the loop gives up the HID the connection is closed. -/
lemma Simulates.pass {log : List Retry.Event} {i : ℕ} {link : Link HidDevice}
    (h : Simulates log i ⟨some link⟩) {device device' : DeviceHandle} {tick : VendorTick}
    {exit : PassEnd} {t : VendorThread}
    (hstep : (VendorThread.mk (some link)).step device tick = .ok (exit, device', t)) :
    Simulates (log ++ (VendorThread.mk (some link)).events i device tick)
      (if t.link.isNone then i + 1 else i) t := by
  obtain ⟨a, hruns, rfl, hlogged, hqueries⟩ := h
  have hbegin : Retry.Runs boardInfoTiming (.init 0 none false) (log ++ [.pass])
      (link.vars.asker (i + 1) .loop) := hruns.tail (.pass (Or.inr rfl))
  unfold step at hstep
  unfold events
  dsimp only at hstep ⊢
  rw [List.append_cons]
  split at hstep
  · next hdisabled =>
    cases hstep
    rw [if_pos hdisabled, List.append_nil]
    exact simulates_drop hbegin rfl
  · next henabled =>
    rw [if_neg henabled]
    cases hread : vendorCommandReadOnce tick.read tick.touchMs (device, link.vars) with
    | error e =>
      rw [hread] at hstep
      cases hstep
    | ok result =>
      obtain ⟨ok, device₁, vars⟩ := result
      rw [hread, Slice.ok_bind] at hstep
      dsimp only at hstep ⊢
      cases ok with
      | false =>
        rw [if_pos Bool.false_ne_true] at hstep
        cases hstep
        rw [List.append_nil]
        exact simulates_drop hbegin rfl
      | true =>
        rw [if_neg (not_not.mpr rfl)] at hstep
        have hreport := eq_foldl_of_readOnce hread
        obtain ⟨hframes, hlogged', htimes⟩ :=
          runs_frames i tick.touchMs tick.frames (device, link.vars) hlogged
        rw [← hreport] at hframes hlogged'
        have hasks : Link.Asks hidWire i tick.now { link with vars := vars }
            (Link.behind (sections device₁ tick { link with vars := vars })) :=
          asks_sections i device₁ tick hlogged'
        have hpass := (hbegin.trans hframes).trans hasks.runs
        rw [List.append_assoc] at hpass
        rw [serve_eq] at hstep
        dsimp only
        cases hsections : sections device₁ tick { link with vars := vars } with
        | error link' =>
          rw [hsections] at hstep hpass
          cases hstep
          exact simulates_drop hpass rfl
        | ok link' =>
          rw [hsections] at hstep hpass hasks
          cases hstep
          show Simulates _ i _
          refine ⟨_, hpass, rfl, hasks.logged, ?_⟩
          have hbegins : Retry.times i [.pass] = [] := rfl
          have hsent := hasks.queries
          rw [hqueries] at hsent
          rw [Retry.times_append, Retry.times_append, Retry.times_append, hbegins, htimes,
            List.append_nil, List.nil_append, List.length_append]
          exact hsent

/-- **The vendor thread is a requester.** -/
theorem Runs.simulates {log : List Retry.Event} {i : ℕ} {t : VendorThread} (h : Runs log i t) :
    Simulates log i t := by
  induction h with
  | init => exact ⟨_, .refl, rfl, rfl⟩
  | @step log i t _ device tick exit device' t' hstep ih =>
    obtain ⟨link⟩ := t
    cases link with
    | none =>
      have hconnect := ih.connect device tick
      have ht : (connect device tick).2.2 = t' := by rw [Except.ok.inj hstep]
      rw [ht] at hconnect
      exact hconnect
    | some link =>
      simpa only [Option.isSome_some, true_and] using ih.pass hstep

end VendorThread

/-! ## Both links -/

/-- **Queries for board information are bounded**: in every interleaving of the device thread, its
readers, the HID threads and the game, and in every run of the vendor thread, whatever the clock
reads and whenever an answer comes, at most four queries are written on a connection, the first at
least 500 ms behind its start and each other one at least 1000 ms behind the one before it, and none
from the first pass on that begins when an answer was processed or the query was given up. The log
has a request for each query that a connection has carried.

**Proof sketch.** Both threads are requesters (`SerialRace.Runs.simulates`,
`VendorThread.Runs.simulates`). The fourth query is at least 3500 ms behind the start, so that it is
a late one. -/
theorem board_info_queries_bounded :
    (∀ enabled inputPage outputPage now log s,
      (SerialRace.start enabled inputPage outputPage now).Runs log s →
        Retry.Bounded 4 500 1000 log ∧ ∀ i, s.queries i = (Retry.times i log).length) ∧
    ∀ log i t, VendorThread.Runs log i t →
      Retry.Bounded 4 500 1000 log ∧
        ∀ link, t.link = some link → hidWire.queries link.conn = (Retry.times i log).length := by
  have hbounded : ∀ start last pending log a,
      Retry.Runs boardInfoTiming (.init start last pending) log a → Retry.Bounded 4 500 1000 log :=
    fun _ _ _ _ _ h => h.bounded (m := 3) (by decide) (by decide)
  constructor
  · intro enabled inputPage outputPage now log s h
    obtain ⟨-, hruns, hqueries⟩ := h.simulates (SerialRace.holds_start ..)
    refine ⟨hbounded _ _ _ _ _ hruns, fun i => ?_⟩
    rw [hqueries]
    exact Nat.zero_add _
  · intro log i t h
    obtain ⟨a, hruns, ha⟩ := h.simulates
    refine ⟨hbounded _ _ _ _ _ hruns, fun link hlink => ?_⟩
    rw [hlink] at ha
    exact ha.2.2

/-- A device that is there and says nothing, half a second behind the start of its session. -/
def silentSerialTick : SerialTick := { presentTick with now := 500 }

/-- A vendor HID that is there and says nothing, half a second behind its start. -/
def silentVendorTick : VendorTick where
  available := true
  found := true
  opens := true
  heartbeatMs := 0
  boardInfoMs := 0
  read := some (.empty 65)
  touchMs := 0
  now := 500
  takes _ := .whole

/-- Both loops send their first query half a second behind the start of the connection. -/
theorem board_info_queries_bounded_first :
    (∃ log s, (SerialRace.start true .default .default 0).Runs log s ∧ s.queries 0 = 1 ∧
      Retry.Bounded 4 500 1000 log) ∧
    ∃ log link, VendorThread.Runs log 0 ⟨some link⟩ ∧ hidWire.queries link.conn = 1 ∧
      Retry.Bounded 4 500 1000 log := by
  have hserial := SerialRace.Runs.refl (s := .start true .default .default 0)
    |>.device silentSerialTick _ rfl |>.device silentSerialTick _ rfl
    |>.device silentSerialTick _ rfl |>.device silentSerialTick _ rfl
    |>.device silentSerialTick _ rfl |>.device silentSerialTick _ rfl
    |>.device silentSerialTick _ rfl |>.device silentSerialTick _ rfl
    |>.device silentSerialTick _ rfl
  have hvendor := VendorThread.Runs.init.step (.new true) silentVendorTick _ _ _ rfl
    |>.step (.new true) silentVendorTick _ _ _ rfl
  exact ⟨⟨_, _, hserial, by decide, (board_info_queries_bounded.1 _ _ _ _ _ _ hserial).1⟩,
    ⟨_, _, hvendor, by decide, (board_info_queries_bounded.2 _ _ _ hvendor).1⟩⟩

end Affine
