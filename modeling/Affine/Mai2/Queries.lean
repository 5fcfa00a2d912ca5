import Affine.Lib.Retry
import Affine.Mai2.Link

set_option relaxedAutoImplicit false
set_option autoImplicit false

/-!
# The query for board information

`device_thread` and `vendor_command_thread` (`affine-mai2/src/lib.rs`) ask a device for its board
information in the same way. A loop is a requester that repeats a request (`Retry.State`), where
zero stands for the time of a request that has not been sent.

## Main definitions

* `Affine.boardInfoTiming` — the times of the queries.
* `Affine.LoopVars.asker` — the variables of a loop as a requester.
* `Affine.Link.KeepsQueries` — what a section that sends no query leaves alone.

## Main results

* `Affine.LoopVars.request_step` — a query that is due is a request of the requester.
* `Affine.Link.sendQuery_spec` — what the section that sends a query does.
-/

namespace Affine

/-- The times of the queries. -/
def boardInfoTiming : Retry.Timing where
  delay := affineBoardInfoDelayMs.toNat
  timeout := affineBoardInfoTimeoutMs.toNat
  limit := 3000

/-- The number of queries that a connection has carried. -/
def Wire.queries {ρ : Type} (w : Wire ρ) (conn : ρ) : ℕ :=
  (w.sent conn).countP fun frame => w.command frame = some affineCmdGetBoardInfo

/-! ## The variables of a loop -/

/-- A difference of two times. -/
lemma le_saturatingSub_iff {a b d : UInt64} (hd : 0 < d.toNat) :
    d ≤ saturatingSub a b ↔ b.toNat + d.toNat ≤ a.toNat := by
  unfold saturatingSub
  split
  · next hle =>
    rw [UInt64.le_iff_toNat_le, UInt64.toNat_sub_of_le _ _ hle]
    have := UInt64.le_iff_toNat_le.mp hle
    omega
  · next hlt =>
    rw [UInt64.le_iff_toNat_le] at hlt ⊢
    refine iff_of_false ?_ (by omega)
    rw [show (0 : UInt64).toNat = 0 from rfl]
    omega

/-- A saturating difference is more than a bound if the exact one is. -/
lemma lt_saturatingSub_iff {a b d : UInt64} :
    d < saturatingSub a b ↔ b.toNat + d.toNat < a.toNat := by
  unfold saturatingSub
  split
  · next hle =>
    rw [UInt64.lt_iff_toNat_lt, UInt64.toNat_sub_of_le _ _ hle]
    have := UInt64.le_iff_toNat_le.mp hle
    omega
  · next hlt =>
    rw [UInt64.le_iff_toNat_le] at hlt
    rw [UInt64.lt_iff_toNat_lt]
    refine iff_of_false ?_ (by omega)
    rw [show (0 : UInt64).toNat = 0 from rfl]
    omega

namespace LoopVars

variable (vars : LoopVars) (connections : ℕ) (stage : Retry.Stage) {now : UInt64}

/-- The variables of the queries. -/
def query : UInt64 × UInt64 × Bool × Bool :=
  (vars.boardInfoStartMs, vars.boardInfoRequestMs, vars.boardInfoPending, vars.boardInfoLogged)

/-- The loop as a requester. -/
def asker : Retry.State where
  connections := connections
  stage := stage
  start := vars.boardInfoStartMs.toNat
  last := if vars.boardInfoRequestMs = 0 then none else some vars.boardInfoRequestMs.toNat
  pending := vars.boardInfoPending

variable {vars connections stage} {vars' : LoopVars}

/-- The requester depends on the variables of the query only. -/
lemma asker_of_query (h : vars'.query = vars.query) :
    vars'.asker connections stage = vars.asker connections stage := by
  simp only [query, Prod.mk.injEq] at h
  obtain ⟨hstart, hrequest, hpending, -⟩ := h
  rw [asker, asker, hstart, hrequest, hpending]

/-- The check of the loop is the one of the requester. -/
lemma due_of_queryDue (h : vars.QueryDue now) :
    (vars.asker connections stage).Due boardInfoTiming now.toNat := by
  unfold Retry.State.Due
  rcases h with ⟨hzero, hdelay⟩ | ⟨hrequest, htimeout⟩
  · rw [asker, if_pos hzero]
    exact (le_saturatingSub_iff (by decide)).mp hdelay
  · rw [asker, if_neg hrequest]
    exact (le_saturatingSub_iff (by decide)).mp htimeout

/-- A query that is due is late exactly if the requester says so. -/
lemma queryLate_iff_late (h : vars.QueryDue now) :
    vars.QueryLate now ↔ (vars.asker connections stage).Late boardInfoTiming now.toNat := by
  unfold QueryLate Retry.State.Late asker
  rw [lt_saturatingSub_iff]
  by_cases hzero : vars.boardInfoRequestMs = 0
  · simp [hzero]
  · have htimeout := (h.resolve_left fun hfirst => hzero hfirst.1).2
    simp [hzero, htimeout, boardInfoTiming]

/-- Zero is no time at which a query is due. -/
lemma ne_zero_of_queryDue (h : vars.QueryDue now) : now ≠ 0 := by
  rintro rfl
  rcases h with ⟨-, hdelay⟩ | ⟨-, htimeout⟩
  · have := (le_saturatingSub_iff (by decide)).mp hdelay
    simp [affineBoardInfoDelayMs] at this
  · have := (le_saturatingSub_iff (by decide)).mp htimeout
    simp [affineBoardInfoTimeoutMs] at this

/-- A query that is due is a request of the requester. -/
lemma request_step {i : ℕ} (h : vars.QueryDue now)
    (hvars : vars' = { vars with boardInfoRequestMs := now }) :
    Retry.Step boardInfoTiming (vars.asker (i + 1) .asking) [.request i now.toNat]
      (vars'.asker (i + 1) (if vars.QueryLate now then .givingUp else .loop)) := by
  have hlate : vars.QueryLate now ↔
      (vars.asker (i + 1) .asking).Late boardInfoTiming now.toNat := queryLate_iff_late h
  have hasker : ∀ stage, vars'.asker (i + 1) stage =
      { vars.asker (i + 1) .asking with stage := stage, last := some now.toNat } := by
    intro stage
    rw [hvars]
    unfold asker
    dsimp only
    rw [if_neg (ne_zero_of_queryDue h)]
  rw [hasker, if_congr hlate rfl rfl]
  exact .request i now.toNat rfl rfl (due_of_queryDue h)

end LoopVars

/-! ## The sections of a loop -/

namespace Link

variable {ρ : Type} {w : Wire ρ} {takes : UInt8 → PortWrite} {now : UInt64} {l : Link ρ}

/-- The link behind a section, whether or not a write has failed. -/
def behind : Except (Link ρ) (Link ρ) → Link ρ
  | .ok l | .error l => l

/-- What a section that sends no query leaves alone. -/
structure KeepsQueries (w : Wire ρ) (l l' : Link ρ) : Prop where
  query : l'.vars.query = l.vars.query
  queries : w.queries l'.conn = w.queries l.conn

namespace KeepsQueries

/-- Nothing is done. -/
lemma refl (l : Link ρ) : KeepsQueries w l l := ⟨rfl, rfl⟩

/-- Two sections, one behind the other. -/
lemma trans {l₁ l₂ l₃ : Link ρ} (h : KeepsQueries w l₁ l₂) (h' : KeepsQueries w l₂ l₃) :
    KeepsQueries w l₁ l₃ :=
  ⟨h'.query.trans h.query, h'.queries.trans h.queries⟩

/-- A command that is not the query. -/
lemma write {cmd : UInt8} (hcmd : cmd ≠ affineCmdGetBoardInfo) (bytes : List UInt8)
    {remember : LoopVars → LoopVars} (hremember : (remember l.vars).query = l.vars.query) :
    KeepsQueries w l (behind (l.write w takes cmd bytes remember)) := by
  have hsent := w.sent_send (takes cmd) cmd bytes l.conn
  unfold Link.write
  split
  · next conn hsend =>
    rw [hsend] at hsent
    refine ⟨hremember, ?_⟩
    rw [behind, Wire.queries, hsent, if_pos rfl, List.countP_append]
    simp [Wire.queries, w.command_frame, hcmd]
  · next conn hsend =>
    rw [hsend] at hsent
    exact ⟨rfl, by rw [behind, Wire.queries, hsent, if_neg Bool.false_ne_true, Wire.queries]⟩

/-- The heartbeat section sends no query. -/
lemma heartbeat : KeepsQueries w l (behind (l.heartbeat w takes now)) := by
  unfold Link.heartbeat
  split
  · exact write (by decide) _ rfl
  · exact refl l

/-- The section of an LED channel sends no query. -/
lemma writeLed {payload : (channel : LedChannel) → List.Vector UInt8 channel.size → List UInt8}
    {output : Mai2OutputPage} (channel : LedChannel) :
    KeepsQueries w l (behind (l.writeLed w takes payload output channel)) := by
  unfold Link.writeLed
  dsimp only
  split
  · exact write (by cases channel <;> decide) _ (by cases channel <;> rfl)
  · exact refl l

/-- A section behind another one. -/
lemma bind {first : Except (Link ρ) (Link ρ)} {next : Link ρ → Except (Link ρ) (Link ρ)}
    (h : KeepsQueries w l (behind first)) (hnext : ∀ l', KeepsQueries w l' (behind (next l'))) :
    KeepsQueries w l (behind (first >>= next)) := by
  cases first with
  | ok l' => exact h.trans (hnext l')
  | error l' => exact h

/-- The LED section sends no query: it is the sections of the channels, one behind the other. -/
lemma writeLeds {payload : (channel : LedChannel) → List.Vector UInt8 channel.size → List UInt8}
    {output : Mai2OutputPage} :
    KeepsQueries w l (behind (l.writeLeds w takes payload output)) :=
  (writeLed .buttons).bind fun _ => (writeLed .billboard).bind fun _ => writeLed .pwm

end KeepsQueries

/-- **Sending a query**: it is sent if it is due, and then the loop remembers when. -/
lemma sendQuery_spec (w : Wire ρ) (takes : UInt8 → PortWrite) (now : UInt64) (l : Link ρ) :
    match l.sendQuery w takes now with
    | .ok l' => (l.vars.QueryDue now ∧ l'.vars = { l.vars with boardInfoRequestMs := now } ∧
        w.queries l'.conn = w.queries l.conn + 1) ∨ (¬ l.vars.QueryDue now ∧ l' = l)
    | .error l' => KeepsQueries w l l' := by
  have hsent := w.sent_send (takes affineCmdGetBoardInfo) affineCmdGetBoardInfo [] l.conn
  unfold sendQuery write
  by_cases hdue : l.vars.QueryDue now
  · rw [if_pos hdue]
    cases hsend : w.send (takes affineCmdGetBoardInfo) affineCmdGetBoardInfo [] l.conn with
    | mk sent conn =>
      rw [hsend] at hsent
      cases sent
      · exact ⟨rfl, by rw [Wire.queries, hsent, if_neg Bool.false_ne_true, Wire.queries]⟩
      · refine Or.inl ⟨hdue, rfl, ?_⟩
        rw [Wire.queries, hsent, if_pos rfl, List.countP_append]
        simp [Wire.queries, w.command_frame]
  · rw [if_neg hdue]
    exact Or.inr ⟨hdue, rfl⟩

end Link

end Affine
