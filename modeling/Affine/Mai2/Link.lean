import Affine.Lib.Log
import Affine.Mai2.Led

set_option relaxedAutoImplicit false
set_option autoImplicit false

/-!
# The sections of a device loop

The serial loop `device_thread` and the vendor loop of `vendor_command_thread`
(`affine-mai2/src/lib.rs`) share three sections: the heartbeat, the query for board information,
and the LED section. They differ in how they write a command; here that is a `Wire`. The result of
a section is `.error` if a write failed, and then the loop gives up the connection.

## Main definitions

* `Affine.Wire` — how a loop writes commands, and what was written.
* `Affine.LoopVars`, `Affine.Link` — the variables of a loop, and its connection.
* `Affine.Link.heartbeat`, `Affine.Link.queryBoardInfo`, `Affine.Link.writeLeds` — the sections.
* `Affine.Link.Tracks` — what the loop remembers of each LED channel is true.

## Main results

* `Affine.Link.Tracks.writeLeds` — the LED section keeps this, and has seen every channel.
* `Affine.Link.Tracks.current` — the last frame of a channel that was seen carries its value.
-/

namespace Affine

def affineCmdHeartbeat : UInt8 := 0x11
def affineHeartbeatIntervalMs : UInt64 := 100
def affineBoardInfoDelayMs : UInt64 := 500
def affineBoardInfoTimeoutMs : UInt64 := 1000

/-- `saturating_sub`. -/
def saturatingSub (a b : UInt64) : UInt64 := if b ≤ a then a - b else 0

/-- How a loop writes a command to its connection, with the frames that the connection has
carried, the oldest first. The first argument of `send` is what the system does with the frame. -/
structure Wire (ρ : Type) where
  send : PortWrite → UInt8 → List UInt8 → ρ → Bool × ρ
  sent : ρ → List (List UInt8)
  isOpen : ρ → Bool
  frame : UInt8 → List UInt8 → List UInt8
  command : List UInt8 → Option UInt8
  command_frame : ∀ cmd payload, command (frame cmd payload) = some cmd
  sent_send : ∀ answer cmd payload conn, sent (send answer cmd payload conn).2 =
    if (send answer cmd payload conn).1 then sent conn ++ [frame cmd payload] else sent conn
  isOpen_send : ∀ answer cmd payload conn, isOpen (send answer cmd payload conn).2 = isOpen conn

/-- The variables of a loop that start afresh with each connection. The flags of the board
information are fields of the session on the serial link. -/
structure LoopVars where
  lastHeartbeat : UInt64
  boardInfoStartMs : UInt64
  boardInfoRequestMs : UInt64
  boardInfoPending : Bool
  boardInfoLogged : Bool
  lastButtonsSequence : UInt64
  lastBillboardSequence : UInt64
  lastPwmSequence : UInt64

namespace LoopVars

/-- The variables of a new connection, with the two readings of the clock. -/
def start (heartbeatMs boardInfoMs : UInt64) : LoopVars where
  lastHeartbeat := heartbeatMs
  boardInfoStartMs := boardInfoMs
  boardInfoRequestMs := 0
  boardInfoPending := true
  boardInfoLogged := false
  lastButtonsSequence := 0
  lastBillboardSequence := 0
  lastPwmSequence := 0

/-- What the loop does with a board-info frame. -/
def boardInfo (vars : LoopVars) : LoopVars :=
  { vars with boardInfoPending := false, boardInfoLogged := true }

/-- The sequence number of a channel that was last sent. -/
def last (vars : LoopVars) : LedChannel → UInt64
  | .buttons => vars.lastButtonsSequence
  | .billboard => vars.lastBillboardSequence
  | .pwm => vars.lastPwmSequence

/-- Remember the sequence number of a channel. -/
def setLast (vars : LoopVars) (sequence : UInt64) : LedChannel → LoopVars
  | .buttons => { vars with lastButtonsSequence := sequence }
  | .billboard => { vars with lastBillboardSequence := sequence }
  | .pwm => { vars with lastPwmSequence := sequence }

/-- A new connection has sent no LEDs. -/
@[simp] lemma last_start (heartbeatMs boardInfoMs : UInt64) (channel : LedChannel) :
    (start heartbeatMs boardInfoMs).last channel = 0 := by
  cases channel <;> rfl

/-- Board information leaves what is remembered of the LEDs. -/
@[simp] lemma last_boardInfo (vars : LoopVars) (channel : LedChannel) :
    vars.boardInfo.last channel = vars.last channel := by
  cases channel <;> rfl

/-- The sequence number of a channel that is stored. -/
@[simp] lemma last_setLast_self (vars : LoopVars) (sequence : UInt64) (channel : LedChannel) :
    (vars.setLast sequence channel).last channel = sequence := by
  cases channel <;> rfl

/-- The sequence number of another channel stays. -/
lemma last_setLast_of_ne (vars : LoopVars) (sequence : UInt64) {channel channel' : LedChannel}
    (h : channel' ≠ channel) :
    (vars.setLast sequence channel).last channel' = vars.last channel' := by
  cases channel <;> cases channel' <;> first | rfl | exact absurd rfl h

end LoopVars

namespace LoopVars

variable (vars : LoopVars) (now : UInt64)

/-- The query for board information is to be sent, for the first time or again. -/
def QueryDue : Prop :=
  (vars.boardInfoRequestMs = 0 ∧
      affineBoardInfoDelayMs ≤ saturatingSub now vars.boardInfoStartMs) ∨
    (vars.boardInfoRequestMs ≠ 0 ∧
      affineBoardInfoTimeoutMs ≤ saturatingSub now vars.boardInfoRequestMs)

/-- The query is to be sent again, and it is late. -/
def QueryLate : Prop :=
  vars.boardInfoRequestMs ≠ 0 ∧
    affineBoardInfoTimeoutMs ≤ saturatingSub now vars.boardInfoRequestMs ∧
    3000 < saturatingSub now vars.boardInfoStartMs

instance : Decidable (vars.QueryDue now) := inferInstanceAs (Decidable (_ ∨ _))
instance : Decidable (vars.QueryLate now) := inferInstanceAs (Decidable (_ ∧ _))

end LoopVars

/-- A connection with the variables of the loop. -/
structure Link (ρ : Type) where
  conn : ρ
  vars : LoopVars

namespace Link

variable {ρ : Type} (w : Wire ρ) (takes : UInt8 → PortWrite) (now : UInt64) (l : Link ρ)

/-- A write of a section: with it, the loop remembers something. -/
def write (cmd : UInt8) (payload : List UInt8) (remember : LoopVars → LoopVars) :
    Except (Link ρ) (Link ρ) :=
  match w.send (takes cmd) cmd payload l.conn with
  | (true, conn) => .ok { conn := conn, vars := remember l.vars }
  | (false, conn) => .error { l with conn := conn }

/-- The heartbeat. -/
def heartbeat : Except (Link ρ) (Link ρ) :=
  if affineHeartbeatIntervalMs ≤ saturatingSub now l.vars.lastHeartbeat then
    l.write w takes affineCmdHeartbeat [] ({ · with lastHeartbeat := now })
  else .ok l

/-- The query for board information. -/
def queryBoardInfo : Except (Link ρ) (Link ρ) :=
  if l.vars.boardInfoPending then
    if l.vars.boardInfoRequestMs = 0 ∧
        affineBoardInfoDelayMs ≤ saturatingSub now l.vars.boardInfoStartMs then
      l.write w takes affineCmdGetBoardInfo [] ({ · with boardInfoRequestMs := now })
    else if l.vars.boardInfoRequestMs ≠ 0 ∧
        affineBoardInfoTimeoutMs ≤ saturatingSub now l.vars.boardInfoRequestMs then
      l.write w takes affineCmdGetBoardInfo [] fun vars =>
        let vars := { vars with boardInfoRequestMs := now }
        if 3000 < saturatingSub now vars.boardInfoStartMs ∧ ¬ vars.boardInfoLogged then
          vars.boardInfo
        else vars
    else .ok l
  else .ok l

/-- The part of `queryBoardInfo` between the check of the flag and the check whether the query is
given up. -/
def sendQuery : Except (Link ρ) (Link ρ) :=
  if l.vars.QueryDue now then
    l.write w takes affineCmdGetBoardInfo [] ({ · with boardInfoRequestMs := now })
  else .ok l

variable (payload : (channel : LedChannel) → List.Vector UInt8 channel.size → List UInt8)
  (output : Mai2OutputPage)

/-- The part of the LED section for a channel. -/
def writeLed (channel : LedChannel) : Except (Link ρ) (Link ρ) :=
  let led := output.led channel
  if led.version ≠ l.vars.last channel then
    l.write w takes channel.cmd (payload channel led.value) (·.setLast led.version channel)
  else .ok l

/-- The LED section. -/
def writeLeds : Except (Link ρ) (Link ρ) := do
  let l ← l.writeLed w takes payload output .buttons
  let l ← l.writeLed w takes payload output .billboard
  l.writeLed w takes payload output .pwm

/-! ## What the loop remembers -/

/-- The last frame of a channel. -/
def lastFrame (channel : LedChannel) : Option (List UInt8) :=
  Log.last (fun frame => w.command frame = some channel.cmd) (w.sent l.conn)

/-- The connection is open, and what the loop remembers of each channel is true, up to `n` changes
of the channels since. -/
structure Tracks (n : ℕ) : Prop where
  isOpen : w.isOpen l.conn
  led : ∀ channel, Versioned.Tracks (fun value => w.frame channel.cmd (payload channel value)) n
    (output.led channel) (l.vars.last channel) (l.lastFrame w channel)

variable {w takes now l payload output} {l' : Link ρ} {n m : ℕ}

/-- What a successful write does. -/
lemma write_eq_ok {cmd : UInt8} {bytes : List UInt8} {remember : LoopVars → LoopVars}
    (h : l.write w takes cmd bytes remember = .ok l') :
    l'.vars = remember l.vars ∧ w.sent l'.conn = w.sent l.conn ++ [w.frame cmd bytes] ∧
      w.isOpen l'.conn = w.isOpen l.conn := by
  have hsent := w.sent_send (takes cmd) cmd bytes l.conn
  have hopen := w.isOpen_send (takes cmd) cmd bytes l.conn
  unfold write at h
  split at h
  · rename_i conn hsend
    cases h
    rw [hsend] at hsent hopen
    exact ⟨rfl, hsent, hopen⟩
  · cases h

/-- `queryBoardInfo` checks the flag, sends the query, and gives it up if it is late.

**Proof sketch.** The cases are the flag, whether the query is due, and whether its write succeeds.
-/
lemma queryBoardInfo_eq : l.queryBoardInfo w takes now =
    if l.vars.boardInfoPending then
      match l.sendQuery w takes now with
      | .ok l' =>
        .ok (if l.vars.QueryLate now ∧ ¬ l'.vars.boardInfoLogged then
          { l' with vars := l'.vars.boardInfo } else l')
      | .error l' => .error l'
    else .ok l := by
  unfold queryBoardInfo sendQuery
  split
  · by_cases hfirst : l.vars.boardInfoRequestMs = 0
    · have hlate : ¬ l.vars.QueryLate now := fun h => h.1 hfirst
      simp only [LoopVars.QueryDue, hfirst, hlate, ne_eq, not_true_eq_false, false_and, true_and,
        or_false, if_false]
      split
      · cases l.write w takes affineCmdGetBoardInfo [] _ <;> rfl
      · rfl
    · simp only [LoopVars.QueryDue, LoopVars.QueryLate, hfirst, ne_eq, not_false_eq_true,
        false_and, true_and, false_or, if_false]
      split
      · next htimeout =>
        unfold write
        cases w.send (takes affineCmdGetBoardInfo) affineCmdGetBoardInfo [] l.conn with
        | mk sent conn =>
          cases sent
          · rfl
          · simp only [htimeout, true_and]
            split <;> rfl
      · next htimeout => simp only [htimeout, false_and, if_false]
  · rfl

/-- A command that is sent is the last frame of its own channel. -/
lemma write_lastFrame {cmd : UInt8} {bytes : List UInt8} {remember : LoopVars → LoopVars}
    (h : l.write w takes cmd bytes remember = .ok l') (channel : LedChannel) :
    l'.lastFrame w channel =
      if cmd = channel.cmd then some (w.frame cmd bytes) else l.lastFrame w channel := by
  obtain ⟨-, hsent, -⟩ := write_eq_ok h
  rw [lastFrame, hsent, Log.last_concat, w.command_frame]
  simp only [Option.some.injEq, decide_eq_true_eq]
  rfl

namespace Tracks

/-- A new connection. -/
lemma start {conn : ρ} (hopen : w.isOpen conn) (heartbeatMs boardInfoMs : UInt64) :
    Tracks w ⟨conn, .start heartbeatMs boardInfoMs⟩ payload output n :=
  ⟨hopen, fun channel => by
    rw [LoopVars.last_start]
    exact Versioned.tracks_zero⟩

/-- A change of the channels. -/
lemma step (h : l.Tracks w payload output n) {output' : Mai2OutputPage}
    (hstep : output.LedStep output') : l.Tracks w payload output' (n + 1) :=
  ⟨h.isOpen, fun channel => (h.led channel).step (hstep channel)⟩

/-- A write of another command that leaves the sequence numbers alone. -/
lemma write (h : l.Tracks w payload output n) {cmd : UInt8} {bytes : List UInt8}
    {remember : LoopVars → LoopVars} (hcmd : ∀ channel : LedChannel, cmd ≠ channel.cmd)
    (hlast : (remember l.vars).last = l.vars.last)
    (hl' : l.write w takes cmd bytes remember = .ok l') : l'.Tracks w payload output n := by
  obtain ⟨hvars, -, hopen⟩ := write_eq_ok hl'
  refine ⟨hopen.trans h.isOpen, fun channel => ?_⟩
  rw [hvars, hlast, write_lastFrame hl', if_neg (hcmd channel)]
  exact h.led channel

/-- The heartbeat section keeps what the loop remembers. -/
lemma heartbeat (h : l.Tracks w payload output n) (hl' : l.heartbeat w takes now = .ok l') :
    l'.Tracks w payload output n := by
  unfold Link.heartbeat at hl'
  split at hl'
  · refine h.write ?_ ?_ hl'
    · rintro (_ | _ | _) <;> decide
    · funext channel
      cases channel <;> rfl
  · cases hl'
    exact h

/-- The section of the query keeps what the loop remembers. -/
lemma queryBoardInfo (h : l.Tracks w payload output n)
    (hl' : l.queryBoardInfo w takes now = .ok l') : l'.Tracks w payload output n := by
  have hcmd : ∀ channel : LedChannel, affineCmdGetBoardInfo ≠ channel.cmd := by
    rintro (_ | _ | _) <;> decide
  unfold Link.queryBoardInfo at hl'
  split at hl'
  · split at hl'
    · refine h.write hcmd ?_ hl'
      funext channel
      cases channel <;> rfl
    · split at hl'
      · refine h.write hcmd ?_ hl'
        funext channel
        dsimp only
        split <;> cases channel <;> rfl
      · cases hl'
        exact h
  · cases hl'
    exact h

/-- The part of the LED section for a channel: the loop has seen the channel, and remembers what
it did of the others.

**Proof sketch.** If the channel has changed, its frame is the last one; the frames of the other
channels stay. -/
lemma writeLed (h : l.Tracks w payload output n) {channel : LedChannel}
    (hl' : l.writeLed w takes payload output channel = .ok l') :
    l'.Tracks w payload output n ∧ (output.led channel).version = l'.vars.last channel ∧
      ∀ channel' ≠ channel, l'.vars.last channel' = l.vars.last channel' := by
  unfold Link.writeLed at hl'
  dsimp only at hl'
  split at hl'
  · obtain ⟨hvars, -, hopen⟩ := write_eq_ok hl'
    refine ⟨⟨hopen.trans h.isOpen, fun channel' => ?_⟩, ?_, fun channel' hne => ?_⟩
    · rw [hvars, write_lastFrame hl']
      by_cases heq : channel' = channel
      · subst heq
        rw [if_pos rfl, LoopVars.last_setLast_self]
        exact Versioned.tracks_self
      · rw [if_neg fun hcmd => heq (LedChannel.cmd_injective hcmd).symm,
          LoopVars.last_setLast_of_ne _ _ heq]
        exact h.led channel'
    · rw [hvars, LoopVars.last_setLast_self]
    · rw [hvars, LoopVars.last_setLast_of_ne _ _ hne]
  · rename_i hseen
    cases hl'
    exact ⟨h, not_not.mp hseen, fun _ _ => rfl⟩

/-- **The LED section**: if every write succeeds, then the loop has seen the sequence number of
every channel, and what it remembers is true. -/
theorem writeLeds (h : l.Tracks w payload output n)
    (hl' : l.writeLeds w takes payload output = .ok l') :
    l'.Tracks w payload output n ∧
      ∀ channel, (output.led channel).version = l'.vars.last channel := by
  obtain ⟨l₁, h₁, hl'⟩ := Slice.bind_eq_ok.mp hl'
  obtain ⟨l₂, h₂, hl'⟩ := Slice.bind_eq_ok.mp hl'
  obtain ⟨ht₁, hbuttons, -⟩ := h.writeLed h₁
  obtain ⟨ht₂, hbillboard, hkeep₂⟩ := ht₁.writeLed h₂
  obtain ⟨ht₃, hpwm, hkeep₃⟩ := ht₂.writeLed hl'
  refine ⟨ht₃, ?_⟩
  rintro (_ | _ | _)
  · rw [hkeep₃ _ (by decide), hkeep₂ _ (by decide)]
    exact hbuttons
  · rw [hkeep₃ _ (by decide)]
    exact hbillboard
  · exact hpwm

/-- **The last frame of a channel carries its value**, once the loop has seen the sequence number
of the channel, if that is not zero and there were fewer than `2^64` changes. -/
theorem current (h : l.Tracks w payload output n) (hn : n < 2 ^ 64) {channel : LedChannel}
    (hseen : (output.led channel).version = l.vars.last channel)
    (hnonzero : (output.led channel).version ≠ 0) :
    l.lastFrame w channel =
      some (w.frame channel.cmd (payload channel (output.led channel).value)) :=
  (h.led channel).current hn hseen hnonzero

end Tracks

end Link

end Affine
