import Affine.Mai2.LedDelivery

set_option relaxedAutoImplicit false
set_option autoImplicit false

/-!
# The suspension of LED output

The serial loop suspends LED output when touch input is enabled and stale, to protect it. It resumes
LED output only with a new touch frame, also if the game disables touch input in the meantime, and
also on a new connection. So while touch input is disabled, a pass withholds an LED update exactly
if an earlier pass has suspended LED output and no touch frame has come since
(`Affine.leds_attempted_iff`).

## Main definitions

* `Affine.Link.attempts` — the channels that an LED section tries to write.
* `Affine.SerialThread.ready`, `Affine.SerialThread.attempts` — a pass that holds an active session
  up to its check of touch input, and the channels that the pass tries to write.
* `Affine.SerialThread.LedsAttempted` — a pass withholds no LED update while touch is disabled.

## Main results

* `Affine.SerialThread.ledsAttempted_iff`, `Affine.leds_attempted_iff`.
-/

namespace Affine

namespace Link

variable {ρ : Type} (w : Wire ρ) (takes : UInt8 → PortWrite)
  (payload : (channel : LedChannel) → List.Vector UInt8 channel.size → List UInt8)
  (output : Mai2OutputPage)

/-- The LED section over some channels. -/
def writeAll (channels : List LedChannel) (l : Link ρ) : Except (Link ρ) (Link ρ) :=
  channels.foldlM (fun l channel => l.writeLed w takes payload output channel) l

/-- The channels among some that the LED section tries to write: those that have changed, up to the
first whose write fails. -/
def attempts : List LedChannel → Link ρ → List LedChannel
  | [], _ => []
  | channel :: channels, l =>
    let rest :=
      match l.writeLed w takes payload output channel with
      | .ok l' => attempts channels l'
      | .error _ => []
    if (output.led channel).version ≠ l.vars.last channel then channel :: rest else rest

variable {w takes payload output} {l l' : Link ρ}

/-- The LED section is the one over all channels. -/
lemma writeLeds_eq : l.writeLeds w takes payload output =
    writeAll w takes payload output [.buttons, .billboard, .pwm] l := by
  simp [writeLeds, writeAll]

/-- The part of the LED section for a channel fails only if the channel has changed. -/
lemma changed_of_writeLed_error {channel : LedChannel}
    (h : l.writeLed w takes payload output channel = .error l') :
    (output.led channel).version ≠ l.vars.last channel := by
  intro hsame
  rw [writeLed, if_neg (not_not.mpr hsame)] at h
  cases h

/-- The part of the LED section for a channel leaves what the loop remembers of the others. -/
lemma last_writeLed {channel channel' : LedChannel}
    (h : l.writeLed w takes payload output channel = .ok l') (hne : channel' ≠ channel) :
    l'.vars.last channel' = l.vars.last channel' := by
  unfold writeLed at h
  dsimp only at h
  split at h
  · rw [(write_eq_ok h).1, LoopVars.last_setLast_of_ne _ _ hne]
  · cases h
    rfl

/-- **A channel that has changed is tried**, unless the write of another channel that is tried
fails.

**Proof sketch.** Induction on the channels. A channel in front that is written leaves what the loop
remembers of the others, so that they have still changed. -/
lemma mem_attempts {channels : List LedChannel} {channel : LedChannel}
    (hmem : channel ∈ channels) (hchanged : (output.led channel).version ≠ l.vars.last channel) :
    channel ∈ attempts w takes payload output channels l ∨
      attempts w takes payload output channels l ≠ [] ∧
        ∃ l', writeAll w takes payload output channels l = .error l' := by
  induction channels generalizing l with
  | nil => exact absurd hmem List.not_mem_nil
  | cons c channels ih =>
    unfold attempts writeAll
    rw [List.foldlM_cons]
    cases hwrite : l.writeLed w takes payload output c with
    | error l' =>
      dsimp only
      rw [if_pos (changed_of_writeLed_error hwrite)]
      exact .inr ⟨List.cons_ne_nil _ _, l', rfl⟩
    | ok l' =>
      dsimp only
      by_cases heq : channel = c
      · subst heq
        rw [if_pos hchanged]
        exact .inl List.mem_cons_self
      · have hlater := ih ((List.mem_cons.mp hmem).resolve_left heq)
          ((last_writeLed hwrite heq).symm ▸ hchanged)
        rcases hlater with htried | ⟨hsome, hfailed⟩
        · left
          split_ifs
          · exact List.mem_cons_of_mem _ htried
          · exact htried
        · refine .inr ⟨?_, hfailed⟩
          split_ifs
          · exact List.cons_ne_nil _ _
          · exact hsome

/-- **What is tried is what is written**, if no write fails.

**Proof sketch.** Induction on the channels. -/
theorem sent_writeAll {channels : List LedChannel}
    (h : writeAll w takes payload output channels l = .ok l') :
    w.sent l'.conn = w.sent l.conn ++ (attempts w takes payload output channels l).map
      fun channel => w.frame channel.cmd (payload channel (output.led channel).value) := by
  induction channels generalizing l with
  | nil =>
    cases h
    simp [attempts]
  | cons c channels ih =>
    unfold writeAll at h
    rw [List.foldlM_cons] at h
    obtain ⟨l₁, hwrite, h⟩ := Slice.bind_eq_ok.mp h
    unfold attempts
    rw [ih h, hwrite]
    dsimp only
    unfold writeLed at hwrite
    dsimp only at hwrite
    split at hwrite
    · rename_i hchanged
      rw [if_pos hchanged, (write_eq_ok hwrite).2.1]
      simp
    · rename_i hsame
      cases hwrite
      rw [if_neg hsame]

end Link

namespace SerialThread

variable (t : SerialThread) (device : DeviceHandle) (tick : SerialTick)

/-- A pass up to its check of touch input: the device, the thread and its connection there, if the
pass holds an active session then. -/
def ready : Option (DeviceHandle × SerialThread × Link SerialSession) :=
  if ¬ device.enabled then none
  else if device.vendorConnected ∨ tick.vendorPresent then none
  else
    match t.connect device tick with
    | none => none
    | some (device, t) =>
      match t.session with
      | none => none
      | some session =>
        let session := if tick.readerFails then session.failReader else session
        let t := { t with
          session := some session
          vars := if tick.boardInfo then t.vars.boardInfo else t.vars }
        if ¬ session.isActive then none
        else
          let commands := do
            let link ← Link.heartbeat serialWire tick.takes tick.now ⟨session, t.vars⟩
            link.queryBoardInfo serialWire tick.takes tick.now
          match commands with
          | .error _ => none
          | .ok link => some (device, { t with session := some link.conn, vars := link.vars }, link)

/-- The rest of such a pass. -/
def finish (link : Link SerialSession) : PassEnd × DeviceHandle × SerialThread :=
  let output := device.outputPage
  let t := t.checkTouch output tick
  if t.touchOlder output tick affineTouchStaleReconnectMs then (.rescan, t.disconnect device)
  else if t.ledOutputSuspended then (.suspended, device, t)
  else
    match link.writeLeds serialWire tick.takes serialPayload output with
    | .error link => (.rescan, { t with vars := link.vars }.disconnect device)
    | .ok link => (.done, device, { t with session := some link.conn, vars := link.vars })

/-- The channels that a pass tries to write. -/
def attempts : List LedChannel :=
  match t.ready device tick with
  | none => []
  | some (device, t, link) =>
    let t := t.checkTouch device.outputPage tick
    if t.touchOlder device.outputPage tick affineTouchStaleReconnectMs then []
    else if t.ledOutputSuspended then []
    else link.attempts serialWire tick.takes serialPayload device.outputPage
      [.buttons, .billboard, .pwm]

/-- The sequence number of a channel that was last sent in the session of a pass: a new session has
sent nothing. -/
def lastSent (channel : LedChannel) : UInt64 :=
  if t.session.isSome then t.vars.last channel else 0

/-- **A pass withholds no LED update while touch input is disabled**: if it holds an active session,
it tries to write each channel that has changed, unless the session is given up because another
channel that it tries cannot be written. -/
def LedsAttempted : Prop :=
  (t.ready device tick).isSome → device.outputPage.touchEnabled = 0 →
    ∀ channel, (device.outputPage.led channel).version ≠ t.lastSent channel →
      channel ∈ t.attempts device tick ∨
        t.attempts device tick ≠ [] ∧ (t.pass device tick).2.2.session = none

/-- Before a pass with an active session and without touch input, LED output is not suspended, or
there are new touch frames, or no channel has changed. -/
def Resumes : Prop :=
  (t.ready device tick).isSome → device.outputPage.touchEnabled = 0 →
    t.ledOutputSuspended = false ∨ tick.touchFrames ≠ t.lastTouchFrames ∨
      ∀ channel, (device.outputPage.led channel).version = t.lastSent channel

variable {t device tick} {device' : DeviceHandle} {t' : SerialThread} {link : Link SerialSession}

/-! ## A pass with an active session -/

/-- Opening a session keeps the output page and what decides about LED output. -/
lemma connect_keeps (h : t.connect device tick = some (device', t')) :
    device'.outputPage = device.outputPage ∧
      (∀ channel, t'.vars.last channel = t.lastSent channel) ∧
      t'.ledOutputSuspended = t.ledOutputSuspended ∧ t'.lastTouchFrames = t.lastTouchFrames := by
  unfold lastSent
  obtain ⟨hsession, rfl, rfl⟩ | ⟨hsession, rfl, rfl⟩ := connect_cases h
  · refine ⟨rfl, fun channel => ?_, rfl, rfl⟩
    rw [if_pos hsession]
  · refine ⟨rfl, fun channel => ?_, rfl, rfl⟩
    rw [if_neg hsession]
    exact LoopVars.last_start _ _ channel

/-- The heartbeat and the query for board information leave what the loop remembers of the LEDs.

**Proof sketch.** The cases are the results of the two sections. Neither has the command of a
channel. -/
lemma last_commands {l l' : Link SerialSession}
    (h : (do
      let link ← l.heartbeat serialWire tick.takes tick.now
      link.queryBoardInfo serialWire tick.takes tick.now) = .ok l') (channel : LedChannel) :
    l'.vars.last channel = l.vars.last channel := by
  obtain ⟨l₁, hheart, hquery⟩ := Slice.bind_eq_ok.mp h
  have h₁ : l₁.vars.last channel = l.vars.last channel := by
    unfold Link.heartbeat at hheart
    split at hheart
    · rw [(Link.write_eq_ok hheart).1]
      cases channel <;> rfl
    · cases hheart
      rfl
  rw [← h₁]
  unfold Link.queryBoardInfo at hquery
  split_ifs at hquery
  · rw [(Link.write_eq_ok hquery).1]
    cases channel <;> rfl
  · rw [(Link.write_eq_ok hquery).1]
    dsimp only
    split <;> cases channel <;> rfl
  · cases hquery
    rfl
  · cases hquery
    rfl

/-- **A pass with an active session**: what it finds, and what it does from there on.

**Proof sketch.** The pass and its first part take the same branches. -/
lemma pass_of_ready (h : t.ready device tick = some (device', t', link)) :
    t.pass device tick = t'.finish device' tick link ∧ device'.outputPage = device.outputPage ∧
      (∀ channel, link.vars.last channel = t.lastSent channel) ∧
      t'.ledOutputSuspended = t.ledOutputSuspended ∧ t'.lastTouchFrames = t.lastTouchFrames := by
  unfold ready at h
  unfold pass
  by_cases hdisabled : ¬ device.enabled
  · rw [if_pos hdisabled] at h
    cases h
  by_cases hvendor : device.vendorConnected ∨ tick.vendorPresent
  · rw [if_neg hdisabled, if_pos hvendor] at h
    cases h
  rw [if_neg hdisabled, if_neg hvendor] at h ⊢
  cases hconnect : t.connect device tick with
  | none =>
    rw [hconnect] at h
    cases h
  | some result =>
    obtain ⟨device₁, t₁⟩ := result
    obtain ⟨hpage, hlast, hsuspended, hframes⟩ := connect_keeps hconnect
    rw [hconnect] at h
    dsimp only at h ⊢
    cases hsession : t₁.session with
    | none =>
      rw [hsession] at h
      cases h
    | some session =>
      have hvars : ∀ channel, (if tick.boardInfo then t₁.vars.boardInfo else t₁.vars).last channel =
          t.lastSent channel := by
        intro channel
        rw [← hlast channel]
        split
        · exact LoopVars.last_boardInfo _ channel
        · rfl
      rw [hsession] at h
      dsimp only at h ⊢
      generalize (if tick.readerFails then session.failReader else session) = session' at h ⊢
      generalize (if tick.boardInfo then t₁.vars.boardInfo else t₁.vars) = vars at h hvars ⊢
      by_cases hactive : ¬ session'.isActive
      · rw [if_pos hactive] at h
        cases h
      rw [if_neg hactive] at h ⊢
      unfold serve
      dsimp only
      generalize hcommands : (Link.heartbeat serialWire tick.takes tick.now ⟨session', vars⟩ >>=
        fun link => link.queryBoardInfo serialWire tick.takes tick.now) = commands at h ⊢
      cases commands with
      | error l₁ => cases h
      | ok l₁ =>
        cases h
        refine ⟨rfl, hpage, fun channel => ?_, hsuspended, hframes⟩
        rw [last_commands hcommands, hvars channel]

/-- While touch input is disabled it is not watched. -/
lemma touchOlder_of_disabled {output : Mai2OutputPage} (h : output.touchEnabled = 0)
    (limit : UInt64) : t.touchOlder output tick limit = false := by
  simp [touchOlder, touchProtectActive, h]

/-- While touch input is disabled, LED output stays suspended until there are new touch frames. -/
lemma checkTouch_of_disabled {output : Mai2OutputPage} (h : output.touchEnabled = 0) :
    (t.checkTouch output tick).ledOutputSuspended = true ↔
      t.ledOutputSuspended = true ∧ tick.touchFrames = t.lastTouchFrames := by
  unfold checkTouch
  dsimp only
  rw [touchOlder_of_disabled h, if_neg Bool.false_ne_true]
  by_cases hframes : tick.touchFrames = t.lastTouchFrames
  · rw [if_neg (not_not.mpr hframes)]
    exact (and_iff_left hframes).symm
  · rw [if_pos hframes]
    exact iff_of_false Bool.false_ne_true fun hboth => hframes hboth.2

/-- **When a pass withholds no LED update**: exactly if LED output is not suspended before it, or
there are new touch frames, or there is no update.

**Proof sketch.** While touch input is disabled, the pass neither suspends LED output nor gives up
the session for it. So it comes to its LED section exactly if LED output is not suspended behind the
check for new touch frames, and there each channel that has changed is tried (`Link.mem_attempts`).
-/
theorem ledsAttempted_iff : t.LedsAttempted device tick ↔ t.Resumes device tick := by
  unfold LedsAttempted Resumes
  refine forall_congr' fun hsome => forall_congr' fun htouch => ?_
  obtain ⟨⟨device', t', link⟩, hready⟩ := Option.isSome_iff_exists.mp hsome
  obtain ⟨hpass, hpage, hlast, hsuspended, hframes⟩ := pass_of_ready hready
  have htouch' : device'.outputPage.touchEnabled = 0 := by rw [hpage, htouch]
  have hcheck : (t'.checkTouch device'.outputPage tick).ledOutputSuspended = true ↔
      t.ledOutputSuspended = true ∧ tick.touchFrames = t.lastTouchFrames := by
    rw [checkTouch_of_disabled htouch', hsuspended, hframes]
  unfold attempts
  rw [hready, hpass]
  unfold finish
  dsimp only
  rw [touchOlder_of_disabled htouch', if_neg Bool.false_ne_true, if_neg Bool.false_ne_true]
  by_cases hwithheld : (t'.checkTouch device'.outputPage tick).ledOutputSuspended = true
  · obtain ⟨hflag, hnone⟩ := hcheck.mp hwithheld
    rw [if_pos hwithheld]
    constructor
    · intro h
      refine .inr (.inr fun channel => ?_)
      by_contra hchanged
      rcases h channel hchanged with htried | ⟨hsomeTried, -⟩
      · exact List.not_mem_nil htried
      · exact hsomeTried rfl
    · rintro (hclear | hnew | hsame) channel hchanged
      · rw [hflag] at hclear
        cases hclear
      · exact absurd hnone hnew
      · exact absurd (hsame channel) hchanged
  · rw [if_neg hwithheld, if_neg hwithheld]
    refine iff_of_true (fun channel hchanged => ?_) ?_
    · rw [← hpage, ← hlast channel] at hchanged
      have hmem : channel ∈ [LedChannel.buttons, .billboard, .pwm] := by cases channel <;> decide
      rcases Link.mem_attempts hmem hchanged with htried | ⟨hsomeTried, l', hfailed⟩
      · exact .inl htried
      · refine .inr ⟨hsomeTried, ?_⟩
        rw [Link.writeLeds_eq, hfailed]
        rfl
    · by_cases hflag : t.ledOutputSuspended = true
      · exact .inr (.inl fun hnone => hwithheld (hcheck.mpr ⟨hflag, hnone⟩))
      · exact .inl (Bool.eq_false_iff.mpr hflag)

end SerialThread

/-! ## The runs -/

namespace LedSystem

/-- No pass withholds an LED update while touch input is disabled. -/
def LedsAttempted (player : Fin 2) (s : LedSystem) (e : LedEvent) : Prop :=
  ∀ tick, e = .serialPass tick → s.serial.LedsAttempted (s.runtime.devices player) tick

/-- Each pass without touch input finds LED output resumed, or nothing to send. -/
def Resumes (player : Fin 2) (s : LedSystem) (e : LedEvent) : Prop :=
  ∀ tick, e = .serialPass tick → s.serial.Resumes (s.runtime.devices player) tick

end LedSystem

/-- **When LED suspension ends with its reason**: for every run of the calls and the loops of a
player, no pass of the serial loop withholds an LED update while touch input is disabled, exactly if
each such pass finds LED output not suspended, or new touch frames, or nothing to send.

**Proof sketch.** The condition is exact for each pass (`SerialThread.ledsAttempted_iff`). -/
theorem leds_attempted_iff (player : Fin 2) (runtime : Mai2Runtime) (now touchFrames : UInt64)
    (events : List LedEvent) :
    Run.EachStep (LedSystem.step player) (.init runtime now touchFrames) events
        (LedSystem.LedsAttempted player) ↔
      Run.EachStep (LedSystem.step player) (.init runtime now touchFrames) events
        (LedSystem.Resumes player) := by
  refine Run.eachStep_congr (I := fun _ => True) trivial (fun _ _ _ _ _ => trivial) ?_
  intro e s _ _ _
  exact forall_congr' fun tick => forall_congr' fun _ => SerialThread.ledsAttempted_iff

/-- A pass at a time, with the counters of the touch input then. -/
def passAt (now touchFrames touchLastUpdateMs : UInt64) : SerialTick :=
  { takingTick with
    heartbeatMs := now
    boardInfoMs := now
    connectedMs := now
    now := now
    touchFrames := touchFrames
    touchLastUpdateMs := touchLastUpdateMs }

/-- The device connects, touch input comes until `3700` ms and is stale at `4100` ms. Then the game
disables touch input and sets the billboard. -/
def touchDisabledRun : List LedEvent :=
  [.serialPass (passAt 1000 0 0), .serialPass (passAt 3700 270 3700),
    .serialPass (passAt 4100 270 3700), .setTouchEnabled false false, .billboardSet 0 [1, 2, 3]]

/-- **LED output stays suspended although touch input is disabled**: the next pass holds an active
session and does not try to write the billboard. -/
theorem led_withheld :
    ¬ Run.EachStep (LedSystem.step 0) (.init freshRuntime 1000 0)
      (touchDisabledRun ++ [.serialPass (passAt 4110 270 3700)]) (LedSystem.LedsAttempted 0) := by
  intro h
  have hpass := h touchDisabledRun (.serialPass (passAt 4110 270 3700)) _ _ (List.prefix_refl _)
    rfl rfl (passAt 4110 270 3700) rfl (by decide +kernel) (by decide +kernel) .billboard
    (by decide +kernel)
  rcases hpass with htried | ⟨htried, -⟩
  · exact absurd htried (by decide +kernel)
  · exact absurd htried (by decide +kernel)

end Affine
