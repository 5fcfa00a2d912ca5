import Affine.Lib.Labelled
import Affine.Mai2.ClosedSession

set_option relaxedAutoImplicit false
set_option autoImplicit false

/-!
# Handover to the vendor interface

While the vendor thread of a player has its device open, `device_thread` (`affine-mai2/src/lib.rs`)
gives up the serial link: it looks at `vendor_connected` at the top of a pass, so that it finishes
the pass in which the flag is set. The steps are those of `Affine.SerialRace`, in any order; a turn
is a step of the device thread.

## Main definitions

* `Affine.SerialRace.Ports` — at most the port of the session that the device thread has is open.
* `Affine.DevicePc.opensLeft`, `Affine.DevicePc.writesLeft`, `Affine.DevicePc.rank` — what the
  device thread may still do before it looks at the flag, and how many turns it takes.
* `Affine.SerialRace.Turn`, `Affine.SerialRace.Held` — what a turn does, and the steps under the
  flag.

## Main results

* `Affine.SerialRace.Drains.turn` — a turn uses up what is left.
* `Affine.vendor_takes_over` — the link is given up for good, after a bounded number of turns.
-/

namespace Affine

/-! ## Writes of a section -/

namespace Link

variable {ρ : Type} {w : Wire ρ} {takes : UInt8 → PortWrite} {now : UInt64} {l : Link ρ}

/-- A section has left the connection open or closed, and has written at most one frame. -/
def WritesOne (w : Wire ρ) (l : Link ρ) : Except (Link ρ) (Link ρ) → Prop
  | .ok l' | .error l' =>
    w.isOpen l'.conn = w.isOpen l.conn ∧ (w.sent l'.conn).length ≤ (w.sent l.conn).length + 1

/-- A section that does nothing. -/
lemma writesOne_same (l : Link ρ) : WritesOne w l (.ok l) := ⟨rfl, Nat.le_succ _⟩

/-- A command writes at most its frame. -/
lemma writesOne_write (cmd : UInt8) (payload : List UInt8) (remember : LoopVars → LoopVars) :
    WritesOne w l (l.write w takes cmd payload remember) := by
  have hopen := w.isOpen_send (takes cmd) cmd payload l.conn
  have hsent := congrArg List.length (w.sent_send (takes cmd) cmd payload l.conn)
  unfold write
  cases hsend : w.send (takes cmd) cmd payload l.conn with
  | mk written conn =>
    rw [hsend] at hopen hsent
    cases written
    · exact ⟨hopen, by rw [hsent]; simp⟩
    · exact ⟨hopen, by rw [hsent]; simp⟩

/-- The heartbeat section writes at most one frame. -/
lemma writesOne_heartbeat : WritesOne w l (l.heartbeat w takes now) := by
  unfold heartbeat
  split
  · exact writesOne_write _ _ _
  · exact writesOne_same l

/-- The section of the query writes at most one frame. -/
lemma writesOne_sendQuery : WritesOne w l (l.sendQuery w takes now) := by
  unfold sendQuery
  split
  · exact writesOne_write _ _ _
  · exact writesOne_same l

/-- The section of an LED channel writes at most one frame. -/
lemma writesOne_writeLed
    (payload : (channel : LedChannel) → List.Vector UInt8 channel.size → List UInt8)
    (output : Mai2OutputPage) (channel : LedChannel) :
    WritesOne w l (l.writeLed w takes payload output channel) := by
  unfold writeLed
  dsimp only
  split
  · exact writesOne_write _ _ _
  · exact writesOne_same l

end Link

/-! ## What is left to do -/

namespace DevicePc

/-- The sessions that the thread may open before it looks at the flag. -/
@[simp] def opensLeft : DevicePc → Bool → ℕ
  | connect, held => if held then 0 else 1
  | _, _ => 0

/-- The frames that the thread may write before it looks at the flag: a heartbeat, a query, and one
for each LED channel. -/
@[simp] def writesLeft : DevicePc → ℕ
  | connect | opened _ | checkActive _ | checkFailed _ | heartbeat _ => 5
  | boardInfo _ | query _ => 4
  | giveUp _ | clearPending _ | setLogged _ | checkTouch _ => 3
  | leds _ _ channels => channels.length
  | _ => 0

/-- The turns that the thread takes, at most, until it has closed the port of its session; `held` is
whether it has one. -/
@[simp] def rank : DevicePc → Bool → ℕ
  | connect, _ => 19
  | opened _, _ => 18
  | checkActive _, _ => 17
  | checkFailed _, _ => 16
  | heartbeat _, _ => 15
  | boardInfo _, _ => 14
  | query _, _ => 13
  | giveUp _, _ => 12
  | clearPending _, _ => 11
  | setLogged _, _ => 10
  | checkTouch _, _ => 9
  | leds _ _ channels, _ => 5 + channels.length
  | top, held => if held then 4 else 0
  | probe, held => if held then 3 else 0
  | takeSession, held => if held then 2 else 0
  | closePort _, _ => 1
  | _, _ => 0

end DevicePc

/-- A list of which one element changes. -/
lemma sum_map_set_le {α : Type} (f : α → ℕ) (d x : α) {n : ℕ} (l : List α) (i : ℕ)
    (h : f x ≤ f (l.getD i d) + n) : ((l.set i x).map f).sum ≤ (l.map f).sum + n := by
  induction l generalizing i with
  | nil => simp
  | cons a l ih =>
    cases i with
    | zero =>
      simp only [List.getD_cons_zero] at h
      simp only [List.set_cons_zero, List.map_cons, List.sum_cons]
      omega
    | succ i =>
      simp only [List.getD_cons_succ] at h
      have htail := ih i h
      simp only [List.set_cons_succ, List.map_cons, List.sum_cons]
      omega

namespace SerialRace

/-- The frames that the sessions have carried. -/
def framesSent (s : SerialRace) : ℕ := (s.sessions.map fun session => session.port.sent.length).sum

/-- What is left to do of all this. -/
def opensLeft (s : SerialRace) : ℕ := s.thread.pc.opensLeft s.thread.session.isSome

/-- The turns until the port is closed. -/
def rank (s : SerialRace) : ℕ := s.thread.pc.rank s.thread.session.isSome

/-- At most the port of the session that the device thread has, or is about to close, is open. -/
structure Ports (s : SerialRace) : Prop where
  readers : s.sessions.length = s.readers.length
  isOpen : ∀ i, (s.session i).port.isOpen = true →
    s.thread.session = some i ∨ s.thread.pc = .closePort i
  leds : ∀ i output channels, s.thread.pc = .leds i output channels → channels.length ≤ 3

/-- A step uses up what is left: `n` turns, and whatever it opens and writes. -/
structure Drains (s t : SerialRace) (n : ℕ) : Prop where
  opens : t.sessions.length + t.opensLeft ≤ s.sessions.length + s.opensLeft
  writes : t.framesSent + t.thread.pc.writesLeft ≤ s.framesSent + s.thread.pc.writesLeft
  rank : t.rank ≤ s.rank - n

variable {s t : SerialRace}

/-! ## Sessions -/

/-- A store to a session. -/
lemma session_setSession_eq (s : SerialRace) (i j : ℕ) (session : SerialSession) :
    (s.setSession i session).session j =
      if i = j ∧ j < s.sessions.length then session else s.session j := by
  simp only [SerialRace.session, setSession, List.getD_eq_getElem?_getD, List.getElem?_set]
  by_cases hij : i = j
  · subst hij
    by_cases hlen : i < s.sessions.length
    · simp [hlen]
    · simp [hlen]
  · simp [hij]

/-- A store to a session that opens no port. -/
lemma isOpen_setSession {i j : ℕ} {session : SerialSession}
    (h : session.port.isOpen = true → (s.session i).port.isOpen = true)
    (hopen : ((s.setSession i session).session j).port.isOpen = true) :
    (s.session j).port.isOpen = true := by
  rw [session_setSession_eq] at hopen
  split at hopen
  · next hij =>
    rw [← hij.1]
    exact h hopen
  · exact hopen

/-- A store to a session. -/
lemma framesSent_setSession {i n : ℕ} {session : SerialSession}
    (h : session.port.sent.length ≤ (s.session i).port.sent.length + n) :
    (s.setSession i session).framesSent ≤ s.framesSent + n :=
  sum_map_set_le _ (SerialSession.new .default) session s.sessions i h

/-- What a step that opens no session does to the sessions: it opens no port, and writes at most `n`
frames. -/
structure KeepsSessions (s t : SerialRace) (n : ℕ) : Prop where
  readers : t.readers.length = s.readers.length
  length : t.sessions.length = s.sessions.length
  isOpen : ∀ i, (t.session i).port.isOpen = true → (s.session i).port.isOpen = true
  sent : t.framesSent ≤ s.framesSent + n

/-- A step that leaves the sessions. -/
lemma KeepsSessions.same (hreaders : t.readers.length = s.readers.length)
    (hsessions : t.sessions = s.sessions) : KeepsSessions s t 0 := by
  refine ⟨hreaders, congrArg _ hsessions, fun i h => ?_, ?_⟩
  · rwa [SerialRace.session, hsessions] at h
  · rw [framesSent, framesSent, hsessions]
    exact Nat.le_refl _

/-- A store to a session. -/
lemma KeepsSessions.store {i n : ℕ} {session : SerialSession}
    (hreaders : t.readers.length = s.readers.length)
    (hsessions : t.sessions = (s.setSession i session).sessions)
    (hopen : session.port.isOpen = true → (s.session i).port.isOpen = true)
    (hsent : session.port.sent.length ≤ (s.session i).port.sent.length + n) :
    KeepsSessions s t n := by
  refine ⟨hreaders, ?_, fun j hj => ?_, ?_⟩
  · rw [hsessions]
    exact List.length_set
  · refine isOpen_setSession hopen (j := j) ?_
    rwa [SerialRace.session, hsessions] at hj
  · rw [framesSent, hsessions]
    exact framesSent_setSession hsent

/-- A section writes at most one frame, and goes on or gives up the session.

**Proof sketch.** The cases are the results of the section, which has written one frame at most in
both. -/
lemma runSection_spec (i : ℕ)
    {commands : Link SerialSession → Except (Link SerialSession) (Link SerialSession)}
    (h : ∀ l, Link.WritesOne serialWire l (commands l)) (next : DevicePc) :
    KeepsSessions s (s.runSection i commands next) 1 ∧
      (s.runSection i commands next).thread.session = s.thread.session ∧
      ((s.runSection i commands next).thread.pc = next ∨
        (s.runSection i commands next).thread.pc = .takeSession) := by
  have hone := h ⟨s.session i, s.thread.vars⟩
  have hstore : ∀ (l : Link SerialSession) (thread : DeviceThread),
      serialWire.isOpen l.conn = (s.session i).port.isOpen ∧
        (serialWire.sent l.conn).length ≤ (s.session i).port.sent.length + 1 →
      KeepsSessions s { s.setSession i l.conn with thread := thread } 1 := by
    intro l thread hl
    refine .store rfl rfl (fun ho => ?_) hl.2
    rw [← hl.1]
    exact ho
  unfold runSection
  cases hcommands : commands ⟨s.session i, s.thread.vars⟩ with
  | ok l =>
    rw [hcommands] at hone
    exact ⟨hstore l _ hone, rfl, .inl rfl⟩
  | error l =>
    rw [hcommands] at hone
    exact ⟨hstore l _ hone, rfl, .inr rfl⟩

/-- A store to the flags of a session leaves the sessions. -/
lemma storeFlags_spec (i : ℕ) (store : LoopVars → LoopVars) (next : DevicePc) :
    KeepsSessions s ((s.storeFlags i store).goto next) 0 ∧
      ((s.storeFlags i store).goto next).thread.session = s.thread.session := by
  unfold storeFlags
  split
  · exact ⟨.same rfl rfl, rfl⟩
  · exact ⟨.same rfl rfl, rfl⟩

/-- A step of a reader leaves the ports. -/
lemma ReaderStep.keepsSessions {i : ℕ} (h : s.ReaderStep i t) : KeepsSessions s t 0 := by
  have hports := h.ports
  obtain ⟨r, hr⟩ := h.readers
  refine ⟨by rw [hr, List.length_set], by simpa using congrArg List.length hports, fun j hj => ?_,
    ?_⟩
  · have hport : ∀ u : SerialRace, (u.session j).port =
        (u.sessions.map (·.port)).getD j (SerialSession.new .default).port :=
      fun u => (List.getD_map u.sessions _ (·.port)).symm
    rwa [hport, hports, ← hport] at hj
  · have hsent : ∀ u : SerialRace, u.framesSent =
        ((u.sessions.map (·.port)).map fun port => port.sent.length).sum := by
      intro u
      rw [framesSent, List.map_map]
      rfl
    rw [hsent, hsent, hports]
    exact Nat.le_refl _

/-! ## The steps -/

/-- A turn keeps `Ports`, and under the flag it uses up what is left. -/
structure Turn (s t : SerialRace) : Prop where
  ports : t.Ports
  drains : s.device.vendorConnected = true → Drains s t 1

/-- What is left to do behind a step, when the thread goes on at `pc'` behind `n` frames. -/
@[simp] def LessLeft (pc pc' : DevicePc) (held : Bool) (n : ℕ) : Prop :=
  pc'.opensLeft held ≤ pc.opensLeft held ∧ n + pc'.writesLeft ≤ pc.writesLeft ∧
    pc'.rank held ≤ pc.rank held - 1

/-- The device thread goes on with the session that it has. -/
lemma Turn.goOn (hports : s.Ports) {n : ℕ} (hkeep : KeepsSessions s t n)
    (hsession : t.thread.session = s.thread.session) (hclose : ∀ i, s.thread.pc ≠ .closePort i)
    (hleds : ∀ i output channels, t.thread.pc = .leds i output channels → channels.length ≤ 3)
    (hleft : s.device.vendorConnected = true →
      LessLeft s.thread.pc t.thread.pc s.thread.session.isSome n) : Turn s t := by
  refine ⟨⟨?_, fun i hi => ?_, hleds⟩, fun hvendor => ?_⟩
  · rw [hkeep.length, hkeep.readers, hports.readers]
  · rcases hports.isOpen i (hkeep.isOpen i hi) with h | h
    · exact .inl (hsession.trans h)
    · exact absurd h (hclose i)
  · obtain ⟨hopens, hwrites, hrank⟩ := hleft hvendor
    have hsent := hkeep.sent
    refine ⟨?_, by omega, ?_⟩
    · rw [opensLeft, hkeep.length, hsession]
      exact Nat.add_le_add_left hopens _
    · rw [rank, hsession]
      exact hrank

/-- The device thread goes on, without an access to a session. -/
lemma Turn.goto (hports : s.Ports) (hclose : ∀ i, s.thread.pc ≠ .closePort i) {pc : DevicePc}
    (hleds : ∀ i output channels, pc = .leds i output channels → channels.length ≤ 3)
    (hleft : s.device.vendorConnected = true →
      LessLeft s.thread.pc pc s.thread.session.isSome 0) : Turn s (s.goto pc) :=
  .goOn hports (.same rfl rfl) rfl hclose hleds hleft

/-- A section of the device thread. -/
lemma Turn.section (hports : s.Ports) (hclose : ∀ i, s.thread.pc ≠ .closePort i) (i : ℕ)
    {commands : Link SerialSession → Except (Link SerialSession) (Link SerialSession)}
    (h : ∀ l, Link.WritesOne serialWire l (commands l)) {next : DevicePc}
    (hleds : ∀ i output channels, next = .leds i output channels → channels.length ≤ 3)
    (hnext : LessLeft s.thread.pc next s.thread.session.isSome 1)
    (htake : LessLeft s.thread.pc .takeSession s.thread.session.isSome 1) :
    Turn s (s.runSection i commands next) := by
  obtain ⟨hkeep, hsession, hpc⟩ := runSection_spec (s := s) i h next
  refine .goOn hports hkeep hsession hclose ?_ fun _ => ?_
  · rcases hpc with hpc | hpc <;> rw [hpc]
    · exact hleds
    · exact nofun
  · rcases hpc with hpc | hpc <;> rw [hpc]
    · exact hnext
    · exact htake

/-- The device thread opens a session.

**Proof sketch.** Without a session no port is open, so the new one is the only one. -/
lemma Turn.openSession (hports : s.Ports) (hpc : s.thread.pc = .connect)
    (hheld : s.thread.session = none) (session : SerialSession)
    (hsent : session.port.sent = []) (vars : LoopVars) : Turn s { s with
      sessions := s.sessions ++ [session]
      readers := s.readers ++ [.start]
      thread := { s.thread with
        pc := .opened s.readers.length
        readerHandle := some s.readers.length
        session := some s.readers.length
        vars := vars } } := by
  have hclosed : ∀ i, (s.session i).port.isOpen ≠ true := by
    intro i hi
    rcases hports.isOpen i hi with h | h
    · rw [hheld] at h
      cases h
    · rw [hpc] at h
      cases h
  refine ⟨⟨?_, fun i hi => ?_, nofun⟩, fun _ => ⟨?_, ?_, ?_⟩⟩
  · simp [hports.readers]
  · left
    show some s.readers.length = some i
    rw [← hports.readers]
    simp only [SerialRace.session, List.getD_eq_getElem?_getD] at hi
    rcases lt_trichotomy i s.sessions.length with hlt | heq | hgt
    · rw [List.getElem?_append_left hlt, ← List.getD_eq_getElem?_getD] at hi
      exact absurd hi (hclosed i)
    · rw [heq]
    · rw [List.getElem?_eq_none (by simp; omega)] at hi
      cases hi
  · simp [opensLeft, hpc, hheld]
  · simp [framesSent, hpc, hsent]
  · simp [rank, hpc]

/-- The device thread takes its session, to close it. -/
lemma Turn.takeSession (hports : s.Ports) (hpc : s.thread.pc = .takeSession) {i : ℕ}
    (hheld : s.thread.session = some i) :
    Turn s { s.setSession i { s.session i with active := false } with
      thread := { s.thread with session := none, pc := .closePort i } } := by
  have hkeep : KeepsSessions s { s.setSession i { s.session i with active := false } with
      thread := { s.thread with session := none, pc := .closePort i } } 0 :=
    .store rfl rfl id (Nat.le_refl _)
  refine ⟨⟨?_, fun j hj => .inr ?_, nofun⟩, fun _ => ⟨?_, ?_, ?_⟩⟩
  · exact hkeep.length.trans hports.readers
  · rcases hports.isOpen j (hkeep.isOpen j hj) with h | h
    · rw [hheld, Option.some_inj] at h
      rw [h]
    · rw [hpc] at h
      cases h
  · simp [opensLeft, hpc, hkeep.length]
  · simp only [hpc, DevicePc.writesLeft]
    exact hkeep.sent
  · simp [rank, hpc, hheld]

/-- The device thread closes the port of the session that it has taken.

**Proof sketch.** The port of the session that was taken is the only one that may be open. -/
lemma Turn.closePort (hports : s.Ports) {i : ℕ} (hpc : s.thread.pc = .closePort i)
    (hheld : s.thread.session = none) :
    Turn s ((s.setSession i { s.session i with port := (s.session i).port.close }).goto
      .takeHandle) := by
  have hkeep : KeepsSessions s
      ((s.setSession i { s.session i with port := (s.session i).port.close }).goto .takeHandle) 0 :=
    .store rfl rfl nofun (Nat.le_refl _)
  refine ⟨⟨?_, fun j hj => ?_, nofun⟩, fun _ => ⟨?_, ?_, ?_⟩⟩
  · exact hkeep.length.trans hports.readers
  · rcases hports.isOpen j (hkeep.isOpen j hj) with h | h
    · rw [hheld] at h
      cases h
    · -- the port of this session has just been closed
      rw [hpc] at h
      cases h
      have hclosed : ((s.setSession i { s.session i with
          port := (s.session i).port.close }).session i).port.isOpen = true := hj
      rw [session_setSession_eq] at hclosed
      split at hclosed
      · cases hclosed
      · next hrange =>
        have hnew : s.session i = .new .default := List.getD_eq_default _ _ (by omega)
        rw [hnew] at hclosed
        cases hclosed
  · exact Nat.add_le_add (Nat.le_of_eq hkeep.length) (Nat.zero_le _)
  · simp only [hpc, DevicePc.writesLeft, SerialRace.goto]
    exact hkeep.sent
  · simp [rank, SerialRace.goto]

/-- The device thread goes on without a store.

**Proof sketch.** The rank falls on every way. The only way to the point at which a session is
opened is past the flag. -/
lemma Turn.goes (hports : s.Ports) {tick : SerialTick} {pc pc' : DevicePc}
    (hpc : s.thread.pc = pc) (h : s.Goes tick pc pc') : Turn s (s.goto pc') := by
  refine .goto hports ?_ (by cases h <;> nofun) fun hvendor => ?_
  · rw [hpc]
    cases h <;> nofun
  rw [hpc]
  cases h with
  | absent hnone =>
    rw [hvendor] at hnone
    cases hnone
  | notOpened hnone | noSession hnone => simp [hnone]
  | connected i hi => simp [hi]
  | enabled | disabled | present | active | inactive | reading | readFailed | pending | answered
  | logged | notLogged | ledsWritten | noHandle | joined | vendor | noVendor | touchHid | noTouchHid
  | hid => cases s.thread.session <;> simp

/-- **A turn uses up what is left**: a session that is opened, a frame that is written, and a turn.

**Proof sketch.** In its loop the thread goes on towards the LED section, with at most a frame in
each section, or gives up its session. From the top of the loop on it cannot come back to the point
at which it opens a session, because it looks at the flag before. -/
theorem Drains.turn (hinv : s.Inv) (hports : s.Ports) {tick : SerialTick}
    (h : s.deviceStep tick = some t) : Turn s t := by
  have hsession := hinv.session
  cases deviceStep_turn h with
  | goto pc pc' hpc hgoes => exact .goes hports hpc hgoes
  | openSession hpc hnone => exact .openSession hports hpc hnone _ rfl _
  | opened i hpc =>
    exact .goOn hports (.same rfl rfl) rfl (by simp [hpc]) (by simp) fun _ => by simp [hpc]
  | heartbeat i hpc =>
    refine .section hports (by simp [hpc]) i (fun l => Link.writesOne_heartbeat) (by simp) ?_ ?_
    · simp [hpc]
    · cases s.thread.session <;> simp [hpc]
  | query i hpc =>
    refine .section hports (by simp [hpc]) i (fun l => Link.writesOne_sendQuery)
      (by split <;> simp) ?_ ?_
    · rw [hpc]
      split <;> simp
    · cases s.thread.session <;> simp [hpc]
  | clearPending i hpc =>
    obtain ⟨hkeep, hsame⟩ := storeFlags_spec (s := s) i .clearPending (.setLogged i)
    exact .goOn hports hkeep hsame (by simp [hpc]) (by simp [SerialRace.goto]) fun _ => by
      simp [hpc, SerialRace.goto]
  | setLogged i hpc =>
    obtain ⟨hkeep, hsame⟩ := storeFlags_spec (s := s) i .setLogged (.checkTouch i)
    exact .goOn hports hkeep hsame (by simp [hpc]) (by simp [SerialRace.goto]) fun _ => by
      simp [hpc, SerialRace.goto]
  | checkTouch i pc lastTouchFrames suspended hpc hpc' =>
    refine .goOn hports (.same rfl rfl) rfl (by simp [hpc]) ?_ fun _ => ?_
    · rcases hpc' with rfl | rfl | rfl
      · simp
      · simp
      · rintro _ _ _ ⟨⟩
        exact Nat.le_refl 3
    · rw [hpc]
      rcases hpc' with rfl | rfl | rfl <;> cases s.thread.session <;> simp
  | writeLed i output channel channels hpc =>
    have hlength := hports.leds i output _ hpc
    refine .section hports (by simp [hpc]) i
      (fun l => Link.writesOne_writeLed serialPayload output channel) ?_ ?_ ?_
    · rintro _ _ _ ⟨⟩
      exact Nat.le_of_succ_le hlength
    · simp [hpc, Nat.add_comm]
    · rw [hpc]
      simp only [LessLeft, DevicePc.opensLeft, DevicePc.writesLeft, DevicePc.rank,
        List.length_cons]
      cases s.thread.session
      · simp
      · simp
        omega
  | takeSession i hpc hi => exact .takeSession hports hpc hi
  | closePort i hpc =>
    rw [hpc] at hsession
    exact .closePort hports hpc hsession
  | takeHandle i hpc hi =>
    exact .goOn hports (.same rfl rfl) rfl (by simp [hpc]) (by simp) fun _ => by simp [hpc]
  | update hidConnected hpc =>
    rw [hpc] at hsession
    refine .goOn hports (.same rfl rfl) rfl (by simp [hpc]) (by simp) fun _ => ?_
    have hnone : s.thread.session = none := hsession
    simp [hpc, hnone]

/-- A step of another thread leaves what is left. -/
lemma Drains.other (hpc : t.thread.pc = s.thread.pc) (hsession : t.thread.session = s.thread.session)
    (hkeep : KeepsSessions s t 0) : Drains s t 0 := by
  refine ⟨?_, ?_, ?_⟩
  · rw [opensLeft, opensLeft, hpc, hsession, hkeep.length]
  · rw [hpc]
    exact Nat.add_le_add_right hkeep.sent _
  · rw [SerialRace.rank, SerialRace.rank, hpc, hsession]
    exact Nat.le_refl _

/-- A step of another thread keeps the open port. -/
lemma Ports.other (hports : s.Ports) (hpc : t.thread.pc = s.thread.pc)
    (hsession : t.thread.session = s.thread.session) (hkeep : KeepsSessions s t 0) : t.Ports := by
  refine ⟨?_, fun i hi => ?_, ?_⟩
  · rw [hkeep.length, hkeep.readers, hports.readers]
  · rw [hsession, hpc]
    exact hports.isOpen i (hkeep.isOpen i hi)
  · rw [hpc]
    exact hports.leds

/-- What every step does, apart from the turns. -/
lemma Step.other_or_turn (h : s.Step t) : (∃ tick, s.deviceStep tick = some t) ∨
    (t.thread.pc = s.thread.pc ∧ t.thread.session = s.thread.session ∧ KeepsSessions s t 0) := by
  cases h with
  | device tick _ h => exact .inl ⟨tick, h⟩
  | reader i read now _ h =>
    have hreader := readerStep_spec h
    exact .inr ⟨hreader.pc, hreader.session, hreader.keepsSessions⟩
  | hid r h => exact .inr ⟨rfl, rfl, .same rfl rfl⟩
  | output page => exact .inr ⟨rfl, rfl, .same rfl rfl⟩

/-- At most one port is open, in every interleaving. -/
lemma Ports.reaches (hinv : s.Inv) (hports : s.Ports) (h : s.Reaches t) : t.Ports := by
  induction h with
  | refl => exact hports
  | tail hreach hstep ih =>
    rcases hstep.other_or_turn with ⟨tick, hturn⟩ | ⟨hpc, hsession, hkeep⟩
    · exact (Drains.turn (hinv.reaches hreach) ih hturn).ports
    · exact ih.other hpc hsession hkeep

/-- The threads start without a port. -/
lemma ports_start (enabled : Bool) (inputPage : Mai2InputPage) (outputPage : Mai2OutputPage)
    (now : UInt64) : (start enabled inputPage outputPage now).Ports := by
  refine ⟨rfl, fun i h => ?_, nofun⟩
  cases h

/-! ## Runs under the flag -/

/-- A step while the vendor thread has its device open; the turns of the device thread are
labelled. -/
inductive Held (s : SerialRace) : Option Unit → SerialRace → Prop
  | turn (hvendor : s.device.vendorConnected = true) (tick : SerialTick) (t : SerialRace)
      (h : s.deviceStep tick = some t) : Held s (some ()) t
  | reader (hvendor : s.device.vendorConnected = true) (i : ℕ) (read : PortRead 256) (now : UInt64)
      (t : SerialRace) (h : s.readerStep i read now = some t) : Held s none t
  | hid (hvendor : s.device.vendorConnected = true) (r : HidRace) (h : s.hidRace.Step r) :
      Held s none { s with device := r.device, hid := r.pc }
  | output (hvendor : s.device.vendorConnected = true) (page : Mai2OutputPage) :
      Held s none { s with device := { s.device with outputPage := page } }

/-- A step under the flag is one of the steps. -/
lemma Held.step {turn : Option Unit} (h : s.Held turn t) : s.Step t := by
  cases h with
  | turn _ tick _ h => exact .device tick t h
  | reader _ i read now _ h => exact .reader i read now t h
  | hid _ r h => exact .hid r h
  | output _ page => exact .output page

/-- **A step under the flag uses up what is left.** -/
lemma Held.drains {turn : Option Unit} (hinv : s.Inv) (hports : s.Ports) (h : s.Held turn t) :
    t.Ports ∧ Drains s t turn.toList.length := by
  cases h with
  | turn hvendor tick _ h =>
    have hturn := Drains.turn hinv hports h
    exact ⟨hturn.ports, hturn.drains hvendor⟩
  | reader _ i read now _ h =>
    have hreader := readerStep_spec h
    have hkeep := hreader.keepsSessions
    exact ⟨hports.other hreader.pc hreader.session hkeep, .other hreader.pc hreader.session hkeep⟩
  | hid _ r h =>
    exact ⟨hports.other rfl rfl (.same rfl rfl), .other rfl rfl (.same rfl rfl)⟩
  | output _ page =>
    exact ⟨hports.other rfl rfl (.same rfl rfl), .other rfl rfl (.same rfl rfl)⟩

/-- **A run under the flag uses up what is left.**

**Proof sketch.** Induction on the run (`Labelled.Runs.invariant`). -/
lemma Held.runs {turns : List Unit} (hinv : s.Inv) (hports : s.Ports)
    (h : Labelled.Runs Held s turns t) : t.Inv ∧ t.Ports ∧ Drains s t turns.length := by
  refine h.invariant (P := fun turns t => t.Inv ∧ t.Ports ∧ Drains s t turns.length)
    ⟨hinv, hports, ⟨Nat.le_refl _, Nat.le_refl _, Nat.le_refl _⟩⟩ ?_
  rintro turns t turn u ⟨hinv, hports, hdrains⟩ hstep
  obtain ⟨hports', hstep'⟩ := hstep.drains hinv hports
  refine ⟨hinv.step hstep.step, hports', hstep'.opens.trans hdrains.opens,
    hstep'.writes.trans hdrains.writes, ?_⟩
  have hrank := hdrains.rank
  have hrank' := hstep'.rank
  rw [List.length_append]
  omega

/-- Where no turn is left, no port is open. -/
lemma Ports.closed (hinv : s.Inv) (hports : s.Ports) (hrank : s.rank = 0) (i : ℕ) :
    (s.session i).port.isOpen = false := by
  by_contra hopen
  rcases hports.isOpen i (Bool.eq_true_of_not_eq_false hopen) with h | h
  · have hsession := hinv.session
    have htaken : s.thread.pc.sessionTaken = true := by
      rw [SerialRace.rank, h] at hrank
      cases hpc : s.thread.pc <;> rw [hpc] at hrank <;> first | rfl | simp at hrank
    rw [htaken, h] at hsession
    cases hsession
  · rw [SerialRace.rank, h] at hrank
    cases hrank

/-- What is left is bounded. -/
lemma Ports.bounds (hports : s.Ports) :
    s.opensLeft ≤ 1 ∧ s.thread.pc.writesLeft ≤ 5 ∧ s.rank ≤ 19 := by
  have hleds := hports.leds
  unfold opensLeft SerialRace.rank
  cases hpc : s.thread.pc
  case leds i output channels =>
    have hlength := hleds i output channels hpc
    simp
    omega
  all_goals cases s.thread.session <;> simp

end SerialRace

/-- **The vendor interface takes over the board**: from any state that the threads can come to, in
every interleaving of the device thread, its readers, the HID threads and the game during which
`vendor_connected` stays set, the device thread opens at most one more serial session, in the pass
under way, and writes at most five more frames: a heartbeat, a query and the three LED channels.
After nineteen of its turns, at most, it has closed every port, and keeps them closed.

**Proof sketch.** Each turn uses up what is left (`SerialRace.Drains.turn`), because the thread
comes back to the point at which it opens a session only behind the check of the flag, and the other
threads neither open ports nor write frames. The open port is the one of the session that the thread
has or is about to close (`SerialRace.Ports`), and where no turn is left there is none. -/
theorem vendor_takes_over (enabled : Bool) (inputPage : Mai2InputPage)
    (outputPage : Mai2OutputPage) (now : UInt64) {s t : SerialRace} {turns : List Unit}
    (hs : (SerialRace.start enabled inputPage outputPage now).Reaches s)
    (h : Labelled.Runs SerialRace.Held s turns t) :
    t.sessions.length ≤ s.sessions.length + 1 ∧ t.framesSent ≤ s.framesSent + 5 ∧
      (19 ≤ turns.length → ∀ i, (t.session i).port.isOpen = false) := by
  have hinv := SerialRace.inv_start enabled inputPage outputPage now
  have hports := (SerialRace.ports_start enabled inputPage outputPage now).reaches hinv hs
  obtain ⟨hinv', hports', hdrains⟩ := SerialRace.Held.runs (hinv.reaches hs) hports h
  obtain ⟨hopens, hwrites, hrank⟩ := hports.bounds
  have hopened := hdrains.opens
  have hwritten := hdrains.writes
  refine ⟨by omega, by omega, fun hturns => hports'.closed hinv' ?_⟩
  have hleft := hdrains.rank
  omega

/-- Turns under the flag, of the device thread when a heartbeat is due, and of readers. -/
def SerialRace.heldTurns : List SerialTurn → SerialRace → Option SerialRace
  | [], s => some s
  | turn :: turns, s =>
    if s.device.vendorConnected then
      match turn with
      | .device => s.deviceStep { presentTick with now := 100 } >>= SerialRace.heldTurns turns
      | .reader i => s.readerStep i none 0 >>= SerialRace.heldTurns turns
    else none

/-- The turns of the device thread among them. -/
def SerialTurn.ofDevice : SerialTurn → Option Unit
  | device => some ()
  | reader _ => none

/-- Turns under the flag are a run, labelled with those of the device thread. -/
lemma SerialRace.runs_of_heldTurns {turns : List SerialTurn} {s t : SerialRace}
    (h : SerialRace.heldTurns turns s = some t) :
    Labelled.Runs SerialRace.Held s (turns.filterMap SerialTurn.ofDevice) t := by
  induction turns generalizing s with
  | nil =>
    cases h
    exact .nil
  | cons turn turns ih =>
    obtain ⟨hvendor, h⟩ := Option.ite_none_right_eq_some.mp h
    cases turn with
    | device =>
      obtain ⟨u, hu, h⟩ := Option.bind_eq_some_iff.mp h
      exact (Labelled.Runs.single (.turn hvendor _ u hu)).append (ih h)
    | reader i =>
      obtain ⟨u, hu, h⟩ := Option.bind_eq_some_iff.mp h
      exact (Labelled.Runs.single (.reader hvendor i none 0 u hu)).append (ih h)

/-- The pass under way, and `disconnect_session` with its reader. -/
def handover : List SerialTurn :=
  List.replicate 15 .device ++ [.reader 0] ++ List.replicate 4 .device

/-- The vendor thread opens its device behind the opening of a session, and the pass under way
writes a heartbeat. -/
theorem vendor_takes_over_heartbeat :
    ∃ s t, (SerialRace.start true .default .default 0).Reaches s ∧
      (s.session 0).port.isOpen = true ∧ SerialRace.heldTurns handover s = some t ∧
      t.framesSent = 1 ∧ ∀ i, (t.session i).port.isOpen = false := by
  obtain ⟨s, hs⟩ : ∃ s, SerialRace.turns (List.replicate 4 .device)
    (.start true .default .default 0) = some s := ⟨_, rfl⟩
  have hreach := SerialRace.reaches_of_turns hs
  cases hs
  have hopened := hreach.tail (.hid _ (.connect .vendor rfl))
  refine ⟨_, _, hopened, rfl, rfl, rfl, ?_⟩
  exact (vendor_takes_over true .default .default 0 hopened
    (@SerialRace.runs_of_heldTurns handover _ _ rfl)).2.2 (by decide)

end Affine
