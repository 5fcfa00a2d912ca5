import Affine.Core.Overlapped

set_option relaxedAutoImplicit false
set_option autoImplicit false

/-!
# The handles of a serial port

Which handles of the process belong to a serial port (`Affine.OverlappedPort`), as its file or as one
of its events, while any threads open and close it and the values of closed handles are given to
others.

## Main definitions

* `Affine.PortPc.Closes` — a thread has taken a handle to close it.
* `Affine.OverlappedPort.HandleInv` — the invariant of the handles.

## Main results

* `Affine.handles_closed_once` — a thread closes a file only if it is still the port's, each handle
  that the port has opened is held by it or being closed by one thread, and `drop` leaves none.
-/

namespace Affine

variable {ι Handle : Type}

/-- The thread is closing the file. -/
def PortPc.Closes (h : Handle) : PortPc Handle → Prop
  | closing h' | closeHandle h' => h' = h
  | _ => False

namespace OverlappedPort

variable {s : OverlappedPort ι Handle}

/-- The handles of the port. Those that belong to it as its file are the one it holds, and those that
threads are closing, each of them one. Those of its events are the ones in the channels. -/
structure HandleInv (s : OverlappedPort ι Handle) : Prop where
  held : ∀ h, s.handle = some h → s.owner h = some .port
  closing : ∀ i h, (s.pc i).Closes h → s.owner h = some .port ∧ s.handle ≠ some h
  unique : ∀ i j h, (s.pc i).Closes h → (s.pc j).Closes h → i = j
  owned : ∀ h, s.owner h = some .port → s.handle = some h ∨ ∃ i, (s.pc i).Closes h
  events : ∀ d h, s.owner h = some (.event d) ↔ (s.channels d).event = some h

/-- A step that leaves the handles, and what threads are closing. -/
lemma HandleInv.same (hs : HandleInv s) {s' : OverlappedPort ι Handle}
    (hhandle : s'.handle = s.handle)
    (howner : ∀ h o, o ≠ .other → (s'.owner h = some o ↔ s.owner h = some o))
    (hevent : ∀ d, (s'.channels d).event = (s.channels d).event)
    (hcloses : ∀ i h, (s'.pc i).Closes h ↔ (s.pc i).Closes h) : HandleInv s' where
  held := by
    intro h hh
    rw [howner h .port nofun]
    exact hs.held h (hhandle ▸ hh)
  closing := by
    intro i h hi
    rw [howner h .port nofun, hhandle]
    exact hs.closing i h ((hcloses i h).mp hi)
  unique := by
    intro i j h hi hj
    exact hs.unique i j h ((hcloses i h).mp hi) ((hcloses j h).mp hj)
  owned := by
    intro h hh
    rw [hhandle]
    rcases hs.owned h ((howner h .port nofun).mp hh) with hheld | ⟨i, hi⟩
    · exact .inl hheld
    · exact .inr ⟨i, (hcloses i h).mpr hi⟩
  events := by
    intro d h
    rw [howner h (.event d) nofun, hevent]
    exact hs.events d h

section Handles

variable [DecidableEq ι]

/-- A thread goes on without a handle to close before or behind it. -/
lemma closes_update {pc : ι → PortPc Handle} {i : ι} {x : PortPc Handle}
    (h : ∀ h, x.Closes h ↔ (pc i).Closes h) (j : ι) (handle : Handle) :
    (Function.update pc i x j).Closes handle ↔ (pc j).Closes handle := by
  by_cases hji : j = i
  · subst hji
    rw [Function.update_self]
    exact h handle
  · rw [Function.update_of_ne hji]

/-- A thread goes on in a channel, and leaves its event. -/
lemma HandleInv.act (hs : HandleInv s) {i : ι} {d : IoDir} {c : IoChannel ι Handle}
    {pc : PortPc Handle} {fate : Option IoStatus} (hevent : c.event = (s.channels d).event)
    (hcloses : ∀ h, pc.Closes h ↔ (s.pc i).Closes h) : HandleInv (s.act i d c pc fate) := by
  refine hs.same rfl (fun _ _ _ => Iff.rfl) (fun d' => ?_) (closes_update hcloses)
  by_cases hd : d' = d
  · subst hd
    simpa [OverlappedPort.act] using hevent
  · simp [OverlappedPort.act, hd]

/-- A thread takes the handle to close it.

**Proof sketch.** The handle moves from the port to the thread, and nothing is created or closed. -/
lemma HandleInv.swap (hs : HandleInv s) {i : ι} {h : Handle} (hi : s.pc i = .idle)
    (hh : s.handle = some h) : HandleInv { s.move i (.closing h) with handle := none } := by
  have hcloses (j : ι) (h' : Handle) :
      ((Function.update s.pc i (.closing h)) j).Closes h' ↔
        (j = i ∧ h' = h) ∨ (s.pc j).Closes h' := by
    by_cases hji : j = i
    · subst hji
      simp [PortPc.Closes, hi, eq_comm]
    · simp [hji]
  refine ⟨by simp, ?_, ?_, ?_, hs.events⟩
  · intro j h' hj
    refine ⟨?_, by simp⟩
    rcases (hcloses j h').mp hj with ⟨-, rfl⟩ | hj
    · exact hs.held h' hh
    · exact (hs.closing j h' hj).1
  · intro j k h' hj hk
    rcases (hcloses j h').mp hj with ⟨rfl, rfl⟩ | hj'
    · rcases (hcloses k h').mp hk with ⟨rfl, -⟩ | hk'
      · rfl
      · exact absurd hh (hs.closing k h' hk').2
    · rcases (hcloses k h').mp hk with ⟨rfl, rfl⟩ | hk'
      · exact absurd hh (hs.closing j h' hj').2
      · exact hs.unique j k h' hj' hk'
  · intro h' howner
    refine .inr ?_
    rcases hs.owned h' howner with hheld | ⟨j, hj⟩
    · obtain rfl : h = h' := Option.some.inj (hh.symm.trans hheld)
      exact ⟨i, (hcloses i h).mpr (.inl ⟨rfl, rfl⟩)⟩
    · exact ⟨j, (hcloses j h').mpr (.inr hj)⟩

variable [DecidableEq Handle]

/-- A thread closes the handle that it has taken.

**Proof sketch.** The handle was with this thread only, so that none is left with two owners. -/
lemma HandleInv.closeHandle (hs : HandleInv s) {i : ι} {h : Handle}
    (hi : s.pc i = .closeHandle h) : HandleInv ((s.release h).move i .idle) := by
  have hmine : (s.pc i).Closes h := by rw [hi]; rfl
  have hcloses (j : ι) (h' : Handle) :
      ((Function.update s.pc i .idle) j).Closes h' ↔ j ≠ i ∧ (s.pc j).Closes h' := by
    by_cases hji : j = i
    · subst hji
      simp [PortPc.Closes]
    · simp [hji]
  have hother (j : ι) (h' : Handle) (hj : j ≠ i ∧ (s.pc j).Closes h') : h' ≠ h := by
    rintro rfl
    exact hj.1 (hs.unique j i h' hj.2 hmine)
  refine ⟨?_, ?_, ?_, ?_, ?_⟩
  · intro h' hh'
    have hne : h' ≠ h := by
      rintro rfl
      exact (hs.closing i h' hmine).2 hh'
    simpa [release, move, hne] using hs.held h' hh'
  · intro j h' hj
    have hj := (hcloses j h').mp hj
    simpa [release, move, hother j h' hj] using hs.closing j h' hj.2
  · intro j k h' hj hk
    exact hs.unique j k h' ((hcloses j h').mp hj).2 ((hcloses k h').mp hk).2
  · intro h' howner
    have hne : h' ≠ h := by
      rintro rfl
      simp [release, move] at howner
    rcases hs.owned h' (by simpa [release, move, hne] using howner) with hheld | ⟨j, hj⟩
    · exact .inl hheld
    · have hji : j ≠ i := by
        rintro rfl
        rw [hi] at hj
        exact hne hj.symm
      exact .inr ⟨j, (hcloses j h').mpr ⟨hji, hj⟩⟩
  · intro d h'
    change (s.release h).owner h' = some (.event d) ↔ (s.channels d).event = some h'
    rw [← hs.events d h', release]
    by_cases heq : h' = h
    · subst heq
      simp [(hs.closing i h' hmine).1]
    · simp [heq]

end Handles

/-! ### Without other threads -/

/-- The handles of a port while no thread is in a call, if this is its file. -/
structure Accounts (s : OverlappedPort ι Handle) (file : Option Handle) : Prop where
  file : ∀ h, s.owner h = some .port ↔ file = some h
  events : ∀ d h, s.owner h = some (.event d) ↔ (s.channels d).event = some h

/-- While no thread is in a call, the file that the port holds is the only one it has. -/
lemma HandleInv.idle (hs : HandleInv s) (hidle : ∀ i, s.pc i = .idle) : Accounts s s.handle where
  file := by
    intro h
    constructor
    · intro howner
      rcases hs.owned h howner with hheld | ⟨i, hi⟩
      · exact hheld
      · rw [hidle i] at hi
        exact hi.elim
    · exact hs.held h
  events := hs.events

/-- The invariant of a port without calls in it. -/
lemma HandleInv.of_idle (hidle : ∀ i, s.pc i = .idle) (h : Accounts s s.handle) :
    HandleInv s where
  held := fun h' => (h.file h').mpr
  closing := by
    intro i h' hi
    rw [hidle i] at hi
    exact hi.elim
  unique := by
    intro i j h' hi
    rw [hidle i] at hi
    exact hi.elim
  owned := fun h' howner => .inl ((h.file h').mp howner)
  events := h.events

section Alone

variable [DecidableEq Handle] {file : Option Handle}

/-- A channel without an event gets a new one.

**Proof sketch.** The new event is not among the open handles, and only its channel has it. -/
lemma HandleInv.newEvent (hs : HandleInv s) {d : IoDir} {event : Handle} {c : IoChannel ι Handle}
    (hnone : (s.channels d).event = none) (hfresh : s.owner event = none)
    (hc : c.event = some event) :
    HandleInv
      { s with
        channels := Function.update s.channels d c
        owner := Function.update s.owner event (some (.event d)) } where
  held := by
    intro h hh
    have hne : h ≠ event := by
      rintro rfl
      rw [hs.held h hh] at hfresh
      cases hfresh
    simpa [hne] using hs.held h hh
  closing := by
    intro i h hi
    have hne : h ≠ event := by
      rintro rfl
      rw [(hs.closing i h hi).1] at hfresh
      cases hfresh
    simpa [hne] using hs.closing i h hi
  unique := hs.unique
  owned := by
    intro h howner
    have hne : h ≠ event := by
      rintro rfl
      simp at howner
    exact hs.owned h (by simpa [hne] using howner)
  events := by
    intro d' h
    have hother : (s.channels d').event ≠ some event := by
      intro hevent
      rw [(hs.events d' event).mpr hevent] at hfresh
      cases hfresh
    by_cases hh : h = event
    · subst hh
      by_cases hd : d' = d
      · subst hd
        simp [hc]
      · simp [hd, hother, Ne.symm hd]
    · by_cases hd : d' = d
      · subst hd
        simp [hh, Ne.symm hh, hc, hs.events, hnone]
      · simp [hh, hd, hs.events]

/-- The file of the port is closed. -/
lemma Accounts.release {h : Handle} (ha : Accounts s (some h)) : Accounts (s.release h) none where
  file := by
    intro h'
    by_cases heq : h' = h
    · simp [OverlappedPort.release, heq]
    · simp [OverlappedPort.release, heq, ha.file, Ne.symm heq]
  events := by
    intro d h'
    rw [OverlappedPort.release, ← ha.events]
    by_cases heq : h' = h
    · subst heq
      simp [(ha.file h').mpr rfl]
    · simp [heq]

/-- A file is opened. -/
lemma Accounts.create {h : Handle} (ha : Accounts s none) (hfresh : s.owner h = none) :
    Accounts { s with owner := Function.update s.owner h (some .port) } (some h) where
  file := by
    intro h'
    by_cases heq : h' = h
    · simp [heq]
    · simp [heq, ha.file, Ne.symm heq]
  events := by
    intro d h'
    rw [← ha.events]
    by_cases heq : h' = h
    · subst heq
      simp [hfresh]
    · simp [heq]

/-- `ensure_event` gives the channel an event if it has none, and the port has no other new handle.

**Proof sketch.** The cases are whether the channel has an event, and whether a new one is created.
-/
lemma Accounts.ensureEvent (ha : Accounts s file) (d : IoDir) {created : Option Handle}
    (hfresh : ∀ h, created = some h → s.owner h = none) :
    Accounts (s.ensureEvent d created).2 file ∧
      (s.ensureEvent d created).2.handle = s.handle ∧
      ∀ h, created ≠ some h → s.owner h = none → (s.ensureEvent d created).2.owner h = none := by
  unfold OverlappedPort.ensureEvent
  dsimp only
  split
  · rename_i event _ hevent
    refine ⟨⟨ha.file, fun d' h => ?_⟩, rfl, fun _ _ hh => hh⟩
    rw [ha.events]
    by_cases hd : d' = d
    · subst hd
      simp
    · simp [hd]
  · rename_i h₀ hevent
    have hnew := hfresh h₀ rfl
    refine ⟨⟨fun h => ?_, fun d' h => ?_⟩, rfl, fun h hne hh => ?_⟩
    · rw [← ha.file]
      by_cases heq : h = h₀
      · subst heq
        simp [hnew]
      · simp [heq]
    · have hother : (s.channels d').event ≠ some h₀ := by
        intro hevent'
        rw [(ha.events d' h₀).mpr hevent'] at hnew
        cases hnew
      by_cases heq : h = h₀ <;> by_cases hd : d' = d
      · simp [heq, hd]
      · simp [heq, hd, hother, Ne.symm hd]
      · simp [heq, Ne.symm heq, hd, ha.events, hevent]
      · simp [heq, hd, ha.events]
    · have hne' : h ≠ h₀ := by
        rintro rfl
        exact hne rfl
      simpa [hne'] using hh
  · exact ⟨ha, rfl, fun _ _ hh => hh⟩

/-- `ensure_events` leaves the file of the port alone. -/
lemma Accounts.ensureEvents (ha : Accounts s file) {events : IoDir → Option Handle}
    (hfresh : ∀ d h, events d = some h → s.owner h = none)
    (hdistinct : ∀ h, events .read = some h → events .write ≠ some h) :
    Accounts (s.ensureEvents events).2 file ∧ (s.ensureEvents events).2.handle = s.handle := by
  obtain ⟨hread, hhandle, howner⟩ := ha.ensureEvent .read (hfresh .read)
  unfold OverlappedPort.ensureEvents
  dsimp only
  split
  · exact ⟨hread, hhandle⟩
  · have hunused : ∀ h, events .write = some h →
        (s.ensureEvent .read (events .read)).2.owner h = none :=
      fun h hh => howner h (fun hr => hdistinct h hr hh) (hfresh .write h hh)
    obtain ⟨hwrite, hhandle', -⟩ := hread.ensureEvent .write hunused
    exact ⟨hwrite, hhandle'.trans hhandle⟩

/-- `close` leaves the port without a file. -/
lemma Accounts.closeAlone (ha : Accounts s s.handle) :
    s.closeAlone.handle = none ∧ Accounts s.closeAlone none := by
  unfold OverlappedPort.closeAlone
  split
  · rename_i h hh
    rw [hh] at ha
    have hclosed : Accounts { s with handle := none } (some h) := ⟨ha.file, ha.events⟩
    exact ⟨rfl, hclosed.release⟩
  · rename_i hh
    rw [hh] at ha
    exact ⟨hh, ha⟩

/-- `open` leaves the port with the file it has opened, or without one: the exits behind
`CreateFileW` close the file.

**Proof sketch.** The cases are the exits of `open`. Each of them behind `CreateFileW` closes the
file before it returns. -/
lemma Accounts.openAlone (ha : Accounts s s.handle) {o : OpenOutcome Handle}
    (hfresh : o.Fresh s.closeAlone.owner) :
    Accounts (s.openAlone o).2 (s.openAlone o).2.handle := by
  obtain ⟨hnone, hclosed⟩ := ha.closeAlone
  unfold OverlappedPort.openAlone
  dsimp only
  split
  · rw [hnone]
    exact hclosed
  · rename_i h hcreated
    have hunused : ∀ d event, o.events d = some event →
        Function.update s.closeAlone.owner h (some .port) event = none := by
      intro d event hevent
      obtain ⟨hunused, hne⟩ := hfresh.events d event hevent
      have hother : event ≠ h := by
        rintro rfl
        exact hne hcreated
      simpa [hother] using hunused
    have hopened := (hclosed.create (hfresh.created h hcreated)).ensureEvents hunused hfresh.distinct
    revert hopened
    generalize OverlappedPort.ensureEvents _ o.events = r
    rintro ⟨haccounts, hhandle⟩
    have hreleased : Accounts (r.2.release h) (r.2.release h).handle := by
      have hhandle' : (r.2.release h).handle = none := hhandle.trans hnone
      rw [hhandle']
      exact haccounts.release
    -- all but one of the exits behind `CreateFileW` close the file
    split_ifs
    · exact ⟨haccounts.file, haccounts.events⟩
    · exact hreleased
    · exact hreleased
    · exact hreleased
    · exact hreleased

/-- The event of a channel is closed.

**Proof sketch.** With an event, the handle and its owner go together; without one nothing changes.
-/
lemma Accounts.dropEvent (ha : Accounts s file) (d : IoDir) :
    Accounts (s.dropEvent d) file ∧ (s.dropEvent d).handle = s.handle ∧
      ∀ d', ((s.dropEvent d).channels d').event = if d' = d then none else (s.channels d').event := by
  unfold OverlappedPort.dropEvent
  split
  · rename_i event hevent
    have howner := (ha.events d event).mpr hevent
    have hchannels (d' : IoDir) :
        ((Function.update s.channels d { s.channels d with event := none }) d').event =
          if d' = d then none else (s.channels d').event := by
      by_cases hd : d' = d
      · subst hd
        simp
      · simp [hd]
    refine ⟨⟨fun h => ?_, fun d' h => ?_⟩, rfl, hchannels⟩
    · rw [← ha.file]
      by_cases heq : h = event
      · subst heq
        simp [OverlappedPort.release, howner]
      · simp [OverlappedPort.release, heq]
    · simp only [OverlappedPort.release, hchannels]
      by_cases heq : h = event <;> by_cases hd : d' = d
      · simp [heq, hd]
      · have hne : (s.channels d').event ≠ some event := by
          rw [Ne, ← ha.events, howner]
          simp [Ne.symm hd]
        simp [heq, hd, hne]
      · subst hd
        have hne : s.owner h ≠ some (.event d') := by
          rw [Ne, ha.events, hevent]
          simp [Ne.symm heq]
        simp [heq, hne]
      · simp [heq, hd, ha.events]
  · rename_i hevent
    refine ⟨ha, rfl, fun d' => ?_⟩
    by_cases hd : d' = d
    · subst hd
      rw [if_pos rfl, hevent]
    · rw [if_neg hd]

/-- `drop` leaves no handle open. -/
lemma Accounts.dropAlone (ha : Accounts s s.handle) :
    s.dropAlone.handle = none ∧ Accounts s.dropAlone none ∧
      ∀ d, (s.dropAlone.channels d).event = none := by
  obtain ⟨hnone, hclosed⟩ := ha.closeAlone
  obtain ⟨hread, hhandle, hevents⟩ := hclosed.dropEvent .read
  obtain ⟨hwrite, hhandle', hevents'⟩ := hread.dropEvent .write
  refine ⟨hhandle'.trans (hhandle.trans hnone), hwrite, fun d => ?_⟩
  unfold OverlappedPort.dropAlone
  rw [hevents']
  cases d
  · rw [if_neg (by decide), hevents, if_pos rfl]
  · rfl

variable [DecidableEq ι]

/-- **Every step keeps the handles.**

**Proof sketch.** A thread takes the file out of the port before it closes it, so that no other
thread has it. An event is made for a channel that has none, and closed only by `drop`; `open` and
`drop` have the port for themselves. -/
lemma HandleInv.step (hs : HandleInv s) {s' : OverlappedPort ι Handle} (hstep : Step s s') :
    HandleInv s' := by
  cases hstep with
  | load i d len h hi hh =>
    exact hs.same rfl (fun _ _ _ => Iff.rfl) (fun _ => rfl)
      (closes_update (by simp [hi, PortPc.Closes]))
  | lock i d len h hi hfree => exact hs.act rfl (by simp [hi, PortPc.Closes])
  | noEvent i d len h hi hevent => exact hs.act rfl (by simp [hi, PortPc.Closes])
  | prepare i d len h hi hevent => exact hs.act rfl (by simp [hi, PortPc.Closes])
  | prepareNew i d len h event hi hevent hfresh =>
    have hnew := hs.newEvent (c := { (s.channels d).prepared with event := some event }) hevent
      hfresh rfl
    exact hnew.same rfl (fun _ _ _ => Iff.rfl) (fun _ => rfl)
      (closes_update (by simp [hi, PortPc.Closes]))
  | issueDone i d len h n hi hopen hn => exact hs.act rfl (by simp [hi, PortPc.Closes])
  | issueError i d len h code hi hcode => exact hs.act rfl (by simp [hi, PortPc.Closes])
  | issueRead i len h hi hopen | issueWrite i len h hi hopen =>
    exact hs.act rfl (by simp [hi, PortPc.Closes])
  | retire d l₁ l₂ op status hop =>
    refine hs.same rfl (fun _ _ _ => Iff.rfl) (fun d' => ?_) fun _ _ => Iff.rfl
    by_cases hd : d' = d
    · subst hd
      simp [IoChannel.retire]
    · simp [hd]
  | collect i len hi hover | drain i len hi hover => exact hs.act rfl (by simp [hi, PortPc.Closes])
  | waitSignalled i len hi hsignal => exact hs.act rfl (by simp [hi, PortPc.Closes])
  | waitOver i len hi | poll i len hi | cancel i len hi =>
    exact hs.act rfl (by simp [hi, PortPc.Closes])
  | unlock i d len r hi => exact hs.act rfl (by simp [hi, PortPc.Closes])
  | swap i h hi hh => exact hs.swap hi hh
  | cancelAll i h hi =>
    exact hs.same rfl (fun _ _ _ => Iff.rfl) (fun _ => rfl)
      (closes_update (by simp [hi, PortPc.Closes]))
  | closeHandle i h hi => exact hs.closeHandle hi
  | reopen o hidle hfresh =>
    have hidle' : ∀ i, (s.openAlone o).2.pc i = .idle := by
      rw [(s.openAlone_sameCalls o).pc]
      exact hidle
    exact .of_idle hidle' ((hs.idle hidle).openAlone hfresh)
  | drop hidle =>
    have hidle' : ∀ i, s.dropAlone.pc i = .idle := by
      rw [s.dropAlone_sameCalls.pc]
      exact hidle
    obtain ⟨hnone, haccounts, -⟩ := (hs.idle hidle).dropAlone
    exact .of_idle hidle' (hnone ▸ haccounts)
  | otherOpens h hh | otherCloses h hh =>
    refine hs.same rfl (fun h' o ho => ?_) (fun _ => rfl) fun _ _ => Iff.rfl
    by_cases heq : h' = h
    · subst heq
      simp [hh, Ne.symm ho]
    · simp [heq]

end Alone

section Results

variable [DecidableEq ι] [DecidableEq Handle]

/-- The invariant holds of a port that is not yet open, and of what comes of it. -/
lemma Reachable.handleInv (h : Reachable s) : HandleInv s := by
  obtain ⟨owner, howner, hrun⟩ := h
  induction hrun with
  | refl =>
    have hnone (h : Handle) (o : HandleOwner) (ho : o ≠ .other) : owner h ≠ some o := by
      rcases howner h with hh | hh <;> simp [hh, Ne.symm ho]
    exact .of_idle (fun _ => rfl)
      ⟨fun h => by simp [start, hnone], fun d h => by simp [start, hnone]⟩
  | tail _ hstep ih => exact ih.step hstep

end Results

end OverlappedPort

section Results

variable [DecidableEq ι] [DecidableEq Handle] {s : OverlappedPort ι Handle}

/-- **The port closes its handles once.** A thread closes a file only while it belongs to the port,
even if the values of closed handles are given to others, and no other thread is closing it. The
files that belong to the port are the one it holds and those that threads are closing; so none is
left while no thread is in a call and the port is closed. The events that belong to it are the ones
in its two channels, and `drop` leaves neither a file nor an event.

**Proof sketch.** Invariant of the steps (`HandleInv.step`): the atomic swap gives each file to one
thread, the exits of `open` close what it has opened, and an event is made only for a channel that
has none. -/
theorem handles_closed_once (h : s.Reachable) :
    (∀ i handle, s.pc i = .closeHandle handle → s.owner handle = some .port) ∧
      (∀ i j handle, (s.pc i).Closes handle → (s.pc j).Closes handle → i = j) ∧
      (∀ handle, s.owner handle = some .port ↔
        s.handle = some handle ∨ ∃ i, (s.pc i).Closes handle) ∧
      (∀ d handle, s.owner handle = some (.event d) ↔ (s.channels d).event = some handle) ∧
      ((∀ i, s.pc i = .idle) → s.handle = none → ∀ handle, s.owner handle ≠ some .port) ∧
      ((∀ i, s.pc i = .idle) → ∀ handle, s.dropAlone.owner handle ≠ some .port ∧
        ∀ d, s.dropAlone.owner handle ≠ some (.event d)) := by
  have hs := h.handleInv
  refine ⟨?_, hs.unique, ?_, hs.events, ?_, ?_⟩
  · intro i handle hi
    exact (hs.closing i handle (by rw [hi]; rfl)).1
  · intro handle
    refine ⟨hs.owned handle, ?_⟩
    rintro (hheld | ⟨i, hi⟩)
    · exact hs.held handle hheld
    · exact (hs.closing i handle hi).1
  · intro hidle hnone handle howner
    rw [(hs.idle hidle).file, hnone] at howner
    cases howner
  · intro hidle handle
    obtain ⟨-, haccounts, hevents⟩ := (hs.idle hidle).dropAlone
    refine ⟨fun howner => ?_, fun d howner => ?_⟩
    · rw [haccounts.file] at howner
      cases howner
    · rw [haccounts.events, hevents] at howner
      cases howner

/-- A thread closes the file of an open port, whose events are there until it is dropped. -/
theorem handles_closed_once_close :
    ∃ s : OverlappedPort Bool ℕ, s.Reachable ∧ s.pc true = .closeHandle 1 ∧
      s.owner 1 = some .port ∧ s.handle = none ∧ s.owner 2 = some (.event .read) := by
  have hrun : Relation.ReflTransGen (@OverlappedPort.Step Bool ℕ _ _)
      (OverlappedPort.start fun _ => none) _ :=
    .tail (.tail (.tail .refl
      (.reopen opensAlone (fun _ => rfl) opensAlone_fresh))
      (.swap true 1 rfl rfl))
      (.cancelAll true 1 rfl)
  have hreach : OverlappedPort.Reachable _ := ⟨fun _ => none, by simp, hrun⟩
  have hresult := handles_closed_once hreach
  exact ⟨_, hreach, rfl, hresult.1 true 1 rfl, rfl, (hresult.2.2.2.1 .read 2).mpr rfl⟩

end Results

end Affine
