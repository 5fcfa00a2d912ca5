import Mathlib.Data.List.Basic
import Mathlib.Logic.Function.Basic
import Mathlib.Logic.Relation

set_option relaxedAutoImplicit false
set_option autoImplicit false

/-!
# Overlapped input and output of a serial port

`SerialPort` (`affine-core/src/serial.rs`) in front of the system: `read`, `write` and `close` of one
port, called by any threads at any time, and `open` and `drop`, which have the port for themselves.
A read and a write each have a mutex with an `OVERLAPPED` and its event. A step is one call of the
system or one access to what the threads share, and the threads and the system take their steps in
any order.

The system may still use the `OVERLAPPED` and the buffer of an operation until it has retired it,
whatever the caller does meanwhile. So a call must not return before that, and nobody may prepare
the `OVERLAPPED` for the next operation. A handle that is closed may be given to another file, which
has nothing to do with the port; so nobody may close it again.

## Main definitions

* `Affine.IoChannel` — an `OVERLAPPED` with its mutex and event, and the operations of the system
  that use it.
* `Affine.PortPc` — where a thread is in a call.
* `Affine.OverlappedPort`, `Affine.OverlappedPort.Step` — the port with its threads, and their steps.
* `Affine.OverlappedPort.SameCalls` — what `open` and `drop` do not change.
-/

namespace Affine

/-! ## The system -/

/-- The two directions of a port, each with its own state. -/
inductive IoDir
  | read
  | write
  deriving DecidableEq

def errorInvalidHandle : UInt32 := 6
def errorIoIncomplete : UInt32 := 996
def errorIoPending : UInt32 := 997
def errorOperationAborted : UInt32 := 995
def errorDeviceNotConnected : UInt32 := 1167

/-- How an operation has ended: with a number of bytes, or with an error. -/
inductive IoStatus
  | done (n : ℕ)
  | error (code : UInt32)
  deriving DecidableEq

/-- The status in an `OVERLAPPED`. A zero reads as the end of an operation with no bytes. -/
inductive IoInternal
  | zero
  | pending
  | complete (status : IoStatus)
  deriving DecidableEq

/-- What `GetOverlappedResult` returns for a status, if it does not wait. -/
def IoInternal.result : IoInternal → IoStatus
  | zero => .done 0
  | pending => .error errorIoIncomplete
  | complete status => status

/-- An operation that the system has accepted and not retired: the thread whose buffer it uses, and
the handle it was given. -/
structure PendingIo (ι Handle : Type) where
  thread : ι
  handle : Handle

/-- `OverlappedState` in its mutex, with the handle of its event, if there is one, whether that is
signalled, and the operations that use the `OVERLAPPED`. -/
structure IoChannel (ι Handle : Type) where
  lock : Option ι
  event : Option Handle
  signalled : Bool
  internal : IoInternal
  pending : List (PendingIo ι Handle)

/-- What an open handle belongs to: to the port as its file, to a channel of it as its event, or to
the rest of the process. -/
inductive HandleOwner
  | port
  | event (d : IoDir)
  | other
  deriving DecidableEq

/-! ## The calls -/

/-- What a call returns. -/
inductive CallResult
  | read (r : Option ℕ)
  | write (ok : Bool)
  deriving DecidableEq

/-- The port is gone: the errors on which `read` returns `None`. -/
def isGone (code : UInt32) : Bool :=
  code = errorInvalidHandle ∨ code = errorDeviceNotConnected ∨ code = errorOperationAborted

/-- What `read` makes of a status. -/
def readResult : IoStatus → CallResult
  | .done n => .read (some n)
  | .error code => .read (if isGone code then none else some 0)

/-- What `write` makes of a status, for a buffer of `len` bytes. -/
def writeResult (len : ℕ) : IoStatus → CallResult
  | .done n => .write (n = len)
  | .error _ => .write false

/-- What a call makes of a status. -/
def callResult (d : IoDir) (len : ℕ) (status : IoStatus) : CallResult :=
  match d with
  | .read => readResult status
  | .write => writeResult len status

/-- What a call returns without an operation. -/
def failedResult : IoDir → CallResult
  | .read => .read none
  | .write => .write false

/-- Where a thread is. A call has a direction, the length of its buffer and the handle it has
loaded. -/
inductive PortPc (Handle : Type)
  | idle
  /-- The handle is loaded; the thread waits for the mutex. -/
  | loaded (d : IoDir) (len : ℕ) (h : Handle)
  /-- The thread has the mutex, and prepares the `OVERLAPPED`. -/
  | prepare (d : IoDir) (len : ℕ) (h : Handle)
  /-- Before `ReadFile` or `WriteFile`. -/
  | issue (d : IoDir) (len : ℕ) (h : Handle)
  /-- `read` in `GetOverlappedResult`, which waits. -/
  | collect (len : ℕ)
  /-- `wait_overlapped` in `WaitForSingleObject`. -/
  | wait (len : ℕ)
  /-- `wait_overlapped` before `GetOverlappedResult`, which does not wait. -/
  | poll (len : ℕ)
  /-- `wait_overlapped` before `CancelIoEx`. -/
  | cancel (len : ℕ)
  /-- `wait_overlapped` in `GetOverlappedResult`, which waits. -/
  | drain (len : ℕ)
  /-- Before the mutex is released. -/
  | done (d : IoDir) (len : ℕ) (r : CallResult)
  /-- `close` behind the swap, before `CancelIoEx`. -/
  | closing (h : Handle)
  /-- `close` before `CloseHandle`. -/
  | closeHandle (h : Handle)

/-- A port with the threads that call it: the handle, the two channels, whom the handles of the
process belong to, where the threads are, and how the system has ended the operation of each
thread's call, if it has. -/
structure OverlappedPort (ι Handle : Type) where
  handle : Option Handle
  channels : IoDir → IoChannel ι Handle
  owner : Handle → Option HandleOwner
  pc : ι → PortPc Handle
  fate : ι → Option IoStatus

variable {ι Handle : Type}

/-- What `open` meets: the handle that `CreateFileW` returns, those that `CreateEventW` returns for
the events that are missing, and whether the settings are accepted. -/
structure OpenOutcome (Handle : Type) where
  created : Option Handle
  events : IoDir → Option Handle
  getCommState : Bool
  setCommState : Bool
  setCommTimeouts : Bool

/-- The system returns handles that are not in use. -/
structure OpenOutcome.Fresh (o : OpenOutcome Handle) (owner : Handle → Option HandleOwner) :
    Prop where
  created : ∀ h, o.created = some h → owner h = none
  events : ∀ d h, o.events d = some h → owner h = none ∧ o.created ≠ some h
  distinct : ∀ h, o.events .read = some h → o.events .write ≠ some h

namespace IoChannel

/-- The end of `prepare_overlapped`: the event is reset, and the `OVERLAPPED` is new. -/
def prepared (c : IoChannel ι Handle) : IoChannel ι Handle :=
  { c with signalled := false, internal := .zero }

/-- The system accepts an operation. -/
def accept (c : IoChannel ι Handle) (op : PendingIo ι Handle) : IoChannel ι Handle :=
  { c with signalled := false, internal := .pending, pending := op :: c.pending }

/-- An operation ends at once. -/
def complete (c : IoChannel ι Handle) (status : IoStatus) : IoChannel ι Handle :=
  { c with signalled := true, internal := .complete status }

/-- The system retires an operation, and these are left. -/
def retire (c : IoChannel ι Handle) (status : IoStatus) (rest : List (PendingIo ι Handle)) :
    IoChannel ι Handle :=
  { c with signalled := true, internal := .complete status, pending := rest }

end IoChannel

namespace OverlappedPort

variable [DecidableEq ι] [DecidableEq Handle] (s : OverlappedPort ι Handle)

/-- A thread goes on. -/
def move (i : ι) (pc : PortPc Handle) : OverlappedPort ι Handle :=
  { s with pc := Function.update s.pc i pc }

/-- A thread goes on, with a change of a channel and of what is known of its operation. -/
def act (i : ι) (d : IoDir) (c : IoChannel ι Handle) (pc : PortPc Handle)
    (fate : Option IoStatus) : OverlappedPort ι Handle :=
  { s with
    channels := Function.update s.channels d c
    pc := Function.update s.pc i pc
    fate := Function.update s.fate i fate }

/-- `CloseHandle`. -/
def release (h : Handle) : OverlappedPort ι Handle :=
  { s with owner := Function.update s.owner h none }

/-- `close` without other threads. -/
def closeAlone : OverlappedPort ι Handle :=
  match s.handle with
  | some h => { s with handle := none }.release h
  | none => s

/-- `ensure_event`: whether there is an event, and the `OVERLAPPED` for it. An event that it makes
belongs to the channel. -/
def ensureEvent (d : IoDir) (created : Option Handle) : Bool × OverlappedPort ι Handle :=
  let c := s.channels d
  match c.event, created with
  | some _, _ =>
    (true, { s with channels := Function.update s.channels d { c with internal := .zero } })
  | none, some h =>
    (true,
      { s with
        channels := Function.update s.channels d { c with event := some h, internal := .zero }
        owner := Function.update s.owner h (some (.event d)) })
  | none, none => (false, s)

/-- `ensure_events`. -/
def ensureEvents (events : IoDir → Option Handle) : Bool × OverlappedPort ι Handle :=
  let (ok, s) := s.ensureEvent .read (events .read)
  if ¬ ok then (false, s) else s.ensureEvent .write (events .write)

/-- `open`, which has the port for itself. -/
def openAlone (o : OpenOutcome Handle) : Bool × OverlappedPort ι Handle :=
  let s := s.closeAlone
  match o.created with
  | none => (false, s)
  | some h =>
    let s := { s with owner := Function.update s.owner h (some .port) }
    let (ok, s) := s.ensureEvents o.events
    if ¬ ok then (false, s.release h)
    else if ¬ o.getCommState then (false, s.release h)
    else if ¬ o.setCommState then (false, s.release h)
    else if ¬ o.setCommTimeouts then (false, s.release h)
    else (true, { s with handle := some h })

/-- The part of `drop` for a channel: its event is closed. -/
def dropEvent (d : IoDir) : OverlappedPort ι Handle :=
  match (s.channels d).event with
  | some h =>
    { s with channels := Function.update s.channels d { s.channels d with event := none } }.release h
  | none => s

/-- `drop`, which has the port for itself. -/
def dropAlone : OverlappedPort ι Handle := (s.closeAlone.dropEvent .read).dropEvent .write

/-- The steps of the threads, of the system and of the rest of the process. -/
inductive Step (s : OverlappedPort ι Handle) : OverlappedPort ι Handle → Prop
  /-- `read` or `write` loads the handle. Without one it returns at once. -/
  | load (i : ι) (d : IoDir) (len : ℕ) (h : Handle) (hi : s.pc i = .idle) (hh : s.handle = some h) :
      Step s { s.move i (.loaded d len h) with fate := Function.update s.fate i none }
  | lock (i : ι) (d : IoDir) (len : ℕ) (h : Handle) (hi : s.pc i = .loaded d len h)
      (hfree : (s.channels d).lock = none) :
      Step s (s.act i d { s.channels d with lock := some i } (.prepare d len h) (s.fate i))
  | noEvent (i : ι) (d : IoDir) (len : ℕ) (h : Handle) (hi : s.pc i = .prepare d len h)
      (hevent : (s.channels d).event = none) :
      Step s (s.act i d (s.channels d) (.done d len (failedResult d)) (s.fate i))
  | prepare (i : ι) (d : IoDir) (len : ℕ) (h : Handle) (hi : s.pc i = .prepare d len h)
      (hevent : (s.channels d).event ≠ none) :
      Step s (s.act i d (s.channels d).prepared (.issue d len h) (s.fate i))
  /-- Without an event `prepare_overlapped` makes one. -/
  | prepareNew (i : ι) (d : IoDir) (len : ℕ) (h event : Handle) (hi : s.pc i = .prepare d len h)
      (hevent : (s.channels d).event = none) (hfresh : s.owner event = none) :
      Step s
        { s.act i d { (s.channels d).prepared with event := some event } (.issue d len h)
            (s.fate i) with
          owner := Function.update s.owner event (some (.event d)) }
  | issueDone (i : ι) (d : IoDir) (len : ℕ) (h : Handle) (n : ℕ) (hi : s.pc i = .issue d len h)
      (hopen : s.owner h ≠ none) (hn : n ≤ len) :
      Step s (s.act i d ((s.channels d).complete (.done n))
        (.done d len (callResult d len (.done n))) (some (.done n)))
  | issueError (i : ι) (d : IoDir) (len : ℕ) (h : Handle) (code : UInt32)
      (hi : s.pc i = .issue d len h) (hcode : code ≠ errorIoPending) :
      Step s (s.act i d (s.channels d) (.done d len (callResult d len (.error code)))
        (some (.error code)))
  | issueRead (i : ι) (len : ℕ) (h : Handle) (hi : s.pc i = .issue .read len h)
      (hopen : s.owner h ≠ none) :
      Step s (s.act i .read ((s.channels .read).accept ⟨i, h⟩) (.collect len) (s.fate i))
  | issueWrite (i : ι) (len : ℕ) (h : Handle) (hi : s.pc i = .issue .write len h)
      (hopen : s.owner h ≠ none) :
      Step s (s.act i .write ((s.channels .write).accept ⟨i, h⟩) (.wait len) (s.fate i))
  /-- The system retires an operation, whether or not it was cancelled. -/
  | retire (d : IoDir) (l₁ l₂ : List (PendingIo ι Handle)) (op : PendingIo ι Handle)
      (status : IoStatus) (hop : (s.channels d).pending = l₁ ++ op :: l₂) :
      Step s
        { s with
          channels := Function.update s.channels d ((s.channels d).retire status (l₁ ++ l₂))
          fate := Function.update s.fate op.thread (some status) }
  | collect (i : ι) (len : ℕ) (hi : s.pc i = .collect len)
      (hover : (s.channels .read).internal ≠ .pending) :
      Step s (s.act i .read (s.channels .read)
        (.done .read len (callResult .read len (s.channels .read).internal.result)) (s.fate i))
  | waitSignalled (i : ι) (len : ℕ) (hi : s.pc i = .wait len)
      (hsignal : (s.channels .write).signalled = true) :
      Step s (s.act i .write (s.channels .write) (.poll len) (s.fate i))
  /-- The time is over, or the wait has failed. -/
  | waitOver (i : ι) (len : ℕ) (hi : s.pc i = .wait len) :
      Step s (s.act i .write (s.channels .write) (.cancel len) (s.fate i))
  | poll (i : ι) (len : ℕ) (hi : s.pc i = .poll len) :
      Step s (s.act i .write (s.channels .write)
        (.done .write len (callResult .write len (s.channels .write).internal.result)) (s.fate i))
  /-- `CancelIoEx` asks the system to retire the operation. -/
  | cancel (i : ι) (len : ℕ) (hi : s.pc i = .cancel len) :
      Step s (s.act i .write (s.channels .write) (.drain len) (s.fate i))
  | drain (i : ι) (len : ℕ) (hi : s.pc i = .drain len)
      (hover : (s.channels .write).internal ≠ .pending) :
      Step s (s.act i .write (s.channels .write) (.done .write len (.write false)) (s.fate i))
  | unlock (i : ι) (d : IoDir) (len : ℕ) (r : CallResult) (hi : s.pc i = .done d len r) :
      Step s (s.act i d { s.channels d with lock := none } .idle (s.fate i))
  /-- `close` swaps the handle for none. -/
  | swap (i : ι) (h : Handle) (hi : s.pc i = .idle) (hh : s.handle = some h) :
      Step s { s.move i (.closing h) with handle := none }
  | cancelAll (i : ι) (h : Handle) (hi : s.pc i = .closing h) :
      Step s (s.move i (.closeHandle h))
  | closeHandle (i : ι) (h : Handle) (hi : s.pc i = .closeHandle h) :
      Step s ((s.release h).move i .idle)
  /-- `open` has the port for itself. -/
  | reopen (o : OpenOutcome Handle) (hidle : ∀ i, s.pc i = .idle)
      (hfresh : o.Fresh s.closeAlone.owner) :
      Step s (s.openAlone o).2
  /-- `drop` has the port for itself. -/
  | drop (hidle : ∀ i, s.pc i = .idle) : Step s s.dropAlone
  /-- Other files are opened and closed in the process. -/
  | otherOpens (h : Handle) (hh : s.owner h = none) :
      Step s { s with owner := Function.update s.owner h (some .other) }
  | otherCloses (h : Handle) (hh : s.owner h = some .other) :
      Step s { s with owner := Function.update s.owner h none }

/-- `SerialPort::default`, in a process with these handles. -/
def start (owner : Handle → Option HandleOwner) : OverlappedPort ι Handle where
  handle := none
  channels := fun _ =>
    { lock := none, event := none, signalled := false, internal := .zero, pending := [] }
  owner := owner
  pc := fun _ => .idle
  fate := fun _ => none

/-- What the threads can come to from a port that no handle belongs to. -/
def Reachable (s : OverlappedPort ι Handle) : Prop :=
  ∃ owner : Handle → Option HandleOwner, (∀ h, owner h = none ∨ owner h = some .other) ∧
    Relation.ReflTransGen Step (start owner) s

end OverlappedPort

/-- An open that succeeds, in a process without other handles. -/
def opensAlone : OpenOutcome ℕ where
  created := some 1
  events d := if d = .read then some 2 else some 3
  getCommState := true
  setCommState := true
  setCommTimeouts := true

/-- Its handles are not in use. -/
lemma opensAlone_fresh : opensAlone.Fresh fun _ => none where
  created := fun _ _ => rfl
  events := by
    intro d h hd
    refine ⟨rfl, ?_⟩
    cases d <;> cases hd <;> decide
  distinct := by
    rintro h ⟨⟩
    decide

/-! ## What `open` and `drop` leave alone -/

namespace OverlappedPort

/-- The calls and operations are the same. -/
structure SameCalls (s s' : OverlappedPort ι Handle) : Prop where
  pc : s'.pc = s.pc
  channels : ∀ d, (s'.channels d).lock = (s.channels d).lock ∧
    (s'.channels d).pending = (s.channels d).pending

/-- A sequence of two parts that leave the calls alone leaves them alone. -/
lemma SameCalls.trans {s s' s'' : OverlappedPort ι Handle} (h : SameCalls s s')
    (h' : SameCalls s' s'') : SameCalls s s'' where
  pc := h'.pc.trans h.pc
  channels := fun d =>
    ⟨(h'.channels d).1.trans (h.channels d).1, (h'.channels d).2.trans (h.channels d).2⟩

/-- A change of the handles leaves the calls alone. -/
lemma SameCalls.of_eq {s s' : OverlappedPort ι Handle} (hpc : s'.pc = s.pc)
    (hchannels : s'.channels = s.channels) : SameCalls s s' where
  pc := hpc
  channels := fun d => by rw [hchannels]; exact ⟨rfl, rfl⟩

/-- So does a change of a channel that leaves its mutex and its operations. -/
lemma SameCalls.of_update {s s' : OverlappedPort ι Handle} {d : IoDir} {c : IoChannel ι Handle}
    (hpc : s'.pc = s.pc) (hchannels : s'.channels = Function.update s.channels d c)
    (hlock : c.lock = (s.channels d).lock) (hpending : c.pending = (s.channels d).pending) :
    SameCalls s s' where
  pc := hpc
  channels := by
    intro d'
    rw [hchannels]
    by_cases hd : d' = d
    · subst hd
      simpa using ⟨hlock, hpending⟩
    · simp [hd]

section Alone

variable [DecidableEq Handle]

/-- `ensure_event` leaves the calls alone. -/
lemma ensureEvent_sameCalls (s : OverlappedPort ι Handle) (d : IoDir) (created : Option Handle) :
    SameCalls s (s.ensureEvent d created).2 := by
  unfold ensureEvent
  dsimp only
  split
  · exact .of_update rfl rfl rfl rfl
  · exact .of_update rfl rfl rfl rfl
  · exact .of_eq rfl rfl

/-- So does `ensure_events`. -/
lemma ensureEvents_sameCalls (s : OverlappedPort ι Handle) (events : IoDir → Option Handle) :
    SameCalls s (s.ensureEvents events).2 := by
  have hread := s.ensureEvent_sameCalls .read (events .read)
  unfold ensureEvents
  dsimp only
  split
  · exact hread
  · exact hread.trans (ensureEvent_sameCalls _ .write _)

/-- `close` leaves the other calls alone. -/
lemma closeAlone_sameCalls (s : OverlappedPort ι Handle) : SameCalls s s.closeAlone := by
  unfold closeAlone
  split <;> exact .of_eq rfl rfl

/-- `open` leaves the mutexes and the operations alone.

**Proof sketch.** It closes the port, makes the events that are missing, and at most closes the new
handle again. -/
lemma openAlone_sameCalls (s : OverlappedPort ι Handle) (o : OpenOutcome Handle) :
    SameCalls s (s.openAlone o).2 := by
  refine s.closeAlone_sameCalls.trans ?_
  unfold openAlone
  dsimp only
  split
  · exact .of_eq rfl rfl
  · rename_i h _
    have hevents := ensureEvents_sameCalls
      { s.closeAlone with owner := Function.update s.closeAlone.owner h (some .port) } o.events
    have hopened : SameCalls s.closeAlone
        { s.closeAlone with owner := Function.update s.closeAlone.owner h (some .port) } :=
      .of_eq rfl rfl
    refine hopened.trans (hevents.trans ?_)
    split_ifs <;> exact .of_eq rfl rfl

/-- Closing an event leaves the calls alone. -/
lemma dropEvent_sameCalls (s : OverlappedPort ι Handle) (d : IoDir) :
    SameCalls s (s.dropEvent d) := by
  unfold dropEvent
  split
  · exact .of_update rfl rfl rfl rfl
  · exact .of_eq rfl rfl

/-- `drop` leaves the mutexes and the operations alone. -/
lemma dropAlone_sameCalls (s : OverlappedPort ι Handle) : SameCalls s s.dropAlone :=
  (s.closeAlone_sameCalls.trans (dropEvent_sameCalls _ _)).trans (dropEvent_sameCalls _ _)

end Alone

end OverlappedPort

end Affine
