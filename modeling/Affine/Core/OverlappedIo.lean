import Affine.Core.Overlapped

set_option relaxedAutoImplicit false
set_option autoImplicit false

/-!
# Operations and their calls

The reads and writes of a serial port (`Affine.OverlappedPort`) and the operations of the system
behind them, in any interleaving of the threads and the system.

## Main definitions

* `Affine.Truthful` — what a result says of the operation of its call.
* `Affine.IoChannel.Serves` — what a channel is like for the thread that has its mutex.
* `Affine.OverlappedPort.IoInv` — the invariant of the mutexes and operations.

## Main results

* `Affine.no_io_outlives_its_call` — the system uses no buffer or `OVERLAPPED` of a call that has
  returned, and results are those of their own operations.
-/

namespace Affine

variable {ι Handle : Type}

/-- What a result says of the operation of its call. A read that returns bytes has read them, and
one that returns none of them has ended with an error that is not the end of the port. A write that
succeeds has written its whole buffer. -/
def Truthful (fate : Option IoStatus) (len : ℕ) : CallResult → Prop
  | .read (some n) => fate = some (.done n) ∨
      (n = 0 ∧ ∃ code, fate = some (.error code) ∧ isGone code = false)
  | .read none => fate = none ∨ ∃ code, fate = some (.error code) ∧ isGone code = true
  | .write true => fate = some (.done len)
  | .write false => True

/-- What a call makes of a status is true of an operation that ended with this status. -/
lemma truthful_callResult (d : IoDir) (len : ℕ) (status : IoStatus) :
    Truthful (some status) len (callResult d len status) := by
  cases d with
  | read =>
    cases status with
    | done n => exact .inl rfl
    | error code =>
      cases hgone : isGone code <;> simp [callResult, readResult, Truthful, hgone]
  | write =>
    cases status with
    | done n => by_cases hn : n = len <;> simp [callResult, writeResult, Truthful, hn]
    | error code => trivial

/-- A call that issues no operation reports none. -/
lemma truthful_failedResult (d : IoDir) (len : ℕ) : Truthful none len (failedResult d) := by
  cases d with
  | read => exact .inl rfl
  | write => trivial

/-- The thread has the mutex of a direction. -/
def PortPc.Holds (d : IoDir) : PortPc Handle → Prop
  | idle | loaded _ _ _ | closing _ | closeHandle _ => False
  | prepare d' _ _ | issue d' _ _ | done d' _ _ => d' = d
  | collect _ => d = .read
  | wait _ | poll _ | cancel _ | drain _ => d = .write

namespace IoChannel

variable (c : IoChannel ι Handle) (i : ι)

/-- The operation of the thread has ended, and its status is there. -/
def Retired (fate : Option IoStatus) : Prop :=
  c.pending = [] ∧ ∃ status, c.internal = .complete status ∧ fate = some status

/-- The operation of the thread is the only one of the channel, or has ended. -/
def Awaits (fate : Option IoStatus) : Prop :=
  (∃ h, c.pending = [⟨i, h⟩] ∧ c.internal = .pending ∧ c.signalled = false) ∨ c.Retired fate

/-- What the channel of a direction is like for the thread that has its mutex. -/
def Serves (d : IoDir) (fate : Option IoStatus) : PortPc Handle → Prop
  | .idle | .loaded _ _ _ | .closing _ | .closeHandle _ => False
  | .prepare d' _ _ => d' = d ∧ c.pending = [] ∧ fate = none
  | .issue d' _ _ => d' = d ∧ c.pending = [] ∧ fate = none
  | .collect _ => d = .read ∧ c.Awaits i fate
  | .wait _ | .cancel _ | .drain _ => d = .write ∧ c.Awaits i fate
  | .poll _ => d = .write ∧ c.Retired fate
  | .done d' len r => d' = d ∧ c.pending = [] ∧ Truthful fate len r

end IoChannel

/-- A thread that is served by the channel of a direction has its mutex. -/
lemma IoChannel.Serves.holds {c : IoChannel ι Handle} {i : ι} {d : IoDir}
    {fate : Option IoStatus} {pc : PortPc Handle} (h : c.Serves i d fate pc) : pc.Holds d := by
  cases pc <;> first | exact h.1 | exact h.elim

/-- A channel has at most one operation. -/
lemma IoChannel.Serves.length_le {c : IoChannel ι Handle} {i : ι} {d : IoDir}
    {fate : Option IoStatus} {pc : PortPc Handle} (h : c.Serves i d fate pc) :
    c.pending.length ≤ 1 := by
  have hnone (hc : c.pending = []) : c.pending.length ≤ 1 := by simp [hc]
  have hawaits (hc : c.Awaits i fate) : c.pending.length ≤ 1 := by
    rcases hc with ⟨handle, hpending, -⟩ | ⟨hpending, -⟩
    · simp [hpending]
    · exact hnone hpending
  cases pc with
  | idle | loaded _ _ _ | closing _ | closeHandle _ => exact h.elim
  | prepare _ _ _ | issue _ _ _ | done _ _ _ => exact hnone h.2.1
  | poll _ => exact hnone h.2.1
  | collect _ | wait _ | cancel _ | drain _ => exact hawaits h.2

/-- An operation of a channel is the one of the thread with the mutex, which waits for it. -/
lemma IoChannel.Serves.of_mem {c : IoChannel ι Handle} {i : ι} {d : IoDir}
    {fate : Option IoStatus} {pc : PortPc Handle} (h : c.Serves i d fate pc)
    {op : PendingIo ι Handle} (hop : op ∈ c.pending) :
    op.thread = i ∧ ∃ len, pc = .collect len ∨ pc = .wait len ∨ pc = .cancel len ∨
      pc = .drain len := by
  have hnone (hc : c.pending = []) : op ∉ c.pending := by simp [hc]
  have hawaits (hc : c.Awaits i fate) : op.thread = i := by
    rcases hc with ⟨handle, hpending, -⟩ | ⟨hpending, -⟩
    · rw [hpending] at hop
      rw [List.mem_singleton.mp hop]
    · exact absurd hop (hnone hpending)
  cases pc with
  | idle | loaded _ _ _ | closing _ | closeHandle _ => exact h.elim
  | prepare _ _ _ | issue _ _ _ | done _ _ _ => exact absurd hop (hnone h.2.1)
  | poll _ => exact absurd hop (hnone h.2.1)
  | collect len | wait len | cancel len | drain len => exact ⟨hawaits h.2, len, by simp⟩

/-- An operation that the system retires is the one of the thread with the mutex.

**Proof sketch.** The cases are what the thread expects: it awaits its operation, so that this is
the one which is retired. -/
lemma IoChannel.Serves.retire {c : IoChannel ι Handle} {i : ι} {d : IoDir}
    {fate : Option IoStatus} {pc : PortPc Handle} (h : c.Serves i d fate pc)
    {l₁ l₂ : List (PendingIo ι Handle)} {op : PendingIo ι Handle} (status : IoStatus)
    (hop : c.pending = l₁ ++ op :: l₂) :
    op.thread = i ∧ (c.retire status (l₁ ++ l₂)).Serves i d (some status) pc := by
  have hne : c.pending ≠ [] := by simp [hop]
  have hawaits (hc : c.Awaits i fate) :
      op.thread = i ∧ (c.retire status (l₁ ++ l₂)).Awaits i (some status) := by
    rcases hc with ⟨handle, hpending, -⟩ | ⟨hpending, -⟩
    · obtain ⟨rfl, rfl, rfl⟩ : l₁ = [] ∧ op = ⟨i, handle⟩ ∧ l₂ = [] := by
        rw [hpending] at hop
        cases l₁ with
        | nil =>
          cases hop
          exact ⟨rfl, rfl, rfl⟩
        | cons a l₁ => simp at hop
      exact ⟨rfl, .inr ⟨rfl, status, rfl, rfl⟩⟩
    · exact absurd hpending hne
  cases pc with
  | idle | loaded _ _ _ | closing _ | closeHandle _ => exact h.elim
  | prepare _ _ _ | issue _ _ _ | done _ _ _ => exact absurd h.2.1 hne
  | poll _ => exact absurd h.2.1 hne
  | collect _ | wait _ | cancel _ | drain _ =>
    obtain ⟨hthread, hnew⟩ := hawaits h.2
    exact ⟨hthread, h.1, hnew⟩

/-- A thread has at most one mutex. -/
lemma PortPc.Holds.unique {pc : PortPc Handle} {d d' : IoDir} (h : pc.Holds d) (h' : pc.Holds d') :
    d = d' := by
  cases pc with
  | idle | loaded _ _ _ | closing _ | closeHandle _ => exact h.elim
  | prepare _ _ _ | issue _ _ _ | done _ _ _ => exact Eq.trans (Eq.symm h) h'
  | collect _ | wait _ | poll _ | cancel _ | drain _ => exact Eq.trans h (Eq.symm h')

namespace OverlappedPort

variable {s : OverlappedPort ι Handle}

/-- The mutexes and operations of a port. A channel whose mutex is free has no operations, and
otherwise it is as its owner expects. A call that has only loaded the handle has no operation
yet. -/
structure IoInv (s : OverlappedPort ι Handle) : Prop where
  free : ∀ d, (s.channels d).lock = none → (s.channels d).pending = []
  owned : ∀ d i, (s.channels d).lock = some i → (s.channels d).Serves i d (s.fate i) (s.pc i)
  held : ∀ i d, (s.pc i).Holds d → (s.channels d).lock = some i
  loaded : ∀ i d len h, s.pc i = .loaded d len h → s.fate i = none

/-- While no thread is in a call, no mutex is held. -/
lemma IoInv.idle (hs : IoInv s) (hidle : ∀ i, s.pc i = .idle) (d : IoDir) :
    (s.channels d).lock = none ∧ (s.channels d).pending = [] := by
  cases hlock : (s.channels d).lock with
  | none => exact ⟨rfl, hs.free d hlock⟩
  | some i =>
    have hserves := hs.owned d i hlock
    rw [hidle i] at hserves
    exact hserves.elim

/-- A port without calls in it, and without held mutexes. -/
lemma IoInv.of_idle (hidle : ∀ i, s.pc i = .idle)
    (hfree : ∀ d, (s.channels d).lock = none ∧ (s.channels d).pending = []) : IoInv s where
  free := fun d _ => (hfree d).2
  owned := by
    intro d i hi
    rw [(hfree d).1] at hi
    cases hi
  held := by
    intro i d hi
    rw [hidle i] at hi
    exact hi.elim
  loaded := by
    intro i d len h hi
    rw [hidle i] at hi
    cases hi

section Threads

variable [DecidableEq ι]

/-- A thread that has no other mutex goes on in a channel that no other thread has the mutex of:
either it has the mutex then and the channel is as it expects, or it is outside and the channel has
no operations.

**Proof sketch.** The channel of the direction and the place of the thread are the ones that change.
For the other channels and threads the invariant holds as before: no other thread has this mutex,
and this thread has no other one. -/
lemma IoInv.act (hs : IoInv s) {i : ι} {d : IoDir} {c : IoChannel ι Handle} {pc : PortPc Handle}
    {fate : Option IoStatus} (hown : ∀ j, (s.channels d).lock = some j → j = i)
    (hheld : ∀ d', (s.pc i).Holds d' → d' = d)
    (hnew : c.lock = some i ∧ c.Serves i d fate pc ∨ c.lock = none ∧ c.pending = [] ∧ pc = .idle) :
    IoInv (s.act i d c pc fate) where
  free := by
    intro d' hfree
    by_cases hd : d' = d
    · subst hd
      simp only [OverlappedPort.act, Function.update_self] at hfree ⊢
      rcases hnew with ⟨hlock, -⟩ | ⟨-, hpending, -⟩
      · rw [hlock] at hfree
        cases hfree
      · exact hpending
    · simp only [OverlappedPort.act, Function.update_of_ne hd] at hfree ⊢
      exact hs.free d' hfree
  owned := by
    intro d' j hj
    by_cases hd : d' = d
    · subst hd
      simp only [OverlappedPort.act, Function.update_self] at hj ⊢
      rcases hnew with ⟨hlock, hserves⟩ | ⟨hlock, -, -⟩
      · obtain rfl : i = j := Option.some.inj (hlock.symm.trans hj)
        simpa using hserves
      · rw [hlock] at hj
        cases hj
    · simp only [OverlappedPort.act, Function.update_of_ne hd] at hj ⊢
      have hji : j ≠ i := by
        rintro rfl
        exact hd (hheld d' (hs.owned d' j hj).holds)
      simpa [hji] using hs.owned d' j hj
  held := by
    intro j d' hj
    by_cases hji : j = i
    · subst hji
      simp only [OverlappedPort.act, Function.update_self] at hj
      rcases hnew with ⟨hlock, hserves⟩ | ⟨-, -, rfl⟩
      · obtain rfl : d = d' := hserves.holds.unique hj
        simpa [OverlappedPort.act] using hlock
      · exact hj.elim
    · have hlock := hs.held j d' (by simpa [OverlappedPort.act, hji] using hj)
      have hd : d' ≠ d := by
        rintro rfl
        exact hji (hown j hlock)
      simpa [OverlappedPort.act, hd] using hlock
  loaded := by
    intro j d' len h hj
    by_cases hji : j = i
    · subst hji
      obtain rfl : pc = .loaded d' len h := by simpa [OverlappedPort.act] using hj
      rcases hnew with ⟨-, hserves⟩ | ⟨-, -, hidle⟩
      · exact hserves.elim
      · cases hidle
    · simp only [OverlappedPort.act, Function.update_of_ne hji] at hj ⊢
      exact hs.loaded j d' len h hj

/-- The thread with the mutex of a channel goes on in it, with what it finds there. -/
lemma IoInv.go (hs : IoInv s) {i : ι} {d : IoDir} {c : IoChannel ι Handle} {pc : PortPc Handle}
    {fate : Option IoStatus} (hi : (s.pc i).Holds d) (hc : c.lock = (s.channels d).lock)
    (hserves : (s.channels d).Serves i d (s.fate i) (s.pc i) → c.Serves i d fate pc) :
    IoInv (s.act i d c pc fate) := by
  have hlock := hs.held i d hi
  refine hs.act ?_ (fun d' hd' => hd'.unique hi) (.inl ⟨hc.trans hlock, ?_⟩)
  · intro j hj
    exact Option.some.inj (hj.symm.trans hlock)
  · exact hserves (hs.owned d i hlock)

/-- A thread gets a mutex. -/
lemma IoInv.lock (hs : IoInv s) {i : ι} {d : IoDir} {len : ℕ} {h : Handle}
    (hi : s.pc i = .loaded d len h) (hfree : (s.channels d).lock = none) :
    IoInv (s.act i d { s.channels d with lock := some i } (.prepare d len h) (s.fate i)) := by
  refine hs.act ?_ ?_ (.inl ⟨rfl, rfl, hs.free d hfree, hs.loaded i d len h hi⟩)
  · intro j hj
    rw [hfree] at hj
    cases hj
  · intro d' hd'
    rw [hi] at hd'
    exact hd'.elim

/-- A thread releases its mutex. -/
lemma IoInv.unlock (hs : IoInv s) {i : ι} {d : IoDir} {len : ℕ} {r : CallResult}
    (hi : s.pc i = .done d len r) :
    IoInv (s.act i d { s.channels d with lock := none } .idle (s.fate i)) := by
  have hholds : (s.pc i).Holds d := by rw [hi]; rfl
  have hlock := hs.held i d hholds
  have hserves := hs.owned d i hlock
  rw [hi] at hserves
  refine hs.act ?_ (fun d' hd' => hd'.unique hholds) (.inr ⟨rfl, hserves.2.1, rfl⟩)
  intro j hj
  exact Option.some.inj (hj.symm.trans hlock)

/-- A thread that has no mutex goes on without one.

**Proof sketch.** The channels do not change, and the thread has none of them before and behind the
step. -/
lemma IoInv.outside (hs : IoInv s) {i : ι} {pc : PortPc Handle} (fate : Option IoStatus)
    (hi : ∀ d, ¬ (s.pc i).Holds d) (hpc : ∀ d, ¬ pc.Holds d)
    (hfate : ∀ d len h, pc = .loaded d len h → fate = none) {s' : OverlappedPort ι Handle}
    (hchannels : s'.channels = s.channels) (hpc' : s'.pc = Function.update s.pc i pc)
    (hfate' : s'.fate = Function.update s.fate i fate) : IoInv s' where
  free := by
    rw [hchannels]
    exact hs.free
  owned := by
    intro d j hj
    rw [hchannels] at hj ⊢
    have hserves := hs.owned d j hj
    have hji : j ≠ i := by
      rintro rfl
      exact hi d hserves.holds
    rw [hpc', hfate', Function.update_of_ne hji, Function.update_of_ne hji]
    exact hserves
  held := by
    intro j d hj
    rw [hpc'] at hj
    rw [hchannels]
    by_cases hji : j = i
    · subst hji
      exact absurd (by simpa using hj) (hpc d)
    · exact hs.held j d (by simpa [hji] using hj)
  loaded := by
    intro j d len h hj
    rw [hpc'] at hj
    rw [hfate']
    by_cases hji : j = i
    · subst hji
      simpa using hfate d len h (by simpa using hj)
    · rw [Function.update_of_ne hji] at hj ⊢
      exact hs.loaded j d len h hj

/-- The system retires an operation: it is the one of the thread with the mutex.

**Proof sketch.** The thread with the mutex is the only one whose operation is pending. The channel
has no pending one then, and the status is the fate of the operation. -/
lemma IoInv.retire (hs : IoInv s) {d : IoDir} {l₁ l₂ : List (PendingIo ι Handle)}
    {op : PendingIo ι Handle} (status : IoStatus) (hop : (s.channels d).pending = l₁ ++ op :: l₂) :
    IoInv
      { s with
        channels := Function.update s.channels d ((s.channels d).retire status (l₁ ++ l₂))
        fate := Function.update s.fate op.thread (some status) } := by
  obtain ⟨j, hj⟩ : ∃ j, (s.channels d).lock = some j := by
    cases hlock : (s.channels d).lock with
    | none => simp [hs.free d hlock] at hop
    | some j => exact ⟨j, rfl⟩
  obtain ⟨rfl, hnew⟩ := (hs.owned d j hj).retire status hop
  have hholds := (hs.owned d _ hj).holds
  refine ⟨?_, ?_, ?_, ?_⟩
  · intro d' hfree
    by_cases hd : d' = d
    · subst hd
      simp [IoChannel.retire, hj] at hfree
    · simp only [Function.update_of_ne hd] at hfree ⊢
      exact hs.free d' hfree
  · intro d' k hk
    by_cases hd : d' = d
    · subst hd
      obtain rfl : op.thread = k := by simpa [IoChannel.retire, hj] using hk
      simpa using hnew
    · simp only [Function.update_of_ne hd] at hk ⊢
      have hne : k ≠ op.thread := by
        rintro rfl
        exact hd ((hs.owned d' _ hk).holds.unique hholds)
      simpa [hne] using hs.owned d' k hk
  · intro k d' hk
    have hlock := hs.held k d' hk
    by_cases hd : d' = d
    · subst hd
      simpa [IoChannel.retire] using hlock
    · simpa [hd] using hlock
  · intro k d' len h hk
    have hne : k ≠ op.thread := by
      rintro rfl
      simp only at hk
      rw [hk] at hholds
      exact hholds.elim
    simpa [hne] using hs.loaded k d' len h hk

end Threads

/-- A port without calls in it stays one. -/
lemma IoInv.sameCalls (hs : IoInv s) (hidle : ∀ i, s.pc i = .idle)
    {s' : OverlappedPort ι Handle} (h : SameCalls s s') : IoInv s' := by
  refine IoInv.of_idle (fun i => by rw [h.pc, hidle]) ?_
  intro d
  rw [(h.channels d).1, (h.channels d).2]
  exact hs.idle hidle d

section Steps

variable [DecidableEq ι] [DecidableEq Handle]

/-- **Every step keeps the invariant.**

**Proof sketch.** A thread goes on only in the channel whose mutex it has, where its operation is
the only one: it leaves the wait for the end of an operation only when the status is there, and then
the system has retired the operation. -/
lemma IoInv.step (hs : IoInv s) {s' : OverlappedPort ι Handle} (hstep : Step s s') : IoInv s' := by
  cases hstep with
  | load i d len h hi hh =>
    exact hs.outside none (by simp [hi, PortPc.Holds]) (by simp [PortPc.Holds]) (by simp) rfl rfl rfl
  | lock i d len h hi hfree => exact hs.lock hi hfree
  | noEvent i d len h hi hevent =>
    refine hs.go (by rw [hi]; rfl) rfl fun hserves => ?_
    rw [hi] at hserves
    obtain ⟨-, hpending, hfate⟩ := hserves
    refine ⟨rfl, hpending, ?_⟩
    rw [hfate]
    exact truthful_failedResult d len
  | prepare i d len h hi hevent =>
    refine hs.go (by rw [hi]; rfl) rfl fun hserves => ?_
    rw [hi] at hserves
    exact hserves
  | prepareNew i d len h event hi hevent hfresh =>
    have hprepared : IoInv (s.act i d { (s.channels d).prepared with event := some event }
        (.issue d len h) (s.fate i)) := by
      refine hs.go (by rw [hi]; rfl) rfl fun hserves => ?_
      rw [hi] at hserves
      exact hserves
    exact ⟨hprepared.free, hprepared.owned, hprepared.held, hprepared.loaded⟩
  | issueDone i d len h n hi hopen hn =>
    refine hs.go (by rw [hi]; rfl) rfl fun hserves => ?_
    rw [hi] at hserves
    exact ⟨rfl, hserves.2.1, truthful_callResult d len (.done n)⟩
  | issueError i d len h code hi hcode =>
    refine hs.go (by rw [hi]; rfl) rfl fun hserves => ?_
    rw [hi] at hserves
    exact ⟨rfl, hserves.2.1, truthful_callResult d len (.error code)⟩
  | issueRead i len h hi hopen =>
    refine hs.go (by rw [hi]; rfl) rfl fun hserves => ?_
    rw [hi] at hserves
    exact ⟨rfl, .inl ⟨h, congrArg _ hserves.2.1, rfl, rfl⟩⟩
  | issueWrite i len h hi hopen =>
    refine hs.go (by rw [hi]; rfl) rfl fun hserves => ?_
    rw [hi] at hserves
    exact ⟨rfl, .inl ⟨h, congrArg _ hserves.2.1, rfl, rfl⟩⟩
  | retire d l₁ l₂ op status hop => exact hs.retire status hop
  | collect i len hi hover =>
    refine hs.go (by rw [hi]; rfl) rfl fun hserves => ?_
    rw [hi] at hserves
    rcases hserves.2 with ⟨h, -, hpending, -⟩ | ⟨hpending, status, hstatus, hfate⟩
    · exact absurd hpending hover
    · refine ⟨rfl, hpending, ?_⟩
      rw [hstatus, hfate]
      exact truthful_callResult .read len status
  | waitSignalled i len hi hsignal =>
    refine hs.go (by rw [hi]; rfl) rfl fun hserves => ?_
    rw [hi] at hserves
    rcases hserves.2 with ⟨h, -, -, hsignal'⟩ | hretired
    · rw [hsignal] at hsignal'
      cases hsignal'
    · exact ⟨rfl, hretired⟩
  | waitOver i len hi | cancel i len hi =>
    refine hs.go (by rw [hi]; rfl) rfl fun hserves => ?_
    rw [hi] at hserves
    exact hserves
  | poll i len hi =>
    refine hs.go (by rw [hi]; rfl) rfl fun hserves => ?_
    rw [hi] at hserves
    obtain ⟨-, hpending, status, hstatus, hfate⟩ := hserves
    refine ⟨rfl, hpending, ?_⟩
    rw [hstatus, hfate]
    exact truthful_callResult .write len status
  | drain i len hi hover =>
    refine hs.go (by rw [hi]; rfl) rfl fun hserves => ?_
    rw [hi] at hserves
    rcases hserves.2 with ⟨h, -, hpending, -⟩ | ⟨hpending, -⟩
    · exact absurd hpending hover
    · exact ⟨rfl, hpending, trivial⟩
  | unlock i d len r hi => exact hs.unlock hi
  | swap i h hi hh =>
    exact hs.outside (s.fate i) (by simp [hi, PortPc.Holds]) (by simp [PortPc.Holds])
      (by simp) rfl rfl (Function.update_eq_self i s.fate).symm
  | cancelAll i h hi =>
    exact hs.outside (s.fate i) (by simp [hi, PortPc.Holds]) (by simp [PortPc.Holds])
      (by simp) rfl rfl (Function.update_eq_self i s.fate).symm
  | closeHandle i h hi =>
    exact hs.outside (s.fate i) (by simp [hi, PortPc.Holds]) (by simp [PortPc.Holds])
      (by simp) rfl rfl (Function.update_eq_self i s.fate).symm
  | reopen o hidle hfresh => exact hs.sameCalls hidle (s.openAlone_sameCalls o)
  | drop hidle => exact hs.sameCalls hidle s.dropAlone_sameCalls
  | otherOpens h hh | otherCloses h hh => exact ⟨hs.free, hs.owned, hs.held, hs.loaded⟩

end Steps

section Results

variable [DecidableEq ι] [DecidableEq Handle]

/-- The invariant holds of a port that is not yet open, and of what comes of it. -/
lemma Reachable.ioInv (h : Reachable s) : IoInv s := by
  obtain ⟨owner, howner, hrun⟩ := h
  induction hrun with
  | refl => exact .of_idle (fun _ => rfl) fun _ => ⟨rfl, rfl⟩
  | tail _ hstep ih => exact ih.step hstep

end Results

end OverlappedPort

section Results

variable [DecidableEq ι] [DecidableEq Handle] {s : OverlappedPort ι Handle}

/-- **No operation outlives its call**, whatever the threads and the system do. An operation that
the system has not retired belongs to a thread that has the mutex of its direction and waits for the
operation inside its call, so that the buffer and the `OVERLAPPED` are there; there is at most one in
each direction; the `OVERLAPPED` is prepared only while no operation uses it; and what a call is about
to return is true of its own operation.

**Proof sketch.** Invariant of the steps (`IoInv.step`): only the thread with the mutex goes on in a
channel, and it leaves the wait for an operation, also one that it has cancelled, only when the
status of the operation is there. -/
theorem no_io_outlives_its_call (h : s.Reachable) (d : IoDir) :
    (∀ op ∈ (s.channels d).pending, (s.channels d).lock = some op.thread ∧
      ∃ len, s.pc op.thread = .collect len ∨ s.pc op.thread = .wait len ∨
        s.pc op.thread = .cancel len ∨ s.pc op.thread = .drain len) ∧
      (s.channels d).pending.length ≤ 1 ∧
      (∀ i len handle, s.pc i = .prepare d len handle → (s.channels d).pending = []) ∧
      ∀ i len r, s.pc i = .done d len r → Truthful (s.fate i) len r := by
  have hio := h.ioInv
  have hserves (i : ι) (hi : (s.pc i).Holds d) :
      (s.channels d).Serves i d (s.fate i) (s.pc i) := hio.owned d i (hio.held i d hi)
  refine ⟨?_, ?_, ?_, ?_⟩
  · intro op hop
    cases hlock : (s.channels d).lock with
    | none => simp [hio.free d hlock] at hop
    | some i =>
      obtain ⟨hthread, hwaits⟩ := (hio.owned d i hlock).of_mem hop
      rw [hthread]
      exact ⟨rfl, hwaits⟩
  · cases hlock : (s.channels d).lock with
    | none => simp [hio.free d hlock]
    | some i => exact (hio.owned d i hlock).length_le
  · intro i len handle hi
    have hi' := hserves i (by rw [hi]; rfl)
    rw [hi] at hi'
    exact hi'.2.1
  · intro i len r hi
    have hi' := hserves i (by rw [hi]; rfl)
    rw [hi] at hi'
    exact hi'.2.2

/-- A write whose time is over, before its operation is cancelled. -/
theorem no_io_outlives_its_call_write :
    ∃ s : OverlappedPort Bool ℕ, s.Reachable ∧ s.pc true = .cancel 4 ∧
      (s.channels .write).pending = [⟨true, 1⟩] ∧ (s.channels .write).lock = some true ∧
      (s.channels .write).pending.length ≤ 1 := by
  have hrun : Relation.ReflTransGen (@OverlappedPort.Step Bool ℕ _ _)
      (OverlappedPort.start fun _ => none) _ :=
    .tail (.tail (.tail (.tail (.tail (.tail .refl
      (.reopen opensAlone (fun _ => rfl) opensAlone_fresh))
      (.load true .write 4 1 rfl rfl))
      (.lock true .write 4 1 rfl rfl))
      (.prepare true .write 4 1 rfl nofun))
      (.issueWrite true 4 1 rfl (by decide)))
      (.waitOver true 4 rfl)
  have hreach : OverlappedPort.Reachable _ := ⟨fun _ => none, by simp, hrun⟩
  have hresult := no_io_outlives_its_call hreach .write
  exact ⟨_, hreach, rfl, rfl, (hresult.1 ⟨true, 1⟩ (List.mem_singleton_self _)).1, hresult.2.1⟩

end Results

end Affine
