import Affine.Lib.Run
import Affine.Lib.Slice
import Affine.Mai2.Device
import Mathlib.Logic.Function.Basic

set_option relaxedAutoImplicit false
set_option autoImplicit false

/-!
# Coins and two clients

`Mai2Runtime::poll` and `Mai2Runtime::get_opbtns` (`affine-mai2/src/lib.rs`). A poll reads the input
pages of the two players and then updates the poll page, which every process that loads the library
shares. Its coin is a pulse: the poll that first sees the coin pressed sets the bit in the page, and
the next poll, of any process, takes it back.

Two processes poll and then ask for the buttons, in any order of their page accesses. Each press of
the coin is reported by exactly one call of `get_opbtns` if and only if exactly one call comes
between the poll that first sees the press and the next poll (`Affine.one_credit_iff`). With two
processes there can be none or two.

## Main definitions

* `Affine.Mai2PollPage`, `Affine.Mai2PollPage.poll` — the page and its update.
* `Affine.CoinSystem`, `Affine.CoinEvent` — two processes, and their page accesses.
* `Affine.CoinSystem.OneCredit` — each press is reported once.
* `Affine.CoinSystem.PulseReadOnce` — the pulse of a press is read once.

## Main results

* `Affine.one_credit_iff`.
* `Affine.one_credit_of_turns` — two processes that take turns report each press once.
-/

namespace Affine

open Slice (Exec)

/-! ## The source -/

def mai2IoOpbtnTest : UInt8 := 0x01
def mai2IoOpbtnService : UInt8 := 0x02
def mai2IoOpbtnCoin : UInt8 := 0x04

/-- `Mai2PollPage`, without its reserved bytes. -/
structure Mai2PollPage where
  opbtn : UInt8
  player1Btn : UInt16
  player2Btn : UInt16
  affineCoin : UInt8
  sequence : UInt64
  deriving DecidableEq

/-- `Mai2PollPage::default`. -/
def Mai2PollPage.default : Mai2PollPage where
  opbtn := 0
  player1Btn := 0
  player2Btn := 0
  affineCoin := 0
  sequence := 0

/-- Whether the keys for test, service and coin are down, when `poll` looks at them. -/
structure Keys where
  test : Bool
  service : Bool
  coin : Bool
  deriving DecidableEq

/-- `map_buttons`. -/
def mapButtons (buttons0 buttons1 : UInt8) : UInt16 :=
  let button (mask : UInt8) (out : UInt16) : UInt16 := if buttons0 &&& mask ≠ 0 then out else 0
  button 0x01 0x01 ||| button 0x02 0x02 ||| button 0x04 0x04 ||| button 0x08 0x08 |||
    button 0x10 0x10 ||| button 0x20 0x20 ||| button 0x40 0x40 ||| button 0x80 0x80 |||
    if buttons1 &&& (1 <<< (0 : UInt8)) ≠ 0 then 0x100 else 0

namespace Mai2InputPage

variable (page : Mai2InputPage)

/-- The source of the page is connected, and the bit of its status is set. -/
def statusBit (bit : UInt8) : Bool := page.connected ≠ 0 ∧ page.ioStatus &&& (1 <<< bit) ≠ 0

/-- What `poll` reads of a player's buttons. -/
def gameButtons : UInt16 :=
  if page.connected ≠ 0 then mapButtons page.buttons0 page.ioStatus else 0

end Mai2InputPage

/-- The coin is pressed, on the hardware of the first player or on the keyboard. -/
def coinPressed (p1 : Mai2InputPage) (keys : Keys) : Bool := p1.statusBit 3 || keys.coin

/-- The page update of `poll`, with the input pages that it has read. -/
def Mai2PollPage.poll (page : Mai2PollPage) (p1 p2 : Mai2InputPage) (keys : Keys) :
    Mai2PollPage :=
  let pressed := coinPressed p1 keys
  let test := if p1.statusBit 1 || p2.statusBit 1 || keys.test then mai2IoOpbtnTest else 0
  let service :=
    if p1.statusBit 2 || p2.statusBit 2 || keys.service then mai2IoOpbtnService else 0
  let coin := if pressed ∧ page.affineCoin = 0 then mai2IoOpbtnCoin else 0
  { opbtn := test ||| service ||| coin
    player1Btn := p1.gameButtons
    player2Btn := p2.gameButtons
    affineCoin := if ¬ pressed then 0 else if page.affineCoin = 0 then 1 else page.affineCoin
    sequence := page.sequence + 1 }

/-- `get_opbtns`. -/
def Mai2PollPage.getOpbtns (page : Mai2PollPage) : UInt8 := page.opbtn

/-! ## Two processes -/

/-- Where a process is: before a poll, behind the first read or behind both reads of a poll, or
behind the update, before it asks for the buttons. -/
inductive ClientPc
  | idle
  | readOne (p1 : Mai2InputPage)
  | readBoth (p1 p2 : Mai2InputPage)
  | polled
  deriving DecidableEq

/-- The shared pages and the two processes. The other fields are the history that the credits are
counted by: for each press so far, the latest first, how many calls of `get_opbtns` have reported
it; whether the latest poll saw the coin pressed, and whether it was the first to see this press;
and the number of calls of `get_opbtns` since that poll. -/
structure CoinSystem where
  inputPages : Fin 2 → Mai2InputPage
  pollPage : Mai2PollPage
  clients : Fin 2 → ClientPc
  presses : List ℕ
  seen : Bool
  fresh : Bool
  gets : ℕ

/-- A thread of a player writes the input page, or a process accesses a page. -/
inductive CoinEvent
  | input (player : Fin 2) (page : Mai2InputPage)
  | readP1 (client : Fin 2)
  | readP2 (client : Fin 2)
  | update (client : Fin 2) (keys : Keys)
  | getOpbtns (client : Fin 2)

namespace CoinSystem

/-- Two processes on a fresh poll page. -/
def init (inputPages : Fin 2 → Mai2InputPage) : CoinSystem where
  inputPages := inputPages
  pollPage := .default
  clients := fun _ => .idle
  presses := []
  seen := false
  fresh := false
  gets := 0

/-- A process goes on. -/
def setClient (s : CoinSystem) (client : Fin 2) (pc : ClientPc) : CoinSystem :=
  { s with clients := Function.update s.clients client pc }

/-- The update of the poll page, with the press that it begins. -/
def poll (s : CoinSystem) (p1 p2 : Mai2InputPage) (keys : Keys) : CoinSystem :=
  let pressed := coinPressed p1 keys
  let begins := pressed && !s.seen
  { s with
    pollPage := s.pollPage.poll p1 p2 keys
    presses := if begins then 0 :: s.presses else s.presses
    seen := pressed
    fresh := begins
    gets := 0 }

/-- A call reports the latest press. -/
def report : List ℕ → List ℕ
  | [] => []
  | n :: ns => (n + 1) :: ns

/-- A call of `get_opbtns`, which reports a press if the coin bit is set. -/
def get (s : CoinSystem) : CoinSystem :=
  { s with
    presses := if s.pollPage.getOpbtns &&& mai2IoOpbtnCoin ≠ 0 then report s.presses else s.presses
    gets := s.gets + 1 }

/-- The state after an event. A process that is elsewhere does nothing. -/
def next (s : CoinSystem) : CoinEvent → CoinSystem
  | .input player page => { s with inputPages := Function.update s.inputPages player page }
  | .readP1 i =>
    match s.clients i with
    | .idle => s.setClient i (.readOne (s.inputPages ⟨0, Nat.zero_lt_two⟩))
    | _ => s
  | .readP2 i =>
    match s.clients i with
    | .readOne p1 => s.setClient i (.readBoth p1 (s.inputPages ⟨1, Nat.one_lt_two⟩))
    | _ => s
  | .update i keys =>
    match s.clients i with
    | .readBoth p1 p2 => (s.poll p1 p2 keys).setClient i .polled
    | _ => s
  | .getOpbtns i =>
    match s.clients i with
    | .polled => s.get.setClient i .idle
    | _ => s

/-- An event as a step of a run. -/
def step (e : CoinEvent) (s : CoinSystem) : Exec CoinSystem := .ok (s.next e)

/-- **One credit for each press**: every press has been reported exactly once. Only the press that
the latest poll was the first to see may still be reported, and it has been as soon as no process
is between its poll and its call of `get_opbtns`. -/
def OneCredit (s : CoinSystem) : Prop :=
  match s.fresh, s.presses with
  | true, n :: ns => n ≤ 1 ∧ ((∀ i, s.clients i ≠ .polled) → n = 1) ∧ ∀ m ∈ ns, m = 1
  | _, ns => ∀ m ∈ ns, m = 1

/-- The pulse of a press is read once: if the latest poll was the first to see a press, then a poll
comes behind one call of `get_opbtns`, and no second call comes before it. -/
def PulseReadOnce (s : CoinSystem) (e : CoinEvent) : Prop :=
  s.fresh = true →
    match e with
    | .update i _ => (∃ p1 p2, s.clients i = .readBoth p1 p2) → s.gets = 1
    | .getOpbtns i => s.clients i = .polled → s.gets = 0
    | _ => True

/-- The page agrees with the history: the stored coin is what the latest poll saw, the coin bit is
set exactly if it was the first to see its press, and then every call since has reported that
press. A process that has not asked since then is still to ask. -/
structure Inv (s : CoinSystem) : Prop where
  coin : s.pollPage.affineCoin ≠ 0 ↔ s.seen = true
  bit : s.pollPage.getOpbtns &&& mai2IoOpbtnCoin ≠ 0 ↔ s.fresh = true
  fresh_seen : s.fresh = true → s.seen = true
  reports : s.fresh = true → ∃ ns, s.presses = s.gets :: ns
  waiting : s.fresh = true → s.gets = 0 → ∃ i, s.clients i = .polled

end CoinSystem

/-- The page update sets the coin bit exactly if it is the first to see the coin pressed. -/
lemma Mai2PollPage.poll_coinBit (page : Mai2PollPage) (p1 p2 : Mai2InputPage) (keys : Keys) :
    (page.poll p1 p2 keys).getOpbtns &&& mai2IoOpbtnCoin ≠ 0 ↔
      coinPressed p1 keys = true ∧ page.affineCoin = 0 := by
  simp only [poll, getOpbtns]
  by_cases htest : (p1.statusBit 1 || p2.statusBit 1 || keys.test) = true <;>
    by_cases hservice : (p1.statusBit 2 || p2.statusBit 2 || keys.service) = true <;>
    by_cases hcoin : coinPressed p1 keys = true ∧ page.affineCoin = 0 <;>
    simp only [htest, hservice, hcoin, if_true, if_false, iff_false] <;> decide

/-- The page update stores whether the coin is pressed. -/
lemma Mai2PollPage.poll_affineCoin (page : Mai2PollPage) (p1 p2 : Mai2InputPage) (keys : Keys) :
    (page.poll p1 p2 keys).affineCoin ≠ 0 ↔ coinPressed p1 keys = true := by
  simp only [poll]
  cases coinPressed p1 keys <;> by_cases hzero : page.affineCoin = 0 <;> simp [hzero]

namespace CoinSystem

variable {s : CoinSystem}

/-! ### The steps -/

/-- While the latest poll is the first that has seen its press, this press may still be reported. -/
lemma oneCredit_of_fresh {n : ℕ} {ns : List ℕ} (hfresh : s.fresh = true)
    (hpresses : s.presses = n :: ns) :
    s.OneCredit ↔ n ≤ 1 ∧ ((∀ i, s.clients i ≠ .polled) → n = 1) ∧ ∀ m ∈ ns, m = 1 := by
  rw [OneCredit, hfresh, hpresses]

/-- Otherwise every press has been reported once. -/
lemma oneCredit_of_not_fresh (hfresh : s.fresh = false) :
    s.OneCredit ↔ ∀ m ∈ s.presses, m = 1 := by
  rw [OneCredit, hfresh]

section Read

variable {i : Fin 2} {pc : ClientPc}

/-- A read of an input page leaves open which processes are behind their polls. -/
lemma polled_setClient (hold : s.clients i ≠ .polled) (hnew : pc ≠ .polled) (j : Fin 2) :
    (s.setClient i pc).clients j = .polled ↔ s.clients j = .polled := by
  rcases eq_or_ne j i with rfl | hne
  · simp only [setClient, Function.update_self]
    exact iff_of_false hnew hold
  · simp only [setClient, Function.update_of_ne hne]

/-- A process that reads the page keeps the invariant, if it was not between its poll and its
call. -/
lemma Inv.read (hinv : s.Inv) (hold : s.clients i ≠ .polled) (hnew : pc ≠ .polled) :
    (s.setClient i pc).Inv := by
  refine ⟨hinv.coin, hinv.bit, hinv.fresh_seen, hinv.reports, fun hfresh hgets => ?_⟩
  obtain ⟨j, hj⟩ := hinv.waiting hfresh hgets
  exact ⟨j, (polled_setClient hold hnew j).mpr hj⟩

/-- A process that reads the page reports no press. -/
lemma OneCredit.read (hone : s.OneCredit) (hinv : s.Inv) (hold : s.clients i ≠ .polled)
    (hnew : pc ≠ .polled) : (s.setClient i pc).OneCredit := by
  cases hfresh : s.fresh with
  | false =>
    rw [oneCredit_of_not_fresh hfresh] at hone
    rwa [oneCredit_of_not_fresh (s := s.setClient i pc) hfresh]
  | true =>
    obtain ⟨ns, hpresses⟩ := hinv.reports hfresh
    rw [oneCredit_of_fresh hfresh hpresses] at hone
    rw [oneCredit_of_fresh (s := s.setClient i pc) hfresh hpresses]
    simpa only [ne_eq, polled_setClient hold hnew] using hone

end Read

/-- A poll makes the page agree with the new history. -/
lemma Inv.update (hinv : s.Inv) (i : Fin 2) (p1 p2 : Mai2InputPage) (keys : Keys) :
    ((s.poll p1 p2 keys).setClient i .polled).Inv := by
  have hbegins : (coinPressed p1 keys && !s.seen) = true ↔
      coinPressed p1 keys = true ∧ s.pollPage.affineCoin = 0 := by
    have hcoin := hinv.coin
    cases hseen : s.seen <;> simp_all
  refine ⟨s.pollPage.poll_affineCoin p1 p2 keys, ?_, ?_, ?_, ?_⟩
  · exact (s.pollPage.poll_coinBit p1 p2 keys).trans hbegins.symm
  · exact fun h => (Bool.and_eq_true_iff.mp h).1
  · intro h
    refine ⟨s.presses, ?_⟩
    simp only [setClient, poll, show (coinPressed p1 keys && !s.seen) = true from h, if_true]
  · exact fun _ _ => ⟨i, Function.update_self ..⟩

/-- What a poll finds: every press but the one that the poll before was the first to see has been
reported once. -/
lemma OneCredit.earlier (hone : s.OneCredit) (hinv : s.Inv) :
    (∀ m ∈ s.presses, m = 1) ↔ (s.fresh = true → s.gets = 1) := by
  cases hfresh : s.fresh with
  | false => exact iff_of_true ((oneCredit_of_not_fresh hfresh).mp hone) nofun
  | true =>
    obtain ⟨ns, hpresses⟩ := hinv.reports hfresh
    obtain ⟨-, -, hns⟩ := (oneCredit_of_fresh hfresh hpresses).mp hone
    rw [hpresses, List.forall_mem_cons, and_iff_left hns]
    exact ⟨fun h _ => h, fun h => h rfl⟩

/-- After a poll each press has been reported once, exactly if the pulse of the poll before was
read once.

**Proof sketch.** The cases are whether the poll begins a press. A press that was begun by the poll
before is final then. -/
lemma oneCredit_update_iff (hinv : s.Inv) (hone : s.OneCredit) (i : Fin 2)
    (p1 p2 : Mai2InputPage) (keys : Keys) :
    ((s.poll p1 p2 keys).setClient i .polled).OneCredit ↔ (s.fresh = true → s.gets = 1) := by
  rw [← hone.earlier hinv]
  generalize hu : (s.poll p1 p2 keys).setClient i .polled = u
  have hpolled : ¬ ∀ j, u.clients j ≠ .polled := by
    subst hu
    exact fun h => h i (Function.update_self ..)
  cases hbegins : (coinPressed p1 keys && !s.seen) with
  | false =>
    have hfresh : u.fresh = false := hu ▸ hbegins
    have hpresses : u.presses = s.presses := by
      subst hu
      simp only [setClient, poll, hbegins, Bool.false_eq_true, if_false]
    rw [oneCredit_of_not_fresh hfresh, hpresses]
  | true =>
    have hfresh : u.fresh = true := hu ▸ hbegins
    have hpresses : u.presses = 0 :: s.presses := by
      subst hu
      simp only [setClient, poll, hbegins, if_true]
    rw [oneCredit_of_fresh hfresh hpresses]
    exact ⟨fun h => h.2.2, fun h => ⟨Nat.zero_le 1, fun hidle => absurd hidle hpolled, h⟩⟩

/-- The presses behind a call of `get_opbtns`. -/
lemma presses_get (hinv : s.Inv) :
    s.get.presses = if s.fresh = true then report s.presses else s.presses :=
  if_congr hinv.bit rfl rfl

/-- A call of `get_opbtns` keeps the page in agreement with the history. -/
lemma Inv.get (hinv : s.Inv) (i : Fin 2) : (s.get.setClient i .idle).Inv := by
  refine ⟨hinv.coin, hinv.bit, hinv.fresh_seen, fun hfresh => ?_, nofun⟩
  have hs : s.fresh = true := hfresh
  obtain ⟨ns, hpresses⟩ := hinv.reports hs
  refine ⟨ns, ?_⟩
  change s.get.presses = (s.gets + 1) :: ns
  rw [presses_get hinv, if_pos hs, hpresses, report]

/-- After a call of `get_opbtns` each press has been reported once, exactly if it is not the second
one to read a pulse. -/
lemma oneCredit_get_iff (hinv : s.Inv) (hone : s.OneCredit) (i : Fin 2) :
    (s.get.setClient i .idle).OneCredit ↔ (s.fresh = true → s.gets = 0) := by
  have hget := presses_get hinv
  cases hfresh : s.fresh with
  | false =>
    rw [hfresh, if_neg Bool.false_ne_true] at hget
    rw [oneCredit_of_not_fresh (s := s.get.setClient i .idle) hfresh]
    exact iff_of_true (fun m hm => (oneCredit_of_not_fresh hfresh).mp hone m (hget ▸ hm)) nofun
  | true =>
    obtain ⟨ns, hpresses⟩ := hinv.reports hfresh
    obtain ⟨-, -, hns⟩ := (oneCredit_of_fresh hfresh hpresses).mp hone
    rw [hfresh, if_pos rfl, hpresses, report] at hget
    rw [oneCredit_of_fresh (s := s.get.setClient i .idle) hfresh hget]
    constructor
    · rintro ⟨hle, -⟩ -
      omega
    · intro hzero
      have hgets := hzero rfl
      exact ⟨by omega, fun _ => by omega, hns⟩

/-- An event keeps the page in agreement with the history.

**Proof sketch.** The cases are the events, each with its own lemma above. -/
lemma Inv.next (hinv : s.Inv) (e : CoinEvent) : (s.next e).Inv := by
  cases e with
  | input player page => exact ⟨hinv.coin, hinv.bit, hinv.fresh_seen, hinv.reports, hinv.waiting⟩
  | readP1 i =>
    simp only [CoinSystem.next]
    split
    · next hpc => exact hinv.read (by rw [hpc]; nofun) nofun
    · exact hinv
  | readP2 i =>
    simp only [CoinSystem.next]
    split
    · next hpc => exact hinv.read (by rw [hpc]; nofun) nofun
    · exact hinv
  | update i keys =>
    simp only [CoinSystem.next]
    split
    · exact hinv.update i _ _ keys
    · exact hinv
  | getOpbtns i =>
    simp only [CoinSystem.next]
    split
    · exact hinv.get i
    · exact hinv

/-- **What an event does to the credits**: each press is still reported once, exactly if the event
neither takes back a pulse that was not read, nor reads one again.

**Proof sketch.** The cases are the events. A poll and a call are `oneCredit_update_iff` and
`oneCredit_get_iff`, and the other events report nothing and see nothing. -/
theorem oneCredit_next_iff (hinv : s.Inv) (hone : s.OneCredit) (e : CoinEvent) :
    (s.next e).OneCredit ↔ s.PulseReadOnce e := by
  cases e with
  | input player page => exact iff_of_true hone fun _ => trivial
  | readP1 i =>
    refine iff_of_true ?_ fun _ => trivial
    simp only [CoinSystem.next]
    split
    · next hpc => exact hone.read hinv (by rw [hpc]; nofun) nofun
    · exact hone
  | readP2 i =>
    refine iff_of_true ?_ fun _ => trivial
    simp only [CoinSystem.next]
    split
    · next hpc => exact hone.read hinv (by rw [hpc]; nofun) nofun
    · exact hone
  | update i keys =>
    simp only [CoinSystem.next, PulseReadOnce]
    split
    · next p1 p2 hpc =>
      rw [oneCredit_update_iff hinv hone]
      simp [hpc]
    · next hpc =>
      refine iff_of_true hone fun _ ⟨p1, p2, h⟩ => ?_
      exact absurd h (hpc p1 p2)
  | getOpbtns i =>
    simp only [CoinSystem.next, PulseReadOnce]
    split
    · next hpc =>
      rw [oneCredit_get_iff hinv hone]
      simp [hpc]
    · next hpc => exact iff_of_true hone fun _ h => absurd h hpc

/-- A fresh poll page agrees with the history, in which nothing has happened. -/
lemma inv_init (inputPages : Fin 2 → Mai2InputPage) : (init inputPages).Inv := by
  have hbit : (0 : UInt8) &&& mai2IoOpbtnCoin = 0 := by decide
  exact ⟨iff_of_false (fun h => h rfl) nofun, iff_of_false (fun h => h hbit) nofun, nofun, nofun,
    nofun⟩

end CoinSystem

/-- **When each press of the coin is one credit**: along a run of two processes each press is
reported exactly once if and only if exactly one call of `get_opbtns` comes between the poll that
first sees the press and the next poll.

**Proof sketch.** `CoinSystem.oneCredit_next_iff` for each event. As long as no other poll comes,
every call reports the press (`CoinSystem.Inv`). -/
theorem one_credit_iff (inputPages : Fin 2 → Mai2InputPage) (es : List CoinEvent) :
    Run.Always CoinSystem.step (.init inputPages) es CoinSystem.OneCredit ↔
      Run.EachStep CoinSystem.step (.init inputPages) es CoinSystem.PulseReadOnce := by
  refine Run.always_iff (I := CoinSystem.Inv) (CoinSystem.inv_init inputPages) ?_ ?_ ?_
  · intro e s t hinv ht
    obtain rfl := Except.ok.inj ht
    exact hinv.next e
  · exact fun m hm => absurd hm List.not_mem_nil
  · intro e s t hinv hone ht
    obtain rfl := Except.ok.inj ht
    exact CoinSystem.oneCredit_next_iff hinv hone e

/-- The first process. -/
def clientA : Fin 2 := ⟨0, Nat.zero_lt_two⟩

/-- The second process. -/
def clientB : Fin 2 := ⟨1, Nat.one_lt_two⟩

/-- The accesses of a poll, with the coin key down or up. -/
def pollSteps (client : Fin 2) (coin : Bool) : List CoinEvent :=
  [.readP1 client, .readP2 client, .update client ⟨false, false, coin⟩]

/-- Both processes see the press, and the second poll takes back the pulse before anyone asks. -/
def lostCoin : List CoinEvent :=
  pollSteps clientA true ++ pollSteps clientB true ++ [.getOpbtns clientA, .getOpbtns clientB]

/-- A process that has polled before the press asks for the buttons behind it, as does the process
that saw the press first. -/
def doubledCoin : List CoinEvent :=
  pollSteps clientB false ++ pollSteps clientA true ++ [.getOpbtns clientA, .getOpbtns clientB]

/-- A press is lost, or reported twice, although both processes have asked for the buttons. -/
theorem coin_lost_or_doubled :
    ¬ Run.Always CoinSystem.step (.init fun _ => .default) lostCoin CoinSystem.OneCredit ∧
      ¬ Run.Always CoinSystem.step (.init fun _ => .default) doubledCoin CoinSystem.OneCredit := by
  constructor
  · intro h
    obtain ⟨t, ht, hfresh, hpresses⟩ : ∃ t, Run.exec CoinSystem.step (.init fun _ => .default)
        lostCoin = .ok t ∧ t.fresh = false ∧ t.presses = [0] := ⟨_, rfl, rfl, rfl⟩
    have hone := h lostCoin t (List.prefix_refl _) ht
    rw [CoinSystem.oneCredit_of_not_fresh hfresh, hpresses] at hone
    exact absurd (hone 0 List.mem_cons_self) (by decide)
  · intro h
    obtain ⟨t, ht, hfresh, hpresses⟩ : ∃ t, Run.exec CoinSystem.step (.init fun _ => .default)
        doubledCoin = .ok t ∧ t.fresh = true ∧ t.presses = [2] := ⟨_, rfl, rfl, rfl⟩
    have hone := h doubledCoin t (List.prefix_refl _) ht
    rw [CoinSystem.oneCredit_of_fresh hfresh hpresses] at hone
    exact absurd hone.1 (by decide)

/-! ## Clients that take turns -/

namespace CoinSystem

variable {s : CoinSystem}

/-- No process polls while another one is between its poll and its call of `get_opbtns`. -/
def TakesTurns (s : CoinSystem) (e : CoinEvent) : Prop :=
  ∀ i keys, e = .update i keys → ∀ j, s.clients j ≠ .polled

/-- At most one process is between its poll and its call, and none if a call has come since the
latest poll. -/
structure Turn (s : CoinSystem) : Prop where
  one : ∀ i j, s.clients i = .polled → s.clients j = .polled → i = j
  none : s.gets ≠ 0 → ∀ i, s.clients i ≠ .polled

/-- A process that reads the page keeps the order of the polls and the calls. -/
lemma Turn.read {i : Fin 2} {pc : ClientPc} (hturn : s.Turn) (hold : s.clients i ≠ .polled)
    (hnew : pc ≠ .polled) : (s.setClient i pc).Turn := by
  have hpolled := polled_setClient hold hnew
  refine ⟨fun j k hj hk => hturn.one j k ((hpolled j).mp hj) ((hpolled k).mp hk),
    fun hgets j hj => hturn.none hgets j ((hpolled j).mp hj)⟩

/-- Processes that take turns keep the turn.

**Proof sketch.** A process polls only when none is between its poll and its call, and behind the
call none is. -/
lemma Turn.next (hturn : s.Turn) {e : CoinEvent} (he : s.TakesTurns e) : (s.next e).Turn := by
  cases e with
  | input player page => exact ⟨hturn.one, hturn.none⟩
  | readP1 i =>
    simp only [CoinSystem.next]
    split
    · next hpc => exact hturn.read (by rw [hpc]; nofun) nofun
    · exact hturn
  | readP2 i =>
    simp only [CoinSystem.next]
    split
    · next hpc => exact hturn.read (by rw [hpc]; nofun) nofun
    · exact hturn
  | update i keys =>
    simp only [CoinSystem.next]
    split
    · next p1 p2 hpc =>
      have honly : ∀ j, ((s.poll p1 p2 keys).setClient i .polled).clients j = .polled → j = i := by
        intro j hj
        by_contra hne
        simp only [setClient, Function.update_of_ne hne] at hj
        exact he i keys rfl j hj
      exact ⟨fun j k hj hk => (honly j hj).trans (honly k hk).symm, fun h => absurd rfl h⟩
    · exact hturn
  | getOpbtns i =>
    simp only [CoinSystem.next]
    split
    · next hpc =>
      have hnone : ∀ j, (s.get.setClient i .idle).clients j ≠ .polled := by
        intro j hj
        rcases eq_or_ne j i with rfl | hne
        · simp only [setClient, Function.update_self] at hj
          cases hj
        · simp only [setClient, Function.update_of_ne hne] at hj
          exact hne (hturn.one j i hj hpc)
      exact ⟨fun j k hj => absurd hj (hnone j), fun _ => hnone⟩
    · exact hturn

/-- With processes that take turns every pulse is read once: a poll comes behind the call for the
poll before, and there is no other process to make a second call.

**Proof sketch.** The cases are the events: only a poll and a call look at the pulse, and with turns
they alternate. -/
lemma Turn.pulseReadOnce (hturn : s.Turn) (hinv : s.Inv) (hone : s.OneCredit) {e : CoinEvent}
    (he : s.TakesTurns e) : s.PulseReadOnce e := by
  intro hfresh
  obtain ⟨ns, hpresses⟩ := hinv.reports hfresh
  have hle := ((oneCredit_of_fresh hfresh hpresses).mp hone).1
  cases e with
  | input player page => trivial
  | readP1 i => trivial
  | readP2 i => trivial
  | update i keys =>
    intro _
    have hread : s.gets ≠ 0 := by
      intro hzero
      obtain ⟨j, hj⟩ := hinv.waiting hfresh hzero
      exact he i keys rfl j hj
    omega
  | getOpbtns i =>
    intro hpolled
    by_contra hgets
    exact hturn.none hgets i hpolled

end CoinSystem

/-- **Clients that take turns lose no credit**: if no process polls while another one is between
its poll and its call of `get_opbtns`, then each press is reported exactly once.

**Proof sketch.** At most one process is between its poll and its call (`CoinSystem.Turn`), so the
call for each poll comes before the next poll, and no other one does. -/
theorem one_credit_of_turns (inputPages : Fin 2 → Mai2InputPage) {es : List CoinEvent}
    (h : Run.EachStep CoinSystem.step (.init inputPages) es CoinSystem.TakesTurns) :
    Run.Always CoinSystem.step (.init inputPages) es CoinSystem.OneCredit := by
  have hall : Run.Always CoinSystem.step (.init inputPages) es
      fun s => s.Inv ∧ s.Turn ∧ s.OneCredit := by
    refine Run.always_of_eachStep ⟨CoinSystem.inv_init inputPages, ?_, ?_⟩ ?_ h
    · exact ⟨nofun, fun h => absurd rfl h⟩
    · exact fun m hm => absurd hm List.not_mem_nil
    · rintro e s t ⟨hinv, hturn, hone⟩ he ht
      obtain rfl := Except.ok.inj ht
      exact ⟨hinv.next e, hturn.next he,
        (CoinSystem.oneCredit_next_iff hinv hone e).mpr (hturn.pulseReadOnce hinv hone he)⟩
  exact fun pre s hpre hs => (hall pre s hpre hs).2.2

end Affine
