import Affine.Lib.Mealy
import Affine.Lib.Pulse
import Affine.Mai2.Coin

set_option relaxedAutoImplicit false
set_option autoImplicit false

/-!
# The coin of a single client

`Mai2Runtime::poll` (`affine-mai2/src/lib.rs`) as the only writer of the poll page. The coin of a
page is a rising edge of the coin input, on the hardware or on the keyboard, so a press has one
pulse however the two overlap (`Affine.coin_pulse_per_press`).

## Main definitions

* `Affine.PollInput`, `Affine.pollStep` — what a poll finds, and a poll.
* `Affine.Mai2PollPage.coinBit` — the page publishes the coin.

## Main results

* `Affine.coin_pulse_per_press`.
-/

namespace Affine

/-- What a poll finds: the input pages of the players, and the keys. -/
structure PollInput where
  p1 : Mai2InputPage
  p2 : Mai2InputPage
  keys : Keys
  deriving DecidableEq

/-- The coin is pressed at the poll. -/
def PollInput.pressed (x : PollInput) : Bool := coinPressed x.p1 x.keys

/-- A poll, which leaves its page in the mapping. -/
def pollStep (page : Mai2PollPage) (x : PollInput) : Mai2PollPage × Mai2PollPage :=
  (page.poll x.p1 x.p2 x.keys, page.poll x.p1 x.p2 x.keys)

namespace Mai2PollPage

/-- The page publishes the coin. -/
def coinBit (page : Mai2PollPage) : Bool := page.getOpbtns &&& mai2IoOpbtnCoin ≠ 0

/-- The stored coin says whether the coin is pressed. -/
def StoresCoin (page : Mai2PollPage) (pressed : Bool) : Prop :=
  page.affineCoin = if pressed then 1 else 0

variable {page : Mai2PollPage} {prev : Bool}

/-- A poll stores what it sees. -/
lemma StoresCoin.poll (h : page.StoresCoin prev) (x : PollInput) :
    (page.poll x.p1 x.p2 x.keys).StoresCoin x.pressed := by
  unfold StoresCoin at h ⊢
  simp only [Mai2PollPage.poll, PollInput.pressed]
  by_cases hpressed : coinPressed x.p1 x.keys = true
  · cases prev <;> simp [hpressed, h]
  · simp [hpressed]

/-- A poll publishes the coin if it is pressed and was not at the poll before. -/
lemma StoresCoin.coinBit_poll (h : page.StoresCoin prev) (x : PollInput) :
    (page.poll x.p1 x.p2 x.keys).coinBit = (x.pressed && !prev) := by
  have hzero : page.affineCoin = 0 ↔ prev = false := by
    rw [h]
    cases prev <;> decide
  have hbit := page.poll_coinBit x.p1 x.p2 x.keys
  rw [hzero] at hbit
  rw [Bool.eq_iff_iff, coinBit, decide_eq_true_eq, hbit]
  simp [PollInput.pressed]

end Mai2PollPage

open Mai2PollPage

/-- The pages of a run publish the rising edges of the coin input, and store the input. -/
lemma run_pollStep {page : Mai2PollPage} {prev : Bool} (h : page.StoresCoin prev)
    (polls : List PollInput) :
    (Mealy.run pollStep page polls).2.map coinBit =
        Pulse.rising prev (polls.map PollInput.pressed) ∧
      List.Forall₂ StoresCoin (Mealy.run pollStep page polls).2 (polls.map PollInput.pressed) := by
  induction polls generalizing page prev with
  | nil => exact ⟨rfl, .nil⟩
  | cons x polls ih =>
    obtain ⟨hbits, hstored⟩ := ih (h.poll x)
    rw [Mealy.run_cons, List.map_cons, List.map_cons, Pulse.rising]
    refine ⟨?_, .cons (h.poll x) hstored⟩
    rw [← hbits, ← h.coinBit_poll x]
    rfl

/-- **The coin is one pulse for each press**: in any sequence of polls by one client, from a page
whose stored coin is zero, a poll publishes the coin exactly if the coin is pressed at this poll and
was not at the one before, and the stored coin says whether it was pressed. So there are as many
polls with the coin as maximal intervals in which it is pressed.

**Proof sketch.** The stored coin is what the poll before saw (`run_pollStep`), so the coin bits are
the rising edges of the input, and each maximal interval begins with one (`Pulse.count_rising`). -/
theorem coin_pulse_per_press (page : Mai2PollPage) (hcoin : page.affineCoin = 0)
    (polls : List PollInput) :
    let pages := (Mealy.run pollStep page polls).2
    let pressed := polls.map PollInput.pressed
    pages.length = polls.length ∧
      (∀ k p, pages[k]? = some p →
        (p.coinBit = true ↔ pressed.getD k false = true ∧ Pulse.before false pressed k = false) ∧
          p.affineCoin = if pressed.getD k false then 1 else 0) ∧
      pages.countP coinBit = (Pulse.intervals pressed).card := by
  intro pages pressed
  have hstart : page.StoresCoin false := hcoin
  obtain ⟨hbits, hstored⟩ := run_pollStep hstart polls
  refine ⟨Mealy.length_run _ _ _, ?_, ?_⟩
  · intro k p hp
    constructor
    · have hbit : (pages.map coinBit).getD k false = p.coinBit := by
        simp [List.getD_eq_getElem?_getD, hp]
      rw [← hbit, show pages.map coinBit = Pulse.rising false pressed from hbits,
        Pulse.getD_rising]
      simp
    · obtain ⟨hk, hget⟩ := List.getElem?_eq_some_iff.mp hp
      have hk' : k < pressed.length := hstored.length_eq ▸ hk
      have := (List.forall₂_iff_get.mp hstored).2 k hk hk'
      rw [List.getD_eq_getElem _ _ hk', ← hget]
      exact this
  · rw [← Pulse.count_rising, ← show pages.map coinBit = Pulse.rising false pressed from hbits,
      List.count_eq_countP, List.countP_map]
    congr 1
    funext p
    simp

/-- The coin goes over from the hardware to the keyboard without a gap, and is pressed again after a
poll without it. -/
theorem coin_pulse_per_press_handover :
    let on : PollInput := ⟨{ Mai2InputPage.default with ioStatus := 8, connected := 1 }, .default,
      ⟨false, false, false⟩⟩
    let key : PollInput := ⟨.default, .default, ⟨false, false, true⟩⟩
    let off : PollInput := ⟨.default, .default, ⟨false, false, false⟩⟩
    (Mealy.run pollStep .default [on, key, off, key]).2.countP coinBit = 2 := by
  intro on key off
  refine (coin_pulse_per_press .default rfl [on, key, off, key]).2.2.trans ?_
  decide

end Affine
