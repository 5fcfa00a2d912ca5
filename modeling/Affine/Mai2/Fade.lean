import Affine.Lib.Log
import Affine.Mai2.Led

set_option relaxedAutoImplicit false
set_option autoImplicit false

/-!
# Fades of the buttons

A call of `led_gs_update` fades each LED of a board from a start colour to a target. The start is
the latched colour unless the speed is zero, and the latch holds the targets of the last call. Over
any sequence of calls, the latch is therefore the target of the previous accepted call, and agrees
with the targets in the page (`Affine.GsHistory`). If the new payload is the one in the page, then
each LED already has its target, so nothing is lost when the page is left as it is.

## Main definitions

* `Affine.GsCall`, `Affine.Mai2Runtime.gsRun` — the calls, one after the other.
* `Affine.GsUpdated` — what an accepted call does, given the one before it.

## Main results

* `Affine.gsHistory_gsRun` — what the calls leave in the latch and in the page.
* `Affine.led_gs_update_history`.
-/

namespace Affine

/-- A call of `led_gs_update`. -/
structure GsCall where
  board : UInt8
  rgb : List UInt8

/-- A byte of the argument. -/
def GsCall.byte (call : GsCall) (k : ℕ) : UInt8 := call.rgb.getD k 0

/-- The call is accepted for a board. -/
def GsCall.acceptedOn (board : Fin 2) (call : GsCall) : Bool :=
  call.board.toNat = board ∧ 32 ≤ call.rgb.length

/-- A byte of an array. -/
def byteAt {n : ℕ} (v : List.Vector UInt8 n) (k : ℕ) : UInt8 := v.toList.getD k 0

namespace Mai2Runtime

/-- A runtime on fresh pages. -/
def fresh (enabled : Fin 2 → Bool) : Mai2Runtime where
  devices player := .new (enabled player)
  ledStartLatch := fun _ => List.Vector.replicate 24 0

/-- The calls one after the other. -/
def gsRun (rt : Mai2Runtime) (calls : List GsCall) : Mai2Runtime :=
  calls.foldl (fun rt call => rt.ledGsUpdate call.board call.rgb) rt

/-- The output page of a board. -/
def page (rt : Mai2Runtime) (board : Fin 2) : Mai2OutputPage := (rt.devices board).outputPage

/-- The last call is carried out on what the others leave. -/
lemma gsRun_concat (rt : Mai2Runtime) (calls : List GsCall) (call : GsCall) :
    rt.gsRun (calls ++ [call]) = (rt.gsRun calls).ledGsUpdate call.board call.rgb := by
  simp [gsRun]

end Mai2Runtime

/-- **What an accepted call does** to its board, when the accepted call before it on this board was
`prev`, if there was one. The LED `i` takes the bytes from `4 * i` on of the argument, and the bytes
from `7 * i` on of the page. -/
structure GsUpdated (rt rt' : Mai2Runtime) (board : Fin 2) (call : GsCall)
    (prev : Option GsCall) : Prop where
  /-- The page holds the payload that the call has built. -/
  payload : ∃ rgbs : List.Vector UInt8 32, rgbs.toList = call.rgb.take 32 ∧
    (rt'.page board).buttons = (rt.ledGsLatch board rgbs).1
  target : ∀ i < 8, ∀ j < 3,
    byteAt (rt'.page board).buttons (i * 7 + 3 + j) = call.byte (i * 4 + j)
  speed : ∀ i < 8, byteAt (rt'.page board).buttons (i * 7 + 6) = call.byte (i * 4 + 3)
  start : ∀ i < 8, ∀ j < 3, byteAt (rt'.page board).buttons (i * 7 + j) =
    if call.byte (i * 4 + 3) = 0 then call.byte (i * 4 + j)
    else (prev.map fun before => before.byte (i * 4 + j)).getD 0
  colours : (buttonRgbPayload (rt'.page board).buttons).toList =
    (List.range 24).map fun k => call.byte (k / 3 * 4 + k % 3)
  sequence : (rt'.page board).buttonsSequence = (rt.page board).buttonsSequence +
    if (rt'.page board).buttons = (rt.page board).buttons then 0 else 1
  /-- If the sequence number stays, then each LED already has its target. -/
  suppressed : (rt'.page board).buttonsSequence = (rt.page board).buttonsSequence →
    ∀ i < 8, ∀ j < 3, byteAt (rt'.page board).buttons (i * 7 + j) =
      byteAt (rt'.page board).buttons (i * 7 + 3 + j)

/-- The latch of a board and the targets in its page, after calls of which `prev` is the last that
was accepted for it: both are the targets of that call, or black. -/
structure GsHistory (rt : Mai2Runtime) (board : Fin 2) (prev : Option GsCall) : Prop where
  latch : ∀ i < 8, ∀ j < 3, byteAt (rt.ledStartLatch board) (i * 3 + j) =
    (prev.map fun before => before.byte (i * 4 + j)).getD 0
  targets : ∀ i < 8, ∀ j < 3, byteAt (rt.page board).buttons (i * 7 + 3 + j) =
    byteAt (rt.ledStartLatch board) (i * 3 + j)

/-! ## The bytes of the payload -/

/-- A byte of an array that is given by a function. -/
lemma byteAt_ofFn {n : ℕ} (f : Fin n → UInt8) {k : ℕ} (hk : k < n) :
    byteAt (List.Vector.ofFn f) k = f ⟨k, hk⟩ := by
  rw [byteAt, List.Vector.toList_ofFn, List.getD_eq_getElem _ _ (by simpa using hk),
    List.getElem_ofFn]

section Payload

variable (latch : List.Vector UInt8 24) (rgbs : List.Vector UInt8 32) {i j : ℕ}

/-- The first three bytes of a button are the colour to start from. -/
lemma gsPayload_start (hi : i < 8) (hj : j < 3) : byteAt (gsPayload latch rgbs) (i * 7 + j) =
    if byteAt rgbs (i * 4 + 3) = 0 then byteAt rgbs (i * 4 + j) else byteAt latch (i * 3 + j) := by
  have hdiv : (i * 7 + j) / 7 = i := by omega
  have hmod : (i * 7 + j) % 7 = j := by omega
  rw [gsPayload, byteAt_ofFn _ (by omega)]
  simp only [hdiv, hmod, if_pos hj]
  rfl

/-- The next three bytes of a button are its target. -/
lemma gsPayload_target (hi : i < 8) (hj : j < 3) :
    byteAt (gsPayload latch rgbs) (i * 7 + 3 + j) = byteAt rgbs (i * 4 + j) := by
  have hdiv : (i * 7 + 3 + j) / 7 = i := by omega
  have hmod : (i * 7 + 3 + j) % 7 = 3 + j := by omega
  rw [gsPayload, byteAt_ofFn _ (by omega)]
  simp only [hdiv, hmod]
  rw [if_neg (by omega), if_pos (by omega), Nat.add_sub_cancel_left]
  rfl

/-- The last byte of a button is its speed. -/
lemma gsPayload_speed (hi : i < 8) :
    byteAt (gsPayload latch rgbs) (i * 7 + 6) = byteAt rgbs (i * 4 + 3) := by
  have hdiv : (i * 7 + 6) / 7 = i := by omega
  have hmod : (i * 7 + 6) % 7 = 6 := by omega
  rw [gsPayload, byteAt_ofFn _ (by omega)]
  simp only [hdiv, hmod]
  rw [if_neg (by omega), if_neg (by omega)]
  rfl

/-- The latch holds the target of each button. -/
lemma gsLatch_target (hi : i < 8) (hj : j < 3) :
    byteAt (gsLatch rgbs) (i * 3 + j) = byteAt rgbs (i * 4 + j) := by
  have hdiv : (i * 3 + j) / 3 = i := by omega
  have hmod : (i * 3 + j) % 3 = j := by omega
  rw [gsLatch, byteAt_ofFn _ (by omega)]
  simp only [hdiv, hmod]
  rfl

end Payload

/-! ## A call -/

section Call

variable {rt : Mai2Runtime} {call : GsCall} {board : Fin 2} {prev : Option GsCall}

/-- An accepted call latches its targets and updates the page of its board. -/
lemma ledGsUpdate_accepted (h : call.acceptedOn board = true) :
    ∃ rgbs : List.Vector UInt8 32, rgbs.toList = call.rgb.take 32 ∧
      rt.ledGsUpdate call.board call.rgb =
        (rt.ledGsLatch board rgbs).2.ledGsPage board (rt.ledGsLatch board rgbs).1 := by
  obtain ⟨hboard, hlen⟩ := of_decide_eq_true h
  have hle : call.board.toNat ≤ 1 := by omega
  have hsame : (⟨call.board.toNat, by omega⟩ : Fin 2) = board := Fin.ext hboard
  refine ⟨⟨call.rgb.take 32, by simp; omega⟩, rfl, ?_⟩
  rw [Mai2Runtime.ledGsUpdate, Mai2Runtime.gsAccepted, dif_pos ⟨hle, hlen⟩, hsame]

/-- Another call leaves the board and its latch. -/
lemma ledGsUpdate_other (h : call.acceptedOn board = false) :
    (rt.ledGsUpdate call.board call.rgb).devices board = rt.devices board ∧
      (rt.ledGsUpdate call.board call.rgb).ledStartLatch board = rt.ledStartLatch board := by
  have hnot := of_decide_eq_false h
  rw [Mai2Runtime.ledGsUpdate, Mai2Runtime.gsAccepted]
  by_cases haccepted : call.board.toNat ≤ 1 ∧ 32 ≤ call.rgb.length
  · rw [dif_pos haccepted]
    have hne : board ≠ ⟨call.board.toNat, by omega⟩ := by
      rintro rfl
      exact hnot ⟨rfl, haccepted.2⟩
    exact ⟨Function.update_of_ne hne _ _, Function.update_of_ne hne _ _⟩
  · rw [dif_neg haccepted]
    exact ⟨rfl, rfl⟩

/-- The page of the board behind an accepted call. -/
lemma page_ledGsPage (rgbs : List.Vector UInt8 32) :
    ((rt.ledGsLatch board rgbs).2.ledGsPage board (rt.ledGsLatch board rgbs).1).page board =
      (rt.page board).setButtons (gsPayload (rt.ledStartLatch board) rgbs) := by
  rw [Mai2Runtime.page, Mai2Runtime.ledGsPage, Mai2Runtime.updateOutput_outputPage, if_pos rfl]
  rfl

/-- A call latches its targets. -/
lemma latch_ledGsPage (rgbs : List.Vector UInt8 32) :
    ((rt.ledGsLatch board rgbs).2.ledGsPage board (rt.ledGsLatch board rgbs).1).ledStartLatch
      board = gsLatch rgbs := Function.update_self ..

/-- The page holds the buttons that were written. -/
lemma setButtons_buttons (page : Mai2OutputPage) (payload : List.Vector UInt8 56) :
    (page.setButtons payload).buttons = payload := by
  unfold Mai2OutputPage.setButtons
  split
  · rfl
  · next h => exact not_not.mp h

/-- The sequence number counts the changes of the buttons. -/
lemma setButtons_sequence (page : Mai2OutputPage) (payload : List.Vector UInt8 56) :
    (page.setButtons payload).buttonsSequence =
      page.buttonsSequence + if payload = page.buttons then 0 else 1 := by
  unfold Mai2OutputPage.setButtons
  by_cases h : page.buttons = payload
  · rw [if_neg (not_not.mpr h), if_pos h.symm, UInt64.add_zero]
  · rw [if_pos h, if_neg (Ne.symm h)]

/-- A byte of the argument of a call. -/
lemma byteAt_rgbs {rgbs : List.Vector UInt8 32} (h : rgbs.toList = call.rgb.take 32) {k : ℕ}
    (hk : k < 32) : byteAt rgbs k = call.byte k := by
  rw [byteAt, h, GsCall.byte, List.getD_eq_getElem?_getD, List.getElem?_take_of_lt hk,
    ← List.getD_eq_getElem?_getD]

/-- **An accepted call**, from what the calls before it have left.

**Proof sketch.** The page takes the payload, whose bytes are those of the argument and of the
latch. If the page has held this payload already, then its targets are the latched ones, so that
every LED starts at its target whether or not its speed is zero. -/
theorem gsUpdated (hhistory : GsHistory rt board prev) (h : call.acceptedOn board = true) :
    GsUpdated rt (rt.ledGsUpdate call.board call.rgb) board call prev := by
  obtain ⟨rgbs, hrgbs, hupdate⟩ := ledGsUpdate_accepted h
  have hbyte : ∀ {k}, k < 32 → byteAt rgbs k = call.byte k := fun hk => byteAt_rgbs hrgbs hk
  rw [hupdate]
  generalize hrt' : (rt.ledGsLatch board rgbs).2.ledGsPage board (rt.ledGsLatch board rgbs).1 = rt'
  have hpage : rt'.page board =
      (rt.page board).setButtons (gsPayload (rt.ledStartLatch board) rgbs) :=
    hrt' ▸ page_ledGsPage rgbs
  have hbuttons : (rt'.page board).buttons = gsPayload (rt.ledStartLatch board) rgbs := by
    rw [hpage, setButtons_buttons]
  have hsequence : (rt'.page board).buttonsSequence = (rt.page board).buttonsSequence +
      if (rt'.page board).buttons = (rt.page board).buttons then 0 else 1 := by
    rw [hbuttons, hpage, setButtons_sequence]
  refine ⟨⟨rgbs, hrgbs, hbuttons⟩, fun i hi j hj => ?_, fun i hi => ?_, fun i hi j hj => ?_, ?_,
    hsequence, fun hsame i hi j hj => ?_⟩
  · rw [hbuttons, gsPayload_target _ rgbs hi hj, hbyte (by omega)]
  · rw [hbuttons, gsPayload_speed _ rgbs hi, hbyte (by omega)]
  · rw [hbuttons, gsPayload_start _ rgbs hi hj, hbyte (by omega), hbyte (by omega),
      hhistory.latch i hi j hj]
  · rw [hbuttons, buttonRgbPayload, List.Vector.toList_ofFn]
    apply List.ext_getElem
    · simp
    · intro k hk _
      have hk24 : k < 24 := by simpa using hk
      rw [List.getElem_ofFn, List.getElem_map, List.getElem_range]
      exact (gsPayload_target _ rgbs (show k / 3 < 8 by omega) (show k % 3 < 3 by omega)).trans
        (hbyte (by omega))
  · have hkept : (rt'.page board).buttons = (rt.page board).buttons := by
      by_contra hchanged
      rw [hsequence, if_neg hchanged] at hsame
      have hone : (1 : UInt64) = 0 := by
        calc (1 : UInt64)
            = (rt.page board).buttonsSequence + 1 - (rt.page board).buttonsSequence := by grind
          _ = 0 := by rw [hsame]; grind
      exact absurd hone (by decide)
    have htargets := hhistory.targets i hi j hj
    rw [← hkept, hbuttons, gsPayload_target _ rgbs hi hj] at htargets
    rw [hbuttons, gsPayload_start _ rgbs hi hj, gsPayload_target _ rgbs hi hj, ← htargets, ite_self]

/-- An accepted call leaves its own targets. -/
lemma GsHistory.accepted (h : call.acceptedOn board = true) :
    GsHistory (rt.ledGsUpdate call.board call.rgb) board (some call) := by
  obtain ⟨rgbs, hrgbs, hupdate⟩ := ledGsUpdate_accepted h
  rw [hupdate]
  refine ⟨fun i hi j hj => ?_, fun i hi j hj => ?_⟩
  · rw [latch_ledGsPage, gsLatch_target rgbs hi hj, byteAt_rgbs hrgbs (by omega)]
    rfl
  · rw [page_ledGsPage, setButtons_buttons, latch_ledGsPage, gsPayload_target _ rgbs hi hj,
      gsLatch_target rgbs hi hj]

/-- Another call leaves what was there. -/
lemma GsHistory.other (hhistory : GsHistory rt board prev) (h : call.acceptedOn board = false) :
    GsHistory (rt.ledGsUpdate call.board call.rgb) board prev := by
  obtain ⟨hdevice, hlatch⟩ := ledGsUpdate_other h
  have hpage : (rt.ledGsUpdate call.board call.rgb).page board = rt.page board :=
    congrArg DeviceHandle.outputPage hdevice
  refine ⟨?_, ?_⟩
  · rw [hlatch]
    exact hhistory.latch
  · rw [hpage, hlatch]
    exact hhistory.targets

end Call

/-- **What the calls leave**: the latch of a board and the targets in its page are those of the
last call that was accepted for it.

**Proof sketch.** Induction on the calls. -/
theorem gsHistory_gsRun (enabled : Fin 2 → Bool) (calls : List GsCall) (board : Fin 2) :
    GsHistory ((Mai2Runtime.fresh enabled).gsRun calls) board
      (Log.last (GsCall.acceptedOn board) calls) := by
  induction calls using List.reverseRecOn with
  | nil =>
    have hzero : ∀ n k : ℕ, byteAt (List.Vector.replicate n (0 : UInt8)) k = 0 := by
      intro n k
      show (List.replicate n (0 : UInt8)).getD k 0 = 0
      rw [List.getD_eq_getElem?_getD, List.getElem?_getD_replicate_default_eq]
    exact ⟨fun i _ j _ => hzero 24 _, fun i _ j _ => (hzero 56 _).trans (hzero 24 _).symm⟩
  | append_singleton calls call ih =>
    rw [Mai2Runtime.gsRun_concat, Log.last_concat]
    cases h : call.acceptedOn board with
    | true => exact GsHistory.accepted h
    | false => exact ih.other h

/-- **Fades continue, and a suppressed update changes nothing**: after any calls, a call that is
accepted for a board fades its LEDs from the targets of the accepted call before it, and a call that
is not leaves the board as it is.

**Proof sketch.** `gsUpdated` for what the earlier calls have left. -/
theorem led_gs_update_history (enabled : Fin 2 → Bool) (calls : List GsCall) (call : GsCall)
    (board : Fin 2) :
    let rt := (Mai2Runtime.fresh enabled).gsRun calls
    let rt' := rt.ledGsUpdate call.board call.rgb
    if call.acceptedOn board then
      GsUpdated rt rt' board call (Log.last (GsCall.acceptedOn board) calls)
    else rt'.devices board = rt.devices board ∧
      rt'.ledStartLatch board = rt.ledStartLatch board := by
  intro rt rt'
  cases h : call.acceptedOn board with
  | true => exact gsUpdated (gsHistory_gsRun enabled calls board) h
  | false => exact ledGsUpdate_other h

end Affine
