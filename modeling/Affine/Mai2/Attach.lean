import Affine.Mai2.Coin
import Affine.Mai2.Led

set_option relaxedAutoImplicit false
set_option autoImplicit false

/-!
# Attaching to the shared pages

Two processes load the library, and each builds its runtime: `Mai2Runtime::new` creates or opens the
pages one behind the other (`SharedPage::create` in `affine-core/src/shared_memory.rs`,
`DeviceHandle::new` in `affine-mai2/src/lib.rs`). Then it serves calls, which update the pages. The
mutex of a page makes each access to it one step; the system fills a new page with zeros, and says
whether it existed.

The process that has found a page new writes the default page into it, and another process may have
opened and updated the page by then. And `DeviceHandle::new` sets whether touch input is enabled, in
either case. So what a call has written is kept along a run exactly if neither finds a different
value of a call of the other process (`Affine.attach_keeps_updates_iff`). The input pages, which are
created in front of the output pages, play no part in this.

## Main definitions

* `Affine.createFileMapping`, `Affine.createDefault` — the accesses of `SharedPage::create`.
* `Affine.AttachSystem`, `Affine.AttachEvent` — two processes, and their page accesses.
* `Affine.AttachSystem.KeepsCalls` — each field has the value that the last call has written.
* `Affine.AttachSystem.FindsNoCall` — an initialisation step finds no other value of a call.

## Main results

* `Affine.attach_keeps_updates_iff`, with the counterexamples `Affine.updates_erased`.
-/

namespace Affine

open Slice (Exec)

/-! ## The source -/

/-- `CreateFileMappingW`: the page, and whether it existed. -/
def createFileMapping {T : Type} (zeroed : T) (page : Option T) : Option T × Bool :=
  (some (page.getD zeroed), page.isSome)

/-- The end of `SharedPage::create`. -/
def createDefault {T : Type} (default : T) (existed : Bool) (page : Option T) : Option T :=
  if ¬ existed then some default else page

/-- An output page of zeros. -/
def Mai2OutputPage.zeroed : Mai2OutputPage where
  touchEnabled := 0
  buttonsSequence := 0
  buttons := List.Vector.replicate 56 0
  billboardSequence := 0
  billboard := List.Vector.replicate 24 0
  pwmSequence := 0
  pwm := List.Vector.replicate 3 0

/-- A poll page of zeros. -/
def Mai2PollPage.zeroed : Mai2PollPage where
  opbtn := 0
  player1Btn := 0
  player2Btn := 0
  affineCoin := 0
  sequence := 0

/-- The page update of an LED call: a channel, and what it is to show. -/
structure LedUpdate where
  channel : LedChannel
  payload : List.Vector UInt8 channel.size

/-- The page behind the update of an LED call. -/
def LedUpdate.apply (page : Mai2OutputPage) : LedUpdate → Mai2OutputPage
  | ⟨.buttons, payload⟩ => page.setButtons payload
  | ⟨.billboard, payload⟩ => page.setBillboard payload
  | ⟨.pwm, payload⟩ => page.setPwm payload

/-! ## Two processes -/

/-- The pages that a runtime creates in this order, apart from the input pages. -/
inductive PageName
  | output (player : Fin 2)
  | poll
  deriving DecidableEq

/-- Where a process is in `Mai2Runtime::new`: before it creates a page, before the test whether the
page existed, or before the update of `DeviceHandle::new`. Behind that it serves calls. -/
inductive AttachPc
  | create (page : PageName)
  | test (page : PageName) (existed : Bool)
  | setTouch (player : Fin 2)
  | running
  deriving DecidableEq

/-- Behind `DeviceHandle::new` for the player `0` comes the player `1`, and then the poll page. -/
def AttachPc.afterDevice (player : Fin 2) : AttachPc :=
  if player.val = 0 then .create (.output ⟨1, Nat.one_lt_two⟩) else .create .poll

/-- What calls write: whether touch input of a player is enabled, an LED channel of a player with
its sequence number, and the poll page. -/
inductive PageField
  | touchEnabled (player : Fin 2)
  | led (player : Fin 2) (channel : LedChannel)
  | poll
  deriving DecidableEq

namespace PageField

/-- The values of a field. -/
def Value : PageField → Type
  | touchEnabled _ => UInt8
  | led _ channel => Versioned.Cell (List.Vector UInt8 channel.size)
  | poll => Mai2PollPage

/-- The value of a field on a default page. -/
def defaultValue : (field : PageField) → field.Value
  | touchEnabled _ => Mai2OutputPage.default.touchEnabled
  | led _ channel => Mai2OutputPage.default.led channel
  | poll => Mai2PollPage.default

/-- The page of a field. -/
def page : PageField → PageName
  | touchEnabled player => .output player
  | led player _ => .output player
  | poll => .poll

end PageField

/-- The pages that exist, the two processes, and for each field the process whose call has written
it last, with the value. -/
structure AttachSystem where
  outputPages : Fin 2 → Option Mai2OutputPage
  pollPage : Option Mai2PollPage
  processes : Fin 2 → AttachPc
  last : (field : PageField) → Option (Fin 2 × field.Value)

/-- A process takes its next initialisation step, or a call of it updates a page. -/
inductive AttachEvent
  | initialise (process : Fin 2)
  | setTouchEnabled (process player : Fin 2) (enabled : Bool)
  | led (process player : Fin 2) (update : LedUpdate)
  | poll (process : Fin 2) (p1 p2 : Mai2InputPage) (keys : Keys)

namespace AttachSystem

/-- Two processes before their initialisation, without pages. -/
def init : AttachSystem where
  outputPages := fun _ => none
  pollPage := none
  processes := fun _ => .create (.output ⟨0, Nat.zero_lt_two⟩)
  last := fun _ => none

variable (s : AttachSystem)

/-- A process goes on. -/
def goto (process : Fin 2) (pc : AttachPc) : AttachSystem :=
  { s with processes := Function.update s.processes process pc }

/-- An access to an output page. -/
def setOutput (player : Fin 2) (page : Option Mai2OutputPage) : AttachSystem :=
  { s with outputPages := Function.update s.outputPages player page }

/-- The next step of a process in `Mai2Runtime::new`; `enabled` is its configuration. -/
def initialise (enabled : Fin 2 → Fin 2 → Bool) (process : Fin 2) : AttachSystem :=
  match s.processes process with
  | .create (.output player) =>
    let (page, existed) := createFileMapping .zeroed (s.outputPages player)
    (s.setOutput player page).goto process (.test (.output player) existed)
  | .create .poll =>
    let (page, existed) := createFileMapping .zeroed s.pollPage
    { s with pollPage := page }.goto process (.test .poll existed)
  | .test (.output player) existed =>
    (s.setOutput player (createDefault .default existed (s.outputPages player))).goto process
      (.setTouch player)
  | .test .poll existed =>
    { s with pollPage := createDefault .default existed s.pollPage }.goto process .running
  | .setTouch player =>
    (s.setOutput player ((s.outputPages player).map fun page =>
      { page with touchEnabled := if enabled process player then 1 else 0 })).goto process
        (.afterDevice player)
  | .running => s

/-- A call has written a field. -/
def written (process : Fin 2) (field : PageField) (value : field.Value) : AttachSystem :=
  { s with last := Function.update s.last field (some (process, value)) }

/-- The state after an event. A process that is not running makes no calls. -/
def next (enabled : Fin 2 → Fin 2 → Bool) : AttachEvent → AttachSystem
  | .initialise process => s.initialise enabled process
  | .setTouchEnabled process player on =>
    match s.processes process, s.outputPages player with
    | .running, some page =>
      let value := if on then 1 else 0
      (s.setOutput player (some { page with touchEnabled := value })).written process
        (.touchEnabled player) value
    | _, _ => s
  | .led process player update =>
    match s.processes process, s.outputPages player with
    | .running, some page =>
      let page' := update.apply page
      if page' ≠ page then
        (s.setOutput player (some page')).written process (.led player update.channel)
          (page'.led update.channel)
      else s
    | _, _ => s
  | .poll process p1 p2 keys =>
    match s.processes process, s.pollPage with
    | .running, some page =>
      let page' := page.poll p1 p2 keys
      { s with pollPage := some page' }.written process .poll page'
    | _, _ => s

/-- An event as a step of a run. -/
def step (enabled : Fin 2 → Fin 2 → Bool) (e : AttachEvent) (s : AttachSystem) :
    Exec AttachSystem :=
  .ok (s.next enabled e)

/-- The value of a field, if its page exists. -/
def value : (field : PageField) → Option field.Value
  | .touchEnabled player => (s.outputPages player).map (·.touchEnabled)
  | .led player channel => (s.outputPages player).map (·.led channel)
  | .poll => s.pollPage

/-- **What calls have written is kept**: each field has the value that the last call has written. -/
def KeepsCalls : Prop :=
  ∀ field process value, s.last field = some (process, value) → s.value field = some value

/-- An initialisation step that writes finds no other value of a call of the other process: the
default page is written only where such calls have written default values, and touch input is set
only to what such a call has set it to. -/
def FindsNoCall (enabled : Fin 2 → Fin 2 → Bool) : AttachEvent → Prop
  | .initialise process =>
    match s.processes process with
    | .test page false => ∀ field : PageField, field.page = page →
      ∀ other value, other ≠ process → s.last field = some (other, value) →
        value = field.defaultValue
    | .setTouch player =>
      ∀ other value, other ≠ process → s.last (.touchEnabled player) = some (other, value) →
        value = if enabled process player then (1 : UInt8) else 0
    | _ => True
  | _ => True

/-! ### The fields -/

variable {s} {t : AttachSystem} {enabled : Fin 2 → Fin 2 → Bool}

/-- A process that goes on leaves the fields. -/
lemma value_goto (process : Fin 2) (pc : AttachPc) (field : PageField) :
    (s.goto process pc).value field = s.value field := by
  cases field <;> rfl

/-- A step is seen in the fields only where it writes. -/
lemma value_written {field' : PageField} (process : Fin 2) (value' : field'.Value)
    (field : PageField) : (s.written process field' value').value field = s.value field := by
  cases field <;> rfl

/-- An access to an output page leaves the fields of the other pages. -/
lemma value_setOutput_of_ne {player : Fin 2} {page : Option Mai2OutputPage} {field : PageField}
    (h : field.page ≠ .output player) : (s.setOutput player page).value field = s.value field := by
  cases field with
  | touchEnabled player' =>
    have hne : player' ≠ player := by
      rintro rfl
      exact h rfl
    simp only [value, setOutput, Function.update_of_ne hne]
  | led player' channel =>
    have hne : player' ≠ player := by
      rintro rfl
      exact h rfl
    simp only [value, setOutput, Function.update_of_ne hne]
  | poll => rfl

/-- The fields of an output page that does not exist have no value. -/
lemma value_eq_none {player : Fin 2} {field : PageField} (h : field.page = .output player)
    (hnone : s.outputPages player = none) : s.value field = none := by
  cases field with
  | touchEnabled player' =>
    cases h
    rw [value, hnone]
    rfl
  | led player' channel =>
    cases h
    rw [value, hnone]
    rfl
  | poll => cases h

/-- A default output page has the default values. -/
lemma value_setOutput_default {player : Fin 2} {field : PageField}
    (h : field.page = .output player) :
    (s.setOutput player (some .default)).value field = some field.defaultValue := by
  cases field with
  | touchEnabled player' =>
    cases h
    simp only [value, setOutput, Function.update_self]
    rfl
  | led player' channel =>
    cases h
    simp only [value, setOutput, Function.update_self]
    rfl
  | poll => cases h

/-- What keeps the values of the existing pages keeps what calls have written. -/
lemma KeepsCalls.mono (h : s.KeepsCalls) (hlast : t.last = s.last)
    (hvalue : ∀ field value, s.value field = some value → t.value field = some value) :
    t.KeepsCalls := by
  intro field process value hfield
  rw [hlast] at hfield
  exact hvalue field value (h field process value hfield)

/-- Opening an output page keeps the values of the existing pages. -/
lemma value_create {player : Fin 2} {field : PageField} {value : field.Value}
    (h : s.value field = some value) :
    (s.setOutput player (createFileMapping .zeroed (s.outputPages player)).1).value field =
      some value := by
  by_cases hpage : field.page = .output player
  · cases hold : s.outputPages player with
    | none =>
      rw [value_eq_none hpage hold] at h
      cases h
    | some page =>
      have hsame : s.setOutput player (some page) = s := by
        rw [setOutput, ← hold, Function.update_eq_self]
      rw [createFileMapping, Option.getD_some, hsame, h]
  · rw [value_setOutput_of_ne hpage, h]

/-- An update of an output page changes the value of a field only if it changes it on the page. -/
lemma value_setOutput_congr {player : Fin 2} {page page' : Mai2OutputPage} {field : PageField}
    (hpage : s.outputPages player = some page)
    (htouch : field = .touchEnabled player → page'.touchEnabled = page.touchEnabled)
    (hled : ∀ channel, field = .led player channel → page'.led channel = page.led channel) :
    (s.setOutput player (some page')).value field = s.value field := by
  by_cases hfield : field.page = .output player
  · cases field with
    | touchEnabled player' =>
      cases hfield
      simp only [value, setOutput, Function.update_self, hpage]
      exact congrArg some (htouch rfl)
    | led player' channel =>
      cases hfield
      simp only [value, setOutput, Function.update_self, hpage]
      exact congrArg some (hled channel rfl)
    | poll => cases hfield
  · exact value_setOutput_of_ne hfield

/-! ### The steps -/

/-- Setting whether touch input is enabled leaves the LED channels. -/
lemma setTouch_led (page : Mai2OutputPage) (on : UInt8) (channel : LedChannel) :
    Mai2OutputPage.led { page with touchEnabled := on } channel = page.led channel := by
  cases channel <;> rfl

/-- An LED call leaves the other fields of the page.

**Proof sketch.** The cases are the channels, and whether the call changes anything. -/
lemma apply_keeps (update : LedUpdate) (page : Mai2OutputPage) :
    (update.apply page).touchEnabled = page.touchEnabled ∧
      ∀ channel ≠ update.channel, (update.apply page).led channel = page.led channel := by
  obtain ⟨channel, payload⟩ := update
  cases channel
  · simp only [LedUpdate.apply, Mai2OutputPage.setButtons]
    split
    · refine ⟨rfl, fun channel h => ?_⟩
      cases channel <;> first | rfl | exact absurd rfl h
    · exact ⟨rfl, fun _ _ => rfl⟩
  · simp only [LedUpdate.apply, Mai2OutputPage.setBillboard]
    split
    · refine ⟨rfl, fun channel h => ?_⟩
      cases channel <;> first | rfl | exact absurd rfl h
    · exact ⟨rfl, fun _ _ => rfl⟩
  · simp only [LedUpdate.apply, Mai2OutputPage.setPwm]
    split
    · refine ⟨rfl, fun channel h => ?_⟩
      cases channel <;> first | rfl | exact absurd rfl h
    · exact ⟨rfl, fun _ _ => rfl⟩

/-- Only a process that is running makes calls. -/
def CallsRun (s : AttachSystem) : Prop :=
  ∀ field process value, s.last field = some (process, value) → s.processes process = .running

/-- An initialisation step makes no call. -/
@[simp] lemma last_initialise (process : Fin 2) :
    (s.initialise enabled process).last = s.last := by
  unfold initialise
  split <;> rfl

/-- A call that writes a field keeps what calls have written. -/
lemma KeepsCalls.written (h : s.KeepsCalls) {process : Fin 2} {field : PageField}
    {new : field.Value} (hlast : t.last = s.last) (hnew : t.value field = some new)
    (hother : ∀ other ≠ field, t.value other = s.value other) :
    (t.written process field new).KeepsCalls := by
  intro other process' value hvalue
  rw [value_written]
  rcases eq_or_ne other field with rfl | hne
  · simp only [AttachSystem.written, Function.update_self, Option.some_inj, Prod.mk.injEq] at hvalue
    rw [hnew, hvalue.2]
  · simp only [AttachSystem.written, Function.update_of_ne hne, hlast] at hvalue
    rw [hother other hne]
    exact h other process' value hvalue

/-- **A call keeps what calls have written.**

**Proof sketch.** The cases are the events. A call writes its own field, and the others keep their
values. -/
lemma KeepsCalls.call (h : s.KeepsCalls) {e : AttachEvent}
    (he : ∀ process, e ≠ .initialise process) :
    (s.next enabled e).KeepsCalls := by
  cases e with
  | initialise process => exact absurd rfl (he process)
  | setTouchEnabled process player on =>
    simp only [next]
    split
    · next page _ hpage =>
      refine h.written (t := s.setOutput player _) rfl ?_ fun other hne => ?_
      · simp only [value, setOutput, Function.update_self]
        rfl
      · exact value_setOutput_congr hpage (fun heq => absurd heq hne)
          fun channel _ => setTouch_led page _ channel
    · exact h
  | led process player update =>
    simp only [next]
    split
    · next page _ hpage =>
      split
      · obtain ⟨htouch, hled⟩ := apply_keeps update page
        refine h.written (t := s.setOutput player _) rfl ?_ fun other hne => ?_
        · simp only [value, setOutput, Function.update_self]
          rfl
        · refine value_setOutput_congr hpage (fun _ => htouch) fun channel heq => hled channel ?_
          rintro rfl
          exact hne heq
      · exact h
    · exact h
  | poll process p1 p2 keys =>
    simp only [next]
    split
    · next page _ hpage =>
      refine h.written (t := { s with pollPage := some (page.poll p1 p2 keys) }) rfl rfl
        fun other hne => ?_
      cases other with
      | poll => exact absurd rfl hne
      | _ => rfl
    · exact h

/-- A process that goes on keeps what calls have written. -/
lemma keepsCalls_goto {process : Fin 2} {pc : AttachPc} :
    (s.goto process pc).KeepsCalls ↔ s.KeepsCalls := by
  unfold KeepsCalls
  simp only [value_goto]
  exact Iff.rfl

/-- The process that initialises has made no call. -/
lemma CallsRun.other (h : s.CallsRun) {process : Fin 2} (hpc : s.processes process ≠ .running)
    {field : PageField} {other : Fin 2} {value : field.Value}
    (hlast : s.last field = some (other, value)) : other ≠ process := by
  rintro rfl
  exact hpc (h field other value hlast)

/-- The default page keeps what calls have written exactly if that is default values. -/
lemma keepsCalls_default (h : s.KeepsCalls) {page : PageName} (hlast : t.last = s.last)
    (hdefault : ∀ field : PageField, field.page = page → t.value field = some field.defaultValue)
    (hother : ∀ field : PageField, field.page ≠ page → t.value field = s.value field) :
    t.KeepsCalls ↔ ∀ field : PageField, field.page = page →
      ∀ process value, s.last field = some (process, value) → value = field.defaultValue := by
  constructor
  · intro ht field hfield process value hvalue
    have hkept := ht field process value (by rw [hlast, hvalue])
    rw [hdefault field hfield, Option.some_inj] at hkept
    exact hkept.symm
  · intro hdefaults field process value hvalue
    rw [hlast] at hvalue
    by_cases hfield : field.page = page
    · rw [hdefault field hfield, hdefaults field hfield process value hvalue]
    · rw [hother field hfield]
      exact h field process value hvalue

/-- Setting whether touch input is enabled keeps what calls have written exactly if that is what the
last such call has set.

**Proof sketch.** The store changes one field only, so all that matters is whether the last call has
set the same value there. Without a page no call has set it. -/
lemma keepsCalls_setTouch (h : s.KeepsCalls) {player : Fin 2} (on : UInt8) :
    (s.setOutput player ((s.outputPages player).map ({ · with touchEnabled := on }))).KeepsCalls ↔
      ∀ process value, s.last (.touchEnabled player) = some (process, value) → value = on := by
  cases hpage : s.outputPages player with
  | none =>
    -- there is no such call without a page
    have hsame : s.setOutput player none = s := by
      rw [setOutput, ← hpage, Function.update_eq_self]
    rw [Option.map_none, hsame]
    refine iff_of_true h fun process value hvalue => ?_
    have hkept := h _ process value hvalue
    rw [value_eq_none rfl hpage] at hkept
    cases hkept
  | some page =>
    rw [Option.map_some]
    have hvalue : ∀ field ≠ .touchEnabled player,
        (s.setOutput player (some { page with touchEnabled := on })).value field =
          s.value field := by
      intro field hne
      exact value_setOutput_congr hpage (fun heq => absurd heq hne)
        fun channel _ => setTouch_led page on channel
    have hself : (s.setOutput player (some { page with touchEnabled := on })).value
        (.touchEnabled player) = some on := by
      simp only [value, setOutput, Function.update_self]
      rfl
    constructor
    · intro ht process value hlast
      have hkept := ht (.touchEnabled player) process value hlast
      exact (Option.some.inj (hself.symm.trans hkept)).symm
    · intro hon field process value hlast
      rcases eq_or_ne field (.touchEnabled player) with rfl | hne
      · exact hself.trans (congrArg some (hon process value hlast).symm)
      · rw [hvalue field hne]
        exact h field process value hlast

/-- **An initialisation step keeps what calls have written exactly if it finds no other value of a
call of the other process.**

**Proof sketch.** Opening a page keeps it. The test of a page that was new writes default values,
and `DeviceHandle::new` writes one field. What calls have written are calls of the other process,
because this one is not running. -/
lemma keepsCalls_initialise_iff (h : s.KeepsCalls) (hcalls : s.CallsRun) (process : Fin 2) :
    (s.initialise enabled process).KeepsCalls ↔ s.FindsNoCall enabled (.initialise process) := by
  unfold initialise FindsNoCall
  dsimp only
  cases hpc : s.processes process with
  | create page =>
    dsimp only
    refine iff_of_true ?_ trivial
    cases page with
    | output player =>
      dsimp only
      rw [keepsCalls_goto]
      exact h.mono rfl fun field value => value_create
    | poll =>
      dsimp only
      rw [keepsCalls_goto]
      refine h.mono rfl fun field value hvalue => ?_
      cases field with
      | poll =>
        have hpoll : s.pollPage = some value := hvalue
        show some (s.pollPage.getD .zeroed) = some value
        rw [hpoll]
        rfl
      | touchEnabled player => exact hvalue
      | led player channel => exact hvalue
  | test page existed =>
    have hother : ∀ {field : PageField} {other : Fin 2} {value : field.Value},
        s.last field = some (other, value) → other ≠ process :=
      fun hlast => hcalls.other (by rw [hpc]; nofun) hlast
    have hdefaults : (∀ field : PageField, field.page = page →
        ∀ other value, s.last field = some (other, value) → value = field.defaultValue) ↔
        ∀ field : PageField, field.page = page → ∀ other value, other ≠ process →
          s.last field = some (other, value) → value = field.defaultValue := by
      constructor
      · exact fun hall field hfield other value _ hlast => hall field hfield other value hlast
      · exact fun hall field hfield other value hlast =>
          hall field hfield other value (hother hlast) hlast
    cases existed with
    | true =>
      cases page with
      | output player =>
        dsimp only
        rw [keepsCalls_goto, createDefault, if_neg (not_not.mpr rfl), setOutput,
          Function.update_eq_self]
        exact iff_of_true h trivial
      | poll =>
        dsimp only
        rw [keepsCalls_goto, createDefault, if_neg (not_not.mpr rfl)]
        exact iff_of_true h trivial
    | false =>
      dsimp only
      rw [← hdefaults]
      cases page with
      | output player =>
        dsimp only
        rw [keepsCalls_goto]
        exact keepsCalls_default h rfl (fun _ => value_setOutput_default)
          fun _ => value_setOutput_of_ne
      | poll =>
        dsimp only
        rw [keepsCalls_goto]
        refine keepsCalls_default h rfl (fun field hfield => ?_) fun field hfield => ?_
        · cases field <;> first | rfl | cases hfield
        · cases field <;> first | rfl | exact absurd rfl hfield
  | setTouch player =>
    dsimp only
    rw [keepsCalls_goto, keepsCalls_setTouch h]
    constructor
    · exact fun hall other value _ hlast => hall other value hlast
    · exact fun hall other value hlast =>
        hall other value (hcalls.other (by rw [hpc]; nofun) hlast) hlast
  | running => exact iff_of_true h trivial

/-- An initialisation step leaves the other process. -/
lemma processes_initialise {process other : Fin 2} (h : other ≠ process) :
    (s.initialise enabled process).processes other = s.processes other := by
  unfold initialise
  split <;> first | rfl | exact Function.update_of_ne h _ _

/-- A running process that writes a field. -/
lemma CallsRun.written (h : s.CallsRun) {process : Fin 2} (hrun : s.processes process = .running)
    {field : PageField} {value : field.Value} (hlast : t.last = s.last)
    (hprocesses : t.processes = s.processes) : (t.written process field value).CallsRun := by
  intro other process' value' hvalue
  show t.processes process' = .running
  rw [hprocesses]
  rcases eq_or_ne other field with rfl | hne
  · simp only [AttachSystem.written, Function.update_self, Option.some_inj, Prod.mk.injEq] at hvalue
    rw [← hvalue.1, hrun]
  · simp only [AttachSystem.written, Function.update_of_ne hne, hlast] at hvalue
    exact h other process' value' hvalue

/-- Every event keeps that only running processes make calls.

**Proof sketch.** The cases are the events. A process that runs does not start again, and every call
comes from one that runs. -/
lemma CallsRun.next (h : s.CallsRun) (e : AttachEvent) : (s.next enabled e).CallsRun := by
  cases e with
  | initialise process =>
    simp only [AttachSystem.next]
    by_cases hrun : s.processes process = .running
    · have hsame : s.initialise enabled process = s := by rw [initialise, hrun]
      rwa [hsame]
    · intro field other value hlast
      rw [last_initialise] at hlast
      rw [processes_initialise (h.other hrun hlast)]
      exact h field other value hlast
  | setTouchEnabled process player on =>
    simp only [AttachSystem.next]
    split
    · next hrun _ => exact h.written hrun rfl rfl
    · exact h
  | led process player update =>
    simp only [AttachSystem.next]
    split
    · next hrun _ =>
      split
      · exact h.written hrun rfl rfl
      · exact h
    · exact h
  | poll process p1 p2 keys =>
    simp only [AttachSystem.next]
    split
    · next hrun _ => exact h.written hrun rfl rfl
    · exact h

/-- **An event keeps what calls have written exactly if it finds no other value of a call of the
other process.** -/
theorem keepsCalls_next_iff (h : s.KeepsCalls) (hcalls : s.CallsRun) (e : AttachEvent) :
    (s.next enabled e).KeepsCalls ↔ s.FindsNoCall enabled e := by
  cases e with
  | initialise process => exact keepsCalls_initialise_iff h hcalls process
  | _ => exact iff_of_true (h.call nofun) trivial

end AttachSystem

/-- **When attaching erases no update**: for all interleavings of two processes that build their
runtimes and make calls, each field keeps the value that the last call has written, exactly if no
initialisation step finds another value of a call of the other process. That is, a process which has
created a page writes the default page only where calls of the other process have written default
values, and `DeviceHandle::new` sets touch input of a player only to what the other process has last
set it to, if it has.

**Proof sketch.** A process that initialises has made no calls (`AttachSystem.CallsRun.next`). The
condition is exact for each step (`AttachSystem.keepsCalls_next_iff`). -/
theorem attach_keeps_updates_iff (enabled : Fin 2 → Fin 2 → Bool) (events : List AttachEvent) :
    Run.Always (AttachSystem.step enabled) .init events AttachSystem.KeepsCalls ↔
      Run.EachStep (AttachSystem.step enabled) .init events fun s e => s.FindsNoCall enabled e := by
  refine Run.always_iff (I := AttachSystem.CallsRun) nofun ?_ nofun ?_
  · intro e s t hs ht
    obtain rfl := Except.ok.inj ht
    exact hs.next e
  · intro e s t hcalls hs ht
    obtain rfl := Except.ok.inj ht
    exact AttachSystem.keepsCalls_next_iff hs hcalls e

/-- A process goes through `Mai2Runtime::new`. -/
def AttachEvent.initialiseAll (process : Fin 2) : List AttachEvent :=
  List.replicate 8 (.initialise process)

/-- The first process finds a page new, the second one opens it and sets the billboard, and then the
first one writes the default page. -/
def lateDefault : List AttachEvent :=
  let first : Fin 2 := ⟨0, Nat.zero_lt_two⟩
  let second : Fin 2 := ⟨1, Nat.one_lt_two⟩
  .initialise first :: AttachEvent.initialiseAll second ++
    [.led second first ⟨.billboard, List.Vector.replicate 24 255⟩, .initialise first]

/-- The first process disables touch input, and the second one attaches to its page. -/
def lateAttach : List AttachEvent :=
  let first : Fin 2 := ⟨0, Nat.zero_lt_two⟩
  let second : Fin 2 := ⟨1, Nat.one_lt_two⟩
  AttachEvent.initialiseAll first ++ .setTouchEnabled first first false ::
    List.replicate 3 (.initialise second)

/-- **Attaching erases updates**: a late default page erases the billboard, and a process that
attaches enables touch input again. -/
theorem updates_erased :
    ¬ Run.Always (AttachSystem.step fun _ _ => true) .init lateDefault AttachSystem.KeepsCalls ∧
      ¬ Run.Always (AttachSystem.step fun _ _ => true) .init lateAttach
        AttachSystem.KeepsCalls := by
  constructor
  · intro h
    have hkept := h lateDefault _ (List.prefix_refl _) rfl (.led 0 .billboard) 1 _ rfl
    exact absurd (congrArg (Option.map Versioned.Cell.version) hkept) (by decide)
  · intro h
    have hkept := h lateAttach _ (List.prefix_refl _) rfl (.touchEnabled 0) 0 _ rfl
    exact absurd (congrArg (fun value : Option UInt8 => value.getD 0) hkept) (by decide)

end Affine
