import Affine.Core.SliderReports
import Affine.Mercury.Loop

set_option relaxedAutoImplicit false
set_option autoImplicit false

/-!
# The callback of the Mercury touch panel

What `mercury_thread` reports to the callback of the game (`affine-mercury/src/lib.rs`): the cells of
each scan frame, and no touched cell when a read fails. The frame has a bit for each cell, the page a
byte, and the callback is given a `bool` again.

## Main definitions

* `Affine.mercuryReport` — what is reported for a packet.
* `Affine.mercuryReports` — the thread with what it reports.

## Main results

* `Affine.mercury_frames_reported`, with the witness `Affine.mercury_frames_reported_scan`.
-/

namespace Affine

open SliderSystem (Step)

/-- What is reported for a packet: the cells of a scan frame. -/
def mercuryReport (packet : SliderPacket) : Option (List.Vector Bool 240) :=
  if packet.cmd = sliderCmdAutoScan ∧ 30 ≤ packet.payload.length then
    some (MercuryThread.cellsOf (packet.payload.take 30))
  else none

/-- The cells of the page, as `apply_cells_frame` reads them back. -/
def MercuryStatePage.snapshot (page : MercuryStatePage) : List.Vector Bool 240 :=
  page.cells.map fun value => value ≠ 0

/-- What is written is what is read back. -/
lemma snapshot_applyCellsFrame (t : MercuryThread) (cells : List.Vector Bool 240) :
    (t.applyCellsFrame cells).statePage.snapshot = cells := by
  apply List.Vector.ext
  intro i
  simp only [MercuryStatePage.snapshot, MercuryThread.applyCellsFrame, List.Vector.get_map]
  cases cells.get i <;> decide

/-- Nothing is touched on a page that was reset. -/
lemma snapshot_default : MercuryStatePage.default.snapshot = List.Vector.replicate 240 false := by
  apply List.Vector.ext
  intro i
  rw [MercuryStatePage.snapshot, List.Vector.get_map, List.Vector.get_replicate,
    MercuryStatePage.default, List.Vector.get_replicate]
  rfl

/-- A scan frame writes the cells that are reported for it, and other packets leave them. -/
lemma mercuryReport_applyPacket {packet : SliderPacket} {t u : MercuryThread}
    (h : t.applyPacket packet = .ok u) :
    u.statePage.snapshot = (mercuryReport packet).getD t.statePage.snapshot := by
  unfold MercuryThread.applyPacket at h
  split at h
  · rename_i hscan
    rw [Slice.range_eq_ok (Nat.zero_le 30) hscan.2, Slice.ok_bind] at h
    obtain rfl := Except.ok.inj h
    rw [List.drop_zero, snapshot_applyCellsFrame, mercuryReport, if_pos hscan, Option.getD_some]
  · rename_i hscan
    obtain rfl := Except.ok.inj h
    rw [mercuryReport, if_neg hscan, Option.getD_none]

/-- `mercury_thread` with `invoke_callback`: the page shows the cells. -/
def mercuryReports : SliderReports mercuryLoop (List.Vector Bool 240) where
  shown t := t.statePage.snapshot
  blank := List.Vector.replicate 240 false
  report := mercuryReport
  shown_setParser _ _ := rfl
  shown_call _ _ := rfl
  shown_connect _ := rfl
  shown_serve tick t := congrArg MercuryStatePage.snapshot (t.sendActive_frame tick).2.2
  shown_close _ := snapshot_default
  shown_applyPacket _ _ _ h := mercuryReport_applyPacket h

variable {γ : Type}

/-- The thread at its start, without a callback. -/
def MercuryThread.system (statePage : MercuryStatePage) (controlPage : MercuryControlPage) :
    SliderSystem MercuryThread γ (List.Vector Bool 240) :=
  .init (.init statePage controlPage)

/-- **Every scan frame is reported once**, whatever the game does. In every state of a run of the
thread and of the game: the callback that runs is the one that is registered; the page shows the
cells of the last report; and no report was made twice or out of order. If the thread is then in its
loop, every run of passes and calls is possible for it; and if frames with noise and cut frames
arrive while a callback stays registered, it is called with exactly the cells of each scan frame
among them, in their order.

**Proof sketch.** As for the other slider, with the cells in place of the pressure: what is written
into the page as bytes is read back as it was (`snapshot_applyCellsFrame`). -/
theorem mercury_frames_reported {statePage : MercuryStatePage} {controlPage : MercuryControlPage}
    {ls : List (SliderLabel γ)} {s : SliderSystem MercuryThread γ (List.Vector Bool 240)}
    (h : Labelled.Runs (Step mercuryReports) (MercuryThread.system statePage controlPage) ls s) :
    (∀ c r, s.phase = .running c r → s.callback = some c) ∧
      s.thread.statePage.snapshot =
        (mercuryReports.reports .default ls).getLast?.getD statePage.snapshot ∧
      (s.calls.map Prod.snd ++ s.phase.pending.toList).Sublist
        (mercuryReports.reports .default ls) ∧
      (s.phase = .idle → ∀ events u, Run.exec MercuryThread.step s.thread events = .ok u →
        ∃ ls' t, Labelled.Runs (Step mercuryReports) s ls' t ∧ t.thread = u ∧ t.phase = .idle) ∧
      ∀ c (items : List LinkItem) t, s.phase = .idle → s.callback = some c → t.phase = .idle →
        Labelled.Runs (Step mercuryReports) s
          (SliderSystem.brings (items.flatMap LinkItem.bytes)) t →
        t.calls = s.calls ++
          (items.filterMap (SliderSystem.itemReport mercuryReports)).map (c, ·) := by
  have hreported := SliderSystem.reported rfl h
  refine ⟨hreported.running, hreported.shown, ?_, ?_, ?_⟩
  · obtain ⟨calls, hcalls, hsub⟩ := hreported.calls
    rw [hcalls]
    exact hsub
  · intro hs events u hu
    rw [MercuryThread.exec_step] at hu
    exact SliderSystem.exists_runs hs hu
  · intro c items t hs hc ht hrun
    exact SliderSystem.frames_reported rfl h hs hc hrun ht

/-- A scan frame is reported to a callback that is registered before the port opens. -/
theorem mercury_frames_reported_scan :
    ∃ ls, ∃ t : SliderSystem MercuryThread Bool (List.Vector Bool 240),
      Labelled.Runs (Step mercuryReports) (MercuryThread.system .default .default) ls t ∧
        t.calls = [(true, MercuryThread.cellsOf (List.replicate 30 5))] := by
  let s : SliderSystem MercuryThread Bool (List.Vector Bool 240) :=
    { MercuryThread.system .default .default with
      thread := mercuryLoop.connect (.init .default .default)
      callback := some true }
  let items := [LinkItem.frame sliderCmdAutoScan (List.replicate 30 5) (by decide) ⟨[], by simp⟩]
  have hregister : Labelled.Runs (Step mercuryReports) (MercuryThread.system .default .default)
      [.register (some true)]
      { MercuryThread.system .default .default with callback := some true } :=
    Labelled.Runs.nil.visible (.register (some true) nofun)
  have h : Labelled.Runs (Step mercuryReports) (MercuryThread.system .default .default)
      [.register (some true)] s := hregister.silent (.connect rfl rfl)
  obtain ⟨t, hrun, -, hphase⟩ := SliderSystem.exists_brings (f := mercuryReports) (s := s) rfl rfl
    SliderParser.len_default (items.flatMap LinkItem.bytes)
  exact ⟨_, t, h.append hrun,
    (mercury_frames_reported h).2.2.2.2 true items t rfl rfl hphase hrun⟩

end Affine
