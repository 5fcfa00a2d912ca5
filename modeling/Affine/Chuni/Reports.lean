import Affine.Chuni.Loop
import Affine.Core.SliderReports

set_option relaxedAutoImplicit false
set_option autoImplicit false

/-!
# The callback of the CHUNITHM slider

What `chuni_thread` reports to the callback of the game (`affine-chuni/src/lib.rs`): the pressure of
each scan frame, and zeros when a read fails.

## Main definitions

* `Affine.chuniReport` — what is reported for a packet.
* `Affine.chuniReports` — the thread with what it reports.

## Main results

* `Affine.chuni_frames_reported`, with the witness `Affine.chuni_frames_reported_scan`.
-/

namespace Affine

open SliderSystem (Step)

/-- What is reported for a packet: the pressure of a scan frame. -/
def chuniReport (packet : SliderPacket) : Option (List.Vector UInt8 32) :=
  if h : packet.cmd = sliderCmdAutoScan ∧ 32 ≤ packet.payload.length then
    some ⟨packet.payload.take 32, by simp [h.2]⟩
  else none

/-- A scan frame writes the pressure that is reported for it, and other packets leave it. -/
lemma chuniReport_applyPacket {packet : SliderPacket} {t u : ChuniThread}
    (h : t.applyPacket packet = .ok u) :
    u.statePage.pressure = (chuniReport packet).getD t.statePage.pressure := by
  unfold ChuniThread.applyPacket at h
  split at h
  · rename_i hscan
    have hlen : ((packet.payload.take 32).drop 0).length = 32 := by
      simp [hscan.2]
    rw [Slice.range_eq_ok (Nat.zero_le 32) hscan.2, Slice.ok_bind,
      Slice.copyFromSlice_eq_ok hlen] at h
    obtain rfl := Except.ok.inj h
    rw [chuniReport, dif_pos hscan]
    rfl
  · rename_i hscan
    rw [chuniReport, dif_neg hscan, Option.getD_none]
    split at h
    · split at h <;> obtain rfl := Except.ok.inj h <;> rfl
    · obtain rfl := Except.ok.inj h
      rfl

/-- `chuni_thread` with `invoke_callback`: the page shows the pressure. -/
def chuniReports : SliderReports chuniLoop (List.Vector UInt8 32) where
  shown t := t.statePage.pressure
  blank := List.Vector.replicate 32 0
  report := chuniReport
  shown_setParser _ _ := rfl
  shown_call _ _ := rfl
  shown_connect _ := rfl
  shown_serve tick t := congrArg ChuniStatePage.pressure (t.sendAll_frame tick).2.2
  shown_close _ := rfl
  shown_applyPacket _ _ _ h := chuniReport_applyPacket h

variable {γ : Type}

/-- The thread at its start, without a callback. -/
def ChuniThread.system (statePage : ChuniStatePage) (controlPage : ChuniControlPage) :
    SliderSystem ChuniThread γ (List.Vector UInt8 32) :=
  .init (.init statePage controlPage)

/-- **Every scan frame is reported once**, whatever the game does. In every state of a run of the
thread and of the game: the callback that runs is the one that is registered; the page shows the
pressure of the last report; and no report was made twice or out of order. If the thread is then in
its loop, every run of passes and calls is possible for it; and if frames with noise and cut frames
arrive while a callback stays registered, it is called with exactly the pressure of each scan frame
among them, in their order.

**Proof sketch.** What has become of the reports is an invariant (`SliderSystem.reported`), and
escaped frames are decoded from every state (`SliderSystem.frames_reported`). -/
theorem chuni_frames_reported {statePage : ChuniStatePage} {controlPage : ChuniControlPage}
    {ls : List (SliderLabel γ)} {s : SliderSystem ChuniThread γ (List.Vector UInt8 32)}
    (h : Labelled.Runs (Step chuniReports) (ChuniThread.system statePage controlPage) ls s) :
    (∀ c r, s.phase = .running c r → s.callback = some c) ∧
      s.thread.statePage.pressure =
        (chuniReports.reports .default ls).getLast?.getD statePage.pressure ∧
      (s.calls.map Prod.snd ++ s.phase.pending.toList).Sublist (chuniReports.reports .default ls) ∧
      (s.phase = .idle → ∀ events u, Run.exec ChuniThread.step s.thread events = .ok u →
        ∃ ls' t, Labelled.Runs (Step chuniReports) s ls' t ∧ t.thread = u ∧ t.phase = .idle) ∧
      ∀ c (items : List LinkItem) t, s.phase = .idle → s.callback = some c → t.phase = .idle →
        Labelled.Runs (Step chuniReports) s
          (SliderSystem.brings (items.flatMap LinkItem.bytes)) t →
        t.calls = s.calls ++
          (items.filterMap (SliderSystem.itemReport chuniReports)).map (c, ·) := by
  have hreported := SliderSystem.reported rfl h
  refine ⟨hreported.running, hreported.shown, ?_, ?_, ?_⟩
  · obtain ⟨calls, hcalls, hsub⟩ := hreported.calls
    rw [hcalls]
    exact hsub
  · intro hs events u hu
    rw [ChuniThread.exec_step] at hu
    exact SliderSystem.exists_runs hs hu
  · intro c items t hs hc ht hrun
    exact SliderSystem.frames_reported rfl h hs hc hrun ht

/-- A scan frame is reported to a callback that is registered before the port opens. -/
theorem chuni_frames_reported_scan :
    ∃ ls, ∃ t : SliderSystem ChuniThread Bool (List.Vector UInt8 32),
      Labelled.Runs (Step chuniReports) (ChuniThread.system .default .default) ls t ∧
        t.calls = [(true, List.Vector.replicate 32 5)] := by
  let s : SliderSystem ChuniThread Bool (List.Vector UInt8 32) :=
    { ChuniThread.system .default .default with
      thread := chuniLoop.connect (.init .default .default)
      callback := some true }
  let items := [LinkItem.frame sliderCmdAutoScan (List.replicate 32 5) (by decide) ⟨[], by simp⟩]
  have hregister : Labelled.Runs (Step chuniReports) (ChuniThread.system .default .default)
      [.register (some true)] { ChuniThread.system .default .default with callback := some true } :=
    Labelled.Runs.nil.visible (.register (some true) nofun)
  have h : Labelled.Runs (Step chuniReports) (ChuniThread.system .default .default)
      [.register (some true)] s := hregister.silent (.connect rfl rfl)
  obtain ⟨t, hrun, -, hphase⟩ := SliderSystem.exists_brings (f := chuniReports) (s := s) rfl rfl
    SliderParser.len_default (items.flatMap LinkItem.bytes)
  exact ⟨_, t, h.append hrun,
    (chuni_frames_reported h).2.2.2.2 true items t rfl rfl hphase hrun⟩

end Affine
