import Affine.Core.SliderLoop
import Affine.Lib.Labelled

set_option relaxedAutoImplicit false
set_option autoImplicit false

/-!
# The reports of a slider thread

`invoke_callback` of `chuni_thread` and `mercury_thread`: behind each scan frame, and when a read
fails, the thread calls the callback of the game with what the state page then shows. The callback is
in a mutex, which the thread holds while the callback runs; the game registers a callback, and calls
the other functions, at any time.

A `SliderReports` says what a slider loop reports. A `SliderSystem` is the thread with the callback,
and its steps are those of the thread and of the game in any order.

## Main definitions

* `Affine.SliderReports` — what the state page of a slider shows, and what a packet reports.
* `Affine.SliderSystem`, `Affine.SliderSystem.Step` — a thread with the callback.
* `Affine.SliderReports.reports` — what is to be reported for what has happened to a port.

## Main results

* `Affine.SliderSystem.reported` — what holds after every run.
* `Affine.SliderSystem.frames_reported` — escaped frames are reported.
-/

namespace Affine

variable {κ ι τ ρ γ : Type} {l : SliderLoop κ ι τ}

/-- What the state page of a slider shows, and what is reported for a packet. -/
structure SliderReports (l : SliderLoop κ ι τ) (ρ : Type) where
  shown : τ → ρ
  /-- What is reported when a read fails. -/
  blank : ρ
  report : SliderPacket → Option ρ
  shown_setParser : ∀ p t, shown (l.setParser p t) = shown t
  shown_call : ∀ k t, shown (l.call k t) = shown t
  shown_connect : ∀ t, shown (l.connect t) = shown t
  shown_serve : ∀ i t, shown (l.serve i t) = shown t
  shown_close : ∀ t, shown (l.close t) = blank
  shown_applyPacket : ∀ packet t u, l.applyPacket packet t = .ok u →
    shown u = (report packet).getD (shown t)

/-- What happens to the port and to the callback. -/
inductive SliderLabel (γ : Type)
  | byte (b : UInt8)
  | broken
  | register (c : Option γ)

/-- Where the thread is: in its loop, before `invoke_callback` with a report, or in a callback. -/
inductive ReportPhase (γ ρ : Type)
  | idle
  | owed (r : ρ)
  | running (c : γ) (r : ρ)

/-- The report that no callback was called with yet. -/
def ReportPhase.pending : ReportPhase γ ρ → Option ρ
  | owed r => some r
  | _ => none

/-- The phase behind a byte, or a read that fails. -/
def ReportPhase.ofReport : Option ρ → ReportPhase γ ρ
  | some r => owed r
  | none => idle

/-- A report is pending from the point on at which it is there. -/
@[simp] lemma ReportPhase.pending_ofReport (r : Option ρ) :
    (ofReport r : ReportPhase γ ρ).pending = r := by
  cases r <;> rfl

/-- A thread with the callback that is registered, and the calls of callbacks so far. -/
structure SliderSystem (τ γ ρ : Type) where
  thread : τ
  callback : Option γ
  phase : ReportPhase γ ρ
  calls : List (γ × ρ)

namespace SliderReports

variable (f : SliderReports l ρ)

/-- What a thread reports for a byte. -/
def reportOf (t : τ) (b : UInt8) : Option ρ :=
  match (l.parser t).push b with
  | .ok (o, _) => o.bind f.report
  | .error _ => none

/-- The decoder, and what is reported, with one more event of the port. -/
def feed (r : SliderParser × List ρ) : SliderLabel γ → SliderParser × List ρ
  | .byte b =>
    match r.1.push b with
    | .ok (o, p) => (p, r.2 ++ (o.bind f.report).toList)
    | .error _ => r
  | .broken => (r.1, r.2 ++ [f.blank])
  | .register _ => r

/-- What is to be reported for the events of a port, from a state of the decoder. -/
def reports (p : SliderParser) (ls : List (SliderLabel γ)) : List ρ :=
  (ls.foldl f.feed (p, [])).2

end SliderReports

namespace SliderSystem

variable (f : SliderReports l ρ)

/-- The steps of the thread and of the game. -/
inductive Step (s : SliderSystem τ γ ρ) :
    Option (SliderLabel γ) → SliderSystem τ γ ρ → Prop
  /-- The game calls a function. -/
  | call (k : κ) : Step s none { s with thread := l.call k s.thread }
  /-- The game gets the mutex of the callback, and writes it. -/
  | register (c : Option γ) (hfree : ∀ c' r, s.phase ≠ .running c' r) :
      Step s (some (.register c)) { s with callback := c }
  | connect (hphase : s.phase = .idle) (hclosed : l.isOpen s.thread = false) :
      Step s none { s with thread := l.connect s.thread }
  | serve (i : ι) (hphase : s.phase = .idle) (hopen : l.isOpen s.thread = true) :
      Step s none { s with thread := l.serve i s.thread }
  | byte (b : UInt8) (u : τ) (hphase : s.phase = .idle) (hopen : l.isOpen s.thread = true)
      (hu : l.receive b s.thread = .ok u) :
      Step s (some (.byte b))
        { s with thread := u, phase := .ofReport (f.reportOf s.thread b) }
  | broken (hphase : s.phase = .idle) (hopen : l.isOpen s.thread = true) :
      Step s (some .broken) { s with thread := l.close s.thread, phase := .owed f.blank }
  /-- The thread gets the mutex, and calls the callback. -/
  | enter (c : γ) (r : ρ) (hphase : s.phase = .owed r) (hc : s.callback = some c) :
      Step s none { s with phase := .running c r, calls := s.calls ++ [(c, r)] }
  /-- There is no callback. -/
  | skip (r : ρ) (hphase : s.phase = .owed r) (hc : s.callback = none) :
      Step s none { s with phase := .idle }
  /-- The callback returns, and the mutex is released. -/
  | leave (c : γ) (r : ρ) (hphase : s.phase = .running c r) :
      Step s none { s with phase := .idle }

/-- A thread in its loop, without a callback. -/
def init (t : τ) : SliderSystem τ γ ρ where
  thread := t
  callback := none
  phase := .idle
  calls := []

/-! ## What holds after every run -/

variable {f}

/-- What has become of the reports since a state of the thread in its loop. -/
structure Reported (f : SliderReports l ρ) (s : SliderSystem τ γ ρ) (ls : List (SliderLabel γ))
    (t : SliderSystem τ γ ρ) : Prop where
  parser : (ls.foldl f.feed (l.parser s.thread, [])).1 = l.parser t.thread
  /-- The page shows the last report. -/
  shown : f.shown t.thread =
    (f.reports (l.parser s.thread) ls).getLast?.getD (f.shown s.thread)
  /-- The callback that runs is the one that is registered. -/
  running : ∀ c r, t.phase = .running c r → t.callback = some c
  /-- Nothing is reported twice, or out of order. -/
  calls : ∃ calls, t.calls = s.calls ++ calls ∧
    (calls.map Prod.snd ++ t.phase.pending.toList).Sublist (f.reports (l.parser s.thread) ls)
  /-- A callback that stays registered gets all reports. -/
  registered : ∀ c, s.callback = some c → (∀ c', SliderLabel.register c' ∉ ls) → t.callback = some c ∧
    t.calls ++ t.phase.pending.toList.map (c, ·) =
      s.calls ++ (f.reports (l.parser s.thread) ls).map (c, ·)

/-- No step reports nothing. -/
lemma Reported.refl {s : SliderSystem τ γ ρ} (hs : s.phase = .idle) : Reported f s [] s where
  parser := rfl
  shown := rfl
  running := by
    intro c r hr
    rw [hs] at hr
    cases hr
  calls := ⟨[], by simp, by simp [hs, ReportPhase.pending]⟩
  registered := by
    intro c hc _
    exact ⟨hc, by simp [hs, ReportPhase.pending, SliderReports.reports]⟩

variable {s t u : SliderSystem τ γ ρ} {ls : List (SliderLabel γ)}

/-- A step that neither reports anything nor calls the callback. -/
lemma Reported.silent (h : Reported f s ls t) (hparser : l.parser u.thread = l.parser t.thread)
    (hshown : f.shown u.thread = f.shown t.thread) (hcallback : u.callback = t.callback)
    (hphase : u.phase.pending = t.phase.pending)
    (hrunning : ∀ c r, u.phase = .running c r → u.callback = some c)
    (hcalls : u.calls = t.calls) : Reported f s ls u where
  parser := h.parser.trans hparser.symm
  shown := hshown.trans h.shown
  running := hrunning
  calls := by
    rw [hcalls, hphase]
    exact h.calls
  registered := by
    rw [hcalls, hphase, hcallback]
    exact h.registered

/-- The game registers a callback. -/
lemma Reported.register (h : Reported f s ls t) (c : Option γ)
    (hfree : ∀ c' r, t.phase ≠ .running c' r) :
    Reported f s (ls ++ [.register c]) { t with callback := c } := by
  have hfeed : (ls ++ [SliderLabel.register c]).foldl f.feed (l.parser s.thread, []) =
      ls.foldl f.feed (l.parser s.thread, []) := by
    rw [List.foldl_append]
    rfl
  have hreports : f.reports (l.parser s.thread) (ls ++ [.register c]) =
      f.reports (l.parser s.thread) ls := by
    rw [SliderReports.reports, hfeed, SliderReports.reports]
  refine ⟨?_, ?_, ?_, ?_, ?_⟩
  · rw [hfeed]
    exact h.parser
  · rw [hreports]
    exact h.shown
  · intro c' r hr
    exact absurd hr (hfree c' r)
  · rw [hreports]
    exact h.calls
  · intro c' _ hnone
    exact absurd (List.mem_append_right ls (List.mem_singleton_self _)) (hnone c)

/-- An event of the port, with what it reports.

**Proof sketch.** The labels grow by the event, and the reports by what the event makes the thread
report, which is pending from then on. -/
lemma Reported.event (h : Reported f s ls t) {e : SliderLabel γ} {o : Option ρ}
    (hphase : t.phase = .idle) (hfeed : ∀ rs, f.feed (l.parser t.thread, rs) e =
      (l.parser u.thread, rs ++ o.toList))
    (hshown : f.shown u.thread = o.getD (f.shown t.thread)) (hcallback : u.callback = t.callback)
    (hnew : u.phase = .ofReport o) (hcalls : u.calls = t.calls) :
    Reported f s (ls ++ [e]) u := by
  have hstep : (ls ++ [e]).foldl f.feed (l.parser s.thread, []) =
      (l.parser u.thread, f.reports (l.parser s.thread) ls ++ o.toList) := by
    rw [List.foldl_append, List.foldl_cons, List.foldl_nil, SliderReports.reports, ← hfeed,
      ← h.parser]
  have hreports : f.reports (l.parser s.thread) (ls ++ [e]) =
      f.reports (l.parser s.thread) ls ++ o.toList := by
    rw [SliderReports.reports, hstep]
  have hpending : t.phase.pending = none := by rw [hphase]; rfl
  refine ⟨by rw [hstep], ?_, ?_, ?_, ?_⟩
  · rw [hreports, hshown, h.shown]
    cases o with
    | none => simp
    | some r => simp
  · intro c r hr
    rw [hnew] at hr
    cases o <;> cases hr
  · obtain ⟨calls, hc, hsub⟩ := h.calls
    refine ⟨calls, hcalls.trans hc, ?_⟩
    rw [hreports, hnew, ReportPhase.pending_ofReport]
    rw [hpending, Option.toList_none, List.append_nil] at hsub
    exact hsub.append_right _
  · intro c hc hnone
    obtain ⟨hsame, hall⟩ := h.registered c hc
      fun c' hmem => hnone c' (List.mem_append_left _ hmem)
    rw [hpending, Option.toList_none, List.map_nil, List.append_nil] at hall
    refine ⟨hcallback.trans hsame, ?_⟩
    rw [hreports, hnew, ReportPhase.pending_ofReport, hcalls, hall, List.map_append,
      List.append_assoc]

/-- A byte is pushed, and what it reports is then shown. -/
lemma feed_byte {b : UInt8} {x y : τ} (h : l.receive b x = .ok y) :
    (∀ rs, f.feed (γ := γ) (l.parser x, rs) (.byte b) =
      (l.parser y, rs ++ (f.reportOf x b).toList)) ∧
      f.shown y = (f.reportOf x b).getD (f.shown x) := by
  obtain ⟨o, parser, hpush, hcase⟩ := l.receive_eq_ok.mp h
  have hreport : f.reportOf x b = o.bind f.report := by rw [SliderReports.reportOf, hpush]
  have hfeed (rs : List ρ) : f.feed (γ := γ) (l.parser x, rs) (.byte b) =
      (parser, rs ++ (o.bind f.report).toList) := by
    simp only [SliderReports.feed, hpush]
  rw [hreport]
  rcases hcase with ⟨rfl, rfl⟩ | ⟨packet, rfl, hpacket⟩
  · exact ⟨fun rs => by rw [hfeed, l.parser_setParser], f.shown_setParser parser x⟩
  · refine ⟨fun rs => ?_, ?_⟩
    · rw [hfeed, l.parser_applyPacket packet _ y hpacket, l.parser_setParser]
    · rw [f.shown_applyPacket packet _ y hpacket, f.shown_setParser]
      rfl

/-- **Every step keeps what has become of the reports.**

**Proof sketch.** A byte and a read that fails owe a report, which the page shows then
(`Reported.event`), and the thread makes the call before it goes on. The mutex keeps the game from
registering another callback while one runs. -/
lemma Reported.step (h : Reported f s ls t) {o : Option (SliderLabel γ)} (hstep : Step f t o u) :
    Reported f s (ls ++ o.toList) u := by
  have hidle (hphase : t.phase = .idle) (c : γ) (r : ρ) : t.phase ≠ .running c r := by
    rw [hphase]
    exact nofun
  cases hstep with
  | call k =>
    rw [Option.toList_none, List.append_nil]
    exact h.silent (l.parser_call k _) (f.shown_call k _) rfl rfl h.running rfl
  | register c hfree => exact h.register c hfree
  | connect hphase hclosed =>
    rw [Option.toList_none, List.append_nil]
    exact h.silent (l.parser_connect _) (f.shown_connect _) rfl rfl h.running rfl
  | serve i hphase hopen =>
    rw [Option.toList_none, List.append_nil]
    exact h.silent (l.parser_serve i _) (f.shown_serve i _) rfl rfl h.running rfl
  | byte b u hphase hopen hu =>
    obtain ⟨hfeed, hshown⟩ := feed_byte hu
    exact h.event hphase hfeed hshown rfl rfl rfl
  | broken hphase hopen =>
    refine h.event (o := some f.blank) hphase (fun rs => ?_) (f.shown_close _) rfl rfl rfl
    rw [l.parser_close]
    rfl
  | enter c r hphase hc =>
    rw [Option.toList_none, List.append_nil]
    have hpending : t.phase.pending = some r := by rw [hphase]; rfl
    refine ⟨h.parser, h.shown, ?_, ?_, ?_⟩
    · rintro c' r' ⟨⟩
      exact hc
    · obtain ⟨calls, hcalls, hsub⟩ := h.calls
      rw [hpending] at hsub
      refine ⟨calls ++ [(c, r)], ?_, ?_⟩
      · rw [hcalls, List.append_assoc]
      · simpa [ReportPhase.pending] using hsub
    · intro c' hc' hnone
      obtain ⟨hsame, hall⟩ := h.registered c' hc' hnone
      obtain rfl : c = c' := Option.some.inj (hc.symm.trans hsame)
      rw [hpending] at hall
      exact ⟨hsame, by simpa [ReportPhase.pending] using hall⟩
  | skip r hphase hc =>
    rw [Option.toList_none, List.append_nil]
    refine ⟨h.parser, h.shown, nofun, ?_, ?_⟩
    · obtain ⟨calls, hcalls, hsub⟩ := h.calls
      refine ⟨calls, hcalls, ?_⟩
      show (calls.map Prod.snd ++ []).Sublist _
      rw [List.append_nil]
      exact (List.sublist_append_left _ _).trans hsub
    · intro c' hc' hnone
      obtain ⟨hsame, -⟩ := h.registered c' hc' hnone
      rw [hc] at hsame
      cases hsame
  | leave c r hphase =>
    rw [Option.toList_none, List.append_nil]
    have hpending : t.phase.pending = none := by rw [hphase]; rfl
    exact h.silent rfl rfl rfl hpending.symm nofun rfl

/-- **The reports of a run**: since a state in which the thread is in its loop, the page has shown
the last report, no report was made twice or out of order, and a callback that stayed registered was
called with all of them. -/
theorem reported (hs : s.phase = .idle) (h : Labelled.Runs (Step f) s ls t) : Reported f s ls t :=
  h.invariant (P := Reported f s) (.refl hs) fun _ _ _ _ h hstep => h.step hstep

/-! ## Frames on the link -/

/-- The events of a port that brings bytes. -/
def brings (bytes : List UInt8) : List (SliderLabel γ) := bytes.map .byte

/-- What is reported for a piece of the byte stream on the link. -/
def itemReport (f : SliderReports l ρ) : LinkItem → Option ρ
  | .frame cmd payload _ _ => f.report ⟨cmd, payload⟩
  | .cut _ _ _ _ _ => none

/-- The reports for bytes are those for the answers of the decoder. -/
lemma feed_brings {p p' : SliderParser} {bytes : List UInt8} {os : List (Option SliderPacket)}
    (h : p.pushAll bytes = .ok (os, p')) (rs : List ρ) :
    (brings bytes : List (SliderLabel γ)).foldl f.feed (p, rs) =
      (p', rs ++ os.filterMap fun o => o.bind f.report) := by
  induction bytes generalizing p os rs with
  | nil =>
    cases h
    simp [brings]
  | cons b bytes ih =>
    simp only [SliderParser.pushAll, Slice.bind_eq_ok, Prod.exists] at h
    obtain ⟨o, p₁, hpush, os₁, p₂, hbytes, heq⟩ := h
    cases heq
    have hfeed : f.feed (γ := γ) (p, rs) (.byte b) = (p₁, rs ++ (o.bind f.report).toList) := by
      simp only [SliderReports.feed, hpush]
    rw [brings, List.map_cons, List.foldl_cons, hfeed, ← brings, ih hbytes]
    cases hreport : o.bind f.report <;> simp [hreport]

/-- The answers of a piece report what it reports. -/
lemma filterMap_answers (item : LinkItem) :
    item.answers.filterMap (fun o => o.bind f.report) = (itemReport f item).toList := by
  cases item with
  | frame cmd payload hlen noise =>
    simp only [LinkItem.answers, List.filterMap_append, itemReport]
    cases hreport : f.report ⟨cmd, payload⟩ <;>
      simp [hreport, List.filterMap_replicate_of_none]
  | cut cmd payload hlen k hk => simp [LinkItem.answers, itemReport]

/-- The reports for pieces of the stream are those for its frames. -/
lemma filterMap_items (items : List LinkItem) :
    (items.flatMap LinkItem.answers).filterMap (fun o => o.bind f.report) =
      items.filterMap (itemReport f) := by
  induction items with
  | nil => rfl
  | cons item items ih =>
    rw [List.flatMap_cons, List.filterMap_append, filterMap_answers, ih]
    cases hreport : itemReport f item <;> simp [hreport]

/-- **Escaped frames are reported**, from every state of the decoder: complete frames with noise
behind them, and frames that are cut anywhere.

**Proof sketch.** The receiver that the decoder refines answers each piece correctly from every
state (`LinkItem.run_flatMap_bytes`). -/
theorem reports_link {p : SliderParser} (hlen : p.len ≤ 128) (items : List LinkItem) :
    f.reports p (brings (items.flatMap LinkItem.bytes) : List (SliderLabel γ)) =
      items.filterMap (itemReport f) := by
  obtain ⟨os, p', hall, -, hrun⟩ := SliderParser.pushAll_spec hlen (items.flatMap LinkItem.bytes)
  have hos : os = items.flatMap LinkItem.answers := by
    have hanswers := congrArg Prod.snd hrun
    rw [LinkItem.run_flatMap_bytes] at hanswers
    exact hanswers.symm
  rw [SliderReports.reports, feed_brings hall, List.nil_append, hos, filterMap_items]

/-- The decoder stays in its buffer. -/
lemma feed_len {p : SliderParser} (hlen : p.len ≤ 128) (rs : List ρ)
    (ls : List (SliderLabel γ)) : (ls.foldl f.feed (p, rs)).1.len ≤ 128 := by
  induction ls generalizing p rs with
  | nil => exact hlen
  | cons e ls ih =>
    rw [List.foldl_cons]
    cases e with
    | byte b =>
      obtain ⟨o, p', hpush, hlen', -⟩ := SliderParser.push_spec hlen b
      simp only [SliderReports.feed, hpush]
      exact ih hlen' _
    | broken => exact ih hlen _
    | register c => exact ih hlen _

/-- **Frames reach the callback**: in every state of a run in which the thread is in its loop, the
frames that the port brings then are reported to a callback that stays registered, once and in
order.

**Proof sketch.** The callback is called with all reports (`reported`), and these are the ones of the
frames (`reports_link`). -/
theorem frames_reported {t₀ : τ} (ht₀ : l.parser t₀ = .default)
    (h₀ : Labelled.Runs (Step f) (init t₀) ls s) (hs : s.phase = .idle) {c : γ}
    (hc : s.callback = some c) {items : List LinkItem}
    (h : Labelled.Runs (Step f) s (brings (items.flatMap LinkItem.bytes)) t)
    (ht : t.phase = .idle) :
    t.calls = s.calls ++ (items.filterMap (itemReport f)).map (c, ·) := by
  have hlen : (l.parser s.thread).len ≤ 128 := by
    rw [← (reported rfl h₀).parser]
    refine feed_len ?_ [] ls
    show (l.parser t₀).len ≤ 128
    rw [ht₀]
    exact SliderParser.len_default
  have hnone (c' : Option γ) :
      SliderLabel.register c' ∉ (brings (items.flatMap LinkItem.bytes) : List (SliderLabel γ)) := by
    simp [brings]
  have hcalls := ((reported hs h).registered c hc hnone).2
  rw [ht, reports_link hlen] at hcalls
  simpa [ReportPhase.pending] using hcalls

/-! ## The system does what the thread does -/

/-- A report that is owed is made. -/
lemma exists_settle (s : SliderSystem τ γ ρ) (o : Option ρ) (hphase : s.phase = .ofReport o) :
    ∃ t, Labelled.Runs (Step f) s [] t ∧ t.thread = s.thread ∧ t.callback = s.callback ∧
      t.phase = .idle := by
  cases o with
  | none => exact ⟨s, .nil, rfl, rfl, hphase⟩
  | some r =>
    cases hc : s.callback with
    | none =>
      exact ⟨{ s with phase := .idle }, Labelled.Runs.nil.silent (.skip r hphase hc), rfl, hc, rfl⟩
    | some c =>
      have henter : Labelled.Runs (Step f) s []
          { s with phase := .running c r, calls := s.calls ++ [(c, r)] } :=
        Labelled.Runs.nil.silent (.enter c r hphase hc)
      exact ⟨_, henter.silent (.leave c r rfl), rfl, hc, rfl⟩

/-- A byte is pushed, and what it reports is reported. -/
lemma exists_byte (hs : s.phase = .idle) (hopen : l.isOpen s.thread = true) {b : UInt8} {x : τ}
    (hx : l.receive b s.thread = .ok x) :
    ∃ t, Labelled.Runs (Step f) s [.byte b] t ∧ t.thread = x ∧ t.callback = s.callback ∧
      t.phase = .idle := by
  obtain ⟨t, hrun, hthread, hcallback, hphase⟩ := exists_settle (f := f)
    { s with thread := x, phase := .ofReport (f.reportOf s.thread b) } _ rfl
  exact ⟨t, (Labelled.Runs.single (.byte b x hs hopen hx)).append hrun, hthread, hcallback, hphase⟩

/-- The thread can push whatever bytes the port brings. -/
lemma exists_brings (hs : s.phase = .idle) (hopen : l.isOpen s.thread = true)
    (hlen : (l.parser s.thread).len ≤ 128) (bytes : List UInt8) :
    ∃ t, Labelled.Runs (Step f) s (brings bytes) t ∧ t.callback = s.callback ∧
      t.phase = .idle := by
  induction bytes generalizing s with
  | nil => exact ⟨s, .nil, rfl, hs⟩
  | cons b bytes ih =>
    obtain ⟨x, hx⟩ := l.exists_receive hlen b
    obtain ⟨hopen', o, hpush⟩ := l.receive_frame hx
    obtain ⟨t, hrun, hthread, hcallback, hphase⟩ := exists_byte (f := f) hs hopen hx
    have hlen' : (l.parser t.thread).len ≤ 128 := by
      obtain ⟨o', p', hpush', hp', -⟩ := SliderParser.push_spec hlen b
      rw [hpush'] at hpush
      cases hpush
      rw [hthread]
      exact hp'
    obtain ⟨u, hrun', hcallback', hphase'⟩ := ih hphase (by rw [hthread, hopen', hopen]) hlen'
    exact ⟨u, hrun.append hrun', hcallback'.trans hcallback, hphase'⟩

/-- **The actions of a thread are steps of the system**: for each run of them there is one of the
system that ends in the same state of the thread.

**Proof sketch.** Induction on the actions; behind a byte or a broken connection the report is
made. -/
theorem exists_runs (hs : s.phase = .idle) {actions : List (SliderAction κ ι)} {x : τ}
    (h : Run.exec l.act s.thread actions = .ok x) :
    ∃ ls t, Labelled.Runs (Step f) s ls t ∧ t.thread = x ∧ t.phase = .idle := by
  induction actions generalizing s with
  | nil => exact ⟨[], s, .nil, Except.ok.inj h, hs⟩
  | cons a actions ih =>
    obtain ⟨y, hy, hrest⟩ := (Run.exec_cons_eq_ok _).mp h
    have hact : ∃ ls t, Labelled.Runs (Step f) s ls t ∧ t.thread = y ∧ t.phase = .idle := by
      cases a with
      | call k =>
        refine ⟨[], { s with thread := y }, ?_, rfl, hs⟩
        obtain rfl : l.call k s.thread = y := Except.ok.inj hy
        exact Labelled.Runs.nil.silent (.call k)
      | connect =>
        cases hopen : l.isOpen s.thread with
        | true =>
          refine ⟨[], s, .nil, ?_, hs⟩
          simpa [SliderLoop.act, hopen] using hy
        | false =>
          refine ⟨[], { s with thread := y }, ?_, rfl, hs⟩
          obtain rfl : l.connect s.thread = y := by simpa [SliderLoop.act, hopen] using hy
          exact Labelled.Runs.nil.silent (.connect hs hopen)
      | serve i =>
        cases hopen : l.isOpen s.thread with
        | true =>
          refine ⟨[], { s with thread := y }, ?_, rfl, hs⟩
          obtain rfl : l.serve i s.thread = y := by simpa [SliderLoop.act, hopen] using hy
          exact Labelled.Runs.nil.silent (.serve i hs hopen)
        | false =>
          refine ⟨[], s, .nil, ?_, hs⟩
          simpa [SliderLoop.act, hopen] using hy
      | byte b =>
        cases hopen : l.isOpen s.thread with
        | true =>
          have hx : l.receive b s.thread = .ok y := by simpa [SliderLoop.act, hopen] using hy
          obtain ⟨t, hrun, hthread, -, hphase⟩ := exists_byte (f := f) hs hopen hx
          exact ⟨[.byte b], t, hrun, hthread, hphase⟩
        | false =>
          refine ⟨[], s, .nil, ?_, hs⟩
          simpa [SliderLoop.act, hopen] using hy
      | close =>
        cases hopen : l.isOpen s.thread with
        | true =>
          obtain ⟨t, hrun, hthread, -, hphase⟩ := exists_settle (f := f)
            { s with thread := l.close s.thread, phase := .owed f.blank } (some f.blank) rfl
          refine ⟨[.broken], t, (Labelled.Runs.single (.broken hs hopen)).append hrun, ?_, hphase⟩
          rw [hthread]
          simpa [SliderLoop.act, hopen] using hy
        | false =>
          refine ⟨[], s, .nil, ?_, hs⟩
          simpa [SliderLoop.act, hopen] using hy
    obtain ⟨ls, t, hrun, hthread, hphase⟩ := hact
    obtain ⟨ls', u, hrun', hthread', hphase'⟩ := ih hphase (hthread ▸ hrest)
    exact ⟨ls ++ ls', u, hrun.append hrun', hthread', hphase'⟩

end SliderSystem

end Affine
