import Affine.Lib.MultiString
import Affine.Lib.Slice
import Affine.Lib.Utf16

set_option relaxedAutoImplicit false
set_option autoImplicit false

/-!
# The hardware IDs of a device

`match_hwid` (`affine-core/src/serial.rs`), which looks for a vendor and a product number in the
list of hardware IDs that Windows keeps for a device. The list is a multi-string of UTF-16 code
units. `match_hwid` scans it in place, and sees exactly its strings (`Affine.matchHwid_spec`).

## Main definitions

* `Affine.matchHwid` — the source.
* `Affine.HasMarkers` — a string contains both numbers.

## Main results

* `Affine.matchHwid_spec` — what is found in a buffer, without a fault and in finitely many passes.
* `Affine.matchHwid_list` — what is found in a list of hardware IDs, with the witness
  `Affine.matchHwid_list_found`.
-/

namespace Affine

open Slice (Exec Flow)

/-! ## The source -/

/-- A hexadecimal digit, in upper case. -/
def hexDigit (d : ℕ) : Char := Char.ofNat (if d < 10 then 0x30 + d else 0x37 + d)

/-- `{:04X}`. -/
def hex4 (n : UInt16) : List Char :=
  [hexDigit (n.toNat / 0x1000 % 16), hexDigit (n.toNat / 0x100 % 16),
    hexDigit (n.toNat / 0x10 % 16), hexDigit (n.toNat % 16)]

/-- `VID_{vid:04X}`. -/
def vidMarker (vid : UInt16) : List Char := ['V', 'I', 'D', '_'] ++ hex4 vid

/-- `PID_{pid:04X}`. -/
def pidMarker (pid : UInt16) : List Char := ['P', 'I', 'D', '_'] ++ hex4 pid

/-- The `end` of the string at `start`: the place of the next zero, or the end of the buffer. -/
def hwidEnd (wide : List UInt16) (start : ℕ) : Exec ℕ := do
  let tail ← Slice.range wide start wide.length
  match tail.findIdx? (· = 0) with
  | some offset => return start + offset
  | none => return wide.length

/-- The body of the loop of `match_hwid`, which goes on at the next `start`. -/
def matchHwidBody (wide : List UInt16) (vid pid : UInt16) (start : ℕ) : Exec (Slice.Flow ℕ Bool) :=
  if start < wide.length then do
    let stop ← hwidEnd wide start
    if stop = start then return .ret false
    else do
      let part := Utf16.decodeLossy (← Slice.range wide start stop)
      if vidMarker vid <:+: part ∧ pidMarker pid <:+: part then return .ret true
      else return .again (stop + 1)
  else return .ret false

/-- `match_hwid`. One pass more than there are code units would be a fault. -/
def matchHwid (raw : List UInt8) (vid pid : UInt16) : Exec Bool :=
  let wide := Utf16.ofLeBytes raw
  Slice.iterate (matchHwidBody wide vid pid) (wide.length + 1) 0

/-! ## Markers -/

/-- The code units of a string contain those of both markers. -/
def HasMarkers (vid pid : UInt16) (s : List UInt16) : Prop :=
  Utf16.encode (vidMarker vid) <:+: s ∧ Utf16.encode (pidMarker pid) <:+: s

/-- A hexadecimal digit is one code unit. -/
lemma hexDigit_lt {d : ℕ} (hd : d < 16) : (hexDigit d).toNat < 0xD800 := by
  rw [hexDigit, Utf16.toNat_ofNat (by split <;> omega)]
  split <;> omega

/-- The hexadecimal digits of a number are one code unit each. -/
lemma hex4_lt (n : UInt16) : ∀ c ∈ hex4 n, c.toNat < 0xD800 := by
  intro c hc
  simp only [hex4, List.mem_cons, List.not_mem_nil, or_false] at hc
  rcases hc with rfl | rfl | rfl | rfl <;> exact hexDigit_lt (Nat.mod_lt _ (by omega))

/-- The characters of the markers are code units of their own. -/
lemma marker_lt {pre : List Char} (hpre : ∀ c ∈ pre, c.toNat < 0xD800) (n : UInt16) :
    ∀ c ∈ pre ++ hex4 n, c.toNat < 0xD800 := by
  intro c hc
  rcases List.mem_append.mp hc with hc | hc
  · exact hpre c hc
  · exact hex4_lt n c hc

/-- The source looks for the markers in the decoded string. -/
lemma hasMarkers_iff (vid pid : UInt16) (s : List UInt16) :
    vidMarker vid <:+: Utf16.decodeLossy s ∧ pidMarker pid <:+: Utf16.decodeLossy s ↔
      HasMarkers vid pid s := by
  rw [vidMarker, pidMarker, Utf16.infix_decodeLossy_iff (marker_lt (by simp) vid),
    Utf16.infix_decodeLossy_iff (marker_lt (by simp) pid)]
  rfl

/-- The empty string has no markers. -/
lemma not_hasMarkers_nil (vid pid : UInt16) : ¬ HasMarkers vid pid [] := by
  rintro ⟨h, -⟩
  have hunits := List.infix_nil.mp h
  rw [vidMarker, Utf16.encode, List.flatMap_append, List.append_eq_nil_iff] at hunits
  exact absurd hunits.1 (by decide)

/-! ## The scan -/

/-- The end of the string at `start`: there is no string, or it is the next one of the list, and the
others follow behind its end.

**Proof sketch.** The string ends in front of the first zero, or it is the rest of the buffer
(`MultiString.findIdx?_nul`). -/
lemma hwidEnd_spec {wide : List UInt16} {start : ℕ} (hstart : start < wide.length) :
    ∃ stop, hwidEnd wide start = .ok stop ∧
      ((stop = start ∧ MultiString.parse 0 (wide.drop start) = []) ∨
        ∃ s, start < stop ∧ Slice.range wide start stop = .ok s ∧
          MultiString.parse 0 (wide.drop start) =
            s :: MultiString.parse 0 (wide.drop (stop + 1))) := by
  have htail : Slice.range wide start wide.length = .ok (wide.drop start) := by
    rw [Slice.range_eq_ok (by omega) le_rfl, List.take_length]
  have hlen : (wide.drop start).length = wide.length - start := List.length_drop
  rw [hwidEnd, htail, Slice.ok_bind]
  rcases MultiString.findIdx?_nul 0 (wide.drop start) with
    ⟨s, rest, hs, hnul, hfind⟩ | ⟨hnul, hfind⟩
  · refine ⟨start + s.length, by rw [hfind]; rfl, ?_⟩
    by_cases hne : s = []
    · subst hne
      exact .inl ⟨rfl, by rw [hs]; exact MultiString.parse_nul rest⟩
    have hpos : 0 < s.length := List.length_pos_of_ne_nil hne
    have hfit : start + s.length ≤ wide.length := by
      rw [hs, List.length_append, List.length_cons] at hlen
      omega
    refine .inr ⟨s, by omega, ?_, ?_⟩
    · rw [Slice.range_eq_ok (by omega) hfit, List.drop_take, hs, Nat.add_sub_cancel_left,
        List.take_left]
    · have hrest : wide.drop (start + s.length + 1) = rest := by
        rw [Nat.add_assoc, ← List.drop_drop, hs, ← List.drop_drop, List.drop_left]
        rfl
      rw [hrest, hs, MultiString.parse_cons hnul hne]
  · refine ⟨wide.length, by rw [hfind]; rfl, .inr ⟨wide.drop start, hstart, htail, ?_⟩⟩
    have hne : wide.drop start ≠ [] := by
      apply List.ne_nil_of_length_pos
      omega
    rw [MultiString.parse_last hnul hne, List.drop_of_length_le (Nat.le_succ _),
      MultiString.parse_nil]

/-- **The scan sees the strings of the list**, and nothing else: it returns without a fault, and
finds something exactly if one of the strings of the buffer contains both markers.

**Proof sketch.** The rule for loops, whose invariant says nothing and whose measure is the number
of code units left. A pass that goes on has seen the first of the strings left, which does not
contain both markers (`hwidEnd_spec`). -/
theorem matchHwid_spec (raw : List UInt8) (vid pid : UInt16) :
    ∃ found, matchHwid raw vid pid = .ok found ∧
      (found = true ↔
        ∃ s ∈ MultiString.parse 0 (Utf16.ofLeBytes raw), HasMarkers vid pid s) := by
  let left (start : ℕ) := MultiString.parse 0 ((Utf16.ofLeBytes raw).drop start)
  refine Slice.iterate_spec (I := fun _ => True)
    (Q := fun start found => found = true ↔ ∃ s ∈ left start, HasMarkers vid pid s)
    (fun start => (Utf16.ofLeBytes raw).length - start) (fun start _ => ?_) trivial (by omega)
  unfold matchHwidBody
  by_cases hstart : start < (Utf16.ofLeBytes raw).length
  swap
  · have hnone : left start = [] := by
      simp only [left]
      rw [List.drop_of_length_le (by omega), MultiString.parse_nil]
    rw [if_neg hstart]
    exact .inr ⟨false, rfl, by simp [hnone]⟩
  obtain ⟨stop, hstop, ⟨heq, hnone⟩ | ⟨s, hlt, hrange, hsome⟩⟩ := hwidEnd_spec hstart
  · rw [if_pos hstart, hstop, Slice.ok_bind, if_pos heq]
    exact .inr ⟨false, rfl, by simp [left, hnone]⟩
  rw [if_pos hstart, hstop, Slice.ok_bind, if_neg (by omega), hrange, Slice.ok_bind]
  have hleft : left start = s :: left (stop + 1) := hsome
  by_cases hmarkers : HasMarkers vid pid s
  · rw [if_pos ((hasMarkers_iff vid pid s).mpr hmarkers)]
    exact .inr ⟨true, rfl, by simp [hleft, hmarkers]⟩
  · rw [if_neg fun h => hmarkers ((hasMarkers_iff vid pid s).mp h)]
    refine .inl ⟨stop + 1, rfl, trivial, by omega, fun found h => ?_⟩
    rw [h, hleft]
    simp [hmarkers]

/-- **Hardware IDs are searched completely**: in a list of nonempty strings without zeros, each with
its terminator and the list closed by an empty string, whatever bytes follow, `match_hwid` finds
something exactly if a single string contains both markers. If the list is not closed, then the code
units behind the last terminator are one more string.

**Proof sketch.** The strings of the buffer are those of the list (`matchHwid_spec`,
`MultiString.parse_terminated`, `MultiString.parse_unterminated`). -/
theorem matchHwid_list (strings : List (List UInt16)) (vid pid : UInt16) :
    ((∀ s ∈ strings, s ≠ [] ∧ 0 ∉ s) →
      (∀ padding : List UInt8, ∃ found,
        matchHwid (Utf16.leBytes (MultiString.encode 0 strings ++ [0]) ++ padding) vid pid =
          .ok found ∧ (found = true ↔ ∃ s ∈ strings, HasMarkers vid pid s)) ∧
      ∀ (tail : List UInt16) (odd : List UInt8), 0 ∉ tail → odd.length ≤ 1 → ∃ found,
        matchHwid (Utf16.leBytes (MultiString.encode 0 strings ++ tail) ++ odd) vid pid =
          .ok found ∧ (found = true ↔ ∃ s ∈ strings ++ [tail], HasMarkers vid pid s)) ∧
      ∀ raw, ∃ found, matchHwid raw vid pid = .ok found := by
  refine ⟨fun hstrings => ⟨fun padding => ?_, fun tail odd htail hodd => ?_⟩, fun raw => ?_⟩
  · obtain ⟨found, hfound, hiff⟩ :=
      matchHwid_spec (Utf16.leBytes (MultiString.encode 0 strings ++ [0]) ++ padding) vid pid
    refine ⟨found, hfound, ?_⟩
    rw [hiff, Utf16.ofLeBytes_leBytes_append, List.append_assoc, List.singleton_append,
      MultiString.parse_terminated hstrings]
  · obtain ⟨found, hfound, hiff⟩ :=
      matchHwid_spec (Utf16.leBytes (MultiString.encode 0 strings ++ tail) ++ odd) vid pid
    refine ⟨found, hfound, ?_⟩
    have hnone : Utf16.ofLeBytes odd = [] := by
      match odd, hodd with
      | [], _ => rfl
      | [_], _ => rfl
    rw [hiff, Utf16.ofLeBytes_leBytes_append, hnone, List.append_nil]
    by_cases hne : tail = []
    · subst hne
      have hparse := MultiString.parse_encode_append hstrings []
      rw [MultiString.parse_nil, List.append_nil] at hparse
      simp [hparse, not_hasMarkers_nil]
    · rw [MultiString.parse_unterminated hstrings htail hne]
  · obtain ⟨found, hfound, -⟩ := matchHwid_spec raw vid pid
    exact ⟨found, hfound⟩

/-- An ID with both markers is found, and two IDs with one marker each are not, closed or not. -/
theorem matchHwid_list_found :
    let vidUnits := Utf16.encode (vidMarker 0x0CA3)
    let pidUnits := Utf16.encode (pidMarker 0x0021)
    matchHwid (Utf16.leBytes (MultiString.encode 0 [vidUnits ++ pidUnits] ++ [0]) ++ [])
        0x0CA3 0x0021 = .ok true ∧
      matchHwid (Utf16.leBytes (MultiString.encode 0 [vidUnits] ++ pidUnits) ++ [])
        0x0CA3 0x0021 = .ok false := by
  intro vidUnits pidUnits
  obtain ⟨found, hfound, hmarkers⟩ :=
    ((matchHwid_list [vidUnits ++ pidUnits] 0x0CA3 0x0021).1 (by decide)).1 []
  obtain ⟨found', hfound', hmarkers'⟩ :=
    ((matchHwid_list [vidUnits] 0x0CA3 0x0021).1 (by decide)).2 pidUnits [] (by decide) (by decide)
  have htrue : found = true := hmarkers.mpr ⟨_, List.mem_singleton_self _,
    (List.prefix_append ..).isInfix, (List.suffix_append ..).isInfix⟩
  have hnone : ¬ ∃ s ∈ [vidUnits] ++ [pidUnits], HasMarkers 0x0CA3 0x0021 s := by
    rintro ⟨s, hs, hvid, hpid⟩
    obtain rfl | rfl : s = vidUnits ∨ s = pidUnits := by simpa using hs
    · exact absurd hpid (by decide)
    · exact absurd hvid (by decide)
  have hfalse : found' = false := Bool.eq_false_iff.mpr fun h => hnone (hmarkers'.mp h)
  exact ⟨htrue ▸ hfound, hfalse ▸ hfound'⟩

end Affine
