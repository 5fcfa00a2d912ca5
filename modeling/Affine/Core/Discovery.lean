import Affine.Core.ComName
import Affine.Core.HwId

set_option relaxedAutoImplicit false
set_option autoImplicit false

/-!
# The search for a serial port

`find_com_port` (`affine-core/src/serial.rs`) and `find_any` (`affine-core/src/slider.rs`), which
look for the board with a product number among the serial ports of the system. The setup API
enumerates them; it may fail for each of them at every call, and the search goes on behind it.

## Main definitions

* `Affine.SetupDevice`, `Affine.SetupAnswer` — what the setup API tells of a port.
* `Affine.findComPort`, `Affine.findAny` — the source.
* `Affine.PortEntry`, `Affine.Lists` — a port as the registry has it, and a setup API that lists such
  ports.

## Main results

* `Affine.find_com_port_first` — what the search returns, whatever the setup API answers.
* `Affine.find_any_plugged` — what is found among the ports of the registry.
-/

namespace Affine

open Slice (Exec Flow)

/-! ## The setup API -/

/-- The properties of a device that the source asks for. -/
inductive DeviceProperty
  | hardwareId
  | friendlyName

/-- What the setup API tells of a port: how many bytes the details of its interface take, whether it
gives them, and the bytes of a property, if they fit into a buffer of a size. -/
structure SetupDevice where
  required : UInt32
  detail : Bool
  property : DeviceProperty → ℕ → Option (List UInt8)
  property_le : ∀ p size bytes, property p size = some bytes → bytes.length ≤ size

/-- What `SetupDiEnumDeviceInterfaces` answers for an index. -/
inductive SetupAnswer
  | device (d : SetupDevice)
  | error (code : UInt32)

def errorNoMoreItems : UInt32 := 259

/-- `size_of::<SP_DEVICE_INTERFACE_DETAIL_DATA_W>()`, as the bytes of a `u32`. -/
def interfaceDetailSize : List UInt8 := [8, 0, 0, 0]

/-- A buffer of zeros behind `SetupDiGetDeviceRegistryPropertyW`. -/
def SetupDevice.buffer (d : SetupDevice) (p : DeviceProperty) (size : ℕ) : Option (List UInt8) :=
  (d.property p size).map fun bytes => bytes ++ List.replicate (size - bytes.length) 0

/-! ## The source -/

/-- The body of the loop of `find_com_port`, which goes on at the next index. The buffer for the
details is as long as the setup API asks for; the store of its `cbSize`, which goes through a
pointer, is a fault where it leaves the buffer. -/
def findComPortBody (enum : UInt32 → SetupAnswer) (vid pid : UInt16) (index : UInt32) :
    Exec (Flow UInt32 (Option (List Char))) :=
  match enum index with
  | .error code =>
    if code = errorNoMoreItems then return .ret none else return .again (index + 1)
  | .device d =>
    if d.required = 0 then return .again (index + 1)
    else do
      let _ ← Slice.write (List.replicate d.required.toNat 0) 0 interfaceDetailSize
      if d.detail then
        match d.buffer .hardwareId 512 with
        | none => return .again (index + 1)
        | some hwid =>
          if ← matchHwid hwid vid pid then
            match d.buffer .friendlyName 256 with
            | none => return .again (index + 1)
            | some friendly =>
              match parseComName friendly with
              | some found => return .ret (some found)
              | none => return .again (index + 1)
          else return .again (index + 1)
      else return .again (index + 1)

/-- `find_com_port`, if `SetupDiGetClassDevsW` gives a list of ports. -/
def findComPort (fuel : ℕ) (info : Option (UInt32 → SetupAnswer)) (vid pid : UInt16) :
    Exec (Option (List Char)) :=
  match info with
  | none => return none
  | some enum => Slice.iterate (findComPortBody enum vid pid) fuel 0

/-- `find_any`, for product numbers with the list of ports at each of them. -/
def findAny (fuel : ℕ) (vid : UInt16) :
    List (UInt16 × Option (UInt32 → SetupAnswer)) → Exec (Option (UInt16 × List Char))
  | [] => return none
  | (pid, info) :: pids => do
    match ← findComPort fuel info vid pid with
    | some path => return some (pid, path)
    | none => findAny fuel vid pids

/-! ## What the search returns -/

/-- A port answers with both numbers and with a name that has a path. -/
def SetupDevice.Answers (d : SetupDevice) (vid pid : UInt16) (path : List Char) : Prop :=
  4 ≤ d.required.toNat ∧ d.detail = true ∧
    (∃ hwid, d.buffer .hardwareId 512 = some hwid ∧
      ∃ s ∈ MultiString.parse 0 (Utf16.ofLeBytes hwid), HasMarkers vid pid s) ∧
    ∃ friendly, d.buffer .friendlyName 256 = some friendly ∧ parseComName friendly = some path

/-- The details of a port take so few bytes that the store of `cbSize` leaves their buffer. -/
def SetupDevice.Overruns (d : SetupDevice) : Prop := 0 < d.required.toNat ∧ d.required.toNat < 4

/-- The search ends at an answer, with this result or fault. -/
def SetupAnswer.Ends (vid pid : UInt16) : SetupAnswer → Exec (Option (List Char)) → Prop
  | error code, .ok none => code = errorNoMoreItems
  | device d, .ok (some path) => d.Answers vid pid path
  | device d, .error e => d.Overruns ∧ e = .range
  | _, _ => False

/-- Where the loop ends, and with what. -/
def searchStop (enum : UInt32 → SetupAnswer) (vid pid : UInt16) (index : UInt32) :
    Option (Exec (Option (List Char))) :=
  match findComPortBody enum vid pid index with
  | .ok (.ret r) => some (.ok r)
  | .ok (.again _) => none
  | .error e => some (.error e)

/-- The store of `cbSize` stays in the buffer if that has four bytes. -/
lemma write_detail (required : UInt32) :
    (4 ≤ required.toNat ∧ ∃ buf,
      Slice.write (List.replicate required.toNat 0) 0 interfaceDetailSize = .ok buf) ∨
    (required.toNat < 4 ∧
      Slice.write (List.replicate required.toNat 0) 0 interfaceDetailSize = .error .range) := by
  have hlength : interfaceDetailSize.length = 4 := rfl
  simp only [Slice.write, hlength, List.length_replicate, Nat.zero_add]
  by_cases hfits : 4 ≤ required.toNat
  · exact .inl ⟨hfits, _, if_pos hfits⟩
  · exact .inr ⟨not_le.mp hfits, if_neg hfits⟩

/-- A pass of the loop ends with what the answer for its index gives, or goes on at the next one.

**Proof sketch.** Case by case; the store of `cbSize` is the only operation that can fault
(`write_detail`), and `match_hwid` finds strings of the list (`matchHwid_spec`). -/
lemma findComPortBody_spec (enum : UInt32 → SetupAnswer) (vid pid : UInt16) (index : UInt32) :
    (∃ x, findComPortBody enum vid pid index = Slice.searchPass (some x) (index + 1) ∧
        (enum index).Ends vid pid x) ∨
      (findComPortBody enum vid pid index = .ok (.again (index + 1)) ∧
        ∀ x, ¬ (enum index).Ends vid pid x) := by
  unfold findComPortBody
  cases henum : enum index with
  | error code =>
    by_cases hcode : code = errorNoMoreItems
    · exact .inl ⟨.ok none, if_pos hcode, hcode⟩
    · refine .inr ⟨if_neg hcode, ?_⟩
      rintro (e | _ | path) hends
      · exact hends
      · exact hcode hends
      · exact hends
  | device d =>
    dsimp only
    by_cases hrequired : d.required = 0
    · refine .inr ⟨if_pos hrequired, ?_⟩
      have hzero : d.required.toNat = 0 := by rw [hrequired]; rfl
      rintro (e | _ | path) hends
      · exact absurd hends.1.1 (by omega)
      · exact hends
      · exact absurd hends.1 (by omega)
    have hpos : 0 < d.required.toNat := by
      rw [Nat.pos_iff_ne_zero, ← UInt32.toNat_zero, Ne, UInt32.toNat_inj]
      exact hrequired
    rw [if_neg hrequired]
    rcases write_detail d.required with ⟨hfits, buf, hwrite⟩ | ⟨hshort, hwrite⟩
    · -- nothing ends the search at a port that does not answer with a path
      have hskip (h : ∀ path, ¬ d.Answers vid pid path) (x : Exec (Option (List Char))) :
          ¬ SetupAnswer.Ends vid pid (.device d) x := by
        rcases x with e | _ | path
        · exact fun hends => absurd hends.1.2 (by omega)
        · exact id
        · exact h path
      rw [hwrite, Slice.ok_bind]
      cases hdetail : d.detail with
      | false => exact .inr ⟨rfl, hskip fun path h => absurd (hdetail.symm.trans h.2.1) (by decide)⟩
      | true =>
        rw [if_pos rfl]
        cases hhwid : d.buffer .hardwareId 512 with
        | none =>
          refine .inr ⟨rfl, hskip ?_⟩
          rintro path ⟨-, -, ⟨hwid, hsome, -⟩, -⟩
          rw [hhwid] at hsome
          cases hsome
        | some hwid =>
          obtain ⟨found, hfound, hiff⟩ := matchHwid_spec hwid vid pid
          dsimp only
          rw [hfound, Slice.ok_bind]
          cases found with
          | false =>
            refine .inr ⟨rfl, hskip ?_⟩
            rintro path ⟨-, -, ⟨hwid', hsome, hmarkers⟩, -⟩
            obtain rfl : hwid = hwid' := Option.some.inj (hhwid.symm.trans hsome)
            exact absurd (hiff.mpr hmarkers) (by decide)
          | true =>
            rw [if_pos rfl]
            cases hfriendly : d.buffer .friendlyName 256 with
            | none =>
              refine .inr ⟨rfl, hskip ?_⟩
              rintro path ⟨-, -, -, friendly, hsome, -⟩
              rw [hfriendly] at hsome
              cases hsome
            | some friendly =>
              dsimp only
              cases hparse : parseComName friendly with
              | none =>
                refine .inr ⟨rfl, hskip ?_⟩
                rintro path ⟨-, -, -, friendly', hsome, hpath⟩
                obtain rfl : friendly = friendly' := Option.some.inj (hfriendly.symm.trans hsome)
                rw [hparse] at hpath
                cases hpath
              | some path =>
                exact .inl ⟨.ok (some path), rfl, hfits, hdetail, ⟨hwid, hhwid, hiff.mp rfl⟩,
                  friendly, hfriendly, hparse⟩
    · rw [hwrite]
      exact .inl ⟨.error .range, rfl, ⟨hpos, hshort⟩, rfl⟩

/-- The body is a pass of a search. -/
lemma findComPortBody_eq (enum : UInt32 → SetupAnswer) (vid pid : UInt16) (index : UInt32) :
    findComPortBody enum vid pid index =
      Slice.searchPass (searchStop enum vid pid index) (index + 1) := by
  unfold searchStop
  rcases findComPortBody_spec enum vid pid index with ⟨e | r, hbody, -⟩ | ⟨hbody, -⟩ <;>
    rw [hbody] <;> rfl

/-- An answer ends the search in one way.

**Proof sketch.** The cases are the answers, and the two ways to end. -/
lemma SetupAnswer.Ends.unique {vid pid : UInt16} {answer : SetupAnswer}
    {x x' : Exec (Option (List Char))} (h : answer.Ends vid pid x) (h' : answer.Ends vid pid x') :
    x = x' := by
  cases answer with
  | error code =>
    rcases x with e | _ | path <;> rcases x' with e' | _ | path' <;>
      first | rfl | exact h.elim | exact h'.elim
  | device d =>
    rcases x with e | _ | path
    · rcases x' with e' | _ | path'
      · rw [h.2, h'.2]
      · exact h'.elim
      · exact absurd h'.1 (not_le.mpr h.1.2)
    · exact h.elim
    · rcases x' with e' | _ | path'
      · exact absurd h.1 (not_le.mpr h'.1.2)
      · exact h'.elim
      · obtain ⟨-, -, -, friendly, hfriendly, hpath⟩ := h
        obtain ⟨-, -, -, friendly', hfriendly', hpath'⟩ := h'
        obtain rfl : friendly = friendly' := Option.some.inj (hfriendly.symm.trans hfriendly')
        rw [hpath.symm.trans hpath']

/-- The loop ends at an index as the answer for it says. -/
lemma searchStop_eq_some {enum : UInt32 → SetupAnswer} {vid pid : UInt16} {index : UInt32}
    {x : Exec (Option (List Char))} :
    searchStop enum vid pid index = some x ↔ (enum index).Ends vid pid x := by
  unfold searchStop
  rcases findComPortBody_spec enum vid pid index with ⟨x', hbody, hends⟩ | ⟨hbody, hends⟩
  · have hstop : (match findComPortBody enum vid pid index with
        | .ok (.ret r) => some (.ok r)
        | .ok (.again _) => none
        | .error e => some (.error e)) = some x' := by
      rw [hbody]
      cases x' <;> rfl
    rw [hstop]
    constructor
    · rintro ⟨⟩
      exact hends
    · intro h
      rw [hends.unique h]
  · rw [hbody]
    simp [hends x]

/-- The loop goes on at an index where the answer does not end it. -/
lemma searchStop_eq_none {enum : UInt32 → SetupAnswer} {vid pid : UInt16} {index : UInt32} :
    searchStop enum vid pid index = none ↔ ∀ x, ¬ (enum index).Ends vid pid x := by
  simp only [Option.eq_none_iff_forall_ne_some, ne_eq, searchStop_eq_some]

/-- The index after `k` passes. -/
lemma iterate_succ (k : ℕ) : (fun index : UInt32 => index + 1)^[k] 0 = UInt32.ofNat k := by
  induction k with
  | zero => rfl
  | succ k ih => rw [Function.iterate_succ_apply', ih, UInt32.ofNat_add]; rfl

/-- What the search comes to is what the first index gives at which an answer ends it. -/
lemma findComPort_iff {enum : UInt32 → SetupAnswer} {vid pid : UInt16} {fuel : ℕ}
    {x : Exec (Option (List Char))} (hx : x ≠ .error .fuel) :
    findComPort fuel (some enum) vid pid = x ↔ ∃ k < fuel, (enum (UInt32.ofNat k)).Ends vid pid x ∧
      ∀ j < k, ∀ x', ¬ (enum (UInt32.ofNat j)).Ends vid pid x' := by
  simp only [findComPort, Slice.iterate_search_iff (findComPortBody_eq enum vid pid) hx,
    iterate_succ, searchStop_eq_some, searchStop_eq_none]

/-- **The search returns the first port that answers**: for whatever the setup API answers,
`find_com_port` comes to what the first index gives at which a port answers with both numbers and a
name that has a path, at which there are no more ports, or at which the details of a port take one to
three bytes, where it stores outside of their buffer. It passes over every error and every other port,
and does not return if no index is like that. So it has no fault if the setup API asks for room for
the structure that it fills.

**Proof sketch.** A pass ends or goes on as the answer for its index says
(`findComPortBody_spec`), so the loop is a search (`Slice.iterate_search_iff`). -/
theorem find_com_port_first (info : Option (UInt32 → SetupAnswer)) (vid pid : UInt16) :
    (∀ x, x ≠ .error .fuel → ((∃ fuel, findComPort fuel info vid pid = x) ↔
      (info = none ∧ x = .ok none) ∨ ∃ enum, info = some enum ∧ ∃ k : ℕ,
        (enum (UInt32.ofNat k)).Ends vid pid x ∧
          ∀ j < k, ∀ x', ¬ (enum (UInt32.ofNat j)).Ends vid pid x')) ∧
      ((∀ enum index d, info = some enum → enum index = .device d → ¬ d.Overruns) →
        ∀ fuel e, findComPort fuel info vid pid = .error e → e = .fuel) := by
  cases info with
  | none =>
    refine ⟨fun x hx => ?_, fun _ fuel e h => by cases h⟩
    simp [findComPort, eq_comm]
  | some enum =>
    refine ⟨fun x hx => ?_, fun hfits fuel e h => ?_⟩
    · simp only [findComPort_iff hx]
      constructor
      · rintro ⟨fuel, k, -, hk⟩
        exact .inr ⟨enum, rfl, k, hk⟩
      · rintro (⟨hnone, -⟩ | ⟨enum', henum, k, hk⟩)
        · cases hnone
        · obtain rfl := Option.some.inj henum
          exact ⟨k + 1, k, by omega, hk⟩
    · by_contra hne
      obtain ⟨k, -, hends, -⟩ := (findComPort_iff (by simpa using hne)).mp h
      cases henum : enum (UInt32.ofNat k) with
      | error code =>
        rw [henum] at hends
        exact hends
      | device d =>
        rw [henum] at hends
        exact hfits enum _ d rfl henum hends.1

/-- The setup API asks for two bytes, and `find_com_port` stores four; without ports there is no
fault. -/
theorem find_com_port_first_overrun :
    (∃ fuel, findComPort fuel (some fun _ => .device ⟨2, true, fun _ _ => none, nofun⟩) 0x0CA3
        0x0021 = .error .range) ∧
      ∀ fuel e, findComPort fuel (some fun _ => .error errorNoMoreItems) 0x0CA3 0x0021 = .error e →
        e = .fuel := by
  constructor
  · refine ((find_com_port_first _ _ _).1 _ (by decide)).mpr (.inr ⟨_, rfl, 0, ?_, nofun⟩)
    exact ⟨⟨by decide, by decide⟩, rfl⟩
  · refine (find_com_port_first _ _ _).2 fun enum index d henum hd => ?_
    obtain rfl := Option.some.inj henum
    cases hd

/-! ## The ports of the registry -/

/-- A serial port as the registry has it: its hardware IDs, and the description and the number in its
name. -/
structure PortEntry where
  ids : List (List UInt16)
  description : List Char
  number : List Char
  ids_ok : ∀ s ∈ ids, s ≠ [] ∧ 0 ∉ s
  description_ok : Char.ofNat 0 ∉ description
  number_ok : ∀ c ∈ number, c.isDigit

namespace PortEntry

/-- The bytes of a property. -/
def registry (e : PortEntry) : DeviceProperty → List UInt8
  | .hardwareId => Utf16.leBytes (MultiString.encode 0 e.ids ++ [0])
  | .friendlyName => friendlyBytes e.description e.number []

/-- The path of the port. -/
def path (e : PortEntry) : List Char := devicePrefix ++ com ++ e.number

/-- The port has one hardware ID with both numbers, and its properties fit into the buffers. -/
def Found (e : PortEntry) (vid pid : UInt16) : Prop :=
  (e.registry .hardwareId).length ≤ 512 ∧ (∃ s ∈ e.ids, HasMarkers vid pid s) ∧
    (e.registry .friendlyName).length ≤ 256

instance (e : PortEntry) (vid pid : UInt16) : Decidable (e.Found vid pid) :=
  inferInstanceAs (Decidable (_ ∧ (∃ s ∈ e.ids, _ ∧ _) ∧ _))

end PortEntry

/-- The setup API shows the port: it asks for room for the details, which take their structure at
least, and a property that does not fit into the buffer is an error. -/
def SetupDevice.Shows (d : SetupDevice) (e : PortEntry) : Prop :=
  8 ≤ d.required.toNat ∧ d.detail = true ∧ ∀ p size,
    d.property p size = if (e.registry p).length ≤ size then some (e.registry p) else none

/-- The setup API fails at the port: it does not say how much room it needs, or refuses the details or
a property. -/
def SetupDevice.Fails (d : SetupDevice) : Prop :=
  d.required = 0 ∨ 8 ≤ d.required.toNat ∧
    (d.detail = false ∨ ∃ p, ∀ size, d.property p size = none)

/-- The setup API shows the port, or fails at it. -/
def SetupAnswer.Shows : SetupAnswer → Option PortEntry → Prop
  | device d, some e => d.Shows e
  | device d, none => d.Fails
  | error code, e => e = none ∧ code ≠ errorNoMoreItems

/-- The setup API lists the ports of a table, in its order, and fails at some of them. -/
def Lists (enum : UInt32 → SetupAnswer) (table : List (Option PortEntry)) : Prop :=
  (∀ k (hk : k < table.length), (enum (UInt32.ofNat k)).Shows table[k]) ∧
    enum (UInt32.ofNat table.length) = .error errorNoMoreItems

/-- The path of an entry that is found. -/
def foundPath (vid pid : UInt16) (e : Option PortEntry) : Option (List Char) :=
  e.bind fun e => if e.Found vid pid then some e.path else none

/-- What the first port of a table that is found has as its path. -/
def firstFound (table : List (Option PortEntry)) (vid pid : UInt16) : Option (List Char) :=
  table.findSome? (foundPath vid pid)

/-- The name of a port without the text `COM` in its description. -/
lemma parseComName_entry (e : PortEntry) (h : ¬ com <:+: e.description) (behind : List UInt8) :
    parseComName (e.registry .friendlyName ++ behind) = some e.path := by
  have halnum : ∀ c ∈ e.number, c.isAlphanum :=
    fun c hc => by simp [Char.isAlphanum, e.number_ok c hc]
  have hnul : Char.ofNat 0 ∉ friendlyName e.description e.number := by
    have hzero : Char.ofNat 0 ∉ e.number := fun hmem => absurd (e.number_ok _ hmem) (by decide)
    simp [friendlyName, com, e.description_ok, hzero]
  have hname : friendlyName e.description e.number =
      e.description ++ [' ', '('] ++ com ++ (e.number ++ [')']) := by
    simp [friendlyName]
  have hbytes : e.registry .friendlyName ++ behind =
      friendlyBytes e.description e.number behind := by
    simp [PortEntry.registry, friendlyBytes]
  rw [hbytes, parseComName_of_first hnul behind hname (not_infix_open h),
    (takeWhile_eq_iff halnum).mpr ⟨[')'], rfl, by simp⟩, PortEntry.path]

/-- A device that shows an entry fills a buffer with a value of the registry that fits into it. -/
lemma SetupDevice.Shows.buffer {d : SetupDevice} {e : PortEntry} (h : d.Shows e)
    (p : DeviceProperty) (size : ℕ) : d.buffer p size =
      if (e.registry p).length ≤ size then
        some (e.registry p ++ List.replicate (size - (e.registry p).length) 0)
      else none := by
  rw [SetupDevice.buffer, h.2.2]
  split <;> rfl

/-- A port that is shown answers if it is found, with its path. -/
lemma SetupDevice.Shows.answers_iff {d : SetupDevice} {e : PortEntry} (h : d.Shows e)
    (hcom : ¬ com <:+: e.description) (vid pid : UInt16) (path : List Char) :
    d.Answers vid pid path ↔ e.Found vid pid ∧ path = e.path := by
  have hids (behind : List UInt8) :
      MultiString.parse 0 (Utf16.ofLeBytes (e.registry .hardwareId ++ behind)) = e.ids := by
    rw [PortEntry.registry, Utf16.ofLeBytes_leBytes_append, List.append_assoc,
      List.singleton_append, MultiString.parse_terminated e.ids_ok]
  simp only [SetupDevice.Answers, h.buffer, PortEntry.Found]
  constructor
  · rintro ⟨-, -, ⟨hwid, hhwid, hmarkers⟩, friendly, hfriendly, hpath⟩
    have hidsFit := (Option.ite_none_right_eq_some.mp hhwid).1
    have hnameFit := (Option.ite_none_right_eq_some.mp hfriendly).1
    obtain rfl := Option.some.inj (Option.ite_none_right_eq_some.mp hhwid).2
    obtain rfl := Option.some.inj (Option.ite_none_right_eq_some.mp hfriendly).2
    rw [hids] at hmarkers
    rw [parseComName_entry e hcom] at hpath
    exact ⟨⟨hidsFit, hmarkers, hnameFit⟩, (Option.some.inj hpath).symm⟩
  · rintro ⟨⟨hidsFit, hmarkers, hnameFit⟩, rfl⟩
    have hrequired := h.1
    refine ⟨by omega, h.2.1, ⟨_, if_pos hidsFit, ?_⟩, _, if_pos hnameFit, parseComName_entry e hcom _⟩
    rw [hids]
    exact hmarkers

/-- A port at which the setup API fails does not answer. -/
lemma SetupDevice.Fails.not_answers {d : SetupDevice} (h : d.Fails) (vid pid : UInt16)
    (path : List Char) : ¬ d.Answers vid pid path := by
  rintro ⟨hrequired, hdetail, ⟨hwid, hhwid, -⟩, friendly, hfriendly, -⟩
  rcases h with h | ⟨-, h | ⟨p, h⟩⟩
  · rw [h] at hrequired
    exact absurd hrequired (by decide)
  · rw [hdetail] at h
    cases h
  · cases p with
    | hardwareId => simp [SetupDevice.buffer, h] at hhwid
    | friendlyName => simp [SetupDevice.buffer, h] at hfriendly

/-- A port that is shown, or at which the setup API fails, has room for `cbSize`. -/
lemma SetupAnswer.Shows.not_overruns {d : SetupDevice} {e : Option PortEntry}
    (h : SetupAnswer.Shows (.device d) e) : ¬ d.Overruns := by
  rintro ⟨hpos, hshort⟩
  cases e with
  | some e =>
    have hrequired := (h : d.Shows e).1
    omega
  | none =>
    rcases (h : d.Fails) with hzero | ⟨hrequired, -⟩
    · rw [hzero] at hpos
      exact absurd hpos (by decide)
    · omega

/-- Where the search ends among the ports of a table.

**Proof sketch.** The cases are the answers, which show a port or none. -/
lemma SetupAnswer.Shows.ends_iff {answer : SetupAnswer} {e : Option PortEntry}
    (h : answer.Shows e) (hcom : ∀ e' ∈ e, ¬ com <:+: e'.description) (vid pid : UInt16)
    (x : Exec (Option (List Char))) :
    answer.Ends vid pid x ↔ ∃ path, foundPath vid pid e = some path ∧ x = .ok (some path) := by
  cases answer with
  | error code =>
    obtain ⟨rfl, hcode⟩ := h
    rcases x with e | _ | path <;> simp [SetupAnswer.Ends, foundPath, hcode]
  | device d =>
    rcases x with fault | _ | path
    · simp [SetupAnswer.Ends, h.not_overruns]
    · simp [SetupAnswer.Ends]
    · cases e with
      | none =>
        have hnot : ¬ d.Answers vid pid path := SetupDevice.Fails.not_answers h vid pid path
        simpa [SetupAnswer.Ends, foundPath] using hnot
      | some e =>
        have hshows : d.Shows e := h
        have hiff := hshows.answers_iff (hcom e rfl) vid pid path
        by_cases hfound : e.Found vid pid <;>
          simp [SetupAnswer.Ends, foundPath, hiff, hfound]

/-- The search among the ports of a table finds the first that is found.

**Proof sketch.** The entries in front of the first that is found are passed over, and behind the
last one the API has no more. -/
lemma findComPort_table {enum : UInt32 → SetupAnswer} {table : List (Option PortEntry)}
    (hlists : Lists enum table) (hcom : ∀ e, some e ∈ table → ¬ com <:+: e.description)
    (vid pid : UInt16) {fuel : ℕ} (hfuel : table.length < fuel) :
    findComPort fuel (some enum) vid pid = .ok (firstFound table vid pid) := by
  have hentry (k : ℕ) (hk : k < table.length) (x : Exec (Option (List Char))) :
      (enum (UInt32.ofNat k)).Ends vid pid x ↔
        ∃ path, foundPath vid pid table[k] = some path ∧ x = .ok (some path) :=
    (hlists.1 k hk).ends_iff (fun e he => hcom e (he ▸ List.getElem_mem hk)) vid pid x
  have hpass (k : ℕ) (hk : k < table.length) (hnone : foundPath vid pid table[k] = none)
      (x : Exec (Option (List Char))) : ¬ (enum (UInt32.ofNat k)).Ends vid pid x := by
    simp [hentry k hk, hnone]
  refine (findComPort_iff (by simp)).mpr ?_
  cases hfirst : firstFound table vid pid with
  | none =>
    have hall := List.findSome?_eq_none_iff.mp hfirst
    refine ⟨table.length, hfuel, ?_, fun j hj => hpass j hj (hall _ (List.getElem_mem hj))⟩
    rw [hlists.2]
    rfl
  | some path =>
    obtain ⟨l₁, e, l₂, htable, hfound, hbefore⟩ := List.findSome?_eq_some_iff.mp hfirst
    have hlen : l₁.length < table.length := by simp [htable]
    refine ⟨l₁.length, by omega, ?_, fun j hj => hpass j (by omega) ?_⟩
    · rw [hentry _ hlen]
      exact ⟨path, by simpa [htable] using hfound, rfl⟩
    · refine hbefore _ ?_
      simp [htable, List.getElem_append_left hj]

/-- **The board that is plugged in is found**: among the ports of the registry, `find_any` returns
the first product number of its list that a port has, with the path of the first such port, in
whatever order the ports and other devices come, and if the setup API fails at some of them. It
misses exactly the ports whose hardware IDs take more than 512 bytes or whose name takes more than
256.

**Proof sketch.** A port is where the search ends exactly if it is found
(`SetupDevice.Shows.answers_iff`): the buffer of its hardware IDs is their list with zeros behind it,
and the first `COM` of its name stands in front of the number. -/
theorem find_any_plugged {enum : UInt32 → SetupAnswer} {table : List (Option PortEntry)}
    (hlists : Lists enum table) (hcom : ∀ e, some e ∈ table → ¬ com <:+: e.description)
    (vid : UInt16) (pids : List UInt16) {fuel : ℕ} (hfuel : table.length < fuel) :
    findAny fuel vid (pids.map fun pid => (pid, some enum)) =
      .ok (pids.findSome? fun pid => (firstFound table vid pid).map fun path => (pid, path)) := by
  induction pids with
  | nil => rfl
  | cons pid pids ih =>
    rw [List.map_cons, findAny, findComPort_table hlists hcom vid pid hfuel, Slice.ok_bind,
      List.findSome?_cons]
    cases firstFound table vid pid with
    | none => exact ih
    | some path => rfl

/-- A port with one hardware ID. -/
def usbPort : PortEntry where
  ids := [Utf16.encode (vidMarker 0x0CA3 ++ ['&'] ++ pidMarker 0x0021)]
  description := ['U', 'S', 'B']
  number := ['7']
  ids_ok := by decide
  description_ok := by decide
  number_ok := List.forall_mem_singleton.mpr rfl

/-- An error, a port, and no more of them. -/
def usbPortAnswers (index : UInt32) : SetupAnswer :=
  if index = 0 then .error 5
  else if index = 1 then
    .device
      { required := 8
        detail := true
        property := fun p size =>
          if (usbPort.registry p).length ≤ size then some (usbPort.registry p) else none
        property_le := by
          intro p size bytes h
          obtain ⟨hle, heq⟩ := Option.ite_none_right_eq_some.mp h
          exact Option.some.inj heq ▸ hle }
  else .error errorNoMoreItems

/-- The second product number is found behind an error. -/
theorem find_any_plugged_second :
    findAny 3 0x0CA3 [(0x0020, some usbPortAnswers), (0x0021, some usbPortAnswers)] =
      .ok (some (0x0021, devicePrefix ++ com ++ ['7'])) := by
  have hlists : Lists usbPortAnswers [none, some usbPort] := by
    refine ⟨fun k hk => ?_, rfl⟩
    match k, hk with
    | 0, _ => exact ⟨rfl, by decide⟩
    | 1, _ => exact ⟨by decide, rfl, fun _ _ => rfl⟩
  refine (find_any_plugged hlists ?_ 0x0CA3 [0x0020, 0x0021] (by decide)).trans ?_
  · intro e he
    obtain rfl : e = usbPort := by simpa using he
    decide
  · rfl

end Affine
