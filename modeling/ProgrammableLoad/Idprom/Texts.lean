/-
# `Idprom.Texts` — the texts of the payload, and where they end

A definite text is handed out by libcbor as a pointer and a length, and the
prober makes a `std::string` of the pointer alone.  The string goes up to the
first zero byte: a text without one is read past its end, and a text with one
is cut off there.  So no text of any payload is taken down as it is.

`textExact_iff` says what is left: the payloads that are refused before a text
without a zero byte is come to, or a key of another width than 32 bits, and
those that have no text for the prober at all.
-/
import ProgrammableLoad.Idprom.Payload

namespace Idprom

open Cpp Cbor Cbor.Util Program LastWriter

/-! ## Reading texts -/

/-- What a constructor hands back to the prober: it returns, or it throws. -/
def throwing {ω : Type} (m : EStateM Exception ω Unit) : EStateM Fault ω Unit := fun w =>
  match m.run w with
  | .ok a w => .ok a w
  | .error e w => .error (.thrown e) w

def textEnv {ω : Type} (device : Device)
    (construct : DriverInfo → Item → EStateM Exception ω Unit) : Env ω :=
  ⟨cString, device, fun info value => throwing (construct info value)⟩

/-- The text that is meant for a member. -/
def textOf (pair : Item × Item) : Option (Member × List Byte) :=
  match pair with
  | (.uint .int32 k, .text data) =>
      ((IdpromKey.ofValue? k).bind IdpromKey.textMember?).map fun m => (m, data)
  | _ => none

/-- The entries of the map that an item is. -/
def entries : Item → List (Item × Item)
  | .map _ pairs => pairs
  | _ => []

/-! ## The property and the condition -/

/-- The call does nothing undefined, and if it returns then the members are the
texts that the item has for them. -/
structure TextExact {ω : Type} (env : Env ω) (cbor : Libcbor) (payload : List Byte) (item : Item)
    (s : Probulator ω) : Prop where
  defined : DefinedFrom (parseIdpromPayload env cbor payload) s
  exact : ∀ t, (parseIdpromPayload env cbor payload).run s = .ok () t →
    ∀ m data, lastOf m ((entries item).filterMap textOf) = some data → t.member m = some data

/-- Every entry that is come to has a key of 32 bits, if it is a number, and a
zero byte in its text; and if all entries and the drivers are accepted there is
no text. -/
structure WithinTexts {ω : Type} (env : Env ω) (s : Probulator ω) (pairs : List (Item × Item)) :
    Prop where
  width_eq : ∀ before pair after, pairs = before ++ pair :: after → Taken env s.hwSerial before →
    ∀ width k, pair.1 = .uint width k → width = .int32
  terminated : ∀ before pair after, pairs = before ++ pair :: after →
    Taken env s.hwSerial before → ∀ m data, textOf pair = some (m, data) → 0 ∈ data
  no_text : Taken env s.hwSerial pairs →
    (∃ w, (forM pairs (readDrivers env)).run s.world = .ok () w) →
    ∀ pair ∈ pairs, textOf pair = none

section Strings

variable {ω : Type} {device : Device} {construct : DriverInfo → Item → EStateM Exception ω Unit}
  {pair : Item × Item} {pairs : List (Item × Item)} {data : List Byte} {m : Member}
  {s : Probulator ω}

/-! ## Texts -/

theorem defined_cString_iff : Defined (cString data) ↔ 0 ∈ data := by
  unfold cString
  by_cases h : 0 ∈ data
  · rw [if_pos h]
    exact iff_of_true (defined_ok _) h
  · rw [if_neg h]
    exact iff_of_false (not_defined_undefined _) h

theorem cString_eq_ok_iff {str : List Byte} :
    cString data = .ok str ↔ 0 ∈ data ∧ str = data.takeWhile fun c => c ≠ 0 := by
  unfold cString
  by_cases h : 0 ∈ data
  · rw [if_pos h]
    constructor
    · intro hstr
      exact ⟨h, (Except.ok.inj hstr).symm⟩
    · rintro ⟨_, rfl⟩
      rfl
  · rw [if_neg h]
    exact iff_of_false nofun fun hstr => h hstr.1

/-- A text with a zero byte is cut off. -/
theorem takeWhile_ne_self (h : (0 : Byte) ∈ data) : (data.takeWhile fun c => c ≠ 0) ≠ data := by
  intro heq
  exact of_decide_eq_true (List.takeWhile_eq_self_iff.mp heq 0 h) rfl

theorem textOf_eq_some_iff : textOf pair = some (m, data) ↔
    ∃ key : IdpromKey, HasKey key pair ∧ key.textMember? = some m ∧ pair.2 = .text data := by
  constructor
  · intro h
    unfold textOf at h
    split at h
    · obtain ⟨m', hm', heq⟩ := Option.map_eq_some_iff.mp h
      obtain ⟨key, hkey, htext⟩ := Option.bind_eq_some_iff.mp hm'
      cases heq
      exact ⟨key, congrArg _ (eq_value_of_ofValue? hkey), htext, rfl⟩
    · cases h
  · obtain ⟨key', value⟩ := pair
    rintro ⟨key, hkey, htext, hvalue⟩
    cases hkey
    cases hvalue
    unfold textOf
    simp only [ofValue?_value, Option.bind_some, htext, Option.map_some]

/-- Of the entries that are accepted, those with a text store what it comes
to. -/
theorem stored_of_textOf (haccepted : Accepted (textEnv device construct) pair)
    (h : textOf pair = some (m, data)) : 0 ∈ data ∧
      stored (textEnv device construct) pair = some (m, data.takeWhile fun c => c ≠ 0) := by
  obtain ⟨key, hkey, htext, hvalue⟩ := textOf_eq_some_iff.mp h
  obtain ⟨key', value⟩ := pair
  cases hkey
  cases hvalue
  obtain ⟨_, str, ⟨⟩, hstr⟩ := (accepted_text_iff htext).mp haccepted
  obtain ⟨hzero, rfl⟩ := cString_eq_ok_iff.mp hstr
  refine ⟨hzero, ?_⟩
  rw [stored_text htext, definiteString_eq_ok_iff.mpr ⟨data, rfl, hstr⟩]
  rfl

/-- What an entry stores is a text, or a serial number behind a pointer. -/
theorem textOf_or_pointer {x : Member × List Byte}
    (haccepted : Accepted (textEnv device construct) pair)
    (h : stored (textEnv device construct) pair = some x) :
    (∃ data, textOf pair = some (x.1, data)) ∨
      (HasKey .serialPointer pair ∧ x.1 = .hwSerial) := by
  cases shape pair with
  | notUint hkey => exact absurd haccepted (not_accepted_notUint hkey)
  | width hwidth => exact absurd haccepted (not_accepted_width hwidth)
  | unused hunused =>
      rw [stored_unused hunused] at h
      cases h
  | @text key value m' hkey =>
      obtain ⟨data, str, rfl, hstr⟩ := (accepted_text_iff hkey).mp haccepted
      rw [stored_text hkey, definiteString_eq_ok_iff.mpr ⟨data, rfl, hstr⟩] at h
      cases h
      exact .inl ⟨data, textOf_eq_some_iff.mpr ⟨key, rfl, hkey, rfl⟩⟩
  | pointer =>
      rw [stored_pointer] at h
      obtain ⟨serial, _, rfl⟩ := Option.map_eq_some_iff.mp h
      exact .inr ⟨rfl, rfl⟩

/-- After the last text for a member nothing is stored in it. -/
theorem lastOf_stored_eq_none {p : Item × Item}
    (haccepted : ∀ q ∈ pairs, Accepted (textEnv device construct) q)
    (hbefore : ∀ q ∈ pairs, SetsSerial p → ¬ HasKey .serialPointer q)
    (htext : textOf p = some (m, data)) (hlast : lastOf m (pairs.filterMap textOf) = none) :
    lastOf m (pairs.filterMap (stored (textEnv device construct))) = none := by
  refine Option.eq_none_iff_forall_ne_some.mpr ?_
  intro v hv
  obtain ⟨q, hq, hstored⟩ := List.mem_filterMap.mp (mem_of_lastOf hv)
  rcases textOf_or_pointer (haccepted q hq) hstored with ⟨data', htext'⟩ | ⟨hkey, rfl⟩
  · obtain ⟨w, hw⟩ := exists_lastOf (List.mem_filterMap.mpr ⟨q, hq, htext'⟩)
    rw [hlast] at hw
    cases hw
  · obtain ⟨key, hp, hmember, _⟩ := textOf_eq_some_iff.mp htext
    obtain rfl : key = .serialString := by
      cases key <;> cases hmember
      rfl
    exact hbefore q hq (.inl hp) hkey

/-- The last text for a member is what is stored there last: a pointer does not
come behind a text. -/
theorem lastOf_puts (haccepted : ∀ p ∈ pairs, Accepted (textEnv device construct) p)
    (hbefore : pairs.Pairwise fun p q => SetsSerial p → ¬ HasKey .serialPointer q)
    (h : lastOf m (pairs.filterMap textOf) = some data) : 0 ∈ data ∧
      lastOf m (puts (textEnv device construct) pairs)
        = some (data.takeWhile fun c => c ≠ 0) := by
  induction pairs with
  | nil => cases h
  | cons p pairs ih =>
      obtain ⟨hhead, htail⟩ := List.forall_mem_cons.mp haccepted
      obtain ⟨hfirst, hrest⟩ := List.pairwise_cons.mp hbefore
      rw [lastOf_filterMap_cons] at h
      rw [puts, lastOf_filterMap_cons]
      cases hlast : lastOf m (pairs.filterMap textOf) with
      | some data' =>
          rw [hlast, Option.some_or] at h
          obtain ⟨hzero, hputs⟩ := ih htail hrest (hlast.trans h)
          rw [puts] at hputs
          rw [hputs]
          exact ⟨hzero, rfl⟩
      | none =>
          rw [hlast, Option.none_or] at h
          have htext : textOf p = some (m, data) := Option.mem_toList.mp (mem_of_lastOf h)
          obtain ⟨hzero, hstored⟩ := stored_of_textOf hhead htext
          rw [lastOf_stored_eq_none htail hfirst htext hlast, hstored, Option.none_or]
          refine ⟨hzero, ?_⟩
          simp [lastOf, firstOf]

/-! ## The call -/

theorem definedFrom_forM_readEntry_iff {env : Env ω} :
    DefinedFrom (forM pairs (readEntry env)) s ↔
      ∀ before pair after, pairs = before ++ pair :: after → Taken env s.hwSerial before →
        Readable env pair := by
  rw [definedFrom_forM_iff]
  constructor
  · intro h before pair after hpairs htaken
    obtain ⟨t, ht⟩ := forM_readEntry_returns_iff.mpr htaken
    exact definedFrom_readEntry_iff.mp (h before pair after t hpairs ht)
  · intro h before pair after t hpairs ht
    exact definedFrom_readEntry_iff.mpr
      (h before pair after hpairs (forM_readEntry_returns_iff.mp ⟨t, ht⟩))

theorem readable_iff : Readable (textEnv device construct) pair ↔
    (∀ width k, pair.1 = .uint width k → width = .int32) ∧
      ∀ m data, textOf pair = some (m, data) → 0 ∈ data := by
  constructor
  · intro h
    refine ⟨h.width_eq, ?_⟩
    intro m data htext
    obtain ⟨key, hkey, hmember, hvalue⟩ := textOf_eq_some_iff.mp htext
    exact defined_cString_iff.mp
      (h.text key data (Option.isSome_of_eq_some hmember) hkey hvalue)
  · rintro ⟨hwidth, htext⟩
    refine ⟨hwidth, ?_⟩
    intro key data hmember hkey hvalue
    obtain ⟨m, hm⟩ := Option.isSome_iff_exists.mp hmember
    exact defined_cString_iff.mpr
      (htext m data (textOf_eq_some_iff.mpr ⟨key, hkey, hm, hvalue⟩))

theorem defined_findDriver (key : Item) : Defined (findDriver key) := by
  cases key with
  | bytes id =>
      show Defined (if id.length ≠ 16 then _ else _)
      split
      · exact defined_thrown _
      · split
        · exact defined_ok _
        · exact defined_thrown _
  | _ => exact defined_thrown _

theorem definedFrom_throwing (m : EStateM Exception ω Unit) (w : ω) : DefinedFrom (throwing m) w := by
  intro op t h
  unfold throwing at h
  simp only [EStateM.run] at h
  split at h
  · cases h
  · cases h

/-- Where constructors return or throw, the loop over the drivers does nothing
undefined. -/
theorem alwaysDefined_requireDrivers (value : Item) :
    AlwaysDefined (requireDrivers (textEnv device construct) value) := by
  cases value with
  | map definite drivers =>
      refine AlwaysDefined.forM fun driver _ w => ?_
      refine definedFrom_ofExcept_bind_iff.mpr ⟨defined_findDriver driver.1, fun info _ => ?_⟩
      refine definedFrom_bind_iff.mpr
        ⟨definedFrom_catching.mpr (definedFrom_throwing _ w), ?_⟩
      rintro (e | _) t _
      · exact definedFrom_thrown _ t
      · exact definedFrom_pure () t
  | _ => exact fun w => definedFrom_thrown _ w

theorem alwaysDefined_readDrivers (haccepted : Accepted (textEnv device construct) pair) :
    AlwaysDefined (readDrivers (textEnv device construct) pair) := by
  intro w
  by_cases hkey : HasKey .requiredDrivers pair
  · intro op t
    rw [readDrivers_run_of_hasKey hkey]
    exact alwaysDefined_requireDrivers pair.2 w op t
  · exact .of_ok (readDrivers_run_of_not_hasKey haccepted hkey)

/-- The call is defined if the entries that are come to can be read. -/
theorem definedFrom_parseItem_textEnv_iff {definite : Bool} :
    DefinedFrom (parseItem (textEnv device construct) (.map definite pairs)) s ↔
      ∀ before pair after, pairs = before ++ pair :: after →
        Taken (textEnv device construct) s.hwSerial before →
          Readable (textEnv device construct) pair := by
  rw [definedFrom_parseItem_iff, definedFrom_forM_readEntry_iff]
  refine and_iff_left ?_
  intro htaken
  exact AlwaysDefined.forM (fun p hp => alwaysDefined_readDrivers (htaken.accepted p hp)) s.world

/-- A call that returns has cut off every text. -/
theorem parseItem_member_of_text {definite : Bool} {t : Probulator ω}
    (h : (parseItem (textEnv device construct) (.map definite pairs)).run s = .ok () t)
    (hlast : lastOf m (pairs.filterMap textOf) = some data) : t.member m ≠ some data := by
  obtain ⟨htaken, _⟩ := (parseItem_returns_iff _).mp ⟨t, h⟩
  obtain ⟨hzero, hputs⟩ := lastOf_puts htaken.accepted htaken.no_serial_before hlast
  rw [parseItem_member h, hputs]
  intro heq
  exact takeWhile_ne_self hzero (Option.some.inj heq)

theorem parseIdpromPayload_eq (env : Env ω) {cbor : Libcbor} {payload : List Byte} {item : Item}
    (h : cbor.load payload = .ok item) : parseIdpromPayload env cbor payload = parseItem env item := by
  rw [parseIdpromPayload, h]

/-- An item that is no map is rejected. -/
theorem parseItem_run_of_not_map (env : Env ω) (s : Probulator ω) {item : Item}
    (h : item.isaMap = false) :
    (parseItem env item).run s =
      .error (.thrown (.runtimeError "invalid CBOR payload (expected map)")) s := by
  rw [parseItem, h]
  rfl

theorem textExact_of_not_map {cbor : Libcbor} {payload : List Byte} {item : Item}
    (h : cbor.load payload = .ok item) (hmap : item.isaMap = false) :
    TextExact (textEnv device construct) cbor payload item s := by
  have hrun := parseItem_run_of_not_map (textEnv device construct) s hmap
  rw [← parseIdpromPayload_eq (textEnv device construct) h] at hrun
  constructor
  · intro op t hop
    rw [hrun] at hop
    cases hop
  · intro t ht
    rw [hrun] at ht
    cases ht

theorem TextExact.withinTexts {cbor : Libcbor} {payload : List Byte} {definite : Bool}
    (hload : cbor.load payload = .ok (.map definite pairs))
    (h : TextExact (textEnv device construct) cbor payload (.map definite pairs) s) :
    WithinTexts (textEnv device construct) s pairs := by
  have hparse := parseIdpromPayload_eq (textEnv device construct) hload
  have hdefined := h.defined
  rw [hparse, definedFrom_parseItem_textEnv_iff] at hdefined
  constructor
  · intro before pair after hpairs htaken
    exact (readable_iff.mp (hdefined before pair after hpairs htaken)).1
  · intro before pair after hpairs htaken
    exact (readable_iff.mp (hdefined before pair after hpairs htaken)).2
  · intro htaken hdrivers pair hmem
    obtain ⟨t, ht⟩ := (parseItem_returns_iff definite).mpr ⟨htaken, hdrivers⟩
    refine Option.eq_none_iff_forall_ne_some.mpr ?_
    rintro ⟨m, data⟩ htext
    obtain ⟨data', hlast⟩ := exists_lastOf (List.mem_filterMap.mpr ⟨pair, hmem, htext⟩)
    -- the member would be the text, of which it only is the part before the zero byte
    refine parseItem_member_of_text ht hlast ?_
    rw [← hparse] at ht
    exact h.exact t ht m data' hlast

theorem WithinTexts.textExact {cbor : Libcbor} {payload : List Byte} {definite : Bool}
    (hload : cbor.load payload = .ok (.map definite pairs))
    (h : WithinTexts (textEnv device construct) s pairs) :
    TextExact (textEnv device construct) cbor payload (.map definite pairs) s := by
  have hparse := parseIdpromPayload_eq (textEnv device construct) hload
  constructor
  · rw [hparse, definedFrom_parseItem_textEnv_iff]
    intro before pair after hpairs htaken
    exact readable_iff.mpr
      ⟨h.width_eq before pair after hpairs htaken, h.terminated before pair after hpairs htaken⟩
  · intro t ht m data hlast
    rw [hparse] at ht
    obtain ⟨htaken, hdrivers⟩ := (parseItem_returns_iff _).mp ⟨t, ht⟩
    obtain ⟨pair, hmem, htext⟩ := List.mem_filterMap.mp (mem_of_lastOf hlast)
    rw [h.no_text htaken hdrivers pair hmem] at htext
    cases htext

/-- The texts are exact if and only if the texts and the keys are within what
can be read. -/
theorem textExact_iff {cbor : Libcbor} {payload : List Byte} {item : Item}
    (h : cbor.load payload = .ok item) :
    TextExact (textEnv device construct) cbor payload item s ↔
      ∀ definite pairs, item = .map definite pairs →
        WithinTexts (textEnv device construct) s pairs := by
  cases item with
  | map definite pairs =>
      constructor
      · rintro hexact _ _ ⟨⟩
        exact hexact.withinTexts h
      · intro hwithin
        exact (hwithin definite pairs rfl).textExact h
  | _ => exact iff_of_true (textExact_of_not_map h rfl) nofun

end Strings

/-! ## A revision -/

/-- The entry of the revision "4". -/
def revisionEntry : Item × Item := (.uint .int32 IdpromKey.hwRevision.value, .ofString "4")

/-- A map with this entry, as it is in the EEPROM. -/
def revisionPayload : List Byte := [0xa1, 0x1a, 0x48, 0x52, 0x65, 0x76, 0x61, 0x34]

theorem revisionCodes_ne_nil :
    ∀ c ∈ [(revisionPayload, Item.map true [revisionEntry])], c.1 ≠ [] := by
  decide

/-- A library that knows this payload. -/
def revisionCbor : Libcbor :=
  .ofTable [(revisionPayload, .map true [revisionEntry])] (fun _ => []) revisionCodes_ne_nil

theorem load_revisionPayload :
    revisionCbor.load revisionPayload = .ok (.map true [revisionEntry]) := rfl

theorem textExact_iff_revision :
    TextExact (textEnv zeros fun _ _ => pure ()) revisionCbor revisionPayload
        (.map true [revisionEntry]) (.initial ()) ↔
      ∀ definite pairs, Item.map true [revisionEntry] = .map definite pairs →
        WithinTexts (textEnv zeros fun _ _ => pure ()) (.initial ()) pairs :=
  textExact_iff load_revisionPayload

/-- The text has one byte, and the string looks for its end behind it. -/
theorem not_textExact_revision :
    ¬ TextExact (textEnv zeros fun _ _ => pure ()) revisionCbor revisionPayload
      (.map true [revisionEntry]) (.initial ()) := by
  intro h
  exact h.defined "std::string::string" (.initial ()) rfl

end Idprom
