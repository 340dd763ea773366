/-
# `Led.Config` — the configuration of the LED controller

`Pca9955::readConfig` reads a CBOR map with the address of the controller, the
value of its current setting resistor, the currents of the channels and the
LED map.  The address is converted to eight bits and the resistance to
sixteen.

`Accepts` says which maps are accepted, with the numbers they give, and
`Readable` on which nothing is accessed that must not be.
-/
import ProgrammableLoad.Cbor.Lookup
import ProgrammableLoad.Led.Accepted

namespace Led.Pca9955

open Cpp Cbor Cbor.Util Program

/-! ## Currents -/

def kDefaultCurrent : Byte := 0x20

/-- `CalculateIref`: 0xff from the largest current on, and the quotient rounded
towards zero below it.  The largest current is an infinity if the resistance
is zero; a negative quotient is converted to zero by the target. -/
def calculateIref (rext : BitVec 16) : Double → Byte
  | .num current =>
      if rext ≠ 0 ∧ 900 / (rext.toNat : ℚ) * (255 / 4) ≤ current then
        0xff
      else
        .ofNat 8 ⌊current * rext.toNat / 225⌋.toNat
  | .inf false => 0xff
  | .inf true => 0
  | .nan => 0

/-- The loop over the current array. -/
def readCurrents (rext : BitVec 16) : List Item → Except Fault (List Byte)
  | [] => .ok []
  | value :: items => do
      if !value.isaFloatCtrl then
        throw (.thrown (.runtimeError "invalid current value (expected float)"))
      else
        let current ← value.floatGetFloat
        let irefs ← readCurrents rext items
        return calculateIref rext current :: irefs

/-! ## Reading -/

/-- The members that `readConfig` sets. -/
structure Config where
  address : BitVec 8
  rext : BitVec 16
  iref : List Byte
  channels : LedMap

/-- The current array; the channels behind its end get no current. -/
def readIref (rext : BitVec 16) (map : Item) : Except Fault (List Byte) := do
  match ← cborMapGet map "current" with
  | some currentArray =>
      if currentArray.isaArray then
        let items ← currentArray.arrayItems
        if kNumChannels < items.length then
          throw (.thrown (.runtimeError
            s!"current array too large ({items.length} entries)"))
        else
          let irefs ← readCurrents rext items
          return irefs ++ List.replicate (kNumChannels - irefs.length) 0
      else
        return List.replicate kNumChannels kDefaultCurrent
  | none => return List.replicate kNumChannels kDefaultCurrent

/-- The mapping from outputs to LED type. -/
def readChannelMap (map : Item) : Except Fault LedMap := do
  match ← cborMapGet map "map" with
  | some ledMap =>
      if ledMap.isaMap then
        let pairs ← ledMap.mapHandle
        if kNumChannels < pairs.length then
          throw (.thrown (.runtimeError s!"map too large ({pairs.length} entries)"))
        else
          readLedMap ledMap
      else
        throw (.thrown (.runtimeError "missing or invalid map"))
  | none => throw (.thrown (.runtimeError "missing or invalid map"))

def readConfig (map : Item) : Except Fault Config := do
  let address ← requiredUint map "addr" "missing device address key"
  let rext ← requiredUint map "rext" "missing Rext key"
  let iref ← readIref (.ofNat 16 rext) map
  let channels ← readChannelMap map
  return ⟨.ofNat 8 address, .ofNat 16 rext, iref, channels⟩

/-! ## What is accepted -/

/-- An array of currents has at most one for each channel, and floats only. -/
def IsCurrents (value : Item) : Prop :=
  ∀ definite items, value = .array definite items →
    items.length ≤ kNumChannels ∧ ∀ x ∈ items, x.isFloat = true

/-- A map with at most one pair for each channel, which is read. -/
def IsLedMap (value : Item) : Prop :=
  ∃ definite pairs, value = .map definite pairs ∧ pairs.length ≤ kNumChannels ∧
    ∃ channels, readLedMap value = .ok channels

/-- The configuration is accepted, with these numbers for the address and the
resistance. -/
structure Accepts (map : Item) (addr rext : Nat) : Prop where
  addr : ∃ width, map.Has "addr" (.uint width addr)
  rext : ∃ width, map.Has "rext" (.uint width rext)
  current : map.Holds "current" IsCurrents
  map : ∃ value, map.Has "map" value ∧ IsLedMap value

/-- No control value is read as a current. -/
def CurrentsReadable (value : Item) : Prop :=
  ∀ definite items, value = .array definite items → items.length ≤ kNumChannels →
    WhileTaken (fun x => x.isFloat = true) (fun x => x.isaFloatCtrl = true → x.isFloat = true) items

/-- No channel is looked up that the chip does not have. -/
def LedMapReadable (value : Item) : Prop :=
  ∀ definite pairs, value = .map definite pairs → pairs.length ≤ kNumChannels →
    ∀ width v, ComesTo pairs (.uint width v) → v % 2 ^ sizeBits < kNumChannels

/-- Every key that is looked up can be searched for, and the values for the
currents and the LED map can be read.  A key is looked up if what was read
before it was taken. -/
structure Readable (map : Item) : Prop where
  addr : map.Holds "addr" fun _ => True
  rext : (∃ addr width, map.Has "addr" (.uint width addr)) → map.Holds "rext" fun _ => True
  current : (∃ addr width, map.Has "addr" (.uint width addr)) →
    (∃ rext width, map.Has "rext" (.uint width rext)) → map.Holds "current" CurrentsReadable
  map : (∃ addr width, map.Has "addr" (.uint width addr)) →
    (∃ rext width, map.Has "rext" (.uint width rext)) → map.Holds "current" IsCurrents →
    map.Holds "map" LedMapReadable

section Accepted

variable {map : Item} {c : Config} {rext : BitVec 16}

theorem readCurrents_returns_iff (rext : BitVec 16) {items : List Item} :
    (∃ irefs, readCurrents rext items = .ok irefs) ↔ ∀ x ∈ items, x.isFloat = true := by
  induction items with
  | nil => exact iff_of_true ⟨_, rfl⟩ nofun
  | cons value items ih =>
      rw [List.forall_mem_cons, ← ih]
      cases value with
      | float width v =>
          constructor
          · rintro ⟨irefs, h⟩
            obtain ⟨_, _, h⟩ := except_bind_eq_ok.mp h
            obtain ⟨irefs', hrest, _⟩ := except_bind_eq_ok.mp h
            exact ⟨rfl, irefs', hrest⟩
          · rintro ⟨_, irefs, hrest⟩
            exact ⟨_, except_bind_eq_ok.mpr ⟨v, rfl, except_bind_eq_ok.mpr ⟨irefs, hrest, rfl⟩⟩⟩
      | _ =>
          refine iff_of_false ?_ fun h => Bool.false_ne_true h.1
          rintro ⟨irefs, h⟩
          cases h

theorem readIref_returns_iff :
    (∃ iref, readIref rext map = .ok iref) ↔ map.Holds "current" IsCurrents := by
  refine (optional_returns_iff (by exact ⟨_, rfl⟩)).trans ?_
  refine Item.holds_congr fun value => ?_
  cases value with
  | array definite items =>
      have hcurrents : IsCurrents (.array definite items) ↔
          items.length ≤ kNumChannels ∧ ∀ x ∈ items, x.isFloat = true := by
        constructor
        · intro h
          exact h definite items rfl
        · rintro h _ _ ⟨⟩
          exact h
      rw [hcurrents, ← readCurrents_returns_iff rext]
      show (∃ iref, (if kNumChannels < items.length then _ else _) = Except.ok iref) ↔ _
      by_cases hlong : kNumChannels < items.length
      · rw [if_pos hlong]
        refine iff_of_false ?_ fun h => absurd h.1 (Nat.not_le.mpr hlong)
        rintro ⟨iref, h⟩
        cases h
      · rw [if_neg hlong]
        constructor
        · rintro ⟨iref, h⟩
          obtain ⟨irefs, hirefs, _⟩ := except_bind_eq_ok.mp h
          exact ⟨Nat.le_of_not_lt hlong, irefs, hirefs⟩
        · rintro ⟨_, irefs, hirefs⟩
          exact ⟨_, except_bind_eq_ok.mpr ⟨irefs, hirefs, rfl⟩⟩
  | _ => exact iff_of_true ⟨_, rfl⟩ nofun

theorem readChannelMap_returns_iff :
    (∃ channels, readChannelMap map = .ok channels) ↔
      ∃ value, map.Has "map" value ∧ IsLedMap value := by
  have hvalue : ∀ channels, readChannelMap map = .ok channels ↔ ∃ value, map.Has "map" value ∧
      ∃ definite pairs, value = .map definite pairs ∧ pairs.length ≤ kNumChannels ∧
        readLedMap value = .ok channels := by
    intro channels
    refine (required_eq_ok_iff (by nofun)).trans ?_
    refine exists_congr fun value => and_congr_right fun _ => ?_
    cases value with
    | map definite pairs =>
        show (if kNumChannels < pairs.length then _ else _) = Except.ok channels ↔ _
        by_cases hlong : kNumChannels < pairs.length
        · rw [if_pos hlong]
          refine iff_of_false nofun ?_
          rintro ⟨_, _, ⟨⟩, hlength, _⟩
          exact Nat.not_le.mpr hlong hlength
        · rw [if_neg hlong]
          constructor
          · intro h
            exact ⟨definite, pairs, rfl, Nat.le_of_not_lt hlong, h⟩
          · rintro ⟨_, _, ⟨⟩, _, h⟩
            exact h
    | _ =>
        refine iff_of_false nofun ?_
        rintro ⟨_, _, h, _⟩
        cases h
  constructor
  · rintro ⟨channels, h⟩
    obtain ⟨value, hhas, definite, pairs, hmap, hlength, hread⟩ := (hvalue channels).mp h
    exact ⟨value, hhas, definite, pairs, hmap, hlength, channels, hread⟩
  · rintro ⟨value, hhas, definite, pairs, hmap, hlength, channels, hread⟩
    exact ⟨channels, (hvalue channels).mpr ⟨value, hhas, definite, pairs, hmap, hlength, hread⟩⟩

theorem readConfig_eq_ok (hread : readConfig map = .ok c) : ∃ addr rext,
    Accepts map addr rext ∧ c.address = .ofNat 8 addr ∧ c.rext = .ofNat 16 rext := by
  obtain ⟨addr, haddr, hread⟩ := except_bind_eq_ok.mp hread
  obtain ⟨rext, hrext, hread⟩ := except_bind_eq_ok.mp hread
  obtain ⟨iref, hiref, hread⟩ := except_bind_eq_ok.mp hread
  obtain ⟨channels, hchannels, hread⟩ := except_bind_eq_ok.mp hread
  cases hread
  exact ⟨addr, rext, ⟨requiredUint_eq_ok_iff.mp haddr, requiredUint_eq_ok_iff.mp hrext,
    readIref_returns_iff.mp ⟨_, hiref⟩, readChannelMap_returns_iff.mp ⟨_, hchannels⟩⟩, rfl, rfl⟩

theorem Accepts.readConfig_eq_ok {addr rext : Nat} (haccepts : Accepts map addr rext) :
    ∃ c, readConfig map = .ok c ∧ c.address = .ofNat 8 addr ∧ c.rext = .ofNat 16 rext := by
  obtain ⟨iref, hiref⟩ := readIref_returns_iff.mpr haccepts.current
  obtain ⟨channels, hchannels⟩ := readChannelMap_returns_iff.mpr haccepts.map
  refine ⟨⟨_, _, iref, channels⟩, ?_, rfl, rfl⟩
  refine except_bind_eq_ok.mpr ⟨addr, requiredUint_eq_ok_iff.mpr haccepts.addr, ?_⟩
  refine except_bind_eq_ok.mpr ⟨rext, requiredUint_eq_ok_iff.mpr haccepts.rext, ?_⟩
  exact except_bind_eq_ok.mpr ⟨iref, hiref, except_bind_eq_ok.mpr ⟨channels, hchannels, rfl⟩⟩

theorem defined_readCurrents_iff {items : List Item} : Defined (readCurrents rext items) ↔
    WhileTaken (fun x => x.isFloat = true) (fun x => x.isaFloatCtrl = true → x.isFloat = true)
      items := by
  induction items with
  | nil =>
      refine iff_of_true (defined_ok _) fun before a after h => ?_
      simp at h
  | cons value items ih =>
      rw [WhileTaken, forall_split_cons]
      cases value with
      | float width v =>
          have hhead : Defined (readCurrents rext (.float width v :: items)) ↔
              Defined (readCurrents rext items) := by
            refine defined_bind_iff.trans ((and_iff_right (defined_ok _)).trans ?_)
            constructor
            · intro h
              exact (defined_bind_iff.mp (h v rfl)).1
            · rintro h _ _
              exact defined_bind_iff.mpr ⟨h, fun _ _ => defined_pure _⟩
          rw [hhead, ih, WhileTaken]
          constructor
          · refine fun h => ⟨fun _ _ => rfl, fun before x after hitems hbefore => ?_⟩
            exact h before x after hitems fun y hy => hbefore y (List.mem_cons_of_mem _ hy)
          · rintro ⟨_, h⟩ before x after hitems hbefore
            exact h before x after hitems (List.forall_mem_cons.mpr ⟨rfl, hbefore⟩)
      | ctrl n =>
          refine iff_of_false ?_ fun h => Bool.false_ne_true (h.1 nofun rfl)
          exact not_defined_undefined _
      | _ =>
          refine iff_of_true (defined_throw _) ⟨fun _ h => absurd h Bool.false_ne_true, ?_⟩
          intro before x after _ hbefore
          exact absurd (hbefore _ List.mem_cons_self) Bool.false_ne_true

theorem defined_readIref_iff :
    Defined (readIref rext map) ↔ map.Holds "current" CurrentsReadable := by
  refine defined_lookup_iff (defined_pure _) fun value => ?_
  cases value with
  | array definite items =>
      have hcurrents : CurrentsReadable (.array definite items) ↔
          (items.length ≤ kNumChannels → Defined (readCurrents rext items)) := by
        rw [defined_readCurrents_iff]
        constructor
        · intro h
          exact h definite items rfl
        · rintro h _ _ ⟨⟩
          exact h
      rw [hcurrents]
      show Defined (if kNumChannels < items.length then _ else _) ↔ _
      by_cases hlong : kNumChannels < items.length
      · rw [if_pos hlong]
        exact iff_of_true (defined_throw _) fun h => absurd h (Nat.not_le.mpr hlong)
      · rw [if_neg hlong]
        constructor
        · intro h _
          exact (defined_bind_iff.mp h).1
        · intro h
          exact defined_bind_iff.mpr ⟨h (Nat.le_of_not_lt hlong), fun _ _ => defined_pure _⟩
  | _ => exact iff_of_true (defined_pure _) nofun

theorem defined_readLedMap_map_iff {definite : Bool} {pairs : List (Item × Item)} :
    Defined (readLedMap (.map definite pairs)) ↔
      ∀ width v, ComesTo pairs (.uint width v) → v % 2 ^ sizeBits < kNumChannels := by
  rw [← defined_readPairs_iff]
  cases h : readPairs .empty pairs with
  | ok a =>
      rw [readLedMap_of_ok definite h]
      exact iff_of_true (defined_ok _) (defined_ok _)
  | error e =>
      rw [readLedMap_of_error definite h]
      simp only [defined_error_iff]

theorem defined_readChannelMap_iff :
    Defined (readChannelMap map) ↔ map.Holds "map" LedMapReadable := by
  refine defined_lookup_iff (defined_throw _) fun value => ?_
  cases value with
  | map definite pairs =>
      have hmap : LedMapReadable (.map definite pairs) ↔
          (pairs.length ≤ kNumChannels → Defined (readLedMap (.map definite pairs))) := by
        rw [defined_readLedMap_map_iff]
        constructor
        · intro h
          exact h definite pairs rfl
        · rintro h _ _ ⟨⟩
          exact h
      rw [hmap]
      show Defined (if kNumChannels < pairs.length then _ else _) ↔ _
      by_cases hlong : kNumChannels < pairs.length
      · rw [if_pos hlong]
        exact iff_of_true (defined_throw _) fun h => absurd h (Nat.not_le.mpr hlong)
      · rw [if_neg hlong]
        exact ⟨fun h _ => h, fun h => h (Nat.le_of_not_lt hlong)⟩
  | _ => exact iff_of_true (defined_throw _) nofun

/-- Reading is defined exactly on the configurations that are readable. -/
theorem defined_readConfig_iff : Defined (readConfig map) ↔ Readable map := by
  have hall : Defined (readConfig map) ↔ map.Holds "addr" (fun _ => True) ∧
      ((∃ addr, requiredUint map "addr" "missing device address key" = .ok addr) →
        map.Holds "rext" (fun _ => True) ∧
          ∀ rext, requiredUint map "rext" "missing Rext key" = .ok rext →
            map.Holds "current" CurrentsReadable ∧
              (map.Holds "current" IsCurrents → map.Holds "map" LedMapReadable)) := by
    rw [← @defined_requiredUint_iff map "addr" "missing device address key",
      ← @defined_requiredUint_iff map "rext" "missing Rext key"]
    refine defined_bind_iff_of_forall fun _ => defined_bind_iff.trans ?_
    refine and_congr_right fun _ => forall_congr' fun rext => imp_congr_right fun _ => ?_
    rw [← @defined_readIref_iff map (.ofNat 16 rext),
      ← @readIref_returns_iff map (.ofNat 16 rext), ← defined_readChannelMap_iff]
    refine defined_bind_iff_of_forall fun _ => (defined_bind_iff_of_forall fun _ =>
      iff_of_true (defined_pure _) trivial).trans ?_
    simp
  simp only [hall, requiredUint_eq_ok_iff]
  constructor
  · rintro ⟨haddr, hrest⟩
    refine ⟨haddr, fun h => (hrest h).1, ?_, ?_⟩
    · rintro h ⟨rext, hrext⟩
      exact ((hrest h).2 rext hrext).1
    · rintro h ⟨rext, hrext⟩
      exact ((hrest h).2 rext hrext).2
  · rintro ⟨haddr, hrext, hcurrent, hmap⟩
    exact ⟨haddr, fun h => ⟨hrext h, fun rext h' => ⟨hcurrent h ⟨rext, h'⟩, hmap h ⟨rext, h'⟩⟩⟩⟩

end Accepted

end Led.Pca9955
