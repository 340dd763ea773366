/-
# `Cbor.Lookup` — what the helpers come to

`CborReadUint` is defined on every item, and `CborMapGet` is not: it reads the
keys of a map as definite text until one of them is the key it looks for.  The
search is therefore defined on a map exactly if all
keys before the first match are definite text, whatever comes behind it, and
finds the value of the first match.
-/
import ProgrammableLoad.Cpp.Defined
import ProgrammableLoad.Cbor.Util

namespace Cbor

open Cpp Cbor.Util Program

/-! ## Integers -/

theorem isaUint_iff {x : Item} : x.isaUint = true ↔ ∃ width v, x = .uint width v := by
  cases x <;> simp [Item.isaUint]

theorem cborReadUint_of_not {x : Item} (h : ¬ x.isaUint = true) :
    cborReadUint x = .error (.thrown (.runtimeError "invalid type (expected uint)")) := by
  rw [cborReadUint, if_neg h]

theorem defined_cborReadUint (x : Item) : Defined (cborReadUint x) := by
  cases x with
  | uint width v => exact defined_ok v
  | _ => exact defined_thrown _

theorem cborReadUint_returns_iff {x : Item} :
    (∃ v, cborReadUint x = .ok v) ↔ x.isaUint = true := by
  cases x with
  | uint width v => exact iff_of_true ⟨v, rfl⟩ rfl
  | _ =>
      refine iff_of_false ?_ Bool.false_ne_true
      rintro ⟨v, h⟩
      cases h

/-! ## Searches -/

/-- Definite text. -/
def Item.isText : Item → Bool
  | .text _ => true
  | _ => false

/-- The key that is looked for. -/
def Item.isKey (inKey : String) : Item → Bool
  | .text data => data == ascii inKey
  | _ => false

/-- All keys before the first match are definite text. -/
def Searchable (inKey : String) (pairs : List (Item × Item)) : Prop :=
  ∀ pair ∈ pairs.takeWhile fun p => !p.1.isKey inKey, pair.1.isText = true

/-- The value of the first match. -/
def valueOf (inKey : String) (pairs : List (Item × Item)) : Option Item :=
  (pairs.find? fun p => p.1.isKey inKey).map Prod.snd

/-- The item is a map that can be searched for the key, and the value of the
key, if there is one, is in `P`. -/
def Item.Holds (item : Item) (inKey : String) (P : Item → Prop) : Prop :=
  ∃ definite pairs, item = .map definite pairs ∧ Searchable inKey pairs ∧
    ∀ value ∈ valueOf inKey pairs, P value

/-- The item is a map that can be searched for the key, and has this value for
it. -/
def Item.Has (item : Item) (inKey : String) (value : Item) : Prop :=
  ∃ definite pairs, item = .map definite pairs ∧ Searchable inKey pairs ∧
    valueOf inKey pairs = some value

section Search

variable {inKey : String} {data : List Byte} {value : Item} {pairs : List (Item × Item)}

theorem findKey_cons_key : findKey inKey ((.text (ascii inKey), value) :: pairs)
    = .ok (some value) := by
  simp [findKey, Item.stringHandle, bind, Except.bind]

theorem findKey_cons_text (h : data ≠ ascii inKey) :
    findKey inKey ((.text data, value) :: pairs) = findKey inKey pairs := by
  simp [findKey, Item.stringHandle, h, bind, Except.bind]

theorem searchable_cons_key : Searchable inKey ((.text (ascii inKey), value) :: pairs) := by
  simp [Searchable, Item.isKey]

theorem searchable_cons_text (h : data ≠ ascii inKey) :
    Searchable inKey ((.text data, value) :: pairs) ↔ Searchable inKey pairs := by
  simp [Searchable, Item.isKey, Item.isText, h]

theorem valueOf_cons_key :
    valueOf inKey ((.text (ascii inKey), value) :: pairs) = some value := by
  simp [valueOf, Item.isKey]

theorem valueOf_cons_text (h : data ≠ ascii inKey) :
    valueOf inKey ((.text data, value) :: pairs) = valueOf inKey pairs := by
  simp [valueOf, Item.isKey, h]

/-- A search that can be made comes to the first match. -/
theorem findKey_of_searchable (h : Searchable inKey pairs) :
    findKey inKey pairs = .ok (valueOf inKey pairs) := by
  induction pairs with
  | nil => rfl
  | cons pair pairs ih =>
      obtain ⟨key, value⟩ := pair
      cases key with
      | text data =>
          by_cases hdata : data = ascii inKey
          · subst hdata
            rw [findKey_cons_key, valueOf_cons_key]
          · rw [findKey_cons_text hdata, valueOf_cons_text hdata]
            exact ih ((searchable_cons_text hdata).mp h)
      | _ => simp [Searchable, Item.isKey, Item.isText] at h

/-- A search finds something or nothing, or is undefined. -/
theorem searchable_of_defined (h : Defined (findKey inKey pairs)) : Searchable inKey pairs := by
  induction pairs with
  | nil => simp [Searchable]
  | cons pair pairs ih =>
      obtain ⟨key, value⟩ := pair
      cases key with
      | text data =>
          by_cases hdata : data = ascii inKey
          · subst hdata
            exact searchable_cons_key
          · rw [findKey_cons_text hdata] at h
            exact (searchable_cons_text hdata).mpr (ih h)
      | _ => exact absurd h (not_defined_undefined _)

theorem findKey_eq_ok_iff {found : Option Item} :
    findKey inKey pairs = .ok found ↔ Searchable inKey pairs ∧ found = valueOf inKey pairs := by
  constructor
  · intro h
    have hsearch := searchable_of_defined (Defined.of_ok h)
    rw [findKey_of_searchable hsearch] at h
    cases h
    exact ⟨hsearch, rfl⟩
  · rintro ⟨hsearch, rfl⟩
    exact findKey_of_searchable hsearch

end Search

theorem cborMapGet_eq_ok_iff {item : Item} {inKey : String} {found : Option Item} :
    cborMapGet item inKey = .ok found ↔
      ∃ definite pairs, item = .map definite pairs ∧ Searchable inKey pairs ∧
        found = valueOf inKey pairs := by
  cases item with
  | map definite pairs =>
      rw [show cborMapGet (.map definite pairs) inKey = findKey inKey pairs from rfl,
        findKey_eq_ok_iff]
      constructor
      · rintro ⟨hsearch, hfound⟩
        exact ⟨definite, pairs, rfl, hsearch, hfound⟩
      · rintro ⟨_, _, ⟨⟩, hsearch, hfound⟩
        exact ⟨hsearch, hfound⟩
  | _ => simp [cborMapGet, Item.mapHandle, bind, Except.bind]

/-- Looking a key up throws nothing. -/
theorem cborMapGet_ne_thrown (item : Item) (inKey : String) (e : Exception) :
    cborMapGet item inKey ≠ .error (.thrown e) := by
  intro h
  cases item with
  | map definite pairs =>
      replace h : findKey inKey pairs = .error (.thrown e) := h
      have hdefined : Defined (findKey inKey pairs) := by
        rw [h]
        exact defined_thrown e
      rw [findKey_of_searchable (searchable_of_defined hdefined)] at h
      cases h
  | _ => cases h

/-- A lookup and what is done with the value are defined together. -/
theorem defined_cborMapGet_and_iff {item : Item} {inKey : String} {P : Option Item → Prop} :
    (Defined (cborMapGet item inKey) ∧ ∀ found, cborMapGet item inKey = .ok found → P found) ↔
      ∃ definite pairs, item = .map definite pairs ∧ Searchable inKey pairs ∧
        P (valueOf inKey pairs) := by
  constructor
  · rintro ⟨hdefined, hP⟩
    cases item with
    | map definite pairs =>
        have hsearch := searchable_of_defined hdefined
        exact ⟨definite, pairs, rfl, hsearch,
          hP _ (cborMapGet_eq_ok_iff.mpr ⟨definite, pairs, rfl, hsearch, rfl⟩)⟩
    | _ => exact absurd hdefined (not_defined_undefined _)
  · rintro ⟨definite, pairs, rfl, hsearch, hP⟩
    have hget := cborMapGet_eq_ok_iff.mpr ⟨definite, pairs, rfl, hsearch, rfl⟩
    refine ⟨Defined.of_ok hget, ?_⟩
    intro found hfound
    rw [hget] at hfound
    cases hfound
    exact hP

/-- A lookup whose value, if there is one, goes on to `f`. -/
theorem defined_lookup_iff {α : Type} {item : Item} {inKey : String} {P : Item → Prop}
    {f : Option Item → Except Fault α} (hnone : Defined (f none))
    (hsome : ∀ value, Defined (f (some value)) ↔ P value) :
    Defined (cborMapGet item inKey >>= f) ↔ item.Holds inKey P := by
  rw [defined_bind_iff, defined_cborMapGet_and_iff]
  refine exists_congr fun definite => exists_congr fun pairs => and_congr_right fun _ =>
    and_congr_right fun _ => ?_
  cases valueOf inKey pairs with
  | none => exact iff_of_true hnone nofun
  | some value => simp [hsome]

theorem definedFrom_lookup_iff {σ : Type} {item : Item} {inKey : String} {P : Item → Prop}
    {f : Option Item → EStateM Fault σ Unit} {s : σ} (hnone : DefinedFrom (f none) s)
    (hsome : ∀ value, DefinedFrom (f (some value)) s ↔ P value) :
    DefinedFrom (MonadExcept.ofExcept (cborMapGet item inKey) >>= f) s ↔ item.Holds inKey P := by
  rw [definedFrom_ofExcept_bind_iff, defined_cborMapGet_and_iff]
  refine exists_congr fun definite => exists_congr fun pairs => and_congr_right fun _ =>
    and_congr_right fun _ => ?_
  cases valueOf inKey pairs with
  | none => exact iff_of_true hnone nofun
  | some value => simp [hsome]

/-- The value that a lookup returns. -/
theorem cborMapGet_eq_ok_some_iff {item value : Item} {inKey : String} :
    cborMapGet item inKey = .ok (some value) ↔ item.Has inKey value := by
  rw [cborMapGet_eq_ok_iff]
  simp only [Item.Has, eq_comm]

theorem Item.Has.eq {item value value' : Item} {inKey : String} (h : item.Has inKey value)
    (h' : item.Has inKey value') : value = value' := by
  have hget := cborMapGet_eq_ok_some_iff.mpr h
  rw [cborMapGet_eq_ok_some_iff.mpr h'] at hget
  cases hget
  rfl

theorem Item.holds_iff {item : Item} {inKey : String} {P : Item → Prop} :
    item.Holds inKey P ↔ ∃ found, cborMapGet item inKey = .ok found ∧ ∀ value ∈ found, P value := by
  constructor
  · rintro ⟨definite, pairs, hitem, hsearch, hP⟩
    exact ⟨_, cborMapGet_eq_ok_iff.mpr ⟨definite, pairs, hitem, hsearch, rfl⟩, hP⟩
  · rintro ⟨found, hfound, hP⟩
    obtain ⟨definite, pairs, hitem, hsearch, rfl⟩ := cborMapGet_eq_ok_iff.mp hfound
    exact ⟨definite, pairs, hitem, hsearch, hP⟩

theorem Item.holds_congr {item : Item} {inKey : String} {P Q : Item → Prop}
    (h : ∀ value, P value ↔ Q value) : item.Holds inKey P ↔ item.Holds inKey Q := by
  unfold Item.Holds
  simp only [h]

/-- A key that has to be there. -/
theorem required_eq_ok_iff {α : Type} {item : Item} {inKey : String}
    {f : Option Item → Except Fault α} {a : α} (hnone : f none ≠ .ok a) :
    (cborMapGet item inKey >>= f) = .ok a ↔
      ∃ value, item.Has inKey value ∧ f (some value) = .ok a := by
  rw [except_bind_eq_ok]
  constructor
  · rintro ⟨_ | value, hfound, ha⟩
    · exact absurd ha hnone
    · exact ⟨value, cborMapGet_eq_ok_some_iff.mp hfound, ha⟩
  · rintro ⟨value, hvalue, ha⟩
    exact ⟨some value, cborMapGet_eq_ok_some_iff.mpr hvalue, ha⟩

/-- A key that may be left out. -/
theorem optional_returns_iff {α : Type} {item : Item} {inKey : String}
    {f : Option Item → Except Fault α} (hnone : ∃ a, f none = .ok a) :
    (∃ a, (cborMapGet item inKey >>= f) = .ok a) ↔
      item.Holds inKey fun value => ∃ a, f (some value) = .ok a := by
  rw [Item.holds_iff]
  constructor
  · rintro ⟨a, ha⟩
    obtain ⟨found, hfound, ha⟩ := except_bind_eq_ok.mp ha
    refine ⟨found, hfound, ?_⟩
    rintro value hvalue
    cases hvalue
    exact ⟨a, ha⟩
  · rintro ⟨_ | value, hfound, hvalue⟩
    · obtain ⟨a, ha⟩ := hnone
      exact ⟨a, except_bind_eq_ok.mpr ⟨none, hfound, ha⟩⟩
    · obtain ⟨a, ha⟩ := hvalue value rfl
      exact ⟨a, except_bind_eq_ok.mpr ⟨some value, hfound, ha⟩⟩

/-- The number of a key that has to be there: `CborReadUint` of what
`CborMapGet` finds, and an error of the caller if that is nothing. -/
def requiredUint (map : Item) (inKey error : String) : Except Fault Nat := do
  match ← cborMapGet map inKey with
  | some value => cborReadUint value
  | none => throw (.thrown (.runtimeError error))

theorem requiredUint_eq_ok_iff {map : Item} {inKey error : String} {v : Nat} :
    requiredUint map inKey error = .ok v ↔ ∃ width, map.Has inKey (.uint width v) := by
  refine (required_eq_ok_iff (by nofun)).trans ?_
  constructor
  · rintro ⟨value, hvalue, h⟩
    obtain ⟨width, _, rfl⟩ := isaUint_iff.mp (cborReadUint_returns_iff.mp ⟨v, h⟩)
    cases h
    exact ⟨width, hvalue⟩
  · rintro ⟨width, hvalue⟩
    exact ⟨_, hvalue, rfl⟩

/-- The search for the number is all that may be undefined. -/
theorem defined_requiredUint_iff {map : Item} {inKey error : String} :
    Defined (requiredUint map inKey error) ↔ map.Holds inKey fun _ => True :=
  defined_lookup_iff (defined_throw _) fun value => iff_of_true (defined_cborReadUint value) trivial

end Cbor
