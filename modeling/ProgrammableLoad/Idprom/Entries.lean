/-
# `Idprom.Entries` — one entry of the payload

A turn of the first loop does one of three things: it takes the entry, it
throws, or it does something undefined.  `Accepted` are the entries that can
be taken and `Readable` those that do nothing undefined; the prober's state
matters for one thing only, a serial number pointer is refused once there is a
serial number.

A loop returns if and only if all entries can be taken one after the other,
`forM_readEntry_returns_iff`, and the members are then what was stored last,
`forM_readEntry_member`.
-/
import ProgrammableLoad.Cpp.Defined
import ProgrammableLoad.Idprom.SerialNumber
import ProgrammableLoad.Theory.LastWriter

namespace Idprom

open Cpp Cbor Cbor.Util Program LastWriter

/-! ## Keys and members -/

/-- The members the payload fills. -/
inductive Member where
  | hwRevision | hwDesc | hwSerial
deriving DecidableEq

/-- The member a key is for. -/
def IdpromKey.member? : IdpromKey → Option Member
  | .hwRevision => some .hwRevision
  | .hardwareDescription => some .hwDesc
  | .serialString => some .hwSerial
  | .serialPointer => some .hwSerial
  | .manufacturer => none
  | .requiredDrivers => none

/-- The member whose text is the value of the key. -/
def IdpromKey.textMember? : IdpromKey → Option Member
  | .serialPointer => none
  | key => key.member?

/-- The entry has this key, in the width that is read. -/
def HasKey (key : IdpromKey) (pair : Item × Item) : Prop := pair.1 = .uint .int32 key.value

theorem ofValue?_value (key : IdpromKey) : IdpromKey.ofValue? key.value = some key := by
  cases key <;> decide

theorem eq_value_of_ofValue? {k : Nat} {key : IdpromKey} (h : IdpromKey.ofValue? k = some key) :
    k = key.value := by
  have hfind := List.find?_some h
  exact (of_decide_eq_true hfind).symm

theorem value_injective {key key' : IdpromKey} (h : key.value = key'.value) : key = key' := by
  have heq := ofValue?_value key
  rw [h, ofValue?_value] at heq
  exact (Option.some.inj heq).symm

namespace Probulator

variable {ω : Type} {m m' : Member}

def member (s : Probulator ω) : Member → Option (List Byte)
  | .hwRevision => s.hwRevision
  | .hwDesc => s.hwDesc
  | .hwSerial => s.hwSerial

def put (m : Member) (str : List Byte) (s : Probulator ω) : Probulator ω :=
  match m with
  | .hwRevision => { s with hwRevision := some str }
  | .hwDesc => { s with hwDesc := some str }
  | .hwSerial => { s with hwSerial := some str }

@[simp] theorem member_put_self (str : List Byte) (s : Probulator ω) :
    (s.put m str).member m = some str := by
  cases m <;> rfl

@[simp] theorem member_put_ne (str : List Byte) (s : Probulator ω) (h : m' ≠ m) :
    (s.put m str).member m' = s.member m' := by
  cases m <;> cases m' <;> first | rfl | exact absurd rfl h

@[simp] theorem put_world (str : List Byte) (s : Probulator ω) : (s.put m str).world = s.world := by
  cases m <;> rfl

/-- What a turn stores, if anything. -/
def store (s : Probulator ω) : Option (Member × List Byte) → Probulator ω
  | none => s
  | some x => s.put x.1 x.2

end Probulator

/-! ## Entries -/

/-- An entry whose key is read in its width, and a definite text that is used
comes to something. -/
structure Readable {ω : Type} (env : Env ω) (pair : Item × Item) : Prop where
  width_eq : ∀ width k, pair.1 = .uint width k → width = .int32
  text : ∀ key data, key.textMember?.isSome = true → HasKey key pair → pair.2 = .text data →
    Defined (env.text data)

/-- The entries that can be taken. -/
inductive Accepted {ω : Type} (env : Env ω) (pair : Item × Item) : Prop
  | unused {k} (hkey : pair.1 = .uint .int32 k)
      (h : ∀ key, IdpromKey.ofValue? k = some key → key.member? = none)
  | text {key data str} (hkey : HasKey key pair) (hmember : key.textMember?.isSome = true)
      (hvalue : pair.2 = .text data) (h : env.text data = .ok str)
  | pointer {s} (hkey : HasKey .serialPointer pair) (h : Replies env.device pair.2 s)

/-- What an entry stores, if it is taken. -/
def stored {ω : Type} (env : Env ω) (pair : Item × Item) : Option (Member × List Byte) :=
  match pair.1 with
  | .uint _ k =>
      match IdpromKey.ofValue? k with
      | some .serialPointer =>
          (parseAndReadSerialNumberPointer env.device pair.2).toOption.map fun serial =>
            (.hwSerial, serial)
      | some key =>
          key.member?.bind fun m => (env.definiteString "" pair.2).toOption.map fun str => (m, str)
      | none => none
  | _ => none

/-- The five ways to go through the turn. -/
inductive Shape : Item × Item → Prop
  | notUint {key value} (h : key.isaUint = false) : Shape (key, value)
  | width {width k value} (h : width ≠ .int32) : Shape (.uint width k, value)
  | unused {k value} (h : ∀ key, IdpromKey.ofValue? k = some key → key.member? = none) :
      Shape (.uint .int32 k, value)
  | text {key : IdpromKey} {value} (m : Member) (h : key.textMember? = some m) :
      Shape (.uint .int32 key.value, value)
  | pointer {value} : Shape (.uint .int32 IdpromKey.serialPointer.value, value)

theorem shape (pair : Item × Item) : Shape pair := by
  obtain ⟨key, value⟩ := pair
  cases hkey : key.isaUint with
  | false => exact .notUint hkey
  | true =>
      obtain ⟨width, k, rfl⟩ := isaUint_iff.mp hkey
      by_cases hwidth : width = .int32
      · subst hwidth
        cases hk : IdpromKey.ofValue? k with
        | none => exact .unused (by simp [hk])
        | some key' =>
            obtain rfl := eq_value_of_ofValue? hk
            cases key' with
            | serialPointer => exact .pointer
            | hwRevision => exact .text .hwRevision rfl
            | hardwareDescription => exact .text .hwDesc rfl
            | serialString => exact .text .hwSerial rfl
            | _ =>
                refine .unused ?_
                intro key hkey
                rw [hk] at hkey
                cases hkey
                rfl
      · exact .width hwidth

section Turn

variable {ω : Type} {env : Env ω} {pair : Item × Item} {value : Item} {s t : Probulator ω}

theorem member?_of_textMember? {key : IdpromKey} {m : Member} (h : key.textMember? = some m) :
    key.member? = some m := by
  cases key <;> first | exact h | cases h

/-! ## The functions of a turn -/

theorem definiteString_eq_ok_iff {error : String} {str : List Byte} :
    env.definiteString error value = .ok str ↔
      ∃ data, value = .text data ∧ env.text data = .ok str := by
  cases value with
  | text data =>
      constructor
      · intro h
        exact ⟨data, rfl, h⟩
      · rintro ⟨_, ⟨⟩, h⟩
        exact h
  | _ =>
      constructor
      · intro h
        cases h
      · rintro ⟨_, h, _⟩
        cases h

theorem defined_definiteString_iff {error : String} :
    Defined (env.definiteString error value) ↔
      ∀ data, value = .text data → Defined (env.text data) := by
  cases value with
  | text data =>
      constructor
      · rintro h _ ⟨⟩
        exact h
      · intro h
        exact h data rfl
  | _ => exact iff_of_true (defined_thrown _) nofun

/-! ## The turns -/

theorem readEntry_run_notUint (env : Env ω) (s : Probulator ω) (value : Item) {key : Item}
    (h : key.isaUint = false) :
    ∃ e, (readEntry env (key, value)).run s = .error (.thrown e) s := by
  refine ⟨.runtimeError s!"invalid CBOR key (expected uint, got {key.typeOf})", ?_⟩
  simp [readEntry, h]

theorem readEntry_run_width {width : IntWidth} {k : Nat} (h : width ≠ .int32) :
    (readEntry env (.uint width k, value)).run s = .error (.undefined "cbor_get_uint32") s := by
  cases width <;> first | rfl | exact absurd rfl h

theorem readEntry_run_uint32 (k : Nat) : (readEntry env (.uint .int32 k, value)).run s
    = (readValue env (IdpromKey.ofValue? k) value).run s := rfl

theorem readEntry_run_unused {k : Nat}
    (h : ∀ key, IdpromKey.ofValue? k = some key → key.member? = none) :
    (readEntry env (.uint .int32 k, value)).run s = .ok () s := by
  rw [readEntry_run_uint32]
  cases hk : IdpromKey.ofValue? k with
  | none => rfl
  | some key =>
      have hkey := h key hk
      cases key <;> first | rfl | cases hkey

theorem readEntry_text (env : Env ω) {key : IdpromKey} {m : Member}
    (h : key.textMember? = some m) (value : Item) :
    ∃ error, readEntry env (.uint .int32 key.value, value) =
      MonadExcept.ofExcept (env.definiteString error value) >>= fun str =>
        modify (Probulator.put m str) := by
  cases key <;> cases h
  case hwRevision => exact ⟨_, rfl⟩
  case hardwareDescription => exact ⟨_, rfl⟩
  case serialString => exact ⟨_, rfl⟩

theorem readEntry_run_pointer (array : Item) :
    (readEntry env (.uint .int32 IdpromKey.serialPointer.value, array)).run s =
      if array.isaArray = false then
        .error (.thrown (.runtimeError "invalid serial number ptr (expected array)")) s
      else if s.hwSerial.isSome then
        .error (.thrown (.logicError "encountered serial ptr, but already read serial!")) s
      else
        match parseAndReadSerialNumberPointer env.device array with
        | .ok serial => .ok () (s.put .hwSerial serial)
        | .error e => .error e s := by
  rw [readEntry_run_uint32, ofValue?_value]
  obtain ⟨hwRevision, hwDesc, hwSerial, world⟩ := s
  cases harray : array.isaArray with
  | false => simp [readValue, harray]
  | true =>
      simp only [readValue, harray]
      cases hwSerial with
      | some serial => rfl
      | none => cases parseAndReadSerialNumberPointer env.device array <;> rfl

/-! ## The outcome of a turn -/

theorem hasKey_iff {key key' : IdpromKey} :
    HasKey key' (.uint .int32 key.value, value) ↔ key' = key := by
  constructor
  · intro h
    injection h with _ hvalue
    exact (value_injective hvalue).symm
  · rintro rfl
    rfl

/-- An entry that is not used has none of the keys with a member. -/
theorem not_hasKey_of_unused (value : Item) {k : Nat} {key : IdpromKey} {m : Member}
    (h : ∀ key, IdpromKey.ofValue? k = some key → key.member? = none) (hm : key.member? = some m) :
    ¬ HasKey key (.uint .int32 k, value) := by
  intro hkey
  injection hkey with _ hvalue
  have hnone := h key (hvalue ▸ ofValue?_value key)
  rw [hm] at hnone
  cases hnone

/-- The key in the width that is read, if the entry is accepted. -/
theorem Accepted.key_eq (h : Accepted env pair) : ∃ k, pair.1 = .uint .int32 k := by
  cases h with
  | unused hkey _ => exact ⟨_, hkey⟩
  | text hkey _ _ _ => exact ⟨_, hkey⟩
  | pointer hkey _ => exact ⟨_, hkey⟩

/-- A key that is no unsigned integer, or one of another width, is not accepted. -/
theorem not_accepted_notUint {key : Item} (h : key.isaUint = false) :
    ¬ Accepted env (key, value) := by
  intro haccepted
  obtain ⟨k, rfl⟩ := haccepted.key_eq
  cases h

theorem not_accepted_width {width : IntWidth} {k : Nat} (h : width ≠ .int32) :
    ¬ Accepted env (.uint width k, value) := by
  intro haccepted
  obtain ⟨k, hk⟩ := haccepted.key_eq
  cases hk
  exact h rfl

theorem stored_unused {k : Nat} (h : ∀ key, IdpromKey.ofValue? k = some key → key.member? = none) :
    stored env (.uint .int32 k, value) = none := by
  cases hk : IdpromKey.ofValue? k with
  | none => simp only [stored, hk]
  | some key =>
      have hkey := h key hk
      cases key <;> simp [stored, hk, IdpromKey.member?] at hkey ⊢

theorem stored_text {key : IdpromKey} {m : Member} (h : key.textMember? = some m) (value : Item) :
    stored env (.uint .int32 key.value, value)
      = (env.definiteString "" value).toOption.map fun str => (m, str) := by
  unfold stored
  simp only [ofValue?_value]
  cases key <;> cases h <;> rfl

theorem stored_pointer (array : Item) :
    stored env (.uint .int32 IdpromKey.serialPointer.value, array)
      = (parseAndReadSerialNumberPointer env.device array).toOption.map fun serial =>
          (.hwSerial, serial) := by
  unfold stored
  simp only [ofValue?_value]

theorem accepted_text_iff {key : IdpromKey} {m : Member} (h : key.textMember? = some m) :
    Accepted env (.uint .int32 key.value, value) ↔
      ∃ data str, value = .text data ∧ env.text data = .ok str := by
  constructor
  · intro haccepted
    cases haccepted with
    | unused hkey hunused =>
        exact absurd hkey.symm
          (not_hasKey_of_unused value hunused (member?_of_textMember? h))
    | text _ _ hvalue htext => exact ⟨_, _, hvalue, htext⟩
    | pointer hkey _ =>
        rw [← hasKey_iff.mp hkey] at h
        cases h
  · rintro ⟨data, str, rfl, htext⟩
    exact .text rfl (Option.isSome_of_eq_some h) rfl htext

theorem accepted_pointer_iff {array : Item} :
    Accepted env (.uint .int32 IdpromKey.serialPointer.value, array) ↔
      ∃ s, Replies env.device array s := by
  constructor
  · intro haccepted
    cases haccepted with
    | unused hkey hunused => exact absurd hkey.symm (not_hasKey_of_unused array hunused rfl)
    | text hkey hmember _ _ =>
        rw [hasKey_iff.mp hkey] at hmember
        cases hmember
    | pointer _ hreplies => exact ⟨_, hreplies⟩
  · rintro ⟨s, hreplies⟩
    exact .pointer rfl hreplies

theorem readEntry_run_text_eq_ok_iff {key : IdpromKey} {m : Member}
    (h : key.textMember? = some m) :
    (readEntry env (.uint .int32 key.value, value)).run s = .ok () t ↔
      ∃ data str, value = .text data ∧ env.text data = .ok str ∧ t = s.put m str := by
  obtain ⟨error, hturn⟩ := readEntry_text env h value
  rw [hturn, run_ofExcept_bind_eq_ok]
  constructor
  · rintro ⟨str, hstr, ⟨⟩⟩
    obtain ⟨data, hvalue, htext⟩ := definiteString_eq_ok_iff.mp hstr
    exact ⟨data, str, hvalue, htext, rfl⟩
  · rintro ⟨data, str, hvalue, htext, rfl⟩
    exact ⟨str, definiteString_eq_ok_iff.mpr ⟨data, hvalue, htext⟩, rfl⟩

theorem readEntry_run_pointer_eq_ok_iff {array : Item} :
    (readEntry env (.uint .int32 IdpromKey.serialPointer.value, array)).run s = .ok () t ↔
      ∃ serial, parseAndReadSerialNumberPointer env.device array = .ok serial ∧
        s.hwSerial = none ∧ t = s.put .hwSerial serial := by
  rw [readEntry_run_pointer]
  cases hparse : parseAndReadSerialNumberPointer env.device array with
  | ok serial =>
      obtain ⟨reply, hreply⟩ := parseAndReadSerialNumberPointer_returns_iff.mp ⟨serial, hparse⟩
      rw [if_neg (by simp [hreply.isaArray])]
      cases hserial : s.hwSerial with
      | some old =>
          refine iff_of_false nofun ?_
          rintro ⟨_, _, hnone, _⟩
          cases hnone
      | none =>
          constructor
          · rintro ⟨⟩
            exact ⟨serial, rfl, rfl, rfl⟩
          · rintro ⟨_, ⟨⟩, _, rfl⟩
            rfl
  | error e =>
      refine iff_of_false ?_ ?_
      · split_ifs <;> nofun
      · rintro ⟨serial, hserial, _⟩
        cases hserial

/-- A turn that returns has taken its entry, and stored what it came to. -/
theorem readEntry_run_eq_ok_iff : (readEntry env pair).run s = .ok () t ↔
    Accepted env pair ∧ (HasKey .serialPointer pair → s.hwSerial = none) ∧
      t = s.store (stored env pair) := by
  cases shape pair with
  | @notUint key value hkey =>
      obtain ⟨e, hrun⟩ := readEntry_run_notUint env s value hkey
      rw [hrun]
      exact iff_of_false nofun fun h => not_accepted_notUint hkey h.1
  | width hwidth =>
      rw [readEntry_run_width hwidth]
      exact iff_of_false nofun fun h => not_accepted_width hwidth h.1
  | unused hunused =>
      rw [readEntry_run_unused hunused, stored_unused hunused]
      constructor
      · rintro ⟨⟩
        exact ⟨.unused rfl hunused, fun hkey => absurd hkey (not_hasKey_of_unused _ hunused rfl), rfl⟩
      · rintro ⟨_, _, rfl⟩
        rfl
  | @text key value m hkey =>
      rw [readEntry_run_text_eq_ok_iff hkey, accepted_text_iff hkey, stored_text hkey]
      constructor
      · rintro ⟨data, str, rfl, htext, rfl⟩
        rw [definiteString_eq_ok_iff.mpr ⟨data, rfl, htext⟩]
        refine ⟨⟨data, str, rfl, htext⟩, ?_, rfl⟩
        intro hpointer
        rw [← hasKey_iff.mp hpointer] at hkey
        cases hkey
      · rintro ⟨⟨data, str, rfl, htext⟩, _, rfl⟩
        rw [definiteString_eq_ok_iff.mpr ⟨data, rfl, htext⟩]
        exact ⟨data, str, rfl, htext, rfl⟩
  | pointer =>
      rw [readEntry_run_pointer_eq_ok_iff, accepted_pointer_iff, stored_pointer,
        ← parseAndReadSerialNumberPointer_returns_iff]
      constructor
      · rintro ⟨serial, hparse, hnone, rfl⟩
        rw [hparse]
        exact ⟨⟨serial, rfl⟩, fun _ => hnone, rfl⟩
      · rintro ⟨⟨serial, hparse⟩, hnone, rfl⟩
        rw [hparse]
        exact ⟨serial, rfl, hnone rfl, rfl⟩

/-! ## When a turn is defined -/

theorem readable_notUint {key : Item} (h : key.isaUint = false) : Readable env (key, value) := by
  constructor
  · rintro width k rfl
    cases h
  · rintro key' data _ rfl
    cases h

theorem readable_unused {k : Nat}
    (h : ∀ key, IdpromKey.ofValue? k = some key → key.member? = none) :
    Readable env (.uint .int32 k, value) := by
  constructor
  · rintro _ _ ⟨⟩
    rfl
  · intro key data hmember hkey
    obtain ⟨m, hm⟩ := Option.isSome_iff_exists.mp hmember
    exact absurd hkey (not_hasKey_of_unused value h (member?_of_textMember? hm))

theorem readable_text_iff {key : IdpromKey} {m : Member} (h : key.textMember? = some m) :
    Readable env (.uint .int32 key.value, value) ↔
      ∀ data, value = .text data → Defined (env.text data) := by
  constructor
  · intro hreadable data hvalue
    exact hreadable.text key data (Option.isSome_of_eq_some h) rfl hvalue
  · intro hdefined
    constructor
    · rintro _ _ ⟨⟩
      rfl
    · intro key' data _ _ hvalue
      exact hdefined data hvalue

theorem readable_pointer {array : Item} :
    Readable env (.uint .int32 IdpromKey.serialPointer.value, array) := by
  constructor
  · rintro _ _ ⟨⟩
    rfl
  · intro key data hmember hkey
    rw [hasKey_iff.mp hkey] at hmember
    cases hmember

theorem definedFrom_readEntry_pointer {array : Item} :
    DefinedFrom (readEntry env (.uint .int32 IdpromKey.serialPointer.value, array)) s := by
  intro op t h
  rw [readEntry_run_pointer] at h
  by_cases harray : array.isaArray = false
  · rw [if_pos harray] at h
    cases h
  · rw [if_neg harray] at h
    have hdefined := defined_parseAndReadSerialNumberPointer env.device
      (Bool.eq_true_of_not_eq_false harray)
    split at h
    · cases h
    · split at h
      · cases h
      · cases h
        rename_i hparse
        exact hdefined op hparse

/-- Whether a turn is defined does not depend on the state. -/
theorem definedFrom_readEntry_iff : DefinedFrom (readEntry env pair) s ↔ Readable env pair := by
  cases shape pair with
  | @notUint key value hkey =>
      obtain ⟨e, hrun⟩ := readEntry_run_notUint env s value hkey
      refine iff_of_true ?_ (readable_notUint hkey)
      intro op t h
      rw [hrun] at h
      cases h
  | @width width k value hwidth =>
      refine iff_of_false ?_ ?_
      · intro h
        exact h _ _ (readEntry_run_width hwidth)
      · intro h
        exact hwidth (h.width_eq width k rfl)
  | unused hunused =>
      exact iff_of_true (.of_ok (readEntry_run_unused hunused)) (readable_unused hunused)
  | @text key value m hkey =>
      obtain ⟨error, hturn⟩ := readEntry_text env hkey value
      rw [hturn, definedFrom_ofExcept_bind_iff, readable_text_iff hkey,
        ← defined_definiteString_iff]
      exact and_iff_left fun str _ => definedFrom_modify _ s
  | pointer => exact iff_of_true definedFrom_readEntry_pointer readable_pointer

end Turn

/-! ## The loop -/

/-- The entry leads to a serial number. -/
def SetsSerial (pair : Item × Item) : Prop :=
  HasKey .serialString pair ∨ HasKey .serialPointer pair

/-- What the loop stores, in order. -/
def puts {ω : Type} (env : Env ω) (pairs : List (Item × Item)) : List (Member × List Byte) :=
  pairs.filterMap (stored env)

/-- The entries can all be taken one after the other, from a state with this
serial number. -/
structure Taken {ω : Type} (env : Env ω) (hwSerial : Option (List Byte))
    (pairs : List (Item × Item)) : Prop where
  accepted : ∀ pair ∈ pairs, Accepted env pair
  no_serial : ∀ pair ∈ pairs, HasKey .serialPointer pair → hwSerial = none
  no_serial_before : pairs.Pairwise fun p q => SetsSerial p → ¬ HasKey .serialPointer q

section Loop

variable {ω : Type} {env : Env ω} {pair : Item × Item} {pairs : List (Item × Item)}
  {s t : Probulator ω}

/-- There is a serial number after a turn if there was one or the entry led to
one. -/
theorem hwSerial_store_eq_none_iff (h : Accepted env pair) :
    (s.store (stored env pair)).hwSerial = none ↔ s.hwSerial = none ∧ ¬ SetsSerial pair := by
  cases shape pair with
  | notUint hkey => exact absurd h (not_accepted_notUint hkey)
  | width hwidth => exact absurd h (not_accepted_width hwidth)
  | @unused k value hunused =>
      rw [stored_unused hunused]
      have hsets : ¬ SetsSerial (.uint .int32 k, value) := by
        rintro (hkey | hkey)
        · exact not_hasKey_of_unused value hunused rfl hkey
        · exact not_hasKey_of_unused value hunused rfl hkey
      simp [Probulator.store, hsets]
  | @text key value m hkey =>
      obtain ⟨data, str, rfl, htext⟩ := (accepted_text_iff hkey).mp h
      rw [stored_text hkey, definiteString_eq_ok_iff.mpr ⟨data, rfl, htext⟩]
      simp only [SetsSerial, hasKey_iff]
      cases key <;> cases hkey <;> simp [Probulator.store, Probulator.put, Except.toOption]
  | @pointer array =>
      obtain ⟨reply, hreply⟩ := accepted_pointer_iff.mp h
      rw [stored_pointer, hreply.parse_eq]
      simp [Probulator.store, Probulator.put, Except.toOption, SetsSerial, hasKey_iff]

/-- A loop returns if and only if all of its entries can be taken. -/
theorem forM_readEntry_returns_iff :
    (∃ t, (forM pairs (readEntry env)).run s = .ok () t) ↔ Taken env s.hwSerial pairs := by
  induction pairs generalizing s with
  | nil => exact iff_of_true ⟨s, rfl⟩ ⟨nofun, nofun, .nil⟩
  | cons pair pairs ih =>
      constructor
      · rintro ⟨t, ht⟩
        obtain ⟨u, hu, ht⟩ := forM_cons_run_eq_ok.mp ht
        obtain ⟨haccepted, hpointer, rfl⟩ := readEntry_run_eq_ok_iff.mp hu
        have htail := ih.mp ⟨t, ht⟩
        constructor
        · exact List.forall_mem_cons.mpr ⟨haccepted, htail.accepted⟩
        · refine List.forall_mem_cons.mpr ⟨hpointer, ?_⟩
          intro q hq hkey
          exact ((hwSerial_store_eq_none_iff haccepted).mp (htail.no_serial q hq hkey)).1
        · refine List.pairwise_cons.mpr ⟨?_, htail.no_serial_before⟩
          intro q hq hsets hkey
          exact ((hwSerial_store_eq_none_iff haccepted).mp (htail.no_serial q hq hkey)).2 hsets
      · intro h
        obtain ⟨haccepted, haccepteds⟩ := List.forall_mem_cons.mp h.accepted
        obtain ⟨hpointer, hpointers⟩ := List.forall_mem_cons.mp h.no_serial
        obtain ⟨hbefore, hbefores⟩ := List.pairwise_cons.mp h.no_serial_before
        have hhead := readEntry_run_eq_ok_iff.mpr ⟨haccepted, hpointer, rfl⟩
        have htail : Taken env (s.store (stored env pair)).hwSerial pairs := by
          refine ⟨haccepteds, ?_, hbefores⟩
          intro q hq hkey
          refine (hwSerial_store_eq_none_iff haccepted).mpr ⟨hpointers q hq hkey, ?_⟩
          intro hsets
          exact hbefore q hq hsets hkey
        obtain ⟨t, ht⟩ := ih.mpr htail
        exact ⟨t, forM_cons_run_eq_ok.mpr ⟨_, hhead, ht⟩⟩

/-- A loop that returns has stored what its entries came to, in order. -/
theorem forM_readEntry_run (h : (forM pairs (readEntry env)).run s = .ok () t) :
    t = (puts env pairs).foldl (fun s x => s.put x.1 x.2) s := by
  induction pairs generalizing s with
  | nil => exact forM_nil_run_eq_ok.mp h
  | cons pair pairs ih =>
      obtain ⟨u, hu, ht⟩ := forM_cons_run_eq_ok.mp h
      obtain ⟨_, _, rfl⟩ := readEntry_run_eq_ok_iff.mp hu
      rw [ih ht, puts, puts, List.filterMap_cons]
      cases stored env pair <;> rfl

theorem forM_readEntry_world (h : (forM pairs (readEntry env)).run s = .ok () t) :
    t.world = s.world := by
  rw [forM_readEntry_run h]
  exact read_foldl_of_unowned Probulator.put Probulator.world (fun _ _ _ _ => trivial)
    (fun _ str s _ => Probulator.put_world str s) (I := fun _ => True) trivial

/-- Each member is what was stored there last. -/
theorem forM_readEntry_member (h : (forM pairs (readEntry env)).run s = .ok () t) (m : Member) :
    t.member m = ((lastOf m (puts env pairs)).map some).getD (s.member m) := by
  rw [forM_readEntry_run h]
  exact read_foldl Probulator.put (Probulator.member · m) (fun _ _ _ _ => trivial)
    (fun _ str s _ hne => Probulator.member_put_ne str s hne.symm)
    (fun str _ s _ => Probulator.member_put_self str s) (I := fun _ => True) trivial

end Loop

end Idprom
