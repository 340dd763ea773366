/-
# `Cbor.Item` — CBOR data items and the accessors of libcbor

`Item` is what `cbor_load` can return, as far as the accessors can tell two
items apart: integers with their width, definite and indefinite strings,
arrays, maps and tags, and the items of major type 7 split into control
values (width zero) and floats.

libcbor documents a precondition for each accessor and does not check it in a
release build, so an accessor applied to the wrong kind of item is undefined
behaviour here.  The decoder and the encoder are not part of this file's code:
`Libcbor` takes them as parameters, and `Libcbor.Encodes` says of one encoding
what a user of the library relies on.
-/
import ProgrammableLoad.Cpp.Double

namespace Cbor

open Cpp

inductive IntWidth where
  | int8 | int16 | int32 | int64
deriving DecidableEq

inductive FloatWidth where
  | half | single | double
deriving DecidableEq

/-- A decoded data item.  `text` and `bytes` are the definite strings,
`textChunks` and `bytesChunks` the indefinite ones. -/
inductive Item where
  | uint (width : IntWidth) (value : Nat)
  | negint (width : IntWidth) (value : Nat)
  | bytes (data : List Byte)
  | bytesChunks (chunks : List (List Byte))
  | text (data : List Byte)
  | textChunks (chunks : List (List Byte))
  | array (definite : Bool) (items : List Item)
  | map (definite : Bool) (pairs : List (Item × Item))
  | tag (value : Nat) (item : Item)
  | ctrl (value : Nat)
  | float (width : FloatWidth) (value : Double)

namespace Item

def ctrlFalse : Item := .ctrl 20
def ctrlTrue : Item := .ctrl 21
def ctrlNull : Item := .ctrl 22

/-- `cbor_build_bool` -/
def ofBool (b : Bool) : Item := if b then ctrlTrue else ctrlFalse

/-- `cbor_build_string` -/
def ofString (s : String) : Item := .text (ascii s)

/-! ## Predicates: defined on every item -/

def isaUint : Item → Bool
  | .uint _ _ => true
  | _ => false

def isaString : Item → Bool
  | .text _ => true
  | .textChunks _ => true
  | _ => false

def isaBytestring : Item → Bool
  | .bytes _ => true
  | .bytesChunks _ => true
  | _ => false

def isaMap : Item → Bool
  | .map _ _ => true
  | _ => false

def isaArray : Item → Bool
  | .array _ _ => true
  | _ => false

def isaFloatCtrl : Item → Bool
  | .ctrl _ => true
  | .float _ _ => true
  | _ => false

def isBool : Item → Bool
  | .ctrl v => v == 20 || v == 21
  | _ => false

def isNull : Item → Bool
  | .ctrl v => v == 22
  | _ => false

/-- `cbor_is_float`: of major type 7 and not a control value. -/
def isFloat : Item → Bool
  | .float _ _ => true
  | _ => false

/-- `cbor_typeof`, the number of the major type. -/
def typeOf : Item → Nat
  | .uint _ _ => 0
  | .negint _ _ => 1
  | .bytes _ => 2
  | .bytesChunks _ => 2
  | .text _ => 3
  | .textChunks _ => 3
  | .array _ _ => 4
  | .map _ _ => 5
  | .tag _ _ => 6
  | .ctrl _ => 7
  | .float _ _ => 7

/-! ## Accessors: defined on the items they are documented for -/

/-- `cbor_float_ctrl_is_ctrl`, equally `cbor_float_get_width(…) == CBOR_FLOAT_0`. -/
def floatCtrlIsCtrl : Item → Except Fault Bool
  | .ctrl _ => .ok true
  | .float _ _ => .ok false
  | _ => .error (.undefined "cbor_float_ctrl_is_ctrl")

def getBool : Item → Except Fault Bool
  | .ctrl v =>
      if v = 21 then .ok true
      else if v = 20 then .ok false
      else .error (.undefined "cbor_get_bool")
  | _ => .error (.undefined "cbor_get_bool")

def floatGetFloat : Item → Except Fault Double
  | .float _ v => .ok v
  | _ => .error (.undefined "cbor_float_get_float")

/-- The accessor for the integer's width, `cbor_get_uint8` and so on. -/
def getUint : Item → Except Fault Nat
  | .uint _ v => .ok v
  | _ => .error (.undefined "cbor_get_uint")

def getUint32 : Item → Except Fault Nat
  | .uint .int32 v => .ok v
  | _ => .error (.undefined "cbor_get_uint32")

def arrayIsIndefinite : Item → Except Fault Bool
  | .array definite _ => .ok !definite
  | _ => .error (.undefined "cbor_array_is_indefinite")

/-- `cbor_array_size` together with `cbor_array_handle`. -/
def arrayItems : Item → Except Fault (List Item)
  | .array _ items => .ok items
  | _ => .error (.undefined "cbor_array_size")

/-- `cbor_array_get` -/
def arrayGet (item : Item) (i : Nat) : Except Fault Item := do
  match (← item.arrayItems)[i]? with
  | some x => .ok x
  | none => .error (.undefined "cbor_array_get")

/-- `cbor_map_size` together with `cbor_map_handle`. -/
def mapHandle : Item → Except Fault (List (Item × Item))
  | .map _ pairs => .ok pairs
  | _ => .error (.undefined "cbor_map_handle")

/-- `cbor_string_handle` together with `cbor_string_length`: definite text
only, the handle of an indefinite string is not one to its bytes. -/
def stringHandle : Item → Except Fault (List Byte)
  | .text data => .ok data
  | _ => .error (.undefined "cbor_string_handle")

def stringIsDefinite : Item → Except Fault Bool
  | .text _ => .ok true
  | .textChunks _ => .ok false
  | _ => .error (.undefined "cbor_string_is_definite")

def bytestringIsDefinite : Item → Except Fault Bool
  | .bytes _ => .ok true
  | .bytesChunks _ => .ok false
  | _ => .error (.undefined "cbor_bytestring_is_definite")

/-- `cbor_bytestring_handle` together with `cbor_bytestring_length`. -/
def bytestringHandle : Item → Except Fault (List Byte)
  | .bytes data => .ok data
  | _ => .error (.undefined "cbor_bytestring_handle")

theorem getBool_ctrl_of_not {n : Nat} (h : ¬ (Item.ctrl n).isBool = true) :
    (Item.ctrl n).getBool = .error (.undefined "cbor_get_bool") := by
  simp only [isBool, Bool.or_eq_true, beq_iff_eq, not_or] at h
  rw [getBool, if_neg h.2, if_neg h.1]

/-- Reading a truth value is defined exactly on the truth values. -/
theorem getBool_eq_ok_iff {item : Item} :
    (∃ b, item.getBool = .ok b) ↔ item.isBool = true := by
  cases item with
  | ctrl v =>
      by_cases h21 : v = 21
      · subst h21
        exact ⟨fun _ => rfl, fun _ => ⟨_, rfl⟩⟩
      · by_cases h20 : v = 20
        · subst h20
          exact ⟨fun _ => rfl, fun _ => ⟨_, rfl⟩⟩
        · simp [getBool, isBool, h21, h20]
  | _ => simp [getBool, isBool]

end Item

/-! ## Decoding and encoding -/

/-- The `cbor_error_code`s of a failed load. -/
inductive LoadError where
  | notEnoughData | noData | malformed | memError | syntaxError
deriving DecidableEq

/-- The number a code is logged as; zero is `CBOR_ERR_NONE`. -/
def LoadError.toNat : LoadError → Nat
  | .notEnoughData => 1
  | .noData => 2
  | .malformed => 3
  | .memError => 4
  | .syntaxError => 5

/-- The error of a `cbor_load_result`. -/
structure LoadFailure where
  code : LoadError
  position : Nat

/-- The library's decoder and encoder.  `load` decodes the item at the front
of a buffer and ignores what follows it; of an empty buffer it reports that
there is no data. -/
structure Libcbor where
  load : List Byte → Except LoadFailure Item
  serialize : Item → List Byte
  load_nil : load [] = .error ⟨.noData, 0⟩

/-- `bytes` is the encoding of `item`: it decodes to it, and cut short
anywhere it does not decode. -/
structure Libcbor.Encodes (cbor : Libcbor) (bytes : List Byte) (item : Item) : Prop where
  load_eq : cbor.load bytes = .ok item
  load_take : ∀ n < bytes.length, ∃ e, cbor.load (bytes.take n) = .error e

/-- An encoding loads from a buffer that starts with it, and from no less. -/
theorem Libcbor.Encodes.load_take_iff {cbor : Libcbor} {bytes : List Byte} {item loaded : Item}
    (h : cbor.Encodes bytes item) {n : Nat} :
    cbor.load (bytes.take n) = .ok loaded ↔ bytes.length ≤ n ∧ loaded = item := by
  by_cases hn : bytes.length ≤ n
  · rw [List.take_of_length_le hn, h.load_eq]
    simp [hn, eq_comm]
  · obtain ⟨e, he⟩ := h.load_take n (Nat.lt_of_not_le hn)
    rw [he]
    simp [hn]

theorem Libcbor.Encodes.ne_nil {cbor : Libcbor} {bytes : List Byte} {item : Item}
    (h : cbor.Encodes bytes item) : bytes ≠ [] := by
  rintro rfl
  have hload := h.load_eq
  rw [cbor.load_nil] at hload
  cases hload

/-- A library that knows the encodings in a table. -/
def Libcbor.ofTable (codes : List (List Byte × Item)) (serialize : Item → List Byte)
    (h : ∀ c ∈ codes, c.1 ≠ []) : Libcbor where
  load buf :=
    match codes.find? fun c => c.1.isPrefixOf buf with
    | some c => .ok c.2
    | none => if buf = [] then .error ⟨.noData, 0⟩ else .error ⟨.notEnoughData, 0⟩
  serialize := serialize
  load_nil := by
    have hnone : (codes.find? fun c => c.1.isPrefixOf []) = none := by
      rw [List.find?_eq_none]
      intro c hc hfront
      exact h c hc (List.prefix_nil.mp (List.isPrefixOf_iff_prefix.mp hfront))
    rw [hnone]
    rfl

theorem Libcbor.ofTable_encodes {codes : List (List Byte × Item)}
    {serialize : Item → List Byte} {h : ∀ c ∈ codes, c.1 ≠ []} {bytes : List Byte} {item : Item}
    (hfind : (codes.find? fun c => c.1.isPrefixOf bytes) = some (bytes, item))
    (hnone : ∀ n < bytes.length, ∀ c ∈ codes, c.1.isPrefixOf (bytes.take n) = false) :
    (Libcbor.ofTable codes serialize h).Encodes bytes item := by
  constructor
  · simp only [Libcbor.ofTable, hfind]
  · intro n hn
    have hcut : (codes.find? fun c => c.1.isPrefixOf (bytes.take n)) = none := by
      rw [List.find?_eq_none]
      intro c hc
      rw [hnone n hn c hc]
      exact Bool.false_ne_true
    simp only [Libcbor.ofTable, hcut]
    split
    · exact ⟨_, rfl⟩
    · exact ⟨_, rfl⟩

/-- It is enough that the encodings in the table differ and none starts with another. -/
theorem Libcbor.ofTable_encodes_of_prefix {codes : List (List Byte × Item)}
    {serialize : Item → List Byte} {h : ∀ c ∈ codes, c.1 ≠ []} {bytes : List Byte} {item : Item}
    (hmem : (bytes, item) ∈ codes) (hnodup : (codes.map Prod.fst).Nodup)
    (hfront : ∀ c ∈ codes, c.1.isPrefixOf bytes = true → c.1 = bytes) :
    (Libcbor.ofTable codes serialize h).Encodes bytes item := by
  refine ofTable_encodes ?_ ?_
  · have hsome : (codes.find? fun c => c.1.isPrefixOf bytes).isSome = true :=
      List.find?_isSome.mpr
        ⟨_, hmem, List.isPrefixOf_iff_prefix.mpr (List.prefix_refl bytes)⟩
    obtain ⟨c, hc⟩ := Option.isSome_iff_exists.mp hsome
    have hstarts : c.1.isPrefixOf bytes = true :=
      List.find?_some (p := fun c : List Byte × Item => c.1.isPrefixOf bytes) hc
    have hfirst : c.1 = bytes := hfront c (List.mem_of_find?_eq_some hc) hstarts
    rw [hc, List.inj_on_of_nodup_map hnodup (List.mem_of_find?_eq_some hc) hmem hfirst]
  · intro n hn c hc
    rw [Bool.eq_false_iff]
    intro hcut
    have htake : c.1 <+: bytes.take n := List.isPrefixOf_iff_prefix.mp hcut
    have hwhole : c.1 = bytes := hfront c hc
      (List.isPrefixOf_iff_prefix.mpr (htake.trans (List.take_prefix n bytes)))
    have hlength := htake.length_le
    rw [hwhole, List.length_take] at hlength
    omega

end Cbor
