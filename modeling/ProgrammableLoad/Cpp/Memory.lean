/-
# `Cpp.Memory` — objects in memory and the types of 32 bits

An object is the list of its elements, and a subscript outside of it is
undefined.  So is a shift by a negative amount or by the width of the operand or
more, and an `int` that is incremented past its largest value.
-/
import ProgrammableLoad.Cpp.Fault

namespace Cpp

/-- `size_t`, which has `sizeBits` bits. -/
abbrev Size := BitVec 32

section Objects

variable {α : Type} {l : List α} {i : Nat} {a : α}

def size (l : List α) : Size := BitVec.ofNat 32 l.length

/-- `l[i]` -/
def load (l : List α) (i : Nat) : Except Fault α :=
  match l[i]? with
  | some a => .ok a
  | none => .error (.undefined "operator[]")

/-- `l[i] = a` -/
def store (l : List α) (i : Nat) (a : α) : Except Fault (List α) :=
  if i < l.length then .ok (l.set i a) else .error (.undefined "operator[]")

theorem toNat_size (h : l.length < 2 ^ 32) : (size l).toNat = l.length := by
  rw [size, BitVec.toNat_ofNat, Nat.mod_eq_of_lt h]

theorem load_eq_ok (h : l[i]? = some a) : load l i = .ok a := by
  rw [load, h]

/-- The element at `i`, by what is left of the object from there on. -/
theorem drop_eq_cons {rest : List α} (h : l.drop i = a :: rest) :
    i < l.length ∧ l[i]? = some a ∧ l.drop (i + 1) = rest := by
  refine ⟨?_, ?_, ?_⟩
  · rw [← Nat.not_le, ← List.drop_eq_nil_iff, h]
    exact List.cons_ne_nil a rest
  · rw [← List.head?_drop, h, List.head?_cons]
  · rw [← List.tail_drop, h, List.tail_cons]

/-- The element behind what was written so far. -/
theorem store_append {written rest : List α} (h : rest ≠ []) (a : α) :
    store (written ++ rest) written.length a = .ok (written ++ [a] ++ rest.tail) := by
  obtain ⟨b, rest, rfl⟩ := List.exists_cons_of_ne_nil h
  rw [store, if_pos (by simp)]
  simp

end Objects

/-! ## Arithmetic -/

/-- `x << n` -/
def shl (x : BitVec 32) (n : Int) : Except Fault (BitVec 32) :=
  if 0 ≤ n ∧ n < 32 then .ok (x <<< n.toNat) else .error (.undefined "<<")

/-- `x >> n` -/
def shr (x : BitVec 32) (n : Size) : Except Fault (BitVec 32) :=
  if n < 32 then .ok (x >>> n.toNat) else .error (.undefined ">>")

/-- `n++` for an `int`. -/
def increment (n : Int) : Except Fault Int :=
  if n < 2 ^ 31 - 1 then .ok (n + 1) else .error (.undefined "++")

/-- An `int` where a `size_t` is needed. -/
def toSize (n : Int) : Size := BitVec.ofInt 32 n

theorem toNat_toSize {n : Nat} (h : n < 2 ^ 32) : (toSize n).toNat = n := by
  rw [toSize, BitVec.ofInt_natCast, BitVec.toNat_ofNat, Nat.mod_eq_of_lt h]

theorem shr_eq_ok (x : BitVec 32) {n : Size} {k : Nat} (hn : n.toNat = k) (hk : k < 32) :
    shr x n = .ok (x >>> k) := by
  have hlt : n < 32 := by
    rw [BitVec.lt_def, hn]
    exact hk
  rw [shr, if_pos hlt, hn]

theorem shl_eq_ok (x : BitVec 32) {k : Nat} (hk : k < 32) : shl x k = .ok (x <<< k) := by
  rw [shl, if_pos ⟨Int.natCast_nonneg k, Int.ofNat_lt.mpr hk⟩, Int.toNat_natCast]

theorem increment_eq_ok {n : Nat} (h : n < 2 ^ 31 - 1) : increment n = .ok ↑(n + 1) := by
  rw [increment, if_pos (by omega)]
  rfl

end Cpp
