/-
# `Theory.Splice` — overwriting a range of a memory

`splice f base data` is the memory `f` with the cells from `base` on replaced
by `data`.  A range can be written in pieces, first part first, and a piece
that has been written may be written again.
-/
import Mathlib

namespace Program

variable {α : Type}

/-- `f`, with `data` in the cells `base`, `base + 1`, …. -/
def splice (f : Nat → α) (base : Nat) (data : List α) : Nat → α := fun a =>
  if base ≤ a then data[a - base]?.getD (f a) else f a

section

variable (f : Nat → α) (base : Nat)

@[simp] theorem splice_nil : splice f base [] = f := by
  funext a
  simp [splice]

theorem splice_of_lt (data : List α) {a : Nat} (h : a < base) :
    splice f base data a = f a := by
  simp [splice, Nat.not_le.mpr h]

theorem splice_of_ge (data : List α) {a : Nat} (h : base + data.length ≤ a) :
    splice f base data a = f a := by
  unfold splice
  rw [if_pos (by omega), List.getElem?_eq_none (by omega), Option.getD_none]

theorem splice_add (data : List α) (i : Nat) :
    splice f base data (base + i) = data[i]?.getD (f (base + i)) := by
  unfold splice
  rw [if_pos (by omega), Nat.add_sub_cancel_left]

theorem splice_cons (x : α) (xs : List α) :
    splice f base (x :: xs) = splice (Function.update f base x) (base + 1) xs := by
  funext a
  rcases Nat.lt_trichotomy a base with h | rfl | h
  · rw [splice_of_lt _ _ _ h, splice_of_lt _ _ _ (by omega),
      Function.update_of_ne (by omega)]
  · rw [splice_of_lt (Function.update f a x) (a + 1) xs (Nat.lt_succ_self a),
      Function.update_self]
    simp [splice]
  · obtain ⟨i, rfl⟩ := Nat.exists_eq_add_of_lt h
    rw [show base + i + 1 = base + 1 + i by omega, splice_add,
      Function.update_of_ne (by omega), show base + 1 + i = base + (i + 1) by omega,
      splice_add, List.getElem?_cons_succ]

theorem splice_append (xs ys : List α) :
    splice f base (xs ++ ys) = splice (splice f base xs) (base + xs.length) ys := by
  induction xs generalizing f base with
  | nil => simp
  | cons x xs ih =>
      rw [List.cons_append, splice_cons, ih, ← splice_cons, List.length_cons,
        show base + 1 + xs.length = base + (xs.length + 1) by omega]

/-- Writing the rest of a range that is written already changes nothing. -/
theorem splice_drop_self (data : List α) (n : Nat) :
    splice (splice f base data) (base + n) (data.drop n) = splice f base data := by
  funext a
  rcases Nat.lt_or_ge a (base + n) with h | h
  · rw [splice_of_lt _ _ _ h]
  · obtain ⟨i, rfl⟩ := Nat.exists_eq_add_of_le h
    rw [splice_add, List.getElem?_drop, Nat.add_assoc, splice_add]
    cases data[n + i]? <;> rfl

end

end Program
