/-
# `Cpp.Fault` — how a C++ function ends abnormally

The functions modelled here either return, throw an exception of the standard
library, or reach undefined behaviour: an operation outside its documented
precondition (a subscript out of range, a read of an object that was never
written, a library accessor applied to the wrong kind of item).  A handler
catches the first kind of fault and never the second.

The rest of the file is the part of the standard library the modelled code
leans on: bytes, text as bytes, `strncpy`, `std::span::subspan`, checked access, the
width of `size_t` and the hexadecimal fields of the `fmt` format strings.
-/
import ProgrammableLoad.Theory.Program

namespace Cpp

/-- The exception classes that are thrown, each with its `what()` text. -/
inductive Exception where
  | runtimeError (what : String)
  | logicError (what : String)
  | invalidArgument (what : String)
  | outOfRange (what : String)
  | systemError (what : String)
deriving DecidableEq, Repr

/-- An abnormal end: an exception, or undefined behaviour in the named
operation. -/
inductive Fault where
  | thrown (e : Exception)
  | undefined (op : String)
deriving DecidableEq, Repr

section Handler

variable {σ α : Type}

/-- `try { m } catch(const std::exception &e)`: an exception becomes a value,
the state stays as `m` left it, and undefined behaviour is not caught. -/
def catching (m : EStateM Fault σ α) : EStateM Fault σ (Except Exception α) := fun s =>
  match m.run s with
  | .ok a t => .ok (.ok a) t
  | .error (.thrown e) t => .ok (.error e) t
  | .error (.undefined op) t => .error (.undefined op) t

theorem catching_run_ok {m : EStateM Fault σ α} {s t : σ} {a : α}
    (h : m.run s = .ok a t) : (catching m).run s = .ok (.ok a) t := by
  simp only [catching, EStateM.run] at h ⊢
  rw [h]

theorem catching_run_thrown {m : EStateM Fault σ α} {s t : σ} {e : Exception}
    (h : m.run s = .error (.thrown e) t) : (catching m).run s = .ok (.error e) t := by
  simp only [catching, EStateM.run] at h ⊢
  rw [h]

theorem catching_run_undefined {m : EStateM Fault σ α} {s t : σ} {op : String}
    (h : m.run s = .error (.undefined op) t) :
    (catching m).run s = .error (.undefined op) t := by
  simp only [catching, EStateM.run] at h ⊢
  rw [h]

theorem catching_run_congr {m m' : EStateM Fault σ α} {s s' : σ}
    (h : m.run s = m'.run s') : (catching m).run s = (catching m').run s' := by
  simp only [catching, EStateM.run] at h ⊢
  rw [h]

/-- A handler returns what its body returned or threw. -/
theorem catching_run_eq_ok {m : EStateM Fault σ α} {s t : σ} {answer : Except Exception α}
    (h : (catching m).run s = .ok answer t) :
    (∃ a, m.run s = .ok a t ∧ answer = .ok a) ∨
      ∃ e, m.run s = .error (.thrown e) t ∧ answer = .error e := by
  rcases hm : m.run s with ⟨a, u⟩ | ⟨e | op, u⟩
  · rw [catching_run_ok hm] at h
    cases h
    exact .inl ⟨a, rfl, rfl⟩
  · rw [catching_run_thrown hm] at h
    cases h
    exact .inr ⟨e, rfl, rfl⟩
  · rw [catching_run_undefined hm] at h
    cases h

/-- A handler that returns although its body failed caught an exception. -/
theorem catching_run_of_error {m : EStateM Fault σ α} {s t u : σ} {e : Fault}
    {answer : Except Exception α} (hm : m.run s = .error e u)
    (h : (catching m).run s = .ok answer t) : t = u ∧ ∃ thrown, answer = .error thrown := by
  cases e with
  | thrown e =>
      rw [catching_run_thrown hm] at h
      cases h
      exact ⟨rfl, e, rfl⟩
  | undefined op =>
      rw [catching_run_undefined hm] at h
      cases h

@[simp] theorem stateAfter_catching (m : EStateM Fault σ α) (s : σ) :
    Program.stateAfter (catching m) s = Program.stateAfter m s := by
  rcases hm : m.run s with ⟨a, t⟩ | ⟨e | op, t⟩
  · rw [Program.stateAfter_of_ok (catching_run_ok hm), Program.stateAfter_of_ok hm]
  · rw [Program.stateAfter_of_ok (catching_run_thrown hm), Program.stateAfter_of_error hm]
  · rw [Program.stateAfter_of_error (catching_run_undefined hm), Program.stateAfter_of_error hm]

theorem keeps_catching {I : σ → Prop} {m : EStateM Fault σ α} (hm : Program.Keeps I m) :
    Program.Keeps I (catching m) := by
  intro s hs
  have hk := hm s hs
  rcases hrun : m.run s with ⟨a, t⟩ | ⟨e | op, t⟩
  · rw [hrun] at hk
    rw [catching_run_ok hrun]
    exact hk
  · rw [hrun] at hk
    rw [catching_run_thrown hrun]
    exact hk
  · rw [hrun] at hk
    rw [catching_run_undefined hrun]
    exact hk

/-- A function no exception leaves. -/
def NoExcept (m : EStateM Fault σ α) : Prop := ∀ s t e, m.run s ≠ .error (.thrown e) t

theorem NoExcept.ret (a : α) : NoExcept (pure a : EStateM Fault σ α) := fun _ _ _ h => nomatch h

theorem NoExcept.modify (f : σ → σ) : NoExcept (modify f : EStateM Fault σ PUnit) :=
  fun _ _ _ h => nomatch h

theorem NoExcept.catching (m : EStateM Fault σ α) : NoExcept (catching m) := by
  intro s t e h
  rcases hm : m.run s with ⟨a, u⟩ | ⟨e' | op, u⟩
  · rw [catching_run_ok hm] at h
    cases h
  · rw [catching_run_thrown hm] at h
    cases h
  · rw [catching_run_undefined hm] at h
    cases h

theorem NoExcept.bind {β : Type} {m : EStateM Fault σ α} {f : α → EStateM Fault σ β}
    (hm : NoExcept m) (hf : ∀ a, NoExcept (f a)) : NoExcept (m >>= f) := by
  intro s t e h
  cases hrun : m.run s with
  | ok a u =>
      rw [Program.run_bind_of_ok hrun] at h
      exact hf a u t e h
  | error e' u =>
      rw [Program.run_bind_of_error hrun] at h
      cases h
      exact hm s t e hrun

end Handler

abbrev Byte := BitVec 8

instance Byte.lawfulBEq : LawfulBEq Byte := inferInstance

/-- The subscripts `0` and `1` of a two-element array are written as literals. -/
instance neZeroTwo : NeZero (2 : Nat) := ⟨by decide⟩

/-- The bytes of a text in the basic character set. -/
def ascii (s : String) : List Byte := s.toList.map fun c => BitVec.ofNat 8 c.toNat

/-- `strncpy`: what lies before the terminator, up to `n` bytes of it, and zeros
in the rest of the `n` bytes. -/
def strncpy (src : List Byte) (n : Nat) : List Byte :=
  let text := (src.takeWhile fun c => c ≠ 0).take n
  text ++ List.replicate (n - text.length) 0

@[simp] theorem length_strncpy (src : List Byte) (n : Nat) : (strncpy src n).length = n := by
  have hle : ((src.takeWhile fun c => c ≠ 0).take n).length ≤ n := List.length_take_le _ _
  rw [strncpy, List.length_append, List.length_replicate]
  omega

/-- A text without a terminator in it is what lies before the one behind it. -/
theorem takeWhile_append_zero {text : List Byte} (h : 0 ∉ text) :
    (text ++ [0]).takeWhile (fun c => c ≠ 0) = text := by
  rw [List.takeWhile_append_of_pos]
  · exact List.append_nil text
  · intro c hc
    exact decide_eq_true fun hzero => h (hzero ▸ hc)

/-- `{:0wx}`: `n` in hexadecimal, filled with zeros up to `w` digits. -/
def hex (w n : Nat) : String :=
  let digits := Nat.toDigits 16 n
  String.ofList (List.replicate (w - digits.length) '0' ++ digits)

/-- The number of bits of `size_t` on the target, a 32-bit Cortex-A7. -/
def sizeBits : Nat := 32

/-- `a - b` in `size_t`: wraps around when `b` is the larger one. -/
def sizeSub (a b : Nat) : Nat := (a + 2 ^ sizeBits - b) % 2 ^ sizeBits

theorem sizeSub_of_le {a b : Nat} (h : b ≤ a) (ha : a < 2 ^ sizeBits) :
    sizeSub a b = a - b := by
  unfold sizeSub
  have hab : a + 2 ^ sizeBits - b = (a - b) + 2 ^ sizeBits := by omega
  rw [hab, Nat.add_mod_right, Nat.mod_eq_of_lt (by omega)]

section Span

variable {α σ : Type}

/-- `data.subspan(offset, count)`, defined when the range lies in `data`. -/
def subspan (data : List α) (offset count : Nat) : EStateM Fault σ (List α) :=
  if offset + count ≤ data.length then
    pure ((data.drop offset).take count)
  else
    throw (.undefined "std::span::subspan")

@[simp] theorem subspan_run {data : List α} {offset count : Nat} (s : σ)
    (h : offset + count ≤ data.length) :
    (subspan data offset count).run s = .ok ((data.drop offset).take count) s := by
  simp [subspan, h]

theorem subspan_run_fault {data : List α} {offset count : Nat} (s : σ)
    (h : data.length < offset + count) :
    (subspan data offset count).run s
      = .error (.undefined "std::span::subspan") s := by
  simp [subspan, Nat.not_le.mpr h]

end Span

example : hex 4 0x1f = "001f" := by decide

end Cpp
