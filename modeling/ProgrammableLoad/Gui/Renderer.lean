/-
# `Gui.Renderer` — copying the screen into a framebuffer

The screen of the GUI library has no gaps between its rows; a framebuffer of
the kernel has its own distance from one row to the next, the pitch, which
`createBo` asks for and keeps as the stride.  The swap callback copies the
screen as one block all the same.

The rows end up where the display looks for them exactly if the stride is that
of the screen, or there is no second row to be misplaced, or no pixel at all.
-/
import ProgrammableLoad.Cpp.Fault
import ProgrammableLoad.Theory.Splice

namespace Gui

open Cpp Program

/-- The two buffers as `createBo` makes them for one display mode: the pitch of
each has room for a row, and each is mapped into the address space. -/
structure Buffers where
  pixelSize : BitVec 16 × BitVec 16
  stride : Fin 2 → Nat
  row_le : ∀ i, 4 * pixelSize.1.toNat ≤ stride i
  mapped : ∀ i, stride i * pixelSize.2.toNat < 2 ^ sizeBits

/-- The bytes of the buffers, by their offset. -/
abbrev Pixels := Fin 2 → Nat → Byte

namespace Buffers

variable (b : Buffers)

/-- Width and height, in pixels. -/
def width : Nat := b.pixelSize.1.toNat

def height : Nat := b.pixelSize.2.toNat

/-- The length of `getData(idx)` -/
def dataSize (idx : Fin 2) : Nat := b.stride idx * b.height

/-- The length of the copy, in `size_t`. -/
def copySize : Nat := b.width * b.height * 4 % 2 ^ sizeBits

/-- The swap callback, from the copy on; `screen` is what the library has
drawn. -/
def swapCallback (screen : Nat → Byte) (bufIdx : Fin 2) : EStateM Fault Pixels Unit := do
  if b.dataSize bufIdx < b.copySize then
    throw (.undefined "memcpy")
  else
    modify fun fb => Function.update fb bufIdx
      (splice (fb bufIdx) 0 ((List.range b.copySize).map screen))

/-- The bytes of a row, by their offset in a buffer. -/
def InRow (idx : Fin 2) (y a : Nat) : Prop :=
  b.stride idx * y ≤ a ∧ a < b.stride idx * y + 4 * b.width

/-- The copy of a screen: each pixel is where the display looks for it, and
nothing else has changed. -/
structure Shows (screen : Nat → Byte) (bufIdx : Fin 2) (before after : Pixels) : Prop where
  pixel : ∀ x < b.width, ∀ y < b.height, ∀ k < 4,
    after bufIdx (y * b.stride bufIdx + 4 * x + k) = screen (4 * (y * b.width + x) + k)
  outside : ∀ a, (∀ y < b.height, ¬ b.InRow bufIdx y a) → after bufIdx a = before bufIdx a
  other : ∀ i ≠ bufIdx, after i = before i

/-- Whatever is on the screen and in the buffers, the callback copies it. -/
def CopiesRows (bufIdx : Fin 2) : Prop := ∀ screen before, ∃ after,
  (b.swapCallback screen bufIdx).run before = .ok () after ∧
    b.Shows screen bufIdx before after

section Copy

variable {b : Buffers} {screen : Nat → Byte} {bufIdx : Fin 2} {before : Pixels}

theorem copySize_le (bufIdx : Fin 2) : b.width * b.height * 4 ≤ b.dataSize bufIdx := by
  have hrow : 4 * b.width ≤ b.stride bufIdx := b.row_le bufIdx
  calc b.width * b.height * 4 = 4 * b.width * b.height := by ring
    _ ≤ b.stride bufIdx * b.height := Nat.mul_le_mul_right _ hrow

/-- What is mapped is small enough for `size_t`. -/
theorem copySize_eq : b.copySize = b.width * b.height * 4 := by
  have hle := copySize_le (b := b) 0
  have hlt : b.dataSize 0 < 2 ^ sizeBits := b.mapped 0
  exact Nat.mod_eq_of_lt (Nat.lt_of_le_of_lt hle hlt)

/-- The buffers after the copy. -/
def copied (b : Buffers) (screen : Nat → Byte) (bufIdx : Fin 2) (before : Pixels) : Pixels :=
  Function.update before bufIdx
    (splice (before bufIdx) 0 ((List.range (b.width * b.height * 4)).map screen))

theorem swapCallback_run :
    (b.swapCallback screen bufIdx).run before = .ok () (copied b screen bufIdx before) := by
  have hle := copySize_le (b := b) bufIdx
  rw [swapCallback, if_neg (by rw [copySize_eq]; exact Nat.not_lt.mpr hle), copySize_eq]
  rfl

theorem copied_of_lt {a : Nat} (h : a < b.width * b.height * 4) :
    copied b screen bufIdx before bufIdx a = screen a := by
  have hsplice := splice_add (before bufIdx) 0
    ((List.range (b.width * b.height * 4)).map screen) a
  rw [Nat.zero_add] at hsplice
  rw [copied, Function.update_self, hsplice, List.getElem?_map, List.getElem?_range h]
  rfl

theorem copied_of_ge {a : Nat} (h : b.width * b.height * 4 ≤ a) :
    copied b screen bufIdx before bufIdx a = before bufIdx a := by
  rw [copied, Function.update_self]
  exact splice_of_ge _ _ _ (by simpa using h)

theorem copied_other {i : Fin 2} (h : i ≠ bufIdx) : copied b screen bufIdx before i = before i :=
  Function.update_of_ne h _ _

/-! ## Rows -/

theorem pixel_lt {x y k : Nat} (hx : x < b.width) (hy : y < b.height) (hk : k < 4) :
    4 * (y * b.width + x) + k < b.width * b.height * 4 := by
  have hrows : (y + 1) * b.width ≤ b.height * b.width := Nat.mul_le_mul_right _ hy
  rw [Nat.succ_mul, Nat.mul_comm b.height] at hrows
  omega

/-- If the rows of the buffer are those of the screen, or it has one row at
most, a pixel has the same offset in both. -/
theorem offset_eq {x y k : Nat} (hy : y < b.height)
    (h : b.stride bufIdx = 4 * b.width ∨ b.height ≤ 1) :
    y * b.stride bufIdx + 4 * x + k = 4 * (y * b.width + x) + k := by
  rcases h with h | h
  · rw [h]
    ring
  · have hzero : y = 0 := by omega
    subst hzero
    simp

/-- Every byte of the copy lies in a row then. -/
theorem exists_inRow {a : Nat} (ha : a < b.width * b.height * 4)
    (h : b.stride bufIdx = 4 * b.width ∨ b.height ≤ 1) :
    ∃ y < b.height, b.InRow bufIdx y a := by
  rcases h with h | h
  · have hpos : 0 < 4 * b.width := by
      by_contra hzero
      have hw : b.width = 0 := by omega
      rw [hw] at ha
      omega
    refine ⟨a / (4 * b.width), ?_, ?_, ?_⟩
    · rw [Nat.div_lt_iff_lt_mul hpos]
      calc a < b.width * b.height * 4 := ha
        _ = b.height * (4 * b.width) := by ring
    · rw [h]
      exact Nat.mul_div_le a (4 * b.width)
    · rw [h]
      have hmod := Nat.mod_lt a hpos
      have hdiv := Nat.div_add_mod a (4 * b.width)
      omega
  · have hone : b.height = 1 := by
      by_contra hne
      have hzero : b.height = 0 := by omega
      rw [hzero] at ha
      omega
    refine ⟨0, by omega, by simp, ?_⟩
    rw [hone] at ha
    omega

theorem shows_copied (h : b.stride bufIdx = 4 * b.width ∨ b.height ≤ 1 ∨ b.width = 0) :
    b.Shows screen bufIdx before (copied b screen bufIdx before) := by
  constructor
  · intro x hx y hy k hk
    have hrows : b.stride bufIdx = 4 * b.width ∨ b.height ≤ 1 :=
      h.imp_right fun h => h.resolve_right (Nat.ne_zero_of_lt hx)
    rw [offset_eq hy hrows]
    exact copied_of_lt (pixel_lt hx hy hk)
  · intro a hout
    by_cases ha : a < b.width * b.height * 4
    · have hrows : b.stride bufIdx = 4 * b.width ∨ b.height ≤ 1 := by
        refine h.imp_right fun h => h.resolve_right ?_
        intro hw
        rw [hw] at ha
        omega
      obtain ⟨y, hy, hin⟩ := exists_inRow ha hrows
      exact absurd hin (hout y hy)
    · exact copied_of_ge (Nat.le_of_not_lt ha)
  · intro i hi
    exact copied_other hi

/-- With room behind the rows the first byte behind row 0 belongs to no row,
and the copy writes it if there is a second row. -/
theorem not_shows_copied (hstride : b.stride bufIdx ≠ 4 * b.width) (hheight : ¬ b.height ≤ 1)
    (hwidth : b.width ≠ 0) :
    ¬ b.Shows (fun _ => 1) bufIdx (fun _ _ => 0)
      (copied b (fun _ => 1) bufIdx fun _ _ => 0) := by
  intro hshows
  have hrow : 4 * b.width ≤ b.stride bufIdx := b.row_le bufIdx
  have hlt : 4 * b.width < b.width * b.height * 4 := by
    have htwo : b.width * 2 ≤ b.width * b.height := Nat.mul_le_mul_left _ (by omega)
    omega
  have hgap : ∀ y < b.height, ¬ b.InRow bufIdx y (4 * b.width) := by
    rintro y _ ⟨hge, hend⟩
    rcases Nat.eq_zero_or_pos y with rfl | hy
    · omega
    · have hle : b.stride bufIdx * 1 ≤ b.stride bufIdx * y := Nat.mul_le_mul_left _ hy
      omega
  have hsame := hshows.outside (4 * b.width) hgap
  rw [copied_of_lt hlt] at hsame
  exact absurd hsame (by decide)

end Copy

/-- The callback copies rows if and only if the buffer's rows have the length
of the screen's, or it has at most one row, or no pixel. -/
theorem copiesRows_iff (b : Buffers) (bufIdx : Fin 2) :
    b.CopiesRows bufIdx ↔
      b.stride bufIdx = 4 * b.pixelSize.1.toNat ∨ b.pixelSize.2.toNat ≤ 1 ∨
        b.pixelSize.1.toNat = 0 := by
  constructor
  · intro hcopies
    by_contra hne
    obtain ⟨hstride, hne⟩ := not_or.mp hne
    obtain ⟨hheight, hwidth⟩ := not_or.mp hne
    obtain ⟨after, hrun, hshows⟩ := hcopies (fun _ => 1) fun _ _ => 0
    rw [swapCallback_run] at hrun
    cases hrun
    exact not_shows_copied hstride hheight hwidth hshows
  · intro h screen before
    exact ⟨_, swapCallback_run, shows_copied h⟩

/-- A mode of 500 by 2 pixels with rows of 2048 bytes. -/
def paddedRows : Buffers where
  pixelSize := (500, 2)
  stride := fun _ => 2048
  row_le := by decide
  mapped := by decide

theorem paddedRows_not_copied : ¬ paddedRows.CopiesRows 0 := by
  intro hcopies
  obtain ⟨after, hrun, hshows⟩ := hcopies (fun _ => 1) fun _ _ => 0
  rw [swapCallback_run] at hrun
  cases hrun
  exact not_shows_copied (by decide) (by decide) (by decide) hshows

end Buffers

end Gui
