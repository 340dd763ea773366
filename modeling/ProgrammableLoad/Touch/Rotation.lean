/-
# `Touch.Rotation` — the rotation setting against rotations of the panel

`transformTouchPosition` is meant to turn the pixel grid of the panel.  The
quarter turn of the code exchanges the two coordinates, which is the mirror
image in the diagonal; the half turn reflects one axis only, and the one it
reflects it sends to `h - y`, so that row 0 leaves the grid.

`IsRotation` is what a turn of the grid has to satisfy: it is a bijection
onto the turned grid, and the turns compose as quarter turns do.
-/
import Mathlib.Data.Set.Function
import ProgrammableLoad.Touch.Ft6336

namespace Touch

open Ft6336

/-- The pixels of a panel of `w` by `h` points. -/
def grid (w h : BitVec 16) : Set TouchPosition := {pos | pos.1 < w ∧ pos.2 < h}

/-- `transformTouchPosition` of a panel of `w` by `h` points. -/
def turn (w h : BitVec 16) (r : BitVec 2) : TouchPosition → TouchPosition :=
  transformTouchPosition { size := (w, h), rotation := r }

/-- The grid that `r` quarter turns make of the one of `w` by `h` points. -/
def turnedGrid (w h : BitVec 16) (r : BitVec 2) : Set TouchPosition :=
  if r = 0 ∨ r = 2 then grid w h else grid h w

/-- Both axes reversed. -/
def reversed (w h : BitVec 16) (pos : TouchPosition) : TouchPosition :=
  (w - 1 - pos.1, h - 1 - pos.2)

/-- What makes `r` quarter turns of the panel a rotation.  Two quarter turns
in a row see the panel with its sides exchanged in between. -/
structure IsRotation (w h : BitVec 16) (r : BitVec 2) : Prop where
  bijOn : Set.BijOn (turn w h r) (grid w h) (turnedGrid w h r)
  reverses : r = 2 → ∀ pos ∈ grid w h, turn w h r pos = reversed w h pos
  inverse : r = 1 ∨ r = 3 → ∀ pos ∈ grid w h, turn h w (-r) (turn w h r pos) = pos
  twice : r = 1 ∨ r = 3 → ∀ pos ∈ grid w h, turn h w r (turn w h r pos) = turn w h 2 pos

section

variable (w h : BitVec 16)

theorem turn_one (pos : TouchPosition) : turn w h 1 pos = (pos.2, pos.1) := rfl

theorem turn_two (pos : TouchPosition) : turn w h 2 pos = (pos.1, h - pos.2) := rfl

theorem turn_three (pos : TouchPosition) : turn w h 3 pos = (h - pos.2, pos.1) := rfl

theorem quarterTurns (r : BitVec 2) : r = 0 ∨ r = 1 ∨ r = 2 ∨ r = 3 := by
  decide +revert

/-- The corner of a panel that has a pixel at all. -/
theorem corner_mem_grid {w h : BitVec 16} (hw : w ≠ 0) (hh : h ≠ 0) :
    ((0, 0) : TouchPosition) ∈ grid w h := by
  constructor
  · exact (BitVec.pos_iff_ne_zero w).mpr hw
  · exact (BitVec.pos_iff_ne_zero h).mpr hh

theorem grid_empty {w h : BitVec 16} (hwh : w = 0 ∨ h = 0) : grid w h = ∅ := by
  apply Set.eq_empty_of_forall_notMem
  intro pos hpos
  obtain ⟨hx, hy⟩ := hpos
  rcases hwh with rfl | rfl
  · exact BitVec.not_lt_zero hx
  · exact BitVec.not_lt_zero hy

theorem turn_one_bijOn : Set.BijOn (turn w h 1) (grid w h) (grid h w) := by
  have hinv : Set.InvOn (turn h w 1) (turn w h 1) (grid w h) (grid h w) := by
    constructor
    · intro pos _
      rfl
    · intro pos _
      rfl
  refine hinv.bijOn ?_ ?_
  · intro pos hpos
    exact ⟨hpos.2, hpos.1⟩
  · intro pos hpos
    exact ⟨hpos.2, hpos.1⟩

/-- Row 0 of the panel lands on coordinate `h`, outside every grid that has
`h` rows. -/
theorem turn_two_not_mapsTo (hw : w ≠ 0) (hh : h ≠ 0) :
    ¬ Set.MapsTo (turn w h 2) (grid w h) (grid w h) := by
  intro hmaps
  have hcorner := hmaps (corner_mem_grid hw hh)
  rw [turn_two] at hcorner
  exact absurd hcorner.2 (by simp)

theorem turn_three_not_mapsTo (hw : w ≠ 0) (hh : h ≠ 0) :
    ¬ Set.MapsTo (turn w h 3) (grid w h) (grid h w) := by
  intro hmaps
  have hcorner := hmaps (corner_mem_grid hw hh)
  rw [turn_three] at hcorner
  exact absurd hcorner.1 (by simp)

/-- On a panel without a pixel every setting is a rotation. -/
theorem isRotation_of_empty (r : BitVec 2) (hwh : w = 0 ∨ h = 0) : IsRotation w h r := by
  have hg : grid w h = ∅ := grid_empty hwh
  have hg' : grid h w = ∅ := grid_empty hwh.symm
  constructor
  · simp only [turnedGrid, hg, hg', ite_self]
    exact Set.bijOn_empty _
  all_goals simp [hg]

theorem isRotation_zero : IsRotation w h 0 := by
  constructor
  · exact Set.bijOn_id _
  all_goals simp

/-- The two quarter turns of `r = 1` cancel; the one of `r = 3` moves the
corner. -/
theorem not_isRotation_one (hw : w ≠ 0) (hh : h ≠ 0) : ¬ IsRotation w h 1 := by
  intro hrot
  have hcorner := hrot.inverse (.inl rfl) _ (corner_mem_grid hw hh)
  have hneg : (-1 : BitVec 2) = 3 := rfl
  rw [hneg] at hcorner
  simp only [turn_one, turn_three, Prod.mk.injEq] at hcorner
  exact hw (by simpa using hcorner.1)

theorem not_isRotation_two (hw : w ≠ 0) (hh : h ≠ 0) : ¬ IsRotation w h 2 := by
  intro hrot
  exact turn_two_not_mapsTo w h hw hh hrot.bijOn.mapsTo

theorem not_isRotation_three (hw : w ≠ 0) (hh : h ≠ 0) : ¬ IsRotation w h 3 := by
  intro hrot
  exact turn_three_not_mapsTo w h hw hh hrot.bijOn.mapsTo

/-- Only the setting 0 rotates a panel that has pixels. -/
theorem isRotation_iff (r : BitVec 2) : IsRotation w h r ↔ r = 0 ∨ w = 0 ∨ h = 0 := by
  constructor
  · intro hrot
    by_contra hne
    obtain ⟨hr, hwh⟩ := not_or.mp hne
    obtain ⟨hw, hh⟩ := not_or.mp hwh
    rcases quarterTurns r with rfl | rfl | rfl | rfl
    · exact hr rfl
    · exact not_isRotation_one w h hw hh hrot
    · exact not_isRotation_two w h hw hh hrot
    · exact not_isRotation_three w h hw hh hrot
  · intro h'
    rcases h' with rfl | hwh
    · exact isRotation_zero w h
    · exact isRotation_of_empty w h r hwh

/-- A mirror image is a bijection too: of the two laws the setting 1 keeps
this one. -/
theorem turn_bijOn_iff (r : BitVec 2) :
    Set.BijOn (turn w h r) (grid w h) (turnedGrid w h r)
      ↔ r = 0 ∨ r = 1 ∨ w = 0 ∨ h = 0 := by
  constructor
  · intro hbij
    by_contra hne
    obtain ⟨hr0, hne⟩ := not_or.mp hne
    obtain ⟨hr1, hwh⟩ := not_or.mp hne
    obtain ⟨hw, hh⟩ := not_or.mp hwh
    rcases quarterTurns r with rfl | rfl | rfl | rfl
    · exact hr0 rfl
    · exact hr1 rfl
    · exact turn_two_not_mapsTo w h hw hh hbij.mapsTo
    · exact turn_three_not_mapsTo w h hw hh hbij.mapsTo
  · intro h'
    rcases h' with rfl | rfl | hwh
    · exact (isRotation_zero w h).bijOn
    · exact turn_one_bijOn w h
    · exact (isRotation_of_empty w h r hwh).bijOn

end

/-- A half turn of the panel moves its corner to row 800 of 800. -/
theorem half_turn_leaves_panel :
    turn 480 800 2 (0, 0) = (0, 800) ∧ ¬ IsRotation 480 800 2 := by
  constructor
  · rfl
  · exact not_isRotation_two 480 800 (by decide) (by decide)

end Touch
