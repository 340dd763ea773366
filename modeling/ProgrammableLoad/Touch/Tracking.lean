/-
# `Touch.Tracking` — what the driver remembers between two polls

The two flags of the driver belong to slots, and `touchIds` is written under a
touch id and read under both, by `clearTouchPoint` as the id held in a slot and
by `sendTouchStateUpdate` as the slot holding an id.  On samples whose touch
ids are 0 and 1 this comes to six states a later poll can tell apart, the
`Phase`s, and the driver moves between them as `Phase.next` says:

            idle    lone 0   lone 1    in order   swapped
  fresh     fresh   zero     (fault)   zero       swapped
  idle      idle    zero     stuck     zero       swapped
  zero      idle    zero     zero      zero       swapped
  swapped   stuck   zero     one       zero       swapped
  one       idle    zero     stuck     zero       swapped
  stuck     stuck   zero     stuck     zero       swapped

`poll_phase` is that statement; the lemmas before it say of each kind of
sample what the poll broadcasts and how it leaves the driver.
-/
import ProgrammableLoad.Theory.Runs
import ProgrammableLoad.Touch.Ft6336

namespace Touch

open Cpp Cbor Ft6336

/-- The six registers of the point in a slot. -/
def pointRegs (regs : Registers) (slot : Fin 2) : Fin 6 → Byte :=
  fun i => regs (point1XHigh + (6 * slot.val + i.val))

/-- A poll that finds at most two points, with distinct touch ids among 0
and 1. -/
structure Sample where
  regs : Registers
  count_le : numPoints regs ≤ 2
  id_lt : ∀ slot : Fin 2, slot.val < numPoints regs → touchId (pointRegs regs slot) < 2
  id_ne : numPoints regs = 2 → touchId (pointRegs regs 0) ≠ touchId (pointRegs regs 1)

inductive Kind where
  | idle | lone0 | lone1 | inOrder | swapped
deriving DecidableEq

def Sample.kind (s : Sample) : Kind :=
  if numPoints s.regs = 0 then .idle
  else if numPoints s.regs = 1 then
    if touchId (pointRegs s.regs 0) = 0 then .lone0 else .lone1
  else if touchId (pointRegs s.regs 0) = 0 then .inOrder else .swapped

/-- The points of a sample: touch id and position on the rotated panel. -/
def Sample.points (panel : Panel) (s : Sample) : List (Nat × TouchPosition) :=
  (([0, 1] : List (Fin 2)).take (numPoints s.regs)).map fun slot =>
    (touchId (pointRegs s.regs slot), decodePosition panel (pointRegs s.regs slot))

namespace Ft6336

/-! ## The operations, as functions of the driver -/

def cleared (d : Ft6336) (idx : Fin 2) : Ft6336 :=
  { d with
    p1HasData := if idx = 0 then false else d.p1HasData
    p2HasData := if idx = 0 then d.p2HasData else false
    touchIds := Function.update d.touchIds idx (some 0xff) }

def decoded (d : Ft6336) (point id : Fin 2) (pos : TouchPosition) : Ft6336 :=
  { d with
    touchIds := Function.update d.touchIds id (some (BitVec.ofNat 8 point.val))
    touchPositions := Function.update d.touchPositions point pos
    p1HasData := if point = 0 then true else d.p1HasData
    p2HasData := if point = 0 then d.p2HasData else true }

@[simp] theorem decoded_panel (d : Ft6336) (point id : Fin 2) (pos : TouchPosition) :
    (d.decoded point id pos).panel = d.panel := rfl

theorem clearTouchPoint_run {d : Ft6336} {point : Nat} {id : BitVec 8}
    (hp : point ≤ 1) (hid : d.touchIds 0 = some id) :
    (clearTouchPoint point).run d
      = .ok () (d.cleared (if id.toNat = point then 0 else 1)) := by
  have hp' : ¬ point > 1 := by omega
  by_cases h : id.toNat = point
  · simp [clearTouchPoint, hp', hid, h, cleared]
  · simp [clearTouchPoint, hp', hid, h, cleared]

theorem decodeTouchPoint_run {d : Ft6336} (point : Fin 2) {regData : Fin 6 → Byte}
    (hid : touchId regData < 2) :
    (decodeTouchPoint point.val regData).run d
      = .ok () (d.decoded point ⟨touchId regData, hid⟩
          (decodePosition d.panel regData)) := by
  have hp : ¬ point.val > 1 := by omega
  by_cases h : point = 0
  · subst h
    simp [decodeTouchPoint, hid, decoded]
  · have h1 : point = 1 := by omega
    subst h1
    simp [decodeTouchPoint, hid, decoded]

theorem clearIfSet_run_false {d : Ft6336} (hasData : Ft6336 → Bool) (point : Nat)
    (h : hasData d = false) : (clearIfSet hasData point).run d = .ok false d := by
  simp [clearIfSet, h]

theorem clearIfSet_run_true {d : Ft6336} (hasData : Ft6336 → Bool) (point : Nat)
    (i : BitVec 8) (hp : point ≤ 1) (h : hasData d = true)
    (hid : d.touchIds 0 = some i) :
    (clearIfSet hasData point).run d
      = .ok true (d.cleared (if i.toNat = point then 0 else 1)) := by
  simp [clearIfSet, h, clearTouchPoint_run hp hid]

theorem currentTouch_run_false (d : Ft6336) (k : Fin 2) :
    (currentTouch false k).run d = .ok none d := by
  simp [currentTouch]

theorem currentTouch_run_released {d : Ft6336} (hasData : Bool) {k : Fin 2}
    (hid : d.touchIds k = some 0xff) : (currentTouch hasData k).run d = .ok none d := by
  cases hasData <;> simp [currentTouch, hid]

theorem currentTouch_run_held {d : Ft6336} {k : Fin 2} (slot : Fin 2)
    (hid : d.touchIds k = some (BitVec.ofNat 8 slot.val)) :
    (currentTouch true k).run d = .ok (some (d.touchPositions slot)) d := by
  have hcases : slot = 0 ∨ slot = 1 := by omega
  rcases hcases with rfl | rfl <;> simp [currentTouch, hid]

theorem sendTouchStateUpdate_run {d : Ft6336} {t0 t1 : Option TouchPosition}
    (h0 : (currentTouch d.p1HasData 0).run d = .ok t0 d)
    (h1 : (currentTouch d.p2HasData 1).run d = .ok t1 d) :
    sendTouchStateUpdate.run d = .ok (touchMessage t0 t1) d := by
  simp [sendTouchStateUpdate, h0, h1]

theorem sendTouchStateUpdate_run_fault {d : Ft6336} (h1 : d.p1HasData = true)
    (hid : d.touchIds 0 = none) :
    sendTouchStateUpdate.run d
      = .error (.undefined "touchIds read before it is written") d := by
  simp [sendTouchStateUpdate, currentTouch, h1, hid]

end Ft6336

/-! ## One poll, by the number of points -/

theorem pointData_pointBuffer (regs : Registers) {n : Nat} {slot : Fin 2}
    (hn : n = 2 ∨ slot = 0) :
    pointData (pointBuffer regs n) slot = pointRegs regs slot := by
  funext i
  simp only [pointData, pointBuffer, readRegisters, pointRegs]
  rw [if_pos]
  rcases hn with rfl | rfl
  · right
    simp only [↓reduceIte]
    omega
  · right
    split <;> simp only [Fin.val_zero] <;> omega

theorem pointData_slot0 (regs : Registers) (n : Nat) :
    pointData (pointBuffer regs n) 0 = pointRegs regs 0 :=
  pointData_pointBuffer regs (Or.inr rfl)

section Equations

variable {regs : Registers} {d u v : Ft6336}

theorem poll_none (hn : numPoints regs = 0) {b c : Bool} {out : Option Item}
    (h1 : (clearIfSet (·.p1HasData) 0).run d = .ok b u)
    (h2 : (clearIfSet (·.p2HasData) 1).run u = .ok c v)
    (h3 : (if b || c then some <$> sendTouchStateUpdate else pure none).run v
      = .ok out v) :
    (updateTouchState regs).run d = .ok out v := by
  cases b <;> cases c <;> simp_all [updateTouchState]

/-- A poll of one point, once that point is decoded. -/
theorem poll_one_run (hn : numPoints regs = 1) (id : Fin 2)
    (hid : touchId (pointRegs regs 0) = id.val) :
    (updateTouchState regs).run d = (do
      let _ ← clearIfSet (·.p2HasData) 1
      return some (← sendTouchStateUpdate)).run
        (d.decoded 0 id (decodePosition d.panel (pointRegs regs 0))) := by
  have hlt : touchId (pointRegs regs 0) < 2 := by omega
  have hfin : (⟨touchId (pointRegs regs 0), hlt⟩ : Fin 2) = id := Fin.ext hid
  have hdec := decodeTouchPoint_run (d := d) 0 hlt
  rw [hfin, Fin.val_zero] at hdec
  simp [updateTouchState, hn, pointData_slot0, hdec]

theorem poll_one (hn : numPoints regs = 1) (id : Fin 2)
    (hid : touchId (pointRegs regs 0) = id.val) {b : Bool} {msg : Item}
    (h2 : (clearIfSet (·.p2HasData) 1).run
        (d.decoded 0 id (decodePosition d.panel (pointRegs regs 0))) = .ok b v)
    (h3 : sendTouchStateUpdate.run v = .ok msg v) :
    (updateTouchState regs).run d = .ok (some msg) v := by
  rw [poll_one_run hn id hid, Program.run_bind_of_ok h2, Program.run_bind_of_ok h3]
  rfl

/-- A poll of two points, once these are decoded. -/
theorem poll_two_run (hn : numPoints regs = 2) (id0 id1 : Fin 2)
    (hid0 : touchId (pointRegs regs 0) = id0.val)
    (hid1 : touchId (pointRegs regs 1) = id1.val) :
    (updateTouchState regs).run d = (do return some (← sendTouchStateUpdate)).run
      ((d.decoded 0 id0 (decodePosition d.panel (pointRegs regs 0))).decoded 1 id1
        (decodePosition d.panel (pointRegs regs 1))) := by
  have hlt0 : touchId (pointRegs regs 0) < 2 := by omega
  have hlt1 : touchId (pointRegs regs 1) < 2 := by omega
  have hfin0 : (⟨touchId (pointRegs regs 0), hlt0⟩ : Fin 2) = id0 := Fin.ext hid0
  have hfin1 : (⟨touchId (pointRegs regs 1), hlt1⟩ : Fin 2) = id1 := Fin.ext hid1
  have hdec0 := decodeTouchPoint_run (d := d) 0 hlt0
  have hdec1 := decodeTouchPoint_run
    (d := d.decoded 0 id0 (decodePosition d.panel (pointRegs regs 0))) 1 hlt1
  rw [hfin0, Fin.val_zero] at hdec0
  rw [hfin1, Fin.val_one, decoded_panel] at hdec1
  simp [updateTouchState, hn, pointData_pointBuffer, hdec0, hdec1]

theorem poll_two (hn : numPoints regs = 2) (id0 id1 : Fin 2)
    (hid0 : touchId (pointRegs regs 0) = id0.val)
    (hid1 : touchId (pointRegs regs 1) = id1.val) {msg : Item}
    (hv : v = (d.decoded 0 id0 (decodePosition d.panel (pointRegs regs 0))).decoded 1 id1
      (decodePosition d.panel (pointRegs regs 1)))
    (h3 : sendTouchStateUpdate.run v = .ok msg v) :
    (updateTouchState regs).run d = .ok (some msg) v := by
  rw [poll_two_run hn id0 id1 hid0 hid1, ← hv, Program.run_bind_of_ok h3]
  rfl

end Equations

/-! ## What the driver remembers -/

/-- The states of the driver between two polls, as far as the next one can
tell them apart.  `one` is touch 1 carried over from a swapped pair, `stuck` a
flag for slot 0 that no empty poll will clear. -/
inductive Phase where
  | fresh | idle | zero | swapped | one | stuck
deriving DecidableEq

/-- The members of the driver in each phase. -/
def Phase.Holds : Phase → Ft6336 → Prop
  | .fresh, d => d.p1HasData = false ∧ d.p2HasData = false ∧ d.touchIds 0 = none
  | .idle, d => d.p1HasData = false ∧ d.p2HasData = false ∧ d.touchIds 0 = some 0xff
  | .zero, d => d.p1HasData = true ∧ d.touchIds 0 = some 0
  | .swapped, d => d.p1HasData = true ∧ d.p2HasData = true ∧
      d.touchIds 0 = some 1 ∧ d.touchIds 1 = some 0
  | .one, d => d.p1HasData = false ∧ d.p2HasData = true ∧
      d.touchIds 0 = some 0xff ∧ d.touchIds 1 = some 0
  | .stuck, d => d.p1HasData = true ∧ d.p2HasData = false ∧
      (d.touchIds 0 = some 1 ∨ d.touchIds 0 = some 0xff)

/-- The phase a poll leads to; `none` where the poll reads a touch id that was
never written. -/
def Phase.next : Phase → Kind → Option Phase
  | _, .lone0 => some .zero
  | _, .inOrder => some .zero
  | _, .swapped => some .swapped
  | .fresh, .lone1 => none
  | .zero, .lone1 => some .zero
  | .swapped, .lone1 => some .one
  | _, .lone1 => some .stuck
  | .fresh, .idle => some .fresh
  | .swapped, .idle => some .stuck
  | .stuck, .idle => some .stuck
  | _, .idle => some .idle

/-- The position of the point in a slot. -/
abbrev Sample.position (panel : Panel) (s : Sample) (slot : Fin 2) : TouchPosition :=
  decodePosition panel (pointRegs s.regs slot)

/-- The five kinds of sample, each with what its registers hold. -/
theorem Sample.kind_cases (s : Sample) :
    (s.kind = .idle ∧ numPoints s.regs = 0) ∨
    (s.kind = .lone0 ∧ numPoints s.regs = 1 ∧ touchId (pointRegs s.regs 0) = 0) ∨
    (s.kind = .lone1 ∧ numPoints s.regs = 1 ∧ touchId (pointRegs s.regs 0) = 1) ∨
    (s.kind = .inOrder ∧ numPoints s.regs = 2 ∧
      touchId (pointRegs s.regs 0) = 0 ∧ touchId (pointRegs s.regs 1) = 1) ∨
    (s.kind = .swapped ∧ numPoints s.regs = 2 ∧
      touchId (pointRegs s.regs 0) = 1 ∧ touchId (pointRegs s.regs 1) = 0) := by
  have hle := s.count_le
  have hne := s.id_ne
  have h0 := s.id_lt 0
  have h1 := s.id_lt 1
  simp only [Fin.val_zero, Fin.val_one] at h0 h1
  unfold Sample.kind
  by_cases hn0 : numPoints s.regs = 0
  · simp [hn0]
  by_cases hn1 : numPoints s.regs = 1
  · by_cases hid : touchId (pointRegs s.regs 0) = 0
    · simp [hn1, hid]
    · have hid1 : touchId (pointRegs s.regs 0) = 1 := by omega
      simp [hn1, hid1]
  · have hn2 : numPoints s.regs = 2 := by omega
    have hne := hne hn2
    by_cases hid : touchId (pointRegs s.regs 0) = 0
    · have hid1 : touchId (pointRegs s.regs 1) = 1 := by omega
      simp [hn2, hid, hid1]
    · have hid0 : touchId (pointRegs s.regs 0) = 1 := by omega
      have hid1 : touchId (pointRegs s.regs 1) = 0 := by omega
      simp [hn2, hid0, hid1]

/-! ## One poll, by the kind of the sample -/

section Poll

variable {s : Sample} {d : Ft6336}

theorem poll_lone0 (hn : numPoints s.regs = 1)
    (hid : touchId (pointRegs s.regs 0) = 0) :
    ∃ t, (updateTouchState s.regs).run d
        = .ok (some (touchMessage (some (s.position d.panel 0)) none)) t ∧
      Phase.zero.Holds t ∧ t.panel = d.panel := by
  cases hp2 : d.p2HasData with
  | false =>
      refine ⟨d.decoded 0 0 (s.position d.panel 0), ?_, ?_, rfl⟩
      · refine poll_one hn 0 hid
          (clearIfSet_run_false (·.p2HasData) 1 hp2)
          (sendTouchStateUpdate_run ?_ ?_)
        · simpa [decoded] using currentTouch_run_held 0
            (d := d.decoded 0 0 (s.position d.panel 0)) (k := 0) (by simp [decoded])
        · simpa [decoded, hp2] using currentTouch_run_false _ _
      · simp [Phase.Holds, decoded]
  | true =>
      -- the second slot held a point: slot 1's flag is the one that is cleared
      refine ⟨(d.decoded 0 0 (s.position d.panel 0)).cleared 1, ?_, ?_, rfl⟩
      · refine poll_one hn 0 hid
          (clearIfSet_run_true (·.p2HasData) 1 0 (by omega) hp2 (by simp [decoded]))
          (sendTouchStateUpdate_run ?_ ?_)
        · simpa [decoded, cleared] using currentTouch_run_held 0
            (d := (d.decoded 0 0 (s.position d.panel 0)).cleared 1) (k := 0)
            (by simp [decoded, cleared])
        · simpa [decoded, cleared] using currentTouch_run_false _ _
      · simp [Phase.Holds, decoded, cleared]

theorem poll_inOrder (hn : numPoints s.regs = 2)
    (hid0 : touchId (pointRegs s.regs 0) = 0) (hid1 : touchId (pointRegs s.regs 1) = 1) :
    ∃ t, (updateTouchState s.regs).run d
        = .ok (some (touchMessage (some (s.position d.panel 0))
            (some (s.position d.panel 1)))) t ∧
      Phase.zero.Holds t ∧ t.panel = d.panel := by
  refine ⟨_, poll_two hn 0 1 hid0 hid1 rfl
    (sendTouchStateUpdate_run ?_ ?_), ?_, rfl⟩
  · simpa [decoded] using currentTouch_run_held (k := 0) 0
      (d := (d.decoded 0 0 (s.position d.panel 0)).decoded 1 1 (s.position d.panel 1))
      (by simp [decoded])
  · simpa [decoded] using currentTouch_run_held (k := 1) 1
      (d := (d.decoded 0 0 (s.position d.panel 0)).decoded 1 1 (s.position d.panel 1))
      (by simp [decoded])
  · simp [Phase.Holds, decoded]

theorem poll_swapped (hn : numPoints s.regs = 2)
    (hid0 : touchId (pointRegs s.regs 0) = 1) (hid1 : touchId (pointRegs s.regs 1) = 0) :
    ∃ t, (updateTouchState s.regs).run d
        = .ok (some (touchMessage (some (s.position d.panel 1))
            (some (s.position d.panel 0)))) t ∧
      Phase.swapped.Holds t ∧ t.panel = d.panel := by
  refine ⟨_, poll_two hn 1 0 hid0 hid1 rfl
    (sendTouchStateUpdate_run ?_ ?_), ?_, rfl⟩
  · simpa [decoded] using currentTouch_run_held (k := 0) 1
      (d := (d.decoded 0 1 (s.position d.panel 0)).decoded 1 0 (s.position d.panel 1))
      (by simp [decoded])
  · simpa [decoded] using currentTouch_run_held (k := 1) 0
      (d := (d.decoded 0 1 (s.position d.panel 0)).decoded 1 0 (s.position d.panel 1))
      (by simp [decoded])
  · simp [Phase.Holds, decoded]

/-- After a swapped pair, clearing slot 1 clears the flag of slot 0, which
happens to be the one touch 0 is reported under. -/
theorem poll_lone1_of_swapped (hn : numPoints s.regs = 1)
    (hid : touchId (pointRegs s.regs 0) = 1) (hd : Phase.swapped.Holds d) :
    ∃ t, (updateTouchState s.regs).run d
        = .ok (some (touchMessage none (some (s.position d.panel 0)))) t ∧
      Phase.one.Holds t ∧ t.panel = d.panel := by
  obtain ⟨_, hp2, h0, _⟩ := hd
  refine ⟨(d.decoded 0 1 (s.position d.panel 0)).cleared 0, ?_, ?_, rfl⟩
  · refine poll_one hn 1 hid
      (clearIfSet_run_true (·.p2HasData) 1 1 (by omega) hp2 (by simpa [decoded] using h0))
      (sendTouchStateUpdate_run ?_ ?_)
    · simpa [decoded, cleared] using currentTouch_run_false _ _
    · simpa [decoded, cleared, hp2] using currentTouch_run_held 0
        (d := (d.decoded 0 1 (s.position d.panel 0)).cleared 0) (k := 1)
        (by simp [decoded, cleared])
  · simp [Phase.Holds, decoded, cleared, hp2]

/-- Otherwise a lone touch 1 sets the flag touch 0 is reported under, and
clears the one it would be reported under itself. -/
theorem poll_lone1 (hn : numPoints s.regs = 1)
    (hid : touchId (pointRegs s.regs 0) = 1) {id : BitVec 8}
    (h0 : d.touchIds 0 = some id) (hid3 : id = 0 ∨ id = 1 ∨ id = 0xff)
    (hp2 : d.p2HasData = true → id ≠ 1) :
    ∃ touch0 t, (updateTouchState s.regs).run d
        = .ok (some (touchMessage touch0 none)) t ∧
      t.p1HasData = true ∧ t.p2HasData = false ∧ t.touchIds 0 = some id ∧
      t.panel = d.panel := by
  have hseen : ∀ u : Ft6336, u.touchIds 0 = some id →
      ∃ touch0, (currentTouch true 0).run u = .ok touch0 u := by
    intro u hu
    rcases hid3 with rfl | rfl | rfl
    · exact ⟨_, currentTouch_run_held 0 hu⟩
    · exact ⟨_, currentTouch_run_held 1 hu⟩
    · exact ⟨_, currentTouch_run_released true hu⟩
  cases h : d.p2HasData with
  | false =>
      obtain ⟨touch0, hseen⟩ := hseen (d.decoded 0 1 (s.position d.panel 0))
        (by simpa [decoded] using h0)
      refine ⟨touch0, d.decoded 0 1 (s.position d.panel 0),
        poll_one hn 1 hid
          (clearIfSet_run_false (·.p2HasData) 1 h)
          (sendTouchStateUpdate_run hseen ?_), ?_⟩
      · simpa [decoded, h] using currentTouch_run_false _ _
      · simp [decoded, h, h0]
  | true =>
      have hne : id.toNat ≠ 1 := by
        intro hc
        exact hp2 h (BitVec.eq_of_toNat_eq hc)
      obtain ⟨touch0, hseen⟩ := hseen ((d.decoded 0 1 (s.position d.panel 0)).cleared 1)
        (by simpa [decoded, cleared] using h0)
      have hclear := clearIfSet_run_true (·.p2HasData) 1 id
        (d := d.decoded 0 1 (s.position d.panel 0)) (by omega) h
        (by simpa [decoded] using h0)
      rw [if_neg hne] at hclear
      refine ⟨touch0, (d.decoded 0 1 (s.position d.panel 0)).cleared 1,
        poll_one hn 1 hid hclear (sendTouchStateUpdate_run hseen ?_), ?_⟩
      · simpa [decoded, cleared] using currentTouch_run_false _ _
      · simp [decoded, cleared, h0]

/-- A lone touch 1 before any touch 0: `touchIds[0]` was never written. -/
theorem poll_lone1_of_fresh (hn : numPoints s.regs = 1)
    (hid : touchId (pointRegs s.regs 0) = 1) (hd : Phase.fresh.Holds d) :
    ∃ e t, (updateTouchState s.regs).run d = .error e t := by
  obtain ⟨_, hp2, h0⟩ := hd
  have hlt : touchId (pointRegs s.regs 0) < 2 := by omega
  have hdec := decodeTouchPoint_run (d := d) 0 hlt
  have hfin : (⟨touchId (pointRegs s.regs 0), hlt⟩ : Fin 2) = 1 := Fin.ext hid
  rw [hfin, Fin.val_zero] at hdec
  have hclear := clearIfSet_run_false (·.p2HasData) 1
    (d := d.decoded 0 1 (s.position d.panel 0)) hp2
  have hsend := sendTouchStateUpdate_run_fault
    (d := d.decoded 0 1 (s.position d.panel 0)) rfl (by simpa [decoded] using h0)
  exact ⟨_, _, by simp only [updateTouchState, hn, EStateM.run_bind, pointData_slot0, hdec,
    hclear, hsend, Program.run_ite]; rfl⟩

theorem poll_idle_silent (hn : numPoints s.regs = 0) (h1 : d.p1HasData = false)
    (h2 : d.p2HasData = false) :
    (updateTouchState s.regs).run d = .ok none d :=
  poll_none hn (clearIfSet_run_false _ 0 h1) (clearIfSet_run_false _ 1 h2) rfl

theorem poll_idle_of_zero (hn : numPoints s.regs = 0) (hd : Phase.zero.Holds d) :
    ∃ t, (updateTouchState s.regs).run d = .ok (some (touchMessage none none)) t ∧
      Phase.idle.Holds t ∧ t.panel = d.panel := by
  obtain ⟨hp1, h0⟩ := hd
  have hclear1 := clearIfSet_run_true (·.p1HasData) 0 _
    (by omega) hp1 h0
  rw [if_pos (by rfl)] at hclear1
  cases hp2 : d.p2HasData with
  | false =>
      have hclear2 := clearIfSet_run_false (·.p2HasData) 1
        (d := d.cleared 0) hp2
      have hsend : sendTouchStateUpdate.run (d.cleared 0)
          = .ok (touchMessage none none) (d.cleared 0) :=
        sendTouchStateUpdate_run (by simpa [cleared] using currentTouch_run_false _ _)
          (by simpa [cleared, hp2] using currentTouch_run_false _ _)
      refine ⟨d.cleared 0, poll_none hn hclear1 hclear2 (by simp [hsend]), ?_, rfl⟩
      simp [Phase.Holds, cleared, hp2]
  | true =>
      have hclear2 := clearIfSet_run_true (·.p2HasData) 1 0xff
        (d := d.cleared 0) (by omega) hp2 (by simp [cleared])
      rw [if_neg (by decide)] at hclear2
      have hsend : sendTouchStateUpdate.run ((d.cleared 0).cleared 1)
          = .ok (touchMessage none none) ((d.cleared 0).cleared 1) :=
        sendTouchStateUpdate_run (by simpa [cleared] using currentTouch_run_false _ _)
          (by simpa [cleared] using currentTouch_run_false _ _)
      refine ⟨(d.cleared 0).cleared 1, poll_none hn hclear1 hclear2 (by simp [hsend]), ?_, rfl⟩
      simp [Phase.Holds, cleared]

theorem poll_idle_of_one (hn : numPoints s.regs = 0) (hd : Phase.one.Holds d) :
    ∃ t, (updateTouchState s.regs).run d = .ok (some (touchMessage none none)) t ∧
      Phase.idle.Holds t ∧ t.panel = d.panel := by
  obtain ⟨hp1, hp2, h0, _⟩ := hd
  have hclear1 := clearIfSet_run_false (·.p1HasData) 0 hp1
  have hclear2 := clearIfSet_run_true (·.p2HasData) 1 _
    (by omega) hp2 h0
  rw [if_neg (by decide)] at hclear2
  have hsend : sendTouchStateUpdate.run (d.cleared 1)
      = .ok (touchMessage none none) (d.cleared 1) :=
    sendTouchStateUpdate_run (by simpa [cleared, hp1] using currentTouch_run_false _ _)
      (by simpa [cleared] using currentTouch_run_false _ _)
  refine ⟨d.cleared 1, poll_none hn hclear1 hclear2 (by simp [hsend]), ?_, rfl⟩
  simp [Phase.Holds, cleared, hp1, h0]

/-- With `touchIds[0]` naming another slot, both clears clear the flag of
slot 1: the flag of slot 0 stays, and so does what is reported under it. -/
theorem poll_idle_held (hn : numPoints s.regs = 0) (hp1 : d.p1HasData = true)
    {id : BitVec 8} (h0 : d.touchIds 0 = some id) (hid : id = 1 ∨ id = 0xff) :
    ∃ touch0 t, (updateTouchState s.regs).run d
        = .ok (some (touchMessage touch0 none)) t ∧
      (id = 1 → touch0 ≠ none) ∧
      Phase.stuck.Holds t ∧ t.panel = d.panel := by
  have hne : id.toNat ≠ 0 := by rcases hid with rfl | rfl <;> decide
  have hclear1 := clearIfSet_run_true (·.p1HasData) 0 _
    (by omega) hp1 h0
  rw [if_neg hne] at hclear1
  have hclear2 := clearIfSet_run_false (·.p2HasData) 1
    (d := d.cleared 1) (by simp [cleared])
  have hkeep : (d.cleared 1).touchIds 0 = some id := by simpa [cleared] using h0
  have hflag : (d.cleared 1).p1HasData = true := by simpa [cleared] using hp1
  have hsecond : (currentTouch (d.cleared 1).p2HasData 1).run (d.cleared 1)
      = .ok none (d.cleared 1) := by
    simpa [cleared] using currentTouch_run_false _ _
  have hstuck : Phase.stuck.Holds (d.cleared 1) := by
    refine ⟨hflag, by simp [cleared], ?_⟩
    rcases hid with rfl | rfl
    · exact Or.inl hkeep
    · exact Or.inr hkeep
  rcases hid with rfl | rfl
  · have hsend := sendTouchStateUpdate_run
      (by simpa [hflag] using currentTouch_run_held 1 hkeep) hsecond
    exact ⟨some ((d.cleared 1).touchPositions 1), _,
      poll_none hn hclear1 hclear2 (by simp [hsend]), by simp, hstuck, rfl⟩
  · have hsend := sendTouchStateUpdate_run
      (currentTouch_run_released _ hkeep) hsecond
    exact ⟨none, _, poll_none hn hclear1 hclear2 (by simp [hsend]),
      fun h => absurd h (by decide), hstuck, rfl⟩

/-- Whichever slot the empty sample finds set, both touches are reported as
absent and no flag stays. -/
theorem poll_idle_releases {p : Phase} (hn : numPoints s.regs = 0) (hd : p.Holds d)
    (hp : p = .zero ∨ p = .one) :
    ∃ t, (updateTouchState s.regs).run d = .ok (some (touchMessage none none)) t ∧
      Phase.idle.Holds t ∧ t.panel = d.panel := by
  rcases hp with rfl | rfl
  · exact poll_idle_of_zero hn hd
  · exact poll_idle_of_one hn hd

end Poll

/-! ## The driver follows the phases -/

section Follow

variable {p : Phase} {d : Ft6336}

/-- Once written, `touchIds[0]` names slot 0 in the phase `zero` only, and
slot 1 with both flags set only just after a swapped pair. -/
theorem Phase.Holds.touchId (hd : p.Holds d) (hp : p ≠ .fresh) :
    ∃ id, d.touchIds 0 = some id ∧ (id = 0 ∨ id = 1 ∨ id = 0xff) ∧
      (id = 0 ↔ p = .zero) ∧ (p ≠ .swapped → d.p2HasData = true → id ≠ 1) := by
  cases p with
  | fresh => exact absurd rfl hp
  | idle => exact ⟨_, hd.2.2, by simp⟩
  | zero => exact ⟨_, hd.2, by simp⟩
  | swapped => exact ⟨_, hd.2.2.1, by simp⟩
  | one => exact ⟨_, hd.2.2.1, by simp⟩
  | stuck =>
      obtain ⟨_, hp2, hid | hid⟩ := hd
      · exact ⟨_, hid, by simp [hp2]⟩
      · exact ⟨_, hid, by simp⟩

/-- The flag of slot 0 is set and `touchIds[0]` does not name that slot. -/
theorem Phase.Holds.held (hd : p.Holds d) (hp : p = .swapped ∨ p = .stuck) :
    d.p1HasData = true ∧ ∃ id, d.touchIds 0 = some id ∧ (id = 1 ∨ id = 0xff) := by
  rcases hp with rfl | rfl
  · exact ⟨hd.1, 1, hd.2.2.1, .inl rfl⟩
  · obtain ⟨hp1, _, hid | hid⟩ := hd
    · exact ⟨hp1, 1, hid, .inl rfl⟩
    · exact ⟨hp1, 0xff, hid, .inr rfl⟩

/-- One poll, in one phase: the driver faults where the phase has no next one
and moves to the next phase otherwise. -/
theorem poll_phase (hd : p.Holds d) (s : Sample) :
    match p.next s.kind with
    | none => ∃ e t, (updateTouchState s.regs).run d = .error e t
    | some q => ∃ out t, (updateTouchState s.regs).run d = .ok out t ∧
        q.Holds t ∧ t.panel = d.panel := by
  rcases s.kind_cases with ⟨hk, hn⟩ | ⟨hk, hn, h0⟩ | ⟨hk, hn, h0⟩ | ⟨hk, hn, h0, h1⟩ |
    ⟨hk, hn, h0, h1⟩ <;> rw [hk]
  · -- no point
    cases p with
    | fresh | idle => exact ⟨_, _, poll_idle_silent hn hd.1 hd.2.1, hd, rfl⟩
    | zero | one =>
        obtain ⟨t, hrun, ht, hpanel⟩ := poll_idle_releases hn hd (by simp)
        exact ⟨_, t, hrun, ht, hpanel⟩
    | swapped | stuck =>
        obtain ⟨hp1, id, hid, hid'⟩ := hd.held (by simp)
        obtain ⟨_, t, hrun, _, ht, hpanel⟩ := poll_idle_held hn hp1 hid hid'
        exact ⟨_, t, hrun, ht, hpanel⟩
  · -- touch 0 alone
    obtain ⟨t, hrun, ht, hpanel⟩ := poll_lone0 (d := d) hn h0
    cases p <;> exact ⟨_, t, hrun, ht, hpanel⟩
  · -- touch 1 alone
    cases p with
    | fresh => exact poll_lone1_of_fresh hn h0 hd
    | swapped =>
        obtain ⟨t, hrun, ht, hpanel⟩ := poll_lone1_of_swapped hn h0 hd
        exact ⟨_, t, hrun, ht, hpanel⟩
    | zero =>
        obtain ⟨_, t, hrun, hp1, _, hid, hpanel⟩ :=
          poll_lone1 hn h0 hd.2 (by simp) (by simp)
        exact ⟨_, t, hrun, ⟨hp1, hid⟩, hpanel⟩
    | idle | one | stuck =>
        obtain ⟨id, hid, hcases, hzero, hp2⟩ := hd.touchId (by simp)
        obtain ⟨_, t, hrun, hp1', hp2', hid', hpanel⟩ :=
          poll_lone1 hn h0 hid hcases (hp2 (by simp))
        have hstuck : t.touchIds 0 = some 1 ∨ t.touchIds 0 = some 0xff := by
          rcases hcases with rfl | rfl | rfl
          · cases hzero.mp rfl
          · exact .inl hid'
          · exact .inr hid'
        exact ⟨_, t, hrun, ⟨hp1', hp2', hstuck⟩, hpanel⟩
  · -- two points, touch 0 in slot 0
    obtain ⟨t, hrun, ht, hpanel⟩ := poll_inOrder (d := d) hn h0 h1
    cases p <;> exact ⟨_, t, hrun, ht, hpanel⟩
  · -- two points, touch 1 in slot 0
    obtain ⟨t, hrun, ht, hpanel⟩ := poll_swapped (d := d) hn h0 h1
    cases p <;> exact ⟨_, t, hrun, ht, hpanel⟩

end Follow

theorem construct_fresh (panel : Panel) : Phase.fresh.Holds (construct panel) :=
  ⟨rfl, rfl, rfl⟩

end Touch
