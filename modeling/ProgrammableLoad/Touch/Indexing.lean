/-
# `Touch.Indexing` — the subscripts of the touch tables

A touch id is a nibble of the device, and the driver stores under it in
`touchIds`, which has two elements; what it finds there it uses as a subscript
of `touchPositions`.  The constructor leaves `touchIds` unwritten.

A poll makes no access out of range exactly if every point it decodes has a
touch id below two and every touch it then reports on has an entry, an earlier
one or one of its own.  Between polls the flags say which entries are there:
`Inv` is what the polls with that property keep.

Nothing catches what a poll throws, neither the callback of the timer nor the
event loop, so the daemon makes no poll after an exception.  The runs here go on
after one, and those of the daemon are among them.
-/
import ProgrammableLoad.Touch.Tracking

namespace Touch

open Cpp Cbor Ft6336 Program

/-! ## The property and the condition -/

/-- The faults of an access: outside the array, or by a value never written. -/
def IsAccess : Fault → Prop
  | .undefined _ => True
  | .thrown (.outOfRange _) => True
  | .thrown _ => False

/-- All accesses of a poll are in range. -/
def InRange (d : Ft6336) (regs : Registers) : Prop :=
  ∀ e t, (updateTouchState regs).run d = .error e t → ¬ IsAccess e

/-- The poll decodes the point in a slot. -/
def Decodes (regs : Registers) (slot : Fin 2) : Prop :=
  numPoints regs ≤ 2 ∧ slot.val < numPoints regs

/-- The touch ids of the points are subscripts, and each touch that is
reported on has been stored under its id, now or before. -/
structure Indexable (d : Ft6336) (regs : Registers) : Prop where
  id_lt : ∀ slot, Decodes regs slot → touchId (pointRegs regs slot) < 2
  written : ∀ slot, Decodes regs slot → d.touchIds slot ≠ none ∨
    ∃ slot', Decodes regs slot' ∧ touchId (pointRegs regs slot') = slot.val

/-! ## Between polls -/

/-- The entries that are there name a slot or none. -/
def Known (d : Ft6336) : Prop :=
  ∀ k id, d.touchIds k = some id → id = 0 ∨ id = 1 ∨ id = 0xff

/-- The entries that are read under the flags are there. -/
structure Inv (d : Ft6336) : Prop where
  known : Known d
  written0 : d.p1HasData = true ∨ d.p2HasData = true → d.touchIds 0 ≠ none
  written1 : d.p2HasData = true → d.touchIds 1 ≠ none

section Operations

variable {d : Ft6336}

theorem known_update {k : Fin 2} {id : BitVec 8} (hd : Known d)
    (hid : id = 0 ∨ id = 1 ∨ id = 0xff) :
    ∀ k' id', Function.update d.touchIds k (some id) k' = some id' →
      id' = 0 ∨ id' = 1 ∨ id' = 0xff := by
  intro k' id' hid'
  by_cases hk : k' = k
  · subst hk
    rw [Function.update_self] at hid'
    cases hid'
    exact hid
  · rw [Function.update_of_ne hk] at hid'
    exact hd k' id' hid'

theorem update_ne_none (k : Fin 2) (id : BitVec 8) {k' : Fin 2}
    (h : k' = k ∨ d.touchIds k' ≠ none) :
    Function.update d.touchIds k (some id) k' ≠ none := by
  by_cases hk : k' = k
  · subst hk
    rw [Function.update_self]
    nofun
  · rw [Function.update_of_ne hk]
    exact h.resolve_left hk

theorem decoded_written_iff (point id k : Fin 2) (pos : TouchPosition) :
    (d.decoded point id pos).touchIds k ≠ none ↔ k = id ∨ d.touchIds k ≠ none := by
  constructor
  · intro h
    by_contra hne
    obtain ⟨hk, hnone⟩ := not_or.mp hne
    have hkeep : (d.decoded point id pos).touchIds k = d.touchIds k :=
      Function.update_of_ne hk _ _
    rw [hkeep] at h
    exact hnone h
  · exact update_ne_none id _

theorem Known.cleared (hd : Known d) (idx : Fin 2) : Known (d.cleared idx) :=
  known_update hd (by simp)

theorem Known.decoded (hd : Known d) (point id : Fin 2) (pos : TouchPosition) :
    Known (d.decoded point id pos) := by
  refine known_update hd ?_
  have hpoint : point = 0 ∨ point = 1 := by omega
  rcases hpoint with rfl | rfl
  · exact .inl rfl
  · exact .inr (.inl rfl)

/-- Clearing writes an entry and sets no flag. -/
theorem Inv.cleared (hd : Inv d) (idx : Fin 2) : Inv (d.cleared idx) := by
  have hp1 : (d.cleared idx).p1HasData = true → d.p1HasData = true := by
    simp only [Ft6336.cleared]
    split <;> simp
  have hp2 : (d.cleared idx).p2HasData = true → d.p2HasData = true := by
    simp only [Ft6336.cleared]
    split <;> simp
  constructor
  · exact hd.known.cleared idx
  · intro h
    exact update_ne_none idx 0xff (.inr (hd.written0 (h.imp hp1 hp2)))
  · intro h
    exact update_ne_none idx 0xff (.inr (hd.written1 (hp2 h)))

theorem clearIfSet_returns (hd : Inv d) (hasData : Ft6336 → Bool) {point : Nat}
    (hp : point ≤ 1) (hflag : hasData d = true → d.p1HasData = true ∨ d.p2HasData = true) :
    ∃ b u, (clearIfSet hasData point).run d = .ok b u ∧ Inv u := by
  cases h : hasData d with
  | false => exact ⟨_, _, clearIfSet_run_false hasData point h, hd⟩
  | true =>
      obtain ⟨id, hid⟩ := Option.ne_none_iff_exists'.mp (hd.written0 (hflag h))
      exact ⟨_, _, clearIfSet_run_true hasData point id hp h hid, hd.cleared _⟩

theorem currentTouch_returns (hd : Known d) {hasData : Bool} {k : Fin 2}
    (hwritten : hasData = true → d.touchIds k ≠ none) :
    ∃ touch, (currentTouch hasData k).run d = .ok touch d := by
  cases hasData with
  | false => exact ⟨_, currentTouch_run_false d k⟩
  | true =>
      obtain ⟨id, hid⟩ := Option.ne_none_iff_exists'.mp (hwritten rfl)
      rcases hd k id hid with rfl | rfl | rfl
      · exact ⟨_, currentTouch_run_held 0 hid⟩
      · exact ⟨_, currentTouch_run_held 1 hid⟩
      · exact ⟨_, currentTouch_run_released true hid⟩

theorem sendTouchStateUpdate_returns (hd : Inv d) :
    ∃ msg, sendTouchStateUpdate.run d = .ok msg d := by
  obtain ⟨t0, h0⟩ := currentTouch_returns (k := 0) hd.known fun h => hd.written0 (.inl h)
  obtain ⟨t1, h1⟩ := currentTouch_returns (k := 1) hd.known hd.written1
  exact ⟨_, sendTouchStateUpdate_run h0 h1⟩

/-- Both flags are set, and an entry is not there. -/
theorem sendTouchStateUpdate_faults (hd : Known d) (hp1 : d.p1HasData = true)
    (h : d.touchIds 0 = none ∨ d.p2HasData = true ∧ d.touchIds 1 = none) :
    sendTouchStateUpdate.run d
      = .error (.undefined "touchIds read before it is written") d := by
  by_cases h0 : d.touchIds 0 = none
  · exact sendTouchStateUpdate_run_fault hp1 h0
  · obtain ⟨hp2, h1⟩ := h.resolve_left h0
    have hrun0 : ∃ t0, (currentTouch true 0).run d = .ok t0 d :=
      currentTouch_returns hd fun _ => h0
    obtain ⟨t0, hrun⟩ := hrun0
    have hfault : (currentTouch true 1).run d
        = .error (.undefined "touchIds read before it is written") d := by
      simp [currentTouch, h1]
    simp [sendTouchStateUpdate, hp1, hrun, hp2, hfault]

end Operations

/-! ## One poll -/

section Poll

variable {d : Ft6336} {regs : Registers}

/-- A poll that returns keeps the invariant and makes no access out of range;
the one that throws finds too many points. -/
inductive Sound (d : Ft6336) (regs : Registers) : Prop
  | returns {out : Option Item} {t : Ft6336} :
      (updateTouchState regs).run d = .ok out t → Inv t → Sound d regs
  | throws {text : String} :
      (updateTouchState regs).run d = .error (.thrown (.runtimeError text)) d → Sound d regs

theorem Sound.inRange (h : Sound d regs) : InRange d regs := by
  intro e t hrun
  cases h with
  | returns hok _ =>
      rw [hok] at hrun
      cases hrun
  | throws herror =>
      rw [herror] at hrun
      cases hrun
      exact id

theorem Sound.inv (h : Sound d regs) (hd : Inv d) : Inv (stateAfter (updateTouchState regs) d) := by
  cases h with
  | returns hok ht =>
      rw [stateAfter_of_ok hok]
      exact ht
  | throws herror =>
      rw [stateAfter_of_error herror]
      exact hd

theorem not_inRange_of_undefined {op : String} {t : Ft6336}
    (h : (updateTouchState regs).run d = .error (.undefined op) t) : ¬ InRange d regs := by
  intro hrange
  exact hrange _ _ h trivial

theorem poll_none_sound (hd : Inv d) (hn : numPoints regs = 0) : Sound d regs := by
  obtain ⟨b, u, h1, hu⟩ := clearIfSet_returns hd (·.p1HasData) (Nat.zero_le 1) .inl
  obtain ⟨c, v, h2, hv⟩ := clearIfSet_returns hu (·.p2HasData) (Nat.le_refl 1) .inr
  obtain ⟨msg, h3⟩ := sendTouchStateUpdate_returns hv
  cases hbc : b || c with
  | false => exact .returns (poll_none hn h1 h2 (by rw [hbc]; rfl)) hv
  | true =>
      have hsend : (if b || c then some <$> sendTouchStateUpdate else pure none).run v
          = .ok (some msg) v := by
        simp [hbc, h3]
      exact .returns (poll_none hn h1 h2 hsend) hv

theorem poll_one_sound (hd : Inv d) (hn : numPoints regs = 1) (id : Fin 2)
    (hid : touchId (pointRegs regs 0) = id.val) (hwritten : id = 0 ∨ d.touchIds 0 ≠ none) :
    Sound d regs := by
  have hu : Inv (d.decoded 0 id (decodePosition d.panel (pointRegs regs 0))) := by
    constructor
    · exact hd.known.decoded 0 id _
    · intro _
      exact update_ne_none id _ (hwritten.imp_left Eq.symm)
    · intro hp2
      exact update_ne_none id _ (.inr (hd.written1 hp2))
  obtain ⟨b, v, h2, hv⟩ := clearIfSet_returns hu (·.p2HasData) (Nat.le_refl 1) .inr
  obtain ⟨msg, h3⟩ := sendTouchStateUpdate_returns hv
  exact .returns (poll_one hn id hid h2 h3) hv

/-- The lone point is not touch 0, and no earlier one was: the flag that is
set for it is the one touch 0 is reported under. -/
theorem poll_one_faults (hd : Inv d) (hn : numPoints regs = 1) (id : Fin 2)
    (hid : touchId (pointRegs regs 0) = id.val) (hne : id ≠ 0) (h0 : d.touchIds 0 = none) :
    ¬ InRange d regs := by
  have hp2 : d.p2HasData = false := by
    cases hp2 : d.p2HasData with
    | false => rfl
    | true => exact absurd h0 (hd.written0 (.inr hp2))
  set u := d.decoded 0 id (decodePosition d.panel (pointRegs regs 0)) with hu
  have hclear : (clearIfSet (·.p2HasData) 1).run u = .ok false u :=
    clearIfSet_run_false (·.p2HasData) 1 hp2
  have hids : u.touchIds 0 = none := by
    by_contra hsome
    exact ((decoded_written_iff 0 id 0 _).mp hsome).elim (Ne.symm hne) (absurd h0)
  have hsend := sendTouchStateUpdate_run_fault (d := u) rfl hids
  apply not_inRange_of_undefined
  rw [poll_one_run hn id hid, run_bind_of_ok hclear, run_bind_of_error hsend]

theorem poll_two_sound (hd : Inv d) (hn : numPoints regs = 2) (id0 id1 : Fin 2)
    (hid0 : touchId (pointRegs regs 0) = id0.val) (hid1 : touchId (pointRegs regs 1) = id1.val)
    (hwritten : ∀ k : Fin 2, k = id1 ∨ k = id0 ∨ d.touchIds k ≠ none) : Sound d regs := by
  set u := (d.decoded 0 id0 (decodePosition d.panel (pointRegs regs 0))).decoded 1 id1
    (decodePosition d.panel (pointRegs regs 1)) with hu
  have hids : ∀ k, u.touchIds k ≠ none := by
    intro k
    rw [hu, decoded_written_iff, decoded_written_iff]
    exact hwritten k
  have hinv : Inv u :=
    ⟨(hd.known.decoded 0 id0 _).decoded 1 id1 _, fun _ => hids 0, fun _ => hids 1⟩
  obtain ⟨msg, hsend⟩ := sendTouchStateUpdate_returns hinv
  exact .returns (poll_two hn id0 id1 hid0 hid1 hu hsend) hinv

/-- Two points are reported on, and one of the entries is not there. -/
theorem poll_two_faults (hd : Inv d) (hn : numPoints regs = 2) (id0 id1 k : Fin 2)
    (hid0 : touchId (pointRegs regs 0) = id0.val) (hid1 : touchId (pointRegs regs 1) = id1.val)
    (hmissing : ¬ (k = id1 ∨ k = id0 ∨ d.touchIds k ≠ none)) : ¬ InRange d regs := by
  set u := (d.decoded 0 id0 (decodePosition d.panel (pointRegs regs 0))).decoded 1 id1
    (decodePosition d.panel (pointRegs regs 1)) with hu
  have hknown : Known u := (hd.known.decoded 0 id0 _).decoded 1 id1 _
  have hids : u.touchIds k = none := by
    by_contra hsome
    rw [hu, ← ne_eq, decoded_written_iff, decoded_written_iff] at hsome
    exact hmissing hsome
  have hread : u.touchIds 0 = none ∨ u.p2HasData = true ∧ u.touchIds 1 = none := by
    have hk : k = 0 ∨ k = 1 := by omega
    rcases hk with rfl | rfl
    · exact .inl hids
    · exact .inr ⟨rfl, hids⟩
  have hsend := sendTouchStateUpdate_faults hknown rfl hread
  apply not_inRange_of_undefined
  rw [poll_two_run hn id0 id1 hid0 hid1, ← hu, run_bind_of_error hsend]

theorem decodeTouchPoint_run_fault (point : Fin 2) {regData : Fin 6 → Byte}
    (hid : ¬ touchId regData < 2) :
    (decodeTouchPoint point.val regData).run d = .error (.undefined "touchIds[touchId]") d := by
  have hp : ¬ point.val > 1 := by omega
  rw [decodeTouchPoint, dif_neg hp]
  simp only [run_get_bind, dif_neg hid]
  rfl

/-- A point whose touch id is no subscript of `touchIds`. -/
theorem poll_id_faults {slot : Fin 2} (hslot : Decodes regs slot)
    (hid : ¬ touchId (pointRegs regs slot) < 2) : ¬ InRange d regs := by
  obtain ⟨hle, hlt⟩ := hslot
  have hn0 : numPoints regs ≠ 0 := by omega
  have hn2 : ¬ numPoints regs > 2 := by omega
  by_cases hid0 : touchId (pointRegs regs 0) < 2
  · -- the first point is stored, so the slot is the second
    have hslot : slot = 1 := by
      have hcases : slot = 0 ∨ slot = 1 := by omega
      rcases hcases with rfl | rfl
      · exact absurd hid0 hid
      · rfl
    subst hslot
    have hn : numPoints regs = 2 := by omega
    have hdec0 := decodeTouchPoint_run (d := d) 0 hid0
    have hdec1 := decodeTouchPoint_run_fault (d := d.decoded 0 ⟨_, hid0⟩
      (decodePosition d.panel (pointRegs regs 0))) 1 hid
    rw [Fin.val_zero] at hdec0
    rw [Fin.val_one] at hdec1
    have hrun : (updateTouchState regs).run d = .error (.undefined "touchIds[touchId]")
        (d.decoded 0 ⟨_, hid0⟩ (decodePosition d.panel (pointRegs regs 0))) := by
      simp [updateTouchState, hn, pointData_pointBuffer, hdec0, hdec1]
    exact not_inRange_of_undefined hrun
  · have hdec0 := decodeTouchPoint_run_fault (d := d) 0 hid0
    rw [Fin.val_zero] at hdec0
    have hrun : (updateTouchState regs).run d
        = .error (.undefined "touchIds[touchId]") d := by
      simp [updateTouchState, hn0, hn2, pointData_slot0, hdec0]
    exact not_inRange_of_undefined hrun

theorem poll_many_sound (hn : 2 < numPoints regs) : Sound d regs := by
  have hn0 : numPoints regs ≠ 0 := by omega
  have hn2 : numPoints regs > 2 := hn
  have hrun : (updateTouchState regs).run d = .error (.thrown (.runtimeError
      s!"invalid number of touch points: {numPoints regs}")) d := by
    rw [updateTouchState, if_neg hn0, if_pos hn2]
    rfl
  exact .throws hrun

theorem sound_of_indexable (hd : Inv d) (h : Indexable d regs) : Sound d regs := by
  have hcases : numPoints regs = 0 ∨ numPoints regs = 1 ∨ numPoints regs = 2 ∨
      2 < numPoints regs := by omega
  rcases hcases with hn | hn | hn | hn
  · exact poll_none_sound hd hn
  · have hslot0 : Decodes regs 0 := ⟨by omega, by rw [hn]; decide⟩
    refine poll_one_sound hd hn ⟨_, h.id_lt 0 hslot0⟩ rfl ?_
    rcases h.written 0 hslot0 with hthere | ⟨slot, hslot, hid⟩
    · exact .inr hthere
    · -- one point: the slot that has touch 0 is slot 0
      have hzero : slot = 0 := by
        have hlt := hslot.2
        omega
      subst hzero
      exact .inl (Fin.ext hid)
  · have hslot0 : Decodes regs 0 := ⟨by omega, by rw [hn]; decide⟩
    have hslot1 : Decodes regs 1 := ⟨by omega, by rw [hn]; decide⟩
    refine poll_two_sound hd hn ⟨_, h.id_lt 0 hslot0⟩ ⟨_, h.id_lt 1 hslot1⟩ rfl rfl ?_
    intro k
    have hk : Decodes regs k := ⟨by omega, by omega⟩
    rcases h.written k hk with hthere | ⟨slot, _, hid⟩
    · exact .inr (.inr hthere)
    · have hcases : slot = 0 ∨ slot = 1 := by omega
      rcases hcases with rfl | rfl
      · exact .inr (.inl (Fin.ext hid.symm))
      · exact .inl (Fin.ext hid.symm)
  · exact poll_many_sound hn

theorem indexable_of_inRange (hd : Inv d) (h : InRange d regs) : Indexable d regs := by
  have hid : ∀ slot, Decodes regs slot → touchId (pointRegs regs slot) < 2 := by
    intro slot hslot
    by_contra hge
    exact poll_id_faults hslot hge h
  refine ⟨hid, ?_⟩
  intro slot hslot
  by_contra hmissing
  obtain ⟨hnone, hids⟩ := not_or.mp hmissing
  have hids : ∀ slot', Decodes regs slot' → touchId (pointRegs regs slot') ≠ slot.val := by
    intro slot' hslot' heq
    exact hids ⟨slot', hslot', heq⟩
  have hslot0 : Decodes regs 0 := ⟨hslot.1, Nat.zero_lt_of_lt hslot.2⟩
  by_cases hn : numPoints regs = 1
  · have hzero : slot = 0 := by
      have hlt := hslot.2
      omega
    subst hzero
    refine poll_one_faults hd hn ⟨_, hid 0 hslot0⟩ rfl ?_ (not_not.mp hnone) h
    intro heq
    exact hids 0 hslot0 (congrArg Fin.val heq)
  · have hn : numPoints regs = 2 := by
      have hle := hslot.1
      have hlt := hslot0.2
      omega
    have hslot1 : Decodes regs 1 := ⟨hslot.1, by rw [hn]; decide⟩
    refine poll_two_faults hd hn ⟨_, hid 0 hslot0⟩ ⟨_, hid 1 hslot1⟩ slot rfl rfl ?_ h
    rintro (heq | heq | hthere)
    · exact hids 1 hslot1 (congrArg Fin.val heq).symm
    · exact hids 0 hslot0 (congrArg Fin.val heq).symm
    · exact hnone hthere

end Poll

/-! ## Runs -/

theorem inv_construct (panel : Panel) : Inv (construct panel) := by
  constructor
  · intro k id h
    cases h
  · rintro (h | h) <;> cases h
  · intro h
    cases h

/-- From construction on, the accesses of all polls are in range if and only
if each poll is indexable in the state it finds. -/
theorem accesses_in_range_iff (panel : Panel) (xs : List Registers) :
    Wherever updateTouchState InRange (construct panel) xs ↔
      Wherever updateTouchState Indexable (construct panel) xs := by
  refine wherever_iff (I := Inv) ?_ ?_ (inv_construct panel)
  · intro d regs hd h
    exact (sound_of_indexable hd h).inv hd
  · intro d regs hd
    constructor
    · exact indexable_of_inRange hd
    · intro h
      exact (sound_of_indexable hd h).inRange

/-- One point with the touch id that stands for none. -/
def invalidPoint : Registers := fun reg =>
  if reg = touchStatus then 1 else if reg = point1XHigh + 2 then 0xf0 else 0

theorem invalidPoint_not_in_range :
    ¬ Wherever updateTouchState InRange (construct ⟨(480, 800), 0⟩) [invalidPoint] := by
  rintro ⟨h, _⟩
  have hslot : Decodes invalidPoint 0 := by
    constructor
    · decide
    · decide
  exact poll_id_faults hslot (by decide) h

end Touch
