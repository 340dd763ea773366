/-
# `Led.Manager` — requests to set an indicator

`LedManager::setBrightness` and `setColor` ask the live drivers in order of
registration until one has the indicator.  A request is thus a list of writes
to the channels that the first live driver with the indicator has for it, and
the rest of the development uses the requests in this form, `set_run`.
-/
import ProgrammableLoad.Led.Pca9955

namespace Led

open Cpp Program

/-! ## The manager's functions -/

/-- Ask the drivers in turn until one has set the indicator.  That none did is
only a warning in the log. -/
def firstHandled (f : Nat → EStateM Fault LedManager Bool) :
    List Nat → EStateM Fault LedManager Unit
  | [] => pure ()
  | this :: rest => do
      if (← get).alive this then
        if ← f this then pure () else firstHandled f rest
      else
        firstHandled f rest

namespace LedManager

def setBrightness (which : Indicator) (brightness : Double) :
    EStateM Fault LedManager Unit := do
  firstHandled (fun this => Pca9955.setIndicatorBrightness this which brightness)
    (List.range (← get).drivers.length)

def setColor (which : Indicator) (color : Color) : EStateM Fault LedManager Unit := do
  firstHandled (fun this => Pca9955.setIndicatorColor this which color)
    (List.range (← get).drivers.length)

end LedManager

/-- What an indicator is set to. -/
inductive Setting where
  | brightness (value : Double)
  | color (value : Color)

/-- One driver's part of a request. -/
def Pca9955.setIndicator (this : Nat) (which : Indicator) :
    Setting → EStateM Fault LedManager Bool
  | .brightness value => Pca9955.setIndicatorBrightness this which value
  | .color value => Pca9955.setIndicatorColor this which value

/-- A request to the manager. -/
def LedManager.set (which : Indicator) : Setting → EStateM Fault LedManager Unit
  | .brightness value => LedManager.setBrightness which value
  | .color value => LedManager.setColor which value

/-- The duty cycles a setting gives to the channels of an indicator, in the
order they are written.  A color is for one to three channels. -/
def Setting.writes (r : Rounding) : Setting → List Nat → Option (List (Nat × Byte))
  | .brightness v, l => some (l.map fun channel => (channel, v.duty r))
  | .color (cR, cG, cB), [i0, i1, i2] =>
      some [(i2, cB.duty r), (i1, cG.duty r), (i0, cR.duty r)]
  | .color (cR, cG, _), [i0, i1] => some [(i1, cG.duty r), (i0, cR.duty r)]
  | .color (cR, _, _), [i0] => some [(i0, cR.duty r)]
  | .color _, _ => none

/-- A request writes every channel of the indicator once. -/
theorem Setting.writes_perm {r : Rounding} {setting : Setting} {l : List Nat}
    {ws : List (Nat × Byte)} (h : setting.writes r l = some ws) :
    (ws.map Prod.fst).Perm l := by
  cases setting with
  | brightness v =>
      cases h
      simp [Function.comp_def]
  | color value =>
      obtain ⟨cR, cG, cB⟩ := value
      rcases l with _ | ⟨i0, _ | ⟨i1, _ | ⟨i2, _ | ⟨i3, l⟩⟩⟩⟩ <;> cases h
      · exact .refl _
      · exact .swap _ _ _
      · exact List.reverse_perm [i0, i1, i2]

theorem Setting.length_writes {r : Rounding} {setting : Setting} {l : List Nat}
    {ws : List (Nat × Byte)} (h : setting.writes r l = some ws) : ws.length = l.length := by
  rw [← (Setting.writes_perm h).length_eq, List.length_map]

/-- Whether a setting can be made does not depend on the arithmetic. -/
theorem Setting.isSome_writes (r r' : Rounding) (setting : Setting) (l : List Nat) :
    (setting.writes r l).isSome = (setting.writes r' l).isSome := by
  cases setting with
  | brightness v => rfl
  | color value => rcases l with _ | ⟨i0, _ | ⟨i1, _ | ⟨i2, _ | ⟨i3, l⟩⟩⟩⟩ <;> rfl

/-! ## Registers and the bus under a write -/

namespace LedManager

variable {s t : LedManager} {this other : Nat} {which : Indicator} {r : Register} {data : Byte}

@[simp] theorem bus_poke : (s.poke this r data).bus = s.bus.tail := rfl

@[simp] theorem rounding_poke : (s.poke this r data).rounding = s.rounding := rfl

@[simp] theorem length_drivers_poke :
    (s.poke this r data).drivers.length = s.drivers.length := by
  simp [poke]

theorem drivers_poke : (s.poke this r data).drivers[other]?.join
    = s.drivers[other]?.join.map fun d => if this = other then d.setReg r data else d := by
  simp only [poke, List.getElem?_modify]
  split
  · cases s.drivers[other]? <;> rfl
  · simp

@[simp] theorem indices_poke :
    (s.poke this r data).indices other which = s.indices other which := by
  simp only [indices, drivers_poke]
  cases s.drivers[other]?.join with
  | none => rfl
  | some d =>
      by_cases h : this = other
      · simp [h, Pca9955.setReg]
      · simp [h]

theorem reg_poke {r' : Register} : (s.poke this r data).reg other r'
    = (s.reg other r').map fun old => if this = other ∧ r = r' then data else old := by
  simp only [reg, drivers_poke]
  cases s.drivers[other]?.join with
  | none => rfl
  | some d =>
      by_cases h : this = other
      · by_cases hr : r' = r
        · simp [h, hr, Pca9955.setReg]
        · simp [h, hr, Ne.symm hr, Pca9955.setReg]
      · simp [h]

/-- The next `n` writes on the bus succeed. -/
def Answers (bus : List (Option BusError)) (n : Nat) : Prop := ∀ e ∈ bus.take n, e = none

@[simp] theorem answers_nil (n : Nat) : Answers [] n := by simp [Answers]

@[simp] theorem answers_zero (bus : List (Option BusError)) : Answers bus 0 := by
  simp [Answers]

theorem answers_add {bus : List (Option BusError)} {m n : Nat} :
    Answers bus (m + n) ↔ Answers bus m ∧ Answers (bus.drop m) n := by
  simp only [Answers, List.take_add, List.forall_mem_append]

/-- The channel writes of a request, one after the other. -/
def writeAll (this : Nat) (ws : List (Nat × Byte)) : EStateM Fault LedManager Unit :=
  forM ws fun w => Pca9955.writeRegister this (PWM0 + BitVec.ofNat 8 w.1) w.2

/-- The state after these writes. -/
def written (s : LedManager) (this : Nat) (ws : List (Nat × Byte)) : LedManager :=
  ws.foldl (fun s w => s.poke this (pwm w.1) w.2) s

theorem writeRegister_run_eq_ok_iff {start : Register} :
    (Pca9955.writeRegister this start data).run s = .ok () t ↔
      Answers s.bus 1 ∧ t = s.poke this (start &&& 0x7f) data := by
  rcases hbus : s.bus with _ | ⟨_ | err, rest⟩
  · simp [Pca9955.writeRegister, hbus, eq_comm]
  · simp [Pca9955.writeRegister, hbus, Answers, eq_comm]
  · simp [Pca9955.writeRegister, hbus, Answers]

theorem writeAll_run_eq_ok_iff {ws : List (Nat × Byte)} :
    (writeAll this ws).run s = .ok () t ↔
      Answers s.bus ws.length ∧ t = s.written this ws := by
  induction ws generalizing s with
  | nil => simp [writeAll, written, eq_comm]
  | cons w ws ih =>
      have hstep : (writeAll this (w :: ws)).run s = .ok () t ↔
          ∃ u, (Pca9955.writeRegister this (PWM0 + BitVec.ofNat 8 w.1) w.2).run s = .ok () u ∧
            (writeAll this ws).run u = .ok () t := by
        simp only [writeAll, List.forM_cons, run_bind_eq_ok]
        exact ⟨fun ⟨_, u, h⟩ => ⟨u, h⟩, fun ⟨u, h⟩ => ⟨(), u, h⟩⟩
      rw [hstep, List.length_cons, Nat.add_comm, answers_add]
      constructor
      · rintro ⟨u, hw, hws⟩
        obtain ⟨hone, rfl⟩ := writeRegister_run_eq_ok_iff.mp hw
        obtain ⟨hrest, ht⟩ := ih.mp hws
        rw [bus_poke, ← List.drop_one] at hrest
        exact ⟨⟨hone, hrest⟩, ht⟩
      · rintro ⟨⟨hone, hrest⟩, ht⟩
        refine ⟨_, writeRegister_run_eq_ok_iff.mpr ⟨hone, rfl⟩, ih.mpr ⟨?_, ht⟩⟩
        rw [bus_poke, ← List.drop_one]
        exact hrest

@[simp] theorem length_drivers_written (ws : List (Nat × Byte)) :
    (s.written this ws).drivers.length = s.drivers.length := by
  induction ws generalizing s with
  | nil => rfl
  | cons w ws ih =>
      show ((s.poke this (pwm w.1) w.2).written this ws).drivers.length = _
      rw [ih, length_drivers_poke]

@[simp] theorem rounding_written (ws : List (Nat × Byte)) :
    (s.written this ws).rounding = s.rounding := by
  induction ws generalizing s with
  | nil => rfl
  | cons w ws ih => exact ih

@[simp] theorem indices_written (ws : List (Nat × Byte)) :
    (s.written this ws).indices other which = s.indices other which := by
  induction ws generalizing s with
  | nil => rfl
  | cons w ws ih =>
      show ((s.poke this (pwm w.1) w.2).written this ws).indices other which = _
      rw [ih, indices_poke]

@[simp] theorem bus_written (ws : List (Nat × Byte)) :
    (s.written this ws).bus = s.bus.drop ws.length := by
  induction ws generalizing s with
  | nil => rfl
  | cons w ws ih =>
      show ((s.poke this (pwm w.1) w.2).written this ws).bus = _
      rw [ih, bus_poke, List.drop_tail, List.length_cons]

/-! ## A request is the writes of the driver that has the indicator -/

/-- The first live driver that has the indicator, with its channels. -/
def handler (s : LedManager) (which : Indicator) : Option (Nat × List Nat) :=
  (List.range s.drivers.length).findSome? fun this =>
    (s.indices this which).map fun l => (this, l)

theorem indices_of_handler {l : List Nat} (h : s.handler which = some (this, l)) :
    s.indices this which = some l := by
  obtain ⟨other, _, hother⟩ := List.exists_of_findSome?_eq_some h
  obtain ⟨l', hl', hpair⟩ := Option.map_eq_some_iff.mp hother
  cases hpair
  exact hl'

theorem exists_of_indices {l : List Nat} (h : s.indices this which = some l) :
    ∃ d : Pca9955, s.drivers[this]?.join = some d ∧ d.channels.indices which = some l :=
  Option.bind_eq_some_iff.mp h

theorem lt_of_indices {l : List Nat} (h : s.indices this which = some l) :
    ∀ channel ∈ l, channel < kNumChannels := by
  obtain ⟨d, _, hd⟩ := exists_of_indices h
  exact d.channels.index_lt hd

theorem setBrightness_run {channel : Nat} (v : Double) (h : channel < kNumChannels) :
    (Pca9955.setBrightness this channel v).run s
      = (Pca9955.writeRegister this (PWM0 + BitVec.ofNat 8 channel) (v.duty s.rounding)).run s := by
  rw [Pca9955.setBrightness, if_neg (Nat.not_le.mpr h), run_get_bind]

theorem rounding_writeRegister {start : Register} {e : Unit}
    (h : (Pca9955.writeRegister this start data).run s = .ok e t) :
    t.rounding = s.rounding := by
  rw [(writeRegister_run_eq_ok_iff.mp h).2, rounding_poke]

/-- Setting channels one after the other is writing their duty cycles. -/
theorem forM_setBrightness_run {l : List (Nat × Double)}
    (h : ∀ w ∈ l, w.1 < kNumChannels) :
    (forM l fun w => Pca9955.setBrightness this w.1 w.2).run s
      = (writeAll this (l.map fun w => (w.1, w.2.duty s.rounding))).run s := by
  induction l generalizing s with
  | nil => rfl
  | cons w l ih =>
      rw [writeAll, List.map_cons, List.forM_cons, List.forM_cons, EStateM.run_bind,
        EStateM.run_bind, setBrightness_run w.2 (h w List.mem_cons_self)]
      cases hw : (Pca9955.writeRegister this (PWM0 + BitVec.ofNat 8 w.1)
          (w.2.duty s.rounding)).run s with
      | error e t => rfl
      | ok _ t =>
          have hrest := ih (s := t) fun v hv => h v (List.mem_cons_of_mem w hv)
          rw [rounding_writeRegister hw] at hrest
          exact hrest

theorem setIndicator_run_of_none (setting : Setting) (h : s.indices this which = none) :
    (Pca9955.setIndicator this which setting).run s = .ok false s := by
  cases setting with
  | brightness v => simp [Pca9955.setIndicator, Pca9955.setIndicatorBrightness, h]
  | color value => simp [Pca9955.setIndicator, Pca9955.setIndicatorColor, h]

/-- The error of a color for an indicator with no channels, or too many. -/
def invalidChannelInfo (l : List Nat) : Fault :=
  .thrown (.runtimeError s!"invalid channel info (has {l.length} indices)")

theorem setIndicator_run_of_some (setting : Setting) {l : List Nat}
    (h : s.indices this which = some l) :
    (Pca9955.setIndicator this which setting).run s
      = match setting.writes s.rounding l with
        | some ws => (writeAll this ws >>= fun _ => pure true).run s
        | none => .error (invalidChannelInfo l) s := by
  have hlt := lt_of_indices h
  have hall : ∀ ws : List (Nat × Double), (∀ w ∈ ws, w.1 ∈ l) →
      ((forM ws fun w => Pca9955.setBrightness this w.1 w.2) >>= fun _ => pure true).run s
        = (writeAll this (ws.map fun w => (w.1, w.2.duty s.rounding))
            >>= fun _ => pure true).run s := by
    intro ws hws
    rw [EStateM.run_bind, EStateM.run_bind,
      forM_setBrightness_run fun w hw => hlt w.1 (hws w hw)]
  cases setting with
  | brightness v =>
      have hl := hall (l.map fun channel => (channel, v)) (by simp)
      rw [List.forM_map, List.map_map] at hl
      simp only [Pca9955.setIndicator, Pca9955.setIndicatorBrightness, run_get_bind, h]
      exact hl
  | color value =>
      obtain ⟨cR, cG, cB⟩ := value
      simp only [Pca9955.setIndicator, Pca9955.setIndicatorColor, run_get_bind, h]
      rcases l with _ | ⟨i0, _ | ⟨i1, _ | ⟨i2, _ | ⟨i3, l⟩⟩⟩⟩
      · rfl
      · have hl := hall [(i0, cR)] (by simp)
        simp only [List.forM_cons, List.forM_nil, bind_assoc, pure_bind] at hl
        exact hl
      · have hl := hall [(i1, cG), (i0, cR)] (by simp)
        simp only [List.forM_cons, List.forM_nil, bind_assoc, pure_bind] at hl
        exact hl
      · have hl := hall [(i2, cB), (i1, cG), (i0, cR)] (by simp)
        simp only [List.forM_cons, List.forM_nil, bind_assoc, pure_bind] at hl
        exact hl
      · rfl

theorem firstHandled_cons_run (f : Nat → EStateM Fault LedManager Bool) (rest : List Nat) :
    (firstHandled f (this :: rest)).run s
      = if s.alive this then
          match (f this).run s with
          | .ok true t => .ok () t
          | .ok false t => (firstHandled f rest).run t
          | .error e t => .error e t
        else (firstHandled f rest).run s := by
  rw [firstHandled, run_get_bind, run_ite, EStateM.run_bind]
  rcases (f this).run s with ⟨_ | _, t⟩ | ⟨e, t⟩ <;> rfl

theorem alive_of_indices {l : List Nat} (h : s.indices this which = some l) :
    s.alive this = true := by
  obtain ⟨d, hd, _⟩ := exists_of_indices h
  simp [alive, hd]

/-- The loop over some drivers ends at the first that has the indicator. -/
theorem firstHandled_setIndicator_run (setting : Setting) (drivers : List Nat) :
    (firstHandled (fun this => Pca9955.setIndicator this which setting) drivers).run s
      = match drivers.findSome? fun this => (s.indices this which).map fun l => (this, l) with
        | none => .ok () s
        | some (this, l) =>
            match setting.writes s.rounding l with
            | some ws => (writeAll this ws).run s
            | none => .error (invalidChannelInfo l) s := by
  induction drivers with
  | nil => rfl
  | cons this rest ih =>
      rw [firstHandled_cons_run, List.findSome?_cons]
      cases hi : s.indices this which with
      | none =>
          rw [setIndicator_run_of_none setting hi]
          simp only [ih, ite_self, Option.map_none]
      | some l =>
          rw [setIndicator_run_of_some setting hi, alive_of_indices hi]
          simp only [if_true, Option.map_some]
          cases setting.writes s.rounding l with
          | none => rfl
          | some ws =>
              simp only [EStateM.run_bind]
              rcases (writeAll this ws).run s with ⟨_, t⟩ | ⟨e, t⟩ <;> rfl

/-- A request, from the state it is made in. -/
theorem set_run (setting : Setting) :
    (LedManager.set which setting).run s
      = match s.handler which with
        | none => .ok () s
        | some (this, l) =>
            match setting.writes s.rounding l with
            | some ws => (writeAll this ws).run s
            | none => .error (invalidChannelInfo l) s := by
  cases setting with
  | brightness v => exact firstHandled_setIndicator_run (.brightness v) _
  | color value => exact firstHandled_setIndicator_run (.color value) _

/-! ## When a request returns -/

/-- The number of channels of an indicator. -/
def channelCount (s : LedManager) (which : Indicator) : Nat :=
  match s.handler which with
  | none => 0
  | some (_, l) => l.length

/-- The indicator, if any driver has it, has channels for the setting. -/
def Takes (s : LedManager) (which : Indicator) (setting : Setting) : Prop :=
  ∀ this l, s.handler which = some (this, l) → (setting.writes s.rounding l).isSome = true

/-- The state after a request that returned. -/
def painted (s : LedManager) (which : Indicator) (setting : Setting) : LedManager :=
  match s.handler which with
  | none => s
  | some (this, l) => s.written this ((setting.writes s.rounding l).getD [])

theorem takes_brightness (v : Double) : s.Takes which (.brightness v) := by
  intro this l _
  rfl

theorem takes_color_iff (value : Color) :
    s.Takes which (.color value) ↔ ∀ this, s.handler which ≠ some (this, []) := by
  obtain ⟨cR, cG, cB⟩ := value
  constructor
  · intro h this hnil
    cases h this [] hnil
  · intro h this l hl
    obtain ⟨d, _, hd⟩ := exists_of_indices (indices_of_handler hl)
    have hlen := d.channels.length_le hd
    rcases l with _ | ⟨i0, _ | ⟨i1, _ | ⟨i2, _ | ⟨i3, l⟩⟩⟩⟩
    · exact absurd hl (h this)
    · rfl
    · rfl
    · rfl
    · simp only [List.length_cons] at hlen
      omega

theorem set_run_eq_ok_iff {setting : Setting} :
    (LedManager.set which setting).run s = .ok () t ↔
      s.Takes which setting ∧ Answers s.bus (s.channelCount which) ∧
        t = s.painted which setting := by
  rw [set_run]
  unfold Takes channelCount painted
  cases hh : s.handler which with
  | none =>
      constructor
      · intro h
        cases h
        exact ⟨fun _ _ h => (nomatch h), answers_zero _, rfl⟩
      · rintro ⟨_, _, rfl⟩
        rfl
  | some pair =>
      obtain ⟨this, l⟩ := pair
      simp only
      cases hw : setting.writes s.rounding l with
      | none =>
          refine ⟨fun h => (nomatch h), fun ⟨h, _⟩ => ?_⟩
          have hsome := h this l rfl
          rw [hw] at hsome
          cases hsome
      | some ws =>
          rw [← Setting.length_writes hw]
          constructor
          · intro hrun
            obtain ⟨ha, ht⟩ := writeAll_run_eq_ok_iff.mp hrun
            refine ⟨?_, ha, ht⟩
            intro this' l' hpair
            cases hpair
            rw [hw]
            rfl
          · rintro ⟨_, ha, ht⟩
            exact writeAll_run_eq_ok_iff.mpr ⟨ha, ht⟩

@[simp] theorem indices_painted (setting : Setting) (which' : Indicator) :
    (s.painted which setting).indices other which' = s.indices other which' := by
  unfold painted
  cases s.handler which with
  | none => rfl
  | some pair => exact indices_written _

@[simp] theorem rounding_painted (setting : Setting) :
    (s.painted which setting).rounding = s.rounding := by
  unfold painted
  cases s.handler which with
  | none => rfl
  | some pair => exact rounding_written _

@[simp] theorem length_drivers_painted (setting : Setting) :
    (s.painted which setting).drivers.length = s.drivers.length := by
  unfold painted
  cases s.handler which with
  | none => rfl
  | some pair => exact length_drivers_written _

@[simp] theorem handler_painted (setting : Setting) (which' : Indicator) :
    (s.painted which setting).handler which' = s.handler which' := by
  simp [handler]

theorem bus_painted {setting : Setting} (h : s.Takes which setting) :
    (s.painted which setting).bus = s.bus.drop (s.channelCount which) := by
  unfold painted channelCount
  cases hh : s.handler which with
  | none => rfl
  | some pair =>
      obtain ⟨this, l⟩ := pair
      obtain ⟨ws, hws⟩ := Option.isSome_iff_exists.mp (h this l hh)
      simp only [bus_written, hws, Option.getD_some, Setting.length_writes hws]

end LedManager

end Led
