/-
# `Led.Registers` — what the registers hold after a list of requests

Every PWM register that is in use belongs to one channel of one indicator:
channels are not shared, and an indicator is always set on the first live
driver that has it.  So the register is a cell of that indicator, and after a
list of requests that returned it holds what the last of them to the indicator
gave it.
-/
import ProgrammableLoad.Led.Manager
import ProgrammableLoad.Theory.LastWriter
import ProgrammableLoad.Theory.Loops

namespace Led

open Cpp LastWriter

/-- The duty cycle a setting has for the channel in a position. -/
def Setting.duty (r : Rounding) : Setting → Nat → Byte
  | .brightness v, _ => v.duty r
  | .color (cR, _, _), 0 => cR.duty r
  | .color (_, cG, _), 1 => cG.duty r
  | .color (_, _, cB), _ => cB.duty r

theorem Setting.mem_writes {r : Rounding} {setting : Setting} {l : List Nat}
    {ws : List (Nat × Byte)} (h : setting.writes r l = some ws) {k channel : Nat}
    (hk : l[k]? = some channel) : (channel, setting.duty r k) ∈ ws := by
  cases setting with
  | brightness v =>
      cases h
      exact List.mem_map_of_mem (List.mem_of_getElem? hk)
  | color value =>
      obtain ⟨cR, cG, cB⟩ := value
      rcases l with _ | ⟨i0, _ | ⟨i1, _ | ⟨i2, _ | ⟨i3, l⟩⟩⟩⟩ <;> cases h <;>
        rcases k with _ | _ | _ | k <;> simp at hk <;> simp [hk, Setting.duty]

theorem pwm_injective {a b : Nat} (ha : a < kNumChannels) (hb : b < kNumChannels)
    (h : pwm a = pwm b) : a = b := by
  have hinj : ∀ a b : Fin 16, pwm a = pwm b → a = b := by decide
  exact congrArg Fin.val (hinj ⟨a, ha⟩ ⟨b, hb⟩ h)

namespace LedManager

variable {s t : LedManager} {this other : Nat} {which : Indicator} {r : Register}

/-! ## The writes of one request -/

theorem reg_written_of_ne (h : this ≠ other) (ws : List (Nat × Byte)) :
    (s.written this ws).reg other r = s.reg other r := by
  induction ws generalizing s with
  | nil => rfl
  | cons w ws ih =>
      show ((s.poke this (pwm w.1) w.2).written this ws).reg other r = _
      rw [ih, reg_poke]
      simp [h]

theorem reg_written_of_not_mem {ws : List (Nat × Byte)} (h : ∀ w ∈ ws, pwm w.1 ≠ r) :
    (s.written this ws).reg other r = s.reg other r := by
  induction ws generalizing s with
  | nil => rfl
  | cons w ws ih =>
      show ((s.poke this (pwm w.1) w.2).written this ws).reg other r = _
      rw [ih fun w' hw' => h w' (List.mem_cons_of_mem _ hw'), reg_poke]
      simp [h w List.mem_cons_self]

theorem reg_written_of_mem {ws : List (Nat × Byte)} (hnodup : (ws.map fun w => pwm w.1).Nodup)
    {w : Nat × Byte} (hw : w ∈ ws) :
    (s.written this ws).reg this (pwm w.1) = (s.reg this (pwm w.1)).map fun _ => w.2 := by
  induction ws generalizing s with
  | nil => cases hw
  | cons w' ws ih =>
      obtain ⟨hnot, hnodup⟩ := List.nodup_cons.mp hnodup
      show ((s.poke this (pwm w'.1) w'.2).written this ws).reg this (pwm w.1) = _
      rcases List.mem_cons.mp hw with rfl | hw
      · have hrest : ∀ v ∈ ws, pwm v.1 ≠ pwm w.1 := fun v hv hvw =>
          hnot (List.mem_map.mpr ⟨v, hv, hvw⟩)
        rw [reg_written_of_not_mem hrest, reg_poke]
        simp
      · have hne : pwm w'.1 ≠ pwm w.1 := fun hww =>
          hnot (List.mem_map.mpr ⟨w, hw, hww.symm⟩)
        rw [ih hnodup hw, reg_poke]
        simp [hne]

/-! ## The register of a channel -/

/-- The register is that of the channel the indicator has in position `k`. -/
def Drives (s : LedManager) (which : Indicator) (k : Nat) (this : Nat) (r : Register) : Prop :=
  ∃ l channel, s.handler which = some (this, l) ∧ l[k]? = some channel ∧ pwm channel = r

theorem Drives.lt_three {k : Nat} (h : s.Drives which k this r) : k < 3 := by
  obtain ⟨l, channel, hh, hk, _⟩ := h
  obtain ⟨d, _, hd⟩ := exists_of_indices (indices_of_handler hh)
  have hlen := d.channels.length_le hd
  have hlt := (List.getElem?_eq_some_iff.mp hk).1
  omega

/-- A register is that of at most one indicator. -/
theorem Drives.unique {which' : Indicator} {k k' : Nat} (h : s.Drives which k this r)
    (h' : s.Drives which' k' this r) : which = which' := by
  obtain ⟨l, channel, hh, hk, rfl⟩ := h
  obtain ⟨l', channel', hh', hk', hr⟩ := h'
  have hi := indices_of_handler hh
  have hi' := indices_of_handler hh'
  have hmem := List.mem_of_getElem? hk
  have hmem' := List.mem_of_getElem? hk'
  have heq := pwm_injective (lt_of_indices hi' _ hmem') (lt_of_indices hi _ hmem) hr
  obtain ⟨d, hd, hl⟩ := exists_of_indices hi
  obtain ⟨d', hd', hl'⟩ := exists_of_indices hi'
  rw [hd] at hd'
  cases hd'
  by_contra hne
  exact d.channels.disjoint hne hl hl' hmem (heq ▸ hmem')

/-- The writes of a request go to registers of its indicator, each at most once. -/
theorem nodup_pwm_writes {setting : Setting} {l : List Nat} {ws : List (Nat × Byte)}
    (h : s.handler which = some (this, l)) (hws : setting.writes s.rounding l = some ws) :
    (ws.map fun w => pwm w.1).Nodup := by
  have hi := indices_of_handler h
  obtain ⟨d, _, hl⟩ := exists_of_indices hi
  have hperm := Setting.writes_perm hws
  have hfst : (ws.map Prod.fst).Nodup := hperm.nodup_iff.mpr (d.channels.nodup hl)
  have hinj : ∀ a ∈ ws.map Prod.fst, ∀ b ∈ ws.map Prod.fst, pwm a = pwm b → a = b :=
    fun a ha b hb => pwm_injective (lt_of_indices hi a (hperm.mem_iff.mp ha))
      (lt_of_indices hi b (hperm.mem_iff.mp hb))
  have hmap := hfst.map_on hinj
  rwa [List.map_map] at hmap

theorem drives_of_mem_writes {setting : Setting} {l : List Nat} {ws : List (Nat × Byte)}
    (h : s.handler which = some (this, l)) (hws : setting.writes s.rounding l = some ws)
    {w : Nat × Byte} (hw : w ∈ ws) : ∃ k, s.Drives which k this (pwm w.1) := by
  have hmem : w.1 ∈ l := (Setting.writes_perm hws).mem_iff.mp (List.mem_map_of_mem hw)
  obtain ⟨k, hk⟩ := List.getElem?_of_mem hmem
  exact ⟨k, l, w.1, h, hk, rfl⟩

theorem reg_painted_of_drives {setting : Setting} {k : Nat} (h : s.Drives which k this r)
    (ht : s.Takes which setting) :
    (s.painted which setting).reg this r = some (setting.duty s.rounding k) := by
  obtain ⟨l, channel, hh, hk, rfl⟩ := h
  obtain ⟨d, hd, _⟩ := exists_of_indices (indices_of_handler hh)
  obtain ⟨ws, hws⟩ := Option.isSome_iff_exists.mp (ht this l hh)
  have hreg : s.reg this (pwm channel) = some (d.regs (pwm channel)) := by
    simp [reg, hd]
  simp only [painted, hh, hws, Option.getD_some]
  rw [reg_written_of_mem (nodup_pwm_writes hh hws) (Setting.mem_writes hws hk), hreg]
  rfl

theorem reg_painted_of_not_drives {setting : Setting} (h : ∀ k, ¬ s.Drives which k this r) :
    (s.painted which setting).reg this r = s.reg this r := by
  unfold painted
  cases hh : s.handler which with
  | none => rfl
  | some pair =>
      obtain ⟨other, l⟩ := pair
      by_cases hother : other = this
      · subst hother
        cases hws : setting.writes s.rounding l with
        | none =>
            simp only [hws]
            rfl
        | some ws =>
            simp only [hws, Option.getD_some]
            refine reg_written_of_not_mem ?_
            rintro w hw rfl
            obtain ⟨k, hk⟩ := drives_of_mem_writes hh hws hw
            exact h k hk
      · exact reg_written_of_ne hother _

/-! ## A list of requests -/

/-- The state after a list of requests that returned. -/
def paintedAll (s : LedManager) (l : List (Indicator × Setting)) : LedManager :=
  l.foldl (fun s x => s.painted x.1 x.2) s

@[simp] theorem handler_paintedAll (l : List (Indicator × Setting)) (which : Indicator) :
    (s.paintedAll l).handler which = s.handler which := by
  induction l generalizing s with
  | nil => rfl
  | cons x l ih => exact ih.trans (handler_painted _ _)

@[simp] theorem rounding_paintedAll (l : List (Indicator × Setting)) :
    (s.paintedAll l).rounding = s.rounding := by
  induction l generalizing s with
  | nil => rfl
  | cons x l ih => exact ih.trans (rounding_painted _)

theorem takes_congr {setting : Setting} (h : t.handler which = s.handler which) :
    t.Takes which setting ↔ s.Takes which setting := by
  simp only [Takes, h, Setting.isSome_writes t.rounding s.rounding]

theorem drives_congr {k : Nat} (h : t.handler which = s.handler which) :
    t.Drives which k this r ↔ s.Drives which k this r := by
  simp only [Drives, h]

theorem bus_paintedAll {l : List (Indicator × Setting)} (hl : ∀ x ∈ l, s.Takes x.1 x.2)
    (hbus : s.bus = []) : (s.paintedAll l).bus = [] := by
  induction l generalizing s with
  | nil => exact hbus
  | cons x l ih =>
      refine ih ?_ ?_
      · intro y hy
        exact (takes_congr (handler_painted _ _)).mpr (hl y (List.mem_cons_of_mem x hy))
      · rw [bus_painted (hl x List.mem_cons_self), hbus, List.drop_nil]

/-- On a bus that always answers, the requests return if and only if each of
them has channels to set. -/
theorem forM_set_run_eq_ok_iff (hbus : s.bus = []) {l : List (Indicator × Setting)} :
    (forM l fun x => LedManager.set x.1 x.2).run s = .ok () t ↔
      (∀ x ∈ l, s.Takes x.1 x.2) ∧ t = s.paintedAll l := by
  induction l generalizing s with
  | nil => simp [paintedAll, eq_comm]
  | cons x l ih =>
      rw [List.forM_cons, Program.run_bind_eq_ok]
      have hrest : ∀ y : Indicator × Setting,
          (s.painted x.1 x.2).Takes y.1 y.2 ↔ s.Takes y.1 y.2 :=
        fun y => takes_congr (handler_painted _ _)
      constructor
      · rintro ⟨_, u, hu, hl⟩
        obtain ⟨htakes, _, rfl⟩ := set_run_eq_ok_iff.mp hu
        have hbus' : (s.painted x.1 x.2).bus = [] := by simp [bus_painted htakes, hbus]
        obtain ⟨hall, rfl⟩ := (ih hbus').mp hl
        refine ⟨fun y hy => ?_, rfl⟩
        rcases List.mem_cons.mp hy with rfl | hy
        · exact htakes
        · exact (hrest y).mp (hall y hy)
      · rintro ⟨hall, ht⟩
        have htakes := hall x List.mem_cons_self
        have hbus' : (s.painted x.1 x.2).bus = [] := by simp [bus_painted htakes, hbus]
        have hanswers : Answers s.bus (s.channelCount x.1) := by simp [hbus]
        refine ⟨(), _, set_run_eq_ok_iff.mpr ⟨htakes, hanswers, rfl⟩, (ih hbus').mpr ⟨?_, ht⟩⟩
        exact fun y hy => (hrest y).mpr (hall y (List.mem_cons_of_mem _ hy))

/-- A register in use holds what the last request to its indicator gave it. -/
theorem reg_paintedAll {l : List (Indicator × Setting)} (hl : ∀ x ∈ l, s.Takes x.1 x.2)
    {k : Nat} (h : s.Drives which k this r) :
    (s.paintedAll l).reg this r
      = ((lastOf which l).map fun setting => some (setting.duty s.rounding k)).getD
          (s.reg this r) := by
  refine read_foldl
    (I := fun u : LedManager => u.rounding = s.rounding ∧ ∀ i, u.handler i = s.handler i)
    (fun i setting u => u.painted i setting) (fun u => u.reg this r) ?_ ?_ ?_ ⟨rfl, fun _ => rfl⟩
  · rintro i setting u ⟨hrounding, hu⟩
    refine ⟨(rounding_painted setting).trans hrounding, fun j => ?_⟩
    rw [handler_painted, hu]
  · rintro i setting u ⟨_, hu⟩ hne
    refine reg_painted_of_not_drives fun k' hk' => hne ?_
    exact ((drives_congr (hu i)).mp hk').unique h
  · rintro setting hmem u ⟨hrounding, hu⟩
    rw [← hrounding]
    exact reg_painted_of_drives ((drives_congr (hu which)).mpr h)
      ((takes_congr (hu which)).mpr (hl _ hmem))

/-- A register that is not in use is left alone. -/
theorem reg_paintedAll_of_not_drives {l : List (Indicator × Setting)}
    (h : ∀ i k, ¬ s.Drives i k this r) : (s.paintedAll l).reg this r = s.reg this r := by
  refine read_foldl_of_unowned (I := fun u : LedManager => ∀ i, u.handler i = s.handler i)
    (fun i setting u => u.painted i setting) (fun u => u.reg this r) ?_ ?_ fun _ => rfl
  · intro i setting u hu j
    rw [handler_painted, hu]
  · intro i setting u hu
    exact reg_painted_of_not_drives fun k hk => h i k ((drives_congr (hu i)).mp hk)

/-- Two lists whose last requests to each indicator agree leave the same
registers. -/
theorem reg_paintedAll_congr {l l' : List (Indicator × Setting)}
    (hl : ∀ x ∈ l, s.Takes x.1 x.2) (hl' : ∀ x ∈ l', s.Takes x.1 x.2)
    (h : ∀ i, ∀ k < 3, (lastOf i l).map (fun setting => setting.duty s.rounding k)
      = (lastOf i l').map fun setting => setting.duty s.rounding k) :
    (s.paintedAll l).reg = (s.paintedAll l').reg := by
  funext this r
  by_cases hdrives : ∃ i k, s.Drives i k this r
  · obtain ⟨i, k, hik⟩ := hdrives
    have hlast := congrArg (Option.map some) (h i k hik.lt_three)
    simp only [Option.map_map, Function.comp_def] at hlast
    rw [reg_paintedAll hl hik, reg_paintedAll hl' hik, hlast]
  · have hnone : ∀ i k, ¬ s.Drives i k this r := fun i k hik => hdrives ⟨i, k, hik⟩
    rw [reg_paintedAll_of_not_drives hnone, reg_paintedAll_of_not_drives hnone]

/-! ## Requests that change nothing -/

/-- The registers of the indicator already hold what the setting gives them. -/
def Shows (s : LedManager) (which : Indicator) (setting : Setting) : Prop :=
  ∀ k this r, s.Drives which k this r → s.reg this r = some (setting.duty s.rounding k)

/-- Requests to different indicators leave all registers as they were if and
only if each of them asks for what its indicator already shows. -/
theorem reg_paintedAll_eq_self_iff {l : List (Indicator × Setting)}
    (hl : ∀ x ∈ l, s.Takes x.1 x.2) (hnodup : (l.map Prod.fst).Nodup) :
    (s.paintedAll l).reg = s.reg ↔ ∀ x ∈ l, s.Shows x.1 x.2 := by
  constructor
  · intro h x hx k this r hdrives
    have hlast := (lastOf_eq_some_iff hnodup).mpr hx
    rw [← h, reg_paintedAll hl hdrives, hlast]
    rfl
  · intro h
    funext this r
    by_cases hdrives : ∃ i k, s.Drives i k this r
    · obtain ⟨i, k, hik⟩ := hdrives
      rw [reg_paintedAll hl hik]
      cases hlast : lastOf i l with
      | none => rfl
      | some setting =>
          exact (h _ (mem_of_lastOf hlast) k this r hik).symm
    · exact reg_paintedAll_of_not_drives fun i k hik => hdrives ⟨i, k, hik⟩

/-! ## Requests that throw -/

/-- On this bus the request throws after these writes of a driver: the next
write fails, or the indicator has no channels for the setting. -/
def ThrowsAfter (s : LedManager) (bus : List (Option BusError)) (which : Indicator)
    (setting : Setting) (this : Nat) (ws : List (Nat × Byte)) : Prop :=
  ∃ l, s.handler which = some (this, l) ∧
    ((setting.writes s.rounding l = none ∧ ws = []) ∨
      ∃ w more err, setting.writes s.rounding l = some (ws ++ w :: more) ∧
        Answers bus ws.length ∧ bus[ws.length]? = some (some err))

theorem throwsAfter_congr {bus : List (Option BusError)} {setting : Setting}
    {ws : List (Nat × Byte)} (hhandler : t.handler which = s.handler which)
    (hrounding : t.rounding = s.rounding) :
    t.ThrowsAfter bus which setting this ws ↔ s.ThrowsAfter bus which setting this ws := by
  simp only [ThrowsAfter, hhandler, hrounding]

theorem writeRegister_run_eq_error_iff {start : Register} {data : Byte} {f : Fault} :
    (Pca9955.writeRegister this start data).run s = .error f t ↔
      ∃ err, s.bus[0]? = some (some err) ∧ f = .thrown (.systemError err.what) ∧
        t = { s with bus := s.bus.tail } := by
  rcases hbus : s.bus with _ | ⟨_ | err, rest⟩
  · simp [Pca9955.writeRegister, hbus]
  · simp [Pca9955.writeRegister, hbus]
  · simp [Pca9955.writeRegister, hbus, eq_comm]

/-- A list of writes throws at the first one that fails. -/
theorem writeAll_run_eq_error_iff {ws : List (Nat × Byte)} {f : Fault} :
    (writeAll this ws).run s = .error f t ↔
      ∃ done w more err, ws = done ++ w :: more ∧ Answers s.bus done.length ∧
        s.bus[done.length]? = some (some err) ∧ f = .thrown (.systemError err.what) ∧
        t = { s.written this done with bus := s.bus.drop (done.length + 1) } := by
  rw [writeAll, Program.forM_run_eq_error_iff]
  constructor
  · rintro ⟨done, w, more, u, rfl, hdone, hw⟩
    obtain ⟨hanswers, rfl⟩ := writeAll_run_eq_ok_iff.mp hdone
    obtain ⟨err, herr, rfl, rfl⟩ := writeRegister_run_eq_error_iff.mp hw
    rw [bus_written, List.getElem?_drop, Nat.add_zero] at herr
    refine ⟨done, w, more, err, rfl, hanswers, herr, rfl, ?_⟩
    rw [bus_written, List.tail_drop]
  · rintro ⟨done, w, more, err, rfl, hanswers, herr, rfl, rfl⟩
    refine ⟨done, w, more, _, rfl, writeAll_run_eq_ok_iff.mpr ⟨hanswers, rfl⟩,
      writeRegister_run_eq_error_iff.mpr ⟨err, ?_, rfl, ?_⟩⟩
    · rw [bus_written, List.getElem?_drop, Nat.add_zero, herr]
    · rw [bus_written, List.tail_drop]

/-- A request that throws leaves the registers with the writes before. -/
theorem set_run_throws_iff {setting : Setting} {regs : Nat → Register → Option Byte} :
    (∃ e t, (LedManager.set which setting).run s = .error (.thrown e) t ∧ t.reg = regs) ↔
      ∃ this ws, s.ThrowsAfter s.bus which setting this ws ∧ (s.written this ws).reg = regs := by
  rw [set_run]
  constructor
  · rintro ⟨e, t, hrun, rfl⟩
    cases hh : s.handler which with
    | none =>
        rw [hh] at hrun
        cases hrun
    | some pair =>
        obtain ⟨this, l⟩ := pair
        rw [hh] at hrun
        cases hws : setting.writes s.rounding l with
        | none =>
            simp only [hws] at hrun
            cases hrun
            exact ⟨this, [], ⟨l, hh, .inl ⟨hws, rfl⟩⟩, rfl⟩
        | some all =>
            simp only [hws] at hrun
            obtain ⟨done, w, more, err, rfl, hanswers, herr, _, rfl⟩ :=
              writeAll_run_eq_error_iff.mp hrun
            exact ⟨this, done, ⟨l, hh, .inr ⟨w, more, err, hws, hanswers, herr⟩⟩, rfl⟩
  · rintro ⟨this, ws, ⟨l, hh, ⟨hws, rfl⟩ | ⟨w, more, err, hws, hanswers, herr⟩⟩, rfl⟩
    · rw [hh]
      simp only [hws]
      exact ⟨_, s, rfl, rfl⟩
    · rw [hh]
      simp only [hws]
      exact ⟨_, _, writeAll_run_eq_error_iff.mpr
        ⟨ws, w, more, err, rfl, hanswers, herr, rfl, rfl⟩, rfl⟩

/-- The writes before a request threw are to registers of its indicator. -/
theorem ThrowsAfter.drives {bus : List (Option BusError)} {setting : Setting}
    {ws : List (Nat × Byte)} (h : s.ThrowsAfter bus which setting this ws) {w : Nat × Byte}
    (hw : w ∈ ws) : ∃ k, s.Drives which k this (pwm w.1) := by
  obtain ⟨l, hh, ⟨_, rfl⟩ | ⟨v, more, err, hws, _⟩⟩ := h
  · cases hw
  · exact drives_of_mem_writes hh hws (List.mem_append_left _ hw)

theorem ThrowsAfter.nodup {bus : List (Option BusError)} {setting : Setting}
    {ws : List (Nat × Byte)} (h : s.ThrowsAfter bus which setting this ws) :
    (ws.map fun w => pwm w.1).Nodup := by
  obtain ⟨l, hh, ⟨_, rfl⟩ | ⟨v, more, err, hws, _⟩⟩ := h
  · exact .nil
  · have hall := nodup_pwm_writes hh hws
    rw [List.map_append] at hall
    exact (List.nodup_append.mp hall).1

/-- Writes to different registers of a driver change nothing if and only if
each register holds what is written. -/
theorem reg_written_eq_self_iff {ws : List (Nat × Byte)}
    (hnodup : (ws.map fun w => pwm w.1).Nodup)
    (halive : ∀ w ∈ ws, (s.reg this (pwm w.1)).isSome = true) :
    (s.written this ws).reg = s.reg ↔ ∀ w ∈ ws, s.reg this (pwm w.1) = some w.2 := by
  have hmap : ∀ w ∈ ws, (s.written this ws).reg this (pwm w.1) = some w.2 := by
    intro w hw
    obtain ⟨old, hold⟩ := Option.isSome_iff_exists.mp (halive w hw)
    rw [reg_written_of_mem hnodup hw, hold]
    rfl
  constructor
  · intro h w hw
    rw [← h, hmap w hw]
  · intro h
    funext other r
    by_cases hother : this = other
    · subst hother
      by_cases hr : ∃ w ∈ ws, pwm w.1 = r
      · obtain ⟨w, hw, rfl⟩ := hr
        rw [hmap w hw, h w hw]
      · exact reg_written_of_not_mem fun w hw hwr => hr ⟨w, hw, hwr⟩
    · exact reg_written_of_ne hother ws

theorem Drives.isSome {k : Nat} (h : s.Drives which k this r) :
    (s.reg this r).isSome = true := by
  obtain ⟨l, channel, hh, hk, rfl⟩ := h
  obtain ⟨d, hd, _⟩ := exists_of_indices (indices_of_handler hh)
  simp [reg, hd]

/-- Requests to different indicators, of which the last one throws, leave all
registers as they were if and only if what was written is what they held. -/
theorem reg_paintedAll_written_eq_self_iff {l : List (Indicator × Setting)}
    (hl : ∀ x ∈ l, s.Takes x.1 x.2) (hnodup : (l.map Prod.fst).Nodup)
    (hwhich : which ∉ l.map Prod.fst) {bus : List (Option BusError)} {setting : Setting}
    {ws : List (Nat × Byte)} (h : s.ThrowsAfter bus which setting this ws) :
    ((s.paintedAll l).written this ws).reg = s.reg ↔
      (∀ x ∈ l, s.Shows x.1 x.2) ∧ ∀ w ∈ ws, s.reg this (pwm w.1) = some w.2 := by
  have hpainted : (s.paintedAll l).ThrowsAfter bus which setting this ws :=
    (throwsAfter_congr (handler_paintedAll l which) (rounding_paintedAll l)).mpr h
  have halive : ∀ w ∈ ws, ((s.paintedAll l).reg this (pwm w.1)).isSome = true := by
    intro w hw
    obtain ⟨k, hk⟩ := hpainted.drives hw
    exact hk.isSome
  -- the registers of the last indicator are not those of the others
  have hkept : ∀ w ∈ ws, (s.paintedAll l).reg this (pwm w.1) = s.reg this (pwm w.1) := by
    intro w hw
    obtain ⟨k, hk⟩ := h.drives hw
    rw [reg_paintedAll hl hk]
    cases hlast : lastOf which l with
    | none => rfl
    | some setting' =>
        exact absurd (List.mem_map_of_mem (mem_of_lastOf hlast)) hwhich
  constructor
  · intro hreg
    have hwritten : ∀ w ∈ ws, s.reg this (pwm w.1) = some w.2 := by
      intro w hw
      obtain ⟨old, hold⟩ := Option.isSome_iff_exists.mp (halive w hw)
      rw [← hreg, reg_written_of_mem h.nodup hw, hold]
      rfl
    refine ⟨(reg_paintedAll_eq_self_iff hl hnodup).mp ?_, hwritten⟩
    rw [← hreg]
    refine ((reg_written_eq_self_iff h.nodup halive).mpr fun w hw => ?_).symm
    rw [hkept w hw, hwritten w hw]
  · rintro ⟨hshows, hwritten⟩
    rw [← (reg_paintedAll_eq_self_iff hl hnodup).mpr hshows]
    refine (reg_written_eq_self_iff h.nodup halive).mpr fun w hw => ?_
    rw [hkept w hw, hwritten w hw]

end LedManager

end Led
