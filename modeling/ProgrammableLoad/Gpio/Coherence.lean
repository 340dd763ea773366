/-
# `Gpio.Coherence` — the chip and its shadow when writes fail

`last` is the value of the last push that returned.  A later push that throws
after its first half leaves the chip with a lower half that `last` knows
nothing about.  The next push compares against `last`, so if the wanted lower
half has meanwhile gone back to what it was, it is taken for clean and the chip
stays stale although the call returns: `Reverts`.

This can happen to the output port only.  The upper half of a port is written
last, so a push that throws never leaves it ahead of `last`; the wanted
polarity never changes; and the wanted configuration only ever loses bits, so
once its lower half differs from that of `last` it does not go back.
-/
import ProgrammableLoad.Theory.Runs
import ProgrammableLoad.Gpio.Push

namespace Gpio

open Cpp Program

/-! ## The property -/

/-- If the call returned, the chip holds the wanted value of every port it
pushed. -/
def Coherent (c : Call) (w : Except Exception Unit) (t : Pca9535) : Prop :=
  w = .ok () → ∀ port ∈ c.pushed, t.bus.Holds port (t.ports port).value

/-- The call returns with the output's lower half as the last complete push left
it, while a later push has left another one on the chip. -/
def Call.Reverts (s : Pca9535) : Call → Prop
  | .configurePin _ _ => False
  | .setPinState pin asserted =>
      let value := outputValue (s.ports .output).value pin asserted
      ∃ l, (s.ports .output).last = some l ∧
        s.bus.regs Port.output.reg ≠ lower l ∧ lower value = lower l ∧
        (upper value = upper l ∨ s.bus.nextFails = false)

/-! ## Words below words -/

/-- Every bit of `v` is a bit of `w`. -/
def Below (v w : BitVec 16) : Prop := ∀ i, v.getLsbD i = true → w.getLsbD i = true

theorem below_clear {v w : BitVec 16} (h : Below v w) (u : BitVec 16) :
    Below (v &&& ~~~u) w := by
  intro i hi
  rw [BitVec.getLsbD_and, Bool.and_eq_true] at hi
  exact h i hi.1

theorem below_clear_self (v u : BitVec 16) : Below (v &&& ~~~u) v :=
  below_clear (fun _ h => h) u

/-- A lower half between two equal ones is equal to both. -/
theorem lower_eq_of_below {u v w : BitVec 16} (huv : Below u v) (hvw : Below v w)
    (h : lower u = lower w) : lower v = lower w := by
  apply BitVec.eq_of_getLsbD_eq
  intro i hi
  have huw : u.getLsbD i = w.getLsbD i := by
    rw [← getLsbD_lower u hi, ← getLsbD_lower w hi, h]
  rw [getLsbD_lower v hi, getLsbD_lower w hi]
  cases hv : v.getLsbD i with
  | true => exact (hvw i hv).symm
  | false =>
      cases hw : w.getLsbD i with
      | false => rfl
      | true =>
          rw [hw] at huw
          rw [huv i huw] at hv
          cases hv

/-! ## The invariant -/

/-- Between two calls.  Nothing is said of the lower half of the output. -/
structure Inv (s : Pca9535) : Prop where
  inversion_eq : s.ports .inversion = ⟨0, some 0⟩
  inversion_holds : s.bus.Holds .inversion 0
  cfg_last : ∃ l, (s.ports .cfg).last = some l ∧ Below (s.ports .cfg).value l
  cfg_lower : LowerKnown s .cfg
  cfg_upper : UpperKnown s .cfg
  output_upper : UpperKnown s .output

section Keep

variable {s : Pca9535}

/-- Clearing bits of the wanted configuration does not bring an old lower half
back. -/
theorem Inv.want_cfg (hs : Inv s) (u : BitVec 16) :
    Inv (s.want .cfg ((s.ports .cfg).value &&& ~~~u)) where
  inversion_eq := by simp [hs.inversion_eq]
  inversion_holds := hs.inversion_holds
  cfg_last := by
    obtain ⟨l, hlast, hbelow⟩ := hs.cfg_last
    exact ⟨l, by simpa using hlast, by simpa using below_clear hbelow u⟩
  cfg_lower := by
    obtain ⟨l', hlast', hbelow⟩ := hs.cfg_last
    intro l hlast
    rw [want_ports_self] at hlast
    have hl : l' = l := by
      rw [hlast'] at hlast
      exact Option.some.inj hlast
    subst hl
    rcases hs.cfg_lower l' hlast' with hsame | hne
    · exact Or.inl hsame
    · right
      intro heq
      rw [want_ports_self] at heq
      exact hne (lower_eq_of_below (below_clear_self _ u) hbelow heq)
  cfg_upper := by
    intro l hlast
    exact hs.cfg_upper l (by simpa using hlast)
  output_upper := by
    intro l hlast
    exact hs.output_upper l (by simpa using hlast)

theorem Inv.want_output (hs : Inv s) (value : BitVec 16) : Inv (s.want .output value) where
  inversion_eq := by simp [hs.inversion_eq]
  inversion_holds := hs.inversion_holds
  cfg_last := by simpa using hs.cfg_last
  cfg_lower := by
    intro l hlast
    simpa using hs.cfg_lower l (by simpa using hlast)
  cfg_upper := by
    intro l hlast
    exact hs.cfg_upper l (by simpa using hlast)
  output_upper := by
    intro l hlast
    exact hs.output_upper l (by simpa using hlast)

theorem Inv.push_cfg (hs : Inv s) (outcomes : List (Option BusError)) :
    Inv (s.push .cfg outcomes) := by
  have hholds := push_known hs.cfg_lower hs.cfg_upper outcomes
  have hknown := known_of_holds (s := s.push .cfg outcomes)
    (by rw [push_ports_self]) hholds
  exact
    { inversion_eq := by rw [push_ports_ne _ (by decide), hs.inversion_eq]
      inversion_holds := hs.inversion_holds.written_other (by decide) _
      cfg_last := ⟨(s.ports .cfg).value, by rw [push_ports_self],
        by rw [push_ports_self]; exact fun _ h => h⟩
      cfg_lower := hknown.1
      cfg_upper := hknown.2
      output_upper := by
        intro l hlast
        rw [push_ports_ne _ (by decide)] at hlast
        have hreg := (written_other (s.ports .cfg) s.bus.regs
          (show Port.output ≠ .cfg by decide)).2
        exact hreg.trans (hs.output_upper l hlast) }

theorem Inv.push_output (hs : Inv s) (outcomes : List (Option BusError)) :
    Inv (s.push .output outcomes) where
  inversion_eq := by rw [push_ports_ne _ (by decide), hs.inversion_eq]
  inversion_holds := hs.inversion_holds.written_other (by decide) _
  cfg_last := by
    rw [push_ports_ne _ (by decide)]
    exact hs.cfg_last
  cfg_lower := by
    intro l hlast
    rw [push_ports_ne _ (by decide)] at hlast ⊢
    have hreg := (written_other (s.ports .output) s.bus.regs
      (show Port.cfg ≠ .output by decide)).1
    exact (hs.cfg_lower l hlast).imp_left hreg.trans
  cfg_upper := by
    intro l hlast
    rw [push_ports_ne _ (by decide)] at hlast
    have hreg := (written_other (s.ports .output) s.bus.regs
      (show Port.cfg ≠ .output by decide)).2
    exact hreg.trans (hs.cfg_upper l hlast)
  output_upper := by
    intro l hlast
    rw [push_ports_self] at hlast
    cases hlast
    exact push_upper hs.output_upper outcomes

/-- The registers a failed push leaves. -/
def Failed (s : Pca9535) (port : Port) (regs : Register → Byte) : Prop :=
  regs = s.bus.regs ∨ (s.ports port).lowerDirty = true ∧
    regs = Function.update s.bus.regs port.reg (lower (s.ports port).value)

theorem Failed.other {port port' : Port} {regs : Register → Byte}
    (h : Failed s port regs) (hne : port' ≠ port) :
    regs port'.reg = s.bus.regs port'.reg ∧
      regs (port'.reg + 1) = s.bus.regs (port'.reg + 1) := by
  rcases h with rfl | ⟨_, rfl⟩
  · exact ⟨rfl, rfl⟩
  · cases port <;> cases port' <;> simp_all [Port.reg]

theorem Inv.failed {port : Port} {regs : Register → Byte}
    (hs : Inv s) (hport : port ≠ .inversion) (h : Failed s port regs)
    (outcomes : List (Option BusError)) : Inv { s with bus := ⟨regs, outcomes⟩ } := by
  have hinv := h.other hport.symm
  refine ⟨hs.inversion_eq, ⟨hinv.1.trans hs.inversion_holds.lower,
    hinv.2.trans hs.inversion_holds.upper⟩, hs.cfg_last, ?_, ?_, ?_⟩
  · by_cases hp : port = .cfg
    · subst hp
      exact (known_of_failed h).1 hs.cfg_lower
    · intro l hlast
      exact (hs.cfg_lower l hlast).imp_left (h.other (Ne.symm hp)).1.trans
  · by_cases hp : port = .cfg
    · subst hp
      exact (known_of_failed h).2 hs.cfg_upper
    · intro l hlast
      exact (h.other (Ne.symm hp)).2.trans (hs.cfg_upper l hlast)
  · by_cases hp : port = .output
    · subst hp
      exact (known_of_failed h).2 hs.output_upper
    · intro l hlast
      exact (h.other (Ne.symm hp)).2.trans (hs.output_upper l hlast)

/-- The polarity has nothing to push. -/
theorem Inv.updatePinConfig_run (hs : Inv s) :
    updatePinConfig.run s = (updatePartialRegister .cfg).run s := by
  have hl : (s.ports .inversion).lowerDirty = false := by
    rw [hs.inversion_eq]
    rfl
  have hu : (s.ports .inversion).upperDirty = false := by
    rw [hs.inversion_eq]
    rfl
  have hsame : s.push .inversion s.bus.outcomes = s := by
    have hports : Function.update s.ports .inversion ⟨(s.ports .inversion).value,
        some (s.ports .inversion).value⟩ = s.ports := by
      rw [hs.inversion_eq, ← hs.inversion_eq, Function.update_eq_self]
    simp only [Pca9535.push, hports, written_clean _ _ hl hu]
  rw [updatePinConfig, EStateM.run_bind, push_run_clean hl hu, hsame]

end Keep

/-! ## One call -/

section Step

variable {s : Pca9535}

theorem configurePin_coherent (hs : Inv s) (pin : Fin 16) (mode : PinMode) :
    ∃ w t, (catching (Call.configurePin pin mode).exec).run s = .ok w t ∧ Inv t ∧
      Coherent (.configurePin pin mode) w t := by
  have hu := hs.want_cfg (bit pin)
  have hrun := (configurePin_run s pin mode).trans hu.updatePinConfig_run
  rcases updatePartialRegister_cases
    (s.want .cfg ((s.ports .cfg).value &&& ~~~bit pin)) .cfg with
    ⟨outcomes, hpush⟩ | ⟨e, regs, outcomes, hpush, hfailed⟩
  · refine ⟨_, _, catching_run_ok (hrun.trans hpush), hu.push_cfg outcomes, ?_⟩
    intro _ port hport
    have ht := hu.push_cfg outcomes
    have hcases : port = .inversion ∨ port = .cfg := by simpa [Call.pushed] using hport
    rcases hcases with rfl | rfl
    · rw [ht.inversion_eq]
      exact ht.inversion_holds
    · rw [push_ports_self]
      exact push_known hu.cfg_lower hu.cfg_upper outcomes
  · refine ⟨_, _, catching_run_thrown (hrun.trans hpush),
      hu.failed (show Port.cfg ≠ .inversion by decide) hfailed outcomes, ?_⟩
    intro hw
    cases hw

/-- Where the output's lower half is taken for clean, the call is coherent if
and only if that half of the chip is the one of the last complete push. -/
theorem coherent_push_output_iff (hs : Inv s) {l : BitVec 16} {pin : Fin 16}
    {asserted : Bool} (hlast : (s.ports .output).last = some l)
    (hlower : lower l = lower (s.ports .output).value)
    (outcomes : List (Option BusError)) :
    Coherent (.setPinState pin asserted) (.ok ()) (s.push .output outcomes) ↔
      s.bus.regs Port.output.reg = lower l := by
  have hclean := lowerDirty_eq_false_iff.mpr ⟨l, hlast, hlower⟩
  have hreg : (s.push .output outcomes).bus.regs Port.output.reg
      = s.bus.regs Port.output.reg := by
    show (s.ports .output).written .output s.bus.regs Port.output.reg = _
    rw [written_reg, hclean]
    rfl
  constructor
  · intro h
    have hholds := (h rfl .output (by simp [Call.pushed])).lower
    rw [push_ports_self, hreg] at hholds
    exact hholds.trans hlower.symm
  · intro h _ port hport
    obtain rfl : port = .output := by simpa [Call.pushed] using hport
    rw [push_ports_self]
    exact ⟨hreg.trans (h.trans hlower), push_upper hs.output_upper outcomes⟩

/-- A lower half that is written is up to date afterwards. -/
theorem updateOutputPort_coherent_of_dirty (pin : Fin 16) (asserted : Bool) (hs : Inv s)
    (hl : (s.ports .output).lowerDirty = true) :
    ∃ w t, (catching updateOutputPort).run s = .ok w t ∧ Inv t ∧
      Coherent (.setPinState pin asserted) w t := by
  rcases updatePartialRegister_cases s .output with
    ⟨outcomes, hpush⟩ | ⟨e, regs, outcomes, hpush, hfailed⟩
  · refine ⟨_, _, catching_run_ok hpush, hs.push_output outcomes, ?_⟩
    intro _ port hport
    obtain rfl : port = .output := by simpa [Call.pushed] using hport
    rw [push_ports_self]
    refine ⟨?_, push_upper hs.output_upper outcomes⟩
    show (s.ports .output).written .output s.bus.regs Port.output.reg = _
    rw [written_reg, hl]
    rfl
  · refine ⟨_, _, catching_run_thrown hpush,
      hs.failed (show Port.output ≠ .inversion by decide) hfailed outcomes, ?_⟩
    intro hw
    cases hw

/-- A lower half that is taken for clean is stale afterwards if it was stale
before and the call returns. -/
theorem updateOutputPort_coherent_of_clean (pin : Fin 16) (asserted : Bool) (hs : Inv s)
    {l : BitVec 16} (hlast : (s.ports .output).last = some l)
    (hlower : lower l = lower (s.ports .output).value) :
    ∃ w t, (catching updateOutputPort).run s = .ok w t ∧ Inv t ∧
      (Coherent (.setPinState pin asserted) w t ↔
        ¬ (s.bus.regs Port.output.reg ≠ lower l ∧
          (upper (s.ports .output).value = upper l ∨ s.bus.nextFails = false))) := by
  have hl := lowerDirty_eq_false_iff.mpr ⟨l, hlast, hlower⟩
  have hreturned : ∀ outcomes,
      (upper (s.ports .output).value = upper l ∨ s.bus.nextFails = false) →
      updateOutputPort.run s = .ok () (s.push .output outcomes) →
      ∃ w t, (catching updateOutputPort).run s = .ok w t ∧ Inv t ∧
        (Coherent (.setPinState pin asserted) w t ↔
          ¬ (s.bus.regs Port.output.reg ≠ lower l ∧
            (upper (s.ports .output).value = upper l ∨ s.bus.nextFails = false))) := by
    intro outcomes hreturns hpush
    refine ⟨_, _, catching_run_ok hpush, hs.push_output outcomes, ?_⟩
    rw [and_iff_left hreturns, not_ne_iff]
    exact coherent_push_output_iff hs hlast hlower outcomes
  cases hup : (s.ports .output).upperDirty with
  | false =>
      obtain ⟨l', hl', hupper⟩ := upperDirty_eq_false_iff.mp hup
      rw [hlast] at hl'
      cases hl'
      exact hreturned _ (Or.inl hupper.symm) (push_run_clean hl hup)
  | true =>
      cases hf : s.bus.nextFails with
      | false =>
          rw [hf] at hreturned
          exact hreturned _ (Or.inr rfl) (push_run_upper_stored hl hup hf)
      | true =>
          have hne : upper (s.ports .output).value ≠ upper l := by
            intro heq
            have hclean := upperDirty_eq_false_iff.mpr ⟨l, hlast, heq.symm⟩
            rw [hup] at hclean
            cases hclean
          obtain ⟨e, hpush⟩ := push_run_first_failed (Or.inr hup) hf
          refine ⟨_, _, catching_run_thrown hpush,
            hs.failed (show Port.output ≠ .inversion by decide) (Or.inl rfl) _, iff_of_true ?_ ?_⟩
          · intro hw
            cases hw
          · rintro ⟨_, heq | hf'⟩
            · exact hne heq
            · cases hf'

theorem setPinState_coherent (hs : Inv s) (pin : Fin 16) (asserted : Bool) :
    ∃ w t, (catching (Call.setPinState pin asserted).exec).run s = .ok w t ∧ Inv t ∧
      (Coherent (.setPinState pin asserted) w t ↔
        ¬ (Call.setPinState pin asserted).Reverts s) := by
  have hu := hs.want_output (outputValue (s.ports .output).value pin asserted)
  have hrun : (catching (Call.setPinState pin asserted).exec).run s = _ :=
    catching_run_congr (setPinState_run s pin asserted)
  rw [hrun]
  by_cases hrev : ∃ l, (s.ports .output).last = some l ∧
      lower (outputValue (s.ports .output).value pin asserted) = lower l
  · obtain ⟨l, hlast, hlower⟩ := hrev
    obtain ⟨w, t, hpush, ht, hcoh⟩ := updateOutputPort_coherent_of_clean
      pin asserted hu (by simpa using hlast)
      (by simpa using hlower.symm)
    refine ⟨w, t, hpush, ht, hcoh.trans (not_congr ?_)⟩
    simp [Call.Reverts, hlast, hlower]
  · obtain ⟨w, t, hpush, ht, hcoh⟩ := updateOutputPort_coherent_of_dirty
      pin asserted hu (by
        rw [← Bool.not_eq_false, lowerDirty_eq_false_iff]
        rintro ⟨l, hlast, hlower⟩
        exact hrev ⟨l, by simpa using hlast, by simpa using hlower.symm⟩)
    refine ⟨w, t, hpush, ht, iff_of_true hcoh ?_⟩
    rintro ⟨l, hlast, _, hlower, _⟩
    exact hrev ⟨l, hlast, hlower⟩

theorem exec_coherent (hs : Inv s) (c : Call) :
    ∃ w t, (catching c.exec).run s = .ok w t ∧ Inv t ∧ (Coherent c w t ↔ ¬ c.Reverts s) := by
  cases c with
  | configurePin pin mode =>
      obtain ⟨w, t, hrun, ht, hcoh⟩ := configurePin_coherent hs pin mode
      exact ⟨w, t, hrun, ht, iff_of_true hcoh (fun h => h)⟩
  | setPinState pin asserted => exact setPinState_coherent hs pin asserted

end Step

/-! ## Runs -/

/-- A push that returns has stored what was wanted. -/
theorem eq_push_of_run_ok {s t : Pca9535} {port : Port}
    (h : (updatePartialRegister port).run s = .ok () t) :
    ∃ outcomes, t = s.push port outcomes := by
  rcases updatePartialRegister_cases s port with
    ⟨outcomes, hpush⟩ | ⟨e, regs, outcomes, hpush, _⟩
  · rw [hpush] at h
    cases h
    exact ⟨outcomes, rfl⟩
  · rw [hpush] at h
    cases h

theorem coherent_of_run_ok {s u : Pca9535} {c : Call} {w : Except Exception Unit} (hs : Inv s)
    (h : (catching c.exec).run s = .ok w u) : Inv u ∧ (Coherent c w u ↔ ¬ c.Reverts s) := by
  obtain ⟨w', t, hrun, ht, hcoh⟩ := exec_coherent hs c
  rw [hrun] at h
  cases h
  exact ⟨ht, hcoh⟩

/-- A successful construction establishes the invariant. -/
theorem inv_of_construct {bus : Bus} {s : Pca9535}
    (h : construct.run (allocated bus) = .ok () s) : Inv s := by
  have hset : construct.run (allocated bus) = updatePinConfig.run
      (((allocated bus).want .cfg 0xffff |>.want .inversion 0).want .output 0) := rfl
  rw [hset, updatePinConfig] at h
  obtain ⟨_, u, hinv, hcfg⟩ := run_bind_eq_ok.mp h
  generalize hs : ((allocated bus).want .cfg 0xffff |>.want .inversion 0).want .output 0
    = s₀ at hinv
  have hports : s₀.ports = fun
      | .cfg => ⟨0xffff, none⟩
      | _ => ⟨0, none⟩ := by
    subst hs
    funext port
    cases port <;> rfl
  obtain ⟨outcomes, rfl⟩ := eq_push_of_run_ok hinv
  obtain ⟨outcomes', rfl⟩ := eq_push_of_run_ok hcfg
  have hcfg₀ : (s₀.push .inversion outcomes).ports .cfg = ⟨0xffff, none⟩ := by
    rw [push_ports_ne _ (by decide), hports]
  have hknown := known_of_holds (s := (s₀.push .inversion outcomes).push .cfg outcomes')
    (by rw [push_ports_self]) (push_holds outcomes' (by simp [hcfg₀]))
  have hinversion : (s₀.push .inversion outcomes).bus.Holds .inversion
      (s₀.ports .inversion).value := push_holds outcomes (by simp [hports])
  exact
    { inversion_eq := by
        rw [push_ports_ne _ (by decide), push_ports_self, hports]
      inversion_holds := by
        rw [hports] at hinversion
        exact hinversion.written_other (by decide) _
      cfg_last := by
        rw [push_ports_self]
        exact ⟨_, rfl, fun _ hi => hi⟩
      cfg_lower := hknown.1
      cfg_upper := hknown.2
      output_upper := by
        intro l hlast
        rw [push_ports_ne _ (by decide), push_ports_ne _ (by decide), hports] at hlast
        cases hlast }

/-- In a run of calls, any of whose register writes may fail, every call that
returns leaves the chip as wanted if and only if no call reverts the output's
lower half to what the chip no longer holds. -/
theorem coherent_iff_not_reverts (bus : Bus) (s : Pca9535)
    (h : construct.run (allocated bus) = .ok () s) (calls : List Call) :
    Along (fun c : Call => catching c.exec) (fun _ c w t => Coherent c w t) s calls ↔
      Along (fun c : Call => catching c.exec) (fun s c _ _ => ¬ c.Reverts s) s calls := by
  refine along_congr (I := Inv) ?_ ?_ (inv_of_construct h)
  · intro s c w u hs hrun
    exact (coherent_of_run_ok hs hrun).1
  · intro s c w u hs hrun
    exact (coherent_of_run_ok hs hrun).2

/-- The fifth write fails: the first one after the constructor. -/
def failingOnce : List (Option BusError) := [none, none, none, none, some .writeRegister]

/-- The first push fails, and the next two go through. -/
theorem coherent_after_failure :
    ∃ s, construct.run (allocated ⟨fun _ => 0, failingOnce⟩) = .ok () s ∧
      Along (fun c : Call => catching c.exec) (fun _ c w t => Coherent c w t) s
        [.setPinState 7 true, .setPinState 7 true, .setPinState 12 true] := by
  refine ⟨_, rfl, (coherent_iff_not_reverts ⟨fun _ => 0, failingOnce⟩ _ rfl _).mpr
    ⟨_, _, rfl, ?_, _, _, rfl, ?_, _, _, rfl, ?_, trivial⟩⟩
  · rintro ⟨l, hl, -⟩
    cases hl
  · rintro ⟨l, hl, -⟩
    cases hl
  · rintro ⟨l, hl, hne, -⟩
    cases hl
    exact hne rfl

/-- Outcomes that tear a push apart: four writes of the constructor and two of
the first push succeed, the next fails, and of the two after it the second. -/
def tearing : List (Option BusError) :=
  [none, none, none, none, none, none, some .writeRegister, none, some .writeRegister]

theorem not_coherent_after_tearing :
    ∃ s ws u t, construct.run (allocated ⟨fun _ => 0, tearing⟩) = .ok () s ∧
      Steps (fun c : Call => catching c.exec) s
        [.setPinState 0 false, .setPinState 0 true, .setPinState 8 true] ws u ∧
      (catching (Call.setPinState 0 false).exec).run u = .ok (.ok ()) t ∧
      ¬ Coherent (.setPinState 0 false) (.ok ()) t := by
  refine ⟨_, _, _, _, rfl, .cons rfl (.cons rfl (.cons rfl (.nil _))), rfl, ?_⟩
  intro h
  have hlower := (h rfl .output List.mem_cons_self).lower
  revert hlower
  decide

end Gpio
