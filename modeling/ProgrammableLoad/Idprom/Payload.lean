/-
# `Idprom.Payload` — both loops over the payload

The second loop looks for the required drivers.  Where the first one has
returned, all keys can be read, and if they differ there is one list of
drivers at most: the loop comes down to that list, in whatever place it is.

So the payload is accepted if its entries can be taken and the drivers can be
instantiated, `parseItem_returns_iff`, and what can go wrong in it is what can
go wrong in these two, `definedFrom_parseItem_iff`.
-/
import ProgrammableLoad.Idprom.Entries

namespace Idprom

open Cpp Cbor Cbor.Util Program LastWriter

section Drivers

variable {ω : Type} {env : Env ω} {pair : Item × Item} {pairs pairs' : List (Item × Item)} {w : ω}

/-! ## The second loop -/

theorem readDrivers_run_of_hasKey (h : HasKey .requiredDrivers pair) :
    (readDrivers env pair).run w = (requireDrivers env pair.2).run w := by
  obtain ⟨key, value⟩ := pair
  cases h
  rfl

theorem readDrivers_run_of_not_hasKey (haccepted : Accepted env pair)
    (h : ¬ HasKey .requiredDrivers pair) : (readDrivers env pair).run w = .ok () w := by
  obtain ⟨key, value⟩ := pair
  obtain ⟨k, rfl⟩ := haccepted.key_eq
  have hk : k ≠ IdpromKey.requiredDrivers.value := by
    rintro rfl
    exact h rfl
  show EStateM.run (if k ≠ IdpromKey.requiredDrivers.value then pure () else _) w = _
  rw [if_pos hk]
  rfl

/-- Without required drivers there is nothing to do. -/
theorem forM_readDrivers_run_of_none (haccepted : ∀ p ∈ pairs, Accepted env p)
    (h : ∀ p ∈ pairs, ¬ HasKey .requiredDrivers p) :
    (forM pairs (readDrivers env)).run w = .ok () w :=
  forM_run_of_skipped (fun p hp _ => readDrivers_run_of_not_hasKey (haccepted p hp) (h p hp)) w

/-- With distinct keys there is one list of required drivers. -/
theorem forM_readDrivers_run_of_mem (haccepted : ∀ p ∈ pairs, Accepted env p)
    (hnodup : (pairs.map Prod.fst).Nodup) (hmem : pair ∈ pairs)
    (hkey : HasKey .requiredDrivers pair) :
    (forM pairs (readDrivers env)).run w = (requireDrivers env pair.2).run w := by
  have hskip : ∀ p ∈ pairs, p ≠ pair → ∀ w, (readDrivers env p).run w = .ok () w := by
    intro p hp hne w
    refine readDrivers_run_of_not_hasKey (haccepted p hp) ?_
    intro hkey'
    exact hne (List.inj_on_of_nodup_map hnodup hp hmem (hkey'.trans hkey.symm))
  obtain ⟨before, after, rfl⟩ := List.append_of_mem hmem
  have hdistinct := (List.Nodup.of_map _ hnodup)
  rw [List.nodup_middle, List.nodup_cons, List.mem_append, not_or] at hdistinct
  rw [← readDrivers_run_of_hasKey hkey]
  refine forM_run_eq_of_skipped ?_ ?_ w
  · intro b hb
    refine hskip b (by simp [hb]) ?_
    rintro rfl
    exact hdistinct.1.1 hb
  · intro b hb
    refine hskip b (by simp [hb]) ?_
    rintro rfl
    exact hdistinct.1.2 hb

/-- The place of the list does not matter. -/
theorem forM_readDrivers_run_perm (haccepted : ∀ p ∈ pairs, Accepted env p)
    (hnodup : (pairs.map Prod.fst).Nodup) (hperm : pairs'.Perm pairs) :
    (forM pairs' (readDrivers env)).run w = (forM pairs (readDrivers env)).run w := by
  have haccepted' : ∀ p ∈ pairs', Accepted env p := fun p hp => haccepted p (hperm.subset hp)
  have hnodup' : (pairs'.map Prod.fst).Nodup := (hperm.map Prod.fst).nodup_iff.mpr hnodup
  by_cases h : ∃ p ∈ pairs, HasKey .requiredDrivers p
  · obtain ⟨p, hp, hkey⟩ := h
    rw [forM_readDrivers_run_of_mem haccepted hnodup hp hkey,
      forM_readDrivers_run_of_mem haccepted' hnodup' (hperm.symm.subset hp) hkey]
  · have hnone : ∀ p ∈ pairs, ¬ HasKey .requiredDrivers p := fun p hp hkey => h ⟨p, hp, hkey⟩
    rw [forM_readDrivers_run_of_none haccepted hnone,
      forM_readDrivers_run_of_none haccepted' fun p hp => hnone p (hperm.subset hp)]

end Drivers

/-! ## The payload -/

section Payload

variable {ω : Type} {env : Env ω} {definite : Bool} {pairs : List (Item × Item)}
  {s t : Probulator ω} {w : ω}

theorem onWorld_run_eq_ok_iff {m : EStateM Fault ω Unit} :
    (onWorld m).run s = .ok () t ↔
      ∃ w, m.run s.world = .ok () w ∧ t = { s with world := w } := by
  unfold onWorld
  simp only [EStateM.run]
  cases m s.world with
  | ok a w =>
      constructor
      · rintro ⟨⟩
        exact ⟨w, rfl, rfl⟩
      · rintro ⟨_, ⟨⟩, rfl⟩
        rfl
  | error e w =>
      refine iff_of_false nofun ?_
      rintro ⟨_, h, _⟩
      cases h

theorem definedFrom_onWorld_iff {m : EStateM Fault ω Unit} :
    DefinedFrom (onWorld m) s ↔ DefinedFrom m s.world := by
  unfold onWorld DefinedFrom
  simp only [EStateM.run]
  cases m s.world with
  | ok a w => exact iff_of_true nofun nofun
  | error e w =>
      constructor
      · rintro h op _ ⟨⟩
        exact h op _ rfl
      · rintro h op _ ⟨⟩
        exact h op _ rfl

theorem parseItem_map_run : (parseItem env (.map definite pairs)).run s
    = (do forM pairs (readEntry env); onWorld (forM pairs (readDrivers env))).run s := rfl

theorem parseItem_run_eq_ok_iff : (parseItem env (.map definite pairs)).run s = .ok () t ↔
    ∃ u w, (forM pairs (readEntry env)).run s = .ok () u ∧
      (forM pairs (readDrivers env)).run s.world = .ok () w ∧ t = { u with world := w } := by
  rw [parseItem_map_run, run_bind_eq_ok]
  constructor
  · rintro ⟨_, u, hu, ht⟩
    obtain ⟨w, hw, rfl⟩ := onWorld_run_eq_ok_iff.mp ht
    rw [forM_readEntry_world hu] at hw
    exact ⟨u, w, hu, hw, rfl⟩
  · rintro ⟨u, w, hu, hw, rfl⟩
    rw [← forM_readEntry_world hu] at hw
    exact ⟨(), u, hu, onWorld_run_eq_ok_iff.mpr ⟨w, hw, rfl⟩⟩

/-- A payload is accepted if its entries and its drivers are. -/
theorem parseItem_returns_iff (definite : Bool) :
    (∃ t, (parseItem env (.map definite pairs)).run s = .ok () t) ↔
    Taken env s.hwSerial pairs ∧ ∃ w, (forM pairs (readDrivers env)).run s.world = .ok () w := by
  rw [← forM_readEntry_returns_iff]
  constructor
  · rintro ⟨t, ht⟩
    obtain ⟨u, w, hu, hw, _⟩ := parseItem_run_eq_ok_iff.mp ht
    exact ⟨⟨u, hu⟩, w, hw⟩
  · rintro ⟨⟨u, hu⟩, w, hw⟩
    exact ⟨_, parseItem_run_eq_ok_iff.mpr ⟨u, w, hu, hw, rfl⟩⟩

theorem parseItem_member (h : (parseItem env (.map definite pairs)).run s = .ok () t)
    (m : Member) : t.member m = ((lastOf m (puts env pairs)).map some).getD (s.member m) := by
  obtain ⟨u, w, hu, _, rfl⟩ := parseItem_run_eq_ok_iff.mp h
  rw [← forM_readEntry_member hu m]
  cases m <;> rfl

theorem definedFrom_parseItem_iff : DefinedFrom (parseItem env (.map definite pairs)) s ↔
    DefinedFrom (forM pairs (readEntry env)) s ∧
      (Taken env s.hwSerial pairs → DefinedFrom (forM pairs (readDrivers env)) s.world) := by
  have hrun : DefinedFrom (parseItem env (.map definite pairs)) s ↔
      DefinedFrom (do forM pairs (readEntry env); onWorld (forM pairs (readDrivers env))) s :=
    Iff.rfl
  rw [hrun, definedFrom_bind_iff]
  refine and_congr_right fun _ => ?_
  rw [← forM_readEntry_returns_iff]
  constructor
  · rintro h ⟨t, ht⟩
    have hworld := definedFrom_onWorld_iff.mp (h () t ht)
    rwa [forM_readEntry_world ht] at hworld
  · intro h _ t ht
    rw [definedFrom_onWorld_iff, forM_readEntry_world ht]
    exact h ⟨t, ht⟩

end Payload

end Idprom
