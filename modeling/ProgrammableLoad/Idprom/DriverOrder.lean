/-
# `Idprom.DriverOrder` — the required drivers, in the order of the payload

The drivers are constructed in the order in which the payload lists them.  The
LED controller's constructor uses the shared IO expander, which the display's
constructor creates, so it depends on the payload whether it is there.

With configurations that are accepted and transfers that succeed this is the
only thing that can go wrong: `registers_iff`, for a list in its order and for
all orders of it.
-/
import ProgrammableLoad.Idprom.DriverList

namespace Idprom

open Cpp Cbor Cbor.Util Program

/-! ## Requests -/

/-- A driver, with the configuration it is given. -/
abbrev Request := DriverInfo × Item

/-- The value of the key `RequiredDrivers`. -/
def driverMap (definite : Bool) (requests : List Request) : Item :=
  .map definite (requests.map fun r => (.bytes r.1.id, r.2))

/-- The driver accepts its configuration. -/
def Configured : Request → Prop
  | (.ft6336, config) =>
      config.isaMap = true ∧ ∃ c, Touch.readConfig config = .ok c ∧ c.irqEnabled = false
  | (.nt35510, _) => True
  | (.pca9955, config) => config.isaMap = true ∧ ∃ c, Led.Pca9955.readConfig config = .ok c

/-- The driver that a request comes to. -/
def driverOf : Request → Option Driver
  | (.ft6336, config) => (Touch.readConfig config).toOption.map .ft6336
  | (.nt35510, _) => some (.direct Buttons.Direct.initial)
  | (.pca9955, config) => (Led.Pca9955.readConfig config).toOption.map .pca9955

/-- Every LED controller comes when there is an expander: from the start, or
from a display before it. -/
def CreatedBefore (created : Prop) (requests : List Request) : Prop :=
  ∀ before r after, requests = before ++ r :: after → r.1 = .pca9955 →
    created ∨ ∃ q ∈ before, q.1 = .nt35510

theorem createdBefore_nil (created : Prop) : CreatedBefore created [] := by
  intro before r after h
  simp at h

theorem createdBefore_cons {created : Prop} {r : Request} {requests : List Request} :
    CreatedBefore created (r :: requests) ↔
      (r.1 = .pca9955 → created) ∧ CreatedBefore (created ∨ r.1 = .nt35510) requests := by
  refine forall_split_cons.trans (and_congr ?_ ?_)
  · simp
  · simp only [CreatedBefore, List.exists_mem_cons_iff, or_assoc]

section Requests

variable {text : List Byte → Except Fault (List Byte)} {device : Device} {r : Request}
  {requests : List Request} {s : FrontPanel}

/-! ## One constructor -/

/-- What a constructor that returns leaves behind. -/
structure Constructs (r : Request) (s t : FrontPanel) : Prop where
  quiet : t.Quiet
  created : t.Created ↔ s.Created ∨ r.1 = .nt35510
  drivers : t.drivers = s.drivers ++ (driverOf r).toList

/-- A driver that is registered once everything else is set up. -/
theorem constructs_registerDriver {u : FrontPanel} {driver : Driver} (hquiet : u.Quiet)
    (hcreated : u.Created ↔ s.Created ∨ r.1 = .nt35510) (hdrivers : u.drivers = s.drivers)
    (hdriver : driverOf r = some driver) :
    ∃ t, (registerDriver driver).run u = .ok () t ∧ Constructs r s t := by
  refine ⟨{ u with drivers := u.drivers ++ [driver] }, rfl, ?_⟩
  constructor
  · exact ⟨hquiet.outcomes, hquiet.chip, hquiet.expander⟩
  · exact hcreated
  · rw [hdriver, ← hdrivers]
    rfl

theorem constructFt6336_run {config : Item} (hs : s.Quiet) (h : Configured (.ft6336, config)) :
    ∃ t, (constructFt6336 config).run s = .ok () t ∧ Constructs (.ft6336, config) s t := by
  obtain ⟨hmap, c, hc, hirq⟩ := h
  have hdriver : driverOf (.ft6336, config) = some (.ft6336 c) := by
    rw [driverOf, hc]
    rfl
  obtain ⟨t, ht, hconstructs⟩ := constructs_registerDriver hs (by simp) rfl hdriver
  refine ⟨t, ?_, hconstructs⟩
  rw [constructFt6336, if_neg (by simp [hmap])]
  refine run_ofExcept_bind_eq_ok.mpr ⟨c, hc, ?_⟩
  rw [run_bind_of_ok (transfer_run hs), run_bind_of_ok (transfer_run hs), hirq]
  exact ht

/-- The display's constructor, once there is an expander. -/
theorem setUpDisplay_run (config : Item) {u : FrontPanel} (hu : u.Quiet) (hc : u.Created)
    (hdrivers : u.drivers = s.drivers) :
    ∃ t, EStateM.run (do
      openDisplay
      initGpio Buttons.Direct.initial
      registerDriver (.direct Buttons.Direct.initial)) u = .ok () t ∧
        Constructs (.nt35510, config) s t := by
  obtain ⟨v, hv, hvquiet, hvcreated, hvdrivers⟩ := quietly_openDisplay u hu hc
  obtain ⟨w, hw, hwquiet, hwcreated, hwdrivers⟩ :=
    quietly_initGpio Buttons.Direct.initial v hvquiet hvcreated
  obtain ⟨t, ht, hconstructs⟩ := constructs_registerDriver (r := (.nt35510, config)) hwquiet
    (iff_of_true hwcreated (.inr rfl)) (hwdrivers.trans (hvdrivers.trans hdrivers)) rfl
  exact ⟨t, (run_bind_of_ok hv).trans ((run_bind_of_ok hw).trans ht), hconstructs⟩

theorem constructNt35510_run (config : Item) (hs : s.Quiet) :
    ∃ t, constructNt35510.run s = .ok () t ∧ Constructs (.nt35510, config) s t := by
  by_cases hnone : s.gFrontIoExpander.isNone = true
  · obtain ⟨e, hrun, he⟩ := createExpander_run hs
    have hquiet : FrontPanel.Quiet { s with gFrontIoExpander := some e } := by
      refine ⟨hs.outcomes, hs.chip, ?_⟩
      intro e' he'
      cases he'
      exact he
    obtain ⟨t, ht, hconstructs⟩ := setUpDisplay_run (s := s) config hquiet rfl rfl
    refine ⟨t, ?_, hconstructs⟩
    rw [constructNt35510, run_get_bind, run_ite, if_pos hnone, run_bind_of_ok hrun]
    exact ht
  · have hcreated : s.Created := by
      rwa [FrontPanel.Created, Option.isSome_iff_ne_none, ne_eq, ← Option.isNone_iff_eq_none]
    obtain ⟨t, ht, hconstructs⟩ := setUpDisplay_run config hs hcreated rfl
    refine ⟨t, ?_, hconstructs⟩
    rw [constructNt35510, run_get_bind, run_ite, if_neg hnone]
    exact ht

theorem constructPca9955_run {config : Item} (hs : s.Quiet) (hc : s.Created)
    (h : Configured (.pca9955, config)) :
    ∃ t, (constructPca9955 config).run s = .ok () t ∧ Constructs (.pca9955, config) s t := by
  obtain ⟨hmap, c, hread⟩ := h
  have hdriver : driverOf (.pca9955, config) = some (.pca9955 c) := by
    rw [driverOf, hread]
    rfl
  obtain ⟨u, hu, huquiet, hucreated, hudrivers⟩ :=
    quietly_configurePin 7 Gpio.PinMode.output s hs hc
  obtain ⟨v, hv, hvquiet, hvcreated, hvdrivers⟩ := quietly_setPinState 7 false u huquiet hucreated
  obtain ⟨w, hw, hwquiet, hwcreated, hwdrivers⟩ :=
    Quietly.forM (l := ledSetup) (fun _ _ => quietly_transfer) v hvquiet hvcreated
  obtain ⟨t, ht, hconstructs⟩ := constructs_registerDriver hwquiet (iff_of_true hwcreated (.inl hc))
    (hwdrivers.trans (hvdrivers.trans hudrivers)) hdriver
  refine ⟨t, ?_, hconstructs⟩
  rw [constructPca9955, run_bind_of_ok hu, run_bind_of_ok hv, if_neg (by simp [hmap])]
  exact run_ofExcept_bind_eq_ok.mpr ⟨c, hread, (run_bind_of_ok hw).trans ht⟩

/-- Without the expander the LED controller's constructor dereferences a null
pointer. -/
theorem constructPca9955_run_of_not_created {config : Item} (h : ¬ s.Created) :
    (constructPca9955 config).run s = .error (.undefined "std::shared_ptr::operator->") s := by
  have hnone : s.gFrontIoExpander = none := Option.not_isSome_iff_eq_none.mp h
  refine run_bind_of_error ?_
  simp only [onExpander, EStateM.run, hnone]

/-- A constructor returns unless it needs the expander and there is none. -/
theorem construct_run (hs : s.Quiet) (h : Configured r) (hready : r.1 = .pca9955 → s.Created) :
    ∃ t, (construct r.1 r.2).run s = .ok () t ∧ Constructs r s t := by
  obtain ⟨info, config⟩ := r
  cases info with
  | ft6336 => exact constructFt6336_run hs h
  | nt35510 => exact constructNt35510_run config hs
  | pca9955 => exact constructPca9955_run hs (hready rfl) h

/-! ## The loop -/

theorem findDriver_id (info : DriverInfo) : findDriver (.bytes info.id) = .ok info := by
  cases info <;> rfl

/-- The turn of the loop for a request. -/
def serve (text : List Byte → Except Fault (List Byte)) (device : Device) (r : Request) :
    EStateM Fault FrontPanel Unit :=
  instantiate (panelEnv text device) (.bytes r.1.id, r.2)

theorem serve_run_of_ok {t : FrontPanel} (h : (construct r.1 r.2).run s = .ok () t) :
    (serve text device r).run s = .ok () t := by
  refine run_ofExcept_bind_eq_ok.mpr ⟨r.1, findDriver_id r.1, ?_⟩
  exact (run_bind_of_ok (catching_run_ok h)).trans rfl

variable (text device) in
theorem serve_run_of_undefined {op : String} {t : FrontPanel}
    (h : (construct r.1 r.2).run s = .error (.undefined op) t) :
    (serve text device r).run s = .error (.undefined op) t := by
  have hfind : findDriver (.bytes r.1.id) = .ok r.1 := findDriver_id r.1
  rw [serve, instantiate, hfind]
  show EStateM.run (catching (construct r.1 r.2) >>= _) s = _
  exact run_bind_of_error (catching_run_undefined h)

theorem requireDrivers_driverMap (definite : Bool) :
    requireDrivers (panelEnv text device) (driverMap definite requests)
      = forM requests (serve text device) := by
  show forM (requests.map fun r => (Item.bytes r.1.id, r.2)) (instantiate _) = _
  exact List.forM_map

variable (text device) in
theorem serve_run (hs : s.Quiet) (h : Configured r) (hready : r.1 = .pca9955 → s.Created) :
    ∃ t, (serve text device r).run s = .ok () t ∧ Constructs r s t := by
  obtain ⟨t, ht, hconstructs⟩ := construct_run hs h hready
  exact ⟨t, serve_run_of_ok ht, hconstructs⟩

variable (text device) in
/-- If every LED controller comes when there is an expander, all drivers of the
list are registered. -/
theorem forM_serve_run (hs : s.Quiet) (h : ∀ r ∈ requests, Configured r)
    (hcreated : CreatedBefore s.Created requests) :
    ∃ t, (forM requests (serve text device)).run s = .ok () t ∧
      t.drivers = s.drivers ++ requests.filterMap driverOf := by
  induction requests generalizing s with
  | nil => exact ⟨s, rfl, (List.append_nil _).symm⟩
  | cons r requests ih =>
      obtain ⟨hconfigured, hrest⟩ := List.forall_mem_cons.mp h
      obtain ⟨hready, hcreated⟩ := createdBefore_cons.mp hcreated
      obtain ⟨t, ht, hconstructs⟩ := serve_run text device hs hconfigured hready
      rw [← hconstructs.created] at hcreated
      obtain ⟨u, hu, hdrivers⟩ := ih hconstructs.quiet hrest hcreated
      refine ⟨u, forM_cons_run_eq_ok.mpr ⟨t, ht, hu⟩, ?_⟩
      rw [hdrivers, hconstructs.drivers, List.append_assoc]
      cases hdriver : driverOf r <;> simp [hdriver]

variable (text device) in
/-- If one comes when there is none, a null pointer is dereferenced. -/
theorem forM_serve_run_undefined (hs : s.Quiet) (h : ∀ r ∈ requests, Configured r)
    (hcreated : ¬ CreatedBefore s.Created requests) :
    ∃ op t, (forM requests (serve text device)).run s = .error (.undefined op) t := by
  induction requests generalizing s with
  | nil => exact absurd (createdBefore_nil _) hcreated
  | cons r requests ih =>
      obtain ⟨hconfigured, hrest⟩ := List.forall_mem_cons.mp h
      by_cases hready : r.1 = .pca9955 → s.Created
      · obtain ⟨t, ht, hconstructs⟩ := serve_run text device hs hconfigured hready
        have htail : ¬ CreatedBefore t.Created requests := by
          rw [hconstructs.created]
          exact fun htail => hcreated (createdBefore_cons.mpr ⟨hready, htail⟩)
        obtain ⟨op, u, hu⟩ := ih hconstructs.quiet hrest htail
        exact ⟨op, u, forM_cons_run_eq_error.mpr (.inr ⟨t, ht, hu⟩)⟩
      · obtain ⟨hinfo, hnone⟩ := Classical.not_imp.mp hready
        obtain ⟨info, config⟩ := r
        obtain rfl : info = .pca9955 := hinfo
        have hrun := serve_run_of_undefined text device (r := (.pca9955, config))
          (constructPca9955_run_of_not_created hnone)
        exact ⟨_, s, forM_cons_run_eq_error.mpr (.inl hrun)⟩

end Requests

/-! ## The payload -/

/-- The payload, with these drivers somewhere in it. -/
def payloadWith (root definite : Bool) (before after : List (Item × Item))
    (requests : List Request) : Item :=
  .map root (before ++
    (.uint .int32 IdpromKey.requiredDrivers.value, driverMap definite requests) :: after)

/-- The other entries of the payload can be taken, and list no drivers. -/
structure Others (env : Env FrontPanel) (hwSerial : Option (List Byte))
    (before after : List (Item × Item)) : Prop where
  taken : Taken env hwSerial (before ++ after)
  no_drivers : ∀ pair ∈ before ++ after, ¬ HasKey .requiredDrivers pair

/-- The payload is accepted, and these drivers have been registered. -/
def Registers (env : Env FrontPanel) (s : Probulator FrontPanel) (item : Item)
    (drivers : List Driver) : Prop :=
  ∃ t, (parseItem env item).run s = .ok () t ∧ t.world.drivers.Perm (s.world.drivers ++ drivers)

section Payload

variable {text : List Byte → Except Fault (List Byte)} {device : Device} {root definite : Bool}
  {before after : List (Item × Item)} {requests : List Request} {s : Probulator FrontPanel}

theorem Others.taken_with {env : Env FrontPanel} (h : Others env s.hwSerial before after)
    (value : Item) : Taken env s.hwSerial
      (before ++ (.uint .int32 IdpromKey.requiredDrivers.value, value) :: after) := by
  have hnot : ∀ key, key ≠ .requiredDrivers →
      ¬ HasKey key (.uint .int32 IdpromKey.requiredDrivers.value, value) :=
    fun key hne hkey => hne (hasKey_iff.mp hkey)
  have hunused : ∀ key, IdpromKey.ofValue? IdpromKey.requiredDrivers.value = some key →
      key.member? = none := by
    intro key hkey
    rw [ofValue?_value] at hkey
    cases hkey
    rfl
  constructor
  · intro pair hmem
    rcases List.mem_append.mp hmem with hmem | hmem
    · exact h.taken.accepted pair (List.mem_append_left _ hmem)
    · rcases List.mem_cons.mp hmem with rfl | hmem
      · exact .unused rfl hunused
      · exact h.taken.accepted pair (List.mem_append_right _ hmem)
  · intro pair hmem hkey
    rcases List.mem_append.mp hmem with hmem | hmem
    · exact h.taken.no_serial pair (List.mem_append_left _ hmem) hkey
    · rcases List.mem_cons.mp hmem with rfl | hmem
      · exact absurd hkey (hnot _ (by decide))
      · exact h.taken.no_serial pair (List.mem_append_right _ hmem) hkey
  · obtain ⟨hbefore, hafter, hcross⟩ := List.pairwise_append.mp h.taken.no_serial_before
    refine List.pairwise_append.mpr ⟨hbefore, List.pairwise_cons.mpr ⟨?_, hafter⟩, ?_⟩
    · rintro q _ (hsets | hsets)
      · exact absurd hsets (hnot _ (by decide))
      · exact absurd hsets (hnot _ (by decide))
    · intro p hp q hq
      rcases List.mem_cons.mp hq with rfl | hq
      · exact fun _ => hnot _ (by decide)
      · exact hcross p hp q hq

/-- The second loop comes down to the list of drivers. -/
theorem Others.forM_readDrivers_run {env : Env FrontPanel} {value : Item} {w : FrontPanel}
    (h : Others env s.hwSerial before after) :
    (forM (before ++ (.uint .int32 IdpromKey.requiredDrivers.value, value) :: after)
      (readDrivers env)).run w = (requireDrivers env value).run w := by
  have hskip : ∀ p ∈ before ++ after, ∀ w, (readDrivers env p).run w = .ok () w := fun p hp _ =>
    readDrivers_run_of_not_hasKey (h.taken.accepted p hp) (h.no_drivers p hp)
  rw [forM_run_eq_of_skipped (fun p hp => hskip p (List.mem_append_left _ hp))
    (fun p hp => hskip p (List.mem_append_right _ hp))]
  exact readDrivers_run_of_hasKey rfl

/-- The payload is accepted if its drivers are, and these are then the ones
registered. -/
theorem Others.registers_iff_forM {drivers : List Driver}
    (h : Others (panelEnv text device) s.hwSerial before after) :
    Registers (panelEnv text device) s (payloadWith root definite before after requests) drivers ↔
      ∃ w, (forM requests (serve text device)).run s.world = .ok () w ∧
        w.drivers.Perm (s.world.drivers ++ drivers) := by
  rw [← requireDrivers_driverMap definite]
  constructor
  · rintro ⟨t, ht, hperm⟩
    obtain ⟨u, w, _, hw, rfl⟩ := parseItem_run_eq_ok_iff.mp ht
    rw [h.forM_readDrivers_run] at hw
    exact ⟨w, hw, hperm⟩
  · rintro ⟨w, hw, hperm⟩
    obtain ⟨u, hu⟩ := forM_readEntry_returns_iff.mpr (h.taken_with (driverMap definite requests))
    rw [← h.forM_readDrivers_run] at hw
    exact ⟨{ u with world := w }, parseItem_run_eq_ok_iff.mpr ⟨u, w, hu, hw, rfl⟩, hperm⟩

/-- In an order in which every LED controller comes when there is an expander,
the drivers are registered, and in no other. -/
theorem registers_iff_createdBefore {requests' : List Request}
    (h : Others (panelEnv text device) s.hwSerial before after) (hs : s.world.Quiet)
    (hconfigured : ∀ r ∈ requests, Configured r) (hperm : requests'.Perm requests) :
    Registers (panelEnv text device) s (payloadWith root definite before after requests')
        (requests.filterMap driverOf) ↔ CreatedBefore s.world.Created requests' := by
  have hconfigured' : ∀ r ∈ requests', Configured r := fun r hr =>
    hconfigured r (hperm.subset hr)
  rw [h.registers_iff_forM]
  constructor
  · rintro ⟨w, hw, _⟩
    by_contra hcreated
    obtain ⟨op, t, ht⟩ := forM_serve_run_undefined text device hs hconfigured' hcreated
    rw [hw] at ht
    cases ht
  · intro hcreated
    obtain ⟨w, hw, hdrivers⟩ := forM_serve_run text device hs hconfigured' hcreated
    refine ⟨w, hw, ?_⟩
    rw [hdrivers]
    exact (hperm.filterMap driverOf).append_left _

theorem createdBefore_of_created {created : Prop} (h : created) (requests : List Request) :
    CreatedBefore created requests := fun _ _ _ _ _ => .inl h

/-- All orders of a list are safe if and only if there is an expander from the
start, or no LED controller. -/
theorem createdBefore_perm_iff {created : Prop} :
    (∀ requests', requests'.Perm requests → CreatedBefore created requests') ↔
      created ∨ ∀ r ∈ requests, r.1 ≠ .pca9955 := by
  constructor
  · intro h
    by_contra hno
    obtain ⟨hcreated, hled⟩ := not_or.mp hno
    refine hled fun r hr hinfo => ?_
    obtain ⟨first, last, rfl⟩ := List.append_of_mem hr
    rcases h (r :: (first ++ last)) List.perm_middle.symm [] r _ rfl hinfo with
      hcreated' | ⟨q, hq, _⟩
    · exact hcreated hcreated'
    · cases hq
  · rintro (hcreated | hled) requests' hperm
    · exact createdBefore_of_created hcreated requests'
    · rintro first r last rfl hinfo
      exact absurd hinfo (hled r (hperm.subset (by simp)))

/-- The drivers are registered, without a null pointer being dereferenced, in
exactly those orders in which every LED controller comes when there is an
expander; that is all orders if there is one from the start, or if there is no
LED controller. -/
theorem registers_iff (h : Others (panelEnv text device) s.hwSerial before after)
    (hs : s.world.Quiet) (hconfigured : ∀ r ∈ requests, Configured r) :
    (Registers (panelEnv text device) s (payloadWith root definite before after requests)
        (requests.filterMap driverOf) ↔ CreatedBefore s.world.Created requests) ∧
      ((∀ requests', requests'.Perm requests → Registers (panelEnv text device) s
          (payloadWith root definite before after requests') (requests.filterMap driverOf)) ↔
        s.world.Created ∨ ∀ r ∈ requests, r.1 ≠ .pca9955) := by
  refine ⟨registers_iff_createdBefore h hs hconfigured (List.Perm.refl _), ?_⟩
  rw [← createdBefore_perm_iff]
  refine forall_congr' fun requests' => forall_congr' fun hperm => ?_
  exact registers_iff_createdBefore h hs hconfigured hperm

end Payload

/-! ## A display and an LED controller -/

/-- The front panel before anything is constructed. -/
def bareWorld : FrontPanel := ⟨⟨fun _ => 0, []⟩, none, [], []⟩

def bareProber : Probulator FrontPanel := .initial bareWorld

theorem bareWorld_quiet : bareWorld.Quiet := ⟨rfl, rfl, nofun⟩

theorem others_nil {env : Env FrontPanel} : Others env none [] [] := ⟨⟨nofun, nofun, .nil⟩, nofun⟩

/-- An LED controller with one LED. -/
def ledConfig : Item :=
  .map true [(.ofString "addr", .uint .int8 5), (.ofString "rext", .uint .int16 2000),
    (.ofString "map", .map true [(.uint .int8 6, .uint .int8 0)])]

theorem ledConfig_configured : Configured (.pca9955, ledConfig) := ⟨rfl, _, rfl⟩

def displayThenLed : List Request := [(.nt35510, .ctrlNull), (.pca9955, ledConfig)]

theorem displayThenLed_configured : ∀ r ∈ displayThenLed, Configured r :=
  List.forall_mem_cons.mpr ⟨trivial, List.forall_mem_singleton.mpr ledConfig_configured⟩

theorem registers_iff_displayThenLed :
    (Registers (panelEnv cString zeros) bareProber (payloadWith true true [] [] displayThenLed)
        (displayThenLed.filterMap driverOf) ↔ CreatedBefore bareWorld.Created displayThenLed) ∧
      ((∀ requests', requests'.Perm displayThenLed → Registers (panelEnv cString zeros)
          bareProber (payloadWith true true [] [] requests') (displayThenLed.filterMap driverOf)) ↔
        bareWorld.Created ∨ ∀ r ∈ displayThenLed, r.1 ≠ .pca9955) :=
  registers_iff (s := bareProber) others_nil bareWorld_quiet displayThenLed_configured

/-- In the other order the LED controller finds no expander. -/
theorem not_registers_ledThenDisplay :
    (parseItem (panelEnv cString zeros)
        (payloadWith true true [] [] displayThenLed.reverse)).run bareProber
      = .error (.undefined "std::shared_ptr::operator->") bareProber ∧
    ¬ Registers (panelEnv cString zeros) bareProber
      (payloadWith true true [] [] displayThenLed.reverse) (displayThenLed.filterMap driverOf) := by
  have hrun : (parseItem (panelEnv cString zeros)
      (payloadWith true true [] [] displayThenLed.reverse)).run bareProber
        = .error (.undefined "std::shared_ptr::operator->") bareProber := rfl
  refine ⟨hrun, ?_⟩
  rintro ⟨t, ht, _⟩
  rw [hrun] at ht
  cases ht

end Idprom
