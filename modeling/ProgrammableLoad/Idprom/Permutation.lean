/-
# `Idprom.Permutation` — the payload, with its entries in another order

A CBOR map has no order, but the loop takes its entries in the one they were
written in.  With distinct keys most of them do not meet: they fill different
members, and the drivers have a loop of their own.  The exception are the two
keys for the serial number.  The text after the pointer overwrites what the
pointer led to, and the pointer after the text is refused.

`orderFree_iff` says for which payloads the order does not matter.
-/
import ProgrammableLoad.Idprom.Payload

namespace Idprom

open Cpp Cbor Program LastWriter

/-! ## The property -/

/-- An error of its own ends the call. -/
def Rejects {σ : Type} (r : EStateM.Result Fault σ Unit) : Prop := ∃ e t, r = .error (.thrown e) t

/-- Two calls reject, or both accept and read the same. -/
inductive SameOutcome {ω : Type} (r r' : EStateM.Result Fault (Probulator ω) Unit) : Prop
  | rejected (h : Rejects r) (h' : Rejects r')
  | accepted {t t'} (h : r = .ok () t) (h' : r' = .ok () t') (heq : ∀ m, t.member m = t'.member m)

def Has (key : IdpromKey) (pairs : List (Item × Item)) : Prop := ∃ pair ∈ pairs, HasKey key pair

/-- All orders of the entries have one outcome, and a payload with both keys
for the serial number is rejected. -/
structure OrderFree {ω : Type} (env : Env ω) (s : Probulator ω) (pairs : List (Item × Item)) :
    Prop where
  same : ∀ definite definite' pairs', pairs'.Perm pairs →
    SameOutcome ((parseItem env (.map definite pairs)).run s)
      ((parseItem env (.map definite' pairs')).run s)
  exclusive : Has .serialString pairs → Has .serialPointer pairs →
    ∀ definite pairs', pairs'.Perm pairs → Rejects ((parseItem env (.map definite pairs')).run s)

/-! ## The condition -/

/-- Every entry can be taken, on its own. -/
structure Acceptable {ω : Type} (env : Env ω) (hwSerial : Option (List Byte))
    (pairs : List (Item × Item)) : Prop where
  accepted : ∀ pair ∈ pairs, Accepted env pair
  no_serial : Has .serialPointer pairs → hwSerial = none

/-- Nothing undefined is met in any entry, nor in the drivers if it comes to
them, and a payload with both keys has an entry, or a driver, that is refused. -/
structure Independent {ω : Type} (env : Env ω) (s : Probulator ω) (pairs : List (Item × Item)) :
    Prop where
  readable : ∀ pair ∈ pairs, Readable env pair
  drivers : Acceptable env s.hwSerial pairs → ∀ pair ∈ pairs, HasKey .requiredDrivers pair →
    DefinedFrom (requireDrivers env pair.2) s.world
  exclusive : Acceptable env s.hwSerial pairs → Has .serialString pairs →
    Has .serialPointer pairs → ∃ pair ∈ pairs, HasKey .requiredDrivers pair ∧
      ¬ ∃ w, (requireDrivers env pair.2).run s.world = .ok () w

section Order

variable {ω : Type} {env : Env ω} {s : Probulator ω} {definite : Bool}
  {pairs pairs' : List (Item × Item)} {hwSerial : Option (List Byte)}

/-! ## Entries in another order -/

theorem Has.perm {key : IdpromKey} (h : Has key pairs) (hperm : pairs'.Perm pairs) :
    Has key pairs' := by
  obtain ⟨pair, hmem, hkey⟩ := h
  exact ⟨pair, hperm.symm.subset hmem, hkey⟩

theorem Taken.acceptable (h : Taken env hwSerial pairs) : Acceptable env hwSerial pairs where
  accepted := h.accepted
  no_serial := fun ⟨pair, hmem, hkey⟩ => h.no_serial pair hmem hkey

theorem Acceptable.perm (h : Acceptable env hwSerial pairs) (hperm : pairs'.Perm pairs) :
    Acceptable env hwSerial pairs' where
  accepted := fun pair hmem => h.accepted pair (hperm.subset hmem)
  no_serial := fun hpointer => h.no_serial (hpointer.perm hperm.symm)

theorem pairwise_key_ne (hnodup : (pairs.map Prod.fst).Nodup) :
    pairs.Pairwise fun p q => p.1 ≠ q.1 := List.pairwise_map.mp hnodup

/-- The keys of a payload can be moved so that the loop takes all entries: the
pointer first. -/
theorem Acceptable.exists_taken (h : Acceptable env hwSerial pairs)
    (hnodup : (pairs.map Prod.fst).Nodup) :
    ∃ pairs', pairs'.Perm pairs ∧ Taken env hwSerial pairs' := by
  by_cases hpointer : Has .serialPointer pairs
  · obtain ⟨p, hmem, hkey⟩ := hpointer
    obtain ⟨before, after, rfl⟩ := List.append_of_mem hmem
    have hperm : (p :: (before ++ after)).Perm (before ++ p :: after) := List.perm_middle.symm
    have hnodup' := (hperm.map Prod.fst).nodup_iff.mpr hnodup
    have hother : ∀ q ∈ before ++ after, ¬ HasKey .serialPointer q := by
      intro q hq hkey'
      refine (List.nodup_cons.mp hnodup').1 ?_
      rw [show p.1 = q.1 from hkey.trans hkey'.symm]
      exact List.mem_map_of_mem hq
    refine ⟨_, hperm, (h.perm hperm).accepted, ?_, ?_⟩
    · intro q _ _
      exact h.no_serial ⟨p, hmem, hkey⟩
    · refine List.pairwise_cons.mpr ⟨fun q hq _ => hother q hq, ?_⟩
      exact List.pairwise_of_forall_mem_list fun _ _ q hq _ => hother q hq
  · have hother : ∀ q ∈ pairs, ¬ HasKey .serialPointer q := fun q hq hkey => hpointer ⟨q, hq, hkey⟩
    refine ⟨pairs, List.Perm.refl _, h.accepted, fun q hq hkey => absurd hkey (hother q hq), ?_⟩
    exact List.pairwise_of_forall_mem_list fun _ _ q hq _ => hother q hq

/-- Without the two keys for the serial number the loop takes the entries in
any order. -/
theorem Acceptable.taken (h : Acceptable env hwSerial pairs) (hnodup : (pairs.map Prod.fst).Nodup)
    (hboth : ¬ (Has .serialString pairs ∧ Has .serialPointer pairs)) :
    Taken env hwSerial pairs where
  accepted := h.accepted
  no_serial := fun pair hmem hkey => h.no_serial ⟨pair, hmem, hkey⟩
  no_serial_before := by
    refine (pairwise_key_ne hnodup).imp_of_mem ?_
    rintro p q hp hq hne (hstring | hpointer) hkey
    · exact hboth ⟨⟨p, hp, hstring⟩, ⟨q, hq, hkey⟩⟩
    · exact hne (hpointer.trans hkey.symm)

/-- What is stored belongs to the key of the entry. -/
theorem stored_key {pair : Item × Item} {x : Member × List Byte} (haccepted : Accepted env pair)
    (h : stored env pair = some x) : ∃ key, HasKey key pair ∧ key.member? = some x.1 := by
  cases shape pair with
  | notUint hkey => exact absurd haccepted (not_accepted_notUint hkey)
  | width hwidth => exact absurd haccepted (not_accepted_width hwidth)
  | unused hunused =>
      rw [stored_unused hunused] at h
      cases h
  | @text key value m hkey =>
      rw [stored_text hkey] at h
      obtain ⟨str, _, rfl⟩ := Option.map_eq_some_iff.mp h
      exact ⟨key, rfl, member?_of_textMember? hkey⟩
  | pointer =>
      rw [stored_pointer] at h
      obtain ⟨serial, _, rfl⟩ := Option.map_eq_some_iff.mp h
      exact ⟨.serialPointer, rfl, rfl⟩

/-- Only the keys for the serial number have a member in common. -/
theorem eq_or_serial_of_member? {key key' : IdpromKey} {m : Member} (h : key.member? = some m)
    (h' : key'.member? = some m) : key = key' ∨
      (key = .serialString ∧ key' = .serialPointer) ∨
      (key = .serialPointer ∧ key' = .serialString) := by
  cases key <;> cases h <;> cases key' <;> cases h' <;> simp

/-- Without both of these no two entries fill the same member. -/
theorem nodup_puts (haccepted : ∀ pair ∈ pairs, Accepted env pair)
    (hnodup : (pairs.map Prod.fst).Nodup)
    (hboth : ¬ (Has .serialString pairs ∧ Has .serialPointer pairs)) :
    ((puts env pairs).map Prod.fst).Nodup := by
  rw [List.Nodup, List.pairwise_map, puts, List.pairwise_filterMap]
  refine (pairwise_key_ne hnodup).imp_of_mem ?_
  intro p q hp hq hne x hx y hy hxy
  obtain ⟨key, hkey, hm⟩ := stored_key (haccepted p hp) hx
  obtain ⟨key', hkey', hm'⟩ := stored_key (haccepted q hq) hy
  rw [← hxy] at hm'
  rcases eq_or_serial_of_member? hm hm' with rfl | ⟨rfl, rfl⟩ | ⟨rfl, rfl⟩
  · exact hne (hkey.trans hkey'.symm)
  · exact hboth ⟨⟨p, hp, hkey⟩, ⟨q, hq, hkey'⟩⟩
  · exact hboth ⟨⟨q, hq, hkey'⟩, ⟨p, hp, hkey⟩⟩

/-! ## The outcome -/

theorem rejects_iff {m : EStateM Fault (Probulator ω) Unit} :
    Rejects (m.run s) ↔ DefinedFrom m s ∧ ¬ ∃ t, m.run s = .ok () t := by
  constructor
  · rintro ⟨e, t, h⟩
    constructor
    · intro op u hop
      rw [h] at hop
      cases hop
    · rintro ⟨u, hu⟩
      rw [h] at hu
      cases hu
  · rintro ⟨hdefined, hreturns⟩
    cases h : m.run s with
    | ok a t => exact absurd ⟨t, h⟩ hreturns
    | error e t =>
        cases e with
        | thrown e => exact ⟨e, t, rfl⟩
        | undefined op => exact absurd h (hdefined op t)

theorem SameOutcome.defined {m m' : EStateM Fault (Probulator ω) Unit}
    (h : SameOutcome (m.run s) (m'.run s)) : DefinedFrom m' s := by
  cases h with
  | rejected _ h' => exact (rejects_iff.mp h').1
  | accepted _ h' _ => exact .of_ok h'

/-- The drivers are defined if their list is. -/
theorem definedFrom_forM_readDrivers_iff {w : ω} (haccepted : ∀ p ∈ pairs, Accepted env p)
    (hnodup : (pairs.map Prod.fst).Nodup) : DefinedFrom (forM pairs (readDrivers env)) w ↔
      ∀ pair ∈ pairs, HasKey .requiredDrivers pair → DefinedFrom (requireDrivers env pair.2) w := by
  constructor
  · intro h pair hmem hkey op t
    rw [← forM_readDrivers_run_of_mem haccepted hnodup hmem hkey]
    exact h op t
  · intro h op t hop
    by_cases hdrivers : Has .requiredDrivers pairs
    · obtain ⟨pair, hmem, hkey⟩ := hdrivers
      rw [forM_readDrivers_run_of_mem haccepted hnodup hmem hkey] at hop
      exact h pair hmem hkey op t hop
    · rw [forM_readDrivers_run_of_none haccepted fun p hp hkey => hdrivers ⟨p, hp, hkey⟩] at hop
      cases hop

/-- They can be instantiated if their list can. -/
theorem forM_readDrivers_returns_iff {w : ω} (haccepted : ∀ p ∈ pairs, Accepted env p)
    (hnodup : (pairs.map Prod.fst).Nodup) :
    (∃ w', (forM pairs (readDrivers env)).run w = .ok () w') ↔
      ∀ pair ∈ pairs, HasKey .requiredDrivers pair →
        ∃ w', (requireDrivers env pair.2).run w = .ok () w' := by
  constructor
  · rintro ⟨w', h⟩ pair hmem hkey
    rw [forM_readDrivers_run_of_mem haccepted hnodup hmem hkey] at h
    exact ⟨w', h⟩
  · intro h
    by_cases hdrivers : Has .requiredDrivers pairs
    · obtain ⟨pair, hmem, hkey⟩ := hdrivers
      obtain ⟨w', hw⟩ := h pair hmem hkey
      exact ⟨w', (forM_readDrivers_run_of_mem haccepted hnodup hmem hkey).trans hw⟩
    · exact ⟨w, forM_readDrivers_run_of_none haccepted fun p hp hkey => hdrivers ⟨p, hp, hkey⟩⟩

theorem OrderFree.independent (h : OrderFree env s pairs) (hnodup : (pairs.map Prod.fst).Nodup) :
    Independent env s pairs := by
  have hdefined : ∀ pairs', pairs'.Perm pairs →
      DefinedFrom (forM pairs' (readEntry env)) s ∧
        (Taken env s.hwSerial pairs' → DefinedFrom (forM pairs' (readDrivers env)) s.world) :=
    fun pairs' hperm => definedFrom_parseItem_iff.mp (h.same true true pairs' hperm).defined
  constructor
  · -- an entry is come to if it is the first one
    intro pair hmem
    obtain ⟨before, after, rfl⟩ := List.append_of_mem hmem
    have hfirst := (hdefined (pair :: (before ++ after)) List.perm_middle.symm).1
    exact definedFrom_readEntry_iff.mp
      (definedFrom_forM_iff.mp hfirst [] pair (before ++ after) s rfl rfl)
  · intro hacceptable pair hmem hkey
    obtain ⟨pairs', hperm, htaken⟩ := hacceptable.exists_taken hnodup
    have hnodup' := (hperm.map Prod.fst).nodup_iff.mpr hnodup
    have hdrivers := (hdefined pairs' hperm).2 htaken
    exact (definedFrom_forM_readDrivers_iff htaken.accepted hnodup').mp hdrivers pair
      (hperm.symm.subset hmem) hkey
  · intro hacceptable hstring hpointer
    by_contra hno
    obtain ⟨pairs', hperm, htaken⟩ := hacceptable.exists_taken hnodup
    have hreturns : ∃ w, (forM pairs' (readDrivers env)).run s.world = .ok () w := by
      refine (forM_readDrivers_returns_iff htaken.accepted
        ((hperm.map Prod.fst).nodup_iff.mpr hnodup)).mpr ?_
      intro pair hmem hkey
      by_contra hfails
      exact hno ⟨pair, hperm.subset hmem, hkey, hfails⟩
    exact (rejects_iff.mp (h.exclusive hstring hpointer true pairs' hperm)).2
      ((parseItem_returns_iff _).mpr ⟨htaken, hreturns⟩)

theorem Independent.defined (h : Independent env s pairs) (hnodup : (pairs.map Prod.fst).Nodup)
    (hperm : pairs'.Perm pairs) : DefinedFrom (parseItem env (.map definite pairs')) s := by
  refine definedFrom_parseItem_iff.mpr ⟨?_, ?_⟩
  · refine definedFrom_forM_iff.mpr ?_
    rintro before pair after t rfl _
    exact definedFrom_readEntry_iff.mpr (h.readable pair (hperm.subset (by simp)))
  · intro htaken
    refine (definedFrom_forM_readDrivers_iff htaken.accepted
      ((hperm.map Prod.fst).nodup_iff.mpr hnodup)).mpr ?_
    intro pair hmem hkey
    exact h.drivers (htaken.acceptable.perm hperm.symm) pair (hperm.subset hmem) hkey

/-- With both keys no order is accepted. -/
theorem Independent.not_returns (h : Independent env s pairs)
    (hnodup : (pairs.map Prod.fst).Nodup) (hstring : Has .serialString pairs)
    (hpointer : Has .serialPointer pairs) (hperm : pairs'.Perm pairs) :
    ¬ ∃ t, (parseItem env (.map definite pairs')).run s = .ok () t := by
  intro hreturns
  obtain ⟨htaken, hdrivers⟩ := (parseItem_returns_iff _).mp hreturns
  obtain ⟨pair, hmem, hkey, hfails⟩ :=
    h.exclusive (htaken.acceptable.perm hperm.symm) hstring hpointer
  exact hfails ((forM_readDrivers_returns_iff htaken.accepted
    ((hperm.map Prod.fst).nodup_iff.mpr hnodup)).mp hdrivers pair (hperm.symm.subset hmem) hkey)

/-- Without both keys, what is accepted in one order is accepted in any other,
and the same is read. -/
theorem parseItem_perm {definite' : Bool} {t : Probulator ω}
    (hnodup : (pairs.map Prod.fst).Nodup)
    (hboth : ¬ (Has .serialString pairs ∧ Has .serialPointer pairs)) (hperm : pairs'.Perm pairs)
    (h : (parseItem env (.map definite pairs)).run s = .ok () t) :
    ∃ t', (parseItem env (.map definite' pairs')).run s = .ok () t' ∧
      ∀ m, t.member m = t'.member m := by
  obtain ⟨htaken, w, hw⟩ := (parseItem_returns_iff _).mp ⟨t, h⟩
  have hnodup' := (hperm.map Prod.fst).nodup_iff.mpr hnodup
  have hboth' : ¬ (Has .serialString pairs' ∧ Has .serialPointer pairs') := fun hboth' =>
    hboth ⟨hboth'.1.perm hperm.symm, hboth'.2.perm hperm.symm⟩
  rw [← forM_readDrivers_run_perm htaken.accepted hnodup hperm] at hw
  obtain ⟨t', ht'⟩ := (parseItem_returns_iff _).mpr
    ⟨(htaken.acceptable.perm hperm).taken hnodup' hboth', w, hw⟩
  refine ⟨t', ht', ?_⟩
  intro m
  rw [parseItem_member h, parseItem_member ht',
    lastOf_perm (nodup_puts htaken.accepted hnodup hboth) (hperm.symm.filterMap (stored env))]
  rfl

theorem Independent.orderFree (h : Independent env s pairs)
    (hnodup : (pairs.map Prod.fst).Nodup) : OrderFree env s pairs := by
  constructor
  · intro definite definite' pairs' hperm
    have hdefined : DefinedFrom (parseItem env (.map definite pairs)) s :=
      h.defined hnodup (List.Perm.refl _)
    have hdefined' : DefinedFrom (parseItem env (.map definite' pairs')) s := h.defined hnodup hperm
    by_cases hboth : Has .serialString pairs ∧ Has .serialPointer pairs
    · exact .rejected
        (rejects_iff.mpr ⟨hdefined, h.not_returns hnodup hboth.1 hboth.2 (List.Perm.refl _)⟩)
        (rejects_iff.mpr ⟨hdefined', h.not_returns hnodup hboth.1 hboth.2 hperm⟩)
    · by_cases hreturns : ∃ t, (parseItem env (.map definite pairs)).run s = .ok () t
      · obtain ⟨t, ht⟩ := hreturns
        obtain ⟨t', ht', heq⟩ := parseItem_perm hnodup hboth hperm ht
        exact .accepted ht ht' heq
      · refine .rejected (rejects_iff.mpr ⟨hdefined, hreturns⟩)
          (rejects_iff.mpr ⟨hdefined', ?_⟩)
        rintro ⟨t', ht'⟩
        have hboth' : ¬ (Has .serialString pairs' ∧ Has .serialPointer pairs') := fun hboth' =>
          hboth ⟨hboth'.1.perm hperm.symm, hboth'.2.perm hperm.symm⟩
        obtain ⟨t, ht, _⟩ := parseItem_perm ((hperm.map Prod.fst).nodup_iff.mpr hnodup) hboth'
          hperm.symm ht'
        exact hreturns ⟨t, ht⟩
  · intro hstring hpointer definite pairs' hperm
    exact rejects_iff.mpr
      ⟨h.defined hnodup hperm, h.not_returns hnodup hstring hpointer hperm⟩

/-- The order of the entries does not matter if and only if the payload is
independent of it. -/
theorem orderFree_iff (hnodup : (pairs.map Prod.fst).Nodup) :
    OrderFree env s pairs ↔ Independent env s pairs := by
  constructor
  · intro h
    exact h.independent hnodup
  · intro h
    exact h.orderFree hnodup

end Order

/-- A bus with zeros, and constructors that do nothing. -/
def quietEnv : Env Unit := ⟨cString, zeros, fun _ _ => pure ()⟩

/-- The entries of a payload with two texts. -/
def twoTexts : List (Item × Item) :=
  [(.uint .int32 IdpromKey.hardwareDescription.value, .text (ascii "Load" ++ [0])),
    (.uint .int32 IdpromKey.serialString.value, .text (ascii "1" ++ [0]))]

theorem orderFree_twoTexts : OrderFree quietEnv (.initial ()) twoTexts := by
  have hnodup : (twoTexts.map Prod.fst).Nodup := by
    refine List.nodup_cons.mpr ⟨fun hmem => ?_, List.nodup_singleton _⟩
    have hkey := hasKey_iff.mp (List.mem_singleton.mp hmem)
    cases hkey
  have hother : ∀ key pair, key ≠ .hardwareDescription → key ≠ .serialString → pair ∈ twoTexts →
      ¬ HasKey key pair := by
    intro key pair hdescription hstring hmem hkey
    rcases List.mem_cons.mp hmem with rfl | hmem
    · exact hdescription (hasKey_iff.mp hkey)
    · rcases List.mem_singleton.mp hmem with rfl
      exact hstring (hasKey_iff.mp hkey)
  refine (orderFree_iff hnodup).mpr ⟨fun pair hmem => ?_, fun _ pair hmem hkey => ?_,
    fun _ _ hpointer => ?_⟩
  · rcases List.mem_cons.mp hmem with rfl | hmem
    · refine (readable_text_iff (m := .hwDesc) rfl).mpr ?_
      rintro _ ⟨⟩
      exact .of_ok rfl
    · rcases List.mem_singleton.mp hmem with rfl
      refine (readable_text_iff (m := .hwSerial) rfl).mpr ?_
      rintro _ ⟨⟩
      exact .of_ok rfl
  · exact absurd hkey (hother _ pair (by decide) (by decide) hmem)
  · obtain ⟨pair, hmem, hkey⟩ := hpointer
    exact absurd hkey (hother _ pair (by decide) (by decide) hmem)

/-- The entries of a payload with both keys for the serial number. -/
def bothSerials : List (Item × Item) :=
  [(.uint .int32 IdpromKey.serialString.value, .text (ascii "1" ++ [0])),
    (.uint .int32 IdpromKey.serialPointer.value, pointerTo 0x58 0x80 1)]

/-- The payload is rejected as it is, and accepted in the other order. -/
theorem not_orderFree_bothSerials : ¬ OrderFree quietEnv (.initial ()) bothSerials := by
  intro h
  have hrejected := h.exclusive ⟨_, List.mem_cons_self, rfl⟩ ⟨_, List.mem_cons_of_mem _
    List.mem_cons_self, rfl⟩ true bothSerials.reverse bothSerials.reverse_perm
  obtain ⟨e, t, hrun⟩ := hrejected
  have haccepted : (parseItem quietEnv (.map true bothSerials.reverse)).run (.initial ())
      = .ok () { Probulator.initial () with hwSerial := some (ascii "1") } := rfl
  rw [haccepted] at hrun
  cases hrun

end Idprom
