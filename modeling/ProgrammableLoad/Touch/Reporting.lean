/-
# `Touch.Reporting` — which runs of samples are reported as they are

A broadcast is exact when its `touchData` maps each touch id to the position
of the sample's point with that id, and to null when the sample has none.
Whether a poll is exact depends on the sample before it: a swapped pair leaves
the driver in a state that reports a lone touch 1 correctly and an empty panel
wrongly, and every other state does the opposite.
-/
import ProgrammableLoad.Touch.Tracking

namespace Touch

open Cpp Cbor Ft6336 Program

/-! ## Reading a broadcast back -/

/-- The value under a text key of a map. -/
def textEntry (key : String) : Item → Option Item
  | .map _ pairs => pairs.findSome? fun
      | (.text k, v) => if k = ascii key then some v else none
      | _ => none
  | _ => none

/-- The value under an integer key of a map. -/
def uintEntry (key : Nat) : Item → Option Item
  | .map _ pairs => pairs.findSome? fun
      | (.uint _ k, v) => if k = key then some v else none
      | _ => none
  | _ => none

/-- What a value of `touchData` says: no touch, or a touch at a position. -/
def touchOf (item : Item) : Option (Option TouchPosition) :=
  if item.isNull then
    some none
  else
    match textEntry "position" item with
    | some (.array _ [.uint _ x, .uint _ y]) =>
        some (some (BitVec.ofNat 16 x, BitVec.ofNat 16 y))
    | _ => none

/-- What a broadcast says about a touch id. -/
def reportedTouch (msg : Item) (id : Nat) : Option (Option TouchPosition) := do
  let touches ← textEntry "touchData" msg
  let value ← uintEntry id touches
  touchOf value

theorem touchOf_touchValue (touch : Option TouchPosition) :
    touchOf (touchValue touch) = some touch := by
  cases touch with
  | none => rfl
  | some pos =>
      have hkey : textEntry "position" (encodeTouchState pos)
          = some (.array true [.uint .int16 pos.1.toNat, .uint .int16 pos.2.toNat]) := by
        rfl
      have hnull : (encodeTouchState pos).isNull = false := rfl
      simp [touchOf, touchValue, hkey, hnull]

theorem reportedTouch_touchMessage (touch0 touch1 : Option TouchPosition) :
    reportedTouch (touchMessage touch0 touch1) 0 = some touch0 ∧
      reportedTouch (touchMessage touch0 touch1) 1 = some touch1 :=
  ⟨touchOf_touchValue touch0, touchOf_touchValue touch1⟩

/-! ## Exact broadcasts -/

/-- What a poll sends says of each touch id where the sample has it; a poll
sends nothing only for a sample without points. -/
def Exact (panel : Panel) (s : Sample) : Option Item → Prop
  | some msg => ∀ id : Fin 2,
      reportedTouch msg id.val = some ((s.points panel).lookup id.val)
  | none => s.points panel = []

theorem exact_touchMessage_iff {panel : Panel} {s : Sample}
    {touch0 touch1 : Option TouchPosition} :
    Exact panel s (some (touchMessage touch0 touch1)) ↔
      touch0 = (s.points panel).lookup 0 ∧ touch1 = (s.points panel).lookup 1 := by
  obtain ⟨h0, h1⟩ := reportedTouch_touchMessage touch0 touch1
  simp only [Exact, Fin.forall_fin_two, Fin.val_zero, Fin.val_one, h0, h1,
    Option.some.injEq]

/-- A poll is exact from a phase: a lone touch 1 after a swapped pair only, an
empty sample after anything else. -/
def Phase.Reports (p : Phase) (k : Kind) : Prop :=
  (k = .idle → p ≠ .swapped) ∧ (k = .lone1 → p = .swapped)

/-- In an exact run the phase after a poll is swapped just after a swapped
pair. -/
theorem next_eq_swapped_iff {p q : Phase} {k : Kind} (h : p.next k = some q) :
    q = .swapped ↔ k = .swapped := by
  cases p <;> cases k <;> simp_all [Phase.next] <;> subst h <;> decide

theorem next_of_exact {p : Phase} {k : Kind} (hp : p ≠ .stuck) (hk : p.Reports k) :
    ∃ q, p.next k = some q ∧ q ≠ .stuck := by
  cases p <;> cases k <;> simp_all [Phase.next, Phase.Reports]

section Step

variable {p : Phase} {d : Ft6336} {s : Sample}

/-- The points of the sample and the broadcast of the poll, where the two
agree. -/
theorem poll_exact (hd : p.Holds d) (hp : p ≠ .stuck) (hk : p.Reports s.kind)
    {out : Option Item} {t : Ft6336} (hrun : (updateTouchState s.regs).run d = .ok out t) :
    Exact d.panel s out := by
  rcases s.kind_cases with ⟨hkind, hn⟩ | ⟨hkind, hn, h0⟩ | ⟨hkind, hn, h0⟩ |
    ⟨hkind, hn, h0, h1⟩ | ⟨hkind, hn, h0, h1⟩
  · have hpts : s.points d.panel = [] := by simp [Sample.points, hn]
    cases p with
    | fresh | idle =>
        rw [poll_idle_silent hn hd.1 hd.2.1] at hrun
        cases hrun
        exact hpts
    | zero | one =>
        obtain ⟨u, hrun', _⟩ := poll_idle_releases hn hd (by simp)
        rw [hrun'] at hrun
        cases hrun
        simp [exact_touchMessage_iff, hpts]
    | swapped => exact absurd rfl (hk.1 hkind)
    | stuck => exact absurd rfl hp
  · obtain ⟨u, hrun', _⟩ := poll_lone0 (d := d) hn h0
    rw [hrun'] at hrun
    cases hrun
    simp [exact_touchMessage_iff, Sample.points, hn, h0, List.lookup]
  · obtain rfl : p = .swapped := hk.2 hkind
    obtain ⟨u, hrun', _⟩ := poll_lone1_of_swapped hn h0 hd
    rw [hrun'] at hrun
    cases hrun
    simp [exact_touchMessage_iff, Sample.points, hn, h0, List.lookup]
  · obtain ⟨u, hrun', _⟩ := poll_inOrder (d := d) hn h0 h1
    rw [hrun'] at hrun
    cases hrun
    simp [exact_touchMessage_iff, Sample.points, hn, h0, h1, List.lookup]
  · obtain ⟨u, hrun', _⟩ := poll_swapped (d := d) hn h0 h1
    rw [hrun'] at hrun
    cases hrun
    simp [exact_touchMessage_iff, Sample.points, hn, h0, h1, List.lookup]

theorem poll_inexact (hd : p.Holds d) (hp : p ≠ .stuck) (hk : ¬ p.Reports s.kind)
    {out : Option Item} {t : Ft6336} (hrun : (updateTouchState s.regs).run d = .ok out t) :
    ¬ Exact d.panel s out := by
  rcases s.kind_cases with ⟨hkind, hn⟩ | ⟨hkind, hn, h0⟩ | ⟨hkind, hn, h0⟩ |
    ⟨hkind, hn, h0, h1⟩ | ⟨hkind, hn, h0, h1⟩
  · -- an empty sample after a swapped pair still reports touch 0
    have hsw : p = .swapped := by
      by_contra hne
      exact hk ⟨fun _ => hne, by simp [hkind]⟩
    subst hsw
    obtain ⟨touch0, u, hrun', hsome, _⟩ :=
      poll_idle_held hn hd.1 hd.2.2.1 (Or.inl rfl)
    rw [hrun'] at hrun
    cases hrun
    simp [exact_touchMessage_iff, Sample.points, hn, hsome]
  · exact absurd ⟨by simp [hkind], by simp [hkind]⟩ hk
  · -- a lone touch 1 is reported under no key, or under the wrong one
    have hpts : (s.points d.panel).lookup 1 ≠ none := by
      simp [Sample.points, hn, h0]
    have hnone : ∀ {touch0 : Option TouchPosition},
        ¬ Exact d.panel s (some (touchMessage touch0 none)) := by
      intro touch0 hex
      exact hpts (exact_touchMessage_iff.mp hex).2.symm
    have hne : p ≠ .swapped := by
      intro hsw
      exact hk ⟨by simp [hkind], fun _ => hsw⟩
    by_cases hfresh : p = .fresh
    · subst hfresh
      obtain ⟨e, u, hrun'⟩ := poll_lone1_of_fresh hn h0 hd
      rw [hrun'] at hrun
      cases hrun
    · obtain ⟨id, hid, hcases, _, hp2⟩ := hd.touchId hfresh
      obtain ⟨_, u, hrun', _⟩ := poll_lone1 hn h0 hid hcases (hp2 hne)
      rw [hrun'] at hrun
      cases hrun
      exact hnone
  · exact absurd ⟨by simp [hkind], by simp [hkind]⟩ hk
  · exact absurd ⟨by simp [hkind], by simp [hkind]⟩ hk

end Step

/-! ## Exact runs -/

/-- The callback, as a machine fed samples. -/
def poll (s : Sample) : EStateM Fault Ft6336 (Option Item) := updateTouchState s.regs

/-- Every poll of the run from construction over `samples` is exact. -/
def ExactRun (panel : Panel) (samples : List Sample) : Prop :=
  Along poll (fun _ s out _ => Exact panel s out) (construct panel) samples

/-- Which kind of sample may follow which: an empty one anything but a swapped
pair, a lone touch 1 a swapped pair only. -/
def Follows (prev k : Kind) : Prop :=
  (k = .idle → prev ≠ .swapped) ∧ (k = .lone1 → prev = .swapped)

theorem along_exact_iff {panel : Panel} :
    ∀ {samples : List Sample} {p : Phase} {prev : Kind} {d : Ft6336},
      p.Holds d → d.panel = panel → p ≠ .stuck → (p = .swapped ↔ prev = .swapped) →
      (Along poll (fun _ s out _ => Exact panel s out) d samples ↔
        List.IsChain Follows (prev :: samples.map Sample.kind))
  | [], _, _, _, _, _, _, _ => by simp [Along]
  | s :: samples, p, prev, d, hd, hpanel, hp, hprev => by
      have hreports : p.Reports s.kind ↔ Follows prev s.kind := by
        unfold Phase.Reports Follows
        rw [ne_eq, hprev]
      rw [List.map_cons, List.isChain_cons_cons, ← hreports]
      by_cases hk : p.Reports s.kind
      · obtain ⟨q, hq, hqstuck⟩ := next_of_exact hp hk
        have hstep := poll_phase hd s
        rw [hq] at hstep
        obtain ⟨out, t, hrun, ht, hpanel'⟩ := hstep
        have hex := poll_exact hd hp hk hrun
        have hpoll : (poll s).run d = .ok out t := hrun
        rw [along_cons_of_run hpoll,
          along_exact_iff ht (hpanel'.trans hpanel) hqstuck (next_eq_swapped_iff hq)]
        subst hpanel
        simp [hex, hk]
      · constructor
        · rintro ⟨out, t, hrun, hex, _⟩
          subst hpanel
          exact absurd hex (poll_inexact hd hp hk hrun)
        · rintro ⟨hk', _⟩
          exact absurd hk' hk

/-- A run is reported exactly if and only if no empty sample comes right after
a swapped pair and every lone touch 1 does. -/
theorem exactRun_iff (panel : Panel) (samples : List Sample) :
    ExactRun panel samples ↔ List.IsChain Follows (.idle :: samples.map Sample.kind) :=
  along_exact_iff (construct_fresh panel) rfl (by decide) (by decide)

/-- Two fingers down, in the order of their ids. -/
def bothFingers : Sample where
  regs := fun a => if a = 0x02 then 2 else if a = 0x0b then 0x10 else 0
  count_le := by decide
  id_lt := by decide
  id_ne := by decide

/-- No finger on the panel. -/
def noFinger : Sample where
  regs := fun _ => 0
  count_le := by decide
  id_lt := by decide
  id_ne := by decide

/-- Two fingers down, the second one in slot 0. -/
def crossedFingers : Sample where
  regs := fun a => if a = 0x02 then 2 else if a = 0x05 then 0x10 else 0
  count_le := by decide
  id_lt := by decide
  id_ne := by decide

/-- The second finger alone, reported in slot 0. -/
def secondFinger : Sample where
  regs := fun a => if a = 0x02 then 1 else if a = 0x05 then 0x10 else 0
  count_le := by decide
  id_lt := by decide
  id_ne := by decide

/-- Lifting the first of two fingers is not reported as such. -/
theorem exactRun_not_all :
    ¬ ExactRun ⟨(480, 800), 0⟩ [bothFingers, secondFinger] := by
  intro h
  have h' : List.IsChain Follows (.idle :: [bothFingers, secondFinger].map Sample.kind) :=
    (along_exact_iff (construct_fresh _) rfl (by decide) (by decide)).mp h
  revert h'
  simp only [List.map_cons, List.map_nil, List.isChain_cons_cons]
  rintro ⟨_, h2, _⟩
  exact absurd (h2.2 (by decide)) (by decide)

end Touch
