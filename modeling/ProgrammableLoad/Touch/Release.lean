/-
# `Touch.Release` — when an empty sample ends a touch

An empty sample should leave both flags clear, say so in one broadcast, and let
the driver fall silent: `Settles`.  Whether it does depends on the phase the
samples before it lead to.  In `swapped` and `stuck` the entry `touchIds[0]`
does not name slot 0, both clears go to slot 1, and the flag of slot 0 stays up
for good.

`Releases` says which samples lead to the other phases.  It looks back from the
end, over empty samples, for the last sample with a point in it:

    none, or touch 0 in slot 0, alone or not            released
    a lone touch 1 straight after a swapped pair        released
    a row of lone touches 1 straight after a sample
      with touch 0 in slot 0                            released
    anything else                                       not

A run has to get that far: with a lone touch 1 as its first touch, the driver
reads an entry of `touchIds` that was never written.
-/
import ProgrammableLoad.Touch.Reporting

namespace Touch

open Cpp Cbor Ft6336 Program

/-! ## The property -/

/-- The empty sample `z` ends every touch of the driver `d`: no flag is set
afterwards, the broadcast it causes reports both touches as absent, and no
further empty sample causes a broadcast or changes the driver. -/
def Settles (d : Ft6336) (z : Sample) : Prop :=
  ∃ out t, (poll z).run d = .ok out t ∧
    (t.p1HasData = false ∧ t.p2HasData = false) ∧
    (d.p1HasData = true ∨ d.p2HasData = true → ∃ msg, out = some msg ∧
      reportedTouch msg 0 = some none ∧ reportedTouch msg 1 = some none) ∧
    ∀ zs : List Sample, (∀ y ∈ zs, numPoints y.regs = 0) →
      Steps poll t zs (zs.map fun _ => none) t

/-- The first touch of the samples is a touch 1 alone. -/
def LoneFirst (ks : List Kind) : Prop :=
  ∃ before after, ks = before ++ .lone1 :: after ∧ ∀ k ∈ before, k = .idle

/-- The samples that leave no touch behind for an empty one. -/
inductive Releases : List Kind → Prop
  | nil : Releases []
  | zero {before ones : List Kind} {k : Kind} : k = .lone0 ∨ k = .inOrder →
      (∀ one ∈ ones, one = .lone1) → Releases (before ++ k :: ones)
  | one (before : List Kind) : Releases (before ++ [.swapped, .lone1])
  | idle {before : List Kind} : Releases before → Releases (before ++ [.idle])

/-! ## One empty sample, by phase -/

/-- The phases an empty sample settles in. -/
def Phase.Settled (p : Phase) : Prop := p ≠ .swapped ∧ p ≠ .stuck

instance (p : Phase) : Decidable p.Settled :=
  inferInstanceAs (Decidable (p ≠ .swapped ∧ p ≠ .stuck))

section Step

variable {d : Ft6336} {z : Sample}

theorem steps_silent (h1 : d.p1HasData = false) (h2 : d.p2HasData = false) :
    ∀ zs : List Sample, (∀ y ∈ zs, numPoints y.regs = 0) →
      Steps poll d zs (zs.map fun _ => none) d
  | [], _ => .nil d
  | y :: zs, h =>
      .cons (poll_idle_silent (h y List.mem_cons_self) h1 h2)
        (steps_silent h1 h2 zs fun y' hy' => h y' (List.mem_cons_of_mem _ hy'))

theorem settles_of_silent (hz : numPoints z.regs = 0) (h1 : d.p1HasData = false)
    (h2 : d.p2HasData = false) : Settles d z := by
  refine ⟨none, d, poll_idle_silent hz h1 h2, ⟨h1, h2⟩, ?_, steps_silent h1 h2⟩
  rintro (h | h)
  · rw [h1] at h
    cases h
  · rw [h2] at h
    cases h

theorem settles_of_idle_next {t : Ft6336}
    (hrun : (updateTouchState z.regs).run d = .ok (some (touchMessage none none)) t)
    (ht : Phase.idle.Holds t) : Settles d z := by
  refine ⟨_, t, hrun, ⟨ht.1, ht.2.1⟩, fun _ => ?_, steps_silent ht.1 ht.2.1⟩
  exact ⟨_, rfl, reportedTouch_touchMessage none none⟩

theorem not_settles_of_held (hz : numPoints z.regs = 0) (hp1 : d.p1HasData = true)
    {id : BitVec 8} (h0 : d.touchIds 0 = some id) (hid : id = 1 ∨ id = 0xff) :
    ¬ Settles d z := by
  rintro ⟨out, t, hrun, ⟨ht1, _⟩, _⟩
  obtain ⟨_, u, hrun', _, hu, _⟩ := poll_idle_held hz hp1 h0 hid
  have hpoll : (poll z).run d = _ := hrun'
  rw [hpoll] at hrun
  cases hrun
  rw [hu.1] at ht1
  cases ht1

/-- An empty sample settles the driver in every phase but two. -/
theorem settles_iff_settled {p : Phase} (hd : p.Holds d) (hz : numPoints z.regs = 0) :
    Settles d z ↔ p.Settled := by
  cases p with
  | fresh | idle => exact iff_of_true (settles_of_silent hz hd.1 hd.2.1) (by decide)
  | zero | one =>
      obtain ⟨t, hrun, ht, _⟩ := poll_idle_releases hz hd (by simp)
      exact iff_of_true (settles_of_idle_next hrun ht) (by decide)
  | swapped | stuck =>
      obtain ⟨hp1, id, h0, hid⟩ := hd.held (by simp)
      exact iff_of_false (not_settles_of_held hz hp1 h0 hid) (by decide)

end Step

/-! ## The phase a run leads to -/

/-- A run exists exactly where the phases do not break off, and ends in the
phase they lead to. -/
theorem steps_phase : ∀ (samples : List Sample) {p : Phase} {d : Ft6336}, p.Holds d →
    match (samples.map Sample.kind).foldlM Phase.next p with
    | none => ¬ ∃ outs t, Steps poll d samples outs t
    | some q => ∃ outs t, Steps poll d samples outs t ∧ q.Holds t
  | [], p, d, hd => ⟨[], d, .nil d, hd⟩
  | s :: samples, p, d, hd => by
      have hstep := poll_phase hd s
      rw [List.map_cons, List.foldlM_cons]
      cases hq : p.next s.kind with
      | none =>
          rw [hq] at hstep
          obtain ⟨e, u, hrun⟩ := hstep
          rintro ⟨outs, t, hsteps⟩
          obtain ⟨w, u', _, _, hrun', _⟩ := steps_cons_iff.mp hsteps
          have hpoll : (poll s).run d = .error e u := hrun
          rw [hpoll] at hrun'
          cases hrun'
      | some q =>
          rw [hq] at hstep
          obtain ⟨out, u, hrun, hu, _⟩ := hstep
          have hrest := steps_phase samples hu
          simp only [Option.bind_eq_bind, Option.bind_some]
          cases hfold : (samples.map Sample.kind).foldlM Phase.next q with
          | none =>
              rw [hfold] at hrest
              rintro ⟨outs, t, hsteps⟩
              obtain ⟨w, u', outs', _, hrun', hsteps'⟩ := steps_cons_iff.mp hsteps
              have hpoll : (poll s).run d = .ok out u := hrun
              rw [hpoll] at hrun'
              cases hrun'
              exact hrest ⟨outs', t, hsteps'⟩
          | some r =>
              rw [hfold] at hrest
              obtain ⟨outs, t, hsteps, ht⟩ := hrest
              exact ⟨out :: outs, t, .cons hrun hsteps, ht⟩

theorem foldlM_next_append {ks ls : List Kind} {p r : Phase} :
    (ks ++ ls).foldlM Phase.next p = some r ↔
      ∃ q, ks.foldlM Phase.next p = some q ∧ ls.foldlM Phase.next q = some r := by
  rw [List.foldlM_append]
  exact Option.bind_eq_some_iff

theorem foldlM_next_single {k : Kind} {p : Phase} :
    [k].foldlM Phase.next p = p.next k := by
  rw [List.foldlM_cons]
  exact bind_pure _

theorem foldlM_next_ne_none : ∀ (ks : List Kind) {p : Phase}, p ≠ .fresh →
    ks.foldlM Phase.next p ≠ none
  | [], _, _ => by simp
  | k :: ks, p, hp => by
      have hnext : ∃ q, p.next k = some q ∧ q ≠ .fresh := by
        cases p <;> cases k <;> simp_all [Phase.next]
      obtain ⟨q, hq, hqf⟩ := hnext
      rw [List.foldlM_cons, hq]
      exact foldlM_next_ne_none ks hqf

theorem loneFirst_cons {k : Kind} {ks : List Kind} :
    LoneFirst (k :: ks) ↔ k = .lone1 ∨ k = .idle ∧ LoneFirst ks := by
  constructor
  · rintro ⟨before, after, heq, hidle⟩
    cases before with
    | nil =>
        cases heq
        exact Or.inl rfl
    | cons b before =>
        rw [List.cons_append, List.cons.injEq] at heq
        obtain ⟨rfl, rfl⟩ := heq
        refine Or.inr ⟨hidle k List.mem_cons_self, before, after, rfl, ?_⟩
        exact fun k' hk' => hidle k' (List.mem_cons_of_mem _ hk')
  · rintro (rfl | ⟨rfl, before, after, rfl, hidle⟩)
    · exact ⟨[], ks, rfl, by simp⟩
    · exact ⟨.idle :: before, after, rfl, by simpa using hidle⟩

theorem foldlM_next_eq_none_iff : ∀ (ks : List Kind),
    ks.foldlM Phase.next .fresh = none ↔ LoneFirst ks
  | [] => by simp [LoneFirst]
  | k :: ks => by
      rw [List.foldlM_cons, loneFirst_cons]
      cases k with
      | idle => simpa [Phase.next] using foldlM_next_eq_none_iff ks
      | lone1 => simp [Phase.next]
      | lone0 | inOrder | swapped =>
          simpa [Phase.next] using foldlM_next_ne_none ks (by decide)

/-! ## Which samples lead where -/

/-- What the samples that lead to a phase have to end with. -/
def Phase.Trace : Phase → List Kind → Prop
  | .fresh, ks | .idle, ks => Releases ks
  | .zero, ks => ∃ before k ones, ks = before ++ k :: ones ∧
      (k = .lone0 ∨ k = .inOrder) ∧ ∀ one ∈ ones, one = .lone1
  | .swapped, ks => ∃ before, ks = before ++ [.swapped]
  | .one, ks => ∃ before, ks = before ++ [.swapped, .lone1]
  | .stuck, _ => True

theorem Phase.Trace.releases {p : Phase} {ks : List Kind} (h : p.Trace ks)
    (hp : p.Settled) : Releases ks := by
  cases p with
  | fresh | idle => exact h
  | zero =>
      obtain ⟨before, k, ones, rfl, hk, hones⟩ := h
      exact .zero hk hones
  | one =>
      obtain ⟨before, rfl⟩ := h
      exact .one before
  | swapped => exact absurd rfl hp.1
  | stuck => exact absurd rfl hp.2

theorem Phase.Trace.append {p q : Phase} {k : Kind} {ks : List Kind} (h : p.Trace ks)
    (hq : p.next k = some q) : q.Trace (ks ++ [k]) := by
  have hzero : k = .lone0 ∨ k = .inOrder → Phase.zero.Trace (ks ++ [k]) :=
    fun hk => ⟨ks, k, [], rfl, hk, by simp⟩
  cases k with
  | lone0 =>
      have hz := hzero (by simp)
      cases p <;> cases hq <;> exact hz
  | inOrder =>
      have hz := hzero (by simp)
      cases p <;> cases hq <;> exact hz
  | swapped => cases p <;> cases hq <;> exact ⟨ks, rfl⟩
  | lone1 =>
      cases p with
      | fresh => cases hq
      | zero =>
          cases hq
          obtain ⟨before, k, ones, rfl, hk, hones⟩ := h
          refine ⟨before, k, ones ++ [.lone1], by simp, hk, ?_⟩
          simpa [or_imp, forall_and] using hones
      | swapped =>
          cases hq
          obtain ⟨before, rfl⟩ := h
          exact ⟨before, by simp⟩
      | idle | one | stuck =>
          cases hq
          trivial
  | idle =>
      have hrel : p.Settled → Releases (ks ++ [.idle]) := fun hp => .idle (h.releases hp)
      cases p with
      | fresh | idle | zero | one =>
          cases hq
          exact hrel (by decide)
      | swapped | stuck =>
          cases hq
          trivial

theorem trace_of_foldlM {ks : List Kind} : ∀ {p : Phase},
    ks.foldlM Phase.next .fresh = some p → p.Trace ks := by
  induction ks using List.reverseRecOn with
  | nil =>
      intro p hp
      cases hp
      exact .nil
  | append_singleton ks k ih =>
      intro p hp
      obtain ⟨q, hq, hnext⟩ := foldlM_next_append.mp hp
      rw [foldlM_next_single] at hnext
      exact (ih hq).append hnext

theorem foldlM_ones : ∀ (ones : List Kind), (∀ one ∈ ones, one = .lone1) →
    ones.foldlM Phase.next .zero = some .zero
  | [], _ => rfl
  | one :: ones, h => by
      obtain rfl := h one List.mem_cons_self
      exact foldlM_ones ones fun o ho => h o (List.mem_cons_of_mem _ ho)

/-- Released samples lead to a phase that settles. -/
theorem Releases.settled {ks : List Kind} (h : Releases ks) : ∀ {p : Phase},
    ks.foldlM Phase.next .fresh = some p → p.Settled := by
  induction h with
  | nil =>
      intro p hp
      cases hp
      decide
  | @zero before ones k hk hones =>
      intro p hp
      obtain ⟨q, _, hp⟩ := foldlM_next_append.mp hp
      have hnext : q.next k = some .zero := by
        rcases hk with rfl | rfl <;> cases q <;> rfl
      rw [List.foldlM_cons, hnext] at hp
      cases (foldlM_ones ones hones).symm.trans hp
      decide
  | one before =>
      intro p hp
      obtain ⟨q, _, hp⟩ := foldlM_next_append.mp hp
      cases q <;> cases hp <;> decide
  | @idle before _ ih =>
      intro p hp
      obtain ⟨q, hq, hnext⟩ := foldlM_next_append.mp hp
      rw [foldlM_next_single] at hnext
      have hset := ih hq
      cases q <;> cases hnext <;> revert hset <;> decide

/-! ## Runs that end in an empty sample -/

/-- An empty sample at the end of a run settles the driver if and only if the
first touch was not touch 1 alone and the samples before it release. -/
theorem settles_iff_releases (panel : Panel) (samples : List Sample) (z : Sample)
    (hz : numPoints z.regs = 0) :
    (∃ outs d, Steps poll (construct panel) samples outs d ∧ Settles d z) ↔
      ¬ LoneFirst (samples.map Sample.kind) ∧ Releases (samples.map Sample.kind) := by
  have hphase := steps_phase samples (construct_fresh panel)
  rw [← foldlM_next_eq_none_iff]
  cases hq : (samples.map Sample.kind).foldlM Phase.next .fresh with
  | none =>
      rw [hq] at hphase
      constructor
      · rintro ⟨outs, d, hsteps, _⟩
        exact absurd ⟨outs, d, hsteps⟩ hphase
      · rintro ⟨hne, _⟩
        exact absurd rfl hne
  | some q =>
      rw [hq] at hphase
      obtain ⟨outs, d, hsteps, hd⟩ := hphase
      constructor
      · rintro ⟨outs', d', hsteps', hset⟩
        obtain ⟨_, rfl⟩ := hsteps.det hsteps'
        have hsettled := (settles_iff_settled hd hz).mp hset
        exact ⟨by simp, (trace_of_foldlM hq).releases hsettled⟩
      · rintro ⟨_, hrel⟩
        exact ⟨outs, d, hsteps, (settles_iff_settled hd hz).mpr (hrel.settled hq)⟩

/-- Released in the order they were pressed, crossed fingers settle. -/
theorem settles_crossedFingers_secondFinger :
    ∃ outs d, Steps poll (construct ⟨(480, 800), 0⟩) [crossedFingers, secondFinger] outs d ∧
      Settles d noFinger := by
  refine (settles_iff_releases _ _ noFinger (by decide)).mpr ⟨?_, .one []⟩
  rw [← foldlM_next_eq_none_iff]
  decide

/-- Released at once, they do not: touch 0 stays. -/
theorem not_settles_crossedFingers :
    ∃ outs d, Steps poll (construct ⟨(480, 800), 0⟩) [crossedFingers] outs d ∧
      ¬ Settles d noFinger := by
  obtain ⟨t, hrun, ht, _⟩ := poll_swapped (s := crossedFingers)
    (d := construct ⟨(480, 800), 0⟩) (by decide) (by decide) (by decide)
  refine ⟨_, t, .cons hrun (.nil t), ?_⟩
  rw [settles_iff_settled ht (by decide)]
  decide

end Touch
