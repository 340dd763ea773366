/-
# `Rpc.Ownership` — who closes the descriptors

Both ends of a local connection in this program, the clients of the common
library and loadd's confd handler, keep their descriptor in a member that an
end of file sets to zero, while the destructors test for `-1`.  So after an end
of file the destructor closes descriptor zero, and nothing closes the
connection's own.  A constructor that throws once it has a socket leaves that
open too.
-/
import ProgrammableLoad.Rpc.ConfdEpHandler

namespace Rpc

open Cpp Program Handles

namespace ConfdEpHandler

/-! ## The whole life of the confd handler -/

/-- `~ConfdEpHandler`, on the side of confd -/
def destroy (s : ConfdEpHandler) : ConfdEpHandler :=
  match s.confdSocket with
  | none => s
  | some fd => { s with descriptors := s.descriptors ++ [.closes fd] }

/-- The handler after its whole life; a constructor that throws runs no
destructor. -/
def lifetime (kernel : Allocator Nat) (failing : Option ConstructStep) (xs : List Input) :
    ConfdEpHandler :=
  match (construct kernel failing).run blank with
  | .error _ s => s
  | .ok _ s => (final (step kernel) s xs).destroy

/-- Over its whole life the handler uses and closes only what it has open, and
closes each descriptor it opened once. -/
def Owns (kernel : Allocator Nat) (failing : Option ConstructStep) (xs : List Input) : Prop :=
  Balanced (lifetime kernel failing xs).descriptors

/-- A constructor that fails once it has a socket. -/
def ConstructStep.late : ConstructStep → Bool
  | .wakeUp => false
  | .dial _ => false
  | _ => true

def Input.isEof : Input → Bool
  | .event flags => flags.eof
  | .request _ => false

/-- No request dials with success. -/
def KeepsSocket (s : ConfdEpHandler) (x : Input) : Prop :=
  ∀ r, x = .request r → s.Redials r → r.dial ≠ none

/-- The constructor does not fail once it has a socket, and there is no end of
file after it; or the socket is descriptor zero and is never replaced. -/
def Sound (kernel : Allocator Nat) (failing : Option ConstructStep) (xs : List Input) : Prop :=
  (∀ step, failing = some step → step.late = false) ∧
    (failing = none → (∀ x ∈ xs, x.isEof = false) ∨
      (kernel.next [] = 0 ∧
        Throughout (step kernel) (fun s x _ _ => s.KeepsSocket x) (constructed kernel) xs))

section Steps

variable {kernel : Allocator Nat} {s t : ConfdEpHandler} {x : Input} {fd : Nat}

/-- What a step does to the descriptors: nothing new is left open, or a new
connection is made. -/
inductive Effect (kernel : Allocator Nat) (s : ConfdEpHandler) (x : Input)
    (t : ConfdEpHandler) : Prop
  | keeps (keeps : s.KeepsSocket x) (held_eq : held t.descriptors = held s.descriptors)
      (socket_eq : t.confdSocket = if x.isEof then some 0 else s.confdSocket)
      (bev_eq : t.bevFd = s.bevFd)
      (flag : x.isEof = false → s.needsNewSocket = false → t.needsNewSocket = false)
      (disciplined : Disciplined s.descriptors → Disciplined t.descriptors)
  | replaces (replaces : ¬ s.KeepsSocket x)
      (held_eq : held t.descriptors
        = insert (kernel.next s.descriptors) (held s.descriptors))
      (socket_eq : t.confdSocket = some (kernel.next s.descriptors))
      (bev_mem : t.bevFd = s.bevFd ∨ t.bevFd = some (kernel.next s.descriptors))

/-- The write at the end of a request changes what is queued at most. -/
theorem forward_effect (r : Request) (hbev : s.bevFd = some fd) (hfd : fd ∈ held s.descriptors)
    {m : EStateM Fault ConfdEpHandler Unit} {u : ConfdEpHandler}
    (hm : m.run u = (forward r).run s) :
    ∃ w t, (catching m).run u = .ok w t ∧ held t.descriptors = held s.descriptors ∧
      t.confdSocket = s.confdSocket ∧ t.bevFd = s.bevFd ∧
      t.needsNewSocket = s.needsNewSocket ∧
      (Disciplined s.descriptors → Disciplined t.descriptors) := by
  rw [forward_run hbev] at hm
  split at hm
  · refine ⟨_, _, catching_run_ok hm, ?_, rfl, rfl, rfl, fun h => .snoc h hfd⟩
    rw [queue, held_snoc]
    rfl
  · exact ⟨_, _, catching_run_thrown hm, rfl, rfl, rfl, rfl, id⟩

theorem keepsSocket_event (flags : BevFlags) : s.KeepsSocket (.event flags) := by
  intro r hx
  cases hx

theorem effect_event (flags : BevFlags) (hbev : s.bevFd = some fd) :
    ∃ w t, (step kernel (.event flags)).run s = .ok w t ∧ Effect kernel s (.event flags) t := by
  have hreport : s.report = { s with reported := insert fd s.reported } := by
    rw [report, hbev]
  have hkeeps := keepsSocket_event (s := s) flags
  rw [step]
  cases heof : flags.eof with
  | true =>
      refine ⟨_, _, catching_run_ok (handleConfdEvent_run_eof heof), ?_⟩
      rw [hreport]
      refine .keeps hkeeps rfl ?_ rfl (?_) id
      · rw [Input.isEof, heof, if_pos rfl]
      · intro hnot
        rw [Input.isEof, heof] at hnot
        cases hnot
  | false =>
      have hsocket : (if (Input.event flags).isEof = true then some 0 else s.confdSocket)
          = s.confdSocket := by
        rw [Input.isEof, heof]
        rfl
      cases herror : flags.error with
      | true =>
          refine ⟨_, _, catching_run_ok (handleConfdEvent_run_error heof herror), ?_⟩
          rw [hreport]
          exact .keeps hkeeps rfl hsocket.symm rfl (fun _ h => h) id
      | false =>
          exact ⟨_, _, catching_run_ok (handleConfdEvent_run_other heof herror),
            .keeps hkeeps rfl hsocket.symm rfl (fun _ h => h) id⟩

/-- A request that finds the flag set dials. -/
theorem effect_redials (r : Request) (h : s.Redials r) :
    ∃ w t, (step kernel (.request r)).run s = .ok w t ∧ Effect kernel s (.request r) t := by
  obtain ⟨hflag, hdrains, hsize⟩ := h
  have hrun := handleRpmsgRead_run_of_drains (s := s) kernel hdrains
  rw [step_run_of_complete hsize]
  cases hdial : r.dial with
  | some failing =>
      obtain ⟨e, ops, hreconnect, hheld, hdisciplined⟩ := reconnect_run_of_dial
        kernel (s := { s with rpmsgRxBuf := r.pending }) hflag hdial
      refine ⟨_, _, catching_run_thrown (hrun.trans (run_bind_of_error hreconnect)),
        .keeps ?_ hheld rfl rfl (fun _ _ => rfl) hdisciplined⟩
      intro r' hr' _
      cases hr'
      rw [hdial]
      exact Option.some_ne_none failing
  | none =>
      have hreplaces : ¬ s.KeepsSocket (.request r) :=
        fun h => h r rfl ⟨hflag, hdrains, hsize⟩ hdial
      have hnew : held (s.descriptors ++ [.opens (kernel.next s.descriptors)])
          = insert (kernel.next s.descriptors) (held s.descriptors) := held_snoc _ _
      cases hsets : r.setsFd with
      | false =>
          have hreconnect := reconnect_run_of_setsFd kernel
            (s := { s with rpmsgRxBuf := r.pending }) hflag hdial hsets
          exact ⟨_, _, catching_run_thrown (hrun.trans (run_bind_of_error hreconnect)),
            .replaces hreplaces hnew rfl (.inl rfl)⟩
      | true =>
          have hreconnect := reconnect_run_of_reconnects kernel
            (s := { s with rpmsgRxBuf := r.pending }) hflag ⟨hdial, hsets⟩
          obtain ⟨w, t, ht, hheld, hsocket, hbev', _⟩ := forward_effect r rfl
            (live_reconnected kernel _).1 (hrun.trans (run_bind_of_ok hreconnect))
          exact ⟨w, t, ht, .replaces hreplaces (hheld.trans hnew) hsocket (.inr hbev')⟩

theorem effect_request (r : Request) (hbev : s.bevFd = some fd)
    (hfd : fd ∈ held s.descriptors) :
    ∃ w t, (step kernel (.request r)).run s = .ok w t ∧ Effect kernel s (.request r) t := by
  by_cases hredials : s.Redials r
  · exact effect_redials r hredials
  · have hkeeps : s.KeepsSocket (.request r) := by
      intro r' hr' h
      cases hr'
      exact absurd h hredials
    by_cases hshort : r.pending.length < headerSize
    · exact ⟨.ok (), s, step_run_of_short hshort, .keeps hkeeps rfl rfl rfl (fun _ h => h) id⟩
    have hsize := Nat.not_lt.mp hshort
    rw [step_run_of_complete hsize]
    cases hdrains : r.drains with
    | false =>
        exact ⟨_, _, catching_run_thrown (handleRpmsgRead_run_of_not_drains kernel hdrains),
          .keeps hkeeps rfl rfl rfl (fun _ h => h) id⟩
    | true =>
        have hflag : s.needsNewSocket = false :=
          Bool.eq_false_iff.mpr fun h => hredials ⟨h, hdrains, hsize⟩
        have hclear := reconnect_run_of_clear kernel r
          (s := { s with rpmsgRxBuf := r.pending }) hflag
        obtain ⟨w, t, ht, hheld, hsocket, hbev', hflag', hdisciplined⟩ := forward_effect
          (s := { s with rpmsgRxBuf := r.pending }) r hbev hfd
          ((handleRpmsgRead_run_of_drains kernel hdrains).trans (run_bind_of_ok hclear))
        exact ⟨w, t, ht, .keeps hkeeps hheld hsocket hbev' (fun _ h => hflag'.trans h)
          hdisciplined⟩

variable (kernel) in
theorem effect_step (x : Input) (hbev : s.bevFd = some fd) (hfd : fd ∈ held s.descriptors) :
    ∃ w t, (step kernel x).run s = .ok w t ∧ Effect kernel s x t := by
  cases x with
  | event flags => exact effect_event flags hbev
  | request r => exact effect_request r hbev hfd

/-- The descriptor of the buffer event is open. -/
def BevOpen (s : ConfdEpHandler) : Prop := ∃ fd, s.bevFd = some fd ∧ fd ∈ held s.descriptors

theorem Effect.bevOpen (h : Effect kernel s x t) (hs : s.BevOpen) : t.BevOpen := by
  obtain ⟨fd, hbev, hfd⟩ := hs
  cases h with
  | keeps _ held_eq _ bev_eq _ _ => exact ⟨fd, bev_eq.trans hbev, held_eq ▸ hfd⟩
  | replaces _ held_eq _ bev_mem =>
      rw [BevOpen, held_eq]
      rcases bev_mem with hsame | hnew
      · exact ⟨fd, hsame.trans hbev, Finset.mem_insert_of_mem hfd⟩
      · exact ⟨_, hnew, Finset.mem_insert_self _ _⟩

/-- What was opened stays open. -/
theorem Effect.held_subset (h : Effect kernel s x t) :
    held s.descriptors ⊆ held t.descriptors := by
  cases h with
  | keeps _ held_eq _ _ _ _ => rw [held_eq]
  | replaces _ held_eq _ _ =>
      rw [held_eq]
      exact Finset.subset_insert _ _

/-- The handler has one connection, its own, and has used no other. -/
structure OwnsOne (fd : Nat) (s : ConfdEpHandler) : Prop where
  socket_eq : s.confdSocket = some fd
  bev_eq : s.bevFd = some fd
  held_eq : held s.descriptors = {fd}
  disciplined : Disciplined s.descriptors

theorem OwnsOne.bevOpen (h : s.OwnsOne fd) : s.BevOpen := by
  refine ⟨fd, h.bev_eq, ?_⟩
  rw [h.held_eq]
  exact Finset.mem_singleton_self fd

theorem Effect.ownsOne (h : Effect kernel s x t) (hs : s.OwnsOne fd)
    (hkeeps : s.KeepsSocket x) (hx : x.isEof = false ∨ fd = 0) : t.OwnsOne fd := by
  cases h with
  | keeps _ held_eq socket_eq bev_eq _ disciplined =>
      refine ⟨?_, bev_eq.trans hs.bev_eq, held_eq.trans hs.held_eq, disciplined hs.disciplined⟩
      rw [socket_eq]
      split
      · rename_i heof
        rcases hx with hx | rfl
        · rw [heof] at hx
          cases hx
        · rfl
      · exact hs.socket_eq
  | replaces replaces _ _ _ => exact absurd hkeeps replaces

/-- A connection that is open and is not that of the member. -/
def Lost (fd : Nat) (s : ConfdEpHandler) : Prop :=
  fd ∈ held s.descriptors ∧ s.confdSocket ≠ some fd

theorem Effect.lost (h : Effect kernel s x t) (hfd : fd ≠ 0) (hs : s.Lost fd) : t.Lost fd := by
  refine ⟨h.held_subset hs.1, ?_⟩
  cases h with
  | keeps _ _ socket_eq _ _ _ =>
      rw [socket_eq]
      split
      · intro heq
        exact hfd (Option.some.inj heq).symm
      · exact hs.2
  | replaces _ _ socket_eq _ =>
      rw [socket_eq]
      intro heq
      exact kernel.fresh s.descriptors ((Option.some.inj heq).symm ▸ hs.1)

variable (kernel) in
theorem effect_stateAfter (x : Input) (hs : s.BevOpen) :
    Effect kernel s x (stateAfter (step kernel x) s) := by
  obtain ⟨fd, hbev, hfd⟩ := hs
  obtain ⟨w, t, ht, heffect⟩ := effect_step kernel x hbev hfd
  rw [stateAfter_of_ok ht]
  exact heffect

end Steps

/-! ## Runs and the end -/

section Life

variable {kernel : Allocator Nat} {s : ConfdEpHandler} {xs : List Input} {fd : Nat}

theorem balanced_destroy (h : s.OwnsOne fd) : Balanced s.destroy.descriptors := by
  have hdestroy : s.destroy = { s with descriptors := s.descriptors ++ [.closes fd] } := by
    rw [destroy, h.socket_eq]
  rw [hdestroy]
  exact balanced_snoc_closes h.disciplined h.held_eq

/-- The destructor closes one descriptor at most. -/
theorem held_destroy (s : ConfdEpHandler) :
    held s.destroy.descriptors = held s.descriptors ∨
      ∃ fd, s.confdSocket = some fd ∧
        held s.destroy.descriptors = (held s.descriptors).erase fd := by
  unfold destroy
  cases hsocket : s.confdSocket with
  | none => exact .inl rfl
  | some fd => exact .inr ⟨fd, rfl, held_snoc _ _⟩

theorem not_balanced_of_lost (h : s.Lost fd) : ¬ Balanced s.destroy.descriptors := by
  refine not_balanced_of_mem (d := fd) ?_
  rcases held_destroy s with hheld | ⟨own, hown, hheld⟩
  · rw [hheld]
    exact h.1
  · rw [hheld]
    refine Finset.mem_erase.mpr ⟨?_, h.1⟩
    rintro rfl
    exact h.2 hown

theorem not_balanced_of_two (h : 2 ≤ (held s.descriptors).card) :
    ¬ Balanced s.destroy.descriptors := by
  rintro ⟨_, hempty⟩
  rcases held_destroy s with hheld | ⟨own, _, hheld⟩
  · rw [← hheld, hempty, Finset.card_empty] at h
    omega
  · have hle := Finset.pred_card_le_card_erase (s := held s.descriptors) (a := own)
    rw [← hheld, hempty, Finset.card_empty] at hle
    omega

/-- Without an end of file nothing is replaced. -/
theorem ownsOne_final_of_no_eof (hs : s.OwnsOne fd) (hflag : s.needsNewSocket = false)
    (hxs : ∀ x ∈ xs, x.isEof = false) : (final (step kernel) s xs).OwnsOne fd := by
  refine (final_keeps (I := fun s : ConfdEpHandler => s.OwnsOne fd ∧ s.needsNewSocket = false) ?_
    ⟨hs, hflag⟩).1
  · rintro x hx u ⟨hu, hclear⟩
    have hkeeps : u.KeepsSocket x := by
      intro r _ hredials
      rw [hredials.1] at hclear
      cases hclear
    have heffect := effect_stateAfter kernel x hu.bevOpen
    refine ⟨heffect.ownsOne hu hkeeps (.inl (hxs x hx)), ?_⟩
    cases heffect with
    | keeps _ _ _ _ flag _ => exact flag (hxs x hx) hclear
    | replaces replaces _ _ _ => exact absurd hkeeps replaces

/-- Descriptor zero stays the handler's own as long as it is not replaced. -/
theorem ownsOne_final_zero (hs : s.OwnsOne 0)
    (hxs : Throughout (step kernel) (fun s x _ _ => s.KeepsSocket x) s xs) :
    (final (step kernel) s xs).OwnsOne 0 := by
  induction xs generalizing s with
  | nil => exact hs
  | cons x xs ih =>
      have heffect := effect_stateAfter kernel x hs.bevOpen
      obtain ⟨fd, hbev, hfd⟩ := hs.bevOpen
      obtain ⟨w, t, ht, _⟩ := effect_step kernel x hbev hfd
      obtain ⟨hkeeps, hrest⟩ := hxs w t ht
      rw [← stateAfter_of_ok ht] at hrest
      exact ih (heffect.ownsOne hs hkeeps (.inr rfl)) hrest

/-- After an end of file the first connection is never closed. -/
theorem lost_final {x : Input} (hx : x ∈ xs) (heof : x.isEof = true) (hfd : fd ≠ 0)
    (hs : s.BevOpen) (hmem : fd ∈ held s.descriptors) :
    (final (step kernel) s xs).Lost fd := by
  obtain ⟨before, after, rfl⟩ := List.append_of_mem hx
  have hbefore : (final (step kernel) s before).BevOpen ∧
      fd ∈ held (final (step kernel) s before).descriptors := final_keeps
    (I := fun s : ConfdEpHandler => s.BevOpen ∧ fd ∈ held s.descriptors)
    (fun y _ u hu => ⟨(effect_stateAfter kernel y hu.1).bevOpen hu.1,
      (effect_stateAfter kernel y hu.1).held_subset hu.2⟩) ⟨hs, hmem⟩
  have heffect := effect_stateAfter kernel x hbefore.1
  rw [final_append]
  refine (final_keeps (I := fun s : ConfdEpHandler => s.BevOpen ∧ s.Lost fd)
    (fun y _ u hu => ⟨(effect_stateAfter kernel y hu.1).bevOpen hu.1,
      (effect_stateAfter kernel y hu.1).lost hfd hu.2⟩)
    ⟨heffect.bevOpen hbefore.1, heffect.held_subset hbefore.2, ?_⟩).2
  cases heffect with
  | keeps _ _ socket_eq _ _ _ =>
      rw [socket_eq, if_pos heof]
      exact fun heq => hfd (Option.some.inj heq).symm
  | replaces replaces _ _ _ =>
      cases x with
      | event flags => exact absurd (fun _ hr => nomatch hr) replaces
      | request r => cases heof

/-- A connection that was replaced is never closed. -/
theorem two_final (hs : s.BevOpen)
    (hxs : ¬ Throughout (step kernel) (fun s x _ _ => s.KeepsSocket x) s xs) :
    2 ≤ (held (final (step kernel) s xs).descriptors).card := by
  induction xs generalizing s with
  | nil => exact absurd trivial hxs
  | cons x xs ih =>
      have heffect := effect_stateAfter kernel x hs
      obtain ⟨fd, hbev, hfd⟩ := hs
      obtain ⟨w, t, ht, _⟩ := effect_step kernel x hbev hfd
      have hopen := heffect.bevOpen ⟨fd, hbev, hfd⟩
      by_cases hkeeps : s.KeepsSocket x
      · refine ih hopen fun hrest => hxs ?_
        rw [stateAfter_of_ok ht] at hrest
        exact (throughout_cons_of_run ht).mpr ⟨hkeeps, hrest⟩
      · have htwo : 2 ≤ (held (stateAfter (step kernel x) s).descriptors).card := by
          cases heffect with
          | keeps keeps _ _ _ _ _ => exact absurd keeps hkeeps
          | replaces _ held_eq _ _ =>
              rw [held_eq, Finset.card_insert_of_notMem (kernel.fresh s.descriptors)]
              have hpos := Finset.card_pos.mpr ⟨fd, hfd⟩
              omega
        refine (final_keeps (I := fun s : ConfdEpHandler =>
          s.BevOpen ∧ 2 ≤ (held s.descriptors).card) ?_ ⟨hopen, htwo⟩).2
        rintro y _ u ⟨hu, hcard⟩
        have hnext := effect_stateAfter kernel y hu
        exact ⟨hnext.bevOpen hu, Nat.le_trans hcard (Finset.card_le_card hnext.held_subset)⟩

theorem ownsOne_constructed (kernel : Allocator Nat) :
    (constructed kernel).OwnsOne (kernel.next []) where
  socket_eq := rfl
  bev_eq := rfl
  held_eq := rfl
  disciplined := disciplined_opens kernel .nil

/-- A constructor that fails late leaves the socket open. -/
theorem not_balanced_of_opened {s : ConfdEpHandler}
    (h : s.descriptors = [.opens (kernel.next [])]) : ¬ Balanced s.descriptors := by
  rw [h]
  exact not_balanced_of_mem (Finset.mem_insert_self _ _)

variable (kernel) in
/-- A constructor that fails leaves the socket open if it had one. -/
theorem construct_run_some (step : ConstructStep) :
    ∃ e s, (construct kernel (some step)).run blank = .error e s ∧
      (Balanced s.descriptors ↔ step.late = false) := by
  cases step with
  | wakeUp => exact ⟨_, blank, rfl, iff_of_true ⟨.nil, rfl⟩ rfl⟩
  | dial failing =>
      obtain ⟨e, ops, hconnect, hheld, hdisciplined⟩ := connectToConfd_run_some kernel blank failing
      exact ⟨_, _, run_bind_of_error hconnect, iff_of_true ⟨hdisciplined .nil, hheld⟩ rfl⟩
  | createConfdEvent =>
      exact ⟨_, _, rfl, iff_of_false (not_balanced_of_opened rfl) Bool.false_ne_true.symm⟩
  | makeNonblocking =>
      exact ⟨_, _, rfl, iff_of_false (not_balanced_of_opened rfl) Bool.false_ne_true.symm⟩
  | createRpmsgEvent =>
      exact ⟨_, _, rfl, iff_of_false (not_balanced_of_opened rfl) Bool.false_ne_true.symm⟩
  | enableConfdEvent =>
      exact ⟨_, _, rfl, iff_of_false (not_balanced_of_opened rfl) Bool.false_ne_true.symm⟩
  | enableRpmsgEvent =>
      exact ⟨_, _, rfl, iff_of_false (not_balanced_of_opened rfl) Bool.false_ne_true.symm⟩

theorem owns_iff (kernel : Allocator Nat) (failing : Option ConstructStep) (xs : List Input) :
    Owns kernel failing xs ↔ Sound kernel failing xs := by
  cases failing with
  | some step' =>
      obtain ⟨e, s, hs, hiff⟩ := construct_run_some kernel step'
      rw [Owns, lifetime, hs]
      refine hiff.trans ⟨fun h => ⟨?_, fun hnone => (nomatch hnone)⟩, fun h => h.1 step' rfl⟩
      intro step hstep
      cases hstep
      exact h
  | none =>
      have hlife : lifetime kernel none xs
          = (final (step kernel) (constructed kernel) xs).destroy := by
        rw [lifetime, construct_run_none]
      have howns := ownsOne_constructed kernel
      rw [Owns, hlife]
      constructor
      · intro hbalanced
        refine ⟨fun _ hstep => (nomatch hstep), ?_⟩
        intro _
        by_cases heof : ∀ x ∈ xs, x.isEof = false
        · exact .inl heof
        · simp only [not_forall, Bool.not_eq_false] at heof
          obtain ⟨x, hx, hxeof⟩ := heof
          have hzero : kernel.next [] = 0 := by
            by_contra hfd
            exact not_balanced_of_lost (lost_final hx hxeof hfd howns.bevOpen
              (by rw [howns.held_eq]; exact Finset.mem_singleton_self _)) hbalanced
          refine .inr ⟨hzero, ?_⟩
          by_contra hxs
          exact not_balanced_of_two (two_final howns.bevOpen hxs) hbalanced
      · rintro ⟨_, h⟩
        rcases h rfl with heof | ⟨hzero, hxs⟩
        · exact balanced_destroy (ownsOne_final_of_no_eof howns rfl heof)
        · rw [hzero] at howns
          exact balanced_destroy (ownsOne_final_zero howns hxs)

end Life

end ConfdEpHandler

/-! ## Both ends -/

/-- A client that owns its descriptors closes each as often as it opens it. -/
theorem ClientSocket.Owns.opened_eq_closed {kernel : Allocator Nat}
    {failing : Option ClientSocket.ConstructStep} {xs : List ClientSocket.Input}
    (h : ClientSocket.Owns kernel failing xs) (fd : Nat) :
    opened fd (ClientSocket.lifetime kernel failing xs).descriptors
      = closed fd (ClientSocket.lifetime kernel failing xs).descriptors :=
  h.balanced.opened_eq_closed fd

/-- So does the handler. -/
theorem ConfdEpHandler.Owns.opened_eq_closed {kernel : Allocator Nat}
    {failing : Option ConfdEpHandler.ConstructStep} {xs : List ConfdEpHandler.Input}
    (h : ConfdEpHandler.Owns kernel failing xs) (fd : Nat) :
    opened fd (ConfdEpHandler.lifetime kernel failing xs).descriptors
      = closed fd (ConfdEpHandler.lifetime kernel failing xs).descriptors :=
  Balanced.opened_eq_closed h fd

/-- The objects own their descriptors over their whole lives if and only if no
constructor fails once it has a socket and no end of file comes, or the end of
file finds the object on descriptor zero. -/
theorem descriptors_owned_iff (kernel : Allocator Nat)
    (failing : Option ClientSocket.ConstructStep) (xs : List ClientSocket.Input)
    (confdFailing : Option ConfdEpHandler.ConstructStep) (ys : List ConfdEpHandler.Input) :
    (ClientSocket.Owns kernel failing xs ↔ ClientSocket.Sound kernel failing xs) ∧
    (ConfdEpHandler.Owns kernel confdFailing ys ↔
      ConfdEpHandler.Sound kernel confdFailing ys) :=
  ⟨ClientSocket.owns_iff kernel failing xs, ConfdEpHandler.owns_iff kernel confdFailing ys⟩

/-- After an end of file either object closes descriptor zero and not its own,
and the client's send goes to descriptor zero. -/
theorem not_owned_after_eof :
    ¬ ClientSocket.Owns (.lowest 3) none [.event BEV_EVENT_EOF, .send true] ∧
    ¬ ConfdEpHandler.Owns (.lowest 3) none [.event BEV_EVENT_EOF] := by
  constructor
  · rintro ⟨_, hsends⟩
    obtain ⟨_, hsends⟩ := hsends _ rfl _ _ rfl
    obtain ⟨hfails, _⟩ := hsends _ _ rfl
    exact hfails true rfl rfl rfl
  · rintro ⟨_, hempty⟩
    revert hempty
    decide

end Rpc
