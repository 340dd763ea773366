/-
# `Rpc.Registry` — the client maps of the two servers and the open sockets

loadd's server accepts its clients the way pinballd's does, but keeps them by
the address of their buffer event, and catches every exception of a callback.
Descriptors and addresses may be given out again once they were closed or
freed.

In both servers the entries of the map are the accepted sockets that are open,
in every run in which no accept fails after the socket was accepted.
-/
import ProgrammableLoad.Rpc.Process

namespace Rpc

open Cpp Cbor Led Program Handles Table

/-! ## loadd -/

namespace RpcServer

/-- One turn of the event loop, with a read watermark of a header; the answer is
the exception that was logged, if there was one. -/
def step (kernel heap : Allocator Nat) (cbor : Libcbor) (x : ServerInput) :
    EStateM Fault RpcServer (Except Exception Unit) := do
  let s ← get
  match x with
  | .accept failing => catching (acceptClient kernel heap failing)
  | .read ev pending drains =>
      if ev ∈ s.enabled ∧ headerSize ≤ pending.length then
        clientCallback ev (handleClientRead cbor ev pending drains)
      else
        return .ok ()
  | .event ev =>
      if ev ∈ s.enabled then clientCallback ev (handleClientEvent ev) else return .ok ()

/-- The server is up and has no clients. -/
def start : RpcServer := ⟨∅, [], [], ∅⟩

/-- The client's socket is open, and no other client has it. -/
structure Registered (s : RpcServer) : Prop where
  disciplined : Disciplined s.descriptors
  mem_held_iff : ∀ fd, fd ∈ held s.descriptors ↔
    ∃ ev client, s.clients.lookup ev = some client ∧ client.socket = fd
  unique : ∀ ev ev' client client', s.clients.lookup ev = some client →
    s.clients.lookup ev' = some client' → client.socket = client'.socket → ev = ev'

/-- A step leaves the map so, inserts under a new key, and finds the client it
removes. -/
def Accounts (heap : Allocator Nat) (s : RpcServer) (x : ServerInput)
    (answer : Except Exception Unit) (t : RpcServer) : Prop :=
  t.Registered ∧ (x = .accept none → heap.next s.events ∉ s.clients) ∧
    ∀ ev, x = .event ev → answer = .ok ()

/-- No accept goes wrong after the socket was accepted. -/
def AcceptsWhole (_ : RpcServer) (x : ServerInput) (_ : Except Exception Unit)
    (_ : RpcServer) : Prop := ¬ x.FailsLate

/-- The buffer events that are enabled are those of the entries. -/
structure Inv (s : RpcServer) : Prop where
  registered : s.Registered
  mem_enabled_iff : ∀ ev, ev ∈ s.enabled ↔ ev ∈ s.clients
  mem_events : ∀ ev, ev ∈ s.clients → ev ∈ held s.events

theorem inv_start : start.Inv where
  registered := ⟨.nil, fun fd => by simp [start], fun ev ev' client client' h => by
    simp [start] at h⟩
  mem_enabled_iff ev := by simp [start]
  mem_events ev h := absurd h (AList.notMem_empty ev)

section Steps

variable {kernel heap : Allocator Nat} {cbor : Libcbor} {s t : RpcServer} {ev : Nat}
  {answer : Except Exception Unit}

/-- The invariant is about the sockets of the entries, and so is not touched by
a change of other members. -/
theorem inv_modifyClient {f : Client → Client} (h : s.Inv)
    (hf : ∀ client, (f client).socket = client.socket) : (s.modifyClient ev f).Inv := by
  have hlookup : ∀ ev' client', (s.modifyClient ev f).clients.lookup ev' = some client' →
      ∃ client, s.clients.lookup ev' = some client ∧ client'.socket = client.socket := by
    intro ev' client' h'
    rw [modifyClient, lookup_adjust] at h'
    obtain ⟨client, hclient, rfl⟩ := Option.map_eq_some_iff.mp h'
    refine ⟨client, hclient, ?_⟩
    split
    · exact hf client
    · rfl
  refine ⟨⟨h.registered.disciplined, ?_, ?_⟩, ?_, ?_⟩
  · intro fd
    refine (h.registered.mem_held_iff fd).trans ⟨?_, ?_⟩
    · rintro ⟨ev', client, hclient, rfl⟩
      refine ⟨ev', if ev' = ev then f client else client, ?_, ?_⟩
      · rw [modifyClient, lookup_adjust, hclient]
        rfl
      · split
        · exact hf client
        · rfl
    · rintro ⟨ev', client', hclient', rfl⟩
      obtain ⟨client, hclient, hsocket⟩ := hlookup ev' client' hclient'
      exact ⟨ev', client, hclient, hsocket.symm⟩
  · intro ev₁ ev₂ client₁ client₂ h₁ h₂ heq
    obtain ⟨c₁, hc₁, hs₁⟩ := hlookup ev₁ client₁ h₁
    obtain ⟨c₂, hc₂, hs₂⟩ := hlookup ev₂ client₂ h₂
    exact h.registered.unique ev₁ ev₂ c₁ c₂ hc₁ hc₂ (by rw [← hs₁, ← hs₂, heq])
  · intro ev'
    exact (h.mem_enabled_iff ev').trans mem_adjust.symm
  · intro ev' hev'
    exact h.mem_events ev' (mem_adjust.mp hev')

theorem inv_eraseClient (h : s.Inv) : (s.eraseClient ev).Inv := by
  unfold eraseClient
  cases hev : s.clients.lookup ev with
  | none => exact h
  | some client =>
      have hheld : client.socket ∈ held s.descriptors :=
        (h.registered.mem_held_iff _).mpr ⟨ev, client, hev, rfl⟩
      refine ⟨⟨.snoc h.registered.disciplined hheld, fun fd => ?_, ?_⟩, fun ev' => ?_,
        fun ev' hev' => ?_⟩
      · simp only [destroyClient, held_snoc, Use.after, Finset.mem_erase,
          h.registered.mem_held_iff, lookup_erase_eq_some_iff]
        constructor
        · rintro ⟨hne, ev', client', hclient', rfl⟩
          have hev' : ev' ≠ ev := by
            rintro rfl
            rw [hev] at hclient'
            cases hclient'
            exact hne rfl
          exact ⟨ev', client', ⟨hev', hclient'⟩, rfl⟩
        · rintro ⟨ev', client', ⟨hev', hclient'⟩, rfl⟩
          refine ⟨fun heq => hev' ?_, ev', client', hclient', rfl⟩
          exact h.registered.unique ev' ev client' client hclient' hev heq
      · intro ev₁ ev₂ client₁ client₂ h₁ h₂ heq
        exact h.registered.unique ev₁ ev₂ client₁ client₂ (lookup_erase_eq_some_iff.mp h₁).2
          (lookup_erase_eq_some_iff.mp h₂).2 heq
      · simp only [destroyClient, AList.mem_erase, Finset.mem_erase, h.mem_enabled_iff]
      · simp only [destroyClient, AList.mem_erase, held_snoc, Use.after, Finset.mem_erase]
          at hev' ⊢
        exact ⟨hev'.1, h.mem_events ev' hev'.2⟩

theorem heap_next_not_mem (h : s.Inv) : heap.next s.events ∉ s.clients :=
  fun hmem => heap.fresh s.events (h.mem_events _ hmem)

theorem acceptClient_run_none (h : s.Inv) :
    (acceptClient kernel heap none).run s
      = .ok () { s with
          clients := s.clients.insert (heap.next s.events) ⟨kernel.next s.descriptors, [], []⟩
          descriptors := s.descriptors ++ [Use.opens (kernel.next s.descriptors)]
          events := s.events ++ [Use.opens (heap.next s.events)]
          enabled := insert (heap.next s.events) s.enabled } := by
  have hrun : (acceptClient kernel heap none).run s
      = .ok () ({ s with
          descriptors := s.descriptors ++ [Use.opens (kernel.next s.descriptors)]
          events := s.events ++ [Use.opens (heap.next s.events)]
          enabled := insert (heap.next s.events) s.enabled }.emplaceClient
            (heap.next s.events) ⟨kernel.next s.descriptors, [], []⟩) := rfl
  rw [hrun, emplaceClient, if_neg (heap_next_not_mem h)]

variable (kernel heap s) in
/-- An accept that fails late leaves the socket open and the map as it was. -/
theorem acceptClient_run_late {failing : Option AcceptStep}
    (h : (ServerInput.accept failing).FailsLate) :
    ∃ e t, (acceptClient kernel heap failing).run s = .error (.thrown e) t ∧
      t.descriptors = s.descriptors ++ [.opens (kernel.next s.descriptors)] ∧
      t.clients = s.clients := by
  rcases failing with _ | (_ | _ | _ | _)
  · exact absurd h id
  · exact absurd h id
  · exact ⟨_, _, rfl, rfl, rfl⟩
  · exact ⟨_, _, rfl, rfl, rfl⟩
  · exact ⟨_, _, rfl, rfl, rfl⟩

theorem not_registered_of_opened (h : s.Inv)
    (hdescriptors : t.descriptors = s.descriptors ++ [.opens (kernel.next s.descriptors)])
    (hclients : t.clients = s.clients) : ¬ t.Registered := by
  intro ht
  have hmem : kernel.next s.descriptors ∈ held t.descriptors := by
    rw [hdescriptors, held_snoc]
    exact Finset.mem_insert_self _ _
  rw [ht.mem_held_iff, hclients, ← h.registered.mem_held_iff] at hmem
  exact kernel.fresh s.descriptors hmem

theorem inv_insert (h : s.Inv) : Inv { s with
    clients := s.clients.insert (heap.next s.events) ⟨kernel.next s.descriptors, [], []⟩
    descriptors := s.descriptors ++ [Use.opens (kernel.next s.descriptors)]
    events := s.events ++ [Use.opens (heap.next s.events)]
    enabled := insert (heap.next s.events) s.enabled } := by
  have hnew : heap.next s.events ∉ s.clients := heap_next_not_mem h
  have hsocket : ∀ ev' client', s.clients.lookup ev' = some client' →
      client'.socket ≠ kernel.next s.descriptors := by
    intro ev' client' hclient' heq
    exact kernel.fresh s.descriptors
      ((h.registered.mem_held_iff _).mpr ⟨ev', client', hclient', heq⟩)
  have hlookup : ∀ ev' client',
      (s.clients.insert (heap.next s.events) ⟨kernel.next s.descriptors, [], []⟩).lookup ev'
        = some client' ↔
      (ev' = heap.next s.events ∧ client' = ⟨kernel.next s.descriptors, [], []⟩) ∨
        s.clients.lookup ev' = some client' :=
    fun _ _ => lookup_insert_eq_some_iff hnew
  refine ⟨⟨disciplined_opens kernel h.registered.disciplined, fun fd => ?_, ?_⟩, fun ev' => ?_,
    fun ev' => ?_⟩
  · simp only [held_snoc, Use.after, Finset.mem_insert, h.registered.mem_held_iff, hlookup]
    constructor
    · rintro (rfl | ⟨ev', client', hclient', rfl⟩)
      · exact ⟨_, _, .inl ⟨rfl, rfl⟩, rfl⟩
      · exact ⟨ev', client', .inr hclient', rfl⟩
    · rintro ⟨ev', client', ⟨rfl, rfl⟩ | hclient', rfl⟩
      · exact .inl rfl
      · exact .inr ⟨ev', client', hclient', rfl⟩
  · intro ev₁ ev₂ client₁ client₂ h₁ h₂ heq
    rcases (hlookup ev₁ client₁).mp h₁ with ⟨rfl, rfl⟩ | h₁ <;>
      rcases (hlookup ev₂ client₂).mp h₂ with ⟨rfl, rfl⟩ | h₂
    · rfl
    · exact absurd heq.symm (hsocket ev₂ client₂ h₂)
    · exact absurd heq (hsocket ev₁ client₁ h₁)
    · exact h.registered.unique ev₁ ev₂ client₁ client₂ h₁ h₂ heq
  · simp only [AList.mem_insert, Finset.mem_insert, h.mem_enabled_iff]
  · simp only [AList.mem_insert, held_snoc, Use.after, Finset.mem_insert]
    exact Or.imp_right (h.mem_events ev')

/-- A read of a client ends in an exception or worse, and has changed nothing
but the client's buffer. -/
theorem handleClientRead_run (cbor : Libcbor) (pending : List Byte) (drains : Bool)
    {client : Client} (h : s.clients.lookup ev = some client) :
    ∃ e f, (handleClientRead cbor ev pending drains).run s = .error e (s.modifyClient ev f) ∧
      ∀ client, (f client).socket = client.socket := by
  cases drains with
  | false =>
      refine ⟨.thrown (.runtimeError "failed to drain client read buffer"), fun client =>
        { client with receiveBuf := resize client.receiveBuf pending.length }, ?_, fun _ => rfl⟩
      simp only [handleClientRead, run_get_bind, h]
      rfl
  | true =>
      have hrun : ∃ e, (handleClientRead cbor ev pending true).run s
          = .error e (s.modifyClient ev fun client => { client with receiveBuf := pending }) := by
        simp only [handleClientRead, run_get_bind, h, if_true]
        cases hframe : RpcServer.frame pending with
        | error e => exact ⟨_, rfl⟩
        | ok region =>
            cases hload : loadRegion cbor (fun n => s!"${hex 1 n}") pending region with
            | error e =>
                refine ⟨e, ?_⟩
                simp only [hload]
                rfl
            | ok item =>
                refine ⟨.thrown (.runtimeError s!"unknown rpc endpoint ${
                  hex 2 (Header.read pending).endpoint.toNat}"), ?_⟩
                simp only [hload]
                rfl
      obtain ⟨e, he⟩ := hrun
      exact ⟨e, _, he, fun _ => rfl⟩

theorem inv_read {pending : List Byte} {drains : Bool} (h : s.Inv) (hev : ev ∈ s.enabled)
    (hrun : (clientCallback ev (handleClientRead cbor ev pending drains)).run s
      = .ok answer t) : t.Inv := by
  obtain ⟨client, hclient⟩ := Option.isSome_iff_exists.mp
    (AList.lookup_isSome.mpr ((h.mem_enabled_iff ev).mp hev))
  obtain ⟨e, f, hread, hf⟩ := handleClientRead_run cbor pending drains hclient
  rw [clientCallback, EStateM.run_bind] at hrun
  cases e with
  | thrown e =>
      rw [catching_run_thrown hread] at hrun
      cases hrun
      exact inv_eraseClient (inv_modifyClient h hf)
  | undefined op =>
      rw [catching_run_undefined hread] at hrun
      cases hrun

theorem inv_event (h : s.Inv) (hev : ev ∈ s.enabled)
    (hrun : (clientCallback ev (handleClientEvent ev)).run s = .ok answer t) :
    t.Inv ∧ answer = .ok () := by
  obtain ⟨client, hclient⟩ := Option.isSome_iff_exists.mp
    (AList.lookup_isSome.mpr ((h.mem_enabled_iff ev).mp hev))
  have hevent : (handleClientEvent ev).run s = .ok () (s.eraseClient ev) := by
    simp only [handleClientEvent, run_get_bind, hclient]
    rfl
  rw [clientCallback, EStateM.run_bind, catching_run_ok hevent] at hrun
  cases hrun
  exact ⟨inv_eraseClient h, rfl⟩

/-- An accept either keeps the invariant or goes wrong late. -/
theorem accept_cases {failing : Option AcceptStep} (h : s.Inv)
    (hrun : (catching (acceptClient kernel heap failing)).run s = .ok answer t) :
    (t.Inv ∧ ¬ (ServerInput.accept failing).FailsLate) ∨
      ((ServerInput.accept failing).FailsLate ∧ ¬ t.Registered) := by
  rcases failing with _ | failing
  · rw [catching_run_ok (acceptClient_run_none h)] at hrun
    cases hrun
    exact .inl ⟨inv_insert h, id⟩
  · by_cases hfirst : failing = .accept
    · subst hfirst
      have herror : (acceptClient kernel heap (some .accept)).run s
          = .error (.thrown AcceptStep.accept.error) s := rfl
      rw [catching_run_thrown herror] at hrun
      cases hrun
      exact .inl ⟨h, id⟩
    · have hlate := ServerInput.failsLate_of_ne hfirst
      obtain ⟨e, u, hu, hdescriptors, hclients⟩ := acceptClient_run_late kernel heap s hlate
      rw [catching_run_thrown hu] at hrun
      cases hrun
      exact .inr ⟨hlate, not_registered_of_opened h hdescriptors hclients⟩

/-- A step either keeps the invariant or is an accept that goes wrong late. -/
theorem step_cases {x : ServerInput} (h : s.Inv)
    (hrun : (step kernel heap cbor x).run s = .ok answer t) :
    (t.Inv ∧ (∀ ev, x = .event ev → answer = .ok ()) ∧ ¬ x.FailsLate) ∨
      (x.FailsLate ∧ ¬ t.Registered) := by
  rw [step, run_get_bind] at hrun
  cases x with
  | accept failing =>
      rcases accept_cases h hrun with ⟨hinv, hwhole⟩ | hlate
      · exact .inl ⟨hinv, fun _ hx => (nomatch hx), hwhole⟩
      · exact .inr hlate
  | read ev pending drains =>
      simp only [run_ite] at hrun
      by_cases hev : ev ∈ s.enabled ∧ headerSize ≤ pending.length
      · rw [if_pos hev] at hrun
        exact .inl ⟨inv_read h hev.1 hrun, fun _ hx => (nomatch hx), id⟩
      · rw [if_neg hev] at hrun
        cases hrun
        exact .inl ⟨h, fun _ hx => (nomatch hx), id⟩
  | event ev =>
      simp only [run_ite] at hrun
      by_cases hev : ev ∈ s.enabled
      · rw [if_pos hev] at hrun
        obtain ⟨hinv, hanswer⟩ := inv_event h hev hrun
        exact .inl ⟨hinv, fun _ _ => hanswer, id⟩
      · rw [if_neg hev] at hrun
        cases hrun
        exact .inl ⟨h, fun _ _ => rfl, id⟩

/-- A step keeps the accounts if and only if no accept goes wrong late in it. -/
theorem accounts_iff {x : ServerInput} (h : s.Inv)
    (hrun : (step kernel heap cbor x).run s = .ok answer t) :
    Accounts heap s x answer t ↔ AcceptsWhole s x answer t := by
  rcases step_cases h hrun with ⟨hinv, hevent, hwhole⟩ | ⟨hlate, hnot⟩
  · exact ⟨fun _ => hwhole, fun _ => ⟨hinv.registered, fun _ => heap_next_not_mem h, hevent⟩⟩
  · exact ⟨fun haccounts => absurd haccounts.1 hnot, fun hwhole => absurd hlate hwhole⟩

theorem inv_step {x : ServerInput} (h : s.Inv)
    (hrun : (step kernel heap cbor x).run s = .ok answer t)
    (hwhole : AcceptsWhole s x answer t) : t.Inv := by
  rcases step_cases h hrun with ⟨hinv, _, _⟩ | ⟨hlate, _⟩
  · exact hinv
  · exact absurd hlate hwhole

end Steps

end RpcServer

/-! ## The two servers -/

/-- In every run of either server the map accounts for the sockets at each step
if and only if no accept of the run fails after the socket was accepted. -/
theorem registries_iff (kernel heap : Allocator Nat) (cbor : Libcbor) (table : IndicatorTable)
    (ledManager : LedManager) (xs ys : List ServerInput) :
    (Throughout (Process.step kernel cbor table) (Process.Accounts kernel)
        (Process.start ledManager) xs ↔
      Throughout (Process.step kernel cbor table) Process.AcceptsWhole
        (Process.start ledManager) xs) ∧
    (Throughout (RpcServer.step kernel heap cbor) (RpcServer.Accounts heap)
        RpcServer.start ys ↔
      Throughout (RpcServer.step kernel heap cbor) RpcServer.AcceptsWhole
        RpcServer.start ys) := by
  constructor
  · refine throughout_iff (I := Process.Inv) ?_ ?_ (Process.inv_start ledManager)
    · intro p x answer q h hrun hwhole
      exact Process.inv_step h hrun hwhole
    · intro p x answer q h hrun
      exact Process.accounts_iff h hrun
  · refine throughout_iff (I := RpcServer.Inv) ?_ ?_ RpcServer.inv_start
    · intro s x answer t h hrun hwhole
      exact RpcServer.inv_step h hrun hwhole
    · intro s x answer t h hrun
      exact RpcServer.accounts_iff h hrun

/-- A socket that could not be made non-blocking stays open in both servers and
has no entry. -/
theorem not_accounts_blocking_socket :
    ¬ Throughout (Process.step (.lowest 4) (.ofTable [] (fun _ => []) (by decide))
        ⟨kIndicators, .refl _⟩) (Process.Accounts (.lowest 4)) (Process.start ⟨[], [], .nearest⟩)
        [.accept (some .makeNonblocking)] ∧
    ¬ Throughout (RpcServer.step (.lowest 4) (.lowest 1) (.ofTable [] (fun _ => []) (by decide)))
        (RpcServer.Accounts (.lowest 1)) RpcServer.start [.accept (some .makeNonblocking)] := by
  constructor
  · intro h
    obtain ⟨haccounts, _⟩ := h _ _ rfl
    have hmem := (haccounts.1.mem_clients_iff 4).mpr (by decide)
    exact AList.notMem_empty 4 hmem
  · intro h
    obtain ⟨haccounts, _⟩ := h _ _ rfl
    obtain ⟨ev, client, hclient, _⟩ := (haccounts.1.mem_held_iff 4).mp (by decide)
    cases hclient

end Rpc
