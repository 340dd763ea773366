/-
# `Splash.RpcListener` — the clients of the boot splash

A call of `handleEvents` waits for the listening socket and for the sockets of
the clients, accepts one client at most, and then turns to each client that
has something for it.  A client leaves by an exceptional condition, by a
message that is refused, or by the end of its stream.  The first two close its
descriptor.  At the end of the stream it is only dropped from the set, and its
descriptor stays open for good.

Nothing interrupts `select` but a signal that `SignalHandler` takes.
-/
import ProgrammableLoad.Cpp.Fault
import ProgrammableLoad.Cpp.HashOrder
import ProgrammableLoad.Theory.Handles
import ProgrammableLoad.Theory.Runs

namespace Splash

open Cpp Program Handles

/-! ## Messages -/

/-- `splash_rpc_type_t`, less the version that the daemon has no case for. -/
def kSplashRpcTypeNone : Nat := 0
def kSplashRpcTypeSetProgress : Nat := 1
def kSplashRpcTypeSetMessage : Nat := 2
def kSplashRpcTypeTerminate : Nat := 4

/-- `splash_rpc_message_t`, whose union is kept as its bytes. -/
structure SplashRpcMessage where
  type : Nat
  payload : List Byte

/-- `sizeof(splash_rpc_message_t)`: the union lies where a `double` may. -/
def messageSize : Nat := 8 + 256

/-- The number in bytes of the machine's order. -/
def littleEndian : List Byte → Nat
  | [] => 0
  | b :: bs => b.toNat + 256 * littleEndian bs

/-- The message that lies in a buffer of its size. -/
def SplashRpcMessage.read (buf : List Byte) : SplashRpcMessage where
  type := littleEndian (buf.take 4)
  payload := (buf.drop 8).take 256

/-- The bits of the `double`; nothing here computes with it. -/
def SplashRpcMessage.progress (msg : SplashRpcMessage) : BitVec 64 :=
  BitVec.ofNat 64 (littleEndian (msg.payload.take 8))

/-- The text before the terminator, if there is one. -/
def SplashRpcMessage.message (msg : SplashRpcMessage) : Option (List Byte) :=
  if 0 ∈ msg.payload then some (msg.payload.takeWhile (· ≠ 0)) else none

/-! ## The listener -/

/-- The part of the drawer that messages change. -/
structure Drawer where
  progress : BitVec 64
  progressString : List Byte
  progressDirty : Bool
  progressStringDirty : Bool

/-- The members as they are initialised. -/
def Drawer.initial : Drawer := ⟨0, ascii "Please wait...", true, true⟩

def Drawer.setProgress (d : Drawer) (newProgress : BitVec 64) : Drawer :=
  { d with progress := newProgress, progressDirty := true }

def Drawer.setProgressString (d : Drawer) (newProgressString : List Byte) : Drawer :=
  { d with progressString := newProgressString, progressStringDirty := true }

/-- The listener with the drawer, the flag of the main loop, what it did to the
descriptors of its clients, and those whose client has not gone. -/
structure RpcListener where
  sock : Nat
  clientSockets : Finset Nat
  drawer : Drawer
  gRun : Bool
  descriptors : List (Use Nat)
  connected : Finset Nat

/-- What `read` does on a client's socket. -/
inductive ReadResult where
  | fails
  | endOfStream
  | datagram (bytes : List Byte)

/-- What `select` reports of a client's socket; an exceptional condition hides
what else there is. -/
inductive Activity where
  | idle
  | exceptional
  | readable (result : ReadResult)

inductive SelectOutcome where
  | interrupted
  | fails
  | ready
deriving DecidableEq

/-- The world as a call of `handleEvents` meets it. -/
structure Poll where
  select : SelectOutcome
  connection : Bool
  accepts : Bool
  activity : Nat → Activity
  order : HashOrder Nat

/-- `read` returns zero: at the end of the stream, and for an empty datagram. -/
def ReadResult.isZero : ReadResult → Bool
  | .fails => false
  | .endOfStream => true
  | .datagram bytes => bytes.isEmpty

def Activity.readsZero : Activity → Bool
  | .readable result => result.isZero
  | _ => false

namespace RpcListener

def handleMessage (msg : SplashRpcMessage) : EStateM Fault RpcListener Bool := do
  if msg.type = kSplashRpcTypeNone then
    return true
  else if msg.type = kSplashRpcTypeSetProgress then do
    modify fun s => { s with drawer := s.drawer.setProgress msg.progress }
    return true
  else if msg.type = kSplashRpcTypeSetMessage then
    match msg.message with
    | none => throw (.undefined "std::string_view")
    | some text => do
        modify fun s => { s with drawer := s.drawer.setProgressString text }
        return true
  else if msg.type = kSplashRpcTypeTerminate then do
    modify fun s => { s with gRun := false }
    return true
  else
    throw (.thrown (.runtimeError "unhandled rpc message type"))

/-- Whether the connection is still valid. -/
def handleClientMessage (fd : Nat) (result : ReadResult) : EStateM Fault RpcListener Bool := do
  match result with
  | .endOfStream => do
      modify fun s => { s with connected := s.connected.erase fd }
      return false
  | .fails => throw (.thrown (.systemError "client read"))
  | .datagram bytes =>
      if bytes.isEmpty then
        return false
      else if bytes.length < messageSize then
        throw (.thrown (.runtimeError "insufficient client read size"))
      else
        handleMessage (.read bytes)

/-- `close(fd)` -/
def close (fd : Nat) : EStateM Fault RpcListener Unit :=
  modify fun s => { s with
    descriptors := s.descriptors ++ [.closes fd]
    connected := s.connected.erase fd }

/-- One turn of the loop over the clients: whether the client is dead. -/
def handleClient (fd : Nat) : Activity → EStateM Fault RpcListener Bool
  | .idle => return false
  | .exceptional => do
      close fd
      return true
  | .readable result => do
      match ← catching (handleClientMessage fd result) with
      | .ok valid => return !valid
      | .error _ => do
          close fd
          return true

/-- `FD_SETSIZE` -/
def FD_SETSIZE : Nat := 1024

/-- The sets of `select` have no bit for a descriptor from `FD_SETSIZE` on. -/
def isSet (fd : Nat) : EStateM Fault RpcListener Unit :=
  if FD_SETSIZE ≤ fd then throw (.undefined "FD_ISSET") else pure ()

/-- The loop over the clients: those that are dead. -/
def handleClients (activity : Nat → Activity) : List Nat → EStateM Fault RpcListener (Finset Nat)
  | [] => return ∅
  | fd :: fds => do
      isSet fd
      let dead ← handleClient fd (activity fd)
      let deadClients ← handleClients activity fds
      return if dead then insert fd deadClients else deadClients

def acceptClient (kernel : Allocator Nat) (accepts : Bool) : EStateM Fault RpcListener Unit := do
  if accepts then
    modify fun s =>
      let fd := kernel.next s.descriptors
      { s with
        clientSockets := insert fd s.clientSockets
        descriptors := s.descriptors ++ [.opens fd]
        connected := insert fd s.connected }
  else
    throw (.thrown (.systemError "rpc accept"))

/-- The sets that `select` filled have no bit for a client it did not watch. -/
def reported (watched : Finset Nat) (activity : Nat → Activity) (fd : Nat) : Activity :=
  if fd ∈ watched then activity fd else .idle

/-- The clients that have events, and then the removal of the dead. -/
def handleConnections (order : HashOrder Nat) (activity : Nat → Activity) :
    EStateM Fault RpcListener Unit := do
  let deadClients ← handleClients activity (order.keys (← get).clientSockets)
  modify fun s => { s with clientSockets := s.clientSockets \ deadClients }

/-- What follows `select`: the listening socket, and then the clients. -/
def handleReady (kernel : Allocator Nat) (watched : Finset Nat) (x : Poll) :
    EStateM Fault RpcListener Unit := do
  if x.connection then acceptClient kernel x.accepts
  handleConnections x.order (reported watched x.activity)

/-- `SignalHandler` -/
def signalHandler : EStateM Fault RpcListener Unit := modify fun s => { s with gRun := false }

def handleEvents (kernel : Allocator Nat) (x : Poll) : EStateM Fault RpcListener Unit := do
  let watched := (← get).clientSockets
  if ∃ fd ∈ insert (← get).sock watched, FD_SETSIZE ≤ fd then
    throw (.undefined "FD_SET")
  else
    match x.select with
    | .interrupted => signalHandler
    | .fails => throw (.thrown (.systemError "rpc select"))
    | .ready => handleReady kernel watched x

/-- One turn of the main loop, which catches what leaves the call. -/
def step (kernel : Allocator Nat) (x : Poll) :
    EStateM Fault RpcListener (Except Exception Unit) := catching (handleEvents kernel x)

/-- The listener as its constructor leaves it. -/
def start (sock : Nat) (drawer : Drawer) : RpcListener := ⟨sock, ∅, drawer, true, [], ∅⟩

/-! ## Accounts -/

/-- After the call the set of clients is that of the descriptors that are open.
The call closed what left the set, once, and nothing else, and there are no
more descriptors than clients. -/
structure Accounts (s : RpcListener) (_ : Poll) (_ : Except Exception Unit) (t : RpcListener) :
    Prop where
  clients_eq : t.clientSockets = held t.descriptors
  disciplined : Disciplined t.descriptors
  closed_eq : ∀ fd, closed fd t.descriptors
    = closed fd s.descriptors + if fd ∈ s.clientSockets \ t.clientSockets then 1 else 0
  card_le : (held t.descriptors).card ≤ t.connected.card

/-- The call gets to its clients and reads nothing from one of them. -/
def MeetsEnd (s : RpcListener) (x : Poll) : Prop :=
  x.select = .ready ∧ (x.connection = true → x.accepts = true) ∧
    ∃ fd ∈ s.clientSockets, (x.activity fd).readsZero = true

/-! ## One client -/

section Clients

variable {s t : RpcListener} {fd : Nat} {activity : Nat → Activity}

/-- What a message leaves alone. -/
structure SameClients (s t : RpcListener) : Prop where
  clients_eq : t.clientSockets = s.clientSockets
  descriptors_eq : t.descriptors = s.descriptors
  connected_eq : t.connected = s.connected

theorem handleMessage_run (msg : SplashRpcMessage) (s : RpcListener) :
    match (handleMessage msg).run s with
    | .ok valid t => valid = true ∧ SameClients s t
    | .error _ t => SameClients s t := by
  rw [handleMessage]
  by_cases hnone : msg.type = kSplashRpcTypeNone
  · rw [if_pos hnone]
    exact ⟨rfl, rfl, rfl, rfl⟩
  by_cases hprogress : msg.type = kSplashRpcTypeSetProgress
  · rw [if_neg hnone, if_pos hprogress]
    exact ⟨rfl, rfl, rfl, rfl⟩
  by_cases hmessage : msg.type = kSplashRpcTypeSetMessage
  · rw [if_neg hnone, if_neg hprogress, if_pos hmessage]
    cases msg.message with
    | none => exact ⟨rfl, rfl, rfl⟩
    | some text => exact ⟨rfl, rfl, rfl, rfl⟩
  by_cases hterminate : msg.type = kSplashRpcTypeTerminate
  · rw [if_neg hnone, if_neg hprogress, if_neg hmessage, if_pos hterminate]
    exact ⟨rfl, rfl, rfl, rfl⟩
  · rw [if_neg hnone, if_neg hprogress, if_neg hmessage, if_neg hterminate]
    exact ⟨rfl, rfl, rfl⟩

/-- A message is refused with an exception, and a read of nothing is taken for
the end. -/
theorem handleClientMessage_run (fd : Nat) (result : ReadResult) (s : RpcListener) :
    match (handleClientMessage fd result).run s with
    | .ok valid t => valid = !result.isZero ∧ t.clientSockets = s.clientSockets ∧
        t.descriptors = s.descriptors ∧ (result.isZero = false → t.connected = s.connected)
    | .error _ t => result.isZero = false ∧ SameClients s t := by
  cases result with
  | fails => exact ⟨rfl, rfl, rfl, rfl⟩
  | endOfStream => exact ⟨rfl, rfl, rfl, fun h => (nomatch h)⟩
  | datagram bytes =>
      rw [handleClientMessage]
      cases hempty : bytes.isEmpty with
      | true =>
          refine ⟨?_, rfl, rfl, fun _ => rfl⟩
          rw [ReadResult.isZero, hempty]
          rfl
      | false =>
          by_cases hlength : bytes.length < messageSize
          · rw [if_neg Bool.false_ne_true, if_pos hlength]
            exact ⟨hempty, rfl, rfl, rfl⟩
          · rw [if_neg Bool.false_ne_true, if_neg hlength]
            have hmsg := handleMessage_run (.read bytes) s
            cases hrun : (handleMessage (.read bytes)).run s with
            | ok valid t =>
                rw [hrun] at hmsg
                obtain ⟨rfl, hsame⟩ := hmsg
                refine ⟨?_, hsame.clients_eq, hsame.descriptors_eq, fun _ => hsame.connected_eq⟩
                rw [ReadResult.isZero, hempty]
                rfl
            | error e t =>
                rw [hrun] at hmsg
                exact ⟨hempty, hmsg⟩

/-- How a client comes out of its turn: it stays, it is closed, or it is
dropped without being closed. -/
inductive Turn (fd : Nat) (a : Activity) (s : RpcListener) : Bool → RpcListener → Prop
  | stays {t : RpcListener} (readsZero : a.readsZero = false) (same : SameClients s t) :
      Turn fd a s false t
  | closes {t : RpcListener} (active : a ≠ .idle) (readsZero : a.readsZero = false)
      (clients_eq : t.clientSockets = s.clientSockets)
      (descriptors_eq : t.descriptors = s.descriptors ++ [.closes fd])
      (connected_eq : t.connected = s.connected.erase fd) : Turn fd a s true t
  | drops {t : RpcListener} (readsZero : a.readsZero = true)
      (clients_eq : t.clientSockets = s.clientSockets)
      (descriptors_eq : t.descriptors = s.descriptors) : Turn fd a s true t

theorem handleClient_run {a : Activity} {dead : Bool}
    (h : (handleClient fd a).run s = .ok dead t) : Turn fd a s dead t := by
  cases a with
  | idle =>
      cases h
      exact .stays rfl ⟨rfl, rfl, rfl⟩
  | exceptional =>
      cases h
      exact .closes nofun rfl rfl rfl rfl
  | readable result =>
      have hmsg := handleClientMessage_run fd result s
      rw [handleClient] at h
      cases hrun : (handleClientMessage fd result).run s with
      | ok valid u =>
          rw [hrun] at hmsg
          obtain ⟨rfl, hclients, hdescriptors, hconnected⟩ := hmsg
          rw [run_bind_of_ok (catching_run_ok hrun)] at h
          cases hzero : result.isZero with
          | false =>
              rw [hzero] at h
              cases h
              exact .stays hzero ⟨hclients, hdescriptors, hconnected hzero⟩
          | true =>
              rw [hzero] at h
              cases h
              exact .drops hzero hclients hdescriptors
      | error e u =>
          rw [hrun] at hmsg
          obtain ⟨hzero, hsame⟩ := hmsg
          cases e with
          | thrown e =>
              rw [run_bind_of_ok (catching_run_thrown hrun)] at h
              cases h
              refine .closes nofun hzero hsame.clients_eq ?_ ?_
              · exact congrArg (· ++ [.closes fd]) hsame.descriptors_eq
              · exact congrArg (·.erase fd) hsame.connected_eq
          | undefined op =>
              rw [run_bind_of_error (catching_run_undefined hrun)] at h
              cases h

/-! ## The clients of a call -/

/-- What the loop over `fds` does: it closes `ds`, which read something, and
drops those that read nothing. -/
structure Served (activity : Nat → Activity) (fds ds : List Nat) (s : RpcListener)
    (dead : Finset Nat) (t : RpcListener) : Prop where
  sublist : ds.Sublist fds
  active : ∀ fd ∈ ds, activity fd ≠ .idle
  readsZero : ∀ fd ∈ ds, (activity fd).readsZero = false
  mem_dead_iff : ∀ fd, fd ∈ dead ↔ fd ∈ ds ∨ (fd ∈ fds ∧ (activity fd).readsZero = true)
  clients_eq : t.clientSockets = s.clientSockets
  descriptors_eq : t.descriptors = s.descriptors ++ closing ds
  connected_eq : (∀ fd ∈ fds, (activity fd).readsZero = false) →
    t.connected = s.connected \ ds.toFinset

section Served

variable {u : RpcListener} {fds ds : List Nat} {dead : Finset Nat}

theorem Served.nil (s : RpcListener) : Served activity [] [] s ∅ s where
  sublist := .refl _
  active := nofun
  readsZero := nofun
  mem_dead_iff fd := by simp
  clients_eq := rfl
  descriptors_eq := (List.append_nil _).symm
  connected_eq _ := by simp

theorem Served.stays (h : Served activity fds ds u dead t)
    (hzero : (activity fd).readsZero = false) (same : SameClients s u) :
    Served activity (fd :: fds) ds s dead t where
  sublist := h.sublist.cons fd
  active := h.active
  readsZero := h.readsZero
  mem_dead_iff e := by
    rw [h.mem_dead_iff, List.mem_cons]
    grind
  clients_eq := h.clients_eq.trans same.clients_eq
  descriptors_eq := by rw [h.descriptors_eq, same.descriptors_eq]
  connected_eq hall := by
    rw [h.connected_eq fun e he => hall e (List.mem_cons_of_mem fd he), same.connected_eq]

theorem Served.closes (h : Served activity fds ds u dead t) (hactive : activity fd ≠ .idle)
    (hzero : (activity fd).readsZero = false) (hclients : u.clientSockets = s.clientSockets)
    (hdescriptors : u.descriptors = s.descriptors ++ [.closes fd])
    (hconnected : u.connected = s.connected.erase fd) :
    Served activity (fd :: fds) (fd :: ds) s (insert fd dead) t where
  sublist := h.sublist.cons_cons fd
  active := List.forall_mem_cons.mpr ⟨hactive, h.active⟩
  readsZero := List.forall_mem_cons.mpr ⟨hzero, h.readsZero⟩
  mem_dead_iff e := by
    rw [Finset.mem_insert, h.mem_dead_iff, List.mem_cons, List.mem_cons]
    grind
  clients_eq := h.clients_eq.trans hclients
  descriptors_eq := by
    rw [h.descriptors_eq, hdescriptors, List.append_assoc]
    rfl
  connected_eq hall := by
    rw [h.connected_eq fun e he => hall e (List.mem_cons_of_mem fd he), hconnected,
      List.toFinset_cons, Finset.sdiff_insert, Finset.erase_sdiff_comm]

/-- A client that is dropped read nothing, and its descriptor is not closed. -/
theorem Served.drops (h : Served activity fds ds u dead t)
    (hzero : (activity fd).readsZero = true) (hclients : u.clientSockets = s.clientSockets)
    (hdescriptors : u.descriptors = s.descriptors) :
    Served activity (fd :: fds) ds s (insert fd dead) t where
  sublist := h.sublist.cons fd
  active := h.active
  readsZero := h.readsZero
  mem_dead_iff e := by
    rw [Finset.mem_insert, h.mem_dead_iff, List.mem_cons]
    grind
  clients_eq := h.clients_eq.trans hclients
  descriptors_eq := by rw [h.descriptors_eq, hdescriptors]
  connected_eq hall := by
    rw [hall fd List.mem_cons_self] at hzero
    cases hzero

end Served

theorem isSet_run (hfd : fd < FD_SETSIZE) (s : RpcListener) : (isSet fd).run s = .ok () s := by
  rw [isSet, if_neg (Nat.not_le.mpr hfd)]
  rfl

theorem isSet_run_eq_ok (h : (isSet fd).run s = .ok () t) : t = s := by
  rw [isSet, run_ite] at h
  split at h
  · cases h
  · cases h
    rfl

theorem handleClients_run {fds : List Nat} {dead : Finset Nat}
    (h : (handleClients activity fds).run s = .ok dead t) :
    ∃ ds, Served activity fds ds s dead t := by
  induction fds generalizing s dead with
  | nil =>
      cases h
      exact ⟨[], .nil _⟩
  | cons fd fds ih =>
      rw [handleClients] at h
      obtain ⟨_, v, hset, h⟩ := run_bind_eq_ok.mp h
      cases isSet_run_eq_ok hset
      obtain ⟨gone, u, hturn, h⟩ := run_bind_eq_ok.mp h
      obtain ⟨rest, v, hrest, h⟩ := run_bind_eq_ok.mp h
      cases h
      obtain ⟨ds, hserved⟩ := ih hrest
      cases handleClient_run hturn with
      | stays readsZero same => exact ⟨ds, hserved.stays readsZero same⟩
      | closes active readsZero clients_eq descriptors_eq connected_eq =>
          exact ⟨fd :: ds, hserved.closes active readsZero clients_eq descriptors_eq connected_eq⟩
      | drops readsZero clients_eq descriptors_eq =>
          exact ⟨ds, hserved.drops readsZero clients_eq descriptors_eq⟩

end Clients

/-! ## The calls -/

/-- The clients are what is open, and all of them are there. -/
structure Inv (s : RpcListener) : Prop where
  clients_eq : s.clientSockets = held s.descriptors
  disciplined : Disciplined s.descriptors
  connected_eq : s.connected = held s.descriptors

theorem inv_start (sock : Nat) (drawer : Drawer) : (start sock drawer).Inv := ⟨rfl, .nil, rfl⟩

section Calls

variable {kernel : Allocator Nat} {s u t : RpcListener} {x : Poll} {order : HashOrder Nat}
  {activity : Nat → Activity} {answer : Except Exception Unit}

/-- The listener with a client that was accepted. -/
def accepted (kernel : Allocator Nat) (s : RpcListener) : RpcListener :=
  { s with
    clientSockets := insert (kernel.next s.descriptors) s.clientSockets
    descriptors := s.descriptors ++ [.opens (kernel.next s.descriptors)]
    connected := insert (kernel.next s.descriptors) s.connected }

theorem Inv.accepted (h : s.Inv) : (s.accepted kernel).Inv where
  clients_eq := by rw [RpcListener.accepted, held_snoc, Use.after, h.clients_eq]
  disciplined := disciplined_opens kernel h.disciplined
  connected_eq := by rw [RpcListener.accepted, held_snoc, Use.after, h.connected_eq]

theorem Inv.accounts (h : t.Inv) (hclosed : ∀ fd, closed fd t.descriptors
      = closed fd s.descriptors + if fd ∈ s.clientSockets \ t.clientSockets then 1 else 0) :
    s.Accounts x answer t where
  clients_eq := h.clients_eq
  disciplined := h.disciplined
  closed_eq := hclosed
  card_le := by rw [h.connected_eq]

/-- A call that leaves the clients alone. -/
theorem Inv.accounts_self (h : s.Inv) : s.Accounts x answer s :=
  h.accounts fun fd => by simp

theorem handleConnections_run
    (h : (handleConnections order activity).run u = .ok () t) :
    ∃ ds dead v, Served activity (order.keys u.clientSockets) ds u dead v ∧
      t = { v with clientSockets := u.clientSockets \ dead } := by
  rw [handleConnections, run_get_bind] at h
  obtain ⟨dead, v, hrun, h⟩ := run_bind_eq_ok.mp h
  cases h
  obtain ⟨ds, hserved⟩ := handleClients_run hrun
  refine ⟨ds, dead, v, hserved, ?_⟩
  rw [← hserved.clients_eq]

/-- Where every client had something to read, the dead are the closed. -/
theorem inv_handleConnections (hu : u.Inv)
    (hzero : ∀ fd ∈ u.clientSockets, (activity fd).readsZero = false)
    (h : (handleConnections order activity).run u = .ok () t) :
    t.Inv ∧ ∃ ds : List Nat, ds.Nodup ∧ t.clientSockets = u.clientSockets \ ds.toFinset ∧
      t.descriptors = u.descriptors ++ closing ds ∧
      ∀ fd ∈ ds, fd ∈ u.clientSockets ∧ activity fd ≠ .idle := by
  obtain ⟨ds, dead, v, hserved, rfl⟩ := handleConnections_run h
  have hkeys : ∀ fd ∈ order.keys u.clientSockets, (activity fd).readsZero = false :=
    fun fd hfd => hzero fd (order.mem_keys.mp hfd)
  have hdead : dead = ds.toFinset := by
    ext fd
    rw [hserved.mem_dead_iff, List.mem_toFinset]
    refine ⟨?_, .inl⟩
    rintro (hfd | ⟨hfd, hreads⟩)
    · exact hfd
    · rw [hkeys fd hfd] at hreads
      cases hreads
  have hnodup : ds.Nodup := hserved.sublist.nodup (order.nodup_keys _)
  have hmem : ∀ fd ∈ ds, fd ∈ u.clientSockets :=
    fun fd hfd => order.mem_keys.mp (hserved.sublist.subset hfd)
  have hheld : held v.descriptors = held u.descriptors \ ds.toFinset := by
    rw [hserved.descriptors_eq, held_append_closing]
  refine ⟨⟨?_, ?_, ?_⟩, ds, hnodup, ?_, hserved.descriptors_eq,
    fun fd hfd => ⟨hmem fd hfd, hserved.active fd hfd⟩⟩
  · rw [hheld, hdead, hu.clients_eq]
  · rw [hserved.descriptors_eq]
    refine disciplined_append_closing hu.disciplined hnodup ?_
    intro fd hfd
    rw [← hu.clients_eq]
    exact hmem fd hfd
  · rw [hheld, hserved.connected_eq hkeys, hu.connected_eq]
  · rw [hdead]

/-- A client that read nothing is dropped and stays open. -/
theorem ne_held_of_readsZero (hu : u.Inv) {fd : Nat} (hfd : fd ∈ u.clientSockets)
    (hzero : (activity fd).readsZero = true)
    (h : (handleConnections order activity).run u = .ok () t) :
    t.clientSockets ≠ held t.descriptors := by
  obtain ⟨ds, dead, v, hserved, rfl⟩ := handleConnections_run h
  have hdead : fd ∈ dead :=
    (hserved.mem_dead_iff fd).mpr (.inr ⟨order.mem_keys.mpr hfd, hzero⟩)
  have hheld : fd ∈ held v.descriptors := by
    rw [hserved.descriptors_eq, held_append_closing, Finset.mem_sdiff, List.mem_toFinset]
    refine ⟨hu.clients_eq ▸ hfd, ?_⟩
    intro hmem
    rw [hserved.readsZero fd hmem] at hzero
    cases hzero
  intro heq
  rw [← heq] at hheld
  exact (Finset.mem_sdiff.mp hheld).2 hdead

/-- The part of a call after `select`, with or without a new client `u`. -/
theorem accounts_handleConnections (hu : u.Inv) (hsub : s.clientSockets ⊆ u.clientSockets)
    (hclosed : ∀ fd, closed fd u.descriptors = closed fd s.descriptors)
    (h : (handleConnections order (reported s.clientSockets activity)).run u = .ok () t) :
    (s.Accounts x answer t ↔ ¬ ∃ fd ∈ s.clientSockets, (activity fd).readsZero = true) ∧
      ((¬ ∃ fd ∈ s.clientSockets, (activity fd).readsZero = true) → t.Inv) := by
  have hidle : ∀ fd ∉ s.clientSockets, reported s.clientSockets activity fd = .idle :=
    fun fd hfd => if_neg hfd
  have hreported : ∀ fd ∈ s.clientSockets, reported s.clientSockets activity fd = activity fd :=
    fun fd hfd => if_pos hfd
  have hgood : (¬ ∃ fd ∈ s.clientSockets, (activity fd).readsZero = true) →
      t.Inv ∧ s.Accounts x answer t := by
    intro hnone
    obtain ⟨ht, ds, hnodup, hclients, hdescriptors, hds⟩ := inv_handleConnections hu (by
      intro fd _
      by_cases hfd : fd ∈ s.clientSockets
      · rw [hreported fd hfd]
        exact Bool.eq_false_iff.mpr fun hzero => hnone ⟨fd, hfd, hzero⟩
      · rw [hidle fd hfd]
        rfl) h
    refine ⟨ht, ht.accounts ?_⟩
    intro fd
    have hmem : fd ∈ ds ↔ fd ∈ s.clientSockets \ t.clientSockets := by
      rw [hclients, Finset.mem_sdiff, Finset.mem_sdiff, List.mem_toFinset]
      constructor
      · intro hfd
        refine ⟨?_, fun hnot => hnot.2 hfd⟩
        by_contra hnew
        exact (hds fd hfd).2 (hidle fd hnew)
      · rintro ⟨hfd, hgone⟩
        by_contra hnot
        exact hgone ⟨hsub hfd, hnot⟩
    rw [hdescriptors, closed_append_closing fd _ hnodup, hclosed]
    simp only [hmem]
  refine ⟨⟨?_, fun hnone => (hgood hnone).2⟩, fun hnone => (hgood hnone).1⟩
  rintro haccounts ⟨fd, hfd, hzero⟩
  refine ne_held_of_readsZero hu (hsub hfd) ?_ h haccounts.clients_eq
  rw [hreported fd hfd]
  exact hzero

/-- The call keeps account if and only if it meets no end, and where it meets
none it keeps the invariant. -/
def Judged (s : RpcListener) (x : Poll) (answer : Except Exception Unit) (t : RpcListener) :
    Prop :=
  (s.Accounts x answer t ↔ ¬ s.MeetsEnd x) ∧ (¬ s.MeetsEnd x → t.Inv)

theorem Inv.judged_signal (hs : s.Inv) (h : ¬ s.MeetsEnd x) :
    s.Judged x answer { s with gRun := false } := by
  have ht : ({ s with gRun := false } : RpcListener).Inv :=
    ⟨hs.clients_eq, hs.disciplined, hs.connected_eq⟩
  exact ⟨⟨fun _ => h, fun _ => ht.accounts fun fd => by simp⟩, fun _ => ht⟩

theorem Inv.judged_self (hs : s.Inv) (h : ¬ s.MeetsEnd x) : s.Judged x answer s :=
  ⟨⟨fun _ => h, fun _ => hs.accounts_self⟩, fun _ => hs⟩

theorem judged_of_meetsEnd_iff
    (h : s.MeetsEnd x ↔ ∃ fd ∈ s.clientSockets, (x.activity fd).readsZero = true)
    (hu : u.Inv) (hsub : s.clientSockets ⊆ u.clientSockets)
    (hclosed : ∀ fd, closed fd u.descriptors = closed fd s.descriptors)
    (hrun : (handleConnections x.order (reported s.clientSockets x.activity)).run u = .ok () t) :
    s.Judged x answer t := by
  rw [Judged, h]
  exact accounts_handleConnections hu hsub hclosed hrun

theorem noExcept_handleClient (fd : Nat) (a : Activity) : NoExcept (handleClient fd a) := by
  cases a with
  | idle => exact .ret false
  | exceptional => exact .bind (.modify _) fun _ => .ret true
  | readable result =>
      refine .bind (.catching _) ?_
      intro answer
      cases answer with
      | ok valid => exact .ret _
      | error e => exact .bind (.modify _) fun _ => .ret true

theorem noExcept_isSet (fd : Nat) : NoExcept (isSet fd) := by
  intro s t e h
  rw [isSet, run_ite] at h
  split at h
  · cases h
  · cases h

theorem noExcept_handleClients (fds : List Nat) : NoExcept (handleClients activity fds) := by
  induction fds with
  | nil => exact .ret ∅
  | cons fd fds ih =>
      refine .bind (noExcept_isSet fd) fun _ => ?_
      exact .bind (noExcept_handleClient fd _) fun _ => .bind ih fun _ => .ret _

/-- What a client does wrong stays with that client. -/
theorem noExcept_handleConnections : NoExcept (handleConnections order activity) := by
  intro s t e h
  rw [handleConnections, run_get_bind] at h
  exact NoExcept.bind (noExcept_handleClients _) (fun _ => .modify _) s t e h

theorem judged_handleReady (hs : s.Inv) (hselect : x.select = .ready)
    (h : (catching (handleReady kernel s.clientSockets x)).run s = .ok answer t) :
    s.Judged x answer t := by
  rcases Bool.eq_false_or_eq_true x.connection with hconnection | hconnection
  · rcases Bool.eq_false_or_eq_true x.accepts with haccepts | haccepts
    · have hready : (handleReady kernel s.clientSockets x).run s
          = (handleConnections x.order (reported s.clientSockets x.activity)).run
            (s.accepted kernel) := by
        rw [handleReady, hconnection, haccepts]
        rfl
      rw [catching_run_congr hready] at h
      rcases catching_run_eq_ok h with ⟨_, hrun, _⟩ | ⟨e, hrun, _⟩
      · refine judged_of_meetsEnd_iff ?_ hs.accepted (Finset.subset_insert _ _) (?_) hrun
        · exact ⟨fun hmeets => hmeets.2.2, fun hfd => ⟨hselect, fun _ => haccepts, hfd⟩⟩
        · intro fd
          rw [accepted, closed, List.count_append]
          rfl
      · exact absurd hrun (noExcept_handleConnections _ _ _)
    · have hready : (handleReady kernel s.clientSockets x).run s
          = .error (.thrown (.systemError "rpc accept")) s := by
        rw [handleReady, hconnection, haccepts]
        rfl
      rw [catching_run_thrown hready] at h
      cases h
      refine hs.judged_self ?_
      intro hmeets
      rw [hmeets.2.1 hconnection] at haccepts
      cases haccepts
  · have hready : (handleReady kernel s.clientSockets x).run s
        = (handleConnections x.order (reported s.clientSockets x.activity)).run s := by
      rw [handleReady, hconnection]
      rfl
    rw [catching_run_congr hready] at h
    rcases catching_run_eq_ok h with ⟨_, hrun, _⟩ | ⟨e, hrun, _⟩
    · refine judged_of_meetsEnd_iff ?_ hs (Finset.Subset.refl _) (fun _ => rfl) hrun
      refine ⟨fun hmeets => hmeets.2.2, fun hfd => ⟨hselect, fun hconn => ?_, hfd⟩⟩
      rw [hconnection] at hconn
      cases hconn
    · exact absurd hrun (noExcept_handleConnections _ _ _)

/-- What leaves a call is caught, and what stops it before its clients changes
nothing. -/
theorem judged_step (hs : s.Inv) (h : (step kernel x).run s = .ok answer t) :
    s.Judged x answer t := by
  rw [step] at h
  by_cases hset : ∃ fd ∈ insert s.sock s.clientSockets, FD_SETSIZE ≤ fd
  · have hrun : (handleEvents kernel x).run s = .error (.undefined "FD_SET") s := by
      rw [handleEvents, run_get_bind, run_get_bind, if_pos hset]
      rfl
    rw [catching_run_undefined hrun] at h
    cases h
  have hevents : (handleEvents kernel x).run s = (match x.select with
      | .interrupted => signalHandler
      | .fails => throw (.thrown (.systemError "rpc select"))
      | .ready => handleReady kernel s.clientSockets x : EStateM Fault RpcListener Unit).run s := by
    rw [handleEvents, run_get_bind, run_get_bind, if_neg hset]
  cases hselect : x.select with
  | interrupted =>
      rw [hselect] at hevents
      rw [catching_run_ok hevents] at h
      cases h
      refine hs.judged_signal ?_
      intro hmeets
      rw [hmeets.1] at hselect
      cases hselect
  | fails =>
      rw [hselect] at hevents
      rw [catching_run_thrown hevents] at h
      cases h
      refine hs.judged_self ?_
      intro hmeets
      rw [hmeets.1] at hselect
      cases hselect
  | ready =>
      rw [hselect] at hevents
      rw [catching_run_congr hevents] at h
      exact judged_handleReady hs hselect h

end Calls

/-- A run keeps account of its clients if and only if none of its calls reads
nothing from a client. -/
theorem accounts_throughout_iff (kernel : Allocator Nat) (sock : Nat) (drawer : Drawer)
    (xs : List Poll) :
    Throughout (step kernel) Accounts (start sock drawer) xs ↔
      Throughout (step kernel) (fun s x _ _ => ¬ s.MeetsEnd x) (start sock drawer) xs :=
  throughout_iff (I := Inv) (fun _ _ _ _ hs hx hmeets => (judged_step hs hx).2 hmeets)
    (fun _ _ _ _ hs hx => (judged_step hs hx).1) (inv_start sock drawer)

/-- A call in which every client is in the same state. -/
def uniform (connection : Bool) (activity : Activity) : Poll :=
  ⟨.ready, connection, true, fun _ => activity, .ascending⟩

/-- The listener with its first client. -/
def first : RpcListener := (start 3 .initial).accepted (.lowest 4)

theorem keys_first : HashOrder.ascending.keys first.clientSockets = [4] :=
  Finset.sort_singleton (r := fun a b => a ≤ b) 4

theorem handleConnections_run_of_keys {order : HashOrder Nat} {activity : Nat → Activity}
    {fds : List Nat} {u v : RpcListener} {dead : Finset Nat}
    (hkeys : order.keys u.clientSockets = fds)
    (h : (handleClients activity fds).run u = .ok dead v) :
    (handleConnections order activity).run u
      = .ok () { v with clientSockets := v.clientSockets \ dead } := by
  rw [handleConnections, run_get_bind, hkeys, run_bind_of_ok h]
  rfl

theorem step_run_of_handleReady {kernel : Allocator Nat} {x : Poll} {s t : RpcListener}
    (hfits : ∀ fd ∈ insert s.sock s.clientSockets, fd < FD_SETSIZE) (hselect : x.select = .ready)
    (h : (handleReady kernel s.clientSockets x).run s = .ok () t) :
    (step kernel x).run s = .ok (.ok ()) t := by
  have hset : ¬ ∃ fd ∈ insert s.sock s.clientSockets, FD_SETSIZE ≤ fd := by
    rintro ⟨fd, hfd, hle⟩
    exact Nat.not_le.mpr (hfits fd hfd) hle
  refine catching_run_ok ?_
  rw [handleEvents, run_get_bind, run_get_bind, if_neg hset, hselect]
  exact h

/-- A client connects, and closes its end. -/
theorem not_accounts_end_of_stream :
    ¬ Throughout (step (.lowest 4)) Accounts (start 3 .initial)
      [uniform true .idle, uniform false (.readable .endOfStream)] := by
  have hidle : (handleClients (reported ∅ fun _ => .idle) [4]).run first
      = .ok ∅ first := rfl
  have hend : (handleClients (reported {4} fun _ => .readable .endOfStream) [4]).run
      first = .ok {4} { first with connected := ∅ } := rfl
  have hconnects : (step (.lowest 4) (uniform true .idle)).run (start 3 .initial)
      = .ok (.ok ()) first :=
    step_run_of_handleReady (by decide) rfl (handleConnections_run_of_keys keys_first hidle)
  have hends : (step (.lowest 4) (uniform false (.readable .endOfStream))).run first
      = .ok (.ok ()) { first with connected := ∅, clientSockets := first.clientSockets \ {4} } :=
    step_run_of_handleReady (by decide) rfl (handleConnections_run_of_keys keys_first hend)
  intro h
  obtain ⟨_, h⟩ := h _ _ hconnects
  obtain ⟨haccounts, _⟩ := h _ _ hends
  have hfirst : first.Inv := (inv_start 3 .initial).accepted
  refine (judged_step hfirst hends).1.mp haccounts ⟨rfl, nofun, 4, ?_, rfl⟩
  exact Finset.mem_insert_self _ _

end RpcListener

end Splash
