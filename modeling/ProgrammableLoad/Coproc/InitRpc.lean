/-
# `Coproc.InitRpc` — the descriptors of the coprocessor's endpoints

`initRpc` first destroys the endpoints that are there, then opens the control
device and sets up the channels in turn: it has an endpoint created, opens its
device and has a handler made.  If that throws, its catch block closes the
device; the descriptors of the channels before stay with the object.

The handlers' constructors do not leave it at that.  In both a failure to make
the device non-blocking closes the device, which the catch block closes
again; and in the one for confd every failure behind its connection leaves the
socket open, since no destructor runs.  A leftover endpoint that cannot be
destroyed leaves its device open as well.

The trace lists what was opened and closed.  The two ioctls for a descriptor
and the buffer events have no part in it.
-/
import ProgrammableLoad.Rpc.Ownership

namespace Coproc

open Cpp Program Handles Rpc

/-! ## The object -/

/-- A handler, with the confd socket it has. -/
inductive EndpointHandler where
  | control
  | confd (confdSocket : Option Nat)

/-- The descriptors that the handler's destructor closes. -/
def EndpointHandler.owned : EndpointHandler → List Nat
  | .control => []
  | .confd confdSocket => confdSocket.toList

structure RpcChannelInfo where
  epName : String
  chrdevPath : String
  chrdevFd : Nat
  isRetrievable : Bool
  handler : EndpointHandler

/-- `rpmsgCtrlFd` is `none` for `-1`. -/
structure Coprocessor where
  rpmsgCtrlFd : Option Nat
  rpcChannels : List RpcChannelInfo
  descriptors : List (Use Nat)

/-- The object as it is constructed. -/
def Coprocessor.fresh : Coprocessor := ⟨none, [], []⟩

/-- The descriptors the object is to close: its own, and through the handlers
those of confd. -/
def Coprocessor.owned (s : Coprocessor) : List Nat :=
  s.rpmsgCtrlFd.toList ++ s.rpcChannels.flatMap fun info => info.chrdevFd :: info.handler.owned

/-! ## What may fail -/

inductive Endpoint where
  | control | confd
deriving DecidableEq

/-- A device that is left over in /dev: whether it can be opened, and whether
its endpoint can be destroyed then. -/
structure Leftover where
  opens : Bool
  destroys : Bool

/-- The steps of the control handler's constructor that may fail, in order. -/
inductive ControlStep where
  | wakeUp | makeNonblocking | createRpmsgEvent | enableRpmsgEvent
deriving DecidableEq

/-- What becomes of the steps of one call: for each endpoint the path that
`connectRpcEndpoint` gives or what it throws, whether that path can be opened,
and the step of the handler's constructor that fails, if any. -/
structure Environment where
  leftovers : List Leftover
  opensCtrl : Bool
  connect : Endpoint → Except Exception String
  opensDevice : Endpoint → Bool
  control : Option ControlStep
  confd : Option ConfdEpHandler.ConstructStep

/-! ## Handlers -/

/-- The constructor of the control handler. -/
def newControlEpHandler (fd : Nat) (failing : Option ControlStep) :
    EStateM Fault (List (Use Nat)) EndpointHandler := do
  match failing with
  | some .wakeUp => throw (.thrown (.systemError "write control wake-up packet"))
  | some .makeNonblocking =>
      modify fun ops => ops ++ [.closes fd]
      throw (.thrown (.systemError "evutil_make_socket_nonblocking (rpmsg)"))
  | some .createRpmsgEvent =>
      throw (.thrown (.runtimeError "failed to create bufferevent (rpmsg)"))
  | some .enableRpmsgEvent =>
      throw (.thrown (.runtimeError "failed to enable bufferevent (rpmsg)"))
  | none => return .control

/-- The constructor of the handler for confd: its side of confd, and the close
of the device where that cannot be made non-blocking. -/
def newConfdEpHandler (kernel : Allocator Nat) (fd : Nat)
    (failing : Option ConfdEpHandler.ConstructStep) :
    EStateM Fault (List (Use Nat)) EndpointHandler := fun ops =>
  match (ConfdEpHandler.construct kernel failing).run
      { ConfdEpHandler.blank with descriptors := ops } with
  | .ok _ s => .ok (.confd s.confdSocket) s.descriptors
  | .error e s => .error e
      (s.descriptors ++ if failing = some .makeNonblocking then [.closes fd] else [])

structure EndpointInfo where
  endpoint : Endpoint
  name : String
  address : BitVec 32
  isLoadControl : Bool
  isRetrievable : Bool
  makeHandler : Allocator Nat → Environment → Nat →
    EStateM Fault (List (Use Nat)) EndpointHandler

def kRpcChannels : List EndpointInfo := [
  { endpoint := .control
    name := "pl.control"
    address := 0x420
    isLoadControl := true
    isRetrievable := false
    makeHandler := fun _ env fd => newControlEpHandler fd env.control },
  { endpoint := .confd
    name := "confd"
    address := 0x421
    isLoadControl := false
    isRetrievable := false
    makeHandler := fun kernel env fd => newConfdEpHandler kernel fd env.confd }]

namespace Coprocessor

/-! ## Descriptors -/

/-- `open`, which gives a descriptor. -/
def openFile (kernel : Allocator Nat) : EStateM Fault Coprocessor Nat := do
  let fd := kernel.next (← get).descriptors
  modify fun s => { s with descriptors := s.descriptors ++ [.opens fd] }
  return fd

def closeAll (fds : List Nat) : EStateM Fault Coprocessor Unit :=
  modify fun s => { s with descriptors := s.descriptors ++ closing fds }

/-- What works on descriptors, as a part of the object. -/
def onDescriptors {α : Type} (m : EStateM Fault (List (Use Nat)) α) :
    EStateM Fault Coprocessor α := fun s =>
  match m.run s.descriptors with
  | .ok a ops => .ok a { s with descriptors := ops }
  | .error e ops => .error e { s with descriptors := ops }

/-- `catch(const std::exception &) { close(fd); throw; }` -/
def closingOnThrow {α : Type} (fd : Nat) (m : EStateM Fault Coprocessor α) :
    EStateM Fault Coprocessor α := fun s =>
  match m.run s with
  | .ok a t => .ok a t
  | .error (.thrown e) t =>
      .error (.thrown e) { t with descriptors := t.descriptors ++ closing [fd] }
  | .error (.undefined op) t => .error (.undefined op) t

/-! ## Destroying what is there -/

/-- `destroyRpcEndpoint(path)`; what it throws is caught and logged, with the
device still open if it could not be destroyed. -/
def destroyLeftover (kernel : Allocator Nat) (leftover : Leftover) :
    EStateM Fault Coprocessor Unit := do
  if leftover.opens then
    let fd ← openFile kernel
    if leftover.destroys then
      closeAll [fd]
    else
      pure ()
  else
    pure ()

/-- The stored channels are closed last one first, whether or not their
endpoints can be destroyed; clearing them destroys the handlers. -/
def destroyAllRpcEndpoints (kernel : Allocator Nat) (leftovers : List Leftover) :
    EStateM Fault Coprocessor Unit := do
  let channels := (← get).rpcChannels
  closeAll (channels.reverse.map RpcChannelInfo.chrdevFd)
  modify fun s => { s with rpcChannels := [] }
  closeAll (channels.flatMap fun info => info.handler.owned)
  forM leftovers (destroyLeftover kernel)

/-! ## Setting up -/

/-- Open the control device if needed. -/
def openCtrl (kernel : Allocator Nat) (opens : Bool) : EStateM Fault Coprocessor Unit := do
  if (← get).rpmsgCtrlFd = none then
    if opens then
      let fd ← openFile kernel
      modify fun s => { s with rpmsgCtrlFd := some fd }
    else
      throw (.thrown (.systemError "open rpmsg_ctrl"))
  else
    pure ()

/-- One turn of the loop over the channels.  The catch block has no descriptor
to close until the device is open. -/
def initChannel (kernel : Allocator Nat) (env : Environment) (detail : EndpointInfo) :
    EStateM Fault Coprocessor Unit := do
  match env.connect detail.endpoint with
  | .error e => throw (.thrown e)
  | .ok devPath =>
      if env.opensDevice detail.endpoint then
        let fd ← openFile kernel
        let handler ← closingOnThrow fd (onDescriptors (detail.makeHandler kernel env fd))
        modify fun s => { s with
          rpcChannels := s.rpcChannels ++
            [⟨detail.name, devPath, fd, detail.isRetrievable, handler⟩] }
      else
        throw (.thrown (.systemError "open rpmsg_chrdev"))

/-- `initRpc`, up to the channels. -/
def prepare (kernel : Allocator Nat) (env : Environment) : EStateM Fault Coprocessor Unit := do
  destroyAllRpcEndpoints kernel env.leftovers
  openCtrl kernel env.opensCtrl

def setUpChannels (kernel : Allocator Nat) (env : Environment) :
    EStateM Fault Coprocessor Unit :=
  forM kRpcChannels (initChannel kernel env)

def initRpc (kernel : Allocator Nat) (env : Environment) : EStateM Fault Coprocessor Unit := do
  prepare kernel env
  setUpChannels kernel env

end Coprocessor

/-! ## How setting up a channel ends -/

/-- A channel is set up, or fails with what it opened closed once, or fails
otherwise. -/
inductive SetUp where
  | completes | failsCleanly | failsBadly
deriving DecidableEq

namespace Environment

/-- How the handler of an endpoint comes out. -/
def handlerSetUp (env : Environment) : Endpoint → SetUp
  | .control =>
      match env.control with
      | none => .completes
      | some step => if step = .makeNonblocking then .failsBadly else .failsCleanly
  | .confd =>
      match env.confd with
      | none => .completes
      | some step => if step.late then .failsBadly else .failsCleanly

def setUp (env : Environment) (ep : Endpoint) : SetUp :=
  match env.connect ep with
  | .error _ => .failsCleanly
  | .ok _ => if env.opensDevice ep then env.handlerSetUp ep else .failsCleanly

/-- How the first channel that is not set up ends, if there is one. -/
def firstFailure (env : Environment) : List EndpointInfo → SetUp
  | [] => .completes
  | detail :: details =>
      match env.setUp detail.endpoint with
      | .completes => env.firstFailure details
      | .failsCleanly => .failsCleanly
      | .failsBadly => .failsBadly

/-- Every leftover device that could be opened had its endpoint destroyed. -/
def NoLeak (leftovers : List Leftover) : Prop :=
  ∀ leftover ∈ leftovers, leftover.opens = true → leftover.destroys = true

/-- No channel fails, or one fails cleanly with no leftover device left open. -/
def CleanFailure (env : Environment) : Prop :=
  match env.firstFailure kRpcChannels with
  | .completes => True
  | .failsCleanly => NoLeak env.leftovers
  | .failsBadly => False

end Environment

namespace Coprocessor

/-- The control device is open, or can be opened. -/
def CtrlOpens (env : Environment) (s : Coprocessor) : Prop :=
  s.rpmsgCtrlFd = none → env.opensCtrl = true

/-- When `initRpc` fails in setting up its channels, every descriptor that was
opened is owned by the object or was closed once. -/
def FailsCleanly (kernel : Allocator Nat) (env : Environment) (s : Coprocessor) : Prop :=
  ∀ u e t, (prepare kernel env).run s = .ok () u → (initRpc kernel env).run s = .error e t →
    Accounts t.descriptors t.owned

end Coprocessor

/-! ## The handlers -/

/-- What becomes of the device `fd` in the hands of a handler's constructor,
where `lost ++ owned` are the other descriptors that are open. -/
inductive Makes (fd : Nat) (lost owned : List Nat) :
    SetUp → EStateM.Result Fault (List (Use Nat)) EndpointHandler → Prop
  | completes {handler : EndpointHandler} {ops : List (Use Nat)}
      (h : Accounts ops ((fd :: handler.owned) ++ (lost ++ owned))) :
      Makes fd lost owned .completes (.ok handler ops)
  | failsCleanly {e : Exception} {ops : List (Use Nat)}
      (h : Accounts ops (fd :: (lost ++ owned))) :
      Makes fd lost owned .failsCleanly (.error (.thrown e) ops)
  | failsBadly {e : Exception} {ops : List (Use Nat)}
      (h : ¬ Accounts (ops ++ closing [fd]) owned) :
      Makes fd lost owned .failsBadly (.error (.thrown e) ops)

section Handlers

variable {kernel : Allocator Nat} {env : Environment} {ops : List (Use Nat)} {fd : Nat}
  {lost owned : List Nat}

/-- The catch block closes again what the constructor closed. -/
theorem not_accounts_closed_again (ops : List (Use Nat)) (fd : Nat) (owned : List Nat) :
    ¬ Accounts (ops ++ [.closes fd] ++ closing [fd]) owned :=
  fun h => not_disciplined_closes_closes ops fd h.disciplined

theorem newControlEpHandler_makes (h : Accounts ops (fd :: (lost ++ owned))) :
    Makes fd lost owned (env.handlerSetUp .control)
      ((newControlEpHandler fd env.control).run ops) := by
  rw [Environment.handlerSetUp]
  cases env.control with
  | none => exact .completes h
  | some step =>
      cases step with
      | wakeUp => exact .failsCleanly h
      | makeNonblocking => exact .failsBadly (not_accounts_closed_again ops fd owned)
      | createRpmsgEvent => exact .failsCleanly h
      | enableRpmsgEvent => exact .failsCleanly h

/-- A connection to confd that a constructor leaves behind is in no hands. -/
theorem not_accounts_socket (kernel : Allocator Nat) (h : Accounts ops (fd :: (lost ++ owned))) :
    ¬ Accounts (ops ++ [.opens (kernel.next ops)] ++ [] ++ closing [fd]) owned := by
  have hclosed : Accounts (ops ++ [.opens (kernel.next ops)] ++ closing [fd])
      ((kernel.next ops :: lost) ++ owned) :=
    ((h.opens kernel).perm (.swap _ _ _)).closes
  rw [List.append_nil, hclosed.iff_lost_eq_nil]
  exact List.cons_ne_nil _ _

/-- A connection that could not be made is closed. -/
theorem accounts_dial (kernel : Allocator Nat) (h : Accounts ops (fd :: (lost ++ owned))) :
    Accounts (ops ++ [.opens (kernel.next ops)] ++ [.closes (kernel.next ops)] ++ [])
      (fd :: (lost ++ owned)) := by
  rw [List.append_nil]
  exact (h.opens kernel).closes

theorem newConfdEpHandler_makes (h : Accounts ops (fd :: (lost ++ owned))) :
    Makes fd lost owned (env.handlerSetUp .confd)
      ((newConfdEpHandler kernel fd env.confd).run ops) := by
  have hnone : Accounts (ops ++ []) (fd :: (lost ++ owned)) := by
    rw [List.append_nil]
    exact h
  rw [Environment.handlerSetUp]
  cases env.confd with
  | none => exact .completes ((h.opens kernel).perm (.swap _ _ _))
  | some step =>
      cases step with
      | wakeUp => exact .failsCleanly hnone
      | dial failing =>
          cases failing with
          | socket => exact .failsCleanly hnone
          | connect => exact .failsCleanly (accounts_dial kernel h)
          | makeNonblocking => exact .failsCleanly (accounts_dial kernel h)
      | createConfdEvent => exact .failsBadly (not_accounts_socket kernel h)
      | makeNonblocking => exact .failsBadly (not_accounts_closed_again _ fd owned)
      | createRpmsgEvent => exact .failsBadly (not_accounts_socket kernel h)
      | enableConfdEvent => exact .failsBadly (not_accounts_socket kernel h)
      | enableRpmsgEvent => exact .failsBadly (not_accounts_socket kernel h)

variable (kernel env) in
theorem makeHandler_makes {detail : EndpointInfo} (hdetail : detail ∈ kRpcChannels)
    (h : Accounts ops (fd :: (lost ++ owned))) :
    Makes fd lost owned (env.handlerSetUp detail.endpoint)
      ((detail.makeHandler kernel env fd).run ops) := by
  simp only [kRpcChannels, List.mem_cons, List.not_mem_nil, or_false] at hdetail
  rcases hdetail with rfl | rfl
  · exact newControlEpHandler_makes h
  · exact newConfdEpHandler_makes h

end Handlers

/-! ## The channels -/

namespace Coprocessor

/-- How setting up channels ends, where `lost` are the descriptors that were
lost before. -/
inductive Ends (lost : List Nat) : SetUp → EStateM.Result Fault Coprocessor Unit → Prop
  | completes {t : Coprocessor} (h : Accounts t.descriptors (lost ++ t.owned)) :
      Ends lost .completes (.ok () t)
  | failsCleanly {e : Fault} {t : Coprocessor} (h : Accounts t.descriptors (lost ++ t.owned)) :
      Ends lost .failsCleanly (.error e t)
  | failsBadly {e : Fault} {t : Coprocessor} (h : ¬ Accounts t.descriptors t.owned) :
      Ends lost .failsBadly (.error e t)

section Channels

variable {kernel : Allocator Nat} {env : Environment} {s : Coprocessor} {lost : List Nat}

theorem owned_append (s : Coprocessor) (info : RpcChannelInfo) :
    owned { s with rpcChannels := s.rpcChannels ++ [info] }
      = s.owned ++ (info.chrdevFd :: info.handler.owned) := by
  simp [owned, List.append_assoc]

section Catch

variable {α : Type} {m : EStateM Fault (List (Use Nat)) α} {ops : List (Use Nat)}

theorem closingOnThrow_run_ok {a : α} (fd : Nat) (h : m.run s.descriptors = .ok a ops) :
    (closingOnThrow fd (onDescriptors m)).run s = .ok a { s with descriptors := ops } := by
  simp only [closingOnThrow, onDescriptors, EStateM.run] at h ⊢
  rw [h]

theorem closingOnThrow_run_thrown {e : Exception} (fd : Nat)
    (h : m.run s.descriptors = .error (.thrown e) ops) :
    (closingOnThrow fd (onDescriptors m)).run s
      = .error (.thrown e) { s with descriptors := ops ++ closing [fd] } := by
  simp only [closingOnThrow, onDescriptors, EStateM.run] at h ⊢
  rw [h]

end Catch

variable (kernel env) in
theorem initChannel_ends {detail : EndpointInfo} (hdetail : detail ∈ kRpcChannels)
    (h : Accounts s.descriptors (lost ++ s.owned)) :
    Ends lost (env.setUp detail.endpoint) ((initChannel kernel env detail).run s) := by
  rw [initChannel, Environment.setUp]
  cases hconnect : env.connect detail.endpoint with
  | error e => exact .failsCleanly h
  | ok devPath =>
      cases hopens : env.opensDevice detail.endpoint with
      | false => exact .failsCleanly h
      | true =>
          have hopen : (openFile kernel).run s = .ok (kernel.next s.descriptors)
              { s with descriptors := s.descriptors ++ [.opens (kernel.next s.descriptors)] } := rfl
          have hmakes := makeHandler_makes kernel env hdetail (h.opens kernel)
          simp only [↓reduceIte]
          rw [run_bind_of_ok hopen]
          generalize hrun : (detail.makeHandler kernel env (kernel.next s.descriptors)).run
            (s.descriptors ++ [.opens (kernel.next s.descriptors)]) = r at hmakes
          generalize env.handlerSetUp detail.endpoint = ends at hmakes ⊢
          cases hmakes with
          | @completes handler ops h =>
              rw [run_bind_of_ok (closingOnThrow_run_ok _ hrun)]
              refine .completes (h.perm ?_)
              rw [owned_append]
              exact List.perm_append_comm.trans (.of_eq (List.append_assoc lost _ _))
          | failsCleanly h =>
              rw [run_bind_of_error (closingOnThrow_run_thrown _ hrun)]
              exact .failsCleanly h.closes
          | failsBadly h =>
              rw [run_bind_of_error (closingOnThrow_run_thrown _ hrun)]
              exact .failsBadly h

variable (kernel env) in
/-- The first channel that fails ends the loop. -/
theorem forM_ends {details : List EndpointInfo} (hdetails : details ⊆ kRpcChannels)
    (h : Accounts s.descriptors (lost ++ s.owned)) :
    Ends lost (env.firstFailure details) ((forM details (initChannel kernel env)).run s) := by
  induction details generalizing s with
  | nil => exact .completes h
  | cons detail details ih =>
      obtain ⟨hdetail, hdetails⟩ := List.cons_subset.mp hdetails
      have hends := initChannel_ends kernel env hdetail h
      rw [Environment.firstFailure, List.forM_cons]
      generalize hrun : (initChannel kernel env detail).run s = r at hends
      generalize env.setUp detail.endpoint = first at hends ⊢
      cases hends with
      | completes h =>
          rw [run_bind_of_ok hrun]
          exact ih hdetails h
      | failsCleanly h =>
          rw [run_bind_of_error hrun]
          exact .failsCleanly h
      | failsBadly h =>
          rw [run_bind_of_error hrun]
          exact .failsBadly h

/-! ## Before the channels -/

variable (kernel) in
theorem destroyLeftover_run (leftover : Leftover) (h : Accounts s.descriptors (lost ++ s.owned)) :
    ∃ t lost', (destroyLeftover kernel leftover).run s = .ok () t ∧
      t.rpmsgCtrlFd = s.rpmsgCtrlFd ∧ Accounts t.descriptors (lost' ++ t.owned) ∧
      (lost' = [] ↔ lost = [] ∧ (leftover.opens = true → leftover.destroys = true)) := by
  obtain ⟨opens, destroys⟩ := leftover
  cases opens with
  | false => exact ⟨s, lost, rfl, rfl, h, by simp⟩
  | true =>
      cases destroys with
      | true => exact ⟨_, lost, rfl, rfl, (h.opens kernel).closes, by simp⟩
      | false => exact ⟨_, kernel.next s.descriptors :: lost, rfl, rfl, h.opens kernel, by simp⟩

variable (kernel) in
theorem destroyLeftovers_run (leftovers : List Leftover)
    (h : Accounts s.descriptors (lost ++ s.owned)) :
    ∃ t lost', (forM leftovers (destroyLeftover kernel)).run s = .ok () t ∧
      t.rpmsgCtrlFd = s.rpmsgCtrlFd ∧ Accounts t.descriptors (lost' ++ t.owned) ∧
      (lost' = [] ↔ lost = [] ∧ Environment.NoLeak leftovers) := by
  induction leftovers generalizing s lost with
  | nil => exact ⟨s, lost, rfl, rfl, h, by simp [Environment.NoLeak]⟩
  | cons leftover leftovers ih =>
      obtain ⟨u, lostFirst, hfirst, hctrl, hu, hlost⟩ := destroyLeftover_run kernel leftover h
      obtain ⟨t, lost', hrest, hctrl', ht, hlost'⟩ := ih hu
      refine ⟨t, lost', ?_, hctrl'.trans hctrl, ht, ?_⟩
      · rw [List.forM_cons, run_bind_of_ok hfirst]
        exact hrest
      · rw [hlost', hlost]
        simp only [Environment.NoLeak, List.forall_mem_cons, and_assoc]

/-- What the object owns, in the order in which it is closed. -/
theorem owned_perm (s : Coprocessor) :
    s.owned.Perm (s.rpcChannels.reverse.map RpcChannelInfo.chrdevFd ++
      (s.rpcChannels.flatMap (fun info => info.handler.owned) ++ s.rpmsgCtrlFd.toList)) := by
  have hchannels : (s.rpcChannels.reverse.map RpcChannelInfo.chrdevFd ++
      s.rpcChannels.flatMap fun info => info.handler.owned).Perm
      (s.rpcChannels.flatMap fun info => info.chrdevFd :: info.handler.owned) :=
    (((List.reverse_perm s.rpcChannels).map _).append_right _).trans
      (List.map_append_flatMap_perm s.rpcChannels _ _)
  rw [← List.append_assoc]
  exact List.perm_append_comm.trans (hchannels.symm.append_right _)

variable (kernel) in
theorem destroyAllRpcEndpoints_run (leftovers : List Leftover)
    (h : Accounts s.descriptors s.owned) :
    ∃ t lost, (destroyAllRpcEndpoints kernel leftovers).run s = .ok () t ∧
      t.rpmsgCtrlFd = s.rpmsgCtrlFd ∧ Accounts t.descriptors (lost ++ t.owned) ∧
      (lost = [] ↔ Environment.NoLeak leftovers) := by
  have hclosed := (h.perm (owned_perm s)).closing.closing
  have hcleared : Accounts (s.descriptors
      ++ closing (s.rpcChannels.reverse.map RpcChannelInfo.chrdevFd)
      ++ closing (s.rpcChannels.flatMap fun info => info.handler.owned))
      ([] ++ owned { s with rpcChannels := [] }) := by
    rw [owned, List.flatMap_nil, List.append_nil]
    exact hclosed
  obtain ⟨t, lost, ht, hctrl, haccounts, hlost⟩ := destroyLeftovers_run kernel leftovers
    (s := ⟨s.rpmsgCtrlFd, [], _⟩) hcleared
  refine ⟨t, lost, ht, hctrl, haccounts, ?_⟩
  rw [hlost, eq_self_iff_true, true_and]

variable (kernel) in
theorem openCtrl_run_ok (hopens : s.CtrlOpens env) (h : Accounts s.descriptors (lost ++ s.owned)) :
    ∃ t, (openCtrl kernel env.opensCtrl).run s = .ok () t ∧
      Accounts t.descriptors (lost ++ t.owned) := by
  obtain ⟨ctrl, channels, ops⟩ := s
  cases ctrl with
  | none =>
      refine ⟨⟨some (kernel.next ops), channels, ops ++ [.opens (kernel.next ops)]⟩, ?_,
        (h.opens kernel).perm List.perm_middle.symm⟩
      rw [hopens rfl]
      rfl
  | some fd => exact ⟨_, rfl, h⟩

variable (kernel) in
theorem openCtrl_run_error (hopens : ¬ s.CtrlOpens env) :
    ∃ e, (openCtrl kernel env.opensCtrl).run s = .error e s := by
  obtain ⟨hnone, hnot⟩ := Classical.not_imp.mp hopens
  refine ⟨.thrown (.systemError "open rpmsg_ctrl"), ?_⟩
  rw [openCtrl, run_get_bind, run_ite, if_pos hnone, if_neg hnot]
  rfl

variable (kernel) in
/-- A failure in the channels leaves nothing astray just when it is a clean
one. -/
theorem accounts_iff_cleanFailure (h : Accounts s.descriptors (lost ++ s.owned))
    (hlost : lost = [] ↔ Environment.NoLeak env.leftovers) :
    (∀ e t, (setUpChannels kernel env).run s = .error e t → Accounts t.descriptors t.owned) ↔
      env.CleanFailure := by
  have hends := forM_ends kernel env (List.Subset.refl kRpcChannels) h
  rw [setUpChannels, Environment.CleanFailure]
  generalize (forM kRpcChannels (initChannel kernel env)).run s = r at hends ⊢
  generalize env.firstFailure kRpcChannels = ends at hends ⊢
  cases hends with
  | completes h =>
      refine iff_of_true ?_ trivial
      intro e t ht
      cases ht
  | @failsCleanly e t h =>
      show _ ↔ Environment.NoLeak env.leftovers
      rw [← hlost, ← h.iff_lost_eq_nil]
      constructor
      · intro hall
        exact hall e t rfl
      · intro ht e' t' heq
        cases heq
        exact ht
  | @failsBadly e t h =>
      refine iff_of_false ?_ id
      intro hall
      exact h (hall e t rfl)

/-- A call that gets to the channels fails cleanly just when no channel fails,
or the first to fail does so cleanly and no leftover device is left open. -/
theorem failsCleanly_iff (kernel : Allocator Nat) (env : Environment) (s : Coprocessor)
    (h : Accounts s.descriptors s.owned) :
    FailsCleanly kernel env s ↔ (s.CtrlOpens env → env.CleanFailure) := by
  obtain ⟨u, lost, hdestroy, hctrl, hu, hlost⟩ :=
    destroyAllRpcEndpoints_run kernel env.leftovers h
  have hopens : u.CtrlOpens env ↔ s.CtrlOpens env := by
    rw [CtrlOpens, CtrlOpens, hctrl]
  by_cases hs : s.CtrlOpens env
  · obtain ⟨v, hopen, hv⟩ := openCtrl_run_ok kernel (hopens.mpr hs) hu
    have hprepare : (prepare kernel env).run s = .ok () v :=
      (run_bind_of_ok hdestroy).trans hopen
    have hinit : (initRpc kernel env).run s = (setUpChannels kernel env).run v :=
      run_bind_of_ok hprepare
    rw [imp_iff_right hs, ← accounts_iff_cleanFailure kernel hv hlost, FailsCleanly,
      hinit]
    constructor
    · intro hall e t ht
      exact hall v e t hprepare ht
    · intro hall _ e t _ ht
      exact hall e t ht
  · obtain ⟨e, hopen⟩ := openCtrl_run_error kernel (mt hopens.mp hs)
    have hprepare : (prepare kernel env).run s = .error e u :=
      (run_bind_of_ok hdestroy).trans hopen
    refine iff_of_true ?_ fun hs' => absurd hs' hs
    intro v e' t hv
    rw [hprepare] at hv
    cases hv

end Channels

/-- Where it fails cleanly every descriptor was closed once for each time it was
opened, but for those that a stored channel or the object still owns. -/
theorem FailsCleanly.opened_eq {kernel : Allocator Nat} {env : Environment} {s u t : Coprocessor}
    {e : Fault} (h : FailsCleanly kernel env s) (hprepare : (prepare kernel env).run s = .ok () u)
    (hinit : (initRpc kernel env).run s = .error e t) (fd : Nat) :
    opened fd t.descriptors = closed fd t.descriptors + if fd ∈ t.owned then 1 else 0 :=
  (h u e t hprepare hinit).opened_eq fd

/-! ## The object as it is constructed -/

/-- Both channels can be set up but for what the two handlers are told. -/
def environment (control : Option ControlStep) (confd : Option ConfdEpHandler.ConstructStep) :
    Environment where
  leftovers := []
  opensCtrl := true
  connect _ := .ok "/dev/rpmsg0"
  opensDevice _ := true
  control := control
  confd := confd

/-- With no connection to confd the device is closed once, and that of the
channel before is the object's. -/
theorem failsCleanly_dial :
    FailsCleanly (.lowest 3) (environment none (some (.dial .connect))) .fresh := by
  refine (failsCleanly_iff _ _ _ accounts_nil).mpr fun _ => ?_
  intro leftover hmem
  cases hmem

/-- A device that cannot be made non-blocking is closed twice. -/
theorem makeNonblocking_not_failsCleanly :
    ¬ FailsCleanly (.lowest 3) (environment (some .makeNonblocking) none) .fresh := by
  intro h
  have haccounts := h _ _ _ rfl rfl
  exact not_disciplined_closes_closes [.opens 3, .opens 4] 4 haccounts.disciplined

end Coprocessor

end Coproc
