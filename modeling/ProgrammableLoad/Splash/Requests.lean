/-
# `Splash.Requests` — what is asked for at boot, and what the screen shows

Programs ask the splash screen for a progress, for a text or to exit, each over
a connection of its own.  A request stays with the connection until a turn of
the main loop reads it, and a turn reads one of each client that `select`
reports, in the order of the set.

`requests_shown` is about every interleaving of requests, disconnects, signals
and turns.  What the turns read is what the clients asked for, for each client
in its order and nothing twice; the screen shows the last progress and the last
text among it; and the loop has ended if and only if an exit is among it or a
signal came.
-/
import ProgrammableLoad.Splash.Drawing
import ProgrammableLoad.Splash.Glue
import ProgrammableLoad.Theory.Merge

namespace Splash

open Cpp Program Handles Merging

/-! ## The library -/

/-- `splash_update_progress`: what it sends. -/
def splashUpdateProgress (percent : BitVec 64) : List Byte :=
  SplashRpcMessage.bytes
    ⟨kSplashRpcTypeSetProgress, littleEndianBytes 8 percent.toNat ++ List.replicate 248 0⟩

/-- `splash_request_exit`: what it sends. -/
def splashRequestExit : List Byte :=
  SplashRpcMessage.bytes ⟨kSplashRpcTypeTerminate, List.replicate 256 0⟩

/-- A call of the library that asks for something. -/
inductive Request where
  | progress (percent : BitVec 64)
  | message (str : List Byte)
  | exit
deriving DecidableEq

namespace Request

def datagram : Request → List Byte
  | .progress percent => splashUpdateProgress percent
  | .message str => splashUpdateMessage str
  | .exit => splashRequestExit

def setsProgress : Request → Option (BitVec 64)
  | .progress percent => some percent
  | _ => none

/-- Of a text, what the field takes of it. -/
def setsText : Request → Option (List Byte)
  | .message str => some ((str.takeWhile (· ≠ 0)).take 255)
  | _ => none

end Request

/-- What requests change. -/
structure Shown where
  progress : BitVec 64
  progressString : List Byte
  running : Bool

namespace Shown

def initial : Shown := ⟨0, ascii "Please wait...", true⟩

def handle (c : Shown) (r : Request) : Shown where
  progress := r.setsProgress.getD c.progress
  progressString := r.setsText.getD c.progressString
  running := c.running && r ≠ .exit

/-- Of some requests the last ones decide. -/
theorem foldl_handle (c : Shown) (rs : List Request) :
    rs.foldl handle c =
      { progress := (last Request.setsProgress rs).getD c.progress
        progressString := (last Request.setsText rs).getD c.progressString
        running := c.running && rs.all (· ≠ .exit) } := by
  induction rs using List.reverseRecOn with
  | nil =>
      rw [List.foldl_nil, List.all_nil, Bool.and_true]
      rfl
  | append_singleton rs r ih =>
      rw [List.foldl_concat, ih, last_concat, last_concat, List.all_append]
      cases r <;> simp [handle, Request.setsProgress, Request.setsText]

/-- A signal ends the loop. -/
def stop (c : Shown) (signals : Bool) : Shown := { c with running := c.running && !signals }

theorem stop_false (c : Shown) : c.stop false = c :=
  congrArg (Shown.mk c.progress c.progressString) (Bool.and_true c.running)

theorem stop_true (c : Shown) : c.stop true = { c with running := false } :=
  congrArg (Shown.mk c.progress c.progressString) (Bool.and_false c.running)

theorem stop_stop (c : Shown) (signals later : Bool) :
    (c.stop signals).stop later = c.stop (signals || later) := by
  rw [stop, stop, stop, Bool.not_or, Bool.and_assoc]

/-- There is nothing left to end. -/
theorem stop_of_ended {c : Shown} (h : c.running = false) (signals : Bool) :
    c.stop signals = c := by
  rw [stop, h, Bool.false_and, ← h]

end Shown

/-- The descriptors fit in the sets of `select`. -/
def RpcListener.Fits (s : RpcListener) : Prop :=
  ∀ fd ∈ insert s.sock s.clientSockets, fd < RpcListener.FD_SETSIZE

theorem RpcListener.Fits.lt {s : RpcListener} (h : s.Fits) :
    ∀ fd ∈ s.clientSockets, fd < RpcListener.FD_SETSIZE :=
  fun fd hfd => h fd (Finset.mem_insert_of_mem hfd)

def RpcListener.shown (s : RpcListener) : Shown :=
  ⟨s.drawer.progress, s.drawer.progressString, s.gRun⟩

def Main.shown (s : Main) : Shown := ⟨s.drawer.progress, s.drawer.progressString, s.rpc.gRun⟩

/-! ## Boot -/

/-- The daemon, what it has not read yet of its clients, and the clients that
closed their end.  A client goes by the daemon's descriptor, which no other one
gets: at the end of a stream the daemon does not close it. -/
structure Boot where
  main : Main
  pending : Nat → List Request
  gone : Finset Nat

/-- The world as a turn meets it; a client is reported if it is `ready` and has
something to read. -/
structure Wake where
  select : SelectOutcome
  connection : Bool
  accepts : Bool
  ready : Nat → Bool
  order : HashOrder Nat

inductive BootInput where
  | request (fd : Nat) (r : Request)
  | disconnect (fd : Nat)
  | signal
  | turn (w : Wake)

/-- A signal comes, between two turns or while one waits. -/
def BootInput.signals : BootInput → Bool
  | .signal => true
  | .turn w => w.select = .interrupted
  | _ => false

/-- What the client of `fd` asks for. -/
def BootInput.asks (fd : Nat) : BootInput → Option Request
  | .request other r => if other = fd then some r else none
  | _ => none

/-- All that the client of `fd` asked for. -/
def asked (fd : Nat) (xs : List BootInput) : List Request := xs.filterMap (BootInput.asks fd)

namespace Boot

def start (sock : Nat) (version : List Byte) : Boot := ⟨.start sock version, fun _ => [], ∅⟩

def activity (s : Boot) (ready : Nat → Bool) (fd : Nat) : Activity :=
  if ready fd then
    match s.pending fd with
    | r :: _ => .readable (.datagram r.datagram)
    | [] => if fd ∈ s.gone then .readable .endOfStream else .idle
  else
    .idle

def poll (s : Boot) (w : Wake) : Poll :=
  ⟨w.select, w.connection, w.accepts, s.activity w.ready, w.order⟩

/-- The turn gets to the clients. -/
def Reaches (s : Boot) (w : Wake) : Prop :=
  s.main.rpc.gRun = true ∧ w.select = .ready ∧ (w.connection = true → w.accepts = true)

instance (s : Boot) (w : Wake) : Decidable (s.Reaches w) :=
  inferInstanceAs (Decidable (_ ∧ _ ∧ (_ → _)))

/-- The request of a client that the turn reads. -/
def offer (s : Boot) (w : Wake) (fd : Nat) : Option Request :=
  if s.Reaches w ∧ w.ready fd = true ∧ fd ∈ s.main.rpc.clientSockets then
    (s.pending fd).head?
  else
    none

/-- What the turn leaves with a client. -/
def rest (s : Boot) (w : Wake) (fd : Nat) : List Request :=
  (s.pending fd).drop (s.offer w fd).toList.length

def step (kernel : Allocator Nat) : BootInput → EStateM Fault Boot Unit
  | .request fd r => modify fun s =>
      { s with pending := Function.update s.pending fd (s.pending fd ++ [r]) }
  | .disconnect fd => modify fun s => { s with gone := insert fd s.gone }
  | .signal => fun s =>
      match (Main.onListener RpcListener.signalHandler).run s.main with
      | .ok _ main => .ok () { s with main := main }
      | .error e main => .error e { s with main := main }
  | .turn w => fun s =>
      match (Main.turn kernel (s.poll w)).run s.main with
      | .ok _ main => .ok () { s with main := main, pending := s.rest w }
      | .error e main => .error e { s with main := main }

/-- Who asks is connected to a daemon that runs, and the descriptors fit in the
sets of `select`, that of a client which connects as well. -/
def Fair (kernel : Allocator Nat) (s : Boot) : BootInput → Prop
  | .request fd _ =>
      s.main.rpc.gRun = true ∧ fd ∈ s.main.rpc.clientSockets ∧ fd ∉ s.gone
  | .disconnect fd => fd ∈ s.main.rpc.clientSockets
  | .signal => True
  | .turn w => s.main.rpc.Fits ∧ (w.connection = true → (s.main.rpc.accepted kernel).Fits)

end Boot

/-! ## One request at the daemon -/

section Requests

variable {s : RpcListener}

/-- A datagram of the full size is read as the message that it was made of. -/
theorem handleClientMessage_bytes (fd : Nat) {msg : SplashRpcMessage} (htype : msg.type < 2 ^ 32)
    (hpayload : msg.payload.length = 256) :
    RpcListener.handleClientMessage fd (.datagram msg.bytes) = RpcListener.handleMessage msg := by
  rw [handleClientMessage_of_length fd (length_bytes msg hpayload), read_bytes htype hpayload]

theorem progress_datagram (percent : BitVec 64) :
    (SplashRpcMessage.mk kSplashRpcTypeSetProgress
      (littleEndianBytes 8 percent.toNat ++ List.replicate 248 0)).progress = percent := by
  rw [SplashRpcMessage.progress, List.take_left' (length_littleEndianBytes 8 _),
    littleEndian_littleEndianBytes percent.isLt, BitVec.ofNat_toNat, BitVec.setWidth_eq]

variable (s) in
/-- The daemon takes every request as it was meant. -/
theorem handleClientMessage_request (fd : Nat) (r : Request) :
    ∃ t, (RpcListener.handleClientMessage fd (.datagram r.datagram)).run s = .ok true t ∧
      t.shown = s.shown.handle r ∧ t.clientSockets = s.clientSockets := by
  cases r with
  | progress percent =>
      have htype : kSplashRpcTypeSetProgress < 2 ^ 32 := by decide
      have hpayload : (littleEndianBytes 8 percent.toNat ++ List.replicate 248 0).length = 256 := by
        rw [List.length_append, length_littleEndianBytes, List.length_replicate]
      rw [Request.datagram, splashUpdateProgress,
        handleClientMessage_bytes fd htype hpayload]
      refine ⟨_, rfl, ?_, rfl⟩
      show Shown.mk (SplashRpcMessage.progress _) _ _ = _
      rw [progress_datagram]
      exact congrArg (Shown.mk _ _) (Bool.and_true _).symm
  | message str =>
      have htype : kSplashRpcTypeSetMessage < 2 ^ 32 := by decide
      rw [Request.datagram, splashUpdateMessage,
        handleClientMessage_bytes fd htype (length_field str), RpcListener.handleMessage,
        message_field]
      exact ⟨_, rfl, congrArg (Shown.mk _ _) (Bool.and_true _).symm, rfl⟩
  | exit =>
      rw [Request.datagram, splashRequestExit,
        handleClientMessage_bytes fd (by decide) List.length_replicate]
      exact ⟨_, rfl, congrArg (Shown.mk _ _) (Bool.and_false _).symm, rfl⟩

end Requests

/-! ## The clients of a turn -/

/-- What a client does that has an offer for the turn, or none. -/
inductive Presents : Option Request → Activity → Prop
  | idle : Presents none .idle
  | asks (r : Request) : Presents (some r) (.readable (.datagram r.datagram))
  | ends : Presents none (.readable .endOfStream)

section Turn

variable {s t : RpcListener} {offers : Nat → Option Request} {activity : Nat → Activity}

/-- The turn read what the clients `fds` offered, and only those that end are no
longer in the set. -/
structure Read (offers : Nat → Option Request) (activity : Nat → Activity) (fds : List Nat)
    (s t : RpcListener) : Prop where
  shown_eq : t.shown = ((round offers fds).map Prod.snd).foldl Shown.handle s.shown
  keeps : ∀ fd ∈ s.clientSockets, activity fd ≠ .readable .endOfStream → fd ∈ t.clientSockets

theorem handleClient_read (fd : Nat) {offer : Option Request} {a : Activity} (h : Presents offer a)
    (s : RpcListener) :
    ∃ gone u, (RpcListener.handleClient fd a).run s = .ok gone u ∧
      u.clientSockets = s.clientSockets ∧ u.shown = offer.toList.foldl Shown.handle s.shown ∧
      (gone = true → a = .readable .endOfStream) := by
  cases h with
  | idle => exact ⟨false, s, rfl, rfl, rfl, nofun⟩
  | asks r =>
      obtain ⟨u, hrun, hshown, hclients⟩ := handleClientMessage_request s fd r
      refine ⟨false, u, ?_, hclients, hshown, nofun⟩
      rw [RpcListener.handleClient, run_bind_of_ok (catching_run_ok hrun)]
      rfl
  | ends => exact ⟨true, _, rfl, rfl, rfl, fun _ => rfl⟩

/-- A client after the other. -/
theorem handleClients_read {fds : List Nat} (hfits : ∀ fd ∈ fds, fd < RpcListener.FD_SETSIZE)
    (h : ∀ fd ∈ fds, Presents (offers fd) (activity fd)) (s : RpcListener) :
    ∃ dead t, (RpcListener.handleClients activity fds).run s = .ok dead t ∧
      t.clientSockets = s.clientSockets ∧
      t.shown = ((round offers fds).map Prod.snd).foldl Shown.handle s.shown ∧
      ∀ fd ∈ dead, activity fd = .readable .endOfStream := by
  induction fds generalizing s with
  | nil => exact ⟨∅, s, rfl, rfl, rfl, fun fd hfd => absurd hfd (Finset.notMem_empty fd)⟩
  | cons fd fds ih =>
      obtain ⟨hfd, hfds⟩ := List.forall_mem_cons.mp h
      obtain ⟨hlt, hlts⟩ := List.forall_mem_cons.mp hfits
      obtain ⟨gone, u, hone, huclients, hushown, hgone⟩ := handleClient_read fd hfd s
      obtain ⟨dead, t, hrest, htclients, htshown, hdead⟩ := ih hlts hfds u
      refine ⟨if gone then insert fd dead else dead, t, ?_, htclients.trans huclients, ?_, ?_⟩
      · rw [RpcListener.handleClients, run_bind_of_ok (RpcListener.isSet_run hlt s),
          run_bind_of_ok hone, run_bind_of_ok hrest]
        rfl
      · rw [htshown, hushown, round_cons, List.map_append, List.foldl_append]
        cases offers fd <;> rfl
      · intro other hother
        split at hother
        · rcases Finset.mem_insert.mp hother with rfl | hmem
          · exact hgone ‹_›
          · exact hdead other hmem
        · exact hdead other hother

theorem handleConnections_read {order : HashOrder Nat} {s : RpcListener} (hfits : s.Fits)
    (h : ∀ fd ∈ s.clientSockets, Presents (offers fd) (activity fd)) :
    ∃ t, (RpcListener.handleConnections order activity).run s = .ok () t ∧
      Read offers activity (order.keys s.clientSockets) s t := by
  obtain ⟨dead, t, hrun, hclients, hshown, hdead⟩ :=
    handleClients_read (fun fd hfd => hfits.lt fd (order.mem_keys.mp hfd))
      (fun fd hfd => h fd (order.mem_keys.mp hfd)) s
  refine ⟨{ t with clientSockets := t.clientSockets \ dead }, ?_, hshown, ?_⟩
  · rw [RpcListener.handleConnections, run_get_bind, run_bind_of_ok hrun]
    rfl
  · intro fd hfd hstays
    exact Finset.mem_sdiff.mpr ⟨hclients ▸ hfd, fun hmem => hstays (hdead fd hmem)⟩

/-- A new client is not reported yet. -/
theorem handleConnections_reported {x : Poll} {s u : RpcListener} (hfits : u.Fits)
    (hsub : s.clientSockets ⊆ u.clientSockets) (hshown : u.shown = s.shown)
    (hoffers : ∀ fd r, offers fd = some r → fd ∈ s.clientSockets)
    (h : ∀ fd ∈ s.clientSockets, Presents (offers fd) (x.activity fd)) :
    ∃ t, (RpcListener.handleConnections x.order
        (RpcListener.reported s.clientSockets x.activity)).run u = .ok () t ∧
      Read offers x.activity (x.order.keys u.clientSockets) s t := by
  have hpresents : ∀ fd ∈ u.clientSockets,
      Presents (offers fd) (RpcListener.reported s.clientSockets x.activity fd) := by
    intro fd _
    by_cases hfd : fd ∈ s.clientSockets
    · rw [RpcListener.reported, if_pos hfd]
      exact h fd hfd
    · have hnone : offers fd = none := Option.eq_none_iff_forall_ne_some.mpr
        fun r hr => hfd (hoffers fd r hr)
      rw [RpcListener.reported, if_neg hfd, hnone]
      exact .idle
  obtain ⟨t, hrun, hread⟩ := handleConnections_read hfits hpresents
  refine ⟨t, hrun, hshown ▸ hread.shown_eq, ?_⟩
  intro fd hfd hstays
  refine hread.keeps fd (hsub hfd) ?_
  rw [RpcListener.reported, if_pos hfd]
  exact hstays

/-- A turn gets to the clients, or nothing was offered to it. -/
structure Offered (x : Poll) (s : RpcListener) (offers : Nat → Option Request) : Prop where
  reaches : ∀ fd r, offers fd = some r →
    x.select = .ready ∧ (x.connection = true → x.accepts = true) ∧ fd ∈ s.clientSockets
  presents : x.select = .ready → (x.connection = true → x.accepts = true) →
    ∀ fd ∈ s.clientSockets, Presents (offers fd) (x.activity fd)

/-- The turn read everything that was offered, and a signal ended the loop. -/
structure ReadAll (offers : Nat → Option Request) (x : Poll) (s t : RpcListener) : Prop where
  shown_eq : ∃ fds : List Nat, fds.Nodup ∧ (∀ fd r, offers fd = some r → fd ∈ fds) ∧
    t.shown = (((round offers fds).map Prod.snd).foldl Shown.handle s.shown).stop
      (x.select = .interrupted)
  keeps : ∀ fd ∈ s.clientSockets, x.activity fd ≠ .readable .endOfStream → fd ∈ t.clientSockets

theorem Read.readAll {x : Poll} {fds : List Nat} (h : Read offers x.activity fds s t)
    (hselect : x.select = .ready) (hnodup : fds.Nodup)
    (hfds : ∀ fd r, offers fd = some r → fd ∈ fds) : ReadAll offers x s t where
  shown_eq := by
    refine ⟨fds, hnodup, hfds, ?_⟩
    rw [h.shown_eq, hselect]
    exact (Shown.stop_false _).symm
  keeps := h.keeps

/-- A turn that reads nothing. -/
theorem readAll_of_none {x : Poll} (h : ∀ fd, offers fd = none)
    (hclients : t.clientSockets = s.clientSockets)
    (hshown : t.shown = s.shown.stop (x.select = .interrupted)) : ReadAll offers x s t where
  shown_eq := ⟨[], List.nodup_nil, fun fd _ hr => absurd ((h fd).symm.trans hr) nofun, hshown⟩
  keeps _ hfd _ := hclients ▸ hfd

/-- A turn that does not get to the clients was offered nothing. -/
theorem Offered.eq_none {x : Poll} (h : Offered x s offers)
    (hnot : ¬ (x.select = .ready ∧ (x.connection = true → x.accepts = true))) (fd : Nat) :
    offers fd = none := by
  refine Option.eq_none_iff_forall_ne_some.mpr fun r hr => ?_
  obtain ⟨hselect, haccepts, -⟩ := h.reaches fd r hr
  exact hnot ⟨hselect, haccepts⟩

theorem handleReady_read (kernel : Allocator Nat) {x : Poll} (hfits : s.Fits)
    (hnew : x.connection = true → (s.accepted kernel).Fits) (h : Offered x s offers)
    (hselect : x.select = .ready) :
    ∃ answer t, (catching (RpcListener.handleReady kernel s.clientSockets x)).run s
        = .ok answer t ∧ ReadAll offers x s t := by
  have hclients := fun fd r hr => (h.reaches fd r hr).2.2
  cases hconnection : x.connection with
  | false =>
      have hquiet : x.connection = true → x.accepts = true :=
        fun hconn => absurd (hconnection.symm.trans hconn) Bool.false_ne_true
      obtain ⟨t, hrun, hread⟩ := handleConnections_reported hfits (Finset.Subset.refl _) rfl
        hclients (h.presents hselect hquiet)
      refine ⟨.ok (), t, catching_run_ok ?_, hread.readAll hselect
        (x.order.nodup_keys _) fun fd r hr => x.order.mem_keys.mpr (hclients fd r hr)⟩
      rw [RpcListener.handleReady, hconnection]
      exact hrun
  | true =>
      cases haccepts : x.accepts with
      | true =>
          obtain ⟨t, hrun, hread⟩ := handleConnections_reported (hnew hconnection)
            (Finset.subset_insert _ _) rfl hclients (h.presents hselect fun _ => haccepts)
          refine ⟨.ok (), t, catching_run_ok ?_, hread.readAll hselect
            (x.order.nodup_keys _) fun fd r hr => x.order.mem_keys.mpr
              (Finset.subset_insert _ _ (hclients fd r hr))⟩
          rw [RpcListener.handleReady, hconnection, haccepts]
          exact hrun
      | false =>
          refine ⟨.error (.systemError "rpc accept"), s, catching_run_thrown ?_,
            readAll_of_none (h.eq_none ?_) rfl ?_⟩
          · rw [RpcListener.handleReady, hconnection, haccepts]
            rfl
          · intro hready
            exact absurd (haccepts.symm.trans (hready.2 hconnection)) Bool.false_ne_true
          · rw [hselect]
            exact (Shown.stop_false s.shown).symm

theorem step_read (kernel : Allocator Nat) {x : Poll} (hfits : s.Fits)
    (hnew : x.connection = true → (s.accepted kernel).Fits) (h : Offered x s offers) :
    ∃ answer t, (RpcListener.step kernel x).run s = .ok answer t ∧ ReadAll offers x s t := by
  have hset : ¬ ∃ fd ∈ insert s.sock s.clientSockets, RpcListener.FD_SETSIZE ≤ fd := by
    rintro ⟨fd, hfd, hle⟩
    exact Nat.not_le.mpr (hfits fd hfd) hle
  cases hselect : x.select with
  | interrupted =>
      refine ⟨.ok (), { s with gRun := false }, catching_run_ok ?_,
        readAll_of_none (h.eq_none ?_) rfl ?_⟩
      · rw [RpcListener.handleEvents, run_get_bind, run_get_bind, if_neg hset, hselect]
        rfl
      · rintro ⟨hready, -⟩
        cases hselect.symm.trans hready
      · rw [hselect]
        exact (Shown.stop_true s.shown).symm
  | fails =>
      refine ⟨.error (.systemError "rpc select"), s, catching_run_thrown ?_,
        readAll_of_none (h.eq_none ?_) rfl ?_⟩
      · rw [RpcListener.handleEvents, run_get_bind, run_get_bind, if_neg hset, hselect]
        rfl
      · rintro ⟨hready, -⟩
        cases hselect.symm.trans hready
      · rw [hselect]
        exact (Shown.stop_false s.shown).symm
  | ready =>
      have hevents : (RpcListener.handleEvents kernel x).run s
          = (RpcListener.handleReady kernel s.clientSockets x).run s := by
        rw [RpcListener.handleEvents, run_get_bind, run_get_bind, if_neg hset, hselect]
      obtain ⟨answer, t, hrun, hread⟩ := handleReady_read kernel hfits hnew h hselect
      exact ⟨answer, t, (catching_run_congr hevents).trans hrun, hread⟩

end Turn

/-! ## One turn of the main loop -/

section Loop

variable {s : Main} {x : Poll} {offers : Nat → Option Request}

theorem turn_run_of_step {kernel : Allocator Nat} {answer : Except Exception Unit}
    {rpc : RpcListener} (hs : s.Settled) (hrun : s.rpc.gRun = true)
    (hstep : (RpcListener.step kernel x).run { s.rpc with drawer := s.drawer.toDrawer }
      = .ok answer rpc) :
    (Main.turn kernel x).run s
      = .ok () ⟨rpc, FullDrawer.draw { s.drawer with toDrawer := rpc.drawer }⟩ := by
  have hevent : (Main.onListener (RpcListener.step kernel x)).run s
      = .ok answer ⟨rpc, { s.drawer with toDrawer := rpc.drawer }⟩ := by
    simp only [Main.onListener, EStateM.run] at hstep ⊢
    rw [hstep]
  have hdirty : FullDrawer.isDirty { s.drawer with toDrawer := rpc.drawer } = true :=
    FullDrawer.isDirty_iff.mpr ⟨.banner, (hs .banner).mpr (.inl rfl)⟩
  rw [Main.turn, run_get_bind, if_pos hrun, run_bind_of_ok hevent, run_get_bind, if_pos hdirty]
  rfl

/-- What a turn does to what is shown, and leaves as it was. -/
theorem turn_read (kernel : Allocator Nat) (hs : s.Settled) (hrun : s.rpc.gRun = true)
    (hfits : s.rpc.Fits) (hnew : x.connection = true → (s.rpc.accepted kernel).Fits)
    (h : Offered x s.rpc offers) :
    ∃ t, (Main.turn kernel x).run s = .ok () t ∧
      (∃ fds : List Nat, fds.Nodup ∧ (∀ fd r, offers fd = some r → fd ∈ fds) ∧
        t.shown = (((round offers fds).map Prod.snd).foldl Shown.handle s.shown).stop
          (x.select = .interrupted)) ∧
      (∀ fd ∈ s.rpc.clientSockets, x.activity fd ≠ .readable .endOfStream →
        fd ∈ t.rpc.clientSockets) ∧
      t.drawer.banner = s.drawer.banner ∧ t.drawer.versionString = s.drawer.versionString := by
  obtain ⟨answer, rpc, hstep, ⟨fds, hnodup, hfds, hshown⟩, hkeeps⟩ :=
    step_read (s := { s.rpc with drawer := s.drawer.toDrawer }) kernel hfits hnew
      ⟨h.reaches, h.presents⟩
  refine ⟨_, turn_run_of_step hs hrun hstep, ⟨fds, hnodup, hfds, ?_⟩, hkeeps, ?_, ?_⟩
  · rw [Main.shown, FullDrawer.draw_eq]
    exact hshown
  · rw [FullDrawer.draw_eq]
  · rw [FullDrawer.draw_eq]

end Loop

/-! ## One step -/

theorem asked_concat (fd : Nat) (past : List BootInput) (x : BootInput) :
    asked fd (past ++ [x]) = asked fd past ++ (x.asks fd).toList := by
  rw [asked, List.filterMap_append, asked, List.filterMap_cons]
  cases x.asks fd <;> rfl

theorem any_signals_concat (past : List BootInput) (x : BootInput) :
    (past ++ [x]).any BootInput.signals = (past.any BootInput.signals || x.signals) := by
  rw [List.any_append, List.any_cons, List.any_nil, Bool.or_false]

/-- The daemon after what was asked in `past`, of which it `handled` a part. -/
structure Reflects (version : List Byte) (s : Boot) (handled : List (Nat × Request))
    (past : List BootInput) : Prop where
  settled : s.main.Settled
  drawn : s.main.Drawn
  banner_eq : s.main.drawer.banner = ascii "Programmable Load"
  version_eq : s.main.drawer.versionString = version
  shown_eq : s.main.shown = ((handled.map Prod.snd).foldl Shown.handle .initial).stop
    (past.any BootInput.signals)
  queues_eq : ∀ fd, part fd handled ++ s.pending fd = asked fd past
  waiting : ∀ fd, s.pending fd ≠ [] → fd ∈ s.main.rpc.clientSockets

section Steps

variable {version : List Byte} {s : Boot} {handled : List (Nat × Request)}
  {past : List BootInput}

theorem reflects_start (sock : Nat) (version : List Byte) :
    Reflects version (.start sock version) [] [] where
  settled := Main.settled_start sock version
  drawn := ⟨[.setVersion version], rfl⟩
  banner_eq := by
    rw [Boot.start, Main.start, FullDrawer.draw_eq]
    rfl
  version_eq := by
    rw [Boot.start, Main.start, FullDrawer.draw_eq]
    rfl
  shown_eq := by
    rw [Main.shown, Boot.start, Main.start, FullDrawer.draw_eq]
    rfl
  queues_eq _ := rfl
  waiting _ h := absurd rfl h

theorem Reflects.request {fd : Nat} (r : Request) (hfd : fd ∈ s.main.rpc.clientSockets)
    (h : Reflects version s handled past) :
    Reflects version
      { s with pending := Function.update s.pending fd (s.pending fd ++ [r]) } handled
      (past ++ [.request fd r]) where
  settled := h.settled
  drawn := h.drawn
  banner_eq := h.banner_eq
  version_eq := h.version_eq
  shown_eq := by
    rw [any_signals_concat]
    exact h.shown_eq.trans (congrArg _ (Bool.or_false _).symm)
  queues_eq other := by
    rw [asked_concat, ← h.queues_eq other, BootInput.asks, List.append_assoc]
    by_cases hother : fd = other
    · subst hother
      simp
    · simp [hother, Function.update_of_ne (Ne.symm hother)]
  waiting other hother := by
    by_cases heq : other = fd
    · exact heq ▸ hfd
    · refine h.waiting other ?_
      simpa [Function.update_of_ne heq] using hother

theorem offer_append_rest (s : Boot) (w : Wake) (fd : Nat) :
    (s.offer w fd).toList ++ s.rest w fd = s.pending fd := by
  rw [Boot.rest, Boot.offer]
  split
  · cases s.pending fd <;> rfl
  · rfl

/-- What a turn reads is offered to it. -/
theorem offered_poll {w : Wake} (hrun : s.main.rpc.gRun = true) :
    Offered (s.poll w) s.main.rpc (s.offer w) where
  reaches fd r hr := by
    rw [Boot.offer] at hr
    split at hr
    · rename_i hreaches
      exact ⟨hreaches.1.2.1, hreaches.1.2.2, hreaches.2.2⟩
    · cases hr
  presents hselect haccepts fd hfd := by
    have hreaches : s.Reaches w := ⟨hrun, hselect, haccepts⟩
    show Presents (s.offer w fd) (s.activity w.ready fd)
    rw [Boot.offer, Boot.activity]
    cases w.ready fd with
    | false => simpa [hreaches] using Presents.idle
    | true =>
        simp only [hreaches, hfd, and_self, if_true]
        cases s.pending fd with
        | nil =>
            show Presents none (if fd ∈ s.gone then _ else _)
            split
            · exact .ends
            · exact .idle
        | cons r rs => exact .asks r

/-- At the end of its stream a client has nothing pending. -/
theorem pending_eq_nil_of_endOfStream {ready : Nat → Bool} {fd : Nat}
    (h : s.activity ready fd = .readable .endOfStream) : s.pending fd = [] := by
  rw [Boot.activity] at h
  split at h
  · cases hpending : s.pending fd with
    | nil => rfl
    | cons r rs =>
        rw [hpending] at h
        cases h
  · cases h

theorem rest_eq_of_ended (w : Wake) (hrun : s.main.rpc.gRun = false) : s.rest w = s.pending := by
  funext fd
  have hnot : ¬ s.Reaches w := fun hreaches => by
    rw [hreaches.1] at hrun
    cases hrun
  rw [Boot.rest, Boot.offer, if_neg fun hoffer => hnot hoffer.1]
  rfl

theorem step_turn_of_ok {kernel : Allocator Nat} {w : Wake} {main : Main}
    (h : (Main.turn kernel (s.poll w)).run s.main = .ok () main) :
    (Boot.step kernel (.turn w)).run s = .ok () { s with main := main, pending := s.rest w } := by
  simp only [Boot.step, EStateM.run] at h ⊢
  rw [h]

/-- The loop runs on only where no signal came. -/
theorem Reflects.no_signal (h : Reflects version s handled past)
    (hrun : s.main.rpc.gRun = true) : past.any BootInput.signals = false := by
  have hrunning : (_ && !past.any BootInput.signals) = true :=
    (congrArg Shown.running h.shown_eq).symm.trans hrun
  rw [Bool.and_eq_true, Bool.not_eq_true'] at hrunning
  exact hrunning.2

theorem reflects_turn (kernel : Allocator Nat) {w : Wake} (hx : s.Fair kernel (.turn w))
    (h : Reflects version s handled past) :
    ∃ t, (Boot.step kernel (.turn w)).run s = .ok () t ∧
      ∃ handled', Reflects version t handled' (past ++ [.turn w]) := by
  have hasked : ∀ fd, asked fd (past ++ [.turn w]) = asked fd past := fun fd => by
    rw [asked_concat]
    exact List.append_nil _
  cases hrun : s.main.rpc.gRun with
  | false =>
      -- the loop has ended, and what is pending stays so
      have hidle : (Main.turn kernel (s.poll w)).run s.main = .ok () s.main := by
        rw [Main.turn, run_get_bind, hrun]
        rfl
      refine ⟨_, step_turn_of_ok hidle, handled, ?_⟩
      rw [rest_eq_of_ended w hrun]
      refine ⟨h.settled, h.drawn, h.banner_eq, h.version_eq, ?_,
        fun fd => (h.queues_eq fd).trans (hasked fd).symm, h.waiting⟩
      rw [any_signals_concat, ← Shown.stop_stop, ← h.shown_eq]
      exact (Shown.stop_of_ended hrun _).symm
  | true =>
      obtain ⟨t, hturn, ⟨fds, hnodup, hfds, hshown⟩, hkeeps, hbanner, hversion⟩ :=
        turn_read kernel h.settled hrun hx.1 hx.2 (offered_poll (w := w) hrun)
      refine ⟨_, step_turn_of_ok hturn, handled ++ round (s.offer w) fds, h.settled.turn hturn,
        h.drawn.turn h.settled hturn, hbanner.trans h.banner_eq, hversion.trans h.version_eq,
        ?_, ?_, ?_⟩
      · rw [hshown, h.shown_eq, any_signals_concat, h.no_signal hrun, Shown.stop_false,
          Bool.false_or, List.map_append, List.foldl_append]
        rfl
      · intro fd
        -- the round takes from a client what this offered, and the rest stays
        have hround : part fd (round (s.offer w) fds) = (s.offer w fd).toList := by
          rw [part_round _ hnodup]
          cases hoffer : s.offer w fd with
          | none => exact ite_self _
          | some r => exact if_pos (hfds fd r hoffer)
        rw [part_append, hround, List.append_assoc, offer_append_rest, h.queues_eq, hasked]
      · intro fd hfd
        have hpending : s.pending fd ≠ [] := fun hnil => hfd (by
          show (s.pending fd).drop _ = []
          rw [hnil, List.drop_nil])
        exact hkeeps fd (h.waiting fd hpending)
          fun hends => hpending (pending_eq_nil_of_endOfStream hends)

theorem reflects_signal (kernel : Allocator Nat) (h : Reflects version s handled past) :
    ∃ t, (Boot.step kernel .signal).run s = .ok () t ∧
      ∃ handled', Reflects version t handled' (past ++ [.signal]) := by
  refine ⟨_, rfl, handled, h.settled, h.drawn, h.banner_eq, h.version_eq, ?_, fun fd => ?_,
    h.waiting⟩
  · rw [any_signals_concat, ← Shown.stop_stop, ← h.shown_eq]
    exact (Shown.stop_true s.main.shown).symm
  · rw [asked_concat]
    exact (h.queues_eq fd).trans (List.append_nil _).symm

theorem reflects_step (kernel : Allocator Nat) {x : BootInput} (hx : s.Fair kernel x)
    (h : Reflects version s handled past) :
    ∃ t, (Boot.step kernel x).run s = .ok () t ∧
      ∃ handled', Reflects version t handled' (past ++ [x]) := by
  cases x with
  | request fd r => exact ⟨_, rfl, handled, h.request r hx.2.1⟩
  | disconnect fd =>
      refine ⟨_, rfl, handled, h.settled, h.drawn, h.banner_eq, h.version_eq, ?_, fun other => ?_,
        h.waiting⟩
      · rw [any_signals_concat]
        exact h.shown_eq.trans (congrArg _ (Bool.or_false _).symm)
      · rw [asked_concat]
        exact (h.queues_eq other).trans (List.append_nil _).symm
  | signal => exact reflects_signal kernel h
  | turn w => exact reflects_turn kernel hx h

end Steps

/-! ## Interleavings -/

/-- The value is the last one that one of the clients asked for, or the `first`
one if none asked for any. -/
def SetByLast {A : Type} (f : Request → Option A) (first : A) (xs : List BootInput) (a : A) :
    Prop :=
  (∃ fd, last f (asked fd xs) = some a) ∨ (∀ fd, last f (asked fd xs) = none) ∧ a = first

/-- The screen with a progress and a text. -/
def screen (version : List Byte) (progress : BitVec 64) (text : List Byte) : Picture :=
  ⟨ascii "Programmable Load", some progress, text, version⟩

section Shown

variable (kernel : Allocator Nat) (sock : Nat) (version : List Byte) (xs : List BootInput)

def bootAfter : Boot := final (Boot.step kernel) (.start sock version) xs

/-- How the screen and the main loop follow from what the clients asked for:
 * nothing in the interleaving faults;
 * what was handled and what is pending is what each client asked for, in its
   order; the screen shows what of it was handled last, and the loop has ended
   if and only if an exit was, or a signal came;
 * with nothing pending the screen shows the last progress and the last text of
   one of the clients. -/
structure RequestsShown : Prop where
  runs : ∃ ws, Steps (Boot.step kernel) (.start sock version) xs ws
    (bootAfter kernel sock version xs)
  handled : ∃ handled : List (Nat × Request),
    (∀ fd, part fd handled ++ (bootAfter kernel sock version xs).pending fd = asked fd xs) ∧
    (bootAfter kernel sock version xs).main.drawer.surface.picture
      = screen version ((last Request.setsProgress (handled.map Prod.snd)).getD 0)
        ((last Request.setsText (handled.map Prod.snd)).getD (ascii "Please wait...")) ∧
    ((bootAfter kernel sock version xs).main.rpc.gRun = false ↔
      (∃ fd, (fd, .exit) ∈ handled) ∨ ∃ x ∈ xs, x.signals = true)
  settles : (∀ fd, (bootAfter kernel sock version xs).pending fd = []) →
    ∃ progress text,
      (bootAfter kernel sock version xs).main.drawer.surface.picture
        = screen version progress text ∧
      SetByLast Request.setsProgress 0 xs progress ∧
      SetByLast Request.setsText (ascii "Please wait...") xs text ∧
      ((bootAfter kernel sock version xs).main.rpc.gRun = false ↔
        (∃ fd, .exit ∈ asked fd xs) ∨ ∃ x ∈ xs, x.signals = true)

end Shown

section Runs

variable {kernel : Allocator Nat} {sock : Nat} {version : List Byte} {xs : List BootInput}
  {s : Boot} {handled : List (Nat × Request)} {past : List BootInput}

theorem reflects_run
    (hfair : Wherever (Boot.step kernel) (Boot.Fair kernel) (.start sock version) xs) :
    (∃ ws, Steps (Boot.step kernel) (.start sock version) xs ws
        (bootAfter kernel sock version xs)) ∧
      ∃ handled, Reflects version (bootAfter kernel sock version xs) handled xs := by
  have hall : ∀ ys : List BootInput, ys.foldl (fun past x => past ++ [x]) [] = ys := by
    intro ys
    induction ys using List.reverseRecOn with
    | nil => rfl
    | append_singleton ys x ih => rw [List.foldl_concat, ih]
  have htakes : ∀ s past x, (∃ handled, Reflects version s handled past) →
      Boot.Fair kernel s x →
      ∃ w t, (Boot.step kernel x).run s = .ok w t ∧
        ∃ handled, Reflects version t handled (past ++ [x]) := by
    rintro s past x ⟨handled, hs⟩ hx
    exact ⟨(), reflects_step kernel hx hs⟩
  have hrun := steps_of_simulation (R := fun s past => ∃ handled, Reflects version s handled past)
    htakes ⟨[], reflects_start sock version⟩ hfair
  rw [hall] at hrun
  exact hrun

theorem Reflects.picture_eq (h : Reflects version s handled past) :
    s.main.drawer.surface.picture
      = screen version ((last Request.setsProgress (handled.map Prod.snd)).getD 0)
        ((last Request.setsText (handled.map Prod.snd)).getD (ascii "Please wait...")) := by
  obtain ⟨calls, hcalls⟩ := h.drawn
  have hfull : s.main.drawer.surface.picture = s.main.drawer.fullPicture := by
    rw [hcalls]
    exact picture_after_draw calls
  have hshown := h.shown_eq
  rw [Shown.foldl_handle, Shown.stop] at hshown
  have hprogress : s.main.drawer.progress = _ := congrArg Shown.progress hshown
  have htext : s.main.drawer.progressString = _ := congrArg Shown.progressString hshown
  rw [hfull, FullDrawer.fullPicture, h.banner_eq, h.version_eq, hprogress, htext]
  rfl

theorem Reflects.ended_iff (h : Reflects version s handled past) :
    s.main.rpc.gRun = false ↔
      (∃ fd, (fd, .exit) ∈ handled) ∨ ∃ x ∈ past, x.signals = true := by
  have hshown := h.shown_eq
  rw [Shown.foldl_handle, Shown.stop] at hshown
  have hrun : s.main.rpc.gRun = _ := congrArg Shown.running hshown
  rw [hrun, Bool.and_eq_false_iff, Bool.not_eq_false', List.any_eq_true]
  simp [Shown.initial]

/-- With nothing pending, what was handled is what was asked for. -/
theorem setByLast_handled {A : Type} (f : Request → Option A) (first : A)
    (h : ∀ fd, part fd handled = asked fd xs) :
    SetByLast f first xs ((last f (handled.map Prod.snd)).getD first) := by
  cases hlast : last f (handled.map Prod.snd) with
  | none => exact .inr ⟨fun fd => h fd ▸ last_part_eq_none hlast fd, rfl⟩
  | some a =>
      obtain ⟨fd, hfd⟩ := exists_last_part hlast
      exact .inl ⟨fd, h fd ▸ hfd⟩

end Runs

/-- Every interleaving, with any number of clients. -/
theorem requests_shown {kernel : Allocator Nat} {sock : Nat} {version : List Byte}
    {xs : List BootInput}
    (hfair : Wherever (Boot.step kernel) (Boot.Fair kernel) (.start sock version) xs) :
    RequestsShown kernel sock version xs := by
  obtain ⟨hruns, handled, h⟩ := reflects_run hfair
  refine ⟨hruns, ⟨handled, h.queues_eq, h.picture_eq, h.ended_iff⟩, ?_⟩
  intro hquiet
  have hparts : ∀ fd, part fd handled = asked fd xs := by
    intro fd
    have hqueue := h.queues_eq fd
    rwa [hquiet fd, List.append_nil] at hqueue
  refine ⟨_, _, h.picture_eq, setByLast_handled _ _ hparts, setByLast_handled _ _ hparts,
    h.ended_iff.trans ?_⟩
  simp only [← hparts, mem_part]

/-- A client connects. -/
def connects : Wake := ⟨.ready, true, true, fun _ => false, .ascending⟩

/-- Everything that the clients asked for is read. -/
def reads : Wake := ⟨.ready, false, true, fun _ => true, .ascending⟩

theorem connects_run : ∃ t, (Boot.step (.lowest 4) (.turn connects)).run (.start 3 []) = .ok () t ∧
    t.main.rpc.gRun = true ∧ t.main.rpc.sock = 3 ∧ t.main.rpc.clientSockets = {4} ∧
    t.gone = ∅ := by
  have hidle : (RpcListener.handleClients
      (RpcListener.reported ∅ ((Boot.start 3 []).activity fun _ => false)) [4]).run
        ((Boot.start 3 []).main.rpc.accepted (.lowest 4))
      = .ok ∅ ((Boot.start 3 []).main.rpc.accepted (.lowest 4)) := rfl
  have hstep := RpcListener.step_run_of_handleReady (x := (Boot.start 3 []).poll connects)
    (s := (Boot.start 3 []).main.rpc) (by decide) rfl
    (RpcListener.handleConnections_run_of_keys RpcListener.keys_first hidle)
  exact ⟨_, step_turn_of_ok (turn_run_of_step (Main.settled_start 3 []) rfl hstep), rfl, rfl,
    by decide, rfl⟩

/-- A client connects, asks for a text, and is heard before a signal comes. -/
theorem requests_shown_text :
    RequestsShown (.lowest 4) 3 []
      [.turn connects, .request 4 (.message (ascii "Loading" ++ [0])), .turn reads, .signal] := by
  obtain ⟨t, hrun, hgRun, hsock, hclients, hgone⟩ := connects_run
  have hask : t.main.rpc.gRun = true ∧ 4 ∈ t.main.rpc.clientSockets ∧ 4 ∉ t.gone := by
    rw [hclients, hgone]
    exact ⟨hgRun, Finset.mem_singleton_self 4, Finset.notMem_empty 4⟩
  have hfits : ∀ fd ∈ insert t.main.rpc.sock t.main.rpc.clientSockets, fd < 1024 := by
    rw [hsock, hclients]
    decide
  have hstart : ∀ fd ∈ insert 3 (∅ : Finset Nat), fd < 1024 := by decide
  have hfirst : ∀ fd ∈ insert 3 (insert 4 (∅ : Finset Nat)), fd < 1024 := by decide
  refine requests_shown ⟨⟨hstart, fun _ => hfirst⟩, ?_⟩
  rw [stateAfter_of_ok hrun]
  exact ⟨hask, ⟨hfits, fun h => absurd h Bool.false_ne_true⟩, trivial, trivial⟩

end Splash
