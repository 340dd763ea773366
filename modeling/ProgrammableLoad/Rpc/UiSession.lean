/-
# `Rpc.UiSession` — the GUI and pinballd, with messages on their way

The GUI asks pinballd for input events when it starts and for none when it
ends: `enableUiEvents` and `disableUiEvents` send a broadcast configuration,
and keep and drop the renderer.  Neither waits for pinballd, so requests and
broadcasts cross.  Meanwhile other clients come, ask for what they like and go.

`uiEvents_exact` is about every interleaving: that nothing faults, that a
broadcast is handled at most once and in its order, that the two agree once
they are done talking, that nothing is queued while the renderer is gone, and
that while it is there nothing is lost.

Sockets take every write.  A read of the GUI's finds one packet or several at
once, of which it handles the first; a packet of the GUI's arrives by itself.
-/
import ProgrammableLoad.Buttons.Events
import ProgrammableLoad.Rpc.Subscriptions
import ProgrammableLoad.Theory.Feed
import ProgrammableLoad.Touch.Stream

namespace Rpc

open Cpp Cbor Cbor.Util Program Handles Feeds

/-! ## Asking for events -/

namespace PinballClient

/-- `PinballBroadcastType`, whose members may be ORed together. -/
abbrev BroadcastMask := BitVec 32

def touchEvent : BroadcastMask := 1
def buttonEvent : BroadcastMask := 2
def encoderEvent : BroadcastMask := 4

def kUiBroadcastMask : BroadcastMask := touchEvent ||| buttonEvent ||| encoderEvent

def broadcastMap (mask : BroadcastMask) : Item :=
  .map true [
    (.ofString "touch", .ofBool (mask &&& touchEvent ≠ 0)),
    (.ofString "button", .ofBool (mask &&& buttonEvent ≠ 0)),
    (.ofString "encoder", .ofBool (mask &&& encoderEvent ≠ 0))]

def setDesiredBroadcasts (cbor : Libcbor) (accepts : List Byte → Bool) (mask : BroadcastMask) :
    EStateM Fault PinballClient Unit := do
  let _ ← onBase (ClientBase.sendPacket accepts kRpcEndpointBroadcastConfig
    (cbor.serialize (broadcastMap mask)))

def enableUiEvents (cbor : Libcbor) (accepts : List Byte → Bool) :
    EStateM Fault PinballClient Unit := do
  modify fun c => { c with gui := true }
  setDesiredBroadcasts cbor accepts kUiBroadcastMask

def disableUiEvents (cbor : Libcbor) (accepts : List Byte → Bool) :
    EStateM Fault PinballClient Unit := do
  setDesiredBroadcasts cbor accepts 0
  modify fun c => { c with gui := false }

/-- A client that was just constructed. -/
def fresh : PinballClient := ⟨⟨0, [], []⟩, false, [], (0, 0)⟩

end PinballClient

/-- The mask the GUI asks for. -/
def uiMask (wants : Bool) : PinballClient.BroadcastMask :=
  if wants then PinballClient.kUiBroadcastMask else 0

/-! ## Input events -/

/-- A broadcast of the touch driver or the button driver. -/
inductive UiMessage where
  | touches (touch0 touch1 : Option Touch.TouchPosition)
  | buttons (changes : Buttons.Changes)

namespace UiMessage

def type : UiMessage → BroadcastType
  | .touches .. => .touchEvent
  | .buttons _ => .buttonEvent

def item : UiMessage → Item
  | .touches touch0 touch1 => Touch.Ft6336.touchMessage touch0 touch1
  | .buttons changes => Buttons.buttonMessage changes

def payload (cbor : Libcbor) (m : UiMessage) : List Byte := cbor.serialize m.item

/-- The message as it is sent. -/
def bytes (cbor : Libcbor) (m : UiMessage) : List Byte :=
  packet kRpcEndpointUiEvent 0 (m.payload cbor)

/-- The library brings the message back from its encoding, and this has a size
that a header can give. -/
structure Carried (cbor : Libcbor) (m : UiMessage) : Prop where
  encodes : cbor.Encodes (m.payload cbor) m.item
  length_le : (m.payload cbor).length ≤ maxPayload

end UiMessage

/-- The same of what the GUI asks with. -/
structure CarriesMasks (cbor : Libcbor) : Prop where
  encodes : ∀ wants, cbor.Encodes (cbor.serialize (PinballClient.broadcastMap (uiMask wants)))
    (PinballClient.broadcastMap (uiMask wants))
  length_le : ∀ wants,
    (cbor.serialize (PinballClient.broadcastMap (uiMask wants))).length ≤ maxPayload

/-! ## The two processes -/

/-- pinballd and the GUI, with how many packets of the GUI's were heard and how
many of pinballd's packets for the GUI were read. -/
structure Link where
  daemon : Process
  gui : PinballClient
  heard : Nat
  read : Nat

namespace Link

def onDaemon {α : Type} (m : EStateM Fault Process α) : EStateM Fault Link α := fun s =>
  match m.run s.daemon with
  | .ok a daemon => .ok a { s with daemon := daemon }
  | .error e daemon => .error e { s with daemon := daemon }

def onGui {α : Type} (m : EStateM Fault PinballClient α) : EStateM Fault Link α := fun s =>
  match m.run s.gui with
  | .ok a gui => .ok a { s with gui := gui }
  | .error e gui => .error e { s with gui := gui }

/-- The packets on their way to pinballd. -/
def toPinballd (s : Link) : List (List Byte) := s.gui.base.written.drop s.heard

/-- The packets on their way to the GUI, whose client is that of `fd`. -/
def toGui (fd : Nat) (s : Link) : List (List Byte) :=
  ((s.daemon.server.clients.lookup fd).elim [] Client.written).drop s.read

/-- The GUI after it connected to a daemon. -/
def joined (daemon : Process) : Link := ⟨daemon, .fresh, 0, 0⟩

end Link

/-- What happens next. -/
inductive LinkInput (cbor : Libcbor) where
  | enable
  | disable
  | hear
  | broadcast (m : UiMessage)
  | receive (more : Nat)
  | other (x : SubscriptionInput cbor)

/-- It happens to another client than that of `fd`. -/
def SubscriptionInput.Elsewhere {cbor : Libcbor} (fd : Nat) : SubscriptionInput cbor → Prop
  | .connect => True
  | .disconnect other => other ≠ fd
  | .configure other _ => other ≠ fd
  | .broadcast _ => False

/-- The read callback of pinballd. -/
def hear (kernel : Allocator Nat) (cbor : Libcbor) (table : IndicatorTable) (fd : Nat) :
    List (List Byte) → EStateM Fault Link Unit
  | [] => pure ()
  | packet :: _ => do
      let _ ← Link.onDaemon (Process.step kernel cbor table (.read fd packet true))
      modify fun s => { s with heard := s.heard + 1 }

/-- The read callback of the GUI, which logs what is thrown. -/
def receive (cbor : Libcbor) (more : Nat) : List (List Byte) → EStateM Fault Link Unit
  | [] => pure ()
  | packet :: later => do
      let _ ← catching (Link.onGui
        (PinballClient.bevRead cbor (packet ++ (later.take more).flatten) true))
      modify fun s => { s with read := s.read + 1 + (later.take more).length }

def linkStep (kernel : Allocator Nat) (cbor : Libcbor) (table : IndicatorTable) (fd : Nat) :
    LinkInput cbor → EStateM Fault Link Unit
  | .enable => Link.onGui (PinballClient.enableUiEvents cbor fun _ => true)
  | .disable => Link.onGui (PinballClient.disableUiEvents cbor fun _ => true)
  | .hear => do hear kernel cbor table fd (← get).toPinballd
  | .broadcast m => Link.onDaemon (Process.onServer
      (broadcastRaw (fun _ => true) m.type kRpcEndpointUiEvent (m.payload cbor)))
  | .receive more => do receive cbor more ((← get).toGui fd)
  | .other x => do
      let _ ← Link.onDaemon (subscriptionStep kernel cbor table x)

/-! ## What the GUI makes of the messages -/

/-- The position of the last press, and the events of the screen. -/
abbrev Screen := Touch.TouchPosition × List GuiEvent

def PinballClient.screen (c : PinballClient) : Screen := (c.lastTouchPos, c.queue)

/-- The screen after a message, with whether the renderer was there. -/
def shown (s : Screen) (x : Bool × UiMessage) : Screen :=
  match x.2 with
  | .touches touch0 _ =>
      (touch0.getD s.1, if x.1 then s.2 ++ [Touch.queued s.1 touch0] else s.2)
  | .buttons changes => (s.1, if x.1 then s.2 ++ changes.filterMap Buttons.guiEvent else s.2)

/-- The screen after some messages that all came while the renderer was there. -/
def shownAll (s : Screen) (msgs : List UiMessage) : Screen :=
  msgs.foldl (fun s m => shown s (true, m)) s

/-- The feed as which the GUI has its input events. -/
def LinkInput.event {cbor : Libcbor} : LinkInput cbor → Option (Event UiMessage)
  | .enable => some (.asks true)
  | .disable => some (.asks false)
  | .hear => some .hears
  | .broadcast m => some (.publishes m)
  | .receive more => some (.receives more)
  | .other _ => none

def feedEvents {cbor : Libcbor} (xs : List (LinkInput cbor)) : List (Event UiMessage) :=
  xs.filterMap LinkInput.event

/-- The input events that the drivers broadcast. -/
def issued {cbor : Libcbor} (xs : List (LinkInput cbor)) : List UiMessage :=
  published (feedEvents xs)

/-! ## One message at the GUI -/

section Gui

variable {cbor : Libcbor} {c : PinballClient} {m : UiMessage}

/-- A packet is received as its message, whatever arrives with it. -/
theorem receive_append {endpoint tag : Byte} {bytes : List Byte} {item : Item}
    (hencodes : cbor.Encodes bytes item) (hfits : bytes.length ≤ maxPayload)
    (rest : List Byte) :
    ClientBase.receive cbor (packet endpoint tag bytes ++ rest)
      = .ok (some (Header.read (packet endpoint tag bytes), some item)) := by
  have hsize : headerSize ≤ (packet endpoint tag bytes).length := by
    rw [length_packet]
    exact Nat.le_add_right _ _
  have hlength : (Header.read (packet endpoint tag bytes)).length.toNat
      = headerSize + bytes.length := by
    unfold maxPayload at hfits
    rw [toNat_length_packet]
    exact Nat.mod_eq_of_lt (by unfold headerSize; omega)
  have hpos := List.length_pos_iff.mpr hencodes.ne_nil
  have hload : loadRegion cbor toString (packet endpoint tag bytes ++ rest)
      ⟨headerSize, headerSize + bytes.length - headerSize⟩ = .ok item := by
    refine loadRegion_eq_ok_iff.mpr ⟨?_, ?_⟩
    · rw [List.length_append, length_packet]
      simp only
      omega
    · show cbor.load (((packet endpoint tag bytes ++ rest).drop headerSize).take _) = _
      rw [List.drop_append_of_le_length hsize, drop_packet, Nat.add_sub_cancel_left,
        List.take_left, hencodes.load_eq]
  have hshort : ¬ (packet endpoint tag bytes ++ rest).length < headerSize := by
    rw [List.length_append]
    omega
  rw [ClientBase.receive, if_neg hshort, Header.read_append hsize]
  simp only [version_packet, hlength, ne_eq, not_true_eq_false, if_false]
  rw [if_neg (by omega), if_neg (by omega), hload]
  rfl

theorem processButton_run_gone (change : Buttons.Button × Bool) (h : c.gui = false) :
    (PinballClient.processButton
        (Item.ofString (Buttons.kButtonNames change.1), Item.ofBool change.2)).run c
      = .ok () c := by
  obtain ⟨base, gui, queue, pos⟩ := c
  subst h
  obtain ⟨b, state⟩ := change
  cases b <;> cases state <;> rfl

/-- Without the renderer buttons are passed over. -/
theorem forM_processButton_run_gone (changes : Buttons.Changes) (h : c.gui = false) :
    (forM (changes.map fun change =>
        (Item.ofString (Buttons.kButtonNames change.1), Item.ofBool change.2))
      PinballClient.processButton).run c = .ok () c := by
  induction changes with
  | nil => rfl
  | cons change changes ih =>
      rw [List.map_cons, List.forM_cons, run_bind_of_ok (processButton_run_gone change h)]
      exact ih

/-- The client after a message. -/
def PinballClient.handled (c : PinballClient) (m : UiMessage) : PinballClient :=
  { c with
    lastTouchPos := (shown c.screen (c.gui, m)).1
    queue := (shown c.screen (c.gui, m)).2 }

theorem handleIncomingMessage_run (hdr : Header) (hendpoint : hdr.endpoint = kRpcEndpointUiEvent)
    (m : UiMessage) :
    (PinballClient.handleIncomingMessage hdr (some m.item)).run c = .ok () (c.handled m) := by
  cases m with
  | touches touch0 touch1 => exact Touch.deliver_run ⟨hdr, touch0, touch1, hendpoint⟩
  | buttons changes =>
      cases hgui : c.gui with
      | true =>
          have hrun := Buttons.handleIncomingMessage_run hdr changes hendpoint hgui
          refine hrun.trans ?_
          rw [PinballClient.handled, hgui]
          rfl
      | false =>
          have hself : c.handled (.buttons changes) = c := by
            obtain ⟨base, gui, queue, last⟩ := c
            subst hgui
            rfl
          rw [PinballClient.handleIncomingMessage, if_pos hendpoint, hself]
          exact forM_processButton_run_gone changes hgui

theorem bevRead_message (h : m.Carried cbor) (c : PinballClient) (rest : List Byte) :
    (PinballClient.bevRead cbor (m.bytes cbor ++ rest) true).run c
      = .ok () ({ c with base := { c.base with rxBuf := m.bytes cbor ++ rest } }.handled m) := by
  have hbase : (ClientBase.bevRead cbor (m.bytes cbor ++ rest) true).run c.base
      = .ok (some (Header.read (m.bytes cbor), some m.item))
        { c.base with rxBuf := m.bytes cbor ++ rest } :=
    ClientBase.bevRead_run_eq_ok_iff.mpr ⟨receive_append h.encodes h.length_le rest, rfl⟩
  have hread : (PinballClient.onBase (ClientBase.bevRead cbor (m.bytes cbor ++ rest) true)).run c
      = .ok (some (Header.read (m.bytes cbor), some m.item))
        { c with base := { c.base with rxBuf := m.bytes cbor ++ rest } } := by
    simp only [PinballClient.onBase, EStateM.run] at hbase ⊢
    rw [hbase]
  rw [PinballClient.bevRead, run_bind_of_ok hread]
  exact handleIncomingMessage_run _ (endpoint_packet _ _ _) m

end Gui

/-! ## The link as a feed -/

section Configuration

variable {cbor : Libcbor} (hmasks : CarriesMasks cbor)

/-- The configuration that asks for all input events, or for none. -/
def uiConfig (wants : Bool) (tag : Byte) : BroadcastConfig cbor where
  definite := true
  pairs := [(ascii "touch", wants), (ascii "button", wants), (ascii "encoder", wants)]
  tag := tag
  bytes := cbor.serialize (PinballClient.broadcastMap (uiMask wants))
  encodes := by
    have h := hmasks.encodes wants
    cases wants <;> exact h
  fits := hmasks.length_le wants

theorem setting_uiConfig (wants : Bool) (tag : Byte) (type : BroadcastType) :
    (uiConfig hmasks wants tag).setting type = some wants := by
  cases type <;> rfl

/-- The GUI after it sent a request. -/
def PinballClient.asked (c : PinballClient) (wants : Bool) : PinballClient :=
  { c with
    gui := wants
    base := { c.base with
      nextTag := ClientBase.followingTag c.base.nextTag
      written := c.base.written ++
        [(uiConfig hmasks wants (ClientBase.followingTag c.base.nextTag)).message] } }

theorem enableUiEvents_run (c : PinballClient) :
    (PinballClient.enableUiEvents cbor fun _ => true).run c = .ok () (c.asked hmasks true) := rfl

theorem disableUiEvents_run (c : PinballClient) :
    (PinballClient.disableUiEvents cbor fun _ => true).run c = .ok () (c.asked hmasks false) := rfl

end Configuration

section Simulation

variable {kernel : Allocator Nat} {cbor : Libcbor} {table : IndicatorTable} {fd : Nat}
  {hmasks : CarriesMasks cbor} {screen : Screen} {s t : Link} {f : Feed UiMessage}
  {seen : List (Seen cbor)}

/-- What the daemon has for the client of the GUI: whether it wants events, and
the packets that it has not read yet. -/
structure Feeding (cbor : Libcbor) (read : Nat) (f : Feed UiMessage) (seen : List (Seen cbor)) :
    Prop where
  wanted_eq : ∀ type, wanted type seen = f.serves
  read_le : read ≤ (delivered seen).length
  inFlight : ((delivered seen).map Broadcast.bytes).drop read
    = f.inFlight.map (UiMessage.bytes cbor)

/-- The link does as the feed does. -/
structure Linked (hmasks : CarriesMasks cbor) (fd : Nat) (screen : Screen) (s : Link)
    (f : Feed UiMessage) : Prop where
  daemon : ∃ past seen, Subscribed s.daemon past ∧ session fd past = some seen ∧
    Feeding cbor s.read f seen
  wants : s.gui.gui = f.wants
  heard_le : s.heard ≤ s.gui.base.written.length
  requests : List.Forall₂ (fun wants bytes => ∃ tag, bytes = (uiConfig hmasks wants tag).message)
    f.requests s.toPinballd
  carried : ∀ m ∈ f.inFlight, m.Carried cbor
  screen_eq : s.gui.screen = f.received.foldl shown screen

/-- The GUI's client at the daemon. -/
theorem exists_client {p : Process} {past : List (Happening cbor)} (h : Subscribed p past)
    (hseen : session fd past = some seen) : ∃ client, p.server.clients.lookup fd = some client ∧
      client.written = (delivered seen).map Broadcast.bytes ∧
      ∀ type, client.wantsBroadcastOfType type = wanted type seen := by
  have hview := h.view_eq fd
  rw [hseen] at hview
  obtain ⟨client, hclient, hview⟩ := Option.map_eq_some_iff.mp hview
  obtain ⟨hwritten, hwants⟩ := Prod.ext_iff.mp hview
  exact ⟨client, hclient, hwritten, congrFun hwants⟩

theorem Linked.toGui_eq (h : Linked hmasks fd screen s f) :
    s.toGui fd = f.inFlight.map (UiMessage.bytes cbor) := by
  obtain ⟨past, seen, hsubscribed, hseen, hfeeding⟩ := h.daemon
  obtain ⟨client, hclient, hwritten, -⟩ := exists_client hsubscribed hseen
  rw [Link.toGui, hclient, ← hfeeding.inFlight, ← hwritten]
  rfl

theorem Linked.requests_eq_nil (h : Linked hmasks fd screen s f) (hheard : s.toPinballd = []) :
    f.requests = [] := by
  have hrequests := h.requests
  rw [hheard] at hrequests
  exact List.forall₂_nil_right_iff.mp hrequests

theorem Linked.inFlight_eq_nil (h : Linked hmasks fd screen s f) (hread : s.toGui fd = []) :
    f.inFlight = [] := List.map_eq_nil_iff.mp (h.toGui_eq.symm.trans hread)

/-! ### Requests -/

theorem linked_asked (wants : Bool) (h : Linked hmasks fd screen s f) :
    Linked hmasks fd screen { s with gui := s.gui.asked hmasks wants } (f.step (.asks wants)) where
  daemon := by
    obtain ⟨past, seen, hsubscribed, hseen, hfeeding⟩ := h.daemon
    exact ⟨past, seen, hsubscribed, hseen, hfeeding.wanted_eq, hfeeding.read_le, hfeeding.inFlight⟩
  wants := rfl
  heard_le := by
    show s.heard ≤ (s.gui.base.written ++ [_]).length
    rw [List.length_append]
    exact Nat.le_add_right_of_le h.heard_le
  requests := by
    show List.Forall₂ _ (f.requests ++ [wants]) ((s.gui.base.written ++ [_]).drop s.heard)
    rw [List.drop_append_of_le_length h.heard_le]
    exact List.rel_append h.requests (.cons ⟨_, rfl⟩ .nil)
  carried := h.carried
  screen_eq := h.screen_eq

theorem onGui_run_of_ok {α : Type} {m : EStateM Fault PinballClient α} {a : α}
    {gui : PinballClient} (h : m.run s.gui = .ok a gui) :
    (Link.onGui m).run s = .ok a { s with gui := gui } := by
  simp only [Link.onGui, EStateM.run] at h ⊢
  rw [h]

theorem onDaemon_run_of_ok {α : Type} {m : EStateM Fault Process α} {a : α}
    {daemon : Process} (h : m.run s.daemon = .ok a daemon) :
    (Link.onDaemon m).run s = .ok a { s with daemon := daemon } := by
  simp only [Link.onDaemon, EStateM.run] at h ⊢
  rw [h]

variable (kernel table) in
theorem linked_hear (h : Linked hmasks fd screen s f) :
    ∃ t, (linkStep kernel cbor table fd .hear).run s = .ok () t ∧
      Linked hmasks fd screen t (f.step .hears) := by
  obtain ⟨past, seen, hsubscribed, hseen, hfeeding⟩ := h.daemon
  rw [linkStep, run_get_bind, Feed.step, Feed.hear]
  have hrequests := h.requests
  generalize hpackets : s.toPinballd = packets at hrequests
  cases hasked : f.requests with
  | nil =>
      rw [hasked] at hrequests
      cases hrequests
      exact ⟨s, rfl, h⟩
  | cons wants requests =>
      rw [hasked] at hrequests
      cases hrequests with
      | @cons _ packet _ later hpacket hlater =>
          obtain ⟨tag, rfl⟩ := hpacket
          obtain ⟨w, q, hconfigure, hq⟩ :=
            subscribed_configure fd (uiConfig hmasks wants tag) hsubscribed
          obtain ⟨answer, u, hstep, hreturn⟩ := run_bind_eq_ok.mp hconfigure
          cases hreturn
          refine ⟨{ s with daemon := q, heard := s.heard + 1 }, ?_, ?_⟩
          · exact run_bind_of_ok (onDaemon_run_of_ok hstep)
          · refine ⟨⟨_, .configured (uiConfig hmasks wants tag) :: seen, hq, ?_, ?_⟩, h.wants, ?_,
              ?_, h.carried, h.screen_eq⟩
            · rw [session, if_pos rfl, hseen]
              rfl
            · refine ⟨fun type => ?_, hfeeding.read_le, hfeeding.inFlight⟩
              rw [wanted, setting_uiConfig]
              rfl
            · have hlength := congrArg List.length hpackets
              rw [Link.toPinballd, List.length_drop, List.length_cons] at hlength
              show s.heard + 1 ≤ s.gui.base.written.length
              omega
            · show List.Forall₂ _ requests (s.gui.base.written.drop (s.heard + 1))
              rw [← List.drop_drop, show s.gui.base.written.drop s.heard = _ from hpackets]
              exact hlater

/-! ### Messages -/

variable (kernel table) in
theorem linked_broadcast {m : UiMessage} (hm : m.Carried cbor) (h : Linked hmasks fd screen s f) :
    ∃ t, (linkStep kernel cbor table fd (.broadcast m)).run s = .ok () t ∧
      Linked hmasks fd screen t (f.step (.publishes m)) := by
  obtain ⟨past, seen, hsubscribed, hseen, hfeeding⟩ := h.daemon
  let b : Broadcast := ⟨m.type, kRpcEndpointUiEvent, m.payload cbor, hm.length_le⟩
  obtain ⟨w, q, hbroadcast, hq⟩ :=
    subscribed_step kernel table (.broadcast b) hsubscribed
  obtain ⟨answer, u, hstep, hreturn⟩ := run_bind_eq_ok.mp hbroadcast
  cases hreturn
  refine ⟨{ s with daemon := q }, onDaemon_run_of_ok hstep, ?_⟩
  have hsession : session fd (.broadcast b :: past) = some (.broadcast b :: seen) := by
    rw [session, hseen]
    rfl
  have hdelivered : delivered (.broadcast b :: seen)
      = if f.serves then delivered seen ++ [b] else delivered seen := by
    rw [delivered, hfeeding.wanted_eq]
  rw [Feed.step]
  cases hserves : f.serves with
  | false =>
      rw [hserves] at hdelivered
      refine ⟨⟨_, _, hq, hsession, ⟨hfeeding.wanted_eq, ?_, ?_⟩⟩, h.wants, h.heard_le, h.requests,
        h.carried, h.screen_eq⟩
      · rw [hdelivered]
        exact hfeeding.read_le
      · rw [hdelivered]
        exact hfeeding.inFlight
  | true =>
      rw [hserves] at hdelivered
      rw [if_pos rfl]
      refine ⟨⟨_, _, hq, hsession, ⟨fun type => ?_, ?_, ?_⟩⟩, h.wants, h.heard_le, h.requests, ?_,
        h.screen_eq⟩
      · rw [wanted, hfeeding.wanted_eq, hserves]
      · rw [hdelivered, if_pos rfl, List.length_append]
        exact Nat.le_add_right_of_le hfeeding.read_le
      · have hread : s.read ≤ ((delivered seen).map Broadcast.bytes).length := by
          rw [List.length_map]
          exact hfeeding.read_le
        rw [hdelivered, if_pos rfl, List.map_append, List.drop_append_of_le_length hread,
          hfeeding.inFlight]
        show _ = (f.inFlight ++ [m]).map _
        rw [List.map_append]
        rfl
      · intro other hother
        rcases List.mem_append.mp hother with hbefore | hlast
        · exact h.carried other hbefore
        · rw [List.mem_singleton.mp hlast]
          exact hm

variable (kernel table) in
theorem linked_receive (more : Nat) (h : Linked hmasks fd screen s f) :
    ∃ t, (linkStep kernel cbor table fd (.receive more)).run s = .ok () t ∧
      Linked hmasks fd screen t (f.step (.receives more)) := by
  obtain ⟨past, seen, hsubscribed, hseen, hfeeding⟩ := h.daemon
  rw [linkStep, run_get_bind, h.toGui_eq, Feed.step, Feed.receive]
  cases hflight : f.inFlight with
  | nil => exact ⟨s, rfl, h⟩
  | cons m later =>
      have hm := h.carried m (by rw [hflight]; exact List.mem_cons_self)
      have hread := onGui_run_of_ok (s := s) (bevRead_message hm s.gui
        ((later.map (UiMessage.bytes cbor)).take more).flatten)
      have hinFlight := hfeeding.inFlight
      rw [hflight, List.map_cons] at hinFlight
      refine ⟨_, run_bind_of_ok (catching_run_ok hread), ?_⟩
      refine ⟨⟨past, seen, hsubscribed, hseen, ⟨hfeeding.wanted_eq, ?_, ?_⟩⟩, h.wants, h.heard_le,
        h.requests, ?_, ?_⟩
      · have hlength := congrArg List.length hinFlight
        rw [List.length_drop, List.length_map, List.length_cons] at hlength
        have htake := List.length_take_le' more (later.map (UiMessage.bytes cbor))
        show s.read + 1 + _ ≤ _
        omega
      · show ((delivered seen).map Broadcast.bytes).drop (s.read + 1 + _) = (later.drop more).map _
        rw [← List.drop_drop, ← List.drop_drop, hinFlight, List.drop_succ_cons, List.drop_zero,
          drop_length_take, List.map_drop]
      · exact fun other hother => h.carried other (by
          rw [hflight]
          exact List.mem_cons_of_mem m (List.mem_of_mem_drop hother))
      · rw [List.foldl_append, ← h.screen_eq, ← h.wants]
        rfl

/-! ### Other clients -/

variable (kernel table) in
theorem linked_other {x : SubscriptionInput cbor} (hx : x.Elsewhere fd)
    (h : Linked hmasks fd screen s f) :
    ∃ t, (linkStep kernel cbor table fd (.other x)).run s = .ok () t ∧
      Linked hmasks fd screen t f := by
  obtain ⟨past, seen, hsubscribed, hseen, hfeeding⟩ := h.daemon
  obtain ⟨w, q, hstep, hq⟩ := subscribed_step kernel table x hsubscribed
  have hsession : session fd (w :: past) = some seen := by
    obtain ⟨client, hclient, -, -⟩ := exists_client hsubscribed hseen
    cases x with
    | connect =>
        have hfresh : kernel.next s.daemon.descriptors ≠ fd := by
          rintro rfl
          have hheld := (hsubscribed.inv.registered.mem_clients_iff _).mp
            (AList.lookup_isSome.mp (Option.isSome_of_eq_some hclient))
          exact kernel.fresh _ hheld
        rw [subscriptionStep, run_get_bind] at hstep
        obtain ⟨answer, u, -, hreturn⟩ := run_bind_eq_ok.mp hstep
        cases hreturn
        rw [session, if_neg hfresh, hseen]
    | disconnect other =>
        obtain ⟨answer, u, -, hreturn⟩ := run_bind_eq_ok.mp hstep
        cases hreturn
        rw [session, if_neg hx, hseen]
    | configure other config =>
        obtain ⟨answer, u, -, hreturn⟩ := run_bind_eq_ok.mp hstep
        cases hreturn
        rw [session, if_neg hx, hseen]
    | broadcast b => exact hx.elim
  refine ⟨{ s with daemon := q }, run_bind_of_ok (onDaemon_run_of_ok hstep), ?_⟩
  exact ⟨⟨_, seen, hq, hsession, hfeeding⟩, h.wants, h.heard_le, h.requests, h.carried,
    h.screen_eq⟩

end Simulation

/-! ## Interleavings -/

/-- The input is one the GUI has a part in, or is about another client; the
broadcasts are carried. -/
def LinkInput.Fair {cbor : Libcbor} (fd : Nat) : LinkInput cbor → Prop
  | .broadcast m => m.Carried cbor
  | .other x => x.Elsewhere fd
  | _ => True

section Runs

variable {kernel : Allocator Nat} {cbor : Libcbor} {table : IndicatorTable} {fd : Nat}
  {hmasks : CarriesMasks cbor} {screen : Screen} {s : Link} {f : Feed UiMessage}
  {xs : List (LinkInput cbor)}

/-- One step of the link is at most one of the feed. -/
theorem linked_step (kernel : Allocator Nat) (table : IndicatorTable) {x : LinkInput cbor}
    (hx : x.Fair fd) (h : Linked hmasks fd screen s f) :
    ∃ t, (linkStep kernel cbor table fd x).run s = .ok () t ∧
      Linked hmasks fd screen t (f.after (feedEvents [x])) := by
  cases x with
  | enable => exact ⟨_, onGui_run_of_ok (enableUiEvents_run hmasks s.gui), linked_asked true h⟩
  | disable => exact ⟨_, onGui_run_of_ok (disableUiEvents_run hmasks s.gui), linked_asked false h⟩
  | hear => exact linked_hear kernel table h
  | broadcast m => exact linked_broadcast kernel table hx h
  | receive more => exact linked_receive kernel table more h
  | other x => exact linked_other kernel table hx h

theorem linked_run (kernel : Allocator Nat) (table : IndicatorTable)
    (hfair : ∀ x ∈ xs, x.Fair fd) (h : Linked hmasks fd screen s f) :
    (∃ ws, Steps (linkStep kernel cbor table fd) s xs ws
        (final (linkStep kernel cbor table fd) s xs)) ∧
      Linked hmasks fd screen (final (linkStep kernel cbor table fd) s xs)
        (f.after (feedEvents xs)) := by
  rw [feedEvents, Feed.after_filterMap]
  refine steps_of_simulation (R := Linked hmasks fd screen) (P := fun _ x => x.Fair fd) ?_ h
    (wherever_of_forall (fun x hx _ => hfair x hx) s)
  intro s f x hs hx
  exact ⟨(), linked_step kernel table hx hs⟩

end Runs

/-- pinballd has just accepted the GUI, whatever other clients there were
before. -/
def Joined (kernel : Allocator Nat) (cbor : Libcbor) (table : IndicatorTable) (fd : Nat)
    (p : Process) : Prop :=
  ∃ ledManager xs ws q,
    Steps (subscriptionStep kernel cbor table) (Process.start ledManager) xs ws q ∧
      (subscriptionStep kernel cbor table .connect).run q = .ok (.connected fd) p

theorem linked_joined {kernel : Allocator Nat} {cbor : Libcbor} {table : IndicatorTable} {fd : Nat}
    {p : Process} (hmasks : CarriesMasks cbor) (h : Joined kernel cbor table fd p) :
    Linked hmasks fd ((0, 0), []) (.joined p) .off := by
  obtain ⟨ledManager, xs, ws, q, hsteps, hconnect⟩ := h
  obtain ⟨ws', q', hsteps', hq⟩ := subscribed_run kernel table xs (subscribed_start ledManager)
  obtain ⟨rfl, rfl⟩ := hsteps.det hsteps'
  obtain ⟨w, p', hconnect', hp⟩ := subscribed_step kernel table .connect hq
  cases hconnect.symm.trans hconnect'
  refine ⟨⟨_, [], hp, if_pos rfl, fun type => rfl, Nat.le_refl 0, rfl⟩, rfl, Nat.le_refl 0, .nil,
    nofun, rfl⟩

section Exact

variable (kernel : Allocator Nat) (cbor : Libcbor) (table : IndicatorTable) (fd : Nat)
  (p : Process)

/-- The link after some inputs. -/
def linkAfter (xs : List (LinkInput cbor)) : Link :=
  final (linkStep kernel cbor table fd) (.joined p) xs

/-- Nothing is on its way in either direction. -/
def Link.Quiet (s : Link) : Prop := s.toPinballd = [] ∧ s.toGui fd = []

/-- How the events of the GUI follow from what the drivers broadcast:
 * nothing in the interleaving faults;
 * every broadcast is handled at most once, and in the order of the broadcasts;
 * when pinballd has heard everything, it serves the GUI if this is enabled;
 * after `disable` nothing is queued;
 * between two quiet states with the GUI enabled, everything broadcast is
   handled, provided that the packets are read one by one. -/
structure UiExact (xs : List (LinkInput cbor)) : Prop where
  runs : ∃ ws, Steps (linkStep kernel cbor table fd) (.joined p) xs ws
    (linkAfter kernel cbor table fd p xs)
  once : ∃ handled : List (Bool × UiMessage),
    (linkAfter kernel cbor table fd p xs).gui.screen = handled.foldl shown ((0, 0), []) ∧
      (handled.map Prod.snd).Sublist (issued xs)
  agrees : (linkAfter kernel cbor table fd p xs).toPinballd = [] →
    ∃ client, (linkAfter kernel cbor table fd p xs).daemon.server.clients.lookup fd = some client ∧
      ∀ type, client.wantsBroadcastOfType type = (linkAfter kernel cbor table fd p xs).gui.gui
  silent : ∀ before later, xs = before ++ later →
    (linkAfter kernel cbor table fd p before).gui.gui = false → .enable ∉ later →
      (linkAfter kernel cbor table fd p xs).gui.queue
        = (linkAfter kernel cbor table fd p before).gui.queue
  complete : ∀ before later, xs = before ++ later →
    (linkAfter kernel cbor table fd p before).gui.gui = true →
    (linkAfter kernel cbor table fd p before).Quiet fd → .disable ∉ later →
    (∀ more, .receive more ∈ later → more = 0) →
    (linkAfter kernel cbor table fd p xs).toGui fd = [] →
      (linkAfter kernel cbor table fd p xs).gui.screen
        = shownAll (linkAfter kernel cbor table fd p before).gui.screen (issued later)

end Exact

section Events

variable {cbor : Libcbor} {xs : List (LinkInput cbor)}

theorem mem_feedEvents {event : Event UiMessage} :
    event ∈ feedEvents xs ↔ ∃ x ∈ xs, x.event = some event := List.mem_filterMap

theorem asks_notMem_feedEvents {wants : Bool} {request : LinkInput cbor}
    (hrequest : ∀ x : LinkInput cbor, x.event = some (.asks wants) → x = request)
    (h : request ∉ xs) : .asks wants ∉ feedEvents xs := by
  intro hmem
  obtain ⟨x, hx, hevent⟩ := mem_feedEvents.mp hmem
  exact h (hrequest x hevent ▸ hx)

theorem event_eq_asks_true (x : LinkInput cbor) (h : x.event = some (.asks true)) :
    x = .enable := by
  cases x <;> first | rfl | cases h

theorem event_eq_asks_false (x : LinkInput cbor) (h : x.event = some (.asks false)) :
    x = .disable := by
  cases x <;> first | rfl | cases h

theorem oneByOne_feedEvents (h : ∀ more, .receive more ∈ xs → more = 0) :
    OneByOne (feedEvents xs) := by
  intro more hmem
  obtain ⟨x, hx, hevent⟩ := mem_feedEvents.mp hmem
  cases x with
  | receive more' =>
      cases hevent
      exact h more hx
  | _ => cases hevent

/-- Messages that come without the renderer change no more than the position. -/
theorem foldl_shown_refused (s : Screen) {refused : List (Bool × UiMessage)}
    (h : ∀ x ∈ refused, x.1 = false) : (refused.foldl shown s).2 = s.2 := by
  induction refused generalizing s with
  | nil => rfl
  | cons x refused ih =>
      have hx := h x List.mem_cons_self
      rw [List.foldl_cons, ih _ fun y hy => h y (List.mem_cons_of_mem x hy)]
      obtain ⟨wants, m⟩ := x
      cases hx
      cases m <;> rfl

end Events

/-- Every interleaving, with any other clients that come and go, of a GUI that
was just accepted. -/
theorem uiEvents_exact {kernel : Allocator Nat} {cbor : Libcbor} {table : IndicatorTable}
    {fd : Nat} {p : Process} (hmasks : CarriesMasks cbor) (hjoined : Joined kernel cbor table fd p)
    {xs : List (LinkInput cbor)} (hfair : ∀ x ∈ xs, x.Fair fd) :
    UiExact kernel cbor table fd p xs := by
  have hstart := linked_joined hmasks hjoined
  obtain ⟨hruns, hlinked⟩ := linked_run kernel table hfair hstart
  have hagrees := Feed.agrees_after (feedEvents xs) (f := Feed.off) rfl
  have hsplit : ∀ before later, xs = before ++ later →
      Linked hmasks fd ((0, 0), []) (linkAfter kernel cbor table fd p before)
          (Feed.off.after (feedEvents before)) ∧
        (Feed.off : Feed UiMessage).after (feedEvents xs)
          = (Feed.off.after (feedEvents before)).after (feedEvents later) := by
    rintro before later rfl
    have hfront := fun x hx => hfair x (List.mem_append_left later hx)
    refine ⟨(linked_run kernel table hfront hstart).2, ?_⟩
    rw [feedEvents, List.filterMap_append, Feed.after_append]
    rfl
  constructor
  · exact hruns
  · exact ⟨_, hlinked.screen_eq, Feed.received_after (feedEvents xs) rfl⟩
  · intro hheard
    obtain ⟨past, seen, hsubscribed, hseen, hfeeding⟩ := hlinked.daemon
    obtain ⟨client, hclient, -, hwants⟩ := exists_client hsubscribed hseen
    refine ⟨client, hclient, fun type => ?_⟩
    rw [hwants, hfeeding.wanted_eq, show (linkAfter kernel cbor table fd p xs).gui.gui = _ from
      hlinked.wants]
    exact hagrees.serves_eq (hlinked.requests_eq_nil hheard)
  · intro before later hxs hoff hlater
    obtain ⟨hbefore, hafter⟩ := hsplit before later hxs
    obtain ⟨refused, hreceived, hrefused, -⟩ := Feed.refused_after (hbefore.wants.symm.trans hoff)
      (asks_notMem_feedEvents event_eq_asks_true hlater)
    have hscreen := hlinked.screen_eq
    rw [hafter, hreceived, List.foldl_append, ← hbefore.screen_eq] at hscreen
    exact (congrArg Prod.snd hscreen).trans (foldl_shown_refused _ hrefused)
  · intro before later hxs hon hquiet hlater hone hread
    obtain ⟨hbefore, hafter⟩ := hsplit before later hxs
    have hopen : (Feed.off.after (feedEvents before) : Feed UiMessage).On True := by
      have hrequests := hbefore.requests_eq_nil hquiet.1
      have hwants := hbefore.wants.symm.trans hon
      have hserves := (Feed.agrees_after (feedEvents before) (f := Feed.off) rfl).serves_eq hrequests
      exact ⟨hwants, hserves.trans hwants, fun _ => hrequests ▸ nofun⟩
    obtain ⟨taken, hreceived, htaken⟩ := Feed.complete_after hopen
      (asks_notMem_feedEvents event_eq_asks_false hlater) (fun _ => trivial)
      (oneByOne_feedEvents hone)
    rw [← hafter, hlinked.inFlight_eq_nil hread, hbefore.inFlight_eq_nil hquiet.2, List.append_nil,
      List.nil_append] at htaken
    have hscreen := hlinked.screen_eq
    rw [hafter, hreceived, List.foldl_append, ← hbefore.screen_eq, List.foldl_map, htaken] at hscreen
    exact hscreen

/-- What the GUI asks with, encoded. -/
def codeMask (wants : Byte) : List Byte :=
  [0xa3, 0x65] ++ ascii "touch" ++ [wants, 0x66] ++ ascii "button" ++ [wants, 0x67]
    ++ ascii "encoder" ++ [wants]

/-- The message of a press of the menu button, encoded. -/
def codeMenu : List Byte :=
  [0xa2, 0x64] ++ ascii "type" ++ [0x66] ++ ascii "button" ++ [0x6a] ++ ascii "buttonData"
    ++ [0xa1, 0x64] ++ ascii "menu" ++ [0xf5]

def codesUi : List (List Byte × Item) :=
  [(codeMask 0xf5, PinballClient.broadcastMap (uiMask true)),
    (codeMask 0xf4, PinballClient.broadcastMap (uiMask false)),
    (codeMenu, (UiMessage.buttons [(.menu, true)]).item)]

theorem codesUi_ne_nil : ∀ c ∈ codesUi, c.1 ≠ [] := by
  simp [codesUi, codeMask, codeMenu]

/-- A library that knows these messages. -/
def libcborUi : Libcbor :=
  .ofTable codesUi (fun
    | .map _ [_, _] => codeMenu
    | .map _ ((_, value) :: _) => codeMask (if value.getBool.toOption = some true then 0xf5 else 0xf4)
    | _ => []) codesUi_ne_nil

theorem carriesMasks_libcborUi : CarriesMasks libcborUi where
  encodes wants := by
    cases wants with
    | true => exact Libcbor.ofTable_encodes (h := codesUi_ne_nil) rfl (by decide)
    | false => exact Libcbor.ofTable_encodes (h := codesUi_ne_nil) rfl (by decide)
  length_le wants := by cases wants <;> decide

theorem carried_libcborUi : (UiMessage.buttons [(.menu, true)]).Carried libcborUi where
  encodes := Libcbor.ofTable_encodes (h := codesUi_ne_nil) rfl (by decide)
  length_le := by decide

/-- A press of the menu button while the GUI is enabled. -/
theorem uiEvents_exact_menu :
    UiExact (.lowest 3) libcborUi .listed 3
      ((Process.start ⟨[], [], .nearest⟩).accepted (.lowest 3))
      [.enable, .hear, .broadcast (.buttons [(.menu, true)]), .receive 0, .disable, .hear] := by
  refine uiEvents_exact carriesMasks_libcborUi
    ⟨⟨[], [], .nearest⟩, [], [], _, .nil _, rfl⟩ fun x hx => ?_
  fin_cases hx
  · trivial
  · trivial
  · exact carried_libcborUi
  · trivial
  · trivial
  · trivial

end Rpc
