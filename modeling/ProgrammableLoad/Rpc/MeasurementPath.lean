/-
# `Rpc.MeasurementPath` — a measurement from the coprocessor to the home screen

The firmware broadcasts what it measures.  loadd passes what it read from the
control endpoint on to its clients, as one piece, if it starts with a
broadcast; of what the GUI then reads at once it handles the packet at the
front; and the callback of the home screen, while this is installed, sets
three labels.

`measurements_shown` is about every interleaving of these with other clients
of loadd that come, misbehave and go, and with other callbacks.  Nothing faults
if and only if every packet that the GUI handles can be read by its accessors.
Then a measurement is shown at most once and in its order, none while the home
screen has no callback, and all of them while it has one and the GUI reads
them one by one.
-/
import ProgrammableLoad.Cpp.Defined
import ProgrammableLoad.Rpc.ControlEpHandler
import ProgrammableLoad.Rpc.GuiTotality
import ProgrammableLoad.Rpc.MeasurementCallbacks
import ProgrammableLoad.Rpc.Registry
import ProgrammableLoad.Theory.Feed

namespace Rpc

open Cpp Cbor Program Handles Table Tokens Feeds

/-! ## The labels -/

/-- The texts of the actual values of the home screen. -/
structure Labels where
  current : String
  voltage : String
  wattage : String
  temp : String

namespace Labels

/-- The markup of a number. -/
def tnum (digits : String) : String := "<span font_features='tnum'>" ++ digits ++ "</span>"

/-- The labels as `initActualValueBox` makes them. -/
def initial : Labels := ⟨tnum "0.000", tnum "0.00", tnum "0.00", tnum "0.0"⟩

/-- The callback of the home screen; `format` prints a number with some digits
after the point.  The wattage is not set. -/
def set (format : Nat → Double → String) (labels : Labels) (data : Measurement) : Labels :=
  { labels with
    current := tnum (format 3 data.current)
    voltage := tnum (format 2 data.voltage)
    temp := tnum (format 1 data.temperature) }

/-- The labels after some measurements. -/
def setAll (format : Nat → Double → String) (labels : Labels) (data : List Measurement) : Labels :=
  data.foldl (set format) labels

theorem setAll_append (format : Nat → Double → String) (labels : Labels)
    (data later : List Measurement) :
    labels.setAll format (data ++ later) = (labels.setAll format data).setAll format later :=
  List.foldl_append

end Labels

/-! ## The processes -/

/-- Whose callback it is. -/
inductive Listener where
  | homeScreen
  | other (id : Nat)
deriving DecidableEq

/-- loadd, and in the GUI its client of loadd and the home screen; `read` is how
many pieces of what loadd wrote the GUI has read, and `shown` what the home
screen's callback was called with, oldest first. -/
structure Path where
  handler : ControlEpHandler
  read : Nat
  base : ClientBase
  home : HomeScreen Listener
  labels : Labels
  shown : List Measurement

namespace Path

/-- The pieces on their way to the GUI, whose client is that of `ev`. -/
def toGui (ev : Nat) (s : Path) : List (List Byte) :=
  ((s.handler.lrpc.bind (·.clients.lookup ev)).elim [] RpcServer.Client.written).drop s.read

def onHandler {α : Type} (m : EStateM Fault ControlEpHandler α) : EStateM Fault Path α := fun s =>
  match m.run s.handler with
  | .ok a handler => .ok a { s with handler := handler }
  | .error e handler => .error e { s with handler := handler }

def onHome {α : Type} (m : EStateM Fault (HomeScreen Listener) α) : EStateM Fault Path α := fun s =>
  match m.run s.home with
  | .ok a home => .ok a { s with home := home }
  | .error e home => .error e { s with home := home }

/-- The client with its callbacks in the order of its table. -/
def loaddClient (s : Path) : LoaddClient :=
  ⟨s.base, s.home.client.measurementCallbacks.keys.map BitVec.toNat, []⟩

/-- The home screen's callback is called with some measurements. -/
def showing (format : Nat → Double → String) (s : Path) (data : List Measurement) : Path :=
  { s with labels := s.labels.setAll format data, shown := s.shown ++ data }

/-- A call of one callback; those of others have no part in the labels. -/
def called (format : Nat → Double → String) (s : Path) (call : Nat × Measurement) : Path :=
  match s.home.client.measurementCallbacks.lookup (BitVec.ofNat 32 call.1) with
  | some .homeScreen => s.showing format [call.2]
  | _ => s

def onLoaddClient {α : Type} (format : Nat → Double → String) (m : EStateM Fault LoaddClient α) :
    EStateM Fault Path α := fun s =>
  match m.run s.loaddClient with
  | .ok a c => .ok a (c.invoked.foldl (called format) { s with base := c.base })
  | .error e c => .error e (c.invoked.foldl (called format) { s with base := c.base })

end Path

/-- What works on the server, if it is still there. -/
def ControlEpHandler.onServer {α : Type} (m : EStateM Fault RpcServer α) :
    EStateM Fault ControlEpHandler Unit := fun s =>
  match s.lrpc with
  | none => .ok () s
  | some rpc =>
      match m.run rpc with
      | .ok _ rpc' => .ok () { s with lrpc := some rpc' }
      | .error e rpc' => .error e { s with lrpc := some rpc' }

/-- What happens next. -/
inductive PathInput where
  | coprocessor (accepts : Nat → Bool) (pending : List Byte)
  | server (x : ServerInput)
  | receive (more : Nat)
  | home (e : HomeScreen.Event Listener)

/-- The read callback of the GUI, which logs what is thrown. -/
def readPieces (cbor : Libcbor) (format : Nat → Double → String) (more : Nat) :
    List (List Byte) → EStateM Fault Path Unit
  | [] => pure ()
  | piece :: later => do
      let _ ← catching (Path.onLoaddClient format
        (LoaddClient.bevRead cbor (piece ++ (later.take more).flatten) true))
      modify fun s => { s with read := s.read + 1 + (later.take more).length }

def pathStep (kernel heap : Allocator Nat) (cbor : Libcbor) (format : Nat → Double → String)
    (ev : Nat) : PathInput → EStateM Fault Path Unit
  | .coprocessor accepts pending => Path.onHandler (ControlEpHandler.readCallback accepts pending)
  | .server x => Path.onHandler (ControlEpHandler.onServer (RpcServer.step kernel heap cbor x))
  | .receive more => do readPieces cbor format more ((← get).toGui ev)
  | .home e => Path.onHome (HomeScreen.step .homeScreen e)

/-! ## What the GUI finds in the bytes received -/

/-- The measurement of a message, nothing in one from another endpoint. -/
def measurementOf (header : Header) (message : Option Item) :
    Except Fault (Option Measurement) :=
  if header.endpoint = kRpcEndpointMeasurement then
    match message with
    | none => .error (.undefined "cbor_isa_map")
    | some item =>
        if item.isaMap = false then
          .error (.thrown (.invalidArgument "invalid payload: expected map"))
        else
          (LoaddClient.readMeasurement item).map some
  else
    .ok none

/-- The measurement in the bytes received. -/
def measurementIn (cbor : Libcbor) (buf : List Byte) : Except Fault (Option Measurement) := do
  match ← ClientBase.receive cbor buf with
  | none => return none
  | some (header, message) => measurementOf header message

/-- The measurement for the callbacks, if they get one. -/
def measured (cbor : Libcbor) (buf : List Byte) : Option Measurement :=
  (measurementIn cbor buf).toOption.join

/-- The packet at the front is complete. -/
structure Framed (buf : List Byte) : Prop where
  complete : headerSize ≤ buf.length
  length_le : (Header.read buf).length.toNat ≤ buf.length

/-- If the packet at the front is a measurement, the accessors are for the items
they are applied to. -/
def Readable (cbor : Libcbor) (buf : List Byte) : Prop :=
  ∀ header message, ClientBase.receive cbor buf = .ok (some (header, message)) →
    header.endpoint = kRpcEndpointMeasurement → MeasurementReadable message

section Received

variable {cbor : Libcbor} {buf : List Byte}

/-- What follows the packet at the front makes no difference. -/
theorem receive_append_of_complete (hsize : headerSize ≤ buf.length)
    (hlength : (Header.read buf).length.toNat ≤ buf.length) (rest : List Byte) :
    ClientBase.receive cbor (buf ++ rest) = ClientBase.receive cbor buf := by
  have hlong : ¬ buf.length < headerSize := Nat.not_lt.mpr hsize
  have hlong' : ¬ (buf ++ rest).length < headerSize := by
    rw [List.length_append]
    omega
  have hload : headerSize ≤ (Header.read buf).length.toNat →
      loadRegion cbor toString (buf ++ rest)
          ⟨headerSize, (Header.read buf).length.toNat - headerSize⟩
        = loadRegion cbor toString buf
          ⟨headerSize, (Header.read buf).length.toNat - headerSize⟩ := by
    intro hheader
    have hin : headerSize + ((Header.read buf).length.toNat - headerSize) ≤ buf.length := by omega
    have hin' : headerSize + ((Header.read buf).length.toNat - headerSize)
        ≤ (buf ++ rest).length := by
      rw [List.length_append]
      omega
    have hregion : ((buf ++ rest).drop headerSize).take
          ((Header.read buf).length.toNat - headerSize)
        = (buf.drop headerSize).take ((Header.read buf).length.toNat - headerSize) := by
      rw [List.drop_append_of_le_length hsize]
      exact List.take_append_of_le_length (by rw [List.length_drop]; omega)
    simp only [loadRegion, if_pos hin, if_pos hin', hregion]
  rw [ClientBase.receive, ClientBase.receive, if_neg hlong, if_neg hlong',
    Header.read_append hsize]
  by_cases hshort : (Header.read buf).length.toNat < headerSize
  · simp only [hshort, if_true]
  · simp only [hload (Nat.not_lt.mp hshort)]

variable (cbor) in
theorem Framed.measurementIn_append (h : Framed buf) (rest : List Byte) :
    measurementIn cbor (buf ++ rest) = measurementIn cbor buf := by
  rw [measurementIn, measurementIn, receive_append_of_complete h.complete h.length_le]

/-- Within the buffer the load of a payload returns or throws. -/
theorem loadRegion_throws (cbor : Libcbor) (position : Nat → String) {buf : List Byte}
    (region : Region) (h : region.offset + region.length ≤ buf.length) :
    (∃ item, loadRegion cbor position buf region = .ok item) ∨
      ∃ e, loadRegion cbor position buf region = .error (.thrown e) := by
  rw [loadRegion, if_pos h]
  cases cbor.load ((buf.drop region.offset).take region.length) with
  | ok item => exact .inl ⟨item, rfl⟩
  | error e => exact .inr ⟨_, rfl⟩

/-- A complete packet is received or dropped. -/
theorem Framed.defined_receive (h : Framed buf) : Defined (ClientBase.receive cbor buf) := by
  obtain ⟨hsize, hlength⟩ := h
  rw [ClientBase.receive, if_neg (Nat.not_lt.mpr hsize)]
  simp only
  split
  · exact defined_ok _
  · split
    · exact defined_ok _
    · split
      · exact defined_ok _
      · have hin : headerSize + ((Header.read buf).length.toNat - headerSize) ≤ buf.length := by
          omega
        refine defined_bind_iff.mpr ⟨?_, fun item _ => defined_pure _⟩
        rcases loadRegion_throws cbor toString ⟨headerSize, _⟩ hin with
          ⟨item, hload⟩ | ⟨e, hload⟩
        · exact .of_ok hload
        · rw [hload]
          exact defined_thrown e

theorem defined_measurementOf_iff {header : Header} {message : Option Item} :
    Defined (measurementOf header message) ↔
      (header.endpoint = kRpcEndpointMeasurement → MeasurementReadable message) := by
  unfold measurementOf MeasurementReadable
  by_cases hendpoint : header.endpoint = kRpcEndpointMeasurement
  · rw [if_pos hendpoint]
    cases message with
    | none =>
        refine iff_of_false (not_defined_undefined _) fun h => ?_
        obtain ⟨_, hnone, -⟩ := h hendpoint
        cases hnone
    | some item =>
        simp only [hendpoint, Option.some.injEq, exists_eq_left', forall_const]
        cases hmap : item.isaMap with
        | false => exact iff_of_true (defined_thrown _) fun h => absurd h Bool.false_ne_true
        | true =>
            rw [if_neg nofun, forall_prop_of_true rfl, ← defined_readMeasurement_iff]
            show Defined (LoaddClient.readMeasurement item >>= fun meas => pure (some meas)) ↔ _
            rw [defined_bind_iff]
            exact and_iff_left fun meas _ => defined_pure _
  · rw [if_neg hendpoint]
    exact iff_of_true (defined_ok _) fun h => absurd h hendpoint

theorem Framed.defined_measurementIn_iff (h : Framed buf) :
    Defined (measurementIn cbor buf) ↔ Readable cbor buf := by
  rw [measurementIn, defined_bind_iff]
  refine (and_iff_right h.defined_receive).trans ?_
  constructor
  · intro hdefined header message hreceive
    exact defined_measurementOf_iff.mp (hdefined _ hreceive)
  · rintro hreadable (_ | ⟨header, message⟩) hreceive
    · exact defined_pure _
    · exact defined_measurementOf_iff.mpr (hreadable header message hreceive)

theorem onBase_bevRead_run (c : LoaddClient) :
    (LoaddClient.onBase (ClientBase.bevRead cbor buf true)).run c
      = match ClientBase.receive cbor buf with
        | .ok message => .ok message { c with base := { c.base with rxBuf := buf } }
        | .error e => .error e { c with base := { c.base with rxBuf := buf } } := by
  have hrun : (ClientBase.bevRead cbor buf true).run c.base
      = match ClientBase.receive cbor buf with
        | .ok message => .ok message { c.base with rxBuf := buf }
        | .error e => .error e { c.base with rxBuf := buf } := by
    cases hreceive : ClientBase.receive cbor buf with
    | ok message => exact ClientBase.bevRead_run_eq_ok_iff.mpr ⟨hreceive, rfl⟩
    | error e =>
        simp only [ClientBase.bevRead, if_true, hreceive]
        rfl
  simp only [LoaddClient.onBase, EStateM.run] at hrun ⊢
  rw [hrun]
  cases ClientBase.receive cbor buf <;> rfl

/-- The client with its calls of the callbacks, if there is a measurement. -/
def LoaddClient.told (c : LoaddClient) (found : Option Measurement) : LoaddClient :=
  { c with invoked := c.invoked ++ found.elim [] fun meas =>
      c.measurementCallbacks.map fun token => (token, meas) }

theorem LoaddClient.told_none (c : LoaddClient) : c.told none = c := by
  obtain ⟨base, tokens, invoked⟩ := c
  exact congrArg (LoaddClient.mk base tokens) (List.append_nil invoked)

theorem handleIncomingMessage_run_eq (header : Header) (message : Option Item) (c : LoaddClient) :
    (LoaddClient.handleIncomingMessage header message).run c
      = match measurementOf header message with
        | .ok found => .ok () (c.told found)
        | .error e => .error e c := by
  unfold LoaddClient.handleIncomingMessage measurementOf
  by_cases hendpoint : header.endpoint = kRpcEndpointMeasurement
  · rw [if_pos hendpoint, if_pos hendpoint]
    cases message with
    | none => rfl
    | some item =>
        simp only [LoaddClient.processMeasurement]
        by_cases hmap : item.isaMap = false
        · rw [if_pos hmap, if_pos hmap]
          rfl
        · rw [if_neg hmap, if_neg hmap]
          cases LoaddClient.readMeasurement item <;> rfl
  · rw [if_neg hendpoint, if_neg hendpoint]
    exact congrArg (EStateM.Result.ok ()) c.told_none.symm

variable (cbor buf) in
/-- What the client does is to find a measurement and to call its callbacks. -/
theorem bevRead_run_eq (c : LoaddClient) :
    (LoaddClient.bevRead cbor buf true).run c
      = match measurementIn cbor buf with
        | .ok found =>
            .ok () (LoaddClient.told { c with base := { c.base with rxBuf := buf } } found)
        | .error e => .error e { c with base := { c.base with rxBuf := buf } } := by
  rw [LoaddClient.bevRead, measurementIn, EStateM.run_bind, onBase_bevRead_run]
  rcases ClientBase.receive cbor buf with e | (_ | ⟨header, message⟩)
  · rfl
  · exact congrArg (EStateM.Result.ok ()) (LoaddClient.told_none _).symm
  · exact handleIncomingMessage_run_eq header message _

end Received

/-! ## One piece at the GUI -/

section Gui

variable {cbor : Libcbor} {format : Nat → Double → String} {buf : List Byte} {s : Path}

/-- The home screen has a callback. -/
def Path.installed (s : Path) : Bool := s.home.measurementCallbackToken ≠ 0

/-- What is shown of a piece that the GUI read with or without the callback. -/
def shownOf (cbor : Libcbor) (x : Bool × List Byte) : List Measurement :=
  if x.1 then (measured cbor x.2).toList else []

/-- The callback behind a token is the home screen's. -/
def Path.isMine (s : Path) (token : BitVec 32) : Bool :=
  s.home.client.measurementCallbacks.lookup token = some .homeScreen

theorem called_eq (token : BitVec 32) (meas : Measurement) (s : Path) :
    s.called format (token.toNat, meas)
      = if s.isMine token then s.showing format [meas] else s := by
  rw [Path.called, Path.isMine, BitVec.ofNat_toNat, BitVec.setWidth_eq]
  rcases s.home.client.measurementCallbacks.lookup token with _ | (_ | id)
  · rfl
  · rfl
  · rfl

theorem showing_nil (s : Path) : s.showing format [] = s := by
  obtain ⟨handler, read, base, home, labels, shown⟩ := s
  exact congrArg (Path.mk handler read base home labels) (List.append_nil shown)

theorem showing_append (s : Path) (data later : List Measurement) :
    s.showing format (data ++ later) = (s.showing format data).showing format later := by
  rw [Path.showing, Labels.setAll_append, ← List.append_assoc]
  rfl

variable (format) in
/-- The calls of a loop over some tokens. -/
theorem foldl_called (tokens : List (BitVec 32)) (meas : Measurement) (s : Path) :
    (tokens.map fun token => (token.toNat, meas)).foldl (Path.called format) s
      = s.showing format ((tokens.filter s.isMine).map fun _ => meas) := by
  induction tokens generalizing s with
  | nil => exact (showing_nil s).symm
  | cons token tokens ih =>
      rw [List.map_cons, List.foldl_cons, called_eq, List.filter_cons]
      cases s.isMine token with
      | false => exact ih s
      | true =>
          rw [if_pos rfl, if_pos rfl, ih, List.map_cons]
          exact (showing_append s [meas] _).symm

/-- The home screen's callback is in its table once, if it has one. -/
theorem filter_isMine (h : HomeScreen.Sole .homeScreen s.home) :
    s.home.client.measurementCallbacks.keys.filter s.isMine
      = if s.installed then [s.home.measurementCallbackToken] else [] := by
  cases hinstalled : s.installed with
  | false =>
      rw [if_neg Bool.false_ne_true, List.filter_eq_nil_iff]
      intro token _ hmine
      obtain ⟨hne, rfl⟩ := (h.lookup_iff token).mp (of_decide_eq_true hmine)
      exact hne (of_decide_eq_false hinstalled |> not_not.mp)
  | true =>
      have hne := of_decide_eq_true hinstalled
      have hmine : s.isMine = fun token => decide (token = s.home.measurementCallbackToken) := by
        funext token
        refine decide_eq_decide.mpr ((h.lookup_iff token).trans ⟨And.right, ?_⟩)
        rintro rfl
        exact ⟨hne, rfl⟩
      have hlookup := (h.lookup_iff _).mpr ⟨hne, rfl⟩
      have hmem := AList.mem_keys.mp (AList.lookup_isSome.mp (Option.isSome_of_eq_some hlookup))
      rw [if_pos rfl, hmine, List.filter_eq,
        List.count_eq_one_of_mem s.home.client.measurementCallbacks.keys_nodup hmem]
      rfl

theorem onLoaddClient_run_of_ok {m : EStateM Fault LoaddClient Unit} {c : LoaddClient}
    (h : m.run s.loaddClient = .ok () c) :
    (Path.onLoaddClient format m).run s
      = .ok () (c.invoked.foldl (Path.called format) { s with base := c.base }) := by
  simp only [Path.onLoaddClient, EStateM.run] at h ⊢
  rw [h]

theorem onLoaddClient_run_of_error {m : EStateM Fault LoaddClient Unit} {c : LoaddClient}
    {e : Fault} (h : m.run s.loaddClient = .error e c) :
    (Path.onLoaddClient format m).run s
      = .error e (c.invoked.foldl (Path.called format) { s with base := c.base }) := by
  simp only [Path.onLoaddClient, EStateM.run] at h ⊢
  rw [h]

variable (format) in
/-- The calls for a measurement. -/
theorem foldl_invoked (h : HomeScreen.Sole .homeScreen s.home) (base : ClientBase)
    (meas : Measurement) :
    (LoaddClient.told { s.loaddClient with base := base } (some meas)).invoked.foldl
        (Path.called format) { s with base := base }
      = Path.showing format { s with base := base } (if s.installed then [meas] else []) := by
  have hinvoked : (LoaddClient.told { s.loaddClient with base := base } (some meas)).invoked
      = s.home.client.measurementCallbacks.keys.map fun token => (token.toNat, meas) := by
    show [] ++ (s.home.client.measurementCallbacks.keys.map BitVec.toNat).map _ = _
    rw [List.nil_append, List.map_map]
    rfl
  rw [hinvoked, foldl_called, show Path.isMine { s with base := base } = s.isMine from rfl,
    filter_isMine h]
  cases s.installed <;> rfl

variable (format) in
/-- A read shows the measurement at the front, if there is one and a callback
for it. -/
theorem read_run (h : HomeScreen.Sole .homeScreen s.home)
    (hdefined : Defined (measurementIn cbor buf)) :
    ∃ answer, (catching (Path.onLoaddClient format (LoaddClient.bevRead cbor buf true))).run s
      = .ok answer (Path.showing format { s with base := { s.base with rxBuf := buf } }
          (shownOf cbor (s.installed, buf))) := by
  have hrun := bevRead_run_eq cbor buf s.loaddClient
  have hsilent : (measurementIn cbor buf).toOption.join = none →
      shownOf cbor (s.installed, buf) = [] := by
    intro hnone
    rw [shownOf, measured, hnone]
    exact ite_self _
  rcases hfound : measurementIn cbor buf with (e | op) | (_ | meas)
  · rw [hfound] at hrun hsilent
    rw [catching_run_thrown (onLoaddClient_run_of_error hrun), hsilent rfl, showing_nil]
    exact ⟨_, rfl⟩
  · exact absurd hfound (hdefined op)
  · rw [hfound] at hrun hsilent
    rw [catching_run_ok (onLoaddClient_run_of_ok hrun), hsilent rfl, showing_nil]
    exact ⟨_, rfl⟩
  · rw [hfound] at hrun
    have hcalls := (onLoaddClient_run_of_ok hrun).trans (congrArg (EStateM.Result.ok ())
      (foldl_invoked format h { s.base with rxBuf := buf } meas))
    rw [catching_run_ok hcalls, shownOf, measured, hfound]
    exact ⟨_, rfl⟩

variable (format s) in
/-- What the accessors are not for ends the read. -/
theorem read_run_undefined (hundefined : ¬ Defined (measurementIn cbor buf)) :
    ∃ op t, (catching (Path.onLoaddClient format (LoaddClient.bevRead cbor buf true))).run s
      = .error (.undefined op) t := by
  have hrun := bevRead_run_eq cbor buf s.loaddClient
  obtain ⟨op, hop⟩ := not_forall_not.mp hundefined
  rw [hop] at hrun
  exact ⟨op, _, catching_run_undefined (onLoaddClient_run_of_error hrun)⟩

end Gui

/-! ## The server and its other clients -/

/-- It does not lead the server beyond the bytes it received. -/
def ServerInput.InBounds : ServerInput → Prop
  | .read _ pending _ => ¬ Overlong pending
  | _ => True

/-- It happens to another client than that of `ev`. -/
def ServerInput.Spares : ServerInput → Nat → Prop
  | .accept _, _ => True
  | .read other _ _, ev => other ≠ ev
  | .event other, ev => other ≠ ev

namespace RpcServer

/-- The buffer events of the clients are allocated. -/
def Live (s : RpcServer) : Prop := ∀ ev, ev ∈ s.clients → ev ∈ held s.events

section Live

variable {s t u : RpcServer} {ev other : Nat}

/-- After a step the allocations are in order, and the clients that it `keeps`
are as they were. -/
structure Beside (keeps : Nat → Prop) (s t : RpcServer) : Prop where
  live : t.Live
  lookup_eq : ∀ ev, ev ∈ s.clients → keeps ev → t.clients.lookup ev = s.clients.lookup ev

theorem Live.beside (h : s.Live) (keeps : Nat → Prop) : Beside keeps s s := ⟨h, fun _ _ _ => rfl⟩

theorem beside_modifyClient (h : s.Live) (other : Nat) (f : Client → Client) :
    Beside (other ≠ ·) s (s.modifyClient other f) where
  live ev hev := h ev (mem_adjust.mp hev)
  lookup_eq ev _ hne := by
    rw [modifyClient, lookup_adjust]
    simp [hne.symm]

theorem beside_eraseClient (h : s.Live) (other : Nat) :
    Beside (other ≠ ·) s (s.eraseClient other) := by
  unfold eraseClient
  cases s.clients.lookup other with
  | none => exact h.beside _
  | some client =>
      constructor
      · intro ev hev
        obtain ⟨hne, hmem⟩ := AList.mem_erase.mp hev
        show ev ∈ held (s.events ++ [.closes other])
        rw [held_snoc]
        exact Finset.mem_erase.mpr ⟨hne, h ev hmem⟩
      · intro ev _ hne
        exact AList.lookup_erase_ne hne.symm

theorem beside_emplaceClient (h : s.Live) (hev : ev ∉ s.clients) (hheld : ev ∈ held s.events)
    (client : Client) : Beside (fun _ => True) s (s.emplaceClient ev client) := by
  rw [emplaceClient, if_neg hev]
  constructor
  · intro other hother
    rcases (AList.mem_insert _).mp hother with rfl | hmem
    · exact hheld
    · exact h other hmem
  · intro other hother _
    exact AList.lookup_insert_ne fun heq => hev (heq ▸ hother)

theorem Beside.trans {keeps : Nat → Prop} (hst : Beside keeps s t) (htu : Beside keeps t u) :
    Beside keeps s u where
  live := htu.live
  lookup_eq ev hev hkeeps := by
    have hlookup := hst.lookup_eq ev hev hkeeps
    have hmem : ev ∈ t.clients := by
      rw [← AList.lookup_isSome, hlookup, AList.lookup_isSome]
      exact hev
    exact (htu.lookup_eq ev hmem hkeeps).trans hlookup

end Live

section Step

variable {kernel heap : Allocator Nat} {cbor : Libcbor} {s t : RpcServer} {ev other : Nat}

/-- Nothing but the clients and the allocations matters here. -/
theorem beside_of_opens (h : s.Live) (descriptors events : List (Use Nat)) (enabled : Finset Nat)
    (hevents : ∀ ev, ev ∈ held s.events → ev ∈ held events) :
    Beside (fun _ => True) s ⟨s.clients, descriptors, events, enabled⟩ :=
  ⟨fun ev hev => hevents ev (h ev hev), fun _ _ _ => rfl⟩

theorem beside_acceptClient (kernel heap : Allocator Nat) (failing : Option AcceptStep)
    (h : s.Live) :
    ∃ answer t, (catching (acceptClient kernel heap failing)).run s = .ok answer t ∧
      Beside (fun _ => True) s t := by
  have hopened : ∀ ev, ev ∈ held s.events →
      ev ∈ held (s.events ++ [.opens (heap.next s.events)]) := by
    intro ev hev
    rw [held_snoc]
    exact Finset.mem_insert_of_mem hev
  rcases failing with _ | (_ | _ | _ | _)
  · refine ⟨_, _, rfl, ?_⟩
    have hbeside := beside_of_opens h (s.descriptors ++ [.opens (kernel.next s.descriptors)]) _
      (insert (heap.next s.events) s.enabled) hopened
    refine hbeside.trans (beside_emplaceClient hbeside.live ?_ ?_ _)
    · exact fun hmem => heap.fresh s.events (h _ hmem)
    · rw [held_snoc]
      exact Finset.mem_insert_self _ _
  · exact ⟨_, _, rfl, h.beside _⟩
  · exact ⟨_, _, rfl, beside_of_opens h _ _ _ fun _ hev => hev⟩
  · exact ⟨_, _, rfl, beside_of_opens h _ _ _ fun _ hev => hev⟩
  · exact ⟨_, _, rfl, beside_of_opens h _ _ _ hopened⟩

variable (other) in
/-- Every message of a client is an exception. -/
theorem handleClientRead_throws (cbor : Libcbor) {pending : List Byte} (drains : Bool)
    (hpending : ¬ Overlong pending) (h : s.Live) :
    ∃ e t, (handleClientRead cbor other pending drains).run s = .error (.thrown e) t ∧
      Beside (other ≠ ·) s t := by
  have hbounded := (servers_bounded_iff pending).mpr hpending
  cases hclient : s.clients.lookup other with
  | none =>
      refine ⟨.outOfRange "unordered_map::at", s, ?_, h.beside _⟩
      simp only [handleClientRead, run_get_bind, hclient]
      rfl
  | some client =>
      cases drains with
      | false =>
          refine ⟨.runtimeError "failed to drain client read buffer", _, ?_,
            beside_modifyClient h other fun client =>
              { client with receiveBuf := resize client.receiveBuf pending.length }⟩
          simp only [handleClientRead, run_get_bind, hclient]
          rfl
      | true =>
          have hbeside := beside_modifyClient h other fun client =>
            { client with receiveBuf := pending }
          cases hframe : RpcServer.frame pending with
          | error e =>
              refine ⟨e, _, ?_, hbeside⟩
              simp only [handleClientRead, run_get_bind, hclient, if_true, hframe]
              rfl
          | ok region =>
              rcases loadRegion_throws cbor (fun n => s!"${hex 1 n}") region
                (hbounded.2.region_le region hframe) with ⟨item, hload⟩ | ⟨e, hload⟩
              · refine ⟨.runtimeError s!"unknown rpc endpoint ${
                  hex 2 (Header.read pending).endpoint.toNat}", _, ?_, hbeside⟩
                simp only [handleClientRead, run_get_bind, hclient, if_true, hframe, hload]
                rfl
              · refine ⟨e, _, ?_, hbeside⟩
                simp only [handleClientRead, run_get_bind, hclient, if_true, hframe, hload]
                rfl

theorem beside_read (cbor : Libcbor) {pending : List Byte} (drains : Bool)
    (hpending : ¬ Overlong pending) (h : s.Live) :
    ∃ answer t, (clientCallback other (handleClientRead cbor other pending drains)).run s
      = .ok answer t ∧ Beside (other ≠ ·) s t := by
  obtain ⟨e, t, hrun, hbeside⟩ := handleClientRead_throws other cbor drains hpending h
  refine ⟨.error e, t.eraseClient other, ?_,
    hbeside.trans (beside_eraseClient hbeside.live other)⟩
  rw [clientCallback, EStateM.run_bind, catching_run_thrown hrun]
  rfl

theorem beside_event (other : Nat) (h : s.Live) :
    ∃ answer t, (clientCallback other (handleClientEvent other)).run s = .ok answer t ∧
      Beside (other ≠ ·) s t := by
  have hbeside := beside_eraseClient h other
  cases hclient : s.clients.lookup other with
  | none =>
      have hrun : (handleClientEvent other).run s
          = .error (.thrown (.outOfRange "unordered_map::at")) s := by
        simp only [handleClientEvent, run_get_bind, hclient]
        rfl
      refine ⟨.error (.outOfRange "unordered_map::at"), s.eraseClient other, ?_, hbeside⟩
      rw [clientCallback, EStateM.run_bind, catching_run_thrown hrun]
      rfl
  | some client =>
      have hrun : (handleClientEvent other).run s = .ok () (s.eraseClient other) := by
        simp only [handleClientEvent, run_get_bind, hclient]
        rfl
      refine ⟨.ok (), s.eraseClient other, ?_, hbeside⟩
      rw [clientCallback, EStateM.run_bind, catching_run_ok hrun]
      rfl

/-- A turn of the event loop. -/
theorem beside_step (kernel heap : Allocator Nat) (cbor : Libcbor) {x : ServerInput}
    (hx : x.InBounds) (h : s.Live) :
    ∃ answer t, (step kernel heap cbor x).run s = .ok answer t ∧ Beside x.Spares s t := by
  simp only [step, run_get_bind]
  cases x with
  | accept failing => exact beside_acceptClient kernel heap failing h
  | read other pending drains =>
      simp only [run_ite]
      split
      · exact beside_read cbor drains hx h
      · exact ⟨_, _, rfl, h.beside _⟩
  | event other =>
      simp only [run_ite]
      split
      · exact beside_event other h
      · exact ⟨_, _, rfl, h.beside _⟩

theorem live_of_steps {xs : List ServerInput} {ws : List (Except Exception Unit)}
    (hsteps : Steps (step kernel heap cbor) s xs ws t) (hxs : ∀ x ∈ xs, x.InBounds)
    (h : s.Live) : t.Live := by
  induction hsteps with
  | nil => exact h
  | cons hx _ ih =>
      obtain ⟨answer, u, hrun, hbeside⟩ := beside_step kernel heap cbor
        (hxs _ List.mem_cons_self) h
      cases hx.symm.trans hrun
      exact ih (fun y hy => hxs y (List.mem_cons_of_mem _ hy)) hbeside.live

theorem live_start : start.Live := fun ev hev => absurd hev (AList.notMem_empty ev)

end Step

/-- loadd has just accepted the client of `ev`, whatever happened before. -/
def Accepted (kernel heap : Allocator Nat) (cbor : Libcbor) (ev : Nat) (s : RpcServer) : Prop :=
  ∃ xs ws q, Steps (step kernel heap cbor) start xs ws q ∧ (∀ x ∈ xs, x.InBounds) ∧
    (step kernel heap cbor (.accept none)).run q = .ok (.ok ()) s ∧ ev = heap.next q.events

theorem Accepted.live {kernel heap : Allocator Nat} {cbor : Libcbor} {ev : Nat} {s : RpcServer}
    (h : Accepted kernel heap cbor ev s) :
    s.Live ∧ ∃ socket, s.clients.lookup ev = some ⟨socket, [], []⟩ := by
  obtain ⟨xs, ws, q, hsteps, hxs, hrun, rfl⟩ := h
  have hq := live_of_steps hsteps hxs live_start
  have hnew : heap.next q.events ∉ q.clients := fun hmem => heap.fresh q.events (hq _ hmem)
  obtain ⟨answer, t, hrun', hbeside⟩ := beside_acceptClient kernel heap none hq
  cases hrun.symm.trans hrun'
  have haccept : (step kernel heap cbor (.accept none)).run q = .ok (.ok ()) ({ q with
      descriptors := q.descriptors ++ [Use.opens (kernel.next q.descriptors)]
      events := q.events ++ [Use.opens (heap.next q.events)]
      enabled := insert (heap.next q.events) q.enabled }.emplaceClient (heap.next q.events)
        ⟨kernel.next q.descriptors, [], []⟩) := rfl
  rw [emplaceClient, if_neg hnew] at haccept
  cases hrun.symm.trans haccept
  exact ⟨hbeside.live, kernel.next q.descriptors, AList.lookup_insert _⟩

end RpcServer

/-! ## One read at loadd -/

namespace ControlEpHandler

variable {accepts : Nat → Bool} {pending packet : List Byte} {s t : ControlEpHandler}
  {rpc : RpcServer} {ev : Nat}

/-- What was read goes on to the clients. -/
def passes (pending : List Byte) : Bool := (route pending).toOption.join.isSome

theorem route_eq_some (h : route pending = .ok (some packet)) : packet = pending := by
  unfold route at h
  split at h
  · cases h
  · simp only at h
    split at h
    · cases h
    · split at h
      · cases h
        rfl
      · cases h

/-- The server that is left is in order, and the client has what it takes. -/
theorem readCallback_run_live (pending : List Byte) (h : s.lrpc = some rpc) (hlive : rpc.Live)
    (haccepts : accepts ev = true) :
    ∃ rpc', (readCallback accepts pending).run s = .ok () ⟨pending, some rpc'⟩ ∧ rpc'.Live ∧
      (rpc'.clients.lookup ev).map RpcServer.Client.written
        = (rpc.clients.lookup ev).map fun client =>
            client.written ++ if passes pending then [pending] else [] := by
  obtain ⟨buf, lrpc⟩ := s
  cases h
  cases hroute : (route pending).toOption.join with
  | none =>
      refine ⟨rpc, readCallback_run_of_dropped ?_, hlive, ?_⟩
      · intro packet hpacket
        rw [hpacket] at hroute
        cases hroute
      · simp only [passes, hroute, Option.isSome_none, Bool.false_eq_true, if_false,
          List.append_nil]
  | some packet =>
      have hpacket : route pending = .ok (some packet) := by
        rcases hresult : route pending with e | routed
        · rw [hresult] at hroute
          cases hroute
        · rw [hresult] at hroute
          exact congrArg Except.ok hroute
      have hlookup := lookup_adjustAll rpc.clients (rpc.clients.keys_nodup.filter accepts)
        (RpcServer.offered accepts packet)
      refine ⟨_, readCallback_run_of_packet rfl hpacket
        (RpcServer.forM_writePacket_run accepts packet rpc.clients.keys rpc), ?_, ?_⟩
      · intro other hother
        have hsome := AList.lookup_isSome.mpr hother
        rw [hlookup, Option.isSome_map] at hsome
        exact hlive other (AList.lookup_isSome.mp hsome)
      · rw [hlookup, Option.map_map]
        cases hclient : rpc.clients.lookup ev with
        | none => rfl
        | some client =>
            have hkey : ev ∈ rpc.clients.keys.filter accepts := List.mem_filter.mpr
              ⟨AList.mem_keys.mp (AList.lookup_isSome.mp (Option.isSome_of_eq_some hclient)),
                haccepts⟩
            simp [hkey, RpcServer.offered, haccepts, passes, hroute, route_eq_some hpacket]

end ControlEpHandler

/-! ## One step of the path -/

/-- The feed as which the GUI has its measurements. -/
def PathInput.event : PathInput → Option (Event (List Byte))
  | .coprocessor _ pending =>
      if ControlEpHandler.passes pending then some (.publishes pending) else none
  | .server _ => none
  | .receive more => some (.receives more)
  | .home .install => some (.asks true)
  | .home .remove => some (.asks false)
  | .home (.other _) => none

def pathEvents (xs : List PathInput) : List (Event (List Byte)) := xs.filterMap PathInput.event

/-- The GUI's connection takes what is written, what is passed on starts with a
complete packet, the other clients stay in bounds, and the other callbacks leave
that of the home screen alone. -/
def Fair (ev : Nat) (s : Path) : PathInput → Prop
  | .coprocessor accepts pending =>
      accepts ev = true ∧ (ControlEpHandler.passes pending = true → Framed pending)
  | .server x => x.InBounds ∧ x.Spares ev
  | .receive _ => True
  | .home e => HomeScreen.Permitted .homeScreen s.home e

/-- The packet that the GUI handles, if it reads something, can be read by its
accessors. -/
def Legible (cbor : Libcbor) (ev : Nat) (s : Path) : PathInput → Prop
  | .receive _ => ∀ piece ∈ (s.toGui ev).head?, Readable cbor piece
  | _ => True

/-- The measurements that were received with the callback. -/
def handledOf (cbor : Libcbor) (received : List (Bool × List Byte)) : List Measurement :=
  received.flatMap (shownOf cbor)

/-- The path does as the feed does. -/
structure Follows (cbor : Libcbor) (format : Nat → Double → String) (ev : Nat) (s : Path)
    (f : Feed (List Byte)) : Prop where
  server : ∃ rpc client, s.handler.lrpc = some rpc ∧ rpc.Live ∧
    rpc.clients.lookup ev = some client ∧ s.read ≤ client.written.length ∧
      client.written.drop s.read = f.inFlight
  serves : f.serves = true
  framed : ∀ piece ∈ f.inFlight, Framed piece
  sole : HomeScreen.Sole .homeScreen s.home
  installed : s.installed = f.wants
  shown_eq : s.shown = handledOf cbor f.received
  labels_eq : s.labels = Labels.initial.setAll format s.shown

section Steps

variable {kernel heap : Allocator Nat} {cbor : Libcbor} {format : Nat → Double → String}
  {ev : Nat} {s : Path} {f : Feed (List Byte)}

theorem Follows.toGui_eq (h : Follows cbor format ev s f) : s.toGui ev = f.inFlight := by
  obtain ⟨rpc, client, hrpc, -, hclient, -, hflight⟩ := h.server
  rw [Path.toGui, hrpc, Option.bind_some, hclient]
  exact hflight

theorem onHandler_run_of_ok {m : EStateM Fault ControlEpHandler Unit} {handler : ControlEpHandler}
    (h : m.run s.handler = .ok () handler) :
    (Path.onHandler m).run s = .ok () { s with handler := handler } := by
  simp only [Path.onHandler, EStateM.run] at h ⊢
  rw [h]

/-- What the server wrote for the GUI is on its way. -/
theorem Follows.writes (h : Follows cbor format ev s f) {rpc rpc' : RpcServer}
    (hrpc : s.handler.lrpc = some rpc) (buf : List Byte) (hlive : rpc'.Live)
    {more : List (List Byte)} (hmore : ∀ piece ∈ more, Framed piece)
    (hwritten : (rpc'.clients.lookup ev).map RpcServer.Client.written
      = (rpc.clients.lookup ev).map fun client => client.written ++ more) :
    Follows cbor format ev { s with handler := ⟨buf, some rpc'⟩ }
      { f with inFlight := f.inFlight ++ more } := by
  obtain ⟨rpc₀, client, hrpc₀, -, hclient, hread, hflight⟩ := h.server
  cases hrpc.symm.trans hrpc₀
  rw [hclient, Option.map_some] at hwritten
  obtain ⟨client', hclient', hwritten⟩ := Option.map_eq_some_iff.mp hwritten
  refine ⟨⟨rpc', client', rfl, hlive, hclient', ?_, ?_⟩, h.serves, ?_, h.sole, h.installed,
    h.shown_eq, h.labels_eq⟩
  · rw [hwritten, List.length_append]
    exact Nat.le_add_right_of_le hread
  · rw [hwritten, List.drop_append_of_le_length hread, hflight]
  · intro piece hpiece
    exact (List.mem_append.mp hpiece).elim (h.framed piece) (hmore piece)

theorem follows_coprocessor {accepts : Nat → Bool} {pending : List Byte}
    (hx : Fair ev s (.coprocessor accepts pending)) (h : Follows cbor format ev s f) :
    ∃ t, (pathStep kernel heap cbor format ev (.coprocessor accepts pending)).run s = .ok () t ∧
      Follows cbor format ev t (f.after (pathEvents [.coprocessor accepts pending])) := by
  obtain ⟨haccepts, hframed⟩ := hx
  obtain ⟨rpc, client, hrpc, hlive, -⟩ := h.server
  obtain ⟨rpc', hrun, hlive', hwritten⟩ :=
    ControlEpHandler.readCallback_run_live pending hrpc hlive haccepts
  have hafter : f.after (pathEvents [.coprocessor accepts pending]) = { f with
      inFlight := f.inFlight ++ if ControlEpHandler.passes pending then [pending] else [] } := by
    rw [pathEvents, List.filterMap_cons, PathInput.event]
    cases ControlEpHandler.passes pending with
    | false => exact congrArg (Feed.mk _ _ _ · _) (List.append_nil _).symm
    | true => exact if_pos h.serves
  rw [hafter]
  refine ⟨_, onHandler_run_of_ok hrun, h.writes hrpc _ hlive' ?_ hwritten⟩
  intro piece hpiece
  split at hpiece
  · rename_i hpasses
    rw [List.mem_singleton.mp hpiece]
    exact hframed hpasses
  · cases hpiece

theorem follows_server {x : ServerInput} (hx : Fair ev s (.server x))
    (h : Follows cbor format ev s f) :
    ∃ t, (pathStep kernel heap cbor format ev (.server x)).run s = .ok () t ∧
      Follows cbor format ev t f := by
  obtain ⟨hbounds, hspares⟩ := hx
  obtain ⟨rpc, client, hrpc, hlive, hclient, -⟩ := h.server
  obtain ⟨answer, rpc', hstep, hbeside⟩ := RpcServer.beside_step kernel heap cbor hbounds hlive
  have hrun : (ControlEpHandler.onServer (RpcServer.step kernel heap cbor x)).run s.handler
      = .ok () { s.handler with lrpc := some rpc' } := by
    simp only [ControlEpHandler.onServer, EStateM.run, hrpc] at hstep ⊢
    rw [hstep]
  have hmem := AList.lookup_isSome.mp (Option.isSome_of_eq_some hclient)
  have hnothing : ∀ piece ∈ ([] : List (List Byte)), Framed piece :=
    fun _ hpiece => absurd hpiece List.not_mem_nil
  have hfollows := h.writes hrpc s.handler.rpmsgRxBuf hbeside.live hnothing (by
    rw [hbeside.lookup_eq ev hmem hspares]
    simp only [List.append_nil])
  rw [List.append_nil] at hfollows
  exact ⟨_, onHandler_run_of_ok hrun, hfollows⟩

theorem follows_receive {more : Nat} (hlegible : Legible cbor ev s (.receive more))
    (h : Follows cbor format ev s f) :
    ∃ t, (pathStep kernel heap cbor format ev (.receive more)).run s = .ok () t ∧
      Follows cbor format ev t (f.step (.receives more)) := by
  obtain ⟨rpc, client, hrpc, hlive, hclient, hread, hflight⟩ := h.server
  rw [Legible, h.toGui_eq] at hlegible
  rw [pathStep, run_get_bind, h.toGui_eq, Feed.step, Feed.receive]
  cases hpieces : f.inFlight with
  | nil => exact ⟨s, rfl, h⟩
  | cons piece later =>
      have hpiece := h.framed piece (by rw [hpieces]; exact List.mem_cons_self)
      have hreadable := hlegible piece (by rw [hpieces]; exact Option.mem_some_self piece)
      have hdefined := hpiece.defined_measurementIn_iff.mpr hreadable
      have hfound := hpiece.measurementIn_append cbor (later.take more).flatten
      obtain ⟨answer, hrun⟩ := read_run format h.sole (hfound ▸ hdefined)
      have hshown : shownOf cbor (s.installed, piece ++ (later.take more).flatten)
          = shownOf cbor (f.wants, piece) := by
        rw [shownOf, shownOf, measured, measured, hfound, h.installed]
      rw [hshown] at hrun
      refine ⟨_, run_bind_of_ok hrun, ⟨rpc, client, hrpc, hlive, hclient, ?_, ?_⟩, h.serves, ?_,
        h.sole, h.installed, ?_, ?_⟩
      · have hlength := congrArg List.length (hflight.trans hpieces)
        rw [List.length_drop, List.length_cons] at hlength
        have htake := List.length_take_le' more later
        show s.read + 1 + _ ≤ _
        omega
      · show client.written.drop (s.read + 1 + (later.take more).length) = later.drop more
        rw [← List.drop_drop, ← List.drop_drop, hflight, hpieces, List.drop_succ_cons,
          List.drop_zero, drop_length_take]
      · intro other hother
        exact h.framed other (by
          rw [hpieces]
          exact List.mem_cons_of_mem piece (List.mem_of_mem_drop hother))
      · show s.shown ++ _ = handledOf cbor (f.received ++ [(f.wants, piece)])
        rw [h.shown_eq, handledOf, handledOf, List.flatMap_append, List.flatMap_singleton]
      · show s.labels.setAll format _ = Labels.initial.setAll format (s.shown ++ _)
        rw [Labels.setAll_append, ← h.labels_eq]

/-- What the GUI handles without a fault can be read. -/
theorem legible_of_run {x : PathInput} {t : Path} (h : Follows cbor format ev s f)
    (hrun : (pathStep kernel heap cbor format ev x).run s = .ok () t) : Legible cbor ev s x := by
  cases x with
  | receive more =>
      intro piece hpiece
      obtain ⟨later, hpieces⟩ := List.head?_eq_some_iff.mp (Option.mem_def.mp hpiece)
      have hframed := h.framed piece (by rw [← h.toGui_eq, hpieces]; exact List.mem_cons_self)
      by_contra hnot
      have hundefined := fun hdefined => hnot (hframed.defined_measurementIn_iff.mp hdefined)
      rw [← hframed.measurementIn_append cbor (later.take more).flatten] at hundefined
      obtain ⟨op, u, hfault⟩ := read_run_undefined format s hundefined
      rw [pathStep, run_get_bind, hpieces, readPieces, run_bind_of_error hfault] at hrun
      cases hrun
  | coprocessor accepts pending => trivial
  | server x => trivial
  | home e => trivial

/-- The home screen starts without a callback. -/
theorem sole_initial : HomeScreen.Sole Listener.homeScreen .initial where
  zero := AList.notMem_empty 0
  lookup_iff token := iff_of_false (by simp [HomeScreen.initial, MeasurementCallbacks.initial])
    fun htoken => htoken.1 htoken.2

/-- What others do with their callbacks leaves the home screen its token. -/
theorem token_other {call : MeasurementCallbacks.Call Listener} {home home' : HomeScreen Listener}
    (hrun : (HomeScreen.step .homeScreen (.other call)).run home = .ok () home') :
    home'.measurementCallbackToken = home.measurementCallbackToken := by
  rw [HomeScreen.step] at hrun
  obtain ⟨answer, u, hcall, hreturn⟩ := run_bind_eq_ok.mp hrun
  cases hreturn
  simp only [HomeScreen.onClient, EStateM.run] at hcall
  split at hcall
  · cases hcall
    rfl
  · cases hcall

theorem follows_home {e : HomeScreen.Event Listener} (hx : Fair ev s (.home e))
    (h : Follows cbor format ev s f) :
    ∃ t, (pathStep kernel heap cbor format ev (.home e)).run s = .ok () t ∧
      Follows cbor format ev t (f.after (pathEvents [.home e])) := by
  obtain ⟨⟨⟩, home, hrun, hregistered, hsole⟩ := h.sole.takes hx
  have hstep : (pathStep kernel heap cbor format ev (.home e)).run s
      = .ok () { s with home := home } := by
    simp only [pathStep, Path.onHome, EStateM.run] at hrun ⊢
    rw [hrun]
  refine ⟨_, hstep, ?_⟩
  cases e with
  | install => exact ⟨h.server, h.serves, h.framed, hsole,
      decide_eq_true (hregistered.installed rfl), h.shown_eq, h.labels_eq⟩
  | remove => exact ⟨h.server, h.serves, h.framed, hsole,
      decide_eq_false (not_not.mpr (hregistered.removed rfl)), h.shown_eq, h.labels_eq⟩
  | other call =>
      have hsame : Path.installed { s with home := home } = s.installed := by
        rw [Path.installed, Path.installed, token_other hrun]
      exact ⟨h.server, h.serves, h.framed, hsole, hsame.trans h.installed, h.shown_eq, h.labels_eq⟩

/-- One step of the path is at most one of the feed. -/
theorem follows_step (kernel heap : Allocator Nat) {x : PathInput} (hx : Fair ev s x)
    (hlegible : Legible cbor ev s x) (h : Follows cbor format ev s f) :
    ∃ t, (pathStep kernel heap cbor format ev x).run s = .ok () t ∧
      Follows cbor format ev t (f.after (pathEvents [x])) := by
  cases x with
  | coprocessor accepts pending => exact follows_coprocessor hx h
  | server x => exact follows_server hx h
  | receive more => exact follows_receive hlegible h
  | home e => exact follows_home hx h

end Steps

/-! ## Interleavings -/

section Runs

variable {kernel heap : Allocator Nat} {cbor : Libcbor} {format : Nat → Double → String}
  {ev : Nat} {s : Path} {f : Feed (List Byte)} {xs : List PathInput}

theorem follows_run (hfair : Wherever (pathStep kernel heap cbor format ev) (Fair ev) s xs)
    (hlegible : Wherever (pathStep kernel heap cbor format ev) (Legible cbor ev) s xs)
    (h : Follows cbor format ev s f) :
    (∃ ws, Steps (pathStep kernel heap cbor format ev) s xs ws
        (final (pathStep kernel heap cbor format ev) s xs)) ∧
      Follows cbor format ev (final (pathStep kernel heap cbor format ev) s xs)
        (f.after (pathEvents xs)) := by
  rw [pathEvents, Feed.after_filterMap]
  refine steps_of_simulation (R := Follows cbor format ev) ?_ h (wherever_and hfair hlegible)
  intro s f x hs hx
  exact ⟨(), follows_step kernel heap hx.1 hx.2 hs⟩

/-- A run without a fault has met nothing but what can be read. -/
theorem legible_of_steps {ws : List Unit} {t : Path}
    (hfair : Wherever (pathStep kernel heap cbor format ev) (Fair ev) s xs)
    (h : Follows cbor format ev s f)
    (hsteps : Steps (pathStep kernel heap cbor format ev) s xs ws t) :
    Wherever (pathStep kernel heap cbor format ev) (Legible cbor ev) s xs := by
  induction hsteps generalizing f with
  | nil => trivial
  | cons hx _ ih =>
      obtain ⟨hfirst, hrest⟩ := hfair
      have hlegible := legible_of_run h hx
      obtain ⟨u, hrun, hu⟩ := follows_step kernel heap hfirst hlegible h
      cases hx.symm.trans hrun
      refine ⟨hlegible, ?_⟩
      rw [stateAfter_of_ok hx] at hrest ⊢
      exact ih hrest hu

end Runs

/-- loadd with the GUI that it has just accepted. -/
def Path.joined (rpc : RpcServer) : Path :=
  ⟨⟨[], some rpc⟩, 0, ⟨0, [], []⟩, .initial, .initial, []⟩

/-- The measurements that the firmware broadcast, as far as they were at the
front of what loadd read. -/
def reported (cbor : Libcbor) (xs : List PathInput) : List Measurement :=
  (published (pathEvents xs)).filterMap (measured cbor)

section Shown

variable (kernel heap : Allocator Nat) (cbor : Libcbor) (format : Nat → Double → String)
  (ev : Nat) (rpc : RpcServer)

def pathAfter (xs : List PathInput) : Path :=
  final (pathStep kernel heap cbor format ev) (.joined rpc) xs

/-- How what is shown follows from what the firmware broadcast:
 * nothing in the interleaving faults;
 * the labels are those of the measurements shown;
 * each measurement is shown at most once and in the order of the broadcasts;
 * after `remove` nothing is shown;
 * with a callback, and with nothing on its way before and after, every
   measurement is shown, provided that the GUI reads what loadd wrote one by
   one. -/
structure MeasurementsShown (xs : List PathInput) : Prop where
  runs : ∃ ws, Steps (pathStep kernel heap cbor format ev) (.joined rpc) xs ws
    (pathAfter kernel heap cbor format ev rpc xs)
  labels_eq : (pathAfter kernel heap cbor format ev rpc xs).labels
    = Labels.initial.setAll format (pathAfter kernel heap cbor format ev rpc xs).shown
  once : (pathAfter kernel heap cbor format ev rpc xs).shown.Sublist (reported cbor xs)
  silent : ∀ before later, xs = before ++ later →
    (pathAfter kernel heap cbor format ev rpc before).home.measurementCallbackToken = 0 →
    .home .install ∉ later →
      (pathAfter kernel heap cbor format ev rpc xs).shown
        = (pathAfter kernel heap cbor format ev rpc before).shown
  complete : ∀ before later, xs = before ++ later →
    (pathAfter kernel heap cbor format ev rpc before).home.measurementCallbackToken ≠ 0 →
    (pathAfter kernel heap cbor format ev rpc before).toGui ev = [] → .home .remove ∉ later →
    (∀ more, .receive more ∈ later → more = 0) →
    (pathAfter kernel heap cbor format ev rpc xs).toGui ev = [] →
      (pathAfter kernel heap cbor format ev rpc xs).shown
        = (pathAfter kernel heap cbor format ev rpc before).shown ++ reported cbor later

end Shown

section Events

variable {cbor : Libcbor} {xs : List PathInput}

theorem mem_pathEvents {event : Event (List Byte)} :
    event ∈ pathEvents xs ↔ ∃ x ∈ xs, x.event = some event := List.mem_filterMap

theorem event_coprocessor {accepts : Nat → Bool} {pending : List Byte}
    {event : Event (List Byte)} (h : (PathInput.coprocessor accepts pending).event = some event) :
    event = .publishes pending := by
  rw [PathInput.event] at h
  split at h
  · exact (Option.some.inj h).symm
  · cases h

theorem event_eq_some_asks {x : PathInput} {wants : Bool} (h : x.event = some (.asks wants)) :
    x = .home (if wants then .install else .remove) := by
  cases x with
  | coprocessor accepts pending => cases event_coprocessor h
  | server x => cases h
  | receive more => cases h
  | home e => cases e <;> cases h <;> rfl

theorem event_ne_hears (x : PathInput) : x.event ≠ some .hears := by
  intro h
  cases x with
  | coprocessor accepts pending => cases event_coprocessor h
  | server x => cases h
  | receive more => cases h
  | home e => cases e <;> cases h

theorem oneByOne_pathEvents (h : ∀ more, .receive more ∈ xs → more = 0) :
    OneByOne (pathEvents xs) := by
  intro more hmem
  obtain ⟨x, hx, hevent⟩ := mem_pathEvents.mp hmem
  cases x with
  | coprocessor accepts pending => cases event_coprocessor hevent
  | server x => cases hevent
  | receive more' =>
      cases hevent
      exact h more hx
  | home e => cases e <;> cases hevent

variable (cbor) in
theorem handledOf_refused {refused : List (Bool × List Byte)} (h : ∀ x ∈ refused, x.1 = false) :
    handledOf cbor refused = [] := by
  refine List.flatMap_eq_nil_iff.mpr fun x hx => ?_
  rw [shownOf, h x hx]
  rfl

variable (cbor) in
theorem handledOf_taken (taken : List (List Byte)) :
    handledOf cbor (taken.map (true, ·)) = taken.filterMap (measured cbor) := by
  rw [handledOf, List.flatMap_map, List.filterMap_eq_flatMap_toList]
  rfl

theorem shownOf_sublist (x : Bool × List Byte) :
    (shownOf cbor x).Sublist (measured cbor x.2).toList := by
  obtain ⟨wants, piece⟩ := x
  cases wants with
  | false => exact List.nil_sublist _
  | true => exact List.Sublist.refl _

theorem handledOf_sublist (received : List (Bool × List Byte)) :
    (handledOf cbor received).Sublist ((received.map Prod.snd).filterMap (measured cbor)) := by
  rw [List.filterMap_map, List.filterMap_eq_flatMap_toList, handledOf]
  induction received with
  | nil => exact List.Sublist.refl _
  | cons x received ih => exact (shownOf_sublist x).append ih

section Later

variable {format : Nat → Double → String} {ev : Nat} {s t : Path} {f : Feed (List Byte)}
  {later : List PathInput}

/-- Without a callback nothing is shown. -/
theorem Follows.shown_eq_of_silent (hs : Follows cbor format ev s f)
    (ht : Follows cbor format ev t (f.after (pathEvents later)))
    (htoken : s.home.measurementCallbackToken = 0) (hlater : .home .install ∉ later) :
    t.shown = s.shown := by
  have hoff : f.wants = false :=
    hs.installed.symm.trans (decide_eq_false (not_not.mpr htoken))
  have hasks : .asks true ∉ pathEvents later := by
    intro hmem
    obtain ⟨x, hx, hevent⟩ := mem_pathEvents.mp hmem
    exact hlater (event_eq_some_asks hevent ▸ hx)
  obtain ⟨refused, hreceived, hrefused, -⟩ := Feed.refused_after hoff hasks
  have hshown := handledOf_refused cbor hrefused
  rw [ht.shown_eq, hs.shown_eq, hreceived, handledOf, List.flatMap_append]
  exact (congrArg _ hshown).trans (List.append_nil _)

/-- With a callback, and nothing on its way before and after, all is shown. -/
theorem Follows.shown_eq_of_complete (hs : Follows cbor format ev s f)
    (ht : Follows cbor format ev t (f.after (pathEvents later)))
    (htoken : s.home.measurementCallbackToken ≠ 0) (hquiet : s.toGui ev = [])
    (hlater : .home .remove ∉ later) (hone : ∀ more, .receive more ∈ later → more = 0)
    (hread : t.toGui ev = []) : t.shown = s.shown ++ reported cbor later := by
  have hon : f.On False := ⟨hs.installed.symm.trans (decide_eq_true htoken), hs.serves, False.elim⟩
  have hasks : .asks false ∉ pathEvents later := by
    intro hmem
    obtain ⟨x, hx, hevent⟩ := mem_pathEvents.mp hmem
    exact hlater (event_eq_some_asks hevent ▸ hx)
  have hhears : .hears ∈ pathEvents later → False := by
    intro hmem
    obtain ⟨x, -, hevent⟩ := mem_pathEvents.mp hmem
    exact event_ne_hears x hevent
  obtain ⟨taken, hreceived, htaken⟩ :=
    Feed.complete_after hon hasks hhears (oneByOne_pathEvents hone)
  rw [ht.toGui_eq.symm.trans hread, hs.toGui_eq.symm.trans hquiet, List.append_nil,
    List.nil_append] at htaken
  have hshown := (handledOf_taken cbor taken).trans (congrArg _ htaken)
  rw [ht.shown_eq, hs.shown_eq, hreceived, handledOf, List.flatMap_append]
  exact congrArg _ hshown

end Later

theorem follows_joined {kernel heap : Allocator Nat} {format : Nat → Double → String} {ev : Nat}
    {rpc : RpcServer} (hjoined : RpcServer.Accepted kernel heap cbor ev rpc) :
    Follows cbor format ev (.joined rpc) .pushed := by
  obtain ⟨hlive, socket, hclient⟩ := hjoined.live
  exact ⟨⟨rpc, _, rfl, hlive, hclient, Nat.le_refl 0, rfl⟩, rfl,
    fun _ hpiece => absurd hpiece List.not_mem_nil, sole_initial, rfl, rfl, rfl⟩

end Events

section Interleavings

variable {kernel heap : Allocator Nat} {cbor : Libcbor} {format : Nat → Double → String}
  {ev : Nat} {rpc : RpcServer} {xs : List PathInput}

/-- Any two points of a run. -/
theorem follows_split {before later : List PathInput}
    (hjoined : RpcServer.Accepted kernel heap cbor ev rpc)
    (hfair : Wherever (pathStep kernel heap cbor format ev) (Fair ev) (.joined rpc)
      (before ++ later))
    (hlegible : Wherever (pathStep kernel heap cbor format ev) (Legible cbor ev) (.joined rpc)
      (before ++ later)) :
    Follows cbor format ev (pathAfter kernel heap cbor format ev rpc before)
        (Feed.pushed.after (pathEvents before)) ∧
      Follows cbor format ev (pathAfter kernel heap cbor format ev rpc (before ++ later))
        ((Feed.pushed.after (pathEvents before)).after (pathEvents later)) := by
  have hstart : Follows cbor format ev (.joined rpc) .pushed := follows_joined hjoined
  have hevents : pathEvents (before ++ later) = pathEvents before ++ pathEvents later :=
    List.filterMap_append
  rw [← Feed.after_append, ← hevents]
  exact ⟨(follows_run (wherever_append hfair).1 (wherever_append hlegible).1 hstart).2,
    (follows_run hfair hlegible hstart).2⟩

/-- Where everything that the GUI handles can be read. -/
theorem measurementsShown_of_legible (hjoined : RpcServer.Accepted kernel heap cbor ev rpc)
    (hfair : Wherever (pathStep kernel heap cbor format ev) (Fair ev) (.joined rpc) xs)
    (hlegible : Wherever (pathStep kernel heap cbor format ev) (Legible cbor ev) (.joined rpc) xs) :
    MeasurementsShown kernel heap cbor format ev rpc xs := by
  obtain ⟨hruns, hfollows⟩ := follows_run hfair hlegible (follows_joined hjoined)
  rw [← pathAfter] at hfollows
  constructor
  · exact hruns
  · exact hfollows.labels_eq
  · refine (hfollows.shown_eq ▸ handledOf_sublist _).trans ?_
    exact (Feed.received_after (pathEvents xs) rfl).filterMap _
  · rintro before later rfl htoken hlater
    obtain ⟨hbefore, hafter⟩ := follows_split hjoined hfair hlegible
    exact hbefore.shown_eq_of_silent hafter htoken hlater
  · rintro before later rfl htoken hquiet hlater hone hread
    obtain ⟨hbefore, hafter⟩ := follows_split hjoined hfair hlegible
    exact hbefore.shown_eq_of_complete hafter htoken hquiet hlater hone hread

/-- Every interleaving, from a connection that loadd has just accepted. -/
theorem measurements_shown (hjoined : RpcServer.Accepted kernel heap cbor ev rpc)
    (hfair : Wherever (pathStep kernel heap cbor format ev) (Fair ev) (.joined rpc) xs) :
    ((∃ ws t, Steps (pathStep kernel heap cbor format ev) (.joined rpc) xs ws t) ↔
        Wherever (pathStep kernel heap cbor format ev) (Legible cbor ev) (.joined rpc) xs) ∧
      (Wherever (pathStep kernel heap cbor format ev) (Legible cbor ev) (.joined rpc) xs →
        MeasurementsShown kernel heap cbor format ev rpc xs) := by
  have hshown := measurementsShown_of_legible hjoined hfair
  refine ⟨⟨?_, fun hlegible => ?_⟩, hshown⟩
  · rintro ⟨ws, t, hsteps⟩
    exact legible_of_steps hfair (follows_joined hjoined) hsteps
  · obtain ⟨ws, hsteps⟩ := (hshown hlegible).runs
    exact ⟨ws, _, hsteps⟩

end Interleavings

/-- A voltage, of twelve or of thirteen, encoded. -/
def codeVoltage (mantissa : Byte) : List Byte :=
  [0xa1, 0x61] ++ ascii "v" ++ [0xfa, 0x41, mantissa, 0x00, 0x00]

def codesVoltage : List (List Byte × Item) :=
  [(codeVoltage 0x40, .map true [(.ofString "v", .float .single (.num 12))]),
    (codeVoltage 0x50, .map true [(.ofString "v", .float .single (.num 13))])]

theorem codesVoltage_ne_nil : ∀ c ∈ codesVoltage, c.1 ≠ [] := by
  simp [codesVoltage, codeVoltage]

def libcborVoltage : Libcbor :=
  .ofTable codesVoltage (fun _ => codeVoltage 0x40) codesVoltage_ne_nil

/-- The firmware's broadcast of it. -/
def broadcastVoltage (mantissa : Byte) : List Byte :=
  [0x00, 0x01, 0x10, 0x00, 0x10, 0x00, 0x02, 0x00] ++ codeVoltage mantissa

theorem framed_broadcastVoltage (mantissa : Byte) : Framed (broadcastVoltage mantissa) where
  complete := Nat.le_add_left 8 8
  length_le := by
    rw [broadcastVoltage, Header.read_append (by decide)]
    exact Nat.le_refl 16

theorem readable_broadcastVoltage {mantissa : Byte} (voltage : Double)
    (h : measurementIn libcborVoltage (broadcastVoltage mantissa)
      = .ok (some ⟨voltage, .num 0, .num 0⟩)) :
    Readable libcborVoltage (broadcastVoltage mantissa) :=
  (framed_broadcastVoltage mantissa).defined_measurementIn_iff.mp (.of_ok h)

/-- Two of them, while the home screen has its callback and another client comes
to loadd. -/
def voltages : List PathInput :=
  [.home .install, .coprocessor (fun _ => true) (broadcastVoltage 0x40), .server (.accept none),
    .coprocessor (fun _ => true) (broadcastVoltage 0x50), .receive 0, .receive 0, .home .remove]

theorem measurements_shown_voltage :
    MeasurementsShown (.lowest 4) (.lowest 1) libcborVoltage (fun _ _ => "12") 1
        (stateAfter (RpcServer.step (.lowest 4) (.lowest 1) libcborVoltage (.accept none)) .start)
        voltages ∧
      reported libcborVoltage voltages
        = [⟨.num 12, .num 0, .num 0⟩, ⟨.num 13, .num 0, .num 0⟩] := by
  have hjoined : RpcServer.Accepted (.lowest 4) (.lowest 1) libcborVoltage 1
      (stateAfter (RpcServer.step (.lowest 4) (.lowest 1) libcborVoltage (.accept none)) .start) :=
    ⟨[], [], .start, .nil _, fun _ hx => absurd hx List.not_mem_nil, rfl, rfl⟩
  have htoken : (0 : Nat) < 2 ^ 32 - 1 := by decide
  have hfair : Wherever (pathStep (.lowest 4) (.lowest 1) libcborVoltage (fun _ _ => "12") 1)
      (Fair 1) (.joined (stateAfter (RpcServer.step (.lowest 4) (.lowest 1) libcborVoltage
        (.accept none)) .start)) voltages :=
    ⟨htoken, ⟨rfl, fun _ => framed_broadcastVoltage _⟩, ⟨trivial, trivial⟩,
      ⟨rfl, fun _ => framed_broadcastVoltage _⟩, trivial, trivial, trivial, trivial⟩
  refine ⟨(measurements_shown hjoined hfair).2 ⟨trivial, trivial, trivial, trivial, ?_, ?_,
    trivial, trivial⟩, rfl⟩
  · intro piece hpiece
    cases Option.some.inj (show some (broadcastVoltage 0x40) = some piece from hpiece)
    exact readable_broadcastVoltage (.num 12) rfl
  · intro piece hpiece
    cases Option.some.inj (show some (broadcastVoltage 0x50) = some piece from hpiece)
    exact readable_broadcastVoltage (.num 13) rfl

end Rpc
