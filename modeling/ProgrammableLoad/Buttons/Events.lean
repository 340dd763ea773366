/-
# `Buttons.Events` — from the lines of the buttons to the events of the GUI

pinballd broadcasts the changes of its buttons, and a client that wants button
events gets each broadcast as a packet of its own.  The GUI makes events of
what concerns the menu and select buttons.  So the events of either button are
the levels its line went through, each once.
-/
import Mathlib.Data.List.Destutter
import ProgrammableLoad.Buttons.Direct
import ProgrammableLoad.Cbor.Lookup
import ProgrammableLoad.Rpc.Agreement
import ProgrammableLoad.Rpc.UiEvents
import ProgrammableLoad.Theory.Runs

namespace Buttons

open Cpp Cbor Cbor.Util Program Rpc

/-! ## What the reports say of a button -/

/-- The states a list of changes gives a button. -/
def statesOf (b : Button) (changes : Changes) : List Bool :=
  changes.filterMap fun change => if change.1 = b then some change.2 else none

/-- The states of the buttons after a list of changes. -/
def applied (states : Button → Bool) (changes : Changes) : Button → Bool :=
  changes.foldl (fun states change => Function.update states change.1 change.2) states

/-- The broadcasts among the answers of the calls. -/
def broadcasts (answers : List (Option Changes)) : List Changes := answers.filterMap id

section Reports

variable {b : Button} {prev now : Button → Bool} {levels : List (Button → Bool)}
  {answer : Option Changes} {answers : List (Option Changes)} {changes : Changes}

theorem mem_statesOf {state : Bool} : state ∈ statesOf b changes ↔ (b, state) ∈ changes := by
  rw [statesOf, List.mem_filterMap]
  constructor
  · rintro ⟨change, hmem, hstate⟩
    split at hstate
    · rename_i hb
      cases hstate
      rw [← hb]
      exact hmem
    · cases hstate
  · intro h
    exact ⟨_, h, if_pos rfl⟩

theorem statesOf_cons (change : Button × Bool) :
    statesOf b (change :: changes)
      = (if change.1 = b then [change.2] else []) ++ statesOf b changes := by
  by_cases hb : change.1 = b
  · simp [statesOf, hb]
  · simp [statesOf, hb]

/-- A button that no change is about has no states. -/
theorem statesOf_eq_nil (h : b ∉ changes.map Prod.fst) : statesOf b changes = [] := by
  rw [List.eq_nil_iff_forall_not_mem]
  intro state hstate
  exact h (List.mem_map.mpr ⟨_, mem_statesOf.mp hstate, rfl⟩)

theorem statesOf_of_mem {state : Bool} (hnodup : (changes.map Prod.fst).Nodup)
    (h : (b, state) ∈ changes) : statesOf b changes = [state] := by
  induction changes with
  | nil => cases h
  | cons change changes ih =>
      obtain ⟨hfresh, hnodup⟩ := List.nodup_cons.mp hnodup
      rw [statesOf_cons]
      rcases List.mem_cons.mp h with rfl | hrest
      · rw [if_pos rfl, statesOf_eq_nil hfresh, List.append_nil]
      · have hb : change.1 ≠ b := by
          rintro rfl
          exact hfresh (List.mem_map.mpr ⟨_, hrest, rfl⟩)
        rw [if_neg hb, List.nil_append]
        exact ih hnodup hrest

/-- A report has one state of a button whose level changed, and none of another. -/
theorem Reports.statesOf_eq (h : Reports prev now (some changes)) (b : Button) :
    statesOf b changes = if prev b ≠ now b then [now b] else [] := by
  split
  · rename_i hne
    exact statesOf_of_mem (h.nodup changes rfl)
      ((h.mem_iff changes rfl b (now b)).mpr ⟨hne, rfl⟩)
  · rename_i hsame
    rw [List.eq_nil_iff_forall_not_mem]
    intro state hstate
    exact hsame ((h.mem_iff changes rfl b state).mp (mem_statesOf.mp hstate)).1

theorem applied_cons (states : Button → Bool) (change : Button × Bool) (changes : Changes) :
    applied states (change :: changes)
      = applied (Function.update states change.1 change.2) changes := rfl

/-- The last state that the changes give a button is the one it has after them. -/
theorem applied_apply (states : Button → Bool) (changes : Changes) (b : Button) :
    applied states changes b = (statesOf b changes).getLastD (states b) := by
  induction changes generalizing states with
  | nil => rfl
  | cons change changes ih =>
      rw [applied_cons, ih, statesOf_cons]
      by_cases hb : change.1 = b
      · subst hb
        rw [if_pos rfl, Function.update_self, List.singleton_append, List.getLastD_cons]
      · rw [if_neg hb, Function.update_of_ne (Ne.symm hb), List.nil_append]

/-! ## What a run reports -/

/-- What the answer of a call broadcasts. -/
theorem broadcasts_cons :
    broadcasts (answer :: answers) = answer.toList ++ broadcasts answers := by
  cases answer with
  | none => rfl
  | some changes => rfl

/-- After a report the buttons are as they are now. -/
theorem Reports.applied_eq (h : Reports prev now answer) :
    answer.toList.foldl applied prev = now := by
  cases answer with
  | none =>
      funext b
      by_contra hne
      exact Bool.false_ne_true (h.isSome_iff.mpr ⟨b, hne⟩)
  | some changes =>
      funext b
      show applied prev changes b = now b
      rw [applied_apply, h.statesOf_eq]
      split
      · rfl
      · rename_i hsame
        exact not_not.mp hsame

theorem Reports.flatMap_statesOf (h : Reports prev now answer) (b : Button) :
    answer.toList.flatMap (statesOf b) = if prev b ≠ now b then [now b] else [] := by
  cases answer with
  | none =>
      have hsame : prev b = now b := congrFun h.applied_eq b
      rw [if_neg (not_not.mpr hsame)]
      rfl
  | some changes =>
      rw [← h.statesOf_eq b]
      exact List.flatMap_singleton ..

/-- The reports of a run, put together, are the levels at its last call. -/
theorem ReportsAll.foldl_applied (h : ReportsAll prev levels answers) :
    (broadcasts answers).foldl applied prev = levels.getLastD prev := by
  induction h with
  | nil => rfl
  | cons hfirst _ ih =>
      rw [broadcasts_cons, List.foldl_append, hfirst.applied_eq, ih, List.getLastD_cons]

/-- The states that a run reports of a button, after the one before it, are
its levels without the repetitions. -/
theorem ReportsAll.destutter_eq (h : ReportsAll prev levels answers) (b : Button) :
    prev b :: (broadcasts answers).flatMap (statesOf b)
      = (prev b :: levels.map fun now => now b).destutter (· ≠ ·) := by
  induction h with
  | nil => rfl
  | @cons prev now levels answer answers hfirst _ ih =>
      rw [broadcasts_cons, List.flatMap_append, hfirst.flatMap_statesOf, List.map_cons,
        List.destutter_cons_cons]
      split
      · rw [List.singleton_append, ih, List.destutter_cons']
      · rename_i hsame
        rw [List.nil_append, not_not.mp hsame, ih, List.destutter_cons']

end Reports

/-! ## The events of the GUI -/

/-- The event of a change, if it concerns the user interface. -/
def guiEvent (change : Button × Bool) : Option GuiEvent :=
  match change.1 with
  | .menu => some (.button .menu change.2)
  | .select => some (.button .select change.2)
  | _ => none

def btnButton : BtnType → Button
  | .menu => .menu
  | .select => .select

/-- The presses and releases of a button among some events. -/
def presses (type : BtnType) (events : List GuiEvent) : List Bool :=
  events.filterMap fun
    | .button t isDown => if t = type then some isDown else none
    | .touch .. => none

/-! ## What a broadcast says -/

/-- A receiver finds in the message, under the names of the buttons, the
changes and nothing else. -/
structure Tells (message : Item) (changes : Changes) : Prop where
  type_eq : cborMapGet message "type" = .ok (some (.ofString "button"))
  data : ∃ data, cborMapGet message "buttonData" = .ok (some data) ∧
    ∀ b state, cborMapGet data (kButtonNames b) = .ok (some (.ofBool state)) ↔
      (b, state) ∈ changes

theorem ascii_kButtonNames_inj {b b' : Button}
    (h : ascii (kButtonNames b) = ascii (kButtonNames b')) : b = b' := by
  revert h
  cases b <;> cases b' <;> decide

/-- A search for the name of a button finds its first change. -/
theorem findKey_changes (b : Button) (changes : Changes) :
    findKey (kButtonNames b) (changes.map fun change =>
        (Item.ofString (kButtonNames change.1), Item.ofBool change.2))
      = .ok ((statesOf b changes).head?.map Item.ofBool) := by
  induction changes with
  | nil => rfl
  | cons change changes ih =>
      rw [List.map_cons, statesOf_cons]
      by_cases hb : change.1 = b
      · rw [if_pos hb, hb]
        exact findKey_cons_key
      · rw [if_neg hb, List.nil_append, ← ih]
        exact findKey_cons_text fun hname => hb (ascii_kButtonNames_inj hname)

theorem tells_buttonMessage {changes : Changes} (hnodup : (changes.map Prod.fst).Nodup) :
    Tells (buttonMessage changes) changes where
  type_eq := rfl
  data := by
    refine ⟨_, rfl, fun b state => ?_⟩
    show findKey (kButtonNames b) _ = _ ↔ _
    rw [findKey_changes]
    constructor
    · intro h
      obtain ⟨state', hhead, hstate⟩ := Option.map_eq_some_iff.mp (Except.ok.inj h)
      have hmem := mem_statesOf.mp (List.mem_of_mem_head? hhead)
      cases state <;> cases state' <;> first | exact hmem | cases hstate
    · intro h
      rw [statesOf_of_mem hnodup h]
      rfl

theorem Reports.tells {prev now : Button → Bool} {changes : Changes}
    (h : Reports prev now (some changes)) : Tells (buttonMessage changes) changes :=
  tells_buttonMessage (h.nodup changes rfl)

/-- Every broadcast of a run says what it reports. -/
theorem ReportsAll.tells {prev : Button → Bool} {levels : List (Button → Bool)}
    {answers : List (Option Changes)} (h : ReportsAll prev levels answers) :
    ∀ changes ∈ broadcasts answers, Tells (buttonMessage changes) changes := by
  induction h with
  | nil => exact nofun
  | @cons prev now levels answer answers hfirst _ ih =>
      intro changes hmem
      rw [broadcasts_cons] at hmem
      rcases List.mem_append.mp hmem with hmem | hmem
      · rw [Option.mem_toList.mp hmem] at hfirst
        exact hfirst.tells
      · exact ih changes hmem

/-! ## What the GUI makes of a broadcast -/

/-- The library brings the message of the changes back from its encoding, and
this has a size that a header can give. -/
structure Carried (cbor : Libcbor) (changes : Changes) : Prop where
  encodes : cbor.Encodes (cbor.serialize (buttonMessage changes)) (buttonMessage changes)
  length_le : (cbor.serialize (buttonMessage changes)).length ≤ maxPayload

section Gui

variable {cbor : Libcbor} {changes : Changes} {c : PinballClient}

theorem filterMap_guiEvent_cons (change : Button × Bool) (changes : Changes) :
    (change :: changes).filterMap guiEvent
      = (guiEvent change).toList ++ changes.filterMap guiEvent := by
  rw [List.filterMap_cons]
  cases guiEvent change <;> rfl

theorem presses_append (type : BtnType) (events events' : List GuiEvent) :
    presses type (events ++ events') = presses type events ++ presses type events' :=
  List.filterMap_append

theorem presses_guiEvent (type : BtnType) (change : Button × Bool) :
    presses type (guiEvent change).toList
      = if change.1 = btnButton type then [change.2] else [] := by
  obtain ⟨b, state⟩ := change
  cases type <;> cases b <;> rfl

/-- The presses and releases among the events of a broadcast are the states
it has of the button. -/
theorem presses_filterMap_guiEvent (type : BtnType) (changes : Changes) :
    presses type (changes.filterMap guiEvent) = statesOf (btnButton type) changes := by
  induction changes with
  | nil => rfl
  | cons change changes ih =>
      rw [filterMap_guiEvent_cons, presses_append, presses_guiEvent, ih, statesOf_cons]

/-- A button without a use in the user interface is passed over. -/
theorem processButton_run (change : Button × Bool) (h : c.gui = true) :
    (PinballClient.processButton
        (Item.ofString (kButtonNames change.1), Item.ofBool change.2)).run c
      = .ok () { c with queue := c.queue ++ (guiEvent change).toList } := by
  obtain ⟨b, state⟩ := change
  have hbool : ∀ name, PinballClient.processButton (.text name, Item.ofBool state)
      = if name = ascii "menu" ∨ name = ascii "select" then
          PinballClient.emitButtonEventGui name state
        else
          pure () := by
    intro name
    cases state <;> rfl
  obtain ⟨base, gui, queue, pos⟩ := c
  subst h
  rw [show Item.ofString (kButtonNames b) = .text (ascii (kButtonNames b)) from rfl, hbool]
  by_cases hevent : guiEvent (b, state) = none
  · rw [hevent, Option.toList_none, List.append_nil]
    cases b with
    | menu => cases hevent
    | select => cases hevent
    | _ => rfl
  · cases b with
    | menu => rfl
    | select => rfl
    | _ => exact absurd rfl hevent

theorem forM_processButton_run (changes : Changes) (h : c.gui = true) :
    (forM (changes.map fun change =>
        (Item.ofString (kButtonNames change.1), Item.ofBool change.2))
      PinballClient.processButton).run c
      = .ok () { c with queue := c.queue ++ changes.filterMap guiEvent } := by
  induction changes generalizing c with
  | nil =>
      rw [List.filterMap_nil, List.append_nil]
      rfl
  | cons change changes ih =>
      rw [List.map_cons, List.forM_cons, run_bind_of_ok (processButton_run change h)]
      refine (ih (c := { c with queue := c.queue ++ (guiEvent change).toList }) h).trans ?_
      rw [filterMap_guiEvent_cons, List.append_assoc]

/-- The GUI queues the events of the broadcast, in its order. -/
theorem handleIncomingMessage_run (hdr : Header) (changes : Changes)
    (hendpoint : hdr.endpoint = kRpcEndpointUiEvent) (h : c.gui = true) :
    (PinballClient.handleIncomingMessage hdr (some (buttonMessage changes))).run c
      = .ok () { c with queue := c.queue ++ changes.filterMap guiEvent } := by
  rw [PinballClient.handleIncomingMessage, if_pos hendpoint]
  exact forM_processButton_run changes h

/-- A broadcast is received as the message that was sent. -/
theorem receive_buttonPacket (h : Carried cbor changes) :
    ∃ hdr, ClientBase.receive cbor (buttonPacket cbor changes)
        = .ok (some (hdr, some (buttonMessage changes))) ∧
      hdr.endpoint = kRpcEndpointUiEvent := by
  obtain ⟨hle, htake⟩ := claims_all_iff.mpr h.length_le
  have hpos := List.length_pos_iff.mpr h.encodes.ne_nil
  refine ⟨_, clientBase_receive_packet_iff.mpr ⟨hle, rfl, by omega, ?_⟩,
    endpoint_packet _ _ _⟩
  exact h.encodes.load_take_iff.mpr ⟨htake, rfl⟩

/-- Reading a broadcast queues its events. -/
theorem bevRead_buttonPacket (h : Carried cbor changes) (hgui : c.gui = true) :
    (PinballClient.bevRead cbor (buttonPacket cbor changes) true).run c
      = .ok () { c with
          base := { c.base with rxBuf := buttonPacket cbor changes }
          queue := c.queue ++ changes.filterMap guiEvent } := by
  obtain ⟨hdr, hreceive, hendpoint⟩ := receive_buttonPacket h
  have hbase : (ClientBase.bevRead cbor (buttonPacket cbor changes) true).run c.base
      = .ok (some (hdr, some (buttonMessage changes)))
        { c.base with rxBuf := buttonPacket cbor changes } :=
    ClientBase.bevRead_run_eq_ok_iff.mpr ⟨hreceive, rfl⟩
  have hread : (PinballClient.onBase (ClientBase.bevRead cbor (buttonPacket cbor changes)
      true)).run c = .ok (some (hdr, some (buttonMessage changes)))
        { c with base := { c.base with rxBuf := buttonPacket cbor changes } } := by
    simp only [PinballClient.onBase, EStateM.run] at hbase ⊢
    rw [hbase]
  rw [PinballClient.bevRead, run_bind_of_ok hread]
  exact handleIncomingMessage_run hdr changes hendpoint hgui

/-- The GUI reads the broadcasts, each in a call of its own. -/
theorem gui_run (sent : List Changes) (h : ∀ changes ∈ sent, Carried cbor changes)
    (hgui : c.gui = true) :
    ∃ answers t, Steps (fun packet => PinballClient.bevRead cbor packet true) c
        (sent.map (buttonPacket cbor)) answers t ∧
      t.queue = c.queue ++ sent.flatMap (·.filterMap guiEvent) := by
  induction sent generalizing c with
  | nil => exact ⟨[], c, .nil c, by rw [List.flatMap_nil, List.append_nil]⟩
  | cons changes sent ih =>
      have hread := bevRead_buttonPacket (h changes List.mem_cons_self) hgui
      obtain ⟨answers, t, hsteps, hqueue⟩ := ih
        (c := { c with
          base := { c.base with rxBuf := buttonPacket cbor changes }
          queue := c.queue ++ changes.filterMap guiEvent })
        (fun later hlater => h later (List.mem_cons_of_mem _ hlater)) hgui
      refine ⟨_, t, .cons hread hsteps, ?_⟩
      rw [hqueue, List.flatMap_cons, List.append_assoc]

end Gui

/-! ## A run from the lines to the events -/

section Run

variable {cbor : Libcbor} {s : Daemon} {prev : BitVec 32}

/-- The levels of the buttons at the calls of a run. -/
def levels (xs : List Poll) : List (Button → Bool) := xs.map fun x => pressed x.reading

theorem pressed_zero : pressed 0 = fun _ => false := by
  funext b
  exact BitVec.getLsbD_zero

/-- The client after it was sent some broadcasts, if it wants them. -/
def sentButtons (cbor : Libcbor) (client : Client) (sent : List Changes) : Client :=
  { client with
    written := client.written
      ++ if client.wantsButtonEvents then sent.map (buttonPacket cbor) else [] }

/-- Every client that wants button events is sent these, in this order, and
nothing else happens to any client. -/
def Sends (cbor : Libcbor) (s : Daemon) (sent : List Changes) (t : Daemon) : Prop :=
  ∀ fd, t.server.clients.lookup fd
    = (s.server.clients.lookup fd).map fun client => sentButtons cbor client sent

theorem sends_nil : Sends cbor s [] s := by
  intro fd
  cases s.server.clients.lookup fd with
  | none => rfl
  | some client => simp [sentButtons]

theorem Sends.append {t u : Daemon} {sent sent' : List Changes} (h : Sends cbor s sent t)
    (h' : Sends cbor t sent' u) : Sends cbor s (sent ++ sent') u := by
  intro fd
  rw [h' fd, h fd, Option.map_map]
  refine congrFun (congrArg Option.map (funext fun client => ?_)) _
  by_cases hwants : client.wantsButtonEvents = true
  · simp [sentButtons, hwants]
  · simp [sentButtons, hwants]

/-- What a call reports is what it sends. -/
theorem Polled.sends {t : Daemon} {reading : BitVec 32} {answer : Option Changes}
    (h : Polled cbor s reading answer t) : Sends cbor s answer.toList t := by
  intro fd
  rw [h.lookup_eq fd]
  cases answer with
  | none => exact sends_nil fd
  | some changes =>
      refine congrFun (congrArg Option.map (funext fun client => ?_)) _
      by_cases hwants : client.wantsButtonEvents = true
      · rw [sentButtons, if_pos hwants]
        exact if_pos hwants
      · rw [sentButtons, if_neg hwants, List.append_nil]
        exact if_neg hwants

variable (cbor prev) in
/-- Every list of readings is polled to its end, and each call reports what
changed since the one before and sends what it reports. -/
theorem daemon_run (hs : s.driver = .seen (masked prev)) (xs : List Poll) :
    ∃ ws t, Steps (updateButtonState cbor fun _ => true) s xs ws t ∧
      ReportsAll (pressed prev) (levels xs) ws ∧
      Along (updateButtonState cbor fun _ => true)
        (fun s _ answer t => Sends cbor s answer.toList t) s xs ∧
      Sends cbor s (broadcasts ws) t := by
  induction xs generalizing s prev with
  | nil => exact ⟨[], s, .nil s, .nil, trivial, sends_nil⟩
  | cons x xs ih =>
      obtain ⟨answer, u, hcall, hreports, hpolled⟩ := updateButtonState_run x hs
      obtain ⟨ws, t, hsteps, hall, halong, hsent⟩ := ih _ hpolled.driver_eq
      refine ⟨answer :: ws, t, .cons hcall hsteps, .cons hreports hall,
        ⟨answer, u, hcall, hpolled.sends, halong⟩, ?_⟩
      rw [broadcasts_cons]
      exact hpolled.sends.append hsent

end Run

/-- The presses and releases of a button are the changes of its line, which is
released at first; so a press comes first, and they alternate. -/
structure Alternates (line presses : List Bool) : Prop where
  eq_destutter : false :: presses = (false :: line).destutter (· ≠ ·)
  isChain : (false :: presses).IsChain (· ≠ ·)

/-- From a fresh driver, every list of readings is polled without an error.  A
call reports the buttons whose level changed and their new level, if there are
any, and the reports together give the levels at the last call.  A report is
sent at the call it is made in to the clients that want button events, and its
message tells it; nothing else is sent.  Where a GUI reads what such a client
was sent, it queues the presses and releases of the menu and select buttons. -/
theorem button_events_exact (cbor : Libcbor) (server : Server) (xs : List Poll) :
    ∃ ws t, Steps (updateButtonState cbor fun _ => true) ⟨.initial, server⟩ xs ws t ∧
      ReportsAll (fun _ => false) (levels xs) ws ∧
      (broadcasts ws).foldl applied (fun _ => false) = (levels xs).getLastD (fun _ => false) ∧
      Along (updateButtonState cbor fun _ => true)
        (fun s _ answer t => Sends cbor s answer.toList t) ⟨.initial, server⟩ xs ∧
      Sends cbor ⟨.initial, server⟩ (broadcasts ws) t ∧
      (∀ changes ∈ broadcasts ws, Tells (buttonMessage changes) changes) ∧
      ∀ gui : PinballClient, gui.gui = true →
        (∀ changes ∈ broadcasts ws, Carried cbor changes) →
        ∃ answers gui' events,
          Steps (fun packet => PinballClient.bevRead cbor packet true) gui
            ((broadcasts ws).map (buttonPacket cbor)) answers gui' ∧
          gui'.queue = gui.queue ++ events ∧
          ∀ type, Alternates ((levels xs).map fun now => now (btnButton type))
            (presses type events) := by
  obtain ⟨ws, t, hsteps, hreports, halong, hsent⟩ :=
    daemon_run cbor 0 (s := ⟨.initial, server⟩) rfl xs
  rw [pressed_zero] at hreports
  refine ⟨ws, t, hsteps, hreports, hreports.foldl_applied, halong, hsent, hreports.tells, ?_⟩
  intro gui hgui hcarried
  obtain ⟨answers, gui', hread, hqueue⟩ := gui_run (broadcasts ws) hcarried hgui
  refine ⟨answers, gui', _, hread, hqueue, ?_⟩
  intro type
  have hpresses : presses type ((broadcasts ws).flatMap (·.filterMap guiEvent))
      = (broadcasts ws).flatMap (statesOf (btnButton type)) := by
    rw [presses, List.filterMap_flatMap]
    exact congrArg (fun f => List.flatMap f _)
      (funext fun changes => presses_filterMap_guiEvent type changes)
  have heq := hreports.destutter_eq (btnButton type)
  rw [← hpresses] at heq
  refine ⟨heq, ?_⟩
  rw [heq]
  exact List.isChain_destutter _ _

/-- The encoding of a map from short texts to texts, truth values and maps of
these. -/
def serializeButtons : Item → List Byte
  | .map true pairs => BitVec.ofNat 8 (0xa0 + pairs.length) :: pairs.flatMap fun
      | (.text key, .text data) =>
          BitVec.ofNat 8 (0x60 + key.length) :: key ++ BitVec.ofNat 8 (0x60 + data.length) :: data
      | (.text key, .map true entries) =>
          BitVec.ofNat 8 (0x60 + key.length) :: key
            ++ BitVec.ofNat 8 (0xa0 + entries.length) :: entries.flatMap fun
              | (.text name, .ctrl value) => BitVec.ofNat 8 (0x60 + name.length) :: name
                  ++ [BitVec.ofNat 8 (0xe0 + value)]
              | _ => []
      | _ => []
  | _ => []

/-- The menu button is pressed, then released while the select button is
pressed, and pressed again. -/
def menuAndSelect : List Changes :=
  [[(.menu, true)], [(.menu, false), (.select, true)], [(.menu, true)]]

/-- A library that knows the messages of these changes. -/
def libcborMenu : Libcbor :=
  .ofTable (menuAndSelect.map fun changes =>
      (serializeButtons (buttonMessage changes), buttonMessage changes))
    serializeButtons (by decide)

theorem carried_menuAndSelect : ∀ changes ∈ menuAndSelect, Carried libcborMenu changes := by
  intro changes hmem
  simp only [menuAndSelect, List.mem_cons, List.not_mem_nil, or_false] at hmem
  rcases hmem with rfl | rfl | rfl <;>
    exact ⟨Libcbor.ofTable_encodes rfl (by decide), by decide⟩

/-- A call that reads these lines. -/
def pollLines (reading : BitVec 32) : Poll where
  reading := reading
  order := .listed [.modeCc, .modeCv, .modeCw, .modeExt, .loadOn, .menu, .select]
    (by decide) (by intro b; cases b <;> decide)

/-- In the second and the last of the calls only lines without a button have
changed. -/
def pollsMenu : List Poll :=
  [pollLines 0x40, pollLines 0x80000040, pollLines 0x04, pollLines 0x44, pollLines 0x1c4]

/-- A server with one client, which wants all events. -/
def serverMenu : Server := ⟨AList.insert 0 ⟨[], [], [], true, true, true⟩ ∅, ⟨[], [], .nearest⟩⟩

/-- A client that has received nothing so far. -/
def guiMenu : PinballClient := ⟨⟨0, [], []⟩, true, [], (0, 0)⟩

/-- Three broadcasts in five calls, and the events that are queued of them. -/
theorem button_events_exact_menu :
    ∃ ws t client answers gui events,
      Steps (updateButtonState libcborMenu fun _ => true) ⟨.initial, serverMenu⟩ pollsMenu ws t ∧
      broadcasts ws = menuAndSelect ∧ t.server.clients.lookup 0 = some client ∧
      Steps (fun packet => PinballClient.bevRead libcborMenu packet true) guiMenu client.written
        answers gui ∧
      gui.queue = events ∧ presses .menu events = [true, false, true] ∧
      presses .select events = [true] := by
  obtain ⟨ws, t, hsteps, _, _, _, hsends, _, hgui⟩ :=
    button_events_exact libcborMenu serverMenu pollsMenu
  have hcalls : ∃ t', Steps (updateButtonState libcborMenu fun _ => true) ⟨.initial, serverMenu⟩
      pollsMenu [some [(.menu, true)], none, some [(.menu, false), (.select, true)],
        some [(.menu, true)], none] t' :=
    ⟨_, .cons rfl (.cons rfl (.cons rfl (.cons rfl (.cons rfl (.nil _)))))⟩
  obtain ⟨t', hcalls⟩ := hcalls
  have hws : broadcasts ws = menuAndSelect := by
    rw [(hsteps.det hcalls).1]
    rfl
  rw [hws] at hsends hgui
  obtain ⟨answers, gui, events, hread, hqueue, hevents⟩ := hgui guiMenu rfl carried_menuAndSelect
  have hclient := (hsends 0).trans (congrArg (Option.map _) (AList.lookup_insert _))
  exact ⟨ws, t, _, answers, gui, events, hsteps, hws, hclient, hread, hqueue,
    List.cons_injective (hevents .menu).eq_destutter,
    List.cons_injective (hevents .select).eq_destutter⟩

end Buttons
