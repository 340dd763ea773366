/-
# `Buttons.Direct` — the directly connected buttons

`Direct::updateButtonState` is called every tenth of a second.  It compares
the lines that have a button with what they were at the last call, and
broadcasts the buttons whose line changed in one message.  It remembers the
lines once the broadcast is made, so a broadcast that throws is made again.

The changes are put into a hash map, and the message lists them in its order.
-/
import ProgrammableLoad.Cpp.HashOrder
import ProgrammableLoad.Rpc.Broadcast

namespace Buttons

open Cpp Cbor Program Rpc

/-! ## Buttons and messages -/

inductive Button where
  | modeCc | modeCv | modeCw | modeExt | loadOn | menu | select
deriving DecidableEq, Repr

def kButtonNames : Button → String
  | .modeCc => "modeCc"
  | .modeCv => "modeCv"
  | .modeCw => "modeCw"
  | .modeExt => "modeExt"
  | .loadOn => "loadOn"
  | .menu => "menu"
  | .select => "select"

/-- Buttons with their new state. -/
abbrev Changes := List (Button × Bool)

/-- The payload of the broadcast. -/
def buttonMessage (changes : Changes) : Item :=
  .map true [
    (.ofString "type", .ofString "button"),
    (.ofString "buttonData", .map true (changes.map fun change =>
      (Item.ofString (kButtonNames change.1), Item.ofBool change.2)))]

/-! ## The driver -/

/-- The members; a line without a bit in `buttonBits` has no button. -/
structure Direct where
  buttonBits : BitVec 32
  buttonPolarity : BitVec 32
  buttonLastState : BitVec 32
  buttonMap : List (Nat × Button)

/-- The driver as `initGpio` leaves it. -/
def Direct.initial : Direct where
  buttonBits := 0x7f
  buttonPolarity := 0x7f
  buttonLastState := 0
  buttonMap := [(0, .modeCc), (1, .loadOn), (2, .select), (3, .modeCw), (4, .modeCv),
    (5, .modeExt), (6, .menu)]

/-- The driver in pinballd, with the server its broadcasts go to. -/
structure Daemon where
  driver : Direct
  server : Server

/-- `changes.emplace(btnType, state)` -/
def emplace (changes : AList fun _ : Button => Bool) (btnType : Button) (state : Bool) :
    AList fun _ : Button => Bool :=
  if btnType ∈ changes then changes else changes.insert btnType state

/-- One turn of the loop over the lines. -/
def Direct.noteChange (d : Direct) (current : BitVec 32)
    (changes : AList fun _ : Button => Bool) (i : Nat) :
    Except Fault (AList fun _ : Button => Bool) :=
  if d.buttonBits.getLsbD i = false then
    .ok changes
  else if d.buttonLastState.getLsbD i = current.getLsbD i then
    .ok changes
  else
    match d.buttonMap.lookup i with
    | none => .error (.thrown (.outOfRange "_Map_base::at"))
    | some btnType =>
        let state := if d.buttonPolarity.getLsbD i then current.getLsbD i else !current.getLsbD i
        .ok (emplace changes btnType state)

def Direct.noteChanges (d : Direct) (current : BitVec 32) :
    AList (fun _ : Button => Bool) → List Nat → Except Fault (AList fun _ : Button => Bool)
  | changes, [] => .ok changes
  | changes, i :: lines => do
      d.noteChanges current (← d.noteChange current changes i) lines

/-- The changes in the order of their hash map. -/
def listed (order : HashOrder Button) (changes : AList fun _ : Button => Bool) : Changes :=
  (order.keys changes.keys.toFinset).filterMap fun btn =>
    (changes.lookup btn).map fun state => (btn, state)

/-- What works on the server alone. -/
def onServer (m : EStateM Fault Server Unit) : EStateM Fault Daemon Unit := fun p =>
  match m.run p.server with
  | .ok _ server => .ok () { p with server := server }
  | .error e server => .error e { p with server := server }

/-- A call of the polling timer: what it reads, and the order of its map. -/
structure Poll where
  reading : BitVec 32
  order : HashOrder Button

def sendUpdate (cbor : Libcbor) (accepts : Nat → Bool) (order : HashOrder Button)
    (changes : AList fun _ : Button => Bool) : EStateM Fault Daemon Unit :=
  if changes.keys.isEmpty then
    throw (.thrown (.runtimeError "no button updates to send!"))
  else
    onServer (broadcastRaw accepts .buttonEvent kRpcEndpointUiEvent
      (cbor.serialize (buttonMessage (listed order changes))))

/-- The answer is what was broadcast, if anything was. -/
def updateButtonState (cbor : Libcbor) (accepts : Nat → Bool) (x : Poll) :
    EStateM Fault Daemon (Option Changes) := do
  let d := (← get).driver
  let current := x.reading &&& d.buttonBits
  if current = d.buttonLastState then
    return none
  else do
    let changes ← MonadExcept.ofExcept (d.noteChanges current ∅ (List.range 32))
    sendUpdate cbor accepts x.order changes
    modify fun p => { p with driver := { p.driver with buttonLastState := current } }
    return some (listed x.order changes)

/-! ## Levels -/

/-- The line of a button. -/
def Button.line : Button → Nat
  | .modeCc => 0
  | .loadOn => 1
  | .select => 2
  | .modeCw => 3
  | .modeCv => 4
  | .modeExt => 5
  | .menu => 6

/-- What a reading says of a button. -/
def pressed (reading : BitVec 32) (b : Button) : Bool := reading.getLsbD b.line

/-- A call reports the buttons whose level is not what it was, with their new
level, and is silent if there are none. -/
structure Reports (prev now : Button → Bool) (answer : Option Changes) : Prop where
  isSome_iff : answer.isSome = true ↔ ∃ b, prev b ≠ now b
  mem_iff : ∀ l, answer = some l → ∀ b state, (b, state) ∈ l ↔ prev b ≠ now b ∧ state = now b
  nodup : ∀ l, answer = some l → (l.map Prod.fst).Nodup

/-- The answers to a list of calls, with the levels before the first one. -/
inductive ReportsAll : (Button → Bool) → List (Button → Bool) → List (Option Changes) → Prop
  | nil {prev : Button → Bool} : ReportsAll prev [] []
  | cons {prev now : Button → Bool} {levels : List (Button → Bool)} {answer : Option Changes}
      {answers : List (Option Changes)} :
      Reports prev now answer → ReportsAll now levels answers →
      ReportsAll prev (now :: levels) (answer :: answers)

/-! ## The loop over the lines -/

/-- The driver with the lines it remembers. -/
def Direct.seen (last : BitVec 32) : Direct := { Direct.initial with buttonLastState := last }

theorem lookup_emplace (changes : AList fun _ : Button => Bool) (btn b : Button) (state : Bool) :
    (emplace changes btn state).lookup b
      = if b = btn then (changes.lookup b).or (some state) else changes.lookup b := by
  by_cases hmem : btn ∈ changes
  · rw [emplace, if_pos hmem]
    split
    · rename_i hb
      obtain ⟨old, hold⟩ := Option.isSome_iff_exists.mp (AList.lookup_isSome.mpr hmem)
      rw [hb, hold]
      rfl
    · rfl
  · rw [emplace, if_neg hmem]
    split
    · rename_i hb
      rw [hb, AList.lookup_insert, AList.lookup_eq_none.mpr hmem]
      rfl
    · rename_i hb
      exact AList.lookup_insert_ne hb

/-- The mask has the bits of the seven lines. -/
theorem getLsbD_mask (i : Nat) : (0x7f : BitVec 32).getLsbD i = decide (i < 7) := by
  have hmask : (0x7f : BitVec 32) = BitVec.ofNat 32 (2 ^ 7 - 1) := rfl
  rw [hmask, BitVec.getLsbD_ofNat, Nat.testBit_two_pow_sub_one]
  by_cases h : i < 7
  · simp [h, show i < 32 by omega]
  · simp [h]

theorem Button.line_lt (b : Button) : b.line < 7 := by
  cases b <;> decide

theorem Button.lookup_line (b : Button) : Direct.initial.buttonMap.lookup b.line = some b := by
  cases b <;> rfl

theorem Button.exists_line {i : Nat} (h : i < 7) : ∃ b : Button, b.line = i := by
  have hall : ∀ i : Fin 7, ∃ b : Button, b.line = i := by
    intro i
    fin_cases i
    · exact ⟨.modeCc, rfl⟩
    · exact ⟨.loadOn, rfl⟩
    · exact ⟨.select, rfl⟩
    · exact ⟨.modeCw, rfl⟩
    · exact ⟨.modeCv, rfl⟩
    · exact ⟨.modeExt, rfl⟩
    · exact ⟨.menu, rfl⟩
  exact hall ⟨i, h⟩

theorem Button.line_injective {b b' : Button} (h : b.line = b'.line) : b = b' := by
  have hlookup := b.lookup_line
  rw [h, b'.lookup_line] at hlookup
  exact (Option.some.inj hlookup).symm

section Loop

variable (last current : BitVec 32)

/-- The new level of a button whose line changed. -/
def changeOf (b : Button) : Option Bool :=
  if pressed last b ≠ pressed current b then some (pressed current b) else none

variable {last current}

theorem noteChange_of_le {changes : AList fun _ : Button => Bool} {i : Nat} (h : 7 ≤ i) :
    (Direct.seen last).noteChange current changes i = .ok changes := by
  have hbits : (Direct.seen last).buttonBits.getLsbD i = false := by
    rw [Direct.seen, Direct.initial, getLsbD_mask]
    exact decide_eq_false (Nat.not_lt.mpr h)
  rw [Direct.noteChange, if_pos hbits]

theorem noteChange_line {changes : AList fun _ : Button => Bool} (btn : Button) :
    (Direct.seen last).noteChange current changes btn.line
      = .ok (if pressed last btn = pressed current btn then changes
        else emplace changes btn (pressed current btn)) := by
  have hbits : (Direct.seen last).buttonBits.getLsbD btn.line = true := by
    rw [Direct.seen, Direct.initial, getLsbD_mask]
    exact decide_eq_true btn.line_lt
  have hpolarity : (Direct.seen last).buttonPolarity.getLsbD btn.line = true := hbits
  have hlookup : (Direct.seen last).buttonMap.lookup btn.line = some btn := btn.lookup_line
  rw [Direct.noteChange, hbits, if_neg Bool.false_ne_true.symm, hlookup, hpolarity]
  by_cases hsame : pressed last btn = pressed current btn
  · rw [if_pos hsame]
    exact if_pos hsame
  · rw [if_neg hsame]
    exact if_neg hsame

variable (last current) in
/-- One turn adds the change of the button on its line. -/
theorem noteChange_seen (changes : AList fun _ : Button => Bool) (i : Nat) :
    ∃ changes', (Direct.seen last).noteChange current changes i = .ok changes' ∧
      ∀ b, changes'.lookup b
        = (changes.lookup b).or (if b.line = i then changeOf last current b else none) := by
  by_cases hi : i < 7
  · obtain ⟨btn, rfl⟩ := Button.exists_line hi
    refine ⟨_, noteChange_line btn, ?_⟩
    intro b
    by_cases hb : b = btn
    · subst hb
      rw [if_pos rfl, changeOf]
      by_cases hsame : pressed last b = pressed current b
      · rw [if_pos hsame, if_neg (not_not.mpr hsame), Option.or_none]
      · rw [if_neg hsame, if_pos hsame, lookup_emplace, if_pos rfl]
    · rw [if_neg fun hline => hb (Button.line_injective hline), Option.or_none]
      split
      · rfl
      · rw [lookup_emplace, if_neg hb]
  · refine ⟨changes, noteChange_of_le (Nat.not_lt.mp hi), ?_⟩
    intro b
    have hline : b.line ≠ i := by
      have hlt := b.line_lt
      omega
    rw [if_neg hline, Option.or_none]

variable (last current) in
/-- The loop adds the changes of the buttons on its lines. -/
theorem noteChanges_seen (changes : AList fun _ : Button => Bool) (lines : List Nat) :
    ∃ changes', (Direct.seen last).noteChanges current changes lines = .ok changes' ∧
      ∀ b, changes'.lookup b
        = (changes.lookup b).or (if b.line ∈ lines then changeOf last current b else none) := by
  induction lines generalizing changes with
  | nil => exact ⟨changes, rfl, fun b => by simp⟩
  | cons i lines ih =>
      obtain ⟨next, hfirst, hnext⟩ := noteChange_seen last current changes i
      obtain ⟨changes', hrest, hchanges'⟩ := ih next
      refine ⟨changes', ?_, ?_⟩
      · rw [Direct.noteChanges, hfirst]
        exact hrest
      · intro b
        rw [hchanges', hnext]
        by_cases hb : b.line = i
        · rw [if_pos hb, if_pos (List.mem_cons.mpr (.inl hb)), Option.or_assoc]
          split
          · rw [Option.or_self]
          · rw [Option.or_none]
        · simp [hb]

end Loop

/-! ## One call -/

section Call

variable {cbor : Libcbor} {changes : AList fun _ : Button => Bool} {order : HashOrder Button}
  {prev reading : BitVec 32}

theorem mem_listed {b : Button} {state : Bool} :
    (b, state) ∈ listed order changes ↔ changes.lookup b = some state := by
  rw [listed, List.mem_filterMap]
  constructor
  · rintro ⟨btn, _, hbtn⟩
    obtain ⟨state', hstate', heq⟩ := Option.map_eq_some_iff.mp hbtn
    cases heq
    exact hstate'
  · intro h
    refine ⟨b, ?_, by rw [h]; rfl⟩
    rw [order.mem_keys, List.mem_toFinset]
    exact AList.lookup_isSome.mp (by rw [h]; rfl)

theorem nodup_listed : ((listed order changes).map Prod.fst).Nodup := by
  have hfst : ∀ btns : List Button, (btns.filterMap fun btn =>
      (changes.lookup btn).map fun state => (btn, state)).map Prod.fst
        = btns.filter fun btn => (changes.lookup btn).isSome := by
    intro btns
    induction btns with
    | nil => rfl
    | cons btn btns ih =>
        cases hbtn : changes.lookup btn with
        | none => simp [hbtn, ih]
        | some state => simp [hbtn, ih]
  rw [listed, hfst]
  exact (order.nodup_keys _).filter _

/-- The lines that the driver remembers of a reading. -/
def masked (reading : BitVec 32) : BitVec 32 := reading &&& 0x7f

theorem pressed_masked (b : Button) : pressed (masked reading) b = pressed reading b := by
  rw [pressed, masked, BitVec.getLsbD_and, getLsbD_mask, decide_eq_true b.line_lt, Bool.and_true]
  rfl

/-- The driver tells two readings apart by the levels of the buttons. -/
theorem masked_eq_iff : masked reading = masked prev ↔ ∀ b, pressed prev b = pressed reading b := by
  constructor
  · intro h b
    rw [← pressed_masked, ← h, pressed_masked]
  · intro h
    refine BitVec.eq_of_getLsbD_eq ?_
    intro i _
    rw [masked, masked, BitVec.getLsbD_and, BitVec.getLsbD_and, getLsbD_mask]
    by_cases hi : i < 7
    · obtain ⟨b, rfl⟩ := Button.exists_line hi
      rw [show reading.getLsbD b.line = prev.getLsbD b.line from (h b).symm]
    · rw [decide_eq_false hi, Bool.and_false, Bool.and_false]

/-- The broadcast of the changes of a call. -/
def buttonPacket (cbor : Libcbor) (changes : Changes) : List Byte :=
  packet kRpcEndpointUiEvent 0 (cbor.serialize (buttonMessage changes))

/-- What a call leaves behind: the driver has seen the reading, and every
client was offered the broadcast, if there was one. -/
structure Polled (cbor : Libcbor) (s : Daemon) (reading : BitVec 32) (answer : Option Changes)
    (t : Daemon) : Prop where
  driver_eq : t.driver = .seen (masked reading)
  lookup_eq : ∀ fd, t.server.clients.lookup fd = match answer with
    | none => s.server.clients.lookup fd
    | some changes => (s.server.clients.lookup fd).map fun client =>
        client.offered .buttonEvent (buttonPacket cbor changes)

variable (cbor order) in
/-- A broadcast whose writes all succeed is offered to every client. -/
theorem sendUpdate_run (s : Daemon) (hchanges : changes.keys ≠ []) :
    ∃ server, (sendUpdate cbor (fun _ => true) order changes).run s
        = .ok () { s with server := server } ∧
      ∀ fd, server.clients.lookup fd = (s.server.clients.lookup fd).map fun client =>
        client.offered .buttonEvent (buttonPacket cbor (listed order changes)) := by
  have haccepts : ∀ fd : Nat, (fun _ => true) fd = true := fun _ => rfl
  obtain ⟨server, hserver⟩ := broadcastPacket_returns haccepts .buttonEvent
    (buttonPacket cbor (listed order changes)) s.server
  refine ⟨server, ?_, broadcastPacket_run_eq_ok hserver⟩
  have hempty : changes.keys.isEmpty = false := by
    rw [List.isEmpty_eq_false_iff]
    exact hchanges
  rw [sendUpdate, hempty, if_neg Bool.false_ne_true]
  simp only [onServer, broadcastRaw, EStateM.run] at hserver ⊢
  rw [show packet kRpcEndpointUiEvent 0 _ = buttonPacket cbor (listed order changes) from rfl,
    hserver]

theorem changeOf_masked (b : Button) :
    changeOf (masked prev) (masked reading) b
      = if pressed prev b ≠ pressed reading b then some (pressed reading b) else none := by
  rw [changeOf, pressed_masked, pressed_masked]

theorem reports_none (h : masked reading = masked prev) :
    Reports (pressed prev) (pressed reading) none where
  isSome_iff := by
    refine iff_of_false Bool.false_ne_true ?_
    rintro ⟨b, hb⟩
    exact hb (masked_eq_iff.mp h b)
  mem_iff := nofun
  nodup := nofun

theorem reports_listed (hne : ∃ b, pressed prev b ≠ pressed reading b)
    (h : ∀ b, changes.lookup b = changeOf (masked prev) (masked reading) b) :
    Reports (pressed prev) (pressed reading) (some (listed order changes)) where
  isSome_iff := iff_of_true rfl hne
  mem_iff := by
    rintro l hl b state
    cases hl
    rw [mem_listed, h, changeOf_masked]
    constructor
    · intro hstate
      split at hstate
      · rename_i hb
        exact ⟨hb, (Option.some.inj hstate).symm⟩
      · cases hstate
    · rintro ⟨hb, rfl⟩
      rw [if_pos hb]
  nodup := by
    intro l hl
    cases hl
    exact nodup_listed

/-- What a call compares. -/
theorem updateButtonState_run_eq {s : Daemon} (x : Poll) (hs : s.driver = .seen (masked prev)) :
    (updateButtonState cbor (fun _ => true) x).run s
      = if masked x.reading = masked prev then
          .ok none s
        else
          (do
            let changes ← MonadExcept.ofExcept
              ((Direct.seen (masked prev)).noteChanges (masked x.reading) ∅ (List.range 32))
            sendUpdate cbor (fun _ => true) x.order changes
            modify fun p => { p with
              driver := { p.driver with buttonLastState := masked x.reading } }
            return some (listed x.order changes) : EStateM Fault Daemon _).run s := by
  obtain ⟨driver, server⟩ := s
  subst hs
  rw [updateButtonState, run_get_bind, run_ite]
  rfl

/-- The changes that the loop over the lines finds. -/
theorem noteChanges_masked (prev reading : BitVec 32) :
    ∃ changes, (Direct.seen (masked prev)).noteChanges (masked reading) ∅ (List.range 32)
        = .ok changes ∧
      ∀ b, changes.lookup b = changeOf (masked prev) (masked reading) b := by
  obtain ⟨changes, hnote, hlookup⟩ := noteChanges_seen (masked prev) (masked reading) ∅
    (List.range 32)
  refine ⟨changes, hnote, ?_⟩
  intro b
  have hline := b.line_lt
  rw [hlookup, if_pos (List.mem_range.mpr (by omega)), AList.lookup_empty]
  rfl

/-- A call reports what changed since the reading before, and no error comes
out of it. -/
theorem updateButtonState_run {s : Daemon} (x : Poll) (hs : s.driver = .seen (masked prev)) :
    ∃ answer t, (updateButtonState cbor (fun _ => true) x).run s = .ok answer t ∧
      Reports (pressed prev) (pressed x.reading) answer ∧ Polled cbor s x.reading answer t := by
  rw [updateButtonState_run_eq x hs]
  by_cases hsame : masked x.reading = masked prev
  · rw [if_pos hsame]
    refine ⟨none, s, rfl, reports_none hsame, ?_, fun _ => rfl⟩
    rw [hs, hsame]
  · have hne : ∃ b, pressed prev b ≠ pressed x.reading b := by
      by_contra hall
      rw [not_exists] at hall
      exact hsame (masked_eq_iff.mpr fun b => not_not.mp (hall b))
    obtain ⟨changes, hnote, hchange⟩ := noteChanges_masked prev x.reading
    have hkeys : changes.keys ≠ [] := by
      obtain ⟨b, hb⟩ := hne
      have hmem : b ∈ changes.keys := AList.lookup_isSome.mp (by
        rw [hchange, changeOf_masked, if_pos hb]
        rfl)
      exact List.ne_nil_of_mem hmem
    obtain ⟨server, hsend, hserver⟩ := sendUpdate_run cbor x.order s hkeys
    rw [if_neg hsame, hnote]
    refine ⟨some (listed x.order changes),
      ⟨{ s.driver with buttonLastState := masked x.reading }, server⟩, run_bind_of_ok hsend,
      reports_listed hne hchange, ?_, hserver⟩
    rw [hs]
    rfl

end Call

end Buttons
