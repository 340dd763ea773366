/-
# `Touch.Stream` — from the broadcasts of the touches to the events of the GUI

Every message says of touch 0 that it is at a position or that there is none,
and the GUI makes an event of either: a press at the position, or a release at
the one it last had.  So it queues as many events as it gets messages, a
release of nothing included.  The coordinates have sixteen bits, and they are
signed in the event and not in the message.

`wellFormed` is the stream of presses and releases a user interface expects;
the events are that stream if and only if no message without a touch comes
first or follows another, and all positions are below 2¹⁵.
-/
import Mathlib.Data.List.Chain
import ProgrammableLoad.Rpc.UiEvents
import ProgrammableLoad.Theory.Runs
import ProgrammableLoad.Touch.Ft6336

namespace Touch

open Cpp Cbor Cbor.Util Program Rpc

/-- A broadcast of the driver, as the client receives it. -/
structure TouchBroadcast where
  header : Header
  touch0 : Option TouchPosition
  touch1 : Option TouchPosition
  endpoint_eq : header.endpoint = kRpcEndpointUiEvent

/-- The client handles a broadcast. -/
def deliver (m : TouchBroadcast) : EStateM Fault PinballClient Unit :=
  PinballClient.handleIncomingMessage m.header (some (Ft6336.touchMessage m.touch0 m.touch1))

/-! ## The stream that is expected -/

/-- A press or a release, at a point of the screen. -/
structure TouchEvent where
  x : ℤ
  y : ℤ
  isDown : Bool
deriving DecidableEq

/-- The event at the position a message gives. -/
def TouchEvent.at (pos : TouchPosition) (isDown : Bool) : TouchEvent :=
  ⟨pos.1.toNat, pos.2.toNat, isDown⟩

/-- What the screen makes of an entry of its queue, whose coordinates are
`int16_t`. -/
def seen : GuiEvent → Option TouchEvent
  | .touch x y isDown => some ⟨x.toInt, y.toInt, isDown⟩
  | .button .. => none

/-- The presses and releases for the positions of touch 0, the one before
them being `prev`. -/
def wellFormed (prev : Option TouchPosition) : List (Option TouchPosition) → List TouchEvent
  | [] => []
  | some pos :: touches => .at pos true :: wellFormed (some pos) touches
  | none :: touches =>
      (prev.map fun pos => TouchEvent.at pos false).toList ++ wellFormed none touches

/-- The messages are handled, and what they queue is the stream of presses and
releases. -/
def Streams (c : PinballClient) (msgs : List TouchBroadcast) : Prop :=
  ∃ answers t events, Steps deliver c msgs answers t ∧ t.queue = c.queue ++ events ∧
    events.map seen = (wellFormed none (msgs.map (·.touch0))).map some

/-! ## The condition -/

/-- The coordinates are the same read as signed numbers. -/
def Fits (pos : TouchPosition) : Prop := pos.1.toNat < 2 ^ 15 ∧ pos.2.toNat < 2 ^ 15

/-- Neighbours of which one at least is a touch. -/
def Alternates (prev now : Option TouchPosition) : Prop := prev = none → now ≠ none

/-- All positions fit, and a touch comes before each message without one. -/
structure Streamable (prev : Option TouchPosition) (touches : List (Option TouchPosition)) :
    Prop where
  fits : ∀ pos, some pos ∈ touches → Fits pos
  alternates : List.IsChain Alternates (prev :: touches)

/-! ## What is queued -/

/-- The event of one message. -/
def queued (last : TouchPosition) : Option TouchPosition → GuiEvent
  | some pos => .touch pos.1 pos.2 true
  | none => .touch last.1 last.2 false

/-- The events of all messages, `last` being the position of the last press. -/
def queuedAll (last : TouchPosition) : List (Option TouchPosition) → List GuiEvent
  | [] => []
  | touch :: touches => queued last touch :: queuedAll (touch.getD last) touches

/-- The client after a message. -/
def delivered (c : PinballClient) (touch : Option TouchPosition) : PinballClient :=
  { c with
    lastTouchPos := touch.getD c.lastTouchPos
    queue := if c.gui then c.queue ++ [queued c.lastTouchPos touch] else c.queue }

section Client

variable {c : PinballClient}

/-- The entry of touch 1 has no event, whatever it says. -/
theorem processTouch_one (touch1 : Option TouchPosition) :
    (PinballClient.processTouch (.uint .int8 1, Ft6336.touchValue touch1)).run c = .ok () c := by
  cases touch1 <;> rfl

theorem touchPosition_encodeTouchState (pos : TouchPosition) :
    PinballClient.touchPosition (Ft6336.encodeTouchState pos) = .ok pos := by
  show Except.ok (BitVec.ofNat 16 pos.1.toNat, BitVec.ofNat 16 pos.2.toNat) = Except.ok pos
  rw [BitVec.ofNat_toNat, BitVec.ofNat_toNat, BitVec.setWidth_eq, BitVec.setWidth_eq]

theorem processTouch_zero (touch0 : Option TouchPosition) :
    (PinballClient.processTouch (.uint .int8 0, Ft6336.touchValue touch0)).run c
      = .ok () (delivered c touch0) := by
  obtain ⟨base, gui, queue, last⟩ := c
  cases touch0 with
  | none => cases gui <;> rfl
  | some pos =>
      have hrun : PinballClient.processTouch (.uint .int8 0, Ft6336.encodeTouchState pos)
          = (do
            let received ← MonadExcept.ofExcept
              (PinballClient.touchPosition (Ft6336.encodeTouchState pos))
            PinballClient.emitTouchDown received.1 received.2) := rfl
      rw [Ft6336.touchValue, hrun, touchPosition_encodeTouchState]
      cases gui <;> rfl

theorem deliver_run (m : TouchBroadcast) :
    (deliver m).run c = .ok () (delivered c m.touch0) := by
  rw [deliver, PinballClient.handleIncomingMessage, if_pos m.endpoint_eq]
  show (forM [(Item.uint .int8 0, Ft6336.touchValue m.touch0),
    (Item.uint .int8 1, Ft6336.touchValue m.touch1)] PinballClient.processTouch).run c = _
  rw [List.forM_cons, run_bind_of_ok (processTouch_zero m.touch0), List.forM_cons,
    run_bind_of_ok (processTouch_one m.touch1)]
  rfl

/-- Every message is handled and queues one event, if the GUI is there. -/
theorem deliver_steps (msgs : List TouchBroadcast) :
    ∃ answers t, Steps deliver c msgs answers t ∧
      t.queue = c.queue ++
        if c.gui then queuedAll c.lastTouchPos (msgs.map (·.touch0)) else [] := by
  induction msgs generalizing c with
  | nil => exact ⟨[], c, .nil c, by cases c.gui <;> exact (List.append_nil _).symm⟩
  | cons m msgs ih =>
      obtain ⟨answers, t, hsteps, hqueue⟩ := ih (c := delivered c m.touch0)
      refine ⟨_, t, .cons (deliver_run m) hsteps, ?_⟩
      rw [hqueue]
      cases hgui : c.gui with
      | true => simp [delivered, hgui, queuedAll]
      | false => simp [delivered, hgui]

theorem streams_iff_events {msgs : List TouchBroadcast} :
    Streams c msgs ↔
      (if c.gui then queuedAll c.lastTouchPos (msgs.map (·.touch0)) else []).map seen
        = (wellFormed none (msgs.map (·.touch0))).map some := by
  obtain ⟨answers, t, hsteps, hqueue⟩ := deliver_steps (c := c) msgs
  constructor
  · rintro ⟨answers', t', events, hsteps', hqueue', hevents⟩
    obtain ⟨_, rfl⟩ := hsteps.det hsteps'
    rw [hqueue] at hqueue'
    rw [List.append_cancel_left hqueue']
    exact hevents
  · intro hevents
    exact ⟨answers, t, _, hsteps, hqueue, hevents⟩

end Client

/-! ## The two streams -/

section Compare

variable {prev : Option TouchPosition} {last pos : TouchPosition}
  {touches : List (Option TouchPosition)}

theorem toInt_eq_toNat_iff {x : BitVec 16} : x.toInt = x.toNat ↔ x.toNat < 2 ^ 15 := by
  rw [BitVec.toInt_eq_toNat_cond]
  split <;> omega

theorem seen_touch_iff {isDown : Bool} :
    seen (.touch pos.1 pos.2 isDown) = some (.at pos isDown) ↔ Fits pos := by
  simp only [seen, TouchEvent.at, Option.some.injEq, TouchEvent.mk.injEq, and_true,
    toInt_eq_toNat_iff, Fits]

/-- A message makes at most one of the events that are expected. -/
theorem length_wellFormed_le : (wellFormed prev touches).length ≤ touches.length := by
  induction touches generalizing prev with
  | nil => exact Nat.le_refl 0
  | cons touch touches ih =>
      cases touch with
      | some pos => exact Nat.succ_le_succ ih
      | none =>
          cases prev with
          | none => exact Nat.le_succ_of_le ih
          | some pos => exact Nat.succ_le_succ ih

theorem length_queuedAll : (queuedAll last touches).length = touches.length := by
  induction touches generalizing last with
  | nil => rfl
  | cons touch touches ih => exact congrArg Nat.succ ih

theorem streamable_cons_some :
    Streamable prev (some pos :: touches) ↔ Fits pos ∧ Streamable (some pos) touches := by
  constructor
  · rintro ⟨hfits, hchain⟩
    refine ⟨hfits pos List.mem_cons_self, ?_, (List.isChain_cons_cons.mp hchain).2⟩
    intro pos' hpos'
    exact hfits pos' (List.mem_cons_of_mem _ hpos')
  · rintro ⟨hpos, hfits, hchain⟩
    constructor
    · intro pos' hpos'
      rcases List.mem_cons.mp hpos' with heq | hpos'
      · cases heq
        exact hpos
      · exact hfits pos' hpos'
    · refine List.isChain_cons_cons.mpr ⟨?_, hchain⟩
      intro _
      nofun

theorem streamable_cons_none :
    Streamable prev (none :: touches) ↔ prev ≠ none ∧ Streamable none touches := by
  constructor
  · rintro ⟨hfits, hchain⟩
    obtain ⟨hhead, hchain⟩ := List.isChain_cons_cons.mp hchain
    refine ⟨fun hprev => hhead hprev rfl, ?_, hchain⟩
    intro pos' hpos'
    exact hfits pos' (List.mem_cons_of_mem _ hpos')
  · rintro ⟨hprev, hfits, hchain⟩
    constructor
    · intro pos' hpos'
      rcases List.mem_cons.mp hpos' with heq | hpos'
      · cases heq
      · exact hfits pos' hpos'
    · exact List.isChain_cons_cons.mpr ⟨fun h => absurd h hprev, hchain⟩

/-- The events are the stream that is expected, given that the last press is
the touch before, if there was one. -/
theorem queuedAll_eq_iff (hprev : ∀ pos, prev = some pos → pos = last ∧ Fits pos) :
    (queuedAll last touches).map seen = (wellFormed prev touches).map some ↔
      Streamable prev touches := by
  induction touches generalizing prev last with
  | nil => exact iff_of_true rfl ⟨nofun, .singleton prev⟩
  | cons touch touches ih =>
      cases touch with
      | some pos =>
          rw [streamable_cons_some, queuedAll, wellFormed, List.map_cons, List.map_cons,
            List.cons.injEq, queued, seen_touch_iff]
          refine and_congr_right fun hfits => ih ?_
          rintro pos' ⟨⟩
          exact ⟨rfl, hfits⟩
      | none =>
          rw [streamable_cons_none]
          cases prev with
          | none =>
              refine iff_of_false ?_ fun h => h.1 rfl
              intro heq
              have hlen := congrArg List.length heq
              have hskip : wellFormed none (none :: touches) = wellFormed none touches := rfl
              have hle : (wellFormed none touches).length ≤ touches.length :=
                length_wellFormed_le
              rw [List.length_map, List.length_map, length_queuedAll, List.length_cons,
                hskip] at hlen
              omega
          | some pos =>
              obtain ⟨rfl, hfits⟩ := hprev pos rfl
              have hhead : seen (queued pos none) = some (.at pos false) := seen_touch_iff.mpr hfits
              have htail : (queuedAll pos touches).map seen = (wellFormed none touches).map some ↔
                  Streamable none touches := ih (by nofun)
              rw [← htail]
              show seen (queued pos none) :: _ = some (.at pos false) :: _ ↔ _
              rw [hhead]
              simp

/-- With the GUI gone nothing is queued, which is right of a stream without
touches. -/
theorem wellFormed_eq_nil_iff :
    wellFormed none touches = [] ↔ ∀ touch ∈ touches, touch = none := by
  induction touches with
  | nil => exact iff_of_true rfl nofun
  | cons touch touches ih =>
      rw [List.forall_mem_cons, ← ih]
      cases touch with
      | none =>
          show wellFormed none touches = [] ↔ _
          simp
      | some pos =>
          refine iff_of_false nofun ?_
          rintro ⟨h, _⟩
          cases h

end Compare

/-- The GUI sees a stream of presses and releases if and only if all positions
fit and a touch comes before each message without one; or, where it has gone
away, there is no touch at all. -/
theorem touch_stream_iff (c : PinballClient) (msgs : List TouchBroadcast) :
    Streams c msgs ↔
      if c.gui then Streamable none (msgs.map (·.touch0)) else ∀ m ∈ msgs, m.touch0 = none := by
  rw [streams_iff_events]
  cases c.gui with
  | true => exact queuedAll_eq_iff nofun
  | false =>
      show [] = (wellFormed none (msgs.map (·.touch0))).map some ↔ ∀ m ∈ msgs, m.touch0 = none
      rw [eq_comm, List.map_eq_nil_iff, wellFormed_eq_nil_iff]
      exact List.forall_mem_map

/-- A client whose GUI is there. -/
def screenClient : PinballClient := ⟨⟨0, [], []⟩, true, [], (0, 0)⟩

/-- A second finger alone. -/
def secondFingerAt (pos : TouchPosition) : TouchBroadcast where
  header := ⟨kRpcVersionLatest, 0, kRpcEndpointUiEvent, 0, 0, 0⟩
  touch0 := none
  touch1 := some pos
  endpoint_eq := rfl

/-- A second finger that moves: a release for each message, and no press. -/
theorem secondFinger_not_stream :
    ¬ Streams screenClient [secondFingerAt (10, 20), secondFingerAt (11, 20)] := by
  rw [streams_iff_events]
  intro h
  cases h

end Touch
