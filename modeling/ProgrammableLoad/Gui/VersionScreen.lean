/-
# `Gui.VersionScreen` — the indicator test, from the GUI's timer to the LEDs

When the version screen appears it starts a timer and sends the first stage of
the test, and every time the timer fires the next one.  With the last stage it
gives way to the home screen and stops the timer.  When the GUI quits, be it in
the middle of the test, it sends a list that switches every indicator off.

A stage only names the indicators it changes, so what the front panel shows is
left over from several of them.  `testsLeds` follows the packets to pinballd and its
LED controllers.

The library that shows the screens is not part of the program.  What it does
with a screen that gives way to another is a parameter, `setRootViewController`.
-/
import ProgrammableLoad.Rpc.BatchSequence

namespace Gui

open Cpp Cbor Led Program LastWriter Rpc

/-! ## The stages -/

/-- `Color{r, g, b}`, with components that are numbers in single precision. -/
def rgb (r g b : ℚ) : IndicatorValue := .color (.num r, .num g, .num b)

/-- `.2`, as `cbor_build_float4` takes it. -/
def fifth : ℚ := 13421773 / 2 ^ 26

def stage0 : List IndicatorChange :=
  [(.trigger, .bool false), (.overheat, .bool false), (.overcurrent, .bool false),
    (.error, .bool false), (.btnModeCc, .bool true), (.btnModeCv, .bool true),
    (.btnModeCw, .bool true), (.btnModeExt, .bool true), (.btnLoadOn, rgb 1 0 0),
    (.btnMenu, .bool true), (.status, rgb 1 0 0)]

def stage1 : List IndicatorChange :=
  [(.btnModeCc, .bool false), (.btnModeCv, .bool false), (.btnModeCw, .bool false),
    (.btnModeExt, .bool false), (.btnLoadOn, rgb 0 1 0), (.btnMenu, .bool false),
    (.status, rgb 0 1 0), (.trigger, rgb 1 0 0), (.overheat, .bool true),
    (.overcurrent, .bool true), (.error, .bool true)]

def stage2 : List IndicatorChange :=
  [(.btnLoadOn, .bool false), (.status, rgb 0 0 1), (.trigger, rgb 0 1 0),
    (.overheat, .bool false), (.overcurrent, .bool false), (.error, .bool false)]

def stage3 : List IndicatorChange := [(.status, .bool false), (.trigger, .bool false)]

def stage4 : List IndicatorChange := [(.status, rgb fifth fifth fifth)]

def gIndicatorStates : List (List IndicatorChange) := [stage0, stage1, stage2, stage3, stage4]

/-- `gChanges` of `DisableIndicators` -/
def gChanges : List IndicatorChange :=
  [(.btnModeCc, .bool false), (.btnModeCv, .bool false), (.btnModeCw, .bool false),
    (.btnModeExt, .bool false), (.btnLoadOn, .bool false), (.btnMenu, .bool false),
    (.trigger, .bool false), (.overheat, .bool false), (.overcurrent, .bool false),
    (.error, .bool false), (.status, .bool false)]

/-! ## The screen -/

/-- The version screen.  `presentsHome` says that the home screen took its
place, and `rpc` is the client of pinballd it shares with the program. -/
structure VersionScreen where
  timerEvent : Bool
  timerCount : Nat
  presentsHome : Bool
  rpc : ClientBase

namespace VersionScreen

/-- What works on the client of pinballd. -/
def onRpc {α : Type} (m : EStateM Fault ClientBase α) : EStateM Fault VersionScreen α := fun s =>
  match m.run s.rpc with
  | .ok a rpc => .ok a { s with rpc := rpc }
  | .error e rpc => .error e { s with rpc := rpc }

def removeTimer : EStateM Fault VersionScreen Unit :=
  modify fun s => { s with timerEvent := false }

def initTimer (allocates : Bool) : EStateM Fault VersionScreen Unit := do
  if allocates then
    modify fun s => { s with timerEvent := true, timerCount := 0 }
  else
    throw (.thrown (.runtimeError "failed to allocate timer event"))

/-- Whether this is the last step of the test. -/
def runLedTest (cbor : Libcbor) (accepts : List Byte → Bool) (step : Nat) :
    EStateM Fault VersionScreen Bool := do
  match gIndicatorStates[step]? with
  | none => throw (.thrown (.outOfRange "array::at"))
  | some changes => do
      onRpc (setIndicatorState cbor accepts changes)
      return step = gIndicatorStates.length - 1

def viewWillDisappear : EStateM Fault VersionScreen Unit := removeTimer

/-- What is relied on of the library: the home screen takes the place of this
one, whose `viewWillDisappear` it calls then or not. -/
def Presents (setRootViewController : EStateM Fault VersionScreen Unit) : Prop :=
  ∀ s, setRootViewController.run s = .ok () { s with presentsHome := true } ∨
    setRootViewController.run s = viewWillDisappear.run { s with presentsHome := true }

def timerCallback (setRootViewController : EStateM Fault VersionScreen Unit) (cbor : Libcbor)
    (accepts : List Byte → Bool) : EStateM Fault VersionScreen Unit := do
  modify fun s => { s with timerCount := s.timerCount + 1 }
  let done ← runLedTest cbor accepts (← get).timerCount
  if done then do
    setRootViewController
    removeTimer
  else
    pure ()

def viewWillAppear (cbor : Libcbor) (accepts : List Byte → Bool) (allocates : Bool) :
    EStateM Fault VersionScreen Unit := do
  initTimer allocates
  let _ ← runLedTest cbor accepts 0

/-- Half a second passes: the timer fires if it is there. -/
def tick (setRootViewController : EStateM Fault VersionScreen Unit) (cbor : Libcbor)
    (accepts : List Byte → Bool) : EStateM Fault VersionScreen Unit := do
  if (← get).timerEvent then timerCallback setRootViewController cbor accepts else pure ()

/-- `DisableIndicators`, when the main loop has ended. -/
def disableIndicators (cbor : Libcbor) (accepts : List Byte → Bool) :
    EStateM Fault VersionScreen Unit := onRpc (setIndicatorState cbor accepts gChanges)

/-- The screen appears, and then some ticks pass. -/
def appearAndRun (setRootViewController : EStateM Fault VersionScreen Unit) (cbor : Libcbor)
    (accepts : List Byte → Bool) (ticks : Nat) : EStateM Fault VersionScreen Unit := do
  viewWillAppear cbor accepts true
  forM (List.replicate ticks ()) fun _ => tick setRootViewController cbor accepts

/-- As it is constructed, with a client that has sent nothing. -/
def constructed (nextTag : Byte) : VersionScreen := ⟨false, 0, false, ⟨nextTag, [], []⟩⟩

end VersionScreen

/-! ## The packets -/

def batch0 : Batch := ⟨stage0, by decide, by decide, by decide⟩
def batch1 : Batch := ⟨stage1, by decide, by decide, by decide⟩
def batch2 : Batch := ⟨stage2, by decide, by decide, by decide⟩
def batch3 : Batch := ⟨stage3, by decide, by decide, by decide⟩
def batch4 : Batch := ⟨stage4, by decide, by decide, by decide⟩

/-- The stages as batches. -/
def ledTest : List Batch := [batch0, batch1, batch2, batch3, batch4]

def disabling : Batch := ⟨gChanges, by decide, by decide, by decide⟩

theorem map_changes_ledTest : ledTest.map Batch.changes = gIndicatorStates := rfl

/-! ## The timer -/

namespace VersionScreen

variable {setRootViewController : EStateM Fault VersionScreen Unit} {cbor : Libcbor}
  {nextTag : Byte} {s : VersionScreen} {batch : Batch} {k n : Nat}

/-- The client after it sent a batch. -/
def sending (cbor : Libcbor) (batch : Batch) (c : ClientBase) : ClientBase :=
  { c with
    nextTag := tagAfter c.nextTag [batch]
    written := c.written ++ batchPackets cbor c.nextTag [batch] }

theorem onRpc_run (batch : Batch) (s : VersionScreen) :
    (onRpc (setIndicatorState cbor (fun _ => true) batch.changes)).run s
      = .ok () { s with rpc := sending cbor batch s.rpc } := by
  have hrun := setIndicatorState_run cbor batch s.rpc
  simp only [onRpc, EStateM.run] at hrun ⊢
  rw [hrun]
  rfl

variable (cbor) in
theorem runLedTest_run (h : ledTest[k]? = some batch) (s : VersionScreen) :
    (runLedTest cbor (fun _ => true) k).run s
      = .ok (decide (k = 4)) { s with rpc := sending cbor batch s.rpc } := by
  have hstage : gIndicatorStates[k]? = some batch.changes := by
    rw [← map_changes_ledTest, List.getElem?_map, h]
    rfl
  rw [runLedTest, hstage]
  exact run_bind_of_ok (onRpc_run batch s)

/-- The screen after some ticks. -/
def after (cbor : Libcbor) (nextTag : Byte) (n : Nat) : VersionScreen where
  timerEvent := decide (n < 4)
  timerCount := min n 4
  presentsHome := decide (4 ≤ n)
  rpc := ⟨tagAfter nextTag (ledTest.take (min n 4 + 1)), [],
    batchPackets cbor nextTag (ledTest.take (min n 4 + 1))⟩

/-- The client that has sent the stages before this one sends it. -/
theorem sending_stage (h : ledTest[k]? = some batch) :
    sending cbor batch ⟨tagAfter nextTag (ledTest.take k), [],
        batchPackets cbor nextTag (ledTest.take k)⟩
      = ⟨tagAfter nextTag (ledTest.take (k + 1)), [],
        batchPackets cbor nextTag (ledTest.take (k + 1))⟩ := by
  have htake : ledTest.take (k + 1) = ledTest.take k ++ [batch] := by
    rw [List.take_add_one, h]
    rfl
  rw [htake, tagAfter_append, batchPackets_append]
  rfl

theorem viewWillAppear_run (nextTag : Byte) :
    (viewWillAppear cbor (fun _ => true) true).run (constructed nextTag)
      = .ok () (after cbor nextTag 0) := by
  refine (run_bind_of_ok rfl).trans ((run_bind_of_ok (runLedTest_run cbor rfl _)).trans ?_)
  rfl

/-- Whatever the library did with the timer, it is gone in the end. -/
theorem Presents.giveWay_run (h : Presents setRootViewController) (s : VersionScreen) :
    (do setRootViewController; removeTimer : EStateM Fault VersionScreen Unit).run s
      = .ok () { s with presentsHome := true, timerEvent := false } := by
  rw [EStateM.run_bind]
  rcases h s with hrun | hrun <;> rw [hrun] <;> rfl

/-- The timer goes with the last stage. -/
theorem timerCallback_run (hpresents : Presents setRootViewController)
    (h : ledTest[s.timerCount + 1]? = some batch) :
    (timerCallback setRootViewController cbor (fun _ => true)).run s = .ok () { s with
      timerCount := s.timerCount + 1
      timerEvent := s.timerEvent && decide (s.timerCount + 1 ≠ 4)
      presentsHome := s.presentsHome || decide (s.timerCount + 1 = 4)
      rpc := sending cbor batch s.rpc } := by
  have hstep := runLedTest_run cbor h { s with timerCount := s.timerCount + 1 }
  refine (run_bind_of_ok rfl).trans ?_
  rw [run_get_bind]
  refine (run_bind_of_ok hstep).trans ?_
  by_cases hlast : s.timerCount + 1 = 4
  · rw [if_pos (decide_eq_true hlast), hpresents.giveWay_run]
    simp only [hlast, decide_true, ne_eq, not_true_eq_false, decide_false, Bool.and_false,
      Bool.or_true]
  · rw [if_neg (by rw [decide_eq_false hlast]; exact Bool.false_ne_true)]
    simp only [hlast, decide_false, ne_eq, not_false_eq_true, decide_true, Bool.and_true,
      Bool.or_false]
    rfl

/-- The timer fires four times at most. -/
theorem tick_run (hpresents : Presents setRootViewController) (nextTag : Byte) (n : Nat) :
    (tick setRootViewController cbor (fun _ => true)).run (after cbor nextTag n)
      = .ok () (after cbor nextTag (n + 1)) := by
  rw [tick, run_get_bind, run_ite]
  by_cases hn : n < 4
  · have hmin : min n 4 = n := by omega
    have hnext : min (n + 1) 4 = n + 1 := by omega
    have hlt : n + 1 < ledTest.length := by
      show n + 1 < 5
      omega
    have hbatch : ledTest[n + 1]? = some ledTest[n + 1] := List.getElem?_eq_getElem hlt
    have hcount : (after cbor nextTag n).timerCount = n := hmin
    have hon : (after cbor nextTag n).timerEvent = true := decide_eq_true hn
    rw [if_pos hon, timerCallback_run hpresents (by rw [hcount]; exact hbatch), hcount]
    refine congrArg (EStateM.Result.ok ()) ?_
    simp only [after, hmin, hnext, VersionScreen.mk.injEq]
    refine ⟨?_, trivial, ?_, sending_stage hbatch⟩
    · rw [← Bool.decide_and]
      exact decide_eq_decide.mpr (by omega)
    · rw [← Bool.decide_or]
      exact decide_eq_decide.mpr (by omega)
  · have hsame : after cbor nextTag n = after cbor nextTag (n + 1) := by
      have hmin : min n 4 = min (n + 1) 4 := by omega
      have hoff : decide (n < 4) = decide (n + 1 < 4) := decide_eq_decide.mpr (by omega)
      have hhome : decide (4 ≤ n) = decide (4 ≤ n + 1) := decide_eq_decide.mpr (by omega)
      rw [after, after, hmin, hoff, hhome]
    have hoff : (after cbor nextTag n).timerEvent = false := decide_eq_false hn
    rw [if_neg (by rw [hoff]; exact Bool.false_ne_true), ← hsame]
    rfl

theorem ticks_run (hpresents : Presents setRootViewController) (nextTag : Byte)
    (n ticks : Nat) :
    (forM (List.replicate ticks ()) fun _ => tick setRootViewController cbor (fun _ => true)).run
      (after cbor nextTag n) = .ok () (after cbor nextTag (n + ticks)) := by
  induction ticks generalizing n with
  | zero => rfl
  | succ ticks ih =>
      rw [List.replicate_succ, List.forM_cons, run_bind_of_ok (tick_run hpresents nextTag n), ih]
      congr 2
      omega

theorem appearAndRun_run (hpresents : Presents setRootViewController) (nextTag : Byte)
    (ticks : Nat) :
    (appearAndRun setRootViewController cbor (fun _ => true) ticks).run (constructed nextTag)
      = .ok () (after cbor nextTag ticks) := by
  rw [appearAndRun, run_bind_of_ok (viewWillAppear_run nextTag), ticks_run hpresents,
    Nat.zero_add]

/-- There are no more than five stages. -/
theorem take_stages (n : Nat) : ledTest.take (min n 4 + 1) = ledTest.take (n + 1) := by
  by_cases hn : n ≤ 4
  · rw [Nat.min_eq_left hn]
  · have hall : ledTest.length ≤ n + 1 := by
      show 5 ≤ n + 1
      omega
    rw [Nat.min_eq_right (by omega), List.take_of_length_le hall]
    rfl

theorem written_after (nextTag : Byte) (n : Nat) :
    (after cbor nextTag n).rpc.written = batchPackets cbor nextTag (ledTest.take (n + 1)) := by
  rw [after, take_stages]

/-- What has been sent at the end of the program. -/
theorem written_sending_after (batch : Batch) (nextTag : Byte) (n : Nat) :
    (sending cbor batch (after cbor nextTag n).rpc).written
      = batchPackets cbor nextTag (ledTest.take (n + 1) ++ [batch]) := by
  rw [batchPackets_append, sending, after, take_stages]

/-- The last list switches off, after any stages, everything there is. -/
theorem lastOf_disabling (batches : List Batch) (which : Indicator) :
    lastOf which (allChanges (batches ++ [disabling])) = some (.bool false) := by
  have hall : allChanges (batches ++ [disabling]) = allChanges batches ++ gChanges := by
    rw [allChanges, List.flatMap_append]
    rfl
  have hlast : lastOf which gChanges = some (.bool false) := by cases which <;> rfl
  rw [hall, lastOf_append, hlast]
  rfl

/-- What an indicator is left with at the end of the test. -/
theorem lastOf_ledTest (which : Indicator) :
    lastOf which (allChanges ledTest)
      = some (if which = .status then rgb fifth fifth fifth else .bool false) := by
  cases which <;> rfl

/-- A fifth is 51 of 255: the product is a `double`, and a little more. -/
theorem duty_fifth (rounding : Rounding) : (Double.num fifth).duty rounding = 51 := by
  have hmul : max 0 (min 1 fifth) * 255 = ((3422552115 : ℕ) : ℚ) / 2 ^ 26 := by
    norm_num [fifth]
  have hnat := Double.toNat_duty rounding fifth
  rw [hmul, rounding.keeps _ _ (by norm_num) (by norm_num)] at hnat
  have hfloor : ⌊((3422552115 : ℕ) : ℚ) / 2 ^ 26⌋ = 51 := by norm_num [Int.floor_eq_iff]
  rw [hfloor] at hnat
  exact BitVec.eq_of_toNat_eq (by exact_mod_cast hnat)

theorem duty_ledTest (rounding : Rounding) (which : Indicator) (k : Nat) :
    (if which = .status then rgb fifth fifth fifth else .bool false).setting.duty rounding k
      = if which = .status then 51 else 0 := by
  by_cases hwhich : which = .status
  · rw [if_pos hwhich, if_pos hwhich]
    rcases k with _ | _ | k <;> exact duty_fifth rounding
  · rw [if_neg hwhich, if_neg hwhich]
    exact Double.duty_zero

end VersionScreen

open VersionScreen

/-- What some ticks of the timer and then the end of the program do to the
LEDs: those show what the stages sent so far left them with; the fourth tick
brings the home screen, with the status indicator dimmed and all else dark; and
after the end they are all dark. -/
def TestsLeds (setRootViewController : EStateM Fault VersionScreen Unit) (cbor : Libcbor)
    (table : IndicatorTable) (this : Nat) (nextTag : Byte) (s : Server) (ticks : Nat) : Prop :=
  ∃ screen quit t u,
    (appearAndRun setRootViewController cbor (fun _ => true) ticks).run (constructed nextTag)
      = .ok () screen ∧
    (disableIndicators cbor fun _ => true).run screen = .ok () quit ∧
    (screen.timerEvent = true ↔ ticks < 4) ∧ (screen.presentsHome = true ↔ 4 ≤ ticks) ∧
    serve cbor table this screen.rpc.written s = some t ∧
    serve cbor table this quit.rpc.written s = some u ∧
    Shows s.ledManager t.ledManager (allChanges (ledTest.take (ticks + 1))) ∧
    ∀ which k dev r, s.ledManager.Drives which k dev r →
      (4 ≤ ticks → t.ledManager.reg dev r = some (if which = .status then 51 else 0)) ∧
        u.ledManager.reg dev r = some 0

/-- The numbers of the stages in single precision. -/
def singleBits : Double → List Byte
  | .num q =>
      if q = 0 then [0, 0, 0, 0]
      else if q = 1 then [0x3f, 0x80, 0, 0]
      else if q = fifth then [0x3e, 0x4c, 0xcc, 0xcd]
      else []
  | _ => []

/-- The encoding of a truth value or of a color. -/
def serializeValue : Item → List Byte
  | .ctrl value => [BitVec.ofNat 8 (0xe0 + value)]
  | .array true items => BitVec.ofNat 8 (0x80 + items.length) :: items.flatMap fun
      | .float .single value => 0xfa :: singleBits value
      | _ => []
  | _ => []

/-- The encoding of a map from short texts to these. -/
def serializeStage : Item → List Byte
  | .map true pairs => BitVec.ofNat 8 (0xa0 + pairs.length) :: pairs.flatMap fun
      | (.text key, value) => BitVec.ofNat 8 (0x60 + key.length) :: key ++ serializeValue value
      | _ => []
  | _ => []

/-- A library that knows the maps of the test. -/
def libcborStages : Libcbor :=
  .ofTable ((disabling :: ledTest).map fun batch =>
      (serializeStage (encodeChanges batch.changes), encodeChanges batch.changes))
    serializeStage (by decide +kernel)

theorem faithful_stages :
    ∀ batch ∈ disabling :: ledTest, Faithful libcborStages batch.changes := by
  have hfront : ∀ batch ∈ disabling :: ledTest, ∀ c ∈ (disabling :: ledTest).map
      fun batch => serializeStage (encodeChanges batch.changes),
      c.isPrefixOf (serializeStage (encodeChanges batch.changes)) = true →
        c = serializeStage (encodeChanges batch.changes) := by
    decide +kernel
  have hlength : ∀ batch ∈ disabling :: ledTest,
      (serializeStage (encodeChanges batch.changes)).length = mapSize batch.changes := by
    decide +kernel
  intro batch hb
  refine ⟨Libcbor.ofTable_encodes_of_prefix (List.mem_map_of_mem hb) ?_ ?_, hlength batch hb⟩
  · rw [List.map_map]
    decide +kernel
  · intro c hc hstarts
    refine hfront batch hb c.1 ?_ hstarts
    obtain ⟨other, hother, rfl⟩ := List.mem_map.mp hc
    exact List.mem_map_of_mem hother

theorem wired_probe (rounding : Rounding) (i : Indicator) :
    Wired (probe rounding i 3 (Nat.le_refl 3)).ledManager := by
  intro which this hnil
  rw [handler_probe] at hnil
  split at hnil
  · cases hnil
  · cases hnil

/-- A library that tells the screen that it disappears. -/
def withNotice : EStateM Fault VersionScreen Unit := do
  modify fun s => { s with presentsHome := true }
  viewWillDisappear

end Gui
