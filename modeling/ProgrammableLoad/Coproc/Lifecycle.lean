/-
# `Coproc.Lifecycle` — from loading the firmware to shutting down

`Coprocessor` starts and stops the coprocessor by writing to management files,
and takes down in `coprocState` what it wrote last; the destructor stops what
is running.  `main` of loadd boots the coprocessor, sets up the server and the
channels, runs the loop and takes it all down again.

`Remoteproc` is what the files stand for.  Whatever calls fail, the member says
whether the coprocessor runs, and the destructor stops it unless its own attempt
fails; if no descriptor was lost before, only that of the control device is left
open, `destroyed`.  `main_run` says how `main` ends: by an exception that it does
not catch, or with which code, whether the coprocessor is left running, and
whether the handlers free their buffer events while the base of the events is
still there.

With each call of `writeFile` comes what becomes of its `open` and its `write`.
The loop ends when `gRun` is cleared, or by an exception of a callback.
-/
import ProgrammableLoad.Coproc.InitRpc
import ProgrammableLoad.Theory.Runs

namespace Coproc

open Cpp Program Handles

/-! ## The object -/

/-- `Coprocessor::State` -/
inductive State where
  | unknown | running | stopped | crashed
deriving DecidableEq

/-- Whether a file can be opened, and whether the write to it succeeds then. -/
structure FileOutcome where
  opens : Bool
  writes : Bool

/-- The value gets to the file. -/
def FileOutcome.Succeeds (o : FileOutcome) : Prop := o.opens = true ∧ o.writes = true

instance (o : FileOutcome) : Decidable o.Succeeds := instDecidableAnd

/-- What is given back to libevent: the buffer events of a handler, or the base
of all events. -/
inductive Freed where
  | events (epName : String)
  | base
deriving DecidableEq

/-- The object with what it has written to the management files, as path and
value, and what it has given back, oldest first. -/
structure Manager where
  coprocState : State
  written : List (String × String)
  freed : List Freed
  object : Coprocessor

def Manager.fresh : Manager := ⟨.unknown, [], [], .fresh⟩

/-- Firmware base path; both directories end with a separator. -/
def kFirmwareSysfsBase : String := "/sys/module/firmware_class/parameters/"

/-- Remoteproc base path -/
def kRprocSysfsBase : String := "/dev/remoteproc/m4/"

namespace Manager

/-- What works on the channels and descriptors. -/
def onObject {α : Type} (m : EStateM Fault Coprocessor α) : EStateM Fault Manager α := fun s =>
  match m.run s.object with
  | .ok a object => .ok a { s with object := object }
  | .error e object => .error e { s with object := object }

def writeFile (kernel : Allocator Nat) (outcome : FileOutcome) (base name value : String) :
    EStateM Fault Manager Unit := do
  let path := if name ≠ "" then base ++ name else base
  if outcome.opens then
    let fd ← onObject (Coprocessor.openFile kernel)
    if outcome.writes then
      modify fun s => { s with written := s.written ++ [(path, value)] }
      onObject (Coprocessor.closeAll [fd])
    else
      onObject (Coprocessor.closeAll [fd])
      throw (.thrown (.systemError "write coproc file"))
  else
    throw (.thrown (.systemError "open coproc file"))

def setState (kernel : Allocator Nat) (outcome : FileOutcome) (newState : State) :
    EStateM Fault Manager Unit := do
  match newState with
  | .running => writeFile kernel outcome kRprocSysfsBase "state" "start"
  | .stopped => writeFile kernel outcome kRprocSysfsBase "state" "stop"
  | .unknown => throw (.thrown (.invalidArgument "invalid coproc state"))
  | .crashed => throw (.thrown (.invalidArgument "invalid coproc state"))
  modify fun s => { s with coprocState := newState }

def start (kernel : Allocator Nat) (outcome : FileOutcome) : EStateM Fault Manager Unit :=
  setState kernel outcome .running

def stop (kernel : Allocator Nat) (outcome : FileOutcome) : EStateM Fault Manager Unit :=
  setState kernel outcome .stopped

/-- `loadFirmware`, with the two parts of the path. -/
def loadFirmware (kernel : Allocator Nat) (directory file : FileOutcome)
    (parentPath filename : String) : EStateM Fault Manager Unit := do
  writeFile kernel directory kFirmwareSysfsBase "path" parentPath
  writeFile kernel file kRprocSysfsBase "firmware" filename

/-- The handlers of these channels are destroyed. -/
def freeHandlers (channels : List RpcChannelInfo) : EStateM Fault Manager Unit :=
  modify fun s => { s with freed := s.freed ++ channels.map fun info => .events info.epName }

/-- `initRpc`; the handlers of channels that were set up before are destroyed
with them. -/
def initRpc (kernel : Allocator Nat) (env : Environment) : EStateM Fault Manager Unit := do
  freeHandlers (← get).object.rpcChannels
  onObject (Coprocessor.initRpc kernel env)

/-- What the destructor closes, the last channel first. -/
def channelFds (channels : List RpcChannelInfo) : List Nat :=
  channels.reverse.flatMap fun info => info.handler.owned ++ [info.chrdevFd]

/-- `if(this->coprocState == State::Running)` with what it throws caught. -/
def stopIfRunning (kernel : Allocator Nat) (outcome : FileOutcome) :
    EStateM Fault Manager Unit := do
  if (← get).coprocState = .running then
    let _ ← catching (stop kernel outcome)
  else
    pure ()

def releaseChannels : EStateM Fault Manager Unit := do
  let channels := (← get).object.rpcChannels
  freeHandlers channels.reverse
  onObject (Coprocessor.closeAll (channelFds channels))
  modify fun s => { s with object := { s.object with rpcChannels := [] } }

/-- The destructor. -/
def destruct (kernel : Allocator Nat) (outcome : FileOutcome) : EStateM Fault Manager Unit := do
  stopIfRunning kernel outcome
  releaseChannels

/-- A call of one of the public functions. -/
inductive Call where
  | loadFirmware (directory file : FileOutcome) (parentPath filename : String)
  | start (outcome : FileOutcome)
  | stop (outcome : FileOutcome)
  | initRpc (env : Environment)

def step (kernel : Allocator Nat) : Call → EStateM Fault Manager Unit
  | .loadFirmware directory file parentPath filename =>
      Manager.loadFirmware kernel directory file parentPath filename
  | .start outcome => Manager.start kernel outcome
  | .stop outcome => Manager.stop kernel outcome
  | .initRpc env => Manager.initRpc kernel env

end Manager

/-! ## The coprocessor -/

/-- What the management files stand for. -/
structure Remoteproc where
  firmwarePath : String
  firmware : String
  running : Bool
deriving DecidableEq

namespace Remoteproc

/-- Nothing was written yet. -/
def off : Remoteproc := ⟨"", "", false⟩

def write (r : Remoteproc) (file : String × String) : Remoteproc :=
  if file.1 = kFirmwareSysfsBase ++ "path" then { r with firmwarePath := file.2 }
  else if file.1 = kRprocSysfsBase ++ "firmware" then { r with firmware := file.2 }
  else if file.1 = kRprocSysfsBase ++ "state" then { r with running := decide (file.2 = "start") }
  else r

/-- The coprocessor after these writes. -/
def after (written : List (String × String)) : Remoteproc := written.foldl write off

theorem after_append (written : List (String × String)) (file : String × String) :
    after (written ++ [file]) = (after written).write file := by
  rw [after, List.foldl_append]
  rfl

theorem write_state (r : Remoteproc) (value : String) :
    r.write (kRprocSysfsBase ++ "state", value) = { r with running := decide (value = "start") } := by
  have hpath : kRprocSysfsBase ++ "state" ≠ kFirmwareSysfsBase ++ "path" := by decide
  have hfirmware : kRprocSysfsBase ++ "state" ≠ kRprocSysfsBase ++ "firmware" := by decide
  rw [write, if_neg hpath, if_neg hfirmware, if_pos rfl]

end Remoteproc

/-! ## Writing a file -/

namespace Manager

section Calls

variable {kernel : Allocator Nat} {s t : Manager} {o : FileOutcome}

/-- The object after some more steps on its descriptors. -/
def withDescriptors (s : Manager) (ops : List (Use Nat)) : Manager :=
  { s with object := { s.object with descriptors := ops } }

/-- What is open stays open, and nothing else. -/
def Restores (ops ops' : List (Use Nat)) : Prop := ∀ owned, Accounts ops owned → Accounts ops' owned

theorem restores_opens_closes (kernel : Allocator Nat) (ops : List (Use Nat)) :
    Restores ops (ops ++ [.opens (kernel.next ops)] ++ closing [kernel.next ops]) :=
  fun _ h => (h.opens kernel).closes

/-- The file is closed again whichever way the write ends. -/
theorem writeFile_run (kernel : Allocator Nat) (s : Manager) (o : FileOutcome)
    (base : String) {name : String} (value : String) (hname : name ≠ "") :
    ∃ ops, Restores s.object.descriptors ops ∧
      (o.Succeeds → (writeFile kernel o base name value).run s
        = .ok () { s.withDescriptors ops with written := s.written ++ [(base ++ name, value)] }) ∧
      (¬ o.Succeeds → ∃ e, (writeFile kernel o base name value).run s
        = .error (.thrown e) (s.withDescriptors ops)) := by
  obtain ⟨opens, writes⟩ := o
  cases opens with
  | false =>
      refine ⟨s.object.descriptors, fun _ h => h, fun h => absurd h.1 Bool.false_ne_true, fun _ => ?_⟩
      exact ⟨_, rfl⟩
  | true =>
      refine ⟨_, restores_opens_closes kernel s.object.descriptors, ?_, ?_⟩
      · rintro ⟨-, rfl⟩
        rw [writeFile, if_pos hname]
        rfl
      · intro h
        have hwrites : writes = false := Bool.eq_false_iff.mpr fun hwrites => h ⟨rfl, hwrites⟩
        subst hwrites
        exact ⟨_, rfl⟩

theorem state_ne_empty : "state" ≠ "" := by decide

theorem start_run (kernel : Allocator Nat) (s : Manager) (o : FileOutcome) :
    ∃ ops, Restores s.object.descriptors ops ∧
      (o.Succeeds → (start kernel o).run s = .ok () { s.withDescriptors ops with
        written := s.written ++ [(kRprocSysfsBase ++ "state", "start")]
        coprocState := .running }) ∧
      (¬ o.Succeeds → ∃ e, (start kernel o).run s = .error (.thrown e) (s.withDescriptors ops)) := by
  obtain ⟨ops, hops, hok, herror⟩ :=
    writeFile_run kernel s o kRprocSysfsBase "start" state_ne_empty
  refine ⟨ops, hops, fun h => ?_, fun h => ?_⟩
  · exact run_bind_of_ok (hok h)
  · obtain ⟨e, he⟩ := herror h
    exact ⟨e, run_bind_of_error he⟩

theorem stop_run (kernel : Allocator Nat) (s : Manager) (o : FileOutcome) :
    ∃ ops, Restores s.object.descriptors ops ∧
      (o.Succeeds → (stop kernel o).run s = .ok () { s.withDescriptors ops with
        written := s.written ++ [(kRprocSysfsBase ++ "state", "stop")]
        coprocState := .stopped }) ∧
      (¬ o.Succeeds → ∃ e, (stop kernel o).run s = .error (.thrown e) (s.withDescriptors ops)) := by
  obtain ⟨ops, hops, hok, herror⟩ :=
    writeFile_run kernel s o kRprocSysfsBase "stop" state_ne_empty
  refine ⟨ops, hops, fun h => ?_, fun h => ?_⟩
  · exact run_bind_of_ok (hok h)
  · obtain ⟨e, he⟩ := herror h
    exact ⟨e, run_bind_of_error he⟩

/-! ## What every call keeps -/

/-- The member says whether the coprocessor runs. -/
def Tracks (s : Manager) : Prop :=
  (Remoteproc.after s.written).running = true ↔ s.coprocState = .running

/-- What is open is in the hands of the object. -/
def Owns (s : Manager) : Prop := Accounts s.object.descriptors s.object.owned

/-- No descriptor is lost: every leftover device that could be opened is destroyed
and with that closed, and the channel that fails, if one does, closes what it
opened, each descriptor once. -/
def Call.Clean : Call → Prop
  | .initRpc env => Environment.NoLeak env.leftovers ∧ env.firstFailure kRpcChannels ≠ .failsBadly
  | _ => True

theorem Owns.withDescriptors {ops : List (Use Nat)} (hs : s.Owns)
    (h : Restores s.object.descriptors ops) : (s.withDescriptors ops).Owns := h _ hs

theorem tracks_writeFile (hs : s.Tracks) {base name value : String} (hname : name ≠ "")
    (hstate : base ++ name ≠ kRprocSysfsBase ++ "state") :
    (stateAfter (writeFile kernel o base name value) s).Tracks := by
  obtain ⟨ops, _, hok, herror⟩ := writeFile_run kernel s o base value hname
  by_cases h : o.Succeeds
  · rw [stateAfter_of_ok (hok h), Tracks]
    show (Remoteproc.after (s.written ++ [(base ++ name, value)])).running = true ↔ _
    have hkept : ((Remoteproc.after s.written).write (base ++ name, value)).running
        = (Remoteproc.after s.written).running := by
      rw [Remoteproc.write, if_neg hstate]
      split
      · rfl
      · split <;> rfl
    rw [Remoteproc.after_append, hkept]
    exact hs
  · obtain ⟨e, he⟩ := herror h
    rw [stateAfter_of_error he]
    exact hs

theorem owns_writeFile (hs : s.Owns) {base name value : String} (hname : name ≠ "") :
    (stateAfter (writeFile kernel o base name value) s).Owns := by
  obtain ⟨ops, hops, hok, herror⟩ := writeFile_run kernel s o base value hname
  by_cases h : o.Succeeds
  · rw [stateAfter_of_ok (hok h)]
    exact hs.withDescriptors hops
  · obtain ⟨e, he⟩ := herror h
    rw [stateAfter_of_error he]
    exact hs.withDescriptors hops

/-- The two files of the firmware. -/
theorem loadFirmware_keeps {I : Manager → Prop}
    (hI : ∀ s o base name value, I s → name ≠ "" →
      base ++ name ≠ kRprocSysfsBase ++ "state" →
      I (stateAfter (writeFile kernel o base name value) s))
    (hs : I s) (directory file : FileOutcome) (parentPath filename : String) :
    I (stateAfter (Manager.loadFirmware kernel directory file parentPath filename) s) := by
  have hfirst := hI s directory kFirmwareSysfsBase "path" parentPath hs (by decide) (by decide)
  rw [Manager.loadFirmware]
  cases hrun : (writeFile kernel directory kFirmwareSysfsBase "path" parentPath).run s with
  | ok a u =>
      rw [stateAfter_of_ok hrun] at hfirst
      rw [stateAfter_bind_of_ok hrun]
      exact hI u file kRprocSysfsBase "firmware" filename hfirst (by decide) (by decide)
  | error e u =>
      rw [stateAfter_of_error hrun] at hfirst
      rw [stateAfter_bind_of_error hrun]
      exact hfirst

theorem tracks_start (hs : s.Tracks) (o : FileOutcome) :
    (stateAfter (Manager.start kernel o) s).Tracks := by
  obtain ⟨ops, _, hok, herror⟩ := start_run kernel s o
  by_cases h : o.Succeeds
  · rw [stateAfter_of_ok (hok h), Tracks]
    refine iff_of_true ?_ rfl
    show (Remoteproc.after (s.written ++ [(kRprocSysfsBase ++ "state", "start")])).running = true
    rw [Remoteproc.after_append, Remoteproc.write_state]
    rfl
  · obtain ⟨e, he⟩ := herror h
    rw [stateAfter_of_error he]
    exact hs

theorem tracks_stop (hs : s.Tracks) (o : FileOutcome) :
    (stateAfter (Manager.stop kernel o) s).Tracks := by
  obtain ⟨ops, _, hok, herror⟩ := stop_run kernel s o
  by_cases h : o.Succeeds
  · rw [stateAfter_of_ok (hok h), Tracks]
    refine iff_of_false ?_ nofun
    show ¬ (Remoteproc.after (s.written ++ [(kRprocSysfsBase ++ "state", "stop")])).running = true
    rw [Remoteproc.after_append, Remoteproc.write_state]
    show ¬ decide ("stop" = "start") = true
    decide
  · obtain ⟨e, he⟩ := herror h
    rw [stateAfter_of_error he]
    exact hs

theorem owns_start (hs : s.Owns) (o : FileOutcome) :
    (stateAfter (Manager.start kernel o) s).Owns := by
  obtain ⟨ops, hops, hok, herror⟩ := start_run kernel s o
  by_cases h : o.Succeeds
  · rw [stateAfter_of_ok (hok h)]
    exact hs.withDescriptors hops
  · obtain ⟨e, he⟩ := herror h
    rw [stateAfter_of_error he]
    exact hs.withDescriptors hops

theorem owns_stop (hs : s.Owns) (o : FileOutcome) :
    (stateAfter (Manager.stop kernel o) s).Owns := by
  obtain ⟨ops, hops, hok, herror⟩ := stop_run kernel s o
  by_cases h : o.Succeeds
  · rw [stateAfter_of_ok (hok h)]
    exact hs.withDescriptors hops
  · obtain ⟨e, he⟩ := herror h
    rw [stateAfter_of_error he]
    exact hs.withDescriptors hops

/-- Setting up the channels leaves the management files alone. -/
theorem stateAfter_initRpc (kernel : Allocator Nat) (env : Environment) (s : Manager) :
    stateAfter (Manager.initRpc kernel env) s = { s with
      freed := s.freed ++ s.object.rpcChannels.map fun info => .events info.epName
      object := stateAfter (Coprocessor.initRpc kernel env) s.object } := by
  have hfree : (freeHandlers s.object.rpcChannels).run s = .ok () { s with
      freed := s.freed ++ s.object.rpcChannels.map fun info => .events info.epName } := rfl
  show stateAfter (freeHandlers s.object.rpcChannels >>= fun _ =>
    onObject (Coprocessor.initRpc kernel env)) s = _
  rw [stateAfter_bind_of_ok hfree]
  simp only [stateAfter, onObject, EStateM.run]
  cases Coprocessor.initRpc kernel env s.object <;> rfl

/-- A clean call accounts for what it opens, however it ends. -/
theorem accounts_initRpc {env : Environment} {c : Coprocessor}
    (hclean : Environment.NoLeak env.leftovers ∧ env.firstFailure kRpcChannels ≠ .failsBadly)
    (h : Accounts c.descriptors c.owned) :
    Accounts (stateAfter (Coprocessor.initRpc kernel env) c).descriptors
      (stateAfter (Coprocessor.initRpc kernel env) c).owned := by
  obtain ⟨u, lost, hdestroy, -, hu, hlost⟩ :=
    Coprocessor.destroyAllRpcEndpoints_run kernel env.leftovers h
  rw [hlost.mpr hclean.1] at hu
  rw [Coprocessor.initRpc]
  by_cases hopens : u.CtrlOpens env
  · obtain ⟨v, hopen, hv⟩ := Coprocessor.openCtrl_run_ok kernel hopens hu
    have hprepare : (Coprocessor.prepare kernel env).run c = .ok () v :=
      (run_bind_of_ok hdestroy).trans hopen
    rw [stateAfter_bind_of_ok hprepare, Coprocessor.setUpChannels]
    have hends := Coprocessor.forM_ends kernel env (List.Subset.refl kRpcChannels) hv
    generalize hrun : (forM kRpcChannels (Coprocessor.initChannel kernel env)).run v = r at hends
    generalize hsetup : env.firstFailure kRpcChannels = setup at hends
    cases hends with
    | completes ht =>
        rw [stateAfter_of_ok hrun]
        exact ht
    | failsCleanly ht =>
        rw [stateAfter_of_error hrun]
        exact ht
    | failsBadly ht => exact absurd hsetup hclean.2
  · obtain ⟨e, hopen⟩ := Coprocessor.openCtrl_run_error kernel hopens
    have hprepare : (Coprocessor.prepare kernel env).run c = .error e u :=
      (run_bind_of_ok hdestroy).trans hopen
    rw [stateAfter_bind_of_error hprepare]
    exact hu

theorem tracks_step (call : Call) (hs : s.Tracks) : (stateAfter (step kernel call) s).Tracks := by
  cases call with
  | loadFirmware directory file parentPath filename =>
      exact loadFirmware_keeps (I := Tracks)
        (fun _ _ _ _ _ hs hname hstate => tracks_writeFile hs hname hstate) hs
        directory file parentPath filename
  | start o => exact tracks_start hs o
  | stop o => exact tracks_stop hs o
  | initRpc env =>
      have hafter := stateAfter_initRpc kernel env s
      rw [step, hafter]
      exact hs

theorem owns_step {call : Call} (hclean : call.Clean) (hs : s.Owns) :
    (stateAfter (step kernel call) s).Owns := by
  cases call with
  | loadFirmware directory file parentPath filename =>
      exact loadFirmware_keeps (I := Owns) (fun _ _ _ _ _ hs hname _ => owns_writeFile hs hname)
        hs directory file parentPath filename
  | start o => exact owns_start hs o
  | stop o => exact owns_stop hs o
  | initRpc env =>
      have hafter := stateAfter_initRpc kernel env s
      rw [step, hafter]
      exact accounts_initRpc hclean hs

/-! ## The destructor -/

theorem channelFds_perm (channels : List RpcChannelInfo) :
    (channelFds channels).Perm
      (channels.flatMap fun info => info.chrdevFd :: info.handler.owned) := by
  refine ((List.reverse_perm channels).flatMap_right _).trans ?_
  exact List.Perm.flatMap_left channels fun info _ => List.perm_append_comm

/-- The object without its channels. -/
theorem releaseChannels_run (s : Manager) : ∃ t, releaseChannels.run s = .ok () t ∧
    t.written = s.written ∧
    t.freed = s.freed ++ s.object.rpcChannels.reverse.map (fun info => .events info.epName) ∧
    (s.Owns → Accounts t.object.descriptors s.object.rpmsgCtrlFd.toList) := by
  refine ⟨_, rfl, rfl, rfl, fun hs => ?_⟩
  refine (hs.perm (List.perm_append_comm.trans ?_)).closing
  exact (channelFds_perm s.object.rpcChannels).symm.append_right _

/-- What is running is stopped, if that succeeds. -/
theorem stopIfRunning_run (kernel : Allocator Nat) (htracks : s.Tracks) (o : FileOutcome) :
    ∃ t, (stopIfRunning kernel o).run s = .ok () t ∧ (s.Owns → t.Owns) ∧
      t.object.rpcChannels = s.object.rpcChannels ∧ t.object.rpmsgCtrlFd = s.object.rpmsgCtrlFd ∧
      t.freed = s.freed ∧
      ((Remoteproc.after t.written).running = true ↔ s.coprocState = .running ∧ ¬ o.Succeeds) := by
  rw [stopIfRunning, run_get_bind, run_ite]
  by_cases hrunning : s.coprocState = .running
  · rw [if_pos hrunning]
    obtain ⟨ops, hops, hok, herror⟩ := stop_run kernel s o
    have howns : s.Owns → (stateAfter (Manager.stop kernel o) s).Owns := fun hs => owns_stop hs o
    have htracks' : (stateAfter (Manager.stop kernel o) s).Tracks := tracks_stop htracks o
    by_cases h : o.Succeeds
    · rw [stateAfter_of_ok (hok h)] at howns htracks'
      refine ⟨_, run_bind_of_ok (catching_run_ok (hok h)), howns, rfl, rfl, rfl, ?_⟩
      exact htracks'.trans (iff_of_false nofun fun hnot => hnot.2 h)
    · obtain ⟨e, he⟩ := herror h
      rw [stateAfter_of_error he] at howns htracks'
      refine ⟨_, run_bind_of_ok (catching_run_thrown he), howns, rfl, rfl, rfl, ?_⟩
      exact htracks'.trans (iff_of_true hrunning ⟨hrunning, h⟩)
  · rw [if_neg hrunning]
    refine ⟨s, rfl, id, rfl, rfl, rfl, ?_⟩
    exact htracks.trans (iff_of_false hrunning fun h => hrunning h.1)

theorem destruct_run (kernel : Allocator Nat) (htracks : s.Tracks) (o : FileOutcome) :
    ∃ t, (destruct kernel o).run s = .ok () t ∧
      (s.Owns → Accounts t.object.descriptors s.object.rpmsgCtrlFd.toList) ∧
      t.freed = s.freed ++ s.object.rpcChannels.reverse.map (fun info => .events info.epName) ∧
      ((Remoteproc.after t.written).running = true ↔ s.coprocState = .running ∧ ¬ o.Succeeds) := by
  obtain ⟨u, hstop, howns, hchannels, hctrl, hfreed, hrunning⟩ :=
    stopIfRunning_run kernel htracks o
  obtain ⟨t, hrelease, hwritten, hfreed', haccounts⟩ := releaseChannels_run u
  refine ⟨t, (run_bind_of_ok hstop).trans hrelease, fun hs => ?_, ?_, ?_⟩
  · rw [← hctrl]
    exact haccounts (howns hs)
  · rw [hfreed', hfreed, hchannels]
  · rw [hwritten]
    exact hrunning

/-- The member of `s` says whether the coprocessor runs, and the destructor leaves
it running just when its own attempt to stop it fails. -/
structure Destroyed (s t : Manager) (o : FileOutcome) : Prop where
  tracks : s.Tracks
  running : (Remoteproc.after t.written).running = true ↔ s.coprocState = .running ∧ ¬ o.Succeeds

/-- After any calls of the public functions, whatever fails in them.  If every
`initRpc` was clean, the destructor closes every descriptor that is open but that
of the control device. -/
theorem destroyed (kernel : Allocator Nat) (calls : List Call) (o : FileOutcome) :
    ∃ t, (destruct kernel o).run (final (step kernel) fresh calls) = .ok () t ∧
      Destroyed (final (step kernel) fresh calls) t o ∧
      ((∀ call ∈ calls, call.Clean) → Accounts t.object.descriptors
        (final (step kernel) fresh calls).object.rpmsgCtrlFd.toList) := by
  have htracks : (final (step kernel) fresh calls).Tracks :=
    final_keeps (fun call _ _ hs => tracks_step call hs) (iff_of_false (by decide) nofun)
  obtain ⟨t, hrun, haccounts, -, hrunning⟩ := destruct_run kernel htracks o
  refine ⟨t, hrun, ⟨htracks, hrunning⟩, fun hclean => haccounts ?_⟩
  exact final_keeps (fun call hcall _ hs => owns_step (hclean call hcall) hs) accounts_nil

/-- Started, but with no connection to confd. -/
theorem destroyed_without_confd :
    ∃ t, (destruct (.lowest 3) ⟨true, false⟩).run (final (step (.lowest 3)) fresh
        [.start ⟨true, true⟩,
          .initRpc (Coprocessor.environment none (some (.dial .connect)))]) = .ok () t ∧
      (Remoteproc.after t.written).running = true ∧ Accounts t.object.descriptors [3] := by
  obtain ⟨t, hrun, hdestroyed, haccounts⟩ := destroyed (.lowest 3) [.start ⟨true, true⟩,
    .initRpc (Coprocessor.environment none (some (.dial .connect)))] ⟨true, false⟩
  refine ⟨t, hrun, hdestroyed.running.mpr ⟨rfl, by decide⟩, haccounts fun call hcall => ?_⟩
  rcases List.mem_cons.mp hcall with rfl | hcall
  · trivial
  · rcases List.mem_singleton.mp hcall with rfl
    exact ⟨fun _ hmem => absurd hmem List.not_mem_nil, by decide⟩

end Calls

end Manager

/-! ## Which channels are set up -/

namespace Coprocessor

/-- The names of the channels. -/
def names (c : Coprocessor) : List String := c.rpcChannels.map RpcChannelInfo.epName

/-- A channel is set up behind those before, or the object keeps those before
and an exception is thrown. -/
inductive Adds (before : List String) (name : String) :
    SetUp → EStateM.Result Fault Coprocessor Unit → Prop
  | completes {t : Coprocessor} (h : t.names = before ++ [name]) :
      Adds before name .completes (.ok () t)
  | fails {setUp : SetUp} {e : Exception} {t : Coprocessor} (hne : setUp ≠ .completes)
      (h : t.names = before) : Adds before name setUp (.error (.thrown e) t)

section Channels

variable {kernel : Allocator Nat} {env : Environment} {c : Coprocessor} {lost : List Nat}

variable (kernel env) in
theorem initChannel_adds {detail : EndpointInfo} (hdetail : detail ∈ kRpcChannels)
    (h : Accounts c.descriptors (lost ++ c.owned)) :
    Adds c.names detail.name (env.setUp detail.endpoint)
      ((initChannel kernel env detail).run c) := by
  have hcleanly : SetUp.failsCleanly ≠ .completes := by decide
  have hbadly : SetUp.failsBadly ≠ .completes := by decide
  rw [initChannel, Environment.setUp]
  cases hconnect : env.connect detail.endpoint with
  | error e => exact .fails hcleanly rfl
  | ok devPath =>
      cases hopens : env.opensDevice detail.endpoint with
      | false => exact .fails hcleanly rfl
      | true =>
          have hopen : (openFile kernel).run c = .ok (kernel.next c.descriptors)
              { c with descriptors := c.descriptors ++ [.opens (kernel.next c.descriptors)] } := rfl
          have hmakes := makeHandler_makes kernel env hdetail (h.opens kernel)
          simp only [↓reduceIte]
          rw [run_bind_of_ok hopen]
          generalize hrun : (detail.makeHandler kernel env (kernel.next c.descriptors)).run
            (c.descriptors ++ [.opens (kernel.next c.descriptors)]) = r at hmakes
          generalize env.handlerSetUp detail.endpoint = ends at hmakes ⊢
          cases hmakes with
          | completes =>
              rw [run_bind_of_ok (closingOnThrow_run_ok _ hrun)]
              exact .completes (List.map_append)
          | failsCleanly =>
              rw [run_bind_of_error (closingOnThrow_run_thrown _ hrun)]
              exact .fails hcleanly rfl
          | failsBadly =>
              rw [run_bind_of_error (closingOnThrow_run_thrown _ hrun)]
              exact .fails hbadly rfl

variable (kernel) in
theorem initChannel_of_completes {detail : EndpointInfo} (hdetail : detail ∈ kRpcChannels)
    (h : Accounts c.descriptors (lost ++ c.owned)) (hup : env.setUp detail.endpoint = .completes) :
    ∃ t, (initChannel kernel env detail).run c = .ok () t ∧ t.names = c.names ++ [detail.name] ∧
      Accounts t.descriptors (lost ++ t.owned) := by
  have hadds := initChannel_adds kernel env hdetail h
  have hends := initChannel_ends kernel env hdetail h
  rw [hup] at hadds hends
  generalize (initChannel kernel env detail).run c = r at hadds hends
  cases hadds with
  | completes hnames =>
      cases hends with
      | completes ht => exact ⟨_, rfl, hnames, ht⟩
  | fails hne => exact absurd rfl hne

variable (kernel) in
theorem initChannel_of_fails {detail : EndpointInfo} (hdetail : detail ∈ kRpcChannels)
    (h : Accounts c.descriptors (lost ++ c.owned)) (hne : env.setUp detail.endpoint ≠ .completes) :
    ∃ e t, (initChannel kernel env detail).run c = .error (.thrown e) t ∧ t.names = c.names := by
  have hadds := initChannel_adds kernel env hdetail h
  generalize (initChannel kernel env detail).run c = r at hadds
  generalize env.setUp detail.endpoint = setUp at hadds hne
  cases hadds with
  | completes => exact absurd rfl hne
  | fails _ hnames => exact ⟨_, _, rfl, hnames⟩

/-- The names of the channels that come up, on a fresh object. -/
def endpointsUp (env : Environment) : List String :=
  if env.opensCtrl = true ∧ env.setUp .control = .completes then
    if env.setUp .confd = .completes then ["pl.control", "confd"] else ["pl.control"]
  else []

/-- Both channels come up. -/
def AllUp (env : Environment) : Prop :=
  env.opensCtrl = true ∧ env.setUp .control = .completes ∧ env.setUp .confd = .completes

/-- No channel is set up. -/
def NoChannels (c : Coprocessor) : Prop := c.rpcChannels = []

theorem keeps_noChannels_prepare (kernel : Allocator Nat) (env : Environment) :
    Keeps NoChannels (prepare kernel env) := by
  have hopen : Keeps NoChannels (openFile kernel) := fun _ h => h
  have hclose : ∀ fds, Keeps NoChannels (closeAll fds) := fun _ _ h => h
  have hleftover : ∀ leftover, Keeps NoChannels
      (destroyLeftover kernel leftover) := by
    rintro ⟨_ | _, _ | _⟩
    · exact Keeps.ret ()
    · exact Keeps.ret ()
    · exact hopen.bind fun _ => Keeps.ret ()
    · exact hopen.bind fun fd => hclose [fd]
  have hleftovers : ∀ leftovers : List Leftover, Keeps NoChannels
      (forM leftovers (destroyLeftover kernel)) := by
    intro leftovers
    induction leftovers with
    | nil => exact Keeps.ret ()
    | cons leftover leftovers ih =>
        rw [List.forM_cons]
        exact (hleftover leftover).bind fun _ => ih
  have hdestroy : Keeps NoChannels
      (destroyAllRpcEndpoints kernel env.leftovers) := by
    have hclear : Keeps NoChannels (modify fun c : Coprocessor => { c with rpcChannels := [] } :
        EStateM Fault Coprocessor PUnit) := fun _ _ => rfl
    refine Keeps.read.bind fun c => (hclose _).bind fun _ => ?_
    exact hclear.bind fun _ => (hclose _).bind fun _ => hleftovers _
  refine hdestroy.bind fun _ => ?_
  refine Keeps.read.bind fun c => ?_
  by_cases hnone : c.rpmsgCtrlFd = none
  · rw [if_pos hnone]
    cases env.opensCtrl with
    | true => exact hopen.bind fun fd => Keeps.modify (I := NoChannels) fun _ h => h
    | false => exact Keeps.raise _
  · rw [if_neg hnone]
    exact Keeps.ret ()

variable (kernel) in
theorem setUpChannels_names (h : Accounts c.descriptors (lost ++ c.owned)) (hno : c.names = [])
    (hopens : env.opensCtrl = true) :
    (AllUp env → ∃ t, (setUpChannels kernel env).run c = .ok () t ∧ t.names = endpointsUp env) ∧
      (¬ AllUp env → ∃ e t, (setUpChannels kernel env).run c = .error (.thrown e) t ∧
        t.names = endpointsUp env) := by
  obtain ⟨control, confd, hchannels, hcontrol, hcontrolName, hconfd, hconfdName⟩ :
      ∃ d d', kRpcChannels = [d, d'] ∧ d.endpoint = .control ∧ d.name = "pl.control" ∧
        d'.endpoint = .confd ∧ d'.name = "confd" := ⟨_, _, rfl, rfl, rfl, rfl, rfl⟩
  have hmem : control ∈ kRpcChannels := by simp [hchannels]
  have hmem' : confd ∈ kRpcChannels := by simp [hchannels]
  rw [setUpChannels, hchannels, List.forM_cons, endpointsUp]
  by_cases hup : env.setUp .control = .completes
  · obtain ⟨u, hrun, hnames, hu⟩ := initChannel_of_completes kernel hmem h (hcontrol ▸ hup)
    rw [hno, hcontrolName] at hnames
    rw [run_bind_of_ok hrun, List.forM_cons, if_pos ⟨hopens, hup⟩]
    by_cases hup' : env.setUp .confd = .completes
    · obtain ⟨t, hrun', hnames', -⟩ := initChannel_of_completes kernel hmem' hu (hconfd ▸ hup')
      rw [hnames, hconfdName] at hnames'
      rw [run_bind_of_ok hrun', if_pos hup']
      exact ⟨fun _ => ⟨t, rfl, hnames'⟩, fun hnot => absurd ⟨hopens, hup, hup'⟩ hnot⟩
    · obtain ⟨e, t, hrun', hnames'⟩ := initChannel_of_fails kernel hmem' hu (hconfd ▸ hup')
      rw [run_bind_of_error hrun', if_neg hup']
      exact ⟨fun hall => absurd hall.2.2 hup', fun _ => ⟨e, t, rfl, hnames'.trans hnames⟩⟩
  · obtain ⟨e, t, hrun, hnames⟩ := initChannel_of_fails kernel hmem h (hcontrol ▸ hup)
    rw [run_bind_of_error hrun, if_neg fun h => hup h.2]
    exact ⟨fun hall => absurd hall.2.1 hup, fun _ => ⟨e, t, rfl, hnames.trans hno⟩⟩

/-- On an object with no channel and no control device. -/
theorem initRpc_names (kernel : Allocator Nat) (env : Environment)
    (hctrl : c.rpmsgCtrlFd = none) (hno : NoChannels c) (h : Accounts c.descriptors c.owned) :
    (AllUp env → ∃ t, (initRpc kernel env).run c = .ok () t ∧ t.names = endpointsUp env) ∧
      (¬ AllUp env → ∃ e t, (initRpc kernel env).run c = .error (.thrown e) t ∧
        t.names = endpointsUp env) := by
  obtain ⟨u, lost, hdestroy, huctrl, hu, -⟩ :=
    destroyAllRpcEndpoints_run kernel env.leftovers h
  have hkeeps := keeps_noChannels_prepare kernel env
  by_cases hopens : env.opensCtrl = true
  · obtain ⟨v, hopen, hv⟩ := openCtrl_run_ok kernel (fun _ => hopens) hu
    have hprepare : (prepare kernel env).run c = .ok () v := (run_bind_of_ok hdestroy).trans hopen
    have hnames : v.names = [] := List.map_eq_nil_iff.mpr (hkeeps.of_ok hno hprepare)
    rw [initRpc, run_bind_of_ok hprepare]
    exact setUpChannels_names kernel hv hnames hopens
  · have hopen : (openCtrl kernel env.opensCtrl).run u
        = .error (.thrown (.systemError "open rpmsg_ctrl")) u := by
      rw [openCtrl, run_get_bind, run_ite, if_pos (huctrl.trans hctrl), if_neg hopens]
      rfl
    have hprepare : (prepare kernel env).run c
        = .error (.thrown (.systemError "open rpmsg_ctrl")) u := (run_bind_of_ok hdestroy).trans hopen
    have hnames : NoChannels u := by
      have hafter := hkeeps.stateAfter hno
      rwa [stateAfter_of_error hprepare] at hafter
    refine ⟨fun hall => absurd hall.1 hopens, fun _ => ⟨_, u, run_bind_of_error hprepare, ?_⟩⟩
    rw [endpointsUp, if_neg fun h => hopens h.1]
    exact List.map_eq_nil_iff.mpr hnames

end Channels

end Coprocessor

/-! ## `main` -/

/-- What becomes of the steps of `main`. -/
structure Outcomes where
  /-- What `sd_watchdog_enabled` returns. -/
  watchdog : Int
  directory : FileOutcome
  file : FileOutcome
  start : FileOutcome
  server : Except Exception Unit
  env : Environment
  /-- What comes out of the loop, once it ends. -/
  loop : Except Exception Unit
  stop : FileOutcome
  /-- The attempt of the destructor to stop what is running. -/
  destroy : FileOutcome

/-- The variables of `main`, and whether `lrpc` holds a server. -/
structure Process where
  manager : Manager
  lrpc : Bool

namespace Process

def entered : Process := ⟨.fresh, false⟩

def onManager {α : Type} (m : EStateM Fault Manager α) : EStateM Fault Process α := fun s =>
  match m.run s.manager with
  | .ok a manager => .ok a { s with manager := manager }
  | .error e manager => .error e { s with manager := manager }

/-- `Watchdog::Init`, whose variables only the timer of the watchdog looks at. -/
def initWatchdog (err : Int) : EStateM Fault Process Unit :=
  if err < 0 then throw (.thrown (.systemError "sd_watchdog_enabled")) else pure ()

/-- `lrpc = std::make_shared<RpcServer>()` -/
def makeServer (server : Except Exception Unit) : EStateM Fault Process Unit :=
  match server with
  | .ok () => modify fun s => { s with lrpc := true }
  | .error e => throw (.thrown e)

/-- `while(gRun) { lrpc->run(); }` -/
def runLoop (loop : Except Exception Unit) : EStateM Fault Process Unit :=
  match loop with
  | .ok () => pure ()
  | .error e => throw (.thrown e)

/-- The server is destroyed, if there is one, and the base with it: no handler
holds more than a weak pointer. -/
def resetServer : EStateM Fault Process Unit :=
  modify fun s =>
    if s.lrpc then
      { manager := { s.manager with freed := s.manager.freed ++ [.base] }, lrpc := false }
    else s

/-- The `try` block of the start. -/
def boot (kernel : Allocator Nat) (x : Outcomes) : EStateM Fault Process Unit := do
  onManager (Manager.loadFirmware kernel x.directory x.file "/tmp" "balls.elf")
  onManager (Manager.start kernel x.start)
  makeServer x.server
  onManager (Manager.initRpc kernel x.env)

/-- The variables are destroyed in the reverse order of their declaration. -/
def leave (kernel : Allocator Nat) (x : Outcomes) : EStateM Fault Process Unit := do
  resetServer
  onManager (Manager.destruct kernel x.destroy)

/-- `main`, with its exit code; after an exception that it does not catch no
variable is destroyed. -/
def main (kernel : Allocator Nat) (x : Outcomes) : EStateM Fault Process Nat := do
  initWatchdog x.watchdog
  match ← catching (boot kernel x) with
  | .error _ =>
      leave kernel x
      return 1
  | .ok () =>
      runLoop x.loop
      match ← catching (onManager (Manager.stop kernel x.stop)) with
      | .error _ =>
          leave kernel x
          return 1
      | .ok () =>
          onManager (Manager.destruct kernel x.destroy)
          resetServer
          return 0

end Process

/-- The coprocessor is started. -/
def Outcomes.Started (x : Outcomes) : Prop :=
  x.directory.Succeeds ∧ x.file.Succeeds ∧ x.start.Succeeds

/-- The server is made as well. -/
def Outcomes.Serves (x : Outcomes) : Prop := x.Started ∧ x.server = .ok ()

/-- The start succeeds. -/
def Outcomes.Booted (x : Outcomes) : Prop := x.Serves ∧ Coprocessor.AllUp x.env

/-- There is an exception outside the `try` blocks. -/
def Outcomes.Escapes (x : Outcomes) : Prop :=
  x.watchdog < 0 ∨ x.Booted ∧ ∃ e, x.loop = .error e

/-- The start and the stop succeed. -/
def Outcomes.Completes (x : Outcomes) : Prop := x.Booted ∧ x.stop.Succeeds

/-- Nothing is given back behind the base. -/
def EventsFirst (freed : List Freed) : Prop :=
  ∀ before after, freed = before ++ .base :: after → after = []

/-! ## How `main` starts -/

namespace Manager

section Start

variable {kernel : Allocator Nat} {s : Manager}

/-- Nothing but the management files was worked on. -/
structure OnFiles (s t : Manager) : Prop where
  freed : t.freed = s.freed
  channels : t.object.rpcChannels = s.object.rpcChannels
  ctrl : t.object.rpmsgCtrlFd = s.object.rpmsgCtrlFd
  owns : s.Owns → t.Owns
  tracks : s.Tracks → t.Tracks

theorem OnFiles.trans {t u : Manager} (h : s.OnFiles t) (h' : t.OnFiles u) : s.OnFiles u where
  freed := h'.freed.trans h.freed
  channels := h'.channels.trans h.channels
  ctrl := h'.ctrl.trans h.ctrl
  owns hs := h'.owns (h.owns hs)
  tracks hs := h'.tracks (h.tracks hs)

/-- A call that returns just when the writes succeed, and works on no more than
the files. -/
def Works (m : EStateM Fault Manager Unit) (succeeds : Prop) (s t : Manager) : Prop :=
  s.OnFiles t ∧ (succeeds → m.run s = .ok () t) ∧
    (¬ succeeds → ∃ e, m.run s = .error (.thrown e) t)

/-- From what the call comes to either way. -/
theorem works_of_run {m : EStateM Fault Manager Unit} {succeeds : Prop} [Decidable succeeds]
    {ops : List (Use Nat)} {written : List (String × String)} {state : State}
    (hok : succeeds → m.run s
      = .ok () { s.withDescriptors ops with written := written, coprocState := state })
    (herror : ¬ succeeds → ∃ e, m.run s = .error (.thrown e) (s.withDescriptors ops))
    (howns : s.Owns → (stateAfter m s).Owns) (htracks : s.Tracks → (stateAfter m s).Tracks) :
    ∃ t, Works m succeeds s t ∧ t.coprocState = if succeeds then state else s.coprocState := by
  by_cases h : succeeds
  · rw [stateAfter_of_ok (hok h)] at howns htracks
    refine ⟨{ s.withDescriptors ops with written := written, coprocState := state }, ⟨?_, hok, ?_⟩,
      (if_pos h).symm⟩
    · exact ⟨rfl, rfl, rfl, howns, htracks⟩
    · exact fun hnot => absurd h hnot
  · obtain ⟨e, he⟩ := herror h
    rw [stateAfter_of_error he] at howns htracks
    refine ⟨s.withDescriptors ops, ⟨?_, ?_, herror⟩, (if_neg h).symm⟩
    · exact ⟨rfl, rfl, rfl, howns, htracks⟩
    · exact fun hs => absurd hs h

variable (kernel) in
theorem writeFile_works (s : Manager) (o : FileOutcome) (base : String) {name : String}
    (value : String) (hname : name ≠ "") (hstate : base ++ name ≠ kRprocSysfsBase ++ "state") :
    ∃ t, Works (writeFile kernel o base name value) o.Succeeds s t ∧
      t.coprocState = s.coprocState := by
  obtain ⟨ops, hops, hok, herror⟩ := writeFile_run kernel s o base value hname
  obtain ⟨t, hworks, hafter⟩ := works_of_run hok herror (fun hs => owns_writeFile hs hname)
    (fun hs => tracks_writeFile hs hname hstate)
  exact ⟨t, hworks, hafter.trans (ite_self _)⟩

variable (kernel) in
theorem loadFirmware_works (s : Manager) (directory file : FileOutcome)
    (parentPath filename : String) :
    ∃ t, Works (Manager.loadFirmware kernel directory file parentPath filename)
      (directory.Succeeds ∧ file.Succeeds) s t ∧ t.coprocState = s.coprocState := by
  have hpath : "path" ≠ "" := by decide
  have hfirmware : "firmware" ≠ "" := by decide
  obtain ⟨u, ⟨hu, hok, herror⟩, hstate⟩ :=
    writeFile_works kernel s directory kFirmwareSysfsBase parentPath hpath (by decide)
  obtain ⟨t, ⟨ht, hok', herror'⟩, hstate'⟩ :=
    writeFile_works kernel u file kRprocSysfsBase filename hfirmware (by decide)
  by_cases h : directory.Succeeds
  · refine ⟨t, ⟨hu.trans ht, fun hboth => ?_, fun hnot => ?_⟩, hstate'.trans hstate⟩
    · exact (run_bind_of_ok (hok h)).trans (hok' hboth.2)
    · obtain ⟨e, he⟩ := herror' fun hfile => hnot ⟨h, hfile⟩
      exact ⟨e, (run_bind_of_ok (hok h)).trans he⟩
  · obtain ⟨e, he⟩ := herror h
    exact ⟨u, ⟨hu, fun hboth => absurd hboth.1 h, fun _ => ⟨e, run_bind_of_error he⟩⟩, hstate⟩

variable (kernel) in
theorem start_works (s : Manager) (o : FileOutcome) :
    ∃ t, Works (Manager.start kernel o) o.Succeeds s t ∧
      t.coprocState = if o.Succeeds then .running else s.coprocState := by
  obtain ⟨ops, hops, hok, herror⟩ := start_run kernel s o
  exact works_of_run hok herror (fun hs => owns_start hs o) (fun hs => tracks_start hs o)

variable (kernel) in
theorem stop_works (s : Manager) (o : FileOutcome) :
    ∃ t, Works (Manager.stop kernel o) o.Succeeds s t ∧
      t.coprocState = if o.Succeeds then .stopped else s.coprocState := by
  obtain ⟨ops, hops, hok, herror⟩ := stop_run kernel s o
  exact works_of_run hok herror (fun hs => owns_stop hs o) (fun hs => tracks_stop hs o)

end Start

end Manager

namespace Process

section Main

variable {kernel : Allocator Nat} {x : Outcomes} {s t : Process}

theorem onManager_run_ok {α : Type} {m : EStateM Fault Manager α} {a : α} {manager : Manager}
    (h : m.run s.manager = .ok a manager) :
    (onManager m).run s = .ok a { s with manager := manager } := by
  simp only [onManager, EStateM.run] at h ⊢
  rw [h]

theorem onManager_run_error {α : Type} {m : EStateM Fault Manager α} {e : Fault}
    {manager : Manager} (h : m.run s.manager = .error e manager) :
    (onManager m).run s = .error e { s with manager := manager } := by
  simp only [onManager, EStateM.run] at h ⊢
  rw [h]

/-- What the start has come to. -/
structure Booting (x : Outcomes) (t : Process) : Prop where
  tracks : t.manager.Tracks
  running : t.manager.coprocState = .running ↔ x.Started
  lrpc : t.lrpc = true ↔ x.Serves
  freed : t.manager.freed = []
  names_of_serves : x.Serves → t.manager.object.names = Coprocessor.endpointsUp x.env
  names_of_not_serves : ¬ x.Serves → t.manager.object.names = []

variable (kernel) in
/-- The channels are set up on a coprocessor that was just started. -/
theorem initRpc_run {v : Manager} (env : Environment) (hv : Manager.fresh.OnFiles v) :
    ∃ t : Manager, t.freed = [] ∧ t.written = v.written ∧ t.coprocState = v.coprocState ∧
      t.object.names = Coprocessor.endpointsUp env ∧
      (Coprocessor.AllUp env → (Manager.initRpc kernel env).run v = .ok () t) ∧
      (¬ Coprocessor.AllUp env →
        ∃ e, (Manager.initRpc kernel env).run v = .error (.thrown e) t) := by
  have hchannels : v.object.rpcChannels = [] := hv.channels
  have hfree : (Manager.freeHandlers v.object.rpcChannels).run v = .ok () v := by
    rw [hchannels]
    show EStateM.Result.ok () { v with freed := v.freed ++ [] } = _
    rw [List.append_nil]
  have hrun : (Manager.initRpc kernel env).run v
      = (Manager.onObject (Coprocessor.initRpc kernel env)).run v := by
    rw [Manager.initRpc, run_get_bind, run_bind_of_ok hfree]
  obtain ⟨hall, hnot⟩ := Coprocessor.initRpc_names kernel env hv.ctrl hchannels
    (hv.owns accounts_nil)
  rw [hrun]
  by_cases hup : Coprocessor.AllUp env
  · obtain ⟨t, ht, hnames⟩ := hall hup
    refine ⟨{ v with object := t }, hv.freed, rfl, rfl, hnames, fun _ => ?_, absurd hup⟩
    simp only [Manager.onObject, EStateM.run] at ht ⊢
    rw [ht]
  · obtain ⟨e, t, ht, hnames⟩ := hnot hup
    refine ⟨{ v with object := t }, hv.freed, rfl, rfl, hnames, fun h => absurd h hup, fun _ => ⟨e, ?_⟩⟩
    simp only [Manager.onObject, EStateM.run] at ht ⊢
    rw [ht]

/-- No server yet. -/
theorem booting_of_onFiles {u : Manager} (hu : Manager.fresh.OnFiles u)
    (hrunning : u.coprocState = .running ↔ x.Started) (hserves : ¬ x.Serves) :
    Booting x ⟨u, false⟩ where
  tracks := hu.tracks (iff_of_false (by decide) nofun)
  running := hrunning
  lrpc := iff_of_false Bool.false_ne_true hserves
  freed := hu.freed
  names_of_serves h := absurd h hserves
  names_of_not_serves _ := List.map_eq_nil_iff.mpr hu.channels

theorem boot_run (kernel : Allocator Nat) (x : Outcomes) :
    ∃ t, Booting x t ∧ (x.Booted → (boot kernel x).run entered = .ok () t) ∧
      (¬ x.Booted → ∃ e, (boot kernel x).run entered = .error (.thrown e) t) := by
  obtain ⟨u, ⟨hu, hload, hload'⟩, hustate⟩ :=
    Manager.loadFirmware_works kernel .fresh x.directory x.file "/tmp" "balls.elf"
  obtain ⟨v, ⟨hv, hstart, hstart'⟩, hvstate⟩ := Manager.start_works kernel u x.start
  have hnot : ∀ {t : Process}, Booting x t → ¬ x.Booted →
      (∃ e, (boot kernel x).run entered = .error (.thrown e) t) →
      ∃ t, Booting x t ∧ (x.Booted → (boot kernel x).run entered = .ok () t) ∧
        (¬ x.Booted → ∃ e, (boot kernel x).run entered = .error (.thrown e) t) :=
    fun hbooting hbooted he => ⟨_, hbooting, fun h => absurd h hbooted, fun _ => he⟩
  by_cases hloads : x.directory.Succeeds ∧ x.file.Succeeds
  · have hrunload : (onManager (Manager.loadFirmware kernel x.directory x.file "/tmp"
        "balls.elf")).run entered = .ok () ⟨u, false⟩ := onManager_run_ok (hload hloads)
    by_cases hstarts : x.start.Succeeds
    · have hstarted : x.Started := ⟨hloads.1, hloads.2, hstarts⟩
      have hrunning : v.coprocState = .running := hvstate.trans (if_pos hstarts)
      have hrunstart : (onManager (Manager.start kernel x.start)).run ⟨u, false⟩
          = .ok () ⟨v, false⟩ := onManager_run_ok (hstart hstarts)
      cases hserver : x.server with
      | error e =>
          have hserves : ¬ x.Serves := fun h => nomatch hserver.symm.trans h.2
          refine hnot (booting_of_onFiles (hu.trans hv) (iff_of_true hrunning hstarted) hserves)
            (fun h => hserves h.1) ⟨e, ?_⟩
          rw [boot, run_bind_of_ok hrunload, run_bind_of_ok hrunstart, hserver]
          rfl
      | ok _ =>
          have hserves : x.Serves := ⟨hstarted, hserver⟩
          obtain ⟨t, hfreed, hwritten, hstate, hnames, hok, herror⟩ :=
            initRpc_run kernel x.env (hu.trans hv)
          have hserve : (makeServer x.server).run ⟨v, false⟩ = .ok () ⟨v, true⟩ := by
            rw [hserver]
            rfl
          have hbooting : Booting x ⟨t, true⟩ :=
            { tracks := by
                rw [Manager.Tracks, hwritten, hstate]
                exact (hu.trans hv).tracks (iff_of_false (by decide) nofun)
              running := iff_of_true (hstate.trans hrunning) hstarted
              lrpc := iff_of_true rfl hserves
              freed := hfreed
              names_of_serves := fun _ => hnames
              names_of_not_serves := fun h => absurd hserves h }
          have hboot : (boot kernel x).run entered
              = (onManager (Manager.initRpc kernel x.env)).run ⟨v, true⟩ := by
            rw [boot, run_bind_of_ok hrunload, run_bind_of_ok hrunstart, run_bind_of_ok hserve]
          refine ⟨_, hbooting, fun h => ?_, fun h => ?_⟩
          · exact hboot.trans (onManager_run_ok (hok h.2))
          · obtain ⟨e, he⟩ := herror fun hup => h ⟨hserves, hup⟩
            exact ⟨e, hboot.trans (onManager_run_error he)⟩
    · have hstarted : ¬ x.Started := fun h => hstarts h.2.2
      have hrunning : v.coprocState ≠ .running := by
        rw [hvstate, if_neg hstarts, hustate]
        nofun
      obtain ⟨e, he⟩ := hstart' hstarts
      refine hnot (booting_of_onFiles (hu.trans hv) (iff_of_false hrunning hstarted)
        fun h => hstarted h.1) (fun h => hstarted h.1.1) ⟨e, ?_⟩
      rw [boot, run_bind_of_ok hrunload]
      exact run_bind_of_error (onManager_run_error he)
  · have hstarted : ¬ x.Started := fun h => hloads ⟨h.1, h.2.1⟩
    have hrunning : u.coprocState ≠ .running := by
      rw [hustate]
      nofun
    obtain ⟨e, he⟩ := hload' hloads
    exact hnot (booting_of_onFiles hu (iff_of_false hrunning hstarted) fun h => hstarted h.1)
      (fun h => hstarted h.1.1) ⟨e, run_bind_of_error (onManager_run_error he)⟩

/-! ## How `main` ends -/

/-- The handlers of these channels, last one first. -/
def events (names : List String) : List Freed := names.reverse.map Freed.events

theorem base_not_mem_events (names : List String) : Freed.base ∉ events names := by
  intro h
  obtain ⟨name, -, hname⟩ := List.mem_map.mp h
  cases hname

theorem eventsFirst_of_not_mem {freed : List Freed} (h : Freed.base ∉ freed) :
    EventsFirst freed := by
  rintro before after rfl
  exact absurd (List.mem_append_right before List.mem_cons_self) h

/-- The base last. -/
theorem eventsFirst_append_base {freed : List Freed} (h : Freed.base ∉ freed) :
    EventsFirst (freed ++ [.base]) := by
  intro before after hsplit
  rcases List.eq_nil_or_concat after with rfl | ⟨init, last, rfl⟩
  · rfl
  · rw [List.concat_eq_append, ← List.cons_append, ← List.append_assoc] at hsplit
    have hfront := (List.append_inj' hsplit rfl).1
    exact absurd (hfront ▸ List.mem_append_right before List.mem_cons_self) h

/-- The base first. -/
theorem eventsFirst_base_events (names : List String) :
    EventsFirst (.base :: events names) ↔ names = [] := by
  constructor
  · intro h
    have hevents := h [] (events names) rfl
    exact List.reverse_eq_nil_iff.mp (List.map_eq_nil_iff.mp hevents)
  · rintro rfl
    exact eventsFirst_append_base List.not_mem_nil

theorem destruct_events (kernel : Allocator Nat) (o : FileOutcome) (hs : s.manager.Tracks) :
    ∃ t, (onManager (Manager.destruct kernel o)).run s = .ok () t ∧ t.lrpc = s.lrpc ∧
      t.manager.freed = s.manager.freed ++ events s.manager.object.names ∧
      ((Remoteproc.after t.manager.written).running = true
        ↔ s.manager.coprocState = .running ∧ ¬ o.Succeeds) := by
  obtain ⟨t, hrun, -, hfreed, hrunning⟩ := Manager.destruct_run kernel hs o
  refine ⟨⟨t, s.lrpc⟩, onManager_run_ok hrun, rfl, ?_, hrunning⟩
  rw [hfreed, events, Coprocessor.names, ← List.map_reverse, List.map_map]
  rfl

/-- The way out after a failure. -/
theorem leave_run (kernel : Allocator Nat) (x : Outcomes) (hs : s.manager.Tracks) :
    ∃ t, (leave kernel x).run s = .ok () t ∧
      t.manager.freed = (s.manager.freed ++ if s.lrpc then [.base] else [])
        ++ events s.manager.object.names ∧
      ((Remoteproc.after t.manager.written).running = true
        ↔ s.manager.coprocState = .running ∧ ¬ x.destroy.Succeeds) := by
  have hreset : resetServer.run s = .ok () ⟨{ s.manager with
      freed := s.manager.freed ++ if s.lrpc then [.base] else [] }, false⟩ := by
    rcases s with ⟨manager, _ | _⟩
    · show EStateM.Result.ok () (⟨manager, false⟩ : Process) = _
      rw [if_neg Bool.false_ne_true, List.append_nil]
    · rfl
  obtain ⟨t, hdestruct, -, hfreed, hrunning⟩ := destruct_events (s := ⟨{ s.manager with
      freed := s.manager.freed ++ if s.lrpc then [.base] else [] }, false⟩) kernel x.destroy hs
  exact ⟨t, (run_bind_of_ok hreset).trans hdestruct, hfreed, hrunning⟩

/-- The exit code, whether the coprocessor runs on, and whether all handlers go
before the base of their events. -/
structure Ends (x : Outcomes) (code : Nat) (t : Process) : Prop where
  code_of_completes : x.Completes → code = 0
  code_of_not_completes : ¬ x.Completes → code = 1
  running : (Remoteproc.after t.manager.written).running = true
    ↔ x.Started ∧ ¬ x.destroy.Succeeds ∧ ¬ x.Completes
  eventsFirst : EventsFirst t.manager.freed
    ↔ (x.Serves → x.Completes ∨ Coprocessor.endpointsUp x.env = [])

/-- After a failure the server goes first. -/
theorem ends_leave (kernel : Allocator Nat) (hs : Booting x s) (hx : ¬ x.Completes) :
    ∃ t, (leave kernel x).run s = .ok () t ∧ Ends x 1 t := by
  obtain ⟨t, hrun, hfreed, hrunning⟩ := leave_run kernel x hs.tracks
  refine ⟨t, hrun, fun h => absurd h hx, fun _ => rfl, ?_, ?_⟩
  · rw [hrunning, hs.running]
    exact ⟨fun h => ⟨h.1, h.2, hx⟩, fun h => ⟨h.1, h.2.1⟩⟩
  · rw [hfreed, hs.freed, List.nil_append]
    by_cases hserves : x.Serves
    · rw [if_pos (hs.lrpc.mpr hserves), hs.names_of_serves hserves, List.singleton_append,
        eventsFirst_base_events]
      exact ⟨fun h _ => .inr h, fun h => (h hserves).resolve_left hx⟩
    · rw [if_neg (mt hs.lrpc.mp hserves), hs.names_of_not_serves hserves, List.nil_append]
      exact iff_of_true (eventsFirst_of_not_mem (base_not_mem_events [])) fun h => absurd h hserves

theorem initWatchdog_run {err : Int} (h : ¬ err < 0) : (initWatchdog err).run s = .ok () s := by
  rw [initWatchdog, if_neg h]
  rfl

/-- After a start that succeeds come the loop and the stop. -/
theorem main_run_of_boot {u : Process} (hwatchdog : ¬ x.watchdog < 0)
    (hboot : (boot kernel x).run entered = .ok () u) :
    (main kernel x).run entered = (do
      runLoop x.loop
      match ← catching (onManager (Manager.stop kernel x.stop)) with
      | .error _ => do
          leave kernel x
          return 1
      | .ok () => do
          onManager (Manager.destruct kernel x.destroy)
          resetServer
          return 0).run u := by
  rw [main, run_bind_of_ok (initWatchdog_run hwatchdog), run_bind_of_ok (catching_run_ok hboot)]

/-- The stop succeeds, and the server goes last. -/
theorem ends_stop {u : Process} (kernel : Allocator Nat) (hu : Booting x u)
    (hcompletes : x.Completes) :
    ∃ v t, (onManager (Manager.stop kernel x.stop)).run u = .ok () v ∧
      (do
        onManager (Manager.destruct kernel x.destroy)
        resetServer
        return 0).run v = .ok 0 t ∧
      Ends x 0 t := by
  obtain ⟨v, ⟨hfiles, hstop, -⟩, hstate⟩ := Manager.stop_works kernel u.manager x.stop
  have hrunstop := onManager_run_ok (s := u) (hstop hcompletes.2)
  obtain ⟨t, hdestruct, hlrpc, hfreed, hrunning⟩ :=
    destruct_events (s := ⟨v, u.lrpc⟩) kernel x.destroy (hfiles.tracks hu.tracks)
  have hserver : t.lrpc = true := hlrpc.trans (hu.lrpc.mpr hcompletes.1.1)
  refine ⟨_, ⟨{ t.manager with freed := t.manager.freed ++ [.base] }, false⟩, hrunstop, ?_,
    fun _ => rfl, fun h => absurd hcompletes h, ?_, ?_⟩
  · rw [run_bind_of_ok hdestruct]
    show EStateM.Result.ok 0 (if t.lrpc = true then _ else t) = _
    rw [if_pos hserver]
  · refine hrunning.trans (iff_of_false ?_ fun h => h.2.2 hcompletes)
    rw [show v.coprocState = .stopped from hstate.trans (if_pos hcompletes.2)]
    nofun
  · refine iff_of_true ?_ fun _ => .inl hcompletes
    rw [hfreed, show v.freed = [] from hfiles.freed.trans hu.freed, List.nil_append]
    exact eventsFirst_append_base (base_not_mem_events _)

/-- The stop fails. -/
theorem ends_stop_fails {u : Process} (kernel : Allocator Nat) (hu : Booting x u)
    (hbooted : x.Booted) (hstops : ¬ x.stop.Succeeds) :
    ∃ e v t, (onManager (Manager.stop kernel x.stop)).run u = .error (.thrown e) v ∧
      (leave kernel x).run v = .ok () t ∧ Ends x 1 t := by
  obtain ⟨v, ⟨hfiles, -, hstop⟩, hstate⟩ := Manager.stop_works kernel u.manager x.stop
  obtain ⟨e, he⟩ := hstop hstops
  have hv : Booting x ⟨v, u.lrpc⟩ :=
    { tracks := hfiles.tracks hu.tracks
      running := by
        rw [hstate, if_neg hstops]
        exact hu.running
      lrpc := hu.lrpc
      freed := hfiles.freed.trans hu.freed
      names_of_serves := fun _ => by
        rw [Coprocessor.names, hfiles.channels]
        exact hu.names_of_serves hbooted.1
      names_of_not_serves := fun h => absurd hbooted.1 h }
  obtain ⟨t, hleave, ht⟩ := ends_leave kernel hv fun h => hstops h.2
  exact ⟨e, _, t, onManager_run_error he, hleave, ht⟩

/-- Unless an exception escapes, `main` returns. -/
theorem main_returns (kernel : Allocator Nat) (x : Outcomes) (hescapes : ¬ x.Escapes) :
    ∃ code t, (main kernel x).run entered = .ok code t ∧ Ends x code t := by
  have hwatchdog : ¬ x.watchdog < 0 := fun h => hescapes (.inl h)
  obtain ⟨u, hu, hok, herror⟩ := boot_run kernel x
  by_cases hbooted : x.Booted
  · have hloop : (runLoop x.loop).run u = .ok () u := by
      cases hx : x.loop with
      | ok _ => rfl
      | error e => exact absurd (.inr ⟨hbooted, e, hx⟩) hescapes
    by_cases hstops : x.stop.Succeeds
    · obtain ⟨v, t, hstop, hleave, ht⟩ := ends_stop kernel hu ⟨hbooted, hstops⟩
      refine ⟨0, t, ?_, ht⟩
      rw [main_run_of_boot hwatchdog (hok hbooted), run_bind_of_ok hloop,
        run_bind_of_ok (catching_run_ok hstop)]
      exact hleave
    · obtain ⟨e, v, t, hstop, hleave, ht⟩ := ends_stop_fails kernel hu hbooted hstops
      refine ⟨1, t, ?_, ht⟩
      rw [main_run_of_boot hwatchdog (hok hbooted), run_bind_of_ok hloop,
        run_bind_of_ok (catching_run_thrown hstop)]
      exact run_bind_of_ok hleave
  · obtain ⟨e, he⟩ := herror hbooted
    obtain ⟨t, hleave, ht⟩ := ends_leave kernel hu fun h => hbooted h.1
    refine ⟨1, t, ?_, ht⟩
    rw [main, run_bind_of_ok (initWatchdog_run hwatchdog), run_bind_of_ok (catching_run_thrown he)]
    exact run_bind_of_ok hleave

/-- What escapes from the loop leaves the coprocessor running. -/
theorem main_escapes (kernel : Allocator Nat) (x : Outcomes) (hescapes : x.Escapes) :
    ∃ e t, (main kernel x).run entered = .error (.thrown e) t ∧
      ((Remoteproc.after t.manager.written).running = true ↔ ¬ x.watchdog < 0) := by
  by_cases hwatchdog : x.watchdog < 0
  · refine ⟨.systemError "sd_watchdog_enabled", entered, ?_, ?_⟩
    · rw [main, initWatchdog, if_pos hwatchdog]
      rfl
    · exact iff_of_false (by decide) fun h => h hwatchdog
  · obtain ⟨hbooted, e, he⟩ := hescapes.resolve_left hwatchdog
    obtain ⟨u, hu, hok, -⟩ := boot_run kernel x
    have hrunning : u.manager.coprocState = .running := hu.running.mpr hbooted.1.1
    refine ⟨e, u, ?_, iff_of_true (hu.tracks.mpr hrunning) hwatchdog⟩
    rw [main_run_of_boot hwatchdog (hok hbooted), he]
    exact run_bind_of_error rfl

/-- If an exception escapes the process ends at once, and the coprocessor runs on
unless it is that of the watchdog.  Otherwise `main` returns; the coprocessor is
left running just when it was started and no attempt to stop it succeeded; the
server is gone before the handlers that came up just when it served and either
the start or the stop failed. -/
theorem main_run (kernel : Allocator Nat) (x : Outcomes) :
    (x.Escapes → ∃ e t, (main kernel x).run entered = .error (.thrown e) t ∧
      ((Remoteproc.after t.manager.written).running = true ↔ ¬ x.watchdog < 0)) ∧
    (¬ x.Escapes → ∃ code t, (main kernel x).run entered = .ok code t ∧ Ends x code t) :=
  ⟨main_escapes kernel x, main_returns kernel x⟩

end Main

end Process

end Coproc
