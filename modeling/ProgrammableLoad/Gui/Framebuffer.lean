/-
# `Gui.Framebuffer` — page flips and the callbacks that draw

The framebuffer owns two buffers, numbered 0 and 1.  `requestFbFlip` asks the
kernel to show one of them from the next vertical blank on and remembers it in
`currentFb`; when the kernel has switched, it delivers an event, and
`PageFlipHandler` hands a buffer to the swap callbacks, which draw into it, and
asks for the next flip.

The kernel's side is `Display`: the buffer on screen, the flip that waits for
the next vertical blank, and a record of what was done to the buffers.  A flip
request may be refused; the event handler logs the exception and goes on, with
no flip waiting and so no further event.
-/
import ProgrammableLoad.Cpp.Fault

namespace Gui

open Cpp Program

/-- Something done to the buffers: a callback drew into one, with `onScreen`
the buffer scanned out at that moment, or a flip to one was requested. -/
inductive Access where
  | draw (index onScreen : Fin 2)
  | flip (index : Fin 2)
deriving DecidableEq

structure Display where
  scanout : Fin 2
  pending : Option (Fin 2)
  accesses : List Access

/-- The members of the framebuffer that take part in flipping. -/
structure Framebuffer (Cb : Type) where
  currentFb : Fin 2
  backbuffer : Fin 2
  swapCallbacks : AList fun _ : BitVec 32 => Cb
  vblankCallbacks : AList fun _ : BitVec 32 => Cb
  nextCallbackToken : BitVec 32

structure System (Cb : Type) where
  fb : Framebuffer Cb
  display : Display

variable {Cb : Type}

/-! ## Flipping -/

/-- `requestFbFlip(index)`; `flipOk` is whether the kernel accepts. -/
def requestFbFlip (index : Fin 2) (flipOk : Bool) : EStateM Fault (System Cb) Unit := do
  modify fun s => { s with
    display.accesses := s.display.accesses ++ [.flip index] }
  if flipOk && (← get).display.pending.isNone then
    modify fun s => { s with display.pending := some index }
    modify fun s => { s with fb.currentFb := index }
  else
    throw (.thrown (.systemError "drmModePageFlip"))

/-- A swap callback: it copies the screen's contents into the buffer. -/
def swapCallback (fbIndex : Fin 2) : EStateM Fault (System Cb) Unit :=
  modify fun s => { s with
    display.accesses := s.display.accesses ++ [.draw fbIndex s.display.scanout] }

/-- The two tables of callbacks. -/
inductive Kind where
  | swap
  | vblank
deriving DecidableEq

namespace Framebuffer

def callbacks (fb : Framebuffer Cb) : Kind → AList fun _ : BitVec 32 => Cb
  | .swap => fb.swapCallbacks
  | .vblank => fb.vblankCallbacks

/-- The buffer that the callbacks are called with. -/
def index (fb : Framebuffer Cb) : Kind → Fin 2
  | .swap => if fb.currentFb ≠ 0 then 1 else 0
  | .vblank => fb.backbuffer

/-- The calls of the loop over a table, in its order: under which token, of what,
with which buffer. -/
def calls (fb : Framebuffer Cb) (kind : Kind) : List (BitVec 32 × Cb × Fin 2) :=
  (fb.callbacks kind).entries.map fun e => (e.1, e.2, fb.index kind)

end Framebuffer

def pageFlipHandler (flipOk : Bool) : EStateM Fault (System Cb) Unit := do
  let fb := (← get).fb
  modify fun s => { s with fb.backbuffer := fb.index .swap }
  forM (fb.calls .swap) fun call => swapCallback call.2.2
  requestFbFlip (← get).fb.backbuffer flipOk

/-- `VBlankHandler`, with what the callbacks do; the kernel sends its event only
to those who ask for it, and nobody does. -/
def vblankHandler (callback : Cb → Fin 2 → EStateM Fault (System Cb) Unit) :
    EStateM Fault (System Cb) Unit := do
  forM ((← get).fb.calls .vblank) fun call => callback call.2.1 call.2.2

/-- All calls of a page flip are with the same buffer. -/
theorem forM_calls_swap (fb : Framebuffer Cb) :
    (forM (fb.calls .swap) fun call => swapCallback call.2.2 : EStateM Fault (System Cb) Unit)
      = forM fb.swapCallbacks.entries fun _ =>
          swapCallback (if fb.currentFb ≠ 0 then 1 else 0) := by
  rw [Framebuffer.calls, List.forM_map]
  rfl

/-- A vertical blank event goes to every callback for it, with the buffer that
the event found. -/
theorem vblankHandler_run (callback : Cb → Fin 2 → EStateM Fault (System Cb) Unit)
    (s : System Cb) :
    (vblankHandler callback).run s
      = (forM s.fb.vblankCallbacks.entries fun e => callback e.2 s.fb.backbuffer).run s := by
  rw [vblankHandler, run_get_bind, Framebuffer.calls, List.forM_map]
  rfl

/-- A vertical blank: a waiting flip takes effect, and its event is handled. -/
def verticalBlank (flipOk : Bool) : EStateM Fault (System Cb) Unit := do
  match (← get).display.pending with
  | none => pure ()
  | some index =>
      modify fun s => { s with
        display.scanout := index
        display.pending := none }
      let _ ← catching (pageFlipHandler flipOk)

/-! ## Construction -/

/-- The members before `initKms`, with buffer 0 put on screen by the mode set. -/
def created : System Cb where
  fb := ⟨0, 0, ∅, ∅, 0⟩
  display := ⟨0, none, []⟩

/-- `initKms`, from the point where both buffers exist. -/
def initKms : EStateM Fault (System Cb) Unit := requestFbFlip 1 true

/-- The framebuffer as its constructor leaves it. -/
def initial : System Cb where
  fb := ⟨1, 0, ∅, ∅, 0⟩
  display := ⟨0, some 1, [.flip 1]⟩

theorem initKms_run : (initKms : EStateM Fault (System Cb) Unit).run created
    = .ok () initial := by
  simp [initKms, requestFbFlip, created, initial]

/-! ## Callback registration -/

/-- `do { token = ++nextCallbackToken; } while(!token);` -/
def takeToken : EStateM Fault (System Cb) (BitVec 32) := do
  let first := (← get).fb.nextCallbackToken + 1
  let token := if first = 0 then first + 1 else first
  modify fun s => { s with fb.nextCallbackToken := token }
  pure token

/-- `std::unordered_map::emplace`: keeps the entry that is already there. -/
def emplace (callbacks : AList fun _ : BitVec 32 => Cb) (token : BitVec 32) (cb : Cb) :
    AList fun _ : BitVec 32 => Cb :=
  if token ∈ callbacks then callbacks else callbacks.insert token cb

def addSwapCallback (cb : Cb) : EStateM Fault (System Cb) (BitVec 32) := do
  let token ← takeToken
  modify fun s => { s with fb.swapCallbacks := emplace s.fb.swapCallbacks token cb }
  pure token

def addVBlankCallback (cb : Cb) : EStateM Fault (System Cb) (BitVec 32) := do
  let token ← takeToken
  modify fun s => { s with fb.vblankCallbacks := emplace s.fb.vblankCallbacks token cb }
  pure token

def removeSwapCallback (token : BitVec 32) : EStateM Fault (System Cb) Unit :=
  modify fun s => { s with fb.swapCallbacks := s.fb.swapCallbacks.erase token }

def removeVBlankCallback (token : BitVec 32) : EStateM Fault (System Cb) Unit :=
  modify fun s => { s with fb.vblankCallbacks := s.fb.vblankCallbacks.erase token }

/-! ## The machine -/

/-- What can happen to a constructed framebuffer. -/
inductive Event (Cb : Type) where
  | verticalBlank (flipOk : Bool)
  | addSwapCallback (cb : Cb)
  | addVBlankCallback (cb : Cb)
  | removeSwapCallback (token : BitVec 32)
  | removeVBlankCallback (token : BitVec 32)

/-- One event; the answer is the token of a registration. -/
def step : Event Cb → EStateM Fault (System Cb) (Option (BitVec 32))
  | .verticalBlank flipOk => do
      verticalBlank flipOk
      return none
  | .addSwapCallback cb => return some (← addSwapCallback cb)
  | .addVBlankCallback cb => return some (← addVBlankCallback cb)
  | .removeSwapCallback token => do
      removeSwapCallback token
      return none
  | .removeVBlankCallback token => do
      removeVBlankCallback token
      return none

end Gui
