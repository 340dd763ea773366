/-
# `Splash.Drawing` — which elements of the screen are drawn again

The splash screen has four elements.  A setter marks the element it changes,
`draw` draws the marked ones, and the main loop calls `draw` after an event if
there is a mark.  `draw` takes the marks away from three of the elements; that
of the banner it sets once more.

The picture does not suffer, `picture_after_draw`.  But the banner is drawn
with everything else from then on, `marks_after`, and the drawer is never
clean, so that the main loop draws after every event.
-/
import ProgrammableLoad.Splash.RpcListener

namespace Splash

open Cpp Program

/-! ## The drawer -/

inductive Element where
  | banner
  | progressBar
  | progressString
  | version
deriving DecidableEq

/-- In the order in which they are drawn. -/
def Element.all : List Element := [.banner, .progressBar, .progressString, .version]

/-- What the regions of the elements show, in front of the background. -/
structure Picture where
  banner : List Byte
  progressBar : Option (BitVec 64)
  progressString : List Byte
  version : List Byte

def Picture.background : Picture := ⟨[], none, [], []⟩

/-- The surface, with a record of the elements drawn on it. -/
structure Surface where
  picture : Picture
  drawn : List Element

/-- The drawer with the elements that no message changes. -/
structure FullDrawer extends Drawer where
  banner : List Byte
  bannerDirty : Bool
  versionString : List Byte
  versionDirty : Bool
  surface : Surface

namespace FullDrawer

/-- The members as they are initialised, on a cleared surface. -/
def initial : FullDrawer where
  toDrawer := .initial
  banner := ascii "Programmable Load"
  bannerDirty := true
  versionString := []
  versionDirty := false
  surface := ⟨.background, []⟩

def setProgress (d : FullDrawer) (newProgress : BitVec 64) : FullDrawer :=
  { d with toDrawer := d.toDrawer.setProgress newProgress }

def setProgressString (d : FullDrawer) (newProgressString : List Byte) : FullDrawer :=
  { d with toDrawer := d.toDrawer.setProgressString newProgressString }

def setVersion (d : FullDrawer) (newVersion : List Byte) : FullDrawer :=
  { d with versionString := newVersion, versionDirty := true }

def isDirty (d : FullDrawer) : Bool :=
  d.bannerDirty || d.progressDirty || d.progressStringDirty || d.versionDirty

/-- The background covers everything. -/
def drawBackground (d : FullDrawer) : FullDrawer :=
  { d with surface.picture := .background }

def drawBanner (d : FullDrawer) : FullDrawer :=
  { d with
    surface.picture.banner := d.banner
    surface.drawn := d.surface.drawn ++ [.banner] }

def drawProgressBar (d : FullDrawer) : FullDrawer :=
  { d with
    surface.picture.progressBar := some d.progress
    surface.drawn := d.surface.drawn ++ [.progressBar] }

def drawProgressString (d : FullDrawer) : FullDrawer :=
  { d with
    surface.picture.progressString := d.progressString
    surface.drawn := d.surface.drawn ++ [.progressString] }

/-- An empty text shows the background. -/
def drawVersionStrings (d : FullDrawer) : FullDrawer :=
  { d with
    surface.picture.version := d.versionString
    surface.drawn := d.surface.drawn ++ [.version] }

def draw (d : FullDrawer) : FullDrawer :=
  let d := if d.bannerDirty then { d.drawBanner with bannerDirty := true } else d
  let d := if d.progressDirty then { d.drawProgressBar with progressDirty := false } else d
  let d := if d.progressStringDirty then
    { d.drawProgressString with progressStringDirty := false } else d
  if d.versionDirty then { d.drawVersionStrings with versionDirty := false } else d

/-- The mark of an element. -/
def dirty (d : FullDrawer) : Element → Bool
  | .banner => d.bannerDirty
  | .progressBar => d.progressDirty
  | .progressString => d.progressStringDirty
  | .version => d.versionDirty

/-- The picture that shows all of the drawer's contents. -/
def fullPicture (d : FullDrawer) : Picture :=
  ⟨d.banner, some d.progress, d.progressString, d.versionString⟩

end FullDrawer

/-! ## Sequences of calls -/

inductive Call where
  | setProgress (newProgress : BitVec 64)
  | setProgressString (newProgressString : List Byte)
  | setVersion (newVersion : List Byte)
  | draw
deriving DecidableEq

def FullDrawer.call (d : FullDrawer) : Call → FullDrawer
  | .setProgress newProgress => d.setProgress newProgress
  | .setProgressString newProgressString => d.setProgressString newProgressString
  | .setVersion newVersion => d.setVersion newVersion
  | .draw => d.draw

/-- The drawer after the calls. -/
def after (calls : List Call) : FullDrawer := calls.foldl FullDrawer.call .initial

/-- The elements that have to be drawn after one more call. -/
def Call.pending (es : Finset Element) : Call → Finset Element
  | .setProgress _ => insert .progressBar es
  | .setProgressString _ => insert .progressString es
  | .setVersion _ => insert .version es
  | .draw => ∅

/-- The elements whose content was set since the last draw, and before the
first one those that are marked from the start. -/
def pending (calls : List Call) : Finset Element :=
  calls.foldl Call.pending {.banner, .progressBar, .progressString}

/-- A draw after the calls draws the elements that have to be drawn, each of
them once, and leaves nothing to draw. -/
structure DrawsPending (calls : List Call) : Prop where
  drawn : ∃ es : List Element, es.Nodup ∧ es.toFinset = pending calls ∧
    (after calls).draw.surface.drawn = (after calls).surface.drawn ++ es
  clean : (after calls).draw.isDirty = false

/-- Every draw of the sequence does. -/
def Incremental (calls : List Call) : Prop :=
  ∀ before rest, calls = before ++ .draw :: rest → DrawsPending before

/-! ## The main loop -/

/-- What `main` works on. -/
structure Main where
  rpc : RpcListener
  drawer : FullDrawer

/-- The listener gets the drawer by reference. -/
def Main.onListener {α : Type} (m : EStateM Fault RpcListener α) : EStateM Fault Main α := fun s =>
  match m.run { s.rpc with drawer := s.drawer.toDrawer } with
  | .ok a rpc => .ok a ⟨rpc, { s.drawer with toDrawer := rpc.drawer }⟩
  | .error e rpc => .error e ⟨rpc, { s.drawer with toDrawer := rpc.drawer }⟩

namespace Main

/-- One turn of the loop; none is taken once `gRun` is clear. -/
def turn (kernel : Handles.Allocator Nat) (x : Poll) : EStateM Fault Main Unit := do
  if (← get).rpc.gRun then
    let _ ← onListener (RpcListener.step kernel x)
    if (← get).drawer.isDirty then
      modify fun s => { s with drawer := s.drawer.draw }

/-- Before the loop, with the version that was found and the listening socket. -/
def start (sock : Nat) (version : List Byte) : Main :=
  let drawer := ((FullDrawer.initial.setVersion version).drawBackground).draw
  ⟨.start sock drawer.toDrawer, drawer⟩

/-- A turn in which the event changes nothing. -/
def Idle (kernel : Handles.Allocator Nat) (s : Main) (x : Poll) : Prop :=
  s.rpc.gRun = true ∧ (stateAfter (onListener (RpcListener.step kernel x)) s).drawer = s.drawer

/-- After an event that changed nothing, nothing is drawn. -/
def QuietWhenIdle (kernel : Handles.Allocator Nat) (s : Main) (x : Poll) (_ : Unit) (t : Main) :
    Prop :=
  Idle kernel s x → t.drawer.surface.drawn = s.drawer.surface.drawn

/-- The event changes something, or the loop has ended. -/
def Busy (kernel : Handles.Allocator Nat) (s : Main) (x : Poll) (_ : Unit) (_ : Main) : Prop :=
  ¬ Idle kernel s x

end Main

/-! ## One draw -/

section Draw

variable (d : FullDrawer)

namespace FullDrawer

theorem isDirty_iff {d : FullDrawer} : d.isDirty = true ↔ ∃ e, d.dirty e = true := by
  simp only [isDirty, Bool.or_eq_true]
  constructor
  · rintro (((h | h) | h) | h)
    · exact ⟨.banner, h⟩
    · exact ⟨.progressBar, h⟩
    · exact ⟨.progressString, h⟩
    · exact ⟨.version, h⟩
  · rintro ⟨e, h⟩
    cases e with
    | banner => exact .inl (.inl (.inl h))
    | progressBar => exact .inl (.inl (.inr h))
    | progressString => exact .inl (.inr h)
    | version => exact .inr h

/-- What a draw comes to. -/
theorem draw_eq : d.draw =
    { d with
      progressDirty := false
      progressStringDirty := false
      versionDirty := false
      surface.picture.banner := if d.bannerDirty then d.banner else d.surface.picture.banner
      surface.picture.progressBar :=
        if d.progressDirty then some d.progress else d.surface.picture.progressBar
      surface.picture.progressString :=
        if d.progressStringDirty then d.progressString else d.surface.picture.progressString
      surface.picture.version :=
        if d.versionDirty then d.versionString else d.surface.picture.version
      surface.drawn := d.surface.drawn ++ Element.all.filter d.dirty } := by
  obtain ⟨⟨progress, progressString, progressDirty, progressStringDirty⟩,
    banner, bannerDirty, versionString, versionDirty, surface⟩ := d
  cases bannerDirty <;> cases progressDirty <;> cases progressStringDirty <;> cases versionDirty <;>
    simp [draw, drawBanner, drawProgressBar, drawProgressString, drawVersionStrings, dirty,
      Element.all, List.filter_cons]

/-- The mark of the banner stays. -/
theorem dirty_draw (e : Element) :
    d.draw.dirty e = true ↔ e = .banner ∧ d.bannerDirty = true := by
  rw [draw_eq]
  cases e with
  | banner => exact (and_iff_right rfl).symm
  | progressBar => exact iff_of_false nofun nofun
  | progressString => exact iff_of_false nofun nofun
  | version => exact iff_of_false nofun nofun

/-- What is not marked is on the screen. -/
structure Shows (d : FullDrawer) : Prop where
  banner : d.bannerDirty = false → d.surface.picture.banner = d.banner
  progressBar : d.progressDirty = false → d.surface.picture.progressBar = some d.progress
  progressString : d.progressStringDirty = false →
    d.surface.picture.progressString = d.progressString
  version : d.versionDirty = false → d.surface.picture.version = d.versionString

theorem shows_initial : initial.Shows where
  banner := nofun
  progressBar := nofun
  progressString := nofun
  version _ := rfl

variable {d}

/-- Drawing what is marked is as good as drawing everything. -/
theorem Shows.picture_draw (h : d.Shows) : d.draw.surface.picture = d.draw.fullPicture := by
  have hif : ∀ {α : Type} {c : Bool} {new old : α}, (c = false → old = new) →
      (if c then new else old) = new := by
    intro α c new old hold
    cases c with
    | true => rfl
    | false => exact hold rfl
  rw [draw_eq]
  simp only [fullPicture, hif h.banner, hif h.progressBar, hif h.progressString, hif h.version]

theorem Shows.call (h : d.Shows) (c : Call) : (d.call c).Shows := by
  cases c with
  | setProgress newProgress => exact ⟨h.banner, nofun, h.progressString, h.version⟩
  | setProgressString newProgressString => exact ⟨h.banner, h.progressBar, nofun, h.version⟩
  | setVersion newVersion => exact ⟨h.banner, h.progressBar, h.progressString, nofun⟩
  | draw =>
      have hpicture := h.picture_draw
      constructor
      · intro _
        exact congrArg Picture.banner hpicture
      · intro _
        exact congrArg Picture.progressBar hpicture
      · intro _
        exact congrArg Picture.progressString hpicture
      · intro _
        exact congrArg Picture.version hpicture

/-- The marks are those of the elements that have to be drawn, and that of the
banner. -/
def Marks (d : FullDrawer) (es : Finset Element) : Prop :=
  ∀ e, d.dirty e = true ↔ e = .banner ∨ e ∈ es

theorem marks_initial : initial.Marks {.banner, .progressBar, .progressString} := by
  intro e
  cases e <;> decide

theorem Marks.call {es : Finset Element} (h : d.Marks es) (c : Call) :
    (d.call c).Marks (c.pending es) := by
  intro e
  cases c with
  | setProgress newProgress =>
      have hrest := h e
      cases e <;> simp_all [Call.pending, FullDrawer.call, setProgress, Drawer.setProgress, dirty]
  | setProgressString newProgressString =>
      have hrest := h e
      cases e <;>
        simp_all [Call.pending, FullDrawer.call, setProgressString, Drawer.setProgressString, dirty]
  | setVersion newVersion =>
      have hrest := h e
      cases e <;> simp_all [Call.pending, FullDrawer.call, setVersion, dirty]
  | draw =>
      have hbanner : d.bannerDirty = true := (h .banner).mpr (.inl rfl)
      refine (dirty_draw d e).trans ?_
      simp [Call.pending, hbanner]

end FullDrawer

end Draw

/-! ## Sequences of calls -/

section Calls

variable {calls : List Call}

theorem after_append (calls updates : List Call) :
    after (calls ++ updates) = updates.foldl FullDrawer.call (after calls) := List.foldl_append

theorem after_snoc (calls : List Call) (c : Call) :
    after (calls ++ [c]) = (after calls).call c := after_append calls [c]

theorem pending_snoc (calls : List Call) (c : Call) :
    pending (calls ++ [c]) = c.pending (pending calls) := List.foldl_concat _ _ _ _

theorem marks_after (calls : List Call) : (after calls).Marks (pending calls) := by
  induction calls using List.reverseRecOn with
  | nil => exact FullDrawer.marks_initial
  | append_singleton calls c ih =>
      rw [after_snoc, pending_snoc]
      exact ih.call c

theorem shows_after (calls : List Call) : (after calls).Shows := by
  induction calls using List.reverseRecOn with
  | nil => exact FullDrawer.shows_initial
  | append_singleton calls c ih =>
      rw [after_snoc]
      exact ih.call c

/-- After every draw the screen shows what a full redraw would show. -/
theorem picture_after_draw (calls : List Call) :
    (after (calls ++ [.draw])).surface.picture = (after (calls ++ [.draw])).fullPicture := by
  rw [after_snoc]
  exact (shows_after calls).picture_draw

/-- The elements that a draw draws. -/
theorem drawn_after_draw (calls : List Call) :
    (after calls).draw.surface.drawn = (after calls).surface.drawn ++
      Element.all.filter fun e => e = .banner ∨ e ∈ pending calls := by
  rw [FullDrawer.draw_eq]
  refine congrArg ((after calls).surface.drawn ++ ·) ?_
  refine List.filter_congr fun e _ => ?_
  rw [Bool.eq_iff_iff, marks_after calls e, decide_eq_true_iff]

theorem banner_mem_pending_iff (calls : List Call) :
    .banner ∈ pending calls ↔ .draw ∉ calls := by
  induction calls using List.reverseRecOn with
  | nil => decide
  | append_singleton calls c ih =>
      rw [pending_snoc, List.mem_append, not_or, ← ih]
      cases c with
      | draw => simp [Call.pending]
      | _ => simp [Call.pending]

/-- The first draw draws what it should, and no other does. -/
theorem drawn_eq_pending_iff (calls : List Call) :
    (Element.all.filter fun e => e = .banner ∨ e ∈ pending calls).toFinset = pending calls ↔
      .draw ∉ calls := by
  rw [← banner_mem_pending_iff, Finset.ext_iff]
  have hall : ∀ e : Element, e ∈ Element.all := by
    intro e
    cases e <;> decide
  simp only [List.mem_toFinset, List.mem_filter, hall, true_and, decide_eq_true_iff]
  constructor
  · intro h
    exact (h .banner).mp (.inl rfl)
  · intro h e
    refine or_iff_right_of_imp ?_
    rintro rfl
    exact h

theorem isDirty_after_draw (calls : List Call) : (after calls).draw.isDirty = true := by
  rw [FullDrawer.isDirty_iff]
  refine ⟨.banner, (FullDrawer.dirty_draw _ _).mpr ⟨rfl, ?_⟩⟩
  exact (marks_after calls .banner).mpr (.inl rfl)

theorem not_drawsPending (calls : List Call) : ¬ DrawsPending calls := by
  intro h
  exact Bool.false_ne_true (h.clean.symm.trans (isDirty_after_draw calls))

theorem incremental_iff : Incremental calls ↔ .draw ∉ calls := by
  constructor
  · intro h hmem
    obtain ⟨before, rest, hcalls⟩ := List.append_of_mem hmem
    exact not_drawsPending before (h before rest hcalls)
  · rintro h before rest rfl
    exact absurd (List.mem_append_right before List.mem_cons_self) h

end Calls

/-! ## The main loop -/

namespace Main

variable {kernel : Handles.Allocator Nat} {s t : Main} {x : Poll}

/-- Between two turns the banner is marked, and nothing else. -/
def Settled (s : Main) : Prop := s.drawer.Marks ∅

theorem settled_draw {d : FullDrawer} (rpc : RpcListener) (h : d.bannerDirty = true) :
    Settled ⟨rpc, d.draw⟩ := by
  intro e
  rw [FullDrawer.dirty_draw]
  simp [h]

theorem settled_start (sock : Nat) (version : List Byte) : Settled (start sock version) :=
  settled_draw _ rfl

/-- The listener does not touch the banner. -/
theorem onListener_run {α : Type} {m : EStateM Fault RpcListener α} {a : α}
    (h : (onListener m).run s = .ok a t) : t.drawer.bannerDirty = s.drawer.bannerDirty := by
  unfold onListener at h
  simp only [EStateM.run] at h
  split at h
  · cases h
    rfl
  · cases h

/-- A turn is an event and a draw. -/
theorem turn_run (hs : Settled s) (hrun : s.rpc.gRun = true)
    (h : (turn kernel x).run s = .ok () t) :
    ∃ answer u, (onListener (RpcListener.step kernel x)).run s = .ok answer u ∧
      u.drawer.bannerDirty = true ∧ t = { u with drawer := u.drawer.draw } := by
  rw [turn, run_get_bind, if_pos hrun] at h
  obtain ⟨answer, u, hevent, h⟩ := run_bind_eq_ok.mp h
  have hbanner : u.drawer.bannerDirty = true := by
    rw [onListener_run hevent]
    exact (hs .banner).mpr (.inl rfl)
  have hdirty : u.drawer.isDirty = true := FullDrawer.isDirty_iff.mpr ⟨.banner, hbanner⟩
  rw [run_get_bind, if_pos hdirty] at h
  cases h
  exact ⟨answer, u, hevent, hbanner, rfl⟩

theorem turn_run_of_ended (hrun : s.rpc.gRun = false) (h : (turn kernel x).run s = .ok () t) :
    t = s := by
  rw [turn, run_get_bind, hrun] at h
  cases h
  rfl

theorem Settled.turn (hs : Settled s) (h : (turn kernel x).run s = .ok () t) : Settled t := by
  cases hrun : s.rpc.gRun with
  | true =>
      obtain ⟨_, u, _, hbanner, rfl⟩ := turn_run hs hrun h
      exact settled_draw u.rpc hbanner
  | false =>
      rw [turn_run_of_ended hrun h]
      exact hs

/-- After an event that changed nothing, the banner is drawn. -/
theorem drawn_of_idle (hs : Settled s) (hidle : Idle kernel s x)
    (h : (turn kernel x).run s = .ok () t) :
    t.drawer.surface.drawn = s.drawer.surface.drawn ++ [.banner] := by
  obtain ⟨hrun, hsame⟩ := hidle
  obtain ⟨_, u, hevent, _, rfl⟩ := turn_run hs hrun h
  rw [stateAfter_of_ok hevent] at hsame
  have hmarked : Element.all.filter s.drawer.dirty = [.banner] := by
    have hdirty : s.drawer.dirty = fun e => decide (e = .banner) := by
      funext e
      rw [Bool.eq_iff_iff, hs e, decide_eq_true_iff]
      simp
    rw [hdirty]
    rfl
  rw [hsame, FullDrawer.draw_eq, hmarked]

theorem quietWhenIdle_iff (hs : Settled s) (h : (turn kernel x).run s = .ok () t) :
    QuietWhenIdle kernel s x () t ↔ ¬ Idle kernel s x := by
  constructor
  · intro hquiet hidle
    have hdrawn := (drawn_of_idle hs hidle h).symm.trans (hquiet hidle)
    exact List.cons_ne_nil _ _ (List.append_right_eq_self.mp hdrawn)
  · intro hbusy hidle
    exact absurd hidle hbusy

/-! ## The loop makes calls -/

section Calls

variable {d : FullDrawer}

/-- The listener's drawer is `d` after some updates. -/
def Updated (d : FullDrawer) (s : RpcListener) : Prop :=
  ∃ updates : List Call, { d with toDrawer := s.drawer } = updates.foldl FullDrawer.call d

theorem Updated.call {s s' : RpcListener} (h : Updated d s) (c : Call)
    (hc : { d with toDrawer := s'.drawer } = FullDrawer.call { d with toDrawer := s.drawer } c) :
    Updated d s' := by
  obtain ⟨updates, hupdates⟩ := h
  refine ⟨updates ++ [c], ?_⟩
  rw [List.foldl_concat, ← hupdates, hc]

theorem keeps_handleMessage (msg : SplashRpcMessage) :
    Keeps (Updated d) (RpcListener.handleMessage msg) := by
  unfold RpcListener.handleMessage
  split_ifs
  · exact .ret _
  · exact .bind (.modify fun s h => h.call (.setProgress msg.progress) rfl) fun _ => .ret _
  · split
    · exact .raise _
    · rename_i text _
      exact .bind (.modify fun s h => h.call (.setProgressString text) rfl) fun _ => .ret _
  · exact .bind (.modify fun _ h => h) fun _ => .ret _
  · exact .raise _

theorem keeps_handleClient (fd : Nat) (activity : Activity) :
    Keeps (Updated d) (RpcListener.handleClient fd activity) := by
  have hclose : Keeps (Updated d) (RpcListener.close fd) := .modify fun _ h => h
  cases activity with
  | idle => exact .ret _
  | exceptional => exact .bind hclose fun _ => .ret _
  | readable result =>
      have hmessage : Keeps (Updated d) (RpcListener.handleClientMessage fd result) := by
        cases result with
        | fails => exact .raise _
        | endOfStream => exact .bind (.modify fun _ h => h) fun _ => .ret _
        | datagram bytes =>
            rw [RpcListener.handleClientMessage]
            split_ifs
            · exact .ret _
            · exact .raise _
            · exact keeps_handleMessage _
      refine .bind (keeps_catching hmessage) fun answer => ?_
      cases answer with
      | ok valid => exact .ret _
      | error e => exact .bind hclose fun _ => .ret _

theorem keeps_handleClients (activity : Nat → Activity) (fds : List Nat) :
    Keeps (Updated d) (RpcListener.handleClients activity fds) := by
  induction fds with
  | nil => exact .ret _
  | cons fd fds ih =>
      have hset : Keeps (Updated d) (RpcListener.isSet fd) := by
        unfold RpcListener.isSet
        split_ifs
        · exact .raise _
        · exact .ret _
      refine .bind hset fun _ => ?_
      exact .bind (keeps_handleClient fd _) fun _ => .bind ih fun _ => .ret _

theorem keeps_step (kernel : Handles.Allocator Nat) (x : Poll) :
    Keeps (Updated d) (RpcListener.step kernel x) := by
  have haccept : Keeps (Updated d) (RpcListener.acceptClient kernel x.accepts) := by
    unfold RpcListener.acceptClient
    split_ifs
    · exact .modify fun _ h => h
    · exact .raise _
  have hconnections : ∀ activity,
      Keeps (Updated d) (RpcListener.handleConnections x.order activity) := by
    intro activity
    exact .bind .read fun _ => .bind (keeps_handleClients _ _) fun _ => .modify fun _ h => h
  have hready : ∀ watched, Keeps (Updated d) (RpcListener.handleReady kernel watched x) := by
    intro watched
    unfold RpcListener.handleReady
    split_ifs
    · exact .bind haccept fun _ => hconnections _
    · exact hconnections _
  refine keeps_catching (.bind .read fun s => .bind .read fun t => ?_)
  split_ifs
  · exact .raise _
  · cases x.select with
    | interrupted => exact .modify fun _ h => h
    | fails => exact .raise _
    | ready => exact hready _

/-- A turn makes calls, the last of them a draw. -/
theorem turn_calls (hs : Settled s) (hrun : s.rpc.gRun = true)
    (h : (turn kernel x).run s = .ok () t) :
    ∃ updates : List Call, t.drawer = (updates.foldl FullDrawer.call s.drawer).draw := by
  obtain ⟨answer, u, hevent, _, rfl⟩ := turn_run hs hrun h
  have hkept := keeps_step (d := s.drawer) kernel x
    { s.rpc with drawer := s.drawer.toDrawer } ⟨[], rfl⟩
  unfold onListener at hevent
  simp only [EStateM.run] at hevent hkept
  split at hevent
  · rename_i answer' rpc hstep
    cases hevent
    rw [hstep] at hkept
    obtain ⟨updates, hupdates⟩ := hkept
    exact ⟨updates, congrArg FullDrawer.draw hupdates⟩
  · cases hevent

/-- In the main loop the drawer is always one that a draw came last to. -/
def Drawn (s : Main) : Prop := ∃ calls, s.drawer = after (calls ++ [.draw])

theorem Drawn.turn (hs : Settled s) (hd : Drawn s) (h : (Main.turn kernel x).run s = .ok () t) :
    Drawn t := by
  cases hrun : s.rpc.gRun with
  | true =>
      obtain ⟨calls, hcalls⟩ := hd
      obtain ⟨updates, hupdates⟩ := turn_calls hs hrun h
      refine ⟨calls ++ [.draw] ++ updates, ?_⟩
      rw [after_snoc, after_append, hupdates, hcalls]
      rfl
  | false =>
      rw [turn_run_of_ended hrun h]
      exact hd

theorem Drawn.steps {polls : List Poll} {ws : List Unit} (hs : Settled s) (hd : Drawn s)
    (h : Steps (Main.turn kernel) s polls ws t) : Drawn t := by
  induction h with
  | nil s => exact hd
  | cons hx _ ih => exact ih (hs.turn hx) (hd.turn hs hx)

/-- Whatever the events were, the screen shows what a full redraw would. -/
theorem picture_eq_of_steps {sock : Nat} {version : List Byte} {polls : List Poll}
    {ws : List Unit} (h : Steps (Main.turn kernel) (start sock version) polls ws t) :
    t.drawer.surface.picture = t.drawer.fullPicture := by
  have hstart : Drawn (start sock version) := ⟨[.setVersion version], rfl⟩
  obtain ⟨calls, hcalls⟩ := hstart.steps (settled_start sock version) h
  rw [hcalls]
  exact picture_after_draw calls

end Calls

end Main

/-! ## What is drawn again -/

/-- Drawing is incremental in the sequences without a draw, and the main loop
is quiet in the runs without an idle turn. -/
theorem draws_incrementally_iff (calls : List Call) (kernel : Handles.Allocator Nat) (sock : Nat)
    (version : List Byte) (polls : List Poll) :
    (Incremental calls ↔ .draw ∉ calls) ∧
      (Throughout (Main.turn kernel) (Main.QuietWhenIdle kernel) (Main.start sock version) polls ↔
        Throughout (Main.turn kernel) (Main.Busy kernel) (Main.start sock version) polls) := by
  refine ⟨incremental_iff, throughout_iff ?_ ?_ (Main.settled_start sock version)⟩
  · intro s x _ t hs h _
    exact hs.turn h
  · intro s x _ t hs h
    exact Main.quietWhenIdle_iff hs h

/-- The second draw has nothing to draw, and leaves the drawer dirty. -/
theorem draw_draw_not_incremental : ¬ Incremental [.draw, .draw] := by
  intro h
  have hclean : (after [.draw]).draw.isDirty = false := (h [.draw] [] rfl).clean
  exact absurd hclean (by decide)

end Splash
