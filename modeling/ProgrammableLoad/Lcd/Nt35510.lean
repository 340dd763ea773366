/-
# `Lcd.Nt35510` — the chip select of the display controller

The driver selects the controller by hand: `writeWord` pulls the line low,
moves two bytes and lets the line go.  The transfers are checked for failure
right after they were made, before the line is let go, and again behind it,
where no failure is left to be found.

`calls` records, for each call of `writeWord` that has ended, the level of the
line at its start and at its end.  `released_iff` says when all of them are
high: if no transfer fails.
-/
import ProgrammableLoad.Cpp.Fault
import ProgrammableLoad.Theory.Runs

namespace Lcd

open Cpp Program

/-- A call of `write` or `read` on the SPI device. -/
inductive Transfer where
  | write (bytes : List Byte)
  | read (length : Nat)
deriving DecidableEq

/-- What a transfer returns, and what it puts into the receive buffer if it
is a read. -/
structure Outcome where
  err : ℤ
  received : Byte

/-- The outcomes of the transfers, in order. -/
abbrev Spidev := Nat → Outcome

/-- The levels of the chip-select line around a call of `writeWord`. -/
structure Call where
  before : Bool
  after : Bool
deriving DecidableEq

/-- The driver: the level of its chip-select line, the transfers it has made
and the calls of `writeWord` that have ended. -/
structure Nt35510 where
  devCs : Bool
  transfers : List Transfer
  calls : List Call

namespace Nt35510

/-- `gpiod_line_set_value(devCs, …)` -/
def setValue (value : Bool) : EStateM Fault Nt35510 Unit :=
  modify fun d => { d with devCs := value }

def transfer (dev : Spidev) (t : Transfer) : EStateM Fault Nt35510 Outcome := do
  let d ← get
  set { d with transfers := d.transfers ++ [t] }
  return dev d.transfers.length

/-- The text of an error; `phase` tells the transfers of a read apart. -/
def txError (phase : String) (rw dc upper : Bool) (payload : Byte) : Fault :=
  let direction := if rw then "write" else "read"
  let kind := if dc then "data" else "command"
  let half := if upper then "upper" else "lower"
  .thrown (.systemError
    s!"Nt35510: tx word{phase} ({direction} {kind} {half} {hex 2 payload.toNat})")

/-- The first byte of a word: what is to be done with the second. -/
def command (rw dc upper : Bool) : Byte :=
  (if rw then 1 <<< 7 else 0) ||| (if dc then 1 <<< 6 else 0) |||
    (if upper then 1 <<< 5 else 0)

/-- The transfers of a word, and what they leave in the receive buffer. -/
def exchange (dev : Spidev) (rw dc upper : Bool) (payload : Byte) :
    EStateM Fault Nt35510 Outcome := do
  if rw = false then
    let result ← transfer dev (.write [command rw dc upper, payload])
    if result.err = -1 then
      throw (txError "" rw dc upper payload)
    else
      return ⟨result.err, 0⟩
  else
    let result ← transfer dev (.write [command rw dc upper])
    if result.err = -1 then
      throw (txError " 1/1" rw dc upper payload)
    else
      let result ← transfer dev (.read 1)
      if result.err = -1 then
        throw (txError " 2/2" rw dc upper payload)
      else
        return result

/-- The body of `writeWord`. -/
def writeWordBody (dev : Spidev) (rw dc upper : Bool) (payload : Byte) :
    EStateM Fault Nt35510 Byte := do
  setValue false
  let result ← exchange dev rw dc upper payload
  setValue true
  -- the check of `exchange` once more
  if result.err = -1 then
    throw (txError "" rw dc upper payload)
  else
    return result.received

/-- A call is recorded when it has returned or thrown. -/
def recorded {α : Type} (m : EStateM Fault Nt35510 α) : EStateM Fault Nt35510 α := fun d =>
  match m.run d with
  | .ok a t => .ok a { t with calls := t.calls ++ [⟨d.devCs, t.devCs⟩] }
  | .error e t => .error e { t with calls := t.calls ++ [⟨d.devCs, t.devCs⟩] }

def writeWord (dev : Spidev) (rw dc upper : Bool) (payload : Byte) :
    EStateM Fault Nt35510 Byte :=
  recorded (writeWordBody dev rw dc upper payload)

/-! ## The operations -/

def regWrite (dev : Spidev) (address : BitVec 16) (value : Option Byte) :
    EStateM Fault Nt35510 Unit := do
  let _ ← writeWord dev false false true (((address &&& 0xff00) >>> 8).setWidth 8)
  let _ ← writeWord dev false false false ((address &&& 0x00ff).setWidth 8)
  match value with
  | some value =>
      let _ ← writeWord dev false true false value
  | none => pure ()

def regRead (dev : Spidev) (address : BitVec 16) : EStateM Fault Nt35510 Byte := do
  let _ ← writeWord dev false false true (((address &&& 0xff00) >>> 8).setWidth 8)
  let _ ← writeWord dev false false false ((address &&& 0x00ff).setWidth 8)
  writeWord dev true true false 0

/-- An operation on a register. -/
inductive Op where
  | regWrite (address : BitVec 16) (value : Option Byte)
  | regRead (address : BitVec 16)

/-- One operation; for a read it answers with the value. -/
def step (dev : Spidev) : Op → EStateM Fault Nt35510 (Option Byte)
  | .regWrite address value => do
      regWrite dev address value
      return none
  | .regRead address => do
      let value ← regRead dev address
      return some value

/-- The driver with its device open, the line requested as a high output. -/
def opened : Nt35510 := ⟨true, [], []⟩

/-! ## The property and the condition -/

/-- Every call of `writeWord` found the line high and left it high. -/
def Released (d : Nt35510) : Prop := ∀ call ∈ d.calls, call = ⟨true, true⟩

/-- The next `n` transfers after the first `i` succeed. -/
def Succeeds (dev : Spidev) (i n : Nat) : Prop := ∀ k, i ≤ k → k < i + n → (dev k).err ≠ -1

/-- The transfers of an operation, if none fails. -/
def Op.transfers : Op → Nat
  | .regWrite _ none => 2
  | .regWrite _ (some _) => 3
  | .regRead _ => 4

section Proofs

variable {dev : Spidev} {d : Nt35510}

/-! ## Transfers -/

theorem succeeds_zero (dev : Spidev) (i : Nat) : Succeeds dev i 0 := by
  intro k hle hlt
  omega

theorem succeeds_one_iff {i : Nat} : Succeeds dev i 1 ↔ (dev i).err ≠ -1 := by
  constructor
  · intro h
    exact h i (Nat.le_refl i) (Nat.lt_succ_self i)
  · intro h k hle hlt
    have hk : k = i := by omega
    subst hk
    exact h

theorem succeeds_add_iff {i m n : Nat} :
    Succeeds dev i (m + n) ↔ Succeeds dev i m ∧ Succeeds dev (i + m) n := by
  constructor
  · intro h
    constructor
    · intro k hle hlt
      exact h k hle (by omega)
    · intro k hle hlt
      exact h k (by omega) (by omega)
  · rintro ⟨hm, hn⟩ k hle hlt
    by_cases hk : k < i + m
    · exact hm k hle hk
    · exact hn k (by omega) (by omega)

/-- The driver after some more transfers. -/
def transferred (d : Nt35510) (ts : List Transfer) : Nt35510 :=
  { d with transfers := d.transfers ++ ts }

theorem transfer_run (dev : Spidev) (t : Transfer) (d : Nt35510) :
    (transfer dev t).run d = .ok (dev d.transfers.length) (d.transferred [t]) := rfl

/-- The transfers of a word. -/
def wordTransfers (rw : Bool) : Nat := if rw then 2 else 1

theorem exchange_of_succeeds (rw dc upper : Bool) (payload : Byte)
    (h : Succeeds dev d.transfers.length (wordTransfers rw)) :
    ∃ result ts, (exchange dev rw dc upper payload).run d = .ok result (d.transferred ts) ∧
      result.err ≠ -1 ∧ ts.length = wordTransfers rw := by
  cases rw with
  | false =>
      have hfirst : (dev d.transfers.length).err ≠ -1 := succeeds_one_iff.mp h
      refine ⟨⟨_, 0⟩, [.write [command false dc upper, payload]], ?_, hfirst, rfl⟩
      rw [exchange, if_pos rfl, run_bind_of_ok (transfer_run _ _ _), if_neg hfirst]
      rfl
  | true =>
      have hboth : Succeeds dev d.transfers.length (1 + 1) := h
      obtain ⟨hfirst, hsecond⟩ := succeeds_add_iff.mp hboth
      rw [succeeds_one_iff] at hfirst
      have hlen : ∀ t, (d.transferred [t]).transfers.length = d.transfers.length + 1 := by
        intro t
        simp [transferred]
      have hsecond : (dev (d.transfers.length + 1)).err ≠ -1 := succeeds_one_iff.mp hsecond
      refine ⟨_, [.write [command true dc upper], .read 1], ?_, hsecond, rfl⟩
      rw [exchange, if_neg (by decide), run_bind_of_ok (transfer_run _ _ _), if_neg hfirst,
        run_bind_of_ok (transfer_run _ _ _), hlen, if_neg hsecond]
      simp [transferred]

theorem exchange_of_not_succeeds (rw dc upper : Bool) (payload : Byte)
    (h : ¬ Succeeds dev d.transfers.length (wordTransfers rw)) :
    ∃ e ts, (exchange dev rw dc upper payload).run d = .error e (d.transferred ts) := by
  cases rw with
  | false =>
      have hfirst : (dev d.transfers.length).err = -1 := by
        by_contra hne
        exact h (succeeds_one_iff.mpr hne)
      refine ⟨txError "" false dc upper payload, [.write [command false dc upper, payload]], ?_⟩
      rw [exchange, if_pos rfl, run_bind_of_ok (transfer_run _ _ _), if_pos hfirst]
      rfl
  | true =>
      by_cases hfirst : (dev d.transfers.length).err = -1
      · refine ⟨txError " 1/1" true dc upper payload, [.write [command true dc upper]], ?_⟩
        rw [exchange, if_neg (by decide), run_bind_of_ok (transfer_run _ _ _), if_pos hfirst]
        rfl
      · have hlen : ∀ t, (d.transferred [t]).transfers.length = d.transfers.length + 1 := by
          intro t
          simp [transferred]
        have hsecond : (dev (d.transfers.length + 1)).err = -1 := by
          by_contra hne
          exact h (succeeds_add_iff.mpr ⟨succeeds_one_iff.mpr hfirst, succeeds_one_iff.mpr hne⟩)
        refine ⟨txError " 2/2" true dc upper payload,
          [.write [command true dc upper], .read 1], ?_⟩
        rw [exchange, if_neg (by decide), run_bind_of_ok (transfer_run _ _ _), if_neg hfirst,
          run_bind_of_ok (transfer_run _ _ _), hlen, if_pos hsecond]
        simp [transferred]

/-! ## Words -/

/-- What an operation of `n` transfers does: it returns with the line high and
its calls clean if all of them succeed, and leaves a call that is not if one
fails; and no call is ever taken back. -/
structure Contract {α : Type} (dev : Spidev) (m : EStateM Fault Nt35510 α) (n : Nat) : Prop where
  succeeds : ∀ d, d.devCs = true → Succeeds dev d.transfers.length n →
    ∃ a t, m.run d = .ok a t ∧ t.devCs = true ∧
      t.transfers.length = d.transfers.length + n ∧ (Released d → Released t)
  fails : ∀ d, d.devCs = true → ¬ Succeeds dev d.transfers.length n →
    ∃ e t, m.run d = .error e t ∧ ¬ Released t
  grows : ∀ call, Keeps (fun d => call ∈ d.calls) m

theorem contract_pure {α : Type} (dev : Spidev) (a : α) :
    Contract dev (pure a : EStateM Fault Nt35510 α) 0 where
  succeeds d hcs _ := ⟨a, d, rfl, hcs, rfl, id⟩
  fails _ _ h := absurd (succeeds_zero dev _) h
  grows _ := Keeps.ret a

theorem Contract.bind {α β : Type} {x : EStateM Fault Nt35510 α}
    {f : α → EStateM Fault Nt35510 β} {m n : Nat} (hx : Contract dev x m)
    (hf : ∀ a, Contract dev (f a) n) : Contract dev (x >>= f) (m + n) where
  succeeds d hcs h := by
    obtain ⟨hm, hn⟩ := succeeds_add_iff.mp h
    obtain ⟨a, u, hrun, hcs', hlen, hrel⟩ := hx.succeeds d hcs hm
    rw [← hlen] at hn
    obtain ⟨b, t, hrun', hcs'', hlen', hrel'⟩ := (hf a).succeeds u hcs' hn
    refine ⟨b, t, ?_, hcs'', ?_, ?_⟩
    · rw [run_bind_of_ok hrun]
      exact hrun'
    · rw [hlen', hlen, Nat.add_assoc]
    · intro hd
      exact hrel' (hrel hd)
  fails d hcs h := by
    by_cases hm : Succeeds dev d.transfers.length m
    · obtain ⟨a, u, hrun, hcs', hlen, _⟩ := hx.succeeds d hcs hm
      have hn : ¬ Succeeds dev u.transfers.length n := by
        rw [hlen]
        intro hn
        exact h (succeeds_add_iff.mpr ⟨hm, hn⟩)
      obtain ⟨e, t, hrun', hnot⟩ := (hf a).fails u hcs' hn
      refine ⟨e, t, ?_, hnot⟩
      rw [run_bind_of_ok hrun]
      exact hrun'
    · obtain ⟨e, t, hrun, hnot⟩ := hx.fails d hcs hm
      exact ⟨e, t, run_bind_of_error hrun, hnot⟩
  grows call := (hx.grows call).bind fun a => (hf a).grows call

/-- The line is let go behind the transfers. -/
theorem writeWordBody_of_succeeds (rw dc upper : Bool) (payload : Byte)
    (h : Succeeds dev d.transfers.length (wordTransfers rw)) :
    ∃ b ts, (writeWordBody dev rw dc upper payload).run d
        = .ok b { d.transferred ts with devCs := true } ∧ ts.length = wordTransfers rw := by
  obtain ⟨result, ts, hrun, herr, hlen⟩ :=
    exchange_of_succeeds (d := { d with devCs := false }) rw dc upper payload h
  refine ⟨result.received, ts, ?_, hlen⟩
  have hlow : (setValue false).run d = .ok () { d with devCs := false } := rfl
  rw [writeWordBody, run_bind_of_ok hlow, run_bind_of_ok hrun]
  simp only [if_neg herr]
  rfl

/-- A transfer that fails is left with the line still low. -/
theorem writeWordBody_of_not_succeeds (rw dc upper : Bool) (payload : Byte)
    (h : ¬ Succeeds dev d.transfers.length (wordTransfers rw)) :
    ∃ e ts, (writeWordBody dev rw dc upper payload).run d
        = .error e { d.transferred ts with devCs := false } := by
  obtain ⟨e, ts, hrun⟩ :=
    exchange_of_not_succeeds (d := { d with devCs := false }) rw dc upper payload h
  refine ⟨e, ts, ?_⟩
  have hlow : (setValue false).run d = .ok () { d with devCs := false } := rfl
  rw [writeWordBody, run_bind_of_ok hlow, run_bind_of_error hrun]
  rfl

theorem recorded_run_of_ok {α : Type} {m : EStateM Fault Nt35510 α} {t : Nt35510} {a : α}
    (h : m.run d = .ok a t) :
    (recorded m).run d = .ok a { t with calls := t.calls ++ [⟨d.devCs, t.devCs⟩] } := by
  simp only [recorded, EStateM.run] at h ⊢
  rw [h]

theorem recorded_run_of_error {α : Type} {m : EStateM Fault Nt35510 α} {t : Nt35510} {e : Fault}
    (h : m.run d = .error e t) :
    (recorded m).run d = .error e { t with calls := t.calls ++ [⟨d.devCs, t.devCs⟩] } := by
  simp only [recorded, EStateM.run] at h ⊢
  rw [h]

theorem contract_writeWord (dev : Spidev) (rw dc upper : Bool) (payload : Byte) :
    Contract dev (writeWord dev rw dc upper payload) (wordTransfers rw) where
  succeeds d hcs h := by
    obtain ⟨b, ts, hrun, hlen⟩ := writeWordBody_of_succeeds rw dc upper payload h
    refine ⟨b, _, recorded_run_of_ok hrun, rfl, ?_, ?_⟩
    · rw [← hlen]
      exact List.length_append
    · intro hd call hcall
      rcases List.mem_append.mp hcall with hcall | hcall
      · exact hd call hcall
      · rw [List.mem_singleton.mp hcall, hcs]
  fails d hcs h := by
    obtain ⟨e, ts, hrun⟩ := writeWordBody_of_not_succeeds rw dc upper payload h
    refine ⟨e, _, recorded_run_of_error hrun, ?_⟩
    intro hrel
    have hcall : (⟨d.devCs, false⟩ : Call) = ⟨true, true⟩ :=
      hrel _ (List.mem_append_right _ (List.mem_singleton_self _))
    exact Bool.false_ne_true (congrArg Call.after hcall)
  grows call d hd := by
    by_cases h : Succeeds dev d.transfers.length (wordTransfers rw)
    · obtain ⟨b, ts, hrun, _⟩ := writeWordBody_of_succeeds rw dc upper payload h
      rw [writeWord, recorded_run_of_ok hrun]
      exact List.mem_append_left _ hd
    · obtain ⟨e, ts, hrun⟩ := writeWordBody_of_not_succeeds rw dc upper payload h
      rw [writeWord, recorded_run_of_error hrun]
      exact List.mem_append_left _ hd

/-! ## Operations and runs -/

theorem contract_regWrite (dev : Spidev) (address : BitVec 16) (value : Option Byte) :
    Contract dev (regWrite dev address value) (Op.regWrite address value).transfers := by
  cases value with
  | none =>
      exact (contract_writeWord dev false false true _).bind fun _ =>
        (contract_writeWord dev false false false _).bind fun _ => contract_pure dev ()
  | some value =>
      exact (contract_writeWord dev false false true _).bind fun _ =>
        (contract_writeWord dev false false false _).bind fun _ =>
          (contract_writeWord dev false true false value).bind fun _ => contract_pure dev ()

theorem contract_regRead (dev : Spidev) (address : BitVec 16) :
    Contract dev (regRead dev address) (Op.regRead address).transfers :=
  (contract_writeWord dev false false true _).bind fun _ =>
    (contract_writeWord dev false false false _).bind fun _ =>
      contract_writeWord dev true true false 0

theorem contract_step (dev : Spidev) (op : Op) : Contract dev (step dev op) op.transfers := by
  cases op with
  | regWrite address value =>
      exact (contract_regWrite dev address value).bind fun _ => contract_pure dev none
  | regRead address =>
      exact (contract_regRead dev address).bind fun value => contract_pure dev (some value)

/-- A call that was not clean stays on record. -/
theorem not_released_final (dev : Spidev) (ops : List Op) (h : ¬ Released d) :
    ¬ Released (final (step dev) d ops) := by
  obtain ⟨call, hcall, hne⟩ : ∃ call ∈ d.calls, call ≠ ⟨true, true⟩ := by
    by_contra hnone
    apply h
    intro call hcall
    by_contra hne
    exact hnone ⟨call, hcall, hne⟩
  have hstep : ∀ op ∈ ops, ∀ u : Nt35510, call ∈ u.calls →
      call ∈ (stateAfter (step dev op) u).calls := by
    intro op _ u hu
    exact ((contract_step dev op).grows call).stateAfter hu
  have hkept : call ∈ (final (step dev) d ops).calls :=
    final_keeps (I := fun u : Nt35510 => call ∈ u.calls) hstep hcall
  intro hrel
  exact hne (hrel call hkept)

theorem released_final_iff (dev : Spidev) (ops : List Op) (hcs : d.devCs = true)
    (hd : Released d) :
    Released (final (step dev) d ops) ↔
      Succeeds dev d.transfers.length (ops.map Op.transfers).sum := by
  induction ops generalizing d with
  | nil => exact iff_of_true hd (succeeds_zero dev _)
  | cons op ops ih =>
      rw [List.map_cons, List.sum_cons, succeeds_add_iff]
      by_cases h : Succeeds dev d.transfers.length op.transfers
      · obtain ⟨a, t, hrun, hcs', hlen, hrel⟩ := (contract_step dev op).succeeds d hcs h
        show Released (final (step dev) (stateAfter (step dev op) d) ops) ↔ _
        rw [stateAfter_of_ok hrun, ih hcs' (hrel hd), hlen]
        exact (and_iff_right h).symm
      · obtain ⟨e, t, hrun, hnot⟩ := (contract_step dev op).fails d hcs h
        refine iff_of_false ?_ fun hboth => h hboth.1
        show ¬ Released (final (step dev) (stateAfter (step dev op) d) ops)
        rw [stateAfter_of_error hrun]
        exact not_released_final dev ops hnot

/-- The calls of all operations find the line high and leave it high if and
only if none of the transfers that the operations make fails. -/
theorem released_iff (dev : Spidev) (ops : List Op) :
    Released (final (step dev) opened ops) ↔
      ∀ k < (ops.map Op.transfers).sum, (dev k).err ≠ -1 := by
  have hclean : Released opened := nofun
  have hzero : opened.transfers.length = 0 := rfl
  rw [released_final_iff dev ops rfl hclean, hzero]
  constructor
  · intro h k hk
    exact h k (Nat.zero_le k) (by omega)
  · intro h k _ hk
    exact h k (by omega)

/-- The first transfer of a register write fails: the controller stays
selected, and the next write begins without an edge. -/
theorem failedWrite_not_released :
    ¬ Released (final (step fun k => ⟨if k = 0 then -1 else 2, 0⟩) opened
      [.regWrite 0x1100 none, .regWrite 0x2900 none]) := by
  intro h
  have hcall : (⟨true, false⟩ : Call) = ⟨true, true⟩ := h _ (by decide)
  exact Bool.false_ne_true (congrArg Call.after hcall)

end Proofs

end Nt35510

end Lcd
