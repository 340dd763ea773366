/-
# `Rpc.Frame` — from received bytes to the payload, in the two servers

`Client::bevRead` of pinballd and `RpcServer::handleClientRead` of loadd start
with the same checks of the header and then hand the region after it, with the
length the header claims, to `cbor_load`.  `checkFrame` is that start.

The last check compares the length of the payload with the size of the whole
buffer, header included.  A claimed length up to eight bytes too long gets
through.
-/
import ProgrammableLoad.Cbor.Item
import ProgrammableLoad.Rpc.Header

namespace Rpc

open Cpp Cbor Program

/-- A range of a buffer. -/
structure Region where
  offset : Nat
  length : Nat
deriving DecidableEq

/-- The checks of a server on the bytes it received, and the region it then
takes for the payload. -/
def checkFrame (buf : List Byte) : Except Exception Region :=
  if buf.length < headerSize then
    .error (.runtimeError s!"read too few bytes ({buf.length}) from client")
  else
    let hdr := Header.read buf
    if hdr.version ≠ kRpcVersionLatest then
      .error (.runtimeError s!"unsupported rpc version ${hex 4 hdr.version.toNat}")
    else if hdr.length.toNat < headerSize then
      .error (.runtimeError s!"invalid header length ({hdr.length.toNat}, too short)")
    else
      let payloadLen := hdr.length.toNat - headerSize
      if payloadLen > buf.length then
        .error (.runtimeError s!"invalid header length ({hdr.length.toNat}, too long)")
      else
        .ok ⟨headerSize, payloadLen⟩

/-- `Client::bevRead` of pinballd, up to its call of `cbor_load` -/
def Client.frame (buf : List Byte) : Except Exception Region := checkFrame buf

/-- `RpcServer::handleClientRead` of loadd, up to its call of `cbor_load` -/
def RpcServer.frame (buf : List Byte) : Except Exception Region := checkFrame buf

/-- `cbor_load` on a region of a buffer, which has to lie in it, and the check
of its result.  The position of an error is printed with `position`. -/
def loadRegion (cbor : Libcbor) (position : Nat → String) (buf : List Byte)
    (region : Region) : Except Fault Item :=
  if region.offset + region.length ≤ buf.length then
    match cbor.load ((buf.drop region.offset).take region.length) with
    | .ok item => .ok item
    | .error e => .error (.thrown (.runtimeError
        s!"cbor_load failed: {e.code.toNat} (at {position e.position})"))
  else
    .error (.undefined "cbor_load")

theorem loadRegion_eq_ok_iff {cbor : Libcbor} {position : Nat → String} {buf : List Byte}
    {region : Region} {item : Item} :
    loadRegion cbor position buf region = .ok item ↔
      region.offset + region.length ≤ buf.length ∧
        cbor.load ((buf.drop region.offset).take region.length) = .ok item := by
  unfold loadRegion
  split
  · rename_i hle
    cases cbor.load ((buf.drop region.offset).take region.length) <;> simp [hle]
  · rename_i hlt
    simp [hlt]

/-- The message in the bytes received: the checks of `bevRead` and the load of
the payload. -/
def Client.receive (cbor : Libcbor) (buf : List Byte) : Except Fault (Header × Item) :=
  match Client.frame buf with
  | .error e => .error (.thrown e)
  | .ok region => do
      let item ← loadRegion cbor (fun n => s!"${hex 1 n}") buf region
      return (Header.read buf, item)

/-- `resize(n)` of a receive buffer -/
def resize (buf : List Byte) (n : Nat) : List Byte :=
  buf.take n ++ List.replicate (n - buf.length) 0

/-! ## Bounds -/

/-- The region handed on lies in the bytes received, and a header that claims
more than was received is rejected. -/
structure Bounded (frame : List Byte → Except Exception Region) (buf : List Byte) :
    Prop where
  region_le : ∀ region, frame buf = .ok region →
    region.offset + region.length ≤ buf.length
  rejects : headerSize ≤ buf.length → buf.length < (Header.read buf).length.toNat →
    ∃ e, frame buf = .error e

/-- A complete header of the right version that claims up to eight bytes more
than were received. -/
def Overlong (buf : List Byte) : Prop :=
  headerSize ≤ buf.length ∧ (Header.read buf).version = kRpcVersionLatest ∧
    buf.length < (Header.read buf).length.toNat ∧
    (Header.read buf).length.toNat ≤ buf.length + headerSize

/-- The frames that pass: a complete header of the right version with a length
between its own size and eight more than was received. -/
theorem checkFrame_eq_ok_iff {buf : List Byte} {region : Region} :
    checkFrame buf = .ok region ↔
      headerSize ≤ buf.length ∧ (Header.read buf).version = kRpcVersionLatest ∧
        headerSize ≤ (Header.read buf).length.toNat ∧
        (Header.read buf).length.toNat ≤ buf.length + headerSize ∧
        region = ⟨headerSize, (Header.read buf).length.toNat - headerSize⟩ := by
  by_cases hsize : buf.length < headerSize
  · simp [checkFrame, hsize, Nat.not_le.mpr hsize]
  · by_cases hversion : (Header.read buf).version = kRpcVersionLatest
    · by_cases hshort : (Header.read buf).length.toNat < headerSize
      · simp [checkFrame, hsize, hversion, hshort, Nat.not_le.mpr hshort]
      · by_cases hlong : (Header.read buf).length.toNat - headerSize > buf.length
        · have hlong' : ¬ (Header.read buf).length.toNat ≤ buf.length + headerSize := by
            omega
          simp [checkFrame, hsize, hversion, hshort, hlong, hlong']
        · have hlong' : (Header.read buf).length.toNat ≤ buf.length + headerSize := by
            omega
          simp [checkFrame, hsize, hversion, hshort, hlong, hlong', Nat.not_lt.mp hsize,
            Nat.not_lt.mp hshort, eq_comm]
    · simp [checkFrame, hsize, hversion]

theorem checkFrame_bounded_iff {buf : List Byte} :
    Bounded checkFrame buf ↔ ¬ Overlong buf := by
  constructor
  · rintro h ⟨hsize, hversion, hless, hle⟩
    obtain ⟨e, he⟩ := h.rejects hsize hless
    have hok := checkFrame_eq_ok_iff.mpr
      ⟨hsize, hversion, by omega, hle, rfl⟩
    rw [he] at hok
    cases hok
  · intro h
    constructor
    · intro region hok
      obtain ⟨hsize, hversion, hshort, hle, rfl⟩ := checkFrame_eq_ok_iff.mp hok
      by_contra hover
      exact h ⟨hsize, hversion, by simp only at hover; omega, hle⟩
    · intro hsize hless
      cases hframe : checkFrame buf with
      | error e => exact ⟨e, rfl⟩
      | ok region =>
          obtain ⟨_, hversion, _, hle, _⟩ := checkFrame_eq_ok_iff.mp hframe
          exact absurd ⟨hsize, hversion, hless, hle⟩ h

/-- Both servers stay in bounds on the bytes received if and only if these are
not overlong. -/
theorem servers_bounded_iff (buf : List Byte) :
    (Bounded Client.frame buf ∧ Bounded RpcServer.frame buf) ↔ ¬ Overlong buf := by
  rw [← checkFrame_bounded_iff]
  exact and_self_iff

/-- A header alone that claims eight bytes of payload. -/
theorem not_bounded_bare_header :
    ¬ (Bounded Client.frame [0x00, 0x01, 0x10, 0x00, 0x00, 0x00, 0x00, 0x00] ∧
      Bounded RpcServer.frame [0x00, 0x01, 0x10, 0x00, 0x00, 0x00, 0x00, 0x00]) := by
  rintro ⟨h, _⟩
  have hle := h.region_le ⟨8, 8⟩ (by rfl)
  revert hle
  decide

/-! ## Messages -/

/-- The payload the header claims. -/
def payload (buf : List Byte) : List Byte :=
  (buf.drop headerSize).take ((Header.read buf).length.toNat - headerSize)

/-- The header is complete and of the right version, and claims no more than
was received. -/
structure WellFramed (buf : List Byte) : Prop where
  complete : headerSize ≤ buf.length
  version : (Header.read buf).version = kRpcVersionLatest
  le_length : headerSize ≤ (Header.read buf).length.toNat
  length_le : (Header.read buf).length.toNat ≤ buf.length

/-- The messages that are received: a well-formed frame with a payload that
loads. -/
theorem receive_eq_ok_iff {cbor : Libcbor} {buf : List Byte} {hdr : Header} {item : Item} :
    Client.receive cbor buf = .ok (hdr, item) ↔
      WellFramed buf ∧ hdr = Header.read buf ∧ cbor.load (payload buf) = .ok item := by
  constructor
  · intro h
    unfold Client.receive at h
    cases hframe : Client.frame buf with
    | error e =>
        rw [hframe] at h
        cases h
    | ok region =>
        rw [hframe] at h
        obtain ⟨hsize, hversion, hshort, hlong, rfl⟩ := checkFrame_eq_ok_iff.mp hframe
        obtain ⟨item', hload, h⟩ := except_bind_eq_ok.mp h
        cases h
        obtain ⟨hle, hload⟩ := loadRegion_eq_ok_iff.mp hload
        simp only at hle
        exact ⟨⟨hsize, hversion, hshort, by omega⟩, rfl, hload⟩
  · rintro ⟨⟨hsize, hversion, hshort, hlong⟩, rfl, hload⟩
    have hframe : Client.frame buf
        = .ok ⟨headerSize, (Header.read buf).length.toNat - headerSize⟩ :=
      checkFrame_eq_ok_iff.mpr ⟨hsize, hversion, hshort, by omega, rfl⟩
    unfold Client.receive
    rw [hframe]
    refine except_bind_eq_ok.mpr ⟨item, loadRegion_eq_ok_iff.mpr ⟨?_, hload⟩, rfl⟩
    simp only
    omega

end Rpc
