/-
# `Rpc.ClientBase` — the clients' side of a connection

The base class of the RPC clients in the common library: `sendPacket` puts a
header with a fresh tag before a payload, and `bevRead` checks the header of
what it received and hands the message to the client's handler.  Unlike the
servers it drops a packet with a bad header with only a warning, does not
compare the claimed length with the bytes received, and takes an empty payload
for a message without an item.
-/
import ProgrammableLoad.Rpc.Frame

namespace Rpc

open Cpp Cbor Program

/-- The members; `written` are the packets the socket took, in order. -/
structure ClientBase where
  nextTag : Byte
  rxBuf : List Byte
  written : List (List Byte)

namespace ClientBase

/-! ## Sending -/

/-- `do { tag = ++nextTag; } while(!tag)`: the loop body runs once more when
the tag wraps around to zero. -/
def followingTag (nextTag : Byte) : Byte :=
  if nextTag + 1 = 0 then nextTag + 2 else nextTag + 1

/-- `accepts` says whether the socket takes a packet. -/
def sendRaw (accepts : List Byte → Bool) (buf : List Byte) : EStateM Fault ClientBase Unit :=
  if accepts buf then
    modify fun c => { c with written := c.written ++ [buf] }
  else
    throw (.thrown (.systemError "write"))

/-- Send a payload to an endpoint; returns the packet's tag. -/
def sendPacket (accepts : List Byte → Bool) (endpoint : Byte) (payload : List Byte) :
    EStateM Fault ClientBase Byte := do
  let tag := followingTag (← get).nextTag
  modify fun c => { c with nextTag := tag }
  sendRaw accepts (packet endpoint tag payload)
  return tag

theorem sendPacket_run (accepts : List Byte → Bool) (endpoint : Byte) (payload : List Byte)
    (c : ClientBase) :
    (sendPacket accepts endpoint payload).run c
      = if accepts (packet endpoint (followingTag c.nextTag) payload) then
          .ok (followingTag c.nextTag) { c with
            nextTag := followingTag c.nextTag
            written := c.written ++ [packet endpoint (followingTag c.nextTag) payload] }
        else
          .error (.thrown (.systemError "write"))
            { c with nextTag := followingTag c.nextTag } := by
  by_cases h : accepts (packet endpoint (followingTag c.nextTag) payload) = true
  · simp [sendPacket, sendRaw, h]
  · simp [sendPacket, sendRaw, h]

/-! ## Receiving -/

/-- The message in the bytes received, for `handleIncomingMessage`: nothing if
the packet is dropped, and no item if there is no payload. -/
def receive (cbor : Libcbor) (buf : List Byte) : Except Fault (Option (Header × Option Item)) :=
  if buf.length < headerSize then
    .ok none
  else
    let hdr := Header.read buf
    if hdr.version ≠ kRpcVersionLatest then
      .ok none
    else if hdr.length.toNat < headerSize then
      .ok none
    else if hdr.length.toNat - headerSize = 0 then
      .ok (some (hdr, none))
    else do
      let item ← loadRegion cbor toString buf ⟨headerSize, hdr.length.toNat - headerSize⟩
      return some (hdr, some item)

/-- `ClientBase::bevRead`, up to its call of the handler. -/
def bevRead (cbor : Libcbor) (pending : List Byte) (drains : Bool) :
    EStateM Fault ClientBase (Option (Header × Option Item)) := do
  if drains then
    modify fun c => { c with rxBuf := pending }
    MonadExcept.ofExcept (receive cbor pending)
  else
    modify fun c => { c with rxBuf := resize c.rxBuf pending.length }
    throw (.thrown (.runtimeError "failed to drain read buffer"))

/-- What a drained read buffer is taken for. -/
theorem bevRead_run_eq_ok_iff {cbor : Libcbor} {pending : List Byte} {c c' : ClientBase}
    {message : Option (Header × Option Item)} :
    (bevRead cbor pending true).run c = .ok message c' ↔
      receive cbor pending = .ok message ∧ c' = { c with rxBuf := pending } := by
  rw [bevRead, if_pos rfl, run_bind_eq_ok]
  constructor
  · rintro ⟨_, u, hu, hreceive⟩
    cases hu
    cases h : receive cbor pending with
    | ok m =>
        rw [h] at hreceive
        cases hreceive
        exact ⟨rfl, rfl⟩
    | error e =>
        rw [h] at hreceive
        cases hreceive
  · rintro ⟨hreceive, rfl⟩
    refine ⟨(), _, rfl, ?_⟩
    rw [hreceive]
    rfl

/-! ## The span of the payload -/

/-- The region `bevRead` passes to `handleIncomingMessageRaw`, or nothing for a
packet it drops. -/
def frame (buf : List Byte) : Option Region :=
  if buf.length < headerSize then
    none
  else
    let hdr := Header.read buf
    if hdr.version ≠ kRpcVersionLatest then
      none
    else if hdr.length.toNat < headerSize then
      none
    else
      some ⟨headerSize, hdr.length.toNat - headerSize⟩

/-- `handleIncomingMessageRaw`, up to its call of the handler: an empty payload
is not decoded. -/
def handleIncomingMessageRaw (cbor : Libcbor) (buf : List Byte) (payload : Region) :
    Except Fault (Option Item) :=
  if payload.length = 0 then
    .ok none
  else do
    let item ← loadRegion cbor toString buf payload
    return some item

theorem receive_eq_handle (cbor : Libcbor) (buf : List Byte) :
    receive cbor buf = match frame buf with
      | none => .ok none
      | some region => do
          let item ← handleIncomingMessageRaw cbor buf region
          return some (Header.read buf, item) := by
  by_cases hsize : buf.length < headerSize
  · simp only [receive, frame, if_pos hsize]
  · by_cases hversion : (Header.read buf).version = kRpcVersionLatest
    · by_cases hshort : (Header.read buf).length.toNat < headerSize
      · simp [receive, frame, hsize, hversion, hshort]
      · by_cases hempty : (Header.read buf).length.toNat - headerSize = 0
        · simp only [receive, frame, handleIncomingMessageRaw, hsize, hversion, hshort, hempty,
            if_false, if_true, ne_eq, not_true_eq_false]
          rfl
        · simp only [receive, frame, handleIncomingMessageRaw, hsize, hversion, hshort, hempty,
            if_false, ne_eq, not_true_eq_false]
          cases loadRegion cbor toString buf
            ⟨headerSize, (Header.read buf).length.toNat - headerSize⟩ <;> rfl
    · simp [receive, frame, hsize, hversion]

/-- Whatever is pending is dropped or handed on as a span within the bytes
received, and is never read beyond them. -/
structure InBounds (pending : List Byte) : Prop where
  span_le : ∀ region, frame pending = some region →
    region.offset + region.length ≤ pending.length
  load_defined : ∀ cbor drains c c',
    (bevRead cbor pending drains).run c ≠ .error (.undefined "cbor_load") c'

theorem frame_eq_some_iff {buf : List Byte} {region : Region} :
    frame buf = some region ↔
      headerSize ≤ buf.length ∧ (Header.read buf).version = kRpcVersionLatest ∧
        headerSize ≤ (Header.read buf).length.toNat ∧
        region = ⟨headerSize, (Header.read buf).length.toNat - headerSize⟩ := by
  by_cases hsize : buf.length < headerSize
  · simp [frame, hsize, Nat.not_le.mpr hsize]
  · by_cases hversion : (Header.read buf).version = kRpcVersionLatest
    · by_cases hshort : (Header.read buf).length.toNat < headerSize
      · simp [frame, hsize, hversion, hshort, Nat.not_le.mpr hshort]
      · simp [frame, hsize, hversion, hshort, Nat.not_lt.mp hsize, Nat.not_lt.mp hshort, eq_comm]
    · simp [frame, hsize, hversion]

/-- A region within the buffer is loaded without a fault of the decoder. -/
theorem handleIncomingMessageRaw_defined (cbor : Libcbor) {buf : List Byte} {region : Region}
    (h : region.offset + region.length ≤ buf.length) :
    handleIncomingMessageRaw cbor buf region ≠ .error (.undefined "cbor_load") := by
  intro hfault
  unfold handleIncomingMessageRaw loadRegion at hfault
  rw [if_pos h] at hfault
  split at hfault
  · cases hfault
  · cases hload : cbor.load ((buf.drop region.offset).take region.length) with
    | ok item =>
        rw [hload] at hfault
        cases hfault
    | error e =>
        rw [hload] at hfault
        cases hfault

/-- A read whose span lies in the bytes received does not read beyond them. -/
theorem bevRead_defined {pending : List Byte}
    (h : ∀ region, frame pending = some region → region.offset + region.length ≤ pending.length)
    (cbor : Libcbor) (drains : Bool) (c c' : ClientBase) :
    (bevRead cbor pending drains).run c ≠ .error (.undefined "cbor_load") c' := by
  intro hrun
  cases drains with
  | false => cases hrun
  | true =>
      have hreceive : receive cbor pending = .error (.undefined "cbor_load") := by
        rw [bevRead, if_pos rfl] at hrun
        cases hreceive : receive cbor pending with
        | ok message =>
            rw [hreceive] at hrun
            cases hrun
        | error e =>
            rw [hreceive] at hrun
            cases hrun
            rfl
      rw [receive_eq_handle] at hreceive
      cases hframe : frame pending with
      | none =>
          rw [hframe] at hreceive
          cases hreceive
      | some region =>
          rw [hframe] at hreceive
          have hdefined := handleIncomingMessageRaw_defined cbor (h region hframe)
          cases hhandle : handleIncomingMessageRaw cbor pending region with
          | ok item =>
              simp only [hhandle] at hreceive
              cases hreceive
          | error e =>
              simp only [hhandle] at hreceive
              cases hreceive
              exact hdefined hhandle

/-- The span stays within the bytes received if and only if no complete header
of the right version claims more than there are. -/
theorem inBounds_iff (pending : List Byte) :
    InBounds pending ↔
      ¬ (headerSize ≤ pending.length ∧ (Header.read pending).version = kRpcVersionLatest ∧
        pending.length < (Header.read pending).length.toNat) := by
  constructor
  · rintro ⟨hspan, _⟩ ⟨hsize, hversion, hlong⟩
    have hle := hspan _ (frame_eq_some_iff.mpr ⟨hsize, hversion, by omega, rfl⟩)
    simp only at hle
    omega
  · intro h
    have hspan : ∀ region, frame pending = some region →
        region.offset + region.length ≤ pending.length := by
      intro region hregion
      obtain ⟨hsize, hversion, hshort, rfl⟩ := frame_eq_some_iff.mp hregion
      by_contra hover
      simp only at hover
      exact h ⟨hsize, hversion, by omega⟩
    exact ⟨hspan, bevRead_defined hspan⟩

/-- A broadcast header without the eight bytes of payload it claims. -/
theorem not_inBounds_bare_header :
    ¬ InBounds [0x00, 0x01, 0x10, 0x00, 0x01, 0x00, 0x02, 0x00] := by
  intro h
  have hle := h.span_le ⟨8, 8⟩ (by rfl)
  revert hle
  decide

end ClientBase

end Rpc
