/-
# `Rpc.Header` — the header of an RPC message

`struct rpc_header` of pinballd and loadd and `struct RpcHeader` of the common
client library are three copies of one packed layout: eight bytes, the two
16-bit fields in the byte order of the machine, which is little-endian, and
then the payload.  The length field counts the header.
-/
import ProgrammableLoad.Cpp.Fault

namespace Rpc

open Cpp

structure Header where
  version : BitVec 16
  length : BitVec 16
  endpoint : Byte
  tag : Byte
  flags : Byte
  reserved : Byte
deriving DecidableEq

def kRpcVersionLatest : BitVec 16 := 0x0100

/-- `enum rpc_endpoint`, as far as pinballd serves it. -/
def kRpcEndpointNoOp : Byte := 0x00
def kRpcEndpointBroadcastConfig : Byte := 0x01
def kRpcEndpointIndicator : Byte := 0x03

/-- The endpoint pinballd's broadcasts of inputs come from. -/
def kRpcEndpointUiEvent : Byte := 0x02

def kRpcFlagBroadcast : Byte := 1 <<< 1

/-- `sizeof(struct rpc_header)` -/
def headerSize : Nat := 8

/-- The bytes of a 16-bit field. -/
def wordBytes (v : BitVec 16) : List Byte := [v.extractLsb' 0 8, v.extractLsb' 8 8]

/-- The 16-bit field at an offset of a buffer. -/
def wordAt (buf : List Byte) (i : Nat) : BitVec 16 := buf.getD (i + 1) 0 ++ buf.getD i 0

/-- The header as it lies in memory. -/
def Header.encode (h : Header) : List Byte :=
  wordBytes h.version ++ wordBytes h.length ++ [h.endpoint, h.tag, h.flags, h.reserved]

/-- The header at the front of a buffer of at least eight bytes. -/
def Header.read (buf : List Byte) : Header where
  version := wordAt buf 0
  length := wordAt buf 2
  endpoint := buf.getD 4 0
  tag := buf.getD 5 0
  flags := buf.getD 6 0
  reserved := buf.getD 7 0

theorem append_extract (v : BitVec 16) : v.extractLsb' 8 8 ++ v.extractLsb' 0 8 = v := by
  apply BitVec.eq_of_getLsbD_eq
  intro i hi
  rw [BitVec.getLsbD_append]
  by_cases h8 : i < 8
  · simp [h8]
  · have h : i - 8 < 8 := by omega
    simp [h8, h, show 8 + (i - 8) = i by omega]

@[simp] theorem Header.length_encode (h : Header) : h.encode.length = headerSize := rfl

@[simp] theorem Header.read_encode_append (h : Header) (payload : List Byte) :
    Header.read (h.encode ++ payload) = h := by
  have hv := append_extract h.version
  have hl := append_extract h.length
  cases h with
  | mk version length endpoint tag flags reserved =>
      simp only [Header.read, Header.encode, wordBytes, wordAt, List.cons_append,
        List.nil_append, List.getD_cons_zero, List.getD_cons_succ]
      rw [hv, hl]

/-- The header is all in the first eight bytes. -/
theorem Header.read_append {buf : List Byte} (h : headerSize ≤ buf.length) (rest : List Byte) :
    Header.read (buf ++ rest) = Header.read buf := by
  have hget : ∀ i < headerSize, (buf ++ rest).getD i 0 = buf.getD i 0 := by
    intro i hi
    exact List.getD_append _ _ _ _ (Nat.lt_of_lt_of_le hi h)
  simp only [Header.read, wordAt, hget 0 (by decide), hget 1 (by decide), hget 2 (by decide),
    hget 3 (by decide), hget 4 (by decide), hget 5 (by decide), hget 6 (by decide),
    hget 7 (by decide)]

/-! ## Packets -/

/-- A packet as the senders build it: the header, with the size of the packet
converted to the 16-bit length field, and the payload. -/
def packet (endpoint tag : Byte) (payload : List Byte) : List Byte :=
  let hdr : Header :=
    { version := kRpcVersionLatest
      length := BitVec.ofNat 16 (headerSize + payload.length)
      endpoint := endpoint
      tag := tag
      flags := 0
      reserved := 0 }
  hdr.encode ++ payload

/-- The largest payload whose packet's size fits the length field. -/
def maxPayload : Nat := 65527

section Packet

variable (endpoint tag : Byte) (p : List Byte)

@[simp] theorem length_packet : (packet endpoint tag p).length = headerSize + p.length := by
  simp [packet]

@[simp] theorem drop_packet : (packet endpoint tag p).drop headerSize = p :=
  List.drop_left' (Header.length_encode _)

@[simp] theorem version_packet :
    (Header.read (packet endpoint tag p)).version = kRpcVersionLatest := by
  simp [packet]

@[simp] theorem endpoint_packet : (Header.read (packet endpoint tag p)).endpoint = endpoint := by
  simp [packet]

@[simp] theorem tag_packet : (Header.read (packet endpoint tag p)).tag = tag := by
  simp [packet]

@[simp] theorem toNat_length_packet :
    (Header.read (packet endpoint tag p)).length.toNat = (headerSize + p.length) % 65536 := by
  simp [packet]

end Packet

end Rpc
