import Sctp.Wire.Chunk

/-!
# Packets

The common header, the chunk loop of `Packet::unmarshal`, and `Packet::check_packet`. The
CRC-32C of the `crc` crate is a parameter.
-/

namespace Sctp

open Outcome

/-- An SCTP packet: the common header and the chunks. -/
structure Packet where
  sourcePort : U16 := 0
  destinationPort : U16 := 0
  verificationTag : U32 := 0
  chunks : List Chunk := []
deriving DecidableEq, Repr

/-- The size of the common header. -/
def packetHeaderSize : ℕ := 12

namespace Packet

/-- How far the chunk loop moves on after a chunk: over its header, the length recomputed
from its decoded value, and the padding of that length. -/
def advance (c : Chunk) : ℕ :=
  chunkHeaderSize + c.valueLength + getPaddingSize c.valueLength

/-- The chunk loop of `Packet::unmarshal`. -/
def unmarshalChunks (raw : Bytes) (offset : ℕ) : Outcome Error (List Chunk) :=
  if offset = raw.length then
    .ok []
  else if offset + chunkHeaderSize > raw.length then
    .err .errParseSctpChunkNotEnoughData
  else do
    let ct ← raw.index offset
    let rest ← raw.slice offset raw.length
    let c ← Chunk.unmarshal ct rest
    let chunks ← unmarshalChunks raw (offset + advance c)
    .ok (c :: chunks)
termination_by raw.length - offset
decreasing_by
  simp only [advance, chunkHeaderSize] at *
  omega

/-- `Packet::unmarshal`: the checksum is compared before the chunks are read. -/
def unmarshal (crc : Bytes → U32) (raw : Bytes) : Outcome Error Packet := do
  if raw.length < packetHeaderSize then
    .err .errPacketRawTooSmall
  else
    let (sourcePort, reader) ← raw.getU16
    let (destinationPort, reader) ← Bytes.getU16 reader
    let (verificationTag, reader) ← Bytes.getU32 reader
    let (theirChecksum, _) ← Bytes.getU32LE reader
    let ourChecksum := generatePacketChecksum crc raw
    if theirChecksum ≠ ourChecksum then
      .err .errChecksumMismatch
    else
      let chunks ← unmarshalChunks raw packetHeaderSize
      .ok { sourcePort, destinationPort, verificationTag, chunks }

/-- The INIT rules of `check_packet`, chunk by chunk. -/
def checkInitChunks (p : Packet) : List Chunk → Except Error Unit
  | [] => .ok ()
  | .init ci :: cs =>
    if ci.isAck = false then
      if p.chunks.length ≠ 1 then
        .error .errInitChunkBundled
      else if p.verificationTag ≠ 0 then
        .error .errInitChunkVerifyTagNotZero
      else
        checkInitChunks p cs
    else
      checkInitChunks p cs
  | _ :: cs => checkInitChunks p cs

/-- `Packet::check_packet`: the ports and the rules for INIT chunks. -/
def checkPacket (p : Packet) : Except Error Unit :=
  if p.sourcePort = 0 then
    .error .errSctpPacketSourcePortZero
  else if p.destinationPort = 0 then
    .error .errSctpPacketDestinationPortZero
  else
    checkInitChunks p p.chunks

end Packet

/-- `ChunkInit::check`; the `check` of every other chunk is `Ok(())`. -/
def Chunk.check : Chunk → Except Error Unit
  | .init c =>
    if c.initiateTag = 0 then
      .error .errChunkTypeInitInitateTagZero
    else if c.numInboundStreams = 0 then
      .error .errInitInboundStreamRequestZero
    else if c.numOutboundStreams = 0 then
      .error .errInitOutboundStreamRequestZero
    else if c.advertisedReceiverWindowCredit < 1500 then
      .error .errInitAdvertisedReceiver1500
    else
      .ok ()
  | _ => .ok ()

end Sctp
