import Isam.Codec.Payload
namespace Isam.Codec

def generator : UInt32 := 0xEDB88320

def shiftBit (r : UInt32) : UInt32 := if r &&& 1 = 1 then (r >>> 1) ^^^ generator else r >>> 1

def shiftBits : Nat → UInt32 → UInt32
  | 0, r => r
  | n + 1, r => shiftBits n (shiftBit r)

def shiftByte (r : UInt32) (b : UInt8) : UInt32 := shiftBits 8 (r ^^^ b.toUInt32)

def checksum (bs : List UInt8) : UInt32 := bs.foldl shiftByte 0xFFFFFFFF ^^^ 0xFFFFFFFF

end Isam.Codec

namespace Isam.TableFile

open Codec

def magic : List UInt8 := [0x43, 0x54, 0x44, 0x42]

def formatVersion : Nat := 1

def headerSize : Nat := 20

def header (payload : List UInt8) : List UInt8 :=
  magic ++ putNat 2 formatVersion ++ putNat 2 0 ++ putWord (checksum payload) ++
    putCount payload.length

theorem header_length (payload : List UInt8) : (header payload).length = headerSize := by
  simp [header, magic, putWord, putCount, putNat_length, headerSize]

def encode (i : Image) : List UInt8 :=
  let payload := putImage i
  header payload ++ payload

def numberAt (bs : List UInt8) (start width : Nat) : Nat :=
  match takeNat width (bs.drop start) with
  | some (n, _) => n
  | none => 0

def payloadOf (bs : List UInt8) : List UInt8 := bs.drop headerSize

def statedChecksum (bs : List UInt8) : UInt32 := UInt32.ofNat (numberAt bs 8 4)

def statedLength (bs : List UInt8) : Nat := numberAt bs 12 8

def checkHeader (bs : List UInt8) (verify : Bool) : Except Error Unit :=
  if bs.length < headerSize ∨ bs.take 4 ≠ magic then .error .notTableFile
  else if numberAt bs 4 2 ≠ formatVersion then
    .error (.formatVersion (numberAt bs 4 2) formatVersion)
  else if (payloadOf bs).length ≠ statedLength bs then
    .error (.payloadLength (payloadOf bs).length (statedLength bs))
  else if verify ∧ checksum (payloadOf bs) ≠ statedChecksum bs then
    .error (.wrongChecksum (statedChecksum bs) (checksum (payloadOf bs)))
  else .ok ()

def readPayload (payload : List UInt8) : Except Error Image :=
  match takeImage payload with
  -- bytes after the image are ignored
  | some (i, _) => .ok { i with schema := i.schema.numbered }
  | none => .error .unreadablePayload

def decode (bs : List UInt8) (verify : Bool) : Except Error Image := do
  checkHeader bs verify
  let i ← readPayload (payloadOf bs)
  i.schema.validate
  return i

end Isam.TableFile
