import StereoCamera.Common.Std
import StereoCamera.Lib.BigEndian
import StereoCamera.Lib.PartialIO

/-! WebSocket frames as `WSServer.cpp` writes and reads them, over `SSL_write` and `SSL_read`
calls that may move only a part of what they are asked for. -/

namespace StereoCamera.WSServer
open PartialIO

structure Frame where
  opcode : UInt8
  payload : Bytes
  deriving DecidableEq

structure FrameHeader where
  opcode : UInt8
  masked : Bool
  payloadLen : UInt64
  mask : Bytes

def maxSize : ℕ := 2 ^ 63 - 1

def sslReadFull (len : ℕ) : Reader UInt8 Bytes := Source.readLoop len len

/-- The extended length, if the seven bits of the second byte ask for one. -/
def readPayloadLen (len7 : UInt8) : Reader UInt8 UInt64 :=
  if len7 = 126 then do
    let ext ← sslReadFull 2
    return (ext.getD 0 0).toUInt64 <<< 8 ||| (ext.getD 1 0).toUInt64
  else if len7 = 127 then do
    let ext ← sslReadFull 8
    return BigEndian.shiftIn 0 ext
  else return len7.toUInt64

def readMask (masked : Bool) : Reader UInt8 Bytes :=
  if masked then sslReadFull 4 else return [0, 0, 0, 0]

def readHeader : Reader UInt8 FrameHeader := do
  let hdr ← sslReadFull 2
  let payloadLen ← readPayloadLen (hdr.getD 1 0 &&& 0x7F)
  let mask ← readMask (hdr.getD 1 0 &&& 0x80 ≠ 0)
  return ⟨hdr.getD 0 0 &&& 0x0F, hdr.getD 1 0 &&& 0x80 ≠ 0, payloadLen, mask⟩

def applyMask (mask payload : Bytes) : Bytes :=
  payload.mapIdx fun i b => b ^^^ mask.getD (i % 4) 0

def FrameHeader.unmask (hdr : FrameHeader) (data : Bytes) : Bytes :=
  if hdr.masked then applyMask hdr.mask data else data

/-- `payload` is the vector that the caller passes; it is resized when the frame has a
payload. -/
def wsReadFrame (ssl : Source UInt8) (payload : Bytes) :
    Except StdException (Option (Frame × Source UInt8)) :=
  match readHeader.run ssl with
  | none => .ok none
  | some (hdr, ssl) =>
    if hdr.payloadLen > 0 then
      if hdr.payloadLen.toNat > maxSize then .error .lengthError
      else
        match ssl.readLoop 4096 hdr.payloadLen.toNat with
        | none => .ok none
        | some (data, ssl) =>
          .ok (some (⟨hdr.opcode, hdr.unmask data⟩, ssl))
    else .ok (some (⟨hdr.opcode, payload⟩, ssl))

/-- The bytes of a `uint32_t` as they stand in memory. -/
def uint32Bytes (n : UInt32) : Bytes :=
  [n.toUInt8, (n >>> 8).toUInt8, (n >>> 16).toUInt8, (n >>> 24).toUInt8]

/-- The header that `ws_send_binary` and `broadcast` build. -/
def buildHeader (first : UInt8) (len : UInt64) : Bytes :=
  if len < 126 then [first, len.toUInt8]
  else if len < 65536 then [first, 126, (len >>> 8 &&& 0xFF).toUInt8, (len &&& 0xFF).toUInt8]
  else
    [first, 127] ++ (List.range 8).map fun k =>
      (len >>> UInt64.ofNat ((7 - k) * 8) &&& 0xFF).toUInt8

def wsSendBinary (ssl : Sink UInt8) (data : Bytes) : Bool × Sink UInt8 :=
  let hdr := buildHeader 0x82 (UInt64.ofNat data.length)
  match ssl.writeLoop hdr.length hdr with
  | (false, ssl) => (false, ssl)
  | (true, ssl) => ssl.writeLoop 16384 data

/-- `SSL_write(ssl, data, data.size())`, taking all it is asked for. The size is an `int`. -/
def sslWriteWhole (ssl : Sink UInt8) (data : Bytes) : Sink UInt8 :=
  let num := Int.bmod data.length (2 ^ 32)
  if num ≤ 0 then ssl else { ssl with written := ssl.written ++ data.take num.toNat }

def broadcastTo (ssl : Sink UInt8) (message : Bytes) : Sink UInt8 :=
  sslWriteWhole (sslWriteWhole ssl (buildHeader 0x81 (UInt64.ofNat message.length))) message

end StereoCamera.WSServer
