import Skype.Socket
import Skype.Library.Segments

/-!
# `TextIO`

A text message travels over TCP as its length, ten decimal digits with leading
zeros, and its bytes. The stream a receiver reads is the list of the non-empty
pieces in which it arrives, closed behind the last one: a plain `recv` ends at
the end of a piece, a `recv` with `MSG_WAITALL` reads on to the next pieces.
-/

namespace Skype.TextIO

open Library

def headerLength : ℕ := 10

def recv (n : ℕ) (pieces : List ByteString) : ByteString × List ByteString :=
  let received := (pieces.headD []).take n
  (received, Segments.drop received.length pieces)

def recvWaitall (n : ℕ) (pieces : List ByteString) : ByteString × List ByteString :=
  let received := pieces.flatten.take n
  (received, Segments.drop received.length pieces)

/-- The padding is a string of `HEADER_LENGTH - msg_length.size()` zeros, a
`size_t` that wraps around when the number is too long. -/
def createHeader (tMsgLength : Int32) : Exec ByteString :=
  let msgLength := intToString tMsgLength
  if headerLength < msgLength.length then .error .lengthError
  else .ok (List.replicate (headerLength - msgLength.length) 48 ++ msgLength)

/-- `respond` and the bytes it writes to the stream; `send` writes its whole
buffer and its result is kept in an `int`. -/
def respond (tReq : Request) : Exec (Bool × ByteString) :=
  match tReq.mData with
  | none => .ok (false, [])
  | some tData =>
    if tData.type = .text then do
      let header ← createHeader (sizeToInt tData.bytes.length)
      let buffer := header ++ tData.bytes
      return (decide (0 ≤ sizeToInt buffer.length), buffer)
    else .ok (false, [])

def respondAll (tReq : Request) : List ByteString → Exec ByteString
  | [] => .ok []
  | msg :: msgs => do
    let (_, buffer) ← respond (tReq.setData (textData msg))
    let rest ← respondAll tReq msgs
    return buffer ++ rest

/-- What `read_header` makes of ten bytes; text that is not a number counts as 0. -/
def parseHeader (header : ByteString) : Int32 :=
  match stoi (cStr header) with
  | .ok msgLength => msgLength
  | .error _ => 0

def readHeader (pieces : List ByteString) : Int32 × List ByteString :=
  let (header, pieces) := recv headerLength pieces
  (if header.length = headerLength then parseHeader header else -1, pieces)

/-- `msg_length + 1` overflows for the greatest `int`. -/
def receive (tReq : Request) (pieces : List ByteString) : Exec (Bool × Request × List ByteString) :=
  let (msgLength, pieces) := readHeader pieces
  if msgLength < 0 then .ok (false, tReq, pieces)
  else if msgLength = Int32.maxValue then .error .undefined
  else
    let (received, pieces) := recvWaitall (intToSize msgLength) pieces
    .ok (true, tReq.setData (textData (cStr received)), pieces)

def receiveAll (tReq : Request) : ℕ → List ByteString → Exec (List (Option Data))
  | 0, _ => .ok []
  | n + 1, pieces => do
    let (received, req, pieces) ← receive tReq pieces
    let rest ← receiveAll tReq n pieces
    return (if received then req.mData else none) :: rest

end Skype.TextIO
