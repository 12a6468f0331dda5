import Skype.StringUtils

/-!
# Requests, addresses and datagrams

What the I/O strategies share: the `Data` and the `Request` they fill in, the
socket address computed from an `ip:port` text, and the two directions of a
datagram socket. `recvfrom` takes the next arrival from a list, a datagram or a
failure such as the receive timeout; `sendto` appends to the datagrams sent,
unless the next outcome is a failure.
-/

namespace Skype

open Library

inductive DataType
  | audio
  | video
  | text
  | empty
  | done
  deriving DecidableEq, Repr

namespace DataType

def toChar : DataType → UInt8
  | .audio => 97
  | .video => 118
  | .text => 116
  | .empty => 101
  | .done => 100

def ofChar (c : UInt8) : DataType :=
  if c = 97 then .audio
  else if c = 118 then .video
  else if c = 116 then .text
  else if c = 100 then .done
  else .empty

theorem ofChar_toChar (t : DataType) : ofChar t.toChar = t := by
  cases t <;> rfl

end DataType

/-- A `TextData` has type `text`; an `AVData` has the type it was built with. -/
structure Data where
  type : DataType
  bytes : List UInt8
  deriving DecidableEq

def textData (text : ByteString) : Data := ⟨.text, text⟩

structure Request where
  mSocket : Int32
  mAddress : ByteString
  mToken : ByteString
  mValid : Bool
  mExit : Bool
  mData : Option Data
  deriving DecidableEq

namespace Request

def new (tAddress : ByteString) (tValid : Bool) : Request :=
  ⟨-1, tAddress, [], tValid, false, none⟩

def setData (tReq : Request) (tData : Data) : Request := { tReq with mData := some tData }

/-- `data()` followed by a member access, undefined on the null pointer. -/
def data (tReq : Request) : Exec Data :=
  match tReq.mData with
  | some tData => .ok tData
  | none => .error .undefined

def fail (tReq : Request) : Request := { tReq with mValid := false }

end Request

structure Inet where
  inetAddr : ByteString → UInt32
  inetNtop : UInt32 → ByteString

structure SockAddr where
  sinAddr : UInt32
  sinPort : UInt16
  deriving DecidableEq

def htons (port : UInt16) : UInt16 := port <<< 8 ||| port >>> 8

def cStr (s : ByteString) : ByteString := s.takeWhile (· != 0)

namespace Connection

def portOfInt (port : Int32) : UInt16 := UInt16.ofNat (port.toInt % 2 ^ 16).toNat

def toSockaddrIn (net : Inet) (tPort tAddress : ByteString) : SockAddr where
  sinAddr := net.inetAddr (cStr tAddress)
  sinPort := match stoi tPort with
    | .ok port => htons (portOfInt port)
    | .error _ => htons 0

def addressTostring (net : Inet) (tAddress : SockAddr) : ByteString :=
  cStr (net.inetNtop tAddress.sinAddr)

def portTostring (tAddress : SockAddr) : ByteString :=
  sizeToString (htons tAddress.sinPort).toNat

end Connection

inductive Arrival
  | failure
  | datagram (source : SockAddr) (payload : List UInt8)
  deriving DecidableEq

/-- The datagrams sent so far and the outcomes of the calls of `sendto` still to
come; calls beyond the list succeed. -/
structure Outbox where
  sent : List (SockAddr × List UInt8)
  outcomes : List Bool
  deriving DecidableEq

def Outbox.sendto (out : Outbox) (addr : SockAddr) (payload : List UInt8) : Bool × Outbox :=
  match out.outcomes with
  | false :: outcomes => (false, { out with outcomes })
  | true :: outcomes => (true, ⟨out.sent ++ [(addr, payload)], outcomes⟩)
  | [] => (true, ⟨out.sent ++ [(addr, payload)], []⟩)

theorem Outbox.sendto_nil (sent : List (SockAddr × List UInt8)) (addr : SockAddr)
    (payload : List UInt8) :
    Outbox.sendto ⟨sent, []⟩ addr payload = (true, ⟨sent ++ [(addr, payload)], []⟩) := rfl

end Skype
