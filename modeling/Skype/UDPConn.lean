import Skype.StreamIO

/-!
# `UDPTextIO` and `UDPConn`

A text over UDP is one datagram; a `UDPConn` is a datagram socket with the I/O
strategy that its requests go through. The arrivals are the datagrams the socket
still has to read, a failure standing for a receive that ends with the timeout.
-/

namespace Skype

open Library

namespace UDPTextIO

def bufferSize : ℕ := 512

def respond (net : Inet) (tReq : Request) (out : Outbox) : Exec (Bool × Request × Outbox) := do
  let (ip, port) ← StringUtils.splitFirst tReq.mAddress (str ":")
  let tData ← tReq.data
  let addrIn := Connection.toSockaddrIn net port ip
  let (sent, out) := out.sendto addrIn tData.bytes
  return (sent, { tReq with mValid := sent }, out)

/-- The buffer is cut at its first NUL, which is the padding behind a short text. -/
def receive (net : Inet) (tReq : Request) : List Arrival → Exec (Bool × Request × List Arrival)
  | [] => .error .waiting
  | .failure :: arrivals => .ok (false, tReq.fail, arrivals)
  | .datagram source payload :: arrivals =>
    let buffer := cStr (payload.take bufferSize)
    let tReq := { tReq with
      mValid := true
      mAddress := Connection.addressTostring net source ++ str ":" ++
        Connection.portTostring source }
    .ok (true, tReq.setData (textData buffer), arrivals)

theorem respond_eq (net : Inet) (tReq : Request) (tData : Data)
    (hshort : tReq.mAddress.length < 2 ^ 31) (sent : List (SockAddr × List UInt8)) :
    respond net (tReq.setData tData) ⟨sent, []⟩ =
      .ok (true, { tReq.setData tData with mValid := true },
        ⟨sent ++ [(Connection.toSockaddrIn net (Search.cutFirst (str ":") tReq.mAddress).2
          (Search.cutFirst (str ":") tReq.mAddress).1, tData.bytes)], []⟩) := by
  have hsplit := StringUtils.splitFirst_eq (s := tReq.mAddress) (d := str ":") hshort
  have haddr : (tReq.setData tData).mAddress = tReq.mAddress := rfl
  rw [respond, haddr, hsplit]
  rfl

theorem receive_datagram (net : Inet) (tReq : Request) (source : SockAddr) {text : ByteString}
    (hlen : text.length ≤ bufferSize) (hnul : 0 ∉ text) (arrivals : List Arrival) :
    ∃ req, receive net tReq (.datagram source text :: arrivals) = .ok (true, req, arrivals) ∧
      req.mData = some (textData text) := by
  refine ⟨_, rfl, ?_⟩
  have hcut : cStr (text.take bufferSize) = text := by
    rw [List.take_of_length_le hlen, cStr, List.takeWhile_eq_self_iff]
    intro b hb
    have hne : b ≠ 0 := fun h => hnul (h ▸ hb)
    simpa using hne
  rw [hcut]
  rfl

end UDPTextIO

inductive IOStrategy
  | udpText
  | stream
  deriving DecidableEq

structure UDPConn where
  mPort : Int32
  mSocket : Int32
  mIo : IOStrategy
  deriving DecidableEq

structure Channel where
  out : Outbox
  arrivals : List Arrival

namespace UDPConn

def unbound (mSocket : Int32) (tIo : IOStrategy) : UDPConn := ⟨7000, mSocket, tIo⟩

def setStrategy (conn : UDPConn) (tIo : IOStrategy) : UDPConn := { conn with mIo := tIo }

def receive (net : Inet) (conn : UDPConn) (tReq : Request) (ch : Channel) :
    Exec (Bool × Request × Channel) :=
  let tReq := { tReq with mSocket := conn.mSocket }
  if tReq.mValid then do
    let (valid, tReq, arrivals) ←
      match conn.mIo with
      | .udpText => UDPTextIO.receive net tReq ch.arrivals
      | .stream =>
        match StreamIO.receive net tReq ch.arrivals with
        | some received => .ok received
        | none => .error .waiting
    return (valid, { tReq with mValid := valid }, { ch with arrivals })
  else .ok (false, tReq, ch)

def respond (net : Inet) (conn : UDPConn) (tReq : Request) (ch : Channel) :
    Exec (Bool × Request × Channel) :=
  let tReq := { tReq with mSocket := conn.mSocket }
  if tReq.mValid then do
    let (valid, tReq, out) ←
      match conn.mIo with
      | .udpText => UDPTextIO.respond net tReq ch.out
      | .stream => StreamIO.respond net tReq ch.out
    return (valid, { tReq with mValid := valid }, { ch with out })
  else .ok (false, tReq, ch)

def textOf (payload : List UInt8) : ByteString := cStr (payload.take UDPTextIO.bufferSize)

theorem length_textOf_le (payload : List UInt8) :
    (textOf payload).length ≤ UDPTextIO.bufferSize := by
  have hcut : (textOf payload).Sublist (payload.take UDPTextIO.bufferSize) :=
    List.takeWhile_sublist _
  exact hcut.length_le.trans (List.length_take_le UDPTextIO.bufferSize payload)

def sourceText (net : Inet) (source : SockAddr) : ByteString :=
  Connection.addressTostring net source ++ str ":" ++ Connection.portTostring source

theorem receive_invalid (net : Inet) (conn : UDPConn) {tReq : Request} (ch : Channel)
    (h : tReq.mValid = false) :
    conn.receive net tReq ch = .ok (false, { tReq with mSocket := conn.mSocket }, ch) := by
  simp [receive, h]

theorem respond_invalid (net : Inet) (conn : UDPConn) {tReq : Request} (ch : Channel)
    (h : tReq.mValid = false) :
    conn.respond net tReq ch = .ok (false, { tReq with mSocket := conn.mSocket }, ch) := by
  simp [respond, h]

section

variable (net : Inet) {conn : UDPConn} (hio : conn.mIo = .udpText)
include hio

theorem receive_text_cases {tReq req : Request} {ch ch' : Channel} {valid : Bool}
    (h : conn.receive net tReq ch = .ok (valid, req, ch')) :
    (valid = true ∧ tReq.mValid = true ∧ ∃ source payload,
      ch.arrivals = .datagram source payload :: ch'.arrivals ∧ req.mValid = true ∧
      req.mData = some (textData (textOf payload))) ∨
    (valid = false ∧ req.mValid = false ∧ req.mData = tReq.mData ∧
      (tReq.mValid = false ∧ ch' = ch ∨
        tReq.mValid = true ∧ ch.arrivals = .failure :: ch'.arrivals)) := by
  cases hvalid : tReq.mValid with
  | false =>
    rw [receive_invalid net conn ch hvalid] at h
    cases h
    exact Or.inr ⟨rfl, hvalid, rfl, Or.inl ⟨rfl, rfl⟩⟩
  | true =>
    obtain ⟨out, arrivals⟩ := ch
    simp only [receive, hio, hvalid, if_true] at h
    unfold UDPTextIO.receive at h
    cases arrivals with
    | nil => cases h
    | cons arrival arrivals =>
      cases arrival with
      | failure =>
        cases h
        exact Or.inr ⟨rfl, rfl, rfl, Or.inr ⟨rfl, rfl⟩⟩
      | datagram source payload =>
        cases h
        exact Or.inl ⟨rfl, rfl, source, payload, rfl, rfl, rfl⟩

theorem respond_text_cases {tReq req : Request} {ch ch' : Channel} {valid : Bool}
    (h : conn.respond net tReq ch = .ok (valid, req, ch')) :
    req.mValid = valid ∧ req.mData = tReq.mData ∧ ch'.arrivals = ch.arrivals ∧
      (valid = true ↔ tReq.mValid = true ∧ ch.out.outcomes.head? ≠ some false) ∧
      (tReq.mValid = true → ch'.out.outcomes = ch.out.outcomes.tail) := by
  cases hvalid : tReq.mValid with
  | false =>
    rw [respond_invalid net conn ch hvalid] at h
    cases h
    exact ⟨hvalid, rfl, rfl, by simp, by simp⟩
  | true =>
    obtain ⟨⟨sent, outcomes⟩, arrivals⟩ := ch
    simp only [respond, hio, hvalid, if_true, UDPTextIO.respond, bind_eq_ok] at h
    obtain ⟨a, ⟨b, -, c, -, hsent⟩, hresult⟩ := h
    cases hsent
    cases hresult
    cases outcomes with
    | nil => exact ⟨rfl, rfl, rfl, by simp [Outbox.sendto], fun _ => rfl⟩
    | cons outcome outcomes =>
      cases outcome with
      | false => exact ⟨rfl, rfl, rfl, by simp [Outbox.sendto], fun _ => rfl⟩
      | true => exact ⟨rfl, rfl, rfl, by simp [Outbox.sendto], fun _ => rfl⟩

theorem respond_of_text {tReq req : Request} (ch : Channel) {out : Outbox} {valid : Bool}
    (hvalid : tReq.mValid = true)
    (h : UDPTextIO.respond net { tReq with mSocket := conn.mSocket } ch.out =
      .ok (valid, req, out)) :
    conn.respond net tReq ch = .ok (valid, { req with mValid := valid }, { ch with out }) := by
  rw [respond, hio]
  dsimp only
  rw [if_pos hvalid, h, ok_bind]
  rfl

theorem respond_text (tReq : Request) (tData : Data) (hvalid : tReq.mValid = true)
    (hshort : tReq.mAddress.length < 2 ^ 31) (sent : List (SockAddr × List UInt8))
    (arrivals : List Arrival) :
    ∃ req out, conn.respond net (tReq.setData tData) ⟨⟨sent, []⟩, arrivals⟩ =
        .ok (true, req, ⟨out, arrivals⟩) ∧ req.mValid = true := by
  have hset : (tReq.setData tData).mValid = true := hvalid
  have hsent := UDPTextIO.respond_eq net { tReq with mSocket := conn.mSocket } tData hshort sent
  have h := respond_of_text net hio ⟨⟨sent, []⟩, arrivals⟩ hset hsent
  exact ⟨_, _, h, rfl⟩

theorem receive_of_text {tReq req : Request} (ch : Channel) {arrivals : List Arrival}
    {valid : Bool} (hvalid : tReq.mValid = true)
    (h : UDPTextIO.receive net { tReq with mSocket := conn.mSocket } ch.arrivals =
      .ok (valid, req, arrivals)) :
    conn.receive net tReq ch =
      .ok (valid, { req with mValid := valid }, { ch with arrivals }) := by
  rw [receive, hio]
  dsimp only
  rw [if_pos hvalid, h, ok_bind]
  rfl

theorem receive_datagram {tReq : Request} (hvalid : tReq.mValid = true) (source : SockAddr)
    {text : ByteString} (hlen : text.length ≤ UDPTextIO.bufferSize) (hnul : 0 ∉ text)
    (out : Outbox) (arrivals : List Arrival) :
    ∃ req, conn.receive net tReq ⟨out, .datagram source text :: arrivals⟩ =
        .ok (true, req, ⟨out, arrivals⟩) ∧ req.mData = some (textData text) := by
  obtain ⟨req, hreceive, hdata⟩ := UDPTextIO.receive_datagram net
    { tReq with mSocket := conn.mSocket } source hlen hnul arrivals
  have h := receive_of_text net hio ⟨out, .datagram source text :: arrivals⟩ hvalid hreceive
  exact ⟨_, h, hdata⟩

end

end UDPConn

end Skype
