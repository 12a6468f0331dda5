import Skype.Reply
import Skype.ServerCommand
import Skype.UDPConn

/-!
# `P2P`

The client side of a call: the commands it sends to the server over its datagram
socket, and the handshake with the peer whose address the server's reply carries.
Every operation takes the channel of the socket and returns it behind what it sent
and received.
-/

namespace Skype

namespace P2P

inductive Status
  | idle
  | awaiting
  | accepted
  | connected
  | error
  deriving DecidableEq, Repr

inductive PeerType
  | initiator
  | acceptor
  | none
  deriving DecidableEq, Repr

inductive PeerNetwork
  | localNetwork
  | web
  | unselected
  deriving DecidableEq, Repr

structure Settings where
  serverAddress : ByteString
  udpPort : ByteString
  short : (serverAddress ++ str ":" ++ udpPort).length < 2 ^ 31

end P2P

structure P2P where
  mPeerAddress : ByteString
  mToken : ByteString
  mConn : UDPConn
  mStatus : P2P.Status
  mType : P2P.PeerType
  mLastReply : Reply.Code
  mLocalIp : ByteString
  mNetworkType : P2P.PeerNetwork

namespace P2P

def delim : ByteString := str " "
def LOCAL : ByteString := str "LOCAL"
def maxPunchTrials : ℕ := 20

def new (tToken : ByteString) (mSocket : Int32) (mLocalIp : ByteString) : P2P :=
  ⟨[], tToken, UDPConn.unbound mSocket .udpText, .idle, .none, .none, mLocalIp, .unselected⟩

def makeRequest (p : P2P) : Request := Request.new p.mPeerAddress true

def reset (p : P2P) : P2P :=
  { p with mLastReply := .none, mPeerAddress := [], mStatus := .idle, mType := .none }

def makeServerRequest (settings : Settings) (tTextData : ByteString) : Request :=
  (Request.new (settings.serverAddress ++ str ":" ++ settings.udpPort) true).setData
    (textData tTextData)

def commandText (p : P2P) (tCmd : ServerCommand.Name) (tArg : ByteString) : ByteString :=
  ServerCommand.toString tCmd ++ delim ++ p.mToken ++ delim ++ tArg

def bareCommandText (p : P2P) (tCmd : ServerCommand.Name) : ByteString :=
  ServerCommand.toString tCmd ++ delim ++ p.mToken

/-- `send_server`: whether the request was sent and answered is not looked at, so
behind a failure the request still holds the text that was to be sent. -/
def sendServer (net : Inet) (settings : Settings) (p : P2P) (tTextData : ByteString)
    (ch : Channel) : Exec (ByteString × P2P × Channel) := do
  let req := makeServerRequest settings tTextData
  let (_, req, ch) ← p.mConn.respond net req ch
  let (_, req, ch) ← p.mConn.receive net req ch
  let response ← req.data
  let (code, msg) ← StringUtils.splitFirst response.bytes (str " ")
  return (msg, { p with mLastReply := Reply.fromString code }, ch)

def argument (p : P2P) (tPeerId : ByteString) : ByteString := tPeerId ++ str " " ++ p.mLocalIp

def connectPeer (net : Inet) (settings : Settings) (p : P2P) (tPeerId : ByteString)
    (ch : Channel) : Exec (P2P × Channel) := do
  let (_, p, ch) ← sendServer net settings p (p.commandText .connect (p.argument tPeerId)) ch
  let p := { p with mType := .initiator }
  if p.mLastReply = .r200 then return ({ p with mStatus := .awaiting }, ch)
  else if p.mLastReply = .r306 then return ({ p with mStatus := .awaiting }, ch)
  else return ({ p with mStatus := .error }, ch)

def acceptPeer (net : Inet) (settings : Settings) (p : P2P) (tPeerId : ByteString)
    (ch : Channel) : Exec (P2P × Channel) := do
  let p := { p with mType := .acceptor }
  let (response, p, ch) ← sendServer net settings p
    (p.commandText .accept (p.argument tPeerId)) ch
  if p.mLastReply = .r201 then
    let p := { p with mStatus := .accepted }
    let (address, addressType) ← StringUtils.splitFirst response (str " ")
    return ({ p with
      mPeerAddress := address
      mNetworkType := if addressType = LOCAL then .localNetwork else .web }, ch)
  else return ({ p with mStatus := .error }, ch)

def rejectPeer (net : Inet) (settings : Settings) (p : P2P) (tPeerId : ByteString)
    (ch : Channel) : Exec (P2P × Channel) := do
  let p := { p with mType := .acceptor }
  let (_, p, ch) ← sendServer net settings p (p.commandText .reject tPeerId) ch
  return ({ p with mStatus := if p.mLastReply = .r200 then .idle else .error }, ch)

def pingPeer (net : Inet) (settings : Settings) (p : P2P) (ch : Channel) :
    Exec (P2P × Channel) :=
  if p.mType ≠ .initiator then .ok (p, ch)
  else if p.mStatus = .accepted then .ok (p, ch)
  else do
    let (response, p, ch) ← sendServer net settings p (p.bareCommandText .ping) ch
    if p.mLastReply = .r201 then
      let p := { p with mStatus := .accepted }
      let (address, addressType) ← StringUtils.splitFirst response (str " ")
      return ({ p with
        mPeerAddress := address
        mNetworkType := if addressType = str "LOCAL" then .localNetwork else .web }, ch)
    else if p.mLastReply = .r203 then return ({ p with mStatus := .awaiting }, ch)
    else return ({ p with mStatus := .error }, ch)

def hangupPeer (net : Inet) (settings : Settings) (p : P2P) (ch : Channel) :
    Exec (P2P × Channel) :=
  if p.mType ≠ .initiator then .ok (p, ch)
  else do
    let (_, p, ch) ← sendServer net settings p (p.bareCommandText .hangup) ch
    return ({ p with mStatus := if p.mLastReply = .r200 then .idle else .error }, ch)

def okMsg : ByteString := Reply.getMessage .r200

def invalidToHandshake (p : P2P) : Bool :=
  if p.mStatus ≠ .accepted then true
  else if p.mPeerAddress = [] then true
  else if p.mNetworkType = .unselected then true
  else false

def handshakeRequest (p : P2P) : Request :=
  Request.new (p.mPeerAddress ++ str ":" ++ intToString p.mConn.mPort) true

def holePunch (net : Inet) (p : P2P) (tReq : Request) (ch : Channel) :
    Exec (Request × Channel) := do
  let (_, tReq, ch) ← p.mConn.respond net (tReq.setData (textData okMsg)) ch
  return (tReq, ch)

def retryLoop (net : Inet) (p : P2P) : ℕ → Request → Channel → Exec (Bool × Request × Channel)
  | 0, tReq, ch => .ok (false, tReq, ch)
  | n + 1, tReq, ch => do
    let (tReq, ch) ← holePunch net p tReq ch
    let (success, tReq, ch) ← p.mConn.receive net tReq ch
    if success then return (true, tReq, ch) else retryLoop net p n tReq ch

def retry (net : Inet) (p : P2P) (tReq : Request) (gotRes : Bool) (ch : Channel) :
    Exec (P2P × Request × Channel) :=
  if gotRes then .ok (p, tReq, ch)
  else do
    let (success, tReq, ch) ← retryLoop net p maxPunchTrials tReq ch
    return (if success then p else { p with mStatus := .error }, tReq, ch)

def handshakeAcceptor (net : Inet) (p : P2P) (tReq : Request) (tPeerNetwork : PeerNetwork)
    (ch : Channel) : Exec (P2P × Channel) := do
  let (tReq, ch) ← if tPeerNetwork = .web then holePunch net p tReq ch else pure (tReq, ch)
  -- The address of the request is the sender's from here on, if anything came.
  let (gotRes, tReq, ch) ← p.mConn.receive net tReq ch
  let (p, tReq, ch) ← retry net p tReq gotRes ch
  if p.mStatus = .error then return (p, ch)
  let response ← tReq.data
  if response.bytes = okMsg then
    let p := { p with mStatus := .connected }
    let (_, _, ch) ← p.mConn.respond net (tReq.setData (textData okMsg)) ch
    return (p, ch)
  else return ({ p with mStatus := .error }, ch)

def handshakeInitiator (net : Inet) (p : P2P) (tReq : Request) (tPeerNetwork : PeerNetwork)
    (ch : Channel) : Exec (P2P × Channel) := do
  let (tReq, ch) ← if tPeerNetwork = .web then holePunch net p tReq ch else pure (tReq, ch)
  let (_, tReq, ch) ← p.mConn.respond net (tReq.setData (textData okMsg)) ch
  let (gotRes, tReq, ch) ← p.mConn.receive net tReq ch
  let (p, tReq, ch) ← retry net p tReq gotRes ch
  if p.mStatus = .error then return (p, ch)
  let response ← tReq.data
  if okMsg = response.bytes then return ({ p with mStatus := .connected }, ch)
  else return ({ p with mStatus := .error }, ch)

def handshakePeer (net : Inet) (p : P2P) (ch : Channel) : Exec (P2P × Channel) :=
  if p.invalidToHandshake then .ok (p, ch)
  else do
    let req := p.handshakeRequest
    let (p, ch) ← match p.mType with
      | .acceptor => handshakeAcceptor net p req p.mNetworkType ch
      | .initiator => handshakeInitiator net p req p.mNetworkType ch
      | .none => pure (p, ch)
    if p.mStatus = .connected then
      return ({ p with mConn := p.mConn.setStrategy .stream }, ch)
    else return (p, ch)

def sendPackage (net : Inet) (p : P2P) (tReq : Request) (ch : Channel) :
    Exec (Request × Channel) :=
  if p.mStatus = .connected then do
    let (_, tReq, ch) ← p.mConn.respond net tReq ch
    return (tReq, ch)
  else .ok (tReq.fail, ch)

def receivePackage (net : Inet) (p : P2P) (tReq : Request) (ch : Channel) :
    Exec (Request × Channel) :=
  if p.mStatus = .connected then do
    let (_, tReq, ch) ← p.mConn.receive net tReq ch
    return (tReq, ch)
  else .ok (tReq.fail, ch)

theorem invalidToHandshake_eq_false_iff (p : P2P) :
    p.invalidToHandshake = false ↔
      p.mStatus = .accepted ∧ p.mPeerAddress ≠ [] ∧ p.mNetworkType ≠ .unselected := by
  unfold invalidToHandshake
  split
  · simp_all
  · split
    · simp_all
    · split <;> simp_all

theorem sendServer_eq (net : Inet) (settings : Settings) {p : P2P}
    (hio : p.mConn.mIo = .udpText) (tTextData : ByteString)
    (sent : List (SockAddr × List UInt8)) (source : SockAddr) {word msg : ByteString}
    (hword : space ∉ word) (hlen : (word ++ space :: msg).length ≤ UDPTextIO.bufferSize)
    (hnul : 0 ∉ word ++ space :: msg) (arrivals : List Arrival) :
    ∃ ch, sendServer net settings p tTextData
        ⟨⟨sent, []⟩, .datagram source (word ++ space :: msg) :: arrivals⟩ =
      .ok (msg, { p with mLastReply := Reply.fromString word }, ch) := by
  obtain ⟨req, out, hrespond, hvalid⟩ := UDPConn.respond_text net hio
    (Request.new (settings.serverAddress ++ str ":" ++ settings.udpPort) true)
    (textData tTextData) rfl settings.short sent
    (.datagram source (word ++ space :: msg) :: arrivals)
  obtain ⟨answered, hreceive, hdata⟩ := UDPConn.receive_datagram net hio hvalid source hlen hnul
    out arrivals
  have hresponse : answered.data = .ok (textData (word ++ space :: msg)) := by
    rw [Request.data, hdata]
  have hshort : (word ++ space :: msg).length < 2 ^ 31 := by
    unfold UDPTextIO.bufferSize at hlen
    omega
  have hsplit : StringUtils.splitFirst (word ++ space :: msg) (str " ") = .ok (word, msg) := by
    rw [StringUtils.splitFirst_eq hshort]
    exact congrArg Except.ok (Library.Search.cutFirst_append_cons msg hword)
  refine ⟨⟨out, arrivals⟩, ?_⟩
  rw [sendServer, makeServerRequest, hrespond, ok_bind]
  simp only [hreceive, ok_bind, hresponse, textData, hsplit, pure_eq_ok]

def learned (p : P2P) (address addressType : ByteString) : P2P :=
  { p with
    mLastReply := .r201
    mStatus := .accepted
    mPeerAddress := address
    mNetworkType := if addressType = LOCAL then .localNetwork else .web }

theorem mNetworkType_learned (p : P2P) (address addressType : ByteString) :
    (p.learned address addressType).mNetworkType ≠ .unselected := by
  by_cases h : addressType = LOCAL
  · simp [learned, h]
  · simp [learned, h]

section Found

variable (net : Inet) (settings : Settings) {p : P2P} (hio : p.mConn.mIo = .udpText)
  (sent : List (SockAddr × List UInt8)) (source : SockAddr) {address addressType : ByteString}
  (hspace : space ∉ address) (hlen : address.length + addressType.length ≤ 500)
  (hnul : 0 ∉ address ++ space :: addressType) (arrivals : List Arrival)
include hlen

section

include hio hnul

theorem sendServer_found (tTextData : ByteString) :
    ∃ ch, sendServer net settings p tTextData ⟨⟨sent, []⟩, .datagram source
        (str "201 " ++ (address ++ str " " ++ addressType)) :: arrivals⟩ =
      .ok (address ++ str " " ++ addressType, { p with mLastReply := .r201 }, ch) := by
  have htext : str "201 " ++ (address ++ str " " ++ addressType) =
      str "201" ++ space :: (address ++ str " " ++ addressType) := rfl
  have hcode : Reply.fromString (str "201") = .r201 := by decide
  have hword : space ∉ str "201" := by decide
  rw [htext, ← hcode]
  apply sendServer_eq net settings hio tTextData sent source hword
  · have hfour : (str "201").length = 3 := rfl
    have hone : (str " ").length = 1 := rfl
    simp only [List.length_append, List.length_cons, hfour, hone, UDPTextIO.bufferSize]
    omega
  · have hdigits : 0 ∉ str "201" := by decide
    have hsplit : address ++ str " " ++ addressType = address ++ space :: addressType := by
      rw [List.append_assoc]
      rfl
    rw [hsplit, List.mem_append, List.mem_cons]
    rintro (h | h | h)
    · exact hdigits h
    · exact absurd h (by decide)
    · exact hnul h

end

include hspace

theorem splitFirst_found :
    StringUtils.splitFirst (address ++ str " " ++ addressType) (str " ") =
      .ok (address, addressType) := by
  have hone : (str " ").length = 1 := rfl
  have hshort : (address ++ str " " ++ addressType).length < 2 ^ 31 := by
    simp only [List.length_append, hone]
    omega
  rw [StringUtils.splitFirst_eq hshort, List.append_assoc]
  exact congrArg Except.ok (Library.Search.cutFirst_append_cons addressType hspace)

include hio hnul

theorem acceptPeer_found (tPeerId : ByteString) :
    ∃ ch, p.acceptPeer net settings tPeerId ⟨⟨sent, []⟩, .datagram source
        (str "201 " ++ (address ++ str " " ++ addressType)) :: arrivals⟩ =
      .ok (({ p with mType := .acceptor } : P2P).learned address addressType, ch) := by
  obtain ⟨ch, hsend⟩ := sendServer_found net settings (p := { p with mType := .acceptor }) hio
    sent source hlen hnul arrivals
    (({ p with mType := .acceptor } : P2P).commandText .accept (p.argument tPeerId))
  refine ⟨ch, ?_⟩
  have hargument : ({ p with mType := .acceptor } : P2P).argument tPeerId = p.argument tPeerId :=
    rfl
  have hsplit := splitFirst_found hspace hlen
  simp only [acceptPeer, hargument, hsend, ok_bind, if_true, hsplit, pure_eq_ok]
  rfl

theorem pingPeer_found (htype : p.mType = .initiator) (hstatus : p.mStatus ≠ .accepted) :
    ∃ ch, p.pingPeer net settings ⟨⟨sent, []⟩, .datagram source
        (str "201 " ++ (address ++ str " " ++ addressType)) :: arrivals⟩ =
      .ok (p.learned address addressType, ch) := by
  obtain ⟨ch, hsend⟩ := sendServer_found net settings hio sent source hlen hnul arrivals
    (p.bareCommandText .ping)
  refine ⟨ch, ?_⟩
  have hsplit := splitFirst_found hspace hlen
  simp only [pingPeer, htype, ne_eq, not_true_eq_false, if_false, if_neg hstatus, hsend, ok_bind,
    if_true, hsplit, pure_eq_ok, learned]
  rfl

end Found

end P2P

end Skype
