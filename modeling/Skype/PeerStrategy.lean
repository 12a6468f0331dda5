import Skype.PeerHandshake
import Skype.ServerReplies

/-!
# The I/O strategy behind a `P2P` object

Commands to the server are texts and travel through `UDPTextIO`, packages of media
travel through `StreamIO`. The socket of a `P2P` object starts with the first, a
handshake that connects swaps it for the second, and nothing swaps it back.
-/

namespace Skype.PeerStrategy

open Library P2P ServerReplies

inductive Call
  | operation (op : Operation)
  | sendPackage (tReq : Request)
  | receivePackage (tReq : Request)

structure Session where
  p : P2P
  channel : Channel
  package : Option Request
  connectedOnce : Bool

def Session.start (tToken : ByteString) (mSocket : Int32) (mLocalIp : ByteString) (ch : Channel) :
    Session :=
  ⟨P2P.new tToken mSocket mLocalIp, ch, none, false⟩

def Session.step (net : Inet) (settings : Settings) (s : Session) : Call → Exec Session
  | .operation op => do
    let (p, ch) ← perform net settings s.p s.channel op
    return ⟨p, ch, s.package, s.connectedOnce || p.mStatus = .connected⟩
  | .sendPackage tReq => do
    let (tReq, ch) ← P2P.sendPackage net s.p tReq s.channel
    return { s with channel := ch, package := some tReq }
  | .receivePackage tReq => do
    let (tReq, ch) ← P2P.receivePackage net s.p tReq s.channel
    return { s with channel := ch, package := some tReq }

def serverAddr (net : Inet) (settings : Settings) : SockAddr :=
  let (ip, port) := Search.cutFirst (str ":")
    (settings.serverAddress ++ str ":" ++ settings.udpPort)
  Connection.toSockaddrIn net port ip

/-- A command becomes one datagram with its text, sent to the server. -/
def Texted (net : Inet) (settings : Settings) (s : Session) (op : Operation) (t : Session) :
    Prop :=
  ∀ text, commandOf s.p op = some text →
    t.channel.out = (s.channel.out.sendto (serverAddr net settings) text).2

/-- A package of a connected object is what `io` makes of it through `StreamIO`, and
any other package is refused. -/
def Streamed (s : Session) (io : UDPConn → Exec (Bool × Request × Channel)) (t : Session) :
    Prop :=
  if s.p.mStatus = .connected then
    ∃ valid req, io (s.p.mConn.setStrategy .stream) = .ok (valid, req, t.channel) ∧
      t.package = some req
  else t.channel = s.channel ∧ ∃ req, t.package = some req ∧ req.mValid = false

def Carried (net : Inet) (settings : Settings) (s : Session) (call : Call) (t : Session) : Prop :=
  match call with
  | .operation op => Texted net settings s op t
  | .sendPackage tReq => Streamed s (fun conn => conn.respond net tReq s.channel) t
  | .receivePackage tReq => Streamed s (fun conn => conn.receive net tReq s.channel) t

def BeforeConnection (s : Session) (call : Call) (_ : Session) : Prop :=
  ∀ op, call = .operation op → commandOf s.p op ≠ none → s.connectedOnce = false

section

variable {net : Inet} {settings : Settings} {p q : P2P} {text msg : ByteString}
  {ch ch' : Channel}

theorem sendto_ne (out : Outbox) (addr : SockAddr) (payload : List UInt8) :
    (out.sendto addr payload).2 ≠ out := by
  obtain ⟨sent, outcomes⟩ := out
  cases outcomes with
  | nil => simp [Outbox.sendto]
  | cons outcome outcomes => cases outcome <;> simp [Outbox.sendto]

theorem receive_out {conn : UDPConn} {tReq req : Request} {valid : Bool}
    (h : conn.receive net tReq ch = .ok (valid, req, ch')) : ch'.out = ch.out := by
  cases hvalid : tReq.mValid with
  | false =>
    rw [UDPConn.receive_invalid net conn ch hvalid] at h
    cases h
    rfl
  | true =>
    simp only [UDPConn.receive, hvalid, if_true] at h
    cases hio : conn.mIo with
    | udpText =>
      rw [hio] at h
      obtain ⟨received, -, hresult⟩ := bind_eq_ok.mp h
      cases hresult
      rfl
    | stream =>
      rw [hio] at h
      dsimp only at h
      split at h
      · cases h
        rfl
      · cases h

theorem sendServer_text (hio : p.mConn.mIo = .udpText)
    (h : sendServer net settings p text ch = .ok (msg, q, ch')) :
    ch'.out = (ch.out.sendto (serverAddr net settings) text).2 := by
  simp only [sendServer, bind_eq_ok] at h
  obtain ⟨⟨sent, req, ch₁⟩, hrespond, ⟨got, req', ch₂⟩, hreceive, response, -, pair, -,
    hresult⟩ := h
  cases hresult
  have hvalid : (makeServerRequest settings text).mValid = true := rfl
  have hsplit := StringUtils.splitFirst_eq (d := str ":") settings.short
  have hsent : UDPTextIO.respond net
      { makeServerRequest settings text with mSocket := p.mConn.mSocket } ch.out =
      .ok ((ch.out.sendto (serverAddr net settings) text).1,
        { makeServerRequest settings text with
          mSocket := p.mConn.mSocket
          mValid := (ch.out.sendto (serverAddr net settings) text).1 },
        (ch.out.sendto (serverAddr net settings) text).2) := by
    rw [ UDPTextIO.respond, makeServerRequest]
    dsimp only [Request.new, Request.setData]
    rw [hsplit]
    rfl
  rw [UDPConn.respond_of_text net hio ch hvalid hsent] at hrespond
  cases hrespond
  exact receive_out hreceive

theorem sendServer_stream (hio : p.mConn.mIo = .stream)
    (h : sendServer net settings p text ch = .ok (msg, q, ch')) : ch'.out = ch.out := by
  simp only [sendServer, bind_eq_ok] at h
  obtain ⟨⟨sent, req, ch₁⟩, hrespond, ⟨got, req', ch₂⟩, hreceive, response, -, pair, -,
    hresult⟩ := h
  cases hresult
  rw [respond_server_stream net settings hio] at hrespond
  cases hrespond
  exact receive_out hreceive

end

structure Tracks (s : Session) : Prop where
  io : s.p.mConn.mIo = if s.connectedOnce then .stream else .udpText
  connected : s.p.mStatus = .connected → s.connectedOnce = true

theorem tracks_start (tToken : ByteString) (mSocket : Int32) (mLocalIp : ByteString)
    (ch : Channel) : Tracks (Session.start tToken mSocket mLocalIp ch) where
  io := rfl
  connected := nofun

section

variable {net : Inet} {settings : Settings} {p q : P2P} {op : Operation} {ch ch' : Channel}

theorem handshakeAcceptor_keeps {tReq : Request}
    (h : handshakeAcceptor net p tReq .localNetwork ch = .ok (q, ch')) : Keeps p q := by
  have hlocal : PeerNetwork.localNetwork ≠ .web := by decide
  simp only [handshakeAcceptor, if_neg hlocal, pure_eq_ok, ok_bind, bind_eq_ok] at h
  obtain ⟨⟨got, req, ch₁⟩, -, ⟨p', req', ch₂⟩, hretry, h⟩ := h
  have hkept := retry_keeps hretry
  split at h
  · cases h
    exact hkept
  · obtain ⟨response, -, h⟩ := bind_eq_ok.mp h
    split at h
    · obtain ⟨⟨sent, r, ch₃⟩, -, hresult⟩ := bind_eq_ok.mp h
      cases hresult
      exact ⟨hkept.token, hkept.localIp, hkept.conn⟩
    · cases h
      exact ⟨hkept.token, hkept.localIp, hkept.conn⟩

theorem handshakeInitiator_keeps {tReq : Request}
    (h : handshakeInitiator net p tReq .localNetwork ch = .ok (q, ch')) : Keeps p q := by
  have hlocal : PeerNetwork.localNetwork ≠ .web := by decide
  simp only [handshakeInitiator, if_neg hlocal, pure_eq_ok, ok_bind, bind_eq_ok] at h
  obtain ⟨⟨sent, req₁, ch₁⟩, -, ⟨got, req, ch₂⟩, -, ⟨p', req', ch₃⟩, hretry, h⟩ := h
  have hkept := retry_keeps hretry
  split at h
  · cases h
    exact hkept
  · obtain ⟨response, -, h⟩ := bind_eq_ok.mp h
    split at h
    · cases h
      exact ⟨hkept.token, hkept.localIp, hkept.conn⟩
    · cases h
      exact ⟨hkept.token, hkept.localIp, hkept.conn⟩

theorem handshakePeer_keeps (h : handshakePeer net p ch = .ok (q, ch')) :
    q = p ∨ q.mToken = p.mToken ∧ q.mLocalIp = p.mLocalIp ∧
      q.mConn = if q.mStatus = .connected then p.mConn.setStrategy .stream else p.mConn := by
  cases hready : p.invalidToHandshake with
  | true =>
    rw [handshakePeer_of_invalid hready] at h
    cases h
    exact Or.inl rfl
  | false =>
    right
    obtain ⟨p', hrole, hsame, hkept, hswapped⟩ := handshakePeer_role hready h
    have hkeeps : Keeps p p' := by
      obtain ⟨-, -, hnetwork⟩ := (invalidToHandshake_eq_false_iff p).mp hready
      cases htype : p.mType with
      | none =>
        rw [htype] at hrole
        cases hrole
        exact ⟨rfl, rfl, rfl⟩
      | acceptor =>
        rw [htype] at hrole
        cases hweb : p.mNetworkType with
        | unselected => exact absurd hweb hnetwork
        | localNetwork =>
          rw [hweb] at hrole
          exact handshakeAcceptor_keeps hrole
        | web =>
          rw [hweb] at hrole
          obtain ⟨⟨req, ch₁⟩, -, hlocal⟩ := bind_eq_ok.mp hrole
          exact handshakeAcceptor_keeps hlocal
      | initiator =>
        rw [htype] at hrole
        cases hweb : p.mNetworkType with
        | unselected => exact absurd hweb hnetwork
        | localNetwork =>
          rw [hweb] at hrole
          exact handshakeInitiator_keeps hrole
        | web =>
          rw [hweb] at hrole
          obtain ⟨⟨req, ch₁⟩, -, hlocal⟩ := bind_eq_ok.mp hrole
          exact handshakeInitiator_keeps hlocal
    rw [← hkeeps.token, ← hkeeps.localIp, ← hkeeps.conn, hsame]
    by_cases hconnected : p'.mStatus = .connected
    · obtain ⟨hconn, htoken, hlocalIp⟩ := hswapped hconnected
      rw [if_pos hconnected]
      exact ⟨htoken, hlocalIp, hconn⟩
    · rw [if_neg hconnected, hkept hconnected]
      exact ⟨rfl, rfl, rfl⟩

theorem perform_command_keeps {text : ByteString} (hcommand : commandOf p op = some text)
    (h : perform net settings p ch op = .ok (q, ch')) :
    Keeps p q ∧ q.mStatus ≠ .connected := by
  obtain ⟨p', msg, r, hbefore, hsend, ⟨-, hafter, hidle⟩, -⟩ := perform_command hcommand h
  have hsent : Keeps p' r := by
    rw [sendServer_keeps hsend]
    exact ⟨rfl, rfl, rfl⟩
  exact ⟨(hbefore.trans hsent).trans hafter, hidle⟩

theorem perform_quiet (hquiet : commandOf p op = none)
    (h : perform net settings p ch op = .ok (q, ch')) :
    op = .handshakePeer ∨ q = p ∨ q = p.reset := by
  cases op with
  | connectPeer tPeerId => cases hquiet
  | acceptPeer tPeerId => cases hquiet
  | rejectPeer tPeerId => cases hquiet
  | pingPeer =>
    right
    left
    simp only [perform, pingPeer] at h
    rw [commandOf] at hquiet
    split at hquiet
    · next htype =>
      rw [if_pos htype] at h
      cases h
      rfl
    · next htype =>
      rw [if_neg htype] at h
      split at hquiet
      · next hstatus =>
        rw [if_pos hstatus] at h
        cases h
        rfl
      · cases hquiet
  | hangupPeer =>
    right
    left
    simp only [perform, hangupPeer] at h
    rw [commandOf] at hquiet
    split at hquiet
    · next htype =>
      rw [if_pos htype] at h
      cases h
      rfl
    · cases hquiet
  | handshakePeer => exact Or.inl rfl
  | reset =>
    cases h
    exact Or.inr (Or.inr rfl)

theorem perform_keeps_text (h : perform net settings p ch op = .ok (q, ch')) :
    q.mToken = p.mToken ∧ q.mLocalIp = p.mLocalIp := by
  cases hcommand : commandOf p op with
  | some text =>
    obtain ⟨hkept, -⟩ := perform_command_keeps hcommand h
    exact ⟨hkept.token, hkept.localIp⟩
  | none =>
    rcases perform_quiet hcommand h with rfl | rfl | rfl
    · rcases handshakePeer_keeps h with rfl | ⟨htoken, hlocalIp, -⟩
      · exact ⟨rfl, rfl⟩
      · exact ⟨htoken, hlocalIp⟩
    · exact ⟨rfl, rfl⟩
    · exact ⟨rfl, rfl⟩

theorem perform_conn (h : perform net settings p ch op = .ok (q, ch')) :
    (q.mConn = p.mConn ∧ (q.mStatus = .connected → p.mStatus = .connected)) ∨
      (q.mConn = p.mConn.setStrategy .stream ∧ q.mStatus = .connected) := by
  cases hcommand : commandOf p op with
  | some text =>
    obtain ⟨hkept, hidle⟩ := perform_command_keeps hcommand h
    exact Or.inl ⟨hkept.conn, fun hconnected => absurd hconnected hidle⟩
  | none =>
    rcases perform_quiet hcommand h with rfl | rfl | rfl
    · rcases handshakePeer_keeps h with rfl | ⟨-, -, hconn⟩
      · exact Or.inl ⟨rfl, id⟩
      · split at hconn
        · next hconnected => exact Or.inr ⟨hconn, hconnected⟩
        · next hidle => exact Or.inl ⟨hconn, fun hconnected => absurd hconnected hidle⟩
    · exact Or.inl ⟨rfl, id⟩
    · exact Or.inl ⟨rfl, nofun⟩

end

section

variable {net : Inet} {settings : Settings} {s t : Session} {call : Call}

theorem operation_eq_ok {op : Operation} (h : s.step net settings (.operation op) = .ok t) :
    ∃ p ch, perform net settings s.p s.channel op = .ok (p, ch) ∧
      t = ⟨p, ch, s.package, s.connectedOnce || p.mStatus = .connected⟩ := by
  obtain ⟨⟨p, ch⟩, hperform, hresult⟩ := bind_eq_ok.mp h
  cases hresult
  exact ⟨p, ch, hperform, rfl⟩

theorem tracks_step (hs : Tracks s) (h : s.step net settings call = .ok t) : Tracks t := by
  cases call with
  | operation op =>
    obtain ⟨p, ch, hperform, rfl⟩ := operation_eq_ok h
    rcases perform_conn hperform with ⟨hconn, hbefore⟩ | ⟨hconn, hconnected⟩
    · constructor
      · have honce : p.mStatus = .connected → s.connectedOnce = true :=
          fun hp => hs.connected (hbefore hp)
        dsimp only
        rw [hconn, hs.io]
        by_cases hp : p.mStatus = .connected
        · simp [hp, honce hp]
        · simp [hp]
      · intro hp
        simp [hs.connected (hbefore hp)]
    · constructor
      · simp [hconn, hconnected, UDPConn.setStrategy]
      · intro hp
        simp [show p.mStatus = .connected from hp]
  | sendPackage tReq =>
    obtain ⟨⟨req, ch⟩, -, hresult⟩ := bind_eq_ok.mp h
    cases hresult
    exact ⟨hs.io, hs.connected⟩
  | receivePackage tReq =>
    obtain ⟨⟨req, ch⟩, -, hresult⟩ := bind_eq_ok.mp h
    cases hresult
    exact ⟨hs.io, hs.connected⟩

theorem texted_iff (hs : Tracks s) {op : Operation}
    (h : s.step net settings (.operation op) = .ok t) :
    Texted net settings s op t ↔ (commandOf s.p op ≠ none → s.connectedOnce = false) := by
  obtain ⟨p, ch, hperform, rfl⟩ := operation_eq_ok h
  cases hcommand : commandOf s.p op with
  | none => simp [Texted, hcommand]
  | some text =>
    obtain ⟨p', msg, r, hkeeps, hsend, -⟩ := perform_command hcommand hperform
    have hio : p'.mConn.mIo = if s.connectedOnce then .stream else .udpText := by
      rw [hkeeps.conn, hs.io]
    cases honce : s.connectedOnce with
    | false =>
      rw [honce] at hio
      have hout := sendServer_text hio hsend
      simp [Texted, hcommand, hout]
    | true =>
      rw [honce] at hio
      have hout : ch.out = s.channel.out := sendServer_stream hio hsend
      have hne := sendto_ne s.channel.out (serverAddr net settings) text
      simp [Texted, hcommand, hout, hne.symm]

theorem stream_of_connected (hs : Tracks s) (h : s.p.mStatus = .connected) :
    s.p.mConn.setStrategy .stream = s.p.mConn := by
  have hio := hs.io
  rw [hs.connected h, if_pos rfl] at hio
  rw [UDPConn.setStrategy, ← hio]

theorem sendPackage_streamed (hs : Tracks s) {tReq : Request}
    (h : s.step net settings (.sendPackage tReq) = .ok t) :
    Streamed s (fun conn => conn.respond net tReq s.channel) t := by
  obtain ⟨⟨req, ch⟩, hsend, hresult⟩ := bind_eq_ok.mp h
  cases hresult
  unfold P2P.sendPackage at hsend
  split at hsend
  · next hconnected =>
    obtain ⟨⟨valid, req', ch'⟩, hrespond, hresult⟩ := bind_eq_ok.mp hsend
    cases hresult
    rw [Streamed, if_pos hconnected, stream_of_connected hs hconnected]
    exact ⟨valid, req, hrespond, rfl⟩
  · next hidle =>
    cases hsend
    rw [Streamed, if_neg hidle]
    exact ⟨rfl, tReq.fail, rfl, rfl⟩

theorem receivePackage_streamed (hs : Tracks s) {tReq : Request}
    (h : s.step net settings (.receivePackage tReq) = .ok t) :
    Streamed s (fun conn => conn.receive net tReq s.channel) t := by
  obtain ⟨⟨req, ch⟩, hreceive, hresult⟩ := bind_eq_ok.mp h
  cases hresult
  unfold P2P.receivePackage at hreceive
  split at hreceive
  · next hconnected =>
    obtain ⟨⟨valid, req', ch'⟩, hread, hresult⟩ := bind_eq_ok.mp hreceive
    cases hresult
    rw [Streamed, if_pos hconnected, stream_of_connected hs hconnected]
    exact ⟨valid, req, hread, rfl⟩
  · next hidle =>
    cases hreceive
    rw [Streamed, if_neg hidle]
    exact ⟨rfl, tReq.fail, rfl, rfl⟩

theorem carried_iff (hs : Tracks s) (h : s.step net settings call = .ok t) :
    Carried net settings s call t ↔ BeforeConnection s call t := by
  cases call with
  | operation op =>
    have hiff := texted_iff hs h
    constructor
    · rintro htexted _ ⟨⟩
      exact hiff.mp htexted
    · intro hbefore
      exact hiff.mpr (hbefore op rfl)
  | sendPackage tReq => exact iff_of_true (sendPackage_streamed hs h) nofun
  | receivePackage tReq => exact iff_of_true (receivePackage_streamed hs h) nofun

end

theorem calls_carried_iff (net : Inet) (settings : Settings) (tToken : ByteString)
    (mSocket : Int32) (mLocalIp : ByteString) (ch : Channel) (calls : List Call) :
    Transition.AlwaysM (Session.step net settings) (Carried net settings)
        (Session.start tToken mSocket mLocalIp ch) calls ↔
      Transition.AlwaysM (Session.step net settings) BeforeConnection
        (Session.start tToken mSocket mLocalIp ch) calls :=
  Transition.alwaysM_congr_of_invariant (tracks_start tToken mSocket mLocalIp ch)
    (fun _ _ _ hs hstep => carried_iff hs hstep)
    (fun _ _ _ hs hstep _ => tracks_step hs hstep)

/-- The object accepts a call, connects with the caller, is reset and dials somebody. -/
theorem connect_after_reset_unsent :
    ¬Transition.AlwaysM (Session.step lan lanSettings) (Carried lan lanSettings)
      (Session.start (str "token-1") 4 (str "192.168.0.14") ⟨⟨[], []⟩,
        [.datagram ⟨1, htons 4000⟩ (str "201 5.6.7.8:6000 LOCAL"),
          .datagram ⟨2, htons 6000⟩ (str "200 OK")]⟩)
      [.operation (.acceptPeer (str "1")), .operation .handshakePeer, .operation .reset,
        .operation (.connectPeer (str "3"))] := by
  intro h
  rw [Transition.alwaysM_cons_iff] at h
  obtain ⟨-, h⟩ := h ⟨announced, ⟨⟨[(serverAddr lan lanSettings,
    str "ACCEPT token-1 1 192.168.0.14")], []⟩, [.datagram ⟨2, htons 6000⟩ (str "200 OK")]⟩,
    none, false⟩ rfl
  rw [Transition.alwaysM_cons_iff] at h
  obtain ⟨-, h⟩ := h _ rfl
  rw [Transition.alwaysM_cons_iff] at h
  obtain ⟨-, h⟩ := h _ rfl
  have hout := (h [] (.operation (.connectPeer (str "3"))) [] _ _ rfl rfl rfl)
    (str "CONNECT token-1 3 192.168.0.14") (by decide)
  exact sendto_ne _ _ _ hout.symm

end Skype.PeerStrategy
