import Skype.CallMachine
import Skype.PeerToPeer
import Skype.StreamRoundTrip

/-!
# Both peers learn where the other is

The addresses of a call end to end: the server keeps the address and the local
address of the caller and of the acceptor, its replies to `ACCEPT` and `PING` carry
one of them and the type of the network, `P2P` reads both from the reply, and the
I/O strategies compute the socket address of the peer from the requests that `P2P`
builds. Behind `handshake_peer` the address ends in a second port, which `std::stoi`
does not read.
-/

namespace Skype.PeerEndpoints

open Library CallControllers CallMachine

/-- A text of at most fifteen bytes without the bytes that end or separate texts, as
every dotted IPv4 address is. -/
structure IPv4 where
  text : ByteString
  ne_nil : text ≠ []
  length_le : text.length ≤ 15
  colon_notMem : colon ∉ text
  space_notMem : space ∉ text
  nul_notMem : 0 ∉ text

def addressText (ip : IPv4) (port : ℕ) : ByteString := ip.text ++ str ":" ++ sizeToString port

def socketAddress (net : Inet) (ip : IPv4) (port : ℕ) : SockAddr :=
  ⟨net.inetAddr ip.text, htons (UInt16.ofNat port)⟩

section

variable (ip : IPv4) (port : ℕ)

theorem addressText_append (tail : ByteString) :
    addressText ip port ++ tail = ip.text ++ colon :: (sizeToString port ++ tail) := by
  simp [addressText, str]

theorem addressText_eq : addressText ip port = ip.text ++ colon :: sizeToString port := by
  simpa using addressText_append ip port []

theorem cutFirst_addressText (tail : ByteString) :
    Search.cutFirst (str ":") (addressText ip port ++ tail) =
      (ip.text, sizeToString port ++ tail) := by
  rw [addressText_append]
  exact Search.cutFirst_append_cons _ ip.colon_notMem

theorem ipOf_addressText : AwaitingUser.ipOf (addressText ip port) = ip.text := by
  have h := cutFirst_addressText ip port []
  rw [List.append_nil] at h
  rw [AwaitingUser.ipOf, h]

theorem portOf_addressText :
    AwaitingUser.portOf (addressText ip port) = sizeToString port := by
  have h := cutFirst_addressText ip port []
  rw [List.append_nil, List.append_nil] at h
  rw [AwaitingUser.portOf, h]

theorem addressText_ne_nil : addressText ip port ≠ [] := by
  simp [addressText_eq]

theorem notMem_addressText {b : UInt8} (hip : b ∉ ip.text) (hcolon : b ≠ colon)
    (hdigit : Decimal.isDigit b = false) : b ∉ addressText ip port := by
  rw [addressText_eq, List.mem_append, List.mem_cons]
  rintro (h | h | h)
  · exact hip h
  · exact hcolon h
  · exact Decimal.notMem_print hdigit h

variable {port}

theorem length_addressText_le (hport : port < 2 ^ 16) : (addressText ip port).length ≤ 21 := by
  have hip := ip.length_le
  have hprint : (Decimal.print port).length ≤ 5 := Decimal.length_print_le (by omega) (by omega)
  rw [addressText_eq, List.length_append, List.length_cons, sizeToString]
  omega

theorem toSockaddrIn_eq (net : Inet) (hport : port < 2 ^ 16) {tail : ByteString}
    (htail : ∀ b ∈ tail.head?, Decimal.isDigit b = false) :
    Connection.toSockaddrIn net (sizeToString port ++ tail) ip.text =
      socketAddress net ip port := by
  have hip : cStr ip.text = ip.text := by
    rw [cStr, List.takeWhile_eq_self_iff]
    intro b hb
    have hne : b ≠ 0 := fun h => ip.nul_notMem (h ▸ hb)
    simpa using hne
  have hstoi : stoi (sizeToString port ++ tail) = .ok (Int32.ofInt port) :=
    stoi_of_scanInt (Decimal.scanInt_print_append port htail) (by omega) (by omega)
  have hword : Connection.portOfInt (Int32.ofInt port) = UInt16.ofNat port := by
    have hint : (Int32.ofInt port).toInt = port := by
      rw [Int32.ofInt_eq_ofNat]
      exact Int32.toInt_ofNat_of_lt (by omega)
    rw [Connection.portOfInt, hint]
    congr 1
    omega
  simp only [Connection.toSockaddrIn, hip, hstoi, hword, socketAddress]

end

structure SendsTo (net : Inet) (tReq : Request) (addr : SockAddr) : Prop where
  text : ∀ (tData : Data) (sent : List (SockAddr × List UInt8)), ∃ req,
    UDPTextIO.respond net (tReq.setData tData) ⟨sent, []⟩ =
      .ok (true, req, ⟨sent ++ [(addr, tData.bytes)], []⟩)
  stream : ∀ (tData : Data) (sent : List (SockAddr × List UInt8)), StreamIO.Streamable tData →
    ∃ req, StreamIO.respond net (tReq.setData tData) ⟨sent, []⟩ =
      .ok (true, req, ⟨sent ++ ( StreamIO.wire tData).map fun payload => (addr, payload), []⟩)

theorem sendsTo_addressText (net : Inet) (ip : IPv4) {port : ℕ} (hport : port < 2 ^ 16)
    (tail : ByteString) (htail : ∀ b ∈ tail.head?, Decimal.isDigit b = false)
    (hlen : tail.length ≤ 100) :
    SendsTo net (Request.new (addressText ip port ++ tail) true) (socketAddress net ip port) := by
  have hshort : (addressText ip port ++ tail).length < 2 ^ 31 := by
    have haddress := length_addressText_le ip hport
    rw [List.length_append]
    omega
  have hcut := cutFirst_addressText ip port tail
  have haddr := toSockaddrIn_eq ip net hport htail
  constructor
  · intro tData sent
    have h := UDPTextIO.respond_eq net (Request.new (addressText ip port ++ tail) true) tData
      hshort sent
    rw [Request.new, hcut] at h
    rw [← haddr]
    exact ⟨_, h⟩
  · intro tData sent hstream
    obtain ⟨info, hinfo, -⟩ := StreamIO.makePacketInfo_total hstream.length_lt
    have h : StreamIO.respond net
        ((Request.new (addressText ip port ++ tail) true).setData tData) ⟨sent, []⟩ = _ :=
      StreamIO.respond_eq net hshort rfl hstream.type_ne_text hinfo sent
    unfold StreamIO.addressed StreamIO.peerAddr at h
    rw [Request.new, hcut] at h
    rw [← haddr]
    exact ⟨_, h⟩

theorem length_printInt_le (i : Int32) : (intToString i).length ≤ 11 := by
  have hlo := i.le_toInt
  have hhi := i.toInt_lt
  have hprint : (Decimal.print i.toInt.natAbs).length ≤ 10 :=
    Decimal.length_print_le (by omega) (by omega)
  rw [intToString, Decimal.printInt]
  split
  · rw [List.length_cons]
    omega
  · omega

structure Client where
  ip : IPv4
  port : ℕ
  localIp : IPv4
  port_pos : 0 < port
  port_lt : port < 2 ^ 16

namespace Client

def SameIp (a b : Client) : Prop := a.ip.text = b.ip.text

instance (a b : Client) : Decidable (SameIp a b) := inferInstanceAs (Decidable (_ = _))

theorem SameIp.symm {a b : Client} (h : SameIp a b) : SameIp b a := Eq.symm h

def ipFor (a b : Client) : IPv4 := if SameIp a b then a.localIp else a.ip

def networkFor (a b : Client) : ByteString := if SameIp a b then str "LOCAL" else str "WEB"

def peerNetwork (a b : Client) : P2P.PeerNetwork := if SameIp a b then .localNetwork else .web

def endpoint (a : Client) : Endpoint where
  address := addressText a.ip a.port
  localAddress := a.localIp.text
  address_ne_nil := addressText_ne_nil a.ip a.port
  local_ne_nil := a.localIp.ne_nil
  short := by
    have h := length_addressText_le a.ip a.port_lt
    omega

theorem sameNetwork_iff (a b : Client) : a.endpoint.SameNetwork b.endpoint ↔ a.SameIp b := by
  rw [Endpoint.SameNetwork, endpoint, endpoint, ipOf_addressText, ipOf_addressText, SameIp]

theorem seenFrom_eq (a b : Client) :
    a.endpoint.seenFrom b.endpoint = addressText (a.ipFor b) a.port := by
  have hlocal : a.endpoint.localAddress ++
      (str ":" ++ AwaitingUser.portOf a.endpoint.address) = addressText a.localIp a.port := by
    have hport : AwaitingUser.portOf a.endpoint.address = sizeToString a.port :=
      portOf_addressText a.ip a.port
    rw [hport, addressText, List.append_assoc]
    rfl
  rw [Endpoint.seenFrom, hlocal, ipFor]
  simp only [sameNetwork_iff]
  split
  · rfl
  · rfl

theorem network_eq (a b : Client) : a.endpoint.network b.endpoint = a.networkFor b := by
  rw [Endpoint.network, networkFor]
  simp only [sameNetwork_iff]

theorem networkFor_eq_local_iff (a b : Client) : a.networkFor b = str "LOCAL" ↔ a.SameIp b := by
  have hne : str "WEB" ≠ str "LOCAL" := by decide
  rw [networkFor]
  split
  · next h => simp [h]
  · next h => simp [h, hne]

theorem networkFor_comm (a b : Client) : a.networkFor b = b.networkFor a := by
  by_cases h : a.SameIp b
  · rw [networkFor, networkFor, if_pos h, if_pos h.symm]
  · have hother : ¬ b.SameIp a := fun hba => h hba.symm
    rw [networkFor, networkFor, if_neg h, if_neg hother]

def reply (a b : Client) : ByteString :=
  str "201 " ++ (addressText (a.ipFor b) a.port ++ str " " ++ a.networkFor b)

end Client

structure Known where
  incoming : Incoming
  call : Call
  denotes : Denotes incoming call

theorem forall₂_known (requests : List Known) :
    List.Forall₂ Denotes (requests.map Known.incoming) (requests.map Known.call) := by
  induction requests with
  | nil => exact .nil
  | cons request requests ih => exact .cons request.denotes ih

def Spares (c : Int32) (call : Call) : Prop :=
  call.caller ≠ c ∨ ∃ caller, call = .connect c caller

structure Exchange (c : Int32) (caller callee : Client) where
  before : List Known
  connect : Incoming
  between : List Known
  accept : Incoming
  after : List Known
  ping : Incoming
  idle : (runAll Machine.start (before.map Known.call)).2 c = .idle
  connects : Denotes connect (.connect c caller.endpoint)
  spared : ∀ request ∈ between, Spares c request.call ∨ request.call = .ping c
  accepts : Denotes accept (.accept callee.endpoint c)
  kept : ∀ request ∈ after, Spares c request.call
  pings : Denotes ping (.ping c)

def Exchange.replies {c : Int32} {caller callee : Client} (x : Exchange c caller callee) :
    Exec (Option Data × Option Data) := do
  let (_, store) ← serveAll (x.before.map Known.incoming) AwaitingUsers.empty
  let (_, store) ← handle x.connect store
  let (_, store) ← serveAll (x.between.map Known.incoming) store
  let (acceptReq, store) ← handle x.accept store
  let (_, store) ← serveAll (x.after.map Known.incoming) store
  let (pingReq, _) ← handle x.ping store
  return (acceptReq.mData, pingReq.mData)

theorem runAll_of_stable {c : Int32} {state : CallState} {calls : List Call}
    (h : ∀ call ∈ calls, call.caller = c → (respond state call).2 = state) {m : Machine}
    (hm : m c = state) : (runAll m calls).2 c = state := by
  induction calls generalizing m with
  | nil => exact hm
  | cons call calls ih =>
    have hrest := ih (fun other hother => h other (List.mem_cons_of_mem _ hother))
      (m := (step m call).2)
    apply hrest
    by_cases hcaller : call.caller = c
    · have hstay := h call List.mem_cons_self hcaller
      rw [← hm, ← hcaller] at hstay ⊢
      simp only [step, hstay, Function.update_self]
    · have hother : c ≠ call.caller := fun he => hcaller he.symm
      simp only [step]
      rw [Function.update_of_ne hother, hm]

theorem respond_of_spares {c : Int32} {state : CallState} (hstate : state ≠ .idle) {call : Call}
    (h : Spares c call) (hcaller : call.caller = c) : (respond state call).2 = state := by
  rcases h with hne | ⟨caller, rfl⟩
  · exact absurd hcaller hne
  · rw [respond_connect hstate]

section

variable {c : Int32} {caller callee : Client}

theorem step_connect {m : Machine} (h : m c = .idle) (e : Endpoint) :
    (step m (.connect c e)).2 c = .waiting e := by
  simp only [step, Call.caller, h, respond, Function.update_self]

theorem step_accept {m : Machine} {e : Endpoint} (h : m c = .waiting e) (a : Endpoint) :
    (step m (.accept a c)).1 = .found (e.seenFrom a) (e.network a) ∧
      (step m (.accept a c)).2 c = .accepted e a := by
  simp only [step, Call.caller, h, respond, Function.update_self, and_self]

theorem step_ping {m : Machine} {e a : Endpoint} (h : m c = .accepted e a) :
    (step m (.ping c)).1 = .found (a.seenFrom e) (e.network a) := by
  simp only [step, Call.caller, h, respond]

theorem Exchange.replies_eq (x : Exchange c caller callee) :
    x.replies =
      .ok (some (textData (caller.reply callee)), some (textData (callee.reply caller))) := by
  obtain ⟨s₀, hs₀, r₀⟩ := serveAll_simulates (forall₂_known x.before) represents_start
  obtain ⟨req₁, s₁, h₁, -, r₁⟩ := simulates_of_denotes x.connects r₀
  obtain ⟨s₂, hs₂, r₂⟩ := serveAll_simulates (forall₂_known x.between) r₁
  obtain ⟨req₃, s₃, h₃, haccept, r₃⟩ := simulates_of_denotes x.accepts r₂
  obtain ⟨s₄, hs₄, r₄⟩ := serveAll_simulates (forall₂_known x.after) r₃
  obtain ⟨req₅, s₅, h₅, hping, -⟩ := simulates_of_denotes x.pings r₄
  have hspared : ∀ call ∈ x.between.map Known.call, call.caller = c →
      (respond (.waiting caller.endpoint) call).2 = .waiting caller.endpoint := by
    intro call hcall hcaller
    obtain ⟨request, hrequest, rfl⟩ := List.mem_map.mp hcall
    rcases x.spared request hrequest with hspares | hpings
    · exact respond_of_spares (by simp) hspares hcaller
    · rw [hpings]
      rfl
  have hkept : ∀ call ∈ x.after.map Known.call, call.caller = c →
      (respond (.accepted caller.endpoint callee.endpoint) call).2 =
        .accepted caller.endpoint callee.endpoint := by
    intro call hcall hcaller
    obtain ⟨request, hrequest, rfl⟩ := List.mem_map.mp hcall
    exact respond_of_spares (by simp) (x.kept request hrequest) hcaller
  -- No request in between changes the state of `c`.
  have hwaiting := runAll_of_stable hspared (step_connect x.idle caller.endpoint)
  obtain ⟨hanswer, hnext⟩ := step_accept hwaiting callee.endpoint
  have haccepted := runAll_of_stable hkept hnext
  rw [hanswer] at haccept
  rw [step_ping haccepted] at hping
  have hcaller : (Answer.found (caller.endpoint.seenFrom callee.endpoint)
      (caller.endpoint.network callee.endpoint)).text = caller.reply callee := by
    rw [Client.seenFrom_eq, Client.network_eq]
    rfl
  have hcallee : (Answer.found (callee.endpoint.seenFrom caller.endpoint)
      (caller.endpoint.network callee.endpoint)).text = callee.reply caller := by
    rw [Client.seenFrom_eq, Client.network_eq, Client.networkFor_comm]
    rfl
  rw [hcaller] at haccept
  rw [hcallee] at hping
  simp only [Exchange.replies, hs₀, h₁, hs₂, h₃, hs₄, h₅, ok_bind, haccept, hping, pure_eq_ok]

end

theorem names_argument (p : P2P) {tPeerId : ByteString} {c : Int32} (hspace : space ∉ tPeerId)
    (hint : StringUtils.toInt tPeerId = (true, c))
    (hshort : (p.argument tPeerId).length < 2 ^ 31) :
    Names (p.argument tPeerId) c p.mLocalIp := by
  refine ⟨tPeerId, ?_, hint⟩
  rw [StringUtils.splitFirst_eq hshort, P2P.argument, List.append_assoc]
  exact congrArg Except.ok (Search.cutFirst_append_cons p.mLocalIp hspace)

/-- The client `self` is ready to shake hands with `peer`, and sends to it. -/
structure Learned (net : Inet) (p : P2P) (peer self : Client) : Prop where
  status : p.mStatus = .accepted
  address : p.mPeerAddress = addressText (peer.ipFor self) peer.port
  network : p.mNetworkType = peer.peerNetwork self
  ready : p.invalidToHandshake = false
  handshake : SendsTo net p.handshakeRequest (socketAddress net (peer.ipFor self) peer.port)
  request : SendsTo net p.makeRequest (socketAddress net (peer.ipFor self) peer.port)

theorem learned_of_reply (net : Inet) (p : P2P) (peer self : Client) :
    Learned net (p.learned (addressText (peer.ipFor self) peer.port) (peer.networkFor self))
      peer self where
  status := rfl
  address := rfl
  network := by
    rw [P2P.learned, Client.peerNetwork]
    simp only [P2P.LOCAL, Client.networkFor_eq_local_iff]
  ready := (P2P.invalidToHandshake_eq_false_iff _).mpr
    ⟨rfl, addressText_ne_nil _ _, P2P.mNetworkType_learned _ _ _⟩
  handshake := by
    have hcolon : ∀ b ∈ (str ":" ++ intToString p.mConn.mPort).head?,
        Decimal.isDigit b = false := by
      intro b hb
      obtain rfl : colon = b := by simpa [str] using hb
      decide
    have hlen : (str ":" ++ intToString p.mConn.mPort).length ≤ 100 := by
      have hport := length_printInt_le p.mConn.mPort
      have hone : (str ":").length = 1 := rfl
      rw [List.length_append, hone]
      omega
    have h := sendsTo_addressText net (peer.ipFor self) peer.port_lt _ hcolon hlen
    rwa [← List.append_assoc] at h
  request := by
    have h := sendsTo_addressText net (peer.ipFor self) peer.port_lt [] (by simp) (by simp)
    rwa [List.append_nil] at h

section Reply

variable (peer self : Client)

theorem space_notMem_reply : space ∉ addressText (peer.ipFor self) peer.port :=
  notMem_addressText _ _ (peer.ipFor self).space_notMem (by decide) (by decide)

theorem length_networkFor_le : (peer.networkFor self).length ≤ 5 := by
  rw [Client.networkFor]
  split <;> decide

theorem length_reply_le :
    (addressText (peer.ipFor self) peer.port).length + (peer.networkFor self).length ≤ 500 := by
  have haddress := length_addressText_le (peer.ipFor self) peer.port_lt
  have hnetwork := length_networkFor_le peer self
  omega

theorem nul_notMem_reply :
    0 ∉ addressText (peer.ipFor self) peer.port ++ space :: peer.networkFor self := by
  have hnetwork : 0 ∉ peer.networkFor self := by
    rw [Client.networkFor]
    split <;> decide
  rw [List.mem_append, List.mem_cons]
  rintro (h | h | h)
  · exact notMem_addressText _ _ (peer.ipFor self).nul_notMem (by decide) (by decide) h
  · exact absurd h (by decide)
  · exact hnetwork h

end Reply

/-- The replies to `ACCEPT` and `PING` carry one network type, `LOCAL` if and only if
both clients have the same public address. From each of them the `P2P` object learns
the endpoint of the other client in that network, and its requests go there. -/
theorem peers_agree {c : Int32} {caller callee : Client} (x : Exchange c caller callee)
    (net : Inet) (settings : P2P.Settings) :
    ∃ acceptText pingText network : ByteString,
      x.replies = .ok (some (textData acceptText), some (textData pingText)) ∧
      acceptText =
        str "201 " ++ (addressText (caller.ipFor callee) caller.port ++ str " " ++ network) ∧
      pingText =
        str "201 " ++ (addressText (callee.ipFor caller) callee.port ++ str " " ++ network) ∧
      (network = str "LOCAL" ∨ network = str "WEB") ∧
      (network = str "LOCAL" ↔ caller.ip.text = callee.ip.text) ∧
      (∀ p : P2P, p.mConn.mIo = .udpText → ∀ tPeerId sent source arrivals, ∃ p' ch,
        p.acceptPeer net settings tPeerId
            ⟨⟨sent, []⟩, .datagram source acceptText :: arrivals⟩ = .ok (p', ch) ∧
          Learned net p' caller callee) ∧
      ∀ p : P2P, p.mConn.mIo = .udpText → p.mType = .initiator → p.mStatus ≠ .accepted →
        ∀ sent source arrivals, ∃ p' ch,
          p.pingPeer net settings ⟨⟨sent, []⟩, .datagram source pingText :: arrivals⟩ =
            .ok (p', ch) ∧ Learned net p' callee caller := by
  refine ⟨_, _, caller.networkFor callee, x.replies_eq, rfl, ?_, ?_,
    Client.networkFor_eq_local_iff caller callee, ?_, ?_⟩
  · rw [Client.networkFor_comm, Client.reply]
  · rw [Client.networkFor]
    split
    · exact Or.inl rfl
    · exact Or.inr rfl
  · intro p hio tPeerId sent source arrivals
    obtain ⟨ch, haccept⟩ := P2P.acceptPeer_found net settings hio sent source
      (space_notMem_reply caller callee) (length_reply_le caller callee)
      (nul_notMem_reply caller callee) arrivals tPeerId
    exact ⟨_, ch, haccept, learned_of_reply net _ caller callee⟩
  · intro p hio htype hstatus sent source arrivals
    obtain ⟨ch, hping⟩ := P2P.pingPeer_found net settings hio sent source
      (space_notMem_reply callee caller) (length_reply_le callee caller)
      (nul_notMem_reply callee caller) arrivals htype hstatus
    exact ⟨_, ch, hping, learned_of_reply net _ callee caller⟩

def johnClient : Client where
  ip := ⟨str "1.2.3.4", by decide, by decide, by decide, by decide, by decide⟩
  port := 5000
  localIp := ⟨john.localAddress, john.local_ne_nil, by decide, by decide, by decide, by decide⟩
  port_pos := by decide
  port_lt := by decide

def marioClient : Client where
  ip := ⟨str "5.6.7.8", by decide, by decide, by decide, by decide, by decide⟩
  port := 6000
  localIp := ⟨mario.localAddress, mario.local_ne_nil, by decide, by decide, by decide, by decide⟩
  port_pos := by decide
  port_lt := by decide

def johnPeer : P2P := P2P.new (str "token-1") 4 (str "192.168.0.14")

def marioPeer : P2P := P2P.new (str "token-2") 4 (str "192.168.0.9")

def requestOf (command : Command) (p : P2P) (client : Client) (tPeerId : String) : Incoming :=
  ⟨setupDb, command, p.argument (str tPeerId),
    { Request.new (addressText client.ip client.port) true with mToken := p.mToken }⟩

def marioAccepts : Exchange 1 johnClient marioClient where
  before := []
  connect := requestOf .connect johnPeer johnClient "2"
  between := []
  accept := requestOf .accept marioPeer marioClient "1"
  after := []
  ping := requestOf .ping johnPeer johnClient ""
  idle := rfl
  connects := by
    have hnames : Names (johnPeer.argument (str "2")) 2 (str "192.168.0.14") :=
      names_argument johnPeer (by decide) (by decide) (by decide)
    exact .connect ⟨by decide, by decide⟩ hnames rfl
  spared := by simp
  accepts := by
    have hauth : Authenticated setupDb
        (requestOf .accept marioPeer marioClient "1").tReq 2 := ⟨by decide, by decide⟩
    have hnames : Names (marioPeer.argument (str "1")) 1 (str "192.168.0.9") :=
      names_argument marioPeer (by decide) (by decide) (by decide)
    exact .accept hauth hnames rfl
  kept := by simp
  pings := .ping ⟨by decide, by decide⟩

theorem peers_agree_mario :
    let net : Inet :=
      ⟨fun text => if text = str "1.2.3.4" then 0x04030201 else 0x08070605,
        fun addr => if addr = 0x04030201 then str "1.2.3.4" else str "5.6.7.8"⟩
    let settings : P2P.Settings := ⟨str "9.9.9.9", str "4001", by decide⟩
    ∃ acceptText pingText,
      marioAccepts.replies = .ok (some (textData acceptText), some (textData pingText)) ∧
      (∃ p ch, marioPeer.acceptPeer net settings (str "1")
          ⟨⟨[], []⟩, [.datagram ⟨0x09090909, htons 4001⟩ acceptText]⟩ = .ok (p, ch) ∧
        Learned net p johnClient marioClient) ∧
      ∃ p ch, ({ johnPeer with mType := .initiator, mStatus := .awaiting } : P2P).pingPeer net
          settings ⟨⟨[], []⟩, [.datagram ⟨0x09090909, htons 4001⟩ pingText]⟩ = .ok (p, ch) ∧
        Learned net p marioClient johnClient := by
  intro net settings
  obtain ⟨acceptText, pingText, network, hreplies, -, -, -, -, haccept, hping⟩ :=
    peers_agree marioAccepts net settings
  refine ⟨acceptText, pingText, hreplies, ?_, ?_⟩
  · exact haccept marioPeer rfl (str "1") [] ⟨0x09090909, htons 4001⟩ []
  · exact hping { johnPeer with mType := .initiator, mStatus := .awaiting } rfl rfl (by decide) []
      ⟨0x09090909, htons 4001⟩ []

end Skype.PeerEndpoints
