import Skype.PeerLifetime

/-!
# `P2P::handshake_peer` and the source of the `200 OK`

Up to the first datagram a handshake only sends. The text of that datagram alone
decides whether the object connects, while its source replaces the address of the
request, so a handshake connects with the announced peer exactly when the peer is
the first that is heard.
-/

namespace Skype.P2P

open UDPConn (textOf sourceText)

structure Punched (ch : Channel) (k : ℕ) (tReq : Request) (ch' : Channel) : Prop where
  arrivals : ch'.arrivals = ch.arrivals
  valid : tReq.mValid = true ↔ false ∉ ch.out.outcomes.take k
  outcomes : tReq.mValid = true → ch'.out.outcomes = ch.out.outcomes.drop k

section

variable {net : Inet} {p : P2P} {tReq req : Request} {ch ch₁ ch₂ : Channel} {k : ℕ}

theorem punched_zero (hvalid : tReq.mValid = true) : Punched ch 0 tReq ch where
  arrivals := rfl
  valid := by simp [hvalid]
  outcomes := fun _ => rfl

theorem notMem_take_succ {outcomes : List Bool} :
    false ∉ outcomes.take (k + 1) ↔
      false ∉ outcomes.take k ∧ (outcomes.drop k).head? ≠ some false := by
  rw [List.take_add_one, List.mem_append, List.head?_drop, not_or]
  cases outcomes[k]? with
  | none => simp
  | some b => cases b <;> simp

theorem Punched.respond (hio : p.mConn.mIo = .udpText) (h : Punched ch k tReq ch₁) {sent : Bool}
    {tData : Data}
    (hrespond : p.mConn.respond net (tReq.setData tData) ch₁ = .ok (sent, req, ch₂)) :
    Punched ch (k + 1) req ch₂ := by
  obtain ⟨hvalid, -, harrivals, hsent, houtcomes⟩ := UDPConn.respond_text_cases net hio hrespond
  have hbefore : (tReq.setData tData).mValid = tReq.mValid := rfl
  rw [hbefore] at hsent houtcomes
  constructor
  · rw [harrivals, h.arrivals]
  · rw [hvalid, hsent, notMem_take_succ, ← h.valid]
    constructor
    · rintro ⟨htrue, hhead⟩
      exact ⟨htrue, h.outcomes htrue ▸ hhead⟩
    · rintro ⟨htrue, hhead⟩
      exact ⟨htrue, (h.outcomes htrue).symm ▸ hhead⟩
  · intro htrue
    have hprev := (hsent.mp (hvalid ▸ htrue)).1
    rw [houtcomes hprev, h.outcomes hprev, List.tail_drop]

theorem Punched.holePunch (hio : p.mConn.mIo = .udpText) (h : Punched ch k tReq ch₁)
    (hpunch : holePunch net p tReq ch₁ = .ok (req, ch₂)) : Punched ch (k + 1) req ch₂ := by
  simp only [P2P.holePunch, bind_eq_ok] at hpunch
  obtain ⟨⟨sent, r, c⟩, hrespond, hresult⟩ := hpunch
  cases hresult
  exact h.respond hio hrespond

variable (net p ch) in
theorem holePunch_of_invalid (hvalid : tReq.mValid = false) :
    ∃ r, P2P.holePunch net p tReq ch = .ok (r, ch) ∧ r.mValid = false := by
  have hset : (tReq.setData (textData okMsg)).mValid = false := hvalid
  rw [P2P.holePunch, UDPConn.respond_invalid net p.mConn ch hset]
  exact ⟨_, rfl, hset⟩

variable (net p ch) in
/-- The trials of `retry` neither send nor receive once the request is invalid. -/
theorem retryLoop_of_invalid (n : ℕ) (hvalid : tReq.mValid = false) :
    ∃ r, retryLoop net p n tReq ch = .ok (false, r, ch) := by
  induction n generalizing tReq with
  | zero => exact ⟨tReq, rfl⟩
  | succ n ih =>
    obtain ⟨r, hpunch, hr⟩ := holePunch_of_invalid net p ch hvalid
    have hreceive := UDPConn.receive_invalid net p.mConn ch hr
    simp only [retryLoop, hpunch, hreceive, ok_bind, Bool.false_eq_true, if_false]
    exact ih hr

variable (net p ch) in
theorem retry_of_invalid (hvalid : tReq.mValid = false) :
    ∃ r, retry net p tReq false ch = .ok ({ p with mStatus := .error }, r, ch) := by
  obtain ⟨r, hloop⟩ := retryLoop_of_invalid net p ch maxPunchTrials hvalid
  refine ⟨r, ?_⟩
  simp only [retry, hloop, ok_bind, Bool.false_eq_true, if_false, pure_eq_ok]

theorem listen_cases (hio : p.mConn.mIo = .udpText) (hpunched : Punched ch k tReq ch₁) {got : Bool}
    {req' : Request} {q : P2P} {ch₃ : Channel}
    (hreceive : p.mConn.receive net tReq ch₁ = .ok (got, req, ch₂))
    (hretry : retry net p req got ch₂ = .ok (q, req', ch₃)) :
    (q = p ∧ false ∉ ch.out.outcomes.take k ∧ ∃ source payload,
      ch.arrivals = .datagram source payload :: ch₃.arrivals ∧
      req'.mData = some (textData (textOf payload))) ∨
    (q.mStatus = .error ∧ (false ∈ ch.out.outcomes.take k ∨
      ch.arrivals = .failure :: ch₃.arrivals)) := by
  rcases UDPConn.receive_text_cases net hio hreceive with
    ⟨rfl, hvalid, source, payload, hhead, -, htext⟩ | ⟨rfl, hinvalid, -, hunread⟩
  · cases hretry
    rw [hpunched.arrivals] at hhead
    exact Or.inl ⟨rfl, hpunched.valid.mp hvalid, source, payload, hhead, htext⟩
  · obtain ⟨r, hr⟩ := retry_of_invalid net p ch₂ hinvalid
    rw [hr] at hretry
    cases hretry
    refine Or.inr ⟨rfl, ?_⟩
    rcases hunread with ⟨hfailed, rfl⟩ | ⟨-, hfailure⟩
    · left
      by_contra hsent
      rw [hpunched.valid.mpr hsent] at hfailed
      cases hfailed
    · right
      rw [← hpunched.arrivals, hfailure]

end

def sendsBefore (p : P2P) : ℕ :=
  (if p.mNetworkType = .web then 1 else 0) + if p.mType = .initiator then 1 else 0

def Listens (p : P2P) (ch : Channel) : Prop :=
  p.invalidToHandshake = false ∧ p.mType ≠ .none ∧ false ∉ ch.out.outcomes.take p.sendsBefore

def HearsOk (ch : Channel) : Prop :=
  ∃ source payload rest, ch.arrivals = .datagram source payload :: rest ∧
    textOf payload = okMsg

structure DecidedBy (ch : Channel) (k : ℕ) (connects : Prop) (rest : List Arrival) : Prop where
  iff : connects ↔ false ∉ ch.out.outcomes.take k ∧ HearsOk ch
  read : connects → rest = ch.arrivals.tail

theorem DecidedBy.congr {ch : Channel} {k : ℕ} {a b : Prop} {rest : List Arrival}
    (h : DecidedBy ch k a rest) (hab : b ↔ a) : DecidedBy ch k b rest where
  iff := hab.trans h.iff
  read := fun hb => h.read (hab.mp hb)

section

variable {net : Inet} {p q : P2P} {tReq req req' : Request} {ch ch₁ ch₂ ch₃ ch' : Channel}
  {k : ℕ} {got : Bool}

theorem heard (hio : p.mConn.mIo = .udpText) (hstatus : p.mStatus = .accepted)
    (hpunched : Punched ch k tReq ch₁)
    (hreceive : p.mConn.receive net tReq ch₁ = .ok (got, req, ch₂))
    (hretry : retry net p req got ch₂ = .ok (q, req', ch₃)) :
    DecidedBy ch k (q.mStatus ≠ .error ∧ ∃ response, req'.data = .ok response ∧
      response.bytes = okMsg) ch₃.arrivals := by
  rcases listen_cases hio hpunched hreceive hretry with
    ⟨rfl, hsent, source, payload, hhead, htext⟩ | ⟨herror, hfailed⟩
  · have hdata : req'.data = .ok (textData (textOf payload)) := by
      rw [Request.data, htext]
    constructor
    · constructor
      · rintro ⟨-, response, hresponse, hok⟩
        rw [hdata] at hresponse
        cases hresponse
        exact ⟨hsent, source, payload, ch₃.arrivals, hhead, hok⟩
      · rintro ⟨-, s, t, rest, hst, hok⟩
        rw [hhead] at hst
        cases hst
        exact ⟨by rw [hstatus]; decide, _, hdata, hok⟩
    · intro _
      rw [hhead, List.tail_cons]
  · constructor
    · constructor
      · rintro ⟨hne, -⟩
        exact absurd herror hne
      · rintro ⟨hsent, s, t, rest, hst, -⟩
        rcases hfailed with hfalse | hfailure
        · exact absurd hfalse hsent
        · rw [hst] at hfailure
          cases hfailure
    · rintro ⟨hne, -⟩
      exact absurd herror hne

theorem retry_keeps (h : retry net p req got ch = .ok (q, req', ch')) : Keeps p q := by
  cases got with
  | true =>
    cases h
    exact ⟨rfl, rfl, rfl⟩
  | false =>
    simp only [retry, Bool.false_eq_true, if_false, bind_eq_ok] at h
    obtain ⟨⟨success, r, ch₁⟩, -, hresult⟩ := h
    cases hresult
    cases success <;> exact ⟨rfl, rfl, rfl⟩

theorem handshakeAcceptor_local (hio : p.mConn.mIo = .udpText) (hstatus : p.mStatus = .accepted)
    (hpunched : Punched ch k tReq ch₁)
    (h : handshakeAcceptor net p tReq .localNetwork ch₁ = .ok (q, ch')) :
    DecidedBy ch k (q.mStatus = .connected) ch'.arrivals := by
  have hlocal : PeerNetwork.localNetwork ≠ .web := by decide
  simp only [handshakeAcceptor, if_neg hlocal, pure_eq_ok, ok_bind, bind_eq_ok] at h
  obtain ⟨⟨got, req, ch₂⟩, hreceive, ⟨p', req', ch₃⟩, hretry, h⟩ := h
  have hheard := heard hio hstatus hpunched hreceive hretry
  by_cases herror : p'.mStatus = .error
  · rw [if_pos herror] at h
    cases h
    exact hheard.congr (by simp [herror])
  · rw [if_neg herror] at h
    obtain ⟨response, hdata, h⟩ := bind_eq_ok.mp h
    by_cases hok : response.bytes = okMsg
    · rw [if_pos hok] at h
      obtain ⟨⟨sent, r, ch₄⟩, hrespond, hresult⟩ := bind_eq_ok.mp h
      have hio' : p'.mConn.mIo = .udpText := by rw [(retry_keeps hretry).conn, hio]
      obtain ⟨-, -, harrivals, -⟩ := UDPConn.respond_text_cases net hio' hrespond
      cases hresult
      rw [harrivals]
      exact hheard.congr (by simp [herror, hdata, hok])
    · rw [if_neg hok] at h
      cases h
      exact hheard.congr (by simp [hdata, hok])

theorem handshakeInitiator_local (hio : p.mConn.mIo = .udpText) (hstatus : p.mStatus = .accepted)
    (hpunched : Punched ch k tReq ch₁)
    (h : handshakeInitiator net p tReq .localNetwork ch₁ = .ok (q, ch')) :
    DecidedBy ch (k + 1) (q.mStatus = .connected) ch'.arrivals := by
  have hlocal : PeerNetwork.localNetwork ≠ .web := by decide
  simp only [handshakeInitiator, if_neg hlocal, pure_eq_ok, ok_bind, bind_eq_ok] at h
  obtain ⟨⟨sent, req₁, ch₂⟩, hrespond, ⟨got, req, ch₃⟩, hreceive, ⟨p', req', ch₄⟩, hretry, h⟩ := h
  have hheard := heard hio hstatus (hpunched.respond hio hrespond) hreceive hretry
  by_cases herror : p'.mStatus = .error
  · rw [if_pos herror] at h
    cases h
    exact hheard.congr (by simp [herror])
  · rw [if_neg herror] at h
    obtain ⟨response, hdata, h⟩ := bind_eq_ok.mp h
    by_cases hok : okMsg = response.bytes
    · rw [if_pos hok] at h
      cases h
      exact hheard.congr (by simp [herror, hdata, hok])
    · rw [if_neg hok] at h
      cases h
      exact hheard.congr (by simp [hdata, Ne.symm hok])

end

theorem handshakeAcceptor_web (net : Inet) (p : P2P) (tReq : Request) (ch : Channel) :
    handshakeAcceptor net p tReq .web ch = (do
      let (tReq, ch) ← holePunch net p tReq ch
      handshakeAcceptor net p tReq .localNetwork ch) := rfl

theorem handshakeInitiator_web (net : Inet) (p : P2P) (tReq : Request) (ch : Channel) :
    handshakeInitiator net p tReq .web ch = (do
      let (tReq, ch) ← holePunch net p tReq ch
      handshakeInitiator net p tReq .localNetwork ch) := rfl

section

variable {net : Inet} {settings : Settings} {p q : P2P} {ch ch' : Channel}

theorem handshakeAcceptor_decided (hio : p.mConn.mIo = .udpText)
    (hstatus : p.mStatus = .accepted) (hnetwork : p.mNetworkType ≠ .unselected)
    (htype : p.mType = .acceptor)
    (h : handshakeAcceptor net p p.handshakeRequest p.mNetworkType ch = .ok (q, ch')) :
    DecidedBy ch p.sendsBefore (q.mStatus = .connected) ch'.arrivals := by
  have hvalid : p.handshakeRequest.mValid = true := rfl
  cases hweb : p.mNetworkType with
  | unselected => exact absurd hweb hnetwork
  | localNetwork =>
    rw [hweb] at h
    rw [sendsBefore, hweb, htype]
    exact handshakeAcceptor_local hio hstatus (punched_zero hvalid) h
  | web =>
    rw [hweb, handshakeAcceptor_web] at h
    obtain ⟨⟨req, ch₁⟩, hpunch, h⟩ := bind_eq_ok.mp h
    rw [sendsBefore, hweb, htype]
    exact handshakeAcceptor_local hio hstatus ((punched_zero hvalid).holePunch hio hpunch) h

theorem handshakeInitiator_decided (hio : p.mConn.mIo = .udpText)
    (hstatus : p.mStatus = .accepted) (hnetwork : p.mNetworkType ≠ .unselected)
    (htype : p.mType = .initiator)
    (h : handshakeInitiator net p p.handshakeRequest p.mNetworkType ch = .ok (q, ch')) :
    DecidedBy ch p.sendsBefore (q.mStatus = .connected) ch'.arrivals := by
  have hvalid : p.handshakeRequest.mValid = true := rfl
  cases hweb : p.mNetworkType with
  | unselected => exact absurd hweb hnetwork
  | localNetwork =>
    rw [hweb] at h
    rw [sendsBefore, hweb, htype]
    exact handshakeInitiator_local hio hstatus (punched_zero hvalid) h
  | web =>
    rw [hweb, handshakeInitiator_web] at h
    obtain ⟨⟨req, ch₁⟩, hpunch, h⟩ := bind_eq_ok.mp h
    rw [sendsBefore, hweb, htype]
    exact handshakeInitiator_local hio hstatus ((punched_zero hvalid).holePunch hio hpunch) h

theorem handshakePeer_of_invalid (h : p.invalidToHandshake = true) :
    handshakePeer net p ch = .ok (p, ch) := if_pos h

theorem finish_of_ok {x : Exec (P2P × Channel)}
    (h : (x >>= fun (p, ch) =>
      if p.mStatus = .connected then
        pure ({ p with mConn := p.mConn.setStrategy .stream }, ch)
      else pure (p, ch)) = .ok (q, ch')) :
    ∃ p', x = .ok (p', ch') ∧ q.mStatus = p'.mStatus ∧ (p'.mStatus ≠ .connected → q = p') ∧
      (p'.mStatus = .connected → q.mConn = p'.mConn.setStrategy .stream ∧
        q.mToken = p'.mToken ∧ q.mLocalIp = p'.mLocalIp) := by
  obtain ⟨⟨p', ch₁⟩, hrole, hresult⟩ := bind_eq_ok.mp h
  dsimp only at hresult
  by_cases hconnected : p'.mStatus = .connected
  · rw [if_pos hconnected] at hresult
    cases hresult
    exact ⟨p', hrole, rfl, fun hne => absurd hconnected hne, fun _ => ⟨rfl, rfl, rfl⟩⟩
  · rw [if_neg hconnected] at hresult
    cases hresult
    exact ⟨_, hrole, rfl, fun _ => rfl, fun h => absurd h hconnected⟩

theorem handshakePeer_role (hready : p.invalidToHandshake = false)
    (h : handshakePeer net p ch = .ok (q, ch')) :
    ∃ p', (match p.mType with
        | .acceptor => handshakeAcceptor net p p.handshakeRequest p.mNetworkType ch
        | .initiator => handshakeInitiator net p p.handshakeRequest p.mNetworkType ch
        | .none => .ok (p, ch)) = .ok (p', ch') ∧
      q.mStatus = p'.mStatus ∧ (p'.mStatus ≠ .connected → q = p') ∧
      (p'.mStatus = .connected → q.mConn = p'.mConn.setStrategy .stream ∧
        q.mToken = p'.mToken ∧ q.mLocalIp = p'.mLocalIp) := by
  rw [handshakePeer, hready] at h
  cases htype : p.mType with
  | acceptor =>
    rw [htype] at h
    exact finish_of_ok h
  | initiator =>
    rw [htype] at h
    exact finish_of_ok h
  | none =>
    rw [htype] at h
    exact finish_of_ok h

theorem handshakePeer_decided (hready : p.invalidToHandshake = false) (htype : p.mType ≠ .none)
    (hio : p.mConn.mIo = .udpText) (h : handshakePeer net p ch = .ok (q, ch')) :
    DecidedBy ch p.sendsBefore (q.mStatus = .connected) ch'.arrivals := by
  obtain ⟨hstatus, -, hnetwork⟩ := (invalidToHandshake_eq_false_iff p).mp hready
  obtain ⟨p', hrole, hsame, -⟩ := handshakePeer_role hready h
  rw [hsame]
  cases hcase : p.mType with
  | none => exact absurd hcase htype
  | acceptor =>
    rw [hcase] at hrole
    exact handshakeAcceptor_decided hio hstatus hnetwork hcase hrole
  | initiator =>
    rw [hcase] at hrole
    exact handshakeInitiator_decided hio hstatus hnetwork hcase hrole

theorem handshakePeer_connected_iff (htext : TextWhenAccepted p) (hbefore : p.mStatus ≠ .connected)
    (h : handshakePeer net p ch = .ok (q, ch')) :
    q.mStatus = .connected ↔ p.Listens ch ∧ HearsOk ch := by
  cases hready : p.invalidToHandshake with
  | true =>
    rw [handshakePeer_of_invalid hready] at h
    cases h
    simp [Listens, hready, hbefore]
  | false =>
    by_cases htype : p.mType = .none
    · obtain ⟨p', hrole, hsame, -⟩ := handshakePeer_role hready h
      rw [htype] at hrole
      cases hrole
      simp [hsame, hbefore, Listens, htype]
    · have hio := htext ((invalidToHandshake_eq_false_iff p).mp hready).1
      have hdecided := handshakePeer_decided hready htype hio h
      simpa [Listens, hready, htype] using hdecided.iff

theorem handshakeAcceptor_status {tReq : Request}
    (h : handshakeAcceptor net p tReq .localNetwork ch = .ok (q, ch')) :
    q.mStatus ≠ .accepted := by
  have hlocal : PeerNetwork.localNetwork ≠ .web := by decide
  simp only [handshakeAcceptor, if_neg hlocal, pure_eq_ok, ok_bind, bind_eq_ok] at h
  obtain ⟨⟨got, req, ch₂⟩, -, ⟨p', req', ch₃⟩, -, h⟩ := h
  by_cases herror : p'.mStatus = .error
  · rw [if_pos herror] at h
    cases h
    simp [herror]
  · rw [if_neg herror] at h
    obtain ⟨response, -, h⟩ := bind_eq_ok.mp h
    by_cases hok : response.bytes = okMsg
    · rw [if_pos hok] at h
      obtain ⟨⟨sent, r, ch₄⟩, -, hresult⟩ := bind_eq_ok.mp h
      cases hresult
      simp
    · rw [if_neg hok] at h
      cases h
      simp

theorem handshakeInitiator_status {tReq : Request}
    (h : handshakeInitiator net p tReq .localNetwork ch = .ok (q, ch')) :
    q.mStatus ≠ .accepted := by
  have hlocal : PeerNetwork.localNetwork ≠ .web := by decide
  simp only [handshakeInitiator, if_neg hlocal, pure_eq_ok, ok_bind, bind_eq_ok] at h
  obtain ⟨⟨sent, req₁, ch₁⟩, -, ⟨got, req, ch₂⟩, -, ⟨p', req', ch₃⟩, -, h⟩ := h
  by_cases herror : p'.mStatus = .error
  · rw [if_pos herror] at h
    cases h
    simp [herror]
  · rw [if_neg herror] at h
    obtain ⟨response, -, h⟩ := bind_eq_ok.mp h
    by_cases hok : okMsg = response.bytes
    · rw [if_pos hok] at h
      cases h
      simp
    · rw [if_neg hok] at h
      cases h
      simp

theorem handshakePeer_text (hp : TextWhenAccepted p) (h : handshakePeer net p ch = .ok (q, ch')) :
    TextWhenAccepted q := by
  cases hready : p.invalidToHandshake with
  | true =>
    rw [handshakePeer_of_invalid hready] at h
    cases h
    exact hp
  | false =>
    obtain ⟨-, -, hnetwork⟩ := (invalidToHandshake_eq_false_iff p).mp hready
    obtain ⟨p', hrole, hsame, hkept, -⟩ := handshakePeer_role hready h
    cases htype : p.mType with
    | none =>
      rw [htype] at hrole
      cases hrole
      intro haccepted
      have hq := hkept (by rw [← hsame, haccepted]; decide)
      rw [hq] at haccepted ⊢
      exact hp haccepted
    | acceptor =>
      rw [htype] at hrole
      intro haccepted
      rw [hsame] at haccepted
      cases hweb : p.mNetworkType with
      | unselected => exact absurd hweb hnetwork
      | localNetwork =>
        rw [hweb] at hrole
        exact absurd haccepted (handshakeAcceptor_status hrole)
      | web =>
        rw [hweb] at hrole
        obtain ⟨⟨req, ch₁⟩, -, hlocal⟩ := bind_eq_ok.mp hrole
        exact absurd haccepted (handshakeAcceptor_status hlocal)
    | initiator =>
      rw [htype] at hrole
      intro haccepted
      rw [hsame] at haccepted
      cases hweb : p.mNetworkType with
      | unselected => exact absurd hweb hnetwork
      | localNetwork =>
        rw [hweb] at hrole
        exact absurd haccepted (handshakeInitiator_status hrole)
      | web =>
        rw [hweb] at hrole
        obtain ⟨⟨req, ch₁⟩, -, hlocal⟩ := bind_eq_ok.mp hrole
        exact absurd haccepted (handshakeInitiator_status hlocal)

theorem Lifetime.text (h : Lifetime net settings p) : TextWhenAccepted p := by
  induction h with
  | new tToken mSocket mLocalIp => exact fun _ => rfl
  | step op _ hstep ih =>
    cases op with
    | connectPeer tPeerId =>
      intro haccepted
      rcases connectPeer_status hstep with h | h
      · rw [h] at haccepted
        cases haccepted
      · rw [h] at haccepted
        cases haccepted
    | acceptPeer tPeerId => exact acceptPeer_text hstep
    | rejectPeer tPeerId =>
      intro haccepted
      rcases rejectPeer_status hstep with h | h
      · rw [h] at haccepted
        cases haccepted
      · rw [h] at haccepted
        cases haccepted
    | pingPeer => exact pingPeer_text ih hstep
    | hangupPeer => exact hangupPeer_text ih hstep
    | handshakePeer => exact handshakePeer_text ih hstep
    | reset =>
      cases hstep
      intro haccepted
      cases haccepted

end

/-! ### The announced peer -/

/-- The object connects only behind a `200 OK` from the address of the peer, among
the arrivals that the handshake read. -/
def ConnectsWithPeer (net : Inet) (p q : P2P) (ch ch' : Channel) : Prop :=
  p.mStatus ≠ .connected → q.mStatus = .connected →
    ∃ received source payload, ch.arrivals = received ++ ch'.arrivals ∧
      Arrival.datagram source payload ∈ received ∧ textOf payload = okMsg ∧
      sourceText net source = p.mPeerAddress

def OkFromPeer (net : Inet) (p : P2P) (ch : Channel) : Prop :=
  p.Listens ch → ∀ source payload rest, ch.arrivals = .datagram source payload :: rest →
    textOf payload = okMsg → sourceText net source = p.mPeerAddress

theorem handshakePeer_connects_with_peer_iff {net : Inet} {settings : Settings} {p q : P2P}
    {ch ch' : Channel} (hlife : Lifetime net settings p)
    (h : handshakePeer net p ch = .ok (q, ch')) :
    ConnectsWithPeer net p q ch ch' ↔ OkFromPeer net p ch := by
  have htail : p.Listens ch → q.mStatus = .connected → ch'.arrivals = ch.arrivals.tail := by
    intro hlistens
    have hio := hlife.text ((invalidToHandshake_eq_false_iff p).mp hlistens.1).1
    exact (handshakePeer_decided hlistens.1 hlistens.2.1 hio h).read
  constructor
  · intro hpeer hlistens source payload rest hhead hok
    have hstatus := ((invalidToHandshake_eq_false_iff p).mp hlistens.1).1
    have hbefore : p.mStatus ≠ .connected := by
      rw [hstatus]
      decide
    have hconnected := (handshakePeer_connected_iff hlife.text hbefore h).mpr
      ⟨hlistens, source, payload, rest, hhead, hok⟩
    obtain ⟨received, s, t, hreceived, hmem, -, hsource⟩ := hpeer hbefore hconnected
    have hone : received = [.datagram source payload] := by
      rw [htail hlistens hconnected, hhead, List.tail_cons] at hreceived
      exact (List.append_cancel_right hreceived.symm)
    rw [hone] at hmem
    cases List.mem_singleton.mp hmem
    exact hsource
  · intro hfrom hbefore hconnected
    obtain ⟨hlistens, source, payload, rest, hhead, hok⟩ :=
      (handshakePeer_connected_iff hlife.text hbefore h).mp hconnected
    refine ⟨[.datagram source payload], source, payload, ?_, List.mem_singleton_self _, hok, ?_⟩
    · rw [htail hlistens hconnected, hhead]
      rfl
    · exact hfrom hlistens source payload rest hhead hok

def lan : Inet where
  inetAddr text := if text = str "5.6.7.8" then 2 else 1
  inetNtop addr := if addr = 2 then str "5.6.7.8" else str "9.9.9.9"

def lanSettings : Settings := ⟨str "9.9.9.9", str "4000", by decide⟩

def announced : P2P :=
  ({ P2P.new (str "token-1") 4 (str "192.168.0.14") with mType := .acceptor } : P2P).learned
    (str "5.6.7.8:6000") (str "LOCAL")

def okFrom (addr : UInt32) (port : UInt16) : Channel :=
  ⟨⟨[], []⟩, [.datagram ⟨addr, htons port⟩ (str "200 OK")]⟩

theorem lifetime_announced : Lifetime lan lanSettings announced := by
  have hspace : space ∉ str "5.6.7.8:6000" := by decide
  have hlen : (str "5.6.7.8:6000").length + (str "LOCAL").length ≤ 500 := by decide
  obtain ⟨ch, haccept⟩ := acceptPeer_found lan lanSettings
    (p := P2P.new (str "token-1") 4 (str "192.168.0.14")) rfl [] ⟨1, htons 4000⟩ hspace hlen
    (by decide) [] (str "1")
  exact .step (.acceptPeer (str "1")) (.new _ _ _) haccept

theorem handshakePeer_connects_with_peer_announced : ∃ q ch',
    handshakePeer lan announced (okFrom 2 6000) = .ok (q, ch') ∧ q.mStatus = .connected ∧
      ConnectsWithPeer lan announced q (okFrom 2 6000) ch' := by
  refine ⟨_, _, rfl, rfl, ?_⟩
  refine (handshakePeer_connects_with_peer_iff lifetime_announced rfl).mpr ?_
  rintro - source payload rest hhead -
  cases hhead
  decide

theorem handshakePeer_connects_with_server : Lifetime lan lanSettings announced ∧ ∃ q ch',
    handshakePeer lan announced (okFrom 1 4000) = .ok (q, ch') ∧
      ¬ConnectsWithPeer lan announced q (okFrom 1 4000) ch' := by
  refine ⟨lifetime_announced, _, _, rfl, ?_⟩
  intro h
  obtain ⟨received, source, payload, hreceived, hmem, -, hsource⟩ := h (by decide) rfl
  rw [List.append_nil] at hreceived
  rw [← hreceived] at hmem
  cases List.mem_singleton.mp hmem
  exact absurd hsource (by decide)

/-! ### The trials of `retry` -/

def punches (dest : SockAddr) (out : Outbox) : Outbox := (out.sendto dest okMsg).2

/-- `trials` is what the trials of `retry` received: up to the first datagram, or failures
only. Each of them punched once before, and the status changes in the second case. -/
def Retries (p : P2P) (ch : Channel) (result : Exec (P2P × Request × Channel)) : Prop :=
  ∃ after req ch' trials, result = .ok (after, req, ch') ∧ ch.arrivals = trials ++ ch'.arrivals ∧
    (∃ dest, ch'.out = (punches dest)^[trials.length] ch.out) ∧
    ((∃ failed source payload,
        trials = List.replicate failed .failure ++ [.datagram source payload] ∧
        failed < maxPunchTrials ∧ after.mStatus = p.mStatus) ∨
      trials = List.replicate maxPunchTrials .failure ∧ after.mStatus = .error)

theorem mValid_of_receive_false {net : Inet} {conn : UDPConn} {tReq req : Request}
    {ch ch' : Channel} (h : conn.receive net tReq ch = .ok (false, req, ch')) :
    req.mValid = false := by
  cases hvalid : tReq.mValid with
  | false =>
    rw [UDPConn.receive_invalid net conn ch hvalid] at h
    cases h
    exact hvalid
  | true =>
    rw [UDPConn.receive] at h
    dsimp only at h
    rw [if_pos hvalid] at h
    cases hio : conn.mIo with
    | udpText =>
      rw [hio] at h
      obtain ⟨⟨valid, received, arrivals⟩, -, hresult⟩ := bind_eq_ok.mp h
      cases hresult
      rfl
    | stream =>
      rw [hio] at h
      dsimp only at h
      split at h
      · obtain ⟨⟨valid, received, arrivals⟩, -, hresult⟩ := bind_eq_ok.mp h
        cases hresult
        rfl
      · cases h

theorem not_retries {net : Inet} {p : P2P} {tReq : Request} {ch : Channel}
    (hinvalid : tReq.mValid = false) : ¬Retries p ch (retry net p tReq false ch) := by
  obtain ⟨r, hretry⟩ := retry_of_invalid net p ch hinvalid
  rintro ⟨after, last, behind, trials, hresult, harrivals, -, hends⟩
  rw [hretry] at hresult
  cases hresult
  have hnone : trials = [] := List.self_eq_append_left.mp harrivals
  rcases hends with ⟨failed, source, payload, htrials, -, -⟩ | ⟨htrials, -⟩
  · simp [hnone] at htrials
  · simp [hnone, maxPunchTrials] at htrials

theorem retry_never_retries {net : Inet} {p : P2P} {tReq req : Request} {ch ch' : Channel}
    (h : p.mConn.receive net tReq ch = .ok (false, req, ch')) :
    ¬Retries p ch' (retry net p req false ch') :=
  not_retries (mValid_of_receive_false h)

def lateOk : Channel := ⟨⟨[], []⟩, .failure :: (okFrom 2 6000).arrivals⟩

theorem announced_never_retries : ∃ req,
    announced.mConn.receive lan announced.handshakeRequest lateOk =
      .ok (false, req, okFrom 2 6000) ∧
    ¬Retries announced (okFrom 2 6000) (retry lan announced req false (okFrom 2 6000)) := by
  have hreceive : ∃ req, announced.mConn.receive lan announced.handshakeRequest lateOk =
      .ok (false, req, okFrom 2 6000) := ⟨_, rfl⟩
  obtain ⟨req, hreceive⟩ := hreceive
  exact ⟨req, hreceive, retry_never_retries hreceive⟩

/-- The answer is never read and the object ends in an error. -/
theorem late_ok_unread : Lifetime lan lanSettings announced ∧ ∃ req after last,
    announced.mConn.receive lan announced.handshakeRequest lateOk =
      .ok (false, req, okFrom 2 6000) ∧
    retry lan announced req false (okFrom 2 6000) = .ok (after, last, okFrom 2 6000) ∧
    after.mStatus = .error ∧
    ¬Retries announced (okFrom 2 6000) (retry lan announced req false (okFrom 2 6000)) :=
  ⟨lifetime_announced, _, _, _, rfl, rfl, rfl, not_retries rfl⟩

end Skype.P2P
