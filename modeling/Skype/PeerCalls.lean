import Skype.CallDirection
import Skype.PeerEndpoints
import Skype.PeerStrategy

/-!
# The caller and the request that waits for it

The `P2P` object of one user beside the call controllers. A command that reaches the
server is handled while the object waits, its reply queues behind the datagrams that the
socket has not read, and the server handles requests of anybody in between.
-/

namespace Skype.PeerCalls

open Library P2P ServerReplies CallControllers

structure UserDatabase (u : Int32) (token : ByteString) where
  db : Database
  owned : (Postgres.searchUserByToken db token).mEmpty = false →
    (Postgres.searchUserByToken db token).mId = u

structure Setting where
  net : Inet
  settings : Settings
  serverAddress : SockAddr
  clientAddress : ByteString
  clientAddress_short : clientAddress.length < 2 ^ 31

structure World where
  calls : Calls
  p : P2P
  out : Outbox
  incoming : List Arrival

inductive Event (u : Int32) (token : ByteString)
  | server (event : CallControllers.Event)
  | arrives (arrival : Arrival)
  | operation (op : Operation) (db : UserDatabase u token) (heard answered : Bool)

namespace World

def start (tToken : ByteString) (mSocket : Int32) (mLocalIp : ByteString) (outcomes : List Bool) :
    World :=
  ⟨Calls.start, P2P.new tToken mSocket mLocalIp, ⟨[], outcomes⟩, []⟩

def channel (w : World) : Channel := ⟨w.out, w.incoming⟩

end World

def clientRequest (setting : Setting) (p : P2P) : Request :=
  { Request.new setting.clientAddress true with mToken := p.mToken }

def incomingOf (setting : Setting) (db : Database) (p : P2P) : Operation → Option Incoming
  | .connectPeer tPeerId => some ⟨db, .connect, p.argument tPeerId, clientRequest setting p⟩
  | .acceptPeer tPeerId => some ⟨db, .accept, p.argument tPeerId, clientRequest setting p⟩
  | .rejectPeer tPeerId => some ⟨db, .reject, tPeerId, clientRequest setting p⟩
  | .pingPeer =>
    (commandOf p .pingPeer).map fun _ => ⟨db, .ping, [], clientRequest setting p⟩
  | .hangupPeer =>
    (commandOf p .hangupPeer).map fun _ => ⟨db, .hangup, [], clientRequest setting p⟩
  | .handshakePeer => none
  | .reset => none

def serve (calls : Calls) (i : Incoming) : Exec (Calls × ByteString) := do
  let (req, _) ← handle i calls.store
  let calls ← calls.next (.request i)
  let reply ← req.data
  return (calls, reply.bytes)

instance decidableSends (p : P2P) (ch : Channel) : Decidable (p.Sends ch) :=
  inferInstanceAs (Decidable (_ ∧ _))

/-- What the server does while an operation waits, and the datagrams it sends back. -/
def World.exchange (setting : Setting) (w : World) (op : Operation) (db : Database)
    (heard answered : Bool) : Exec (Calls × List Arrival) :=
  if heard = true ∧ w.p.Sends w.channel then
    match incomingOf setting db w.p op with
    | none => .ok (w.calls, [])
    | some i => do
      let (calls, reply) ← serve w.calls i
      return (calls, if answered then [.datagram setting.serverAddress reply] else [])
  else .ok (w.calls, [])

def World.step {u : Int32} {token : ByteString} (setting : Setting) (w : World) :
    Event u token → Exec World
  | .server event => do
    let calls ← w.calls.next event
    return { w with calls }
  | .arrives arrival => .ok { w with incoming := w.incoming ++ [arrival] }
  | .operation op db heard answered => do
    let (calls, replies) ← w.exchange setting op db.db heard answered
    let (p, ch) ← perform setting.net setting.settings w.p ⟨w.out, w.incoming ++ replies⟩ op
    return ⟨calls, p, ch.out, ch.arrivals⟩

/-- A `connect_peer` that ends awaiting has dialled the contact of the request that the
server holds. -/
def AwaitsDialled {u : Int32} {token : ByteString} (_ : World) (event : Event u token)
    (t : World) : Prop :=
  match event with
  | .operation (.connectPeer tPeerId) _ _ _ => ∀ b, tPeerId = intToString b →
      t.p.mStatus = .awaiting → t.calls.callee u = some b
  | _ => True

def SaysConnected : List Arrival → Prop
  | .datagram _ payload :: _ => codeOf payload = .r200 ∨ codeOf payload = .r306
  | _ => False

def Reaches (db : Database) (p : P2P) : Prop :=
  (Postgres.searchUserByToken db p.mToken).mEmpty = false ∧ p.mLocalIp ≠ []

def Dialable {u : Int32} {token : ByteString} (w : World) (event : Event u token) (_ : World) :
    Prop :=
  match event with
  | .operation (.connectPeer tPeerId) db heard answered => ∀ b, tPeerId = intToString b →
      w.p.Sends w.channel →
      (w.incoming = [] → heard = true → answered = true → Reaches db.db w.p →
        ∀ other, w.calls.callee u = some other → other = b) ∧
      (SaysConnected w.incoming → w.calls.callee u = some b ∨
        w.calls.callee u = none ∧ heard = true ∧ Reaches db.db w.p)
  | _ => True

section

variable {setting : Setting} {u : Int32} {token : ByteString} {calls : Calls} {p : P2P}

theorem codeOf_getMessage_r200 : codeOf (Reply.getMessage .r200) = .r200 := by decide

theorem codeOf_getMessage_r306 : codeOf (Reply.getMessage .r306) = .r306 := by decide

theorem toInt_intToString (b : Int32) : StringUtils.toInt (intToString b) = (true, b) := by
  rw [StringUtils.toInt, stoi_intToString]

theorem space_notMem_intToString (b : Int32) : space ∉ intToString b :=
  Decimal.notMem_printInt (by decide) (by decide)

theorem names_connect (hlocal : p.mLocalIp.length < 2 ^ 30) (b : Int32) :
    Names (p.argument (intToString b)) b p.mLocalIp := by
  have hshort : (p.argument (intToString b)).length < 2 ^ 31 := by
    have hid := PeerEndpoints.length_printInt_le b
    have hone : (str " ").length = 1 := rfl
    simp only [P2P.argument, List.length_append, hone]
    omega
  exact PeerEndpoints.names_argument p (space_notMem_intToString b) (toInt_intToString b) hshort

theorem named_of_names {tArg localAddress : ByteString} {b : Int32}
    (h : Names tArg b localAddress) : Calls.named tArg = b := by
  obtain ⟨idStr, hsplit, hint⟩ := h
  simp only [Calls.named, hsplit, hint]

def calleesOf (calls : Calls) (store : AwaitingUsers) (named : Int32) (c : Int32) : Option Int32 :=
  if store.exists' c then
    if calls.store.exists' c then calls.callee c else some named
  else none

theorem calleesOf_kept (htracked : calls.Tracked) (named c : Int32) :
    calleesOf calls calls.store named c = calls.callee c := by
  have hc := htracked c
  rw [calleesOf]
  cases hexists : calls.store.exists' c with
  | true => simp
  | false =>
    rw [hexists] at hc
    have hnone : calls.callee c = none := by simpa using hc
    simp [hnone]

theorem serve_of_handle {i : Incoming} {code : Reply.Code} {store : AwaitingUsers}
    (h : handle i calls.store = .ok (ControllerUtils.setRequestReply code i.tReq, store)) :
    serve calls i =
      .ok (⟨store, calleesOf calls store (Calls.named i.tArg)⟩, Reply.getMessage code) := by
  simp only [serve, Calls.next, h, ok_bind]
  rfl

variable (setting) in
theorem serve_connect_reaches (db : UserDatabase u token) (htoken : p.mToken = token)
    (hlocal : p.mLocalIp.length < 2 ^ 30) (htracked : calls.Tracked) (hreaches : Reaches db.db p)
    (b : Int32) :
    ∃ after reply, serve calls ⟨db.db, .connect, p.argument (intToString b),
        clientRequest setting p⟩ = .ok (after, reply) ∧
      after.callee u = some ((calls.callee u).getD b) ∧
      (codeOf reply = .r200 ∨ codeOf reply = .r306) := by
  subst htoken
  have hnames := names_connect hlocal b
  have hauth : Authenticated db.db (clientRequest setting p) u :=
    ⟨hreaches.1, db.owned hreaches.1⟩
  have hhandle := connect_eq hauth hnames hreaches.2 setting.clientAddress_short calls.store
  refine ⟨_, _, serve_of_handle (i := ⟨db.db, .connect, p.argument (intToString b),
    clientRequest setting p⟩) hhandle, ?_, ?_⟩
  · have hinserted : (calls.store.insert (.requested u (clientRequest setting p).mAddress
        p.mLocalIp)).2.exists' u = true := by
      simp [AwaitingUsers.exists'_insert, AwaitingUser.requested_mId]
    have hu := htracked u
    simp only [calleesOf, hinserted, if_true, named_of_names hnames]
    cases hcallee : calls.callee u with
    | none =>
      rw [hcallee] at hu
      rw [← hu]
      rfl
    | some other =>
      rw [hcallee] at hu
      rw [← hu]
      rfl
  · split
    · exact Or.inr codeOf_getMessage_r306
    · exact Or.inl codeOf_getMessage_r200

variable (setting) in
theorem serve_connect_refused (db : UserDatabase u token) (hlocal : p.mLocalIp.length < 2 ^ 30)
    (htracked : calls.Tracked) (hrefused : ¬Reaches db.db p) (b : Int32) :
    ∃ after reply, serve calls ⟨db.db, .connect, p.argument (intToString b),
        clientRequest setting p⟩ = .ok (after, reply) ∧
      after.callee u = calls.callee u ∧ codeOf reply ≠ .r200 ∧ codeOf reply ≠ .r306 := by
  by_cases hfound : (Postgres.searchUserByToken db.db p.mToken).mEmpty = false
  · have hip : p.mLocalIp = [] := by
      by_contra hip
      exact hrefused ⟨hfound, hip⟩
    have hhandle : handle ⟨db.db, .connect, p.argument (intToString b), clientRequest setting p⟩
        calls.store =
        .ok (ControllerUtils.setRequestReply .r501 (clientRequest setting p), calls.store) := by
      have hempty : (Postgres.searchUserByToken db.db (clientRequest setting p).mToken).mEmpty =
          false := hfound
      rw [handle, CallControllers.connect, validate_of_names hempty (names_connect hlocal b), hip]
      rfl
    exact ⟨_, _, serve_of_handle (i := ⟨db.db, .connect, p.argument (intToString b),
      clientRequest setting p⟩) hhandle, calleesOf_kept htracked _ u, by decide, by decide⟩
  · have hhandle : handle ⟨db.db, .connect, p.argument (intToString b), clientRequest setting p⟩
        calls.store =
        .ok (ControllerUtils.setRequestReply .r301 (clientRequest setting p), calls.store) := by
      have hempty : (Postgres.searchUserByToken db.db (clientRequest setting p).mToken).mEmpty =
          true := eq_true_of_ne_false hfound
      rw [handle, CallControllers.connect, validateUserAndArgument, if_pos hempty]
      rfl
    exact ⟨_, _, serve_of_handle (i := ⟨db.db, .connect, p.argument (intToString b),
      clientRequest setting p⟩) hhandle, calleesOf_kept htracked _ u, by decide, by decide⟩

theorem connectPeer_awaiting_iff {net : Inet} {settings : Settings} {q : P2P}
    {tPeerId : ByteString} {ch ch' : Channel}
    (h : connectPeer net settings p tPeerId ch = .ok (q, ch')) :
    q.mStatus = .awaiting ↔ p.Sends ch ∧ SaysConnected ch.arrivals := by
  simp only [connectPeer, bind_eq_ok] at h
  obtain ⟨⟨msg, r, ch₁⟩, hsend, h⟩ := h
  have hstatus : q.mStatus = .awaiting ↔ r.mLastReply = .r200 ∨ r.mLastReply = .r306 := by
    by_cases h200 : r.mLastReply = .r200
    · simp only [if_pos h200] at h
      cases h
      simp [h200]
    · by_cases h306 : r.mLastReply = .r306
      · simp only [if_neg h200, if_pos h306] at h
        cases h
        simp [h306]
      · simp only [if_neg h200, if_neg h306] at h
        cases h
        simp [h200, h306]
  rw [hstatus]
  constructor
  · intro hcode
    rw [commandText_eq] at hsend
    obtain ⟨hsends, source, payload, hhead, hlast⟩ := received_of_code hsend (by
      rcases hcode with hcode | hcode <;> rw [hcode] <;> decide)
    rw [hlast] at hcode
    rw [hhead]
    exact ⟨hsends, hcode⟩
  · rintro ⟨hsends, hsays⟩
    rcases sendServer_cases hsend with ⟨-, source, payload, hhead, -, hr⟩ | ⟨hunread, -⟩
    · rw [hhead] at hsays
      rw [hr]
      exact hsays
    · rcases hunread with ⟨hunsent, -⟩ | ⟨-, hfailure⟩
      · exact absurd hsends hunsent
      · rw [hfailure] at hsays
        exact hsays.elim

end

structure Client (token localIp : ByteString) (w : World) : Prop where
  tracked : w.calls.Tracked
  token : w.p.mToken = token
  localIp : w.p.mLocalIp = localIp

theorem client_start (tToken : ByteString) (mSocket : Int32) (mLocalIp : ByteString)
    (outcomes : List Bool) :
    Client tToken mLocalIp (World.start tToken mSocket mLocalIp outcomes) :=
  ⟨fun _ => rfl, rfl, rfl⟩

section

variable {setting : Setting} {u : Int32} {token localIp : ByteString} {w t : World}

theorem tracked_exchange {op : Operation} {db : Database} {heard answered : Bool} {calls : Calls}
    {replies : List Arrival} (hw : w.calls.Tracked)
    (h : w.exchange setting op db heard answered = .ok (calls, replies)) : calls.Tracked := by
  unfold World.exchange at h
  split at h
  · split at h
    · cases h
      exact hw
    · obtain ⟨⟨after, reply⟩, hserve, hresult⟩ := bind_eq_ok.mp h
      cases hresult
      obtain ⟨⟨req, store⟩, -, hserve⟩ := bind_eq_ok.mp hserve
      obtain ⟨next, hnext, hserve⟩ := bind_eq_ok.mp hserve
      obtain ⟨data, -, hresult⟩ := bind_eq_ok.mp hserve
      cases hresult
      exact Calls.tracked_next hw hnext
  · cases h
    exact hw

theorem operation_eq_ok {op : Operation} {db : UserDatabase u token} {heard answered : Bool}
    (h : w.step setting (.operation op db heard answered) = .ok t) :
    ∃ replies ch, w.exchange setting op db.db heard answered = .ok (t.calls, replies) ∧
      perform setting.net setting.settings w.p ⟨w.out, w.incoming ++ replies⟩ op =
        .ok (t.p, ch) := by
  obtain ⟨⟨calls, replies⟩, hexchange, h⟩ := bind_eq_ok.mp h
  obtain ⟨⟨p, ch⟩, hperform, hresult⟩ := bind_eq_ok.mp h
  cases hresult
  exact ⟨replies, ch, hexchange, hperform⟩

theorem client_step {event : Event u token} (hw : Client token localIp w)
    (h : w.step setting event = .ok t) : Client token localIp t := by
  cases event with
  | server event =>
    obtain ⟨calls, hnext, hresult⟩ := bind_eq_ok.mp h
    cases hresult
    exact ⟨Calls.tracked_next hw.tracked hnext, hw.token, hw.localIp⟩
  | arrives arrival =>
    cases h
    exact ⟨hw.tracked, hw.token, hw.localIp⟩
  | operation op db heard answered =>
    obtain ⟨replies, ch, hexchange, hperform⟩ := operation_eq_ok h
    obtain ⟨htoken, hlocalIp⟩ := PeerStrategy.perform_keeps_text hperform
    exact ⟨tracked_exchange hw.tracked hexchange, htoken.trans hw.token,
      hlocalIp.trans hw.localIp⟩

theorem exchange_connect (hlocal : localIp.length < 2 ^ 30) (hw : Client token localIp w)
    (hsends : w.p.Sends w.channel) {db : UserDatabase u token} {b : Int32} {heard answered : Bool}
    {calls : Calls} {replies : List Arrival}
    (h : w.exchange setting (.connectPeer (intToString b)) db.db heard answered =
      .ok (calls, replies)) :
    ((heard = true ∧ Reaches db.db w.p) ∧ calls.callee u = some ((w.calls.callee u).getD b) ∧
        (SaysConnected replies ↔ answered = true)) ∨
      (¬(heard = true ∧ Reaches db.db w.p) ∧ calls.callee u = w.calls.callee u ∧
        ¬SaysConnected replies) := by
  have hshort : w.p.mLocalIp.length < 2 ^ 30 := by
    rw [hw.localIp]
    exact hlocal
  cases heard with
  | false =>
    cases h
    exact Or.inr ⟨by simp, rfl, id⟩
  | true =>
    rw [World.exchange, if_pos ⟨rfl, hsends⟩, incomingOf] at h
    obtain ⟨⟨after, reply⟩, hserve, hresult⟩ := bind_eq_ok.mp h
    cases hresult
    by_cases hreaches : Reaches db.db w.p
    · left
      obtain ⟨after', reply', hserve', hcallee, hcode⟩ :=
        serve_connect_reaches setting db hw.token hshort hw.tracked hreaches b
      rw [hserve'] at hserve
      cases hserve
      refine ⟨⟨rfl, hreaches⟩, hcallee, ?_⟩
      cases answered with
      | false => exact iff_of_false id Bool.false_ne_true
      | true => exact iff_of_true hcode rfl
    · right
      obtain ⟨after', reply', hserve', hcallee, h200, h306⟩ :=
        serve_connect_refused setting db hshort hw.tracked hreaches b
      rw [hserve'] at hserve
      cases hserve
      refine ⟨fun hboth => hreaches hboth.2, hcallee, ?_⟩
      cases answered with
      | false => exact id
      | true =>
        rintro (h | h)
        · exact h200 h
        · exact h306 h

theorem some_getD_eq_iff {callee : Option Int32} {b : Int32} :
    some (callee.getD b) = some b ↔ ∀ other, callee = some other → other = b := by
  cases callee with
  | none => simp
  | some other => simp

theorem awaitsDialled_iff (hlocal : localIp.length < 2 ^ 30) (hw : Client token localIp w)
    {event : Event u token} (h : w.step setting event = .ok t) :
    AwaitsDialled w event t ↔ Dialable w event t := by
  cases event with
  | server event => exact Iff.rfl
  | arrives arrival => exact Iff.rfl
  | operation op db heard answered =>
    cases op with
    | connectPeer tPeerId =>
      obtain ⟨replies, ch, hexchange, hperform⟩ := operation_eq_ok h
      have hawaits := connectPeer_awaiting_iff hperform
      apply forall_congr'
      intro b
      apply imp_congr_right
      rintro rfl
      rw [hawaits]
      change ((w.p.Sends w.channel ∧ SaysConnected (w.incoming ++ replies)) →
        t.calls.callee u = some b) ↔ _
      rw [and_imp]
      apply imp_congr_right
      intro hsends
      have hserver := exchange_connect hlocal hw hsends hexchange
      cases hincoming : w.incoming with
      | nil =>
        have hnone : ¬SaysConnected [] := id
        rw [List.nil_append]
        rcases hserver with ⟨⟨hheard, hreaches⟩, hcallee, hsays⟩ | ⟨hunreached, -, hsays⟩
        · rw [hcallee, hsays, some_getD_eq_iff]
          simp [hheard, hreaches, hnone]
        · have hvacuous : ∀ P : Prop, (heard = true → answered = true → Reaches db.db w.p → P) := by
            intro P hheard _ hreaches
            exact absurd ⟨hheard, hreaches⟩ hunreached
          exact iff_of_true (fun hsays' => absurd hsays' hsays)
            ⟨fun _ => hvacuous _, fun h => absurd h hnone⟩
      | cons arrival rest =>
        have hhead :
            SaysConnected (arrival :: rest ++ replies) ↔ SaysConnected (arrival :: rest) := by
          cases arrival <;> rfl
        rw [hhead]
        have hcallee : t.calls.callee u = some b ↔ w.calls.callee u = some b ∨
            w.calls.callee u = none ∧ heard = true ∧ Reaches db.db w.p := by
          rcases hserver with ⟨hboth, hcallee, -⟩ | ⟨hunreached, hcallee, -⟩
          · rw [hcallee, some_getD_eq_iff]
            cases w.calls.callee u with
            | none => simp [hboth]
            | some other => simp
          · rw [hcallee]
            simp [hunreached]
        rw [hcallee]
        simp
    | acceptPeer tPeerId => exact Iff.rfl
    | rejectPeer tPeerId => exact Iff.rfl
    | pingPeer => exact Iff.rfl
    | hangupPeer => exact Iff.rfl
    | handshakePeer => exact Iff.rfl
    | reset => exact Iff.rfl

end

theorem connect_peer_awaits_dialled_iff (setting : Setting) (u : Int32) {token localIp : ByteString}
    (hlocal : localIp.length < 2 ^ 30) (mSocket : Int32) (outcomes : List Bool)
    (events : List (Event u token)) :
    Transition.AlwaysM (World.step setting) AwaitsDialled
        (World.start token mSocket localIp outcomes) events ↔
      Transition.AlwaysM (World.step setting) Dialable
        (World.start token mSocket localIp outcomes) events :=
  Transition.alwaysM_congr_of_invariant (client_start token mSocket localIp outcomes)
    (fun _ _ _ hw hstep => awaitsDialled_iff hlocal hw hstep)
    (fun _ _ _ hw hstep _ => client_step hw hstep)

def johnAddress : ByteString := str "1.2.3.4:5000"

theorem johnAddress_short : johnAddress.length < 2 ^ 31 := by decide

def lanSetting : Setting :=
  ⟨lan, lanSettings, ⟨1, htons 4000⟩, johnAddress, johnAddress_short⟩

def johnDatabase : UserDatabase 1 (str "token-1") := ⟨setupDb, by decide⟩

def dials (id : String) : Event 1 (str "token-1") :=
  .operation (.connectPeer (str id)) johnDatabase true true

def secondCall : List (Event 1 (str "token-1")) :=
  [dials "2", .operation .reset johnDatabase false false, dials "3"]

def johnWorld : World := World.start (str "token-1") 4 (str "192.168.0.14") []

theorem connect_peer_awaits_dialled_iff_john :
    Transition.AlwaysM (World.step lanSetting) AwaitsDialled johnWorld secondCall ↔
      Transition.AlwaysM (World.step lanSetting) Dialable johnWorld secondCall := by
  have hlocal : (str "192.168.0.14").length < 2 ^ 30 := by decide
  exact connect_peer_awaits_dialled_iff lanSetting 1 hlocal 4 [] secondCall

theorem connect_peer_awaits_another :
    ¬Transition.AlwaysM (World.step lanSetting) AwaitsDialled johnWorld secondCall := by
  intro h
  rw [secondCall, Transition.alwaysM_cons_iff] at h
  obtain ⟨-, h⟩ := h _ rfl
  rw [Transition.alwaysM_cons_iff] at h
  obtain ⟨-, h⟩ := h _ rfl
  have hcallee := (h [] (dials "3") [] _ _ rfl rfl rfl) 3 (by decide) rfl
  exact absurd hcallee (by decide)

end Skype.PeerCalls
