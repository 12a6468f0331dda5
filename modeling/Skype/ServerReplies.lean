import Skype.Library.Transition
import Skype.PeerLifetime

/-!
# What `send_server` takes for the server's reply

The socket of a `P2P` object receives the replies of the server and the datagrams of
other hosts in one queue. Every arrival is marked with the command that it answers,
so that a run of operations over any interleaving shows which datagram each command
took its reply from.
-/

namespace Skype.ServerReplies

open Library P2P
open UDPConn (textOf)

structure Delivery where
  arrival : Arrival
  inReplyTo : Option ℕ

structure Session where
  p : P2P
  out : Outbox
  incoming : List Delivery
  commands : ℕ

def Session.channel (s : Session) : Channel := ⟨s.out, s.incoming.map Delivery.arrival⟩

def commandOf (p : P2P) : Operation → Option ByteString
  | .connectPeer tPeerId => some (p.commandText .connect (p.argument tPeerId))
  | .acceptPeer tPeerId => some (p.commandText .accept (p.argument tPeerId))
  | .rejectPeer tPeerId => some (p.commandText .reject tPeerId)
  | .pingPeer =>
    if p.mType ≠ .initiator then none
    else if p.mStatus = .accepted then none
    else some (p.bareCommandText .ping)
  | .hangupPeer => if p.mType ≠ .initiator then none else some (p.bareCommandText .hangup)
  | .handshakePeer => none
  | .reset => none

def Session.step (net : Inet) (settings : Settings) (s : Session) (op : Operation) :
    Exec Session := do
  let (p, ch) ← perform net settings s.p s.channel op
  return ⟨p, ch.out, s.incoming.drop (s.incoming.length - ch.arrivals.length),
    if (commandOf s.p op).isSome then s.commands + 1 else s.commands⟩

def codeOf (payload : List UInt8) : Reply.Code := Reply.fromString (firstWord (textOf payload)).1

def Delivery.code (d : Delivery) : Option Reply.Code :=
  match d.arrival with
  | .failure => none
  | .datagram _ payload => some (codeOf payload)

def Session.replyCode (s : Session) : Option Reply.Code :=
  (s.incoming.find? fun d => d.inReplyTo = some s.commands).bind Delivery.code

/-- A command takes its code from the server's reply to it, and a `PING` that the
server answers with `201` ends accepted. -/
def Answered (s : Session) (op : Operation) (t : Session) : Prop :=
  commandOf s.p op ≠ none →
    (∃ source payload, s.incoming = ⟨.datagram source payload, some s.commands⟩ :: t.incoming ∧
      t.p.mLastReply = codeOf payload) ∧
    (op = .pingPeer → s.replyCode = some .r201 → t.p.mStatus = .accepted)

def ServerFirst (s : Session) (op : Operation) (_ : Session) : Prop :=
  commandOf s.p op ≠ none → s.p.Sends s.channel ∧
    ∃ source payload rest, s.incoming = ⟨.datagram source payload, some s.commands⟩ :: rest

section

variable {net : Inet} {settings : Settings} {p q : P2P} {ch ch' : Channel} {op : Operation}
  {text : ByteString}

structure Behind (r q : P2P) : Prop where
  code : q.mLastReply = r.mLastReply
  keeps : Keeps r q
  status : q.mStatus ≠ .connected

theorem connectPeer_command {tPeerId : ByteString}
    (h : connectPeer net settings p tPeerId ch = .ok (q, ch')) :
    ∃ msg r, sendServer net settings p (p.commandText .connect (p.argument tPeerId)) ch =
      .ok (msg, r, ch') ∧ Behind r q := by
  simp only [connectPeer, bind_eq_ok] at h
  obtain ⟨⟨msg, r, ch₁⟩, hsend, h⟩ := h
  split at h
  · cases h
    exact ⟨msg, r, hsend, rfl, ⟨rfl, rfl, rfl⟩, by simp⟩
  · split at h
    · cases h
      exact ⟨msg, r, hsend, rfl, ⟨rfl, rfl, rfl⟩, by simp⟩
    · cases h
      exact ⟨msg, r, hsend, rfl, ⟨rfl, rfl, rfl⟩, by simp⟩

theorem acceptPeer_command {tPeerId : ByteString}
    (h : acceptPeer net settings p tPeerId ch = .ok (q, ch')) :
    ∃ msg r, sendServer net settings { p with mType := .acceptor }
      (p.commandText .accept (p.argument tPeerId)) ch = .ok (msg, r, ch') ∧ Behind r q := by
  simp only [acceptPeer, bind_eq_ok] at h
  obtain ⟨⟨msg, r, ch₁⟩, hsend, h⟩ := h
  split at h
  · obtain ⟨pair, -, hresult⟩ := bind_eq_ok.mp h
    cases hresult
    exact ⟨msg, r, hsend, rfl, ⟨rfl, rfl, rfl⟩, by simp⟩
  · cases h
    exact ⟨msg, r, hsend, rfl, ⟨rfl, rfl, rfl⟩, by simp⟩

theorem rejectPeer_command {tPeerId : ByteString}
    (h : rejectPeer net settings p tPeerId ch = .ok (q, ch')) :
    ∃ msg r, sendServer net settings { p with mType := .acceptor }
      (p.commandText .reject tPeerId) ch = .ok (msg, r, ch') ∧ Behind r q := by
  simp only [rejectPeer, bind_eq_ok] at h
  obtain ⟨⟨msg, r, ch₁⟩, hsend, h⟩ := h
  cases h
  refine ⟨msg, r, hsend, rfl, ⟨rfl, rfl, rfl⟩, ?_⟩
  dsimp only
  split <;> simp

theorem pingPeer_command (hcommand : commandOf p .pingPeer = some text)
    (h : pingPeer net settings p ch = .ok (q, ch')) :
    ∃ msg r, sendServer net settings p text ch = .ok (msg, r, ch') ∧ Behind r q ∧
      (r.mLastReply = .r201 → q.mStatus = .accepted) := by
  rw [commandOf] at hcommand
  split at hcommand
  · cases hcommand
  · next htype =>
    split at hcommand
    · cases hcommand
    · next hstatus =>
      cases hcommand
      simp only [pingPeer, if_neg htype, if_neg hstatus, bind_eq_ok] at h
      obtain ⟨⟨msg, r, ch₁⟩, hsend, h⟩ := h
      split at h
      · obtain ⟨pair, -, hresult⟩ := bind_eq_ok.mp h
        cases hresult
        exact ⟨msg, r, hsend, ⟨rfl, ⟨rfl, rfl, rfl⟩, by simp⟩, fun _ => rfl⟩
      · next hcode =>
        split at h
        · cases h
          exact ⟨msg, r, hsend, ⟨rfl, ⟨rfl, rfl, rfl⟩, by simp⟩, fun h201 => absurd h201 hcode⟩
        · cases h
          exact ⟨msg, r, hsend, ⟨rfl, ⟨rfl, rfl, rfl⟩, by simp⟩, fun h201 => absurd h201 hcode⟩

theorem hangupPeer_command (hcommand : commandOf p .hangupPeer = some text)
    (h : hangupPeer net settings p ch = .ok (q, ch')) :
    ∃ msg r, sendServer net settings p text ch = .ok (msg, r, ch') ∧ Behind r q := by
  rw [commandOf] at hcommand
  split at hcommand
  · cases hcommand
  · next htype =>
    cases hcommand
    simp only [hangupPeer, if_neg htype, bind_eq_ok] at h
    obtain ⟨⟨msg, r, ch₁⟩, hsend, h⟩ := h
    cases h
    refine ⟨msg, r, hsend, rfl, ⟨rfl, rfl, rfl⟩, ?_⟩
    dsimp only
    split <;> simp

theorem perform_command (hcommand : commandOf p op = some text)
    (h : perform net settings p ch op = .ok (q, ch')) :
    ∃ p' msg r, Keeps p p' ∧ sendServer net settings p' text ch = .ok (msg, r, ch') ∧
      Behind r q ∧ (op = .pingPeer → r.mLastReply = .r201 → q.mStatus = .accepted) := by
  cases op with
  | connectPeer tPeerId =>
    cases hcommand
    obtain ⟨msg, r, hsend, hbehind⟩ := connectPeer_command h
    exact ⟨p, msg, r, ⟨rfl, rfl, rfl⟩, hsend, hbehind, by simp⟩
  | acceptPeer tPeerId =>
    cases hcommand
    obtain ⟨msg, r, hsend, hbehind⟩ := acceptPeer_command h
    exact ⟨{ p with mType := .acceptor }, msg, r, ⟨rfl, rfl, rfl⟩, hsend, hbehind, by simp⟩
  | rejectPeer tPeerId =>
    cases hcommand
    obtain ⟨msg, r, hsend, hbehind⟩ := rejectPeer_command h
    exact ⟨{ p with mType := .acceptor }, msg, r, ⟨rfl, rfl, rfl⟩, hsend, hbehind, by simp⟩
  | pingPeer =>
    obtain ⟨msg, r, hsend, hbehind, haccepted⟩ := pingPeer_command hcommand h
    exact ⟨p, msg, r, ⟨rfl, rfl, rfl⟩, hsend, hbehind, fun _ => haccepted⟩
  | hangupPeer =>
    obtain ⟨msg, r, hsend, hbehind⟩ := hangupPeer_command hcommand h
    exact ⟨p, msg, r, ⟨rfl, rfl, rfl⟩, hsend, hbehind, by simp⟩
  | handshakePeer => cases hcommand
  | reset => cases hcommand

end

section

variable {net : Inet} {settings : Settings} {s t : Session} {op : Operation}

theorem sends_congr {p p' : P2P} {ch : Channel} (h : p'.mConn = p.mConn) :
    p'.Sends ch ↔ p.Sends ch := by
  rw [P2P.Sends, P2P.Sends, h]

theorem step_eq_ok (h : s.step net settings op = .ok t) :
    ∃ ch, perform net settings s.p s.channel op = .ok (t.p, ch) ∧
      t.incoming = s.incoming.drop (s.incoming.length - ch.arrivals.length) := by
  obtain ⟨⟨p, ch⟩, hperform, hresult⟩ := bind_eq_ok.mp h
  cases hresult
  exact ⟨ch, hperform, rfl⟩

theorem drop_length_cons {α β : Type} (d : α) (rest : List α) (f : α → β) :
    (d :: rest).drop ((d :: rest).length - (rest.map f).length) = rest := by
  simp

theorem answered_of_serverFirst (hstep : s.step net settings op = .ok t)
    (h : ServerFirst s op t) : Answered s op t := by
  intro hcommand
  obtain ⟨text, htext⟩ := Option.ne_none_iff_exists'.mp hcommand
  obtain ⟨hsends, source, payload, rest, hhead⟩ := h hcommand
  obtain ⟨ch, hperform, hincoming⟩ := step_eq_ok hstep
  obtain ⟨p', msg, r, hkeeps, hsend, ⟨hlast, -⟩, hping⟩ := perform_command htext hperform
  have harrivals : s.channel.arrivals = .datagram source payload :: rest.map Delivery.arrival := by
    simp [Session.channel, hhead]
  rw [← sends_congr hkeeps.conn] at hsends
  rcases sendServer_cases hsend with ⟨-, s', payload', hread, -, hr⟩ | ⟨hunread, -⟩
  · rw [harrivals, List.cons.injEq] at hread
    obtain ⟨hsame, hrest⟩ := hread
    cases hsame
    have hcode : r.mLastReply = codeOf payload := by
      rw [hr]
      rfl
    refine ⟨⟨source, payload, ?_, hlast.trans hcode⟩, ?_⟩
    · rw [hincoming, ← hrest, hhead, drop_length_cons]
    · intro hop hreply
      have h201 : codeOf payload = .r201 := by
        simpa [Session.replyCode, hhead, Delivery.code] using hreply
      exact hping hop (hcode.trans h201)
  · rcases hunread with ⟨hunsent, -⟩ | ⟨-, hfailure⟩
    · exact absurd hsends hunsent
    · rw [harrivals] at hfailure
      cases hfailure

theorem serverFirst_of_answered (hstep : s.step net settings op = .ok t)
    (h : Answered s op t) : ServerFirst s op t := by
  intro hcommand
  obtain ⟨text, htext⟩ := Option.ne_none_iff_exists'.mp hcommand
  obtain ⟨⟨source, payload, hhead, -⟩, -⟩ := h hcommand
  refine ⟨?_, source, payload, t.incoming, hhead⟩
  obtain ⟨ch, hperform, hincoming⟩ := step_eq_ok hstep
  obtain ⟨p', msg, r, hkeeps, hsend, -, -⟩ := perform_command htext hperform
  rw [← sends_congr hkeeps.conn]
  rcases sendServer_cases hsend with ⟨hsends, -⟩ | ⟨⟨hunsent, hkept⟩ | ⟨hsends, -⟩, -⟩
  · exact hsends
  · -- Nothing is read, so the arrivals cannot be one shorter.
    have hsame : ch.arrivals.length = s.incoming.length := by
      rw [hkept, Session.channel, List.length_map]
    rw [hsame, Nat.sub_self, List.drop_zero] at hincoming
    have hlen := congrArg List.length hhead
    rw [hincoming, List.length_cons] at hlen
    omega
  · exact hsends

end

theorem send_server_answered_iff (net : Inet) (settings : Settings) (s : Session)
    (ops : List Operation) :
    Transition.AlwaysM (Session.step net settings) Answered s ops ↔
      Transition.AlwaysM (Session.step net settings) ServerFirst s ops :=
  Transition.alwaysM_congr fun _ _ _ hstep =>
    ⟨serverFirst_of_answered hstep, answered_of_serverFirst hstep⟩

def punchedFirst : Session where
  p := P2P.new (str "token-1") 4 (str "192.168.0.14")
  out := ⟨[], []⟩
  incoming := [⟨.datagram ⟨1, 4000⟩ (str "200 OK"), some 0⟩,
    ⟨.datagram ⟨2, 6000⟩ (str "200 OK"), none⟩,
    ⟨.datagram ⟨1, 4000⟩ (str "201 5.6.7.8:6000 WEB"), some 1⟩]
  commands := 0

theorem ping_answered_by_punch :
    let net : Inet := ⟨fun _ => 1, fun _ => str "9.9.9.9"⟩
    let settings : Settings := ⟨str "9.9.9.9", str "4002", by decide⟩
    ¬Transition.AlwaysM (Session.step net settings) Answered punchedFirst
        [.connectPeer (str "2"), .pingPeer] ∧
      ∃ awaiting failed, punchedFirst.step net settings (.connectPeer (str "2")) = .ok awaiting ∧
        awaiting.replyCode = some .r201 ∧ awaiting.step net settings .pingPeer = .ok failed ∧
        failed.p.mStatus = .error ∧ failed.p.mLastReply = .r200 := by
  intro net settings
  refine ⟨?_, _, _, rfl, by decide, rfl, rfl, rfl⟩
  intro h
  have hanswered := h [.connectPeer (str "2")] .pingPeer [] _ _ rfl rfl rfl
  obtain ⟨⟨source, payload, hhead, -⟩, -⟩ := hanswered (by decide)
  cases hhead

end Skype.ServerReplies
