import Skype.PeerToPeer

/-!
# The life of a `P2P` object

What one exchange with the server and one handshake can do, for every sequence of
arrivals, and what holds of a `P2P` object after any sequence of its operations.
-/

namespace Skype.P2P

open Library
open UDPConn (textOf length_textOf_le)

inductive Operation
  | connectPeer (tPeerId : ByteString)
  | acceptPeer (tPeerId : ByteString)
  | rejectPeer (tPeerId : ByteString)
  | pingPeer
  | hangupPeer
  | handshakePeer
  | reset

def perform (net : Inet) (settings : Settings) (p : P2P) (ch : Channel) :
    Operation → Exec (P2P × Channel)
  | .connectPeer tPeerId => connectPeer net settings p tPeerId ch
  | .acceptPeer tPeerId => acceptPeer net settings p tPeerId ch
  | .rejectPeer tPeerId => rejectPeer net settings p tPeerId ch
  | .pingPeer => pingPeer net settings p ch
  | .hangupPeer => hangupPeer net settings p ch
  | .handshakePeer => handshakePeer net p ch
  | .reset => .ok (p.reset, ch)

structure Keeps (p q : P2P) : Prop where
  token : q.mToken = p.mToken
  localIp : q.mLocalIp = p.mLocalIp
  conn : q.mConn = p.mConn

theorem Keeps.trans {p q r : P2P} (h : Keeps p q) (h' : Keeps q r) : Keeps p r :=
  ⟨h'.token.trans h.token, h'.localIp.trans h.localIp, h'.conn.trans h.conn⟩

inductive Lifetime (net : Inet) (settings : Settings) : P2P → Prop
  | new (tToken : ByteString) (mSocket : Int32) (mLocalIp : ByteString) :
      Lifetime net settings (P2P.new tToken mSocket mLocalIp)
  | step {p q : P2P} {ch ch' : Channel} (op : Operation) (h : Lifetime net settings p)
      (hstep : perform net settings p ch op = .ok (q, ch')) : Lifetime net settings q

def firstWord (text : ByteString) : ByteString × ByteString := Search.cutFirst (str " ") text

def Sends (p : P2P) (ch : Channel) : Prop :=
  p.mConn.mIo = .udpText ∧ ch.out.outcomes.head? ≠ some false

theorem splitFirst_word {word rest : ByteString} (hspace : space ∉ word)
    (hword : word.length < npos)
    {a b : ByteString}
    (h : StringUtils.splitFirst (word ++ space :: rest) (str " ") = .ok (a, b)) : a = word := by
  have hne : word ++ space :: rest ≠ [] := by simp
  have hsearch : Search.search (str " ") (word ++ space :: rest) = some word.length :=
    Search.search_append_cons rest hspace
  have hfind : find (word ++ space :: rest) (str " ") 0 = word.length := by
    simp [find, hsearch]
  simp only [StringUtils.splitFirst, if_neg hne, hfind, if_neg hword.ne, bind_eq_ok] at h
  obtain ⟨first, hfirst, second, -, hresult⟩ := h
  rw [substr_of_le _ (Nat.zero_le _)] at hfirst
  cases hresult
  cases hfirst
  simp

/-- `StreamIO` refuses the text of a command. -/
theorem respond_server_stream (net : Inet) (settings : Settings) {p : P2P}
    (hio : p.mConn.mIo = .stream) (text : ByteString) (ch : Channel) :
    p.mConn.respond net (makeServerRequest settings text) ch =
      .ok (false, { makeServerRequest settings text with
        mSocket := p.mConn.mSocket, mValid := false }, ch) := by
  simp only [UDPConn.respond, hio]
  rfl

theorem sendServer_cases {net : Inet} {settings : Settings} {p q : P2P} {text msg : ByteString}
    {ch ch' : Channel} (h : sendServer net settings p text ch = .ok (msg, q, ch')) :
    (p.Sends ch ∧ ∃ source payload, ch.arrivals = .datagram source payload :: ch'.arrivals ∧
      msg = (firstWord (textOf payload)).2 ∧
      q = { p with mLastReply := Reply.fromString (firstWord (textOf payload)).1 }) ∨
    ((¬p.Sends ch ∧ ch'.arrivals = ch.arrivals ∨
        p.Sends ch ∧ ch.arrivals = .failure :: ch'.arrivals) ∧
      ∃ word, StringUtils.splitFirst text (str " ") = .ok (word, msg) ∧
        q = { p with mLastReply := Reply.fromString word }) := by
  simp only [sendServer, bind_eq_ok] at h
  obtain ⟨⟨sent, req₁, ch₁⟩, hrespond, ⟨got, req₂, ch₂⟩, hreceive, response, hdata,
    ⟨word, rest⟩, hsplit, hresult⟩ := h
  cases hresult
  have hfirst : (makeServerRequest settings text).mValid = true := rfl
  cases hio : p.mConn.mIo with
  | udpText =>
    obtain ⟨hvalid₁, hdata₁, harrivals, hsent, -⟩ :=
      UDPConn.respond_text_cases net hio hrespond
    rw [hfirst] at hsent
    have hsends : req₁.mValid = true ↔ p.Sends ch := by
      rw [hvalid₁, hsent, Sends, hio]
      simp
    rcases UDPConn.receive_text_cases net hio hreceive with
      ⟨-, hread, source, payload, hhead, -, htext⟩ | ⟨-, -, hkept, hunread⟩
    · have hresponse : response = textData (textOf payload) := by
        rw [Request.data, htext] at hdata
        exact (Except.ok.inj hdata).symm
      have hlen := length_textOf_le payload
      have hshort : (textOf payload).length < 2 ^ 31 := by
        unfold UDPTextIO.bufferSize at hlen
        omega
      rw [hresponse, textData, StringUtils.splitFirst_eq hshort] at hsplit
      have hword := Except.ok.inj hsplit
      refine Or.inl ⟨hsends.mp hread, source, payload, ?_, ?_, ?_⟩
      · rw [← harrivals, hhead]
      · rw [firstWord, hword]
      · rw [firstWord, hword]
    · right
      have hresponse : response = textData text := by
        rw [Request.data, hkept, hdata₁] at hdata
        exact (Except.ok.inj hdata).symm
      rw [hresponse] at hsplit
      refine ⟨?_, word, hsplit, rfl⟩
      rcases hunread with ⟨hinvalid, rfl⟩ | ⟨hread, hfailure⟩
      · refine Or.inl ⟨?_, harrivals⟩
        rw [← hsends, hinvalid]
        simp
      · exact Or.inr ⟨hsends.mp hread, by rw [← harrivals, hfailure]⟩
  | stream =>
    rw [respond_server_stream net settings hio] at hrespond
    cases hrespond
    rw [UDPConn.receive_invalid net _ _ rfl] at hreceive
    cases hreceive
    cases hdata
    refine Or.inr ⟨Or.inl ⟨?_, rfl⟩, word, hsplit, rfl⟩
    rw [Sends, hio]
    simp

theorem sendServer_keeps {net : Inet} {settings : Settings} {p q : P2P} {text msg : ByteString}
    {ch ch' : Channel} (h : sendServer net settings p text ch = .ok (msg, q, ch')) :
    q = { p with mLastReply := q.mLastReply } := by
  rcases sendServer_cases h with ⟨-, source, payload, -, -, hq⟩ | ⟨-, word, -, hq⟩
  · rw [hq]
  · rw [hq]

theorem fromString_toString (tCmd : ServerCommand.Name) :
    Reply.fromString (ServerCommand.toString tCmd) = .none := by
  cases tCmd <;> decide

/-- The words of the commands are no codes, so a code comes from a datagram. -/
theorem received_of_code {net : Inet} {settings : Settings} {p q : P2P}
    {tCmd : ServerCommand.Name} {rest msg : ByteString} {ch ch' : Channel}
    (h : sendServer net settings p (ServerCommand.toString tCmd ++ space :: rest) ch =
      .ok (msg, q, ch')) (hcode : q.mLastReply ≠ .none) :
    p.Sends ch ∧ ∃ source payload, ch.arrivals = .datagram source payload :: ch'.arrivals ∧
      q.mLastReply = Reply.fromString (firstWord (textOf payload)).1 := by
  rcases sendServer_cases h with ⟨hsends, source, payload, hhead, -, hq⟩ | ⟨-, word, hsplit, hq⟩
  · exact ⟨hsends, source, payload, hhead, by rw [hq]⟩
  · have hlen : (ServerCommand.toString tCmd).length < npos := by
      cases tCmd <;> decide
    have hword := splitFirst_word (ServerCommand.space_notMem_toString tCmd) hlen hsplit
    rw [hq, hword, fromString_toString] at hcode
    exact absurd rfl hcode

theorem commandText_eq (p : P2P) (tCmd : ServerCommand.Name) (tArg : ByteString) :
    p.commandText tCmd tArg =
      ServerCommand.toString tCmd ++ space :: (p.mToken ++ delim ++ tArg) := by
  simp only [commandText, delim, str]
  simp

theorem bareCommandText_eq (p : P2P) (tCmd : ServerCommand.Name) :
    p.bareCommandText tCmd = ServerCommand.toString tCmd ++ space :: p.mToken := by
  simp only [bareCommandText, delim, str]
  simp

def TextWhenAccepted (p : P2P) : Prop := p.mStatus = .accepted → p.mConn.mIo = .udpText

section

variable {net : Inet} {settings : Settings} {p q : P2P} {tPeerId : ByteString}
  {ch ch' : Channel}

theorem connectPeer_status (h : connectPeer net settings p tPeerId ch = .ok (q, ch')) :
    q.mStatus = .awaiting ∨ q.mStatus = .error := by
  simp only [connectPeer, bind_eq_ok] at h
  obtain ⟨⟨msg, r, ch₁⟩, -, h⟩ := h
  split at h
  · cases h
    exact Or.inl rfl
  · split at h
    · cases h
      exact Or.inl rfl
    · cases h
      exact Or.inr rfl

theorem rejectPeer_status (h : rejectPeer net settings p tPeerId ch = .ok (q, ch')) :
    q.mStatus = .idle ∨ q.mStatus = .error := by
  simp only [rejectPeer, bind_eq_ok] at h
  obtain ⟨⟨msg, r, ch₁⟩, -, h⟩ := h
  cases h
  by_cases hcode : r.mLastReply = .r200
  · exact Or.inl (if_pos hcode)
  · exact Or.inr (if_neg hcode)

theorem acceptPeer_text (h : acceptPeer net settings p tPeerId ch = .ok (q, ch')) :
    TextWhenAccepted q := by
  simp only [acceptPeer, bind_eq_ok] at h
  obtain ⟨⟨msg, r, ch₁⟩, hsend, h⟩ := h
  rw [commandText_eq] at hsend
  have hkeeps := sendServer_keeps hsend
  split at h
  · next hcode =>
    obtain ⟨pair, -, hresult⟩ := bind_eq_ok.mp h
    obtain ⟨hsends, -⟩ := received_of_code hsend (by rw [hcode]; decide)
    cases hresult
    intro _
    have hconn := congrArg mConn hkeeps
    change r.mConn.mIo = .udpText
    rw [hconn]
    exact hsends.1
  · cases h
    intro herror
    cases herror

theorem pingPeer_text (hp : TextWhenAccepted p)
    (h : pingPeer net settings p ch = .ok (q, ch')) : TextWhenAccepted q := by
  unfold pingPeer at h
  split at h
  · cases h
    exact hp
  · split at h
    · cases h
      exact hp
    · simp only [bind_eq_ok] at h
      obtain ⟨⟨msg, r, ch₁⟩, hsend, h⟩ := h
      rw [bareCommandText_eq] at hsend
      have hkeeps := sendServer_keeps hsend
      split at h
      · next hcode =>
        obtain ⟨pair, -, hresult⟩ := bind_eq_ok.mp h
        obtain ⟨hsends, -⟩ := received_of_code hsend (by rw [hcode]; decide)
        cases hresult
        intro _
        have hconn := congrArg mConn hkeeps
        change r.mConn.mIo = .udpText
        rw [hconn]
        exact hsends.1
      · split at h
        · cases h
          intro hawaiting
          cases hawaiting
        · cases h
          intro herror
          cases herror

theorem hangupPeer_text (hp : TextWhenAccepted p)
    (h : hangupPeer net settings p ch = .ok (q, ch')) : TextWhenAccepted q := by
  unfold hangupPeer at h
  split at h
  · cases h
    exact hp
  · simp only [bind_eq_ok] at h
    obtain ⟨⟨msg, r, ch₁⟩, -, h⟩ := h
    cases h
    intro hstatus
    by_cases hcode : r.mLastReply = .r200
    · simp [hcode] at hstatus
    · simp [hcode] at hstatus

end

end Skype.P2P
