import Skype.ConnectionPoll
import Skype.TextIO

/-!
# `PassiveConn`

The listening socket with its poll and the addresses of the sockets that it accepted. An
accepted socket gets an address whether or not the poll had room for it, and keeps the
address when it is closed. What is pending, what `accept` returns and how reading and
sending end are parameters.
-/

namespace Skype

open Library

namespace ConnectionPoll

def acceptAwaits (p : ConnectionPoll) (pending : Pending) : Bool × ConnectionPoll :=
  let polled := poll pending p.mPoll ZERO
  (decide (0 < polled.1),
    { p with
      mPoll := polled.2
      length_mPoll := by rw [length_poll, p.length_mPoll] })

theorem Packs.acceptAwaits {listening : Int32} {sockets : List Int32} {p : ConnectionPoll}
    (h : Packs listening sockets p) (pending : Pending) :
    Packs listening sockets (p.acceptAwaits pending).2 := by
  have hfds : (p.acceptAwaits pending).2.fds = p.fds := map_poll rfl p.mPoll ZERO
  have hevents : (p.acceptAwaits pending).2.eventsOf = p.eventsOf := map_poll rfl p.mPoll ZERO
  exact ⟨hfds.trans h.fds, h.index, hevents ▸ h.armed⟩

end ConnectionPoll

structure PassiveConn where
  mSocket : Int32
  mPoll : ConnectionPoll
  mAddresses : Int32 → Option ByteString

structure AcceptOutcome where
  pending : Pending
  socket : Int32
  address : SockAddr

/-- What is pending, what the bytes on the selected socket are, and whether a `recv` failed. -/
structure Readings where
  pending : Pending
  pieces : List ByteString
  fails : Bool

namespace PassiveConn

open ConnectionPoll

def listening (memory : Fin maxConnections → PollFd) (mSocket : Int32) : PassiveConn :=
  ⟨mSocket, start memory mSocket, fun _ => none⟩

def acceptConnection (net : Inet) (conn : PassiveConn) (incoming : AcceptOutcome) :
    Request × PassiveConn :=
  let req := Request.new [] false
  let (awaits, mPoll) := conn.mPoll.acceptAwaits incoming.pending
  let conn := { conn with mPoll }
  if awaits then
    let req := { req with mSocket := incoming.socket, mValid := decide (0 ≤ incoming.socket) }
    if req.mValid then
      let address := Connection.addressTostring net incoming.address
      ({ req with mAddress := address },
        { conn with
          mPoll := (conn.mPoll.addSocket incoming.socket).2
          mAddresses := Function.update conn.mAddresses incoming.socket (some address) })
    else (req, conn)
  else (req, conn)

def read (readings : Readings) (tReq : Request) : Exec (Bool × Request) :=
  if readings.fails then .ok (false, tReq)
  else do
    let (valid, tReq, _) ← TextIO.receive tReq readings.pieces
    return (valid, tReq)

/-- `at` throws for a socket without an address. -/
def receive (conn : PassiveConn) (readings : Readings) (tReq : Request) :
    Exec (Request × PassiveConn) :=
  let (socket, mPoll) := conn.mPoll.selectSocketWithEvents readings.pending
  let tReq := { tReq with mSocket := socket, mValid := decide (0 ≤ socket) }
  let conn := { conn with mPoll }
  if tReq.mValid then do
    let (valid, tReq) ← read readings tReq
    match conn.mAddresses tReq.mSocket with
    | none => .error .outOfRange
    | some mAddress => return ({ tReq with mValid := valid, mAddress }, conn)
  else .ok (tReq, conn)

def respond (sent : Bool) (tReq : Request) : Exec Request :=
  if tReq.mValid then do
    let (valid, _) ← TextIO.respond tReq
    return { tReq with mValid := valid && sent }
  else .ok tReq

/-- The poll closes the socket, which is then closed again. -/
def disconnectClient (conn : PassiveConn) (socket : Int32) : PassiveConn :=
  { conn with mPoll := (conn.mPoll.removeSocket socket).2 }

structure Serves (sockets opened : List Int32) (conn : PassiveConn) : Prop where
  packs : Packs conn.mSocket sockets conn.mPoll
  held : Held conn.mSocket sockets
  isOpen : ∀ fd ∈ sockets, fd ∈ opened
  descriptors : ∀ fd ∈ opened, 0 ≤ fd
  addressed : ∀ fd ∈ opened, ∃ address, conn.mAddresses fd = some address

section

variable {sockets opened : List Int32} {conn conn' : PassiveConn}

theorem serves_listening (memory : Fin maxConnections → PollFd) {mSocket : Int32}
    (h : 0 ≤ mSocket) : Serves [] [] (listening memory mSocket) where
  packs := packs_start memory mSocket
  held := by
    refine ⟨List.nodup_singleton mSocket, ?_⟩
    intro fd hfd
    rw [List.mem_singleton.mp hfd]
    exact h
  isOpen := List.forall_mem_nil _
  descriptors := List.forall_mem_nil _
  addressed := List.forall_mem_nil _

def Accepts (conn : PassiveConn) (incoming : AcceptOutcome) : Prop :=
  (conn.mPoll.acceptAwaits incoming.pending).1 = true ∧ 0 ≤ incoming.socket

instance (conn : PassiveConn) (incoming : AcceptOutcome) : Decidable (Accepts conn incoming) :=
  inferInstanceAs (Decidable (_ ∧ _))

def awaited (conn : PassiveConn) (pending : Pending) : PassiveConn :=
  { conn with mPoll := (conn.mPoll.acceptAwaits pending).2 }

def added (conn : PassiveConn) (socket : Int32) (address : ByteString) : PassiveConn :=
  { conn with
    mPoll := (conn.mPoll.addSocket socket).2
    mAddresses := Function.update conn.mAddresses socket (some address) }

theorem mAddresses_added_self (conn : PassiveConn) (socket : Int32) (address : ByteString) :
    (conn.added socket address).mAddresses socket = some address := by
  simp [added]

theorem mAddresses_added_of_ne {fd socket : Int32} (h : fd ≠ socket) (address : ByteString) :
    (conn.added socket address).mAddresses fd = conn.mAddresses fd := by
  simp [added, h]

theorem acceptConnection_of_accepts {net : Inet} {incoming : AcceptOutcome}
    (h : conn.Accepts incoming) :
    conn.acceptConnection net incoming =
      ({ Request.new [] false with
          mSocket := incoming.socket
          mValid := true
          mAddress := Connection.addressTostring net incoming.address },
        (conn.awaited incoming.pending).added incoming.socket
          (Connection.addressTostring net incoming.address)) := by
  obtain ⟨hawaits, hfd⟩ := h
  rw [acceptConnection]
  dsimp only
  rw [if_pos hawaits, if_pos (decide_eq_true hfd), decide_eq_true hfd]
  rfl

theorem acceptConnection_of_not (net : Inet) {incoming : AcceptOutcome}
    (h : ¬conn.Accepts incoming) :
    ∃ req, conn.acceptConnection net incoming = (req, conn.awaited incoming.pending) ∧
      req.mValid = false := by
  rw [acceptConnection]
  dsimp only
  split
  · next hawaits =>
    have hfd : ¬0 ≤ incoming.socket := fun hfd => h ⟨hawaits, hfd⟩
    rw [decide_eq_false hfd, if_neg Bool.false_ne_true]
    exact ⟨_, rfl, rfl⟩
  · exact ⟨_, rfl, rfl⟩

theorem Serves.awaited (h : Serves sockets opened conn) (pending : Pending) :
    Serves sockets opened (conn.awaited pending) :=
  ⟨h.packs.acceptAwaits pending, h.held, h.isOpen, h.descriptors, h.addressed⟩

theorem Serves.added (h : Serves sockets opened conn) {socket : Int32}
    (hfresh : 0 ≤ socket ∧ socket ∉ conn.mSocket :: opened) (address : ByteString) :
    Serves (track sockets (.addSocket socket)) (opened ++ [socket])
      (conn.added socket address) where
  packs := h.packs.addSocket socket
  held := by
    refine held_track h.held ⟨hfresh.1, ?_⟩
    intro hmem
    rcases List.mem_cons.mp hmem with hsame | hmem
    · exact hfresh.2 (List.mem_cons.mpr (Or.inl hsame))
    · exact hfresh.2 (List.mem_cons_of_mem _ (h.isOpen socket hmem))
  isOpen := by
    intro fd hfd
    rcases mem_track_addSocket.mp hfd with hold | ⟨hnew, -⟩
    · exact List.mem_append_left _ (h.isOpen fd hold)
    · exact List.mem_append_right _ (List.mem_singleton.mpr hnew)
  descriptors := by
    intro fd hfd
    rcases List.mem_append.mp hfd with hold | hnew
    · exact h.descriptors fd hold
    · rw [List.mem_singleton.mp hnew]
      exact hfresh.1
  addressed := by
    intro fd hfd
    by_cases hsame : fd = socket
    · rw [hsame]
      exact ⟨address, mAddresses_added_self conn socket address⟩
    · rcases List.mem_append.mp hfd with hold | hnew
      · obtain ⟨old, hold⟩ := h.addressed fd hold
        exact ⟨old, (mAddresses_added_of_ne hsame address).trans hold⟩
      · exact absurd (List.mem_singleton.mp hnew) hsame

theorem Serves.disconnectClient (h : Serves sockets opened conn) (socket : Int32) :
    Serves (track sockets (.removeSocket socket)) (opened.filter (· ≠ socket))
      (conn.disconnectClient socket) where
  packs := h.packs.removeSocket h.held socket
  held := held_track h.held trivial
  isOpen := by
    intro fd hfd
    obtain ⟨hmem, hne⟩ := List.mem_filter.mp hfd
    exact List.mem_filter.mpr ⟨h.isOpen fd hmem, hne⟩
  descriptors := fun fd hfd => h.descriptors fd (List.mem_of_mem_filter hfd)
  addressed := fun fd hfd => h.addressed fd (List.mem_of_mem_filter hfd)

theorem mSocket_read {readings : Readings} {tReq req : Request} {valid : Bool}
    (h : read readings tReq = .ok (valid, req)) : req.mSocket = tReq.mSocket := by
  rw [read] at h
  split at h
  · cases h
    rfl
  · obtain ⟨⟨received, got, pieces⟩, hreceive, hresult⟩ := bind_eq_ok.mp h
    cases hresult
    unfold TextIO.receive at hreceive
    dsimp only at hreceive
    split at hreceive
    · cases hreceive
      rfl
    · split at hreceive
      · cases hreceive
      · cases hreceive
        rfl

theorem receive_cases {readings : Readings} {tReq req : Request}
    (h : conn.receive readings tReq = .ok (req, conn')) :
    conn' = { conn with mPoll := (conn.mPoll.selectSocketWithEvents readings.pending).2 } ∧
      req.mSocket = (conn.mPoll.selectSocketWithEvents readings.pending).1 ∧
      (0 ≤ req.mSocket → conn.mAddresses req.mSocket = some req.mAddress) := by
  rw [receive] at h
  dsimp only at h
  split at h
  · obtain ⟨⟨valid, got⟩, hread, hresult⟩ := bind_eq_ok.mp h
    have hsocket := mSocket_read hread
    dsimp only at hresult
    split at hresult
    · cases hresult
    · next address haddress =>
      cases hresult
      exact ⟨rfl, hsocket, fun _ => haddress⟩
  · next hinvalid =>
    cases h
    refine ⟨rfl, rfl, ?_⟩
    intro hfd
    exact absurd (decide_eq_true hfd) hinvalid

theorem Serves.receive (h : Serves sockets opened conn) {readings : Readings} {tReq req : Request}
    (hreceive : conn.receive readings tReq = .ok (req, conn')) :
    Serves sockets opened conn' ∧ conn'.mAddresses = conn.mAddresses := by
  obtain ⟨rfl, -, -⟩ := receive_cases hreceive
  exact ⟨⟨h.packs.selectSocketWithEvents _, h.held, h.isOpen, h.descriptors, h.addressed⟩, rfl⟩

end

end PassiveConn

end Skype
