import Skype.PassiveConn
import Skype.Sessions

/-!
# The main loop of the server

An iteration accepts a connection, if one awaits, and serves a request, if one can be read.
Beside the connection and the tables the state keeps which accepted sockets are open and
which clients got their `200 OK`. A client that finds the poll full is greeted as any other
and never heard again.
-/

namespace Skype.MainLoop

open Library PassiveConn ConnectionPoll

structure State where
  conn : PassiveConn
  server : Server
  opened : List Int32
  welcomed : List (Int32 × ByteString)

structure Iteration where
  incoming : AcceptOutcome
  welcomeSent : Bool
  readings : Readings
  draw : Draw
  replySent : Bool

inductive Event
  | iteration (i : Iteration)
  | others (server : Server)

def State.start (memory : Fin maxConnections → PollFd) (mSocket : Int32)
    (server : Server) : State :=
  ⟨listening memory mSocket, server, [], []⟩

def acceptConnection (net : Inet) (s : State) (i : Iteration) : Exec State :=
  let (req, conn) := s.conn.acceptConnection net i.incoming
  if req.mValid then do
    let req ← respond i.welcomeSent (req.setData (textData (Reply.getMessage .r200)))
    let s := { s with conn, opened := s.opened ++ [req.mSocket] }
    return if req.mValid then { s with welcomed := s.welcomed ++ [(req.mSocket, req.mAddress)] }
      else s
  else .ok { s with conn }

def State.disconnectClient (s : State) (socket : Int32) : State :=
  { s with
    conn := s.conn.disconnectClient socket
    opened := s.opened.filter (· ≠ socket)
    welcomed := s.welcomed.filter fun client => client.1 ≠ socket }

def disconnectClientOnRequest (tReq : Request) (s : State) : State :=
  if tReq.mExit then s.disconnectClient tReq.mSocket else s

def disconnectClientOnFailure (pg : Engine) (tReq : Request) (s : State) : Exec State := do
  let server ← Sessions.disconnectClientOnFailure pg tReq s.server
  let s := { s with server }
  return if tReq.mValid = false ∧ 0 ≤ tReq.mSocket then s.disconnectClient tReq.mSocket else s

def serve (pg : Engine) (s : State) (i : Iteration) : Exec State := do
  let (req, conn) ← s.conn.receive i.readings (Request.new [] false)
  let (req, server) ← Router.route pg i.draw req s.server
  let req ← respond i.replySent req
  disconnectClientOnFailure pg req (disconnectClientOnRequest req { s with conn, server })

def step (net : Inet) (pg : Engine) (s : State) : Event → Exec State
  | .iteration i => do
    let accepted ← acceptConnection net s i
    serve pg accepted i
  | .others server => .ok { s with server }

/-- Every welcomed client has its socket in the poll, its address under the socket, and is
the one that `receive` reads from when nobody else can be read. -/
def Served (s : State) : Prop :=
  ∀ client ∈ s.welcomed, client.1 ∈ s.conn.mPoll.fds.drop OFFSET ∧
    s.conn.mAddresses client.1 = some client.2 ∧
    ∀ readings tReq req conn, Ready readings.pending client.1 →
      (∀ fd ∈ s.conn.mPoll.fds.drop OFFSET, Ready readings.pending fd → fd = client.1) →
      s.conn.receive readings tReq = .ok (req, conn) →
      req.mSocket = client.1 ∧ req.mAddress = client.2

def ServesWelcomed (net : Inet) (a : State) : Event → State → Prop
  | .iteration i, b => (∀ accepted, acceptConnection net a i = .ok accepted → Served accepted) ∧
      Served b
  | .others _, b => Served b

def HasRoom (a : State) : Event → Prop
  | .iteration i => a.conn.Accepts i.incoming → i.welcomeSent = true →
      a.conn.mPoll.mPollIndex < maxConnections
  | .others _ => True

def FreshSocket (a : State) : Event → Prop
  | .iteration i => a.conn.Accepts i.incoming → i.incoming.socket ∉ a.conn.mSocket :: a.opened
  | .others _ => True

instance (a : State) : DecidablePred (HasRoom a)
  | .iteration i => inferInstanceAs (Decidable (a.conn.Accepts i.incoming → _ = _ → _ < _))
  | .others _ => isTrue trivial

instance (a : State) : DecidablePred (FreshSocket a)
  | .iteration i => inferInstanceAs (Decidable (a.conn.Accepts i.incoming → _ ∉ _))
  | .others _ => isTrue trivial

structure Tracks (sockets : List Int32) (s : State) : Prop where
  serves : Serves sockets s.opened s.conn
  welcomed : ∀ client ∈ s.welcomed, client.1 ∈ s.opened ∧
    s.conn.mAddresses client.1 = some client.2

def Covers (sockets : List Int32) (s : State) : Prop := ∀ client ∈ s.welcomed, client.1 ∈ sockets

section

variable {net : Inet} {pg : Engine} {s t : State} {i : Iteration} {sockets : List Int32}

theorem served_iff (h : Tracks sockets s) : Served s ↔ Covers sockets s := by
  have hslots : s.conn.mPoll.fds.drop OFFSET =
      Packed.slots (-1) sockets (maxConnections - 1 - sockets.length) :=
    congrArg (List.drop OFFSET) h.serves.packs.fds
  have hmem : ∀ fd, fd ∈ s.conn.mPoll.fds.drop OFFSET → 0 ≤ fd → fd ∈ sockets := by
    intro fd hfd hpos
    rw [hslots, Packed.slots, List.mem_append] at hfd
    rcases hfd with hfd | hfree
    · exact hfd
    · rw [List.eq_of_mem_replicate hfree] at hpos
      exact absurd hpos (by decide)
  constructor
  · intro hserved client hclient
    have hopen := (h.welcomed client hclient).1
    exact hmem client.1 (hserved client hclient).1 (h.serves.descriptors client.1 hopen)
  · intro hcovers client hclient
    have haddress := (h.welcomed client hclient).2
    have hslot : ∀ fd ∈ sockets, fd ∈ s.conn.mPoll.fds.drop OFFSET := by
      intro fd hfd
      rw [hslots]
      exact List.mem_append_left _ hfd
    refine ⟨hslot client.1 (hcovers client hclient), haddress, ?_⟩
    intro readings tReq req conn hready honly hreceive
    obtain ⟨-, hsocket, hat⟩ := receive_cases hreceive
    have hselected : req.mSocket = client.1 := by
      rw [hsocket, selectSocketWithEvents_fst h.serves.packs]
      cases hfind : sockets.find? fun fd => Ready readings.pending fd with
      | none =>
        have hnone := List.find?_eq_none.mp hfind client.1 (hcovers client hclient)
        exact absurd (decide_eq_true hready) hnone
      | some fd =>
        have hfd := List.mem_of_find?_eq_some hfind
        exact honly fd (hslot fd hfd) (by simpa using List.find?_some hfind)
    refine ⟨hselected, ?_⟩
    have hstored := hat (by rw [hselected]; exact hready.1)
    rw [hselected, haddress] at hstored
    exact (Option.some.inj hstored).symm

theorem respond_welcome {sent : Bool} {tReq : Request} (h : tReq.mValid = true) :
    respond sent (tReq.setData (textData (Reply.getMessage .r200))) =
      .ok { tReq.setData (textData (Reply.getMessage .r200)) with mValid := sent } := by
  have htext : TextIO.respond (tReq.setData (textData (Reply.getMessage .r200))) =
      .ok (true, str "0000000006200 OK") := rfl
  have hvalid : (tReq.setData (textData (Reply.getMessage .r200))).mValid = true := h
  rw [respond, if_pos hvalid, htext]
  rfl

theorem acceptConnection_of_not (h : ¬s.conn.Accepts i.incoming) :
    acceptConnection net s i = .ok { s with conn := s.conn.awaited i.incoming.pending } := by
  obtain ⟨req, haccept, hinvalid⟩ := PassiveConn.acceptConnection_of_not net h
  rw [acceptConnection, haccept]
  dsimp only
  rw [hinvalid, if_neg Bool.false_ne_true]

def newcomer (net : Inet) (incoming : AcceptOutcome) : Int32 × ByteString :=
  (incoming.socket, Connection.addressTostring net incoming.address)

theorem acceptConnection_of_accepts (h : s.conn.Accepts i.incoming) :
    acceptConnection net s i = .ok
      { s with
        conn := (s.conn.awaited i.incoming.pending).added i.incoming.socket
          (newcomer net i.incoming).2
        opened := s.opened ++ [i.incoming.socket]
        welcomed := if i.welcomeSent then s.welcomed ++ [newcomer net i.incoming]
          else s.welcomed } := by
  rw [acceptConnection, PassiveConn.acceptConnection_of_accepts h]
  dsimp only
  rw [if_pos rfl, respond_welcome rfl, ok_bind]
  cases i.welcomeSent with
  | true => rfl
  | false => rfl

theorem Tracks.awaited (h : Tracks sockets s) (pending : Pending) :
    Tracks sockets { s with conn := s.conn.awaited pending } :=
  ⟨h.serves.awaited pending, h.welcomed⟩

theorem Tracks.accepted (h : Tracks sockets s) (haccepts : s.conn.Accepts i.incoming)
    (hfresh : i.incoming.socket ∉ s.conn.mSocket :: s.opened) {accepted : State}
    (haccept : acceptConnection net s i = .ok accepted) :
    Tracks (track sockets (.addSocket i.incoming.socket)) accepted := by
  rw [acceptConnection_of_accepts haccepts] at haccept
  cases haccept
  have hpos : 0 ≤ i.incoming.socket := haccepts.2
  refine ⟨(h.serves.awaited i.incoming.pending).added ⟨hpos, hfresh⟩ _, ?_⟩
  have hold : ∀ client ∈ s.welcomed, client.1 ∈ s.opened ++ [i.incoming.socket] ∧
      ((s.conn.awaited i.incoming.pending).added i.incoming.socket
        (newcomer net i.incoming).2).mAddresses client.1 = some client.2 := by
    intro client hclient
    obtain ⟨hopen, haddress⟩ := h.welcomed client hclient
    have hne : client.1 ≠ i.incoming.socket := by
      intro hsame
      exact hfresh (List.mem_cons_of_mem _ (hsame ▸ hopen))
    exact ⟨List.mem_append_left _ hopen, (mAddresses_added_of_ne hne _).trans haddress⟩
  dsimp only
  split
  · intro client hclient
    rcases List.mem_append.mp hclient with hclient | hnew
    · exact hold client hclient
    · rw [List.mem_singleton.mp hnew]
      exact ⟨List.mem_append_right _ (List.mem_singleton_self _), mAddresses_added_self _ _ _⟩
  · exact hold

theorem covers_accepted_iff (h : Tracks sockets s) (hcovers : Covers sockets s)
    (haccepts : s.conn.Accepts i.incoming)
    (hfresh : i.incoming.socket ∉ s.conn.mSocket :: s.opened) {accepted : State}
    (haccept : acceptConnection net s i = .ok accepted) :
    Covers (track sockets (.addSocket i.incoming.socket)) accepted ↔
      (i.welcomeSent = true → s.conn.mPoll.mPollIndex < maxConnections) := by
  rw [acceptConnection_of_accepts haccepts] at haccept
  cases haccept
  have hle := h.serves.packs.length_le
  have hroom : s.conn.mPoll.mPollIndex < maxConnections ↔ sockets.length ≠ maxConnections - 1 := by
    rw [h.serves.packs.index]
    omega
  have hnew : i.incoming.socket ∉ sockets := by
    intro hmem
    exact hfresh (List.mem_cons_of_mem _ (h.serves.isOpen _ hmem))
  rw [hroom, Covers]
  dsimp only
  cases i.welcomeSent with
  | false =>
    refine iff_of_true ?_ (fun hsent => absurd hsent Bool.false_ne_true)
    intro client hclient
    exact mem_track_addSocket.mpr (Or.inl (hcovers client hclient))
  | true =>
    rw [if_pos rfl, List.forall_mem_append, List.forall_mem_singleton]
    constructor
    · rintro ⟨-, hlast⟩ -
      exact ((mem_track_addSocket.mp hlast).resolve_left hnew).2
    · intro hfree
      refine ⟨?_, mem_track_addSocket.mpr (Or.inr ⟨rfl, hfree rfl⟩)⟩
      intro client hclient
      exact mem_track_addSocket.mpr (Or.inl (hcovers client hclient))

theorem Tracks.disconnectClient (h : Tracks sockets s) (socket : Int32) :
    Tracks (track sockets (.removeSocket socket)) (s.disconnectClient socket) := by
  refine ⟨h.serves.disconnectClient socket, ?_⟩
  intro client hclient
  obtain ⟨hmem, hne⟩ := List.mem_filter.mp hclient
  obtain ⟨hopen, haddress⟩ := h.welcomed client hmem
  exact ⟨List.mem_filter.mpr ⟨hopen, hne⟩, haddress⟩

theorem Covers.disconnectClient (h : Covers sockets s) (socket : Int32) :
    Covers (track sockets (.removeSocket socket)) (s.disconnectClient socket) := by
  intro client hclient
  obtain ⟨hmem, hne⟩ := List.mem_filter.mp hclient
  exact List.mem_filter.mpr ⟨h client hmem, hne⟩

def KeepsCover (s t : State) : Prop :=
  ∀ sockets, Tracks sockets s → ∃ kept, Tracks kept t ∧ (Covers sockets s → Covers kept t)

theorem KeepsCover.trans {r : State} (hrs : KeepsCover r s) (hst : KeepsCover s t) :
    KeepsCover r t := by
  intro sockets h
  obtain ⟨first, hfirst, hcover⟩ := hrs sockets h
  obtain ⟨second, hsecond, hcover'⟩ := hst first hfirst
  exact ⟨second, hsecond, fun hr => hcover' (hcover hr)⟩

theorem keepsCover_disconnectClient (s : State) (socket : Int32) :
    KeepsCover s (s.disconnectClient socket) :=
  fun _ h => ⟨_, h.disconnectClient socket, fun hcovers => hcovers.disconnectClient socket⟩

theorem keepsCover_server (s : State) (server : Server) : KeepsCover s { s with server } :=
  fun sockets h => ⟨sockets, ⟨h.serves, h.welcomed⟩, id⟩

theorem keepsCover_serve (hserve : serve pg s i = .ok t) : KeepsCover s t := by
  obtain ⟨⟨req, conn⟩, hreceive, hserve⟩ := bind_eq_ok.mp hserve
  obtain ⟨⟨routed, server⟩, -, hserve⟩ := bind_eq_ok.mp hserve
  obtain ⟨answered, -, hserve⟩ := bind_eq_ok.mp hserve
  have hreceived : KeepsCover s { s with conn, server } := by
    intro sockets h
    obtain ⟨hserves, hsame⟩ := h.serves.receive hreceive
    refine ⟨sockets, ⟨hserves, ?_⟩, id⟩
    intro client hclient
    rw [hsame]
    exact h.welcomed client hclient
  have hrequest : KeepsCover s (disconnectClientOnRequest answered { s with conn, server }) := by
    rw [disconnectClientOnRequest]
    split
    · exact hreceived.trans (keepsCover_disconnectClient _ _)
    · exact hreceived
  obtain ⟨after, -, hresult⟩ := bind_eq_ok.mp hserve
  cases hresult
  have hexit := hrequest.trans (keepsCover_server _ after)
  split
  · exact hexit.trans (keepsCover_disconnectClient _ _)
  · exact hexit

def Good (s : State) : Prop := ∃ sockets, Tracks sockets s ∧ Covers sockets s

theorem Good.served (h : Good s) : Served s := by
  obtain ⟨sockets, htracks, hcovers⟩ := h
  exact (served_iff htracks).mpr hcovers

theorem Good.of_keepsCover (h : Good s) (hkeeps : KeepsCover s t) : Good t := by
  obtain ⟨sockets, htracks, hcovers⟩ := h
  obtain ⟨kept, hkept, hcover⟩ := hkeeps sockets htracks
  exact ⟨kept, hkept, hcover hcovers⟩

theorem accepted_cases (h : Good s) (hfresh : FreshSocket s (.iteration i)) {accepted : State}
    (haccept : acceptConnection net s i = .ok accepted) :
    (HasRoom s (.iteration i) ∧ Good accepted) ∨
      (¬HasRoom s (.iteration i) ∧ ¬Served accepted) := by
  obtain ⟨sockets, htracks, hcovers⟩ := h
  by_cases haccepts : s.conn.Accepts i.incoming
  · have haccepted := htracks.accepted haccepts (hfresh haccepts) haccept
    have hiff := covers_accepted_iff htracks hcovers haccepts (hfresh haccepts) haccept
    by_cases hroom : i.welcomeSent = true → s.conn.mPoll.mPollIndex < maxConnections
    · exact Or.inl ⟨fun _ => hroom, _, haccepted, hiff.mpr hroom⟩
    · refine Or.inr ⟨fun hall => hroom (hall haccepts), ?_⟩
      rw [served_iff haccepted, hiff]
      exact hroom
  · rw [acceptConnection_of_not haccepts] at haccept
    cases haccept
    exact Or.inl ⟨fun h => absurd h haccepts, sockets, htracks.awaited _, hcovers⟩

theorem servesWelcomed_iff {event : Event} (h : Good s) (hfresh : FreshSocket s event)
    (hstep : step net pg s event = .ok t) :
    (ServesWelcomed net s event t ↔ HasRoom s event) ∧ (HasRoom s event → Good t) := by
  cases event with
  | iteration i =>
    obtain ⟨accepted, haccept, hserve⟩ := bind_eq_ok.mp hstep
    have hkeeps := keepsCover_serve hserve
    rcases accepted_cases h hfresh haccept with ⟨hroom, hgood⟩ | ⟨hfull, hlost⟩
    · have hafter := hgood.of_keepsCover hkeeps
      refine ⟨iff_of_true ⟨?_, hafter.served⟩ hroom, fun _ => hafter⟩
      intro other hother
      rw [haccept] at hother
      cases hother
      exact hgood.served
    · refine ⟨iff_of_false ?_ hfull, fun hroom => absurd hroom hfull⟩
      rintro ⟨hall, -⟩
      exact hlost (hall accepted haccept)
  | others server =>
    cases hstep
    have hafter := h.of_keepsCover (keepsCover_server s server)
    exact ⟨iff_of_true hafter.served trivial, fun _ => hafter⟩

end

theorem good_start (memory : Fin maxConnections → PollFd) {mSocket : Int32} (h : 0 ≤ mSocket)
    (server : Server) : Good (State.start memory mSocket server) :=
  ⟨[], ⟨serves_listening memory h, List.forall_mem_nil _⟩, List.forall_mem_nil _⟩

/-- Over any run, the welcomed clients are served exactly if each of them found a slot. -/
theorem welcomed_served_iff (net : Inet) (pg : Engine) (memory : Fin maxConnections → PollFd)
    {mSocket : Int32} (hsocket : 0 ≤ mSocket) (server : Server) (events : List Event)
    (hfresh : Transition.AlwaysM (step net pg) (fun a event _ => FreshSocket a event)
      (State.start memory mSocket server) events) :
    Transition.AlwaysM (step net pg) (ServesWelcomed net) (State.start memory mSocket server)
        events ↔
      Transition.AlwaysM (step net pg) (fun a event _ => HasRoom a event)
        (State.start memory mSocket server) events := by
  apply Transition.alwaysM_congr_of_guard (good_start memory hsocket server) hfresh
  · intro a event b ha hguard hstep
    exact (servesWelcomed_iff ha hguard hstep).1
  · intro a event b ha hguard hstep hserves
    obtain ⟨hiff, hgood⟩ := servesWelcomed_iff ha hguard hstep
    exact hgood (hiff.mp hserves)

def oneHost : Inet := ⟨fun _ => 1, fun _ => str "10.0.0.1"⟩

def noMemory : Fin maxConnections → PollFd := fun _ => ⟨0, 0, 0⟩

def connects (socket : Int32) : Event :=
  .iteration ⟨⟨fun _ => PollFd.POLLIN, socket, ⟨1, 4000⟩⟩, true, ⟨fun _ => 0, [], false⟩,
    Router.sampleDraw, true⟩

def sends (socket : Int32) (text : ByteString) : Event :=
  .iteration ⟨⟨fun _ => 0, -1, ⟨1, 4000⟩⟩, true,
    ⟨fun fd => if fd = socket then PollFd.POLLIN else 0, [text], false⟩, Router.sampleDraw, true⟩

theorem welcomed_served_after_exit :
    Transition.AlwaysM (step oneHost Engine.basic) (ServesWelcomed oneHost)
      (State.start noMemory 3 Router.twoUsers)
      [connects 4, connects 5, sends 4 (str "0000000008EXIT abc"), connects 4] :=
  (welcomed_served_iff oneHost Engine.basic noMemory (by decide) Router.twoUsers _
    (by decide +kernel)).mpr (by decide +kernel)

def nineClients : List Event :=
  [connects 4, connects 5, connects 6, connects 7, connects 8, connects 9, connects 10,
    connects 11, connects 12]

/-- The tenth client is welcomed and has no slot. -/
theorem tenth_client_unserved :
    ¬Transition.AlwaysM (step oneHost Engine.basic) (ServesWelcomed oneHost)
      (State.start noMemory 3 Router.twoUsers) (nineClients ++ [connects 13]) := by
  intro h
  have hlast : (Transition.runM (step oneHost Engine.basic) (State.start noMemory 3 Router.twoUsers)
      nineClients >>= fun a => step oneHost Engine.basic a (connects 13)).map
      (fun b => (b.welcomed.map Prod.fst, b.conn.mPoll.fds.drop OFFSET)) =
        .ok ([4, 5, 6, 7, 8, 9, 10, 11, 12, 13], [4, 5, 6, 7, 8, 9, 10, 11, 12]) := by
    decide +kernel
  cases hrun : Transition.runM (step oneHost Engine.basic)
      (State.start noMemory 3 Router.twoUsers) nineClients with
  | error e =>
    rw [hrun] at hlast
    cases hlast
  | ok a =>
    rw [hrun, ok_bind] at hlast
    cases hstep : step oneHost Engine.basic a (connects 13) with
    | error e =>
      rw [hstep] at hlast
      cases hlast
    | ok b =>
      rw [hstep] at hlast
      obtain ⟨hwelcomed, hslots⟩ := Prod.mk.inj (Except.ok.inj hlast)
      have hserved : Served b := (h nineClients (connects 13) [] a b rfl hrun hstep).2
      have hmem : (13 : Int32) ∈ b.welcomed.map Prod.fst := by
        rw [hwelcomed]
        decide
      obtain ⟨client, hclient, hsocket⟩ := List.mem_map.mp hmem
      have hslot := (hserved client hclient).1
      rw [hsocket, hslots] at hslot
      exact absurd hslot (by decide)

end Skype.MainLoop
