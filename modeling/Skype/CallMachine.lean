import Skype.CallDirection

/-!
# Call signalling as one machine for each caller

What the five commands are for: a caller is idle, waits, or has been accepted by
the latest acceptor, and every command concerns the state of one caller. The
store of call requests represents the states of all callers, the stage of a
request being the emptiness of its peer address, and the controllers answer as
the machine does.
-/

namespace Skype.CallMachine

open Library CallControllers

/-- Where a client can be reached: the address its requests come from, which the
socket writes as `ip:port`, and the local address it announces. -/
structure Endpoint where
  address : ByteString
  localAddress : ByteString
  address_ne_nil : address ≠ []
  local_ne_nil : localAddress ≠ []
  short : address.length < 2 ^ 31

namespace Endpoint

def SameNetwork (a b : Endpoint) : Prop :=
  AwaitingUser.ipOf a.address = AwaitingUser.ipOf b.address

instance (a b : Endpoint) : Decidable (SameNetwork a b) := inferInstanceAs (Decidable (_ = _))

def seenFrom (a b : Endpoint) : ByteString :=
  if SameNetwork a b then a.localAddress ++ (str ":" ++ AwaitingUser.portOf a.address)
  else a.address

def network (a b : Endpoint) : ByteString := if SameNetwork a b then str "LOCAL" else str "WEB"

end Endpoint

inductive CallState
  | idle
  | waiting (caller : Endpoint)
  | accepted (caller acceptor : Endpoint)

inductive Call
  | connect (c : Int32) (caller : Endpoint)
  | accept (acceptor : Endpoint) (c : Int32)
  | ping (c : Int32)
  | hangup (c : Int32)
  | reject (c : Int32)

def Call.caller : Call → Int32
  | .connect c _ => c
  | .accept _ c => c
  | .ping c => c
  | .hangup c => c
  | .reject c => c

inductive Answer
  | ok
  | found (address network : ByteString)
  | awaiting
  | alreadyAwaiting
  | notFound

def Answer.text : Answer → ByteString
  | .ok => str "200 OK"
  | .found address network => str "201 " ++ (address ++ str " " ++ network)
  | .awaiting => str "203 Awaiting"
  | .alreadyAwaiting => str "306 Already awaiting. Please HANGUP before connecting"
  | .notFound => str "307 Connection requests not found for this user"

def respond (state : CallState) : Call → Answer × CallState
  | .connect _ caller =>
    match state with
    | .idle => (.ok, .waiting caller)
    | _ => (.alreadyAwaiting, state)
  | .accept acceptor _ =>
    match state with
    | .idle => (.notFound, .idle)
    | .waiting caller | .accepted caller _ =>
      (.found (caller.seenFrom acceptor) (caller.network acceptor), .accepted caller acceptor)
  | .ping _ =>
    match state with
    | .idle => (.notFound, .idle)
    | .waiting caller => (.awaiting, .waiting caller)
    | .accepted caller acceptor =>
      (.found (acceptor.seenFrom caller) (caller.network acceptor), .idle)
  | .hangup _ | .reject _ =>
    match state with
    | .idle => (.notFound, .idle)
    | _ => (.ok, .idle)

abbrev Machine := Int32 → CallState

def Machine.start : Machine := fun _ => .idle

def step (m : Machine) (call : Call) : Answer × Machine :=
  let (answer, state) := respond (m call.caller) call
  (answer, Function.update m call.caller state)

def runAll : Machine → List Call → List Answer × Machine
  | m, [] => ([], m)
  | m, call :: calls =>
    let (answer, m) := step m call
    let (answers, m) := runAll m calls
    (answer :: answers, m)

/-- A request of an authenticated user with well-formed arguments, and the command
of the machine that it stands for. -/
inductive Denotes : Incoming → Call → Prop
  | connect {db : Database} {tArg : ByteString} {tReq : Request} {c contactId : Int32}
      {caller : Endpoint} (hauth : Authenticated db tReq c)
      (hnames : Names tArg contactId caller.localAddress)
      (haddress : tReq.mAddress = caller.address) :
      Denotes ⟨db, .connect, tArg, tReq⟩ (.connect c caller)
  | accept {db : Database} {tArg : ByteString} {tReq : Request} {u c : Int32}
      {acceptor : Endpoint} (hauth : Authenticated db tReq u)
      (hnames : Names tArg c acceptor.localAddress)
      (haddress : tReq.mAddress = acceptor.address) :
      Denotes ⟨db, .accept, tArg, tReq⟩ (.accept acceptor c)
  | ping {db : Database} {tArg : ByteString} {tReq : Request} {c : Int32}
      (hauth : Authenticated db tReq c) : Denotes ⟨db, .ping, tArg, tReq⟩ (.ping c)
  | hangup {db : Database} {tArg : ByteString} {tReq : Request} {c : Int32}
      (hauth : Authenticated db tReq c) : Denotes ⟨db, .hangup, tArg, tReq⟩ (.hangup c)
  | reject {db : Database} {tArg : ByteString} {tReq : Request} {u c : Int32}
      {localAddress : ByteString} (hauth : Authenticated db tReq u)
      (hnames : Names tArg c localAddress) : Denotes ⟨db, .reject, tArg, tReq⟩ (.reject c)

def serveAll : List Incoming → AwaitingUsers → Exec (List (Option Data) × AwaitingUsers)
  | [], store => .ok ([], store)
  | i :: incoming, store => do
    let (req, store) ← handle i store
    let (replies, store) ← serveAll incoming store
    return (req.mData :: replies, store)

def record (c : Int32) : CallState → Option AwaitingUser
  | .idle => none
  | .waiting caller => some (.requested c caller.address caller.localAddress)
  | .accepted caller acceptor =>
    some ((AwaitingUser.requested c caller.address caller.localAddress).accepted
      acceptor.address acceptor.localAddress)

def Represents (store : AwaitingUsers) (m : Machine) : Prop :=
  ∀ c, store.mAwaitingUsers c = record c (m c)

section Step

variable {store : AwaitingUsers} {m : Machine} {db : Database} {tArg : ByteString}
  {tReq : Request}

/-- The request is answered as the machine answers, and the store behind it
represents the next state of the machine. -/
def Simulates (i : Incoming) (store : AwaitingUsers) (m : Machine) (call : Call) : Prop :=
  ∃ req after, handle i store = .ok (req, after) ∧
    req.mData = some (textData (step m call).1.text) ∧ Represents after (step m call).2

theorem represents_update {c : Int32} {state : CallState} {after : AwaitingUsers}
    (h : Represents store m)
    (hafter : after.mAwaitingUsers = Function.update store.mAwaitingUsers c (record c state)) :
    Represents after (Function.update m c state) := by
  intro d
  rw [hafter]
  by_cases hd : d = c
  · subst hd
    simp
  · rw [Function.update_of_ne hd, Function.update_of_ne hd]
    exact h d

theorem represents_same {c : Int32} (h : Represents store m) :
    Represents store (Function.update m c (m c)) := by
  rwa [Function.update_eq_self]

theorem exists'_eq (h : Represents store m) (c : Int32) :
    store.exists' c = (record c (m c)).isSome := by
  rw [AwaitingUsers.exists', h c]

theorem respond_connect {state : CallState} (hstate : state ≠ .idle) (c : Int32) (e : Endpoint) :
    respond state (.connect c e) = (.alreadyAwaiting, state) := by
  cases state with
  | idle => exact absurd rfl hstate
  | waiting caller => rfl
  | accepted caller acceptor => rfl

theorem record_isSome {state : CallState} (hstate : state ≠ .idle) (c : Int32) :
    (record c state).isSome = true := by
  cases state with
  | idle => exact absurd rfl hstate
  | waiting caller => rfl
  | accepted caller acceptor => rfl

theorem simulates_connect (h : Represents store m) {c contactId : Int32} {caller : Endpoint}
    (hauth : Authenticated db tReq c) (hnames : Names tArg contactId caller.localAddress)
    (haddress : tReq.mAddress = caller.address) :
    Simulates ⟨db, .connect, tArg, tReq⟩ store m (.connect c caller) := by
  have hconnect := connect_eq hauth hnames caller.local_ne_nil (haddress ▸ caller.short) store
  have hexists := exists'_eq h c
  refine ⟨_, _, hconnect, ?_⟩
  by_cases hm : m c = .idle
  · have hfree : store.exists' c = false := by rw [hexists, hm, record, Option.isSome_none]
    simp only [step, Call.caller, hm, respond, hfree]
    refine ⟨rfl, represents_update h ?_⟩
    rw [haddress]
    exact AwaitingUsers.mAwaitingUsers_insert store hfree
  · have htaken : store.exists' c = true := by rw [hexists, record_isSome hm]
    rw [AwaitingUsers.insert_of_exists' store htaken]
    simp only [step, Call.caller, respond_connect hm, htaken]
    exact ⟨rfl, represents_same h⟩

theorem Represents.short (h : Represents store m) {c : Int32} {user : AwaitingUser}
    (hu : store.mAwaitingUsers c = some user) : user.Short := by
  rw [h c] at hu
  cases hm : m c with
  | idle => simp [hm, record] at hu
  | waiting caller =>
    rw [hm] at hu
    rw [← Option.some.inj hu]
    exact ⟨caller.short, Nat.two_pow_pos 31⟩
  | accepted caller acceptor =>
    rw [hm] at hu
    rw [← Option.some.inj hu]
    exact ⟨caller.short, acceptor.short⟩

theorem seenFrom_ne_nil (a b : Endpoint) : a.seenFrom b ≠ [] := by
  rw [Endpoint.seenFrom]
  split
  · exact List.append_ne_nil_of_left_ne_nil a.local_ne_nil _
  · exact a.address_ne_nil

theorem network_accepted (c : Int32) (caller acceptor : Endpoint) :
    ((AwaitingUser.requested c caller.address caller.localAddress).accepted
        acceptor.address acceptor.localAddress).network = caller.network acceptor := by
  by_cases hsame : AwaitingUser.ipOf caller.address = AwaitingUser.ipOf acceptor.address
  · simp [AwaitingUser.network, AwaitingUser.sameNetwork, AwaitingUser.accepted,
      AwaitingUser.requested, Endpoint.network, Endpoint.SameNetwork, hsame, AwaitingUser.LOCAL]
  · simp [AwaitingUser.network, AwaitingUser.sameNetwork, AwaitingUser.accepted,
      AwaitingUser.requested, Endpoint.network, Endpoint.SameNetwork, hsame, AwaitingUser.WEB]

theorem seenAddress_accepted (c : Int32) (caller acceptor : Endpoint) :
    ((AwaitingUser.requested c caller.address caller.localAddress).accepted
        acceptor.address acceptor.localAddress).seenAddress = caller.seenFrom acceptor := by
  by_cases hsame : AwaitingUser.ipOf caller.address = AwaitingUser.ipOf acceptor.address
  · simp [AwaitingUser.seenAddress, AwaitingUser.sameNetwork, AwaitingUser.accepted,
      AwaitingUser.requested, Endpoint.seenFrom, Endpoint.SameNetwork, hsame]
  · simp [AwaitingUser.seenAddress, AwaitingUser.sameNetwork, AwaitingUser.accepted,
      AwaitingUser.requested, Endpoint.seenFrom, Endpoint.SameNetwork, hsame]

theorem accept_of_ne_idle {state : CallState} (hstate : state ≠ .idle) (c : Int32)
    (acceptor : Endpoint) :
    ∃ (caller : Endpoint) (user : AwaitingUser), record c state = some user ∧
      user.accepted acceptor.address acceptor.localAddress =
        (AwaitingUser.requested c caller.address caller.localAddress).accepted
          acceptor.address acceptor.localAddress ∧
      respond state (.accept acceptor c) =
        (.found (caller.seenFrom acceptor) (caller.network acceptor),
          .accepted caller acceptor) := by
  cases state with
  | idle => exact absurd rfl hstate
  | waiting caller => exact ⟨caller, _, rfl, rfl, rfl⟩
  | accepted caller old => exact ⟨caller, _, rfl, rfl, rfl⟩

theorem simulates_accept (h : Represents store m) {u c : Int32} {acceptor : Endpoint}
    (hauth : Authenticated db tReq u) (hnames : Names tArg c acceptor.localAddress)
    (haddress : tReq.mAddress = acceptor.address) :
    Simulates ⟨db, .accept, tArg, tReq⟩ store m (.accept acceptor c) := by
  have haccept := accept_eq hauth hnames acceptor.local_ne_nil store
  have hc := h c
  by_cases hm : m c = .idle
  · rw [hm, record] at hc
    simp only [hc] at haccept
    refine ⟨_, _, haccept, ?_⟩
    simp only [step, Call.caller, hm, respond]
    exact ⟨rfl, hm ▸ represents_same h⟩
  · obtain ⟨caller, user, hrecord, haccepted, hrespond⟩ := accept_of_ne_idle hm c acceptor
    rw [hrecord] at hc
    have hshort : tReq.mAddress.length < 2 ^ 31 := haddress ▸ acceptor.short
    have hanswer : acceptUser tReq acceptor.localAddress store user = _ :=
      acceptUser_eq hshort (h.short hc).address
    simp only [hc, hanswer, haddress, haccepted, seenAddress_accepted, network_accepted] at haccept
    refine ⟨_, _, haccept, ?_⟩
    simp only [step, Call.caller, hrespond]
    exact ⟨rfl, represents_update h (AwaitingUsers.mAwaitingUsers_put store _)⟩

theorem seenPeer_requested (c : Int32) (caller : Endpoint) :
    (AwaitingUser.requested c caller.address caller.localAddress).seenPeer = [] := by
  rw [AwaitingUser.seenPeer]
  -- A caller on the same network as the empty peer address sees the empty local one.
  split <;> rfl

theorem seenPeer_accepted (c : Int32) (caller acceptor : Endpoint) :
    ((AwaitingUser.requested c caller.address caller.localAddress).accepted
        acceptor.address acceptor.localAddress).seenPeer = acceptor.seenFrom caller := by
  by_cases hsame : AwaitingUser.ipOf caller.address = AwaitingUser.ipOf acceptor.address
  · simp [AwaitingUser.seenPeer, AwaitingUser.sameNetwork, AwaitingUser.accepted,
      AwaitingUser.requested, Endpoint.seenFrom, Endpoint.SameNetwork, hsame]
  · have hother : ¬ AwaitingUser.ipOf acceptor.address = AwaitingUser.ipOf caller.address :=
      fun h => hsame h.symm
    simp [AwaitingUser.seenPeer, AwaitingUser.sameNetwork, AwaitingUser.accepted,
      AwaitingUser.requested, Endpoint.seenFrom, Endpoint.SameNetwork, hsame, hother]

theorem simulates_ping (h : Represents store m) {c : Int32} (hauth : Authenticated db tReq c) :
    Simulates ⟨db, .ping, tArg, tReq⟩ store m (.ping c) := by
  have hping := ping_eq hauth store
  have hc := h c
  cases hm : m c with
  | idle =>
    rw [hm, record] at hc
    simp only [hc] at hping
    refine ⟨_, _, congrArg Except.ok hping, ?_⟩
    simp only [step, Call.caller, hm, respond]
    exact ⟨rfl, hm ▸ represents_same h⟩
  | waiting caller =>
    rw [hm, record] at hc
    have hanswer : pingUser tReq (store.ping c) _ = _ := pingUser_eq (h.short hc)
    rw [if_pos (seenPeer_requested c caller)] at hanswer
    simp only [hc, AwaitingUser.requested_mId, hanswer] at hping
    refine ⟨_, _, congrArg Except.ok hping, ?_⟩
    simp only [step, Call.caller, hm, respond]
    refine ⟨rfl, ?_⟩
    have hsame : Represents store (Function.update m c (.waiting caller)) :=
      hm ▸ represents_same h
    exact hsame
  | accepted caller acceptor =>
    rw [hm, record] at hc
    have hanswer : pingUser tReq (store.ping c) _ = _ := pingUser_eq (h.short hc)
    rw [seenPeer_accepted, if_neg (seenFrom_ne_nil acceptor caller)] at hanswer
    have hid : ((AwaitingUser.requested c caller.address caller.localAddress).accepted
      acceptor.address acceptor.localAddress).mId = c := rfl
    simp only [hc, hid, hanswer] at hping
    refine ⟨_, _, congrArg Except.ok hping, ?_⟩
    simp only [step, Call.caller, hm, respond]
    refine ⟨by rw [network_accepted]; rfl, represents_update h ?_⟩
    exact AwaitingUsers.mAwaitingUsers_destroy (store.ping c) c

theorem respond_hangup (state : CallState) (c : Int32) :
    respond state (.hangup c) = (if (record c state).isSome then .ok else .notFound, .idle) := by
  cases state <;> rfl

theorem respond_reject (state : CallState) (c : Int32) :
    respond state (.reject c) = (if (record c state).isSome then .ok else .notFound, .idle) := by
  cases state <;> rfl

theorem simulates_destroy (h : Represents store m) {i : Incoming} {call : Call}
    (hrespond : respond (m call.caller) call =
      (if (record call.caller (m call.caller)).isSome then .ok else .notFound, .idle))
    (hhandle : handle i store = .ok (destroyReply tReq store call.caller)) :
    Simulates i store m call := by
  rw [← exists'_eq h] at hrespond
  simp only [destroyReply, AwaitingUsers.destroy_fst] at hhandle
  refine ⟨_, _, hhandle, ?_, ?_⟩
  · simp only [step, hrespond]
    cases store.exists' call.caller <;> rfl
  · simp only [step, hrespond]
    exact represents_update h (AwaitingUsers.mAwaitingUsers_destroy store call.caller)

end Step

theorem simulates_of_denotes {i : Incoming} {call : Call} (hdenotes : Denotes i call)
    {store : AwaitingUsers} {m : Machine} (h : Represents store m) :
    Simulates i store m call := by
  cases hdenotes with
  | connect hauth hnames haddress => exact simulates_connect h hauth hnames haddress
  | accept hauth hnames haddress => exact simulates_accept h hauth hnames haddress
  | ping hauth => exact simulates_ping h hauth
  | hangup hauth =>
    exact simulates_destroy h (respond_hangup _ _) (congrArg Except.ok (hangup_eq hauth store))
  | reject hauth hnames =>
    exact simulates_destroy h (respond_reject _ _) (reject_eq hauth hnames store)

def replyTo (answer : Answer) : Option Data := some (textData answer.text)

theorem serveAll_simulates {incoming : List Incoming} {calls : List Call}
    (hdenotes : List.Forall₂ Denotes incoming calls) {store : AwaitingUsers} {m : Machine}
    (h : Represents store m) :
    ∃ after, serveAll incoming store = .ok ((runAll m calls).1.map replyTo, after) ∧
      Represents after (runAll m calls).2 := by
  induction hdenotes generalizing store m with
  | nil => exact ⟨store, rfl, h⟩
  | cons hfirst hrest ih =>
    obtain ⟨req, middle, hhandle, hreply, hmiddle⟩ := simulates_of_denotes hfirst h
    obtain ⟨after, hserve, hafter⟩ := ih hmiddle
    refine ⟨after, ?_, hafter⟩
    simp only [serveAll, hhandle, ok_bind, hserve, hreply]
    rfl

theorem represents_start : Represents AwaitingUsers.empty Machine.start := fun _ => rfl

theorem frame_of_simulates {i : Incoming} {call : Call} {store : AwaitingUsers} {m : Machine}
    (h : Represents store m) (hsimulates : Simulates i store m call) :
    ∃ req after, handle i store = .ok (req, after) ∧
      ∀ d, d ≠ call.caller → after.mAwaitingUsers d = store.mAwaitingUsers d := by
  obtain ⟨req, after, hhandle, -, hafter⟩ := hsimulates
  refine ⟨req, after, hhandle, ?_⟩
  intro d hd
  have hstate : (step m call).2 d = m d := Function.update_of_ne hd _ _
  rw [hafter d, hstate, h d]

/-- Requests handled from the empty store are answered as the machine answers, the
store behind them represents the state of the machine, and one more request concerns
its caller only. -/
theorem serveAll_refines {incoming : List Incoming} {calls : List Call}
    (hdenotes : List.Forall₂ Denotes incoming calls) :
    ∃ store, serveAll incoming AwaitingUsers.empty =
        .ok ((runAll Machine.start calls).1.map replyTo, store) ∧
      Represents store (runAll Machine.start calls).2 ∧
      ∀ i call, Denotes i call → ∃ req after, handle i store = .ok (req, after) ∧
        ∀ d, d ≠ call.caller → after.mAwaitingUsers d = store.mAwaitingUsers d := by
  obtain ⟨store, hserve, hstore⟩ := serveAll_simulates hdenotes represents_start
  refine ⟨store, hserve, hstore, ?_⟩
  intro i call hnext
  exact frame_of_simulates hstore (simulates_of_denotes hnext hstore)

def john : Endpoint := ⟨str "1.2.3.4:5000", str "192.168.0.14", by decide, by decide, by decide⟩

def mario : Endpoint := ⟨str "5.6.7.8:6000", str "192.168.0.9", by decide, by decide, by decide⟩

theorem serveAll_refines_call :
    ∃ store, serveAll
          [⟨setupDb, .connect, str "2 192.168.0.14", requestFrom "token-1" "1.2.3.4:5000"⟩,
            ⟨setupDb, .accept, str "1 192.168.0.9", requestFrom "token-2" "5.6.7.8:6000"⟩,
            ⟨setupDb, .ping, [], requestFrom "token-1" "1.2.3.4:5000"⟩] AwaitingUsers.empty =
        .ok ((runAll Machine.start [.connect 1 john, .accept mario 1, .ping 1]).1.map replyTo,
          store) ∧
      Represents store (runAll Machine.start [.connect 1 john, .accept mario 1, .ping 1]).2 ∧
      ∀ i call, Denotes i call → ∃ req after, handle i store = .ok (req, after) ∧
        ∀ d, d ≠ call.caller → after.mAwaitingUsers d = store.mAwaitingUsers d := by
  have hjohn : Authenticated setupDb (requestFrom "token-1" "1.2.3.4:5000") 1 :=
    ⟨by decide, by decide⟩
  have hmario : Authenticated setupDb (requestFrom "token-2" "5.6.7.8:6000") 2 :=
    ⟨by decide, by decide⟩
  have hconnect : Names (str "2 192.168.0.14") 2 john.localAddress :=
    ⟨str "2", by decide, by decide⟩
  have haccept : Names (str "1 192.168.0.9") 1 mario.localAddress :=
    ⟨str "1", by decide, by decide⟩
  apply serveAll_refines
  refine .cons (.connect hjohn hconnect rfl) (.cons (.accept hmario haccept rfl) ?_)
  exact .cons (.ping hjohn) .nil

end Skype.CallMachine
