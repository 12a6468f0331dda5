import Skype.CallRequests
import Skype.TimeoutWorker

/-!
# Who a call request is for

`Calls` is the store together with the contact that each outstanding `CONNECT`
named, which the store does not keep: the constructor records the caller as its
own peer. So `LIST` shows a caller to every user that has it as a contact, and
`ACCEPT` and `REJECT` of any user act on its request.
-/

namespace Skype.CallControllers

open Library ControllerUtils Postgres

inductive Command
  | connect
  | accept
  | hangup
  | reject
  | ping
  deriving DecidableEq

structure Incoming where
  db : Database
  command : Command
  tArg : ByteString
  tReq : Request

def handle (i : Incoming) (awaiting : AwaitingUsers) : Exec (Request × AwaitingUsers) :=
  match i.command with
  | .connect => connect i.db i.tArg i.tReq awaiting
  | .accept => accept i.db i.tArg i.tReq awaiting
  | .hangup => .ok (hangup i.db i.tReq awaiting)
  | .reject => reject i.db i.tArg i.tReq awaiting
  | .ping => .ok (ping i.db i.tReq awaiting)

inductive Event
  | request (i : Incoming)
  | pass

structure Calls where
  store : AwaitingUsers
  callee : Int32 → Option Int32

namespace Calls

def start : Calls := ⟨AwaitingUsers.empty, fun _ => none⟩

def named (tArg : ByteString) : Int32 :=
  match StringUtils.splitFirst tArg (str " ") with
  | .ok (idStr, _) => (StringUtils.toInt idStr).2
  | .error _ => -1

def next (s : Calls) : Event → Exec Calls
  | .pass =>
    let store := s.store.timeoutPass
    .ok ⟨store, fun c => if store.exists' c then s.callee c else none⟩
  | .request i =>
    match handle i s.store with
    | .error e => .error e
    | .ok (_, store) =>
      .ok ⟨store, fun c =>
        if store.exists' c then
          if s.store.exists' c then s.callee c else some (named i.tArg)
        else none⟩

def Tracked (s : Calls) : Prop := ∀ c, (s.callee c).isSome = s.store.exists' c

theorem tracked_next {s t : Calls} {event : Event} (h : Tracked s) (hnext : s.next event = .ok t) :
    Tracked t := by
  intro c
  cases event with
  | pass =>
    obtain rfl := Except.ok.inj hnext
    dsimp only
    by_cases hc : s.store.timeoutPass.exists' c = true
    · obtain ⟨user, hu⟩ := Option.isSome_iff_exists.mp hc
      have hold : s.store.exists' c = true := by
        rw [AwaitingUsers.exists', AwaitingUsers.mAwaitingUsers_of_timeoutPass hu]
        rfl
      rw [if_pos hc, h c, hold, hc]
    · rw [if_neg hc]
      simpa using hc
  | request i =>
    simp only [next] at hnext
    split at hnext
    · simp at hnext
    · next req store hhandle =>
      obtain rfl := Except.ok.inj hnext
      dsimp only
      by_cases hc : store.exists' c = true
      · by_cases hold : s.store.exists' c = true
        · rw [if_pos hc, if_pos hold, h c, hold, hc]
        · rw [if_pos hc, if_neg hold, hc]
          rfl
      · rw [if_neg hc]
        simpa using hc

theorem tracked_run {events : List Event} {s : Calls}
    (hrun : Transition.runM next start events = .ok s) : Tracked s := by
  have hstep : ∀ a e b, Tracked a → True → next a e = .ok b → Tracked b :=
    fun a e b ha _ hb => tracked_next ha hb
  exact Transition.invariant_runM hstep (fun _ => rfl) (fun _ _ => trivial) hrun

end Calls

def directedReply (s : Calls) (u : Int32) (contacts : List User) (tReq : Request) : Exec Request :=
  UserControllers.listContacts (fun c => decide (s.callee c = some u)) contacts tReq

/-- In every reachable state and for every database: `LIST` marks exactly the
contacts that call the user if and only if no contact of the user calls somebody
else. -/
theorem list_directed_iff {events : List Event} {s : Calls}
    (hrun : Transition.runM Calls.next Calls.start events = .ok s) {db : Database}
    {tReq : Request} {u : Int32} (hauth : Authenticated db tReq u) {contacts : List User}
    (hcontacts : listUserContacts db (searchUserByToken db tReq.mToken) = .ok contacts) :
    UserControllers.list db tReq s.store = directedReply s u contacts tReq ↔
      ∀ contact ∈ contacts, ∀ other, s.callee contact.mId = some other → other = u := by
  have htracked := Calls.tracked_run hrun
  have hlist : UserControllers.list db tReq s.store =
      UserControllers.listContacts (callAwaits s.store) contacts tReq := by
    rw [UserControllers.list, hauth.1, hcontacts]
    rfl
  rw [hlist, directedReply, UserControllers.listContacts_eq_iff]
  have hflag : ∀ c, callAwaits s.store c = decide (s.callee c = some u) ↔
      ∀ other, s.callee c = some other → other = u := by
    intro c
    rw [callAwaits, ← htracked c]
    cases s.callee c with
    | none => simp
    | some callee => simp [eq_comm]
  exact forall₂_congr fun contact _ => hflag contact.mId

def setupDb : Database where
  users := [⟨1, str "john", str "1234", false, none⟩, ⟨2, str "mario", str "1234", false, none⟩,
    ⟨3, str "shakira", str "1234", false, none⟩]
  tokens := [⟨1, str "token-1"⟩, ⟨2, str "token-2"⟩, ⟨3, str "token-3"⟩]
  contacts := [⟨some 1, some 2⟩, ⟨some 1, some 3⟩, ⟨some 3, some 1⟩, ⟨some 3, some 2⟩,
    ⟨some 2, some 1⟩]

def requestFrom (token address : String) : Request :=
  { Request.new (str address) true with mToken := str token }

def johnCallsMario : Event :=
  .request ⟨setupDb, .connect, str "2 192.168.0.14", requestFrom "token-1" "1.2.3.4:5000"⟩

theorem list_directed_callee :
    ∃ s contacts, Transition.runM Calls.next Calls.start [johnCallsMario] = .ok s ∧
      listUserContacts setupDb (searchUserByToken setupDb (str "token-2")) = .ok contacts ∧
      (UserControllers.list setupDb (requestFrom "token-2" "5.6.7.8:5000") s.store =
          directedReply s 2 contacts (requestFrom "token-2" "5.6.7.8:5000") ↔
        ∀ contact ∈ contacts, ∀ other, s.callee contact.mId = some other → other = 2) := by
  have hcontacts : listUserContacts setupDb (searchUserByToken setupDb (str "token-2")) =
      .ok [⟨1, str "john", [], false, [], false⟩] := by decide
  have hauth : Authenticated setupDb (requestFrom "token-2" "5.6.7.8:5000") 2 :=
    ⟨by decide, by decide⟩
  have hrun : Transition.runM Calls.next Calls.start [johnCallsMario] = .ok _ := rfl
  exact ⟨_, _, hrun, hcontacts, list_directed_iff hrun hauth hcontacts⟩

/-- User 3 is told that user 1 is calling, but the call is for user 2. -/
theorem list_undirected :
    ∃ s contacts, Transition.runM Calls.next Calls.start [johnCallsMario] = .ok s ∧
      s.callee 1 = some 2 ∧
      listUserContacts setupDb (searchUserByToken setupDb (str "token-3")) = .ok contacts ∧
      (UserControllers.list setupDb (requestFrom "token-3" "9.9.9.9:6000") s.store).map
          Request.mData = .ok (some (textData (str
            "201 id:1,username:john,online:false,awaiting:true " ++ str
            "id:2,username:mario,online:false,awaiting:false"))) ∧
      (directedReply s 3 contacts (requestFrom "token-3" "9.9.9.9:6000")).map
          Request.mData = .ok (some (textData (str
            "201 id:1,username:john,online:false,awaiting:false " ++ str
            "id:2,username:mario,online:false,awaiting:false"))) := by
  have hcontacts : listUserContacts setupDb (searchUserByToken setupDb (str "token-3")) =
      .ok [⟨1, str "john", [], false, [], false⟩, ⟨2, str "mario", [], false, [], false⟩] := by
    decide
  refine ⟨_, _, rfl, ?_, hcontacts, ?_, ?_⟩
  · decide
  · decide
  · decide

def ShortStore (store : AwaitingUsers) : Prop :=
  ∀ id user, store.mAwaitingUsers id = some user → user.Short

def Event.Short : Event → Prop
  | .request i => i.tReq.mAddress.length < 2 ^ 31
  | .pass => True

theorem leaves_handle {i : Incoming} {before after : AwaitingUsers} {req : Request}
    (h : handle i before = .ok (req, after)) : Leaves i.tReq.mAddress before after := by
  obtain ⟨db, command, tArg, tReq⟩ := i
  cases command with
  | connect => exact leaves_connect h
  | accept => exact leaves_accept h
  | reject => exact leaves_reject h
  | hangup =>
    have hafter : (hangup db tReq before).2 = after := congrArg Prod.snd (Except.ok.inj h)
    rw [← hafter]
    exact leaves_hangup
  | ping =>
    have hafter : (ping db tReq before).2 = after := congrArg Prod.snd (Except.ok.inj h)
    rw [← hafter]
    exact leaves_ping

theorem shortStore_of_leaves {address : ByteString} {before after : AwaitingUsers}
    (h : ShortStore before) (haddress : address.length < 2 ^ 31)
    (hleaves : Leaves address before after) : ShortStore after := by
  intro id user hu
  rcases hleaves id user hu with hold | ⟨hself, hpeer⟩ | ⟨old, hold, hself, hpeer⟩
  · exact h id user hold
  · exact ⟨by rw [hself]; exact haddress, by rw [hpeer]; exact Nat.two_pow_pos 31⟩
  · exact ⟨by rw [hself]; exact (h id old hold).address, by rw [hpeer]; exact haddress⟩

def Calls.Short (s : Calls) : Prop := ShortStore s.store

theorem short_next {s t : Calls} {event : Event} (h : s.Short) (hshort : event.Short)
    (hnext : s.next event = .ok t) : t.Short := by
  cases event with
  | pass =>
    rw [← Except.ok.inj hnext]
    intro id user hu
    exact h id user (AwaitingUsers.mAwaitingUsers_of_timeoutPass hu)
  | request i =>
    simp only [Calls.next] at hnext
    split at hnext
    · simp at hnext
    · next req store hhandle =>
      rw [← Except.ok.inj hnext]
      exact shortStore_of_leaves h hshort (leaves_handle hhandle)

theorem short_run {events : List Event} {s : Calls} (hshort : ∀ e ∈ events, e.Short)
    (hrun : Transition.runM Calls.next Calls.start events = .ok s) : s.Short := by
  have hstart : Calls.start.Short := by
    intro id user hu
    simp [Calls.start, AwaitingUsers.empty] at hu
  have hstep : ∀ (a : Calls) (e : Event) (b : Calls), a.Short → e.Short → a.next e = .ok b →
      b.Short := fun a e b ha he hb => short_next ha he hb
  exact Transition.invariant_runM hstep hstart hshort hrun

/-- The request of `c` named `u`, or nothing happened to the requests and the reply
is 307. -/
def Guarded (s : Calls) (u c : Int32) (req : Request) (after : AwaitingUsers) : Prop :=
  s.callee c = some u ∨
    (after.mAwaitingUsers = s.store.mAwaitingUsers ∧ replyOf req .r307)

def ActsOn (command : Command) (localAddress : ByteString) : Prop :=
  command = .accept ∧ localAddress ≠ [] ∨ command = .reject

theorem not_replyOf_r201 (tReq : Request) (text : ByteString) :
    ¬ replyOf (tReq.setData (textData (str "201 " ++ text))) .r307 := by
  intro h
  have hbytes : str "201 " ++ text = Reply.getMessage .r307 := by
    simpa [replyOf, Request.setData, textData] using h
  have hhead := congrArg (List.drop 1) hbytes
  have hreply : (Reply.getMessage .r307).drop 1 = 48 :: (Reply.getMessage .r307).drop 2 := by decide
  rw [hreply] at hhead
  have hsecond := congrArg (List.drop 1) hhead
  simp [str, Reply.getMessage, Reply.replies] at hsecond

theorem not_replyOf_r200 (tReq : Request) : ¬ replyOf (setRequestReply .r200 tReq) .r307 := by
  intro h
  have hcode : Reply.getMessage .r200 = Reply.getMessage .r307 := by
    simpa [replyOf, setRequestReply, Request.setData, textData] using h
  exact absurd (Reply.getMessage_injective hcode) (by decide)

theorem replyOf_setRequestReply (tReq : Request) (code : Reply.Code) :
    replyOf (setRequestReply code tReq) code := rfl

section

variable {s : Calls} {db : Database} {tReq : Request} {tArg localAddress : ByteString}
  {u c : Int32} {command : Command}

theorem handle_of_idle (hauth : Authenticated db tReq u) (hnames : Names tArg c localAddress)
    (hacts : ActsOn command localAddress) (hnone : s.store.mAwaitingUsers c = none) :
    handle ⟨db, command, tArg, tReq⟩ s.store = .ok (setRequestReply .r307 tReq, s.store) := by
  rcases hacts with ⟨rfl, hlocal⟩ | rfl
  · rw [handle, accept_eq hauth hnames hlocal s.store, hnone]
  · rw [handle, reject_eq hauth hnames s.store, destroyReply]
    simp only [AwaitingUsers.destroy, hnone, Bool.false_eq_true, if_false]

theorem handle_of_waiting (hauth : Authenticated db tReq u) (hnames : Names tArg c localAddress)
    (hacts : ActsOn command localAddress) (hshort : tReq.mAddress.length < 2 ^ 31)
    {user : AwaitingUser} (huser : s.store.mAwaitingUsers c = some user) (hu : user.Short) :
    ∃ req after, handle ⟨db, command, tArg, tReq⟩ s.store = .ok (req, after) ∧
      ¬ replyOf req .r307 := by
  rcases hacts with ⟨rfl, hlocal⟩ | rfl
  · have haccept := accept_eq hauth hnames hlocal s.store
    simp only [huser, acceptUser_eq hshort hu.address] at haccept
    exact ⟨_, _, haccept, not_replyOf_r201 tReq _⟩
  · have hreject := reject_eq hauth hnames s.store
    simp only [destroyReply, AwaitingUsers.destroy, huser, if_true] at hreject
    exact ⟨_, _, hreject, not_replyOf_r200 tReq⟩

end

/-- In every reachable state: an `ACCEPT` or `REJECT` by `u` naming `c` is guarded if
and only if `c` has no request or its request named `u`. -/
theorem acts_guarded_iff {events : List Event} {s : Calls} (hevents : ∀ e ∈ events, e.Short)
    (hrun : Transition.runM Calls.next Calls.start events = .ok s) {db : Database} {tReq : Request}
    {tArg localAddress : ByteString} {u c : Int32} {command : Command}
    (hauth : Authenticated db tReq u) (hnames : Names tArg c localAddress)
    (hacts : ActsOn command localAddress) (hshort : tReq.mAddress.length < 2 ^ 31) :
    ∃ req after, handle ⟨db, command, tArg, tReq⟩ s.store = .ok (req, after) ∧
      (Guarded s u c req after ↔ ∀ other, s.callee c = some other → other = u) := by
  have htracked := Calls.tracked_run hrun c
  cases hc : s.store.mAwaitingUsers c with
  | none =>
    have hcallee : s.callee c = none := by
      rw [AwaitingUsers.exists', hc] at htracked
      simpa using htracked
    refine ⟨_, _, handle_of_idle hauth hnames hacts hc, ?_⟩
    refine iff_of_true (Or.inr ⟨rfl, replyOf_setRequestReply tReq .r307⟩) ?_
    intro other hother
    simp [hcallee] at hother
  | some user =>
    obtain ⟨callee, hcallee⟩ : ∃ callee, s.callee c = some callee := by
      rw [AwaitingUsers.exists', hc] at htracked
      exact Option.isSome_iff_exists.mp htracked
    obtain ⟨req, after, hhandle, hreply⟩ := handle_of_waiting hauth hnames hacts hshort hc
      (short_run hevents hrun c user hc)
    refine ⟨req, after, hhandle, ?_⟩
    rw [Guarded, hcallee]
    constructor
    · rintro (hu | ⟨-, h307⟩)
      · intro other hother
        rw [hu] at hother
        exact (Option.some.inj hother).symm
      · exact absurd h307 hreply
    · intro hall
      exact Or.inl (by rw [hall callee rfl])

theorem acts_guarded_callee :
    ∃ s, Transition.runM Calls.next Calls.start [johnCallsMario] = .ok s ∧
      ∃ req after, handle ⟨setupDb, .reject, str "1",
          requestFrom "token-2" "5.6.7.8:5000"⟩ s.store = .ok (req, after) ∧
        (Guarded s 2 1 req after ↔ ∀ other, s.callee 1 = some other → other = 2) := by
  have hevents : ∀ e ∈ [johnCallsMario], e.Short := by
    intro e he
    rw [List.mem_singleton.mp he]
    exact (by decide : (str "1.2.3.4:5000").length < 2 ^ 31)
  have hauth : Authenticated setupDb (requestFrom "token-2" "5.6.7.8:5000") 2 :=
    ⟨by decide, by decide⟩
  have hnames : Names (str "1") 1 [] := ⟨str "1", by decide, by decide⟩
  have hrun : Transition.runM Calls.next Calls.start [johnCallsMario] = .ok _ := rfl
  exact ⟨_, hrun, acts_guarded_iff hevents hrun hauth hnames (Or.inr rfl) (by decide)⟩

theorem exists_of_reply {result : Exec (Request × AwaitingUsers)} {data : Option Data}
    (h : result.map (fun answer => answer.1.mData) = .ok data) :
    ∃ req after, result = .ok (req, after) ∧ req.mData = data := by
  cases result with
  | error e => simp [Except.map] at h
  | ok answer => exact ⟨answer.1, answer.2, rfl, Except.ok.inj h⟩

/-- User 3 accepts the call that is for user 2 and learns the address of the
caller, or rejects it. -/
theorem acts_unguarded :
    ∃ s, Transition.runM Calls.next Calls.start [johnCallsMario] = .ok s ∧
      s.callee 1 = some 2 ∧
      (∃ req after, handle ⟨setupDb, .accept, str "1 192.168.0.9",
          requestFrom "token-3" "9.9.9.9:6000"⟩ s.store = .ok (req, after) ∧
        req.mData = some (textData (str "201 1.2.3.4:5000 WEB")) ∧ ¬ Guarded s 3 1 req after) ∧
      ∃ req after, handle ⟨setupDb, .reject, str "1",
          requestFrom "token-3" "9.9.9.9:6000"⟩ s.store = .ok (req, after) ∧
        req.mData = some (textData (str "200 OK")) ∧ ¬ Guarded s 3 1 req after := by
  have hcalled : (Transition.runM Calls.next Calls.start [johnCallsMario]).map
      (fun s => s.callee 1) = .ok (some 2) := by decide
  have haccepted : ((Transition.runM Calls.next Calls.start [johnCallsMario]) >>= fun s =>
      (handle ⟨setupDb, .accept, str "1 192.168.0.9", requestFrom "token-3" "9.9.9.9:6000"⟩
        s.store).map fun answer => answer.1.mData) =
      .ok (some (textData (str "201 1.2.3.4:5000 WEB"))) := by decide
  have hrejected : ((Transition.runM Calls.next Calls.start [johnCallsMario]) >>= fun s =>
      (handle ⟨setupDb, .reject, str "1", requestFrom "token-3" "9.9.9.9:6000"⟩
        s.store).map fun answer => answer.1.mData) = .ok (some (textData (str "200 OK"))) := by
    decide
  obtain ⟨s, hs⟩ : ∃ s, Transition.runM Calls.next Calls.start [johnCallsMario] = .ok s :=
    ⟨_, rfl⟩
  rw [hs] at hcalled
  rw [hs, ok_bind] at haccepted hrejected
  have hcallee : s.callee 1 = some 2 := Except.ok.inj hcalled
  have hguard : ∀ req after, ¬ replyOf req .r307 → ¬ Guarded s 3 1 req after := by
    rintro req after hreply (h | ⟨-, h⟩)
    · rw [hcallee] at h
      exact absurd h (by decide)
    · exact hreply h
  obtain ⟨req, after, hhandle, hdata⟩ := exists_of_reply haccepted
  obtain ⟨req', after', hhandle', hdata'⟩ := exists_of_reply hrejected
  refine ⟨s, hs, hcallee, ⟨req, after, hhandle, hdata, hguard req after ?_⟩,
    ⟨req', after', hhandle', hdata', hguard req' after' ?_⟩⟩
  · rw [replyOf, hdata]
    decide
  · rw [replyOf, hdata']
    decide

end Skype.CallControllers
