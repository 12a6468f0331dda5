import Skype.UserControllers
import Skype.Library.Transition

/-!
# What the call controllers do to the requests

One lemma for each controller on an authenticated request with well-formed
arguments, and one that sums up what any request can do to the store: a request
that appears carries the address of the client, and an accepted one the address
of the acceptor.
-/

namespace Skype.CallControllers

open ControllerUtils Postgres

def Names (tArg : ByteString) (c : Int32) (localAddress : ByteString) : Prop :=
  ∃ idStr, StringUtils.splitFirst tArg (str " ") = .ok (idStr, localAddress) ∧
    StringUtils.toInt idStr = (true, c)

def Authenticated (db : Database) (tReq : Request) (u : Int32) : Prop :=
  (searchUserByToken db tReq.mToken).mEmpty = false ∧
    (searchUserByToken db tReq.mToken).mId = u

def replyOf (tReq : Request) (tReply : Reply.Code) : Prop :=
  tReq.mData = some (textData (Reply.getMessage tReply))

section

variable {db : Database} {tReq : Request} {tArg : ByteString} {u c : Int32}
  {localAddress : ByteString} {awaiting : AwaitingUsers}

theorem validate_of_names {user : User} (hauth : user.mEmpty = false)
    (h : Names tArg c localAddress) :
    validateUserAndArgument tArg tReq user = .ok (tReq, ⟨true, c, localAddress⟩) := by
  obtain ⟨idStr, hsplit, hint⟩ := h
  simp [validateUserAndArgument, hauth, hsplit, hint]

theorem validateLocalAddress_of_ne_nil (h : localAddress ≠ []) :
    validateLocalAddress localAddress tReq = (tReq, true) := if_neg h

theorem connect_eq (hauth : Authenticated db tReq u) (hnames : Names tArg c localAddress)
    (hlocal : localAddress ≠ []) (hshort : tReq.mAddress.length < 2 ^ 31)
    (awaiting : AwaitingUsers) :
    connect db tArg tReq awaiting =
      .ok (setRequestReply (if awaiting.exists' u then .r306 else .r200) tReq,
        (awaiting.insert (.requested u tReq.mAddress localAddress)).2) := by
  obtain ⟨hempty, rfl⟩ := hauth
  rw [connect, validate_of_names hempty hnames]
  simp only [ok_bind, if_true, validateLocalAddress_of_ne_nil hlocal,
    AwaitingUser.newLocal_eq _ _ hshort, AwaitingUsers.insert_fst, AwaitingUser.requested_mId,
    pure_eq_ok]
  by_cases hexists : awaiting.exists' (searchUserByToken db tReq.mToken).mId = true
  · simp [hexists]
  · simp [hexists]

theorem accept_eq (hauth : Authenticated db tReq u) (hnames : Names tArg c localAddress)
    (hlocal : localAddress ≠ []) (awaiting : AwaitingUsers) :
    accept db tArg tReq awaiting =
      match awaiting.mAwaitingUsers c with
      | none => .ok (setRequestReply .r307 tReq, awaiting)
      | some user => acceptUser tReq localAddress awaiting user := by
  rw [accept, validate_of_names hauth.1 hnames]
  simp only [ok_bind, if_true, validateLocalAddress_of_ne_nil hlocal, AwaitingUsers.get]
  cases awaiting.mAwaitingUsers c <;> rfl

theorem reject_eq (hauth : Authenticated db tReq u) (hnames : Names tArg c localAddress)
    (awaiting : AwaitingUsers) :
    reject db tArg tReq awaiting = .ok (destroyReply tReq awaiting c) := by
  rw [reject, validate_of_names hauth.1 hnames]
  rfl

theorem hangup_eq (hauth : Authenticated db tReq u) (awaiting : AwaitingUsers) :
    hangup db tReq awaiting = destroyReply tReq awaiting u := by
  obtain ⟨hempty, rfl⟩ := hauth
  simp [hangup, hempty]

theorem ping_eq (hauth : Authenticated db tReq u) (awaiting : AwaitingUsers) :
    ping db tReq awaiting =
      match awaiting.mAwaitingUsers u with
      | none => (setRequestReply .r307 tReq, awaiting)
      | some user =>
        match pingUser tReq (awaiting.ping user.mId) user with
        | .error _ => (setRequestReply .r307 tReq, awaiting.ping user.mId)
        | .ok result => result := by
  obtain ⟨hempty, rfl⟩ := hauth
  simp only [ping, hempty, Bool.false_eq_true, if_false, AwaitingUsers.get]
  cases awaiting.mAwaitingUsers (searchUserByToken db tReq.mToken).mId <;> rfl

theorem acceptUser_eq {user : AwaitingUser} (hshort : tReq.mAddress.length < 2 ^ 31)
    (huser : user.mAddress.length < 2 ^ 31) :
    acceptUser tReq localAddress awaiting user =
      .ok (tReq.setData (textData (str "201 " ++
          ((user.accepted tReq.mAddress localAddress).seenAddress ++ str " " ++
            (user.accepted tReq.mAddress localAddress).network))),
        awaiting.put (user.accepted tReq.mAddress localAddress)) := by
  have hset : (user.setPeerAddress tReq.mAddress).setPeerLocalAddress localAddress =
      .ok (user.accepted tReq.mAddress localAddress) :=
    AwaitingUser.setPeerLocalAddress_eq _ _ hshort
  have haccepted : (user.accepted tReq.mAddress localAddress).Short := ⟨huser, hshort⟩
  simp only [acceptUser, hset, addressReply, haccepted.address_eq, haccepted.addressType_eq,
    ok_bind, pure_eq_ok, setRequestReplyMsg, Reply.appendMessage_r201]

theorem pingUser_eq {user : AwaitingUser} (h : user.Short) :
    pingUser tReq awaiting user =
      if user.seenPeer = [] then .ok (setRequestReply .r203 tReq, awaiting)
      else .ok (tReq.setData (textData (str "201 " ++ (user.seenPeer ++ str " " ++ user.network))),
        (awaiting.destroy user.mId).2) := by
  simp only [pingUser, h.peerAddress_eq, addressReply, h.addressType_eq, ok_bind, pure_eq_ok,
    setRequestReplyMsg, Reply.appendMessage_r201]

def Leaves (address : ByteString) (before after : AwaitingUsers) : Prop :=
  ∀ id user, after.mAwaitingUsers id = some user →
    before.mAwaitingUsers id = some user ∨
      (user.mAddress = address ∧ user.mPeerAddress = []) ∨
      ∃ old, before.mAwaitingUsers id = some old ∧ user.mAddress = old.mAddress ∧
        user.mPeerAddress = address

theorem leaves_refl (address : ByteString) (store : AwaitingUsers) : Leaves address store store :=
  fun _ _ h => Or.inl h

theorem leaves_destroy {address : ByteString} {before after : AwaitingUsers}
    (h : Leaves address before after) (id : Int32) :
    Leaves address before (after.destroy id).2 := by
  intro other user hu
  rw [AwaitingUsers.mAwaitingUsers_destroy] at hu
  by_cases hid : other = id
  · subst hid
    simp at hu
  · rw [Function.update_of_ne hid] at hu
    exact h other user hu

theorem leaves_insert {address : ByteString} (store : AwaitingUsers) {new : AwaitingUser}
    (haddress : new.mAddress = address) (hpeer : new.mPeerAddress = []) :
    Leaves address store (store.insert new).2 := by
  intro id user hu
  unfold AwaitingUsers.insert at hu
  split at hu
  · exact Or.inl hu
  · by_cases hid : id = new.mId
    · subst hid
      dsimp only at hu
      rw [Function.update_self] at hu
      obtain rfl := Option.some.inj hu
      exact Or.inr (Or.inl ⟨haddress, hpeer⟩)
    · dsimp only at hu
      rw [Function.update_of_ne hid] at hu
      exact Or.inl hu

theorem leaves_put {address : ByteString} {store : AwaitingUsers} {old new : AwaitingUser}
    (hold : store.mAwaitingUsers new.mId = some old) (haddress : new.mAddress = old.mAddress)
    (hpeer : new.mPeerAddress = address) : Leaves address store (store.put new) := by
  intro id user hu
  by_cases hid : id = new.mId
  · subst hid
    rw [AwaitingUsers.mAwaitingUsers_put, Function.update_self] at hu
    obtain rfl := Option.some.inj hu
    exact Or.inr (Or.inr ⟨old, hold, haddress, hpeer⟩)
  · rw [AwaitingUsers.mAwaitingUsers_put, Function.update_of_ne hid] at hu
    exact Or.inl hu

theorem validate_valid {user : User} {req : Request} {arg : Valid}
    (h : validateUserAndArgument tArg tReq user = .ok (req, arg)) (hvalid : arg.valid = true) :
    req = tReq := by
  unfold validateUserAndArgument at h
  split at h
  · obtain ⟨-, rfl⟩ := Prod.mk.inj (Except.ok.inj h)
    simp at hvalid
  · obtain ⟨pieces, -, h⟩ := bind_eq_ok.mp h
    dsimp only at h
    split at h
    · obtain ⟨rfl, -⟩ := Prod.mk.inj (Except.ok.inj h)
      rfl
    · obtain ⟨-, rfl⟩ := Prod.mk.inj (Except.ok.inj h)
      simp at hvalid

theorem validateLocalAddress_valid
    (h : (validateLocalAddress localAddress tReq).2 = true) :
    (validateLocalAddress localAddress tReq).1 = tReq := by
  unfold validateLocalAddress at h ⊢
  split at h
  · exact absurd h Bool.false_ne_true
  · next hne => rw [if_neg hne]

section Leaves

variable {req : Request} {after : AwaitingUsers}

theorem leaves_of_ok {address : ByteString}
    (h : (.ok (req, awaiting) : Exec _) = .ok (tReq, after)) :
    Leaves address awaiting after := by
  obtain ⟨-, rfl⟩ := Prod.mk.inj (Except.ok.inj h)
  exact leaves_refl _ _

theorem leaves_connect (h : connect db tArg tReq awaiting = .ok (req, after)) :
    Leaves tReq.mAddress awaiting after := by
  obtain ⟨⟨req', arg⟩, hvalidate, hbody⟩ := bind_eq_ok.mp h
  dsimp only at hbody
  split at hbody
  · next hvalid =>
    have hreq := validate_valid hvalidate hvalid
    split at hbody
    · next hlocal =>
      have hsame := validateLocalAddress_valid hlocal
      obtain ⟨new, hnew, hinsert⟩ := bind_eq_ok.mp hbody
      obtain ⟨haddress, hpeer⟩ := AwaitingUser.newLocal_fields hnew
      rw [hsame, hreq] at haddress
      rw [← (Prod.mk.inj (Except.ok.inj hinsert)).2]
      exact leaves_insert awaiting haddress hpeer
    · exact leaves_of_ok hbody
  · exact leaves_of_ok hbody

theorem leaves_acceptUser {user : AwaitingUser}
    (huser : awaiting.mAwaitingUsers user.mId = some user)
    (h : acceptUser tReq localAddress awaiting user = .ok (req, after)) :
    Leaves tReq.mAddress awaiting after := by
  have hput : ∀ new : AwaitingUser, new.mId = user.mId → new.mAddress = user.mAddress →
      new.mPeerAddress = tReq.mAddress → Leaves tReq.mAddress awaiting (awaiting.put new) := by
    intro new hid haddress hpeer
    exact leaves_put (hid ▸ huser) haddress hpeer
  simp only [acceptUser] at h
  split at h
  · obtain ⟨-, rfl⟩ := Prod.mk.inj (Except.ok.inj h)
    exact hput _ rfl rfl rfl
  · next hset =>
    obtain ⟨hid, haddress, hpeer⟩ := AwaitingUser.setPeerLocalAddress_fields hset
    split at h
    · obtain ⟨-, rfl⟩ := Prod.mk.inj (Except.ok.inj h)
      exact hput _ hid haddress hpeer
    · obtain ⟨-, rfl⟩ := Prod.mk.inj (Except.ok.inj h)
      exact hput _ hid haddress hpeer

theorem leaves_accept (h : accept db tArg tReq awaiting = .ok (req, after)) :
    Leaves tReq.mAddress awaiting after := by
  obtain ⟨⟨req', arg⟩, hvalidate, hbody⟩ := bind_eq_ok.mp h
  dsimp only at hbody
  split at hbody
  · next hvalid =>
    obtain rfl := validate_valid hvalidate hvalid
    split at hbody
    · next hlocal =>
      have hsame := validateLocalAddress_valid hlocal
      cases hget : awaiting.mAwaitingUsers arg.contactId with
      | none =>
        simp only [AwaitingUsers.get, hget] at hbody
        exact leaves_of_ok hbody
      | some user =>
        have hid := awaiting.keyed _ _ hget
        simp only [AwaitingUsers.get, hget, hsame] at hbody
        exact leaves_acceptUser (hid ▸ hget) hbody
    · exact leaves_of_ok hbody
  · exact leaves_of_ok hbody

theorem leaves_hangup : Leaves tReq.mAddress awaiting (hangup db tReq awaiting).2 := by
  rw [hangup]
  split
  · exact leaves_refl _ _
  · exact leaves_destroy (leaves_refl _ _) _

theorem leaves_reject (h : reject db tArg tReq awaiting = .ok (req, after)) :
    Leaves tReq.mAddress awaiting after := by
  obtain ⟨⟨req', arg⟩, -, hbody⟩ := bind_eq_ok.mp h
  dsimp only at hbody
  split at hbody
  · rw [← (Prod.mk.inj (Except.ok.inj hbody)).2]
    exact leaves_destroy (leaves_refl _ _) _
  · exact leaves_of_ok hbody

theorem leaves_pingUser {user : AwaitingUser}
    (h : pingUser tReq awaiting user = .ok (req, after)) :
    Leaves tReq.mAddress awaiting after := by
  obtain ⟨peer, -, hbody⟩ := bind_eq_ok.mp h
  split at hbody
  · exact leaves_of_ok hbody
  · obtain ⟨response, -, hmessage⟩ := bind_eq_ok.mp hbody
    obtain ⟨reply, -, hdestroy⟩ := bind_eq_ok.mp hmessage
    rw [← (Prod.mk.inj (Except.ok.inj hdestroy)).2]
    exact leaves_destroy (leaves_refl _ _) _

theorem leaves_ping : Leaves tReq.mAddress awaiting (ping db tReq awaiting).2 := by
  simp only [ping]
  split
  · exact leaves_refl _ _
  · split
    · exact leaves_refl _ _
    · split
      · exact leaves_refl _ (awaiting.ping _)
      · next hping =>
        have hleaves := leaves_pingUser hping
        exact hleaves

end Leaves

end

end Skype.CallControllers
