import Skype.Router

/-!
# What the controllers do to the state

A controller reaches its last state by methods of `Postgres`. A relation between states
that follows the methods that read and those that write users and tokens holds across
every controller, up to the one method with which it writes a contact or a chat.
-/

namespace Skype.Router

open ControllerUtils

structure Reads (R : Server → Server → Prop) : Prop where
  refl : ∀ s, R s s
  trans : ∀ {a b c}, R a b → R b c → R a c
  searchUserByToken : ∀ (s : Server) tToken, R s (s.searchUserByToken tToken).2
  searchUserBy : ∀ pg (s : Server) tTerm tField, R s (s.searchUserBy pg tTerm tField).2
  listUserContacts : ∀ (s : Server) tUser, R s (s.listUserContacts tUser).2
  listUserChats : ∀ pg (s : Server) tUser tPending tSender,
    R s (s.listUserChats pg tUser tPending tSender).2
  userContactExists : ∀ (s : Server) userId contactId, R s (s.userContactExists userId contactId).2

structure Follows (R : Server → Server → Prop) : Prop extends Reads R where
  addUser : ∀ pg draw (s : Server) tUser, R s (s.addUser pg draw tUser).2
  addUserToken : ∀ pg (s : Server) userId tToken, R s (s.addUserToken pg userId tToken).2
  updateUser : ∀ pg (s : Server) tUser, R s (s.updateUser pg tUser).2
  logoff : ∀ (s : Server) userId, R s (s.logoff userId)
  removeUserToken : ∀ (s : Server) userId, R s (s.removeUserToken userId)

variable {R : Server → Server → Prop} {pg : Engine} {draw : Draw} {tArg : ByteString}
  {tReq req : Request} {s s' : Server}

theorem related_of_ok {t : Server} (h : (.ok (tReq, t) : Exec (Request × Server)) = .ok (req, s'))
    (hrelated : R s t) : R s s' := by
  obtain ⟨-, rfl⟩ := Prod.mk.inj (Except.ok.inj h)
  exact hrelated

theorem related_of_reply {t : Server} {tReply : Reply.Code} {tMsg : ByteString}
    (h : (do let tReq ← setRequestReplyMsg tReply tMsg tReq
             return (tReq, t) : Exec (Request × Server)) = .ok (req, s'))
    (hrelated : R s t) : R s s' := by
  obtain ⟨reply, -, h⟩ := bind_eq_ok.mp h
  exact related_of_ok h hrelated

namespace Reads

theorem afterToken (hR : Reads R) {tToken : ByteString} {user : User} {t : Server}
    (h : s.searchUserByToken tToken = (user, t)) : R s t := by
  obtain ⟨-, rfl⟩ := Prod.mk.inj h
  exact hR.searchUserByToken s tToken

theorem afterSearch (hR : Reads R) {tTerm : ByteString} {tField : Postgres.UserField}
    {user : User} {t : Server} (h : s.searchUserBy pg tTerm tField = (user, t)) : R s t := by
  obtain ⟨-, rfl⟩ := Prod.mk.inj h
  exact hR.searchUserBy pg s tTerm tField

theorem search (hR : Reads R) (h : UserControllers.search pg tArg tReq s = .ok (req, s')) :
    R s s' := by
  unfold UserControllers.search at h
  generalize hsearch : s.searchUserBy pg tArg .username = found at h
  obtain ⟨user, t⟩ := found
  have hfound := hR.afterSearch hsearch
  dsimp only at h
  split at h
  · exact related_of_reply h hfound
  · exact related_of_ok h hfound

theorem available (hR : Reads R)
    (h : UserControllers.available pg tArg tReq s = .ok (req, s')) : R s s' := by
  unfold UserControllers.available at h
  generalize hsearch : s.searchUserBy pg tArg .username = found at h
  obtain ⟨user, t⟩ := found
  have hfound := hR.afterSearch hsearch
  dsimp only at h
  split at h
  · exact related_of_ok h hfound
  · split at h
    · exact related_of_ok h hfound
    · exact related_of_reply h hfound

theorem list (hR : Reads R) (h : Router.list tReq s = .ok (req, s')) : R s s' := by
  obtain ⟨reply, -, h⟩ := bind_eq_ok.mp h
  generalize htoken : s.searchUserByToken tReq.mToken = asked at h
  obtain ⟨user, t⟩ := asked
  have hasked := hR.afterToken htoken
  dsimp only at h
  refine related_of_ok h ?_
  split
  · exact hasked
  · exact hR.trans hasked (hR.listUserContacts t user)

theorem getChats (hR : Reads R) {tPending : Bool}
    (h : ChatControllers.getChats pg tArg tReq tPending s = .ok (req, s')) : R s s' := by
  unfold ChatControllers.getChats at h
  generalize htoken : s.searchUserByToken tReq.mToken = asked at h
  obtain ⟨user, t⟩ := asked
  have hasked := hR.afterToken htoken
  dsimp only at h
  split at h
  · exact related_of_ok h hasked
  · split at h
    · exact related_of_reply h (hR.trans hasked (hR.listUserChats pg t user.mId tPending none))
    · generalize hsearch : t.searchUserBy pg tArg .id = found at h
      obtain ⟨chatsWith, u⟩ := found
      have hfound := hR.trans hasked (hR.afterSearch hsearch)
      dsimp only at h
      split at h
      · exact related_of_ok h hfound
      · exact related_of_reply h
          (hR.trans hfound (hR.listUserChats pg u user.mId tPending (some chatsWith.mId)))

theorem add (hR : Reads R) (pg : Engine) (draw : Draw) (tArg : ByteString) (tReq : Request)
    (s : Server) :
    ∃ t, R s t ∧ ((UserControllers.add pg draw tArg tReq s).2 = t ∨
      ∃ contactId, (UserControllers.add pg draw tArg tReq s).2 =
        t.addUserContact (Postgres.searchUserByToken s.db.toDatabase tReq.mToken).mId
          contactId) := by
  unfold UserControllers.add
  generalize htoken : s.searchUserByToken tReq.mToken = asked
  obtain ⟨user, t⟩ := asked
  have huser : Postgres.searchUserByToken s.db.toDatabase tReq.mToken = user :=
    congrArg Prod.fst htoken
  dsimp only
  generalize hsearch : t.searchUserBy pg tArg .username = found
  obtain ⟨contact, t'⟩ := found
  have hfound := hR.trans (hR.afterToken htoken) (hR.afterSearch hsearch)
  have hexists := hR.trans hfound (hR.userContactExists t' (UserControllers.idOf draw user)
    (UserControllers.idOf draw contact))
  dsimp only
  rw [huser]
  split
  · exact ⟨t', hfound, Or.inl rfl⟩
  · split
    · exact ⟨_, hexists, Or.inl rfl⟩
    · split
      · exact ⟨_, hexists, Or.inr ⟨contact.mId, rfl⟩⟩
      · exact ⟨_, hexists, Or.inl rfl⟩

theorem remove (hR : Reads R) (pg : Engine) (tArg : ByteString) (tReq : Request) (s : Server) :
    ∃ t, R s t ∧ ((UserControllers.remove pg tArg tReq s).2 = t ∨
      ∃ contactId, (UserControllers.remove pg tArg tReq s).2 =
        t.removeUserContact (Postgres.searchUserByToken s.db.toDatabase tReq.mToken).mId
          contactId) := by
  unfold UserControllers.remove
  generalize htoken : s.searchUserByToken tReq.mToken = asked
  obtain ⟨user, t⟩ := asked
  have huser : Postgres.searchUserByToken s.db.toDatabase tReq.mToken = user :=
    congrArg Prod.fst htoken
  dsimp only
  generalize hsearch : t.searchUserBy pg tArg .username = found
  obtain ⟨contact, t'⟩ := found
  have hfound := hR.trans (hR.afterToken htoken) (hR.afterSearch hsearch)
  dsimp only
  rw [huser]
  split
  · exact ⟨t', hfound, Or.inr ⟨contact.mId, rfl⟩⟩
  · exact ⟨t', hfound, Or.inl rfl⟩

theorem send (hR : Reads R) (h : ChatControllers.send pg draw tArg tReq s = .ok (req, s')) :
    ∃ t, R s t ∧ (s' = t ∨ ∃ chat : UserChat,
      chat.mSender = (Postgres.searchUserByToken s.db.toDatabase tReq.mToken).mId ∧
        s' = t.addUserChat pg draw chat) := by
  obtain ⟨pieces, -, h⟩ := bind_eq_ok.mp h
  dsimp only at h
  have htoken' : (if pieces.2 = [] then setRequestReply .r502 tReq else tReq).mToken =
      tReq.mToken := by
    split
    · rfl
    · rfl
  rw [htoken'] at h
  generalize htoken : s.searchUserByToken tReq.mToken = asked at h
  obtain ⟨user, t⟩ := asked
  have huser : Postgres.searchUserByToken s.db.toDatabase tReq.mToken = user :=
    congrArg Prod.fst htoken
  dsimp only at h
  generalize hsearch : t.searchUserBy pg pieces.1 .id = found at h
  obtain ⟨recipient, t'⟩ := found
  have hfound := hR.trans (hR.afterToken htoken) (hR.afterSearch hsearch)
  dsimp only at h
  split at h
  · obtain ⟨-, rfl⟩ := Prod.mk.inj (Except.ok.inj h)
    exact ⟨t', hfound, Or.inr ⟨_, congrArg User.mId huser.symm, rfl⟩⟩
  · obtain ⟨-, rfl⟩ := Prod.mk.inj (Except.ok.inj h)
    exact ⟨t', hfound, Or.inl rfl⟩

end Reads

namespace Follows

theorem create (hR : Follows R) (h : UserControllers.create pg draw tArg tReq s = .ok (req, s')) :
    R s s' := by
  obtain ⟨pieces, -, h⟩ := bind_eq_ok.mp h
  dsimp only at h
  split at h
  · exact related_of_ok h (hR.refl s)
  · exact related_of_ok h (hR.addUser pg draw s _)

theorem loginUser (hR : Follows R) {tUser : User}
    (h : UserControllers.loginUser pg draw tUser tReq s = .ok (req, s')) : R s s' := by
  unfold UserControllers.loginUser at h
  have hwritten := fun user : User => hR.trans (hR.addUserToken pg s tUser.mId draw.token)
    (hR.updateUser pg (s.addUserToken pg tUser.mId draw.token).2 user)
  dsimp only at h
  split at h
  · exact related_of_reply h (hwritten _)
  · exact related_of_ok h (hwritten _)

theorem login (hR : Follows R) (h : UserControllers.login pg draw tArg tReq s = .ok (req, s')) :
    R s s' := by
  obtain ⟨pieces, -, h⟩ := bind_eq_ok.mp h
  dsimp only at h
  split at h
  · exact related_of_ok h (hR.refl s)
  · generalize hsearch : s.searchUserBy pg pieces.1 .username = found at h
    obtain ⟨user, t⟩ := found
    have hfound := hR.afterSearch hsearch
    dsimp only at h
    split at h
    · exact hR.trans hfound (hR.loginUser h)
    · exact related_of_ok h hfound

theorem exit (hR : Follows R) (h : UserControllers.exit pg tReq s = .ok (req, s')) : R s s' := by
  unfold UserControllers.exit at h
  generalize hexit : UserControllers.exitUser pg tReq s = found at h
  obtain ⟨user, t⟩ := found
  have hfound : R s t := by
    unfold UserControllers.exitUser at hexit
    generalize htoken : s.searchUserByToken tReq.mToken = asked at hexit
    obtain ⟨first, a⟩ := asked
    have hasked := hR.afterToken htoken
    dsimp only at hexit
    split at hexit
    · exact hR.trans hasked (hR.afterSearch hexit)
    · obtain ⟨-, rfl⟩ := Prod.mk.inj hexit
      exact hasked
  dsimp only at h
  refine related_of_reply h (hR.trans hfound ?_)
  split
  · exact hR.refl t
  · exact hR.trans (hR.logoff t user.mId) (hR.removeUserToken _ user.mId)

end Follows

end Skype.Router
