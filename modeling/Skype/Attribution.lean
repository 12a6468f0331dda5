import Skype.CallRequests
import Skype.ChatIds
import Skype.ControllerSteps

/-!
# Whose rows a request writes

A controller that inserts or deletes contacts, chats or call requests writes them for
the user its token is stored for. The exception is `DELIVERED`, whose ids stand in a
query as they are: an id that is not a numeral can make the database write anything.
-/

namespace Skype.Router

open Library ControllerUtils Postgres

structure StoredFor (db : Database) (token : ByteString) (u : Int32) : Prop where
  stored : ∃ t ∈ db.tokens, t.token = some token ∧ t.userId = u.toInt ∧
    ∃ row ∈ db.users, row.id = u.toInt
  only : ∀ t ∈ db.tokens, t.token = some token → (∃ row ∈ db.users, row.id = t.userId) →
    t.userId = u.toInt

structure Owned (u : Int32) (a b : Server) : Prop where
  contacts : ∀ row, a.db.contacts.count row ≠ b.db.contacts.count row → row.userId = some u.toInt
  chats : ∀ row ∈ b.db.chats.entries, row.id ∉ a.db.chats.entries.map ChatRow.id →
    row.senderId = u
  awaiting : ∀ id, b.awaiting.mAwaitingUsers id ≠ none →
    a.awaiting.mAwaitingUsers id ≠ none ∨ id = u

structure Quiet (a b : Server) : Prop where
  contacts : b.db.contacts = a.db.contacts
  chats : b.db.chats = a.db.chats
  awaiting : b.awaiting = a.awaiting

theorem quiet_refl (s : Server) : Quiet s s := ⟨rfl, rfl, rfl⟩

theorem Quiet.owned {a b : Server} (h : Quiet a b) (u : Int32) : Owned u a b where
  contacts := by
    intro row hne
    exact absurd (congrArg (List.count row) h.contacts.symm) hne
  chats := by
    intro row hrow hnew
    exact absurd (List.mem_map_of_mem (h.chats ▸ hrow)) hnew
  awaiting := by
    intro id hid
    exact .inl (h.awaiting ▸ hid)

theorem storedFor_of_token {db : Database} {token : ByteString}
    (h : (searchUserByToken db token).mEmpty = false) :
    StoredFor db token (searchUserByToken db token).mId := by
  rw [searchUserByToken] at h ⊢
  generalize hrows : ((db.tokens.filter fun t => t.token = some token).flatMap fun t =>
    db.users.filter fun u => t.userId = u.id) = rows at h ⊢
  have hmem : ∀ t ∈ db.tokens, t.token = some token → ∀ row ∈ db.users, row.id = t.userId →
      row ∈ rows := by
    intro t ht htoken row hrow hid
    rw [← hrows]
    apply List.mem_flatMap.mpr
    exact ⟨t, by simp [ht, htoken], by simp [hrow, hid]⟩
  match rows with
  | [] => cases h
  | _ :: _ :: _ => cases h
  | [row] =>
    dsimp only [exec1] at h ⊢
    cases hint : toInt row.id with
    | none =>
      rw [hint] at h
      cases h
    | some id =>
      have hid : id.toInt = row.id := toInt_eq_some hint
      have hrow : row ∈ (db.tokens.filter fun t => t.token = some token).flatMap fun t =>
          db.users.filter fun u => t.userId = u.id := by
        rw [hrows]
        exact List.mem_singleton_self row
      obtain ⟨t, ht, hjoin⟩ := List.mem_flatMap.mp hrow
      simp only [List.mem_filter, decide_eq_true_eq] at ht hjoin
      refine ⟨⟨t, ht.1, ht.2, hjoin.2.trans hid.symm, row, hjoin.1, hid.symm⟩, ?_⟩
      rintro other hother htoken ⟨user, huser, hsame⟩
      have hin := hmem other hother htoken user huser hsame
      rw [List.mem_singleton.mp hin] at hsame
      exact hsame.symm.trans hid.symm

section

variable {pg : Engine} {draw : Draw} {tArg : ByteString} {tReq req : Request} {s s' : Server}

theorem quiet_addUser (pg : Engine) (draw : Draw) (s : Server) (tUser : User) :
    Quiet s (s.addUser pg draw tUser).2 := by
  have hdb : (Postgres.addUser pg draw s.db tUser).2.contacts = s.db.contacts ∧
      (Postgres.addUser pg draw s.db tUser).2.chats = s.db.chats := by
    rw [addUser]
    split
    · exact ⟨rfl, rfl⟩
    · exact ⟨rfl, rfl⟩
  exact ⟨hdb.1, hdb.2, rfl⟩

theorem quiet_addUserToken (pg : Engine) (s : Server) (userId : Int32) (tToken : ByteString) :
    Quiet s (s.addUserToken pg userId tToken).2 := by
  have hdb : (Postgres.addUserToken pg s.db userId tToken).2.contacts = s.db.contacts ∧
      (Postgres.addUserToken pg s.db userId tToken).2.chats = s.db.chats := by
    rw [addUserToken]
    split
    · exact ⟨rfl, rfl⟩
    · exact ⟨rfl, rfl⟩
  exact ⟨hdb.1, hdb.2, rfl⟩

theorem quiet_updateUser (pg : Engine) (s : Server) (tUser : User) :
    Quiet s (s.updateUser pg tUser).2 := by
  have hdb : (Postgres.updateUser pg s.db tUser).2.contacts = s.db.contacts ∧
      (Postgres.updateUser pg s.db tUser).2.chats = s.db.chats := by
    rw [updateUser]
    split
    · exact ⟨rfl, rfl⟩
    · exact ⟨rfl, rfl⟩
  exact ⟨hdb.1, hdb.2, rfl⟩

theorem Quiet.trans {a b c : Server} (hab : Quiet a b) (hbc : Quiet b c) : Quiet a c :=
  ⟨hbc.contacts.trans hab.contacts, hbc.chats.trans hab.chats, hbc.awaiting.trans hab.awaiting⟩

theorem quiet_follows : Follows Quiet where
  refl := quiet_refl
  trans := Quiet.trans
  searchUserByToken _ _ := ⟨rfl, rfl, rfl⟩
  searchUserBy _ _ _ _ := ⟨rfl, rfl, rfl⟩
  listUserContacts _ _ := ⟨rfl, rfl, rfl⟩
  listUserChats _ _ _ _ _ := ⟨rfl, rfl, rfl⟩
  userContactExists _ _ _ := ⟨rfl, rfl, rfl⟩
  addUser := quiet_addUser
  addUserToken := quiet_addUserToken
  updateUser := quiet_updateUser
  logoff _ _ := ⟨rfl, rfl, rfl⟩
  removeUserToken _ _ := ⟨rfl, rfl, rfl⟩

theorem Quiet.owned_addUserContact {a b : Server} (h : Quiet a b) (u contactId : Int32) :
    Owned u a (b.addUserContact u contactId) := by
  refine ⟨?_, (h.owned u).chats, (h.owned u).awaiting⟩
  intro row hne
  by_contra howner
  apply hne
  have hrow : row ∉ ([⟨some u.toInt, some contactId.toInt⟩] : List ContactRow) := by
    intro hmem
    rw [List.mem_singleton.mp hmem] at howner
    exact howner rfl
  have hcontacts : (b.addUserContact u contactId).db.contacts =
      a.db.contacts ++ [⟨some u.toInt, some contactId.toInt⟩] := by
    rw [← h.contacts]
    rfl
  rw [hcontacts, List.count_append, List.count_eq_zero_of_not_mem hrow, Nat.add_zero]

theorem Quiet.owned_removeUserContact {a b : Server} (h : Quiet a b) (u contactId : Int32) :
    Owned u a (b.removeUserContact u contactId) := by
  refine ⟨?_, (h.owned u).chats, (h.owned u).awaiting⟩
  intro row hne
  by_contra howner
  apply hne
  have hcontacts : (b.removeUserContact u contactId).db.contacts =
      a.db.contacts.filter fun row =>
        ¬(row.userId = some u.toInt ∧ row.contactId = some contactId.toInt) := by
    rw [← h.contacts]
    rfl
  rw [hcontacts, List.count_filter]
  simp [howner]

theorem Quiet.owned_addUserChat {a b : Server} (h : Quiet a b) (chat : UserChat) (pg : Engine)
    (draw : Draw) : Owned chat.mSender a (b.addUserChat pg draw chat) := by
  have hdb : Postgres.addUserChat pg draw b.db chat = b.db ∨
      Postgres.addUserChat pg draw b.db chat = { b.db with
        chats := b.db.chats.insert ⟨draw.chatId, draw.createdAt, chat.mSender, chat.mRecipient,
          chat.mDelivered, some chat.mText⟩ } := by
    unfold Postgres.addUserChat
    split
    · exact Or.inl rfl
    · exact Or.inr rfl
  have hsent : (b.addUserChat pg draw chat).db = Postgres.addUserChat pg draw b.db chat := rfl
  refine ⟨?_, ?_, (h.owned chat.mSender).awaiting⟩
  · rw [hsent]
    rcases hdb with hsame | hsame
    · rw [hsame]
      exact (h.owned chat.mSender).contacts
    · rw [hsame]
      exact (h.owned chat.mSender).contacts
  · intro row hrow hnew
    rw [hsent] at hrow
    rcases hdb with hsame | hsame
    · rw [hsame] at hrow
      exact (h.owned chat.mSender).chats row hrow hnew
    · rw [hsame] at hrow
      rcases Keyed.mem_insertEntry hrow with rfl | hold
      · rfl
      · exact (h.owned chat.mSender).chats row hold hnew

theorem owned_add (pg : Engine) (draw : Draw) (tArg : ByteString) (tReq : Request) (s : Server) :
    Owned (Postgres.searchUserByToken s.db.toDatabase tReq.mToken).mId s
      (UserControllers.add pg draw tArg tReq s).2 := by
  obtain ⟨t, hquiet, hsame | ⟨contactId, hadded⟩⟩ := quiet_follows.add pg draw tArg tReq s
  · rw [hsame]
    exact hquiet.owned _
  · rw [hadded]
    exact hquiet.owned_addUserContact _ contactId

theorem owned_remove (pg : Engine) (tArg : ByteString) (tReq : Request) (s : Server) :
    Owned (Postgres.searchUserByToken s.db.toDatabase tReq.mToken).mId s
      (UserControllers.remove pg tArg tReq s).2 := by
  obtain ⟨t, hquiet, hsame | ⟨contactId, hremoved⟩⟩ := quiet_follows.remove pg tArg tReq s
  · rw [hsame]
    exact hquiet.owned _
  · rw [hremoved]
    exact hquiet.owned_removeUserContact _ contactId

theorem owned_send (h : ChatControllers.send pg draw tArg tReq s = .ok (req, s')) :
    Owned (Postgres.searchUserByToken s.db.toDatabase tReq.mToken).mId s s' := by
  obtain ⟨t, hquiet, rfl | ⟨chat, hsender, rfl⟩⟩ := quiet_follows.send h
  · exact hquiet.owned _
  · rw [← hsender]
    exact hquiet.owned_addUserChat chat pg draw

def AddsOnly (u : Int32) (before after : AwaitingUsers) : Prop :=
  ∀ id, after.mAwaitingUsers id ≠ none → before.mAwaitingUsers id ≠ none ∨ id = u

theorem addsOnly_refl (u : Int32) (store : AwaitingUsers) : AddsOnly u store store :=
  fun _ h => Or.inl h

theorem addsOnly_destroy {u : Int32} {before after : AwaitingUsers} (h : AddsOnly u before after)
    (id : Int32) : AddsOnly u before (after.destroy id).2 := by
  intro other hother
  apply h other
  rw [AwaitingUsers.mAwaitingUsers_destroy] at hother
  by_cases hid : other = id
  · subst hid
    simp at hother
  · rwa [Function.update_of_ne hid] at hother

theorem addsOnly_put {u : Int32} {store : AwaitingUsers} {old new : AwaitingUser}
    (hold : store.mAwaitingUsers new.mId = some old) : AddsOnly u store (store.put new) := by
  intro id hid
  left
  by_cases hsame : id = new.mId
  · simp [hsame, hold]
  · rwa [AwaitingUsers.mAwaitingUsers_put, Function.update_of_ne hsame] at hid

theorem addsOnly_insert (store : AwaitingUsers) (new : AwaitingUser) :
    AddsOnly new.mId store (store.insert new).2 := by
  intro id hid
  by_cases hsame : id = new.mId
  · exact Or.inr hsame
  · left
    unfold AwaitingUsers.insert at hid
    split at hid
    · exact hid
    · dsimp only at hid
      rwa [Function.update_of_ne hsame] at hid

section

open CallControllers

variable {db : Database} {awaiting after : AwaitingUsers}

theorem addsOnly_of_ok {u : Int32} {store : AwaitingUsers}
    (h : (.ok (tReq, store) : Exec (Request × AwaitingUsers)) = .ok (req, after))
    (hadds : AddsOnly u awaiting store) : AddsOnly u awaiting after := by
  obtain ⟨-, rfl⟩ := Prod.mk.inj (Except.ok.inj h)
  exact hadds

theorem addsOnly_connect (h : connect db tArg tReq awaiting = .ok (req, after)) :
    AddsOnly (Postgres.searchUserByToken db tReq.mToken).mId awaiting after := by
  obtain ⟨⟨req', arg⟩, hvalidate, hbody⟩ := bind_eq_ok.mp h
  dsimp only at hbody
  split at hbody
  · split at hbody
    · obtain ⟨new, hnew, hinsert⟩ := bind_eq_ok.mp hbody
      obtain ⟨pieces, -, hpure⟩ := bind_eq_ok.mp hnew
      obtain rfl := Except.ok.inj hpure
      exact addsOnly_of_ok hinsert (addsOnly_insert awaiting _)
    · exact addsOnly_of_ok hbody (addsOnly_refl _ _)
  · exact addsOnly_of_ok hbody (addsOnly_refl _ _)

theorem addsOnly_acceptUser {u : Int32} {localAddress : ByteString} {user : AwaitingUser}
    (huser : awaiting.mAwaitingUsers user.mId = some user)
    (h : acceptUser tReq localAddress awaiting user = .ok (req, after)) :
    AddsOnly u awaiting after := by
  unfold acceptUser at h
  dsimp only at h
  split at h
  · exact addsOnly_of_ok h (addsOnly_put huser)
  · next hset =>
    obtain ⟨hid, -, -⟩ := AwaitingUser.setPeerLocalAddress_fields hset
    have hnew := hid.symm ▸ huser
    split at h
    · exact addsOnly_of_ok h (addsOnly_put hnew)
    · exact addsOnly_of_ok h (addsOnly_put hnew)

theorem addsOnly_accept {u : Int32} (h : accept db tArg tReq awaiting = .ok (req, after)) :
    AddsOnly u awaiting after := by
  obtain ⟨⟨req', arg⟩, hvalidate, hbody⟩ := bind_eq_ok.mp h
  dsimp only at hbody
  split at hbody
  · split at hbody
    · cases hget : awaiting.mAwaitingUsers arg.contactId with
      | none =>
        simp only [AwaitingUsers.get, hget] at hbody
        exact addsOnly_of_ok hbody (addsOnly_refl _ _)
      | some user =>
        have hid := awaiting.keyed _ _ hget
        simp only [AwaitingUsers.get, hget] at hbody
        exact addsOnly_acceptUser (hid ▸ hget) hbody
    · exact addsOnly_of_ok hbody (addsOnly_refl _ _)
  · exact addsOnly_of_ok hbody (addsOnly_refl _ _)

theorem addsOnly_hangup (u : Int32) (db : Database) (tReq : Request) (awaiting : AwaitingUsers) :
    AddsOnly u awaiting (hangup db tReq awaiting).2 := by
  rw [hangup]
  split
  · exact addsOnly_refl _ _
  · exact addsOnly_destroy (addsOnly_refl _ _) _

theorem addsOnly_reject {u : Int32} (h : reject db tArg tReq awaiting = .ok (req, after)) :
    AddsOnly u awaiting after := by
  obtain ⟨⟨req', arg⟩, -, hbody⟩ := bind_eq_ok.mp h
  dsimp only at hbody
  split at hbody
  · exact addsOnly_of_ok hbody (addsOnly_destroy (addsOnly_refl _ _) _)
  · exact addsOnly_of_ok hbody (addsOnly_refl _ _)

theorem addsOnly_ping (u : Int32) (db : Database) (tReq : Request) (awaiting : AwaitingUsers) :
    AddsOnly u awaiting (ping db tReq awaiting).2 := by
  simp only [ping]
  split
  · exact addsOnly_refl _ _
  · split
    · exact addsOnly_refl _ _
    · have hpinged : ∀ id, AddsOnly u awaiting (awaiting.ping id) := fun _ _ h => Or.inl h
      split
      · exact hpinged _
      · next awaitUser hget result hping =>
        obtain ⟨peer, -, hbody⟩ := bind_eq_ok.mp hping
        obtain ⟨answered, store⟩ := result
        split at hbody
        · exact addsOnly_of_ok hbody (hpinged _)
        · obtain ⟨response, -, hmessage⟩ := bind_eq_ok.mp hbody
          obtain ⟨reply, -, hdestroy⟩ := bind_eq_ok.mp hmessage
          exact addsOnly_of_ok hdestroy (addsOnly_destroy (hpinged _) _)

theorem owned_onCalls {u : Int32} {result : Exec (Request × AwaitingUsers)}
    (h : onCalls tReq s result = .ok (req, s'))
    (hadds : ∀ r after, result = .ok (r, after) → AddsOnly u s.awaiting after) : Owned u s s' := by
  obtain ⟨⟨r, after⟩, hresult, h⟩ := bind_eq_ok.mp h
  obtain ⟨-, rfl⟩ := Prod.mk.inj (Except.ok.inj h)
  have hquiet := (quiet_refl s).owned u
  exact ⟨hquiet.contacts, hquiet.chats, hadds r after hresult⟩

end

theorem quiet_delivered (hshort : tArg.length < 2 ^ 31)
    (hplain : tArg ≠ [] → ChatControllers.Plain s.db.chats (Search.splitOn [comma] tArg))
    (h : ChatControllers.delivered pg tArg tReq s = .ok (req, s')) :
    s'.db.toDatabase = s.db.toDatabase ∧ s'.awaiting = s.awaiting ∧
      s'.db.chats.entries.map ChatRow.id = s.db.chats.entries.map ChatRow.id := by
  by_cases hne : tArg = []
  · rw [ChatControllers.delivered, if_pos hne] at h
    obtain ⟨-, rfl⟩ := Prod.mk.inj (Except.ok.inj h)
    exact ⟨rfl, rfl, rfl⟩
  · rw [ChatControllers.delivered_eq pg hshort hne] at h
    obtain ⟨-, hdb⟩ := ChatControllers.findChats_plain pg (hplain hne)
    have hawaiting := ChatControllers.awaiting_findChats pg s (Search.splitOn [comma] tArg)
    split at h
    · obtain ⟨-, rfl⟩ := Prod.mk.inj (Except.ok.inj h)
      rw [hdb]
      exact ⟨rfl, hawaiting, rfl⟩
    · next userChats hfound =>
      obtain ⟨-, rfl⟩ := Prod.mk.inj (Except.ok.inj h)
      obtain ⟨hothers, hkept⟩ := ChatControllers.setAllDelivered_others
        (ChatControllers.findChats pg s (Search.splitOn [comma] tArg)).2 userChats
      rw [hothers, hkept, ChatControllers.entries_setAllDelivered, hdb, List.map_map]
      refine ⟨rfl, hawaiting, ?_⟩
      apply List.map_congr_left
      intro row hrow
      rw [Function.comp_apply]
      split
      · rfl
      · rfl

theorem owned_delivered (u : Int32) (hshort : tArg.length < 2 ^ 31)
    (hplain : tArg ≠ [] → ChatControllers.Plain s.db.chats (Search.splitOn [comma] tArg))
    (h : ChatControllers.delivered pg tArg tReq s = .ok (req, s')) : Owned u s s' := by
  obtain ⟨hothers, hawaiting, hids⟩ := quiet_delivered hshort hplain h
  refine ⟨?_, ?_, ?_⟩
  · intro row hne
    exact absurd (congrArg (fun db : Database => db.contacts.count row) hothers.symm) hne
  · intro row hrow hnew
    rw [← hids] at hnew
    exact absurd (List.mem_map_of_mem hrow) hnew
  · intro id hid
    exact Or.inl (hawaiting ▸ hid)

theorem owned_controllers {command : ServerCommand.Name} (hshort : tArg.length < 2 ^ 31)
    (hplain : command = .delivered → tArg ≠ [] →
      ChatControllers.Plain s.db.chats (Search.splitOn [comma] tArg))
    (h : controllers pg draw command tArg tReq s = .ok (req, s')) :
    Owned (Postgres.searchUserByToken s.db.toDatabase tReq.mToken).mId s s' := by
  cases command with
  | list => exact (quiet_follows.list h).owned _
  | create => exact (quiet_follows.create h).owned _
  | login => exact (quiet_follows.login h).owned _
  | search => exact (quiet_follows.search h).owned _
  | add => exact related_of_ok h (owned_add pg draw tArg tReq s)
  | remove => exact related_of_ok h (owned_remove pg tArg tReq s)
  | available => exact (quiet_follows.available h).owned _
  | exit => exact (quiet_follows.exit h).owned _
  | send => exact owned_send h
  | pending => exact (quiet_follows.getChats h).owned _
  | chat => exact (quiet_follows.getChats h).owned _
  | delivered => exact owned_delivered _ hshort (hplain rfl) h
  | connect => exact owned_onCalls h fun r after hr => addsOnly_connect hr
  | accept => exact owned_onCalls h fun r after hr => addsOnly_accept hr
  | hangup => exact owned_onCalls h fun r after hr => addsOnly_of_ok hr (addsOnly_hangup _ _ _ _)
  | reject => exact owned_onCalls h fun r after hr => addsOnly_reject hr
  | ping => exact owned_onCalls h fun r after hr => addsOnly_of_ok hr (addsOnly_ping _ _ _ _)
  | none => exact related_of_ok h ((quiet_refl s).owned _)

def Writes (a b : Server) : Prop :=
  (∃ row, a.db.contacts.count row ≠ b.db.contacts.count row) ∨
    (∃ row ∈ b.db.chats.entries, row.id ∉ a.db.chats.entries.map ChatRow.id) ∨
    ∃ id, b.awaiting.mAwaitingUsers id ≠ none ∧ a.awaiting.mAwaitingUsers id = none

/-- What a message writes belongs to the one user that its second word is a token of, and
a message without a stored token changes nothing. -/
structure Attributed (pg : Engine) (draw : Draw) (raw : Message) (tReq : Request) (s : Server) :
    Prop where
  owner : ∀ req s', route pg draw (raw.request tReq) s = .ok (req, s') → Writes s s' →
    ∃ u, StoredFor s.db.toDatabase raw.word u ∧ Owned u s s'
  refused : (∀ t ∈ s.db.tokens, t.token ≠ some raw.word) → raw.command ≠ .create →
    raw.command ≠ .login → raw.command ≠ .exit →
    ∃ req s', route pg draw (raw.request tReq) s = .ok (req, s') ∧ s'.db = s.db ∧
      s'.awaiting = s.awaiting ∧ req.mData =
        some (textData (Reply.getMessage (if tReq.mValid then .r202 else .r501)))

theorem Quiet.not_writes {a b : Server} (h : Quiet a b) : ¬Writes a b := by
  rintro (⟨row, hne⟩ | ⟨row, hrow, hnew⟩ | ⟨id, hin, hout⟩)
  · exact hne (congrArg (List.count row) h.contacts.symm)
  · exact hnew (List.mem_map_of_mem (h.chats ▸ hrow))
  · exact hin (h.awaiting ▸ hout)

theorem quiet_controllers {command : ServerCommand.Name} (hopen : requireLogin command = false)
    (h : controllers pg draw command tArg tReq s = .ok (req, s')) : Quiet s s' := by
  cases command with
  | create => exact quiet_follows.create h
  | login => exact quiet_follows.login h
  | exit => exact quiet_follows.exit h
  | _ => cases hopen

theorem route_owner {raw : Message} (hplain : PlainIds raw tReq s)
    (h : route pg draw (raw.request tReq) s = .ok (req, s')) (hwrites : Writes s s') :
    ∃ u, StoredFor s.db.toDatabase raw.word u ∧ Owned u s s' := by
  have hasked : Quiet s (asked s raw.word) := ⟨rfl, rfl, rfl⟩
  cases hvalid : tReq.mValid with
  | false =>
    rw [route_invalid pg draw raw s hvalid] at h
    exact absurd hwrites (related_of_ok h (quiet_refl s)).not_writes
  | true =>
    cases hlogin : requireLogin raw.command with
    | false =>
      obtain ⟨token, arguments, hroute⟩ := route_open hvalid hlogin
      rw [hroute] at h
      split at h
      · exact absurd hwrites (quiet_controllers hlogin h).not_writes
      · exact absurd hwrites (related_of_ok h (quiet_refl s)).not_writes
    | true =>
      rw [route_login pg draw s hvalid hlogin] at h
      split at h
      · exact absurd hwrites (related_of_ok h hasked).not_writes
      · next hstored =>
        have hfound := Bool.eq_false_of_not_eq_true hstored
        split at h
        · have hids : raw.command = .delivered → raw.arguments ≠ [] →
              ChatControllers.Plain (asked s raw.word).db.chats
                (Search.splitOn [comma] raw.arguments) := by
            intro hcommand hne
            exact hplain hvalid hcommand hfound hne
          have howned := owned_controllers (length_arguments_lt raw) hids h
          exact ⟨_, storedFor_of_token hfound, howned.contacts, howned.chats, howned.awaiting⟩
        · exact absurd hwrites (related_of_ok h hasked).not_writes

theorem searchUserByToken_unknown {db : Database} {token : ByteString}
    (h : ∀ t ∈ db.tokens, t.token ≠ some token) : searchUserByToken db token = User.empty := by
  have hnone : (db.tokens.filter fun t => t.token = some token) = [] := by
    apply List.filter_eq_nil_iff.mpr
    intro t ht
    simpa using h t ht
  rw [searchUserByToken, hnone]
  rfl

theorem route_refused {raw : Message} (pg : Engine) (draw : Draw) (tReq : Request)
    (h : ∀ t ∈ s.db.tokens, t.token ≠ some raw.word) (hcreate : raw.command ≠ .create)
    (hlogin : raw.command ≠ .login) (hexit : raw.command ≠ .exit) :
    ∃ req s', route pg draw (raw.request tReq) s = .ok (req, s') ∧ s'.db = s.db ∧
      s'.awaiting = s.awaiting ∧ req.mData =
        some (textData (Reply.getMessage (if tReq.mValid then .r202 else .r501))) := by
  cases hvalid : tReq.mValid with
  | false => exact ⟨_, _, route_invalid pg draw raw s hvalid, rfl, rfl, rfl⟩
  | true =>
    have hrequire : requireLogin raw.command = true := by
      simp [requireLogin, hcreate, hlogin, hexit]
    refine ⟨setRequestReply .r202 (raw.request tReq), asked s raw.word, ?_, rfl, rfl, rfl⟩
    rw [route_login pg draw s hvalid hrequire, searchUserByToken_unknown h]
    rfl

/-- What a query can do behind a text that is no numeral: insert an empty contact. -/
def insertingContact (_ : ByteString) (db : Tables) : Option (Tables × List ChatRow) :=
  some ({ db with contacts := db.contacts ++ [⟨none, none⟩] }, [unreadable])

theorem not_attributed {raw : Message} (draw : Draw) (hplain : ¬PlainIds raw tReq s) :
    ¬Attributed (Engine.basic.answering insertingContact) draw raw tReq s := by
  intro hattributed
  unfold PlainIds at hplain
  push Not at hplain
  obtain ⟨hvalid, hcommand, hstored, hne, hnumerals⟩ := hplain
  have hanswer : ∀ term, insertingContact term s.db = some ({ s.db with
      contacts := s.db.contacts ++ [⟨none, none⟩] }, [unreadable]) := fun _ => rfl
  obtain ⟨req, s', userChats, hresult, hdb, -⟩ :=
    route_answering draw hanswer hvalid hcommand hstored hne hnumerals
  have hcontacts : s'.db.contacts = s.db.contacts ++ [⟨none, none⟩] := by
    rw [hdb]
  have hcount : s.db.contacts.count ⟨none, none⟩ ≠ s'.db.contacts.count ⟨none, none⟩ := by
    rw [hcontacts, List.count_append]
    simp
  obtain ⟨u, -, howned⟩ := hattributed.owner req s' hresult (Or.inl ⟨_, hcount⟩)
  have huser := howned.contacts _ hcount
  cases huser

end

theorem route_attributed_iff (draw : Draw) (raw : Message) (tReq : Request) (s : Server) :
    (∀ pg, Attributed pg draw raw tReq s) ↔ PlainIds raw tReq s := by
  constructor
  · intro h
    by_contra hplain
    exact not_attributed draw hplain (h _)
  · intro hplain pg
    constructor
    · intro req s' hroute hwrites
      exact route_owner hplain hroute hwrites
    · intro hunknown hcreate hlogin hexit
      exact route_refused pg draw tReq hunknown hcreate hlogin hexit

def injected : ByteString :=
  str "7;INSERT INTO contacts (user_id) VALUES (2);SELECT * FROM chats WHERE id = 7"

def runInjected (term : ByteString) (db : Tables) : Option (Tables × List ChatRow) :=
  if term = injected then
    some ({ db with contacts := db.contacts ++ [⟨some 2, none⟩] },
      db.chats.entries.filter fun row => row.id = 7)
  else none

def injectedMessage : Message := ⟨str "DELIVERED abc " ++ injected, by decide⟩

/-- The token is john's, the contact mario's. -/
theorem route_adds_contact_of_other :
    ¬Attributed (Engine.basic.answering runInjected) sampleDraw injectedMessage johnRequest
      twoUsers := by
  intro h
  have hrun : (route (Engine.basic.answering runInjected) sampleDraw
      (injectedMessage.request johnRequest) twoUsers).map (fun result => result.2.db.contacts) =
        .ok (twoUsers.db.contacts ++ [⟨some 2, none⟩]) := by decide +kernel
  cases hroute : route (Engine.basic.answering runInjected) sampleDraw
      (injectedMessage.request johnRequest) twoUsers with
  | error e =>
    rw [hroute] at hrun
    cases hrun
  | ok result =>
    rw [hroute] at hrun
    have hcontacts : result.2.db.contacts = twoUsers.db.contacts ++ [⟨some 2, none⟩] :=
      Except.ok.inj hrun
    have hwritten : twoUsers.db.contacts.count (⟨some 2, none⟩ : ContactRow) ≠
        result.2.db.contacts.count ⟨some 2, none⟩ := by
      rw [hcontacts]
      decide
    obtain ⟨u, hstored, howned⟩ := h.owner result.1 result.2 hroute (Or.inl ⟨_, hwritten⟩)
    have hmario : (2 : ℤ) = u.toInt := Option.some.inj (howned.contacts _ hwritten)
    obtain ⟨t, ht, htoken, howner, -⟩ := hstored.stored
    have hjohn : t.userId = 1 := by
      rcases List.mem_cons.mp ht with rfl | ht
      · rfl
      · rw [List.mem_singleton.mp ht] at htoken
        exact absurd htoken (by decide)
    omega

end Skype.Router
