import Skype.ChatIds

/-!
# Whether replies depend on passwords

Two states that differ in passwords only become the same one when the passwords are
erased. Every controller but `login` and `available` commutes with that, so it answers
both states alike and leaves them alike; `available` prints the user it found with its
password.
-/

namespace Skype

open Library ControllerUtils Postgres

def UserRow.erased (row : UserRow) : UserRow := { row with password := [] }

def Database.erased (db : Database) : Database := { db with users := db.users.map UserRow.erased }

def Tables.erased (db : Tables) : Tables := { db with toDatabase := db.toDatabase.erased }

def Server.erased (s : Server) : Server := { s with db := s.db.erased }

def User.erased (user : User) : User := { user with mPassword := [] }

namespace User

@[simp] theorem mId_erased (user : User) : user.erased.mId = user.mId := rfl

@[simp] theorem mUsername_erased (user : User) : user.erased.mUsername = user.mUsername := rfl

@[simp] theorem mEmpty_erased (user : User) : user.erased.mEmpty = user.mEmpty := rfl

@[simp] theorem mOnline_erased (user : User) : user.erased.mOnline = user.mOnline := rfl

end User

def erasedResult (result : Exec (Request × Server)) : Exec (Request × Server) :=
  result.map fun answer => (answer.1, answer.2.erased)

namespace Postgres

theorem exec1_map {α β : Type} (f : α → β) (rows : List α) :
    exec1 (rows.map f) = (exec1 rows).map f := by
  match rows with
  | [] => rfl
  | [_] => rfl
  | _ :: _ :: _ => rfl

theorem filter_erased {p : UserRow → Bool} (h : ∀ row, p row.erased = p row) (db : Database) :
    db.erased.users.filter p = (db.users.filter p).map UserRow.erased := by
  rw [Database.erased, List.filter_map]
  congr 1
  apply List.filter_congr
  intro row hrow
  exact h row

theorem searchUserByToken_erased (db : Database) (tToken : ByteString) :
    searchUserByToken db.erased tToken = (searchUserByToken db tToken).erased := by
  have hjoin : ((db.erased.tokens.filter fun t => t.token = some tToken).flatMap fun t =>
      db.erased.users.filter fun u => t.userId = u.id) =
      ((db.tokens.filter fun t => t.token = some tToken).flatMap fun t =>
        db.users.filter fun u => t.userId = u.id).map UserRow.erased := by
    rw [List.map_flatMap]
    apply List.flatMap_congr
    intro t ht
    exact filter_erased (fun row => rfl) db
  rw [searchUserByToken, searchUserByToken, hjoin, exec1_map]
  cases exec1 ((db.tokens.filter fun t => t.token = some tToken).flatMap fun t =>
    db.users.filter fun u => t.userId = u.id) with
  | none => rfl
  | some row =>
    have hid : row.erased.id = row.id := rfl
    dsimp only [Option.map]
    rw [hid]
    cases toInt row.id with
    | none => rfl
    | some id => rfl

theorem searchUserBy_erased (pg : Engine) (db : Database) (tTerm : ByteString)
    (tField : UserField) :
    searchUserBy pg db.erased tTerm tField = (searchUserBy pg db tTerm tField).erased := by
  have hreads : ∀ row : UserRow, tField.reads pg tTerm row.erased = tField.reads pg tTerm row := by
    intro row
    cases tField with
    | username => rfl
    | id => rfl
    | address => rfl
  rw [searchUserBy, searchUserBy, filter_erased hreads, exec1_map]
  cases exec1 (db.users.filter (tField.reads pg tTerm)) with
  | none => rfl
  | some row =>
    have hid : row.erased.id = row.id := rfl
    dsimp only [Option.map]
    rw [rowToUser, rowToUser, hid]
    cases toInt row.id with
    | none => rfl
    | some id => rfl

theorem contactRows_erased (db : Database) (userId : ℤ) :
    contactRows db.erased userId = (contactRows db userId).map UserRow.erased := by
  rw [contactRows, contactRows, List.map_flatMap]
  apply List.flatMap_congr
  intro c hc
  exact filter_erased (fun row => rfl) db

theorem listContactsQuery_erased (db : Database) (tUser : User) :
    listContactsQuery db.erased tUser.erased = listContactsQuery db tUser := by
  have howners : (db.erased.contacts.flatMap fun c => db.erased.users.filter fun u =>
      c.userId = some u.id ∧ u.username = tUser.erased.mUsername) =
      (db.contacts.flatMap fun c => db.users.filter fun u =>
        c.userId = some u.id ∧ u.username = tUser.mUsername).map UserRow.erased := by
    rw [List.map_flatMap]
    apply List.flatMap_congr
    intro c hc
    exact filter_erased (fun row => rfl) db
  rw [listContactsQuery, listContactsQuery, howners]
  dsimp only
  rw [List.map_map]
  congr 1
  apply List.map_congr_left
  intro row hrow
  have hid : row.erased.id = row.id := rfl
  rw [Function.comp_apply, hid, contactRows_erased, List.map_map, List.map_map, List.map_map]
  rfl

theorem listUserContacts_erased (db : Database) (tUser : User) :
    listUserContacts db.erased tUser.erased = listUserContacts db tUser := by
  rw [listUserContacts, listContactsQuery_erased, listUserContacts]

theorem setPresence_erased (users : List UserRow) (userId : Int32) (online : Bool)
    (address : Option ByteString) :
    setPresence (users.map UserRow.erased) userId online address =
      (setPresence users userId online address).map UserRow.erased := by
  rw [setPresence, setPresence, List.map_map, List.map_map]
  apply List.map_congr_left
  intro row hrow
  have hid : row.erased.id = row.id := rfl
  rw [Function.comp_apply, Function.comp_apply, hid]
  split
  · rfl
  · rfl

end Postgres

theorem Database.erased_erased (db : Database) : db.erased.erased = db.erased := by
  rw [Database.erased, Database.erased, List.map_map]
  rfl

namespace Server

variable (pg : Engine) (draw : Draw) (s : Server)

theorem erased_erased : s.erased.erased = s.erased := by
  rw [erased, erased, Tables.erased, Tables.erased, Database.erased_erased]

variable {pg s} {user : User} {t : Server} in
theorem searchUserByToken_erased {tToken : ByteString}
    (h : s.searchUserByToken tToken = (user, t)) :
    s.erased.searchUserByToken tToken = (user.erased, t.erased) := by
  obtain ⟨rfl, rfl⟩ := Prod.mk.inj h
  exact congrArg (fun user => (user, (s.searchUserByToken tToken).2.erased))
    (Postgres.searchUserByToken_erased s.db.toDatabase tToken)

variable {pg s} {user : User} {t : Server} in
theorem searchUserBy_erased {tTerm : ByteString} {tField : UserField}
    (h : s.searchUserBy pg tTerm tField = (user, t)) :
    s.erased.searchUserBy pg tTerm tField = (user.erased, t.erased) := by
  obtain ⟨rfl, rfl⟩ := Prod.mk.inj h
  exact congrArg (fun user => (user, (s.searchUserBy pg tTerm tField).2.erased))
    (Postgres.searchUserBy_erased pg s.db.toDatabase tTerm tField)

theorem fields_of_erased {a b : Server} (h : a.erased = b.erased) :
    a.db.chats = b.db.chats ∧ a.db.contacts = b.db.contacts ∧ a.awaiting = b.awaiting ∧
      a.queries = b.queries := by
  have hchats := congrArg (fun s : Server => s.db.chats) h
  have hcontacts := congrArg (fun s : Server => s.db.contacts) h
  have hawaiting := congrArg Server.awaiting h
  have hqueries := congrArg Server.queries h
  exact ⟨hchats, hcontacts, hawaiting, hqueries⟩

theorem userOfToken_erased (tToken : ByteString) :
    Postgres.searchUserByToken s.erased.db.toDatabase tToken =
      (Postgres.searchUserByToken s.db.toDatabase tToken).erased :=
  Postgres.searchUserByToken_erased s.db.toDatabase tToken

theorem logoff_erased (userId : Int32) : s.erased.logoff userId = (s.logoff userId).erased := by
  have husers := setPresence_erased s.db.users userId false none
  rw [logoff, logoff, Postgres.logoff, Postgres.logoff]
  simp only [erased, Tables.erased, Database.erased, send]
  rw [husers]

theorem addUserChat_erased (tChat : UserChat) :
    s.erased.addUserChat pg draw tChat = (s.addUserChat pg draw tChat).erased := by
  have hdb : Postgres.addUserChat pg draw s.db.erased tChat =
      (Postgres.addUserChat pg draw s.db tChat).erased := by
    unfold Postgres.addUserChat
    have hchats : s.db.erased.chats = s.db.chats := rfl
    rw [hchats]
    split
    · rfl
    · rfl
  exact congrArg (fun db => { s.send (.addUserChat tChat.mDelivered) (addChatText tChat) with db })
    hdb

theorem addUser_erased (tUser : User) :
    (s.erased.addUser pg draw tUser).1 = (s.addUser pg draw tUser).1 ∧
      (s.erased.addUser pg draw tUser).2.erased = (s.addUser pg draw tUser).2.erased := by
  have hids : s.db.erased.users.map UserRow.id = s.db.users.map UserRow.id := by
    rw [Tables.erased, Database.erased, List.map_map]
    rfl
  have hnames : s.db.erased.users.map UserRow.username = s.db.users.map UserRow.username := by
    rw [Tables.erased, Database.erased, List.map_map]
    rfl
  have hdb : (Postgres.addUser pg draw s.db.erased tUser).1 =
        (Postgres.addUser pg draw s.db tUser).1 ∧
      (Postgres.addUser pg draw s.db.erased tUser).2.erased =
        (Postgres.addUser pg draw s.db tUser).2.erased := by
    unfold Postgres.addUser
    rw [hids, hnames]
    split
    · refine ⟨rfl, ?_⟩
      rw [Tables.erased, Tables.erased, Database.erased_erased]
    · refine ⟨rfl, ?_⟩
      simp only [Tables.erased, Database.erased, List.map_append, List.map_map]
      rfl
  refine ⟨hdb.1, ?_⟩
  exact congrArg (fun db => { s.send (.addUser tUser.mOnline) (addUserText tUser) with db }) hdb.2

end Server

namespace Router

variable (pg : Engine) (draw : Draw) (tArg : ByteString) (tReq : Request) (s : Server)

theorem erasedResult_reply (code : Reply.Code) (tMsg : ByteString) :
    (do let tReq ← setRequestReplyMsg code tMsg tReq
        return (tReq, s.erased) : Exec (Request × Server)) =
      erasedResult (do let tReq ← setRequestReplyMsg code tMsg tReq
                       return (tReq, s)) := by
  cases setRequestReplyMsg code tMsg tReq with
  | error e => rfl
  | ok req => rfl

theorem search_erased :
    UserControllers.search pg tArg tReq s.erased =
      erasedResult (UserControllers.search pg tArg tReq s) := by
  unfold UserControllers.search
  generalize hfound : s.searchUserBy pg tArg .username = found
  obtain ⟨user, t⟩ := found
  rw [Server.searchUserBy_erased hfound]
  dsimp only
  rw [User.mEmpty_erased]
  by_cases hempty : user.mEmpty = false
  · rw [if_pos hempty, if_pos hempty]
    exact erasedResult_reply tReq t .r201 _
  · rw [if_neg hempty, if_neg hempty]
    rfl

theorem exitUser_erased {user : User} {t : Server}
    (h : UserControllers.exitUser pg tReq s = (user, t)) :
    UserControllers.exitUser pg tReq s.erased = (user.erased, t.erased) := by
  unfold UserControllers.exitUser at h ⊢
  generalize hasked : s.searchUserByToken tReq.mToken = asked at h
  obtain ⟨first, a⟩ := asked
  rw [Server.searchUserByToken_erased hasked]
  dsimp only at h ⊢
  rw [User.mEmpty_erased]
  by_cases hempty : first.mEmpty = true
  · rw [if_pos hempty] at h ⊢
    exact Server.searchUserBy_erased h
  · rw [if_neg hempty] at h ⊢
    obtain ⟨rfl, rfl⟩ := Prod.mk.inj h
    rfl

theorem exit_erased :
    UserControllers.exit pg tReq s.erased = erasedResult (UserControllers.exit pg tReq s) := by
  unfold UserControllers.exit
  generalize hfound : UserControllers.exitUser pg tReq s = found
  obtain ⟨user, t⟩ := found
  rw [exitUser_erased pg tReq s hfound]
  have hlogoff : (if user.mEmpty then t.erased
        else (t.erased.logoff user.mId).removeUserToken user.mId) =
      (if user.mEmpty then t else (t.logoff user.mId).removeUserToken user.mId).erased := by
    split
    · rfl
    · rw [t.logoff_erased]
      rfl
  dsimp only
  rw [User.mEmpty_erased, User.mId_erased, hlogoff]
  exact erasedResult_reply _ _ .r201 (str "Goodbye")

theorem add_erased :
    UserControllers.add pg draw tArg tReq s.erased =
      ((UserControllers.add pg draw tArg tReq s).1,
        (UserControllers.add pg draw tArg tReq s).2.erased) := by
  unfold UserControllers.add
  generalize hasked : s.searchUserByToken tReq.mToken = asked
  obtain ⟨user, t⟩ := asked
  rw [Server.searchUserByToken_erased hasked]
  dsimp only
  generalize hfound : t.searchUserBy pg tArg .username = found
  obtain ⟨contact, t⟩ := found
  rw [Server.searchUserBy_erased hfound]
  have hexists : t.erased.userContactExists (UserControllers.idOf draw user.erased)
        (UserControllers.idOf draw contact.erased) =
      ((t.userContactExists (UserControllers.idOf draw user)
          (UserControllers.idOf draw contact)).1,
        (t.userContactExists (UserControllers.idOf draw user)
          (UserControllers.idOf draw contact)).2.erased) := rfl
  dsimp only
  rw [hexists, User.mUsername_erased, User.mUsername_erased, User.mEmpty_erased,
    User.mEmpty_erased, User.mId_erased, User.mId_erased]
  by_cases hsame : user.mUsername = contact.mUsername
  · rw [if_pos hsame, if_pos hsame]
  · rw [if_neg hsame, if_neg hsame]
    by_cases hknown : (t.userContactExists (UserControllers.idOf draw user)
        (UserControllers.idOf draw contact)).1 = true
    · rw [if_pos hknown, if_pos hknown]
    · rw [if_neg hknown, if_neg hknown]
      by_cases hboth : user.mEmpty = false ∧ contact.mEmpty = false
      · rw [if_pos hboth, if_pos hboth]
        rfl
      · rw [if_neg hboth, if_neg hboth]

theorem remove_erased :
    UserControllers.remove pg tArg tReq s.erased =
      ((UserControllers.remove pg tArg tReq s).1,
        (UserControllers.remove pg tArg tReq s).2.erased) := by
  unfold UserControllers.remove
  generalize hasked : s.searchUserByToken tReq.mToken = asked
  obtain ⟨user, t⟩ := asked
  rw [Server.searchUserByToken_erased hasked]
  dsimp only
  generalize hfound : t.searchUserBy pg tArg .username = found
  obtain ⟨contact, t⟩ := found
  rw [Server.searchUserBy_erased hfound]
  dsimp only
  rw [User.mEmpty_erased, User.mEmpty_erased]
  by_cases hboth : user.mEmpty = false ∧ contact.mEmpty = false
  · rw [if_pos hboth, if_pos hboth]
    rfl
  · rw [if_neg hboth, if_neg hboth]

theorem create_erased :
    erasedResult (UserControllers.create pg draw tArg tReq s.erased) =
      erasedResult (UserControllers.create pg draw tArg tReq s) := by
  unfold UserControllers.create
  cases StringUtils.splitFirst tArg (str " ") with
  | error e => rfl
  | ok pieces =>
    rw [ok_bind, ok_bind]
    dsimp only
    by_cases hempty : pieces.1 = [] ∨ pieces.2 = []
    · rw [if_pos hempty, if_pos hempty]
      exact congrArg (fun t => Except.ok (_, t)) s.erased_erased
    · rw [if_neg hempty, if_neg hempty]
      obtain ⟨hadded, hstate⟩ := s.addUser_erased pg draw
        ⟨0, pieces.1, pieces.2, false, tReq.mAddress, false⟩
      rw [hadded]
      exact congrArg (fun t => Except.ok (_, t)) hstate

theorem list_erased : list tReq s.erased = erasedResult (list tReq s) := by
  have hreply : UserControllers.list s.db.erased.toDatabase tReq s.awaiting =
      UserControllers.list s.db.toDatabase tReq s.awaiting := by
    have huser : searchUserByToken s.db.erased.toDatabase tReq.mToken =
        (searchUserByToken s.db.toDatabase tReq.mToken).erased := s.userOfToken_erased tReq.mToken
    have hcontacts : ∀ user : User, listUserContacts s.db.erased.toDatabase user.erased =
        listUserContacts s.db.toDatabase user :=
      listUserContacts_erased s.db.toDatabase
    unfold UserControllers.list
    rw [huser]
    dsimp only
    rw [hcontacts]
    rfl
  unfold list
  have hsame : UserControllers.list s.erased.db.toDatabase tReq s.erased.awaiting =
      UserControllers.list s.db.toDatabase tReq s.awaiting := hreply
  generalize hasked : s.searchUserByToken tReq.mToken = asked
  obtain ⟨user, t⟩ := asked
  rw [hsame, Server.searchUserByToken_erased hasked]
  cases UserControllers.list s.db.toDatabase tReq s.awaiting with
  | error e => rfl
  | ok req =>
    rw [ok_bind, ok_bind]
    dsimp only
    rw [User.mEmpty_erased]
    by_cases hempty : user.mEmpty = true
    · rw [if_pos hempty, if_pos hempty]
      rfl
    · rw [if_neg hempty, if_neg hempty]
      rfl

theorem send_erased :
    ChatControllers.send pg draw tArg tReq s.erased =
      erasedResult (ChatControllers.send pg draw tArg tReq s) := by
  unfold ChatControllers.send
  cases StringUtils.splitFirst tArg (str " ") with
  | error e => rfl
  | ok pieces =>
    rw [ok_bind, ok_bind]
    dsimp only
    generalize hasked : s.searchUserByToken _ = asked
    obtain ⟨user, t⟩ := asked
    rw [Server.searchUserByToken_erased hasked]
    dsimp only
    generalize hfound : t.searchUserBy pg pieces.1 .id = found
    obtain ⟨recipient, t⟩ := found
    rw [Server.searchUserBy_erased hfound]
    dsimp only
    rw [User.mEmpty_erased, User.mEmpty_erased]
    by_cases hboth : user.mEmpty = false ∧ recipient.mEmpty = false
    · rw [if_pos hboth, if_pos hboth, User.mId_erased, User.mId_erased, t.addUserChat_erased]
      rfl
    · rw [if_neg hboth, if_neg hboth]
      rfl

theorem replyChats_erased (chats : List UserChat) :
    ChatControllers.replyChats chats tReq s.erased =
      erasedResult (ChatControllers.replyChats chats tReq s) :=
  erasedResult_reply tReq s .r201 (ChatControllers.buildResponse chats)

theorem getChats_erased (tPending : Bool) :
    ChatControllers.getChats pg tArg tReq tPending s.erased =
      erasedResult (ChatControllers.getChats pg tArg tReq tPending s) := by
  unfold ChatControllers.getChats
  generalize hasked : s.searchUserByToken tReq.mToken = asked
  obtain ⟨user, t⟩ := asked
  rw [Server.searchUserByToken_erased hasked]
  dsimp only
  rw [User.mEmpty_erased]
  by_cases hempty : user.mEmpty = true
  · rw [if_pos hempty, if_pos hempty]
    rfl
  · rw [if_neg hempty, if_neg hempty]
    by_cases hall : tArg = []
    · rw [if_pos hall, if_pos hall]
      exact replyChats_erased tReq (t.listUserChats pg user.mId tPending none).2
        (t.listUserChats pg user.mId tPending none).1
    · rw [if_neg hall, if_neg hall]
      generalize hfound : t.searchUserBy pg tArg .id = found
      obtain ⟨chatsWith, t⟩ := found
      rw [Server.searchUserBy_erased hfound]
      dsimp only
      rw [User.mEmpty_erased]
      by_cases hnobody : chatsWith.mEmpty = true
      · rw [if_pos hnobody, if_pos hnobody]
        rfl
      · rw [if_neg hnobody, if_neg hnobody]
        exact replyChats_erased tReq (t.listUserChats pg user.mId tPending (some chatsWith.mId)).2
          (t.listUserChats pg user.mId tPending (some chatsWith.mId)).1

theorem findChats_erased {ids : List ByteString} (h : ChatControllers.Plain s.db.chats ids) :
    ChatControllers.findChats pg s.erased ids =
      ((ChatControllers.findChats pg s ids).1, (ChatControllers.findChats pg s ids).2.erased) := by
  induction ids generalizing s with
  | nil => rfl
  | cons id ids ih =>
    obtain ⟨hnumeral, hrest⟩ := h
    have hlookup := ChatControllers.searchUserChatBy_numeral pg s.db hnumeral
    have hfound : s.searchUserChatBy pg id = (ChatControllers.numeralChat s.db.chats id,
        s.send .searchUserChatBy (searchChatText id)) := by
      rw [Server.searchUserChatBy, hlookup]
      rfl
    have herased : s.erased.searchUserChatBy pg id = (ChatControllers.numeralChat s.db.chats id,
        (s.send .searchUserChatBy (searchChatText id)).erased) := by
      rw [Server.searchUserChatBy, ChatControllers.searchUserChatBy_numeral pg s.erased.db hnumeral]
      rfl
    rw [ChatControllers.findChats_cons, ChatControllers.findChats_cons, hfound, herased]
    dsimp only
    by_cases hempty : (ChatControllers.numeralChat s.db.chats id).mEmpty = true
    · rw [if_pos hempty, if_pos hempty]
    · rw [if_neg hempty, if_neg hempty]
      have hplain := hrest (Bool.eq_false_of_not_eq_true hempty)
      rw [ih (s.send .searchUserChatBy (searchChatText id)) hplain]

theorem setAllDelivered_erased (userChats : List UserChat) :
    ChatControllers.setAllDelivered s.erased userChats =
      (ChatControllers.setAllDelivered s userChats).erased := by
  induction userChats generalizing s with
  | nil => rfl
  | cons chat userChats ih =>
    rw [ChatControllers.setAllDelivered_cons, ChatControllers.setAllDelivered_cons, ← ih]
    congr 1
    split
    · rfl
    · rfl

theorem delivered_erased (hshort : tArg.length < 2 ^ 31)
    (hplain : tArg ≠ [] → ChatControllers.Plain s.db.chats (Search.splitOn [comma] tArg)) :
    ChatControllers.delivered pg tArg tReq s.erased =
      erasedResult (ChatControllers.delivered pg tArg tReq s) := by
  by_cases hne : tArg = []
  · rw [ChatControllers.delivered, ChatControllers.delivered, if_pos hne, if_pos hne]
    rfl
  · rw [ChatControllers.delivered_eq pg hshort hne, ChatControllers.delivered_eq pg hshort hne,
      findChats_erased pg s (hplain hne)]
    dsimp only
    cases (ChatControllers.findChats pg s (Search.splitOn [comma] tArg)).1 with
    | error id => rfl
    | ok userChats =>
      dsimp only
      rw [setAllDelivered_erased]
      rfl

theorem onCalls_erased (result : Exec (Request × AwaitingUsers)) :
    onCalls tReq s.erased result = erasedResult (onCalls tReq s result) := by
  cases result with
  | error e => rfl
  | ok answer => rfl

theorem controllers_erased {command : ServerCommand.Name} (hlogin : command ≠ .login)
    (havailable : command ≠ .available) (hshort : command = .delivered → tArg.length < 2 ^ 31)
    (hplain : command = .delivered → tArg ≠ [] →
      ChatControllers.Plain s.db.chats (Search.splitOn [comma] tArg)) :
    erasedResult (controllers pg draw command tArg tReq s.erased) =
      erasedResult (controllers pg draw command tArg tReq s) := by
  have hagain : ∀ result, erasedResult (erasedResult result) = erasedResult result := by
    intro result
    cases result with
    | error e => rfl
    | ok answer => exact congrArg (fun t => Except.ok (answer.1, t)) answer.2.erased_erased
  have huser := s.userOfToken_erased tReq.mToken
  cases command with
  | login => exact absurd rfl hlogin
  | available => exact absurd rfl havailable
  | create => exact create_erased pg draw tArg tReq s
  | list =>
    rw [controllers, list_erased, hagain]
    rfl
  | search =>
    rw [controllers, search_erased, hagain]
    rfl
  | add =>
    rw [controllers, add_erased]
    exact hagain (.ok (UserControllers.add pg draw tArg tReq s))
  | remove =>
    rw [controllers, remove_erased]
    exact hagain (.ok (UserControllers.remove pg tArg tReq s))
  | exit =>
    rw [controllers, exit_erased, hagain]
    rfl
  | send =>
    rw [controllers, send_erased, hagain]
    rfl
  | pending =>
    rw [controllers, ChatControllers.pending, getChats_erased, hagain]
    rfl
  | chat =>
    rw [controllers, ChatControllers.chat, getChats_erased, hagain]
    rfl
  | delivered =>
    rw [controllers, delivered_erased pg tArg tReq s (hshort rfl) (hplain rfl), hagain]
    rfl
  | connect =>
    rw [controllers, onCalls_erased, hagain, CallControllers.connect, huser]
    rfl
  | accept =>
    rw [controllers, onCalls_erased, hagain, CallControllers.accept, huser]
    rfl
  | hangup =>
    rw [controllers, onCalls_erased, hagain, CallControllers.hangup, huser]
    rfl
  | reject =>
    rw [controllers, onCalls_erased, hagain, CallControllers.reject, huser]
    rfl
  | ping =>
    rw [controllers, onCalls_erased, hagain, CallControllers.ping, huser]
    rfl
  | none => exact hagain (.ok (UserControllers.none tReq, s))

/-! ### `AVAILABLE` -/

def availableReply (user : User) : Request :=
  if user.mEmpty then setRequestReply .r301 tReq
  else if user.mOnline = false then setRequestReply .r300 tReq
  else tReq.setData (textData (str "201 " ++ user.toString))

theorem available_eq :
    UserControllers.available pg tArg tReq s =
      .ok (availableReply tReq (searchUserBy pg s.db.toDatabase tArg .username),
        s.send (.searchUserBy .username) (searchUserText tArg .username)) := by
  have hsearch : s.searchUserBy pg tArg .username =
      (searchUserBy pg s.db.toDatabase tArg .username,
        s.send (.searchUserBy .username) (searchUserText tArg .username)) := rfl
  rw [UserControllers.available, hsearch]
  dsimp only [availableReply]
  split
  · rfl
  · split
    · rfl
    · rw [setRequestReplyMsg, Reply.appendMessage_r201]
      rfl

def nameText (user : User) : ByteString :=
  str "id:" ++ intToString user.mId ++ str ",username:" ++ user.mUsername

def presenceText (user : User) : ByteString :=
  str ",online:" ++ (if user.mOnline then str "true" else str "false") ++ str ",address:" ++
    user.mAddress

theorem toString_without {user : User} (h : user.mPassword = []) :
    ∃ rest, user.toString = nameText user ++ (str ",online:" ++ rest) := by
  by_cases haddress : user.mAddress = []
  · refine ⟨if user.mOnline then str "true" else str "false", ?_⟩
    rw [User.toString, if_pos ⟨h, haddress⟩, nameText, List.append_assoc _ (str ",online:")]
  · refine ⟨(if user.mOnline then str "true" else str "false") ++ (str ",address:" ++
      user.mAddress), ?_⟩
    rw [User.toString, if_neg fun hboth => haddress hboth.2, if_pos h, nameText]
    simp only [List.append_assoc]

theorem toString_with {user : User} (h : user.mPassword ≠ []) :
    user.toString =
      nameText user ++ (str ",password:" ++ (user.mPassword ++ presenceText user)) := by
  rw [User.toString, if_neg fun hboth => h hboth.1, if_neg h, nameText, presenceText]
  simp only [List.append_assoc]

theorem toString_inj {u v : User} (hsame : u.erased = v.erased) (h : u.toString = v.toString) :
    u.mPassword = v.mPassword := by
  have hname : nameText u = nameText v := by
    have htext := congrArg nameText hsame
    exact htext
  have hpresence : presenceText u = presenceText v := by
    have htext := congrArg presenceText hsame
    exact htext
  have hkeys : ∀ a b, str ",online:" ++ a ≠ str ",password:" ++ b := by
    intro a b hab
    cases hab
  by_cases hu : u.mPassword = []
  · obtain ⟨rest, hrest⟩ := toString_without hu
    by_cases hv : v.mPassword = []
    · exact hu.trans hv.symm
    · rw [hrest, toString_with hv, hname] at h
      exact absurd (List.append_cancel_left h) (hkeys _ _)
  · by_cases hv : v.mPassword = []
    · obtain ⟨rest, hrest⟩ := toString_without hv
      rw [hrest, toString_with hu, hname] at h
      exact absurd (List.append_cancel_left h).symm (hkeys _ _)
    · rw [toString_with hu, toString_with hv, hname, hpresence] at h
      exact List.append_cancel_right (List.append_cancel_left (List.append_cancel_left h))

theorem availableReply_iff {u v : User} (hsame : u.erased = v.erased) :
    (availableReply tReq u).mData = (availableReply tReq v).mData ↔
      (u.mEmpty = false → u.mOnline = true → u.mPassword = v.mPassword) := by
  have hempty : u.mEmpty = v.mEmpty := by
    rw [← u.mEmpty_erased, hsame, v.mEmpty_erased]
  have honline : u.mOnline = v.mOnline := by
    rw [← u.mOnline_erased, hsame, v.mOnline_erased]
  rw [availableReply, availableReply, ← hempty, ← honline]
  by_cases hnobody : u.mEmpty = true
  · rw [if_pos hnobody, if_pos hnobody, hnobody]
    simp
  · rw [if_neg hnobody, if_neg hnobody]
    by_cases hoffline : u.mOnline = false
    · rw [if_pos hoffline, if_pos hoffline, hoffline]
      simp
    · rw [if_neg hoffline, if_neg hoffline]
      constructor
      · intro h hfound hon
        apply toString_inj hsame
        simpa [Request.setData, textData] using h
      · intro h
        have hpassword := h (Bool.eq_false_of_not_eq_true hnobody)
          (Bool.eq_true_of_not_eq_false hoffline)
        have huser : u = v := by
          obtain ⟨id, username, p, online, address, empty⟩ := u
          obtain ⟨id', username', q, online', address', empty'⟩ := v
          simp only [User.erased, User.mk.injEq] at hsame hpassword ⊢
          obtain ⟨hid, hname, -, honline, haddress, hempty⟩ := hsame
          exact ⟨hid, hname, hpassword, honline, haddress, hempty⟩
        rw [huser]

/-- What a message shows: the text of its reply, and the state behind it but for the
passwords. -/
def shown (result : Exec (Request × Server)) : Exec (Option Data × Server) :=
  result.map fun answer => (answer.1.mData, answer.2.erased)

def namedUser (raw : Message) (s : Server) : User :=
  searchUserBy Engine.basic s.db.toDatabase raw.arguments .username

/-- A valid `AVAILABLE` for a user who is online prints the same password in both states. -/
def PrintsAlike (raw : Message) (tReq : Request) (a b : Server) : Prop :=
  tReq.mValid = true → raw.command = .available →
    (searchUserByToken a.db.toDatabase raw.word).mEmpty = false → raw.arguments ≠ [] →
    (namedUser raw a).mEmpty = false → (namedUser raw a).mOnline = true →
      (namedUser raw a).mPassword = (namedUser raw b).mPassword

theorem shown_of_erasedResult {x y : Exec (Request × Server)}
    (h : erasedResult x = erasedResult y) : shown x = shown y := by
  have htwice : ∀ result, shown result = (erasedResult result).map fun answer =>
      (answer.1.mData, answer.2) := by
    intro result
    cases result with
    | error e => rfl
    | ok answer => rfl
  rw [htwice, htwice, h]

section

variable {pg : Engine} {draw : Draw} {raw : Message} {tReq : Request} {a b : Server}

theorem route_erased (s : Server) (hlogin : raw.command ≠ .login)
    (havailable : raw.command ≠ .available) (hplain : PlainIds raw tReq s) :
    erasedResult (route pg draw (raw.request tReq) s.erased) =
      erasedResult (route pg draw (raw.request tReq) s) := by
  have hstate : ∀ (req : Request) (t : Server),
      erasedResult (.ok (req, t.erased)) = erasedResult (.ok (req, t)) :=
    fun req t => congrArg (fun t => Except.ok (req, t)) t.erased_erased
  cases hvalid : tReq.mValid with
  | false =>
    rw [route_invalid pg draw raw s hvalid, route_invalid pg draw raw s.erased hvalid]
    exact hstate _ s
  | true =>
    cases hrequire : requireLogin raw.command with
    | false =>
      obtain ⟨token, arguments, hroute⟩ := route_open hvalid hrequire
      rw [hroute, hroute]
      by_cases hargument : validateArgument raw.command arguments = true
      · rw [if_pos hargument, if_pos hargument]
        have hopen : raw.command ≠ .delivered := by
          intro hcommand
          rw [hcommand] at hrequire
          cases hrequire
        exact controllers_erased pg draw arguments _ s hlogin havailable
          (fun hcommand => absurd hcommand hopen) (fun hcommand => absurd hcommand hopen)
      · rw [if_neg hargument, if_neg hargument]
        exact hstate _ s
    | true =>
      have htoken : (searchUserByToken s.erased.db.toDatabase raw.word).mEmpty =
          (searchUserByToken s.db.toDatabase raw.word).mEmpty := by
        rw [s.userOfToken_erased, User.mEmpty_erased]
      have hasked : asked s.erased raw.word = (asked s raw.word).erased := rfl
      rw [route_login pg draw s hvalid hrequire, route_login pg draw s.erased hvalid hrequire,
        htoken, hasked]
      by_cases hempty : (searchUserByToken s.db.toDatabase raw.word).mEmpty = true
      · rw [if_pos hempty, if_pos hempty]
        exact hstate _ (asked s raw.word)
      · rw [if_neg hempty, if_neg hempty]
        by_cases hargument : validateArgument raw.command raw.arguments = true
        · rw [if_pos hargument, if_pos hargument]
          apply controllers_erased pg draw _ _ (asked s raw.word) hlogin havailable
            (fun _ => length_arguments_lt raw)
          intro hcommand hne
          exact hplain hvalid hcommand (Bool.eq_false_of_not_eq_true hempty) hne
        · rw [if_neg hargument, if_neg hargument]
          exact hstate _ (asked s raw.word)

theorem route_available (s : Server) (hcommand : raw.command = .available) :
    route pg draw (raw.request tReq) s =
      if tReq.mValid = false then .ok (invalidCommand (raw.request tReq), s)
      else if (searchUserByToken s.db.toDatabase raw.word).mEmpty then
        .ok (setRequestReply .r202 (raw.request tReq), asked s raw.word)
      else if raw.arguments = [] then .ok (invalidCommand (raw.request tReq), asked s raw.word)
      else
        .ok (availableReply { raw.request tReq with mToken := raw.word } (namedUser raw s),
          (asked s raw.word).send (.searchUserBy .username)
            (searchUserText raw.arguments .username)) := by
  have hrequire : requireLogin raw.command = true := by
    rw [hcommand]
    rfl
  cases hvalid : tReq.mValid with
  | false => exact route_invalid pg draw raw s hvalid
  | true =>
    rw [route_login pg draw s hvalid hrequire, hcommand]
    by_cases hempty : (searchUserByToken s.db.toDatabase raw.word).mEmpty = true
    · rw [if_pos hempty, if_pos hempty]
      rfl
    · rw [if_neg hempty, if_neg hempty]
      by_cases hnone : raw.arguments = []
      · rw [if_pos hnone, hnone]
        rfl
      · have hargument : validateArgument .available raw.arguments = true := by
          cases harg : raw.arguments with
          | nil => exact absurd harg hnone
          | cons c rest => rfl
        rw [if_neg hnone, if_pos hargument, controllers, available_eq]
        rfl

theorem shown_available_iff (hsame : a.erased = b.erased) (hcommand : raw.command = .available) :
    shown (route pg draw (raw.request tReq) a) = shown (route pg draw (raw.request tReq) b) ↔
      PrintsAlike raw tReq a b := by
  have htoken : (searchUserByToken a.db.toDatabase raw.word).mEmpty =
      (searchUserByToken b.db.toDatabase raw.word).mEmpty := by
    rw [← User.mEmpty_erased, ← a.userOfToken_erased, hsame, b.userOfToken_erased,
      User.mEmpty_erased]
  have hnamed : (namedUser raw a).erased = (namedUser raw b).erased := by
    rw [namedUser, namedUser, ← Postgres.searchUserBy_erased, ← Postgres.searchUserBy_erased]
    exact congrArg (fun s : Server => searchUserBy Engine.basic s.db.toDatabase raw.arguments
      .username) hsame
  have hshown : ∀ (req : Request) (f : Server → Server), (∀ s, (f s).erased = f s.erased) →
      shown (.ok (req, f a)) = shown (.ok (req, f b)) := by
    intro req f hf
    have hstate : (f a).erased = (f b).erased := by rw [hf, hf, hsame]
    exact congrArg (fun t => Except.ok (req.mData, t)) hstate
  rw [route_available a hcommand, route_available b hcommand, ← htoken]
  by_cases hvalid : tReq.mValid = false
  · rw [if_pos hvalid, if_pos hvalid]
    apply iff_of_true (hshown _ id fun s => rfl)
    intro htrue
    rw [hvalid] at htrue
    cases htrue
  rw [if_neg hvalid, if_neg hvalid]
  by_cases hempty : (searchUserByToken a.db.toDatabase raw.word).mEmpty = true
  · rw [if_pos hempty, if_pos hempty]
    apply iff_of_true (hshown _ (fun s => asked s raw.word) fun s => rfl)
    intro _ _ hstored
    rw [hempty] at hstored
    cases hstored
  rw [if_neg hempty, if_neg hempty]
  by_cases hnone : raw.arguments = []
  · rw [if_pos hnone, if_pos hnone]
    apply iff_of_true (hshown _ (fun s => asked s raw.word) fun s => rfl)
    intro _ _ _ hne
    exact absurd hnone hne
  rw [if_neg hnone, if_neg hnone]
  have hreply := availableReply_iff { raw.request tReq with mToken := raw.word } hnamed
  constructor
  · intro h _ _ _ _
    apply hreply.mp
    exact congrArg Prod.fst (Except.ok.inj h)
  · intro h
    have hdata := hreply.mpr (h (Bool.eq_true_of_not_eq_false hvalid) hcommand
      (Bool.eq_false_of_not_eq_true hempty) hnone)
    have hstate := hshown { raw.request tReq with mToken := raw.word }
      (fun s => (asked s raw.word).send (.searchUserBy .username)
        (searchUserText raw.arguments .username)) fun s => rfl
    have hafter := congrArg Prod.snd (Except.ok.inj hstate)
    exact congrArg Except.ok (Prod.ext hdata hafter)

theorem plainIds_of_same (hsame : a.erased = b.erased) (h : PlainIds raw tReq a) :
    PlainIds raw tReq b := by
  have hchats := (Server.fields_of_erased hsame).1
  intro hvalid hcommand hstored
  rw [← User.mEmpty_erased, ← b.userOfToken_erased, ← hsame, a.userOfToken_erased,
    User.mEmpty_erased] at hstored
  rw [← hchats]
  exact h hvalid hcommand hstored

theorem shown_of_other_ids (hsame : a.erased = b.erased) (hne : a ≠ b)
    (hplain : ¬PlainIds raw tReq a) :
    ∃ pg, shown (route pg draw (raw.request tReq) a) ≠
      shown (route pg draw (raw.request tReq) b) := by
  classical
  have hplain' : ¬PlainIds raw tReq b := fun h => hplain (plainIds_of_same hsame.symm h)
  unfold PlainIds at hplain hplain'
  push Not at hplain hplain'
  obtain ⟨hvalid, hcommand, hstoredA, hargs, hnumeralsA⟩ := hplain
  obtain ⟨-, -, hstoredB, -, hnumeralsB⟩ := hplain'
  have hdb : b.db ≠ a.db := by
    intro hdb
    apply hne
    obtain ⟨-, -, hawaiting, hqueries⟩ := Server.fields_of_erased hsame
    rcases a with ⟨adb, awaiting, queries⟩
    rcases b with ⟨bdb, awaiting', queries'⟩
    simp only [Server.mk.injEq]
    exact ⟨hdb.symm, hawaiting, hqueries⟩
  let wider : Tables := { a.db with contacts := a.db.contacts ++ [⟨none, none⟩] }
  let answer : ByteString → Tables → Option (Tables × List ChatRow) :=
    fun _ db => if db = a.db then some (wider, [unreadable]) else some (db, [unreadable])
  refine ⟨Engine.basic.answering answer, ?_⟩
  intro h
  have hanswerA : ∀ term, answer term a.db = some (wider, [unreadable]) := fun _ => if_pos rfl
  have hanswerB : ∀ term, answer term b.db = some (b.db, [unreadable]) := fun _ => if_neg hdb
  obtain ⟨ra, sa, -, hrouteA, hafterA, -⟩ :=
    route_answering draw hanswerA hvalid hcommand hstoredA hargs hnumeralsA
  obtain ⟨rb, sb, -, hrouteB, hafterB, -⟩ :=
    route_answering draw hanswerB hvalid hcommand hstoredB hargs hnumeralsB
  rw [hrouteA, hrouteB] at h
  have hstate : sa.erased = sb.erased := congrArg Prod.snd (Except.ok.inj h)
  have hcontacts := (Server.fields_of_erased hstate).2.1
  have hbefore := (Server.fields_of_erased hsame).2.1
  rw [hafterA, hafterB, ← hbefore] at hcontacts
  have hlength := congrArg List.length hcontacts
  simp [wider] at hlength

/-- The reply and the state depend on no password, but for what `AVAILABLE` prints and
for what the database makes of other ids. -/
theorem route_hides_passwords_iff (draw : Draw) (raw : Message) (tReq : Request)
    (hlogin : raw.command ≠ .login) (hsame : a.erased = b.erased) :
    (∀ pg, shown (route pg draw (raw.request tReq) a) =
        shown (route pg draw (raw.request tReq) b)) ↔
      (PlainIds raw tReq a ∨ a = b) ∧ PrintsAlike raw tReq a b := by
  have havailable : (∀ pg, shown (route pg draw (raw.request tReq) a) =
      shown (route pg draw (raw.request tReq) b)) → PrintsAlike raw tReq a b := by
    intro h hvalid hcommand
    exact (shown_available_iff hsame hcommand).mp (h Engine.basic) hvalid hcommand
  constructor
  · intro h
    refine ⟨?_, havailable h⟩
    by_contra hneither
    push Not at hneither
    obtain ⟨pg, hshown⟩ := shown_of_other_ids hsame hneither.2 hneither.1
    exact hshown (h pg)
  · rintro ⟨hids, hprints⟩ pg
    by_cases hcommand : raw.command = .available
    · exact (shown_available_iff hsame hcommand).mpr hprints
    · rcases hids with hplain | rfl
      · apply shown_of_erasedResult
        rw [← route_erased a hlogin hcommand hplain, hsame,
          route_erased b hlogin hcommand (plainIds_of_same hsame hplain)]
      · rfl

end

def otherPassword : Server :=
  { twoUsers with
    db := { twoUsers.db with
      users := [⟨1, str "john", str "1234", true, some (str "10.0.0.1:4000")⟩,
        ⟨2, str "mario", str "8765", true, some (str "10.0.0.2:4000")⟩] } }

def searchMessage : Message := ⟨str "SEARCH abc mario", by decide⟩

def availableMessage : Message := ⟨str "AVAILABLE abc mario", by decide⟩

theorem route_hides_passwords_search :
    shown (route Engine.basic sampleDraw (searchMessage.request johnRequest) twoUsers) =
      shown (route Engine.basic sampleDraw (searchMessage.request johnRequest) otherPassword) := by
  have hcommand : searchMessage.command = .search := by decide +kernel
  have hlogin : searchMessage.command ≠ .login := by
    rw [hcommand]
    decide
  have hiff := route_hides_passwords_iff sampleDraw searchMessage johnRequest hlogin
    (rfl : twoUsers.erased = otherPassword.erased)
  apply hiff.mpr
  constructor
  · left
    intro _ hdelivered
    rw [hcommand] at hdelivered
    cases hdelivered
  · intro _ havailable
    rw [hcommand] at havailable
    cases havailable

theorem route_shows_password :
    ¬∀ (raw : Message) (tReq : Request) (a b : Server), raw.command ≠ .login →
      a.erased = b.erased →
      shown (route Engine.basic sampleDraw (raw.request tReq) a) =
        shown (route Engine.basic sampleDraw (raw.request tReq) b) := by
  intro h
  have hshown := h availableMessage johnRequest twoUsers otherPassword (by decide +kernel) rfl
  have hreply := congrArg (fun result => result.map Prod.fst) hshown
  exact absurd hreply (by decide +kernel)

end Router

end Skype
