import Skype.Library.Keyed
import Skype.Library.Sql
import Skype.Postgres
import Skype.UserAwaiting
import Skype.UserChat

/-!
# The tables of the server and the methods of `Postgres`

The tables hold what `Postgres.lean` has and the chats. A method writes to the tables
when its statement succeeds; what the database makes of a text that is not one of its
own values is a field of `Engine`. Every method keeps the query it built in `queries`.
-/

namespace Skype

open Library

structure Timestamp where
  text : ByteString
  plain : comma ∉ text
  deriving DecidableEq

structure ChatRow where
  id : ℤ
  createdAt : Timestamp
  senderId : Int32
  recipientId : Int32
  delivered : Bool
  text : Option ByteString
  deriving DecidableEq

structure Tables extends Database where
  chats : Keyed ChatRow.id

def IsNumeral (text : ByteString) : Prop := text ≠ [] ∧ ∀ b ∈ text, Decimal.isDigit b = true

instance (text : ByteString) : Decidable (IsNumeral text) :=
  inferInstanceAs (Decidable (_ ∧ _))

/-- The database behind the connection: which quoted texts it reads as an id and which
texts its columns take, an order in which it lists chats (any one; that it is by `created_at`
is assumed only where it matters), and the effect and the rows of `SELECT * FROM chats WHERE
id = ` with any text behind it. -/
structure Engine where
  quoting : Sql.Quoting
  readId : ByteString → Option ℤ
  takesVarchar : ByteString → Bool
  takesText : ByteString → Bool
  order : List ChatRow → List ChatRow
  order_perm : ∀ rows, (order rows).Perm rows
  selectChats : ByteString → Tables → Option (Tables × List ChatRow)
  selectChats_numeral : ∀ term, IsNumeral term → ∀ db, selectChats term db =
    some (db, db.chats.entries.filter fun row : ChatRow => row.id = (Decimal.value term : ℤ))

/-- What a request draws from outside the tables: the generated token, the values of the
sequences and the clock, and the indeterminate id of an empty `User`. -/
structure Draw where
  token : ByteString
  userId : ℤ
  chatId : ℤ
  createdAt : Timestamp
  emptyId : Int32

namespace Postgres

inductive UserField
  | username
  | id
  | address
  deriving DecidableEq

def UserField.column : UserField → ByteString
  | .username => str "username"
  | .id => str "id"
  | .address => str "address"

inductive Method
  | listUserContacts
  | listUserChats (pending withSender : Bool)
  | searchUserByToken
  | searchUserBy (field : UserField)
  | searchUserChatBy
  | userContactExists
  | addUser (online : Bool)
  | addUserChat (delivered : Bool)
  | addUserContact
  | addUserToken
  | removeUserToken
  | removeUserContact
  | updateUser
  | setUserChatToDelivered
  | logoff
  deriving DecidableEq

end Postgres

structure SentQuery where
  method : Postgres.Method
  query : Sql.Query

structure Server where
  db : Tables
  awaiting : AwaitingUsers
  queries : List SentQuery

namespace Server

def send (s : Server) (method : Postgres.Method) (query : Sql.Query) : Server :=
  { s with queries := s.queries ++ [⟨method, query⟩] }

@[simp] theorem db_send (s : Server) (method : Postgres.Method) (query : Sql.Query) :
    (s.send method query).db = s.db := rfl

@[simp] theorem awaiting_send (s : Server) (method : Postgres.Method) (query : Sql.Query) :
    (s.send method query).awaiting = s.awaiting := rfl

end Server

namespace Postgres

open Sql (Query)

def quoteInt (i : Int32) : Sql.Param := .quoted (intToString i)

/-! ### The texts of the queries -/

def listContactsText (username : ByteString) : Query where
  params := [(str "SELECT DISTINCT U.username, (SELECT STRING_AGG(U1.id::VARCHAR, ',') AS id " ++
      str "FROM contacts C1 INNER JOIN users U1 ON C1.contact_id = U1.id " ++
      str "WHERE U.id = C1.user_id ), " ++
      str "( SELECT DISTINCT STRING_AGG(U2.username, ',') AS contacts FROM contacts C2 " ++
      str "INNER JOIN users U2 ON C2.contact_id = U2.id WHERE U.id = C2.user_id ), " ++
      str "( SELECT DISTINCT STRING_AGG(U4.online::VARCHAR, ',') AS online FROM contacts C4 " ++
      str "INNER JOIN users U4 ON C4.contact_id = U4.id WHERE U.id = C4.user_id ) " ++
      str "FROM contacts C JOIN users U ON C.user_id = U.id WHERE U.username = ", .quoted username)]
  tail := str ";"

def listChatsText (userId : Int32) (tPending : Bool) (senderId : Option Int32) : Query where
  params := [(str "SELECT DISTINCT id, created_at, sender_id, recipient_id, text, delivered " ++
      str "FROM chats WHERE ( recipient_id = ", .number userId.toInt)] ++
    (match senderId with
      | some id => [(str " AND sender_id = ", .number id.toInt)]
      | none => []) ++
    (if tPending = false ∧ senderId = none then
      [(str " )  OR sender_id = ", .number userId.toInt)] else [])
  tail := (if tPending = true then str " AND delivered = FALSE ) "
    else if senderId = none then [] else str " ) ") ++ str " ORDER BY created_at ASC;"

def searchTokenText (tToken : ByteString) : Query where
  params := [(str "SELECT T.user_id, U.username, U.password, U.online, COALESCE(U.address, ' ') " ++
      str "FROM tokens AS T JOIN users AS U ON T.user_id = U.id WHERE t.token = ", .quoted tToken)]
  tail := []

def searchUserText (tTerm : ByteString) (tField : UserField) : Query where
  params := [(str "SELECT id, username, password, online, COALESCE(address, ' ') " ++
      str "FROM users WHERE " ++ tField.column ++ str " = ", .quoted tTerm)]
  tail := []

/-- The term stands in the query as it is. -/
def searchChatText (tTerm : ByteString) : Query where
  params := []
  tail := str "SELECT * FROM chats WHERE id" ++ str " = " ++ tTerm

def contactExistsText (userId contactId : Int32) : Query where
  params := [(str "SELECT id FROM contacts WHERE user_id = ", quoteInt userId),
    (str "AND contact_id = ", quoteInt contactId)]
  tail := str ";"

def addUserText (tUser : User) : Query where
  params := [(str "INSERT INTO users (username, password, online, address) VALUES (",
      .quoted tUser.mUsername),
    (str ",", .quoted tUser.mPassword),
    (str "," ++ (if tUser.mOnline then str "TRUE" else str "FALSE") ++ str ",",
      .quoted tUser.mAddress)]
  tail := str ");"

def addChatText (tChat : UserChat) : Query where
  params := [(str "INSERT INTO chats (sender_id, recipient_id, text, delivered) VALUES (",
      quoteInt tChat.mSender),
    (str ",", quoteInt tChat.mRecipient), (str ",", .quoted tChat.mText)]
  tail := str "," ++ (if tChat.mDelivered then str "TRUE" else str "FALSE") ++ str ");"

def addContactText (userId contactId : Int32) : Query where
  params := [(str "INSERT INTO contacts (user_id, contact_id) VALUES (", quoteInt userId),
    (str ",", quoteInt contactId)]
  tail := str ");"

def addTokenText (userId : Int32) (tToken : ByteString) : Query where
  params := [(str "INSERT INTO tokens (user_id, token) VALUES (", quoteInt userId),
    (str ", ", .quoted tToken)]
  tail := str ");"

def removeTokenText (userId : Int32) : Query where
  params := [(str "DELETE FROM tokens where user_id = ", quoteInt userId)]
  tail := []

def removeContactText (userId contactId : Int32) : Query where
  params := [(str "DELETE FROM contacts where user_id = ", quoteInt userId),
    (str " AND contact_id = ", quoteInt contactId)]
  tail := str ";"

def updateUserText (tUser : User) : Query where
  params := [(str "UPDATE users SET online = ",
      .quoted (if tUser.mOnline then str "TRUE" else str "FALSE")),
    (str ",address = ", .quoted tUser.mAddress), (str " WHERE id = ", quoteInt tUser.mId)]
  tail := str ";"

def setDeliveredText (chatId : Int32) : Query where
  params := [(str "UPDATE chats set delivered = TRUE WHERE id = ", quoteInt chatId)]
  tail := str ";"

def logoffText (userId : Int32) : Query where
  params := [(str "UPDATE users SET address = NULL, online = FALSE WHERE id = ", quoteInt userId)]
  tail := str ";"

def rowToUser (row : UserRow) : Option User :=
  (toInt row.id).map fun id =>
    ⟨id, row.username, row.password, row.online, row.address.getD (str " "), false⟩

def UserField.reads (pg : Engine) (tField : UserField) (tTerm : ByteString)
    (row : UserRow) : Bool :=
  match tField with
  | .username => row.username == tTerm
  | .id => pg.readId tTerm == some row.id
  | .address => row.address == some tTerm

def searchUserBy (pg : Engine) (db : Database) (tTerm : ByteString) (tField : UserField) : User :=
  match exec1 (db.users.filter (tField.reads pg tTerm)) with
  | none => User.empty
  | some row => (rowToUser row).getD User.empty

def rowToChat (row : ChatRow) : Option UserChat :=
  match toInt row.id, row.text with
  | some id, some text =>
    some ⟨id, row.createdAt.text, row.senderId, row.recipientId, text, row.delivered, false⟩
  | _, _ => none

/-- The loop over a result keeps the chats before the first row it cannot convert. -/
def rowsToChats : List ChatRow → List UserChat
  | [] => []
  | row :: rows =>
    match rowToChat row with
    | none => []
    | some chat => chat :: rowsToChats rows

def listsChat (tUser : Int32) (tPending : Bool) (tSender : Option Int32) (row : ChatRow) : Bool :=
  (row.recipientId == tUser && (tSender.all fun sender => row.senderId == sender) &&
    (!tPending || !row.delivered)) ||
  (!tPending && tSender.isNone && row.senderId == tUser)

def listUserChats (pg : Engine) (db : Tables) (tUser : Int32) (tPending : Bool)
    (tSender : Option Int32) : List UserChat :=
  rowsToChats (pg.order (db.chats.entries.filter (listsChat tUser tPending tSender)))

/-- The transaction is committed before the row is converted. -/
def searchUserChatBy (pg : Engine) (db : Tables) (tTerm : ByteString) : Tables × UserChat :=
  match pg.selectChats tTerm db with
  | none => (db, UserChat.new)
  | some (after, rows) =>
    match exec1 rows with
    | none => (db, UserChat.new)
    | some row => (after, (rowToChat row).getD UserChat.new)

def userContactExists (db : Database) (userId contactId : Int32) : Bool :=
  (exec1 (db.contacts.filter fun row =>
    row.userId = some userId.toInt ∧ row.contactId = some contactId.toInt)).isSome

def Known (users : List UserRow) (user : User) : Prop :=
  user.mEmpty = false → ∃ row ∈ users, toInt row.id = some user.mId ∧
    row.username = user.mUsername

theorem mem_of_exec1 {α : Type} {rows : List α} {row : α} (h : exec1 rows = some row) :
    row ∈ rows := by
  unfold exec1 at h
  split at h
  · exact List.mem_singleton.mpr (Option.some.inj h).symm
  · cases h

theorem known_searchUserByToken (db : Database) (tToken : ByteString) :
    Known db.users (searchUserByToken db tToken) := by
  intro hfound
  unfold searchUserByToken at hfound ⊢
  dsimp only at hfound ⊢
  split at hfound
  · cases hfound
  · next row hrow =>
    split at hfound
    · cases hfound
    · next id hid =>
      obtain ⟨tokenRow, -, hmem⟩ := List.mem_flatMap.mp (mem_of_exec1 hrow)
      exact ⟨row, (List.mem_filter.mp hmem).1, hid, rfl⟩

theorem known_searchUserBy (pg : Engine) (db : Database) (tTerm : ByteString)
    (tField : UserField) : Known db.users (searchUserBy pg db tTerm tField) := by
  intro hfound
  unfold searchUserBy at hfound ⊢
  split at hfound
  · cases hfound
  · next row hrow =>
    have hmem := (List.mem_filter.mp (mem_of_exec1 hrow)).1
    cases hid : toInt row.id with
    | none =>
      rw [rowToUser, hid] at hfound
      cases hfound
    | some id =>
      refine ⟨row, hmem, ?_⟩
      rw [rowToUser, hid]
      exact ⟨rfl, rfl⟩

def addUser (pg : Engine) (draw : Draw) (db : Tables) (tUser : User) : Bool × Tables :=
  if draw.userId ∈ db.users.map UserRow.id ∨ tUser.mUsername ∈ db.users.map UserRow.username ∨
      pg.takesVarchar tUser.mUsername = false ∨ pg.takesVarchar tUser.mPassword = false ∨
      pg.takesVarchar tUser.mAddress = false then
    (false, db)
  else
    (true, { db with
      users := db.users ++
        [⟨draw.userId, tUser.mUsername, tUser.mPassword, tUser.mOnline, some tUser.mAddress⟩] })

def addUserChat (pg : Engine) (draw : Draw) (db : Tables) (tChat : UserChat) : Tables :=
  if (db.chats.find? draw.chatId).isSome = true ∨ pg.takesText tChat.mText = false then db
  else
    { db with
      chats := db.chats.insert ⟨draw.chatId, draw.createdAt, tChat.mSender, tChat.mRecipient,
        tChat.mDelivered, some tChat.mText⟩ }

def addUserContact (db : Tables) (userId contactId : Int32) : Tables :=
  { db with contacts := db.contacts ++ [⟨some userId.toInt, some contactId.toInt⟩] }

def addUserToken (pg : Engine) (db : Tables) (userId : Int32) (tToken : ByteString) :
    Bool × Tables :=
  if pg.takesVarchar tToken = true then
    (true, { db with tokens := db.tokens ++ [⟨userId.toInt, some tToken⟩] })
  else (false, db)

def removeUserToken (db : Tables) (userId : Int32) : Tables :=
  { db with tokens := db.tokens.filter fun row => row.userId ≠ userId.toInt }

def removeUserContact (db : Tables) (userId contactId : Int32) : Tables :=
  { db with
    contacts := db.contacts.filter fun row =>
      ¬(row.userId = some userId.toInt ∧ row.contactId = some contactId.toInt) }

def setPresence (users : List UserRow) (userId : Int32) (online : Bool)
    (address : Option ByteString) : List UserRow :=
  users.map fun row => if row.id = userId.toInt then { row with online, address } else row

def updateUser (pg : Engine) (db : Tables) (tUser : User) : Bool × Tables :=
  if pg.takesVarchar tUser.mAddress = true then
    (true, { db with users := setPresence db.users tUser.mId tUser.mOnline (some tUser.mAddress) })
  else (false, db)

def logoff (db : Tables) (userId : Int32) : Tables :=
  { db with users := setPresence db.users userId false none }

def setDelivered (id : ℤ) (row : ChatRow) : ChatRow :=
  if row.id = id then { row with delivered := true } else row

theorem id_setDelivered (id : ℤ) (row : ChatRow) : (setDelivered id row).id = row.id := by
  rw [setDelivered]
  split
  · rfl
  · rfl

def setUserChatToDelivered (db : Tables) (chatId : Int32) : Tables :=
  { db with
    chats := db.chats.mapEntries (setDelivered chatId.toInt) (id_setDelivered chatId.toInt) }

end Postgres

namespace Server

open Postgres

def searchUserByToken (s : Server) (tToken : ByteString) : User × Server :=
  (Postgres.searchUserByToken s.db.toDatabase tToken,
    s.send .searchUserByToken (searchTokenText tToken))

def searchUserBy (pg : Engine) (s : Server) (tTerm : ByteString) (tField : UserField) :
    User × Server :=
  (Postgres.searchUserBy pg s.db.toDatabase tTerm tField,
    s.send (.searchUserBy tField) (searchUserText tTerm tField))

def listUserContacts (s : Server) (tUser : User) : Exec (List User) × Server :=
  (Postgres.listUserContacts s.db.toDatabase tUser,
    s.send .listUserContacts (listContactsText tUser.mUsername))

def listUserChats (pg : Engine) (s : Server) (tUser : Int32) (tPending : Bool)
    (tSender : Option Int32) : List UserChat × Server :=
  (Postgres.listUserChats pg s.db tUser tPending tSender,
    s.send (.listUserChats tPending tSender.isSome) (listChatsText tUser tPending tSender))

def searchUserChatBy (pg : Engine) (s : Server) (tTerm : ByteString) : UserChat × Server :=
  let (db, chat) := Postgres.searchUserChatBy pg s.db tTerm
  (chat, { s.send .searchUserChatBy (searchChatText tTerm) with db })

def userContactExists (s : Server) (userId contactId : Int32) : Bool × Server :=
  (Postgres.userContactExists s.db.toDatabase userId contactId,
    s.send .userContactExists (contactExistsText userId contactId))

def addUser (pg : Engine) (draw : Draw) (s : Server) (tUser : User) : Bool × Server :=
  let (added, db) := Postgres.addUser pg draw s.db tUser
  (added, { s.send (.addUser tUser.mOnline) (addUserText tUser) with db })

def addUserChat (pg : Engine) (draw : Draw) (s : Server) (tChat : UserChat) : Server :=
  { s.send (.addUserChat tChat.mDelivered) (addChatText tChat) with
    db := Postgres.addUserChat pg draw s.db tChat }

def addUserContact (s : Server) (userId contactId : Int32) : Server :=
  { s.send .addUserContact (addContactText userId contactId) with
    db := Postgres.addUserContact s.db userId contactId }

def addUserToken (pg : Engine) (s : Server) (userId : Int32) (tToken : ByteString) :
    Bool × Server :=
  let (added, db) := Postgres.addUserToken pg s.db userId tToken
  (added, { s.send .addUserToken (addTokenText userId tToken) with db })

def removeUserToken (s : Server) (userId : Int32) : Server :=
  { s.send .removeUserToken (removeTokenText userId) with
    db := Postgres.removeUserToken s.db userId }

def removeUserContact (s : Server) (userId contactId : Int32) : Server :=
  { s.send .removeUserContact (removeContactText userId contactId) with
    db := Postgres.removeUserContact s.db userId contactId }

def updateUser (pg : Engine) (s : Server) (tUser : User) : Bool × Server :=
  let (updated, db) := Postgres.updateUser pg s.db tUser
  (updated, { s.send .updateUser (updateUserText tUser) with db })

def logoff (s : Server) (userId : Int32) : Server :=
  { s.send .logoff (logoffText userId) with db := Postgres.logoff s.db userId }

def setUserChatToDelivered (s : Server) (chatId : Int32) : Server :=
  { s.send .setUserChatToDelivered (setDeliveredText chatId) with
    db := Postgres.setUserChatToDelivered s.db chatId }

end Server

end Skype
