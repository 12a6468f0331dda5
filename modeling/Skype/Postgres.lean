import Skype.StringUtils

/-!
# `User` and the queries of `Postgres`

The database is its tables. A query that runs through `exec1` throws unless it
returns exactly one row, and reading a row throws on `NULL` and on an id outside
the range of `int`; the functions below turn both into an empty result. The
aggregates of one query list the rows in the order of the table.
-/

namespace Skype

open Library

structure User where
  mId : Int32
  mUsername : ByteString
  mPassword : ByteString
  mOnline : Bool
  mAddress : ByteString
  mEmpty : Bool
  deriving DecidableEq

namespace User

def empty : User := ⟨0, [], [], false, [], true⟩

def toString (user : User) : ByteString :=
  let online := if user.mOnline then str "true" else str "false"
  if user.mPassword = [] ∧ user.mAddress = [] then
    str "id:" ++ intToString user.mId ++ str ",username:" ++ user.mUsername ++
      str ",online:" ++ online
  else if user.mPassword = [] then
    str "id:" ++ intToString user.mId ++ str ",username:" ++ user.mUsername ++
      str ",online:" ++ online ++ str ",address:" ++ user.mAddress
  else
    str "id:" ++ intToString user.mId ++ str ",username:" ++ user.mUsername ++
      str ",password:" ++ user.mPassword ++ str ",online:" ++ online ++
      str ",address:" ++ user.mAddress

end User

structure UserRow where
  id : ℤ
  username : ByteString
  password : ByteString
  online : Bool
  address : Option ByteString
  deriving DecidableEq

structure TokenRow where
  userId : ℤ
  token : Option ByteString
  deriving DecidableEq

structure ContactRow where
  userId : Option ℤ
  contactId : Option ℤ
  deriving DecidableEq

structure Database where
  users : List UserRow
  tokens : List TokenRow
  contacts : List ContactRow

namespace Postgres

def exec1 {α : Type} : List α → Option α
  | [row] => some row
  | _ => none

def toInt (id : ℤ) : Option Int32 :=
  if -2 ^ 31 ≤ id ∧ id < 2 ^ 31 then some (Int32.ofInt id) else none

theorem toInt_eq_some {id : ℤ} {i : Int32} (h : toInt id = some i) : i.toInt = id := by
  unfold toInt at h
  split at h
  · next hrange =>
    rw [← Option.some.inj h, Int32.toInt_ofInt_of_le]
    · exact hrange.1
    · exact hrange.2
  · cases h

def searchUserByToken (db : Database) (tToken : ByteString) : User :=
  let rows := (db.tokens.filter fun t => t.token = some tToken).flatMap fun t =>
    db.users.filter fun u => t.userId = u.id
  match exec1 rows with
  | none => User.empty
  | some row =>
    match toInt row.id with
    | none => User.empty
    | some id => ⟨id, row.username, row.password, row.online, row.address.getD (str " "), false⟩

/-- `STRING_AGG(…, ',')`, `NULL` over no rows. -/
def stringAgg : List ByteString → Option ByteString
  | [] => none
  | texts => some ((str ",").intercalate texts)

def contactRows (db : Database) (userId : ℤ) : List UserRow :=
  (db.contacts.filter fun c => c.userId = some userId).flatMap fun c =>
    db.users.filter fun u => c.contactId = some u.id

structure AggregatedQueryResult where
  username : ByteString
  ids : Option ByteString
  contacts : Option ByteString
  onlines : Option ByteString
  deriving DecidableEq

def listContactsQuery (db : Database) (tUser : User) : List AggregatedQueryResult :=
  let owners := db.contacts.flatMap fun c => db.users.filter fun u =>
    c.userId = some u.id ∧ u.username = tUser.mUsername
  (owners.map fun u =>
    let contacts := contactRows db u.id
    { username := u.username
      ids := stringAgg (contacts.map fun c => Decimal.printInt c.id)
      contacts := stringAgg (contacts.map UserRow.username)
      onlines := stringAgg (contacts.map fun c =>
        if c.online then str "true" else str "false") }).dedup

/-- The loop of `result_to_users`; an id that is no number becomes `-1`. -/
def resultToUsersLoop (contacts onlines : List ByteString) : ℕ → List ByteString → Exec (List User)
  | _, [] => .ok []
  | i, idText :: ids => do
    let online ← vecAt onlines i
    let (_, id) := StringUtils.toInt idText
    let contact ← vecAt contacts i
    let users ← resultToUsersLoop contacts onlines (i + 1) ids
    return ⟨id, contact, [], online == str "true", [], false⟩ :: users

def resultToUsers (ids contacts onlines : ByteString) : Exec (List User) := do
  let idsVec ← StringUtils.split ids (str ",")
  let contactsVec ← StringUtils.split contacts (str ",")
  let onlinesVec ← StringUtils.split onlines (str ",")
  resultToUsersLoop contactsVec onlinesVec 0 idsVec

def listUserContacts (db : Database) (tUser : User) : Exec (List User) :=
  match exec1 (listContactsQuery db tUser) with
  | some ⟨_, some ids, some contacts, some onlines⟩ => resultToUsers ids contacts onlines
  | _ => .ok []

end Postgres

end Skype
