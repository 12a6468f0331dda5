import Skype.UserControllers

/-!
# Updating a user

A `User` keeps the fields that were updated, in the order of the updates, and
`update_user_query` assigns a column for each of them.
-/

namespace Skype

open Library

inductive User.Field
  | username
  | password
  | online
  | address
  deriving DecidableEq

structure EditedUser extends User where
  mUpdatedFields : List User.Field

namespace EditedUser

def of (user : User) : EditedUser := { user with mUpdatedFields := [] }

/-- The second branch stores `true` as well. -/
def setOnline (user : EditedUser) (tValue : ByteString) : Bool × EditedUser :=
  if tValue = str "true" ∨ tValue = str "t" then
    (true, { user with mOnline := true, mUpdatedFields := user.mUpdatedFields ++ [.online] })
  else if tValue = str "false" ∨ tValue = str "f" then
    (true, { user with mOnline := true, mUpdatedFields := user.mUpdatedFields ++ [.online] })
  else (false, user)

def update (user : EditedUser) (tValue : ByteString) : User.Field → Bool × EditedUser
  | .online => user.setOnline tValue
  | .username =>
    (true, { user with mUsername := tValue, mUpdatedFields := user.mUpdatedFields ++ [.username] })
  | .password =>
    (true, { user with mPassword := tValue, mUpdatedFields := user.mUpdatedFields ++ [.password] })
  | .address =>
    (true, { user with mAddress := tValue, mUpdatedFields := user.mUpdatedFields ++ [.address] })

end EditedUser

namespace Postgres

open Sql (Query Quoting)

def column : User.Field → ByteString
  | .username => str "username"
  | .password => str "password"
  | .online => str "online"
  | .address => str "address"

def columnValue (tUser : User) : User.Field → ByteString
  | .username => tUser.mUsername
  | .password => tUser.mPassword
  | .online => if tUser.mOnline then str "TRUE" else str "FALSE"
  | .address => tUser.mAddress

def updateUserQuery (quoting : Quoting) (tUser : EditedUser) : ByteString :=
  let query := tUser.mUpdatedFields.foldl
    (fun query field =>
      query ++ (column field ++ str " = " ++ quoting.quote (columnValue tUser.toUser field) ++
        str ","))
    (str "UPDATE users SET ")
  query.dropLast ++ str " WHERE id = " ++ quoting.quote (intToString tUser.mId) ++ str ";"

def updateStatement (userId : Int32) (assigned : List (User.Field × ByteString)) : Query where
  params := match assigned with
    | [] => [(str "UPDATE users SET WHERE id = ", quoteInt userId)]
    | (field, value) :: assigned =>
      (str "UPDATE users SET " ++ column field ++ str " = ", .quoted value) ::
        (assigned.map fun entry => (str "," ++ column entry.1 ++ str " = ", .quoted entry.2)) ++
        [(str " WHERE id = ", quoteInt userId)]
  tail := str ";"

end Postgres

namespace UserUpdates

open Postgres
open Sql (Quoting Token)

structure Call where
  value : ByteString
  field : User.Field
  deriving DecidableEq

def run (user : EditedUser) : List Call → List Bool × EditedUser
  | [] => ([], user)
  | call :: calls =>
    let (accepted, user) := user.update call.value call.field
    let (rest, user) := run user calls
    (accepted :: rest, user)

def meansTrue (value : ByteString) : Bool := value = str "true" ∨ value = str "t"

def meansFalse (value : ByteString) : Bool := value = str "false" ∨ value = str "f"

def accepts (call : Call) : Bool :=
  call.field ≠ .online ∨ meansTrue call.value = true ∨ meansFalse call.value = true

def lastAccepted (calls : List Call) (field : User.Field) : Option ByteString :=
  ((calls.filter fun call => accepts call && call.field == field).getLast?).map Call.value

def stored (field : User.Field) (value : ByteString) : ByteString :=
  if field = .online then (if meansTrue value then str "TRUE" else str "FALSE") else value

/-- The object has the last accepted values, and the statement assigns them to the columns
that they belong to, each column once. -/
structure AsMade (quoting : Quoting) (user : User) (calls : List Call)
    (result : List Bool × EditedUser) : Prop where
  results : result.1 = calls.map accepts
  username : result.2.mUsername = (lastAccepted calls .username).getD user.mUsername
  password : result.2.mPassword = (lastAccepted calls .password).getD user.mPassword
  address : result.2.mAddress = (lastAccepted calls .address).getD user.mAddress
  online : result.2.mOnline = ((lastAccepted calls .online).map meansTrue).getD user.mOnline
  statement : ∃ assigned : List (User.Field × ByteString),
    updateUserQuery quoting result.2 = (updateStatement user.mId assigned).text quoting ∧
      (assigned.map Prod.fst).Nodup ∧
      ∀ field value, (field, value) ∈ assigned ↔
        (lastAccepted calls field).map (stored field) = some value

section

variable {user : EditedUser} {calls : List Call} {call : Call} {field : User.Field}

theorem update_refused (h : accepts call = false) :
    user.update call.value call.field = (false, user) := by
  obtain ⟨value, field⟩ := call
  cases field with
  | online =>
    simp only [accepts, meansTrue, meansFalse, decide_eq_false_iff_not, decide_eq_true_eq, not_or,
      ne_eq, not_true_eq_false, false_or] at h
    rw [EditedUser.update, EditedUser.setOnline, if_neg (not_or.mpr h.1), if_neg (not_or.mpr h.2)]
  | username => simp [accepts] at h
  | password => simp [accepts] at h
  | address => simp [accepts] at h

theorem forall_text {P : User.Field → Prop} :
    (∀ field, field ≠ .online → P field) ↔ P .username ∧ P .password ∧ P .address := by
  constructor
  · intro h
    exact ⟨h .username (by decide), h .password (by decide), h .address (by decide)⟩
  · rintro ⟨husername, hpassword, haddress⟩ field hfield
    cases field with
    | online => exact absurd rfl hfield
    | username => exact husername
    | password => exact hpassword
    | address => exact haddress

structure Written (user : EditedUser) (call : Call) (after : EditedUser) : Prop where
  updated : after.mUpdatedFields = user.mUpdatedFields ++ [call.field]
  id : after.mId = user.mId
  online : after.mOnline = if call.field = .online then true else user.mOnline
  text : ∀ field, field ≠ .online → columnValue after.toUser field =
    if call.field = field then call.value else columnValue user.toUser field

variable (user) in
theorem update_accepted (h : accepts call = true) :
    ∃ after, user.update call.value call.field = (true, after) ∧ Written user call after := by
  obtain ⟨value, field⟩ := call
  cases field with
  | online =>
    have hwritten : Written user ⟨value, .online⟩
        { user with mOnline := true, mUpdatedFields := user.mUpdatedFields ++ [.online] } :=
      ⟨rfl, rfl, rfl, forall_text.mpr ⟨rfl, rfl, rfl⟩⟩
    simp only [accepts, meansTrue, meansFalse, decide_eq_true_eq, ne_eq, not_true_eq_false,
      false_or] at h
    refine ⟨_, ?_, hwritten⟩
    rw [EditedUser.update, EditedUser.setOnline]
    split
    · rfl
    · next hfalse => rw [if_pos (h.resolve_left hfalse)]
  | username => exact ⟨_, rfl, rfl, rfl, rfl, forall_text.mpr ⟨rfl, rfl, rfl⟩⟩
  | password => exact ⟨_, rfl, rfl, rfl, rfl, forall_text.mpr ⟨rfl, rfl, rfl⟩⟩
  | address => exact ⟨_, rfl, rfl, rfl, rfl, forall_text.mpr ⟨rfl, rfl, rfl⟩⟩

theorem run_append_singleton (user : EditedUser) (calls : List Call) (call : Call) :
    run user (calls ++ [call]) =
      ((run user calls).1 ++ [((run user calls).2.update call.value call.field).1],
        ((run user calls).2.update call.value call.field).2) := by
  induction calls generalizing user with
  | nil => rfl
  | cons first calls ih =>
    rw [List.cons_append, run]
    dsimp only
    rw [ih]
    rfl

theorem lastAccepted_append_singleton (calls : List Call) (call : Call) (field : User.Field) :
    lastAccepted (calls ++ [call]) field =
      if accepts call = true ∧ call.field = field then some call.value
      else lastAccepted calls field := by
  unfold lastAccepted
  rw [List.filter_append, List.filter_cons, List.filter_nil]
  simp only [Bool.and_eq_true, beq_iff_eq]
  split
  · rw [List.getLast?_concat]
    rfl
  · rw [List.append_nil]

/-- The induction takes the last call off: only it decides about the fields it writes. -/
theorem run_spec (user : EditedUser) (calls : List Call) :
    (run user calls).1 = calls.map accepts ∧
      (run user calls).2.mUpdatedFields =
        user.mUpdatedFields ++ (calls.filter accepts).map Call.field ∧
      (run user calls).2.mId = user.mId ∧
      (run user calls).2.mOnline =
        ((lastAccepted calls .online).map fun _ => true).getD user.mOnline ∧
      ∀ field, field ≠ .online → columnValue (run user calls).2.toUser field =
        (lastAccepted calls field).getD (columnValue user.toUser field) := by
  induction calls using List.reverseRecOn with
  | nil => exact ⟨rfl, (List.append_nil _).symm, rfl, rfl, fun _ _ => rfl⟩
  | append_singleton calls call ih =>
    obtain ⟨hresults, hupdated, hid, honline, htext⟩ := ih
    rw [run_append_singleton, List.map_append, List.filter_append, List.filter_singleton]
    cases haccepts : accepts call with
    | false =>
      rw [update_refused haccepts, hresults]
      simpa [lastAccepted_append_singleton, haccepts, hupdated, hid, honline] using htext
    | true =>
      obtain ⟨after, hafter, hwritten⟩ := update_accepted (run user calls).2 haccepts
      rw [hafter, hresults]
      simp only [lastAccepted_append_singleton, haccepts, true_and]
      refine ⟨by simp [haccepts], by simp [hwritten.updated, hupdated], hwritten.id.trans hid,
        ?_, ?_⟩
      · rw [hwritten.online, honline]
        split
        · rfl
        · rfl
      · intro field hfield
        rw [hwritten.text field hfield, htext field hfield]
        split
        · rfl
        · rfl

end

section

variable (quoting : Quoting)

theorem flatMap_comma (write : User.Field → ByteString) (field : User.Field)
    (fields : List User.Field) :
    (field :: fields).flatMap (fun field => write field ++ str ",") =
      write field ++ fields.flatMap (fun field => str "," ++ write field) ++ str "," := by
  induction fields generalizing field with
  | nil => simp
  | cons next fields ih =>
    rw [List.flatMap_cons, ih, List.flatMap_cons]
    simp only [List.append_assoc]

theorem updateUserQuery_eq (user : EditedUser) :
    updateUserQuery quoting user =
      (updateStatement user.mId (user.mUpdatedFields.map fun field =>
        (field, columnValue user.toUser field))).text quoting := by
  unfold updateUserQuery
  dsimp only
  rw [List.foldl_append_eq_append, ← List.flatMap_def]
  cases user.mUpdatedFields with
  | nil =>
    have hspace : (str "UPDATE users SET ").dropLast ++ str " WHERE id = " =
        str "UPDATE users SET WHERE id = " := by decide
    rw [List.flatMap_nil, List.append_nil, hspace]
    simp [updateStatement, Sql.Query.text, quoteInt, Sql.Param.text]
  | cons field fields =>
    have hcomma : str "," = [comma] := by decide
    rw [flatMap_comma, ← List.append_assoc]
    nth_rewrite 2 [hcomma]
    rw [List.dropLast_concat]
    simp [updateStatement, Sql.Query.text, quoteInt, Sql.Param.text, List.flatMap_map]

def columnOf : Token → Option User.Field
  | .word text => [User.Field.username, .password, .online, .address].find? fun field =>
      column field == text
  | _ => none

theorem separated_updateStatement (userId : Int32) (assigned : List (User.Field × ByteString)) :
    Sql.Separated (updateStatement userId assigned) := by
  have hfirst : ∀ field, str "UPDATE users SET " ++ column field ++ str " = " ≠ [] ∧
      Sql.Ends (str "UPDATE users SET " ++ column field ++ str " = ") := by
    intro field
    cases field <;> decide +kernel
  have hnext : ∀ field, str "," ++ column field ++ str " = " ≠ [] ∧
      Sql.Ends (str "," ++ column field ++ str " = ") ∧
      Sql.Closes (str "," ++ column field ++ str " = ") := by
    intro field
    cases field <;> decide +kernel
  have hwhere : str " WHERE id = " ≠ [] ∧ Sql.Ends (str " WHERE id = ") ∧
      Sql.Closes (str " WHERE id = ") := by decide +kernel
  have hnothing : str "UPDATE users SET WHERE id = " ≠ [] ∧
      Sql.Ends (str "UPDATE users SET WHERE id = ") := by decide +kernel
  have htail : Sql.Closes (str ";") := by decide +kernel
  cases assigned with
  | nil =>
    refine ⟨?_, ?_, fun _ => htail⟩
    · intro part hpart
      rw [List.mem_singleton.mp hpart]
      exact hnothing
    · intro part hpart
      cases hpart
  | cons entry assigned =>
    refine ⟨?_, ?_, fun _ => htail⟩
    · intro part hpart
      simp only [updateStatement, List.cons_append, List.mem_cons, List.mem_append, List.mem_map,
        List.not_mem_nil, or_false] at hpart
      rcases hpart with rfl | ⟨other, -, rfl⟩ | rfl
      · exact hfirst entry.1
      · exact ⟨(hnext other.1).1, (hnext other.1).2.1⟩
      · exact ⟨hwhere.1, hwhere.2.1⟩
    · intro part hpart
      simp only [updateStatement, List.cons_append, List.tail_cons, List.mem_append, List.mem_map,
        List.mem_singleton] at hpart
      rcases hpart with ⟨other, -, rfl⟩ | rfl
      · exact (hnext other.1).2.2
      · exact hwhere.2.2

theorem columns_updateStatement (userId : Int32) (assigned : List (User.Field × ByteString)) :
    (Sql.tokens ((updateStatement userId assigned).text quoting)).filterMap columnOf =
      assigned.map Prod.fst := by
  have hfirst : ∀ field, (Sql.tokens (str "UPDATE users SET " ++ column field ++
      str " = ")).filterMap columnOf = [field] := by
    intro field
    cases field <;> decide +kernel
  have hnext : ∀ field, (Sql.tokens (str "," ++ column field ++ str " = ")).filterMap columnOf =
      [field] := by
    intro field
    cases field <;> decide +kernel
  have hwhere : (Sql.tokens (str " WHERE id = ")).filterMap columnOf = [] := by decide +kernel
  have htail : (Sql.tokens (str ";")).filterMap columnOf = [] := by decide +kernel
  have hnothing : (Sql.tokens (str "UPDATE users SET WHERE id = ")).filterMap columnOf = [] := by
    decide +kernel
  have hliteral : ∀ param : Sql.Param, [param.token].filterMap columnOf = [] := by
    intro param
    cases param <;> rfl
  rw [Sql.tokens_text quoting (separated_updateStatement userId assigned), Sql.Query.skeleton,
    List.filterMap_append, List.filterMap_flatMap]
  simp only [List.filterMap_append, hliteral, List.append_nil]
  cases assigned with
  | nil => simp only [updateStatement, List.flatMap_cons, List.flatMap_nil, hnothing, htail]; rfl
  | cons entry assigned =>
    simp only [updateStatement, List.cons_append, List.flatMap_cons, List.flatMap_append,
      List.flatMap_map, hfirst, hnext, hwhere, htail, List.flatMap_nil, List.append_nil]
    rw [List.map_cons, List.map_eq_flatMap, List.nil_append]

theorem columns_eq {userId : Int32} {a b : List (User.Field × ByteString)}
    (h : (updateStatement userId a).text quoting = (updateStatement userId b).text quoting) :
    a.map Prod.fst = b.map Prod.fst := by
  rw [← columns_updateStatement quoting userId a, h, columns_updateStatement]

end

section

variable {user : User} {calls : List Call}

theorem mem_updated_iff {field : User.Field} :
    field ∈ (calls.filter accepts).map Call.field ↔
      ∃ value, lastAccepted calls field = some value := by
  induction calls using List.reverseRecOn with
  | nil => simp [lastAccepted]
  | append_singleton calls call ih =>
    rw [lastAccepted_append_singleton, List.filter_append, List.map_append, List.mem_append, ih,
      List.filter_cons, List.filter_nil]
    by_cases haccepts : accepts call = true
    · by_cases hfield : call.field = field
      · simp [haccepts, hfield]
      · simp [haccepts, hfield, Ne.symm hfield]
    · simp [haccepts]

theorem columnValue_run (user : User)
    (htrue : ∀ value ∈ lastAccepted calls .online, meansTrue value = true) {field : User.Field}
    {value : ByteString} (h : lastAccepted calls field = some value) :
    columnValue (run (.of user) calls).2.toUser field = stored field value := by
  obtain ⟨-, -, -, honline, htext⟩ := run_spec (.of user) calls
  by_cases hfield : field = .online
  · subst hfield
    rw [h] at honline
    rw [columnValue, honline, stored, if_pos rfl, htrue value h]
    rfl
  · rw [htext field hfield, h, stored, if_neg hfield]
    rfl

/-- The updates reach the database as made exactly when the last accepted value of `Online`,
if there is one, is true and no field has two accepted updates. -/
theorem updates_asMade_iff (quoting : Quoting) (user : User) (calls : List Call) :
    AsMade quoting user calls (run (.of user) calls) ↔
      (∀ value ∈ lastAccepted calls .online, meansTrue value = true) ∧
        ((calls.filter accepts).map Call.field).Nodup := by
  obtain ⟨hresults, hupdated, hid, honline, htext⟩ := run_spec (.of user) calls
  have hnothing : (EditedUser.of user).mUpdatedFields = [] := rfl
  rw [hnothing, List.nil_append] at hupdated
  have hquery := updateUserQuery_eq quoting (run (.of user) calls).2
  rw [hid, hupdated] at hquery
  constructor
  · intro h
    constructor
    · intro value hvalue
      have hflag := h.online
      rw [honline, Option.mem_def.mp hvalue] at hflag
      exact hflag.symm
    · obtain ⟨assigned, hassigned, hnodup, -⟩ := h.statement
      have hcolumns := columns_eq quoting (hquery.symm.trans hassigned)
      rw [List.map_map] at hcolumns
      rw [← hcolumns] at hnodup
      simpa [Function.comp_def] using hnodup
  · rintro ⟨htrue, hnodup⟩
    refine ⟨hresults, htext .username (by decide), htext .password (by decide),
      htext .address (by decide), ?_, _, hquery, ?_, ?_⟩
    · rw [honline]
      cases hlast : lastAccepted calls .online with
      | none => rfl
      | some value =>
        rw [Option.map_some, Option.map_some, htrue value hlast]
        rfl
    · rw [List.map_map]
      simpa [Function.comp_def] using hnodup
    · intro field value
      rw [List.mem_map]
      simp only [Prod.mk.injEq, mem_updated_iff, Option.map_eq_some_iff]
      constructor
      · rintro ⟨other, ⟨last, hlast⟩, rfl, hvalue⟩
        exact ⟨last, hlast, (columnValue_run user htrue hlast).symm.trans hvalue⟩
      · rintro ⟨last, hlast, hvalue⟩
        exact ⟨field, ⟨last, hlast⟩, rfl, (columnValue_run user htrue hlast).trans hvalue⟩

end

theorem loginUser_updates (quoting : Quoting) (user : User) (address : ByteString) :
    (run (.of user) [⟨str "true", .online⟩, ⟨address, .address⟩]).2.toUser =
        { user with mOnline := true, mAddress := address } ∧
      updateUserQuery quoting (run (.of user) [⟨str "true", .online⟩, ⟨address, .address⟩]).2 =
        (updateUserText { user with mOnline := true, mAddress := address }).text quoting := by
  refine ⟨rfl, ?_⟩
  have honline : str "UPDATE users SET " ++ column .online ++ str " = " =
      str "UPDATE users SET online = " := by decide
  have haddress : str "," ++ column .address ++ str " = " = str ",address = " := by decide
  have hstatement : updateStatement user.mId
      [(.online, str "TRUE"), (.address, address)] =
        updateUserText { user with mOnline := true, mAddress := address } := by
    rw [updateStatement, updateUserText, honline, List.map_singleton, haddress]
    rfl
  rw [updateUserQuery_eq, ← hstatement]
  rfl

/-- A user who goes offline stays online, and a username that is updated twice is assigned
twice. -/
theorem offline_stays_online :
    ¬AsMade Quoting.doubling User.empty [⟨str "false", .online⟩]
        (run (.of User.empty) [⟨str "false", .online⟩]) ∧
      ¬AsMade Quoting.doubling User.empty [⟨str "marco", .username⟩, ⟨str "pedro", .username⟩]
        (run (.of User.empty) [⟨str "marco", .username⟩, ⟨str "pedro", .username⟩]) := by
  constructor
  · intro h
    have honline := h.online
    exact absurd honline (by decide +kernel)
  · intro h
    obtain ⟨assigned, hassigned, hnodup, -⟩ := h.statement
    have hcolumns := columns_eq Quoting.doubling
      ((updateUserQuery_eq Quoting.doubling _).symm.trans hassigned)
    rw [← hcolumns] at hnodup
    have htwice : ¬[User.Field.username, .username].Nodup := by decide
    exact htwice hnodup

end UserUpdates

end Skype
