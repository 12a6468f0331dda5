import Skype.Attribution

/-!
# Sessions

What a request does to the users and the tokens: `CREATE`, `LOGIN` and `EXIT` write
them, every other command leaves them alone.
-/

namespace Skype.Sessions

open Library Postgres ControllerUtils Router

def Same (a b : Server) : Prop := b.db.users = a.db.users ∧ b.db.tokens = a.db.tokens

section

variable {pg : Engine} {draw : Draw} {tArg : ByteString} {tReq req : Request} {s s' : Server}

theorem same_refl (s : Server) : Same s s := ⟨rfl, rfl⟩

theorem same_reads : Reads Same where
  refl := same_refl
  trans hab hbc := ⟨hbc.1.trans hab.1, hbc.2.trans hab.2⟩
  searchUserByToken _ _ := same_refl _
  searchUserBy _ _ _ _ := same_refl _
  listUserContacts _ _ := same_refl _
  listUserChats _ _ _ _ _ := same_refl _
  userContactExists _ _ _ := same_refl _

theorem Same.addUserChat {a b : Server} (h : Same a b) (chat : UserChat) :
    Same a (b.addUserChat pg draw chat) := by
  have hdb : (Postgres.addUserChat pg draw b.db chat).toDatabase = b.db.toDatabase := by
    rw [Postgres.addUserChat]
    split
    · rfl
    · rfl
  exact ⟨(congrArg Database.users hdb).trans h.1, (congrArg Database.tokens hdb).trans h.2⟩

theorem same_onCalls {result : Exec (Request × AwaitingUsers)}
    (h : onCalls tReq s result = .ok (req, s')) : Same s s' := by
  obtain ⟨⟨r, after⟩, -, h⟩ := bind_eq_ok.mp h
  exact related_of_ok h (same_refl s)

theorem same_controllers {command : ServerCommand.Name} (hlogin : requireLogin command = true)
    (hshort : tArg.length < 2 ^ 31)
    (hplain : command = .delivered → tArg ≠ [] →
      ChatControllers.Plain s.db.chats (Search.splitOn [comma] tArg))
    (h : controllers pg draw command tArg tReq s = .ok (req, s')) : Same s s' := by
  cases command with
  | create => cases hlogin
  | login => cases hlogin
  | exit => cases hlogin
  | list => exact same_reads.list h
  | search => exact same_reads.search h
  | add =>
    obtain ⟨t, hsame, hread | ⟨contactId, hadded⟩⟩ := same_reads.add pg draw tArg tReq s
    · exact related_of_ok h (hread ▸ hsame)
    · exact related_of_ok h (hadded ▸ hsame)
  | remove =>
    obtain ⟨t, hsame, hread | ⟨contactId, hremoved⟩⟩ := same_reads.remove pg tArg tReq s
    · exact related_of_ok h (hread ▸ hsame)
    · exact related_of_ok h (hremoved ▸ hsame)
  | available => exact same_reads.available h
  | send =>
    obtain ⟨t, hsame, rfl | ⟨chat, -, rfl⟩⟩ := same_reads.send h
    · exact hsame
    · exact hsame.addUserChat chat
  | pending => exact same_reads.getChats h
  | chat => exact same_reads.getChats h
  | delivered =>
    have hothers := (quiet_delivered hshort (hplain rfl) h).1
    exact ⟨congrArg Database.users hothers, congrArg Database.tokens hothers⟩
  | connect => exact same_onCalls h
  | accept => exact same_onCalls h
  | hangup => exact same_onCalls h
  | reject => exact same_onCalls h
  | ping => exact same_onCalls h
  | none => exact related_of_ok h (same_refl s)

def credentials (tArg : ByteString) : ByteString × ByteString := Search.cutFirst [space] tArg

def created (pg : Engine) (draw : Draw) (tArg address : ByteString) (db : Tables) : Tables :=
  let (username, password) := credentials tArg
  if username = [] ∨ password = [] then db
  else (addUser pg draw db ⟨0, username, password, false, address, false⟩).2

def authenticated (pg : Engine) (tArg : ByteString) (db : Database) : Option User :=
  let (username, password) := credentials tArg
  let user := searchUserBy pg db username .username
  if username = [] ∨ password = [] then none
  else if user.mEmpty = false ∧ user.mPassword = password then some user else none

def loggedIn (pg : Engine) (draw : Draw) (tArg address : ByteString) (db : Tables) : Tables :=
  match authenticated pg tArg db.toDatabase with
  | none => db
  | some user =>
    (updateUser pg (addUserToken pg db user.mId draw.token).2
      { user with mOnline := true, mAddress := address }).2

def leaver (pg : Engine) (token address : ByteString) (db : Database) : User :=
  let user := searchUserByToken db token
  if user.mEmpty then searchUserBy pg db address .address else user

def exited (pg : Engine) (token address : ByteString) (db : Tables) : Tables :=
  let user := leaver pg token address db.toDatabase
  if user.mEmpty then db else removeUserToken (logoff db user.mId) user.mId

/-- `Server::disconnect_client_on_failure`, without the socket that it closes. -/
def disconnectClientOnFailure (pg : Engine) (tReq : Request) (s : Server) : Exec Server :=
  if tReq.mValid = false ∧ 0 ≤ tReq.mSocket then do
    let (_, s) ← UserControllers.exit pg tReq s
    return s
  else .ok s

theorem create_db (hshort : tArg.length < 2 ^ 31)
    (h : UserControllers.create pg draw tArg tReq s = .ok (req, s')) :
    s'.db = created pg draw tArg tReq.mAddress s.db := by
  rw [UserControllers.create, splitFirst_space hshort, ok_bind] at h
  rw [created, credentials]
  dsimp only at h ⊢
  split at h
  · next hempty =>
    rw [if_pos hempty]
    obtain ⟨-, rfl⟩ := Prod.mk.inj (Except.ok.inj h)
    rfl
  · next hwords =>
    rw [if_neg hwords]
    obtain ⟨-, rfl⟩ := Prod.mk.inj (Except.ok.inj h)
    rfl

theorem loginUser_db {user : User}
    (h : UserControllers.loginUser pg draw user tReq s = .ok (req, s')) :
    s'.db = (updateUser pg (addUserToken pg s.db user.mId draw.token).2
      { user with mOnline := true, mAddress := tReq.mAddress }).2 := by
  unfold UserControllers.loginUser at h
  dsimp only at h
  split at h
  · obtain ⟨reply, -, h⟩ := bind_eq_ok.mp h
    obtain ⟨-, rfl⟩ := Prod.mk.inj (Except.ok.inj h)
    rfl
  · obtain ⟨-, rfl⟩ := Prod.mk.inj (Except.ok.inj h)
    rfl

theorem login_db (hshort : tArg.length < 2 ^ 31)
    (h : UserControllers.login pg draw tArg tReq s = .ok (req, s')) :
    s'.db = loggedIn pg draw tArg tReq.mAddress s.db := by
  rw [UserControllers.login, splitFirst_space hshort, ok_bind] at h
  rw [loggedIn, authenticated, credentials]
  dsimp only at h ⊢
  split at h
  · next hempty =>
    rw [if_pos hempty]
    obtain ⟨-, rfl⟩ := Prod.mk.inj (Except.ok.inj h)
    rfl
  · next hwords =>
    rw [if_neg hwords]
    have hsearch : s.searchUserBy pg (Search.cutFirst [space] tArg).1 .username =
        (searchUserBy pg s.db.toDatabase (Search.cutFirst [space] tArg).1 .username,
          s.send (.searchUserBy .username)
            (searchUserText (Search.cutFirst [space] tArg).1 .username)) := rfl
    rw [hsearch] at h
    dsimp only at h
    split at h
    · next hfound =>
      rw [if_pos hfound]
      exact loginUser_db (s := s.send (.searchUserBy .username)
        (searchUserText (Search.cutFirst [space] tArg).1 .username)) h
    · next hunknown =>
      rw [if_neg hunknown]
      obtain ⟨-, rfl⟩ := Prod.mk.inj (Except.ok.inj h)
      rfl

theorem exitUser_eq (pg : Engine) (tReq : Request) (s : Server) :
    (UserControllers.exitUser pg tReq s).1 =
        leaver pg tReq.mToken tReq.mAddress s.db.toDatabase ∧
      (UserControllers.exitUser pg tReq s).2.db = s.db := by
  unfold UserControllers.exitUser leaver
  have htoken : s.searchUserByToken tReq.mToken =
      (searchUserByToken s.db.toDatabase tReq.mToken,
        s.send .searchUserByToken (searchTokenText tReq.mToken)) := rfl
  rw [htoken]
  dsimp only
  split
  · exact ⟨rfl, rfl⟩
  · exact ⟨rfl, rfl⟩

theorem exit_db (h : UserControllers.exit pg tReq s = .ok (req, s')) :
    s'.db = exited pg tReq.mToken tReq.mAddress s.db := by
  obtain ⟨huser, hdb⟩ := exitUser_eq pg tReq s
  unfold UserControllers.exit at h
  generalize UserControllers.exitUser pg tReq s = found at huser hdb h
  obtain ⟨user, t⟩ := found
  obtain ⟨reply, -, h⟩ := bind_eq_ok.mp h
  obtain ⟨-, rfl⟩ := Prod.mk.inj (Except.ok.inj h)
  rw [exited, ← huser, ← hdb]
  dsimp only
  split
  · rfl
  · rfl

theorem disconnect_db (h : disconnectClientOnFailure pg tReq s = .ok s') :
    s'.db = if tReq.mValid = false ∧ 0 ≤ tReq.mSocket then
      exited pg tReq.mToken tReq.mAddress s.db else s.db := by
  rw [disconnectClientOnFailure] at h
  split at h
  · next hfailed =>
    obtain ⟨⟨req, t⟩, hexit, h⟩ := bind_eq_ok.mp h
    obtain rfl := Except.ok.inj h
    rw [if_pos hfailed]
    exact exit_db hexit
  · next hkept =>
    obtain rfl := Except.ok.inj h
    rw [if_neg hkept]

end

def written (pg : Engine) (draw : Draw) (raw : Message) (tReq : Request) (db : Tables) : Tables :=
  if tReq.mValid = false then db
  else
    match raw.command with
    | .create => created pg draw raw.body tReq.mAddress db
    | .login => loggedIn pg draw raw.body tReq.mAddress db
    | .exit => exited pg raw.body tReq.mAddress db
    | _ => db

section

variable {pg : Engine} {draw : Draw} {raw : Message} {tReq req : Request} {s s' : Server}

theorem length_body_lt (raw : Message) : raw.body.length < 2 ^ 31 :=
  raw.length_body_le.trans_lt raw.short

theorem created_nil (pg : Engine) (draw : Draw) (address : ByteString) (db : Tables) :
    created pg draw [] address db = db := rfl

theorem loggedIn_nil (pg : Engine) (draw : Draw) (address : ByteString) (db : Tables) :
    loggedIn pg draw [] address db = db := rfl

theorem nil_of_refused {command : ServerCommand.Name} {tArg : ByteString}
    (h : ¬validateArgument command tArg = true) : tArg = [] := by
  by_contra hne
  apply h
  simp [validateArgument, hne]

theorem route_open_db (hvalid : tReq.mValid = true) (hopen : requireLogin raw.command = false)
    (h : route pg draw (raw.request tReq) s = .ok (req, s')) :
    s'.db = written pg draw raw tReq s.db := by
  rw [route_openOperands pg draw s hvalid hopen] at h
  rw [written, if_neg (ne_false_of_eq_true hvalid)]
  cases hcommand : raw.command with
  | create =>
    have hoperands : openOperands raw = ([], raw.body) := by
      rw [openOperands, hcommand]
      rfl
    rw [hoperands, hcommand] at h
    dsimp only at h ⊢
    split at h
    · have hcreate : UserControllers.create pg draw raw.body
          { raw.request tReq with mToken := [] } s = .ok (req, s') := h
      have hdb := create_db (length_body_lt raw) hcreate
      exact hdb
    · next hrefused =>
      rw [nil_of_refused hrefused, created_nil]
      exact (congrArg Server.db (Prod.mk.inj (Except.ok.inj h)).2).symm
  | login =>
    have hoperands : openOperands raw = ([], raw.body) := by
      rw [openOperands, hcommand]
      rfl
    rw [hoperands, hcommand] at h
    dsimp only at h ⊢
    split at h
    · have hlogin : UserControllers.login pg draw raw.body
          { raw.request tReq with mToken := [] } s = .ok (req, s') := h
      have hdb := login_db (length_body_lt raw) hlogin
      exact hdb
    · next hrefused =>
      rw [nil_of_refused hrefused, loggedIn_nil]
      exact (congrArg Server.db (Prod.mk.inj (Except.ok.inj h)).2).symm
  | exit =>
    have hoperands : openOperands raw = (raw.body, []) := by
      rw [openOperands, hcommand]
      rfl
    have hvalidate : validateArgument .exit [] = true := rfl
    rw [hoperands, hcommand] at h
    dsimp only at h ⊢
    rw [if_pos hvalidate] at h
    exact exit_db h
  | _ =>
    rw [hcommand] at hopen
    cases hopen

theorem written_of_login (hlogin : requireLogin raw.command = true) (db : Tables) :
    written pg draw raw tReq db = db := by
  rw [written]
  split
  · rfl
  · split
    · next hcommand =>
      rw [hcommand] at hlogin
      cases hlogin
    · next hcommand =>
      rw [hcommand] at hlogin
      cases hlogin
    · next hcommand =>
      rw [hcommand] at hlogin
      cases hlogin
    · rfl

theorem route_login_same (hvalid : tReq.mValid = true) (hlogin : requireLogin raw.command = true)
    (hplain : PlainIds raw tReq s) (h : route pg draw (raw.request tReq) s = .ok (req, s')) :
    Same s s' := by
  have hasked : Same s (asked s raw.word) := same_refl s
  rw [route_login pg draw s hvalid hlogin] at h
  split at h
  · exact related_of_ok h hasked
  · next hstored =>
    split at h
    · have hids : raw.command = .delivered → raw.arguments ≠ [] →
          ChatControllers.Plain (asked s raw.word).db.chats
            (Search.splitOn [comma] raw.arguments) :=
        fun hcommand hne => hplain hvalid hcommand (Bool.eq_false_of_not_eq_true hstored) hne
      have hsame : Same (asked s raw.word) s' :=
        same_controllers hlogin (length_arguments_lt raw) hids h
      exact hsame
    · exact related_of_ok h hasked

theorem route_sessions (hplain : PlainIds raw tReq s)
    (h : route pg draw (raw.request tReq) s = .ok (req, s')) :
    s'.db.users = (written pg draw raw tReq s.db).users ∧
      s'.db.tokens = (written pg draw raw tReq s.db).tokens := by
  cases hvalid : tReq.mValid with
  | false =>
    rw [route_invalid pg draw raw s hvalid] at h
    rw [written, if_pos hvalid]
    exact related_of_ok h (same_refl s)
  | true =>
    cases hlogin : requireLogin raw.command with
    | false =>
      rw [route_open_db hvalid hlogin h]
      exact ⟨rfl, rfl⟩
    | true =>
      rw [written_of_login hlogin]
      exact route_login_same hvalid hlogin hplain h

end

def johnLoginMessage : Message := ⟨str "LOGIN john 1234", by decide⟩

end Skype.Sessions
