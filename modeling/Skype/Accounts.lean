import Skype.LoginOutcomes
import Skype.PeerEndpoints
import Skype.ServerExchange

/-!
# `Accounts`

Registering, logging in, and the second request with which a client asks for its own id.
The server is at the other end of the connection: what the client keeps behind a login is
compared with what the tables hold.
-/

namespace Skype

open Library Postgres

/-- `Accounts`; `m_id` is indeterminate until the server has told it. -/
structure Accounts where
  mUsername : ByteString
  mPassword : ByteString
  mToken : ByteString
  mId : Int32
  mLoggedIn : Bool
  deriving DecidableEq

namespace Accounts

variable {σ : Type}

def validResponse (tCode : Reply.Code) (tRes : ByteString) : Bool :=
  find tRes (Reply.getMessage tCode) 0 ≠ npos

def registerUser (acc : Accounts) (conn : Connection σ) (t : σ) : Exec (Bool × σ) := do
  let (response, t) ← conn (str "CREATE " ++ acc.mUsername ++ str " " ++ acc.mPassword) t
  match response with
  | none => return (false, t)
  | some response => return (validResponse .r200 response, t)

/-- `set_id`, whose result is not used; `stoi` may throw and leaves the id as it is. The flag
is `m_valid`. -/
def setId (acc : Accounts) (conn : Connection σ) (t : σ) : Exec (Bool × Accounts × σ) := do
  let (response, t) ← conn (str "SEARCH " ++ acc.mToken ++ str " " ++ acc.mUsername) t
  match response with
  | none => return (false, acc, t)
  | some response =>
    if validResponse .r201 response = false then return (true, acc, t)
    else
      let (userId, _) ← StringUtils.splitFirst response (str ",")
      let (_, pair) ← StringUtils.splitFirst userId (str ":")
      match stoi pair with
      | .ok mId => return (true, { acc with mId }, t)
      | .error _ => return (true, acc, t)

def login (acc : Accounts) (conn : Connection σ) (t : σ) : Exec (Bool × Accounts × σ) := do
  let (response, t) ← conn (str "LOGIN " ++ acc.mUsername ++ str " " ++ acc.mPassword) t
  match response with
  | none => return (false, acc, t)
  | some response =>
    if validResponse .r201 response = false then return (false, acc, t)
    else
      let (_, mToken) ← StringUtils.splitFirst response (str " ")
      setId { acc with mLoggedIn := true, mPassword := [], mToken } conn t

end Accounts

namespace Accounts

open Router Sessions ControllerUtils ServerExchange TableIntegrity TokenGenerator
open UserControllers (mTokenLength loginUserWith_cases)

def credentialsText (acc : Accounts) : ByteString := acc.mUsername ++ str " " ++ acc.mPassword

def admitted (pg : Engine) (draw : Draw) (tReq : Request) (acc : Accounts) (db : Database) :
    Option User :=
  if pg.takesVarchar draw.token = true ∧ pg.takesVarchar tReq.mAddress = true then
    authenticated pg acc.credentialsText db
  else none

section

variable {pg : Engine} {draw : Draw} {tReq req : Request} {acc : Accounts} {s s' : Server}
  {db : Tables} {user : User}

def SignedIn (draw : Draw) (tReq : Request) (user : User) (a b : Tables) : Prop :=
  b.users = setPresence a.users user.mId true (some tReq.mAddress) ∧
    b.tokens = a.tokens ++ [⟨user.mId.toInt, some draw.token⟩]

def Refusal (text : ByteString) : Prop :=
  ∃ code, (code = .r300 ∨ code = .r500 ∨ code = .r501) ∧ text = Reply.getMessage code

theorem loginUser_reply (pg : Engine) (draw : Draw) (user : User) (tReq : Request) (s : Server) :
    ∃ reply s', UserControllers.loginUser pg draw user tReq s = .ok (reply, s') ∧
      if pg.takesVarchar draw.token = true ∧ pg.takesVarchar tReq.mAddress = true then
        reply.mData = some (textData (str "201 " ++ draw.token)) ∧
          SignedIn draw tReq user s.db s'.db
      else reply.mData = some (textData (Reply.getMessage .r500)) := by
  obtain ⟨reply, s', hlogin, hreply, htokens, husers⟩ :=
    loginUserWith_cases pg draw ⟨true, true, true⟩ tReq s user
  refine ⟨reply, s', hlogin, ?_⟩
  have hstores : UserControllers.StoresToken pg draw ⟨true, true, true⟩ ↔
      pg.takesVarchar draw.token = true := and_iff_right rfl
  have hupdates : UserControllers.Updates pg ⟨true, true, true⟩ tReq ↔
      pg.takesVarchar tReq.mAddress = true := and_iff_right rfl
  rw [hstores, hupdates] at hreply
  rw [hstores] at htokens
  rw [hupdates] at husers
  split
  · next hboth =>
    rcases hreply with ⟨-, -, rfl⟩ | ⟨hnot, -⟩
    · rcases htokens with ⟨-, htokens⟩ | ⟨hnot, -⟩
      · rcases husers with ⟨-, husers⟩ | ⟨hnot, -⟩
        · exact ⟨rfl, husers, htokens⟩
        · exact absurd hboth.2 hnot
      · exact absurd hboth.1 hnot
    · exact absurd hboth hnot
  · next hboth =>
    rcases hreply with ⟨htoken, haddress, -⟩ | ⟨-, rfl⟩
    · exact absurd ⟨htoken, haddress⟩ hboth
    · rfl

theorem login_reply (pg : Engine) (draw : Draw) {tArg : ByteString}
    (hshort : tArg.length < 2 ^ 31) (tReq : Request) (s : Server) :
    ∃ reply s' text, UserControllers.login pg draw tArg tReq s = .ok (reply, s') ∧
      reply.mData = some (textData text) ∧
        match (if pg.takesVarchar draw.token = true ∧ pg.takesVarchar tReq.mAddress = true then
          authenticated pg tArg s.db.toDatabase else none) with
        | none => Refusal text
        | some user => text = str "201 " ++ draw.token ∧ SignedIn draw tReq user s.db s'.db := by
  rw [UserControllers.login, splitFirst_space hshort, ok_bind]
  unfold authenticated
  rw [credentials]
  dsimp only
  split
  · refine ⟨_, _, _, rfl, rfl, ?_⟩
    rw [ite_self]
    exact ⟨.r501, Or.inr (Or.inr rfl), rfl⟩
  · have hsearch : s.searchUserBy pg (Search.cutFirst [space] tArg).1 .username =
        (searchUserBy pg s.db.toDatabase (Search.cutFirst [space] tArg).1 .username,
          s.send (.searchUserBy .username)
            (searchUserText (Search.cutFirst [space] tArg).1 .username)) := rfl
    rw [hsearch]
    dsimp only
    split
    · obtain ⟨reply, s', hlogin, hcases⟩ := loginUser_reply pg draw
        (searchUserBy pg s.db.toDatabase (Search.cutFirst [space] tArg).1 .username) tReq
        (s.send (.searchUserBy .username)
          (searchUserText (Search.cutFirst [space] tArg).1 .username))
      split at hcases
      · next htakes =>
        rw [if_pos htakes]
        exact ⟨reply, s', _, hlogin, hcases.1, rfl, hcases.2⟩
      · next htakes =>
        rw [if_neg htakes]
        exact ⟨reply, s', _, hlogin, hcases, .r500, Or.inr (Or.inl rfl), rfl⟩
    · refine ⟨_, _, _, rfl, rfl, ?_⟩
      rw [ite_self]
      exact ⟨.r300, Or.inl rfl, rfl⟩

theorem route_account {command : ServerCommand.Name} {tArg : ByteString} {raw : Message}
    (hcommand : command = .login ∨ command = .create) (hvalid : tReq.mValid = true)
    (hne : tArg ≠ []) (htext : raw.text = ServerCommand.toString command ++ space :: tArg) :
    route pg draw (raw.request tReq) s =
      controllers pg draw command tArg { raw.request tReq with mToken := [] } s := by
  obtain ⟨hname, hbody⟩ := WireFormat.command_body htext
  have hopen : requireLogin raw.command = false := by
    rw [hname]
    rcases hcommand with rfl | rfl
    · rfl
    · rfl
  have hoperands : openOperands raw = ([], tArg) := by
    rw [openOperands, hname, hbody]
    rcases hcommand with rfl | rfl
    · rfl
    · rfl
  have hvalidate : validateArgument command tArg = true := by
    have hnonempty : tArg.isEmpty = false := List.isEmpty_eq_false_iff.mpr hne
    rcases hcommand with rfl | rfl
    · simp [validateArgument, hnonempty]
    · simp [validateArgument, hnonempty]
  rw [route_openOperands pg draw s hvalid hopen, hoperands, hname]
  dsimp only
  rw [if_pos hvalidate]

theorem validResponse_append (code : Reply.Code) (rest : ByteString) :
    validResponse code (Reply.getMessage code ++ rest) = true := by
  have hfind : find (Reply.getMessage code ++ rest) (Reply.getMessage code) 0 = 0 := by
    rw [find, if_pos (Nat.zero_le _), List.drop_zero, Search.search_self_append]
  rw [validResponse, hfind]
  decide

theorem validResponse_refusal {text : ByteString} (h : Refusal text) :
    validResponse .r201 text = false := by
  obtain ⟨code, rfl | rfl | rfl, rfl⟩ := h
  · decide +kernel
  · decide +kernel
  · decide +kernel

theorem carried_getMessage (code : Reply.Code) : Carried (Reply.getMessage code) := by
  cases code <;> decide +kernel

structure Typed (acc : Accounts) (tReq : Request) : Prop where
  valid : tReq.mValid = true
  username : 0 ∉ acc.mUsername
  password : 0 ∉ acc.mPassword
  address : 0 ∉ tReq.mAddress
  short : acc.mUsername.length + acc.mPassword.length + tReq.mAddress.length < 2 ^ 31 - 100

theorem Typed.credentials (h : Typed acc tReq) : 0 ∉ acc.credentialsText ∧
    acc.credentialsText.length < 2 ^ 31 - 99 := by
  have hshort := h.short
  have hspace : (0 : UInt8) ∉ str " " := by decide
  constructor
  · simp [credentialsText, h.username, h.password, hspace]
  · rw [credentialsText, List.length_append, List.length_append]
    have hone : (str " ").length = 1 := rfl
    omega

theorem Typed.carried_command (h : Typed acc tReq) {word : ByteString} (hnul : 0 ∉ word)
    (hlen : word.length ≤ 50) : Carried (word ++ acc.mUsername ++ str " " ++ acc.mPassword) := by
  obtain ⟨hcredentials, hshort⟩ := h.credentials
  have hassoc : word ++ acc.mUsername ++ str " " ++ acc.mPassword =
      word ++ acc.credentialsText := by
    rw [credentialsText]
    simp
  rw [hassoc]
  constructor
  · rw [List.mem_append, not_or]
    exact ⟨hnul, hcredentials⟩
  · rw [List.length_append]
    omega

theorem carried_token (h : ∃ rand, generate mTokenLength rand = draw.token) :
    0 ∉ draw.token ∧ space ∉ draw.token ∧ draw.token.length = 38 := by
  obtain ⟨hlength, hdrawn⟩ := (exists_generate_iff mTokenLength draw.token).mp h
  exact ⟨notMem_of_drawn hdrawn (by decide), notMem_of_drawn hdrawn (by decide), hlength⟩

theorem exchange_login (pg : Engine) (s : Server) (h : Typed acc tReq)
    (htoken : ∃ rand, generate mTokenLength rand = draw.token) :
    ∃ text s', server pg draw tReq (str "LOGIN " ++ acc.mUsername ++ str " " ++ acc.mPassword) s =
        .ok (some text, s') ∧
      match admitted pg draw tReq acc s.db.toDatabase with
      | none => Refusal text
      | some user => text = str "201 " ++ draw.token ∧ SignedIn draw tReq user s.db s'.db := by
  have hcommand : Carried (str "LOGIN " ++ acc.mUsername ++ str " " ++ acc.mPassword) :=
    h.carried_command (by decide) (by decide)
  have htext : hcommand.message.text =
      ServerCommand.toString .login ++ space :: acc.credentialsText := by
    simp [Carried.message, credentialsText, ServerCommand.toString, ServerCommand.commands, str]
  have hne : acc.credentialsText ≠ [] := by
    simp [credentialsText, str]
  have hshort : acc.credentialsText.length < 2 ^ 31 := by
    have hlen := h.credentials.2
    omega
  obtain ⟨reply, s', text, hlogin, hreply, hcases⟩ := login_reply pg draw hshort
    { hcommand.message.request tReq with mToken := [] } s
  have hroute : route pg draw (hcommand.message.request tReq) s = .ok (reply, s') := by
    rw [route_account (Or.inl rfl) h.valid hne htext]
    exact hlogin
  have hcarried : Carried text := by
    split at hcases
    · obtain ⟨code, -, rfl⟩ := hcases
      exact carried_getMessage code
    · obtain ⟨hnul, -, hlen⟩ := carried_token htoken
      rw [hcases.1]
      constructor
      · rw [List.mem_append, not_or]
        exact ⟨by decide, hnul⟩
      · rw [List.length_append, hlen]
        decide
  exact ⟨text, s', server_eq hcommand hroute hreply hcarried, hcases⟩

def Fresh (token : ByteString) (db : Tables) : Prop := ∀ row ∈ db.tokens, row.token ≠ some token

instance (token : ByteString) (db : Tables) : Decidable (Fresh token db) :=
  inferInstanceAs (Decidable (∀ row ∈ db.tokens, row.token ≠ some token))

theorem exec1_eq_none_iff {α : Type} {rows : List α} : exec1 rows = none ↔ rows.length ≠ 1 := by
  match rows with
  | [] => simp [exec1]
  | [row] => simp [exec1]
  | _ :: _ :: _ => simp [exec1]

theorem filter_id {users : List UserRow} (hids : (users.map UserRow.id).Nodup) {row : UserRow}
    (hrow : row ∈ users) : (users.filter fun u => row.id = u.id) = [row] := by
  rw [← Keyed.filter_key hids hrow]
  apply List.filter_congr
  intro u hu
  rw [decide_eq_decide]
  exact eq_comm

theorem length_filter_id {users : List UserRow} (hids : (users.map UserRow.id).Nodup) {id : ℤ}
    (hid : id ∈ users.map UserRow.id) : (users.filter fun u => id = u.id).length = 1 := by
  obtain ⟨row, hrow, rfl⟩ := List.mem_map.mp hid
  rw [filter_id hids hrow]
  rfl

theorem searchUserByToken_found {db : Database} (hids : (db.users.map UserRow.id).Nodup)
    (howned : ∀ row ∈ db.tokens, row.userId ∈ db.users.map UserRow.id) {token : ByteString}
    (hint : ∀ row, (db.tokens.filter fun t => t.token = some token) = [row] →
      (toInt row.userId).isSome = true) :
    (searchUserByToken db token).mEmpty = false ↔
      (db.tokens.filter fun t => t.token = some token).length = 1 := by
  have hlength : ((db.tokens.filter fun t => t.token = some token).flatMap fun t =>
      db.users.filter fun u => t.userId = u.id).length =
        (db.tokens.filter fun t => t.token = some token).length := by
    rw [List.length_flatMap, List.map_congr_left (g := fun _ => 1), List.map_const',
      List.sum_replicate, smul_eq_mul, mul_one]
    intro t ht
    exact length_filter_id hids (howned t (List.mem_filter.mp ht).1)
  rw [searchUserByToken, ← hlength]
  split
  · next hnone => exact iff_of_false (by decide) (exec1_eq_none_iff.mp hnone)
  · next row hrow =>
    have hone : ¬exec1 ((db.tokens.filter fun t => t.token = some token).flatMap fun t =>
        db.users.filter fun u => t.userId = u.id) = none := by
      rw [hrow]
      exact Option.some_ne_none row
    rw [exec1_eq_none_iff, not_not] at hone
    obtain ⟨t, ht⟩ := List.length_eq_one_iff.mp (hlength ▸ hone)
    have hmem := mem_of_exec1 hrow
    rw [ht, List.flatMap_singleton, List.mem_filter, decide_eq_true_eq] at hmem
    have hsome := hint t ht
    rw [hmem.2] at hsome
    obtain ⟨i, hi⟩ := Option.isSome_iff_exists.mp hsome
    rw [hi]
    exact iff_of_true rfl hone

theorem toInt_toInt (i : Int32) : Postgres.toInt i.toInt = some i := by
  rw [Postgres.toInt, if_pos ⟨i.le_toInt, i.toInt_lt⟩, Int32.ofInt_toInt]

theorem found_iff_fresh {a b : Tables} (ha : WellFormed a) (huser : Stored a.users user.mId)
    (h : SignedIn draw tReq user a b) :
    (searchUserByToken b.toDatabase draw.token).mEmpty = false ↔ Fresh draw.token a := by
  obtain ⟨husers, htokens⟩ := h
  have hids : b.users.map UserRow.id = a.users.map UserRow.id := by
    rw [husers, OneSession.map_id_setPresence]
  have hfilter : (b.tokens.filter fun t => t.token = some draw.token) =
      (a.tokens.filter fun t => t.token = some draw.token) ++
        [⟨user.mId.toInt, some draw.token⟩] := by
    rw [htokens, List.filter_append]
    simp
  rw [searchUserByToken_found]
  · rw [hfilter, List.length_append, List.length_singleton, Nat.add_eq_right,
      List.length_eq_zero_iff, List.filter_eq_nil_iff, Fresh]
    simp
  · exact hids ▸ ha.ids
  · intro row hrow
    rw [hids]
    rw [htokens] at hrow
    rcases List.mem_append.mp hrow with hold | hself
    · exact ha.tokens row hold
    · rw [List.mem_singleton.mp hself]
      exact huser
  · intro row hone
    rw [hfilter] at hone
    have hlast : row = ⟨user.mId.toInt, some draw.token⟩ := by
      have hgetLast := congrArg List.getLast? hone
      simpa [eq_comm] using hgetLast
    rw [hlast, toInt_toInt]
    rfl

theorem searchUserBy_username (pg : Engine) {db : Database}
    (hnames : (db.users.map UserRow.username).Nodup)
    {row : UserRow} (hrow : row ∈ db.users) {id : Int32} (hid : toInt row.id = some id) :
    searchUserBy pg db row.username .username =
      ⟨id, row.username, row.password, row.online, row.address.getD (str " "), false⟩ := by
  have hfilter : (db.users.filter (UserField.username.reads pg row.username)) = [row] := by
    rw [← Keyed.filter_key hnames hrow]
    apply List.filter_congr
    intro u hu
    rw [UserField.reads, Bool.eq_iff_iff, beq_iff_eq, decide_eq_true_eq]
  rw [searchUserBy, hfilter]
  dsimp only [exec1]
  rw [rowToUser, hid]
  rfl

theorem searchUserBy_unknown {db : Database} {name : ByteString}
    (h : ∀ row ∈ db.users, row.username ≠ name) :
    (searchUserBy pg db name .username).mEmpty = true := by
  have hfilter : (db.users.filter (UserField.username.reads pg name)) = [] := by
    rw [List.filter_eq_nil_iff]
    intro row hrow hreads
    exact h row hrow (beq_iff_eq.mp hreads)
  rw [searchUserBy, hfilter]
  rfl

theorem row_of_found {db : Database} {name : ByteString}
    (h : (searchUserBy pg db name .username).mEmpty = false) :
    ∃ row ∈ db.users, ∃ id, toInt row.id = some id ∧ row.username = name ∧
      searchUserBy pg db name .username =
        ⟨id, row.username, row.password, row.online, row.address.getD (str " "), false⟩ := by
  unfold searchUserBy at h ⊢
  cases hrow : exec1 (db.users.filter (UserField.username.reads pg name)) with
  | none =>
    rw [hrow] at h
    cases h
  | some row =>
    rw [hrow] at h
    obtain ⟨hmem, hreads⟩ := List.mem_filter.mp (mem_of_exec1 hrow)
    cases hid : toInt row.id with
    | none =>
      dsimp only at h
      rw [rowToUser, hid] at h
      cases h
    | some id =>
      refine ⟨row, hmem, id, hid, beq_iff_eq.mp hreads, ?_⟩
      dsimp only
      rw [rowToUser, hid]
      rfl

theorem row_of_authenticated {tArg : ByteString}
    (h : authenticated pg tArg db.toDatabase = some user) :
    ∃ row ∈ db.users, toInt row.id = some user.mId ∧ row.username = user.mUsername ∧
      user.mUsername = (credentials tArg).1 := by
  unfold authenticated at h
  dsimp only at h
  split at h
  · cases h
  · split at h
    · next hfound =>
      obtain rfl := Option.some.inj h
      obtain ⟨row, hrow, id, hid, hname, hsearch⟩ := row_of_found hfound.1
      rw [hsearch]
      exact ⟨row, hrow, hid, rfl, hname⟩
    · cases h

theorem row_of_signedIn {a b : Tables} (h : SignedIn draw tReq user a b) {row : UserRow}
    (hrow : row ∈ a.users) (hid : row.id = user.mId.toInt) :
    { row with online := true, address := some tReq.mAddress } ∈ b.users := by
  rw [h.1, setPresence]
  exact List.mem_map.mpr ⟨row, hrow, if_pos hid⟩

def searchText (user : User) : ByteString :=
  if user.mEmpty = false then str "201 " ++ { user with mPassword := [] }.toString
  else Reply.getMessage .r301

theorem search_reply (pg : Engine) (name : ByteString) (tReq : Request) (s : Server) :
    ∃ reply s', UserControllers.search pg name tReq s = .ok (reply, s') ∧
      reply.mData = some (textData (searchText (searchUserBy pg s.db.toDatabase name .username))) ∧
        s'.db = s.db := by
  unfold UserControllers.search searchText
  have hsearch : s.searchUserBy pg name .username =
      (searchUserBy pg s.db.toDatabase name .username,
        s.send (.searchUserBy .username) (searchUserText name .username)) := rfl
  rw [hsearch]
  dsimp only
  split
  · rw [setRequestReplyMsg, Reply.appendMessage_r201]
    exact ⟨_, _, rfl, rfl, rfl⟩
  · exact ⟨_, _, rfl, rfl, rfl⟩

theorem route_search {raw : Message} {token name : ByteString} (hvalid : tReq.mValid = true)
    (hspace : space ∉ token) (hname : name ≠ [])
    (htext : raw.text = ServerCommand.toString .search ++ space :: (token ++ space :: name)) :
    ∃ reply s', route pg draw (raw.request tReq) s = .ok (reply, s') ∧ s'.db = s.db ∧
      reply.mData = some (textData
        (if (searchUserByToken s.db.toDatabase token).mEmpty then Reply.getMessage .r202
        else searchText (searchUserBy pg s.db.toDatabase name .username))) := by
  obtain ⟨hcommand, hbody⟩ := WireFormat.command_body htext
  have hcut : Search.cutFirst [space] raw.body = (token, name) := by
    rw [hbody, Search.cutFirst_append_cons name hspace]
  have hword : raw.word = token := congrArg Prod.fst hcut
  have harguments : raw.arguments = name := congrArg Prod.snd hcut
  have hlogin : requireLogin raw.command = true := by rw [hcommand]; rfl
  have hvalidate : validateArgument .search name = true := by
    have hnonempty : name.isEmpty = false := List.isEmpty_eq_false_iff.mpr hname
    simp [validateArgument, hnonempty]
  rw [route_login pg draw s hvalid hlogin, hword, harguments, hcommand, if_pos hvalidate]
  split
  · exact ⟨_, _, rfl, rfl, rfl⟩
  · obtain ⟨reply, s', hsearch, hreply, hdb⟩ := search_reply pg name
      { raw.request tReq with mToken := token } (asked s token)
    exact ⟨reply, s', hsearch, hdb, hreply⟩

theorem searchText_eq (user : User) (hfound : user.mEmpty = false) :
    ∃ rest, searchText user = str "201 id:" ++ intToString user.mId ++ comma :: rest ∧
      (0 ∉ user.mUsername → 0 ∉ user.mAddress → 0 ∉ rest) ∧
        rest.length ≤ user.mUsername.length + user.mAddress.length + 40 := by
  have honline : ∀ b : Bool, (0 : UInt8) ∉ (if b then str "true" else str "false") ∧
      (if b then str "true" else str "false").length ≤ 5 := by decide
  obtain ⟨hnul, hlen⟩ := honline user.mOnline
  rw [searchText, if_pos hfound, User.toString]
  dsimp only
  generalize (if user.mOnline then str "true" else str "false") = online at hnul hlen
  by_cases haddress : user.mAddress = []
  · rw [if_pos ⟨rfl, haddress⟩]
    refine ⟨str "username:" ++ user.mUsername ++ str ",online:" ++ online, by simp [str], ?_, ?_⟩
    · intro hname _
      simp only [List.mem_append, not_or]
      exact ⟨⟨⟨by decide, hname⟩, by decide⟩, hnul⟩
    · simp only [List.length_append]
      have hword : (str "username:").length + (str ",online:").length = 17 := rfl
      omega
  · rw [if_neg fun h => haddress h.2, if_pos rfl]
    refine ⟨str "username:" ++ user.mUsername ++ str ",online:" ++ online ++ str ",address:" ++
      user.mAddress, by simp [str], ?_, ?_⟩
    · intro hname haddr
      simp only [List.mem_append, not_or]
      exact ⟨⟨⟨⟨⟨by decide, hname⟩, by decide⟩, hnul⟩, by decide⟩, haddr⟩
    · simp only [List.length_append]
      have hword : (str "username:").length + (str ",online:").length +
          (str ",address:").length = 26 := rfl
      omega

theorem readId {rest : ByteString} {id : Int32}
    (hshort : (str "201 id:" ++ intToString id ++ comma :: rest).length < 2 ^ 31) :
    StringUtils.splitFirst (str "201 id:" ++ intToString id ++ comma :: rest) (str ",") =
        .ok (str "201 id:" ++ intToString id, rest) ∧
      StringUtils.splitFirst (str "201 id:" ++ intToString id) (str ":") =
        .ok (str "201 id", intToString id) := by
  have hcomma : comma ∉ str "201 id:" ++ intToString id := by
    rw [List.mem_append, not_or]
    exact ⟨by decide, UserChat.notMem_intToString id⟩
  have hcolon : str "201 id:" ++ intToString id = str "201 id" ++ colon :: intToString id := by
    simp [str]
  constructor
  · rw [StringUtils.splitFirst_eq hshort]
    exact congrArg _ (Search.cutFirst_append_cons rest hcomma)
  · rw [List.length_append] at hshort
    rw [StringUtils.splitFirst_eq (by omega), hcolon]
    exact congrArg _ (Search.cutFirst_append_cons _ (by decide))

theorem found_behind {a b : Tables} (ha : WellFormed a) (h : SignedIn draw tReq user a b)
    (hauth : authenticated pg acc.credentialsText a.toDatabase = some user) :
    if acc.mUsername = user.mUsername then
      ∃ password, searchUserBy pg b.toDatabase acc.mUsername .username =
        ⟨user.mId, acc.mUsername, password, true, tReq.mAddress, false⟩
    else (searchUserBy pg b.toDatabase acc.mUsername .username).mEmpty = true := by
  obtain ⟨row, hrow, hid, hname, hword⟩ := row_of_authenticated hauth
  have hnames : b.users.map UserRow.username = a.users.map UserRow.username := by
    rw [h.1]
    exact map_setPresence UserRow.username (fun _ _ _ => rfl) _ _ _ _
  split
  · next hsame =>
    have hmem := row_of_signedIn h hrow (toInt_eq_some hid).symm
    have hunique : (b.toDatabase.users.map UserRow.username).Nodup := hnames ▸ ha.usernames
    have hfound := searchUserBy_username pg hunique hmem hid
    dsimp only at hfound
    rw [hname, ← hsame] at hfound
    exact ⟨row.password, hfound⟩
  · next hother =>
    apply searchUserBy_unknown
    intro other hmem htyped
    have hstored : other.username ∈ a.users.map UserRow.username := by
      rw [← hnames]
      exact List.mem_map_of_mem hmem
    obtain ⟨old, hold, hsame⟩ := List.mem_map.mp hstored
    have hspace : space ∉ acc.mUsername := by
      rw [← htyped, ← hsame]
      exact (ha.accounts old hold).2.1
    apply hother
    have hcut : Search.cutFirst [space] acc.credentialsText = (acc.mUsername, acc.mPassword) := by
      have htext : acc.credentialsText = acc.mUsername ++ space :: acc.mPassword := by
        simp [credentialsText, str]
      rw [htext, Search.cutFirst_append_cons _ hspace]
    rw [hword, credentials, hcut]

theorem exchange_search (pg : Engine) (h : Typed acc tReq) (hacc : acc.mUsername ≠ [])
    (htoken : ∃ rand, generate mTokenLength rand = draw.token)
    (hcarried : Carried (searchText (searchUserBy pg s.db.toDatabase acc.mUsername .username))) :
    ∃ s', server pg draw tReq (str "SEARCH " ++ draw.token ++ str " " ++ acc.mUsername) s =
        .ok (some (if (searchUserByToken s.db.toDatabase draw.token).mEmpty then
          Reply.getMessage .r202
        else searchText (searchUserBy pg s.db.toDatabase acc.mUsername .username)), s') ∧
      s'.db = s.db := by
  obtain ⟨hnul, hspace, hlen⟩ := carried_token htoken
  have hcommand : Carried (str "SEARCH " ++ draw.token ++ str " " ++ acc.mUsername) := by
    constructor
    · simp only [List.mem_append, not_or]
      exact ⟨⟨⟨by decide, hnul⟩, by decide⟩, h.username⟩
    · have hshort := h.short
      have hwords : (str "SEARCH ").length + (str " ").length = 8 := rfl
      simp only [List.length_append]
      omega
  have htext : hcommand.message.text =
      ServerCommand.toString .search ++ space :: (draw.token ++ space :: acc.mUsername) := by
    simp [Carried.message, ServerCommand.toString, ServerCommand.commands, str]
  obtain ⟨reply, s', hroute, hdb, hreply⟩ :=
    route_search h.valid hspace hacc htext
  refine ⟨s', server_eq hcommand hroute hreply ?_, hdb⟩
  split
  · exact carried_getMessage .r202
  · exact hcarried

section

variable {σ : Type} {conn : Connection σ} {t t' : σ} {response rest : ByteString}

theorem setId_refused (hconn : conn (str "SEARCH " ++ acc.mToken ++ str " " ++ acc.mUsername) t =
      .ok (some response, t')) (hrefused : validResponse .r201 response = false) :
    acc.setId conn t = .ok (true, acc, t') := by
  rw [setId, hconn, ok_bind]
  dsimp only
  rw [if_pos hrefused]
  rfl

theorem setId_told {id : Int32}
    (hconn : conn (str "SEARCH " ++ acc.mToken ++ str " " ++ acc.mUsername) t =
      .ok (some (str "201 id:" ++ intToString id ++ comma :: rest), t'))
    (hshort : (str "201 id:" ++ intToString id ++ comma :: rest).length < 2 ^ 31) :
    acc.setId conn t = .ok (true, { acc with mId := id }, t') := by
  have hvalid : validResponse .r201 (str "201 id:" ++ intToString id ++ comma :: rest) = true := by
    rw [List.append_assoc]
    exact validResponse_append .r201 (str " id:" ++ (intToString id ++ comma :: rest))
  obtain ⟨hid, hkey⟩ := readId hshort
  rw [setId, hconn, ok_bind]
  dsimp only
  rw [if_neg (ne_false_of_eq_true hvalid), hid, ok_bind]
  dsimp only
  rw [hkey, ok_bind]
  dsimp only
  rw [stoi_intToString]
  rfl

end

theorem setId_server {a : Tables} (h : Typed acc tReq) (ha : WellFormed a)
    (htoken : ∃ rand, generate mTokenLength rand = draw.token)
    (hsigned : SignedIn draw tReq user a s.db)
    (hauth : authenticated pg acc.credentialsText a.toDatabase = some user)
    (hacc : acc.mUsername ≠ []) (acc₁ : Accounts) (hname : acc₁.mUsername = acc.mUsername)
    (hkept : acc₁.mToken = draw.token) :
    ∃ s', acc₁.setId (server pg draw tReq) s = .ok (true,
        { acc₁ with mId :=
            if Fresh draw.token a ∧ acc.mUsername = user.mUsername then user.mId else acc₁.mId },
        s') ∧ s'.db = s.db := by
  obtain ⟨row, hrow, hid, -⟩ := row_of_authenticated hauth
  have hstored : Stored a.users user.mId := by
    rw [Stored, toInt_eq_some hid]
    exact List.mem_map_of_mem hrow
  have hfresh := found_iff_fresh ha hstored hsigned
  have hbehind := found_behind ha hsigned hauth
  have hcarried :
      Carried (searchText (searchUserBy pg s.db.toDatabase acc.mUsername .username)) := by
    split at hbehind
    · obtain ⟨password, hfound⟩ := hbehind
      rw [hfound]
      obtain ⟨rest, htext, hnul, hlen⟩ := searchText_eq
        ⟨user.mId, acc.mUsername, password, true, tReq.mAddress, false⟩ rfl
      have hshort := h.short
      have hprint := PeerEndpoints.length_printInt_le user.mId
      rw [htext]
      constructor
      · simp only [List.mem_append, List.mem_cons, not_or]
        exact ⟨⟨by decide, Decimal.notMem_printInt (by decide) (by decide)⟩, by decide,
          hnul h.username h.address⟩
      · have hword : (str "201 id:").length = 7 := rfl
        simp only [List.length_append, List.length_cons]
        dsimp only at hlen hprint ⊢
        omega
    · rw [searchText, if_neg (by simp [hbehind])]
      exact carried_getMessage .r301
  obtain ⟨s', hexchange, hdb⟩ := exchange_search pg h hacc htoken hcarried
  refine ⟨s', ?_, hdb⟩
  rw [← hname, ← hkept] at hexchange
  by_cases hnew : Fresh draw.token a
  · have hnonempty : ¬(searchUserByToken s.db.toDatabase draw.token).mEmpty = true :=
      ne_true_of_eq_false (hfresh.mpr hnew)
    rw [hkept, if_neg hnonempty, hname] at hexchange
    split at hbehind
    · next hsame =>
      obtain ⟨password, hfound⟩ := hbehind
      rw [hfound] at hcarried hexchange
      obtain ⟨rest, htext, -⟩ := searchText_eq
        ⟨user.mId, acc.mUsername, password, true, tReq.mAddress, false⟩ rfl
      have hshort := hcarried.short
      rw [htext] at hexchange hshort
      rw [if_pos ⟨hnew, hsame⟩]
      rw [← hname, ← hkept] at hexchange
      exact setId_told hexchange (hshort.trans (by decide))
    · next hother =>
      rw [searchText, if_neg (by simp [hbehind])] at hexchange
      rw [if_neg fun hboth => hother hboth.2]
      rw [← hname, ← hkept] at hexchange
      exact setId_refused hexchange (by decide +kernel)
  · have hempty : (searchUserByToken s.db.toDatabase draw.token).mEmpty = true :=
      eq_true_of_ne_false fun hfound => hnew (hfresh.mp hfound)
    rw [hkept, if_pos hempty] at hexchange
    rw [if_neg fun hboth => hnew hboth.1]
    rw [← hkept] at hexchange
    exact setId_refused hexchange (by decide +kernel)

theorem login_refused (pg : Engine) (s : Server) (h : Typed acc tReq)
    (htoken : ∃ rand, generate mTokenLength rand = draw.token)
    (hadmitted : admitted pg draw tReq acc s.db.toDatabase = none) :
    ∃ s', acc.login (server pg draw tReq) s = .ok (false, acc, s') := by
  obtain ⟨text, s₁, hexchange, hcases⟩ := exchange_login pg s h htoken
  rw [hadmitted] at hcases
  rw [login, hexchange, ok_bind]
  dsimp only
  rw [if_pos (validResponse_refusal hcases)]
  exact ⟨s₁, rfl⟩

theorem login_admitted (pg : Engine) (s : Server) (h : Typed acc tReq) (hdb : WellFormed s.db)
    (htoken : ∃ rand, generate mTokenLength rand = draw.token)
    (hadmitted : admitted pg draw tReq acc s.db.toDatabase = some user) :
    ∃ s', acc.login (server pg draw tReq) s = .ok (true,
      { acc with
        mPassword := []
        mToken := draw.token
        mId := if Fresh draw.token s.db ∧ acc.mUsername = user.mUsername then user.mId else acc.mId
        mLoggedIn := true }, s') ∧ SignedIn draw tReq user s.db s'.db := by
  obtain ⟨text, s₁, hexchange, hcases⟩ := exchange_login pg s h htoken
  rw [hadmitted] at hcases
  obtain ⟨rfl, hsigned⟩ := hcases
  have hauth : authenticated pg acc.credentialsText s.db.toDatabase = some user := by
    unfold admitted at hadmitted
    split at hadmitted
    · exact hadmitted
    · cases hadmitted
  have hname : acc.mUsername ≠ [] := by
    intro hempty
    obtain ⟨row, hrow, -, hrowName, hword⟩ := row_of_authenticated hauth
    have hcut : credentials acc.credentialsText = ([], acc.mPassword) := by
      rw [credentialsText, hempty]
      exact Search.cutFirst_append_cons (a := []) acc.mPassword (by simp)
    apply (hdb.accounts row hrow).1
    rw [hrowName, hword, hcut]
  obtain ⟨-, -, hlen⟩ := carried_token htoken
  have hvalid : ¬validResponse .r201 (str "201 " ++ draw.token) = false := by
    rw [Bool.not_eq_false]
    exact validResponse_append .r201 (str " " ++ draw.token)
  have hsplit : StringUtils.splitFirst (str "201 " ++ draw.token) (str " ") =
      .ok (str "201", draw.token) := by
    have hshort : (str "201 " ++ draw.token).length < 2 ^ 31 := by
      rw [List.length_append, hlen]
      decide
    have hcut : Search.cutFirst [space] (str "201 " ++ draw.token) = (str "201", draw.token) :=
      Search.cutFirst_append_cons (a := str "201") draw.token (by decide)
    rw [splitFirst_space hshort, hcut]
  obtain ⟨s₂, hset, hdb₂⟩ := setId_server h hdb htoken hsigned hauth hname
    { acc with mPassword := [], mToken := draw.token, mLoggedIn := true } rfl rfl
  rw [login, hexchange, ok_bind]
  dsimp only
  rw [if_neg hvalid, hsplit, ok_bind]
  exact ⟨s₂, hset, hdb₂ ▸ hsigned⟩

/-- A login with the server at the other end, whatever was typed: the client keeps the new
token of the user that is let in, and has its id where the token was new and the name has
no space. -/
theorem login_outcome (pg : Engine) (draw : Draw) (tReq : Request) (acc : Accounts) (s : Server)
    (h : Typed acc tReq) (hdb : WellFormed s.db)
    (htoken : ∃ rand, generate mTokenLength rand = draw.token) :
    ∃ ok after s', acc.login (server pg draw tReq) s = .ok (ok, after, s') ∧
      match admitted pg draw tReq acc s.db.toDatabase with
      | none => ok = false ∧ after = acc
      | some user => ok = true ∧ SignedIn draw tReq user s.db s'.db ∧
        after =
          { acc with
            mPassword := []
            mToken := draw.token
            mId := if Fresh draw.token s.db ∧ acc.mUsername = user.mUsername then user.mId
              else acc.mId
            mLoggedIn := true } := by
  cases hadmitted : admitted pg draw tReq acc s.db.toDatabase with
  | none =>
    obtain ⟨s', hlogin⟩ := login_refused pg s h htoken hadmitted
    exact ⟨_, _, s', hlogin, rfl, rfl⟩
  | some user =>
    obtain ⟨s', hlogin, hsigned⟩ := login_admitted pg s h hdb htoken hadmitted
    exact ⟨_, _, s', hlogin, rfl, hsigned, rfl⟩

/-! ### `CREATE`, and a login any time later -/

theorem create_reply (pg : Engine) (draw : Draw) {tArg : ByteString}
    (hshort : tArg.length < 2 ^ 31) (tReq : Request) (s : Server) :
    ∃ reply s' text, UserControllers.create pg draw tArg tReq s = .ok (reply, s') ∧
      reply.mData = some (textData text) ∧ s'.db = created pg draw tArg tReq.mAddress s.db ∧
        Carried text ∧ (validResponse .r200 text = true →
          ∃ address, (⟨draw.userId, (credentials tArg).1, (credentials tArg).2, false, address⟩ :
            UserRow) ∈ s'.db.users ∧ (credentials tArg).1 ≠ [] ∧ (credentials tArg).2 ≠ []) := by
  have h501 : validResponse .r200 (Reply.getMessage .r501) = false := by decide +kernel
  have h300 : validResponse .r200 (Reply.getMessage .r300) = false := by decide +kernel
  rw [UserControllers.create, splitFirst_space hshort, ok_bind, created, credentials]
  dsimp only
  by_cases hwords : (Search.cutFirst [space] tArg).1 = [] ∨ (Search.cutFirst [space] tArg).2 = []
  · rw [if_pos hwords, if_pos hwords]
    refine ⟨_, s, _, rfl, rfl, rfl, carried_getMessage .r501, ?_⟩
    intro hvalid
    rw [h501] at hvalid
    cases hvalid
  · rw [if_neg hwords, if_neg hwords, Server.addUser, addUser]
    dsimp only
    split
    · refine ⟨_, _, _, rfl, rfl, rfl, carried_getMessage .r300, ?_⟩
      intro hvalid
      exact absurd (h300.symm.trans hvalid) Bool.false_ne_true
    · refine ⟨_, _, _, rfl, rfl, rfl, carried_getMessage .r200, ?_⟩
      intro hvalid
      exact ⟨_, List.mem_append_right _ (List.mem_singleton_self _), not_or.mp hwords⟩

theorem register_outcome (pg : Engine) (draw : Draw) (s : Server) (h : Typed acc tReq) :
    ∃ ok s', acc.registerUser (server pg draw tReq) s = .ok (ok, s') ∧
      s'.db = created pg draw acc.credentialsText tReq.mAddress s.db ∧
        (ok = true → ∃ address, (⟨draw.userId, (credentials acc.credentialsText).1,
          (credentials acc.credentialsText).2, false, address⟩ : UserRow) ∈ s'.db.users ∧
            (credentials acc.credentialsText).1 ≠ [] ∧
              (credentials acc.credentialsText).2 ≠ []) := by
  have hcommand : Carried (str "CREATE " ++ acc.mUsername ++ str " " ++ acc.mPassword) :=
    h.carried_command (by decide) (by decide)
  have htext : hcommand.message.text =
      ServerCommand.toString .create ++ space :: acc.credentialsText := by
    simp [Carried.message, credentialsText, ServerCommand.toString, ServerCommand.commands, str]
  have hne : acc.credentialsText ≠ [] := by
    simp [credentialsText, str]
  have hshort : acc.credentialsText.length < 2 ^ 31 := by
    have hlen := h.credentials.2
    omega
  obtain ⟨reply, s', text, hcreate, hreply, hdb, hcarried, hcreated⟩ := create_reply pg draw hshort
    { hcommand.message.request tReq with mToken := [] } s
  have hroute : route pg draw (hcommand.message.request tReq) s = .ok (reply, s') := by
    rw [route_account (Or.inr rfl) h.valid hne htext]
    exact hcreate
  rw [registerUser, server_eq hcommand hroute hreply hcarried, ok_bind]
  exact ⟨_, s', rfl, hdb, hcreated⟩

theorem credentials_password (acc : Accounts) (password : ByteString) :
    (credentials { acc with mPassword := password }.credentialsText).1 =
        (credentials acc.credentialsText).1 ∧
      ((credentials { acc with mPassword := password }.credentialsText).2 =
        (credentials acc.credentialsText).2 ↔ password = acc.mPassword) := by
  have htext : ∀ pw, ({ acc with mPassword := pw }).credentialsText =
      acc.mUsername ++ space :: pw := by
    intro pw
    simp [credentialsText, str]
  have hself : acc.credentialsText = acc.mUsername ++ space :: acc.mPassword :=
    htext acc.mPassword
  rw [htext password, hself, credentials, credentials]
  by_cases hspace : space ∈ acc.mUsername
  · obtain ⟨front, back, hname, hfront⟩ := List.eq_append_cons_of_mem hspace
    rw [hname, List.append_assoc, List.append_assoc, List.cons_append, List.cons_append,
      Search.cutFirst_append_cons _ hfront, Search.cutFirst_append_cons _ hfront]
    refine ⟨rfl, ?_⟩
    rw [List.append_cancel_left_eq, List.cons_inj_right]
  · rw [Search.cutFirst_append_cons _ hspace, Search.cutFirst_append_cons _ hspace]
    exact ⟨rfl, Iff.rfl⟩

theorem authenticated_iff {tArg : ByteString} (hdb : WellFormed db) {row : UserRow}
    (hrow : row ∈ db.users) (hid : toInt row.id ≠ none)
    (hname : (credentials tArg).1 = row.username) :
    (authenticated pg tArg db.toDatabase).isSome = true ↔ (credentials tArg).2 = row.password := by
  obtain ⟨id, hid⟩ := Option.ne_none_iff_exists'.mp hid
  obtain ⟨hnonempty, -, hpassword⟩ := hdb.accounts row hrow
  have hunique : (db.toDatabase.users.map UserRow.username).Nodup := hdb.usernames
  have hfound := searchUserBy_username pg hunique hrow hid
  unfold authenticated
  generalize credentials tArg = words at hname
  obtain ⟨username, password⟩ := words
  dsimp only at hname ⊢
  subst hname
  rw [hfound]
  by_cases hempty : password = []
  · rw [if_pos (Or.inr hempty), hempty]
    exact iff_of_false (by simp) (Ne.symm hpassword)
  · rw [if_neg (not_or.mpr ⟨hnonempty, hempty⟩)]
    by_cases hsame : password = row.password
    · rw [if_pos ⟨rfl, hsame.symm⟩]
      exact iff_of_true rfl hsame
    · rw [if_neg fun hboth => hsame hboth.2.symm]
      exact iff_of_false (by simp) hsame

end

def john : Accounts := ⟨str "john", str "1234", [], -1, false⟩

def ann : Accounts := ⟨str "ann", str "9999", [], -1, false⟩

def annDraw : Draw := { sampleDraw with token := generate mTokenLength id }

theorem typed_john : Typed john johnRequest := ⟨rfl, by decide, by decide, by decide, by decide⟩

theorem typed_ann : Typed ann johnRequest := ⟨rfl, by decide, by decide, by decide, by decide⟩

theorem login_outcome_john : ∃ ok after s', john.login (server Engine.basic annDraw johnRequest)
    twoUsers = .ok (ok, after, s') ∧ after.mId = 1 := by
  obtain ⟨ok, after, s', hlogin, hcases⟩ := login_outcome Engine.basic annDraw johnRequest john
    twoUsers typed_john wellFormed_twoUsers ⟨id, rfl⟩
  refine ⟨ok, after, s', hlogin, ?_⟩
  have hadmitted : admitted Engine.basic annDraw johnRequest john twoUsers.db.toDatabase =
      some ⟨1, str "john", str "1234", true, str "10.0.0.1:4000", false⟩ := by decide +kernel
  have hfresh : Fresh annDraw.token twoUsers.db := by decide +kernel
  have hboth : Fresh annDraw.token twoUsers.db ∧ john.mUsername = str "john" := ⟨hfresh, rfl⟩
  rw [hadmitted] at hcases
  rw [hcases.2.2]
  dsimp only
  rw [if_pos hboth]

def returned {α : Type} (call : Exec α) (other : α) : α :=
  match call with
  | .ok a => a
  | .error _ => other

theorem eq_ok_returned {α : Type} {call : Exec α} (other : α) (h : call.toBool = true) :
    call = .ok (returned call other) := by
  cases call with
  | ok a => rfl
  | error e => cases h

def annRegistered : Bool × Server :=
  returned (ann.registerUser (server Engine.basic annDraw johnRequest) twoUsers) (false, twoUsers)

def annLater : Server :=
  returned (Library.Transition.runM (OneSession.step Engine.basic) annRegistered.2 busyDay) twoUsers

end Accounts

end Skype
