import Skype.OneSession
import Skype.SendOutcomes

/-!
# What the reply to `LOGIN` says

`login_user` inserts the token and updates the user in two transactions, and commits the
first one before the second is tried. When one of them fails and the other does not, the
reply is 500 and the tables have changed.
-/

namespace Skype.UserControllers

open Library Postgres Sessions OneSession Router ControllerUtils
open ChatControllers (caught mEmpty_caught)

structure Outcomes where
  search : Bool
  token : Bool
  update : Bool

/-- A method that throws inside its transaction writes nothing and returns false. -/
def committed (passes : Bool) (s : Server) (result : Bool × Server) : Bool × Server :=
  if passes then result else (false, { result.2 with db := s.db })

def loginUserWith (pg : Engine) (draw : Draw) (outcomes : Outcomes) (tUser : User)
    (tReq : Request) (s : Server) : Exec (Request × Server) :=
  let tUser := { tUser with mOnline := true, mAddress := tReq.mAddress }
  let (tokenRes, s) := committed outcomes.token s (s.addUserToken pg tUser.mId draw.token)
  let (userRes, s) := committed outcomes.update s (s.updateUser pg tUser)
  if tokenRes && userRes then do
    let tReq ← setRequestReplyMsg .r201 draw.token tReq
    return (tReq, s)
  else .ok (setRequestReply .r500 tReq, s)

def loginWith (pg : Engine) (draw : Draw) (outcomes : Outcomes) (tArg : ByteString)
    (tReq : Request) (s : Server) : Exec (Request × Server) := do
  let (username, password) ← StringUtils.splitFirst tArg (str " ")
  if username = [] ∨ password = [] then return (setRequestReply .r501 tReq, s)
  else
    let (user, s) := caught outcomes.search (s.searchUserBy pg username .username)
    if user.mEmpty = false ∧ user.mPassword = password then
      loginUserWith pg draw outcomes user tReq s
    else return (setRequestReply .r300 tReq, s)

theorem loginWith_all (pg : Engine) (draw : Draw) (tArg : ByteString) (tReq : Request)
    (s : Server) : loginWith pg draw ⟨true, true, true⟩ tArg tReq s = login pg draw tArg tReq s :=
  rfl

def presence (users : List UserRow) : List (ℤ × Bool × Option ByteString) :=
  users.map fun row => (row.id, row.online, row.address)

def Says201 (reply : Request) : Prop := ∃ text, reply.mData = some (textData (str "201" ++ text))

def SignedIn (username : ByteString) (reply : Request) (db : Tables) : Prop :=
  ∃ token, reply.mData = some (textData (str "201 " ++ token)) ∧
    ∃ row ∈ db.users, row.username = username ∧ row.online = true ∧
      ⟨row.id, some token⟩ ∈ db.tokens

/-- With the reply 201 the login is in the tables, with any other reply nothing is. -/
def Atomic (raw : Message) (s : Server) (result : Exec (Request × Server)) : Prop :=
  ∃ reply server, result = .ok (reply, server) ∧
    (Says201 reply → SignedIn (credentials raw.body).1 reply server.db) ∧
    (¬Says201 reply → server.db.tokens = s.db.tokens ∧
      presence server.db.users = presence s.db.users)

def admitted (pg : Engine) (outcomes : Outcomes) (raw : Message) (s : Server) : Option User :=
  if outcomes.search then authenticated pg raw.body s.db.toDatabase else Option.none

def StoresToken (pg : Engine) (draw : Draw) (outcomes : Outcomes) : Prop :=
  outcomes.token = true ∧ pg.takesVarchar draw.token = true

def Updates (pg : Engine) (outcomes : Outcomes) (tReq : Request) : Prop :=
  outcomes.update = true ∧ pg.takesVarchar tReq.mAddress = true

def OnlineAt (users : List UserRow) (userId : Int32) (address : ByteString) : Prop :=
  ∀ row ∈ users, row.id = userId.toInt → row.online = true ∧ row.address = some address

section

variable {pg : Engine} {draw : Draw} {outcomes : Outcomes} {raw : Message} {tReq : Request}
  {s : Server} {user : User}

theorem not_says201 {code : Reply.Code}
    (h : ∀ text, Reply.getMessage code ≠ str "201" ++ text) (tReq : Request) :
    ¬Says201 (setRequestReply code tReq) := by
  rintro ⟨text, htext⟩
  exact h text (congrArg Data.bytes (Option.some.inj htext))

theorem getMessage_ne_201 (code : Reply.Code) (h : (Reply.getMessage code).take 3 ≠ str "201")
    (text : ByteString) : Reply.getMessage code ≠ str "201" ++ text := by
  intro heq
  rw [heq] at h
  exact h rfl

theorem says201_token (token : ByteString) (tReq : Request) :
    Says201 (tReq.setData (textData (str "201 " ++ token))) :=
  ⟨str " " ++ token, rfl⟩

theorem presence_setPresence_iff (users : List UserRow) (userId : Int32) (address : ByteString) :
    presence (setPresence users userId true (some address)) = presence users ↔
      OnlineAt users userId address := by
  unfold presence setPresence OnlineAt
  rw [List.map_map, List.map_inj_left]
  refine forall_congr' fun row => forall_congr' fun _ => ?_
  rw [Function.comp_apply]
  by_cases hid : row.id = userId.toInt
  · rw [if_pos hid, forall_prop_of_true hid]
    simp only [Prod.mk.injEq, true_and]
    exact and_congr eq_comm eq_comm
  · rw [if_neg hid]
    exact iff_of_true rfl fun h => absurd h hid

theorem committed_addUserToken (s : Server) (userId : Int32) {token : Bool × Server}
    (h : token = committed outcomes.token s (s.addUserToken pg userId draw.token)) :
    (StoresToken pg draw outcomes ∧ token.1 = true ∧ token.2.db.users = s.db.users ∧
        token.2.db.tokens = s.db.tokens ++ [⟨userId.toInt, some draw.token⟩]) ∨
      (¬StoresToken pg draw outcomes ∧ token.1 = false ∧ token.2.db = s.db) := by
  rw [h, committed, Server.addUserToken, Postgres.addUserToken, StoresToken]
  by_cases hpasses : outcomes.token = true
  · by_cases htakes : pg.takesVarchar draw.token = true
    · rw [if_pos hpasses, if_pos htakes]
      exact Or.inl ⟨⟨hpasses, htakes⟩, rfl, rfl, rfl⟩
    · rw [if_pos hpasses, if_neg htakes]
      exact Or.inr ⟨fun hstores => htakes hstores.2, rfl, rfl⟩
  · rw [if_neg hpasses]
    exact Or.inr ⟨fun hstores => hpasses hstores.1, rfl, rfl⟩

theorem committed_updateUser (s : Server) {tUser : User} (haddress : tUser.mAddress = tReq.mAddress)
    {update : Bool × Server} (h : update = committed outcomes.update s (s.updateUser pg tUser)) :
    update.2.db.tokens = s.db.tokens ∧
      ((Updates pg outcomes tReq ∧ update.1 = true ∧ update.2.db.users =
          setPresence s.db.users tUser.mId tUser.mOnline (some tReq.mAddress)) ∨
        (¬Updates pg outcomes tReq ∧ update.1 = false ∧ update.2.db.users = s.db.users)) := by
  rw [h, committed, Server.updateUser, Postgres.updateUser, Updates, haddress]
  by_cases hpasses : outcomes.update = true
  · by_cases htakes : pg.takesVarchar tReq.mAddress = true
    · rw [if_pos hpasses, if_pos htakes]
      exact ⟨rfl, Or.inl ⟨⟨hpasses, htakes⟩, rfl, rfl⟩⟩
    · rw [if_pos hpasses, if_neg htakes]
      exact ⟨rfl, Or.inr ⟨fun hupdates => htakes hupdates.2, rfl, rfl⟩⟩
  · rw [if_neg hpasses]
    exact ⟨rfl, Or.inr ⟨fun hupdates => hpasses hupdates.1, rfl, rfl⟩⟩

variable (pg draw outcomes tReq s user) in
theorem loginUserWith_cases :
    ∃ reply server, loginUserWith pg draw outcomes user tReq s = .ok (reply, server) ∧
      ((StoresToken pg draw outcomes ∧ Updates pg outcomes tReq ∧
          reply = tReq.setData (textData (str "201 " ++ draw.token))) ∨
        (¬(StoresToken pg draw outcomes ∧ Updates pg outcomes tReq) ∧
          reply = setRequestReply .r500 tReq)) ∧
      ((StoresToken pg draw outcomes ∧
          server.db.tokens = s.db.tokens ++ [⟨user.mId.toInt, some draw.token⟩]) ∨
        (¬StoresToken pg draw outcomes ∧ server.db.tokens = s.db.tokens)) ∧
      ((Updates pg outcomes tReq ∧
          server.db.users = setPresence s.db.users user.mId true (some tReq.mAddress)) ∨
        (¬Updates pg outcomes tReq ∧ server.db.users = s.db.users)) := by
  unfold loginUserWith
  dsimp only
  generalize htoken : committed outcomes.token s (s.addUserToken pg user.mId draw.token) = token
  obtain ⟨tokenRes, s₁⟩ := token
  dsimp only
  generalize hupdate : committed outcomes.update s₁
    (s₁.updateUser pg { user with mOnline := true, mAddress := tReq.mAddress }) = update
  obtain ⟨userRes, s₂⟩ := update
  obtain ⟨htokens, hupdates⟩ := committed_updateUser s₁ rfl hupdate.symm
  dsimp only at htokens hupdates ⊢
  rcases committed_addUserToken s user.mId htoken.symm with
    ⟨hstores, rfl, husers₁, htokens₁⟩ | ⟨hnotStores, rfl, hdb₁⟩
  · dsimp only at husers₁ htokens₁
    rw [husers₁] at hupdates
    rw [htokens₁] at htokens
    rcases hupdates with ⟨hupdates, rfl, husers⟩ | ⟨hnotUpdates, rfl, husers⟩
    · rw [Bool.and_self, if_pos rfl, setRequestReplyMsg, Reply.appendMessage_r201]
      exact ⟨_, _, rfl, Or.inl ⟨hstores, hupdates, rfl⟩, Or.inl ⟨hstores, htokens⟩,
        Or.inl ⟨hupdates, husers⟩⟩
    · rw [Bool.and_false, if_neg Bool.false_ne_true]
      exact ⟨_, _, rfl, Or.inr ⟨fun h => hnotUpdates h.2, rfl⟩, Or.inl ⟨hstores, htokens⟩,
        Or.inr ⟨hnotUpdates, husers⟩⟩
  · dsimp only at hdb₁
    rw [hdb₁] at hupdates htokens
    rw [Bool.false_and, if_neg Bool.false_ne_true]
    refine ⟨_, _, rfl, Or.inr ⟨fun h => hnotStores h.1, rfl⟩, Or.inr ⟨hnotStores, htokens⟩, ?_⟩
    rcases hupdates with ⟨hupdates, -, husers⟩ | ⟨hnotUpdates, -, husers⟩
    · exact Or.inl ⟨hupdates, husers⟩
    · exact Or.inr ⟨hnotUpdates, husers⟩

theorem row_of_searchUserBy {db : Database} {term : ByteString}
    (h : (searchUserBy pg db term .username).mEmpty = false) :
    ∃ row ∈ db.users, row.username = term ∧
      row.id = (searchUserBy pg db term .username).mId.toInt := by
  unfold searchUserBy at h ⊢
  split at h
  · cases h
  · next row hrow =>
    obtain ⟨hmem, hname⟩ := List.mem_filter.mp (mem_of_exec1 hrow)
    cases hid : toInt row.id with
    | none =>
      rw [rowToUser, hid] at h
      cases h
    | some id =>
      refine ⟨row, hmem, beq_iff_eq.mp hname, ?_⟩
      rw [← toInt_eq_some hid, rowToUser, hid]
      rfl

theorem row_of_admitted (h : user ∈ admitted pg outcomes raw s) :
    ∃ row ∈ s.db.users, row.username = (credentials raw.body).1 ∧ row.id = user.mId.toInt := by
  unfold admitted authenticated at h
  dsimp only at h
  split at h
  · split at h
    · cases h
    · split at h
      · next hfound =>
        obtain rfl := Option.some.inj h
        exact row_of_searchUserBy hfound.1
      · cases h
  · cases h

theorem signedIn_of_both {db : Tables} (h : user ∈ admitted pg outcomes raw s)
    (htokens : db.tokens = s.db.tokens ++ [⟨user.mId.toInt, some draw.token⟩])
    (husers : db.users = setPresence s.db.users user.mId true (some tReq.mAddress)) :
    SignedIn (credentials raw.body).1 (tReq.setData (textData (str "201 " ++ draw.token))) db := by
  obtain ⟨row, hrow, hname, hid⟩ := row_of_admitted h
  refine ⟨draw.token, rfl, { row with online := true, address := some tReq.mAddress }, ?_, hname,
    rfl, ?_⟩
  · rw [husers, setPresence]
    exact List.mem_map.mpr ⟨row, hrow, if_pos hid⟩
  · rw [htokens]
    dsimp only
    rw [hid]
    exact List.mem_append_right _ (List.mem_singleton_self _)

variable (pg draw outcomes raw tReq s) in
theorem loginWith_cases :
    (∃ user ∈ admitted pg outcomes raw s, ∃ s' : Server, s'.db = s.db ∧
        loginWith pg draw outcomes raw.body tReq s = loginUserWith pg draw outcomes user tReq s') ∨
      (admitted pg outcomes raw s = Option.none ∧
        ∃ reply server, loginWith pg draw outcomes raw.body tReq s = .ok (reply, server) ∧
          ¬Says201 reply ∧ server.db = s.db) := by
  have h501 := not_says201 (getMessage_ne_201 .r501 (by decide)) tReq
  have h300 := not_says201 (getMessage_ne_201 .r300 (by decide)) tReq
  rw [loginWith, splitFirst_space (length_body_lt raw), ok_bind, admitted, authenticated,
    credentials]
  dsimp only
  by_cases hwords : (Search.cutFirst [space] raw.body).1 = [] ∨
      (Search.cutFirst [space] raw.body).2 = []
  · simp only [if_pos hwords, ite_self]
    exact Or.inr ⟨trivial, _, _, rfl, h501, rfl⟩
  · simp only [if_neg hwords]
    cases outcomes.search with
    | false => exact Or.inr ⟨rfl, _, _, rfl, h300, rfl⟩
    | true =>
      have hcaught :
          caught true (s.searchUserBy pg (Search.cutFirst [space] raw.body).1 .username) =
          (searchUserBy pg s.db.toDatabase (Search.cutFirst [space] raw.body).1 .username,
            s.send (.searchUserBy .username)
              (searchUserText (Search.cutFirst [space] raw.body).1 .username)) := rfl
      rw [hcaught, if_pos rfl]
      dsimp only
      split
      · exact Or.inl ⟨_, rfl, s.send (.searchUserBy .username) _, rfl, rfl⟩
      · exact Or.inr ⟨rfl, _, _, rfl, h300, rfl⟩

/-- `LOGIN` is atomic exactly when its two transactions fail together or succeed together,
or the one that succeeds has nothing to change. -/
theorem login_atomic_iff (pg : Engine) (draw : Draw) (outcomes : Outcomes) (raw : Message)
    (tReq : Request) (s : Server) :
    Atomic raw s (loginWith pg draw outcomes raw.body tReq s) ↔
      ∀ user ∈ admitted pg outcomes raw s,
        (StoresToken pg draw outcomes → Updates pg outcomes tReq) ∧
          (Updates pg outcomes tReq → StoresToken pg draw outcomes ∨
            OnlineAt s.db.users user.mId tReq.mAddress) := by
  rcases loginWith_cases pg draw outcomes raw tReq s with
    ⟨user, huser, s', hdb, hlogin⟩ | ⟨hnobody, reply, server, hresult, hreply, hdb⟩
  · have hall : ∀ P : User → Prop, (∀ user ∈ admitted pg outcomes raw s, P user) ↔ P user :=
      fun P => by rw [Option.mem_def.mp huser]; simp
    rw [hlogin, hall]
    obtain ⟨reply, server, hresult, hreply, htokens, husers⟩ :=
      loginUserWith_cases pg draw outcomes tReq s' user
    rw [hdb] at htokens husers
    have hone : Atomic raw s (loginUserWith pg draw outcomes user tReq s') ↔
        (Says201 reply → SignedIn (credentials raw.body).1 reply server.db) ∧
          (¬Says201 reply → server.db.tokens = s.db.tokens ∧
            presence server.db.users = presence s.db.users) := by
      rw [hresult]
      constructor
      · rintro ⟨reply', server', h, hatomic⟩
        cases h
        exact hatomic
      · exact fun hatomic => ⟨reply, server, rfl, hatomic⟩
    rw [hone]
    rcases hreply with ⟨hstores, hupdates, rfl⟩ | ⟨hfails, rfl⟩
    · refine iff_of_true ⟨fun _ => ?_, fun h => absurd (says201_token draw.token tReq) h⟩
        ⟨fun _ => hupdates, fun _ => Or.inl hstores⟩
      exact signedIn_of_both huser (htokens.resolve_right fun h => h.1 hstores).2
        (husers.resolve_right fun h => h.1 hupdates).2
    · have hsilent := not_says201 (getMessage_ne_201 .r500 (by decide)) tReq
      rw [forall_prop_of_true hsilent, and_iff_right fun h => absurd h hsilent]
      rcases htokens with ⟨hstores, htokens⟩ | ⟨hnotStores, htokens⟩
      · refine iff_of_false ?_ fun h => hfails ⟨hstores, h.1 hstores⟩
        rintro ⟨hsame, -⟩
        rw [htokens, List.append_right_eq_self] at hsame
        cases hsame
      · rw [and_iff_right htokens, and_iff_right fun h => absurd h hnotStores]
        rcases husers with ⟨hupdates, husers⟩ | ⟨hnotUpdates, husers⟩
        · rw [husers, presence_setPresence_iff, forall_prop_of_true hupdates,
            or_iff_right hnotStores]
        · rw [husers]
          exact iff_of_true rfl fun h => absurd h hnotUpdates
  · rw [hnobody]
    refine iff_of_true ⟨reply, server, hresult, fun h => absurd h hreply, fun _ => ?_⟩ ?_
    · rw [hdb]
      exact ⟨rfl, rfl⟩
    · intro user huser
      cases huser

end

/-- John keeps a token of a `LOGIN` that was answered 500, and is online after another. -/
theorem failed_login_stays :
    ¬Atomic johnLoginMessage nobodyOnline
        (loginWith Engine.basic sampleDraw ⟨true, true, false⟩ johnLoginMessage.body johnRequest
          nobodyOnline) ∧
      ¬Atomic johnLoginMessage nobodyOnline
        (loginWith Engine.basic sampleDraw ⟨true, false, true⟩ johnLoginMessage.body johnRequest
          nobodyOnline) := by
  have hsilent := not_says201 (getMessage_ne_201 .r500 (by decide)) johnRequest
  constructor
  · rintro ⟨reply, server, hresult, -, hsame⟩
    have hstored : (loginWith Engine.basic sampleDraw ⟨true, true, false⟩ johnLoginMessage.body
        johnRequest nobodyOnline).map (fun result => (result.1, result.2.db.tokens)) =
          .ok (setRequestReply .r500 johnRequest, [⟨1, some (str "xyz")⟩]) := by decide +kernel
    rw [hresult] at hstored
    obtain ⟨rfl, htokens⟩ := Prod.mk.inj (Except.ok.inj hstored)
    have hempty : [⟨1, some (str "xyz")⟩] = nobodyOnline.db.tokens :=
      htokens.symm.trans (hsame hsilent).1
    exact absurd hempty (List.cons_ne_nil _ _)
  · rintro ⟨reply, server, hresult, -, hsame⟩
    have honline : (loginWith Engine.basic sampleDraw ⟨true, false, true⟩ johnLoginMessage.body
        johnRequest nobodyOnline).map
          (fun result => (result.1, result.2.db.users.map UserRow.online)) =
          .ok (setRequestReply .r500 johnRequest, [true, false]) := by decide +kernel
    rw [hresult] at honline
    obtain ⟨rfl, husers⟩ := Prod.mk.inj (Except.ok.inj honline)
    have hoffline :
        server.db.users.map UserRow.online = nobodyOnline.db.users.map UserRow.online := by
      have hcolumn := congrArg (List.map fun entry => entry.2.1) (hsame hsilent).2
      rw [presence, presence, List.map_map, List.map_map] at hcolumn
      exact hcolumn
    rw [husers] at hoffline
    exact absurd hoffline (by decide)

end Skype.UserControllers
