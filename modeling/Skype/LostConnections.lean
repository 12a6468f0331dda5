import Skype.Library.Transition
import Skype.Sessions

/-!
# Lost connections

A connection that fails is left to `exit` with the token of the request, and where that is
none the server looks for the one user at the address of the connection. `sessions` keeps
who logged in on which connection and has not left since.
-/

namespace Skype.LostConnections

open Library Postgres Router Sessions

structure State where
  server : Server
  mAddresses : Int32 → Option ByteString
  sessions : List (Int32 × Int32)

def State.start (server : Server) : State := ⟨server, fun _ => none, []⟩

inductive Event
  | accepts (mSocket : Int32) (address : ByteString)
  | message (mSocket : Int32) (draw : Draw) (raw : Message)
  | fails (mSocket : Int32) (mToken : ByteString)

def addressOf (s : State) (mSocket : Int32) : Exec ByteString :=
  match s.mAddresses mSocket with
  | some address => .ok address
  | none => .error .outOfRange

def request (mSocket : Int32) (address token : ByteString) (mValid : Bool) : Request :=
  { Request.new address mValid with mSocket, mToken := token }

def sessionsAfter (pg : Engine) (draw : Draw) (raw : Message) (mSocket : Int32)
    (address : ByteString) (s : State) : List (Int32 × Int32) :=
  match raw.command with
  | .login =>
    match authenticated pg raw.body s.server.db.toDatabase with
    | some user =>
      if pg.takesVarchar draw.token ∧ pg.takesVarchar address then
        (mSocket, user.mId) :: s.sessions
      else s.sessions
    | none => s.sessions
  | .exit =>
    let user := searchUserByToken s.server.db.toDatabase raw.body
    if user.mEmpty then s.sessions.filter fun session => session.1 ≠ mSocket
    else s.sessions.filter fun session => session.2 ≠ user.mId
  | _ => s.sessions

def step (pg : Engine) (s : State) : Event → Exec State
  | .accepts mSocket address => .ok
      { s with
        mAddresses := Function.update s.mAddresses mSocket (some address)
        sessions := s.sessions.filter fun session => session.1 ≠ mSocket }
  | .message mSocket draw raw => do
    let address ← addressOf s mSocket
    let (_, server) ← route pg draw (raw.request (request mSocket address [] true)) s.server
    return { s with server, sessions := sessionsAfter pg draw raw mSocket address s }
  | .fails mSocket mToken => do
    let address ← addressOf s mSocket
    let server ← disconnectClientOnFailure pg (request mSocket address mToken false) s.server
    return { s with
      server, sessions := s.sessions.filter fun session => session.1 ≠ mSocket }

def departure (s : State) : Event → Option (Int32 × ByteString)
  | .accepts _ _ => none
  | .message mSocket _ raw =>
    if raw.command = .exit ∧
        (searchUserByToken s.server.db.toDatabase raw.body).mEmpty = true then
      some (mSocket, raw.body)
    else none
  | .fails mSocket mToken => if 0 ≤ mSocket then some (mSocket, mToken) else none

def Ended (db : Database) (userId : Int32) : Prop :=
  (∀ row ∈ db.users, row.id = userId.toInt → row.online = false) ∧
    ∀ t ∈ db.tokens, t.userId ≠ userId.toInt

def SameRows (a b : Database) (id : ℤ) : Prop :=
  (b.users.filter fun row => row.id = id) = (a.users.filter fun row => row.id = id) ∧
    (b.tokens.filter fun t => t.userId = id) = a.tokens.filter fun t => t.userId = id

/-- Everyone with a session on the connection that ends is logged off, and nobody else. -/
def EndsOwn (a : State) (event : Event) (b : State) : Prop :=
  ∀ mSocket token, departure a event = some (mSocket, token) →
    (∀ userId, (mSocket, userId) ∈ a.sessions → Ended b.server.db.toDatabase userId) ∧
    ∀ id : ℤ, (∀ userId, (mSocket, userId) ∈ a.sessions → userId.toInt ≠ id) →
      SameRows a.server.db.toDatabase b.server.db.toDatabase id

def found (db : Database) (token address : ByteString) : Option Int32 :=
  if (searchUserByToken db token).mEmpty then do
    let row ← exec1 (db.users.filter fun row => row.address = some address)
    toInt row.id
  else some (searchUserByToken db token).mId

/-- The user that is found has a session on the connection, and everyone else with one there
is offline already. -/
def FindsOwn (s : State) (event : Event) : Prop :=
  ∀ mSocket token, departure s event = some (mSocket, token) →
    ∀ address ∈ s.mAddresses mSocket,
      (∀ userId ∈ found s.server.db.toDatabase token address, (mSocket, userId) ∈ s.sessions) ∧
      ∀ userId, (mSocket, userId) ∈ s.sessions →
        Ended s.server.db.toDatabase userId ∨
          found s.server.db.toDatabase token address = some userId

section

variable {pg : Engine} {db : Tables} {token address : ByteString} {userId : Int32}

theorem exited_eq (pg : Engine) (token address : ByteString) (db : Tables) :
    exited pg token address db = (found db.toDatabase token address).elim db fun userId =>
      removeUserToken (logoff db userId) userId := by
  rw [exited, leaver, found]
  by_cases htoken : (searchUserByToken db.toDatabase token).mEmpty = true
  · rw [if_pos htoken, if_pos htoken, searchUserBy]
    have hreads : db.users.filter (UserField.reads pg .address address) =
        db.users.filter fun row => row.address = some address := by
      apply List.filter_congr
      intro row hrow
      rw [UserField.reads, Bool.eq_iff_iff]
      simp
    rw [hreads]
    cases exec1 (db.users.filter fun row => row.address = some address) with
    | none => rfl
    | some row =>
      cases hid : toInt row.id with
      | none => simp [rowToUser, hid, User.empty]
      | some userId => simp [rowToUser, hid]
  · rw [if_neg htoken, if_neg htoken, if_neg htoken, Option.elim_some]

theorem sameRows_refl (db : Database) (id : ℤ) : SameRows db db id := ⟨rfl, rfl⟩

theorem logoff_sameRows (db : Tables) {id : ℤ} (h : id ≠ userId.toInt) :
    SameRows db.toDatabase (removeUserToken (logoff db userId) userId).toDatabase id := by
  constructor
  · have hrows : ∀ users : List UserRow, ((setPresence users userId false none).filter
        fun row => row.id = id) = users.filter fun row => row.id = id := by
      intro users
      induction users with
      | nil => rfl
      | cons row users ih =>
        rw [setPresence] at ih
        rw [setPresence, List.map_cons]
        by_cases hid : row.id = userId.toInt
        · have hne : ¬row.id = id := fun hrow => h (hrow.symm.trans hid)
          rw [if_pos hid, List.filter_cons_of_neg (by simpa using hne),
            List.filter_cons_of_neg (by simpa using hne)]
          exact ih
        · rw [if_neg hid, List.filter_cons, List.filter_cons, ih]
    exact hrows db.users
  · have hfilter : ((db.tokens.filter fun t => t.userId ≠ userId.toInt).filter
        fun t => t.userId = id) = db.tokens.filter fun t => t.userId = id := by
      rw [List.filter_filter]
      apply List.filter_congr
      intro t ht
      by_cases hid : t.userId = id
      · simp [hid, h]
      · simp [hid]
    exact hfilter

theorem logoff_ended (db : Tables) (userId : Int32) :
    Ended (removeUserToken (logoff db userId) userId).toDatabase userId := by
  constructor
  · intro row hrow hid
    obtain ⟨old, hold, rfl⟩ := List.mem_map.mp hrow
    by_cases hold : old.id = userId.toInt
    · rw [if_pos hold]
    · rw [if_neg hold] at hid
      exact absurd hid hold
  · intro t ht
    exact of_decide_eq_true (List.mem_filter.mp ht).2

theorem found_changes (h : found db.toDatabase token address = some userId) :
    ¬SameRows db.toDatabase (removeUserToken (logoff db userId) userId).toDatabase
      userId.toInt := by
  rintro ⟨husers, htokens⟩
  unfold found at h
  split at h
  · obtain ⟨row, hone, hint⟩ := Option.bind_eq_some_iff.mp h
    obtain ⟨hmem, haddress⟩ := List.mem_filter.mp (mem_of_exec1 hone)
    have hkept : row ∈ (removeUserToken (logoff db userId) userId).users.filter
        fun row => row.id = userId.toInt := by
      rw [husers]
      exact List.mem_filter.mpr ⟨hmem, decide_eq_true (toInt_eq_some hint).symm⟩
    obtain ⟨hin, hid⟩ := List.mem_filter.mp hkept
    obtain ⟨old, -, rfl⟩ := List.mem_map.mp hin
    by_cases hold : old.id = userId.toInt
    · rw [if_pos hold] at haddress
      exact absurd (of_decide_eq_true haddress) (by simp)
    · rw [if_neg hold] at hid
      exact hold (of_decide_eq_true hid)
  · next hstored =>
    obtain rfl := Option.some.inj h
    obtain ⟨t, ht, -, hid, -⟩ :=
      (storedFor_of_token (Bool.eq_false_of_not_eq_true hstored)).stored
    have hkept : t ∈ (removeUserToken (logoff db (searchUserByToken db.toDatabase token).mId)
        (searchUserByToken db.toDatabase token).mId).tokens.filter
          fun t => t.userId = (searchUserByToken db.toDatabase token).mId.toInt := by
      rw [htokens]
      exact List.mem_filter.mpr ⟨ht, decide_eq_true hid⟩
    exact (logoff_ended db _).2 t (List.mem_filter.mp hkept).1 hid

theorem exited_sameRows {id : ℤ}
    (h : ∀ userId, found db.toDatabase token address = some userId → userId.toInt ≠ id) :
    SameRows db.toDatabase (exited pg token address db).toDatabase id := by
  rw [exited_eq]
  cases hfound : found db.toDatabase token address with
  | none => exact sameRows_refl db.toDatabase id
  | some userId => exact logoff_sameRows db (h userId hfound).symm

theorem exited_of_found (pg : Engine) (h : found db.toDatabase token address = some userId) :
    exited pg token address db = removeUserToken (logoff db userId) userId := by
  rw [exited_eq, h, Option.elim_some]

theorem Ended.of_sameRows {a b : Database} (h : SameRows a b userId.toInt) (hb : Ended b userId) :
    Ended a userId := by
  constructor
  · intro row hrow hid
    have hkept : row ∈ b.users.filter fun row => row.id = userId.toInt := by
      rw [h.1]
      exact List.mem_filter.mpr ⟨hrow, decide_eq_true hid⟩
    exact hb.1 row (List.mem_filter.mp hkept).1 hid
  · intro t ht hid
    have hkept : t ∈ b.tokens.filter fun t => t.userId = userId.toInt := by
      rw [h.2]
      exact List.mem_filter.mpr ⟨ht, decide_eq_true hid⟩
    exact hb.2 t (List.mem_filter.mp hkept).1 hid

theorem SameRows.symm {a b : Database} {id : ℤ} (h : SameRows a b id) : SameRows b a id :=
  ⟨h.1.symm, h.2.symm⟩

theorem exited_own_iff {users : Int32 → Prop} :
    ((∀ userId, users userId → Ended (exited pg token address db).toDatabase userId) ∧
      ∀ id : ℤ, (∀ userId, users userId → userId.toInt ≠ id) →
        SameRows db.toDatabase (exited pg token address db).toDatabase id) ↔
      (∀ userId ∈ found db.toDatabase token address, users userId) ∧
        ∀ userId, users userId → Ended db.toDatabase userId ∨
          found db.toDatabase token address = some userId := by
  constructor
  · rintro ⟨hended, hothers⟩
    constructor
    · intro userId hfound
      by_contra hforeign
      apply found_changes hfound
      rw [← exited_of_found pg hfound]
      apply hothers
      intro other hother hid
      rw [Int32.toInt_inj.mp hid] at hother
      exact hforeign hother
    · intro userId huser
      by_cases hfound : found db.toDatabase token address = some userId
      · exact Or.inr hfound
      · left
        apply Ended.of_sameRows _ (hended userId huser)
        apply exited_sameRows
        intro other hother hid
        rw [Int32.toInt_inj.mp hid] at hother
        exact hfound hother
  · rintro ⟨hown, hrest⟩
    constructor
    · intro userId huser
      by_cases hfound : found db.toDatabase token address = some userId
      · rw [exited_of_found pg hfound]
        exact logoff_ended db userId
      · have hsame : SameRows db.toDatabase (exited pg token address db).toDatabase
            userId.toInt := by
          apply exited_sameRows
          intro other hother hid
          rw [Int32.toInt_inj.mp hid] at hother
          exact hfound hother
        exact Ended.of_sameRows hsame.symm ((hrest userId huser).resolve_right hfound)
    · intro id hforeign
      apply exited_sameRows
      intro userId hfound
      exact hforeign userId (hown userId hfound)

end

section

variable {pg : Engine} {a b : State}

theorem address_of_ok {s : State} {mSocket : Int32} {address : ByteString}
    (h : addressOf s mSocket = .ok address) : s.mAddresses mSocket = some address := by
  unfold addressOf at h
  split at h
  · next stored hstored => rw [hstored, Except.ok.inj h]
  · cases h

theorem step_departure {event : Event} (hstep : step pg a event = .ok b) {mSocket : Int32}
    {token : ByteString} (hdeparture : departure a event = some (mSocket, token)) :
    ∃ address, a.mAddresses mSocket = some address ∧
      b.server.db = exited pg token address a.server.db := by
  cases event with
  | accepts other address => cases hdeparture
  | message other draw raw =>
    rw [departure] at hdeparture
    split at hdeparture
    · next hexit =>
      obtain ⟨rfl, rfl⟩ := Prod.mk.inj (Option.some.inj hdeparture)
      obtain ⟨address, haddress, hstep⟩ := bind_eq_ok.mp hstep
      obtain ⟨⟨req, server⟩, hroute, hstep⟩ := bind_eq_ok.mp hstep
      obtain rfl := Except.ok.inj hstep
      refine ⟨address, address_of_ok haddress, ?_⟩
      have hopen : requireLogin raw.command = false := by
        rw [hexit.1]
        rfl
      have hvalid : (request other address [] true).mValid = true := rfl
      rw [route_open_db hvalid hopen hroute, written, if_neg (ne_false_of_eq_true hvalid), hexit.1]
      rfl
    · cases hdeparture
  | fails other mToken =>
    rw [departure] at hdeparture
    split at hdeparture
    · next hsocket =>
      obtain ⟨rfl, rfl⟩ := Prod.mk.inj (Option.some.inj hdeparture)
      obtain ⟨address, haddress, hstep⟩ := bind_eq_ok.mp hstep
      obtain ⟨server, hexit, hstep⟩ := bind_eq_ok.mp hstep
      obtain rfl := Except.ok.inj hstep
      refine ⟨address, address_of_ok haddress, ?_⟩
      rw [disconnect_db hexit]
      exact if_pos ⟨rfl, hsocket⟩
    · cases hdeparture

theorem endsOwn_iff {event : Event} (hstep : step pg a event = .ok b) :
    EndsOwn a event b ↔ FindsOwn a event := by
  constructor
  · intro h mSocket token hdeparture address haddress
    obtain ⟨own, hown, hdb⟩ := step_departure hstep hdeparture
    have hends := h mSocket token hdeparture
    rw [hdb] at hends
    rw [hown] at haddress
    obtain rfl := Option.some.inj haddress
    exact exited_own_iff.mp hends
  · intro h mSocket token hdeparture
    obtain ⟨address, haddress, hdb⟩ := step_departure hstep hdeparture
    rw [hdb]
    exact exited_own_iff.mpr (h mSocket token hdeparture address haddress)

end

/-- Over any run of connections and messages, every connection that ends takes its own
sessions with it and no others, exactly when the user found for it is one of its own. -/
theorem connections_end_own_iff (pg : Engine) (server : Server) (events : List Event) :
    Transition.AlwaysM (step pg) EndsOwn (State.start server) events ↔
      Transition.AlwaysM (step pg) (fun s event _ => FindsOwn s event) (State.start server)
        events :=
  Transition.alwaysM_congr fun _ _ _ hstep => endsOwn_iff hstep

def johnAlone : Server :=
  { twoUsers with
    db := { twoUsers.db with
      users := [⟨1, str "john", str "1234", false, none⟩]
      tokens := [] } }

def sharedAddress : List Event :=
  [.accepts 5 (str "10.0.0.1"),
    .message 5 sampleDraw ⟨str "CREATE ann 0000", by decide⟩,
    .message 5 sampleDraw johnLoginMessage]

theorem john_stays_online :
    ¬Transition.AlwaysM (step Engine.basic) EndsOwn (State.start johnAlone)
      (sharedAddress ++ [.fails 5 []]) := by
  intro h
  have hsession : (Transition.runM (step Engine.basic) (State.start johnAlone) sharedAddress).map
      State.sessions = .ok [(5, 1)] := by decide +kernel
  have honline : ((Transition.runM (step Engine.basic) (State.start johnAlone)
      sharedAddress).bind fun a => step Engine.basic a (.fails 5 [])).map
        (fun b => b.server.db.users.map fun row => (row.id, row.online)) =
          .ok [(1, true), (3, false)] := by decide +kernel
  cases hbefore : Transition.runM (step Engine.basic) (State.start johnAlone) sharedAddress with
  | error e =>
    rw [hbefore] at hsession
    cases hsession
  | ok a =>
    rw [hbefore] at hsession honline
    cases hafter : step Engine.basic a (.fails 5 []) with
    | error e =>
      simp only [Except.bind, hafter] at honline
      cases honline
    | ok b =>
      simp only [Except.bind, hafter] at honline
      have hends := h sharedAddress (.fails 5 []) [] a b rfl hbefore hafter 5 [] rfl
      have hlive : (5, 1) ∈ a.sessions := by
        have hsessions : a.sessions = [(5, 1)] := Except.ok.inj hsession
        rw [hsessions]
        exact List.mem_singleton_self _
      have hrows : b.server.db.users.map (fun row => (row.id, row.online)) =
          [(1, true), (3, false)] := Except.ok.inj honline
      have hjohn : ((1 : ℤ), true) ∈ b.server.db.users.map fun row => (row.id, row.online) := by
        rw [hrows]
        exact List.mem_cons_self
      obtain ⟨row, hrow, hpair⟩ := List.mem_map.mp hjohn
      obtain ⟨hid, hflag⟩ := Prod.mk.inj hpair
      have hoffline := (hends.1 1 hlive).1 row hrow hid
      rw [hflag] at hoffline
      cases hoffline

end Skype.LostConnections
