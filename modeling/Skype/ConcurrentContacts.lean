import Skype.ChatIds
import Skype.Library.Transition

/-!
# `ADD` and `REMOVE` on two threads

The main loop and the UDP listener both route requests. Each of the two goes through the
transactions of its request one by one, and any transactions of the other can come in
between; `overtaken` marks a worker whose pair the other has inserted since it looked.
-/

namespace Skype.ConcurrentContacts

open Library Postgres

inductive Worker
  | mainLoop
  | udpListener
  deriving DecidableEq

inductive Command
  | add
  | remove
  deriving DecidableEq

def Command.name : Command → ServerCommand.Name
  | .add => .add
  | .remove => .remove

/-- How far the request of a worker has come: its token is valid, its user was searched,
both users were searched, or the contact was not found. -/
inductive Progress
  | idle
  | routed (command : Command) (token arg : ByteString)
  | searched (command : Command) (user : User) (arg : ByteString)
  | both (command : Command) (user contact : User)
  | unlisted (user contact : User)

structure State where
  db : Tables
  progress : Worker → Progress
  overtaken : Worker → Bool

namespace State

def start (db : Tables) : State := ⟨db, fun _ => .idle, fun _ => false⟩

def goto (s : State) (w : Worker) (progress : Progress) : State :=
  { s with progress := Function.update s.progress w progress }

end State

def Progress.target : Progress → Option (Int32 × Int32)
  | .unlisted user contact => some (user.mId, contact.mId)
  | _ => none

def State.mark (s : State) (user contact : User) (inserted : Bool) (w : Worker) : Bool :=
  if (s.progress w).target = some (user.mId, contact.mId) then inserted else s.overtaken w

inductive Event
  | start (w : Worker) (command : Command) (token arg : ByteString)
  | advance (w : Worker) (draw : Draw)

def route (s : State) (w : Worker) (command : Command) (token arg : ByteString) : State :=
  match s.progress w with
  | .idle =>
    if (searchUserByToken s.db.toDatabase token).mEmpty = false ∧
        Router.validateArgument command.name arg = true then
      s.goto w (.routed command token arg)
    else s
  | _ => s

def advance (pg : Engine) (draw : Draw) (s : State) (w : Worker) : State :=
  match s.progress w with
  | .idle => s
  | .routed command token arg =>
    s.goto w (.searched command (searchUserByToken s.db.toDatabase token) arg)
  | .searched .add user arg =>
    let contact := searchUserBy pg s.db.toDatabase arg .username
    s.goto w (if user.mUsername = contact.mUsername then .idle else .both .add user contact)
  | .searched .remove user arg =>
    let contact := searchUserBy pg s.db.toDatabase arg .username
    s.goto w (if user.mEmpty = false ∧ contact.mEmpty = false then .both .remove user contact
      else .idle)
  | .both .add user contact =>
    if userContactExists s.db.toDatabase (UserControllers.idOf draw user)
        (UserControllers.idOf draw contact) then s.goto w .idle
    else if user.mEmpty = false ∧ contact.mEmpty = false then
      { s.goto w (.unlisted user contact) with
        overtaken := Function.update s.overtaken w false }
    else s.goto w .idle
  | .both .remove user contact =>
    { s.goto w .idle with
      db := removeUserContact s.db user.mId contact.mId
      overtaken := s.mark user contact false }
  | .unlisted user contact =>
    { s.goto w .idle with
      db := addUserContact s.db user.mId contact.mId
      overtaken := s.mark user contact true }

def step (pg : Engine) (s : State) : Event → State
  | .start w command token arg => route s w command token arg
  | .advance w draw => advance pg draw s w

def alone (w : Worker) (command : Command) (token arg : ByteString) (draw : Draw) : List Event :=
  .start w command token arg :: List.replicate 4 (.advance w draw)

section

variable (pg : Engine) (draw : Draw) {s : State} {w : Worker}

@[simp] theorem progress_goto (progress : Progress) : (s.goto w progress).progress w = progress :=
  Function.update_self ..

theorem progress_goto_of_ne {v : Worker} (h : v ≠ w) (progress : Progress) :
    (s.goto w progress).progress v = s.progress v :=
  Function.update_of_ne h ..

@[simp] theorem db_goto (progress : Progress) : (s.goto w progress).db = s.db := rfl

@[simp] theorem goto_goto (first second : Progress) :
    (s.goto w first).goto w second = s.goto w second := by
  simp [State.goto]

theorem advance_idle (h : s.progress w = .idle) : advance pg draw s w = s := by
  rw [advance, h]

theorem run_both (command : Command) (user contact : User)
    (h : s.progress w = .both command user contact) :
    (advance pg draw (advance pg draw s w) w).progress w = .idle ∧
      (advance pg draw (advance pg draw s w) w).db =
        match command with
        | .add =>
          if userContactExists s.db.toDatabase (UserControllers.idOf draw user)
              (UserControllers.idOf draw contact) then s.db
          else if user.mEmpty = false ∧ contact.mEmpty = false then
            addUserContact s.db user.mId contact.mId
          else s.db
        | .remove => removeUserContact s.db user.mId contact.mId := by
  cases command with
  | add =>
    by_cases hexists : userContactExists s.db.toDatabase (UserControllers.idOf draw user)
        (UserControllers.idOf draw contact) = true
    · simp [advance, h, hexists]
    · by_cases hboth : user.mEmpty = false ∧ contact.mEmpty = false
      · simp [advance, h, hexists, hboth, State.goto]
      · simp [advance, h, hexists, hboth]
  | remove => simp [advance, h, State.goto]

def served (command : Command) (token arg : ByteString) (db : Tables) : Tables :=
  let user := searchUserByToken db.toDatabase token
  let contact := searchUserBy pg db.toDatabase arg .username
  match command with
  | .add =>
    if user.mUsername = contact.mUsername then db
    else if userContactExists db.toDatabase (UserControllers.idOf draw user)
        (UserControllers.idOf draw contact) then db
    else if user.mEmpty = false ∧ contact.mEmpty = false then
      addUserContact db user.mId contact.mId
    else db
  | .remove =>
    if user.mEmpty = false ∧ contact.mEmpty = false then removeUserContact db user.mId contact.mId
    else db

theorem controllers_served (command : Command) (arg : ByteString) (tReq : Request)
    (server : Server) :
    ∃ req after, Router.controllers pg draw command.name arg tReq server = .ok (req, after) ∧
      after.db = served pg draw command tReq.mToken arg server.db := by
  cases command with
  | add =>
    refine ⟨(UserControllers.add pg draw arg tReq server).1,
      (UserControllers.add pg draw arg tReq server).2, rfl, ?_⟩
    by_cases hself : (searchUserByToken server.db.toDatabase tReq.mToken).mUsername =
        (searchUserBy pg server.db.toDatabase arg .username).mUsername
    · simp [UserControllers.add, Server.searchUserByToken, Server.searchUserBy, served, hself]
    · by_cases hexists : userContactExists server.db.toDatabase
          (UserControllers.idOf draw (searchUserByToken server.db.toDatabase tReq.mToken))
          (UserControllers.idOf draw (searchUserBy pg server.db.toDatabase arg .username)) = true
      · simp [UserControllers.add, Server.searchUserByToken, Server.searchUserBy,
          Server.userContactExists, served, hself, hexists]
      · by_cases hfound : (searchUserByToken server.db.toDatabase tReq.mToken).mEmpty = false ∧
            (searchUserBy pg server.db.toDatabase arg .username).mEmpty = false
        · simp [UserControllers.add, Server.searchUserByToken, Server.searchUserBy,
            Server.userContactExists, Server.addUserContact, served, hself, hexists, hfound]
        · simp [UserControllers.add, Server.searchUserByToken, Server.searchUserBy,
            Server.userContactExists, served, hself, hexists, hfound]
  | remove =>
    refine ⟨(UserControllers.remove pg arg tReq server).1,
      (UserControllers.remove pg arg tReq server).2, rfl, ?_⟩
    by_cases hfound : (searchUserByToken server.db.toDatabase tReq.mToken).mEmpty = false ∧
        (searchUserBy pg server.db.toDatabase arg .username).mEmpty = false
    · simp [UserControllers.remove, Server.searchUserByToken, Server.searchUserBy,
        Server.removeUserContact, served, hfound]
    · simp [UserControllers.remove, Server.searchUserByToken, Server.searchUserBy, served, hfound]

theorem run_routed (command : Command) (token arg : ByteString)
    (h : s.progress w = .routed command token arg) :
    (Transition.run (step pg) s (List.replicate 4 (.advance w draw))).progress w = .idle ∧
      (Transition.run (step pg) s (List.replicate 4 (.advance w draw))).db =
        served pg draw command token arg s.db := by
  have hsearched : advance pg draw s w =
      s.goto w (.searched command (searchUserByToken s.db.toDatabase token) arg) := by
    rw [advance, h]
  change (advance pg draw (advance pg draw (advance pg draw (advance pg draw s w) w) w) w).progress
    w = .idle ∧ (advance pg draw (advance pg draw (advance pg draw (advance pg draw s w) w) w) w).db
      = _
  rw [hsearched]
  cases command with
  | add =>
    by_cases hself : (searchUserByToken s.db.toDatabase token).mUsername =
        (searchUserBy pg s.db.toDatabase arg .username).mUsername
    · simp [advance, served, hself]
    · have hnext : advance pg draw
          (s.goto w (.searched .add (searchUserByToken s.db.toDatabase token) arg)) w =
          s.goto w (.both .add (searchUserByToken s.db.toDatabase token)
            (searchUserBy pg s.db.toDatabase arg .username)) := by
        simp [advance, hself]
      rw [hnext, served]
      simp only [if_neg hself]
      exact run_both pg draw .add _ _ (progress_goto _)
  | remove =>
    by_cases hfound : (searchUserByToken s.db.toDatabase token).mEmpty = false ∧
        (searchUserBy pg s.db.toDatabase arg .username).mEmpty = false
    · have hnext : advance pg draw
          (s.goto w (.searched .remove (searchUserByToken s.db.toDatabase token) arg)) w =
          s.goto w (.both .remove (searchUserByToken s.db.toDatabase token)
            (searchUserBy pg s.db.toDatabase arg .username)) := by
        simp [advance, hfound]
      rw [hnext, served]
      simp only [if_pos hfound]
      exact run_both pg draw .remove _ _ (progress_goto _)
    · simp [advance, served, hfound]

theorem run_alone (hidle : s.progress w = .idle) (command : Command) (token arg : ByteString)
    (tReq : Request) {server : Server} (hdb : server.db = s.db) :
    ∃ req after, Router.routeParsed pg draw command.name token arg tReq server =
        .ok (req, after) ∧
      (Transition.run (step pg) s (alone w command token arg draw)).progress w = .idle ∧
      (Transition.run (step pg) s (alone w command token arg draw)).db = after.db := by
  have hrun : Transition.run (step pg) s (alone w command token arg draw) =
      Transition.run (step pg) (route s w command token arg)
        (List.replicate 4 (.advance w draw)) := rfl
  have hstay : ∀ n, Transition.run (step pg) s (List.replicate n (.advance w draw)) = s := by
    intro n
    induction n with
    | zero => rfl
    | succ n ih =>
      have hnext : step pg s (.advance w draw) = s := advance_idle pg draw hidle
      rw [List.replicate_succ, Transition.run, List.foldl_cons, hnext]
      exact ih
  have hlogin : Router.requireLogin command.name = true := by cases command <;> decide
  rw [hrun, route, hidle]
  dsimp only
  by_cases hfound : (searchUserByToken server.db.toDatabase token).mEmpty = false
  · have hlogged : Router.isLoggedin command.name token tReq server =
        (true, tReq, (server.searchUserByToken token).2) := by
      simp [Router.isLoggedin, hlogin, UserControllers.isValidToken, Server.searchUserByToken,
        hfound]
    rw [Router.routeParsed, hlogged]
    dsimp only
    rw [hdb] at hfound
    by_cases hvalid : Router.validateArgument command.name arg = true
    · obtain ⟨req, after, hcontrol, hafter⟩ := controllers_served pg draw command arg
        { tReq with mToken := token } (server.searchUserByToken token).2
      have hrouted := run_routed pg draw (s := s.goto w (.routed command token arg)) command token
        arg (progress_goto _)
      have hsame : (server.searchUserByToken token).2.db = s.db := hdb
      rw [if_pos hvalid, if_pos ⟨hfound, hvalid⟩, hcontrol]
      exact ⟨req, after, rfl, hrouted.1, by rw [hrouted.2, hafter, hsame, db_goto]⟩
    · rw [if_neg hvalid, if_neg fun h => hvalid h.2, hstay]
      exact ⟨_, _, rfl, hidle, hdb.symm⟩
  · have hlogged : Router.isLoggedin command.name token tReq server =
        (false, ControllerUtils.setRequestReply .r202 tReq,
          (server.searchUserByToken token).2) := by
      simp [Router.isLoggedin, hlogin, UserControllers.isValidToken, Server.searchUserByToken,
        eq_true_of_ne_false hfound]
    rw [Router.routeParsed, hlogged]
    rw [hdb] at hfound
    rw [if_neg fun h => hfound h.1, hstay]
    exact ⟨_, _, rfl, hidle, hdb.symm⟩

end

structure Clean (contacts : List ContactRow) : Prop where
  unique : ∀ a b : ℤ, contacts.count ⟨some a, some b⟩ ≤ 1
  noSelf : ∀ a : ℤ, ⟨some a, some a⟩ ∉ contacts

/-- The worker does not insert a pair that the other worker has inserted since the
transaction that looked for it, without removing it again. -/
def InsertsFirst (s : State) : Event → Prop
  | .start _ _ _ _ => True
  | .advance w _ => (s.progress w).target ≠ none → s.overtaken w = false

instance (s : State) : ∀ event, Decidable (InsertsFirst s event)
  | .start _ _ _ _ => isTrue trivial
  | .advance w _ =>
    inferInstanceAs (Decidable ((s.progress w).target ≠ none → s.overtaken w = false))

def Progress.Sound (users : List UserRow) : Progress → Prop
  | .idle => True
  | .routed _ _ _ => True
  | .searched _ user _ => Known users user
  | .both .add user contact => Known users user ∧ Known users contact ∧
      user.mUsername ≠ contact.mUsername
  | .both .remove _ _ => True
  | .unlisted user contact => user.mId ≠ contact.mId

structure Tracks (users : List UserRow) (s : State) : Prop where
  same : s.db.users = users
  clean : Clean s.db.contacts
  sound : ∀ w, (s.progress w).Sound users
  overtaken : ∀ w user contact, s.progress w = .unlisted user contact →
    (⟨some user.mId.toInt, some contact.mId.toInt⟩ ∈ s.db.contacts ↔ s.overtaken w = true)

section

variable {contacts : List ContactRow} {a b : ℤ}

theorem filter_pair (contacts : List ContactRow) (a b : ℤ) :
    (contacts.filter fun row => row.userId = some a ∧ row.contactId = some b) =
      List.replicate (contacts.count ⟨some a, some b⟩) ⟨some a, some b⟩ := by
  rw [← List.filter_eq]
  apply List.filter_congr
  rintro ⟨userId, contactId⟩ -
  simp

theorem Clean.exists_iff (h : Clean contacts) : (exec1 (contacts.filter fun row =>
    row.userId = some a ∧ row.contactId = some b)).isSome = true ↔
      (⟨some a, some b⟩ : ContactRow) ∈ contacts := by
  have hle := h.unique a b
  rw [filter_pair, ← List.count_pos_iff]
  interval_cases hcount : contacts.count ⟨some a, some b⟩
  · simp [exec1]
  · simp [exec1]

theorem Clean.append_iff (h : Clean contacts) (hne : a ≠ b) :
    Clean (contacts ++ [⟨some a, some b⟩]) ↔ (⟨some a, some b⟩ : ContactRow) ∉ contacts := by
  constructor
  · intro hclean hmem
    have hle := hclean.unique a b
    have hpos := List.count_pos_iff.mpr hmem
    rw [List.count_append, List.count_singleton_self] at hle
    omega
  · intro hnew
    constructor
    · intro c d
      rw [List.count_append]
      by_cases hpair : (⟨some a, some b⟩ : ContactRow) = ⟨some c, some d⟩
      · rw [← hpair, List.count_eq_zero_of_not_mem hnew, List.count_singleton_self]
      · rw [List.count_singleton, if_neg (by simpa using hpair)]
        exact h.unique c d
    · intro c hmem
      rcases List.mem_append.mp hmem with hold | hself
      · exact h.noSelf c hold
      · have hrow := List.mem_singleton.mp hself
        simp only [ContactRow.mk.injEq, Option.some.injEq] at hrow
        exact hne (hrow.1.symm.trans hrow.2)

theorem Clean.filter (h : Clean contacts) (p : ContactRow → Bool) : Clean (contacts.filter p) where
  unique a b := (List.filter_sublist.count_le _).trans (h.unique a b)
  noSelf a hmem := h.noSelf a (List.mem_filter.mp hmem).1

end

section

variable {pg : Engine} {draw : Draw} {users : List UserRow} {s : State} {w : Worker}

theorem mId_ne_of_known (hids : (users.map UserRow.id).Nodup) {user contact : User}
    (huser : Known users user) (hcontact : Known users contact) (hfound : user.mEmpty = false)
    (hcfound : contact.mEmpty = false) (hname : user.mUsername ≠ contact.mUsername) :
    user.mId ≠ contact.mId := by
  obtain ⟨row, hrow, hid, husername⟩ := huser hfound
  obtain ⟨other, hother, hotherId, hotherName⟩ := hcontact hcfound
  intro heq
  have hsameId : row.id = other.id := by
    rw [← toInt_eq_some hid, ← toInt_eq_some hotherId, heq]
  rw [← husername, ← hotherName, List.inj_on_of_nodup_map hids hrow hother hsameId] at hname
  exact hname rfl

theorem Tracks.goto (h : Tracks users s) {progress : Progress} (hsound : progress.Sound users)
    (htarget : progress.target = none) : Tracks users (s.goto w progress) where
  same := h.same
  clean := h.clean
  sound v := by
    by_cases hv : v = w
    · rw [hv, progress_goto]
      exact hsound
    · rw [progress_goto_of_ne hv]
      exact h.sound v
  overtaken v user contact hv := by
    by_cases hvw : v = w
    · rw [hvw, progress_goto] at hv
      rw [hv] at htarget
      cases htarget
    · rw [progress_goto_of_ne hvw] at hv
      exact h.overtaken v user contact hv

theorem tracks_route (h : Tracks users s) (command : Command) (token arg : ByteString) :
    Tracks users (route s w command token arg) := by
  unfold route
  split
  · split
    · exact h.goto trivial rfl
    · exact h
  · exact h

theorem pair_eq_iff {user contact other otherContact : User} :
    (⟨some user.mId.toInt, some contact.mId.toInt⟩ : ContactRow) =
        ⟨some other.mId.toInt, some otherContact.mId.toInt⟩ ↔
      some (user.mId, contact.mId) = some (other.mId, otherContact.mId) := by
  simp [Int32.toInt_inj]

theorem Tracks.change (h : Tracks users s) (user contact : User) (db : Tables) (inserted : Bool)
    (hsame : db.users = users) (hclean : Clean db.contacts)
    (hpair : (⟨some user.mId.toInt, some contact.mId.toInt⟩ : ContactRow) ∈ db.contacts ↔
      inserted = true)
    (hother : ∀ row : ContactRow, row ≠ ⟨some user.mId.toInt, some contact.mId.toInt⟩ →
      (row ∈ db.contacts ↔ row ∈ s.db.contacts)) :
    Tracks users { s.goto w .idle with db, overtaken := s.mark user contact inserted } where
  same := hsame
  clean := hclean
  sound := by
    have hidle : Tracks users (s.goto w .idle) := h.goto trivial rfl
    exact hidle.sound
  overtaken v other otherContact hv := by
    have hprogress : s.progress v = .unlisted other otherContact := by
      by_cases hvw : v = w
      · rw [hvw] at hv
        have hidle : (s.goto w .idle).progress w = .idle := progress_goto _
        rw [hidle] at hv
        cases hv
      · rwa [← progress_goto_of_ne hvw]
    simp only [State.mark, hprogress, Progress.target]
    by_cases htarget : some (other.mId, otherContact.mId) = some (user.mId, contact.mId)
    · rw [if_pos htarget, pair_eq_iff.mpr htarget]
      exact hpair
    · rw [if_neg htarget, hother _ fun hrow => htarget (pair_eq_iff.mp hrow)]
      exact h.overtaken v other otherContact hprogress

theorem tracks_remove (h : Tracks users s) (user contact : User) :
    Tracks users { s.goto w .idle with
      db := removeUserContact s.db user.mId contact.mId
      overtaken := s.mark user contact false } := by
  apply h.change user contact (removeUserContact s.db user.mId contact.mId) false h.same
    (h.clean.filter _)
  · simp [removeUserContact]
  · rintro ⟨userId, contactId⟩ hne
    have hpair : ¬(userId = some user.mId.toInt ∧ contactId = some contact.mId.toInt) := by
      simpa using hne
    simp only [removeUserContact, List.mem_filter, decide_eq_true_eq]
    exact and_iff_left hpair

theorem tracks_insert (h : Tracks users s) (user contact : User)
    (hclean : Clean (addUserContact s.db user.mId contact.mId).contacts) :
    Tracks users { s.goto w .idle with
      db := addUserContact s.db user.mId contact.mId
      overtaken := s.mark user contact true } := by
  apply h.change user contact (addUserContact s.db user.mId contact.mId) true h.same hclean
  · simp [addUserContact]
  · intro row hne
    simp [addUserContact, hne]

theorem tracks_unlisted (h : Tracks users s) {user contact : User}
    (hne : user.mId ≠ contact.mId)
    (hnone : userContactExists s.db.toDatabase user.mId contact.mId = false) :
    Tracks users { s.goto w (.unlisted user contact) with
      overtaken := Function.update s.overtaken w false } where
  same := h.same
  clean := h.clean
  sound v := by
    by_cases hv : v = w
    · rw [hv]
      change ((s.goto w (.unlisted user contact)).progress w).Sound users
      rw [progress_goto]
      exact hne
    · change ((s.goto w (.unlisted user contact)).progress v).Sound users
      rw [progress_goto_of_ne hv]
      exact h.sound v
  overtaken v other otherContact hv := by
    change (s.goto w (.unlisted user contact)).progress v = _ at hv
    by_cases hvw : v = w
    · rw [hvw, progress_goto] at hv
      cases hv
      have hmissing : ¬(⟨some user.mId.toInt, some contact.mId.toInt⟩ : ContactRow) ∈
          s.db.contacts := by
        rw [← h.clean.exists_iff]
        simpa [userContactExists] using hnone
      dsimp only
      rw [hvw, Function.update_self]
      exact iff_of_false hmissing Bool.false_ne_true
    · rw [progress_goto_of_ne hvw] at hv
      dsimp only
      rw [Function.update_of_ne hvw]
      exact h.overtaken v other otherContact hv

theorem clean_insert_iff (h : Tracks users s) {user contact : User}
    (hprogress : s.progress w = .unlisted user contact) :
    Clean (addUserContact s.db user.mId contact.mId).contacts ↔ s.overtaken w = false := by
  have hids : user.mId ≠ contact.mId := by
    have hsound := h.sound w
    rwa [hprogress] at hsound
  have hne : user.mId.toInt ≠ contact.mId.toInt := fun heq => hids (Int32.toInt_inj.mp heq)
  rw [addUserContact, h.clean.append_iff hne, h.overtaken w user contact hprogress]
  exact iff_of_eq (Bool.not_eq_true _)

theorem tracks_advance (h : Tracks users s) (hids : (users.map UserRow.id).Nodup)
    (hfirst : InsertsFirst s (.advance w draw)) : Tracks users (advance pg draw s w) := by
  have hsound := h.sound w
  unfold advance
  split
  · exact h
  · exact h.goto (h.same ▸ known_searchUserByToken s.db.toDatabase _) rfl
  · next user arg hprogress =>
    rw [hprogress] at hsound
    dsimp only
    split
    · exact h.goto trivial rfl
    · next hname =>
      exact h.goto ⟨hsound, h.same ▸ known_searchUserBy pg s.db.toDatabase _ _, hname⟩ rfl
  · dsimp only
    split
    · exact h.goto trivial rfl
    · exact h.goto trivial rfl
  · next user contact hprogress =>
    rw [hprogress] at hsound
    obtain ⟨huser, hcontact, hname⟩ := hsound
    split
    · exact h.goto trivial rfl
    · next hnone =>
      split
      · next hfound =>
        rw [UserControllers.idOf, UserControllers.idOf, hfound.1, hfound.2] at hnone
        exact tracks_unlisted h (mId_ne_of_known hids huser hcontact hfound.1 hfound.2 hname)
          (eq_false_of_ne_true hnone)
      · exact h.goto trivial rfl
  · next user contact hprogress => exact tracks_remove h user contact
  · next user contact hprogress =>
    have hnew : s.overtaken w = false := hfirst (by rw [hprogress]; exact Option.some_ne_none _)
    exact tracks_insert h user contact ((clean_insert_iff h hprogress).mpr hnew)

theorem tracks_step (h : Tracks users s) (hids : (users.map UserRow.id).Nodup) {event : Event}
    (hfirst : InsertsFirst s event) : Tracks users (step pg s event) := by
  cases event with
  | start w command token arg => exact tracks_route h command token arg
  | advance w draw => exact tracks_advance h hids hfirst

theorem clean_step_iff (h : Tracks users s) (hids : (users.map UserRow.id).Nodup)
    (event : Event) : Clean (step pg s event).db.contacts ↔ InsertsFirst s event := by
  constructor
  · intro hclean
    cases event with
    | start w command token arg => trivial
    | advance w draw =>
      intro htarget
      cases hprogress : s.progress w with
      | unlisted user contact =>
        rw [step, advance, hprogress] at hclean
        exact (clean_insert_iff h hprogress).mp hclean
      | _ => simp [hprogress, Progress.target] at htarget
  · intro hfirst
    exact (tracks_step h hids hfirst).clean

end

/-- Over any interleaving, the pairs stay unique and nobody becomes an own contact exactly
when no worker inserts a pair that the other inserted after it had looked. -/
theorem contacts_clean_iff (pg : Engine) (db : Tables) (events : List Event)
    (hclean : Clean db.contacts) (hids : (db.users.map UserRow.id).Nodup) :
    Transition.Always (step pg) (fun s event => Clean (step pg s event).db.contacts)
        (State.start db) events ↔
      Transition.Always (step pg) InsertsFirst (State.start db) events := by
  have hstart : Tracks db.users (State.start db) :=
    { same := rfl
      clean := hclean
      sound := fun w => trivial
      overtaken := fun w user contact hidle => by cases hidle }
  apply Transition.always_congr_of_invariant hstart
  · intro s event h
    exact clean_step_iff h hids event
  · intro s event h hstep
    exact tracks_step h hids ((clean_step_iff h hids event).mp hstep)

def noContacts : Tables := { Router.twoUsers.db with contacts := [] }

def addMario (w : Worker) : Event := .start w .add (str "abc") (str "mario")

def next (w : Worker) : Event := .advance w Router.sampleDraw

def inTurn : List Event :=
  addMario .mainLoop :: List.replicate 4 (next .mainLoop) ++
    addMario .udpListener :: List.replicate 4 (next .udpListener)

theorem contacts_clean_in_turn :
    Transition.Always (step Engine.basic)
      (fun s event => Clean (step Engine.basic s event).db.contacts) (State.start noContacts)
      inTurn :=
  (contacts_clean_iff Engine.basic noContacts inTurn
    ⟨fun _ _ => Nat.zero_le 1, fun _ => List.not_mem_nil⟩ (by decide)).mpr (by decide +kernel)

def bothLook : List Event :=
  addMario .mainLoop :: addMario .udpListener ::
    (List.replicate 3 (next .mainLoop) ++ List.replicate 3 (next .udpListener) ++
      [next .mainLoop])

theorem both_threads_insert :
    ¬Transition.Always (step Engine.basic)
      (fun s event => Clean (step Engine.basic s event).db.contacts) (State.start noContacts)
      (bothLook ++ [next .udpListener]) := by
  intro h
  have hclean := h bothLook (next .udpListener) [] rfl
  have hle := hclean.unique 1 2
  have htwice : (step Engine.basic (Transition.run (step Engine.basic) (State.start noContacts)
      bothLook) (next .udpListener)).db.contacts.count ⟨some 1, some 2⟩ = 2 := by
    decide +kernel
  omega

end Skype.ConcurrentContacts
