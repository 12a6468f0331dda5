import Skype.Library.Transition
import Skype.Sessions

/-!
# One session for each user

Logging in and out write two tables one after the other. They agree on who is online, and
a user has one token at most, as long as nobody logs in who has a token already.
-/

namespace Skype.OneSession

open Library Postgres Router Sessions

inductive Event
  | request (draw : Draw) (raw : Message) (tReq : Request)
  | disconnect (tReq : Request)

def step (pg : Engine) (s : Server) : Event → Exec Server
  | .request draw raw tReq => do
    let (_, s) ← route pg draw (raw.request tReq) s
    return s
  | .disconnect tReq => disconnectClientOnFailure pg tReq s

/-- The users online are those with a token, and no user has two of them. -/
structure Agree (users : List UserRow) (tokens : List TokenRow) : Prop where
  online_iff : ∀ row ∈ users, row.online = true ↔ row.id ∈ tokens.map TokenRow.userId
  single : (tokens.map TokenRow.userId).Nodup

structure Linked (users : List UserRow) (tokens : List TokenRow) : Prop
    extends Agree users tokens where
  owned : ∀ id ∈ tokens.map TokenRow.userId, id ∈ users.map UserRow.id

def Consistent (s : Server) : Prop := Agree s.db.users s.db.tokens

def Sound (s : Server) : Prop := Linked s.db.users s.db.tokens

def Succeeds (pg : Engine) : Event → Prop
  | .request draw _ tReq =>
    pg.takesVarchar draw.token = true ∧ pg.takesVarchar tReq.mAddress = true
  | .disconnect _ => True

def PlainStep (s : Server) : Event → Prop
  | .request _ raw tReq => PlainIds raw tReq s
  | .disconnect _ => True

/-- A user who logs in has no token yet. -/
def FirstLogin (pg : Engine) (s : Server) : Event → Prop
  | .request _ raw tReq => tReq.mValid = true → raw.command = .login →
    ∀ user ∈ authenticated pg raw.body s.db.toDatabase, ∀ t ∈ s.db.tokens,
      t.userId ≠ user.mId.toInt
  | .disconnect _ => True

instance (pg : Engine) (s : Server) : ∀ event, Decidable (FirstLogin pg s event)
  | .request _ raw tReq => inferInstanceAs (Decidable (tReq.mValid = true →
      raw.command = .login → ∀ user ∈ authenticated pg raw.body s.db.toDatabase,
        ∀ t ∈ s.db.tokens, t.userId ≠ user.mId.toInt))
  | .disconnect _ => isTrue trivial

section

variable {users : List UserRow} {tokens : List TokenRow} {userId : Int32}

theorem map_id_setPresence (users : List UserRow) (userId : Int32) (online : Bool)
    (address : Option ByteString) :
    (setPresence users userId online address).map UserRow.id = users.map UserRow.id := by
  rw [setPresence, List.map_map]
  apply List.map_congr_left
  intro row hrow
  rw [Function.comp_apply]
  split
  · rfl
  · rfl

theorem online_iff_setPresence {online : Bool} {address : Option ByteString} {owners : List ℤ}
    (h : ∀ row ∈ users, row.online = true ↔ row.id ∈ tokens.map TokenRow.userId)
    (hself : online = true ↔ userId.toInt ∈ owners)
    (hothers : ∀ id, id ≠ userId.toInt → (id ∈ owners ↔ id ∈ tokens.map TokenRow.userId)) :
    ∀ row ∈ setPresence users userId online address, row.online = true ↔ row.id ∈ owners := by
  intro row hrow
  obtain ⟨old, hold, rfl⟩ := List.mem_map.mp hrow
  by_cases hid : old.id = userId.toInt
  · rw [if_pos hid]
    dsimp only
    rw [hid]
    exact hself
  · rw [if_neg hid, hothers old.id hid]
    exact h old hold

theorem Linked.logoff (h : Linked users tokens) (userId : Int32) :
    Linked (setPresence users userId false none)
      (tokens.filter fun row => row.userId ≠ userId.toInt) := by
  have howners : (tokens.filter fun row => row.userId ≠ userId.toInt).map TokenRow.userId =
      (tokens.map TokenRow.userId).filter fun id => id ≠ userId.toInt := by
    rw [List.filter_map]
    rfl
  refine ⟨⟨?_, ?_⟩, ?_⟩
  · rw [howners]
    apply online_iff_setPresence h.online_iff
    · simp
    · intro id hid
      simp [hid]
  · rw [howners]
    exact h.single.filter _
  · intro id hid
    rw [howners] at hid
    rw [map_id_setPresence]
    exact h.owned id (List.mem_of_mem_filter hid)

theorem Linked.login (h : Linked users tokens) (hnew : userId.toInt ∉ tokens.map TokenRow.userId)
    (huser : userId.toInt ∈ users.map UserRow.id) (address : Option ByteString)
    (token : Option ByteString) :
    Linked (setPresence users userId true address) (tokens ++ [⟨userId.toInt, token⟩]) := by
  have howners : (tokens ++ [(⟨userId.toInt, token⟩ : TokenRow)]).map TokenRow.userId =
      tokens.map TokenRow.userId ++ [userId.toInt] := List.map_append
  refine ⟨⟨?_, ?_⟩, ?_⟩
  · rw [howners]
    apply online_iff_setPresence h.online_iff
    · simp
    · intro id hid
      simp [hid]
  · rw [howners]
    exact h.single.append (List.nodup_singleton _) (List.disjoint_singleton.mpr hnew)
  · intro id hid
    rw [howners] at hid
    rw [map_id_setPresence]
    rcases List.mem_append.mp hid with hold | hself
    · exact h.owned id hold
    · rw [List.mem_singleton.mp hself]
      exact huser

theorem Linked.create (h : Linked users tokens) {row : UserRow}
    (hnew : row.id ∉ users.map UserRow.id) (hoffline : row.online = false) :
    Linked (users ++ [row]) tokens := by
  refine ⟨⟨?_, h.single⟩, ?_⟩
  · intro other hother
    rcases List.mem_append.mp hother with hold | hself
    · exact h.online_iff other hold
    · rw [List.mem_singleton.mp hself, hoffline]
      exact iff_of_false Bool.false_ne_true fun hid => hnew (h.owned row.id hid)
  · intro id hid
    rw [List.map_append]
    exact List.mem_append_left _ (h.owned id hid)

end

section

variable {pg : Engine} {draw : Draw} {tArg address token : ByteString} {db : Tables} {user : User}

theorem linked_created (h : Linked db.users db.tokens) :
    Linked (created pg draw tArg address db).users (created pg draw tArg address db).tokens := by
  unfold created
  dsimp only
  split
  · exact h
  · rw [addUser]
    split
    · exact h
    · next hfresh =>
      exact h.create (fun hid => hfresh (Or.inl hid)) rfl

theorem linked_exited (h : Linked db.users db.tokens) :
    Linked (exited pg token address db).users (exited pg token address db).tokens := by
  unfold exited
  dsimp only
  split
  · exact h
  · exact h.logoff _

theorem id_of_authenticated (h : authenticated pg tArg db.toDatabase = some user) :
    user.mId.toInt ∈ db.users.map UserRow.id := by
  unfold authenticated at h
  dsimp only at h
  split at h
  · cases h
  · split at h
    · next hfound =>
      obtain rfl := Option.some.inj h
      obtain ⟨row, hrow, hid, -⟩ := known_searchUserBy pg db.toDatabase _ _ hfound.1
      rw [toInt_eq_some hid]
      exact List.mem_map_of_mem hrow
    · cases h

theorem loggedIn_tables (h : authenticated pg tArg db.toDatabase = some user)
    (htoken : pg.takesVarchar draw.token = true) (haddress : pg.takesVarchar address = true) :
    (loggedIn pg draw tArg address db).users =
        setPresence db.users user.mId true (some address) ∧
      (loggedIn pg draw tArg address db).tokens =
        db.tokens ++ [⟨user.mId.toInt, some draw.token⟩] := by
  rw [loggedIn, h]
  dsimp only
  rw [addUserToken, if_pos htoken, updateUser, if_pos haddress]
  exact ⟨rfl, rfl⟩

theorem agree_loggedIn_iff (tArg : ByteString) (h : Linked db.users db.tokens)
    (htoken : pg.takesVarchar draw.token = true) (haddress : pg.takesVarchar address = true) :
    (Agree (loggedIn pg draw tArg address db).users (loggedIn pg draw tArg address db).tokens ↔
        ∀ user ∈ authenticated pg tArg db.toDatabase, ∀ t ∈ db.tokens,
          t.userId ≠ user.mId.toInt) ∧
      (Agree (loggedIn pg draw tArg address db).users (loggedIn pg draw tArg address db).tokens →
        Linked (loggedIn pg draw tArg address db).users
          (loggedIn pg draw tArg address db).tokens) := by
  cases hauth : authenticated pg tArg db.toDatabase with
  | none =>
    have hstay : loggedIn pg draw tArg address db = db := by rw [loggedIn, hauth]
    rw [hstay]
    exact ⟨iff_of_true h.toAgree (by simp), fun _ => h⟩
  | some user =>
    obtain ⟨husers, htokens⟩ := loggedIn_tables hauth htoken haddress
    rw [husers, htokens]
    have hlinked : (∀ t ∈ db.tokens, t.userId ≠ user.mId.toInt) →
        Linked (setPresence db.users user.mId true (some address))
          (db.tokens ++ [⟨user.mId.toInt, some draw.token⟩]) := by
      intro hnew
      apply h.login _ (id_of_authenticated hauth)
      intro hmem
      obtain ⟨t, ht, hid⟩ := List.mem_map.mp hmem
      exact hnew t ht hid
    have hfirst : Agree (setPresence db.users user.mId true (some address))
          (db.tokens ++ [⟨user.mId.toInt, some draw.token⟩]) →
        ∀ t ∈ db.tokens, t.userId ≠ user.mId.toInt := by
      intro hagree t ht hid
      have hnodup := hagree.single
      rw [List.map_append, List.nodup_append] at hnodup
      exact hnodup.2.2 _ (List.mem_map_of_mem ht) _ (List.mem_singleton_self _) hid
    refine ⟨?_, fun hagree => hlinked (hfirst hagree)⟩
    constructor
    · intro hagree other hother
      obtain rfl := Option.some.inj hother
      exact hfirst hagree
    · intro hnew
      exact (hlinked (hnew user rfl)).toAgree

end

section

variable {pg : Engine} {s s' : Server}

theorem step_request {draw : Draw} {raw : Message} {tReq : Request}
    (h : step pg s (.request draw raw tReq) = .ok s') :
    ∃ req, route pg draw (raw.request tReq) s = .ok (req, s') := by
  obtain ⟨⟨req, t⟩, hroute, h⟩ := bind_eq_ok.mp h
  obtain rfl := Except.ok.inj h
  exact ⟨req, hroute⟩

theorem agree_step_iff (h : Linked s.db.users s.db.tokens) {event : Event}
    (hsucceeds : Succeeds pg event) (hplain : PlainStep s event)
    (hstep : step pg s event = .ok s') :
    (Agree s'.db.users s'.db.tokens ↔ FirstLogin pg s event) ∧
      (Agree s'.db.users s'.db.tokens → Linked s'.db.users s'.db.tokens) := by
  cases event with
  | disconnect tReq =>
    have hlinked : Linked s'.db.users s'.db.tokens := by
      rw [disconnect_db hstep]
      split
      · exact linked_exited h
      · exact h
    exact ⟨iff_of_true hlinked.toAgree trivial, fun _ => hlinked⟩
  | request draw raw tReq =>
    obtain ⟨req, hroute⟩ := step_request hstep
    obtain ⟨husers, htokens⟩ := route_sessions hplain hroute
    rw [husers, htokens, FirstLogin]
    by_cases hlogin : tReq.mValid = true ∧ raw.command = .login
    · have hwritten : written pg draw raw tReq s.db =
          loggedIn pg draw raw.body tReq.mAddress s.db := by
        rw [written, if_neg (ne_false_of_eq_true hlogin.1), hlogin.2]
      rw [hwritten]
      obtain ⟨hiff, hkeeps⟩ := agree_loggedIn_iff raw.body h hsucceeds.1 hsucceeds.2
      refine ⟨?_, hkeeps⟩
      rw [hiff]
      exact ⟨fun hnew _ _ => hnew, fun hnew => hnew hlogin.1 hlogin.2⟩
    · have hlinked : Linked (written pg draw raw tReq s.db).users
          (written pg draw raw tReq s.db).tokens := by
        unfold written
        split
        · exact h
        · next hvalid =>
          split
          · exact linked_created h
          · next hcommand => exact absurd ⟨eq_true_of_ne_false hvalid, hcommand⟩ hlogin
          · exact linked_exited h
          · exact h
      refine ⟨iff_of_true hlinked.toAgree ?_, fun _ => hlinked⟩
      intro hvalid hcommand
      exact absurd ⟨hvalid, hcommand⟩ hlogin

end

/-- From a database without sessions, over any requests and disconnections, the tables agree
behind every step exactly when nobody logs in who has a token. -/
theorem sessions_agree_iff (pg : Engine) (s : Server) (events : List Event)
    (hoffline : ∀ row ∈ s.db.users, row.online = false) (hempty : s.db.tokens = [])
    (hsucceeds : ∀ event ∈ events, Succeeds pg event)
    (hplain : Transition.AlwaysM (step pg) (fun a event _ => PlainStep a event) s events) :
    Transition.AlwaysM (step pg) (fun _ _ b => Consistent b) s events ↔
      Transition.AlwaysM (step pg) (fun a event _ => FirstLogin pg a event) s events := by
  have hstart : Sound s := by
    rw [Sound, hempty]
    refine ⟨⟨?_, List.nodup_nil⟩, ?_⟩
    · intro row hrow
      rw [hoffline row hrow]
      exact iff_of_false Bool.false_ne_true List.not_mem_nil
    · intro id hid
      exact absurd hid List.not_mem_nil
  have hall : Transition.AlwaysM (step pg) (fun _ event _ => Succeeds pg event) s events :=
    Transition.alwaysM_of_forall fun event hevent _ _ => hsucceeds event hevent
  apply Transition.alwaysM_congr_of_guard hstart (Transition.alwaysM_and.mpr ⟨hall, hplain⟩)
  · intro a event b ha hguard hstep
    exact (agree_step_iff ha hguard.1 hguard.2 hstep).1
  · intro a event b ha hguard hstep hagree
    exact (agree_step_iff ha hguard.1 hguard.2 hstep).2 hagree

def nobodyOnline : Server :=
  { twoUsers with
    db := { twoUsers.db with
      users := [⟨1, str "john", str "1234", false, none⟩, ⟨2, str "mario", str "5678", false, none⟩]
      tokens := [] } }

def johnLogin (token : ByteString) : Event :=
  .request { sampleDraw with token } johnLoginMessage johnRequest

def johnExit : Event := .request sampleDraw ⟨str "EXIT uvw", by decide⟩ johnRequest

theorem nobodyOnline_consistent : Consistent nobodyOnline :=
  ⟨by decide, List.nodup_nil⟩

theorem sessions_agree_after_exit :
    Transition.AlwaysM (step Engine.basic) (fun _ _ b => Consistent b)
      nobodyOnline [johnLogin (str "uvw"), johnExit, johnLogin (str "xyz")] := by
  refine (sessions_agree_iff Engine.basic nobodyOnline _ (by decide) rfl ?_ ?_).mpr
    (by decide +kernel)
  · intro event hevent
    simp only [List.mem_cons, List.not_mem_nil, or_false] at hevent
    rcases hevent with rfl | rfl | rfl
    · exact ⟨rfl, rfl⟩
    · exact ⟨rfl, rfl⟩
    · exact ⟨rfl, rfl⟩
  · apply Transition.alwaysM_of_forall
    intro event hevent a b
    simp only [List.mem_cons, List.not_mem_nil, or_false] at hevent
    have hlogin : ServerCommand.Name.login ≠ .delivered := by decide
    have hexit : ServerCommand.Name.exit ≠ .delivered := by decide
    rcases hevent with rfl | rfl | rfl
    · exact fun _ hcommand => absurd hcommand hlogin
    · exact fun _ hcommand => absurd hcommand hexit
    · exact fun _ hcommand => absurd hcommand hlogin

/-- John is given a second token. -/
theorem second_login_disagrees :
    ¬Transition.AlwaysM (step Engine.basic) (fun _ _ b => Consistent b)
      nobodyOnline [johnLogin (str "uvw"), johnLogin (str "xyz")] := by
  intro h
  have howners : (Transition.runM (step Engine.basic) nobodyOnline
      [johnLogin (str "uvw"), johnLogin (str "xyz")]).map
        (fun s => s.db.tokens.map TokenRow.userId) = .ok [1, 1] := by decide +kernel
  cases hrun : Transition.runM (step Engine.basic) nobodyOnline
      [johnLogin (str "uvw"), johnLogin (str "xyz")] with
  | error e =>
    rw [hrun] at howners
    cases howners
  | ok t =>
    rw [hrun] at howners
    have hagree : Consistent t :=
      Transition.invariant_alwaysM nobodyOnline_consistent (fun _ _ _ _ hgood _ => hgood) h hrun
    have htwice : t.db.tokens.map TokenRow.userId = [1, 1] := Except.ok.inj howners
    have hsingle := hagree.single
    rw [htwice] at hsingle
    exact absurd hsingle (by decide)

end Skype.OneSession
