import Skype.ConcurrentContacts
import Skype.Library.Growth
import Skype.OneSession

/-!
# What the requests can write

A request or a disconnection reaches the next tables by single statements, each of which
says what it relies on. The constraints of the schema and the history of users and chats
are carried from statement to statement, and so over every run.
-/

namespace Skype.TableIntegrity

open Library Postgres Router Sessions OneSession
open Library.Transition (AlwaysM)
open ConcurrentContacts (Clean mId_ne_of_known)

def Stored (users : List UserRow) (userId : Int32) : Prop := userId.toInt ∈ users.map UserRow.id

/-- One statement of a controller, with what the controller has made sure of before it. -/
inductive Write (pg : Engine) (draw : Draw) (db : Tables) : Tables → Prop
  | addUser {username password : ByteString} (address : ByteString) (hname : username ≠ [])
      (hword : space ∉ username) (hpassword : password ≠ []) :
      Write pg draw db (addUser pg draw db ⟨0, username, password, false, address, false⟩).2
  | addUserToken {userId : Int32} (hstored : Stored db.users userId) :
      Write pg draw db (addUserToken pg db userId draw.token).2
  | setPresence (userId : Int32) (online : Bool) (address : Option ByteString) :
      Write pg draw db { db with users := setPresence db.users userId online address }
  | removeUserToken (userId : Int32) : Write pg draw db (removeUserToken db userId)
  | addUserContact {user contact : User} (huser : Known db.users user)
      (hcontact : Known db.users contact) (hfound : user.mEmpty = false)
      (hcfound : contact.mEmpty = false) (hother : user.mUsername ≠ contact.mUsername)
      (hnew : userContactExists db.toDatabase user.mId contact.mId = false) :
      Write pg draw db (addUserContact db user.mId contact.mId)
  | removeUserContact (userId contactId : Int32) :
      Write pg draw db (removeUserContact db userId contactId)
  | addUserChat {chat : UserChat} (hsender : Stored db.users chat.mSender)
      (hrecipient : Stored db.users chat.mRecipient) (hunread : chat.mDelivered = false) :
      Write pg draw db (addUserChat pg draw db chat)
  | setUserChatToDelivered (chatId : Int32) : Write pg draw db (setUserChatToDelivered db chatId)

abbrev Writes (pg : Engine) (draw : Draw) : Tables → Tables → Prop :=
  Relation.ReflTransGen (Write pg draw)

section

variable {pg : Engine} {draw : Draw} {tArg token address : ByteString} {tReq req : Request}
  {s s' t : Server} {db : Tables} {user : User}

theorem stored_of_known {users : List UserRow} (h : Known users user)
    (hfound : user.mEmpty = false) : Stored users user.mId := by
  obtain ⟨row, hrow, hid, -⟩ := h hfound
  rw [Stored, toInt_eq_some hid]
  exact List.mem_map_of_mem hrow

theorem space_notMem_credentials (tArg : ByteString) : space ∉ (credentials tArg).1 := by
  obtain ⟨rest, hsplit, -⟩ := Search.splitOn_cutFirst (List.cons_ne_nil space []) tArg
  apply Search.notMem_of_mem_splitOn (s := tArg)
  rw [hsplit]
  exact List.mem_cons_self

theorem writes_created (pg : Engine) (draw : Draw) (tArg address : ByteString) (db : Tables) :
    Writes pg draw db (created pg draw tArg address db) := by
  have hword := space_notMem_credentials tArg
  unfold created
  generalize credentials tArg = words at hword
  obtain ⟨username, password⟩ := words
  dsimp only
  split
  · exact Relation.ReflTransGen.refl
  · next hwords =>
    obtain ⟨hname, hpassword⟩ := not_or.mp hwords
    exact Relation.ReflTransGen.single (Write.addUser address hname hword hpassword)

theorem writes_loggedIn (pg : Engine) (draw : Draw) (tArg address : ByteString) (db : Tables) :
    Writes pg draw db (loggedIn pg draw tArg address db) := by
  unfold loggedIn
  split
  · exact Relation.ReflTransGen.refl
  · next user hauth =>
    have hwrite : Write pg draw db _ := Write.addUserToken (id_of_authenticated hauth)
    have htoken := Relation.ReflTransGen.single hwrite
    rw [updateUser]
    split
    · exact htoken.tail (Write.setPresence user.mId true (some address))
    · exact htoken

theorem writes_exited (pg : Engine) (draw : Draw) (token address : ByteString) (db : Tables) :
    Writes pg draw db (exited pg token address db) := by
  unfold exited
  dsimp only
  split
  · exact Relation.ReflTransGen.refl
  · have hwrite : Write pg draw db _ :=
      Write.setPresence (leaver pg token address db.toDatabase).mId false none
    exact (Relation.ReflTransGen.single hwrite).tail (Write.removeUserToken _)

def SameTables (a b : Server) : Prop := b.db = a.db

theorem sameTables_reads : Reads SameTables where
  refl _ := rfl
  trans hab hbc := hbc.trans hab
  searchUserByToken _ _ := rfl
  searchUserBy _ _ _ _ := rfl
  listUserContacts _ _ := rfl
  listUserChats _ _ _ _ _ := rfl
  userContactExists _ _ _ := rfl

theorem SameTables.writes (h : SameTables s t) : Writes pg draw s.db t.db := by
  rw [h]

theorem known_of_token {tToken : ByteString} (h : s.searchUserByToken tToken = (user, t)) :
    Known s.db.users user ∧ t.db = s.db := by
  obtain ⟨rfl, rfl⟩ := Prod.mk.inj h
  exact ⟨known_searchUserByToken _ _, rfl⟩

theorem known_of_search {tTerm : ByteString} {tField : UserField}
    (h : s.searchUserBy pg tTerm tField = (user, t)) : Known s.db.users user ∧ t.db = s.db := by
  obtain ⟨rfl, rfl⟩ := Prod.mk.inj h
  exact ⟨known_searchUserBy pg _ _ _, rfl⟩

theorem writes_add (pg : Engine) (draw : Draw) (tArg : ByteString) (tReq : Request)
    (s : Server) : Writes pg draw s.db (UserControllers.add pg draw tArg tReq s).2.db := by
  unfold UserControllers.add
  generalize htoken : s.searchUserByToken tReq.mToken = asked
  obtain ⟨user, t⟩ := asked
  obtain ⟨huser, hdb⟩ := known_of_token htoken
  dsimp only
  generalize hsearch : t.searchUserBy pg tArg .username = found
  obtain ⟨contact, u⟩ := found
  obtain ⟨hcontact, hsame⟩ := known_of_search hsearch
  rw [hdb] at hcontact hsame
  dsimp only
  split
  · exact SameTables.writes hsame
  · next hother =>
    generalize hexists : u.userContactExists (UserControllers.idOf draw user)
      (UserControllers.idOf draw contact) = looked
    obtain ⟨exists_, v⟩ := looked
    obtain ⟨rfl, rfl⟩ := Prod.mk.inj hexists
    dsimp only
    split
    · exact SameTables.writes hsame
    · next hnew =>
      split
      · next hboth =>
        obtain ⟨hfound, hcfound⟩ := hboth
        rw [UserControllers.idOf, UserControllers.idOf, hfound, hcfound, hsame] at hnew
        have hwrite : Write pg draw s.db _ := Write.addUserContact huser hcontact hfound
          hcfound hother (Bool.eq_false_of_not_eq_true hnew)
        rw [← hsame] at hwrite ⊢
        exact Relation.ReflTransGen.single hwrite
      · exact SameTables.writes hsame

theorem writes_remove (pg : Engine) (draw : Draw) (tArg : ByteString) (tReq : Request)
    (s : Server) : Writes pg draw s.db (UserControllers.remove pg tArg tReq s).2.db := by
  obtain ⟨t, hsame, hread | ⟨contactId, hremoved⟩⟩ := sameTables_reads.remove pg tArg tReq s
  · rw [hread]
    exact SameTables.writes hsame
  · rw [hremoved, ← (hsame : t.db = s.db)]
    exact Relation.ReflTransGen.single (Write.removeUserContact _ contactId)

theorem writes_send (h : ChatControllers.send pg draw tArg tReq s = .ok (req, s')) :
    Writes pg draw s.db s'.db := by
  obtain ⟨pieces, -, h⟩ := bind_eq_ok.mp h
  dsimp only at h
  generalize htoken : s.searchUserByToken _ = asked at h
  obtain ⟨sender, t⟩ := asked
  obtain ⟨hsender, hdb⟩ := known_of_token htoken
  dsimp only at h
  generalize hsearch : t.searchUserBy pg pieces.1 .id = found at h
  obtain ⟨recipient, u⟩ := found
  obtain ⟨hrecipient, hsame⟩ := known_of_search hsearch
  rw [hdb] at hrecipient hsame
  dsimp only at h
  split at h
  · next hboth =>
    obtain ⟨-, rfl⟩ := Prod.mk.inj (Except.ok.inj h)
    have hwrite : Write pg draw u.db (Postgres.addUserChat pg draw u.db
        ⟨0, [], sender.mId, recipient.mId, pieces.2, false, false⟩) := by
      apply Write.addUserChat
      · rw [hsame]
        exact stored_of_known hsender hboth.1
      · rw [hsame]
        exact stored_of_known hrecipient hboth.2
      · rfl
    rw [← hsame]
    exact Relation.ReflTransGen.single hwrite
  · obtain ⟨-, rfl⟩ := Prod.mk.inj (Except.ok.inj h)
    exact SameTables.writes hsame

theorem writes_setAllDelivered (pg : Engine) (draw : Draw) (s : Server)
    (userChats : List UserChat) :
    Writes pg draw s.db (ChatControllers.setAllDelivered s userChats).db := by
  induction userChats generalizing s with
  | nil => exact Relation.ReflTransGen.refl
  | cons chat userChats ih =>
    rw [ChatControllers.setAllDelivered_cons]
    split
    · exact ih s
    · have hrest := ih (s.setUserChatToDelivered chat.mId)
      exact Relation.ReflTransGen.head (Write.setUserChatToDelivered chat.mId) hrest

theorem writes_delivered (hshort : tArg.length < 2 ^ 31)
    (hplain : tArg ≠ [] → ChatControllers.Plain s.db.chats (Search.splitOn [comma] tArg))
    (h : ChatControllers.delivered pg tArg tReq s = .ok (req, s')) :
    Writes pg draw s.db s'.db := by
  by_cases hne : tArg = []
  · rw [ChatControllers.delivered, if_pos hne] at h
    exact related_of_ok (R := fun a b => Writes pg draw a.db b.db) h Relation.ReflTransGen.refl
  · obtain ⟨-, hdb⟩ := ChatControllers.findChats_plain pg (hplain hne)
    rw [ChatControllers.delivered_eq pg hshort hne] at h
    split at h
    · obtain ⟨-, rfl⟩ := Prod.mk.inj (Except.ok.inj h)
      exact SameTables.writes hdb
    · next userChats hfound =>
      obtain ⟨-, rfl⟩ := Prod.mk.inj (Except.ok.inj h)
      rw [← hdb]
      exact writes_setAllDelivered pg draw _ userChats

theorem writes_onCalls {result : Exec (Request × AwaitingUsers)}
    (h : onCalls tReq s result = .ok (req, s')) : Writes pg draw s.db s'.db := by
  obtain ⟨⟨r, after⟩, -, h⟩ := bind_eq_ok.mp h
  obtain ⟨-, rfl⟩ := Prod.mk.inj (Except.ok.inj h)
  exact Relation.ReflTransGen.refl

theorem writes_controllers {command : ServerCommand.Name} (hlogin : requireLogin command = true)
    (hshort : tArg.length < 2 ^ 31)
    (hplain : command = .delivered → tArg ≠ [] →
      ChatControllers.Plain s.db.chats (Search.splitOn [comma] tArg))
    (h : controllers pg draw command tArg tReq s = .ok (req, s')) :
    Writes pg draw s.db s'.db := by
  cases command with
  | create => cases hlogin
  | login => cases hlogin
  | exit => cases hlogin
  | list => exact SameTables.writes (sameTables_reads.list h)
  | search => exact SameTables.writes (sameTables_reads.search h)
  | add =>
    exact related_of_ok (R := fun a b => Writes pg draw a.db b.db) h
      (writes_add pg draw tArg tReq s)
  | remove =>
    exact related_of_ok (R := fun a b => Writes pg draw a.db b.db) h
      (writes_remove pg draw tArg tReq s)
  | available => exact SameTables.writes (sameTables_reads.available h)
  | send => exact writes_send h
  | pending => exact SameTables.writes (sameTables_reads.getChats h)
  | chat => exact SameTables.writes (sameTables_reads.getChats h)
  | delivered => exact writes_delivered hshort (hplain rfl) h
  | connect => exact writes_onCalls h
  | accept => exact writes_onCalls h
  | hangup => exact writes_onCalls h
  | reject => exact writes_onCalls h
  | ping => exact writes_onCalls h
  | none => exact SameTables.writes (related_of_ok (R := SameTables) h rfl)

theorem writes_written (pg : Engine) (draw : Draw) (raw : Message) (tReq : Request)
    (db : Tables) : Writes pg draw db (written pg draw raw tReq db) := by
  unfold written
  split
  · exact Relation.ReflTransGen.refl
  · split
    · exact writes_created pg draw raw.body tReq.mAddress db
    · exact writes_loggedIn pg draw raw.body tReq.mAddress db
    · exact writes_exited pg draw raw.body tReq.mAddress db
    · exact Relation.ReflTransGen.refl

theorem writes_route {raw : Message} (hplain : PlainIds raw tReq s)
    (h : route pg draw (raw.request tReq) s = .ok (req, s')) : Writes pg draw s.db s'.db := by
  cases hvalid : tReq.mValid with
  | false =>
    rw [route_invalid pg draw raw s hvalid] at h
    exact SameTables.writes (related_of_ok (R := SameTables) h rfl)
  | true =>
    cases hlogin : requireLogin raw.command with
    | false =>
      rw [route_open_db hvalid hlogin h]
      exact writes_written pg draw raw tReq s.db
    | true =>
      rw [route_login pg draw s hvalid hlogin] at h
      split at h
      · exact SameTables.writes (related_of_ok (R := SameTables) h rfl)
      · next hstored =>
        split at h
        · have hids : raw.command = .delivered → raw.arguments ≠ [] →
              ChatControllers.Plain (asked s raw.word).db.chats
                (Search.splitOn [comma] raw.arguments) :=
            fun hcommand hne => hplain hvalid hcommand (Bool.eq_false_of_not_eq_true hstored) hne
          exact writes_controllers (s := asked s raw.word) hlogin (length_arguments_lt raw) hids h
        · exact SameTables.writes (related_of_ok (R := SameTables) h rfl)

def Draws (draw : Draw) : Event → Prop
  | .request drawn _ _ => drawn = draw
  | .disconnect _ => True

theorem writes_step {event : Event} (hdraws : Draws draw event) (hplain : PlainStep s event)
    (h : step pg s event = .ok s') : Writes pg draw s.db s'.db := by
  cases event with
  | request drawn raw tReq =>
    obtain rfl := hdraws
    obtain ⟨req, hroute⟩ := step_request h
    exact writes_route hplain hroute
  | disconnect tReq =>
    rw [disconnect_db h]
    split
    · exact writes_exited pg draw _ _ _
    · exact Relation.ReflTransGen.refl

theorem exists_draws (event : Event) : ∃ draw, Draws draw event := by
  cases event with
  | request draw raw tReq => exact ⟨draw, rfl⟩
  | disconnect tReq => exact ⟨sampleDraw, trivial⟩

instance (raw : Message) (tReq : Request) (s : Server) : Decidable (PlainIds raw tReq s) :=
  inferInstanceAs (Decidable (_ → _ → _ → _ → _))

instance (s : Server) : ∀ event, Decidable (PlainStep s event)
  | .request _ raw tReq => inferInstanceAs (Decidable (PlainIds raw tReq s))
  | .disconnect _ => isTrue trivial

theorem inv_of_writes {inv : Tables → Prop} {a b : Tables}
    (hwrite : ∀ {a b}, inv a → Write pg draw a b → inv b) (ha : inv a)
    (hwrites : Writes pg draw a b) : inv b := by
  induction hwrites with
  | refl => exact ha
  | tail _ hlast ih => exact hwrite ih hlast

theorem inv_of_step {inv : Tables → Prop} {event : Event}
    (hwrite : ∀ {draw a b}, inv a → Write pg draw a b → inv b) (ha : inv s.db)
    (hplain : PlainStep s event) (hstep : step pg s event = .ok s') : inv s'.db := by
  obtain ⟨draw, hdraws⟩ := exists_draws event
  exact inv_of_writes hwrite ha (writes_step hdraws hplain hstep)

/-- What every single statement keeps holds behind every step of a run. -/
theorem always_of_write {inv : Tables → Prop} {events : List Event}
    (hwrite : ∀ {draw a b}, inv a → Write pg draw a b → inv b) (hinit : inv s.db)
    (hplain : AlwaysM (step pg) (fun a event _ => PlainStep a event) s events) :
    AlwaysM (step pg) (fun _ _ b => inv b.db) s events := by
  have hstep : ∀ a event b, inv a.db → PlainStep a event → step pg a event = .ok b → inv b.db :=
    fun _ _ _ ha hevent hb => inv_of_step hwrite ha hevent hb
  exact Library.Transition.alwaysM_of_invariant hinit hplain hstep

theorem run_of_write {inv : Tables → Prop} {events : List Event}
    (hwrite : ∀ {draw a b}, inv a → Write pg draw a b → inv b) (hinit : inv s.db)
    (hplain : AlwaysM (step pg) (fun a event _ => PlainStep a event) s events)
    (hrun : Library.Transition.runM (step pg) s events = .ok t) : inv t.db := by
  have hstep : ∀ a event b, inv a.db → PlainStep a event → step pg a event = .ok b → inv b.db :=
    fun _ _ _ ha hevent hb => inv_of_step hwrite ha hevent hb
  exact Library.Transition.invariant_alwaysM (s := s) (t := t) hinit hstep hplain hrun

end

/-- Ids and names are unique, the accounts have a name and a password, and contacts, tokens
and chats refer to stored users. -/
structure WellFormed (db : Tables) : Prop where
  ids : (db.users.map UserRow.id).Nodup
  usernames : (db.users.map UserRow.username).Nodup
  accounts : ∀ row ∈ db.users, row.username ≠ [] ∧ space ∉ row.username ∧ row.password ≠ []
  tokens : ∀ row ∈ db.tokens, row.userId ∈ db.users.map UserRow.id
  contacts : ∀ row ∈ db.contacts, ∃ a ∈ db.users.map UserRow.id,
    ∃ b ∈ db.users.map UserRow.id, row = ⟨some a, some b⟩
  clean : Clean db.contacts
  chats : ∀ row ∈ db.chats.entries, Stored db.users row.senderId ∧
    Stored db.users row.recipientId ∧ row.text ≠ none

section

variable {pg : Engine} {draw : Draw} {db db' : Tables}

theorem map_setPresence {β : Type} (f : UserRow → β)
    (hf : ∀ row online address, f { row with online, address } = f row) (users : List UserRow)
    (userId : Int32) (online : Bool) (address : Option ByteString) :
    (setPresence users userId online address).map f = users.map f := by
  rw [setPresence, List.map_map]
  apply List.map_congr_left
  intro row hrow
  rw [Function.comp_apply]
  split
  · exact hf row online address
  · rfl

theorem mem_setPresence {users : List UserRow} {userId : Int32} {online : Bool}
    {address : Option ByteString} {row : UserRow}
    (h : row ∈ setPresence users userId online address) :
    ∃ old ∈ users, row.username = old.username ∧ row.password = old.password := by
  obtain ⟨old, hold, rfl⟩ := List.mem_map.mp h
  refine ⟨old, hold, ?_⟩
  split
  · exact ⟨rfl, rfl⟩
  · exact ⟨rfl, rfl⟩

theorem WellFormed.addUser (h : WellFormed db) {username password : ByteString}
    (address : ByteString) (hname : username ≠ []) (hword : space ∉ username)
    (hpassword : password ≠ []) :
    WellFormed (Postgres.addUser pg draw db ⟨0, username, password, false, address, false⟩).2 := by
  rw [Postgres.addUser]
  split
  · exact h
  · next hfresh =>
    simp only [not_or] at hfresh
    obtain ⟨hid, hnew, -⟩ := hfresh
    have hmono : ∀ id ∈ db.users.map UserRow.id, id ∈ (db.users ++ [(⟨draw.userId, username,
        password, false, some address⟩ : UserRow)]).map UserRow.id := by
      intro id hmem
      rw [List.map_append]
      exact List.mem_append_left _ hmem
    constructor
    · dsimp only
      rw [List.map_append]
      exact h.ids.append (List.nodup_singleton _) (List.disjoint_singleton.mpr hid)
    · dsimp only
      rw [List.map_append]
      exact h.usernames.append (List.nodup_singleton _) (List.disjoint_singleton.mpr hnew)
    · intro row hrow
      rcases List.mem_append.mp hrow with hold | hself
      · exact h.accounts row hold
      · rw [List.mem_singleton.mp hself]
        exact ⟨hname, hword, hpassword⟩
    · intro row hrow
      exact hmono _ (h.tokens row hrow)
    · intro row hrow
      obtain ⟨a, ha, b, hb, hpair⟩ := h.contacts row hrow
      exact ⟨a, hmono a ha, b, hmono b hb, hpair⟩
    · exact h.clean
    · intro row hrow
      obtain ⟨hsender, hrecipient, htext⟩ := h.chats row hrow
      exact ⟨hmono _ hsender, hmono _ hrecipient, htext⟩

theorem WellFormed.setPresence (h : WellFormed db) (userId : Int32) (online : Bool)
    (address : Option ByteString) :
    WellFormed { db with users := setPresence db.users userId online address } := by
  have hids := map_id_setPresence db.users userId online address
  have hnames := map_setPresence UserRow.username (fun _ _ _ => rfl) db.users userId online address
  constructor
  · exact hids ▸ h.ids
  · exact hnames ▸ h.usernames
  · intro row hrow
    obtain ⟨old, hold, hname, hpassword⟩ := mem_setPresence hrow
    rw [hname, hpassword]
    exact h.accounts old hold
  · exact hids ▸ h.tokens
  · exact hids ▸ h.contacts
  · exact h.clean
  · unfold Stored
    exact hids ▸ h.chats

theorem WellFormed.addUserToken (h : WellFormed db) {userId : Int32}
    (hstored : Stored db.users userId) :
    WellFormed (Postgres.addUserToken pg db userId draw.token).2 := by
  rw [Postgres.addUserToken]
  split
  · refine ⟨h.ids, h.usernames, h.accounts, ?_, h.contacts, h.clean, h.chats⟩
    intro row hrow
    rcases List.mem_append.mp hrow with hold | hself
    · exact h.tokens row hold
    · rw [List.mem_singleton.mp hself]
      exact hstored
  · exact h

theorem WellFormed.addUserContact (h : WellFormed db) {user contact : User}
    (huser : Known db.users user) (hcontact : Known db.users contact)
    (hfound : user.mEmpty = false) (hcfound : contact.mEmpty = false)
    (hother : user.mUsername ≠ contact.mUsername)
    (hnew : userContactExists db.toDatabase user.mId contact.mId = false) :
    WellFormed (Postgres.addUserContact db user.mId contact.mId) := by
  have hne : user.mId.toInt ≠ contact.mId.toInt := by
    intro hsame
    exact mId_ne_of_known h.ids huser hcontact hfound hcfound hother (Int32.toInt_inj.mp hsame)
  have hfresh : (⟨some user.mId.toInt, some contact.mId.toInt⟩ : ContactRow) ∉ db.contacts := by
    intro hmem
    have hexists := h.clean.exists_iff.mpr hmem
    rw [userContactExists] at hnew
    rw [hnew] at hexists
    cases hexists
  refine ⟨h.ids, h.usernames, h.accounts, h.tokens, ?_, ?_, h.chats⟩
  · intro row hrow
    rcases List.mem_append.mp hrow with hold | hself
    · exact h.contacts row hold
    · exact ⟨_, stored_of_known huser hfound, _, stored_of_known hcontact hcfound,
        List.mem_singleton.mp hself⟩
  · exact (h.clean.append_iff hne).mpr hfresh

theorem WellFormed.removeUserContact (h : WellFormed db) (userId contactId : Int32) :
    WellFormed (Postgres.removeUserContact db userId contactId) := by
  refine ⟨h.ids, h.usernames, h.accounts, h.tokens, ?_, h.clean.filter _, h.chats⟩
  intro row hrow
  exact h.contacts row (List.mem_filter.mp hrow).1

theorem WellFormed.addUserChat (h : WellFormed db) {chat : UserChat}
    (hsender : Stored db.users chat.mSender) (hrecipient : Stored db.users chat.mRecipient) :
    WellFormed (Postgres.addUserChat pg draw db chat) := by
  rw [Postgres.addUserChat]
  split
  · exact h
  · refine ⟨h.ids, h.usernames, h.accounts, h.tokens, h.contacts, h.clean, ?_⟩
    intro row hrow
    rcases Keyed.mem_insertEntry hrow with rfl | hold
    · exact ⟨hsender, hrecipient, Option.some_ne_none _⟩
    · exact h.chats row hold

theorem WellFormed.setUserChatToDelivered (h : WellFormed db) (chatId : Int32) :
    WellFormed (Postgres.setUserChatToDelivered db chatId) := by
  refine ⟨h.ids, h.usernames, h.accounts, h.tokens, h.contacts, h.clean, ?_⟩
  intro row hrow
  obtain ⟨old, hold, rfl⟩ := List.mem_map.mp hrow
  rw [setDelivered]
  split
  · exact h.chats old hold
  · exact h.chats old hold

theorem WellFormed.write (h : WellFormed db) (hwrite : Write pg draw db db') :
    WellFormed db' := by
  cases hwrite with
  | addUser address hname hword hpassword => exact h.addUser address hname hword hpassword
  | addUserToken hstored => exact h.addUserToken hstored
  | setPresence userId online address => exact h.setPresence userId online address
  | removeUserToken userId =>
    refine ⟨h.ids, h.usernames, h.accounts, ?_, h.contacts, h.clean, h.chats⟩
    intro row hrow
    exact h.tokens row (List.mem_filter.mp hrow).1
  | addUserContact huser hcontact hfound hcfound hother hnew =>
    exact h.addUserContact huser hcontact hfound hcfound hother hnew
  | removeUserContact userId contactId => exact h.removeUserContact userId contactId
  | addUserChat hsender hrecipient hunread => exact h.addUserChat hsender hrecipient
  | setUserChatToDelivered chatId => exact h.setUserChatToDelivered chatId

end

def busyDay : List Event :=
  [.request { sampleDraw with userId := 3 } ⟨str "CREATE ann 9999", by decide⟩ johnRequest,
    .request sampleDraw ⟨str "ADD abc ann", by decide⟩ johnRequest,
    .request sampleDraw ⟨str "SEND abc 2 good night", by decide⟩ johnRequest,
    .request sampleDraw ⟨str "DELIVERED def 7,8", by decide⟩ johnRequest,
    .request sampleDraw ⟨str "EXIT abc", by decide⟩ johnRequest]

theorem clean_twoUsers : Clean twoUsers.db.contacts := by
  constructor
  · have hnodup : twoUsers.db.contacts.Nodup := by decide
    exact fun a b => List.nodup_iff_count_le_one.mp hnodup _
  · intro a hmem
    simp only [twoUsers, List.mem_cons, ContactRow.mk.injEq, Option.some.injEq,
      List.not_mem_nil, or_false] at hmem
    omega

theorem wellFormed_twoUsers : WellFormed twoUsers.db :=
  ⟨by decide, by decide, by decide, by decide, by decide, clean_twoUsers, by
    simp only [Stored]
    decide⟩

def SameAccount (old new : UserRow) : Prop :=
  new.id = old.id ∧ new.username = old.username ∧ new.password = old.password

def SameChat (old new : ChatRow) : Prop := new = old ∨ new = { old with delivered := true }

theorem SameChat.trans {a b c : ChatRow} (hab : SameChat a b) (hbc : SameChat b c) :
    SameChat a c := by
  rcases hab with rfl | rfl
  · exact hbc
  · rcases hbc with rfl | rfl
    · exact Or.inr rfl
    · exact Or.inr rfl

theorem SameAccount.trans {a b c : UserRow} (hab : SameAccount a b) (hbc : SameAccount b c) :
    SameAccount a c :=
  ⟨hbc.1.trans hab.1, hbc.2.1.trans hab.2.1, hbc.2.2.trans hab.2.2⟩

/-- No account and no chat of the past is lost or changed in what it says. -/
structure Kept (past db : Tables) : Prop where
  users : Grows SameAccount past.users db.users
  chats : Grows SameChat past.chats.entries db.chats.entries

section

variable {pg : Engine} {draw : Draw} {past db db' : Tables}

theorem sameAccount_refl (row : UserRow) : SameAccount row row := ⟨rfl, rfl, rfl⟩

theorem sameChat_refl (row : ChatRow) : SameChat row row := Or.inl rfl

theorem grows_addUser (pg : Engine) (draw : Draw) (db : Tables) (tUser : User) :
    Grows SameAccount db.users (addUser pg draw db tUser).2.users ∧
      (addUser pg draw db tUser).2.chats = db.chats := by
  rw [addUser]
  split
  · exact ⟨Grows.refl sameAccount_refl _, rfl⟩
  · exact ⟨Grows.append sameAccount_refl _ _, rfl⟩

theorem grows_setPresence (users : List UserRow) (userId : Int32) (online : Bool)
    (address : Option ByteString) :
    Grows SameAccount users (setPresence users userId online address) := by
  apply Grows.map
  intro row hrow
  split
  · exact ⟨rfl, rfl, rfl⟩
  · exact sameAccount_refl row

theorem grows_addUserChat (pg : Engine) (draw : Draw) (db : Tables) (chat : UserChat) :
    Grows SameChat db.chats.entries (addUserChat pg draw db chat).chats.entries ∧
      (addUserChat pg draw db chat).users = db.users := by
  rw [addUserChat]
  split
  · exact ⟨Grows.refl sameChat_refl _, rfl⟩
  · next hfresh =>
    have hnone : db.chats.find? draw.chatId = none := by
      rw [not_or, Bool.not_eq_true, Option.isSome_eq_false_iff, Option.isNone_iff_eq_none]
        at hfresh
      exact hfresh.1
    refine ⟨?_, rfl⟩
    dsimp only
    rw [Keyed.entries_insert hnone]
    exact Grows.append sameChat_refl _ _

theorem grows_setDelivered (rows : List ChatRow) (id : ℤ) :
    Grows SameChat rows (rows.map (setDelivered id)) := by
  apply Grows.map
  intro row hrow
  rw [setDelivered]
  split
  · exact Or.inr rfl
  · exact sameChat_refl row

theorem kept_write (hwrite : Write pg draw db db') :
    Grows SameAccount db.users db'.users ∧ Grows SameChat db.chats.entries db'.chats.entries := by
  have husers := Grows.refl sameAccount_refl db.users
  have hchats := Grows.refl sameChat_refl db.chats.entries
  cases hwrite with
  | addUser address =>
    obtain ⟨hgrows, hsame⟩ := grows_addUser pg draw db _
    exact ⟨hgrows, hsame ▸ hchats⟩
  | addUserToken hstored =>
    rw [addUserToken]
    split
    · exact ⟨husers, hchats⟩
    · exact ⟨husers, hchats⟩
  | setPresence userId online address => exact ⟨grows_setPresence _ _ _ _, hchats⟩
  | removeUserToken userId => exact ⟨husers, hchats⟩
  | addUserContact => exact ⟨husers, hchats⟩
  | removeUserContact userId contactId => exact ⟨husers, hchats⟩
  | addUserChat hsender hrecipient hunread =>
    obtain ⟨hgrows, hsame⟩ := grows_addUserChat pg draw db _
    exact ⟨hsame ▸ husers, hgrows⟩
  | setUserChatToDelivered chatId => exact ⟨husers, grows_setDelivered _ _⟩

theorem Kept.write (h : Kept past db) (hwrite : Write pg draw db db') : Kept past db' := by
  obtain ⟨husers, hchats⟩ := kept_write hwrite
  exact ⟨h.users.trans SameAccount.trans husers, h.chats.trans SameChat.trans hchats⟩

end

/-- No run in which `DELIVERED` looks up numerals loses an account or a chat, renames or
rewrites one, or takes a chat back to undelivered; what it adds stands behind. -/
theorem kept_always (pg : Engine) (s : Server) (events : List Event)
    (hplain : AlwaysM (step pg) (fun a event _ => PlainStep a event) s events) :
    AlwaysM (step pg) (fun _ _ b => Kept s.db b.db) s events := by
  apply always_of_write (fun h hwrite => Kept.write h hwrite) _ hplain
  exact ⟨Grows.refl sameAccount_refl _, Grows.refl sameChat_refl _⟩

theorem kept_busyDay :
    AlwaysM (step Engine.basic) (fun _ _ b => Kept twoUsers.db b.db) twoUsers busyDay :=
  kept_always Engine.basic twoUsers busyDay (by decide +kernel)

end Skype.TableIntegrity
