import Skype.Accounts
import Skype.ConcurrentContacts
import Skype.ContactNames

/-!
# The requests of `Contacts`

`ADD` and `REMOVE` list the contacts again behind a success, with the request that holds the
reply by then. The server takes the code of that reply for a token and refuses, and the
client reads the refusal as a list without contacts, until the timer lists them again.
-/

namespace Skype

open Library

namespace Contacts

variable {σ : Type}

def validResponse (tCode : Reply.Code) (tRes : ByteString) : Bool :=
  find tRes (Reply.getMessage tCode) 0 ≠ npos

/-- `list` with the contacts behind it and the job it creates; the data are those of the
request, the flag is the result. -/
def list (hash : QHashOrder) (mOnlineContacts : ContactMap) (data : ByteString)
    (conn : Connection σ) (t : σ) : Exec (Bool × ContactMap × Option Job × σ) := do
  let (response, t) ← conn (str "LIST " ++ data) t
  match response with
  | none => return (false, mOnlineContacts, none, t)
  | some response => do
    let (newContacts, job) ← updateContacts hash mOnlineContacts response
    return (true, newContacts, job, t)

def ask (word : ByteString) (tCode : Reply.Code) (user : ByteString) (conn : Connection σ)
    (t : σ) : Exec (Option ByteString × σ) :=
  if user = [] then .ok (none, t)
  else do
    let (response, t) ← conn (word ++ user) t
    return (response.filter (validResponse tCode), t)

def search (user : ByteString) (conn : Connection σ) (t : σ) : Exec (Bool × σ) := do
  let (response, t) ← ask (str "SEARCH ") .r201 user conn t
  return (response.isSome, t)

def available (user : ByteString) (conn : Connection σ) (t : σ) : Exec (Bool × σ) := do
  let (response, t) ← ask (str "AVAILABLE ") .r201 user conn t
  return (response.isSome, t)

def change (word : ByteString) (hash : QHashOrder) (mOnlineContacts : ContactMap)
    (user : ByteString) (conn : Connection σ) (t : σ) :
    Exec (Bool × ContactMap × Option Job × σ) := do
  let (response, t) ← ask word .r200 user conn t
  match response with
  | none => return (false, mOnlineContacts, none, t)
  | some response => do
    let (_, newContacts, job, t) ← list hash mOnlineContacts response conn t
    return (true, newContacts, job, t)

def addUser (hash : QHashOrder) (mOnlineContacts : ContactMap) (user : ByteString)
    (conn : Connection σ) (t : σ) : Exec (Bool × ContactMap × Option Job × σ) :=
  change (str "ADD ") hash mOnlineContacts user conn t

def removeUser (hash : QHashOrder) (mOnlineContacts : ContactMap) (user : ByteString)
    (conn : Connection σ) (t : σ) : Exec (Bool × ContactMap × Option Job × σ) :=
  change (str "REMOVE ") hash mOnlineContacts user conn t

end Contacts

namespace ContactRequests

open Contacts ContactNames ControllerUtils Postgres Router ServerExchange SessionTokens
  TableIntegrity
open ConcurrentContacts (Command)

def perform (command : Command) (hash : QHashOrder) (mOnlineContacts : ContactMap)
    (user : ByteString) (conn : Connection Server) (s : Server) :
    Exec (Bool × ContactMap × Option Job × Server) :=
  match command with
  | .add => addUser hash mOnlineContacts user conn s
  | .remove => removeUser hash mOnlineContacts user conn s

/-- The server does what is asked: the token and the name find users and, for `ADD`, the
contact is another user and not a contact yet. -/
def Confirms (pg : Engine) (command : Command) (token name : ByteString) (db : Tables) : Prop :=
  let user := searchUserByToken db.toDatabase token
  let contact := searchUserBy pg db.toDatabase name .username
  name ≠ [] ∧ user.mEmpty = false ∧ contact.mEmpty = false ∧
    (command = .add → user.mUsername ≠ contact.mUsername ∧
      userContactExists db.toDatabase user.mId contact.mId = false)

def changed (pg : Engine) (command : Command) (token name : ByteString) (db : Tables) : Tables :=
  let user := searchUserByToken db.toDatabase token
  let contact := searchUserBy pg db.toDatabase name .username
  match command with
  | .add => addUserContact db user.mId contact.mId
  | .remove => removeUserContact db user.mId contact.mId

structure Sendable (token name : ByteString) : Prop where
  space : space ∉ token
  nul : 0 ∉ token ∧ 0 ∉ name
  short : token.length + name.length < 2 ^ 31 - 100

section

variable {pg : Engine} {draw : Draw} {tReq : Request} {s : Server} {command : Command}
  {token name : ByteString}

def refusals : List Reply.Code := [.r202, .r300, .r301, .r302, .r501]

def Answers (pg : Engine) (command : Command) (token name : ByteString) (db : Tables)
    (reply : Request) (after : Tables) : Prop :=
  (Confirms pg command token name db ∧
      reply.mData = some (textData (Reply.getMessage .r200)) ∧
        after = changed pg command token name db) ∨
    (¬Confirms pg command token name db ∧
      (∃ code ∈ refusals, reply.mData = some (textData (Reply.getMessage code))) ∧ after = db)

theorem answers_add (pg : Engine) (draw : Draw) (hname : name ≠ []) (tReq : Request) (s : Server)
    (hfound : (searchUserByToken s.db.toDatabase tReq.mToken).mEmpty = false) :
    Answers pg .add tReq.mToken name s.db (UserControllers.add pg draw name tReq s).1
      (UserControllers.add pg draw name tReq s).2.db := by
  have hid : ∀ user : User, user.mEmpty = false → UserControllers.idOf draw user = user.mId := by
    intro user huser
    rw [UserControllers.idOf, huser]
    rfl
  unfold UserControllers.add
  dsimp only [Server.searchUserByToken, Server.searchUserBy, Server.userContactExists, Server.send]
  split
  · next hself =>
    exact Or.inr ⟨fun h => (h.2.2.2 rfl).1 hself, ⟨.r300, by decide, rfl⟩, rfl⟩
  · next hself =>
    split
    · next hexists =>
      refine Or.inr ⟨?_, ⟨.r302, by decide, rfl⟩, rfl⟩
      intro h
      have hnot := (h.2.2.2 rfl).2
      rw [hid _ hfound, hid _ h.2.2.1, hnot] at hexists
      cases hexists
    · next hexists =>
      split
      · next hboth =>
        rw [hid _ hfound, hid _ hboth.2, Bool.not_eq_true] at hexists
        exact Or.inl ⟨⟨hname, hfound, hboth.2, fun _ => ⟨hself, hexists⟩⟩, rfl, rfl⟩
      · next hneither =>
        exact Or.inr ⟨fun h => hneither ⟨hfound, h.2.2.1⟩, ⟨.r301, by decide, rfl⟩, rfl⟩

theorem answers_remove (pg : Engine) (hname : name ≠ []) (tReq : Request) (s : Server)
    (hfound : (searchUserByToken s.db.toDatabase tReq.mToken).mEmpty = false) :
    Answers pg .remove tReq.mToken name s.db (UserControllers.remove pg name tReq s).1
      (UserControllers.remove pg name tReq s).2.db := by
  unfold UserControllers.remove
  dsimp only [Server.searchUserByToken, Server.searchUserBy, Server.send]
  split
  · next hboth =>
    exact Or.inl ⟨⟨hname, hfound, hboth.2, nofun⟩, rfl, rfl⟩
  · next hneither =>
    exact Or.inr ⟨fun h => hneither ⟨hfound, h.2.2.1⟩, ⟨.r301, by decide, rfl⟩, rfl⟩

theorem route_change (pg : Engine) (draw : Draw) (s : Server) {raw : Message}
    (hvalid : tReq.mValid = true) (hspace : space ∉ token)
    (htext : raw.text = ServerCommand.toString command.name ++ space :: (token ++ space :: name)) :
    ∃ reply s', route pg draw (raw.request tReq) s = .ok (reply, s') ∧
      Answers pg command token name s.db reply s'.db := by
  obtain ⟨hcommand, hbody⟩ := WireFormat.command_body htext
  have hcut : Search.cutFirst [space] raw.body = (token, name) := by
    rw [hbody, Search.cutFirst_append_cons name hspace]
  have hword : raw.word = token := congrArg Prod.fst hcut
  have harguments : raw.arguments = name := congrArg Prod.snd hcut
  have hlogin : requireLogin raw.command = true := by
    rw [hcommand]
    cases command with
    | add => rfl
    | remove => rfl
  rw [route_login pg draw s hvalid hlogin, hword, harguments, hcommand]
  split
  · next hempty =>
    refine ⟨_, _, rfl, Or.inr ⟨?_, ⟨.r202, by decide, rfl⟩, rfl⟩⟩
    intro h
    rw [h.2.1] at hempty
    cases hempty
  · next hfound =>
    have hnonempty : (searchUserByToken (asked s token).db.toDatabase token).mEmpty = false :=
      Bool.not_eq_true _ ▸ hfound
    split
    · next hvalidate =>
      have hname : name ≠ [] := by
        rintro rfl
        cases command with
        | add => cases hvalidate
        | remove => cases hvalidate
      cases command with
      | add =>
        have hadd := answers_add pg draw hname { raw.request tReq with mToken := token }
          (asked s token) hnonempty
        exact ⟨_, _, rfl, hadd⟩
      | remove =>
        have hremove := answers_remove pg hname { raw.request tReq with mToken := token }
          (asked s token) hnonempty
        exact ⟨_, _, rfl, hremove⟩
    · next hrefuse =>
      refine ⟨_, _, rfl, Or.inr ⟨?_, ⟨.r501, by decide, rfl⟩, rfl⟩⟩
      intro h
      apply hrefuse
      have hnonempty : name.isEmpty = false := List.isEmpty_eq_false_iff.mpr h.1
      cases command with
      | add => simp [validateArgument, Command.name, hnonempty]
      | remove => simp [validateArgument, Command.name, hnonempty]

theorem validResponse_refusals {code : Reply.Code} (h : code ∈ refusals) :
    validResponse .r200 (Reply.getMessage code) = false := by
  revert code
  decide +kernel

theorem exchange_change (pg : Engine) (draw : Draw) (command : Command) (s : Server)
    (hvalid : tReq.mValid = true) (h : Sendable token name) :
    ∃ text s', server pg draw tReq
        (ServerCommand.toString command.name ++ str " " ++ (token ++ str " " ++ name)) s =
          .ok (some text, s') ∧
      ((Confirms pg command token name s.db ∧ text = Reply.getMessage .r200 ∧
          s'.db = changed pg command token name s.db) ∨
        (¬Confirms pg command token name s.db ∧ validResponse .r200 text = false ∧
          s'.db = s.db)) := by
  obtain ⟨hspace, ⟨hnulToken, hnulName⟩, hshort⟩ := h
  have hcommand : Carried
      (ServerCommand.toString command.name ++ str " " ++ (token ++ str " " ++ name)) := by
    have hword : 0 ∉ ServerCommand.toString command.name ∧
        (ServerCommand.toString command.name).length ≤ 6 := by
      cases command with
      | add => decide
      | remove => decide
    have hone : (0 : UInt8) ∉ str " " ∧ (str " ").length = 1 := by decide
    constructor
    · simp only [List.mem_append, not_or]
      exact ⟨⟨hword.1, hone.1⟩, ⟨hnulToken, hone.1⟩, hnulName⟩
    · simp only [List.length_append, hone.2]
      omega
  have htext : hcommand.message.text =
      ServerCommand.toString command.name ++ space :: (token ++ space :: name) := by
    simp [Carried.message, str]
  obtain ⟨reply, s', hroute, hanswers⟩ := route_change pg draw s hvalid hspace htext
  rcases hanswers with ⟨hconfirms, hreply, hdb⟩ | ⟨hrefuses, ⟨code, hcode, hreply⟩, hdb⟩
  · exact ⟨_, s', server_eq hcommand hroute hreply (Accounts.carried_getMessage .r200),
      Or.inl ⟨hconfirms, rfl, hdb⟩⟩
  · exact ⟨_, s', server_eq hcommand hroute hreply (Accounts.carried_getMessage code),
      Or.inr ⟨hrefuses, validResponse_refusals hcode, hdb⟩⟩

theorem unknown_code {db : Tables} (h : Generates db) :
    (searchUserByToken db.toDatabase (str "200")).mEmpty = true := by
  have hnone : (db.tokens.filter fun row => row.token = some (str "200")) = [] := by
    rw [List.filter_eq_nil_iff]
    intro row hrow hcode
    obtain ⟨token, htoken, htext⟩ := h row hrow
    rw [decide_eq_true_eq, htoken, Option.some.injEq] at hcode
    have hlength := htext.length
    rw [hcode] at hlength
    cases hlength
  rw [searchUserByToken, hnone]
  rfl

theorem updateContacts_refusal (hash : QHashOrder) (mOnlineContacts : ContactMap) :
    updateContacts hash mOnlineContacts (Reply.getMessage .r202) =
      .ok (Keyed.empty, some dispContacts) := by
  have hsplit : StringUtils.split (Reply.getMessage .r202) (str " ") =
      .ok [str "202", str "Invalid", str "token.", str "Please", str "login"] := by
    decide +kernel
  have hread : [str "202", str "Invalid", str "token.", str "Please", str "login"].foldlM
      pairContactDetails Keyed.empty = .ok Keyed.empty := rfl
  have hempty : changeJob hash mOnlineContacts Keyed.empty = some dispContacts :=
    if_pos (Or.inr rfl)
  rw [updateContacts, hsplit, ok_bind, hread, ok_bind, hempty]
  rfl

theorem list_refused (pg : Engine) (draw : Draw) (hash : QHashOrder)
    (mOnlineContacts : ContactMap) (hvalid : tReq.mValid = true) (h : Generates s.db) :
    ∃ s', Contacts.list hash mOnlineContacts (Reply.getMessage .r200) (server pg draw tReq) s =
        .ok (true, Keyed.empty, some dispContacts, s') ∧ s'.db = s.db := by
  have hcommand : Carried (str "LIST " ++ Reply.getMessage .r200) := by decide
  have htext : hcommand.message.text =
      ServerCommand.toString .list ++ space :: (str "200" ++ space :: str "OK") := rfl
  obtain ⟨hname, hbody⟩ := WireFormat.command_body htext
  have hword : hcommand.message.word = str "200" := by
    rw [Message.word, hbody, Search.cutFirst_append_cons (str "OK") (by decide)]
  have hlogin : requireLogin hcommand.message.command = true := by
    rw [hname]
    rfl
  have hroute := route_login pg draw s hvalid hlogin
  rw [hword, if_pos (unknown_code h)] at hroute
  have hexchange := server_eq hcommand hroute rfl (Accounts.carried_getMessage .r202)
  rw [Contacts.list, hexchange, ok_bind]
  dsimp only
  rw [updateContacts_refusal]
  exact ⟨_, rfl, rfl⟩

theorem generates_changed (pg : Engine) (command : Command) (token name : ByteString)
    {db : Tables} (h : Generates db) : Generates (changed pg command token name db) := by
  cases command with
  | add => exact h
  | remove => exact h

theorem perform_eq (command : Command) (hash : QHashOrder) (mOnlineContacts : ContactMap)
    (conn : Connection Server) (s : Server) (token name : ByteString) :
    perform command hash mOnlineContacts (token ++ str " " ++ name) conn s =
      change (ServerCommand.toString command.name ++ str " ") hash mOnlineContacts
        (token ++ str " " ++ name) conn s := by
  cases command with
  | add => rfl
  | remove => rfl

theorem sent_ne_nil (token name : ByteString) : token ++ str " " ++ name ≠ [] := by
  intro hnil
  have hlength := congrArg List.length hnil
  simp [str] at hlength

theorem change_confirmed (pg : Engine) (draw : Draw) (command : Command) (hash : QHashOrder)
    (mOnlineContacts : ContactMap) (hvalid : tReq.mValid = true) (h : Sendable token name)
    (hdb : Generates s.db) (hconfirms : Confirms pg command token name s.db) :
    ∃ s', perform command hash mOnlineContacts (token ++ str " " ++ name) (server pg draw tReq) s =
        .ok (true, Keyed.empty, some dispContacts, s') ∧
      s'.db = changed pg command token name s.db := by
  obtain ⟨text, s₁, hexchange, houtcome⟩ := exchange_change pg draw command s hvalid h
  rw [perform_eq, change, ask, if_neg (sent_ne_nil token name), hexchange, ok_bind]
  rcases houtcome with ⟨-, rfl, hchanged⟩ | ⟨hrefuses, -, -⟩
  · have hgenerates : Generates s₁.db := hchanged ▸ generates_changed pg command token name hdb
    obtain ⟨s₂, hlist, hkept⟩ := list_refused pg draw hash mOnlineContacts hvalid hgenerates
    have hfilter : Option.filter (validResponse .r200) (some (Reply.getMessage .r200)) =
        some (Reply.getMessage .r200) := by
      rw [Option.filter_some, if_pos (by decide +kernel)]
    dsimp only
    rw [hfilter, pure_eq_ok, ok_bind]
    dsimp only
    rw [hlist]
    exact ⟨s₂, rfl, hkept.trans hchanged⟩
  · exact absurd hconfirms hrefuses

theorem change_refused (pg : Engine) (draw : Draw) (command : Command) (hash : QHashOrder)
    (mOnlineContacts : ContactMap) (hvalid : tReq.mValid = true) (h : Sendable token name)
    (hrefuses : ¬Confirms pg command token name s.db) :
    ∃ s', perform command hash mOnlineContacts (token ++ str " " ++ name) (server pg draw tReq) s =
        .ok (false, mOnlineContacts, none, s') ∧ s'.db = s.db := by
  obtain ⟨text, s₁, hexchange, houtcome⟩ := exchange_change pg draw command s hvalid h
  rw [perform_eq, change, ask, if_neg (sent_ne_nil token name), hexchange, ok_bind]
  rcases houtcome with ⟨hconfirms, -, -⟩ | ⟨-, htext, hsame⟩
  · exact absurd hconfirms hrefuses
  · have hfilter : Option.filter (validResponse .r200) (some text) = none := by
      rw [Option.filter_some, htext]
      rfl
    dsimp only
    rw [hfilter, pure_eq_ok, ok_bind]
    exact ⟨s₁, rfl, hsame⟩

/-- The outcome of `ADD` and `REMOVE` at both sides, from tables whose sessions have tokens of
the generator. -/
theorem change_outcome (pg : Engine) (draw : Draw) (command : Command) (hash : QHashOrder)
    (mOnlineContacts : ContactMap) (hvalid : tReq.mValid = true) (h : Sendable token name)
    (hdb : Generates s.db) :
    ∃ ok newContacts job s', perform command hash mOnlineContacts (token ++ str " " ++ name)
        (server pg draw tReq) s = .ok (ok, newContacts, job, s') ∧
      (ok = true ↔ Confirms pg command token name s.db) ∧
      (ok = true → newContacts = Keyed.empty ∧ job = some dispContacts ∧
        s'.db = changed pg command token name s.db) ∧
      (ok = false → newContacts = mOnlineContacts ∧ job = none ∧ s'.db = s.db) := by
  by_cases hconfirms : Confirms pg command token name s.db
  · obtain ⟨s', hperform, hchanged⟩ :=
      change_confirmed pg draw command hash mOnlineContacts hvalid h hdb hconfirms
    exact ⟨true, Keyed.empty, _, s', hperform, iff_of_true rfl hconfirms,
      fun _ => ⟨rfl, rfl, hchanged⟩, nofun⟩
  · obtain ⟨s', hperform, hsame⟩ :=
      change_refused pg draw command hash mOnlineContacts hvalid h hconfirms
    exact ⟨false, mOnlineContacts, none, s', hperform, iff_of_false Bool.false_ne_true hconfirms,
      nofun, fun _ => ⟨rfl, rfl, hsame⟩⟩

section

variable {db : Tables} {owner contact : UserRow}

def contactsAfter (command : Command) (db : Database) (owner contact : UserRow) : List UserRow :=
  match command with
  | .add => contactRows db owner.id ++ [contact]
  | .remove => (contactRows db owner.id).filter fun row => row.id ≠ contact.id

structure Rows (pg : Engine) (token name : ByteString) (db : Tables) (owner contact : UserRow) :
    Prop where
  owner_mem : owner ∈ db.users
  contact_mem : contact ∈ db.users
  owner_name : owner.username = (searchUserByToken db.toDatabase token).mUsername
  contact_name : contact.username = (searchUserBy pg db.toDatabase name .username).mUsername

theorem id_of_known (h : WellFormed db) {user : User} (hknown : Known db.users user)
    (hfound : user.mEmpty = false) {row : UserRow} (hrow : row ∈ db.users)
    (hname : row.username = user.mUsername) : user.mId.toInt = row.id := by
  obtain ⟨other, hother, hid, hotherName⟩ := hknown hfound
  rw [toInt_eq_some hid,
    List.inj_on_of_nodup_map h.usernames hother hrow (hotherName.trans hname.symm)]

theorem filter_rows (users : List UserRow) (contacts : List ContactRow) (a b : ℤ) :
    ((contacts.filter fun c => ¬(c.userId = some a ∧ c.contactId = some b)).filter
        fun c => c.userId = some a).flatMap
          (fun c => users.filter fun u => c.contactId = some u.id) =
      ((contacts.filter fun c => c.userId = some a).flatMap
        fun c => users.filter fun u => c.contactId = some u.id).filter fun row => row.id ≠ b := by
  induction contacts with
  | nil => rfl
  | cons c contacts ih =>
    by_cases howned : c.userId = some a
    · have hrest : ((c :: contacts).filter fun c => c.userId = some a) =
          c :: contacts.filter fun c => c.userId = some a :=
        List.filter_cons_of_pos (decide_eq_true howned)
      rw [hrest, List.flatMap_cons, List.filter_append, ← ih]
      by_cases hpair : c.contactId = some b
      · have hgone : (users.filter fun u => c.contactId = some u.id).filter
            (fun row => row.id ≠ b) = [] := by
          rw [List.filter_filter, List.filter_eq_nil_iff]
          intro row hrow
          simp [hpair, eq_comm]
        rw [hgone, List.filter_cons_of_neg (by simp [howned, hpair]), List.nil_append]
      · have hkept : (users.filter fun u => c.contactId = some u.id).filter
            (fun row => row.id ≠ b) = users.filter fun u => c.contactId = some u.id := by
          rw [List.filter_eq_self]
          intro row hrow
          have hid := (List.mem_filter.mp hrow).2
          rw [decide_eq_true_eq] at hid ⊢
          rintro rfl
          exact hpair hid
        rw [hkept, List.filter_cons_of_pos (by simp [howned, hpair]),
          List.filter_cons_of_pos (by simpa using howned), List.flatMap_cons]
    · have hout : ((c :: contacts).filter fun c => c.userId = some a) =
          contacts.filter fun c => c.userId = some a :=
        List.filter_cons_of_neg (by simpa using howned)
      rw [hout, ← ih, List.filter_cons_of_pos (by simp [howned]),
        List.filter_cons_of_neg (by simpa using howned)]

theorem contactRows_changed (h : WellFormed db) (hrows : Rows pg token name db owner contact)
    (hconfirms : Confirms pg command token name db) :
    contactRows (changed pg command token name db).toDatabase owner.id =
      contactsAfter command db.toDatabase owner contact := by
  have howner := id_of_known h (known_searchUserByToken db.toDatabase token) hconfirms.2.1
    hrows.owner_mem hrows.owner_name
  have hcontact := id_of_known h (known_searchUserBy pg db.toDatabase name .username)
    hconfirms.2.2.1 hrows.contact_mem hrows.contact_name
  cases command with
  | add =>
    have hlink : contactRows (withContacts db.toDatabase (db.contacts ++ [link owner contact]))
        owner.id = contactRows db.toDatabase owner.id ++ [contact] :=
      contactRows_link h.ids hrows.contact_mem
    rw [changed, addUserContact, howner, hcontact]
    exact hlink
  | remove =>
    have hfilter := filter_rows db.users db.contacts owner.id contact.id
    rw [changed, removeUserContact, howner, hcontact]
    exact hfilter

theorem wellFormed_changed (h : WellFormed db) (hconfirms : Confirms pg command token name db) :
    WellFormed (changed pg command token name db) := by
  obtain ⟨-, hfound, hcfound, hadd⟩ := hconfirms
  cases command with
  | add =>
    exact h.addUserContact (known_searchUserByToken _ _) (known_searchUserBy pg _ _ _) hfound
      hcfound (hadd rfl).1 (hadd rfl).2
  | remove => exact h.removeUserContact _ _

theorem map_contactRows {users : List UserRow} (hids : (users.map UserRow.id).Nodup) {a : ℤ}
    {contacts : List ContactRow}
    (h : ∀ c ∈ contacts, ∃ b ∈ users.map UserRow.id, c = ⟨some a, some b⟩) :
    ((contacts.flatMap fun c => users.filter fun u => c.contactId = some u.id).map
      fun row => (⟨some a, some row.id⟩ : ContactRow)) = contacts := by
  induction contacts with
  | nil => rfl
  | cons c contacts ih =>
    obtain ⟨b, hb, rfl⟩ := h c List.mem_cons_self
    obtain ⟨row, hrow, rfl⟩ := List.mem_map.mp hb
    have hone : (users.filter fun u => some row.id = some u.id) = [row] := by
      rw [← Accounts.filter_id hids hrow]
      simp
    rw [List.flatMap_cons, hone, List.map_append,
      ih fun c hc => h c (List.mem_cons_of_mem _ hc)]
    rfl

theorem accepted_contactRows (h : WellFormed db)
    (hids : ∀ row ∈ db.users, 0 < row.id ∧ row.id < 2 ^ 31) (id : ℤ) :
    Accepted (contactRows db.toDatabase id) := by
  have hmem : ∀ row ∈ contactRows db.toDatabase id, row ∈ db.users := by
    intro row hrow
    obtain ⟨c, -, hfilter⟩ := List.mem_flatMap.mp hrow
    exact (List.mem_filter.mp hfilter).1
  have hpairs : ∀ c ∈ db.contacts.filter fun c => c.userId = some id,
      ∃ b ∈ db.users.map UserRow.id, c = ⟨some id, some b⟩ := by
    intro c hc
    obtain ⟨hstored, howned⟩ := List.mem_filter.mp hc
    obtain ⟨a, -, b, hb, rfl⟩ := h.contacts c hstored
    rw [decide_eq_true_eq, Option.some.injEq] at howned
    exact ⟨b, hb, by rw [howned]⟩
  have hnodup : db.contacts.Nodup := by
    rw [List.nodup_iff_count_le_one]
    intro c
    by_cases hc : c ∈ db.contacts
    · obtain ⟨a, -, b, -, rfl⟩ := h.contacts c hc
      exact h.clean.unique a b
    · rw [List.count_eq_zero_of_not_mem hc]
      exact Nat.zero_le 1
  have hmap := map_contactRows h.ids hpairs
  have hlisted : ((contactRows db.toDatabase id).map
      fun row => (⟨some id, some row.id⟩ : ContactRow)).Nodup :=
    (congrArg List.Nodup hmap).mpr (hnodup.filter _)
  constructor
  · exact fun row hrow => hids row (hmem row hrow)
  · intro row hrow
    obtain ⟨hname, hspace, -⟩ := h.accounts row (hmem row hrow)
    exact ⟨hname, hspace⟩
  · rw [show (fun row : UserRow => (⟨some id, some row.id⟩ : ContactRow)) =
      (fun b => ⟨some id, some b⟩) ∘ UserRow.id from rfl, ← List.map_map] at hlisted
    exact hlisted.of_map

end

section

variable {db : Database} {awaiting : AwaitingUsers} {owner : UserRow}

theorem list_reply (hash : QHashOrder) (mOnlineContacts : ContactMap)
    (h : Lists db awaiting tReq owner)
    (harrives : Carried (ContactList.reply (CallControllers.callAwaits awaiting)
      (listed (contactRows db owner.id)))) :
    ∃ reply text newContacts job, UserControllers.list db tReq awaiting = .ok reply ∧
      reply.mData = some (textData text) ∧ Carried text ∧
        updateContacts hash mOnlineContacts text = .ok (newContacts, job) ∧
          newContacts.entries = entries (CallControllers.callAwaits awaiting)
            (contactRows db owner.id) (pieces (contactRows db owner.id)) := by
  have hlist := listUserContacts_eq h.person h.username h.accepted.ids h.short
  have hfound : ¬(searchUserByToken db tReq.mToken).mEmpty = true := by
    rw [h.found]
    decide
  rw [UserControllers.list, if_neg hfound, hlist, ok_bind, ← map_details_listed]
  by_cases hnil : listed (contactRows db owner.id) = []
  · rw [hnil]
    exact ⟨_, _, Keyed.empty, _, rfl, rfl, Accounts.carried_getMessage .r301, rfl, rfl⟩
  · have hprint := printable_listed h.accepted
    obtain ⟨newContacts, job, hupdate, hentries⟩ := ContactList.updateContacts_reply hprint
      (mId_listed_ne_zero h.accepted) (nodup_mId_listed h.accepted) h.short.reply hash
      mOnlineContacts
    exact ⟨_, _, newContacts, job, ContactList.listContacts_eq hnil hprint _, rfl, harrives,
      hupdate, hentries⟩

end

theorem job_of_update {hash : QHashOrder} {oldContacts newContacts : ContactMap}
    {text : ByteString} {job : Option Job}
    (h : updateContacts hash oldContacts text = .ok (newContacts, job)) :
    job = changeJob hash oldContacts newContacts := by
  rw [updateContacts] at h
  obtain ⟨users, -, h⟩ := bind_eq_ok.mp h
  obtain ⟨read, -, h⟩ := bind_eq_ok.mp h
  obtain ⟨rfl, rfl⟩ := Prod.mk.inj (Except.ok.inj h)
  rfl

theorem changeJob_empty (hash : QHashOrder) (newContacts : ContactMap) :
    changeJob hash Keyed.empty newContacts = some dispContacts := by
  rw [changeJob, if_pos]
  cases hentries : newContacts.entries with
  | nil => exact Or.inr rfl
  | cons contact contacts => exact Or.inl (Nat.succ_ne_zero contacts.length).symm

theorem searchUserByToken_changed (pg : Engine) (command : Command) (token name : ByteString)
    (db : Tables) (tToken : ByteString) :
    searchUserByToken (changed pg command token name db).toDatabase tToken =
      searchUserByToken db.toDatabase tToken := by
  cases command with
  | add => rfl
  | remove => rfl

theorem users_changed (pg : Engine) (command : Command) (token name : ByteString) (db : Tables) :
    (changed pg command token name db).users = db.users := by
  cases command with
  | add => rfl
  | remove => rfl

theorem lists_changed {db : Tables} {owner contact : UserRow} {awaiting : AwaitingUsers}
    (h : WellFormed db) (hids : ∀ row ∈ db.users, 0 < row.id ∧ row.id < 2 ^ 31)
    (hrows : Rows pg token name db owner contact) (hconfirms : Confirms pg command token name db)
    (hshort : Short (CallControllers.callAwaits awaiting)
      (contactsAfter command db.toDatabase owner contact)) (htoken : tReq.mToken = token) :
    Lists (changed pg command token name db).toDatabase awaiting tReq owner := by
  have husers := users_changed pg command token name db
  have haccepted := accepted_contactRows (wellFormed_changed h hconfirms) (husers ▸ hids) owner.id
  have hafter := contactRows_changed h hrows hconfirms
  have htold := searchUserByToken_changed pg command token name db token
  refine ⟨⟨husers ▸ hrows.owner_mem, ?_⟩, ?_, ?_, haccepted, hafter ▸ hshort⟩
  · intro row hrow hname
    exact List.inj_on_of_nodup_map h.usernames (husers ▸ hrow) hrows.owner_mem hname
  · rw [htoken, htold]
    exact hconfirms.2.1
  · rw [htoken, htold]
    exact hrows.owner_name.symm

theorem list_listed (pg : Engine) (draw : Draw) (hash : QHashOrder)
    (mOnlineContacts : ContactMap) {owner : UserRow} (hvalid : tReq.mValid = true)
    (hsent : Carried (str "LIST " ++ token)) (hspace : space ∉ token)
    (h : Lists s.db.toDatabase s.awaiting { tReq with mToken := token } owner)
    (harrives : Carried (ContactList.reply (CallControllers.callAwaits s.awaiting)
      (listed (contactRows s.db.toDatabase owner.id)))) :
    ∃ newContacts s', Contacts.list hash mOnlineContacts token (server pg draw tReq) s =
        .ok (true, newContacts, changeJob hash mOnlineContacts newContacts, s') ∧
      newContacts.entries = entries (CallControllers.callAwaits s.awaiting)
        (contactRows s.db.toDatabase owner.id) (pieces (contactRows s.db.toDatabase owner.id)) := by
  have htext : hsent.message.text = ServerCommand.toString .list ++ space :: token := rfl
  obtain ⟨hname, hbody⟩ := WireFormat.command_body htext
  have hcut : Search.cutFirst [space] hsent.message.body = (token, []) := by
    rw [hbody, Search.cutFirst_of_notMem hspace]
  have hword : hsent.message.word = token := congrArg Prod.fst hcut
  have harguments : hsent.message.arguments = [] := congrArg Prod.snd hcut
  have hlogin : requireLogin hsent.message.command = true := by
    rw [hname]
    rfl
  let asks := { hsent.message.request tReq with mToken := token }
  have hlists : Lists s.db.toDatabase s.awaiting asks owner :=
    ⟨h.person, h.found, h.username, h.accepted, h.short⟩
  obtain ⟨reply, text, newContacts, job, hreply, hdata, hcarried, hupdate, hentries⟩ :=
    list_reply hash mOnlineContacts hlists harrives
  have hnonempty : ¬(searchUserByToken s.db.toDatabase token).mEmpty = true := by
    rw [h.found]
    decide
  obtain ⟨s', hcontrollers⟩ : ∃ s', controllers pg draw .list [] asks (asked s token) =
      .ok (reply, s') := by
    have hasked : UserControllers.list (asked s token).db.toDatabase asks
        (asked s token).awaiting = .ok reply := hreply
    rw [controllers, Router.list, hasked]
    exact ⟨_, rfl⟩
  have hvalidate : validateArgument .list [] = true := rfl
  have hroute := route_login pg draw s hvalid hlogin
  rw [hword, harguments, hname, if_neg hnonempty, if_pos hvalidate, hcontrollers] at hroute
  have hexchange := server_eq hsent hroute hdata hcarried
  rw [Contacts.list, hexchange, ok_bind]
  dsimp only
  rw [hupdate, ok_bind, job_of_update hupdate]
  exact ⟨newContacts, s', rfl, hentries⟩

/-- A command that was done empties the list, and the next `LIST` of the session shows the
contacts with the new one at the end, or without the one that was removed. -/
theorem listed_after_change (pg : Engine) (draw later : Draw) (command : Command)
    (hash : QHashOrder) (mOnlineContacts : ContactMap) {tLater : Request} {owner contact : UserRow}
    (hvalid : tReq.mValid = true) (hlater : tLater.mValid = true) (h : Sendable token name)
    (hdb : WellFormed s.db) (hgenerates : Generates s.db)
    (hids : ∀ row ∈ s.db.users, 0 < row.id ∧ row.id < 2 ^ 31)
    (hrows : Rows pg token name s.db owner contact)
    (hconfirms : Confirms pg command token name s.db) :
    let rows := contactsAfter command s.db.toDatabase owner contact
    ∃ s', perform command hash mOnlineContacts (token ++ str " " ++ name) (server pg draw tReq) s =
        .ok (true, Keyed.empty, some dispContacts, s') ∧
      ∀ t : Server, t.db = s'.db → Short (CallControllers.callAwaits t.awaiting) rows →
        Carried (ContactList.reply (CallControllers.callAwaits t.awaiting) (listed rows)) →
          ∃ newContacts t', Contacts.list hash Keyed.empty token (server pg later tLater) t =
              .ok (true, newContacts, some dispContacts, t') ∧
            newContacts.entries =
              entries (CallControllers.callAwaits t.awaiting) rows (pieces rows) := by
  intro rows
  obtain ⟨s', hperform, hchanged⟩ :=
    change_confirmed pg draw command hash mOnlineContacts hvalid h hgenerates hconfirms
  refine ⟨s', hperform, ?_⟩
  intro t ht hshort harrives
  have hlists : Lists t.db.toDatabase t.awaiting { tLater with mToken := token } owner := by
    rw [ht, hchanged]
    exact lists_changed hdb hids hrows hconfirms hshort rfl
  have hrowsAfter : contactRows t.db.toDatabase owner.id = rows := by
    rw [ht, hchanged]
    exact contactRows_changed hdb hrows hconfirms
  have hsent : Carried (str "LIST " ++ token) := by
    constructor
    · rw [List.mem_append, not_or]
      exact ⟨by decide, h.nul.1⟩
    · have hshort := h.short
      rw [List.length_append, show (str "LIST ").length = 5 from rfl]
      omega
  obtain ⟨listedContacts, t', hlist, hentries⟩ := list_listed pg later hash Keyed.empty hlater hsent
    h.space hlists (hrowsAfter ▸ harrives)
  rw [changeJob_empty] at hlist
  rw [hrowsAfter] at hentries
  exact ⟨listedContacts, t', hlist, hentries⟩

end

def johnToken : ByteString := TokenGenerator.generate UserControllers.mTokenLength id

def johnRow : UserRow := ⟨1, str "john", str "1234", true, some (str "10.0.0.1:4000")⟩

def marioRow : UserRow := ⟨2, str "mario", str "1234", false, none⟩

def strangers : Server :=
  { twoUsers with
    db := { twoUsers.db with
      users := [johnRow, marioRow]
      tokens := [⟨1, some johnToken⟩]
      contacts := []
      chats := Keyed.empty } }

theorem sendable_mario : Sendable johnToken (str "mario") :=
  ⟨by decide +kernel, by decide +kernel, by decide +kernel⟩

theorem generates_strangers : Generates strangers.db := by
  intro row hrow
  rw [List.mem_singleton.mp hrow]
  exact ⟨johnToken, rfl, token_generate id⟩

theorem change_outcome_mario :
    ∃ ok newContacts job s', perform .add insertionOrder Keyed.empty
        (johnToken ++ str " " ++ str "mario")
        (server Engine.basic sampleDraw Router.johnRequest) strangers =
          .ok (ok, newContacts, job, s') ∧
      (ok = true ↔ Confirms Engine.basic .add johnToken (str "mario") strangers.db) ∧
      (ok = true → newContacts = Keyed.empty ∧ job = some dispContacts ∧
        s'.db = changed Engine.basic .add johnToken (str "mario") strangers.db) ∧
      (ok = false → newContacts = Keyed.empty ∧ job = none ∧ s'.db = strangers.db) :=
  change_outcome Engine.basic sampleDraw .add insertionOrder Keyed.empty rfl sendable_mario
    generates_strangers

theorem wellFormed_strangers : WellFormed strangers.db where
  ids := by decide
  usernames := by decide
  accounts := by decide
  tokens := by decide
  contacts := by decide
  clean := ⟨fun _ _ => Nat.zero_le 1, fun _ => List.not_mem_nil⟩
  chats := fun row hrow => absurd hrow List.not_mem_nil

theorem confirms_mario : Confirms Engine.basic .add johnToken (str "mario") strangers.db :=
  ⟨by decide, by decide +kernel, by decide +kernel, fun _ => ⟨by decide +kernel, by decide +kernel⟩⟩

theorem rows_mario :
    Rows Engine.basic johnToken (str "mario") strangers.db johnRow marioRow :=
  ⟨List.mem_cons_self, by simp [strangers], by decide +kernel, by decide +kernel⟩

theorem pieces_marioRow : pieces [marioRow] = [str "mario"] := by
  have hmario : comma ∉ marioRow.username := by decide
  rw [pieces, List.flatMap_singleton, Search.splitOn_of_notMem hmario]
  rfl

theorem listed_marioRow : listed [marioRow] = [listedUser marioRow (str "mario")] := by
  rw [listed, pieces_marioRow]
  rfl

theorem short_marioRow : Short (CallControllers.callAwaits AwaitingUsers.empty) [marioRow] :=
  short_of_listed listed_marioRow (by decide) (by decide) (by decide) (by decide)

theorem listed_after_change_mario :
    ∃ s' newContacts t', perform .add insertionOrder Keyed.empty
        (johnToken ++ str " " ++ str "mario")
        (server Engine.basic sampleDraw Router.johnRequest) strangers =
          .ok (true, Keyed.empty, some dispContacts, s') ∧
      Contacts.list insertionOrder Keyed.empty johnToken
          (server Engine.basic sampleDraw Router.johnRequest) { strangers with db := s'.db } =
        .ok (true, newContacts, some dispContacts, t') ∧
      newContacts.entries = [⟨str "mario", 2, false, false⟩] := by
  have hvalid : Router.johnRequest.mValid = true := rfl
  obtain ⟨s', hperform, hlist⟩ := listed_after_change Engine.basic sampleDraw sampleDraw .add
    insertionOrder Keyed.empty hvalid hvalid sendable_mario wellFormed_strangers
    generates_strangers (by decide) rows_mario confirms_mario
  have hcarried : Carried (ContactList.reply (CallControllers.callAwaits AwaitingUsers.empty)
      (listed [marioRow])) := by
    rw [listed_marioRow]
    decide
  obtain ⟨newContacts, t', hlisted, hentries⟩ :=
    hlist { strangers with db := s'.db } rfl short_marioRow hcarried
  have hentry : entries (CallControllers.callAwaits AwaitingUsers.empty) [marioRow]
      (pieces [marioRow]) = [⟨str "mario", 2, false, false⟩] := by
    rw [pieces_marioRow]
    decide
  exact ⟨s', newContacts, t', hperform, hlisted, hentries.trans hentry⟩

end ContactRequests

end Skype
