import Skype.CallControllers
import Skype.ServerTables

/-!
# `UserControllers`

`list` and the reply it builds: one line for each contact, closed by whether the
contact is waiting for a call to be accepted. The other controllers take the state of
the server and return it with what they wrote.
-/

namespace Skype.UserControllers

open ControllerUtils Postgres

def contactDelim : ByteString := str " "

def contactLine (callAwaits : Int32 → Bool) (contact : User) : ByteString :=
  contact.toString ++
    ((if callAwaits contact.mId then str ",awaiting:true" else str ",awaiting:false") ++
      contactDelim)

def contactLines (callAwaits : Int32 → Bool) (tContacts : List User) : ByteString :=
  tContacts.flatMap (contactLine callAwaits)

def listContacts (callAwaits : Int32 → Bool) (tContacts : List User) (tReq : Request) :
    Exec Request :=
  if 0 < tContacts.length then
    setRequestReplyMsg .r201 (contactLines callAwaits tContacts).dropLast tReq
  else .ok (setRequestReply .r301 tReq)

def list (db : Database) (tReq : Request) (awaiting : AwaitingUsers) : Exec Request :=
  let user := searchUserByToken db tReq.mToken
  if user.mEmpty then .ok (setRequestReply .r301 tReq)
  else do
    let contacts ← listUserContacts db user
    listContacts (CallControllers.callAwaits awaiting) contacts tReq

def create (pg : Engine) (draw : Draw) (tArg : ByteString) (tReq : Request) (s : Server) :
    Exec (Request × Server) := do
  let (username, password) ← StringUtils.splitFirst tArg (str " ")
  if username = [] ∨ password = [] then return (setRequestReply .r501 tReq, s)
  else
    let (added, s) := s.addUser pg draw ⟨0, username, password, false, tReq.mAddress, false⟩
    return (setRequestReply (if added then .r200 else .r300) tReq, s)

def loginUser (pg : Engine) (draw : Draw) (tUser : User) (tReq : Request) (s : Server) :
    Exec (Request × Server) :=
  let tUser := { tUser with mOnline := true, mAddress := tReq.mAddress }
  let (tokenRes, s) := s.addUserToken pg tUser.mId draw.token
  let (userRes, s) := s.updateUser pg tUser
  if tokenRes && userRes then do
    let tReq ← setRequestReplyMsg .r201 draw.token tReq
    return (tReq, s)
  else .ok (setRequestReply .r500 tReq, s)

def login (pg : Engine) (draw : Draw) (tArg : ByteString) (tReq : Request) (s : Server) :
    Exec (Request × Server) := do
  let (username, password) ← StringUtils.splitFirst tArg (str " ")
  if username = [] ∨ password = [] then return (setRequestReply .r501 tReq, s)
  else
    let (user, s) := s.searchUserBy pg username .username
    if user.mEmpty = false ∧ user.mPassword = password then loginUser pg draw user tReq s
    else return (setRequestReply .r300 tReq, s)

def exitUser (pg : Engine) (tReq : Request) (s : Server) : User × Server :=
  let (user, s) := s.searchUserByToken tReq.mToken
  if user.mEmpty then s.searchUserBy pg tReq.mAddress .address else (user, s)

def exit (pg : Engine) (tReq : Request) (s : Server) : Exec (Request × Server) :=
  let (user, s) := exitUser pg tReq s
  let s := if user.mEmpty then s else (s.logoff user.mId).removeUserToken user.mId
  do
    let tReq ← setRequestReplyMsg .r201 (str "Goodbye") { tReq with mExit := true }
    return (tReq, s)

def none (tReq : Request) : Request := setRequestReply .r501 tReq

def isValidToken (tToken : ByteString) (tReq : Request) (s : Server) : Bool × Request × Server :=
  let (user, s) := s.searchUserByToken tToken
  if user.mEmpty then (false, setRequestReply .r202 tReq, s) else (true, tReq, s)

def search (pg : Engine) (tUsername : ByteString) (tReq : Request) (s : Server) :
    Exec (Request × Server) :=
  let (user, s) := s.searchUserBy pg tUsername .username
  if user.mEmpty = false then do
    let tReq ← setRequestReplyMsg .r201 { user with mPassword := [] }.toString tReq
    return (tReq, s)
  else .ok (setRequestReply .r301 tReq, s)

def available (pg : Engine) (tUsername : ByteString) (tReq : Request) (s : Server) :
    Exec (Request × Server) :=
  let (user, s) := s.searchUserBy pg tUsername .username
  if user.mEmpty then .ok (setRequestReply .r301 tReq, s)
  else if user.mOnline = false then .ok (setRequestReply .r300 tReq, s)
  else do
    let tReq ← setRequestReplyMsg .r201 user.toString tReq
    return (tReq, s)

def idOf (draw : Draw) (user : User) : Int32 := if user.mEmpty then draw.emptyId else user.mId

def add (pg : Engine) (draw : Draw) (tContactUsername : ByteString) (tReq : Request)
    (s : Server) : Request × Server :=
  let (user, s) := s.searchUserByToken tReq.mToken
  let (contact, s) := s.searchUserBy pg tContactUsername .username
  if user.mUsername = contact.mUsername then (setRequestReply .r300 tReq, s)
  else
    let (found, s) := s.userContactExists (idOf draw user) (idOf draw contact)
    if found then (setRequestReply .r302 tReq, s)
    else if user.mEmpty = false ∧ contact.mEmpty = false then
      (setRequestReply .r200 tReq, s.addUserContact user.mId contact.mId)
    else (setRequestReply .r301 tReq, s)

def remove (pg : Engine) (tContactUsername : ByteString) (tReq : Request) (s : Server) :
    Request × Server :=
  let (user, s) := s.searchUserByToken tReq.mToken
  let (contact, s) := s.searchUserBy pg tContactUsername .username
  if user.mEmpty = false ∧ contact.mEmpty = false then
    (setRequestReply .r200 tReq, s.removeUserContact user.mId contact.mId)
  else (setRequestReply .r301 tReq, s)

section

variable {a b : Int32 → Bool} {tContacts : List User}

theorem contactLines_inj (h : contactLines a tContacts = contactLines b tContacts) :
    ∀ contact ∈ tContacts, a contact.mId = b contact.mId := by
  induction tContacts with
  | nil => simp
  | cons contact tContacts ih =>
    simp only [contactLines, List.flatMap_cons, contactLine, List.append_assoc] at h
    have htail := List.append_cancel_left h
    have hflag : a contact.mId = b contact.mId := by
      cases ha : a contact.mId <;> cases hb : b contact.mId <;> simp_all [str]
    rw [hflag] at htail
    have hrest : contactLines a tContacts = contactLines b tContacts :=
      List.append_cancel_left (List.append_cancel_left htail)
    intro other hother
    rcases List.mem_cons.mp hother with rfl | hother
    · exact hflag
    · exact ih hrest other hother

theorem contactLines_congr (h : ∀ contact ∈ tContacts, a contact.mId = b contact.mId) :
    contactLines a tContacts = contactLines b tContacts := by
  rw [contactLines, contactLines, List.flatMap_congr]
  intro contact hcontact
  rw [contactLine, contactLine, h contact hcontact]

theorem contactLines_eq_append (a : Int32 → Bool) (h : tContacts ≠ []) :
    ∃ text, contactLines a tContacts = text ++ contactDelim := by
  obtain ⟨front, last, rfl⟩ : ∃ front last, tContacts = front ++ [last] :=
    ⟨_, _, (List.dropLast_concat_getLast h).symm⟩
  refine ⟨contactLines a front ++ (last.toString ++
    if a last.mId then str ",awaiting:true" else str ",awaiting:false"), ?_⟩
  simp only [contactLines, contactLine, List.flatMap_append, List.flatMap_cons, List.flatMap_nil,
    List.append_nil, List.append_assoc]

theorem listContacts_eq_iff (a b : Int32 → Bool) (tContacts : List User) (tReq : Request) :
    listContacts a tContacts tReq = listContacts b tContacts tReq ↔
      ∀ contact ∈ tContacts, a contact.mId = b contact.mId := by
  constructor
  · intro h
    by_cases hnil : tContacts = []
    · simp [hnil]
    · obtain ⟨ta, hta⟩ := contactLines_eq_append a hnil
      obtain ⟨tb, htb⟩ := contactLines_eq_append b hnil
      have hdrop : ∀ text : ByteString, (text ++ contactDelim).dropLast = text := fun text =>
        List.dropLast_concat
      simp only [listContacts, if_pos (List.length_pos_of_ne_nil hnil), setRequestReplyMsg,
        Reply.appendMessage_r201, ok_bind, pure_eq_ok, hta, htb, hdrop] at h
      have htext : ta = tb := by simpa [Request.setData, textData] using h
      apply contactLines_inj
      rw [hta, htb, htext]
  · intro h
    rw [listContacts, listContacts, contactLines_congr h]

end

end Skype.UserControllers
