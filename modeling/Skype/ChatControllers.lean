import Skype.CallControllers
import Skype.ChatCodec
import Skype.ServerTables

/-!
# `ChatControllers`

Sending chats, listing them and setting them to delivered.
-/

namespace Skype.ChatControllers

open ControllerUtils Postgres

/-- An empty message is answered at once, but sent all the same. -/
def send (pg : Engine) (draw : Draw) (tArg : ByteString) (tReq : Request) (s : Server) :
    Exec (Request × Server) := do
  let (recipientId, message) ← StringUtils.splitFirst tArg (str " ")
  let tReq := if message = [] then setRequestReply .r502 tReq else tReq
  let (sender, s) := s.searchUserByToken tReq.mToken
  let (recipient, s) := s.searchUserBy pg recipientId .id
  if sender.mEmpty = false ∧ recipient.mEmpty = false then
    let userChat : UserChat := ⟨0, [], sender.mId, recipient.mId, message, false, false⟩
    return (setRequestReply .r200 tReq, s.addUserChat pg draw userChat)
  else return (setRequestReply .r303 tReq, s)

def replyChats (chats : List UserChat) (tReq : Request) (s : Server) : Exec (Request × Server) := do
  let tReq ← setRequestReplyMsg .r201 (buildResponse chats) tReq
  return (tReq, s)

def getChats (pg : Engine) (tArg : ByteString) (tReq : Request) (tPending : Bool) (s : Server) :
    Exec (Request × Server) :=
  let (user, s) := s.searchUserByToken tReq.mToken
  if user.mEmpty then .ok (setRequestReply .r301 tReq, s)
  else if tArg = [] then
    let (chats, s) := s.listUserChats pg user.mId tPending none
    replyChats chats tReq s
  else
    let (chatsWith, s) := s.searchUserBy pg tArg .id
    if chatsWith.mEmpty then .ok (setRequestReply .r304 tReq, s)
    else
      let (chats, s) := s.listUserChats pg user.mId tPending (some chatsWith.mId)
      replyChats chats tReq s

def pending (pg : Engine) (tArg : ByteString) (tReq : Request) (s : Server) :
    Exec (Request × Server) :=
  getChats pg tArg tReq true s

def chat (pg : Engine) (tArg : ByteString) (tReq : Request) (s : Server) :
    Exec (Request × Server) :=
  getChats pg tArg tReq false s

def findChats (pg : Engine) (s : Server) :
    List ByteString → Except ByteString (List UserChat) × Server
  | [] => (.ok [], s)
  | id :: ids =>
    let (uc, s) := s.searchUserChatBy pg id
    if uc.mEmpty then (.error id, s)
    else
      let (found, s) := findChats pg s ids
      (found.map fun userChats => uc :: userChats, s)

def setAllDelivered (s : Server) (userChats : List UserChat) : Server :=
  userChats.foldl
    (fun s chat => if chat.mDelivered then s else s.setUserChatToDelivered chat.mId) s

def delivered (pg : Engine) (tArg : ByteString) (tReq : Request) (s : Server) :
    Exec (Request × Server) :=
  if tArg = [] then .ok (setRequestReply .r502 tReq, s)
  else do
    let ids ← StringUtils.split tArg (str ",")
    match findChats pg s ids with
    | (.error id, s) => do
      let tReq ← setRequestReplyMsg .r305 id tReq
      return (tReq, s)
    | (.ok userChats, s) => return (setRequestReply .r200 tReq, setAllDelivered s userChats)

def chatsReply (pg : Engine) (tArg : ByteString) (tReq : Request) (tPending : Bool)
    (db : Tables) : Request :=
  let user := searchUserByToken db.toDatabase tReq.mToken
  let answer := fun chats => tReq.setData (textData (str "201 " ++ buildResponse chats))
  if user.mEmpty then setRequestReply .r301 tReq
  else if tArg = [] then answer (listUserChats pg db user.mId tPending none)
  else
    let chatsWith := searchUserBy pg db.toDatabase tArg .id
    if chatsWith.mEmpty then setRequestReply .r304 tReq
    else answer (listUserChats pg db user.mId tPending (some chatsWith.mId))

theorem replyChats_eq (chats : List UserChat) (tReq : Request) (s : Server) :
    replyChats chats tReq s =
      .ok (tReq.setData (textData (str "201 " ++ buildResponse chats)), s) := by
  rw [replyChats, setRequestReplyMsg, Reply.appendMessage_r201]
  rfl

theorem getChats_reply (pg : Engine) (tArg : ByteString) (tReq : Request) (tPending : Bool)
    (s : Server) :
    (getChats pg tArg tReq tPending s).map Prod.fst =
      .ok (chatsReply pg tArg tReq tPending s.db) := by
  unfold getChats chatsReply
  have htoken : s.searchUserByToken tReq.mToken =
      (searchUserByToken s.db.toDatabase tReq.mToken,
        s.send .searchUserByToken (searchTokenText tReq.mToken)) := rfl
  rw [htoken]
  dsimp only
  split
  · rfl
  · split
    · exact congrArg (Except.map Prod.fst) (replyChats_eq _ tReq _)
    · have hsearch : (s.send .searchUserByToken (searchTokenText tReq.mToken)).searchUserBy pg tArg
          .id = (searchUserBy pg s.db.toDatabase tArg .id,
            (s.send .searchUserByToken (searchTokenText tReq.mToken)).send (.searchUserBy .id)
              (searchUserText tArg .id)) := rfl
      rw [hsearch]
      dsimp only
      split
      · rfl
      · exact congrArg (Except.map Prod.fst) (replyChats_eq _ tReq _)

end Skype.ChatControllers
