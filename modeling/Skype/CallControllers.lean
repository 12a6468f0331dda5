import Skype.Postgres
import Skype.Reply
import Skype.Socket
import Skype.UserAwaiting

/-!
# `CallControllers`

Each controller takes the database it queries, its argument, the request and the
store of call requests, and returns the request with its reply and the store. An
exception that a controller catches keeps the changes made to the store before it.
-/

namespace Skype

namespace ControllerUtils

def setRequestReply (tReply : Reply.Code) (tReq : Request) : Request :=
  tReq.setData (textData (Reply.getMessage tReply))

def setRequestReplyMsg (tReply : Reply.Code) (tMsg : ByteString) (tReq : Request) :
    Exec Request := do
  let reply ← Reply.appendMessage tReply tMsg
  return tReq.setData (textData reply)

end ControllerUtils

namespace CallControllers

open ControllerUtils Postgres

structure Valid where
  valid : Bool
  contactId : Int32
  localAddress : ByteString

def validateUserAndArgument (tArg : ByteString) (tReq : Request) (tUser : User) :
    Exec (Request × Valid) :=
  if tUser.mEmpty then .ok (setRequestReply .r301 tReq, ⟨false, -1, []⟩)
  else do
    let (idStr, privateAddress) ← StringUtils.splitFirst tArg (str " ")
    let (valid, contactId) := StringUtils.toInt idStr
    if valid then return (tReq, ⟨true, contactId, privateAddress⟩)
    else return (setRequestReply .r500 tReq, ⟨false, -1, []⟩)

def validateLocalAddress (tLocalAddress : ByteString) (tReq : Request) : Request × Bool :=
  if tLocalAddress = [] then (setRequestReply .r501 tReq, false) else (tReq, true)

def connect (db : Database) (tArg : ByteString) (tReq : Request) (awaiting : AwaitingUsers) :
    Exec (Request × AwaitingUsers) := do
  let user := searchUserByToken db tReq.mToken
  let (tReq, arg) ← validateUserAndArgument tArg tReq user
  if arg.valid then
    let (tReq, valid) := validateLocalAddress arg.localAddress tReq
    if valid then
      let tAwaitingUser ← AwaitingUser.newLocal ⟨user.mId, arg.contactId⟩ tReq.mAddress
        arg.localAddress
      let (inserted, awaiting) := awaiting.insert tAwaitingUser
      return (setRequestReply (if inserted then .r200 else .r306) tReq, awaiting)
    else return (tReq, awaiting)
  else return (tReq, awaiting)

/-- The text of a 201 reply: the address, and `LOCAL` or `WEB` so that the client
knows its type. -/
def addressReply (address : Exec ByteString) (user : AwaitingUser) : Exec ByteString := do
  return (← address) ++ str " " ++ (← user.addressType)

/-- The body of the `try` in `accept`, with the store at its end. Only the setters
change the request, and each takes effect when it returns. -/
def acceptUser (tReq : Request) (localAddress : ByteString) (awaiting : AwaitingUsers)
    (user : AwaitingUser) : Exec (Request × AwaitingUsers) :=
  let user := user.setPeerAddress tReq.mAddress
  match user.setPeerLocalAddress localAddress with
  -- The peer address is set already when the local one throws.
  | .error _ => .ok (setRequestReply .r307 tReq, awaiting.put user)
  | .ok user =>
    match addressReply user.address user >>= fun response =>
      setRequestReplyMsg .r201 response tReq with
    | .error _ => .ok (setRequestReply .r307 tReq, awaiting.put user)
    | .ok tReq => .ok (tReq, awaiting.put user)

def accept (db : Database) (tArg : ByteString) (tReq : Request) (awaiting : AwaitingUsers) :
    Exec (Request × AwaitingUsers) := do
  let user := searchUserByToken db tReq.mToken
  let (tReq, arg) ← validateUserAndArgument tArg tReq user
  if arg.valid then
    let (tReq, valid) := validateLocalAddress arg.localAddress tReq
    if valid then
      match awaiting.get arg.contactId with
      | .error _ => return (setRequestReply .r307 tReq, awaiting)
      | .ok awaitUser => acceptUser tReq arg.localAddress awaiting awaitUser
    else return (tReq, awaiting)
  else return (tReq, awaiting)

def destroyReply (tReq : Request) (awaiting : AwaitingUsers) (tId : Int32) :
    Request × AwaitingUsers :=
  let (destroyed, awaiting) := awaiting.destroy tId
  (setRequestReply (if destroyed then .r200 else .r307) tReq, awaiting)

def hangup (db : Database) (tReq : Request) (awaiting : AwaitingUsers) :
    Request × AwaitingUsers :=
  let user := searchUserByToken db tReq.mToken
  if user.mEmpty then (setRequestReply .r301 tReq, awaiting)
  else destroyReply tReq awaiting user.mId

def reject (db : Database) (tArg : ByteString) (tReq : Request) (awaiting : AwaitingUsers) :
    Exec (Request × AwaitingUsers) := do
  let user := searchUserByToken db tReq.mToken
  let (tReq, arg) ← validateUserAndArgument tArg tReq user
  if arg.valid then return destroyReply tReq awaiting arg.contactId
  else return (tReq, awaiting)

def pingUser (tReq : Request) (awaiting : AwaitingUsers) (awaitUser : AwaitingUser) :
    Exec (Request × AwaitingUsers) := do
  let peerAddress ← awaitUser.peerAddress
  if peerAddress = [] then return (setRequestReply .r203 tReq, awaiting)
  else
    let response ← addressReply awaitUser.peerAddress awaitUser
    let tReq ← setRequestReplyMsg .r201 response tReq
    return (tReq, (awaiting.destroy awaitUser.mId).2)

def ping (db : Database) (tReq : Request) (awaiting : AwaitingUsers) :
    Request × AwaitingUsers :=
  let user := searchUserByToken db tReq.mToken
  if user.mEmpty then (setRequestReply .r301 tReq, awaiting)
  else
    match awaiting.get user.mId with
    | .error _ => (setRequestReply .r307 tReq, awaiting)
    | .ok awaitUser =>
      let awaiting := awaiting.ping awaitUser.mId
      match pingUser tReq awaiting awaitUser with
      | .error _ => (setRequestReply .r307 tReq, awaiting)
      | .ok result => result

def callAwaits (awaiting : AwaitingUsers) (tUserId : Int32) : Bool := awaiting.exists' tUserId

end CallControllers

end Skype
