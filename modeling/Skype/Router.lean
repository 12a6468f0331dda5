import Skype.ChatControllers
import Skype.ServerCommand
import Skype.TextIO
import Skype.UDPConn
import Skype.UserControllers

/-!
# `Router`

A request is parsed, its token looked up and its argument checked before its controller
runs. The controllers of calls and of `LIST` look the user up once themselves.
-/

namespace Skype.Router

open ControllerUtils Postgres

def requireLogin (tCmd : ServerCommand.Name) : Bool :=
  tCmd ≠ .login && tCmd ≠ .create && tCmd ≠ .exit

def parse (tReq : Request) : Exec (ServerCommand.Name × ByteString × ByteString) := do
  let tData ← tReq.data
  let (command, body) ← StringUtils.splitFirst tData.bytes (str " ")
  let cmd := ServerCommand.get command
  if requireLogin cmd then
    let (token, arguments) ← StringUtils.splitFirst body (str " ")
    return (cmd, token, arguments)
  else if cmd = .exit then return (cmd, body, [])
  else return (cmd, [], body)

def validateArgument (tCmd : ServerCommand.Name) (tArg : ByteString) : Bool :=
  if ServerCommand.hasZeroOrMoreArguments tCmd then true
  else if ServerCommand.hasArgument tCmd then !tArg.isEmpty
  else true

def isLoggedin (tCmd : ServerCommand.Name) (tToken : ByteString) (tReq : Request) (s : Server) :
    Bool × Request × Server :=
  if requireLogin tCmd then UserControllers.isValidToken tToken tReq s else (true, tReq, s)

def invalidCommand (tReq : Request) : Request := setRequestReply .r501 tReq

def onCalls (tReq : Request) (s : Server) (result : Exec (Request × AwaitingUsers)) :
    Exec (Request × Server) := do
  let (req, awaiting) ← result
  return (req, { (s.searchUserByToken tReq.mToken).2 with awaiting })

def list (tReq : Request) (s : Server) : Exec (Request × Server) := do
  let req ← UserControllers.list s.db.toDatabase tReq s.awaiting
  let (user, s) := s.searchUserByToken tReq.mToken
  return (req, if user.mEmpty then s else (s.listUserContacts user).2)

def controllers (pg : Engine) (draw : Draw) (tCmd : ServerCommand.Name) (tArg : ByteString)
    (tReq : Request) (s : Server) : Exec (Request × Server) :=
  match tCmd with
  | .list => list tReq s
  | .create => UserControllers.create pg draw tArg tReq s
  | .login => UserControllers.login pg draw tArg tReq s
  | .search => UserControllers.search pg tArg tReq s
  | .add => .ok (UserControllers.add pg draw tArg tReq s)
  | .remove => .ok (UserControllers.remove pg tArg tReq s)
  | .available => UserControllers.available pg tArg tReq s
  | .exit => UserControllers.exit pg tReq s
  | .send => ChatControllers.send pg draw tArg tReq s
  | .pending => ChatControllers.pending pg tArg tReq s
  | .chat => ChatControllers.chat pg tArg tReq s
  | .delivered => ChatControllers.delivered pg tArg tReq s
  | .connect => onCalls tReq s (CallControllers.connect s.db.toDatabase tArg tReq s.awaiting)
  | .accept => onCalls tReq s (CallControllers.accept s.db.toDatabase tArg tReq s.awaiting)
  | .hangup => onCalls tReq s (.ok (CallControllers.hangup s.db.toDatabase tReq s.awaiting))
  | .reject => onCalls tReq s (CallControllers.reject s.db.toDatabase tArg tReq s.awaiting)
  | .ping => onCalls tReq s (.ok (CallControllers.ping s.db.toDatabase tReq s.awaiting))
  | .none => .ok (UserControllers.none tReq, s)

def routeParsed (pg : Engine) (draw : Draw) (command : ServerCommand.Name)
    (token arguments : ByteString) (tReq : Request) (s : Server) : Exec (Request × Server) :=
  match isLoggedin command token tReq s with
  | (false, tReq, s) => .ok (tReq, s)
  | (true, tReq, s) =>
    if validateArgument command arguments then
      controllers pg draw command arguments { tReq with mToken := token } s
    else .ok (invalidCommand tReq, s)

def route (pg : Engine) (draw : Draw) (tReq : Request) (s : Server) : Exec (Request × Server) :=
  if tReq.mValid = false then .ok (invalidCommand tReq, s)
  else do
    let (command, token, arguments) ← parse tReq
    routeParsed pg draw command token arguments tReq s

/-- A text as the two text strategies deliver it. -/
structure Message where
  text : ByteString
  short : text.length < 2 ^ 31

namespace Message

open Library

def request (raw : Message) (tReq : Request) : Request := tReq.setData (textData raw.text)

def body (raw : Message) : ByteString := (Search.cutFirst [space] raw.text).2

def command (raw : Message) : ServerCommand.Name :=
  ServerCommand.get (Search.cutFirst [space] raw.text).1

def word (raw : Message) : ByteString := (Search.cutFirst [space] raw.body).1

def arguments (raw : Message) : ByteString := (Search.cutFirst [space] raw.body).2

theorem length_body_le (raw : Message) : raw.body.length ≤ raw.text.length :=
  Search.length_cutFirst_snd_le [space] raw.text

end Message

theorem splitFirst_space {text : ByteString} (h : text.length < 2 ^ 31) :
    StringUtils.splitFirst text (str " ") = .ok (Library.Search.cutFirst [space] text) :=
  StringUtils.splitFirst_eq h

theorem parse_request (raw : Message) (tReq : Request) :
    parse (raw.request tReq) =
      .ok (if requireLogin raw.command then (raw.command, raw.word, raw.arguments)
        else if raw.command = .exit then (raw.command, raw.body, [])
        else (raw.command, [], raw.body)) := by
  have hdata : (raw.request tReq).data = .ok (textData raw.text) := rfl
  have hbody : raw.body.length < 2 ^ 31 := raw.length_body_le.trans_lt raw.short
  have hword := splitFirst_space hbody
  have hcommand : ServerCommand.get (Library.Search.cutFirst [space] raw.text).1 = raw.command :=
    rfl
  rw [parse, hdata, ok_bind, textData, splitFirst_space raw.short, ok_bind]
  dsimp only
  rw [hcommand]
  by_cases hlogin : requireLogin raw.command = true
  · rw [if_pos hlogin, if_pos hlogin]
    rw [Message.body] at hword
    rw [hword]
    rfl
  · rw [if_neg hlogin, if_neg hlogin]
    by_cases hexit : raw.command = .exit
    · rw [if_pos hexit, if_pos hexit]
      rfl
    · rw [if_neg hexit, if_neg hexit]
      rfl

theorem message_of_receive {tReq req : Request} {pieces rest : List ByteString}
    (h : TextIO.receive tReq pieces = .ok (true, req, rest)) :
    ∃ raw : Message, req = raw.request tReq := by
  unfold TextIO.receive at h
  generalize TextIO.readHeader pieces = header at h
  obtain ⟨msgLength, left⟩ := header
  dsimp only at h
  split at h
  · cases h
  · next hpos =>
    split at h
    · cases h
    · obtain ⟨-, hreq⟩ := Prod.mk.inj (Except.ok.inj h)
      obtain ⟨rfl, -⟩ := Prod.mk.inj hreq
      have hle : (cStr ( TextIO.recvWaitall (intToSize msgLength) left).1).length ≤
          intToSize msgLength := by
        refine (List.takeWhile_sublist _).length_le.trans ?_
        exact List.length_take_le _ _
      have hsize : intToSize msgLength < 2 ^ 31 := by
        have hlt := msgLength.toInt_lt
        have hneg : ¬msgLength.toInt < 0 := by
          rwa [Int32.lt_iff_toInt_lt] at hpos
        rw [intToSize]
        omega
      exact ⟨⟨_, hle.trans_lt hsize⟩, rfl⟩

theorem message_of_datagram {net : Inet} {tReq req : Request} {arrivals rest : List Arrival}
    (h : UDPTextIO.receive net tReq arrivals = .ok (true, req, rest)) :
    ∃ (raw : Message) (sender : Request), req = raw.request sender := by
  unfold UDPTextIO.receive at h
  split at h
  · cases h
  · cases h
  · next source payload arrivals =>
    obtain ⟨-, hreq⟩ := Prod.mk.inj (Except.ok.inj h)
    obtain ⟨rfl, -⟩ := Prod.mk.inj hreq
    have hlt : (UDPConn.textOf payload).length < 2 ^ 31 :=
      (UDPConn.length_textOf_le payload).trans_lt (by decide)
    exact ⟨⟨_, hlt⟩, _, rfl⟩

end Skype.Router
