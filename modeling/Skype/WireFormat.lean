import Skype.PeerToPeer
import Skype.Router

/-!
# What the client writes and the server reads

A command of the client is its word, the token and an argument with single spaces in
between. `Router::parse` cuts the text at its first and at its second space, and the
controllers cut the argument once more; so the token and the first part of an argument
must not contain a space, and the rest of the text comes through unchanged.
-/

namespace Skype.WireFormat

open Library Router

/-- `client_exit`, the requests of `Accounts`, `Contacts` and `Chat`, and the two ways
in which `P2P` hands a command to `send_server`. -/
inductive ClientRequest
  | registerUser (username password : ByteString)
  | login (username password : ByteString)
  | setId (token username : ByteString)
  | clientExit (token : ByteString)
  | list (token : ByteString)
  | search (token user : ByteString)
  | addUser (token user : ByteString)
  | removeUser (token user : ByteString)
  | available (token user : ByteString)
  | getPending (token argument : ByteString)
  | getAll (token argument : ByteString)
  | send (token argument : ByteString)
  | deliver (token argument : ByteString)
  | sendServer (p : P2P) (tCmd : ServerCommand.Name) (tArg : ByteString)
  | sendServerBare (p : P2P) (tCmd : ServerCommand.Name)

def requestData (token argument : ByteString) : ByteString := token ++ str " " ++ argument

def ClientRequest.text : ClientRequest → ByteString
  | .registerUser username password => str "CREATE " ++ username ++ str " " ++ password
  | .login username password => str "LOGIN " ++ username ++ str " " ++ password
  | .setId token username => str "SEARCH " ++ token ++ str " " ++ username
  | .clientExit token => str "EXIT" ++ (str " " ++ token)
  | .list token => str "LIST " ++ token
  | .search token user => str "SEARCH " ++ requestData token user
  | .addUser token user => str "ADD " ++ requestData token user
  | .removeUser token user => str "REMOVE " ++ requestData token user
  | .available token user => str "AVAILABLE " ++ requestData token user
  | .getPending token argument => str "PENDING " ++ requestData token argument
  | .getAll token argument => str "CHAT " ++ requestData token argument
  | .send token argument => str "SEND " ++ requestData token argument
  | .deliver token argument => str "DELIVERED " ++ requestData token argument
  | .sendServer p tCmd tArg => p.commandText tCmd tArg
  | .sendServerBare p tCmd => p.bareCommandText tCmd

inductive Formats : ByteString → ServerCommand.Name → ByteString → ByteString → Prop
  | argument {cmd : ServerCommand.Name} {token : ByteString} (a : ByteString)
      (hlisted : cmd ≠ .none) (hlogin : requireLogin cmd = true) (hspace : space ∉ token) :
      Formats (ServerCommand.toString cmd ++ space :: (token ++ space :: a)) cmd token a
  | bare {cmd : ServerCommand.Name} {token : ByteString} (hlisted : cmd ≠ .none)
      (hlogin : requireLogin cmd = true) (hspace : space ∉ token) :
      Formats (ServerCommand.toString cmd ++ space :: token) cmd token []
  | exit (token : ByteString) :
      Formats (ServerCommand.toString .exit ++ space :: token) .exit token []
  | account {cmd : ServerCommand.Name} (a : ByteString) (hcmd : cmd = .login ∨ cmd = .create) :
      Formats (ServerCommand.toString cmd ++ space :: a) cmd [] a

def ClientRequest.parts : ClientRequest → ServerCommand.Name × ByteString × ByteString
  | .registerUser username password => (.create, [], username ++ str " " ++ password)
  | .login username password => (.login, [], username ++ str " " ++ password)
  | .setId token username => (.search, token, username)
  | .clientExit token => (.exit, token, [])
  | .list token => (.list, token, [])
  | .search token user => (.search, token, user)
  | .addUser token user => (.add, token, user)
  | .removeUser token user => (.remove, token, user)
  | .available token user => (.available, token, user)
  | .getPending token argument => (.pending, token, argument)
  | .getAll token argument => (.chat, token, argument)
  | .send token argument => (.send, token, argument)
  | .deliver token argument => (.delivered, token, argument)
  | .sendServer p tCmd tArg => (tCmd, p.mToken, tArg)
  | .sendServerBare p tCmd => (tCmd, p.mToken, [])

def ClientRequest.Plain : ClientRequest → Prop
  | .sendServer p tCmd _ | .sendServerBare p tCmd =>
    tCmd ≠ .none ∧ requireLogin tCmd = true ∧ space ∉ p.mToken
  | request => space ∉ request.parts.2.1

section

variable (cmd : ServerCommand.Name) {word token : ByteString}
  (hword : word = ServerCommand.toString cmd ++ [space])
include hword

theorem formats_requestData (argument : ByteString) (hlisted : cmd ≠ .none)
    (hlogin : requireLogin cmd = true) (hspace : space ∉ token) :
    Formats (word ++ requestData token argument) cmd token argument := by
  have htext : word ++ requestData token argument =
      ServerCommand.toString cmd ++ space :: (token ++ space :: argument) := by
    simp [hword, requestData, str]
  rw [htext]
  exact .argument argument hlisted hlogin hspace

theorem formats_bare (hlisted : cmd ≠ .none) (hlogin : requireLogin cmd = true)
    (hspace : space ∉ token) : Formats (word ++ token) cmd token [] := by
  have htext : word ++ token = ServerCommand.toString cmd ++ space :: token := by
    simp [hword]
  rw [htext]
  exact .bare hlisted hlogin hspace

theorem formats_account (username password : ByteString) (hcmd : cmd = .login ∨ cmd = .create) :
    Formats (word ++ username ++ str " " ++ password) cmd [] (username ++ str " " ++ password) := by
  have htext : word ++ username ++ str " " ++ password =
      ServerCommand.toString cmd ++ space :: (username ++ str " " ++ password) := by
    simp [hword]
  rw [htext]
  exact .account (username ++ str " " ++ password) hcmd

end

theorem formats_text {request : ClientRequest} (h : request.Plain) :
    Formats request.text request.parts.1 request.parts.2.1 request.parts.2.2 := by
  cases request with
  | registerUser username password =>
    exact formats_account .create rfl username password (.inr rfl)
  | login username password => exact formats_account .login rfl username password (.inl rfl)
  | setId token username =>
    have hformats : Formats (str "SEARCH " ++ requestData token username) .search token username :=
      formats_requestData .search rfl username nofun rfl h
    rwa [requestData, ← List.append_assoc, ← List.append_assoc] at hformats
  | clientExit token => exact .exit token
  | list token => exact formats_bare .list rfl nofun rfl h
  | search token user => exact formats_requestData .search rfl user nofun rfl h
  | addUser token user => exact formats_requestData .add rfl user nofun rfl h
  | removeUser token user => exact formats_requestData .remove rfl user nofun rfl h
  | available token user => exact formats_requestData .available rfl user nofun rfl h
  | getPending token argument => exact formats_requestData .pending rfl argument nofun rfl h
  | getAll token argument => exact formats_requestData .chat rfl argument nofun rfl h
  | send token argument => exact formats_requestData .send rfl argument nofun rfl h
  | deliver token argument => exact formats_requestData .delivered rfl argument nofun rfl h
  | sendServer p tCmd tArg =>
    obtain ⟨hlisted, hlogin, hspace⟩ := h
    have htext : p.commandText tCmd tArg =
        ServerCommand.toString tCmd ++ space :: (p.mToken ++ space :: tArg) := by
      simp [P2P.commandText, P2P.delim, str]
    rw [ClientRequest.text, htext]
    exact .argument tArg hlisted hlogin hspace
  | sendServerBare p tCmd =>
    obtain ⟨hlisted, hlogin, hspace⟩ := h
    have htext : p.bareCommandText tCmd = ServerCommand.toString tCmd ++ space :: p.mToken := by
      simp [P2P.bareCommandText, P2P.delim, str]
    rw [ClientRequest.text, htext]
    exact .bare hlisted hlogin hspace

/-- What the router and the controllers read out of a message: the command, the token
and the argument, and for the commands whose argument has two parts both of them. -/
structure Recovers (raw : Message) (tReq : Request) (cmd : ServerCommand.Name)
    (token a : ByteString) : Prop where
  parsed : parse (raw.request tReq) = .ok (cmd, token, a)
  sent : cmd = .send → ∀ recipient message, space ∉ recipient →
    a = recipient ++ str " " ++ message →
      StringUtils.splitFirst a (str " ") = .ok (recipient, message)
  account : cmd = .login ∨ cmd = .create → ∀ username password, space ∉ username →
    a = username ++ str " " ++ password →
      StringUtils.splitFirst a (str " ") = .ok (username, password)
  call : cmd = .connect ∨ cmd = .accept → ∀ contactId localAddress user, user.mEmpty = false →
    a = intToString contactId ++ str " " ++ localAddress →
      CallControllers.validateUserAndArgument a tReq user =
        .ok (tReq, ⟨true, contactId, localAddress⟩)

theorem length_argument_le {text token a : ByteString} {cmd : ServerCommand.Name}
    (h : Formats text cmd token a) : a.length ≤ text.length := by
  cases h with
  | argument a hlisted hlogin hspace =>
    simp only [List.length_append, List.length_cons]
    omega
  | bare hlisted hlogin hspace => exact Nat.zero_le _
  | exit => exact Nat.zero_le _
  | account a hcmd =>
    simp only [List.length_append, List.length_cons]
    omega

theorem command_body {raw : Message} {cmd : ServerCommand.Name} {rest : ByteString}
    (h : raw.text = ServerCommand.toString cmd ++ space :: rest) :
    raw.command = cmd ∧ raw.body = rest := by
  have hcut : Search.cutFirst [space] raw.text = (ServerCommand.toString cmd, rest) := by
    rw [h]
    exact Search.cutFirst_append_cons rest (ServerCommand.space_notMem_toString cmd)
  rw [Message.command, Message.body, hcut]
  exact ⟨ServerCommand.get_toString cmd, rfl⟩

theorem parse_formats {raw : Message} (tReq : Request) {cmd : ServerCommand.Name}
    {token a : ByteString} (h : Formats raw.text cmd token a) :
    parse (raw.request tReq) = .ok (cmd, token, a) := by
  rw [parse_request]
  generalize htext : raw.text = text at h
  cases h with
  | argument a hlisted hlogin hspace =>
    obtain ⟨hcommand, hbody⟩ := command_body htext
    rw [hcommand, if_pos hlogin, Message.word, Message.arguments, hbody,
      Search.cutFirst_append_cons a hspace]
  | bare hlisted hlogin hspace =>
    obtain ⟨hcommand, hbody⟩ := command_body htext
    rw [hcommand, if_pos hlogin, Message.word, Message.arguments, hbody,
      Search.cutFirst_of_notMem hspace]
  | exit =>
    obtain ⟨hcommand, hbody⟩ := command_body htext
    rw [hcommand, hbody]
    rfl
  | account a hcmd =>
    obtain ⟨hcommand, hbody⟩ := command_body htext
    rw [hcommand, hbody]
    rcases hcmd with rfl | rfl
    · rfl
    · rfl

theorem splitFirst_parts {first rest a : ByteString} (hshort : a.length < 2 ^ 31)
    (hspace : space ∉ first) (ha : a = first ++ str " " ++ rest) :
    StringUtils.splitFirst a (str " ") = .ok (first, rest) := by
  have hparts : a = first ++ space :: rest := by
    rw [ha, List.append_assoc]
    rfl
  rw [StringUtils.splitFirst_eq hshort, hparts]
  exact congrArg Except.ok (Search.cutFirst_append_cons rest hspace)

theorem space_notMem_intToString (i : Int32) : space ∉ intToString i :=
  Decimal.notMem_printInt (by decide) (by decide)

theorem message_recovered (raw : Message) (tReq : Request) {cmd : ServerCommand.Name}
    {token a : ByteString} (h : Formats raw.text cmd token a) : Recovers raw tReq cmd token a := by
  have hshort : a.length < 2 ^ 31 := (length_argument_le h).trans_lt raw.short
  refine ⟨parse_formats tReq h, ?_, ?_, ?_⟩
  · intro _ recipient message hspace ha
    exact splitFirst_parts hshort hspace ha
  · intro _ username password hspace ha
    exact splitFirst_parts hshort hspace ha
  · intro _ contactId localAddress user huser ha
    have hsplit := splitFirst_parts hshort (space_notMem_intToString contactId) ha
    have hid : StringUtils.toInt (intToString contactId) = (true, contactId) := by
      rw [StringUtils.toInt, stoi_intToString]
    rw [CallControllers.validateUserAndArgument, huser, if_neg Bool.false_ne_true, hsplit, ok_bind]
    simp only [hid, if_true, pure_eq_ok]

def greeting : Message := ⟨str "SEND abc 2 hello, how are you", by decide⟩

theorem message_recovered_greeting :
    Recovers greeting (Request.new (str "1.2.3.4") true) .send (str "abc")
      (str "2 hello, how are you") := by
  have htoken : space ∉ str "abc" := by decide
  have hsend : ServerCommand.Name.send ≠ .none := nofun
  have hformats : Formats greeting.text .send (str "abc") (str "2 hello, how are you") :=
    .argument (str "2 hello, how are you") hsend rfl htoken
  exact message_recovered greeting (Request.new (str "1.2.3.4") true) hformats

end Skype.WireFormat
