import Skype.StdString

/-!
# `ServerCommand`

The commands of the server and the words that the client sends them with.
-/

namespace Skype.ServerCommand

inductive Name
  | create | login | send | connect | accept
  | search | add | remove | available | reject
  | list | ping | exit | none | hangup
  | pending | chat | delivered
  deriving DecidableEq, Repr

def commands : List (ByteString × Name) :=
  [(str "CREATE", .create), (str "LOGIN", .login), (str "LIST", .list), (str "SEARCH", .search),
   (str "ADD", .add), (str "REMOVE", .remove), (str "PING", .ping),
   (str "AVAILABLE", .available), (str "EXIT", .exit), (str "SEND", .send), (str "CHAT", .chat),
   (str "PENDING", .pending), (str "REJECT", .reject), (str "CONNECT", .connect),
   (str "ACCEPT", .accept), (str "HANGUP", .hangup), (str "DELIVERED", .delivered)]

def get (tCommand : ByteString) : Name := (commands.lookup tCommand).getD .none

/-- The word of a command, empty for `None`; no two words name one command, so the
order of the table does not matter. -/
def toString (tCmd : Name) : ByteString :=
  ((commands.find? fun entry => entry.2 = tCmd).map Prod.fst).getD []

def Name.code : Name → ℕ
  | .create => 0
  | .login => 1
  | .send => 2
  | .connect => 3
  | .accept => 4
  | .search => 10
  | .add => 11
  | .remove => 12
  | .available => 13
  | .reject => 14
  | .list => 20
  | .ping => 21
  | .exit => 23
  | .none => 24
  | .hangup => 25
  | .pending => 30
  | .chat => 32
  | .delivered => 33

def hasArgument (tCmd : Name) : Bool := tCmd.code < Name.list.code

def hasZeroOrMoreArguments (tCmd : Name) : Bool := Name.pending.code ≤ tCmd.code

theorem get_toString (tCmd : Name) : get (toString tCmd) = tCmd := by
  cases tCmd <;> decide

theorem space_notMem_toString (tCmd : Name) : space ∉ toString tCmd := by
  cases tCmd <;> decide

end Skype.ServerCommand
