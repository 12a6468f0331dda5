import Skype.Library.Keyed
import Skype.UserChat

/-!
# `Job`

What the threads of the client hand to each other. A job keeps its command while it is
handled, unless the handler replaces it, and carries the result back to the window.
-/

namespace Skype

open Library

structure Details where
  username : ByteString
  ID : Int32
  online : Bool
  awaiting : Bool
  deriving DecidableEq

abbrev ContactMap := Keyed Details.ID

namespace Job

inductive Command
  | LIST
  | DISP_CONTACTS
  | CHAT
  | PENDING
  | DELIVERED
  | AWAITING
  | DISCARD
  deriving DecidableEq

end Job

structure Job where
  mCommand : Job.Command
  mArgument : ByteString
  mValid : Bool
  mBoolValue : Bool
  mIntValue : Int32
  mContactList : List Details
  mChats : List UserChat
  deriving DecidableEq

def Job.new (tCommand : Job.Command) : Job := ⟨tCommand, [], false, false, -1, [], []⟩

end Skype
