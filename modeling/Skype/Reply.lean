import Skype.StdString

/-!
# `Reply`

The reply codes of the server, their texts and the reverse table that the client
reads the code of a reply with.
-/

namespace Skype.Reply

inductive Code
  | r200 | r201 | r202 | r203
  | r300 | r301 | r302 | r303 | r304 | r305 | r306 | r307
  | r500 | r501 | r502
  | none
  deriving DecidableEq, Repr

def replies : Code → Option ByteString
  | .r200 => str "200 OK"
  | .r201 => str "201"
  | .r202 => str "202 Invalid token. Please login"
  | .r203 => str "203 Awaiting"
  | .r300 => str "300 Not OK"
  | .r301 => str "301 User not found"
  | .r302 => str "302 User already exist"
  | .r303 => str "303 Recipient not found"
  | .r304 => str "304 Sender not found"
  | .r305 => str "305 Invalid chat id"
  | .r306 => str "306 Already awaiting. Please HANGUP before connecting"
  | .r307 => str "307 Connection requests not found for this user"
  | .r500 => str "500 Internal server error"
  | .r501 => str "501 Invalid command or wrong number of arguments"
  | .r502 => str "502 Empty argument"
  | .none => Option.none

def codes : List (ByteString × Code) :=
  [(str "200", .r200), (str "201", .r201), (str "202", .r202), (str "203", .r203),
   (str "300", .r300), (str "301", .r301), (str "302", .r302), (str "303", .r303),
   (str "304", .r304), (str "305", .r305), (str "306", .r306), (str "307", .r307),
   (str "500", .r500), (str "501", .r501), (str "502", .r502)]

def getMessage (tCode : Code) : ByteString := (replies tCode).getD []

/-- `append_message` does not catch the exception of `m_replies.at`. -/
def appendMessage (tCode : Code) (tMsg : ByteString) : Exec ByteString :=
  match replies tCode with
  | some reply => .ok (reply ++ str " " ++ tMsg)
  | Option.none => .error .outOfRange

def fromString (tCode : ByteString) : Code := (codes.lookup tCode).getD .none

@[simp] theorem appendMessage_r201 (tMsg : ByteString) :
    appendMessage .r201 tMsg = .ok (str "201 " ++ tMsg) := by
  have h : str "201" ++ str " " = str "201 " := by decide
  simp [appendMessage, replies, h]

theorem fromString_take_getMessage (tCode : Code) :
    fromString ((getMessage tCode).take 3) = tCode := by
  cases tCode <;> decide

theorem getMessage_injective : Function.Injective getMessage := by
  intro a b h
  rw [← fromString_take_getMessage a, ← fromString_take_getMessage b, h]

end Skype.Reply
