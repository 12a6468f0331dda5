import Skype.StringUtils

/-!
# `UserChat`

A chat message and its text form: the five fields of the metadata separated by
`,` with the message text directly behind them. `toString` writes the metadata
and the text; `fromString` reads a text that carries the length of the metadata
in front.
-/

namespace Skype

open Library

structure UserChat where
  mId : Int32
  mCreatedAt : ByteString
  mSender : Int32
  mRecipient : Int32
  mText : ByteString
  mDelivered : Bool
  mEmpty : Bool
  deriving DecidableEq

namespace UserChat

def fieldDelim : ByteString := str ","
def headerDelim : ByteString := str ":"

def new : UserChat := ⟨0, [], 0, 0, [], false, true⟩

def textLength (chat : UserChat) : ℕ := chat.mText.length

def toString (chat : UserChat) : ByteString :=
  intToString chat.mId ++ fieldDelim ++ chat.mCreatedAt ++ fieldDelim ++
    intToString chat.mSender ++ fieldDelim ++ intToString chat.mRecipient ++ fieldDelim ++
    (if chat.mDelivered then str "true" else str "false") ++ chat.mText

/-- Run the assignments of a `try` block one after the other. The first exception
ends the block; what was assigned before it stays. -/
def assign : List (UserChat → Exec UserChat) → UserChat → UserChat
  | [], chat => chat
  | step :: rest, chat =>
    match step chat with
    | .ok chat' => assign rest chat'
    | .error _ => chat

def assignments (fields : List ByteString) (text : ByteString) :
    List (UserChat → Exec UserChat) :=
  [ fun chat => do return { chat with mId := ← stoi (← vecAt fields 0) },
    fun chat => do return { chat with mCreatedAt := ← vecAt fields 1 },
    fun chat => do return { chat with mSender := ← stoi (← vecAt fields 2) },
    fun chat => do return { chat with mRecipient := ← stoi (← vecAt fields 3) },
    fun chat => do return { chat with mDelivered := (← vecAt fields 4) == str "true" },
    fun chat => .ok { chat with mText := text } ]

/-- `from_string`: the exceptions of the `try` block are caught and logged, the
one of the first `split_first` is not. -/
def fromString (chat : UserChat) (tChat : ByteString) : Exec UserChat := do
  let (header, content) ← StringUtils.splitFirst tChat headerDelim
  catchAll
    (do
      let contentLength ← stoi header
      let (info, text) ← StringUtils.splitAt content (intToSize contentLength)
      let fields ← StringUtils.split info fieldDelim
      return assign (assignments fields text) chat)
    (.ok chat)

def fields (chat : UserChat) : Int32 × ByteString × Int32 × Int32 × Bool × ByteString :=
  (chat.mId, chat.mCreatedAt, chat.mSender, chat.mRecipient, chat.mDelivered, chat.mText)

def info (chat : UserChat) : List ByteString :=
  [intToString chat.mId, chat.mCreatedAt, intToString chat.mSender, intToString chat.mRecipient,
    if chat.mDelivered then str "true" else str "false"]

theorem fieldDelim_eq : fieldDelim = [comma] := by decide

theorem headerDelim_eq : headerDelim = [colon] := by decide

theorem toString_eq (chat : UserChat) :
    chat.toString = [comma].intercalate chat.info ++ chat.mText := by
  simp [toString, info, fieldDelim_eq]

theorem length_toString (chat : UserChat) :
    chat.toString.length - chat.textLength = ([comma].intercalate chat.info).length := by
  simp [toString_eq, textLength]

theorem notMem_intToString (i : Int32) : comma ∉ intToString i :=
  Decimal.notMem_printInt (by decide) (by decide)

theorem notMem_info {chat : UserChat} (h : comma ∉ chat.mCreatedAt) :
    ∀ f ∈ chat.info, comma ∉ f := by
  have hbool : comma ∉ (if chat.mDelivered then str "true" else str "false") := by
    cases chat.mDelivered <;> decide
  simp [info, notMem_intToString, h, hbool]

theorem split_info {chat : UserChat} (h : comma ∉ chat.mCreatedAt)
    (hlen : ([comma].intercalate chat.info).length < 2 ^ 31) :
    StringUtils.split ([comma].intercalate chat.info) fieldDelim = .ok chat.info := by
  rw [fieldDelim_eq, StringUtils.split_eq hlen (by simp),
    Search.splitOn_intercalate (by simp [info]) (notMem_info h)]

theorem assign_info (chat target : UserChat) :
    assign (assignments chat.info chat.mText) target =
      { chat with mEmpty := target.mEmpty } := by
  have hbool : ((if chat.mDelivered then str "true" else str "false") == str "true") =
      chat.mDelivered := by
    cases chat.mDelivered <;> decide
  simp [assign, assignments, vecAt, info, stoi_intToString, hbool]

/-- The text of a chat behind the decimal length of its metadata is read back
field by field; only the `empty` flag of the target is kept. -/
theorem fromString_toString {chat : UserChat} (target : UserChat) (h : comma ∉ chat.mCreatedAt)
    (hlen : (sizeToString (chat.toString.length - chat.textLength) ++ headerDelim ++
      chat.toString).length < 2 ^ 31) :
    fromString target (sizeToString (chat.toString.length - chat.textLength) ++ headerDelim ++
      chat.toString) = .ok { chat with mEmpty := target.mEmpty } := by
  have hcolon : colon ∉ sizeToString (chat.toString.length - chat.textLength) :=
    Decimal.notMem_print (by decide)
  have hinfo := length_toString chat
  have hshort : ([comma].intercalate chat.info).length < 2 ^ 31 := by
    rw [← hinfo]
    simp only [List.length_append] at hlen
    omega
  rw [fromString, StringUtils.splitFirst_eq hlen, headerDelim_eq, List.append_assoc,
    List.singleton_append, Search.cutFirst_append_cons _ hcolon]
  simp only [ok_bind, hinfo, stoi_sizeToString hshort, intToSize_sizeToInt hshort]
  rw [StringUtils.splitAt_of_le (by simp [toString_eq])]
  simp only [ok_bind, toString_eq, List.take_left, List.drop_left, split_info h hshort,
    assign_info, pure_eq_ok, catchAll_ok]

end UserChat

end Skype
