import Skype.Mailbox

/-!
# What the reply to `SEND` says

`send` goes on behind the reply for an empty message, and does not look whether its chat
was inserted. So the reply is true exactly when the message is not empty and an insertion
that it comes to succeeds.
-/

namespace Skype.ChatControllers

open Library Postgres Mailbox Router ControllerUtils

structure Outcomes where
  token : Bool
  recipient : Bool
  insert : Bool

def caught (passes : Bool) (found : User × Server) : User × Server :=
  (if passes then found.1 else User.empty, found.2)

/-- `send` with the outcomes of its transactions; `add_user_chat` is caught as well. -/
def sendWith (pg : Engine) (draw : Draw) (outcomes : Outcomes) (tArg : ByteString)
    (tReq : Request) (s : Server) : Exec (Request × Server) := do
  let (recipientId, message) ← StringUtils.splitFirst tArg (str " ")
  let tReq := if message = [] then setRequestReply .r502 tReq else tReq
  let (sender, s) := caught outcomes.token (s.searchUserByToken tReq.mToken)
  let (recipient, s) := caught outcomes.recipient (s.searchUserBy pg recipientId .id)
  if sender.mEmpty = false ∧ recipient.mEmpty = false then
    let userChat : UserChat := ⟨0, [], sender.mId, recipient.mId, message, false, false⟩
    let after := s.addUserChat pg draw userChat
    return (setRequestReply .r200 tReq,
      if outcomes.insert then after else { after with db := s.db })
  else return (setRequestReply .r303 tReq, s)

theorem sendWith_all (pg : Engine) (draw : Draw) (tArg : ByteString) (tReq : Request)
    (s : Server) : sendWith pg draw ⟨true, true, true⟩ tArg tReq s = send pg draw tArg tReq s :=
  rfl

def message (raw : Message) : ByteString := (Search.cutFirst [space] raw.arguments).2

def recipientText (raw : Message) : ByteString := (Search.cutFirst [space] raw.arguments).1

def Adds (pg : Engine) (raw : Message) (tReq : Request) (a b : Tables) : Prop :=
  ∃ row : ChatRow, b.chats.entries = a.chats.entries ++ [row] ∧
    row.senderId = (searchUserByToken a.toDatabase tReq.mToken).mId ∧
    pg.readId (recipientText raw) = some row.recipientId.toInt ∧ row.text = some (message raw)

/-- The reply is 200 if and only if the chat is new, 502 to an empty message, and without
a 200 the chats are as they were. -/
def TellsTruth (pg : Engine) (raw : Message) (tReq : Request) (s : Server)
    (result : Exec (Request × Server)) : Prop :=
  ∃ reply server, result = .ok (reply, server) ∧
    (reply.mData = some (textData (Reply.getMessage .r200)) ↔ Adds pg raw tReq s.db server.db) ∧
    (message raw = [] → reply.mData = some (textData (Reply.getMessage .r502)) ∧
      server.db = s.db) ∧
    (reply.mData ≠ some (textData (Reply.getMessage .r200)) →
      server.db.chats.entries = s.db.chats.entries)

def FindsBoth (pg : Engine) (outcomes : Outcomes) (raw : Message) (tReq : Request) (s : Server) :
    Prop :=
  (outcomes.token = true ∧ (searchUserByToken s.db.toDatabase tReq.mToken).mEmpty = false) ∧
    (outcomes.recipient = true ∧
      (searchUserBy pg s.db.toDatabase (recipientText raw) .id).mEmpty = false)

def Inserts (pg : Engine) (draw : Draw) (outcomes : Outcomes) (raw : Message) (s : Server) : Prop :=
  outcomes.insert = true ∧ pg.takesText (message raw) = true ∧
    s.db.chats.find? draw.chatId = none

section

variable {pg : Engine} {draw : Draw} {outcomes : Outcomes} {raw : Message} {tReq : Request}
  {s : Server}

theorem mEmpty_caught {passes : Bool} {found : User × Server} :
    (caught passes found).1.mEmpty = false ↔ passes = true ∧ found.1.mEmpty = false := by
  cases passes with
  | true => simp [caught]
  | false => simp [caught, User.empty]

def sentChat (pg : Engine) (raw : Message) (tReq : Request) (s : Server) : UserChat :=
  ⟨0, [], (searchUserByToken s.db.toDatabase tReq.mToken).mId,
    (searchUserBy pg s.db.toDatabase (recipientText raw) .id).mId, message raw, false, false⟩

variable (pg draw outcomes raw tReq s) in
theorem sendWith_cases :
    ∃ reply server, sendWith pg draw outcomes raw.arguments tReq s = .ok (reply, server) ∧
      ((FindsBoth pg outcomes raw tReq s ∧
          reply.mData = some (textData (Reply.getMessage .r200)) ∧
          server.db = if outcomes.insert then addUserChat pg draw s.db (sentChat pg raw tReq s)
            else s.db) ∨
        (¬FindsBoth pg outcomes raw tReq s ∧
          reply.mData = some (textData (Reply.getMessage .r303)) ∧ server.db = s.db)) := by
  rw [sendWith, splitFirst_space (length_arguments_lt raw), ok_bind]
  dsimp only
  have htoken : (if (Search.cutFirst [space] raw.arguments).2 = [] then setRequestReply .r502 tReq
      else tReq).mToken = tReq.mToken := by
    split
    · rfl
    · rfl
  rw [htoken]
  generalize (if (Search.cutFirst [space] raw.arguments).2 = [] then setRequestReply .r502 tReq
    else tReq) = answered
  split
  · next hfound =>
    refine ⟨_, _, rfl, Or.inl ⟨?_, rfl, ?_⟩⟩
    · exact ⟨mEmpty_caught.mp hfound.1, mEmpty_caught.mp hfound.2⟩
    · have hsender : outcomes.token = true := (mEmpty_caught.mp hfound.1).1
      have hrecipient : outcomes.recipient = true := (mEmpty_caught.mp hfound.2).1
      rw [hsender, hrecipient]
      split
      · rfl
      · rfl
  · next hmissing =>
    refine ⟨_, _, rfl, Or.inr ⟨?_, rfl, rfl⟩⟩
    rintro ⟨hsender, hrecipient⟩
    exact hmissing ⟨mEmpty_caught.mpr hsender, mEmpty_caught.mpr hrecipient⟩

theorem readId_of_searchUserBy {db : Database} {term : ByteString}
    (h : (searchUserBy pg db term .id).mEmpty = false) :
    pg.readId term = some (searchUserBy pg db term .id).mId.toInt := by
  unfold searchUserBy at h ⊢
  split at h
  · cases h
  · next row hrow =>
    have hread := (List.mem_filter.mp (mem_of_exec1 hrow)).2
    rw [UserField.reads, beq_iff_eq] at hread
    cases hid : toInt row.id with
    | none =>
      rw [rowToUser, hid] at h
      cases h
    | some id =>
      rw [hread, ← toInt_eq_some hid, rowToUser, hid]
      rfl

theorem adds_of_inserts (hfound : FindsBoth pg outcomes raw tReq s)
    (hinserts : Inserts pg draw outcomes raw s) :
    Adds pg raw tReq s.db (addUserChat pg draw s.db (sentChat pg raw tReq s)) :=
  ⟨_, chats_addUserChat hinserts.2.2 hinserts.2.1, rfl, readId_of_searchUserBy hfound.2.2, rfl⟩

theorem unchanged_of_not_inserts (h : ¬Inserts pg draw outcomes raw s) :
    (if outcomes.insert then addUserChat pg draw s.db (sentChat pg raw tReq s) else s.db) =
      s.db := by
  split
  · next hinsert =>
    rw [addUserChat, if_pos]
    by_contra hpasses
    rw [not_or, Bool.not_eq_true, Option.isSome_eq_false_iff, Option.isNone_iff_eq_none] at hpasses
    exact h ⟨hinsert, Bool.eq_true_of_not_eq_false hpasses.2, hpasses.1⟩
  · rfl

theorem getMessage_eq {reply : Request} {a b : Reply.Code}
    (ha : reply.mData = some (textData (Reply.getMessage a)))
    (hb : reply.mData = some (textData (Reply.getMessage b))) :
    Reply.getMessage a = Reply.getMessage b :=
  congrArg Data.bytes (Option.some.inj (ha.symm.trans hb))

theorem not_adds {a b : Tables} (h : b.chats.entries = a.chats.entries) :
    ¬Adds pg raw tReq a b := by
  rintro ⟨row, hadded, -⟩
  rw [h, List.self_eq_append_right] at hadded
  cases hadded

/-- The reply to a `SEND` is true exactly when its message is not empty and the insertion,
if there is one, succeeds. -/
theorem send_tellsTruth_iff (pg : Engine) (draw : Draw) (outcomes : Outcomes) (raw : Message)
    (tReq : Request) (s : Server) :
    TellsTruth pg raw tReq s (sendWith pg draw outcomes raw.arguments tReq s) ↔
      message raw ≠ [] ∧
        (FindsBoth pg outcomes raw tReq s → Inserts pg draw outcomes raw s) := by
  have hempty : Reply.getMessage .r200 ≠ Reply.getMessage .r502 := by decide
  have hmissing : Reply.getMessage .r303 ≠ Reply.getMessage .r200 := by decide
  have hboth : Reply.getMessage .r303 ≠ Reply.getMessage .r502 := by decide
  obtain ⟨reply, server, hresult, hcases⟩ := sendWith_cases pg draw outcomes raw tReq s
  constructor
  · rintro ⟨reply', server', hresult', hadds, hnothing, -⟩
    rw [hresult] at hresult'
    cases hresult'
    rcases hcases with ⟨hfound, hreply, hdb⟩ | ⟨hnotFound, hreply, hdb⟩
    · refine ⟨?_, ?_⟩
      · intro hmessage
        exact hempty (getMessage_eq hreply (hnothing hmessage).1)
      · intro _
        by_contra hfails
        rw [unchanged_of_not_inserts hfails] at hdb
        exact not_adds (by rw [hdb]) (hadds.mp hreply)
    · refine ⟨?_, fun hfound => absurd hfound hnotFound⟩
      intro hmessage
      exact hboth (getMessage_eq hreply (hnothing hmessage).1)
  · rintro ⟨hmessage, hinserts⟩
    refine ⟨reply, server, hresult, ?_, fun h => absurd h hmessage, ?_⟩
    · rcases hcases with ⟨hfound, hreply, hdb⟩ | ⟨hnotFound, hreply, hdb⟩
      · rw [if_pos (hinserts hfound).1] at hdb
        rw [hdb]
        exact iff_of_true hreply (adds_of_inserts hfound (hinserts hfound))
      · refine iff_of_false ?_ (not_adds (by rw [hdb]))
        intro hok
        exact hmissing (getMessage_eq hreply hok)
    · intro hreply
      rcases hcases with ⟨-, hok, -⟩ | ⟨-, -, hdb⟩
      · exact absurd hok hreply
      · rw [hdb]

end

/-- An empty message for mario is stored and answered 200, and so is one that the database
refuses. -/
theorem send_empty_stored :
    ¬TellsTruth Engine.basic ⟨str "SEND abc 2", by decide⟩
        { johnRequest with mToken := str "abc" } twoUsers
        (sendWith Engine.basic sampleDraw ⟨true, true, true⟩ (str "2")
          { johnRequest with mToken := str "abc" } twoUsers) ∧
      ¬TellsTruth Engine.basic ⟨str "SEND abc 2 hello", by decide⟩
        { johnRequest with mToken := str "abc" } twoUsers
        (sendWith Engine.basic sampleDraw ⟨true, true, false⟩ (str "2 hello")
          { johnRequest with mToken := str "abc" } twoUsers) := by
  constructor
  · rintro ⟨reply, server, hresult, -, hnothing, -⟩
    have hreply : (sendWith Engine.basic sampleDraw ⟨true, true, true⟩ (str "2")
        { johnRequest with mToken := str "abc" } twoUsers).map (fun result => result.1.mData) =
          .ok (some (textData (Reply.getMessage .r200))) := by decide +kernel
    rw [hresult] at hreply
    have hwrong := getMessage_eq (Except.ok.inj hreply) (hnothing (by decide +kernel)).1
    exact absurd hwrong (by decide)
  · rintro ⟨reply, server, hresult, hadds, -⟩
    have hreply : (sendWith Engine.basic sampleDraw ⟨true, true, false⟩ (str "2 hello")
        { johnRequest with mToken := str "abc" } twoUsers).map
          (fun result => (result.1.mData, result.2.db.chats.entries)) =
          .ok (some (textData (Reply.getMessage .r200)), twoUsers.db.chats.entries) := by
      decide +kernel
    rw [hresult] at hreply
    obtain ⟨hok, hentries⟩ := Prod.mk.inj (Except.ok.inj hreply)
    exact not_adds hentries (hadds.mp hok)

end Skype.ChatControllers
