import Skype.Router

/-!
# The ids of `DELIVERED`

Each id of the list is looked up with a query that it stands in as it is. As long as the
ids are numerals the lookups read the chats and write nothing; behind the first other id
the database decides.
-/

namespace Skype

open Library

namespace Engine

/-- The engine with another answer to the texts that are no numerals. -/
def answering (pg : Engine) (answer : ByteString → Tables → Option (Tables × List ChatRow)) :
    Engine where
  quoting := pg.quoting
  readId := pg.readId
  takesVarchar := pg.takesVarchar
  takesText := pg.takesText
  order := pg.order
  order_perm := pg.order_perm
  selectChats term db :=
    if IsNumeral term then
      some (db, db.chats.entries.filter fun row : ChatRow => row.id = (Decimal.value term : ℤ))
    else answer term db
  selectChats_numeral _ h _ := if_pos h

def basic : Engine where
  quoting := .doubling
  readId text := if IsNumeral text then some (Decimal.value text : ℤ) else none
  takesVarchar text := text.length ≤ 100
  takesText _ := true
  order rows := rows
  order_perm rows := .refl rows
  selectChats term db :=
    if IsNumeral term then
      some (db, db.chats.entries.filter fun row : ChatRow => row.id = (Decimal.value term : ℤ))
    else none
  selectChats_numeral _ h _ := if_pos h

end Engine

namespace Postgres

theorem rowToChat_fields {row : ChatRow} {chat : UserChat} (h : rowToChat row = some chat) :
    chat.mId.toInt = row.id ∧ chat.mRecipient = row.recipientId ∧ chat.mSender = row.senderId ∧
      chat.mDelivered = row.delivered ∧ chat.mCreatedAt = row.createdAt.text := by
  unfold rowToChat at h
  split at h
  · next id text hid htext =>
    obtain rfl := Option.some.inj h
    exact ⟨toInt_eq_some hid, rfl, rfl, rfl, rfl⟩
  · cases h

end Postgres

namespace ChatControllers

open Postgres

def numeralChat (chats : Keyed ChatRow.id) (id : ByteString) : UserChat :=
  match exec1 (chats.entries.filter fun row : ChatRow => row.id = (Decimal.value id : ℤ)) with
  | none => UserChat.new
  | some row => (rowToChat row).getD UserChat.new

/-- Every id is a numeral, up to the first one without a chat. -/
def Plain (chats : Keyed ChatRow.id) : List ByteString → Prop
  | [] => True
  | id :: ids => IsNumeral id ∧ ((numeralChat chats id).mEmpty = false → Plain chats ids)

instance decidablePlain (chats : Keyed ChatRow.id) : ∀ ids, Decidable (Plain chats ids)
  | [] => isTrue trivial
  | id :: ids =>
    have := decidablePlain chats ids
    inferInstanceAs (Decidable (IsNumeral id ∧ (_ → Plain chats ids)))

def namedChats (chats : Keyed ChatRow.id) : List ByteString → Except ByteString (List UserChat)
  | [] => .ok []
  | id :: ids =>
    if (numeralChat chats id).mEmpty then .error id
    else (namedChats chats ids).map fun userChats => numeralChat chats id :: userChats

theorem searchUserChatBy_numeral (pg : Engine) (db : Tables) {id : ByteString} (h : IsNumeral id) :
    searchUserChatBy pg db id = (db, numeralChat db.chats id) := by
  rw [searchUserChatBy, pg.selectChats_numeral id h db, numeralChat]
  dsimp only
  cases exec1 (db.chats.entries.filter fun row : ChatRow => row.id = (Decimal.value id : ℤ)) with
  | none => rfl
  | some row => rfl

theorem findChats_cons (pg : Engine) (s : Server) (id : ByteString) (ids : List ByteString) :
    findChats pg s (id :: ids) =
      if (s.searchUserChatBy pg id).1.mEmpty then (.error id, (s.searchUserChatBy pg id).2)
      else
        ((findChats pg (s.searchUserChatBy pg id).2 ids).1.map fun userChats =>
            (s.searchUserChatBy pg id).1 :: userChats,
          (findChats pg (s.searchUserChatBy pg id).2 ids).2) := rfl

theorem fst_searchUserChatBy (pg : Engine) (s : Server) (id : ByteString) :
    (s.searchUserChatBy pg id).1 = (searchUserChatBy pg s.db id).2 := rfl

theorem db_searchUserChatBy (pg : Engine) (s : Server) (id : ByteString) :
    (s.searchUserChatBy pg id).2.db = (searchUserChatBy pg s.db id).1 := rfl

theorem awaiting_findChats (pg : Engine) (s : Server) (ids : List ByteString) :
    (findChats pg s ids).2.awaiting = s.awaiting := by
  induction ids generalizing s with
  | nil => rfl
  | cons id ids ih =>
    rw [findChats_cons]
    split
    · rfl
    · exact ih _

/-- The induction is on the ids; under numerals no lookup changes the tables. -/
theorem findChats_plain (pg : Engine) {s : Server} {ids : List ByteString}
    (h : Plain s.db.chats ids) :
    (findChats pg s ids).1 = namedChats s.db.chats ids ∧ (findChats pg s ids).2.db = s.db := by
  induction ids generalizing s with
  | nil => exact ⟨rfl, rfl⟩
  | cons id ids ih =>
    obtain ⟨hnumeral, hrest⟩ := h
    have hlookup := searchUserChatBy_numeral pg s.db hnumeral
    have hdb : (s.searchUserChatBy pg id).2.db = s.db := by
      rw [db_searchUserChatBy, hlookup]
    rw [findChats_cons, namedChats, fst_searchUserChatBy, hlookup]
    dsimp only
    by_cases hempty : (numeralChat s.db.chats id).mEmpty = true
    · rw [if_pos hempty, if_pos hempty]
      exact ⟨rfl, hdb⟩
    · rw [if_neg hempty, if_neg hempty]
      have hplain : Plain (s.searchUserChatBy pg id).2.db.chats ids := by
        rw [hdb]
        exact hrest (Bool.eq_false_of_not_eq_true hempty)
      obtain ⟨hfound, hsame⟩ := ih hplain
      rw [hdb] at hfound hsame
      dsimp only
      rw [hfound]
      exact ⟨rfl, hsame⟩

/-- An id that is no numeral is reached, and the loop ends there if its row cannot be
converted: what the query wrote was committed before. -/
theorem findChats_answering (pg : Engine) {s : Server} {ids : List ByteString}
    {answer : ByteString → Tables → Option (Tables × List ChatRow)} {after : Tables}
    {row : ChatRow} (hanswer : ∀ term, answer term s.db = some (after, [row]))
    (hrow : rowToChat row = none) (h : ¬Plain s.db.chats ids) :
    (findChats (pg.answering answer) s ids).2.db = after := by
  induction ids generalizing s with
  | nil => exact absurd trivial h
  | cons id ids ih =>
    rw [findChats_cons]
    by_cases hnumeral : IsNumeral id
    · have hlookup := searchUserChatBy_numeral (pg.answering answer) s.db hnumeral
      have hdb : (s.searchUserChatBy (pg.answering answer) id).2.db = s.db := by
        rw [db_searchUserChatBy, hlookup]
      rw [fst_searchUserChatBy, hlookup]
      dsimp only
      by_cases hempty : (numeralChat s.db.chats id).mEmpty = true
      · apply absurd _ h
        refine ⟨hnumeral, ?_⟩
        intro hfalse
        rw [hempty] at hfalse
        cases hfalse
      · rw [if_neg hempty]
        have hrest : ¬Plain s.db.chats ids := fun hplain => h ⟨hnumeral, fun _ => hplain⟩
        rw [← hdb] at hanswer hrest
        exact ih hanswer hrest
    · have hselect : (pg.answering answer).selectChats id s.db = some (after, [row]) := by
        rw [← hanswer id]
        exact if_neg hnumeral
      have hlookup : searchUserChatBy (pg.answering answer) s.db id = (after, UserChat.new) := by
        rw [searchUserChatBy, hselect]
        dsimp only [exec1]
        rw [hrow]
        rfl
      rw [fst_searchUserChatBy, hlookup]
      have hempty : UserChat.new.mEmpty = true := rfl
      rw [if_pos hempty, db_searchUserChatBy, hlookup]

theorem setAllDelivered_cons (s : Server) (chat : UserChat) (userChats : List UserChat) :
    setAllDelivered s (chat :: userChats) =
      setAllDelivered (if chat.mDelivered then s else s.setUserChatToDelivered chat.mId)
        userChats :=
  rfl

def delivers (userChats : List UserChat) (row : ChatRow) : Bool :=
  userChats.any fun chat => !chat.mDelivered && chat.mId.toInt == row.id

theorem entries_setAllDelivered (s : Server) (userChats : List UserChat) :
    (setAllDelivered s userChats).db.chats.entries =
      s.db.chats.entries.map fun row =>
        if delivers userChats row then { row with delivered := true } else row := by
  induction userChats generalizing s with
  | nil => simp [setAllDelivered, delivers]
  | cons chat userChats ih =>
    rw [setAllDelivered_cons, ih]
    by_cases hdelivered : chat.mDelivered = true
    · rw [if_pos hdelivered]
      apply List.map_congr_left
      intro row hrow
      simp [delivers, hdelivered]
    · rw [if_neg hdelivered]
      have hentries : (s.setUserChatToDelivered chat.mId).db.chats.entries =
          s.db.chats.entries.map (setDelivered chat.mId.toInt) := rfl
      rw [hentries, List.map_map]
      apply List.map_congr_left
      intro row hrow
      have hflag := Bool.eq_false_of_not_eq_true hdelivered
      by_cases hid : row.id = chat.mId.toInt
      · simp [delivers, setDelivered, hid, hflag]
      · simp [delivers, setDelivered, hid, Ne.symm hid, hflag]

theorem setAllDelivered_others (s : Server) (userChats : List UserChat) :
    (setAllDelivered s userChats).db.toDatabase = s.db.toDatabase ∧
      (setAllDelivered s userChats).awaiting = s.awaiting := by
  induction userChats generalizing s with
  | nil => exact ⟨rfl, rfl⟩
  | cons chat userChats ih =>
    rw [setAllDelivered_cons]
    obtain ⟨hdb, hawaiting⟩ := ih (if chat.mDelivered then s else s.setUserChatToDelivered chat.mId)
    rw [hdb, hawaiting]
    split
    · exact ⟨rfl, rfl⟩
    · exact ⟨rfl, rfl⟩

theorem delivered_eq (pg : Engine) {tArg : ByteString} (hshort : tArg.length < 2 ^ 31)
    (hne : tArg ≠ []) (tReq : Request) (s : Server) :
    delivered pg tArg tReq s =
      match (findChats pg s (Search.splitOn [comma] tArg)).1 with
      | .error id => .ok (tReq.setData (textData (str "305 Invalid chat id " ++ id)),
          (findChats pg s (Search.splitOn [comma] tArg)).2)
      | .ok userChats => .ok (ControllerUtils.setRequestReply .r200 tReq,
          setAllDelivered (findChats pg s (Search.splitOn [comma] tArg)).2 userChats) := by
  have hsplit : StringUtils.split tArg (str ",") = .ok (Search.splitOn [comma] tArg) :=
    StringUtils.split_eq hshort (List.cons_ne_nil _ _)
  rw [delivered, if_neg hne, hsplit, ok_bind]
  generalize findChats pg s (Search.splitOn [comma] tArg) = found
  obtain ⟨result, t⟩ := found
  have hprefix : str "305 Invalid chat id" ++ str " " = str "305 Invalid chat id " := rfl
  cases result with
  | error id =>
    dsimp only
    rw [← hprefix]
    rfl
  | ok userChats => rfl

end ChatControllers

namespace Router

open Postgres ChatControllers

/-- The ids that a valid `DELIVERED` of an authenticated user looks up are numerals. -/
def PlainIds (raw : Message) (tReq : Request) (s : Server) : Prop :=
  tReq.mValid = true → raw.command = .delivered →
    (searchUserByToken s.db.toDatabase raw.word).mEmpty = false → raw.arguments ≠ [] →
      Plain s.db.chats (Search.splitOn [comma] raw.arguments)

theorem length_arguments_lt (raw : Message) : raw.arguments.length < 2 ^ 31 := by
  have hbody := raw.length_body_le
  have hle : raw.arguments.length ≤ raw.body.length :=
    Search.length_cutFirst_snd_le [space] raw.body
  have hshort := raw.short
  omega

section

variable {tReq : Request} {raw : Message}

theorem route_invalid (pg : Engine) (draw : Draw) (raw : Message) (s : Server)
    (h : tReq.mValid = false) :
    route pg draw (raw.request tReq) s = .ok (invalidCommand (raw.request tReq), s) := if_pos h

def asked (s : Server) (token : ByteString) : Server :=
  s.send .searchUserByToken (searchTokenText token)

theorem route_login (pg : Engine) (draw : Draw) (s : Server) (hvalid : tReq.mValid = true)
    (hlogin : requireLogin raw.command = true) :
    route pg draw (raw.request tReq) s =
      if (searchUserByToken s.db.toDatabase raw.word).mEmpty then
        .ok (ControllerUtils.setRequestReply .r202 (raw.request tReq), asked s raw.word)
      else if validateArgument raw.command raw.arguments then
        controllers pg draw raw.command raw.arguments
          { raw.request tReq with mToken := raw.word } (asked s raw.word)
      else .ok (invalidCommand (raw.request tReq), asked s raw.word) := by
  have hinvalid : ¬(raw.request tReq).mValid = false := by
    intro hfalse
    rw [Message.request, Request.setData, hvalid] at hfalse
    cases hfalse
  rw [route, if_neg hinvalid, parse_request, ok_bind, if_pos hlogin]
  dsimp only
  rw [routeParsed, isLoggedin, if_pos hlogin, UserControllers.isValidToken]
  have hfirst : s.searchUserByToken raw.word =
      (searchUserByToken s.db.toDatabase raw.word, asked s raw.word) := rfl
  rw [hfirst]
  dsimp only
  by_cases hempty : (searchUserByToken s.db.toDatabase raw.word).mEmpty = true
  · rw [if_pos hempty, if_pos hempty]
  · rw [if_neg hempty, if_neg hempty]

def openOperands (raw : Message) : ByteString × ByteString :=
  if raw.command = .exit then (raw.body, []) else ([], raw.body)

theorem route_openOperands (pg : Engine) (draw : Draw) (s : Server) (hvalid : tReq.mValid = true)
    (hlogin : requireLogin raw.command = false) :
    route pg draw (raw.request tReq) s =
      if validateArgument raw.command (openOperands raw).2 then
        controllers pg draw raw.command (openOperands raw).2
          { raw.request tReq with mToken := (openOperands raw).1 } s
      else .ok (invalidCommand (raw.request tReq), s) := by
  have hinvalid : ¬(raw.request tReq).mValid = false := by
    intro hfalse
    rw [Message.request, Request.setData, hvalid] at hfalse
    cases hfalse
  have hopen : ¬requireLogin raw.command = true := by
    rw [hlogin]
    exact Bool.false_ne_true
  have hparsed : parse (raw.request tReq) =
      .ok (raw.command, (openOperands raw).1, (openOperands raw).2) := by
    rw [parse_request, if_neg hopen, openOperands]
    split
    · rfl
    · rfl
  rw [route, if_neg hinvalid, hparsed, ok_bind]
  dsimp only
  rw [routeParsed, isLoggedin, if_neg hopen]

theorem route_open (hvalid : tReq.mValid = true) (hlogin : requireLogin raw.command = false) :
    ∃ token arguments, ∀ (pg : Engine) (draw : Draw) (s : Server),
      route pg draw (raw.request tReq) s =
        if validateArgument raw.command arguments then
          controllers pg draw raw.command arguments { raw.request tReq with mToken := token } s
        else .ok (invalidCommand (raw.request tReq), s) :=
  ⟨(openOperands raw).1, (openOperands raw).2, fun pg draw s =>
    route_openOperands pg draw s hvalid hlogin⟩

theorem route_delivered (pg : Engine) (draw : Draw) (s : Server) (hvalid : tReq.mValid = true)
    (hcommand : raw.command = .delivered)
    (hstored : (searchUserByToken s.db.toDatabase raw.word).mEmpty = false) :
    route pg draw (raw.request tReq) s =
      delivered pg raw.arguments { raw.request tReq with mToken := raw.word }
        (asked s raw.word) := by
  have hlogin : requireLogin raw.command = true := by
    rw [hcommand]
    rfl
  have hvalidate : validateArgument raw.command raw.arguments = true := by
    rw [hcommand]
    rfl
  have hnonempty : ¬(searchUserByToken s.db.toDatabase raw.word).mEmpty = true :=
    ne_true_of_eq_false hstored
  rw [route_login pg draw s hvalid hlogin, if_neg hnonempty, if_pos hvalidate, hcommand]
  rfl

end

def unreadable : ChatRow := ⟨0, ⟨[], List.not_mem_nil⟩, 0, 0, false, none⟩

theorem route_answering (draw : Draw) {raw : Message} {tReq : Request} {s : Server}
    {answer : ByteString → Tables → Option (Tables × List ChatRow)} {after : Tables}
    (hanswer : ∀ term, answer term s.db = some (after, [unreadable])) (hvalid : tReq.mValid = true)
    (hcommand : raw.command = .delivered)
    (hstored : (searchUserByToken s.db.toDatabase raw.word).mEmpty = false)
    (hne : raw.arguments ≠ [])
    (hnumerals : ¬Plain s.db.chats (Search.splitOn [comma] raw.arguments)) :
    ∃ req s' userChats, route (Engine.basic.answering answer) draw (raw.request tReq) s =
        .ok (req, s') ∧ s'.db.toDatabase = after.toDatabase ∧
      s'.db.chats.entries = after.chats.entries.map fun row =>
        if delivers userChats row then { row with delivered := true } else row := by
  have hroute := route_delivered (Engine.basic.answering answer) draw s hvalid hcommand hstored
  rw [delivered_eq _ (length_arguments_lt raw) hne] at hroute
  have hafter : (findChats (Engine.basic.answering answer) (asked s raw.word)
      (Search.splitOn [comma] raw.arguments)).2.db = after :=
    findChats_answering Engine.basic hanswer rfl hnumerals
  rw [hroute]
  split
  · refine ⟨_, _, [], rfl, ?_, ?_⟩
    · rw [hafter]
    · rw [hafter]
      exact (List.map_id _).symm
  · next userChats hfound =>
    refine ⟨_, _, userChats, rfl, ?_, ?_⟩
    · rw [(setAllDelivered_others _ _).1, hafter]
    · rw [entries_setAllDelivered, hafter]

def morningTime : Timestamp := ⟨str "2022-08-27 10:00:00.25", by decide⟩

def twoUsers : Server where
  db :=
    { users := [⟨1, str "john", str "1234", true, some (str "10.0.0.1:4000")⟩,
        ⟨2, str "mario", str "5678", true, some (str "10.0.0.2:4000")⟩]
      tokens := [⟨1, some (str "abc")⟩, ⟨2, some (str "def")⟩]
      contacts := [⟨some 1, some 2⟩, ⟨some 2, some 1⟩]
      chats := ⟨[⟨7, morningTime, 1, 2, false, some (str "hi")⟩], List.nodup_singleton 7⟩ }
  awaiting := AwaitingUsers.empty
  queries := []

def sampleDraw : Draw := ⟨str "xyz", 3, 8, morningTime, 0⟩

def johnRequest : Request := Request.new (str "10.0.0.1:4000") true

def deliveredMessage : Message := ⟨str "DELIVERED abc 7", by decide⟩

end Router

end Skype
