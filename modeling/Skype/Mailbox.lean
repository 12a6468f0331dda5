import Skype.ChatLoading
import Skype.DeliveredChats
import Skype.Sessions

/-!
# The mailbox

The letters are what the replies tell: a `SEND` answered 200 stores a chat, a `DELIVERED`
answered 200 names ids. The table of chats holds them and nothing else over any run, and
`PENDING` and `CHAT` list what they should as long as its rows can be read.
-/

namespace Skype.Mailbox

open Library Postgres Router ControllerUtils

/-- The clock behind the timestamps, the order of a query, and the numbers that a `BIGINT`
is compared with. -/
structure Standard (pg : Engine) where
  instant : Timestamp → ℤ
  order_sorted : ∀ rows, (pg.order rows).Pairwise fun a b =>
    instant a.createdAt ≤ instant b.createdAt
  readId_numeral : ∀ term, IsNumeral term → pg.readId term =
    if Decimal.value term < 2 ^ 63 then some (Decimal.value term : ℤ) else none

/-- The chats as they were first seen, and the ids that were named. -/
structure Letters where
  stored : List ChatRow
  named : List ℤ

namespace Letters

def start (db : Tables) : Letters := ⟨db.chats.entries, []⟩

def mark (ids : List ℤ) (row : ChatRow) : ChatRow :=
  { row with delivered := row.delivered || decide (row.id ∈ ids) }

def rows (letters : Letters) : List ChatRow := letters.stored.map (mark letters.named)

def pending (letters : Letters) (userId : Int32) : List ChatRow :=
  letters.rows.filter fun row => row.recipientId = userId ∧ row.delivered = false

def pendingFrom (letters : Letters) (userId : Int32) (contact : ℤ) : List ChatRow :=
  (letters.pending userId).filter fun row => row.senderId.toInt = contact

def all (letters : Letters) (userId : Int32) : List ChatRow :=
  letters.rows.filter fun row => row.recipientId = userId ∨ row.senderId = userId

def store (letters : Letters) (row : ChatRow) : Letters :=
  { letters with stored := letters.stored ++ [row] }

def name (letters : Letters) (ids : List ℤ) : Letters :=
  { letters with named := letters.named ++ ids }

theorem mark_mark (first second : List ℤ) (row : ChatRow) :
    mark second (mark first row) = mark (first ++ second) row := by
  have hids : decide (row.id ∈ first ++ second) =
      (decide (row.id ∈ first) || decide (row.id ∈ second)) := by
    rw [Bool.eq_iff_iff]
    simp
  unfold mark
  dsimp only
  rw [hids, Bool.or_assoc]

theorem rows_name (letters : Letters) (ids : List ℤ) :
    (letters.name ids).rows = letters.rows.map (mark ids) := by
  rw [rows, rows, List.map_map]
  apply List.map_congr_left
  intro row hrow
  rw [Function.comp_apply, mark_mark]
  rfl

theorem rows_store (letters : Letters) {row : ChatRow} (h : row.id ∉ letters.named) :
    (letters.store row).rows = letters.rows ++ [row] := by
  have hrow : mark letters.named row = row := by simp [mark, h]
  rw [rows, store, List.map_append, List.map_singleton, hrow]
  rfl

end Letters

def idTexts (raw : Message) : List ByteString :=
  match raw.command with
  | .send => [(Search.cutFirst [space] raw.arguments).1]
  | .delivered => Search.splitOn [comma] raw.arguments
  | _ => [raw.arguments]

structure Event where
  draw : Draw
  raw : Message
  tReq : Request
  command : raw.command = .send ∨ raw.command = .delivered ∨ raw.command = .chat ∨
    raw.command = .pending
  decimal : raw.arguments ≠ [] → ∀ id ∈ idTexts raw, IsNumeral id

structure State where
  server : Server
  letters : Letters

def State.start (server : Server) : State := ⟨server, .start server.db⟩

namespace Event

def user (event : Event) (s : Server) : User := searchUserByToken s.db.toDatabase event.raw.word

def letter (event : Event) (sender : Int32) : ChatRow where
  id := event.draw.chatId
  createdAt := event.draw.createdAt
  senderId := sender
  recipientId := Int32.ofInt (Decimal.value (Search.cutFirst [space] event.raw.arguments).1)
  delivered := false
  text := some (Search.cutFirst [space] event.raw.arguments).2

def ids (event : Event) : List ℤ :=
  (Search.splitOn [comma] event.raw.arguments).map fun id => (Decimal.value id : ℤ)

def record (event : Event) (sender : Int32) (reply : Request) (letters : Letters) : Letters :=
  if reply.mData = some (textData (Reply.getMessage .r200)) then
    match event.raw.command with
    | .send => letters.store (event.letter sender)
    | .delivered => letters.name event.ids
    | _ => letters
  else letters

end Event

def step (pg : Engine) (s : State) (event : Event) : Exec State := do
  let (reply, server) ← route pg event.draw (event.raw.request event.tReq) s.server
  return ⟨server, event.record (event.user s.server).mId reply s.letters⟩

def Succeeds (pg : Engine) (s : Server) (event : Event) : Prop :=
  event.tReq.mValid = true → event.raw.command = .send → (event.user s).mEmpty = false →
    (searchUserBy pg s.db.toDatabase (Search.cutFirst [space] event.raw.arguments).1 .id).mEmpty =
      false →
    pg.takesText (Search.cutFirst [space] event.raw.arguments).2 = true ∧
      s.db.chats.find? event.draw.chatId = none

def asks (s : State) (event : Event) : Option (List ChatRow) :=
  if event.tReq.mValid = true ∧ (event.user s.server).mEmpty = false then
    match event.raw.command with
    | .pending =>
      if event.raw.arguments = [] then some (s.letters.pending (event.user s.server).mId)
      else if (Decimal.value event.raw.arguments : ℤ) ∈ s.server.db.users.map UserRow.id then
        some (s.letters.pendingFrom (event.user s.server).mId (Decimal.value event.raw.arguments))
      else none
    | .chat =>
      if event.raw.arguments = [] then some (s.letters.all (event.user s.server).mId) else none
    | _ => none
  else none

def Lists (instant : Timestamp → ℤ) (reply : Request) (rows : List ChatRow) : Prop :=
  ∃ (listed : List ChatRow) (chats : List UserChat),
    listed.Perm rows ∧ (listed.map ChatRow.id).Nodup ∧
    (listed.Pairwise fun a b => instant a.createdAt ≤ instant b.createdAt) ∧
    listed.map rowToChat = chats.map some ∧
    reply.mData = some (textData (str "201 " ++ ChatControllers.buildResponse chats))

def Answers (pg : Engine) (instant : Timestamp → ℤ) (s : State) (event : Event) : Prop :=
  ∀ rows ∈ asks s event, ∃ reply server,
    route pg event.draw (event.raw.request event.tReq) s.server = .ok (reply, server) ∧
      Lists instant reply rows

def InRange (id : ℤ) : Prop := -2 ^ 31 ≤ id ∧ id < 2 ^ 31

def CanRead (s : State) (event : Event) : Prop :=
  ∀ rows ∈ asks s event, (∀ row ∈ rows, InRange row.id ∧ row.text ≠ none) ∧
    (event.raw.arguments ≠ [] → InRange (Decimal.value event.raw.arguments))

instance (id : ℤ) : Decidable (InRange id) := inferInstanceAs (Decidable (_ ∧ _))

instance (s : State) (event : Event) : Decidable (CanRead s event) :=
  inferInstanceAs (Decidable (∀ rows ∈ asks s event,
    (∀ row ∈ rows, InRange row.id ∧ row.text ≠ none) ∧
      (event.raw.arguments ≠ [] → InRange (Decimal.value event.raw.arguments))))

instance (pg : Engine) (s : Server) (event : Event) : Decidable (Succeeds pg s event) :=
  inferInstanceAs (Decidable (_ = _ → _ = _ → _ = _ → _ = _ → _ ∧ _))

theorem isSome_toInt_iff {id : ℤ} : (toInt id).isSome = true ↔ InRange id := by
  unfold toInt InRange
  split
  · next h => exact iff_of_true rfl h
  · next h => exact iff_of_false Bool.false_ne_true h

theorem isSome_rowToChat_iff {row : ChatRow} :
    (rowToChat row).isSome = true ↔ InRange row.id ∧ row.text ≠ none := by
  rw [← isSome_toInt_iff, rowToChat]
  cases toInt row.id with
  | none => simp
  | some id =>
    cases row.text with
    | none => simp
    | some text => simp

theorem map_some_rowsToChats {rows : List ChatRow}
    (h : ∀ row ∈ rows, (rowToChat row).isSome = true) :
    rows.map rowToChat = (rowsToChats rows).map some := by
  induction rows with
  | nil => rfl
  | cons row rows ih =>
    obtain ⟨chat, hread⟩ := Option.isSome_iff_exists.mp (h row List.mem_cons_self)
    rw [List.map_cons, rowsToChats, hread]
    dsimp only
    rw [List.map_cons, ih fun other hother => h other (List.mem_cons_of_mem row hother)]

section

variable {pg : Engine} {db : Database} {term : ByteString}

theorem searchUserBy_numeral (standard : Standard pg) (hids : (db.users.map UserRow.id).Nodup)
    (hterm : IsNumeral term) :
    ((searchUserBy pg db term .id).mEmpty = false ↔
        (Decimal.value term : ℤ) ∈ db.users.map UserRow.id ∧ InRange (Decimal.value term)) ∧
      ((searchUserBy pg db term .id).mEmpty = false →
        (searchUserBy pg db term .id).mId = Int32.ofInt (Decimal.value term)) := by
  have hread := standard.readId_numeral term hterm
  by_cases hbig : Decimal.value term < 2 ^ 63
  · rw [if_pos hbig] at hread
    have hreads : db.users.filter (UserField.reads pg .id term) =
        db.users.filter fun row => row.id = (Decimal.value term : ℤ) := by
      apply List.filter_congr
      intro row hrow
      rw [UserField.reads, hread, Bool.eq_iff_iff, beq_iff_eq, Option.some.injEq,
        decide_eq_true_eq]
      exact eq_comm
    rw [searchUserBy, hreads]
    by_cases hmem : (Decimal.value term : ℤ) ∈ db.users.map UserRow.id
    · obtain ⟨row, hrow, hid⟩ := List.mem_map.mp hmem
      rw [← hid, Keyed.filter_key hids hrow]
      dsimp only [exec1]
      rw [← isSome_toInt_iff, rowToUser]
      unfold toInt
      split
      · exact ⟨iff_of_true rfl ⟨List.mem_map_of_mem hrow, rfl⟩, fun _ => rfl⟩
      · rw [Option.map_none, Option.getD_none]
        exact ⟨iff_of_false (by decide) (by simp), fun h => absurd h (by decide)⟩
    · have hnone : (db.users.filter fun row => row.id = (Decimal.value term : ℤ)) = [] := by
        apply List.filter_eq_nil_iff.mpr
        intro row hrow hid
        exact hmem (List.mem_map.mpr ⟨row, hrow, of_decide_eq_true hid⟩)
      rw [hnone]
      exact ⟨iff_of_false (by decide) fun h => hmem h.1, fun h => absurd h (by decide)⟩
  · rw [if_neg hbig] at hread
    have hnone : db.users.filter (UserField.reads pg .id term) = [] := by
      apply List.filter_eq_nil_iff.mpr
      intro row hrow
      rw [UserField.reads, hread]
      simp
    rw [searchUserBy, hnone]
    refine ⟨iff_of_false (by decide) ?_, fun h => absurd h (by decide)⟩
    rintro ⟨-, -, hrange⟩
    omega

end

structure Tracks (s : State) : Prop where
  rows : s.server.db.chats.entries = s.letters.rows
  named : ∀ id ∈ s.letters.named, id ∈ s.letters.stored.map ChatRow.id
  users : (s.server.db.users.map UserRow.id).Nodup

section

variable {pg : Engine} {s : State} {event : Event} {rows : List ChatRow}

theorem isSome_of_lists {instant : Timestamp → ℤ} {reply : Request}
    (h : Lists instant reply rows) : ∀ row ∈ rows, InRange row.id ∧ row.text ≠ none := by
  obtain ⟨listed, chats, hperm, -, -, hread, -⟩ := h
  intro row hrow
  have hmem : rowToChat row ∈ chats.map some := by
    rw [← hread]
    exact List.mem_map_of_mem (hperm.mem_iff.mpr hrow)
  obtain ⟨chat, -, hchat⟩ := List.mem_map.mp hmem
  rw [← isSome_rowToChat_iff, ← hchat]
  rfl

theorem lists_iff (standard : Standard pg) {db : Tables} {userId : Int32} {tPending : Bool}
    {tSender : Option Int32} {reply : Request}
    (hrows : db.chats.entries.filter (listsChat userId tPending tSender) = rows)
    (hreply : reply.mData = some (textData (str "201 " ++ ChatControllers.buildResponse
      (listUserChats pg db userId tPending tSender)))) :
    Lists standard.instant reply rows ↔ ∀ row ∈ rows, InRange row.id ∧ row.text ≠ none := by
  refine ⟨isSome_of_lists, ?_⟩
  intro hread
  have hperm := pg.order_perm rows
  refine ⟨pg.order rows, listUserChats pg db userId tPending tSender, hperm, ?_,
    standard.order_sorted rows, ?_, hreply⟩
  · rw [(hperm.map ChatRow.id).nodup_iff, ← hrows]
    exact db.chats.nodup.sublist (List.filter_sublist.map ChatRow.id)
  · rw [listUserChats, hrows]
    apply map_some_rowsToChats
    intro row hrow
    exact isSome_rowToChat_iff.mpr (hread row (hperm.mem_iff.mp hrow))

theorem filter_pending (letters : Letters) (userId : Int32) :
    letters.rows.filter (listsChat userId true none) = letters.pending userId := by
  apply List.filter_congr
  intro row hrow
  rw [Bool.eq_iff_iff]
  simp [listsChat]

theorem filter_pendingFrom (letters : Letters) (userId : Int32) {contact : ℤ}
    (h : InRange contact) :
    letters.rows.filter (listsChat userId true (some (Int32.ofInt contact))) =
      letters.pendingFrom userId contact := by
  rw [Letters.pendingFrom, Letters.pending, List.filter_filter]
  apply List.filter_congr
  intro row hrow
  have hcontact : (Int32.ofInt contact).toInt = contact := Int32.toInt_ofInt_of_le h.1 h.2
  have hsender : row.senderId = Int32.ofInt contact ↔ row.senderId.toInt = contact := by
    rw [← Int32.toInt_inj, hcontact]
  rw [Bool.eq_iff_iff]
  simp only [listsChat, Option.all_some, Option.isNone_some, Bool.not_true, Bool.false_and,
    Bool.or_false, Bool.false_or, Bool.and_eq_true, beq_iff_eq, Bool.not_eq_true',
    decide_eq_true_eq, hsender]
  tauto

theorem filter_all (letters : Letters) (userId : Int32) :
    letters.rows.filter (listsChat userId false none) = letters.all userId := by
  apply List.filter_congr
  intro row hrow
  rw [Bool.eq_iff_iff]
  simp [listsChat]

theorem exists_reply_iff {P : Request → Prop} {reply : Request} {result : Exec (Request × Server)}
    (h : result.map Prod.fst = .ok reply) :
    (∃ req server, result = .ok (req, server) ∧ P req) ↔ P reply := by
  cases result with
  | error e => cases h
  | ok answer =>
    obtain rfl := Except.ok.inj h
    constructor
    · rintro ⟨req, server, hresult, hreq⟩
      rw [Except.ok.inj hresult]
      exact hreq
    · intro hreq
      exact ⟨answer.1, answer.2, rfl, hreq⟩

theorem not_lists_r304 {instant : Timestamp → ℤ} {tReq : Request} :
    ¬Lists instant (setRequestReply .r304 tReq) rows := by
  rintro ⟨listed, chats, -, -, -, -, hreply⟩
  have htext : Reply.getMessage .r304 = str "201 " ++ ChatControllers.buildResponse chats :=
    congrArg Data.bytes (Option.some.inj hreply)
  have hhead := congrArg List.head? htext
  have hcode : (str "201 " ++ ChatControllers.buildResponse chats).head? = some 50 := rfl
  rw [hcode] at hhead
  exact absurd hhead (by decide)

theorem answers_iff (standard : Standard pg) (h : Tracks s) :
    Answers pg standard.instant s event ↔ CanRead s event := by
  apply forall₂_congr
  intro rows hasks
  unfold asks at hasks
  split at hasks
  · next hlogin =>
    obtain ⟨hvalid, hstored⟩ := hlogin
    have hnonempty : ¬(searchUserByToken s.server.db.toDatabase event.raw.word).mEmpty = true :=
      ne_true_of_eq_false hstored
    split at hasks
    · next hcommand =>
      have hreply := ChatLoading.route_getChats pg event.draw (Or.inr hcommand) hvalid hstored
      have hflag : decide (event.raw.command = .pending) = true := decide_eq_true hcommand
      rw [exists_reply_iff hreply, ChatControllers.chatsReply, if_neg hnonempty, hflag]
      split at hasks
      · next hall =>
        obtain rfl := Option.some.inj hasks
        rw [if_pos hall, lists_iff standard (by rw [h.rows, filter_pending]; rfl) rfl]
        simp [hall]
      · next hone =>
        rw [if_neg hone]
        split at hasks
        · next hexists =>
          obtain rfl := Option.some.inj hasks
          have hnumeral : IsNumeral event.raw.arguments := by
            have hdecimal := event.decimal hone
            rw [idTexts, hcommand] at hdecimal
            exact hdecimal _ (List.mem_singleton_self _)
          obtain ⟨hfound, hid⟩ := searchUserBy_numeral standard h.users hnumeral
          dsimp only
          by_cases hrange : InRange (Decimal.value event.raw.arguments)
          · have hcontact := hfound.mpr ⟨hexists, hrange⟩
            rw [if_neg (ne_true_of_eq_false hcontact), hid hcontact,
              lists_iff standard (by rw [h.rows, filter_pendingFrom _ _ hrange]; rfl) rfl]
            exact (and_iff_left fun _ => hrange).symm
          · have hempty : (searchUserBy pg s.server.db.toDatabase event.raw.arguments
                .id).mEmpty = true :=
              eq_true_of_ne_false fun hcontact => hrange (hfound.mp hcontact).2
            rw [if_pos hempty]
            exact iff_of_false not_lists_r304 fun hboth => hrange (hboth.2 hone)
        · cases hasks
    · next hcommand =>
      have hreply := ChatLoading.route_getChats pg event.draw (Or.inl hcommand) hvalid hstored
      have hflag : decide (event.raw.command = .pending) = false := by
        rw [hcommand]
        rfl
      rw [exists_reply_iff hreply, ChatControllers.chatsReply, if_neg hnonempty, hflag]
      split at hasks
      · next hall =>
        obtain rfl := Option.some.inj hasks
        rw [if_pos hall, lists_iff standard (by rw [h.rows, filter_all]; rfl) rfl]
        simp [hall]
      · cases hasks
    · cases hasks
  · cases hasks

end

/-! ### `DELIVERED` -/

section

variable {chats : Keyed ChatRow.id} {ids : List ByteString}

theorem plain_of_numerals (h : ∀ id ∈ ids, IsNumeral id) : ChatControllers.Plain chats ids := by
  induction ids with
  | nil => trivial
  | cons id ids ih =>
    refine ⟨h id List.mem_cons_self, fun _ => ih ?_⟩
    intro other hother
    exact h other (List.mem_cons_of_mem id hother)

theorem delivers_mark {userChats : List UserChat}
    (h : ChatControllers.namedChats chats ids = .ok userChats) {row : ChatRow}
    (hrow : row ∈ chats.entries) :
    (if ChatControllers.delivers userChats row then { row with delivered := true } else row) =
      Letters.mark (ids.map fun id => (Decimal.value id : ℤ)) row := by
  have hdelivers := delivers_iff (namedChats_rows h) hrow
  obtain ⟨rfl, hfound⟩ := namedChats_ok h
  by_cases hid : row.id ∈ ids.map fun id => (Decimal.value id : ℤ)
  · have hmark : Letters.mark (ids.map fun id => (Decimal.value id : ℤ)) row =
        { row with delivered := true } := by
      simp only [Letters.mark, hid, decide_true, Bool.or_true]
    rw [hmark]
    by_cases hset : row.delivered = true
    · have hsame : { row with delivered := true } = row := by rw [← hset]
      rw [hsame, ite_self]
    · rw [if_pos]
      obtain ⟨id, hin, hvalue⟩ := List.mem_map.mp hid
      obtain ⟨named, hnamed, hnamedId, hread⟩ := numeralChat_named (hfound id hin)
      have hsame : named = row :=
        List.inj_on_of_nodup_map chats.nodup hnamed hrow (hnamedId.trans hvalue)
      rw [hsame] at hread
      refine hdelivers.mpr ⟨_, List.mem_map_of_mem hin, ?_, hread⟩
      rw [(rowToChat_fields hread).2.2.2.1]
      exact Bool.eq_false_of_not_eq_true hset
  · have hmark : Letters.mark (ids.map fun id => (Decimal.value id : ℤ)) row = row := by
      simp only [Letters.mark, hid, decide_false, Bool.or_false]
    rw [hmark, if_neg]
    intro hset
    obtain ⟨chat, hchat, -, hread⟩ := hdelivers.mp hset
    obtain ⟨id, hin, rfl⟩ := List.mem_map.mp hchat
    obtain ⟨named, hnamed, hnamedId, hnamedRead⟩ := numeralChat_named (hfound id hin)
    apply hid
    rw [← (rowToChat_fields hread).1, (rowToChat_fields hnamedRead).1, hnamedId]
    exact List.mem_map_of_mem hin

end

section

variable {pg : Engine} {draw : Draw} {tArg : ByteString} {tReq reply : Request} {s server : Server}

theorem delivered_spec (hshort : tArg.length < 2 ^ 31) (hne : tArg ≠ [])
    (hids : ∀ id ∈ Search.splitOn [comma] tArg, IsNumeral id)
    (h : ChatControllers.delivered pg tArg tReq s = .ok (reply, server)) :
    (reply.mData ≠ some (textData (Reply.getMessage .r200)) ∧ server.db = s.db) ∨
      reply.mData = some (textData (Reply.getMessage .r200)) ∧
      server.db.chats.entries = s.db.chats.entries.map
        (Letters.mark ((Search.splitOn [comma] tArg).map fun id => (Decimal.value id : ℤ))) ∧
      ∀ id ∈ (Search.splitOn [comma] tArg).map fun id => (Decimal.value id : ℤ),
        id ∈ s.db.chats.entries.map ChatRow.id := by
  obtain ⟨hfound, hdb⟩ := ChatControllers.findChats_plain pg (plain_of_numerals hids)
  rw [ChatControllers.delivered_eq pg hshort hne, hfound] at h
  split at h
  · next id hrefused =>
    left
    obtain ⟨rfl, rfl⟩ := Prod.mk.inj (Except.ok.inj h)
    refine ⟨?_, hdb⟩
    intro hreply
    have htext : str "305 Invalid chat id " ++ id = Reply.getMessage .r200 :=
      congrArg Data.bytes (Option.some.inj hreply)
    have hhead := congrArg List.head? htext
    have hcode : (str "305 Invalid chat id " ++ id).head? = some 51 := rfl
    rw [hcode] at hhead
    exact absurd hhead (by decide)
  · next userChats hnamed =>
    right
    obtain ⟨rfl, rfl⟩ := Prod.mk.inj (Except.ok.inj h)
    refine ⟨rfl, ?_, ?_⟩
    · rw [ChatControllers.entries_setAllDelivered, hdb]
      apply List.map_congr_left
      intro row hrow
      exact delivers_mark hnamed hrow
    · intro id hid
      obtain ⟨text, htext, rfl⟩ := List.mem_map.mp hid
      obtain ⟨row, hrow, hvalue, -⟩ := numeralChat_named ((namedChats_ok hnamed).2 text htext)
      rw [← hvalue]
      exact List.mem_map_of_mem hrow

/-! ### `SEND` -/

theorem send_spec (hshort : tArg.length < 2 ^ 31)
    (h : ChatControllers.send pg draw tArg tReq s = .ok (reply, server)) :
    (reply.mData ≠ some (textData (Reply.getMessage .r200)) ∧ server.db = s.db) ∨
      reply.mData = some (textData (Reply.getMessage .r200)) ∧
      (searchUserByToken s.db.toDatabase tReq.mToken).mEmpty = false ∧
      (searchUserBy pg s.db.toDatabase (Search.cutFirst [space] tArg).1 .id).mEmpty = false ∧
      server.db = addUserChat pg draw s.db
        ⟨0, [], (searchUserByToken s.db.toDatabase tReq.mToken).mId,
          (searchUserBy pg s.db.toDatabase (Search.cutFirst [space] tArg).1 .id).mId,
          (Search.cutFirst [space] tArg).2, false, false⟩ := by
  rw [ChatControllers.send, splitFirst_space hshort, ok_bind] at h
  have htoken : (if (Search.cutFirst [space] tArg).2 = [] then setRequestReply .r502 tReq
      else tReq).mToken = tReq.mToken := by
    split
    · rfl
    · rfl
  have hsender : s.searchUserByToken tReq.mToken =
      (searchUserByToken s.db.toDatabase tReq.mToken, asked s tReq.mToken) := rfl
  dsimp only at h
  rw [htoken, hsender] at h
  dsimp only at h
  have hrecipient : (asked s tReq.mToken).searchUserBy pg (Search.cutFirst [space] tArg).1 .id =
      (searchUserBy pg s.db.toDatabase (Search.cutFirst [space] tArg).1 .id,
        (asked s tReq.mToken).send (.searchUserBy .id)
          (searchUserText (Search.cutFirst [space] tArg).1 .id)) := rfl
  rw [hrecipient] at h
  dsimp only at h
  split at h
  · next hboth =>
    right
    obtain ⟨rfl, rfl⟩ := Prod.mk.inj (Except.ok.inj h)
    exact ⟨rfl, hboth.1, hboth.2, rfl⟩
  · left
    obtain ⟨rfl, rfl⟩ := Prod.mk.inj (Except.ok.inj h)
    have hrefused : Reply.getMessage .r303 ≠ Reply.getMessage .r200 := by decide
    refine ⟨?_, rfl⟩
    intro hreply
    exact hrefused (congrArg Data.bytes (Option.some.inj hreply))

end

section

variable {pg : Engine} {s : Server} {event : Event} {reply : Request} {server : Server}

theorem Event.requireLogin (event : Event) : Router.requireLogin event.raw.command = true := by
  rcases event.command with hcommand | hcommand | hcommand | hcommand
  · rw [hcommand]
    rfl
  · rw [hcommand]
    rfl
  · rw [hcommand]
    rfl
  · rw [hcommand]
    rfl

theorem Event.plainIds (event : Event) (s : Server) : PlainIds event.raw event.tReq s := by
  intro _ hcommand _ hne
  have hdecimal := event.decimal hne
  rw [idTexts, hcommand] at hdecimal
  exact plain_of_numerals hdecimal

theorem route_cases
    (h : route pg event.draw (event.raw.request event.tReq) s = .ok (reply, server)) :
    (reply.mData ≠ some (textData (Reply.getMessage .r200)) ∧ server.db = s.db) ∨
      event.tReq.mValid = true ∧ (event.user s).mEmpty = false ∧
      validateArgument event.raw.command event.raw.arguments = true ∧
      controllers pg event.draw event.raw.command event.raw.arguments
        { event.raw.request event.tReq with mToken := event.raw.word }
        (asked s event.raw.word) = .ok (reply, server) := by
  have hrefused : ∀ (code : Reply.Code) (tReq : Request) (t : Server),
      Reply.getMessage code ≠ Reply.getMessage .r200 → t.db = s.db →
      (.ok (setRequestReply code tReq, t) : Exec (Request × Server)) = .ok (reply, server) →
      reply.mData ≠ some (textData (Reply.getMessage .r200)) ∧ server.db = s.db := by
    intro code tReq t hcode hdb hreply
    obtain ⟨rfl, rfl⟩ := Prod.mk.inj (Except.ok.inj hreply)
    exact ⟨fun hdata => hcode (congrArg Data.bytes (Option.some.inj hdata)), hdb⟩
  cases hvalid : event.tReq.mValid with
  | false =>
    rw [route_invalid pg event.draw event.raw s hvalid] at h
    exact Or.inl (hrefused .r501 _ s (by decide) rfl h)
  | true =>
    rw [route_login pg event.draw s hvalid event.requireLogin] at h
    split at h
    · exact Or.inl (hrefused .r202 _ (asked s event.raw.word) (by decide) rfl h)
    · next hstored =>
      split at h
      · next hvalidate =>
        exact Or.inr ⟨rfl, Bool.eq_false_of_not_eq_true hstored, hvalidate, h⟩
      · exact Or.inl (hrefused .r501 _ (asked s event.raw.word) (by decide) rfl h)

theorem record_of_ne {sender : Int32} {letters : Letters}
    (h : reply.mData ≠ some (textData (Reply.getMessage .r200))) :
    event.record sender reply letters = letters := if_neg h

theorem db_reads : Reads fun a b => b.db = a.db where
  refl _ := rfl
  trans hab hbc := hbc.trans hab
  searchUserByToken _ _ := rfl
  searchUserBy _ _ _ _ := rfl
  listUserContacts _ _ := rfl
  listUserChats _ _ _ _ _ := rfl
  userContactExists _ _ _ := rfl

theorem Letters.map_id_rows (letters : Letters) :
    letters.rows.map ChatRow.id = letters.stored.map ChatRow.id := by
  rw [Letters.rows, List.map_map]
  rfl

end

section

variable {pg : Engine} {s : State} {event : Event} {reply : Request} {server : Server}

theorem chats_addUserChat {draw : Draw} {db : Tables} {chat : UserChat}
    (hfresh : db.chats.find? draw.chatId = none) (htakes : pg.takesText chat.mText = true) :
    (addUserChat pg draw db chat).chats.entries = db.chats.entries ++
      [⟨draw.chatId, draw.createdAt, chat.mSender, chat.mRecipient, chat.mDelivered,
        some chat.mText⟩] := by
  rw [addUserChat, if_neg]
  · exact Keyed.entries_insert hfresh
  · rw [hfresh, htakes]
    decide

def Letters.InTable (letters : Letters) (server : Server) : Prop :=
  server.db.chats.entries = letters.rows ∧
    ∀ id ∈ letters.named, id ∈ letters.stored.map ChatRow.id

theorem record_unchanged (h : Tracks s) (hdb : server.db = s.server.db) {letters : Letters}
    (hletters : letters = s.letters) : letters.InTable server := by
  rw [Letters.InTable, hdb, hletters]
  exact ⟨h.rows, h.named⟩

theorem record_listed {sender : Int32} {letters : Letters}
    (hcommand : event.raw.command = .chat ∨ event.raw.command = .pending) :
    event.record sender reply letters = letters := by
  rw [Event.record]
  rcases hcommand with hcommand | hcommand
  · rw [hcommand]
    exact ite_self letters
  · rw [hcommand]
    exact ite_self letters

theorem record_send (standard : Standard pg) (h : Tracks s)
    (hsucceeds : Succeeds pg s.server event) (hvalid : event.tReq.mValid = true)
    (hstored : (event.user s.server).mEmpty = false) (hcommand : event.raw.command = .send)
    (hne : event.raw.arguments ≠ [])
    (hsend : ChatControllers.send pg event.draw event.raw.arguments
      { event.raw.request event.tReq with mToken := event.raw.word }
      (asked s.server event.raw.word) = .ok (reply, server)) :
    (event.record (event.user s.server).mId reply s.letters).InTable server := by
  rcases send_spec (length_arguments_lt event.raw) hsend with
    ⟨hreply, hdb⟩ | ⟨hreply, -, hfound, hdb⟩
  · have hsame : server.db = s.server.db := hdb
    exact record_unchanged h hsame (record_of_ne hreply)
  · have hnumeral := event.decimal hne
    rw [idTexts, hcommand] at hnumeral
    have hrecipient := (searchUserBy_numeral standard h.users
      (hnumeral _ (List.mem_singleton_self _))).2 hfound
    obtain ⟨htakes, hfresh⟩ := hsucceeds hvalid hcommand hstored hfound
    have hrecord : event.record (event.user s.server).mId reply s.letters =
        s.letters.store (event.letter (event.user s.server).mId) := by
      rw [Event.record, if_pos hreply, hcommand]
    have hnew : event.draw.chatId ∉ s.server.db.chats.entries.map ChatRow.id :=
      (Keyed.find?_eq_none_iff _ _).mp hfresh
    have hentries : server.db.chats.entries =
        s.server.db.chats.entries ++ [event.letter (event.user s.server).mId] := by
      have hsent : server.db = addUserChat pg event.draw s.server.db
          ⟨0, [], (event.user s.server).mId,
            (searchUserBy pg s.server.db.toDatabase
              (Search.cutFirst [space] event.raw.arguments).1 .id).mId,
            (Search.cutFirst [space] event.raw.arguments).2, false, false⟩ := hdb
      rw [hsent, hrecipient, chats_addUserChat hfresh htakes]
      rfl
    have hunnamed : event.draw.chatId ∉ s.letters.named := by
      intro hmem
      rw [h.rows, Letters.map_id_rows] at hnew
      exact hnew (h.named _ hmem)
    rw [Letters.InTable, hrecord, hentries, h.rows, Letters.rows_store _ hunnamed]
    refine ⟨rfl, ?_⟩
    intro id hid
    rw [Letters.store, List.map_append]
    exact List.mem_append_left _ (h.named id hid)

theorem record_delivered (h : Tracks s) (hcommand : event.raw.command = .delivered)
    (hdelivered : ChatControllers.delivered pg event.raw.arguments
      { event.raw.request event.tReq with mToken := event.raw.word }
      (asked s.server event.raw.word) = .ok (reply, server)) :
    (event.record (event.user s.server).mId reply s.letters).InTable server := by
  by_cases hne : event.raw.arguments = []
  · rw [ChatControllers.delivered, if_pos hne] at hdelivered
    obtain ⟨rfl, rfl⟩ := Prod.mk.inj (Except.ok.inj hdelivered)
    have hcode : Reply.getMessage .r502 ≠ Reply.getMessage .r200 := by decide
    apply record_unchanged h rfl
    exact record_of_ne fun hdata => hcode (congrArg Data.bytes (Option.some.inj hdata))
  · have hids := event.decimal hne
    rw [idTexts, hcommand] at hids
    rcases delivered_spec (length_arguments_lt event.raw) hne hids hdelivered with
      ⟨hreply, hdb⟩ | ⟨hreply, hentries, hnamed⟩
    · have hsame : server.db = s.server.db := hdb
      exact record_unchanged h hsame (record_of_ne hreply)
    · have hrecord : event.record (event.user s.server).mId reply s.letters =
          s.letters.name event.ids := by
        rw [Event.record, if_pos hreply, hcommand]
      have hrows : (asked s.server event.raw.word).db.chats.entries = s.letters.rows := h.rows
      rw [Letters.InTable, hrecord, hentries, Letters.rows_name, hrows]
      refine ⟨rfl, ?_⟩
      intro id hid
      rcases List.mem_append.mp hid with hold | hnow
      · exact h.named id hold
      · have hin := hnamed id hnow
        rw [hrows, Letters.map_id_rows] at hin
        exact hin

theorem record_rows (standard : Standard pg) (h : Tracks s)
    (hsucceeds : Succeeds pg s.server event)
    (hroute : route pg event.draw (event.raw.request event.tReq) s.server = .ok (reply, server)) :
    (event.record (event.user s.server).mId reply s.letters).InTable server := by
  rcases route_cases hroute with ⟨hreply, hdb⟩ | ⟨hvalid, hstored, hvalidate, hcontrol⟩
  · exact record_unchanged h hdb (record_of_ne hreply)
  · rcases event.command with hcommand | hcommand | hcommand | hcommand
    · rw [hcommand] at hcontrol hvalidate
      have hne : event.raw.arguments ≠ [] := by
        intro hnil
        rw [hnil] at hvalidate
        exact absurd hvalidate (by decide)
      exact record_send standard h hsucceeds hvalid hstored hcommand hne hcontrol
    · rw [hcommand] at hcontrol
      exact record_delivered h hcommand hcontrol
    · rw [hcommand] at hcontrol
      have hcontroller : ChatControllers.getChats pg event.raw.arguments
          { event.raw.request event.tReq with mToken := event.raw.word } false
          (asked s.server event.raw.word) = .ok (reply, server) := hcontrol
      have hdb := db_reads.getChats hcontroller
      exact record_unchanged h hdb (record_listed (Or.inl hcommand))
    · rw [hcommand] at hcontrol
      have hcontroller : ChatControllers.getChats pg event.raw.arguments
          { event.raw.request event.tReq with mToken := event.raw.word } true
          (asked s.server event.raw.word) = .ok (reply, server) := hcontrol
      have hdb := db_reads.getChats hcontroller
      exact record_unchanged h hdb (record_listed (Or.inr hcommand))

theorem tracks_step (standard : Standard pg) {t : State} (h : Tracks s)
    (hsucceeds : Succeeds pg s.server event) (hstep : step pg s event = .ok t) : Tracks t := by
  obtain ⟨⟨reply, server⟩, hroute, hstep⟩ := bind_eq_ok.mp hstep
  obtain rfl := Except.ok.inj hstep
  obtain ⟨hrows, hnamed⟩ := record_rows standard h hsucceeds hroute
  have husers := (Sessions.route_sessions (event.plainIds s.server) hroute).1
  rw [Sessions.written_of_login event.requireLogin] at husers
  refine ⟨hrows, hnamed, ?_⟩
  rw [husers]
  exact h.users

theorem tracks_start (server : Server) (hids : (server.db.users.map UserRow.id).Nodup) :
    Tracks (State.start server) := by
  refine ⟨?_, ?_, hids⟩
  · have hmark : Letters.mark [] = id := by
      funext row
      simp [Letters.mark]
    have hrows : (State.start server).letters.rows =
        server.db.chats.entries.map (Letters.mark []) := rfl
    rw [hrows, hmark, List.map_id]
    rfl
  · intro id hid
    exact absurd hid List.not_mem_nil

theorem getChats_ok (pg : Engine) (tArg : ByteString) (tReq : Request) (tPending : Bool)
    (s : Server) : ∃ reply server,
      ChatControllers.getChats pg tArg tReq tPending s = .ok (reply, server) := by
  have hreply := ChatControllers.getChats_reply pg tArg tReq tPending s
  obtain ⟨reply, server, hresult, -⟩ := (exists_reply_iff (P := fun _ => True) hreply).mpr trivial
  exact ⟨reply, server, hresult⟩

theorem send_ok (pg : Engine) (draw : Draw) {tArg : ByteString} (hshort : tArg.length < 2 ^ 31)
    (tReq : Request) (s : Server) :
    ∃ reply server, ChatControllers.send pg draw tArg tReq s = .ok (reply, server) := by
  rw [ChatControllers.send, splitFirst_space hshort, ok_bind]
  dsimp only
  generalize (if (Search.cutFirst [space] tArg).2 = [] then setRequestReply .r502 tReq
    else tReq) = answered
  split
  · exact ⟨_, _, rfl⟩
  · exact ⟨_, _, rfl⟩

theorem delivered_ok (pg : Engine) {tArg : ByteString} (hshort : tArg.length < 2 ^ 31)
    (tReq : Request) (s : Server) :
    ∃ reply server, ChatControllers.delivered pg tArg tReq s = .ok (reply, server) := by
  by_cases hne : tArg = []
  · rw [ChatControllers.delivered, if_pos hne]
    exact ⟨_, _, rfl⟩
  · rw [ChatControllers.delivered_eq pg hshort hne]
    split
    · exact ⟨_, _, rfl⟩
    · exact ⟨_, _, rfl⟩

theorem route_ok (pg : Engine) (s : Server) (event : Event) :
    ∃ reply server, route pg event.draw (event.raw.request event.tReq) s = .ok (reply, server) := by
  have hshort := length_arguments_lt event.raw
  cases hvalid : event.tReq.mValid with
  | false => exact ⟨_, _, route_invalid pg event.draw event.raw s hvalid⟩
  | true =>
    rw [route_login pg event.draw s hvalid event.requireLogin]
    split
    · exact ⟨_, _, rfl⟩
    · split
      · rcases event.command with hcommand | hcommand | hcommand | hcommand
        · rw [hcommand]
          exact send_ok pg event.draw hshort _ _
        · rw [hcommand]
          exact delivered_ok pg hshort _ _
        · rw [hcommand]
          exact getChats_ok pg _ _ _ _
        · rw [hcommand]
          exact getChats_ok pg _ _ _ _
      · exact ⟨_, _, rfl⟩

theorem step_ok (pg : Engine) (s : State) (event : Event) : ∃ t, step pg s event = .ok t := by
  obtain ⟨reply, server, hroute⟩ := route_ok pg s.server event
  rw [step, hroute]
  exact ⟨_, rfl⟩

theorem run_ok (pg : Engine) (s : State) (events : List Event) :
    ∃ t, Transition.runM (step pg) s events = .ok t := by
  induction events generalizing s with
  | nil => exact ⟨s, rfl⟩
  | cons event events ih =>
    obtain ⟨next, hstep⟩ := step_ok pg s event
    obtain ⟨t, ht⟩ := ih next
    exact ⟨t, Transition.runM_cons_eq_ok.mpr ⟨next, hstep, ht⟩⟩

end

/-- Over any run of the four commands, `PENDING` and `CHAT` list exactly the letters that they
should, exactly when the rows of these can be read. -/
theorem mailbox_answers_iff (pg : Engine) (standard : Standard pg) (server : Server)
    (events : List Event) (hids : (server.db.users.map UserRow.id).Nodup)
    (hsucceeds : Transition.AlwaysM (step pg) (fun a event _ => Succeeds pg a.server event)
      (State.start server) events) :
    Transition.AlwaysM (step pg) (fun a event _ => Answers pg standard.instant a event)
        (State.start server) events ↔
      Transition.AlwaysM (step pg) (fun a event _ => CanRead a event) (State.start server)
        events := by
  apply Transition.alwaysM_congr_of_guard (tracks_start server hids) hsucceeds
  · intro a event b ha hguard hstep
    exact answers_iff standard ha
  · intro a event b ha hguard hstep hanswers
    exact tracks_step standard ha hguard hstep

def clock (time : Timestamp) : ℤ := Decimal.value (time.text.filter Decimal.isDigit)

def sortedEngine : Engine :=
  { Engine.basic with
    readId := fun text =>
      if IsNumeral text ∧ Decimal.value text < 2 ^ 63 then some (Decimal.value text : ℤ) else none
    order := fun rows => rows.insertionSort fun a b => clock a.createdAt ≤ clock b.createdAt
    order_perm := fun rows => List.perm_insertionSort _ rows }

def sortedEngine_standard : Standard sortedEngine where
  instant := clock
  order_sorted := by
    intro rows
    have : Std.Total fun a b : ChatRow => clock a.createdAt ≤ clock b.createdAt :=
      ⟨fun a b => le_total _ _⟩
    have : IsTrans ChatRow fun a b => clock a.createdAt ≤ clock b.createdAt :=
      ⟨fun a b c => le_trans⟩
    exact List.pairwise_insertionSort _ rows
  readId_numeral := by
    intro term hterm
    have hread : sortedEngine.readId term =
        if IsNumeral term ∧ Decimal.value term < 2 ^ 63 then some (Decimal.value term : ℤ)
        else none := rfl
    rw [hread]
    simp only [hterm, true_and]

def mailEvent (draw : Draw) (text : ByteString) (hshort : text.length < 2 ^ 31)
    (command : (⟨text, hshort⟩ : Message).command = .send ∨
      (⟨text, hshort⟩ : Message).command = .delivered ∨
      (⟨text, hshort⟩ : Message).command = .chat ∨ (⟨text, hshort⟩ : Message).command = .pending)
    (decimal : (⟨text, hshort⟩ : Message).arguments ≠ [] →
      ∀ id ∈ idTexts ⟨text, hshort⟩, IsNumeral id) : Event :=
  ⟨draw, ⟨text, hshort⟩, johnRequest, command, decimal⟩

def johnSends (chatId : ℤ) : Event :=
  mailEvent { sampleDraw with chatId } (str "SEND abc 2 hello") (by decide) (by decide)
    (by decide +kernel)

def marioPending : Event :=
  mailEvent sampleDraw (str "PENDING def") (by decide) (by decide) (by decide +kernel)

def marioPendingFromJohn : Event :=
  mailEvent sampleDraw (str "PENDING def 1") (by decide) (by decide) (by decide +kernel)

def marioDelivered : Event :=
  mailEvent sampleDraw (str "DELIVERED def 7") (by decide) (by decide) (by decide +kernel)

def johnChats : Event :=
  mailEvent sampleDraw (str "CHAT abc") (by decide) (by decide) (by decide +kernel)

theorem mailbox_answers_two :
    Transition.AlwaysM (step sortedEngine)
      (fun a event _ => Answers sortedEngine sortedEngine_standard.instant a event)
      (State.start twoUsers)
      [marioPending, johnSends 8, marioDelivered, marioPendingFromJohn, johnChats] :=
  (mailbox_answers_iff sortedEngine sortedEngine_standard twoUsers _ (by decide)
    (by decide +kernel)).mpr (by decide +kernel)

/-- A chat under the first id beyond `int` is answered 200 and never listed. -/
theorem pending_loses_chat :
    ¬Transition.AlwaysM (step sortedEngine)
      (fun a event _ => Answers sortedEngine sortedEngine_standard.instant a event)
      (State.start twoUsers) [johnSends (2 ^ 31), marioPending] := by
  intro h
  have hasked : (Transition.runM (step sortedEngine) (State.start twoUsers)
      [johnSends (2 ^ 31)]).map (fun a => (asks a marioPending).map (List.map ChatRow.id)) =
        .ok (some [7, 2 ^ 31]) := by decide +kernel
  obtain ⟨a, hrun⟩ := run_ok sortedEngine (State.start twoUsers) [johnSends (2 ^ 31)]
  obtain ⟨b, hstep⟩ := step_ok sortedEngine a marioPending
  rw [hrun] at hasked
  obtain ⟨rows, hrows, hids⟩ := Option.map_eq_some_iff.mp (Except.ok.inj hasked)
  obtain ⟨reply, server, -, hlists⟩ :=
    h [johnSends (2 ^ 31)] marioPending [] a b rfl hrun hstep rows hrows
  have hlate : (2 : ℤ) ^ 31 ∈ rows.map ChatRow.id := by
    rw [hids]
    decide
  obtain ⟨row, hrow, hid⟩ := List.mem_map.mp hlate
  have hrange := (isSome_of_lists hlists row hrow).1.2
  omega

end Skype.Mailbox
