import Skype.ChatIds
import Skype.JobBus
import Skype.Library.Transition

/-!
# Which chats a client sets to delivered

The server lists chats, the client reads them back from the reply, and `load_chat`
creates a `DELIVERED` for every undelivered one without a look at who it is for. The
replies to `PENDING` hold chats for the user only; `CHAT` without a contact lists what
the user has sent as well.
-/

namespace Skype

open Library Postgres

namespace Chat

def validResponse (tCode : Reply.Code) (tRes : ByteString) : Bool :=
  find tRes (Reply.getMessage tCode) 0 ≠ npos

def received (response : ByteString) : Exec (List UserChat) :=
  if validResponse .r201 response then parseChat response else .ok []

end Chat

namespace Client

def chatGetAll (tJob : Job) (response : ByteString) : Exec Job := do
  let mChats ← Chat.received response
  return { tJob with mChats, mValid := true }

def chatGetPending (tJob : Job) (response : ByteString) : Exec Job := do
  let mChats ← Chat.received response
  if mChats ≠ [] then return { tJob with mChats, mValid := true }
  else return { tJob with mChats, mValid := false, mCommand := .DISCARD }

end Client

namespace ChatLoading

open Router ControllerUtils

def replyText (pg : Engine) (draw : Draw) (raw : Message) (tReq : Request) (s : Server) :
    Exec ByteString := do
  let (req, _) ← route pg draw (raw.request tReq) s
  let data ← req.data
  return data.bytes

/-- A `CHAT` or `PENDING` of a client whose token is stored for no other user than `u`,
at a server in any state. Its reply is a text that the strategies can receive. -/
structure Fetch (u : Int32) where
  pg : Engine
  draw : Draw
  server : Server
  tReq : Request
  raw : Message
  command : raw.command = .chat ∨ raw.command = .pending
  client : (searchUserByToken server.db.toDatabase raw.word).mEmpty = false →
    (searchUserByToken server.db.toDatabase raw.word).mId = u
  arrives : ∀ text, replyText pg draw raw tReq server = .ok text → text.length < 2 ^ 31

namespace Fetch

variable {u : Int32}

def reply (fetch : Fetch u) : Exec ByteString :=
  replyText fetch.pg fetch.draw fetch.raw fetch.tReq fetch.server

def job (fetch : Fetch u) : Exec Job := do
  let response ← fetch.reply
  if fetch.raw.command = .chat then Client.chatGetAll (Job.new .CHAT) response
  else Client.chatGetPending (Job.new .PENDING) response

def Listed (fetch : Fetch u) : Prop :=
  fetch.tReq.mValid = true ∧
    (searchUserByToken fetch.server.db.toDatabase fetch.raw.word).mEmpty = false ∧
    (fetch.raw.arguments = [] ∨
      (searchUserBy fetch.pg fetch.server.db.toDatabase fetch.raw.arguments .id).mEmpty = false)

instance (fetch : Fetch u) : Decidable fetch.Listed := inferInstanceAs (Decidable (_ ∧ _ ∧ (_ ∨ _)))

def sender (fetch : Fetch u) : Option Int32 :=
  if fetch.raw.arguments = [] then none
  else some (searchUserBy fetch.pg fetch.server.db.toDatabase fetch.raw.arguments .id).mId

def pending (fetch : Fetch u) : Bool := fetch.raw.command = .pending

def chats (fetch : Fetch u) : List UserChat :=
  if fetch.Listed then
    listUserChats fetch.pg fetch.server.db u fetch.pending fetch.sender
  else []

end Fetch

section

variable {u : Int32}

theorem received_refusal {code : Reply.Code}
    (h : code = .r202 ∨ code = .r304 ∨ code = .r501) :
    Chat.received (Reply.getMessage code) = .ok [] := by
  rcases h with rfl | rfl | rfl
  · decide +kernel
  · decide +kernel
  · decide +kernel

def readable (rows : List ChatRow) : List ChatRow :=
  rows.takeWhile fun row => (rowToChat row).isSome

theorem isSome_of_readable {rows : List ChatRow} {row : ChatRow} (h : row ∈ readable rows) :
    (rowToChat row).isSome = true := by
  exact List.mem_takeWhile_imp (p := fun row => (rowToChat row).isSome) h

theorem mem_rowsToChats {rows : List ChatRow} {chat : UserChat} :
    chat ∈ rowsToChats rows ↔ ∃ row ∈ readable rows, rowToChat row = some chat := by
  induction rows with
  | nil => simp [rowsToChats, readable]
  | cons row rows ih =>
    rw [rowsToChats]
    cases hrow : rowToChat row with
    | none => simp [readable, hrow]
    | some first =>
      have hreadable : readable (row :: rows) = row :: readable rows := by
        simp [readable, hrow]
      rw [hreadable]
      dsimp only
      rw [List.mem_cons, ih, List.exists_mem_cons_iff, hrow, Option.some.injEq, eq_comm]

theorem createdAt_listUserChats (pg : Engine) (db : Tables) (tUser : Int32) (tPending : Bool)
    (tSender : Option Int32) :
    ∀ chat ∈ listUserChats pg db tUser tPending tSender, comma ∉ chat.mCreatedAt := by
  intro chat hchat
  obtain ⟨row, -, hread⟩ := mem_rowsToChats.mp hchat
  rw [(rowToChat_fields hread).2.2.2.2]
  exact row.createdAt.plain

theorem received_chats {chats : List UserChat} (hcreated : ∀ chat ∈ chats, comma ∉ chat.mCreatedAt)
    (hshort : (str "201 " ++ ChatControllers.buildResponse chats).length < 2 ^ 31) :
    Chat.received (str "201 " ++ ChatControllers.buildResponse chats) =
      .ok (chats.map fun chat => { chat with mEmpty := true }) := by
  have hcode : str "201 " ++ ChatControllers.buildResponse chats =
      Reply.getMessage .r201 ++ (str " " ++ ChatControllers.buildResponse chats) := rfl
  have hfind : find (str "201 " ++ ChatControllers.buildResponse chats)
      (Reply.getMessage .r201) 0 = 0 := by
    rw [hcode, find, if_pos (Nat.zero_le _), List.drop_zero, Search.search_self_append]
  have hvalid : Chat.validResponse .r201 (str "201 " ++ ChatControllers.buildResponse chats) =
      true := by
    rw [Chat.validResponse, hfind]
    decide
  rw [Chat.received, if_pos hvalid]
  exact ChatCodec.parseChat_buildResponse hcreated hshort

theorem replyText_of_route {pg : Engine} {draw : Draw} {raw : Message} {tReq req : Request}
    {s : Server} {text : ByteString}
    (h : (route pg draw (raw.request tReq) s).map Prod.fst = .ok req)
    (hdata : req.mData = some (textData text)) : replyText pg draw raw tReq s = .ok text := by
  rw [replyText]
  cases hroute : route pg draw (raw.request tReq) s with
  | error e =>
    rw [hroute] at h
    cases h
  | ok answer =>
    rw [hroute] at h
    obtain rfl : answer.1 = req := Except.ok.inj h
    rw [ok_bind]
    dsimp only
    rw [Request.data, hdata]
    rfl

theorem requireLogin_fetch (fetch : Fetch u) : requireLogin fetch.raw.command = true := by
  rcases fetch.command with hcommand | hcommand
  · rw [hcommand]
    rfl
  · rw [hcommand]
    rfl

theorem route_getChats (pg : Engine) (draw : Draw) {raw : Message} {tReq : Request} {s : Server}
    (hcommand : raw.command = .chat ∨ raw.command = .pending) (hvalid : tReq.mValid = true)
    (hstored : (searchUserByToken s.db.toDatabase raw.word).mEmpty = false) :
    (route pg draw (raw.request tReq) s).map Prod.fst =
      .ok (ChatControllers.chatsReply pg raw.arguments
        { raw.request tReq with mToken := raw.word } (decide (raw.command = .pending)) s.db) := by
  have hnonempty : ¬(searchUserByToken s.db.toDatabase raw.word).mEmpty = true :=
    ne_true_of_eq_false hstored
  have hlogin : requireLogin raw.command = true := by
    rcases hcommand with hcommand | hcommand
    · rw [hcommand]
      rfl
    · rw [hcommand]
      rfl
  have hvalidate : validateArgument raw.command raw.arguments = true := by
    rcases hcommand with hcommand | hcommand
    · rw [hcommand]
      rfl
    · rw [hcommand]
      rfl
  have hcontroller : ∀ req t, controllers pg draw raw.command raw.arguments req t =
      ChatControllers.getChats pg raw.arguments req (decide (raw.command = .pending)) t := by
    intro req t
    rcases hcommand with hcommand | hcommand
    · rw [hcommand]
      rfl
    · rw [hcommand]
      rfl
  rw [route_login pg draw s hvalid hlogin, if_neg hnonempty, if_pos hvalidate, hcontroller]
  exact ChatControllers.getChats_reply _ _ _ _ _

theorem route_fetch (fetch : Fetch u) (hvalid : fetch.tReq.mValid = true)
    (hstored : (searchUserByToken fetch.server.db.toDatabase fetch.raw.word).mEmpty = false) :
    (route fetch.pg fetch.draw (fetch.raw.request fetch.tReq) fetch.server).map Prod.fst =
      .ok (ChatControllers.chatsReply fetch.pg fetch.raw.arguments
        { fetch.raw.request fetch.tReq with mToken := fetch.raw.word } fetch.pending
        fetch.server.db) :=
  route_getChats fetch.pg fetch.draw fetch.command hvalid hstored

theorem reply_listed (fetch : Fetch u) (h : fetch.Listed) :
    fetch.reply = .ok (str "201 " ++ ChatControllers.buildResponse fetch.chats) := by
  have hchats : fetch.chats =
      listUserChats fetch.pg fetch.server.db u fetch.pending fetch.sender := if_pos h
  obtain ⟨hvalid, hstored, hcontact⟩ := h
  have hnonempty : ¬(searchUserByToken fetch.server.db.toDatabase fetch.raw.word).mEmpty = true :=
    ne_true_of_eq_false hstored
  apply replyText_of_route (route_fetch fetch hvalid hstored)
  rw [hchats, ChatControllers.chatsReply, if_neg hnonempty, fetch.client hstored, Fetch.sender]
  by_cases hall : fetch.raw.arguments = []
  · rw [if_pos hall, if_pos hall]
    rfl
  · have hfound : ¬(searchUserBy fetch.pg fetch.server.db.toDatabase fetch.raw.arguments
        .id).mEmpty = true := by
      rw [hcontact.resolve_left hall]
      exact Bool.false_ne_true
    rw [if_neg hall, if_neg hall, if_neg hfound]
    rfl

theorem reply_refused (fetch : Fetch u) (h : ¬fetch.Listed) :
    ∃ code, (code = .r202 ∨ code = .r304 ∨ code = .r501) ∧
      fetch.reply = .ok (Reply.getMessage code) := by
  cases hvalid : fetch.tReq.mValid with
  | false =>
    refine ⟨.r501, by simp, ?_⟩
    apply replyText_of_route
    · rw [route_invalid fetch.pg fetch.draw fetch.raw fetch.server hvalid]
      rfl
    · rfl
  | true =>
    cases hstored : (searchUserByToken fetch.server.db.toDatabase fetch.raw.word).mEmpty with
    | true =>
      refine ⟨.r202, by simp, ?_⟩
      apply replyText_of_route
      · rw [route_login fetch.pg fetch.draw fetch.server hvalid (requireLogin_fetch fetch),
          if_pos hstored]
        rfl
      · rfl
    | false =>
      have hnonempty :
          ¬(searchUserByToken fetch.server.db.toDatabase fetch.raw.word).mEmpty = true :=
        ne_true_of_eq_false hstored
      have hnobody : ¬(fetch.raw.arguments = [] ∨ (searchUserBy fetch.pg
          fetch.server.db.toDatabase fetch.raw.arguments .id).mEmpty = false) :=
        fun hcontact => h ⟨hvalid, hstored, hcontact⟩
      push Not at hnobody
      refine ⟨.r304, by simp, ?_⟩
      apply replyText_of_route (route_fetch fetch hvalid hstored)
      rw [ChatControllers.chatsReply, if_neg hnonempty, if_neg hnobody.1,
        if_pos (Bool.eq_true_of_not_eq_false hnobody.2)]
      rfl

theorem received_reply (fetch : Fetch u) :
    ∃ response, fetch.reply = .ok response ∧
      Chat.received response = .ok (fetch.chats.map fun chat => { chat with mEmpty := true }) := by
  by_cases h : fetch.Listed
  · have hreply := reply_listed fetch h
    refine ⟨_, hreply, ?_⟩
    apply received_chats
    · rw [Fetch.chats, if_pos h]
      exact createdAt_listUserChats _ _ _ _ _
    · exact fetch.arrives _ hreply
  · obtain ⟨code, hcode, hreply⟩ := reply_refused fetch h
    refine ⟨_, hreply, ?_⟩
    rw [received_refusal hcode, Fetch.chats, if_neg h]
    rfl

end

inductive Event (u : Int32)
  | loads (fetch : Fetch u)
  | displays (mContactList : List Details)

structure Window where
  gui : CentralGui
  created : List Job

def step {u : Int32} (setting : JobBus.Setting) (w : Window) : Event u → Exec Window
  | .loads fetch => do
    let job ← fetch.job
    let (gui, created) ← JobBus.table setting w.gui job
    return ⟨gui, created⟩
  | .displays mContactList => do
    let job := { Job.new .DISP_CONTACTS with mContactList, mValid := !mContactList.isEmpty }
    let (gui, created) ← JobBus.table setting w.gui job
    return ⟨gui, created⟩

def NamesOwn (u : Int32) (db : Tables) (job : Job) : Prop :=
  job.mCommand = .DELIVERED →
    ∃ row ∈ db.chats.entries, job.mArgument = Decimal.printInt row.id ∧ row.recipientId = u

def OwnDelivered (u : Int32) (_ : Window) (event : Event u) (after : Window) : Prop :=
  match event with
  | .loads fetch => ∀ job ∈ after.created, NamesOwn u fetch.server.db job
  | .displays _ => ∀ job ∈ after.created, job.mCommand ≠ .DELIVERED

def Fetch.Harmless {u : Int32} (fetch : Fetch u) : Prop :=
  fetch.raw.command = .chat → fetch.tReq.mValid = true →
    (searchUserByToken fetch.server.db.toDatabase fetch.raw.word).mEmpty = false →
    fetch.raw.arguments = [] →
    ∀ row ∈ readable (fetch.pg.order (fetch.server.db.chats.entries.filter fun row =>
        row.recipientId = u ∨ row.senderId = u)),
      row.delivered = false → row.recipientId = u

section

open CentralGui

theorem loadChat_ok (calendar : Calendar) (gui : CentralGui) {chats : List UserChat}
    (hshort : ∀ chat ∈ chats, chat.mCreatedAt.length < 2 ^ 31) :
    ∃ gui' jobs, loadChat calendar gui chats = .ok (gui', jobs) := by
  induction chats generalizing gui with
  | nil => exact ⟨gui, [], rfl⟩
  | cons chat chats ih =>
    have hcreated := hshort chat List.mem_cons_self
    have hsplit : ∀ text d : ByteString, text.length ≤ chat.mCreatedAt.length →
        StringUtils.splitFirst text d = .ok (Search.cutFirst d text) :=
      fun text d hle => StringUtils.splitFirst_eq (hle.trans_lt hcreated)
    have hlong := Search.length_cutFirst_snd_le (str " ") chat.mCreatedAt
    have hrest := (Search.length_cutFirst_snd_le (str ":")
      (Search.cutFirst (str " ") chat.mCreatedAt).2).trans hlong
    have htime : ∃ time, chatTime calendar chat = .ok time := by
      rw [chatTime, UserChat.createdAtDate, UserChat.createdAtTime, hsplit _ _ le_rfl]
      simp only [ok_bind, hsplit _ _ hlong, hsplit _ _ hrest, pure_eq_ok]
      split
      · exact ⟨_, rfl⟩
      · split
        · exact ⟨_, rfl⟩
        · exact ⟨_, rfl⟩
    obtain ⟨time, htime⟩ := htime
    obtain ⟨gui₁, created, hone⟩ :
        ∃ gui₁ created, loadOne calendar gui chat = .ok (gui₁, created) := by
      rw [loadOne, htime]
      exact ⟨_, _, rfl⟩
    obtain ⟨gui₂, jobs, hall⟩ := ih gui₁ fun c hc => hshort c (List.mem_cons_of_mem chat hc)
    refine ⟨gui₂, created ++ jobs, ?_⟩
    rw [loadChat, hone, ok_bind]
    dsimp only
    rw [hall]
    rfl

def deliveredJobs (chats : List UserChat) : List Job :=
  (chats.filter fun chat => chat.mDelivered = false).map deliveredJob

theorem deliveredJobs_read (chats : List UserChat) :
    deliveredJobs (chats.map fun chat => { chat with mEmpty := true }) = deliveredJobs chats := by
  rw [deliveredJobs, deliveredJobs, List.filter_map, List.map_map]
  rfl

theorem length_createdAt_le (chat : UserChat) :
    chat.mCreatedAt.length ≤ (ChatCodec.segment chat).length := by
  simp only [ChatCodec.segment, UserChat.toString, List.length_append]
  omega

theorem chats_short {u : Int32} (fetch : Fetch u) :
    ∀ chat ∈ fetch.chats, chat.mCreatedAt.length < 2 ^ 31 := by
  intro chat hchat
  by_cases h : fetch.Listed
  · have hshort := fetch.arrives _ (reply_listed fetch h)
    have hle := (length_createdAt_le chat).trans (ChatCodec.length_segment_le hchat)
    rw [ChatCodec.buildResponse_eq] at hshort
    simp only [List.length_append, List.length_cons] at hshort
    omega
  · rw [Fetch.chats, if_neg h] at hchat
    exact absurd hchat List.not_mem_nil

/-- Fetched chats are always loaded after `CHAT`; after `PENDING` a window without
contacts drops them. -/
theorem step_loads {u : Int32} (setting : JobBus.Setting) (w : Window) (fetch : Fetch u) :
    ∃ after, step setting w (.loads fetch) = .ok after ∧
      (after.created = deliveredJobs fetch.chats ∨
        fetch.raw.command = .pending ∧ after.created = []) := by
  obtain ⟨response, hreply, hreceived⟩ := received_reply fetch
  have hsame := deliveredJobs_read fetch.chats
  have hshort : ∀ chat ∈ fetch.chats.map fun chat => { chat with mEmpty := true },
      chat.mCreatedAt.length < 2 ^ 31 := by
    intro chat hchat
    obtain ⟨sent, hsent, rfl⟩ := List.mem_map.mp hchat
    exact chats_short fetch sent hsent
  generalize fetch.chats.map (fun chat => { chat with mEmpty := true }) = read at *
  obtain ⟨gui, jobs, hload⟩ := loadChat_ok setting.calendar w.gui hshort
  have hjobs : jobs = deliveredJobs fetch.chats := by
    rw [(loaded_loadChat hload).jobs, ← hsame]
    rfl
  by_cases hcommand : fetch.raw.command = .chat
  · have hjob : fetch.job = .ok { Job.new .CHAT with mChats := read, mValid := true } := by
      rw [Fetch.job, hreply, ok_bind, if_pos hcommand, Client.chatGetAll, hreceived]
      rfl
    by_cases hnone : read = []
    · refine ⟨⟨{ w.gui with timer := true }, []⟩, ?_, Or.inl ?_⟩
      · rw [step, hjob, hnone]
        rfl
      · rw [← hsame, hnone]
        rfl
    · refine ⟨⟨{ gui with timer := true }, jobs⟩, ?_, Or.inl hjobs⟩
      rw [step, hjob, ok_bind, JobBus.table, CentralGui.jobLoadChat, if_pos hnone, hload]
      rfl
  · have hpending := fetch.command.resolve_left hcommand
    have hjob : fetch.job = Client.chatGetPending (Job.new .PENDING) response := by
      rw [Fetch.job, hreply, ok_bind, if_neg hcommand]
    rw [Client.chatGetPending, hreceived, ok_bind] at hjob
    by_cases hnone : read = []
    · refine ⟨⟨w.gui, []⟩, ?_, Or.inr ⟨hpending, rfl⟩⟩
      rw [step, hjob, if_neg (not_not.mpr hnone)]
      rfl
    · rw [if_pos hnone] at hjob
      by_cases hcontacts : w.gui.mContactList.entries = []
      · refine ⟨⟨w.gui, []⟩, ?_, Or.inr ⟨hpending, rfl⟩⟩
        rw [step, hjob, pure_eq_ok, ok_bind, JobBus.table, CentralGui.jobLoadPending,
          if_neg Bool.noConfusion, if_pos (Or.inr hcontacts)]
        rfl
      · refine ⟨⟨gui, jobs⟩, ?_, Or.inl hjobs⟩
        have hload' : ¬(read = [] ∨ w.gui.mContactList.entries = []) := by
          rintro (hread | hentries)
          · exact hnone hread
          · exact hcontacts hentries
        rw [step, hjob, pure_eq_ok, ok_bind, JobBus.table, CentralGui.jobLoadPending,
          if_neg Bool.noConfusion, if_neg hload', hload]
        rfl

theorem step_displays {u : Int32} (setting : JobBus.Setting) (w : Window)
    (mContactList : List Details) :
    ∃ after, step setting w (.displays mContactList : Event u) = .ok after ∧
      ∀ job ∈ after.created, job.mCommand ≠ .DELIVERED := by
  refine ⟨_, rfl, ?_⟩
  intro job hjob
  have hcreated : job ∈ if w.gui.firstDisplay then [Job.new .CHAT] else [] := hjob
  split at hcreated
  · rw [List.mem_singleton.mp hcreated]
    decide
  · exact absurd hcreated List.not_mem_nil

/-! ### Whose chats they are -/

theorem namesOwn_deliveredJob {u : Int32} {db : Tables} {row : ChatRow} {chat : UserChat}
    (hrow : row ∈ db.chats.entries) (hread : rowToChat row = some chat) :
    NamesOwn u db (deliveredJob chat) ↔ row.recipientId = u := by
  have hid : (deliveredJob chat).mArgument = Decimal.printInt row.id := by
    rw [← (rowToChat_fields hread).1]
    rfl
  constructor
  · intro h
    obtain ⟨other, hother, hsame, hown⟩ := h rfl
    rw [hid] at hsame
    rw [List.inj_on_of_nodup_map db.chats.nodup hrow hother (Decimal.printInt_inj hsame)]
    exact hown
  · intro hown _
    exact ⟨row, hrow, hid, hown⟩

theorem mem_readable_order {pg : Engine} {p : ChatRow → Bool} {entries : List ChatRow}
    {row : ChatRow} (h : row ∈ readable (pg.order (entries.filter p))) :
    row ∈ entries ∧ p row = true := by
  have hlisted : row ∈ pg.order (entries.filter p) := (List.takeWhile_sublist _).subset h
  exact List.mem_filter.mp ((pg.order_perm _).mem_iff.mp hlisted)

theorem namesOwn_of_recipient {u : Int32} {pg : Engine} {db : Tables} {tPending : Bool}
    {tSender : Option Int32} (h : tPending = true ∨ tSender ≠ none) :
    ∀ job ∈ deliveredJobs (listUserChats pg db u tPending tSender), NamesOwn u db job := by
  intro job hjob
  obtain ⟨chat, hchat, rfl⟩ := List.mem_map.mp hjob
  obtain ⟨row, hrow, hread⟩ := mem_rowsToChats.mp (List.mem_of_mem_filter hchat)
  obtain ⟨hin, hlists⟩ := mem_readable_order hrow
  apply (namesOwn_deliveredJob hin hread).mpr
  rcases h with rfl | hsender
  · simp only [listsChat, Bool.not_true, Bool.false_and, Bool.or_false, Bool.and_eq_true,
      beq_iff_eq] at hlists
    exact hlists.1.1
  · have hsome : tSender.isNone = false := by
      cases tSender with
      | none => exact absurd rfl hsender
      | some sender => rfl
    simp only [listsChat, hsome, Bool.and_false, Bool.false_and, Bool.or_false, Bool.and_eq_true,
      beq_iff_eq] at hlists
    exact hlists.1.1

theorem namesOwn_chat_iff {u : Int32} {pg : Engine} {db : Tables} :
    (∀ job ∈ deliveredJobs (listUserChats pg db u false none), NamesOwn u db job) ↔
      ∀ row ∈ readable (pg.order (db.chats.entries.filter fun row =>
        row.recipientId = u ∨ row.senderId = u)), row.delivered = false → row.recipientId = u := by
  have hlists : (fun row : ChatRow => decide (row.recipientId = u ∨ row.senderId = u)) =
      listsChat u false none := by
    funext row
    rw [Bool.eq_iff_iff]
    simp [listsChat]
  rw [hlists]
  constructor
  · intro h row hrow hundelivered
    have hsome : (rowToChat row).isSome = true := isSome_of_readable hrow
    obtain ⟨chat, hread⟩ := Option.isSome_iff_exists.mp hsome
    have hflag : chat.mDelivered = false := by
      rw [(rowToChat_fields hread).2.2.2.1, hundelivered]
    have hchat : chat ∈ listUserChats pg db u false none := mem_rowsToChats.mpr ⟨row, hrow, hread⟩
    apply (namesOwn_deliveredJob (mem_readable_order hrow).1 hread).mp
    apply h
    exact List.mem_map_of_mem (List.mem_filter.mpr ⟨hchat, decide_eq_true hflag⟩)
  · intro h job hjob
    obtain ⟨chat, hchat, rfl⟩ := List.mem_map.mp hjob
    obtain ⟨hlisted, hflag⟩ := List.mem_filter.mp hchat
    obtain ⟨row, hrow, hread⟩ := mem_rowsToChats.mp hlisted
    apply (namesOwn_deliveredJob (mem_readable_order hrow).1 hread).mpr
    apply h row hrow
    rw [← (rowToChat_fields hread).2.2.2.1]
    exact of_decide_eq_true hflag

theorem namesOwn_fetched_iff {u : Int32} {fetch : Fetch u} (hlists : fetch.Listed) :
    (∀ job ∈ deliveredJobs fetch.chats, NamesOwn u fetch.server.db job) ↔ fetch.Harmless := by
  have hchats : fetch.chats =
      listUserChats fetch.pg fetch.server.db u fetch.pending fetch.sender := if_pos hlists
  rw [hchats]
  by_cases hcommand : fetch.raw.command = .chat
  · have hflag : fetch.pending = false := by
      rw [Fetch.pending, hcommand]
      rfl
    rw [hflag]
    by_cases hall : fetch.raw.arguments = []
    · rw [Fetch.sender, if_pos hall, namesOwn_chat_iff]
      constructor
      · intro h _ _ _ _
        exact h
      · intro h
        exact h hcommand hlists.1 hlists.2.1 hall
    · apply iff_of_true
      · apply namesOwn_of_recipient
        right
        rw [Fetch.sender, if_neg hall]
        exact Option.some_ne_none _
      · intro _ _ _ hnone
        exact absurd hnone hall
  · have hflag : fetch.pending = true := by
      rw [Fetch.pending, fetch.command.resolve_left hcommand]
      rfl
    apply iff_of_true
    · exact namesOwn_of_recipient (Or.inl hflag)
    · intro hchat
      exact absurd hchat hcommand

theorem ownDelivered_iff {u : Int32} {setting : JobBus.Setting} {w after : Window}
    {fetch : Fetch u} (h : step setting w (.loads fetch) = .ok after) :
    OwnDelivered u w (.loads fetch) after ↔ fetch.Harmless := by
  obtain ⟨result, hstep, hcreated⟩ := step_loads setting w fetch
  rw [hstep] at h
  obtain rfl := Except.ok.inj h
  by_cases hlists : fetch.Listed
  · rcases hcreated with hjobs | ⟨hpending, hnone⟩
    · rw [OwnDelivered, hjobs]
      exact namesOwn_fetched_iff hlists
    · apply iff_of_true
      · rw [OwnDelivered, hnone]
        simp
      · intro hchat
        rw [hpending] at hchat
        cases hchat
  · have hnone : result.created = [] := by
      rcases hcreated with hjobs | ⟨-, hnone⟩
      · rw [hjobs, Fetch.chats, if_neg hlists]
        rfl
      · exact hnone
    apply iff_of_true
    · rw [OwnDelivered, hnone]
      simp
    · intro hcommand hvalid hstored hall
      exact absurd ⟨hvalid, hstored, Or.inl hall⟩ hlists

end

theorem step_ok {u : Int32} (setting : JobBus.Setting) (w : Window) (event : Event u) :
    ∃ after, step setting w event = .ok after := by
  cases event with
  | loads fetch =>
    obtain ⟨after, hstep, -⟩ := step_loads setting w fetch
    exact ⟨after, hstep⟩
  | displays mContactList =>
    obtain ⟨after, hstep, -⟩ := step_displays setting w mContactList
    exact ⟨after, hstep⟩

/-- Over any replies and contacts, every `DELIVERED` names a chat for `u` exactly when no
`CHAT` without a contact listed an undelivered chat for somebody else. -/
theorem delivers_own_iff {u : Int32} (setting : JobBus.Setting) (w : Window)
    (events : List (Event u)) :
    Transition.AlwaysM (step setting) (OwnDelivered u) w events ↔
      ∀ fetch, .loads fetch ∈ events → fetch.Harmless := by
  induction events generalizing w with
  | nil =>
    apply iff_of_true
    · intro pre event post a b he
      simp at he
    · intro fetch hfetch
      exact absurd hfetch List.not_mem_nil
  | cons event events ih =>
    obtain ⟨next, hnext⟩ := step_ok setting w event
    have hcons : Transition.AlwaysM (step setting) (OwnDelivered u) w (event :: events) ↔
        OwnDelivered u w event next ∧
          Transition.AlwaysM (step setting) (OwnDelivered u) next events := by
      rw [Transition.alwaysM_cons_iff, hnext]
      simp
    rw [hcons, ih next]
    cases event with
    | loads first =>
      rw [ownDelivered_iff hnext]
      simp
    | displays mContactList =>
      obtain ⟨after, hstep, hcreated⟩ := step_displays (u := u) setting w mContactList
      rw [hstep] at hnext
      obtain rfl := Except.ok.inj hnext
      have hown : OwnDelivered u w (.displays mContactList) after := hcreated
      simp [hown]

section

variable {pg : Engine} {db : Tables} {u : Int32}

theorem rowsToChats_eq {rows : List ChatRow} (h : ∀ row ∈ rows, (rowToChat row).isSome = true) :
    rowsToChats rows = rows.filterMap rowToChat := by
  induction rows with
  | nil => rfl
  | cons row rows ih =>
    have hrest := ih fun other hother => h other (List.mem_cons_of_mem row hother)
    obtain ⟨chat, hread⟩ := Option.isSome_iff_exists.mp (h row List.mem_cons_self)
    rw [rowsToChats, hread, List.filterMap_cons_some hread, ← hrest]

theorem perm_listUserChats {tPending : Bool} {tSender : Option Int32}
    (h : ∀ row ∈ db.chats.entries, (rowToChat row).isSome = true) :
    (listUserChats pg db u tPending tSender).Perm
      ((db.chats.entries.filter (listsChat u tPending tSender)).filterMap rowToChat) := by
  have hperm := pg.order_perm (db.chats.entries.filter (listsChat u tPending tSender))
  rw [listUserChats, rowsToChats_eq]
  · exact hperm.filterMap rowToChat
  · intro row hrow
    exact h row (List.mem_of_mem_filter (hperm.mem_iff.mp hrow))

theorem filterMap_filter_rowToChat {p : ChatRow → Bool} {q : UserChat → Bool}
    (h : ∀ row chat, rowToChat row = some chat → p row = q chat) (rows : List ChatRow) :
    (rows.filter p).filterMap rowToChat = (rows.filterMap rowToChat).filter q := by
  rw [List.filterMap_filter, List.filter_filterMap]
  apply List.filterMap_congr
  intro row hrow
  cases hread : rowToChat row with
  | none => simp
  | some chat =>
    rw [h row chat hread]
    cases hq : q chat with
    | false => simp [Option.filter, hq]
    | true => simp [Option.filter, hq]

theorem perm_chatReply (h : ∀ row ∈ db.chats.entries, (rowToChat row).isSome = true) :
    (listUserChats pg db u false none).Perm
      (JobBus.chatReply u (db.chats.entries.filterMap rowToChat)) := by
  have hsame := filterMap_filter_rowToChat (p := listsChat u false none)
    (q := fun chat => chat.mRecipient = u ∨ chat.mSender = u) (fun row chat hread => by
      obtain ⟨-, hrecipient, hsender, -, -⟩ := rowToChat_fields hread
      rw [hrecipient, hsender, Bool.eq_iff_iff]
      simp [listsChat]) db.chats.entries
  rw [JobBus.chatReply, ← hsame]
  exact perm_listUserChats h

theorem perm_pendingReply (h : ∀ row ∈ db.chats.entries, (rowToChat row).isSome = true) :
    (listUserChats pg db u true none).Perm
      (JobBus.pendingReply u (db.chats.entries.filterMap rowToChat)) := by
  have hsame := filterMap_filter_rowToChat (p := listsChat u true none)
    (q := fun chat => chat.mRecipient = u ∧ chat.mDelivered = false) (fun row chat hread => by
      obtain ⟨-, hrecipient, -, hdelivered, -⟩ := rowToChat_fields hread
      rw [hrecipient, hdelivered, Bool.eq_iff_iff]
      simp [listsChat]) db.chats.entries
  rw [JobBus.pendingReply, ← hsame]
  exact perm_listUserChats h

theorem rowToChat_setDelivered (id : Int32) (row : ChatRow) :
    rowToChat (setDelivered id.toInt row) = (rowToChat row).map fun chat =>
      if intToString chat.mId = intToString id then { chat with mDelivered := true } else chat := by
  have hfields : rowToChat { row with delivered := true } =
      (rowToChat row).map fun chat => { chat with mDelivered := true } := by
    rw [rowToChat, rowToChat]
    cases toInt row.id with
    | none => rfl
    | some own =>
      cases row.text with
      | none => rfl
      | some text => rfl
  cases hread : rowToChat row with
  | none =>
    rw [setDelivered]
    split
    · rw [hfields, hread]
      rfl
    · exact hread
  | some chat =>
    have hid := (rowToChat_fields hread).1
    have hsame : intToString chat.mId = intToString id ↔ row.id = id.toInt := by
      rw [← hid]
      exact ⟨fun htext => Decimal.printInt_inj htext, fun hint => congrArg Decimal.printInt hint⟩
    rw [setDelivered, Option.map_some]
    by_cases hrow : row.id = id.toInt
    · rw [if_pos hrow, if_pos (hsame.mpr hrow), hfields, hread, Option.map_some]
    · rw [if_neg hrow, if_neg fun htext => hrow (hsame.mp htext), hread]

theorem markDelivered_rows (id : Int32) :
    (setUserChatToDelivered db id).chats.entries.filterMap rowToChat =
      JobBus.markDelivered (intToString id) (db.chats.entries.filterMap rowToChat) := by
  have hentries : (setUserChatToDelivered db id).chats.entries =
      db.chats.entries.map (setDelivered id.toInt) := rfl
  rw [hentries, JobBus.markDelivered, List.filterMap_map, List.map_filterMap]
  apply List.filterMap_congr
  intro row hrow
  exact rowToChat_setDelivered id row

end

def chatMessage : Message := ⟨str "CHAT abc ", by decide⟩

def johnChats : Fetch 1 where
  pg := Engine.basic
  draw := sampleDraw
  server := twoUsers
  tReq := johnRequest
  raw := chatMessage
  command := by decide +kernel
  client := by decide +kernel
  arrives := by
    have hlength : (replyText Engine.basic sampleDraw chatMessage johnRequest twoUsers).map
        List.length = .ok 48 := by decide +kernel
    intro text htext
    rw [htext] at hlength
    have htext : text.length = 48 := Except.ok.inj hlength
    omega

def johnWindow : Window := ⟨CentralGui.new (str "john") 1, []⟩

def johnSetting : JobBus.Setting :=
  ⟨Contacts.insertionOrder, ⟨str "2022-08-27", str "2022-08-26"⟩, 1⟩

/-- John's own chats are listed with the one that mario has not fetched. -/
theorem delivers_chat_of_other :
    ¬Transition.AlwaysM (step johnSetting) (OwnDelivered 1) johnWindow [.loads johnChats] := by
  intro h
  obtain ⟨after, hstep, -⟩ := step_loads johnSetting johnWindow johnChats
  have hown := h [] (.loads johnChats) [] johnWindow after rfl rfl hstep
  have hharmless := (ownDelivered_iff hstep).mp hown (by decide +kernel) rfl (by decide +kernel)
    (by decide +kernel)
  let unread : ChatRow := ⟨7, morningTime, 1, 2, false, some (str "hi")⟩
  have hin : unread ∈ readable (johnChats.pg.order (johnChats.server.db.chats.entries.filter
      fun row => row.recipientId = 1 ∨ row.senderId = 1)) := by
    decide +kernel
  have hjohn : (2 : Int32) = 1 := hharmless unread hin rfl
  exact absurd hjohn (by decide)

end ChatLoading

end Skype
