import Skype.Accounts
import Skype.ChatLoading
import Skype.SendOutcomes

/-!
# A message from one client to another

`Chat::send` at one client, any requests of anybody, and `Chat::get_pending` at the client
of the recipient: the text that was typed is read there byte by byte, until a `DELIVERED`
names its chat.
-/

namespace Skype

open Library Postgres

namespace Chat

variable {σ : Type}

def confirmed (word : ByteString) (tCode : Reply.Code) (conn : Connection σ) (data : ByteString)
    (t : σ) : Exec (Bool × σ) := do
  let (response, t) ← conn (word ++ data) t
  match response with
  | none => return (false, t)
  | some response => return (validResponse tCode response, t)

def send (conn : Connection σ) (data : ByteString) (t : σ) : Exec (Bool × σ) :=
  confirmed (str "SEND ") .r200 conn data t

def deliver (conn : Connection σ) (data : ByteString) (t : σ) : Exec (Bool × σ) :=
  confirmed (str "DELIVERED ") .r200 conn data t

def getPending (conn : Connection σ) (data : ByteString) (t : σ) : Exec (List UserChat × σ) := do
  let (response, t) ← conn (str "PENDING " ++ data) t
  match response with
  | none => return ([], t)
  | some response => do
    let chats ← received response
    return (chats, t)

end Chat

namespace MessageDelivery

open Router Sessions ControllerUtils OneSession TableIntegrity ServerExchange
open ChatControllers (FindsBoth namedChats delivers sendWith_all sendWith_cases sentChat)
open ChatLoading (route_getChats received_chats createdAt_listUserChats mem_rowsToChats readable)
open Library.Transition (AlwaysM runM alwaysM_cons_iff runM_cons_eq_ok)

def named (s : Server) : Event → List UserChat
  | .request _ raw tReq =>
    if tReq.mValid = true ∧ raw.command = .delivered ∧
        (searchUserByToken s.db.toDatabase raw.word).mEmpty = false ∧ raw.arguments ≠ [] then
      match namedChats s.db.chats (Search.splitOn [comma] raw.arguments) with
      | .ok userChats => userChats
      | .error _ => []
    else []
  | .disconnect _ => []

def Marks (row : ChatRow) (s : Server) (event : Event) : Prop :=
  delivers (named s event) row = true

instance (row : ChatRow) (s : Server) (event : Event) : Decidable (Marks row s event) :=
  inferInstanceAs (Decidable (_ = true))

def KeepsChats (a b : Server) : Prop := ∀ row ∈ a.db.chats.entries, row ∈ b.db.chats.entries

section

variable {pg : Engine} {draw : Draw} {tArg : ByteString} {tReq req : Request} {s s' t : Server}
  {row : ChatRow} {event : Event}

theorem Quiet.keepsChats {a b : Server} (h : Quiet a b) : KeepsChats a b := by
  intro row hrow
  rw [h.chats]
  exact hrow

theorem KeepsChats.addUserChat {a b : Server} (h : KeepsChats a b) (chat : UserChat) :
    KeepsChats a (b.addUserChat pg draw chat) := by
  intro row hrow
  change row ∈ (Postgres.addUserChat pg draw b.db chat).chats.entries
  rw [Postgres.addUserChat]
  split
  · exact h row hrow
  · next hfresh =>
    rw [not_or, Bool.not_eq_true, Option.isSome_eq_false_iff, Option.isNone_iff_eq_none]
      at hfresh
    dsimp only
    rw [Keyed.entries_insert hfresh.1]
    exact List.mem_append_left _ (h row hrow)

theorem keepsChats_controllers {command : ServerCommand.Name} (hother : command ≠ .delivered)
    (h : controllers pg draw command tArg tReq s = .ok (req, s')) : KeepsChats s s' := by
  have hcalls : ∀ {result : Exec (Request × AwaitingUsers)},
      onCalls tReq s result = .ok (req, s') → KeepsChats s s' := by
    intro result h
    obtain ⟨⟨r, after⟩, -, h⟩ := bind_eq_ok.mp h
    obtain ⟨-, rfl⟩ := Prod.mk.inj (Except.ok.inj h)
    exact fun row hrow => hrow
  cases command with
  | create => exact Quiet.keepsChats (quiet_follows.create h)
  | login => exact Quiet.keepsChats (quiet_follows.login h)
  | exit => exact Quiet.keepsChats (quiet_follows.exit h)
  | list => exact Quiet.keepsChats (quiet_follows.list h)
  | search => exact Quiet.keepsChats (quiet_follows.search h)
  | add =>
    obtain ⟨t, hquiet, hread | ⟨contactId, hadded⟩⟩ := quiet_follows.add pg draw tArg tReq s
    · exact related_of_ok h (hread ▸ Quiet.keepsChats hquiet)
    · have hkeeps : KeepsChats s (UserControllers.add pg draw tArg tReq s).2 := by
        rw [hadded]
        exact fun row hrow => Quiet.keepsChats hquiet row hrow
      exact related_of_ok h hkeeps
  | remove =>
    obtain ⟨t, hquiet, hread | ⟨contactId, hremoved⟩⟩ := quiet_follows.remove pg tArg tReq s
    · exact related_of_ok h (hread ▸ Quiet.keepsChats hquiet)
    · have hkeeps : KeepsChats s (UserControllers.remove pg tArg tReq s).2 := by
        rw [hremoved]
        exact fun row hrow => Quiet.keepsChats hquiet row hrow
      exact related_of_ok h hkeeps
  | available => exact Quiet.keepsChats (quiet_follows.available h)
  | send =>
    obtain ⟨t, hquiet, rfl | ⟨chat, -, rfl⟩⟩ := quiet_follows.send h
    · exact Quiet.keepsChats hquiet
    · exact KeepsChats.addUserChat (Quiet.keepsChats hquiet) chat
  | pending => exact Quiet.keepsChats (quiet_follows.getChats h)
  | chat => exact Quiet.keepsChats (quiet_follows.getChats h)
  | delivered => exact absurd rfl hother
  | connect => exact hcalls h
  | accept => exact hcalls h
  | hangup => exact hcalls h
  | reject => exact hcalls h
  | ping => exact hcalls h
  | none => exact related_of_ok h fun row hrow => hrow

theorem mem_marked_iff {chats : Keyed ChatRow.id} {userChats : List UserChat}
    (hrow : row ∈ chats.entries) (hunread : row.delivered = false) :
    (row ∈ chats.entries.map fun row =>
        if delivers userChats row then { row with delivered := true } else row) ↔
      ¬delivers userChats row = true := by
  constructor
  · intro hmem hmarks
    obtain ⟨old, hold, hsame⟩ := List.mem_map.mp hmem
    split at hsame
    · rw [← hsame] at hunread
      cases hunread
    · next hkept =>
      rw [hsame] at hkept
      exact hkept hmarks
  · intro hkept
    exact List.mem_map.mpr ⟨row, hrow, if_neg hkept⟩

theorem chats_delivered (hshort : tArg.length < 2 ^ 31) (hne : tArg ≠ [])
    (hplain : ChatControllers.Plain s.db.chats (Search.splitOn [comma] tArg))
    (h : ChatControllers.delivered pg tArg tReq s = .ok (req, s')) :
    s'.db.chats.entries = s.db.chats.entries.map fun row =>
      if delivers (match namedChats s.db.chats (Search.splitOn [comma] tArg) with
        | .ok userChats => userChats
        | .error _ => []) row then { row with delivered := true } else row := by
  obtain ⟨hfound, hdb⟩ := ChatControllers.findChats_plain pg hplain
  rw [ChatControllers.delivered_eq pg hshort hne] at h
  rw [hfound] at h
  cases hnamed : namedChats s.db.chats (Search.splitOn [comma] tArg) with
  | error id =>
    rw [hnamed] at h
    obtain ⟨-, rfl⟩ := Prod.mk.inj (Except.ok.inj h)
    rw [hdb]
    simp [delivers]
  | ok userChats =>
    rw [hnamed] at h
    obtain ⟨-, rfl⟩ := Prod.mk.inj (Except.ok.inj h)
    rw [ChatControllers.entries_setAllDelivered, hdb]

theorem mem_chats_step_iff (hrow : row ∈ s.db.chats.entries) (hunread : row.delivered = false)
    (hplain : PlainStep s event) (hstep : step pg s event = .ok s') :
    row ∈ s'.db.chats.entries ↔ ¬Marks row s event := by
  have hnobody : ¬delivers [] row = true := by simp [delivers]
  cases event with
  | disconnect tReq =>
    refine iff_of_true ?_ hnobody
    rw [disconnect_db hstep]
    split
    · unfold exited
      dsimp only
      split
      · exact hrow
      · exact hrow
    · exact hrow
  | request draw raw tReq =>
    obtain ⟨req, hroute⟩ := step_request hstep
    rw [Marks, named]
    cases hvalid : tReq.mValid with
    | false =>
      rw [route_invalid pg draw raw s hvalid] at hroute
      rw [if_neg fun h => Bool.false_ne_true h.1]
      exact iff_of_true (related_of_ok (R := KeepsChats) hroute (fun row hrow => hrow) row hrow)
        hnobody
    | true =>
      cases hlogin : requireLogin raw.command with
      | false =>
        have hother : raw.command ≠ .delivered := by
          intro hcommand
          rw [hcommand] at hlogin
          cases hlogin
        obtain ⟨token, arguments, hopen⟩ := route_open hvalid hlogin
        rw [hopen] at hroute
        rw [if_neg fun h => hother h.2.1]
        refine iff_of_true ?_ hnobody
        split at hroute
        · exact Quiet.keepsChats (quiet_controllers hlogin hroute) row hrow
        · exact related_of_ok (R := KeepsChats) hroute (fun row hrow => hrow) row hrow
      | true =>
        rw [route_login pg draw s hvalid hlogin] at hroute
        split at hroute
        · next hempty =>
          rw [if_neg fun h => by rw [h.2.2.1] at hempty; cases hempty]
          exact iff_of_true
            (related_of_ok (R := KeepsChats) hroute (fun row hrow => hrow) row hrow) hnobody
        · next hstored =>
          have hfound := Bool.eq_false_of_not_eq_true hstored
          by_cases hcommand : raw.command = .delivered
          · have hvalidate : validateArgument raw.command raw.arguments = true := by
              rw [hcommand]
              rfl
            rw [if_pos hvalidate, hcommand] at hroute
            have hdelivered : ChatControllers.delivered pg raw.arguments
                { raw.request tReq with mToken := raw.word } (asked s raw.word) = .ok (req, s') :=
              hroute
            by_cases hne : raw.arguments = []
            · rw [if_neg fun h => h.2.2.2 hne]
              rw [ChatControllers.delivered, if_pos hne] at hdelivered
              exact iff_of_true (related_of_ok (R := KeepsChats) hdelivered
                (fun row hrow => hrow) row hrow) hnobody
            · have hids : ChatControllers.Plain (asked s raw.word).db.chats
                  (Search.splitOn [comma] raw.arguments) := hplain hvalid hcommand hfound hne
              rw [if_pos ⟨rfl, hcommand, hfound, hne⟩,
                chats_delivered (length_arguments_lt raw) hne hids hdelivered]
              exact mem_marked_iff hrow hunread
          · rw [if_neg fun h => hcommand h.2.1]
            refine iff_of_true ?_ hnobody
            split at hroute
            · exact keepsChats_controllers hcommand hroute row hrow
            · exact related_of_ok (R := KeepsChats) hroute (fun row hrow => hrow) row hrow

theorem mem_run_iff {events : List Event} (hrow : row ∈ s.db.chats.entries)
    (hunread : row.delivered = false)
    (hplain : AlwaysM (step pg) (fun a event _ => PlainStep a event) s events)
    (hrun : runM (step pg) s events = .ok t) :
    row ∈ t.db.chats.entries ↔
      AlwaysM (step pg) (fun a event _ => ¬Marks row a event) s events := by
  induction events generalizing s with
  | nil =>
    obtain rfl := Except.ok.inj hrun
    apply iff_of_true hrow
    intro pre event post a b he
    simp at he
  | cons event events ih =>
    obtain ⟨next, hnext, hrest⟩ := runM_cons_eq_ok.mp hrun
    obtain ⟨hfirst, htail⟩ := (alwaysM_cons_iff event events).mp hplain next hnext
    have hstep := mem_chats_step_iff hrow hunread hfirst hnext
    rw [alwaysM_cons_iff]
    by_cases hmarks : Marks row s event
    · apply iff_of_false
      · intro hmem
        have hgone : row ∉ next.db.chats.entries := fun hin => hstep.mp hin hmarks
        obtain ⟨draw, hdraws⟩ := exists_draws event
        have hkept : Kept s.db next.db := inv_of_writes (fun h hwrite => Kept.write h hwrite)
          ⟨Grows.refl sameAccount_refl _, Grows.refl sameChat_refl _⟩
          (writes_step hdraws hfirst hnext)
        have hlater : Kept next.db t.db := run_of_write (fun h hwrite => Kept.write h hwrite)
          ⟨Grows.refl sameAccount_refl _, Grows.refl sameChat_refl _⟩ htail hrest
        obtain ⟨read, hread, rfl | rfl⟩ := hkept.chats.mem hrow
        · exact hgone hread
        · obtain ⟨same, hsame, rfl | rfl⟩ := hlater.chats.mem hread
          · have heq := List.inj_on_of_nodup_map t.db.chats.nodup hmem hsame rfl
            rw [heq] at hunread
            cases hunread
          · have heq := List.inj_on_of_nodup_map t.db.chats.nodup hmem hsame rfl
            rw [heq] at hunread
            cases hunread
      · intro h
        exact (h next hnext).1 hmarks
    · rw [ih (hstep.mpr hmarks) htail hrest]
      constructor
      · intro h other hother
        rw [hnext] at hother
        obtain rfl := Except.ok.inj hother
        exact ⟨hmarks, h⟩
      · intro h
        exact (h next hnext).2

theorem send_confirmed {data : ByteString} (hvalid : tReq.mValid = true)
    (hcommand : Carried (str "SEND " ++ data))
    (h : Chat.send (server pg draw tReq) data s = .ok (true, s')) :
    let raw := hcommand.message
    let sent := { raw.request tReq with mToken := raw.word }
    FindsBoth pg ⟨true, true, true⟩ raw sent s ∧
      s'.db = addUserChat pg draw s.db (sentChat pg raw sent s) := by
  intro raw sent
  have h202 : Chat.validResponse .r200 (Reply.getMessage .r202) = false := by decide +kernel
  have h303 : Chat.validResponse .r200 (Reply.getMessage .r303) = false := by decide +kernel
  have h501 : Chat.validResponse .r200 (Reply.getMessage .r501) = false := by decide +kernel
  have hrefused : ∀ {code : Reply.Code} {reply : Request} {after : Server},
      Chat.validResponse .r200 (Reply.getMessage code) = false →
      reply.mData = some (textData (Reply.getMessage code)) →
      route pg draw (raw.request tReq) s ≠ .ok (reply, after) := by
    intro code reply after hfalse hdata hroute
    rw [Chat.send, Chat.confirmed,
      server_eq hcommand hroute hdata (Accounts.carried_getMessage code), ok_bind] at h
    obtain ⟨htrue, -⟩ := Prod.mk.inj (Except.ok.inj h)
    rw [hfalse] at htrue
    cases htrue
  have htext : raw.text = ServerCommand.toString .send ++ space :: data := rfl
  have hword : raw.command = .send := (WireFormat.command_body htext).1
  have hlogin : requireLogin raw.command = true := by rw [hword]; rfl
  have hroute := route_login pg draw s hvalid hlogin
  split at hroute
  · exact absurd hroute (hrefused h202 rfl)
  · next hstored =>
    split at hroute
    · next hvalidate =>
      obtain ⟨reply, after, hsend, hcases⟩ := sendWith_cases pg draw ⟨true, true, true⟩ raw sent
        (asked s raw.word)
      rw [sendWith_all] at hsend
      rw [hword] at hroute
      have hanswer : route pg draw (raw.request tReq) s = .ok (reply, after) := hroute.trans hsend
      rcases hcases with ⟨hfound, hreply, hdb⟩ | ⟨hmissing, hreply, hdb⟩
      · rw [Chat.send, Chat.confirmed,
          server_eq hcommand hanswer hreply (Accounts.carried_getMessage .r200), ok_bind] at h
        obtain ⟨-, rfl⟩ := Prod.mk.inj (Except.ok.inj h)
        exact ⟨hfound, hdb⟩
      · exact absurd hanswer (hrefused h303 hreply)
    · exact absurd hroute (hrefused h501 rfl)

theorem pending_read (pg : Engine) (draw : Draw) {token : ByteString}
    (hvalid : tReq.mValid = true) (hspace : space ∉ token)
    (hcommand : Carried (str "PENDING " ++ (token ++ str " ")))
    (hstored : (searchUserByToken s.db.toDatabase token).mEmpty = false)
    (hreply : Carried (str "201 " ++ ChatControllers.buildResponse
      (listUserChats pg s.db (searchUserByToken s.db.toDatabase token).mId true none))) :
    ∃ s', Chat.getPending (server pg draw tReq) (token ++ str " ") s =
      .ok ((listUserChats pg s.db (searchUserByToken s.db.toDatabase token).mId true none).map
        fun chat => { chat with mEmpty := true }, s') := by
  have htext : hcommand.message.text =
      ServerCommand.toString .pending ++ space :: (token ++ str " ") := rfl
  obtain ⟨hname, hbody⟩ := WireFormat.command_body htext
  have hcut : Search.cutFirst [space] hcommand.message.body = (token, []) := by
    rw [hbody]
    exact Search.cutFirst_append_cons [] hspace
  have hword : hcommand.message.word = token := congrArg Prod.fst hcut
  have harguments : hcommand.message.arguments = [] := congrArg Prod.snd hcut
  have hroute := route_getChats pg draw (Or.inr hname) hvalid (hword ▸ hstored)
  have hpending : decide (ServerCommand.Name.pending = ServerCommand.Name.pending) = true := rfl
  rw [hname, hword, harguments, hpending, ChatControllers.chatsReply] at hroute
  dsimp only at hroute
  rw [if_neg (ne_true_of_eq_false hstored), if_pos rfl] at hroute
  cases hresult : route pg draw (hcommand.message.request tReq) s with
  | error e =>
    rw [hresult] at hroute
    cases hroute
  | ok answer =>
    obtain ⟨reply, after⟩ := answer
    rw [hresult] at hroute
    obtain rfl := Except.ok.inj hroute
    rw [Chat.getPending, server_eq hcommand hresult rfl hreply, ok_bind]
    dsimp only
    rw [received_chats (createdAt_listUserChats _ _ _ _ _) (hreply.short.trans (by decide)),
      ok_bind]
    exact ⟨after, rfl⟩

/-! ### From one client to the other -/

def letter (draw : Draw) (sender recipient : Int32) (message : ByteString) : ChatRow :=
  ⟨draw.chatId, draw.createdAt, sender, recipient, false, some message⟩

def readLetter (id : Int32) (draw : Draw) (sender recipient : Int32) (message : ByteString) :
    UserChat :=
  ⟨id, draw.createdAt.text, sender, recipient, message, false, true⟩

theorem rowToChat_inj {a b : ChatRow} {chat : UserChat} (ha : rowToChat a = some chat)
    (hb : rowToChat b = some chat) : a = b := by
  have hparts : ∀ {row : ChatRow}, rowToChat row = some chat →
      ∃ at_ : Timestamp, at_.text = chat.mCreatedAt ∧ row =
        ⟨chat.mId.toInt, at_, chat.mSender, chat.mRecipient, chat.mDelivered, some chat.mText⟩ := by
    intro row h
    unfold rowToChat at h
    split at h
    · next id text hid htext =>
      obtain rfl := Option.some.inj h
      refine ⟨row.createdAt, rfl, ?_⟩
      dsimp only
      rw [toInt_eq_some hid, ← htext]
    · cases h
  obtain ⟨first, hfirst, rfl⟩ := hparts ha
  obtain ⟨second, hsecond, rfl⟩ := hparts hb
  obtain ⟨text, hplain⟩ := first
  obtain ⟨other, hother⟩ := second
  obtain rfl : text = other := hfirst.trans hsecond.symm
  rfl

theorem mem_read_iff {id sender recipient : Int32} {message : ByteString}
    (hid : draw.chatId = id.toInt)
    (hints : ∀ row ∈ s.db.chats.entries, (rowToChat row).isSome = true) :
    readLetter id draw sender recipient message ∈
        (listUserChats pg s.db recipient true none).map (fun chat => { chat with mEmpty := true }) ↔
      letter draw sender recipient message ∈ s.db.chats.entries := by
  have hread : rowToChat (letter draw sender recipient message) =
      some { readLetter id draw sender recipient message with mEmpty := false } := by
    rw [letter, rowToChat, hid, Accounts.toInt_toInt]
    rfl
  have hlisted : ∀ chat, chat ∈ listUserChats pg s.db recipient true none ↔
      ∃ row ∈ s.db.chats.entries, listsChat recipient true none row = true ∧
        rowToChat row = some chat := by
    intro chat
    rw [(ChatLoading.perm_listUserChats hints).mem_iff, List.mem_filterMap]
    simp only [List.mem_filter, and_assoc]
  rw [List.mem_map]
  constructor
  · rintro ⟨chat, hchat, hsame⟩
    obtain ⟨row, hrow, -, hchatRow⟩ := (hlisted chat).mp hchat
    have hempty : chat.mEmpty = false := by
      unfold rowToChat at hchatRow
      split at hchatRow
      · rw [← Option.some.inj hchatRow]
      · cases hchatRow
    have hchatEq : chat = { readLetter id draw sender recipient message with mEmpty := false } := by
      rw [← hsame, ← hempty]
    rw [hchatEq] at hchatRow
    rw [rowToChat_inj hread hchatRow]
    exact hrow
  · intro hrow
    refine ⟨_, (hlisted _).mpr ⟨_, hrow, ?_, hread⟩, rfl⟩
    simp [listsChat, letter]

end

/-- A message that a client takes for sent is among what the client of the recipient reads
any time later, with its id, its sender and every byte of its text, exactly as long as no
`DELIVERED` of anybody has named it. Unreadable chats are excluded, as the first of them
ends the list. -/
theorem message_arrives (pg : Engine) (draw later : Draw) (tReq tLater : Request)
    (tokenA tokenB message : ByteString) (recipient id : Int32) (s s₁ s₂ : Server)
    (events : List Event) (hvalid : tReq.mValid = true) (hlater : tLater.mValid = true)
    (hspaceA : space ∉ tokenA) (hspaceB : space ∉ tokenB)
    (hcommand : Carried
      (str "SEND " ++ (tokenA ++ str " " ++ (intToString recipient ++ str " " ++ message))))
    (hreads : pg.readId (intToString recipient) = some recipient.toInt)
    (htakes : pg.takesText message = true) (hnew : s.db.chats.find? draw.chatId = none)
    (hid : draw.chatId = id.toInt)
    (hsend : Chat.send (server pg draw tReq)
      (tokenA ++ str " " ++ (intToString recipient ++ str " " ++ message)) s = .ok (true, s₁))
    (hplain : AlwaysM (step pg) (fun a event _ => PlainStep a event) s₁ events)
    (hrun : runM (step pg) s₁ events = .ok s₂)
    (hfound : (searchUserByToken s₂.db.toDatabase tokenB).mEmpty = false)
    (howner : (searchUserByToken s₂.db.toDatabase tokenB).mId = recipient)
    (hints : ∀ row ∈ s₂.db.chats.entries, (rowToChat row).isSome = true)
    (hpending : Carried (str "PENDING " ++ (tokenB ++ str " ")))
    (hreply : Carried (str "201 " ++ ChatControllers.buildResponse
      (listUserChats pg s₂.db recipient true none))) :
    ∃ chats s₃, Chat.getPending (server pg later tLater) (tokenB ++ str " ") s₂ =
        .ok (chats, s₃) ∧
      (readLetter id draw (searchUserByToken s.db.toDatabase tokenA).mId recipient message ∈
          chats ↔
        AlwaysM (step pg) (fun a event _ => ¬Marks (letter draw
          (searchUserByToken s.db.toDatabase tokenA).mId recipient message) a event)
          s₁ events) := by
  obtain ⟨hboth, hdb⟩ := send_confirmed hvalid hcommand hsend
  have htext : hcommand.message.text = ServerCommand.toString .send ++
      space :: (tokenA ++ str " " ++ (intToString recipient ++ str " " ++ message)) := rfl
  obtain ⟨-, hbody⟩ := WireFormat.command_body htext
  have hcut : Search.cutFirst [space] hcommand.message.body =
      (tokenA, intToString recipient ++ str " " ++ message) := by
    rw [hbody, List.append_assoc]
    exact Search.cutFirst_append_cons _ hspaceA
  have hword : hcommand.message.word = tokenA := congrArg Prod.fst hcut
  have harguments : hcommand.message.arguments = intToString recipient ++ str " " ++ message :=
    congrArg Prod.snd hcut
  have hpieces : Search.cutFirst [space] hcommand.message.arguments =
      (intToString recipient, message) := by
    rw [harguments, List.append_assoc]
    exact Search.cutFirst_append_cons _ (WireFormat.space_notMem_intToString recipient)
  have hterm : ChatControllers.recipientText hcommand.message = intToString recipient :=
    congrArg Prod.fst hpieces
  have hmessage : ChatControllers.message hcommand.message = message := congrArg Prod.snd hpieces
  have hrecipient : (searchUserBy pg s.db.toDatabase (intToString recipient) .id).mId =
      recipient := by
    have hread := ChatControllers.readId_of_searchUserBy (hterm ▸ hboth.2.2)
    rw [hreads] at hread
    exact (Int32.toInt_inj.mp (Option.some.inj hread)).symm
  have hentries : s₁.db.chats.entries = s.db.chats.entries ++ [letter draw
      (searchUserByToken s.db.toDatabase tokenA).mId recipient message] := by
    rw [hdb, Mailbox.chats_addUserChat hnew]
    · rw [sentChat, letter, hterm, hword, hmessage, hrecipient]
    · rw [sentChat, hmessage]
      exact htakes
  have hmem : letter draw (searchUserByToken s.db.toDatabase tokenA).mId recipient message ∈
      s₁.db.chats.entries := by
    rw [hentries]
    exact List.mem_append_right _ (List.mem_singleton_self _)
  obtain ⟨s₃, hread⟩ := pending_read pg later hlater hspaceB hpending hfound (howner ▸ hreply)
  rw [howner] at hread
  refine ⟨_, s₃, hread, ?_⟩
  rw [mem_read_iff hid hints]
  exact mem_run_iff hmem rfl hplain hrun

def lateDraw : Draw := { sampleDraw with chatId := 9 }

def johnSent : Bool × Server :=
  Accounts.returned (Chat.send (server Engine.basic lateDraw johnRequest)
    (str "abc" ++ str " " ++ (intToString 2 ++ str " " ++ str "see you")) twoUsers)
    (false, twoUsers)

def johnGone : Server :=
  Accounts.returned (runM (step Engine.basic) johnSent.2 busyDay) twoUsers

theorem message_arrives_mario : ∃ chats s₃,
    Chat.getPending (server Engine.basic sampleDraw johnRequest) (str "def" ++ str " ") johnGone =
        .ok (chats, s₃) ∧
      readLetter 9 lateDraw 1 2 (str "see you") ∈ chats := by
  have hsend : Chat.send (server Engine.basic lateDraw johnRequest)
      (str "abc" ++ str " " ++ (intToString 2 ++ str " " ++ str "see you")) twoUsers =
        .ok (true, johnSent.2) := by
    have htrue : johnSent.1 = true := by decide +kernel
    have hreturned : Chat.send (server Engine.basic lateDraw johnRequest)
        (str "abc" ++ str " " ++ (intToString 2 ++ str " " ++ str "see you")) twoUsers =
          .ok johnSent := Accounts.eq_ok_returned (false, twoUsers) (by decide +kernel)
    generalize johnSent = sent at htrue hreturned
    obtain ⟨ok, after⟩ := sent
    obtain rfl : ok = true := htrue
    exact hreturned
  have hrun : runM (step Engine.basic) johnSent.2 busyDay = .ok johnGone :=
    Accounts.eq_ok_returned twoUsers (by decide +kernel)
  obtain ⟨chats, s₃, hread, hiff⟩ := message_arrives Engine.basic lateDraw sampleDraw johnRequest
    johnRequest (str "abc") (str "def") (str "see you") 2 9 twoUsers johnSent.2 johnGone busyDay
    rfl rfl (by decide) (by decide) (by decide +kernel) (by decide +kernel) rfl
    (by decide +kernel) rfl hsend (by decide +kernel) hrun (by decide +kernel)
    (by decide +kernel) (by decide +kernel) (by decide) (by decide +kernel)
  have hjohn : (searchUserByToken twoUsers.db.toDatabase (str "abc")).mId = 1 := by decide +kernel
  rw [hjohn] at hiff
  exact ⟨chats, s₃, hread, hiff.mpr (by decide +kernel)⟩

end MessageDelivery

end Skype
