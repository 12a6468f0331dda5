import Skype.ChatIds

/-!
# Whose chats `DELIVERED` changes

`delivered` looks the chats up by their ids and never looks who they are for, so a user
can take a message out of the `PENDING` of another one. It cannot when the ids are
numerals and the undelivered chats among those named are its own.
-/

namespace Skype.Router

open Library Postgres ChatControllers

def SetsOwn (u : Int32) (a b : Tables) : Prop :=
  ∀ row ∈ b.chats.entries, row.delivered = true → row ∉ a.chats.entries → row.recipientId = u

def OthersKept (u : Int32) (a b : Tables) : Prop :=
  (b.chats.entries.filter fun row => row.recipientId ≠ u) =
    a.chats.entries.filter fun row => row.recipientId ≠ u

def SameReply (a b : Exec (Request × Server)) : Prop := a.map Prod.fst = b.map Prod.fst

/-- A `DELIVERED` sets chats for the user of its token only, and no `PENDING` of another
user is answered otherwise behind it. -/
def HidesNothing (pg : Engine) (draw : Draw) (raw : Message) (tReq : Request) (s : Server) : Prop :=
  tReq.mValid = true → raw.command = .delivered →
    (searchUserByToken s.db.toDatabase raw.word).mEmpty = false →
    ∀ req s', route pg draw (raw.request tReq) s = .ok (req, s') →
      SetsOwn (searchUserByToken s.db.toDatabase raw.word).mId s.db s'.db ∧
      ∀ (other : Message) (oReq : Request) (oDraw : Draw), other.command = .pending →
        (searchUserByToken s.db.toDatabase other.word).mEmpty = false →
        (searchUserByToken s.db.toDatabase other.word).mId ≠
          (searchUserByToken s.db.toDatabase raw.word).mId →
        SameReply (route pg oDraw (other.request oReq) s) (route pg oDraw (other.request oReq) s')

def OwnChats (raw : Message) (tReq : Request) (s : Server) : Prop :=
  PlainIds raw tReq s ∧
    (tReq.mValid = true → raw.command = .delivered →
      (searchUserByToken s.db.toDatabase raw.word).mEmpty = false → raw.arguments ≠ [] →
      ∀ userChats, namedChats s.db.chats (Search.splitOn [comma] raw.arguments) = .ok userChats →
        ∀ chat ∈ userChats, chat.mDelivered = false →
          chat.mRecipient = (searchUserByToken s.db.toDatabase raw.word).mId)

section

variable {chats : Keyed ChatRow.id} {ids : List ByteString}

theorem numeralChat_named {id : ByteString} (h : (numeralChat chats id).mEmpty = false) :
    ∃ row ∈ chats.entries, row.id = (Decimal.value id : ℤ) ∧
      rowToChat row = some (numeralChat chats id) := by
  unfold numeralChat at h ⊢
  split at h
  · cases h
  · next row hrow =>
    obtain ⟨hmem, hid⟩ := List.mem_filter.mp (mem_of_exec1 hrow)
    refine ⟨row, hmem, of_decide_eq_true hid, ?_⟩
    cases hchat : rowToChat row with
    | none =>
      rw [hchat] at h
      cases h
    | some chat => rfl

theorem namedChats_ok {userChats : List UserChat} (h : namedChats chats ids = .ok userChats) :
    userChats = ids.map (numeralChat chats) ∧
      ∀ id ∈ ids, (numeralChat chats id).mEmpty = false := by
  induction ids generalizing userChats with
  | nil =>
    obtain rfl := Except.ok.inj h
    exact ⟨rfl, by simp⟩
  | cons id ids ih =>
    rw [namedChats] at h
    split at h
    · cases h
    · next hfound =>
      cases hrest : namedChats chats ids with
      | error refused =>
        rw [hrest] at h
        cases h
      | ok rest =>
        rw [hrest] at h
        obtain rfl := Except.ok.inj h
        obtain ⟨rfl, hall⟩ := ih hrest
        refine ⟨rfl, ?_⟩
        intro other hother
        rcases List.mem_cons.mp hother with rfl | hother
        · exact Bool.eq_false_of_not_eq_true hfound
        · exact hall other hother

theorem namedChats_rows {userChats : List UserChat} (h : namedChats chats ids = .ok userChats) :
    ∀ chat ∈ userChats, ∃ row ∈ chats.entries, rowToChat row = some chat := by
  obtain ⟨rfl, hfound⟩ := namedChats_ok h
  intro chat hchat
  obtain ⟨id, hid, rfl⟩ := List.mem_map.mp hchat
  obtain ⟨row, hrow, -, hread⟩ := numeralChat_named (hfound id hid)
  exact ⟨row, hrow, hread⟩

end

theorem delivers_iff {chats : Keyed ChatRow.id} {userChats : List UserChat}
    (hrows : ∀ chat ∈ userChats, ∃ row ∈ chats.entries, rowToChat row = some chat)
    {row : ChatRow} (hrow : row ∈ chats.entries) :
    delivers userChats row = true ↔
      ∃ chat ∈ userChats, chat.mDelivered = false ∧ rowToChat row = some chat := by
  constructor
  · intro h
    obtain ⟨chat, hchat, hboth⟩ := List.any_eq_true.mp h
    rw [Bool.and_eq_true, Bool.not_eq_true', beq_iff_eq] at hboth
    obtain ⟨hdelivered, hid⟩ := hboth
    obtain ⟨own, hown, hread⟩ := hrows chat hchat
    have hsame : own = row := by
      apply List.inj_on_of_nodup_map chats.nodup hown hrow
      rw [← (rowToChat_fields hread).1, hid]
    exact ⟨chat, hchat, hdelivered, hsame ▸ hread⟩
  · rintro ⟨chat, hchat, hdelivered, hread⟩
    apply List.any_eq_true.mpr
    refine ⟨chat, hchat, ?_⟩
    rw [hdelivered, (rowToChat_fields hread).1]
    simp

theorem OthersKept.setsOwn {u : Int32} {a b : Tables} (h : OthersKept u a b) : SetsOwn u a b := by
  intro row hrow hdelivered hnew
  by_contra hother
  have hin : row ∈ b.chats.entries.filter fun row => row.recipientId ≠ u :=
    List.mem_filter.mpr ⟨hrow, decide_eq_true hother⟩
  rw [h] at hin
  exact hnew (List.mem_of_mem_filter hin)

section

variable {s t : Server} {userChats : List UserChat} {u : Int32}

theorem othersKept_setAllDelivered (hdb : t.db = s.db)
    (hrows : ∀ chat ∈ userChats, ∃ row ∈ s.db.chats.entries, rowToChat row = some chat)
    (hown : ∀ chat ∈ userChats, chat.mDelivered = false → chat.mRecipient = u) :
    OthersKept u s.db (setAllDelivered t userChats).db := by
  have hrecipient : ((fun row : ChatRow => decide (row.recipientId ≠ u)) ∘ fun row : ChatRow =>
      if delivers userChats row then { row with delivered := true } else row) =
      fun row => decide (row.recipientId ≠ u) := by
    funext row
    rw [Function.comp_apply]
    split
    · rfl
    · rfl
  rw [OthersKept, entries_setAllDelivered, hdb, List.filter_map, hrecipient]
  refine Eq.trans (List.map_congr_left ?_) (List.map_id _)
  intro row hin
  obtain ⟨hrow, hother⟩ := List.mem_filter.mp hin
  rw [decide_eq_true_eq] at hother
  rw [if_neg, id]
  intro hset
  obtain ⟨chat, hchat, hdelivered, hread⟩ := (delivers_iff hrows hrow).mp hset
  apply hother
  rw [← (rowToChat_fields hread).2.1]
  exact hown chat hchat hdelivered

theorem recipient_of_setsOwn (hdb : t.db = s.db)
    (hrows : ∀ chat ∈ userChats, ∃ row ∈ s.db.chats.entries, rowToChat row = some chat)
    (hsets : SetsOwn u s.db (setAllDelivered t userChats).db) :
    ∀ chat ∈ userChats, chat.mDelivered = false → chat.mRecipient = u := by
  intro chat hchat hdelivered
  obtain ⟨row, hrow, hread⟩ := hrows chat hchat
  obtain ⟨-, hfor, -, hflag, -⟩ := rowToChat_fields hread
  have hset : delivers userChats row = true :=
    (delivers_iff hrows hrow).mpr ⟨chat, hchat, hdelivered, hread⟩
  have hin : { row with delivered := true } ∈ (setAllDelivered t userChats).db.chats.entries := by
    rw [entries_setAllDelivered, hdb]
    apply List.mem_map.mpr
    exact ⟨row, hrow, if_pos hset⟩
  rw [hfor]
  refine hsets { row with delivered := true } hin rfl ?_
  intro hold
  have hsame : row = { row with delivered := true } :=
    List.inj_on_of_nodup_map s.db.chats.nodup hrow hold rfl
  have htrue : row.delivered = true := congrArg ChatRow.delivered hsame
  rw [← hflag, hdelivered] at htrue
  cases htrue

end

theorem listUserChats_of_othersKept {pg : Engine} {u v : Int32} {a b : Tables}
    (hkept : OthersKept u a b) (hne : v ≠ u) (tSender : Option Int32) :
    listUserChats pg b v true tSender = listUserChats pg a v true tSender := by
  have hthrough : ∀ db : Tables, db.chats.entries.filter (listsChat v true tSender) =
      (db.chats.entries.filter fun row => row.recipientId ≠ u).filter
        (listsChat v true tSender) := by
    intro db
    rw [List.filter_filter]
    apply List.filter_congr
    intro row hrow
    by_cases hfor : row.recipientId = v
    · simp [listsChat, hfor, hne]
    · simp [listsChat, hfor]
  rw [listUserChats, listUserChats, hthrough, hthrough, hkept]

theorem chatsReply_of_othersKept {pg : Engine} {a b : Tables} {u : Int32} {tReq : Request}
    (hdb : b.toDatabase = a.toDatabase) (hkept : OthersKept u a b)
    (hne : (searchUserByToken a.toDatabase tReq.mToken).mId ≠ u) (tArg : ByteString) :
    chatsReply pg tArg tReq true b = chatsReply pg tArg tReq true a := by
  have hsame : ∀ tSender, _ = listUserChats pg a _ true tSender :=
    listUserChats_of_othersKept hkept hne
  simp only [chatsReply, hdb, hsame]

theorem sameReply_pending {pg : Engine} {draw : Draw} {raw : Message} {tReq : Request}
    {s t : Server} {u : Int32} (hcommand : raw.command = .pending)
    (hdb : t.db.toDatabase = s.db.toDatabase) (hkept : OthersKept u s.db t.db)
    (hne : (searchUserByToken s.db.toDatabase raw.word).mId ≠ u) :
    SameReply (route pg draw (raw.request tReq) s) (route pg draw (raw.request tReq) t) := by
  cases hvalid : tReq.mValid with
  | false =>
    rw [route_invalid pg draw raw s hvalid, route_invalid pg draw raw t hvalid]
    rfl
  | true =>
    have hlogin : requireLogin raw.command = true := by
      rw [hcommand]
      rfl
    rw [route_login pg draw s hvalid hlogin, route_login pg draw t hvalid hlogin, hdb]
    split
    · rfl
    · split
      · rw [hcommand]
        let req := { raw.request tReq with mToken := raw.word }
        have hsame : chatsReply pg raw.arguments req true t.db =
            chatsReply pg raw.arguments req true s.db :=
          chatsReply_of_othersKept hdb hkept hne raw.arguments
        have hs := getChats_reply pg raw.arguments req true (asked s raw.word)
        have ht := getChats_reply pg raw.arguments req true (asked t raw.word)
        exact hs.trans ((congrArg Except.ok hsame.symm).trans ht.symm)
      · rfl

theorem hidesNothing_of_ownChats {draw : Draw} {raw : Message} {tReq : Request} {s : Server}
    (h : OwnChats raw tReq s) (pg : Engine) : HidesNothing pg draw raw tReq s := by
  intro hvalid hcommand hstored req s' hroute
  obtain ⟨hplain, hown⟩ := h
  have hkept : s'.db.toDatabase = s.db.toDatabase ∧
      OthersKept (searchUserByToken s.db.toDatabase raw.word).mId s.db s'.db := by
    rw [route_delivered pg draw s hvalid hcommand hstored] at hroute
    by_cases hne : raw.arguments = []
    · rw [hne, delivered, if_pos rfl] at hroute
      obtain ⟨-, rfl⟩ := Prod.mk.inj (Except.ok.inj hroute)
      exact ⟨rfl, rfl⟩
    · rw [delivered_eq pg (length_arguments_lt raw) hne] at hroute
      have hids : Plain (asked s raw.word).db.chats (Search.splitOn [comma] raw.arguments) :=
        hplain hvalid hcommand hstored hne
      obtain ⟨hfound, hdb⟩ := findChats_plain pg hids
      rw [hfound] at hroute
      split at hroute
      · obtain ⟨-, rfl⟩ := Prod.mk.inj (Except.ok.inj hroute)
        rw [hdb]
        exact ⟨rfl, rfl⟩
      · next userChats hnamed =>
        obtain ⟨-, rfl⟩ := Prod.mk.inj (Except.ok.inj hroute)
        constructor
        · rw [(setAllDelivered_others _ _).1, hdb]
          rfl
        · apply othersKept_setAllDelivered hdb (namedChats_rows hnamed)
          exact hown hvalid hcommand hstored hne userChats hnamed
  refine ⟨hkept.2.setsOwn, ?_⟩
  intro other oReq oDraw hpending hother hdifferent
  exact sameReply_pending hpending hkept.1 hkept.2 hdifferent

theorem not_hidesNothing_of_ids {draw : Draw} {raw : Message} {tReq : Request} {s : Server}
    (h : ¬PlainIds raw tReq s) : ∃ pg, ¬HidesNothing pg draw raw tReq s := by
  unfold PlainIds at h
  push Not at h
  obtain ⟨hvalid, hcommand, hstored, hne, hnumerals⟩ := h
  obtain ⟨id, hfresh⟩ :=
    Infinite.exists_notMem_finset (s.db.chats.entries.map ChatRow.id).toFinset
  rw [List.mem_toFinset] at hfresh
  let u := (searchUserByToken s.db.toDatabase raw.word).mId
  let row : ChatRow := { unreadable with id := id, recipientId := u + 1, delivered := true }
  have hnodup : ((row :: s.db.chats.entries).map ChatRow.id).Nodup :=
    List.nodup_cons.mpr ⟨hfresh, s.db.chats.nodup⟩
  let after : Tables := { s.db with chats := ⟨row :: s.db.chats.entries, hnodup⟩ }
  have hother : u + 1 ≠ u := by
    intro hsame
    simp at hsame
  let answer : ByteString → Tables → Option (Tables × List ChatRow) :=
    fun _ _ => some (after, [unreadable])
  refine ⟨Engine.basic.answering answer, ?_⟩
  intro hhides
  have hanswer : ∀ term, answer term s.db = some (after, [unreadable]) := fun _ => rfl
  obtain ⟨req, s', userChats, hroute, -, hentries⟩ :=
    route_answering draw hanswer hvalid hcommand hstored hne hnumerals
  have hsets := (hhides hvalid hcommand hstored req s' hroute).1
  have hin : row ∈ s'.db.chats.entries := by
    rw [hentries]
    apply List.mem_map.mpr
    exact ⟨row, List.mem_cons_self, ite_self row⟩
  apply hother
  exact hsets row hin rfl fun hold => hfresh (List.mem_map_of_mem hold)

theorem not_hidesNothing_of_chats (pg : Engine) {draw : Draw} {raw : Message} {tReq : Request}
    {s : Server} (hplain : PlainIds raw tReq s) (h : ¬OwnChats raw tReq s) :
    ¬HidesNothing pg draw raw tReq s := by
  intro hhides
  apply h
  refine ⟨hplain, ?_⟩
  intro hvalid hcommand hstored hne userChats hnamed
  have hids : Plain (asked s raw.word).db.chats (Search.splitOn [comma] raw.arguments) :=
    hplain hvalid hcommand hstored hne
  obtain ⟨hfound, hdb⟩ := findChats_plain pg hids
  have hroute := route_delivered pg draw s hvalid hcommand hstored
  rw [delivered_eq pg (length_arguments_lt raw) hne, hfound] at hroute
  have hall : namedChats (asked s raw.word).db.chats (Search.splitOn [comma] raw.arguments) =
      .ok userChats := hnamed
  rw [hall] at hroute
  have hsets := (hhides hvalid hcommand hstored _ _ hroute).1
  exact recipient_of_setsOwn hdb (namedChats_rows hnamed) hsets

theorem route_hidesNothing_iff (draw : Draw) (raw : Message) (tReq : Request) (s : Server) :
    (∀ pg, HidesNothing pg draw raw tReq s) ↔ OwnChats raw tReq s := by
  constructor
  · intro hhides
    by_contra hown
    by_cases hplain : PlainIds raw tReq s
    · exact not_hidesNothing_of_chats Engine.basic hplain hown (hhides _)
    · obtain ⟨pg, hnot⟩ := not_hidesNothing_of_ids hplain
      exact hnot (hhides pg)
  · intro hown pg
    exact hidesNothing_of_ownChats hown pg

/-- The chat 7 is for mario, who has not fetched it; john sets it to delivered. -/
theorem route_hides_chat :
    ¬HidesNothing Engine.basic sampleDraw deliveredMessage johnRequest twoUsers := by
  intro h
  let deliveredChat : ChatRow := ⟨7, morningTime, 1, 2, true, some (str "hi")⟩
  have hrun : (route Engine.basic sampleDraw (deliveredMessage.request johnRequest) twoUsers).map
      (fun result => result.2.db.chats.entries) = .ok [deliveredChat] := by decide +kernel
  cases hroute : route Engine.basic sampleDraw (deliveredMessage.request johnRequest) twoUsers with
  | error e =>
    rw [hroute] at hrun
    cases hrun
  | ok result =>
    rw [hroute] at hrun
    have hentries : result.2.db.chats.entries = [deliveredChat] := Except.ok.inj hrun
    have hin : deliveredChat ∈ result.2.db.chats.entries := by
      rw [hentries]
      exact List.mem_singleton_self _
    have hjohn :
        (2 : Int32) = (searchUserByToken twoUsers.db.toDatabase deliveredMessage.word).mId :=
      (h rfl rfl rfl result.1 result.2 hroute).1 deliveredChat hin rfl (by decide)
    exact absurd hjohn (by decide +kernel)

end Skype.Router
