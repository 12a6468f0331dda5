import Skype.Mailbox

/-!
# `DELIVERED` is all or nothing

The first loop of `delivered` stops at the first id without a chat, before anything is
written. A stored chat whose row cannot be converted stops it as well.
-/

namespace Skype.ChatControllers

open Library Postgres Mailbox Router

def Stored (chats : Keyed ChatRow.id) (id : ByteString) : Prop :=
  (Decimal.value id : ℤ) ∈ chats.entries.map ChatRow.id

instance (chats : Keyed ChatRow.id) (id : ByteString) : Decidable (Stored chats id) :=
  inferInstanceAs (Decidable (_ ∈ _))

def markNamed (ids : List ByteString) (row : ChatRow) : ChatRow :=
  if row.id ∈ ids.map fun id => (Decimal.value id : ℤ) then { row with delivered := true } else row

/-- The first id without a chat is refused and nothing is written, or all chats that `ids`
name are delivered. -/
def AllOrNothing (ids : List ByteString) (s : Server) (result : Exec (Request × Server)) : Prop :=
  ∃ reply server, result = .ok (reply, server) ∧
    match ids.find? fun id => ¬Stored s.db.chats id with
    | some id => reply.mData = some (textData (str "305 Invalid chat id " ++ id)) ∧
        server.db = s.db
    | none => reply.mData = some (textData (Reply.getMessage .r200)) ∧
        server.db.toDatabase = s.db.toDatabase ∧
        server.db.chats.entries = s.db.chats.entries.map (markNamed ids)

def CanReadNamed (chats : Keyed ChatRow.id) (ids : List ByteString) : Prop :=
  ∀ id ∈ ids.takeWhile fun id => Stored chats id, ∀ row ∈ chats.entries,
    row.id = (Decimal.value id : ℤ) → InRange row.id ∧ row.text ≠ none

instance (chats : Keyed ChatRow.id) (ids : List ByteString) : Decidable (CanReadNamed chats ids) :=
  inferInstanceAs (Decidable (∀ id ∈ ids.takeWhile _, ∀ row ∈ chats.entries, _ = _ → _ ∧ _))

section

variable {chats : Keyed ChatRow.id} {ids : List ByteString} {id : ByteString}

theorem numeralChat_of_row {row : ChatRow} (hrow : row ∈ chats.entries)
    (hid : row.id = (Decimal.value id : ℤ)) :
    numeralChat chats id = (rowToChat row).getD UserChat.new := by
  rw [numeralChat, ← hid, Keyed.filter_key chats.nodup hrow]
  rfl

theorem mEmpty_numeralChat_of_row {row : ChatRow} (hrow : row ∈ chats.entries)
    (hid : row.id = (Decimal.value id : ℤ)) :
    (numeralChat chats id).mEmpty = false ↔ InRange row.id ∧ row.text ≠ none := by
  rw [numeralChat_of_row hrow hid, ← isSome_rowToChat_iff]
  cases hread : rowToChat row with
  | none => exact iff_of_false (by decide) (by decide)
  | some chat =>
    unfold rowToChat at hread
    split at hread
    · cases hread
      exact iff_of_true rfl rfl
    · cases hread

theorem stored_of_numeralChat (h : (numeralChat chats id).mEmpty = false) : Stored chats id := by
  obtain ⟨row, hrow, hid, -⟩ := numeralChat_named h
  rw [Stored, ← hid]
  exact List.mem_map_of_mem hrow

theorem namedChats_eq_find : namedChats chats ids =
    match ids.find? fun id => (numeralChat chats id).mEmpty with
    | some id => .error id
    | none => .ok (ids.map (numeralChat chats)) := by
  induction ids with
  | nil => rfl
  | cons id ids ih =>
    rw [namedChats, List.find?_cons]
    cases hempty : (numeralChat chats id).mEmpty with
    | true => rfl
    | false =>
      rw [if_neg Bool.false_ne_true, ih]
      cases ids.find? fun id => (numeralChat chats id).mEmpty with
      | some refused => rfl
      | none => rfl

theorem find_refused_iff :
    (ids.find? fun id => (numeralChat chats id).mEmpty) = (ids.find? fun id => ¬Stored chats id) ↔
      CanReadNamed chats ids := by
  rw [Search.find_eq_find_iff]
  · rw [CanReadNamed]
    simp only [decide_not, Bool.not_not]
    refine forall₂_congr ?_
    intro id hid
    have hstored := List.mem_takeWhile_imp hid
    rw [decide_eq_true_eq] at hstored
    obtain ⟨row, hrow, hrowId⟩ := List.mem_map.mp hstored
    rw [mEmpty_numeralChat_of_row hrow hrowId]
    constructor
    · intro h other hother hsame
      rwa [List.inj_on_of_nodup_map chats.nodup hother hrow (hsame.trans hrowId.symm)]
    · intro h
      exact h row hrow hrowId
  · intro id hmissing
    rw [decide_eq_true_eq] at hmissing
    by_contra hfound
    exact hmissing (stored_of_numeralChat (Bool.eq_false_of_not_eq_true hfound))

end

theorem markNamed_eq_mark (ids : List ByteString) :
    markNamed ids = Letters.mark (ids.map fun id => (Decimal.value id : ℤ)) := by
  funext row
  unfold markNamed Letters.mark
  split
  · next h => simp [h]
  · next h => simp [h]

theorem arguments_ne_nil {raw : Message}
    (hids : ∀ id ∈ Search.splitOn [comma] raw.arguments, IsNumeral id) : raw.arguments ≠ [] := by
  intro hempty
  have hnil : Search.splitOn [comma] [] = [[]] := Search.splitOn_of_notMem List.not_mem_nil
  rw [hempty, hnil] at hids
  exact (hids [] (List.mem_singleton_self [])).1 rfl

theorem delivered_numerals (pg : Engine) (raw : Message)
    (hids : ∀ id ∈ Search.splitOn [comma] raw.arguments, IsNumeral id) (tReq : Request)
    (s : Server) :
    ∃ server, server.db.toDatabase = s.db.toDatabase ∧
      match (Search.splitOn [comma] raw.arguments).find?
          fun id => (numeralChat s.db.chats id).mEmpty with
      | some id => server.db = s.db ∧ delivered pg raw.arguments tReq s =
          .ok (tReq.setData (textData (str "305 Invalid chat id " ++ id)), server)
      | none => server.db.chats.entries =
            s.db.chats.entries.map (markNamed (Search.splitOn [comma] raw.arguments)) ∧
          delivered pg raw.arguments tReq s =
            .ok (ControllerUtils.setRequestReply .r200 tReq, server) := by
  obtain ⟨hfound, hdb⟩ := findChats_plain pg (plain_of_numerals hids)
  have hnamed : (findChats pg s (Search.splitOn [comma] raw.arguments)).1 = _ :=
    hfound.trans namedChats_eq_find
  rw [delivered_eq pg (length_arguments_lt raw) (arguments_ne_nil hids), hnamed]
  cases hfind : (Search.splitOn [comma] raw.arguments).find?
      fun id => (numeralChat s.db.chats id).mEmpty with
  | some id => exact ⟨_, congrArg Tables.toDatabase hdb, hdb, rfl⟩
  | none =>
    refine ⟨_, (setAllDelivered_others _ _).1.trans (congrArg Tables.toDatabase hdb), ?_, rfl⟩
    rw [hfind] at hnamed
    rw [entries_setAllDelivered, hdb, markNamed_eq_mark]
    apply List.map_congr_left
    intro row hrow
    exact delivers_mark (hfound.symm.trans hnamed) hrow

theorem invalidId_ne_ok (id : ByteString) :
    str "305 Invalid chat id " ++ id ≠ Reply.getMessage .r200 := by
  intro htext
  have hhead := congrArg List.head? htext
  have hcode : (str "305 Invalid chat id " ++ id).head? = some 51 := rfl
  rw [hcode] at hhead
  exact absurd hhead (by decide)

/-- `DELIVERED` is all or nothing exactly when it can read the chats that it looks up. -/
theorem delivered_allOrNothing_iff (pg : Engine) (raw : Message)
    (hids : ∀ id ∈ Search.splitOn [comma] raw.arguments, IsNumeral id) (tReq : Request)
    (s : Server) :
    AllOrNothing (Search.splitOn [comma] raw.arguments) s
        (delivered pg raw.arguments tReq s) ↔
      CanReadNamed s.db.chats (Search.splitOn [comma] raw.arguments) := by
  rw [← find_refused_iff]
  obtain ⟨server, hdb, hreply⟩ := delivered_numerals pg raw hids tReq s
  constructor
  · rintro ⟨reply, after, hresult, hanswer⟩
    cases hfind : (Search.splitOn [comma] raw.arguments).find?
        fun id => (numeralChat s.db.chats id).mEmpty with
    | some id =>
      rw [hfind] at hreply
      rw [hreply.2] at hresult
      cases hresult
      split at hanswer
      · next first hfirst =>
        have htext : str "305 Invalid chat id " ++ id = str "305 Invalid chat id " ++ first :=
          congrArg Data.bytes (Option.some.inj hanswer.1)
        rw [hfirst, List.append_cancel_left htext]
      · exact absurd (congrArg Data.bytes (Option.some.inj hanswer.1)) (invalidId_ne_ok id)
    | none =>
      rw [hfind] at hreply
      rw [hreply.2] at hresult
      cases hresult
      split at hanswer
      · next first hfirst =>
        exact absurd (congrArg Data.bytes (Option.some.inj hanswer.1)).symm (invalidId_ne_ok first)
      · next hfirst => exact hfirst.symm
  · intro hsame
    rw [hsame] at hreply
    rw [AllOrNothing]
    split
    · next id hfirst =>
      rw [hfirst] at hreply
      exact ⟨_, server, hreply.2, rfl, hreply.1⟩
    · next hfirst =>
      rw [hfirst] at hreply
      exact ⟨_, server, hreply.2, rfl, hdb, hreply.1⟩

def threeChats : Server :=
  { twoUsers with
    db := { twoUsers.db with
      chats := ⟨[⟨7, morningTime, 1, 2, false, some (str "hi")⟩,
        ⟨8, morningTime, 1, 2, true, some (str "mario")⟩,
        ⟨2 ^ 31, morningTime, 1, 2, false, some (str "bye")⟩], by decide⟩ } }

theorem delivered_allOrNothing_three :
    AllOrNothing
      (Search.splitOn [comma] (⟨str "DELIVERED abc 7,8,7", by decide⟩ : Message).arguments)
      threeChats
      (delivered Engine.basic (⟨str "DELIVERED abc 7,8,7", by decide⟩ : Message).arguments
        johnRequest threeChats) :=
  (delivered_allOrNothing_iff Engine.basic ⟨str "DELIVERED abc 7,8,7", by decide⟩
    (by decide +kernel) johnRequest threeChats).mpr (by decide +kernel)

/-- The first id beyond `int` is refused although its chat is stored. -/
theorem delivered_refuses_stored :
    ¬AllOrNothing (Search.splitOn [comma] (str "2147483648")) threeChats
      (delivered Engine.basic (str "2147483648") johnRequest threeChats) := by
  rintro ⟨reply, server, hresult, hanswer⟩
  have hstored : ((Search.splitOn [comma] (str "2147483648")).find?
      fun id => ¬Stored threeChats.db.chats id) = none := by decide +kernel
  have hrefused : (delivered Engine.basic (str "2147483648") johnRequest threeChats).map
      (fun result => result.1.mData) =
        .ok (some (textData (str "305 Invalid chat id 2147483648"))) := by decide +kernel
  rw [hstored] at hanswer
  rw [hresult] at hrefused
  have hreply : reply.mData = some (textData (str "305 Invalid chat id 2147483648")) :=
    Except.ok.inj hrefused
  rw [hanswer.1] at hreply
  exact absurd hreply (by decide)

end Skype.ChatControllers
