import Skype.ContactChanges
import Skype.ContactList

/-!
# The name of one contact in the entries of the others

The query of `list_user_contacts` joins the names of all contacts with commas, and
`result_to_users` cuts the joined text at every comma, so a name that has one takes the
places of names behind it.
-/

namespace Skype.ContactNames

open Library Contacts ContactList Postgres

def pieces (rows : List UserRow) : List ByteString :=
  rows.flatMap fun row => Search.splitOn [comma] row.username

def listedUser (row : UserRow) (name : ByteString) : User :=
  ⟨Int32.ofInt row.id, name, [], row.online, [], false⟩

def listed (rows : List UserRow) : List User := List.zipWith listedUser rows (pieces rows)

structure Accepted (rows : List UserRow) : Prop where
  ids : ∀ row ∈ rows, 0 < row.id ∧ row.id < 2 ^ 31
  names : ∀ row ∈ rows, row.username ≠ [] ∧ space ∉ row.username
  nodup : (rows.map UserRow.id).Nodup

def idTexts (rows : List UserRow) : List ByteString := rows.map fun row => Decimal.printInt row.id

def onlineTexts (rows : List UserRow) : List ByteString := rows.map fun row => boolText row.online

structure Short (callAwaits : Int32 → Bool) (rows : List UserRow) : Prop where
  ids : ([comma].intercalate (idTexts rows)).length < 2 ^ 31
  names : ([comma].intercalate (rows.map UserRow.username)).length < 2 ^ 31
  onlines : ([comma].intercalate (onlineTexts rows)).length < 2 ^ 31
  reply : (reply callAwaits (listed rows)).length < 2 ^ 31

section

variable {rows : List UserRow}

theorem pieces_append (before after : List UserRow) :
    pieces (before ++ after) = pieces before ++ pieces after := List.flatMap_append

theorem length_le_length_pieces (rows : List UserRow) : rows.length ≤ (pieces rows).length := by
  induction rows with
  | nil => exact Nat.zero_le _
  | cons row rows ih =>
    have hpos := List.length_pos_of_ne_nil (Search.splitOn_ne_nil [comma] row.username)
    simp only [pieces, List.flatMap_cons, List.length_append, List.length_cons] at ih ⊢
    omega

theorem toInt_printInt {id : ℤ} (h : 0 < id ∧ id < 2 ^ 31) :
    StringUtils.toInt (Decimal.printInt id) = (true, Int32.ofInt id) := by
  rw [StringUtils.toInt, stoi_of_scanInt (Decimal.scanInt_printInt id) (by omega) h.2]

theorem resultToUsersLoop_eq {contacts onlines : List ByteString} {i : ℕ}
    (hids : ∀ row ∈ rows, 0 < row.id ∧ row.id < 2 ^ 31)
    (hcontacts : i + rows.length ≤ contacts.length) (honlines : onlines.drop i = onlineTexts rows) :
    resultToUsersLoop contacts onlines i (idTexts rows) =
      .ok (List.zipWith listedUser rows (contacts.drop i)) := by
  induction rows generalizing i with
  | nil => rfl
  | cons row rows ih =>
    rw [List.length_cons] at hcontacts
    have hi : i < contacts.length := by omega
    have hdrop : contacts.drop i = contacts[i] :: contacts.drop (i + 1) :=
      List.drop_eq_getElem_cons hi
    have honline : vecAt onlines i = .ok (boolText row.online) := by
      have hhead := congrArg List.head? honlines
      rw [List.head?_drop] at hhead
      rw [vecAt, hhead]
      rfl
    have hcontact : vecAt contacts i = .ok contacts[i] := by
      rw [vecAt, List.getElem?_eq_getElem hi]
    have hrest := ih (i := i + 1) (fun r hr => hids r (List.mem_cons_of_mem row hr)) (by omega) (by
      rw [← List.drop_drop, honlines]
      rfl)
    rw [idTexts, List.map_cons, resultToUsersLoop, honline, hcontact, hdrop]
    simp only [ok_bind, toInt_printInt (hids row List.mem_cons_self), List.zipWith_cons_cons]
    rw [← idTexts, hrest, boolText_beq]
    rfl

theorem split_intercalate {texts : List ByteString} (hne : texts ≠ [])
    (hshort : ([comma].intercalate texts).length < 2 ^ 31) :
    StringUtils.split ([comma].intercalate texts) (str ",") =
      .ok (texts.flatMap (Search.splitOn [comma])) := by
  rw [StringUtils.split_eq hshort (by decide)]
  exact congrArg Except.ok (Search.splitOn_intercalate_flatMap hne)

theorem flatMap_splitOn_eq {texts : List ByteString} (h : ∀ text ∈ texts, comma ∉ text) :
    texts.flatMap (Search.splitOn [comma]) = texts := by
  induction texts with
  | nil => rfl
  | cons text texts ih =>
    rw [List.flatMap_cons, Search.splitOn_of_notMem (h text List.mem_cons_self),
      ih fun t ht => h t (List.mem_cons_of_mem text ht), List.singleton_append]

theorem resultToUsers_eq {callAwaits : Int32 → Bool} (hne : rows ≠ [])
    (hids : ∀ row ∈ rows, 0 < row.id ∧ row.id < 2 ^ 31) (hshort : Short callAwaits rows) :
    resultToUsers ([comma].intercalate (idTexts rows))
      ([comma].intercalate (rows.map UserRow.username))
      ([comma].intercalate (onlineTexts rows)) = .ok (listed rows) := by
  have hplain : (idTexts rows).flatMap (Search.splitOn [comma]) = idTexts rows := by
    apply flatMap_splitOn_eq
    intro text htext
    obtain ⟨row, -, rfl⟩ := List.mem_map.mp htext
    exact Decimal.notMem_printInt (by decide) (by decide)
  have honline : (onlineTexts rows).flatMap (Search.splitOn [comma]) = onlineTexts rows := by
    apply flatMap_splitOn_eq
    intro text htext
    obtain ⟨row, -, rfl⟩ := List.mem_map.mp htext
    exact notMem_boolText (by decide) (by decide) row.online
  have hnames : (rows.map UserRow.username).flatMap (Search.splitOn [comma]) = pieces rows :=
    List.flatMap_map ..
  have hlen := length_le_length_pieces rows
  rw [resultToUsers, split_intercalate (by simpa [idTexts] using hne) hshort.ids, hplain,
    split_intercalate (by simpa using hne) hshort.names, hnames,
    split_intercalate (by simpa [onlineTexts] using hne) hshort.onlines, honline]
  simp only [ok_bind]
  rw [resultToUsersLoop_eq hids (by omega) (List.drop_zero ..), List.drop_zero, listed]

end

section

variable {db : Database} {owner : UserRow} {user : User} {callAwaits : Int32 → Bool}

structure Owner (db : Database) (owner : UserRow) : Prop where
  mem : owner ∈ db.users
  only : ∀ row ∈ db.users, row.username = owner.username → row = owner

theorem listUserContacts_eq (howner : Owner db owner) (hname : user.mUsername = owner.username)
    (hids : ∀ row ∈ contactRows db owner.id, 0 < row.id ∧ row.id < 2 ^ 31)
    (hshort : Short callAwaits (contactRows db owner.id)) :
    listUserContacts db user = .ok (listed (contactRows db owner.id)) := by
  have howners : ∀ u ∈ db.contacts.flatMap fun c => db.users.filter fun u =>
      c.userId = some u.id ∧ u.username = user.mUsername, u = owner := by
    intro u hu
    obtain ⟨c, -, hu⟩ := List.mem_flatMap.mp hu
    obtain ⟨hmem, hcond⟩ := List.mem_filter.mp hu
    have hboth : c.userId = some u.id ∧ u.username = user.mUsername := by simpa using hcond
    exact howner.only u hmem (hboth.2.trans hname)
  rw [listUserContacts, listContactsQuery]
  generalize hlist : (db.contacts.flatMap fun c => db.users.filter fun u =>
    c.userId = some u.id ∧ u.username = user.mUsername) = owners at howners
  by_cases hnil : contactRows db owner.id = []
  · -- Neither an empty result nor one row of `NULL`s has a contact.
    rw [List.eq_replicate_of_mem howners, List.map_replicate, hnil]
    cases owners.length with
    | zero => rfl
    | succ n =>
      rw [List.replicate_dedup (Nat.succ_ne_zero n)]
      rfl
  · have hsome : owners.length ≠ 0 := by
      intro hzero
      apply hnil
      rw [contactRows, List.flatMap_eq_nil_iff]
      intro c hc
      obtain ⟨hmem, hcond⟩ := List.mem_filter.mp hc
      have howned : owner ∈ owners := by
        rw [← hlist, List.mem_flatMap]
        exact ⟨c, hmem, List.mem_filter.mpr ⟨howner.mem, by simpa [hname] using hcond⟩⟩
      rw [List.eq_nil_of_length_eq_zero hzero] at howned
      simp at howned
    rw [List.eq_replicate_of_mem howners, List.map_replicate, List.replicate_dedup hsome]
    obtain ⟨row, rest, hrows⟩ := List.exists_cons_of_ne_nil hnil
    have hagg : ∀ texts : List ByteString, texts ≠ [] →
        stringAgg texts = some ([comma].intercalate texts) := by
      intro texts htexts
      obtain ⟨text, texts, rfl⟩ := List.exists_cons_of_ne_nil htexts
      rfl
    simp only [exec1, hagg _ (show (contactRows db owner.id).map _ ≠ [] by simpa using hnil)]
    exact resultToUsers_eq hnil hids hshort

end

def shown (hash : QHashOrder) (mOnlineContacts : ContactMap) (awaiting : AwaitingUsers)
    (tReq : Request) (db : Database) : Exec ContactMap := do
  let tReq ← UserControllers.list db tReq awaiting
  let reply ← tReq.data
  let (newContacts, _) ← updateContacts hash mOnlineContacts reply.bytes
  return newContacts

def entry (callAwaits : Int32 → Bool) (row : UserRow) (name : ByteString) : Details :=
  details callAwaits (listedUser row name)

def entries (callAwaits : Int32 → Bool) (rows : List UserRow) (names : List ByteString) :
    List Details :=
  List.zipWith (entry callAwaits) rows names

section

variable {callAwaits : Int32 → Bool} {rows : List UserRow} {names : List ByteString}

theorem map_details_listed : (listed rows).map (details callAwaits) =
    entries callAwaits rows (pieces rows) := List.map_zipWith

variable (callAwaits) in
theorem map_ID_entries (hlen : rows.length ≤ names.length) :
    (entries callAwaits rows names).map Details.ID = rows.map fun row => Int32.ofInt row.id := by
  induction rows generalizing names with
  | nil => rfl
  | cons row rows ih =>
    cases names with
    | nil => simp at hlen
    | cons name names =>
      rw [List.length_cons, List.length_cons] at hlen
      rw [entries, List.zipWith_cons_cons, List.map_cons, ← entries, ih (by omega)]
      rfl

variable (callAwaits) in
theorem entries_inj {names' : List ByteString} (hlen : rows.length ≤ names.length)
    (hlen' : rows.length ≤ names'.length) :
    entries callAwaits rows names = entries callAwaits rows names' ↔
      names.take rows.length = names'.take rows.length := by
  induction rows generalizing names names' with
  | nil => simp [entries]
  | cons row rows ih =>
    cases names with
    | nil => simp at hlen
    | cons name names =>
      cases names' with
      | nil => simp at hlen'
      | cons name' names' =>
        simp only [List.length_cons] at hlen hlen'
        have hrest : entries callAwaits rows names = entries callAwaits rows names' ↔
            names.take rows.length = names'.take rows.length := ih (by omega) (by omega)
        simp only [entries] at hrest
        simp only [entries, List.zipWith_cons_cons, List.cons.injEq, List.length_cons,
          List.take_succ_cons, hrest]
        apply and_congr_left
        intro _
        constructor
        · exact congrArg Details.username
        · intro hname
          rw [hname]

theorem mem_listed {user : User} (h : user ∈ listed rows) :
    ∃ row ∈ rows, ∃ name ∈ pieces rows, user = listedUser row name := by
  rw [listed, ← List.map_uncurry_zip_eq_zipWith] at h
  obtain ⟨⟨row, name⟩, hpair, rfl⟩ := List.mem_map.mp h
  obtain ⟨hrow, hname⟩ := List.of_mem_zip hpair
  exact ⟨row, hrow, name, hname, rfl⟩

theorem printable_listed (h : Accepted rows) : ∀ user ∈ listed rows, Printable user := by
  intro user huser
  obtain ⟨row, -, name, hname, rfl⟩ := mem_listed huser
  obtain ⟨source, hsource, hpiece⟩ := List.mem_flatMap.mp hname
  exact ⟨rfl, rfl, Search.notMem_of_mem_splitOn hpiece, fun hspace =>
    (h.names source hsource).2 ((Search.infix_of_mem_splitOn hpiece).subset hspace)⟩

theorem toInt_ofInt {id : ℤ} (h : 0 < id ∧ id < 2 ^ 31) : (Int32.ofInt id).toInt = id :=
  Int32.toInt_ofInt_of_le (by omega) h.2

theorem mId_listed_ne_zero (h : Accepted rows) : ∀ user ∈ listed rows, user.mId ≠ 0 := by
  intro user huser hzero
  obtain ⟨row, hrow, name, -, rfl⟩ := mem_listed huser
  have hid := toInt_ofInt (h.ids row hrow)
  have hpos := (h.ids row hrow).1
  rw [show Int32.ofInt row.id = 0 from hzero] at hid
  have hcast : (0 : Int32).toInt = 0 := by decide
  omega

theorem nodup_mId_listed (h : Accepted rows) : ((listed rows).map User.mId).Nodup := by
  have hmap : (listed rows).map User.mId = (rows.map UserRow.id).map Int32.ofInt := by
    have hids := map_ID_entries (fun _ => false) (length_le_length_pieces rows)
    rw [← map_details_listed, List.map_map] at hids
    rw [List.map_map]
    exact hids
  rw [hmap]
  apply List.Nodup.map_on _ h.nodup
  intro a ha b hb hab
  obtain ⟨row, hrow, rfl⟩ := List.mem_map.mp ha
  obtain ⟨row', hrow', rfl⟩ := List.mem_map.mp hb
  rw [← toInt_ofInt (h.ids row hrow), hab, toInt_ofInt (h.ids row' hrow')]

end

structure Lists (db : Database) (awaiting : AwaitingUsers) (tReq : Request) (owner : UserRow) :
    Prop where
  person : Owner db owner
  found : (searchUserByToken db tReq.mToken).mEmpty = false
  username : (searchUserByToken db tReq.mToken).mUsername = owner.username
  accepted : Accepted (contactRows db owner.id)
  short : Short (CallControllers.callAwaits awaiting) (contactRows db owner.id)

theorem shown_eq (hash : QHashOrder) (mOnlineContacts : ContactMap) {db : Database}
    {awaiting : AwaitingUsers} {tReq : Request} {owner : UserRow}
    (h : Lists db awaiting tReq owner) :
    ∃ newContacts, shown hash mOnlineContacts awaiting tReq db = .ok newContacts ∧
      newContacts.entries = entries (CallControllers.callAwaits awaiting)
        (contactRows db owner.id) (pieces (contactRows db owner.id)) := by
  have hlist := listUserContacts_eq h.person h.username h.accepted.ids h.short
  have hfound : ¬(searchUserByToken db tReq.mToken).mEmpty = true := by
    rw [h.found]
    decide
  rw [shown, UserControllers.list, if_neg hfound, hlist, ok_bind, ← map_details_listed]
  by_cases hnil : listed (contactRows db owner.id) = []
  · rw [hnil]
    exact ⟨Keyed.empty, rfl, rfl⟩
  · have hprint := printable_listed h.accepted
    obtain ⟨newContacts, job, hupdate, hentries⟩ := updateContacts_reply hprint
      (mId_listed_ne_zero h.accepted) (nodup_mId_listed h.accepted) h.short.reply hash
      mOnlineContacts
    refine ⟨newContacts, ?_, hentries⟩
    rw [listContacts_eq hnil hprint, ok_bind]
    simp only [Request.data, Request.setData, textData, ok_bind, hupdate, pure_eq_ok]

def withContacts (db : Database) (contacts : List ContactRow) : Database := { db with contacts }

def link (owner contact : UserRow) : ContactRow := ⟨some owner.id, some contact.id⟩

def Unchanged (rows : List UserRow) (a b : ContactMap) : Prop :=
  ∀ row ∈ rows, b.find? (Int32.ofInt row.id) = a.find? (Int32.ofInt row.id)

/-- The contacts behind the new one get the pieces that they got without it. -/
def SamePieces (before : List UserRow) (new : UserRow) (after : List UserRow) : Prop :=
  ((pieces (before ++ after)).drop before.length).take after.length =
    ((pieces (before ++ new :: after)).drop (before.length + 1)).take after.length

section

variable {db : Database} {owner new : UserRow} {front back : List ContactRow}

theorem contactRows_append (db : Database) (front back : List ContactRow) (id : ℤ) :
    contactRows (withContacts db (front ++ back)) id =
      contactRows (withContacts db front) id ++ contactRows (withContacts db back) id := by
  simp [contactRows, withContacts]

theorem filter_id_eq (hids : (db.users.map UserRow.id).Nodup) (hnew : new ∈ db.users) :
    (db.users.filter fun u => some new.id = some u.id) = [new] := by
  rw [← Keyed.filter_key hids hnew]
  apply List.filter_congr
  intro u hu
  rw [decide_eq_decide, Option.some.injEq]
  exact eq_comm

theorem contactRows_link (hids : (db.users.map UserRow.id).Nodup) (hnew : new ∈ db.users) :
    contactRows (withContacts db (front ++ link owner new :: back)) owner.id =
      contactRows (withContacts db front) owner.id ++
        new :: contactRows (withContacts db back) owner.id := by
  have hcons : contactRows (withContacts db (link owner new :: back)) owner.id =
      new :: contactRows (withContacts db back) owner.id := by
    have hone := filter_id_eq hids hnew
    simp only [contactRows, withContacts, link, decide_true, List.filter_cons_of_pos,
      List.flatMap_cons, hone, List.singleton_append]
  rw [contactRows_append, hcons]

end

theorem take_pieces (before after : List UserRow) :
    (pieces (before ++ after)).take before.length = (pieces before).take before.length := by
  rw [pieces_append, List.take_append_of_le_length (length_le_length_pieces before)]

theorem entries_append (callAwaits : Int32 → Bool) (before after : List UserRow) :
    entries callAwaits (before ++ after) (pieces (before ++ after)) =
      entries callAwaits before ((pieces before).take before.length) ++
        entries callAwaits after ((pieces (before ++ after)).drop before.length) := by
  have hlen := length_le_length_pieces before
  conv_lhs => rw [← List.take_append_drop before.length (pieces (before ++ after))]
  rw [entries, take_pieces, List.zipWith_append]
  · rfl
  · rw [List.length_take]
    omega

theorem unchanged_iff {callAwaits : Int32 → Bool} {before after : List UserRow} {new : UserRow}
    {a b : ContactMap}
    (ha : a.entries = entries callAwaits (before ++ after) (pieces (before ++ after)))
    (hb : b.entries =
      entries callAwaits (before ++ new :: after) (pieces (before ++ new :: after))) :
    Unchanged (before ++ after) a b ↔ SamePieces before new after := by
  have hlen := length_le_length_pieces (before ++ after)
  have hlen' := length_le_length_pieces (before ++ new :: after)
  simp only [List.length_append, List.length_cons] at hlen hlen'
  obtain ⟨name, hname⟩ : ∃ name, (pieces (before ++ new :: after)).drop before.length =
      name :: (pieces (before ++ new :: after)).drop (before.length + 1) :=
    ⟨_, List.drop_eq_getElem_cons (by omega)⟩
  have hids := map_ID_entries callAwaits (length_le_length_pieces (before ++ after))
  rw [← ha] at hids
  rw [entries_append] at ha hb
  rw [hname, entries.eq_def callAwaits (new :: after), List.zipWith_cons_cons, ← entries] at hb
  have hrest : after.length ≤ ((pieces (before ++ after)).drop before.length).length := by
    rw [List.length_drop]
    omega
  have hrest' : after.length ≤
      ((pieces (before ++ new :: after)).drop (before.length + 1)).length := by
    rw [List.length_drop]
    omega
  rw [SamePieces, ← entries_inj callAwaits hrest hrest',
    ← Keyed.find?_agree_iff ha hb (by rw [map_ID_entries _ hrest, map_ID_entries _ hrest']), ← ha,
    hids]
  simp only [Unchanged, List.forall_mem_map]

theorem samePieces_of_plain {before after : List UserRow} {new : UserRow}
    (h : ∀ row ∈ before ++ [new], comma ∉ row.username) : SamePieces before new after := by
  have hplain : ∀ rows : List UserRow, (∀ row ∈ rows, comma ∉ row.username) →
      pieces rows = rows.map UserRow.username := by
    intro rows hrows
    rw [pieces, List.map_eq_flatMap]
    exact List.flatMap_congr fun row hrow => Search.splitOn_of_notMem (hrows row hrow)
  have hbefore := hplain before fun row hrow => h row (List.mem_append_left _ hrow)
  have hwith := hplain (before ++ [new]) h
  have hsplit : before ++ new :: after = before ++ [new] ++ after := by simp
  have hlen : (pieces before).length = before.length := by rw [hbefore, List.length_map]
  have hlen' : (pieces (before ++ [new])).length = before.length + 1 := by
    rw [hwith, List.length_map, List.length_append, List.length_singleton]
  rw [SamePieces, hsplit, pieces_append before after, pieces_append (before ++ [new]) after,
    ← hlen',
    List.drop_left, ← hlen, List.drop_left]

theorem other_contacts_unchanged_iff (hash : QHashOrder) (mOnlineContacts : ContactMap)
    {db : Database} {awaiting : AwaitingUsers} {tReq : Request} {owner new : UserRow}
    {front back : List ContactRow} (hids : (db.users.map UserRow.id).Nodup) (hnew : new ∈ db.users)
    (hlists : Lists (withContacts db (front ++ back)) awaiting tReq owner)
    (hadded : Lists (withContacts db (front ++ link owner new :: back)) awaiting tReq owner) :
    ∃ a b, shown hash mOnlineContacts awaiting tReq (withContacts db (front ++ back)) = .ok a ∧
      shown hash mOnlineContacts awaiting tReq
        (withContacts db (front ++ link owner new :: back)) = .ok b ∧
      (Unchanged (contactRows (withContacts db (front ++ back)) owner.id) a b ↔
        SamePieces (contactRows (withContacts db front) owner.id) new
          (contactRows (withContacts db back) owner.id)) := by
  obtain ⟨a, hshown, ha⟩ := shown_eq hash mOnlineContacts hlists
  obtain ⟨b, hshown', hb⟩ := shown_eq hash mOnlineContacts hadded
  refine ⟨a, b, hshown, hshown', ?_⟩
  rw [contactRows_append] at ha ⊢
  rw [contactRows_link hids hnew] at hb
  exact unchanged_iff ha hb

def john : UserRow := ⟨1, str "john", str "1234", true, none⟩
def mario : UserRow := ⟨2, str "mario", str "4321", false, none⟩
def comma12 : UserRow := ⟨3, str "1,2", str "1111", false, none⟩

def johnDatabase : Database := ⟨[john, mario, comma12], [⟨1, some (str "token-1")⟩], []⟩

def johnRequest : Request :=
  { Request.new (str "1.2.3.4") true with mToken := str "token-1" }

theorem pieces_comma12 : pieces [comma12, mario] = [str "1", str "2", str "mario"] := by
  have hcomma : Search.splitOn [comma] comma12.username = [str "1", str "2"] := by
    have hone : comma ∉ str "1" := by decide
    have htwo : comma ∉ str "2" := by decide
    exact (Search.splitOn_append_cons (str "2") hone).trans
      (congrArg (str "1" :: ·) (Search.splitOn_of_notMem htwo))
  have hmario : comma ∉ mario.username := by decide
  rw [pieces, List.flatMap_cons, List.flatMap_singleton, hcomma, Search.splitOn_of_notMem hmario]
  rfl

theorem lists_john {contacts : List ContactRow} {rows : List UserRow}
    (hrows : contactRows (withContacts johnDatabase contacts) john.id = rows)
    (haccepted : Accepted rows)
    (hshort : Short (CallControllers.callAwaits AwaitingUsers.empty) rows) :
    Lists (withContacts johnDatabase contacts) AwaitingUsers.empty johnRequest john where
  person := by
    refine ⟨List.mem_cons_self, ?_⟩
    change ∀ row ∈ [john, mario, comma12], row.username = john.username → row = john
    decide
  found := by
    change (searchUserByToken johnDatabase johnRequest.mToken).mEmpty = false
    decide
  username := by
    change (searchUserByToken johnDatabase johnRequest.mToken).mUsername = john.username
    decide
  accepted := hrows ▸ haccepted
  short := hrows ▸ hshort

theorem short_of_listed {rows : List UserRow} {users : List User} (husers : listed rows = users)
    (hids : ([comma].intercalate (idTexts rows)).length < 2 ^ 31)
    (hnames : ([comma].intercalate (rows.map UserRow.username)).length < 2 ^ 31)
    (honlines : ([comma].intercalate (onlineTexts rows)).length < 2 ^ 31)
    (hreply : (reply (CallControllers.callAwaits AwaitingUsers.empty) users).length < 2 ^ 31) :
    Short (CallControllers.callAwaits AwaitingUsers.empty) rows :=
  ⟨hids, hnames, honlines, husers ▸ hreply⟩

theorem lists_mario : Lists (withContacts johnDatabase ([] ++ [link john mario]))
    AwaitingUsers.empty johnRequest john := by
  have hmario : comma ∉ mario.username := by decide
  have hlisted : listed [mario] = [listedUser mario (str "mario")] := by
    rw [listed, pieces, List.flatMap_singleton, Search.splitOn_of_notMem hmario]
    rfl
  have haccepted : Accepted [mario] := ⟨by decide, by decide, by decide⟩
  exact lists_john rfl haccepted
    (short_of_listed hlisted (by decide) (by decide) (by decide) (by decide))

theorem lists_comma12 : Lists (withContacts johnDatabase ([] ++ link john comma12 ::
    [link john mario])) AwaitingUsers.empty johnRequest john := by
  have hlisted : listed [comma12, mario] =
      [listedUser comma12 (str "1"), listedUser mario (str "2")] := by
    rw [listed, pieces_comma12]
    rfl
  have haccepted : Accepted [comma12, mario] := ⟨by decide, by decide, by decide⟩
  exact lists_john rfl haccepted
    (short_of_listed hlisted (by decide) (by decide) (by decide) (by decide))

theorem other_contacts_unchanged_iff_comma12 : ∃ a b,
    shown Contacts.insertionOrder Keyed.empty AwaitingUsers.empty johnRequest
      (withContacts johnDatabase ([] ++ [link john mario])) = .ok a ∧
    shown Contacts.insertionOrder Keyed.empty AwaitingUsers.empty johnRequest
      (withContacts johnDatabase ([] ++ link john comma12 :: [link john mario])) = .ok b ∧
    (Unchanged (contactRows (withContacts johnDatabase ([] ++ [link john mario])) john.id) a b ↔
      SamePieces (contactRows (withContacts johnDatabase []) john.id) comma12
        (contactRows (withContacts johnDatabase [link john mario]) john.id)) := by
  have hids : (johnDatabase.users.map UserRow.id).Nodup := by decide
  have hnew : comma12 ∈ johnDatabase.users := by simp [johnDatabase]
  exact other_contacts_unchanged_iff Contacts.insertionOrder Keyed.empty hids hnew lists_mario
    lists_comma12

/-- The contact `1,2` stands before `mario`, who is then shown as `2`. -/
theorem comma_name_renames_contact : ∃ a b,
    shown Contacts.insertionOrder Keyed.empty AwaitingUsers.empty johnRequest
      (withContacts johnDatabase [link john mario]) = .ok a ∧
    shown Contacts.insertionOrder Keyed.empty AwaitingUsers.empty johnRequest
      (withContacts johnDatabase [link john comma12, link john mario]) = .ok b ∧
    a.find? 2 = some ⟨str "mario", 2, false, false⟩ ∧
    b.find? 2 = some ⟨str "2", 2, false, false⟩ ∧
    ¬Unchanged (contactRows (withContacts johnDatabase [link john mario]) john.id) a b := by
  refine ⟨_, _, rfl, rfl, rfl, rfl, ?_⟩
  intro h
  exact absurd (h mario (by decide)) (by decide)

end Skype.ContactNames
