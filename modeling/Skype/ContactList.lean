import Skype.Contacts
import Skype.UserControllers

/-!
# The contact list between the server and the client

`UserControllers::list_contacts` prints a contact as `key:value` fields between commas and
puts spaces between the contacts, `Contacts::update_contacts` cuts the same text at its
spaces, its commas and the first colon of a field.
-/

namespace Skype.ContactList

open Library Contacts UserControllers

structure Printable (contact : User) : Prop where
  password : contact.mPassword = []
  address : contact.mAddress = []
  comma_notMem : comma ∉ contact.mUsername
  space_notMem : space ∉ contact.mUsername

def boolText (b : Bool) : ByteString := if b then str "true" else str "false"

def details (callAwaits : Int32 → Bool) (contact : User) : Details :=
  ⟨contact.mUsername, contact.mId, contact.mOnline, callAwaits contact.mId⟩

def fields (callAwaits : Int32 → Bool) (contact : User) : List ByteString :=
  [str "id" ++ colon :: intToString contact.mId,
    str "username" ++ colon :: contact.mUsername,
    str "online" ++ colon :: boolText contact.mOnline,
    str "awaiting" ++ colon :: boolText (callAwaits contact.mId)]

def element (callAwaits : Int32 → Bool) (contact : User) : ByteString :=
  [comma].intercalate (fields callAwaits contact)

section

variable {callAwaits : Int32 → Bool} {contact : User} {contacts : List User}

theorem contactLine_eq (h : Printable contact) :
    contactLine callAwaits contact = element callAwaits contact ++ [space] := by
  have htext : contact.mPassword = [] ∧ contact.mAddress = [] := ⟨h.password, h.address⟩
  rw [contactLine, User.toString, if_pos htext, element, fields,
    Search.intercalate_cons_eq_append_flatMap, boolText, boolText]
  cases callAwaits contact.mId <;> simp [str, contactDelim]

theorem dropLast_contactLines (hne : contacts ≠ []) (h : ∀ contact ∈ contacts, Printable contact) :
    (contactLines callAwaits contacts).dropLast =
      [space].intercalate (contacts.map (element callAwaits)) := by
  have hlines : ∀ contacts : List User, (∀ contact ∈ contacts, Printable contact) →
      contactLines callAwaits contacts =
        contacts.flatMap fun contact => element callAwaits contact ++ [space] := by
    intro contacts h
    exact List.flatMap_congr fun contact hcontact => contactLine_eq (h contact hcontact)
  rw [hlines contacts h]
  induction contacts with
  | nil => exact absurd rfl hne
  | cons contact contacts ih =>
    cases contacts with
    | nil => simp
    | cons next contacts =>
      have hrest := ih (by simp) fun c hc => h c (List.mem_cons_of_mem contact hc)
      rw [List.flatMap_cons, List.dropLast_append_of_ne_nil (by simp), hrest, List.map_cons,
        List.map_cons, List.map_cons, Search.intercalate_cons_eq_append_flatMap,
        Search.intercalate_cons_eq_append_flatMap, List.flatMap_cons]
      simp

def reply (callAwaits : Int32 → Bool) (contacts : List User) : ByteString :=
  [space].intercalate (str "201" :: contacts.map (element callAwaits))

theorem listContacts_eq (hne : contacts ≠ []) (h : ∀ contact ∈ contacts, Printable contact)
    (tReq : Request) :
    listContacts callAwaits contacts tReq =
      .ok (tReq.setData (textData (reply callAwaits contacts))) := by
  obtain ⟨contact, rest, rfl⟩ := List.exists_cons_of_ne_nil hne
  have hcode : str "201 " = str "201" ++ [space] := by decide
  rw [listContacts, if_pos (List.length_pos_of_ne_nil hne), dropLast_contactLines hne h,
    ControllerUtils.setRequestReplyMsg, Reply.appendMessage_r201, ok_bind, hcode, reply,
    List.map_cons, Search.intercalate_cons_eq_append_flatMap,
    Search.intercalate_cons_eq_append_flatMap, List.flatMap_cons]
  simp

theorem comma_notMem_intToString (i : Int32) : comma ∉ intToString i :=
  Decimal.notMem_printInt (by decide) (by decide)

theorem notMem_boolText {c : UInt8} (htrue : c ∉ str "true") (hfalse : c ∉ str "false") (b : Bool) :
    c ∉ boolText b := by
  cases b with
  | false => exact hfalse
  | true => exact htrue

theorem boolText_beq (b : Bool) : (boolText b == str "true") = b := by
  cases b <;> decide

theorem notMem_field {c : UInt8} {key value : ByteString} (hkey : c ∉ key) (hcolon : c ≠ colon)
    (hvalue : c ∉ value) : c ∉ key ++ colon :: value := by
  rw [List.mem_append, List.mem_cons]
  rintro (h | h | h)
  · exact hkey h
  · exact hcolon h
  · exact hvalue h

theorem comma_notMem_fields (h : Printable contact) :
    ∀ field ∈ fields callAwaits contact, comma ∉ field := by
  have hbool : ∀ b, comma ∉ boolText b := notMem_boolText (by decide) (by decide)
  intro field hfield
  simp only [fields, List.mem_cons, List.not_mem_nil, or_false] at hfield
  rcases hfield with rfl | rfl | rfl | rfl
  · exact notMem_field (by decide) (by decide) (comma_notMem_intToString contact.mId)
  · exact notMem_field (by decide) (by decide) h.comma_notMem
  · exact notMem_field (by decide) (by decide) (hbool contact.mOnline)
  · exact notMem_field (by decide) (by decide) (hbool (callAwaits contact.mId))

theorem space_notMem_element (h : Printable contact) : space ∉ element callAwaits contact := by
  have hbool : ∀ b, space ∉ boolText b := notMem_boolText (by decide) (by decide)
  have hid : space ∉ intToString contact.mId := Decimal.notMem_printInt (by decide) (by decide)
  have hfields : ∀ field ∈ fields callAwaits contact, space ∉ field := by
    intro field hfield
    simp only [fields, List.mem_cons, List.not_mem_nil, or_false] at hfield
    rcases hfield with rfl | rfl | rfl | rfl
    · exact notMem_field (by decide) (by decide) hid
    · exact notMem_field (by decide) (by decide) h.space_notMem
    · exact notMem_field (by decide) (by decide) (hbool contact.mOnline)
    · exact notMem_field (by decide) (by decide) (hbool (callAwaits contact.mId))
  rw [element, fields, Search.intercalate_cons_eq_append_flatMap, List.mem_append,
    List.mem_flatMap]
  rintro (hfirst | ⟨field, hfield, hmem⟩)
  · exact hfields _ List.mem_cons_self hfirst
  · rcases List.mem_cons.mp hmem with hcomma | hmem
    · exact absurd hcomma (by decide)
    · exact hfields field (List.mem_cons_of_mem _ hfield) hmem

theorem splitFirst_field {key value : ByteString} (hkey : colon ∉ key)
    (hshort : (key ++ colon :: value).length < 2 ^ 31) :
    StringUtils.splitFirst (key ++ colon :: value) (str ":") = .ok (key, value) := by
  rw [StringUtils.splitFirst_eq hshort]
  exact congrArg Except.ok (Search.cutFirst_append_cons value hkey)

theorem foldlM_pairField (hshort : (element callAwaits contact).length < 2 ^ 31) :
    (fields callAwaits contact).foldlM pairField ⟨0, [], none, none⟩ =
      .ok ⟨contact.mId, contact.mUsername, some contact.mOnline,
        some (callAwaits contact.mId)⟩ := by
  have hlen : ∀ field ∈ fields callAwaits contact, field.length < 2 ^ 31 := fun field hfield =>
    (Search.length_le_length_intercalate comma hfield).trans_lt hshort
  have hid : StringUtils.splitFirst (str "id" ++ colon :: intToString contact.mId) (str ":") =
      .ok (str "id", intToString contact.mId) :=
    splitFirst_field (by decide) (hlen _ (by simp [fields]))
  have husername : StringUtils.splitFirst (str "username" ++ colon :: contact.mUsername) (str ":") =
      .ok (str "username", contact.mUsername) :=
    splitFirst_field (by decide) (hlen _ (by simp [fields]))
  have honline : StringUtils.splitFirst (str "online" ++ colon :: boolText contact.mOnline)
      (str ":") = .ok (str "online", boolText contact.mOnline) :=
    splitFirst_field (by decide) (hlen _ (by simp [fields]))
  have hawaiting : StringUtils.splitFirst
      (str "awaiting" ++ colon :: boolText (callAwaits contact.mId)) (str ":") =
      .ok (str "awaiting", boolText (callAwaits contact.mId)) :=
    splitFirst_field (by decide) (hlen _ (by simp [fields]))
  have hkeys : str "username" ≠ str "id" ∧ str "online" ≠ str "id" ∧ str "awaiting" ≠ str "id" ∧
      str "online" ≠ str "username" ∧ str "awaiting" ≠ str "username" ∧
      str "awaiting" ≠ str "online" := by
    decide
  obtain ⟨h₁, h₂, h₃, h₄, h₅, h₆⟩ := hkeys
  simp only [fields, List.foldlM_cons, List.foldlM_nil, pairField, hid, husername, honline,
    hawaiting, ok_bind, pure_eq_ok, if_true, if_neg h₁, if_neg h₂, if_neg h₃, if_neg h₄, if_neg h₅,
    if_neg h₆, stoi_intToString, boolText_beq]

theorem pairContactDetails_element (h : Printable contact) (hid : contact.mId ≠ 0)
    (hshort : (element callAwaits contact).length < 2 ^ 31) (mOnlineContacts : ContactMap) :
    pairContactDetails mOnlineContacts (element callAwaits contact) =
      .ok (mOnlineContacts.insert (details callAwaits contact)) := by
  have hsplit : StringUtils.split (element callAwaits contact) (str ",") =
      .ok (fields callAwaits contact) := by
    rw [StringUtils.split_eq hshort (by decide)]
    exact congrArg Except.ok (Search.splitOn_intercalate (by simp [fields])
      (comma_notMem_fields h))
  rw [pairContactDetails, hsplit, ok_bind, foldlM_pairField hshort, ok_bind, if_pos hid]
  rfl

theorem pairContactDetails_code (mOnlineContacts : ContactMap) :
    pairContactDetails mOnlineContacts (str "201") = .ok mOnlineContacts := by
  have hsplit : StringUtils.split (str "201") (str ",") = .ok [str "201"] := by
    rw [StringUtils.split_eq (by decide) (by decide)]
    exact congrArg Except.ok (Search.splitOn_of_notMem (by decide))
  have hcut : StringUtils.splitFirst (str "201") (str ":") = .ok (str "201", []) := by
    rw [StringUtils.splitFirst_eq (by decide)]
    exact congrArg Except.ok (Search.cutFirst_of_notMem (by decide))
  have hkeys : str "201" ≠ str "id" ∧ str "201" ≠ str "username" ∧ str "201" ≠ str "online" ∧
      str "201" ≠ str "awaiting" := by
    decide
  obtain ⟨h₁, h₂, h₃, h₄⟩ := hkeys
  simp only [pairContactDetails, hsplit, ok_bind, List.foldlM_cons, List.foldlM_nil, pairField,
    hcut,
    if_neg h₁, if_neg h₂, if_neg h₃, if_neg h₄, pure_eq_ok, ne_eq, not_true_eq_false, if_false]

theorem foldlM_pairContactDetails (h : ∀ contact ∈ contacts, Printable contact)
    (hids : ∀ contact ∈ contacts, contact.mId ≠ 0)
    (hshort : ∀ contact ∈ contacts, (element callAwaits contact).length < 2 ^ 31)
    (mOnlineContacts : ContactMap)
    (hfresh : (mOnlineContacts.entries.map Details.ID ++ contacts.map User.mId).Nodup) :
    ∃ newContacts : ContactMap,
      (contacts.map (element callAwaits)).foldlM pairContactDetails mOnlineContacts =
        .ok newContacts ∧
      newContacts.entries = mOnlineContacts.entries ++ contacts.map (details callAwaits) := by
  induction contacts generalizing mOnlineContacts with
  | nil => exact ⟨mOnlineContacts, rfl, by simp⟩
  | cons contact contacts ih =>
    have hmem : contact ∈ contact :: contacts := List.mem_cons_self
    have hnew : contact.mId ∉ mOnlineContacts.entries.map Details.ID := by
      intro hold
      exact (List.disjoint_of_nodup_append hfresh) hold (by simp)
    have hentries : (mOnlineContacts.insert (details callAwaits contact)).entries =
        mOnlineContacts.entries ++ [details callAwaits contact] :=
      Keyed.insertEntry_of_notMem hnew
    obtain ⟨newContacts, hfold, hnewEntries⟩ := ih
      (fun c hc => h c (List.mem_cons_of_mem contact hc))
      (fun c hc => hids c (List.mem_cons_of_mem contact hc))
      (fun c hc => hshort c (List.mem_cons_of_mem contact hc))
      (mOnlineContacts.insert (details callAwaits contact)) (by
        rw [hentries]
        simpa [details] using hfresh)
    refine ⟨newContacts, ?_, ?_⟩
    · rw [List.map_cons, List.foldlM_cons,
        pairContactDetails_element (h contact hmem) (hids contact hmem) (hshort contact hmem),
        ok_bind, hfold]
    · rw [hnewEntries, hentries, List.map_cons, List.append_assoc, List.singleton_append]

theorem updateContacts_reply (h : ∀ contact ∈ contacts, Printable contact)
    (hids : ∀ contact ∈ contacts, contact.mId ≠ 0) (hnodup : (contacts.map User.mId).Nodup)
    (hshort : (reply callAwaits contacts).length < 2 ^ 31) (hash : QHashOrder)
    (mOnlineContacts : ContactMap) :
    ∃ newContacts job, updateContacts hash mOnlineContacts (reply callAwaits contacts) =
        .ok (newContacts, job) ∧
      newContacts.entries = contacts.map (details callAwaits) := by
  have hsplit : StringUtils.split (reply callAwaits contacts) (str " ") =
      .ok (str "201" :: contacts.map (element callAwaits)) := by
    rw [StringUtils.split_eq hshort (by decide)]
    apply congrArg Except.ok
    apply Search.splitOn_intercalate (by simp)
    intro text htext
    rcases List.mem_cons.mp htext with rfl | htext
    · decide
    · obtain ⟨contact, hcontact, rfl⟩ := List.mem_map.mp htext
      exact space_notMem_element (h contact hcontact)
  have hlen : ∀ contact ∈ contacts, (element callAwaits contact).length < 2 ^ 31 := by
    intro contact hcontact
    have hmem : element callAwaits contact ∈ str "201" :: contacts.map (element callAwaits) :=
      List.mem_cons_of_mem _ (List.mem_map_of_mem hcontact)
    exact (Search.length_le_length_intercalate space hmem).trans_lt hshort
  obtain ⟨newContacts, hfold, hentries⟩ := foldlM_pairContactDetails h hids hlen Keyed.empty
    (by simpa [Keyed.empty] using hnodup)
  refine ⟨newContacts, changeJob hash mOnlineContacts newContacts, ?_,
    by simpa [Keyed.empty] using hentries⟩
  rw [updateContacts, hsplit, ok_bind, List.foldlM_cons, pairContactDetails_code, ok_bind, hfold]
  rfl

end

theorem update_contacts_round_trip (hash : QHashOrder) (mOnlineContacts : ContactMap)
    (awaiting : AwaitingUsers) {contacts : List User} (hne : contacts ≠ [])
    (h : ∀ contact ∈ contacts, Printable contact) (hids : ∀ contact ∈ contacts, contact.mId ≠ 0)
    (hnodup : (contacts.map User.mId).Nodup) (tReq : Request) :
    ∃ text, listContacts (CallControllers.callAwaits awaiting) contacts tReq =
        .ok (tReq.setData (textData text)) ∧
      (text.length < 2 ^ 31 →
        ∃ newContacts job, updateContacts hash mOnlineContacts text = .ok (newContacts, job) ∧
          newContacts.entries = contacts.map (details (CallControllers.callAwaits awaiting))) :=
  ⟨reply (CallControllers.callAwaits awaiting) contacts, listContacts_eq hne h tReq,
    fun hshort => updateContacts_reply h hids hnodup hshort hash mOnlineContacts⟩

def keyLikeNames : List User :=
  [⟨2, str "mario:id:7", [], true, [], false⟩, ⟨-3, str "awaiting:true", [], false, [], false⟩]

theorem printable_keyLikeNames : ∀ contact ∈ keyLikeNames, Printable contact := by
  intro contact hcontact
  simp only [keyLikeNames, List.mem_cons, List.not_mem_nil, or_false] at hcontact
  rcases hcontact with rfl | rfl
  · exact ⟨rfl, rfl, by decide, by decide⟩
  · exact ⟨rfl, rfl, by decide, by decide⟩

theorem update_contacts_round_trip_two : ∃ text newContacts job,
    listContacts (CallControllers.callAwaits AwaitingUsers.empty) keyLikeNames
      (Request.new (str "1.2.3.4") true) =
      .ok ((Request.new (str "1.2.3.4") true).setData (textData text)) ∧
    updateContacts ⟨id, fun _ => .refl _⟩ Keyed.empty text = .ok (newContacts, job) ∧
    newContacts.entries =
      [⟨str "mario:id:7", 2, true, false⟩, ⟨str "awaiting:true", -3, false, false⟩] := by
  have hne : keyLikeNames ≠ [] := by decide
  obtain ⟨text, hlist, hparse⟩ := update_contacts_round_trip ⟨id, fun _ => .refl _⟩ Keyed.empty
    AwaitingUsers.empty hne printable_keyLikeNames (by decide) (by decide)
    (Request.new (str "1.2.3.4") true)
  have htext : reply (CallControllers.callAwaits AwaitingUsers.empty) keyLikeNames = text := by
    rw [listContacts_eq hne printable_keyLikeNames] at hlist
    simpa [Request.setData, textData] using hlist
  obtain ⟨newContacts, job, hupdate, hentries⟩ := hparse (htext ▸ by decide)
  exact ⟨text, newContacts, job, hlist, hupdate, hentries⟩

end Skype.ContactList
