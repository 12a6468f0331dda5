import Skype.ChatCodec

/-!
# Reading any text as a chat or a list of chats

`from_string` writes each field as soon as it is read and catches what throws behind it.
`parse_chat` catches nothing: it depends on the positions in the header.
-/

namespace Skype

open Library

namespace StringUtils

theorem length_le_of_substr {s t : ByteString} {pos count : ℕ} (h : substr s pos count = .ok t) :
    t.length ≤ s.length := by
  unfold substr at h
  split at h
  · rw [← Except.ok.inj h, List.length_take, List.length_drop]
    omega
  · cases h

theorem length_le_of_splitFirst {s d a b : ByteString} (h : splitFirst s d = .ok (a, b)) :
    b.length ≤ s.length := by
  unfold splitFirst at h
  split at h
  · obtain ⟨-, rfl⟩ := Prod.mk.inj (Except.ok.inj h)
    exact Nat.zero_le _
  · dsimp only at h
    split at h
    · obtain ⟨-, rfl⟩ := Prod.mk.inj (Except.ok.inj h)
      exact Nat.zero_le _
    · obtain ⟨first, -, second, hsecond, h⟩ := by simpa only [bind_eq_ok] using h
      obtain ⟨-, rfl⟩ := Prod.mk.inj (Except.ok.inj h)
      exact length_le_of_substr hsecond

theorem splitAt_of_lt {s : ByteString} {n : ℕ} (h : s.length < n) :
    splitAt s n = .error .outOfRange := by
  rw [splitAt, substr_of_le n (Nat.zero_le _), ok_bind, substr, if_neg (by omega)]
  rfl

end StringUtils

namespace UserChat

/-- The fields of a text in the order in which they are read; `none` throws. -/
structure Reading where
  id : Option Int32
  createdAt : Option ByteString
  sender : Option Int32
  recipient : Option Int32
  delivered : Option Bool
  text : ByteString

def readInt (fields : List ByteString) (i : ℕ) : Option Int32 :=
  fields[i]?.bind fun field => (stoi field).toOption

def reading (fields : List ByteString) (text : ByteString) : Reading where
  id := readInt fields 0
  createdAt := fields[1]?
  sender := readInt fields 2
  recipient := readInt fields 3
  delivered := fields[4]?.map fun field => field == str "true"
  text := text

def readBehind (header content : ByteString) : Option Reading :=
  match stoi header with
  | .error _ => none
  | .ok length =>
    if intToSize length ≤ content.length then
      some (reading (Search.splitOn [comma] (content.take (intToSize length)))
        (content.drop (intToSize length)))
    else none

def read (tChat : ByteString) : Option Reading :=
  readBehind (Search.cutFirst [colon] tChat).1 (Search.cutFirst [colon] tChat).2

def Reading.all (r : Reading) :
    Option (Int32 × ByteString × Int32 × Int32 × Bool × ByteString) := do
  return (← r.id, ← r.createdAt, ← r.sender, ← r.recipient, ← r.delivered, r.text)

def encoded (tChat : ByteString) :
    Option (Int32 × ByteString × Int32 × Int32 × Bool × ByteString) :=
  (read tChat).bind Reading.all

def Reading.Repeats (r : Reading) (chat : UserChat) : Prop :=
  ∀ id ∈ r.id, id = chat.mId ∧
    ∀ createdAt ∈ r.createdAt, createdAt = chat.mCreatedAt ∧
      ∀ sender ∈ r.sender, sender = chat.mSender ∧
        ∀ recipient ∈ r.recipient, recipient = chat.mRecipient ∧
          ∀ delivered ∈ r.delivered, delivered = chat.mDelivered ∧ r.text = chat.mText

/-- The object has the six fields of the text and is not empty, or it is as it was. -/
def AllOrNothing (chat : UserChat) (tChat : ByteString) (result : Exec UserChat) : Prop :=
  ∃ after, result = .ok after ∧
    ((encoded tChat = some after.fields ∧ after.mEmpty = false) ∨ after = chat)

def Reading.apply (r : Reading) (chat : UserChat) : UserChat :=
  match r.id with
  | none => chat
  | some id =>
    match r.createdAt with
    | none => { chat with mId := id }
    | some createdAt =>
      match r.sender with
      | none => { chat with mId := id, mCreatedAt := createdAt }
      | some sender =>
        match r.recipient with
        | none => { chat with mId := id, mCreatedAt := createdAt, mSender := sender }
        | some recipient =>
          match r.delivered with
          | none =>
            { chat with
              mId := id, mCreatedAt := createdAt, mSender := sender, mRecipient := recipient }
          | some delivered => ⟨id, createdAt, sender, recipient, r.text, delivered, chat.mEmpty⟩

section

variable {fields : List ByteString} {text : ByteString} {chat chat' : UserChat}
  {step : UserChat → Exec UserChat} {rest : List (UserChat → Exec UserChat)}

theorem assign_ok (h : step chat = .ok chat') : assign (step :: rest) chat = assign rest chat' := by
  rw [assign, h]

theorem assign_error {e : Stop} (h : step chat = .error e) : assign (step :: rest) chat = chat := by
  rw [assign, h]

theorem vecAt_cases (fields : List ByteString) (i : ℕ) :
    (fields[i]? = none ∧ vecAt fields i = .error .outOfRange) ∨
      ∃ field, fields[i]? = some field ∧ vecAt fields i = .ok field := by
  unfold vecAt
  cases fields[i]? with
  | none => exact Or.inl ⟨rfl, rfl⟩
  | some field => exact Or.inr ⟨field, rfl, rfl⟩

theorem stoi_cases (fields : List ByteString) (i : ℕ) :
    (readInt fields i = none ∧ ∃ e, (vecAt fields i >>= stoi) = .error e) ∨
      ∃ n, readInt fields i = some n ∧ (vecAt fields i >>= stoi) = .ok n := by
  rcases vecAt_cases fields i with ⟨hfield, hat⟩ | ⟨field, hfield, hat⟩
  · rw [readInt, hfield, hat]
    exact Or.inl ⟨rfl, _, rfl⟩
  · rw [readInt, hfield, hat, ok_bind, Option.bind_some]
    cases stoi field with
    | error e => exact Or.inl ⟨rfl, e, rfl⟩
    | ok n => exact Or.inr ⟨n, rfl, rfl⟩

theorem assign_stoi {i : ℕ} {write : Int32 → UserChat} :
    ((do return write (← stoi (← vecAt fields i))) : Exec UserChat) =
      ((vecAt fields i >>= stoi) >>= fun n => .ok (write n)) := by
  cases vecAt fields i with
  | error e => rfl
  | ok field => rfl

theorem assign_assignments (fields : List ByteString) (text : ByteString) (chat : UserChat) :
    assign (assignments fields text) chat = (reading fields text).apply chat := by
  unfold assignments Reading.apply reading
  simp only [assign_stoi]
  rcases stoi_cases fields 0 with ⟨hid, e, hstep⟩ | ⟨id, hid, hstep⟩
  · rw [hid, assign_error (by rw [hstep]; rfl)]
  rw [hid, assign_ok (by rw [hstep]; rfl)]
  dsimp only
  rcases vecAt_cases fields 1 with ⟨hcreated, hstep⟩ | ⟨createdAt, hcreated, hstep⟩
  · rw [hcreated, assign_error (by rw [hstep]; rfl)]
  rw [hcreated, assign_ok (by rw [hstep]; rfl)]
  dsimp only
  rcases stoi_cases fields 2 with ⟨hsender, e, hstep⟩ | ⟨sender, hsender, hstep⟩
  · rw [hsender, assign_error (by rw [hstep]; rfl)]
  rw [hsender, assign_ok (by rw [hstep]; rfl)]
  dsimp only
  rcases stoi_cases fields 3 with ⟨hrecipient, e, hstep⟩ | ⟨recipient, hrecipient, hstep⟩
  · rw [hrecipient, assign_error (by rw [hstep]; rfl)]
  rw [hrecipient, assign_ok (by rw [hstep]; rfl)]
  dsimp only
  rcases vecAt_cases fields 4 with ⟨hdelivered, hstep⟩ | ⟨delivered, hdelivered, hstep⟩
  · rw [hdelivered, assign_error (by rw [hstep]; rfl)]
    rfl
  rw [hdelivered, assign_ok (by rw [hstep]; rfl)]
  rfl

theorem nonneg_of_intToSize_lt {n : Int32} (h : intToSize n < 2 ^ 63) : 0 ≤ n := by
  have hlo := n.le_toInt
  rw [nonneg_iff_toInt]
  rw [intToSize] at h
  omega

theorem intToSize_of_nonneg {n : Int32} (h : 0 ≤ n) : intToSize n = n.toInt.toNat := by
  have hhi := n.toInt_lt
  rw [nonneg_iff_toInt] at h
  rw [intToSize]
  omega

theorem tryBlock (chat : UserChat) (header : ByteString) {content : ByteString}
    (hcontent : content.length < 2 ^ 63) :
    catchAll
        (do
          let contentLength ← stoi header
          let (info, text) ← StringUtils.splitAt content (intToSize contentLength)
          let fields ← StringUtils.split info fieldDelim
          return assign (assignments fields text) chat)
        (.ok chat) =
      .ok ((readBehind header content).elim chat fun r => r.apply chat) := by
  unfold readBehind
  cases hheader : stoi header with
  | error e =>
    rcases stoi_error hheader with rfl | rfl
    · rfl
    · rfl
  | ok length =>
    rw [ok_bind]
    dsimp only
    split
    · next hle =>
      have hnonneg := nonneg_of_intToSize_lt (hle.trans_lt hcontent)
      have hinfo : (content.take (intToSize length)).length < 2 ^ 31 := by
        have hhi := length.toInt_lt
        rw [List.length_take, intToSize_of_nonneg hnonneg]
        omega
      rw [StringUtils.splitAt_of_le hle, ok_bind, fieldDelim_eq,
        StringUtils.split_eq hinfo (List.cons_ne_nil _ _), ok_bind, assign_assignments]
      rfl
    · next hlt =>
      rw [StringUtils.splitAt_of_lt (by omega)]
      rfl

theorem fromString_eq (chat : UserChat) {tChat : ByteString} (hlen : tChat.length < 2 ^ 63) :
    fromString chat tChat = (StringUtils.splitFirst tChat headerDelim).map fun parts =>
      (readBehind parts.1 parts.2).elim chat fun r => r.apply chat := by
  rw [fromString]
  cases hparts : StringUtils.splitFirst tChat headerDelim with
  | error e => rfl
  | ok parts =>
    rw [ok_bind]
    exact tryBlock chat parts.1 ((StringUtils.length_le_of_splitFirst hparts).trans_lt hlen)

theorem fromString_returns_iff (chat : UserChat) {tChat : ByteString}
    (hlen : tChat.length < 2 ^ 63) :
    (∃ after, fromString chat tChat = .ok after) ↔
      ∃ parts, StringUtils.splitFirst tChat headerDelim = .ok parts := by
  rw [fromString_eq chat hlen]
  cases StringUtils.splitFirst tChat headerDelim with
  | error e => simp [Except.map]
  | ok parts => simp [Except.map]

theorem fromString_short (chat : UserChat) {tChat : ByteString} (hshort : tChat.length < 2 ^ 31) :
    fromString chat tChat = .ok ((read tChat).elim chat fun r => r.apply chat) := by
  rw [fromString_eq chat (by omega), headerDelim_eq, StringUtils.splitFirst_eq hshort]
  rfl

theorem mEmpty_apply (r : Reading) (chat : UserChat) : (r.apply chat).mEmpty = chat.mEmpty := by
  unfold Reading.apply
  split
  · rfl
  split
  · rfl
  split
  · rfl
  split
  · rfl
  split
  · rfl
  · rfl

theorem fields_apply {r : Reading}
    {fields : Int32 × ByteString × Int32 × Int32 × Bool × ByteString} (h : r.all = some fields)
    (chat : UserChat) : (r.apply chat).fields = fields := by
  obtain ⟨id, createdAt, sender, recipient, delivered, text⟩ := r
  simp only [Reading.all, Option.pure_def, Option.bind_eq_bind, Option.bind_eq_some_iff] at h
  obtain ⟨id, rfl, createdAt, rfl, sender, rfl, recipient, rfl, delivered, rfl, h⟩ := h
  exact Option.some.inj h

theorem apply_eq_iff (r : Reading) (chat : UserChat) : r.apply chat = chat ↔ r.Repeats chat := by
  obtain ⟨id, createdAt, sender, recipient, delivered, text⟩ := r
  obtain ⟨mId, mCreatedAt, mSender, mRecipient, mText, mDelivered, mEmpty⟩ := chat
  unfold Reading.apply Reading.Repeats
  cases id with
  | none => simp
  | some id =>
    cases createdAt with
    | none => simp
    | some createdAt =>
      cases sender with
      | none => simp
      | some sender =>
        cases recipient with
        | none => simp
        | some recipient =>
          cases delivered with
          | none => simp
          | some delivered =>
            simp only [UserChat.mk.injEq, Option.mem_some_iff, forall_eq']
            tauto

/-- `from_string` is all or nothing exactly when the text encodes a chat and the object
is not empty, or nothing that it writes is new. -/
theorem fromString_allOrNothing_iff (chat : UserChat) (tChat : ByteString)
    (hshort : tChat.length < 2 ^ 31) :
    AllOrNothing chat tChat (fromString chat tChat) ↔
      ((encoded tChat).isSome = true ∧ chat.mEmpty = false) ∨
        ∀ r ∈ read tChat, r.Repeats chat := by
  rw [fromString_short chat hshort]
  have hone : AllOrNothing chat tChat (.ok ((read tChat).elim chat fun r => r.apply chat)) ↔
      (encoded tChat = some ((read tChat).elim chat fun r => r.apply chat).fields ∧
          ((read tChat).elim chat fun r => r.apply chat).mEmpty = false) ∨
        ((read tChat).elim chat fun r => r.apply chat) = chat := by
    constructor
    · rintro ⟨after, hafter, h⟩
      obtain rfl := Except.ok.inj hafter
      exact h
    · exact fun h => ⟨_, rfl, h⟩
  rw [hone, encoded]
  cases read tChat with
  | none => simp
  | some r =>
    rw [Option.elim_some, Option.bind_some, mEmpty_apply, apply_eq_iff]
    refine or_congr (and_congr_left fun _ => ?_) (by simp)
    constructor
    · intro h
      rw [h]
      rfl
    · intro h
      obtain ⟨fields, hfields⟩ := Option.isSome_iff_exists.mp h
      rw [fields_apply hfields, hfields]

end

def johnsChat : UserChat :=
  ⟨4, str "2022-08-27 10:00:00", 4, 1, str "hello", false, false⟩

theorem fromString_allOrNothing_john :
    AllOrNothing johnsChat (str "31:7,2022-08-27 11:00:00,1,4,truehi")
      (fromString johnsChat (str "31:7,2022-08-27 11:00:00,1,4,truehi")) :=
  (fromString_allOrNothing_iff johnsChat (str "31:7,2022-08-27 11:00:00,1,4,truehi")
    (by decide)).mpr (Or.inl (by decide +kernel))

/-- A new object stays empty when all its fields are read, and keeps the id in front of a
field that is not one. -/
theorem new_chat_stays_empty :
    ¬AllOrNothing UserChat.new (str "31:7,2022-08-27 11:00:00,1,4,truehi")
        (fromString UserChat.new (str "31:7,2022-08-27 11:00:00,1,4,truehi")) ∧
      ¬AllOrNothing UserChat.new (str "3:7,xhi") (fromString UserChat.new (str "3:7,xhi")) := by
  constructor
  · rintro ⟨after, hafter, hall | rfl⟩
    · have hempty : (fromString UserChat.new (str "31:7,2022-08-27 11:00:00,1,4,truehi")).map
          UserChat.mEmpty = .ok true := by decide +kernel
      rw [hafter] at hempty
      exact absurd (Except.ok.inj hempty) (by rw [hall.2]; exact Bool.false_ne_true)
    · have hid : (fromString UserChat.new (str "31:7,2022-08-27 11:00:00,1,4,truehi")).map
          UserChat.mId = .ok 7 := by decide +kernel
      rw [hafter] at hid
      exact absurd (Except.ok.inj hid) (by decide)
  · rintro ⟨after, hafter, hall | rfl⟩
    · have hnone : encoded (str "3:7,xhi") = none := by decide +kernel
      rw [hnone] at hall
      cases hall.1
    · have hid : (fromString UserChat.new (str "3:7,xhi")).map UserChat.mId = .ok 7 := by
        decide +kernel
      rw [hafter] at hid
      exact absurd (Except.ok.inj hid) (by decide)

end UserChat

namespace StringUtils

section

variable {s d : ByteString}

theorem substr_returns_iff {pos count : ℕ} :
    (∃ t, substr s pos count = .ok t) ↔ pos ≤ s.length := by
  unfold substr
  split
  · next h => exact iff_of_true ⟨_, rfl⟩ h
  · next h => exact iff_of_false (by simp) h

theorem splitAtAll_returns_iff (s : ByteString) (positions : List ℕ) :
    (∃ pieces, splitAtAll s positions = .ok pieces) ↔
      positions ≠ [] ∧ ∀ p ∈ positions.dropLast, intToSize (sizeToInt p) ≤ s.length := by
  induction positions with
  | nil => simp [splitAtAll]
  | cons a rest ih =>
    cases rest with
    | nil => simp [splitAtAll]
    | cons b rest =>
      rw [List.dropLast_cons_cons, List.forall_mem_cons, splitAtAll]
      simp only [bind_eq_ok, pure_eq_ok, Except.ok.injEq]
      constructor
      · rintro ⟨-, piece, hpiece, pieces, hpieces, -⟩
        exact ⟨List.cons_ne_nil _ _, substr_returns_iff.mp ⟨piece, hpiece⟩,
          (ih.mp ⟨pieces, hpieces⟩).2⟩
      · rintro ⟨-, ha, hrest⟩
        obtain ⟨piece, hpiece⟩ := substr_returns_iff.mpr ha
        obtain ⟨pieces, hpieces⟩ := ih.mpr ⟨List.cons_ne_nil _ _, hrest⟩
        exact ⟨_, piece, hpiece, pieces, hpieces, rfl⟩

theorem length_le_of_splitAtAll {positions : List ℕ} {pieces : List ByteString}
    (h : splitAtAll s positions = .ok pieces) : ∀ piece ∈ pieces, piece.length ≤ s.length := by
  induction positions generalizing pieces with
  | nil => cases h
  | cons a rest ih =>
    cases rest with
    | nil =>
      obtain rfl := Except.ok.inj h
      simp
    | cons b rest =>
      rw [splitAtAll] at h
      obtain ⟨piece, hpiece, pieces, hpieces, h⟩ := by simpa only [bind_eq_ok] using h
      obtain rfl := Except.ok.inj h
      exact List.forall_mem_cons.mpr ⟨length_le_of_substr hpiece, ih hpieces⟩

end

end StringUtils

namespace Chat

def Splits (tResponse : ByteString) : Prop :=
  ∃ code response header content positions pieces,
    StringUtils.splitFirst tResponse (str " ") = .ok (code, response) ∧
      StringUtils.splitFirst response UserChat.headerDelim = .ok (header, content) ∧
      StringUtils.splitToInts header UserChat.fieldDelim = .ok positions ∧ positions ≠ [] ∧
      (∀ p ∈ positions.dropLast, intToSize (sizeToInt p) ≤ content.length) ∧
      StringUtils.splitAtAll content positions = .ok pieces ∧
      ∀ chat ∈ pieces, ∃ parts, StringUtils.splitFirst chat UserChat.headerDelim = .ok parts

/-- The text between the first space and the next colon is a list of numbers, and all but
the last are positions in the content. -/
def Readable (tResponse : ByteString) : Prop :=
  let response := (Search.cutFirst [space] tResponse).2
  let (header, content) := Search.cutFirst [colon] response
  ∃ positions : List Int32, (Search.splitOn [comma] header).map stoi = positions.map .ok ∧
    ∀ p ∈ positions.dropLast, 0 ≤ p ∧ p.toInt ≤ content.length

theorem parseChat_splits_iff {tResponse : ByteString} (hlen : tResponse.length < 2 ^ 63) :
    (∃ chats, parseChat tResponse = .ok chats) ↔ Splits tResponse := by
  have hpieces : ∀ {code response header content : ByteString} {positions : List ℕ}
      {pieces : List ByteString},
      StringUtils.splitFirst tResponse (str " ") = .ok (code, response) →
      StringUtils.splitFirst response UserChat.headerDelim = .ok (header, content) →
      StringUtils.splitAtAll content positions = .ok pieces →
      ∀ chat ∈ pieces, chat.length < 2 ^ 63 := by
    intro code response header content positions pieces hresponse hcontent hsplit chat hchat
    have h₁ := StringUtils.length_le_of_splitFirst hresponse
    have h₂ := StringUtils.length_le_of_splitFirst hcontent
    have h₃ := StringUtils.length_le_of_splitAtAll hsplit chat hchat
    omega
  constructor
  · rintro ⟨chats, h⟩
    obtain ⟨⟨code, response⟩, hresponse, ⟨header, content⟩, hcontent, positions, hpositions, pieces,
      hsplit, h⟩ := by simpa only [parseChat, bind_eq_ok] using h
    have hin := (StringUtils.splitAtAll_returns_iff content positions).mp ⟨pieces, hsplit⟩
    refine ⟨code, response, header, content, positions, pieces, hresponse, hcontent, hpositions,
      hin.1, hin.2, hsplit, ?_⟩
    intro chat hchat
    exact (UserChat.fromString_returns_iff _ (hpieces hresponse hcontent hsplit chat hchat)).mp
      (mapM_returns_iff.mp ⟨chats, h⟩ chat hchat)
  · rintro ⟨code, response, header, content, positions, pieces, hresponse, hcontent, hpositions,
      -, -, hsplit, hparts⟩
    obtain ⟨chats, hchats⟩ := mapM_returns_iff.mpr fun chat hchat =>
      (UserChat.fromString_returns_iff UserChat.new
        (hpieces hresponse hcontent hsplit chat hchat)).mpr (hparts chat hchat)
    refine ⟨chats, ?_⟩
    rw [parseChat, hresponse, ok_bind]
    dsimp only
    rw [hcontent, ok_bind]
    dsimp only
    rw [hpositions, ok_bind, hsplit, ok_bind, hchats]

theorem intToSize_le_iff {n : Int32} {size : ℕ} (hsize : size < 2 ^ 31) :
    intToSize n ≤ size ↔ 0 ≤ n ∧ n.toInt ≤ size := by
  constructor
  · intro h
    have hnonneg := UserChat.nonneg_of_intToSize_lt (h.trans_lt (hsize.trans (by decide)))
    rw [UserChat.intToSize_of_nonneg hnonneg] at h
    exact ⟨hnonneg, by omega⟩
  · rintro ⟨hnonneg, hle⟩
    rw [UserChat.intToSize_of_nonneg hnonneg]
    omega

theorem sizeToInt_intToSize (n : Int32) : sizeToInt (intToSize n) = n := by
  have hlo := n.le_toInt
  have hhi := n.toInt_lt
  apply Int32.toInt_inj.mp
  rw [sizeToInt, Int32.toInt_ofNat', intToSize, Int.toNat_of_nonneg (by omega), Int.bmod_def,
    Int32.size]
  omega

theorem splits_iff_readable {tResponse : ByteString} (hshort : tResponse.length < 2 ^ 31) :
    Splits tResponse ↔ Readable tResponse := by
  have hspace : str " " = [space] := by decide
  have h₁ := Search.length_cutFirst_snd_le [space] tResponse
  have h₂ := Search.length_cutFirst_snd_le [colon] (Search.cutFirst [space] tResponse).2
  have h₃ := Search.length_cutFirst_fst_le [colon] (Search.cutFirst [space] tResponse).2
  have hresponse := StringUtils.splitFirst_eq (d := [space]) hshort
  have hcontent := StringUtils.splitFirst_eq (s := (Search.cutFirst [space] tResponse).2)
    (d := [colon]) (by omega)
  unfold Splits Readable
  rw [hspace, hresponse, UserChat.headerDelim_eq, UserChat.fieldDelim_eq]
  dsimp only
  generalize Search.cutFirst [space] tResponse = outer at *
  obtain ⟨code, response⟩ := outer
  dsimp only at *
  generalize Search.cutFirst [colon] response = inner at *
  obtain ⟨header, content⟩ := inner
  dsimp only at *
  constructor
  · rintro ⟨_, _, _, _, positions, pieces, h, h', hints, hne, hin, -, -⟩
    obtain ⟨-, rfl⟩ := Prod.mk.inj (Except.ok.inj h)
    rw [hcontent] at h'
    obtain ⟨rfl, rfl⟩ := Prod.mk.inj (Except.ok.inj h')
    rcases StringUtils.splitToInts_cases (s := header) (d := [comma]) (by omega)
      (List.cons_ne_nil _ _) with ⟨vals, hvals, hok⟩ | ⟨-, hok⟩
    · rw [hints] at hok
      obtain rfl := Except.ok.inj hok
      refine ⟨vals, hvals, fun p hp => ?_⟩
      rw [← List.map_dropLast] at hin
      have hp' := hin _ (List.mem_map_of_mem hp)
      rw [sizeToInt_intToSize] at hp'
      exact (intToSize_le_iff (by omega)).mp hp'
    · rw [hints] at hok
      exact absurd (Except.ok.inj hok) hne
  · rintro ⟨vals, hvals, hin⟩
    have hok := StringUtils.splitToInts_eq (by omega) (List.cons_ne_nil _ _) hvals
    have hne : vals.map intToSize ≠ [] := by
      intro hnil
      rw [List.map_eq_nil_iff.mp hnil, List.map_nil, List.map_eq_nil_iff] at hvals
      exact Search.splitOn_ne_nil [comma] header hvals
    have hin' : ∀ p ∈ (vals.map intToSize).dropLast, intToSize (sizeToInt p) ≤ content.length := by
      rw [← List.map_dropLast]
      intro p hp
      obtain ⟨n, hn, rfl⟩ := List.mem_map.mp hp
      rw [sizeToInt_intToSize]
      exact (intToSize_le_iff (by omega)).mpr (hin n hn)
    obtain ⟨pieces, hpieces⟩ := (StringUtils.splitAtAll_returns_iff _ _).mpr ⟨hne, hin'⟩
    refine ⟨_, _, _, _, _, pieces, rfl, hcontent, hok, hne, hin', hpieces, fun chat hchat => ?_⟩
    have hchatLen := StringUtils.length_le_of_splitAtAll hpieces chat hchat
    exact ⟨_, StringUtils.splitFirst_eq (by omega)⟩

/-- `parse_chat` returns exactly when its helpers do, which on a reply that can be received
is a matter of the positions in the header. -/
theorem parseChat_returns_iff (tResponse : ByteString) (hlen : tResponse.length < 2 ^ 63) :
    ((∃ chats, parseChat tResponse = .ok chats) ↔ Splits tResponse) ∧
      (tResponse.length < 2 ^ 31 → (Splits tResponse ↔ Readable tResponse)) :=
  ⟨parseChat_splits_iff hlen, splits_iff_readable⟩

theorem parseChat_returns_two :
    Readable (str "201 0,2,4:abcd") ∧ ∃ chats, parseChat (str "201 0,2,4:abcd") = .ok chats := by
  have hcode : Search.cutFirst [space] (str "201 0,2,4:abcd") =
      (str "201", str "0,2,4:abcd") := by decide
  have hheader : Search.cutFirst [colon] (str "0,2,4:abcd") = (str "0,2,4", str "abcd") := by
    decide
  have hreadable : Readable (str "201 0,2,4:abcd") := by
    rw [Readable, hcode]
    dsimp only
    rw [hheader]
    refine ⟨[0, 2, 4], by decide +kernel, ?_⟩
    intro p hp
    simp only [List.dropLast_cons_cons, List.dropLast_singleton, List.mem_cons, List.not_mem_nil,
      or_false] at hp
    rcases hp with rfl | rfl <;> decide
  obtain ⟨hreturns, hsplits⟩ := parseChat_returns_iff (str "201 0,2,4:abcd") (by decide)
  exact ⟨hreadable, hreturns.mpr ((hsplits (by decide)).mpr hreadable)⟩

/-- No colon and no number, a position behind the content, a negative position. -/
theorem parseChat_throws :
    (¬∃ chats, parseChat (str "201 hello") = .ok chats) ∧
      (¬∃ chats, parseChat (str "201 9,12:ab") = .ok chats) ∧
      ¬∃ chats, parseChat (str "201 -1,2:ab") = .ok chats := by
  have hword : parseChat (str "201 hello") = .error .outOfRange := by decide +kernel
  have hbehind : parseChat (str "201 9,12:ab") = .error .outOfRange := by decide +kernel
  have hnegative : parseChat (str "201 -1,2:ab") = .error .outOfRange := by decide +kernel
  rw [hword, hbehind, hnegative]
  simp

end Chat

end Skype
