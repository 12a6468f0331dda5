import Skype.UserChat
import Skype.Reply

/-!
# The chat list on the wire

The server writes a list of chats as `0,n1,n2,...:` followed by the chats, where
`n1`, `n2`, ... are the running lengths of what follows the colon; each chat
carries the length of its metadata in front. The client cuts the content at the
announced positions and each chat at its own length, so the free text of a
message never meets a delimiter search.
-/

namespace Skype

open Library

def ChatControllers.buildResponse (tUserChats : List UserChat) : ByteString :=
  let (response, content) := tUserChats.foldl
    (fun (response, content) chat =>
      let chatStr := chat.toString
      let chatHeader := sizeToString (chatStr.length - chat.textLength) ++ UserChat.headerDelim
      let content := content ++ chatHeader ++ chatStr
      (response ++ str "," ++ sizeToString content.length, content))
    (str "0", [])
  response ++ str ":" ++ content

def Chat.parseChat (tResponse : ByteString) : Exec (List UserChat) := do
  let (_, response) ← StringUtils.splitFirst tResponse (str " ")
  let (header, content) ← StringUtils.splitFirst response UserChat.headerDelim
  let positions ← StringUtils.splitToInts header UserChat.fieldDelim
  let chats ← StringUtils.splitAtAll content positions
  chats.mapM fun chat => UserChat.fromString UserChat.new chat

namespace ChatCodec

def segment (chat : UserChat) : ByteString :=
  sizeToString (chat.toString.length - chat.textLength) ++ UserChat.headerDelim ++ chat.toString

def content (chats : List UserChat) : ByteString := (chats.map segment).flatten

def ends (n : ℕ) : List UserChat → List ℕ
  | [] => []
  | chat :: chats => (n + (segment chat).length) :: ends (n + (segment chat).length) chats

def header (chats : List UserChat) : ByteString :=
  [comma].intercalate ((0 :: ends 0 chats).map sizeToString)

theorem content_cons (chat : UserChat) (chats : List UserChat) :
    content (chat :: chats) = segment chat ++ content chats := rfl

theorem foldl_eq (chats : List UserChat) (response written : ByteString) :
    chats.foldl
      (fun (response, content) chat =>
        let chatStr := chat.toString
        let chatHeader := sizeToString (chatStr.length - chat.textLength) ++ UserChat.headerDelim
        let content := content ++ chatHeader ++ chatStr
        (response ++ str "," ++ sizeToString content.length, content))
      (response, written) =
    (response ++ ((ends written.length chats).map sizeToString).flatMap (comma :: ·),
      written ++ content chats) := by
  have hcomma : str "," = [comma] := by decide
  induction chats generalizing response written with
  | nil => simp [ends, content]
  | cons chat chats ih =>
    have hseg : written ++ (sizeToString (chat.toString.length - chat.textLength) ++
        UserChat.headerDelim) ++ chat.toString = written ++ segment chat := by
      simp [segment]
    simp only [List.foldl_cons, hseg]
    rw [ih]
    simp [ends, content_cons, hcomma]

theorem buildResponse_eq (chats : List UserChat) :
    ChatControllers.buildResponse chats = header chats ++ colon :: content chats := by
  have hcolon : str ":" = [colon] := by decide
  have hzero : str "0" = sizeToString 0 := by decide
  simp only [ChatControllers.buildResponse, foldl_eq, header, List.map_cons,
    Search.intercalate_cons_eq_append_flatMap]
  simp [hcolon, hzero]

theorem ends_le (n : ℕ) (chats : List UserChat) :
    ∀ p ∈ ends n chats, p ≤ n + (content chats).length := by
  induction chats generalizing n with
  | nil => simp [ends]
  | cons chat chats ih =>
    intro p hp
    rw [content_cons, List.length_append]
    rcases List.mem_cons.mp hp with rfl | hp
    · omega
    · have hle := ih (n + (segment chat).length) p hp
      omega

theorem colon_notMem_header (chats : List UserChat) : colon ∉ header chats := by
  have hnum : ∀ n, colon ∉ sizeToString n := fun n => Decimal.notMem_print (by decide)
  have hne : colon ≠ comma := by decide
  simp [header, Search.intercalate_cons_eq_append_flatMap, hnum, hne]

theorem splitToInts_header {chats : List UserChat} (hheader : (header chats).length < 2 ^ 31)
    (hcontent : (content chats).length < 2 ^ 31) :
    StringUtils.splitToInts (header chats) UserChat.fieldDelim = .ok (0 :: ends 0 chats) := by
  have hpieces : Search.splitOn [comma] (header chats) = (0 :: ends 0 chats).map sizeToString := by
    refine Search.splitOn_intercalate (by simp) fun p hp => ?_
    obtain ⟨n, -, rfl⟩ := List.mem_map.mp hp
    exact Decimal.notMem_print (by decide)
  have hlt : ∀ n ∈ 0 :: ends 0 chats, n < 2 ^ 31 := by
    intro n hn
    rcases List.mem_cons.mp hn with rfl | hn
    · omega
    · have hle := ends_le 0 chats n hn
      omega
  have hvals : (Search.splitOn UserChat.fieldDelim (header chats)).map stoi =
      ((0 :: ends 0 chats).map sizeToInt).map .ok := by
    rw [UserChat.fieldDelim_eq, hpieces, List.map_map, List.map_map]
    exact List.map_congr_left fun n hn => stoi_sizeToString (hlt n hn)
  have hback : ((0 :: ends 0 chats).map sizeToInt).map intToSize = 0 :: ends 0 chats := by
    rw [List.map_map]
    exact (List.map_congr_left fun n hn => intToSize_sizeToInt (hlt n hn)).trans (List.map_id _)
  rw [StringUtils.splitToInts_eq hheader (by simp [UserChat.fieldDelim_eq]) hvals, hback]

/-- Cutting at the announced positions gives the segments; the induction moves
the segments already cut off into `written`. -/
theorem splitAtAll_content (chats : List UserChat) (written : ByteString)
    (hlen : (written ++ content chats).length < 2 ^ 31) :
    StringUtils.splitAtAll (written ++ content chats)
      (written.length :: ends written.length chats) = .ok (chats.map segment) := by
  induction chats generalizing written with
  | nil => rfl
  | cons chat chats ih =>
    have hsplit :
        written ++ content (chat :: chats) = (written ++ segment chat) ++ content chats := by
      rw [content_cons, List.append_assoc]
    have hlen' := hlen
    rw [hsplit] at hlen'
    have hrest := ih (written ++ segment chat) hlen'
    simp only [List.length_append] at hrest hlen'
    have hcount : (written.length + (segment chat).length + 2 ^ 64 - written.length) % 2 ^ 64 =
        (segment chat).length := by
      omega
    have hpiece : substr (written ++ segment chat ++ content chats) written.length
        (segment chat).length = .ok (segment chat) := by
      rw [substr_of_le _ (by simp), List.append_assoc, List.drop_left, List.take_left]
    rw [hsplit, ends, StringUtils.splitAtAll, hcount,
      intToSize_sizeToInt (show written.length < 2 ^ 31 by omega),
      intToSize_sizeToInt (show (segment chat).length < 2 ^ 31 by omega), hpiece]
    simp only [ok_bind, hrest, pure_eq_ok, List.map_cons]

theorem length_segment_le {chat : UserChat} {chats : List UserChat} (h : chat ∈ chats) :
    (segment chat).length ≤ (content chats).length := by
  rw [content, List.length_flatten]
  exact List.single_le_sum (by simp) _ (List.mem_map_of_mem (List.mem_map_of_mem h))

theorem mapM_fromString {chats : List UserChat} (hcreated : ∀ chat ∈ chats, comma ∉ chat.mCreatedAt)
    (hlen : ∀ chat ∈ chats, (segment chat).length < 2 ^ 31) :
    (chats.map segment).mapM (fun chat => UserChat.fromString UserChat.new chat) =
      .ok (chats.map fun chat => { chat with mEmpty := true }) := by
  induction chats with
  | nil => rfl
  | cons chat chats ih =>
    have hhead := UserChat.fromString_toString UserChat.new (hcreated chat (by simp))
      (hlen chat (by simp))
    have htail := ih (fun c hc => hcreated c (by simp [hc])) (fun c hc => hlen c (by simp [hc]))
    rw [List.map_cons, List.mapM_cons, htail, segment, hhead]
    rfl

/-- `parse_chat` undoes `build_response` on a reply shorter than `2 ^ 31` bytes:
the only field that does not travel is the `empty` flag. -/
theorem parseChat_buildResponse {chats : List UserChat}
    (hcreated : ∀ chat ∈ chats, comma ∉ chat.mCreatedAt)
    (hlen : (str "201 " ++ ChatControllers.buildResponse chats).length < 2 ^ 31) :
    Chat.parseChat (str "201 " ++ ChatControllers.buildResponse chats) =
      .ok (chats.map fun chat => { chat with mEmpty := true }) := by
  have hcode : str "201 " ++ ChatControllers.buildResponse chats =
      str "201" ++ space :: (header chats ++ colon :: content chats) := by
    rw [buildResponse_eq]
    rfl
  have hspace : str " " = [space] := by decide
  rw [hcode] at hlen ⊢
  have hbody : (header chats ++ colon :: content chats).length < 2 ^ 31 := by
    simp only [List.length_append, List.length_cons] at hlen ⊢
    omega
  have hparts : (header chats).length < 2 ^ 31 ∧ (content chats).length < 2 ^ 31 := by
    simp only [List.length_append, List.length_cons] at hbody
    omega
  have hreply := StringUtils.splitFirst_eq (d := [space]) hlen
  rw [Search.cutFirst_append_cons _ (by decide)] at hreply
  have hresponse := StringUtils.splitFirst_eq (d := [colon]) hbody
  rw [Search.cutFirst_append_cons _ (colon_notMem_header chats)] at hresponse
  have hcut : StringUtils.splitAtAll (content chats) (0 :: ends 0 chats) =
      .ok (chats.map segment) := splitAtAll_content chats [] (by simpa using hparts.2)
  have hchats := mapM_fromString hcreated fun chat hc =>
    (length_segment_le hc).trans_lt hparts.2
  simp only [Chat.parseChat, hspace, hreply, ok_bind, UserChat.headerDelim_eq, hresponse,
    splitToInts_header hparts.1 hparts.2, hcut, hchats]

theorem roundTrip {chats : List UserChat} {reply : ByteString}
    (hcreated : ∀ chat ∈ chats, comma ∉ chat.mCreatedAt)
    (hreply : Reply.appendMessage .r201 (ChatControllers.buildResponse chats) = .ok reply)
    (hlen : reply.length < 2 ^ 31) :
    ∃ parsed, Chat.parseChat reply = .ok parsed ∧
      parsed.map UserChat.fields = chats.map UserChat.fields := by
  rw [Reply.appendMessage_r201] at hreply
  obtain rfl := Except.ok.inj hreply
  refine ⟨_, parseChat_buildResponse hcreated hlen, ?_⟩
  rw [List.map_map]
  rfl

theorem roundTrip_two :
    ∃ parsed, Chat.parseChat
        (str "201 0,41,56:31:4,2022-08-27 10:00:00,4,1,falsea, b: c12:-7,,1,4,true") = .ok parsed ∧
      parsed.map UserChat.fields =
        [(4, str "2022-08-27 10:00:00", 4, 1, false, str "a, b: c"), (-7, [], 1, 4, true, [])] :=
  @roundTrip
    [⟨4, str "2022-08-27 10:00:00", 4, 1, str "a, b: c", false, false⟩,
     ⟨-7, [], 1, 4, [], true, false⟩] _
    (by decide) (by decide) (by decide)

end ChatCodec

end Skype
