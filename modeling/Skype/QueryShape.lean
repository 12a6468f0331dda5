import Skype.ChatIds
import Skype.ControllerSteps

/-!
# Whether texts of users change the shape of a query

Every method has one query for all values of its parameters, and these are literals or
printed integers. The exception is the id of `DELIVERED`, which stands in the query as
it is; its query keeps the shape if and only if the id is one integer.
-/

namespace Skype

open Library

namespace Postgres

def Method.sample : Method → Sql.Query
  | .listUserContacts => listContactsText []
  | .listUserChats pending withSender =>
    listChatsText 0 pending (if withSender then some 0 else none)
  | .searchUserByToken => searchTokenText []
  | .searchUserBy field => searchUserText [] field
  | .searchUserChatBy => searchChatText (str "0")
  | .userContactExists => contactExistsText 0 0
  | .addUser online => addUserText ⟨0, [], [], online, [], false⟩
  | .addUserChat delivered => addChatText ⟨0, [], 0, 0, [], delivered, false⟩
  | .addUserContact => addContactText 0 0
  | .addUserToken => addTokenText 0 []
  | .removeUserToken => removeTokenText 0
  | .removeUserContact => removeContactText 0 0
  | .updateUser => updateUserText User.empty
  | .setUserChatToDelivered => setDeliveredText 0
  | .logoff => logoffText 0

def Method.skeleton (method : Method) : List Sql.Token := method.sample.skeleton

theorem separated_sample (method : Method) : Sql.Separated method.sample := by
  cases method with
  | listUserChats pending withSender =>
    revert pending withSender
    decide +kernel
  | searchUserBy field =>
    cases field with
    | _ => decide +kernel
  | addUser online =>
    revert online
    decide +kernel
  | addUserChat delivered =>
    revert delivered
    decide +kernel
  | _ => decide +kernel

end Postgres

open Postgres

namespace SentQuery

/-- The query is the one of its method, but for the values of the parameters. -/
def Fits (sent : SentQuery) : Prop := sent.query.shape = sent.method.sample.shape

def Shaped (pg : Engine) (sent : SentQuery) : Prop :=
  Sql.tokens (sent.query.text pg.quoting) = sent.method.skeleton

instance (pg : Engine) (sent : SentQuery) : Decidable (sent.Shaped pg) :=
  inferInstanceAs (Decidable (_ = _))

theorem Fits.shaped {sent : SentQuery} (h : sent.Fits) (pg : Engine) : sent.Shaped pg :=
  Sql.tokens_text_of_shape pg.quoting h (separated_sample sent.method)

theorem shaped_searchChat_iff (pg : Engine) (id : ByteString) :
    Shaped pg ⟨.searchUserChatBy, searchChatText id⟩ ↔ Sql.tokens id = [.number] := by
  have hends : Sql.Ends (str "SELECT * FROM chats WHERE id" ++ str " = ") := by decide +kernel
  have htext : ∀ id, (searchChatText id).text pg.quoting =
      str "SELECT * FROM chats WHERE id" ++ str " = " ++ id := fun id => rfl
  have hskeleton : Method.searchUserChatBy.skeleton =
      Sql.tokens (str "SELECT * FROM chats WHERE id" ++ str " = ") ++ [.number] := by
    decide +kernel
  rw [Shaped, htext, Sql.tokens_append hends, hskeleton]
  exact List.append_right_inj _

end SentQuery

namespace Router

open ControllerUtils

def Sends (a b : Server) : Prop :=
  ∃ sent, b.queries = a.queries ++ sent ∧ ∀ q ∈ sent, q.Fits

theorem sends_refl (s : Server) : Sends s s := ⟨[], (List.append_nil _).symm, by simp⟩

theorem Sends.trans {a b c : Server} (hab : Sends a b) (hbc : Sends b c) : Sends a c := by
  obtain ⟨first, hfirst, hfits⟩ := hab
  obtain ⟨rest, hrest, hfits'⟩ := hbc
  refine ⟨first ++ rest, ?_, ?_⟩
  · rw [hrest, hfirst, List.append_assoc]
  · intro q hq
    rcases List.mem_append.mp hq with hq | hq
    · exact hfits q hq
    · exact hfits' q hq

theorem sends_of_query {s t : Server} {method : Method} {query : Sql.Query}
    (h : t.queries = s.queries ++ [⟨method, query⟩]) (hfits : query.shape = method.sample.shape) :
    Sends s t := by
  refine ⟨[⟨method, query⟩], h, ?_⟩
  intro q hq
  rw [List.mem_singleton.mp hq]
  exact hfits

theorem sends_listUserChats (pg : Engine) (s : Server) (tUser : Int32) (tPending : Bool)
    (tSender : Option Int32) : Sends s (s.listUserChats pg tUser tPending tSender).2 := by
  cases tSender with
  | none =>
    cases tPending with
    | false => exact sends_of_query rfl rfl
    | true => exact sends_of_query rfl rfl
  | some sender =>
    cases tPending with
    | false => exact sends_of_query rfl rfl
    | true => exact sends_of_query rfl rfl

theorem sends_follows : Follows Sends where
  refl := sends_refl
  trans := Sends.trans
  searchUserByToken _ _ := sends_of_query rfl rfl
  searchUserBy _ _ _ _ := sends_of_query rfl rfl
  listUserContacts _ _ := sends_of_query rfl rfl
  listUserChats := sends_listUserChats
  userContactExists _ _ _ := sends_of_query rfl rfl
  addUser _ _ _ _ := sends_of_query rfl rfl
  addUserToken _ _ _ _ := sends_of_query rfl rfl
  updateUser _ _ _ := sends_of_query rfl rfl
  logoff _ _ := sends_of_query rfl rfl
  removeUserToken _ _ := sends_of_query rfl rfl

section

variable {pg : Engine} {draw : Draw} {tArg : ByteString} {tReq req : Request} {s s' : Server}

theorem sends_add (pg : Engine) (draw : Draw) (tArg : ByteString) (tReq : Request) (s : Server) :
    Sends s (UserControllers.add pg draw tArg tReq s).2 := by
  obtain ⟨t, hsends, hsame | ⟨contactId, hadded⟩⟩ := sends_follows.add pg draw tArg tReq s
  · rw [hsame]
    exact hsends
  · rw [hadded]
    exact hsends.trans (sends_of_query rfl rfl)

theorem sends_remove (pg : Engine) (tArg : ByteString) (tReq : Request) (s : Server) :
    Sends s (UserControllers.remove pg tArg tReq s).2 := by
  obtain ⟨t, hsends, hsame | ⟨contactId, hremoved⟩⟩ := sends_follows.remove pg tArg tReq s
  · rw [hsame]
    exact hsends
  · rw [hremoved]
    exact hsends.trans (sends_of_query rfl rfl)

theorem sends_send (h : ChatControllers.send pg draw tArg tReq s = .ok (req, s')) :
    Sends s s' := by
  obtain ⟨t, hsends, rfl | ⟨chat, -, rfl⟩⟩ := sends_follows.send h
  · exact hsends
  · exact hsends.trans (sends_of_query rfl rfl)

theorem sends_onCalls {result : Exec (Request × AwaitingUsers)}
    (h : onCalls tReq s result = .ok (req, s')) : Sends s s' := by
  obtain ⟨answer, -, h⟩ := bind_eq_ok.mp h
  exact related_of_ok h (sends_of_query rfl rfl)

theorem sends_controllers {command : ServerCommand.Name} (hcommand : command ≠ .delivered)
    (h : controllers pg draw command tArg tReq s = .ok (req, s')) : Sends s s' := by
  cases command with
  | list => exact sends_follows.list h
  | create => exact sends_follows.create h
  | login => exact sends_follows.login h
  | search => exact sends_follows.search h
  | add => exact related_of_ok h (sends_add pg draw tArg tReq s)
  | remove => exact related_of_ok h (sends_remove pg tArg tReq s)
  | available => exact sends_follows.available h
  | exit => exact sends_follows.exit h
  | send => exact sends_send h
  | pending => exact sends_follows.getChats h
  | chat => exact sends_follows.getChats h
  | delivered => exact absurd rfl hcommand
  | connect => exact sends_onCalls h
  | accept => exact sends_onCalls h
  | hangup => exact sends_onCalls h
  | reject => exact sends_onCalls h
  | ping => exact sends_onCalls h
  | none => exact related_of_ok h (sends_refl s)

end

def lookedUp (pg : Engine) (db : Tables) : List ByteString → List ByteString
  | [] => []
  | id :: ids =>
    id :: if (searchUserChatBy pg db id).2.mEmpty then []
      else lookedUp pg (searchUserChatBy pg db id).1 ids

def lookup (id : ByteString) : SentQuery := ⟨.searchUserChatBy, searchChatText id⟩

theorem queries_findChats (pg : Engine) (s : Server) (ids : List ByteString) :
    (ChatControllers.findChats pg s ids).2.queries =
      s.queries ++ (lookedUp pg s.db ids).map lookup := by
  induction ids generalizing s with
  | nil => exact (List.append_nil _).symm
  | cons id ids ih =>
    have hqueries : (s.searchUserChatBy pg id).2.queries = s.queries ++ [lookup id] := rfl
    rw [ChatControllers.findChats_cons, lookedUp, ← ChatControllers.fst_searchUserChatBy,
      ← ChatControllers.db_searchUserChatBy]
    by_cases hempty : (s.searchUserChatBy pg id).1.mEmpty = true
    · rw [if_pos hempty, if_pos hempty]
      exact hqueries
    · rw [if_neg hempty, if_neg hempty]
      dsimp only
      rw [ih, hqueries, List.append_assoc, List.map_cons, List.singleton_append]

theorem sends_setAllDelivered (s : Server) (userChats : List UserChat) :
    Sends s (ChatControllers.setAllDelivered s userChats) := by
  induction userChats generalizing s with
  | nil => exact sends_refl s
  | cons chat userChats ih =>
    rw [ChatControllers.setAllDelivered_cons]
    refine Sends.trans ?_ (ih _)
    split
    · exact sends_refl s
    · exact sends_of_query rfl rfl

def sentQueries (pg : Engine) (draw : Draw) (raw : Message) (tReq : Request) (s : Server) :
    List SentQuery :=
  match route pg draw (raw.request tReq) s with
  | .ok (_, s') => s'.queries.drop s.queries.length
  | .error _ => []

/-- The ids that a valid `DELIVERED` of an authenticated user looks up are integers. -/
def NumberIds (pg : Engine) (raw : Message) (tReq : Request) (s : Server) : Prop :=
  tReq.mValid = true → raw.command = .delivered →
    (searchUserByToken s.db.toDatabase raw.word).mEmpty = false → raw.arguments ≠ [] →
      ∀ id ∈ lookedUp pg s.db (Search.splitOn [comma] raw.arguments), Sql.tokens id = [.number]

section

variable {pg : Engine} {draw : Draw} {raw : Message} {tReq : Request} {s : Server}

theorem sends_route {req : Request} {s' : Server}
    (hother : tReq.mValid = true → raw.command = .delivered →
      (searchUserByToken s.db.toDatabase raw.word).mEmpty = false → raw.arguments = [])
    (h : route pg draw (raw.request tReq) s = .ok (req, s')) : Sends s s' := by
  have hasked : Sends s (asked s raw.word) := sends_of_query rfl rfl
  cases hvalid : tReq.mValid with
  | false =>
    rw [route_invalid pg draw raw s hvalid] at h
    exact related_of_ok h (sends_refl s)
  | true =>
    cases hlogin : requireLogin raw.command with
    | false =>
      obtain ⟨token, arguments, hroute⟩ := route_open hvalid hlogin
      rw [hroute] at h
      have hcommand : raw.command ≠ .delivered := by
        intro hdelivered
        rw [hdelivered] at hlogin
        cases hlogin
      split at h
      · exact sends_controllers hcommand h
      · exact related_of_ok h (sends_refl s)
    | true =>
      by_cases hcommand : raw.command = .delivered
      · cases hstored : (searchUserByToken s.db.toDatabase raw.word).mEmpty with
        | false =>
          rw [route_delivered pg draw s hvalid hcommand hstored, hother hvalid hcommand hstored,
            ChatControllers.delivered, if_pos rfl] at h
          exact related_of_ok h hasked
        | true =>
          rw [route_login pg draw s hvalid hlogin, if_pos hstored] at h
          exact related_of_ok h hasked
      · rw [route_login pg draw s hvalid hlogin] at h
        split at h
        · exact related_of_ok h hasked
        · split at h
          · exact hasked.trans (sends_controllers hcommand h)
          · exact related_of_ok h hasked

theorem sentQueries_delivered (pg : Engine) (draw : Draw) (hvalid : tReq.mValid = true)
    (hcommand : raw.command = .delivered)
    (hstored : (searchUserByToken s.db.toDatabase raw.word).mEmpty = false)
    (hne : raw.arguments ≠ []) :
    ∃ rest, sentQueries pg draw raw tReq s =
        ⟨.searchUserByToken, searchTokenText raw.word⟩ ::
          ((lookedUp pg s.db (Search.splitOn [comma] raw.arguments)).map lookup ++ rest) ∧
      ∀ q ∈ rest, q.Fits := by
  have hroute := route_delivered pg draw s hvalid hcommand hstored
  rw [ChatControllers.delivered_eq pg (length_arguments_lt raw) hne] at hroute
  have hfound := queries_findChats pg (asked s raw.word) (Search.splitOn [comma] raw.arguments)
  have hasked : (asked s raw.word).queries =
      s.queries ++ [⟨.searchUserByToken, searchTokenText raw.word⟩] := rfl
  rw [hasked, List.append_assoc] at hfound
  split at hroute
  · refine ⟨[], ?_, by simp⟩
    rw [sentQueries, hroute]
    dsimp only
    rw [hfound, List.drop_left, List.append_nil]
    rfl
  · next userChats _ =>
    obtain ⟨rest, hrest, hfits⟩ := sends_setAllDelivered
      (ChatControllers.findChats pg (asked s raw.word) (Search.splitOn [comma] raw.arguments)).2
      userChats
    refine ⟨rest, ?_, hfits⟩
    rw [sentQueries, hroute]
    dsimp only
    rw [hrest, hfound, List.append_assoc, List.drop_left]
    rfl

theorem shaped_iff_numberIds (pg : Engine) (draw : Draw) (raw : Message) (tReq : Request)
    (s : Server) :
    (∀ q ∈ sentQueries pg draw raw tReq s, q.Shaped pg) ↔ NumberIds pg raw tReq s := by
  by_cases hids : tReq.mValid = true ∧ raw.command = .delivered ∧
      (searchUserByToken s.db.toDatabase raw.word).mEmpty = false ∧ raw.arguments ≠ []
  · obtain ⟨hvalid, hcommand, hstored, hne⟩ := hids
    obtain ⟨rest, hsent, hfits⟩ := sentQueries_delivered pg draw hvalid hcommand hstored hne
    rw [hsent]
    constructor
    · intro h _ _ _ _ id hid
      have hin : lookup id ∈ (⟨.searchUserByToken, searchTokenText raw.word⟩ : SentQuery) ::
          ((lookedUp pg s.db (Search.splitOn [comma] raw.arguments)).map lookup ++ rest) := by
        apply List.mem_cons_of_mem
        exact List.mem_append_left rest (List.mem_map_of_mem hid)
      exact (SentQuery.shaped_searchChat_iff pg id).mp (h (lookup id) hin)
    · intro h q hq
      have hnumbers := h hvalid hcommand hstored hne
      rcases List.mem_cons.mp hq with rfl | hq
      · have hfits : SentQuery.Fits ⟨.searchUserByToken, searchTokenText raw.word⟩ := rfl
        exact hfits.shaped pg
      · rcases List.mem_append.mp hq with hq | hq
        · obtain ⟨id, hid, rfl⟩ := List.mem_map.mp hq
          exact (SentQuery.shaped_searchChat_iff pg id).mpr (hnumbers id hid)
        · exact (hfits q hq).shaped pg
  · have hother : tReq.mValid = true → raw.command = .delivered →
        (searchUserByToken s.db.toDatabase raw.word).mEmpty = false → raw.arguments = [] := by
      intro hvalid hcommand hstored
      by_contra hne
      exact hids ⟨hvalid, hcommand, hstored, hne⟩
    apply iff_of_true
    · intro q hq
      rw [sentQueries] at hq
      split at hq
      · next req s' hroute =>
        obtain ⟨sent, hsent, hfits⟩ := sends_route hother hroute
        rw [hsent, List.drop_left] at hq
        exact (hfits q hq).shaped pg
      · exact absurd hq List.not_mem_nil
    · intro hvalid hcommand hstored hne
      exact absurd (hother hvalid hcommand hstored) hne

end

theorem isNumeral_of_lookedUp {pg : Engine} {db : Tables} {ids : List ByteString}
    (h : ChatControllers.Plain db.chats ids) : ∀ id ∈ lookedUp pg db ids, IsNumeral id := by
  induction ids with
  | nil => simp [lookedUp]
  | cons first ids ih =>
    obtain ⟨hnumeral, hrest⟩ := h
    intro id hid
    rw [lookedUp, ChatControllers.searchUserChatBy_numeral pg db hnumeral] at hid
    dsimp only at hid
    rcases List.mem_cons.mp hid with rfl | hid
    · exact hnumeral
    · split at hid
      · exact absurd hid List.not_mem_nil
      · next hempty => exact ih (hrest (Bool.eq_false_of_not_eq_true hempty)) id hid

theorem numberIds_of_plainIds {pg : Engine} {raw : Message} {tReq : Request} {s : Server}
    (h : PlainIds raw tReq s) : NumberIds pg raw tReq s := by
  intro hvalid hcommand hstored hne id hid
  obtain ⟨hne', hdigits⟩ := isNumeral_of_lookedUp (h hvalid hcommand hstored hne) id hid
  exact Sql.tokens_digits hdigits hne'

structure OneShape (pg : Engine) (first second : List SentQuery) : Prop where
  shaped : ∀ q ∈ first ++ second, q.Shaped pg
  same : ∀ p ∈ first, ∀ q ∈ second, p.method = q.method →
    Sql.tokens (p.query.text pg.quoting) = Sql.tokens (q.query.text pg.quoting)

theorem route_oneShape_iff (pg : Engine) (draw draw' : Draw) (raw raw' : Message)
    (tReq tReq' : Request) (s s' : Server) :
    OneShape pg (sentQueries pg draw raw tReq s) (sentQueries pg draw' raw' tReq' s') ↔
      NumberIds pg raw tReq s ∧ NumberIds pg raw' tReq' s' := by
  rw [← shaped_iff_numberIds pg draw, ← shaped_iff_numberIds pg draw']
  constructor
  · intro h
    constructor
    · intro q hq
      exact h.shaped q (List.mem_append_left _ hq)
    · intro q hq
      exact h.shaped q (List.mem_append_right _ hq)
  · rintro ⟨hfirst, hsecond⟩
    constructor
    · intro q hq
      rcases List.mem_append.mp hq with hq | hq
      · exact hfirst q hq
      · exact hsecond q hq
    · intro p hp q hq hmethod
      rw [hfirst p hp, hsecond q hq, hmethod]

def widerCondition : Message := ⟨str "DELIVERED abc 7 OR TRUE", by decide⟩

/-- The second id adds a condition to the query. -/
theorem route_changes_shape :
    deliveredMessage.command = widerCondition.command ∧
      ¬OneShape Engine.basic
        (sentQueries Engine.basic sampleDraw deliveredMessage johnRequest twoUsers)
        (sentQueries Engine.basic sampleDraw widerCondition johnRequest twoUsers) := by
  refine ⟨by decide +kernel, ?_⟩
  intro h
  have hsame := h.same
  revert hsame
  decide +kernel

end Router

end Skype
