import Skype.TableIntegrity
import Skype.WireFormat

/-!
# `TokenGenerator` and the life of a session

A session is a row of `tokens`. Its token is drawn by the generator and can stand in a
request as it is; the row stays until an `EXIT` or a lost connection ends the session of
its user.
-/

namespace Skype

open Library Postgres Router Sessions OneSession
open Library.Transition (AlwaysM)

namespace TokenGenerator

def charset : ByteString :=
  str "0123456789ABCDEFGHIJKLMNOPQRSTUVWXYZabcdefghijklmnopqrstuvwxyz"

/-- `rand() % max_index`, where `max_index` is the index of the last character. -/
def randomChar (rand : ℕ) : UInt8 := charset.getD (rand % (charset.length - 1)) 0

def generate (length : ℕ) (rand : ℕ → ℕ) : ByteString :=
  (List.range length).map fun i => randomChar (rand i)

def drawn : ByteString := charset.dropLast

theorem randomChar_mem (rand : ℕ) : randomChar rand ∈ drawn := by
  have hlt : rand % (charset.length - 1) < charset.dropLast.length := by
    rw [List.length_dropLast]
    exact Nat.mod_lt _ (by decide)
  have hchar : randomChar rand = charset.dropLast[rand % (charset.length - 1)] := by
    rw [List.getElem_dropLast, randomChar, List.getD_eq_getElem]
  rw [hchar]
  exact List.getElem_mem hlt

theorem exists_randomChar {b : UInt8} (h : b ∈ drawn) : ∃ rand, randomChar rand = b := by
  obtain ⟨i, hi, hb⟩ := List.getElem_of_mem h
  have hlt : i < charset.length - 1 := by
    rw [← List.length_dropLast]
    exact hi
  refine ⟨i, ?_⟩
  rw [randomChar, Nat.mod_eq_of_lt hlt, ← hb, List.getD_eq_getElem _ _ (by omega)]
  exact (List.getElem_dropLast hi).symm

theorem exists_generate_iff (length : ℕ) (token : ByteString) :
    (∃ rand, generate length rand = token) ↔ token.length = length ∧ ∀ b ∈ token, b ∈ drawn := by
  constructor
  · rintro ⟨rand, rfl⟩
    refine ⟨by simp [generate], ?_⟩
    intro b hb
    obtain ⟨i, -, rfl⟩ := List.mem_map.mp hb
    exact randomChar_mem (rand i)
  · rintro ⟨rfl, hdrawn⟩
    choose! pick hpick using fun b (hb : b ∈ drawn) => exists_randomChar hb
    refine ⟨fun i => pick (token.getD i 0), ?_⟩
    apply List.ext_getElem (by simp [generate])
    intro i hi hi'
    simp only [generate, List.getElem_map, List.getElem_range]
    rw [List.getD_eq_getElem _ _ hi']
    exact hpick _ (hdrawn _ (List.getElem_mem hi'))

theorem notMem_of_drawn {token : ByteString} {b : UInt8} (h : ∀ b ∈ token, b ∈ drawn)
    (hb : b ∉ drawn) : b ∉ token := fun hmem => hb (h b hmem)

end TokenGenerator

namespace UserControllers

def mTokenLength : ℕ := 38

end UserControllers

namespace SessionTokens

open TableIntegrity TokenGenerator UserControllers

def Generated : Event → Prop
  | .request draw _ _ => ∃ rand, draw.token = generate mTokenLength rand
  | .disconnect _ => True

structure Token (token : ByteString) : Prop where
  length : token.length = mTokenLength
  drawn : ∀ b ∈ token, b ∈ drawn
  word : ∀ (command : ServerCommand.Name) (arguments : ByteString) (raw : Message)
    (tReq : Request), command ≠ .none → requireLogin command = true →
      raw.text = ServerCommand.toString command ++ space :: (token ++ space :: arguments) →
        parse (raw.request tReq) = .ok (command, token, arguments)

section

variable {pg : Engine} {draw : Draw} {s s' : Server} {event : Event}

theorem token_generate (rand : ℕ → ℕ) : Token (generate mTokenLength rand) := by
  obtain ⟨hlength, hdrawn⟩ := (exists_generate_iff mTokenLength _).mp ⟨rand, rfl⟩
  refine ⟨hlength, hdrawn, ?_⟩
  intro command arguments raw tReq hlisted hlogin htext
  have hspace := notMem_of_drawn (b := space) hdrawn (by decide)
  exact WireFormat.parse_formats tReq (htext ▸ .argument arguments hlisted hlogin hspace)

def Generates (db : Tables) : Prop :=
  ∀ row ∈ db.tokens, ∃ token, row.token = some token ∧ Token token

theorem Generates.write {db db' : Tables} (h : Generates db) (htoken : Token draw.token)
    (hwrite : Write pg draw db db') : Generates db' := by
  cases hwrite with
  | addUser address hname hword hpassword =>
    rw [addUser]
    split
    · exact h
    · exact h
  | addUserToken hstored =>
    rw [addUserToken]
    split
    · intro row hrow
      rcases List.mem_append.mp hrow with hold | hself
      · exact h row hold
      · rw [List.mem_singleton.mp hself]
        exact ⟨draw.token, rfl, htoken⟩
    · exact h
  | setPresence userId online address => exact h
  | removeUserToken userId => exact fun row hrow => h row (List.mem_filter.mp hrow).1
  | addUserContact => exact h
  | removeUserContact userId contactId => exact h
  | addUserChat hsender hrecipient hunread =>
    rw [addUserChat]
    split
    · exact h
    · exact h
  | setUserChatToDelivered chatId => exact h

theorem exists_draws_token (hgenerated : Generated event) :
    ∃ draw, Draws draw event ∧ Token draw.token := by
  cases event with
  | request draw raw tReq =>
    obtain ⟨rand, hrand⟩ := hgenerated
    exact ⟨draw, rfl, hrand ▸ token_generate rand⟩
  | disconnect tReq =>
    exact ⟨{ sampleDraw with token := generate mTokenLength id }, trivial, token_generate id⟩

/-- Where all tokens are drawn by the generator, every session of the run can be used: its
token has the length and the characters of the generator, one word of a request. -/
theorem generates_always (pg : Engine) (s : Server) (events : List Event)
    (hinit : Generates s.db) (hgenerated : ∀ event ∈ events, Generated event)
    (hplain : AlwaysM (step pg) (fun a event _ => PlainStep a event) s events) :
    AlwaysM (step pg) (fun _ _ b => Generates b.db) s events := by
  have hall : AlwaysM (step pg) (fun _ event _ => Generated event) s events :=
    Library.Transition.alwaysM_of_forall fun event hevent _ _ => hgenerated event hevent
  have hnext : ∀ a event b, Generates a.db → Generated event ∧ PlainStep a event →
      step pg a event = .ok b → Generates b.db := by
    intro a event b ha hguard hstep
    obtain ⟨draw, hdraws, htoken⟩ := exists_draws_token hguard.1
    exact inv_of_writes (fun h hwrite => h.write htoken hwrite) ha
      (writes_step hdraws hguard.2 hstep)
  exact Library.Transition.alwaysM_of_invariant hinit
    (Library.Transition.alwaysM_and.mpr ⟨hall, hplain⟩) hnext

theorem generates_johnLogin :
    AlwaysM (step Engine.basic) (fun _ _ b => Generates b.db) nobodyOnline
      [johnLogin (generate mTokenLength id), .disconnect { johnRequest with mValid := false }] := by
  apply generates_always Engine.basic nobodyOnline
  · exact fun row hrow => absurd hrow List.not_mem_nil
  · intro event hevent
    simp only [List.mem_cons, List.not_mem_nil, or_false] at hevent
    rcases hevent with rfl | rfl
    · exact ⟨id, rfl⟩
    · trivial
  · decide +kernel

def ended (pg : Engine) (s : Server) : Event → User
  | .request _ raw tReq =>
    if tReq.mValid = true ∧ raw.command = .exit then
      leaver pg raw.body tReq.mAddress s.db.toDatabase
    else User.empty
  | .disconnect tReq =>
    if tReq.mValid = false ∧ 0 ≤ tReq.mSocket then
      leaver pg tReq.mToken tReq.mAddress s.db.toDatabase
    else User.empty

def Ends (pg : Engine) (userId : ℤ) (s : Server) (event : Event) : Prop :=
  (ended pg s event).mEmpty = false ∧ (ended pg s event).mId.toInt = userId

instance (pg : Engine) (userId : ℤ) (s : Server) (event : Event) :
    Decidable (Ends pg userId s event) := inferInstanceAs (Decidable (_ ∧ _))

theorem mem_tokens_exited {token address : ByteString} {db : Tables} {row : TokenRow}
    (hrow : row ∈ db.tokens) : row ∈ (exited pg token address db).tokens ↔
      ¬((leaver pg token address db.toDatabase).mEmpty = false ∧
        (leaver pg token address db.toDatabase).mId.toInt = row.userId) := by
  unfold exited
  dsimp only
  by_cases hempty : (leaver pg token address db.toDatabase).mEmpty = true
  · rw [if_pos hempty]
    simp [hrow, hempty]
  · rw [if_neg hempty]
    have hkept : row ∈ (removeUserToken (logoff db (leaver pg token address db.toDatabase).mId)
        (leaver pg token address db.toDatabase).mId).tokens ↔
          row ∈ db.tokens ∧ row.userId ≠ (leaver pg token address db.toDatabase).mId.toInt := by
      rw [removeUserToken, List.mem_filter, decide_eq_true_eq]
      rfl
    rw [hkept, Bool.eq_false_of_not_eq_true hempty]
    simp [hrow, eq_comm]

theorem tokens_created (tArg address : ByteString) (db : Tables) :
    (created pg draw tArg address db).tokens = db.tokens := by
  unfold created
  dsimp only
  split
  · rfl
  · rw [addUser]
    split
    · rfl
    · rfl

theorem mem_tokens_loggedIn {tArg address : ByteString} {db : Tables} {row : TokenRow}
    (hrow : row ∈ db.tokens) : row ∈ (loggedIn pg draw tArg address db).tokens := by
  unfold loggedIn
  split
  · exact hrow
  · next user hauth =>
    have htokens : ∀ t : Tables, ∀ other : User, (updateUser pg t other).2.tokens = t.tokens := by
      intro t other
      rw [updateUser]
      split
      · rfl
      · rfl
    rw [htokens, addUserToken]
    split
    · exact List.mem_append_left _ hrow
    · exact hrow

theorem mem_tokens_step_iff {row : TokenRow} (hrow : row ∈ s.db.tokens)
    (hplain : PlainStep s event) (hstep : step pg s event = .ok s') :
    row ∈ s'.db.tokens ↔ ¬Ends pg row.userId s event := by
  cases event with
  | disconnect tReq =>
    rw [disconnect_db hstep, Ends, ended]
    by_cases hfailed : tReq.mValid = false ∧ 0 ≤ tReq.mSocket
    · rw [if_pos hfailed, if_pos hfailed]
      exact mem_tokens_exited hrow
    · rw [if_neg hfailed, if_neg hfailed]
      exact iff_of_true hrow fun hends => absurd hends.1 (by decide)
  | request draw raw tReq =>
    obtain ⟨req, hroute⟩ := step_request hstep
    rw [(route_sessions hplain hroute).2, Ends, ended, written]
    by_cases hvalid : tReq.mValid = false
    · have hkeeps : ¬(tReq.mValid = true ∧ raw.command = .exit) := by
        rw [hvalid]
        simp
      rw [if_pos hvalid, if_neg hkeeps]
      exact iff_of_true hrow fun hends => absurd hends.1 (by decide)
    · have htrue := eq_true_of_ne_false hvalid
      rw [if_neg hvalid]
      by_cases hexit : raw.command = .exit
      · rw [if_pos ⟨htrue, hexit⟩, hexit]
        exact mem_tokens_exited hrow
      · have hkeeps : ¬(tReq.mValid = true ∧ raw.command = .exit) := fun h => hexit h.2
        rw [if_neg hkeeps]
        refine iff_of_true ?_ fun hends => absurd hends.1 (by decide)
        split
        · rw [tokens_created]
          exact hrow
        · exact mem_tokens_loggedIn hrow
        · next hcommand => exact absurd hcommand hexit
        · exact hrow

end

/-- Where `DELIVERED` looks up numerals, a session lasts exactly until an `EXIT` or a lost
connection whose user, found by the token or else by the address, is its user. -/
theorem session_lasts_iff (pg : Engine) (s : Server) (events : List Event) (row : TokenRow)
    (hrow : row ∈ s.db.tokens)
    (hplain : AlwaysM (step pg) (fun a event _ => PlainStep a event) s events) :
    AlwaysM (step pg) (fun _ _ b => row ∈ b.db.tokens) s events ↔
      AlwaysM (step pg) (fun a event _ => ¬Ends pg row.userId a event) s events := by
  have hagree : ∀ a event b, row ∈ a.db.tokens → PlainStep a event → step pg a event = .ok b →
      (row ∈ b.db.tokens ↔ ¬Ends pg row.userId a event) :=
    fun a event b ha hevent hstep => mem_tokens_step_iff ha hevent hstep
  exact Library.Transition.alwaysM_congr_of_guard (s := s) hrow hplain hagree
    fun a event b ha hevent hstep hb => hb

theorem session_lasts_busyDay :
    AlwaysM (step Engine.basic) (fun _ _ b => ⟨2, some (str "def")⟩ ∈ b.db.tokens) twoUsers
      busyDay :=
  (session_lasts_iff Engine.basic twoUsers busyDay ⟨2, some (str "def")⟩ (by decide)
    (by decide +kernel)).mpr (by decide +kernel)

end SessionTokens

end Skype
