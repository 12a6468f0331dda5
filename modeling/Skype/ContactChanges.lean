import Skype.Contacts

/-!
# Which changes of a call state become a job

A run over the replies to `LIST` keeps the jobs created so far and, beside them, the
call state of every contact: its flag in the last reply that had it together with the
reply before.
-/

namespace Skype.Contacts

open Library

def Unchanged (oldContacts : ContactMap) (contact : Details) : Prop :=
  ∃ old, oldContacts.find? contact.ID = some old ∧ old.online = contact.online ∧
    old.awaiting = contact.awaiting

/-- Of the contacts that the replies do not have in common, `contact` is the first in the
order of the hash, and only its call state differs. -/
structure FirstToChange (hash : QHashOrder) (oldContacts newContacts : ContactMap)
    (contact : Details) : Prop where
  length_eq : oldContacts.entries.length = newContacts.entries.length
  first : ∃ before after, hash.order newContacts.entries = before ++ contact :: after ∧
    ∀ c ∈ before, Unchanged oldContacts c
  awaiting : ∃ old, oldContacts.find? contact.ID = some old ∧ old.online = contact.online ∧
    old.awaiting ≠ contact.awaiting

theorem firstChange_cons {oldContacts : ContactMap} {contact : Details}
    (h : Unchanged oldContacts contact) (contacts : List Details) :
    firstChange oldContacts (contact :: contacts) = firstChange oldContacts contacts := by
  obtain ⟨old, hfind, honline, hawaiting⟩ := h
  simp [firstChange, hfind, honline, hawaiting]

theorem firstChange_append {oldContacts : ContactMap} {before : List Details}
    (h : ∀ c ∈ before, Unchanged oldContacts c) (contacts : List Details) :
    firstChange oldContacts (before ++ contacts) = firstChange oldContacts contacts := by
  induction before with
  | nil => rfl
  | cons c before ih =>
    rw [List.cons_append, firstChange_cons (h c List.mem_cons_self)]
    exact ih fun e he => h e (List.mem_cons_of_mem c he)

theorem awaitingJob_ne_dispContacts (contact : Details) : awaitingJob contact ≠ dispContacts := by
  intro h
  have hcommand := congrArg Job.mCommand h
  cases hcommand

theorem firstChange_eq_awaiting {oldContacts : ContactMap} {contacts : List Details} {job : Job}
    (h : firstChange oldContacts contacts = some job) :
    job = dispContacts ∨ ∃ contact before after, job = awaitingJob contact ∧
      contacts = before ++ contact :: after ∧ (∀ c ∈ before, Unchanged oldContacts c) ∧
      ∃ old, oldContacts.find? contact.ID = some old ∧ old.online = contact.online ∧
        old.awaiting ≠ contact.awaiting := by
  induction contacts with
  | nil => cases h
  | cons contact contacts ih =>
    rw [firstChange] at h
    cases hfind : oldContacts.find? contact.ID with
    | none =>
      rw [hfind] at h
      exact Or.inl (Option.some.inj h).symm
    | some old =>
      rw [hfind] at h
      dsimp only at h
      by_cases honline : old.online = contact.online
      · rw [if_neg (not_not.mpr honline)] at h
        by_cases hawaiting : old.awaiting = contact.awaiting
        · rw [if_neg (not_not.mpr hawaiting)] at h
          rcases ih h with hdisp | ⟨c, before, after, hjob, hsplit, hbefore, hchange⟩
          · exact Or.inl hdisp
          · refine Or.inr ⟨c, contact :: before, after, hjob, ?_, ?_, hchange⟩
            · rw [hsplit, List.cons_append]
            · intro e he
              rcases List.mem_cons.mp he with rfl | he
              · exact ⟨old, hfind, honline, hawaiting⟩
              · exact hbefore e he
        · rw [if_pos hawaiting] at h
          exact Or.inr ⟨contact, [], contacts, (Option.some.inj h).symm, rfl, by simp, old, hfind,
            honline, hawaiting⟩
      · rw [if_pos honline] at h
        exact Or.inl (Option.some.inj h).symm

section

variable {hash : QHashOrder} {oldContacts newContacts : ContactMap} {contact : Details} {job : Job}

theorem changeJob_cases (h : changeJob hash oldContacts newContacts = some job) :
    job = dispContacts ∨
      ∃ contact, job = awaitingJob contact ∧
        FirstToChange hash oldContacts newContacts contact := by
  rw [changeJob] at h
  split at h
  · exact Or.inl (Option.some.inj h).symm
  · next hsize =>
    rcases firstChange_eq_awaiting h with hdisp | ⟨c, before, after, hjob, hsplit, hbefore, hchange⟩
    · exact Or.inl hdisp
    · exact Or.inr ⟨c, hjob, not_not.mp (not_or.mp hsize).1, ⟨before, after, hsplit, hbefore⟩,
        hchange⟩

theorem updateContacts_job {tResponse : ByteString} {created : Option Job}
    (h : updateContacts hash oldContacts tResponse = .ok (newContacts, created)) :
    created = changeJob hash oldContacts newContacts := by
  obtain ⟨users, -, h⟩ := bind_eq_ok.mp h
  obtain ⟨contacts, -, h⟩ := bind_eq_ok.mp h
  obtain ⟨rfl, rfl⟩ := Prod.mk.inj (Except.ok.inj h)
  rfl

theorem FirstToChange.mem (h : FirstToChange hash oldContacts newContacts contact) :
    contact ∈ newContacts.entries := by
  obtain ⟨before, after, hsplit, -⟩ := h.first
  apply (hash.perm newContacts.entries).mem_iff.mp
  rw [hsplit]
  simp

theorem FirstToChange.find? (h : FirstToChange hash oldContacts newContacts contact) :
    newContacts.find? contact.ID = some contact :=
  (newContacts.mem_entries_iff contact).mp h.mem

theorem FirstToChange.changeJob_eq (h : FirstToChange hash oldContacts newContacts contact) :
    changeJob hash oldContacts newContacts = some (awaitingJob contact) := by
  obtain ⟨before, after, hsplit, hbefore⟩ := h.first
  obtain ⟨old, hfind, honline, hawaiting⟩ := h.awaiting
  have hnil : newContacts.entries ≠ [] := List.ne_nil_of_mem h.mem
  have hsize : ¬(oldContacts.entries.length ≠ newContacts.entries.length ∨
      newContacts.entries = []) := by
    simp [h.length_eq, hnil]
  rw [changeJob, if_neg hsize, hsplit, firstChange_append hbefore]
  simp [firstChange, hfind, honline, hawaiting]

end

structure Poll where
  contacts : ContactMap
  jobs : List Job
  callState : Int32 → Bool

def Poll.start : Poll := ⟨Keyed.empty, [], fun _ => false⟩

def settle (oldContacts newContacts : ContactMap) (callState : Int32 → Bool) (id : Int32) : Bool :=
  match oldContacts.find? id, newContacts.find? id with
  | some _, some contact => contact.awaiting
  | _, _ => callState id

def Poll.step (hash : QHashOrder) (s : Poll) (tResponse : ByteString) : Exec Poll := do
  let (contacts, job) ← updateContacts hash s.contacts tResponse
  return ⟨contacts, s.jobs ++ job.toList, settle s.contacts contacts s.callState⟩

def lastAwaiting (jobs : List Job) (id : Int32) : Bool :=
  jobs.foldl (fun flag job =>
    if job.mCommand = .AWAITING ∧ job.mIntValue = id then job.mBoolValue else flag) false

/-- Every contact of the last two replies was last announced with its flag. -/
def Told (a : Poll) (_ : ByteString) (b : Poll) : Prop :=
  ∀ id old contact, a.contacts.find? id = some old → b.contacts.find? id = some contact →
    lastAwaiting b.jobs id = contact.awaiting

def ChangesFirst (hash : QHashOrder) (a : Poll) (_ : ByteString) (b : Poll) : Prop :=
  ∀ id, b.callState id ≠ a.callState id →
    ∃ contact, contact.ID = id ∧ FirstToChange hash a.contacts b.contacts contact

def Agrees (s : Poll) : Prop := ∀ id, lastAwaiting s.jobs id = s.callState id

theorem lastAwaiting_dispContacts (jobs : List Job) (id : Int32) :
    lastAwaiting (jobs ++ [dispContacts]) id = lastAwaiting jobs id := by
  simp [lastAwaiting, dispContacts, Job.new]

theorem lastAwaiting_awaitingJob (jobs : List Job) (contact : Details) (id : Int32) :
    lastAwaiting (jobs ++ [awaitingJob contact]) id =
      if contact.ID = id then contact.awaiting else lastAwaiting jobs id := by
  simp [lastAwaiting, awaitingJob, Job.new]

section

variable {hash : QHashOrder} {a b : Poll} {tResponse : ByteString}

theorem step_cases (h : a.step hash tResponse = .ok b) :
    b.callState = settle a.contacts b.contacts a.callState ∧
      ((∀ id, lastAwaiting b.jobs id = lastAwaiting a.jobs id) ∧
          (∀ contact, ¬FirstToChange hash a.contacts b.contacts contact) ∨
        ∃ contact, FirstToChange hash a.contacts b.contacts contact ∧
          (∀ c, FirstToChange hash a.contacts b.contacts c → c.ID = contact.ID) ∧
          ∀ id, lastAwaiting b.jobs id =
            if contact.ID = id then contact.awaiting else lastAwaiting a.jobs id) := by
  obtain ⟨⟨contacts, job⟩, hupdate, hresult⟩ := bind_eq_ok.mp h
  obtain rfl := updateContacts_job hupdate
  obtain rfl := Except.ok.inj hresult
  refine ⟨rfl, ?_⟩
  cases hjob : changeJob hash a.contacts contacts with
  | none =>
    left
    refine ⟨?_, ?_⟩
    · intro id
      simp
    · intro contact hfirst
      rw [hfirst.changeJob_eq] at hjob
      cases hjob
  | some job =>
    rcases changeJob_cases hjob with rfl | ⟨contact, rfl, hfirst⟩
    · left
      refine ⟨lastAwaiting_dispContacts a.jobs, ?_⟩
      intro contact hfirst
      rw [hfirst.changeJob_eq] at hjob
      exact awaitingJob_ne_dispContacts contact (Option.some.inj hjob)
    · right
      refine ⟨contact, hfirst, ?_, lastAwaiting_awaitingJob a.jobs contact⟩
      intro c hc
      rw [hc.changeJob_eq] at hjob
      exact congrArg Job.mIntValue (Option.some.inj hjob)

theorem settle_of_both {oldContacts newContacts : ContactMap} {id : Int32} {old contact : Details}
    (hold : oldContacts.find? id = some old) (hnew : newContacts.find? id = some contact)
    (callState : Int32 → Bool) :
    settle oldContacts newContacts callState id = contact.awaiting := by
  simp [settle, hold, hnew]

theorem told_iff_agrees (ha : Agrees a) (h : a.step hash tResponse = .ok b) :
    Told a tResponse b ↔ Agrees b := by
  obtain ⟨hstate, hjobs⟩ := step_cases h
  constructor
  · intro htold id
    by_cases hboth : ∃ old contact, a.contacts.find? id = some old ∧
        b.contacts.find? id = some contact
    · obtain ⟨old, contact, hold, hnew⟩ := hboth
      rw [htold id old contact hold hnew, hstate, settle_of_both hold hnew]
    · -- A contact that one of the replies does not have is not announced.
      have hkept : b.callState id = a.callState id := by
        rw [hstate, settle]
        split
        · next old contact hold hnew => exact absurd ⟨old, contact, hold, hnew⟩ hboth
        · rfl
      rw [hkept, ← ha id]
      rcases hjobs with ⟨hsame, -⟩ | ⟨contact, hfirst, -, hlast⟩
      · exact hsame id
      · rw [hlast id]
        apply if_neg
        rintro rfl
        obtain ⟨old, hold, -⟩ := hfirst.awaiting
        exact hboth ⟨old, contact, hold, hfirst.find?⟩
  · intro hb id old contact hold hnew
    rw [hb id, hstate, settle_of_both hold hnew]

theorem agrees_iff_changesFirst (ha : Agrees a) (h : a.step hash tResponse = .ok b) :
    Agrees b ↔ ChangesFirst hash a tResponse b := by
  obtain ⟨hstate, hjobs⟩ := step_cases h
  constructor
  · intro hb id hchange
    rw [← hb id, ← ha id] at hchange
    rcases hjobs with ⟨hsame, -⟩ | ⟨contact, hfirst, -, hlast⟩
    · exact absurd (hsame id) hchange
    · refine ⟨contact, ?_, hfirst⟩
      by_contra hne
      rw [hlast id, if_neg hne] at hchange
      exact hchange rfl
  · intro hchanges id
    rcases hjobs with ⟨hsame, hnone⟩ | ⟨contact, hfirst, honly, hlast⟩
    · rw [hsame id, ha id]
      by_contra hne
      obtain ⟨contact, -, hfirst⟩ := hchanges id (Ne.symm hne)
      exact hnone contact hfirst
    · rw [hlast id]
      by_cases hid : contact.ID = id
      · obtain ⟨old, hold, -⟩ := hfirst.awaiting
        rw [if_pos hid, hstate, ← hid, settle_of_both hold hfirst.find?]
      · rw [if_neg hid, ha id]
        by_contra hne
        obtain ⟨c, hc, hcfirst⟩ := hchanges id (Ne.symm hne)
        exact hid ((honly c hcfirst).symm.trans hc)

end

theorem poll_told_iff (hash : QHashOrder) (replies : List ByteString) :
    Transition.AlwaysM (Poll.step hash) Told Poll.start replies ↔
      Transition.AlwaysM (Poll.step hash) (ChangesFirst hash) Poll.start replies := by
  have hstart : Agrees Poll.start := fun _ => rfl
  apply Transition.alwaysM_congr_of_invariant hstart
  · intro a tResponse b ha hstep
    rw [told_iff_agrees ha hstep, agrees_iff_changesFirst ha hstep]
  · intro a tResponse b ha hstep htold
    exact (told_iff_agrees ha hstep).mp htold

def insertionOrder : QHashOrder := ⟨id, fun _ => .refl _⟩

def listReply (mario shakira : String) : ByteString :=
  str "201 id:2,username:mario,online:true,awaiting:" ++ str mario ++
    str " id:3,username:shakira,online:true,awaiting:" ++ str shakira

/-- Two contacts call between two polls; the second of them is never announced. -/
theorem poll_misses_caller :
    ¬Transition.AlwaysM (Poll.step insertionOrder) Told Poll.start
      [listReply "false" "false", listReply "true" "true"] := by
  intro h
  have htold := h [listReply "false" "false"] (listReply "true" "true") [] _ _ rfl rfl rfl
  have hshakira := htold 3 _ _ rfl rfl
  cases hshakira

end Skype.Contacts
