import Skype.Job
import Skype.Library.Transition

/-!
# `Contacts`

The client keeps the contacts of the last reply to `LIST`. `updateContacts` replaces
them by those of the next reply and creates one job at most: the contacts are compared
in the order of the hash, and the first that differs decides.
-/

namespace Skype

open Library

/-- The order in which a range loop visits the entries of a `QHash`. -/
structure QHashOrder where
  order : List Details → List Details
  perm : ∀ entries, (order entries).Perm entries

namespace Contacts

/-- The locals of `pair_contact_details`; the members that no field assigns stay
indeterminate. -/
structure PairedFields where
  ID : Int32
  username : ByteString
  online : Option Bool
  awaiting : Option Bool

def pairField (details : PairedFields) (field : ByteString) : Exec PairedFields := do
  let (key, pair) ← StringUtils.splitFirst field (str ":")
  if key = str "id" then
    match stoi pair with
    | .ok ID => return { details with ID }
    | .error _ => return details
  else if key = str "username" then return { details with username := pair }
  else if key = str "online" then return { details with online := some (pair == str "true") }
  else if key = str "awaiting" then return { details with awaiting := some (pair == str "true") }
  else return details

/-- Inserting copies the details, which is undefined with a member that was never
assigned. -/
def pairContactDetails (mOnlineContacts : ContactMap) (tUser : ByteString) : Exec ContactMap := do
  let userFields ← StringUtils.split tUser (str ",")
  let details ← userFields.foldlM pairField ⟨0, [], none, none⟩
  if details.ID ≠ 0 then
    match details.online, details.awaiting with
    | some online, some awaiting =>
      return mOnlineContacts.insert ⟨details.username, details.ID, online, awaiting⟩
    | _, _ => .error .undefined
  else return mOnlineContacts

def dispContacts : Job := Job.new .DISP_CONTACTS

def awaitingJob (contact : Details) : Job :=
  { Job.new .AWAITING with mIntValue := contact.ID, mBoolValue := contact.awaiting }

def firstChange (oldContacts : ContactMap) : List Details → Option Job
  | [] => none
  | contact :: contacts =>
    match oldContacts.find? contact.ID with
    | none => some dispContacts
    | some old =>
      if old.online ≠ contact.online then some dispContacts
      else if old.awaiting ≠ contact.awaiting then some (awaitingJob contact)
      else firstChange oldContacts contacts

def changeJob (hash : QHashOrder) (oldContacts newContacts : ContactMap) : Option Job :=
  if oldContacts.entries.length ≠ newContacts.entries.length ∨ newContacts.entries = [] then
    some dispContacts
  else firstChange oldContacts (hash.order newContacts.entries)

def updateContacts (hash : QHashOrder) (mOnlineContacts : ContactMap) (tResponse : ByteString) :
    Exec (ContactMap × Option Job) := do
  let users ← StringUtils.split tResponse (str " ")
  let newContacts ← users.foldlM pairContactDetails Keyed.empty
  return (newContacts, changeJob hash mOnlineContacts newContacts)

end Contacts

end Skype
