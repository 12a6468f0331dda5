import Skype.Job

/-!
# `CentralGui`

The jobs of the main window: the contacts and chats it shows, the windows of incoming
calls and the timer that the first loaded chats start. The lists `appended` and `rung`
record what `load_chat` appended and what `job_awaiting` was given so far.
-/

namespace Skype

open Library

namespace UserChat

def createdAtDate (chat : UserChat) : Exec ByteString := do
  let (date, _) ← StringUtils.splitFirst chat.mCreatedAt (str " ")
  return date

def createdAtTime (chat : UserChat) : Exec ByteString := do
  let (_, timeLong) ← StringUtils.splitFirst chat.mCreatedAt (str " ")
  let (hours, timeRest) ← StringUtils.splitFirst timeLong (str ":")
  let (minutes, _) ← StringUtils.splitFirst timeRest (str ":")
  return hours ++ str ":" ++ minutes

end UserChat

abbrev ContactList := Keyed fun entry : Int32 × Details => entry.1

structure CentralGui where
  mUser : ByteString
  mUserId : Int32
  mContactList : ContactList
  mContactChat : Int32 → List ByteString
  firstDisplay : Bool
  timer : Bool
  callersTable : List Int32
  appended : List UserChat
  rung : List (Int32 × Bool)

namespace CentralGui

structure Calendar where
  today : ByteString
  yesterday : ByteString

def new (mUser : ByteString) (mUserId : Int32) : CentralGui :=
  ⟨mUser, mUserId, Keyed.empty, fun _ => [], true, false, [], [], []⟩

/-- `m_contact_list[id].username`, which inserts default details for an unknown id. -/
def contactUsername (gui : CentralGui) (id : Int32) : ByteString × ContactList :=
  match gui.mContactList.find? id with
  | some entry => (entry.2.username, gui.mContactList)
  | none => ([], gui.mContactList.insert (id, ⟨[], 0, false, false⟩))

def chatTime (calendar : Calendar) (chat : UserChat) : Exec ByteString := do
  let date ← chat.createdAtDate
  let time ← chat.createdAtTime
  if calendar.today = date then return str "Today " ++ time
  else if calendar.yesterday = date then return str "Yesterday " ++ time
  else return date ++ str " " ++ time

def appendChat (gui : CentralGui) (contact : Int32) (name entry : ByteString) (chat : UserChat) :
    CentralGui :=
  { gui with
    mContactChat := Function.update gui.mContactChat contact
      (gui.mContactChat contact ++ [name, entry])
    appended := gui.appended ++ [chat] }

def deliveredJob (chat : UserChat) : Job :=
  { Job.new .DELIVERED with mArgument := intToString chat.mId }

/-- One round of the loop of `load_chat` with the job it creates; the notification that
pops up beside it is not modelled. -/
def loadOne (calendar : Calendar) (gui : CentralGui) (chat : UserChat) :
    Exec (CentralGui × List Job) := do
  let time ← chatTime calendar chat
  let entry := time ++ str "\n" ++ (chat.mText ++ str "\n")
  let gui :=
    if chat.mSender = gui.mUserId then
      appendChat gui chat.mRecipient gui.mUser entry chat
    else
      let (username, mContactList) := gui.contactUsername chat.mSender
      appendChat { gui with mContactList } chat.mSender username entry chat
  return (gui, if chat.mDelivered = false then [deliveredJob chat] else [])

def loadChat (calendar : Calendar) : CentralGui → List UserChat → Exec (CentralGui × List Job)
  | gui, [] => .ok (gui, [])
  | gui, chat :: chats => do
    let (gui, created) ← loadOne calendar gui chat
    let (gui, rest) ← loadChat calendar gui chats
    return (gui, created ++ rest)

def jobDispContact (gui : CentralGui) (tJob : Job) : CentralGui × List Job :=
  let mContactList := tJob.mContactList.foldl
    (fun contacts contact => contacts.insert (contact.ID, contact)) gui.mContactList
  ({ gui with mContactList, firstDisplay := false },
    if gui.firstDisplay then [Job.new .CHAT] else [])

/-- Every response to `CHAT` emits `ready_signal`, which starts the timer. -/
def jobLoadChat (calendar : Calendar) (gui : CentralGui) (tJob : Job) :
    Exec (CentralGui × List Job) := do
  let (gui, jobs) ←
    if tJob.mChats ≠ [] then loadChat calendar gui tJob.mChats else .ok (gui, [])
  return ({ gui with timer := true }, jobs)

def jobLoadPending (calendar : Calendar) (gui : CentralGui) (tJob : Job) :
    Exec (CentralGui × List Job) :=
  if tJob.mValid = false then .ok (gui, [])
  else if tJob.mChats = [] ∨ gui.mContactList.entries = [] then .ok (gui, [])
  else loadChat calendar gui tJob.mChats

/-- Without a window the entry of `callers_table` is a null pointer. -/
def jobAwaiting (gui : CentralGui) (tJob : Job) : Exec CentralGui :=
  let rung := gui.rung ++ [(tJob.mIntValue, tJob.mBoolValue)]
  if tJob.mBoolValue = false then
    if tJob.mIntValue ∈ gui.callersTable then
      .ok { gui with callersTable := gui.callersTable.filter (· ≠ tJob.mIntValue), rung }
    else .error .undefined
  else
    let (_, mContactList) := gui.contactUsername tJob.mIntValue
    .ok { gui with
      mContactList
      callersTable := gui.callersTable.filter (· ≠ tJob.mIntValue) ++ [tJob.mIntValue]
      rung }

section

variable {calendar : Calendar} {gui gui' : CentralGui} {jobs : List Job}

structure Loaded (gui : CentralGui) (chats : List UserChat) (gui' : CentralGui)
    (jobs : List Job) : Prop where
  appended : gui'.appended = gui.appended ++ chats
  mUserId : gui'.mUserId = gui.mUserId
  firstDisplay : gui'.firstDisplay = gui.firstDisplay
  timer : gui'.timer = gui.timer
  callersTable : gui'.callersTable = gui.callersTable
  rung : gui'.rung = gui.rung
  jobs : jobs = (chats.filter fun chat => chat.mDelivered = false).map deliveredJob

theorem loaded_nil (gui : CentralGui) : Loaded gui [] gui [] :=
  ⟨by simp, rfl, rfl, rfl, rfl, rfl, rfl⟩

theorem loaded_loadOne {chat : UserChat} (h : loadOne calendar gui chat = .ok (gui', jobs)) :
    Loaded gui [chat] gui' jobs := by
  obtain ⟨time, -, hresult⟩ := bind_eq_ok.mp h
  obtain ⟨hgui, hjobs⟩ := Prod.mk.inj (Except.ok.inj hresult)
  have hone : jobs = ([chat].filter fun c => c.mDelivered = false).map deliveredJob := by
    rw [← hjobs]
    by_cases hdelivered : chat.mDelivered = false
    · simp [hdelivered]
    · simp [hdelivered]
  by_cases hown : chat.mSender = gui.mUserId
  · rw [if_pos hown] at hgui
    subst hgui
    exact ⟨rfl, rfl, rfl, rfl, rfl, rfl, hone⟩
  · rw [if_neg hown] at hgui
    subst hgui
    exact ⟨rfl, rfl, rfl, rfl, rfl, rfl, hone⟩

theorem loaded_loadChat {chats : List UserChat}
    (h : loadChat calendar gui chats = .ok (gui', jobs)) : Loaded gui chats gui' jobs := by
  induction chats generalizing gui jobs with
  | nil =>
    obtain ⟨rfl, rfl⟩ := Prod.mk.inj (Except.ok.inj h)
    exact loaded_nil gui
  | cons chat chats ih =>
    obtain ⟨⟨next, created⟩, hone, h⟩ := bind_eq_ok.mp h
    obtain ⟨⟨last, rest⟩, hrest, hresult⟩ := bind_eq_ok.mp h
    obtain ⟨rfl, rfl⟩ := Prod.mk.inj (Except.ok.inj hresult)
    have hhead := loaded_loadOne hone
    have htail := ih hrest
    refine ⟨?_, htail.mUserId.trans hhead.mUserId, htail.firstDisplay.trans hhead.firstDisplay,
      htail.timer.trans hhead.timer, htail.callersTable.trans hhead.callersTable,
      htail.rung.trans hhead.rung, ?_⟩
    · rw [htail.appended, hhead.appended, List.append_assoc, List.singleton_append]
    · rw [hhead.jobs, htail.jobs, ← List.map_append, ← List.filter_append,
        List.singleton_append]

end

end CentralGui

end Skype
