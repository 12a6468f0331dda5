import Skype.CentralGui
import Skype.ContactChanges

/-!
# `JobBus`

The two threads of the client and the queues between them. The job thread takes the
jobs in order and talks to the server; the thread of the windows takes the responses
and creates further jobs, as does the timer. A step of the system is one step of one
of them, or something that happens at the server in between.
-/

namespace Skype

open Library Contacts

namespace Call

/-- `awaiting` marks a call that ended, or a caller that is not in the list yet. -/
def awaiting (mCallers : List Int32) (tJob : Job) : List Int32 × Job :=
  if tJob.mBoolValue = false then (mCallers.erase tJob.mIntValue, { tJob with mValid := true })
  else if tJob.mIntValue ∈ mCallers then (mCallers, { tJob with mValid := false })
  else (mCallers ++ [tJob.mIntValue], { tJob with mValid := true })

end Call

structure JobBus where
  mJobQ : List Job
  mResQ : List Job
  mOnlineContacts : ContactMap
  mCallers : List Int32
  gui : CentralGui
  server : List UserChat

namespace JobBus

/-- What does not change while the client runs. -/
structure Setting where
  hash : QHashOrder
  calendar : CentralGui.Calendar
  user : Int32

def chatReply (user : Int32) (server : List UserChat) : List UserChat :=
  server.filter fun chat => chat.mRecipient = user ∨ chat.mSender = user

def pendingReply (user : Int32) (server : List UserChat) : List UserChat :=
  server.filter fun chat => chat.mRecipient = user ∧ chat.mDelivered = false

def markDelivered (id : ByteString) (server : List UserChat) : List UserChat :=
  server.map fun chat =>
    if intToString chat.mId = id then { chat with mDelivered := true } else chat

/-- The method of `m_JobBus_map`. `reply` is `none` when the server does not answer; of
an answer only the text of the one to `LIST` is not determined by the server's chats. -/
def dispatch (setting : Setting) (bus : JobBus) (job : Job) (reply : Option ByteString) :
    Exec (JobBus × Job) :=
  match job.mCommand with
  | .LIST =>
    match reply with
    | none => .ok (bus, { job with mValid := false, mCommand := .DISCARD })
    | some tResponse => do
      let (mOnlineContacts, created) ← updateContacts setting.hash bus.mOnlineContacts tResponse
      return ({ bus with mOnlineContacts, mJobQ := bus.mJobQ ++ created.toList },
        { job with mValid := true, mCommand := .DISCARD })
  | .DISP_CONTACTS =>
    let mContactList := bus.mOnlineContacts.entries
    .ok (bus, { job with mContactList, mValid := !mContactList.isEmpty })
  | .CHAT =>
    let mChats := if reply.isSome then chatReply setting.user bus.server else []
    .ok (bus, { job with mChats, mValid := true })
  | .PENDING =>
    let mChats := if reply.isSome then pendingReply setting.user bus.server else []
    if mChats ≠ [] then .ok (bus, { job with mChats, mValid := true })
    else .ok (bus, { job with mChats, mValid := false, mCommand := .DISCARD })
  | .DELIVERED =>
    if reply.isSome then
      .ok ({ bus with server := markDelivered job.mArgument bus.server },
        { job with mValid := true })
    else .ok (bus, { job with mValid := false })
  | .AWAITING =>
    let (mCallers, job) := Call.awaiting bus.mCallers job
    .ok ({ bus with mCallers }, job)
  | .DISCARD => .error .undefined

def handle (setting : Setting) (bus : JobBus) (reply : Option ByteString) : Exec JobBus :=
  match bus.mJobQ with
  | [] => .error .waiting
  | job :: mJobQ => do
    let (bus, job) ← dispatch setting { bus with mJobQ } job reply
    if job.mCommand = .AWAITING ∧ job.mValid = true then
      return { bus with mResQ := bus.mResQ ++ [job] }
    else if job.mCommand ≠ .DISCARD then
      return { bus with mResQ := bus.mResQ ++ [job] }
    else return bus

def repeatedTasks (bus : JobBus) : JobBus :=
  { bus with mJobQ := bus.mJobQ ++ [Job.new .PENDING, Job.new .LIST] }

/-- The table of `Program`; a response without an entry is dropped. -/
def table (setting : Setting) (gui : CentralGui) (job : Job) : Exec (CentralGui × List Job) :=
  match job.mCommand with
  | .DISP_CONTACTS => .ok (gui.jobDispContact job)
  | .CHAT => gui.jobLoadChat setting.calendar job
  | .PENDING => gui.jobLoadPending setting.calendar job
  | .AWAITING => do
    let gui ← gui.jobAwaiting job
    return (gui, [])
  | _ => .ok (gui, [])

def handleResponse (setting : Setting) (bus : JobBus) : Exec JobBus :=
  match bus.mResQ with
  | [] => .ok bus
  | job :: mResQ => do
    let (gui, created) ← table setting bus.gui job
    return { bus with mResQ, gui, mJobQ := bus.mJobQ ++ created }

inductive Event
  | tick
  | handle (reply : Option ByteString)
  | respond
  | receive (chat : UserChat)
  | delivered (id : Int32)

/-- The server stores a chat under a new id; other clients can set a chat to delivered. -/
def step (setting : Setting) (bus : JobBus) : Event → Exec JobBus
  | .tick => if bus.gui.timer = true then .ok bus.repeatedTasks else .error .waiting
  | .handle reply => bus.handle setting reply
  | .respond => bus.handleResponse setting
  | .receive chat =>
    if chat.mId ∈ bus.server.map UserChat.mId then .error .undefined
    else .ok { bus with server := bus.server ++ [chat] }
  | .delivered id => .ok { bus with server := markDelivered (intToString id) bus.server }

def start (mUser : ByteString) (setting : Setting) (server : List UserChat) : JobBus :=
  ⟨[Job.new .LIST], [], Keyed.empty, [], CentralGui.new mUser setting.user, server⟩

def fetched (reply : Option ByteString) (chats : List UserChat) : List UserChat :=
  if reply.isSome then chats else []

inductive Handled (setting : Setting) (bus : JobBus) (job : Job) (rest : List Job)
    (reply : Option ByteString) : JobBus → Prop
  | unlisted (hcommand : job.mCommand = .LIST) (hreply : reply = none) :
      Handled setting bus job rest reply { bus with mJobQ := rest }
  | listed {tResponse : ByteString} {mOnlineContacts : ContactMap} {created : Option Job}
      (hcommand : job.mCommand = .LIST) (hreply : reply = some tResponse)
      (hupdate : updateContacts setting.hash bus.mOnlineContacts tResponse =
        .ok (mOnlineContacts, created)) :
      Handled setting bus job rest reply
        { bus with mOnlineContacts, mJobQ := rest ++ created.toList }
  | contacts (hcommand : job.mCommand = .DISP_CONTACTS) {mContactList : List Details}
      {mValid : Bool} :
      Handled setting bus job rest reply
        { bus with mJobQ := rest, mResQ := bus.mResQ ++ [{ job with mContactList, mValid }] }
  | chat (hcommand : job.mCommand = .CHAT) :
      Handled setting bus job rest reply
        { bus with
          mJobQ := rest
          mResQ := bus.mResQ ++ [{ job with
            mChats := fetched reply (chatReply setting.user bus.server), mValid := true }] }
  | pending (hcommand : job.mCommand = .PENDING) :
      Handled setting bus job rest reply
        { bus with
          mJobQ := rest
          mResQ := bus.mResQ ++ [{ job with
            mChats := fetched reply (pendingReply setting.user bus.server), mValid := true }] }
  | nothingPending (hcommand : job.mCommand = .PENDING) :
      Handled setting bus job rest reply { bus with mJobQ := rest }
  | delivered (hcommand : job.mCommand = .DELIVERED) {mValid : Bool} :
      Handled setting bus job rest reply
        { bus with
          mJobQ := rest
          server := if reply.isSome then markDelivered job.mArgument bus.server else bus.server
          mResQ := bus.mResQ ++ [{ job with mValid }] }
  | awaiting (hcommand : job.mCommand = .AWAITING) {mCallers : List Int32} {mValid : Bool} :
      Handled setting bus job rest reply
        { bus with mJobQ := rest, mCallers, mResQ := bus.mResQ ++ [{ job with mValid }] }

theorem push_eq (bus : JobBus) (job : Job) :
    (if job.mCommand = .AWAITING ∧ job.mValid = true then
        (pure { bus with mResQ := bus.mResQ ++ [job] } : Exec JobBus)
      else if job.mCommand ≠ .DISCARD then pure { bus with mResQ := bus.mResQ ++ [job] }
      else pure bus) =
    .ok (if job.mCommand = .DISCARD then bus else { bus with mResQ := bus.mResQ ++ [job] }) := by
  by_cases hdiscard : job.mCommand = .DISCARD
  · simp [hdiscard]
  · by_cases hawaiting : job.mCommand = .AWAITING ∧ job.mValid = true
    · rw [if_pos hawaiting, if_neg hdiscard]
      rfl
    · rw [if_neg hawaiting, if_pos hdiscard, if_neg hdiscard]
      rfl

theorem handled_of_handle {setting : Setting} {bus bus' : JobBus} {reply : Option ByteString}
    (h : bus.handle setting reply = .ok bus') :
    ∃ job rest, bus.mJobQ = job :: rest ∧ Handled setting bus job rest reply bus' := by
  unfold handle at h
  cases hqueue : bus.mJobQ with
  | nil =>
    rw [hqueue] at h
    cases h
  | cons job rest =>
    rw [hqueue] at h
    refine ⟨job, rest, rfl, ?_⟩
    obtain ⟨⟨next, handled⟩, hdispatch, hpush⟩ := bind_eq_ok.mp h
    dsimp only at hpush
    rw [push_eq] at hpush
    obtain rfl := Except.ok.inj hpush
    obtain ⟨mCommand, mArgument, mValid, mBoolValue, mIntValue, mContactList, mChats⟩ := job
    cases mCommand with
    | LIST =>
      cases reply with
      | none =>
        obtain ⟨rfl, rfl⟩ := Prod.mk.inj (Except.ok.inj hdispatch)
        exact .unlisted rfl rfl
      | some tResponse =>
        obtain ⟨⟨mOnlineContacts, created⟩, hupdate, hresult⟩ := bind_eq_ok.mp hdispatch
        obtain ⟨rfl, rfl⟩ := Prod.mk.inj (Except.ok.inj hresult)
        exact .listed rfl rfl hupdate
    | DISP_CONTACTS =>
      obtain ⟨rfl, rfl⟩ := Prod.mk.inj (Except.ok.inj hdispatch)
      exact .contacts rfl
    | CHAT =>
      obtain ⟨rfl, rfl⟩ := Prod.mk.inj (Except.ok.inj hdispatch)
      exact .chat rfl
    | PENDING =>
      unfold dispatch at hdispatch
      dsimp only at hdispatch
      by_cases hchats : fetched reply (pendingReply setting.user bus.server) = []
      · rw [fetched] at hchats
        rw [if_neg (not_not.mpr hchats)] at hdispatch
        obtain ⟨rfl, rfl⟩ := Prod.mk.inj (Except.ok.inj hdispatch)
        exact .nothingPending rfl
      · rw [fetched] at hchats
        rw [if_pos hchats] at hdispatch
        obtain ⟨rfl, rfl⟩ := Prod.mk.inj (Except.ok.inj hdispatch)
        exact .pending rfl
    | DELIVERED =>
      cases reply with
      | none =>
        obtain ⟨rfl, rfl⟩ := Prod.mk.inj (Except.ok.inj hdispatch)
        exact .delivered rfl
      | some tResponse =>
        obtain ⟨rfl, rfl⟩ := Prod.mk.inj (Except.ok.inj hdispatch)
        exact .delivered rfl
    | AWAITING =>
      unfold dispatch Call.awaiting at hdispatch
      dsimp only at hdispatch
      split at hdispatch
      · obtain ⟨rfl, rfl⟩ := Prod.mk.inj (Except.ok.inj hdispatch)
        exact .awaiting rfl
      · split at hdispatch
        · obtain ⟨rfl, rfl⟩ := Prod.mk.inj (Except.ok.inj hdispatch)
          exact .awaiting rfl
        · obtain ⟨rfl, rfl⟩ := Prod.mk.inj (Except.ok.inj hdispatch)
          exact .awaiting rfl
    | DISCARD => cases hdispatch

inductive Responded (gui : CentralGui) (job : Job) : CentralGui → List Job → Prop
  | contacts (hcommand : job.mCommand = .DISP_CONTACTS) {mContactList : ContactList} :
      Responded gui job { gui with mContactList, firstDisplay := false }
        (if gui.firstDisplay then [Job.new .CHAT] else [])
  | chats (hcommand : job.mCommand = .CHAT) {gui' : CentralGui} {jobs : List Job}
      (hloaded : CentralGui.Loaded gui job.mChats gui' jobs) :
      Responded gui job { gui' with timer := true } jobs
  | pending (hcommand : job.mCommand = .PENDING) {gui' : CentralGui} {jobs : List Job}
      (hloaded : CentralGui.Loaded gui job.mChats gui' jobs) : Responded gui job gui' jobs
  | ignored (hcommand : job.mCommand = .PENDING) : Responded gui job gui []
  | ended (hcommand : job.mCommand = .AWAITING) (hflag : job.mBoolValue = false)
      (hwindow : job.mIntValue ∈ gui.callersTable) :
      Responded gui job
        { gui with
          callersTable := gui.callersTable.filter (· ≠ job.mIntValue)
          rung := gui.rung ++ [(job.mIntValue, job.mBoolValue)] } []
  | rings (hcommand : job.mCommand = .AWAITING) (hflag : job.mBoolValue = true)
      {mContactList : ContactList} :
      Responded gui job
        { gui with
          mContactList
          callersTable := gui.callersTable.filter (· ≠ job.mIntValue) ++ [job.mIntValue]
          rung := gui.rung ++ [(job.mIntValue, job.mBoolValue)] } []
  | dropped (hcommand : job.mCommand = .LIST ∨ job.mCommand = .DELIVERED ∨
      job.mCommand = .DISCARD) :
      Responded gui job gui []

theorem responded_of_table {setting : Setting} {gui gui' : CentralGui} {job : Job}
    {jobs : List Job} (h : table setting gui job = .ok (gui', jobs)) :
    Responded gui job gui' jobs := by
  obtain ⟨mCommand, mArgument, mValid, mBoolValue, mIntValue, mContactList, mChats⟩ := job
  cases mCommand with
  | LIST =>
    obtain ⟨rfl, rfl⟩ := Prod.mk.inj (Except.ok.inj h)
    exact .dropped (.inl rfl)
  | DISP_CONTACTS =>
    obtain ⟨rfl, rfl⟩ := Prod.mk.inj (Except.ok.inj h)
    exact .contacts rfl
  | CHAT =>
    unfold table CentralGui.jobLoadChat at h
    dsimp only at h
    split at h
    · obtain ⟨⟨next, created⟩, hload, hresult⟩ := bind_eq_ok.mp h
      obtain ⟨rfl, rfl⟩ := Prod.mk.inj (Except.ok.inj hresult)
      exact .chats rfl (CentralGui.loaded_loadChat hload)
    · next hempty =>
      obtain ⟨rfl, rfl⟩ := Prod.mk.inj (Except.ok.inj h)
      apply Responded.chats rfl
      rw [not_not.mp hempty]
      exact CentralGui.loaded_nil gui
  | PENDING =>
    unfold table CentralGui.jobLoadPending at h
    dsimp only at h
    split at h
    · obtain ⟨rfl, rfl⟩ := Prod.mk.inj (Except.ok.inj h)
      exact .ignored rfl
    · split at h
      · obtain ⟨rfl, rfl⟩ := Prod.mk.inj (Except.ok.inj h)
        exact .ignored rfl
      · exact .pending rfl (CentralGui.loaded_loadChat h)
  | DELIVERED =>
    obtain ⟨rfl, rfl⟩ := Prod.mk.inj (Except.ok.inj h)
    exact .dropped (.inr (.inl rfl))
  | AWAITING =>
    obtain ⟨next, hawaiting, hresult⟩ := bind_eq_ok.mp h
    obtain ⟨rfl, rfl⟩ := Prod.mk.inj (Except.ok.inj hresult)
    unfold CentralGui.jobAwaiting at hawaiting
    dsimp only at hawaiting
    split at hawaiting
    · next hflag =>
      split at hawaiting
      · next hwindow =>
        obtain rfl := Except.ok.inj hawaiting
        exact .ended rfl hflag hwindow
      · cases hawaiting
    · next hflag =>
      obtain rfl := Except.ok.inj hawaiting
      exact .rings rfl (Bool.eq_true_of_not_eq_false hflag)
  | DISCARD =>
    obtain ⟨rfl, rfl⟩ := Prod.mk.inj (Except.ok.inj h)
    exact .dropped (.inr (.inr rfl))

theorem responded_of_handleResponse {setting : Setting} {bus bus' : JobBus} {job : Job}
    {rest : List Job} (hqueue : bus.mResQ = job :: rest)
    (h : bus.handleResponse setting = .ok bus') :
    ∃ gui jobs, Responded bus.gui job gui jobs ∧
      bus' = { bus with mResQ := rest, gui, mJobQ := bus.mJobQ ++ jobs } := by
  rw [handleResponse, hqueue] at h
  obtain ⟨⟨gui, jobs⟩, htable, hresult⟩ := bind_eq_ok.mp h
  exact ⟨gui, jobs, responded_of_table htable, (Except.ok.inj hresult).symm⟩

end JobBus

end Skype
