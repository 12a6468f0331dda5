import Skype.JobBus
import Skype.Library.Transition

/-!
# Which messages the window shows

Chats come to the window in the one response to `CHAT` and in the responses to
`PENDING`. A chat is shown twice when a `PENDING` fetches it again before the server
has handled the `DELIVERED` of the first time.
-/

namespace Skype.JobBus

open Library Contacts

def incoming (user : Int32) (bus : JobBus) : List UserChat :=
  (bus.gui.appended ++ bus.mResQ.flatMap Job.mChats).filter fun chat => chat.mRecipient = user

def Announced (bus : JobBus) (job : Job) : Prop :=
  job.mCommand = .DELIVERED → ∃ chat ∈ bus.gui.appended, job.mArgument = intToString chat.mId

/-- No chat for `user` was appended twice, and every `DELIVERED` is about an appended one. -/
def ShownOnce (user : Int32) (bus : JobBus) : Prop :=
  ((bus.gui.appended.filter fun chat => chat.mRecipient = user).map UserChat.mId).Nodup ∧
    ∀ job ∈ bus.mJobQ ++ bus.mResQ, bus.Announced job

def Event.answered : Event → Bool
  | .handle (some _) => true
  | _ => false

/-- A `PENDING` that the server answers brings no chat that the window has already, or is
about to get. -/
def FetchesUnshown (setting : Setting) (a : JobBus) (event : Event) (_ : JobBus) : Prop :=
  event.answered = true → ∀ job ∈ a.mJobQ.head?, job.mCommand = .PENDING →
    ∀ chat ∈ pendingReply setting.user a.server,
      chat.mId ∉ (incoming setting.user a).map UserChat.mId

instance (setting : Setting) (a : JobBus) (event : Event) (b : JobBus) :
    Decidable (FetchesUnshown setting a event b) :=
  inferInstanceAs (Decidable (_ → ∀ job ∈ a.mJobQ.head?, _ → ∀ chat ∈ _, _ ∉ _))

def Carries (user : Int32) (server : List UserChat) (reply : Option ByteString)
    (job response : Job) : Prop :=
  response.mChats = job.mChats ∨
    (job.mCommand = .CHAT ∧ response.mChats = fetched reply (chatReply user server)) ∨
    (job.mCommand = .PENDING ∧ response.mChats = fetched reply (pendingReply user server))

structure Moved (setting : Setting) (a : JobBus) (job : Job) (rest : List Job)
    (reply : Option ByteString) (b : JobBus) : Prop where
  gui : b.gui = a.gui
  ids : b.server.map UserChat.mId = a.server.map UserChat.mId
  created : ∃ created, b.mJobQ = rest ++ created ∧ ∀ c ∈ created,
    (c.mCommand = .DISP_CONTACTS ∨ c.mCommand = .AWAITING) ∧ c.mChats = []
  response : b.mResQ = a.mResQ ∨ ∃ response, b.mResQ = a.mResQ ++ [response] ∧
    response.mCommand = job.mCommand ∧ response.mArgument = job.mArgument ∧
    Carries setting.user a.server reply job response

theorem map_mId_markDelivered (id : ByteString) (server : List UserChat) :
    (markDelivered id server).map UserChat.mId = server.map UserChat.mId := by
  rw [markDelivered, List.map_map]
  apply List.map_congr_left
  intro chat hchat
  rw [Function.comp_apply]
  split
  · rfl
  · rfl

section

variable {setting : Setting} {a b : JobBus} {event : Event} {job : Job} {rest jobs : List Job}
  {reply : Option ByteString} {gui gui' : CentralGui}

theorem moved_of_handled (h : Handled setting a job rest reply b) :
    Moved setting a job rest reply b := by
  have hnone : ∃ created, rest = rest ++ created ∧ ∀ c ∈ created,
      (c.mCommand = .DISP_CONTACTS ∨ c.mCommand = .AWAITING) ∧ c.mChats = [] :=
    ⟨[], by simp, by simp⟩
  cases h with
  | unlisted hcommand hreply => exact ⟨rfl, rfl, hnone, .inl rfl⟩
  | @listed tResponse mOnlineContacts created hcommand hreply hupdate =>
    refine ⟨rfl, rfl, ⟨created.toList, rfl, ?_⟩, .inl rfl⟩
    intro c hc
    rw [updateContacts_job hupdate, Option.mem_toList] at hc
    rcases changeJob_cases hc with rfl | ⟨contact, rfl, -⟩
    · exact ⟨.inl rfl, rfl⟩
    · exact ⟨.inr rfl, rfl⟩
  | contacts hcommand => exact ⟨rfl, rfl, hnone, .inr ⟨_, rfl, rfl, rfl, .inl rfl⟩⟩
  | chat hcommand =>
    exact ⟨rfl, rfl, hnone, .inr ⟨_, rfl, rfl, rfl, .inr (.inl ⟨hcommand, rfl⟩)⟩⟩
  | pending hcommand =>
    exact ⟨rfl, rfl, hnone, .inr ⟨_, rfl, rfl, rfl, .inr (.inr ⟨hcommand, rfl⟩)⟩⟩
  | nothingPending hcommand => exact ⟨rfl, rfl, hnone, .inl rfl⟩
  | delivered hcommand =>
    refine ⟨rfl, ?_, hnone, .inr ⟨_, rfl, rfl, rfl, .inl rfl⟩⟩
    cases reply with
    | none => rfl
    | some tResponse => exact map_mId_markDelivered job.mArgument a.server
  | awaiting hcommand => exact ⟨rfl, rfl, hnone, .inr ⟨_, rfl, rfl, rfl, .inl rfl⟩⟩

theorem Moved.mem_mJobQ (h : Moved setting a job rest reply b) {j : Job} (hj : j ∈ b.mJobQ) :
    j ∈ rest ∨ (j.mCommand = .DISP_CONTACTS ∨ j.mCommand = .AWAITING) ∧ j.mChats = [] := by
  obtain ⟨created, hcreated, hnew⟩ := h.created
  rw [hcreated] at hj
  exact (List.mem_append.mp hj).imp_right (hnew j)

theorem Moved.mem_mResQ (h : Moved setting a job rest reply b) {j : Job} (hj : j ∈ b.mResQ) :
    j ∈ a.mResQ ∨ j.mCommand = job.mCommand ∧ j.mArgument = job.mArgument ∧
      Carries setting.user a.server reply job j := by
  rcases h.response with hsame | ⟨response, hresponse, his⟩
  · exact Or.inl (hsame ▸ hj)
  · rw [hresponse] at hj
    rcases List.mem_append.mp hj with hj | hj
    · exact Or.inl hj
    · rw [List.mem_singleton.mp hj]
      exact Or.inr his

def chatJobs (jobs : List Job) : ℕ := jobs.countP fun job => job.mCommand = .CHAT

def chatCount (bus : JobBus) : ℕ :=
  chatJobs bus.mJobQ + chatJobs bus.mResQ + bus.gui.firstDisplay.toNat + bus.gui.timer.toNat

structure Started (bus : JobBus) : Prop where
  once : bus.chatCount ≤ 1
  quiet : bus.gui.timer = false →
    bus.gui.appended = [] ∧ ∀ job ∈ bus.mJobQ ++ bus.mResQ, job.mCommand ≠ .PENDING

theorem chatJobs_append (jobs jobs' : List Job) :
    chatJobs (jobs ++ jobs') = chatJobs jobs + chatJobs jobs' := List.countP_append

theorem chatJobs_cons (job : Job) (jobs : List Job) :
    chatJobs (job :: jobs) = chatJobs jobs + if job.mCommand = .CHAT then 1 else 0 := by
  simp [chatJobs, List.countP_cons]

theorem chatJobs_eq_zero (h : ∀ job ∈ jobs, job.mCommand ≠ .CHAT) : chatJobs jobs = 0 := by
  rw [chatJobs, List.countP_eq_zero]
  simpa using h

theorem started_handled (ha : Started a) (hqueue : a.mJobQ = job :: rest)
    (h : Moved setting a job rest reply b) : Started b := by
  obtain ⟨created, hcreated, hnew⟩ := h.created
  have hquiet : chatJobs created = 0 := by
    apply chatJobs_eq_zero
    intro c hc
    rcases (hnew c hc).1 with hcommand | hcommand
    · simp [hcommand]
    · simp [hcommand]
  constructor
  · have honce := ha.once
    rw [chatCount, hqueue, chatJobs_cons] at honce
    rw [chatCount, h.gui, hcreated, chatJobs_append, hquiet]
    rcases h.response with hsame | ⟨response, hresponse, hcommand, -, -⟩
    · rw [hsame]
      omega
    · rw [hresponse, chatJobs_append, chatJobs_cons, hcommand]
      have hempty : chatJobs [] = 0 := rfl
      omega
  · intro htimer
    rw [h.gui] at htimer
    obtain ⟨happended, hpending⟩ := ha.quiet htimer
    refine ⟨h.gui ▸ happended, ?_⟩
    have hold : ∀ j ∈ rest ++ a.mResQ, j.mCommand ≠ .PENDING := by
      intro j hj
      apply hpending
      rw [hqueue]
      exact List.mem_cons_of_mem job hj
    have hjob : job.mCommand ≠ .PENDING := hpending job (by simp [hqueue])
    intro j hj
    rcases List.mem_append.mp hj with hj | hj
    · rcases h.mem_mJobQ hj with hj | ⟨hcommand | hcommand, -⟩
      · exact hold j (List.mem_append_left _ hj)
      · simp [hcommand]
      · simp [hcommand]
    · rcases h.mem_mResQ hj with hj | ⟨hcommand, -, -⟩
      · exact hold j (List.mem_append_right _ hj)
      · rw [hcommand]
        exact hjob

theorem command_of_loaded {chats : List UserChat} (h : CentralGui.Loaded gui chats gui' jobs) :
    ∀ job ∈ jobs, job.mCommand = .DELIVERED ∧ job.mChats = [] ∧
      ∃ chat ∈ chats, job.mArgument = intToString chat.mId := by
  intro j hj
  rw [h.jobs] at hj
  obtain ⟨chat, hchat, rfl⟩ := List.mem_map.mp hj
  exact ⟨rfl, rfl, chat, List.mem_of_mem_filter hchat, rfl⟩

theorem chatJobs_of_loaded {chats : List UserChat} (h : CentralGui.Loaded gui chats gui' jobs) :
    chatJobs jobs = 0 := by
  apply chatJobs_eq_zero
  intro j hj
  rw [(command_of_loaded h j hj).1]
  simp

theorem eq_of_mem_firstDisplay {display : Bool} {j : Job}
    (hj : j ∈ if display then [Job.new .CHAT] else []) : j = Job.new .CHAT := by
  cases display with
  | false => cases hj
  | true => exact List.mem_singleton.mp hj

theorem chatJobs_firstDisplay (display : Bool) :
    chatJobs (if display then [Job.new .CHAT] else []) = display.toNat := by
  cases display with
  | false => rfl
  | true => rfl

theorem Started.quiet_responded (ha : Started a) (hqueue : a.mResQ = job :: rest)
    (htimer : a.gui.timer = false) (hjobs : ∀ j ∈ jobs, j.mCommand ≠ .PENDING) :
    ∀ j ∈ a.mJobQ ++ jobs ++ rest, j.mCommand ≠ .PENDING := by
  obtain ⟨-, hpending⟩ := ha.quiet htimer
  intro j hj
  rcases List.mem_append.mp hj with hj | hj
  · rcases List.mem_append.mp hj with hj | hj
    · exact hpending j (List.mem_append_left _ hj)
    · exact hjobs j hj
  · apply hpending j
    rw [hqueue]
    exact List.mem_append_right _ (List.mem_cons_of_mem job hj)

theorem Started.once_responded (ha : Started a) (hqueue : a.mResQ = job :: rest) :
    chatJobs a.mJobQ + (chatJobs rest + if job.mCommand = .CHAT then 1 else 0) +
      a.gui.firstDisplay.toNat + a.gui.timer.toNat ≤ 1 := by
  have honce := ha.once
  rw [chatCount, hqueue, chatJobs_cons] at honce
  exact honce

theorem started_unchanged (ha : Started a) (hqueue : a.mResQ = job :: rest)
    (happended : gui.appended = a.gui.appended)
    (hdisplay : gui.firstDisplay = a.gui.firstDisplay) (htimer : gui.timer = a.gui.timer) :
    Started { a with mResQ := rest, gui, mJobQ := a.mJobQ ++ [] } := by
  constructor
  · have honce := ha.once_responded hqueue
    rw [chatCount, List.append_nil]
    dsimp only
    rw [hdisplay, htimer]
    omega
  · intro hfalse
    dsimp only at hfalse ⊢
    rw [htimer] at hfalse
    exact ⟨happended.trans (ha.quiet hfalse).1, ha.quiet_responded hqueue hfalse (by simp)⟩

theorem started_responded (ha : Started a) (hqueue : a.mResQ = job :: rest)
    (h : Responded a.gui job gui jobs) :
    Started { a with mResQ := rest, gui, mJobQ := a.mJobQ ++ jobs } := by
  have honce := ha.once_responded hqueue
  cases h with
  | contacts hcommand =>
    constructor
    · rw [chatCount, chatJobs_append, chatJobs_firstDisplay]
      dsimp only
      rw [Bool.toNat_false]
      omega
    · intro htimer
      refine ⟨(ha.quiet htimer).1, ha.quiet_responded hqueue htimer ?_⟩
      intro j hj
      rw [eq_of_mem_firstDisplay hj]
      simp [Job.new]
  | chats hcommand hloaded =>
    constructor
    · rw [if_pos hcommand] at honce
      rw [chatCount, chatJobs_append, chatJobs_of_loaded hloaded]
      dsimp only
      rw [hloaded.firstDisplay, Bool.toNat_true]
      omega
    · intro htimer
      cases htimer
  | pending hcommand hloaded =>
    constructor
    · rw [chatCount, chatJobs_append, chatJobs_of_loaded hloaded]
      dsimp only
      rw [hloaded.firstDisplay, hloaded.timer]
      omega
    · intro htimer
      dsimp only at htimer
      rw [hloaded.timer] at htimer
      exact absurd hcommand ((ha.quiet htimer).2 job (by simp [hqueue]))
  | ignored hcommand => exact started_unchanged ha hqueue rfl rfl rfl
  | ended hcommand hflag hwindow => exact started_unchanged ha hqueue rfl rfl rfl
  | rings hcommand hflag => exact started_unchanged ha hqueue rfl rfl rfl
  | dropped hcommand => exact started_unchanged ha hqueue rfl rfl rfl

structure Showing (user : Int32) (bus : JobBus) : Prop where
  started : Started bus
  ids : (bus.server.map UserChat.mId).Nodup
  once : ((incoming user bus).map UserChat.mId).Nodup
  created : ∀ job ∈ bus.mJobQ, job.mChats = []
  carried : ∀ job ∈ bus.mResQ, job.mCommand ≠ .CHAT → job.mCommand ≠ .PENDING → job.mChats = []
  announced : ∀ job ∈ bus.mJobQ ++ bus.mResQ, bus.Announced job

theorem nodup_ids_of_sublist {chats server : List UserChat} (hsub : chats.Sublist server)
    (hids : (server.map UserChat.mId).Nodup) : (chats.map UserChat.mId).Nodup :=
  (hsub.map UserChat.mId).nodup hids

theorem fetched_sublist {chats server : List UserChat} (hsub : chats.Sublist server)
    (reply : Option ByteString) : (fetched reply chats).Sublist server := by
  cases reply with
  | none => exact List.nil_sublist server
  | some tResponse => exact hsub

theorem Showing.incoming_eq_nil {user : Int32} (ha : Showing user a)
    (hqueue : a.mJobQ = job :: rest) (hcommand : job.mCommand = .CHAT) :
    incoming user a = [] := by
  have honce := ha.started.once
  rw [chatCount, hqueue, chatJobs_cons, if_pos hcommand] at honce
  have htimer : a.gui.timer = false := by
    cases htimer : a.gui.timer with
    | false => rfl
    | true =>
      rw [htimer, Bool.toNat_true] at honce
      omega
  obtain ⟨happended, hpending⟩ := ha.started.quiet htimer
  have hchat : chatJobs a.mResQ = 0 := by omega
  have hempty : a.mResQ.flatMap Job.mChats = [] := by
    rw [List.flatMap_eq_nil_iff]
    intro response hresponse
    apply ha.carried response hresponse
    · rw [chatJobs, List.countP_eq_zero] at hchat
      simpa using hchat response hresponse
    · exact hpending response (List.mem_append_right _ hresponse)
  rw [incoming, happended, hempty]
  rfl

theorem Showing.once_handled {user : Int32} {response : Job} (ha : Showing user a)
    (hqueue : a.mJobQ = job :: rest) (hcarries : Carries user a.server reply job response)
    (hfetches : reply.isSome = true → job.mCommand = .PENDING →
      ∀ chat ∈ pendingReply user a.server, chat.mId ∉ (incoming user a).map UserChat.mId) :
    ((incoming user a ++ response.mChats.filter fun chat => chat.mRecipient = user).map
      UserChat.mId).Nodup := by
  rcases hcarries with hsame | ⟨hcommand, hchats⟩ | ⟨hcommand, hchats⟩
  · rw [hsame, ha.created job (by simp [hqueue]), List.filter_nil, List.append_nil]
    exact ha.once
  · rw [ha.incoming_eq_nil hqueue hcommand, List.nil_append, hchats]
    apply nodup_ids_of_sublist _ ha.ids
    exact List.filter_sublist.trans (fetched_sublist List.filter_sublist reply)
  · rw [hchats, List.map_append]
    apply List.Nodup.append ha.once
    · apply nodup_ids_of_sublist _ ha.ids
      exact List.filter_sublist.trans (fetched_sublist List.filter_sublist reply)
    · intro id hold hnew
      obtain ⟨chat, hchat, rfl⟩ := List.mem_map.mp hnew
      cases reply with
      | none => simp [fetched] at hchat
      | some tResponse => exact hfetches rfl hcommand chat (List.mem_of_mem_filter hchat) hold

theorem showing_handled (ha : Showing setting.user a) (hqueue : a.mJobQ = job :: rest)
    (h : Moved setting a job rest reply b)
    (hfetches : reply.isSome = true → job.mCommand = .PENDING →
      ∀ chat ∈ pendingReply setting.user a.server,
        chat.mId ∉ (incoming setting.user a).map UserChat.mId) : Showing setting.user b := by
  have hrest : ∀ j ∈ rest, j ∈ a.mJobQ := by
    intro j hj
    rw [hqueue]
    exact List.mem_cons_of_mem job hj
  have hannounced : ∀ j ∈ a.mJobQ ++ a.mResQ, b.Announced j := by
    intro j hj
    rw [Announced, h.gui]
    exact ha.announced j hj
  have hjob : b.Announced job := hannounced job (by simp [hqueue])
  refine ⟨started_handled ha.started hqueue h, h.ids ▸ ha.ids, ?_, ?_, ?_, ?_⟩
  · rcases h.response with hsame | ⟨response, hresponse, -, -, hcarries⟩
    · rw [incoming, h.gui, hsame]
      exact ha.once
    · rw [incoming, h.gui, hresponse, List.flatMap_append, ← List.append_assoc, List.filter_append,
        List.flatMap_singleton]
      exact ha.once_handled hqueue hcarries hfetches
  · intro j hj
    rcases h.mem_mJobQ hj with hj | ⟨-, hchats⟩
    · exact ha.created j (hrest j hj)
    · exact hchats
  · intro j hj hchat hpending
    rcases h.mem_mResQ hj with hj | ⟨hcommand, -, hcarries⟩
    · exact ha.carried j hj hchat hpending
    · rw [hcommand] at hchat hpending
      rcases hcarries with hkept | ⟨his, -⟩ | ⟨his, -⟩
      · rw [hkept, ha.created job (by simp [hqueue])]
      · exact absurd his hchat
      · exact absurd his hpending
  · intro j hj
    rcases List.mem_append.mp hj with hj | hj
    · rcases h.mem_mJobQ hj with hj | ⟨hcommand, -⟩
      · exact hannounced j (List.mem_append_left _ (hrest j hj))
      · intro hdelivered
        rw [hdelivered] at hcommand
        exact absurd hcommand (by decide)
    · rcases h.mem_mResQ hj with hj | ⟨hcommand, hargument, -⟩
      · exact hannounced j (List.mem_append_right _ hj)
      · rw [Announced, hcommand, hargument]
        exact hjob

/-- A response is appended as a whole or not at all, before its `DELIVERED` are created. -/
theorem appended_responded (h : Responded gui job gui' jobs) :
    (gui'.appended = gui.appended ++ job.mChats ∨ gui'.appended = gui.appended) ∧
      ∀ j ∈ jobs, j.mChats = [] ∧ (j.mCommand = .DELIVERED →
        ∃ chat ∈ gui'.appended, j.mArgument = intToString chat.mId) := by
  have hloaded : ∀ {next : CentralGui}, CentralGui.Loaded gui job.mChats next jobs →
      ∀ j ∈ jobs, j.mChats = [] ∧ (j.mCommand = .DELIVERED →
        ∃ chat ∈ next.appended, j.mArgument = intToString chat.mId) := by
    intro next hload j hj
    obtain ⟨-, hempty, chat, hchat, hargument⟩ := command_of_loaded hload j hj
    refine ⟨hempty, fun _ => ⟨chat, ?_, hargument⟩⟩
    rw [hload.appended]
    exact List.mem_append_right _ hchat
  cases h with
  | contacts hcommand =>
    refine ⟨.inr rfl, ?_⟩
    intro j hj
    rw [eq_of_mem_firstDisplay hj]
    exact ⟨rfl, nofun⟩
  | chats hcommand hload =>
    have hnew := hloaded hload
    exact ⟨.inl hload.appended, hnew⟩
  | pending hcommand hload => exact ⟨.inl hload.appended, hloaded hload⟩
  | ignored hcommand => exact ⟨.inr rfl, by simp⟩
  | ended hcommand hflag hwindow => exact ⟨.inr rfl, by simp⟩
  | rings hcommand hflag => exact ⟨.inr rfl, by simp⟩
  | dropped hcommand => exact ⟨.inr rfl, by simp⟩

theorem showing_responded {user : Int32} (ha : Showing user a) (hqueue : a.mResQ = job :: rest)
    (h : Responded a.gui job gui jobs) :
    Showing user { a with mResQ := rest, gui, mJobQ := a.mJobQ ++ jobs } := by
  obtain ⟨happended, hjobs⟩ := appended_responded h
  have hgrows : ∀ chat ∈ a.gui.appended, chat ∈ gui.appended := by
    intro chat hchat
    rcases happended with hall | hsame
    · rw [hall]
      exact List.mem_append_left _ hchat
    · rw [hsame]
      exact hchat
  have hold : ∀ j ∈ a.mJobQ ++ a.mResQ, j.mCommand = .DELIVERED →
      ∃ chat ∈ gui.appended, j.mArgument = intToString chat.mId := by
    intro j hj hdelivered
    obtain ⟨chat, hchat, hargument⟩ := ha.announced j hj hdelivered
    exact ⟨chat, hgrows chat hchat, hargument⟩
  refine ⟨started_responded ha.started hqueue h, ha.ids, ?_, ?_, ?_, ?_⟩
  · apply nodup_ids_of_sublist _ ha.once
    rw [incoming, incoming, hqueue, List.flatMap_cons, ← List.append_assoc]
    apply List.Sublist.filter
    apply List.Sublist.append _ (List.Sublist.refl _)
    rcases happended with hall | hsame
    · rw [hall]
    · rw [hsame]
      exact List.sublist_append_left a.gui.appended job.mChats
  · intro j hj
    rcases List.mem_append.mp hj with hj | hj
    · exact ha.created j hj
    · exact (hjobs j hj).1
  · intro j hj
    apply ha.carried j
    rw [hqueue]
    exact List.mem_cons_of_mem job hj
  · intro j hj
    rcases List.mem_append.mp hj with hj | hj
    · rcases List.mem_append.mp hj with hj | hj
      · exact hold j (List.mem_append_left _ hj)
      · exact (hjobs j hj).2
    · apply hold j
      rw [hqueue]
      exact List.mem_append_right _ (List.mem_cons_of_mem job hj)

theorem Showing.repeatedTasks {user : Int32} (ha : Showing user a) (htimer : a.gui.timer = true) :
    Showing user a.repeatedTasks := by
  have hnew : ∀ j ∈ [Job.new .PENDING, Job.new .LIST], j.mChats = [] ∧
      j.mCommand ≠ .CHAT ∧ j.mCommand ≠ .DELIVERED := by
    simp [Job.new]
  refine ⟨⟨?_, ?_⟩, ha.ids, ha.once, ?_, ha.carried, ?_⟩
  · have honce := ha.started.once
    rw [chatCount, JobBus.repeatedTasks, chatJobs_append,
      chatJobs_eq_zero fun j hj => (hnew j hj).2.1]
    exact honce
  · intro hfalse
    exact absurd (htimer.symm.trans hfalse) (by simp)
  · intro j hj
    rcases List.mem_append.mp hj with hj | hj
    · exact ha.created j hj
    · exact (hnew j hj).1
  · intro j hj
    rcases List.mem_append.mp hj with hj | hj
    · rcases List.mem_append.mp hj with hj | hj
      · exact ha.announced j (List.mem_append_left _ hj)
      · exact fun hdelivered => absurd hdelivered (hnew j hj).2.2
    · exact ha.announced j (List.mem_append_right _ hj)

theorem Showing.server_changed {user : Int32} (ha : Showing user a) {server : List UserChat}
    (hids : (server.map UserChat.mId).Nodup) : Showing user { a with server } :=
  ⟨⟨ha.started.once, ha.started.quiet⟩, hids, ha.once, ha.created, ha.carried, ha.announced⟩

theorem showing_step (ha : Showing setting.user a) (hfetches : FetchesUnshown setting a event b)
    (h : step setting a event = .ok b) : Showing setting.user b := by
  cases event with
  | tick =>
    rw [step] at h
    split at h
    · next htimer =>
      obtain rfl := Except.ok.inj h
      exact ha.repeatedTasks htimer
    · cases h
  | handle reply =>
    obtain ⟨job, rest, hqueue, hhandled⟩ := handled_of_handle h
    apply showing_handled ha hqueue (moved_of_handled hhandled)
    intro hreply hcommand
    obtain ⟨tResponse, rfl⟩ := Option.isSome_iff_exists.mp hreply
    exact hfetches rfl job (by simp [hqueue]) hcommand
  | respond =>
    cases hqueue : a.mResQ with
    | nil =>
      rw [step, handleResponse, hqueue] at h
      obtain rfl := Except.ok.inj h
      exact ha
    | cons job rest =>
      obtain ⟨gui, jobs, hresponded, rfl⟩ := responded_of_handleResponse hqueue h
      exact showing_responded ha hqueue hresponded
  | receive chat =>
    rw [step] at h
    split at h
    · cases h
    · next hnew =>
      obtain rfl := Except.ok.inj h
      apply ha.server_changed
      rw [List.map_append]
      apply List.Nodup.append ha.ids (List.nodup_singleton _)
      intro id hold hid
      rw [List.mem_singleton] at hid
      exact hnew (hid ▸ hold)
  | delivered id =>
    obtain rfl := Except.ok.inj h
    apply ha.server_changed
    rw [map_mId_markDelivered]
    exact ha.ids

theorem Showing.shownOnce {user : Int32} (ha : Showing user a) : ShownOnce user a := by
  refine ⟨?_, ha.announced⟩
  apply nodup_ids_of_sublist _ ha.once
  exact (List.sublist_append_left _ _).filter _

theorem showing_start (mUser : ByteString) (setting : Setting) (server : Keyed UserChat.mId) :
    Showing setting.user (start mUser setting server.entries) where
  started := ⟨le_rfl, by simp [start, CentralGui.new, Job.new]⟩
  ids := server.nodup
  once := List.nodup_nil
  created := by simp [start, Job.new]
  carried := by simp [start]
  announced := by simp [start, Job.new, Announced]

end

theorem shown_once (setting : Setting) (mUser : ByteString) (server : Keyed UserChat.mId)
    (events : List Event)
    (h : Transition.AlwaysM (step setting) (FetchesUnshown setting)
      (start mUser setting server.entries) events)
    {pre post : List Event} (hpre : events = pre ++ post) {bus : JobBus}
    (hrun : Transition.runM (step setting) (start mUser setting server.entries) pre = .ok bus) :
    ShownOnce setting.user bus := by
  have hstep : ∀ a event b, Showing setting.user a → FetchesUnshown setting a event b →
      step setting a event = .ok b → Showing setting.user b := fun _ _ _ => showing_step
  rw [hpre] at h
  have hshowing := Transition.invariant_alwaysM (showing_start mUser setting server) hstep
    (Transition.alwaysM_left h) hrun
  exact hshowing.shownOnce

def midday : Setting := ⟨insertionOrder, ⟨str "2022-08-27", str "2022-08-26"⟩, 1⟩

def greeting : UserChat := ⟨7, str "2022-08-27 12:00:00", 2, 1, str "hi", false, false⟩

def contactsReply : ByteString := str "201 id:2,username:mario,online:true,awaiting:false"

def greeted : List Event :=
  [.handle (some contactsReply), .handle none, .respond, .handle (some []), .respond,
    .receive greeting]

set_option maxRecDepth 8000 in
theorem shown_once_greeting :
    ∃ bus, Transition.runM (step midday) (start (str "john") midday [])
      (greeted ++ [.tick, .handle (some []), .respond]) = .ok bus ∧
      bus.gui.appended = [greeting] ∧ ShownOnce midday.user bus := by
  refine ⟨_, rfl, rfl, ?_⟩
  exact shown_once midday (str "john") Keyed.empty (greeted ++ [.tick, .handle (some []), .respond])
    (by decide +kernel) (List.append_nil _).symm rfl

set_option maxRecDepth 8000 in
/-- Both ticks fetch the message before its `DELIVERED` reaches the server. -/
theorem shown_twice_slow_window :
    ∃ bus, Transition.runM (step midday) (start (str "john") midday [])
      (greeted ++ [.tick, .tick, .handle (some []), .handle none, .handle (some []), .respond,
        .respond]) = .ok bus ∧
      bus.gui.appended = [greeting, greeting] ∧ ¬ShownOnce midday.user bus := by
  refine ⟨_, rfl, rfl, ?_⟩
  rintro ⟨hnodup, -⟩
  revert hnodup
  decide

end Skype.JobBus
