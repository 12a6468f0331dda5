import Skype.JobBus
import Skype.Library.Alternation

/-!
# The windows of incoming calls

The jobs `AWAITING` keep their order from `update_contacts` through both queues to
`job_awaiting`, so the windows open and close in turn when the jobs are created in turn.
-/

namespace Skype.JobBus

open Library Library.Alternation Contacts

def awaitings (jobs : List Job) : List (Int32 × Bool) :=
  (jobs.filter fun job => job.mCommand = .AWAITING).map fun job =>
    (job.mIntValue, job.mBoolValue)

def calls (bus : JobBus) : List (Int32 × Bool) :=
  bus.gui.rung ++ (awaitings bus.mResQ ++ awaitings bus.mJobQ)

def RingsInTurn (bus : JobBus) : Prop :=
  InTurn bus.gui.rung ∧ ∀ job rest, bus.mResQ = job :: rest → job.mCommand = .AWAITING →
    (job.mIntValue ∈ bus.gui.callersTable ↔ job.mBoolValue = false)

/-- A contact that is the first to change had the call state announced last. -/
def AnnouncesInTurn (setting : Setting) (a : JobBus) (_ : Event) (b : JobBus) : Prop :=
  ∀ contact, FirstToChange setting.hash a.mOnlineContacts b.mOnlineContacts contact →
    ∀ old, a.mOnlineContacts.find? contact.ID = some old →
      old.awaiting = lastFlag contact.ID a.calls

theorem awaitings_append (jobs jobs' : List Job) :
    awaitings (jobs ++ jobs') = awaitings jobs ++ awaitings jobs' := by
  simp [awaitings]

theorem awaitings_of_ne {job : Job} (h : job.mCommand ≠ .AWAITING) (jobs : List Job) :
    awaitings (job :: jobs) = awaitings jobs := by
  simp [awaitings, h]

theorem awaitings_of_eq {job : Job} (h : job.mCommand = .AWAITING) (jobs : List Job) :
    awaitings (job :: jobs) = (job.mIntValue, job.mBoolValue) :: awaitings jobs := by
  simp [awaitings, h]

theorem awaitings_deliveredJobs (chats : List UserChat) :
    awaitings (chats.map CentralGui.deliveredJob) = [] := by
  induction chats with
  | nil => rfl
  | cons chat chats ih =>
    have hne : (CentralGui.deliveredJob chat).mCommand ≠ .AWAITING := nofun
    rw [List.map_cons, awaitings_of_ne hne, ih]

theorem not_firstToChange_self (hash : QHashOrder) (contacts : ContactMap) (contact : Details) :
    ¬FirstToChange hash contacts contacts contact := by
  intro h
  obtain ⟨old, hold, -, hne⟩ := h.awaiting
  rw [h.find?] at hold
  exact hne (congrArg Details.awaiting (Option.some.inj hold).symm)

section

variable {setting : Setting} {a b : JobBus} {event : Event}

def LogsChange (setting : Setting) (a b : JobBus) : Prop :=
  (b.calls = a.calls ∧
      ∀ c, ¬FirstToChange setting.hash a.mOnlineContacts b.mOnlineContacts c) ∨
    ∃ contact, FirstToChange setting.hash a.mOnlineContacts b.mOnlineContacts contact ∧
      (∀ c, FirstToChange setting.hash a.mOnlineContacts b.mOnlineContacts c →
        (c.ID, c.awaiting) = (contact.ID, contact.awaiting)) ∧
      b.calls = a.calls ++ [(contact.ID, contact.awaiting)]

theorem logsChange_of_same (hcontacts : b.mOnlineContacts = a.mOnlineContacts)
    (hcalls : b.calls = a.calls) : LogsChange setting a b := by
  left
  refine ⟨hcalls, ?_⟩
  rw [hcontacts]
  exact not_firstToChange_self setting.hash a.mOnlineContacts

theorem logsChange_of_listed {rest : List Job} {contacts : ContactMap}
    (hcalls : a.calls = a.gui.rung ++ (awaitings a.mResQ ++ awaitings rest)) :
    LogsChange setting a
      { a with
        mOnlineContacts := contacts
        mJobQ := rest ++ (changeJob setting.hash a.mOnlineContacts contacts).toList } := by
  cases hjob : changeJob setting.hash a.mOnlineContacts contacts with
  | none =>
    left
    refine ⟨?_, ?_⟩
    · rw [hcalls, calls, Option.toList_none, List.append_nil]
    · intro c hfirst
      rw [hfirst.changeJob_eq] at hjob
      cases hjob
  | some created =>
    rcases changeJob_cases hjob with rfl | ⟨contact, rfl, hfirst⟩
    · left
      refine ⟨?_, ?_⟩
      · rw [hcalls, calls, Option.toList_some, awaitings_append, awaitings_of_ne (by decide)]
        simp [awaitings]
      · intro c hfirst
        rw [hfirst.changeJob_eq] at hjob
        exact awaitingJob_ne_dispContacts c (Option.some.inj hjob)
    · right
      refine ⟨contact, hfirst, ?_, ?_⟩
      · intro c hc
        rw [hc.changeJob_eq] at hjob
        have hsame := Option.some.inj hjob
        exact Prod.ext (congrArg Job.mIntValue hsame) (congrArg Job.mBoolValue hsame)
      · rw [hcalls, calls, Option.toList_some, awaitings_append, awaitings_of_eq rfl,
          List.append_assoc, List.append_assoc]
        rfl

theorem logsChange_handled {job : Job} {rest : List Job} {reply : Option ByteString}
    (hqueue : a.mJobQ = job :: rest) (h : Handled setting a job rest reply b) :
    LogsChange setting a b := by
  have hother : job.mCommand ≠ .AWAITING →
      a.calls = a.gui.rung ++ (awaitings a.mResQ ++ awaitings rest) := by
    intro hne
    rw [calls, hqueue, awaitings_of_ne hne]
  have hpushed : ∀ {response : Job}, job.mCommand ≠ .AWAITING →
      response.mCommand = job.mCommand →
      a.gui.rung ++ (awaitings (a.mResQ ++ [response]) ++ awaitings rest) = a.calls := by
    intro response hne hcommand
    rw [hother hne, awaitings_append, awaitings_of_ne (hcommand ▸ hne)]
    simp [awaitings]
  cases h with
  | unlisted hcommand hreply =>
    exact logsChange_of_same rfl (hother (by simp [hcommand])).symm
  | listed hcommand hreply hupdate =>
    obtain rfl := updateContacts_job hupdate
    exact logsChange_of_listed (hother (by simp [hcommand]))
  | contacts hcommand => exact logsChange_of_same rfl (hpushed (by simp [hcommand]) rfl)
  | chat hcommand => exact logsChange_of_same rfl (hpushed (by simp [hcommand]) rfl)
  | pending hcommand => exact logsChange_of_same rfl (hpushed (by simp [hcommand]) rfl)
  | nothingPending hcommand =>
    exact logsChange_of_same rfl (hother (by simp [hcommand])).symm
  | delivered hcommand => exact logsChange_of_same rfl (hpushed (by simp [hcommand]) rfl)
  | awaiting hcommand =>
    refine logsChange_of_same rfl ?_
    rw [calls, calls, hqueue, awaitings_append, awaitings_of_eq hcommand,
      awaitings_of_eq (by simp [hcommand])]
    simp [awaitings]

theorem calls_responded {gui gui' : CentralGui} {job : Job} {jobs rest queue : List Job}
    (h : Responded gui job gui' jobs) :
    gui'.rung ++ (awaitings rest ++ awaitings (queue ++ jobs)) =
      gui.rung ++ (awaitings (job :: rest) ++ awaitings queue) := by
  have hmoved : job.mCommand = .AWAITING →
      gui.rung ++ [(job.mIntValue, job.mBoolValue)] ++ (awaitings rest ++ awaitings queue) =
        gui.rung ++ (awaitings (job :: rest) ++ awaitings queue) := by
    intro hcommand
    rw [awaitings_of_eq hcommand]
    simp
  cases h with
  | contacts hcommand =>
    have hnone : awaitings (if gui.firstDisplay then [Job.new .CHAT] else []) = [] := by
      cases gui.firstDisplay <;> rfl
    rw [awaitings_append, hnone, awaitings_of_ne (by simp [hcommand]), List.append_nil]
  | chats hcommand hloaded =>
    rw [awaitings_append, hloaded.jobs, awaitings_deliveredJobs, hloaded.rung,
      awaitings_of_ne (by simp [hcommand]), List.append_nil]
  | pending hcommand hloaded =>
    rw [awaitings_append, hloaded.jobs, awaitings_deliveredJobs, hloaded.rung,
      awaitings_of_ne (by simp [hcommand]), List.append_nil]
  | ignored hcommand => rw [List.append_nil, awaitings_of_ne (by simp [hcommand])]
  | ended hcommand hflag hwindow =>
    rw [List.append_nil]
    exact hmoved hcommand
  | rings hcommand hflag =>
    rw [List.append_nil]
    exact hmoved hcommand
  | dropped hcommand =>
    have hne : job.mCommand ≠ .AWAITING := by
      rcases hcommand with h | h | h
      all_goals simp [h]
    rw [List.append_nil, awaitings_of_ne hne]

theorem logsChange_step (h : step setting a event = .ok b) : LogsChange setting a b := by
  cases event with
  | tick =>
    rw [step] at h
    split at h
    · obtain rfl := Except.ok.inj h
      refine logsChange_of_same rfl ?_
      rw [calls, calls, repeatedTasks, awaitings_append]
      simp [awaitings, Job.new]
    · cases h
  | handle reply =>
    obtain ⟨job, rest, hqueue, hhandled⟩ := handled_of_handle h
    exact logsChange_handled hqueue hhandled
  | respond =>
    cases hqueue : a.mResQ with
    | nil =>
      rw [step, handleResponse, hqueue] at h
      obtain rfl := Except.ok.inj h
      exact logsChange_of_same rfl rfl
    | cons job rest =>
      obtain ⟨gui, jobs, hresponded, rfl⟩ := responded_of_handleResponse hqueue h
      refine logsChange_of_same rfl ?_
      rw [calls, calls, hqueue]
      exact calls_responded hresponded
  | receive chat =>
    rw [step] at h
    split at h
    · cases h
    · obtain rfl := Except.ok.inj h
      exact logsChange_of_same rfl rfl
  | delivered id =>
    obtain rfl := Except.ok.inj h
    exact logsChange_of_same rfl rfl

theorem inTurn_step_iff (ha : InTurn a.calls) (h : step setting a event = .ok b) :
    InTurn b.calls ↔ AnnouncesInTurn setting a event b := by
  rcases logsChange_step h with ⟨hsame, hnone⟩ | ⟨contact, hfirst, honly, hcalls⟩
  · rw [hsame]
    refine iff_of_true ha ?_
    intro c hc
    exact absurd hc (hnone c)
  · rw [hcalls, inTurn_append_singleton_iff ha]
    obtain ⟨old, hold, -, hne⟩ := hfirst.awaiting
    have hflip : contact.awaiting = !old.awaiting := Bool.eq_not.mpr (Ne.symm hne)
    dsimp only
    rw [hflip, Bool.not_inj_iff]
    constructor
    · intro hlast c hc other hother
      obtain ⟨hID, -⟩ := Prod.mk.inj (honly c hc)
      rw [hID] at hother ⊢
      rw [hold] at hother
      rw [← Option.some.inj hother, hlast]
    · intro hannounces
      exact hannounces contact hfirst old hold

def CallsInTurn (bus : JobBus) : Prop := InTurn bus.calls

theorem calls_inTurn_iff (setting : Setting) (mUser : ByteString) (server : List UserChat)
    (events : List Event) :
    Transition.AlwaysM (step setting) (fun _ _ b => CallsInTurn b)
        (start mUser setting server) events ↔
      Transition.AlwaysM (step setting) (AnnouncesInTurn setting)
        (start mUser setting server) events := by
  have hstart : CallsInTurn (start mUser setting server) := inTurn_nil
  apply Transition.alwaysM_congr_of_invariant hstart
  · intro a event b ha hstep
    exact inTurn_step_iff ha hstep
  · intro a event b ha hstep hb
    exact hb

/-- The log only grows, so a run whose last log is in turn announced in turn. -/
theorem announcesInTurn_of_runM {setting : Setting} {mUser : ByteString}
    {server : List UserChat} {events : List Event} {bus : JobBus}
    (hrun : Transition.runM (step setting) (start mUser setting server) events = .ok bus)
    (hcalls : CallsInTurn bus) :
    Transition.AlwaysM (step setting) (AnnouncesInTurn setting) (start mUser setting server)
      events := by
  apply (calls_inTurn_iff setting mUser server events).mp
  apply (Transition.alwaysM_of_runM _ hrun hcalls).2
  intro a event b hstep hb
  rcases logsChange_step hstep with ⟨hsame, -⟩ | ⟨contact, -, -, hgrown⟩
  · rw [CallsInTurn, ← hsame]
    exact hb
  · rw [CallsInTurn, hgrown] at hb
    exact inTurn_left hb

def WindowsOpen (gui : CentralGui) : Prop :=
  ∀ id, id ∈ gui.callersTable ↔ lastFlag id gui.rung = true

theorem windowsOpen_responded {gui gui' : CentralGui} {job : Job} {jobs : List Job}
    (hgui : WindowsOpen gui) (h : Responded gui job gui' jobs) : WindowsOpen gui' := by
  cases h with
  | contacts hcommand => exact hgui
  | chats hcommand hloaded =>
    intro id
    dsimp only
    rw [hloaded.callersTable, hloaded.rung]
    exact hgui id
  | pending hcommand hloaded =>
    intro id
    rw [hloaded.callersTable, hloaded.rung]
    exact hgui id
  | ignored hcommand => exact hgui
  | ended hcommand hflag hwindow =>
    intro id
    dsimp only
    rw [lastFlag_append_singleton, hflag, List.mem_filter, hgui id]
    by_cases hid : job.mIntValue = id
    · simp [hid]
    · simp [hid, Ne.symm hid]
  | rings hcommand hflag =>
    intro id
    dsimp only
    rw [lastFlag_append_singleton, hflag, List.mem_append, List.mem_filter, hgui id]
    by_cases hid : job.mIntValue = id
    · simp [hid]
    · simp [hid, Ne.symm hid]
  | dropped hcommand => exact hgui

theorem windowsOpen_step (ha : WindowsOpen a.gui) (h : step setting a event = .ok b) :
    WindowsOpen b.gui := by
  cases event with
  | tick =>
    rw [step] at h
    split at h
    · obtain rfl := Except.ok.inj h
      exact ha
    · cases h
  | handle reply =>
    obtain ⟨job, rest, -, hhandled⟩ := handled_of_handle h
    cases hhandled
    all_goals exact ha
  | respond =>
    cases hqueue : a.mResQ with
    | nil =>
      rw [step, handleResponse, hqueue] at h
      obtain rfl := Except.ok.inj h
      exact ha
    | cons job rest =>
      obtain ⟨gui, jobs, hresponded, rfl⟩ := responded_of_handleResponse hqueue h
      exact windowsOpen_responded ha hresponded
  | receive chat =>
    rw [step] at h
    split at h
    · cases h
    · obtain rfl := Except.ok.inj h
      exact ha
  | delivered id =>
    obtain rfl := Except.ok.inj h
    exact ha

structure Ringing (bus : JobBus) : Prop where
  inTurn : InTurn bus.calls
  windows : WindowsOpen bus.gui

theorem ringing_step (ha : Ringing a) (hannounces : AnnouncesInTurn setting a event b)
    (h : step setting a event = .ok b) : Ringing b where
  inTurn := (inTurn_step_iff ha.inTurn h).mpr hannounces
  windows := windowsOpen_step ha.windows h

theorem Ringing.ringsInTurn (ha : Ringing a) : RingsInTurn a := by
  obtain ⟨hcalls, hwindows⟩ := ha
  refine ⟨inTurn_left hcalls, ?_⟩
  intro job rest hqueue hcommand
  rw [hwindows job.mIntValue]
  rw [calls, hqueue, awaitings_of_eq hcommand, List.cons_append, ← List.singleton_append,
    ← List.append_assoc] at hcalls
  have hnext := (inTurn_append_singleton_iff (inTurn_left (inTurn_left hcalls)) _).mp
    (inTurn_left hcalls)
  dsimp only at hnext
  rw [hnext]
  simp

end

theorem rings_in_turn (setting : Setting) (mUser : ByteString) (server : List UserChat)
    (events : List Event)
    (h : Transition.AlwaysM (step setting) (AnnouncesInTurn setting)
      (start mUser setting server) events) {pre post : List Event} (hpre : events = pre ++ post)
    {bus : JobBus} (hrun : Transition.runM (step setting) (start mUser setting server) pre =
      .ok bus) : RingsInTurn bus := by
  have hstart : Ringing (start mUser setting server) :=
    ⟨inTurn_nil, fun id => by simp [start, CentralGui.new, lastFlag, flagsOf]⟩
  rw [hpre] at h
  have hstep : ∀ a event b, Ringing a → AnnouncesInTurn setting a event b →
      step setting a event = .ok b → Ringing b := fun _ _ _ => ringing_step
  have hringing := Transition.invariant_alwaysM hstart hstep (Transition.alwaysM_left h) hrun
  exact hringing.ringsInTurn

def morning : Setting := ⟨insertionOrder, ⟨str "2022-08-27", str "2022-08-26"⟩, 1⟩

def callerReply (awaiting : String) : ByteString :=
  str "201 id:2,username:mario,online:true,awaiting:" ++ str awaiting

def twoPolls (first second : String) : List Event :=
  [.handle (some (callerReply first)), .handle none, .respond, .handle (some []), .respond, .tick,
    .handle none, .handle (some (callerReply second)), .handle none]

set_option maxRecDepth 8000 in
theorem rings_in_turn_call :
    ∃ bus, Transition.runM (step morning) (start (str "john") morning [])
      (twoPolls "false" "true") = .ok bus ∧ bus.mResQ ≠ [] ∧ RingsInTurn bus := by
  refine ⟨_, rfl, List.cons_ne_nil _ _, ?_⟩
  have hone : InTurn [((2 : Int32), true)] :=
    (inTurn_append_singleton_iff inTurn_nil ((2 : Int32), true)).mpr rfl
  have hannounces : Transition.AlwaysM (step morning) (AnnouncesInTurn morning)
      (start (str "john") morning []) (twoPolls "false" "true") :=
    announcesInTurn_of_runM rfl hone
  exact rings_in_turn morning (str "john") [] (twoPolls "false" "true") hannounces
    (List.append_nil _).symm rfl

set_option maxRecDepth 8000 in
/-- The caller was calling when the client first saw it, so only the end of the call is
announced, and there is no window to close. -/
theorem rings_end_without_start :
    ∃ bus, Transition.runM (step morning) (start (str "john") morning [])
      (twoPolls "true" "false") = .ok bus ∧ ¬RingsInTurn bus ∧
      bus.handleResponse morning = .error .undefined := by
  refine ⟨_, rfl, ?_, rfl⟩
  rintro ⟨-, hnext⟩
  have hwindow := hnext _ _ rfl rfl
  exact absurd (hwindow.mpr rfl) (List.not_mem_nil)

end Skype.JobBus
