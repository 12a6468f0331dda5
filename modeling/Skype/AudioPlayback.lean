import Skype.AVStream
import Skype.Socket

/-!
# `AudioPlayback`

The packages that the peer sends are decoded into a queue, which the output device empties
while it is open. A package of another type sets the status to `Invalid`, and neither
`start` nor `stop` leaves that status again. The decoder is a parameter.
-/

namespace Skype

open Library

structure AudioConverter (Context : Type) where
  decode : Context → ByteString → ByteString × Context
  valid : Context → Bool
  makeValid : Context → Context

namespace Playback

inductive Status
  | started
  | stopped
  | invalid
  deriving DecidableEq

def maxTries : ℕ := 100

def dataType (data : Option Data) : DataType :=
  match data with
  | none => .empty
  | some data => data.type

/-- The `while` loop of `read_package` with `current` in the request; a receive that fails
leaves the request as it is. There is no result while the loop waits and when it gives up. -/
def awaitPackage (tries : ℕ) (current : Option Data) : List (Option Data) → Option Data
  | [] => if dataType current = .empty then none else current
  | received :: incoming =>
    if dataType current = .empty then
      if maxTries < tries then none else awaitPackage (tries + 1) (received.or current) incoming
    else current

def package : List (Option Data) → Option Data
  | [] => none
  | received :: incoming => awaitPackage 0 received incoming

end Playback

structure AudioPlayback (Context : Type) where
  mStatus : Playback.Status
  mDoneReceived : Bool
  mAudioQueue : List ByteString
  mAudioConverter : Context
  mAudioOutput : AudioDevice

namespace AudioPlayback

open Playback

variable {Context : Type}

def new (mDev : UInt32) (mAudioConverter : Context) : AudioPlayback Context :=
  ⟨.stopped, false, [], mAudioConverter, AudioDevice.new mDev⟩

def start (playback : AudioPlayback Context) : AudioPlayback Context :=
  if playback.mStatus = .stopped then
    { playback with
      mAudioOutput := playback.mAudioOutput.open'
      mDoneReceived := false
      mStatus := .started }
  else playback

def stop (playback : AudioPlayback Context) : AudioPlayback Context :=
  if playback.mStatus = .started then
    { playback with
      mAudioQueue := []
      mAudioOutput := playback.mAudioOutput.close
      mStatus := .stopped }
  else playback

def load (converter : AudioConverter Context) (playback : AudioPlayback Context) (tData : Data) :
    AudioPlayback Context :=
  if tData.type = .audio then
    let (decoded, mAudioConverter) := converter.decode playback.mAudioConverter tData.bytes
    { playback with
      mAudioQueue := playback.mAudioQueue ++ [decoded]
      mAudioConverter := if converter.valid mAudioConverter then mAudioConverter
        else converter.makeValid mAudioConverter }
  else { playback with mStatus := .invalid }

def readPackage (converter : AudioConverter Context) (playback : AudioPlayback Context)
    (incoming : List (Option Data)) : AudioPlayback Context :=
  match package incoming with
  | none => playback
  | some data =>
    if data.type = .done then { playback.stop with mDoneReceived := true }
    else playback.load converter data

def networkRead (converter : AudioConverter Context) (playback : AudioPlayback Context)
    (incoming : List (Option Data)) : AudioPlayback Context :=
  if playback.mStatus = .started then playback.readPackage converter incoming else playback

def audioOutputCallback (playback : AudioPlayback Context) : AudioPlayback Context :=
  if playback.mAudioOutput.mStatus = .opened then
    { playback with mAudioQueue := playback.mAudioQueue.tail }
  else playback

/-- Packages are read by `buffer` before `start`, and by the thread, whose last one can
come behind `stop`. -/
inductive Event
  | start
  | stop
  | read (incoming : List (Option Data))
  | callback

section

variable (converter : AudioConverter Context)

def step (playback : AudioPlayback Context) : Event → AudioPlayback Context
  | .start => playback.start
  | .stop => playback.stop
  | .read incoming => playback.readPackage converter incoming
  | .callback => playback.audioOutputCallback

structure Restarts (playback : AudioPlayback Context) : Prop where
  stopped : playback.stop.mStatus = .stopped
  closed : playback.stop.mAudioOutput.mStatus = .closed
  started : playback.stop.start.mStatus = .started
  opened : playback.stop.start.mAudioOutput.mStatus = .opened
  reads : ∀ bytes, (playback.stop.start.networkRead converter [some ⟨.audio, bytes⟩]).mAudioQueue =
    playback.stop.start.mAudioQueue ++
      [(converter.decode playback.stop.start.mAudioConverter bytes).1]

end

def RightType : Event → Prop
  | .read incoming => ∀ data ∈ package incoming, data.type = .audio ∨ data.type = .done
  | _ => True

instance : DecidablePred RightType
  | .read incoming => inferInstanceAs (Decidable (∀ data ∈ package incoming, _ ∨ _))
  | .start => isTrue trivial
  | .stop => isTrue trivial
  | .callback => isTrue trivial

structure Usable (playback : AudioPlayback Context) : Prop where
  status : playback.mStatus ≠ .invalid
  device : playback.mAudioOutput.mStatus =
    if playback.mStatus = .started then .opened else .closed

section

variable {converter : AudioConverter Context} {playback : AudioPlayback Context}

theorem Usable.stop (h : Usable playback) :
    playback.stop.mStatus = .stopped ∧ playback.stop.mAudioOutput.mStatus = .closed := by
  have hdevice := h.device
  rw [AudioPlayback.stop]
  split
  · next hstarted =>
    rw [if_pos hstarted] at hdevice
    exact ⟨rfl, congrArg AudioDevice.mStatus (if_pos hdevice)⟩
  · next hother =>
    rw [if_neg hother] at hdevice
    refine ⟨?_, hdevice⟩
    cases hstatus : playback.mStatus with
    | started => exact absurd hstatus hother
    | stopped => rfl
    | invalid => exact absurd hstatus h.status

theorem start_of_stopped (hstopped : playback.mStatus = .stopped)
    (hclosed : playback.mAudioOutput.mStatus = .closed) :
    playback.start.mStatus = .started ∧ playback.start.mAudioOutput.mStatus = .opened := by
  rw [AudioPlayback.start, if_pos hstopped]
  exact ⟨rfl, congrArg AudioDevice.mStatus (if_pos hclosed)⟩

theorem networkRead_audio (hstarted : playback.mStatus = .started) (bytes : ByteString) :
    (playback.networkRead converter [some ⟨.audio, bytes⟩]).mAudioQueue =
      playback.mAudioQueue ++ [(converter.decode playback.mAudioConverter bytes).1] := by
  rw [networkRead, if_pos hstarted]
  rfl

theorem Usable.restarts (h : Usable playback) : Restarts converter playback := by
  obtain ⟨hstopped, hclosed⟩ := h.stop
  obtain ⟨hstarted, hopened⟩ := start_of_stopped hstopped hclosed
  exact ⟨hstopped, hclosed, hstarted, hopened, networkRead_audio hstarted⟩

theorem not_restarts_of_invalid (h : playback.mStatus = .invalid) :
    ¬Restarts converter playback := by
  intro hrestarts
  have hstopped := hrestarts.stopped
  rw [AudioPlayback.stop, if_neg (by rw [h]; decide), h] at hstopped
  cases hstopped

theorem Usable.readPackage (h : Usable playback) {incoming : List (Option Data)}
    (htype : RightType (.read incoming)) : Usable (playback.readPackage converter incoming) := by
  rw [AudioPlayback.readPackage]
  cases hpackage : package incoming with
  | none => exact h
  | some data =>
    dsimp only
    split
    · obtain ⟨hstopped, hclosed⟩ := h.stop
      refine ⟨?_, ?_⟩
      · dsimp only
        rw [hstopped]
        decide
      · dsimp only
        rw [hstopped, hclosed]
        rfl
    · next hdone =>
      have haudio : data.type = .audio := (htype data hpackage).resolve_right hdone
      rw [load, if_pos haudio]
      exact ⟨h.status, h.device⟩

theorem mStatus_readPackage_of_wrong {incoming : List (Option Data)}
    (hwrong : ¬RightType (.read incoming)) :
    (playback.readPackage converter incoming).mStatus = .invalid := by
  rw [RightType] at hwrong
  simp only [not_forall, not_or] at hwrong
  obtain ⟨data, hpackage, haudio, hdone⟩ := hwrong
  have hsome : package incoming = some data := hpackage
  rw [AudioPlayback.readPackage, hsome]
  dsimp only
  rw [if_neg hdone, load, if_neg haudio]

theorem Usable.step (h : Usable playback) {event : Event} (htype : RightType event) :
    Usable (playback.step converter event) := by
  cases event with
  | start =>
    rw [AudioPlayback.step]
    by_cases hstopped : playback.mStatus = .stopped
    · have hdevice := h.device
      rw [hstopped] at hdevice
      obtain ⟨hstarted, hopened⟩ := start_of_stopped hstopped hdevice
      refine ⟨?_, ?_⟩
      · rw [hstarted]
        decide
      · rw [hstarted, hopened]
        rfl
    · rw [AudioPlayback.start, if_neg hstopped]
      exact h
  | stop =>
    obtain ⟨hstopped, hclosed⟩ := h.stop
    rw [AudioPlayback.step]
    refine ⟨?_, ?_⟩
    · rw [hstopped]
      decide
    · rw [hstopped, hclosed]
      rfl
  | read incoming => exact h.readPackage htype
  | callback =>
    rw [AudioPlayback.step, audioOutputCallback]
    split
    · exact ⟨h.status, h.device⟩
    · exact h

end

theorem usable_new {mDev : UInt32} (h : mDev ≠ 0) (mAudioConverter : Context) :
    Usable (new mDev mAudioConverter) := by
  have hstatus : Playback.Status.stopped ≠ .invalid := by decide
  exact ⟨hstatus, if_neg h⟩

/-- A playback can be stopped and started again in every state of a run exactly if its
device was opened and no package of another type was read. -/
theorem restarts_run_iff (converter : AudioConverter Context) (mDev : UInt32)
    (mAudioConverter : Context) (events : List Event) :
    (∀ pre, pre <+: events →
        Restarts converter (Transition.run (step converter) (new mDev mAudioConverter) pre)) ↔
      mDev ≠ 0 ∧ ∀ event ∈ events, RightType event := by
  constructor
  · intro h
    constructor
    · rintro rfl
      have hclosed := (h [] List.nil_prefix).closed
      cases hclosed
    · intro event hevent
      by_contra hwrong
      obtain ⟨pre, post, rfl⟩ := List.append_of_mem hevent
      have hprefix : pre ++ [event] <+: pre ++ event :: post :=
        ⟨post, by rw [List.append_assoc, List.singleton_append]⟩
      have hrestarts := h _ hprefix
      rw [Transition.run, List.foldl_append] at hrestarts
      cases event with
      | read incoming =>
        exact not_restarts_of_invalid (mStatus_readPackage_of_wrong hwrong) hrestarts
      | start => exact hwrong trivial
      | stop => exact hwrong trivial
      | callback => exact hwrong trivial
  · rintro ⟨hdev, htypes⟩ pre hprefix
    have hpre : Transition.Always (step converter) (fun _ event => RightType event)
        (new mDev mAudioConverter) pre := by
      intro before event after hsplit
      apply htypes event
      apply hprefix.subset
      rw [hsplit]
      exact List.mem_append_right before List.mem_cons_self
    exact (Transition.invariant_run (fun _ _ hs htype => hs.step htype) (usable_new hdev _)
      hpre).restarts

theorem mStatus_step_of_invalid (converter : AudioConverter Context)
    {playback : AudioPlayback Context} (h : playback.mStatus = .invalid) (event : Event) :
    (playback.step converter event).mStatus = .invalid := by
  have hstopped : playback.mStatus ≠ .stopped := by
    rw [h]
    decide
  have hstarted : playback.mStatus ≠ .started := by
    rw [h]
    decide
  have hstop : playback.stop = playback := if_neg hstarted
  cases event with
  | start =>
    rw [AudioPlayback.step, AudioPlayback.start, if_neg hstopped]
    exact h
  | stop =>
    rw [AudioPlayback.step, hstop]
    exact h
  | read incoming =>
    rw [AudioPlayback.step, AudioPlayback.readPackage]
    cases package incoming with
    | none => exact h
    | some data =>
      dsimp only
      rw [hstop]
      split
      · exact h
      · rw [load]
        split
        · exact h
        · rfl
  | callback =>
    rw [AudioPlayback.step, audioOutputCallback]
    split
    · exact h
    · exact h

theorem mStatus_run_of_invalid (converter : AudioConverter Context)
    {playback : AudioPlayback Context} (h : playback.mStatus = .invalid) (events : List Event) :
    (Transition.run (step converter) playback events).mStatus = .invalid := by
  induction events generalizing playback with
  | nil => exact h
  | cons event events ih => exact ih (mStatus_step_of_invalid converter h event)

def plainConverter : AudioConverter Unit := ⟨fun _ bytes => (bytes, ()), fun _ => true, id⟩

/-- One package of video, while the first packages are buffered. -/
theorem video_ends_playback :
    ¬∀ pre, pre <+: [.read [some ⟨.video, [1]⟩], .start, .stop] →
        Restarts plainConverter (Transition.run (step plainConverter) (new 2 ()) pre) := by
  intro h
  have hrestarts := h [.read [some ⟨.video, [1]⟩]] ⟨[.start, .stop], rfl⟩
  exact not_restarts_of_invalid rfl hrestarts

end AudioPlayback

end Skype
