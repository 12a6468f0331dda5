import Skype.Library.Transition

/-!
# `AVStream`

A stream takes audio from the microphone or video from the webcam, which it shares with
the rest of the call. `stop` stores the new status before it looks for the old one, so it
releases neither of them.
-/

namespace Skype

open Library

namespace AudioDevice

inductive Status
  | invalid
  | closed
  | opened
  deriving DecidableEq

end AudioDevice

structure AudioDevice where
  mDev : UInt32
  mStatus : AudioDevice.Status
  deriving DecidableEq

namespace AudioDevice

def new (mDev : UInt32) : AudioDevice := ⟨mDev, if mDev = 0 then .invalid else .closed⟩

def open' (device : AudioDevice) : AudioDevice :=
  if device.mStatus = .closed then { device with mStatus := .opened } else device

def close (device : AudioDevice) : AudioDevice :=
  if device.mStatus = .opened then { device with mStatus := .closed } else device

end AudioDevice

namespace Webcam

inductive Status
  | uninitialized
  | ready
  deriving DecidableEq

end Webcam

structure Webcam where
  isOpened : Bool
  mValid : Bool
  mStatus : Webcam.Status
  deriving DecidableEq

namespace Webcam

def new : Webcam := ⟨false, true, .uninitialized⟩

/-- A camera that does not open is `Ready` as well. -/
def init (webcam : Webcam) (opens : Bool) : Webcam :=
  { isOpened := opens
    mValid := if opens then webcam.mValid else false
    mStatus := .ready }

def release (webcam : Webcam) : Webcam :=
  { webcam with isOpened := false, mStatus := .uninitialized }

end Webcam

namespace AVStream

inductive Status
  | started
  | stopped
  | invalid
  deriving DecidableEq

inductive StreamType
  | audio
  | video
  deriving DecidableEq

end AVStream

structure AVStream where
  mInput : AudioDevice
  mStatus : AVStream.Status
  mWebcam : Webcam
  mStreamType : AVStream.StreamType
  deriving DecidableEq

namespace AVStream

def new (mDev : UInt32) (tWebcam : Webcam) (tType : StreamType) : AVStream :=
  ⟨AudioDevice.new mDev, .stopped, tWebcam, tType⟩

def setStreamType (stream : AVStream) (tType : StreamType) : AVStream :=
  { stream with mStreamType := tType }

def start (stream : AVStream) : AVStream :=
  if stream.mStatus = .stopped then
    match stream.mStreamType with
    | .audio => { stream with mInput := stream.mInput.open', mStatus := .started }
    | .video => { stream with mStatus := .started }
  else stream

def stop (stream : AVStream) : AVStream :=
  let stream := { stream with mStatus := .stopped }
  if stream.mStatus = .started then
    let stream := if stream.mStreamType = .audio then { stream with mInput := stream.mInput.close }
      else stream
    if stream.mStreamType = .video ∧ stream.mWebcam.mStatus = .ready then
      { stream with mWebcam := stream.mWebcam.release }
    else stream
  else stream

theorem stop_eq (stream : AVStream) : stream.stop = { stream with mStatus := .stopped } := by
  have hstored : Status.stopped ≠ Status.started := by decide
  rw [stop]
  exact if_neg hstored

inductive Event
  | setStreamType (tType : StreamType)
  | start
  | stop
  | initWebcam (opens : Bool)
  | releaseWebcam

structure Session where
  stream : AVStream
  starts : List StreamType
  onlyAudio : Bool

def Session.begin (mDev : UInt32) (tWebcam : Webcam) (tType : StreamType) : Session :=
  ⟨new mDev tWebcam tType, [], decide (tType = .audio)⟩

def Session.step (s : Session) : Event → Session
  | .setStreamType tType =>
    { s with
      stream := s.stream.setStreamType tType
      onlyAudio := s.onlyAudio && decide (tType = .audio) }
  | .start => { s with stream := s.stream.start, starts := s.starts ++ [s.stream.mStreamType] }
  | .stop => { s with stream := s.stream.stop, starts := [] }
  | .initWebcam opens =>
    { s with stream := { s.stream with mWebcam := s.stream.mWebcam.init opens } }
  | .releaseWebcam => { s with stream := { s.stream with mWebcam := s.stream.mWebcam.release } }

structure Releases (before after : Session) : Prop where
  microphone : .audio ∈ before.starts → after.stream.mInput.mStatus = .closed
  camera : .video ∈ before.starts → before.stream.mWebcam.mStatus = .ready →
    after.stream.mWebcam.mStatus = .uninitialized

structure InStep (s : Session) (event : Event) : Prop where
  releases : event = .stop → Releases s (s.step event)
  started : (s.step event).onlyAudio = true → (s.step event).stream.mInput.mStatus = .opened →
    (s.step event).stream.mStatus = .started

def NothingToRelease (s : Session) : Event → Prop
  | .stop => s.starts.head? ≠ some .audio ∧
      (.video ∈ s.starts → s.stream.mWebcam.mStatus ≠ .ready)
  | _ => True

instance (s : Session) : DecidablePred (NothingToRelease s)
  | .stop => inferInstanceAs (Decidable (_ ≠ _ ∧ (_ ∈ _ → _ ≠ _)))
  | .setStreamType _ => isTrue trivial
  | .start => isTrue trivial
  | .initWebcam _ => isTrue trivial
  | .releaseWebcam => isTrue trivial

structure Tracks (s : Session) : Prop where
  status : s.stream.mStatus = if s.starts = [] then .stopped else .started
  microphone : s.stream.mInput.mStatus =
    if s.starts.head? = some .audio then .opened else .closed

section

variable {s : Session}

theorem tracks_begin {mDev : UInt32} (h : mDev ≠ 0) (tWebcam : Webcam) (tType : StreamType) :
    Tracks (Session.begin mDev tWebcam tType) :=
  ⟨rfl, if_neg h⟩

theorem Tracks.start (h : Tracks s) : Tracks (s.step .start) := by
  have hstatus := h.status
  have hmicrophone := h.microphone
  rw [Session.step, AVStream.start]
  cases hstarts : s.starts with
  | nil =>
    rw [hstarts] at hstatus hmicrophone
    have hstopped : s.stream.mStatus = .stopped := hstatus
    rw [if_pos hstopped]
    cases s.stream.mStreamType with
    | audio => exact ⟨rfl, congrArg AudioDevice.mStatus (if_pos hmicrophone)⟩
    | video => exact ⟨rfl, hmicrophone⟩
  | cons first starts =>
    rw [hstarts] at hstatus hmicrophone
    have hstarted : s.stream.mStatus = .started := hstatus
    have hrunning : s.stream.mStatus ≠ .stopped := by
      rw [hstarted]
      decide
    rw [if_neg hrunning]
    exact ⟨hstarted, hmicrophone⟩

theorem Tracks.stop (h : Tracks s) (hclosed : s.starts.head? ≠ some .audio) :
    Tracks (s.step .stop) := by
  have hmicrophone := h.microphone
  rw [if_neg hclosed] at hmicrophone
  rw [Session.step, stop_eq]
  exact ⟨rfl, hmicrophone⟩

theorem Tracks.step (h : Tracks s) {event : Event} (hnothing : NothingToRelease s event) :
    Tracks (s.step event) := by
  cases event with
  | setStreamType tType => exact ⟨h.status, h.microphone⟩
  | start => exact h.start
  | stop => exact h.stop hnothing.1
  | initWebcam opens => exact ⟨h.status, h.microphone⟩
  | releaseWebcam => exact ⟨h.status, h.microphone⟩

theorem Tracks.started (h : Tracks s) (hopened : s.stream.mInput.mStatus = .opened) :
    s.stream.mStatus = .started := by
  rw [h.microphone] at hopened
  split at hopened
  · next hfirst =>
    rw [h.status, if_neg]
    intro hnil
    rw [hnil] at hfirst
    cases hfirst
  · cases hopened

theorem releases_iff (h : Tracks s) :
    Releases s (s.step .stop) ↔ NothingToRelease s .stop := by
  have hmicrophone := h.microphone
  rw [Session.step, stop_eq]
  constructor
  · intro hreleases
    constructor
    · intro hfirst
      have hclosed := hreleases.microphone (List.mem_of_head? hfirst)
      rw [if_pos hfirst] at hmicrophone
      rw [hmicrophone] at hclosed
      cases hclosed
    · intro hvideo hready
      have hreleased := hreleases.camera hvideo hready
      rw [hready] at hreleased
      cases hreleased
  · rintro ⟨hfirst, hvideo⟩
    rw [if_neg hfirst] at hmicrophone
    exact ⟨fun _ => hmicrophone, fun hmem hready => absurd hready (hvideo hmem)⟩

theorem inStep_iff (h : Tracks s) (event : Event) : InStep s event ↔ NothingToRelease s event := by
  constructor
  · intro hstep
    cases event with
    | stop => exact (releases_iff h).mp (hstep.releases rfl)
    | setStreamType tType => trivial
    | start => trivial
    | initWebcam opens => trivial
    | releaseWebcam => trivial
  · intro hnothing
    refine ⟨?_, fun _ hopened => (h.step hnothing).started hopened⟩
    rintro rfl
    exact (releases_iff h).mpr hnothing

end

/-- Along a run the devices keep in step with the stream exactly if no `stop` has anything
to release. -/
theorem inStep_run_iff {mDev : UInt32} (h : mDev ≠ 0) (tWebcam : Webcam) (tType : StreamType)
    (events : List Event) :
    Transition.Always Session.step InStep (Session.begin mDev tWebcam tType) events ↔
      Transition.Always Session.step NothingToRelease (Session.begin mDev tWebcam tType) events :=
  Transition.always_congr_of_invariant (tracks_begin h tWebcam tType)
    (fun _ event hs => inStep_iff hs event)
    fun _ event hs hstep => hs.step ((inStep_iff hs event).mp hstep)

theorem inStep_run_released :
    Transition.Always Session.step InStep (Session.begin 2 Webcam.new .video)
      [.initWebcam true, .start, .releaseWebcam, .stop, .setStreamType .audio, .start] :=
  (inStep_run_iff (by decide) Webcam.new .video _).mpr (by decide)

/-- The microphone of a stream stays open, and so does the webcam. -/
theorem stop_keeps_microphone :
    ¬Transition.Always Session.step InStep (Session.begin 2 Webcam.new .audio) [.start, .stop] ∧
      ¬Transition.Always Session.step InStep (Session.begin 2 Webcam.new .video)
        [.initWebcam true, .start, .stop] := by
  constructor
  · intro h
    have hclosed := ((h [.start] .stop [] rfl).releases rfl).microphone (by decide)
    cases hclosed
  · intro h
    have hreleased := ((h [.initWebcam true, .start] .stop [] rfl).releases rfl).camera
      (by decide) rfl
    cases hreleased

end AVStream

end Skype
