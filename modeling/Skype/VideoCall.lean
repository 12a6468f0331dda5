import Skype.AudioPlayback
import Skype.Library.Outputs

/-!
# The pictures of a call

The camera is that of the call: `Webcam::init` opens it, the thread of the stream captures
pictures for the peer, and the playback releases it when it stops. What the peer sends is
decoded into a queue, from which the threads of the call windows take what they show.
-/

namespace Skype

open Library
open Library.Transition (Always Since outputs run)

variable {Mat : Type}

namespace Webcam

/-- What the camera and `imencode` answer to one capture: the two pictures that are read,
if they are not empty, the result for the second one and what is in the buffer then. -/
structure Shot (Mat : Type) where
  first : Option Mat
  second : Option Mat
  encoded : Bool × ByteString

def read (webcam : Webcam) (frame : Option Mat) : Option Mat :=
  if webcam.isOpened then frame else none

def encodeFrame (webcam : Webcam) (shot : Shot Mat) : ByteString × Webcam :=
  if webcam.mValid then
    match webcam.read shot.second with
    | none => ([], { webcam with mValid := false })
    | some _ =>
      (shot.encoded.2, if shot.encoded.1 then webcam else { webcam with mValid := false })
  else ([], webcam)

def captureOne (webcam : Webcam) (shot : Shot Mat) : ByteString × Webcam :=
  if webcam.mValid = false then ([], webcam)
  else if webcam.mStatus = .uninitialized then ([], webcam)
  else
    match webcam.read shot.first with
    | none => ([], webcam)
    | some _ =>
      let (data, webcam) := webcam.encodeFrame shot
      (data, if webcam.mValid = false then { webcam with mValid := true } else webcam)

def decodeOne (imdecode : ByteString → Option Mat) (tFrame : ByteString) (tOutput : List Mat) :
    List Mat :=
  if tFrame = [] then tOutput
  else
    match imdecode tFrame with
    | none => tOutput
    | some mat => tOutput ++ [mat]

end Webcam

structure VideoPlayback (Mat : Type) where
  mStatus : Playback.Status
  mDoneReceived : Bool
  mQueue : List Mat

namespace VideoPlayback

def new : VideoPlayback Mat := ⟨.stopped, false, []⟩

def start (playback : VideoPlayback Mat) : VideoPlayback Mat :=
  if playback.mStatus = .stopped then { playback with mDoneReceived := false, mStatus := .started }
  else playback

def stop (playback : VideoPlayback Mat) (webcam : Webcam) : VideoPlayback Mat × Webcam :=
  if playback.mStatus = .started then
    ({ playback with mQueue := [], mStatus := .stopped },
      if webcam.mStatus = .ready then webcam.release else webcam)
  else (playback, webcam)

def load (imdecode : ByteString → Option Mat) (playback : VideoPlayback Mat) (tVideoData : Data) :
    VideoPlayback Mat :=
  if tVideoData.type = .video then
    { playback with mQueue := Webcam.decodeOne imdecode tVideoData.bytes playback.mQueue }
  else { playback with mStatus := .invalid }

def readPackage (imdecode : ByteString → Option Mat) (playback : VideoPlayback Mat)
    (webcam : Webcam) (incoming : List (Option Data)) : VideoPlayback Mat × Webcam :=
  match Playback.package incoming with
  | none => (playback, webcam)
  | some data =>
    if data.type = .done then
      let (playback, webcam) := playback.stop webcam
      ({ playback with mDoneReceived := true }, webcam)
    else (playback.load imdecode data, webcam)

end VideoPlayback

namespace CallGui

inductive Thread
  | looking
  | taking
  | ended
  deriving DecidableEq

end CallGui

structure CallGui where
  mStopStream : Bool
  threads : List CallGui.Thread

def CallGui.new : CallGui := ⟨false, []⟩

/-- The video of one call object, whose camera is that of its stream, and of the windows
that were made for its calls; none of them is deleted while another is made. -/
structure VideoCall (Mat : Type) where
  mVideoStream : AVStream
  mVideoPlayback : VideoPlayback Mat
  windows : List CallGui

namespace VideoCall

def new (mDev : UInt32) : VideoCall Mat :=
  ⟨AVStream.new mDev Webcam.new .video, VideoPlayback.new, []⟩

def mWebcam (call : VideoCall Mat) : Webcam := call.mVideoStream.mWebcam

/-- A round of the thread of `stream_video` has what the camera answers and whether there is
a connection; `advance` is the next step of a thread of a window. `videoStream` is the job
`VIDEO_STREAM`, for the window that was made last. -/
inductive Event (Mat : Type)
  | init (opens : Bool)
  | startStream
  | stopStream
  | round (shot : Webcam.Shot Mat) (connected : Bool)
  | startPlayback
  | stopPlayback
  | read (incoming : List (Option Data))
  | newWindow
  | videoStream
  | advance (window i : ℕ)
  | hangupClicked (window : ℕ)

def withWebcam (call : VideoCall Mat) (mWebcam : Webcam) : VideoCall Mat :=
  { call with mVideoStream := { call.mVideoStream with mWebcam } }

def thread (call : VideoCall Mat) (window i : ℕ) : Option CallGui.Thread :=
  call.windows[window]?.bind fun gui => gui.threads[i]?

def setThread (call : VideoCall Mat) (window i : ℕ) (thread : CallGui.Thread) : VideoCall Mat :=
  { call with
    windows := call.windows.modify window fun gui =>
      { gui with threads := gui.threads.set i thread } }

def stopped (call : VideoCall Mat) (window : ℕ) : Bool :=
  (call.windows[window]?.map CallGui.mStopStream).getD false

/-- The next step of a thread: the look at the flag, or `pop_try` with the picture that it
takes shown at once. The order of what two threads show is that of their `pop_try`. -/
def advance (call : VideoCall Mat) (window i : ℕ) : VideoCall Mat :=
  match call.thread window i with
  | some .looking =>
    call.setThread window i (if call.stopped window then .ended else .taking)
  | some .taking =>
    { call with mVideoPlayback.mQueue := call.mVideoPlayback.mQueue.tail }.setThread window i
      .looking
  | some .ended => call
  | none => call

def Streams (call : VideoCall Mat) (connected : Bool) : Prop :=
  call.mVideoStream.mStatus = .started ∧ connected = true

instance (call : VideoCall Mat) (connected : Bool) : Decidable (call.Streams connected) :=
  inferInstanceAs (Decidable (_ ∧ _))

def step (imdecode : ByteString → Option Mat) (call : VideoCall Mat) : Event Mat → VideoCall Mat
  | .init opens => call.withWebcam (call.mWebcam.init opens)
  | .startStream => { call with mVideoStream := (call.mVideoStream.setStreamType .video).start }
  | .stopStream => { call with mVideoStream := call.mVideoStream.stop }
  | .round shot connected =>
    if call.Streams connected then call.withWebcam (call.mWebcam.captureOne shot).2 else call
  | .startPlayback => { call with mVideoPlayback := call.mVideoPlayback.start }
  | .stopPlayback =>
    let (mVideoPlayback, mWebcam) := call.mVideoPlayback.stop call.mWebcam
    { call with mVideoPlayback }.withWebcam mWebcam
  | .read incoming =>
    let (mVideoPlayback, mWebcam) :=
      call.mVideoPlayback.readPackage imdecode call.mWebcam incoming
    { call with mVideoPlayback }.withWebcam mWebcam
  | .newWindow => { call with windows := call.windows ++ [CallGui.new] }
  | .videoStream =>
    { call with
      windows := call.windows.modify (call.windows.length - 1) fun gui =>
        { gui with threads := gui.threads ++ [.looking] } }
  | .advance window i => call.advance window i
  | .hangupClicked window =>
    { call with windows := call.windows.modify window fun gui => { gui with mStopStream := true } }

def sent (call : VideoCall Mat) : Event Mat → List Data
  | .round shot connected =>
    if call.Streams connected then [⟨.video, (call.mWebcam.captureOne shot).1⟩]
    else if connected then [⟨.done, []⟩]
    else []
  | _ => []

def shown (call : VideoCall Mat) : Event Mat → List Mat
  | .advance window i =>
    if call.thread window i = some .taking then call.mVideoPlayback.mQueue.head?.toList else []
  | _ => []

def shownIn (window : ℕ) (call : VideoCall Mat) (event : Event Mat) : List Mat :=
  match event with
  | .advance other _ => if other = window then call.shown event else []
  | _ => []

def Releases (call : VideoCall Mat) : Event Mat → Prop
  | .stopPlayback => call.mVideoPlayback.mStatus = .started
  | .read incoming => call.mVideoPlayback.mStatus = .started ∧
      ∃ data, Playback.package incoming = some data ∧ data.type = .done
  | _ => False

structure Sound (call : VideoCall Mat) : Prop where
  stream : call.mVideoStream.mStatus ≠ .invalid
  camera : call.mWebcam.mValid = true → call.mWebcam.mStatus = .ready →
    call.mWebcam.isOpened = true

section

variable {imdecode : ByteString → Option Mat} {call : VideoCall Mat} {event : Event Mat}

theorem captureOne_webcam (webcam : Webcam) (shot : Webcam.Shot Mat) :
    (webcam.captureOne shot).2 = webcam := by
  rw [Webcam.captureOne]
  split
  · rfl
  · next hvalid =>
    rw [Bool.not_eq_false] at hvalid
    have hsame : ({ webcam with mValid := true } : Webcam) = webcam := by
      rw [← hvalid]
    split
    · rfl
    · cases webcam.read shot.first with
      | none => rfl
      | some mat =>
        dsimp only
        rw [Webcam.encodeFrame, if_pos hvalid]
        cases webcam.read shot.second with
        | none => exact hsame
        | some mat =>
          cases hencoded : shot.encoded.1 with
          | false => exact hsame
          | true => exact if_neg (by rw [if_pos rfl, hvalid]; decide)

theorem captureOne_ne_nil_iff {webcam : Webcam} {shot : Webcam.Shot Mat} :
    (webcam.captureOne shot).1 ≠ [] ↔
      (webcam.mValid = true ∧ webcam.mStatus = .ready ∧ webcam.isOpened = true) ∧
        shot.first.isSome = true ∧ shot.second.isSome = true ∧ shot.encoded.2 ≠ [] := by
  obtain ⟨isOpened, mValid, mStatus⟩ := webcam
  obtain ⟨first, second, encoded⟩ := shot
  cases isOpened <;> cases mValid <;> cases mStatus <;> cases first <;> cases second <;>
    simp [Webcam.captureOne, Webcam.read, Webcam.encodeFrame]

theorem captureOne_eq {webcam : Webcam} {shot : Webcam.Shot Mat}
    (h : (webcam.captureOne shot).1 ≠ []) : (webcam.captureOne shot).1 = shot.encoded.2 := by
  obtain ⟨⟨hvalid, hready, hopened⟩, hfirst, hsecond, -⟩ := captureOne_ne_nil_iff.mp h
  obtain ⟨first, hfirst⟩ := Option.isSome_iff_exists.mp hfirst
  obtain ⟨second, hsecond⟩ := Option.isSome_iff_exists.mp hsecond
  simp [Webcam.captureOne, Webcam.read, Webcam.encodeFrame, hvalid, hready, hopened, hfirst,
    hsecond]

theorem step_round (call : VideoCall Mat) (shot : Webcam.Shot Mat) (connected : Bool) :
    call.step imdecode (.round shot connected) = call := by
  rw [step]
  split
  · rw [captureOne_webcam]
    rfl
  · rfl

theorem start_video (stream : AVStream) : (stream.setStreamType .video).start =
    { stream with
      mStatus := if stream.mStatus = .stopped then .started else stream.mStatus
      mStreamType := .video } := by
  obtain ⟨mInput, mStatus, mWebcam, mStreamType⟩ := stream
  cases mStatus with
  | started => rfl
  | stopped => rfl
  | invalid => rfl

theorem stop_webcam (playback : VideoPlayback Mat) (webcam : Webcam) :
    (playback.stop webcam).2 =
      if playback.mStatus = .started ∧ webcam.mStatus = .ready then webcam.release else webcam := by
  rw [VideoPlayback.stop]
  by_cases hstarted : playback.mStatus = .started
  · rw [if_pos hstarted]
    by_cases hready : webcam.mStatus = .ready
    · rw [if_pos hready, if_pos ⟨hstarted, hready⟩]
    · rw [if_neg hready, if_neg fun h => hready h.2]
  · rw [if_neg hstarted, if_neg fun h => hstarted h.1]

theorem readPackage_webcam (playback : VideoPlayback Mat) (webcam : Webcam)
    (incoming : List (Option Data)) :
    (playback.readPackage imdecode webcam incoming).2 =
      if (playback.mStatus = .started ∧ ∃ data, Playback.package incoming = some data ∧
        data.type = .done) ∧ webcam.mStatus = .ready then webcam.release else webcam := by
  rw [VideoPlayback.readPackage]
  cases hpackage : Playback.package incoming with
  | none => simp
  | some data =>
    by_cases hdone : data.type = .done
    · dsimp only
      rw [if_pos hdone]
      dsimp only
      rw [stop_webcam]
      simp [hdone]
    · dsimp only
      rw [if_neg hdone]
      simp [hdone]

variable (imdecode) in
theorem step_webcam (call : VideoCall Mat) (event : Event Mat)
    (hinit : ∀ opens, event ≠ .init opens) :
    (call.Releases event ∧ call.mWebcam.mStatus = .ready ∧
        (call.step imdecode event).mWebcam = call.mWebcam.release) ∨
      (¬(call.Releases event ∧ call.mWebcam.mStatus = .ready) ∧
        (call.step imdecode event).mWebcam = call.mWebcam) := by
  cases event with
  | init opens => exact absurd rfl (hinit opens)
  | startStream =>
    refine Or.inr ⟨fun h => h.1, ?_⟩
    rw [step, start_video]
    rfl
  | stopStream =>
    refine Or.inr ⟨fun h => h.1, ?_⟩
    rw [step, AVStream.stop_eq]
    rfl
  | round shot connected =>
    rw [step_round]
    exact Or.inr ⟨fun h => h.1, rfl⟩
  | startPlayback => exact Or.inr ⟨fun h => h.1, rfl⟩
  | stopPlayback =>
    have hwebcam : (call.step imdecode .stopPlayback).mWebcam =
        (call.mVideoPlayback.stop call.mWebcam).2 := rfl
    rw [hwebcam, stop_webcam]
    by_cases hreleases : call.mVideoPlayback.mStatus = .started ∧ call.mWebcam.mStatus = .ready
    · rw [if_pos hreleases]
      exact Or.inl ⟨hreleases.1, hreleases.2, rfl⟩
    · rw [if_neg hreleases]
      exact Or.inr ⟨hreleases, rfl⟩
  | read incoming =>
    have hwebcam : (call.step imdecode (.read incoming)).mWebcam =
        (call.mVideoPlayback.readPackage imdecode call.mWebcam incoming).2 := rfl
    rw [hwebcam, readPackage_webcam]
    by_cases hreleases : (call.mVideoPlayback.mStatus = .started ∧
        ∃ data, Playback.package incoming = some data ∧ data.type = .done) ∧
          call.mWebcam.mStatus = .ready
    · rw [if_pos hreleases]
      exact Or.inl ⟨hreleases.1, hreleases.2, rfl⟩
    · rw [if_neg hreleases]
      exact Or.inr ⟨hreleases, rfl⟩
  | newWindow => exact Or.inr ⟨fun h => h.1, rfl⟩
  | videoStream => exact Or.inr ⟨fun h => h.1, rfl⟩
  | advance window i =>
    refine Or.inr ⟨fun h => h.1, ?_⟩
    rw [step, advance]
    split
    · rfl
    · rfl
    · rfl
    · rfl
  | hangupClicked window => exact Or.inr ⟨fun h => h.1, rfl⟩

theorem step_status (call : VideoCall Mat) (event : Event Mat) :
    (call.step imdecode event).mVideoStream.mStatus =
      match event with
      | .startStream =>
        if call.mVideoStream.mStatus = .stopped then .started else call.mVideoStream.mStatus
      | .stopStream => .stopped
      | _ => call.mVideoStream.mStatus := by
  cases event with
  | startStream => rw [step, start_video]
  | stopStream => rw [step, AVStream.stop_eq]
  | round shot connected => rw [step_round]
  | advance window i =>
    rw [step, advance]
    split
    · rfl
    · rfl
    · rfl
    · rfl
  | _ => rfl

theorem sound_new (mDev : UInt32) : Sound (new mDev : VideoCall Mat) := ⟨nofun, nofun⟩

theorem Sound.step (h : Sound call) (event : Event Mat) : Sound (call.step imdecode event) := by
  constructor
  · rw [step_status]
    cases event with
    | startStream =>
      dsimp only
      split
      · nofun
      · exact h.stream
    | stopStream => nofun
    | _ => exact h.stream
  · by_cases hinit : ∃ opens, event = .init opens
    · obtain ⟨opens, rfl⟩ := hinit
      intro hvalid _
      cases opens with
      | true => rfl
      | false => cases hvalid
    · obtain ⟨-, -, hwebcam⟩ | ⟨-, hwebcam⟩ :=
        step_webcam imdecode call event (not_exists.mp hinit)
      · rw [hwebcam]
        exact fun _ hready => nomatch hready
      · rw [hwebcam]
        exact h.camera

variable (imdecode) in
theorem ready_step_iff (call : VideoCall Mat) (event : Event Mat) :
    (call.step imdecode event).mWebcam.mStatus = .ready ↔
      (∃ opens, event = .init opens) ∨ call.mWebcam.mStatus = .ready ∧ ¬call.Releases event := by
  by_cases hinit : ∃ opens, event = .init opens
  · obtain ⟨opens, rfl⟩ := hinit
    exact iff_of_true rfl (Or.inl ⟨opens, rfl⟩)
  · obtain ⟨hreleases, hready, hwebcam⟩ | ⟨hkept, hwebcam⟩ :=
      step_webcam imdecode call event (not_exists.mp hinit)
    · rw [hwebcam]
      exact iff_of_false nofun (not_or.mpr ⟨hinit, fun h => h.2 hreleases⟩)
    · rw [hwebcam]
      simp only [hinit, false_or]
      exact ⟨fun hready => ⟨hready, fun hreleases => hkept ⟨hreleases, hready⟩⟩, And.left⟩

theorem started_step_iff (h : Sound call) (event : Event Mat) :
    (call.step imdecode event).mVideoStream.mStatus = .started ↔
      event = .startStream ∨ call.mVideoStream.mStatus = .started ∧ event ≠ .stopStream := by
  have hvalid := h.stream
  rw [step_status]
  cases event with
  | startStream => cases hstatus : call.mVideoStream.mStatus <;> simp_all
  | stopStream => simp
  | _ => simp

variable (imdecode) in
theorem valid_step_iff (call : VideoCall Mat) (event : Event Mat) :
    (call.step imdecode event).mWebcam.mValid = true ↔
      call.mWebcam.mValid = true ∧ ¬event = .init false := by
  by_cases hinit : ∃ opens, event = .init opens
  · obtain ⟨opens, rfl⟩ := hinit
    cases opens <;> simp [step, withWebcam, mWebcam, Webcam.init]
  · have hother : event ≠ .init false := fun h => hinit ⟨false, h⟩
    obtain ⟨-, -, hwebcam⟩ | ⟨-, hwebcam⟩ :=
      step_webcam imdecode call event (not_exists.mp hinit)
    · rw [hwebcam]
      simp [hother, Webcam.release]
    · rw [hwebcam]
      simp [hother]

theorem sound_run (imdecode : ByteString → Option Mat) (mDev : UInt32)
    (events : List (Event Mat)) : Sound (run (step imdecode) (new mDev) events) := by
  have hall : Always (step imdecode) (fun _ _ => True) (new mDev) events :=
    fun _ _ _ _ => trivial
  exact Transition.invariant_run (fun _ event h _ => h.step event) (sound_new mDev) hall

theorem picture_mem_sent_iff {shot : Webcam.Shot Mat} {connected : Bool} :
    (∃ bytes, bytes ≠ [] ∧ ⟨.video, bytes⟩ ∈ call.sent (.round shot connected)) ↔
      call.Streams connected ∧ (call.mWebcam.captureOne shot).1 ≠ [] := by
  rw [sent]
  by_cases hstreams : call.Streams connected
  · rw [if_pos hstreams]
    simp [hstreams]
  · rw [if_neg hstreams]
    cases connected with
    | true => simp [hstreams]
    | false => simp [hstreams]

end

/-! ### What becomes of the pictures -/

def feed (call : VideoCall Mat) : Event Mat → List Mat
  | .round shot connected =>
    if call.Streams connected ∧ call.mWebcam.mValid = true ∧ call.mWebcam.mStatus = .ready then
      match call.mWebcam.read shot.first with
      | none => []
      | some mat => mat :: (call.mWebcam.read shot.second).toList
    else []
  | _ => []

def taken (call : VideoCall Mat) : Event Mat → List Mat
  | .round shot connected =>
    if call.Streams connected ∧ (call.mWebcam.captureOne shot).1 ≠ [] then shot.second.toList
    else []
  | _ => []

def pictureOf (data : Data) : Option ByteString :=
  if data.type = .video then some data.bytes else none

def loaded : Event Mat → Option ByteString
  | .read incoming => (Playback.package incoming).bind pictureOf
  | _ => none

def Listens : Event Mat → Prop
  | .stopPlayback => False
  | .read incoming => ∀ data ∈ Playback.package incoming, data.type = .video
  | _ => True

/-- `imencode` and `imdecode` do `lossy` to a picture, and `imencode` leaves nothing in the
buffer where it fails. -/
structure Codec (imdecode : ByteString → Option Mat) (lossy : Mat → Mat) (event : Event Mat) :
    Prop where
  done : ∀ shot connected mat, event = .round shot connected → shot.second = some mat →
    shot.encoded.1 = true → shot.encoded.2 ≠ [] ∧ imdecode shot.encoded.2 = some (lossy mat)
  failed : ∀ shot connected, event = .round shot connected → shot.encoded.1 = false →
    shot.encoded.2 = []

section

variable {imdecode : ByteString → Option Mat} {call : VideoCall Mat} {event : Event Mat}
  {lossy : Mat → Mat}

theorem taken_feed (call : VideoCall Mat) (event : Event Mat) :
    (call.taken event).Sublist (call.feed event) ∧
      2 * (call.taken event).length ≤ (call.feed event).length := by
  cases event with
  | round shot connected =>
    rw [taken, feed]
    by_cases htaken : call.Streams connected ∧ (call.mWebcam.captureOne shot).1 ≠ []
    · obtain ⟨hstreams, hpicture⟩ := htaken
      obtain ⟨⟨hvalid, hready, hopened⟩, hfirst, hsecond, -⟩ := captureOne_ne_nil_iff.mp hpicture
      obtain ⟨first, hfirst⟩ := Option.isSome_iff_exists.mp hfirst
      obtain ⟨second, hsecond⟩ := Option.isSome_iff_exists.mp hsecond
      rw [if_pos ⟨hstreams, hpicture⟩, if_pos ⟨hstreams, hvalid, hready⟩, Webcam.read,
        if_pos hopened, Webcam.read, if_pos hopened, hfirst, hsecond]
      exact ⟨List.sublist_cons_self first [second], le_refl 2⟩
    · rw [if_neg htaken]
      exact ⟨List.nil_sublist _, Nat.zero_le _⟩
  | _ => exact ⟨List.nil_sublist _, Nat.zero_le _⟩

theorem decodeOne_append (tFrame : ByteString) (tOutput : List Mat) :
    Webcam.decodeOne imdecode tFrame tOutput =
      tOutput ++ Webcam.decodeOne imdecode tFrame [] := by
  rw [Webcam.decodeOne, Webcam.decodeOne]
  split
  · exact (List.append_nil _).symm
  · cases imdecode tFrame with
    | none => exact (List.append_nil _).symm
    | some mat => rfl

theorem decode_sent (h : Codec imdecode lossy event) :
    ((call.sent event).filterMap pictureOf).flatMap
      (fun bytes => Webcam.decodeOne imdecode bytes []) = (call.taken event).map lossy := by
  cases event with
  | round shot connected =>
    rw [sent, taken]
    by_cases hstreams : call.Streams connected
    · rw [if_pos hstreams]
      by_cases hpicture : (call.mWebcam.captureOne shot).1 = []
      · rw [if_neg fun h => h.2 hpicture, hpicture]
        rfl
      · obtain ⟨-, -, hsecond, -⟩ := captureOne_ne_nil_iff.mp hpicture
        obtain ⟨second, hsecond⟩ := Option.isSome_iff_exists.mp hsecond
        have hbytes := captureOne_eq hpicture
        have hencoded : shot.encoded.1 = true := by
          by_contra hfails
          exact hpicture (hbytes.trans (h.failed shot connected rfl (Bool.not_eq_true _ ▸ hfails)))
        obtain ⟨hne, hdecode⟩ := h.done shot connected second rfl hsecond hencoded
        rw [if_pos ⟨hstreams, hpicture⟩, hbytes, hsecond]
        simp [pictureOf, Webcam.decodeOne, hne, hdecode]
    · rw [if_neg hstreams, if_neg (not_and.mpr fun h => absurd h hstreams)]
      cases connected with
      | true => rfl
      | false => rfl
  | _ => rfl

variable (imdecode) in
theorem shown_append_queue (call : VideoCall Mat) (event : Event Mat) :
    (call.shown event ++ (call.step imdecode event).mVideoPlayback.mQueue).Sublist
        (call.mVideoPlayback.mQueue ++
          (loaded event).toList.flatMap fun bytes => Webcam.decodeOne imdecode bytes []) ∧
      (Listens event → call.shown event ++ (call.step imdecode event).mVideoPlayback.mQueue =
        call.mVideoPlayback.mQueue ++
          (loaded event).toList.flatMap fun bytes => Webcam.decodeOne imdecode bytes []) := by
  have hkept : ∀ xs ys : List Mat, xs = ys → xs.Sublist ys ∧ (Listens event → xs = ys) :=
    fun xs ys h => ⟨h ▸ List.Sublist.refl xs, fun _ => h⟩
  have hsame : ∀ queue : List Mat, [] ++ queue = queue ++ [] := by simp
  have hflushed : (call.mVideoPlayback.stop call.mWebcam).1.mQueue.Sublist
      call.mVideoPlayback.mQueue := by
    rw [VideoPlayback.stop]
    split
    · exact List.nil_sublist _
    · exact List.Sublist.refl _
  cases event with
  | read incoming =>
    have hshown : call.shown (.read incoming) = [] := rfl
    rw [hshown, step, loaded]
    cases hpackage : Playback.package incoming with
    | none =>
      rw [VideoPlayback.readPackage, hpackage]
      exact hkept _ _ (hsame _)
    | some data =>
      rw [VideoPlayback.readPackage, hpackage, Option.bind_some, pictureOf]
      dsimp only
      by_cases hvideo : data.type = .video
      · have hdone : ¬data.type = .done := by
          rw [hvideo]
          nofun
        apply hkept
        rw [if_neg hdone, VideoPlayback.load, if_pos hvideo, if_pos hvideo]
        dsimp only [withWebcam]
        rw [decodeOne_append]
        simp
      · refine ⟨?_, fun hlistens => absurd (hlistens data hpackage) hvideo⟩
        rw [if_neg hvideo, Option.toList_none, List.flatMap_nil, List.append_nil]
        split
        · exact hflushed
        · rw [VideoPlayback.load, if_neg hvideo]
          exact List.Sublist.refl _
  | advance window i =>
    apply hkept
    rw [shown, step, advance]
    cases hthread : call.thread window i with
    | none => exact hsame _
    | some thread =>
      cases thread with
      | looking => exact hsame _
      | ended => exact hsame _
      | taking =>
        cases call.mVideoPlayback.mQueue with
        | nil => rfl
        | cons mat queue => simp [loaded, setThread]
  | stopPlayback =>
    have hnone : loaded (.stopPlayback : Event Mat) = none := rfl
    refine ⟨?_, False.elim⟩
    rw [hnone, Option.toList_none, List.flatMap_nil, List.append_nil]
    exact hflushed
  | startPlayback =>
    have hshown : call.shown .startPlayback = [] := rfl
    apply hkept
    rw [hshown, step, VideoPlayback.start]
    split
    · exact hsame _
    · exact hsame _
  | round shot connected =>
    apply hkept
    rw [step_round]
    exact hsame _
  | _ => exact hkept _ _ (hsame _)

theorem decoded_outputs {events : List (Event Mat)}
    (hcodec : ∀ event ∈ events, Codec imdecode lossy event) (sender : VideoCall Mat) :
    ((outputs (step imdecode) sent sender events).filterMap pictureOf).flatMap
        (fun bytes => Webcam.decodeOne imdecode bytes []) =
      (outputs (step imdecode) taken sender events).map lossy := by
  refine Transition.outputs_rel
    (R := fun x y => (x.filterMap pictureOf).flatMap
      (fun bytes => Webcam.decodeOne imdecode bytes []) = y.map lossy)
    rfl ?_ (fun call event h => decode_sent h) (Transition.always_event_iff.mpr hcodec)
  intro a b c d hab hcd
  rw [List.filterMap_append, List.flatMap_append, hab, hcd, List.map_append]

variable (imdecode) in
theorem outputs_loaded (receiver : VideoCall Mat) (incoming : List (Event Mat)) :
    outputs (step imdecode) (fun _ event => (loaded event).toList.flatMap
        fun bytes => Webcam.decodeOne imdecode bytes []) receiver incoming =
      (incoming.filterMap loaded).flatMap fun bytes => Webcam.decodeOne imdecode bytes [] := by
  rw [Transition.outputs_of_events, List.filterMap_eq_flatMap_toList, List.flatMap_assoc]

/-- The pictures of one peer are those of its camera, at most every second one. The other peer
may miss some of the packages and read the others in their order: each picture of these is
shown at most once and in its turn, and without a stop it is shown or waits. -/
theorem video_arrives (sender receiver : VideoCall Mat) (events incoming : List (Event Mat))
    (hcodec : ∀ event ∈ events, Codec imdecode lossy event)
    (hloaded : (incoming.filterMap loaded).Sublist
      ((outputs (step imdecode) sent sender events).filterMap pictureOf)) :
    let pictures := outputs (step imdecode) taken sender events
    let packages := (outputs (step imdecode) sent sender events).filterMap pictureOf
    let watched := outputs (step imdecode) shown receiver incoming ++
      (run (step imdecode) receiver incoming).mVideoPlayback.mQueue
    (pictures.Sublist (outputs (step imdecode) feed sender events) ∧
        2 * pictures.length ≤ (outputs (step imdecode) feed sender events).length) ∧
      ∃ arrived, arrived.Sublist pictures ∧
        arrived.map lossy = (incoming.filterMap loaded).flatMap
          (fun bytes => Webcam.decodeOne imdecode bytes []) ∧
        (incoming.filterMap loaded = packages → arrived = pictures) ∧
        watched.Sublist (receiver.mVideoPlayback.mQueue ++ arrived.map lossy) ∧
        ((∀ event ∈ incoming, Listens event) →
          watched = receiver.mVideoPlayback.mQueue ++ arrived.map lossy) := by
  intro pictures packages watched
  have hall : Always (step imdecode) (fun _ _ => True) sender events :=
    fun _ _ _ _ => trivial
  constructor
  · refine Transition.outputs_rel (R := fun x y => x.Sublist y ∧ 2 * x.length ≤ y.length)
      ⟨.slnil, le_refl 0⟩ ?_ (fun call event _ => taken_feed call event) hall
    rintro a b c d ⟨hab, hlength⟩ ⟨hcd, hlength'⟩
    refine ⟨hab.append hcd, ?_⟩
    rw [List.length_append, List.length_append]
    omega
  · have hdecoded : packages.flatMap (fun bytes => Webcam.decodeOne imdecode bytes []) =
        pictures.map lossy := decoded_outputs hcodec sender
    have hlossy := hloaded.flatMap fun bytes => Webcam.decodeOne imdecode bytes []
    rw [hdecoded] at hlossy
    obtain ⟨arrived, hsublist, hmap⟩ := List.sublist_map_iff.mp hlossy
    have hwhole : incoming.filterMap loaded = packages → arrived = pictures := by
      intro hall
      have hsame : arrived.map lossy = pictures.map lossy := by
        rw [← hmap, hall, hdecoded]
      apply hsublist.eq_of_length
      simpa using congrArg List.length hsame
    refine ⟨arrived, hsublist, hmap.symm, hwhole, ?_, ?_⟩
    · have hqueue := Transition.outputs_sublist_queue (s := receiver)
        (fun call => call.mVideoPlayback.mQueue)
        (fun call event => (shown_append_queue imdecode call event).1) incoming
      rwa [outputs_loaded, hmap] at hqueue
    · intro hlistens
      have hgoes : Always (step imdecode) (fun _ event => Listens event) receiver incoming :=
        Transition.always_event_iff.mpr hlistens
      have hqueue := Transition.outputs_append_queue (fun call => call.mVideoPlayback.mQueue)
        (fun call event h => (shown_append_queue imdecode call event).2 h) hgoes
      rwa [outputs_loaded, hmap] at hqueue

end

def onePicture : List (Event UInt8) :=
  [.init true, .startStream, .round ⟨some 1, some 2, true, [2]⟩ true,
    .round ⟨none, some 3, true, [3]⟩ true]

def watched : List (Event UInt8) :=
  [.startPlayback, .read [some ⟨.video, [2]⟩], .newWindow, .videoStream, .advance 0 0,
    .advance 0 0, .read [some ⟨.video, []⟩]]

theorem codec_onePicture : ∀ event ∈ onePicture, Codec List.head? id event := by
  intro event hevent
  constructor
  · rintro shot connected mat rfl hsecond hencoded
    simp only [onePicture, List.mem_cons, List.not_mem_nil, or_false, reduceCtorEq, false_or,
      Event.round.injEq] at hevent
    rcases hevent with ⟨rfl, -⟩ | ⟨rfl, -⟩
    · cases hsecond
      exact ⟨nofun, rfl⟩
    · cases hsecond
      exact ⟨nofun, rfl⟩
  · rintro shot connected rfl hfails
    simp only [onePicture, List.mem_cons, List.not_mem_nil, or_false, reduceCtorEq, false_or,
      Event.round.injEq] at hevent
    rcases hevent with ⟨rfl, -⟩ | ⟨rfl, -⟩
    · cases hfails
    · cases hfails

theorem listens_watched : ∀ event ∈ watched, Listens event := by
  intro event hevent
  simp only [watched, List.mem_cons, List.not_mem_nil, or_false] at hevent
  rcases hevent with rfl | rfl | rfl | rfl | rfl | rfl | rfl
  · trivial
  · intro data hdata
    cases hdata
    rfl
  · trivial
  · trivial
  · trivial
  · trivial
  · intro data hdata
    cases hdata
    rfl

theorem video_arrives_watched :
    let pictures := outputs (step List.head?) taken (new 1) onePicture
    (pictures.Sublist (outputs (step List.head?) feed (new 1) onePicture) ∧
        2 * pictures.length ≤ (outputs (step List.head?) feed (new 1) onePicture).length) ∧
      outputs (step List.head?) shown (new 1) watched ++
          (run (step List.head?) (new 1) watched).mVideoPlayback.mQueue = pictures := by
  intro pictures
  have hloaded : watched.filterMap loaded =
      (outputs (step List.head?) sent (new 1) onePicture).filterMap pictureOf := rfl
  obtain ⟨hfeed, arrived, -, -, hall, -, hwatched⟩ := video_arrives (new 1) (new 1) onePicture
    watched codec_onePicture (hloaded ▸ List.Sublist.refl _)
  obtain rfl := hall hloaded
  exact ⟨hfeed, (hwatched listens_watched).trans (List.map_id _)⟩

example : outputs (step List.head?) shown (new 1) watched = [2] := rfl

/-! ### The windows of the calls -/

def windowStep (call : VideoCall Mat) (window : ℕ) (gui : CallGui) : Event Mat → CallGui
  | .videoStream =>
    if window = call.windows.length - 1 then { gui with threads := gui.threads ++ [.looking] }
    else gui
  | .advance other i =>
    if other = window then
      match gui.threads[i]? with
      | some .looking =>
        { gui with threads := gui.threads.set i (if gui.mStopStream then .ended else .taking) }
      | some .taking => { gui with threads := gui.threads.set i .looking }
      | _ => gui
    else gui
  | .hangupClicked other => if other = window then { gui with mStopStream := true } else gui
  | _ => gui

/-- The threads of a window that have seen `m_stop_stream` unset and not yet taken a picture. -/
def taking (window : ℕ) (call : VideoCall Mat) : ℕ :=
  call.windows[window]?.elim 0 fun gui => gui.threads.count .taking

def Clicked (window : ℕ) (call : VideoCall Mat) : Prop :=
  ∃ gui, call.windows[window]? = some gui ∧ gui.mStopStream = true

section

variable {imdecode : ByteString → Option Mat} {call : VideoCall Mat} {window : ℕ} {gui : CallGui}

theorem getElem?_setThread (call : VideoCall Mat) (other i : ℕ) (thread : CallGui.Thread)
    (h : call.windows[window]? = some gui) :
    (call.setThread other i thread).windows[window]? =
      some (if other = window then { gui with threads := gui.threads.set i thread } else gui) := by
  rw [setThread]
  dsimp only
  rw [List.getElem?_modify, h]
  rfl

variable (imdecode) in
theorem window_step (h : call.windows[window]? = some gui) (event : Event Mat) :
    (call.step imdecode event).windows[window]? = some (call.windowStep window gui event) := by
  cases event with
  | newWindow =>
    obtain ⟨hlt, -⟩ := List.getElem?_eq_some_iff.mp h
    rw [step]
    dsimp only
    rw [List.getElem?_append_left hlt, h]
    rfl
  | videoStream =>
    rw [step, windowStep]
    dsimp only
    rw [List.getElem?_modify, h]
    simp [eq_comm]
  | hangupClicked other =>
    rw [step, windowStep]
    dsimp only
    rw [List.getElem?_modify, h]
    rfl
  | advance other i =>
    rw [step, windowStep, advance]
    by_cases hsame : other = window
    · subst hsame
      have hthread : call.thread other i = gui.threads[i]? := by rw [thread, h, Option.bind_some]
      have hstopped : call.stopped other = gui.mStopStream := by
        rw [stopped, h]
        rfl
      rw [if_pos rfl, hthread, hstopped]
      cases gui.threads[i]? with
      | none => exact h
      | some thread =>
        cases thread with
        | looking => exact (getElem?_setThread call other i _ h).trans (congrArg some (if_pos rfl))
        | taking => exact (getElem?_setThread call other i _ h).trans (congrArg some (if_pos rfl))
        | ended => exact h
    · have hkept : ∀ thread, (call.setThread other i thread).windows[window]? = some gui := by
        intro thread
        rw [getElem?_setThread call other i thread h, if_neg hsame]
      rw [if_neg hsame]
      split
      · exact hkept _
      · exact hkept _
      · exact h
      · exact h
  | round shot connected =>
    rw [step_round]
    exact h
  | _ => exact h

theorem count_set_taking {threads : List CallGui.Thread} {i : ℕ} {old : CallGui.Thread}
    (h : threads[i]? = some old) (new : CallGui.Thread) (hnew : new ≠ .taking) :
    (threads.set i new).count .taking + (if old = .taking then 1 else 0) =
      threads.count .taking := by
  obtain ⟨hi, hold⟩ := List.getElem?_eq_some_iff.mp h
  have hnone : ¬(new == CallGui.Thread.taking) = true := by simpa using hnew
  rw [List.count_set hi, hold, if_neg hnone]
  cases old with
  | taking =>
    have hpos : 0 < threads.count .taking := List.count_pos_iff.mpr (hold ▸ List.getElem_mem hi)
    rw [if_pos rfl, beq_self_eq_true, if_pos rfl]
    omega
  | looking => rfl
  | ended => rfl

/-- A window whose hangup was clicked pays for a picture with a thread that takes one. -/
theorem shownIn_clicked (h : call.windows[window]? = some gui) (hstop : gui.mStopStream = true)
    (event : Event Mat) :
    (call.shownIn window event).length +
        (call.windowStep window gui event).threads.count .taking ≤ gui.threads.count .taking := by
  cases event with
  | videoStream =>
    rw [windowStep]
    split
    · simp [shownIn]
    · simp [shownIn]
  | hangupClicked other =>
    rw [windowStep]
    split
    · simp [shownIn]
    · simp [shownIn]
  | advance other i =>
    rw [shownIn, windowStep]
    by_cases hsame : other = window
    · subst hsame
      have hthread : call.thread other i = gui.threads[i]? := by rw [thread, h, Option.bind_some]
      rw [if_pos rfl, if_pos rfl, shown, hthread]
      cases hold : gui.threads[i]? with
      | none => simp
      | some thread =>
        cases thread with
        | looking =>
          have hcount := count_set_taking hold .ended nofun
          rw [if_neg nofun] at hcount
          dsimp only
          rw [if_pos hstop, if_neg nofun, List.length_nil, Nat.zero_add]
          exact le_of_eq hcount
        | taking =>
          have hcount := count_set_taking hold .looking nofun
          have hone : call.mVideoPlayback.mQueue.head?.toList.length ≤ 1 := by
            cases call.mVideoPlayback.mQueue with
            | nil => exact Nat.zero_le 1
            | cons mat queue => exact le_refl 1
          rw [if_pos rfl] at hcount ⊢
          dsimp only
          omega
        | ended => simp
    · rw [if_neg hsame, if_neg hsame]
      simp
  | _ => simp [shownIn, windowStep]

theorem Clicked.step (h : Clicked window call) (event : Event Mat) :
    Clicked window (call.step imdecode event) := by
  obtain ⟨gui, hgui, hstop⟩ := h
  refine ⟨_, window_step imdecode hgui event, ?_⟩
  cases event with
  | videoStream =>
    rw [windowStep]
    split
    · exact hstop
    · exact hstop
  | hangupClicked other =>
    rw [windowStep]
    split
    · rfl
    · exact hstop
  | advance other i =>
    rw [windowStep]
    split
    · split
      · exact hstop
      · exact hstop
      · exact hstop
    · exact hstop
  | _ => exact hstop

end

def nextCall : List (Event UInt8) :=
  [.advance 0 0, .newWindow, .videoStream, .read [some ⟨.video, [3]⟩], .advance 0 0, .advance 1 0,
    .advance 1 0]

end VideoCall

end Skype
