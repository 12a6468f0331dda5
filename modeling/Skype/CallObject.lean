import Skype.PeerStrategy

/-!
# `Call`

The client's side of a call: two `P2P` objects behind pointers, one for the audio and one
for the video. The bus handles one job after the other. `accept` runs inside its job,
`connect` leaves a detached thread behind, and both are cut at their uses of the pointers
and the flags, so that jobs, threads and streams interleave there.
-/

namespace Skype.CallObject

open Library P2P PeerStrategy

inductive Side
  | audio
  | video
  deriving DecidableEq

structure Opened where
  mSocket : Int32
  mLocalIp : ByteString
  channel : Channel

def Opened.session (opened : Opened) (tToken : ByteString) : Session :=
  Session.start tToken opened.mSocket opened.mLocalIp opened.channel

inductive Connecting
  | starting
  | making (side : Side)
  | connecting (side : Side)
  | connected (side : Side)
  | testing (side : Side) (count : ℕ)
  | pinging (side : Side) (count : ℕ)
  | pinged (side : Side) (count : ℕ)
  | hangingUp (side : Side) (asked : Bool)
  | shaking (side : Side)
  | shaken (side : Side)
  | returned (side : Side) (valid : Bool)
  | streaming (valid : Bool)

/-- The next statement of `accept`; the audio is accepted in trial 0. -/
inductive Accepting
  | making (side : Side)
  | accepting (side : Side) (trial : ℕ)
  | accepted (side : Side) (trial : ℕ)
  | shaking (side : Side) (trial : ℕ)
  | shaken (side : Side) (trial : ℕ)
  | returned (side : Side) (trial : ℕ) (valid : Bool)
  | resetting (trial : ℕ)
  | streaming (valid : Bool)

/-- The object, the threads of `connect` that still run, and the job of `accept` while it
is handled, with its `m_intValue`. -/
structure State where
  mCallers : List Int32
  mCurrent : Int32
  mHangup : Bool
  mConnected : Bool
  mToken : ByteString
  mAudioP2p : Option Session
  mVideoP2p : Option Session
  threads : List Connecting
  accepting : Option (Int32 × Accepting)

def pingTimeout : ℕ := 10
def acceptTimeout : ℕ := 40

namespace State

def start (mCurrent : Int32) : State := ⟨[], mCurrent, false, false, [], none, none, [], none⟩

def p2p (s : State) : Side → Option Session
  | .audio => s.mAudioP2p
  | .video => s.mVideoP2p

def setP2p (s : State) (side : Side) (p : Option Session) : State :=
  match side with
  | .audio => { s with mAudioP2p := p }
  | .video => { s with mVideoP2p := p }

def removeCaller (s : State) (tCaller : Int32) : State :=
  { s with mCallers := s.mCallers.erase tCaller }

def call (net : Inet) (settings : Settings) (s : State) (side : Side) (c : Call) : Exec State :=
  match s.p2p side with
  | none => .error .undefined
  | some p => do
    let q ← p.step net settings c
    return s.setP2p side (some q)

def status (s : State) (side : Side) : Exec Status :=
  match s.p2p side with
  | none => .error .undefined
  | some p => .ok p.p.mStatus

section

variable (s : State) (side : Side) (p : Option Session) (tCaller : Int32)

@[simp] theorem p2p_setP2p_self : (s.setP2p side p).p2p side = p := by
  cases side <;> rfl

theorem p2p_setP2p_ne {other : Side} (h : other ≠ side) :
    (s.setP2p side p).p2p other = s.p2p other := by
  cases side <;> cases other <;> first | rfl | exact absurd rfl h

@[simp] theorem threads_setP2p : (s.setP2p side p).threads = s.threads := by
  cases side <;> rfl

@[simp] theorem mToken_setP2p : (s.setP2p side p).mToken = s.mToken := by
  cases side <;> rfl

end

theorem call_eq_ok {net : Inet} {settings : Settings} {s t : State} {side : Side} {c : Call}
    (h : s.call net settings side c = .ok t) :
    ∃ p q, s.p2p side = some p ∧ p.step net settings c = .ok q ∧ t = s.setP2p side (some q) := by
  rw [call] at h
  cases hp : s.p2p side with
  | none =>
    rw [hp] at h
    cases h
  | some p =>
    rw [hp] at h
    obtain ⟨q, hq, hresult⟩ := bind_eq_ok.mp h
    cases hresult
    exact ⟨p, q, rfl, hq, rfl⟩

end State

/-- One step of the thread of `connect`. The thread shares the job with the bus, which
reuses it, so `t_job.m_intValue` is whatever the bus holds by then. -/
def connectStep (net : Inet) (settings : Settings) (tIntValue : Int32) (opened : Opened)
    (s : State) : Connecting → Exec (State × Option Connecting)
  | .starting =>
    .ok ((s.setP2p .audio none).setP2p .video none, some (.making .audio))
  | .making side =>
    .ok (s.setP2p side (some (opened.session s.mToken)), some (.connecting side))
  | .connecting side => do
    let s ← s.call net settings side (.operation (.connectPeer (intToString tIntValue)))
    return (s, some (.connected side))
  | .connected side => do
    let status ← s.status side
    return (s, some (if status = .awaiting then .testing side 0 else .returned side false))
  | .testing side count => do
    let status ← s.status side
    return (s, some (if status = .accepted then .shaking side else .pinging side count))
  | .pinging side count => do
    let s ← s.call net settings side (.operation .pingPeer)
    return (s, some (.pinged side count))
  | .pinged side count => do
    let status ← s.status side
    if status = .error then return (s.removeCaller tIntValue, some (.returned side false))
    else if s.mHangup then return (s, some (.hangingUp side true))
    else if pingTimeout < count then return (s, some (.hangingUp side false))
    else return (s, some (.testing side (count + 1)))
  | .hangingUp side asked => do
    let s ← s.call net settings side (.operation .hangupPeer)
    -- A hangup that was asked for returns `m_hangup` itself.
    return (s, some (.returned side (asked && s.mHangup)))
  | .shaking side => do
    let s ← s.call net settings side (.operation .handshakePeer)
    return (s, some (.shaken side))
  | .shaken side => do
    let status ← s.status side
    return (s, some (.returned side (status ≠ .error)))
  | .returned .audio false => .ok (s.setP2p .audio none, none)
  | .returned .audio true =>
    if s.mHangup then .ok ({ s with mHangup := false }, none)
    else .ok (s, some (.making .video))
  | .returned .video valid =>
    if s.mHangup then .ok ({ s with mHangup := false }, none)
    else .ok ({ s with mConnected := true }, some (.streaming valid))
  | .streaming valid => .ok (if valid then s else s.setP2p .video none, none)

def acceptStep (net : Inet) (settings : Settings) (tArgument : ByteString) (tIntValue : Int32)
    (opened : Opened) (s : State) : Accepting → Exec (State × Option Accepting)
  | .making side =>
    .ok (s.setP2p side (some (opened.session tArgument)), some (.accepting side 0))
  | .accepting side trial => do
    let s ← s.call net settings side (.operation (.acceptPeer (intToString tIntValue)))
    return (s, some (.accepted side trial))
  | .accepted side trial => do
    let status ← s.status side
    return (s, some (if status = .accepted then .shaking side trial
      else .returned side trial false))
  | .shaking side trial => do
    let s ← s.call net settings side (.operation .handshakePeer)
    return (s, some (.shaken side trial))
  | .shaken side trial => do
    let status ← s.status side
    return (s, some (.returned side trial (status ≠ .error)))
  | .returned .audio _ false => .ok (s.setP2p .audio none, none)
  | .returned .audio _ true => .ok ({ s with mConnected := true }, some (.making .video))
  | .returned .video trial valid =>
    -- The `count` of the loop is one behind the trial, which has no count before the loop.
    .ok (s, some (if valid then .streaming true
      else if acceptTimeout < trial then .streaming false else .resetting trial))
  | .resetting trial => do
    let s ← s.call net settings .video (.operation .reset)
    return (s, some (.accepting .video (trial + 1)))
  | .streaming valid => .ok (if valid then s else s.setP2p .video none, none)

def connect (tArgument : ByteString) (s : State) : State :=
  { s with mToken := tArgument, mHangup := false, threads := s.threads ++ [.starting] }

def accept (tIntValue : Int32) (s : State) : State :=
  { (s.setP2p .audio none).setP2p .video none with
    mHangup := false
    accepting := some (tIntValue, .making .audio) }

def reject (net : Inet) (settings : Settings) (tIntValue : Int32) (s : State) : Exec State :=
  match s.mAudioP2p with
  | some _ => s.call net settings .audio (.operation (.rejectPeer (intToString tIntValue)))
  | none => .ok s

def awaiting (tBoolValue : Bool) (tIntValue : Int32) (s : State) : Bool × State :=
  if tBoolValue = false then (true, s.removeCaller tIntValue)
  else if tIntValue ∈ s.mCallers then (false, s)
  else (true, { s with mCallers := s.mCallers ++ [tIntValue] })

def hangup (s : State) : State :=
  { s.removeCaller s.mCurrent with mHangup := true, mCurrent := -1, mConnected := false }

inductive Event
  | connect
  | accept (tIntValue : Int32)
  | reject (tIntValue : Int32)
  | awaiting (tBoolValue : Bool) (tIntValue : Int32)
  | hangup
  | accepting (opened : Opened)
  | connecting (thread : ℕ) (tIntValue : Int32) (opened : Opened)
  | sendPackage (side : Side) (tReq : Request)
  | receivePackage (side : Side) (tReq : Request)

/-- The bus handles no other job before `accept` returns. -/
def State.handle (s : State) (job : State → Exec State) : Exec State :=
  if s.accepting.isSome then .error .waiting else job s

def State.setThread (s : State) (thread : ℕ) (next : Option Connecting) : State :=
  { s with
    threads := match next with
      | some c => s.threads.set thread c
      | none => s.threads.eraseIdx thread }

def step (net : Inet) (settings : Settings) (token : ByteString) (s : State) :
    Event → Exec State
  | .connect => s.handle fun s => .ok (connect token s)
  | .accept tIntValue => s.handle fun s => .ok (accept tIntValue s)
  | .reject tIntValue => s.handle (reject net settings tIntValue)
  | .awaiting tBoolValue tIntValue =>
    s.handle fun s => .ok (awaiting tBoolValue tIntValue s).2
  | .hangup => s.handle fun s => .ok (hangup s)
  | .accepting opened =>
    match s.accepting with
    | none => .error .waiting
    | some (tIntValue, a) => do
      let (s, next) ← acceptStep net settings token tIntValue opened s a
      return { s with accepting := next.map fun a => (tIntValue, a) }
  | .connecting thread tIntValue opened =>
    match s.threads[thread]? with
    | none => .error .waiting
    | some c => do
      let (s, next) ← connectStep net settings tIntValue opened s c
      return s.setThread thread next
  | .sendPackage side tReq => s.call net settings side (.sendPackage tReq)
  | .receivePackage side tReq => s.call net settings side (.receivePackage tReq)

end Skype.CallObject
