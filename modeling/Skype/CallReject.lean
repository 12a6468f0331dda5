import Skype.CallObject

/-!
# `Call::reject` and the connection it goes through

A rejection is sent over the socket of the audio object, so it depends on what earlier
calls left behind that pointer. Every object there was opened for the user's token and its
strategy tells whether it has ever connected; both hold in every reachable state.
-/

namespace Skype.CallObject

open Library P2P PeerStrategy
open ServerReplies (commandOf)

section

variable {net : Inet} {settings : Settings} {s t : State} {tToken : ByteString}

inductive Origin (net : Inet) (settings : Settings) (tToken : ByteString) (s : State)
    (side : Side) : Session → Prop
  | kept {p : Session} (h : s.p2p side = some p) : Origin net settings tToken s side p
  | opened (o : Opened) : Origin net settings tToken s side (o.session tToken)
  | called {p q : Session} (c : Call) (h : s.p2p side = some p)
      (hstep : p.step net settings c = .ok q) : Origin net settings tToken s side q

structure Follows (net : Inet) (settings : Settings) (tToken : ByteString) (s t : State) :
    Prop where
  threads : t.threads = s.threads
  mToken : t.mToken = s.mToken
  p2p : ∀ side p, t.p2p side = some p → Origin net settings tToken s side p

theorem follows_setP2p {side : Side} {p : Option Session}
    (h : ∀ q, p = some q → Origin net settings tToken s side q) :
    Follows net settings tToken s (s.setP2p side p) where
  threads := s.threads_setP2p side p
  mToken := s.mToken_setP2p side p
  p2p := by
    intro other q hq
    by_cases hside : other = side
    · subst hside
      rw [State.p2p_setP2p_self] at hq
      exact h q hq
    · rw [State.p2p_setP2p_ne s side p hside] at hq
      exact .kept hq

theorem follows_clear (side : Side) :
    Follows net settings tToken s (s.setP2p side none) := by
  apply follows_setP2p
  intro q hq
  cases hq

theorem follows_open (side : Side) (o : Opened) :
    Follows net settings tToken s (s.setP2p side (some (o.session tToken))) := by
  apply follows_setP2p
  rintro q ⟨⟩
  exact .opened o

theorem follows_call {side : Side} {c : Call} (h : s.call net settings side c = .ok t) :
    Follows net settings tToken s t := by
  obtain ⟨p, q, hp, hq, rfl⟩ := State.call_eq_ok h
  apply follows_setP2p
  rintro _ ⟨⟩
  exact .called c hp hq

theorem follows_callThen {α : Type} {side : Side} {c : Call} {f : State → α} {r : α}
    (h : (s.call net settings side c >>= fun s => pure (s, f s)) = .ok (t, r)) :
    Follows net settings tToken s t := by
  obtain ⟨s', hcall, hresult⟩ := bind_eq_ok.mp h
  cases hresult
  exact follows_call hcall

theorem follows_of_eq (hthreads : t.threads = s.threads) (htoken : t.mToken = s.mToken)
    (hp2p : t.p2p = s.p2p) : Follows net settings tToken s t where
  threads := hthreads
  mToken := htoken
  p2p := by
    intro side p hp
    rw [hp2p] at hp
    exact .kept hp

theorem follows_refl : Follows net settings tToken s s := follows_of_eq rfl rfl rfl

theorem follows_statusThen {α : Type} {side : Side} {f : Status → α} {r : α}
    (h : (s.status side >>= fun status => pure (s, f status)) = .ok (t, r)) :
    Follows net settings tToken s t := by
  obtain ⟨status, -, hresult⟩ := bind_eq_ok.mp h
  cases hresult
  exact follows_refl

theorem p2p_clearBoth (side : Side) :
    ((s.setP2p .audio none).setP2p .video none).p2p side = none := by
  cases side <;> rfl

theorem connectStep_follows {tIntValue : Int32} {o : Opened} {c : Connecting}
    {next : Option Connecting}
    (h : connectStep net settings tIntValue o s c = .ok (t, next)) :
    Follows net settings s.mToken s t := by
  cases c with
  | starting =>
    cases h
    refine ⟨rfl, rfl, ?_⟩
    intro side p hp
    rw [p2p_clearBoth] at hp
    cases hp
  | making side =>
    cases h
    exact follows_open side o
  | connecting side => exact follows_callThen h
  | connected side => exact follows_statusThen h
  | testing side count => exact follows_statusThen h
  | pinging side count => exact follows_callThen h
  | pinged side count =>
    obtain ⟨status, -, hresult⟩ := bind_eq_ok.mp h
    split at hresult
    · cases hresult
      exact follows_of_eq rfl rfl rfl
    · split at hresult
      · cases hresult
        exact follows_refl
      · split at hresult <;>
          · cases hresult
            exact follows_refl
  | hangingUp side asked => exact follows_callThen h
  | shaking side => exact follows_callThen h
  | shaken side => exact follows_statusThen h
  | returned side valid =>
    cases side with
    | audio =>
      cases valid with
      | false =>
        cases h
        exact follows_clear .audio
      | true =>
        simp only [connectStep] at h
        split at h
        · cases h
          exact follows_of_eq rfl rfl rfl
        · cases h
          exact follows_refl
    | video =>
      simp only [connectStep] at h
      split at h <;>
        · cases h
          exact follows_of_eq rfl rfl rfl
  | streaming valid =>
    cases h
    cases valid with
    | false => exact follows_clear .video
    | true => exact follows_refl

theorem acceptStep_follows {tIntValue : Int32} {o : Opened} {a : Accepting}
    {next : Option Accepting}
    (h : acceptStep net settings tToken tIntValue o s a = .ok (t, next)) :
    Follows net settings tToken s t := by
  cases a with
  | making side =>
    cases h
    exact follows_open side o
  | accepting side trial => exact follows_callThen h
  | accepted side trial => exact follows_statusThen h
  | shaking side trial => exact follows_callThen h
  | shaken side trial => exact follows_statusThen h
  | returned side trial valid =>
    cases side with
    | audio =>
      cases valid with
      | false =>
        cases h
        exact follows_clear .audio
      | true =>
        cases h
        exact follows_of_eq rfl rfl rfl
    | video =>
      cases h
      exact follows_refl
  | resetting trial => exact follows_callThen h
  | streaming valid =>
    cases h
    cases valid with
    | false => exact follows_clear .video
    | true => exact follows_refl

theorem reject_cases {tIntValue : Int32} (h : reject net settings tIntValue s = .ok t) :
    (s.mAudioP2p = none ∧ t = s) ∨ ∃ p q, s.mAudioP2p = some p ∧
      p.step net settings (.operation (.rejectPeer (intToString tIntValue))) = .ok q ∧
      t = s.setP2p .audio (some q) := by
  rw [reject] at h
  cases haudio : s.mAudioP2p with
  | none =>
    rw [haudio] at h
    cases h
    exact Or.inl ⟨rfl, rfl⟩
  | some p =>
    rw [haudio] at h
    obtain ⟨p', q, hp, hq, ht⟩ := State.call_eq_ok h
    obtain rfl : p = p' := Option.some.inj (haudio.symm.trans hp)
    exact Or.inr ⟨p, q, rfl, hq, ht⟩

end

section

variable {net : Inet} {settings : Settings} {token : ByteString} {s t : State}

structure Sound (token : ByteString) (s : State) : Prop where
  tracked : ∀ side p, s.p2p side = some p → Tracks p ∧ p.p.mToken = token
  mToken : s.threads ≠ [] → s.mToken = token

theorem sound_start (token : ByteString) (mCurrent : Int32) :
    Sound token (State.start mCurrent) where
  tracked := by
    intro side p hp
    cases side <;> cases hp
  mToken := fun hthreads => absurd rfl hthreads

theorem mToken_sessionStep {p q : Session} {c : Call} (h : p.step net settings c = .ok q) :
    q.p.mToken = p.p.mToken := by
  cases c with
  | operation op =>
    obtain ⟨r, ch, hperform, rfl⟩ := operation_eq_ok h
    exact (perform_keeps_text hperform).1
  | sendPackage tReq =>
    obtain ⟨⟨req, ch⟩, -, hresult⟩ := bind_eq_ok.mp h
    cases hresult
    rfl
  | receivePackage tReq =>
    obtain ⟨⟨req, ch⟩, -, hresult⟩ := bind_eq_ok.mp h
    cases hresult
    rfl

theorem tracked_origin (hs : Sound token s) {side : Side} {p : Session}
    (h : Origin net settings token s side p) : Tracks p ∧ p.p.mToken = token := by
  cases h with
  | kept hp => exact hs.tracked side p hp
  | opened o => exact ⟨tracks_start token o.mSocket o.mLocalIp o.channel, rfl⟩
  | called c hp hstep =>
    obtain ⟨htracks, htoken⟩ := hs.tracked side _ hp
    exact ⟨tracks_step htracks hstep, (mToken_sessionStep hstep).trans htoken⟩

theorem sound_follows (hs : Sound token s) (h : Follows net settings token s t) :
    Sound token t where
  tracked := fun side p hp => tracked_origin hs (h.p2p side p hp)
  mToken := by
    rw [h.threads, h.mToken]
    exact hs.mToken

theorem handle_eq_ok {job : State → Exec State} (h : s.handle job = .ok t) : job s = .ok t := by
  rw [State.handle] at h
  split at h
  · cases h
  · exact h

theorem sound_reject (hs : Sound token s) {tIntValue : Int32}
    (h : reject net settings tIntValue s = .ok t) : Sound token t := by
  rcases reject_cases h with ⟨-, rfl⟩ | ⟨p, q, hp, hq, rfl⟩
  · exact hs
  · have hfollows : Follows net settings token s (s.setP2p .audio (some q)) := by
      apply follows_setP2p
      rintro _ ⟨⟩
      exact .called _ hp hq
    exact sound_follows hs hfollows

theorem sound_connectStep (hs : Sound token s) {thread : ℕ} {tIntValue : Int32} {o : Opened}
    {c : Connecting} {next : Option Connecting} (hthread : s.threads[thread]? = some c)
    (h : connectStep net settings tIntValue o s c = .ok (t, next)) :
    Sound token (t.setThread thread next) := by
  have hthreads : s.threads ≠ [] := by
    intro hnil
    rw [hnil] at hthread
    cases hthread
  have hfollows := connectStep_follows h
  rw [hs.mToken hthreads] at hfollows
  refine ⟨(sound_follows hs hfollows).tracked, ?_⟩
  intro _
  exact hfollows.mToken.trans (hs.mToken hthreads)

theorem sound_step (hs : Sound token s) {e : Event}
    (h : step net settings token s e = .ok t) : Sound token t := by
  cases e with
  | connect =>
    rw [step] at h
    cases handle_eq_ok h
    exact ⟨hs.tracked, fun _ => rfl⟩
  | accept tIntValue =>
    rw [step] at h
    cases handle_eq_ok h
    refine ⟨?_, hs.mToken⟩
    intro side p hp
    have hnone : (accept tIntValue s).p2p side = none := by
      cases side <;> rfl
    rw [hnone] at hp
    cases hp
  | reject tIntValue =>
    rw [step] at h
    exact sound_reject hs (handle_eq_ok h)
  | awaiting tBoolValue tIntValue =>
    rw [step] at h
    cases handle_eq_ok h
    rw [awaiting]
    split
    · exact ⟨hs.tracked, hs.mToken⟩
    · split <;> exact ⟨hs.tracked, hs.mToken⟩
  | hangup =>
    rw [step] at h
    cases handle_eq_ok h
    exact ⟨hs.tracked, hs.mToken⟩
  | accepting o =>
    simp only [step] at h
    split at h
    · cases h
    · obtain ⟨⟨s', next⟩, haccept, hresult⟩ := bind_eq_ok.mp h
      cases hresult
      have hsound := sound_follows hs (acceptStep_follows haccept)
      exact ⟨hsound.tracked, hsound.mToken⟩
  | connecting thread tIntValue o =>
    simp only [step] at h
    split at h
    · cases h
    · next c hthread =>
      obtain ⟨⟨s', next⟩, hconnect, hresult⟩ := bind_eq_ok.mp h
      cases hresult
      exact sound_connectStep hs hthread hconnect
  | sendPackage side tReq => exact sound_follows hs (follows_call h)
  | receivePackage side tReq => exact sound_follows hs (follows_call h)

theorem sound_run {mCurrent : Int32} {events : List Event}
    (h : Transition.runM (step net settings token) (State.start mCurrent) events = .ok s) :
    Sound token s := by
  have hstep : ∀ a e b, Sound token a → True → step net settings token a e = .ok b →
      Sound token b := fun _ _ _ ha _ hab => sound_step ha hab
  exact Transition.invariant_runM hstep (sound_start token mCurrent) (fun _ _ => trivial) h

end

def rejectText (token : ByteString) (tIntValue : Int32) : ByteString :=
  ServerCommand.toString .reject ++ str " " ++ token ++ str " " ++ intToString tIntValue

/-- One of the objects hands one datagram with the text to its socket, addressed to the
server, and the other stays as it is. -/
def Requests (net : Inet) (settings : Settings) (text : ByteString) (s t : State) : Prop :=
  ∃ side p q, s.p2p side = some p ∧ t.p2p side = some q ∧
    q.channel.out = (p.channel.out.sendto (serverAddr net settings) text).2 ∧
    ∀ other, other ≠ side → t.p2p other = s.p2p other

def HasUnconnected (s : State) : Prop :=
  ∃ p, s.mAudioP2p = some p ∧ p.connectedOnce = false

section

variable {net : Inet} {settings : Settings} {token : ByteString} {s t : State}

theorem not_requests_self {text : ByteString} : ¬Requests net settings text s s := by
  rintro ⟨side, p, q, hp, hq, hout, -⟩
  obtain rfl : p = q := Option.some.inj (hp.symm.trans hq)
  exact sendto_ne _ _ _ hout.symm

theorem requests_setAudio {text : ByteString} {p q : Session} (hp : s.mAudioP2p = some p) :
    Requests net settings text s (s.setP2p .audio (some q)) ↔
      q.channel.out = (p.channel.out.sendto (serverAddr net settings) text).2 := by
  constructor
  · rintro ⟨side, p', q', hp', hq', hout, -⟩
    cases side with
    | audio =>
      obtain rfl : p = p' := Option.some.inj (hp.symm.trans hp')
      obtain rfl : q = q' := Option.some.inj hq'
      exact hout
    | video =>
      obtain rfl : p' = q' := Option.some.inj (hp'.symm.trans hq')
      exact absurd hout.symm (sendto_ne _ _ _)
  · intro hout
    refine ⟨.audio, p, q, hp, rfl, hout, ?_⟩
    intro other hother
    exact State.p2p_setP2p_ne s .audio (some q) hother

theorem texted_reject {p q : Session} {tIntValue : Int32} (htoken : p.p.mToken = token) :
    Texted net settings p (.rejectPeer (intToString tIntValue)) q ↔
      q.channel.out =
        (p.channel.out.sendto (serverAddr net settings) (rejectText token tIntValue)).2 := by
  subst htoken
  constructor
  · intro htexted
    exact htexted _ rfl
  · rintro hout text ⟨⟩
    exact hout

end

/-- In every reachable state a rejection reaches the server exactly if an audio object that
has not connected is left to send it. -/
theorem reject_requests_iff {net : Inet} {settings : Settings} {token : ByteString}
    {mCurrent : Int32} {events : List Event} {s t : State} {tIntValue : Int32}
    (hrun : Transition.runM (step net settings token) (State.start mCurrent) events = .ok s)
    (hreject : step net settings token s (.reject tIntValue) = .ok t) :
    Requests net settings (rejectText token tIntValue) s t ↔ HasUnconnected s := by
  rw [step] at hreject
  rcases reject_cases (handle_eq_ok hreject) with ⟨hnone, rfl⟩ | ⟨p, q, hp, hq, rfl⟩
  · apply iff_of_false not_requests_self
    rintro ⟨p, hp, -⟩
    rw [hnone] at hp
    cases hp
  · obtain ⟨htracks, htoken⟩ := (sound_run hrun).tracked .audio p hp
    have htexted := texted_iff htracks hq
    have hcommand : commandOf p.p (.rejectPeer (intToString tIntValue)) ≠ none :=
      Option.some_ne_none _
    rw [requests_setAudio hp, ← texted_reject htoken, htexted]
    constructor
    · intro honce
      exact ⟨p, hp, honce hcommand⟩
    · rintro ⟨p', hp', honce⟩ -
      obtain rfl : p = p' := Option.some.inj (hp.symm.trans hp')
      exact honce

def dialled : Opened :=
  ⟨4, str "192.168.0.14", ⟨⟨[], []⟩,
    [.datagram ⟨1, htons 4000⟩ (str "200 OK"), .datagram ⟨1, htons 4000⟩ (str "200 OK")]⟩⟩

def dialling : List Event :=
  [.connect, .connecting 0 5 dialled, .connecting 0 5 dialled, .connecting 0 5 dialled]

theorem reject_requests_dialled :
    ∃ s t, Transition.runM (step lan lanSettings (str "token-1")) (State.start 0) dialling =
        .ok s ∧
      step lan lanSettings (str "token-1") s (.reject 3) = .ok t ∧
      Requests lan lanSettings (rejectText (str "token-1") 3) s t := by
  refine ⟨_, _, rfl, rfl, ?_⟩
  have hrun : Transition.runM (step lan lanSettings (str "token-1")) (State.start 0) dialling =
      .ok _ := rfl
  exact (reject_requests_iff hrun rfl).mpr ⟨_, rfl, rfl⟩

/-- A client that has neither dialled nor accepted has nothing to send a rejection with. -/
theorem reject_without_call_unsent :
    ¬∀ (events : List Event) (s t : State) (tIntValue : Int32),
      Transition.runM (step lan lanSettings (str "token-1")) (State.start 0) events = .ok s →
      step lan lanSettings (str "token-1") s (.reject tIntValue) = .ok t →
      Requests lan lanSettings (rejectText (str "token-1") tIntValue) s t := by
  intro h
  exact not_requests_self (h [] (State.start 0) (State.start 0) 3 rfl rfl)

end Skype.CallObject
