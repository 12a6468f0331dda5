import Mathlib

/-!
# Runs of a deterministic transition system

`run step s events` is the state behind a list of events. A property of the
states before each event of a run, `Always`, is the language that guarded
invariants are stated in: an invariant that every guarded event preserves holds
at the end of a run and before each of its events. `runM` is the run of a system
whose steps can fail; it fails with its first failing step.
-/

namespace Library.Transition

variable {σ ε : Type*}

def run (step : σ → ε → σ) (s : σ) (events : List ε) : σ := events.foldl step s

/-- `ok` holds of every event of the run in the state before it. -/
def Always (step : σ → ε → σ) (ok : σ → ε → Prop) (s : σ) (events : List ε) : Prop :=
  ∀ pre event post, events = pre ++ event :: post → ok (run step s pre) event

section

variable {step : σ → ε → σ} {ok good : σ → ε → Prop} {inv : σ → Prop} {s : σ}

theorem always_nil : Always step ok s [] := by
  intro pre event post he
  simp at he

theorem always_cons_iff (event : ε) (events : List ε) :
    Always step ok s (event :: events) ↔ ok s event ∧ Always step ok (step s event) events := by
  constructor
  · intro h
    refine ⟨h [] event events rfl, ?_⟩
    intro pre e post he
    exact h (event :: pre) e post (by rw [he, List.cons_append])
  · rintro ⟨hfirst, hrest⟩ pre e post he
    cases pre with
    | nil =>
      obtain ⟨rfl, -⟩ := List.cons.inj he
      exact hfirst
    | cons a pre =>
      obtain ⟨rfl, htail⟩ := List.cons.inj he
      exact hrest pre e post htail

theorem always_left {pre post : List ε} (h : Always step ok s (pre ++ post)) :
    Always step ok s pre := by
  intro a e b hab
  exact h a e (b ++ post) (by rw [hab, List.append_assoc, List.cons_append])

theorem invariant_run (hstep : ∀ t e, inv t → ok t e → inv (step t e)) {events : List ε}
    (hinit : inv s) (hok : Always step ok s events) : inv (run step s events) := by
  induction events generalizing s with
  | nil => exact hinit
  | cons event events ih =>
    obtain ⟨hfirst, hrest⟩ := (always_cons_iff event events).mp hok
    exact ih (hstep s event hinit hfirst) hrest

theorem invariant_before (hstep : ∀ t e, inv t → ok t e → inv (step t e)) {events : List ε}
    (hinit : inv s) (hok : Always step ok s events)
    (hgood : ∀ t e, inv t → ok t e → good t e) : Always step good s events := by
  intro pre event post he
  have hpre := invariant_run hstep hinit (always_left (he ▸ hok))
  exact hgood _ _ hpre (hok pre event post he)

instance decidableAlways [∀ t e, Decidable (ok t e)] :
    ∀ (events : List ε) (s : σ), Decidable (Always step ok s events)
  | [], _ => isTrue always_nil
  | event :: events, s =>
    have : Decidable (Always step ok (step s event) events) :=
      decidableAlways events (step s event)
    decidable_of_iff _ (always_cons_iff event events).symm

theorem always_congr_of_invariant {events : List ε} (hinit : inv s)
    (hagree : ∀ t e, inv t → (ok t e ↔ good t e))
    (hnext : ∀ t e, inv t → ok t e → inv (step t e)) :
    Always step ok s events ↔ Always step good s events := by
  induction events generalizing s with
  | nil => exact iff_of_true always_nil always_nil
  | cons event events ih =>
    rw [always_cons_iff, always_cons_iff, hagree s event hinit]
    apply and_congr_right
    intro hgood
    exact ih (hnext s event hinit ((hagree s event hinit).mpr hgood))

end

section

variable {η : Type*} {step : σ → ε → Except η σ} {ok : ε → Prop} {inv : σ → Prop} {s t : σ}

def runM (step : σ → ε → Except η σ) : σ → List ε → Except η σ
  | s, [] => .ok s
  | s, event :: events =>
    match step s event with
    | .error e => .error e
    | .ok next => runM step next events

theorem runM_cons_eq_ok {event : ε} {events : List ε} :
    runM step s (event :: events) = .ok t ↔
      ∃ next, step s event = .ok next ∧ runM step next events = .ok t := by
  rw [runM]
  cases step s event with
  | error e => simp
  | ok next => simp

theorem invariant_runM (hstep : ∀ a e b, inv a → ok e → step a e = .ok b → inv b)
    {events : List ε} (hinit : inv s) (hok : ∀ e ∈ events, ok e)
    (hrun : runM step s events = .ok t) : inv t := by
  induction events generalizing s with
  | nil =>
    obtain rfl := Except.ok.inj hrun
    exact hinit
  | cons event events ih =>
    obtain ⟨next, hfirst, hrest⟩ := runM_cons_eq_ok.mp hrun
    have hnext := hstep s event next hinit (hok event List.mem_cons_self) hfirst
    exact ih hnext (fun e he => hok e (List.mem_cons_of_mem _ he)) hrest

/-- `good` holds of every step of the run, with the states before and behind it. -/
def AlwaysM (step : σ → ε → Except η σ) (good : σ → ε → σ → Prop) (s : σ) (events : List ε) :
    Prop :=
  ∀ pre event post a b, events = pre ++ event :: post → runM step s pre = .ok a →
    step a event = .ok b → good a event b

theorem alwaysM_congr {good fine : σ → ε → σ → Prop} {events : List ε}
    (h : ∀ a e b, step a e = .ok b → (good a e b ↔ fine a e b)) :
    AlwaysM step good s events ↔ AlwaysM step fine s events := by
  constructor
  · intro hgood pre event post a b he hpre hstep
    exact (h a event b hstep).mp (hgood pre event post a b he hpre hstep)
  · intro hfine pre event post a b he hpre hstep
    exact (h a event b hstep).mpr (hfine pre event post a b he hpre hstep)

theorem alwaysM_of_forall {good : σ → ε → σ → Prop} {events : List ε}
    (h : ∀ e ∈ events, ∀ a b, good a e b) : AlwaysM step good s events := by
  intro pre event post a b he _ _
  apply h
  rw [he]
  exact List.mem_append_right pre List.mem_cons_self

theorem alwaysM_cons_iff {good : σ → ε → σ → Prop} (event : ε) (events : List ε) :
    AlwaysM step good s (event :: events) ↔
      ∀ next, step s event = .ok next → good s event next ∧ AlwaysM step good next events := by
  constructor
  · intro h next hnext
    refine ⟨h [] event events s next rfl rfl hnext, ?_⟩
    intro pre e post a b he hpre hstep
    apply h (event :: pre) e post a b
    · rw [he, List.cons_append]
    · exact runM_cons_eq_ok.mpr ⟨next, hnext, hpre⟩
    · exact hstep
  · intro h pre e post a b he hpre hstep
    cases pre with
    | nil =>
      obtain ⟨rfl, -⟩ := List.cons.inj he
      obtain rfl := Except.ok.inj hpre
      exact (h b hstep).1
    | cons head pre =>
      obtain ⟨rfl, htail⟩ := List.cons.inj he
      obtain ⟨next, hnext, hrest⟩ := runM_cons_eq_ok.mp hpre
      exact (h next hnext).2 pre e post a b htail hrest hstep

theorem alwaysM_left {good : σ → ε → σ → Prop} {pre post : List ε}
    (h : AlwaysM step good s (pre ++ post)) : AlwaysM step good s pre := by
  intro left event right a b he hleft hstep
  apply h left event (right ++ post) a b _ hleft hstep
  rw [he, List.append_assoc, List.cons_append]

instance decidableAlwaysM {good : σ → ε → σ → Prop} [∀ a e b, Decidable (good a e b)] :
    ∀ (events : List ε) (s : σ), Decidable (AlwaysM step good s events)
  | [], _ => isTrue fun _ _ _ _ _ he => absurd he (by simp)
  | event :: events, s =>
    match hstep : step s event with
    | .error _ => isTrue ((alwaysM_cons_iff event events).mpr fun _ hnext =>
        absurd (hstep.symm.trans hnext) (by simp))
    | .ok next =>
      have : Decidable (AlwaysM step good next events) := decidableAlwaysM events next
      decidable_of_iff (good s event next ∧ AlwaysM step good next events) (by
        rw [alwaysM_cons_iff, hstep]
        constructor
        · intro h other hother
          obtain rfl := Except.ok.inj hother
          exact h
        · intro h
          exact h next rfl)

theorem invariant_alwaysM {good : σ → ε → σ → Prop} {events : List ε}
    (hinit : inv s) (hstep : ∀ a e b, inv a → good a e b → step a e = .ok b → inv b)
    (hgood : AlwaysM step good s events) (hrun : runM step s events = .ok t) : inv t := by
  induction events generalizing s with
  | nil =>
    obtain rfl := Except.ok.inj hrun
    exact hinit
  | cons event events ih =>
    obtain ⟨next, hfirst, hrest⟩ := runM_cons_eq_ok.mp hrun
    obtain ⟨hhead, htail⟩ := (alwaysM_cons_iff event events).mp hgood next hfirst
    exact ih (hstep s event next hinit hhead hfirst) htail hrest

theorem alwaysM_of_invariant {guard : σ → ε → σ → Prop} {events : List ε} (hinit : inv s)
    (hguard : AlwaysM step guard s events)
    (hstep : ∀ a e b, inv a → guard a e b → step a e = .ok b → inv b) :
    AlwaysM step (fun _ _ b => inv b) s events := by
  intro pre event post a b he hpre hb
  have hbefore : inv a := by
    apply invariant_alwaysM hinit hstep _ hpre
    rw [he] at hguard
    exact alwaysM_left hguard
  exact hstep a event b hbefore (hguard pre event post a b he hpre hb) hb

/-- Where only harmless events can follow on a dead state, a run goes through exactly if
nothing but harmless events comes behind one that spoils its state. -/
theorem runM_ok_iff (alive dead : σ → Prop) {spoils : σ → ε → Prop} {harmless : ε → Prop}
    (halive : ∀ a e, alive a → ∃ b, step a e = .ok b ∧ (spoils a e → dead b) ∧
      (¬spoils a e → alive b))
    (hdead : ∀ a e, dead a → ((∃ b, step a e = .ok b) ↔ harmless e))
    (hstays : ∀ a e b, dead a → step a e = .ok b → dead b) {events : List ε} (hs : alive s) :
    (∃ t, runM step s events = .ok t) ↔
      ∀ pre event post a, events = pre ++ event :: post → runM step s pre = .ok a →
        spoils a event → ∀ later ∈ post, harmless later := by
  have hrest : ∀ {a events}, dead a →
      ((∃ t, runM step a events = .ok t) ↔ ∀ later ∈ events, harmless later) := by
    intro a events ha
    induction events generalizing a with
    | nil => simp [runM]
    | cons event events ih =>
      rw [List.forall_mem_cons, ← hdead a event ha]
      constructor
      · rintro ⟨t, hrun⟩
        obtain ⟨b, hb, hrun⟩ := runM_cons_eq_ok.mp hrun
        exact ⟨⟨b, hb⟩, (ih (hstays a event b ha hb)).mp ⟨t, hrun⟩⟩
      · rintro ⟨⟨b, hb⟩, hlater⟩
        obtain ⟨t, hrun⟩ := (ih (hstays a event b ha hb)).mpr hlater
        exact ⟨t, runM_cons_eq_ok.mpr ⟨b, hb, hrun⟩⟩
  induction events generalizing s with
  | nil => simp [runM]
  | cons event events ih =>
    obtain ⟨next, hnext, hspoiled, hkept⟩ := halive s event hs
    have hrun :
        (∃ t, runM step s (event :: events) = .ok t) ↔ ∃ t, runM step next events = .ok t := by
      simp [runM_cons_eq_ok, hnext]
    rw [hrun]
    by_cases hspoils : spoils s event
    · rw [hrest (hspoiled hspoils)]
      constructor
      · intro hall pre first post a hsplit hpre hfirst later hlater
        cases pre with
        | nil =>
          obtain ⟨rfl, rfl⟩ := List.cons.inj hsplit
          exact hall later hlater
        | cons head pre =>
          obtain ⟨rfl, rfl⟩ := List.cons.inj hsplit
          apply hall
          exact List.mem_append_right pre (List.mem_cons_of_mem first hlater)
      · intro h
        exact h [] event events s rfl rfl hspoils
    · refine (ih (hkept hspoils)).trans ?_
      constructor
      · intro h pre first post a hsplit hpre hfirst
        cases pre with
        | nil =>
          obtain ⟨rfl, rfl⟩ := List.cons.inj hsplit
          obtain rfl := Except.ok.inj hpre
          exact absurd hfirst hspoils
        | cons head pre =>
          obtain ⟨rfl, rfl⟩ := List.cons.inj hsplit
          obtain ⟨other, hother, hpre⟩ := runM_cons_eq_ok.mp hpre
          rw [hnext] at hother
          obtain rfl := Except.ok.inj hother
          exact h pre first post a rfl hpre hfirst
      · intro h pre first post a hsplit hpre hfirst
        apply h (event :: pre) first post a
        · rw [hsplit, List.cons_append]
        · exact runM_cons_eq_ok.mpr ⟨next, hnext, hpre⟩
        · exact hfirst

/-- What no step can repair holds along a run when it holds at its end. -/
theorem alwaysM_of_runM (hback : ∀ a e b, step a e = .ok b → inv b → inv a) {events : List ε}
    (hrun : runM step s events = .ok t) (ht : inv t) :
    inv s ∧ AlwaysM step (fun _ _ b => inv b) s events := by
  induction events generalizing s with
  | nil =>
    obtain rfl := Except.ok.inj hrun
    refine ⟨ht, ?_⟩
    intro pre event post a b he
    simp at he
  | cons event events ih =>
    obtain ⟨next, hfirst, hrest⟩ := runM_cons_eq_ok.mp hrun
    obtain ⟨hnext, halways⟩ := ih hrest
    refine ⟨hback s event next hfirst hnext, ?_⟩
    rw [alwaysM_cons_iff]
    intro other hother
    rw [hfirst] at hother
    obtain rfl := Except.ok.inj hother
    exact ⟨hnext, halways⟩

/-- Two step properties that agree under an invariant hold along the same runs, when
the first of them carries the invariant on. -/
theorem alwaysM_congr_of_invariant {good fine : σ → ε → σ → Prop} {events : List ε}
    (hinit : inv s) (hagree : ∀ a e b, inv a → step a e = .ok b → (good a e b ↔ fine a e b))
    (hnext : ∀ a e b, inv a → step a e = .ok b → good a e b → inv b) :
    AlwaysM step good s events ↔ AlwaysM step fine s events := by
  induction events generalizing s with
  | nil =>
    have hempty : ∀ {any : σ → ε → σ → Prop}, AlwaysM step any s [] := by
      intro any pre event post a b he
      simp at he
    exact iff_of_true hempty hempty
  | cons event events ih =>
    rw [alwaysM_cons_iff, alwaysM_cons_iff]
    apply forall_congr'
    intro next
    apply imp_congr_right
    intro hstep
    rw [hagree s event next hinit hstep]
    apply and_congr_right
    intro hfine
    exact ih (hnext s event next hinit hstep ((hagree s event next hinit hstep).mpr hfine))

theorem alwaysM_and {good fine : σ → ε → σ → Prop} {events : List ε} :
    AlwaysM step (fun a e b => good a e b ∧ fine a e b) s events ↔
      AlwaysM step good s events ∧ AlwaysM step fine s events := by
  constructor
  · intro h
    constructor
    · intro pre event post a b he hpre hstep
      exact (h pre event post a b he hpre hstep).1
    · intro pre event post a b he hpre hstep
      exact (h pre event post a b he hpre hstep).2
  · rintro ⟨hgood, hfine⟩ pre event post a b he hpre hstep
    exact ⟨hgood pre event post a b he hpre hstep, hfine pre event post a b he hpre hstep⟩

theorem alwaysM_congr_of_guard {guard good fine : σ → ε → σ → Prop} {events : List ε}
    (hinit : inv s) (hguard : AlwaysM step guard s events)
    (hagree : ∀ a e b, inv a → guard a e b → step a e = .ok b → (good a e b ↔ fine a e b))
    (hnext : ∀ a e b, inv a → guard a e b → step a e = .ok b → good a e b → inv b) :
    AlwaysM step good s events ↔ AlwaysM step fine s events := by
  have hboth : AlwaysM step (fun a e b => guard a e b ∧ good a e b) s events ↔
      AlwaysM step (fun a e b => guard a e b ∧ fine a e b) s events := by
    apply alwaysM_congr_of_invariant hinit
    · intro a e b ha hstep
      exact and_congr_right fun hguarded => hagree a e b ha hguarded hstep
    · intro a e b ha hstep hgood
      exact hnext a e b ha hgood.1 hstep hgood.2
  rw [alwaysM_and, alwaysM_and] at hboth
  exact ⟨fun hgood => (hboth.mp ⟨hguard, hgood⟩).2, fun hfine => (hboth.mpr ⟨hguard, hfine⟩).2⟩

end

end Library.Transition
