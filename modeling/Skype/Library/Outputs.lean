import Skype.Library.Transition

/-!
# What a run puts out

`outputs step out s events` is what the steps of a run put out, one after another. A queue
between what comes in and what goes out keeps the order of a run if every step keeps it. A
flag that some events set and others reset is up if one of the first is behind the last of
the others.
-/

namespace Library.Transition

variable {σ ε β : Type*}

def outputs (step : σ → ε → σ) (out : σ → ε → List β) : σ → List ε → List β
  | _, [] => []
  | s, event :: events => out s event ++ outputs step out (step s event) events

/-- An event of the run sets, and none behind it resets. -/
def Since (step : σ → ε → σ) (sets resets : σ → ε → Prop) (s : σ) (events : List ε) : Prop :=
  ∃ pre event post, events = pre ++ event :: post ∧ sets (run step s pre) event ∧
    Always step (fun a e => ¬resets a e) (step (run step s pre) event) post

section

variable {step : σ → ε → σ} {out inp : σ → ε → List β} {ok sets resets : σ → ε → Prop}
  {inv : σ → Prop} {s : σ}

theorem always_event_iff {p : ε → Prop} {events : List ε} :
    Always step (fun _ e => p e) s events ↔ ∀ event ∈ events, p event := by
  constructor
  · intro h event hevent
    obtain ⟨pre, post, hsplit⟩ := List.append_of_mem hevent
    exact h pre event post hsplit
  · intro h pre event post hsplit
    apply h
    rw [hsplit]
    exact List.mem_append_right pre List.mem_cons_self

theorem outputs_of_events (f : ε → List β) (events : List ε) :
    outputs step (fun _ e => f e) s events = events.flatMap f := by
  induction events generalizing s with
  | nil => rfl
  | cons event events ih => rw [outputs, ih, List.flatMap_cons]

theorem outputs_rel {γ : Type*} {inp : σ → ε → List γ} {R : List β → List γ → Prop}
    (hnil : R [] []) (happend : ∀ a b c d, R a b → R c d → R (a ++ c) (b ++ d))
    (hstep : ∀ a e, ok a e → R (out a e) (inp a e)) {events : List ε}
    (hok : Always step ok s events) :
    R (outputs step out s events) (outputs step inp s events) := by
  induction events generalizing s with
  | nil => exact hnil
  | cons event events ih =>
    obtain ⟨hfirst, hrest⟩ := (always_cons_iff event events).mp hok
    exact happend _ _ _ _ (hstep s event hfirst) (ih hrest)

theorem outputs_append_queue (queue : σ → List β)
    (hstep : ∀ a e, ok a e → out a e ++ queue (step a e) = queue a ++ inp a e) {events : List ε}
    (hok : Always step ok s events) :
    outputs step out s events ++ queue (run step s events) =
      queue s ++ outputs step inp s events := by
  induction events generalizing s with
  | nil => exact (List.append_nil _).symm
  | cons event events ih =>
    obtain ⟨hfirst, hrest⟩ := (always_cons_iff event events).mp hok
    have hqueue : outputs step out (step s event) events ++ queue (run step s (event :: events)) =
        queue (step s event) ++ outputs step inp (step s event) events := ih hrest
    rw [outputs, List.append_assoc, hqueue, ← List.append_assoc, hstep s event hfirst,
      List.append_assoc, outputs]

/-- A queue that may lose some of what it holds. -/
theorem outputs_sublist_queue (queue : σ → List β)
    (hstep : ∀ a e, (out a e ++ queue (step a e)).Sublist (queue a ++ inp a e))
    (events : List ε) :
    (outputs step out s events ++ queue (run step s events)).Sublist
      (queue s ++ outputs step inp s events) := by
  induction events generalizing s with
  | nil => exact (List.append_nil _).symm ▸ List.Sublist.refl _
  | cons event events ih =>
    have hrest : (outputs step out (step s event) events ++
        queue (run step s (event :: events))).Sublist
          (queue (step s event) ++ outputs step inp (step s event) events) := ih
    have hfirst := hstep s event
    rw [outputs, List.append_assoc, outputs]
    refine (hrest.append_left _).trans ?_
    rw [← List.append_assoc, ← List.append_assoc]
    exact hfirst.append_right _

theorem length_outputs_le (potential : σ → ℕ) (hinv : ∀ a e, inv a → inv (step a e))
    (hstep : ∀ a e, inv a → (out a e).length + potential (step a e) ≤ potential a)
    (hs : inv s) (events : List ε) : (outputs step out s events).length ≤ potential s := by
  induction events generalizing s with
  | nil => exact Nat.zero_le _
  | cons event events ih =>
    have hfirst := hstep s event hs
    have hrest := ih (hinv s event hs)
    rw [outputs, List.length_append]
    omega

theorem since_cons_iff (event : ε) (events : List ε) :
    Since step sets resets s (event :: events) ↔
      (sets s event ∧ Always step (fun a e => ¬resets a e) (step s event) events) ∨
        Since step sets resets (step s event) events := by
  constructor
  · rintro ⟨pre, first, post, hsplit, hsets, hkept⟩
    cases pre with
    | nil =>
      obtain ⟨rfl, rfl⟩ := List.cons.inj hsplit
      exact Or.inl ⟨hsets, hkept⟩
    | cons head pre =>
      obtain ⟨rfl, rfl⟩ := List.cons.inj hsplit
      exact Or.inr ⟨pre, first, post, rfl, hsets, hkept⟩
  · rintro (⟨hsets, hkept⟩ | ⟨pre, first, post, rfl, hsets, hkept⟩)
    · exact ⟨[], event, events, rfl, hsets, hkept⟩
    · exact ⟨event :: pre, first, post, rfl, hsets, hkept⟩

theorem flag_run_iff (flag : σ → Prop) (hinv : ∀ a e, inv a → inv (step a e))
    (hstep : ∀ a e, inv a → (flag (step a e) ↔ sets a e ∨ flag a ∧ ¬resets a e)) (hs : inv s)
    (events : List ε) :
    flag (run step s events) ↔ Since step sets resets s events ∨
      flag s ∧ Always step (fun a e => ¬resets a e) s events := by
  induction events generalizing s with
  | nil =>
    constructor
    · exact fun hflag => Or.inr ⟨hflag, always_nil⟩
    · rintro (⟨pre, event, post, hsplit, -, -⟩ | ⟨hflag, -⟩)
      · simp at hsplit
      · exact hflag
  | cons event events ih =>
    have hrest : flag (run step s (event :: events)) ↔ _ := ih (hinv s event hs)
    rw [hrest, since_cons_iff, always_cons_iff, hstep s event hs]
    tauto

theorem latch_run_iff (flag : σ → Prop)
    (hstep : ∀ a e, flag (step a e) ↔ flag a ∧ ¬resets a e) (events : List ε) :
    flag (run step s events) ↔ flag s ∧ Always step (fun a e => ¬resets a e) s events := by
  induction events generalizing s with
  | nil => exact (and_iff_left always_nil).symm
  | cons event events ih =>
    have hrest : flag (run step s (event :: events)) ↔ _ := ih
    rw [hrest, hstep, always_cons_iff, and_assoc]

end

end Library.Transition
