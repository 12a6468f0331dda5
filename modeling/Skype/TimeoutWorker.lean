import Skype.UserAwaiting
import Skype.Library.Transition

/-!
# The time-out worker and the requests of live callers

A request leaves its record behind when it is destroyed, and a new request of the
same user appends another one. A pass that meets two records of one user marks
both at the first and collects the request at the second. With one record for
each user that was inserted or pinged since the last pass, no pass collects such
a user.
-/

namespace Skype.AwaitingUsers

open Library

namespace Traversal

variable {t : Traversal} {i j : ℕ} {u v : Int32} {record : Timeout}

def mark (t : Traversal) (id : Int32) : Traversal :=
  { t with store := t.store.updateTimeoutStatus id .detached }

def collect (t : Traversal) (id : Int32) : Traversal :=
  ({ t with store := (t.store.destroy id).2 } : Traversal).eraseFirst

theorem visit_of_detached (hr : t.memory[i]? = some record) (hd : record.status = .detached) :
    t.visit i = t.collect record.userId := by
  simp only [visit, hr, if_pos hd, collect]

theorem visit_of_not_detached (hr : t.memory[i]? = some record) (hd : record.status ≠ .detached) :
    t.visit i = t.mark record.userId := by
  simp only [visit, hr, if_neg hd, mark]

theorem getElem?_mTimeouts_collect (id : Int32) (j : ℕ) :
    (t.collect id).store.mTimeouts[j]? = t.store.mTimeouts[j + 1]? := by
  simp only [collect, eraseFirst, mTimeouts_destroy]
  cases h : t.store.mTimeouts <;> simp [h]

@[simp] theorem mAwaitingUsers_collect (id : Int32) :
    (t.collect id).store.mAwaitingUsers = Function.update t.store.mAwaitingUsers id none := by
  rw [← mAwaitingUsers_destroy]
  simp only [collect, eraseFirst, mTimeouts_destroy]
  split <;> rfl

theorem length_memory_collect (id : Int32) : (t.collect id).memory.length = t.memory.length := by
  simp only [collect, eraseFirst, mTimeouts_destroy, memory]
  cases h : t.store.mTimeouts with
  | nil => simp [h]
  | cons first rest =>
    simp only [List.length_append, List.length_cons]
    omega

theorem exists_getElem?_of_collect {id : Int32} (h : (t.collect id).memory[j]? = some record) :
    ∃ k, (k = j ∨ k = j + 1) ∧ t.memory[k]? = some record := by
  simp only [collect, eraseFirst, mTimeouts_destroy, memory] at h ⊢
  cases hm : t.store.mTimeouts with
  | nil =>
    refine ⟨j, Or.inl rfl, ?_⟩
    simpa [hm] using h
  | cons first rest =>
    simp only [hm] at h
    rcases lt_trichotomy j rest.length with hlt | heq | hgt
    · refine ⟨j + 1, Or.inr rfl, ?_⟩
      rw [List.getElem?_append_left hlt] at h
      rw [List.cons_append, List.getElem?_cons_succ, List.getElem?_append_left hlt, h]
    · refine ⟨j, Or.inl rfl, ?_⟩
      subst heq
      rw [List.getElem?_append_right le_rfl, Nat.sub_self, List.getElem?_cons_zero] at h
      rw [← h, List.getElem?_append_left (by simp), List.getLast_eq_getElem]
      exact List.getElem?_eq_getElem _
    · refine ⟨j, Or.inl rfl, ?_⟩
      obtain ⟨d, rfl⟩ := Nat.exists_eq_add_of_lt hgt
      have hsub : rest.length + d + 1 - rest.length = d + 1 := by omega
      rw [List.getElem?_append_right (by omega), hsub, List.getElem?_cons_succ] at h
      rw [← h, List.getElem?_append_right (by simp only [List.length_cons]; omega)]
      congr 1
      simp only [List.length_cons]
      omega

theorem getElem?_mTimeouts_mark (id : Int32) (j : ℕ) :
    (t.mark id).store.mTimeouts[j]? = t.store.mTimeouts[j]?.map fun r =>
      if r.userId = id then { r with status := .detached } else r := by
  simp [mark, updateTimeoutStatus, setStatus]

theorem map_userId_mark (id : Int32) :
    (t.mark id).store.mTimeouts.map Timeout.userId = t.store.mTimeouts.map Timeout.userId :=
  map_userId_setStatus id .detached t.store.mTimeouts

theorem length_memory_mark (id : Int32) : (t.mark id).memory.length = t.memory.length := by
  simp [mark, memory, updateTimeoutStatus, setStatus]

theorem exists_getElem?_of_mark {id : Int32} (h : (t.mark id).memory[j]? = some record) :
    ∃ before, t.memory[j]? = some before ∧ before.userId = record.userId ∧
      (record.status = before.status ∨
        j < t.store.mTimeouts.length ∧ record.userId = id ∧ record.status = .detached) := by
  have hlen : (t.mark id).store.mTimeouts.length = t.store.mTimeouts.length := by
    simpa using congrArg List.length (map_userId_mark (t := t) id)
  by_cases hj : j < t.store.mTimeouts.length
  · rw [memory, List.getElem?_append_left (by omega), getElem?_mTimeouts_mark,
      Option.map_eq_some_iff] at h
    obtain ⟨before, hbefore, hrecord⟩ := h
    refine ⟨before, by rw [memory, List.getElem?_append_left hj, hbefore], ?_⟩
    by_cases hid : before.userId = id
    · rw [if_pos hid] at hrecord
      subst hrecord
      exact ⟨rfl, Or.inr ⟨hj, hid, rfl⟩⟩
    · rw [if_neg hid] at hrecord
      subst hrecord
      exact ⟨rfl, Or.inl rfl⟩
  · rw [memory, List.getElem?_append_right (by omega), hlen] at h
    refine ⟨record, ?_, rfl, Or.inl rfl⟩
    rw [memory, List.getElem?_append_right (by omega)]
    exact h

theorem length_memory_visit (t : Traversal) (i : ℕ) :
    (t.visit i).memory.length = t.memory.length := by
  cases hr : t.memory[i]? with
  | none => simp only [visit, hr]
  | some record =>
    by_cases hd : record.status = .detached
    · rw [visit_of_detached hr hd, length_memory_collect]
    · rw [visit_of_not_detached hr hd, length_memory_mark]

theorem visitAll_induction {motive : ℕ → Traversal → Prop} {m n : ℕ} (hmn : m ≤ n)
    (hn : n ≤ t.memory.length) (hstart : motive m (t.visitAll m))
    (hstep : ∀ i t', m ≤ i → i < t'.memory.length → motive i t' → motive (i + 1) (t'.visit i)) :
    motive n (t.visitAll n) := by
  have hlength : ∀ k, (t.visitAll k).memory.length = t.memory.length := by
    intro k
    induction k with
    | zero => rfl
    | succ k ih => rw [visitAll, length_memory_visit, ih]
  induction n, hmn using Nat.le_induction with
  | base => exact hstart
  | succ n hmn ih =>
    exact hstep n _ hmn (by rw [hlength]; omega) (ih (by omega))

theorem visit_mAwaitingUsers {user : AwaitingUser}
    (h : (t.visit i).store.mAwaitingUsers u = some user) :
    t.store.mAwaitingUsers u = some user := by
  cases hr : t.memory[i]? with
  | none => simpa only [visit, hr] using h
  | some record =>
    by_cases hd : record.status = .detached
    · rw [visit_of_detached hr hd, mAwaitingUsers_collect] at h
      by_cases hu : u = record.userId
      · subst hu
        simp at h
      · rwa [Function.update_of_ne hu] at h
    · rw [visit_of_not_detached hr hd] at h
      exact h

structure Safe (t : Traversal) (i : ℕ) (u : Int32) : Prop where
  live : ∀ j record, i ≤ j → t.memory[j]? = some record → record.userId = u →
    record.status ≠ .detached
  single : ∀ j k a b, i ≤ j → i ≤ k → t.store.mTimeouts[j]? = some a →
    t.store.mTimeouts[k]? = some b → a.userId = u → b.userId = u → j = k

theorem Safe.collect (h : t.Safe i u) (id : Int32) : (t.collect id).Safe (i + 1) u where
  live j record hj hr hu := by
    obtain ⟨k, hk, hr'⟩ := exists_getElem?_of_collect hr
    exact h.live k record (by omega) hr' hu
  single j k a b hj hk ha hb hau hbu := by
    rw [getElem?_mTimeouts_collect] at ha hb
    have heq := h.single (j + 1) (k + 1) a b (by omega) (by omega) ha hb hau hbu
    omega

theorem Safe.mark (h : t.Safe i u) (hr : t.memory[i]? = some record) :
    (t.mark record.userId).Safe (i + 1) u where
  live j after hj hafter hu := by
    obtain ⟨before, hbefore, hid, hstatus | ⟨hin, hsame, -⟩⟩ := exists_getElem?_of_mark hafter
    · rw [hstatus]
      exact h.live j before (by omega) hbefore (hid.trans hu)
    · -- The record at `j` would be a second one of `u` inside the vector.
      have hi : t.store.mTimeouts[i]? = some record := by
        rwa [memory, List.getElem?_append_left (by omega)] at hr
      have hj' : t.store.mTimeouts[j]? = some before := by
        rwa [memory, List.getElem?_append_left hin] at hbefore
      have heq := h.single i j record before le_rfl (by omega) hi hj' (hsame ▸ hu) (hid.trans hu)
      omega
  single j k a b hj hk ha hb hau hbu := by
    have hbefore : ∀ {l : ℕ} {c : Timeout},
        (t.mark record.userId).store.mTimeouts[l]? = some c → c.userId = u →
        ∃ d, t.store.mTimeouts[l]? = some d ∧ d.userId = u := by
      intro l c hc hcu
      rw [getElem?_mTimeouts_mark, Option.map_eq_some_iff] at hc
      obtain ⟨d, hd, rfl⟩ := hc
      refine ⟨d, hd, ?_⟩
      split at hcu <;> exact hcu
    obtain ⟨a', ha', hau'⟩ := hbefore ha hau
    obtain ⟨b', hb', hbu'⟩ := hbefore hb hbu
    exact h.single j k a' b' (by omega) (by omega) ha' hb' hau' hbu'

theorem Safe.visit (h : t.Safe i u) (hi : i < t.memory.length) :
    (t.visit i).Safe (i + 1) u ∧
      (t.visit i).store.mAwaitingUsers u = t.store.mAwaitingUsers u := by
  have hr : t.memory[i]? = some t.memory[i] := List.getElem?_eq_getElem hi
  by_cases hd : t.memory[i].status = .detached
  · have hne : u ≠ t.memory[i].userId := by
      intro hu
      exact h.live i _ le_rfl hr hu.symm hd
    rw [visit_of_detached hr hd]
    refine ⟨h.collect _, ?_⟩
    rw [mAwaitingUsers_collect, Function.update_of_ne hne]
  · rw [visit_of_not_detached hr hd]
    exact ⟨h.mark hr, rfl⟩

end Traversal

theorem mAwaitingUsers_of_timeoutPass {store : AwaitingUsers} {u : Int32} {user : AwaitingUser}
    (h : store.timeoutPass.mAwaitingUsers u = some user) :
    store.mAwaitingUsers u = some user := by
  have hall : ∀ n, (Traversal.visitAll ⟨store, []⟩ n).store.mAwaitingUsers u = some user →
      store.mAwaitingUsers u = some user := by
    intro n
    induction n with
    | zero => exact id
    | succ n ih => exact fun hn => ih (Traversal.visit_mAwaitingUsers hn)
  exact hall _ h

theorem eq_of_count_le_one {ids : List Int32} {u : Int32} {j k : ℕ} (h : ids.count u ≤ 1)
    (hj : ids[j]? = some u) (hk : ids[k]? = some u) : j = k := by
  by_contra hne
  have hdup : List.Duplicate u ids := by
    obtain ⟨hjlt, hju⟩ := List.getElem?_eq_some_iff.mp hj
    obtain ⟨hklt, hku⟩ := List.getElem?_eq_some_iff.mp hk
    rw [List.duplicate_iff_exists_distinct_get]
    rcases Nat.lt_or_gt_of_ne hne with hlt | hgt
    · exact ⟨⟨j, hjlt⟩, ⟨k, hklt⟩, hlt, hju.symm, hku.symm⟩
    · exact ⟨⟨k, hklt⟩, ⟨j, hjlt⟩, hgt, hku.symm, hju.symm⟩
  have htwo := List.duplicate_iff_two_le_count.mp hdup
  omega

def records (store : AwaitingUsers) (u : Int32) : ℕ :=
  (store.mTimeouts.map Timeout.userId).count u

theorem safe_of_records {store : AwaitingUsers} {u : Int32}
    (hlive : ∀ record ∈ store.mTimeouts, record.userId = u → record.status ≠ .detached)
    (hsingle : store.records u ≤ 1) : Traversal.Safe ⟨store, []⟩ 0 u where
  live j record _ hr hu := by
    rw [Traversal.memory, List.append_nil] at hr
    exact hlive record (List.mem_of_getElem? hr) hu
  single j k a b _ _ ha hb hau hbu := by
    apply eq_of_count_le_one hsingle
    · rw [List.getElem?_map, ha, Option.map_some, hau]
    · rw [List.getElem?_map, hb, Option.map_some, hbu]

theorem timeoutPass_of_single {store : AwaitingUsers} {u : Int32}
    (hlive : ∀ record ∈ store.mTimeouts, record.userId = u → record.status ≠ .detached)
    (hsingle : store.records u ≤ 1) :
    store.timeoutPass.mAwaitingUsers u = store.mAwaitingUsers u := by
  have hlen : store.mTimeouts.length ≤ (Traversal.memory ⟨store, []⟩).length := by
    simp [Traversal.memory]
  have hrun := Traversal.visitAll_induction
    (motive := fun i t => t.Safe i u ∧ t.store.mAwaitingUsers u = store.mAwaitingUsers u)
    (Nat.zero_le _) hlen ⟨safe_of_records hlive hsingle, rfl⟩ (by
      rintro i t - hi ⟨hsafe, hsame⟩
      obtain ⟨hnext, hkeep⟩ := hsafe.visit hi
      exact ⟨hnext, hkeep.trans hsame⟩)
  exact hrun.2

structure Watched where
  store : AwaitingUsers
  fresh : Int32 → Bool

def Watched.start : Watched := ⟨empty, fun _ => false⟩

def Watched.next (w : Watched) (op : Op) : Watched where
  store := w.store.step op
  fresh u := match op with
    | .insert tUser => w.fresh u || (u == tUser.mId && (w.store.insert tUser).1)
    | .ping tId => w.fresh u || u == tId
    | .destroy _ => w.fresh u
    | .pass => false

def KeepsFresh (w : Watched) (op : Op) : Prop :=
  op = .pass → ∀ u, w.fresh u → w.store.exists' u → w.store.timeoutPass.exists' u

/-- A pass starts with at most one record for each fresh user that has a request. -/
def SingleRecords (w : Watched) (op : Op) : Prop :=
  op = .pass → ∀ u, w.fresh u → w.store.exists' u → w.store.records u ≤ 1

def FreshRecord (w : Watched) : Prop :=
  ∀ u, w.fresh u → (∀ record ∈ w.store.mTimeouts, record.userId ≠ u) ∨
    ∃ record ∈ w.store.mTimeouts, record.userId = u ∧ record.status ≠ .detached

theorem freshRecord_insert {w : Watched} (h : FreshRecord w) (tUser : AwaitingUser) :
    FreshRecord (w.next (.insert tUser)) := by
  intro u hu
  simp only [Watched.next, step, Bool.or_eq_true, Bool.and_eq_true, beq_iff_eq] at hu ⊢
  cases hexists : w.store.exists' tUser.mId with
  | true =>
    rw [insert_of_exists' _ hexists] at hu ⊢
    exact h u (hu.resolve_right fun hnew => Bool.false_ne_true hnew.2)
  | false =>
    rw [mTimeouts_insert _ hexists]
    by_cases hid : u = tUser.mId
    · right
      exact ⟨_, List.mem_append_right _ (List.mem_singleton_self _), hid.symm, by simp⟩
    · rcases h u (hu.resolve_right fun hnew => hid hnew.1) with hnone | ⟨record, hr, hru, hlive⟩
      · left
        intro record hr
        rcases List.mem_append.mp hr with hold | hnew
        · exact hnone record hold
        · rw [List.mem_singleton.mp hnew]
          exact Ne.symm hid
      · exact Or.inr ⟨record, List.mem_append_left _ hr, hru, hlive⟩

theorem mem_setStatus {id : Int32} {status : TimeoutStatus} {records : List Timeout}
    {record : Timeout} : record ∈ setStatus id status records ↔
      ∃ before ∈ records,
        (if before.userId = id then ⟨before.userId, status⟩ else before) = record :=
  List.mem_map

theorem freshRecord_ping {w : Watched} (h : FreshRecord w) (tId : Int32) :
    FreshRecord (w.next (.ping tId)) := by
  intro u hu
  simp only [Watched.next, step, ping, updateTimeoutStatus, Bool.or_eq_true, beq_iff_eq] at hu ⊢
  by_cases hid : u = tId
  · subst hid
    by_cases hnone : ∀ record ∈ w.store.mTimeouts, record.userId ≠ u
    · left
      intro record hr
      obtain ⟨before, hb, rfl⟩ := mem_setStatus.mp hr
      rw [if_neg (hnone before hb)]
      exact hnone before hb
    · right
      push Not at hnone
      obtain ⟨before, hb, hbu⟩ := hnone
      refine ⟨⟨u, .pinged⟩, mem_setStatus.mpr ⟨before, hb, ?_⟩, rfl, by simp⟩
      rw [if_pos hbu, hbu]
  · rcases h u (hu.resolve_right hid) with hnone | ⟨record, hr, hru, hlive⟩
    · left
      intro record hr
      obtain ⟨before, hb, rfl⟩ := mem_setStatus.mp hr
      split
      · exact hnone before hb
      · exact hnone before hb
    · right
      refine ⟨record, mem_setStatus.mpr ⟨record, hr, ?_⟩, hru, hlive⟩
      rw [if_neg (hru.symm ▸ hid)]

theorem freshRecord_next {w : Watched} (h : FreshRecord w) (op : Op) : FreshRecord (w.next op) := by
  cases op with
  | insert tUser => exact freshRecord_insert h tUser
  | ping tId => exact freshRecord_ping h tId
  | destroy tId =>
    intro u hu
    simpa [Watched.next, step] using h u hu
  | pass =>
    intro u hu
    exact absurd hu Bool.false_ne_true

theorem keepsFresh_of_singleRecords {w : Watched} (h : FreshRecord w) {op : Op}
    (hsingle : SingleRecords w op) : KeepsFresh w op := by
  intro hop u hfresh hexists
  have hcount := hsingle hop u hfresh hexists
  have hlive : ∀ record ∈ w.store.mTimeouts, record.userId = u → record.status ≠ .detached := by
    intro record hr hru
    rcases h u hfresh with hnone | ⟨live, hl, hlu, hlive⟩
    · exact absurd hru (hnone record hr)
    · -- Both records are the only one of `u`.
      obtain ⟨j, hj⟩ := List.mem_iff_getElem?.mp hr
      obtain ⟨k, hk⟩ := List.mem_iff_getElem?.mp hl
      have heq : j = k := by
        apply eq_of_count_le_one hcount
        · rw [List.getElem?_map, hj, Option.map_some, hru]
        · rw [List.getElem?_map, hk, Option.map_some, hlu]
      subst heq
      rw [Option.some.inj (hj.symm.trans hk)]
      exact hlive
  rw [exists', timeoutPass_of_single hlive hcount]
  exact hexists

/-- In every run whose passes start with at most one record for each fresh user
that has a request, no pass collects such a user. -/
theorem passes_keepFresh (ops : List Op)
    (h : Transition.Always Watched.next SingleRecords Watched.start ops) :
    Transition.Always Watched.next KeepsFresh Watched.start ops := by
  have hstart : FreshRecord Watched.start := fun u hu => absurd hu Bool.false_ne_true
  have hstep : ∀ w op, FreshRecord w → SingleRecords w op → FreshRecord (w.next op) :=
    fun w op hw _ => freshRecord_next hw op
  exact Transition.invariant_before hstep hstart h
    fun w op hw hsingle => keepsFresh_of_singleRecords hw hsingle

theorem passes_keepFresh_pinged :
    Transition.Always Watched.next KeepsFresh Watched.start
      [.insert (.new ⟨7, 8⟩ (str "1.2.3.4:5000")), .pass, .ping 7, .pass] := by
  apply passes_keepFresh
  have hcalls : ∀ w op, op ≠ .pass → SingleRecords w op := fun w op hne hop => absurd hop hne
  have hone : ∀ w op, w.store.mTimeouts.length ≤ 1 → SingleRecords w op := by
    intro w op hlen _ u _ _
    have hcount := List.count_le_length (l := w.store.mTimeouts.map Timeout.userId) (a := u)
    rw [List.length_map] at hcount
    exact hcount.trans hlen
  simp only [Transition.always_cons_iff]
  exact ⟨hcalls _ _ (by simp), hone _ _ (by decide), hcalls _ _ (by simp), hone _ _ (by decide),
    Transition.always_nil⟩

/-- A caller that hangs up and calls again at once loses the new request in the
next pass, whose first record marks the second. -/
theorem passes_dropFresh :
    ¬ Transition.Always Watched.next KeepsFresh Watched.start
      [.insert (.new ⟨7, 8⟩ (str "1.2.3.4:5000")), .destroy 7,
        .insert (.new ⟨7, 8⟩ (str "1.2.3.4:5000")), .pass] := by
  intro h
  have hpass := h [_, _, _] .pass [] rfl rfl 7
  revert hpass
  decide

end Skype.AwaitingUsers
