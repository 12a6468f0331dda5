import Skype.TimeoutWorker

/-!
# One record for each request

`m_timeouts` is meant to hold one record for each key of the map. `insert` and
`ping` keep it so; `destroy` of an existing request does not, and a pass does
only when no record is detached, or when the first one is and no other from the
third on, because it erases the first record whichever one it has found.
-/

namespace Skype.AwaitingUsers

open Library

/-- One record for every key of the map and none for any other id. -/
def Consistent (store : AwaitingUsers) : Prop :=
  ∀ u, store.records u = if store.exists' u then 1 else 0

def CleanPass (timeouts : List Timeout) : Prop :=
  (∀ record ∈ timeouts, record.status ≠ .detached) ∨
    (∃ first, timeouts.head? = some first ∧ first.status = .detached) ∧
      ∀ record ∈ timeouts.drop 2, record.status ≠ .detached

def StepOk (store : AwaitingUsers) : Op → Prop
  | .insert _ => True
  | .ping _ => True
  | .destroy tId => store.exists' tId = false
  | .pass => CleanPass store.mTimeouts

theorem consistent_empty : Consistent empty := fun _ => rfl

theorem consistent_insert {store : AwaitingUsers} (h : Consistent store) (tUser : AwaitingUser) :
    Consistent (store.insert tUser).2 := by
  cases hexists : store.exists' tUser.mId with
  | true =>
    rw [insert_of_exists' store hexists]
    exact h
  | false =>
    intro u
    rw [records, mTimeouts_insert store hexists, exists'_insert, List.map_append, List.count_append]
    have hu := h u
    rw [records] at hu
    by_cases hid : u = tUser.mId
    · subst hid
      simp [hu, hexists]
    · simp [hu, hid, Ne.symm hid]

theorem consistent_ping {store : AwaitingUsers} (h : Consistent store) (tId : Int32) :
    Consistent (store.ping tId) := by
  intro u
  rw [records, ping, updateTimeoutStatus, map_userId_setStatus]
  exact h u

theorem consistent_destroy_iff {store : AwaitingUsers} (h : Consistent store) (tId : Int32) :
    Consistent (store.destroy tId).2 ↔ store.exists' tId = false := by
  have hrecords : ∀ u, (store.destroy tId).2.records u = store.records u := by
    intro u
    rw [records, mTimeouts_destroy, records]
  constructor
  · intro hafter
    have hid := hafter tId
    rw [hrecords, h tId, exists'_destroy] at hid
    simpa using hid
  · intro hnone u
    rw [hrecords, h u, exists'_destroy]
    by_cases hid : u = tId
    · subst hid
      simp [hnone]
    · simp [hid]

namespace Traversal

variable {t : Traversal} {i : ℕ} {p : Int32}

theorem quiet_visit (h : ∀ u, t.Safe i u) (hi : i < t.memory.length) :
    (∀ u, (t.visit i).Safe (i + 1) u) ∧
      (t.visit i).store.mTimeouts.map Timeout.userId = t.store.mTimeouts.map Timeout.userId ∧
      (t.visit i).store.mAwaitingUsers = t.store.mAwaitingUsers := by
  have hr : t.memory[i]? = some t.memory[i] := List.getElem?_eq_getElem hi
  have hd := (h t.memory[i].userId).live i _ le_rfl hr rfl
  refine ⟨fun u => ((h u).visit hi).1, ?_, funext fun u => ((h u).visit hi).2⟩
  rw [visit_of_not_detached hr hd, map_userId_mark]

theorem quiet_visitAll {m n : ℕ} (hmn : m ≤ n) (hn : n ≤ t.memory.length)
    (h : ∀ u, (t.visitAll m).Safe m u) :
    (t.visitAll n).store.mTimeouts.map Timeout.userId =
        (t.visitAll m).store.mTimeouts.map Timeout.userId ∧
      (t.visitAll n).store.mAwaitingUsers = (t.visitAll m).store.mAwaitingUsers := by
  have hrun := visitAll_induction
    (motive := fun i t' => (∀ u, t'.Safe i u) ∧
      t'.store.mTimeouts.map Timeout.userId =
        (t.visitAll m).store.mTimeouts.map Timeout.userId ∧
      t'.store.mAwaitingUsers = (t.visitAll m).store.mAwaitingUsers)
    hmn hn ⟨h, rfl, rfl⟩ (by
      rintro i t' - hi ⟨hsafe, hids, hmap⟩
      obtain ⟨hnext, hids', hmap'⟩ := quiet_visit hsafe hi
      exact ⟨hnext, hids'.trans hids, hmap'.trans hmap⟩)
  exact hrun.2

structure Orphans (t : Traversal) (i : ℕ) (p : Int32) : Prop where
  behind : ∀ j record, 1 ≤ j → t.memory[j]? = some record → record.userId ≠ p
  due : (∀ record ∈ t.store.mTimeouts, record.userId ≠ p) ∨
    ∃ j record, i ≤ j ∧ t.memory[j]? = some record ∧ record.status = .detached

theorem Orphans.collect (h : t.Orphans i p) (id : Int32) : (t.collect id).Orphans (i + 1) p where
  behind j record hj hr := by
    obtain ⟨k, hk, hr'⟩ := exists_getElem?_of_collect hr
    exact h.behind k record (by omega) hr'
  due := by
    left
    intro record hr
    obtain ⟨j, hj⟩ := List.mem_iff_getElem?.mp hr
    rw [getElem?_mTimeouts_collect] at hj
    have hlt : j + 1 < t.store.mTimeouts.length := (List.getElem?_eq_some_iff.mp hj).1
    apply h.behind (j + 1) record (by omega)
    rw [memory, List.getElem?_append_left hlt, hj]

theorem Orphans.mark (h : t.Orphans i p) {record : Timeout} (hr : t.memory[i]? = some record)
    (hd : record.status ≠ .detached) : (t.mark record.userId).Orphans (i + 1) p where
  behind j after hj hafter := by
    obtain ⟨before, hbefore, hid, -⟩ := exists_getElem?_of_mark hafter
    rw [← hid]
    exact h.behind j before hj hbefore
  due := by
    rcases h.due with hgone | ⟨j, later, hj, hlater, hdetached⟩
    · left
      intro after hafter hp
      have hmem : p ∈ t.store.mTimeouts.map Timeout.userId := by
        rw [← map_userId_mark record.userId]
        exact List.mem_map.mpr ⟨after, hafter, hp⟩
      obtain ⟨before, hbefore, hbp⟩ := List.mem_map.mp hmem
      exact hgone before hbefore hbp
    · right
      have hne : j ≠ i := by
        rintro rfl
        rw [hr] at hlater
        rw [Option.some.inj hlater] at hd
        exact hd hdetached
      have hlt : j < (t.mark record.userId).memory.length := by
        rw [length_memory_mark]
        exact (List.getElem?_eq_some_iff.mp hlater).1
      have hafter : (t.mark record.userId).memory[j]? = some _ := List.getElem?_eq_getElem hlt
      obtain ⟨before, hbefore, -, hsame | ⟨-, -, hmarked⟩⟩ := exists_getElem?_of_mark hafter
      · refine ⟨j, _, by omega, hafter, ?_⟩
        rw [hsame, Option.some.inj (hbefore.symm.trans hlater)]
        exact hdetached
      · exact ⟨j, _, by omega, hafter, hmarked⟩

theorem Orphans.visit (h : t.Orphans i p) (hi : i < t.memory.length) (hone : 1 ≤ i) :
    (t.visit i).Orphans (i + 1) p ∧
      (t.visit i).store.mAwaitingUsers p = t.store.mAwaitingUsers p := by
  have hr : t.memory[i]? = some t.memory[i] := List.getElem?_eq_getElem hi
  have hne := h.behind i _ hone hr
  by_cases hd : t.memory[i].status = .detached
  · rw [visit_of_detached hr hd]
    refine ⟨h.collect _, ?_⟩
    rw [mAwaitingUsers_collect, Function.update_of_ne hne.symm]
  · rw [visit_of_not_detached hr hd]
    exact ⟨h.mark hr hd, rfl⟩

theorem Orphans.visitAll {n : ℕ} (hn : 1 ≤ n) (hlen : n = t.memory.length)
    (h : (t.visitAll 1).Orphans 1 p) :
    (∀ record ∈ (t.visitAll n).store.mTimeouts, record.userId ≠ p) ∧
      (t.visitAll n).store.mAwaitingUsers p = (t.visitAll 1).store.mAwaitingUsers p := by
  have hrun := visitAll_induction
    (motive := fun i t' => t'.memory.length = t.memory.length ∧ t'.Orphans i p ∧
      t'.store.mAwaitingUsers p = (t.visitAll 1).store.mAwaitingUsers p)
    hn hlen.le ⟨length_memory_visit t 0, h, rfl⟩ (by
      rintro i t' hi hlt ⟨hlength, horphans, hmap⟩
      obtain ⟨hnext, hmap'⟩ := horphans.visit hlt hi
      exact ⟨(length_memory_visit t' i).trans hlength, hnext, hmap'.trans hmap⟩)
  obtain ⟨hlength, horphans, hmap⟩ := hrun
  refine ⟨?_, hmap⟩
  rcases horphans.due with hgone | ⟨j, record, hj, hr, -⟩
  · exact hgone
  · have hlt := (List.getElem?_eq_some_iff.mp hr).1
    omega

end Traversal

theorem records_congr {a b : AwaitingUsers}
    (h : a.mTimeouts.map Timeout.userId = b.mTimeouts.map Timeout.userId) (u : Int32) :
    a.records u = b.records u := by
  rw [records, records, h]

theorem consistent_congr {a b : AwaitingUsers}
    (hids : a.mTimeouts.map Timeout.userId = b.mTimeouts.map Timeout.userId)
    (hmap : a.mAwaitingUsers = b.mAwaitingUsers) (h : Consistent b) : Consistent a := by
  intro u
  rw [records_congr hids, h u, exists', exists', hmap]

theorem Consistent.records_le_one {store : AwaitingUsers} (h : Consistent store) (u : Int32) :
    store.records u ≤ 1 := by
  rw [h u]
  split <;> omega

theorem consistent_pass_of_live {store : AwaitingUsers} (h : Consistent store)
    (hlive : ∀ record ∈ store.mTimeouts, record.status ≠ .detached) :
    Consistent store.timeoutPass := by
  have hsafe : ∀ u, Traversal.Safe ⟨store, []⟩ 0 u := fun u =>
    safe_of_records (fun record hr _ => hlive record hr) (h.records_le_one u)
  obtain ⟨hids, hmap⟩ := Traversal.quiet_visitAll (Nat.zero_le _)
    (by simp [Traversal.memory] : store.mTimeouts.length ≤ (Traversal.memory ⟨store, []⟩).length)
    hsafe
  exact consistent_congr hids hmap h

section Cons

variable {store : AwaitingUsers} {first : Timeout} {rest : List Timeout}

theorem Consistent.cons (h : Consistent store) (hcons : store.mTimeouts = first :: rest) :
    store.exists' first.userId = true ∧ (rest.map Timeout.userId).count first.userId = 0 ∧
      ∀ u, u ≠ first.userId →
        (rest.map Timeout.userId).count u = if store.exists' u then 1 else 0 := by
  have hfirst := h first.userId
  rw [records, hcons, List.map_cons, List.count_cons_self] at hfirst
  have hexists : store.exists' first.userId = true := by
    by_contra hnone
    rw [if_neg hnone] at hfirst
    omega
  refine ⟨hexists, ?_, ?_⟩
  · rw [if_pos hexists] at hfirst
    omega
  · intro u hu
    have hcount := h u
    rwa [records, hcons, List.map_cons, List.count_cons_of_ne hu.symm] at hcount

def collected (store : AwaitingUsers) (first : Timeout) (rest : List Timeout) : Traversal :=
  ⟨{ (store.destroy first.userId).2 with mTimeouts := rest },
    [(first :: rest).getLast (List.cons_ne_nil _ _)]⟩

theorem collect_eq_collected (hcons : store.mTimeouts = first :: rest) :
    Traversal.collect ⟨store, []⟩ first.userId = collected store first rest := by
  simp only [Traversal.collect, Traversal.eraseFirst, mTimeouts_destroy, hcons, collected]

theorem visitAll_one_of_detached (hcons : store.mTimeouts = first :: rest)
    (hd : first.status = .detached) :
    Traversal.visitAll ⟨store, []⟩ 1 = collected store first rest := by
  have hr : (Traversal.memory ⟨store, []⟩)[0]? = some first := by
    simp [Traversal.memory, hcons]
  rw [Traversal.visitAll, Traversal.visitAll, Traversal.visit_of_detached hr hd,
    collect_eq_collected hcons]

theorem consistent_collect {t : Traversal} (h : Consistent t.store)
    (hcons : t.store.mTimeouts = first :: rest) : Consistent (t.collect first.userId).store := by
  obtain ⟨-, hfirst, hothers⟩ := h.cons hcons
  have hrest : (t.collect first.userId).store.mTimeouts = rest := by
    apply List.ext_getElem?
    intro j
    rw [Traversal.getElem?_mTimeouts_collect, hcons, List.getElem?_cons_succ]
  intro u
  rw [records, hrest, exists', Traversal.mAwaitingUsers_collect]
  by_cases hu : u = first.userId
  · subst hu
    simpa using hfirst
  · rw [hothers u hu, Function.update_of_ne hu, exists']

theorem consistent_collected (h : Consistent store) (hcons : store.mTimeouts = first :: rest) :
    Consistent (collected store first rest).store := by
  rw [← collect_eq_collected hcons]
  exact consistent_collect h hcons

theorem safe_collected (h : Consistent store) (hcons : store.mTimeouts = first :: rest)
    (hlive : ∀ j record, 1 ≤ j → (collected store first rest).memory[j]? = some record →
      record.status ≠ .detached) (u : Int32) :
    (collected store first rest).Safe 1 u where
  live j record hj hr _ := hlive j record hj hr
  single j k a b _ _ ha hb hau hbu := by
    apply eq_of_count_le_one ((consistent_collected h hcons).records_le_one u)
    · rw [List.getElem?_map, ha, Option.map_some, hau]
    · rw [List.getElem?_map, hb, Option.map_some, hbu]

end Cons

theorem mem_of_memory_collected {store : AwaitingUsers} {first second third record : Timeout}
    {others : List Timeout} {j : ℕ} (hj : 1 ≤ j)
    (hr : (collected store first (second :: third :: others)).memory[j]? = some record) :
    record ∈ third :: others := by
  obtain ⟨k, rfl⟩ := Nat.exists_eq_add_of_le' hj
  have hlast : (first :: second :: third :: others).getLast (List.cons_ne_nil _ _) ∈
      third :: others := by
    rw [List.getLast_cons (List.cons_ne_nil _ _), List.getLast_cons (List.cons_ne_nil _ _)]
    exact List.getLast_mem _
  have hmem := List.mem_of_getElem? (l := third :: others ++ [_]) hr
  rcases List.mem_append.mp hmem with hthird | hcopy
  · exact hthird
  · rw [List.mem_singleton.mp hcopy]
    exact hlast

theorem consistent_pass_of_quiet {store : AwaitingUsers} {first : Timeout} {rest : List Timeout}
    (h : Consistent store) (hcons : store.mTimeouts = first :: rest)
    (hd : first.status = .detached)
    (hquiet : ∀ j record, 1 ≤ j → (collected store first rest).memory[j]? = some record →
      record.status ≠ .detached) : Consistent store.timeoutPass := by
  have hone := visitAll_one_of_detached hcons hd
  have hsafe := safe_collected h hcons hquiet
  rw [← hone] at hsafe
  obtain ⟨hids, hmap⟩ := Traversal.quiet_visitAll
    (by rw [hcons, List.length_cons]; omega : 1 ≤ store.mTimeouts.length)
    (by simp [Traversal.memory]) hsafe
  rw [hone] at hids hmap
  exact consistent_congr hids hmap (consistent_collected h hcons)

/-- Two detached records: the second is collected through its copy. -/
theorem consistent_pass_of_two {store : AwaitingUsers} {first second : Timeout}
    (h : Consistent store) (hcons : store.mTimeouts = [first, second])
    (hfirst : first.status = .detached) (hsecond : second.status = .detached) :
    Consistent store.timeoutPass := by
  have hone := visitAll_one_of_detached hcons hfirst
  have hr : (collected store first [second]).memory[1]? = some second := rfl
  have hpass : store.timeoutPass =
      ((collected store first [second]).collect second.userId).store := by
    rw [timeoutPass, hcons, List.length_cons, List.length_cons, List.length_nil, Traversal.visitAll,
      hone, Traversal.visit_of_detached hr hsecond]
  rw [hpass]
  exact consistent_collect (consistent_collected h hcons) rfl

theorem consistent_pass_of_first {store : AwaitingUsers} {first : Timeout}
    {rest : List Timeout} (h : Consistent store) (hcons : store.mTimeouts = first :: rest)
    (hd : first.status = .detached) (hlive : ∀ record ∈ rest.drop 1, record.status ≠ .detached) :
    Consistent store.timeoutPass := by
  cases rest with
  | nil =>
    apply consistent_pass_of_quiet h hcons hd
    intro j record hj hr
    obtain ⟨k, rfl⟩ := Nat.exists_eq_add_of_le' hj
    simp [collected, Traversal.memory] at hr
  | cons second others =>
    cases others with
    | nil =>
      by_cases hsecond : second.status = .detached
      · exact consistent_pass_of_two h hcons hd hsecond
      · apply consistent_pass_of_quiet h hcons hd
        intro j record hj hr
        have hmem := List.mem_of_getElem? hr
        have heq : record = second := by simpa [collected, Traversal.memory] using hmem
        rwa [heq]
    | cons third others =>
      apply consistent_pass_of_quiet h hcons hd
      intro j record hj hr
      exact hlive record (mem_of_memory_collected hj hr)

theorem not_consistent_of_orphans {store : AwaitingUsers} {p : Int32}
    (hne : store.mTimeouts ≠ [])
    (h : (Traversal.visitAll ⟨store, []⟩ 1).Orphans 1 p)
    (hp : (Traversal.visitAll ⟨store, []⟩ 1).store.exists' p = true) :
    ¬ Consistent store.timeoutPass := by
  intro hconsistent
  obtain ⟨hgone, hmap⟩ := h.visitAll (List.length_pos_of_ne_nil hne) (by simp [Traversal.memory])
  have hcount := hconsistent p
  have hexists : store.timeoutPass.exists' p = true := by
    rw [exists', timeoutPass, hmap]
    exact hp
  have hzero : store.timeoutPass.records p = 0 := by
    rw [records, List.count_eq_zero]
    intro hmem
    obtain ⟨record, hr, hrp⟩ := List.mem_map.mp hmem
    exact hgone record hr hrp
  rw [hzero, hexists, if_pos rfl] at hcount
  omega

theorem orphans_of_marked {store : AwaitingUsers} {first : Timeout} {rest : List Timeout}
    (h : Consistent store) (hcons : store.mTimeouts = first :: rest)
    (hd : first.status ≠ .detached) {record : Timeout} (hr : record ∈ rest)
    (hdetached : record.status = .detached) :
    (Traversal.visitAll ⟨store, []⟩ 1).Orphans 1 first.userId ∧
      (Traversal.visitAll ⟨store, []⟩ 1).store.exists' first.userId = true := by
  obtain ⟨hexists, hfirst, -⟩ := h.cons hcons
  have hmemory : Traversal.memory ⟨store, []⟩ = first :: rest := by
    rw [Traversal.memory, List.append_nil, hcons]
  have hzero : (Traversal.memory ⟨store, []⟩)[0]? = some first := by
    rw [hmemory, List.getElem?_cons_zero]
  have hstart : Traversal.Orphans ⟨store, []⟩ 0 first.userId := by
    constructor
    · intro j later hj hlater hid
      obtain ⟨k, rfl⟩ := Nat.exists_eq_add_of_le' hj
      rw [hmemory, List.getElem?_cons_succ] at hlater
      exact List.count_eq_zero.mp hfirst
        (List.mem_map.mpr ⟨later, List.mem_of_getElem? hlater, hid⟩)
    · right
      obtain ⟨j, hj⟩ := List.mem_iff_getElem?.mp hr
      exact ⟨j + 1, record, Nat.zero_le _, by rw [hmemory, List.getElem?_cons_succ, hj], hdetached⟩
  rw [Traversal.visitAll, Traversal.visitAll, Traversal.visit_of_not_detached hzero hd]
  exact ⟨hstart.mark hzero hd, hexists⟩

theorem orphans_of_collected {store : AwaitingUsers} {first second third : Timeout}
    {others : List Timeout} (h : Consistent store)
    (hcons : store.mTimeouts = first :: second :: third :: others)
    (hd : first.status = .detached) {record : Timeout} (hr : record ∈ third :: others)
    (hdetached : record.status = .detached) :
    (Traversal.visitAll ⟨store, []⟩ 1).Orphans 1 second.userId ∧
      (Traversal.visitAll ⟨store, []⟩ 1).store.exists' second.userId = true := by
  rw [visitAll_one_of_detached hcons hd]
  obtain ⟨hexists, hsecond, -⟩ := (consistent_collected h hcons).cons rfl
  refine ⟨?_, hexists⟩
  constructor
  · intro j later hj hlater hid
    exact List.count_eq_zero.mp hsecond
      (List.mem_map.mpr ⟨later, mem_of_memory_collected hj hlater, hid⟩)
  · right
    obtain ⟨j, hj⟩ := List.mem_iff_getElem?.mp hr
    have hlt := (List.getElem?_eq_some_iff.mp hj).1
    refine ⟨j + 1, record, by omega, ?_, hdetached⟩
    rw [Traversal.memory, List.getElem?_append_left]
    · exact hj
    · change j + 1 < (second :: third :: others).length
      rw [List.length_cons]
      omega

theorem not_consistent_pass {store : AwaitingUsers} (h : Consistent store)
    (hclean : ¬ CleanPass store.mTimeouts) : ¬ Consistent store.timeoutPass := by
  cases hts : store.mTimeouts with
  | nil =>
    exact absurd (Or.inl (by simp [hts])) hclean
  | cons first rest =>
    rw [CleanPass, not_or] at hclean
    obtain ⟨hsome, hfirst⟩ := hclean
    push Not at hsome
    obtain ⟨record, hr, hdetached⟩ := hsome
    have hne : store.mTimeouts ≠ [] := by simp [hts]
    by_cases hd : first.status = .detached
    · have hlater : ∃ record ∈ rest.drop 1, record.status = .detached := by
        by_contra hnone
        push Not at hnone
        exact hfirst ⟨⟨first, by rw [hts, List.head?_cons], hd⟩, by
          rw [hts, List.drop_succ_cons]
          exact hnone⟩
      obtain ⟨later, hlater, hlaterd⟩ := hlater
      match rest, hlater with
      | _ :: _ :: _, hlater =>
        obtain ⟨horphans, hp⟩ := orphans_of_collected h hts hd hlater hlaterd
        exact not_consistent_of_orphans hne horphans hp
    · have hmem : record ∈ rest := by
        rw [hts] at hr
        rcases List.mem_cons.mp hr with rfl | hmem
        · exact absurd hdetached hd
        · exact hmem
      obtain ⟨horphans, hp⟩ := orphans_of_marked h hts hd hmem hdetached
      exact not_consistent_of_orphans hne horphans hp

theorem consistent_pass_iff {store : AwaitingUsers} (h : Consistent store) :
    Consistent store.timeoutPass ↔ CleanPass store.mTimeouts := by
  constructor
  · intro hafter
    by_contra hclean
    exact not_consistent_pass h hclean hafter
  · rintro (hlive | ⟨⟨first, hhead, hd⟩, hrest⟩)
    · exact consistent_pass_of_live h hlive
    · obtain ⟨rest, hcons⟩ := List.head?_eq_some_iff.mp hhead
      apply consistent_pass_of_first h hcons hd
      rwa [hcons, List.drop_succ_cons] at hrest

theorem consistent_step_iff {store : AwaitingUsers} (h : Consistent store) (op : Op) :
    Consistent (store.step op) ↔ StepOk store op := by
  cases op with
  | insert tUser => exact iff_of_true (consistent_insert h tUser) trivial
  | ping tId => exact iff_of_true (consistent_ping h tId) trivial
  | destroy tId => exact consistent_destroy_iff h tId
  | pass => exact consistent_pass_iff h

theorem consistent_prefixes_iff {store : AwaitingUsers} (h : Consistent store) (ops : List Op) :
    (∀ pre post, ops = pre ++ post → Consistent (Transition.run step store pre)) ↔
      Transition.Always step StepOk store ops := by
  induction ops generalizing store with
  | nil =>
    refine iff_of_true ?_ Transition.always_nil
    intro pre post he
    obtain ⟨rfl, -⟩ := List.append_eq_nil_iff.mp he.symm
    exact h
  | cons op ops ih =>
    rw [Transition.always_cons_iff]
    constructor
    · intro hall
      have hnext : Consistent (store.step op) := hall [op] ops rfl
      refine ⟨(consistent_step_iff h op).mp hnext, (ih hnext).mp ?_⟩
      intro pre post he
      exact hall (op :: pre) post (by rw [he, List.cons_append])
    · rintro ⟨hop, hrest⟩ pre post he
      have hnext := (consistent_step_iff h op).mpr hop
      cases pre with
      | nil => exact h
      | cons a pre =>
        obtain ⟨rfl, htail⟩ := List.cons.inj he
        exact (ih hnext).mpr hrest pre post htail

/-- Over every run from the empty store: the records match the requests in every
state if and only if each `destroy` finds no request and each pass is clean. -/
theorem consistent_run_iff (ops : List Op) :
    (∀ pre post, ops = pre ++ post → Consistent (Transition.run step empty pre)) ↔
      Transition.Always step StepOk empty ops :=
  consistent_prefixes_iff consistent_empty ops

theorem destroy_leaves_record :
    ¬ Consistent (Transition.run step empty
      [.insert (.new ⟨7, 8⟩ (str "1.2.3.4:5000")), .destroy 7]) := by
  intro h
  have hseven := h 7
  revert hseven
  decide

end Skype.AwaitingUsers
