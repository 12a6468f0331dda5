import Skype.StdString
import Skype.Library.Linked
import Skype.Library.Transition

/-!
# `LockFreeAudioQueue`

A linked list whose last node is empty. `push` fills that node and links a new one behind
it before it moves `m_tail`, and only the thread that pushes writes to the nodes from
`m_tail` on; `pop` takes nodes in front of `m_tail` only. Every load and store of `m_head`,
`m_tail` or a node is one step, and a step of either thread can follow any other.
-/

namespace Skype.LockFreeAudioQueue

open Library

abbrev Address := ℕ

structure Node (Package : Type) where
  mAudioPackage : Option Package
  mNext : Option Address
  deriving DecidableEq

def Node.new {Package : Type} : Node Package := ⟨none, none⟩

/-- Where the thread that pushes stands: behind `new Node`, the load of `m_tail`, the
swap and the link. -/
inductive Push (Package : Type)
  | idle
  | allocated (newData : Package) (newNode : Address)
  | loaded (newData : Package) (newNode : Address) (oldTail : Option Address)
  | swapped (newData : Package) (newNode : Address) (oldTail : Option Address)
  | linked (newData : Package) (newNode : Address)

/-- Where the thread that pops stands: in `pop_head` behind the load of `m_head`, the
comparison and the load of `m_next`, then in `pop` behind `pop_head` and the copy of the
package; or in `empty` behind the load of `m_head`. -/
inductive Pop (Package : Type)
  | idle
  | headLoaded (oldHead : Option Address)
  | compared (oldHead : Option Address)
  | nextLoaded (oldHead next : Option Address)
  | popped (oldHead : Option Address)
  | copied (oldHead : Option Address) (result : Option Package)
  | emptyLoaded (head : Option Address)

/-- The shared memory and both threads. `pushed` are the packages that `push` was called
with, `completed` those of the calls that are over, `results` what the successful calls of
`pop` returned. -/
structure State (Package : Type) where
  memory : Address → Option (Node Package)
  mHead : Option Address
  mTail : Option Address
  push : Push Package
  pop : Pop Package
  pushed : List Package
  completed : List Package
  results : List (Option Package)

inductive Event (Package : Type)
  | push (tAudioPackage : Package) (newNode : Address)
  | pushStep
  | pop
  | empty
  | popStep

section

variable {Package : Type}

def State.start (dummy : Address) : State Package where
  memory := Function.update (fun _ => none) dummy (some Node.new)
  mHead := some dummy
  mTail := some dummy
  push := .idle
  pop := .idle
  pushed := []
  completed := []
  results := []

def deref (memory : Address → Option (Node Package)) (pointer : Option Address) :
    Exec (Address × Node Package) :=
  match pointer with
  | none => .error .undefined
  | some address =>
    match memory address with
    | none => .error .undefined
    | some node => .ok (address, node)

def pushStep (s : State Package) : Exec (State Package) :=
  match s.push with
  | .idle => .ok s
  | .allocated newData newNode => .ok { s with push := .loaded newData newNode s.mTail }
  | .loaded newData newNode oldTail => do
    let (address, node) ← deref s.memory oldTail
    return { s with
      memory := Function.update s.memory address (some { node with mAudioPackage := some newData })
      push := .swapped newData newNode oldTail }
  | .swapped newData newNode oldTail => do
    let (address, node) ← deref s.memory oldTail
    return { s with
      memory := Function.update s.memory address (some { node with mNext := some newNode })
      push := .linked newData newNode }
  | .linked newData newNode => .ok
    { s with mTail := some newNode, push := .idle, completed := s.completed ++ [newData] }

def popStep (s : State Package) : Exec (State Package) :=
  match s.pop with
  | .idle => .ok s
  | .headLoaded oldHead =>
    if oldHead = s.mTail then .ok { s with pop := .idle }
    else .ok { s with pop := .compared oldHead }
  | .compared oldHead => do
    let (_, node) ← deref s.memory oldHead
    return { s with pop := .nextLoaded oldHead node.mNext }
  | .nextLoaded oldHead next => .ok { s with mHead := next, pop := .popped oldHead }
  | .popped oldHead =>
    if oldHead = none then .ok { s with pop := .idle }
    else do
      let (_, node) ← deref s.memory oldHead
      return { s with pop := .copied oldHead node.mAudioPackage }
  | .copied oldHead result => do
    let (address, _) ← deref s.memory oldHead
    return { s with
      memory := Function.update s.memory address none
      pop := .idle
      results := s.results ++ [result] }
  | .emptyLoaded _ => .ok { s with pop := .idle }

/-- A thread is called only when it is idle, and `new` returns memory that is free. -/
def step (s : State Package) : Event Package → Exec (State Package)
  | .push tAudioPackage newNode =>
    match s.push, s.memory newNode with
    | .idle, none => .ok
      { s with
        memory := Function.update s.memory newNode (some Node.new)
        push := .allocated tAudioPackage newNode
        pushed := s.pushed ++ [tAudioPackage] }
    | _, _ => .ok s
  | .pushStep => pushStep s
  | .pop =>
    match s.pop with
    | .idle => .ok { s with pop := .headLoaded s.mHead }
    | _ => .ok s
  | .empty =>
    match s.pop with
    | .idle => .ok { s with pop := .emptyLoaded s.mHead }
    | _ => .ok s
  | .popStep => popStep s

def SaysEmpty (s : State Package) : Event Package → Prop
  | .popStep =>
    match s.pop with
    | .headLoaded oldHead => oldHead = s.mTail
    | .popped oldHead => oldHead = none
    | .emptyLoaded head => head = s.mTail
    | _ => False
  | _ => False

def Drained (s : State Package) : Prop := s.results = s.completed.map some

def nextOf (memory : Address → Option (Node Package)) (address : Address) : Option Address :=
  (memory address).bind Node.mNext

def packageOf (memory : Address → Option (Node Package)) (address : Address) : Option Package :=
  (memory address).bind Node.mAudioPackage

namespace Push

def tailNode : Push Package → Node Package
  | .swapped newData _ _ => ⟨some newData, none⟩
  | .linked newData newNode => ⟨some newData, some newNode⟩
  | _ => Node.new

def newNodes : Push Package → List Address
  | .idle => []
  | .allocated _ newNode => [newNode]
  | .loaded _ newNode _ => [newNode]
  | .swapped _ newNode _ => [newNode]
  | .linked _ newNode => [newNode]

def packages : Push Package → List Package
  | .idle => []
  | .allocated newData _ => [newData]
  | .loaded newData _ _ => [newData]
  | .swapped newData _ _ => [newData]
  | .linked newData _ => [newData]

def oldTails : Push Package → List (Option Address)
  | .loaded _ _ oldTail => [oldTail]
  | .swapped _ _ oldTail => [oldTail]
  | _ => []

end Push

def Pop.heldNodes : Pop Package → List Address
  | .popped oldHead => oldHead.toList
  | .copied oldHead _ => oldHead.toList
  | _ => []

structure BackOk (s : State Package) (tail : Address) : Prop where
  mTail : s.mTail = some tail
  tailNode : s.memory tail = some s.push.tailNode
  newNode : ∀ a ∈ s.push.newNodes, s.memory a = some Node.new
  oldTail : ∀ oldTail ∈ s.push.oldTails, oldTail = some tail
  pushed : s.pushed = s.completed ++ s.push.packages

def PopOk (memory : Address → Option (Node Package)) (mHead : Option Address)
    (nodes : List Address) : Pop Package → Prop
  | .idle => True
  | .headLoaded oldHead => oldHead = mHead
  | .compared oldHead => oldHead = mHead ∧ nodes ≠ []
  | .nextLoaded oldHead next => oldHead = mHead ∧
      ∃ a rest, oldHead = some a ∧ nodes = a :: rest ∧ nextOf memory a = next
  | .popped oldHead => oldHead ≠ none
  | .copied oldHead result => ∃ a, oldHead = some a ∧ packageOf memory a = result
  | .emptyLoaded head => head = mHead

structure FrontOk (s : State Package) (nodes : List Address) (tail : Address)
    (waiting popped : List Package) : Prop where
  path : ∃ head, s.mHead = some head ∧ Linked.Path (nextOf s.memory) head nodes tail
  contents : (s.pop.heldNodes ++ nodes).map (packageOf s.memory) = waiting.map some
  completed : s.completed = popped ++ waiting
  results : s.results = popped.map some
  pop : PopOk s.memory s.mHead nodes s.pop

structure Inv (s : State Package) (nodes : List Address) (tail : Address)
    (waiting popped : List Package) : Prop where
  back : BackOk s tail
  front : FrontOk s nodes tail waiting popped
  apart : (nodes ++ tail :: (s.push.newNodes ++ s.pop.heldNodes)).Nodup

def Good (s : State Package) : Prop := ∃ nodes tail waiting popped, Inv s nodes tail waiting popped

variable {s t : State Package} {nodes : List Address} {tail a x : Address}
  {waiting popped : List Package} {memory : Address → Option (Node Package)}

theorem deref_some {node : Node Package} (h : memory a = some node) :
    deref memory (some a) = .ok (a, node) := by
  rw [deref, h]

theorem nextOf_congr {memory' : Address → Option (Node Package)} (h : memory' x = memory x) :
    nextOf memory' x = nextOf memory x := by
  rw [nextOf, nextOf, h]

theorem packageOf_congr {memory' : Address → Option (Node Package)} (h : memory' x = memory x) :
    packageOf memory' x = packageOf memory x := by
  rw [packageOf, packageOf, h]

theorem PopOk.frame {memory' : Address → Option (Node Package)} {mHead : Option Address}
    {pop : Pop Package} (h : PopOk memory mHead nodes pop)
    (hmemory : ∀ x ∈ nodes ++ pop.heldNodes, memory' x = memory x) :
    PopOk memory' mHead nodes pop := by
  cases pop with
  | idle => trivial
  | headLoaded oldHead => exact h
  | compared oldHead => exact h
  | nextLoaded oldHead next =>
    obtain ⟨hhead, a, rest, rfl, rfl, hnext⟩ := h
    refine ⟨hhead, a, rest, rfl, rfl, ?_⟩
    rw [nextOf_congr (hmemory a (List.mem_append_left _ List.mem_cons_self)), hnext]
  | popped oldHead => exact h
  | copied oldHead result =>
    obtain ⟨a, rfl, hpackage⟩ := h
    refine ⟨a, rfl, ?_⟩
    rw [packageOf_congr (hmemory a (List.mem_append_right _ (List.mem_singleton_self a))), hpackage]
  | emptyLoaded head => exact h

theorem PopOk.append_last {mHead : Option Address} {pop : Pop Package}
    (h : PopOk memory mHead nodes pop) : PopOk memory mHead (nodes ++ [a]) pop := by
  cases pop with
  | idle => trivial
  | headLoaded oldHead => exact h
  | compared oldHead => exact ⟨h.1, by simp⟩
  | nextLoaded oldHead next =>
    obtain ⟨hhead, b, rest, rfl, rfl, hnext⟩ := h
    exact ⟨hhead, b, rest ++ [a], rfl, rfl, hnext⟩
  | popped oldHead => exact h
  | copied oldHead result => exact h
  | emptyLoaded head => exact h

theorem FrontOk.frame (h : FrontOk s nodes tail waiting popped)
    (hmemory : ∀ x ∈ nodes ++ s.pop.heldNodes, t.memory x = s.memory x)
    (hhead : t.mHead = s.mHead) (hpop : t.pop = s.pop) (hcompleted : t.completed = s.completed)
    (hresults : t.results = s.results) : FrontOk t nodes tail waiting popped where
  path := by
    obtain ⟨head, hmHead, hpath⟩ := h.path
    refine ⟨head, hhead.trans hmHead, hpath.congr ?_⟩
    intro x hx
    exact nextOf_congr (hmemory x (List.mem_append_left _ hx))
  contents := by
    rw [hpop, ← h.contents]
    apply List.map_congr_left
    intro x hx
    apply packageOf_congr
    apply hmemory x
    rcases List.mem_append.mp hx with hx | hx
    · exact List.mem_append_right _ hx
    · exact List.mem_append_left _ hx
  completed := hcompleted.trans h.completed
  results := hresults.trans h.results
  pop := by
    rw [hhead, hpop]
    exact h.pop.frame hmemory

theorem BackOk.frame (h : BackOk s tail)
    (hmemory : ∀ x ∈ tail :: s.push.newNodes, t.memory x = s.memory x)
    (htail : t.mTail = s.mTail) (hpush : t.push = s.push) (hpushed : t.pushed = s.pushed)
    (hcompleted : t.completed = s.completed) : BackOk t tail where
  mTail := htail.trans h.mTail
  tailNode := by rw [hmemory tail List.mem_cons_self, hpush, h.tailNode]
  newNode := by
    intro a ha
    rw [hpush] at ha
    rw [hmemory a (List.mem_cons_of_mem _ ha), h.newNode a ha]
  oldTail := by
    rw [hpush]
    exact h.oldTail
  pushed := by rw [hpushed, hcompleted, hpush, h.pushed]

theorem Inv.isSome (h : Inv s nodes tail waiting popped) :
    ∀ x ∈ nodes ++ tail :: (s.push.newNodes ++ s.pop.heldNodes), (s.memory x).isSome = true := by
  have hpackage : ∀ x ∈ s.pop.heldNodes ++ nodes, (s.memory x).isSome = true := by
    intro x hx
    have hin : packageOf s.memory x ∈ waiting.map some := by
      rw [← h.front.contents]
      exact List.mem_map_of_mem hx
    obtain ⟨package, -, hpackage⟩ := List.mem_map.mp hin
    obtain ⟨node, hnode, -⟩ := Option.bind_eq_some_iff.mp hpackage.symm
    rw [hnode]
    rfl
  intro x hx
  rcases List.mem_append.mp hx with hx | hx
  · exact hpackage x (List.mem_append_right _ hx)
  · rcases List.mem_cons.mp hx with rfl | hx
    · rw [h.back.tailNode]
      rfl
    · rcases List.mem_append.mp hx with hx | hx
      · rw [h.back.newNode x hx]
        rfl
      · exact hpackage x (List.mem_append_left _ hx)

/-! ### Pushing -/

/-- A write to a node that is neither in front of the last one nor held is not seen by the
thread that pops. -/
theorem Inv.front_write (h : Inv s nodes tail waiting popped) {value : Option (Node Package)}
    (ha : a ∉ nodes ++ s.pop.heldNodes) {push : Push Package} {pushed : List Package} :
    FrontOk { s with memory := Function.update s.memory a value, push, pushed } nodes tail waiting
      popped := by
  refine h.front.frame ?_ rfl rfl rfl rfl
  intro x hx
  have hne : x ≠ a := by
    rintro rfl
    exact ha hx
  exact Function.update_of_ne hne _ _

theorem Inv.tail_notMem (h : Inv s nodes tail waiting popped) :
    tail ∉ nodes ++ s.pop.heldNodes := by
  have hcut := List.nodup_append.mp h.apart
  rw [List.mem_append, not_or]
  constructor
  · intro hmem
    exact hcut.2.2 tail hmem tail List.mem_cons_self rfl
  · intro hmem
    exact (List.nodup_cons.mp hcut.2.1).1 (List.mem_append_right _ hmem)

theorem nodup_behind {xs ys : List Address} (h : (xs ++ tail :: ys).Nodup)
    (ha : a ∉ xs ++ tail :: ys) : (xs ++ tail :: a :: ys).Nodup := by
  have hperm : (xs ++ [tail] ++ a :: ys).Perm (a :: (xs ++ [tail] ++ ys)) := List.perm_middle
  rw [List.append_assoc, List.append_assoc, List.singleton_append, List.singleton_append] at hperm
  rw [hperm.nodup_iff]
  exact List.nodup_cons.mpr ⟨ha, h⟩

theorem good_push (h : Good s) (tAudioPackage : Package) (newNode : Address) :
    ∃ t, step s (.push tAudioPackage newNode) = .ok t ∧ Good t := by
  obtain ⟨nodes, tail, waiting, popped, h⟩ := h
  rw [step]
  split
  · next hpush hfree =>
    have hfresh : newNode ∉ nodes ++ tail :: (s.push.newNodes ++ s.pop.heldNodes) := by
      intro hmem
      have hthere := h.isSome newNode hmem
      rw [hfree] at hthere
      cases hthere
    have hapart := h.apart
    have htailNode := h.back.tailNode
    have hpushed := h.back.pushed
    rw [hpush] at hfresh hapart htailNode hpushed
    have hne : tail ≠ newNode := by
      rintro rfl
      exact hfresh (List.mem_append_right _ List.mem_cons_self)
    refine ⟨_, rfl, nodes, tail, waiting, popped, ⟨h.back.mTail, ?_, ?_, ?_, ?_⟩,
      h.front_write ?_, nodup_behind hapart hfresh⟩
    · exact (Function.update_of_ne hne _ _).trans htailNode
    · intro a ha
      rw [List.mem_singleton.mp ha]
      exact Function.update_self _ _ _
    · exact List.forall_mem_nil _
    · dsimp only
      rw [hpushed, Push.packages, List.append_nil]
      rfl
    · intro hmem
      rcases List.mem_append.mp hmem with hmem | hmem
      · exact hfresh (List.mem_append_left _ hmem)
      · exact hfresh (List.mem_append_right _ (List.mem_cons_of_mem _ hmem))
  · exact ⟨s, rfl, nodes, tail, waiting, popped, h⟩

theorem Inv.fill (h : Inv s nodes tail waiting popped) (push : Push Package)
    (hnew : push.newNodes = s.push.newNodes) (hpackages : push.packages = s.push.packages)
    (hold : ∀ oldTail ∈ push.oldTails, oldTail = some tail) :
    Inv { s with memory := Function.update s.memory tail (some push.tailNode), push } nodes tail
      waiting popped where
  back := by
    have hfree : ∀ a ∈ push.newNodes, a ≠ tail := by
      rw [hnew]
      rintro a ha rfl
      have hcut := (List.nodup_append.mp h.apart).2.1
      exact (List.nodup_cons.mp hcut).1 (List.mem_append_left _ ha)
    refine ⟨h.back.mTail, Function.update_self _ _ _, ?_, hold, ?_⟩
    · intro a ha
      exact (Function.update_of_ne (hfree a ha) _ _).trans (h.back.newNode a (hnew ▸ ha))
    · dsimp only
      rw [hpackages]
      exact h.back.pushed
  front := h.front_write h.tail_notMem
  apart := by
    dsimp only
    rw [hnew]
    exact h.apart

theorem Inv.store (h : Inv s nodes tail waiting popped) {newData : Package} {newNode : Address}
    (hpush : s.push = .linked newData newNode) :
    Inv { s with mTail := some newNode, push := .idle, completed := s.completed ++ [newData] }
      (nodes ++ [tail]) newNode (waiting ++ [newData]) popped := by
  have htailNode := h.back.tailNode
  have hnewNode := h.back.newNode
  have hpushed := h.back.pushed
  have hapart := h.apart
  rw [hpush] at htailNode hnewNode hpushed hapart
  refine ⟨⟨rfl, hnewNode newNode (List.mem_singleton_self _), ?_, ?_, ?_⟩, ⟨?_, ?_, ?_, ?_, ?_⟩, ?_⟩
  · exact List.forall_mem_nil _
  · exact List.forall_mem_nil _
  · dsimp only
    rw [hpushed, Push.packages, Push.packages, List.append_nil]
  · obtain ⟨head, hhead, hpath⟩ := h.front.path
    refine ⟨head, hhead, hpath.append_last ?_⟩
    rw [nextOf, htailNode]
    rfl
  · have hlast : packageOf s.memory tail = some newData := by
      rw [packageOf, htailNode]
      rfl
    rw [← List.append_assoc, List.map_append, h.front.contents, List.map_singleton, hlast,
      List.map_append, List.map_singleton]
  · dsimp only
    rw [h.front.completed, List.append_assoc]
  · exact h.front.results
  · exact h.front.pop.append_last
  · rw [List.append_assoc, List.singleton_append]
    exact hapart

theorem good_pushStep (h : Good s) : ∃ t, step s .pushStep = .ok t ∧ Good t := by
  obtain ⟨nodes, tail, waiting, popped, h⟩ := h
  have htailNode := h.back.tailNode
  have hold := h.back.oldTail
  rw [step, pushStep]
  cases hpush : s.push with
  | idle => exact ⟨s, rfl, nodes, tail, waiting, popped, h⟩
  | allocated newData newNode =>
    have hfill := h.fill (.loaded newData newNode s.mTail) (by rw [hpush]; rfl)
      (by rw [hpush]; rfl) (by simp [Push.oldTails, h.back.mTail])
    have hsame : Function.update s.memory tail
        (some (Push.loaded newData newNode s.mTail).tailNode) = s.memory := by
      rw [hpush] at htailNode
      exact Function.update_eq_self_iff.mpr htailNode.symm
    rw [hsame] at hfill
    exact ⟨_, rfl, nodes, tail, waiting, popped, hfill⟩
  | loaded newData newNode oldTail =>
    rw [hpush] at htailNode hold
    obtain rfl := hold oldTail (List.mem_singleton_self _)
    have hfill := h.fill (.swapped newData newNode (some tail)) (by rw [hpush]; rfl)
      (by rw [hpush]; rfl) (by simp [Push.oldTails])
    dsimp only
    rw [deref_some htailNode]
    exact ⟨_, rfl, nodes, tail, waiting, popped, hfill⟩
  | swapped newData newNode oldTail =>
    rw [hpush] at htailNode hold
    obtain rfl := hold oldTail (List.mem_singleton_self _)
    have hfill := h.fill (.linked newData newNode) (by rw [hpush]; rfl) (by rw [hpush]; rfl)
      (by simp [Push.oldTails])
    dsimp only
    rw [deref_some htailNode]
    exact ⟨_, rfl, nodes, tail, waiting, popped, hfill⟩
  | linked newData newNode => exact ⟨_, rfl, _, _, _, _, h.store hpush⟩

/-! ### Popping -/

theorem Inv.setPop (h : Inv s nodes tail waiting popped) {pop : Pop Package}
    (hheld : pop.heldNodes = s.pop.heldNodes) (hok : PopOk s.memory s.mHead nodes pop) :
    Inv { s with pop } nodes tail waiting popped where
  back := ⟨h.back.mTail, h.back.tailNode, h.back.newNode, h.back.oldTail, h.back.pushed⟩
  front := by
    refine ⟨h.front.path, ?_, h.front.completed, h.front.results, hok⟩
    dsimp only
    rw [hheld]
    exact h.front.contents
  apart := by
    dsimp only
    rw [hheld]
    exact h.apart

theorem Inv.nodes_eq_nil_iff (h : Inv s nodes tail waiting popped) :
    nodes = [] ↔ s.mHead = s.mTail := by
  obtain ⟨head, hhead, hpath⟩ := h.front.path
  have htail : tail ∉ nodes := fun hmem => h.tail_notMem (List.mem_append_left _ hmem)
  rw [hpath.eq_nil_iff htail, hhead, h.back.mTail, Option.some.injEq]

theorem Inv.take (h : Inv s nodes tail waiting popped) {oldHead next : Option Address}
    (hpop : s.pop = .nextLoaded oldHead next) :
    ∃ rest, Inv { s with mHead := next, pop := .popped oldHead } rest tail waiting popped := by
  have hok := h.front.pop
  have hcontents := h.front.contents
  have hapart := h.apart
  rw [hpop] at hok hcontents hapart
  obtain ⟨hsame, a, rest, rfl, rfl, hnext⟩ := hok
  obtain ⟨head, hhead, hpath⟩ := h.front.path
  obtain ⟨c, others, hnodes, hc, hrest⟩ := hpath.uncons (List.cons_ne_nil a rest)
  obtain ⟨rfl, rfl⟩ := List.cons.inj hnodes
  refine ⟨rest, ⟨h.back.mTail, h.back.tailNode, h.back.newNode, h.back.oldTail, h.back.pushed⟩,
    ⟨⟨c, hnext.symm.trans hc, hrest⟩, hcontents, h.front.completed, h.front.results,
      Option.some_ne_none a⟩, ?_⟩
  have hperm : (rest ++ tail :: (s.push.newNodes ++ [a])).Perm
      (a :: rest ++ tail :: (s.push.newNodes ++ [])) := by
    have hlast : (rest ++ tail :: s.push.newNodes ++ [a]).Perm
        (a :: (rest ++ tail :: s.push.newNodes)) := List.perm_append_singleton a _
    simpa using hlast
  exact hperm.nodup_iff.mpr hapart

theorem Inv.release (h : Inv s nodes tail waiting popped) {a : Address} {result : Option Package}
    (hpop : s.pop = .copied (some a) result) :
    ∃ package rest, Inv
      { s with
        memory := Function.update s.memory a none
        pop := .idle
        results := s.results ++ [result] } nodes tail rest (popped ++ [package]) := by
  have hok := h.front.pop
  have hcontents := h.front.contents
  have hapart := h.apart
  rw [hpop] at hok hcontents hapart
  obtain ⟨b, hb, hresult⟩ := hok
  obtain rfl := Option.some.inj hb
  have hregroup : nodes ++ tail :: (s.push.newNodes ++ (Pop.copied (some a) result).heldNodes) =
      nodes ++ tail :: s.push.newNodes ++ [a] := by simp [Pop.heldNodes]
  rw [hregroup] at hapart
  obtain ⟨hothers, -, hdisjoint⟩ := List.nodup_append.mp hapart
  have hkept : ∀ x ∈ nodes ++ tail :: s.push.newNodes,
      Function.update s.memory a none x = s.memory x := by
    intro x hx
    exact Function.update_of_ne (hdisjoint x hx a (List.mem_singleton_self a)) _ _
  cases waiting with
  | nil => cases hcontents
  | cons package rest =>
    obtain ⟨hpackage, hrest⟩ := List.cons.inj hcontents
    refine ⟨package, rest, h.back.frame ?_ rfl rfl rfl rfl, ⟨?_, ?_, ?_, ?_, trivial⟩, ?_⟩
    · intro x hx
      exact hkept x (List.mem_append_right _ hx)
    · obtain ⟨head, hhead, hpath⟩ := h.front.path
      refine ⟨head, hhead, hpath.congr ?_⟩
      intro x hx
      exact nextOf_congr (hkept x (List.mem_append_left _ hx))
    · refine Eq.trans (List.map_congr_left ?_) hrest
      intro x hx
      exact packageOf_congr (hkept x (List.mem_append_left _ hx))
    · dsimp only
      rw [h.front.completed, List.append_assoc, List.singleton_append]
    · dsimp only
      rw [h.front.results, ← hresult, hpackage, List.map_append, List.map_singleton]
    · dsimp only
      have hidle : (Pop.idle : Pop Package).heldNodes = [] := rfl
      rw [hidle, List.append_nil]
      exact hothers

theorem Inv.held_isSome (h : Inv s nodes tail waiting popped) (ha : a ∈ s.pop.heldNodes) :
    ∃ node, s.memory a = some node :=
  Option.isSome_iff_exists.mp
    (h.isSome a (List.mem_append_right _ (List.mem_cons_of_mem _ (List.mem_append_right _ ha))))

theorem good_popStep (h : Good s) : ∃ t, step s .popStep = .ok t ∧ Good t := by
  obtain ⟨nodes, tail, waiting, popped, h⟩ := h
  have hok := h.front.pop
  rw [step, popStep]
  cases hpop : s.pop with
  | idle => exact ⟨s, rfl, nodes, tail, waiting, popped, h⟩
  | headLoaded oldHead =>
    rw [hpop] at hok
    dsimp only
    split
    · exact ⟨_, rfl, nodes, tail, waiting, popped, h.setPop (by rw [hpop]; rfl) trivial⟩
    · next hne =>
      have hsome : nodes ≠ [] := by
        rw [Ne, h.nodes_eq_nil_iff, ← hok]
        exact hne
      exact ⟨_, rfl, nodes, tail, waiting, popped, h.setPop (by rw [hpop]; rfl) ⟨hok, hsome⟩⟩
  | compared oldHead =>
    rw [hpop] at hok
    obtain ⟨hhead, hsome⟩ := hok
    obtain ⟨head, hmHead, hpath⟩ := h.front.path
    obtain ⟨c, rest, hnodes, hc, -⟩ := hpath.uncons hsome
    obtain ⟨node, hnode, hnext⟩ := Option.bind_eq_some_iff.mp hc
    rw [hmHead] at hhead
    obtain rfl := hhead
    dsimp only
    rw [deref_some hnode]
    refine ⟨_, rfl, nodes, tail, waiting, popped, h.setPop (by rw [hpop]; rfl) ?_⟩
    refine ⟨hmHead.symm, head, rest, rfl, hnodes, ?_⟩
    rw [nextOf, hnode]
    rfl
  | nextLoaded oldHead next =>
    obtain ⟨rest, htake⟩ := h.take hpop
    exact ⟨_, rfl, rest, tail, waiting, popped, htake⟩
  | popped oldHead =>
    rw [hpop] at hok
    dsimp only
    rw [if_neg hok]
    obtain ⟨a, rfl⟩ := Option.ne_none_iff_exists'.mp hok
    have ha : a ∈ s.pop.heldNodes := by
      rw [hpop]
      exact List.mem_singleton_self a
    obtain ⟨node, hnode⟩ := h.held_isSome ha
    rw [deref_some hnode]
    refine ⟨_, rfl, nodes, tail, waiting, popped, h.setPop (by rw [hpop]; rfl) ⟨a, rfl, ?_⟩⟩
    rw [packageOf, hnode]
    rfl
  | copied oldHead result =>
    rw [hpop] at hok
    obtain ⟨a, rfl, -⟩ := hok
    have ha : a ∈ s.pop.heldNodes := by
      rw [hpop]
      exact List.mem_singleton_self a
    obtain ⟨node, hnode⟩ := h.held_isSome ha
    obtain ⟨package, rest, hrelease⟩ := h.release hpop
    dsimp only
    rw [deref_some hnode]
    exact ⟨_, rfl, nodes, tail, rest, popped ++ [package], hrelease⟩
  | emptyLoaded head =>
    exact ⟨_, rfl, nodes, tail, waiting, popped, h.setPop (by rw [hpop]; rfl) trivial⟩

theorem good_start (dummy : Address) : Good (State.start dummy : State Package) := by
  refine ⟨[], dummy, [], [], ⟨rfl, ?_, ?_, ?_, rfl⟩,
    ⟨⟨dummy, rfl, Linked.path_refl dummy⟩, rfl, rfl, rfl, trivial⟩, List.nodup_singleton dummy⟩
  · exact Function.update_self dummy (some Node.new) fun _ => none
  · exact List.forall_mem_nil _
  · exact List.forall_mem_nil _

theorem good_step (h : Good s) (event : Event Package) : ∃ t, step s event = .ok t ∧ Good t := by
  cases event with
  | push tAudioPackage newNode => exact good_push h tAudioPackage newNode
  | pushStep => exact good_pushStep h
  | popStep => exact good_popStep h
  | pop =>
    obtain ⟨nodes, tail, waiting, popped, hinv⟩ := h
    rw [step]
    split
    · next hpop =>
      exact ⟨_, rfl, nodes, tail, waiting, popped, hinv.setPop (by rw [hpop]; rfl) rfl⟩
    · exact ⟨s, rfl, nodes, tail, waiting, popped, hinv⟩
  | empty =>
    obtain ⟨nodes, tail, waiting, popped, hinv⟩ := h
    rw [step]
    split
    · next hpop =>
      exact ⟨_, rfl, nodes, tail, waiting, popped, hinv.setPop (by rw [hpop]; rfl) rfl⟩
    · exact ⟨s, rfl, nodes, tail, waiting, popped, hinv⟩

theorem Inv.drained (h : Inv s nodes tail waiting popped) (hheld : s.pop.heldNodes = [])
    (hmeet : s.mHead = s.mTail) : Drained s := by
  have hcontents := h.front.contents
  rw [hheld, h.nodes_eq_nil_iff.mpr hmeet] at hcontents
  have hnone : waiting = [] := List.map_eq_nil_iff.mp hcontents.symm
  rw [Drained, h.front.results, h.front.completed, hnone, List.append_nil]

theorem drained_of_saysEmpty (h : Good s) {event : Event Package} (hempty : SaysEmpty s event) :
    Drained s := by
  obtain ⟨nodes, tail, waiting, popped, h⟩ := h
  have hok := h.front.pop
  cases event with
  | push tAudioPackage newNode => exact hempty.elim
  | pushStep => exact hempty.elim
  | pop => exact hempty.elim
  | empty => exact hempty.elim
  | popStep =>
    rw [SaysEmpty] at hempty
    cases hpop : s.pop with
    | idle =>
      rw [hpop] at hempty
      exact hempty.elim
    | headLoaded oldHead =>
      rw [hpop] at hempty hok
      exact h.drained (by rw [hpop]; rfl) (hok.symm.trans hempty)
    | compared oldHead =>
      rw [hpop] at hempty
      exact hempty.elim
    | nextLoaded oldHead next =>
      rw [hpop] at hempty
      exact hempty.elim
    | popped oldHead =>
      rw [hpop] at hempty hok
      exact absurd hempty hok
    | copied oldHead result =>
      rw [hpop] at hempty
      exact hempty.elim
    | emptyLoaded head =>
      rw [hpop] at hempty hok
      exact h.drained (by rw [hpop]; rfl) (hok.symm.trans hempty)

/-- The calls of `pop` returned packages in the order of the completed calls of `push`. -/
def InOrder (s : State Package) : Prop :=
  ∃ packages, s.results = packages.map some ∧ packages <+: s.completed ∧ s.completed <+: s.pushed

theorem Good.inOrder (h : Good s) : InOrder s := by
  obtain ⟨nodes, tail, waiting, popped, h⟩ := h
  refine ⟨popped, h.front.results, ?_, ?_⟩
  · rw [h.front.completed]
    exact List.prefix_append popped waiting
  · rw [h.back.pushed]
    exact List.prefix_append s.completed s.push.packages

theorem good_run (h : Good s) (events : List (Event Package)) :
    ∃ t, Transition.runM step s events = .ok t ∧ Good t := by
  induction events generalizing s with
  | nil => exact ⟨s, rfl, h⟩
  | cons event events ih =>
    obtain ⟨next, hstep, hnext⟩ := good_step h event
    obtain ⟨t, hrun, ht⟩ := ih hnext
    exact ⟨t, Transition.runM_cons_eq_ok.mpr ⟨next, hstep, hrun⟩, ht⟩

end

/-- In every interleaving no pointer goes astray, the packages come out in order, each once
and none empty, and a call says that the queue is empty only in a state where all completed
pushes have been popped. -/
theorem queue_in_order {Package : Type} (dummy : Address) (events : List (Event Package)) :
    (∃ t, Transition.runM step (State.start dummy) events = .ok t ∧ InOrder t) ∧
      Transition.AlwaysM step (fun a event _ => SaysEmpty a event → Drained a)
        (State.start dummy) events := by
  constructor
  · obtain ⟨t, hrun, ht⟩ := good_run (good_start dummy) events
    exact ⟨t, hrun, ht.inOrder⟩
  · intro pre event post a b hevents hpre hstep hempty
    obtain ⟨t, hrun, ht⟩ := good_run (good_start dummy) pre
    rw [hpre] at hrun
    cases hrun
    exact drained_of_saysEmpty ht hempty

example : (Transition.runM step (State.start 0) [.push 7 1, .pushStep, .pushStep, .pop, .popStep,
    .pushStep, .pushStep, .pop, .popStep, .popStep, .popStep, .popStep, .popStep]).map
      State.results = .ok [some 7] := by decide

end Skype.LockFreeAudioQueue
