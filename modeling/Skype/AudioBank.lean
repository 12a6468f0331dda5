import Skype.StdString
import Skype.Library.Transition

/-!
# `AudioBank`

The bank collects audio of any size up to `m_buffer_size` and hands it out in chunks of
that size. An empty bank takes the data as it is, so data of exactly the size of a chunk
waits in `m_item` until more is loaded.
-/

namespace Skype

open Library

structure AudioBank where
  mStore : List ByteString
  mItem : ByteString
  mBufferSize : ℕ
  deriving DecidableEq

namespace AudioBank

def new (mBufferSize : ℕ) : AudioBank := ⟨[], [], mBufferSize⟩

def copyLoop (tData : ByteString) : ℕ → ℕ → AudioBank → ℕ × AudioBank
  | 0, index, bank => (index, bank)
  | fuel + 1, index, bank =>
    if bank.mItem.length < bank.mBufferSize then
      match tData[index]? with
      | none => (index, bank)
      | some byte => copyLoop tData fuel (index + 1) { bank with mItem := bank.mItem ++ [byte] }
    else (index, bank)

def copyData (bank : AudioBank) (tData : ByteString) (tIndex : ℕ) : ℕ × AudioBank :=
  copyLoop tData (tData.length - tIndex) tIndex bank

def pushItem (bank : AudioBank) : AudioBank :=
  { bank with mStore := bank.mStore ++ [bank.mItem], mItem := [] }

def load (bank : AudioBank) (tData : ByteString) : AudioBank :=
  if bank.mBufferSize < tData.length then bank
  else if bank.mItem = [] then { bank with mItem := tData }
  else
    let (dataIndex, bank) := bank.copyData tData 0
    let bank :=
      if dataIndex < tData.length then (bank.pushItem.copyData tData dataIndex).2 else bank
    if bank.mItem.length = bank.mBufferSize then bank.pushItem else bank

def grab (bank : AudioBank) : ByteString × AudioBank :=
  match bank.mStore with
  | [] => ([], bank)
  | data :: mStore => (data, { bank with mStore })

def getStoreSize (bank : AudioBank) : ℕ := bank.mStore.length

section

variable {bank : AudioBank} {tData : ByteString}

theorem copyLoop_eq (fuel index : ℕ) (hfuel : tData.length - index = fuel) :
    copyLoop tData fuel index bank =
      (index + min (bank.mBufferSize - bank.mItem.length) fuel,
        { bank with
          mItem := bank.mItem ++
            (tData.drop index).take (bank.mBufferSize - bank.mItem.length) }) := by
  induction fuel generalizing index bank with
  | zero =>
    have hnil : tData.drop index = [] := List.drop_eq_nil_of_le (by omega)
    simp [copyLoop, hnil]
  | succ fuel ih =>
    have hlt : index < tData.length := by omega
    rw [copyLoop, List.getElem?_eq_getElem hlt, List.drop_eq_getElem_cons hlt]
    split
    · next hroom =>
      dsimp only
      rw [ih (index + 1) (by omega)]
      obtain ⟨room, hcount⟩ : ∃ room, bank.mBufferSize - bank.mItem.length = room + 1 :=
        ⟨bank.mBufferSize - bank.mItem.length - 1, by omega⟩
      have hrest : bank.mBufferSize - (bank.mItem ++ [tData[index]]).length = room := by
        rw [List.length_append, List.length_singleton]
        omega
      dsimp only
      rw [hrest, hcount, List.take_succ_cons, List.append_assoc, List.singleton_append]
      refine Prod.ext ?_ rfl
      dsimp only
      omega
    · next hfull =>
      have hzero : bank.mBufferSize - bank.mItem.length = 0 := by omega
      simp [hzero]

theorem copyData_eq (tIndex : ℕ) :
    bank.copyData tData tIndex =
      (tIndex + min (bank.mBufferSize - bank.mItem.length) (tData.length - tIndex),
        { bank with
          mItem := bank.mItem ++
            (tData.drop tIndex).take (bank.mBufferSize - bank.mItem.length) }) :=
  copyLoop_eq _ _ rfl

variable (bank) in
theorem copyData_pushItem {tIndex : ℕ} (h : (tData.drop tIndex).length ≤ bank.mBufferSize) :
    (bank.pushItem.copyData tData tIndex).2 =
      { bank.pushItem with mItem := tData.drop tIndex } := by
  have htake : (tData.drop tIndex).take (bank.mBufferSize - 0) = tData.drop tIndex :=
    List.take_of_length_le h
  rw [copyData_eq]
  exact congrArg (fun mItem => { bank.pushItem with mItem }) htake

theorem load_of_ne_nil (hitem : bank.mItem ≠ []) (hshort : bank.mItem.length < bank.mBufferSize)
    (hdata : tData.length ≤ bank.mBufferSize) :
    bank.load tData =
      if (bank.mItem ++ tData).length < bank.mBufferSize then
        { bank with mItem := bank.mItem ++ tData }
      else
        { bank with
          mStore := bank.mStore ++ [(bank.mItem ++ tData).take bank.mBufferSize]
          mItem := (bank.mItem ++ tData).drop bank.mBufferSize } := by
  rw [load, if_neg (not_lt.mpr hdata), if_neg hitem, copyData_eq]
  dsimp only
  rw [List.drop_zero, Nat.sub_zero, Nat.zero_add, List.length_append]
  rcases le_or_gt (bank.mItem.length + tData.length) bank.mBufferSize with hfits | hmore
  · have hcopied : min (bank.mBufferSize - bank.mItem.length) tData.length = tData.length :=
      min_eq_right (by omega)
    have htake : tData.take (bank.mBufferSize - bank.mItem.length) = tData :=
      List.take_of_length_le (by omega)
    have hlength : (bank.mItem ++ tData).length = bank.mItem.length + tData.length :=
      List.length_append
    rw [hcopied, htake, if_neg (lt_irrefl _)]
    rcases hfits.lt_or_eq with hless | hsame
    · rw [if_pos hless]
      rw [← hlength] at hless
      exact if_neg hless.ne
    · rw [if_neg hsame.not_lt]
      rw [← hlength] at hsame
      rw [List.take_of_length_le hsame.le, List.drop_eq_nil_of_le hsame.le]
      exact if_pos hsame
  · have hcopied : min (bank.mBufferSize - bank.mItem.length) tData.length =
        bank.mBufferSize - bank.mItem.length := min_eq_left (by omega)
    have hrest : (tData.drop (bank.mBufferSize - bank.mItem.length)).length < bank.mBufferSize := by
      rw [List.length_drop]
      have hpos := List.length_pos_of_ne_nil hitem
      omega
    have hmoreData : bank.mBufferSize - bank.mItem.length < tData.length := by omega
    have hcopy := copyData_pushItem
      { bank with mItem := bank.mItem ++ tData.take (bank.mBufferSize - bank.mItem.length) }
      hrest.le
    rw [hcopied, if_pos hmoreData, if_neg hmore.not_gt, hcopy,
      List.take_append, List.drop_append, List.take_of_length_le hshort.le,
      List.drop_eq_nil_of_le hshort.le, List.nil_append]
    exact if_neg hrest.ne

theorem load_of_nil (hitem : bank.mItem = []) (hdata : tData.length ≤ bank.mBufferSize) :
    bank.load tData = { bank with mItem := tData } := by
  rw [load, if_neg (not_lt.mpr hdata), if_pos hitem]

theorem load_of_long (hdata : bank.mBufferSize < tData.length) : bank.load tData = bank :=
  if_pos hdata

end

inductive Event
  | load (tData : ByteString)
  | grab

structure Session where
  bank : AudioBank
  loaded : ByteString
  grabbed : List ByteString

def Session.start (mBufferSize : ℕ) : Session := ⟨new mBufferSize, [], []⟩

def Session.step (s : Session) : Event → Session
  | .load tData =>
    { s with
      bank := s.bank.load tData
      loaded := if tData.length ≤ s.bank.mBufferSize then s.loaded ++ tData else s.loaded }
  | .grab =>
    { s with
      bank := s.bank.grab.2
      grabbed := if s.bank.mStore = [] then s.grabbed else s.grabbed ++ [s.bank.grab.1] }

structure Keeps (s : Session) : Prop where
  contents : s.grabbed.flatten ++ s.bank.mStore.flatten ++ s.bank.mItem = s.loaded
  grabbed : ∀ chunk ∈ s.grabbed, chunk.length = s.bank.mBufferSize
  store : ∀ chunk ∈ s.bank.mStore, chunk.length = s.bank.mBufferSize

structure Rechunks (s : Session) : Prop extends Keeps s where
  short : s.bank.mItem.length < s.bank.mBufferSize
  count : s.bank.getStoreSize + s.grabbed.length = s.loaded.length / s.bank.mBufferSize

def SplitsChunk (s : Session) : Event → Prop
  | .load tData => s.bank.mItem = [] → tData.length ≠ s.bank.mBufferSize
  | .grab => True

instance (s : Session) : DecidablePred (SplitsChunk s)
  | .load _ => inferInstanceAs (Decidable (_ = _ → _))
  | .grab => isTrue trivial

section

variable {s : Session}

theorem length_flatten_chunks {chunks : List ByteString} {size : ℕ}
    (h : ∀ chunk ∈ chunks, chunk.length = size) : chunks.flatten.length = chunks.length * size := by
  have hlengths : chunks.map List.length = List.replicate chunks.length size :=
    List.map_eq_replicate_iff.mpr h
  rw [List.length_flatten, hlengths, List.sum_replicate, smul_eq_mul]

theorem Keeps.rechunks (h : Keeps s) (hshort : s.bank.mItem.length < s.bank.mBufferSize) :
    Rechunks s := by
  refine ⟨h, hshort, ?_⟩
  have htotal := congrArg List.length h.contents
  rw [List.length_append, List.length_append, length_flatten_chunks h.grabbed,
    length_flatten_chunks h.store, ← Nat.add_mul] at htotal
  rw [getStoreSize, ← htotal, Nat.add_comm (_ * _), Nat.add_mul_div_right _ _ (by omega),
    Nat.div_eq_of_lt hshort, Nat.zero_add, Nat.add_comm]

theorem keeps_grab (h : Keeps s) : Keeps (s.step .grab) := by
  rw [Session.step, grab]
  cases hstore : s.bank.mStore with
  | nil =>
    rw [if_pos rfl]
    exact h
  | cons data mStore =>
    rw [if_neg (List.cons_ne_nil data mStore)]
    have hsizes := h.store
    rw [hstore, List.forall_mem_cons] at hsizes
    refine ⟨?_, ?_, hsizes.2⟩
    · rw [← h.contents, hstore]
      simp
    · dsimp only
      rw [List.forall_mem_append, List.forall_mem_singleton]
      exact ⟨h.grabbed, hsizes.1⟩

theorem Rechunks.keeps_load (h : Rechunks s) (tData : ByteString) :
    Keeps (s.step (.load tData)) := by
  rw [Session.step]
  rcases lt_or_ge s.bank.mBufferSize tData.length with hlong | hdata
  · rw [load_of_long hlong, if_neg (not_le.mpr hlong)]
    exact h.toKeeps
  · rw [if_pos hdata]
    by_cases hitem : s.bank.mItem = []
    · rw [load_of_nil hitem hdata]
      refine ⟨?_, h.grabbed, h.store⟩
      rw [← h.contents, hitem, List.append_nil]
    · rw [load_of_ne_nil hitem h.short hdata]
      split
      · refine ⟨?_, h.grabbed, h.store⟩
        rw [← h.contents]
        exact (List.append_assoc _ _ _).symm
      · next hfull =>
        refine ⟨?_, h.grabbed, ?_⟩
        · rw [← h.contents]
          simp
        · dsimp only
          rw [List.forall_mem_append, List.forall_mem_singleton]
          exact ⟨h.store, List.length_take_of_le (not_lt.mp hfull)⟩

theorem short_load_iff (h : Rechunks s) (tData : ByteString) :
    (s.bank.load tData).mItem.length < (s.bank.load tData).mBufferSize ↔
      SplitsChunk s (.load tData) := by
  rw [SplitsChunk]
  rcases lt_or_ge s.bank.mBufferSize tData.length with hlong | hdata
  · rw [load_of_long hlong]
    exact iff_of_true h.short fun _ => hlong.ne'
  · by_cases hitem : s.bank.mItem = []
    · rw [load_of_nil hitem hdata]
      exact ⟨fun hless _ => hless.ne, fun hne => lt_of_le_of_ne hdata (hne hitem)⟩
    · rw [load_of_ne_nil hitem h.short hdata]
      refine iff_of_true ?_ fun hnil => absurd hnil hitem
      split
      · next hless => exact hless
      · have hshort := h.short
        have hrest : ((s.bank.mItem ++ tData).drop s.bank.mBufferSize).length <
            s.bank.mBufferSize := by
          rw [List.length_drop, List.length_append]
          omega
        exact hrest

theorem rechunks_step_iff (h : Rechunks s) (event : Event) :
    Rechunks (s.step event) ↔ SplitsChunk s event := by
  cases event with
  | load tData =>
    rw [← short_load_iff h]
    exact ⟨fun hafter => hafter.short, fun hshort => (h.keeps_load tData).rechunks hshort⟩
  | grab =>
    refine iff_of_true ((keeps_grab h.toKeeps).rechunks ?_) trivial
    have hshort := h.short
    rw [Session.step, grab]
    cases s.bank.mStore with
    | nil => exact hshort
    | cons data mStore => exact hshort

end

theorem rechunks_start {mBufferSize : ℕ} (h : 0 < mBufferSize) :
    Rechunks (Session.start mBufferSize) :=
  Keeps.rechunks ⟨rfl, List.forall_mem_nil _, List.forall_mem_nil _⟩ h

/-- In a run everything is handed out in full chunks and without delay, exactly if no load
fills an empty bank at once. -/
theorem rechunks_run_iff {mBufferSize : ℕ} (h : 0 < mBufferSize) (events : List Event) :
    Transition.Always Session.step (fun s event => Rechunks (s.step event))
        (Session.start mBufferSize) events ↔
      Transition.Always Session.step SplitsChunk (Session.start mBufferSize) events :=
  Transition.always_congr_of_invariant (rechunks_start h)
    (fun _ event hs => rechunks_step_iff hs event) fun _ _ _ hafter => hafter

theorem rechunks_run_five :
    Transition.Always Session.step (fun s event => Rechunks (s.step event)) (Session.start 3)
      [.load [1, 2], .load [3, 4], .grab, .load [5, 6, 7], .grab] :=
  (rechunks_run_iff (by decide) _).mpr (by decide)

/-- A whole frame is loaded into a fresh bank and waits. -/
theorem whole_frame_waits :
    ¬Transition.Always Session.step (fun s event => Rechunks (s.step event)) (Session.start 7056)
      [.load (List.replicate 7056 0)] := by
  intro h
  have hshort := (h [] _ [] rfl).short
  have hdata : (List.replicate 7056 (0 : UInt8)).length ≤ 7056 := List.length_replicate.le
  have hwaits : (new 7056).load (List.replicate 7056 0) =
      { new 7056 with mItem := List.replicate 7056 0 } := load_of_nil rfl hdata
  change ((new 7056).load (List.replicate 7056 0)).mItem.length <
    ((new 7056).load (List.replicate 7056 0)).mBufferSize at hshort
  rw [hwaits] at hshort
  have hlength : (List.replicate 7056 (0 : UInt8)).length < 7056 := hshort
  rw [List.length_replicate] at hlength
  exact lt_irrefl _ hlength

end AudioBank

end Skype
