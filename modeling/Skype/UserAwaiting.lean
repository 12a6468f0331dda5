import Skype.StringUtils

/-!
# `AwaitingUser` and `AwaitingUsers`

A call request is an `AwaitingUser`; the store keeps one for each key of the map
and a vector of time-out records beside it. `timeoutPass` is one traversal of
`timeout_loop` with the addresses the range-based loop works on: `begin()` and
`end()` are taken once, erasing the first record moves the others down in place,
and the positions behind the shrunken end keep what they held.
-/

namespace Skype

structure AwaitingUser where
  mId : Int32
  mPeerId : Int32
  mAddress : ByteString
  mLocalAddress : ByteString
  mPeerAddress : ByteString
  mPeerLocalAddress : ByteString
  deriving DecidableEq

namespace AwaitingUser

structure Ids where
  userId : Int32
  peerId : Int32

def new (tIds : Ids) (tAddress : ByteString) : AwaitingUser :=
  ⟨tIds.userId, tIds.peerId, tAddress, [], [], []⟩

/-- The constructor with a local address; it initialises `m_peer_id` with the
user id as well. -/
def newLocal (tIds : Ids) (tAddress tLocalAddress : ByteString) : Exec AwaitingUser := do
  let (_, port) ← StringUtils.splitFirst tAddress (str ":")
  return ⟨tIds.userId, tIds.userId, tAddress, tLocalAddress ++ (str ":" ++ port), [], []⟩

def WEB : ByteString := str "WEB"
def LOCAL : ByteString := str "LOCAL"

def hasSameAddress (user : AwaitingUser) : Exec Bool := do
  let (userAddress, _) ← StringUtils.splitFirst user.mAddress (str ":")
  let (peerAddress, _) ← StringUtils.splitFirst user.mPeerAddress (str ":")
  return userAddress == peerAddress

def address (user : AwaitingUser) : Exec ByteString := do
  return if ← user.hasSameAddress then user.mLocalAddress else user.mAddress

def peerAddress (user : AwaitingUser) : Exec ByteString := do
  return if ← user.hasSameAddress then user.mPeerLocalAddress else user.mPeerAddress

def addressType (user : AwaitingUser) : Exec ByteString := do
  return if ← user.hasSameAddress then LOCAL else WEB

def setPeerAddress (user : AwaitingUser) (tPeerAddress : ByteString) : AwaitingUser :=
  { user with mPeerAddress := tPeerAddress }

def setPeerLocalAddress (user : AwaitingUser) (tPeerLocalAddress : ByteString) :
    Exec AwaitingUser := do
  let (_, port) ← StringUtils.splitFirst user.mPeerAddress (str ":")
  return { user with mPeerLocalAddress := tPeerLocalAddress ++ str ":" ++ port }

def ipOf (address : ByteString) : ByteString := (Library.Search.cutFirst (str ":") address).1

def portOf (address : ByteString) : ByteString := (Library.Search.cutFirst (str ":") address).2

theorem splitFirst_colon {address : ByteString} (h : address.length < 2 ^ 31) :
    StringUtils.splitFirst address (str ":") = .ok (ipOf address, portOf address) :=
  StringUtils.splitFirst_eq h

theorem newLocal_fields {tIds : Ids} {tAddress tLocalAddress : ByteString} {user : AwaitingUser}
    (h : newLocal tIds tAddress tLocalAddress = .ok user) :
    user.mAddress = tAddress ∧ user.mPeerAddress = [] := by
  obtain ⟨pieces, -, hpure⟩ := bind_eq_ok.mp h
  obtain rfl := Except.ok.inj hpure
  exact ⟨rfl, rfl⟩

theorem setPeerLocalAddress_fields {user result : AwaitingUser} {tPeerLocalAddress : ByteString}
    (h : user.setPeerLocalAddress tPeerLocalAddress = .ok result) :
    result.mId = user.mId ∧ result.mAddress = user.mAddress ∧
      result.mPeerAddress = user.mPeerAddress := by
  obtain ⟨pieces, -, hpure⟩ := bind_eq_ok.mp h
  obtain rfl := Except.ok.inj hpure
  exact ⟨rfl, rfl, rfl⟩

def requested (userId : Int32) (address localAddress : ByteString) : AwaitingUser :=
  ⟨userId, userId, address, localAddress ++ (str ":" ++ portOf address), [], []⟩

@[simp] theorem requested_mId (userId : Int32) (address localAddress : ByteString) :
    (requested userId address localAddress).mId = userId := rfl

theorem newLocal_eq (tIds : Ids) {address : ByteString} (localAddress : ByteString)
    (h : address.length < 2 ^ 31) :
    newLocal tIds address localAddress = .ok (requested tIds.userId address localAddress) := by
  rw [newLocal, splitFirst_colon h]
  rfl

def accepted (user : AwaitingUser) (peerAddress peerLocalAddress : ByteString) : AwaitingUser :=
  { user with
    mPeerAddress := peerAddress
    mPeerLocalAddress := peerLocalAddress ++ str ":" ++ portOf peerAddress }

theorem setPeerLocalAddress_eq (user : AwaitingUser) {peerAddress : ByteString}
    (peerLocalAddress : ByteString) (h : peerAddress.length < 2 ^ 31) :
    (user.setPeerAddress peerAddress).setPeerLocalAddress peerLocalAddress =
      .ok (user.accepted peerAddress peerLocalAddress) := by
  have hpeer : (user.setPeerAddress peerAddress).mPeerAddress = peerAddress := rfl
  rw [setPeerLocalAddress, hpeer, splitFirst_colon h]
  rfl

structure Short (user : AwaitingUser) : Prop where
  address : user.mAddress.length < 2 ^ 31
  peerAddress : user.mPeerAddress.length < 2 ^ 31

def sameNetwork (user : AwaitingUser) : Bool := ipOf user.mAddress == ipOf user.mPeerAddress

def seenAddress (user : AwaitingUser) : ByteString :=
  if user.sameNetwork then user.mLocalAddress else user.mAddress

def seenPeer (user : AwaitingUser) : ByteString :=
  if user.sameNetwork then user.mPeerLocalAddress else user.mPeerAddress

def network (user : AwaitingUser) : ByteString := if user.sameNetwork then LOCAL else WEB

section

variable {user : AwaitingUser} (h : user.Short)
include h

theorem Short.hasSameAddress_eq : user.hasSameAddress = .ok user.sameNetwork := by
  rw [hasSameAddress, splitFirst_colon h.address, ok_bind, splitFirst_colon h.peerAddress]
  rfl

theorem Short.address_eq : user.address = .ok user.seenAddress := by
  rw [AwaitingUser.address, h.hasSameAddress_eq]
  rfl

theorem Short.peerAddress_eq : user.peerAddress = .ok user.seenPeer := by
  rw [AwaitingUser.peerAddress, h.hasSameAddress_eq]
  rfl

theorem Short.addressType_eq : user.addressType = .ok user.network := by
  rw [AwaitingUser.addressType, h.hasSameAddress_eq]
  rfl

end

end AwaitingUser

inductive TimeoutStatus
  | created
  | pinged
  | detached
  deriving DecidableEq, Repr

structure Timeout where
  userId : Int32
  status : TimeoutStatus
  deriving DecidableEq

/-- `m_awaiting_users` and `m_timeouts`. `insert` files a request under its own
id and nothing changes an id, so the map is keyed by the ids of its values. -/
structure AwaitingUsers where
  mAwaitingUsers : Int32 → Option AwaitingUser
  mTimeouts : List Timeout
  keyed : ∀ id user, mAwaitingUsers id = some user → user.mId = id

namespace AwaitingUsers

abbrev Map := Int32 → Option AwaitingUser

def empty : AwaitingUsers := ⟨fun _ => none, [], by simp⟩

def exists' (store : AwaitingUsers) (tId : Int32) : Bool := (store.mAwaitingUsers tId).isSome

def get (store : AwaitingUsers) (tId : Int32) : Exec AwaitingUser :=
  match store.mAwaitingUsers tId with
  | some user => .ok user
  | none => .error .outOfRange

theorem keyed_update {map : Map} (h : ∀ id user, map id = some user → user.mId = id)
    (tUser : AwaitingUser) :
    ∀ id user, Function.update map tUser.mId (some tUser) id = some user → user.mId = id := by
  intro id user hu
  by_cases hid : id = tUser.mId
  · subst hid
    rw [Function.update_self] at hu
    rw [← Option.some.inj hu]
  · rw [Function.update_of_ne hid] at hu
    exact h id user hu

theorem keyed_erase {map : Map} (h : ∀ id user, map id = some user → user.mId = id)
    (tId : Int32) :
    ∀ id user, Function.update map tId none id = some user → user.mId = id := by
  intro id user hu
  by_cases hid : id = tId
  · subst hid
    simp at hu
  · rw [Function.update_of_ne hid] at hu
    exact h id user hu

/-- The request is reachable through the reference that `get` returns; this is the
store after a change of it that keeps its id. -/
def put (store : AwaitingUsers) (tUser : AwaitingUser) : AwaitingUsers where
  mAwaitingUsers := Function.update store.mAwaitingUsers tUser.mId (some tUser)
  mTimeouts := store.mTimeouts
  keyed := keyed_update store.keyed tUser

def insert (store : AwaitingUsers) (tUser : AwaitingUser) : Bool × AwaitingUsers :=
  match store.mAwaitingUsers tUser.mId with
  | some _ => (false, store)
  | none =>
    (true,
      { mAwaitingUsers := Function.update store.mAwaitingUsers tUser.mId (some tUser)
        mTimeouts := store.mTimeouts ++ [⟨tUser.mId, .created⟩]
        keyed := keyed_update store.keyed tUser })

def destroy (store : AwaitingUsers) (tId : Int32) : Bool × AwaitingUsers :=
  match store.mAwaitingUsers tId with
  | none => (false, store)
  | some _ =>
    (true,
      { mAwaitingUsers := Function.update store.mAwaitingUsers tId none
        mTimeouts := store.mTimeouts
        keyed := keyed_erase store.keyed tId })

def setStatus (tId : Int32) (tNewStatus : TimeoutStatus) (records : List Timeout) : List Timeout :=
  records.map fun record =>
    if record.userId = tId then { record with status := tNewStatus } else record

def updateTimeoutStatus (store : AwaitingUsers) (tId : Int32) (tNewStatus : TimeoutStatus) :
    AwaitingUsers :=
  { store with mTimeouts := setStatus tId tNewStatus store.mTimeouts }

def ping (store : AwaitingUsers) (tId : Int32) : AwaitingUsers :=
  store.updateTimeoutStatus tId .pinged

/-- The store in the middle of a traversal, and what the positions between the
current end of the vector and the `end()` of the loop still hold. -/
structure Traversal where
  store : AwaitingUsers
  stale : List Timeout

def Traversal.memory (t : Traversal) : List Timeout := t.store.mTimeouts ++ t.stale

/-- `m_timeouts.erase(m_timeouts.begin() + index)`, where `index` is always 0: the
records move one position down and the last position keeps its record. -/
def Traversal.eraseFirst (t : Traversal) : Traversal :=
  match t.store.mTimeouts with
  | [] => t
  | first :: rest =>
    ⟨{ t.store with mTimeouts := rest }, (first :: rest).getLast (List.cons_ne_nil _ _) :: t.stale⟩

def Traversal.visit (t : Traversal) (position : ℕ) : Traversal :=
  match t.memory[position]? with
  | none => t
  | some record =>
    if record.status = .detached then
      -- The first record goes with the request, whichever record this is.
      ({ t with store := (t.store.destroy record.userId).2 } : Traversal).eraseFirst
    else { t with store := t.store.updateTimeoutStatus record.userId .detached }

def Traversal.visitAll (t : Traversal) : ℕ → Traversal
  | 0 => t
  | n + 1 => (t.visitAll n).visit n

def timeoutPass (store : AwaitingUsers) : AwaitingUsers :=
  (Traversal.visitAll ⟨store, []⟩ store.mTimeouts.length).store

inductive Op
  | insert (tUser : AwaitingUser)
  | ping (tId : Int32)
  | destroy (tId : Int32)
  | pass

def step (store : AwaitingUsers) : Op → AwaitingUsers
  | .insert tUser => (store.insert tUser).2
  | .ping tId => store.ping tId
  | .destroy tId => (store.destroy tId).2
  | .pass => store.timeoutPass

section

variable (store : AwaitingUsers) (id : Int32)

@[simp] theorem mTimeouts_destroy : (store.destroy id).2.mTimeouts = store.mTimeouts := by
  unfold destroy
  split <;> rfl

@[simp] theorem mAwaitingUsers_destroy :
    (store.destroy id).2.mAwaitingUsers = Function.update store.mAwaitingUsers id none := by
  unfold destroy
  split
  · next h => exact (Function.update_eq_self_iff.mpr h.symm).symm
  · rfl

theorem destroy_fst : (store.destroy id).1 = store.exists' id := by
  unfold destroy exists'
  split
  · next h => rw [h]; rfl
  · next h => rw [h]; rfl

theorem exists'_destroy (other : Int32) :
    (store.destroy id).2.exists' other = (store.exists' other && other != id) := by
  by_cases h : other = id
  · subst h
    simp [exists']
  · simp [exists', h]

theorem insert_fst (tUser : AwaitingUser) :
    (store.insert tUser).1 = !store.exists' tUser.mId := by
  unfold insert exists'
  split
  · next h => rw [h]; rfl
  · next h => rw [h]; rfl

theorem insert_of_exists' {tUser : AwaitingUser} (h : store.exists' tUser.mId = true) :
    store.insert tUser = (false, store) := by
  obtain ⟨user, hu⟩ := Option.isSome_iff_exists.mp h
  simp only [insert, hu]

theorem mTimeouts_insert {tUser : AwaitingUser} (h : store.exists' tUser.mId = false) :
    (store.insert tUser).2.mTimeouts = store.mTimeouts ++ [⟨tUser.mId, .created⟩] := by
  have hu : store.mAwaitingUsers tUser.mId = none := Option.not_isSome_iff_eq_none.mp (by
    rw [← exists', h]
    exact Bool.false_ne_true)
  simp only [insert, hu]

theorem mAwaitingUsers_insert {tUser : AwaitingUser} (h : store.exists' tUser.mId = false) :
    (store.insert tUser).2.mAwaitingUsers =
      Function.update store.mAwaitingUsers tUser.mId (some tUser) := by
  have hu : store.mAwaitingUsers tUser.mId = none := Option.not_isSome_iff_eq_none.mp (by
    rw [← exists', h]
    exact Bool.false_ne_true)
  simp only [insert, hu]

theorem exists'_insert (tUser : AwaitingUser) (other : Int32) :
    (store.insert tUser).2.exists' other = (store.exists' other || other == tUser.mId) := by
  cases h : store.exists' tUser.mId with
  | true =>
    rw [insert_of_exists' store h]
    by_cases hid : other = tUser.mId
    · rw [hid, h]
      rfl
    · simp [hid]
  | false =>
    have hu : store.mAwaitingUsers tUser.mId = none := Option.not_isSome_iff_eq_none.mp (by
      rw [← exists', h]
      exact Bool.false_ne_true)
    by_cases hid : other = tUser.mId
    · subst hid
      simp [exists', insert, hu]
    · simp [exists', insert, hu, hid]

@[simp] theorem mAwaitingUsers_put (tUser : AwaitingUser) :
    (store.put tUser).mAwaitingUsers =
      Function.update store.mAwaitingUsers tUser.mId (some tUser) := rfl

@[simp] theorem mAwaitingUsers_ping : (store.ping id).mAwaitingUsers = store.mAwaitingUsers := rfl

theorem map_userId_setStatus (status : TimeoutStatus) (records : List Timeout) :
    (setStatus id status records).map Timeout.userId = records.map Timeout.userId := by
  simp only [setStatus, List.map_map]
  congr 1
  funext record
  simp only [Function.comp_apply]
  split <;> rfl

end

end AwaitingUsers

end Skype
