import Skype.Socket
import Skype.Library.LittleEndian

/-!
# `StreamIO`

A media package travels as one 25-byte header, the type and three `size_t`
values, and the data cut into `nb_packets` packets of `packet_size` bytes and a
remainder. The values of the header are 64-bit words and wrap around in
`receive_data` exactly where the source computes with them; `receiveData` keeps
the destination and the size of every `recvfrom` it performs.
-/

namespace Skype.StreamIO

open Library

def minNbPackets : ℕ := 10
def maxPacketSize : ℕ := 9000
def singlePackageThreshold : ℕ := 1000
def headerSize : ℕ := 25

structure PacketInfo where
  dataType : UInt8
  nbPackets : UInt64
  packetSize : UInt64
  remPacketSize : UInt64
  deriving DecidableEq

/-- The integer nearest to `n` among those that a `double` holds, ties to even. -/
def toDouble (n : ℕ) : ℕ :=
  if n < 2 ^ 53 then n
  else
    let ulp := 2 ^ (Nat.log2 n - 52)
    let q := n / ulp
    let r := n % ulp
    if ulp < 2 * r ∨ 2 * r = ulp ∧ q % 2 = 1 then (q + 1) * ulp else q * ulp

/-- `std::floor(a / b)` of two `size_t`: the quotient passes through a `double`. -/
def floorDiv (a b : ℕ) : Exec ℕ :=
  if b = 0 then .error .undefined else .ok (toDouble (a / b))

def makePacketInfo (tData : Data) : Exec PacketInfo := do
  let dataType := tData.type.toChar
  let size := tData.bytes.length
  let maxTotalData := minNbPackets * maxPacketSize
  if size < singlePackageThreshold then
    return ⟨dataType, 1, UInt64.ofNat size, 0⟩
  let growBy := if maxTotalData < size then (size - maxTotalData) / maxPacketSize + 1 else 0
  let remPacketSize := size % (minNbPackets + growBy)
  let packetSize ← floorDiv size (minNbPackets + growBy)
  let nbPackets ← floorDiv size packetSize
  return ⟨dataType, UInt64.ofNat nbPackets, UInt64.ofNat packetSize, UInt64.ofNat remPacketSize⟩

def pushToHeader (tHeader : List UInt8) (value : UInt64) : List UInt8 :=
  tHeader ++ LittleEndian.encode 8 value.toNat

def makeHeader (tPktInfo : PacketInfo) : List UInt8 :=
  let header := [tPktInfo.dataType]
  let header := pushToHeader header tPktInfo.nbPackets
  let header := pushToHeader header tPktInfo.packetSize
  pushToHeader header tPktInfo.remPacketSize

def sendHeader (tReq : Request) (tAddrin : SockAddr) (tHeader : List UInt8) (out : Outbox) :
    Request × Outbox :=
  let (sent, out) := out.sendto tAddrin tHeader
  (if sent then tReq else tReq.fail, out)

/-- The loop of `send_data`; `data` is the part of the vector not yet sent. Where the packets
are more than the data, which takes 80982000 bytes and more, the source reads behind the
vector; what it sends then is cut off here at the end of the vector. -/
def sendPackets (tAddrin : SockAddr) (packetSize : ℕ) :
    ℕ → List UInt8 → Request → Outbox → List UInt8 × Request × Outbox
  | 0, data, tReq, out => (data, tReq, out)
  | n + 1, data, tReq, out =>
    let (sent, out) := out.sendto tAddrin (data.take packetSize)
    sendPackets tAddrin packetSize n (data.drop packetSize) (if sent then tReq else tReq.fail) out

def sendData (tReq : Request) (tAddrin : SockAddr) (tData : List UInt8) (tPktInfo : PacketInfo)
    (out : Outbox) : Request × Outbox :=
  let (data, tReq, out) := sendPackets tAddrin tPktInfo.packetSize.toNat
    tPktInfo.nbPackets.toNat tData tReq out
  if tPktInfo.remPacketSize = 0 then (tReq, out)
  else
    let (sent, out) := out.sendto tAddrin (data.take tPktInfo.remPacketSize.toNat)
    (if sent then tReq else tReq.fail, out)

def respond (net : Inet) (tReq : Request) (out : Outbox) : Exec (Bool × Request × Outbox) := do
  let tData ← tReq.data
  if tData.type = .text then return (false, tReq, out)
  let (ip, port) ← StringUtils.splitFirst tReq.mAddress (str ":")
  let pktInfo ← makePacketInfo tData
  let header := makeHeader pktInfo
  let addrIn := Connection.toSockaddrIn net port ip
  let tReq := if header.length ≠ headerSize then tReq.fail else tReq
  let (tReq, out) := if tReq.mValid then sendHeader tReq addrIn header out else (tReq, out)
  let (tReq, out) :=
    if tReq.mValid then sendData tReq addrIn tData.bytes pktInfo out else (tReq, out)
  return (tReq.mValid, tReq, out)

def readHeaderItem (tHeader : List UInt8) (tPos : ℕ) : UInt64 :=
  UInt64.ofNat (LittleEndian.decode ((tHeader.drop tPos).take 8))

def readHeader (tHeader : List UInt8) : PacketInfo :=
  ⟨tHeader.headD 0, readHeaderItem tHeader 1, readHeaderItem tHeader 9, readHeaderItem tHeader 17⟩

structure HeaderReceived where
  req : Request
  info : PacketInfo
  source : SockAddr
  rest : List Arrival

/-- The `while` loop of `receive_header`: `recvfrom` returns at most the 25 bytes
asked for, `-1` on a failure, and the loop asks only for the value 25. The loop
goes on waiting when there is no arrival left. -/
def awaitHeader (tReq : Request) : List Arrival → Option HeaderReceived
  | [] => none
  | .failure :: rest => awaitHeader tReq rest
  | .datagram source payload :: rest =>
    if min headerSize payload.length = headerSize then
      some ⟨tReq, readHeader (payload.take headerSize), source, rest⟩
    else awaitHeader tReq rest

def receiveHeader (tReq : Request) : List Arrival → Option HeaderReceived
  | .failure :: rest => some ⟨tReq.fail, ⟨0, 0, 0, 0⟩, ⟨0, 0⟩, rest⟩
  | arrivals => awaitHeader tReq arrivals

structure RecvCall where
  offset : ℕ
  size : ℕ
  deriving DecidableEq

structure Receiver where
  data : List UInt8
  pointer : ℕ
  valid : Bool
  source : SockAddr
  arrivals : List Arrival
  calls : List RecvCall
  blocked : Bool

def overwrite (data : List UInt8) (offset : ℕ) (bytes : List UInt8) : List UInt8 :=
  data.take offset ++ bytes ++ data.drop (offset + bytes.length)

/-- One `recvfrom` into the vector. A call that finds no arrival does not return. -/
def Receiver.recvfrom (r : Receiver) (size : ℕ) : Receiver :=
  if r.blocked then r
  else
    let calls := r.calls ++ [⟨r.pointer, size⟩]
    match r.arrivals with
    | [] => { r with calls, blocked := true }
    | .failure :: arrivals => { r with calls, arrivals, valid := false }
    | .datagram source payload :: arrivals =>
      { r with calls, arrivals, source,
               data := overwrite r.data r.pointer (payload.take size) }

def Receiver.advance (r : Receiver) (size : ℕ) : Receiver :=
  { r with pointer := r.pointer + size }

def recvPackets (packetSize : ℕ) : ℕ → Receiver → Receiver
  | 0, r => r
  | n + 1, r => recvPackets packetSize n ((r.recvfrom packetSize).advance packetSize)

def allocSize (tPktInfo : PacketInfo) : UInt64 :=
  tPktInfo.nbPackets * tPktInfo.packetSize + tPktInfo.remPacketSize

def allocLimit : UInt64 := 1000000

def Refused (tPktInfo : PacketInfo) : Prop := allocLimit ≤ allocSize tPktInfo

instance (tPktInfo : PacketInfo) : Decidable (Refused tPktInfo) :=
  inferInstanceAs (Decidable (allocLimit ≤ allocSize tPktInfo))

def receiveData (valid : Bool) (source : SockAddr) (tPktInfo : PacketInfo)
    (arrivals : List Arrival) : Receiver :=
  if Refused tPktInfo then ⟨[], 0, valid, source, arrivals, [], false⟩
  else
    let start : Receiver :=
      ⟨List.replicate (allocSize tPktInfo).toNat 0, 0, valid, source, arrivals, [], false⟩
    let r := recvPackets tPktInfo.packetSize.toNat tPktInfo.nbPackets.toNat start
    if tPktInfo.remPacketSize = 0 then r else r.recvfrom tPktInfo.remPacketSize.toNat

def receive (net : Inet) (tReq : Request) (arrivals : List Arrival) :
    Option (Bool × Request × List Arrival) := do
  let h ← receiveHeader tReq arrivals
  let dataType := DataType.ofChar h.info.dataType
  if dataType = .empty then
    return (h.req.mValid, h.req.setData ⟨.empty, []⟩, h.rest)
  if dataType = .done then
    return (h.req.mValid, h.req.setData ⟨.done, []⟩, h.rest)
  let r := receiveData h.req.mValid h.source h.info h.rest
  if r.blocked then none
  let tReq := { h.req with
    mValid := r.valid
    mAddress := Connection.addressTostring net r.source ++ str ":" ++
      Connection.portTostring r.source }
  let tReq := if tReq.mValid then tReq.setData ⟨dataType, r.data⟩ else tReq
  return (tReq.mValid, tReq, r.arrivals)

theorem makeHeader_eq (info : PacketInfo) :
    makeHeader info = info.dataType :: (LittleEndian.encode 8 info.nbPackets.toNat ++
      (LittleEndian.encode 8 info.packetSize.toNat ++
        LittleEndian.encode 8 info.remPacketSize.toNat)) := by
  simp [makeHeader, pushToHeader]

theorem length_makeHeader (info : PacketInfo) : (makeHeader info).length = headerSize := by
  simp [makeHeader_eq, headerSize]

theorem readHeaderItem_append (pre post : List UInt8) (value : UInt64) :
    readHeaderItem (pre ++ (LittleEndian.encode 8 value.toNat ++ post)) pre.length = value := by
  have htake : (LittleEndian.encode 8 value.toNat ++ post).take 8 =
      LittleEndian.encode 8 value.toNat := List.take_left' (by simp)
  have hlt : value.toNat < 256 ^ 8 := value.toNat_lt
  rw [readHeaderItem, List.drop_left, htake, LittleEndian.decode_encode hlt, UInt64.ofNat_toNat]

theorem readHeader_makeHeader (info : PacketInfo) : readHeader (makeHeader info) = info := by
  obtain ⟨dataType, nb, size, rem⟩ := info
  have hnb := readHeaderItem_append [dataType]
    (LittleEndian.encode 8 size.toNat ++ LittleEndian.encode 8 rem.toNat) nb
  have hsize := readHeaderItem_append (dataType :: LittleEndian.encode 8 nb.toNat)
    (LittleEndian.encode 8 rem.toNat) size
  have hrem := readHeaderItem_append
    (dataType :: (LittleEndian.encode 8 nb.toNat ++ LittleEndian.encode 8 size.toNat)) [] rem
  simp only [List.length_cons, List.length_nil, List.length_append, LittleEndian.length_encode,
    List.cons_append, List.nil_append, List.append_nil, List.append_assoc] at hnb hsize hrem
  simp only [readHeader, makeHeader_eq, List.headD_cons, hnb, hsize, hrem]

theorem toDouble_of_lt {n : ℕ} (h : n < 2 ^ 53) : toDouble n = n := if_pos h

theorem floorDiv_of_lt {a b : ℕ} (hb : 0 < b) (ha : a < 2 ^ 53) : floorDiv a b = .ok (a / b) := by
  have hlt : a / b < 2 ^ 53 := (Nat.div_le_self a b).trans_lt ha
  rw [floorDiv, if_neg (by omega), toDouble_of_lt hlt]

def packetCount (n : ℕ) : ℕ :=
  minNbPackets + if minNbPackets * maxPacketSize < n then
    (n - minNbPackets * maxPacketSize) / maxPacketSize + 1 else 0

theorem packetCount_of_le {n : ℕ} (h : n ≤ minNbPackets * maxPacketSize) :
    packetCount n = minNbPackets := by
  rw [packetCount, if_neg (not_lt.mpr h), Nat.add_zero]

theorem packetCount_of_lt {n : ℕ} (h : minNbPackets * maxPacketSize < n) :
    packetCount n = n / maxPacketSize + 1 := by
  rw [packetCount, if_pos h]
  unfold minNbPackets maxPacketSize at h ⊢
  omega

theorem packetCount_pos (n : ℕ) : 0 < packetCount n := by
  rw [packetCount, minNbPackets]
  omega

theorem div_packetCount_le (n : ℕ) : n / packetCount n ≤ maxPacketSize := by
  rcases le_or_gt n (minNbPackets * maxPacketSize) with hsmall | hlarge
  · rw [packetCount_of_le hsmall]
    exact Nat.div_le_of_le_mul hsmall
  · apply Nat.div_le_of_le_mul
    rw [packetCount_of_lt hlarge]
    unfold maxPacketSize
    omega

theorem div_packetCount_ge {n : ℕ} (h : singlePackageThreshold ≤ n) :
    100 ≤ n / packetCount n ∧ (minNbPackets * maxPacketSize < n → 8181 ≤ n / packetCount n) := by
  have hlarge : minNbPackets * maxPacketSize < n → 8181 ≤ n / packetCount n := by
    intro hlarge
    rw [packetCount_of_lt hlarge, Nat.le_div_iff_mul_le (Nat.succ_pos _)]
    unfold minNbPackets maxPacketSize at *
    omega
  refine ⟨?_, hlarge⟩
  rcases le_or_gt n (minNbPackets * maxPacketSize) with hle | hlt
  · rw [packetCount_of_le hle, Nat.le_div_iff_mul_le (by decide)]
    unfold minNbPackets singlePackageThreshold at *
    omega
  · exact le_trans (by decide) (hlarge hlt)

theorem mod_packetCount_lt {n : ℕ} (hlo : singlePackageThreshold ≤ n) (hhi : n < 1000000) :
    n % packetCount n < n / packetCount n := by
  have hsize := div_packetCount_ge hlo
  have hmod := Nat.mod_lt n (packetCount_pos n)
  rcases le_or_gt n (minNbPackets * maxPacketSize) with hle | hlt
  · rw [packetCount_of_le hle, minNbPackets] at hsize hmod ⊢
    omega
  · have hquot := hsize.2 hlt
    have hcount : packetCount n ≤ 112 := by
      rw [packetCount_of_lt hlt, maxPacketSize]
      omega
    omega

theorem makePacketInfo_of_small {tData : Data}
    (h : tData.bytes.length < singlePackageThreshold) :
    makePacketInfo tData =
      .ok ⟨tData.type.toChar, 1, UInt64.ofNat tData.bytes.length, 0⟩ := by
  simp [makePacketInfo, h]

theorem toNat_ofNat_of_lt {n : ℕ} (h : n < 2 ^ 53) : (UInt64.ofNat n).toNat = n := by
  rw [UInt64.toNat_ofNat']
  omega

theorem makePacketInfo_of_le {tData : Data} (hlo : singlePackageThreshold ≤ tData.bytes.length)
    (hhi : tData.bytes.length < 2 ^ 53) :
    makePacketInfo tData = .ok ⟨tData.type.toChar,
      UInt64.ofNat (tData.bytes.length / (tData.bytes.length / packetCount tData.bytes.length)),
      UInt64.ofNat (tData.bytes.length / packetCount tData.bytes.length),
      UInt64.ofNat (tData.bytes.length % packetCount tData.bytes.length)⟩ := by
  have hsize := floorDiv_of_lt (packetCount_pos tData.bytes.length) hhi
  have hpos : 0 < tData.bytes.length / packetCount tData.bytes.length :=
    lt_of_lt_of_le (by decide) (div_packetCount_ge hlo).1
  have hnb := floorDiv_of_lt hpos hhi
  rw [makePacketInfo, if_neg (not_lt.mpr hlo)]
  change (do
    let packetSize ← floorDiv tData.bytes.length (packetCount tData.bytes.length)
    let nbPackets ← floorDiv tData.bytes.length packetSize
    return PacketInfo.mk tData.type.toChar (UInt64.ofNat nbPackets) (UInt64.ofNat packetSize)
      (UInt64.ofNat (tData.bytes.length % packetCount tData.bytes.length))) = _
  rw [hsize, ok_bind, hnb, ok_bind, pure_eq_ok]

theorem recount_iff {n k : ℕ} (hk : 0 < n / k) :
    n / (n / k) * (n / k) + n % k = n ↔ n % k < n / k := by
  have hagain := Nat.div_add_mod' n (n / k)
  have hmod : n % (n / k) = n % k % (n / k) := by
    have hsame := Nat.mul_add_mod_self_right k (n / k) (n % k)
    rwa [Nat.div_add_mod] at hsame
  constructor
  · intro h
    have hsame : n % k = n % (n / k) := by omega
    rw [hsame]
    exact Nat.mod_lt n hk
  · intro h
    rw [Nat.mod_eq_of_lt h] at hmod
    omega

/-- Below the receiver's limit the packets and the remainder cover the data
exactly, and every value fits its header word with room to spare. -/
theorem makePacketInfo_spec {tData : Data} (h : tData.bytes.length < 1000000) :
    ∃ nb size rem : ℕ, makePacketInfo tData = .ok ⟨tData.type.toChar, UInt64.ofNat nb,
        UInt64.ofNat size, UInt64.ofNat rem⟩ ∧
      nb * size + rem = tData.bytes.length ∧ nb < 2 ^ 20 ∧ size < 2 ^ 20 ∧ rem < 2 ^ 20 := by
  by_cases hsmall : tData.bytes.length < singlePackageThreshold
  · exact ⟨1, _, 0, makePacketInfo_of_small hsmall, by omega, by omega, by omega, by omega⟩
  · have hlo := not_lt.mp hsmall
    have hsize := div_packetCount_ge hlo
    have hsome : 0 < tData.bytes.length / packetCount tData.bytes.length :=
      lt_of_lt_of_le (by decide) hsize.1
    have hnb := Nat.div_le_self tData.bytes.length
      (tData.bytes.length / packetCount tData.bytes.length)
    have hle := Nat.div_le_self tData.bytes.length (packetCount tData.bytes.length)
    have hmod := Nat.mod_le tData.bytes.length (packetCount tData.bytes.length)
    refine ⟨_, _, _, makePacketInfo_of_le hlo (by omega), ?_, by omega, by omega, by omega⟩
    exact (recount_iff hsome).mpr (mod_packetCount_lt hlo h)

end Skype.StreamIO
