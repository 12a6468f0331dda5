import Skype.HeaderWait
import Skype.StreamBounds

/-!
# A media stream arrives as it was sent

`respondAll` sends one package after the other through `respond`, the channel
hands the datagrams over in order, and `receiveAll` calls `receive` as often as
there are packages. Sender and receiver stay aligned: a package leaves nothing
behind, except that the empty datagram behind a `Done` header is only skipped by
the next `receive_header`.
-/

namespace Skype.StreamIO

open Library

/-- The packages of the program: media below the receiver's limit, and `Done`. -/
def Streamable (tData : Data) : Prop :=
  (tData.type = .audio ∨ tData.type = .video) ∧ tData.bytes.length < 1000000 ∨
    tData = ⟨.done, []⟩

def respondAll (net : Inet) (tReq : Request) :
    List Data → Outbox → Exec (List Bool × Outbox)
  | [], out => .ok ([], out)
  | tData :: packages, out => do
    let (sent, _, out) ← respond net (tReq.setData tData) out
    let (results, out) ← respondAll net tReq packages out
    return (sent :: results, out)

def receiveAll (net : Inet) (tReq : Request) :
    ℕ → List Arrival → Option (List (Bool × Option Data) × List Arrival)
  | 0, arrivals => some ([], arrivals)
  | n + 1, arrivals => do
    let (received, req, arrivals) ← receive net tReq arrivals
    let (results, arrivals) ← receiveAll net tReq n arrivals
    return ((received, req.mData) :: results, arrivals)

def deliver (source : SockAddr) (sent : List (SockAddr × List UInt8)) : List Arrival :=
  sent.map fun packet => .datagram source packet.2

def chunks (packetSize : ℕ) : ℕ → List UInt8 → List (List UInt8)
  | 0, _ => []
  | n + 1, data => data.take packetSize :: chunks packetSize n (data.drop packetSize)

def packets (info : PacketInfo) (data : List UInt8) : List (List UInt8) :=
  chunks info.packetSize.toNat info.nbPackets.toNat data ++
    if info.remPacketSize = 0 then []
    else [(data.drop (info.nbPackets.toNat * info.packetSize.toNat)).take
      info.remPacketSize.toNat]

def wire (tData : Data) : List (List UInt8) :=
  match makePacketInfo tData with
  | .ok info => makeHeader info :: packets info tData.bytes
  | .error _ => []

def peerAddr (net : Inet) (tReq : Request) : SockAddr :=
  Connection.toSockaddrIn net (Search.cutFirst (str ":") tReq.mAddress).2
    (Search.cutFirst (str ":") tReq.mAddress).1

def addressed (net : Inet) (tReq : Request) (payloads : List (List UInt8)) :
    List (SockAddr × List UInt8) :=
  payloads.map fun payload => (peerAddr net tReq, payload)

theorem addressed_append (net : Inet) (tReq : Request) (a b : List (List UInt8)) :
    addressed net tReq (a ++ b) = addressed net tReq a ++ addressed net tReq b :=
  List.map_append

theorem deliver_addressed (net : Inet) (tReq : Request) (source : SockAddr)
    (payloads : List (List UInt8)) :
    deliver source (addressed net tReq payloads) = payloads.map (.datagram source) := by
  simp [deliver, addressed]

theorem makePacketInfo_total {tData : Data} (h : tData.bytes.length < 1000000) :
    ∃ info, makePacketInfo tData = .ok info ∧ info.dataType = tData.type.toChar ∧
      info.total = tData.bytes.length := by
  obtain ⟨nb, size, rem, hinfo, htotal, hnb, hsize, hrem⟩ := makePacketInfo_spec h
  have hword : ∀ n < 2 ^ 20, (UInt64.ofNat n).toNat = n := by
    intro n hn
    rw [UInt64.toNat_ofNat']
    omega
  refine ⟨_, hinfo, rfl, ?_⟩
  rw [PacketInfo.total, hword nb hnb, hword size hsize, hword rem hrem, htotal]

theorem sendPackets_eq (addr : SockAddr) (size n : ℕ) (data : List UInt8) (tReq : Request)
    (sent : List (SockAddr × List UInt8)) :
    sendPackets addr size n data tReq ⟨sent, []⟩ =
      (data.drop (n * size), tReq,
        ⟨sent ++ (chunks size n data).map fun payload => (addr, payload), []⟩) := by
  induction n generalizing data sent with
  | zero => simp [sendPackets, chunks]
  | succ n ih =>
    have hdrop : (data.drop size).drop (n * size) = data.drop ((n + 1) * size) := by
      rw [List.drop_drop, Nat.succ_mul, Nat.add_comm]
    simp only [sendPackets, Outbox.sendto_nil, ih, hdrop, chunks, List.map_cons, if_true,
      List.append_assoc, List.singleton_append]

theorem sendData_eq (tReq : Request) (addr : SockAddr) (data : List UInt8) (info : PacketInfo)
    (sent : List (SockAddr × List UInt8)) :
    sendData tReq addr data info ⟨sent, []⟩ =
      (tReq, ⟨sent ++ (packets info data).map fun payload => (addr, payload), []⟩) := by
  rw [sendData, sendPackets_eq]
  dsimp only
  split
  · next hrem => simp [packets, hrem]
  · next hrem =>
    rw [Outbox.sendto_nil]
    simp [packets, hrem]

theorem respond_eq (net : Inet) {tReq : Request} {tData : Data} {info : PacketInfo}
    (hshort : tReq.mAddress.length < 2 ^ 31) (hvalid : tReq.mValid = true)
    (htype : tData.type ≠ .text) (hinfo : makePacketInfo tData = .ok info)
    (sent : List (SockAddr × List UInt8)) :
    respond net (tReq.setData tData) ⟨sent, []⟩ =
      .ok (true, tReq.setData tData, ⟨sent ++ addressed net tReq (wire tData), []⟩) := by
  have hsplit := StringUtils.splitFirst_eq (s := tReq.mAddress) (d := str ":") hshort
  have hwire : wire tData = makeHeader info :: packets info tData.bytes := by
    simp only [wire, hinfo]
  have haddr : (tReq.setData tData).mAddress = tReq.mAddress := rfl
  have hset : (tReq.setData tData).mValid = true := hvalid
  have hdata : (tReq.setData tData).data = .ok tData := rfl
  rw [respond, hdata, ok_bind, if_neg htype, haddr, hsplit, ok_bind, hinfo]
  simp only [ok_bind, length_makeHeader, ne_eq, not_true_eq_false, if_false, hset, if_true,
    sendHeader,
    Outbox.sendto_nil, sendData_eq, pure_eq_ok, hwire, addressed, List.map_cons, peerAddr,
    List.append_assoc, List.singleton_append]

theorem Streamable.type_ne_text {tData : Data} (h : Streamable tData) : tData.type ≠ .text := by
  rcases h with ⟨haudio | hvideo, -⟩ | rfl
  · simp [haudio]
  · simp [hvideo]
  · simp

theorem Streamable.length_lt {tData : Data} (h : Streamable tData) :
    tData.bytes.length < 1000000 := by
  rcases h with ⟨-, hlen⟩ | rfl
  · exact hlen
  · simp

theorem respondAll_eq (net : Inet) {tReq : Request} (hshort : tReq.mAddress.length < 2 ^ 31)
    (hvalid : tReq.mValid = true) {packages : List Data} (h : ∀ d ∈ packages, Streamable d)
    (sent : List (SockAddr × List UInt8)) :
    respondAll net tReq packages ⟨sent, []⟩ =
      .ok (packages.map fun _ => true,
        ⟨sent ++ addressed net tReq (packages.flatMap wire), []⟩) := by
  induction packages generalizing sent with
  | nil => simp [respondAll, addressed]
  | cons tData packages ih =>
    have hhead := h tData List.mem_cons_self
    obtain ⟨info, hinfo, -⟩ := makePacketInfo_total hhead.length_lt
    have hrest := ih (fun d hd => h d (List.mem_cons_of_mem _ hd))
      (sent ++ addressed net tReq (wire tData))
    rw [respondAll, respond_eq net hshort hvalid hhead.type_ne_text hinfo]
    simp only [ok_bind, hrest, pure_eq_ok, List.map_cons, List.flatMap_cons, addressed_append,
      List.append_assoc]

structure Reading (r : Receiver) (got : List UInt8) (room : ℕ) (rest : List Arrival) : Prop where
  data : r.data = got ++ List.replicate room 0
  pointer : r.pointer = got.length
  valid : r.valid = true
  arrivals : r.arrivals = rest
  running : r.blocked = false

theorem overwrite_zeros (got payload : List UInt8) (room : ℕ) :
    overwrite (got ++ List.replicate room 0) got.length payload =
      got ++ payload ++ List.replicate (room - payload.length) 0 := by
  simp [overwrite, List.drop_append]

theorem reading_recvfrom {r : Receiver} {got payload : List UInt8} {room : ℕ} {source : SockAddr}
    {rest : List Arrival} (h : Reading r got room (.datagram source payload :: rest)) :
    Reading ((r.recvfrom payload.length).advance payload.length) (got ++ payload)
      (room - payload.length) rest := by
  have hstep : r.recvfrom payload.length =
      { r with
        calls := r.calls ++ [⟨r.pointer, payload.length⟩]
        arrivals := rest
        source := source
        data := overwrite r.data r.pointer payload } := by
    simp [Receiver.recvfrom, h.running, h.arrivals]
  constructor
  · simp only [Receiver.advance, hstep, h.data, h.pointer, overwrite_zeros]
  · simp [Receiver.advance, hstep, h.pointer]
  · simp only [Receiver.advance, hstep, h.valid]
  · simp only [Receiver.advance, hstep]
  · simp only [Receiver.advance, hstep, h.running]

def recvAll : List ℕ → Receiver → Receiver
  | [], r => r
  | size :: sizes, r => recvAll sizes ((r.recvfrom size).advance size)

def announced (info : PacketInfo) : List ℕ :=
  List.replicate info.nbPackets.toNat info.packetSize.toNat ++
    if info.remPacketSize = 0 then [] else [info.remPacketSize.toNat]

theorem sum_announced (info : PacketInfo) : (announced info).sum = info.total := by
  rw [announced, List.sum_append, List.sum_replicate, smul_eq_mul, PacketInfo.total]
  split
  · next hrem => simp [hrem]
  · rw [List.sum_singleton]

theorem recvAll_append (first second : List ℕ) (r : Receiver) :
    recvAll (first ++ second) r = recvAll second (recvAll first r) := by
  induction first generalizing r with
  | nil => rfl
  | cons size first ih => exact ih _

theorem recvAll_replicate (size n : ℕ) (r : Receiver) :
    recvAll (List.replicate n size) r = recvPackets size n r := by
  induction n generalizing r with
  | zero => rfl
  | succ n ih => exact ih _

theorem advance_receiveData {info : PacketInfo} (h : ¬Refused info) (valid : Bool)
    (source : SockAddr) (arrivals : List Arrival) :
    (receiveData valid source info arrivals).advance info.remPacketSize.toNat =
      recvAll (announced info)
        ⟨List.replicate (allocSize info).toNat 0, 0, valid, source, arrivals, [], false⟩ := by
  rw [receiveData, if_neg h, announced, recvAll_append, recvAll_replicate]
  dsimp only
  split
  · next hrem =>
    rw [hrem]
    rfl
  · rfl

theorem reading_recvAll {packets : List (SockAddr × List UInt8)} {rest : List Arrival} {room : ℕ}
    {r : Receiver} {got : List UInt8} (h : Reading r got room (datagrams packets ++ rest)) :
    Reading (recvAll (packets.map fun packet => packet.2.length) r)
      (got ++ (packets.map Prod.snd).flatten)
      (room - (packets.map fun packet => packet.2.length).sum) rest := by
  induction packets generalizing r got room with
  | nil => simpa [recvAll, datagrams] using h
  | cons packet packets ih =>
    have hstep := ih (reading_recvfrom h)
    rw [List.append_assoc, Nat.sub_sub] at hstep
    exact hstep

theorem receiveData_exact {info : PacketInfo} {packets : List (SockAddr × List UInt8)}
    (hlimit : info.total < 1000000)
    (hsizes : (packets.map fun packet => packet.2.length) = announced info) (source : SockAddr)
    (rest : List Arrival) :
    ∃ r, receiveData true source info (datagrams packets ++ rest) = r ∧
      r.data = (packets.map Prod.snd).flatten ∧ r.valid = true ∧ r.arrivals = rest ∧
      r.blocked = false := by
  have hrefused : ¬ Refused info := by
    rw [refused_iff]
    omega
  have halloc : (allocSize info).toNat = info.total := by
    rw [toNat_allocSize]
    omega
  have hrun := advance_receiveData hrefused true source (datagrams packets ++ rest)
  have hstart : Reading ⟨List.replicate info.total 0, 0, true, source, datagrams packets ++ rest,
      [], false⟩ [] info.total (datagrams packets ++ rest) := ⟨rfl, rfl, rfl, rfl, rfl⟩
  have hread := reading_recvAll hstart
  rw [hsizes] at hread
  rw [halloc] at hrun
  rw [sum_announced, Nat.sub_self, ← hrun] at hread
  have hdata := hread.data
  rw [List.nil_append, List.replicate_zero, List.append_nil] at hdata
  exact ⟨_, rfl, hdata, hread.valid, hread.arrivals, hread.running⟩

theorem map_length_chunks {size n : ℕ} {data : List UInt8} (h : n * size ≤ data.length) :
    (chunks size n data).map List.length = List.replicate n size := by
  induction n generalizing data with
  | zero => rfl
  | succ n ih =>
    rw [Nat.succ_mul] at h
    have htail : n * size ≤ (data.drop size).length := by
      rw [List.length_drop]
      omega
    rw [chunks, List.map_cons, ih htail, List.length_take, min_eq_left (by omega),
      List.replicate_succ]

theorem flatten_chunks (size n : ℕ) (data : List UInt8) :
    (chunks size n data).flatten = data.take (n * size) := by
  induction n generalizing data with
  | zero => simp [chunks]
  | succ n ih => rw [chunks, List.flatten_cons, ih, Nat.succ_mul, Nat.add_comm, List.take_add]

theorem map_length_packets {info : PacketInfo} {data : List UInt8}
    (h : info.total = data.length) : (packets info data).map List.length = announced info := by
  rw [PacketInfo.total] at h
  rw [packets, announced, List.map_append, map_length_chunks (by omega)]
  split
  · rfl
  · rw [List.map_singleton, List.length_take, List.length_drop, min_eq_left (by omega)]

theorem flatten_packets {info : PacketInfo} {data : List UInt8} (h : info.total = data.length) :
    (packets info data).flatten = data := by
  rw [PacketInfo.total] at h
  rw [packets, List.flatten_append, flatten_chunks]
  split
  · next hrem =>
    have hzero : info.remPacketSize.toNat = 0 := by simp [hrem]
    rw [List.flatten_nil, List.append_nil, List.take_of_length_le (by omega)]
  · rw [List.flatten_singleton, ← List.take_add, List.take_of_length_le (by omega)]

theorem receiveData_packets {info : PacketInfo} {data : List UInt8}
    (hlen : info.total = data.length) (hlimit : data.length < 1000000) (source : SockAddr)
    (rest : List Arrival) :
    ∃ r, receiveData true source info ((packets info data).map (.datagram source) ++ rest) = r ∧
      r.data = data ∧ r.valid = true ∧ r.arrivals = rest ∧ r.blocked = false := by
  have hsizes : (((packets info data).map fun payload => (source, payload)).map
      fun packet => packet.2.length) = announced info := by
    rw [List.map_map]
    exact map_length_packets hlen
  obtain ⟨r, hr, hdata, hrest⟩ := receiveData_exact (hlen ▸ hlimit) hsizes source rest
  rw [datagrams, List.map_map] at hr
  refine ⟨r, hr, ?_, hrest⟩
  rw [hdata, List.map_map]
  exact (congrArg List.flatten (List.map_id _)).trans (flatten_packets hlen)

def Leftover (source : SockAddr) (left : List Arrival) : Prop :=
  left = [] ∨ left = [.datagram source []]

theorem receiveHeader_makeHeader (tReq : Request) {source : SockAddr} {left : List Arrival}
    (hleft : Leftover source left) (info : PacketInfo) (rest : List Arrival) :
    receiveHeader tReq (left ++ .datagram source (makeHeader info) :: rest) =
      some ⟨tReq, info, source, rest⟩ := by
  have hread : awaitHeader tReq (.datagram source (makeHeader info) :: rest) =
      some ⟨tReq, info, source, rest⟩ := by
    have htake : (makeHeader info).take headerSize = makeHeader info :=
      List.take_of_length_le (length_makeHeader info).le
    rw [awaitHeader, length_makeHeader, min_self, if_pos rfl, htake, readHeader_makeHeader]
  rcases hleft with rfl | rfl
  · exact hread
  · exact hread

theorem wire_done : wire ⟨.done, []⟩ = [makeHeader ⟨100, 1, 0, 0⟩, []] := by
  decide

theorem receive_done (net : Inet) {tReq : Request} (hvalid : tReq.mValid = true)
    {source : SockAddr} {left : List Arrival} (hleft : Leftover source left)
    (rest : List Arrival) :
    receive net tReq (left ++ ((wire ⟨.done, []⟩).map (.datagram source) ++ rest)) =
      some (true, tReq.setData ⟨.done, []⟩, .datagram source [] :: rest) := by
  have htype : DataType.ofChar 100 = .done := by decide
  rw [wire_done, List.map_cons, List.map_cons, List.map_nil, List.cons_append, receive,
    receiveHeader_makeHeader tReq hleft]
  simp [htype, hvalid]

theorem receive_media (net : Inet) {tReq : Request} (hvalid : tReq.mValid = true)
    {source : SockAddr} {left : List Arrival} (hleft : Leftover source left) {tData : Data}
    (htype : tData.type = .audio ∨ tData.type = .video) (hlen : tData.bytes.length < 1000000)
    (rest : List Arrival) :
    ∃ req, receive net tReq (left ++ ((wire tData).map (.datagram source) ++ rest)) =
      some (true, req, rest) ∧ req.mData = some tData := by
  obtain ⟨info, hinfo, hchar, htotal⟩ := makePacketInfo_total hlen
  obtain ⟨r, hr, hdata, hok, harrivals, hrunning⟩ :=
    receiveData_packets htotal hlen source rest
  have hofChar : DataType.ofChar info.dataType = tData.type := by
    rw [hchar, DataType.ofChar_toChar]
  have hempty : tData.type ≠ .empty := by
    rcases htype with h | h <;> simp [h]
  have hdone : tData.type ≠ .done := by
    rcases htype with h | h <;> simp [h]
  have hwire : wire tData = makeHeader info :: packets info tData.bytes := by
    simp only [wire, hinfo]
  rw [hwire, List.map_cons, List.cons_append, receive, receiveHeader_makeHeader tReq hleft]
  simp only [Option.bind_eq_bind, Option.bind_some, hofChar, if_neg hempty, if_neg hdone, hvalid,
    hr, hrunning, hok, harrivals, hdata, if_true]
  exact ⟨_, rfl, rfl⟩

/-- One `receive` returns one package, whatever the package before left behind. -/
theorem receive_wire (net : Inet) {tReq : Request} (hvalid : tReq.mValid = true)
    {source : SockAddr} {left : List Arrival} (hleft : Leftover source left) {tData : Data}
    (h : Streamable tData) (rest : List Arrival) :
    ∃ req left', Leftover source left' ∧ req.mData = some tData ∧
      receive net tReq (left ++ ((wire tData).map (.datagram source) ++ rest)) =
        some (true, req, left' ++ rest) := by
  rcases h with ⟨htype, hlen⟩ | rfl
  · obtain ⟨req, hreceive, hdata⟩ := receive_media net hvalid hleft htype hlen rest
    exact ⟨req, [], Or.inl rfl, hdata, hreceive⟩
  · exact ⟨_, _, Or.inr rfl, rfl, receive_done net hvalid hleft rest⟩

theorem receiveAll_wire (net : Inet) {tReq : Request} (hvalid : tReq.mValid = true)
    {source : SockAddr} {left : List Arrival} (hleft : Leftover source left)
    {packages : List Data} (h : ∀ d ∈ packages, Streamable d) (rest : List Arrival) :
    ∃ left', Leftover source left' ∧
      receiveAll net tReq packages.length
          (left ++ ((packages.flatMap wire).map (.datagram source) ++ rest)) =
        some (packages.map fun d => (true, some d), left' ++ rest) := by
  induction packages generalizing left with
  | nil => exact ⟨left, hleft, rfl⟩
  | cons tData packages ih =>
    obtain ⟨req, next, hnext, hdata, hreceive⟩ := receive_wire net hvalid hleft
      (h tData List.mem_cons_self) ((packages.flatMap wire).map (.datagram source) ++ rest)
    obtain ⟨left', hleft', hrest⟩ := ih hnext fun d hd => h d (List.mem_cons_of_mem _ hd)
    refine ⟨left', hleft', ?_⟩
    rw [List.flatMap_cons, List.map_append, List.append_assoc, List.length_cons, receiveAll,
      hreceive]
    simp only [Option.bind_eq_bind, Option.bind_some, hrest, hdata, List.map_cons]
    rfl

/-- The packages `before` are received as they were sent, and what is left on the
socket then are the datagrams of the packages `after`, behind at most the empty
datagram of a last `Done`. -/
theorem receiveAll_respondAll (net : Inet) (source : SockAddr) (tReq req : Request)
    (hshort : tReq.mAddress.length < 2 ^ 31) (hsend : tReq.mValid = true)
    (hreceive : req.mValid = true) (before after : List Data)
    (h : ∀ d ∈ before ++ after, Streamable d) :
    ∃ out rest left,
      respondAll net tReq (before ++ after) ⟨[], []⟩ =
        .ok ((before ++ after).map fun _ => true, out) ∧
      respondAll net tReq after ⟨[], []⟩ = .ok (after.map fun _ => true, rest) ∧
      Leftover source left ∧
      receiveAll net req before.length (deliver source out.sent) =
        some (before.map fun d => (true, some d), left ++ deliver source rest.sent) := by
  have hbefore : ∀ d ∈ before, Streamable d := fun d hd => h d (List.mem_append_left _ hd)
  have hafter : ∀ d ∈ after, Streamable d := fun d hd => h d (List.mem_append_right _ hd)
  obtain ⟨left, hleft, hrun⟩ := receiveAll_wire net hreceive (Or.inl rfl : Leftover source [])
    hbefore ((after.flatMap wire).map (.datagram source))
  refine ⟨_, _, left, respondAll_eq net hshort hsend h [],
    respondAll_eq net hshort hsend hafter [], hleft, ?_⟩
  simp only [List.nil_append, deliver_addressed, List.flatMap_append, List.map_append] at hrun ⊢
  exact hrun

theorem receiveAll_respondAll_three :
    let net : Inet := ⟨fun _ => 0x04030201, fun _ => str "1.2.3.4"⟩
    let tReq := Request.new (str "1.2.3.4:7000") true
    let before : List Data := [⟨.audio, [1, 2, 3]⟩, ⟨.done, []⟩]
    let after : List Data := [⟨.video, [4]⟩]
    ∃ out rest left,
      respondAll net tReq (before ++ after) ⟨[], []⟩ = .ok ([true, true, true], out) ∧
      respondAll net tReq after ⟨[], []⟩ = .ok ([true], rest) ∧
      Leftover ⟨0x04030201, htons 7000⟩ left ∧
      receiveAll net tReq 2 (deliver ⟨0x04030201, htons 7000⟩ out.sent) =
        some (before.map fun d => (true, some d),
          left ++ deliver ⟨0x04030201, htons 7000⟩ rest.sent) := by
  intro net tReq before after
  refine receiveAll_respondAll net _ tReq tReq (by decide) rfl rfl before after ?_
  intro d hd
  simp only [before, after, List.cons_append, List.nil_append, List.mem_cons,
    List.not_mem_nil, or_false] at hd
  rcases hd with rfl | rfl | rfl
  · exact Or.inl ⟨Or.inl rfl, by decide⟩
  · exact Or.inr rfl
  · exact Or.inl ⟨Or.inr rfl, by decide⟩

end Skype.StreamIO
