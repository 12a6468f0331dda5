import Skype.StreamIO

/-!
# Where `receive_data` writes

The vector has `alloc_size` bytes, computed modulo `2 ^ 64`, while the
destination of `recvfrom` advances by `packet_size` without a bound. The writes
stay inside the vector exactly when the announced size does not wrap around, or
wraps around to a value that the limit refuses.
-/

namespace Skype.StreamIO

def PacketInfo.total (info : PacketInfo) : ℕ :=
  info.nbPackets.toNat * info.packetSize.toNat + info.remPacketSize.toNat

/-- Whatever arrives, every `recvfrom` is given a destination and a size inside
the vector. -/
def WritesInside (info : PacketInfo) : Prop :=
  ∀ valid source arrivals, ∀ call ∈ (receiveData valid source info arrivals).calls,
    call.offset + call.size ≤ (allocSize info).toNat

def WindowsInside (info : PacketInfo) : Prop :=
  ¬ Refused info →
    (∀ i < info.nbPackets.toNat, (i + 1) * info.packetSize.toNat ≤ (allocSize info).toNat) ∧
    info.total ≤ (allocSize info).toNat

theorem toNat_allocSize (info : PacketInfo) : (allocSize info).toNat = info.total % 2 ^ 64 := by
  simp [allocSize, PacketInfo.total]

theorem refused_iff (info : PacketInfo) : Refused info ↔ 1000000 ≤ info.total % 2 ^ 64 := by
  rw [Refused, UInt64.le_iff_toNat_le, toNat_allocSize]
  rfl

theorem pointer_recvfrom (r : Receiver) (size : ℕ) : (r.recvfrom size).pointer = r.pointer := by
  unfold Receiver.recvfrom
  split
  · rfl
  · dsimp only
    split <;> rfl

theorem calls_recvfrom (r : Receiver) (size : ℕ) :
    (r.recvfrom size).calls = if r.blocked then r.calls else r.calls ++ [⟨r.pointer, size⟩] := by
  unfold Receiver.recvfrom
  split
  · rfl
  · dsimp only
    split <;> rfl

theorem pointer_recvPackets (size n : ℕ) (r : Receiver) :
    (recvPackets size n r).pointer = r.pointer + n * size := by
  induction n generalizing r with
  | zero => simp [recvPackets]
  | succ n ih =>
    rw [recvPackets, ih]
    simp only [Receiver.advance, pointer_recvfrom, Nat.add_mul]
    omega

theorem mem_calls_recvPackets {size n : ℕ} {r : Receiver} {call : RecvCall}
    (h : call ∈ (recvPackets size n r).calls) :
    call ∈ r.calls ∨ ∃ i < n, call = ⟨r.pointer + i * size, size⟩ := by
  induction n generalizing r with
  | zero => exact Or.inl h
  | succ n ih =>
    rcases ih h with hold | ⟨i, hi, rfl⟩
    · simp only [Receiver.advance, calls_recvfrom] at hold
      split at hold
      · exact Or.inl hold
      · rcases List.mem_append.mp hold with hold | hnew
        · exact Or.inl hold
        · exact Or.inr ⟨0, by omega, by simpa using hnew⟩
    · refine Or.inr ⟨i + 1, by omega, ?_⟩
      simp only [Receiver.advance, pointer_recvfrom, RecvCall.mk.injEq, and_true, Nat.add_mul]
      omega

def failures (k : ℕ) : List Arrival := List.replicate k .failure

theorem recvPackets_failures (size n k : ℕ) {r : Receiver} (hb : r.blocked = false)
    (ha : r.arrivals = failures (n + k)) :
    (recvPackets size n r).blocked = false ∧ (recvPackets size n r).arrivals = failures k ∧
      (recvPackets size n r).calls =
        r.calls ++ (List.range n).map fun i => ⟨r.pointer + i * size, size⟩ := by
  induction n generalizing r with
  | zero => simp [recvPackets, hb, ha]
  | succ n ih =>
    have hcons : r.arrivals = .failure :: failures (n + k) := by
      rw [ha, failures, failures, ← List.replicate_succ]
      congr 1
      omega
    have hstep : (r.recvfrom size).advance size =
        { r with
          calls := r.calls ++ [⟨r.pointer, size⟩]
          arrivals := failures (n + k)
          valid := false
          pointer := r.pointer + size } := by
      simp [Receiver.recvfrom, Receiver.advance, hb, hcons]
    obtain ⟨hblocked, harrivals, hcalls⟩ :=
      ih (r := (r.recvfrom size).advance size) (by rw [hstep, hb]) (by rw [hstep])
    refine ⟨hblocked, harrivals, ?_⟩
    rw [recvPackets, hcalls, hstep, List.range_succ_eq_map]
    simp only [List.map_cons, List.map_map, Nat.zero_mul, Nat.add_zero, List.append_assoc,
      List.singleton_append, Function.comp_def, Nat.succ_mul, Nat.add_assoc, Nat.add_comm size]

theorem calls_receiveData_failures {info : PacketInfo} (h : ¬ Refused info) (source : SockAddr) :
    (receiveData true source info (failures (info.nbPackets.toNat + 1))).calls =
      (List.range info.nbPackets.toNat).map
        (fun i => ⟨i * info.packetSize.toNat, info.packetSize.toNat⟩) ++
      if info.remPacketSize = 0 then []
      else [⟨info.nbPackets.toNat * info.packetSize.toNat, info.remPacketSize.toNat⟩] := by
  let start : Receiver := ⟨List.replicate (allocSize info).toNat 0, 0, true, source,
    failures (info.nbPackets.toNat + 1), [], false⟩
  obtain ⟨hblocked, -, hcalls⟩ := recvPackets_failures info.packetSize.toNat
    info.nbPackets.toNat 1 (r := start) rfl rfl
  have hpointer := pointer_recvPackets info.packetSize.toNat info.nbPackets.toNat start
  rw [receiveData, if_neg h]
  dsimp only
  split
  · simpa [start] using hcalls
  · rw [calls_recvfrom, hblocked, hcalls, hpointer]
    simp [start]

theorem mem_calls_receiveData {valid : Bool} {source : SockAddr} {info : PacketInfo}
    {arrivals : List Arrival} {call : RecvCall}
    (h : call ∈ (receiveData valid source info arrivals).calls) :
    ¬ Refused info ∧ call.offset + call.size ≤ info.total := by
  by_cases hrefused : Refused info
  · rw [receiveData, if_pos hrefused] at h
    exact absurd h List.not_mem_nil
  · refine ⟨hrefused, ?_⟩
    have hpacket : ∀ {r : Receiver}, r.calls = [] → r.pointer = 0 →
        call ∈ (recvPackets info.packetSize.toNat info.nbPackets.toNat r).calls →
        call.offset + call.size ≤ info.total := by
      intro r hcalls hpointer hmem
      rcases mem_calls_recvPackets hmem with hold | ⟨i, hi, rfl⟩
      · rw [hcalls] at hold
        exact absurd hold List.not_mem_nil
      · have hmul := Nat.mul_le_mul_right info.packetSize.toNat (Nat.succ_le_of_lt hi)
        simp only [hpointer, PacketInfo.total, Nat.succ_mul] at hmul ⊢
        omega
    rw [receiveData, if_neg hrefused] at h
    dsimp only at h
    split at h
    · exact hpacket rfl rfl h
    · rw [calls_recvfrom] at h
      split at h
      · exact hpacket rfl rfl h
      · rcases List.mem_append.mp h with h | h
        · exact hpacket rfl rfl h
        · obtain rfl := List.mem_singleton.mp h
          rw [pointer_recvPackets]
          simp [PacketInfo.total]

theorem windowsInside_iff (info : PacketInfo) :
    WindowsInside info ↔ info.total < 2 ^ 64 ∨ 1000000 ≤ info.total % 2 ^ 64 := by
  rw [WindowsInside, refused_iff, toNat_allocSize]
  constructor
  · intro h
    by_cases hlim : 1000000 ≤ info.total % 2 ^ 64
    · exact Or.inr hlim
    · have htotal := (h hlim).2
      omega
  · rintro hfits hlim
    have htotal : info.total % 2 ^ 64 = info.total := Nat.mod_eq_of_lt (hfits.resolve_right hlim)
    refine ⟨fun i hi => ?_, htotal.ge⟩
    have hmul := Nat.mul_le_mul_right info.packetSize.toNat (Nat.succ_le_of_lt hi)
    rw [htotal, PacketInfo.total]
    exact hmul.trans (Nat.le_add_right _ _)

theorem total_le_of_writesInside {info : PacketInfo} (hrefused : ¬ Refused info)
    (h : WritesInside info) : info.total ≤ (allocSize info).toNat := by
  have hcalls := h true ⟨0, 0⟩ (failures (info.nbPackets.toNat + 1))
  rw [calls_receiveData_failures hrefused] at hcalls
  by_cases hrem : info.remPacketSize = 0
  · have hzero : info.remPacketSize.toNat = 0 := by simp [hrem]
    cases hnb : info.nbPackets.toNat with
    | zero => simp [PacketInfo.total, hnb, hzero]
    | succ n =>
      have hlast := hcalls ⟨n * info.packetSize.toNat, info.packetSize.toNat⟩ (by
        simp only [hnb, List.mem_append, List.mem_map, List.mem_range]
        exact Or.inl ⟨n, by omega, rfl⟩)
      simp only [PacketInfo.total, hnb, hzero, Nat.succ_mul]
      omega
  · exact hcalls ⟨info.nbPackets.toNat * info.packetSize.toNat, info.remPacketSize.toNat⟩
      (by simp [hrem])

theorem writesInside_iff_windowsInside (info : PacketInfo) :
    WritesInside info ↔ WindowsInside info := by
  constructor
  · intro h hrefused
    have htotal := total_le_of_writesInside hrefused h
    have hlt : info.total < 2 ^ 64 := htotal.trans_lt (allocSize info).toNat_lt
    exact (windowsInside_iff info).mpr (Or.inl hlt) hrefused
  · intro h valid source arrivals call hcall
    obtain ⟨hrefused, hle⟩ := mem_calls_receiveData hcall
    exact hle.trans (h hrefused).2

/-- For every header, the writes of `receive_data` stay inside the vector if and
only if the announced size is below `2 ^ 64` or is refused after wrapping. -/
theorem receiveData_inside_iff (header : List UInt8) :
    (WritesInside (readHeader header) ↔
      (readHeader header).total < 2 ^ 64 ∨ 1000000 ≤ (readHeader header).total % 2 ^ 64) ∧
    (WindowsInside (readHeader header) ↔
      (readHeader header).total < 2 ^ 64 ∨ 1000000 ≤ (readHeader header).total % 2 ^ 64) := by
  have h := windowsInside_iff (readHeader header)
  exact ⟨(writesInside_iff_windowsInside _).trans h, h⟩

/-- Two packets of `2 ^ 63` bytes announce the size `0` modulo `2 ^ 64`: nothing
is allocated and the second packet is read to the offset `2 ^ 63`. -/
theorem receiveData_outside :
    (makeHeader ⟨97, 2, 0x8000000000000000, 0⟩).length = 25 ∧
    ¬ Refused (readHeader (makeHeader ⟨97, 2, 0x8000000000000000, 0⟩)) ∧
    ¬ WritesInside (readHeader (makeHeader ⟨97, 2, 0x8000000000000000, 0⟩)) ∧
    ¬ WindowsInside (readHeader (makeHeader ⟨97, 2, 0x8000000000000000, 0⟩)) := by
  rw [readHeader_makeHeader]
  have hwindows : ¬ WindowsInside ⟨97, 2, 0x8000000000000000, 0⟩ := by
    intro h
    have htotal := (h (by decide)).2
    revert htotal
    decide
  exact ⟨length_makeHeader _, by decide,
    fun h => hwindows ((writesInside_iff_windowsInside _).mp h), hwindows⟩

end Skype.StreamIO
