import Skype.StreamBounds

/-!
# The packets of a package of any size

`make_packet_info` divides by a number of packets that grows with the data and counts
the packets again by the size that it gets. The two counts differ when the remainder is
no smaller than a packet, which happens from 80 982 000 bytes on.
-/

namespace Skype.StreamIO

/-- Above 90000 bytes `n` is `d` bytes short of full packets, `1 ≤ d ≤ 9000`; the cases
are how often the number of packets goes into `d`. -/
theorem mod_lt_div_iff {n : ℕ} (h : minNbPackets * maxPacketSize < n) :
    n % packetCount n < n / packetCount n ↔ n / 9000 + n % 9000 < 17998 ∧ n ≠ 80982000 := by
  have hquot := (div_packetCount_ge (n := n) (by
    unfold minNbPackets maxPacketSize singlePackageThreshold at *
    omega)).2 h
  have hmod := Nat.mod_lt n (packetCount_pos n)
  have hsplit := Nat.div_add_mod n (packetCount n)
  rw [packetCount_of_lt h, maxPacketSize] at hquot hmod hsplit ⊢
  unfold minNbPackets maxPacketSize at h
  by_cases honce : 9000 - n % 9000 ≤ n / 9000 + 1
  · have hdiv : n / (n / 9000 + 1) = 8999 :=
      Nat.div_eq_of_lt_le (by omega) (by omega)
    rw [hdiv] at hsplit ⊢
    omega
  · by_cases hfew : n / 9000 + 1 ≤ 8181
    · omega
    · have hdiv : n / (n / 9000 + 1) = 8998 :=
        Nat.div_eq_of_lt_le (by omega) (by omega)
      rw [hdiv] at hsplit ⊢
      omega

/-- There is a packet, the packets and the remainder are the data, and no packet is too
large. -/
def SplitsExactly (tData : Data) : Prop :=
  ∃ info, makePacketInfo tData = .ok info ∧ 1 ≤ info.nbPackets.toNat ∧
    info.total = tData.bytes.length ∧ info.packetSize.toNat ≤ maxPacketSize

theorem splitsExactly_of_small {tData : Data}
    (h : tData.bytes.length < singlePackageThreshold) : SplitsExactly tData := by
  unfold singlePackageThreshold at h
  have hlength := toNat_ofNat_of_lt (n := tData.bytes.length) (by omega)
  refine ⟨_, makePacketInfo_of_small h, le_refl 1, ?_, ?_⟩
  · rw [PacketInfo.total, hlength]
    exact Nat.one_mul _
  · rw [hlength, maxPacketSize]
    omega

theorem splitsExactly_of_le {tData : Data} (hlo : singlePackageThreshold ≤ tData.bytes.length)
    (hhi : tData.bytes.length < 2 ^ 53) :
    SplitsExactly tData ↔
      tData.bytes.length % packetCount tData.bytes.length <
        tData.bytes.length / packetCount tData.bytes.length := by
  generalize hn : tData.bytes.length = n at hlo hhi
  have hpos : 0 < n / packetCount n := lt_of_lt_of_le (by decide) (div_packetCount_ge hlo).1
  have hsome : 1 ≤ n / (n / packetCount n) :=
    (Nat.one_le_div_iff hpos).mpr (Nat.div_le_self n (packetCount n))
  have hword : ∀ m ≤ n, (UInt64.ofNat m).toNat = m := fun m hm =>
    toNat_ofNat_of_lt (hm.trans_lt hhi)
  have hnb := hword _ (Nat.div_le_self n (n / packetCount n))
  have hsize := hword _ (Nat.div_le_self n (packetCount n))
  have hrem := hword _ (Nat.mod_le n (packetCount n))
  have hinfo := makePacketInfo_of_le (hn.symm ▸ hlo) (hn.symm ▸ hhi)
  rw [hn] at hinfo
  rw [← recount_iff hpos]
  constructor
  · rintro ⟨info, hok, -, htotal, -⟩
    obtain rfl := Except.ok.inj (hinfo.symm.trans hok)
    rwa [PacketInfo.total, hnb, hsize, hrem, hn] at htotal
  · intro htotal
    refine ⟨_, hinfo, ?_, ?_, ?_⟩
    · rwa [hnb]
    · rwa [PacketInfo.total, hnb, hsize, hrem, hn]
    · rw [hsize]
      exact div_packetCount_le n

/-- The split is exact when the number of whole 9000 bytes and the bytes behind them add
up to less than 17998, one length excepted. -/
theorem splitsExactly_iff (tData : Data) (h : tData.bytes.length < 2 ^ 53) :
    SplitsExactly tData ↔
      tData.bytes.length / 9000 + tData.bytes.length % 9000 < 17998 ∧
        tData.bytes.length ≠ 80982000 := by
  by_cases hsmall : tData.bytes.length < singlePackageThreshold
  · unfold singlePackageThreshold at hsmall
    exact iff_of_true (splitsExactly_of_small hsmall) (by omega)
  · rw [splitsExactly_of_le (not_lt.mp hsmall) h]
    rcases le_or_gt tData.bytes.length (minNbPackets * maxPacketSize) with hle | hlt
    · have hquot := (div_packetCount_ge (not_lt.mp hsmall)).1
      have hmod := Nat.mod_lt tData.bytes.length (packetCount_pos tData.bytes.length)
      rw [packetCount_of_le hle] at hquot hmod ⊢
      unfold minNbPackets maxPacketSize at *
      exact iff_of_true (by omega) (by omega)
    · exact mod_lt_div_iff hlt

theorem splitsExactly_video : SplitsExactly ⟨.video, List.replicate 83116 0⟩ :=
  (splitsExactly_iff ⟨.video, List.replicate 83116 0⟩ (by
    rw [List.length_replicate]
    decide)).mpr (by
      rw [List.length_replicate]
      decide)

/-- 80 982 000 bytes are 9000 packets of 8998 bytes, and a remainder of 8998 bytes more. -/
theorem split_too_long : ¬SplitsExactly ⟨.video, List.replicate 80982000 0⟩ := by
  have hlo : singlePackageThreshold ≤ (List.replicate 80982000 (0 : UInt8)).length := by
    rw [List.length_replicate]
    decide
  rw [splitsExactly_of_le hlo (by
    rw [List.length_replicate]
    decide), List.length_replicate]
  decide

end Skype.StreamIO
