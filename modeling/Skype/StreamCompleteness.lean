import Skype.StreamRoundTrip

/-!
# Incomplete packages

`receive_data` starts from a vector of zeros and looks at whether a `recvfrom` failed, not
at how many bytes it returned. So a package with a short datagram is as valid as a complete
one, and so is an empty one whose announced size was refused.
-/

namespace Skype.StreamIO

def HasData (type : DataType) : Prop := type ≠ .empty ∧ type ≠ .done

def Media (type : DataType) : Prop := type = .audio ∨ type = .video

def Lost (size : ℕ) : Arrival → Prop
  | .failure => True
  | .datagram _ payload => payload.length < size

/-- A read of `size` bytes returns the whole datagram, or for a text all the bytes. -/
def Whole (type : DataType) (size : ℕ) : Arrival → Prop
  | .failure => False
  | .datagram _ payload => size ≤ payload.length ∧ (Media type → payload.length = size)

/-- A valid package of audio or video is what was announced and what arrived. What announces
too much is not valid, with or without data, nor is a package of which a read was lost. -/
def ValidMeansComplete (net : Inet) (tReq : Request) (source : SockAddr) (info : PacketInfo)
    (arrivals : List Arrival) : Prop :=
  ∀ valid req rest,
    receive net tReq (.datagram source (makeHeader info) :: arrivals) =
        some (valid, req, rest) →
      (∀ data, valid = true → req.mData = some data → Media data.type →
        data.bytes.length = info.total ∧ ∃ packets, arrivals = datagrams packets ++ rest ∧
          (packets.map fun packet => packet.2.length) = announced info ∧
          data.bytes = (packets.map Prod.snd).flatten) ∧
      (1000000 ≤ info.total → valid = false) ∧
      (HasData (DataType.ofChar info.dataType) →
        (∃ read ∈ (announced info).zip arrivals, Lost read.1 read.2) → valid = false)

def ArrivesWhole (tReq : Request) (info : PacketInfo) (arrivals : List Arrival) : Prop :=
  tReq.mValid = false ∨
    info.total < 1000000 ∧
      (¬HasData (DataType.ofChar info.dataType) ∨
        arrivals.length < (announced info).length ∨
        .failure ∈ arrivals.take (announced info).length ∨
        ∀ read ∈ (announced info).zip arrivals,
          Whole (DataType.ofChar info.dataType) read.1 read.2)

section

variable {r : Receiver} {sizes : List ℕ}

theorem recvAll_blocked (h : r.blocked = true) : (recvAll sizes r).blocked = true := by
  induction sizes generalizing r with
  | nil => exact h
  | cons size sizes ih =>
    apply ih
    rw [Receiver.advance, Receiver.recvfrom, if_pos h]
    exact h

theorem recvfrom_cons {arrival : Arrival} {arrivals : List Arrival} (h : r.blocked = false)
    (harrivals : r.arrivals = arrival :: arrivals) (size : ℕ) :
    ((r.recvfrom size).advance size).blocked = false ∧
      ((r.recvfrom size).advance size).arrivals = arrivals ∧
      ((r.recvfrom size).advance size).valid = (r.valid && decide (arrival ≠ .failure)) := by
  have hrunning : ¬r.blocked = true := ne_true_of_eq_false h
  rw [Receiver.advance, Receiver.recvfrom, if_neg hrunning, harrivals]
  cases arrival with
  | failure => simp [h]
  | datagram source payload => simp [h]

theorem recvAll_waits (hlength : r.arrivals.length < sizes.length) :
    (recvAll sizes r).blocked = true := by
  induction sizes generalizing r with
  | nil => simp at hlength
  | cons size sizes ih =>
    rw [recvAll]
    cases hblocked : r.blocked with
    | true =>
      apply recvAll_blocked
      rw [Receiver.advance, Receiver.recvfrom, if_pos hblocked, hblocked]
    | false =>
      cases harrivals : r.arrivals with
      | nil =>
        apply recvAll_blocked
        rw [Receiver.advance, Receiver.recvfrom, if_neg (ne_true_of_eq_false hblocked), harrivals]
      | cons arrival arrivals =>
        apply ih
        rw [(recvfrom_cons hblocked harrivals size).2.1]
        rw [harrivals, List.length_cons, List.length_cons] at hlength
        omega

theorem recvAll_returns (h : r.blocked = false) (hlength : sizes.length ≤ r.arrivals.length) :
    (recvAll sizes r).blocked = false ∧
      (recvAll sizes r).arrivals = r.arrivals.drop sizes.length ∧
      (recvAll sizes r).valid =
        (r.valid && decide (.failure ∉ r.arrivals.take sizes.length)) := by
  induction sizes generalizing r with
  | nil => simp [recvAll, h]
  | cons size sizes ih =>
    cases harrivals : r.arrivals with
    | nil => simp [harrivals] at hlength
    | cons arrival arrivals =>
      obtain ⟨hblocked, hrest, hvalid⟩ := recvfrom_cons h harrivals size
      rw [harrivals, List.length_cons, List.length_cons] at hlength
      obtain ⟨hrun, hleft, hall⟩ := ih (r := (r.recvfrom size).advance size) hblocked (by
        rw [hrest]
        omega)
      refine ⟨hrun, ?_, ?_⟩
      · rw [recvAll, hleft, hrest, List.length_cons, List.drop_succ_cons]
      · rw [recvAll, hall, hrest, hvalid, List.length_cons, List.take_succ_cons, Bool.and_assoc]
        simp [eq_comm]

end

theorem receiveData_waits {info : PacketInfo} {arrivals : List Arrival} (h : ¬Refused info)
    (hlength : arrivals.length < (announced info).length) (valid : Bool) (source : SockAddr) :
    (receiveData valid source info arrivals).blocked = true := by
  have hrun := advance_receiveData h valid source arrivals
  have hblocked := recvAll_waits (r := ⟨List.replicate (allocSize info).toNat 0, 0, valid, source,
    arrivals, [], false⟩) hlength
  rwa [← hrun] at hblocked

theorem receiveData_returns {info : PacketInfo} {arrivals : List Arrival} (h : ¬Refused info)
    (hlength : (announced info).length ≤ arrivals.length) (valid : Bool) (source : SockAddr) :
    (receiveData valid source info arrivals).blocked = false ∧
      (receiveData valid source info arrivals).valid =
        (valid && decide (.failure ∉ arrivals.take (announced info).length)) := by
  have hrun := advance_receiveData h valid source arrivals
  obtain ⟨hblocked, -, hvalid⟩ := recvAll_returns (r := ⟨List.replicate (allocSize info).toNat 0,
    0, valid, source, arrivals, [], false⟩) rfl hlength
  rw [← hrun] at hblocked hvalid
  exact ⟨hblocked, hvalid⟩

section

variable {net : Inet} {tReq req : Request} {source : SockAddr} {info : PacketInfo}
  {arrivals rest : List Arrival} {valid : Bool}

theorem receiveHeader_first :
    receiveHeader tReq (.datagram source (makeHeader info) :: arrivals) =
      some ⟨tReq, info, source, arrivals⟩ :=
  receiveHeader_makeHeader tReq (Or.inl rfl : Leftover source []) info arrivals

variable (net) in
theorem receive_without_data (h : ¬HasData (DataType.ofChar info.dataType)) :
    ∃ req data, receive net tReq (.datagram source (makeHeader info) :: arrivals) =
        some (tReq.mValid, req, arrivals) ∧ req.mData = some data ∧ ¬Media data.type := by
  rw [receive, receiveHeader_first]
  simp only [Option.bind_eq_bind, Option.bind_some]
  by_cases hempty : DataType.ofChar info.dataType = .empty
  · rw [if_pos hempty]
    exact ⟨_, ⟨.empty, []⟩, rfl, rfl, by simp [Media]⟩
  · by_cases hdone : DataType.ofChar info.dataType = .done
    · rw [if_neg hempty, if_pos hdone]
      exact ⟨_, ⟨.done, []⟩, rfl, rfl, by simp [Media]⟩
    · exact absurd ⟨hempty, hdone⟩ h

variable (net) in
theorem receive_with_data (h : HasData (DataType.ofChar info.dataType))
    (hrunning : (receiveData tReq.mValid source info arrivals).blocked = false) :
    ∃ req, receive net tReq (.datagram source (makeHeader info) :: arrivals) =
        some ((receiveData tReq.mValid source info arrivals).valid, req,
          (receiveData tReq.mValid source info arrivals).arrivals) ∧
      ((receiveData tReq.mValid source info arrivals).valid = true →
        req.mData = some ⟨DataType.ofChar info.dataType,
          (receiveData tReq.mValid source info arrivals).data⟩) := by
  rw [receive, receiveHeader_first]
  simp only [Option.bind_eq_bind, Option.bind_some, if_neg h.1, if_neg h.2]
  rw [if_neg (ne_true_of_eq_false hrunning)]
  cases hvalid : (receiveData tReq.mValid source info arrivals).valid with
  | true => exact ⟨_, rfl, fun _ => rfl⟩
  | false => exact ⟨_, rfl, fun htrue => absurd htrue Bool.false_ne_true⟩

theorem receive_blocked (h : HasData (DataType.ofChar info.dataType))
    (hblocked : (receiveData tReq.mValid source info arrivals).blocked = true) :
    receive net tReq (.datagram source (makeHeader info) :: arrivals) = none := by
  rw [receive, receiveHeader_first]
  simp only [Option.bind_eq_bind, Option.bind_some, if_neg h.1, if_neg h.2]
  rw [if_pos hblocked]
  rfl

end

theorem exists_packets {sizes : List ℕ} {arrivals : List Arrival}
    (hlength : sizes.length ≤ arrivals.length) {type : DataType} (hmedia : Media type)
    (h : ∀ read ∈ sizes.zip arrivals, Whole type read.1 read.2) :
    ∃ packets, arrivals = datagrams packets ++ arrivals.drop sizes.length ∧
      (packets.map fun packet => packet.2.length) = sizes := by
  induction sizes generalizing arrivals with
  | nil => exact ⟨[], rfl, rfl⟩
  | cons size sizes ih =>
    cases arrivals with
    | nil => simp at hlength
    | cons arrival arrivals =>
      rw [List.zip_cons_cons] at h
      have hfirst := h (size, arrival) List.mem_cons_self
      obtain ⟨packets, harrivals, hsizes⟩ := ih (Nat.le_of_succ_le_succ hlength)
        fun read hread => h read (List.mem_cons_of_mem _ hread)
      cases arrival with
      | failure => cases hfirst
      | datagram source payload =>
        refine ⟨(source, payload) :: packets, ?_, ?_⟩
        · exact congrArg (List.cons _) harrivals
        · rw [List.map_cons, hsizes, hfirst.2 hmedia]

theorem whole_of_packets {packets : List (SockAddr × List UInt8)} {rest : List Arrival}
    (type : DataType) {read : ℕ × Arrival}
    (h : read ∈ (packets.map fun packet => packet.2.length).zip (datagrams packets ++ rest)) :
    Whole type read.1 read.2 := by
  induction packets with
  | nil => cases h
  | cons packet packets ih =>
    rcases List.mem_cons.mp h with rfl | htail
    · exact ⟨le_rfl, fun _ => rfl⟩
    · exact ih htail

theorem not_lost_of_whole {type : DataType} {size : ℕ} {arrival : Arrival}
    (h : Whole type size arrival) : ¬Lost size arrival := by
  cases arrival with
  | failure => cases h
  | datagram source payload => exact not_lt.mpr h.1

theorem whole_of_not_lost {type : DataType} {size : ℕ} {arrival : Arrival}
    (h : ¬Lost size arrival) (hmedia : ¬Media type) : Whole type size arrival := by
  cases arrival with
  | failure => exact absurd trivial h
  | datagram source payload => exact ⟨not_lt.mp h, fun hm => absurd hm hmedia⟩

theorem length_le_of_running {tReq : Request} {source : SockAddr} {info : PacketInfo}
    {arrivals : List Arrival} (h : ¬Refused info)
    (hrunning : (receiveData tReq.mValid source info arrivals).blocked = false) :
    (announced info).length ≤ arrivals.length := by
  by_contra hshort
  rw [receiveData_waits h (not_le.mp hshort)] at hrunning
  cases hrunning

theorem valid_of_invalid {tReq : Request} {source : SockAddr} {info : PacketInfo}
    {arrivals : List Arrival} (h : tReq.mValid = false)
    (hrunning : (receiveData tReq.mValid source info arrivals).blocked = false) :
    (receiveData tReq.mValid source info arrivals).valid = false := by
  by_cases hrefused : Refused info
  · rw [receiveData, if_pos hrefused]
    exact h
  · rw [(receiveData_returns hrefused (length_le_of_running hrefused hrunning) _ _).2, h]
    rfl

theorem refused_iff_of_lt {info : PacketInfo} (h : info.total < 2 ^ 64) :
    Refused info ↔ 1000000 ≤ info.total := by
  rw [refused_iff, Nat.mod_eq_of_lt h]

section

variable {net : Inet} {tReq : Request} {source : SockAddr} {info : PacketInfo}
  {arrivals : List Arrival}

theorem limit_of_complete (htotal : info.total < 2 ^ 64) (hvalid : tReq.mValid = true)
    (h : ValidMeansComplete net tReq source info arrivals) : info.total < 1000000 := by
  by_contra hover
  by_cases hdata : HasData (DataType.ofChar info.dataType)
  · have hrefused := (refused_iff_of_lt htotal).mpr (not_lt.mp hover)
    have hempty : receiveData tReq.mValid source info arrivals =
        ⟨[], 0, tReq.mValid, source, arrivals, [], false⟩ := if_pos hrefused
    have hrunning : (receiveData tReq.mValid source info arrivals).blocked = false := by
      rw [hempty]
    obtain ⟨req, hreceive, -⟩ := receive_with_data net hdata hrunning
    have hfalse := (h _ _ _ hreceive).2.1 (not_lt.mp hover)
    rw [hempty, hvalid] at hfalse
    cases hfalse
  · obtain ⟨req, data, hreceive, -⟩ := receive_without_data net hdata
    have hfalse := (h _ _ _ hreceive).2.1 (not_lt.mp hover)
    rw [hvalid] at hfalse
    cases hfalse

theorem arrivesWhole_of_complete (htotal : info.total < 2 ^ 64)
    (h : ValidMeansComplete net tReq source info arrivals) : ArrivesWhole tReq info arrivals := by
  by_cases hinvalid : tReq.mValid = false
  · exact Or.inl hinvalid
  have hvalid : tReq.mValid = true := Bool.eq_true_of_not_eq_false hinvalid
  have hlimit := limit_of_complete htotal hvalid h
  by_cases hdata : HasData (DataType.ofChar info.dataType)
  swap
  · exact Or.inr ⟨hlimit, Or.inl hdata⟩
  refine Or.inr ⟨hlimit, Or.inr ?_⟩
  by_cases hshort : arrivals.length < (announced info).length
  · exact Or.inl hshort
  by_cases hfailure : .failure ∈ arrivals.take (announced info).length
  · exact Or.inr (Or.inl hfailure)
  refine Or.inr (Or.inr ?_)
  have hrefused : ¬Refused info :=
    fun hrefused => absurd ((refused_iff_of_lt htotal).mp hrefused) (not_le.mpr hlimit)
  obtain ⟨hrunning, hreturned⟩ :=
    receiveData_returns hrefused (not_lt.mp hshort) tReq.mValid source
  rw [decide_eq_true hfailure, Bool.and_true] at hreturned
  replace hreturned := hreturned.trans hvalid
  obtain ⟨req, hreceive, hset⟩ := receive_with_data net hdata hrunning
  obtain ⟨hcomplete, -, hlost⟩ := h _ _ _ hreceive
  by_cases hmedia : Media (DataType.ofChar info.dataType)
  · obtain ⟨-, packets, harrivals, hsizes, -⟩ :=
      hcomplete _ hreturned (hset hreturned) hmedia
    rw [harrivals, ← hsizes]
    intro read hread
    exact whole_of_packets _ hread
  · intro read hread
    apply whole_of_not_lost _ hmedia
    intro hgone
    have hfalse := hlost hdata ⟨read, hread, hgone⟩
    rw [hreturned] at hfalse
    cases hfalse

theorem complete_of_arrivesWhole (htotal : info.total < 2 ^ 64)
    (h : ArrivesWhole tReq info arrivals) : ValidMeansComplete net tReq source info arrivals := by
  intro valid req rest hreceive
  by_cases hdata : HasData (DataType.ofChar info.dataType)
  swap
  · obtain ⟨filled, none, hreturned, hnone, hnot⟩ := receive_without_data net hdata
    obtain ⟨rfl, hbehind⟩ := Prod.mk.inj (Option.some.inj (hreceive.symm.trans hreturned))
    obtain ⟨rfl, rfl⟩ := Prod.mk.inj hbehind
    refine ⟨?_, ?_, fun hsome => absurd hsome hdata⟩
    · intro data _ hset hmedia
      obtain rfl := Option.some.inj (hnone.symm.trans hset)
      exact absurd hmedia hnot
    · intro hover
      rcases h with hinvalid | ⟨hlimit, -⟩
      · exact hinvalid
      · exact absurd hover (not_le.mpr hlimit)
  cases hrunning : (receiveData tReq.mValid source info arrivals).blocked with
  | true =>
    rw [receive_blocked hdata hrunning] at hreceive
    cases hreceive
  | false =>
    obtain ⟨filled, hreturned, hset⟩ := receive_with_data net hdata hrunning
    obtain ⟨rfl, hbehind⟩ := Prod.mk.inj (Option.some.inj (hreceive.symm.trans hreturned))
    obtain ⟨rfl, rfl⟩ := Prod.mk.inj hbehind
    rcases h with hinvalid | ⟨hlimit, hreads⟩
    · have hfalse := valid_of_invalid hinvalid hrunning
      exact ⟨fun data hvalid => absurd hvalid (ne_true_of_eq_false hfalse), fun _ => hfalse,
        fun _ _ => hfalse⟩
    have hwithin : 1000000 ≤ info.total →
        (receiveData tReq.mValid source info arrivals).valid = false :=
      fun hover => absurd hover (not_le.mpr hlimit)
    have hrefused : ¬Refused info :=
      fun hrefused => absurd ((refused_iff_of_lt htotal).mp hrefused) (not_le.mpr hlimit)
    have hlength := length_le_of_running hrefused hrunning
    have hvalid := (receiveData_returns hrefused hlength tReq.mValid source).2
    rcases hreads with hnone | hshort | hfailure | hwhole
    · exact absurd hdata hnone
    · exact absurd hlength (not_le.mpr hshort)
    · have hfalse : (receiveData tReq.mValid source info arrivals).valid = false := by
        rw [hvalid]
        simp [hfailure]
      exact ⟨fun data htrue => absurd htrue (ne_true_of_eq_false hfalse), hwithin,
        fun _ _ => hfalse⟩
    · refine ⟨?_, hwithin, ?_⟩
      · intro data htrue hfilled hmedia
        obtain rfl := Option.some.inj ((hset htrue).symm.trans hfilled)
        obtain ⟨packets, harrivals, hsizes⟩ := exists_packets hlength hmedia hwhole
        obtain ⟨r, hr, hbytes, -, hrest, -⟩ := receiveData_exact hlimit hsizes source
          (arrivals.drop (announced info).length)
        have hbefore : tReq.mValid = true := by
          rw [hvalid] at htrue
          exact Bool.and_elim_left htrue
        rw [← harrivals] at hr
        rw [hbefore, hr, hbytes, hrest]
        refine ⟨?_, packets, harrivals, hsizes, rfl⟩
        rw [List.length_flatten, List.map_map, ← sum_announced, ← hsizes]
        rfl
      · rintro - ⟨read, hread, hlost⟩
        exact absurd hlost (not_lost_of_whole (hwhole read hread))

end

/-- A valid package is complete, and an incomplete one invalid, exactly when the package
arrives whole or fails in a way that the receiver looks at. -/
theorem validMeansComplete_iff (net : Inet) (tReq : Request) (source : SockAddr)
    (info : PacketInfo) (arrivals : List Arrival) (htotal : info.total < 2 ^ 64) :
    ValidMeansComplete net tReq source info arrivals ↔ ArrivesWhole tReq info arrivals :=
  ⟨arrivesWhole_of_complete htotal, complete_of_arrivesWhole htotal⟩

theorem validMeansComplete_two :
    ValidMeansComplete ⟨fun _ => 0, fun _ => []⟩ (Request.new [] true) ⟨0, 0⟩ ⟨97, 1, 2, 0⟩
      [.datagram ⟨0, 0⟩ [1, 2]] :=
  (validMeansComplete_iff _ _ _ _ _ (by decide)).mpr
    (.inr ⟨by decide, .inr (.inr (.inr (by simp [announced, Whole])))⟩)

/-- Three bytes are announced and one arrives; the other two stay zero. -/
theorem short_datagram_valid :
    ¬ValidMeansComplete ⟨fun _ => 0, fun _ => []⟩ (Request.new [] true) ⟨0, 0⟩ ⟨97, 1, 3, 0⟩
      [.datagram ⟨0, 0⟩ [1]] := by
  intro h
  have hreceive : ∃ req, receive ⟨fun _ => 0, fun _ => []⟩ (Request.new [] true)
      (.datagram ⟨0, 0⟩ (makeHeader ⟨97, 1, 3, 0⟩) :: [.datagram ⟨0, 0⟩ [1]]) =
        some (true, req, []) := ⟨_, rfl⟩
  obtain ⟨req, hreceive⟩ := hreceive
  have hshort : Lost 3 (.datagram ⟨0, 0⟩ [1]) := by
    rw [Lost]
    decide
  have hfalse := (h true req [] hreceive).2.2 ⟨by decide, by decide⟩
    ⟨_, List.mem_cons_self, hshort⟩
  cases hfalse

end Skype.StreamIO
