import Skype.StreamIO

/-!
# The wait for a header

The loop of `receive_header` looks at the returned length alone. A datagram that is
longer than a header is cut to the length of one and taken for it, and a failure is
skipped like a short datagram unless it comes first.
-/

namespace Skype.StreamIO

open Library

def FillsHeader : Arrival → Prop
  | .failure => False
  | .datagram _ payload => headerSize ≤ payload.length

section

variable {tReq : Request} {arrivals : List Arrival}

theorem awaitHeader_skip {arrival : Arrival} (h : ¬FillsHeader arrival) (rest : List Arrival) :
    awaitHeader tReq (arrival :: rest) = awaitHeader tReq rest := by
  cases arrival with
  | failure => rfl
  | datagram source payload =>
    have hshort : payload.length < headerSize := not_le.mp h
    rw [awaitHeader, if_neg (by omega)]

theorem awaitHeader_take {source : SockAddr} {payload : List UInt8}
    (h : headerSize ≤ payload.length) (rest : List Arrival) :
    awaitHeader tReq (.datagram source payload :: rest) =
      some ⟨tReq, readHeader (payload.take headerSize), source, rest⟩ := by
  rw [awaitHeader, if_pos (min_eq_left h)]

theorem awaitHeader_append {skipped : List Arrival} (h : ∀ a ∈ skipped, ¬FillsHeader a)
    (rest : List Arrival) : awaitHeader tReq (skipped ++ rest) = awaitHeader tReq rest := by
  induction skipped with
  | nil => rfl
  | cons arrival skipped ih =>
    rw [List.cons_append, awaitHeader_skip (h arrival List.mem_cons_self)]
    exact ih fun a ha => h a (List.mem_cons_of_mem arrival ha)

theorem awaitHeader_eq_some {found : HeaderReceived} (h : awaitHeader tReq arrivals = some found) :
    ∃ skipped source payload, arrivals = skipped ++ .datagram source payload :: found.rest ∧
      (∀ a ∈ skipped, ¬FillsHeader a) ∧ headerSize ≤ payload.length := by
  induction arrivals with
  | nil => cases h
  | cons arrival arrivals ih =>
    by_cases hfills : FillsHeader arrival
    · cases arrival with
      | failure => cases hfills
      | datagram source payload =>
        rw [awaitHeader_take hfills] at h
        obtain rfl := Option.some.inj h
        exact ⟨[], source, payload, rfl, by simp, hfills⟩
    · rw [awaitHeader_skip hfills] at h
      obtain ⟨skipped, source, payload, rfl, hskipped, hlong⟩ := ih h
      refine ⟨arrival :: skipped, source, payload, rfl, ?_, hlong⟩
      intro a ha
      rcases List.mem_cons.mp ha with rfl | ha
      · exact hfills
      · exact hskipped a ha

def datagrams (packets : List (SockAddr × List UInt8)) : List Arrival :=
  packets.map fun packet => .datagram packet.1 packet.2

theorem receiveHeader_datagrams (leftovers : List (SockAddr × List UInt8)) (source : SockAddr)
    (payload : List UInt8) (rest : List Arrival) :
    receiveHeader tReq (datagrams leftovers ++ .datagram source payload :: rest) =
      awaitHeader tReq (datagrams leftovers ++ .datagram source payload :: rest) := by
  cases leftovers with
  | nil => rfl
  | cons packet leftovers => rfl

/-- The left-overs are skipped and the header behind them is read. -/
def Resynchronises (tReq : Request) (leftovers : List (SockAddr × List UInt8)) : Prop :=
  ∀ source info rest,
    receiveHeader tReq (datagrams leftovers ++ .datagram source (makeHeader info) :: rest) =
      some ⟨tReq, info, source, rest⟩

end

/-- The header behind left-over datagrams is found exactly when all of them are shorter
than a header. -/
theorem resynchronises_iff (tReq : Request) (leftovers : List (SockAddr × List UInt8)) :
    Resynchronises tReq leftovers ↔ ∀ packet ∈ leftovers, packet.2.length < headerSize := by
  have hfills : headerSize ≤ (makeHeader ⟨0, 0, 0, 0⟩).length := (length_makeHeader _).ge
  constructor
  · intro h packet hpacket
    have hread := h ⟨0, 0⟩ ⟨0, 0, 0, 0⟩ []
    rw [receiveHeader_datagrams] at hread
    obtain ⟨skipped, source, payload, hsplit, hskipped, -⟩ := awaitHeader_eq_some hread
    obtain ⟨rfl, -⟩ := List.append_inj' hsplit rfl
    exact not_le.mp (hskipped _ (List.mem_map_of_mem hpacket))
  · intro h source info rest
    have hskipped : ∀ a ∈ datagrams leftovers, ¬FillsHeader a := by
      intro a ha
      obtain ⟨packet, hpacket, rfl⟩ := List.mem_map.mp ha
      exact not_le.mpr (h packet hpacket)
    have htake : (makeHeader info).take headerSize = makeHeader info :=
      List.take_of_length_le (length_makeHeader info).le
    rw [receiveHeader_datagrams, awaitHeader_append hskipped,
      awaitHeader_take (length_makeHeader info).ge, htake, readHeader_makeHeader]

/-- A package of 26 bytes is left over, as `send_data` sends it in one packet. -/
theorem leftover_read_as_header :
    makePacketInfo ⟨.audio, List.replicate 26 7⟩ = .ok ⟨97, 1, 26, 0⟩ ∧
      ¬Resynchronises (Request.new [] true) [(⟨0, 0⟩, List.replicate 26 7)] := by
  refine ⟨by decide, ?_⟩
  intro h
  have hrest := congrArg (Option.map HeaderReceived.rest) (h ⟨0, 0⟩ ⟨97, 1, 26, 0⟩ [])
  revert hrest
  decide

def ReturnsBehind (tReq : Request) (before after : List Arrival) : Prop :=
  ∃ found, receiveHeader tReq (before ++ .failure :: after) = some found ∧
    found.rest = after ∧ found.req.mValid = false

/-- The first failure ends the wait for a header if it is still going on. -/
def EndsOnFailure (tReq : Request) (before after : List Arrival) : Prop :=
  (∀ a ∈ before, a ≠ .failure ∧ ¬FillsHeader a) → ReturnsBehind tReq before after

theorem returnsBehind_iff (tReq : Request) (before after : List Arrival) :
    ReturnsBehind tReq before after ↔ before = [] := by
  constructor
  · rintro ⟨found, hfound, hrest, -⟩
    cases before with
    | nil => rfl
    | cons arrival before =>
      cases arrival with
      | failure =>
        obtain rfl := Option.some.inj hfound
        have hlength : (before ++ .failure :: after).length = after.length :=
          congrArg List.length hrest
        rw [List.length_append, List.length_cons] at hlength
        omega
      | datagram source payload =>
        obtain ⟨skipped, sender, header, hsplit, -, -⟩ := awaitHeader_eq_some hfound
        have hends : (.datagram source payload :: before) ++ [.failure] ++ after =
            skipped ++ [.datagram sender header] ++ after := by
          simpa [hrest] using hsplit
        have hlast := (List.append_inj' (List.append_cancel_right hends) rfl).2
        cases hlast
  · rintro rfl
    exact ⟨_, rfl, rfl, rfl⟩

theorem endsOnFailure_iff (tReq : Request) (before after : List Arrival) :
    EndsOnFailure tReq before after ↔
      before = [] ∨ ∃ a ∈ before, a = .failure ∨ FillsHeader a := by
  rw [EndsOnFailure, returnsBehind_iff]
  constructor
  · intro h
    by_cases hwaits : ∀ a ∈ before, a ≠ .failure ∧ ¬FillsHeader a
    · exact Or.inl (h hwaits)
    · push Not at hwaits
      obtain ⟨a, ha, hends⟩ := hwaits
      exact Or.inr ⟨a, ha, or_iff_not_imp_left.mpr hends⟩
  · rintro (rfl | ⟨a, ha, rfl | hfills⟩) hwaits
    · rfl
    · exact absurd rfl (hwaits _ ha).1
    · exact absurd hfills (hwaits a ha).2

/-- A stray byte, and then only receive timeouts. -/
theorem failure_skipped :
    ¬EndsOnFailure (Request.new [] true) [.datagram ⟨0, 0⟩ [7]] [.failure, .failure] := by
  intro h
  obtain ⟨found, hfound, -⟩ := h (by simp [FillsHeader, headerSize])
  cases hfound

end Skype.StreamIO
