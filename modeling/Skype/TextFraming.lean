import Skype.TextIO

/-!
# When text messages survive the segmentation of the stream

The header is read with a plain `recv` and the body with `MSG_WAITALL`, and the
number of body bytes is not compared with the length announced. So the messages
are delivered, and nothing else is, exactly when each header starts in a piece
that still holds ten bytes and no read behind the last complete message finds
ten bytes that parse as a length.
-/

namespace Skype.TextIO

open Library

def completed : List ByteString → ℕ → List ByteString
  | [], _ => []
  | msg :: msgs, cut =>
    if headerLength + msg.length ≤ cut then
      msg :: completed msgs (cut - (headerLength + msg.length))
    else []

def reports : List ByteString → ℕ → List (Option Data)
  | _, 0 => []
  | [], n + 1 => none :: reports [] n
  | msg :: msgs, n + 1 => some (textData msg) :: reports msgs n

def Survives (tReq : Request) (msgs : List ByteString) (pieces : List ByteString) : Prop :=
  ∀ n, receiveAll tReq n pieces = .ok (reports msgs n)

/-- Where the frames of `msgs` start, ten bytes are left of the piece, and the
lengths leave room for the terminating NUL. -/
def HeadersWhole : List ByteString → List ByteString → Prop
  | [], _ => True
  | msg :: msgs, pieces =>
    msg.length < 2 ^ 31 - 1 ∧ headerLength ≤ (pieces.headD []).length ∧
      HeadersWhole msgs (Segments.drop (headerLength + msg.length) pieces)

/-- No ten bytes that successive header reads find in the piece announce a length. -/
def SilentPiece (piece : ByteString) : Prop :=
  ∀ k, headerLength * (k + 1) ≤ piece.length →
    parseHeader ((piece.drop (headerLength * k)).take headerLength) < 0

def Silent (pieces : List ByteString) : Prop := ∀ piece ∈ pieces, SilentPiece piece

def framedLength (msgs : List ByteString) : ℕ :=
  (msgs.map fun msg => headerLength + msg.length).sum

theorem length_createHeader {n : Int32} {header : ByteString} (h : createHeader n = .ok header) :
    header.length = headerLength := by
  simp only [createHeader] at h
  split at h
  · simp at h
  · obtain rfl := Except.ok.inj h
    simp only [List.length_append, List.length_replicate]
    omega

theorem createHeader_sizeToInt {n : ℕ} (h : n < 2 ^ 31) :
    createHeader (sizeToInt n) =
      .ok (List.replicate (headerLength - (Decimal.print n).length) 48 ++ Decimal.print n) := by
  have hprint : intToString (sizeToInt n) = Decimal.print n := by
    rw [intToString, toInt_sizeToInt h, Decimal.printInt, if_neg (by omega), Int.natAbs_natCast]
  have hlength : (Decimal.print n).length ≤ headerLength :=
    Decimal.length_print_le (by decide) (h.trans (by decide))
  simp only [createHeader, hprint, if_neg (not_lt.mpr hlength)]

theorem isDigit_createHeader {n : ℕ} (hn : n < 2 ^ 31) {header : ByteString}
    (h : createHeader (sizeToInt n) = .ok header) : ∀ b ∈ header, Decimal.isDigit b = true := by
  rw [createHeader_sizeToInt hn] at h
  obtain rfl := Except.ok.inj h
  intro b hb
  rcases List.mem_append.mp hb with hzero | hprint
  · rw [List.eq_of_mem_replicate hzero]
    decide
  · exact Decimal.isDigit_of_mem_print hprint

theorem cStr_of_notMem {msg : ByteString} (h : 0 ∉ msg) : cStr msg = msg := by
  rw [cStr, List.takeWhile_eq_self_iff]
  intro b hb
  rw [bne_iff_ne]
  rintro rfl
  exact h hb

theorem cStr_of_digits {header : ByteString} (h : ∀ b ∈ header, Decimal.isDigit b = true) :
    cStr header = header := by
  apply cStr_of_notMem
  intro hnul
  exact absurd (h 0 hnul) (by decide)

theorem parseHeader_createHeader {n : ℕ} (hn : n < 2 ^ 31) {header : ByteString}
    (h : createHeader (sizeToInt n) = .ok header) : parseHeader header = sizeToInt n := by
  have hdigits := isDigit_createHeader hn h
  rw [createHeader_sizeToInt hn] at h
  obtain rfl := Except.ok.inj h
  have hscan := Decimal.scanInt_padded (headerLength - (Decimal.print n).length) n
  rw [parseHeader, cStr_of_digits hdigits, stoi_of_scanInt hscan (by omega) (by omega)]
  exact Int32.ofInt_eq_ofNat

theorem respondAll_cons {tReq : Request} {msg : ByteString} {msgs : List ByteString}
    {bytes : ByteString} (h : respondAll tReq (msg :: msgs) = .ok bytes) :
    ∃ header rest, createHeader (sizeToInt msg.length) = .ok header ∧
      respondAll tReq msgs = .ok rest ∧ bytes = header ++ (msg ++ rest) := by
  have hdata : (tReq.setData (textData msg)).mData = some (textData msg) := rfl
  rw [respondAll, respond, hdata] at h
  cases hheader : createHeader (sizeToInt msg.length) with
  | error e => simp [textData, hheader] at h
  | ok header =>
    cases hrest : respondAll tReq msgs with
    | error e => simp [textData, hheader, hrest] at h
    | ok rest =>
      refine ⟨header, rest, rfl, rfl, ?_⟩
      simpa [textData, hheader, hrest, eq_comm] using h

theorem readHeader_short {piece : ByteString} {pieces : List ByteString}
    (hpieces : ∀ p ∈ piece :: pieces, p ≠ []) (h : piece.length < headerLength) :
    readHeader (piece :: pieces) = (-1, pieces) := by
  have htail : ∀ p ∈ pieces, p ≠ [] := fun p hp => hpieces p (List.mem_cons_of_mem _ hp)
  have htake : piece.take headerLength = piece := List.take_of_length_le h.le
  simp only [readHeader, recv, List.headD_cons, htake, if_neg h.ne, Segments.drop, le_refl, if_true,
    Nat.sub_self, Segments.drop_zero htail]

theorem readHeader_long {piece : ByteString} {pieces : List ByteString}
    (h : headerLength ≤ piece.length) :
    readHeader (piece :: pieces) =
      (parseHeader (piece.take headerLength), Segments.drop headerLength (piece :: pieces)) := by
  have hlen : (piece.take headerLength).length = headerLength := by
    rw [List.length_take, min_eq_left h]
  simp only [readHeader, recv, List.headD_cons, hlen, if_true]

theorem receive_of_neg {tReq : Request} {pieces rest : List ByteString} {n : Int32}
    (h : readHeader pieces = (n, rest)) (hn : n < 0) :
    receive tReq pieces = .ok (false, tReq, rest) := by
  simp only [receive, h, if_pos hn]

theorem intToSize_of_nonneg {n : Int32} (hn : ¬ n < 0) : intToSize n = n.toInt.toNat := by
  have hpos := nonneg_iff_toInt.mp (Int32.not_lt.mp hn)
  have hlt := n.toInt_lt
  rw [intToSize]
  omega

theorem toInt_lt_of_ne_maxValue {n : Int32} (h : n ≠ Int32.maxValue) :
    n.toInt < 2 ^ 31 - 1 := by
  have hlt := n.toInt_lt
  have hmax : Int32.maxValue.toInt = 2 ^ 31 - 1 := by decide
  have hne : n.toInt ≠ Int32.maxValue.toInt := fun he => h (Int32.toInt_inj.mp he)
  omega

theorem receive_of_nonneg (tReq : Request) {pieces rest : List ByteString} {n : Int32}
    (h : readHeader pieces = (n, rest)) (hn : ¬ n < 0) :
    receive tReq pieces = .error .undefined ∨
      ∃ msg left, msg.length < 2 ^ 31 - 1 ∧
        receive tReq pieces = .ok (true, tReq.setData (textData msg), left) := by
  by_cases hmax : n = Int32.maxValue
  · left
    simp only [receive, h, if_neg hn, if_pos hmax]
  · right
    refine ⟨cStr (rest.flatten.take (intToSize n)),
      Segments.drop (rest.flatten.take (intToSize n)).length rest, ?_, ?_⟩
    · have hlt := toInt_lt_of_ne_maxValue hmax
      have hsize := intToSize_of_nonneg hn
      have htake := List.length_take_le (intToSize n) rest.flatten
      have hcStr :=
        (List.takeWhile_sublist (· != 0) (l := rest.flatten.take (intToSize n))).length_le
      rw [cStr]
      omega
    · simp only [receive, h, if_neg hn, if_neg hmax, recvWaitall]

theorem receive_frame (tReq : Request) {pieces : List ByteString} {header msg rest : ByteString}
    (hpieces : ∀ p ∈ pieces, p ≠ []) (hnul : 0 ∉ msg) (hlen : msg.length < 2 ^ 31 - 1)
    (hheader : createHeader (sizeToInt msg.length) = .ok header)
    (hflat : pieces.flatten = header ++ (msg ++ rest))
    (hwhole : headerLength ≤ (pieces.headD []).length) :
    receive tReq pieces = .ok (true, tReq.setData (textData msg),
      Segments.drop (headerLength + msg.length) pieces) := by
  cases pieces with
  | nil => simp [headerLength] at hwhole
  | cons piece pieces =>
    rw [List.headD_cons] at hwhole
    have hlength := length_createHeader hheader
    have htake : piece.take headerLength = header := by
      have h := congrArg (List.take headerLength) hflat
      rwa [List.flatten_cons, List.take_append_of_le_length hwhole,
        List.take_left' hlength] at h
    have hparse := parseHeader_createHeader (by omega) hheader
    have hread : readHeader (piece :: pieces) =
        (sizeToInt msg.length, Segments.drop headerLength (piece :: pieces)) := by
      rw [readHeader_long hwhole, htake, hparse]
    have hbody : (Segments.drop headerLength (piece :: pieces)).flatten.take msg.length = msg := by
      rw [Segments.flatten_drop, hflat, ← hlength, List.drop_left, List.take_left]
    have hint := toInt_sizeToInt (n := msg.length) (by omega)
    have hneg : ¬ sizeToInt msg.length < 0 := Int32.not_lt.mpr (sizeToInt_nonneg (by omega))
    have hmax : sizeToInt msg.length ≠ Int32.maxValue := by
      intro he
      have hval : Int32.maxValue.toInt = 2 ^ 31 - 1 := by decide
      rw [he, hval] at hint
      omega
    simp only [receive, hread, if_neg hneg, if_neg hmax, recvWaitall,
      intToSize_sizeToInt (show msg.length < 2 ^ 31 by omega), hbody, cStr_of_notMem hnul,
      Segments.drop_drop _ _ hpieces]

section Run

variable {tReq : Request} {msg : ByteString} {msgs pieces rest : List ByteString}

theorem receiveAll_succ {received : Bool} {req : Request} {report : Option Data}
    (h : receive tReq pieces = .ok (received, req, rest))
    (hreport : (if received then req.mData else none) = report) (n : ℕ)
    (results : List (Option Data)) :
    receiveAll tReq (n + 1) pieces = .ok (report :: results) ↔
      receiveAll tReq n rest = .ok results := by
  rw [receiveAll, h]
  simp only [ok_bind, hreport]
  cases receiveAll tReq n rest with
  | error e => simp
  | ok tail => simp

theorem survives_iff_of_receive {received : Bool} {req : Request} {report : Option Data}
    {next : List ByteString} (h : receive tReq pieces = .ok (received, req, rest))
    (hreport : (if received then req.mData else none) = report)
    (hnext : ∀ n, reports msgs (n + 1) = report :: reports next n) :
    Survives tReq msgs pieces ↔ Survives tReq next rest := by
  constructor
  · intro hs n
    have hn := hs (n + 1)
    rw [hnext] at hn
    exact (receiveAll_succ h hreport n _).mp hn
  · intro hs n
    cases n with
    | zero => cases msgs <;> rfl
    | succ n =>
      rw [hnext]
      exact (receiveAll_succ h hreport n _).mpr (hs n)

theorem survives_nil_iff (h : receive tReq pieces = .ok (false, tReq, rest)) :
    Survives tReq [] pieces ↔ Survives tReq [] rest :=
  survives_iff_of_receive h rfl fun _ => rfl

theorem survives_cons_iff
    (h : receive tReq pieces = .ok (true, tReq.setData (textData msg), rest)) :
    Survives tReq (msg :: msgs) pieces ↔ Survives tReq msgs rest :=
  survives_iff_of_receive h rfl fun _ => rfl

theorem survives_one (h : Survives tReq msgs pieces) :
    ∃ received req left, receive tReq pieces = .ok (received, req, left) ∧
      [if received then req.mData else none] = reports msgs 1 := by
  have hone := h 1
  rw [receiveAll] at hone
  cases hr : receive tReq pieces with
  | error e => simp [hr] at hone
  | ok result =>
    obtain ⟨received, req, left⟩ := result
    refine ⟨received, req, left, rfl, ?_⟩
    simpa [hr, receiveAll] using hone

theorem not_survives_nil_of_nonneg {n : Int32} (h : readHeader pieces = (n, rest))
    (hn : ¬ n < 0) : ¬ Survives tReq [] pieces := by
  intro hs
  obtain ⟨received, req, left, hr, hreport⟩ := survives_one hs
  rcases receive_of_nonneg tReq h hn with hundef | ⟨text, left', -, hok⟩
  · simp [hundef] at hr
  · rw [hok] at hr
    simp only [Except.ok.injEq, Prod.mk.injEq] at hr
    obtain ⟨rfl, rfl, rfl⟩ := hr
    simp [reports, Request.setData] at hreport

theorem not_survives_cons_of_neg (hn : (readHeader pieces).1 < 0) :
    ¬ Survives tReq (msg :: msgs) pieces := by
  intro hs
  obtain ⟨received, req, left, hr, hreport⟩ := survives_one hs
  rw [receive_of_neg rfl hn] at hr
  simp only [Except.ok.injEq, Prod.mk.injEq] at hr
  obtain ⟨rfl, rfl, rfl⟩ := hr
  simp [reports] at hreport

theorem not_survives_cons_of_long (hlen : 2 ^ 31 - 1 ≤ msg.length) :
    ¬ Survives tReq (msg :: msgs) pieces := by
  by_cases hneg : (readHeader pieces).1 < 0
  · exact not_survives_cons_of_neg hneg
  · intro hs
    obtain ⟨received, req, left, hr, hreport⟩ := survives_one hs
    rcases receive_of_nonneg tReq rfl hneg with
      hundef | ⟨text, left', htext, hok⟩
    · simp [hundef] at hr
    · rw [hok] at hr
      simp only [Except.ok.injEq, Prod.mk.injEq] at hr
      obtain ⟨rfl, rfl, rfl⟩ := hr
      have hsame : text = msg := by simpa [reports, Request.setData, textData] using hreport
      rw [hsame] at htext
      omega

end Run

theorem silent_cons_iff {piece : ByteString} {pieces : List ByteString} :
    Silent (piece :: pieces) ↔ SilentPiece piece ∧ Silent pieces := List.forall_mem_cons

theorem silentPiece_of_short {piece : ByteString} (h : piece.length < headerLength) :
    SilentPiece piece := by
  intro k hk
  rw [Nat.mul_succ] at hk
  omega

theorem silentPiece_iff_of_long {piece : ByteString} (h : headerLength ≤ piece.length) :
    SilentPiece piece ↔ parseHeader (piece.take headerLength) < 0 ∧
      SilentPiece (piece.drop headerLength) := by
  have hdrop : ∀ k, (piece.drop headerLength).drop (headerLength * k) =
      piece.drop (headerLength * (k + 1)) := by
    intro k
    rw [List.drop_drop, Nat.mul_succ, Nat.add_comm]
  constructor
  · intro hs
    refine ⟨hs 0 h, ?_⟩
    intro k hk
    rw [hdrop]
    apply hs
    rw [List.length_drop] at hk
    simp only [Nat.mul_succ] at hk ⊢
    omega
  · rintro ⟨hfirst, hrest⟩ k hk
    cases k with
    | zero => exact hfirst
    | succ k =>
      have hk' : headerLength * (k + 1) ≤ (piece.drop headerLength).length := by
        rw [List.length_drop]
        simp only [Nat.mul_succ] at hk ⊢
        omega
      have hneg := hrest k hk'
      rwa [hdrop] at hneg

theorem silent_cons_iff_of_long {piece : ByteString} {pieces : List ByteString}
    (hpieces : ∀ p ∈ piece :: pieces, p ≠ []) (h : headerLength ≤ piece.length) :
    Silent (piece :: pieces) ↔ parseHeader (piece.take headerLength) < 0 ∧
      Silent (Segments.drop headerLength (piece :: pieces)) := by
  have htail : ∀ p ∈ pieces, p ≠ [] := fun p hp => hpieces p (List.mem_cons_of_mem _ hp)
  have hleft : Silent (Segments.drop headerLength (piece :: pieces)) ↔
      SilentPiece (piece.drop headerLength) ∧ Silent pieces := by
    by_cases hle : piece.length ≤ headerLength
    · have hsub : headerLength - piece.length = 0 := by omega
      have hshort : SilentPiece (piece.drop headerLength) := by
        apply silentPiece_of_short
        rw [List.length_drop]
        simp only [headerLength] at hle ⊢
        omega
      rw [Segments.drop, if_pos hle, hsub, Segments.drop_zero htail]
      exact (and_iff_right hshort).symm
    · rw [Segments.drop, if_neg hle, silent_cons_iff]
  rw [silent_cons_iff, silentPiece_iff_of_long h, hleft, and_assoc]

/-- Behind the last message only failures follow; every call takes bytes off the
stream, and the induction is on how many are left. -/
theorem survives_nil_iff_silent (tReq : Request) {pieces : List ByteString}
    (hpieces : ∀ p ∈ pieces, p ≠ []) : Survives tReq [] pieces ↔ Silent pieces := by
  induction hn : pieces.flatten.length using Nat.strong_induction_on generalizing pieces with
  | _ n ih =>
    cases pieces with
    | nil =>
      have hclosed : Survives tReq [] [] := by
        intro k
        induction k with
        | zero => rfl
        | succ k ihk => exact (receiveAll_succ (receive_of_neg rfl (by decide)) rfl k _).mpr ihk
      exact iff_of_true hclosed fun p hp => absurd hp List.not_mem_nil
    | cons piece pieces =>
      have htail : ∀ p ∈ pieces, p ≠ [] := fun p hp => hpieces p (List.mem_cons_of_mem _ hp)
      have hpos := List.length_pos_of_ne_nil (hpieces piece List.mem_cons_self)
      rw [List.flatten_cons, List.length_append] at hn
      by_cases hshort : piece.length < headerLength
      · have hread := readHeader_short hpieces hshort
        rw [survives_nil_iff (receive_of_neg hread (by decide)), silent_cons_iff,
          and_iff_right (silentPiece_of_short hshort)]
        exact ih _ (by omega) htail rfl
      · have hread : readHeader (piece :: pieces) = _ := readHeader_long (not_lt.mp hshort)
        rw [silent_cons_iff_of_long hpieces (not_lt.mp hshort)]
        by_cases hneg : parseHeader (piece.take headerLength) < 0
        · have hless : (Segments.drop headerLength (piece :: pieces)).flatten.length < n := by
            rw [Segments.flatten_drop, List.length_drop, List.flatten_cons, List.length_append]
            simp only [headerLength] at hshort ⊢
            omega
          rw [survives_nil_iff (receive_of_neg hread hneg), and_iff_right hneg]
          exact ih _ hless (Segments.ne_nil_of_mem_drop hpieces) rfl
        · constructor
          · intro hs
            exact absurd hs (not_survives_nil_of_nonneg hread hneg)
          · rintro ⟨hlt, -⟩
            exact absurd hlt hneg

/-- For every list of messages, every segmentation and every point at which the
stream ends: the complete messages are delivered whole and in order, and nothing
else is, if and only if their headers are whole and the rest is silent. -/
theorem receiveAll_survives_iff (tReq : Request) {sent : List ByteString} {bytes : ByteString}
    {cut : ℕ} {pieces : List ByteString} (hnul : ∀ msg ∈ sent, 0 ∉ msg)
    (hsent : respondAll tReq sent = .ok bytes) (hpieces : ∀ piece ∈ pieces, piece ≠ [])
    (hcut : pieces.flatten = bytes.take cut) :
    Survives tReq (completed sent cut) pieces ↔
      HeadersWhole (completed sent cut) pieces ∧
        Silent (Segments.drop (framedLength (completed sent cut)) pieces) := by
  induction sent generalizing bytes cut pieces with
  | nil =>
    simpa [completed, framedLength, HeadersWhole, Segments.drop_zero hpieces] using
      survives_nil_iff_silent tReq hpieces
  | cons msg sent ih =>
    by_cases hle : headerLength + msg.length ≤ cut
    · obtain ⟨header, rest, hheader, hrest, rfl⟩ := respondAll_cons hsent
      have hlength := length_createHeader hheader
      have hflat : pieces.flatten =
          header ++ (msg ++ rest.take (cut - (headerLength + msg.length))) := by
        rw [hcut, ← List.append_assoc, ← List.append_assoc, List.take_append,
          List.length_append, hlength, List.take_of_length_le]
        rw [List.length_append, hlength]
        exact hle
      rw [completed, if_pos hle, HeadersWhole]
      by_cases hlong : msg.length < 2 ^ 31 - 1
      · by_cases hwhole : headerLength ≤ (pieces.headD []).length
        · have hframe := receive_frame tReq hpieces (hnul msg List.mem_cons_self) hlong hheader
            hflat hwhole
          have hnext : (Segments.drop (headerLength + msg.length) pieces).flatten =
              rest.take (cut - (headerLength + msg.length)) := by
            rw [Segments.flatten_drop, hflat, ← List.append_assoc]
            apply List.drop_left'
            rw [List.length_append, hlength]
          have htail := ih (fun m hm => hnul m (List.mem_cons_of_mem _ hm)) hrest
            (Segments.ne_nil_of_mem_drop hpieces) hnext
          rw [survives_cons_iff hframe, htail, Segments.drop_drop _ _ hpieces]
          simp only [framedLength, List.map_cons, List.sum_cons, hlong, hwhole, true_and]
        · have hneg : (readHeader pieces).1 < 0 := by
            cases pieces with
            | nil => decide
            | cons piece pieces =>
              rw [readHeader_short hpieces (by simpa using hwhole)]
              exact (by decide : (-1 : Int32) < 0)
          exact iff_of_false (not_survives_cons_of_neg hneg) fun h => hwhole h.1.2.1
      · exact iff_of_false (not_survives_cons_of_long (not_lt.mp hlong)) fun h => hlong h.1.1
    · rw [completed, if_neg hle]
      simpa [framedLength, HeadersWhole, Segments.drop_zero hpieces] using
        survives_nil_iff_silent tReq hpieces

theorem receiveAll_survives_iff_whole :
    Survives (.new [] true) [str "hi"] [str "0000000002hi"] ↔
      HeadersWhole [str "hi"] [str "0000000002hi"] ∧
        Silent (Segments.drop 12 [str "0000000002hi"]) := by
  have hsent : respondAll (.new [] true) [str "hi"] = .ok (str "0000000002hi") := by decide
  have hcut : [str "0000000002hi"].flatten = (str "0000000002hi").take 12 := by decide
  exact receiveAll_survives_iff _ (by decide) hsent (by decide) hcut

/-- A body that the close cuts off is delivered truncated, and a header that
arrives in two pieces loses the whole message. -/
theorem receiveAll_truncated :
    respondAll (.new [] true) [str "hello"] = .ok (str "0000000005hello") ∧
    completed [str "hello"] 12 = [] ∧
    receiveAll (.new [] true) 1 [(str "0000000005hello").take 12] =
      .ok [some (textData (str "he"))] ∧
    ¬ Survives (.new [] true) (completed [str "hello"] 12) [(str "0000000005hello").take 12] ∧
    completed [str "hello"] 15 = [str "hello"] ∧
    ¬ Survives (.new [] true) (completed [str "hello"] 15) [str "00000", str "00005hello"] := by
  refine ⟨by decide, by decide, by decide, ?_, by decide, ?_⟩
  · intro h
    have hone := h 1
    revert hone
    decide
  · intro h
    have hone := h 1
    revert hone
    decide

end Skype.TextIO
