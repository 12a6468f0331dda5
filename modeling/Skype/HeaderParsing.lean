import Skype.TextFraming

/-!
# What `read_header` takes for a length

Ten bytes are a length when `std::stoi` reads a number from their start. A block that is
no number counts as the length 0, which is as valid as any other, and the greatest `int`
leaves no room for the terminating NUL.
-/

namespace Skype.TextIO

open Library

structure BodyRead where
  size : ℕ
  count : ℕ
  deriving DecidableEq

def bodyRead (msgLength : Int32) : Exec BodyRead :=
  if msgLength = Int32.maxValue then .error .undefined
  else .ok ⟨intToSize (msgLength + 1), intToSize msgLength⟩

theorem receive_eq_bodyRead (tReq : Request) (pieces : List ByteString) :
    receive tReq pieces =
      if (readHeader pieces).1 < 0 then .ok (false, tReq, (readHeader pieces).2)
      else do
        let body ← bodyRead (readHeader pieces).1
        let (received, rest) := recvWaitall body.count (readHeader pieces).2
        return (true, tReq.setData (textData (cStr received)), rest) := by
  unfold receive bodyRead
  generalize readHeader pieces = header
  obtain ⟨msgLength, rest⟩ := header
  dsimp only
  split
  · rfl
  · split
    · rfl
    · rfl

/-- A block that `create_header` builds from a length is answered with that many bytes in a
buffer of one more, and any other block is refused. -/
structure ReadsStrictly (header : ByteString) : Prop where
  accepts : ∀ n : Int32, 0 ≤ n → createHeader n = .ok header → ∀ tReq pieces,
    (recv headerLength pieces).1 = header →
      bodyRead (readHeader pieces).1 = .ok ⟨n.toInt.toNat + 1, n.toInt.toNat⟩ ∧
      receive tReq pieces = .ok (true,
        tReq.setData (textData (cStr (recvWaitall n.toInt.toNat (readHeader pieces).2).1)),
        (recvWaitall n.toInt.toNat (readHeader pieces).2).2)
  refuses : (∀ n : Int32, 0 ≤ n → createHeader n ≠ .ok header) → ∀ tReq pieces,
    (recv headerLength pieces).1 = header →
      ∃ rest, receive tReq pieces = .ok (false, tReq, rest)

theorem createHeader_iff {n : Int32} (hn : 0 ≤ n) {header : ByteString}
    (hlength : header.length = headerLength) :
    createHeader n = .ok header ↔
      (∀ b ∈ header, Decimal.isDigit b = true) ∧ Decimal.value header = n.toInt.toNat := by
  have hlt : n.toInt.toNat < 2 ^ 31 := by
    have hmax := n.toInt_lt
    omega
  have hcreate := createHeader_sizeToInt hlt
  have hdigits := isDigit_createHeader hlt hcreate
  rw [sizeToInt_toNat hn] at hcreate
  have hvalue := Decimal.value_replicate_zero_append
    (headerLength - (Decimal.print n.toInt.toNat).length) (Decimal.print n.toInt.toNat)
  rw [Decimal.value_print] at hvalue
  constructor
  · intro h
    obtain rfl := Except.ok.inj (hcreate.symm.trans h)
    exact ⟨hdigits, hvalue⟩
  · rintro ⟨hheader, hsame⟩
    rw [hcreate]
    congr 1
    apply Decimal.eq_of_value_eq hdigits hheader
    · rw [length_createHeader hcreate, hlength]
    · rw [hvalue, hsame]

section

variable {header : ByteString}

theorem scanInt_of_digits (hlength : header.length = headerLength)
    (h : ∀ b ∈ header, Decimal.isDigit b = true) :
    Decimal.scanInt header = some (Decimal.value header : ℤ) := by
  have hne : header ≠ [] := by
    rintro rfl
    cases hlength
  simpa using Decimal.scanInt_append (t := []) hne h (by simp)

theorem stoi_of_digits (hlength : header.length = headerLength)
    (h : ∀ b ∈ header, Decimal.isDigit b = true) :
    stoi (cStr header) =
      if Decimal.value header < 2 ^ 31 then .ok (sizeToInt (Decimal.value header))
      else .error .outOfRange := by
  rw [cStr_of_digits h, stoi, scanInt_of_digits hlength h]
  dsimp only
  split
  · next hrange =>
    rw [if_pos (by omega), Int32.ofInt_eq_ofNat]
    rfl
  · next hrange => rw [if_neg (by omega)]

theorem parseHeader_neg_iff :
    parseHeader header < 0 ↔ ∃ i : Int32, i < 0 ∧ stoi (cStr header) = .ok i := by
  rw [parseHeader]
  constructor
  · intro h
    split at h
    · next i hi => exact ⟨i, h, hi⟩
    · exact absurd h (by decide)
  · rintro ⟨i, hneg, hi⟩
    rw [hi]
    exact hneg

theorem readHeader_of_recv (hlength : header.length = headerLength) {pieces : List ByteString}
    (h : (recv headerLength pieces).1 = header) :
    (readHeader pieces).1 = parseHeader header := by
  simp only [readHeader, h, if_pos hlength]

theorem recv_singleton (hlength : header.length = headerLength) :
    (recv headerLength [header]).1 = header := by
  rw [recv, List.headD_cons]
  exact List.take_of_length_le hlength.le

theorem exists_createHeader_iff (hlength : header.length = headerLength) :
    (∃ n : Int32, 0 ≤ n ∧ createHeader n = .ok header) ↔
      (∀ b ∈ header, Decimal.isDigit b = true) ∧ Decimal.value header < 2 ^ 31 := by
  constructor
  · rintro ⟨n, hn, hcreate⟩
    obtain ⟨hdigits, hvalue⟩ := (createHeader_iff hn hlength).mp hcreate
    have hlt := n.toInt_lt
    exact ⟨hdigits, by omega⟩
  · rintro ⟨hdigits, hvalue⟩
    have hint := toInt_sizeToInt hvalue
    have hpos := sizeToInt_nonneg hvalue
    refine ⟨sizeToInt (Decimal.value header), hpos,
      (createHeader_iff hpos hlength).mpr ⟨hdigits, ?_⟩⟩
    rw [hint]
    rfl

end

section

variable {header : ByteString}

theorem bodyRead_of_lt {n : Int32} (hn : 0 ≤ n) (h : n.toInt < 2 ^ 31 - 1) :
    bodyRead n = .ok ⟨n.toInt.toNat + 1, n.toInt.toNat⟩ := by
  have hpos := nonneg_iff_toInt.mp hn
  have hmax : n ≠ Int32.maxValue := by
    rintro rfl
    exact absurd h (by decide)
  have hnext : (n + 1).toInt = n.toInt + 1 := by
    have hone : (1 : Int32).toInt = 1 := by decide
    rw [Int32.toInt_add, hone]
    exact Int.bmod_eq_of_le (by omega) (by omega)
  have hsize : intToSize (n + 1) = n.toInt.toNat + 1 := by
    rw [intToSize, hnext]
    omega
  rw [bodyRead, if_neg hmax, hsize, intToSize_of_nonneg (Int32.not_lt.mpr hn)]

theorem readsStrictly_of_digits (hlength : header.length = headerLength)
    (hdigits : ∀ b ∈ header, Decimal.isDigit b = true) :
    ReadsStrictly header ↔ Decimal.value header < 2 ^ 31 - 1 := by
  have hstoi := stoi_of_digits hlength hdigits
  have hexists := exists_createHeader_iff hlength
  constructor
  · intro h
    by_contra hbig
    by_cases hvalue : Decimal.value header < 2 ^ 31
    · obtain ⟨n, hn, hcreate⟩ := hexists.mpr ⟨hdigits, hvalue⟩
      have hread := (h.accepts n hn hcreate (Request.new [] true) [header]
        (recv_singleton hlength)).1
      have hmax : (readHeader [header]).1 = Int32.maxValue := by
        have htop : Decimal.value header = 2 ^ 31 - 1 := by omega
        rw [readHeader_of_recv hlength (recv_singleton hlength), parseHeader, hstoi, if_pos hvalue,
          htop]
        decide
      rw [hmax, bodyRead, if_pos rfl] at hread
      cases hread
    · have hnone : ∀ n : Int32, 0 ≤ n → createHeader n ≠ .ok header :=
        fun n hn hcreate => hvalue (hexists.mp ⟨n, hn, hcreate⟩).2
      obtain ⟨rest, hfalse⟩ := h.refuses hnone (Request.new [] true) [header]
        (recv_singleton hlength)
      have hzero : (readHeader [header]).1 = 0 := by
        rw [readHeader_of_recv hlength (recv_singleton hlength), parseHeader, hstoi, if_neg hvalue]
      rw [receive_eq_bodyRead, hzero] at hfalse
      cases hfalse
  · intro hvalue
    have hlt : Decimal.value header < 2 ^ 31 := by omega
    constructor
    · intro n hn hcreate tReq pieces hrecv
      have hsame := ((createHeader_iff hn hlength).mp hcreate).2
      have hparsed : (readHeader pieces).1 = n := by
        rw [readHeader_of_recv hlength hrecv, parseHeader, hstoi, if_pos hlt, hsame,
          sizeToInt_toNat hn]
      have hbody := bodyRead_of_lt hn (by omega)
      rw [receive_eq_bodyRead, hparsed, hbody, if_neg (Int32.not_lt.mpr hn)]
      exact ⟨rfl, rfl⟩
    · intro hnone
      obtain ⟨n, hn, hcreate⟩ := hexists.mpr ⟨hdigits, hlt⟩
      exact absurd hcreate (hnone n hn)

theorem readsStrictly_of_not_digits (hlength : header.length = headerLength)
    (hdigits : ¬∀ b ∈ header, Decimal.isDigit b = true) :
    ReadsStrictly header ↔ parseHeader header < 0 := by
  have hnone : ∀ n : Int32, 0 ≤ n → createHeader n ≠ .ok header :=
    fun n hn hcreate => hdigits ((exists_createHeader_iff hlength).mp ⟨n, hn, hcreate⟩).1
  constructor
  · intro h
    obtain ⟨rest, hfalse⟩ := h.refuses hnone (Request.new [] true) [header]
      (recv_singleton hlength)
    by_contra hpos
    rw [receive_eq_bodyRead, readHeader_of_recv hlength (recv_singleton hlength), if_neg hpos]
      at hfalse
    obtain ⟨body, -, htrue⟩ := bind_eq_ok.mp hfalse
    cases htrue
  · intro hneg
    refine ⟨fun n hn hcreate => absurd hcreate (hnone n hn), ?_⟩
    intro _ tReq pieces hrecv
    rw [← readHeader_of_recv hlength hrecv] at hneg
    exact ⟨_, by rw [receive_eq_bodyRead, if_pos hneg]⟩

end

/-- A block is read strictly exactly when it is ten digits below the greatest `int`, or when
`std::stoi` reads a negative number from it. -/
theorem readsStrictly_iff (header : ByteString) (hlength : header.length = headerLength) :
    ReadsStrictly header ↔
      (∀ b ∈ header, Decimal.isDigit b = true) ∧ Decimal.value header < 2 ^ 31 - 1 ∨
        ∃ i : Int32, i < 0 ∧ stoi (cStr header) = .ok i := by
  by_cases hdigits : ∀ b ∈ header, Decimal.isDigit b = true
  · have hpos : ¬∃ i : Int32, i < 0 ∧ stoi (cStr header) = .ok i := by
      rintro ⟨i, hneg, hi⟩
      rw [stoi_of_digits hlength hdigits] at hi
      split at hi
      · next hvalue =>
        obtain rfl := Except.ok.inj hi
        exact Int32.not_lt.mpr (sizeToInt_nonneg hvalue) hneg
      · cases hi
    rw [readsStrictly_of_digits hlength hdigits, or_iff_left hpos, and_iff_right hdigits]
  · have hnone : ¬((∀ b ∈ header, Decimal.isDigit b = true) ∧
        Decimal.value header < 2 ^ 31 - 1) := fun h => hdigits h.1
    rw [readsStrictly_of_not_digits hlength hdigits, parseHeader_neg_iff, or_iff_right hnone]

theorem readsStrictly_twelve : ReadsStrictly (str "0000000012") :=
  (readsStrictly_iff (str "0000000012") (by decide)).mpr
    (.inl ⟨List.all_eq_true.mp (by decide), by simp [Decimal.value, str]⟩)

/-- Ten letters are answered like an empty message. -/
theorem letters_accepted : ¬ReadsStrictly (str "abcdefghij") := by
  intro h
  have hneg := (readsStrictly_of_not_digits (by decide) (by decide)).mp h
  exact absurd hneg (by decide)

end Skype.TextIO
