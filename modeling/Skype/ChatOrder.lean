import Skype.ChatReading

/-!
# The order of chats

`operator<` and `operator>` compare every field of the date and of the time on its own and
ask that none is on the wrong side. An earlier field that differs does not decide.
-/

namespace Skype

open Library

namespace UserChat

inductive ComparisonType
  | greaterThan
  | lesserThan
  deriving DecidableEq

/-- One round of `compare`: whether the loop goes on. -/
def compareField (tCompType : ComparisonType) (lhs rhs : ByteString) : Exec Bool :=
  catchAll
    (do
      let l ← stoi lhs
      let r ← stoi rhs
      return !(tCompType = .greaterThan && l < r || tCompType = .lesserThan && l > r))
    (.ok false)

def compare (tCompType : ComparisonType) : List ByteString → List ByteString → Exec Bool
  | [], _ => .ok true
  | _ :: _, [] => .error .undefined
  | lhs :: tLhs, rhs :: tRhs => do
    let goesOn ← compareField tCompType lhs rhs
    if goesOn then compare tCompType tLhs tRhs else return false

def compareDates (tLhs tRhs : ByteString) (tCompType : ComparisonType) : Exec Bool := do
  let left ← StringUtils.split tLhs (str "-")
  let right ← StringUtils.split tRhs (str "-")
  if left.length ≠ right.length then return false else compare tCompType left right

def splitSeconds (fields : List ByteString) : Exec (List ByteString) := do
  let (secs, milli) ← StringUtils.splitFirst (fields.getD 2 []) (str ".")
  return fields.set 2 secs ++ [milli]

def compareTimes (tLhs tRhs : ByteString) (tCompType : ComparisonType) : Exec Bool := do
  let left ← StringUtils.split tLhs (str ":")
  let right ← StringUtils.split tRhs (str ":")
  if left.length ≠ 3 ∨ right.length ≠ 3 then return false
  else
    let left ← splitSeconds left
    let right ← splitSeconds right
    compare tCompType left right

def compared (tCompType : ComparisonType) (chat rhs : UserChat) : Exec Bool := do
  let (dateLeft, timeLeft) ← StringUtils.splitFirst chat.mCreatedAt (str " ")
  let (dateRight, timeRight) ← StringUtils.splitFirst rhs.mCreatedAt (str " ")
  let dates ← compareDates dateLeft dateRight tCompType
  if dates then compareTimes timeLeft timeRight tCompType else return false

def less (chat rhs : UserChat) : Exec Bool := compared .lesserThan chat rhs

def greater (chat rhs : UserChat) : Exec Bool := compared .greaterThan chat rhs

end UserChat

structure Numeral where
  text : ByteString
  nonempty : text ≠ []
  digits : ∀ b ∈ text, Decimal.isDigit b = true

namespace Numeral

def value (n : Numeral) : ℕ := Decimal.value n.text

def fraction (n : Numeral) : ℚ := n.value / 10 ^ n.text.length

end Numeral

structure Stamp where
  year : Numeral
  month : Numeral
  day : Numeral
  hour : Numeral
  minute : Numeral
  second : Numeral
  fraction : Option Numeral
  widths : year.text.length = 4 ∧ month.text.length = 2 ∧ day.text.length = 2 ∧
    hour.text.length = 2 ∧ minute.text.length = 2 ∧ second.text.length = 2

namespace Stamp

def date (s : Stamp) : ByteString :=
  s.year.text ++ str "-" ++ s.month.text ++ str "-" ++ s.day.text

def seconds (s : Stamp) : ByteString :=
  s.second.text ++ (s.fraction.elim [] fun f => str "." ++ f.text)

def time (s : Stamp) : ByteString :=
  s.hour.text ++ str ":" ++ s.minute.text ++ str ":" ++ s.seconds

def text (s : Stamp) : ByteString := s.date ++ str " " ++ s.time

def instant (s : Stamp) : (ℕ ×ₗ ℕ ×ₗ ℕ) ×ₗ (ℕ ×ₗ ℕ ×ₗ ℕ ×ₗ ℚ) :=
  toLex (toLex (s.year.value, toLex (s.month.value, s.day.value)),
    toLex (s.hour.value, toLex (s.minute.value, toLex (s.second.value,
      s.fraction.elim 0 Numeral.fraction))))

def Earlier (s t : Stamp) : Prop := s.instant < t.instant

structure Within (s t : Stamp) : Prop where
  year : s.year.value ≤ t.year.value
  month : s.month.value ≤ t.month.value
  day : s.day.value ≤ t.day.value
  hour : s.hour.value ≤ t.hour.value
  minute : s.minute.value ≤ t.minute.value
  second : s.second.value ≤ t.second.value
  fraction : ∃ f ∈ s.fraction, ∃ g ∈ t.fraction,
    f.value < 2 ^ 31 ∧ g.value < 2 ^ 31 ∧ f.value ≤ g.value

end Stamp

namespace UserChat

def Under (tCompType : ComparisonType) (lhs rhs : ByteString) : Prop :=
  ∃ l r, stoi lhs = .ok l ∧ stoi rhs = .ok r ∧
    (tCompType = .greaterThan → r ≤ l) ∧ (tCompType = .lesserThan → l ≤ r)

def Decides (result : Exec Bool) (P : Prop) : Prop := ∃ b, result = .ok b ∧ (b = true ↔ P)

theorem compareField_decides (tCompType : ComparisonType) (lhs rhs : ByteString) :
    Decides (compareField tCompType lhs rhs) (Under tCompType lhs rhs) := by
  unfold compareField Under
  cases hl : stoi lhs with
  | error e =>
    refine ⟨false, ?_, by simp⟩
    rcases stoi_error hl with rfl | rfl
    · rfl
    · rfl
  | ok l =>
    cases hr : stoi rhs with
    | error e =>
      refine ⟨false, ?_, by simp⟩
      rcases stoi_error hr with rfl | rfl
      · rfl
      · rfl
    | ok r => exact ⟨_, rfl, by simp [imp_iff_not_or]⟩

theorem compare_decides (tCompType : ComparisonType) {tLhs tRhs : List ByteString}
    (h : tLhs.length = tRhs.length) :
    Decides (compare tCompType tLhs tRhs) (List.Forall₂ (Under tCompType) tLhs tRhs) := by
  induction tLhs generalizing tRhs with
  | nil =>
    cases tRhs with
    | nil => exact ⟨true, rfl, by simp⟩
    | cons rhs tRhs => cases h
  | cons lhs tLhs ih =>
    cases tRhs with
    | nil => cases h
    | cons rhs tRhs =>
      obtain ⟨goesOn, hfield, hunder⟩ := compareField_decides tCompType lhs rhs
      rw [compare, hfield, ok_bind]
      cases goesOn with
      | false =>
        refine ⟨false, rfl, ?_⟩
        rw [List.forall₂_cons, ← hunder]
        simp
      | true =>
        obtain ⟨b, hb, hrest⟩ := ih (Nat.succ.inj h)
        refine ⟨b, hb, ?_⟩
        rw [List.forall₂_cons, ← hunder, hrest]
        simp

theorem under_swap {lhs rhs : ByteString} :
    Under .greaterThan lhs rhs ↔ Under .lesserThan rhs lhs := by
  unfold Under
  constructor
  · rintro ⟨l, r, hl, hr, h⟩
    exact ⟨r, l, hr, hl, by simpa using h⟩
  · rintro ⟨r, l, hr, hl, h⟩
    exact ⟨l, r, hl, hr, by simpa using h⟩

theorem stoi_numeral (n : Numeral) :
    stoi n.text = if n.value < 2 ^ 31 then .ok (sizeToInt n.value) else .error .outOfRange := by
  have hscan := Decimal.scanInt_append (t := []) n.nonempty n.digits (by simp)
  rw [List.append_nil] at hscan
  rw [stoi, hscan]
  dsimp only
  by_cases hfits : n.value < 2 ^ 31
  · have hvalue : ((Decimal.value n.text : ℕ) : ℤ) < 2 ^ 31 := by
      rw [Numeral.value] at hfits
      omega
    rw [if_pos ⟨by omega, hvalue⟩, if_pos hfits, Int32.ofInt_eq_ofNat]
    rfl
  · rw [if_neg hfits, if_neg]
    rw [Numeral.value] at hfits
    omega

theorem sizeToInt_le_iff {m n : ℕ} (hm : m < 2 ^ 31) (hn : n < 2 ^ 31) :
    sizeToInt m ≤ sizeToInt n ↔ m ≤ n := by
  rw [Int32.le_iff_toInt_le, toInt_sizeToInt hm, toInt_sizeToInt hn, Int.ofNat_le]

theorem under_numeral (f g : Numeral) :
    Under .lesserThan f.text g.text ↔
      f.value < 2 ^ 31 ∧ g.value < 2 ^ 31 ∧ f.value ≤ g.value := by
  unfold Under
  rw [stoi_numeral, stoi_numeral]
  constructor
  · rintro ⟨l, r, hl, hr, -, hle⟩
    split at hl
    · next hf =>
      split at hr
      · next hg =>
        obtain rfl := Except.ok.inj hl
        obtain rfl := Except.ok.inj hr
        exact ⟨hf, hg, (sizeToInt_le_iff hf hg).mp (hle rfl)⟩
      · cases hr
    · cases hl
  · rintro ⟨hf, hg, hle⟩
    exact ⟨_, _, if_pos hf, if_pos hg, fun h => absurd h (by decide),
      fun _ => (sizeToInt_le_iff hf hg).mpr hle⟩

def dateFields (s : Stamp) : List ByteString := [s.year.text, s.month.text, s.day.text]

def timeFields (s : Stamp) : List ByteString :=
  [s.hour.text, s.minute.text, s.second.text, s.fraction.elim [] Numeral.text]

theorem notMem_numeral {b : UInt8} (hb : Decimal.isDigit b = false) (n : Numeral) : b ∉ n.text := by
  intro h
  rw [n.digits b h] at hb
  cases hb

theorem date_eq (s : Stamp) :
    s.date = s.year.text ++ 45 :: (s.month.text ++ 45 :: s.day.text) := by
  have hdash : str "-" = [45] := by decide
  simp [Stamp.date, hdash]

theorem time_eq (s : Stamp) :
    s.time = s.hour.text ++ colon :: (s.minute.text ++ colon :: s.seconds) := by
  have hcolon : str ":" = [colon] := by decide
  simp [Stamp.time, hcolon]

theorem colon_notMem_seconds (s : Stamp) : colon ∉ s.seconds := by
  have hdot : colon ∉ str "." := by decide
  have hdigit : ∀ n : Numeral, colon ∉ n.text := fun n => notMem_numeral (by decide) n
  unfold Stamp.seconds
  cases s.fraction with
  | none => simp [hdigit]
  | some f => simp [hdigit, hdot]

theorem split_date (s : Stamp) : StringUtils.split s.date (str "-") = .ok (dateFields s) := by
  have hdash : str "-" = [45] := by decide
  have hdigit : ∀ n : Numeral, 45 ∉ n.text := fun n => notMem_numeral (by decide) n
  have hlen : s.date.length < 2 ^ 31 := by
    obtain ⟨hyear, hmonth, hday, -⟩ := s.widths
    simp only [date_eq, List.length_append, List.length_cons]
    omega
  rw [hdash, StringUtils.split_eq hlen (List.cons_ne_nil _ _), date_eq,
    Search.splitOn_append_cons _ (hdigit _), Search.splitOn_append_cons _ (hdigit _),
    Search.splitOn_of_notMem (hdigit _)]
  rfl

theorem split_time (s : Stamp) (hlen : s.time.length < 2 ^ 63) :
    StringUtils.split s.time (str ":") = .ok [s.hour.text, s.minute.text, s.seconds] := by
  have hcolon : str ":" = [colon] := by decide
  have hdigit : ∀ n : Numeral, colon ∉ n.text := fun n => notMem_numeral (by decide) n
  have hfront : s.time = (s.hour.text ++ colon :: (s.minute.text ++ [colon])) ++ s.seconds := by
    simp [time_eq]
  have hnear : StringUtils.Near [colon] s.time := by
    rw [hfront]
    refine StringUtils.near_of_front ?_ (colon_notMem_seconds s)
    obtain ⟨-, -, -, hhour, hminute, -⟩ := s.widths
    simp only [List.length_append, List.length_cons, List.length_nil]
    omega
  rw [hcolon, StringUtils.split_of_near hlen hnear (List.cons_ne_nil _ _), time_eq,
    Search.splitOn_append_cons _ (hdigit _), Search.splitOn_append_cons _ (hdigit _),
    Search.splitOn_of_notMem (colon_notMem_seconds s)]

theorem splitSeconds_eq (s : Stamp) (hlen : s.time.length < 2 ^ 63) :
    splitSeconds [s.hour.text, s.minute.text, s.seconds] = .ok (timeFields s) := by
  have hdot : str "." = [46] := by decide
  have hdigit : ∀ n : Numeral, 46 ∉ n.text := fun n => notMem_numeral (by decide) n
  have hseconds : s.seconds.length < 2 ^ 63 := by
    simp only [time_eq, List.length_append, List.length_cons] at hlen
    omega
  unfold splitSeconds timeFields
  rw [List.getD_cons_succ, List.getD_cons_succ, List.getD_cons_zero, hdot]
  unfold Stamp.seconds at hseconds ⊢
  cases hfraction : s.fraction with
  | none =>
    rw [hfraction] at hseconds
    rw [Option.elim_none, List.append_nil] at hseconds ⊢
    rw [StringUtils.splitFirst_eq (by have := s.widths; omega),
      Search.cutFirst_of_notMem (hdigit _), ok_bind]
    rfl
  | some f =>
    rw [hfraction] at hseconds
    rw [Option.elim_some, hdot, List.singleton_append] at hseconds ⊢
    rw [StringUtils.splitFirst_append_cons hseconds (by have := s.widths; omega) (hdigit _),
      ok_bind]
    rfl

theorem splitFirst_text (s : Stamp) (hlen : s.text.length < 2 ^ 63) :
    StringUtils.splitFirst s.text (str " ") = .ok (s.date, s.time) := by
  have hspace : str " " = [space] := by decide
  have htext : s.text = s.date ++ space :: s.time := by
    rw [Stamp.text, hspace, List.append_assoc, List.singleton_append]
  have hdigit : ∀ n : Numeral, space ∉ n.text := fun n => notMem_numeral (by decide) n
  have hdate : space ∉ s.date := by
    have hne : space ≠ 45 := by decide
    simp [date_eq, hdigit, hne]
  have hshort : s.date.length + 1 < 2 ^ 31 := by
    obtain ⟨hyear, hmonth, hday, -⟩ := s.widths
    simp only [date_eq, List.length_append, List.length_cons]
    omega
  rw [htext] at hlen ⊢
  rw [hspace, StringUtils.splitFirst_append_cons hlen hshort hdate]

theorem Decides.congr {result : Exec Bool} {P Q : Prop} (h : Decides result P) (hiff : P ↔ Q) :
    Decides result Q := by
  obtain ⟨b, hb, hP⟩ := h
  exact ⟨b, hb, hP.trans hiff⟩

theorem Decides.and {first second : Exec Bool} {P Q : Prop} (hfirst : Decides first P)
    (hsecond : Decides second Q) :
    Decides (do let b ← first; if b then second else return false) (P ∧ Q) := by
  obtain ⟨b, rfl, hP⟩ := hfirst
  obtain ⟨c, rfl, hQ⟩ := hsecond
  cases b with
  | false => exact ⟨false, rfl, by rw [← hP, ← hQ]; simp⟩
  | true => exact ⟨c, rfl, by rw [← hP, ← hQ]; simp⟩

section

variable {chat rhs : UserChat} {s t : Stamp}

theorem compareDates_decides (tCompType : ComparisonType) (s t : Stamp) :
    Decides (compareDates s.date t.date tCompType)
      (List.Forall₂ (Under tCompType) (dateFields s) (dateFields t)) := by
  unfold compareDates
  rw [split_date, ok_bind, split_date, ok_bind, if_neg (by simp [dateFields])]
  exact compare_decides tCompType rfl

theorem compareTimes_decides (tCompType : ComparisonType) (s t : Stamp)
    (hs : s.time.length < 2 ^ 63) (ht : t.time.length < 2 ^ 63) :
    Decides (compareTimes s.time t.time tCompType)
      (List.Forall₂ (Under tCompType) (timeFields s) (timeFields t)) := by
  unfold compareTimes
  rw [split_time s hs, ok_bind, split_time t ht, ok_bind, if_neg (by simp), splitSeconds_eq s hs,
    ok_bind, splitSeconds_eq t ht, ok_bind]
  exact compare_decides tCompType rfl

theorem compared_decides (tCompType : ComparisonType) (hchat : chat.mCreatedAt = s.text)
    (hrhs : rhs.mCreatedAt = t.text) (hs : s.text.length < 2 ^ 63) (ht : t.text.length < 2 ^ 63) :
    Decides (compared tCompType chat rhs)
      (List.Forall₂ (Under tCompType) (dateFields s) (dateFields t) ∧
        List.Forall₂ (Under tCompType) (timeFields s) (timeFields t)) := by
  have htime : ∀ u : Stamp, u.text.length < 2 ^ 63 → u.time.length < 2 ^ 63 := by
    intro u hu
    rw [Stamp.text, List.length_append] at hu
    omega
  rw [compared, hchat, hrhs, splitFirst_text s hs, ok_bind]
  dsimp only
  rw [splitFirst_text t ht, ok_bind]
  exact (compareDates_decides tCompType s t).and
    (compareTimes_decides tCompType s t (htime s hs) (htime t ht))

theorem value_fits {n : Numeral} (h : n.text.length ≤ 4) : n.value < 2 ^ 31 := by
  have hlt := Decimal.value_lt n.digits
  have hpow : 10 ^ n.text.length ≤ 10 ^ 4 := Nat.pow_le_pow_right (by decide) h
  rw [Numeral.value]
  omega

theorem under_short {f g : Numeral} (hf : f.text.length ≤ 4) (hg : g.text.length ≤ 4) :
    Under .lesserThan f.text g.text ↔ f.value ≤ g.value := by
  rw [under_numeral, and_iff_right (value_fits hf), and_iff_right (value_fits hg)]

theorem under_fraction (f g : Option Numeral) :
    Under .lesserThan (f.elim [] Numeral.text) (g.elim [] Numeral.text) ↔
      ∃ m ∈ f, ∃ n ∈ g, m.value < 2 ^ 31 ∧ n.value < 2 ^ 31 ∧ m.value ≤ n.value := by
  have hempty : stoi [] = .error .invalidArgument := by decide
  cases f with
  | none => simp [Under, hempty]
  | some m =>
    cases g with
    | none => simp [Under, hempty]
    | some n => simp [under_numeral]

theorem within_iff (s t : Stamp) :
    List.Forall₂ (Under .lesserThan) (dateFields s) (dateFields t) ∧
        List.Forall₂ (Under .lesserThan) (timeFields s) (timeFields t) ↔ s.Within t := by
  obtain ⟨hyear, hmonth, hday, hhour, hminute, hsecond⟩ := s.widths
  obtain ⟨hyear', hmonth', hday', hhour', hminute', hsecond'⟩ := t.widths
  unfold dateFields timeFields
  simp only [List.forall₂_cons, List.Forall₂.nil, and_true, under_fraction]
  rw [under_short (by omega) (by omega), under_short (by omega) (by omega),
    under_short (by omega) (by omega), under_short (by omega) (by omega),
    under_short (by omega) (by omega), under_short (by omega) (by omega)]
  constructor
  · rintro ⟨⟨h₁, h₂, h₃⟩, h₄, h₅, h₆, h₇⟩
    exact ⟨h₁, h₂, h₃, h₄, h₅, h₆, h₇⟩
  · rintro ⟨h₁, h₂, h₃, h₄, h₅, h₆, h₇⟩
    exact ⟨⟨h₁, h₂, h₃⟩, h₄, h₅, h₆, h₇⟩

theorem forall₂_swap {lhs rhs : List ByteString} :
    List.Forall₂ (Under .greaterThan) lhs rhs ↔ List.Forall₂ (Under .lesserThan) rhs lhs := by
  constructor
  · intro h
    exact (h.imp fun _ _ => under_swap.mp).flip
  · intro h
    exact (h.imp fun _ _ => under_swap.mpr).flip

theorem less_decides (hchat : chat.mCreatedAt = s.text)
    (hrhs : rhs.mCreatedAt = t.text) (hs : s.text.length < 2 ^ 63) (ht : t.text.length < 2 ^ 63) :
    Decides (less chat rhs) (s.Within t) :=
  (compared_decides .lesserThan hchat hrhs hs ht).congr (within_iff s t)

theorem greater_decides (hchat : chat.mCreatedAt = s.text)
    (hrhs : rhs.mCreatedAt = t.text) (hs : s.text.length < 2 ^ 63) (ht : t.text.length < 2 ^ 63) :
    Decides (greater chat rhs) (t.Within s) := by
  refine (compared_decides .greaterThan hchat hrhs hs ht).congr ?_
  rw [← within_iff, forall₂_swap, forall₂_swap]

end

/-- `<` is the order of the instants, and `>` is `<` the other way round. -/
def OrderedByTime (chat rhs : UserChat) (s t : Stamp) : Prop :=
  ∃ lesser greater' lesser', less chat rhs = .ok lesser ∧ greater chat rhs = .ok greater' ∧
    less rhs chat = .ok lesser' ∧ (lesser = true ↔ s.Earlier t) ∧ (greater' = true ↔ lesser' = true)

/-- Two chats are ordered by time exactly when the earlier one is below the other in every
field, or the one that is not earlier is above it in some field or lacks a fraction. -/
theorem orderedByTime_iff (chat rhs : UserChat) (s t : Stamp) (hchat : chat.mCreatedAt = s.text)
    (hrhs : rhs.mCreatedAt = t.text) (hs : s.text.length < 2 ^ 63) (ht : t.text.length < 2 ^ 63) :
    OrderedByTime chat rhs s t ↔
      (s.Earlier t ∧ s.Within t) ∨ (¬s.Earlier t ∧ ¬s.Within t) := by
  obtain ⟨lesser, hlesser, hwithin⟩ := less_decides hchat hrhs hs ht
  obtain ⟨greater', hgreater, hbehind⟩ := greater_decides hchat hrhs hs ht
  obtain ⟨lesser', hlesser', hwithin'⟩ := less_decides hrhs hchat ht hs
  unfold OrderedByTime
  rw [hlesser, hgreater, hlesser', ← hwithin]
  constructor
  · rintro ⟨_, _, _, h, -, -, hearlier, -⟩
    obtain rfl := Except.ok.inj h
    rw [← hearlier]
    tauto
  · intro h
    refine ⟨_, _, _, rfl, rfl, rfl, by tauto, hbehind.trans hwithin'.symm⟩

def tenOClock (month day second : Numeral) (h : month.text.length = 2 ∧ day.text.length = 2 ∧
    second.text.length = 2) : Stamp where
  year := ⟨str "2022", by decide, by decide +kernel⟩
  month := month
  day := day
  hour := ⟨str "10", by decide, by decide +kernel⟩
  minute := ⟨str "00", by decide, by decide +kernel⟩
  second := second
  fraction := some ⟨str "25", by decide, by decide +kernel⟩
  widths := ⟨by decide, h.1, h.2.1, by decide, by decide, h.2.2⟩

def lateAugust (second : Numeral) (h : second.text.length = 2) : Stamp :=
  tenOClock ⟨str "08", by decide, by decide +kernel⟩ ⟨str "27", by decide, by decide +kernel⟩ second
    ⟨by decide, by decide, h⟩

def earlySeptember : Stamp :=
  tenOClock ⟨str "09", by decide, by decide +kernel⟩ ⟨str "01", by decide, by decide +kernel⟩
    ⟨str "00", by decide, by decide +kernel⟩ ⟨by decide, by decide, by decide⟩

def firstStamp : Stamp := lateAugust ⟨str "00", by decide, by decide +kernel⟩ (by decide)

def secondStamp : Stamp := lateAugust ⟨str "01", by decide, by decide +kernel⟩ (by decide)

def sentAt (s : Stamp) : UserChat := { UserChat.new with mCreatedAt := s.text }

theorem orderedByTime_second :
    OrderedByTime (sentAt firstStamp) (sentAt secondStamp) firstStamp secondStamp :=
  (orderedByTime_iff (sentAt firstStamp) (sentAt secondStamp) firstStamp secondStamp rfl rfl
    (by decide) (by decide)).mpr
      (Or.inl
        ⟨Prod.Lex.right _ (Prod.Lex.right _ (Prod.Lex.right _ (Prod.Lex.left _ _ (by decide)))),
        ⟨by decide, by decide, by decide, by decide, by decide, by decide, _, rfl, _, rfl,
          by decide, by decide, by decide⟩⟩)

/-- A chat is earlier than itself, and one of August is not earlier than one of September. -/
theorem order_across_months :
    ¬OrderedByTime (sentAt firstStamp) (sentAt firstStamp) firstStamp firstStamp ∧
      ¬OrderedByTime (sentAt firstStamp) (sentAt earlySeptember) firstStamp earlySeptember := by
  constructor
  · rintro ⟨lesser, -, -, hlesser, -, -, hearlier, -⟩
    have hsame : less (sentAt firstStamp) (sentAt firstStamp) = .ok true := by decide +kernel
    rw [hsame] at hlesser
    obtain rfl := Except.ok.inj hlesser
    exact lt_irrefl _ (hearlier.mp rfl)
  · rintro ⟨lesser, -, -, hlesser, -, -, hearlier, -⟩
    have hmonths : less (sentAt firstStamp) (sentAt earlySeptember) = .ok false := by
      decide +kernel
    rw [hmonths] at hlesser
    obtain rfl := Except.ok.inj hlesser
    have hinstant : firstStamp.Earlier earlySeptember :=
      Prod.Lex.left _ _ (Prod.Lex.right _ (Prod.Lex.left _ _ (by decide)))
    exact Bool.false_ne_true (hearlier.mpr hinstant)

end UserChat

end Skype
