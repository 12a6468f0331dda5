import Skype.Library.Decimal

/-!
# Query texts and their tokens

A query is built from texts with a parameter behind each of them, a quoted literal or
a printed integer, and a last text. `tokens` cuts a text into words, numbers, literals
and symbols; the contents of numbers and literals are not part of their tokens. The
tokens of a query are those of its texts with one token for each parameter.
-/

namespace Library.Sql

inductive Token
  | word (text : List UInt8)
  | number
  | literal
  | symbol (byte : UInt8)
  deriving DecidableEq

/-- The token that a scan is inside of. Behind the second quote of a literal the next
byte decides whether the quote was a doubled one. -/
inductive Mode
  | between
  | word (text : List UInt8)
  | minus
  | number
  | literal
  | closing
  deriving DecidableEq

def isLetter (b : UInt8) : Bool := (65 ≤ b && b ≤ 90) || (97 ≤ b && b ≤ 122) || b == 95

def first (b : UInt8) : List Token × Mode :=
  if b = 39 then ([], .literal)
  else if Decimal.isDigit b then ([], .number)
  else if b = 45 then ([], .minus)
  else if isLetter b then ([], .word [b])
  else if Decimal.isSpace b then ([], .between)
  else ([.symbol b], .between)

def Mode.flush : Mode → List Token
  | .between => []
  | .word text => [.word text]
  | .minus => [.symbol 45]
  | .number => [.number]
  | .literal => [.symbol 39]
  | .closing => [.literal]

def Mode.leave (mode : Mode) (b : UInt8) : List Token × Mode :=
  (mode.flush ++ (first b).1, (first b).2)

def Mode.step (mode : Mode) (b : UInt8) : List Token × Mode :=
  match mode with
  | .between => first b
  | .word text =>
    if isLetter b || Decimal.isDigit b then ([], .word (text ++ [b])) else mode.leave b
  | .minus | .number => if Decimal.isDigit b then ([], .number) else mode.leave b
  | .literal => if b = 39 then ([], .closing) else ([], .literal)
  | .closing => if b = 39 then ([], .literal) else mode.leave b

def run : Mode → List UInt8 → List Token × Mode
  | mode, [] => ([], mode)
  | mode, b :: text =>
    let (emitted, mode) := mode.step b
    let (rest, mode) := run mode text
    (emitted ++ rest, mode)

def scan (mode : Mode) (text : List UInt8) : List Token :=
  (run mode text).1 ++ (run mode text).2.flush

def tokens (text : List UInt8) : List Token := scan .between text

theorem run_cons (mode : Mode) (b : UInt8) (text : List UInt8) :
    run mode (b :: text) =
      ((mode.step b).1 ++ (run (mode.step b).2 text).1, (run (mode.step b).2 text).2) := rfl

theorem run_append (mode : Mode) (a b : List UInt8) :
    run mode (a ++ b) = ((run mode a).1 ++ (run (run mode a).2 b).1, (run (run mode a).2 b).2) := by
  induction a generalizing mode with
  | nil => simp [run]
  | cons c a ih => rw [List.cons_append, run_cons, run_cons, ih, List.append_assoc]

theorem scan_append (mode : Mode) (a b : List UInt8) :
    scan mode (a ++ b) = (run mode a).1 ++ scan (run mode a).2 b := by
  rw [scan, run_append, List.append_assoc, scan]

def Ends (text : List UInt8) : Prop := (run .between text).2 = .between

instance (text : List UInt8) : Decidable (Ends text) := inferInstanceAs (Decidable (_ = _))

theorem tokens_append {a : List UInt8} (ha : Ends a) (b : List UInt8) :
    tokens (a ++ b) = tokens a ++ tokens b := by
  have hflush : tokens a = (run .between a).1 := by
    rw [tokens, scan, ha, Mode.flush, List.append_nil]
  rw [hflush, tokens, scan_append, ha, tokens]

/-- The text of a literal, scanned as one token. -/
structure Quoting where
  quote : List UInt8 → List UInt8
  one : ∀ text, run .between (quote text) = ([], .closing)

def doubled (text : List UInt8) : List UInt8 :=
  text.flatMap fun b => if b = 39 then [39, 39] else [b]

theorem run_doubled (text : List UInt8) : run .literal (doubled text) = ([], .literal) := by
  induction text with
  | nil => rfl
  | cons b text ih =>
    rw [doubled, List.flatMap_cons, run_append]
    by_cases hb : b = 39
    · subst hb
      exact ih
    · have hstep : run .literal [b] = ([], .literal) := by simp [run, Mode.step, hb]
      rw [if_neg hb, hstep]
      exact ih

def Quoting.doubling : Quoting where
  quote text := 39 :: (doubled text ++ [39])
  one text := by
    rw [run_cons, run_append]
    have hfirst : Mode.between.step 39 = ([], .literal) := rfl
    rw [hfirst, run_doubled]
    rfl

inductive Param
  | quoted (value : List UInt8)
  | number (value : ℤ)

namespace Param

def text (q : Quoting) : Param → List UInt8
  | .quoted value => q.quote value
  | .number value => Decimal.printInt value

def token : Param → Token
  | .quoted _ => .literal
  | .number _ => .number

def mode : Param → Mode
  | .quoted _ => .closing
  | .number _ => .number

end Param

theorem run_number {ds : List UInt8} (h : ∀ b ∈ ds, Decimal.isDigit b = true) :
    run .number ds = ([], .number) := by
  induction ds with
  | nil => rfl
  | cons b ds ih =>
    have hb : Mode.number.step b = ([], .number) := by
      simp [Mode.step, h b List.mem_cons_self]
    rw [run_cons, hb, ih fun c hc => h c (List.mem_cons_of_mem b hc)]
    rfl

theorem first_digit {b : UInt8} (h : Decimal.isDigit b = true) : first b = ([], .number) := by
  have hquote : b ≠ 39 := by
    rintro rfl
    exact absurd h (by decide)
  rw [first, if_neg hquote, if_pos h]

theorem run_digits {ds : List UInt8} (h : ∀ b ∈ ds, Decimal.isDigit b = true) (hne : ds ≠ []) :
    run .between ds = ([], .number) := by
  cases ds with
  | nil => exact absurd rfl hne
  | cons b ds =>
    have hb : Mode.between.step b = ([], .number) := first_digit (h b List.mem_cons_self)
    rw [run_cons, hb, run_number fun c hc => h c (List.mem_cons_of_mem b hc)]
    rfl

theorem tokens_digits {ds : List UInt8} (h : ∀ b ∈ ds, Decimal.isDigit b = true) (hne : ds ≠ []) :
    tokens ds = [.number] := by
  rw [tokens, scan, run_digits h hne]
  rfl

theorem run_printInt (z : ℤ) : run .between (Decimal.printInt z) = ([], .number) := by
  have hdigits : ∀ b ∈ Decimal.print z.natAbs, Decimal.isDigit b = true := fun b hb =>
    Decimal.isDigit_of_mem_print hb
  have hne := Decimal.print_ne_nil z.natAbs
  rw [Decimal.printInt]
  split
  · cases hds : Decimal.print z.natAbs with
    | nil => exact absurd hds hne
    | cons b ds =>
      rw [hds] at hdigits
      have hminus : Mode.between.step 45 = ([], .minus) := rfl
      have hb : Mode.minus.step b = ([], .number) := by
        simp [Mode.step, hdigits b List.mem_cons_self]
      rw [run_cons, hminus, run_cons, hb,
        run_number fun c hc => hdigits c (List.mem_cons_of_mem b hc)]
      rfl
  · exact run_digits hdigits hne

theorem run_param (q : Quoting) (param : Param) :
    run .between (param.text q) = ([], param.mode) := by
  cases param with
  | quoted value => exact q.one value
  | number value => exact run_printInt value

structure Query where
  params : List (List UInt8 × Param)
  tail : List UInt8

namespace Query

def text (q : Quoting) (query : Query) : List UInt8 :=
  query.params.flatMap (fun part => part.1 ++ part.2.text q) ++ query.tail

def skeleton (query : Query) : List Token :=
  query.params.flatMap (fun part => tokens part.1 ++ [part.2.token]) ++ tokens query.tail

end Query

def Closes (text : List UInt8) : Prop :=
  ∀ b ∈ text.head?, b ≠ 39 ∧ Decimal.isDigit b = false

instance (text : List UInt8) : Decidable (Closes text) :=
  inferInstanceAs (Decidable (∀ b ∈ text.head?, _ ∧ _))

theorem run_closes {b : UInt8} {text : List UInt8} (h : Closes (b :: text)) (param : Param) :
    run param.mode (b :: text) =
      (param.token :: (run .between (b :: text)).1, (run .between (b :: text)).2) := by
  obtain ⟨hquote, hdigit⟩ := h b rfl
  have hleave : param.mode.step b = (param.token :: (first b).1, (first b).2) := by
    cases param with
    | quoted value => exact if_neg hquote
    | number value => simp [Param.mode, Mode.step, Mode.leave, Mode.flush, hdigit, Param.token]
  have hfirst : Mode.between.step b = first b := rfl
  rw [run_cons, run_cons, hleave, hfirst, List.cons_append]

theorem scan_closes {text : List UInt8} (h : Closes text) (param : Param) :
    scan param.mode text = param.token :: tokens text := by
  cases text with
  | nil =>
    cases param with
    | quoted value => rfl
    | number value => rfl
  | cons b text =>
    rw [scan, run_closes h param, List.cons_append, tokens, scan]

/-- Every text leads up to its parameter, and closes the one before it. -/
structure Separated (query : Query) : Prop where
  ends : ∀ part ∈ query.params, part.1 ≠ [] ∧ Ends part.1
  closes : ∀ part ∈ query.params.tail, Closes part.1
  tail : query.params ≠ [] → Closes query.tail

theorem scan_ends {text : List UInt8} (hends : Ends text) (q : Quoting) (param : Param)
    (rest : List UInt8) :
    scan .between (text ++ param.text q ++ rest) = tokens text ++ scan param.mode rest := by
  have htokens : tokens text = (run .between text).1 := by
    rw [tokens, scan, hends, Mode.flush, List.append_nil]
  rw [List.append_assoc, scan_append, hends, scan_append, run_param, List.nil_append, htokens]

/-- The induction is on the parameters; the text of the rest stands behind one of them. -/
theorem scan_params (q : Quoting) {params : List (List UInt8 × Param)} {tail : List UInt8}
    (hends : ∀ part ∈ params, part.1 ≠ [] ∧ Ends part.1)
    (hcloses : ∀ part ∈ params, Closes part.1) (htail : Closes tail) (before : Param) :
    scan before.mode (params.flatMap (fun part => part.1 ++ part.2.text q) ++ tail) =
      before.token ::
        (params.flatMap (fun part => tokens part.1 ++ [part.2.token]) ++ tokens tail) := by
  induction params generalizing before with
  | nil => exact scan_closes htail before
  | cons part params ih =>
    obtain ⟨text, param⟩ := part
    have hrest := ih (fun p hp => hends p (List.mem_cons_of_mem _ hp))
      (fun p hp => hcloses p (List.mem_cons_of_mem _ hp)) param
    obtain ⟨hne, hend⟩ := hends (text, param) List.mem_cons_self
    have hclose := hcloses (text, param) List.mem_cons_self
    obtain ⟨b, text, rfl⟩ := List.exists_cons_of_ne_nil hne
    have hbetween := scan_ends hend q param
      (params.flatMap (fun part => part.1 ++ part.2.text q) ++ tail)
    rw [hrest] at hbetween
    have hswap : ∀ behind, scan before.mode (b :: text ++ behind) =
        before.token :: scan .between (b :: text ++ behind) := by
      intro behind
      rw [scan_append, scan_append, run_closes hclose before, List.cons_append]
    rw [List.flatMap_cons, List.flatMap_cons, List.append_assoc, List.append_assoc, hswap,
      ← List.append_assoc, hbetween]
    simp

theorem tokens_text (q : Quoting) {query : Query} (h : Separated query) :
    tokens (query.text q) = query.skeleton := by
  obtain ⟨params, tail⟩ := query
  cases params with
  | nil => rfl
  | cons part params =>
    obtain ⟨text, param⟩ := part
    have hrest := scan_params q (fun p hp => h.ends p (List.mem_cons_of_mem _ hp)) h.closes
      (h.tail (List.cons_ne_nil _ _)) param
    have hend := (h.ends (text, param) List.mem_cons_self).2
    rw [Query.text, Query.skeleton, tokens, List.flatMap_cons, List.flatMap_cons,
      List.append_assoc, scan_ends hend, hrest]
    simp

namespace Query

def shape (query : Query) : List (List UInt8 × Token) × List UInt8 :=
  (query.params.map fun part => (part.1, part.2.token), query.tail)

theorem skeleton_of_shape {p q : Query} (h : p.shape = q.shape) : p.skeleton = q.skeleton := by
  have hshape : ∀ query : Query, query.skeleton =
      query.shape.1.flatMap (fun part => tokens part.1 ++ [part.2]) ++ tokens query.shape.2 := by
    intro query
    rw [skeleton, shape, List.flatMap_map]
  rw [hshape, hshape, h]

end Query

theorem separated_iff_shape (query : Query) :
    Separated query ↔ (∀ text ∈ query.shape.1.map Prod.fst, text ≠ [] ∧ Ends text) ∧
      (∀ text ∈ (query.shape.1.map Prod.fst).tail, Closes text) ∧
        (query.shape.1 ≠ [] → Closes query.shape.2) := by
  have htexts : query.shape.1.map Prod.fst = query.params.map Prod.fst := by
    rw [Query.shape, List.map_map]
    rfl
  have hnil : query.shape.1 ≠ [] ↔ query.params ≠ [] := by
    rw [Query.shape, Ne, List.map_eq_nil_iff]
  rw [htexts, hnil, ← List.map_tail]
  constructor
  · intro h
    exact ⟨List.forall_mem_map.mpr h.ends, List.forall_mem_map.mpr h.closes, h.tail⟩
  · rintro ⟨hends, hcloses, htail⟩
    exact ⟨List.forall_mem_map.mp hends, List.forall_mem_map.mp hcloses, htail⟩

instance (query : Query) : Decidable (Separated query) :=
  decidable_of_iff _ (separated_iff_shape query).symm

theorem separated_of_shape {p q : Query} (h : p.shape = q.shape) (hq : Separated q) :
    Separated p := by
  rw [separated_iff_shape] at hq ⊢
  rw [h]
  exact hq

theorem tokens_text_of_shape (quoting : Quoting) {p q : Query} (h : p.shape = q.shape)
    (hq : Separated q) : tokens (p.text quoting) = q.skeleton := by
  rw [tokens_text quoting (separated_of_shape h hq), Query.skeleton_of_shape h]

end Library.Sql
