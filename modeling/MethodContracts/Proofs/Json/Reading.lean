import MethodContracts.Json.Printer
import MethodContracts.Json.Reader

/-!
# Reading texts of JSON values

The texts of a value are its tokens in order with any white space between them. From each
of them the reader gets the value back, as long as the value does not nest too deep and its
numbers are integers of 64 bits.
-/
namespace MethodContracts.Json

open Text

namespace Reader

open Text.Reader

/-! ## Readers on texts that start as they expect -/

/-- The reader takes the value from the front of the text and leaves the rest. -/
def Reads {α : Type} (reader : Reader α) (cs : List Char) (value : α) (rest : List Char) : Prop :=
  reader cs = some (value, rest)

variable {α β : Type} {cs middle rest : List Char}

theorem Reads.pure (value : α) (cs : List Char) : Reads (Pure.pure value) cs value cs := rfl

theorem Reads.bind {reader : Reader α} {next : α → Reader β} {value : α} {result : β}
    (first : Reads reader cs value middle) (after : Reads (next value) middle result rest) :
    Reads (reader >>= next) cs result rest := by
  have steps : (reader >>= next) cs = (reader cs).bind fun taken => next taken.1 taken.2 := rfl
  rw [Reads, steps, first]
  exact after

private theorem reads_get (cs : List Char) : Reads get cs cs cs := rfl

private theorem reads_set (cs rest : List Char) : Reads (set rest) cs () rest := rfl

theorem Reads.discard {reader : Reader α} {value : α} (reads : Reads reader cs value rest) :
    Reads (discard reader) cs () rest := by
  have step : (Functor.discard reader) cs = (reader cs).bind fun taken => some ((), taken.2) := rfl
  rw [Reads, step, reads]
  rfl

private theorem reads_satisfy {p : Char → Bool} {c : Char} (fits : p c = true) (rest : List Char) :
    Reads (satisfy p) (c :: rest) c rest := by
  rw [Reads, satisfy, if_pos fits]

private theorem reads_expect (c : Char) (rest : List Char) : Reads (expect c) (c :: rest) () rest :=
  (reads_satisfy (beq_self_eq_true c) rest).discard

private theorem reads_expectAll (front rest : List Char) :
    Reads (expectAll front) (front ++ rest) () rest := by
  induction front with
  | nil => exact Reads.pure () rest
  | cons c front ih => exact (reads_expect c (front ++ rest)).bind ih

/-- The next character, if there is one, does not satisfy `p`. -/
def Stops (p : Char → Bool) (cs : List Char) : Prop := ∀ c ∈ cs.head?, p c = false

theorem Stops.nil (p : Char → Bool) : Stops p [] := by
  rintro c ⟨⟩

private theorem reads_accept_found (c : Char) (rest : List Char) :
    Reads (accept c) (c :: rest) true rest := by
  simp [Reads, accept]

private theorem reads_accept_missing {c : Char} (other : Stops (· == c) cs) :
    Reads (accept c) cs false cs := by
  cases cs with
  | nil => rfl
  | cons d cs =>
    have different : d ≠ c := by simpa using other d rfl
    simp [Reads, accept, different]

private theorem takeWhile_append_stops {p : Char → Bool} {front : List Char}
    (all : ∀ c ∈ front, p c = true) (stops : Stops p rest) :
    (front ++ rest).takeWhile p = front ∧ (front ++ rest).dropWhile p = rest := by
  have nothing : rest.takeWhile p = [] ∧ rest.dropWhile p = rest := by
    cases rest with
    | nil => exact ⟨rfl, rfl⟩
    | cons c rest => simp [stops c rfl]
  rw [List.takeWhile_append_of_pos all, List.dropWhile_append_of_pos all, nothing.1, nothing.2,
    List.append_nil]
  exact ⟨rfl, rfl⟩

private theorem reads_takeWhile1 {p : Char → Bool} {front : List Char} (inhabited : front ≠ [])
    (all : ∀ c ∈ front, p c = true) (stops : Stops p rest) :
    Reads (takeWhile1 p) (front ++ rest) front rest := by
  obtain ⟨taken, left⟩ := takeWhile_append_stops all stops
  have start : Reads (takeWhile p) (front ++ rest) front rest := by
    rw [Reads, Text.Reader.takeWhile, taken, left]
  apply start.bind
  have full : front.isEmpty = false := List.isEmpty_eq_false_iff.mpr inhabited
  simp only [full]
  exact Reads.pure _ _

/-! ## White space -/

/-- White space that may stand between tokens. -/
def Blank (cs : List Char) : Prop := ∀ c ∈ cs, isSpace c = true

instance (cs : List Char) : Decidable (Blank cs) :=
  decidable_of_iff (cs.all isSpace = true) List.all_eq_true

theorem Blank.nil : Blank [] := List.forall_mem_nil _

theorem Blank.append {before after : List Char} (first : Blank before) (second : Blank after) :
    Blank (before ++ after) :=
  List.forall_mem_append.mpr ⟨first, second⟩

private theorem reads_skipSpace {blank : List Char} (isBlank : Blank blank)
    (stops : Stops isSpace rest) : Reads skipSpace (blank ++ rest) () rest := by
  obtain ⟨_, left⟩ := takeWhile_append_stops isBlank stops
  have step : skipSpace (blank ++ rest) = some ((), (blank ++ rest).dropWhile isSpace) := rfl
  rw [Reads, step, left]

/-! ## Strings -/

private theorem reads_takeExactly {p : Char → Bool} (front rest : List Char)
    (all : ∀ c ∈ front, p c = true) :
    Reads (takeExactly p front.length) (front ++ rest) front rest := by
  induction front with
  | nil => exact Reads.pure [] rest
  | cons c front ih =>
    have first := reads_satisfy (all c List.mem_cons_self) (front ++ rest)
    exact first.bind ((ih fun other member => all other (List.mem_cons_of_mem _ member)).bind
      (Reads.pure _ _))

/-- Control characters are written with the last two of four digits. -/
private theorem hex_of_control : ∀ n < 0x20,
    isDigitOf 16 (hexDigit (n / 16)) = true ∧ isDigitOf 16 (hexDigit n) = true ∧
      ofDigits 16 ['0', '0', hexDigit (n / 16), hexDigit n] = n := by decide

private theorem reads_unicodeEscape {c : Char} (control : c.val.toNat < 0x20) (rest : List Char) :
    Reads unicodeEscape
      (['0', '0', hexDigit (c.val.toNat / 16), hexDigit c.val.toNat] ++ rest) c rest := by
  obtain ⟨high, low, number⟩ := hex_of_control _ control
  have digits : ∀ d ∈ ['0', '0', hexDigit (c.val.toNat / 16), hexDigit c.val.toNat],
      isDigitOf 16 d = true := by
    simp only [List.forall_mem_cons]
    exact ⟨by decide, by decide, high, low, List.forall_mem_nil _⟩
  have taken : Reads hex4
      (['0', '0', hexDigit (c.val.toNat / 16), hexDigit c.val.toNat] ++ rest)
      c.val.toNat rest := by
    have read : Reads hex4
        (['0', '0', hexDigit (c.val.toNat / 16), hexDigit c.val.toNat] ++ rest)
        (ofDigits 16 ['0', '0', hexDigit (c.val.toNat / 16), hexDigit c.val.toNat]) rest :=
      (reads_takeExactly _ rest digits).bind (Reads.pure _ rest)
    rwa [number] at read
  apply taken.bind
  -- No control character is one of a pair.
  have below : ¬0xD800 ≤ c.val.toNat := by omega
  have notLow : ¬0xDC00 ≤ c.val.toNat := by omega
  simp only [below, notLow, false_and, ite_false]
  have same : Char.ofNat c.val.toNat = c := Char.ofNat_toNat c
  rw [same]
  exact Reads.pure _ _

private theorem reads_stringRest_end (limit : Nat) (rest : List Char) :
    Reads (stringRest (limit + 1)) ('"' :: rest) [] rest := rfl

section

variable {c : Char} {text tail : List Char} {limit : Nat}

private theorem reads_stringRest_plain (quote : c ≠ '"') (backslash : c ≠ '\\')
    (printed : ¬c.val.toNat < 0x20) (others : Reads (stringRest limit) text tail rest) :
    Reads (stringRest (limit + 1)) (c :: text) (c :: tail) rest := by
  apply (reads_get _).bind
  apply (reads_set _ text).bind
  simp only [quote, backslash, printed, ite_false]
  exact others.bind (Reads.pure _ _)

private theorem reads_stringRest_escape {escape : List Char} (one : Reads escaped escape c text)
    (others : Reads (stringRest limit) text tail rest) :
    Reads (stringRest (limit + 1)) ('\\' :: escape) (c :: tail) rest := by
  apply (reads_get _).bind
  apply (reads_set _ escape).bind
  exact one.bind (others.bind (Reads.pure _ _))

/-- A character stands in a string as itself, by a letter, or by its number. -/
private theorem escapeChar_cases (c : Char) :
    (∃ letter, escapeChar c = ['\\', letter] ∧ ∀ rest, Reads escaped (letter :: rest) c rest) ∨
      (c.val.toNat < 0x20 ∧ escapeChar c =
        ['\\', 'u', '0', '0', hexDigit (c.val.toNat / 16), hexDigit c.val.toNat]) ∨
      c ≠ '"' ∧ c ≠ '\\' ∧ ¬c.val.toNat < 0x20 ∧ escapeChar c = [c] := by
  -- Characters with an escape of their own, the other control characters, and all the rest.
  by_cases lettered : c ∈ ['"', '\\', '\n', '\r', '\t', '\x08', '\x0c']
  · simp only [List.mem_cons, List.not_mem_nil, or_false] at lettered
    rcases lettered with rfl | rfl | rfl | rfl | rfl | rfl | rfl <;>
      exact Or.inl ⟨_, rfl, fun _ => rfl⟩
  · simp only [List.mem_cons, List.not_mem_nil, or_false, not_or] at lettered
    by_cases control : c.val.toNat < 0x20
    · exact Or.inr (Or.inl ⟨control,
        by simp only [escapeChar, lettered, control, ite_false, ite_true]⟩)
    · exact Or.inr (Or.inr ⟨lettered.1, lettered.2.1, control,
        by simp only [escapeChar, lettered, control, ite_false]⟩)

/-- A character is read back from the way it is written inside a string. -/
private theorem reads_stringRest_cons (c : Char)
    (others : Reads (stringRest limit) text tail rest) :
    Reads (stringRest (limit + 1)) (escapeChar c ++ text) (c :: tail) rest := by
  rcases escapeChar_cases c with ⟨letter, written, read⟩ | ⟨control, written⟩ |
    ⟨quote, backslash, printed, written⟩ <;> rw [written]
  · exact reads_stringRest_escape (read text) others
  · have escape : Reads escaped
        ('u' :: (['0', '0', hexDigit (c.val.toNat / 16), hexDigit c.val.toNat] ++ text)) c text :=
      reads_unicodeEscape control text
    exact reads_stringRest_escape escape others
  · exact reads_stringRest_plain quote backslash printed others

end

private theorem reads_stringRest (chars : List Char) {limit : Nat} (enough : chars.length < limit)
    (rest : List Char) :
    Reads (stringRest limit) (chars.flatMap escapeChar ++ '"' :: rest) chars rest := by
  induction chars generalizing limit with
  | nil =>
    obtain ⟨limit, rfl⟩ := Nat.exists_eq_succ_of_ne_zero (Nat.ne_of_gt enough)
    exact reads_stringRest_end limit rest
  | cons c chars ih =>
    obtain ⟨limit, rfl⟩ := Nat.exists_eq_succ_of_ne_zero (Nat.ne_of_gt (Nat.zero_lt_of_lt enough))
    rw [List.flatMap_cons, List.append_assoc]
    exact reads_stringRest_cons c (ih (Nat.lt_of_succ_lt_succ enough))

private theorem length_le_escaped (chars : List Char) :
    chars.length ≤ (chars.flatMap escapeChar).length := by
  induction chars with
  | nil => exact Nat.le_refl 0
  | cons c chars ih =>
    have one : 1 ≤ (escapeChar c).length := by
      rcases escapeChar_cases c with ⟨_, written, _⟩ | ⟨_, written⟩ | ⟨_, _, _, written⟩ <;>
        simp [written]
    rw [List.flatMap_cons, List.length_append, List.length_cons]
    omega

private theorem toList_quote (text : String) :
    (quote text).toList = '"' :: (text.toList.flatMap escapeChar ++ ['"']) := by
  simp [quote]

private theorem reads_string (text : String) (rest : List Char) :
    Reads string ((quote text).toList ++ rest) text rest := by
  have written : (quote text).toList ++ rest =
      '"' :: (text.toList.flatMap escapeChar ++ '"' :: rest) := by
    simp [toList_quote]
  rw [written]
  apply (reads_expect '"' _).bind
  apply (reads_get _).bind
  -- The reader may go on for as many characters as are left, and each is written as at least one.
  have enough : text.toList.length < (text.toList.flatMap escapeChar ++ '"' :: rest).length := by
    have shorter := length_le_escaped text.toList
    rw [List.length_append, List.length_cons]
    omega
  apply (reads_stringRest text.toList enough rest).bind
  rw [String.ofList_toList]
  exact Reads.pure _ _

/-! ## Numbers -/

private theorem digitChar_decimal : ∀ d < 10,
    isDigitOf 10 (Nat.digitChar d) = true ∧ digitValue? (Nat.digitChar d) = some d := by decide

/-- What a decimal number is written as, is read as that number. -/
private theorem ofDigits_toDigits (n : Nat) : ofDigits 10 (Nat.toDigits 10 n) = n := by
  induction n using Nat.base_induction 10 (by decide) with
  | single d small =>
    simp only [Nat.toDigits_of_lt_base small, ofDigits, List.foldl_cons, List.foldl_nil,
      (digitChar_decimal d small).2, Option.getD_some]
    omega
  | digit n d small positive ih =>
    rw [← Nat.toDigits_append_toDigits (by decide) positive small,
      Nat.toDigits_of_lt_base small]
    rw [ofDigits] at ih ⊢
    rw [List.foldl_append, ih]
    simp only [List.foldl_cons, List.foldl_nil, (digitChar_decimal d small).2, Option.getD_some]
    omega

private theorem isDigitOf_toDigits (n : Nat) : ∀ c ∈ Nat.toDigits 10 n, isDigitOf 10 c = true := by
  induction n using Nat.base_induction 10 (by decide) with
  | single d small =>
    rw [Nat.toDigits_of_lt_base small]
    exact List.forall_mem_singleton.mpr (digitChar_decimal d small).1
  | digit n d small positive ih =>
    rw [← Nat.toDigits_append_toDigits (by decide) positive small, Nat.toDigits_of_lt_base small]
    exact List.forall_mem_append.mpr
      ⟨ih, List.forall_mem_singleton.mpr (digitChar_decimal d small).1⟩

private theorem exists_digit (n : Nat) :
    ∃ c digits, Nat.toDigits 10 n = c :: digits ∧ isDigitOf 10 c = true := by
  cases written : Nat.toDigits 10 n with
  | nil => exact absurd written Nat.toDigits_ne_nil
  | cons c digits =>
    exact ⟨c, digits, rfl, isDigitOf_toDigits n c (written ▸ List.mem_cons_self)⟩

/-- Only zero starts with the digit zero. -/
private theorem head_toDigits {n : Nat} (positive : 0 < n) :
    ∀ c ∈ (Nat.toDigits 10 n).head?, c ≠ '0' := by
  induction n using Nat.base_induction 10 (by decide) with
  | single d small =>
    have nonzero : ∀ d < 10, 0 < d → Nat.digitChar d ≠ '0' := by decide
    rw [Nat.toDigits_of_lt_base small]
    intro c first
    cases first
    exact nonzero d small positive
  | digit n d small leading ih =>
    rw [← Nat.toDigits_append_toDigits (by decide) leading small]
    cases written : Nat.toDigits 10 n with
    | nil => exact absurd written Nat.toDigits_ne_nil
    | cons c digits =>
      rw [written] at ih
      exact ih leading

/-- A character that goes on with a number. -/
def continuesNumber (c : Char) : Bool := isDigitOf 10 c || c == '.' || c == 'e' || c == 'E'

private theorem reads_wholeDigits (n : Nat) (stops : Stops continuesNumber rest) :
    Reads wholeDigits (Nat.toDigits 10 n ++ rest) (Nat.toDigits 10 n) rest := by
  have noDigit : Stops (isDigitOf 10) rest := by
    intro c first
    have ends := stops c first
    simp only [continuesNumber, Bool.or_eq_false_iff] at ends
    exact ends.1.1.1
  apply (reads_takeWhile1 Nat.toDigits_ne_nil (isDigitOf_toDigits n) noDigit).bind
  cases Nat.eq_zero_or_pos n with
  | inl zero =>
    subst zero
    rw [Nat.toDigits_zero]
    exact Reads.pure _ _
  | inr positive =>
    -- The reader refuses a zero in front of other digits.
    have leading := head_toDigits positive
    split
    next zero => exact absurd rfl (leading '0' (by rw [zero]; rfl))
    next zero => exact absurd rfl (leading '0' (by rw [zero]; rfl))
    next => exact Reads.pure _ _

private theorem reads_fraction (stops : Stops continuesNumber rest) :
    Reads fraction rest [] rest := by
  have noPoint : Stops (· == '.') rest := by
    intro c first
    have ends := stops c first
    simp only [continuesNumber, Bool.or_eq_false_iff] at ends
    exact ends.1.1.2
  exact (reads_accept_missing noPoint).bind (Reads.pure _ _)

private theorem reads_peek (cs : List Char) : Reads peek? cs cs.head? cs := rfl

private theorem reads_exponent (stops : Stops continuesNumber rest) :
    Reads exponent rest [] rest := by
  apply (reads_peek rest).bind
  cases rest with
  | nil => exact Reads.pure _ _
  | cons c rest =>
    have ends := stops c rfl
    simp only [continuesNumber, Bool.or_eq_false_iff, beq_eq_false_iff_ne, ne_eq] at ends
    simp only [List.head?_cons, ends, or_self, ite_false]
    exact Reads.pure _ _

end Reader

/-- Integers that are kept as integers. -/
def Fits (n : Int) : Prop := -(Nat.pow 2 63 : Nat) ≤ n ∧ n < (Nat.pow 2 64 : Nat)

namespace Reader

open Text.Reader

private theorem numberOf_nat {n : Nat} (fits : Fits n) :
    numberOf false (Nat.toDigits 10 n) [] [] = .int n := by
  have below : n < Nat.pow 2 64 := Int.ofNat_lt.mp fits.2
  simp only [numberOf, ofDigits_toDigits, Bool.false_eq_true, ite_false, List.isEmpty_nil,
    Bool.and_self, below, decide_true, ite_true]

private theorem numberOf_neg {n : Nat} (positive : 0 < n) (fits : Fits (-n)) :
    numberOf true (Nat.toDigits 10 n) [] [] = .int (-n) := by
  have below : n ≤ Nat.pow 2 63 := Int.ofNat_le.mp (Int.neg_le_neg_iff.mp fits.1)
  have nonzero : (n != 0) = true := bne_iff_ne.mpr (Nat.ne_of_gt positive)
  simp only [numberOf, ofDigits_toDigits, ite_true, List.isEmpty_nil, Bool.and_self, nonzero, below,
    decide_true]

private theorem toList_toString_nat (n : Nat) :
    (toString (Int.ofNat n)).toList = Nat.toDigits 10 n :=
  Nat.toList_repr

private theorem toList_toString_neg (n : Nat) :
    (toString (Int.negSucc n)).toList = '-' :: Nat.toDigits 10 (n + 1) := by
  have signed : toString (Int.negSucc n) = "-" ++ (n + 1).repr := rfl
  rw [signed, String.toList_append, Nat.toList_repr]
  rfl

/-- An integer is read back, if what follows does not go on with it. -/
private theorem reads_number (n : Int) (fits : Fits n) (stops : Stops continuesNumber rest) :
    Reads number ((toString n).toList ++ rest) (.int n) rest := by
  -- Behind the sign both kinds of integers are read alike.
  have unsigned (negative : Bool) (m : Nat) {json : Json}
      (same : numberOf negative (Nat.toDigits 10 m) [] [] = json) :
      Reads (do
        let whole ← wholeDigits
        let fraction ← fraction
        let exponent ← exponent
        return numberOf negative whole fraction exponent)
        (Nat.toDigits 10 m ++ rest) json rest := by
    apply (reads_wholeDigits m stops).bind
    apply (reads_fraction stops).bind
    apply (reads_exponent stops).bind
    rw [same]
    exact Reads.pure _ _
  cases n with
  | ofNat n =>
    have noSign : Stops (· == '-') (Nat.toDigits 10 n ++ rest) := by
      obtain ⟨d, digits, written, isDigit⟩ := exists_digit n
      intro c first
      rw [written] at first
      cases first
      rw [beq_eq_false_iff_ne]
      rintro rfl
      cases isDigit
    rw [toList_toString_nat]
    exact (reads_accept_missing noSign).bind (unsigned false n (numberOf_nat fits))
  | negSucc n =>
    rw [toList_toString_neg]
    exact (reads_accept_found '-' _).bind
      (unsigned true (n + 1) (numberOf_neg n.succ_pos fits))

end Reader

/-! ## What may be written for a value -/

/-- The text of a value that nests nothing. -/
def WritesScalar : Json → List Char → Prop
  | .null, cs => cs = ['n', 'u', 'l', 'l']
  | .bool true, cs => cs = ['t', 'r', 'u', 'e']
  | .bool false, cs => cs = ['f', 'a', 'l', 's', 'e']
  | .int n, cs => Fits n ∧ cs = (toString n).toList
  | .string text, cs => cs = (quote text).toList
  | _, _ => False

/-- A text with white space around it. -/
def Padded {α : Type} (writes : α → List Char → Prop) (value : α) (cs : List Char) : Prop :=
  ∃ before core after, Reader.Blank before ∧ writes value core ∧ Reader.Blank after ∧
    cs = before ++ core ++ after

/-- A name, a colon and a value, with white space around each. -/
def WritesMember (writes : Json → List Char → Prop) (member : String × Json) (cs : List Char) :
    Prop :=
  ∃ before between text, Reader.Blank before ∧ Reader.Blank between ∧
    Padded writes member.2 text ∧ cs = before ++ (quote member.1).toList ++ between ++ ':' :: text

/-- Some texts with commas between them. -/
inductive Separated {α : Type} (piece : α → List Char → Prop) : List α → List Char → Prop where
  | last {value : α} {cs : List Char} : piece value cs → Separated piece [value] cs
  | more {value : α} {cs rest : List Char} {values : List α} : piece value cs →
    Separated piece values rest → Separated piece (value :: values) (cs ++ ',' :: rest)

section

variable {α : Type} {piece : α → List Char → Prop} {values : List α} {cs : List Char}

theorem Separated.length_le (separated : Separated piece values cs) :
    values.length ≤ cs.length + 1 := by
  induction separated with
  | last => simp
  | more _ _ ih =>
    rw [List.length_cons, List.length_append, List.length_cons]
    omega

/-- Texts start with another character than this one, after white space. -/
def Opens (closing : Char) (piece : α → List Char → Prop) : Prop :=
  ∀ value cs, piece value cs → ∃ blank c tail, cs = blank ++ c :: tail ∧ Reader.Blank blank ∧
    Reader.isSpace c = false ∧ c ≠ closing ∧ piece value (c :: tail)

theorem Separated.opens {closing : Char} (opens : Opens closing piece)
    (separated : Separated piece values cs) :
    ∃ blank c tail, cs = blank ++ c :: tail ∧ Reader.Blank blank ∧ Reader.isSpace c = false ∧
      c ≠ closing ∧ Separated piece values (c :: tail) := by
  cases separated with
  | last written =>
    obtain ⟨blank, c, tail, rfl, isBlank, dense, other, trimmed⟩ := opens _ _ written
    exact ⟨blank, c, tail, rfl, isBlank, dense, other, .last trimmed⟩
  | @more value cs rest values written others =>
    obtain ⟨blank, c, tail, rfl, isBlank, dense, other, trimmed⟩ := opens _ _ written
    exact ⟨blank, c, tail ++ ',' :: rest, by simp, isBlank, dense, other, .more trimmed others⟩

end

/-- Texts with commas between them, or nothing but white space. -/
def Listed {α : Type} (piece : α → List Char → Prop) (values : List α) (cs : List Char) : Prop :=
  values = [] ∧ Reader.Blank cs ∨ Separated piece values cs

/-- The text is one of a value that nests at most `depth` deep. -/
def Writes : Nat → Json → List Char → Prop
  | depth + 1, .array items, cs =>
    ∃ inner, Listed (Padded (Writes depth)) items inner ∧ cs = '[' :: inner ++ [']']
  | depth + 1, .object members, cs =>
    ∃ inner, Listed (WritesMember (Writes depth)) members inner ∧ cs = '\x7b' :: inner ++ ['\x7d']
  | _, json, cs => WritesScalar json cs

namespace Reader

open Text.Reader

private theorem continuesNumber_of_isSpace {c : Char} (space : isSpace c = true) :
    continuesNumber c = false := by
  simp only [isSpace, Bool.or_eq_true, beq_iff_eq] at space
  rcases space with ((rfl | rfl) | rfl) | rfl <;> decide

theorem Blank.stops {blank : List Char} (isBlank : Blank blank)
    (ends : Stops continuesNumber rest) : Stops continuesNumber (blank ++ rest) := by
  cases blank with
  | nil => exact ends
  | cons space blank =>
    intro c first
    cases first
    exact continuesNumber_of_isSpace (isBlank _ List.mem_cons_self)

/-! ## Values that nest nothing -/

private theorem exists_head_int (n : Int) :
    ∃ c tail, (toString n).toList = c :: tail ∧ (isDigitOf 10 c = true ∨ c = '-') := by
  cases n with
  | ofNat n =>
    obtain ⟨c, digits, written, isDigit⟩ := exists_digit n
    exact ⟨c, digits, (toList_toString_nat n).trans written, Or.inl isDigit⟩
  | negSucc n => exact ⟨'-', _, toList_toString_neg n, Or.inr rfl⟩

private theorem not_mem_of_start {c : Char} (start : isDigitOf 10 c = true ∨ c = '-')
    {others : List Char}
    (apart : others.all (fun d => !isDigitOf 10 d && d != '-') = true) : c ∉ others := by
  intro member
  have other := List.all_eq_true.mp apart c member
  rcases start with isDigit | rfl
  · rw [isDigit] at other
    cases other
  · cases other

/-- A value that nests nothing starts with no white space and no bracket. -/
private theorem exists_head_scalar {json : Json} {cs : List Char} (written : WritesScalar json cs) :
    ∃ c tail, cs = c :: tail ∧ isSpace c = false ∧ c ∉ ['[', ']', '\x7b', '\x7d'] := by
  unfold WritesScalar at written
  split at written
  next => exact ⟨_, _, written, by decide, by decide⟩
  next => exact ⟨_, _, written, by decide, by decide⟩
  next => exact ⟨_, _, written, by decide, by decide⟩
  next n =>
    obtain ⟨c, tail, head, start⟩ := exists_head_int n
    have dense : c ∉ [' ', '\n', '\t', '\r'] := not_mem_of_start start (by decide)
    refine ⟨c, tail, written.2.trans head, ?_, not_mem_of_start start (by decide)⟩
    simpa [isSpace, and_assoc] using dense
  next text => exact ⟨_, _, written.trans (toList_quote text), by decide, by decide⟩
  next => exact written.elim

private theorem reads_scalar {json : Json} (written : WritesScalar json cs)
    (stops : Stops continuesNumber rest) : Reads scalar (cs ++ rest) json rest := by
  unfold WritesScalar at written
  split at written
  next =>
    subst written
    exact (reads_peek _).bind ((reads_expectAll ['n', 'u', 'l', 'l'] rest).bind (Reads.pure _ _))
  next =>
    subst written
    exact (reads_peek _).bind ((reads_expectAll ['t', 'r', 'u', 'e'] rest).bind (Reads.pure _ _))
  next =>
    subst written
    exact (reads_peek _).bind
      ((reads_expectAll ['f', 'a', 'l', 's', 'e'] rest).bind (Reads.pure _ _))
  next n =>
    obtain ⟨fits, rfl⟩ := written
    have number := reads_number n fits stops
    obtain ⟨c, tail, head, start⟩ := exists_head_int n
    have other : c ∉ ['"', 't', 'f', 'n'] := not_mem_of_start start (by decide)
    rw [head] at number ⊢
    apply (reads_peek _).bind
    simp only [List.cons_append, List.head?_cons]
    split
    case h_1 same | h_2 same | h_3 same | h_4 same =>
      cases same
      exact absurd (by decide) other
    case h_5 => exact number
  next text =>
    subst written
    have string := reads_string text rest
    rw [toList_quote] at string ⊢
    exact (reads_peek _).bind (string.bind (Reads.pure _ _))
  next => exact written.elim

/-! ## Lists -/

/-- What follows goes on neither with a number nor with white space. -/
structure Ends (cs : List Char) : Prop where
  number : Stops continuesNumber cs
  space : Stops isSpace cs

section

variable {item : Reader α} {piece : α → List Char → Prop} {values : List α}

private theorem reads_separatedWithin
    (each : ∀ value cs rest, piece value cs → Ends rest → Reads item (cs ++ rest) value rest)
    (separated : Separated piece values cs) (ends : Ends rest) (comma : Stops (· == ',') rest)
    {limit : Nat} (enough : values.length ≤ limit) :
    Reads (separatedWithin ',' item limit) (cs ++ rest) values rest := by
  induction separated generalizing limit with
  | last written =>
    obtain ⟨limit, rfl⟩ := Nat.exists_eq_succ_of_ne_zero (Nat.ne_of_gt enough)
    apply (each _ _ rest written ends).bind
    exact (reads_accept_missing comma).bind (Reads.pure _ _)
  | @more value cs later values written others ih =>
    obtain ⟨limit, rfl⟩ := Nat.exists_eq_succ_of_ne_zero (Nat.ne_of_gt (Nat.zero_lt_of_lt enough))
    -- Behind a value that is not the last one stands a comma, which ends every value.
    have next : Ends (',' :: (later ++ rest)) := ⟨by rintro c ⟨⟩; decide, by rintro c ⟨⟩; decide⟩
    rw [List.append_assoc]
    apply (each _ _ _ written next).bind
    apply (reads_accept_found ',' _).bind
    exact (ih (Nat.le_of_succ_le_succ enough)).bind (Reads.pure _ _)

theorem Ends.of_cons {c : Char} (dense : isSpace c = false) (closes : continuesNumber c = false)
    (rest : List Char) : Ends (c :: rest) :=
  ⟨by rintro d ⟨⟩; exact closes, by rintro d ⟨⟩; exact dense⟩

/-- A list between brackets is read, if each of its pieces is. -/
private theorem reads_enclosed {opening closing : Char} {make : List α → Json} {inner : List Char}
    (each : ∀ value cs rest, piece value cs → Ends rest → Reads item (cs ++ rest) value rest)
    (opens : Opens closing piece) (dense : isSpace closing = false)
    (closes : continuesNumber closing = false) (apart : closing ≠ ',')
    (listed : Listed piece values inner) (rest : List Char) :
    Reads (do
      expect opening
      skipSpace
      if ← accept closing then return make []
      let items ← separated ',' item
      expect closing
      return make items) (opening :: (inner ++ closing :: rest)) (make values) rest := by
  apply (reads_expect opening _).bind
  rcases listed with ⟨rfl, blank⟩ | separated
  · have stops : Stops isSpace (closing :: rest) := (Ends.of_cons dense closes rest).space
    apply (reads_skipSpace blank stops).bind
    exact (reads_accept_found closing rest).bind (Reads.pure _ _)
  -- White space is skipped before it is known whether the list is empty, so the first piece
  -- is read without it.
  · obtain ⟨blank, c, tail, rfl, isBlank, first, other, trimmed⟩ := separated.opens opens
    have stops : Stops isSpace (c :: tail ++ closing :: rest) := by
      rintro d ⟨⟩
      exact first
    have missing : Stops (· == closing) (c :: tail ++ closing :: rest) := by
      rintro d ⟨⟩
      exact beq_false_of_ne other
    have comma : Stops (· == ',') (closing :: rest) := by
      rintro d ⟨⟩
      exact beq_false_of_ne apart
    have enough : values.length ≤ (c :: tail ++ closing :: rest).length + 1 := by
      have counted := trimmed.length_le
      rw [List.length_append]
      omega
    rw [List.append_assoc]
    apply (reads_skipSpace isBlank stops).bind
    apply (reads_accept_missing missing).bind
    apply Reads.bind ((reads_get _).bind (reads_separatedWithin each trimmed
      (Ends.of_cons dense closes rest) comma enough))
    exact (reads_expect closing rest).bind (Reads.pure _ _)

end

/-! ## Nested values -/

section

variable {nested : Reader Json} {writes : Json → List Char → Prop}

/-- Texts of values, as far as a reader of lists sees them. -/
structure Readable (nested : Reader Json) (writes : Json → List Char → Prop) : Prop where
  reads : ∀ json cs, writes json cs → ∀ blank rest, Blank blank → Stops continuesNumber rest →
    Reads nested (blank ++ cs ++ rest) json rest
  opens : ∀ json cs, writes json cs →
    ∃ c tail, cs = c :: tail ∧ isSpace c = false ∧ c ≠ ']' ∧ c ≠ '\x7d'

private theorem reads_item (readable : Readable nested writes) (json : Json) (cs rest : List Char)
    (padded : Padded writes json cs) (ends : Ends rest) :
    Reads (item nested) (cs ++ rest) json rest := by
  obtain ⟨before, core, after, beforeBlank, written, afterBlank, rfl⟩ := padded
  have value := readable.reads json core written before (after ++ rest) beforeBlank
    (afterBlank.stops ends.number)
  rw [List.append_assoc _ after]
  exact value.bind ((reads_skipSpace afterBlank ends.space).bind (Reads.pure _ _))

private theorem reads_member (readable : Readable nested writes) (named : String × Json)
    (cs rest : List Char) (written : WritesMember writes named cs) (ends : Ends rest) :
    Reads (member nested) (cs ++ rest) named rest := by
  obtain ⟨before, between, text, beforeBlank, betweenBlank, padded, rfl⟩ := written
  have value := reads_item readable named.2 text rest padded ends
  have name := reads_string named.1 (between ++ ':' :: (text ++ rest))
  have quoted : Stops isSpace ((quote named.1).toList ++ (between ++ ':' :: (text ++ rest))) := by
    rw [toList_quote]
    rintro c ⟨⟩
    decide
  have colon : Stops isSpace (':' :: (text ++ rest)) := by
    rintro c ⟨⟩
    decide
  simp only [List.append_assoc, List.cons_append]
  apply (reads_skipSpace beforeBlank quoted).bind
  apply name.bind
  apply (reads_skipSpace betweenBlank colon).bind
  apply (reads_expect ':' _).bind
  exact value.bind (Reads.pure _ _)

private theorem opens_item (readable : Readable nested writes) : Opens ']' (Padded writes) := by
  rintro json cs ⟨before, core, after, beforeBlank, written, afterBlank, rfl⟩
  obtain ⟨c, tail, rfl, dense, bracket, _⟩ := readable.opens json core written
  exact ⟨before, c, tail ++ after, by simp, beforeBlank, dense, bracket,
    [], c :: tail, after, Blank.nil, written, afterBlank, rfl⟩

private theorem opens_member : Opens '\x7d' (WritesMember writes) := by
  rintro named cs ⟨before, between, text, beforeBlank, betweenBlank, padded, rfl⟩
  have shown := toList_quote named.1
  refine ⟨before, '"', named.1.toList.flatMap escapeChar ++ ['"'] ++ between ++ ':' :: text,
    by simp [shown], beforeBlank, by decide, by decide, ?_⟩
  exact ⟨[], between, text, Blank.nil, betweenBlank, padded, by simp [shown]⟩

end

private theorem writesScalar_of_zero {json : Json} {cs : List Char} (written : Writes 0 json cs) :
    WritesScalar json cs := by
  cases json <;> exact written

/-- A value starts with no white space, and not with the end of a list. -/
private theorem exists_head {depth : Nat} {json : Json} {cs : List Char}
    (written : Writes depth json cs) :
    ∃ c tail, cs = c :: tail ∧ isSpace c = false ∧ c ≠ ']' ∧ c ≠ '\x7d' := by
  -- Whatever the depth, a scalar is written as it is without any.
  have scalar (one : WritesScalar json cs) :
      ∃ c tail, cs = c :: tail ∧ isSpace c = false ∧ c ≠ ']' ∧ c ≠ '\x7d' := by
    obtain ⟨c, tail, rfl, dense, other⟩ := exists_head_scalar one
    simp only [List.mem_cons, List.not_mem_nil, or_false, not_or] at other
    exact ⟨c, tail, rfl, dense, other.2.1, other.2.2.2⟩
  cases depth with
  | zero => exact scalar (writesScalar_of_zero written)
  | succ depth =>
    cases json with
    | array items =>
      obtain ⟨inner, _, rfl⟩ := written
      exact ⟨'[', _, rfl, by decide, by decide, by decide⟩
    | object members =>
      obtain ⟨inner, _, rfl⟩ := written
      exact ⟨'\x7b', _, rfl, by decide, by decide, by decide⟩
    | _ => exact scalar written

private theorem stops_of_writes {depth : Nat} {json : Json} {cs : List Char}
    (written : Writes depth json cs) (rest : List Char) : Stops isSpace (cs ++ rest) := by
  obtain ⟨c, tail, rfl, dense, _⟩ := exists_head written
  rintro d ⟨⟩
  exact dense

/-- Values are read at every depth, whatever white space stands before them. -/
private theorem readable_value (depth : Nat) : Readable (value depth) (Writes depth) := by
  -- What is nested is read by the reader of the depth below.
  induction depth with
  | zero =>
    refine ⟨fun json cs written blank rest isBlank stops => ?_, fun _ _ => exists_head⟩
    rw [List.append_assoc]
    apply (reads_skipSpace isBlank (stops_of_writes written rest)).bind
    exact reads_scalar (writesScalar_of_zero written) stops
  | succ depth ih =>
    refine ⟨fun json cs written blank rest isBlank stops => ?_, fun _ _ => exists_head⟩
    rw [List.append_assoc]
    apply (reads_skipSpace isBlank (stops_of_writes written rest)).bind
    apply (reads_peek _).bind
    cases json with
    | array items =>
      obtain ⟨inner, listed, rfl⟩ := written
      rw [List.append_assoc]
      exact reads_enclosed (reads_item ih) (opens_item ih) (by decide) (by decide) (by decide)
        listed rest
    | object members =>
      obtain ⟨inner, listed, rfl⟩ := written
      rw [List.append_assoc]
      exact reads_enclosed (reads_member ih) opens_member (by decide) (by decide) (by decide)
        listed rest
    | _ =>
      have scalar := reads_scalar written stops
      obtain ⟨c, tail, rfl, _, other⟩ := exists_head_scalar written
      -- The text opens neither an object nor an array.
      simp only [List.cons_append, List.head?_cons]
      split
      case h_1 same | h_2 same =>
        cases same
        exact absurd (by decide) other
      case h_3 => exact scalar

end Reader

/-- A text of a value is read as that value, whatever white space stands around it. -/
theorem parse?_of_writes {json : Json} {before cs after : List Char}
    (beforeBlank : Reader.Blank before) (written : Writes maxDepth json cs)
    (afterBlank : Reader.Blank after) :
    parse? (String.ofList (before ++ cs ++ after)) = some json := by
  have ends : Reader.Stops Reader.continuesNumber after := by
    have stops : Reader.Stops Reader.continuesNumber (after ++ []) := afterBlank.stops (.nil _)
    rwa [List.append_nil] at stops
  have read : Reader.value maxDepth (before ++ cs ++ after) = some (json, after) :=
    (Reader.readable_value maxDepth).reads json cs written before after beforeBlank ends
  -- Behind the value only blanks are left, and they are skipped.
  have nothing : (after ++ []).dropWhile Reader.isSpace = [] :=
    (Reader.takeWhile_append_stops afterBlank (.nil _)).2
  rw [List.append_nil] at nothing
  simp only [parse?, String.toList_ofList, read, Option.bind_eq_bind, Option.bind_some, nothing,
    List.isEmpty_nil, ite_true]

end MethodContracts.Json
