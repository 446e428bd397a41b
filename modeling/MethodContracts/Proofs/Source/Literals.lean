import MethodContracts.Method.OfSource
import MethodContracts.Proofs.Source.Layout

/-!
# String literals

A text that is written as a string literal is one token, whatever the text is: the scanner
takes a backslash together with the character behind it, and the escaped form has neither a
quote nor a line feed anywhere else. The value of the token is the text, and as the argument
of an annotation it is the value that the method is annotated with.
-/
namespace MethodContracts.Source

open Text

/-- The literal that stands for a text. -/
def quoted (text : String) : String := String.ofList ('"' :: escape text.toList ++ ['"'])

/-! ## The token -/

/-- The scanner of a literal passes over a pair or over a character that it does not look at. -/
private theorem escapeChar_cases (c : Char) :
    (∃ letter, escapeChar c = ['\\', letter]) ∨
      escapeChar c = [c] ∧ c ≠ '\\' ∧ c ≠ '"' ∧ c ≠ '\n' := by
  unfold escapeChar
  by_cases backslash : c = '\\'
  · exact .inl ⟨'\\', if_pos backslash⟩
  by_cases quote : c = '"'
  · exact .inl ⟨'"', by rw [if_neg backslash, if_pos quote]⟩
  by_cases feed : c = '\n'
  · exact .inl ⟨'n', by rw [if_neg backslash, if_neg quote, if_pos feed]⟩
  by_cases back : c = '\r'
  · exact .inl ⟨'r', by rw [if_neg backslash, if_neg quote, if_neg feed, if_pos back]⟩
  by_cases tab : c = '\t'
  · exact .inl ⟨'t', by rw [if_neg backslash, if_neg quote, if_neg feed, if_neg back, if_pos tab]⟩
  · -- No other character is escaped, so it stands for itself.
    refine .inr ⟨?_, backslash, quote, feed⟩
    rw [if_neg backslash, if_neg quote, if_neg feed, if_neg back, if_neg tab]

private theorem escape_cons (c : Char) (cs : List Char) :
    escape (c :: cs) = escapeChar c ++ escape cs :=
  List.flatMap_cons

private theorem quotedRest_plain {c : Char} (backslash : c ≠ '\\') (quote : c ≠ '"')
    (feed : c ≠ '\n')
    (rest : List Char) : quotedRest '"' (c :: rest) = keep [c] (quotedRest '"' rest) := by
  rw [quotedRest.eq_3 _ _ _ fun _ _ isBackslash _ => backslash isBackslash,
    if_neg (not_or_intro feed quote)]

/-- The rest of a literal ends at its own quote. -/
private theorem quotedRest_escape (cs rest : List Char) :
    quotedRest '"' (escape cs ++ '"' :: rest) = (escape cs ++ ['"'], rest) := by
  induction cs with
  | nil => rfl
  | cons c cs ih =>
    rw [escape_cons]
    rcases escapeChar_cases c with ⟨letter, pair⟩ | ⟨same, backslash, quote, feed⟩
    · -- The character behind the backslash is not looked at, be it a quote.
      rw [pair]
      exact congrArg (keep ['\\', letter]) ih
    · rw [same]
      exact (quotedRest_plain backslash quote feed _).trans (congrArg (keep [c]) ih)

/-- The escaped form does not begin with a quote. -/
private theorem head?_escape (cs : List Char) : (escape cs).head? ≠ some '"' := by
  cases cs with
  | nil => nofun
  | cons c cs =>
    rw [escape_cons]
    rcases escapeChar_cases c with ⟨letter, pair⟩ | ⟨same, -, quote, -⟩
    · rw [pair]
      nofun
    · rw [same]
      exact fun isQuote => quote (Option.some.inj isQuote)

/-- No text block begins where a literal stands, since two quotes at its start are all of it. -/
private theorem not_block (cs : List Char) {following : List Char}
    (apart : following.head? ≠ some '"')
    (later : List Char) (begins : escape cs ++ '"' :: following = '"' :: '"' :: later) : False := by
  cases escaped : escape cs with
  | nil =>
    -- The two quotes of the empty literal; a third would be the first of what follows.
    rw [escaped] at begins
    exact apart (congrArg (fun text : List Char => text.tail.head?) begins)
  | cons c others =>
    rw [escaped] at begins
    have quote : c = '"' := congrArg (fun text : List Char => text.headD c) begins
    exact head?_escape cs (by rw [escaped, quote, List.head?_cons])

/-- A literal is cut off as a whole, and what follows it is left. -/
private theorem lexeme_quoted {following : List Char} (cs : List Char)
    (apart : following.head? ≠ some '"') :
    lexeme '"' (escape cs ++ '"' :: following) =
      ⟨.string, '"' :: escape cs ++ ['"'], following⟩ := by
  have noBlock := not_block cs apart
  simp only [lexeme, quotedRest_escape, keep, List.cons_append, List.nil_append]

/-- The token that the literal of a text is. -/
def quotedToken (text : String) (start : Nat) : Token :=
  ⟨.string, quoted text, ⟨start, start + byteLength (quoted text).toList⟩⟩

theorem Scans.quoted {offset : Nat} {following : List Char} {tokens : List Token} (text : String)
    (apart : following.head? ≠ some '"')
    (others : Scans (quotedToken text offset).span.stop following tokens) :
    Scans offset ((quoted text).toList ++ following) (quotedToken text offset :: tokens) := by
  have isText : (Source.quoted text).toList = '"' :: escape text.toList ++ ['"'] :=
    String.toList_ofList
  have whole : (Source.quoted text).toList ++ following =
      '"' :: (escape text.toList ++ '"' :: following) := by
    rw [isText, List.cons_append, List.cons_append, List.append_assoc]
    rfl
  have found : gap ('"' :: (escape text.toList ++ '"' :: following)) =
      ([], '"' :: (escape text.toList ++ '"' :: following)) := rfl
  -- The lexeme ends at its own closing quote, since no other quote follows.
  have read := lexeme_quoted text.toList apart
  have isToken : (lexeme '"' (escape text.toList ++ '"' :: following)).token offset =
      quotedToken text offset := by
    rw [read, Lexeme.token, quotedToken, isText]
    rfl
  have others : Scans (offset + byteLength [] +
      byteLength (lexeme '"' (escape text.toList ++ '"' :: following)).text)
      (lexeme '"' (escape text.toList ++ '"' :: following)).rest tokens := by
    rw [read, ← isText]
    exact others
  rw [whole, ← isToken]
  exact .token found others

/-! ## The value -/

private theorem withoutBack?_append (back cs : List Char) :
    withoutBack? back (cs ++ back) = some cs := by
  have ends : back.isSuffixOf (cs ++ back) = true :=
    List.isSuffixOf_iff_suffix.mpr (List.suffix_append cs back)
  rw [withoutBack?, if_pos ends, List.length_append, Nat.add_sub_cancel, List.take_left]

private theorem literalInside_quoted (cs : List Char) :
    literalInside ('"' :: escape cs ++ ['"']) = escape cs := by
  -- A text block is looked for first, here too.
  have noBlock : withoutFront? ['"', '"', '"'] ('"' :: escape cs ++ ['"']) = none := by
    rw [withoutFront?, if_neg]
    intro begins
    obtain ⟨later, whole⟩ := List.isPrefixOf_iff_prefix.mp begins
    have ended : ([] : List Char).head? ≠ some '"' := nofun
    exact not_block cs ended later (List.cons.inj whole).2.symm
  have opened : withoutFront? ['"'] ('"' :: escape cs ++ ['"']) = some (escape cs ++ ['"']) := rfl
  simp only [literalInside, noBlock, strip, opened, Option.getD_some, withoutBack?_append]

theorem literalValue_quoted (text : String) : literalValue (quoted text) = text := by
  rw [literalValue, quoted, String.toList_ofList, literalInside_quoted, unescape_escape,
    String.ofList_toList]

/-! ## The argument of an annotation -/

/-- A method whose contract is the literal of a text, with the name of the element or without. -/
def contracted (named : Bool) (text : String) : String :=
  (if named then "@Contract(value = " else "@Contract(") ++ quoted text ++ ") void f() \x7b\x7d"

/-- The tokens of an annotation in front of its first argument. -/
def contractHead : List Token :=
  [⟨.atSign, "@", ⟨0, 1⟩⟩, ⟨.ident, "Contract", ⟨1, 9⟩⟩, ⟨.openParen, "(", ⟨9, 10⟩⟩]

/-- The tokens of the name of the argument. -/
def elementHead : List Token := [⟨.ident, "value", ⟨10, 15⟩⟩, ⟨.assign, "=", ⟨16, 17⟩⟩]

/-- The tokens behind the argument, which ends at byte `stop`. -/
def contractTail (stop : Nat) : List Token := tokens ") void f() \x7b\x7d" stop

private theorem scans_contractHead {rest : List Char} {tokens : List Token}
    (others : Scans 10 rest tokens) :
    Scans 0 ("@Contract(".toList ++ rest) (contractHead ++ tokens) := by
  have sign : gap ("@Contract(".toList ++ rest) = ([], '@' :: ("Contract(".toList ++ rest)) := rfl
  have name : gap ("Contract(".toList ++ rest) = ([], 'C' :: ("ontract(".toList ++ rest)) := rfl
  have opening : gap ('(' :: rest) = ([], '(' :: rest) := rfl
  exact .token sign (.token name (.token opening others))

private theorem scans_elementHead {rest : List Char} {tokens : List Token}
    (others : Scans 18 rest tokens) :
    Scans 10 ("value = ".toList ++ rest) (elementHead ++ tokens) := by
  have name : gap ("value = ".toList ++ rest) = ([], 'v' :: ("alue = ".toList ++ rest)) := rfl
  have sign : gap (" = ".toList ++ rest) = ([' '], '=' :: ' ' :: rest) := rfl
  have blank : Gap [' '] := .cons (.blank (by decide)) .nil
  exact .token name (.token sign (.gap_append blank others))

theorem tokens_contracted (named : Bool) (text : String) :
    ∃ start, tokens (contracted named text) 0 =
      contractHead ++ (if named then elementHead else []) ++
        quotedToken text start :: contractTail (quotedToken text start).span.stop := by
  have literal (start : Nat) : Scans start ((quoted text).toList ++ ") void f() \x7b\x7d".toList)
      (quotedToken text start :: contractTail (quotedToken text start).span.stop) :=
    .quoted text (by decide) (tokens_scans _ _)
  -- The head is as long as its tokens, with the name of the element or without it.
  cases named with
  | false =>
    refine ⟨10, Scans.tokens_eq ?_⟩
    rw [contracted, String.toList_append, String.toList_append, List.append_assoc]
    exact scans_contractHead (literal 10)
  | true =>
    refine ⟨18, Scans.tokens_eq ?_⟩
    rw [contracted, String.toList_append, String.toList_append, List.append_assoc]
    exact scans_contractHead (scans_elementHead (literal 18))

/-- The parser looks at the kind of the literal only. -/
theorem member?_contracted (named : Bool) (literal : String) (span : Span) (stop textEnd : Nat)
    (owner : Option String) :
    let read := Parser.member? "" (.start (contractHead ++ (if named then elementHead else []) ++
      ⟨.string, literal, span⟩ :: contractTail stop) textEnd)
    read.2.errors = [] ∧ read.2.rest = [] ∧ ∃ decl, read.1 = some (.method decl) ∧
      ∃ place, (Method.ofSource decl owner).annotations =
        [⟨"Contract", some (literalValue literal), place⟩] := by
  cases named <;> exact ⟨rfl, rfl, _, rfl, _, rfl⟩

/-- A text survives as a string literal. In front of anything but another quote the literal is
one token, its value is the text, and a method that is annotated with it is read without errors
and has the text for its contract. -/
theorem quoted_survives (text : String) :
    (∀ following offset, following.toList.head? ≠ some '"' →
      tokens (quoted text ++ following) offset =
        quotedToken text offset :: tokens following (quotedToken text offset).span.stop) ∧
    literalValue (quoted text) = text ∧
    ∀ named owner, ∃ decl place, parseMethod (contracted named text) = ⟨some decl, []⟩ ∧
      (Method.ofSource decl owner).annotations = [⟨"Contract", some text, place⟩] := by
  have value := literalValue_quoted text
  refine ⟨fun following offset apart => ?_, value, fun named owner => ?_⟩
  · apply Scans.tokens_eq
    rw [String.toList_append]
    exact .quoted text apart (tokens_scans _ _)
  · -- The tokens of the whole are known up to where the literal stands.
    obtain ⟨start, isTokens⟩ := tokens_contracted named text
    obtain ⟨clean, atEnd, decl, yields, place, annotations⟩ := member?_contracted named
      (quoted text) (quotedToken text start).span (quotedToken text start).span.stop
      (0 + byteLength (contracted named text).toList) owner
    rw [value] at annotations
    refine ⟨decl, place, ?_, annotations⟩
    rw [parseMethod_eq, Cursor.ofText, isTokens]
    simp only [quotedToken] at yields clean atEnd ⊢
    rw [yields, methodOf, Cursor.atEnd, atEnd, clean]
    rfl

theorem quoted_survives_quotes : tokens (quoted "\"\\" ++ ")") 3 =
      quotedToken "\"\\" 3 :: tokens ")" 9 ∧ quoted "\"\\" = "\"\\\"\\\\\"" := by
  exact ⟨(quoted_survives "\"\\").1 ")" 3 (by decide), by decide⟩

end MethodContracts.Source
