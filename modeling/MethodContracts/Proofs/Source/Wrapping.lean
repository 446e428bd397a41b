import MethodContracts.Proofs.Source.Enclosing
import MethodContracts.Proofs.Source.Layout
import MethodContracts.Proofs.Source.Parsing
import MethodContracts.Proofs.Tree.Relocation

/-!
# A method inside a class

A text that is one method may be put between the braces of a class. The text of the class has
the tokens of the method behind those of its head, and a closing brace behind them; the unit
that is read has the one class with the one method, as far on as its text is. A comment that
the text does not end would hide the brace.
-/
namespace MethodContracts.Source

open Text

/-! ## The text of a class -/

/-- What stands in front of the members of a class. -/
def classHead (name : String) : String := "class " ++ name ++ " \x7b\n"

/-- A class with the members that the text holds. -/
def classText (name text : String) : String := classHead name ++ text ++ "\n\x7d"

/-- The name is one word. -/
def IsIdentifier (name : String) : Prop :=
  ∃ c cs, name.toList = c :: cs ∧ isNameStart c = true ∧ ∀ d ∈ cs, isNamePart d = true

/-- Behind its last token the text begins a block comment and does not end it. -/
def EndsInComment (text : String) : Prop :=
  ∃ front blank comment, text.toList = front ++ blank ++ '/' :: '*' :: comment ∧
    byteLength front = Scans.stop 0 (tokens text 0) ∧ Gap blank ∧ ¬['*', '/'] <:+: comment

private theorem not_mark_of_nameStart {c : Char} (start : isNameStart c = true) :
    c ∉ markStarts := by
  intro mark
  have none : markStarts.all (fun mark => !isNameStart mark) = true := by decide
  have notStart := List.all_eq_true.mp none c mark
  rw [start] at notStart
  cases notStart

private theorem isNamePart_of_nameStart {c : Char} (start : isNameStart c = true) :
    isNamePart c = true := by
  simp only [isNameStart, isNamePart, isLetterOrNumber, Bool.or_eq_true] at start ⊢
  split
  · simp only [Bool.or_eq_true]
    tauto
  · simp only [Bool.or_eq_true]
    tauto

private theorem not_digit_of_nameStart {c : Char} (start : isNameStart c = true) :
    isDigit c = false := by
  rw [Bool.eq_false_iff]
  intro digit
  simp only [isDigit, Bool.and_eq_true, decide_eq_true_eq] at digit
  have ascii : c.val.toNat < 0x80 := by omega
  simp only [isNameStart, isLetter, if_pos ascii, Bool.or_eq_true, Bool.and_eq_true,
    decide_eq_true_eq, beq_iff_eq] at start
  rcases start with (letter | rfl) | rfl
  · omega
  · exact absurd digit (by decide)
  · exact absurd digit (by decide)

namespace Scans

variable {offset : Nat} {rest : List Char} {tokens : List Token}

/-- A word in front of white space is a token. -/
theorem word {c blank : Char} {cs : List Char} (start : isNameStart c = true)
    (parts : ∀ d ∈ cs, isNamePart d = true) (isBlank : isBlank blank = true)
    (others : Scans (offset + byteLength (c :: cs)) (blank :: rest) tokens) :
    Scans offset (c :: cs ++ blank :: rest)
      (⟨.ident, String.ofList (c :: cs), ⟨offset, offset + byteLength (c :: cs)⟩⟩ :: tokens) := by
  have noMark := not_mark_of_nameStart start
  have noLetter : ¬isNamePart blank = true := by rw [isNamePart_of_blank isBlank]; nofun
  have dense : ¬Text.isBlank c = true := fun blank => by
    have parts := isNamePart_of_blank blank
    rw [isNamePart_of_nameStart start] at parts
    cases parts
  have noSlash : c ≠ '/' := fun slash => noMark (slash ▸ by decide)
  have begins : gap (c :: cs ++ blank :: rest) = ([], c :: (cs ++ blank :: rest)) :=
    (gapFrom_between (fun _ slash _ => noSlash slash) fun _ slash _ => noSlash slash).trans
      (if_neg dense)
  have read : lexeme c (cs ++ blank :: rest) = ⟨.ident, c :: cs, blank :: rest⟩ := by
    rw [lexeme_word noMark, wordLexeme, not_digit_of_nameStart start, if_neg Bool.false_ne_true,
      if_pos start, List.takeWhile_append_of_pos parts, List.takeWhile_cons_of_neg noLetter,
      List.dropWhile_append_of_pos parts, List.dropWhile_cons_of_neg noLetter, List.append_nil]
  have scanned := Scans.token begins (by rw [read]; exact others)
  rwa [read] at scanned

/-- A brace is a token whatever follows. -/
theorem openBrace (others : Scans (offset + byteLength ['\x7b']) rest tokens) :
    Scans offset ('\x7b' :: rest)
      ((⟨.openBrace, ['\x7b'], rest⟩ : Lexeme).token offset :: tokens) := by
  have found : gap ('\x7b' :: rest) = ([], '\x7b' :: rest) := rfl
  exact .token found others

theorem closeBrace (offset : Nat) :
    Scans offset ['\x7d'] [(⟨.closeBrace, ['\x7d'], []⟩ : Lexeme).token offset] := by
  have found : gap ['\x7d'] = ([], ['\x7d']) := rfl
  have done : gap [] = ([], []) := rfl
  exact .token found (.last done)

end Scans

/-- The tokens of a class are those of its head and those of what follows. -/
private theorem scans_classHead {name : String} (isName : IsIdentifier name) {rest : List Char}
    {tokens : List Token} (others : Scans (byteLength (classHead name).toList) rest tokens) :
    ∃ keyword word opening : Token, keyword.kind = .ident ∧ keyword.text = "class" ∧
      word.kind = .ident ∧ word.text = name ∧ opening.kind = .openBrace ∧
      opening.span.stop ≤ byteLength (classHead name).toList ∧
      Scans 0 ((classHead name).toList ++ rest) (keyword :: word :: opening :: tokens) := by
  obtain ⟨c, cs, isText, start, parts⟩ := isName
  have blank : Gap [' '] := .cons (.blank (by decide)) .nil
  have feed : Gap ['\n'] := .cons (.blank (by decide)) .nil
  -- The offset behind the head is that of its pieces, one after the other.
  have place : byteLength (classHead name).toList = 0 + byteLength ['c', 'l', 'a', 's', 's'] +
      byteLength [' '] + byteLength (c :: cs) + byteLength [' '] + byteLength ['\x7b'] +
      byteLength ['\n'] := by
    simp only [classHead, String.toList_append, byteLength_append, isText]
    have first : byteLength "class ".toList = 6 := rfl
    have last : byteLength " \x7b\n".toList = 3 := rfl
    have word : byteLength ['c', 'l', 'a', 's', 's'] = 5 := rfl
    have space : byteLength [' '] = 1 := rfl
    have brace : byteLength ['\x7b'] = 1 := rfl
    have feed : byteLength ['\n'] = 1 := rfl
    omega
  have letters : ∀ d ∈ ['l', 'a', 's', 's'], isNamePart d = true :=
    List.all_eq_true.mp (by decide)
  have text : (classHead name).toList ++ rest =
      'c' :: ['l', 'a', 's', 's'] ++ ' ' :: (c :: cs ++ ' ' :: '\x7b' :: '\n' :: rest) := by
    simp only [classHead, String.toList_append, isText, List.append_assoc]
    rfl
  rw [place] at others ⊢
  rw [text]
  exact ⟨_, _, _, rfl, rfl, rfl, by rw [← isText, String.ofList_toList], rfl, Nat.le_add_right ..,
    .word (by decide) letters (by decide) (.gap_append blank (.word start parts (by decide)
      (.gap_append blank (.openBrace (.gap_append feed others)))))⟩

theorem Gap.append {left right : List Char} (isLeft : Gap left) (isRight : Gap right) :
    Gap (left ++ right) := by
  induction isLeft with
  | nil => exact isRight
  | cons first others ih =>
    rw [List.append_assoc]
    exact .cons first ih

theorem not_endsInComment {text : String} (unopened : ¬['/', '*'] <:+: text.toList) :
    ¬EndsInComment text := by
  rintro ⟨front, blank, comment, whole, -⟩
  refine unopened ⟨front ++ blank, comment, ?_⟩
  rw [whole, List.append_assoc _ ['/', '*']]
  rfl

/-- A line feed ends what stands behind the last token, unless it is a block comment. -/
theorem LastGap.feed {rest : List Char} (lastGap : LastGap rest)
    (complete : ∀ blank comment, rest = blank ++ '/' :: '*' :: comment → Gap blank →
      ['*', '/'] <:+: comment) : Gap (rest ++ ['\n']) := by
  cases lastGap with
  | ended gap => exact gap.append (.cons (.blank (by decide)) .nil)
  | @opened blank comment gap opened =>
    cases opened with
    | @line comment noFeed =>
      rw [List.append_assoc]
      refine gap.append ?_
      have piece := Gap.cons (.line noFeed) .nil
      rwa [List.append_nil] at piece
    | @block comment noEnd => exact absurd (complete blank comment rfl gap) noEnd

/-- The tokens of a text that is put into a class are its own, and the closing brace. -/
private theorem scans_classBody {text : String} (complete : ¬EndsInComment text)
    (closes : ∀ last ∈ (tokens text 0).getLast?,
      last.kind = .closeBrace ∨ last.kind = .semicolon) (start : Nat) :
    ∃ closing : Token, closing.kind = .closeBrace ∧ Scans start (text.toList ++ ['\n', '\x7d'])
      ((tokens text 0).map (Token.moved (· + start)) ++ [closing]) := by
  have scans := tokens_scans text 0
  rw [← List.append_nil (tokens text 0)] at scans
  -- The text is taken apart behind its last token.
  obtain ⟨front, rest, whole, place, later, change⟩ := scans.front
  rw [Nat.zero_add] at place
  -- What is left has no token, so it is a gap, or a comment that is not ended.
  have lastGap : LastGap rest := by
    cases later with
    | @last _ _ blank found =>
      have found : gapFrom .between rest = (blank, []) := found
      have same := gapFrom_append .between rest
      have last := gapFrom_last .between rest (by rw [found])
      rw [found, List.append_nil] at same
      rw [found, same] at last
      exact last.resolve_right id
  -- The line feed ends a comment of one line, and a block comment is complete.
  have isGap : Gap (rest ++ ['\n']) := lastGap.feed fun blank comment isRest gap => by
    by_contra noEnd
    refine complete ⟨front, blank, comment, ?_, place, gap, noEnd⟩
    rw [whole, isRest, List.append_assoc]
  have resumes : Resumes rest (rest ++ ['\n', '\x7d']) :=
    ⟨rest, [], '\n', ['\x7d'], (List.append_nil rest).symm, rfl, by decide⟩
  have behind := Scans.gap_append isGap (.closeBrace (0 + byteLength front +
    byteLength (rest ++ ['\n'])))
  rw [List.append_assoc] at behind
  -- In front of the line feed the tokens of the text stay what they are.
  have scanned := change _ _ resumes (fun _ => closes) behind
  rw [← List.append_assoc, ← whole] at scanned
  have moved : Scans start (text.toList ++ ['\n', '\x7d'])
      ((tokens text 0 ++ [_]).map (Token.moved (· + start))) :=
    scanned.moved fun n => by omega
  rw [List.map_append] at moved
  exact ⟨_, rfl, moved⟩

/-! ## The run -/

namespace Parser

open Cursor

variable {c : Cursor}

/-- Where neither a member nor what stands in front of one begins, nothing is read. -/
private theorem memberOf_declined (nested : String → Parser (Option Member)) (enclosing : String)
    {kind : TokenKind} (atIt : c.atKind kind = true)
    (other : kind ∉ [.ident, .atSign, .less, .openBrace]) :
    memberOf nested enclosing c = (none, c) := by
  simp only [List.mem_cons, List.not_mem_nil, or_false, not_or] at other
  obtain ⟨noIdent, noSign, noLess, noBrace⟩ := other
  have noIdent := atKind_other atIt noIdent
  have noSign := atKind_other atIt noSign
  have noLess := atKind_other atIt noLess
  have noBrace := atKind_other atIt noBrace
  have noWord (word : String) : c.atWord word = false := by
    rw [Bool.eq_false_iff]
    intro atWord
    rw [atKind_of_atWord atWord] at noIdent
    cases noIdent
  -- There are no modifiers and no type parameters to read first.
  have head : memberHead c = ([], c) := by
    rw [memberHead, run_bind, modifiersAndAnnotations_declined noSign noIdent, run_bind,
      skipGroup_declined _ noLess]
    rfl
  -- Without a word there is no keyword, so the member could only begin with its type.
  have plain : c.Plain := by
    refine ⟨by simp [Cursor.atStaticBlock, noWord], by simp [noBrace], ?_⟩
    have keyword : (typeKeyword? c.word).isSome = false := by
      rw [Bool.eq_false_iff]
      intro keyword
      obtain ⟨token, rest, found, isWord, -⟩ := exists_of_keyword keyword
      rw [c.atKind_of_rest found isWord] at noIdent
      cases noIdent
    simp [Cursor.atType, Cursor.atAnnotationType, noSign, keyword]
  rw [memberOf_eq nested enclosing fun atEnd => rest_ne_nil atIt (List.isEmpty_iff.mp atEnd), head,
    memberTail_plain plain, plainMember, run_bind, run_get,
    if_neg (by simp [noWord]), typedMember, run_bind, typeRef?_eq_none (by simp [noIdent])]
  rfl

private theorem collect_one {α : Type} {step : Parser (Option (List α))} {values : List α}
    (winds : step.Winds) (first : (step c).1 = some values)
    (last : step (step c).2 = (none, (step c).2)) : collect step c = (values, (step c).2) := by
  have ended : collect step (step c).2 = ([], (step c).2) := by
    rw [collect_eq winds, run_bind, last]
    rfl
  rw [collect_eq winds, run_bind, first]
  dsimp only
  rw [run_bind, ended, run_pure, List.append_nil]

section Class

variable {nested : String → Parser (Option Member)} {name : String}

variable {keyword word opening closing : Token} {body : List Token}

/-- A class whose members are read up to the brace that closes it. -/
theorem typeDecl?_class {members : List Member} {end₁ : Cursor}
    (found : c.rest = keyword :: word :: opening :: body)
    (isKeyword : keyword.kind = .ident) (isClass : keyword.text = "class")
    (isWord : word.kind = .ident) (isOpening : opening.kind = .openBrace)
    (collected : collect (memberStep nested word.text) c.next.next.next = (members, end₁))
    (left : end₁.rest = [closing]) (isClosing : closing.kind = .closeBrace) :
    typeDecl? nested c = (some ⟨⟨.classType, word.text, ⟨keyword.span.start, closing.span.stop⟩,
      ⟨opening.span.start, closing.span.stop⟩⟩, members⟩, end₁.next) := by
  have atWord : c.word = "class" := by simp [Cursor.word, found, isKeyword, isClass]
  have atType : c.atType = true := by rw [Cursor.atType, atWord, Bool.or_eq_true]; exact .inr rfl
  -- Nothing stands in front of the keyword, and nothing between the name and the brace.
  have stays : ((discard modifiersAndAnnotations : Parser Unit) c) = ((), c) :=
    congrArg (fun read : List Annotation × Cursor => ((), read.2))
      (modifiersAndAnnotations_atType atType)
  have noSign : c.atAnnotationType = false := by
    simp [Cursor.atAnnotationType, Cursor.atKind, Cursor.kind?, found, isKeyword]
  have kind : typeKind? c = (some .classType, c.next) := by
    rw [typeKind?, run_bind, run_get, noSign, if_neg Bool.false_ne_true, found, List.head?_cons,
      Option.bind_some, isClass]
    rfl
  have second : c.next.rest = word :: opening :: body := c.rest_next found
  have third : c.next.next.rest = opening :: body := rest_next second
  have passed : skipWhile (fun c => !c.atKind .openBrace) c.next.next = ((), c.next.next) := by
    have declines : skipStep (fun c => !c.atKind .openBrace) () c.next.next =
        (none, c.next.next) := by
      rw [skipStep, run_bind, run_get, if_pos (by simp [atKind_of_rest third isOpening]), run_pure]
    exact iterate_declined (skipStep_winds _) declines
  have typeBody : typeBody nested word.text false c.next.next =
      ((members, ⟨opening.span.start, closing.span.stop⟩), end₁.next) := by
    rw [Parser.typeBody, run_bind, passed, run_bind, expect_eq third isOpening,
      if_neg Bool.false_ne_true]
    dsimp only
    rw [run_bind, collected, run_bind, expect_eq left isClosing]
    rfl
  -- The declaration is its keyword, its name and its body, each read where the one before ended.
  rw [typeDecl?, run_bind, run_get, run_bind, stays, run_bind, kind]
  dsimp only
  rw [run_bind, expect_eq second isWord, run_bind]
  dsimp only
  rw [show (TypeKind.classType == TypeKind.enumType) = false from rfl, typeBody]
  simp only [Cursor.here, found, run_pure]

end Class

/-- A unit that is one type. -/
theorem compilationUnit_one {keyword : Token} {rest : List Token} {decl : TypeDecl}
    {end₁ : Cursor} (found : c.rest = keyword :: rest)
    (others : keyword.text ∉ ["package", "import"])
    (declared : typeDecl? member? c = (some decl, end₁)) (atEnd : end₁.rest = []) :
    compilationUnit c = (⟨[decl], ⟨keyword.span.start, c.textEnd⟩⟩, end₁) := by
  simp only [List.mem_cons, List.not_mem_nil, or_false, not_or] at others
  have noImport : importStep () c = (none, c) := by
    simp [importStep, run_bind, run_get, Cursor.atWord, Cursor.nthWord, found, others.1, others.2,
      run_pure]
  -- The first step reads the type, and the second finds no token left.
  have step : unitStep c = (some [decl], end₁) := by
    rw [unitStep, run_bind, run_get, if_neg (by simp [Cursor.atEnd, found]), run_bind, declared]
    rfl
  have types : collect unitStep c = ([decl], end₁) := by
    have first : (unitStep c).1 = some [decl] := by rw [step]
    have collected := collect_one unitStep_winds first (by
      rw [step]
      exact unitStep_winds.declines end₁ atEnd)
    rwa [step] at collected
  rw [compilationUnit, run_bind, run_get, run_bind, iterate_declined importStep_winds noImport,
    run_bind, types, found]
  rfl

end Parser

open Source.Parser

/-! ## A method inside a class -/

/-- The tokens are moved, and a closing brace stands behind them. -/
def Frame.enclosing (start : Nat) (closing : Token) (isClosing : closing.kind = .closeBrace) :
    Frame where
  move place := place + start
  keeps _ _ before := Nat.add_le_add_right before start
  tail := [closing]
  closes _ member := List.mem_singleton.mp member ▸ isClosing

/-- What was read where a method is all of the text. -/
theorem member?_of_parseMethod {text : String} {decl : MethodDecl}
    (accepted : parseMethod text = ⟨some decl, []⟩) :
    (member? "" (.ofText text 0)).1 = some (.method decl) ∧
      (member? "" (.ofText text 0)).2.errors = [] ∧
      (member? "" (.ofText text 0)).2.rest = [] := by
  rw [parseMethod_eq] at accepted
  generalize (member? "" (.ofText text 0)).1 = member, (member? "" (.ofText text 0)).2 = c
    at accepted
  rcases member with _ | (_ | decl' | _ | _ | _)
  case some.method =>
    simp only [methodOf, Parsed.mk.injEq, Option.some.injEq] at accepted
    obtain ⟨rfl, clean⟩ := accepted
    split at clean
    next atEnd => exact ⟨rfl, clean, List.isEmpty_iff.mp atEnd⟩
    next => cases (List.append_eq_nil_iff.mp clean).2
  all_goals cases congrArg Parsed.value accepted

/-- The members of a class that is a method and the brace that closes it. -/
theorem collect_enclosed {frame : Frame} {c c' : Cursor} {decl : MethodDecl} {closing : Token}
    (alike : frame.Alike c c') (behind : frame.tail = [closing])
    (yields : (member? "" c).1 = some (.method decl)) (clean : (member? "" c).2.errors = [])
    (atEnd : (member? "" c).2.rest = []) (name : String) :
    ∃ end₁, collect (memberStep member? name) c' = ([.method (decl.moved frame.move)], end₁) ∧
      end₁.rest = [closing] ∧ end₁.errors = [] := by
  obtain ⟨read, alike₁⟩ := member?_enclosed alike yields clean name
  have left : (member? name c').2.rest = [closing] := by
    rw [alike₁.rest, atEnd, behind]
    rfl
  have isClosing := frame.closes closing (behind ▸ List.mem_cons_self)
  -- A member was read, so there was something to read, and no closing brace.
  have nonempty : c.rest ≠ [] := fun ended => by
    have declined : member? "" c = (none, c) := by
      rw [member?_eq, memberOf, run_bind, run_get, if_pos (atEnd_of_rest ended), run_pure]
    rw [declined] at yields
    cases yields
  have more : ¬(c'.atEnd || c'.atKind .closeBrace) = true := by
    rw [alike.atEnd (.inr nonempty), alike.atKind_inside (.inr nonempty), Bool.or_eq_true]
    rintro (ended | atBrace)
    · exact nonempty (List.isEmpty_iff.mp ended)
    · rw [member?_eq, memberOf_declined _ _ atBrace (by decide)] at yields
      cases yields
  -- The member took all tokens that there were.
  have fewer : ((member? name c').2.left == c'.left) = false := by
    rw [alike.left_beq alike₁, beq_eq_false_iff_ne, Cursor.left, atEnd]
    exact fun same => nonempty (List.length_eq_zero_iff.mp same.symm)
  have step := memberStep_reads more fewer
  -- Behind the one member stands the brace, where the members end.
  have collected := collect_one (memberStep_winds member?_moves name)
    (congrArg (·.1) step) (by
      rw [step]
      exact memberStep_stops (by rw [Cursor.atKind_of_rest left isClosing, Bool.or_true]))
  rw [step, read] at collected
  refine ⟨_, collected, left, ?_⟩
  rw [alike₁.errors, clean]
  rfl

/-- The tokens of a class that holds a method. -/
theorem tokens_classText {text name : String} (complete : ¬EndsInComment text)
    (isName : IsIdentifier name)
    (closes : ∀ last ∈ (tokens text 0).getLast?,
      last.kind = .closeBrace ∨ last.kind = .semicolon) :
    ∃ keyword word opening closing : Token, keyword.kind = .ident ∧ keyword.text = "class" ∧
      word.kind = .ident ∧ word.text = name ∧ opening.kind = .openBrace ∧
      opening.span.stop ≤ byteLength (classHead name).toList ∧ closing.kind = .closeBrace ∧
      tokens (classText name text) 0 = keyword :: word :: opening ::
        ((tokens text 0).map (Token.moved (· + byteLength (classHead name).toList)) ++
          [closing]) := by
  obtain ⟨closing, isClosing, body⟩ := scans_classBody complete closes
    (byteLength (classHead name).toList)
  obtain ⟨keyword, word, opening, isKeyword, isClass, isWord, isName, isOpening, within, scans⟩ :=
    scans_classHead isName body
  refine ⟨keyword, word, opening, closing, isKeyword, isClass, isWord, isName, isOpening, within,
    isClosing, Scans.tokens_eq ?_⟩
  rw [classText, String.toList_append, String.toList_append, List.append_assoc]
  exact scans

theorem ofUnit_method (header : TypeHeader) (decl : MethodDecl) (span : Span) :
    Method.ofUnit ⟨[⟨header, [.method decl]⟩], span⟩ =
      [Method.ofSource decl (some header.name)] := rfl

theorem parse_eq (text : String) :
    parse text = ⟨(compilationUnit (.ofText text 0)).1,
      (compilationUnit (.ofText text 0)).2.errors⟩ := rfl

/-- Behind the opening brace of a class the method is read as it is read alone. -/
theorem Frame.alike_behind_head {text source : String} {start : Nat}
    {keyword word opening closing : Token} (isClosing : closing.kind = .closeBrace)
    (found : (Cursor.ofText source 0).rest = keyword :: word :: opening ::
      ((tokens text 0).map (Token.moved (· + start)) ++ [closing]))
    (within : opening.span.stop ≤ start) :
    (Frame.enclosing start closing isClosing).Alike (.ofText text 0)
      (Cursor.ofText source 0).next.next.next := by
  have third := Cursor.rest_next (Cursor.rest_next found)
  refine ⟨Cursor.rest_next third, fun place => ?_, nofun, ?_⟩
  · have lastEnd : (Cursor.ofText source 0).next.next.next.lastEnd = opening.span.stop := by
      rw [Cursor.next, third]
    rw [lastEnd, show (Cursor.ofText text 0).lastEnd = 0 from rfl, Nat.zero_max]
    exact max_eq_right (within.trans (Nat.le_add_left start place))
  · rw [Cursor.errors_next, Cursor.errors_next, Cursor.errors_next]
    rfl

/-- A method inside a class is read as it is read alone, as far on as it stands, and becomes the
one method of the class. -/
theorem parse_classText {text name : String} {decl : MethodDecl}
    (accepted : parseMethod text = ⟨some decl, []⟩) (complete : ¬EndsInComment text)
    (isName : IsIdentifier name) :
    (parse (classText name text)).errors = [] ∧
    (∃ header : TypeHeader, header.kind = .classType ∧ header.name = name ∧
      (parse (classText name text)).value.types =
        [⟨header, [.method (decl.moved (· + byteLength (classHead name).toList))]⟩]) ∧
    Method.ofUnit (parse (classText name text)).value =
      [(Method.ofSource decl (some name)).moved (· + byteLength (classHead name).toList)] := by
  obtain ⟨yields, clean, atEnd⟩ := member?_of_parseMethod accepted
  -- A method ends in a brace or a semicolon, so its last token ends where its text does.
  have closes : ∀ last ∈ (tokens text 0).getLast?,
      last.kind = .closeBrace ∨ last.kind = .semicolon := by
    obtain ⟨token, closes, ⟨front, whole⟩, -⟩ := member?_ends yields clean
    intro last isLast
    rw [atEnd, show (Cursor.ofText text 0).rest = tokens text 0 from rfl] at whole
    rw [← whole, List.getLast?_concat, Option.mem_some_iff] at isLast
    exact isLast ▸ closes
  obtain ⟨keyword, word, opening, closing, isKeyword, isClass, isWord, rfl, isOpening, within,
    isClosing, isTokens⟩ := tokens_classText complete isName closes
  -- Behind the head of the class the cursor is like the one on the text alone.
  have found : (Cursor.ofText (classText word.text text) 0).rest = _ := isTokens
  have alike := Frame.alike_behind_head isClosing found within
  obtain ⟨end₁, collected, left, noErrors⟩ :=
    collect_enclosed alike rfl yields clean atEnd word.text
  have declared := typeDecl?_class found isKeyword isClass isWord isOpening collected left isClosing
  have unit := compilationUnit_one found (by rw [isClass]; decide) declared (Cursor.rest_next left)
  rw [parse_eq, unit]
  refine ⟨by rw [Cursor.errors_next, noErrors], ⟨_, rfl, rfl, rfl⟩, ?_⟩
  rw [ofUnit_method, Method.ofSource_moved]
  rfl

theorem parse_classText_guarded : ∃ decl,
    parseMethod "int b(C c) { return c; } // d" = ⟨some decl, []⟩ ∧
    ¬EndsInComment "int b(C c) { return c; } // d" ∧ IsIdentifier "A" ∧
    Method.ofUnit (parse (classText "A" "int b(C c) { return c; } // d")).value =
      [(Method.ofSource decl (some "A")).moved (· + 10)] := by
  have clean : (parseMethod "int b(C c) { return c; } // d").errors = [] := by decide +kernel
  obtain ⟨decl, yields⟩ := exists_of_parseMethod clean
  have accepted : parseMethod "int b(C c) { return c; } // d" = ⟨some decl, []⟩ := by
    rw [← yields, ← clean]
  have complete : ¬EndsInComment "int b(C c) { return c; } // d" :=
    not_endsInComment (by decide)
  have isName : IsIdentifier "A" := ⟨'A', [], rfl, by decide, List.forall_mem_nil _⟩
  exact ⟨decl, accepted, complete, isName, (parse_classText accepted complete isName).2.2⟩

end MethodContracts.Source
