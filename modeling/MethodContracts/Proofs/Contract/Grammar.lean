import MethodContracts.Contract.Text
import MethodContracts.Proofs.Text.Spacing

/-!
# The grammar of contracts

A contract is spelled as its arguments with commas between, an arrow and its result,
and a list of contracts as its members with semicolons between, with free white space
around every token. Reading accepts exactly what is spelled like this. Otherwise the
first clause that is no contract is at fault, and its own first fault decides the error.
-/
namespace MethodContracts

open Text

/-! ## Reading in steps -/

section Steps

variable {ε α β : Type}

private theorem bind_eq_ok_iff {outcome : Except ε α} {next : α → Except ε β} {value : β} :
    (outcome >>= next) = .ok value ↔ ∃ first, outcome = .ok first ∧ next first = .ok value := by
  cases outcome <;> simp [bind, Except.bind]

private theorem bind_eq_error_iff {outcome : Except ε α} {next : α → Except ε β} {error : ε} :
    (outcome >>= next) = .error error ↔
      outcome = .error error ∨ ∃ first, outcome = .ok first ∧ next first = .error error := by
  cases outcome <;> simp [bind, Except.bind]

variable (f : α → Except ε β)

private theorem mapM_eq_ok_iff (xs : List α) (ys : List β) :
    xs.mapM f = .ok ys ↔ List.Forall₂ (fun y x => f x = .ok y) ys xs := by
  induction xs generalizing ys with
  | nil => cases ys <;> simp [pure, Except.pure]
  | cons x xs ih =>
    simp only [List.mapM_cons, bind_eq_ok_iff, ih, List.forall₂_cons_right_iff]
    constructor
    · rintro ⟨y, first, ys, rest, returned⟩
      cases returned
      exact ⟨y, ys, first, rest, rfl⟩
    · rintro ⟨y, ys, first, rest, rfl⟩
      exact ⟨y, first, ys, rest, rfl⟩

/-- The first member that cannot be read decides the error. -/
private theorem mapM_eq_error_iff (xs : List α) (error : ε) :
    xs.mapM f = .error error ↔ ∃ front x back, xs = front ++ x :: back ∧
      (∀ other ∈ front, ∃ y, f other = .ok y) ∧ f x = .error error := by
  -- The first element that fails is the head, or the head is read and the tail fails.
  induction xs with
  | nil => simp [pure, Except.pure]
  | cons x xs ih =>
    simp only [List.mapM_cons, bind_eq_error_iff]
    constructor
    · rintro (here | ⟨y, first, later | ⟨ys, _, returned⟩⟩)
      · exact ⟨[], x, xs, rfl, List.forall_mem_nil _, here⟩
      · obtain ⟨front, fault, back, rfl, read, failed⟩ := ih.mp later
        exact ⟨x :: front, fault, back, rfl, List.forall_mem_cons.mpr ⟨⟨y, first⟩, read⟩, failed⟩
      · cases returned
    · rintro ⟨front, fault, back, same, read, failed⟩
      cases front with
      | nil =>
        cases same
        exact Or.inl failed
      | cons other front =>
        cases same
        obtain ⟨⟨y, first⟩, read⟩ := List.forall_mem_cons.mp read
        exact Or.inr ⟨y, first, Or.inl (ih.mpr ⟨front, fault, back, rfl, read, failed⟩)⟩

end Steps

/-! ## Lists with separators -/

section Lists

variable {α ε : Type} (separator : Char) (read : List Char → Except ε α)

/-- Reads what stands between separators; a blank text has no members. -/
def readList (cs : List Char) : Except ε (List α) :=
  if trim cs = [] then .ok [] else (splitOn separator cs).mapM read

/-- Where members are read from spaced tokens, lists are read from spaced tokens with
separators between the members. -/
private theorem readList_eq_ok_iff (tokens : α → List (List Char)) (Good : α → Prop)
    (reads : ∀ piece x, read piece = .ok x ↔ Good x ∧ Spaced (tokens x) piece)
    (solid : ∀ x, ∃ token ∈ tokens x, Solid token) (dense : isBlank separator = false)
    (free : ∀ x, ∀ token ∈ tokens x, separator ∉ token) (cs : List Char) (xs : List α) :
    readList separator read cs = .ok xs ↔
      (∀ x ∈ xs, Good x) ∧ Spaced ([[separator]].intercalate (xs.map tokens)) cs := by
  rw [readList]
  cases xs with
  | nil =>
    -- Only a blank text has no members.
    have some := splitOn_ne_nil separator cs
    by_cases empty : trim cs = []
    · simpa [empty, Spaced.nil_iff] using trim_eq_nil_iff.mp empty
    · simpa [empty, Spaced.nil_iff, mapM_eq_ok_iff, some] using
        fun blank => empty (trim_eq_nil_iff.mpr blank)
  | cons x xs =>
    obtain ⟨token, member, isSolid⟩ := solid x
    have inside : token ∈ [[separator]].intercalate ((x :: xs).map tokens) := by
      cases xs with
      | nil => simpa using member
      | cons next xs => simp [List.intercalate_cons_cons, member]
    have pieces : ∀ group ∈ (x :: xs).map tokens, ∀ token ∈ group, separator ∉ token := by
      intro group found
      obtain ⟨y, _, rfl⟩ := List.mem_map.mp found
      exact free y
    by_cases empty : trim cs = []
    · have unspaced : ¬Spaced ([[separator]].intercalate ((x :: xs).map tokens)) cs :=
        fun spaced => spaced.not_blank inside isSolid (trim_eq_nil_iff.mp empty)
      rw [if_pos empty]
      exact iff_of_false (by simp) fun both => unspaced both.2
    · rw [if_neg empty, mapM_eq_ok_iff, spaced_intercalate_iff dense (by simp) pieces,
        List.forall₂_map_left_iff, ← List.forall₂_and_left]
      simp only [reads]

private theorem readList_eq_error_iff (cs : List Char) (error : ε) :
    readList separator read cs = .error error ↔ ¬Blank cs ∧
      ∃ front piece back, Pieces separator cs (front ++ piece :: back) ∧
        (∀ other ∈ front, ∃ x, read other = .ok x) ∧ read piece = .error error := by
  rw [readList, ← trim_eq_nil_iff]
  split
  next empty => simp [empty]
  next filled =>
    simp only [mapM_eq_error_iff, pieces_iff, filled, not_false_eq_true, true_and]

end Lists

/-! ## Constraints -/

namespace Constraint

def token (constraint : Constraint) : List Char := constraint.text.toList

private theorem token_solid (constraint : Constraint) : Solid constraint.token := by
  cases constraint <;> decide

/-- No separator is part of a constraint. -/
private theorem token_plain (constraint : Constraint) :
    ∀ c ∈ [',', ';', '>'], c ∉ constraint.token := by
  cases constraint <;> simp [token, text]

private theorem ofText?_eq_some_iff (constraint : Constraint) (cs : List Char) :
    ofText? cs = some constraint ↔ Spaced [constraint.token] cs := by
  rw [← trim_eq_iff constraint.token_solid]
  constructor
  · intro found
    have same := List.find?_some found
    exact (beq_iff_eq.mp same).symm
  · intro trimmed
    rw [ofText?, trimmed]
    cases constraint <;> decide

theorem parse_eq_ok_iff (constraint : Constraint) (cs : List Char) :
    parse cs = .ok constraint ↔ Spaced [constraint.token] cs := by
  rw [← ofText?_eq_some_iff, parse]
  cases ofText? cs <;> simp

theorem parse_eq_error_iff (error : ContractError) (cs : List Char) :
    parse cs = .error error ↔ (∀ constraint : Constraint, ¬Spaced [constraint.token] cs) ∧
      error = .unknownConstraint (String.ofList (trim cs)) := by
  simp only [← ofText?_eq_some_iff, parse]
  cases ofText? cs <;> simp [eq_comm]

private theorem parse_trim (cs : List Char) : parse (trim cs) = parse cs := by
  simp only [parse, ofText?, trim_trim]

end Constraint

/-! ## One contract -/

/-- The constraints with commas between. -/
def Arguments.tokens (arguments : Arguments) : List (List Char) :=
  [[',']].intercalate (arguments.map fun argument => [argument.token])

namespace Contract

def arrow : List Char := ['-', '>']

def tokens (contract : Contract) : List (List Char) :=
  contract.arguments.tokens ++ [arrow, contract.result.token]

/-- The clause is the contract, with free white space around every token. -/
structure Spells (contract : Contract) (clause : List Char) : Prop where
  noFail : .fail ∉ contract.arguments
  spaced : Spaced contract.tokens clause

/-- The piece is a constraint that may stand before the arrow. -/
def IsArgument (piece : List Char) : Prop :=
  ∃ constraint : Constraint, constraint ≠ .fail ∧ Spaced [constraint.token] piece

/-- Why a piece may not stand before the arrow of the clause. -/
inductive ArgumentFault (clause piece : List Char) : ContractError → Prop
  | unknown : (∀ constraint : Constraint, ¬Spaced [constraint.token] piece) →
    ArgumentFault clause piece (.unknownConstraint (String.ofList (trim piece)))
  | failing : Spaced [Constraint.fail.token] piece →
    ArgumentFault clause piece (.failingArgument (String.ofList (trim clause)))

/-- Why a clause is no contract. Of several faults a missing arrow comes first, then the
result, then the arguments from left to right. -/
inductive Faults (clause : List Char) : ContractError → Prop
  | missingArrow : ¬arrow <:+: clause → Faults clause (.missingArrow (String.ofList (trim clause)))
  | emptyResult {before after : List Char} : First arrow clause before after → Blank after →
    Faults clause (.emptyResult (String.ofList (trim clause)))
  | unknownResult {before after : List Char} : First arrow clause before after → ¬Blank after →
    (∀ constraint : Constraint, ¬Spaced [constraint.token] after) →
    Faults clause (.unknownConstraint (String.ofList (trim after)))
  | argument {before after piece : List Char} {front back : List (List Char)}
    {result : Constraint} {error : ContractError} : First arrow clause before after →
    Spaced [result.token] after → ¬Blank before → Pieces ',' before (front ++ piece :: back) →
    (∀ other ∈ front, IsArgument other) → ArgumentFault clause piece error → Faults clause error

private theorem arrow_solid : Solid arrow := by decide

/-! ### Arguments -/

/-- Reads one argument of the clause. -/
def readArgument (clause piece : List Char) : Except ContractError Constraint := do
  let constraint ← Constraint.parse piece
  if constraint = .fail then throw (.failingArgument (String.ofList clause))
  else return constraint

/-- Reads what stands before the arrow of the clause. -/
def readArguments (clause before : List Char) : Except ContractError Arguments :=
  readList ',' (readArgument clause) before

private theorem parseArguments_eq_mapM (clause : List Char) (pieces : List (List Char)) :
    parseArguments clause pieces = pieces.mapM (readArgument clause) := by
  induction pieces with
  | nil => rfl
  | cons piece pieces ih =>
    rw [parseArguments, List.mapM_cons, readArgument, ih]
    cases Constraint.parse piece with
    | error error => rfl
    | ok constraint =>
      -- `fail` is a constraint that parses but that no argument may have.
      by_cases failing : constraint = .fail
      · simp only [bind, Except.bind, failing, ite_true]
        rfl
      · simp only [bind, Except.bind, failing, ite_false]
        rfl

private theorem readArgument_trim (clause piece : List Char) :
    readArgument clause (trim piece) = readArgument clause piece := by
  simp only [readArgument, Constraint.parse_trim]

/-- White space around all arguments is white space around the first and the last. -/
private theorem parseArguments_trim (clause before : List Char) :
    (if trim before = [] then .ok [] else parseArguments clause (splitOn ',' (trim before))) =
      readArguments clause before := by
  have same : (splitOn ',' (trim before)).mapM (readArgument clause) =
      (splitOn ',' before).mapM (readArgument clause) := by
    have trimmed : readArgument clause = readArgument clause ∘ trim :=
      funext fun piece => (readArgument_trim clause piece).symm
    rw [trimmed, ← List.mapM_map, ← List.mapM_map, splitOn_trim (by decide)]
  rw [parseArguments_eq_mapM, same]
  rfl

private theorem readArgument_eq_ok_iff (clause piece : List Char) (constraint : Constraint) :
    readArgument clause piece = .ok constraint ↔
      constraint ≠ .fail ∧ Spaced [constraint.token] piece := by
  rw [readArgument, bind_eq_ok_iff, ← Constraint.parse_eq_ok_iff]
  constructor
  · rintro ⟨found, read, returned⟩
    split at returned
    next => cases returned
    next proper =>
      cases returned
      exact ⟨proper, read⟩
  · rintro ⟨proper, read⟩
    exact ⟨constraint, read, if_neg proper⟩

private theorem readArgument_eq_error_iff (clause piece : List Char) (error : ContractError) :
    readArgument (trim clause) piece = .error error ↔ ArgumentFault clause piece error := by
  rw [readArgument, bind_eq_error_iff, Constraint.parse_eq_error_iff]
  constructor
  · rintro (⟨unknown, rfl⟩ | ⟨found, read, returned⟩)
    · exact .unknown unknown
    · split at returned
      next failing =>
        cases returned
        subst failing
        exact .failing ((Constraint.parse_eq_ok_iff _ _).mp read)
      next => cases returned
  · rintro (unknown | failing)
    · exact Or.inl ⟨unknown, rfl⟩
    · exact Or.inr ⟨.fail, (Constraint.parse_eq_ok_iff _ _).mpr failing, if_pos rfl⟩

private theorem isArgument_iff (clause piece : List Char) :
    IsArgument piece ↔ ∃ constraint, readArgument clause piece = .ok constraint := by
  simp only [readArgument_eq_ok_iff, IsArgument]

private theorem readArguments_eq_ok_iff (clause before : List Char) (arguments : Arguments) :
    readArguments clause before = .ok arguments ↔
      .fail ∉ arguments ∧ Spaced arguments.tokens before := by
  rw [readArguments, readList_eq_ok_iff ',' _ (fun argument => [argument.token])
    (fun argument => argument ≠ .fail) (readArgument_eq_ok_iff clause)
    (fun argument => ⟨_, List.mem_cons_self, argument.token_solid⟩) (by decide)
    (by simpa using fun argument : Constraint => argument.token_plain ',' (by decide)),
    List.forall_mem_ne', Arguments.tokens]

private theorem readArguments_eq_error_iff (clause before : List Char) (error : ContractError) :
    readArguments (trim clause) before = .error error ↔ ¬Blank before ∧
      ∃ front piece back, Pieces ',' before (front ++ piece :: back) ∧
        (∀ other ∈ front, IsArgument other) ∧ ArgumentFault clause piece error := by
  simp only [readArguments, readList_eq_error_iff, readArgument_eq_error_iff, ← isArgument_iff]

/-! ### Clauses -/

/-- White space around a clause does not move its first arrow. -/
private theorem first_trim {clause before after : List Char}
    (cut : First arrow clause before after) :
    First arrow (trim clause) (trimLeft before) (trimRight after) where
  joined := by rw [cut.joined, arrow_solid.trim_append]
  first := by
    intro earlier
    apply cut.first
    obtain ⟨gap, whole⟩ : trimLeft before <:+ before := List.dropWhile_suffix isBlank
    have inside : trimLeft before ++ arrow.dropLast <:+ before ++ arrow.dropLast :=
      ⟨gap, by rw [← List.append_assoc, whole]⟩
    exact earlier.trans inside.isInfix

private theorem parse_of_first {clause before after : List Char}
    (cut : First arrow clause before after) : parse clause =
      if trim after = [] then .error (.emptyResult (String.ofList (trim clause)))
      else do
        let result ← Constraint.parse after
        let arguments ← readArguments (trim clause) before
        return ⟨arguments, result⟩ := by
  have split := splitFirst_eq_some arrow_solid.ne_nil (first_trim cut)
  rw [arrow] at split
  -- The spaces that are trimmed one side at a time do not matter to the parts.
  have result : Constraint.parse (trimRight after) = Constraint.parse after := by
    rw [← Constraint.parse_trim, trim_trimRight, Constraint.parse_trim]
  simp only [parse, split, trim_trimRight, trim_trimLeft, result, ← parseArguments_trim]
  split
  next => rfl
  next =>
    by_cases none : trim before = []
    · simp only [none, ite_true]
      rfl
    · simp only [none, ite_false]

private theorem parse_of_absent {clause : List Char} (absent : ¬arrow <:+: clause) :
    parse clause = .error (.missingArrow (String.ofList (trim clause))) := by
  obtain ⟨before, after, _, _, whole⟩ := exists_trim clause
  have inside : trim clause <:+: clause := ⟨before, after, whole.symm⟩
  have none := splitFirst_eq_none fun present : arrow <:+: trim clause =>
    absent (present.trans inside)
  rw [arrow] at none
  simp only [parse, none]

private theorem tokens_plain (arguments : Arguments) :
    ∀ token ∈ arguments.tokens, '>' ∉ token ∧ ';' ∉ token := by
  intro token member
  -- A token of the arguments is a comma or the name of a constraint.
  rcases mem_intercalate member with mark | ⟨group, found, inside⟩
  · cases List.mem_singleton.mp mark
    decide
  · obtain ⟨constraint, _, rfl⟩ := List.mem_map.mp found
    cases List.mem_singleton.mp inside
    exact ⟨constraint.token_plain '>' (by decide), constraint.token_plain ';' (by decide)⟩

private theorem spells_iff (contract : Contract) (clause : List Char) :
    contract.Spells clause ↔ .fail ∉ contract.arguments ∧
      ∃ before after, First arrow clause before after ∧
        Spaced contract.arguments.tokens before ∧ Spaced [contract.result.token] after := by
  constructor
  · rintro ⟨noFail, spaced⟩
    obtain ⟨before, rest, rfl, arguments, marked⟩ := spaced.of_append
    cases marked with
    | @cons gap _ after _ blank result =>
      refine ⟨noFail, before ++ gap, after, ⟨by simp, ?_⟩, ?_, result⟩
      · -- No argument has the second character of an arrow.
        intro earlier
        have inside : '>' ∈ before ++ gap ++ arrow.dropLast :=
          earlier.subset (by decide)
        have plain := arguments.not_mem (by decide) fun token member =>
          (tokens_plain contract.arguments token member).1
        have gapPlain := blank.not_mem (show isBlank '>' = false by decide)
        simp [plain, gapPlain, arrow] at inside
      · simpa using arguments.append (Spaced.nil blank)
  · rintro ⟨noFail, before, after, ⟨rfl, _⟩, arguments, result⟩
    refine ⟨noFail, ?_⟩
    have marked : Spaced [arrow, contract.result.token] (arrow ++ after) :=
      (Spaced.single arrow).append result
    simpa [tokens] using arguments.append marked

theorem parse_eq_ok_iff (contract : Contract) (clause : List Char) :
    parse clause = .ok contract ↔ contract.Spells clause := by
  rw [spells_iff]
  constructor
  · intro returned
    by_cases present : arrow <:+: clause
    · obtain ⟨before, after, cut⟩ := exists_first arrow_solid.ne_nil present
      rw [parse_of_first cut] at returned
      split at returned
      next => cases returned
      next =>
        simp only [bind_eq_ok_iff, Constraint.parse_eq_ok_iff, readArguments_eq_ok_iff] at returned
        obtain ⟨result, after_spaced, arguments, ⟨noFail, before_spaced⟩, built⟩ := returned
        cases built
        exact ⟨noFail, before, after, cut, before_spaced, after_spaced⟩
    · rw [parse_of_absent present] at returned
      cases returned
  · rintro ⟨noFail, before, after, cut, arguments, result⟩
    have filled : trim after ≠ [] := fun empty =>
      result.not_blank List.mem_cons_self contract.result.token_solid (trim_eq_nil_iff.mp empty)
    rw [parse_of_first cut, if_neg filled, (Constraint.parse_eq_ok_iff _ _).mpr result]
    have read := (readArguments_eq_ok_iff (trim clause) before contract.arguments).mpr
      ⟨noFail, arguments⟩
    simp only [bind, Except.bind, read]
    rfl

theorem parse_eq_error_iff (clause : List Char) (error : ContractError) :
    parse clause = .error error ↔ Faults clause error := by
  constructor
  · intro failed
    by_cases present : arrow <:+: clause
    · obtain ⟨before, after, cut⟩ := exists_first arrow_solid.ne_nil present
      rw [parse_of_first cut] at failed
      split at failed
      next empty =>
        cases failed
        exact .emptyResult cut (trim_eq_nil_iff.mp empty)
      next filled =>
        have notBlank : ¬Blank after := fun blank => filled (trim_eq_nil_iff.mpr blank)
        simp only [bind_eq_error_iff, Constraint.parse_eq_error_iff, Constraint.parse_eq_ok_iff,
          readArguments_eq_error_iff] at failed
        rcases failed with ⟨unknown, rfl⟩ | ⟨result, read, fault | ⟨_, _, built⟩⟩
        · exact .unknownResult cut notBlank unknown
        · obtain ⟨filled, front, piece, back, pieces, read, fault⟩ := fault
          exact .argument cut ‹_› filled pieces read fault
        · cases built
    · rw [parse_of_absent present] at failed
      cases failed
      exact .missingArrow present
  · intro fault
    cases fault with
    | missingArrow absent => exact parse_of_absent absent
    | emptyResult cut blank => rw [parse_of_first cut, if_pos (trim_eq_nil_iff.mpr blank)]
    | unknownResult cut notBlank unknown =>
      have filled := fun empty => notBlank (trim_eq_nil_iff.mp empty)
      rw [parse_of_first cut, if_neg filled, bind_eq_error_iff]
      exact Or.inl ((Constraint.parse_eq_error_iff _ _).mpr ⟨unknown, rfl⟩)
    | @argument before after piece front back result _ cut spaced notBlank pieces read fault =>
      have filled := fun empty =>
        spaced.not_blank List.mem_cons_self result.token_solid (trim_eq_nil_iff.mp empty)
      have known := (Constraint.parse_eq_ok_iff result after).mpr spaced
      have failed := (readArguments_eq_error_iff clause before error).mpr
        ⟨notBlank, front, piece, back, pieces, read, fault⟩
      rw [parse_of_first cut, if_neg filled, known, bind_eq_error_iff]
      exact Or.inr ⟨result, rfl, bind_eq_error_iff.mpr (Or.inl failed)⟩

end Contract

/-! ## Lists of contracts -/

namespace Contracts

/-- The contracts with semicolons between. -/
def tokens (contracts : List Contract) : List (List Char) :=
  [[';']].intercalate (contracts.map Contract.tokens)

/-- The text is the contracts, with free white space around every token. -/
structure Spells (contracts : List Contract) (cs : List Char) : Prop where
  noFail : ∀ contract ∈ contracts, .fail ∉ contract.arguments
  spaced : Spaced (tokens contracts) cs

/-- The error is that of the first clause that is no contract. -/
def Blames (cs : List Char) (error : ContractError) : Prop :=
  ¬Blank cs ∧ ∃ front clause back, Pieces ';' cs (front ++ clause :: back) ∧
    (∀ other ∈ front, ∃ contract : Contract, contract.Spells other) ∧ Contract.Faults clause error

private theorem tokens_free (contract : Contract) : ∀ token ∈ contract.tokens, ';' ∉ token := by
  intro token member
  rw [Contract.tokens, List.mem_append, List.mem_cons, List.mem_singleton] at member
  rcases member with argument | rfl | rfl
  · exact (Contract.tokens_plain contract.arguments token argument).2
  · decide
  · exact contract.result.token_plain ';' (by decide)

theorem parse_eq_ok_iff (text : String) (contracts : List Contract) :
    parse text = .ok contracts ↔ Spells contracts text.toList := by
  have read : parse text = readList ';' Contract.parse text.toList := rfl
  rw [read, readList_eq_ok_iff ';' _ Contract.tokens (fun contract => .fail ∉ contract.arguments)
    (fun clause contract => (contract.parse_eq_ok_iff clause).trans
      ⟨fun spells => ⟨spells.noFail, spells.spaced⟩, fun both => ⟨both.1, both.2⟩⟩)
    (fun contract => ⟨Contract.arrow, by simp [Contract.tokens], Contract.arrow_solid⟩)
    (by decide) tokens_free]
  exact ⟨fun both => ⟨both.1, both.2⟩, fun spells => ⟨spells.noFail, spells.spaced⟩⟩

theorem parse_eq_error_iff (text : String) (error : ContractError) :
    parse text = .error error ↔ Blames text.toList error := by
  have read : parse text = readList ';' Contract.parse text.toList := rfl
  simp only [read, readList_eq_error_iff, Contract.parse_eq_ok_iff, Contract.parse_eq_error_iff,
    Blames]

/-- Reading accepts exactly the lists of contracts that the text spells, and otherwise
blames the first clause that is no contract for its first fault. -/
theorem parse_grammar (text : String) :
    (∀ contracts, parse text = .ok contracts ↔ Spells contracts text.toList) ∧
      ∀ error, parse text = .error error ↔ Blames text.toList error :=
  ⟨parse_eq_ok_iff text, parse_eq_error_iff text⟩

/-- The second clause is at fault first, and its result before its arguments. -/
example : parse "_ -> true; fail, x -> y; z" = .error (.unknownConstraint "y") := by decide

end Contracts

end MethodContracts
