import MethodContracts.Proofs.Contract.NormalForm
import MethodContracts.Proofs.Inference.Totality

/-!
# Contracts as declarations

Whatever the contracts of a method come from, each has one argument for each parameter,
and no argument is `fail`. So they can be written as the declaration of the method, which
then has no problems and wins. A declaration is used exactly if it can be read and has no
problems.
-/
namespace MethodContracts

/-- The arguments can be declared: one for each of `count` parameters, and none is `fail`. -/
structure Arguments.Declarable (count : Nat) (arguments : Arguments) : Prop where
  length_eq : arguments.length = count
  noFail : .fail ∉ arguments

namespace Arguments.Declarable

variable {count : Nat}

theorem unknown (count : Nat) : (Arguments.unknown count).Declarable count where
  length_eq := List.length_replicate
  noFail := by simp [Arguments.unknown]

/-- A slot may be pinned to anything but `fail`. -/
theorem set {state : Arguments} (declarable : state.Declarable count) (slot : Nat)
    {constraint : Constraint} (proper : constraint ≠ .fail) :
    Arguments.Declarable count (state.set slot constraint) where
  length_eq := by rw [List.length_set, declarable.length_eq]
  noFail := by
    intro member
    rcases List.mem_or_eq_of_mem_set member with kept | pinned
    · exact declarable.noFail kept
    · exact proper pinned.symm

end Arguments.Declarable

private theorem Constraint.negate_ne_fail {constraint : Constraint} (proper : constraint ≠ .fail) :
    constraint.negate ≠ .fail := by
  cases constraint <;> simp_all [negate]

/-! ## What pins keep -/

/-- A property of states that pinning a slot to a value keeps. -/
def KeptByPins (P : Arguments → Prop) : Prop :=
  ∀ (state : Arguments) (slot : Nat) (constraint : Constraint), constraint ≠ .fail → P state →
    P (state.set slot constraint)

theorem Arguments.Declarable.kept (count : Nat) : KeptByPins (Arguments.Declarable count) :=
  fun _ slot _ proper declarable => declarable.set slot proper

/-- What is handed on has the property if all contracts have it. -/
theorem Contract.forall_handed {P : Arguments → Prop} {contracts : List Contract}
    (each : ∀ contract ∈ contracts, P contract.arguments) (result : Constraint) :
    ∀ state ∈ argumentsWith result contracts, P state :=
  fun _ member => each _ ((mem_argumentsWith _ _ _).mp member)

namespace Tree

variable {params : List String} {limit : Option Nat} {P : Arguments → Prop}

namespace Expr

/-- No literal is `fail`. -/
private theorem constant?_ne_fail {expr : Expr} {constraint : Constraint}
    (found : expr.constant? = some constraint) : constraint ≠ .fail := by
  obtain ⟨kind, _, _, rfl, isConstant⟩ := constant?_eq_some found
  cases kind <;> cases isConstant <;> decide

private theorem comparison?_ne_fail {left right : Expr} {slot : Nat} {constraint : Constraint}
    (found : left.comparison? params right = some (slot, constraint)) : constraint ≠ .fail := by
  rcases comparison?_eq_some found with ⟨_, isConstant⟩ | ⟨_, isConstant⟩
  · exact constant?_ne_fail isConstant
  · exact constant?_ne_fail isConstant

private theorem atom_ne_fail {expr : Expr} {slot : Nat} {constraint whenEqual : Constraint}
    (asks : expr.atom params = .comparison slot constraint whenEqual) : constraint ≠ .fail := by
  obtain ⟨left, right, found⟩ := comparison?_of_atom asks
  exact comparison?_ne_fail found

end Expr

/-- No atom pins a slot to `fail`. -/
theorem Atom.yield_preserves (kept : KeptByPins P) (atom : Atom)
    (proper : ∀ slot constraint whenEqual, atom = .comparison slot constraint whenEqual →
      constraint ≠ .fail)
    {state : Arguments} (holds : P state) :
    ∀ contract ∈ atom.yield state, P contract.arguments := by
  intro contract member
  cases atom with
  | comparison slot constraint whenEqual =>
    have isProper := proper slot constraint whenEqual rfl
    simp only [yield, List.mem_cons, List.not_mem_nil, or_false] at member
    rcases member with rfl | rfl
    · exact kept state slot _ isProper holds
    · exact kept state slot _ (Constraint.negate_ne_fail isProper) holds
  | typeTest slot =>
    cases List.mem_singleton.mp member
    exact kept state slot _ (by decide) holds
  | constant constraint =>
    cases List.mem_singleton.mp member
    exact holds
  | use slot =>
    simp only [yield] at member
    split at member
    -- A name that is null yields nothing, one that is unknown is pinned, and else it is passed on.
    next => cases member
    next =>
      simp only [List.mem_cons, List.not_mem_nil, or_false] at member
      rcases member with rfl | rfl <;> exact kept state slot _ (by decide) holds
    next =>
      cases List.mem_singleton.mp member
      exact holds
  | unknown => cases member

namespace Expr

private theorem evalChain_preserves (stop : Constraint) (operands : List Expr)
    (each : ∀ operand ∈ operands, ∀ states : List Arguments, (∀ state ∈ states, P state) →
      ∀ contract ∈ operand.eval params limit states, P contract.arguments)
    (live : List Arguments) (holds : ∀ state ∈ live, P state) :
    ∀ contract ∈ evalChain params limit stop operands live, P contract.arguments := by
  intro contract member
  induction operands generalizing live with
  | nil => exact holds _ ((Contract.mem_each _ _ _).mp member).1
  | cons operand operands ih =>
    simp only [evalChain, List.mem_append, List.mem_filter] at member
    have first := each operand List.mem_cons_self live holds
    -- A contract is that of an operand, or comes from what an operand handed on.
    rcases member with ⟨final, _⟩ | later
    · exact first contract final
    · exact ih (fun other found => each other (List.mem_cons_of_mem _ found)) _
        (Contract.forall_handed first _) later

/-- Whatever pins keep passes from the states to the contracts of an expression. -/
theorem eval_preserves (kept : KeptByPins P) (expr : Expr) (states : List Arguments)
    (holds : ∀ state ∈ states, P state) :
    ∀ contract ∈ expr.eval params limit states, P contract.arguments := by
  induction expr using byShape generalizing states with
  | chain op stop operands span stops ih =>
    intro contract member
    rw [eval_chain stops, List.mem_ite_nil_right] at member
    exact evalChain_preserves stop operands ih states holds contract member.2
  | conditional condition whenTrue whenFalse span conditionIH trueIH falseIH =>
    intro contract member
    simp only [eval, List.mem_ite_nil_right, List.mem_append] at member
    have decided := conditionIH states holds
    rcases member.2 with chosen | chosen
    · exact trueIH _ (Contract.forall_handed decided _) contract chosen
    · exact falseIH _ (Contract.forall_handed decided _) contract chosen
  | paren inner span ih =>
    intro contract member
    simp only [eval, List.mem_ite_nil_right] at member
    exact ih states holds contract member.2
  | not operand span ih =>
    intro contract member
    simp only [eval, List.mem_ite_nil_right, Contract.mem_negated] at member
    exact ih states holds ⟨contract.arguments, contract.result.negate⟩ member.2.2
  | atomic expr isAtomic =>
    intro contract member
    simp only [eval_atomic isAtomic, List.mem_ite_nil_right, List.mem_flatMap] at member
    obtain ⟨_, state, found, member⟩ := member
    exact Atom.yield_preserves kept _ (fun _ _ _ => atom_ne_fail) (holds state found) contract
      member

end Expr

namespace Stmt

theorem eval_preserves (kept : KeptByPins P) (stmt : Stmt) (states : List Arguments)
    (holds : ∀ state ∈ states, P state) :
    ∀ contract ∈ (stmt.eval params limit states).contracts, P contract.arguments := by
  induction stmt using byChildren generalizing states with
  | step stmt ih =>
    have evaluated (value : Expr) (result : Constraint) :
        ∀ state ∈ Contract.argumentsWith result (value.eval params limit states), P state :=
      Contract.forall_handed (value.eval_preserves kept states holds) result
    intro contract member
    unfold eval at member
    split at member
    next only span => exact ih only List.mem_cons_self states holds contract member
    next condition whenTrue whenFalse span =>
      rcases List.mem_append.mp member with chosen | chosen
      · exact ih whenTrue List.mem_cons_self _ (evaluated condition _) contract chosen
      · exact ih whenFalse (by simp [children]) _ (evaluated condition _) contract chosen
    next condition whenTrue span =>
      exact ih whenTrue List.mem_cons_self _ (evaluated condition _) contract member
    next value span => exact holds _ ((Contract.mem_each _ _ _).mp member).1
    next value span => exact value.eval_preserves kept states holds contract member
    next condition message span =>
      exact evaluated condition _ _ ((Contract.mem_each _ _ _).mp member).1
    next => cases member

/-- Whatever pins keep passes from the states to the contracts of statements. -/
private theorem evalAll_preserves (kept : KeptByPins P) (stmts : List Stmt)
    (states : List Arguments) (holds : ∀ state ∈ states, P state) :
    ∀ contract ∈ evalAll params limit stmts states, P contract.arguments := by
  induction stmts using byGuards generalizing states with
  | nil =>
    intro contract member
    cases member
  | guard condition whenTrue span stmts ih =>
    -- Both the branch and the rest start from what the condition hands on.
    have evaluated (result : Constraint) :
        ∀ state ∈ Contract.argumentsWith result (condition.eval params limit states), P state :=
      Contract.forall_handed (condition.eval_preserves kept states holds) result
    intro contract member
    rw [evalAll_guard, List.mem_append, List.mem_ite_nil_right] at member
    rcases member with chosen | ⟨_, later⟩
    · exact whenTrue.eval_preserves kept _ (evaluated _) contract chosen
    · exact ih _ (evaluated _) contract later
  | last stmt stmts isLast =>
    rw [evalAll_last stmt stmts isLast]
    exact stmt.eval_preserves kept states holds

end Stmt

end Tree

/-! ## Methods -/

namespace Method

/-- What is inferred from a body that the check accepts can be declared. -/
theorem inferContracts_declarable (method : Method)
    (accepted : ∀ body ∈ method.body, body.validate = .ok ()) (maxStates : Nat) :
    ∃ contracts, method.inferContracts maxStates = .ok contracts ∧
      ∀ contract ∈ contracts, contract.arguments.Declarable method.params.length := by
  cases present : method.body with
  | none =>
    refine ⟨[], ?_, List.forall_mem_nil _⟩
    simp only [inferContracts, present]
  | some body =>
    have valid := body.valid_of_validate (accepted body present)
    refine ⟨_, method.inferContracts_eq body present valid maxStates, ?_⟩
    -- At first nothing is known, which can be declared, and pinning keeps that.
    apply Tree.Stmt.evalAll_preserves (Arguments.Declarable.kept _)
    intro state member
    cases List.mem_singleton.mp member
    exact .unknown _

private theorem usableContracts?_eq_some_iff (method : Method) (contracts : List Contract) :
    method.usableContracts? = some contracts ↔
      method.declaredContracts? = some (.ok contracts) ∧
        ∀ contract ∈ contracts, contract.arguments.length = method.params.length := by
  unfold usableContracts?
  split
  next declared read =>
    simp only [Option.ite_none_right_eq_some, List.all_eq_true, beq_iff_eq, read,
      Option.some.injEq, Except.ok.injEq]
    constructor
    · rintro ⟨fit, rfl⟩
      exact ⟨rfl, fit⟩
    · rintro ⟨rfl, fit⟩
      exact ⟨fit, rfl⟩
  -- No declaration was read, so there is none whose arguments fit.
  next unread =>
    constructor
    · intro impossible
      cases impossible
    · rintro ⟨read, _⟩
      exact absurd read (unread contracts)

private theorem declaredContracts?_eq_some_iff (method : Method)
    (outcome : Except ContractError (List Contract)) :
    method.declaredContracts? = some outcome ↔ ∃ note text,
      method.contractAnnotation? = some note ∧ note.value = some text ∧
        Contracts.parse text = outcome := by
  simp [declaredContracts?, Option.bind_eq_some_iff]

/-- A declaration that can be read has no problems exactly if each contract has one
argument for each parameter. -/
private theorem checkDeclared_eq_nil_iff (method : Method) (contracts : List Contract)
    (declared : method.declaredContracts? = some (.ok contracts)) :
    method.checkDeclared = [] ↔
      ∀ contract ∈ contracts, contract.arguments.length = method.params.length := by
  obtain ⟨note, text, found, value, read⟩ := (method.declaredContracts?_eq_some_iff _).mp declared
  simp [checkDeclared, found, value, read]

theorem exists_usable_iff (method : Method) :
    (∃ contracts, method.usableContracts? = some contracts) ↔
      (∃ contracts, method.declaredContracts? = some (.ok contracts)) ∧
        method.checkDeclared = [] := by
  simp only [usableContracts?_eq_some_iff]
  constructor
  · rintro ⟨contracts, declared, fit⟩
    exact ⟨⟨contracts, declared⟩, (method.checkDeclared_eq_nil_iff contracts declared).mpr fit⟩
  · rintro ⟨⟨contracts, declared⟩, clean⟩
    exact ⟨contracts, declared, (method.checkDeclared_eq_nil_iff contracts declared).mp clean⟩

/-- Usable contracts are returned if they are wanted, and inferred ones otherwise. -/
theorem contracts_of_usable (method : Method) (config : ContractConfig)
    (wanted : config.preferDeclared = true) (contracts : List Contract)
    (usable : method.usableContracts? = some contracts) :
    method.contracts config = .ok (.declared, contracts) := by
  simp only [Method.contracts, wanted, usable, ite_true]

theorem contracts_of_unusable (method : Method) (config : ContractConfig)
    (unusable : ¬(config.preferDeclared = true ∧
      ∃ contracts, method.usableContracts? = some contracts)) (contracts : List Contract)
    (inferred : method.inferContracts config.maxStates = .ok contracts) :
    method.contracts config = .ok (.inferred, contracts) := by
  have none : (if config.preferDeclared then method.usableContracts? else none) = none := by
    split
    next wanted =>
      rw [Option.eq_none_iff_forall_ne_some]
      exact fun contracts usable => unusable ⟨wanted, contracts, usable⟩
    next => rfl
  simp only [Method.contracts, none, inferred]
  rfl

/-- No text declares `fail` as an argument. -/
theorem usable_declarable (method : Method) (contracts : List Contract)
    (usable : method.usableContracts? = some contracts) :
    ∀ contract ∈ contracts, contract.arguments.Declarable method.params.length := by
  obtain ⟨declared, fit⟩ := (method.usableContracts?_eq_some_iff contracts).mp usable
  obtain ⟨_, text, _, _, read⟩ := (method.declaredContracts?_eq_some_iff _).mp declared
  have spells := (Contracts.parse_eq_ok_iff text contracts).mp read
  exact fun contract member => ⟨fit contract member, spells.noFail contract member⟩

/-- Contracts that can be declared are usable once an annotation has their text. -/
theorem usable_of_declarable (method : Method) (contracts : List Contract)
    (declarable : ∀ contract ∈ contracts, contract.arguments.Declarable method.params.length)
    (note : MethodAnnotation) (named : note.simpleName = "Contract")
    (value : note.value = some (Contracts.text contracts)) :
    ({ method with annotations := [note] } : Method).usableContracts? = some contracts := by
  rw [usableContracts?_eq_some_iff, declaredContracts?_eq_some_iff]
  refine ⟨⟨note, _, ?_, value, ?_⟩, fun contract member => (declarable contract member).length_eq⟩
  · simp [contractAnnotation?, named]
  · exact Contracts.parse_text contracts fun contract member => (declarable contract member).noFail

/-- A method has contracts under every configuration, and they can be declared: with their
text in a single annotation, the check reports nothing and they are the declared contracts.
A declaration is used exactly if it is wanted, can be read and has no problems. -/
theorem contracts_redeclared (method : Method)
    (accepted : ∀ body ∈ method.body, body.validate = .ok ()) (config : ContractConfig) :
    ∃ origin contracts, method.contracts config = .ok (origin, contracts) ∧
      (∀ contract ∈ contracts, contract.arguments.length = method.params.length ∧
        .fail ∉ contract.arguments) ∧
      (∀ note : MethodAnnotation, note.simpleName = "Contract" →
        note.value = some (Contracts.text contracts) →
          ({ method with annotations := [note] } : Method).checkDeclared = [] ∧
          ∀ maxStates, ({ method with annotations := [note] } : Method).contracts
            ⟨maxStates, true⟩ = .ok (.declared, contracts)) ∧
      (origin = .declared ↔ config.preferDeclared = true ∧
        (∃ declared, method.declaredContracts? = some (.ok declared)) ∧
          method.checkDeclared = []) := by
  -- Where the contracts come from does not matter for writing them back.
  obtain ⟨origin, contracts, returned, declarable, chosen⟩ :
      ∃ origin contracts, method.contracts config = .ok (origin, contracts) ∧
        (∀ contract ∈ contracts, contract.arguments.Declarable method.params.length) ∧
        (origin = .declared ↔ config.preferDeclared = true ∧
          ∃ declared, method.usableContracts? = some declared) := by
    by_cases used : config.preferDeclared = true ∧
        ∃ declared, method.usableContracts? = some declared
    · obtain ⟨wanted, contracts, usable⟩ := used
      exact ⟨.declared, contracts, method.contracts_of_usable config wanted contracts usable,
        method.usable_declarable contracts usable,
        iff_of_true rfl ⟨wanted, contracts, usable⟩⟩
    · obtain ⟨contracts, inferred, declarable⟩ :=
        method.inferContracts_declarable accepted config.maxStates
      exact ⟨.inferred, contracts, method.contracts_of_unusable config used contracts inferred,
        declarable, iff_of_false (by decide) used⟩
  refine ⟨origin, contracts, returned, fun contract member =>
    ⟨(declarable contract member).length_eq, (declarable contract member).noFail⟩, ?_, ?_⟩
  · intro note named value
    have usable := method.usable_of_declarable contracts declarable note named value
    exact ⟨((exists_usable_iff _).mp ⟨contracts, usable⟩).2,
      fun maxStates => contracts_of_usable _ ⟨maxStates, true⟩ rfl contracts usable⟩
  · rw [chosen, exists_usable_iff]

/-- The method `guardedChoice` with a declaration that has too few arguments. -/
def guardedDeclaration : Method :=
  { guardedChoice with annotations := [⟨"Contract", some "null -> fail", ⟨0, 0⟩⟩] }

/-- The annotation that declares what is inferred for that method. -/
def guardedNote : MethodAnnotation where
  name := "a.Contract"
  value := some "null, _ -> fail; null, true -> false; null, false -> true"
  span := ⟨3, 9⟩

theorem contracts_redeclared_guardedDeclaration :
    (∀ body ∈ guardedDeclaration.body, body.validate = .ok ()) ∧
      guardedDeclaration.contracts .default = .ok (.inferred,
        [⟨[.null, .any], .fail⟩, ⟨[.null, .isTrue], .isFalse⟩, ⟨[.null, .isFalse], .isTrue⟩]) ∧
      guardedDeclaration.declaredContracts? = some (.ok [⟨[.null], .fail⟩]) ∧
      guardedDeclaration.checkDeclared ≠ [] ∧
      guardedNote.simpleName = "Contract" ∧
      ({ guardedDeclaration with annotations := [guardedNote] } : Method).checkDeclared =
        [] ∧
      ∀ maxStates, ({ guardedDeclaration with annotations := [guardedNote] } :
        Method).contracts ⟨maxStates, true⟩ = .ok (.declared,
          [⟨[.null, .any], .fail⟩, ⟨[.null, .isTrue], .isFalse⟩,
            ⟨[.null, .isFalse], .isTrue⟩]) := by
  have accepted : ∀ body ∈ guardedDeclaration.body, body.validate = .ok () := by
    intro body present
    cases present
    rfl
  have computed : guardedDeclaration.contracts .default = .ok (.inferred,
      [⟨[.null, .any], .fail⟩, ⟨[.null, .isTrue], .isFalse⟩, ⟨[.null, .isFalse], .isTrue⟩]) := by
    decide
  have declared : guardedDeclaration.declaredContracts? = some (.ok [⟨[.null], .fail⟩]) := by
    decide
  obtain ⟨origin, contracts, returned, _, redeclared, chosen⟩ :=
    contracts_redeclared guardedDeclaration accepted .default
  rw [computed] at returned
  cases returned
  -- Were nothing reported, the declared contract would have been chosen.
  refine ⟨accepted, computed, declared, fun clean => ?_, by decide,
    redeclared guardedNote (by decide) (by decide)⟩
  have impossible := chosen.mpr ⟨rfl, ⟨_, declared⟩, clean⟩
  cases impossible

end Method

end MethodContracts
