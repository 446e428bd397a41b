import MethodContracts.Proofs.Contract.Grammar

/-!
# The normal form of contracts

What is written for contracts spells them, so reading gives them back unless an argument
is `fail`, which no text spells. The normal form of a text is what is written for its
contracts: it has the same contracts and is its own normal form.
-/
namespace MethodContracts

open Text

/-- What is written between two members, after the separator. -/
private theorem blank_space : Blank [' '] := List.forall_mem_singleton.mpr rfl

private theorem Arguments.joined_spaced (arguments : Arguments) :
    Spaced arguments.tokens (joinWith [',', ' '] (arguments.map (·.text.toList))) := by
  have each : List.Forall₂ Spaced (arguments.map fun argument => [argument.token])
      (arguments.map (·.text.toList)) := by
    rw [List.forall₂_map_left_iff, List.forall₂_map_right_iff, List.forall₂_same]
    intro argument _
    exact .single argument.token
  rw [joinWith_eq]
  exact Spaced.intercalate blank_space each

private theorem Contract.render_spaced (contract : Contract) :
    Spaced contract.tokens contract.render := by
  have gap : Blank (if contract.arguments.isEmpty then [] else [' ']) := by
    split
    · exact .nil
    · exact blank_space
  have arguments := contract.arguments.joined_spaced.append (Spaced.nil gap)
  have mark : Spaced [arrow] ['-', '>', ' '] := Spaced.cons Blank.nil (.nil blank_space)
  have whole := (arguments.append mark).append (Spaced.single contract.result.token)
  rw [List.append_nil, List.append_assoc contract.arguments.tokens] at whole
  exact whole

namespace Contracts

private theorem text_spaced (contracts : List Contract) :
    Spaced (tokens contracts) (text contracts).toList := by
  have each : List.Forall₂ Spaced (contracts.map Contract.tokens)
      (contracts.map Contract.render) := by
    rw [List.forall₂_map_left_iff, List.forall₂_map_right_iff, List.forall₂_same]
    intro contract _
    exact contract.render_spaced
  rw [text, String.toList_ofList, joinWith_eq]
  exact Spaced.intercalate blank_space each

theorem parse_text (contracts : List Contract)
    (noFail : ∀ contract ∈ contracts, .fail ∉ contract.arguments) :
    parse (text contracts) = .ok contracts :=
  (parse_eq_ok_iff _ _).mpr ⟨noFail, text_spaced contracts⟩

/-- What is written for the contracts of a text. -/
def normalForm (written : String) : Except ContractError String := (parse written).map text

/-- Writing contracts and reading them loses nothing, exactly if no argument is `fail`.
The normal form of a text has the contracts of the text and is its own normal form. -/
theorem parse_text_lossless :
    (∀ contracts, parse (text contracts) = .ok contracts ↔
      ∀ contract ∈ contracts, .fail ∉ contract.arguments) ∧
    ∀ written contracts, parse written = .ok contracts →
      parse (text contracts) = .ok contracts ∧
        normalForm (text contracts) = .ok (text contracts) := by
  constructor
  · intro contracts
    exact ⟨fun read => ((parse_eq_ok_iff _ _).mp read).noFail, parse_text contracts⟩
  · intro written contracts read
    -- No text spells `fail` as an argument, so what was read can be written.
    have again := parse_text contracts ((parse_eq_ok_iff _ _).mp read).noFail
    refine ⟨again, ?_⟩
    rw [normalForm, again]
    rfl

theorem parse_text_lossless_mixed :
    parse "null,_->fail; -> true ;\t!null\u2003->_" =
        .ok [⟨[.null, .any], .fail⟩, ⟨[], .isTrue⟩, ⟨[.notNull], .any⟩] ∧
      parse "null, _ -> fail; -> true; !null -> _" =
        .ok [⟨[.null, .any], .fail⟩, ⟨[], .isTrue⟩, ⟨[.notNull], .any⟩] ∧
      normalForm "null, _ -> fail; -> true; !null -> _" =
        .ok "null, _ -> fail; -> true; !null -> _" := by
  have read : parse "null,_->fail; -> true ;\t!null\u2003->_" =
      .ok [⟨[.null, .any], .fail⟩, ⟨[], .isTrue⟩, ⟨[.notNull], .any⟩] := by decide
  have written : text [⟨[.null, .any], .fail⟩, ⟨[], .isTrue⟩, ⟨[.notNull], .any⟩] =
      "null, _ -> fail; -> true; !null -> _" := by decide
  have lossless := parse_text_lossless.2 _ _ read
  rw [written] at lossless
  exact ⟨read, lossless⟩

end Contracts

end MethodContracts
