import MethodContracts.Source.Cursor

/-!
# Bracketed groups of tokens

A group starts with an opening token and ends with the closing one that
balances it. A group can be measured ahead of reading, skipped, or read as
text. All three agree on where it ends; a group that is never closed has no
length, and skipping or reading it takes all tokens that are left.
-/
namespace MethodContracts.Source

/-- How deep a token leaves a group that was `depth` deep before it. -/
def depthAfter (opening closing kind : TokenKind) (depth : Nat) : Nat :=
  if kind = opening then depth + 1 else if kind = closing then depth - 1 else depth

/-- The number of tokens up to the one that closes a group `depth` deep. -/
def groupLengthFrom (opening closing : TokenKind) (depth : Nat) : List Token → Option Nat
  | [] => none
  | token :: rest =>
    let after := depthAfter opening closing token.kind depth
    if token.kind ≠ opening ∧ token.kind = closing ∧ after = 0 then some 1
    else (groupLengthFrom opening closing after rest).map (· + 1)

/-- The number of tokens of the group at the start of the list. -/
def groupLength? (opening closing : TokenKind) (tokens : List Token) : Option Nat :=
  groupLengthFrom opening closing 0 tokens

namespace Parser

/-- Skips one token of a group that is still open. -/
def skipGroupStep (opening closing : TokenKind) (depth : Nat) : Parser (Option Nat) := do
  if depth = 0 then return none
  match ← advance? with
  | none => return none
  | some token => return some (depthAfter opening closing token.kind depth)

/-- Skips the group at the cursor, if one starts there. -/
def skipGroup (opening closing : TokenKind) : Parser Unit := do
  if (← get).atKind opening then
    advance
    discard (iterate (skipGroupStep opening closing) 1)

/-- A group while it is read: how deep it is, its text, its end, and whether
it is complete. -/
structure GroupText where
  depth : Nat
  text : String
  stop : Nat
  complete : Bool
deriving DecidableEq, Repr

/-- Reads one token of a group that is not complete. -/
def groupTextStep (opening closing : TokenKind) (group : GroupText) :
    Parser (Option GroupText) := do
  if group.complete then return none
  match ← advance? with
  | none => return none
  | some token =>
    let depth := depthAfter opening closing token.kind group.depth
    let blank := if token.kind = .comma then " " else ""
    return some ⟨depth, group.text ++ token.text ++ blank, token.span.stop, depth == 0⟩

/-- Reads a group as text, a blank after each comma, with the end of its last token. -/
def groupText (opening closing : TokenKind) : Parser (String × Nat) := do
  let group ← iterate (groupTextStep opening closing) ⟨0, "", (← get).here, false⟩
  return (group.text, group.stop)

end Parser
end MethodContracts.Source
