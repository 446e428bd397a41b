import MethodContracts.Method.Basic
import MethodContracts.Tree.Allocate
import MethodContracts.Tree.OfSource

/-!
# Methods of source text

Every method declaration of a compilation unit, those of nested types included,
becomes a method. Constructors, initializers and fields do not.
-/
namespace MethodContracts

/-- The body that a source block stands for. -/
def Body.ofSource (block : Source.Block) : Body := (Tree.Stmt.ofSource block.toStmt).toBody

namespace Method

def ofSource (decl : Source.MethodDecl) (owner : Option String) : Method where
  name := decl.name
  owner := owner
  params := decl.params.map fun param => ⟨param.name, param.type.text⟩
  annotations := decl.annotations.map fun note =>
    ⟨note.name, note.stringValue? "value", note.span⟩
  body := decl.body.map Body.ofSource
  span := decl.span

mutual

/-- The methods of a member of the type `owner`. -/
def ofMember (owner : String) : Source.Member → List Method
  | .method decl => [ofSource decl (some owner)]
  | .type header members => ofMembers (owner ++ "." ++ header.name) members
  | .field _ | .constructor _ | .initializer _ => []

def ofMembers (owner : String) : List Source.Member → List Method
  | [] => []
  | member :: members => ofMember owner member ++ ofMembers owner members

end

def ofUnit (unit : Source.CompilationUnit) : List Method :=
  unit.types.flatMap fun decl => ofMembers decl.header.name decl.members

end Method
end MethodContracts
