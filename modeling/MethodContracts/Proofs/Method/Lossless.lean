import MethodContracts.Contract.Json
import MethodContracts.Method.Json
import MethodContracts.Proofs.Json.Decoding
import MethodContracts.Proofs.Json.Layout

/-!
# The JSON form is lossless

Methods and contracts are read back from what is written of them: from the JSON value, and
from the text of the JSON value in either layout. All that is asked of a method is that its
numbers are of the size they are read with; its body may refer to nodes that do not exist.
-/
namespace MethodContracts

open Json

/-! ## Numbers that fit -/

/-- Offsets are read as numbers of 64 bits. -/
def Span.InRange (span : Span) : Prop := span.start < offsetBound ∧ span.stop < offsetBound

/-- Places in an arena are read as numbers of 32 bits. -/
def StmtId.InRange (id : StmtId) : Prop := id.index < idBound

def ExprId.InRange (id : ExprId) : Prop := id.index < idBound

def Expr.InRange (expr : Expr) : Prop := expr.span.InRange ∧ ∀ id ∈ expr.children, id.InRange

def Stmt.InRange (stmt : Stmt) : Prop :=
  stmt.span.InRange ∧ (∀ id ∈ stmt.childStmts, id.InRange) ∧ ∀ id ∈ stmt.childExprs, id.InRange

/-! ## Parts of nodes -/

@[simp]
theorem Span.field?_toJson (span : Span) (fits : span.InRange) :
    field? (some span.toJson) = some span := by
  have read : fields? ["start", "end"] span.toJson =
      some [some (.nat span.start), some (.nat span.stop)] := fields?_members _ _ rfl (by decide)
  rw [field?, withDefault_some]
  simp only [ofJson?, read, required_some, natBelow?_nat fits.1, natBelow?_nat fits.2,
    Option.pure_def, Option.bind_eq_bind, Option.bind_some]

@[simp]
theorem StmtId.ofJson?_toJson (id : StmtId) (fits : id.InRange) : ofJson? id.toJson = some id := by
  rw [ofJson?, toJson, natBelow?_nat fits, Option.map_some]

@[simp]
theorem ExprId.ofJson?_toJson (id : ExprId) (fits : id.InRange) : ofJson? id.toJson = some id := by
  rw [ofJson?, toJson, natBelow?_nat fits, Option.map_some]

@[simp]
theorem StmtId.listOf?_toJson (ids : List StmtId) (fit : ∀ id ∈ ids, id.InRange) :
    listOf? ofJson? (.ofList toJson ids) = some ids :=
  listOf?_ofList ids fun id member => id.ofJson?_toJson (fit id member)

@[simp]
theorem ExprId.listOf?_toJson (ids : List ExprId) (fit : ∀ id ∈ ids, id.InRange) :
    listOf? ofJson? (.ofList toJson ids) = some ids :=
  listOf?_ofList ids fun id member => id.ofJson?_toJson (fit id member)

@[simp]
theorem StmtId.optional_toJson (id : Option StmtId) (fit : ∀ inner ∈ id.toList, inner.InRange) :
    optional ofJson? (some (.ofOption toJson id)) = some id :=
  optional_ofOption id nofun fun inner found =>
    inner.ofJson?_toJson (fit inner (Option.mem_toList.mpr found))

@[simp]
theorem ExprId.optional_toJson (id : Option ExprId) (fit : ∀ inner ∈ id.toList, inner.InRange) :
    optional ofJson? (some (.ofOption toJson id)) = some id :=
  optional_ofOption id nofun fun inner found =>
    inner.ofJson?_toJson (fit inner (Option.mem_toList.mpr found))

@[simp]
theorem Literal.ofPart?_word (kind : Literal) : ofPart? (.string kind.word) = some kind := by
  cases kind <;> rfl

@[simp]
theorem UnaryOp.ofPart?_word (op : UnaryOp) : ofPart? (.string op.word) = some op := by
  cases op <;> rfl

@[simp]
theorem BinaryOp.ofPart?_word (op : BinaryOp) : ofPart? (.string op.word) = some op := by
  cases op <;> rfl

/-! ## Nodes -/

/-- The content of a node is its fields and its span. -/
private theorem tagged?_nodeJson (form : KindForm) (kinds : List String) (kind : String)
    (fields : List (String × Json)) (span : Span)
    (distinct : ("kind" :: (fields.map (·.1) ++ ["range"])).Nodup) :
    tagged? form kinds (nodeJson kind fields span) =
      some (kind, .object (fields ++ [("range", span.toJson)])) := by
  have names : (fields ++ [("range", span.toJson)]).map (·.1) = fields.map (·.1) ++ ["range"] :=
    List.map_append
  exact tagged?_object form kinds kind _ (names ▸ distinct)

/-- The fields of a node are read by their names. -/
private theorem fields?_nodeJson (names : List String) (fields : List (String × Json)) (span : Span)
    (same : fields.map (·.1) ++ ["range"] = names) (distinct : names.Nodup) :
    fields? names (.object (fields ++ [("range", span.toJson)])) =
      some (fields.map (fun field => some field.2) ++ [some span.toJson]) := by
  have listed : (fields ++ [("range", span.toJson)]).map (·.1) = names := List.map_append.trans same
  rw [fields?_members names _ listed distinct, List.map_append]
  rfl

private theorem Expr.ofJson?_nodeJson (form : KindForm) (kind : String)
    (fields : List (String × Json))
    (span : Span) (names : fields.map (·.1) ++ ["range"] = fieldNames kind)
    (distinct : ("kind" :: fieldNames kind).Nodup) :
    ofJson? form (nodeJson kind fields span) =
      ofFields? kind (fields.map (fun field => some field.2) ++ [some span.toJson]) := by
  have tagged := tagged?_nodeJson form kinds kind fields span (names ▸ distinct)
  have read := fields?_nodeJson _ fields span names (List.nodup_cons.mp distinct).2
  simp only [ofJson?, tagged, read, Option.bind_eq_bind, Option.bind_some]

theorem Expr.ofJson?_toJson (form : KindForm) (expr : Expr) (fits : expr.InRange) :
    ofJson? form expr.toJson = some expr := by
  -- Each kind of expression writes the fields that it is read from, in their order.
  cases expr
  all_goals
    rw [toJson, ofJson?_nodeJson _ _ _ _ rfl (by decide)]
    simp only [InRange, span, children, List.forall_mem_cons] at fits
    simp +contextual [ofFields?, string?, argumentsField?, fits]

private theorem Stmt.ofJson?_nodeJson (form : KindForm) (kind : String)
    (fields : List (String × Json))
    (span : Span) (names : fields.map (·.1) ++ ["range"] = fieldNames kind)
    (distinct : ("kind" :: fieldNames kind).Nodup) :
    ofJson? form (nodeJson kind fields span) =
      ofFields? kind (fields.map (fun field => some field.2) ++ [some span.toJson]) := by
  have tagged := tagged?_nodeJson form kinds kind fields span (names ▸ distinct)
  have read := fields?_nodeJson _ fields span names (List.nodup_cons.mp distinct).2
  simp only [ofJson?, tagged, read, Option.bind_eq_bind, Option.bind_some]

theorem Stmt.ofJson?_toJson (form : KindForm) (stmt : Stmt) (fits : stmt.InRange) :
    ofJson? form stmt.toJson = some stmt := by
  cases stmt
  all_goals
    rw [toJson, ofJson?_nodeJson _ _ _ _ rfl (by decide)]
    simp only [InRange, span, childStmts, childExprs, List.forall_mem_cons] at fits
    simp +contextual [ofFields?, string?, fits]

/-! ## Bodies and methods -/

def Body.InRange (body : Body) : Prop :=
  body.root.InRange ∧ (∀ stmt ∈ body.stmts.toList, stmt.InRange) ∧
    ∀ expr ∈ body.exprs.toList, expr.InRange

/-- All numbers of the method are of the size they are read with. -/
def Method.InRange (method : Method) : Prop :=
  method.span.InRange ∧ (∀ note ∈ method.annotations, note.span.InRange) ∧
    ∀ body ∈ method.body.toList, body.InRange

instance (span : Span) : Decidable span.InRange := inferInstanceAs (Decidable (_ ∧ _))

instance (id : StmtId) : Decidable id.InRange := inferInstanceAs (Decidable (_ < _))

instance (id : ExprId) : Decidable id.InRange := inferInstanceAs (Decidable (_ < _))

instance (expr : Expr) : Decidable expr.InRange := inferInstanceAs (Decidable (_ ∧ _))

instance (stmt : Stmt) : Decidable stmt.InRange := inferInstanceAs (Decidable (_ ∧ _))

instance (body : Body) : Decidable body.InRange := inferInstanceAs (Decidable (_ ∧ _))

instance (method : Method) : Decidable method.InRange := inferInstanceAs (Decidable (_ ∧ _))

theorem Body.ofJson?_toJson (form : KindForm) (body : Body) (fits : body.InRange) :
    ofJson? form body.toJson = some body := by
  obtain ⟨rootFits, stmtsFit, exprsFit⟩ := fits
  have read : fields? ["root", "stmts", "exprs"] body.toJson =
      some [some body.root.toJson, some (.ofList Stmt.toJson body.stmts.toList),
        some (.ofList Expr.toJson body.exprs.toList)] := fields?_members _ _ rfl (by decide)
  have readStmts := listOf?_ofList body.stmts.toList fun stmt member =>
    stmt.ofJson?_toJson form (stmtsFit stmt member)
  have readExprs := listOf?_ofList body.exprs.toList fun expr member =>
    expr.ofJson?_toJson form (exprsFit expr member)
  simp only [ofJson?, read, required_some, body.root.ofJson?_toJson rootFits, readStmts, readExprs,
    Option.pure_def, Option.bind_eq_bind, Option.bind_some]

theorem Param.ofJson?_toJson (param : Param) : ofJson? param.toJson = some param := by
  have read : fields? ["name", "ty"] param.toJson =
      some [some (.string param.name), some (.string param.type)] :=
    fields?_members _ _ rfl (by decide)
  simp only [ofJson?, read, required_some, withDefault_some, string?, Option.pure_def,
    Option.bind_eq_bind, Option.bind_some]

private theorem optional_string (text : Option String) :
    optional string? (some (.ofOption .string text)) = some text :=
  optional_ofOption text nofun fun _ _ => rfl

theorem MethodAnnotation.ofJson?_toJson (note : MethodAnnotation) (fits : note.span.InRange) :
    ofJson? note.toJson = some note := by
  have read : fields? ["name", "value", "range"] note.toJson =
      some [some (.string note.name), some (.ofOption .string note.value),
        some note.span.toJson] := fields?_members _ _ rfl (by decide)
  simp only [ofJson?, read, required_some, string?, optional_string,
    note.span.field?_toJson fits, Option.pure_def, Option.bind_eq_bind, Option.bind_some]

namespace Method

private theorem fields?_toJson (method : Method) :
    fields? ["name", "owner", "params", "annotations", "body", "range"] method.toJson =
      some [some (.string method.name), method.owner.map .string,
        some (.ofList Param.toJson method.params),
        if method.annotations.isEmpty then none
        else some (.ofList MethodAnnotation.toJson method.annotations),
        some (.ofOption Body.toJson method.body), some method.span.toJson] := by
  rw [toJson]
  cases method.owner <;> cases method.annotations
  all_goals
    rw [fields?_object _ _ (by simp)]
    rfl

theorem ofJson?_toJson (form : KindForm) (method : Method) (fits : method.InRange) :
    ofJson? form method.toJson = some method := by
  obtain ⟨spanFits, notesFit, bodyFits⟩ := fits
  -- What is not written is what is read where nothing is.
  have readOwner : optional string? (method.owner.map .string) = some method.owner := by
    cases method.owner <;> rfl
  have readParams : listOf? Param.ofJson? (.ofList Param.toJson method.params) =
      some method.params := listOf?_ofList _ fun param _ => param.ofJson?_toJson
  have readNotes : withDefault [] (listOf? MethodAnnotation.ofJson?)
      (if method.annotations.isEmpty then none
        else some (.ofList MethodAnnotation.toJson method.annotations)) =
      some method.annotations := by
    have listed : listOf? MethodAnnotation.ofJson?
        (.ofList MethodAnnotation.toJson method.annotations) = some method.annotations :=
      listOf?_ofList _ fun note member => note.ofJson?_toJson (notesFit note member)
    split
    next empty => rw [List.isEmpty_iff.mp empty, withDefault]
    next => rw [withDefault_some, listed]
  have notNull : ∀ body ∈ method.body, body.toJson ≠ .null := by
    intro body _ isNull
    cases isNull
  have readBody : optional (Body.ofJson? form) (some (.ofOption Body.toJson method.body)) =
      some method.body :=
    optional_ofOption method.body notNull fun body present =>
      body.ofJson?_toJson form (bodyFits body (Option.mem_toList.mpr present))
  simp only [ofJson?, fields?_toJson, required_some, withDefault_some, string?, readOwner,
    readParams, readNotes, readBody, method.span.field?_toJson spanFits, Option.pure_def,
    Option.bind_eq_bind, Option.bind_some]

/-- A list of methods is read as that list. -/
theorem listOfJson?_ofList (form : KindForm) (methods : List Method)
    (fit : ∀ method ∈ methods, method.InRange) :
    listOfJson? form (.ofList toJson methods) = some methods := by
  rw [listOfJson?, listOf?_ofList methods fun method member => method.ofJson?_toJson form
    (fit method member)]
  rfl

/-- A single method is no list, and it is read as itself. -/
theorem listOfJson?_toJson (form : KindForm) (method : Method) (fits : method.InRange) :
    listOfJson? form method.toJson = some [method] := by
  have noList : listOf? (ofJson? form) method.toJson = none := rfl
  rw [listOfJson?, noList, method.ofJson?_toJson form fits]
  rfl

end Method

/-! ## Contracts -/

theorem Constraint.ofJson?_toJson (constraint : Constraint) :
    ofJson? constraint.toJson = some constraint := by
  cases constraint <;> rfl

theorem Contract.ofJson?_toJson (contract : Contract) :
    ofJson? contract.toJson = some contract := by
  have read : fields? ["arguments", "return_value"] contract.toJson =
      some [some contract.arguments.toJson, some contract.result.toJson] :=
    fields?_members _ _ rfl (by decide)
  have readArguments : Arguments.ofJson? contract.arguments.toJson = some contract.arguments :=
    listOf?_ofList _ fun constraint _ => constraint.ofJson?_toJson
  simp only [ofJson?, read, required_some, readArguments, contract.result.ofJson?_toJson,
    Option.pure_def, Option.bind_eq_bind, Option.bind_some]

/-! ## Texts -/

namespace Json

private theorem plain_int (depth : Nat) {n : Int} (fits : Fits n) : Plain depth (.int n) := by
  cases depth <;> exact fits

private theorem plain_string (depth : Nat) (text : String) : Plain depth (.string text) := by
  cases depth <;> exact trivial

private theorem plain_null (depth : Nat) : Plain depth .null := by
  cases depth <;> exact trivial

private theorem plain_nat (depth : Nat) {n : Nat} (fits : n < offsetBound) : Plain depth (.nat n) :=
  plain_int depth ⟨by omega, Int.ofNat_lt.mpr fits⟩

private theorem plain_ofOption {α : Type} {depth : Nat} {encode : α → Json} (value : Option α)
    (each : ∀ inner ∈ value.toList, Plain depth (encode inner)) :
    Plain depth (.ofOption encode value) := by
  cases value with
  | none => exact plain_null depth
  | some inner => exact each inner List.mem_cons_self

theorem plain_ofList {α : Type} {depth : Nat} {encode : α → Json} (values : List α)
    (each : ∀ value ∈ values, Plain depth (encode value)) :
    Plain (depth + 1) (.ofList encode values) :=
  List.forall_mem_map.mpr each

end Json

private theorem idBound_le_offsetBound : idBound ≤ offsetBound := by decide

theorem StmtId.plain (depth : Nat) (id : StmtId) (fits : id.InRange) : Plain depth id.toJson :=
  plain_nat depth (Nat.lt_of_lt_of_le fits idBound_le_offsetBound)

theorem ExprId.plain (depth : Nat) (id : ExprId) (fits : id.InRange) : Plain depth id.toJson :=
  plain_nat depth (Nat.lt_of_lt_of_le fits idBound_le_offsetBound)

private theorem StmtId.plain_list (depth : Nat) (ids : List StmtId) (fit : ∀ id ∈ ids, id.InRange) :
    Plain (depth + 1) (.ofList toJson ids) :=
  plain_ofList ids fun id member => id.plain depth (fit id member)

private theorem ExprId.plain_list (depth : Nat) (ids : List ExprId) (fit : ∀ id ∈ ids, id.InRange) :
    Plain (depth + 1) (.ofList toJson ids) :=
  plain_ofList ids fun id member => id.plain depth (fit id member)

private theorem StmtId.plain_option (depth : Nat) (id : Option StmtId)
    (fit : ∀ inner ∈ id.toList, inner.InRange) : Plain depth (.ofOption toJson id) :=
  plain_ofOption id fun inner found => inner.plain depth (fit inner found)

private theorem ExprId.plain_option (depth : Nat) (id : Option ExprId)
    (fit : ∀ inner ∈ id.toList, inner.InRange) : Plain depth (.ofOption toJson id) :=
  plain_ofOption id fun inner found => inner.plain depth (fit inner found)

theorem Span.plain (depth : Nat) (span : Span) (fits : span.InRange) :
    Plain (depth + 1) span.toJson := by
  simp only [toJson, Plain, List.forall_mem_cons]
  exact ⟨plain_nat depth fits.1, plain_nat depth fits.2, List.forall_mem_nil _⟩

private theorem plain_nodeJson (depth : Nat) (kind : String) (fields : List (String × Json))
    (span : Span) (fits : span.InRange) (each : ∀ field ∈ fields, Plain (depth + 1) field.2) :
    Plain (depth + 2) (nodeJson kind fields span) := by
  simp only [nodeJson, Plain, List.cons_append, List.forall_mem_cons, List.forall_mem_append]
  exact ⟨trivial, each, span.plain depth fits, List.forall_mem_nil _⟩

theorem Expr.plain (depth : Nat) (expr : Expr) (fits : expr.InRange) :
    Plain (depth + 2) expr.toJson := by
  -- Lists of places nest deepest, one level below the members.
  cases expr
  all_goals
    simp only [InRange, span, children, List.forall_mem_cons] at fits
    apply plain_nodeJson depth _ _ _ (by simp only [fits])
    simp +contextual [plain_string, ExprId.plain, ExprId.plain_list, fits]

theorem Stmt.plain (depth : Nat) (stmt : Stmt) (fits : stmt.InRange) :
    Plain (depth + 2) stmt.toJson := by
  cases stmt
  all_goals
    simp only [InRange, span, childStmts, childExprs, List.forall_mem_cons] at fits
    apply plain_nodeJson depth _ _ _ (by simp only [fits])
    simp +contextual [plain_string, ExprId.plain, ExprId.plain_option, StmtId.plain,
      StmtId.plain_list, StmtId.plain_option, fits]

theorem Body.plain (depth : Nat) (body : Body) (fits : body.InRange) :
    Plain (depth + 4) body.toJson := by
  obtain ⟨rootFits, stmtsFit, exprsFit⟩ := fits
  have stmts : Plain (depth + 3) (.ofList Stmt.toJson body.stmts.toList) :=
    plain_ofList _ fun stmt member => stmt.plain depth (stmtsFit stmt member)
  have exprs : Plain (depth + 3) (.ofList Expr.toJson body.exprs.toList) :=
    plain_ofList _ fun expr member => expr.plain depth (exprsFit expr member)
  simp only [toJson, Plain, List.forall_mem_cons]
  exact ⟨body.root.plain _ rootFits, stmts, exprs, List.forall_mem_nil _⟩

theorem Param.plain (depth : Nat) (param : Param) : Plain (depth + 1) param.toJson := by
  simp only [toJson, Plain, List.forall_mem_cons]
  exact ⟨trivial, trivial, List.forall_mem_nil _⟩

theorem MethodAnnotation.plain (depth : Nat) (note : MethodAnnotation)
    (fits : note.span.InRange) : Plain (depth + 2) note.toJson := by
  simp only [toJson, Plain, List.forall_mem_cons]
  exact ⟨trivial, plain_ofOption _ fun text _ => plain_string _ text, note.span.plain depth fits,
    List.forall_mem_nil _⟩

theorem Method.plain (depth : Nat) (method : Method) (fits : method.InRange) :
    Plain (depth + 5) method.toJson := by
  obtain ⟨spanFits, notesFit, bodyFits⟩ := fits
  have params : Plain (depth + 4) (.ofList Param.toJson method.params) :=
    plain_ofList _ fun param _ => param.plain (depth + 2)
  have notes : Plain (depth + 4) (.ofList MethodAnnotation.toJson method.annotations) :=
    plain_ofList _ fun note member => note.plain (depth + 1) (notesFit note member)
  have body : Plain (depth + 4) (.ofOption Body.toJson method.body) :=
    plain_ofOption _ fun body member => body.plain depth (bodyFits body member)
  have span : Plain (depth + 4) method.span.toJson := method.span.plain (depth + 3) spanFits
  -- The owner and the annotations are members only if there are any.
  rw [toJson]
  cases method.owner <;> by_cases empty : method.annotations.isEmpty = true
  all_goals simp [Plain, empty, params, notes, body, span]

theorem Contract.plain (depth : Nat) (contract : Contract) : Plain (depth + 2) contract.toJson := by
  have arguments : Plain (depth + 1) contract.arguments.toJson :=
    plain_ofList _ fun constraint _ => plain_string depth constraint.text
  simp only [toJson, Plain, List.forall_mem_cons]
  exact ⟨arguments, trivial, List.forall_mem_nil _⟩

/-! ## Values are read back -/

/-- The value is what is read from the JSON value, and from the texts that the JSON value is
written as. -/
structure Json.ReadsBack {α : Type} (decode : Json → Option α) (json : Json) (value : α) :
    Prop where
  decodes : decode json = some value
  parses : ∀ text ∈ json.texts, (parse? text).bind decode = some value

theorem Json.ReadsBack.of_plain {α : Type} {decode : Json → Option α} {json : Json} {value : α}
    (plain : Plain maxDepth json) (read : decode json = some value) :
    ReadsBack decode json value where
  decodes := read
  parses text member := by rw [parse?_texts plain text member, Option.bind_some, read]

/-- The JSON form is lossless. Every method with numbers of the size they are read with is
read back from what is written of it, as a method and as the only one of a list; so is every
list of such methods, and every list of contracts. -/
theorem Method.json_lossless (form : KindForm) :
    (∀ method : Method, method.InRange →
      ReadsBack (ofJson? form) method.toJson method ∧
        ReadsBack (listOfJson? form) method.toJson [method]) ∧
    (∀ methods : List Method, (∀ method ∈ methods, method.InRange) →
      ReadsBack (listOfJson? form) (.ofList toJson methods) methods) ∧
    ∀ contracts : List Contract,
      ReadsBack (listOf? Contract.ofJson?) (.ofList Contract.toJson contracts) contracts := by
  refine ⟨fun method fits => ?_, fun methods fit => ?_, fun contracts => ?_⟩
  · have plain : Plain maxDepth method.toJson := method.plain 122 fits
    exact ⟨.of_plain plain (method.ofJson?_toJson form fits),
      .of_plain plain (listOfJson?_toJson form method fits)⟩
  · have plain : Plain maxDepth (.ofList toJson methods) :=
      plain_ofList methods fun method member => method.plain 121 (fit method member)
    exact .of_plain plain (listOfJson?_ofList form methods fit)
  · have plain : Plain maxDepth (.ofList Contract.toJson contracts) :=
      plain_ofList contracts fun contract _ => contract.plain 124
    exact .of_plain plain (listOf?_ofList contracts fun contract _ => contract.ofJson?_toJson)

/-- A method with the largest numbers, whose body refers to nodes that do not exist. -/
def Method.dangling : Method where
  name := "quote\"d"
  owner := some ""
  params := [⟨"x", ""⟩, ⟨"\u00e9\x01\\", "T[]"⟩]
  annotations := [⟨"Contract", some "_ -> fail", ⟨0, 18446744073709551615⟩⟩, ⟨"a.B", none, ⟨7, 3⟩⟩]
  body := some {
    root := ⟨4294967295⟩
    stmts := #[.ifElse ⟨9⟩ ⟨0⟩ none ⟨0, 0⟩, .ifElse ⟨1⟩ ⟨4294967295⟩ (some ⟨2⟩) ⟨5, 1⟩,
      .returns none ⟨0, 7⟩, .local "" (some ⟨8⟩) ⟨1, 2⟩, .skipped "try" ⟨0, 0⟩, .block [] ⟨0, 0⟩]
    exprs := #[.literal .null "" ⟨0, 0⟩, .new "T" [⟨4294967295⟩] ⟨0, 0⟩, .chain .equal [] ⟨1, 1⟩,
      .unary .postIncrement ⟨3⟩ ⟨0, 18446744073709551615⟩, .lambda ⟨0, 0⟩] }
  span := ⟨18446744073709551615, 0⟩

/-- A method of which nothing but its name is known. -/
def Method.named (name : String) : Method := ⟨name, none, [], [], none, ⟨0, 0⟩⟩

theorem Method.json_lossless_dangling :
    Method.dangling.InRange ∧ (Method.named "f").InRange ∧
      Method.dangling.bodyFault? ≠ none ∧
      ReadsBack (ofJson? .numbered) Method.dangling.toJson .dangling ∧
      ReadsBack (listOfJson? .numbered) (Method.named "f").toJson [.named "f"] ∧
      ReadsBack (listOfJson? .numbered) (.ofList toJson [.named "f", .dangling])
        [.named "f", .dangling] := by
  have fits : Method.dangling.InRange := by decide
  have alone : (Method.named "f").InRange := by decide
  obtain ⟨one, many, _⟩ := Method.json_lossless .numbered
  have both : ∀ method ∈ [Method.named "f", .dangling], method.InRange :=
    List.forall_mem_cons.mpr ⟨alone, List.forall_mem_singleton.mpr fits⟩
  exact ⟨fits, alone, by decide, (one _ fits).1, (one _ alone).2, many _ both⟩

end MethodContracts
