import MethodContracts.Proofs.Source.MemberPortions
import MethodContracts.Proofs.Source.Parsing

/-!
# What becomes of the tokens of a type body

Members are read one after another, and every turn adds a portion: so the body is made of
portions. Nested types lie in the tokens of members, and have bodies of their own.
-/
namespace MethodContracts.Source

open Cursor Source.Parser

variable {boundary : Nat → Prop} {c c' : Cursor}

/-! ## Bodies -/

/-- Between its braces in the source a type with these members has these tokens. -/
inductive Braces (source : List Token) (span : Span) (members : List Member) :
    (shares : List Share) → (dropped body : List Token) → Prop where
  | intro {shares : List Share} {before body behind dropped : List Token} {opening closing : Token}
    (whole : source = before ++ opening :: (body ++ closing :: behind))
    (isOpening : opening.kind = .openBrace) (isClosing : closing.kind = .closeBrace)
    (place : span = ⟨opening.span.start, closing.span.stop⟩)
    (isMembers : shares.map (·.1) = members)
    (portions : Portions (closing :: behind) shares dropped body) :
    Braces source span members shares dropped body

/-- The type is declared by the member: it is the member, or declared by one of its members. -/
inductive Member.Declares : Member → TypeDecl → Prop where
  | self {header : TypeHeader} {members : List Member} :
    Declares (.type header members) ⟨header, members⟩
  | nested {header : TypeHeader} {members : List Member} {member : Member} {decl : TypeDecl}
    (isMember : member ∈ members) (declares : member.Declares decl) :
    Declares (.type header members) decl

/-- The type is one of those in the unit, nested ones included. -/
def CompilationUnit.Declares (unit : CompilationUnit) (decl : TypeDecl) : Prop :=
  ∃ outer ∈ unit.types, (Member.type outer.header outer.members).Declares decl

/-- The body of the type, if it is no enum, is made of portions. -/
def TypeDecl.Kept (source : List Token) (decl : TypeDecl) : Prop :=
  decl.header.kind ≠ .enumType →
    ∃ shares dropped body, Braces source decl.header.bodySpan decl.members shares dropped body

/-- The types that a member declares have such bodies. -/
def Member.Keeps (source : List Token) (member : Member) : Prop :=
  ∀ decl, member.Declares decl → decl.Kept source

/-- The readers of what is nested, where fewer than `bound` tokens are left. -/
structure Keeping (boundary : Nat → Prop) (source : List Token)
    (nested : String → Parser (Option Member)) (bound : Nat) : Prop where
  moves : ∀ name, (nested name).Moves
  reads : MembersWithin boundary nested bound
  turns : ∀ name (c : Cursor), c.Sound boundary → c.left < bound → ¬c.atEnd = true →
    (nested name c).2.errors = [] → (nested name).Turns c
  keeps : ∀ name (c : Cursor), c.Sound boundary → c.rest <:+ source → c.left < bound →
    (nested name c).2.errors = [] → ∀ member ∈ (nested name c).1, member.Keeps source

/-- The token that is expected is read, if no error is found. -/
private theorem Parser.expect_found {kind : TokenKind} (sound : c.Sound boundary) :
    Leads boundary (expect kind) c fun token c' =>
      c'.errors = [] → token.kind = kind ∧ c.rest = token :: c'.rest :=
  ⟨(expect_leads sound).step, fun clean => by
    obtain ⟨token, rest, found, isKind, read⟩ := expectAs_clean clean
    rw [expect, read]
    exact ⟨isKind, found.trans (congrArg (token :: ·) (c.rest_next found).symm)⟩⟩

/-- What holds of each step of a clean repetition holds of what is collected. -/
private theorem Parser.collect_clean {α : Type} {step : Parser (Option (List α))}
    {motive : List α → Cursor → Cursor → Prop} (winds : step.Winds) (moves : step.Moves)
    (steps : ∀ c', c.Step boundary c' → c'.Step boundary (step c').2)
    (each : ∀ c', c.Step boundary c' → (step c').2.errors = [] →
      motive ((step c').1.getD []) c' (step c').2)
    (trans : ∀ {values others c₁ c₂ c₃}, motive values c₁ c₂ → motive others c₂ c₃ →
      motive (values ++ others) c₁ c₃)
    (sound : c.Sound boundary) (clean : (collect step c).2.errors = []) :
    motive (collect step c).1 c (collect step c).2 := by
  -- The induction is on the tokens left where the repetition stands.
  have from_here (c' : Cursor) (reached : c.Step boundary c')
      (clean : (collect step c').2.errors = []) :
      motive (collect step c').1 c' (collect step c').2 := by
    induction left : c'.left using Nat.strongRecOn generalizing c' with
    | _ left ih =>
      subst left
      have first := each c' reached
      rw [collect_eq winds, run_bind] at clean ⊢
      cases taken : (step c').1 with
      | none =>
        rw [taken] at first clean
        exact first clean
      | some values =>
        rw [taken] at first clean
        have fewer := (winds.consumes c').left_lt taken
        have further := (collect_moves moves (step c').2).errors
        exact trans (first (List.prefix_nil.mp (clean ▸ further)))
          (ih _ fewer _ (reached.trans (steps c' reached)) clean rfl)
  exact from_here c (.refl sound) clean

section Body

variable {source : List Token} {nested : String → Parser (Option Member)} {bound : Nat}
  (keeping : Keeping boundary source nested bound)
include keeping

/-- A turn reads a member, or gives up what it stands at. -/
private theorem Parser.memberStep_adds (name : String) (sound : c.Sound boundary)
    (room : c.left < bound) (clean : (memberStep nested name c).2.errors = []) :
    Adds c (memberStep nested name c).2 ((memberStep nested name c).1.getD []) := by
  by_cases stops : (c.atEnd || c.atKind .closeBrace) = true
  · rw [memberStep_stops stops]
    exact .nil rfl
  have more : ¬c.atEnd = true := fun atEnd => stops (by rw [atEnd, Bool.true_or])
  have turns := keeping.turns name c sound room more
  cases same : (nested name c).2.left == c.left with
  | true =>
    rw [memberStep_gives_up stops same] at clean ⊢
    rw [Cursor.errors_next] at clean
    rw [beq_iff_eq] at same
    obtain ⟨yields, stays, token, rest, found, begins⟩ :=
      (turns clean).resolve_right fun taken => Nat.ne_of_lt taken.1 same
    rw [yields]
    have split : c.rest = [token] ++ (nested name c).2.next.rest := by
      rw [Cursor.rest_next (stays.trans found), found, List.singleton_append]
    by_cases isSemicolon : token.kind = .semicolon
    · exact ⟨[], [], [token], rfl, split, fun _ _ _ _ _ others => .semicolon isSemicolon others⟩
    · refine ⟨[], [token], [token], rfl, split, fun _ _ _ _ _ others => .stray ?_ others⟩
      have inside : token.kind ≠ .closeBrace := fun isClosing =>
        stops (by rw [c.atKind_of_rest found isClosing, Bool.or_true])
      simp only [List.mem_cons, List.not_mem_nil, or_false, not_or] at begins ⊢
      exact ⟨begins.1, begins.2.1, begins.2.2.1, begins.2.2.2, inside, isSemicolon⟩
  | false =>
    rw [memberStep_reads stops same] at clean ⊢
    rw [beq_eq_false_iff_ne] at same
    exact ((turns clean).resolve_left fun stays => same (congrArg List.length stays.2.1)).2

private theorem Parser.memberStep_keeps (name : String) (sound : c.Sound boundary)
    (suffix : c.rest <:+ source) (room : c.left < bound)
    (clean : (memberStep nested name c).2.errors = []) :
    ∀ member ∈ (memberStep nested name c).1.getD [], member.Keeps source := by
  by_cases stops : (c.atEnd || c.atKind .closeBrace) = true
  · rw [memberStep_stops stops]
    exact List.forall_mem_nil _
  have keeps := keeping.keeps name c sound suffix room
  have yielded (member : Option Member) (keeps : ∀ m ∈ member, m.Keeps source) :
      ∀ m ∈ (some member.toList).getD [], m.Keeps source :=
    fun m isMember => keeps m (Option.mem_toList.mp isMember)
  cases same : (nested name c).2.left == c.left with
  | true =>
    rw [memberStep_gives_up stops same] at clean ⊢
    rw [Cursor.errors_next] at clean
    exact yielded _ (keeps clean)
  | false =>
    rw [memberStep_reads stops same] at clean ⊢
    exact yielded _ (keeps clean)

private theorem Parser.members_keep (name : String) (sound : c.Sound boundary)
    (suffix : c.rest <:+ source)
    (room : c.left < bound) (clean : (collect (memberStep nested name) c).2.errors = []) :
    Adds c (collect (memberStep nested name) c).2 (collect (memberStep nested name) c).1 ∧
      ∀ member ∈ (collect (memberStep nested name) c).1, member.Keeps source := by
  refine collect_clean (motive := fun members c₁ c₂ => Adds c₁ c₂ members ∧
    ∀ member ∈ members, member.Keeps source) (memberStep_winds keeping.moves name)
    (memberStep_moves keeping.moves name) (fun c' reached => ?_) (fun c' reached clean => ?_)
    (fun first second => ?_) sound clean
  · exact (memberStep_leads keeping.reads name reached.sound (reached.room_lt room)).step
  · have behind := reached.before.rest.trans suffix
    exact ⟨memberStep_adds keeping name reached.sound (reached.room_lt room) clean,
      memberStep_keeps keeping name reached.sound behind (reached.room_lt room) clean⟩
  · exact ⟨first.1.trans second.1, List.forall_mem_append.mpr ⟨first.2, second.2⟩⟩

/-- What was read between the braces of a type, if no error was found. -/
private theorem Parser.typeBody_keeps (name : String) (isEnum : Bool) (sound : c.Sound boundary)
    (suffix : c.rest <:+ source) (room : c.left < bound) :
    Leads boundary (typeBody nested name isEnum) c fun body c' => c'.errors = [] →
      (∀ member ∈ body.1, member.Keeps source) ∧
        (isEnum = false →
          ∃ shares dropped tokens, Braces source body.2 body.1 shares dropped tokens) := by
  refine ((skipWhile_moves _).passes c sound).bind fun _ c₁ step₁ _ => ?_
  refine (expect_found step₁.sound).bind fun opening c₂ step₂ isOpening => ?_
  -- Only in an enum do constants stand between the brace and the members.
  have finish (c₃ : Cursor) (step₃ : c₂.Step boundary c₃) (starts : isEnum = false → c₃ = c₂) :
      Leads boundary (do
        let members ← collect (memberStep nested name)
        let closing ← expect .closeBrace
        return (members, (⟨opening.span.start, closing.span.stop⟩ : Span))) c₃
        fun body c' => c'.errors = [] → (∀ member ∈ body.1, member.Keeps source) ∧
          (isEnum = false →
          ∃ shares dropped tokens, Braces source body.2 body.1 shares dropped tokens) := by
    have before := step₁.trans (step₂.trans step₃)
    have fewer : c₃.left < bound := before.room_lt room
    have members : Leads boundary (collect (memberStep nested name)) c₃ fun members c' =>
        c'.errors = [] → Adds c₃ c' members ∧ ∀ member ∈ members, member.Keeps source :=
      ⟨(collect_leads step₃.sound fun c' step =>
          memberStep_leads keeping.reads name step.sound (step.room_lt fewer)).step,
        members_keep keeping name step₃.sound (before.before.rest.trans suffix) fewer⟩
    refine members.bind fun members c₄ step₄ kept => ?_
    refine (expect_found step₄.sound).bind fun closing c₅ step₅ isClosing => ?_
    refine .pure step₅.sound fun clean => ?_
    obtain ⟨adds, keeps⟩ := kept (step₅.clean clean)
    refine ⟨keeps, fun noEnum => ?_⟩
    -- Without errors both braces were there, and between them the tokens of the members.
    obtain ⟨isBrace, isBehind⟩ := isClosing clean
    obtain ⟨isFirst, isBody⟩ := isOpening ((step₃.trans (step₄.trans step₅)).clean clean)
    obtain ⟨shares, dropped, tokens, isMembers, whole, portions⟩ := adds.portions
    obtain ⟨before, isSource⟩ := step₁.before.rest.trans suffix
    rw [starts noEnum] at whole
    rw [isBody, whole, isBehind] at isSource
    rw [isBehind] at portions
    exact ⟨shares, dropped, tokens, .intro isSource.symm isFirst isBrace rfl isMembers portions⟩
  refine .ite (fun isEnum => ?_) fun _ => finish c₂ (.refl step₂.sound) fun _ => rfl
  exact (enumConstants_moves.passes c₂ step₂.sound).bind fun _ c₃ step₃ _ =>
    finish c₃ step₃ fun noEnum => by rw [noEnum] at isEnum; cases isEnum

private theorem Parser.typeDecl?_keeps (sound : c.Sound boundary) (suffix : c.rest <:+ source)
    (room : c.left ≤ bound) : Leads boundary (typeDecl? nested) c fun decl c' =>
      c'.errors = [] → ∀ d ∈ decl, (Member.type d.header d.members).Keeps source := by
  have notes : Leads boundary (discard modifiersAndAnnotations) c fun _ _ => True :=
    ⟨(modifiersAndAnnotations_leads sound).step, trivial⟩
  refine .get (.of_ensures (notes.after fun _ c₁ step₁ _ => ?_))
  refine (typeKind?_leads step₁.sound).after fun kind c₂ step₂ read => ?_
  cases kind with
  | none => exact ⟨(step₁.trans step₂).rewind, fun _ _ isNone => by cases isNone⟩
  | some kind =>
    refine Leads.ensures (step₁.trans step₂) ?_
    refine (expect_leads step₂.sound).bind fun name c₃ step₃ _ => ?_
    have fewer : c₂.left < bound :=
      Nat.lt_of_lt_of_le (read (Option.some_ne_none kind)) (step₁.room_le room)
    have behind := (step₁.trans (step₂.trans step₃)).before.rest.trans suffix
    refine (typeBody_keeps keeping name.text (kind == .enumType) step₃.sound behind
      (step₃.room_lt fewer)).bind fun body c₄ step₄ kept => ?_
    refine .pure step₄.sound fun clean d isDecl decl declares => ?_
    cases isDecl
    obtain ⟨keeps, braces⟩ := kept clean
    -- The members of the type keep what they declare, and it has a body of its own.
    cases declares with
    | self => exact fun noEnum => braces (by simpa using noEnum)
    | nested isMember declares => exact keeps _ isMember decl declares

omit keeping in
private theorem Parser.plainMember_declares {start : Nat} {notes : List Annotation}
    {enclosing : String}
    {member : Member} (yields : (plainMember start notes enclosing c).1 = some member)
    (decl : TypeDecl) : ¬member.Declares decl := by
  rw [plainMember, run_bind, run_get, run_ite] at yields
  split at yields
  · cases yields
    intro declares
    cases declares
  · rw [typedMember, run_bind] at yields
    cases known : (typeRef? c).1 with
    | none =>
      rw [known] at yields
      cases yields
    | some type =>
      rw [known] at yields
      dsimp only at yields
      rw [run_bind, run_bind, run_get, run_ite] at yields
      intro declares
      -- Whatever follows on the type, the member is no type.
      split at yields <;> (cases yields; cases declares)

omit keeping in
/-- A member that declares a type is one. -/
private theorem Parser.memberTail_declares {start : Nat} {notes : List Annotation}
    {enclosing : String} {member : Member} {decl : TypeDecl}
    (yields : (memberTail nested start notes enclosing c).1 = some member)
    (declares : member.Declares decl) : ∃ d ∈ (typeDecl? nested c).1,
      member = .type d.header d.members ∧
        (memberTail nested start notes enclosing c).2 = (typeDecl? nested c).2 := by
  rw [memberTail, run_bind, run_get] at yields ⊢
  -- Of the four branches only that of a type declares any.
  split_ifs at yields ⊢ with atStatic atBlock atType
  · cases yields
    cases declares
  · cases yields
    cases declares
  · have declared : (typeDecl? nested c).1 ≠ none := typeDecl?_atType atType
    obtain ⟨d, isDecl⟩ := Option.ne_none_iff_exists'.mp declared
    rw [run_bind, isDecl] at yields ⊢
    cases yields
    exact ⟨d, rfl, rfl, rfl⟩
  · exact absurd declares (plainMember_declares yields decl)

private theorem Parser.memberOf_keeps (enclosing : String) (sound : c.Sound boundary)
    (suffix : c.rest <:+ source) (room : c.left ≤ bound)
    (clean : (memberOf nested enclosing c).2.errors = []) :
    ∀ member ∈ (memberOf nested enclosing c).1, member.Keeps source := by
  intro member yields decl declares
  by_cases atEnd : c.atEnd = true
  · rw [memberOf, run_bind, run_get, if_pos atEnd] at yields
    cases yields
  rw [memberOf_eq nested enclosing atEnd] at yields clean
  have step := (memberHead_leads sound).step
  -- What declares a type is a type, so its declaration was read here.
  obtain ⟨d, isDecl, rfl, stands⟩ := memberTail_declares yields declares
  rw [stands] at clean
  exact (typeDecl?_keeps keeping step.sound (step.before.rest.trans suffix)
    (step.room_le room)).post clean d isDecl decl declares

end Body

/-- The readers at every depth; where the depth is zero no token is left. -/
private theorem Parser.memberWithin_keeping (source : List Token) (depth : Nat) :
    Keeping boundary source (memberWithin depth) depth := by
  induction depth with
  | zero =>
    exact ⟨memberWithin_moves 0, memberWithin_fits 0,
      fun _ _ _ room => absurd room (Nat.not_lt_zero _),
      fun _ _ _ _ room => absurd room (Nat.not_lt_zero _)⟩
  | succ depth ih =>
    exact ⟨memberWithin_moves (depth + 1), memberWithin_fits (depth + 1),
      fun name _ sound room => memberOf_adds ih.moves ih.reads name sound (Nat.le_of_lt_succ room),
      fun name _ sound suffix room => memberOf_keeps ih name sound suffix (Nat.le_of_lt_succ room)⟩

private theorem Parser.member?_run (name : String) (c : Cursor) :
    member? name c = memberWithin (c.left + 1) name c := rfl

private theorem Parser.member?_keeping (source : List Token) (bound : Nat) :
    Keeping boundary source member? bound where
  moves := member?_moves
  reads := member?_fits bound
  turns name c sound _ more clean := by
    have keeping : Keeping boundary source _ _ := memberWithin_keeping source (c.left + 1)
    rw [member?_run] at clean
    unfold Turns
    rw [member?_run]
    exact keeping.turns name c sound (Nat.lt_succ_self _) more clean
  keeps name c sound suffix _ clean := by
    have keeping : Keeping boundary source _ _ := memberWithin_keeping source (c.left + 1)
    rw [member?_run] at clean ⊢
    exact keeping.keeps name c sound suffix (Nat.lt_succ_self _) clean

/-! ## Units -/

private theorem Parser.unitStep_keeps {source : List Token} (sound : c.Sound boundary)
    (suffix : c.rest <:+ source) : Leads boundary unitStep c fun decls c' => c'.errors = [] →
      ∀ d ∈ decls.getD [], (Member.type d.header d.members).Keeps source := by
  refine .get (.ite (fun _ => .pure sound fun _ => List.forall_mem_nil _) fun _ => ?_)
  refine (typeDecl?_keeps (member?_keeping source c.left) sound suffix (Nat.le_refl _)).bind
    fun decl c₁ step₁ kept => ?_
  cases decl with
  | some decl =>
    exact .pure step₁.sound fun clean => List.forall_mem_singleton.mpr (kept clean decl rfl)
  -- Where no type is declared, a token is reported and passed over.
  | none =>
    refine ((report_moves _).passes c₁ step₁.sound).bind fun _ c₂ step₂ _ => ?_
    exact (advance_moves.passes c₂ step₂.sound).bind fun _ c₃ step₃ _ =>
      .pure step₃.sound fun _ => List.forall_mem_nil _

theorem Parser.compilationUnit_keeps {source : List Token} (sound : c.Sound boundary)
    (suffix : c.rest <:+ source) : Leads boundary compilationUnit c fun unit c' =>
      c'.errors = [] → ∀ decl, unit.Declares decl → decl.Kept source := by
  refine .get (((iterate_moves importStep_moves ()).passes c sound).bind fun _ c₁ step₁ _ => ?_)
  have behind := step₁.before.rest.trans suffix
  have types : Leads boundary (collect unitStep) c₁ fun decls c' =>
      c'.errors = [] → ∀ d ∈ decls, (Member.type d.header d.members).Keeps source := by
    refine ⟨(collect_leads step₁.sound fun c' step => unitStep_leads step.sound).step,
      fun clean => ?_⟩
    refine collect_clean (motive := fun (decls : List TypeDecl) _ _ => ∀ d ∈ decls,
      (Member.type d.header d.members).Keeps source) unitStep_winds unitStep_moves
      (fun c' reached => (unitStep_leads reached.sound).step) (fun c' reached => ?_)
      (fun first second d isDecl => (List.mem_append.mp isDecl).elim (first d) (second d))
      step₁.sound clean
    exact (unitStep_keeps reached.sound (reached.before.rest.trans behind)).post
  refine types.bind fun decls c₂ step₂ kept => .pure step₂.sound fun clean decl declares => ?_
  obtain ⟨outer, isOuter, declares⟩ := declares
  exact kept clean outer isOuter decl declares

/-! ## Texts -/

/-- Neither modifiers and annotations nor type parameters begin with a semicolon. -/
theorem Parser.Spends.begins {token : Token} {tokens rest : List Token}
    (spends : modifiersAndAnnotations.Spends (token :: tokens) rest ∨
      (skipGroup .less .greater).Spends (token :: tokens) rest) : token.kind ≠ .semicolon := by
  intro isSemicolon
  have other {c : Cursor} (found : c.rest = token :: tokens ++ rest) {kind : TokenKind}
      (different : kind ≠ .semicolon) : c.atKind kind = false :=
    atKind_other (c.atKind_of_rest found isSemicolon) different.symm
  -- At a semicolon neither reader reads anything, so the tokens could not have been read.
  have noneRead : token :: tokens ++ rest ≠ rest := fun same =>
    List.cons_ne_nil _ _ (List.append_left_eq_self.mp same)
  rcases spends with ⟨c, found, stays, -⟩ | ⟨c, found, stays, -⟩
  · rw [modifiersAndAnnotations_declined (other found (by decide)) (other found (by decide)),
      found] at stays
    exact noneRead stays
  · rw [skipGroup_declined _ (other found (by decide)), found] at stays
    exact noneRead stays

/-- If anything is dropped, something is that is no semicolon. -/
theorem Portions.exists_dropped {rest dropped tokens : List Token} {shares : List Share}
    (portions : Portions rest shares dropped tokens) (nonempty : dropped ≠ []) :
    ∃ token ∈ dropped, token.kind ≠ .semicolon := by
  induction portions with
  | done => exact absurd rfl nonempty
  | semicolon _ _ ih | member _ _ ih => exact ih nonempty
  | stray begins _ _ =>
    exact ⟨_, List.mem_cons_self, fun isSemicolon => begins (by simp [isSemicolon])⟩
  | @abandoned _ _ _ notes params isNotes isParams _ _ ih =>
    rcases notes with _ | ⟨note, notes⟩
    · rcases params with _ | ⟨param, params⟩
      · exact ih nonempty
      · exact ⟨param, List.mem_cons_self, Spends.begins (.inr isParams)⟩
    · exact ⟨note, List.mem_cons_self, Spends.begins (.inl isNotes)⟩
  | @type _ _ _ _ _ _ params _ _ isParams _ _ ih =>
    rcases params with _ | ⟨param, params⟩
    · exact ih nonempty
    · exact ⟨param, List.mem_cons_self, Spends.begins (.inr isParams)⟩

/-- Every token of the body is in a member's share or a stray semicolon exactly if nothing is
dropped. -/
theorem Portions.all_owned_iff {rest dropped tokens : List Token} {shares : List Share}
    (portions : Portions rest shares dropped tokens) (laid : Laid tokens) :
    (∀ token ∈ tokens, token.kind = .semicolon ∨ ∃ share ∈ shares, token ∈ share.2) ↔
      dropped = [] := by
  constructor
  · intro owned
    -- Something that is dropped would be in a share, and nothing is both.
    by_contra nonempty
    obtain ⟨token, isDropped, noSemicolon⟩ := portions.exists_dropped nonempty
    obtain ⟨share, isShare, belongs⟩ :=
      (owned token (portions.dropped_subset isDropped)).resolve_left noSemicolon
    exact portions.disjoint laid share isShare isDropped belongs
  · rintro rfl token isToken
    exact (portions.owner token isToken).resolve_left List.not_mem_nil

theorem tokens_laid (text : String) : Portions.Laid (tokens text 0) := by
  have tiles := tokens_tiles text 0
  refine ⟨tiles.ordered, fun token isToken => ?_⟩
  have nonempty := tiles.text_ne_empty isToken
  exact (tiles.slice isToken).start_lt_stop fun empty =>
    nonempty (String.toList_eq_nil_iff.mp empty)

/-- If a text is read without errors, the tokens between the braces of each of its types that is
no enum are those of its members and those that are dropped, and these are in no member's span.
So all tokens belong to members, stray semicolons apart, exactly if nothing is dropped. -/
theorem parse_typeBodies {text : String} (clean : (parse text).errors = []) {decl : TypeDecl}
    (declares : (parse text).value.Declares decl) (noEnum : decl.header.kind ≠ .enumType) :
    ∃ shares dropped body,
      Braces (tokens text 0) decl.header.bodySpan decl.members shares dropped body ∧
      ((∀ token ∈ body, token.kind = .semicolon ∨ ∃ share ∈ shares, token ∈ share.2) ↔
        dropped = []) ∧
      ∀ token ∈ dropped, ∀ member ∈ decl.members,
        ¬(member.span.start ≤ token.span.start ∧ token.span.stop ≤ member.span.stop) := by
  have within : (Cursor.ofText text 0).rest <:+ tokens text 0 := List.suffix_rfl
  have kept := (compilationUnit_keeps (ofText_sound text 0) within).post clean decl declares
  obtain ⟨shares, dropped, body, braces⟩ := kept noEnum
  refine ⟨shares, dropped, body, braces, ?_⟩
  obtain ⟨whole, isOpening, isClosing, place, isMembers, portions⟩ := braces
  have laid : Portions.Laid body := by
    have laid := tokens_laid text
    rw [whole] at laid
    have apart : Portions.Laid ([_] ++ (body ++ _)) := laid.behind
    exact apart.behind.front
  refine ⟨portions.all_owned_iff laid, fun token isDropped member isMember => ?_⟩
  rw [← isMembers] at isMember
  obtain ⟨share, isShare, rfl⟩ := List.mem_map.mp isMember
  exact portions.outside laid token isDropped share isShare

theorem parse_typeBodies_annotated : ∃ decl,
    (parse "class A { ; @B class C { } }").errors = [] ∧
    (parse "class A { ; @B class C { } }").value.Declares decl ∧
    decl.header.kind ≠ .enumType ∧ ∃ shares dropped body,
      Braces (tokens "class A { ; @B class C { } }" 0) decl.header.bodySpan decl.members
        shares dropped body ∧
      ((∀ token ∈ body, token.kind = .semicolon ∨ ∃ share ∈ shares, token ∈ share.2) ↔
        dropped = []) := by
  have clean : (parse "class A { ; @B class C { } }").errors = [] := by decide +kernel
  have types : (parse "class A { ; @B class C { } }").value.types =
      [⟨⟨.classType, "A", ⟨0, 28⟩, ⟨8, 28⟩⟩,
        [.type ⟨.classType, "C", ⟨15, 26⟩, ⟨23, 26⟩⟩ []]⟩] := rfl
  have declares : (parse "class A { ; @B class C { } }").value.Declares _ :=
    ⟨_, types ▸ List.mem_cons_self, .self⟩
  obtain ⟨shares, dropped, body, braces, owned, -⟩ := parse_typeBodies clean declares (by decide)
  exact ⟨_, clean, declares, by decide, shares, dropped, body, braces, owned⟩

/-- A token that begins no member is passed over, and no error is found. -/
theorem parse_typeBodies_passedOver : (parse "class A { + }").errors = [] ∧
    ∃ decl, (parse "class A { + }").value.Declares decl ∧ decl.header.kind = .classType ∧
      decl.members = [] ∧ ∃ token ∈ tokens "class A { + }" 0, token.kind = .plus ∧
        decl.header.bodySpan.start < token.span.start ∧
        token.span.stop < decl.header.bodySpan.stop := by
  have clean : (parse "class A { + }").errors = [] := by decide +kernel
  have types : (parse "class A { + }").value.types =
      [⟨⟨.classType, "A", ⟨0, 13⟩, ⟨8, 13⟩⟩, []⟩] := rfl
  have isToken : ⟨.plus, "+", ⟨10, 11⟩⟩ ∈ tokens "class A { + }" 0 := by decide +kernel
  exact ⟨clean, _, ⟨_, types ▸ List.mem_cons_self, .self⟩, rfl, rfl, _, isToken, rfl, by decide,
    by decide⟩

end MethodContracts.Source
