import RouteTrees.Proofs.Script.Imports

/-!
# Programs of imports and texts

A program is a list of directives and then statements that import modules or are nothing but a text. Its directives
and the modules that it imports when it runs are read from any layout of it: a text behind the first import is read
like a directive, but opens nothing.
-/

namespace RouteTrees.Script

open Parse

/-! ## Texts as statements -/

namespace Grammar

variable (g : Grammar) {c : Cursor} {value : String}

/-- Nothing is selected from an operand that a statement ends behind. -/
theorem selections_of_sign (calls : Bool) (shape : Shape) (bound : 0 < c.bound)
    (here : c.token.lexeme = .sign ";") : g.selections calls shape c = some (shape, c) := by
  have noPoint : c.token.lexeme ≠ .sign "." := by simp [here]
  have noArguments : g.callArguments c = some (false, c) := by
    simp [callArguments, bind_apply, typed_apply, seesAny, here, branch_apply, pure_apply]
  unfold selections
  apply repeating_of_stop bound
  simp [bind_apply, eat_of_ne noPoint, sees_apply, here, context_apply, typed_apply, peek_apply, noArguments,
    branch_apply, pure_apply, afterBreak_apply]

theorem operatorHere_of_sign {mark : String} (here : c.token.lexeme = .sign mark) (other : mark ≠ ">") :
    operatorHere c = some (some (mark, c.rest), c) := by
  simp [operatorHere, here, other]

/-- A text is not one of the words that are operators in some places. -/
theorem actsAsOperator_text (here : c.token.lexeme = .text value) (word : String) (operates : Bool) :
    actsAsOperator word operates c = some (false, c) := by
  simp only [actsAsOperator, bind_apply, atWord_apply, here, isWord, Option.bind_some, Bool.false_eq_true,
    if_false, pure_apply]

section Ended

variable (here : c.token.lexeme = .text value) (ends : c.next.token.lexeme = .sign ";")

include here ends

/-- A text that nothing selects from is read as a text. -/
theorem subjectRule_text (bound : 0 < c.bound) : g.subjectRule c = some (.text value, c.next) := by
  obtain ⟨n, same⟩ := Nat.exists_eq_add_one_of_ne_zero (Nat.ne_zero_of_lt bound)
  have operand : g.operand c = some (.text value, c.next) := by
    simp only [operand, bind_apply, peek_apply, here, Option.bind_some,
      bump_apply (Cursor.escapedKeyword_of_text here), pure_apply]
  have rest := g.selections_of_sign true (.text value) (c := c.next) bound ends
  simp only [subjectRule, bind_apply, same, construction, atWord_apply, here, isWord, Option.bind_some,
    Bool.false_eq_true, if_false, operand, rest]

/-- A text that nothing is added to stays a text. -/
theorem update_text (read : g.subject c = some (.text value, c.next)) :
    g.update c = some (.text value, c.next) := by
  have noElement : atElement c = some (false, c) := by
    simp [atElement, bind_apply, marked, sees_apply, here, branch_apply, pure_apply]
  simp [update, bind_apply, noElement, read, seesAny, ends, afterBreak_apply, branch_apply, pure_apply]

/-- A text without operators before it is read as a text. -/
theorem unaryRule_text (read : g.subject c = some (.text value, c.next)) :
    g.unaryRule c = some (.text value, c.next) := by
  simp [unaryRule, bind_apply, context_apply, seesAny, atAnyWord, here, actsAsOperator_text here, sees_apply,
    typed_apply, marked, g.update_text here ends read, branch_apply]

/-- A text without operators behind it is read as a text. -/
theorem binaryRule_text (bound : 0 < c.bound) (read : g.unary c = some (.text value, c.next)) :
    g.binaryRule 0 c = some (.text value, c.next) := by
  have stops : g.operations 0 (.text value) c.next = some (.text value, c.next) := by
    unfold operations
    apply repeating_of_stop (c := c.next) bound
    simp [bind_apply, operatorHere_of_sign ends, precedence?, pure_apply]
  simp only [binaryRule, bind_apply, peek_apply, here, Option.bind_some, read, stops]

/-- A text that is assigned nothing is read as a text. -/
theorem assignmentRule_text (read : g.binary 0 c = some (.text value, c.next)) :
    g.assignmentRule true c = some (.text value, c.next) := by
  have noFunction : g.arrowFunction true c = some (false, c) := by
    simp [arrowFunction, arrowLikelihood, bind_apply, eatWord, atWord_apply, here, isWord, pure_apply, sees_apply,
      branch_apply, asyncArrow, afterBreak_apply]
  have noQuestion : c.next.token.lexeme ≠ .sign "?" := by simp [ends]
  simp [assignmentRule, bind_apply, context_apply, actsAsOperator_text here, noFunction, read, sees_apply,
    operatorHere_of_sign ends, assignmentMarks, branches, eat_of_ne noQuestion, branch_apply, pure_apply]

/-- A text and a semicolon are a directive. -/
theorem statementRule_text (read : g.assignment true c = some (.text value, c.next)) :
    g.statementRule true c = some (.directive value, c.after 2) := by
  have whole : g.expression c = some (.text value, c.next) := by
    simp [expression, bind_apply, read, sees_apply, ends, pure_apply]
  simp [statementRule, bind_apply, peek_apply, here, sees_apply, expressionStatement, whole,
    endStatement_of_sign ends, pure_apply, branch_apply]
  rfl

/-- A grammar that is deep enough for an operand reads a text as a statement. -/
theorem statement_text (n : Nat) (bound : 0 < c.bound) :
    (ofDepth (n + 5)).statement true c = some (.directive value, c.after 2) :=
  have subject : (ofDepth (n + 1)).subject c = _ := subjectRule_text _ here ends bound
  have unary : (ofDepth (n + 2)).unary c = _ := unaryRule_text _ here ends subject
  have binary : (ofDepth (n + 3)).binary 0 c = _ := binaryRule_text _ here ends bound unary
  have assignment : (ofDepth (n + 4)).assignment true c = _ := assignmentRule_text _ here ends binary
  statementRule_text _ here ends assignment

end Ended

end Grammar

/-! ## Programs -/

/-- A statement that imports a module, or is nothing but a text. -/
inductive Statement where
  | imports (form : Form) (source : String)
  | text (value : String)

namespace Statement

/-- The lexemes of a statement. -/
def lexemes : Statement → List Lexeme
  | imports form source => form.declaration source
  | text value => [.text value, .sign ";"]

/-- What is kept of it once it has been read. -/
def item : Statement → Item
  | imports form source => .imports source form.runs
  | text value => .directive value

/-- Whether a statement is a mere text. -/
def isText : Statement → Bool
  | imports .. => false
  | text _ => true

/-- The module that it imports at run time, if there is one. -/
def source? : Statement → Option String
  | imports form source => if form.runs then some source else none
  | text _ => none

/-- A statement is read as its item, up to its end. -/
theorem statement_apply (s : Statement) {c : Cursor} {more : List Lexeme} {n : Nat}
    (types : c.context.dialect.types = true) (enough : s.lexemes.length < c.bound)
    (reads : c.Reads (s.lexemes ++ more)) :
    (Grammar.ofDepth (n + 5)).statement true c = some (s.item, c.after s.lexemes.length) := by
  cases s with
  | imports form source =>
    have fewer : form.lexemes.length < c.bound := by
      simp only [lexemes, Form.declaration, List.length_cons, List.length_append] at enough
      omega
    exact Grammar.statementRule_import _ form source types fewer reads
  | text value => exact Grammar.statement_text reads.1 reads.2.1 n (Nat.zero_lt_of_lt enough)

/-- A statement begins with some lexeme, and not with the end of the text. -/
theorem lexemes_head (s : Statement) : ∃ l ls, s.lexemes = l :: ls ∧ l ≠ .finish := by
  cases s with
  | imports form source => exact ⟨_, _, rfl, nofun⟩
  | text value => exact ⟨_, _, rfl, nofun⟩

end Statement

/-- Directives, and statements of which the first is none. -/
structure Program where
  directives : List String
  body : List Statement
  ends : ∀ s ∈ body.head?, s.isText = false

namespace Program

variable (p : Program)

/-- The statements of a program: its directives and its body. -/
def statements : List Statement := p.directives.map .text ++ p.body

/-- The lexemes of a program. -/
def lexemes : List Lexeme := p.statements.flatMap Statement.lexemes

/-- The modules that it imports at run time. -/
def sources : List String := p.body.filterMap Statement.source?

/-- Only the body of a program has sources. -/
theorem filterMap_source? : p.statements.filterMap Statement.source? = p.sources := by
  have none : (p.directives.map Statement.text).filterMap Statement.source? = [] := by
    rw [List.filterMap_map, List.filterMap_eq_nil_iff]
    exact fun _ _ => rfl
  rw [statements, List.filterMap_append, none]
  rfl

end Program

/-- Statements are read one behind the other, up to the end of the text. -/
theorem whileItems_statement (ss : List Statement) (depth : Nat) {c : Cursor} {n : Nat}
    (types : c.context.dialect.types = true) (enough : ∀ s ∈ ss, s.lexemes.length < c.bound)
    (room : ss.length < n) (reads : c.Reads (ss.flatMap Statement.lexemes)) :
    whileItems (do pure ((← peek) ≠ .finish)) ((Grammar.ofDepth (depth + 5)).statement true) n c =
      some (ss.map Statement.item, c.after (ss.flatMap Statement.lexemes).length) := by
  have goesOn (c : Cursor) : (do pure ((← peek) ≠ .finish) : Parse Bool) c =
      some (decide (c.token.lexeme ≠ .finish), c) := rfl
  induction ss generalizing c n with
  | nil =>
    obtain ⟨n, rfl⟩ := Nat.exists_eq_add_one_of_ne_zero (Nat.ne_zero_of_lt room)
    have here : c.token.lexeme = .finish := reads
    exact whileItems_of_stop (by rw [goesOn, here]; rfl) n
  | cons s ss ih =>
    obtain ⟨n, rfl⟩ := Nat.exists_eq_add_one_of_ne_zero (Nat.ne_zero_of_lt room)
    obtain ⟨now, later⟩ := List.forall_mem_cons.mp enough
    rw [List.flatMap_cons] at reads
    -- a statement has a token, so the text does not end before it
    have here : c.token.lexeme ≠ .finish := by
      obtain ⟨l, ls, same, other⟩ := s.lexemes_head
      rw [same] at reads
      exact reads.1 ▸ other
    have rest := ih (c := c.after s.lexemes.length) (by rwa [Cursor.context_after]) (by rwa [Cursor.bound_after])
      (Nat.lt_of_succ_lt_succ room) reads.after
    rw [Cursor.after_after] at rest
    rw [List.flatMap_cons, List.length_append, List.map_cons]
    exact whileItems_of_item (by rw [goesOn, decide_eq_true here]) (s.statement_apply types now reads) rest

namespace Statement

/-- There are no more statements than lexemes. -/
theorem length_le_flatMap (ss : List Statement) : ss.length ≤ (ss.flatMap lexemes).length := by
  induction ss with
  | nil => exact Nat.le_refl _
  | cons s ss ih =>
    obtain ⟨l, ls, same, -⟩ := s.lexemes_head
    simp only [List.flatMap_cons, List.length_append, List.length_cons, same]
    omega

/-- The leading directives end where the body begins. -/
theorem leadingDirectives_append (directives : List String) (body : List Statement)
    (ends : ∀ s ∈ body.head?, s.isText = false) :
    Module.leadingDirectives ((directives.map text ++ body).map item) = directives := by
  induction directives with
  | nil =>
    cases body with
    | nil => rfl
    | cons s body =>
      cases s with
      | imports => rfl
      | text => cases ends _ rfl
  | cons v directives ih => exact congrArg (v :: ·) ih

/-- The imports of the items are the sources of the statements. -/
theorem runtimeImports_map (ss : List Statement) :
    Module.runtimeImports (ss.map item) = ss.filterMap source? := by
  rw [Module.runtimeImports, List.filterMap_map]
  congr 1
  funext s
  cases s with
  | text => rfl
  | imports form source =>
    simp only [Function.comp, item, source?]
    cases form.runs <;> rfl

end Statement

namespace Module

/-- The items of a program are read up to the end of the text, by induction on its statements. -/
theorem items_of_reads (p : Program) (depth : Nat) {c : Cursor} (types : c.context.dialect.types = true)
    (room : p.lexemes.length < c.bound) (reads : c.Reads p.lexemes) :
    items (Grammar.ofDepth (depth + 5)) c = some (p.statements.map Statement.item, c.after p.lexemes.length) := by
  have enough : ∀ s ∈ p.statements, s.lexemes.length < c.bound := by
    intro s mem
    have inside : s.lexemes.length ≤ p.lexemes.length :=
      (List.sublist_flatten_of_mem (List.mem_map_of_mem mem)).length_le
    exact Nat.lt_of_le_of_lt inside room
  have fewer : p.statements.length < c.bound :=
    Nat.lt_of_le_of_lt (Statement.length_le_flatMap p.statements) room
  have read := whileItems_statement p.statements depth types enough fewer reads
  rw [items, many]
  exact read

/-- A program is read from its layout. -/
theorem parse?_of_lays {p : Program} {dialect : Dialect} {text : String} (types : dialect.types = true)
    (lays : Lays p.lexemes text.toList) :
    parse? dialect text = some { directives := p.directives, imports := p.sources } := by
  have reads : (start dialect text.toList).Reads p.lexemes := by
    apply lays.reads
    · rw [start, lays.skipInterpreter]
    · rw [start, lays.skipInterpreter]
  have room : p.lexemes.length < bound text.toList := by
    have length := lays.length_le
    rw [bound]
    omega
  -- five levels of the grammar lead from a statement to an operand
  have deep : bound text.toList = 8 * text.toList.length + 27 + 5 := rfl
  have found := items_of_reads p (8 * text.toList.length + 27) (c := start dialect text.toList) types room reads
  rw [← deep] at found
  have fine : accepts dialect ((start dialect text.toList).after p.lexemes.length)
      (p.statements.map Statement.item) = true := by
    simp [accepts, types, start]
  simp only [parse?, found, fine, if_true]
  rw [Statement.runtimeImports_map, p.filterMap_source?, Program.statements,
    Statement.leadingDirectives_append _ _ p.ends]

end Module

end RouteTrees.Script
