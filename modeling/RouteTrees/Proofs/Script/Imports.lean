import RouteTrees.Proofs.Script.Steps

/-!
# Import declarations

The forms of an import declaration, how each is written as tokens, and what is kept of it once it has been read.
-/

namespace RouteTrees.Script

open Parse Cursor

/-! ## Forms -/

/-- A name that can be written and bound. -/
structure Name where
  text : String
  ordinary : IsOrdinary text

/-- A name that is imported in braces, perhaps bound as another, and perhaps marked as a type. -/
structure Specifier where
  name : Name
  newName : Option Name
  marked : Bool

/-- A word as a token. -/
abbrev word (name : String) : Lexeme := .word name false

/-- How it is written that a name is bound as another. -/
def rebound : Option Name → List Lexeme
  | none => []
  | some a => [word "as", word a.text]

namespace Specifier

variable (s : Specifier)

/-- The lexemes of a specifier. -/
def lexemes : List Lexeme :=
  (if s.marked then [word "type"] else []) ++ word s.name.text :: rebound s.newName

/-- The name that it binds. -/
def bound : Name := s.newName.getD s.name

/-- What is read of a specifier. -/
def link : Grammar.Link := ⟨.word s.name.text, .word s.bound.text, s.marked⟩

end Specifier

/-- The names of a list behind its first, each with its comma. -/
def others : List Specifier → List Lexeme
  | [] => []
  | s :: specifiers => .sign "," :: (s.lexemes ++ others specifiers)

/-- Names with commas between them. -/
def listed : List Specifier → List Lexeme
  | [] => []
  | s :: specifiers => s.lexemes ++ others specifiers

/-- There are no more specifiers behind commas than lexemes. -/
theorem length_le_others (specifiers : List Specifier) : specifiers.length ≤ (others specifiers).length := by
  induction specifiers with
  | nil => exact Nat.le_refl _
  | cons s specifiers ih =>
    simp only [others, List.length_cons, List.length_append]
    omega

/-- There are no more specifiers than lexemes. -/
theorem length_le_listed (specifiers : List Specifier) : specifiers.length ≤ (listed specifiers).length := by
  cases specifiers with
  | nil => exact Nat.le_refl _
  | cons s specifiers =>
    have later := length_le_others specifiers
    simp only [listed, Specifier.lexemes, List.length_cons, List.length_append]
    omega

/-- What an import declaration brings in. -/
inductive Bindings where
  | byDefault (name : Name)
  | all (name : Name)
  | named (specifiers : List Specifier)
  | both (name : Name) (specifiers : List Specifier)

namespace Bindings

/-- Names in braces. -/
def braced (specifiers : List Specifier) : List Lexeme :=
  .sign "\x7b" :: (listed specifiers ++ [.sign "\x7d"])

/-- The lexemes of what an import binds. -/
def lexemes : Bindings → List Lexeme
  | byDefault name => [word name.text]
  | all name => [.sign "*", word "as", word name.text]
  | named specifiers => braced specifiers
  | both name specifiers => word name.text :: .sign "," :: braced specifiers

/-- There are no more specifiers in braces than lexemes. -/
theorem length_le_braced (specifiers : List Specifier) : specifiers.length ≤ (braced specifiers).length := by
  have inside := length_le_listed specifiers
  simp only [braced, List.length_cons, List.length_append]
  omega

/-- Of each name that it binds, whether it is marked as a type. -/
def marks : Bindings → List Bool
  | byDefault _ => [false]
  | all _ => [false]
  | named specifiers => specifiers.map (·.marked)
  | both _ specifiers => false :: specifiers.map (·.marked)

/-- Whether it may stand behind `type`: it is of one kind, and no name in it is marked. -/
def IsOfTypes : Bindings → Prop
  | byDefault _ => True
  | all _ => True
  | named specifiers => ∀ s ∈ specifiers, s.marked = false
  | both .. => False

/-- What is kept of it once it has been read. -/
def kept : Bindings → Grammar.Clause
  | named specifiers => ⟨specifiers.map Specifier.link, false⟩
  | _ => ⟨[], true⟩

end Bindings

/-- An import declaration, without the module that it names. -/
inductive Form where
  | bare
  | values (bindings : Bindings)
  | types (bindings : Bindings) (ofTypes : bindings.IsOfTypes)

namespace Form

/-- The lexemes between the first keyword and the source. -/
def lexemes : Form → List Lexeme
  | bare => []
  | values bindings => bindings.lexemes ++ [word "from"]
  | types bindings _ => word "type" :: (bindings.lexemes ++ [word "from"])

/-- The declaration of an import in this form. -/
def declaration (form : Form) (source : String) : List Lexeme :=
  word "import" :: (form.lexemes ++ [.text source, .sign ";"])

/-- Whether it is left when the program runs: it is not declared to be of types, and does not bring in names
of which each is marked as a type. -/
def runs : Form → Bool
  | bare => true
  | values bindings => bindings.marks.isEmpty || bindings.marks.contains false
  | types .. => false

end Form

namespace Grammar

variable {c : Cursor} {more : List Lexeme}

theorem linkName_of_word {n : String} (here : c.token.lexeme = .word n false) :
    linkName c = some (.word n, c.next) := by
  simp only [linkName, bind_apply, peek_apply, here, Option.bind_some, name_of_word here, pure_apply]

theorem atLinkName_of_word {n : String} (here : c.token.lexeme = .word n false) :
    atLinkName c = some (true, c) := by
  simp only [atLinkName, bind_apply, peek_apply, here, Option.bind_some, pure_apply]

/-- A new name is read behind `as`, or the old one kept. -/
theorem renamed_apply (typeOnly : Bool) (name : Name) (newName : Option Name) {mark : String}
    (reads : c.Reads (rebound newName ++ .sign mark :: more)) :
    renamed typeOnly (.word name.text) c =
      some (⟨.word name.text, .word (newName.getD name).text, typeOnly⟩, c.after (rebound newName).length) := by
  cases newName with
  | none =>
    obtain ⟨here, -⟩ := reads
    simp only [renamed, bind_apply, eatWord_of_sign here, Option.bind_some, Bool.false_eq_true, if_false,
      pure_apply]
    rfl
  | some a =>
    obtain ⟨first, second, -⟩ := reads
    simp only [renamed, bind_apply, eatWord_of_word first, linkName_of_word second, Option.bind_some, if_true,
      pure_apply]
    rfl

/-- No name that may be bound is a keyword. -/
theorem linkName_ne {name : Name} {keyword : String} (isKeyword : isKeyword keyword = true) :
    LinkName.word name.text ≠ .word keyword := by
  intro same
  cases same
  exact ne_true_of_eq_false name.ordinary.free isKeyword

/-- A specifier is read as its link, in each of the ways in which `type` and `as` can stand in it. -/
theorem link_apply (s : Specifier) (types : c.context.dialect.types = true) {mark : String}
    (reads : c.Reads (s.lexemes ++ .sign mark :: more)) :
    link c = some (s.link, c.after s.lexemes.length) := by
  obtain ⟨name, newName, marked⟩ := s
  cases marked with
  | false =>
    obtain ⟨first, later⟩ := reads
    have noType : LinkName.word name.text ≠ .word "type" := linkName_ne (by decide)
    simp only [link, bind_apply, linkName_of_word first, Option.bind_some, noType, typed_apply, decide_false,
      Bool.false_and, Bool.false_eq_true, if_false, renamed_apply false name newName later]
    rfl
  | true =>
    -- what follows `type` is a name but not `as`, so that `type` is no name itself
    obtain ⟨mark, first, later⟩ := reads
    have noAs : name.text ≠ "as" := name.ordinary.ne (by decide)
    simp only [link, bind_apply, linkName_of_word mark, Option.bind_some, typed_apply, decide_true, context_next,
      types, Bool.true_and, if_true, atWord_apply, first, isWord_word, noAs, decide_false, Bool.false_eq_true,
      if_false, atLinkName_of_word first, linkName_of_word first, renamed_apply true name newName later]
    rfl

/-- Behind a name of a list stands a mark, whether another name follows or not. -/
theorem others_append (specifiers : List Specifier) (more : List Lexeme) :
    ∃ mark later, others specifiers ++ .sign "\x7d" :: more = .sign mark :: later := by
  cases specifiers with
  | nil => exact ⟨_, _, rfl⟩
  | cons s specifiers => exact ⟨_, _, rfl⟩

/-- A name of a list is read up to the mark behind it. -/
theorem link_others (s : Specifier) (specifiers : List Specifier) (types : c.context.dialect.types = true)
    (reads : c.Reads (s.lexemes ++ (others specifiers ++ .sign "\x7d" :: more))) :
    (∃ name, c.token.lexeme = word name) ∧ link c = some (s.link, c.after s.lexemes.length) ∧
      (c.after s.lexemes.length).Reads (others specifiers ++ .sign "\x7d" :: more) := by
  refine ⟨?_, ?_, reads.after⟩
  · obtain ⟨name, newName, marked⟩ := s
    cases marked with
    | false => exact ⟨name.text, reads.1⟩
    | true => exact ⟨"type", reads.1⟩
  · obtain ⟨mark, later, same⟩ := others_append specifiers more
    rw [same] at reads
    exact link_apply s types reads

/-- Specifiers behind commas are read up to the closing brace. -/
theorem restOfList_link (specifiers : List Specifier) (types : c.context.dialect.types = true) {n : Nat}
    (enough : specifiers.length < n) (reads : c.Reads (others specifiers ++ .sign "\x7d" :: more)) :
    restOfList "\x7d" link n c =
      some ((specifiers.map Specifier.link, false), c.after (others specifiers).length) := by
  induction specifiers generalizing c n with
  | nil =>
    obtain ⟨n, rfl⟩ := Nat.exists_eq_add_one_of_ne_zero (Nat.ne_zero_of_lt enough)
    obtain ⟨here, -⟩ := reads
    simp only [restOfList, bind_apply, atClose, here, Option.bind_some, decide_true, Bool.true_or, if_true,
      pure_apply]
    rfl
  | cons s specifiers ih =>
    obtain ⟨n, rfl⟩ := Nat.exists_eq_add_one_of_ne_zero (Nat.ne_zero_of_lt enough)
    rw [others, List.cons_append, List.append_assoc] at reads
    obtain ⟨here, reads⟩ := reads
    obtain ⟨⟨first, isWord⟩, linked, reads⟩ := link_others (c := c.next) s specifiers types reads
    have onward : atClose "\x7d" c = some (false, c) := by simp [atClose, here]
    have rest := ih (c.next.context_after _ ▸ types) (Nat.lt_of_succ_lt_succ enough) reads
    rw [after_after] at rest
    simp only [restOfList, bind_apply, onward, Option.bind_some, Bool.false_eq_true, if_false, eat_of_sign here,
      if_true, sees_apply, isWord, decide_false, linked, rest, pure_apply, reduceCtorEq, others, List.length_cons,
      List.length_append]
    rfl

/-- Specifiers are read up to the closing brace. -/
theorem list_link (specifiers : List Specifier) (types : c.context.dialect.types = true)
    (enough : specifiers.length < c.bound) (reads : c.Reads (listed specifiers ++ .sign "\x7d" :: more)) :
    list "\x7d" link c = some ((specifiers.map Specifier.link, false), c.after (listed specifiers).length) := by
  cases specifiers with
  | nil =>
    obtain ⟨here, -⟩ := reads
    have closes : atClose "\x7d" c = some (true, c) := by simp [atClose, here]
    simp only [list, bind_apply, closes, Option.bind_some, if_true, pure_apply]
    rfl
  | cons s specifiers =>
    rw [listed, List.append_assoc] at reads
    obtain ⟨⟨first, isWord⟩, linked, reads⟩ := link_others s specifiers types reads
    have onward : atClose "\x7d" c = some (false, c) := by simp [atClose, isWord]
    have rest := restOfList_link specifiers (c.context_after _ ▸ types) (Nat.lt_of_succ_lt enough) reads
    rw [after_after] at rest
    simp only [list, bind_apply, onward, Option.bind_some, Bool.false_eq_true, if_false, linked, bound_after,
      rest, pure_apply, listed, List.length_append]
    rfl

/-! ## Clauses -/

/-- Whether nothing is left of an import when the program runs. -/
def erased (typeOnly : Bool) (clause : Clause) : Bool :=
  typeOnly || !clause.other && !clause.links.isEmpty && clause.links.all (·.typeOnly)

/-- What is kept of an import shows whether it is erased. -/
theorem erased_kept (bindings : Bindings) :
    erased false bindings.kept = !(bindings.marks.isEmpty || bindings.marks.contains false) := by
  cases bindings with
  | byDefault | all => rfl
  | both => simp [erased, Bindings.kept, Bindings.marks]
  | named specifiers =>
    have each : (specifiers.map Specifier.link).all (·.typeOnly) =
        !(specifiers.map (·.marked)).contains false := by
      rw [Bool.eq_iff_iff]
      simp [Specifier.link]
    simp [erased, Bindings.kept, Bindings.marks, each]

/-- A namespace is read as what is bound. -/
theorem namedClause_all (typeOnly : Bool) (name : Name)
    (reads : c.Reads ((Bindings.all name).lexemes ++ more)) :
    namedClause typeOnly c = some ((Bindings.all name).kept, c.after 3) := by
  obtain ⟨star, as_, here, -⟩ := reads
  simp only [namedClause, bind_apply, eat_of_sign star, Option.bind_some, if_true, expectWord_of_word as_,
    discard_apply, boundName_of_ordinary name.ordinary here, Option.map_some, pure_apply]
  rfl

/-- Names in braces are read up to the brace that closes them, where none is marked twice. -/
theorem links_apply (typeOnly : Bool) (specifiers : List Specifier) (types : c.context.dialect.types = true)
    (enough : specifiers.length < c.bound) (once : typeOnly = true → (Bindings.named specifiers).IsOfTypes)
    (reads : c.Reads (Bindings.braced specifiers ++ more)) :
    links typeOnly c = some (specifiers.map Specifier.link, c.after (Bindings.braced specifiers).length) := by
  rw [Bindings.braced, List.cons_append, List.append_assoc, List.singleton_append] at reads
  obtain ⟨opened, reads⟩ := reads
  have found := list_link (c := c.next) specifiers types enough reads
  obtain ⟨closed, -⟩ := reads.after
  have unmarked : (typeOnly && (specifiers.map Specifier.link).any (·.typeOnly)) = false := by
    cases typeOnly with
    | false => rfl
    | true => simpa [Specifier.link] using show ∀ s ∈ specifiers, s.marked = false from once rfl
  simp only [links, bind_apply, expect_of_sign opened, Option.bind_some, found, unmarked, flawIf_false,
    expect_of_sign closed, pure_apply, next_after, Bindings.braced, List.length_cons, List.length_append]
  rfl

/-- Names that may be bound break no rule. -/
theorem forM_checkOperator (specifiers : List Specifier) (c : Cursor) :
    ((specifiers.map Specifier.link).forM fun l => checkOperator l.target.text) c = some ((), c) := by
  induction specifiers with
  | nil => rfl
  | cons s specifiers ih =>
    have first : checkOperator s.link.target.text c = some ((), c) :=
      checkOperator_of_ordinary s.bound.ordinary c
    simp only [List.map_cons, List.forM, bind_apply, first, Option.bind_some]
    exact ih

/-- Names in braces are read as what is bound. -/
theorem namedClause_named (typeOnly : Bool) (specifiers : List Specifier) (types : c.context.dialect.types = true)
    (enough : specifiers.length < c.bound) (once : typeOnly = true → (Bindings.named specifiers).IsOfTypes)
    (reads : c.Reads (Bindings.braced specifiers ++ more)) :
    namedClause typeOnly c =
      some ((Bindings.named specifiers).kept, c.after (Bindings.braced specifiers).length) := by
  have bindable : (specifiers.map Specifier.link).all (·.target.isBindable) = true := by
    rw [List.all_map, List.all_eq_true]
    exact fun s _ => isBindable_of_ordinary s.bound.ordinary
  have found := links_apply typeOnly specifiers types enough once reads
  -- the brace tells the list from all names as one
  have noStar : c.token.lexeme ≠ .sign "*" := by
    rw [show c.token.lexeme = .sign "\x7b" from reads.1]
    decide
  simp only [namedClause, bind_apply, eat_of_ne noStar, Option.bind_some, Bool.false_eq_true, if_false, found,
    bindable, Bool.not_true, forM_checkOperator, pure_apply]
  rfl

/-! ## Declarations -/

/-- The source of an import is read up to the end of its statement. -/
theorem importSource_apply (runs : Bool) (source : String)
    (reads : c.Reads (.text source :: .sign ";" :: more)) :
    importSource runs c = some (.imports source runs, c.after 2) := by
  obtain ⟨here, ends, -⟩ := reads
  have named : moduleName c = some (source, c.next) := by
    simp only [moduleName, bind_apply, peek_apply, here, Option.bind_some,
      bump_apply (escapedKeyword_of_text here), pure_apply]
  simp only [importSource, bind_apply, named, Option.bind_some, importAttributes, atWord_apply, ends, isWord,
    Bool.false_eq_true, if_false, pure_apply, endStatement_of_sign ends]
  rfl

/-- What follows the bindings of an import is read, and tells whether it is kept. -/
theorem importRest_apply (typeOnly : Bool) (clause : Clause) (source : String)
    (reads : c.Reads (word "from" :: .text source :: .sign ";" :: more)) :
    importRest typeOnly clause c = some (.imports source !erased typeOnly clause, c.after 3) := by
  obtain ⟨here, reads⟩ := reads
  simp only [importRest, bind_apply, expectWord_of_word here, Option.bind_some, importSource_apply _ source reads]
  rfl

/-- An import of names is read up to the end of its statement. -/
theorem importNamed_apply (typeOnly : Bool) (clause : Clause) {n : Nat} (source : String)
    (named : namedClause typeOnly c = some (clause, c.after n))
    (reads : (c.after n).Reads (word "from" :: .text source :: .sign ";" :: more)) :
    importNamed typeOnly c = some (.imports source !erased typeOnly clause, c.after (n + 3)) := by
  simp only [importNamed, bind_apply, named, Option.bind_some, importRest_apply typeOnly clause source reads,
    after_after]

/-- Behind a default that nothing else stands behind. -/
theorem importAfterName_from (typeOnly : Bool) (source : String)
    (reads : c.Reads (word "from" :: .text source :: .sign ";" :: more)) :
    importAfterName typeOnly c = some (.imports source !typeOnly, c.after 3) := by
  have here : c.token.lexeme = .word "from" false := reads.1
  have noComma : c.token.lexeme ≠ .sign "," := by simp [here]
  have rest := importRest_apply typeOnly ⟨[], true⟩ source reads
  simp only [erased, Bool.not_true, Bool.false_and, Bool.or_false] at rest
  simp only [importAfterName, bind_apply, typed_apply, sees_apply, peek_apply, here, Option.bind_some,
    reduceCtorEq, decide_false, Bool.and_false, Bool.false_eq_true, if_false, importDefault, eat_of_ne noComma, rest]

/-- Behind a default that names in braces stand behind. -/
theorem importAfterName_comma (specifiers : List Specifier) (source : String)
    (types : c.context.dialect.types = true) (enough : specifiers.length < c.bound)
    (reads : c.Reads
      (.sign "," :: (Bindings.braced specifiers ++ word "from" :: .text source :: .sign ";" :: more))) :
    importAfterName false c = some (.imports source true, c.after ((Bindings.braced specifiers).length + 4)) := by
  obtain ⟨here, reads⟩ := reads
  have named := namedClause_named (c := c.next) false specifiers types enough nofun reads
  have rest := importRest_apply false ⟨[], true⟩ source reads.after
  simp only [erased, Bool.not_true, Bool.false_and, Bool.or_false, Bool.not_false, after_after] at rest
  simp only [importAfterName, bind_apply, typed_apply, sees_apply, peek_apply, here, Option.bind_some,
    Lexeme.sign.injEq, String.reduceEq, decide_false, Bool.and_false, Bool.false_eq_true, if_false, importDefault,
    eat_of_sign here, if_true, discard_apply, named, Option.map_some, rest]
  rfl

/-- Behind `type`, names in braces or all names as one. -/
theorem importTyped_sign (clause : Clause) {n : Nat} (source : String)
    (opens : c.token.lexeme = .sign "*" ∨ c.token.lexeme = .sign "\x7b")
    (named : namedClause true c = some (clause, c.after n))
    (reads : (c.after n).Reads (word "from" :: .text source :: .sign ";" :: more)) :
    importTyped c = some (.imports source false, c.after (n + 3)) := by
  have seen : seesAny ["*", "\x7b"] c = some (true, c) := by
    rcases opens with here | here
    · simp [seesAny, here]
    · simp [seesAny, here]
  have rest := importNamed_apply true clause source named reads
  simp only [erased, Bool.true_or, Bool.not_true] at rest
  simp only [importTyped, bind_apply, seen, Option.bind_some, if_true, rest]

/-- Behind `type`, a default. -/
theorem importTyped_word (name : Name) (source : String)
    (reads : c.Reads (word name.text :: word "from" :: .text source :: .sign ";" :: more)) :
    importTyped c = some (.imports source false, c.after 4) := by
  obtain ⟨here, reads⟩ := reads
  have noFrom : name.text ≠ "from" := name.ordinary.ne (by decide)
  simp only [importTyped, bind_apply, seesAny, here, Option.bind_some, Bool.false_eq_true, if_false, peek_apply,
    isBindable_of_ordinary name.ordinary, fromModule, atWord_apply, isWord_word, noFrom, decide_false, pure_apply,
    Bool.not_false, Bool.and_true, if_true, discard_apply, boundName_of_ordinary name.ordinary here,
    Option.map_some, importAfterName_from true source reads]
  rfl

theorem fromModule_apply (c : Cursor) : ∃ here, fromModule c = some (here, c) := by
  simp only [fromModule, bind_apply, atWord_apply, Option.bind_some, branch_apply]
  split
  · unfold ahead
    split
    · exact ⟨_, rfl⟩
    · exact ⟨_, rfl⟩
  · exact ⟨_, rfl⟩

/-- A default begins an import that has one. -/
theorem importStatement_name (name : Name) (first : c.token.lexeme = word "import")
    (second : c.next.token.lexeme = word name.text) : importStatement c = importAfterName false c.next.next := by
  -- a default with one of these names would be taken for the word
  have noType : name.text ≠ "type" := name.ordinary.ne (by decide)
  have noDefer : name.text ≠ "defer" := name.ordinary.ne (by decide)
  have noSource : name.text ≠ "source" := name.ordinary.ne (by decide)
  obtain ⟨other, looked⟩ := fromModule_apply c.next.next
  simp only [importStatement, bind_apply, expectWord_of_word first, Option.bind_some, peek_apply, second,
    isBindable_of_ordinary name.ordinary, if_true, boundName_of_ordinary name.ordinary second, typed_apply,
    sees_apply, noType, noDefer, noSource, looked, decide_false, Bool.false_and, Bool.false_eq_true, if_false]

/-- With types, `type` may mark an import. -/
theorem importStatement_type (types : c.context.dialect.types = true) (first : c.token.lexeme = word "import")
    (second : c.next.token.lexeme = word "type") : importStatement c = importTyped c.next.next := by
  have bound := boundName_of_word second (by decide) (by decide) (by decide)
  have bindable : isBindable (.word "type" false) = true := by decide
  simp only [importStatement, bind_apply, expectWord_of_word first, Option.bind_some, peek_apply, second,
    bindable, if_true, bound, typed_apply, context_next, types, decide_true, Bool.true_and]

/-- A mark begins an import without a default. -/
theorem importStatement_sign {mark : String} (first : c.token.lexeme = word "import")
    (second : c.next.token.lexeme = .sign mark) : importStatement c = importNamed false c.next := by
  have bindable : isBindable (.sign mark) = false := rfl
  simp only [importStatement, bind_apply, expectWord_of_word first, Option.bind_some, peek_apply, second,
    bindable, Bool.false_eq_true, if_false]

/-- A declaration that brings in something at run time, or only names marked as types. -/
theorem importStatement_values (bindings : Bindings) (source : String) (types : c.context.dialect.types = true)
    (enough : bindings.lexemes.length < c.bound) (first : c.token.lexeme = word "import")
    (reads : c.next.Reads (bindings.lexemes ++ word "from" :: .text source :: .sign ";" :: more)) :
    importStatement c = some (.imports source (bindings.marks.isEmpty || bindings.marks.contains false),
      c.after (bindings.lexemes.length + 4)) := by
  cases bindings with
  | byDefault name =>
    rw [importStatement_name name first reads.1, importAfterName_from false source reads.2]
    rfl
  | all name =>
    have named := namedClause_all (c := c.next) false name reads
    have rest := importNamed_apply false (Bindings.all name).kept source named reads.2.2.2
    rw [importStatement_sign first reads.1, rest]
    rfl
  | named specifiers =>
    have fewer := Nat.lt_of_le_of_lt (Bindings.length_le_braced specifiers) enough
    have named := namedClause_named (c := c.next) false specifiers types fewer nofun reads
    have rest := importNamed_apply false (Bindings.named specifiers).kept source named reads.after
    rw [importStatement_sign first reads.1, rest, erased_kept, Bool.not_not]
    rfl
  | both name specifiers =>
    have fewer : specifiers.length < c.bound := by
      have inside := Bindings.length_le_braced specifiers
      simp only [Bindings.lexemes, List.length_cons] at enough
      omega
    rw [importStatement_name name first reads.1,
      importAfterName_comma (c := c.next.next) specifiers source types fewer reads.2]
    rfl

/-- A declaration that brings in types. -/
theorem importStatement_types (bindings : Bindings) (ofTypes : bindings.IsOfTypes) (source : String)
    (types : c.context.dialect.types = true) (enough : bindings.lexemes.length < c.bound)
    (first : c.token.lexeme = word "import") (second : c.next.token.lexeme = word "type")
    (reads : c.next.next.Reads (bindings.lexemes ++ word "from" :: .text source :: .sign ";" :: more)) :
    importStatement c = some (.imports source false, c.after (bindings.lexemes.length + 5)) := by
  rw [importStatement_type types first second]
  cases bindings with
  | byDefault name => exact importTyped_word name source reads
  | all name =>
    have named := namedClause_all (c := c.next.next) true name reads
    exact importTyped_sign (Bindings.all name).kept source (.inl reads.1) named reads.2.2.2
  | named specifiers =>
    have fewer := Nat.lt_of_le_of_lt (Bindings.length_le_braced specifiers) enough
    have named := namedClause_named (c := c.next.next) true specifiers types fewer (fun _ => ofTypes) reads
    exact importTyped_sign (Bindings.named specifiers).kept source (.inr reads.1) named reads.after
  | both name specifiers => exact ofTypes.elim

/-- Every form of an import is read as its source, and as what is kept of it. -/
theorem importStatement_apply (form : Form) (source : String) (types : c.context.dialect.types = true)
    (enough : form.lexemes.length < c.bound) (reads : c.Reads (form.declaration source ++ more)) :
    importStatement c = some (.imports source form.runs, c.after (form.declaration source).length) := by
  simp only [Form.declaration, List.cons_append, List.append_assoc, List.nil_append] at reads
  obtain ⟨first, reads⟩ := reads
  simp only [Form.declaration, List.length_cons, List.length_append, List.length_nil]
  cases form with
  | bare =>
    have here : c.next.token.lexeme = .text source := reads.1
    simp only [importStatement, bind_apply, expectWord_of_word first, Option.bind_some, peek_apply, here,
      importSource_apply true source reads]
    rfl
  | values bindings =>
    simp only [Form.lexemes, List.append_assoc, List.length_append, List.length_singleton] at reads enough ⊢
    exact importStatement_values bindings source types (Nat.lt_of_succ_lt enough) first reads
  | types bindings ofTypes =>
    simp only [Form.lexemes, List.cons_append, List.append_assoc, List.length_cons, List.length_append]
      at reads enough ⊢
    obtain ⟨second, reads⟩ := reads
    have fewer : bindings.lexemes.length < c.bound := by omega
    exact importStatement_types bindings ofTypes source types fewer first second reads

/-- What follows the word of a declaration goes on with no expression. -/
theorem seesAny_declaration (form : Form) (source : String) (reads : c.Reads (form.declaration source ++ more)) :
    seesAny [".", "("] c.next = some (false, c.next) := by
  have reads := reads.2
  cases form with
  | bare => simp [seesAny, reads.1]
  | types => simp [seesAny, show c.next.token.lexeme = word "type" from reads.1]
  | values bindings =>
    cases bindings with
    | byDefault name | both name => simp [seesAny, show c.next.token.lexeme = word name.text from reads.1]
    | all name => simp [seesAny, show c.next.token.lexeme = .sign "*" from reads.1]
    | named => simp [seesAny, show c.next.token.lexeme = .sign "\x7b" from reads.1]

/-- An import declaration is read as a statement, and what is kept of it is its module and whether it is left. -/
theorem statementRule_import (g : Grammar) (form : Form) (source : String)
    (types : c.context.dialect.types = true) (enough : form.lexemes.length < c.bound) (reads : c.Reads (form.declaration source ++ more)) :
    g.statementRule true c = some (.imports source form.runs, c.after (form.declaration source).length) := by
  have first : c.token.lexeme = .word "import" false := reads.1
  have looked : ahead (do skip; seesAny [".", "("]) c = some (false, c) := by
    unfold ahead
    rw [bind_apply, skip_apply, Option.bind_some, seesAny_declaration form source reads]
  simp only [statementRule, bind_apply, peek_apply, first, Option.bind_some, wordStatement, looked,
    Bool.false_eq_true, if_false, importStatement_apply form source types enough reads]

end Grammar

end RouteTrees.Script
