import RouteTrees.Proofs.Script.Layout

/-!
# Readers at a token

What the smallest readers of the grammar do at a cursor of which the current token is known.
-/

namespace RouteTrees.Script

/-! ## Ordinary names -/

/-- Whether a text can be written as a word and is no keyword, not even in some places. -/
structure IsOrdinary (name : String) : Prop where
  isWord : IsWord name
  free : isKeyword name = false

/-- Whether a name is ordinary is decided by the list of keywords. -/
instance (name : String) : Decidable (IsOrdinary name) :=
  decidable_of_iff (IsWord name ∧ isKeyword name = false)
    ⟨fun ⟨isWord, free⟩ => ⟨isWord, free⟩, fun ordinary => ⟨ordinary.isWord, ordinary.free⟩⟩

namespace IsOrdinary

variable {name : String}

/-- An ordinary name is no keyword. -/
theorem ne (ordinary : IsOrdinary name) {word : String} (keyword : isKeyword word = true) : name ≠ word := by
  rintro rfl
  exact ne_true_of_eq_false ordinary.free keyword

/-- An ordinary name is not reserved. -/
theorem isReserved (ordinary : IsOrdinary name) : isReserved name = false := by
  have free := ordinary.free
  simp only [isKeyword, Bool.or_eq_false_iff] at free
  exact free.1.1

end IsOrdinary

/-! ## Cursors -/

namespace Cursor

variable {c : Cursor}

@[simp] theorem context_next (c : Cursor) : c.next.context = c.context := rfl

/-- To take some tokens and then others is to take them all. -/
theorem after_after (n m : Nat) (c : Cursor) : (c.after n).after m = c.after (n + m) := by
  induction n generalizing c with
  | zero => rw [after, Nat.zero_add]
  | succ n ih => rw [after, ih, Nat.succ_add, after]

/-- To take one token more is to take the next. -/
theorem next_after (n : Nat) (c : Cursor) : (c.after n).next = c.after (n + 1) := after_after n 1 c

/-- Taking tokens leaves the surroundings. -/
@[simp] theorem context_after (n : Nat) (c : Cursor) : (c.after n).context = c.context := by
  induction n generalizing c with
  | zero => rfl
  | succ n ih => exact ih c.next

/-- Taking tokens breaks no rule. -/
@[simp] theorem flawed_after (n : Nat) (c : Cursor) : (c.after n).flawed = c.flawed := by
  induction n generalizing c with
  | zero => rfl
  | succ n ih => exact ih c.next

/-- Taking tokens leaves the shorthand fields that were noted. -/
@[simp] theorem covers_after (n : Nat) (c : Cursor) : (c.after n).covers = c.covers := by
  induction n generalizing c with
  | zero => rfl
  | succ n ih => exact ih c.next

/-- Taking tokens leaves the bound of repetitions. -/
@[simp] theorem bound_after (n : Nat) (c : Cursor) : (c.after n).bound = c.bound := by
  induction n generalizing c with
  | zero => rfl
  | succ n ih => exact ih c.next

/-- Behind some tokens a cursor reads those that follow. -/
theorem Reads.after {ls more : List Lexeme} (reads : c.Reads (ls ++ more)) : (c.after ls.length).Reads more := by
  induction ls generalizing c with
  | nil => exact reads
  | cons l ls ih => exact ih reads.2

/-- A mark is no keyword. -/
theorem escapedKeyword_of_sign {mark : String} (here : c.token.lexeme = .sign mark) :
    c.escapedKeyword = false := by
  rw [escapedKeyword, here]

/-- A text is no keyword. -/
theorem escapedKeyword_of_text {value : String} (here : c.token.lexeme = .text value) :
    c.escapedKeyword = false := by
  rw [escapedKeyword, here]

/-- A word that is spelled without escapes breaks no rule. -/
theorem escapedKeyword_of_word {name : String} (here : c.token.lexeme = .word name false) :
    c.escapedKeyword = false := by
  rw [escapedKeyword, here]

end Cursor

/-! ## Readers -/

namespace Parse

variable {α β : Type} {c : Cursor}

/-- One reader behind another goes on where the first has stopped. -/
theorem bind_apply (p : Parse α) (f : α → Parse β) (c : Cursor) :
    (p >>= f) c = (p c).bind fun r => f r.1 r.2 := rfl

theorem pure_apply (a : α) (c : Cursor) : (pure a : Parse α) c = some (a, c) := rfl

/-- A choice between readers is made before either reads. -/
theorem branch_apply (b : Prop) [Decidable b] (p q : Parse α) (c : Cursor) :
    (if b then p else q) c = if b then p c else q c := by
  split <;> rfl

/-- A token that is no escaped keyword is taken without breaking a rule. -/
theorem bump_apply (plain : c.escapedKeyword = false) : bump c = some ((), c.next) := by
  rw [bump, plain, Bool.or_false]
  rfl

theorem skip_apply (c : Cursor) : skip c = some ((), c.next) := rfl

theorem sees_apply (mark : String) (c : Cursor) :
    sees mark c = some (decide (c.token.lexeme = .sign mark), c) := rfl

theorem atWord_apply (name : String) (c : Cursor) : atWord name c = some (isWord name c.token.lexeme, c) := rfl

theorem peek_apply (c : Cursor) : peek c = some (c.token.lexeme, c) := rfl

theorem typed_apply (c : Cursor) : typed c = some (c.context.dialect.types, c) := rfl

theorem context_apply (c : Cursor) : context c = some (c.context, c) := rfl

theorem afterBreak_apply (c : Cursor) : afterBreak c = some (c.token.afterBreak, c) := rfl

/-- What is read and not used is read all the same. -/
theorem discard_apply (p : Parse α) (c : Cursor) : discard p c = (p c).map fun r => ((), r.2) := by
  have unfolded : discard p c = (p >>= fun _ => pure ()) c := rfl
  rw [unfolded, bind_apply]
  cases p c <;> rfl

/-- Without its condition, no rule is broken. -/
theorem flawIf_false (c : Cursor) : flawIf false c = some ((), c) := rfl

theorem isWord_word (word name : String) (escaped : Bool) :
    isWord word (.word name escaped) = decide (name = word) := rfl

/-- A mark that is there is taken. -/
theorem eat_of_sign {mark : String} (here : c.token.lexeme = .sign mark) : eat mark c = some (true, c.next) := by
  simp only [eat, bind_apply, sees_apply, here, Option.bind_some, decide_true, if_true,
    bump_apply (c.escapedKeyword_of_sign here), pure_apply]

/-- A mark that is not there is not taken. -/
theorem eat_of_ne {mark : String} (other : c.token.lexeme ≠ .sign mark) : eat mark c = some (false, c) := by
  simp only [eat, bind_apply, sees_apply, other, Option.bind_some, decide_false, Bool.false_eq_true, if_false,
    pure_apply]

/-- An expected mark that is there is taken. -/
theorem expect_of_sign {mark : String} (here : c.token.lexeme = .sign mark) :
    expect mark c = some ((), c.next) := by
  simp only [expect, bind_apply, sees_apply, here, Option.bind_some, decide_true, if_true,
    bump_apply (c.escapedKeyword_of_sign here)]

/-- An expected word that is there is taken. -/
theorem expectWord_of_word {name : String} (here : c.token.lexeme = .word name false) :
    expectWord name c = some ((), c.next) := by
  simp only [expectWord, bind_apply, atWord_apply, here, isWord_word, Option.bind_some, decide_true, if_true,
    bump_apply (c.escapedKeyword_of_word here)]

/-- A word that is there is taken. -/
theorem eatWord_of_word {name : String} (here : c.token.lexeme = .word name false) :
    eatWord name c = some (true, c.next) := by
  simp only [eatWord, bind_apply, atWord_apply, here, isWord_word, Option.bind_some, decide_true, if_true,
    bump_apply (c.escapedKeyword_of_word here), pure_apply]

/-- Where a mark stands, no word is taken. -/
theorem eatWord_of_sign {mark : String} (here : c.token.lexeme = .sign mark) (name : String) :
    eatWord name c = some (false, c) := by
  simp only [eatWord, bind_apply, atWord_apply, here, isWord, Option.bind_some, Bool.false_eq_true, if_false,
    pure_apply]

/-- A word is taken as a name. -/
theorem name_of_word {n : String} (here : c.token.lexeme = .word n false) : name c = some (n, c.next) := by
  simp only [name, bind_apply, peek_apply, here, Option.bind_some]
  rfl

/-- An ordinary name may be bound. -/
theorem isBindable_of_ordinary {name : String} (ordinary : IsOrdinary name) :
    isBindable (.word name false) = true := by
  rw [isBindable, ordinary.isReserved]
  rfl

/-- A name that may be bound is taken, unless it is an operator in some surroundings. -/
theorem boundName_of_word {n : String} (here : c.token.lexeme = .word n false)
    (bindable : isBindable (.word n false) = true) (noAwait : n ≠ "await") (noYield : n ≠ "yield") :
    boundName c = some (n, c.next) := by
  simp only [boundName, bind_apply, peek_apply, here, Option.bind_some, bindable, if_true, name_of_word here,
    checkOperator, context, flawIf, noAwait, noYield, decide_false, Bool.and_false, Bool.or_false,
    Bool.false_eq_true, if_false, pure_apply]

/-- An ordinary name is taken where one is bound. -/
theorem boundName_of_ordinary {n : String} (ordinary : IsOrdinary n) (here : c.token.lexeme = .word n false) :
    boundName c = some (n, c.next) :=
  boundName_of_word here (isBindable_of_ordinary ordinary) (ordinary.ne (by decide)) (ordinary.ne (by decide))

/-- An ordinary name is no operator anywhere. -/
theorem checkOperator_of_ordinary {n : String} (ordinary : IsOrdinary n) (c : Cursor) :
    checkOperator n c = some ((), c) := by
  have noAwait : n ≠ "await" := ordinary.ne (by decide)
  have noYield : n ≠ "yield" := ordinary.ne (by decide)
  simp only [checkOperator, bind_apply, context, Option.bind_some, noAwait, noYield, decide_false, Bool.and_false,
    Bool.or_false, flawIf_false]

/-- A semicolon ends a statement. -/
theorem endStatement_of_sign (here : c.token.lexeme = .sign ";") : endStatement c = some ((), c.next) := by
  simp only [endStatement, bind_apply, eat_of_sign here, Option.bind_some, if_true, pure_apply]

/-! ## Repetition -/

/-- A repetition of which the first turn stops is that turn. -/
theorem repeating_of_stop {σ : Type} {turn : σ → Parse (Turn σ α)} {start : σ} {a : α} {c' : Cursor}
    (bound : 0 < c.bound) (stops : turn start c = some (.stop a, c')) : repeating turn start c = some (a, c') := by
  obtain ⟨n, same⟩ := Nat.exists_eq_add_one_of_ne_zero (Nat.ne_zero_of_lt bound)
  simp only [repeating, same, turns, bind_apply, stops, Option.bind_some, pure_apply]

/-- Items are read until there are no more. -/
theorem whileItems_of_stop {more : Parse Bool} {item : Parse α} (stops : more c = some (false, c)) (n : Nat) :
    whileItems more item (n + 1) c = some ([], c) := by
  simp only [whileItems, bind_apply, stops, Option.bind_some, Bool.false_eq_true, if_false, pure_apply]

/-- An item is read before those that follow it. -/
theorem whileItems_of_item {more : Parse Bool} {item : Parse α} {a : α} {as : List α} {c' c'' : Cursor} {n : Nat}
    (goesOn : more c = some (true, c)) (read : item c = some (a, c'))
    (rest : whileItems more item n c' = some (as, c'')) :
    whileItems more item (n + 1) c = some (a :: as, c'') := by
  simp only [whileItems, bind_apply, goesOn, Option.bind_some, if_true, read, rest, pure_apply]

end Parse

end RouteTrees.Script
