import RouteTrees.Json.Reader
import RouteTrees.Json.Writer

/-!
# Reading what has been written

`Gives` says what a reader makes of a text, and that it leaves all that follows. A text between quotes reads
back as it was, whatever characters it holds.

The characters of written JSON may also be put in another way once it was written, as long as only those
within texts are, and each by something that is read as that character (`Respells`).
-/

namespace RouteTrees.Json.Read

variable {α β : Type}

/-! ## Readers -/

/-- Whether a reader makes this of a text and leaves what follows, whatever that is. -/
def Gives (r : Read α) (text : List Char) (result : Except Error α) : Prop :=
  ∀ rest, r (text ++ rest) = result.map fun a => (a, rest)

/-- One reader behind another goes on where the first has stopped. -/
theorem bind_apply (r : Read α) (f : α → Read β) (cs : List Char) :
    (r >>= f) cs =
      match r cs with
      | .ok (a, rest) => f a rest
      | .error e => .error e := by
  show StateT.bind r f cs = _
  rw [StateT.bind]
  cases r cs <;> rfl

/-- What is next is seen if it is no blank. -/
theorem peek_cons {c : Char} (solid : isBlank c = false) (cs : List Char) :
    peek (c :: cs) = .ok (some c, c :: cs) := by
  rw [peek, List.dropWhile_cons_of_neg (ne_true_of_eq_false solid)]
  rfl

/-- Blanks that stand between the parts of a value. -/
def IsGap (gap : List Char) : Prop := gap.all isBlank = true

theorem isGap_nil : IsGap [] := rfl

/-- A gap does not hide what is next. -/
theorem peek_append {gap : List Char} (blank : IsGap gap) (cs : List Char) :
    peek (gap ++ cs) = peek cs := by
  rw [peek, peek, List.dropWhile_append_of_pos (List.all_eq_true.mp blank)]

/-- A reader that looks at what is next takes no notice of blanks. -/
theorem peek_bind_append {gap : List Char} (blank : IsGap gap) (f : Option Char → Read α)
    (cs : List Char) : (peek >>= f) (gap ++ cs) = (peek >>= f) cs := by
  rw [bind_apply, bind_apply, peek_append blank]

/-- A reader that looks at what is next finds the first character, if it is no blank. -/
theorem peek_bind_cons {c : Char} (solid : isBlank c = false) (f : Option Char → Read α)
    (cs : List Char) : (peek >>= f) (c :: cs) = f (some c) (c :: cs) := by
  rw [bind_apply, peek_cons solid]

theorem drop_bind (f : Unit → Read α) (c : Char) (cs : List Char) : (drop >>= f) (c :: cs) = f () cs := rfl

/-- What is read can be put in another form. -/
theorem Gives.map {r : Read α} {text : List Char} {result : Except Error α} (g : α → β)
    (given : Gives r text result) : Gives (do pure (g (← r))) text (result.map g) := by
  intro rest
  rw [bind_apply, given]
  cases result <;> rfl

/-- A reader of a word takes that word. -/
theorem gives_exactly (cs : List Char) : Gives (exactly cs) cs (.ok ()) := by
  intro rest
  induction cs with
  | nil => rfl
  | cons c cs ih =>
    rw [exactly, List.cons_append]
    exact (if_pos rfl).trans ih

/-! ## Texts -/

/-- A text is read character by character. -/
theorem textFrom_cons (checked : Bool) (place : Place) (c : Char) (cs : List Char) :
    textFrom checked place (c :: cs) =
      match textStep checked place c cs with
      | .error e => .error e
      | .ok none => .ok ([], cs)
      | .ok (some (value, next)) =>
        (textFrom checked next cs).map fun r => (value.toList ++ r.1, r.2) := by
  rw [textFrom]
  cases textStep checked place c cs with
  | error e => rfl
  | ok step =>
    cases step with
    | none => rfl
    | some onward =>
      obtain ⟨value, next⟩ := onward
      show (textFrom checked next cs).bind _ = (textFrom checked next cs).map _
      cases textFrom checked next cs <;> rfl

/-- One more digit of a number in a text: the last one completes the number, and any other is taken into it. -/
theorem textStep_digits_cases {checked : Bool} {left value : Nat} {lead : Option Nat} {c : Char}
    {rest : List Char} {step : Option (Option Char × Place)}
    (read : textStep checked (.digits left value lead) c rest = .ok step) :
    ∃ d, digit? c = some d ∧
      ((left ≤ 1 ∧ ∃ onward, escaped checked (value * 16 + d) lead = .ok onward ∧ step = some onward) ∨
        (¬left ≤ 1 ∧ step = some (none, .digits (left - 1) (value * 16 + d) lead))) := by
  dsimp only [textStep] at read
  cases digit : digit? c with
  | none =>
    rw [digit] at read
    cases read
  | some d =>
    refine ⟨d, rfl, ?_⟩
    rw [digit] at read
    dsimp only at read
    split at read
    · next last =>
      cases complete : escaped checked (value * 16 + d) lead with
      | error e =>
        rw [complete] at read
        cases read
      | ok onward =>
        rw [complete] at read
        cases read
        exact .inl ⟨last, onward, rfl, rfl⟩
    · next more =>
      cases read
      exact .inr ⟨more, rfl⟩

/-- A character that stands for itself. -/
theorem textFrom_plain {c : Char} (quote : c ≠ '"') (backslash : c ≠ '\\') (visible : ¬c.toNat < 0x20)
    (cs : List Char) :
    textFrom true .plain (c :: cs) = (textFrom true .plain cs).map fun r => (c :: r.1, r.2) := by
  rw [textFrom_cons, textStep, if_neg quote, if_neg backslash, if_neg visible]
  rfl

/-- A character that is written as a letter behind a backslash. -/
theorem textFrom_letter {c d : Char} (letter : letter? d = some c) (notNumber : d ≠ 'u')
    (cs : List Char) :
    textFrom true .plain ('\\' :: d :: cs) =
      (textFrom true .plain cs).map fun r => (c :: r.1, r.2) := by
  have escape : textStep true .plain '\\' (d :: cs) = .ok (some (none, .escape)) := rfl
  have step : textStep true .escape d cs = .ok (some (some c, .plain)) := by
    rw [textStep, if_neg notNumber, letter]
  rw [textFrom_cons, escape]
  simp only
  rw [textFrom_cons, step]
  simp only
  cases textFrom true .plain cs <;> rfl

theorem digit?_digitChar : ∀ d < 16, digit? (Nat.digitChar d) = some d := by decide

theorem utf8Size_digitChar : ∀ d < 16, (Nat.digitChar d).utf8Size = 1 := by decide

/-- A digit of a number in an escape, which is not the last one. -/
theorem textFrom_digit {d : Nat} (less : d < 16) (left value : Nat) (cs : List Char) :
    textFrom true (.digits (left + 2) value none) (Nat.digitChar d :: cs) =
      textFrom true (.digits (left + 1) (value * 16 + d) none) cs := by
  have more : ¬left + 2 ≤ 1 := by omega
  have step : textStep true (.digits (left + 2) value none) (Nat.digitChar d) cs =
      .ok (some (none, .digits (left + 1) (value * 16 + d) none)) := by
    rw [textStep, digit?_digitChar d less]
    exact if_neg more
  rw [textFrom_cons, step]
  simp only
  cases textFrom true _ cs <;> rfl

/-- The last digit of a number in an escape that is the number of a character. -/
theorem textFrom_lastDigit {d value : Nat} (less : d < 16) (single : value * 16 + d < 0xD800)
    (cs : List Char) :
    textFrom true (.digits 1 value none) (Nat.digitChar d :: cs) =
      (textFrom true .plain cs).map fun r => (Char.ofNat (value * 16 + d) :: r.1, r.2) := by
  have notFirst : ¬(0xD800 ≤ value * 16 + d ∧ value * 16 + d ≤ 0xDBFF) := by omega
  have notSecond : ¬(0xDC00 ≤ value * 16 + d ∧ value * 16 + d ≤ 0xDFFF) := by omega
  have step : textStep true (.digits 1 value none) (Nat.digitChar d) cs =
      .ok (some (some (Char.ofNat (value * 16 + d)), .plain)) := by
    rw [textStep, digit?_digitChar d less]
    simp only [Nat.le_refl, if_true, escaped, if_neg notFirst, if_neg notSecond]
    rfl
  rw [textFrom_cons, step]
  rfl

/-- A character that is written by its number. -/
theorem textFrom_hex4 {n : Nat} (less : n < 0xD800) (cs : List Char) :
    textFrom true .plain ('\\' :: 'u' :: hex4 n ++ cs) =
      (textFrom true .plain cs).map fun r => (Char.ofNat n :: r.1, r.2) := by
  have small : ∀ k, k % 16 < 16 := fun k => Nat.mod_lt k (by decide)
  have whole : (((0 * 16 + n / 0x1000 % 16) * 16 + n / 0x100 % 16) * 16 + n / 0x10 % 16) * 16 +
      n % 16 = n := by omega
  have escape : textStep true .plain '\\' ('u' :: (hex4 n ++ cs)) = .ok (some (none, .escape)) := rfl
  have enough : ¬byteLength ((hex4 n ++ cs).take 4) < 4 := by
    simp [hex4, byteLength, utf8Size_digitChar _ (small _)]
  have number : textStep true .escape 'u' (hex4 n ++ cs) =
      .ok (some (none, .digits 4 0 none)) := by
    rw [textStep, if_pos rfl]
    exact if_neg enough
  have last := textFrom_lastDigit (small n) (whole.symm ▸ less) cs
  rw [List.cons_append, List.cons_append, textFrom_cons, escape]
  simp only
  rw [textFrom_cons, number]
  simp only [hex4, List.map_cons, List.map_nil, List.cons_append, List.nil_append]
  rw [textFrom_digit (small _), textFrom_digit (small _), textFrom_digit (small _), last, whole]
  cases textFrom true .plain cs <;> rfl

/-- A character of a text reads back from the way it is written. -/
theorem textFrom_escapeChar (c : Char) (cs : List Char) :
    textFrom true .plain (escapeChar c ++ cs) =
      (textFrom true .plain cs).map fun r => (c :: r.1, r.2) := by
  unfold escapeChar
  -- the seven characters that have a letter of their own
  iterate 7
    split
    · next same =>
      subst same
      exact textFrom_letter rfl (by decide) cs
  split
  · next control =>
    have number := textFrom_hex4 (Nat.lt_trans control (by decide)) cs
    rwa [Char.ofNat_toNat] at number
  · next quote backslash _ _ _ _ _ visible => exact textFrom_plain quote backslash visible cs

/-! ## Characters that are put in another way -/

/-- The characters of written JSON that stand outside of texts and numbers. -/
def frame : List Char :=
  ['{', '}', '[', ']', ':', ',', '"', 'a', 'e', 'f', 'l', 'n', 'r', 's', 't', 'u']

/-- Whether readers take no notice if characters of written JSON are put in another way: outside of texts
they stay as they are, and what has been written of a character of a text is read as that character. -/
structure Respells (put : Char → List Char) : Prop where
  outside : ∀ c ∈ frame, put c = [c]
  within : ∀ c cs, textFrom true .plain ((escapeChar c).flatMap put ++ cs) =
    (textFrom true .plain cs).map fun r => (c :: r.1, r.2)

/-- All characters may stay as they are. -/
theorem respells_self : Respells fun c => [c] where
  outside _ _ := rfl
  within c cs := by rw [List.flatMap_singleton', textFrom_escapeChar]

section Respelled

variable {put : Char → List Char}

/-- Characters of the frame are kept. -/
theorem Respells.cons (respells : Respells put) {c : Char} (mem : c ∈ frame) (cs : List Char) :
    (c :: cs).flatMap put = c :: cs.flatMap put := by
  rw [List.flatMap_cons, respells.outside c mem, List.singleton_append]

/-- A word of the frame is kept. -/
theorem Respells.word (respells : Respells put) {cs : List Char}
    (outside : cs.all frame.contains = true) : cs.flatMap put = cs := by
  induction cs with
  | nil => rfl
  | cons c cs ih =>
    obtain ⟨first, later⟩ := Bool.and_eq_true_iff.mp outside
    rw [respells.cons (List.contains_iff_mem.mp first), ih later]

theorem Respells.mark (respells : Respells put) (c : Char) (mem : c ∈ frame) : [c].flatMap put = [c] :=
  respells.cons mem []

/-- Of a quotation, only what is between the quotes is respelled. -/
theorem Respells.quote_eq (respells : Respells put) (s : String) :
    (quote s).flatMap put = '"' :: ((s.toList.flatMap escapeChar).flatMap put ++ ['"']) := by
  rw [quote, List.cons_append, respells.cons (by decide), List.flatMap_append,
    respells.mark '"' (by decide)]

end Respelled

/-! ## Whole texts -/

/-- What a reader makes of a text it makes of the text by itself, if only blanks follow. -/
theorem Gives.parse_append {r : Read α} {text gap : List Char} {result : Except Error α}
    (given : Gives r text result) (blank : IsGap gap) : parse r (String.ofList (text ++ gap)) = result := by
  have none : (gap ++ []).dropWhile isBlank = [] :=
    List.dropWhile_append_of_pos (List.all_eq_true.mp blank)
  rw [List.append_nil] at none
  rw [parse, String.toList_ofList, given]
  cases result with
  | error e => rfl
  | ok a =>
    show (if (gap.dropWhile isBlank).isEmpty = true then _ else _) = _
    rw [none]
    rfl

/-- A reader that gives a result of a text parses it to that result. -/
theorem Gives.parse_eq {r : Read α} {text : List Char} {result : Except Error α}
    (given : Gives r text result) : parse r (String.ofList text) = result := by
  have whole := given.parse_append isGap_nil
  rwa [List.append_nil] at whole

end RouteTrees.Json.Read
