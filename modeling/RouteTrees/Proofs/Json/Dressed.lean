import RouteTrees.Json.Relaxed
import RouteTrees.Proofs.Json.Reading

/-!
# Plain JSON with comments put in

A text of plain JSON may be dressed: blanks and comments are put in between its parts, and a comma behind the
last item of a list or the last field of an object. `Dressed` says so of two texts, character by character.
What lies within texts and within words is left alone, whatever it looks like.

Readers of relaxed JSON pass over what has been put in. This is shown here for the gaps between the parts of a
value, for words, and for texts between quotes.
-/

namespace RouteTrees.Json

open Script (isLineBreak)

/-! ## What may be put in, and where -/

/-- A character of a number or of a name of a value, which nothing may tear from its neighbour. -/
def isWord (c : Char) : Bool := c.isAlphanum || c = '+' || c = '-' || c = '.'

/-- A character behind which the next item, field or value is still to come. -/
def opens (c : Char) : Bool := c = '[' || c = '{' || c = ',' || c = ':'

/-- Where in a text of plain JSON one is. -/
inductive Seam where
  /-- Outside of texts, perhaps within a word, and perhaps behind a value with only blanks since. -/
  | between (word ended : Bool)
  /-- In a text. -/
  | within
  /-- In a text, behind a backslash. -/
  | escaped
deriving DecidableEq

/-- Where one is behind a character. -/
def Seam.behind : Seam → Char → Seam
  | .between _ ended, c =>
    if c = '"' then .within
    else if Read.isBlank c then .between false ended
    else .between (isWord c) (!opens c)
  | .within, c =>
    if c = '"' then .between false true
    else if c = '\\' then .escaped
    else .within
  | .escaped, _ => .within

/-- Behind a blank no word goes on. -/
theorem Seam.behind_blank {c : Char} (blank : Read.isBlank c = true) (word ended : Bool) :
    (Seam.between word ended).behind c = .between false ended := by
  have noQuote : c ≠ '"' := by
    rintro rfl
    cases blank
  rw [behind, if_neg noQuote, if_pos blank]

/-- Behind a character at which the next part of a text begins, what was before it does not count. -/
theorem Seam.behind_solid {c : Char} (solid : Read.isBlank c = false) (word ended : Bool) :
    (Seam.between word ended).behind c = (Seam.between false false).behind c := by
  rw [behind, behind, solid]
  rfl

/-- Whether a text goes on with the end of a list or of an object. -/
def Closes (cs : List Char) : Prop := cs.head? = some ']' ∨ cs.head? = some '}'

/-- Whether a text does not begin with a character of a word. -/
def Apart (cs : List Char) : Prop := ∀ c ∈ cs.head?, isWord c = false

/-- Whether something may stand before what is left of a text without tearing a word. -/
def Parts (word : Bool) (cs : List Char) : Prop := word = true → Apart cs

/-- Whether a text is another with blanks and comments between its parts, and perhaps a comma behind the
last item of a list or the last field of an object, from a place in that other text on. -/
inductive Dressed : Seam → List Char → List Char → Prop where
  | nil {seam : Seam} : Dressed seam [] []
  | keep {seam : Seam} (c : Char) {cs ds : List Char} (rest : Dressed (seam.behind c) cs ds) :
      Dressed seam (c :: cs) (c :: ds)
  | blank {word ended : Bool} {c : Char} {cs ds : List Char} (parts : Parts word cs)
      (isBlank : Relaxed.isBlank c = true) (rest : Dressed (.between false ended) cs ds) :
      Dressed (.between word ended) cs (c :: ds)
  | line {word ended : Bool} {text cs ds : List Char} (parts : Parts word cs)
      (one : ∀ c ∈ text, isLineBreak c = false) (ends : ∀ c ∈ ds.head?, isLineBreak c = true)
      (rest : Dressed (.between false ended) cs ds) :
      Dressed (.between word ended) cs ('/' :: '/' :: (text ++ ds))
  | block {word ended : Bool} {text cs ds : List Char} (parts : Parts word cs)
      (inside : ¬['*', '/'] <:+: text) (rest : Dressed (.between false ended) cs ds) :
      Dressed (.between word ended) cs ('/' :: '*' :: (text ++ '*' :: '/' :: ds))
  | comma {word : Bool} {cs ds : List Char} (last : Closes (cs.dropWhile Read.isBlank))
      (rest : Dressed (.between false false) cs ds) : Dressed (.between word true) cs (',' :: ds)

/-- Whether a whole text is another with blanks, comments and last commas put in. -/
def DressedAs (text text' : String) : Prop := Dressed (.between false false) text.toList text'.toList

/-- Characters that are kept, up to what may be put in behind them. -/
theorem Dressed.keepAll {seam : Seam} {text cs ds : List Char}
    (rest : Dressed (text.foldl Seam.behind seam) cs ds) : Dressed seam (text ++ cs) (text ++ ds) := by
  induction text generalizing seam with
  | nil => exact rest
  | cons c text ih => exact .keep c (ih rest)

/-- A text is dressed as itself, with nothing put in. -/
theorem dressed_self (seam : Seam) (cs : List Char) : Dressed seam cs cs := by
  have none : Dressed (cs.foldl Seam.behind seam) [] [] := .nil
  have kept := none.keepAll
  rwa [List.append_nil] at kept

/-- Putting in makes no text shorter. -/
theorem Dressed.length_le {seam : Seam} {cs ds : List Char} (dressed : Dressed seam cs ds) :
    cs.length ≤ ds.length := by
  induction dressed with
  | nil => exact Nat.le_refl _
  | keep | blank | line | block | comma => grind

/-! ## Passing over what has been put in -/

namespace Relaxed

/-- Blanks are passed over. -/
theorem skipGap_blank {c : Char} (blank : isBlank c = true) (cs : List Char) :
    skipGap .blanks (c :: cs) = skipGap .blanks cs := by
  have noSlash : c ≠ '/' := by
    rintro rfl
    cases blank
  rw [skipGap.eq_def]
  split <;> simp_all

/-- What begins a part of a value is not passed over. -/
theorem skipGap_solid {c : Char} (solid : isBlank c = false) (noSlash : c ≠ '/') (cs : List Char) :
    skipGap .blanks (c :: cs) = .ok (c :: cs) := by
  rw [skipGap.eq_def]
  split <;> simp_all

theorem skipGap_slashes (cs : List Char) : skipGap .blanks ('/' :: '/' :: cs) = skipGap .line cs := rfl

theorem skipGap_star (cs : List Char) : skipGap .blanks ('/' :: '*' :: cs) = skipGap .block cs := rfl

/-- A comment of one line is passed over up to the end of the line. -/
theorem skipGap_line {text : List Char} (one : ∀ c ∈ text, isLineBreak c = false) {cs : List Char}
    (ends : ∀ c ∈ cs.head?, isLineBreak c = true) :
    skipGap .line (text ++ cs) = skipGap .blanks cs := by
  induction text with
  | nil =>
    cases cs with
    | nil => rfl
    | cons c cs =>
      have breaks : isLineBreak c = true := ends c rfl
      rw [skipGap_blank (by rw [isBlank, breaks, Bool.or_true])]
      exact if_pos breaks
  | cons c text ih =>
    have more := ih fun d mem => one d (.tail c mem)
    have goes : isLineBreak c = false := one c (.head text)
    rw [← more]
    exact if_neg (ne_true_of_eq_false goes)

/-- Within a comment a character is passed over, unless the comment ends with it. -/
theorem skipGap_within {c : Char} {cs : List Char} (goesOn : c = '*' → ∀ d ∈ cs.head?, d ≠ '/') :
    skipGap .block (c :: cs) = skipGap .block cs := by
  rw [skipGap.eq_def]
  split <;> simp_all

/-- A comment between stars is passed over. -/
theorem skipGap_block {text : List Char} (inside : ¬['*', '/'] <:+: text) (cs : List Char) :
    skipGap .block (text ++ '*' :: '/' :: cs) = skipGap .blanks cs := by
  induction text with
  | nil => rfl
  | cons c text ih =>
    rw [List.cons_append, skipGap_within]
    · exact ih fun held => inside (held.trans (List.suffix_cons c text).isInfix)
    · rintro rfl d mem rfl
      cases text with
      | nil => cases mem
      | cons d text =>
        cases mem
        exact inside ⟨[], text, rfl⟩

/-! ## What is met next -/

/-- A character at which the next part of a text begins. -/
def Solid (c : Char) : Prop := isBlank c = false ∧ c ≠ '/'

theorem isBlank_of_strict {c : Char} (blank : Read.isBlank c = true) : isBlank c = true := by
  simp only [Read.isBlank, Bool.or_eq_true, decide_eq_true_eq] at blank
  rcases blank with ((rfl | rfl) | rfl) | rfl <;> decide

theorem Solid.not_strict {c : Char} (solid : Solid c) : Read.isBlank c = false :=
  Bool.eq_false_iff.mpr fun blank => ne_true_of_eq_false solid.1 (isBlank_of_strict blank)

/-- Two texts of which the one is dressed begin with the same character, or both have ended. -/
inductive Front : List Char → List Char → Prop where
  | nil : Front [] []
  | cons (c : Char) {cs ds : List Char} (rest : Dressed (Seam.behind (.between false false) c) cs ds) :
      Front (c :: cs) (c :: ds)

/-- Behind blanks and comments a dressed text goes on as the plain one does, but for a comma that may stand
before a closing character. -/
theorem skipGap_of_dressed {seam : Seam} {word ended : Bool} {cs ds : List Char}
    (dressed : Dressed seam cs ds) (place : seam = .between word ended)
    (solid : ∀ c ∈ (cs.dropWhile Read.isBlank).head?, Solid c) :
    (∃ ds', skipGap .blanks ds = .ok ds' ∧ Front (cs.dropWhile Read.isBlank) ds') ∨
      ended = true ∧ Closes (cs.dropWhile Read.isBlank) ∧ ∃ behind ds',
        skipGap .blanks ds = .ok (',' :: behind) ∧ skipGap .blanks behind = .ok ds' ∧
        Front (cs.dropWhile Read.isBlank) ds' := by
  induction dressed generalizing word ended with
  | nil => exact .inl ⟨[], rfl, .nil⟩
  | @keep _ c cs ds kept ih =>
    subst place
    cases blank : Read.isBlank c with
    | true =>
      rw [List.dropWhile_cons_of_pos blank] at solid ⊢
      rw [skipGap_blank (isBlank_of_strict blank)]
      exact ih (Seam.behind_blank blank word ended) solid
    | false =>
      rw [List.dropWhile_cons_of_neg (ne_true_of_eq_false blank)] at solid ⊢
      obtain ⟨notBlank, noSlash⟩ := solid c rfl
      rw [Seam.behind_solid blank word ended] at kept
      exact .inl ⟨c :: ds, skipGap_solid notBlank noSlash ds, .cons c kept⟩
  | blank _ isBlank _ ih =>
    cases place
    rw [skipGap_blank isBlank]
    exact ih rfl solid
  | line _ one ends _ ih =>
    cases place
    rw [skipGap_slashes, skipGap_line one ends]
    exact ih rfl solid
  | block _ inside _ ih =>
    cases place
    rw [skipGap_star, skipGap_block inside]
    exact ih rfl solid
  | comma last _ ih =>
    -- behind the comma nothing has ended any more, so that no other is met
    cases place
    obtain ⟨ds', behind, front⟩ | ⟨never, -⟩ := ih rfl solid
    · exact .inr ⟨rfl, last, _, ds', skipGap_solid rfl (by decide) _, behind, front⟩
    · cases never

end Relaxed

/-! ## Words -/

/-- Characters of words are ASCII. -/
theorem toNat_lt_of_isWord {c : Char} (word : isWord c = true) : c.toNat < 128 := by
  have upTo (last : Char) (small : last.toNat < 128) (most : c.val ≤ last.val) : c.toNat < 128 :=
    Nat.lt_of_le_of_lt (UInt32.le_iff_toNat_le.mp most) small
  simp only [isWord, Char.isAlphanum, Bool.or_eq_true, decide_eq_true_eq] at word
  rcases word with (((alpha | digit) | rfl) | rfl) | rfl
  · rcases Bool.or_eq_true_iff.mp alpha with upper | lower
    · have within : 'A'.val ≤ c.val ∧ c.val ≤ 'Z'.val := of_decide_eq_true upper
      exact upTo 'Z' (by decide) within.2
    · have within := Bool.and_eq_true_iff.mp lower
      exact upTo 'z' (by decide) (of_decide_eq_true within.2)
  · have within := Bool.and_eq_true_iff.mp digit
    exact upTo '9' (by decide) (of_decide_eq_true within.2)
  all_goals decide

/-- A character of a word is no blank. -/
theorem not_isBlank_of_isWord {c : Char} (word : isWord c = true) : Relaxed.isBlank c = false := by
  have each : ∀ n < 128, isWord (Char.ofNat n) = true → Relaxed.isBlank (Char.ofNat n) = false := by decide
  have known := each c.toNat (toNat_lt_of_isWord word)
  rw [Char.ofNat_toNat] at known
  exact known word

/-- A word begins a part of a value. -/
theorem solid_of_isWord {c : Char} (word : isWord c = true) : Relaxed.Solid c := by
  refine ⟨not_isBlank_of_isWord word, ?_⟩
  rintro rfl
  cases word

/-- Behind a character of a word the word may go on, and a value may have ended. -/
theorem behind_word {c : Char} (word : isWord c = true) (before ended : Bool) :
    (Seam.between before ended).behind c = .between true true := by
  have noQuote : c ≠ '"' := by
    rintro rfl
    cases word
  have notOpen : opens c = false := by
    refine Bool.eq_false_iff.mpr fun opening => ?_
    simp only [opens, Bool.or_eq_true, decide_eq_true_eq] at opening
    rcases opening with ((rfl | rfl) | rfl) | rfl <;> cases word
  rw [Seam.behind, if_neg noQuote, (solid_of_isWord word).not_strict, word, notOpen]
  rfl

/-- Nothing is put in within a word. -/
theorem Dressed.exists_append {ended : Bool} {text rest ds : List Char}
    (dressed : Dressed (.between true ended) (text ++ rest) ds) (words : ∀ c ∈ text, isWord c = true) :
    ∃ ended' ds', ds = text ++ ds' ∧ Dressed (.between true ended') rest ds' := by
  induction text generalizing ended ds with
  | nil => exact ⟨ended, ds, rfl, dressed⟩
  | cons c text ih =>
    obtain ⟨word, later⟩ := List.forall_mem_cons.mp words
    have torn : ¬Parts true (c :: text ++ rest) := fun parts => by
      rw [parts rfl c rfl] at word
      cases word
    cases dressed with
    | keep _ behind =>
      rw [behind_word word] at behind
      obtain ⟨ended', ds', rfl, dressed'⟩ := ih behind later
      exact ⟨ended', ds', rfl, dressed'⟩
    | blank parts | line parts | block parts => exact absurd parts torn
    | comma last _ =>
      rw [List.cons_append, List.dropWhile_cons_of_neg (ne_true_of_eq_false (solid_of_isWord word).not_strict)]
        at last
      rcases last with last | last <;> cases last <;> cases word

/-- Behind a word that has ended no other is begun. -/
theorem Dressed.apart {ended : Bool} {cs ds : List Char} (dressed : Dressed (.between true ended) cs ds)
    (apart : Apart cs) : Apart ds := by
  cases dressed with
  | nil => exact nofun
  | keep c _ => exact fun d mem => apart d mem
  | @blank _ _ c _ _ _ isBlank _ =>
    intro d mem
    cases mem
    refine Bool.eq_false_iff.mpr fun word => ?_
    rw [not_isBlank_of_isWord word] at isBlank
    cases isBlank
  | line | block | comma =>
    intro d mem
    cases mem
    rfl

/-! ## Texts -/

/-- Where a reader of plain JSON is in a text, for what may be put in there. -/
def Seam.ofPlace : Read.Place → Seam
  | .escape | .betweenEscape _ => .escaped
  | .plain | .digits .. | .between _ => .within

/-- Nothing is put in within a text. -/
theorem Dressed.exists_cons {seam : Seam} {c : Char} {cs ds : List Char} (dressed : Dressed seam (c :: cs) ds)
    (inside : ∀ word ended, seam ≠ .between word ended) :
    ∃ ds', ds = c :: ds' ∧ Dressed (seam.behind c) cs ds' := by
  cases dressed with
  | keep _ rest => exact ⟨_, rfl, rest⟩
  | blank | line | block | comma => exact absurd rfl (inside _ _)

theorem Seam.ofPlace_ne_between (place : Read.Place) (word ended : Bool) :
    Seam.ofPlace place ≠ .between word ended := by
  cases place <;> exact nofun

namespace Relaxed

/-- An escape is followed by more of the text. -/
theorem ofPlace_of_escaped {value : Nat} {lead : Option Nat} {result : Option Char} {next : Read.Place}
    (read : Read.escaped true value lead = .ok (result, next)) : Seam.ofPlace next = .within := by
  unfold Read.escaped at read
  split at read
  · split at read
    · cases read
      rfl
    · split at read <;> cases read
      rfl
  · split at read <;> cases read
    rfl

/-- A digit neither ends a text nor begins an escape. -/
theorem behind_digit {c : Char} {d : Nat} (digit : Read.digit? c = some d) :
    Seam.within.behind c = .within := by
  have noQuote : c ≠ '"' := by
    rintro rfl
    cases digit
  have noBackslash : c ≠ '\\' := by
    rintro rfl
    cases digit
  rw [Seam.behind, if_neg noQuote, if_neg noBackslash]

/-- A letter that plain JSON allows behind a backslash means the same where more are allowed. -/
theorem escapeStep_of_letter {c d : Char} (letter : Read.letter? c = some d) :
    escapeStep c = .ok (some d, .plain) := by
  have known : c ∈ ['"', '\\', '/', 'b', 'f', 'n', 'r', 't'] := by
    grind [Read.letter?]
  have each : ∀ c ∈ ['"', '\\', '/', 'b', 'f', 'n', 'r', 't'],
      escapeStep c = .ok (some ((Read.letter? c).getD c), .plain) := by
    simp only [List.forall_mem_cons]
    refine ⟨rfl, rfl, rfl, rfl, rfl, rfl, rfl, rfl, nofun⟩
  rw [each c known, letter, Option.getD_some]

/-- A character that plain JSON allows in the middle of a text means the same where more are allowed. -/
theorem textStep_plain_of_strict {c : Char} {rest : List Char} {step : Option (Option Char × Read.Place)}
    (read : Read.textStep true .plain c rest = .ok step) :
    textStep '"' (.ofStrict .plain) c = .ok (step.map fun s => (s.1, .ofStrict s.2)) ∧
      (Seam.ofPlace .plain).behind c = (step.map fun s => Seam.ofPlace s.2).getD (.between false true) := by
  dsimp only [Read.textStep] at read
  split at read
  · next quote =>
    cases read
    exact ⟨if_pos quote, if_pos quote⟩
  · next noQuote =>
    rw [Place.ofStrict, textStep, plainStep, Seam.ofPlace, Seam.behind, if_neg noQuote, if_neg noQuote]
    split at read
    · next backslash =>
      cases read
      exact ⟨if_pos backslash, if_pos backslash⟩
    · next noBackslash =>
      rw [if_neg noBackslash, if_neg noBackslash]
      split at read
      · cases read
      · next visible =>
        have noBreak : (decide (c = '\n') || decide (c = '\r')) = false := by
          simp only [Bool.or_eq_false_iff, decide_eq_false_iff_not]
          exact ⟨by rintro rfl; exact visible (by decide), by rintro rfl; exact visible (by decide)⟩
        cases read
        rw [noBreak]
        exact ⟨rfl, rfl⟩

/-- A digit of a number that plain JSON allows in a text means the same where more are allowed. -/
theorem textStep_digits_of_strict {left value : Nat} {lead : Option Nat} {c : Char} {rest : List Char}
    {step : Option (Option Char × Read.Place)}
    (read : Read.textStep true (.digits left value lead) c rest = .ok step) :
    textStep '"' (.ofStrict (.digits left value lead)) c = .ok (step.map fun s => (s.1, .ofStrict s.2)) ∧
      (Seam.ofPlace (.digits left value lead)).behind c =
        (step.map fun s => Seam.ofPlace s.2).getD (.between false true) := by
  obtain ⟨d, digit, ⟨last, onward, complete, rfl⟩ | ⟨more, rfl⟩⟩ := Read.textStep_digits_cases read
  · rw [Place.ofStrict, textStep, Seam.ofPlace, behind_digit digit, digit]
    dsimp only
    rw [if_pos last, complete]
    exact ⟨rfl, (ofPlace_of_escaped complete).symm⟩
  · rw [Place.ofStrict, textStep, Seam.ofPlace, behind_digit digit, digit]
    exact ⟨if_neg more, rfl⟩

/-- A character of a text that plain JSON allows means the same where more are allowed. -/
theorem textStep_of_strict {place : Read.Place} {c : Char} {rest : List Char}
    {step : Option (Option Char × Read.Place)} (read : Read.textStep true place c rest = .ok step) :
    textStep '"' (.ofStrict place) c = .ok (step.map fun s => (s.1, .ofStrict s.2)) ∧
      (Seam.ofPlace place).behind c = (step.map fun s => Seam.ofPlace s.2).getD (.between false true) := by
  -- a place of the one reader is a place of the other, so the characters are told apart once for both
  cases place with
  | plain => exact textStep_plain_of_strict read
  | escape =>
    dsimp only [Read.textStep] at read
    split at read
    · next number =>
      subst number
      split at read <;> cases read
      exact ⟨rfl, rfl⟩
    · split at read
      · next d letter =>
        cases read
        rw [Place.ofStrict, textStep, escapeStep_of_letter letter]
        exact ⟨rfl, rfl⟩
      · cases read
  | digits left value lead => exact textStep_digits_of_strict read
  | between lead =>
    dsimp only [Read.textStep] at read
    split at read
    · next backslash =>
      cases read
      subst backslash
      exact ⟨rfl, rfl⟩
    · cases read
  | betweenEscape lead =>
    dsimp only [Read.textStep] at read
    split at read
    · next number =>
      subst number
      split at read <;> cases read
      exact ⟨rfl, rfl⟩
    · cases read

/-- A text between quotes is read character by character. -/
theorem textFrom_cons (quote : Char) (place : Place) (c : Char) (cs : List Char) :
    textFrom quote place (c :: cs) =
      match textStep quote place c with
      | .error e => .error e
      | .ok none => .ok ([], cs)
      | .ok (some (value, next)) =>
        (textFrom quote next cs).map fun r => (value.toList ++ r.1, r.2) := by
  rw [textFrom]
  cases textStep quote place c with
  | error e => rfl
  | ok step =>
    cases step with
    | none => rfl
    | some onward =>
      obtain ⟨value, next⟩ := onward
      show (textFrom quote next cs).bind _ = (textFrom quote next cs).map _
      cases textFrom quote next cs <;> rfl

/-- A text is read as it is in plain JSON, whatever looks like a comment in it. -/
theorem textFrom_of_dressed {place : Read.Place} {cs ds value rest : List Char}
    (dressed : Dressed (Seam.ofPlace place) cs ds) (read : Read.textFrom true place cs = .ok (value, rest)) :
    ∃ rest', textFrom '"' (.ofStrict place) ds = .ok (value, rest') ∧
      Dressed (.between false true) rest rest' := by
  induction cs generalizing place ds value with
  | nil => cases read
  | cons c cs ih =>
    obtain ⟨ds, rfl, behind⟩ := dressed.exists_cons (Seam.ofPlace_ne_between place)
    rw [Read.textFrom_cons] at read
    cases step : Read.textStep true place c cs with
    | error e =>
      rw [step] at read
      cases read
    | ok onward =>
      obtain ⟨same, seam⟩ := textStep_of_strict step
      rw [step] at read
      rw [seam] at behind
      rw [textFrom_cons, same]
      cases onward with
      | none =>
        cases read
        exact ⟨ds, rfl, behind⟩
      | some onward =>
        obtain ⟨first, next⟩ := onward
        dsimp only at read
        cases later : Read.textFrom true next cs with
        | error e =>
          rw [later] at read
          cases read
        | ok result =>
          rw [later] at read
          cases read
          obtain ⟨rest', same', dressed'⟩ := ih behind later
          refine ⟨rest', ?_, dressed'⟩
          dsimp only [Option.map_some]
          rw [same']
          rfl

end Relaxed

end RouteTrees.Json
