import RouteTrees.Script.Module

/-!
# Tokens laid out as text

A list of tokens can be written as text in many ways: blanks and line breaks may stand between them. `Lays` says
which texts lay out a list of words, string literals and marks, and reading such a text token by token gives the
list back (`Lays.reads`).
-/

namespace RouteTrees.Script

/-! ## How a token is written -/

/-- How a character is written in a string literal between double quotes. -/
def escapeChar (c : Char) : List Char :=
  if c = '\\' then ['\\', '\\']
  else if c = '"' then ['\\', '"']
  else if c = '\n' then ['\\', 'n']
  else if c = '\r' then ['\\', 'r']
  else if c = '\u2028' then ['\\', 'u', '2', '0', '2', '8']
  else if c = '\u2029' then ['\\', 'u', '2', '0', '2', '9']
  else [c]

/-- A text as a string literal, with backslashes, quotes and line breaks escaped. -/
def quoted (s : String) : List Char := '"' :: (s.toList.flatMap escapeChar ++ ['"'])

/-- Whether a text can be written as a word as it is. -/
def IsWord (name : String) : Prop :=
  ∃ c cs, name.toList = c :: cs ∧ isIdStart c = true ∧ ∀ d ∈ cs, isIdPart d = true

instance (name : String) : Decidable (IsWord name) :=
  match whole : name.toList with
  | [] => isFalse fun ⟨_, _, other, _⟩ => List.cons_ne_nil _ _ (other.symm.trans whole)
  | c :: cs => decidable_of_iff (isIdStart c = true ∧ cs.all isIdPart = true)
      ⟨fun ⟨first, parts⟩ => ⟨c, cs, whole, first, List.all_eq_true.mp parts⟩, by
        rintro ⟨d, ds, other, first, parts⟩
        cases whole.symm.trans other
        exact ⟨first, List.all_eq_true.mpr parts⟩⟩

/-- Whether a text is one way to write a token. -/
inductive Written : Lexeme → List Char → Prop where
  | word {name : String} (isWord : IsWord name) : Written (.word name false) name.toList
  | text (value : String) : Written (.text value) (quoted value)
  | sign {mark : Char} (plain : mark ∈ ['{', '}', ',', '*', ';']) :
      Written (.sign (String.singleton mark)) [mark]

/-- Whether a token ends where this follows. -/
def Ends : Lexeme → List Char → Prop
  | .word .., cs => ∀ c ∈ cs.head?, isIdPart c = false ∧ c ≠ '\\'
  | .sign _, cs => ∀ c ∈ cs.head?, c ≠ '*' ∧ c ≠ '='
  | _, _ => True

/-- Characters that may stand between tokens. -/
def IsGap (gap : List Char) : Prop := ∀ c ∈ gap, isBlank c = true ∨ isLineBreak c = true

/-- Whether a text lays out some tokens. -/
inductive Lays : List Lexeme → List Char → Prop where
  | nil {gap : List Char} (blank : IsGap gap) : Lays [] gap
  | cons {gap text rest : List Char} {l : Lexeme} {ls : List Lexeme} (blank : IsGap gap)
      (written : Written l text) (ends : Ends l rest) (later : Lays ls rest) :
      Lays (l :: ls) (gap ++ (text ++ rest))

/-! ## Gaps -/

/-- A character that begins no comment is passed over if it is blank. -/
theorem skipGap_cons {c : Char} (noSlash : c ≠ '/') (broke : Bool) (cs : List Char) :
    skipGap broke .blank (c :: cs) =
      if isLineBreak c then skipGap true .blank cs
      else if isBlank c then skipGap broke .blank cs
      else some (broke, c :: cs) := by
  rw [skipGap.eq_def]
  dsimp only
  rw [if_neg fun comment => noSlash comment.1, if_neg fun comment => noSlash comment.1]

/-- What follows a gap is met behind it. -/
theorem skipGap_append {gap : List Char} (blank : IsGap gap) (broke : Bool) (cs : List Char) :
    ∃ broke', skipGap broke .blank (gap ++ cs) = skipGap broke' .blank cs := by
  induction gap generalizing broke with
  | nil => exact ⟨broke, rfl⟩
  | cons c gap ih =>
    obtain ⟨first, later⟩ := List.forall_mem_cons.mp blank
    have noSlash : c ≠ '/' := by
      rintro rfl
      rcases first with blank | breaks
      · cases blank
      · cases breaks
    rw [List.cons_append, skipGap_cons noSlash]
    split
    · exact ih later true
    · next noBreak =>
      rw [if_pos (first.resolve_right noBreak)]
      exact ih later broke

/-- A character at which a token may begin, but no comment. -/
def Opens (c : Char) : Prop := isBlank c = false ∧ isLineBreak c = false ∧ c ≠ '/' ∧ c ≠ '#'

/-- What opens a lexeme is not passed over. -/
theorem skipGap_opens {c : Char} (opens : Opens c) (broke : Bool) (cs : List Char) :
    skipGap broke .blank (c :: cs) = some (broke, c :: cs) := by
  obtain ⟨notBlank, noBreak, noSlash, -⟩ := opens
  rw [skipGap_cons noSlash, if_neg (ne_true_of_eq_false noBreak), if_neg (ne_true_of_eq_false notBlank)]

/-- The characters that may stand between tokens begin no word. -/
theorem isIdStart_of_isBlank {c : Char} (blank : isBlank c = true) : isIdStart c = false := by
  have single : [' ', '\t', '\x0b', '\x0c', '\u00a0', '\ufeff', '\u1680', '\u202f', '\u205f', '\u3000'].all
      (fun c => isIdStart c = false) = true := by decide +kernel
  have range : (List.range 11).all (fun n => isIdStart (Char.ofNat (0x2000 + n)) = false) = true := by
    decide +kernel
  -- the blanks are ten characters and the eleven of one range
  by_cases inRange : 0x2000 ≤ c.toNat ∧ c.toNat ≤ 0x200A
  · have inside : c.toNat - 0x2000 ∈ List.range 11 := List.mem_range.mpr (by omega)
    have known := of_decide_eq_true (List.all_eq_true.mp range _ inside)
    rwa [Nat.add_sub_cancel' inRange.1, Char.ofNat_toNat] at known
  · refine of_decide_eq_true (List.all_eq_true.mp single c ?_)
    simp only [isBlank, Bool.or_eq_true, Bool.and_eq_true, decide_eq_true_eq] at blank
    simpa only [List.mem_cons, List.not_mem_nil, inRange, false_or, or_false, or_assoc] using blank

/-- A character that can start a name opens a lexeme. -/
theorem opens_of_isIdStart {c : Char} (first : isIdStart c = true) : Opens c := by
  have none : ['\n', '\r', '\u2028', '\u2029', '/', '#'].all (fun c => isIdStart c = false) = true := by
    decide +kernel
  have other (d : Char) (mem : d ∈ ['\n', '\r', '\u2028', '\u2029', '/', '#']) : c ≠ d := by
    rintro rfl
    exact ne_true_of_eq_false (of_decide_eq_true (List.all_eq_true.mp none c mem)) first
  refine ⟨?_, ?_, other '/' (by decide), other '#' (by decide)⟩
  · exact Bool.eq_false_iff.mpr fun blank => ne_true_of_eq_false (isIdStart_of_isBlank blank) first
  · refine Bool.eq_false_iff.mpr fun breaks => ?_
    simp only [isLineBreak, Bool.or_eq_true, decide_eq_true_eq] at breaks
    rcases breaks with ((same | same) | same) | same
    · exact other '\n' (by decide) same
    · exact other '\r' (by decide) same
    · exact other '\u2028' (by decide) same
    · exact other '\u2029' (by decide) same

/-! ## Words -/

/-- A word goes on as long as its characters can go on with it. -/
theorem scanWord_cons {first : Bool} {c : Char} (noBackslash : c ≠ '\\') (cs : List Char) :
    scanWord first none (c :: cs) =
      if (if first then isIdStart c else isIdPart c) then
        (scanWord false none cs).map fun r => (c :: r.1, r.2)
      else some ([], false, c :: cs) := by
  rw [scanWord.eq_def]
  dsimp only
  rw [if_neg noBackslash]

theorem ne_backslash_of_isIdPart {c : Char} (part : isIdPart c = true) : c ≠ '\\' := by
  rintro rfl
  cases part

/-- A word is read up to what cannot go on with it. -/
theorem scanWord_append {cs rest : List Char} (parts : ∀ c ∈ cs, isIdPart c = true)
    (ends : ∀ c ∈ rest.head?, isIdPart c = false ∧ c ≠ '\\') :
    scanWord false none (cs ++ rest) = some (cs, false, rest) := by
  induction cs with
  | nil =>
    cases rest with
    | nil => rfl
    | cons c rest =>
      obtain ⟨other, noBackslash⟩ := ends c rfl
      rw [List.nil_append, scanWord_cons noBackslash]
      exact if_neg (ne_true_of_eq_false other)
  | cons c cs ih =>
    obtain ⟨part, later⟩ := List.forall_mem_cons.mp parts
    rw [List.cons_append, scanWord_cons (ne_backslash_of_isIdPart part), ih later]
    exact if_pos part

/-- A word is read as that word. -/
theorem scan_word {name : String} (isWord : IsWord name) {rest : List Char}
    (ends : ∀ c ∈ rest.head?, isIdPart c = false ∧ c ≠ '\\') :
    scan (name.toList ++ rest) = (.word name false, rest) := by
  obtain ⟨c, cs, whole, first, parts⟩ := isWord
  have scanned : scanWord true none (c :: (cs ++ rest)) = some (c :: cs, false, rest) := by
    rw [scanWord_cons (ne_backslash_of_isIdPart (isIdPart_of_isIdStart first)), scanWord_append parts ends]
    exact if_pos first
  rw [whole, List.cons_append, scan, scanFrom, first, scanned]
  simp only [Bool.true_or, if_true, orBroken, Option.map_some, Option.getD_some, ← whole, String.ofList_toList]

/-! ## Texts -/

/-- A character that stands for itself is read as a part of a text. -/
theorem scanText_itself {pending : Option Escape} {c : Char} (itself : advance true pending c = .itself [])
    (cs : List Char) : scanText '"' pending (c :: cs) =
      if c = '"' then some ([], cs)
      else if c = '\\' then scanText '"' (some .start) cs
      else if c = '\n' ∨ c = '\r' then none
      else (scanText '"' none cs).map fun r => (.char c :: r.1, r.2) := by
  rw [scanText, itself]
  cases scanText '"' (some .start) cs <;> rfl

/-- A character of an escape is read with it. -/
theorem scanText_taken {pending next : Option Escape} {c : Char} {pieces : List Piece}
    (taken : advance true pending c = .taken pieces next) (cs : List Char) :
    scanText '"' pending (c :: cs) = (scanText '"' next cs).map fun r => (pieces ++ r.1, r.2) := by
  rw [scanText, taken]

theorem scanText_backslash (cs : List Char) :
    scanText '"' none ('\\' :: cs) = scanText '"' (some .start) cs := by
  rw [scanText_itself rfl, if_neg (by decide), if_pos rfl]

/-- A character that is written as another behind a backslash. -/
theorem scanText_letter {c d : Char} (letter : advance true (some .start) d = .taken [.char c] none)
    (cs : List Char) :
    scanText '"' none ('\\' :: d :: cs) = (scanText '"' none cs).map fun r => (.char c :: r.1, r.2) := by
  rw [scanText_backslash, scanText_taken letter]
  rfl

/-- A line break of Unicode is written by its number. -/
theorem scanText_number {c d : Char} (last : advance true (some (.hex 1 0x202)) d = .taken [.char c] none)
    (cs : List Char) :
    scanText '"' none ('\\' :: 'u' :: '2' :: '0' :: '2' :: d :: cs) =
      (scanText '"' none cs).map fun r => (.char c :: r.1, r.2) := by
  have start : advance true (some .start) 'u' = .taken [] (some .unicode) := rfl
  have first : advance true (some .unicode) '2' = .taken [] (some (.hex 3 2)) := rfl
  have second : advance true (some (.hex 3 2)) '0' = .taken [] (some (.hex 2 0x20)) := rfl
  have third : advance true (some (.hex 2 0x20)) '2' = .taken [] (some (.hex 1 0x202)) := rfl
  rw [scanText_backslash, scanText_taken start, scanText_taken first, scanText_taken second,
    scanText_taken third, scanText_taken last]
  cases scanText '"' none cs <;> rfl

/-- A character of a text reads back from the way it is written. -/
theorem scanText_escapeChar (c : Char) (cs : List Char) :
    scanText '"' none (escapeChar c ++ cs) = (scanText '"' none cs).map fun r => (.char c :: r.1, r.2) := by
  unfold escapeChar
  split
  · next same =>
    subst same
    exact scanText_letter rfl cs
  split
  · next same =>
    subst same
    exact scanText_letter rfl cs
  split
  · next same =>
    subst same
    exact scanText_letter rfl cs
  split
  · next same =>
    subst same
    exact scanText_letter rfl cs
  split
  · next same =>
    subst same
    exact scanText_number rfl cs
  split
  · next same =>
    subst same
    exact scanText_number rfl cs
  · next noBackslash noQuote noFeed noReturn _ _ =>
    rw [List.singleton_append, scanText_itself rfl, if_neg noQuote, if_neg noBackslash, if_neg]
    exact fun breaks => breaks.elim noFeed noReturn

/-- Escaped characters between quotes read back. -/
theorem scanText_quoted (cs rest : List Char) :
    scanText '"' none (cs.flatMap escapeChar ++ '"' :: rest) = some (cs.map .char, rest) := by
  induction cs with
  | nil => rfl
  | cons c cs ih =>
    rw [List.flatMap_cons, List.append_assoc, scanText_escapeChar, ih]
    rfl

/-- Where there are no halves, there are none to be joined. -/
theorem joinHalves_map_char (cs : List Char) : Piece.joinHalves (cs.map .char) = cs.map .char := by
  induction cs with
  | nil => rfl
  | cons c cs ih =>
    rw [List.map_cons, Piece.joinHalves, ih]
    exact nofun

/-- Characters of which none is half of a pair stand for themselves. -/
theorem assemble_map_char (cs : List Char) : Piece.assemble (cs.map .char) = String.ofList cs := by
  simp [Piece.assemble, joinHalves_map_char, List.any_map, List.flatMap_map, Function.comp_def]

/-- A quoted text is read as that text. -/
theorem scan_text (value : String) (rest : List Char) : scan (quoted value ++ rest) = (.text value, rest) := by
  have scanned := scanText_quoted value.toList rest
  have noWord : (isIdStart '"' || decide ('"' = '\\')) = false := by decide
  rw [quoted, List.cons_append, scan, scanFrom, List.append_assoc, List.singleton_append, scanned, noWord]
  simp only [orBroken, Option.map_some, Option.getD_some, assemble_map_char, String.ofList_toList]
  rfl

/-! ## Marks -/

/-- A mark is read as that mark, if it does not go on. -/
theorem scan_mark {mark : Char} (plain : mark ∈ ['{', '}', ',', '*', ';']) {rest : List Char}
    (ends : ∀ c ∈ rest.head?, c ≠ '*' ∧ c ≠ '=') :
    scan (mark :: rest) = (.sign (String.singleton mark), rest) := by
  have facts : ['{', '}', ',', '*', ';'].all (fun c => isIdStart c = false ∧ c ≠ '\\' ∧ c.isDigit = false ∧
      c ≠ '"' ∧ c ≠ '\'' ∧ c ≠ '\x60' ∧ c ≠ '#' ∧ c ≠ '.' ∧ isMark c = true) = true := by decide
  obtain ⟨noWord, noBackslash, noDigit, noQuote, noApostrophe, noQuasi, noHash, noPoint, isMark⟩ :=
    of_decide_eq_true (List.all_eq_true.mp facts mark plain)
  have noLonger : findMark? (longMarks mark) (mark :: rest) = none := by
    -- of these marks only the star begins longer ones
    by_cases star : mark = '*'
    · subst star
      cases rest with
      | nil => rfl
      | cons c rest =>
        obtain ⟨noStar, noEquals⟩ := ends c rfl
        simp [findMark?, longMarks, dropMark?, noStar.symm, noEquals.symm]
    · have short : ['{', '}', ',', '*', ';'].all (fun c => c = '*' ∨ longMarks c = []) = true := by decide
      rw [(of_decide_eq_true (List.all_eq_true.mp short mark plain)).resolve_left star]
      rfl
  simp [scan, scanFrom, noWord, noBackslash, noDigit, noQuote, noApostrophe, noQuasi, noHash, noPoint, scanSign,
    isMark, noLonger]

/-! ## Whole layouts -/

/-- A lexeme that has been written is read as that lexeme, if it ends there. -/
theorem scan_written {l : Lexeme} {text rest : List Char} (written : Written l text) (ends : Ends l rest) :
    scan (text ++ rest) = (l, rest) := by
  cases written with
  | word isWord => exact scan_word isWord ends
  | text value => exact scan_text value rest
  | sign plain => exact scan_mark plain ends

/-- A written lexeme has a first character, which opens it. -/
theorem Written.exists_cons {l : Lexeme} {text : List Char} (written : Written l text) :
    ∃ c cs, text = c :: cs ∧ Opens c := by
  cases written with
  | word isWord =>
    obtain ⟨c, cs, whole, first, -⟩ := isWord
    exact ⟨c, cs, whole, opens_of_isIdStart first⟩
  | text value => exact ⟨'"', _, rfl, by decide, by decide, by decide, by decide⟩
  | @sign mark plain =>
    have each : ['{', '}', ',', '*', ';'].all
        (fun c => isBlank c = false ∧ isLineBreak c = false ∧ c ≠ '/' ∧ c ≠ '#') = true := by decide
    have opens := of_decide_eq_true (List.all_eq_true.mp each mark plain)
    exact ⟨mark, [], rfl, opens⟩

/-- The first token of a layout is the first of its tokens, and what is left lays out the others. -/
theorem Lays.next {l : Lexeme} {ls : List Lexeme} {cs : List Char} (lays : Lays (l :: ls) cs) :
    (Token.next cs).1.lexeme = l ∧ Lays ls (Token.next cs).2 := by
  cases lays with
  | @cons gap text rest _ _ blank written ends later =>
    obtain ⟨broke, skipped⟩ := skipGap_append blank false (text ++ rest)
    have scanned := scan_written written ends
    obtain ⟨c, cs, rfl, opens⟩ := written.exists_cons
    rw [List.cons_append, skipGap_opens opens] at skipped
    rw [Token.next, List.cons_append, skipped]
    dsimp only
    rw [← List.cons_append, scanned]
    exact ⟨rfl, later⟩

/-- Behind the last lexeme the text ends. -/
theorem Lays.finish {cs : List Char} (lays : Lays [] cs) :
    (Token.next cs).1.lexeme = .finish ∧ Lays [] (Token.next cs).2 := by
  cases lays with
  | nil blank =>
    obtain ⟨broke, skipped⟩ := skipGap_append blank false []
    rw [List.append_nil] at skipped
    rw [Token.next, skipped]
    exact ⟨rfl, .nil nofun⟩

/-- A layout has at least one character for each lexeme. -/
theorem Lays.length_le {ls : List Lexeme} {cs : List Char} (lays : Lays ls cs) : ls.length ≤ cs.length := by
  induction lays with
  | nil => exact Nat.zero_le _
  | cons _ written _ _ ih =>
    obtain ⟨c, cs, rfl, -⟩ := written.exists_cons
    simp only [List.length_append, List.length_cons]
    omega

/-- A layout does not begin as a line for an interpreter would. -/
theorem Lays.head_ne {ls : List Lexeme} {cs : List Char} (lays : Lays ls cs) : ∀ c ∈ cs.head?, c ≠ '#' := by
  have gap : ∀ {gap : List Char} {c : Char} {cs : List Char}, IsGap (c :: gap) →
      ∀ d ∈ (c :: cs).head?, d ≠ '#' := by
    rintro gap c cs blank _ mem rfl
    cases mem
    rcases blank '#' (.head gap) with blank | breaks
    · cases blank
    · cases breaks
  cases lays with
  | nil blank =>
    cases cs with
    | nil => exact nofun
    | cons c rest => exact gap blank
  | @cons whole _ _ _ _ blank written _ _ =>
    cases whole with
    | nil =>
      obtain ⟨c, cs, rfl, -, -, -, other⟩ := written.exists_cons
      intro d mem
      cases mem
      exact other
    | cons c rest => exact gap blank

/-- A layout does not name an interpreter. -/
theorem Lays.skipInterpreter {ls : List Lexeme} {cs : List Char} (lays : Lays ls cs) :
    Module.skipInterpreter cs = cs := by
  unfold Module.skipInterpreter
  split
  · exact absurd rfl (lays.head_ne '#' rfl)
  · rfl

/-! ## Cursors over a layout -/

namespace Cursor

/-- The cursor at the token behind the current one. -/
def next (c : Cursor) : Cursor := { c with token := (Token.next c.rest).1, rest := (Token.next c.rest).2 }

/-- The cursor behind so many tokens. -/
def after : Nat → Cursor → Cursor
  | 0, c => c
  | n + 1, c => after n c.next

/-- Whether a cursor meets these tokens and then the end of the text. -/
def Reads : List Lexeme → Cursor → Prop
  | [], c => c.token.lexeme = .finish
  | l :: ls, c => c.token.lexeme = l ∧ Reads ls c.next

end Cursor

/-- A cursor at the beginning of a layout reads its tokens. -/
theorem Lays.reads {ls : List Lexeme} {cs : List Char} (lays : Lays ls cs) {c : Cursor}
    (token : c.token = (Token.next cs).1) (rest : c.rest = (Token.next cs).2) : c.Reads ls := by
  induction ls generalizing cs c with
  | nil =>
    rw [Cursor.Reads, token]
    exact lays.finish.1
  | cons l ls ih =>
    obtain ⟨first, later⟩ := lays.next
    refine ⟨token ▸ first, ih later ?_ ?_⟩
    · rw [Cursor.next, rest]
    · rw [Cursor.next, rest]

end RouteTrees.Script
