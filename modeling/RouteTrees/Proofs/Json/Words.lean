import RouteTrees.Proofs.Json.Dressed

/-!
# Readers of words

A word is a number or the name of a value. `TakesWord` says of two readers that they take the same characters of
words off the front of a text, with the same result, and that what follows matters to neither, as long as the
word does not go on with it. It holds of one reader behind another if it does of each, so that it comes down to
digits and single characters. A number of plain JSON is thus found to be the same number where more are allowed.
-/

namespace RouteTrees.Json

namespace Read

variable {α β : Type}

/-! ## Words -/

/-- Readers that have succeeded one behind the other have each succeeded. -/
theorem bind_eq_ok {r : Read α} {f : α → Read β} {b : β} {cs rest : List Char}
    (read : (r >>= f) cs = .ok (b, rest)) : ∃ a more, r cs = .ok (a, more) ∧ f a more = .ok (b, rest) := by
  rw [bind_apply] at read
  cases taken : r cs with
  | error e =>
    rw [taken] at read
    cases read
  | ok result =>
    rw [taken] at read
    exact ⟨result.1, result.2, rfl, read⟩

/-- Whether two texts begin alike for a reader of a word: with the same character, or neither with one that
belongs to a word. -/
def Alike (cs ds : List Char) : Prop := cs.head? = ds.head? ∨ Apart cs ∧ Apart ds

/-- What stands before two texts that begin alike leaves them so. -/
theorem Alike.append {cs ds : List Char} (alike : Alike cs ds) (text : List Char) :
    Alike (text ++ cs) (text ++ ds) := by
  cases text with
  | nil => exact alike
  | cons c text => exact .inl rfl

/-- A question about the next character that only characters of words meet. -/
def AsksWord (test : Option Char → Bool) : Prop :=
  ∀ next, test next = true → ∃ c, next = some c ∧ isWord c = true

/-- A question about characters of words has one answer for texts that begin alike. -/
theorem AsksWord.alike {test : Option Char → Bool} (asks : AsksWord test) {cs ds : List Char}
    (alike : Alike cs ds) : test cs.head? = test ds.head? := by
  obtain same | ⟨apart, apart'⟩ := alike
  · rw [same]
  · have never : ∀ {es : List Char}, Apart es → test es.head? = false := by
      intro es apart
      refine Bool.eq_false_iff.mpr fun meets => ?_
      obtain ⟨c, first, word⟩ := asks _ meets
      exact ne_true_of_eq_false (apart c (Option.mem_def.mpr first)) word
    rw [never apart, never apart']

theorem asksWord_eq {c : Char} (word : isWord c = true) : AsksWord (· == some c) :=
  fun _ meets => ⟨c, eq_of_beq meets, word⟩

theorem AsksWord.or {test test' : Option Char → Bool} (asks : AsksWord test) (asks' : AsksWord test') :
    AsksWord fun next => test next || test' next :=
  fun next meets => (Bool.or_eq_true_iff.mp meets).elim (asks next) (asks' next)

/-- Whether one reader takes the same characters of words off the front of a text as another does, with the
same result, and asks for no more than where the word ends. -/
def TakesWord (r r' : Read α) : Prop :=
  ∀ (cs rest : List Char) (a : α), r cs = .ok (a, rest) →
    ∃ text, cs = text ++ rest ∧ (∀ c ∈ text, isWord c = true) ∧
      ∀ rest', Alike rest rest' → r' (text ++ rest') = .ok (a, rest')

/-- A reader that takes nothing takes a word. -/
theorem takesWord_pure (a : α) : TakesWord (pure a) (pure a) := by
  intro cs rest b read
  cases read
  exact ⟨[], rfl, nofun, fun _ _ => rfl⟩

theorem takesWord_malformed (r : Read α) : TakesWord malformed r := by
  intro cs rest a read
  cases read

/-- A word is still taken when more of it is read behind a first part. -/
theorem TakesWord.bind {r r' : Read α} {f f' : α → Read β} (first : TakesWord r r')
    (later : ∀ a cs rest, r cs = .ok (a, rest) → TakesWord (f a) (f' a)) :
    TakesWord (r >>= f) (r' >>= f') := by
  intro cs rest b read
  obtain ⟨a, middle, taken, onward⟩ := bind_eq_ok read
  obtain ⟨text, rfl, words, same⟩ := first _ _ _ taken
  obtain ⟨text', rfl, words', same'⟩ := later a _ _ taken _ _ _ onward
  refine ⟨text ++ text', (List.append_assoc _ _ _).symm, ?_, ?_⟩
  · intro c mem
    exact (List.mem_append.mp mem).elim (words c) (words' c)
  · intro rest' alike
    rw [bind_apply, List.append_assoc, same _ (alike.append text')]
    exact same' rest' alike

theorem TakesWord.map {r r' : Read α} (taken : TakesWord r r') (g : α → β) :
    TakesWord (do pure (g (← r))) (do pure (g (← r'))) :=
  taken.bind fun a _ _ _ => takesWord_pure (g a)

/-- Readers that look at the next character take the same if they do so behind each character that they drop,
which belongs to a word, and where they drop none. -/
theorem TakesWord.here_bind {test : Option Char → Bool} {yes yes' no no' : Option Char → Read α}
    {other other' : Read α} (asks : AsksWord test)
    (taken : ∀ next, test next = true → TakesWord (yes next) (yes' next))
    (left : ∀ next, test next = false → no next = other ∧ no' next = other')
    (others : TakesWord other other') :
    TakesWord (here >>= fun next => if test next = true then drop >>= fun _ => yes next else no next)
      (here >>= fun next => if test next = true then drop >>= fun _ => yes' next else no' next) := by
  intro cs rest a read
  have look (g : Option Char → Read α) (cs : List Char) : (here >>= g) cs = g cs.head? cs := rfl
  simp only [look] at read ⊢
  cases holds : test cs.head? with
  | false =>
    rw [holds, if_neg Bool.false_ne_true, (left _ holds).1] at read
    obtain ⟨text, rfl, words, same⟩ := others _ _ _ read
    refine ⟨text, rfl, words, fun rest' alike => ?_⟩
    have still : test (text ++ rest').head? = false := asks.alike (alike.append text) ▸ holds
    rw [still, if_neg Bool.false_ne_true, (left _ still).2]
    exact same rest' alike
  | true =>
    obtain ⟨c, first, inWord⟩ := asks _ holds
    cases cs with
    | nil => cases first
    | cons d cs =>
      cases first
      rw [holds, if_pos rfl] at read
      obtain ⟨text, rfl, words, same⟩ := taken _ holds _ _ _ read
      refine ⟨c :: text, rfl, List.forall_mem_cons.mpr ⟨inWord, words⟩, fun rest' alike => ?_⟩
      have still : test (c :: text ++ rest').head? = true := holds
      rw [still, if_pos rfl]
      exact same rest' alike

/-- A reader of a certain word takes it. -/
theorem takesWord_exactly (word : List Char) (words : ∀ c ∈ word, isWord c = true) :
    TakesWord (exactly word) (exactly word) := by
  intro cs rest a read
  induction word generalizing cs with
  | nil =>
    cases read
    exact ⟨[], rfl, nofun, fun _ _ => rfl⟩
  | cons c word ih =>
    obtain ⟨inWord, later⟩ := List.forall_mem_cons.mp words
    cases cs with
    | nil => cases read
    | cons d cs =>
      rw [exactly] at read
      dsimp only at read
      split at read
      · next same =>
        subst same
        obtain ⟨text, rfl, inside, same⟩ := ih later _ read
        refine ⟨c :: text, rfl, List.forall_mem_cons.mpr ⟨inWord, inside⟩, fun rest' alike => ?_⟩
        exact (if_pos rfl).trans (same rest' alike)
      · cases read

/-! ## Numbers -/

theorem isWord_of_isDigit {c : Char} (digit : c.isDigit = true) : isWord c = true := by
  rw [isWord, Char.isAlphanum, digit, Bool.or_true]
  rfl

/-- To ask for a digit is to ask about words. -/
theorem asksWord_digit : AsksWord (·.any Char.isDigit) := by
  intro next meets
  obtain ⟨c, first, digit⟩ := Option.any_eq_true _ _ |>.mp meets
  exact ⟨c, first, isWord_of_isDigit digit⟩

/-- Digits are taken up to what is no digit. -/
theorem takeDigits_append {ds rest : List Char} (digits : ∀ c ∈ ds, c.isDigit = true)
    (stops : rest.head?.any Char.isDigit = false) : takeDigits (ds ++ rest) = .ok (ds, rest) := by
  have none : rest.takeWhile Char.isDigit = [] ∧ rest.dropWhile Char.isDigit = rest := by
    cases rest with
    | nil => exact ⟨rfl, rfl⟩
    | cons c rest =>
      have other : ¬c.isDigit = true := ne_true_of_eq_false stops
      exact ⟨List.takeWhile_cons_of_neg other, List.dropWhile_cons_of_neg other⟩
  rw [takeDigits, List.takeWhile_append_of_pos digits, List.dropWhile_append_of_pos digits, none.1, none.2,
    List.append_nil]

/-- Digits are taken up to the first character that is none. -/
theorem takeDigits_spec {cs ds rest : List Char} (read : takeDigits cs = .ok (ds, rest)) :
    cs = ds ++ rest ∧ (∀ c ∈ ds, c.isDigit = true) ∧ rest.head?.any Char.isDigit = false := by
  cases read
  refine ⟨List.takeWhile_append_dropWhile.symm, List.all_eq_true.mp List.all_takeWhile, ?_⟩
  have stops := List.head?_dropWhile_not Char.isDigit cs
  cases first : (cs.dropWhile Char.isDigit).head? with
  | none => rfl
  | some c => simpa [first] using stops

/-- Digits are a word. -/
theorem takesWord_takeDigits : TakesWord takeDigits takeDigits := by
  intro cs rest ds read
  obtain ⟨rfl, digits, stops⟩ := takeDigits_spec read
  refine ⟨ds, rfl, fun c mem => isWord_of_isDigit (digits c mem), fun rest' alike => ?_⟩
  exact takeDigits_append digits (asksWord_digit.alike alike ▸ stops)

/-- Digits are required by asking that there be one. -/
theorem someDigits_eq_ok_iff {checked : Bool} {cs ds rest : List Char} :
    someDigits checked cs = .ok (ds, rest) ↔ takeDigits cs = .ok (ds, rest) ∧ ds ≠ [] := by
  cases cs with
  | nil =>
    refine ⟨fun read => ?_, fun read => ?_⟩
    · cases checked <;> cases read
    · obtain ⟨read, some⟩ := read
      cases read
      exact absurd rfl some
  | cons c cs =>
    have same : someDigits checked (c :: cs) = (if c.isDigit then takeDigits else malformed) (c :: cs) := rfl
    rw [same]
    split
    · next digit =>
      refine ⟨fun read => ⟨read, ?_⟩, fun read => read.1⟩
      cases read
      rw [List.takeWhile_cons_of_pos digit]
      exact nofun
    · next other =>
      refine ⟨fun read => (by cases read), fun read => ?_⟩
      obtain ⟨read, some⟩ := read
      cases read
      exact absurd (List.takeWhile_cons_of_neg other) some

/-- Digits of which there has to be one are a word. -/
theorem takesWord_someDigits (checked : Bool) : TakesWord (someDigits checked) (someDigits checked) := by
  intro cs rest ds read
  obtain ⟨taken, some⟩ := someDigits_eq_ok_iff.mp read
  obtain ⟨text, whole, words, same⟩ := takesWord_takeDigits _ _ _ taken
  exact ⟨text, whole, words, fun rest' alike => someDigits_eq_ok_iff.mpr ⟨same rest' alike, some⟩⟩

/-- A reader that does not ask for a digit takes those that there are. -/
theorem takesWord_someDigits_takeDigits (checked : Bool) : TakesWord (someDigits checked) takeDigits := by
  intro cs rest ds read
  exact takesWord_takeDigits _ _ _ (someDigits_eq_ok_iff.mp read).1

/-- Whether digits begin with a zero that is not alone. -/
def leadingZero : List Char → Bool
  | '0' :: _ :: _ => true
  | _ => false

/-- The digits before a point, read as two steps. -/
theorem wholeDigits_eq (checked : Bool) : wholeDigits checked = (do
    let ds ← someDigits checked
    if leadingZero ds then malformed else pure ds) := by
  unfold wholeDigits
  congr 1
  funext ds
  split
  · rfl
  · next other =>
    have alone : leadingZero ds = false := by
      unfold leadingZero
      split
      · exact absurd rfl (other _ _)
      · rfl
    rw [alone]
    rfl

/-- Whether a number is negative, by the sign before it. -/
def minusSign : Read Bool := do
  let negative := (← here) == some '-'
  if negative then drop
  pure negative

/-- Reads a fraction behind its point, by what reads its digits. -/
def fractionWith (digits : Read (List Char)) : Read (Option (List Char)) := do
  if (← here) == some '.' then
    drop
    pure (some (← digits))
  else pure none

/-- Reads an exponent behind its letter. -/
def exponent : Read (Option (Bool × List Char)) := do
  let mark ← here
  if mark == some 'e' || mark == some 'E' then
    drop
    let sign ← here
    if sign == some '-' || sign == some '+' then drop
    pure (some (sign == some '-', ← someDigits true))
  else pure none

theorem here_bind_here (f : Option Char → Option Char → Read α) :
    (here >>= fun next => here >>= f next) = here >>= fun next => f next next := rfl

theorem ite_bind' (b : Bool) (r r' : Read α) (f : α → Read β) :
    (if b = true then r else r') >>= f = if b = true then r >>= f else r' >>= f := by
  cases b <;> rfl

/-- A number of plain JSON, read part by part. -/
theorem numeral_eq : numeral true = (do
    let negative ← minusSign
    let whole ← wholeDigits true
    let fraction ← fractionWith (someDigits true)
    let exponent ← exponent
    pure ⟨negative, whole, fraction, exponent⟩) := by
  unfold numeral
  simp only [minusSign, fractionWith, exponent, bind_assoc, pure_bind, ite_bind', here_bind_here]

/-- A decimal of relaxed JSON, read part by part. -/
theorem decimal_eq (negative : Bool) : Relaxed.decimal negative = (do
    let whole ← takeDigits
    let fraction ← fractionWith takeDigits
    let exponent ← exponent
    if leadingZero whole || whole ++ fraction.getD [] = [] then malformed
    else pure (((Numeral.mk negative whole fraction exponent).value?).getD .null)) := by
  unfold Relaxed.decimal
  simp only [fractionWith, exponent, bind_assoc, pure_bind, ite_bind', here_bind_here]
  rfl

/-- A sign is a word. -/
theorem takesWord_minusSign : TakesWord minusSign minusSign := by
  refine .here_bind (asksWord_eq (c := '-') rfl) (fun next _ => takesWord_pure _) (fun next other => ?_)
    (takesWord_pure false)
  rw [other]
  exact ⟨rfl, rfl⟩

/-- A fraction is a word if its digits are. -/
theorem takesWord_fractionWith {digits digits' : Read (List Char)} (taken : TakesWord digits digits') :
    TakesWord (fractionWith digits) (fractionWith digits') :=
  .here_bind (asksWord_eq (c := '.') rfl) (fun _ _ => taken.map some) (fun _ _ => ⟨rfl, rfl⟩)
    (takesWord_pure none)

/-- An exponent is a word. -/
theorem takesWord_exponent : TakesWord exponent exponent := by
  refine .here_bind ((asksWord_eq (c := 'e') rfl).or (asksWord_eq (c := 'E') rfl)) (fun _ _ => ?_)
    (fun _ _ => ⟨rfl, rfl⟩) (takesWord_pure none)
  refine .here_bind ((asksWord_eq (c := '-') rfl).or (asksWord_eq (c := '+') rfl)) (fun sign _ => ?_)
    (fun sign other => ?_) ((takesWord_someDigits true).map fun ds => some (false, ds))
  · exact (takesWord_someDigits true).map fun ds => some (sign == some '-', ds)
  · rw [(Bool.or_eq_false_iff.mp other).1]
    exact ⟨rfl, rfl⟩

/-- The whole digits of a number in plain JSON are some, and do not begin with a zero before others. -/
theorem wholeDigits_eq_ok {checked : Bool} {cs ds rest : List Char}
    (read : wholeDigits checked cs = .ok (ds, rest)) :
    takeDigits cs = .ok (ds, rest) ∧ ds ≠ [] ∧ leadingZero ds = false := by
  rw [wholeDigits_eq] at read
  obtain ⟨ds', more, taken, read⟩ := bind_eq_ok read
  split at read
  · cases read
  · next other =>
    cases read
    obtain ⟨digits, some⟩ := someDigits_eq_ok_iff.mp taken
    exact ⟨digits, some, Bool.eq_false_iff.mpr other⟩

/-- A number of plain JSON but for its sign. -/
def unsigned (negative : Bool) : Read Json := do
  let whole ← wholeDigits true
  let fraction ← fractionWith (someDigits true)
  let exponent ← exponent
  match (Numeral.mk negative whole fraction exponent).value? with
  | some v => pure v
  | none => malformed

/-- A number is a sign and what follows it. -/
theorem number_eq : number = minusSign >>= unsigned := by
  unfold number
  simp only [numeral_eq, bind_assoc, pure_bind]
  rfl

/-- A number of plain JSON has the same value where more numbers are allowed. -/
theorem takesWord_decimal (negative : Bool) : TakesWord (unsigned negative) (Relaxed.decimal negative) := by
  rw [decimal_eq]
  have digits : TakesWord (wholeDigits true) takeDigits :=
    fun _ _ _ read => takesWord_takeDigits _ _ _ (wholeDigits_eq_ok read).1
  refine digits.bind fun whole _ _ read => ?_
  obtain ⟨-, some, alone⟩ := wholeDigits_eq_ok read
  refine (takesWord_fractionWith (takesWord_someDigits_takeDigits true)).bind fun fraction _ _ _ => ?_
  refine takesWord_exponent.bind fun exponent _ _ _ => ?_
  have accepted : ¬(leadingZero whole || decide (whole ++ fraction.getD [] = [])) = true := by
    simp [alone, some]
  rw [if_neg accepted]
  cases (Numeral.mk negative whole fraction exponent).value? with
  | none => exact takesWord_malformed _
  | some v => exact takesWord_pure v

/-- A number is a word. -/
theorem takesWord_number : TakesWord number number := by
  rw [number_eq]
  refine takesWord_minusSign.bind fun negative _ _ _ => ?_
  have digits : TakesWord (wholeDigits true) (wholeDigits true) := by
    rw [wholeDigits_eq]
    refine (takesWord_someDigits true).bind fun ds _ _ _ => ?_
    cases leadingZero ds with
    | true => exact takesWord_malformed _
    | false => exact takesWord_pure ds
  refine digits.bind fun whole _ _ _ => ?_
  refine (takesWord_fractionWith (takesWord_someDigits true)).bind fun fraction _ _ _ => ?_
  refine takesWord_exponent.bind fun exponent _ _ _ => ?_
  cases (Numeral.mk negative whole fraction exponent).value? with
  | none => exact takesWord_malformed _
  | some v => exact takesWord_pure v

/-- What stands behind a sign where more numbers are allowed. -/
def relaxedUnsigned (negative : Bool) : Read Json
  | '0' :: 'x' :: cs => Relaxed.hexadecimal negative cs
  | '0' :: 'X' :: cs => Relaxed.hexadecimal negative cs
  | 'I' :: cs => (exactly "nfinity".toList cs).map fun r => (.null, r.2)
  | 'N' :: cs => (exactly "aN".toList cs).map fun r => (.null, r.2)
  | cs => Relaxed.decimal negative cs

/-- Relaxed reading of a number looks at its sign first. -/
theorem relaxedNumber_cons (c : Char) (cs : List Char) : Relaxed.number (c :: cs) =
    if c = '-' then relaxedUnsigned true cs
    else if c = '+' then relaxedUnsigned false cs
    else relaxedUnsigned false (c :: cs) := by
  by_cases minus : c = '-'
  · subst minus
    rfl
  · by_cases plus : c = '+'
    · subst plus
      rfl
    · have isMinus : (some c == some '-') = false := by simpa using minus
      have isPlus : (some c == some '+') = false := by simpa using plus
      rw [if_neg minus, if_neg plus]
      unfold Relaxed.number
      simp only [bind_apply, here, List.head?_cons, isMinus, isPlus]
      rfl

/-- A number of plain JSON begins with a digit, but for its sign. -/
theorem exists_digit_of_unsigned {negative : Bool} {cs rest : List Char} {v : Json}
    (read : unsigned negative cs = .ok (v, rest)) : ∃ c cs', cs = c :: cs' ∧ c.isDigit = true := by
  rw [unsigned] at read
  obtain ⟨ds, more, taken, -⟩ := bind_eq_ok read
  obtain ⟨digits, some, -⟩ := wholeDigits_eq_ok taken
  obtain ⟨rfl, digits, -⟩ := takeDigits_spec digits
  obtain ⟨c, ds, rfl⟩ := List.exists_cons_of_ne_nil some
  exact ⟨c, _, rfl, digits c (.head ds)⟩

/-- Behind a zero nothing but a point or the mark of an exponent goes on with a number of plain JSON. -/
theorem eq_of_unsigned_mark {negative : Bool} {mark : Char} (marks : mark = 'x' ∨ mark = 'X')
    {cs rest : List Char} {v : Json} (read : unsigned negative ('0' :: mark :: cs) = .ok (v, rest)) :
    rest = mark :: cs := by
  have left : unsigned negative ('0' :: mark :: cs) =
      (match (Numeral.mk negative ['0'] none none).value? with
      | some v => pure v
      | none => malformed : Read Json) (mark :: cs) := by
    rcases marks with rfl | rfl <;> rfl
  rw [left] at read
  cases value : (Numeral.mk negative ['0'] none none).value? with
  | none =>
    rw [value] at read
    cases read
  | some v =>
    rw [value] at read
    cases read
    rfl

/-- A number of plain JSON is read as a number of base ten if it ends where a word does. -/
theorem relaxedUnsigned_eq {negative : Bool} {cs rest : List Char} {v : Json}
    (read : unsigned negative cs = .ok (v, rest)) (apart : Apart rest) :
    relaxedUnsigned negative cs = Relaxed.decimal negative cs := by
  have noMark : ∀ {mark : Char} {cs : List Char}, mark = 'x' ∨ mark = 'X' →
      unsigned negative ('0' :: mark :: cs) ≠ .ok (v, rest) := by
    intro mark cs marks read
    rw [eq_of_unsigned_mark marks read] at apart
    have word : isWord mark = false := apart mark rfl
    rcases marks with rfl | rfl <;> cases word
  obtain ⟨c, cs, rfl, digit⟩ := exists_digit_of_unsigned read
  unfold relaxedUnsigned
  split
  · next whole =>
    rw [whole] at read
    exact absurd read (noMark (.inl rfl))
  · next whole =>
    rw [whole] at read
    exact absurd read (noMark (.inr rfl))
  · next whole =>
    cases whole
    cases digit
  · next whole =>
    cases whole
    cases digit
  · rfl

/-- A sign is taken if it is there. -/
theorem minusSign_cons (c : Char) (cs : List Char) :
    minusSign (c :: cs) = .ok (if c = '-' then (true, cs) else (false, c :: cs)) := by
  by_cases minus : c = '-'
  · subst minus
    rfl
  · have isMinus : (some c == some '-') = false := by simpa using minus
    rw [if_neg minus, minusSign]
    simp only [bind_apply, here, List.head?_cons, isMinus]
    rfl

/-- Relaxed reading of a number of plain JSON reads a sign and a decimal. -/
theorem relaxedNumber_eq {cs rest : List Char} {v : Json} (read : number cs = .ok (v, rest))
    (apart : Apart rest) : Relaxed.number cs = (minusSign >>= Relaxed.decimal) cs := by
  rw [number_eq] at read
  cases cs with
  | nil => cases read
  | cons c cs =>
    rw [bind_apply, minusSign_cons] at read ⊢
    rw [relaxedNumber_cons]
    by_cases minus : c = '-'
    · simp only [if_pos minus] at read ⊢
      exact relaxedUnsigned_eq read apart
    · simp only [if_neg minus] at read ⊢
      have noPlus : c ≠ '+' := by
        rintro rfl
        obtain ⟨d, _, whole, digit⟩ := exists_digit_of_unsigned read
        cases whole
        cases digit
      rw [if_neg noPlus]
      exact relaxedUnsigned_eq read apart

/-- Whether one reader takes the same word off the front of a text as another does, if the word ends
there. -/
def TakesWhole (r r' : Read α) : Prop :=
  ∀ (cs rest : List Char) (a : α), r cs = .ok (a, rest) → Apart rest →
    ∃ text, cs = text ++ rest ∧ (∀ c ∈ text, isWord c = true) ∧
      ∀ rest', Apart rest' → r' (text ++ rest') = .ok (a, rest')

/-- A word that is taken is taken whole. -/
theorem TakesWord.whole {r r' : Read α} (taken : TakesWord r r') : TakesWhole r r' := by
  intro cs rest a read apart
  obtain ⟨text, whole, words, same⟩ := taken _ _ _ read
  exact ⟨text, whole, words, fun rest' apart' => same rest' (.inr ⟨apart, apart'⟩)⟩

/-- A number of plain JSON has the same value where more numbers are allowed. -/
theorem takesWhole_number : TakesWhole number Relaxed.number := by
  intro cs rest v read apart
  have relaxed : TakesWord number (minusSign >>= Relaxed.decimal) := by
    rw [number_eq]
    exact takesWord_minusSign.bind fun negative _ _ _ => takesWord_decimal negative
  obtain ⟨text, whole, words, same⟩ := relaxed _ _ _ read
  obtain ⟨text', whole', -, again⟩ := takesWord_number _ _ _ read
  obtain rfl : text = text' := List.append_cancel_right (whole.symm.trans whole')
  refine ⟨text, whole, words, fun rest' apart' => ?_⟩
  have alike : Alike rest rest' := .inr ⟨apart, apart'⟩
  rw [relaxedNumber_eq (again rest' alike) apart']
  exact same rest' alike

end Read
end RouteTrees.Json
