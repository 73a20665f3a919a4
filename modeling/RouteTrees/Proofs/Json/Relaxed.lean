import RouteTrees.Proofs.Json.Words

/-!
# Reading dressed JSON

Whatever the reader of plain JSON makes of a text, the reader of relaxed JSON makes of it however it is
dressed, and both are left with texts of which the one is the other dressed (`Follows`). Of lists and objects it
is first said how the reader of plain JSON goes from item to item (`Run`); a reader of relaxed JSON keeps step
with it, by induction on the items, and may meet a comma of its own before the closing character.
-/

namespace RouteTrees.Json

open Read (bind_apply bind_eq_ok TakesWhole)

variable {α β σ : Type}

/-- A word is read in a dressed text as it is in the plain one. -/
theorem Dressed.word {r r' : Read α} {c : Char} {cs ds rest : List Char} {a : α}
    (dressed : Dressed (Seam.behind (.between false false) c) cs ds) (taken : TakesWhole r r')
    (word : isWord c = true) (read : r (c :: cs) = .ok (a, rest)) (apart : Apart rest) :
    ∃ ended rest', r' (c :: ds) = .ok (a, rest') ∧ Dressed (.between true ended) rest rest' := by
  obtain ⟨text, whole, words, same⟩ := taken _ _ _ read apart
  rw [behind_word word] at dressed
  cases text with
  | nil =>
    rw [← show c :: cs = rest from whole, Apart] at apart
    have other : isWord c = false := apart c rfl
    rw [word] at other
    cases other
  | cons d text =>
    cases whole
    obtain ⟨ended, ds', rfl, dressed'⟩ := dressed.exists_append (List.forall_mem_cons.mp words).2
    exact ⟨ended, ds', same ds' (dressed'.apart apart), dressed'⟩

namespace Relaxed

/-! ## Looking at what is next -/

/-- A reader that looks at what is next finds what stands behind the gap. -/
theorem peek_bind {cs rest : List Char} (met : skipGap .blanks cs = .ok rest) (f : Option Char → Read α) :
    (peek >>= f) cs = f rest.head? rest := by
  have looked : peek cs = .ok (rest.head?, rest) := by
    rw [peek, met]
    rfl
  rw [bind_apply, looked]

/-- What a dressed text goes on with behind blanks and comments, if the plain one goes on with a
character. -/
theorem skipGap_of_next {word ended : Bool} {c : Char} {cs cs' ds : List Char}
    (dressed : Dressed (.between word ended) cs ds) (next : cs.dropWhile Read.isBlank = c :: cs')
    (solid : Solid c) :
    (∃ ds', skipGap .blanks ds = .ok (c :: ds') ∧ Dressed (Seam.behind (.between false false) c) cs' ds') ∨
      ended = true ∧ (c = ']' ∨ c = '}') ∧ ∃ behind ds', skipGap .blanks ds = .ok (',' :: behind) ∧
        skipGap .blanks behind = .ok (c :: ds') ∧ Dressed (Seam.behind (.between false false) c) cs' ds' := by
  have met := skipGap_of_dressed dressed rfl fun d mem => by
    rw [next] at mem
    exact Option.mem_some.mp mem ▸ solid
  rw [next] at met
  obtain ⟨ds', skipped, front⟩ | ⟨ended, closes, behind, ds', comma, skipped, front⟩ := met
  · cases front with
    | cons _ later => exact .inl ⟨_, skipped, later⟩
  · have closes : c = ']' ∨ c = '}' := by simpa [Closes] using closes
    cases front with
    | cons _ later => exact .inr ⟨ended, closes, behind, _, comma, skipped, later⟩

/-- Unless a list or an object has an item or a field and ends, nothing but blanks and comments is met before
the next character. -/
theorem skipGap_of_no_comma {word ended : Bool} {c : Char} {cs cs' ds : List Char}
    (dressed : Dressed (.between word ended) cs ds) (next : cs.dropWhile Read.isBlank = c :: cs')
    (solid : Solid c) (noComma : ¬(ended = true ∧ (c = ']' ∨ c = '}'))) :
    ∃ ds', skipGap .blanks ds = .ok (c :: ds') ∧ Dressed (Seam.behind (.between false false) c) cs' ds' :=
  (skipGap_of_next dressed next solid).resolve_right fun met => noComma ⟨met.1, met.2.1⟩

/-- Whether a reader makes of a dressed text what another makes of the plain one, if that is read up to where a
word would end. -/
structure Follows (r r' : Read α) : Prop where
  /-- What is read begins with no comment. -/
  solid : ∀ {c : Char} {cs rest : List Char} {a : α}, Read.isBlank c = false →
    r (c :: cs) = .ok (a, rest) → Solid c
  reads : ∀ {word ended : Bool} {cs ds rest : List Char} {a : α}, Dressed (.between word ended) cs ds →
    r cs = .ok (a, rest) → Apart rest →
    ∃ word' ended' rest', r' ds = .ok (a, rest') ∧ Dressed (.between word' ended') rest rest'

/-- Readers that agree do so when their results are put in another form. -/
theorem Follows.map {r r' : Read α} (follows : Follows r r') (g : α → β) :
    Follows (do pure (g (← r))) (do pure (g (← r'))) where
  solid := by
    intro c cs rest b solid read
    obtain ⟨a, more, read, last⟩ := bind_eq_ok read
    exact follows.solid solid read
  reads := by
    intro word ended cs ds rest b dressed read apart
    obtain ⟨a, more, read, last⟩ := bind_eq_ok read
    cases last
    obtain ⟨word', ended', rest', same, dressed'⟩ := follows.reads dressed read apart
    refine ⟨word', ended', rest', ?_, dressed'⟩
    rw [bind_apply, same]
    rfl

/-! ## Lists and objects -/

/-- How a reader of plain JSON goes from item to item, or from field to field, up to a closing character. The
number is a bound on how many steps it takes. -/
inductive Run (close : Char) (item : σ → Read σ) : Nat → Bool → σ → List Char → σ → List Char → Prop where
  | done {n : Nat} {first : Bool} {s : σ} {cs rest : List Char}
      (next : cs.dropWhile Read.isBlank = close :: rest) : Run close item (n + 1) first s cs s rest
  | first {n : Nat} {s t out : σ} {c : Char} {cs cs' more rest : List Char}
      (next : cs.dropWhile Read.isBlank = c :: cs') (other : c ≠ close)
      (read : item s (c :: cs') = .ok (t, more)) (later : Run close item n false t more out rest) :
      Run close item (n + 1) true s cs out rest
  | later {n : Nat} {s t out : σ} {c : Char} {cs cs' cs'' more rest : List Char}
      (comma : cs.dropWhile Read.isBlank = ',' :: cs') (next : cs'.dropWhile Read.isBlank = c :: cs'')
      (other : c ≠ close) (read : item s (c :: cs'') = .ok (t, more))
      (later : Run close item n false t more out rest) : Run close item (n + 1) false s cs out rest

section Runs

variable {item item' : σ → Read σ} {n : Nat} {first : Bool} {s out : σ} {cs ds rest : List Char}
  {close : Char}

theorem strict_peek_bind (f : Option Char → Read α) (cs : List Char) : (Read.peek >>= f) cs =
    f (cs.dropWhile Read.isBlank).head? (cs.dropWhile Read.isBlank) := rfl

/-- Reading the items of a list is going from one to the next up to the bracket. -/
theorem run_of_itemsFrom (read : Read.itemsFrom item first n s cs = .ok (out, rest)) :
    Run ']' item n first s cs out rest := by
  induction n generalizing first s cs with
  | zero => cases read
  | succ n ih =>
    rw [Read.itemsFrom, strict_peek_bind] at read
    cases next : cs.dropWhile Read.isBlank with
    | nil =>
      rw [next] at read
      cases read
    | cons c cs' =>
      rw [next, List.head?_cons] at read
      by_cases closes : c = ']'
      · subst closes
        cases read
        exact .done next
      · simp only at read
        cases first with
        | true =>
          obtain ⟨t, more, item, later⟩ := bind_eq_ok read
          exact .first next closes item (ih later)
        | false =>
          by_cases comma : c = ','
          · subst comma
            rw [if_neg Bool.false_ne_true, if_pos rfl, Read.drop_bind, strict_peek_bind] at read
            cases next' : cs'.dropWhile Read.isBlank with
            | nil =>
              rw [next'] at read
              cases read
            | cons d cs'' =>
              rw [next', List.head?_cons] at read
              by_cases closes : d = ']'
              · subst closes
                cases read
              · simp only at read
                obtain ⟨t, more, item, later⟩ := bind_eq_ok read
                exact .later next next' closes item (ih later)
          · rw [if_neg Bool.false_ne_true, if_neg comma] at read
            cases read

/-- The brace behind the fields of an object stays. -/
theorem run_of_fieldsFrom {field : σ → String → Read σ}
    (read : Read.fieldsFrom field first n s cs = .ok (out, rest)) :
    ∃ rest', rest = '}' :: rest' ∧ Run '}' (Read.fieldWith field) n first s cs out rest' := by
  induction n generalizing first s cs with
  | zero => cases read
  | succ n ih =>
    rw [Read.fieldsFrom, strict_peek_bind] at read
    cases next : cs.dropWhile Read.isBlank with
    | nil =>
      rw [next] at read
      cases read
    | cons c cs' =>
      rw [next, List.head?_cons] at read
      by_cases closes : c = '}'
      · subst closes
        cases read
        exact ⟨cs', rfl, .done next⟩
      · simp only at read
        cases first with
        | true =>
          obtain ⟨t, more, item, later⟩ := bind_eq_ok read
          obtain ⟨rest', same, run⟩ := ih later
          exact ⟨rest', same, .first next closes item run⟩
        | false =>
          by_cases comma : c = ','
          · subst comma
            rw [if_neg Bool.false_ne_true, if_pos rfl, Read.drop_bind, strict_peek_bind] at read
            cases next' : cs'.dropWhile Read.isBlank with
            | nil =>
              rw [next'] at read
              obtain ⟨t, more, item, later⟩ := bind_eq_ok read
              cases item
            | cons d cs'' =>
              rw [next', List.head?_cons] at read
              by_cases closes : d = '}'
              · subst closes
                cases read
              · simp only [Option.some.injEq, closes, imp_false, not_false_eq_true] at read
                obtain ⟨t, more, item, later⟩ := bind_eq_ok read
                obtain ⟨rest', same, run⟩ := ih later
                exact ⟨rest', same, .later next next' closes item run⟩
          · rw [if_neg Bool.false_ne_true, if_neg comma] at read
            cases read

/-- Where a reader of items is behind one of them. -/
def behindItem (close : Char) (item : σ → Read σ) (n : Nat) (t : σ) : Read σ := do
  match ← peek with
  | some ',' =>
    Read.drop
    itemsFrom close item n t
  | some d =>
    if d = close then
      Read.drop
      pure t
    else Read.malformed
  | none => Read.unfinished

/-- What relaxed reading of items does next. -/
theorem itemsFrom_succ (close : Char) (item : σ → Read σ) (n : Nat) (s : σ) :
    itemsFrom close item (n + 1) s = (do
      let c ← peek
      if c == some close then
        Read.drop
        pure s
      else
        let t ← item s
        behindItem close item n t) := rfl

/-- What closes a list or an object, and a comma, stand apart from words. -/
theorem apart_of_next {c : Char} {cs' : List Char} (next : cs.dropWhile Read.isBlank = c :: cs')
    (apart : isWord c = false) : Apart cs := by
  cases cs with
  | nil => exact nofun
  | cons d cs =>
    intro _ mem
    cases mem
    cases blank : Read.isBlank d with
    | true =>
      refine Bool.eq_false_iff.mpr fun word => ?_
      rw [(solid_of_isWord word).not_strict] at blank
      cases blank
    | false =>
      rw [List.dropWhile_cons_of_neg (ne_true_of_eq_false blank)] at next
      cases next
      exact apart

/-- What stands behind blanks is no blank. -/
theorem isBlank_of_next {c : Char} {cs' : List Char} (next : cs.dropWhile Read.isBlank = c :: cs') :
    Read.isBlank c = false := by
  have stops := List.head?_dropWhile_not Read.isBlank cs
  simpa [next] using stops

/-- Behind an item a word does not go on. -/
theorem Run.apart (run : Run close item n false s cs out rest) (closes : close = ']' ∨ close = '}') :
    Apart cs := by
  cases run with
  | done next => exact apart_of_next next (by rcases closes with rfl | rfl <;> rfl)
  | later comma => exact apart_of_next comma rfl

theorem solid_of_closes (closes : close = ']' ∨ close = '}') : Solid close := by
  rcases closes with rfl | rfl <;> exact ⟨rfl, by decide⟩

theorem behind_close (closes : close = ']' ∨ close = '}') :
    (Seam.between false false).behind close = .between false true := by
  rcases closes with rfl | rfl <;> rfl

theorem behind_comma : (Seam.between false false).behind ',' = .between false false := rfl

/-- Items end with a closing character. -/
theorem itemsFrom_close {ds' : List Char} (met : skipGap .blanks ds = .ok (close :: ds')) (n : Nat)
    (item : σ → Read σ) (s : σ) : itemsFrom close item (n + 1) s ds = .ok (s, ds') := by
  rw [itemsFrom_succ, peek_bind met, List.head?_cons, if_pos (beq_self_eq_true _)]
  rfl

/-- Relaxed reading meets an item. -/
theorem itemsFrom_item {c : Char} {ds' : List Char} (met : skipGap .blanks ds = .ok (c :: ds'))
    (other : c ≠ close) (n : Nat) (item : σ → Read σ) (s : σ) :
    itemsFrom close item (n + 1) s ds = (item s >>= behindItem close item n) (c :: ds') := by
  have notClose : ¬(some c == some close) = true := by simpa using other
  rw [itemsFrom_succ, peek_bind met, List.head?_cons, if_neg notClose]

/-- Relaxed reading meets a comma behind an item. -/
theorem behindItem_comma {ds' : List Char} (met : skipGap .blanks ds = .ok (',' :: ds')) (n : Nat)
    (item : σ → Read σ) (s : σ) : behindItem close item n s ds = itemsFrom close item n s ds' := by
  rw [behindItem, peek_bind met]
  rfl

/-- Relaxed reading meets the end behind an item. -/
theorem behindItem_close (closes : close = ']' ∨ close = '}') {ds' : List Char}
    (met : skipGap .blanks ds = .ok (close :: ds')) (n : Nat) (item : σ → Read σ) (s : σ) :
    behindItem close item n s ds = .ok (s, ds') := by
  rw [behindItem, peek_bind met]
  rcases closes with rfl | rfl <;> rfl

/-- An item is read in a dressed text, and what follows it. -/
theorem read_item {c : Char} {cs more ds' : List Char} {t : σ} {m : Nat}
    (follows : Follows (item s) (item' s)) (dressed : Dressed (Seam.behind (.between false false) c) cs ds')
    (read : item s (c :: cs) = .ok (t, more)) (apart : Apart more)
    (later : ∀ {word ended : Bool} {ds : List Char}, Dressed (.between word ended) more ds →
      ∃ rest', behindItem close item' m t ds = .ok (out, rest') ∧ Dressed (.between false true) rest rest')
    (met : skipGap .blanks ds = .ok (c :: ds')) (other : c ≠ close) :
    ∃ rest', itemsFrom close item' (m + 1) s ds = .ok (out, rest') ∧
      Dressed (.between false true) rest rest' := by
  have kept : Dressed (.between false false) (c :: cs) (c :: ds') := .keep c dressed
  obtain ⟨word, ended, more', same, dressed'⟩ := follows.reads kept read apart
  obtain ⟨rest', last, dressed''⟩ := later dressed'
  refine ⟨rest', ?_, dressed''⟩
  rw [itemsFrom_item met other, bind_apply, same]
  exact last

/-- Behind an item a dressed text goes on as the plain one does, by induction on the steps that are left. A comma
that has been put in costs a step where the plain text takes its last. -/
theorem Run.behindItem (run : Run close item n first s cs out rest) (isLater : first = false)
    (closes : close = ']' ∨ close = '}') (follows : ∀ s, Follows (item s) (item' s)) {word ended : Bool}
    (dressed : Dressed (.between word ended) cs ds) {m : Nat} (enough : n ≤ m) :
    ∃ rest', behindItem close item' m s ds = .ok (out, rest') ∧ Dressed (.between false true) rest rest' := by
  induction run generalizing ds word ended m with
  | first => cases isLater
  | done next =>
    obtain ⟨ds', met, later⟩ | ⟨-, -, behind, ds', comma, met, later⟩ :=
      skipGap_of_next dressed next (solid_of_closes closes)
    · rw [behind_close closes] at later
      exact ⟨ds', behindItem_close closes met m item' _, later⟩
    · rw [behind_close closes] at later
      obtain ⟨m, rfl⟩ := Nat.exists_eq_add_one_of_ne_zero (Nat.ne_zero_of_lt enough)
      refine ⟨ds', ?_, later⟩
      rw [behindItem_comma comma, itemsFrom_close met]
  | later comma next other read later ih =>
    obtain ⟨m, rfl⟩ := Nat.exists_eq_add_one_of_ne_zero (Nat.ne_zero_of_lt enough)
    obtain ⟨behind, met, dressed⟩ := skipGap_of_no_comma dressed comma ⟨rfl, by decide⟩ (by simp)
    rw [behind_comma] at dressed
    have solid := (follows _).solid (isBlank_of_next next) read
    obtain ⟨ds', met', dressed⟩ := skipGap_of_no_comma dressed next solid (by simp)
    rw [behindItem_comma met]
    exact read_item (follows _) dressed read (later.apart closes)
      (fun dressed => ih rfl dressed (Nat.le_of_succ_le_succ enough)) met' other

/-- Items, or fields, are read in a dressed text as they are in the plain one. -/
theorem Run.itemsFrom (run : Run close item n true s cs out rest) (closes : close = ']' ∨ close = '}')
    (follows : ∀ s, Follows (item s) (item' s)) (dressed : Dressed (.between false false) cs ds) {m : Nat}
    (enough : n ≤ m) :
    ∃ rest', itemsFrom close item' m s ds = .ok (out, rest') ∧ Dressed (.between false true) rest rest' := by
  have some : 0 < n := by cases run <;> exact Nat.succ_pos _
  obtain ⟨m, rfl⟩ := Nat.exists_eq_add_one_of_ne_zero (Nat.ne_zero_of_lt (Nat.lt_of_lt_of_le some enough))
  cases run with
  | done next =>
    obtain ⟨ds', met, later⟩ := skipGap_of_no_comma dressed next (solid_of_closes closes) (by simp)
    rw [behind_close closes] at later
    exact ⟨ds', itemsFrom_close met m item' s, later⟩
  | first next other read later =>
    have solid := (follows _).solid (isBlank_of_next next) read
    obtain ⟨ds', met, dressed⟩ := skipGap_of_no_comma dressed next solid (by simp)
    exact read_item (follows _) dressed read (later.apart closes)
      (fun dressed => later.behindItem rfl closes follows dressed (Nat.le_of_succ_le_succ enough)) met other

end Runs

/-! ## Fields -/

/-- A field is a name in quotes and what is read behind it. -/
theorem fieldWith_eq_ok {field : σ → String → Read σ} {s out : σ} {cs rest : List Char}
    (read : Read.fieldWith field s cs = .ok (out, rest)) :
    ∃ k body more, cs.dropWhile Read.isBlank = '"' :: body ∧ Read.textBody body = .ok (k, more) ∧
      field s k more = .ok (out, rest) := by
  rw [Read.fieldWith, strict_peek_bind] at read
  cases next : cs.dropWhile Read.isBlank with
  | nil =>
    rw [next] at read
    cases read
  | cons c body =>
    rw [next, List.head?_cons] at read
    by_cases quote : c = '"'
    · subst quote
      have read : (Read.textBody >>= field s) body = .ok (out, rest) := read
      obtain ⟨k, more, named, later⟩ := bind_eq_ok read
      exact ⟨k, body, more, rfl, named, later⟩
    · simp only at read
      cases read

/-- A colon that was read stands behind blanks. -/
theorem colon_eq_ok {cs rest : List Char} {u : Unit} (read : Read.colon cs = .ok (u, rest)) :
    cs.dropWhile Read.isBlank = ':' :: rest := by
  rw [Read.colon, strict_peek_bind] at read
  cases next : cs.dropWhile Read.isBlank with
  | nil =>
    rw [next] at read
    cases read
  | cons c more =>
    rw [next, List.head?_cons] at read
    by_cases colon : c = ':'
    · subst colon
      cases read
      rfl
    · simp only at read
      cases read

/-- A text between quotes is read alike from the dressed text. -/
theorem textBody_of_dressed {cs ds rest : List Char} {s : String} (dressed : Dressed .within cs ds)
    (read : Read.textBody cs = .ok (s, rest)) :
    ∃ rest', textBody '"' ds = .ok (s, rest') ∧ Dressed (.between false true) rest rest' := by
  rw [Read.textBody] at read
  cases found : Read.textFrom true .plain cs with
  | error e =>
    rw [found] at read
    cases read
  | ok result =>
    rw [found] at read
    cases read
    have inside : Dressed (Seam.ofPlace .plain) cs ds := dressed
    obtain ⟨rest', same, dressed'⟩ := textFrom_of_dressed inside found
    rw [Place.ofStrict] at same
    refine ⟨rest', ?_, dressed'⟩
    rw [textBody, same]
    rfl

theorem behind_colon : (Seam.between false false).behind ':' = .between false false := rfl

/-- A field of plain JSON is read in a dressed text, given that its value is. -/
theorem follows_field {item item' : Read Json} (follows : Follows item item') (found : List (String × Json)) :
    Follows
      (Read.fieldWith (fun found k => do
        Read.colon
        pure (found ++ [(k, ← item)])) found)
      (do
        let k ← fieldName
        colon
        pure (found ++ [(k, ← item')])) where
  solid := by
    intro c cs rest out solid read
    obtain ⟨k, body, more, next, -⟩ := fieldWith_eq_ok read
    rw [List.dropWhile_cons_of_neg (ne_true_of_eq_false solid)] at next
    cases next
    exact ⟨rfl, by decide⟩
  reads := by
    intro word ended cs ds rest out dressed read apart
    obtain ⟨k, body, more, next, named, read⟩ := fieldWith_eq_ok read
    obtain ⟨u, more', linked, read⟩ := bind_eq_ok read
    obtain ⟨v, rest, valued, read⟩ := bind_eq_ok read
    cases read
    obtain ⟨ds₁, met, dressed⟩ := skipGap_of_no_comma dressed next ⟨rfl, by decide⟩ (by simp)
    obtain ⟨ds₂, named', dressed⟩ := textBody_of_dressed dressed named
    obtain ⟨ds₃, met', dressed⟩ :=
      skipGap_of_no_comma dressed (colon_eq_ok linked) ⟨rfl, by decide⟩ (by simp)
    rw [behind_colon] at dressed
    obtain ⟨word', ended', rest', valued', dressed⟩ := follows.reads dressed valued apart
    have name : fieldName ds = .ok (k, ds₂) := by
      rw [fieldName, peek_bind met]
      exact named'
    have link : colon ds₂ = .ok ((), ds₃) := by
      rw [colon, peek_bind met']
      rfl
    refine ⟨word', ended', rest', ?_, dressed⟩
    simp only [bind_apply, name, link, valued']
    rfl

/-! ## Values -/

/-- A character that a value of plain JSON can begin with. -/
def begins (c : Char) : Bool := ['n', 't', 'f', '"', '[', '{', '-'].contains c || c.isDigit

/-- What begins a value of plain JSON is no blank, no slash and closes nothing. -/
theorem solid_of_begins {c : Char} (first : begins c = true) : Solid c ∧ ¬(c = ']' ∨ c = '}') := by
  obtain known | digit := Bool.or_eq_true_iff.mp first
  · have each : ['n', 't', 'f', '"', '[', '{', '-'].all
        (fun c => isBlank c = false ∧ c ≠ '/' ∧ ¬(c = ']' ∨ c = '}')) = true := by decide
    obtain ⟨solid, noSlash, noClose⟩ :=
      of_decide_eq_true (List.all_eq_true.mp each c (List.contains_iff_mem.mp known))
    exact ⟨⟨solid, noSlash⟩, noClose⟩
  · refine ⟨solid_of_isWord (Read.isWord_of_isDigit digit), ?_⟩
    rintro (rfl | rfl) <;> cases digit

/-- A value that was read begins behind blanks. -/
theorem begins_of_valueWith {inner : Option (Read Json)} {cs rest : List Char} {v : Json}
    (read : Read.valueWith inner cs = .ok (v, rest)) :
    ∃ c cs', cs.dropWhile Read.isBlank = c :: cs' ∧ begins c = true := by
  unfold Read.valueWith at read
  rw [strict_peek_bind] at read
  cases next : cs.dropWhile Read.isBlank with
  | nil =>
    rw [next] at read
    cases read
  | cons c cs' =>
    refine ⟨c, cs', rfl, ?_⟩
    cases first : begins c with
    | true => rfl
    | false =>
      obtain ⟨other, notDigit⟩ := Bool.or_eq_false_iff.mp first
      simp only [List.contains_eq_mem, List.mem_cons, List.not_mem_nil, or_false, decide_eq_false_iff_not,
        not_or] at other
      obtain ⟨n, t, f, quote, bracket, brace, minus⟩ := other
      rw [next, List.head?_cons] at read
      simp only [minus, notDigit] at read
      cases read

theorem behind_open {c : Char} (opening : c = '[' ∨ c = '{') :
    (Seam.between false false).behind c = .between false false := by
  rcases opening with rfl | rfl <;> rfl

/-- A value that is a text is read alike from the dressed text. -/
theorem text_of_dressed {cs ds rest : List Char} {v : Json} (dressed : Dressed .within cs ds)
    (read : (do pure (.text (← Read.textBody)) : Read Json) cs = .ok (v, rest)) :
    ∃ rest', (do pure (.text (← textBody '"')) : Read Json) ds = .ok (v, rest') ∧
      Dressed (.between false true) rest rest' := by
  obtain ⟨s, more, text, read⟩ := bind_eq_ok read
  cases read
  obtain ⟨rest', text', dressed⟩ := textBody_of_dressed dressed text
  refine ⟨rest', ?_, dressed⟩
  rw [bind_apply, text']
  rfl

/-- A list is read in a dressed text, given that values are. -/
theorem list_of_dressed {item item' : Read Json} (follows : Follows item item') {cs ds rest : List Char}
    {v : Json} (dressed : Dressed (.between false false) cs ds)
    (read : (do pure (.list (← Read.items (fun found => do pure (found ++ [← item])) [])) : Read Json) cs =
      .ok (v, rest)) :
    ∃ rest', (do pure (.list (← items ']' (fun found => do pure (found ++ [← item'])) [])) : Read Json) ds =
      .ok (v, rest') ∧ Dressed (.between false true) rest rest' := by
  obtain ⟨found, more, read, last⟩ := bind_eq_ok read
  cases last
  obtain ⟨rest', same, dressed⟩ := (run_of_itemsFrom read).itemsFrom (.inl rfl)
    (fun found => follows.map fun v => found ++ [v]) dressed (Nat.succ_le_succ dressed.length_le)
  refine ⟨rest', ?_, dressed⟩
  rw [bind_apply, items, same]
  rfl

/-- An object is read in a dressed text, given that values are. -/
theorem object_of_dressed {item item' : Read Json} (follows : Follows item item') {cs ds rest : List Char}
    {v : Json} (dressed : Dressed (.between false false) cs ds)
    (read : (do
      let found ← Read.fields (fun found k => do
        Read.colon
        pure (found ++ [(k, ← item)])) []
      Read.drop
      pure (.object found) : Read Json) cs = .ok (v, rest)) :
    ∃ rest', (do
      let found ← items '}' (fun found => do
        let k ← fieldName
        colon
        pure (found ++ [(k, ← item')])) []
      pure (.object found) : Read Json) ds = .ok (v, rest') ∧ Dressed (.between false true) rest rest' := by
  obtain ⟨found, more, read, last⟩ := bind_eq_ok read
  obtain ⟨rest, rfl, run⟩ := run_of_fieldsFrom read
  cases last
  obtain ⟨rest', same, dressed⟩ := run.itemsFrom (.inr rfl) (follows_field follows) dressed
    (Nat.succ_le_succ dressed.length_le)
  refine ⟨rest', ?_, dressed⟩
  rw [bind_apply, items, same]
  rfl

/-- A value of plain JSON is read in a dressed text, given that those within it are. -/
theorem follows_valueWith {inner inner' : Option (Read Json)}
    (within : ∀ item, inner = some item → ∃ item', inner' = some item' ∧ Follows item item') :
    Follows (Read.valueWith inner) (valueWith inner') where
  solid := by
    intro c cs rest v solid read
    obtain ⟨d, cs', next, first⟩ := begins_of_valueWith read
    rw [List.dropWhile_cons_of_neg (ne_true_of_eq_false solid)] at next
    cases next
    exact (solid_of_begins first).1
  reads := by
    intro word ended cs ds rest v dressed read apart
    obtain ⟨c, cs', next, first⟩ := begins_of_valueWith read
    obtain ⟨solid, noClose⟩ := solid_of_begins first
    obtain ⟨ds', met, dressed⟩ := skipGap_of_no_comma dressed next solid fun never => noClose never.2
    unfold Read.valueWith at read
    unfold valueWith
    rw [strict_peek_bind, next, List.head?_cons] at read
    rw [peek_bind met, List.head?_cons]
    have name (word : List Char) (words : word.all isWord = true) (v : Json) :
        TakesWhole (do Read.exactly word; pure v) (do Read.exactly word; pure v) :=
      ((Read.takesWord_exactly word (List.all_eq_true.mp words)).bind fun _ _ _ _ => Read.takesWord_pure v).whole
    -- both readers go by the character that the value begins with
    by_cases isNull : c = 'n'
    · subst isNull
      exact ⟨true, dressed.word (name _ (by decide) .null) rfl read apart⟩
    by_cases isTrue : c = 't'
    · subst isTrue
      exact ⟨true, dressed.word (name _ (by decide) (.boolean true)) rfl read apart⟩
    by_cases isFalse : c = 'f'
    · subst isFalse
      exact ⟨true, dressed.word (name _ (by decide) (.boolean false)) rfl read apart⟩
    by_cases isText : c = '"'
    · subst isText
      exact ⟨false, true, text_of_dressed dressed read⟩
    by_cases isList : c = '['
    · subst isList
      rw [behind_open (.inl rfl)] at dressed
      cases inner with
      | none => cases read
      | some item =>
        obtain ⟨item', rfl, follows⟩ := within item rfl
        exact ⟨false, true, list_of_dressed follows dressed read⟩
    by_cases isObject : c = '{'
    · subst isObject
      rw [behind_open (.inr rfl)] at dressed
      cases inner with
      | none => cases read
      | some item =>
        obtain ⟨item', rfl, follows⟩ := within item rfl
        exact ⟨false, true, object_of_dressed follows dressed read⟩
    · have digit : (c = '-' || c.isDigit) = true := by
        simpa [begins, isNull, isTrue, isFalse, isText, isList, isObject] using first
      have word : isWord c = true := by
        obtain minus | digit := Bool.or_eq_true_iff.mp digit
        · rw [of_decide_eq_true minus]
          rfl
        · exact Read.isWord_of_isDigit digit
      have noQuote : c ≠ '\'' := by
        rintro rfl
        cases word
      simp only [digit] at read
      refine ⟨true, ?_⟩
      obtain ⟨ended, rest', same, dressed⟩ := dressed.word Read.takesWhole_number word read apart
      refine ⟨ended, rest', ?_, dressed⟩
      simp only
      exact same

/-- A value of plain JSON is read in a dressed text where values may be nested as deep or deeper. -/
theorem follows_value {n m : Nat} (enough : n ≤ m) : Follows (Read.value n) (value m) := by
  induction n generalizing m with
  | zero =>
    cases m <;> exact follows_valueWith nofun
  | succ n ih =>
    obtain ⟨m, rfl⟩ := Nat.exists_eq_add_one_of_ne_zero (Nat.ne_zero_of_lt enough)
    refine follows_valueWith fun item isItem => ?_
    cases isItem
    exact ⟨value m, rfl, ih (Nat.le_of_succ_le_succ enough)⟩

/-! ## Whole texts -/

/-- A text of blanks only begins no word. -/
theorem apart_of_dropWhile_eq_nil {cs : List Char} (blank : cs.dropWhile Read.isBlank = []) : Apart cs := by
  cases cs with
  | nil => exact nofun
  | cons c cs =>
    intro _ mem
    cases mem
    refine Bool.eq_false_iff.mpr fun word => ?_
    rw [List.dropWhile_cons_of_neg (ne_true_of_eq_false (solid_of_isWord word).not_strict)] at blank
    cases blank

/-- What a reader parses, it reads up to blanks. -/
theorem parse_eq_ok {r : Read α} {text : String} {a : α} (parsed : parse r text = .ok a) :
    ∃ rest, r text.toList = .ok (a, rest) ∧ rest.dropWhile Read.isBlank = [] := by
  rw [parse] at parsed
  cases read : r text.toList with
  | error e =>
    rw [read] at parsed
    cases parsed
  | ok result =>
    obtain ⟨b, rest⟩ := result
    rw [read] at parsed
    have parsed : (if (rest.dropWhile Read.isBlank).isEmpty = true then pure b else throw Error.malformed) =
      Except.ok a := parsed
    split at parsed
    · next blank =>
      cases parsed
      exact ⟨rest, rfl, List.isEmpty_iff.mp blank⟩
    · cases parsed

/-- Plain JSON keeps its value however it is dressed. -/
theorem ofText_of_dressed {text text' : String} {v : Json} (plain : Json.ofText text = .ok v)
    (dressed : DressedAs text text') : ofText text' = .ok v := by
  obtain ⟨rest, read, ends⟩ := parse_eq_ok plain
  obtain ⟨word, ended, rest', same, behind⟩ := (follows_value (n := Read.depthLimit) (m := depthLimit)
    (by decide)).reads dressed read (apart_of_dropWhile_eq_nil ends)
  have noMore : ∀ c ∈ (rest.dropWhile Read.isBlank).head?, Solid c := by
    rw [ends]
    exact nofun
  obtain ⟨more, met, front⟩ | ⟨-, closes, -⟩ := skipGap_of_dressed behind rfl noMore
  · rw [ends] at front
    cases front
    have last : peek rest' = .ok (none, []) := by
      rw [peek, met]
      rfl
    rw [ofText, same]
    exact congrArg (· >>= fun r => if r.1.isNone then pure v else throw Error.malformed) last
  · rw [ends] at closes
    rcases closes with closes | closes <;> cases closes

end Relaxed

end RouteTrees.Json
