import RouteTrees.Proofs.Json.Reading

/-!
# However a value is spelled

Many texts stand for one value: blanks may stand between its parts, and the characters within its texts can
be put in more than one way. `Spells` says which texts spell a value, from its first character to its last,
and `Reads` what a reader makes of a value in whichever way it is spelled. Numbers are left out, since where
one ends depends on what follows it.

Of lists and objects it is said how their readers go from item to item and from field to field, given what
the reader of an item or a field makes of each.
-/

namespace RouteTrees.Json.Read

variable {α β σ : Type}

/-! ## Spelled values -/

/-- Whether what stands behind an opening quote is read as this text, up to the closing quote. -/
def SpellsText (s : String) (body : List Char) : Prop :=
  ∀ rest, textFrom true .plain (body ++ rest) = .ok (s.toList, rest)

/-- What stands before an item or a field: a comma, unless it is the first. -/
inductive Lead : Bool → List Char → Prop where
  | first {gap : List Char} (blank : IsGap gap) : Lead true gap
  | next {gap gap' : List Char} (blank : IsGap gap) (blank' : IsGap gap') : Lead false (gap ++ ',' :: gap')

/-- What stands between the name of a field and its value. -/
inductive Link : List Char → Prop where
  | colon {gap gap' : List Char} (blank : IsGap gap) (blank' : IsGap gap') : Link (gap ++ ':' :: gap')

mutual

/-- Whether a text spells a value. -/
inductive Spells : Json → List Char → Prop where
  | null : Spells .null "null".toList
  | boolean (b : Bool) : Spells (.boolean b) (if b then "true" else "false").toList
  | text {s : String} {body : List Char} (spelled : SpellsText s body) : Spells (.text s) ('"' :: body)
  | list {vs : List Json} {body : List Char} (spelled : SpellsItems true vs body) :
      Spells (.list vs) ('[' :: body)
  | object {fs : List (String × Json)} {body : List Char} (spelled : SpellsFields true fs body) :
      Spells (.object fs) ('{' :: body)

/-- Whether a text spells some items, of which one may be the first of its list, and the bracket behind
them. -/
inductive SpellsItems : Bool → List Json → List Char → Prop where
  | nil {first : Bool} {gap : List Char} (blank : IsGap gap) : SpellsItems first [] (gap ++ [']'])
  | cons {first : Bool} {lead text more : List Char} {v : Json} {vs : List Json} (led : Lead first lead)
      (spelled : Spells v text) (later : SpellsItems false vs more) :
      SpellsItems first (v :: vs) (lead ++ (text ++ more))

/-- Whether a text spells some fields, of which one may be the first of its object, and the brace behind
them. -/
inductive SpellsFields : Bool → List (String × Json) → List Char → Prop where
  | nil {first : Bool} {gap : List Char} (blank : IsGap gap) : SpellsFields first [] (gap ++ ['}'])
  | cons {first : Bool} {lead name link text more : List Char} {k : String} {v : Json}
      {fs : List (String × Json)} (led : Lead first lead) (named : SpellsText k name) (linked : Link link)
      (spelled : Spells v text) (later : SpellsFields false fs more) :
      SpellsFields first ((k, v) :: fs) (lead ++ '"' :: (name ++ (link ++ (text ++ more))))

end

/-- A spelled value begins with a character that tells it from a bracket and, unless it is null, from
that. -/
theorem Spells.exists_head {v : Json} {text : List Char} (spelled : Spells v text) :
    ∃ c cs, text = c :: cs ∧ isBlank c = false ∧ c ≠ ']' ∧ (c = 'n' → v = .null) := by
  cases spelled with
  | null => exact ⟨'n', _, rfl, rfl, by decide, fun _ => rfl⟩
  | boolean b => cases b <;> exact ⟨_, _, rfl, rfl, by decide, nofun⟩
  | text _ => exact ⟨'"', _, rfl, rfl, by decide, nofun⟩
  | list _ => exact ⟨'[', _, rfl, rfl, by decide, nofun⟩
  | object _ => exact ⟨'{', _, rfl, rfl, by decide, nofun⟩

/-- A list has fewer items than its spelling has characters. -/
theorem SpellsItems.length_lt {first : Bool} {vs : List Json} {text : List Char}
    (spelled : SpellsItems first vs text) : vs.length < text.length := by
  induction vs generalizing first text with
  | nil =>
    cases spelled
    simp
  | cons v vs ih =>
    cases spelled with
    | cons _ spelled later =>
      obtain ⟨c, cs, rfl, -⟩ := spelled.exists_head
      have less := ih later
      simp only [List.length_append, List.length_cons]
      omega

/-- An object has fewer fields than its spelling has characters. -/
theorem SpellsFields.length_lt {first : Bool} {fs : List (String × Json)} {text : List Char}
    (spelled : SpellsFields first fs text) : fs.length < text.length := by
  induction fs generalizing first text with
  | nil =>
    cases spelled
    simp
  | cons f fs ih =>
    cases spelled with
    | cons _ _ _ _ later =>
      have less := ih later
      simp only [List.length_append, List.length_cons]
      omega

/-! ## Readers of a value -/

/-- What a reader makes of a value, however it is spelled and whatever blanks stand before it. -/
def Reads (r : Read α) (v : Json) (result : Except Error α) : Prop :=
  ∀ gap text, IsGap gap → Spells v text → Gives r (gap ++ text) result

/-- What a reader makes of the value of a field from behind its name on, however it is spelled. -/
def ReadsNamed (r : Read α) (v : Json) (result : Except Error α) : Prop :=
  ∀ link text, Link link → Spells v text → Gives r (link ++ text) result

theorem Reads.map {r : Read α} {v : Json} {result : Except Error α} (g : α → β)
    (given : Reads r v result) : Reads (do pure (g (← r))) v (result.map g) :=
  fun gap text blank spelled => (given gap text blank spelled).map g

/-- A value is read behind the name of a field. -/
theorem Reads.behind_colon {r : Read α} {v : Json} {result : Except Error α} (given : Reads r v result) :
    ReadsNamed (do colon; r) v result := by
  intro link text linked spelled rest
  cases linked with
  | @colon gap gap' blank blank' =>
    have linked : Read.colon (gap ++ ':' :: (gap' ++ (text ++ rest))) = .ok ((), gap' ++ (text ++ rest)) := by
      rw [Read.colon, peek_bind_append blank, peek_bind_cons rfl]
      rfl
    have read := given gap' text blank' spelled rest
    rw [List.append_assoc] at read
    simp only [List.append_assoc, List.cons_append, bind_apply, linked, read]

/-- What spells a text is read as that text. -/
theorem textBody_append {s : String} {body : List Char} (spelled : SpellsText s body) (rest : List Char) :
    textBody (body ++ rest) = .ok (s, rest) := by
  rw [textBody, spelled]
  simp only [Except.map, String.ofList_toList]

/-- A text is read where one is expected. -/
theorem reads_expectText (expected s : String) : Reads (expectText expected) (.text s) (.ok s) := by
  intro gap text blank spelled rest
  cases spelled with
  | text spelled =>
    rw [expectText, List.append_assoc, peek_bind_append blank, List.cons_append, peek_bind_cons rfl]
    exact textBody_append spelled rest

/-- A text is read as a value, at whatever depth. -/
theorem reads_value_text (depth : Nat) (s : String) : Reads (value depth) (.text s) (.ok (.text s)) := by
  have given : ∀ inner, Reads (valueWith inner) (.text s) (.ok (.text s)) := by
    intro inner gap text blank spelled rest
    cases spelled with
    | text spelled =>
      unfold valueWith
      rw [List.append_assoc, peek_bind_append blank, List.cons_append, peek_bind_cons rfl]
      simp only [bind_apply, drop, List.tail_cons, textBody_append spelled]
      rfl
  cases depth with
  | zero => exact given none
  | succ depth => exact given (some (value depth))

/-- A boolean is read where one is expected. -/
theorem reads_expectBool (b : Bool) : Reads expectBool (.boolean b) (.ok b) := by
  intro gap text blank spelled rest
  cases spelled
  rw [expectBool, List.append_assoc, peek_bind_append blank]
  cases b with
  | true => exact Gives.map (fun _ => true) (gives_exactly "true".toList) rest
  | false => exact Gives.map (fun _ => false) (gives_exactly "false".toList) rest

/-- What may be null is read as it is, unless it is null. -/
theorem Reads.optional {r : Read α} {v : Json} {result : Except Error α} (given : Reads r v result)
    (other : v ≠ .null) : Reads (optional r) v (result.map some) := by
  intro gap text blank spelled rest
  obtain ⟨c, cs, rfl, solid, -, isNull⟩ := spelled.exists_head
  have notNull : c ≠ 'n' := fun same => other (isNull same)
  rw [Read.optional, List.append_assoc, peek_bind_append blank, List.cons_append, peek_bind_cons solid]
  simp only [Option.some.injEq, notNull, imp_false, not_false_eq_true]
  exact (given [] _ isGap_nil spelled).map some rest

/-- A null is read where nothing is expected. -/
theorem reads_optional_null (r : Read α) : Reads (optional r) .null (.ok none) := by
  intro gap text blank spelled rest
  cases spelled
  rw [optional, List.append_assoc, peek_bind_append blank]
  exact Gives.map (fun _ => none) (gives_exactly "null".toList) rest

/-- A name that is known is read as what it stands for. -/
theorem reads_variant {known : List (String × α)} {name : String} {a : α} (depth : Nat)
    (found : known.lookup name = some a) : Reads (variant depth known) (.text name) (.ok a) := by
  intro gap text blank spelled rest
  have named := reads_expectText "variant identifier" name [] text isGap_nil spelled rest
  cases spelled with
  | text spelled =>
    rw [List.nil_append, List.cons_append] at named
    rw [variant, List.append_assoc, peek_bind_append blank, List.cons_append, peek_bind_cons rfl]
    simp only [bind_apply, named, Except.map, found]
    rfl

/-! ## Lists -/

/-- What comes of reading some items one after the other. -/
inductive ReadsItems (item : σ → Read σ) : σ → List Json → Except Error σ → Prop where
  | nil {s : σ} : ReadsItems item s [] (.ok s)
  | cons {s s' : σ} {v : Json} {vs : List Json} {result : Except Error σ}
      (first : Reads (item s) v (.ok s')) (rest : ReadsItems item s' vs result) :
      ReadsItems item s (v :: vs) result
  | failed {s : σ} {v : Json} {vs : List Json} {e : Error} (first : Reads (item s) v (.error e)) :
      ReadsItems item s (v :: vs) (.error e)

section Items

variable {item : σ → Read σ} {s : σ} {v : Json} {vs : List Json} {result : Except Error σ}
  {first : Bool} {lead text : List Char}

/-- An item is read from its first character on, and then the items behind it. -/
theorem itemsFrom_lead (item : σ → Read σ) (s : σ) (led : Lead first lead) (spelled : Spells v text)
    (n : Nat) (cs : List Char) :
    itemsFrom item first (n + 1) s (lead ++ (text ++ cs)) =
      (item s >>= itemsFrom item false n) (text ++ cs) := by
  obtain ⟨c, text, rfl, solid, other, -⟩ := spelled.exists_head
  cases led with
  | first blank =>
    rw [itemsFrom, peek_bind_append blank, List.cons_append, peek_bind_cons solid]
    simp only [if_true]
  | next blank blank' =>
    rw [itemsFrom, List.append_assoc, peek_bind_append blank, List.cons_append, peek_bind_cons rfl]
    simp only [Char.reduceEq, imp_false, not_false_eq_true, Bool.false_eq_true, if_true, if_false, drop_bind,
      peek_bind_append blank', List.cons_append, peek_bind_cons solid]

/-- Items are read up to the bracket behind them, by induction on what comes of them. -/
theorem ReadsItems.itemsFrom_eq (given : ReadsItems item s vs result)
    (spelled : SpellsItems first vs text) {n : Nat} (enough : vs.length < n) (rest : List Char) :
    itemsFrom item first n s (text ++ rest) = result.map fun s' => (s', rest) := by
  obtain ⟨n, rfl⟩ := Nat.exists_eq_add_one_of_ne_zero (Nat.ne_zero_of_lt enough)
  induction given generalizing first text n with
  | nil =>
    cases spelled with
    | nil blank =>
      rw [itemsFrom, List.append_assoc, peek_bind_append blank, List.singleton_append, peek_bind_cons rfl]
      rfl
  | cons read _ ih =>
    cases spelled with
    | cons led spelled later =>
      rw [List.append_assoc, List.append_assoc, itemsFrom_lead item _ led spelled, bind_apply,
        ← List.nil_append (_ ++ _), ← List.append_assoc, read [] _ isGap_nil spelled]
      obtain ⟨n, rfl⟩ := Nat.exists_eq_add_one_of_ne_zero (Nat.ne_zero_of_lt (Nat.lt_of_succ_lt_succ enough))
      exact ih later n (Nat.lt_of_succ_lt_succ enough)
  | failed read =>
    cases spelled with
    | cons led spelled later =>
      rw [List.append_assoc, List.append_assoc, itemsFrom_lead item _ led spelled, bind_apply,
        ← List.nil_append (_ ++ _), ← List.append_assoc, read [] _ isGap_nil spelled]
      rfl

/-- The items of a list are read one after the other. -/
theorem ReadsItems.gives_items (given : ReadsItems item s vs result)
    (spelled : SpellsItems true vs text) : Gives (items item s) text result := by
  intro rest
  have enough := spelled.length_lt
  rw [items]
  exact given.itemsFrom_eq spelled (by rw [List.length_append]; omega) rest

end Items

/-! ## Objects -/

/-- What comes of reading some fields one after the other, from behind the name of each. -/
inductive ReadsFields (field : σ → String → Read σ) : σ → List (String × Json) → Except Error σ → Prop where
  | nil {s : σ} : ReadsFields field s [] (.ok s)
  | cons {s s' : σ} {k : String} {v : Json} {fs : List (String × Json)} {result : Except Error σ}
      (first : ReadsNamed (field s k) v (.ok s')) (rest : ReadsFields field s' fs result) :
      ReadsFields field s ((k, v) :: fs) result
  | failed {s : σ} {k : String} {v : Json} {fs : List (String × Json)} {e : Error}
      (first : ReadsNamed (field s k) v (.error e)) : ReadsFields field s ((k, v) :: fs) (.error e)

section Fields

variable {field : σ → String → Read σ} {s s' : σ} {fs gs : List (String × Json)}
  {result : Except Error σ} {first : Bool} {lead text : List Char}

/-- Fields that are read one list behind the other are read as one list. -/
theorem ReadsFields.append (given : ReadsFields field s fs (.ok s'))
    (rest : ReadsFields field s' gs result) : ReadsFields field s (fs ++ gs) result := by
  generalize whole : (Except.ok s' : Except Error σ) = intermediate at given
  induction given with
  | nil =>
    cases whole
    exact rest
  | cons first _ ih => exact .cons first (ih whole)
  | failed => cases whole

/-- One field is read as a list of one. -/
theorem ReadsFields.single {k : String} {v : Json} (given : ReadsNamed (field s k) v result) :
    ReadsFields field s [(k, v)] result := by
  cases result with
  | ok s' => exact .cons given .nil
  | error e => exact .failed given

/-- A field is read from behind its name on, and then the fields behind it. -/
theorem fieldsFrom_lead (field : σ → String → Read σ) (s : σ) (led : Lead first lead) {k : String}
    {name : List Char} (named : SpellsText k name) (n : Nat) (cs : List Char) :
    fieldsFrom field first (n + 1) s (lead ++ '"' :: (name ++ cs)) =
      (field s k >>= fieldsFrom field false n) cs := by
  have behind : fieldWith field s ('"' :: (name ++ cs)) = field s k cs := by
    rw [fieldWith, peek_bind_cons rfl]
    simp only [bind_apply, drop, List.tail_cons, textBody_append named]
  have whole : (fieldWith field s >>= fieldsFrom field false n) ('"' :: (name ++ cs)) =
      (field s k >>= fieldsFrom field false n) cs := by
    rw [bind_apply, behind, bind_apply]
  cases led with
  | first blank =>
    rw [fieldsFrom, peek_bind_append blank, peek_bind_cons rfl]
    exact whole
  | next blank blank' =>
    rw [fieldsFrom, List.append_assoc, peek_bind_append blank, List.cons_append, peek_bind_cons rfl]
    simp only [Option.some.injEq, Char.reduceEq, imp_false, not_false_eq_true, Bool.false_eq_true, if_true,
      if_false, drop_bind, peek_bind_append blank', peek_bind_cons (c := '"') rfl]
    exact whole

/-- Fields are read up to the brace behind them, which stays, by induction on what comes of them. -/
theorem ReadsFields.fieldsFrom_eq (given : ReadsFields field s fs result)
    (spelled : SpellsFields first fs text) {n : Nat} (enough : fs.length < n) (rest : List Char) :
    fieldsFrom field first n s (text ++ rest) = result.map fun s' => (s', '}' :: rest) := by
  obtain ⟨n, rfl⟩ := Nat.exists_eq_add_one_of_ne_zero (Nat.ne_zero_of_lt enough)
  induction given generalizing first text n with
  | nil =>
    cases spelled with
    | nil blank =>
      rw [fieldsFrom, List.append_assoc, peek_bind_append blank, List.singleton_append, peek_bind_cons rfl]
      rfl
  | cons read _ ih =>
    cases spelled with
    | @cons _ lead name link text more _ _ _ led named linked spelled later =>
      have value := read link text linked spelled (more ++ rest)
      obtain ⟨n, rfl⟩ := Nat.exists_eq_add_one_of_ne_zero (Nat.ne_zero_of_lt (Nat.lt_of_succ_lt_succ enough))
      simp only [List.append_assoc, List.cons_append] at value ⊢
      rw [fieldsFrom_lead field _ led named, bind_apply, value]
      exact ih later n (Nat.lt_of_succ_lt_succ enough)
  | failed read =>
    cases spelled with
    | @cons _ lead name link text more _ _ _ led named linked spelled later =>
      have value := read link text linked spelled (more ++ rest)
      simp only [List.append_assoc, List.cons_append] at value ⊢
      rw [fieldsFrom_lead field _ led named, bind_apply, value]
      rfl

/-- The fields of an object are read one after the other, and its brace stays. -/
theorem ReadsFields.fields_eq (given : ReadsFields field s fs result)
    (spelled : SpellsFields true fs text) (rest : List Char) :
    fields field s (text ++ rest) = result.map fun s' => (s', '}' :: rest) := by
  have enough := spelled.length_lt
  rw [fields]
  exact given.fieldsFrom_eq spelled (by rw [List.length_append]; omega) rest

end Fields

end RouteTrees.Json.Read
