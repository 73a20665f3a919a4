import RouteTrees.Proofs.Json.Layout

/-!
# The members of an object

The members of an object are read one after the other, each in its place or apart from the others. What is
read apart is cut out of the text first, from where it begins to where a reader that has no use for it goes
on; so it is shown that such a reader passes over a value to its end, however that is spelled.
-/

namespace RouteTrees.Json.Read

variable {α : Type}

/-! ## Passing over a value -/

/-- Where a reader that asks for less is in the same text: it goes on behind the first half of a pair as if
nothing had been begun. -/
def Place.loosen : Place → Place
  | .plain => .plain
  | .escape => .escape
  | .digits left value _ => .digits left value none
  | .between _ => .plain
  | .betweenEscape _ => .escape

/-- An escape that is accepted where halves are checked is accepted where they are not. -/
theorem escaped_loosen {number : Nat} {lead : Option Nat} {value : Option Char} {next : Place}
    (read : escaped true number lead = .ok (value, next)) :
    ∃ value', escaped false number none = .ok (value', next.loosen) := by
  unfold escaped at read ⊢
  cases lead with
  | none =>
    dsimp only at read ⊢
    split at read
    · next first =>
      cases read
      exact ⟨none, if_pos first⟩
    · next notFirst =>
      rw [if_neg notFirst]
      split at read
      · cases read
      · next notSecond =>
        cases read
        exact ⟨_, if_neg notSecond⟩
  | some lead =>
    dsimp only at read ⊢
    split at read
    · next second =>
      have notFirst : ¬(0xD800 ≤ number ∧ number ≤ 0xDBFF) := by omega
      cases read
      rw [if_neg notFirst]
      exact ⟨none, if_pos second⟩
    · cases read

/-- A text that ends where halves are checked ends there as well where they are not. -/
theorem textStep_loosen_end {place : Place} {c : Char} {rest : List Char}
    (ends : textStep true place c rest = .ok none) : textStep false place.loosen c rest = .ok none := by
  cases place with
  | plain => exact ends
  | digits left number lead =>
    obtain ⟨d, -, ⟨-, onward, -, never⟩ | ⟨-, never⟩⟩ := textStep_digits_cases ends <;> cases never
  | escape => grind [textStep]
  | between lead => grind [textStep]
  | betweenEscape lead => grind [textStep]

/-- A reader that asks for less goes on likewise. -/
theorem textStep_loosen {place next : Place} {c : Char} {rest : List Char} {value : Option Char}
    (read : textStep true place c rest = .ok (some (value, next))) :
    ∃ value', textStep false place.loosen c rest = .ok (some (value', next.loosen)) := by
  cases place with
  | plain => grind [textStep, Place.loosen]
  | escape => grind [textStep, Place.loosen]
  -- only the last digit of an escape asks whether it completes a pair
  | digits left number lead =>
    rw [Place.loosen]
    obtain ⟨d, digit, ⟨last, onward, complete, same⟩ | ⟨more, same⟩⟩ := textStep_digits_cases read
    · cases same
      obtain ⟨value', complete'⟩ := escaped_loosen complete
      rw [textStep, digit]
      dsimp only
      rw [if_pos last, complete']
      exact ⟨value', rfl⟩
    · cases same
      rw [textStep, digit]
      exact ⟨none, if_neg more⟩
  | between lead =>
    unfold textStep at read
    dsimp only at read
    split at read
    · next backslash =>
      cases read
      subst backslash
      exact ⟨none, rfl⟩
    · cases read
  | betweenEscape lead =>
    rw [Place.loosen]
    unfold textStep at read ⊢
    dsimp only at read ⊢
    split at read
    · next letter =>
      rw [if_pos letter]
      split at read
      · cases read
      · next enough =>
        cases read
        rw [if_neg enough]
        exact ⟨none, rfl⟩
    · cases read

/-- Where a text between quotes ends does not depend on how much is asked for, by induction on the text. -/
theorem textFrom_loosen {place : Place} {cs s rest : List Char} (read : textFrom true place cs = .ok (s, rest)) :
    ∃ s', textFrom false place.loosen cs = .ok (s', rest) := by
  induction cs generalizing place s with
  | nil =>
    rw [textFrom] at read
    cases read
  | cons c cs ih =>
    rw [textFrom_cons] at read ⊢
    cases step : textStep true place c cs with
    | error e =>
      rw [step] at read
      cases read
    | ok step' =>
      rw [step] at read
      cases step' with
      | none =>
        cases read
        rw [textStep_loosen_end step]
        exact ⟨[], rfl⟩
      | some onward =>
        obtain ⟨value, next⟩ := onward
        dsimp only at read
        cases later : textFrom true next cs with
        | error e =>
          rw [later] at read
          cases read
        | ok found =>
          obtain ⟨more, rest⟩ := found
          rw [later] at read
          cases read
          obtain ⟨value', step'⟩ := textStep_loosen step
          obtain ⟨more', later'⟩ := ih later
          rw [step']
          dsimp only
          rw [later']
          exact ⟨_, rfl⟩

/-- What spells a text is skipped. -/
theorem skipText_append {s : String} {body : List Char} (spelled : SpellsText s body) (rest : List Char) :
    skipText (body ++ rest) = .ok ((), rest) := by
  obtain ⟨s', skipped⟩ := textFrom_loosen (spelled rest)
  rw [Place.loosen] at skipped
  rw [skipText, skipped]
  rfl

section Skip

variable (n : Nat)

/-- A null is skipped. -/
theorem reads_skip_null : Reads (skipValue (n + 1)) .null (.ok ()) := by
  intro gap text blank spelled rest
  cases spelled
  rw [skipValue, List.append_assoc, peek_bind_append blank]
  exact gives_exactly "null".toList rest

/-- A boolean is skipped. -/
theorem reads_skip_boolean (b : Bool) : Reads (skipValue (n + 1)) (.boolean b) (.ok ()) := by
  intro gap text blank spelled rest
  cases spelled
  rw [skipValue, List.append_assoc, peek_bind_append blank]
  cases b with
  | true => exact gives_exactly "true".toList rest
  | false => exact gives_exactly "false".toList rest

/-- A text is skipped. -/
theorem reads_skip_text (s : String) : Reads (skipValue (n + 1)) (.text s) (.ok ()) := by
  intro gap text blank spelled rest
  cases spelled with
  | text spelled =>
    rw [skipValue, List.append_assoc, peek_bind_append blank, List.cons_append, peek_bind_cons rfl]
    exact skipText_append spelled rest

/-- A list is skipped if its items are. -/
theorem ReadsItems.reads_skip {vs : List Json} (given : ReadsItems (fun _ => skipValue n) () vs (.ok ())) :
    Reads (skipValue (n + 1)) (.list vs) (.ok ()) := by
  intro gap text blank spelled rest
  cases spelled with
  | list spelled =>
    rw [skipValue, List.append_assoc, peek_bind_append blank, List.cons_append, peek_bind_cons rfl]
    exact given.gives_items spelled rest

/-- An object is skipped if its fields are. -/
theorem ReadsFields.reads_skip {fs : List (String × Json)}
    (given : ReadsFields (fun _ _ => do colon; skipValue n) () fs (.ok ())) :
    Reads (skipValue (n + 1)) (.object fs) (.ok ()) := by
  intro gap text blank spelled rest
  cases spelled with
  | object spelled =>
    have read := given.fields_eq spelled rest
    rw [skipValue, List.append_assoc, peek_bind_append blank, List.cons_append, peek_bind_cons rfl]
    show (fields _ () >>= fun _ => drop) _ = _
    rw [bind_apply, List.tail_cons, read]
    rfl

end Skip

mutual

/-- What spells a value is skipped, by induction on the spelling. -/
theorem reads_skipValue {v : Json} {text : List Char} (spelled : Spells v text) {n : Nat}
    (enough : text.length < n) : Reads (skipValue n) v (.ok ()) := by
  obtain ⟨n, rfl⟩ := Nat.exists_eq_add_one_of_ne_zero (Nat.ne_zero_of_lt enough)
  cases spelled with
  | null => exact reads_skip_null n
  | boolean b => exact reads_skip_boolean n b
  | text _ => exact reads_skip_text n _
  | list spelled => exact (reads_skipItems spelled (Nat.lt_of_succ_lt_succ enough)).reads_skip n
  | object spelled => exact (reads_skipFields spelled (Nat.lt_of_succ_lt_succ enough)).reads_skip n

/-- What spells the items of a list is skipped. -/
theorem reads_skipItems {first : Bool} {vs : List Json} {text : List Char}
    (spelled : SpellsItems first vs text) {n : Nat} (enough : text.length < n) :
    ReadsItems (fun _ => skipValue n) () vs (.ok ()) := by
  cases spelled with
  | nil _ => exact .nil
  | cons _ spelled later =>
    simp only [List.length_append] at enough
    exact .cons (reads_skipValue spelled (by omega)) (reads_skipItems later (by omega))

/-- What spells the fields of an object is skipped. -/
theorem reads_skipFields {first : Bool} {fs : List (String × Json)} {text : List Char}
    (spelled : SpellsFields first fs text) {n : Nat} (enough : text.length < n) :
    ReadsFields (fun _ _ => do colon; skipValue n) () fs (.ok ()) := by
  cases spelled with
  | nil _ => exact .nil
  | cons _ _ _ spelled later =>
    simp only [List.length_append, List.length_cons] at enough
    exact .cons (reads_skipValue spelled (by omega)).behind_colon (reads_skipFields later (by omega))

end

/-- A value that is not used is passed over, however it is spelled. -/
theorem reads_ignored (v : Json) : Reads ignored v (.ok ()) := by
  intro gap text blank spelled rest
  have enough : text.length < (gap ++ text ++ rest).length + 1 := by
    simp only [List.length_append]
    omega
  exact reads_skipValue spelled enough gap text blank spelled rest

/-! ## Members one after the other -/

/-- Reads the members of an object in their order, each value by a reader that is given the depth still
allowed. -/
def members (read : Nat → Read α) (depth : Nat) : Read (List (String × α)) := do
  match ← peek with
  | none => unfinished
  | some '{' =>
    if depth = 0 then malformed
    else
      drop
      let found ← fields (fun found name => do
        colon
        pure (found ++ [(name, ← read (depth - 1))])) []
      drop
      pure found
  | some _ => wrongType "a map"

/-- Reads a value apart from what is around it: passes over the value, whatever it is, and answers what a
reader makes of its text as a whole. -/
def apart (read : Read α) : Read (Except Error α) := fun cs =>
  (ignored cs).map fun skipped =>
    (parse read (String.ofList (cs.take (cs.length - skipped.2.length))), skipped.2)

/-- Reading with a result of its own gives that result. -/
theorem Reads.apart {read : Read α} {v : Json} {result : Except Error α} (given : Reads read v result) :
    Reads (apart read) v (.ok result) := by
  intro gap text blank spelled rest
  have own : (gap ++ text ++ rest).take ((gap ++ text ++ rest).length - rest.length) = gap ++ text := by
    rw [List.length_append, Nat.add_sub_cancel, List.take_left']
    rfl
  rw [Read.apart, reads_ignored v gap text blank spelled rest]
  simp only [Except.map, own, (given gap text blank spelled).parse_eq]

variable {ι : Type} {read : Read α} {name : ι → String} {value : ι → Json} {result : ι → Except Error α}

/-- The fields of an object are read by their names, if each value is. -/
theorem readsFields_members {xs : List ι} (given : ∀ x ∈ xs, Reads read (value x) (result x))
    (found : List (String × α)) :
    ReadsFields (fun found name => do
        colon
        pure (found ++ [(name, ← read)])) found (xs.map fun x => (name x, value x))
      ((xs.mapM fun x => (result x).map fun a => (name x, a)).map (found ++ ·)) := by
  induction xs generalizing found with
  | nil =>
    have same : found = found ++ [] := (List.append_nil found).symm
    show ReadsFields _ found [] (.ok (found ++ []))
    rw [← same]
    exact .nil
  | cons x xs ih =>
    obtain ⟨first, later⟩ := List.forall_mem_cons.mp given
    have member := (first.map fun a => found ++ [(name x, a)]).behind_colon
    rw [List.map_cons, List.mapM_cons]
    cases own : result x with
    | error e =>
      rw [own] at member
      exact .failed member
    | ok a =>
      rw [own] at member
      have more := ih later (found ++ [(name x, a)])
      have same : ∀ others : Except Error (List (String × α)),
          others.map (found ++ [(name x, a)] ++ ·) =
            (others.bind fun bs => .ok ((name x, a) :: bs)).map (found ++ ·) := by
        intro others
        cases others with
        | error e => rfl
        | ok bs => simp [Except.map, Except.bind]
      rw [same] at more
      exact .cons member more

/-- The members of an object are read in their order, up to the first that cannot be read. -/
theorem reads_members {xs : List ι} (read : Nat → Read α) (depth : Nat)
    (given : ∀ x ∈ xs, Reads (read depth) (value x) (result x)) :
    Reads (members read (depth + 1)) (.object (xs.map fun x => (name x, value x)))
      (xs.mapM fun x => (result x).map fun a => (name x, a)) := by
  intro gap text blank spelled rest
  cases spelled with
  | object spelled =>
    have fields := (readsFields_members given []).fields_eq spelled rest
    rw [members, List.append_assoc, peek_bind_append blank, List.cons_append, peek_bind_cons rfl]
    simp only [if_neg (Nat.succ_ne_zero depth), bind_apply, drop, List.tail_cons, Nat.add_sub_cancel, fields]
    cases xs.mapM fun x => (result x).map fun a => (name x, a) with
    | error e => rfl
    | ok found => rfl

end RouteTrees.Json.Read
