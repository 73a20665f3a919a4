import RouteTrees.Proofs.Json.Spelling

/-!
# How a value is written

The compact text of a value and the one that is laid out on lines both spell it, unless there are numbers in
it. The compact text still does if its characters have been put in another way of which readers take no
notice.
-/

namespace RouteTrees.Json

/-- Whether there are no numbers in a value. -/
inductive Numberless : Json → Prop where
  | null : Numberless .null
  | boolean (b : Bool) : Numberless (.boolean b)
  | text (s : String) : Numberless (.text s)
  | list {vs : List Json} (all : ∀ v ∈ vs, Numberless v) : Numberless (.list vs)
  | object {fs : List (String × Json)} (all : ∀ f ∈ fs, Numberless f.2) : Numberless (.object fs)

namespace Read

/-! ## Items and fields that are written alike -/

section Alike

variable (write : Json → List Char) {lead gap : List Char}

/-- Items that are each written behind a lead spell a list. -/
theorem spellsItems_flatMap (led : Lead false lead) (blank : IsGap gap) {vs : List Json}
    (all : ∀ v ∈ vs, Spells v (write v)) :
    SpellsItems false vs ((vs.flatMap fun v => lead ++ write v) ++ (gap ++ [']'])) := by
  induction vs with
  | nil => exact .nil blank
  | cons v vs ih =>
    obtain ⟨first, later⟩ := List.forall_mem_cons.mp all
    rw [List.flatMap_cons, List.append_assoc, List.append_assoc]
    exact .cons led first (ih later)

/-- Fields that are each written behind a lead spell an object. -/
theorem spellsFields_flatMap {name : String → List Char} {link : List Char} (led : Lead false lead)
    (named : ∀ k, SpellsText k (name k)) (linked : Link link) (blank : IsGap gap)
    {fs : List (String × Json)} (all : ∀ f ∈ fs, Spells f.2 (write f.2)) :
    SpellsFields false fs
      ((fs.flatMap fun f => lead ++ '"' :: (name f.1 ++ (link ++ write f.2))) ++ (gap ++ ['}'])) := by
  induction fs with
  | nil => exact .nil blank
  | cons f fs ih =>
    obtain ⟨first, later⟩ := List.forall_mem_cons.mp all
    have fields := SpellsFields.cons led (named f.1) linked first (ih later)
    rw [List.flatMap_cons]
    simp only [List.append_assoc, List.cons_append] at fields ⊢
    exact fields

end Alike

/-! ## The compact text -/

/-- The items behind the first one, as they are written. -/
def moreItems : List Json → List Char
  | [] => []
  | v :: vs => ',' :: compactItems (v :: vs)

/-- Items are written as the first and what follows it. -/
theorem compactItems_cons (v : Json) (vs : List Json) :
    compactItems (v :: vs) = compact v ++ moreItems vs := by
  cases vs with
  | nil => rw [compactItems, moreItems, List.append_nil]
  | cons w vs =>
    rw [compactItems, moreItems]
    exact List.cons_ne_nil w vs

/-- The fields behind the first one, as they are written. -/
def moreFields : List (String × Json) → List Char
  | [] => []
  | f :: fs => ',' :: compactFields (f :: fs)

/-- Fields are written as the first and what follows it. -/
theorem compactFields_cons (k : String) (v : Json) (fs : List (String × Json)) :
    compactFields ((k, v) :: fs) = quote k ++ ':' :: compact v ++ moreFields fs := by
  cases fs with
  | nil => rw [compactFields, moreFields, List.append_nil]
  | cons f fs =>
    rw [compactFields, moreFields]
    exact List.cons_ne_nil f fs

section Compact

variable {put : Char → List Char}

/-- A respelled text between quotes spells the text. -/
theorem spellsText_of_respells (respells : Respells put) (s : String) :
    SpellsText s ((s.toList.flatMap escapeChar).flatMap put ++ ['"']) := by
  intro rest
  have all : ∀ cs : List Char,
      textFrom true .plain ((cs.flatMap escapeChar).flatMap put ++ '"' :: rest) = .ok (cs, rest) := by
    intro cs
    induction cs with
    | nil => rw [List.flatMap_nil, List.flatMap_nil, List.nil_append, textFrom_cons]; rfl
    | cons c cs ih =>
      rw [List.flatMap_cons, List.flatMap_append, List.append_assoc, respells.within, ih]
      rfl
  rw [List.append_assoc, List.singleton_append, all]

/-- A respelled quotation spells the value that is a text. -/
theorem spells_quote (respells : Respells put) (s : String) :
    Spells (.text s) ((quote s).flatMap put) := by
  rw [respells.quote_eq]
  exact .text (spellsText_of_respells respells s)

/-- Items behind the first are each led by a comma, respelled or not. -/
theorem Respells.moreItems_eq (respells : Respells put) (vs : List Json) :
    (moreItems vs).flatMap put = vs.flatMap fun v => [','] ++ (compact v).flatMap put := by
  induction vs with
  | nil => rfl
  | cons v vs ih =>
    rw [moreItems, compactItems_cons, respells.cons (by decide), List.flatMap_append, ih, List.flatMap_cons]
    rfl

/-- Fields behind the first are each led by a comma, respelled or not. -/
theorem Respells.moreFields_eq (respells : Respells put) (fs : List (String × Json)) :
    (moreFields fs).flatMap put = fs.flatMap fun f =>
      [','] ++ '"' :: ((f.1.toList.flatMap escapeChar).flatMap put ++ ['"'] ++
        ([':'] ++ (compact f.2).flatMap put)) := by
  induction fs with
  | nil => rfl
  | cons f fs ih =>
    obtain ⟨k, v⟩ := f
    rw [moreFields, compactFields_cons, respells.cons (by decide), List.flatMap_append,
      List.flatMap_append, respells.quote_eq, respells.cons (by decide), ih, List.flatMap_cons]
    rfl

/-- The compact text spells its value, by induction on the value. -/
theorem spells_compact (respells : Respells put) {v : Json} (numberless : v.Numberless) :
    Spells v ((compact v).flatMap put) := by
  have comma : Lead false [','] := .next isGap_nil isGap_nil
  have colon : Link [':'] := .colon isGap_nil isGap_nil
  induction numberless with
  | null =>
    have word : (compact .null).flatMap put = "null".toList := respells.word (by decide)
    rw [word]
    exact .null
  | boolean b =>
    have word : (compact (.boolean b)).flatMap put = (if b then "true" else "false").toList := by
      cases b <;> exact respells.word (by decide)
    rw [word]
    exact .boolean b
  | text s => exact spells_quote respells s
  | @list vs _ ih =>
    rw [compact, List.cons_append, respells.cons (by decide), List.flatMap_append,
      respells.mark ']' (by decide)]
    refine .list ?_
    cases vs with
    | nil => exact .nil isGap_nil
    | cons v vs =>
      obtain ⟨first, later⟩ := List.forall_mem_cons.mp ih
      have more := spellsItems_flatMap (fun v => (compact v).flatMap put) comma isGap_nil later
      have items := SpellsItems.cons (.first isGap_nil) first more
      rw [compactItems_cons, List.flatMap_append, respells.moreItems_eq, List.append_assoc]
      exact items
  | @object fs _ ih =>
    rw [compact, List.cons_append, respells.cons (by decide), List.flatMap_append,
      respells.mark '}' (by decide)]
    refine .object ?_
    cases fs with
    | nil => exact .nil isGap_nil
    | cons f fs =>
      obtain ⟨k, v⟩ := f
      obtain ⟨first, later⟩ := List.forall_mem_cons.mp ih
      have more := spellsFields_flatMap (fun v => (compact v).flatMap put) comma
        (spellsText_of_respells respells) colon isGap_nil later
      have fields := SpellsFields.cons (.first isGap_nil) (spellsText_of_respells respells k) colon first more
      rw [compactFields_cons, List.flatMap_append, List.flatMap_append, respells.moreFields_eq,
        respells.quote_eq, respells.cons (by decide)]
      simp only [List.append_assoc, List.cons_append, List.nil_append] at fields ⊢
      exact fields

end Compact

/-! ## The text on lines -/

theorem isGap_newLine (level : Nat) : IsGap (newLine level) := by
  rw [IsGap, newLine, List.all_cons, List.all_replicate]
  exact Bool.and_eq_true_iff.mpr ⟨rfl, by simp [isBlank]⟩

/-- Items behind the first are each led by a comma and a new line. -/
theorem prettyItems_eq (level : Nat) (vs : List Json) :
    prettyItems level vs = vs.flatMap fun v => (',' :: newLine level) ++ pretty level v := by
  induction vs with
  | nil => rfl
  | cons v vs ih => rw [prettyItems, ih, List.flatMap_cons]

/-- Fields behind the first are each led by a comma and a new line. -/
theorem prettyFields_eq (level : Nat) (fs : List (String × Json)) :
    prettyFields level fs = fs.flatMap fun f =>
      (',' :: newLine level) ++ '"' :: ((f.1.toList.flatMap escapeChar ++ ['"']) ++
        ([':', ' '] ++ pretty level f.2)) := by
  induction fs with
  | nil => rfl
  | cons f fs ih =>
    obtain ⟨k, v⟩ := f
    rw [prettyFields, ih, List.flatMap_cons, quote]
    simp only [List.append_assoc, List.cons_append, List.nil_append]

/-- The indented text spells its value, by induction on the value. -/
theorem spells_pretty {v : Json} (numberless : v.Numberless) : ∀ level, Spells v (pretty level v) := by
  have named : ∀ s : String, SpellsText s (s.toList.flatMap escapeChar ++ ['"']) := by
    intro s
    have same := spellsText_of_respells respells_self s
    rwa [List.flatMap_singleton'] at same
  have comma : ∀ level, Lead false (',' :: newLine level) := fun level => .next isGap_nil (isGap_newLine level)
  have colon : Link [':', ' '] := .colon isGap_nil (rfl : IsGap [' '])
  induction numberless with
  | null => exact fun _ => .null
  | boolean b => exact fun _ => .boolean b
  | text s => exact fun _ => .text (named s)
  | @list vs _ ih =>
    intro level
    cases vs with
    | nil => exact .list (.nil isGap_nil)
    | cons v vs =>
      obtain ⟨first, later⟩ := List.forall_mem_cons.mp ih
      have more := spellsItems_flatMap (pretty (level + 1)) (comma (level + 1)) (isGap_newLine level)
        fun v mem => later v mem (level + 1)
      have items := SpellsItems.cons (.first (isGap_newLine (level + 1))) (first (level + 1)) more
      rw [pretty, prettyItems_eq]
      simp only [List.append_assoc, List.cons_append] at items ⊢
      exact .list items
  | @object fs _ ih =>
    intro level
    cases fs with
    | nil => exact .object (.nil isGap_nil)
    | cons f fs =>
      obtain ⟨k, v⟩ := f
      obtain ⟨first, later⟩ := List.forall_mem_cons.mp ih
      have more := spellsFields_flatMap (pretty (level + 1)) (comma (level + 1)) named colon
        (isGap_newLine level) fun f mem => later f mem (level + 1)
      have fields := SpellsFields.cons (.first (isGap_newLine (level + 1))) (named k) colon
        (first (level + 1)) more
      rw [pretty, prettyFields_eq, quote]
      simp only [List.append_assoc, List.cons_append, List.nil_append] at fields ⊢
      exact .object fields

end Read

end RouteTrees.Json
