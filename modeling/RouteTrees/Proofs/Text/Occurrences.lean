/-!
# Where a mark occurs in a text

`behind` finds a mark wherever it stands in a text, also within what is meant otherwise. A text that has
been put together is looked through one part at a time: an occurrence can only reach from one part into
the next if the mark holds the character at which the next one begins.
-/

namespace RouteTrees.Text

/-- What stands behind each place at which a mark occurs in a text, in order. -/
def behind (mark : List Char) : List Char → List (List Char)
  | [] => []
  | c :: cs =>
    if mark <+: c :: cs then (c :: cs).drop mark.length :: behind mark cs else behind mark cs

/-- How often a mark occurs in a text. -/
def occurrences (mark text : String) : Nat := (behind mark.toList text.toList).length

/-- What stands before the first place at which a mark occurs, if it does. -/
def upTo? (mark : List Char) : List Char → Option (List Char)
  | [] => none
  | c :: cs => if mark <+: c :: cs then some [] else (upTo? mark cs).map (c :: ·)

variable {mark text before after : List Char} {c : Char}

/-! ## Texts without a mark -/

/-- A mark does not occur where a part of it does not. -/
theorem behind_eq_nil_of_infix {part : List Char} (within : part <:+: mark) (absent : ¬part <:+: text) :
    behind mark text = [] := by
  induction text with
  | nil => rfl
  | cons c cs ih =>
    have notHere : ¬mark <+: c :: cs := fun here => absent (within.trans here.isInfix)
    rw [behind, if_neg notHere]
    exact ih fun later => absent (List.infix_cons later)

/-- A text that lacks one character of a mark has nothing behind that mark. -/
theorem behind_eq_nil_of_not_mem (mem : c ∈ mark) (absent : c ∉ text) : behind mark text = [] := by
  obtain ⟨s, t, rfl⟩ := List.append_of_mem mem
  have within : [c] <:+: s ++ c :: t := ⟨s, t, by simp⟩
  exact behind_eq_nil_of_infix within fun found => absent (found.subset (List.mem_singleton_self c))

/-- A character that a mark does not have can be left out before it is looked for. -/
theorem behind_cons_of_not_mem (nonempty : mark ≠ []) (absent : c ∉ mark) (cs : List Char) :
    behind mark (c :: cs) = behind mark cs := by
  rw [behind, if_neg]
  intro here
  obtain ⟨m, ms, rfl⟩ := List.exists_cons_of_ne_nil nonempty
  exact absent ((List.cons_prefix_cons.mp here).1 ▸ List.mem_cons_self)

/-! ## Texts in two parts -/

/-- A character that is in neither of two parts shows where they end. -/
theorem append_cons_inj {first second restFirst restSecond : List Char} (inFirst : c ∉ first)
    (inSecond : c ∉ second) (same : first ++ c :: restFirst = second ++ c :: restSecond) :
    first = second ∧ restFirst = restSecond := by
  induction first generalizing second with
  | nil =>
    cases second with
    | nil => exact ⟨rfl, (List.cons.inj same).2⟩
    | cons d ds => exact absurd ((List.cons.inj same).1 ▸ List.mem_cons_self) inSecond
  | cons b bs ih =>
    cases second with
    | nil => exact absurd ((List.cons.inj same).1 ▸ List.mem_cons_self) inFirst
    | cons d ds =>
      obtain ⟨rfl, later⟩ := List.cons.inj same
      have both := ih (fun mem => inFirst (List.mem_cons_of_mem b mem))
        (fun mem => inSecond (List.mem_cons_of_mem b mem)) later
      exact ⟨congrArg (b :: ·) both.1, both.2⟩

/-- A mark begins a text only before the first character that it does not have. -/
theorem prefix_append_cons_iff (absent : c ∉ mark) :
    mark <+: before ++ c :: after ↔ mark <+: before := by
  induction before generalizing mark with
  | nil =>
    cases mark with
    | nil => simp
    | cons m ms =>
      have ne : m ≠ c := fun same => absent (same ▸ List.mem_cons_self)
      simp [List.cons_prefix_cons, ne]
  | cons b bs ih =>
    cases mark with
    | nil => simp
    | cons m ms =>
      rw [List.cons_append, List.cons_prefix_cons, List.cons_prefix_cons,
        ih fun mem => absent (List.mem_cons_of_mem m mem)]

/-- An occurrence does not reach over a character that the mark can only begin with. -/
theorem behind_append_cons (absent : c ∉ mark.tail) (before after : List Char) :
    behind mark (before ++ c :: after) =
      (behind mark before).map (· ++ c :: after) ++ behind mark (c :: after) := by
  induction before with
  | nil => rfl
  | cons b bs ih =>
    have same : mark <+: b :: (bs ++ c :: after) ↔ mark <+: b :: bs := by
      cases mark with
      | nil => simp
      | cons m ms =>
        have rest : ms <+: bs ++ c :: after ↔ ms <+: bs := prefix_append_cons_iff absent
        rw [List.cons_prefix_cons, List.cons_prefix_cons, rest]
    rw [List.cons_append, behind, behind, ih]
    by_cases here : mark <+: b :: bs
    · have whole : (b :: (bs ++ c :: after)).drop mark.length =
          (b :: bs).drop mark.length ++ c :: after := List.drop_append_of_le_length here.length_le
      rw [if_pos here, if_pos (same.mpr here), whole]
      rfl
    · rw [if_neg here, if_neg (mt same.mp here)]

/-- Nothing that ends behind a character is passed over: where the mark and the text go on differently from
a character on that neither holds before, no occurrence reaches over it. -/
theorem behind_of_differ {first second : List Char} (inMark : c ∉ first) (inText : c ∉ before)
    (differ : ¬second <+: after) :
    behind (first ++ c :: second) (before ++ c :: after) = behind (first ++ c :: second) after := by
  have never : ∀ cs, c ∉ cs → ¬first ++ c :: second <+: cs ++ c :: after := by
    intro cs notIn here
    obtain ⟨more, whole⟩ := here
    rw [List.append_assoc, List.cons_append] at whole
    obtain ⟨-, rest⟩ := append_cons_inj inMark notIn whole
    exact differ ⟨more, rest⟩
  induction before with
  | nil =>
    have notHere := never [] List.not_mem_nil
    rw [List.nil_append] at notHere ⊢
    rw [behind, if_neg notHere]
  | cons b bs ih =>
    have notHere := never (b :: bs) inText
    rw [List.cons_append] at notHere ⊢
    rw [behind, if_neg notHere]
    exact ih fun mem => inText (List.mem_cons_of_mem b mem)

/-! ## Parts in which a mark does not begin -/

/-- Whether no occurrence of a mark begins in a text, whatever follows the text. -/
def Clear (mark text : List Char) : Prop := ∀ rest, behind mark (text ++ rest) = behind mark rest

/-- Whether a text and a mark part ways from each place of the text on. -/
def partsFrom (mark : List Char) : List Char → Bool
  | [] => true
  | c :: cs => !mark.isPrefixOf (c :: cs) && !(c :: cs).isPrefixOf mark && partsFrom mark cs

/-- A text that parts ways with a mark from each of its places on is clear of it. -/
theorem clear_of_partsFrom (parts : partsFrom mark text = true) : Clear mark text := by
  intro rest
  induction text with
  | nil => rfl
  | cons c cs ih =>
    simp only [partsFrom, Bool.and_eq_true, Bool.not_eq_true', Bool.eq_false_iff, ne_eq,
      List.isPrefixOf_iff_prefix] at parts
    obtain ⟨⟨longer, shorter⟩, later⟩ := parts
    have notHere : ¬mark <+: c :: (cs ++ rest) := by
      intro here
      rcases List.prefix_or_prefix_of_prefix here (List.prefix_append (c :: cs) rest) with fits | fits
      · exact longer fits
      · exact shorter fits
    rw [List.cons_append, behind, if_neg notHere]
    exact ih later

/-- Two texts that are clear of a mark are clear of it together. -/
theorem Clear.append {other : List Char} (first : Clear mark text) (second : Clear mark other) :
    Clear mark (text ++ other) := by
  intro rest
  rw [List.append_assoc, first, second]

/-- A text without the first character of a mark is clear of it. -/
theorem clear_of_not_mem {m : Char} {ms : List Char} (absent : m ∉ text) : Clear (m :: ms) text := by
  intro rest
  induction text with
  | nil => rfl
  | cons c cs ih =>
    have notHere : ¬m :: ms <+: c :: (cs ++ rest) := fun here =>
      absent ((List.cons_prefix_cons.mp here).1 ▸ List.mem_cons_self)
    rw [List.cons_append, behind, if_neg notHere]
    exact ih fun mem => absent (List.mem_cons_of_mem c mem)

/-- Where a mark stands, it occurs, and no more often if none begins within it. -/
theorem behind_self (nonempty : mark ≠ []) (clear : Clear mark mark.tail) (rest : List Char) :
    behind mark (mark ++ rest) = rest :: behind mark rest := by
  obtain ⟨m, ms, rfl⟩ := List.exists_cons_of_ne_nil nonempty
  have here : m :: ms <+: m :: (ms ++ rest) := List.prefix_append (m :: ms) rest
  rw [List.tail_cons] at clear
  rw [List.cons_append, behind, if_pos here, clear]
  congr 1
  exact List.drop_left

/-- Up to a mark stands what is before it, if that lacks its first character. -/
theorem upTo?_append {m : Char} {ms : List Char} (absent : m ∉ text) (rest : List Char) :
    upTo? (m :: ms) (text ++ (m :: ms ++ rest)) = some text := by
  induction text with
  | nil =>
    have here : m :: ms <+: m :: (ms ++ rest) := List.prefix_append (m :: ms) rest
    rw [List.nil_append, List.cons_append, upTo?, if_pos here]
  | cons c cs ih =>
    have notHere : ¬m :: ms <+: c :: (cs ++ (m :: ms ++ rest)) := fun here =>
      absent ((List.cons_prefix_cons.mp here).1 ▸ List.mem_cons_self)
    rw [List.cons_append, upTo?, if_neg notHere, ih fun mem => absent (List.mem_cons_of_mem c mem)]
    rfl

end RouteTrees.Text
