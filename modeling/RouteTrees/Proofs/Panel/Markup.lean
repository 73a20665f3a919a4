import RouteTrees.Json.Reader
import RouteTrees.Panel.Page

/-!
# Text in markup

A text from outside stands in the page with references in place of the characters that can end an
attribute or begin a tag. None of these is left in it, and whoever puts characters in place of references
has the text again; so different texts are written differently.
-/

namespace RouteTrees.Panel

/-! ## References -/

/-- The number that hexadecimal digits are. -/
def hexadecimal? (digits : List Char) : Option Nat :=
  digits.foldlM (fun n c => (Json.Read.digit? c).map (n * 16 + ·)) 0

/-- The character that a reference stands for, by its name: what is between the ampersand and the
semicolon. -/
def referred? : List Char → Option Char
  | ['a', 'm', 'p'] => some '&'
  | ['l', 't'] => some '<'
  | ['g', 't'] => some '>'
  | ['q', 'u', 'o', 't'] => some '"'
  | '#' :: 'x' :: d :: ds => (hexadecimal? (d :: ds)).map Char.ofNat
  | _ => none

/-- Puts characters in place of references; of one that has begun, the name as far as it has been read.
What is no reference stays as it is. -/
def dereference : Option (List Char) → List Char → List Char
  | none, [] => []
  | some name, [] => '&' :: name
  | none, c :: cs => if c = '&' then dereference (some []) cs else c :: dereference none cs
  | some name, c :: cs =>
    if c = ';' then
      match referred? name with
      | some d => d :: dereference none cs
      | none => '&' :: name ++ ';' :: dereference none cs
    else if c = '&' then '&' :: name ++ dereference (some []) cs
    else dereference (some (name ++ [c])) cs

/-- The text that is written in an attribute or between tags. -/
def plainText (written : List Char) : String := String.ofList (dereference none written)

/-- An escaped character is dereferenced to itself. -/
theorem dereference_escapeMarkup (c : Char) (cs : List Char) :
    dereference none ((escapeMarkup c).toList ++ cs) = c :: dereference none cs := by
  unfold escapeMarkup
  -- the five characters that are written as references
  iterate 5
    split
    · next same =>
      subst same
      rfl
  next ampersand _ _ _ _ =>
    have single : (String.singleton c).toList = [c] := String.toList_singleton c
    rw [single, List.singleton_append, dereference, if_neg ampersand]

theorem toList_markup (s : String) :
    (markup s).toList = s.toList.flatMap fun c => (escapeMarkup c).toList := by
  rw [markup, String.toList_join, List.flatMap_map]

/-- A text reads back from how it is written. -/
theorem plainText_markup (s : String) : plainText (markup s).toList = s := by
  have all : ∀ cs : List Char,
      dereference none (cs.flatMap fun c => (escapeMarkup c).toList) = cs := by
    intro cs
    induction cs with
    | nil => rfl
    | cons c cs ih => rw [List.flatMap_cons, dereference_escapeMarkup, ih]
  rw [plainText, toList_markup, all, String.ofList_toList]

example : plainText "&lt;a b=&#x27;&amp;lt;&#x27;&gt;".toList = "<a b='&lt;'>" := rfl

/-- Different texts are written differently. -/
theorem toList_markup_inj {s t : String} : (markup s).toList = (markup t).toList ↔ s = t := by
  constructor
  · intro same
    have read := congrArg plainText same
    rwa [plainText_markup, plainText_markup] at read
  · exact fun same => same ▸ rfl

/-! ## What no text can hold -/

/-- The characters that can end an attribute or begin or end a tag. -/
def delimiters : List Char := ['<', '>', '"', '\'']

/-- No character is in two lists if none of the first is in the second. -/
theorem not_mem_of_apart {cs ds : List Char} (apart : (cs.all fun c => !ds.contains c) = true) {c : Char}
    (mem : c ∈ cs) : c ∉ ds := by
  simp only [List.all_eq_true, Bool.not_eq_true', List.contains_eq_mem, decide_eq_false_iff_not] at apart
  exact apart c mem

/-- Escaped text has none of the characters that could end it. -/
theorem not_mem_markup {c : Char} (delimiter : c ∈ delimiters) (s : String) :
    c ∉ (markup s).toList := by
  intro mem
  rw [toList_markup] at mem
  obtain ⟨d, -, written⟩ := List.mem_flatMap.mp mem
  have apart : ((escapeMarkup d).toList.all fun x => !delimiters.contains x) = true := by
    unfold escapeMarkup
    iterate 5
      split
      · decide
    next _ less greater quote apostrophe =>
      rw [String.toList_singleton]
      simp [delimiters, less, greater, quote, apostrophe]
  exact not_mem_of_apart apart written delimiter

end RouteTrees.Panel
