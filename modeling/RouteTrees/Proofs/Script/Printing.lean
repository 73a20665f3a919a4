import RouteTrees.Proofs.Script.Programs

/-!
# Printed programs

Every program can be printed: with a blank before each token its tokens are laid out, as none of them goes on with
a blank.
-/

namespace RouteTrees.Script

/-- How a token is written, if it is a word, a text or a mark. -/
def Lexeme.spell : Lexeme → List Char
  | .word name _ => name.toList
  | .text value => quoted value
  | .sign mark => mark.toList
  | _ => []

/-- Tokens with a blank before each. -/
def printed (ls : List Lexeme) : List Char := ls.flatMap fun l => ' ' :: l.spell

/-- Tokens of which each is written as it is spelt. -/
def Spelt (ls : List Lexeme) : Prop := ∀ l ∈ ls, Written l l.spell

section Printing

variable {ls ms : List Lexeme}

/-- A printed lexeme ends where the next one begins. -/
theorem ends_printed (l : Lexeme) (ls : List Lexeme) : Ends l (printed ls) := by
  cases ls with
  | nil => cases l <;> first | trivial | exact nofun
  | cons m ls =>
    cases l with
    | word name escaped =>
      intro c mem
      cases mem
      decide
    | sign mark =>
      intro c mem
      cases mem
      decide
    | _ => trivial

/-- What is printed lays out the lexemes. -/
theorem lays_printed (spelt : Spelt ls) : Lays ls (printed ls) := by
  induction ls with
  | nil => exact .nil nofun
  | cons l ls ih =>
    obtain ⟨first, later⟩ := List.forall_mem_cons.mp spelt
    have blank : IsGap [' '] := by simp [IsGap, isBlank]
    exact .cons blank first (ends_printed l ls) (ih later)

theorem spelt_nil : Spelt [] := nofun

theorem spelt_word {name : String} (isWord : IsWord name) (spelt : Spelt ls) : Spelt (word name :: ls) :=
  List.forall_mem_cons.mpr ⟨.word isWord, spelt⟩

theorem spelt_name (name : Name) (spelt : Spelt ls) : Spelt (word name.text :: ls) :=
  spelt_word name.ordinary.isWord spelt

/-- A keyword of imports may be printed. -/
theorem spelt_keyword {name : String} (known : name ∈ ["import", "from", "type", "as"]) (spelt : Spelt ls) :
    Spelt (word name :: ls) := by
  have each : ["import", "from", "type", "as"].all (fun name => IsWord name) = true := by decide
  exact spelt_word (of_decide_eq_true (List.all_eq_true.mp each name known)) spelt

/-- A mark of imports may be printed. -/
theorem spelt_sign (mark : Char) (plain : mark ∈ ['{', '}', ',', '*', ';']) (spelt : Spelt ls) :
    Spelt (.sign (String.singleton mark) :: ls) := by
  refine List.forall_mem_cons.mpr ⟨?_, spelt⟩
  rw [Lexeme.spell, String.toList_singleton]
  exact .sign plain

/-- A text may be printed, whatever it says. -/
theorem spelt_text (value : String) (spelt : Spelt ls) : Spelt (.text value :: ls) :=
  List.forall_mem_cons.mpr ⟨.text value, spelt⟩

/-- What may be printed may be printed one behind the other. -/
theorem Spelt.append (spelt : Spelt ls) (spelt' : Spelt ms) : Spelt (ls ++ ms) :=
  List.forall_mem_append.mpr ⟨spelt, spelt'⟩

end Printing

/-- A specifier may be printed. -/
theorem Specifier.spelt (s : Specifier) : Spelt s.lexemes := by
  obtain ⟨name, newName, marked⟩ := s
  have behind : Spelt (rebound newName) := by
    cases newName with
    | none => exact spelt_nil
    | some a => exact spelt_keyword (by decide) (spelt_name a spelt_nil)
  cases marked with
  | false => exact spelt_name name behind
  | true => exact spelt_keyword (by decide) (spelt_name name behind)

/-- Specifiers behind commas may be printed. -/
theorem spelt_others (specifiers : List Specifier) : Spelt (others specifiers) := by
  induction specifiers with
  | nil => exact spelt_nil
  | cons s specifiers ih => exact spelt_sign ',' (by decide) (s.spelt.append ih)

/-- Specifiers may be printed. -/
theorem spelt_listed (specifiers : List Specifier) : Spelt (listed specifiers) := by
  cases specifiers with
  | nil => exact spelt_nil
  | cons s specifiers => exact s.spelt.append (spelt_others specifiers)

theorem Bindings.spelt_braced (specifiers : List Specifier) : Spelt (braced specifiers) :=
  spelt_sign '{' (by decide) ((spelt_listed specifiers).append (spelt_sign '}' (by decide) spelt_nil))

/-- Whatever an import binds may be printed. -/
theorem Bindings.spelt (bindings : Bindings) : Spelt bindings.lexemes := by
  cases bindings with
  | byDefault name => exact spelt_name name spelt_nil
  | all name => exact spelt_sign '*' (by decide) (spelt_keyword (by decide) (spelt_name name spelt_nil))
  | named specifiers => exact spelt_braced specifiers
  | both name specifiers => exact spelt_name name (spelt_sign ',' (by decide) (spelt_braced specifiers))

/-- Every form of an import may be printed. -/
theorem Form.spelt (form : Form) : Spelt form.lexemes := by
  have behind (bindings : Bindings) : Spelt (bindings.lexemes ++ [word "from"]) :=
    bindings.spelt.append (spelt_keyword (by decide) spelt_nil)
  cases form with
  | bare => exact spelt_nil
  | values bindings => exact behind bindings
  | types bindings => exact spelt_keyword (by decide) (behind bindings)

/-- Every statement may be printed. -/
theorem Statement.spelt (s : Statement) : Spelt s.lexemes := by
  have behind (value : String) : Spelt [.text value, .sign ";"] :=
    spelt_text value (spelt_sign ';' (by decide) spelt_nil)
  cases s with
  | imports form source => exact spelt_keyword (by decide) (form.spelt.append (behind source))
  | text value => exact behind value

namespace Program

variable (p : Program)

/-- Every program may be printed. -/
theorem spelt : Spelt p.lexemes := by
  intro l mem
  obtain ⟨s, -, inside⟩ := List.mem_flatMap.mp mem
  exact s.spelt l inside

/-- The text of a program, with a blank behind each lexeme. -/
def print : String := String.ofList (printed p.lexemes)

/-- A printed program lays out its lexemes. -/
theorem lays_print : Lays p.lexemes p.print.toList := by
  rw [print, String.toList_ofList]
  exact lays_printed p.spelt

end Program

end RouteTrees.Script
