import RouteTrees.Project.ModuleFile
import RouteTrees.Proofs.Script.Printing

/-!
# Printed modules

What is read from the file of a printed program: the modules that it imports at run time, and whether it is marked
as one that runs in a client.
-/

namespace RouteTrees.Script.Module

/-- From a file with types any layout of a program is read: its imports are those left when it runs, in their
order, and it is marked for a client if one of its directives says so. -/
theorem parse?_ofPath_of_lays (p : Program) {file : Path} {text : String}
    (extension : file.extension? = some "ts" ∨ file.extension? = some "tsx") (lays : Lays p.lexemes text.toList) :
    ∃ m, parse? (.ofPath file) text = some m ∧ m.imports = p.sources ∧
      (m.isClient = true ↔ "use client" ∈ p.directives) := by
  have types : (Dialect.ofPath file).types = true := by
    simpa only [Dialect.ofPath, Bool.or_eq_true, decide_eq_true_eq] using extension
  exact ⟨_, parse?_of_lays types lays, rfl, List.contains_iff_mem⟩

/-- A program of which some imports are left when it runs, and in which what would mark it for a client stands
behind the first of them. -/
def mixed : Program where
  directives := ["use strict", "a \"b\" \\ c\n"]
  body :=
    [.imports (.values (.named [⟨widget, none, true⟩, ⟨panel, some pane, false⟩])) "./mixed",
     .text "use client",
     .imports (.types (.named [⟨props, none, false⟩]) (by simp [Bindings.IsOfTypes])) "./types",
     .imports (.values (.named [⟨theme, none, true⟩])) "./erased",
     .imports (.values (.both editor [⟨mode, none, true⟩])) "./mixed",
     .imports (.values (.named [])) "./empty",
     .imports .bare "./bare"]
  ends := by
    intro s first
    cases first
    rfl
where
  widget : Name := ⟨"Widget", by decide⟩
  panel : Name := ⟨"panel", by decide⟩
  pane : Name := ⟨"pane", by decide⟩
  props : Name := ⟨"Props", by decide⟩
  theme : Name := ⟨"Theme", by decide⟩
  editor : Name := ⟨"editor", by decide⟩
  mode : Name := ⟨"Mode", by decide⟩

/-- A program that is marked for a client by its second directive. -/
def marked : Program where
  directives := ["use strict", "use client"]
  body := [.imports .bare "./mixed"]
  ends := by
    intro s first
    cases first
    rfl

/-- What was read of both: only the program with the directive is one for a client. -/
theorem parse?_ofPath_of_lays_mixed :
    (∃ m, parse? (.ofPath ⟨"app/page.tsx"⟩) mixed.print = some m ∧
      m.imports = ["./mixed", "./mixed", "./empty", "./bare"] ∧ m.isClient = false) ∧
    ∃ m, parse? (.ofPath ⟨"app/menu.ts"⟩) marked.print = some m ∧
      m.imports = ["./mixed"] ∧ m.isClient = true := by
  have extension : (⟨"app/page.tsx"⟩ : Path).extension? = some "tsx" := by decide
  have extension' : (⟨"app/menu.ts"⟩ : Path).extension? = some "ts" := by decide
  obtain ⟨m, parsed, imports, client⟩ := parse?_ofPath_of_lays mixed (.inr extension) mixed.lays_print
  obtain ⟨m', parsed', imports', client'⟩ := parse?_ofPath_of_lays marked (.inl extension') marked.lays_print
  have sources : mixed.sources = ["./mixed", "./mixed", "./empty", "./bare"] := by decide
  have sources' : marked.sources = ["./mixed"] := by decide
  have without : "use client" ∉ mixed.directives := by decide
  have leads : "use client" ∈ marked.directives := by decide
  exact ⟨⟨m, parsed, imports.trans sources, Bool.eq_false_iff.mpr (mt client.mp without)⟩,
    m', parsed', imports'.trans sources', client'.mpr leads⟩

end RouteTrees.Script.Module
