import Mathlib.Data.List.Induction
import RouteTrees.Json.Basic

/-!
# The fields of an object by their names

Fields are taken from an object in the order of their names, each once, with the value that was written last.
So what is taken is what is found under each name, and the order in which an object was written counts for
nothing but repeated names.
-/

namespace RouteTrees.Json

/-- Whether fields stand in the order of their names, each name once. -/
def InOrder (fields : List (String × Json)) : Prop := fields.Pairwise fun f g => f.1 < g.1

theorem lt_of_not_lt {s t : String} (ne : s ≠ t) (notLess : ¬s < t) : t < s := by
  by_contra notGreater
  exact ne (String.le_antisymm notGreater notLess)

variable {name : String} {value : Json} {fields : List (String × Json)}

/-- The fields after an insertion are the new one and those of other names. -/
theorem mem_insertField_iff (order : InOrder fields) {f : String × Json} :
    f ∈ insertField name value fields ↔ f = (name, value) ∨ f.1 ≠ name ∧ f ∈ fields := by
  induction fields with
  | nil => simp [insertField]
  | cons g rest ih =>
    obtain ⟨first, later⟩ := List.pairwise_cons.mp order
    rw [insertField]
    by_cases same : g.1 = name
    · -- the names behind are greater, so only the first field gives way
      have others : ∀ h ∈ rest, h.1 ≠ name := fun h mem again =>
        String.lt_irrefl _ (again.trans same.symm ▸ first h mem)
      rw [if_pos same, List.mem_cons, List.mem_cons]
      constructor
      · rintro (rfl | mem)
        · exact .inl rfl
        · exact .inr ⟨others f mem, .inr mem⟩
      · rintro (rfl | ⟨ne, rfl | mem⟩)
        · exact .inl rfl
        · exact absurd same ne
        · exact .inr mem
    · rw [if_neg same]
      split
      · rw [List.mem_cons, ih later, List.mem_cons]
        constructor
        · rintro (rfl | new | ⟨ne, mem⟩)
          · exact .inr ⟨same, .inl rfl⟩
          · exact .inl new
          · exact .inr ⟨ne, .inr mem⟩
        · rintro (new | ⟨ne, rfl | mem⟩)
          · exact .inr (.inl new)
          · exact .inl rfl
          · exact .inr (.inr ⟨ne, mem⟩)
      · next notLess =>
        have before := lt_of_not_lt same notLess
        have others : ∀ h ∈ g :: rest, h.1 ≠ name := by
          intro h mem
          rcases List.mem_cons.mp mem with rfl | old
          · exact same
          · rintro rfl
            exact String.lt_irrefl _ (String.lt_trans before (first h old))
        rw [List.mem_cons]
        constructor
        · rintro (new | mem)
          · exact .inl new
          · exact .inr ⟨others f mem, mem⟩
        · rintro (new | ⟨-, mem⟩)
          · exact .inl new
          · exact .inr mem

/-- An insertion keeps fields in order. -/
theorem inOrder_insertField (order : InOrder fields) : InOrder (insertField name value fields) := by
  induction fields with
  | nil => exact List.pairwise_singleton _ _
  | cons g rest ih =>
    obtain ⟨first, later⟩ := List.pairwise_cons.mp order
    rw [insertField]
    by_cases same : g.1 = name
    · rw [if_pos same]
      exact List.pairwise_cons.mpr ⟨fun h mem => same ▸ first h mem, later⟩
    · rw [if_neg same]
      split
      · next less =>
        refine List.pairwise_cons.mpr ⟨fun h mem => ?_, ih later⟩
        rcases (mem_insertField_iff later).mp mem with rfl | ⟨-, old⟩
        · exact less
        · exact first h old
      · next notLess =>
        have before := lt_of_not_lt same notLess
        refine List.pairwise_cons.mpr ⟨fun h mem => ?_, order⟩
        rcases List.mem_cons.mp mem with rfl | old
        · exact before
        · exact String.lt_trans before (first h old)

/-- The fields of an object are in the order of their names, and each has the value that is found under its
name. -/
theorem fields?_spec {v : Json} {taken : List (String × Json)} (fields : v.fields? = some taken) :
    InOrder taken ∧ ∀ name value, (name, value) ∈ taken ↔ v.field? name = some value := by
  cases v with
  | object written =>
    cases fields
    induction written using List.reverseRecOn with
    | nil => exact ⟨List.Pairwise.nil, fun name value => by simp [field?]⟩
    | append_singleton before last ih =>
      obtain ⟨order, found⟩ := ih
      rw [List.foldl_append, List.foldl_cons, List.foldl_nil]
      refine ⟨inOrder_insertField order, fun name value => ?_⟩
      obtain ⟨lastName, lastValue⟩ := last
      rw [mem_insertField_iff order, found]
      by_cases same : lastName = name
      · subst same
        simp [field?, eq_comm]
      · simp [field?, same, Ne.symm same]
  | _ => cases fields

/-- What has no fields has no field of any name. -/
theorem fields?_eq_none {v : Json} (isNone : v.fields? = none) (name : String) : v.field? name = none := by
  cases v with
  | object written => cases isNone
  | _ => rfl

end RouteTrees.Json
