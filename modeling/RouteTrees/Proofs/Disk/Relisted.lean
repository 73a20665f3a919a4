import RouteTrees.Proofs.Disk.Ways
import RouteTrees.Proofs.Disk.Writing

/-!
# Disks that are listed in another order

Two disks that hold the same under the same names differ in the order in which their directories list it, and
in nothing that a path could tell: each path leads to the same place on both.
-/

namespace RouteTrees.Disk

/-- Whether two disks have the same directories, links and files under the same names, however their
directories list them and whatever the files contain. -/
structure Relisted (d d' : Disk) : Prop where
  current : d'.current = d.current
  sight : ∀ place, (d'.root.at? place).map Node.sight = (d.root.at? place).map Node.sight

/-- What can be told from how a node looks is told alike of nodes that look alike. -/
theorem any_congr_of_sight {found found' : Option Node} {q : Node → Bool}
    (same : found'.map Node.sight = found.map Node.sight)
    (told : ∀ n m : Node, n.sight = m.sight → q n = q m) : found'.any q = found.any q := by
  cases found with
  | none =>
    rw [Option.map_none, Option.map_eq_none_iff] at same
    rw [same]
  | some n =>
    obtain ⟨m, rfl, alike⟩ := Option.map_eq_some_iff.mp same
    exact told m n alike

section Sight

variable {root root' : Node}
  (same : ∀ place, (root'.at? place).map Node.sight = (root.at? place).map Node.sight)
include same

/-- Where all places look alike, a directory is one on both, and under its names are things that look alike. -/
theorem exists_dir_of_sight {place : Place} {es : List (String × Node)}
    (there : root.at? place = some (.dir es)) : ∃ es', root'.at? place = some (.dir es') ∧
      ∀ name, (es'.lookup name).map Node.sight = (es.lookup name).map Node.sight := by
  have seen := same place
  rw [there] at seen
  obtain ⟨n, there', isDir⟩ := Option.map_eq_some_iff.mp seen
  cases n with
  | file _ | link _ => cases isDir
  | dir es' =>
    refine ⟨es', there', fun name => ?_⟩
    rw [← Node.at?_append_singleton there', ← Node.at?_append_singleton there]
    exact same (place ++ [name])

/-- Segments are followed alike where all places look alike. -/
theorem follow_congr (final : Bool) (budget : Nat) (place : Place) (pending : List String) :
    follow root' final budget place pending = follow root final budget place pending := by
  fun_induction follow root final budget place pending with
  | case1 => rw [follow]
  | case2 _ _ _ _ _ there idle ih =>
    obtain ⟨es', there', -⟩ := exists_dir_of_sight same there
    rw [follow, there']
    simpa only [idle, if_true] using ih
  | case3 _ _ _ _ there busy ih =>
    obtain ⟨es', there', -⟩ := exists_dir_of_sight same there
    rw [follow, there']
    simpa only [busy, if_true, Bool.false_eq_true, if_false] using ih
  | case4 _ _ _ _ _ there busy notUp long =>
    obtain ⟨es', there', -⟩ := exists_dir_of_sight same there
    rw [follow, there']
    simp only [busy, notUp, long, if_true, Bool.false_eq_true, if_false]
  -- a name that one disk does not have the other lacks too
  | case5 _ _ s _ _ there busy notUp short missing idle
  | case6 _ _ s _ _ there busy notUp short missing idle =>
    obtain ⟨es', there', seen⟩ := exists_dir_of_sight same there
    have missing' := seen s
    rw [missing, Option.map_none, Option.map_eq_none_iff] at missing'
    rw [follow, there']
    simp only [busy, notUp, short, missing', idle, if_true, Bool.false_eq_true, if_false]
  | case7 _ _ s _ _ there busy notUp short target isLink early =>
    obtain ⟨es', there', seen⟩ := exists_dir_of_sight same there
    have isLink' := link_of_sight (isLink ▸ seen s)
    rw [follow, there']
    simp only [busy, notUp, short, isLink', early, if_true, Bool.false_eq_true, if_false]
  | case8 _ s _ _ there busy notUp short target isLink further =>
    obtain ⟨es', there', seen⟩ := exists_dir_of_sight same there
    have isLink' := link_of_sight (isLink ▸ seen s)
    rw [follow, there']
    simp only [busy, notUp, short, isLink', further, Bool.false_eq_true, if_false]
  | case9 _ s _ _ there busy notUp short further _ isLink =>
    obtain ⟨es', there', seen⟩ := exists_dir_of_sight same there
    have isLink' := link_of_sight (isLink ▸ seen s)
    rw [follow, there']
    simp only [busy, notUp, short, isLink', further, if_true, Bool.false_eq_true, if_false]
  -- a link leads on by the same segments, for its target is seen
  | case10 _ s _ _ there busy notUp short _ isLink further _ _ ne ih =>
    obtain ⟨es', there', seen⟩ := exists_dir_of_sight same there
    have isLink' := link_of_sight (isLink ▸ seen s)
    rw [follow, there']
    simp only [busy, notUp, short, isLink', further, ne, Bool.false_eq_true, if_false]
    rw [dite_eq_ite] at ih
    exact ih
  | case11 _ _ s _ _ there busy notUp short n plain isNode ih =>
    obtain ⟨es', there', seen⟩ := exists_dir_of_sight same there
    have seen := seen s
    rw [isNode] at seen
    obtain ⟨m, isNode', alike⟩ := Option.map_eq_some_iff.mp seen
    have plain' : ∀ target, m ≠ .link target := by
      rintro target rfl
      cases n with
      | link other => exact absurd rfl (plain other)
      | file _ | dir _ => cases alike
    rw [follow, there']
    simpa only [busy, notUp, short, isNode', Bool.false_eq_true, if_false] using ih
  | case12 _ place _ _ n notDir there =>
    have seen := same place
    rw [there] at seen
    obtain ⟨m, there', alike⟩ := Option.map_eq_some_iff.mp seen
    rw [follow, there']
    cases n with
    | dir entries => exact (notDir entries rfl).elim
    | file _ | link _ =>
      cases m with
      | dir _ => cases alike
      | file _ | link _ => rfl
  | case13 _ place _ _ there =>
    have seen := same place
    rw [there, Option.map_none, Option.map_eq_none_iff] at seen
    rw [follow, seen]

end Sight

namespace Relisted

variable {d d' : Disk} (same : d.Relisted d')
include same

/-- A path leads to the same place on both disks. -/
theorem locate_eq (final : Bool) (p : Path) : d'.locate final p = d.locate final p := by
  rw [locate, locate, spot, spot, same.current, follow_congr same.sight]

theorem canonical_eq (p : Path) : d'.canonical p = d.canonical p := by
  rw [canonical, canonical, same.locate_eq]

/-- Listing a disk in another order takes no file away. -/
theorem hasFile_eq (place : Place) : d'.hasFile place = d.hasFile place := by
  apply any_congr_of_sight (same.sight place)
  intro n m alike
  cases n <;> cases m <;> simp_all [Node.sight, Node.isFile]

/-- Listing a disk in another order takes no directory away. -/
theorem hasDir_eq (place : Place) : d'.hasDir place = d.hasDir place := by
  apply any_congr_of_sight (same.sight place)
  intro n m alike
  cases n <;> cases m <;> simp_all [Node.sight, Node.isDir]

end Relisted

/-- A directory that lists its entries in another order holds the same under each name. -/
theorem lookup_of_perm {es es' : List (String × Node)} (perm : es'.Perm es) (differ : (es.map (·.1)).Nodup)
    (name : String) : es'.lookup name = es.lookup name := by
  have differ' : (es'.map (·.1)).Nodup := (perm.map _).nodup_iff.mpr differ
  apply Option.ext
  intro n
  constructor
  · intro found
    exact Node.lookup_of_mem differ (perm.mem_iff.mp (Node.mem_of_lookup found))
  · intro found
    exact Node.lookup_of_mem differ' (perm.mem_iff.mpr (Node.mem_of_lookup found))

/-- A disk of which the root is listed in another order is the same disk in another order. -/
theorem relisted_of_perm {es es' : List (String × Node)} (perm : es'.Perm es)
    (differ : (es.map (·.1)).Nodup) (current : Place) :
    Relisted ⟨.dir es, current⟩ ⟨.dir es', current⟩ := by
  refine ⟨rfl, fun place => ?_⟩
  cases place with
  | nil => rfl
  | cons name rest => simp only [Node.at?, Node.child?, lookup_of_perm perm differ]

end RouteTrees.Disk
