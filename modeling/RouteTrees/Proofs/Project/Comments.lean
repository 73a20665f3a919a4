import RouteTrees.Proofs.Json.Relaxed
import RouteTrees.Proofs.Project.Declared

/-!
# Comments in a configuration

A configuration is read as plain JSON, and as relaxed JSON only if that fails. Which of the two reads it makes no
difference to what it says: comments, blanks and last commas may be put into plain JSON, and the same aliases are
read from it.
-/

namespace RouteTrees

/-- A configuration in plain JSON has the same value however it is dressed. -/
theorem Json.ofConfiguration?_of_dressed {text text' : String} {config : Json} (plain : ofText text = .ok config)
    (dressed : DressedAs text text') : ofConfiguration? text' = some config := by
  rw [ofConfiguration?]
  cases plain' : ofText text' with
  | error e =>
    rw [Relaxed.ofText_of_dressed plain dressed]
  | ok config' =>
    -- what is put in may leave the text plain, and then it is relaxed JSON as well, with no more put in
    have same := Relaxed.ofText_of_dressed plain' (dressed_self _ _)
    rw [Relaxed.ofText_of_dressed plain dressed] at same
    cases same
    rfl

/-- Aliases are read alike from plain JSON and from the same with comments, blanks and last commas put in, whatever
its texts look like. -/
theorem AliasMap.ofDisk_eq_of_dressed {d d' : Disk} {root file : Path} {text text' : String} {config : Json}
    (found : d.configuration? root = some file) (readable : d.readText file = .ok text)
    (plain : Json.ofText text = .ok config) (names : d.SameNames d') (readable' : d'.readText file = .ok text')
    (dressed : Json.DressedAs text text') : ofDisk d' root = ofDisk d root := by
  have found' : d'.configuration? root = some file :=
    (names.answer_eq (·.configuration? root) fun d => d.configuration?_emptied root).symm.trans found
  have value := Json.ofConfiguration?_of_dressed plain (Json.dressed_self _ _)
  have value' := Json.ofConfiguration?_of_dressed plain dressed
  simp only [ofDisk_eq, found, found', Option.map_some, Option.getD_some, ofFile, readable, readable', value,
    value']

/-- The configuration above with a comment before it, a comment within it and two more commas. -/
def commented : String :=
  "// aliases\n\x7b\"compilerOptions\": \x7b\"baseUrl\": \"src\", " ++
    "\"paths\": \x7b\"@/*\": [\"../*\"], \"~\": [], \"@ui/*\": [\"/ui\",]/* , */\x7d\x7d,\x7d"

/-- The commented configuration is the plain one with comments put in. -/
theorem dressedAs_commented : Json.DressedAs aliasing commented := by
  let front := "\x7b\"compilerOptions\": \x7b\"baseUrl\": \"src\", \"paths\": \x7b\"@/*\": [\"../*\"], " ++
    "\"~\": [], \"@ui/*\": [\"/ui\""
  have plain : aliasing.toList = front.toList ++ [']', '\x7d', '\x7d', '\x7d'] := by decide +kernel
  have whole : commented.toList = '/' :: '/' :: (" aliases".toList ++ '\n' :: (front.toList ++
    ',' :: ']' :: '/' :: '*' :: (" , ".toList ++ '*' :: '/' :: '\x7d' :: '\x7d' :: ',' :: '\x7d' :: []))) := by
    decide +kernel
  have ended : front.toList.foldl Json.Seam.behind (.between false false) = .between false true := by
    decide +kernel
  have one : " aliases".toList.all (fun c => Script.isLineBreak c = false) = true := by decide
  have ends (c : Char) (first : c ∈ some '\n') : Script.isLineBreak c = true := by
    cases first
    rfl
  rw [Json.DressedAs, plain, whole]
  refine .line nofun (fun c mem => of_decide_eq_true (List.all_eq_true.mp one c mem)) ends
    (.blank nofun rfl (.keepAll ?_))
  rw [ended]
  exact .comma (.inl rfl) (.keep _ (.block nofun (by decide) (.keep _ (.keep _ (.comma (.inr rfl)
    (.keep _ .nil))))))

/-- A comment is no alias, and what looks like one in an alias is none. -/
theorem AliasMap.ofDisk_eq_of_dressed_commented :
    ofDisk (.configured commented) ⟨"/"⟩ = ofDisk .aliasing ⟨"/"⟩ := by
  have valid : (Json.ofText aliasing).toBool = true := by decide +kernel
  cases plain : Json.ofText aliasing with
  | error e =>
    rw [plain] at valid
    cases valid
  | ok config =>
    exact ofDisk_eq_of_dressed (Disk.configuration?_configured _) (Disk.readText_configured _) plain
      (Disk.sameNames_configured _ _) (Disk.readText_configured _) dressedAs_commented

end RouteTrees
