/-!
# The order of texts and of their bytes

Texts are compared character by character. Their bytes come in the same order, since the bytes of a later
character differ first from those of an earlier one by a greater byte.
-/

namespace RouteTrees.Text

/-- The bytes of a text. -/
def bytes (s : String) : List UInt8 := s.toUTF8.data.toList

/-- A text is read back from its bytes. -/
theorem fromUTF8?_toUTF8 (s : String) : String.fromUTF8? s.toUTF8 = some s := dif_pos s.isValidUTF8

/-- What is read from bytes has these bytes. -/
theorem toUTF8_of_fromUTF8? {bytes : ByteArray} {s : String} (read : String.fromUTF8? bytes = some s) :
    s.toUTF8 = bytes := by
  unfold String.fromUTF8? at read
  split at read
  · cases read
    rfl
  · cases read

/-- The bytes of a text are those of its characters, in their order. -/
theorem bytes_eq (s : String) : bytes s = s.toList.flatMap String.utf8EncodeChar := by
  have encoded := String.toByteArray_ofList (l := s.toList)
  rw [String.ofList_toList] at encoded
  rw [bytes, String.toUTF8, encoded]
  simp [List.utf8Encode]

/-- A line break is one byte, which is in no other character. -/
theorem newline_not_mem_utf8EncodeChar {c : Char} (ne : c ≠ '\n') :
    (10 : UInt8) ∉ String.utf8EncodeChar c := by
  have other : c.val.toNat ≠ 10 := fun same => ne (Char.ext (UInt32.toNat_inj.mp same))
  have valid : c.val.toNat < 0x110000 :=
    c.valid.elim (fun small => Nat.lt_trans small (by decide)) And.right
  rw [String.utf8EncodeChar.eq_1]
  generalize c.val.toNat = v at *
  intro mem
  repeat' split at mem
  all_goals
    simp only [List.mem_cons, List.not_mem_nil, or_false, ← UInt8.toNat_inj, UInt8.toNat_ofNat',
      UInt8.reduceToNat] at mem
    omega

/-- Lists of small numbers, as bytes, are ordered as the numbers are. -/
theorem ofNat_cons_lt_iff {a b : Nat} {bs cs : List UInt8} (small : a < 256) (small' : b < 256) :
    UInt8.ofNat a :: bs < UInt8.ofNat b :: cs ↔ a < b ∨ a = b ∧ bs < cs := by
  rw [List.cons_lt_cons_iff, UInt8.lt_iff_toNat_lt, ← UInt8.toNat_inj, UInt8.toNat_ofNat',
    UInt8.toNat_ofNat', Nat.mod_eq_of_lt small, Nat.mod_eq_of_lt small']

/-- The bytes of a character come before those of a later one, whatever is behind either. -/
theorem utf8EncodeChar_append_lt {c d : Char} (less : c < d) (bs cs : List UInt8) :
    String.utf8EncodeChar c ++ bs < String.utf8EncodeChar d ++ cs := by
  have less : c.val.toNat < d.val.toNat := less
  have valid : d.val.toNat < 0x110000 :=
    d.valid.elim (fun small => Nat.lt_trans small (by decide)) And.right
  rw [String.utf8EncodeChar.eq_1, String.utf8EncodeChar.eq_1]
  generalize c.val.toNat = v at *
  generalize d.val.toNat = w at *
  -- the digits of the two numbers, from the last to the first
  have last : v / 64 < w / 64 ∨ v / 64 = w / 64 ∧ v % 64 < w % 64 := by omega
  have third : v / 64 < w / 64 → v / 4096 < w / 4096 ∨ v / 4096 = w / 4096 ∧ v / 64 % 64 < w / 64 % 64 := by
    omega
  have second : v / 4096 < w / 4096 →
      v / 262144 < w / 262144 ∨ v / 262144 = w / 262144 ∧ v / 4096 % 64 < w / 4096 % 64 := by omega
  have first : v / 262144 % 8 = v / 262144 := by omega
  have first' : w / 262144 % 8 = w / 262144 := by omega
  repeat' split
  all_goals
    simp (disch := omega) only [List.cons_append, List.nil_append, ofNat_cons_lt_iff]
    omega

/-- Texts that are in order by their characters are in order by their bytes. -/
theorem flatMap_utf8EncodeChar_lt {cs ds : List Char} (less : cs < ds) :
    cs.flatMap String.utf8EncodeChar < ds.flatMap String.utf8EncodeChar := by
  induction cs generalizing ds with
  | nil =>
    cases ds with
    | nil => cases less
    | cons d ds =>
      have bytes := String.length_utf8EncodeChar d
      have some := d.utf8Size_pos
      rw [List.flatMap_cons]
      cases written : String.utf8EncodeChar d with
      | nil =>
        rw [written, List.length_nil] at bytes
        omega
      | cons b bs => exact List.nil_lt_cons b _
  | cons c cs ih =>
    cases ds with
    | nil => cases less
    | cons d ds =>
      rw [List.flatMap_cons, List.flatMap_cons]
      rcases List.cons_lt_cons_iff.mp less with before | ⟨rfl, later⟩
      · exact utf8EncodeChar_append_lt before _ _
      · exact List.append_left_lt (ih later)

/-- Of two texts the one that comes first has the bytes that come first. -/
theorem bytes_lt_iff {s t : String} : bytes s < bytes t ↔ s < t := by
  have before : ∀ {s t : String}, s < t → bytes s < bytes t := by
    intro s t less
    rw [bytes_eq, bytes_eq]
    exact flatMap_utf8EncodeChar_lt less
  constructor
  · intro less
    by_cases first : s < t
    · exact first
    · by_cases same : t = s
      · subst same
        exact absurd less (List.lt_irrefl _)
      · have after : t < s := Std.lt_of_le_of_ne (String.not_lt.mp first) same
        exact absurd (before after) (List.lt_asymm less)
  · exact before

end RouteTrees.Text
