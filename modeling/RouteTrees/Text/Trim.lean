/-!
# Blank text

The characters of Unicode that are white space, and text without them at its ends.
-/

namespace RouteTrees.Text

/-- The characters that separate words, a line break among them. -/
def isWhiteSpace (c : Char) : Bool :=
  ('\t' ≤ c && c ≤ '\r') || c = ' ' || c = '\u0085' || c = '\u00a0' || c = '\u1680' ||
    ('\u2000' ≤ c && c ≤ '\u200a') || c = '\u2028' || c = '\u2029' || c = '\u202f' ||
    c = '\u205f' || c = '\u3000'

/-- The text without the white space at its ends. -/
def trim (s : String) : String :=
  String.ofList ((s.toList.dropWhile isWhiteSpace).reverse.dropWhile isWhiteSpace).reverse

/-- Whether there is nothing but white space in a text. -/
def isBlank (s : String) : Bool := s.toList.all isWhiteSpace

end RouteTrees.Text
