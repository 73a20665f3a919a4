/-!
# Coloured text

How text is set off on a terminal: a style is switched on by its code and off behind the text. Text that
switches styles off itself is put back into its own style. Without colour a text stays as it is.
-/

namespace RouteTrees.Report

/-- How text is set off. -/
inductive Style where
  | bold
  | dim
  | red
  | green
  | yellow
  | blue
  | cyan
  | brightBlue
  | boldRed
  | boldGreen
deriving DecidableEq, Repr

namespace Style

/-- The numbers that switch a style on. -/
def code : Style → String
  | bold => "1"
  | dim => "2"
  | red => "31"
  | green => "32"
  | yellow => "33"
  | blue => "34"
  | cyan => "36"
  | brightBlue => "94"
  | boldRed => "1;31"
  | boldGreen => "1;32"

/-- What switches a style on. -/
def start (s : Style) : List Char := '\x1b' :: '[' :: s.code.toList ++ ['m']

/-- What switches all styles off. -/
def reset : List Char := ['\x1b', '[', '0', 'm']

/-- The text with something put behind each place where it switches styles off. -/
def afterResets (again : List Char) : List Char → List Char
  | '\x1b' :: '[' :: '0' :: 'm' :: cs => reset ++ again ++ afterResets again cs
  | c :: cs => c :: afterResets again cs
  | [] => []

/-- A text in a style, if there is colour. -/
def paint (colour : Bool) (s : Style) (text : String) : String :=
  if colour then String.ofList (s.start ++ afterResets s.start text.toList ++ reset) else text

/-- Whether there is colour: forced, forbidden, or else as a terminal likes it. A variable that is set to
zero asks for nothing. -/
def isWanted (forced forbidden allowed : Option String) (terminal : Bool) : Bool :=
  if forced.any (· ≠ "0") then true
  else if forbidden.isSome then false
  else terminal && allowed.all (· ≠ "0")

end Style

end RouteTrees.Report
