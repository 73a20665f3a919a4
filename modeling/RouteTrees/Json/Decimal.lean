/-!
# The shortest decimal

The decimal text of a binary floating point number: the fewest digits that read back as the same number,
and among those the nearest to it. A number `m · 2 ^ q` owns the reals that are closer to it than to its
neighbours, the ends included if `m` is even; the digits are found by testing, for each count, the two
points of the decimal grid next to the number. All arithmetic is exact.
-/

namespace RouteTrees.Decimal

/-- A positive number with the reals that read back as it, all over one denominator. -/
structure Span where
  low : Nat
  value : Nat
  high : Nat
  denominator : Nat
  /-- Whether the ends belong to it. -/
  closed : Bool

/-- The parts of a positive number: `m` and `q` of `m · 2 ^ q`, and whether it is the smallest of its
binade, so that its neighbour below is nearer. -/
def parts (bits : UInt64) : Nat × Int × Bool :=
  let mantissa : Nat := bits.toNat % Nat.pow 2 52
  let exponent : Nat := bits.toNat / Nat.pow 2 52 % Nat.pow 2 11
  if exponent = 0 then (mantissa, -1074, false)
  else (mantissa + Nat.pow 2 52, (exponent : Int) - 1075, mantissa = 0 && exponent > 1)

/-- The reals that read back as a number given by its parts. -/
def span (m : Nat) (q : Int) (edge : Bool) : Span :=
  let low := if edge then 4 * m - 1 else 4 * m - 2
  let scale (n : Nat) : Nat := if q ≥ 0 then n * Nat.pow 2 q.toNat else n
  let denominator := if q ≥ 0 then 4 else 4 * Nat.pow 2 (-q).toNat
  ⟨scale low, scale (4 * m), scale (4 * m + 2), denominator, m % 2 = 0⟩

/-- Whether a fraction would be rounded to the number that the span is about. -/
def Span.contains (s : Span) (numerator denominator : Nat) : Bool :=
  let x := numerator * s.denominator
  let low := s.low * denominator
  let high := s.high * denominator
  if s.closed then low ≤ x && x ≤ high else low < x && x < high

/-- Digits and the power of ten that they are multiplied by. -/
structure Digits where
  digits : Nat
  power : Int

/-- The number as a fraction of whole numbers. -/
def Digits.fraction (d : Digits) : Nat × Nat :=
  if d.power ≥ 0 then (d.digits * Nat.pow 10 d.power.toNat, 1)
  else (d.digits, Nat.pow 10 (-d.power).toNat)

/-- The points of the grid with a step of a power of ten below and above a number. -/
def Span.neighbours (s : Span) (power : Int) : Digits × Digits :=
  let n := if power ≥ 0 then s.value / (s.denominator * Nat.pow 10 power.toNat)
    else s.value * Nat.pow 10 (-power).toNat / s.denominator
  (⟨n, power⟩, ⟨n + 1, power⟩)

/-- How far digits are from a number, over the denominators of both. -/
def Span.distance (s : Span) (d : Digits) : Nat × Nat :=
  let (n, k) := d.fraction
  let x := n * s.denominator
  let y := s.value * k
  (if x ≤ y then y - x else x - y, k * s.denominator)

/-- The better of the points next to a number on a grid, if one reads back as it. Of two equally near
ones the even one is taken. -/
def Span.onGrid? (s : Span) (power : Int) : Option Digits :=
  let (a, b) := s.neighbours power
  let inside (d : Digits) : Bool := s.contains d.fraction.1 d.fraction.2
  match inside a, inside b with
  | true, true =>
    let (x, k) := s.distance a
    let (y, l) := s.distance b
    if x * l < y * k then some a
    else if y * k < x * l then some b
    else some (if a.digits % 2 = 0 then a else b)
  | true, false => some a
  | false, true => some b
  | false, false => none

/-- The number of digits before the point of a number that is at least one, else the number of zeros
behind it, negated. -/
def Span.magnitude (s : Span) : Int :=
  if s.value ≥ s.denominator then ((Nat.toDigits 10 (s.value / s.denominator)).length : Int)
  else
    let inverse := (s.denominator + s.value - 1) / s.value
    1 - ((Nat.toDigits 10 inverse).length : Int)

/-- Tries grids from the coarsest on. -/
def Span.search (s : Span) : Nat → Int → Option Digits
  | 0, _ => none
  | n + 1, power =>
    match s.onGrid? power with
    | some d => if d.digits = 0 then s.search n (power - 1) else some d
    | none => s.search n (power - 1)

/-- The same number without zeros at the end of its digits. -/
def trim : Nat → Digits → Digits
  | 0, d => d
  | n + 1, d => if d.digits % 10 = 0 ∧ d.digits ≠ 0 then trim n ⟨d.digits / 10, d.power + 1⟩ else d

/-- The shortest digits of a positive number. -/
def shortest (bits : UInt64) : Digits :=
  let (m, q, edge) := parts bits
  let s := span m q edge
  trim 20 ((s.search 20 (s.magnitude + 1)).getD ⟨0, 0⟩)

def zeros (n : Nat) : String := String.ofList (List.replicate n '0')

/-- Digits written out: positionally, with a point and at least one digit on each side of it, where the
point falls no further than sixteen digits behind the first digit and five before it, and otherwise with
an exponent. -/
def Digits.text (d : Digits) : String :=
  let ds := Nat.toDigits 10 d.digits
  let n := ds.length
  let point : Int := n + d.power
  if d.power ≥ 0 ∧ point ≤ 16 then String.ofList ds ++ zeros d.power.toNat ++ ".0"
  else if 0 < point ∧ point ≤ 16 then
    String.ofList (ds.take point.toNat) ++ "." ++ String.ofList (ds.drop point.toNat)
  else if -5 < point ∧ point ≤ 0 then "0." ++ zeros (-point).toNat ++ String.ofList ds
  else
    let exponent := toString (point - 1)
    if n = 1 then String.ofList ds ++ "e" ++ exponent
    else String.ofList (ds.take 1) ++ "." ++ String.ofList (ds.drop 1) ++ "e" ++ exponent

/-- The shortest text that is read as the number again, with an exponent where that is shorter. -/
def text (x : Float) : String :=
  let bits := x.toBits
  let sign := if bits.toNat ≥ Nat.pow 2 63 then "-" else ""
  let size := bits.toNat % Nat.pow 2 63
  sign ++ if size = 0 then "0.0" else (shortest (UInt64.ofNat size)).text

end RouteTrees.Decimal
