import DocStore.Number.Binary64
import DocStore.Text.Basic

/-!
The shortest decimal form of a double-precision number: the fewest digits that
read back as the same number and, of those, the ones nearest to it. It is
positional for exponents from -4 to 15 and has an exponent otherwise.
-/

namespace DocStore

-- Powers are those of the core library, whatever else is imported.
attribute [local instance (high + 1)] instPowNat

namespace Binary64

/-- The reals that round to a number, in quarters of a unit: the least, the number itself, the
greatest, and whether the two ends are among them. -/
structure Rounding where
  low : Nat
  mid : Nat
  high : Nat
  closed : Bool

/-- The reals that round to `m * 2 ^ e`. Below a power of two the numbers are twice as dense. -/
def rounding (m e : Nat) : Rounding where
  low := 4 * m * 2 ^ e - (if m = 2 ^ (52 : Nat) ∧ 0 < e then 2 ^ e else 2 * 2 ^ e)
  mid := 4 * m * 2 ^ e
  high := 4 * m * 2 ^ e + 2 * 2 ^ e
  closed := m % 2 = 0

/-- Whether `n` quarter units round to the number, `n` and the ends having one denominator. -/
def Rounding.holds (r : Rounding) (n scale : Nat) : Bool :=
  if r.closed then r.low * scale ≤ n && n ≤ r.high * scale
  else r.low * scale < n && n < r.high * scale

/-- The exponent of the leading decimal digit of a positive number of quarter units. -/
def leadingExponent (quarters : Nat) : Int :=
  ((Nat.toDigits 10 (quarters * 10 ^ (340 : Nat) / 2 ^ (1076 : Nat))).length : Int) - 341

/-- On the grid of the multiples of `10 ^ k`, the multiple that rounds to the number and is
nearest to it; of two equally near ones the even. -/
def onGrid? (r : Rounding) (k : Int) : Option Nat :=
  let scale := 10 ^ (-k).toNat
  let step := 10 ^ k.toNat * 2 ^ (1076 : Nat)
  let below := r.mid * scale / step
  let hit (d : Nat) : Bool := r.holds (d * step) scale
  let nearer := roundDiv (r.mid * scale) step
  let other := if nearer = below then below + 1 else below
  if hit nearer then some nearer else if hit other then some other else none

/-- The digits and the grid of the shortest form, tried with one digit more at a time. -/
def shortestFrom (r : Rounding) (leading : Int) : Nat → Nat → Nat × Int
  | 0, count =>
    let k := leading - count
    (roundDiv (r.mid * 10 ^ (-k).toNat) (10 ^ k.toNat * 2 ^ (1076 : Nat)), k)
  | more + 1, count =>
    let k := leading - count
    match onGrid? r k with
    | some d => (d, k)
    | none => shortestFrom r leading more (count + 1)

/-- The shortest form of a positive number: its digits as one number, and the power of ten that
they count. Seventeen digits always suffice. -/
def shortest (m e : Nat) : Nat × Int :=
  let r := rounding m e
  shortestFrom r (leadingExponent r.mid) 16 0

/-- Digits without the zeros at their end, and the exponent of the last that remains. -/
def dropZeros (digits : List Char) (k : Int) : List Char × Int :=
  let kept := (digits.reverse.dropWhile (· = '0')).reverse
  (kept, k + (digits.length - kept.length : Nat))

/-- The text of positive digits that count the power `10 ^ k`. -/
def layout (digits : Nat) (k : Int) : List Char :=
  let (ds, k) := dropZeros (Nat.toDigits 10 digits) k
  let point : Int := k + ds.length
  if point ≤ -4 ∨ 16 < point then
    let exponent := point - 1
    let size := Nat.toDigits 10 exponent.natAbs
    let fraction := if ds.length ≤ 1 then [] else '.' :: ds.drop 1
    ds.take 1 ++ fraction ++ ['e', if exponent < 0 then '-' else '+']
      ++ (if size.length < 2 then '0' :: size else size)
  else if point ≤ 0 then
    ['0', '.'] ++ List.replicate (-point).toNat '0' ++ ds
  else if ds.length ≤ point.toNat then
    ds ++ List.replicate (point.toNat - ds.length) '0' ++ ['.', '0']
  else ds.take point.toNat ++ '.' :: ds.drop point.toNat

/-- The text of a finite number. -/
def finiteText (negative : Bool) (m e : Nat) : Text :=
  let magnitude : List Char :=
    if m = 0 then ['0', '.', '0'] else
      let (digits, k) := shortest m e
      layout digits k
  ((if negative then ['-'] else []) ++ magnitude).map CodePoint.ofChar

/-- The text of a number, with the given words for those that are not finite. -/
def text (infinity notNumber : Text) : Binary64 → Text
  | .finite negative m e _ => finiteText negative m e
  | .infinite negative => (if negative then "-" else "") ++ infinity
  | .nan => notNumber

/-- The text of a number in messages and in SQL. -/
def display (x : Binary64) : Text := x.text "inf" "nan"

end Binary64

end DocStore
