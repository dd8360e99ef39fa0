import DocStore.Text.CodePoint

/-!
Text and the plain operations on it. Text is a list of code points, so the
list library is its first API; here stand the literals, decimal and
hexadecimal numerals, cutting and searching.
-/

namespace DocStore

/-- Text that may hold lone surrogates. -/
abbrev Text := List CodePoint

namespace Text

-- Whether a text is in a list is decided by this one wherever it is asked.
instance : LawfulBEq Text := inferInstance

/-- The code points of a string. -/
def ofString (s : String) : Text := s.toList.map CodePoint.ofChar

instance : Coe String Text := ⟨ofString⟩

/-- Whether text can be written in UTF-8: no surrogate stands in it. -/
def isEncodable (t : Text) : Bool := t.all fun c => !c.isSurrogate

@[simp] theorem isEncodable_nil : isEncodable [] = true := rfl

@[simp] theorem isEncodable_cons (c : CodePoint) (t : Text) :
    isEncodable (c :: t) = (!c.isSurrogate && isEncodable t) := rfl

@[simp] theorem isEncodable_append (s t : Text) :
    isEncodable (s ++ t) = (isEncodable s && isEncodable t) := by
  simp [isEncodable]

/-! ### Numerals -/

/-- The decimal numeral of a natural number. -/
def ofNat (n : Nat) : Text := (Nat.toDigits 10 n).map CodePoint.ofChar

/-- The decimal numeral of an integer, a minus sign before the digits of a negative one. -/
def ofInt : Int → Text
  | .ofNat n => ofNat n
  | .negSucc n => '-' :: ofNat (n + 1)

/-- The lower-case hexadecimal digit of a number below sixteen. -/
def hexDigit (n : Nat) : CodePoint :=
  CodePoint.ofNat (if n < 10 then 0x30 + n else 0x57 + n)

/-- The last `width` hexadecimal digits of a number. -/
def hex : Nat → Nat → Text
  | 0, _ => []
  | width + 1, n => hex width (n / 16) ++ [hexDigit (n % 16)]

@[simp] theorem length_hex (width n : Nat) : (hex width n).length = width := by
  induction width generalizing n with
  | zero => rfl
  | succ width ih => simp [hex, ih]

/-- The value of an ASCII hexadecimal digit of either case. -/
def hexValue? (c : CodePoint) : Option Nat :=
  if 0x30 ≤ c.val ∧ c.val ≤ 0x39 then some (c.val - 0x30)
  else if 0x61 ≤ c.val ∧ c.val ≤ 0x66 then some (c.val - 0x57)
  else if 0x41 ≤ c.val ∧ c.val ≤ 0x46 then some (c.val - 0x37)
  else none

/-- An ASCII digit. -/
def isAsciiDigit (c : CodePoint) : Bool := 0x30 ≤ c.val && c.val ≤ 0x39

/-- An ASCII letter. -/
def isAsciiLetter (c : CodePoint) : Bool :=
  (0x41 ≤ c.val && c.val ≤ 0x5a) || (0x61 ≤ c.val && c.val ≤ 0x7a)

/-- The number that a row of ASCII digits writes. -/
def digitsValue (t : Text) : Nat :=
  t.foldl (fun n c => n * 10 + (c.val - 0x30)) 0

/-! ### Cutting and searching -/

/-- The parts between the occurrences of one code point; there is always at least one part. -/
def split (mark : CodePoint) : Text → List Text
  | [] => [[]]
  | c :: t =>
    if c = mark then [] :: split mark t
    else
      match split mark t with
      | [] => [[c]]
      | part :: parts => (c :: part) :: parts

theorem split_ne_nil (mark : CodePoint) (t : Text) : split mark t ≠ [] := by
  induction t with
  | nil => simp [split]
  | cons c t ih =>
    simp only [split]
    split
    · simp
    · split <;> simp

/-- The parts between the occurrences of a doubled code point, found from the left. -/
def splitDouble (mark : CodePoint) : Text → List Text
  | [] => [[]]
  | [c] => [[c]]
  | c :: d :: t =>
    if c = mark ∧ d = mark then [] :: splitDouble mark t
    else
      match splitDouble mark (d :: t) with
      | [] => [[c]]
      | part :: parts => (c :: part) :: parts

/-- Parts put together with a separator between them. -/
def join (separator : Text) (parts : List Text) : Text := List.intercalate separator parts

/-- The rest of a text after a beginning, when it begins so. -/
def after? : Text → Text → Option Text
  | t, [] => some t
  | [], _ :: _ => none
  | c :: t, d :: start => if c = d then after? t start else none

/-- Whether a text begins with another. -/
def startsWith (t start : Text) : Bool := (t.after? start).isSome

/-- Whether another text occurs in a text without a gap. -/
def includes : Text → Text → Bool
  | [], part => startsWith [] part
  | c :: t, part => startsWith (c :: t) part || includes t part

/-- A text without the code points at both ends that satisfy the test. -/
def trim (p : CodePoint → Bool) (t : Text) : Text :=
  ((t.dropWhile p).reverse.dropWhile p).reverse

/-- A text without the code points at its end that satisfy the test. -/
def trimEnd (p : CodePoint → Bool) (t : Text) : Text :=
  (t.reverse.dropWhile p).reverse

/-- A text with every occurrence of one code point replaced. -/
def replace (t : Text) (mark : CodePoint) (fresh : Text) : Text :=
  t.flatMap fun c => if c = mark then fresh else [c]

@[simp] theorem replace_nil (mark : CodePoint) (fresh : Text) : replace [] mark fresh = [] := rfl

@[simp] theorem replace_append (s t : Text) (mark : CodePoint) (fresh : Text) :
    replace (s ++ t) mark fresh = replace s mark fresh ++ replace t mark fresh := by
  simp [replace]

/-- The order of texts by their first different code point, a beginning coming first. -/
def isLess : Text → Text → Bool
  | [], [] => false
  | [], _ :: _ => true
  | _ :: _, [] => false
  | c :: s, d :: t => if c = d then isLess s t else c.val < d.val

end Text

end DocStore
