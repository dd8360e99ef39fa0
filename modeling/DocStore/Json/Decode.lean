import DocStore.Value.Basic

/-!
Reading JSON text. Members keep the order of their first mention and the value
of their last; an escaped pair of surrogates is one code point; numbers
with a fraction or an exponent are floats; the words `NaN`, `Infinity` and
`-Infinity` are accepted, and control characters inside quotes are not.
-/

namespace DocStore.Json

/-- Why a text is not read. -/
inductive ReadFault where
  /-- The text is not JSON. -/
  | malformed
  /-- An integer has more digits than are converted. -/
  | tooManyDigits
  deriving DecidableEq

/-- What is read, with the text after it. -/
abbrev Reader (α : Type) := Text → Except ReadFault (α × Text)

/-- The blanks of JSON. -/
def isSpace (c : CodePoint) : Bool := c = ' ' || c = '\t' || c = '\n' || c = '\r'

/-- The text after the blanks at its beginning. -/
def skipSpace (t : Text) : Text := t.dropWhile isSpace

/-- The code point that a backslash and one letter write. -/
def simpleEscape? (c : CodePoint) : Option CodePoint :=
  if c = '"' ∨ c = '\\' ∨ c = '/' then some c
  else if c = 'b' then some (CodePoint.ofNat 0x08)
  else if c = 'f' then some (CodePoint.ofNat 0x0c)
  else if c = 'n' then some '\n'
  else if c = 'r' then some '\r'
  else if c = 't' then some '\t'
  else none

/-- The code unit that four hexadecimal digits write. -/
def unit? (a b c d : CodePoint) : Option Nat := do
  let a ← Text.hexValue? a
  let b ← Text.hexValue? b
  let c ← Text.hexValue? c
  let d ← Text.hexValue? d
  return ((a * 16 + b) * 16 + c) * 16 + d

/-- The second half of a pair, when it is escaped at the beginning of the text. -/
def lowSurrogate? : Text → Option (CodePoint × Text)
  | backslash :: u :: a :: b :: c :: d :: t =>
    if backslash = '\\' ∧ u = 'u' then
      match unit? a b c d with
      | some n => if (CodePoint.ofNat n).isLowSurrogate then some (CodePoint.ofNat n, t) else none
      | none => none
    else none
  | _ => none

/-- The code point written at the beginning of quoted text, which is not its closing quote. -/
def character : Reader CodePoint
  | [] => .error .malformed
  | c :: t =>
    if c = '\\' then
      match t with
      | [] => .error .malformed
      | e :: t =>
        if e = 'u' then
          match t with
          | a :: b :: c :: d :: t =>
            match unit? a b c d with
            | none => .error .malformed
            | some n =>
              let high := CodePoint.ofNat n
              if high.isHighSurrogate then
                match lowSurrogate? t with
                | some (low, t) => .ok (high.joinSurrogates low, t)
                | none => .ok (high, t)
              else .ok (high, t)
          | _ => .error .malformed
        else
          match simpleEscape? e with
          | some c => .ok (c, t)
          | none => .error .malformed
    else if c.val < 0x20 then .error .malformed
    else .ok (c, t)

/-- The rest of a quoted text, up to and with its closing quote; the fuel is its length. -/
def quotedRest : Nat → Reader Text
  | 0, _ => .error .malformed
  | _ + 1, [] => .error .malformed
  | fuel + 1, c :: t =>
    if c = '"' then .ok ([], t)
    else do
      let (c, t) ← character (c :: t)
      let (cs, t) ← quotedRest fuel t
      return (c :: cs, t)

/-- Digits at the beginning of a text. -/
def spanDigits (t : Text) : Text × Text := t.span Text.isAsciiDigit

/-- The fraction at the beginning of a text: a point and at least one digit. -/
def fraction : Text → Option Text × Text
  | [] => (none, [])
  | c :: t =>
    if c = '.' then
      match spanDigits t with
      | ([], _) => (none, c :: t)
      | (digits, rest) => (some digits, rest)
    else (none, c :: t)

/-- The sign that may stand before the digits of an exponent. -/
def exponentSign : Text → Bool × Text
  | [] => (false, [])
  | c :: t => if c = '-' then (true, t) else if c = '+' then (false, t) else (false, c :: t)

/-- The exponent at the beginning of a text: the letter, perhaps a sign, at least one digit. -/
def exponent : Text → Option Int × Text
  | [] => (none, [])
  | c :: t =>
    if c = 'e' ∨ c = 'E' then
      let (negative, rest) := exponentSign t
      match spanDigits rest with
      | ([], _) => (none, c :: t)
      | (digits, rest) =>
        let n : Int := Text.digitsValue digits
        (some (if negative then -n else n), rest)
    else (none, c :: t)

/-- The number of digits up to which an integer is converted. -/
def digitLimit : Nat := 4300

/-- The digits before the point: a single zero, or a row that starts with another digit. -/
def wholeDigits : Text → Option (Text × Text)
  | [] => none
  | c :: t =>
    if c = '0' then some ([c], t)
    else if c.val ≤ 0x30 ∨ !Text.isAsciiDigit c then none
    else
      let (digits, rest) := spanDigits t
      some (c :: digits, rest)

/-- A number after its sign. -/
def number (negative : Bool) (t : Text) : Except ReadFault (Value × Text) :=
  match wholeDigits t with
  | none => .error .malformed
  | some (whole, t) =>
    let (fractionDigits, t) := fraction t
    let (power, t) := exponent t
    if fractionDigits.isNone && power.isNone then
      if digitLimit < whole.length then .error .tooManyDigits
      else
        let n : Int := Text.digitsValue whole
        .ok (.int (if negative then -n else n), t)
    else
      let digits := fractionDigits.getD []
      .ok (.float (Binary64.ofDecimal negative (Text.digitsValue (whole ++ digits))
        (power.getD 0 - digits.length)), t)

/-- The words that are values. -/
def words : List (Text × Value) :=
  [("null", .null), ("true", .bool true), ("false", .bool false), ("NaN", .float .nan),
    ("Infinity", .float (.infinite false)), ("-Infinity", .float (.infinite true))]

/-- A word or a number. -/
def atom (t : Text) : Except ReadFault (Value × Text) :=
  match words.findSome? fun (word, v) => (t.after? word).map (v, ·) with
  | some found => .ok found
  | none =>
    match t with
    | [] => .error .malformed
    | c :: rest => if c = '-' then number true rest else number false (c :: rest)

/-- A quoted text, whose opening quote has been read. -/
def quoted (t : Text) : Except ReadFault (Text × Text) := quotedRest (t.length + 1) t

/-- The text after a mark that must come next, perhaps after blanks. -/
def expect (mark : CodePoint) (t : Text) : Except ReadFault Text :=
  match skipSpace t with
  | [] => .error .malformed
  | c :: t => if c = mark then .ok t else .error .malformed

mutual

/-- A value that starts at once. Every call takes one unit of fuel, and of two calls in a row one
takes a code point. -/
def value : Nat → Reader Value
  | 0, _ => .error .malformed
  | _ + 1, [] => .error .malformed
  | fuel + 1, c :: t =>
    if c = '"' then do
      let (text, t) ← quoted t
      return (.str text, t)
    else if c = '[' then
      match skipSpace t with
      | [] => .error .malformed
      | d :: rest =>
        if d = ']' then .ok (.list [], rest)
        else do
          let (vs, t) ← items fuel (d :: rest)
          return (.list vs, t)
    else if c = '\x7b' then
      match skipSpace t with
      | [] => .error .malformed
      | d :: rest =>
        if d = '\x7d' then .ok (.object [], rest)
        else do
          let (ms, t) ← members fuel [] (d :: rest)
          return (.object ms, t)
    else atom (c :: t)

/-- The items of a list from one of them on, with the closing bracket. -/
def items : Nat → Reader (List Value)
  | 0, _ => .error .malformed
  | fuel + 1, t => do
    let (v, t) ← value fuel t
    match skipSpace t with
    | [] => .error .malformed
    | c :: t =>
      if c = ']' then return ([v], t)
      else if c = ',' then
        let (vs, t) ← items fuel (skipSpace t)
        return (v :: vs, t)
      else .error .malformed

/-- The members of an object from one of them on, with the closing brace, added to those read. -/
def members : Nat → Members → Reader Members
  | 0, _, _ => .error .malformed
  | fuel + 1, read, t => do
    let t ← expect '"' t
    let (key, t) ← quoted t
    let t ← expect ':' t
    let (v, t) ← value fuel (skipSpace t)
    match skipSpace t with
    | [] => .error .malformed
    | c :: t =>
      if c = '\x7d' then return (read.insert key v, t)
      else if c = ',' then members fuel (read.insert key v) (skipSpace t)
      else .error .malformed

end

/-- The value that a text writes, with blanks around it allowed. -/
def decode (t : Text) : Except ReadFault Value := do
  let (v, t) ← value (2 * t.length + 2) (skipSpace t)
  if (skipSpace t).isEmpty then return v else .error .malformed

end DocStore.Json
