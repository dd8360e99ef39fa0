import DocStore.Fault.Misuse

/-!
Regular expressions: literals, classes, repetition, groups and alternatives.
Reading one refuses a quantifier with nothing to repeat, brackets that are not
closed, ranges that run backwards and letters after a backslash that mean
nothing.
-/

namespace DocStore.Pattern

/-- The kinds of code points that a letter after a backslash names. -/
inductive Kind where
  | digit
  | space
  | word
  deriving DecidableEq

/-- What a class holds. -/
inductive ClassItem where
  | span (first last : CodePoint)
  | kind (kind : Kind) (negated : Bool)
  deriving DecidableEq

/-- Places between code points. -/
inductive Place where
  | start
  | finish
  /-- The end, or the newline that ends the text. -/
  | lineFinish
  | boundary
  | noBoundary
  deriving DecidableEq

/-- A regular expression. -/
inductive Node where
  | char (c : CodePoint)
  /-- Any code point but a newline. -/
  | any
  | set (negated : Bool) (items : List ClassItem)
  | place (p : Place)
  | sequence (parts : List Node)
  | choice (options : List Node)
  | repeated (least : Nat) (most : Option Nat) (body : Node)

namespace Grammar

/-- A malformed expression. -/
def malformed {α : Type} : Except Misuse α := .error (.badPattern "")

/-- What an escape means. -/
inductive Escape where
  | char (c : CodePoint)
  | kind (kind : Kind) (negated : Bool)
  | place (p : Place)

/-- The code point of so many hexadecimal digits, and the text after them. -/
def hexDigits? (width : Nat) (t : Text) : Option (CodePoint × Text) := do
  let values ← (t.take width).mapM Text.hexValue?
  if values.length = width then
    return (CodePoint.ofNat (values.foldl (fun n d => n * 16 + d) 0), t.drop width)
  else none

/-- The letters that mean a control character. -/
def controls : List (CodePoint × Nat) :=
  [('a', 0x07), ('f', 0x0c), ('n', 0x0a), ('r', 0x0d), ('t', 0x09), ('v', 0x0b)]

/-- The letters that mean a kind of code point. -/
def kinds : List (CodePoint × Kind × Bool) :=
  [('d', .digit, false), ('D', .digit, true), ('s', .space, false), ('S', .space, true),
    ('w', .word, false), ('W', .word, true)]

/-- The letters that mean a place. -/
def places : List (CodePoint × Place) :=
  [('A', .start), ('Z', .finish), ('b', .boundary), ('B', .noBoundary)]

/-- The octal digits at the beginning of a text, two at most, after a zero. -/
def octal (t : Text) : CodePoint × Text :=
  let digits := (t.take 2).takeWhile fun c => 0x30 ≤ c.val && c.val ≤ 0x37
  (CodePoint.ofNat (digits.foldl (fun n c => n * 8 + (c.val - 0x30)) 0), t.drop digits.length)

/-- What follows a backslash. -/
def escape (inClass : Bool) : Text → Except Misuse (Escape × Text)
  | [] => malformed
  | c :: t =>
    if inClass ∧ c = 'b' then .ok (.char (CodePoint.ofNat 0x08), t)
    else
      match (if inClass then none else places.lookup c), kinds.lookup c, controls.lookup c with
      | some p, _, _ => .ok (.place p, t)
      | none, some (kind, negated), _ => .ok (.kind kind negated, t)
      | none, none, some n => .ok (.char (CodePoint.ofNat n), t)
      | none, none, none =>
        let width := if c = 'x' then 2 else if c = 'u' then 4 else if c = 'U' then 8 else 0
        if width ≠ 0 then
          match hexDigits? width t with
          | some (c, t) => .ok (.char c, t)
          | none => malformed
        else if c = '0' then
          let (c, t) := octal t
          .ok (.char c, t)
        else if Text.isAsciiDigit c || Text.isAsciiLetter c then malformed
        else .ok (.char c, t)

/-- One member of a class, with the text that writes it. -/
def classMember : Text → Except Misuse (Escape × Text)
  | [] => malformed
  | c :: t => if c = '\\' then escape true t else .ok (.char c, t)

/-- The item of a class that one member is by itself. -/
def single : Escape → List ClassItem
  | .char c => [.span c c]
  | .kind kind negated => [.kind kind negated]
  | .place _ => []

/-- The words for a fault in front of `rest`, which tell where in the whole expression it stands:
by line and column too when there is more than one line. -/
def placed (whole rest words : Text) : Text :=
  let position := whole.length - rest.length
  let head := words ++ " at position " ++ Text.ofNat position
  if whole.any (fun c : CodePoint => c = '\n') then
    let read := whole.take position
    let line := (read.filter fun c : CodePoint => c = '\n').length + 1
    let column := (read.reverse.takeWhile fun c : CodePoint => c ≠ '\n').length + 1
    head ++ " (line " ++ Text.ofNat line ++ ", column " ++ Text.ofNat column ++ ")"
  else head

/-- A range that cannot be, written between two rests of the expression. -/
def badRange (whole before after : Text) : Misuse :=
  let shown := before.take (before.length - after.length)
  .badPattern (placed whole before ("bad character range " ++ shown))

/-- The items of a class up to its closing bracket; the fuel is the length of the text. -/
def classItems (whole : Text) : Nat → List ClassItem → Text →
    Except Misuse (List ClassItem × Text)
  | 0, _, _ => malformed
  | _ + 1, _, [] => malformed
  | fuel + 1, read, c :: t =>
    if c = ']' ∧ read ≠ [] then .ok (read, t)
    else do
      let (first, rest) ← classMember (c :: t)
      match rest with
      | [] => malformed
      | d :: afterDash =>
        if d ≠ '-' then classItems whole fuel (read ++ single first) rest
        else
          match afterDash with
          | [] => malformed
          | e :: afterBracket =>
            if e = ']' then .ok (read ++ single first ++ [.span '-' '-'], afterBracket)
            else
              let (last, rest) ← classMember afterDash
              match first, last with
              | .char a, .char b =>
                if b.val < a.val then .error (badRange whole (c :: t) rest)
                else classItems whole fuel (read ++ [.span a b]) rest
              | _, _ => .error (badRange whole (c :: t) rest)

/-- A quantifier: the least and the greatest number of times. -/
abbrev Quantifier := Nat × Option Nat

/-- The number of times beyond which an expression may not repeat. -/
def repeatLimit : Nat := 4294967295

/-- The bounds inside braces, which may both be left out; none when they are no quantifier. -/
def bounds? (t : Text) : Option (Text × Text × Text) :=
  let (low, t) := t.span Text.isAsciiDigit
  match t with
  | [] => none
  | c :: rest =>
    if c = '\x7d' then (if low.isEmpty then none else some (low, low, rest))
    else if c = ',' then
      let (high, rest) := rest.span Text.isAsciiDigit
      match rest with
      | [] => none
      | d :: rest => if d = '\x7d' then some (low, high, rest) else none
    else none

/-- The quantifier of bounds. -/
def quantifierOf (low high : Text) : Except Misuse Quantifier :=
  let least := Text.digitsValue low
  let most := if high.isEmpty then none else some (Text.digitsValue high)
  if repeatLimit ≤ least ∨ repeatLimit ≤ most.getD 0 then .error .overflow
  else if most.any fun m => m < least then malformed
  else .ok (least, most)

/-- The quantifier at the beginning of a text, if there is one. -/
def quantifier : Text → Except Misuse (Option (Quantifier × Text))
  | [] => .ok none
  | c :: t =>
    if c = '?' then .ok (some ((0, some 1), t))
    else if c = '*' then .ok (some ((0, none), t))
    else if c = '+' then .ok (some ((1, none), t))
    else if c = '\x7b' then
      match bounds? t with
      | none => .ok none
      | some (low, high, t) => do return some (← quantifierOf low high, t)
    else .ok none

/-- The text after the mark that may follow a quantifier; it does not change what matches. -/
def skipMark : Text → Text
  | [] => []
  | c :: t => if c = '?' ∨ c = '+' then t else c :: t

/-- The last part with a quantifier put on it. -/
def quantify (q : Quantifier) : List Node → Except Misuse (List Node)
  | [] => malformed
  | .place _ :: _ => malformed
  | .repeated .. :: _ => malformed
  | part :: parts => .ok (.repeated q.1 q.2 part :: parts)

/-- The part that an escape outside a class is. -/
def escapeNode : Escape → Node
  | .char c => .char c
  | .kind kind negated => .set false [.kind kind negated]
  | .place p => .place p

/-- The text after the marks that may open a group. -/
def groupStart (whole : Text) : Text → Except Misuse Text
  | [] => .ok []
  | c :: t =>
    if c ≠ '?' then .ok (c :: t)
    else
      match t with
      | [] => malformed
      | d :: rest =>
        if d = ':' then .ok rest
        else .error (.badPattern (placed whole (c :: t) ("unknown extension ?" ++ [d])))

mutual

/-- Alternatives, up to the end or a closing parenthesis. -/
def alternatives (whole : Text) : Nat → List Node → Text → Except Misuse (Node × Text)
  | 0, _, _ => malformed
  | fuel + 1, read, t => do
    let (parts, t) ← sequence whole fuel [] t
    let options := read ++ [.sequence parts.reverse]
    match t with
    | [] => return (.choice options, [])
    | c :: rest =>
      if c = '|' then alternatives whole fuel options rest else return (.choice options, t)

/-- A sequence of parts, the last first, up to the end, a bar or a closing parenthesis. -/
def sequence (whole : Text) : Nat → List Node → Text → Except Misuse (List Node × Text)
  | 0, _, _ => malformed
  | _ + 1, read, [] => .ok (read, [])
  | fuel + 1, read, c :: t =>
    if c = '|' ∨ c = ')' then .ok (read, c :: t)
    else do
      match ← quantifier (c :: t) with
      | some (q, t) => sequence whole fuel (← quantify q read) (skipMark t)
      | none =>
        if c = '\\' then
          let (e, t) ← escape false t
          sequence whole fuel (escapeNode e :: read) t
        else if c = '.' then sequence whole fuel (.any :: read) t
        else if c = '^' then sequence whole fuel (.place .start :: read) t
        else if c = '$' then sequence whole fuel (.place .lineFinish :: read) t
        else if c = '[' then
          let negated := Text.startsWith t "^"
          let (items, t) ← classItems whole (t.length + 1) [] (if negated then t.drop 1 else t)
          sequence whole fuel (.set negated items :: read) t
        else if c = '(' then
          let t ← groupStart whole t
          let (inside, t) ← alternatives whole fuel [] t
          match t with
          | [] => malformed
          | _ :: t => sequence whole fuel (inside :: read) t
        else sequence whole fuel (.char c :: read) t

end

/-- The expression that a text writes. -/
def parse (t : Text) : Except Misuse Node := do
  let (node, rest) ← alternatives t (2 * t.length + 2) [] t
  if rest.isEmpty then return node else malformed

end Grammar

end DocStore.Pattern
