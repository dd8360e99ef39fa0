import DocStore.Pattern.Letter
import DocStore.Pattern.Grammar
import DocStore.Text.Alphanumeric
import DocStore.Text.Blank
import DocStore.Text.Digit

/-!
Matching without regard to case. A part of an expression leads from a place in
the text to the places where it may end; an expression is found in a text when
it leads anywhere from some place.
-/

namespace DocStore.Pattern

/-- A place in a text: the code point before it and the text after it. -/
structure Spot where
  before : Option CodePoint
  after : Text
  deriving DecidableEq

/-- Whether a code point is of a kind. -/
def Kind.holds : Kind → CodePoint → Bool
  | .digit, c => c.isDecimal
  | .space, c => c.isBlank
  | .word, c => c.isWord

/-- Whether a class holds a code point. -/
def ClassItem.holds (c : CodePoint) : ClassItem → Bool
  | .span first last => inSpan first last c
  | .kind k negated => k.holds c != negated

/-- Whether a word begins or ends at a spot. -/
def Spot.isBoundary (s : Spot) : Bool :=
  s.before.any CodePoint.isWord != s.after.head?.any CodePoint.isWord

/-- Whether a spot is at a place. A text without code points has no word at all. -/
def Place.holds (s : Spot) : Place → Bool
  | .start => s.before.isNone
  | .finish => s.after.isEmpty
  | .lineFinish => s.after.isEmpty || s.after = (['\n'] : Text)
  | .boundary => s.isBoundary
  | .noBoundary => !s.isBoundary && !(s.before.isNone && s.after.isEmpty)

/-- The spot after a code point that passes a test. -/
def Spot.step (s : Spot) (test : CodePoint → Bool) : List Spot :=
  match s.after with
  | [] => []
  | c :: rest => if test c then [⟨some c, rest⟩] else []

/-- Spots of which none stands twice. -/
def distinct (spots : List Spot) : List Spot :=
  spots.foldl (fun seen s => if seen.any (·.after.length = s.after.length) then seen
    else seen ++ [s]) []

/-- The spots after a part was matched so many times. -/
def times (f : Spot → List Spot) : Nat → List Spot → List Spot
  | 0, spots => spots
  | n + 1, spots => times f n (distinct (spots.flatMap f))

/-- The spots after a part was matched up to so many times more. -/
def upTo (f : Spot → List Spot) : Nat → List Spot → List Spot
  | 0, spots => spots
  | n + 1, spots => upTo f n (distinct (spots ++ spots.flatMap f))

/-- The spots after a part was matched as often as a quantifier allows. As many repetitions as
there are code points reach every spot that can be reached. -/
def repeated (f : Spot → List Spot) (least : Nat) (most : Option Nat) (s : Spot) : List Spot :=
  let reach := s.after.length + 1
  let more := match most with
    | none => reach
    | some m => min reach (m - least)
  upTo f more (times f least [s])

mutual

/-- The spots where a part may end. -/
def ends : Node → Spot → List Spot
  | .char c, s => s.step (sameLetter c)
  | .any, s => s.step (· ≠ '\n')
  | .set negated items, s => s.step fun c => items.any (ClassItem.holds c) != negated
  | .place p, s => if p.holds s then [s] else []
  | .sequence parts, s => endsAll parts s
  | .choice options, s => distinct (endsAny options s)
  | .repeated least most body, s => repeated (ends body) least most s

/-- The spots where parts in a row may end. -/
def endsAll : List Node → Spot → List Spot
  | [], s => [s]
  | part :: parts, s => distinct ((ends part s).flatMap (endsAll parts))

/-- The spots where one of some parts may end. -/
def endsAny : List Node → Spot → List Spot
  | [], _ => []
  | part :: parts, s => ends part s ++ endsAny parts s

end

/-- Whether an expression is found from a spot on. -/
def foundFrom (node : Node) (before : Option CodePoint) : Text → Bool
  | [] => !(ends node ⟨before, []⟩).isEmpty
  | c :: rest => !(ends node ⟨before, c :: rest⟩).isEmpty || foundFrom node (some c) rest

/-- Whether an expression is found in a value, which is shown as text; nothing is found when
either is null. -/
def found (pattern value : Value) : Except Misuse Bool :=
  match pattern, value with
  | .null, _ => .ok false
  | _, .null => .ok false
  | .str p, v => do return foundFrom (← Grammar.parse p) none v.toText
  | .pattern _, _ => .error (.badValue "")
  | _, _ => .error .wrongType

end DocStore.Pattern
