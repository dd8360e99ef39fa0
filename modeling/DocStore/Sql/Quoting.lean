import DocStore.Engine.Basic
import DocStore.Fault.Misuse

/-!
Quoted literals, as the engines' connections make them. One engine escapes with
backslashes; the others double the quote, and one of these takes a text only
up to its first NUL and only when it has a UTF-8 form.
-/

namespace DocStore

/-- How one code point stands inside a literal with backslash escapes. -/
def backslashEscape (c : CodePoint) : Text :=
  if c = '\n' then "\\n"
  else if c = '\r' then "\\r"
  else if c = '\\' ∨ c = '\'' ∨ c = '"' ∨ c.val = 0x1a then ['\\', c]
  else [c]

/-- A literal with backslash escapes. -/
def backslashQuoted (t : Text) : Text := "'" ++ t.flatMap backslashEscape ++ "'"

/-- A literal in which the quote is doubled. -/
def doubleQuoted (t : Text) : Text := quoteMark :: t.replace quoteMark [quoteMark, quoteMark] ++ [quoteMark]
where
  /-- The mark around a literal. -/
  quoteMark : CodePoint := '\''

/-- A text up to its first NUL. -/
def beforeNul (t : Text) : Text := t.takeWhile fun c => c.val ≠ 0

/-- A text as a literal of an engine. -/
def Engine.quote (engine : Engine) (t : Text) : Except Misuse Text :=
  match engine with
  | .mysql => .ok (backslashQuoted t)
  | .pgsql => .ok (doubleQuoted t)
  | .sqlite => if t.isEncodable then .ok (doubleQuoted (beforeNul t)) else .error .notEncodable

end DocStore
