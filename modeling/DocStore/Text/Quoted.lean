import DocStore.Text.Printable

/-!
Quoted display. Messages show a text between quotes, with escapes for the
quote, the backslash and whatever is not printable, so that two different
texts never look alike.
-/

namespace DocStore.Text

/-- The quote a display puts around a text: the single one, unless only that one occurs inside. -/
def displayQuote (t : Text) : CodePoint :=
  if t.any (· = '\'') && !t.any (· = '"') then '"' else '\''

/-- How one code point is shown between the given quotes. -/
def displayed (quote c : CodePoint) : Text :=
  if c = quote ∨ c = '\\' then ['\\', c]
  else if c = '\t' then "\\t"
  else if c = '\n' then "\\n"
  else if c = '\r' then "\\r"
  else if c.isPrintable then [c]
  else if c.val < 0x100 then "\\x" ++ hex 2 c.val
  else if c.val < 0x10000 then "\\u" ++ hex 4 c.val
  else "\\U" ++ hex 8 c.val

/-- A text shown between quotes. -/
def quoted (t : Text) : Text :=
  let quote := displayQuote t
  quote :: t.flatMap (displayed quote) ++ [quote]

/-- Octets shown between quotes after the letter `b`. -/
def quotedOctets (octets : List UInt8) : Text :=
  let t : Text := octets.map fun b => CodePoint.ofNat b.toNat
  let quote := displayQuote t
  let shown (c : CodePoint) : Text :=
    if 0x7f ≤ c.val then "\\x" ++ hex 2 c.val else displayed quote c
  ('b' : CodePoint) :: quote :: t.flatMap shown ++ [quote]

end DocStore.Text
