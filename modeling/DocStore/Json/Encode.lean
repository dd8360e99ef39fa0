import DocStore.Value.Display

/-!
Writing values as JSON. Object members keep their order, floats have their
shortest form, and texts escape the quote, the backslash and control
characters; a document whose text holds a lone surrogate is written in ASCII,
so that what is stored can always be sent.
-/

namespace DocStore.Json

/-- How JSON is laid out, and what stands for a value that JSON does not have. -/
structure Style where
  /-- What stands between items. -/
  itemSeparator : Text
  /-- What stands between a key and its value. -/
  keySeparator : Text
  /-- Whether everything outside printable ASCII is escaped. -/
  asciiOnly : Bool
  /-- The text written for a value that JSON does not have. -/
  substitute : Value → Option Text

/-- The four hexadecimal digits of a code unit after a backslash and `u`. -/
def unitEscape (n : Nat) : Text := "\\u" ++ Text.hex 4 n

/-- How one code point is written inside quotes. -/
def escape (asciiOnly : Bool) (c : CodePoint) : Text :=
  if c = '"' then "\\\""
  else if c = '\\' then "\\\\"
  else if c = '\n' then "\\n"
  else if c = '\r' then "\\r"
  else if c = '\t' then "\\t"
  else if c.val = 0x08 then "\\b"
  else if c.val = 0x0c then "\\f"
  else if c.val < 0x20 then unitEscape c.val
  else if !asciiOnly || c.val < 0x7f then [c]
  else if c.val < 0x10000 then unitEscape c.val
  else unitEscape c.surrogates.1 ++ unitEscape c.surrogates.2

/-- A text in quotes. -/
def quote (asciiOnly : Bool) (t : Text) : Text :=
  "\"" ++ t.flatMap (escape asciiOnly) ++ "\""

mutual

/-- The JSON text of a value, in the given style. -/
def write (s : Style) : Value → Option Text
  | .null => some "null"
  | .bool true => some "true"
  | .bool false => some "false"
  | .int n => some (Text.ofInt n)
  | .float x => some (x.text "Infinity" "NaN")
  | .str t => some (quote s.asciiOnly t)
  | .list items => do
    return "[" ++ Text.join s.itemSeparator (← writeItems s items) ++ "]"
  | .tuple items => do
    return "[" ++ Text.join s.itemSeparator (← writeItems s items) ++ "]"
  | .object members => do
    return "\x7b" ++ Text.join s.itemSeparator (← writeMembers s members) ++ "\x7d"
  | v => (s.substitute v).map (quote s.asciiOnly)

/-- The JSON texts of the items of a list. -/
def writeItems (s : Style) : List Value → Option (List Text)
  | [] => some []
  | v :: vs => do
    let first ← write s v
    return first :: (← writeItems s vs)

/-- The JSON texts of the members of an object. -/
def writeMembers (s : Style) : List (Text × Value) → Option (List Text)
  | [] => some []
  | (key, v) :: ms => do
    let first ← write s v
    return (quote s.asciiOnly key ++ s.keySeparator ++ first) :: (← writeMembers s ms)

end

/-- Compact JSON that refuses what JSON does not have. -/
def compact (asciiOnly : Bool) : Style where
  itemSeparator := ","
  keySeparator := ":"
  asciiOnly := asciiOnly
  substitute _ := none

/-- JSON with a blank after each separator, in which other values stand as their display. -/
def spaced : Style where
  itemSeparator := ", "
  keySeparator := ": "
  asciiOnly := false
  substitute v := some v.display

/-- The text under which a value is stored: compact, and in ASCII when a lone surrogate is in it.
None for a value that holds octets, a pattern or a test. -/
def encode (v : Value) : Option Text :=
  match write (compact false) v with
  | none => none
  | some t => if t.isEncodable then some t else write (compact true) v

end DocStore.Json
