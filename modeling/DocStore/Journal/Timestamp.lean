import DocStore.Text.Basic

/-!
Points in time as log records write them: date and time with a `T` between
them, microseconds when there are any, and the distance from universal time
when it is known.
-/

namespace DocStore

/-- A point in time. -/
structure Timestamp where
  year : Nat
  month : Nat
  day : Nat
  hour : Nat := 0
  minute : Nat := 0
  second : Nat := 0
  micro : Nat := 0
  /-- Minutes from universal time, when they are known. -/
  offset : Option Int := none

namespace Timestamp

/-- So many zeros. -/
def zeros (n : Nat) : Text := List.replicate n '0'

/-- A number in so many digits, zeros in front. -/
def padded (width n : Nat) : Text :=
  let digits := Text.ofNat n
  zeros (width - digits.length) ++ digits

/-- The text of a point in time. -/
def text (t : Timestamp) : Text :=
  let micro : Text := if t.micro = 0 then "" else "." ++ padded 6 t.micro
  let offset : Text :=
    match t.offset with
    | none => ""
    | some m => (if m < 0 then "-" else "+") ++ padded 2 (m.natAbs / 60) ++ ":"
        ++ padded 2 (m.natAbs % 60)
  padded 4 t.year ++ "-" ++ padded 2 t.month ++ "-" ++ padded 2 t.day ++ "T" ++ padded 2 t.hour
    ++ ":" ++ padded 2 t.minute ++ ":" ++ padded 2 t.second ++ micro ++ offset

/-- Whether a year has a leap day. -/
def isLeap (year : Nat) : Bool := year % 4 = 0 && (year % 100 ≠ 0 || year % 400 = 0)

/-- The days of a month. -/
def daysOf (year month : Nat) : Nat :=
  if month = 2 then (if isLeap year then 29 else 28)
  else if month = 4 ∨ month = 6 ∨ month = 9 ∨ month = 11 then 30 else 31

/-- A number of so many digits at the beginning of a text. -/
def digits? (width : Nat) (t : Text) : Option (Nat × Text) :=
  let head := t.take width
  if head.length = width ∧ head.all Text.isAsciiDigit then
    some (Text.digitsValue head, t.drop width)
  else none

/-- A mark at the beginning of a text. -/
def mark? (marks : List CodePoint) : Text → Option Text
  | [] => none
  | c :: t => if c ∈ marks then some t else none

/-- The seconds at the beginning of a text, with the microseconds; they may be left out. Digits
beyond the sixth do not count. -/
def seconds? (t : Text) : Option (Nat × Nat × Text) :=
  match mark? [':'] t with
  | none => some (0, 0, t)
  | some t => do
    let (second, t) ← digits? 2 t
    match mark? ['.', ','] t with
    | none => return (second, 0, t)
    | some t =>
      let (fraction, rest) := t.span Text.isAsciiDigit
      if fraction.isEmpty then none
      else
        let six := (fraction ++ zeros 6).take 6
        return (second, Text.digitsValue six, rest)

/-- The distance from universal time that a text consists of. -/
def offset? (t : Text) : Option (Option Int) :=
  match t with
  | [] => some none
  | c :: rest =>
    if c = 'Z' ∨ c = 'z' then (if rest.isEmpty then some (some 0) else none)
    else do
      let negative ← if c = '-' then some true else if c = '+' then some false else none
      let (hours, rest) ← digits? 2 rest
      let (minutes, rest) ← digits? 2 ((mark? [':'] rest).getD rest)
      if rest.isEmpty ∧ hours < 24 ∧ minutes < 60 then
        let m : Int := (hours * 60 + minutes : Nat)
        return some (if negative then -m else m)
      else none

/-- The point in time that a text writes. -/
def ofText? (t : Text) : Option Timestamp := do
  let (year, t) ← digits? 4 t
  let (month, t) ← digits? 2 (← mark? ['-'] t)
  let (day, t) ← digits? 2 (← mark? ['-'] t)
  if year = 0 ∨ month = 0 ∨ 12 < month ∨ day = 0 ∨ daysOf year month < day then none
  else if t.isEmpty then return { year, month, day }
  else
    let (hour, t) ← digits? 2 (← mark? ['T', 't', ' ', '_'] t)
    let (minute, t) ← digits? 2 (← mark? [':'] t)
    let (second, micro, t) ← seconds? t
    let offset ← offset? t
    if 24 ≤ hour ∨ 60 ≤ minute ∨ 60 ≤ second then none
    else return { year, month, day, hour, minute, second, micro, offset }

end Timestamp

end DocStore
