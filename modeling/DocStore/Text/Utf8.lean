import DocStore.Text.Basic

/-!
UTF-8. Text without surrogates is written as one to four octets a code point;
reading accepts the shortest form of each code point and nothing else.
-/

namespace DocStore

namespace CodePoint

/-- The octets of one code point. -/
def utf8 (c : CodePoint) : List UInt8 :=
  if c.val < 0x80 then [c.val.toUInt8]
  else if c.val < 0x800 then
    [(0xc0 + c.val / 0x40).toUInt8, (0x80 + c.val % 0x40).toUInt8]
  else if c.val < 0x10000 then
    [(0xe0 + c.val / 0x1000).toUInt8, (0x80 + c.val / 0x40 % 0x40).toUInt8,
      (0x80 + c.val % 0x40).toUInt8]
  else
    [(0xf0 + c.val / 0x40000).toUInt8, (0x80 + c.val / 0x1000 % 0x40).toUInt8,
      (0x80 + c.val / 0x40 % 0x40).toUInt8, (0x80 + c.val % 0x40).toUInt8]

end CodePoint

namespace Text

/-- The octets of a text, when no surrogate stands in it. -/
def toUtf8? (t : Text) : Option (List UInt8) :=
  if isEncodable t then some (t.flatMap CodePoint.utf8) else none

/-- The low six bits of an octet that continues a code point. -/
def continuation? (b : UInt8) : Option Nat :=
  if 0x80 ≤ b.toNat ∧ b.toNat < 0xc0 then some (b.toNat - 0x80) else none

/-- A code point of several octets, unless a shorter form exists or it is a surrogate. -/
def checked? (least n : Nat) : Option CodePoint :=
  if least ≤ n ∧ n < 0x110000 ∧ ¬(0xd800 ≤ n ∧ n < 0xe000) then some (CodePoint.ofNat n)
  else none

/-- The text that octets write, when they are the shortest form of every code point. -/
def ofUtf8? : List UInt8 → Option Text
  | [] => some []
  | a :: rest =>
    if a.toNat < 0x80 then do
      return CodePoint.ofNat a.toNat :: (← ofUtf8? rest)
    else
      match rest with
      | [] => none
      | b :: rest => do
        let b ← continuation? b
        if a.toNat < 0xe0 then
          let c ← checked? 0x80 ((a.toNat - 0xc0) * 0x40 + b)
          return c :: (← ofUtf8? rest)
        else
          match rest with
          | [] => none
          | c :: rest => do
            let c ← continuation? c
            if a.toNat < 0xf0 then
              let d ← checked? 0x800 (((a.toNat - 0xe0) * 0x40 + b) * 0x40 + c)
              return d :: (← ofUtf8? rest)
            else
              match rest with
              | [] => none
              | d :: rest => do
                let d ← continuation? d
                let e ← checked? 0x10000 ((((a.toNat - 0xf0) * 0x40 + b) * 0x40 + c) * 0x40 + d)
                return e :: (← ofUtf8? rest)

end Text

end DocStore
