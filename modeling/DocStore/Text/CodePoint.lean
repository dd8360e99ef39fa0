/-!
Code points. A document's text may hold halves of surrogate pairs that stand
alone, which no `Char` can be, so text is built from all code points below
`0x110000`; the scalar values among them are exactly the characters.
-/

namespace DocStore

/-- A Unicode code point, surrogates included. -/
structure CodePoint where
  val : Nat
  lt : val < 0x110000
  deriving DecidableEq

namespace CodePoint

@[ext] theorem ext {a b : CodePoint} (h : a.val = b.val) : a = b := by
  cases a
  cases b
  simp_all

/-- The code point of a character. -/
def ofChar (c : Char) : CodePoint :=
  ⟨c.val.toNat, by rcases c.valid with h | h <;> omega⟩

instance : Coe Char CodePoint := ⟨ofChar⟩

instance : Inhabited CodePoint := ⟨⟨0, by omega⟩⟩

/-- The code point numbered `n`, or the replacement character when there is none. -/
def ofNat (n : Nat) : CodePoint :=
  if h : n < 0x110000 then ⟨n, h⟩ else ⟨0xfffd, by omega⟩

@[simp] theorem val_ofNat {n : Nat} (h : n < 0x110000) : (ofNat n).val = n := by
  simp [ofNat, h]

@[simp] theorem ofNat_val (c : CodePoint) : ofNat c.val = c := by
  ext
  simp [c.lt]

/-- The first half of a surrogate pair. -/
def isHighSurrogate (c : CodePoint) : Bool :=
  0xd800 ≤ c.val && c.val < 0xdc00

/-- The second half of a surrogate pair. -/
def isLowSurrogate (c : CodePoint) : Bool :=
  0xdc00 ≤ c.val && c.val < 0xe000

/-- Either half of a surrogate pair: the code points that are no character. -/
def isSurrogate (c : CodePoint) : Bool :=
  0xd800 ≤ c.val && c.val < 0xe000

theorem isSurrogate_eq (c : CodePoint) :
    c.isSurrogate = (c.isHighSurrogate || c.isLowSurrogate) := by
  simp only [isSurrogate, isHighSurrogate, isLowSurrogate]
  grind

/-- The character written in two halves. -/
def joinSurrogates (high low : CodePoint) : CodePoint :=
  ofNat (0x10000 + (high.val - 0xd800) * 0x400 + (low.val - 0xdc00))

/-- The two halves of a character above `0xffff`. -/
def surrogates (c : CodePoint) : Nat × Nat :=
  (0xd800 + (c.val - 0x10000) / 0x400, 0xdc00 + (c.val - 0x10000) % 0x400)

/-- Membership in a table of closed ranges. -/
def inRanges (table : List (Nat × Nat)) (c : CodePoint) : Bool :=
  table.any fun r => r.1 ≤ c.val && c.val ≤ r.2

end CodePoint

end DocStore
