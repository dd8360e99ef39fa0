import DocStore.Text.Case

/-!
Letters without regard to case. Two code points match when their lower-case
letters are the same or belong to one of a few families of letters that share a
capital.
-/

namespace DocStore.Pattern

/-- The families of lower-case letters that match each other. -/
def families : List (List Nat) :=
  [[105, 305], [115, 383], [181, 956], [837, 953, 8126], [912, 8147], [944, 8163], [946, 976],
   [949, 1013], [952, 977], [954, 1008], [960, 982], [961, 1009], [962, 963], [966, 981],
   [1074, 7296], [1076, 7297], [1086, 7298], [1089, 7299], [1090, 7300, 7301], [1098, 7302],
   [1123, 7303], [7304, 42571], [7777, 7835], [64261, 64262]]

/-- The lower-case letter of a code point, as one code point. -/
def small (c : CodePoint) : CodePoint := (c.lower.head?).getD c

/-- The lower-case letters that match a lower-case letter. -/
def family (n : Nat) : List Nat := (families.find? fun f => n ∈ f).getD [n]

/-- Whether two code points match without regard to case. -/
def sameLetter (a b : CodePoint) : Bool := (small b).val ∈ family (small a).val

/-- The code points whose lower-case letter is the given one. -/
def capitalsOf (n : Nat) : List Nat :=
  n :: (if n = 0x69 then [0x130] else []) ++
    CodePoint.lowerRuns.filterMap fun (first, last, step, distance) =>
      let c := ((n : Int) - distance).toNat
      if first ≤ c ∧ c ≤ last ∧ (c - first) % step = 0 then some c else none

/-- Whether a code point between two others matches a code point without regard to case. -/
def inSpan (first last c : CodePoint) : Bool :=
  (family (small c).val).any fun n =>
    (capitalsOf n).any fun m =>
      first.val ≤ m && m ≤ last.val && (small (CodePoint.ofNat m)).val = n

end DocStore.Pattern
