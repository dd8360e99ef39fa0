import DocStore.Proofs.Sql.Formula

/-!
Comparisons. An atom of a formula may compare an operand: with NULL, with
another operand, or with a list of others. What a comparison says depends on
the values of its operands alone. NULL stands for a value that is not known, so
that a comparison with it is neither true nor false, unless it is the question
whether something is NULL.
-/

namespace DocStore

/-- A comparison of operands. -/
inductive Comparison where
  | isNull (operand : List Token)
  | equals (left right : List Token)
  | among (operand : List Token) (items : List (List Token))

namespace Comparison

/-! ### Reading -/

/-- Whether a token begins what an operand is compared by. -/
def isRelator (t : Token) : Bool :=
  t = .sign '=' || t = .sign '<' || t.isKeyword "IS" || t.isKeyword "IN" || t.isNegation

/-- The tokens before, at and after the first relator outside of all parentheses. -/
def cut : Nat → List Token → Option (List Token × Token × List Token)
  | _, [] => none
  | k, t :: ts =>
    if k = 0 ∧ isRelator t then some ([], t, ts)
    else (t.depthAfter k).bind fun k => (cut k ts).map fun parts => (t :: parts.1, parts.2)

/-- Whether tokens may stand before a relator: their last one is not a sign that would belong to it. -/
def mayPrecede (ts : List Token) : Bool :=
  match ts.getLast? with
  | none => false
  | some (.sign c) => c = ')'
  | some _ => true

/-- The signs that a relator may go on with. -/
def relatorSigns : List CodePoint :=
  ['<', '>', '=', '!', '~', '@', '#', '%', '&', '|', '?', '*', '/', '^']

/-- Whether tokens may stand after a relator: their first one is not a sign that would belong to it. -/
def mayFollow : List Token → Bool
  | [] => false
  | .sign c :: _ => c ∉ relatorSigns
  | _ :: _ => true

/-- Whether a token is a parenthesis. -/
def isParenthesis (t : Token) : Bool := t = .sign '(' || t = .sign ')'

/-- The items of a list in parentheses, none of which has parentheses of its own. -/
def items? (ts : List Token) : Option (List (List Token)) :=
  (Formula.group? ts).bind fun inner =>
    let items := inner.splitOn (.sign ',')
    if !inner.any isParenthesis && items.all mayFollow then some items else none

/-- The comparison of an operand by a relator, and whether it is negated. -/
def ofRelator (operand : List Token) (relator : Token) (rest : List Token) :
    Option (Bool × Comparison) :=
  if relator = .sign '=' then
    if mayFollow rest then some (false, .equals operand rest) else none
  else if relator = .sign '<' then
    match rest with
    | [] => none
    | t :: right =>
      if t = .sign '>' ∧ mayFollow right then some (true, .equals operand right) else none
  else if relator.isKeyword "IS" then
    match rest with
    | [t] => if t.isKeyword "NULL" then some (false, .isNull operand) else none
    | [t, u] => if t.isNegation ∧ u.isKeyword "NULL" then some (true, .isNull operand) else none
    | _ => none
  else if relator.isKeyword "IN" then (items? rest).map fun items => (false, .among operand items)
  else
    match rest with
    | [] => none
    | t :: list =>
      if t.isKeyword "IN" then (items? list).map fun items => (true, .among operand items) else none

/-- The comparison that some tokens are, and whether it is negated. -/
def read (ts : List Token) : Option (Bool × Comparison) :=
  (cut 0 ts).bind fun parts =>
    if mayPrecede parts.1 then ofRelator parts.1 parts.2.1 parts.2.2 else none

end Comparison

/-! ### Truth -/

/-- The truth of some questions of which one is enough: not known where none is true and one is not
known. -/
def Truth.any (ts : List Truth) : Truth :=
  if .yes ∈ ts then .yes else if .unknown ∈ ts then .unknown else .no

/-- A truth, or its negation. -/
def Truth.negatedIf (isNegated : Bool) (t : Truth) : Truth := bif isNegated then t.not else t

/-- What a row knows: the values of operands, and the truth of what is no comparison. -/
structure Valuation (α : Type) where
  /-- The value of an operand; NULL is none. -/
  value : List Token → Option α
  /-- Whether two values are equal. -/
  same : α → α → Bool
  other : List Token → Truth
  null : ∀ t : Token, t.isKeyword "NULL" = true → value [t] = none

namespace Valuation

variable {α : Type} (r : Valuation α)

/-- The truth of an equation. -/
def equation (left right : List Token) : Truth :=
  match r.value left, r.value right with
  | some a, some b => if r.same a b then .yes else .no
  | _, _ => .unknown

/-- The truth of a comparison. -/
def truth : Comparison → Truth
  | .isNull operand => if (r.value operand).isNone then .yes else .no
  | .equals left right => r.equation left right
  | .among operand items => .any (items.map (r.equation operand))

/-- The truth of an atom. -/
def atom (ts : List Token) : Truth :=
  match Comparison.read ts with
  | some (isNegated, c) => (r.truth c).negatedIf isNegated
  | none => r.other ts

end Valuation

namespace Truth

theorem any_eq_yes {ts : List Truth} : any ts = .yes ↔ .yes ∈ ts := by
  unfold any
  split_ifs with hyes hunknown <;> simp [hyes]

theorem any_eq_no {ts : List Truth} : any ts = .no ↔ ∀ t ∈ ts, t = .no := by
  unfold any
  split_ifs with hyes hunknown
  · simpa using ⟨_, hyes, by decide⟩
  · simpa using ⟨_, hunknown, by decide⟩
  · refine ⟨fun _ t ht => ?_, fun _ => rfl⟩
    cases t with
    | no => rfl
    | unknown => exact absurd ht hunknown
    | yes => exact absurd ht hyes

theorem not_eq_yes {t : Truth} : t.not = .yes ↔ t = .no := by cases t <;> decide

end Truth

namespace Valuation

variable {α : Type} (r : Valuation α)

theorem atom_of_read {ts : List Token} {isNegated : Bool} {c : Comparison}
    (h : Comparison.read ts = some (isNegated, c)) : r.atom ts = (r.truth c).negatedIf isNegated := by
  rw [atom, h]

theorem equation_of_isNone {a : List Token} (h : r.value a = none) (c : List Token) :
    r.equation a c = .unknown := by
  rw [equation, h]

theorem equation_null (a : List Token) : r.equation a [.word "NULL"] = .unknown := by
  rw [equation, r.null _ (by decide)]
  cases r.value a <;> rfl

end Valuation

/-! ### Reading what was put together -/

/-- Tokens without a junction outside of parentheses are an atom, unless a negation or a parenthesis
begins them. -/
theorem Formula.read_atom {t : Token} {ts : List Token} (hnest : Token.nest true 0 (t :: ts) = some 0)
    (hnegation : t.isNegation = false) (hparenthesis : t ≠ .sign '(') :
    read (t :: ts) = .atom (t :: ts) := by
  have hcut (g : Glue) : cut g 0 (t :: ts) = none := cut_of_nest hnest
  have hlayer : layer (t :: ts) = .atom := by
    simp [layer, hcut, hnegation, group?, hparenthesis]
  rw [read]
  split <;> simp_all

namespace Comparison

theorem cut_append {j k : Nat} {a : List Token} (hcut : cut k a = none)
    (hnest : Token.nest false k a = some j) (b : List Token) :
    cut k (a ++ b) = (cut j b).map fun parts => (a ++ parts.1, parts.2) := by
  induction a generalizing k with
  | nil =>
    cases hnest
    simp
  | cons t a ih =>
    simp only [Token.nest, Bool.false_eq_true, false_and, and_false, if_false] at hnest
    obtain ⟨l, hl, hnest⟩ := Option.bind_eq_some_iff.mp hnest
    rw [cut] at hcut
    rw [List.cons_append, cut]
    split at hcut
    · cases hcut
    next hr =>
      rw [hl, Option.bind_some, Option.map_eq_none_iff] at hcut
      rw [if_neg hr, hl, Option.bind_some, ih hcut hnest]
      simp [Option.map_map, Function.comp_def]

/-- Tokens that are the operand of whatever relator stands after them, and that neither a negation nor a
parenthesis begins. -/
structure IsSubject (ts : List Token) : Prop where
  uncut : cut 0 ts = none
  nest : Token.nest false 0 ts = some 0
  mayPrecede : mayPrecede ts = true
  head : ∃ t us, ts = t :: us ∧ t.isNegation = false ∧ t ≠ .sign '('

variable {a : List Token} (ha : IsSubject a)
include ha

theorem IsSubject.read {r : Token} (hr : isRelator r = true) (rest : List Token) :
    read (a ++ r :: rest) = ofRelator a r rest := by
  have hcut : cut 0 (r :: rest) = some ([], r, rest) := if_pos ⟨rfl, hr⟩
  rw [Comparison.read, cut_append ha.uncut ha.nest, hcut]
  simp [ha.mayPrecede]

theorem read_isNull (isNegated : Bool) :
    read (a ++ bif isNegated then [.word "IS", .word "NOT", .word "NULL"] else [.word "IS", .word "NULL"]) =
      some (isNegated, .isNull a) := by
  cases isNegated
  · exact (ha.read rfl _).trans rfl
  · exact (ha.read rfl _).trans rfl

theorem read_equals (isNegated : Bool) {c : List Token} (hc : mayFollow c = true) :
    read (a ++ ((bif isNegated then [.sign '<', .sign '>'] else [.sign '=']) ++ c)) =
      some (isNegated, .equals a c) := by
  cases isNegated
  · exact (ha.read rfl _).trans (if_pos hc)
  · have hpair : ofRelator a (.sign '<') (.sign '>' :: c) =
        if mayFollow c then some (true, .equals a c) else none := by
      simp [ofRelator, show ('<' : CodePoint) ≠ '=' by decide]
    exact (ha.read rfl _).trans (hpair.trans (if_pos hc))

theorem read_among (isNegated : Bool) {ts : List Token} {items : List (List Token)}
    (hts : items? ts = some items) :
    read (a ++ ((bif isNegated then [.word "NOT", .word "IN"] else [.word "IN"]) ++ ts)) =
      some (isNegated, .among a items) := by
  cases isNegated
  · have hlist : ofRelator a (.word "IN") ts =
        (items? ts).map fun items => (false, .among a items) := rfl
    rw [hts] at hlist
    exact (ha.read rfl _).trans hlist
  · have hlist : ofRelator a (.word "NOT") (.word "IN" :: ts) =
        (items? ts).map fun items => (true, .among a items) := rfl
    rw [hts] at hlist
    exact (ha.read rfl _).trans hlist

end Comparison

namespace Comparison

/-- Tokens that may be an item of a list. -/
structure IsItem (ts : List Token) : Prop where
  mayFollow : mayFollow ts = true
  plain : ∀ t ∈ ts, isParenthesis t = false ∧ t ≠ .sign ','
  inert : ∀ t ∈ ts, t.isInert = true

/-- Items with commas between them. -/
def listed (items : List (List Token)) : List Token := List.intercalate [.sign ','] items

theorem listed_cons_cons (ts us : List Token) (items : List (List Token)) :
    listed (ts :: us :: items) = ts ++ .sign ',' :: listed (us :: items) := by
  simp [listed, List.intercalate]

theorem forall_mem_listed {P : Token → Prop} {items : List (List Token)}
    (h : ∀ ts ∈ items, ∀ t ∈ ts, P t) (hcomma : P (.sign ',')) : ∀ t ∈ listed items, P t := by
  induction items with
  | nil => simp [listed, List.intercalate]
  | cons ts items ih =>
    obtain ⟨hts, hitems⟩ := List.forall_mem_cons.mp h
    cases items with
    | nil => simpa [listed, List.intercalate] using hts
    | cons us items =>
      rw [listed_cons_cons, List.forall_mem_append, List.forall_mem_cons]
      exact ⟨hts, hcomma, ih hitems⟩

theorem splitOn_listed {items : List (List Token)} (hne : items ≠ []) (h : ∀ ts ∈ items, IsItem ts) :
    (listed items).splitOn (.sign ',') = items :=
  List.splitOn_intercalate _ (fun ts hts hcomma => ((h ts hts).plain _ hcomma).2 rfl) hne

theorem listed_ne_nil {items : List (List Token)} (hne : items ≠ []) (h : ∀ ts ∈ items, IsItem ts) :
    listed items ≠ [] := by
  intro hnil
  have hsplit := splitOn_listed hne h
  rw [hnil] at hsplit
  have hitem := (h [] (by simp [← hsplit])).mayFollow
  cases hitem

/-- Items can be told from what they are together. -/
theorem listed_injective {items items' : List (List Token)} (h : ∀ ts ∈ items, IsItem ts)
    (h' : ∀ ts ∈ items', IsItem ts) (heq : listed items = listed items') : items = items' := by
  by_cases hne : items = []
  · subst hne
    cases items' with
    | nil => rfl
    | cons ts items' => exact absurd heq.symm (listed_ne_nil (by simp) h')
  · have hne' : items' ≠ [] := by
      rintro rfl
      exact listed_ne_nil hne h heq
    rw [← splitOn_listed hne h, heq, splitOn_listed hne' h']

/-- Items between parentheses are read as the items. -/
theorem items?_grouped {items : List (List Token)} (hne : items ≠ []) (h : ∀ ts ∈ items, IsItem ts) :
    items? (Formula.grouped (listed items)) = some items := by
  have hinert : ∀ t ∈ listed items, t.isInert = true :=
    forall_mem_listed (fun ts hts => (h ts hts).inert) (by decide)
  have hplain : ∀ t ∈ listed items, isParenthesis t = false :=
    forall_mem_listed (fun ts hts t ht => ((h ts hts).plain t ht).1) (by decide)
  have hgroup : Formula.group? (Formula.grouped (listed items)) = some (listed items) :=
    Formula.closing_append (Token.nest_inert false 0 hinert)
  have hsplit := splitOn_listed hne h
  have hfollow : ∀ ts ∈ items, mayFollow ts = true := fun ts hts => (h ts hts).mayFollow
  simpa [items?, hgroup, hsplit] using ⟨hplain, hfollow⟩

end Comparison

end DocStore
