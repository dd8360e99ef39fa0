import DocStore.Proofs.Outcome
import DocStore.Proofs.Sql.Form
import DocStore.Proofs.Store.Within
import DocStore.Store.Documents

/-!
Searches in steps. A search is compiled to one statement, which reads the table
of its collection under the condition that its filter comes to; the statement
is sent when the first document is asked for, after the table was made sure of,
and nothing more is sent while the rows come in.
-/

namespace DocStore

namespace Statement

/-- A statement begins with what stands before its clauses. -/
theorem prefix_withClauses (head : Sql) (clauses : List (Option Sql)) :
    head.render <+: (withClauses head clauses).render := by
  unfold withClauses Sql.join
  cases clauses.filterMap id with
  | nil => simp [List.intercalate]
  | cons clause rest =>
    have hjoin := Sql.join_cons_cons " " head clause rest
    unfold Sql.join at hjoin
    rw [hjoin, Sql.render_append]
    exact List.prefix_append _ _

theorem prefix_select (e : Engine) (table : Text) (condition order page : Option Sql) :
    ("SELECT" : Text) <+: (select table condition order page).text e := by
  obtain ⟨rest, hrest⟩ := prefix_withClauses
    ("SELECT " ++ e.documentColumn ++ " FROM " ++ name e table) [condition, order, page]
  rw [text, sql, ← hrest]
  exact ⟨_, rfl⟩

end Statement

namespace Dialect

/-- The clause of a page. A page without an end has none, wherever it begins. -/
def pageClause (skip limit : Option Nat) : Option Sql :=
  if limit.getD 0 = 0 then none
  else if skip.getD 0 = 0 then some ("LIMIT " ++ integerPiece (limit.getD 0))
  else some ("LIMIT " ++ integerPiece (limit.getD 0) ++ (" OFFSET " ++ integerPiece (skip.getD 0)))

theorem isTruthy_numberOr (n : Option Nat) :
    (Action.numberOr n).isTruthy = decide (n.getD 0 ≠ 0) := by
  cases n with
  | none => rfl
  | some n => cases n <;> rfl

theorem limitClause_numberOr (skip limit : Option Nat) :
    limitClause (Action.numberOr limit) (Action.numberOr skip) = .ok (pageClause skip limit) := by
  unfold limitClause pageClause
  rw [isTruthy_numberOr, isTruthy_numberOr]
  cases limit with
  | none => rfl
  | some l =>
    by_cases hl : l = 0
    · simp [hl]
    · cases skip with
      | none => simp [hl]; rfl
      | some k =>
        by_cases hk : k = 0
        · simp [hl, hk]; rfl
        · simp [hl, hk]; rfl

end Dialect

/-- The order that a search asks for, as a value. -/
def FindOptions.order (options : FindOptions) : Value := (options.sort.map .object).getD .null

/-- A statement reads the documents that a filter selects, in the order that is asked for: by the
condition and the page of criteria, and all of them for a predicate. -/
def Filter.ReadsBy (d : Dialect) (options : FindOptions) : Filter → Statement → Prop
  | .criteria v, .select _ condition ordered page =>
    d.whereClause v = .ok condition ∧ d.orderClause options.order = .ok ordered ∧
      page = Dialect.pageClause options.skip options.limit
  | .predicate _, .select _ condition ordered page =>
    condition = none ∧ d.orderClause options.order = .ok ordered ∧ page = none
  | _, _ => False

/-- A query reads the table of its collection by a statement of one kind. -/
structure Query.Fits (P : Statement → Prop) (s : Store) (q : Query) : Prop where
  holds : P q.statement
  reads : ∃ (x : Collection) (condition order page : Option Sql),
    s.collections[q.collection]? = some x ∧ q.statement = .select x.table condition order page

theorem Query.Fits.retained {P : Statement → Prop} {s s' : Store} {q : Query} (h : q.Fits P s)
    (hs : s.Retains s') : q.Fits P s' := by
  obtain ⟨x, condition, order, page, hx, hq⟩ := h.reads
  obtain ⟨x', hx', htable⟩ := hs.tables _ _ hx
  exact ⟨h.holds, x', condition, order, page, hx', by rw [htable]; exact hq⟩

namespace Action

variable {P : Statement → Prop} {s : Store}

theorem within_compile (c : Nat) {filter : Filter} {options : FindOptions}
    (hselect : ∀ st, filter.ReadsBy s.dialect options st → P st) :
    Within P (compile c filter options) s fun q s' => q.collection = c ∧ q.Fits P s' := by
  unfold compile
  refine (within_collection c).bind ?_
  rintro x _ - ⟨rfl, hx⟩
  cases filter with
  | predicate selects =>
    refine (within_inDialect _).bind ?_
    rintro ordered _ - ⟨rfl, hordered⟩
    refine (within_ofMisuse _).bind ?_
    rintro ⟨skip, limit⟩ _ - ⟨rfl, -⟩
    have hP := hselect (.select x.table none ordered none) ⟨rfl, hordered, rfl⟩
    exact .pure ⟨rfl, hP, x, none, ordered, none, hx, rfl⟩
  | criteria v =>
    refine (within_inDialect _).bind ?_
    rintro statement _ - ⟨rfl, hstatement⟩
    have hfits : ∃ condition ordered page, statement = .select x.table condition ordered page ∧
        P statement := by
      obtain ⟨condition, hcondition, hstatement⟩ := exists_of_bind_ok hstatement
      obtain ⟨ordered, hordered, hstatement⟩ := exists_of_bind_ok hstatement
      rw [Dialect.limitClause_numberOr] at hstatement
      cases hstatement
      exact ⟨condition, ordered, _, rfl, hselect _ ⟨hcondition, hordered, rfl⟩⟩
    obtain ⟨condition, ordered, page, rfl, hP⟩ := hfits
    split
    · refine (within_ofMisuse _).bind ?_
      rintro ⟨skip, limit⟩ _ - ⟨rfl, -⟩
      exact .pure ⟨rfl, hP, x, condition, ordered, page, hx, rfl⟩
    · exact .pure ⟨rfl, hP, x, condition, ordered, page, hx, rfl⟩

/-! ### Reading rows -/

theorem within_failAtRow {α : Type} {Q : α → Store → Prop} (cursor : Nat) (fault : Misuse) :
    Within P (failAtRow cursor fault) s Q := by
  unfold failAtRow
  exact (within_record rfl).bind fun _ _ _ _ => .throw _

theorem within_takeRow (q : Query) (cursor skip : Nat) (row : Row) :
    Within P (takeRow q cursor skip row) s fun _ _ => True := by
  unfold takeRow
  refine (within_record rfl).bind fun _ s₁ _ _ => ?_
  split
  · exact within_failAtRow ..
  · exact .pure trivial
  · split
    · exact .pure trivial
    · split
      · exact within_failAtRow ..
      · exact .pure trivial

theorem within_nextAmong (d : Documents) (cursor : Nat) (refusal : Option Refusal) (skip : Nat)
    (rows : List Row) :
    Within P (nextAmong d cursor refusal skip rows) s fun p _ => p.2.query = d.query := by
  induction rows generalizing s skip with
  | nil => exact (within_endRows ..).bind fun _ _ _ _ => .pure rfl
  | cons row rows ih =>
    unfold nextAmong
    refine (within_takeRow ..).bind ?_
    rintro ⟨v, skip'⟩ s₁ - -
    cases v with
    | none => exact ih skip'
    | some v => exact .pure rfl

theorem allAmong_full (q : Query) (cursor : Nat) (refusal : Option Refusal) (skip : Nat)
    (rows : List Row) :
    allAmong q cursor refusal skip (some 0) rows = (do record (.close cursor); return []) := by
  cases rows <;> rfl

theorem allAmong_nil (q : Query) (cursor : Nat) (refusal : Option Refusal) (skip : Nat)
    {left : Option Nat} (hleft : left ≠ some 0) :
    allAmong q cursor refusal skip left [] =
      (do endRows cursor q.statement refusal; return []) := by
  unfold allAmong
  split
  · contradiction
  · rfl
  · contradiction

theorem allAmong_cons (q : Query) (cursor : Nat) (refusal : Option Refusal) (skip : Nat)
    {left : Option Nat} (hleft : left ≠ some 0) (row : Row) (rows : List Row) :
    allAmong q cursor refusal skip left (row :: rows) = (do
      match ← takeRow q cursor skip row with
      | (none, skip) => allAmong q cursor refusal skip left rows
      | (some v, skip) =>
        return v :: (← allAmong q cursor refusal skip (left.map (· - 1)) rows)) :=
  allAmong.eq_3 q cursor refusal skip left row rows hleft

theorem within_allAmong (q : Query) (cursor : Nat) (refusal : Option Refusal) (skip : Nat)
    (left : Option Nat) (rows : List Row) :
    Within P (allAmong q cursor refusal skip left rows) s fun _ _ => True := by
  induction rows generalizing s skip left with
  | nil =>
    by_cases hleft : left = some 0
    · rw [hleft, allAmong_full]
      exact (within_record rfl).bind fun _ _ _ _ => .pure trivial
    · rw [allAmong_nil q cursor refusal skip hleft]
      exact (within_endRows ..).bind fun _ _ _ _ => .pure trivial
  | cons row rows ih =>
    by_cases hleft : left = some 0
    · rw [hleft, allAmong_full]
      exact (within_record rfl).bind fun _ _ _ _ => .pure trivial
    · rw [allAmong_cons q cursor refusal skip hleft]
      refine (within_takeRow ..).bind ?_
      rintro ⟨v, skip'⟩ s₁ - -
      cases v with
      | none => exact ih skip' left
      | some v => exact (ih ..).bind fun _ _ _ _ => .pure trivial

end Action

/-! ### Documents -/

namespace Documents

open DocStore.Action

section

variable {P : Statement → Prop} {s : Store}

/-- What is read once the query was sent, for the next document. -/
theorem within_nextOpened (d : Documents) :
    Within P (match d.reading with
      | .under cursor reply =>
        if d.left = some 0 then do
          record (.close cursor)
          return (none, { d with reading := .finished })
        else nextAmong d cursor reply.refusal d.skip reply.rows
      | _ => return (none, d)) s fun p _ => p.2.query = d.query := by
  split
  · split
    · exact (within_record rfl).bind fun _ _ _ _ => .pure rfl
    · exact within_nextAmong ..
  · exact .pure rfl

/-- What is read once the query was sent, for all documents. -/
theorem within_toListOpened (d : Documents) :
    Within P (match d.reading with
      | .under cursor reply => allAmong d.query cursor reply.refusal d.skip d.left reply.rows
      | _ => return []) s fun _ _ => True := by
  split
  · exact within_allAmong ..
  · exact .pure trivial

/-- What is done with the first document. -/
theorem within_firstNext (p : Option Value × Documents) :
    Within P (match p with
      | (none, _) => return .null
      | (some v, d) => do
        d.abandon
        return v) s fun _ _ => True := by
  obtain ⟨v, d⟩ := p
  cases v with
  | none => exact .pure trivial
  | some v =>
    have habandon : Within P d.abandon s fun _ _ => True := by
      unfold abandon
      split
      · exact within_record rfl
      · exact .pure trivial
    exact habandon.bind fun _ _ _ _ => .pure trivial

end

variable {P : Statement → Prop} {s : Store} (hplain : ∀ st : Statement, st.IsPlain → P st)
  {d : Documents} (hd : d.query.Fits P s)

include hplain hd

/-- Before its query is sent, a collection makes sure of its table. -/
theorem within_opened :
    Within P d.opened s fun d' s' =>
      d'.query = d.query ∧ (d.reading = .waiting → ∃ table, s'.IsReady d.query.collection table) := by
  unfold opened
  split
  next hwaiting =>
    -- The statement names the table of the collection, which is the one that was made sure of.
    refine (within_ensureTable hplain _).bind fun _ s₁ hs₁ hready => ?_
    obtain ⟨x, condition, order, page, hx, hq⟩ := (hd.retained hs₁.retains).reads
    obtain ⟨table, htable⟩ := hready
    have hown := htable.own hx
    have hsend : Within P (send d.query.statement) s₁ fun _ _ => True := by
      refine within_send hd.holds (by rw [hq]; trivial) fun t ht => ?_
      rw [hq] at ht
      cases ht
      exact ⟨_, hown⟩
    refine hsend.bind ?_
    rintro ⟨cursor, reply⟩ s₂ hs₂ -
    exact .pure ⟨rfl, fun _ => ⟨_, hs₂.isReady hown⟩⟩
  next hreading => exact .pure ⟨rfl, fun h => absurd h hreading⟩

theorem within_next :
    Within P d.next s fun p s' =>
      p.2.query = d.query ∧
        (d.reading = .waiting → ∃ table, s'.IsReady d.query.collection table) := by
  unfold next
  refine (within_opened hplain hd).bind ?_
  rintro d' s₁ - ⟨hquery, hready⟩
  exact (within_nextOpened d').mono fun p s' hs' hp =>
    ⟨hp.trans hquery, fun hwaiting => hs'.exists_isReady (hready hwaiting)⟩

theorem within_toList :
    Within P d.toList s fun _ s' =>
      d.reading = .waiting → ∃ table, s'.IsReady d.query.collection table := by
  unfold toList
  refine (within_opened hplain hd).bind ?_
  rintro d' s₁ - ⟨-, hready⟩
  exact (within_toListOpened d').mono fun _ s' hs' _ hwaiting =>
    hs'.exists_isReady (hready hwaiting)

theorem within_first :
    Within P d.first s fun _ s' =>
      d.reading = .waiting → ∃ table, s'.IsReady d.query.collection table := by
  unfold first
  refine (within_next hplain hd).bind ?_
  rintro p s₁ - ⟨-, hready⟩
  exact (within_firstNext p).mono fun _ s' hs' _ hwaiting =>
    hs'.exists_isReady (hready hwaiting)

end Documents

namespace Action

variable {P : Statement → Prop} {s : Store} (hplain : ∀ st : Statement, st.IsPlain → P st)
  {c : Nat} {filter : Filter} {options : FindOptions}

include hplain

theorem within_find (hselect : ∀ st, filter.ReadsBy s.dialect options st → P st) :
    Within P (find c filter options) s fun _ s' => ∃ table, s'.IsReady c table := by
  unfold find
  refine (within_compile c hselect).bind ?_
  rintro q s₁ - ⟨rfl, hq⟩
  exact (Documents.within_toList hplain hq).mono fun _ _ _ h => h rfl

theorem within_findOne
    (hselect : ∀ st, filter.ReadsBy s.dialect { options with limit := some 1 } st → P st) :
    Within P (findOne c filter options) s fun _ s' => ∃ table, s'.IsReady c table := by
  unfold findOne
  refine (within_compile c hselect).bind ?_
  rintro q s₁ - ⟨rfl, hq⟩
  exact (Documents.within_first hplain hq).mono fun _ _ _ h => h rfl

end Action

end DocStore
