import DocStore.Proofs.Store.Course
import DocStore.Proofs.Store.PageClause
import DocStore.Proofs.Store.Statement
import Mathlib.Data.List.Forall2

/-!
Pages. Whether the database cuts the page of a search or it is cut here, the
documents that come are those that the filter matches, from where the page
begins up to where it ends.
-/

namespace DocStore

/-- The document of a row, when a filter selects it; those of criteria the database has selected. -/
def Filter.examine (f : Filter) (row : Row) : Except Misuse (Option Value) :=
  match row with
  | [] => .error .noCell
  | cell :: _ => do
    let document ← storedDocument cell
    match f with
    | .criteria _ => return some document
    | .predicate selects => return if ← selects document then some document else none

/-- The documents that a filter matches among rows. -/
def Filter.course (f : Filter) (rows : List Row) : Course := .ofRows f.examine rows

/-- A document cut to the fields that are asked for. -/
def FindOptions.project (options : FindOptions) (document : Value) : Except Misuse Value :=
  match options.projection.bind Projection.ofFields with
  | none => .ok document
  | some p => p.apply document

/-- The page of the documents that are matched: without those that are left out at the beginning, up
to the limit if there is one, and cut to fields. -/
def FindOptions.page (options : FindOptions) (matched : Course) : Course :=
  ((matched.drop (options.skip.getD 0)).take (options.limit.filter (· ≠ 0))).mapM options.project

/-- What the database answers to a query whose condition and order select these rows: those that the
clause of the page leaves. -/
def Statement.served (e : Engine) : Statement → List Row → Option (List Row)
  | .select _ _ _ page, rows => e.lexis.leaves page rows
  | _, _ => none

namespace Filter

variable {v : Value} {rows : List Row}

theorem examine_ofCriteria (c : Nat) (table : Text) (condition ordered : Option Sql)
    (options : FindOptions) :
    (Query.ofCriteria c table condition ordered options).examine = (criteria v).examine := by
  funext row
  cases row <;> rfl

theorem examine_ofPredicate (c : Nat) (table : Text) (selects : Value → Except Misuse Bool)
    (ordered : Option Sql) (options : FindOptions) :
    (Query.ofPredicate c table selects ordered options).examine = (predicate selects).examine := by
  funext row
  cases row <;> rfl

theorem examine_criteria_ne_none (row : Row) : (criteria v).examine row ≠ .ok none := by
  cases row with
  | nil => exact nofun
  | cons cell row =>
    show (do return some (← storedDocument cell)) ≠ _
    cases storedDocument cell <;> exact nofun

/-- Where every row can be read, each of them is a document that criteria match. -/
theorem forall₂_of_criteria (h : ((criteria v).course rows).stop = none) :
    List.Forall₂ (fun row u => (criteria v).examine row = .ok (some u)) rows
      ((criteria v).course rows).documents := by
  induction rows with
  | nil => exact .nil
  | cons row rows ih =>
    rw [course, Course.ofRows] at h ⊢
    cases hrow : (criteria v).examine row with
    | error fault =>
      rw [hrow] at h
      cases h
    | ok found =>
      rw [hrow] at h
      cases found with
      | none => exact absurd hrow (examine_criteria_ne_none row)
      | some u => exact .cons hrow (ih h)

end Filter

theorem Course.ofRows_of_forall₂ {examine : Row → Except Misuse (Option Value)} {rows : List Row}
    {vs : List Value} (h : List.Forall₂ (fun row v => examine row = .ok (some v)) rows vs) :
    ofRows examine rows = ⟨vs, none⟩ := by
  induction h with
  | nil => rfl
  | cons hrow _ ih =>
    rw [ofRows, hrow]
    dsimp only
    rw [ih]
    rfl

namespace Query

variable {c : Nat} {table : Text} {condition ordered : Option Sql} {options : FindOptions}
  {rows : List Row}

theorem limit_filter_of_eq {limit : Option Nat} (h : limit.getD 0 = 0) :
    limit.filter (· ≠ 0) = none := by
  cases limit with
  | none => rfl
  | some n => simpa using h

theorem limit_filter_of_ne {limit : Option Nat} (h : limit.getD 0 ≠ 0) :
    limit.filter (· ≠ 0) = some (limit.getD 0) := by
  cases limit with
  | none => exact absurd rfl h
  | some n => simpa using h

/-- The page of a predicate is cut here. -/
theorem ahead_ofPredicate (selects : Value → Except Misuse Bool) :
    (ofPredicate c table selects ordered options).ahead (options.skip.getD 0)
      (options.limit.filter (· ≠ 0)) rows =
        options.page ((Filter.predicate selects).course rows) := by
  rw [ahead, Filter.examine_ofPredicate]
  rfl

/-- The page of criteria is cut by the database, or here where it has no end. -/
theorem ahead_ofCriteria {v : Value} (h : ((Filter.criteria v).course rows).stop = none) :
    (ofCriteria c table condition ordered options).ahead
      (if options.limit.getD 0 = 0 then options.skip.getD 0 else 0) none
      (if options.limit.getD 0 = 0 then rows
        else (rows.drop (options.skip.getD 0)).take (options.limit.getD 0)) =
        options.page ((Filter.criteria v).course rows) := by
  -- Each row is one document, so cutting the rows is cutting the documents.
  have hdocuments := Filter.forall₂_of_criteria h
  generalize ((Filter.criteria v).course rows).documents = vs at hdocuments
  have hcourse : (Filter.criteria v).course rows = ⟨vs, none⟩ :=
    Course.ofRows_of_forall₂ hdocuments
  rw [ahead, Filter.examine_ofCriteria, hcourse]
  by_cases hlimit : options.limit.getD 0 = 0
  · have hnone := limit_filter_of_eq hlimit
    rw [if_pos hlimit, if_pos hlimit, Course.ofRows_of_forall₂ hdocuments, FindOptions.page, hnone]
    rfl
  · have hsome := limit_filter_of_ne hlimit
    have hpage := List.forall₂_take (options.limit.getD 0)
      (List.forall₂_drop (options.skip.getD 0) hdocuments)
    rw [if_neg hlimit, if_neg hlimit, Course.ofRows_of_forall₂ hpage, FindOptions.page, hsome]
    have hend : Course.take (some (options.limit.getD 0)) (.drop (options.skip.getD 0) ⟨vs, none⟩) =
        ⟨(vs.drop (options.skip.getD 0)).take (options.limit.getD 0), none⟩ := by
      simp [Course.drop, Course.take]
    rw [hend]
    rfl

end Query

/-! ### The page of a search -/

/-- A row completes the page of a search: with its document, as many have come as the page leaves out
and gives. -/
structure Filter.Completes (f : Filter) (options : FindOptions) (before : List Row) (row : Row) :
    Prop where
  limited : options.limit.getD 0 ≠ 0
  reads : (f.course before).stop = none
  length : (f.course before).documents.length + 1 = options.skip.getD 0 + options.limit.getD 0
  last : ∃ v, f.examine row = .ok (some v)

namespace Store

/-- A search that can be answered: the database refuses nothing, the filter and the order can be
compiled, and the page does not end beyond what can be counted. -/
structure Admits (s : Store) (c : Nat) (f : Filter) (options : FindOptions) : Prop where
  works : s.Works
  serves : s.Serves c
  compiles : ∀ v, f = .criteria v → ∃ condition, s.dialect.whereClause v = .ok condition
  ordered : ∃ ordered, s.dialect.orderClause options.order = .ok ordered
  page : options.skip.getD 0 + options.limit.getD 0 < 2 ^ 63

variable {s : Store} {c : Nat} {f : Filter} {options : FindOptions}

/-- A search that can be answered is compiled to a query, and what the database answers to it leaves
the page. -/
theorem Admits.exists_query (h : s.Admits c f options) :
    ∃ q : Query, (Action.compile c f options).outcome s = (.ok q, s) ∧ q.collection = c ∧
      (∃ table condition ordered page, q.statement = .select table condition ordered page) ∧
      (∀ selects, f = .predicate selects →
        ∃ table ordered, q = .ofPredicate c table selects ordered options) ∧
      ∀ M : List Row, (∀ v, f = .criteria v → (f.course M).stop = none) →
        ∃ R, q.statement.served s.engine M = some R ∧
          q.ahead q.skip q.limit R = options.page (f.course M) := by
  obtain ⟨x, hx, -⟩ := h.serves
  obtain ⟨ordered, hordered⟩ := h.ordered
  have hpage : options.skip.getD 0 + options.limit.getD 0 ≤ Action.pageLimit :=
    Nat.le_sub_one_of_lt h.page
  cases f with
  | predicate selects =>
    refine ⟨_, Action.outcome_compile_predicate hx hordered hpage, rfl, ⟨_, _, _, _, rfl⟩, ?_, ?_⟩
    · rintro _ ⟨⟩
      exact ⟨_, _, rfl⟩
    · intro M _
      exact ⟨M, rfl, Query.ahead_ofPredicate selects⟩
  | criteria v =>
    obtain ⟨condition, hcondition⟩ := h.compiles v rfl
    refine ⟨_, Action.outcome_compile_criteria hx hcondition hordered (by omega), rfl,
      ⟨_, _, _, _, rfl⟩, nofun, ?_⟩
    intro M hM
    exact ⟨_, Lexis.leaves_pageClause s.engine _ _ M, Query.ahead_ofCriteria (hM v rfl)⟩

/-- What a search comes to when its query selects some rows: the page of the documents that the filter
matches among them. -/
structure FindsPage (s : Store) (c : Nat) (f : Filter) (options : FindOptions) (q : Query)
    (rows : List Row) : Prop where
  /-- All documents of the page come at once. -/
  all : ((Action.find c f options).outcome s).1 = (options.page (f.course rows)).result
  /-- The documents of the page come one by one. -/
  each : Documents.Gives (options.page (f.course rows)).stop (options.page (f.course rows)).documents
    q.documents s
  /-- The first document is that of a page of one, whatever limit is asked for. -/
  first : options.limit = some 1 → ∀ limit,
    ((Action.findOne c f { options with limit := limit }).outcome s).1 =
      (options.page (f.course rows)).first
  /-- When the rows are shown to a predicate, none is fetched after the one that completes the page. -/
  unread : ∀ selects before row after, f = .predicate selects → rows = before ++ row :: after →
    f.Completes options before row →
    ∃ es cursor k, k ≤ before.length + 1 ∧ (∀ t ∈ sentTexts s.engine es, IsCreate t) ∧
      ((Action.find c f options).outcome s).2.trace = s.trace ++ es ++
        .send cursor q.statement :: List.replicate k (.fetch cursor true) ++ [.close cursor]

/-- Every search that can be answered gives the page of the documents that its filter matches, whether
the database cuts the page or it is cut here, and reads all of them as it reads them one by one. -/
theorem Admits.findsPage (h : s.Admits c f options) :
    (∀ d : Documents, d.toList = (do
      match ← d.next with
      | (none, _) => return []
      | (some v, d) => return v :: (← d.toList))) ∧
    ∃ q : Query, (Action.compile c f options).outcome s = (.ok q, s) ∧
      ∀ M : List Row, (∀ v, f = .criteria v → (f.course M).stop = none) →
        ∃ R, q.statement.served s.engine M = some R ∧
          ((nextReply s.script).1 = ⟨R, none⟩ → s.FindsPage c f options q M) := by
  obtain ⟨q, hq, rfl, ⟨table, condition, ordered, page, hstatement⟩, hpredicate, hserved⟩ :=
    h.exists_query
  refine ⟨Documents.toList_eq_next, q, hq, fun M hM => ?_⟩
  obtain ⟨R, hR, hahead⟩ := hserved M hM
  refine ⟨R, hR, fun hreply => ?_⟩
  -- Only a query takes a reply, and the statement is one by what it begins with.
  have hselect : ("SELECT" : Text) <+: q.statement.text s.engine := by
    rw [hstatement]
    exact Statement.prefix_select ..
  have hfind : (Action.find q.collection f options).outcome s = q.documents.toList.outcome s := by
    unfold Action.find
    exact Action.outcome_bind_ok hq
  constructor
  case all =>
    rw [← hahead, hfind]
    exact Documents.ensures_toList h.works h.serves hselect hreply
  case each =>
    rw [← hahead]
    exact Documents.gives_of_isNext (Documents.ensures_firstNext h.works h.serves hselect hreply)
  case first =>
    intro hlimit limit
    have hone : { { options with limit := limit } with limit := some 1 } = options := by
      rw [← hlimit]
    have hfirst : (Action.findOne q.collection f { options with limit := limit }).outcome s =
        q.documents.first.outcome s := by
      unfold Action.findOne
      rw [hone]
      exact Action.outcome_bind_ok hq
    rw [← hahead, hfirst]
    exact Documents.ensures_first h.works h.serves hselect hreply
  case unread =>
    rintro selects before row after rfl rfl hcompletes
    rw [hfind]
    obtain ⟨table, ordered, hquery⟩ := hpredicate selects rfl
    have hexamine : q.examine = (Filter.predicate selects).examine := by
      rw [hquery]
      exact Filter.examine_ofPredicate ..
    have hrows : R = before ++ row :: after := by
      rw [hquery] at hR
      cases hR
      rfl
    have hlimit : q.limit = some (options.limit.getD 0) := by
      rw [hquery]
      exact Query.limit_filter_of_ne hcompletes.limited
    obtain ⟨v, hrow⟩ := hcompletes.last
    refine Documents.ensures_toList_complete (v := v) h.works h.serves hselect hreply hrows hlimit
      ?_ ?_ ?_
    · rw [hexamine]
      exact hcompletes.reads
    · rw [hexamine, hquery]
      exact hcompletes.length
    · rw [hexamine]
      exact hrow

/-- Rows of documents with one member each. -/
def rowsOf (ns : List Int) : List Row := ns.map fun n => [.object [("a", .int n)]]

/-- A connection whose database answers the next query with some rows. -/
def replying (rows : List Row) : Store :=
  { ready .pgsql with script := { replies := [⟨rows, none⟩] } }

/-- The second document. -/
def second : FindOptions := { skip := some 1, limit := some 1 }

/-- The second of three documents that a predicate selects is found among all of them, and that of
criteria by the database. -/
theorem findsPage_second :
    ((replying (rowsOf [1, 2, 3])).Admits 0 (.predicate fun _ => .ok true) second ∧
      ((Action.find 0 (.predicate fun _ => .ok true) second).outcome
        (replying (rowsOf [1, 2, 3]))).1 = .ok [.object [("a", .int 2)]]) ∧
    ((replying (rowsOf [2])).Admits 0 (.criteria .null) second ∧
      ((Action.find 0 (.criteria .null) second).outcome (replying (rowsOf [2]))).1 =
        .ok [.object [("a", .int 2)]]) := by
  have hworks (rows : List Row) : (replying rows).Works := ⟨rfl, rfl, rfl⟩
  have hserves (rows : List Row) : (replying rows).Serves 0 := ⟨_, rfl, by decide⟩
  have hpredicate : (replying (rowsOf [1, 2, 3])).Admits 0 (.predicate fun _ => .ok true) second :=
    ⟨hworks _, hserves _, nofun, ⟨none, rfl⟩, by decide⟩
  have hcriteria : (replying (rowsOf [2])).Admits 0 (.criteria .null) second :=
    ⟨hworks _, hserves _, by rintro _ ⟨⟩; exact ⟨none, rfl⟩, ⟨none, rfl⟩, by decide⟩
  refine ⟨⟨hpredicate, ?_⟩, ⟨hcriteria, ?_⟩⟩
  · obtain ⟨-, q, hq, hpage⟩ := hpredicate.findsPage
    obtain ⟨R, hR, hfound⟩ := hpage (rowsOf [1, 2, 3]) nofun
    rw [Action.outcome_compile_predicate rfl rfl (by decide)] at hq
    cases hq
    cases hR
    exact (hfound rfl).all
  · obtain ⟨-, q, hq, hpage⟩ := hcriteria.findsPage
    obtain ⟨R, hR, hfound⟩ := hpage (rowsOf [1, 2, 3]) fun _ _ => rfl
    rw [Action.outcome_compile_criteria rfl rfl rfl (by decide)] at hq
    cases hq
    have hserved := Lexis.leaves_pageClause .pgsql (some 1) (some 1) (rowsOf [1, 2, 3])
    obtain rfl : R = rowsOf [2] := Option.some.inj (hR.symm.trans hserved)
    exact (hfound rfl).all

end Store

end DocStore
