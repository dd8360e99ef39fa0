import DocStore.Document.ObjectId
import DocStore.Proofs.Filter.Clause
import DocStore.Proofs.Store.Run

/-!
Statements with conditions and sort orders. What two statements that differ in
texts, in the names of fields and in the name of the table are read as differs
only in what literals and names hold; no text that a caller gives can end the
literal or the name that it stands in.
-/

namespace DocStore

/-- Two texts are read to their ends as the same tokens, apart from what literals and names hold, and
their parentheses match. -/
def Lexis.ReadAlike (x : Lexis) (t u : Text) : Prop :=
  ∃ ts us, x.lex t = some ts ∧ x.lex u = some us ∧ ts.map Token.erased = us.map Token.erased ∧
    Token.nest false 0 ts = some 0 ∧ Token.nest false 0 us = some 0

theorem Sql.Twins.readAlike {x : Lexis} {b : Bool} {s t : Sql} (h : Twins (IsBalanced x b) s t) :
    x.ReadAlike s.render t.render := by
  obtain ⟨hs, hns⟩ := h.left.loosen.lex
  obtain ⟨ht, hnt⟩ := h.right.loosen.lex
  exact ⟨_, _, hs, ht, h.erased, hns, hnt⟩

namespace Statement

open Dialect

variable {e : Engine} {a : Bool}

/-- A statement with clauses of one shape. -/
theorem withClauses_twins {head head' : Sql}
    (hhead : Sql.Twins (Sql.IsUnit (e.lexisWith a)) head head') {cs cs' : List (Option Sql)}
    (h : List.Forall₂ (ClauseTwins (e.lexisWith a)) cs cs') :
    Sql.Twins (Sql.IsBalanced (e.lexisWith a) false) (withClauses head cs)
      (withClauses head' cs') := by
  have hblank (o : Bool) : Sql.walkCode (e.lexisWith a) false ⟨o, 0⟩ " " = some ⟨true, 0⟩ := by
    cases e <;> cases o <;> rfl
  have hclauses := List.rel_filterMap (fun _ _ hc => hc) h
  exact .join (.cons (hhead.mono fun _ hs => hs.loosen) hclauses) fun rows _ hrows =>
    .join hblank hrows

/-- The names of two tables, where a form has a gap. -/
theorem filled_name (table table' : Text) :
    Sql.Filled (e.lexisWith a) [.literal []] (name e table) (name e table') :=
  .unit ⟨Sql.isUnit_column e a table, Sql.isUnit_column e a table', rfl⟩

theorem select_twins (table table' : Text) {c c' o o' p p' : Option Sql}
    (hc : ClauseTwins (e.lexisWith a) c c') (ho : ClauseTwins (e.lexisWith a) o o')
    (hp : ClauseTwins (e.lexisWith a) p p') :
    Sql.Twins (Sql.IsBalanced (e.lexisWith a) false) ((select table c o p).sql e)
      ((select table' c' o' p').sql e) := by
  refine withClauses_twins ?_ (.cons hc (.cons ho (.cons hp .nil)))
  have hcolumn : Sql.Twins (Sql.IsUnit (e.lexisWith a)) e.documentColumn e.documentColumn :=
    .same (Sql.isUnit_column e a "document")
  exact ((((Sql.Filled.code "SELECT ").append (.unit hcolumn)).append (.code " FROM ")).append
    (filled_name table table')).twins (by cases e <;> rfl)

theorem count_twins (table table' : Text) {c c' : Option Sql}
    (hc : ClauseTwins (e.lexisWith a) c c') :
    Sql.Twins (Sql.IsBalanced (e.lexisWith a) false) ((count table c).sql e)
      ((count table' c').sql e) :=
  withClauses_twins (((Sql.Filled.code "SELECT COUNT(*) FROM ").append
    (filled_name table table')).twins (by cases e <;> rfl)) (.cons hc .nil)

theorem delete_twins (table table' : Text) {c c' : Option Sql}
    (hc : ClauseTwins (e.lexisWith a) c c') :
    Sql.Twins (Sql.IsBalanced (e.lexisWith a) false) ((delete table c).sql e)
      ((delete table' c').sql e) :=
  withClauses_twins (((Sql.Filled.code "DELETE FROM ").append
    (filled_name table table')).twins (by cases e <;> rfl)) (.cons hc .nil)

end Statement

namespace Store

/-- A store quotes as the connection of its engine does. -/
theorem dialect_quotedBy (s : Store) : s.dialect.QuotedBy s.engine.hasEscapes where
  literal {t l} h := ⟨_, Engine.lex_quote (s.quote_ok h)⟩
  plain h := by
    replace h : s.engine = .sqlite := h
    rw [h]
    rfl

/-- No text gets out of its literal or name. When two filters, two sort orders and two tables differ
only in texts and names, the clauses and the statements that are made of them are read as the same
tokens, apart from what literals and names hold, and parentheses match outside of literals. -/
theorem texts_readAlike (s : Store) {f f' o o' limit offset : Value} (hf : FilterAlike f f')
    (ho : SortAlike o o') {c c' r r' p : Option Sql} (hc : s.dialect.whereClause f = .ok c)
    (hc' : s.dialect.whereClause f' = .ok c') (hr : s.dialect.orderClause o = .ok r)
    (hr' : s.dialect.orderClause o' = .ok r') (hp : Dialect.limitClause limit offset = .ok p)
    (table table' : Text) :
    Option.Rel (fun w w' : Sql => s.engine.lexis.ReadAlike w.render w'.render) c c' ∧
      Option.Rel (fun w w' : Sql => s.engine.lexis.ReadAlike w.render w'.render) r r' ∧
      s.engine.lexis.ReadAlike ((Statement.select table c r p).text s.engine)
        ((Statement.select table' c' r' p).text s.engine) ∧
      s.engine.lexis.ReadAlike ((Statement.count table c).text s.engine)
        ((Statement.count table' c').text s.engine) ∧
      s.engine.lexis.ReadAlike ((Statement.delete table c).text s.engine)
        ((Statement.delete table' c').text s.engine) := by
  have hcondition := Dialect.whereClause_twins s.dialect_quotedBy hf c c' hc hc'
  have horder := Dialect.orderClause_twins s.dialect_quotedBy ho r r' hr hr'
  have hpage : Dialect.ClauseTwins s.engine.lexis p p := by
    have hbalanced := Dialect.isBalanced_limitClause (e := s.engine) (b := s.engine.hasEscapes) hp
    cases p with
    | none => exact .none
    | some p => exact .some (.same (hbalanced p rfl))
  refine ⟨?_, ?_, ?_, ?_, ?_⟩
  · cases hcondition with
    | none => exact .none
    | some h => exact .some h.readAlike
  · cases horder with
    | none => exact .none
    | some h => exact .some h.readAlike
  · exact (Statement.select_twins table table' hcondition horder hpage).readAlike
  · exact (Statement.count_twins table table' hcondition).readAlike
  · exact (Statement.delete_twins table table' hcondition).readAlike

/-- A store with an open connection and one collection, whose table is there. -/
def ready (e : Engine) : Store where
  options := { engine := e, database := "d" }
  server := { version := "3.40.0" }
  isOpen := true
  logger := { name := "l" }
  identifiers n := objectId ⟨0, Octets3.ofNat 1, 2⟩ (Octets3.ofNat n)
  collections := [⟨"c", "c", true⟩]

/-- A filter of a member and a clause. -/
def pair (name t u : Text) : Value :=
  .object [(name, .object [("$in", .list [.str t, .null])]),
    (Glue.or.key, .list [.object [(name, .str u)]])]

theorem texts_readAlike_quotes :
    ∃ c c', (ready .mysql).dialect.whereClause (pair "a" "t" "u") = .ok (some c) ∧
      (ready .mysql).dialect.whereClause (pair "b'" "\\" "1' OR '1' = '1") = .ok (some c') ∧
      Engine.mysql.lexis.ReadAlike ((Statement.delete "x" (some c)).text .mysql)
        ((Statement.delete "y`" (some c')).text .mysql) := by
  have hc : ∃ c, (ready .mysql).dialect.whereClause (pair "a" "t" "u") = .ok (some c) := ⟨_, rfl⟩
  have hc' : ∃ c, (ready .mysql).dialect.whereClause (pair "b'" "\\" "1' OR '1' = '1") =
      .ok (some c) := ⟨_, rfl⟩
  obtain ⟨c, hc⟩ := hc
  obtain ⟨c', hc'⟩ := hc'
  have hvalues (t t' : Text) : Value.Alike (.list [.str t, .null]) (.list [.str t', .null]) :=
    .list (.cons (.str t t') (.cons (.same .null) .nil))
  have hfilter : FilterAlike (pair "a" "t" "u") (pair "b'" "\\" "1' OR '1' = '1") := by
    refine .object (.field (by decide) (by decide) (.object rfl (.cons (hvalues _ _) .nil)
      (.cons (fun _ => rfl) .nil)) (.list .or (.cons (.object ?_) .nil) .nil))
    exact .field (by decide) (by decide) (.str _ _) .nil
  have horder : (ready .mysql).dialect.orderClause .null = .ok none := rfl
  have hpage : Dialect.limitClause .null .null = .ok none := rfl
  have hread := texts_readAlike (ready .mysql) hfilter (.other (.same .null) (by simp)) hc hc'
    horder horder hpage "x" "y`"
  exact ⟨c, c', hc, hc', hread.2.2.2.2⟩

end Store

end DocStore
