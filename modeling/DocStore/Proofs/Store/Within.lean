import DocStore.Proofs.Store.Step

/-!
Actions in steps. An action is within a condition on statements when all that
it does are steps of the store that send no other statements; what comes of it
where it does not fail is said beside. One rule for each way of putting actions
together, and one for each action of a connection and of the collections.
-/

namespace DocStore

namespace Action

variable {α β : Type} {P : Statement → Prop} {s : Store}

/-- An action takes steps that send only statements of one kind; where it does not fail, its result
and the store after it meet a condition. -/
def Within (P : Statement → Prop) (a : Action α) (s : Store) (Q : α → Store → Prop) : Prop :=
  Ensures a s fun r s' => s.Steps P s' ∧ ∀ x, r = .ok x → Q x s'

namespace Within

variable {a : Action α} {f : α → Action β} {Q Q' : α → Store → Prop} {R : β → Store → Prop}

theorem steps (h : Within P a s Q) : s.Steps P (a.outcome s).2 := h.1

theorem pure {x : α} (h : Q x s) : Within P (Pure.pure x) s Q :=
  ⟨.refl, by rintro _ ⟨⟩; exact h⟩

theorem throw (fault : Fault) : Within P (throw fault : Action α) s Q := ⟨.refl, nofun⟩

/-- The second of two actions starts from what the first one comes to; where the first one fails, so
do both. -/
theorem bind (ha : Within P a s Q)
    (hf : ∀ x s', s.Steps P s' → Q x s' → Within P (f x) s' R) : Within P (a >>= f) s R := by
  refine Ensures.bind ha ?_ ?_
  · rintro x s' ⟨hs, hx⟩
    refine (hf x s' hs (hx x rfl)).mono ?_
    rintro r s'' ⟨hs', hr⟩
    exact ⟨hs.trans hs', hr⟩
  · rintro fault s' ⟨hs, -⟩
    exact ⟨hs, nofun⟩

theorem mono (ha : Within P a s Q) (h : ∀ x s', s.Steps P s' → Q x s' → Q' x s') :
    Within P a s Q' := by
  refine Ensures.mono ha ?_
  rintro r s' ⟨hs, hx⟩
  exact ⟨hs, fun x hr => h x s' hs (hx x hr)⟩

/-- What comes of an action does not matter. -/
theorem weaken (ha : Within P a s Q) : Within P a s fun _ _ => True :=
  ha.mono fun _ _ _ _ => trivial

theorem get_bind {f : Store → Action β} (h : Within P (f s) s R) : Within P (get >>= f) s R := h

theorem modify_bind {g : Store → Store} {f : PUnit → Action β} (hg : s.Step P (g s))
    (h : Within P (f ()) (g s) R) : Within P (modify g >>= f) s R :=
  bind (Q := fun _ s' => s' = g s) ⟨.single hg, fun _ _ => rfl⟩ (by rintro _ _ - rfl; exact h)

end Within

/-! ### The connection -/

/-- What only keeps something for later is a step aside. -/
theorem step_aside {s' : Store} (htrace : s'.trace = s.trace) (hopen : s'.isOpen = s.isOpen)
    (hidentifiers : s'.identifiers = s.identifiers) (hscript : s'.script = s.script)
    (held : s'.holdings = s.holdings) : s.Step P s' :=
  .aside (.of_eq (htrace.trans (List.append_nil _).symm) (Store.options_of_holdings held) hopen
    hidentifiers hscript (Store.collections_of_holdings held)) held

theorem within_ofMisuse (r : Except Misuse α) :
    Within P (ofMisuse r) s fun x s' => s' = s ∧ r = .ok x := by
  cases r with
  | ok x => exact .pure ⟨rfl, rfl⟩
  | error fault => exact .throw _

theorem within_ofChecked (r : Checked α) :
    Within P (ofChecked r) s fun x s' => s' = s ∧ r = .ok x := by
  cases r with
  | ok x => exact .pure ⟨rfl, rfl⟩
  | error issues => exact .throw _

theorem within_log (level : Level) (message : Text) (metadata : Members) :
    Within P (log level message metadata) s fun _ _ => True :=
  ⟨.single (step_aside rfl rfl rfl rfl rfl), fun _ _ => trivial⟩

theorem within_logOf (name : Text) (level : Level) (message : Text) :
    Within P (logOf name level message) s fun _ _ => True :=
  ⟨.single (step_aside rfl rfl rfl rfl rfl), fun _ _ => trivial⟩

theorem within_record {e : Event} (he : e.statement? = none) :
    Within P (record e) s fun _ _ => True :=
  ⟨.single (.event he), fun _ _ => trivial⟩

theorem within_fail {Q : α → Store → Prop} (fault : Fault) : Within P (fail fault) s Q := by
  unfold fail
  have hlog : Within P (logRefused fault) s fun _ _ => True := by
    cases fault with
    | statement f => exact within_log ..
    | _ => exact .pure trivial
  exact hlog.bind fun _ _ _ _ => .throw fault

theorem within_inDialect (f : Dialect → Except Fault α) :
    Within P (inDialect f) s fun x s' => s' = s ∧ f s.dialect = .ok x := by
  unfold inDialect
  refine .get_bind ?_
  cases h : f s.dialect with
  | ok x => exact .pure ⟨rfl, rfl⟩
  | error fault => exact within_fail fault

theorem within_send {st : Statement} (hP : P st) (hkeeps : st.KeepsTables)
    (hready : ∀ t ∈ st.table?, ∃ c, s.IsReady c t) :
    Within P (send st) s fun _ _ => True := by
  refine Ensures.mono ((ensures_send st).and ((keeps_send st).ensures s)) ?_
  rintro r s' ⟨⟨-, rfl, -⟩ | ⟨-, hsent⟩, held⟩
  · exact ⟨.refl, fun _ _ => trivial⟩
  -- What else sending does, it does aside: it logs, and takes a reply.
  · have hs' := hsent.leads
    have hrest : Store.Leads { s with trace := s.trace ++ [.send s.opened st] } [] s' :=
      ⟨hs'.trace.trans (List.append_nil _).symm, hs'.options, hs'.isOpen, hs'.identifiers,
        hs'.failure, hs'.quoting, hs'.unquotable, hs'.tables⟩
    refine ⟨.tail (.single (.send s.opened hP hkeeps hready)) ?_, fun _ _ => trivial⟩
    exact .aside hrest held

theorem within_failReading {Q : α → Store → Prop} (cursor : Nat) (st : Statement) (r : Refusal) :
    Within P (failReading cursor st r) s Q := by
  unfold failReading
  refine (within_record rfl).bind fun _ s₁ _ _ => ?_
  exact .get_bind (within_fail _)

variable {st : Statement} (hP : P st) (hkeeps : st.KeepsTables)
  (hready : ∀ t ∈ st.table?, ∃ c, s.IsReady c t)

include hP hkeeps hready in
theorem within_change : Within P (change st) s fun _ _ => True := by
  unfold change
  refine (within_send hP hkeeps hready).bind fun p s₁ _ _ => ?_
  refine (within_record rfl).bind fun _ s₂ _ _ => ?_
  exact .get_bind (.pure trivial)

include hP hkeeps hready in
theorem within_rows : Within P (rows st) s fun _ _ => True := by
  unfold rows
  refine (within_send hP hkeeps hready).bind fun p s₁ _ _ => ?_
  refine (within_record rfl).bind fun _ s₂ _ _ => ?_
  split
  · exact within_failReading ..
  · exact (within_record rfl).bind fun _ _ _ _ => .pure trivial

theorem within_endRows (cursor : Nat) (st : Statement) (refusal : Option Refusal) :
    Within P (endRows cursor st refusal) s fun _ _ => True := by
  unfold endRows
  refine (within_record rfl).bind fun _ s₁ _ _ => ?_
  split
  · exact within_failReading ..
  · exact within_record rfl

end Action

/-! ### Tables and collections -/

/-- Whether a statement makes a table or an index of it, or writes a document that is given. -/
def Statement.IsPlain : Statement → Prop
  | .create _ sql => IsCreate sql.render
  | .insert .. | .update .. => True
  | _ => False

theorem Statement.IsPlain.exists_head {st : Statement} (h : st.IsPlain) (e : Engine) :
    ∃ c ∈ ("CIU" : Text), (st.text e).head? = some c := by
  cases st with
  | create table sql =>
    obtain ⟨rest, hrest⟩ := h
    refine ⟨CodePoint.ofChar 'C', by decide, ?_⟩
    show sql.render.head? = _
    rw [hrest]
    rfl
  | insert table documents => exact ⟨CodePoint.ofChar 'I', by decide, rfl⟩
  | update table document selector id => exact ⟨CodePoint.ofChar 'U', by decide, rfl⟩
  | _ => exact h.elim

namespace Dialect

theorem creation_prefix {d : Dialect} {table : Text} {quoted : Sql}
    (h : d.identifier table = .ok quoted) (tail : Sql) :
    Statement.creation d.engine table <+:
      Sql.render ("CREATE TABLE IF NOT EXISTS " ++ (quoted ++ (" (" ++ tail))) := by
  unfold identifier quoteName? at h
  split at h
  next hname =>
    split at hname
    · cases hname
    · cases hname
      cases h
      exact ⟨tail.render, by simp [Statement.creation, Sql.render, Sql.code, Piece.text]⟩
  next => cases h

/-- The first of the statements that make a table makes the table itself. -/
theorem creation_of_createStatements {d : Dialect} {table : Text} {sqls : List Sql}
    (h : d.createStatements table = .ok sqls) :
    ∃ sql rest, sqls = sql :: rest ∧ Statement.creation d.engine table <+: sql.render := by
  unfold createStatements at h
  cases he : d.engine with
  | mysql =>
    rw [he] at h
    obtain ⟨path, -, h⟩ := exists_of_bind_ok h
    obtain ⟨quoted, hquoted, ⟨⟩⟩ := exists_of_bind_ok h
    refine ⟨_, _, rfl, ?_⟩
    simpa only [he, List.append_assoc] using creation_prefix hquoted _
  | pgsql =>
    rw [he] at h
    obtain ⟨quoted, hquoted, h⟩ := exists_of_bind_ok h
    obtain ⟨index, -, h⟩ := exists_of_bind_ok h
    obtain ⟨key, -, ⟨⟩⟩ := exists_of_bind_ok h
    refine ⟨_, _, rfl, ?_⟩
    simpa only [he, List.append_assoc] using creation_prefix hquoted _
  | sqlite =>
    rw [he] at h
    obtain ⟨quoted, hquoted, h⟩ := exists_of_bind_ok h
    obtain ⟨index, -, h⟩ := exists_of_bind_ok h
    obtain ⟨key, -, ⟨⟩⟩ := exists_of_bind_ok h
    refine ⟨_, _, rfl, ?_⟩
    simpa only [he, List.append_assoc] using creation_prefix hquoted _

end Dialect

namespace Action

variable {α : Type} {P : Statement → Prop} {s : Store}

theorem Within.of_ensures {a : Action α} {Q : α → Store → Prop} (h : Within P a s fun _ _ => True)
    (h' : Ensures a s fun r s' => ∀ x, r = .ok x → Q x s') : Within P a s Q := ⟨h.1, h'⟩

theorem within_collection (c : Nat) :
    Within P (collection c) s fun x s' => s' = s ∧ s.collections[c]? = some x := by
  unfold collection
  refine .get_bind ?_
  cases hx : s.collections[c]? with
  | none => exact .throw _
  | some x => exact .pure ⟨rfl, rfl⟩

/-- A statement that was sent has done what it does to the tables. -/
theorem ensures_change_tables (st : Statement) :
    Ensures (change st) s fun r s' =>
      ∀ v, r = .ok v → s'.tables = st.tablesAfter s.engine s.tables := by
  refine (ensures_change st).mono ?_
  rintro r s' (⟨-, -, fault, rfl⟩ | ⟨es, hs', hsent, -⟩) v hv
  · cases hv
  · rw [Store.tables_append hs'.trace hs'.engine, hsent]
    rfl

variable (hplain : ∀ st : Statement, st.IsPlain → P st)

include hplain in
theorem within_sendAll (table : Text) {sqls : List Sql} (hsqls : ∀ sql ∈ sqls, IsCreate sql.render) :
    Within P (sendAll table sqls) s fun _ s' =>
      ∀ sql ∈ sqls, Statement.creation s.engine table <+: sql.render → table ∈ s'.tables := by
  induction sqls generalizing s with
  | nil => exact .pure fun _ h => absurd h List.not_mem_nil
  | cons sql sqls ih =>
    obtain ⟨hsql, hsqls⟩ := List.forall_mem_cons.mp hsqls
    unfold sendAll
    have hchange : Within P (change (.create table sql)) s _ :=
      .of_ensures (within_change (hplain (.create table sql) hsql) trivial (by rintro _ ⟨⟩))
        (ensures_change_tables _)
    refine hchange.bind fun _ s₁ hs₁ htables => ?_
    refine (ih hsqls).mono fun _ s' hs' hmem => ?_
    rw [hs₁.engine] at hmem
    refine List.forall_mem_cons.mpr ⟨fun hcreation => hs'.mem_tables ?_, hmem⟩
    rw [htables, Statement.tablesAfter, if_pos hcreation]
    exact List.mem_cons_self

include hplain in
theorem within_makeTable (table : Text) :
    Within P (makeTable table) s fun _ s' => table ∈ s'.tables := by
  unfold makeTable
  refine (within_inDialect _).bind ?_
  rintro sqls _ - ⟨rfl, hsqls⟩
  have hcreate := Dialect.isCreate_of_mem_createStatements hsqls
  refine (within_sendAll hplain table hcreate).mono fun _ s' _ hmem => ?_
  obtain ⟨sql, rest, rfl, hcreation⟩ := Dialect.creation_of_createStatements hsqls
  exact hmem sql List.mem_cons_self hcreation

include hplain in
/-- A collection knows that its table is there once that was made sure. -/
theorem within_ensureTable (c : Nat) :
    Within P (ensureTable c) s fun _ s' => ∃ table, s'.IsReady c table := by
  unfold ensureTable
  refine (within_collection c).bind ?_
  rintro x _ - ⟨rfl, hx⟩
  cases hready : x.isReady with
  | true => exact .pure ⟨x.table, x, hx, rfl, hready⟩
  | false =>
    -- The table that was made is that of the collection still, for no step moves a collection.
    refine (within_makeTable hplain x.table).bind fun _ s₁ hs₁ htable => ?_
    obtain ⟨es, hleads, -⟩ := hs₁.leads
    obtain ⟨y, hy, -, hytable⟩ := hleads.tables c x hx
    rw [← hytable] at htable
    refine .modify_bind (.ready hy htable) ?_
    refine (within_logOf ..).mono fun _ s' hs' _ => ?_
    exact ⟨y.table, hs'.isReady ((Store.isReady_setReady hy).mpr (.inr ⟨rfl, rfl⟩))⟩

include hplain in
theorem within_makeCollection {name : Text} (hnew : s.registry.lookup name = none) :
    Within P (makeCollection name) s fun _ _ => True := by
  unfold makeCollection
  have hmade : Within P (makeTable (tableName name)) s fun _ s' =>
      tableName name ∈ s'.tables ∧ s'.registry = s.registry := by
    have hregistry := (keeps_makeTable (tableName name)).registry.ensures s
    refine Ensures.mono (hregistry.and (within_makeTable hplain (tableName name))) ?_
    rintro r s' ⟨hregistry, hsteps, htable⟩
    exact ⟨hsteps, fun x hx => ⟨htable x hx, hregistry⟩⟩
  refine hmade.bind ?_
  rintro _ s₁ - ⟨htable, hregistry⟩
  -- That the table is there is logged before the collection is made.
  let s₂ : Store := { s₁ with
    journal := (s₁.collectionLogger name).log .info ("컬렉션 테이블 준비 완료: " ++ tableName name) none []
      s₁.journal }
  have hlogged : s₁.Step P s₂ := step_aside rfl rfl rfl rfl rfl
  have hmade : s₂.Step P (s₂.register ⟨name, tableName name, true⟩) :=
    .register (hlogged.mem_tables htable) rfl (by rw [← hnew, ← hregistry])
  exact ⟨.tail (.single hlogged) hmade, fun _ _ => trivial⟩

include hplain in
theorem within_obtain (id : Value) : Within P (obtain id) s fun _ _ => True := by
  unfold obtain
  cases id.isKey with
  | false => exact .throw _
  | true =>
    refine (within_ofMisuse _).bind fun name s₁ _ _ => ?_
    refine .get_bind ?_
    cases hlookup : s₁.registry.lookup name with
    | some c => exact .pure trivial
    | none => exact within_makeCollection hplain hlookup

theorem within_hasTable (hpresence : ∀ sql, P (.presence sql)) (v : Value) :
    Within P (hasTable v) s fun _ _ => True := by
  unfold hasTable
  refine (within_ofMisuse _).bind fun name s₁ _ _ => ?_
  refine (within_inDialect _).bind fun sql s₂ _ _ => ?_
  refine (within_rows (hpresence sql) trivial nofun).bind fun rows s₃ _ _ => ?_
  refine (within_ofMisuse _).bind fun n s₄ _ _ => ?_
  exact .pure trivial

end Action

end DocStore
