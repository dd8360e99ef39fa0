import DocStore.Document.ObjectId
import DocStore.Proofs.Outcome
import DocStore.Proofs.Sql.Quoted
import DocStore.Proofs.Store.Run
import DocStore.Store.Collection

/-!
Tables that are made. Whatever is sent to make the table of a collection makes
a table or an index, and where the database refuses nothing a collection can be
obtained under every name but the empty one.
-/

namespace DocStore

/-- Whether a text is that of a statement that makes something. -/
def IsCreate (t : Text) : Prop := ∃ rest : Text, t = "CREATE" ++ rest

/-- A quoting that refuses no text that has a UTF-8 form. -/
def Dialect.QuotesAll (d : Dialect) : Prop :=
  ∀ t : Text, t.isEncodable = true → ∃ l, d.quote t = .ok l

namespace Dialect

theorem isCreate_of_mem_createStatements {d : Dialect} {table : Text} {sqls : List Sql}
    (h : d.createStatements table = .ok sqls) : ∀ sql ∈ sqls, IsCreate sql.render := by
  unfold createStatements at h
  cases he : d.engine with
  | mysql =>
    rw [he] at h
    obtain ⟨path, -, h⟩ := exists_of_bind_ok h
    obtain ⟨quoted, -, ⟨⟩⟩ := exists_of_bind_ok h
    exact List.forall_mem_singleton.mpr ⟨_, rfl⟩
  | pgsql =>
    rw [he] at h
    obtain ⟨quoted, -, h⟩ := exists_of_bind_ok h
    obtain ⟨index, -, h⟩ := exists_of_bind_ok h
    obtain ⟨key, -, ⟨⟩⟩ := exists_of_bind_ok h
    exact List.forall_mem_cons.mpr ⟨⟨_, rfl⟩, List.forall_mem_singleton.mpr ⟨_, rfl⟩⟩
  | sqlite =>
    rw [he] at h
    obtain ⟨quoted, -, h⟩ := exists_of_bind_ok h
    obtain ⟨index, -, h⟩ := exists_of_bind_ok h
    obtain ⟨key, -, ⟨⟩⟩ := exists_of_bind_ok h
    exact List.forall_mem_cons.mpr ⟨⟨_, rfl⟩, List.forall_mem_singleton.mpr ⟨_, rfl⟩⟩

variable {d : Dialect}

theorem exists_quoted (h : d.QuotesAll) {t : Text} (ht : t.isEncodable = true) :
    ∃ sql, d.quoted t = .ok sql := by
  obtain ⟨l, hl⟩ := h t ht
  exact ⟨[.literal l], by rw [quoted, hl]; rfl⟩

theorem exists_identifier (d : Dialect) {name : Text} (hname : name ≠ []) :
    ∃ sql, d.identifier name = .ok sql := by
  obtain ⟨c, t, rfl⟩ := List.exists_cons_of_ne_nil hname
  exact ⟨_, rfl⟩

theorem exists_pathLiteral_id (h : d.QuotesAll) : ∃ sql, d.pathLiteral "_id" = .ok sql := by
  unfold pathLiteral
  cases d.engine with
  | mysql => exact exists_quoted h (t := "$._id") rfl
  | pgsql => exact exists_quoted h (t := "\x7b\"_id\"\x7d") rfl
  | sqlite => exact exists_quoted h (t := "$._id") rfl

theorem exists_selector_id (hd : d.QuotesAll) : ∃ sql, d.selector idField true = .ok sql := by
  obtain ⟨path, hpath⟩ := exists_pathLiteral_id hd
  unfold selector
  rw [show d.pathLiteral idField = .ok path from hpath]
  cases d.engine <;> exact ⟨_, rfl⟩

/-- The statements that make a table are there for every name but the empty one. -/
theorem exists_createStatements (h : d.QuotesAll) {table : Text} (htable : table ≠ []) :
    ∃ sqls, d.createStatements table = .ok sqls := by
  obtain ⟨quoted, hquoted⟩ := d.exists_identifier htable
  have hname : indexName table ≠ [] := by simp [indexName, htable]
  obtain ⟨index, hindex⟩ := d.exists_identifier hname
  obtain ⟨path, hpath⟩ := exists_pathLiteral_id h
  obtain ⟨key, hkey⟩ := exists_quoted h (t := "_id") rfl
  unfold createStatements
  cases he : d.engine with
  | mysql => exact ⟨_, by rw [hpath, hquoted]; rfl⟩
  | pgsql => exact ⟨_, by rw [hquoted, hindex, hkey]; rfl⟩
  | sqlite =>
    have hselector : d.selector "_id" true =
        .ok ("json_extract(" ++ d.documentColumn ++ ", " ++ path ++ ")") := by
      rw [selector, hpath, he]
      rfl
    exact ⟨_, by rw [hquoted, hindex, hselector]; rfl⟩

end Dialect

/-- An open connection whose database refuses nothing quotes every text that has a UTF-8 form. -/
theorem Store.Works.quotesAll {s : Store} (h : s.Works) : s.dialect.QuotesAll := by
  intro t ht
  show ∃ l, s.quote t = .ok l
  unfold Store.quote
  simp only [h.isOpen, h.quoting, Option.filter_none, Bool.not_true, Bool.false_eq_true, if_false]
  obtain ⟨l, hl⟩ := s.engine.exists_quote ht
  exact ⟨l, by rw [hl]⟩

namespace Store

/-- A collection of a store, whose table has a name. -/
def Serves (s : Store) (c : Nat) : Prop :=
  ∃ x : Collection, s.collections[c]? = some x ∧ x.table ≠ []

theorem Leads.serves {s s' : Store} {es : List Event} (h : s.Leads es s') {c : Nat}
    (hc : s.Serves c) : s'.Serves c := by
  obtain ⟨x, hx, htable⟩ := hc
  obtain ⟨x', hx', -, htable'⟩ := h.tables c x hx
  exact ⟨x', hx', by rw [htable']; exact htable⟩

theorem Reaches.serves {P : Text → Prop} {s s' : Store} (h : s.Reaches P s') {c : Nat}
    (hc : s.Serves c) : s'.Serves c := by
  obtain ⟨es, hs, -⟩ := h
  exact hs.serves hc

theorem leads_setReady (s : Store) (c : Nat) (isReady : Bool) :
    s.Leads [] (s.setReady c isReady) where
  trace := (List.append_nil _).symm
  options := rfl
  isOpen := rfl
  identifiers := rfl
  failure := rfl
  quoting := rfl
  unquotable := rfl
  tables d x hx := by
    show ∃ x' : Collection, (s.collections.modify c fun x => { x with isReady := isReady })[d]? =
      some x' ∧ _
    rw [List.getElem?_modify, hx]
    by_cases hd : c = d
    · exact ⟨{ x with isReady := isReady }, by simp [hd], rfl, rfl⟩
    · exact ⟨x, by simp [hd], rfl, rfl⟩

theorem leads_register (s : Store) (x : Collection) : s.Leads [] (s.register x) where
  trace := (List.append_nil _).symm
  options := rfl
  isOpen := rfl
  identifiers := rfl
  failure := rfl
  quoting := rfl
  unquotable := rfl
  tables d y hy := by
    obtain ⟨hd, -⟩ := List.getElem?_eq_some_iff.mp hy
    exact ⟨y, (List.getElem?_append_left hd).trans hy, rfl, rfl⟩

theorem serves_register (s : Store) {x : Collection} (hx : x.table ≠ []) :
    (s.register x).Serves s.collections.length :=
  ⟨x, by simp [register], hx⟩

end Store

/-- What names a collection is a text that is not empty. -/
theorem collectionName_eq_ok_iff {v : Value} {t : Text} :
    collectionName v = .ok t ↔ v = .str t ∧ t ≠ [] := by
  constructor
  · intro h
    unfold collectionName at h
    split at h
    · cases h
    next htruthy =>
      split at h
      · cases h
        refine ⟨rfl, ?_⟩
        rintro rfl
        exact htruthy rfl
      · cases h
      · cases h
  · rintro ⟨rfl, hnonempty⟩
    obtain ⟨x, t, rfl⟩ := List.exists_cons_of_ne_nil hnonempty
    rfl

/-- The table of a collection has as long a name as the collection. -/
theorem length_tableName (name : Text) : (tableName name).length = name.length := by
  induction name with
  | nil => rfl
  | cons c t ih =>
    have hcons : tableName (c :: t) = (if c = '/' then ("_" : Text) else [c]) ++ tableName t := rfl
    have hone : (if c = '/' then ("_" : Text) else [c]).length = 1 := by split <;> rfl
    rw [hcons, List.length_append, ih, hone, List.length_cons]
    omega

theorem tableName_ne_nil {name : Text} (h : name ≠ []) : tableName name ≠ [] := by
  intro hnil
  have hlength := length_tableName name
  rw [hnil] at hlength
  exact h (List.length_eq_zero_iff.mp hlength.symm)

namespace Action

variable {s : Store} {c : Nat}

theorem ofMisuse_ok {α : Type} (x : α) : ofMisuse (.ok x) = pure x := rfl

/-- The collection of a number, where there is one. -/
theorem ensures_collection :
    Ensures (collection c) s fun r s' => s' = s ∧ ∀ x, s.collections[c]? = some x ↔ r = .ok x := by
  unfold collection
  rw [ensures_get_bind]
  cases hx : s.collections[c]? with
  | none => exact ⟨rfl, fun x => ⟨nofun, nofun⟩⟩
  | some x =>
    refine ⟨rfl, fun y => ?_⟩
    constructor
    · rintro ⟨⟩
      rfl
    · rintro ⟨⟩
      rfl

theorem ensures_sendAll (table : Text) {sqls : List Sql} (h : ∀ sql ∈ sqls, IsCreate sql.render) :
    Ensures (sendAll table sqls) s fun r s' =>
      s.Reaches IsCreate s' ∧ (s.Works → r = .ok ()) := by
  induction sqls generalizing s with
  | nil => exact ⟨.refl s, fun _ => rfl⟩
  | cons sql sqls ih =>
    obtain ⟨hsql, hsqls⟩ := List.forall_mem_cons.mp h
    unfold sendAll
    refine (ensures_change_reaches (P := IsCreate) (.create table sql) hsql).bind ?_ ?_
    · rintro v s₁ ⟨hs₁, -⟩
      refine (ih hsqls).mono ?_
      rintro r s' ⟨hs', hok⟩
      exact ⟨hs₁.trans hs', fun hworks => hok (hs₁.works hworks)⟩
    · rintro fault s₁ ⟨hs₁, hok⟩
      refine ⟨hs₁, fun hworks => ?_⟩
      obtain ⟨v, hv⟩ := hok hworks
      cases hv

theorem ensures_makeTable (table : Text) :
    Ensures (makeTable table) s fun r s' =>
      s.Reaches IsCreate s' ∧ (s.Works → table ≠ [] → r = .ok ()) := by
  unfold makeTable
  refine (ensures_inDialect _).bind ?_ ?_
  · rintro sqls s₁ ⟨hsqls, hs₁⟩
    refine (ensures_sendAll table (Dialect.isCreate_of_mem_createStatements hsqls.symm)).mono ?_
    rintro r s' ⟨hs', hok⟩
    exact ⟨(Store.Reaches.of_leads hs₁).trans hs', fun hworks _ => hok (hs₁.works hworks)⟩
  · rintro fault s₁ ⟨hfault, hs₁⟩
    refine ⟨.of_leads hs₁, fun hworks htable => ?_⟩
    obtain ⟨sqls, hsqls⟩ := Dialect.exists_createStatements hworks.quotesAll htable
    rw [hsqls] at hfault
    cases hfault

/-- The table of a collection is there, or is made. -/
theorem ensures_ensureTable :
    Ensures (ensureTable c) s fun r s' =>
      s.Reaches IsCreate s' ∧ (s.Works → s.Serves c → r = .ok ()) := by
  unfold ensureTable
  refine ensures_collection.bind ?_ ?_
  · rintro x _ ⟨rfl, hx⟩
    cases hready : x.isReady with
    | true => exact ⟨.refl _, fun _ _ => rfl⟩
    | false =>
      refine (ensures_makeTable x.table).bind ?_ ?_
      · rintro _ s₁ ⟨hs₁, -⟩
        rw [ensures_modify_bind]
        refine (ensures_logOf ..).mono ?_
        rintro _ s₂ ⟨rfl, hs₂⟩
        have hset := (s₁.leads_setReady c true).trans hs₂
        exact ⟨hs₁.trans (.of_leads hset), fun _ _ => rfl⟩
      · rintro fault s₁ ⟨hs₁, hok⟩
        refine ⟨hs₁, ?_⟩
        rintro hworks ⟨y, hy, htable⟩
        cases (hx y).mp hy
        cases hok hworks htable
  · rintro fault _ ⟨rfl, hx⟩
    refine ⟨.refl _, ?_⟩
    rintro - ⟨y, hy, -⟩
    cases (hx y).mp hy

theorem ensures_makeCollection (name : Text) :
    Ensures (makeCollection name) s fun r s' =>
      s.Reaches IsCreate s' ∧
        (s.Works → tableName name ≠ [] → ∃ c, r = .ok c ∧ s'.Serves c) := by
  unfold makeCollection
  refine (ensures_makeTable _).bind ?_ ?_
  · rintro _ s₁ ⟨hs₁, -⟩
    refine (ensures_logOf ..).bind ?_ (by rintro _ _ ⟨h, -⟩; cases h)
    rintro _ s₂ ⟨-, hs₂⟩
    have hregister := hs₂.trans (s₂.leads_register ⟨name, tableName name, true⟩)
    refine ⟨hs₁.trans (.of_leads hregister), fun _ htable => ?_⟩
    exact ⟨_, rfl, s₂.serves_register htable⟩
  · rintro fault s₁ ⟨hs₁, hok⟩
    refine ⟨hs₁, fun hworks htable => ?_⟩
    cases hok hworks htable

/-- A collection that was obtained before, or one that is made. -/
theorem ensures_obtain (id : Value) :
    Ensures (obtain id) s fun r s' =>
      s.Reaches IsCreate s' ∧
        ∀ name, id = .str name → name ≠ [] → s.Works →
          (∀ c, s.registry.lookup name = some c → s.Serves c) → ∃ c, r = .ok c ∧ s'.Serves c := by
  unfold obtain
  cases hkey : id.isKey with
  | false =>
    refine ⟨.refl s, ?_⟩
    rintro name rfl
    cases hkey
  | true =>
    simp only [Bool.not_true, Bool.false_eq_true, if_false]
    cases hname : collectionName id with
    | error fault =>
      refine ⟨.refl s, ?_⟩
      rintro name rfl hne
      obtain ⟨x, t, rfl⟩ := List.exists_cons_of_ne_nil hne
      cases hname
    | ok name =>
      rw [ofMisuse_ok, pure_bind, ensures_get_bind]
      cases hlookup : s.registry.lookup name with
      | some c =>
        refine ⟨.refl s, ?_⟩
        rintro name' rfl hne - hserves
        obtain ⟨⟨⟩, -⟩ := collectionName_eq_ok_iff.mp hname
        exact ⟨c, rfl, hserves c hlookup⟩
      | none =>
        refine (ensures_makeCollection name).mono ?_
        rintro r s' ⟨hs', hok⟩
        refine ⟨hs', ?_⟩
        rintro name' rfl hne hworks -
        obtain ⟨⟨⟩, -⟩ := collectionName_eq_ok_iff.mp hname
        exact hok hworks (tableName_ne_nil hne)

end Action

end DocStore
