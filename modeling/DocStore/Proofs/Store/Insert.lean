import DocStore.Proofs.Document.ObjectId
import DocStore.Proofs.Store.Insertion
import DocStore.Proofs.Store.Statement
import DocStore.Store.Verb

/-!
Documents that are added. Each is converted and gets an identifier once; what
is sent then is one statement, whose literals denote the JSON texts of the very
documents that are answered. Where one of them cannot be converted or written,
nothing of the kind is sent.
-/

namespace DocStore

/-- Whether a text is that of a statement that adds documents. -/
def isInsert (t : Text) : Bool := t.startsWith "INSERT"

/-- A text is read as a statement that adds documents: its literals denote the JSON texts of these
documents, in order, and there is nothing else in its rows. -/
def Engine.ReadsInsert (e : Engine) (text : Text) (stored : List Members) : Prop :=
  ∃ table texts, e.lexis.lex text = some (Statement.insertTokens table texts) ∧
    List.Forall₂ (fun ms t => Json.encode (.object ms) = some t) stored texts

theorem Engine.ReadsInsert.encoded {e : Engine} {text : Text} {stored : List Members}
    (h : e.ReadsInsert text stored) : ∀ ms ∈ stored, (Json.encode (.object ms)).isSome := by
  obtain ⟨table, texts, -, hencode⟩ := h
  have hboth := hencode.imp fun ms t ht =>
    And.intro (Option.isSome_iff_exists.mpr ⟨t, ht⟩ : (Json.encode (.object ms)).isSome) ht
  exact ((List.forall₂_and_left _ _).mp hboth).1

namespace Store

/-- Between two stores, these are the texts of the statements sent that add documents. -/
def SendsInserts (s s' : Store) (ts : List Text) : Prop :=
  ∃ es, s.Leads es s' ∧ (sentTexts s.engine es).filter isInsert = ts

variable {s s' s'' : Store}

theorem SendsInserts.trans {ts ts' : List Text} (h : s.SendsInserts s' ts)
    (h' : s'.SendsInserts s'' ts') : s.SendsInserts s'' (ts ++ ts') := by
  obtain ⟨es, hs, rfl⟩ := h
  obtain ⟨es', hs', rfl⟩ := h'
  refine ⟨es ++ es', hs.trans hs', ?_⟩
  rw [sentTexts_append, List.filter_append, hs.engine]

theorem Leads.sendsNoInsert (h : s.Leads [] s') : s.SendsInserts s' [] := ⟨[], h, rfl⟩

/-- Nothing that makes a table adds a document. -/
theorem Reaches.sendsNoInsert (h : s.Reaches IsCreate s') : s.SendsInserts s' [] := by
  obtain ⟨es, hs, hcreate⟩ := h
  refine ⟨es, hs, List.filter_eq_nil_iff.mpr fun t ht => ?_⟩
  obtain ⟨rest, rfl⟩ := hcreate t ht
  exact Bool.false_ne_true

end Store

/-- A document that can be converted and has a JSON text. -/
def Storable (v : Value) : Prop :=
  ∃ ms, Members.ofValue v = .ok ms ∧ (Json.encode (.object ms)).isSome

/-- A document is stored as it is converted, with one of these identifiers where it has none. -/
def StoredAs (identifiers : Nat → Text) (v : Value) (ms : Members) : Prop :=
  ∃ given n, Members.ofValue v = .ok given ∧ ms = withId given (identifiers n)

theorem StoredAs.storable_iff {identifiers : Nat → Text} {v : Value} {ms : Members}
    (h : StoredAs identifiers v ms) : Storable v ↔ (Json.encode (.object ms)).isSome := by
  obtain ⟨given, n, hgiven, rfl⟩ := h
  rw [isSome_encode_withId]
  constructor
  · rintro ⟨given', hgiven', hencode⟩
    rw [hgiven] at hgiven'
    cases hgiven'
    exact hencode
  · intro hencode
    exact ⟨given, hgiven, hencode⟩

theorem StoredAs.forall_storable_iff {identifiers : Nat → Text} {documents : List Value}
    {stored : List Members} (h : List.Forall₂ (StoredAs identifiers) documents stored) :
    (∀ v ∈ documents, Storable v) ↔ ∀ ms ∈ stored, (Json.encode (.object ms)).isSome := by
  induction h with
  | nil => simp
  | cons hv _ ih => rw [List.forall_mem_cons, List.forall_mem_cons, hv.storable_iff, ih]

theorem StoredAs.forall_hasId {identifiers : Nat → Text} (hids : ∀ n, identifiers n ≠ [])
    {documents : List Value} {stored : List Members}
    (h : List.Forall₂ (StoredAs identifiers) documents stored) :
    ∀ ms ∈ stored, lacksId ms = false := by
  induction h with
  | nil => simp
  | cons hv _ ih =>
    obtain ⟨given, n, -, rfl⟩ := hv
    exact List.forall_mem_cons.mpr ⟨lacksId_withId (hids n), ih⟩

theorem storable_object {ms : Members} :
    Storable (.object ms) ↔ (Json.encode (.object ms)).isSome := by
  constructor
  · rintro ⟨_, ⟨⟩, hencode⟩
    exact hencode
  · intro hencode
    exact ⟨ms, rfl, hencode⟩

/-- Documents that have their identifiers are stored as they are. -/
theorem StoredAs.eq_of_hasId {identifiers : Nat → Text} {stored stored' : List Members}
    (hall : ∀ ms ∈ stored, lacksId ms = false)
    (h : List.Forall₂ (StoredAs identifiers) (stored.map Value.object) stored') :
    stored' = stored := by
  induction stored generalizing stored' with
  | nil =>
    cases h
    rfl
  | cons ms stored ih =>
    obtain ⟨hms, hrest⟩ := List.forall_mem_cons.mp hall
    cases h with
    | cons hfirst h =>
      obtain ⟨given, n, ⟨⟩, rfl⟩ := hfirst
      rw [withId_of_hasId hms, ih hrest h]

/-- Documents are added: one statement is sent, or none where there is no document; or something
fails before. The answer is made of the documents that the statement stores. -/
def Store.Adds {α : Type} (s : Store) (documents : List Value) (answers : List Members → α → Prop)
    (r : Except Fault α) (s' : Store) : Prop :=
  (s.SendsInserts s' [] ∧ ∃ fault, r = .error fault) ∨
    ∃ stored, List.Forall₂ (StoredAs s.identifiers) documents stored ∧
      (∀ x, r = .ok x → answers stored x) ∧
      ((stored = [] ∧ s.SendsInserts s' []) ∨
        (stored ≠ [] ∧ ∃ text, s.SendsInserts s' [text] ∧ s.engine.ReadsInsert text stored))

namespace Store.Adds

variable {α β : Type} {s s₁ s' : Store} {documents : List Value} {answers : List Members → α → Prop}
  {r : Except Fault α}

/-- What made tables before has added nothing. -/
theorem after (hs : s.Reaches IsCreate s₁) (h : s₁.Adds documents answers r s') :
    s.Adds documents answers r s' := by
  have hnone := hs.sendsNoInsert
  obtain ⟨hs', hfault⟩ | ⟨stored, hstored, hanswers, hsent⟩ := h
  · exact .inl ⟨hnone.trans hs', hfault⟩
  · rw [hs.identifiers] at hstored
    rw [hs.engine] at hsent
    refine .inr ⟨stored, hstored, hanswers, ?_⟩
    obtain ⟨hnil, hs'⟩ | ⟨hne, text, hs', hread⟩ := hsent
    · exact .inl ⟨hnil, hnone.trans hs'⟩
    · exact .inr ⟨hne, text, hnone.trans hs', hread⟩

/-- A further step that only makes another answer. -/
theorem of_answers {r' : Except Fault β} {answers' : List Members → β → Prop}
    (h : s.Adds documents answers r s')
    (herror : ∀ fault, r = .error fault → ∃ fault, r' = .error fault)
    (hok : ∀ stored y, r' = .ok y → (∀ x, r = .ok x → answers stored x) → answers' stored y) :
    s.Adds documents answers' r' s' := by
  obtain ⟨hs', fault, hfault⟩ | ⟨stored, hstored, hanswers, hsent⟩ := h
  · exact .inl ⟨hs', herror fault hfault⟩
  · exact .inr ⟨stored, hstored, fun y hy => hok stored y hy hanswers, hsent⟩

/-- Documents with their identifiers are added in the place of those they were made of. -/
theorem of_identified {stored : List Members} (hids : ∀ n, s.identifiers n ≠ [])
    (hstored : List.Forall₂ (StoredAs s.identifiers) documents stored)
    (h : s.Adds (stored.map Value.object) answers r s') :
    s.Adds documents (fun stored' _ => stored' = stored) r s' := by
  have hall := StoredAs.forall_hasId hids hstored
  obtain h | ⟨stored', hstored', -, hsent⟩ := h
  · exact .inl h
  · obtain rfl := StoredAs.eq_of_hasId hall hstored'
    exact .inr ⟨stored', hstored, fun _ _ => rfl, hsent⟩

end Store.Adds

namespace Action

variable {s : Store} {c : Nat}

theorem ensures_identified (v : Value) :
    Ensures (identified v) s fun r s' => s.Leads [] s' ∧
      ((∃ fault, Members.ofValue v = .error fault ∧ r = .error (.misuse fault)) ∨
        ∃ ms, r = .ok ms ∧ StoredAs s.identifiers v ms) := by
  unfold identified
  cases hv : Members.ofValue v with
  | error fault => exact ⟨.refl s, .inl ⟨fault, rfl, rfl⟩⟩
  | ok given =>
    rw [ofMisuse_ok, pure_bind]
    cases hlacks : lacksId given with
    | false =>
      refine ⟨.refl s, .inr ⟨given, rfl, given, 0, hv, ?_⟩⟩
      exact (withId_of_hasId hlacks _).symm
    | true =>
      have hgiven : s.Leads [] { s with given := s.given + 1 } :=
        .of_eq (List.append_nil _).symm rfl rfl rfl rfl rfl
      exact ⟨hgiven, .inr ⟨_, rfl, given, s.given, hv, rfl⟩⟩

/-- Documents get their identifiers in order, unless one of them cannot be converted. -/
theorem ensures_identifiedAll (documents : List Value) :
    Ensures (identifiedAll documents) s fun r s' => s.Leads [] s' ∧
      (((∃ v ∈ documents, ∃ fault, Members.ofValue v = .error fault) ∧ ∃ fault, r = .error fault) ∨
        ∃ stored, r = .ok stored ∧
          List.Forall₂ (StoredAs s.identifiers) documents stored) := by
  induction documents generalizing s with
  | nil => exact ⟨.refl s, .inr ⟨[], rfl, .nil⟩⟩
  | cons v documents ih =>
    unfold identifiedAll
    refine (ensures_identified v).bind ?_ ?_
    · rintro ms s₁ ⟨hs₁, ⟨_, _, h⟩ | ⟨_, ⟨⟩, hms⟩⟩
      · cases h
      · refine ih.bind ?_ ?_
        · rintro stored s₂ ⟨hs₂, ⟨_, _, h⟩ | ⟨_, ⟨⟩, hstored⟩⟩
          · cases h
          · rw [hs₁.identifiers] at hstored
            exact ⟨hs₁.trans hs₂, .inr ⟨ms :: stored, rfl, .cons hms hstored⟩⟩
        · rintro fault s₂ ⟨hs₂, ⟨⟨w, hw, hfault⟩, -⟩ | ⟨_, h, -⟩⟩
          · exact ⟨hs₁.trans hs₂, .inl ⟨⟨w, List.mem_cons_of_mem _ hw, hfault⟩, fault, rfl⟩⟩
          · cases h
    · rintro fault s₁ ⟨hs₁, ⟨fault', hv, -⟩ | ⟨_, h, -⟩⟩
      · exact ⟨hs₁, .inl ⟨⟨v, List.mem_cons_self .., fault', hv⟩, fault, rfl⟩⟩
      · cases h

/-- Literals of documents denote their JSON texts. -/
theorem literals_of_documents {stored : List Members} {sqls : List Sql}
    (h : stored.mapM s.dialect.document = .ok sqls) :
    ∃ literals texts, sqls = literals.map (fun l => [.literal l]) ∧
      List.Forall₂ (fun l t => s.engine.lexis.lex l = some [.literal t]) literals texts ∧
      List.Forall₂ (fun ms t => Json.encode (.object ms) = some t) stored texts := by
  have hall := forall₂_of_mapM_ok h
  clear h
  induction hall with
  | nil => exact ⟨[], [], rfl, .nil, .nil⟩
  | cons hms _ ih =>
    obtain ⟨literals, texts, rfl, hliterals, htexts⟩ := ih
    obtain ⟨t, l, ht, rfl, hl⟩ := Store.literal_of_document hms
    exact ⟨l :: literals, t :: texts, rfl, .cons hl hliterals, .cons ht htexts⟩

theorem ensures_insertion {e : Engine} {stored : List Members} (table : Text)
    {literals texts : List Text}
    (hliterals : List.Forall₂ (fun l t => e.lexis.lex l = some [.literal t]) literals texts)
    (htexts : List.Forall₂ (fun ms t => Json.encode (.object ms) = some t) stored texts)
    (hs : s.engine = e) :
    Ensures (change (.insert table (literals.map fun l => [.literal l]))) s fun r s' =>
      ((s.SendsInserts s' [] ∧ ∃ fault, r = .error fault) ∨
        ∃ text, s.SendsInserts s' [text] ∧ e.ReadsInsert text stored) ∧
      (s.Works → ∃ v, r = .ok v) := by
  subst hs
  refine (ensures_change _).mono ?_
  rintro r s' (⟨hclosed, rfl, hfault⟩ | ⟨es, hs', hsent, -, hok⟩)
  · refine ⟨.inl ⟨(Store.Leads.refl _).sendsNoInsert, hfault⟩, fun hworks => ?_⟩
    rw [hworks.isOpen] at hclosed
    cases hclosed
  · have hread : s.engine.ReadsInsert _ stored :=
      ⟨table, texts, Statement.lex_insert table hliterals, htexts⟩
    refine ⟨.inr ⟨_, ⟨es, hs', ?_⟩, hread⟩, fun hworks => hok hworks.failure⟩
    rw [sentTexts_eq, hsent]
    rfl

/-- Documents that have their identifiers are added by one statement, unless something fails before
it is sent. -/
theorem ensures_insertMembers (stored : List Members) :
    Ensures (insertMembers c stored) s fun r s' =>
      ((s.SendsInserts s' [] ∧ ∃ fault, r = .error fault) ∨
        ∃ text, s.SendsInserts s' [text] ∧ s.engine.ReadsInsert text stored) ∧
      (s.Works → s.Serves c → (∀ ms ∈ stored, (Json.encode (.object ms)).isSome) →
        r = .ok ()) := by
  unfold insertMembers
  refine ensures_ensureTable.bind ?_ ?_
  · rintro _ s₁ ⟨hs₁, -⟩
    have hnone₁ := hs₁.sendsNoInsert
    have hworks₁ (hworks : s.Works) : s₁.Works := hs₁.works hworks
    refine ensures_collection.bind ?_ ?_
    · rintro x _ ⟨rfl, hx⟩
      refine (ensures_inDialect _).bind ?_ ?_
      · rintro sqls s₂ ⟨hsqls, hs₂⟩
        obtain ⟨literals, texts, rfl, hliterals, htexts⟩ := literals_of_documents hsqls.symm
        have hnone₂ := hnone₁.trans hs₂.sendsNoInsert
        have hengine : s₂.engine = s.engine := hs₂.engine.trans hs₁.engine
        rw [hs₁.engine] at hliterals
        refine (ensures_insertion x.table hliterals htexts hengine).bind ?_ ?_
        · rintro v s' ⟨⟨hs', _, h⟩ | ⟨text, hs', hread⟩, -⟩
          · cases h
          · exact ⟨.inr ⟨text, hnone₂.trans hs', hread⟩, fun _ _ _ => rfl⟩
        · rintro fault s' ⟨h, hok⟩
          refine ⟨?_, fun hworks _ _ => ?_⟩
          · obtain ⟨hs', -⟩ | ⟨text, hs', hread⟩ := h
            · exact .inl ⟨hnone₂.trans hs', fault, rfl⟩
            · exact .inr ⟨text, hnone₂.trans hs', hread⟩
          · obtain ⟨v, hv⟩ := hok (hs₂.works (hworks₁ hworks))
            cases hv
      · rintro fault s₂ ⟨hfault, hs₂⟩
        refine ⟨.inl ⟨hnone₁.trans hs₂.sendsNoInsert, fault, rfl⟩, fun hworks _ hencoded => ?_⟩
        obtain ⟨sqls, hsqls⟩ := exists_mapM_ok fun ms hms =>
          (hworks₁ hworks).exists_document (hencoded ms hms)
        rw [hsqls] at hfault
        cases hfault
    · rintro fault _ ⟨rfl, hx⟩
      refine ⟨.inl ⟨hnone₁, fault, rfl⟩, fun _ hserves _ => ?_⟩
      obtain ⟨y, hy, -⟩ := hs₁.serves hserves
      cases (hx y).mp hy
  · rintro fault s₁ ⟨hs₁, hok⟩
    refine ⟨.inl ⟨hs₁.sendsNoInsert, fault, rfl⟩, fun hworks hserves _ => ?_⟩
    cases hok hworks hserves

theorem adds_insertMembers {documents : List Value} {stored : List Members}
    (hstored : List.Forall₂ (StoredAs s.identifiers) documents stored) (hne : stored ≠ []) :
    Ensures (insertMembers c stored) s fun r s' =>
      s.Adds documents (fun stored' _ => stored' = stored) r s' ∧
        (s.Works → s.Serves c → (∀ v ∈ documents, Storable v) → r = .ok ()) := by
  refine (ensures_insertMembers stored).mono ?_
  rintro r s' ⟨h, hok⟩
  constructor
  · obtain h | ⟨text, hs', hread⟩ := h
    · exact .inl h
    · exact .inr ⟨stored, hstored, fun _ _ => rfl, .inr ⟨hne, text, hs', hread⟩⟩
  · intro hworks hserves hall
    exact hok hworks hserves ((StoredAs.forall_storable_iff hstored).mp hall)

/-- What cannot be converted is added by nothing. -/
theorem adds_of_notConverted {α : Type} {answers : List Members → α → Prop} {s' : Store}
    {documents : List Value} {fault : Fault} (hs' : s.Leads [] s')
    (h : ∃ v ∈ documents, ∃ fault, Members.ofValue v = .error fault) :
    s.Adds documents answers (.error fault) s' ∧
      (s.Works → s.Serves c → (∀ v ∈ documents, Storable v) →
        ∃ x, (.error fault : Except Fault α) = .ok x) := by
  refine ⟨.inl ⟨hs'.sendsNoInsert, fault, rfl⟩, fun _ _ hall => ?_⟩
  obtain ⟨v, hv, fault', hfault⟩ := h
  obtain ⟨given, hgiven, -⟩ := hall v hv
  rw [hfault] at hgiven
  cases hgiven

/-- A document is added, and answered as it was stored. -/
theorem ensures_insertOne (v : Value) :
    Ensures (insertOne c v) s fun r s' =>
      s.Adds [v] (fun stored x => stored.map Value.object = [x]) r s' ∧
        (s.Works → s.Serves c → (∀ w ∈ [v], Storable w) → ∃ x, r = .ok x) := by
  unfold insertOne
  refine (ensures_identified v).bind ?_ ?_
  · rintro ms s₁ ⟨hs₁, ⟨_, _, h⟩ | ⟨_, ⟨⟩, hms⟩⟩
    · cases h
    have hreach : s.Reaches IsCreate s₁ := .of_leads hs₁
    rw [← hs₁.identifiers] at hms
    refine (adds_insertMembers (.cons hms .nil) (List.cons_ne_nil _ _)).bind ?_ ?_
    · rintro _ s' ⟨h, -⟩
      refine ⟨(h.of_answers nofun ?_).after hreach, fun _ _ _ => ⟨_, rfl⟩⟩
      rintro stored _ ⟨⟩ hstored
      rw [hstored () rfl]
      rfl
    · rintro fault s' ⟨h, hok⟩
      refine ⟨(h.of_answers (fun _ _ => ⟨fault, rfl⟩) nofun).after hreach, ?_⟩
      intro hworks hserves hall
      cases hok (hs₁.works hworks) (hs₁.serves hserves) hall
  · rintro fault s₁ ⟨hs₁, ⟨fault', hv, -⟩ | ⟨_, h, -⟩⟩
    · exact adds_of_notConverted hs₁ ⟨v, List.mem_singleton_self v, fault', hv⟩
    · cases h

/-- Documents are added by one statement, and counted as they were stored. -/
theorem ensures_insertMany (documents : List Value) :
    Ensures (insertMany c documents) s fun r s' =>
      s.Adds documents (fun stored n => n = stored.length) r s' ∧
        (s.Works → s.Serves c → (∀ v ∈ documents, Storable v) → ∃ n, r = .ok n) := by
  unfold insertMany
  refine (ensures_identifiedAll documents).bind ?_ ?_
  · rintro stored s₁ ⟨hs₁, ⟨_, _, h⟩ | ⟨_, ⟨⟩, hstored⟩⟩
    · cases h
    have hreach : s.Reaches IsCreate s₁ := .of_leads hs₁
    cases hempty : stored.isEmpty with
    | true =>
      obtain rfl := List.isEmpty_iff.mp hempty
      refine ⟨.inr ⟨[], hstored, ?_, .inl ⟨rfl, hs₁.sendsNoInsert⟩⟩, fun _ _ _ => ⟨_, rfl⟩⟩
      rintro _ ⟨⟩
      rfl
    | false =>
      have hne : stored ≠ [] := by
        rintro rfl
        cases hempty
      rw [← hs₁.identifiers] at hstored
      refine (adds_insertMembers hstored hne).bind ?_ ?_
      · rintro _ s' ⟨h, -⟩
        refine ⟨(h.of_answers nofun ?_).after hreach, fun _ _ _ => ⟨_, rfl⟩⟩
        rintro stored' _ ⟨⟩ hstored'
        rw [hstored' () rfl]
      · rintro fault s' ⟨h, hok⟩
        refine ⟨(h.of_answers (fun _ _ => ⟨fault, rfl⟩) nofun).after hreach, ?_⟩
        intro hworks hserves hall
        cases hok (hs₁.works hworks) (hs₁.serves hserves) hall
  · rintro fault s₁ ⟨hs₁, ⟨hfault, -⟩ | ⟨_, h, -⟩⟩
    · exact adds_of_notConverted hs₁ hfault
    · cases h

/-- The documents of a list are identified before they are added, and not once more. -/
theorem ensures_insertList (documents : List Value) (hids : ∀ n, s.identifiers n ≠ []) :
    Ensures (do
      let stored := (← identifiedAll documents).map Value.object
      let _ ← insertMany c stored
      return Value.list stored) s fun r s' =>
        s.Adds documents (fun stored x => x = .list (stored.map Value.object)) r s' ∧
          (s.Works → s.Serves c → (∀ v ∈ documents, Storable v) → ∃ x, r = .ok x) := by
  refine (ensures_identifiedAll documents).bind ?_ ?_
  · rintro stored s₁ ⟨hs₁, ⟨_, _, h⟩ | ⟨_, ⟨⟩, hstored⟩⟩
    · cases h
    have hreach : s.Reaches IsCreate s₁ := .of_leads hs₁
    rw [← hs₁.identifiers] at hids hstored
    refine (ensures_insertMany (stored.map Value.object)).bind ?_ ?_
    · rintro n s' ⟨h, -⟩
      have hadds := h.of_identified hids hstored
      refine ⟨(hadds.of_answers nofun ?_).after hreach, fun _ _ _ => ⟨_, rfl⟩⟩
      rintro stored' _ ⟨⟩ hstored'
      rw [hstored' n rfl]
    · rintro fault s' ⟨h, hok⟩
      have hadds := h.of_identified hids hstored
      refine ⟨(hadds.of_answers (fun _ _ => ⟨fault, rfl⟩) nofun).after hreach, ?_⟩
      intro hworks hserves hall
      have hencoded := (StoredAs.forall_storable_iff hstored).mp hall
      have hobjects : ∀ v ∈ stored.map Value.object, Storable v :=
        List.forall_mem_map.mpr fun ms hms => storable_object.mpr (hencoded ms hms)
      obtain ⟨n, hn⟩ := hok (hs₁.works hworks) (hs₁.serves hserves) hobjects
      cases hn
  · rintro fault s₁ ⟨hs₁, ⟨hfault, -⟩ | ⟨_, h, -⟩⟩
    · exact adds_of_notConverted hs₁ hfault
    · cases h

end Action

/-- A store has the collection of an identifier, or makes it. -/
def Store.Offers (s : Store) (id : Value) : Prop :=
  ∃ name : Text, id = .str name ∧ name ≠ [] ∧
    ∀ c, s.registry.lookup name = some c → s.Serves c

/-- Documents are added to a collection that is obtained first. -/
theorem Action.adds_obtain {α : Type} {s : Store} {documents : List Value}
    {answers : List Members → α → Prop} (id : Value) {f : Nat → Action α}
    (hf : ∀ (c : Nat) (s₁ : Store), s.Reaches IsCreate s₁ → Ensures (f c) s₁ fun r s' =>
      s₁.Adds documents answers r s' ∧
        (s₁.Works → s₁.Serves c → (∀ v ∈ documents, Storable v) → ∃ x, r = .ok x)) :
    Ensures (obtain id >>= f) s fun r s' =>
      s.Adds documents answers r s' ∧
        (s.Works → s.Offers id → (∀ v ∈ documents, Storable v) → ∃ x, r = .ok x) := by
  refine (ensures_obtain id).bind ?_ ?_
  · rintro c s₁ ⟨hs₁, hobtained⟩
    refine (hf c s₁ hs₁).mono ?_
    rintro r s' ⟨h, hok⟩
    refine ⟨h.after hs₁, ?_⟩
    rintro hworks ⟨name, hid, hne, hserves⟩ hall
    obtain ⟨_, ⟨⟩, hc⟩ := hobtained name hid hne hworks hserves
    exact hok (hs₁.works hworks) hc hall
  · rintro fault s₁ ⟨hs₁, hobtained⟩
    refine ⟨.inl ⟨hs₁.sendsNoInsert, fault, rfl⟩, ?_⟩
    rintro hworks ⟨name, hid, hne, hserves⟩ -
    obtain ⟨c, h, -⟩ := hobtained name hid hne hworks hserves
    cases h

namespace Verb

/-- The documents that a verb is given to add. -/
def added? : Verb → Option (List Value)
  | .on _ (.insertOne document) => some [document]
  | .on _ (.insertMany documents) => documents.sequence?
  | .insert _ (.object ms) => some [.object ms]
  | .insert _ documents => documents.items?
  | _ => none

/-- The answer of a verb is made of these documents: it is the document, or all of them, or how many
they are. -/
def Answers (v : Verb) (stored : List Members) (answer : Answer) : Prop :=
  match v with
  | .on _ (.insertMany _) => answer = .integer stored.length
  | .insert _ (.list _) => answer = .documents (stored.map Value.object)
  | .insert _ (.tuple _) => answer = .documents (stored.map Value.object)
  | _ => ∃ ms, stored = [ms] ∧ answer = .document (.object ms)

/-- A store has the collection that a verb adds to, or makes it. -/
def IsOffered (v : Verb) (s : Store) : Prop :=
  match v with
  | .on c _ => s.Serves c
  | .insert id _ => s.Offers id
  | _ => False

variable {s : Store}

/-- What is answered is made of what an addition yields. -/
theorem adds_answer {α : Type} {a : Action α} {documents : List Value} {P : Prop}
    {answers : List Members → α → Prop} {answers' : List Members → Answer → Prop} (f : α → Answer)
    (ha : Action.Ensures a s fun r s' =>
      s.Adds documents answers r s' ∧ (s.Works → P → (∀ v ∈ documents, Storable v) → ∃ x, r = .ok x))
    (hf : ∀ stored x, answers stored x → answers' stored (f x)) :
    Action.Ensures (do return f (← a)) s fun r s' =>
      s.Adds documents answers' r s' ∧
        (s.Works → P → (∀ v ∈ documents, Storable v) → ∃ answer, r = .ok answer) := by
  refine ha.bind ?_ ?_
  · rintro x s' ⟨h, -⟩
    refine ⟨h.of_answers nofun ?_, fun _ _ _ => ⟨_, rfl⟩⟩
    rintro stored _ ⟨⟩ hstored
    exact hf stored x (hstored x rfl)
  · rintro fault s' ⟨h, hok⟩
    refine ⟨h.of_answers (fun _ _ => ⟨fault, rfl⟩) nofun, fun hworks hP hall => ?_⟩
    obtain ⟨x, hx⟩ := hok hworks hP hall
    cases hx

/-- A verb that is given documents adds them. -/
theorem adds_run {v : Verb} {documents : List Value} (hv : v.added? = some documents)
    (hids : ∀ n, s.identifiers n ≠ []) :
    Action.Ensures v.run s fun r s' =>
      s.Adds documents v.Answers r s' ∧
        (s.Works → v.IsOffered s → (∀ v ∈ documents, Storable v) → ∃ answer, r = .ok answer) := by
  have hone (stored : List Members) (x : Value) (h : stored.map Value.object = [x]) :
      ∃ ms, stored = [ms] ∧ Answer.document x = .document (.object ms) := by
    obtain ⟨ms, rfl, rfl⟩ := List.map_eq_singleton_iff.mp h
    exact ⟨ms, rfl, rfl⟩
  unfold added? at hv
  split at hv
  next c document =>
    cases hv
    exact adds_answer Answer.document (Action.ensures_insertOne document) hone
  next c vs =>
    have hrun : (Verb.on c (.insertMany vs)).run =
        (do return Answer.integer (← Action.insertMany c documents)) := by
      show (CollectionVerb.insertMany vs).run c = _
      rw [CollectionVerb.run, hv]
    rw [hrun]
    refine adds_answer (fun n : Nat => Answer.integer n) (Action.ensures_insertMany documents) ?_
    rintro stored _ rfl
    rfl
  next id ms =>
    cases hv
    have hadds := Action.adds_obtain (s := s) id fun c s₁ _ =>
      Action.ensures_insertOne (s := s₁) (c := c) (.object ms)
    refine adds_answer Answer.stored hadds ?_
    intro stored x hstored
    obtain ⟨ms', rfl, rfl⟩ := List.map_eq_singleton_iff.mp hstored
    exact ⟨ms', rfl, rfl⟩
  next id vs hne =>
    have hadds := Action.adds_obtain (s := s) id fun c s₁ hs₁ =>
      Action.ensures_insertList (s := s₁) (c := c) documents (by rw [hs₁.identifiers]; exact hids)
    cases vs with
    | list vs =>
      cases hv
      refine adds_answer Answer.stored hadds ?_
      rintro stored _ rfl
      rfl
    | tuple vs =>
      cases hv
      refine adds_answer Answer.stored hadds ?_
      rintro stored _ rfl
      rfl
    | _ => cases hv
  next => cases hv

/-- What comes of a verb that is given documents to add, when these are the texts of the statements
it has sent that add any. -/
structure Stores (v : Verb) (s : Store) (documents : List Value) (ts : List Text)
    (r : Except Fault Answer) : Prop where
  /-- Either nothing is sent and the verb fails, or one statement is sent, and none for no document.
  The statement holds exactly the documents, each as it is converted and with an identifier that is
  neither null nor empty, and the answer is made of these. -/
  adds : (ts = [] ∧ ∃ fault, r = .error fault) ∨
    ∃ stored, List.Forall₂ (StoredAs s.identifiers) documents stored ∧
      (∀ ms ∈ stored, ∃ id, Members.get? ms idField = some id ∧ id ≠ .null ∧ id ≠ .str []) ∧
      (∀ answer, r = .ok answer → v.Answers stored answer) ∧
      ((documents = [] ∧ ts = []) ∨
        (documents ≠ [] ∧ ∃ text, ts = [text] ∧ s.engine.ReadsInsert text stored))
  /-- Nothing is sent when a document cannot be converted or has no JSON text. -/
  rejects : (∃ document ∈ documents, ¬Storable document) → ts = [] ∧ ∃ fault, r = .error fault
  /-- Documents that can be stored are stored, where the database refuses nothing. -/
  succeeds : s.Works → v.IsOffered s → (∀ document ∈ documents, Storable document) →
    ∃ answer, r = .ok answer

/-- A verb that adds documents stores what it answers. Whatever identifiers are made, one statement
is sent for the documents, whose literals are read as the JSON texts of those that are answered; and
no JSON text is refused by the quoting of an engine. -/
theorem run_stores (s : Store)
    (hids : ∀ n, ∃ source unique, s.identifiers n = objectId source unique) {v : Verb}
    {documents : List Value} (hv : v.added? = some documents) :
    (∃ ts, s.SendsInserts (v.run.outcome s).2 ts ∧ v.Stores s documents ts (v.run.outcome s).1) ∧
      ∀ document t, Json.encode document = some t →
        ∃ l, s.engine.quote t = .ok l ∧ s.engine.lexis.lex l = some [.literal t] := by
  have hnonempty (n : Nat) : s.identifiers n ≠ [] := by
    obtain ⟨source, unique, h⟩ := hids n
    rw [h]
    exact objectId_ne_nil source unique
  constructor
  · obtain ⟨hadds, hok⟩ := adds_run hv hnonempty
    obtain ⟨hsent, hfault⟩ | ⟨stored, hstored, hanswers, hsent⟩ := hadds
    · exact ⟨[], hsent, .inl ⟨rfl, hfault⟩, fun _ => ⟨rfl, hfault⟩, hok⟩
    have hlength := hstored.length_eq
    have hidentified (ms : Members) (hms : ms ∈ stored) :=
      hasId_iff.mp (StoredAs.forall_hasId hnonempty hstored ms hms)
    obtain ⟨rfl, hsent⟩ | ⟨hne, text, hsent, hread⟩ := hsent
    · obtain rfl := List.length_eq_zero_iff.mp hlength
      refine ⟨[], hsent, .inr ⟨[], hstored, hidentified, hanswers, .inl ⟨rfl, rfl⟩⟩, ?_, hok⟩
      rintro ⟨_, hmem, -⟩
      cases hmem
    · have hdocuments : documents ≠ [] := by
        rintro rfl
        exact hne (List.length_eq_zero_iff.mp hlength.symm)
      refine ⟨[text], hsent, .inr ⟨stored, hstored, hidentified, hanswers,
        .inr ⟨hdocuments, text, rfl, hread⟩⟩, ?_, hok⟩
      -- A statement that is read holds a JSON text for every document.
      rintro ⟨document, hmem, hnot⟩
      exact absurd ((StoredAs.forall_storable_iff hstored).mpr hread.encoded document hmem) hnot
  · intro document t ht
    obtain ⟨l, hl⟩ := s.engine.exists_quote (Json.encode_isEncodable ht).1
    exact ⟨l, hl, Engine.lex_quote_encode ht hl⟩

/-- Two documents: one holds marks and has no identifier yet, one holds half of a pair. -/
def batch : List Value :=
  [.object [(idField, .null), ("t", .str "'\\\"")], .object [("u", .str [CodePoint.ofNat 0xd800])]]

theorem run_stores_batch :
    ∃ text stored, (Store.ready .mysql).SendsInserts
        ((insert (.str "c") (.list batch)).run.outcome (Store.ready .mysql)).2 [text] ∧
      Engine.mysql.ReadsInsert text stored ∧ stored.length = 2 ∧
      ((insert (.str "c") (.list batch)).run.outcome (Store.ready .mysql)).1 =
        .ok (.documents (stored.map Value.object)) := by
  have hstorable : ∀ document ∈ batch, Storable document := by
    refine List.forall_mem_cons.mpr ⟨⟨_, rfl, ?_⟩, List.forall_mem_singleton.mpr ⟨_, rfl, ?_⟩⟩
    · rw [Json.isSome_encode]
      rfl
    · rw [Json.isSome_encode]
      rfl
  have hworks : (Store.ready .mysql).Works := ⟨rfl, rfl, rfl⟩
  have hoffered : (insert (.str "c") (.list batch)).IsOffered (Store.ready .mysql) :=
    ⟨"c", rfl, by decide, nofun⟩
  obtain ⟨⟨ts, hsent, h⟩, -⟩ := run_stores (Store.ready .mysql) (fun _ => ⟨_, _, rfl⟩)
    (v := insert (.str "c") (.list batch)) rfl
  obtain ⟨answer, hanswer⟩ := h.succeeds hworks hoffered hstorable
  obtain ⟨-, fault, hfault⟩ | ⟨stored, hstored, -, hanswers, ⟨hnil, -⟩ | ⟨-, text, rfl, hread⟩⟩ :=
    h.adds
  · rw [hanswer] at hfault
    cases hfault
  · cases hnil
  · refine ⟨text, stored, hsent, hread, hstored.length_eq.symm, ?_⟩
    rw [hanswer, hanswers answer hanswer]

end Verb

end DocStore
