import DocStore.Document.Relations
import DocStore.Proofs.Outcome
import Mathlib.Data.List.Nodup

/-!
Relations filled in for many documents. What was looked up is remembered by keys
that compare by value, so that an integer, a float and a truth value may be one
key. References are texts and integers, of which no two fall together; but
identifiers may be anything. As long as no two identifiers that differ are one
key, documents that are filled in one after another come out as if nothing had
been remembered; and nothing is ever looked up twice.
-/

namespace DocStore

/-! ### Keys -/

namespace Value

variable {v w : Value}

theorem sameKey_str_iff {s t : Text} : (Value.str s).sameKey (.str t) = true ↔ s = t := by
  simp [sameKey, equals]

/-- A value that refers to a document is the same key as no other value that does. -/
theorem eq_of_sameKey_of_isReference (hv : isReference v = true) (hw : isReference w = true)
    (h : v.sameKey w = true) : v = w := by
  cases v with
  | str s =>
    cases w with
    | str t => rw [sameKey_str_iff.mp h]
    | int n => cases h
    | _ => cases hw
  | int m =>
    cases w with
    | int n =>
      have hequal : m = n := by simpa [sameKey, equals, numeric?, number?, Number.equals] using h
      rw [hequal]
    | str t => cases h
    | _ => cases hw
  | _ => cases hv

theorem sameKey_self_of_isScalar (h : v.isScalar = true) : v.sameKey v = true := by
  cases v with
  | null => rfl
  | bool b => simp [sameKey, equals, numeric?, Number.equals]
  | int n => simp [sameKey, equals, numeric?, number?, Number.equals]
  | float x =>
    cases x with
    | finite negative m e hm =>
      simp [sameKey, equals, numeric?, number?, Number.equals, Binary64.equals, Binary64.units?]
    | infinite negative => simp [sameKey, equals, numeric?, number?, Number.equals, Binary64.equals]
    | nan => rfl
  | str t => exact sameKey_str_iff.mpr rfl
  | _ => cases h

theorem isScalar_of_isReference (h : isReference v = true) : v.isScalar = true := by
  cases v with
  | str | int => rfl
  | _ => cases h

end Value
/-! ### Drivers -/

/-- What is looked up. -/
inductive Inquiry where
  | one (collection : Text) (id : Value)
  | many (collection field : Text) (id : Value)

/-- A driver whose answers depend on nothing but what is looked up. -/
structure Archive where
  /-- The document of an id in a collection, if there is one. -/
  one : Text → Value → Except Fault (Option Members)
  /-- The documents of a collection whose field is equal to an id. -/
  many : Text → Text → Value → Except Fault (List Value)

/-- What makes inquiries, which are kept in order, and may fail. -/
abbrev Inquiring (α : Type) : Type := ExceptT Fault (StateM (List Inquiry)) α

namespace Inquiring

variable {α β : Type} {asked asked' : List Inquiry}

/-- What comes of inquiries when some were made before: a result, and all that were made. -/
def outcome (a : Inquiring α) (asked : List Inquiry) : Except Fault α × List Inquiry :=
  (a.run.run asked).run

/-- An inquiry and its answer. -/
def inquire (q : Inquiry) (answer : Except Fault α) : Inquiring α := fun asked =>
  (answer, asked ++ [q])

theorem outcome_inquire (q : Inquiry) (answer : Except Fault α) (asked : List Inquiry) :
    (inquire q answer).outcome asked = (answer, asked ++ [q]) := rfl

theorem outcome_bind_ok {a : Inquiring α} {f : α → Inquiring β} {x : α}
    (h : a.outcome asked = (.ok x, asked')) : (a >>= f).outcome asked = (f x).outcome asked' := by
  show ((ExceptT.bindCont f (a.outcome asked).1).run (a.outcome asked).2).run = _
  rw [h]
  rfl

theorem outcome_bind_error {a : Inquiring α} {f : α → Inquiring β} {fault : Fault}
    (h : a.outcome asked = (.error fault, asked')) :
    (a >>= f).outcome asked = (.error fault, asked') := by
  show ((ExceptT.bindCont f (a.outcome asked).1).run (a.outcome asked).2).run = _
  rw [h]
  rfl

end Inquiring

namespace Archive

/-- The document of an id, or null. -/
def document (d : Archive) (collection : Text) (id : Value) : Except Fault Value :=
  (fun found => (found.map Value.object).getD .null) <$> d.one collection id

/-- Related documents are looked up in an archive, by the names of collections and fields. -/
def lookups (d : Archive) : Lookups Inquiring where
  one collection id :=
    match collection with
    | .str name => Inquiring.inquire (.one name id) (d.document name id)
    | _ => throw (.misuse .wrongType)
  many collection field id :=
    match field with
    | .str name => Inquiring.inquire (.many collection name id) (d.many collection name id)
    | _ => throw (.misuse .wrongType)

/-! What relations come to when nothing is remembered. -/

/-- Documents with the documents put in that their fields refer to. -/
def fillOne (d : Archive) : List (Text × Text) → Members → Except Fault Members
  | [], ms => .ok ms
  | (field, collection) :: rest, ms =>
    let v := (ms.get? field).getD .null
    if isReference v then do d.fillOne rest (ms.insert field (← d.document collection v))
    else d.fillOne rest ms

/-- A document with the documents listed in it that refer to its id. -/
def fillMany (d : Archive) (id : Value) : List (Text × Text) → Members → Except Fault Members
  | [], ms => .ok ms
  | (collection, field) :: rest, ms =>
    if id.isKey then do
      d.fillMany id rest (ms.insert collection (.list (← d.many collection field id)))
    else .error (.misuse .wrongType)

/-- A document with its relations filled in. -/
def fill (d : Archive) (ones manies : List (Text × Text)) (ms : Members) : Except Fault Value := do
  let ms ← d.fillOne ones ms
  match ms.get? idField with
  | none | some .null => return .object ms
  | some id => return .object (← d.fillMany id manies ms)

end Archive

/-- Relations by the names of fields and collections: fields that refer to a document of a
collection, and collections that refer by a field. -/
def Relations.ofNames (ones manies : List (Text × Text)) : Relations where
  one := ones.map fun m => (m.1, .str m.2)
  many := manies.map fun m => (m.1, .str m.2)

/-! ### What is remembered -/

namespace Lookedup

/-- An inquiry was made before, or one by the same keys. -/
def Answers (l : Lookedup) : Inquiry → Prop
  | .one collection id =>
    ∃ found ∈ l.ones, found.collection.sameKey (.str collection) = true ∧ found.id.sameKey id = true
  | .many collection field id =>
    ∃ found ∈ l.manies, found.collection = collection ∧
      found.field.sameKey (.str field) = true ∧ found.id.sameKey id = true

variable {l : Lookedup} {q : Inquiry}

theorem one?_eq_none_iff {collection : Text} {id : Value} :
    l.one? (.str collection) id = none ↔ ¬l.Answers (.one collection id) := by
  simp [one?, Answers]

theorem exists_of_one? {collection : Text} {id v : Value}
    (h : l.one? (.str collection) id = some v) :
    ∃ found ∈ l.ones, found.collection.sameKey (.str collection) = true ∧
      found.id.sameKey id = true ∧ found.document = v := by
  obtain ⟨found, hfound, hv⟩ := Option.map_eq_some_iff.mp h
  have hkeys := List.find?_some hfound
  simp only [Bool.and_eq_true] at hkeys
  exact ⟨found, List.mem_of_find?_eq_some hfound, hkeys.1, hkeys.2, hv⟩

theorem many?_eq_none_iff {collection field : Text} {id : Value} :
    l.many? collection (.str field) id = none ↔ ¬l.Answers (.many collection field id) := by
  simp [many?, Answers]

theorem exists_of_many? {collection field : Text} {id : Value} {vs : List Value}
    (h : l.many? collection (.str field) id = some vs) :
    ∃ found ∈ l.manies, found.collection = collection ∧
      found.field.sameKey (.str field) = true ∧ found.id.sameKey id = true ∧ found.documents = vs := by
  obtain ⟨found, hfound, hvs⟩ := Option.map_eq_some_iff.mp h
  have hkeys := List.find?_some hfound
  simp only [Bool.and_eq_true, decide_eq_true_eq] at hkeys
  exact ⟨found, List.mem_of_find?_eq_some hfound, hkeys.1.1, hkeys.1.2, hkeys.2, hvs⟩

/-- What is known of the look-ups that were made: each was made once and is remembered, and what is
remembered of a reference is what the archive answers. Of an identifier it is that as long as none of
those that are looked up by is the same key as another one. -/
structure Holds (d : Archive) (Id : Value → Prop) (l : Lookedup) (asked : List Inquiry) : Prop where
  nodup : asked.Nodup
  answered : ∀ q ∈ asked, l.Answers q
  ones : ∀ found ∈ l.ones, ∃ collection, found.collection = .str collection ∧
    isReference found.id = true ∧ d.document collection found.id = .ok found.document
  manies : (∀ v w, Id v → Id w → v.sameKey w = true → v = w) →
    ∀ found ∈ l.manies, Id found.id ∧ ∃ field, found.field = .str field ∧
      d.many found.collection field found.id = .ok found.documents

variable {d : Archive} {Id : Value → Prop} {asked : List Inquiry}

theorem holds_nil : ({} : Lookedup).Holds d Id [] where
  nodup := .nil
  answered := nofun
  ones := nofun
  manies _ := nofun

/-- One more inquiry that was not made before. -/
theorem Holds.nodup_append (h : l.Holds d Id asked) (hq : ¬l.Answers q) : (asked ++ [q]).Nodup := by
  rw [← List.concat_eq_append]
  exact h.nodup.concat fun hmem => hq (h.answered q hmem)

end Lookedup

/-! ### Inquiries that are made once -/

namespace Inquiring

variable {α β : Type} {d : Archive} {Id : Value → Prop} {asked : List Inquiry}

/-- No two identifiers that differ are the same key. -/
abbrev Differ (Id : Value → Prop) : Prop := ∀ v w, Id v → Id w → v.sameKey w = true → v = w

/-- Inquiries come to what they would come to if nothing was remembered, on a condition, and are made
once. -/
def Agrees (D : Prop) (d : Archive) (Id : Value → Prop) (a : Inquiring (α × Lookedup))
    (asked : List Inquiry) (plain : Except Fault α) : Prop :=
  match a.outcome asked with
  | (.ok (x, l), asked) => (D → plain = .ok x) ∧ l.Holds d Id asked
  | (.error fault, asked) => (D → plain = .error fault) ∧ asked.Nodup

variable {D E : Prop} {l : Lookedup}

theorem agrees_pure (h : l.Holds d Id asked) (x : α) : Agrees D d Id (pure (x, l)) asked (.ok x) :=
  ⟨fun _ => rfl, h⟩

theorem agrees_throw (h : l.Holds d Id asked) (fault : Fault) :
    Agrees D d Id (throw fault : Inquiring (α × Lookedup)) asked (.error fault) :=
  ⟨fun _ => rfl, h.nodup⟩

theorem Agrees.result {a : Inquiring (α × Lookedup)} {plain : Except Fault α}
    (h : Agrees D d Id a asked plain) (hd : D) : Prod.fst <$> (a.outcome asked).1 = plain := by
  unfold Agrees at h
  rcases hrun : a.outcome asked with ⟨_ | ⟨x, l⟩, asked'⟩
  · rw [hrun] at h
    exact (h.1 hd).symm
  · rw [hrun] at h
    exact (h.1 hd).symm

theorem Agrees.nodup {a : Inquiring (α × Lookedup)} {plain : Except Fault α}
    (h : Agrees D d Id a asked plain) : (a.outcome asked).2.Nodup := by
  unfold Agrees at h
  rcases hrun : a.outcome asked with ⟨_ | ⟨x, l⟩, asked'⟩
  · rw [hrun] at h
    exact h.2
  · rw [hrun] at h
    exact h.2.nodup

/-- The first part may agree on a weaker condition. -/
theorem Agrees.bind {a : Inquiring (α × Lookedup)} {f : α × Lookedup → Inquiring (β × Lookedup)}
    {plain : Except Fault α} {rest : α → Except Fault β} (ha : Agrees E d Id a asked plain)
    (hcondition : D → E)
    (hf : ∀ x l asked', l.Holds d Id asked' → (E → plain = .ok x) →
      Agrees D d Id (f (x, l)) asked' (rest x)) :
    Agrees D d Id (a >>= f) asked (plain >>= rest) := by
  unfold Agrees at ha
  rcases h : a.outcome asked with ⟨_ | ⟨x, l⟩, asked'⟩
  · rw [h] at ha
    unfold Agrees
    rw [outcome_bind_error h]
    refine ⟨fun hd => ?_, ha.2⟩
    rw [ha.1 (hcondition hd)]
    rfl
  · rw [h] at ha
    have hrest := hf x l asked' ha.2 ha.1
    unfold Agrees at hrest ⊢
    rw [outcome_bind_ok h]
    have hplain (hd : D) : (plain >>= rest) = rest x := by
      rw [ha.1 (hcondition hd)]
      rfl
    rcases hrun : (f (x, l)).outcome asked' with ⟨_ | ⟨y, l'⟩, asked''⟩
    · rw [hrun] at hrest
      exact ⟨fun hd => (hplain hd).trans (hrest.1 hd), hrest.2⟩
    · rw [hrun] at hrest
      exact ⟨fun hd => (hplain hd).trans (hrest.1 hd), hrest.2⟩

open Lookedup in
/-- A document is looked up once by its id. -/
theorem agrees_findOne (h : l.Holds d Id asked) (collection : Text) {id : Value}
    (hid : isReference id = true) :
    Agrees True d Id (l.findOne d.lookups (.str collection) id) asked (d.document collection id) := by
  unfold findOne
  cases hfound : l.one? (.str collection) id with
  | some v =>
    obtain ⟨found, hmem, hcollection, hsame, rfl⟩ := exists_of_one? hfound
    obtain ⟨name, hname, hreference, hdocument⟩ := h.ones found hmem
    rw [hname] at hcollection
    rw [Value.sameKey_str_iff.mp hcollection,
      Value.eq_of_sameKey_of_isReference hreference hid hsame] at hdocument
    exact ⟨fun _ => hdocument, h⟩
  | none =>
    have hnew := h.nodup_append (one?_eq_none_iff.mp hfound)
    have hlookup : d.lookups.one (.str collection) id =
        inquire (.one collection id) (d.document collection id) := rfl
    rw [hlookup]
    cases hanswer : d.document collection id with
    | error fault =>
      unfold Agrees
      rw [outcome_bind_error (outcome_inquire ..)]
      exact ⟨fun _ => rfl, hnew⟩
    | ok v =>
      unfold Agrees
      rw [outcome_bind_ok (outcome_inquire ..)]
      refine ⟨fun _ => rfl, hnew, ?_, ?_, h.manies⟩
      · refine List.forall_mem_append.mpr ⟨fun q hq => ?_, List.forall_mem_singleton.mpr ?_⟩
        · have hbefore := h.answered q hq
          cases q with
          | one =>
            obtain ⟨found, hmem, hkeys⟩ := hbefore
            exact ⟨found, List.mem_append_left _ hmem, hkeys⟩
          | many => exact hbefore
        · exact ⟨⟨.str collection, id, v⟩, List.mem_append_right _ List.mem_cons_self,
            Value.sameKey_str_iff.mpr rfl,
            Value.sameKey_self_of_isScalar (Value.isScalar_of_isReference hid)⟩
      · exact List.forall_mem_append.mpr
          ⟨h.ones, List.forall_mem_singleton.mpr ⟨collection, rfl, hid, hanswer⟩⟩

open Lookedup in
/-- The documents that refer to an id are looked up once. -/
theorem agrees_findMany (h : l.Holds d Id asked) (collection field : Text) {id : Value}
    (hid : Id id) (hscalar : id.isScalar = true) :
    Agrees (Differ Id) d Id (l.findMany d.lookups collection (.str field) id) asked
      (d.many collection field id) := by
  unfold findMany
  cases hfound : l.many? collection (.str field) id with
  | some vs =>
    obtain ⟨found, hmem, rfl, hfield, hsame, rfl⟩ := exists_of_many? hfound
    refine ⟨fun hdiffer => ?_, h⟩
    obtain ⟨hknown, name, hname, hdocuments⟩ := h.manies hdiffer found hmem
    rw [hname] at hfield
    rwa [Value.sameKey_str_iff.mp hfield, hdiffer _ _ hknown hid hsame] at hdocuments
  | none =>
    have hnew := h.nodup_append (many?_eq_none_iff.mp hfound)
    have hlookup : d.lookups.many collection (.str field) id =
        inquire (.many collection field id) (d.many collection field id) := rfl
    rw [hlookup]
    cases hanswer : d.many collection field id with
    | error fault =>
      unfold Agrees
      rw [outcome_bind_error (outcome_inquire ..)]
      exact ⟨fun _ => rfl, hnew⟩
    | ok vs =>
      unfold Agrees
      rw [outcome_bind_ok (outcome_inquire ..)]
      refine ⟨fun _ => rfl, hnew, ?_, h.ones, fun hdiffer => ?_⟩
      · refine List.forall_mem_append.mpr ⟨fun q hq => ?_, List.forall_mem_singleton.mpr ?_⟩
        · have hbefore := h.answered q hq
          cases q with
          | one => exact hbefore
          | many =>
            obtain ⟨found, hmem, hkeys⟩ := hbefore
            exact ⟨found, List.mem_append_left _ hmem, hkeys⟩
        · exact ⟨⟨collection, .str field, id, vs⟩, List.mem_append_right _ List.mem_cons_self, rfl,
            Value.sameKey_str_iff.mpr rfl, Value.sameKey_self_of_isScalar hscalar⟩
      · exact List.forall_mem_append.mpr ⟨h.manies hdiffer,
          List.forall_mem_singleton.mpr ⟨hid, field, rfl, hanswer⟩⟩

/-! ### Documents filled in -/

theorem agrees_fillOne (h : l.Holds d Id asked) (ones : List (Text × Text)) (ms : Members) :
    Agrees True d Id
      (Relations.fillOne d.lookups (ones.map fun m => (m.1, .str m.2)) (ms, l)) asked
      (d.fillOne ones ms) := by
  induction ones generalizing ms l asked with
  | nil => exact agrees_pure h ms
  | cons m ones ih =>
    obtain ⟨field, collection⟩ := m
    rw [List.map_cons, Relations.fillOne, Archive.fillOne]
    dsimp only
    generalize (Members.get? ms field).getD .null = v
    cases hv : isReference v with
    | false => exact ih h ms
    | true => exact (agrees_findOne h collection hv).bind (fun h => h) fun found l asked' hl _ => ih hl _

theorem agrees_fillMany (h : l.Holds d Id asked) (manies : List (Text × Text)) {id : Value}
    (hid : id.isKey = true → manies ≠ [] → Id id ∧ id.isScalar = true) (ms : Members) :
    Agrees (Differ Id) d Id
      (Relations.fillMany d.lookups id (manies.map fun m => (m.1, .str m.2)) (ms, l)) asked
      (d.fillMany id manies ms) := by
  induction manies generalizing ms l asked with
  | nil => exact agrees_pure h ms
  | cons m manies ih =>
    obtain ⟨collection, field⟩ := m
    rw [List.map_cons, Relations.fillMany, Archive.fillMany]
    cases hkey : id.isKey with
    | false => exact agrees_throw h _
    | true =>
      obtain ⟨hid, hscalar⟩ := hid hkey nofun
      exact (agrees_findMany h collection field hid hscalar).bind (fun h => h) fun found l asked' hl _ =>
        ih hl (fun _ _ => ⟨hid, hscalar⟩) _

end Inquiring

namespace Archive

variable {d : Archive}

theorem document_ok {collection : Text} {id v : Value} (h : d.document collection id = .ok v) :
    v = .null ∨ ∃ ms, v = .object ms := by
  unfold document at h
  cases hfound : d.one collection id with
  | error fault =>
    rw [hfound] at h
    cases h
  | ok found =>
    rw [hfound] at h
    cases h
    cases found with
    | none => exact .inl rfl
    | some ms => exact .inr ⟨ms, rfl⟩

/-- What holds of a document's id, of null and of every object holds of its id once its references
were filled in. -/
theorem get?_id_fillOne {P : Value → Prop} (hnull : P .null) (hobject : ∀ ms, P (.object ms))
    {ones : List (Text × Text)} {ms filled : Members}
    (hms : ∀ id, ms.get? idField = some id → P id) (h : d.fillOne ones ms = .ok filled) :
    ∀ id, filled.get? idField = some id → P id := by
  induction ones generalizing ms with
  | nil =>
    cases h
    exact hms
  | cons m ones ih =>
    obtain ⟨field, collection⟩ := m
    rw [fillOne] at h
    split at h
    · obtain ⟨v, hv, h⟩ := exists_of_bind_ok h
      refine ih (fun id hid => ?_) h
      rw [Members.get?_insert] at hid
      split at hid
      · cases hid
        obtain rfl | ⟨found, rfl⟩ := document_ok hv
        · exact hnull
        · exact hobject found
      · exact hms id hid
    · exact ih hms h

end Archive

namespace Inquiring

variable {d : Archive} {Id : Value → Prop} {asked : List Inquiry} {l : Lookedup}

/-- A document is filled in as if nothing had been remembered, when its id is one that is looked up by. -/
theorem agrees_fill (h : l.Holds d Id asked) (ones manies : List (Text × Text)) {ms : Members}
    (hid : ∀ id, ms.get? idField = some id → id.isScalar = true ∧ (manies ≠ [] → Id id)) :
    Agrees (Differ Id) d Id ((Relations.ofNames ones manies).fill d.lookups (.object ms) l) asked
      (d.fill ones manies ms) := by
  unfold Relations.fill Archive.fill
  cases hactive : (Relations.ofNames ones manies).isActive with
  | false =>
    obtain ⟨rfl, rfl⟩ : ones = [] ∧ manies = [] := by
      simpa [Relations.ofNames, Relations.isActive] using hactive
    refine ⟨fun _ => ?_, h⟩
    have hones : d.fillOne [] ms = pure ms := rfl
    rw [hones, pure_bind]
    cases ms.get? idField with
    | none => rfl
    | some id => cases id <;> rfl
  | true =>
    refine (agrees_fillOne h ones ms).bind (fun _ => trivial) fun filled l₁ asked₁ h₁ hfilled => ?_
    have hid₁ : ∀ id, filled.get? idField = some id →
        id = .null ∨ id.isKey = false ∨ id.isScalar = true ∧ (manies ≠ [] → Id id) :=
      Archive.get?_id_fillOne (.inl rfl) (fun _ => .inr (.inl rfl))
        (fun id hget => .inr (.inr (hid id hget))) (hfilled trivial)
    have hlists {id : Value} (hget : filled.get? idField = some id) (hnull : id ≠ .null) :
        Agrees (Differ Id) d Id
          (Relations.fillMany d.lookups id (Relations.ofNames ones manies).many (filled, l₁) >>=
            fun p => pure (Value.object p.1, p.2)) asked₁
          (do return .object (← d.fillMany id manies filled)) := by
      refine (agrees_fillMany h₁ manies (fun hkey hmanies => ?_) filled).bind (fun h => h)
        fun filled₂ l₂ asked₂ h₂ _ => agrees_pure h₂ _
      obtain rfl | hnone | ⟨hscalar, hid⟩ := hid₁ id hget
      · exact absurd rfl hnull
      · cases hkey.symm.trans hnone
      · exact ⟨hid hmanies, hscalar⟩
    dsimp only
    cases hget : filled.get? idField with
    | none => exact agrees_pure h₁ _
    | some id =>
      cases id with
      | null => exact agrees_pure h₁ _
      | _ => exact hlists hget (by rintro ⟨⟩)

/-- Documents are filled in one after another. -/
theorem agrees_fillAll (h : l.Holds d Id asked) (ones manies : List (Text × Text))
    {documents : List Members}
    (hids : ∀ ms ∈ documents, ∀ id, ms.get? idField = some id →
      id.isScalar = true ∧ (manies ≠ [] → Id id)) :
    Agrees (Differ Id) d Id
      ((Relations.ofNames ones manies).fillAll d.lookups (documents.map Value.object) l) asked
      (documents.mapM (d.fill ones manies)) := by
  induction documents generalizing l asked with
  | nil => exact agrees_pure h []
  | cons ms documents ih =>
    obtain ⟨hid, hids⟩ := List.forall_mem_cons.mp hids
    rw [List.map_cons, List.mapM_cons, Relations.fillAll]
    refine (agrees_fill h ones manies hid).bind (fun h => h) fun v l₁ asked₁ h₁ _ => ?_
    refine (ih h₁ hids).bind (fun h => h) fun vs l₂ asked₂ h₂ _ => ?_
    exact agrees_pure h₂ _

end Inquiring

namespace Relations

open Inquiring

/-- No two documents have ids that differ and are the same key. -/
def IdsDiffer (documents : List Members) : Prop :=
  Differ fun id => ∃ ms ∈ documents, ms.get? idField = some id

/-- The documents that come of filling in one after another, and all that was looked up. -/
def filledInTurn (d : Archive) (ones manies : List (Text × Text)) (documents : List Members) :
    Except Fault (List Value) × List Inquiry :=
  let (r, asked) :=
    ((ofNames ones manies).fillAll d.lookups (documents.map Value.object) {}).outcome []
  (Prod.fst <$> r, asked)

/-- The document that comes of filling in one where nothing is remembered yet. -/
def filledAfresh (d : Archive) (ones manies : List (Text × Text)) (ms : Members) :
    Except Fault Value :=
  Prod.fst <$> (((ofNames ones manies).fill d.lookups (.object ms) {}).outcome []).1

/-- Filling in a single document, nothing is looked up again that was remembered. -/
theorem filledAfresh_eq (d : Archive) (ones manies : List (Text × Text)) {ms : Members}
    (hscalar : ∀ id, ms.get? idField = some id → id.isScalar = true) :
    filledAfresh d ones manies ms = d.fill ones manies ms := by
  have hagrees : Agrees (Differ fun id => ms.get? idField = some id) d _ _ [] _ :=
    agrees_fill Lookedup.holds_nil ones manies fun id hid => ⟨hscalar id hid, fun _ => hid⟩
  refine hagrees.result fun v w hv hw _ => ?_
  rw [hv] at hw
  exact Option.some.inj hw

/-- Nothing is looked up twice while documents are filled in one after another; and as long as no two
of their ids differ and are the same key, the documents that come of it are those that come of filling
in each of them afresh. -/
theorem filledInTurn_once (d : Archive) (ones manies : List (Text × Text)) {documents : List Members}
    (hscalar : ∀ ms ∈ documents, ∀ id, ms.get? idField = some id → id.isScalar = true) :
    (filledInTurn d ones manies documents).2.Nodup ∧
      ((manies ≠ [] → IdsDiffer documents) →
        (filledInTurn d ones manies documents).1 =
          documents.mapM (filledAfresh d ones manies)) := by
  let Id (id : Value) : Prop := manies ≠ [] ∧ ∃ ms ∈ documents, ms.get? idField = some id
  have hagrees : Agrees (Differ Id) d Id _ [] _ :=
    agrees_fillAll Lookedup.holds_nil ones manies fun ms hms id hid =>
      ⟨hscalar ms hms id hid, fun hmanies => ⟨hmanies, ms, hms, hid⟩⟩
  refine ⟨hagrees.nodup, fun hdiffer => ?_⟩
  have hplain : documents.mapM (filledAfresh d ones manies) = documents.mapM (d.fill ones manies) :=
    mapM_congr fun ms hms => filledAfresh_eq d ones manies (hscalar ms hms)
  rw [hplain]
  exact hagrees.result fun v w ⟨hmanies, hv⟩ ⟨_, hw⟩ => hdiffer hmanies v w hv hw

/-- An archive that tells by what its documents were looked up. -/
def telling : Archive where
  one collection id := .ok (some [("name", .str collection), ("id", id)])
  many _ field id := .ok [.object [(field, id)]]

/-- Two documents that refer to one document and are referred to by others. -/
theorem filledInTurn_once_shared :
    let documents : List Members :=
      [[("_id", .int 1), ("owner", .str "a")], [("_id", .str "1"), ("owner", .str "a")]]
    (∀ ms ∈ documents, ∀ id, ms.get? idField = some id → id.isScalar = true) ∧
      IdsDiffer documents ∧
      (filledInTurn telling [("owner", "users")] [("posts", "author")] documents).2.Nodup ∧
      (filledInTurn telling [("owner", "users")] [("posts", "author")] documents).1 =
        documents.mapM (filledAfresh telling [("owner", "users")] [("posts", "author")]) := by
  intro documents
  have hscalar : ∀ ms ∈ documents, ∀ id, ms.get? idField = some id → id.isScalar = true := by
    simp only [documents, List.forall_mem_cons]
    refine ⟨?_, ?_, List.forall_mem_nil _⟩
    · rintro _ ⟨⟩
      rfl
    · rintro _ ⟨⟩
      rfl
  have hdiffer : IdsDiffer documents := by
    rintro v w ⟨ms, hms, hv⟩ ⟨ms', hms', hw⟩ hsame
    simp only [documents, List.mem_cons, List.not_mem_nil, or_false] at hms hms'
    obtain rfl | rfl := hms <;> obtain rfl | rfl := hms' <;> cases hv <;> cases hw
    · rfl
    · cases hsame
    · cases hsame
    · rfl
  obtain ⟨honce, hsame⟩ := filledInTurn_once telling [("owner", "users")] [("posts", "author")] hscalar
  exact ⟨hscalar, hdiffer, honce, hsame fun _ => hdiffer⟩

/-- Of two documents whose ids are an integer and the truth value that counts as it, the second one is
filled in with what refers to the first. -/
theorem not_filledInTurn_of_counted :
    let documents : List Members := [[("_id", .int 1)], [("_id", .bool true)]]
    (∀ ms ∈ documents, ∀ id, ms.get? idField = some id → id.isScalar = true) ∧
      (filledInTurn telling [] [("posts", "author")] documents).1 ≠
        documents.mapM (filledAfresh telling [] [("posts", "author")]) := by
  intro documents
  refine ⟨?_, fun h => ?_⟩
  · simp only [documents, List.forall_mem_cons]
    refine ⟨?_, ?_, List.forall_mem_nil _⟩
    · rintro _ ⟨⟩
      rfl
    · rintro _ ⟨⟩
      rfl
  · have hturn : (filledInTurn telling [] [("posts", "author")] documents).1 =
        .ok [.object [("_id", .int 1), ("posts", .list [.object [("author", .int 1)]])],
          .object [("_id", .bool true), ("posts", .list [.object [("author", .int 1)]])]] := rfl
    have hafresh : documents.mapM (filledAfresh telling [] [("posts", "author")]) =
        .ok [.object [("_id", .int 1), ("posts", .list [.object [("author", .int 1)]])],
          .object [("_id", .bool true), ("posts", .list [.object [("author", .bool true)]])]] := rfl
    rw [hturn, hafresh] at h
    cases h

end Relations

end DocStore
