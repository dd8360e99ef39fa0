import DocStore.Proofs.Document.Relations
import DocStore.Proofs.Value.Members

/-!
Relations filled in at once, one call after another, or later, those of all calls
together. References are replaced and lists are put in by steps of which those of
different kinds may change places; and what is remembered between documents
depends on nothing but their ids, which no step changes. So both come to the same
documents, whatever was remembered for which call.
-/

namespace DocStore

variable {σ α β : Type}

/-- What is done comes to a result from every state. -/
def Returns (a : ExceptT Fault (StateM σ) α) (x : α) : Prop := ∀ s, (a.run.run s).run.1 = .ok x

namespace Returns

variable {a : ExceptT Fault (StateM σ) α} {f : α → ExceptT Fault (StateM σ) β} {x : α} {y : β}

theorem pure (x : α) : Returns (Pure.pure x : ExceptT Fault (StateM σ) α) x := fun _ => rfl

theorem bind (ha : Returns a x) (hf : Returns (f x) y) : Returns (a >>= f) y := by
  intro s
  show ((ExceptT.bindCont f (a.run.run s).run.1).run (a.run.run s).run.2).run.1 = _
  rw [ha s]
  exact hf _

theorem map {g : α → β} (ha : Returns a x) : Returns (g <$> a) (g x) := by
  rw [map_eq_pure_bind]
  exact ha.bind (pure (g x))

end Returns

/-- What is found, by nothing but what is looked up. -/
structure Findings where
  /-- The document of an id in a collection, or null. -/
  one : Text → Value → Value
  /-- The documents of a collection by a field and the id in it. -/
  many : Text → Text → Value → List Value

/-- Look-ups that always succeed, with the same findings whatever was done before. -/
structure Lookups.Finds (look : Lookups (ExceptT Fault (StateM σ))) (d : Findings) : Prop where
  one : ∀ collection id, Returns (look.one (.str collection) id) (d.one collection id)
  many : ∀ collection field id,
    Returns (look.many collection (.str field) id) (d.many collection field id)

/-- A field and the collection that it refers to, or a collection and the field by which it refers. -/
abbrev Relation : Type := RelationKind × Text × Text

namespace Findings

variable {d : Findings} {id : Option Value} {ms : Members}

/-- A document with one relation filled in; a document without an id is not referred to. -/
def put (d : Findings) (id : Option Value) (ms : Members) : Relation → Members
  | (.one, field, collection) =>
    let v := (ms.get? field).getD .null
    if isReference v then ms.insert field (d.one collection v) else ms
  | (.many, collection, field) =>
    match id with
    | none => ms
    | some id => ms.insert collection (.list (d.many collection field id))

theorem put_one (d : Findings) (id : Option Value) (ms : Members) (field collection : Text) :
    d.put id ms (.one, field, collection) = if isReference ((ms.get? field).getD .null) then
      ms.insert field (d.one collection ((ms.get? field).getD .null)) else ms := rfl

theorem put_many (d : Findings) (id : Value) (ms : Members) (collection field : Text) :
    d.put (some id) ms (.many, collection, field) =
      ms.insert collection (.list (d.many collection field id)) := rfl

/-- A document with relations filled in one after another. -/
def putAll (d : Findings) (id : Option Value) (relations : List Relation) (ms : Members) : Members :=
  relations.foldl (d.put id) ms

/-! ### Relations that change places -/

/-- A reference may be replaced before or after documents are listed: a list is no reference, and
in any other place the two do not meet. -/
theorem put_one_many (d : Findings) (id : Option Value) (ms : Members) (n l : Text × Text) :
    d.put id (d.put id ms (.many, l)) (.one, n) = d.put id (d.put id ms (.one, n)) (.many, l) := by
  obtain ⟨field, collection⟩ := n
  obtain ⟨target, remote⟩ := l
  cases id with
  | none => rfl
  | some id =>
    rw [put_many, put_many, put_one, put_one, Members.get?_insert]
    by_cases h : field = target
    · have hlist (vs : List Value) : isReference ((some (Value.list vs)).getD .null) = false := rfl
      rw [if_pos h, hlist, if_neg Bool.false_ne_true, h]
      split
      · rw [Members.insert_insert_self]
      · rfl
    · rw [if_neg h]
      split
      next href =>
        have hmem : field ∈ ms.keys := by
          cases hget : ms.get? field with
          | none =>
            rw [hget] at href
            cases href
          | some v => exact Members.mem_keys_of_get? hget
        exact Members.insert_comm_of_mem hmem h ..
      next => rfl

theorem putAll_ones_many (d : Findings) (id : Option Value) (ones : List (Text × Text))
    (l : Text × Text) (ms : Members) :
    d.putAll id (ones.map (.one, ·)) (d.put id ms (.many, l)) =
      d.put id (d.putAll id (ones.map (.one, ·)) ms) (.many, l) := by
  induction ones generalizing ms with
  | nil => rfl
  | cons n ones ih =>
    simp only [putAll, List.map_cons, List.foldl_cons] at ih ⊢
    rw [put_one_many, ih]

/-- The names of the relations of one kind. -/
def names (kind : RelationKind) (relations : List Relation) : List (Text × Text) :=
  (relations.filter fun n => n.1 = kind).map (·.2)

/-- References first, and then lists. -/
def sorted (ones manies : List (Text × Text)) : List Relation :=
  ones.map (.one, ·) ++ manies.map (.many, ·)

theorem putAll_sorted (d : Findings) (id : Option Value) (relations : List Relation) (ms : Members) :
    d.putAll id (sorted (names .one relations) (names .many relations)) ms =
      d.putAll id relations ms := by
  induction relations generalizing ms with
  | nil => rfl
  | cons n relations ih =>
    obtain ⟨kind, n⟩ := n
    cases kind with
    | one => exact ih _
    | many =>
      refine Eq.trans ?_ (ih (d.put id ms (.many, n)))
      have hmove := d.putAll_ones_many id (names .one relations) n ms
      simp only [sorted, putAll, List.foldl_append] at hmove ⊢
      rw [hmove]
      rfl

/-! ### Documents filled in one after another -/

/-- The id that a document is referred to by. -/
def idOf (ms : Members) : Option Value := (ms.get? idField).filter fun id => !id.isNull

/-- The id as which an id is known, after others were remembered. -/
def knownAs (known : List Value) (id : Value) : Value :=
  (known.find? fun other => other.sameKey id).getD id

/-- The ids that are remembered with one more. -/
def remember (known : List Value) (id : Value) : List Value :=
  match known.find? fun other => other.sameKey id with
  | some _ => known
  | none => known ++ [id]

/-- Documents with relations filled in, in order: an id that is the same key as one before it is
looked up by that one. -/
def fillEach (d : Findings) (relations : List Relation) : List Value → List Members → List Members
  | _, [] => []
  | known, ms :: rest =>
    d.putAll ((idOf ms).map (knownAs known)) relations ms ::
      d.fillEach relations ((idOf ms).elim known (remember known)) rest

variable {known : List Value} {v : Value}

theorem find?_remember (hv : v.isScalar = true) (known : List Value) :
    (remember known v).find? (fun other => other.sameKey v) = some (knownAs known v) := by
  rw [remember, knownAs]
  cases hfind : known.find? fun other => other.sameKey v with
  | none =>
    have hself : List.find? (fun other => other.sameKey v) [v] = some v :=
      List.find?_cons_of_pos (Value.sameKey_self_of_isScalar hv)
    dsimp only
    rw [List.find?_append, hfind, hself]
    rfl
  | some w => exact hfind

theorem knownAs_remember (hv : v.isScalar = true) (known : List Value) :
    knownAs (remember known v) v = knownAs known v := by
  rw [knownAs, find?_remember hv]
  rfl

theorem remember_remember (hv : v.isScalar = true) (known : List Value) :
    remember (remember known v) v = remember known v := by
  rw [remember, find?_remember hv]

theorem get?_of_idOf (h : idOf ms = some v) : ms.get? idField = some v ∧ v ≠ .null := by
  obtain ⟨hget, hnull⟩ := Option.filter_eq_some_iff.mp h
  refine ⟨hget, ?_⟩
  rintro rfl
  cases hnull

/-- A document without an id is not referred to. -/
theorem putAll_manies_none (d : Findings) (manies : List (Text × Text)) (ms : Members) :
    d.putAll none (manies.map (.many, ·)) ms = ms := by
  induction manies with
  | nil => rfl
  | cons n manies ih => exact ih

theorem putAll_sorted_eq (d : Findings) (id : Option Value) (ones manies : List (Text × Text))
    (ms : Members) : d.putAll id (sorted ones manies) ms =
      d.putAll id (manies.map (.many, ·)) (d.putAll id (ones.map (.one, ·)) ms) :=
  List.foldl_append

theorem get?_id_put {n : Relation} (hn : n.2.1 ≠ idField) (id : Option Value) (ms : Members) :
    (d.put id ms n).get? idField = ms.get? idField := by
  obtain ⟨kind, first, second⟩ := n
  have hinsert (v : Value) : (ms.insert first v).get? idField = ms.get? idField := by
    rw [Members.get?_insert, if_neg (Ne.symm hn)]
  cases kind with
  | one =>
    rw [put_one]
    split
    · exact hinsert _
    · rfl
  | many =>
    cases id with
    | none => rfl
    | some id => exact hinsert _

/-- Where no relation is named like the id, the id stays. -/
theorem get?_id_putAll {relations : List Relation} (h : ∀ n ∈ relations, n.2.1 ≠ idField)
    (id : Option Value) (ms : Members) :
    (d.putAll id relations ms).get? idField = ms.get? idField := by
  induction relations generalizing ms with
  | nil => rfl
  | cons n relations ih =>
    obtain ⟨hn, h⟩ := List.forall_mem_cons.mp h
    exact (ih h _).trans (get?_id_put hn id ms)

theorem idOf_putAll {relations : List Relation} (h : ∀ n ∈ relations, n.2.1 ≠ idField)
    (id : Option Value) (ms : Members) : idOf (d.putAll id relations ms) = idOf ms := by
  rw [idOf, get?_id_putAll h, idOf]

theorem forall_id_fillEach {P : Value → Prop} {relations : List Relation}
    (h : ∀ n ∈ relations, n.2.1 ≠ idField) (known : List Value) {documents : List Members}
    (hids : ∀ ms ∈ documents, ∀ id, ms.get? idField = some id → P id) :
    ∀ ms ∈ d.fillEach relations known documents, ∀ id, ms.get? idField = some id → P id := by
  induction documents generalizing known with
  | nil => exact List.forall_mem_nil _
  | cons ms rest ih =>
    obtain ⟨hid, hids⟩ := List.forall_mem_cons.mp hids
    refine List.forall_mem_cons.mpr ⟨?_, ih _ hids⟩
    rwa [get?_id_putAll h]

theorem fillEach_nil (d : Findings) (known : List Value) (documents : List Members) :
    d.fillEach [] known documents = documents := by
  induction documents generalizing known with
  | nil => rfl
  | cons ms rest ih => rw [fillEach, ih, putAll, List.foldl_nil]

/-- Documents that were filled in are filled in further as if both had been done together. -/
theorem fillEach_fillEach {before : List Relation} (h : ∀ n ∈ before, n.2.1 ≠ idField)
    (after : List Relation) (known : List Value) (documents : List Members) :
    d.fillEach after known (d.fillEach before known documents) =
      d.fillEach (before ++ after) known documents := by
  induction documents generalizing known with
  | nil => rfl
  | cons ms rest ih =>
    rw [fillEach, fillEach, fillEach, idOf_putAll h, ih, putAll, putAll, putAll, List.foldl_append]

theorem fillEach_sorted (d : Findings) (relations : List Relation) (known : List Value)
    (documents : List Members) :
    d.fillEach (sorted (names .one relations) (names .many relations)) known documents =
      d.fillEach relations known documents := by
  induction documents generalizing known with
  | nil => rfl
  | cons ms rest ih => rw [fillEach, fillEach, putAll_sorted, ih]

end Findings

/-! ### What is remembered -/

namespace Lookedup

open Findings

variable {d : Findings} {l : Lookedup}

/-- What is remembered of references was found. -/
def KnowsOnes (l : Lookedup) (d : Findings) : Prop :=
  ∀ found ∈ l.ones, ∃ collection, found.collection = .str collection ∧
    isReference found.id = true ∧ found.document = d.one collection found.id

/-- Of a collection and a field the lists for certain ids are remembered, as they were found. -/
def Knows (l : Lookedup) (d : Findings) (known : List Value) (n : Text × Text) : Prop :=
  l.manies.filter (fun found => found.collection = n.1 && found.field.sameKey (.str n.2)) =
    known.map fun id => ⟨n.1, .str n.2, id, d.many n.1 n.2 id⟩

variable {known : List Value} {n : Text × Text} {id : Value}

theorem Knows.many? (h : l.Knows d known n) (id : Value) : l.many? n.1 (.str n.2) id =
    (known.find? fun other => other.sameKey id).map (d.many n.1 n.2) := by
  have hfilter := congrArg (List.find? fun found => found.id.sameKey id) h
  rw [List.find?_filter, List.find?_map] at hfilter
  simp only [Bool.decide_and, Bool.decide_eq_true] at hfilter
  rw [Lookedup.many?, hfilter, Option.map_map]
  rfl

/-- Another list is remembered, for one more id. -/
theorem Knows.remember (h : l.Knows d known n) (hnone : l.many? n.1 (.str n.2) id = none) :
    Knows { l with manies := l.manies ++ [⟨n.1, .str n.2, id, d.many n.1 n.2 id⟩] } d
      (remember known id) n := by
  rw [h.many?, Option.map_eq_none_iff] at hnone
  rw [Findings.remember, hnone, Knows, List.filter_append, h, List.map_append]
  refine congrArg (_ ++ ·) (List.filter_cons_of_pos ?_)
  simp [Value.sameKey_str_iff]

/-- What is remembered of other collections and fields is as it was. -/
theorem Knows.other {other : Text × Text} (h : l.Knows d known other) (hne : n ≠ other)
    (id : Value) (documents : List Value) :
    Knows { l with manies := l.manies ++ [⟨n.1, .str n.2, id, documents⟩] } d known other := by
  rw [Knows, List.filter_append, h, List.filter_cons_of_neg, List.filter_nil, List.append_nil]
  intro hboth
  simp only [Bool.and_eq_true, decide_eq_true_eq, Value.sameKey_str_iff] at hboth
  exact hne (Prod.ext hboth.1 hboth.2)

end Lookedup

/-! ### Relations filled in -/

namespace Relations

open Findings

variable {m : Type → Type} [Monad m] [MonadExceptOf Fault m]

/-- A document in which lists are put, when it has an id. -/
def fillListed (look : Lookups m) (many : List (Text × Value)) (done : Members × Lookedup) :
    m (Value × Lookedup) :=
  match idOf done.1 with
  | none => pure (.object done.1, done.2)
  | some id => do
    let done ← fillMany look id many done
    return (.object done.1, done.2)

/-- An object is filled in by its references first, and then by lists. Without relations neither
changes it. -/
theorem fill_object [LawfulMonad m] (r : Relations) (look : Lookups m) (ms : Members) (l : Lookedup) :
    r.fill look (.object ms) l = fillOne look r.one (ms, l) >>= fillListed look r.many := by
  obtain ⟨one, many⟩ := r
  rw [fill]
  cases hactive : isActive ⟨one, many⟩ with
  | false =>
    obtain ⟨rfl, rfl⟩ : one = [] ∧ many = [] := by simpa [isActive] using hactive
    rw [fillOne, pure_bind, fillListed]
    dsimp only
    cases idOf ms with
    | none => rfl
    | some id =>
      simp only [fillMany, pure_bind]
      rfl
  | true =>
    refine bind_congr ?_
    rintro ⟨ms₁, l₁⟩
    rw [fillListed, idOf]
    dsimp only
    cases ms₁.get? idField with
    | none => rfl
    | some id => cases id <;> rfl

end Relations

namespace Lookups.Finds

open Findings Lookedup

variable {look : Lookups (ExceptT Fault (StateM σ))} {d : Findings} {l : Lookedup}
  {known : List Value} {id : Value}

/-- A document is found, be it remembered. -/
theorem findOne (h : look.Finds d) (hl : l.KnowsOnes d) (collection : Text)
    (hid : isReference id = true) : ∃ l',
      Returns (l.findOne look (.str collection) id) (d.one collection id, l') ∧
      l'.KnowsOnes d ∧ l'.manies = l.manies := by
  rw [Lookedup.findOne]
  cases hfound : l.one? (.str collection) id with
  | some v =>
    obtain ⟨found, hmem, hcollection, hsame, rfl⟩ := exists_of_one? hfound
    obtain ⟨name, hname, href, hdocument⟩ := hl found hmem
    rw [hname] at hcollection
    rw [Value.sameKey_str_iff.mp hcollection, Value.eq_of_sameKey_of_isReference href hid hsame]
      at hdocument
    exact ⟨l, by rw [hdocument]; exact .pure _, hl, rfl⟩
  | none =>
    refine ⟨_, (h.one collection id).bind (.pure _), ?_, rfl⟩
    exact List.forall_mem_append.mpr ⟨hl, List.forall_mem_singleton.mpr ⟨collection, rfl, hid, rfl⟩⟩

theorem fillOne (h : look.Finds d) (hl : l.KnowsOnes d) (ones : List (Text × Text)) (v : Option Value)
    (ms : Members) : ∃ l',
      Returns (Relations.fillOne look (ones.map fun n => (n.1, .str n.2)) (ms, l))
        (d.putAll v (ones.map (.one, ·)) ms, l') ∧ l'.KnowsOnes d ∧ l'.manies = l.manies := by
  induction ones generalizing ms l with
  | nil => exact ⟨l, .pure _, hl, rfl⟩
  | cons n ones ih =>
    obtain ⟨field, collection⟩ := n
    rw [List.map_cons, Relations.fillOne, List.map_cons, putAll, List.foldl_cons, Findings.put_one]
    dsimp only
    cases href : isReference ((ms.get? field).getD .null) with
    | false => exact ih hl ms
    | true =>
      obtain ⟨l₁, hfound, hl₁, hmanies⟩ := h.findOne hl collection href
      obtain ⟨l₂, hrest, hl₂, hmanies₂⟩ := ih hl₁ _
      exact ⟨l₂, hfound.bind hrest, hl₂, hmanies₂.trans hmanies⟩

/-- Documents that refer to an id are found, be they remembered for an id that is the same key. -/
theorem findMany (h : look.Finds d) {n : Text × Text} (hl : l.Knows d known n) (id : Value) : ∃ l',
    Returns (l.findMany look n.1 (.str n.2) id) (d.many n.1 n.2 (knownAs known id), l') ∧
      l'.ones = l.ones ∧ l'.Knows d (remember known id) n ∧
      ∀ other ≠ n, ∀ known', l.Knows d known' other → l'.Knows d known' other := by
  rw [Lookedup.findMany]
  cases hfound : l.many? n.1 (.str n.2) id with
  | some vs =>
    rw [hl.many?] at hfound
    obtain ⟨w, hw, rfl⟩ := Option.map_eq_some_iff.mp hfound
    rw [knownAs, remember, hw]
    exact ⟨l, .pure _, rfl, hl, fun _ _ _ hother => hother⟩
  | none =>
    have hnone := hfound
    rw [hl.many?, Option.map_eq_none_iff] at hnone
    have hknownAs : knownAs known id = id := by
      rw [knownAs, hnone]
      rfl
    rw [hknownAs]
    exact ⟨_, (h.many n.1 n.2 id).bind (.pure _), rfl, hl.remember hfound,
      fun other hne _ hother => hother.other (Ne.symm hne) id _⟩

/-- Documents are listed that refer to an id. The lists for it may be remembered already, of some of
the relations. -/
theorem fillMany (h : look.Finds d) (hid : id.isScalar = true) (manies : List (Text × Text))
    (hl : ∀ n ∈ manies, l.Knows d known n ∨ l.Knows d (remember known id) n) (ms : Members) : ∃ l',
      Returns (Relations.fillMany look id (manies.map fun n => (n.1, .str n.2)) (ms, l))
        (d.putAll (some (knownAs known id)) (manies.map (.many, ·)) ms, l') ∧ l'.ones = l.ones ∧
      (∀ n, l.Knows d (remember known id) n → l'.Knows d (remember known id) n) ∧
      ∀ n ∈ manies, l'.Knows d (remember known id) n := by
  induction manies generalizing ms l with
  | nil => exact ⟨l, .pure _, rfl, fun _ hn => hn, List.forall_mem_nil _⟩
  | cons n manies ih =>
    obtain ⟨hn, hl⟩ := List.forall_mem_cons.mp hl
    obtain ⟨l₁, hfound, hones, hknows, hothers⟩ : ∃ l',
        Returns (l.findMany look n.1 (.str n.2) id) (d.many n.1 n.2 (knownAs known id), l') ∧
        l'.ones = l.ones ∧ l'.Knows d (remember known id) n ∧
        ∀ other ≠ n, ∀ known', l.Knows d known' other → l'.Knows d known' other := by
      -- A relation that is named twice has remembered the id when its turn comes again.
      obtain hn | hn := hn
      · exact h.findMany hn id
      · have hfound := h.findMany hn id
        rwa [knownAs_remember hid, remember_remember hid] at hfound
    have hl₁ : ∀ other ∈ manies, l₁.Knows d known other ∨ l₁.Knows d (remember known id) other := by
      intro other hother
      by_cases hne : other = n
      · exact .inr (hne ▸ hknows)
      · exact (hl other hother).imp (hothers other hne _) (hothers other hne _)
    obtain ⟨l₂, hrest, hones₂, hkeeps, hall⟩ := ih hl₁ (ms.insert n.1 (.list _))
    have hkey : id.isKey = true := by
      cases id with
      | null | bool | int | float | str => rfl
      | _ => cases hid
    refine ⟨l₂, ?_, hones₂.trans hones, fun other hother => ?_,
      List.forall_mem_cons.mpr ⟨hkeeps n hknows, hall⟩⟩
    · rw [List.map_cons, Relations.fillMany, hkey]
      exact hfound.bind hrest
    · by_cases hne : other = n
      · exact hkeeps other (hne ▸ hknows)
      · exact hkeeps other (hothers other hne _ hother)

/-- Nothing is listed in a document without an id, and only its id is remembered. -/
theorem fillListed (h : look.Finds d) {manies : List (Text × Text)} (hl : l.KnowsOnes d)
    (hmanies : ∀ n ∈ manies, l.Knows d known n) {ms : Members}
    (hid : ∀ id, idOf ms = some id → id.isScalar = true) : ∃ l',
      Returns (Relations.fillListed look (manies.map fun n => (n.1, .str n.2)) (ms, l))
        (.object (d.putAll ((idOf ms).map (knownAs known)) (manies.map (.many, ·)) ms), l') ∧
      l'.KnowsOnes d ∧ ∀ n ∈ manies, l'.Knows d ((idOf ms).elim known (remember known)) n := by
  rw [Relations.fillListed]
  cases hsome : idOf ms with
  | none =>
    rw [Option.map_none, putAll_manies_none]
    exact ⟨l, .pure _, hl, hmanies⟩
  | some id =>
    obtain ⟨l₁, hlisted, hones, -, hknows⟩ :=
      h.fillMany (hid id hsome) manies (fun n hn => .inl (hmanies n hn)) ms
    refine ⟨l₁, hlisted.bind (.pure _), ?_, hknows⟩
    rw [KnowsOnes, hones]
    exact hl

/-- A document is filled in by what was found, and nothing else is remembered than its id. -/
theorem fill (h : look.Finds d) {ones manies : List (Text × Text)}
    (hnames : ∀ n ∈ ones, n.1 ≠ idField) (hl : l.KnowsOnes d) (hmanies : ∀ n ∈ manies, l.Knows d known n)
    {ms : Members} (hid : ∀ id, ms.get? idField = some id → id.isScalar = true) : ∃ l',
      Returns ((Relations.ofNames ones manies).fill look (.object ms) l)
        (.object (d.putAll ((idOf ms).map (knownAs known)) (sorted ones manies) ms), l') ∧
      l'.KnowsOnes d ∧ ∀ n ∈ manies, l'.Knows d ((idOf ms).elim known (remember known)) n := by
  obtain ⟨l₁, hfilled, hl₁, hsame⟩ := h.fillOne hl ones ((idOf ms).map (knownAs known)) ms
  have hmanies₁ : ∀ n ∈ manies, l₁.Knows d known n := by
    intro n hn
    rw [Knows, hsame]
    exact hmanies n hn
  -- References are replaced first, which leaves the id that the lists are looked up by.
  have hidOf : idOf (d.putAll ((idOf ms).map (knownAs known)) (ones.map (.one, ·)) ms) = idOf ms := by
    refine idOf_putAll (fun n hn => ?_) _ _
    obtain ⟨name, hname, rfl⟩ := List.mem_map.mp hn
    exact hnames name hname
  have hscalar : ∀ id, idOf ms = some id → id.isScalar = true := fun id heq =>
    hid id (get?_of_idOf heq).1
  rw [← hidOf] at hscalar
  obtain ⟨l₂, hlisted, hl₂, hmanies₂⟩ := h.fillListed hl₁ hmanies₁ hscalar
  rw [hidOf, ← putAll_sorted_eq] at hlisted
  rw [hidOf] at hmanies₂
  rw [Relations.fill_object]
  exact ⟨l₂, hfilled.bind hlisted, hl₂, hmanies₂⟩

/-- Documents are filled in one after another. -/
theorem fillAll (h : look.Finds d) {ones manies : List (Text × Text)}
    (hnames : ∀ n ∈ ones, n.1 ≠ idField) (hl : l.KnowsOnes d) (hmanies : ∀ n ∈ manies, l.Knows d known n)
    {documents : List Members}
    (hids : ∀ ms ∈ documents, ∀ id, ms.get? idField = some id → id.isScalar = true) : ∃ l',
      Returns ((Relations.ofNames ones manies).fillAll look (documents.map Value.object) l)
        ((d.fillEach (sorted ones manies) known documents).map Value.object, l') := by
  induction documents generalizing l known with
  | nil => exact ⟨l, .pure _⟩
  | cons ms documents ih =>
    obtain ⟨hid, hids⟩ := List.forall_mem_cons.mp hids
    obtain ⟨l₁, hfirst, hl₁, hmanies₁⟩ := h.fill hnames hl hmanies hid
    obtain ⟨l₂, hrest⟩ := ih hl₁ hmanies₁ hids
    exact ⟨l₂, hfirst.bind (hrest.bind (.pure _))⟩

/-- Documents are filled in, nothing being remembered from before. -/
theorem fillAfresh (h : look.Finds d) (ones manies : List (Text × Text))
    (hnames : ∀ n ∈ ones, n.1 ≠ idField) {documents : List Members}
    (hids : ∀ ms ∈ documents, ∀ id, ms.get? idField = some id → id.isScalar = true) :
    Returns (Prod.fst <$>
        (Relations.ofNames ones manies).fillAll look (documents.map Value.object) {})
      ((d.fillEach (sorted ones manies) [] documents).map Value.object) := by
  have hones : ({} : Lookedup).KnowsOnes d := List.forall_mem_nil _
  have hmanies : ∀ n ∈ manies, ({} : Lookedup).Knows d [] n := fun _ _ => rfl
  obtain ⟨l, hfilled⟩ := h.fillAll hnames hones hmanies hids
  exact hfilled.map

end Lookups.Finds

/-! ### Calls -/

namespace Relations

open Findings

/-- A call that relates documents: a kind, and the names of fields and collections. -/
abbrev Call : Type := RelationKind × List (Text × Text)

/-- The relations of a call. -/
def Call.relations (call : Call) : List Relation := call.2.map (call.1, ·)

/-- The members that a call is made with. -/
def Call.members (call : Call) : Members := call.2.map fun n => (n.1, .str n.2)

section

variable {m : Type → Type} [Monad m] [MonadExceptOf Fault m]

/-- Each call fills in its relations at once. -/
def fillAtOnce (look : Lookups m) (calls : List Call) (documents : List Value) : m (List Value) :=
  calls.foldlM (fun documents call =>
    Prod.fst <$> (add {} call.1 call.members).fillAll look documents {}) documents

/-- The relations of all calls are filled in together. -/
def fillLater (look : Lookups m) (calls : List Call) (documents : List Value) : m (List Value) :=
  Prod.fst <$> (calls.foldl (fun r call => add r call.1 call.members) {}).fillAll look documents {}

end

theorem names_relations (kind : RelationKind) (call : Call) :
    names kind call.relations = if call.1 = kind then call.2 else [] := by
  by_cases h : call.1 = kind <;>
    simp [names, Call.relations, List.filter_map, Function.comp_def, h]

theorem add_ofNames (ones manies : List (Text × Text)) (call : Call) :
    (ofNames ones manies).add call.1 call.members =
      ofNames (ones ++ names .one call.relations) (manies ++ names .many call.relations) := by
  rw [names_relations, names_relations]
  obtain ⟨kind, more⟩ := call
  cases kind <;> simp [add, ofNames, Call.members]

theorem names_append (kind : RelationKind) (before after : List Relation) :
    names kind (before ++ after) = names kind before ++ names kind after := by
  rw [names, List.filter_append, List.map_append]
  rfl

theorem foldl_add_ofNames (ones manies : List (Text × Text)) (calls : List Call) :
    calls.foldl (fun r call => add r call.1 call.members) (ofNames ones manies) =
      ofNames (ones ++ names .one (calls.flatMap Call.relations))
        (manies ++ names .many (calls.flatMap Call.relations)) := by
  induction calls generalizing ones manies with
  | nil => rw [List.flatMap_nil]; simp [names]
  | cons call calls ih =>
    rw [List.foldl_cons, add_ofNames, ih, List.flatMap_cons, names_append, names_append,
      List.append_assoc, List.append_assoc]

variable {look : Lookups (ExceptT Fault (StateM σ))} {d : Findings} {calls : List Call}
  {documents : List Members}

theorem ne_idField_of_mem_names {kind : RelationKind} {relations : List Relation}
    (h : ∀ n ∈ relations, n.2.1 ≠ idField) : ∀ n ∈ names kind relations, n.1 ≠ idField := by
  intro n hn
  obtain ⟨relation, hrelation, rfl⟩ := List.mem_map.mp hn
  exact h relation (List.mem_of_mem_filter hrelation)

theorem ne_idField_of_mem_relations {call : Call} (h : ∀ n ∈ call.2, n.1 ≠ idField) :
    ∀ n ∈ call.relations, n.2.1 ≠ idField := by
  intro n hn
  obtain ⟨name, hname, rfl⟩ := List.mem_map.mp hn
  exact h name hname

/-- What the calls come to when each fills in its relations at once. -/
theorem returns_fillAtOnce (h : look.Finds d) (hnames : ∀ call ∈ calls, ∀ n ∈ call.2, n.1 ≠ idField)
    (hids : ∀ ms ∈ documents, ∀ id, ms.get? idField = some id → id.isScalar = true) :
    Returns (fillAtOnce look calls (documents.map Value.object))
      ((d.fillEach (calls.flatMap Call.relations) [] documents).map Value.object) := by
  induction calls generalizing documents with
  | nil =>
    rw [List.flatMap_nil, fillEach_nil]
    exact .pure _
  | cons call calls ih =>
    obtain ⟨hcall, hnames⟩ := List.forall_mem_cons.mp hnames
    have hrelations := ne_idField_of_mem_relations hcall
    have hfirst := h.fillAfresh (names .one call.relations) (names .many call.relations)
      (ne_idField_of_mem_names hrelations) hids
    rw [fillEach_sorted] at hfirst
    have hadd : add {} call.1 call.members =
        ofNames (names .one call.relations) (names .many call.relations) := add_ofNames [] [] call
    rw [← hadd] at hfirst
    have hrest := ih hnames (forall_id_fillEach (d := d) hrelations [] hids)
    rw [fillEach_fillEach hrelations] at hrest
    exact hfirst.bind hrest

/-- What the calls come to when their relations are filled in together. -/
theorem returns_fillLater (h : look.Finds d) (hnames : ∀ call ∈ calls, ∀ n ∈ call.2, n.1 ≠ idField)
    (hids : ∀ ms ∈ documents, ∀ id, ms.get? idField = some id → id.isScalar = true) :
    Returns (fillLater look calls (documents.map Value.object))
      ((d.fillEach (calls.flatMap Call.relations) [] documents).map Value.object) := by
  have hrelations : ∀ n ∈ calls.flatMap Call.relations, n.2.1 ≠ idField := by
    intro n hn
    obtain ⟨call, hcall, hn⟩ := List.mem_flatMap.mp hn
    exact ne_idField_of_mem_relations (hnames call hcall) n hn
  have hfilled := h.fillAfresh (names .one (calls.flatMap Call.relations))
    (names .many (calls.flatMap Call.relations)) (ne_idField_of_mem_names hrelations) hids
  rw [fillEach_sorted] at hfilled
  have hadd := foldl_add_ofNames [] [] calls
  rw [List.nil_append, List.nil_append] at hadd
  rwa [← hadd] at hfilled

/-- Documents come out the same whether each call fills in its relations at once or those of all calls
are filled in together later. -/
theorem fillAtOnce_fillLater (h : look.Finds d)
    (hnames : ∀ call ∈ calls, ∀ n ∈ call.2, n.1 ≠ idField)
    (hids : ∀ ms ∈ documents, ∀ id, ms.get? idField = some id → id.isScalar = true) :
    ∃ filled, Returns (fillAtOnce look calls (documents.map Value.object)) filled ∧
      Returns (fillLater look calls (documents.map Value.object)) filled :=
  ⟨_, returns_fillAtOnce h hnames hids, returns_fillLater h hnames hids⟩

/-- What is found in an archive that tells by what its documents were looked up. -/
def tellings : Findings where
  one collection id := .object [("name", .str collection), ("id", id)]
  many _ field id := [.object [(field, id)]]

theorem finds_telling : telling.lookups.Finds tellings where
  one _ _ _ := rfl
  many _ _ _ _ := rfl

/-- A field that is a reference and a list, and an id that is the same key as another one. -/
theorem fillAtOnce_fillLater_posts :
    let calls : List Call :=
      [(.many, [("posts", "author")]), (.one, [("posts", "users"), ("owner", "users")])]
    let documents : List Members :=
      [[("_id", .int 1), ("owner", .str "a")], [("posts", .str "b"), ("_id", .bool true)]]
    telling.lookups.Finds tellings ∧ (∀ call ∈ calls, ∀ n ∈ call.2, n.1 ≠ idField) ∧
      (∀ ms ∈ documents, ∀ id, ms.get? idField = some id → id.isScalar = true) ∧
      ∃ filled, Returns (fillAtOnce telling.lookups calls (documents.map Value.object)) filled ∧
        Returns (fillLater telling.lookups calls (documents.map Value.object)) filled ∧
        filled = [
          .object [("_id", .int 1), ("owner", .object [("name", .str "users"), ("id", .str "a")]),
            ("posts", .list [.object [("author", .int 1)]])],
          .object [("posts", .list [.object [("author", .int 1)]]), ("_id", .bool true)]] := by
  intro calls documents
  have hnames : ∀ call ∈ calls, ∀ n ∈ call.2, n.1 ≠ idField := by decide
  have hids : ∀ ms ∈ documents, ∀ id, ms.get? idField = some id → id.isScalar = true := by
    simp only [documents, List.forall_mem_cons]
    refine ⟨?_, ?_, List.forall_mem_nil _⟩ <;>
    · rintro _ ⟨⟩
      rfl
  obtain ⟨filled, hatOnce, hlater⟩ := fillAtOnce_fillLater finds_telling hnames hids
  exact ⟨finds_telling, hnames, hids, filled, hatOnce, hlater,
    Except.ok.inj ((hlater []).symm.trans rfl)⟩

end Relations

end DocStore
