import DocStore.Proofs.Store.Search
import DocStore.Store.Verb

/-!
Writing in steps. Whatever is written is written by a collection that made sure
of its table before, or has just read from it, and which statements choose
among the documents is settled by the filters alone.
-/

namespace DocStore

/-- A filter deletes under a condition: under the one that criteria come to, or under the ids of the
documents that a predicate selects. -/
def Filter.Deletes (d : Dialect) : Filter → Option Sql → Prop
  | .criteria v, condition => d.whereClause v = .ok condition
  | .predicate _, condition => ∃ selector literals : Sql,
    condition = some ("WHERE " ++ (selector ++ " IN (" ++ literals ++ ")"))

namespace Action

variable {P : Statement → Prop} {s : Store}

theorem within_identified (document : Value) :
    Within P (identified document) s fun _ _ => True := by
  unfold identified
  refine (within_ofMisuse _).bind fun ms s₁ _ _ => ?_
  have hfresh : Within P freshId s₁ fun _ _ => True :=
    ⟨.single (step_aside rfl rfl rfl rfl rfl), fun _ _ => trivial⟩
  split
  · exact hfresh.bind fun _ _ _ _ => .pure trivial
  · exact .pure trivial

theorem within_identifiedAll (documents : List Value) :
    Within P (identifiedAll documents) s fun _ _ => True := by
  induction documents generalizing s with
  | nil => exact .pure trivial
  | cons document documents ih =>
    refine (within_identified document).bind fun _ s₁ _ _ => ?_
    exact ih.bind fun _ _ _ _ => .pure trivial

/-- A statement on the table of a collection that has made sure of it. -/
theorem within_changeOwn {c : Nat} {x : Collection} {st : Statement} (hP : P st)
    (hkeeps : st.KeepsTables) (htable : st.table? = some x.table)
    (hx : s.collections[c]? = some x) (hready : ∃ table, s.IsReady c table) :
    Within P (change st) s fun _ s' => ∃ table, s'.IsReady c table := by
  obtain ⟨table, hready⟩ := hready
  refine (within_change hP hkeeps fun t ht => ?_).mono fun _ s' hs' _ => ⟨table, hs'.isReady hready⟩
  rw [htable] at ht
  cases ht
  exact ⟨c, hready.own hx⟩

variable (hplain : ∀ st : Statement, st.IsPlain → P st)

section
include hplain

theorem within_insertMembers (c : Nat) (documents : List Members) :
    Within P (insertMembers c documents) s fun _ _ => True := by
  unfold insertMembers
  refine (within_ensureTable hplain c).bind fun _ s₁ _ hready => ?_
  refine (within_collection c).bind ?_
  rintro x _ - ⟨rfl, hx⟩
  refine (within_inDialect _).bind ?_
  rintro literals _ - ⟨rfl, -⟩
  have hinsert : P (.insert x.table literals) := hplain _ trivial
  exact (within_changeOwn hinsert trivial rfl hx hready).bind fun _ _ _ _ => .pure trivial

theorem within_insertOne (c : Nat) (document : Value) :
    Within P (insertOne c document) s fun _ _ => True := by
  unfold insertOne
  refine (within_identified document).bind fun ms s₁ _ _ => ?_
  exact (within_insertMembers hplain c [ms]).bind fun _ _ _ _ => .pure trivial

theorem within_insertMany (c : Nat) (documents : List Value) :
    Within P (insertMany c documents) s fun _ _ => True := by
  unfold insertMany
  refine (within_identifiedAll documents).bind fun stored s₁ _ _ => ?_
  split
  · exact (within_insertMembers hplain c stored).bind fun _ _ _ _ => .pure trivial
  · exact .pure trivial

theorem within_writeOver {c : Nat} (id : Value) (ms : Members)
    (hready : ∃ table, s.IsReady c table) :
    Within P (writeOver c id ms) s fun _ s' => ∃ table, s'.IsReady c table := by
  unfold writeOver
  refine (within_collection c).bind ?_
  rintro x _ - ⟨rfl, hx⟩
  refine (within_inDialect _).bind ?_
  rintro statement _ - ⟨rfl, hstatement⟩
  have hupdate : ∃ document selector literal,
      statement = .update x.table document selector literal := by
    obtain ⟨document, -, hstatement⟩ := exists_of_bind_ok hstatement
    obtain ⟨selector, -, hstatement⟩ := exists_of_bind_ok hstatement
    obtain ⟨literal, -, ⟨⟩⟩ := exists_of_bind_ok hstatement
    exact ⟨document, selector, literal, rfl⟩
  obtain ⟨document, selector, literal, rfl⟩ := hupdate
  have hP : P (.update x.table document selector literal) := hplain _ trivial
  exact (within_changeOwn hP trivial rfl hx hready).bind fun _ _ _ h => .pure h

theorem within_overlayAll {c : Nat} (patch : Value) (documents : List Value)
    (hready : ∃ table, s.IsReady c table) :
    Within P (overlayAll c patch documents) s fun _ _ => True := by
  induction documents generalizing s with
  | nil => exact .pure trivial
  | cons document documents ih =>
    unfold overlayAll
    refine (within_ofMisuse _).bind ?_
    rintro ⟨id, ms⟩ _ - ⟨rfl, -⟩
    exact (within_writeOver hplain id ms hready).bind fun _ _ _ h => ih h

end

/-! ### Documents that a filter selects -/

section

variable {c : Nat} {filter : Filter}

include hplain

theorem within_updateMany (patch : Value) {options : FindOptions}
    (hselect : ∀ st, filter.ReadsBy s.dialect options st → P st) :
    Within P (updateMany c filter patch options) s fun _ _ => True := by
  unfold updateMany
  have hfind : Within P (find c filter { options with projection := none }) s _ :=
    within_find hplain fun st hst => hselect st (by cases filter <;> exact hst)
  refine hfind.bind fun matching s₁ _ hready => ?_
  exact (within_overlayAll hplain patch matching hready).bind fun _ _ _ _ => .pure trivial

theorem within_updateOne (patch : Value)
    (hselect : ∀ st, filter.ReadsBy s.dialect { limit := some 1 } st → P st) :
    Within P (updateOne c filter patch) s fun _ _ => True :=
  within_updateMany hplain patch hselect

theorem within_replaceOne (document : Value)
    (hselect : ∀ st, filter.ReadsBy s.dialect { limit := some 1 } st → P st) :
    Within P (replaceOne c filter document) s fun _ _ => True := by
  unfold replaceOne
  refine (within_findOne hplain hselect).bind fun current s₁ _ hready => ?_
  split
  · exact .pure trivial
  · refine (within_ofMisuse _).bind ?_
    rintro ⟨id, ms⟩ _ - ⟨rfl, -⟩
    exact (within_writeOver hplain id ms hready).bind fun _ _ _ _ => .pure trivial

end

/-! ### Deleting and counting -/

theorem within_deleteIds {c : Nat} (ids : List Value) (hready : ∃ table, s.IsReady c table)
    (hdelete : ∀ (table : Text) (selector literals : Sql),
      P (.delete table (some ("WHERE " ++ (selector ++ " IN (" ++ literals ++ ")"))))) :
    Within P (deleteIds c ids) s fun _ _ => True := by
  unfold deleteIds
  refine (within_collection c).bind ?_
  rintro x _ - ⟨rfl, hx⟩
  refine (within_inDialect _).bind ?_
  rintro condition _ - ⟨rfl, hcondition⟩
  obtain ⟨selector, -, hcondition⟩ := exists_of_bind_ok hcondition
  obtain ⟨literals, -, ⟨⟩⟩ := exists_of_bind_ok hcondition
  have hP := hdelete x.table selector literals
  simp only [← List.append_assoc] at hP
  exact (within_changeOwn hP trivial rfl hx hready).bind fun _ _ _ _ => .pure trivial

theorem within_deleteMany {c : Nat} {filter : Filter}
    (hplain : ∀ st : Statement, st.IsPlain → P st)
    (hdelete : ∀ table condition, filter.Deletes s.dialect condition → P (.delete table condition))
    (hselect : ∀ st, filter.ReadsBy s.dialect {} st → P st) :
    Within P (deleteMany c filter) s fun _ _ => True := by
  unfold deleteMany
  -- The filter is read in the dialect of the store at hand, which making the table leaves as it was.
  refine (within_ensureTable hplain c).bind fun _ s₁ hs₁ hready => ?_
  rw [← hs₁.dialect] at hselect
  cases filter with
  | predicate selects =>
    refine (within_find hplain hselect).bind fun selected s₂ _ hready => ?_
    refine (within_ofMisuse _).bind ?_
    rintro ids _ - ⟨rfl, -⟩
    split
    · exact within_deleteIds ids hready fun _ _ _ => hdelete _ _ ⟨_, _, rfl⟩
    · exact .pure trivial
  | criteria v =>
    refine (within_collection c).bind ?_
    rintro x _ - ⟨rfl, hx⟩
    refine (within_inDialect _).bind ?_
    rintro condition _ - ⟨rfl, hcondition⟩
    rw [hs₁.dialect] at hcondition
    have hchange := within_changeOwn (hdelete x.table condition hcondition) trivial rfl hx hready
    exact hchange.bind fun _ _ _ _ => .pure trivial

theorem within_count (hP : ∀ st, P st) (c : Nat) (filter : Filter) :
    Within P (count c filter) s fun _ _ => True := by
  unfold count
  cases filter with
  | predicate selects =>
    exact (within_find (fun st _ => hP st) fun st _ => hP st).bind fun _ _ _ _ => .pure trivial
  | criteria v =>
    refine (within_ensureTable (fun st _ => hP st) c).bind fun _ s₁ hs₁ hready => ?_
    refine (within_collection c).bind ?_
    rintro x _ - ⟨rfl, hx⟩
    refine (within_inDialect _).bind ?_
    rintro condition _ - ⟨rfl, -⟩
    obtain ⟨table, hready⟩ := hready
    refine (within_rows (hP (.count x.table condition)) trivial ?_).bind fun rows s₂ _ _ => ?_
    · rintro t ⟨⟩
      exact ⟨c, hready.own hx⟩
    · exact (within_ofMisuse _).weaken

end Action

end DocStore
