import DocStore.Dialect.Operator
import DocStore.Proofs.Json.Writable
import DocStore.Proofs.Outcome

/-!
Operators in several dialects. Each dialect has hooks of its own for literals,
paths and operators, and they check in different orders; what is refused, and
for which reason, is still the same. A path is refused before anything else, so
that beyond it every hook is compared with the literals of its argument. One
list escapes this: scalars that are not all texts, which one dialect writes as
JSON without asking whether the texts among them have a UTF-8 form.
-/

namespace DocStore

/-- Two computations that both succeed, or both refuse a filter for the same reason. -/
inductive Accord {α β : Type} : Except Fault α → Except Fault β → Prop where
  | ok (a : α) (b : β) : Accord (.ok a) (.ok b)
  | refused (fault : FilterFault) : Accord (.error (.filter fault)) (.error (.filter fault))

namespace Accord

variable {α β γ δ : Type} {e : Except Fault α} {e' : Except Fault β}

theorem symm (h : Accord e e') : Accord e' e := by
  cases h with
  | ok a b => exact .ok b a
  | refused fault => exact .refused fault

theorem trans {e'' : Except Fault γ} (h : Accord e e') (h' : Accord e' e'') : Accord e e'' := by
  cases h with
  | ok a b =>
    cases h' with
    | ok _ c => exact .ok a c
  | refused fault =>
    cases h' with
    | refused => exact .refused fault

theorem of_exists (h : ∃ a, e = .ok a) (h' : ∃ b, e' = .ok b) : Accord e e' := by
  obtain ⟨a, rfl⟩ := h
  obtain ⟨b, rfl⟩ := h'
  exact .ok a b

theorem bind {f : α → Except Fault γ} {g : β → Except Fault δ} (h : Accord e e')
    (hf : ∀ a b, e = .ok a → e' = .ok b → Accord (f a) (g b)) : Accord (e >>= f) (e' >>= g) := by
  cases h with
  | ok a b => exact hf a b rfl rfl
  | refused fault => exact .refused fault

/-- What goes on after a computation and cannot fail makes no difference. -/
theorem follow {f : α → Except Fault γ} (h : Accord e e') (hf : ∀ a, ∃ c, f a = .ok c) :
    Accord (e >>= f) e' := by
  cases h with
  | ok a b =>
    exact of_exists (hf a) ⟨b, rfl⟩
  | refused fault => exact .refused fault

theorem exists_ok {a : α} (h : Accord e e') (he : e = .ok a) : ∃ b, e' = .ok b := by
  cases h with
  | ok _ b => exact ⟨b, rfl⟩
  | refused fault => cases he

theorem map (f : α → γ) (g : β → δ) (h : Accord e e') : Accord (f <$> e) (g <$> e') := by
  cases h with
  | ok a b => exact .ok (f a) (g b)
  | refused fault => exact .refused fault

/-- Computations over a list, item by item. -/
theorem mapM {f : γ → Except Fault α} {g : γ → Except Fault β} {cs : List γ}
    (h : ∀ c ∈ cs, Accord (f c) (g c)) : Accord (cs.mapM f) (cs.mapM g) := by
  induction cs with
  | nil => exact .ok _ _
  | cons c cs ih =>
    obtain ⟨hc, hcs⟩ := List.forall_mem_cons.mp h
    rw [List.mapM_cons, List.mapM_cons]
    exact hc.bind fun _ _ _ _ => (ih hcs).bind fun _ _ _ _ => .ok _ _

end Accord

namespace Dialect

/-- The connection quotes every text. -/
def QuotesEvery (d : Dialect) : Prop := ∀ t, ∃ l, d.quote t = .ok l

/-- The texts among some values have a UTF-8 form. -/
def textsEncodable (vs : List Value) : Bool :=
  vs.all fun
    | .str t => t.isEncodable
    | _ => true

/-- Scalars that are not all texts, with a text among them that has no UTF-8 form. -/
def mixesUnencodable (vs : List Value) : Bool :=
  (vs.all fun v => v.isScalar && !v.isNull) && !vs.all isText && !textsEncodable vs

theorem quoted_eq_ok_iff {d : Dialect} {t : Text} {s : Sql} :
    d.quoted t = .ok s ↔ ∃ l, d.quote t = .ok l ∧ s = [.literal l] := by
  rw [quoted]
  cases d.quote t with
  | error fault => exact iff_of_false nofun nofun
  | ok l =>
    constructor
    · rintro ⟨⟩
      exact ⟨l, rfl, rfl⟩
    · rintro ⟨_, ⟨⟩, rfl⟩
      rfl

theorem textLiteral_eq_ok_iff {d : Dialect} {t : Text} {s : Sql} :
    d.textLiteral t = .ok s ↔ t.isEncodable = true ∧ ∃ l, d.quote t = .ok l ∧ s = [.literal l] := by
  rw [textLiteral]
  split
  next ht => rw [quoted_eq_ok_iff, and_iff_right ht]
  next ht => exact iff_of_false nofun fun h => ht h.1

theorem isSome_encode_of_isScalar {v : Value} (hv : v.isScalar = true) :
    (Json.encode v).isSome = true := by
  rw [Json.isSome_encode]
  cases v with
  | bool b => cases b <;> rfl
  | null | int _ | float _ | str _ => rfl
  | _ => cases hv

theorem isSome_encode_scalars {vs : List Value} (hvs : ∀ v ∈ vs, v.isScalar = true) :
    (Json.encode (.list vs)).isSome = true := by
  rw [Json.isSome_encode, Json.isSome_write_list, Json.isSome_writeItems_iff]
  intro v hv
  rw [← Json.isSome_encode]
  exact isSome_encode_of_isScalar (hvs v hv)

section

variable {d : Dialect} (hd : d.QuotesEvery)

include hd

theorem QuotesEvery.exists_quoted (t : Text) : ∃ s, d.quoted t = .ok s := by
  obtain ⟨l, hl⟩ := hd t
  exact ⟨[.literal l], by rw [quoted, hl]; rfl⟩

theorem QuotesEvery.exists_jsonLiteral {v : Value} (hv : (Json.encode v).isSome = true) :
    ∃ s, d.jsonLiteral v = .ok s := by
  obtain ⟨t, ht⟩ := Option.isSome_iff_exists.mp hv
  rw [jsonLiteral, ht]
  exact hd.exists_quoted t

theorem QuotesEvery.exists_numberLiteral (n : Number) : ∃ s, d.numberLiteral n = .ok s := by
  unfold numberLiteral
  split
  · exact ⟨_, rfl⟩
  · exact hd.exists_quoted _

theorem QuotesEvery.exists_truthLiteral (b : Bool) : ∃ s, d.truthLiteral b = .ok s := by
  unfold truthLiteral
  split
  · exact ⟨_, rfl⟩
  · exact hd.exists_quoted _

/-- Scalars other than texts have a literal. -/
theorem QuotesEvery.exists_literal {v : Value} (hv : v.isScalar = true) (ht : isText v = false) :
    ∃ s, d.literal v = .ok s := by
  cases v with
  | null => exact ⟨_, rfl⟩
  | bool b => exact hd.exists_truthLiteral b
  | int n => exact hd.exists_numberLiteral (.int n)
  | float x => exact hd.exists_numberLiteral (.float x)
  | str t => cases ht
  | _ => cases hv

omit hd in
/-- A text that must have a UTF-8 form is refused alike by all connections. -/
theorem QuotesEvery.textLiteral_accord {d' : Dialect} (hd : d.QuotesEvery) (hd' : d'.QuotesEvery)
    (t : Text) : Accord (d.textLiteral t) (d'.textLiteral t) := by
  unfold textLiteral
  split
  · exact .of_exists (hd.exists_quoted t) (hd'.exists_quoted t)
  · exact .refused _

/-- Literals are refused alike by all connections. -/
theorem QuotesEvery.literal_accord {d' : Dialect} (hd' : d'.QuotesEvery) (v : Value) :
    Accord (d.literal v) (d'.literal v) := by
  cases v with
  | null => exact .ok _ _
  | bool b => exact .of_exists (hd.exists_truthLiteral b) (hd'.exists_truthLiteral b)
  | int n => exact .of_exists (hd.exists_numberLiteral (.int n)) (hd'.exists_numberLiteral (.int n))
  | float x =>
    exact .of_exists (hd.exists_numberLiteral (.float x)) (hd'.exists_numberLiteral (.float x))
  | str t => exact hd.textLiteral_accord hd' t
  | _ => exact .refused _

/-- A field whose keys are known has a path. -/
theorem QuotesEvery.exists_pathLiteral {field : Text} {keys : List Text}
    (h : Path.segments field = .ok keys) : ∃ s, d.pathLiteral field = .ok s := by
  unfold pathLiteral
  cases d.engine <;> simp only [Path.json, Path.textArray, h] <;> exact hd.exists_quoted _

theorem QuotesEvery.exists_selector {field : Text} {keys : List Text}
    (h : Path.segments field = .ok keys) (asText : Bool) :
    ∃ s, d.selector field asText = .ok s := by
  obtain ⟨path, hpath⟩ := hd.exists_pathLiteral h
  unfold selector
  rw [ok_bind hpath]
  cases d.engine <;> exact ⟨_, rfl⟩

theorem QuotesEvery.exists_numericSelector {field : Text} {keys : List Text}
    (h : Path.segments field = .ok keys) : ∃ s, d.numericSelector field = .ok s := by
  obtain ⟨json, hjson⟩ := hd.exists_selector h false
  obtain ⟨text, htext⟩ := hd.exists_selector h true
  unfold numericSelector
  cases d.engine <;> simp only [hjson, htext] <;> exact ⟨_, rfl⟩

/-- A scalar as JSON of the engine that compares JSON with JSON is refused as its literal is. -/
theorem QuotesEvery.jsonValue_accord {v : Value} (hv : v.isScalar = true) :
    Accord (d.jsonValue v) (d.literal v) := by
  cases v with
  | str t =>
    have ht : Accord (d.textLiteral t) (d.textLiteral t) := hd.textLiteral_accord hd t
    exact ht.follow fun _ => ⟨_, rfl⟩
  | null | bool _ | int _ | float _ =>
    obtain ⟨json, hjson⟩ := hd.exists_jsonLiteral (isSome_encode_of_isScalar hv)
    exact .of_exists ⟨_, ok_bind hjson _⟩ (hd.exists_literal hv rfl)
  | _ => cases hv

/-- Membership of a scalar is refused as the literal of the scalar is. -/
theorem QuotesEvery.has_accord {field : Text} {keys : List Text}
    (hfield : Path.segments field = .ok keys) {v : Value} (hv : v.isScalar = true) :
    Accord (d.has field v) (d.literal v) := by
  obtain ⟨target, htarget⟩ := hd.exists_selector hfield false
  obtain ⟨path, hpath⟩ := hd.exists_pathLiteral hfield
  unfold has
  split
  · rw [ok_bind htarget]
    exact (hd.jsonValue_accord hv).follow fun _ => ⟨_, rfl⟩
  · rw [ok_bind htarget]
    split
    next t => exact (hd.textLiteral_accord hd t).follow fun _ => ⟨_, rfl⟩
    next hnot =>
      have ht : isText v = false := by
        cases v <;> first | rfl | exact absurd rfl (hnot _)
      have hlist : (Json.encode (.list [v])).isSome = true :=
        isSome_encode_scalars (by simpa using hv)
      obtain ⟨json, hjson⟩ := hd.exists_jsonLiteral hlist
      exact .of_exists ⟨_, ok_bind hjson _⟩ (hd.exists_literal hv ht)
  · rw [ok_bind hpath]
    exact (hd.literal_accord hd v).follow fun _ => ⟨_, rfl⟩

/-- The literals of scalars whose texts have a UTF-8 form. -/
theorem QuotesEvery.exists_literals {vs : List Value} (hvs : ∀ v ∈ vs, v.isScalar = true)
    (htexts : textsEncodable vs = true) : ∃ items, vs.mapM d.literal = .ok items := by
  refine exists_mapM_ok fun v hv => ?_
  have hv' := hvs v hv
  have htext := List.all_eq_true.mp htexts v hv
  cases v with
  | str t =>
    obtain ⟨s, hs⟩ := hd.exists_quoted t
    exact ⟨s, by rw [literal, textLiteral, if_pos htext, hs]⟩
  | null | bool _ | int _ | float _ => exact hd.exists_literal hv' rfl
  | _ => cases hv'

/-- Membership of scalars is refused as their literals are, unless the dialect writes them as one
JSON list and this is a mixture that has no UTF-8 form. -/
theorem QuotesEvery.hasAll_accord {field : Text} {keys : List Text}
    (hfield : Path.segments field = .ok keys) {vs : List Value}
    (hvs : (vs.all fun v => v.isScalar && !v.isNull) = true)
    (hmix : d.engine = .pgsql → mixesUnencodable vs = false) :
    Accord (d.hasAll field vs) (vs.mapM d.literal) := by
  obtain ⟨target, htarget⟩ := hd.exists_selector hfield false
  have hscalar : ∀ v ∈ vs, v.isScalar = true := fun v hv =>
    (Bool.and_eq_true_iff.mp (List.all_eq_true.mp hvs v hv)).1
  have hself : Accord (vs.mapM d.literal) (vs.mapM d.literal) :=
    .mapM fun v _ => hd.literal_accord hd v
  unfold hasAll
  split
  · rw [ok_bind htarget]
    have hitems : Accord (vs.mapM d.jsonValue) (vs.mapM d.literal) :=
      .mapM fun v hv => hd.jsonValue_accord (hscalar v hv)
    exact hitems.follow fun _ => ⟨_, rfl⟩
  next hengine =>
    rw [ok_bind htarget]
    split
    · have hitems : Accord (d.literals vs) (vs.mapM d.literal) := hself.follow fun _ => ⟨_, rfl⟩
      exact hitems.follow fun _ => ⟨_, rfl⟩
    next hnot =>
      have htexts : textsEncodable vs = true := by
        have := hmix hengine
        rw [mixesUnencodable, hvs] at this
        simpa [hnot] using this
      obtain ⟨json, hjson⟩ := hd.exists_jsonLiteral (isSome_encode_scalars hscalar)
      exact .of_exists ⟨_, ok_bind hjson _⟩ (hd.exists_literals hscalar htexts)
  · have hitems : Accord (vs.mapM (d.has field)) (vs.mapM d.literal) :=
      .mapM fun v hv => hd.has_accord hfield (hscalar v hv)
    exact hitems.follow fun _ => ⟨_, rfl⟩

theorem QuotesEvery.exists_hasSize {field : Text} {keys : List Text}
    (hfield : Path.segments field = .ok keys) (size : Nat) :
    ∃ s, d.hasSize field size = .ok s := by
  obtain ⟨target, htarget⟩ := hd.exists_selector hfield false
  obtain ⟨path, hpath⟩ := hd.exists_pathLiteral hfield
  unfold hasSize
  cases d.engine with
  | mysql | pgsql => exact ⟨_, ok_bind htarget _⟩
  | sqlite => exact ⟨_, ok_bind hpath _⟩

theorem QuotesEvery.exists_leaves {field : Text} {keys : List Text}
    (hfield : Path.segments field = .ok keys) (divisor remainder : Number) :
    ∃ s, d.leaves field divisor remainder = .ok s := by
  obtain ⟨target, htarget⟩ := hd.exists_selector hfield true
  obtain ⟨number, hnumber⟩ := hd.exists_numericSelector hfield
  unfold leaves
  cases d.engine with
  | mysql | pgsql => exact ⟨_, ok_bind hnumber _⟩
  | sqlite => exact ⟨_, ok_bind htarget _⟩

end

section

variable {d d' : Dialect} (hd : d.QuotesEvery) (hd' : d'.QuotesEvery)

include hd hd'

theorem matchesPattern_accord (selector selector' : Sql) (pattern : Text) :
    Accord (d.matchesPattern selector pattern) (d'.matchesPattern selector' pattern) :=
  (hd.textLiteral_accord hd' pattern).bind fun _ _ _ _ => by
    cases d.engine <;> cases d'.engine <;> exact .ok _ _

theorem literals_accord (vs : List Value) : Accord (d.literals vs) (d'.literals vs) :=
  have hitems : Accord (vs.mapM d.literal) (vs.mapM d'.literal) :=
    .mapM fun v _ => hd.literal_accord hd' v
  hitems.bind fun _ _ _ _ => .ok _ _

theorem among_accord (op : Operator) (selector selector' : Sql) (v : Value) :
    Accord (d.among op selector v) (d'.among op selector' v) := by
  unfold among
  split
  · exact .refused _
  · exact .ok _ _
  · exact (literals_accord hd hd' _).bind fun _ _ _ _ => .ok _ _

theorem compares_accord (op : Operator) {field : Text} {keys : List Text}
    (hfield : Path.segments field = .ok keys) (selector selector' : Sql) (v : Value) :
    Accord (d.compares op field selector v) (d'.compares op field selector' v) := by
  unfold compares
  split
  · exact .refused _
  · dsimp only
    split
    · have htarget : Accord (d.numericSelector field) (d'.numericSelector field) :=
        .of_exists (hd.exists_numericSelector hfield) (hd'.exists_numericSelector hfield)
      exact htarget.bind fun _ _ _ _ => (hd.literal_accord hd' v).bind fun _ _ _ _ => .ok _ _
    · exact (hd.literal_accord hd' v).bind fun _ _ _ _ => .ok _ _

end

theorem selector_of_segments_error {d : Dialect} {field : Text} {fault : ArgumentFault}
    (hfield : Path.segments field = .error fault) (asText : Bool) :
    d.selector field asText = .error ↑fault := by
  have hpath : d.pathLiteral field = .error ↑fault := by
    unfold pathLiteral
    cases d.engine <;> simp only [Path.json, Path.textArray, hfield] <;> rfl
  unfold selector
  rw [hpath]
  rfl

/-- A field that is refused is refused before the argument of its operator. -/
theorem operator_of_segments_error {d : Dialect} {field : Text} {fault : ArgumentFault}
    (hfield : Path.segments field = .error fault) (op : Operator) (v : Value) :
    d.operator op field v = .error ↑fault := by
  unfold operator
  rw [selector_of_segments_error hfield]
  rfl

theorem items_of_scalarsOf {v : Value} {vs : List Value} (h : scalarsOf v = .ok vs) :
    v.items? = some vs ∧ (vs.all fun v => v.isScalar && !v.isNull) = true := by
  unfold scalarsOf at h
  split at h
  · cases h
  next items hitems =>
    split at h
    next hall =>
      cases h
      exact ⟨hitems, hall⟩
    · cases h

/-- Two dialects refuse an operator alike. A mixture with a text that has no UTF-8 form is the
exception, where one of the dialects writes it as JSON. -/
theorem operator_accord {d d' : Dialect} (hd : d.QuotesEvery) (hd' : d'.QuotesEvery) {op : Operator}
    (hop : op.isSupported = true) (field : Text) (v : Value)
    (hmix : op = .all → d.engine = .pgsql ∨ d'.engine = .pgsql →
      ∀ vs, v.items? = some vs → mixesUnencodable vs = false) :
    Accord (d.operator op field v) (d'.operator op field v) := by
  cases hfield : Path.segments field with
  | error fault =>
    rw [operator_of_segments_error hfield, operator_of_segments_error hfield]
    exact .refused _
  | ok keys =>
    obtain ⟨selector, hselector⟩ := hd.exists_selector hfield true
    obtain ⟨selector', hselector'⟩ := hd'.exists_selector hfield true
    unfold operator
    rw [ok_bind hselector, ok_bind hselector']
    cases op with
    | eq | ne =>
      dsimp only
      split
      · exact .ok _ _
      · exact (hd.literal_accord hd' v).bind fun _ _ _ _ => .ok _ _
    | gt | gte | lt | lte =>
      exact (compares_accord hd hd' _ hfield selector selector' v).map _ _
    | oneOf | noneOf => exact (among_accord hd hd' _ selector selector' v).map _ _
    | has =>
      dsimp only
      split
      · exact .refused _
      next hv =>
        have hv : v.isScalar = true := by simp_all
        have hhas : Accord (d.has field v) (d'.has field v) :=
          ((hd.has_accord hfield hv).trans (hd.literal_accord hd' v)).trans
            (hd'.has_accord hfield hv).symm
        exact hhas.map _ _
    | all =>
      dsimp only
      split
      · exact .refused _
      · exact .ok _ _
      next vs _ hvs =>
        obtain ⟨hitems, hscalars⟩ := items_of_scalarsOf hvs
        have hliterals : Accord (vs.mapM d.literal) (vs.mapM d'.literal) :=
          .mapM fun v _ => hd.literal_accord hd' v
        have hall : Accord (d.hasAll field vs) (d'.hasAll field vs) :=
          ((hd.hasAll_accord hfield hscalars fun h => hmix rfl (.inl h) vs hitems).trans
            hliterals).trans
            (hd'.hasAll_accord hfield hscalars fun h => hmix rfl (.inr h) vs hitems).symm
        exact hall.map _ _
    | regex =>
      dsimp only
      split
      · exact .refused _
      next pattern _ => exact (matchesPattern_accord hd hd' selector selector' pattern).map _ _
    | size =>
      dsimp only
      split
      next n =>
        have hsize : Accord (d.hasSize field n) (d'.hasSize field n) :=
          .of_exists (hd.exists_hasSize hfield n) (hd'.exists_hasSize hfield n)
        exact hsize.map _ _
      · exact .refused _
    | mod =>
      dsimp only
      split
      · exact .refused _
      next m n _ =>
        have hleaves : Accord (d.leaves field m n) (d'.leaves field m n) :=
          .of_exists (hd.exists_leaves hfield m n) (hd'.exists_leaves hfield m n)
        exact hleaves.map _ _
    | present => exact .ok _ _
    | text =>
      dsimp only
      split
      next t => exact (hd.textLiteral_accord hd' _).bind fun _ _ _ _ => .ok _ _
      · exact .refused _
    | options => exact .ok _ _
    | func | fuzzy => cases hop

end Dialect

end DocStore
