import DocStore.Proofs.Sql.Form
import Mathlib.Data.List.Forall2

/-!
Two rows of pieces side by side. Twins have the same shape: the same fixed words
and numbers, and a literal or a name in the one where there is one in the other.
What is built alike from twins gives twins, and twins are read as the same
tokens once it is forgotten what literals and names hold.
-/

namespace DocStore

/-- A piece without what a literal or a name holds. -/
def Piece.shape : Piece → Piece
  | .code t => .code t
  | .literal _ => .literal []
  | .identifier _ => .identifier []
  | .number t => .number t

/-- A token without what a literal or a name holds. -/
def Token.erased : Token → Token
  | .literal _ => .literal []
  | .name _ => .name []
  | t => t

namespace Sql

/-- The shape of a row of pieces. -/
def shape (s : Sql) : Sql := s.map Piece.shape

/-- Two rows of the same shape, both with a property. -/
structure Twins (P : Sql → Prop) (s t : Sql) : Prop where
  left : P s
  right : P t
  shape : s.shape = t.shape

/-- Two fillings of a form, of the same shape. -/
abbrev Filled (x : Lexis) (f : Sql) : Sql → Sql → Prop := Twins (Fills x f)

variable {x : Lexis} {b : Bool}

namespace Twins

theorem same {P : Sql → Prop} {s : Sql} (h : P s) : Twins P s s := ⟨h, h, rfl⟩

theorem mono {P Q : Sql → Prop} {s t : Sql} (h : Twins P s t) (hPQ : ∀ s, P s → Q s) :
    Twins Q s t := ⟨hPQ s h.left, hPQ t h.right, h.shape⟩

end Twins

theorem shape_append (s t : Sql) : shape (s ++ t) = shape s ++ shape t := by simp [shape]

namespace Filled

theorem code (t : Text) : Filled x [.code t] [.code t] [.code t] := .same (.code t)

theorem unit {s t : Sql} (h : Twins (IsUnit x) s t) : Filled x [.literal []] s t :=
  ⟨.unit h.left, .unit h.right, h.shape⟩

theorem append {f g s s' t t' : Sql} (hs : Filled x f s s') (ht : Filled x g t t') :
    Filled x (f ++ g) (s ++ t) (s' ++ t') :=
  ⟨hs.left.append ht.left, hs.right.append ht.right, by simp only [shape_append, hs.shape, ht.shape]⟩

theorem twins {f s t : Sql} (h : Filled x f s t) (hf : isForm x f = true) : Twins (IsUnit x) s t :=
  h.mono fun _ hs => hs.isUnit hf

end Filled

theorem Twins.headed {s t : Sql} (h : Twins (IsBalanced x b) s t) {head : Text}
    (hhead : walkCode x b ⟨true, 0⟩ head = some ⟨true, 0⟩) :
    Twins (IsBalanced x b) (.code head :: s) (.code head :: t) where
  left := h.left.headed hhead
  right := h.right.headed hhead
  shape := congrArg (Piece.code head :: ·) h.shape

theorem shape_join (sep : String) {ss ts : List Sql}
    (h : List.Forall₂ (fun s t : Sql => s.shape = t.shape) ss ts) :
    (join sep ss).shape = (join sep ts).shape := by
  induction h with
  | nil => rfl
  | @cons s t ss ts hst hrest ih =>
    cases hrest with
    | nil => simpa [join, List.intercalate] using hst
    | cons _ _ =>
      simp only [join_cons_cons, shape_append, hst]
      simp only [shape, List.map_cons] at ih ⊢
      rw [ih]

theorem twins_left {P : Sql → Prop} {ss ts : List Sql} (h : List.Forall₂ (Twins P) ss ts) :
    ∀ s ∈ ss, P s := by
  induction h with
  | nil => simp
  | cons hst _ ih => exact List.forall_mem_cons.mpr ⟨hst.left, ih⟩

theorem twins_right {P : Sql → Prop} {ss ts : List Sql} (h : List.Forall₂ (Twins P) ss ts) :
    ∀ t ∈ ts, P t := by
  induction h with
  | nil => simp
  | cons hst _ ih => exact List.forall_mem_cons.mpr ⟨hst.right, ih⟩

/-- Twins put together with the same words between them are twins. -/
theorem Twins.join {P Q : Sql → Prop} {sep : String} {ss ts : List Sql}
    (h : List.Forall₂ (Twins P) ss ts)
    (hPQ : ∀ rows : List Sql, rows.length = ss.length → (∀ s ∈ rows, P s) → Q (Sql.join sep rows)) :
    Twins Q (Sql.join sep ss) (Sql.join sep ts) :=
  ⟨hPQ ss rfl (twins_left h), hPQ ts h.length_eq.symm (twins_right h),
    shape_join sep (h.imp fun _ _ hst => hst.shape)⟩

variable {e : Engine} {a : Bool}

/-- Units with commas between them are one unit. -/
theorem Twins.commas {ss ts : List Sql} (h : List.Forall₂ (Twins (IsUnit (e.lexisWith a))) ss ts)
    (hne : ss ≠ []) : Twins (IsUnit (e.lexisWith a)) (Sql.join ", " ss) (Sql.join ", " ts) := by
  refine .join h fun rows hlength hrows => ?_
  have hrows' : rows ≠ [] := by
    rintro rfl
    exact hne (List.length_eq_zero_iff.mp hlength.symm)
  exact .join (walkCode_comma e a) hrows' hrows

theorem Twins.grouped {s t : Sql} (h : Twins (IsBalanced (e.lexisWith a) b) s t) :
    Twins (IsUnit (e.lexisWith a)) ("(" ++ s ++ ")") ("(" ++ t ++ ")") :=
  ⟨h.left.grouped, h.right.grouped, by simp only [shape_append, h.shape]⟩

theorem erased_literal {p : Piece} {t : Text} (hp : p.IsValid x) (h : p = .literal t) :
    (p.tokens x).map Token.erased = [.literal []] := by
  subst h
  obtain ⟨u, hu⟩ := hp
  simp [Piece.tokens, Piece.text, hu, Token.erased]

theorem erased_identifier {p : Piece} {t : Text} (hp : p.IsValid x) (h : p = .identifier t) :
    (p.tokens x).map Token.erased = [.name []] := by
  subst h
  obtain ⟨u, hu⟩ := hp
  simp [Piece.tokens, Piece.text, hu, Token.erased]

/-- Twins are the same tokens, apart from what literals and names hold. -/
theorem Twins.erased {s t : Sql} (h : Twins (IsBalanced x b) s t) :
    (s.tokens x).map Token.erased = (t.tokens x).map Token.erased := by
  obtain ⟨⟨hs, -⟩, ⟨ht, -⟩, hshape⟩ := h
  induction s generalizing t with
  | nil =>
    obtain rfl : t = [] := by simpa [Sql.shape] using hshape.symm
    rfl
  | cons p s ih =>
    obtain ⟨q, t, rfl⟩ : ∃ q u, t = q :: u := by
      cases t with
      | nil => simp [Sql.shape] at hshape
      | cons q t => exact ⟨q, t, rfl⟩
    obtain ⟨hp, hs⟩ := List.forall_mem_cons.mp hs
    obtain ⟨hq, ht⟩ := List.forall_mem_cons.mp ht
    obtain ⟨hpq, hst⟩ : p.shape = q.shape ∧ Sql.shape s = Sql.shape t := by
      simpa [Sql.shape] using hshape
    have htokens : (p.tokens x).map Token.erased = (q.tokens x).map Token.erased := by
      cases p with
      | code u => cases q <;> simp_all [Piece.shape]
      | literal u =>
        cases q with
        | literal v => rw [erased_literal hp rfl, erased_literal hq rfl]
        | _ => simp [Piece.shape] at hpq
      | identifier u =>
        cases q with
        | identifier v => rw [erased_identifier hp rfl, erased_identifier hq rfl]
        | _ => simp [Piece.shape] at hpq
      | number u => cases q <;> simp_all [Piece.shape]
    rw [tokens_cons, tokens_cons, List.map_append, List.map_append, htokens, ih hst hs ht]

end Sql

end DocStore
