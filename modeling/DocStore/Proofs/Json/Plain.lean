import DocStore.Proofs.Json.Quoted
import DocStore.Proofs.Number.Numeral

/-!
What JSON text is made of. No control character stands in it, whatever the
value, and a text in ASCII has nothing else in it; so the text under which a
value is stored can always be written in UTF-8.
-/

namespace DocStore.Json

/-- A character that JSON text may hold, in ASCII or not. -/
def IsPlain (asciiOnly : Bool) (c : CodePoint) : Prop :=
  0x20 ≤ c.val ∧ (asciiOnly = true → c.val < 0x7f)

/-- A text of such characters. -/
def AllPlain (asciiOnly : Bool) (t : Text) : Prop := ∀ c ∈ t, IsPlain asciiOnly c

variable {asciiOnly : Bool}

namespace AllPlain

theorem nil : AllPlain asciiOnly [] := by
  intro c hc
  cases hc

theorem append {s t : Text} (hs : AllPlain asciiOnly s) (ht : AllPlain asciiOnly t) :
    AllPlain asciiOnly (s ++ t) := fun c hc => (List.mem_append.mp hc).elim (hs c) (ht c)

theorem flatMap {t : Text} {f : CodePoint → Text} (h : ∀ c ∈ t, AllPlain asciiOnly (f c)) :
    AllPlain asciiOnly (t.flatMap f) := by
  intro d hd
  obtain ⟨c, hc, hmem⟩ := List.mem_flatMap.mp hd
  exact h c hc d hmem

theorem ofChars {cs : List Char} (h : ∀ c ∈ cs, 0x20 ≤ c.toNat ∧ c.toNat < 0x7f) :
    AllPlain asciiOnly (cs.map CodePoint.ofChar) := by
  intro d hd
  obtain ⟨c, hc, rfl⟩ := List.mem_map.mp hd
  exact ⟨(h c hc).1, fun _ => (h c hc).2⟩

theorem ofString (s : String)
    (h : s.toList.all (fun c => 0x20 ≤ c.toNat && c.toNat < 0x7f) = true) :
    AllPlain asciiOnly (s : Text) := by
  refine ofChars fun c hc => ?_
  simpa using List.all_eq_true.mp h c hc

theorem join {separator : Text} {parts : List Text} (hseparator : AllPlain asciiOnly separator)
    (hparts : ∀ t ∈ parts, AllPlain asciiOnly t) : AllPlain asciiOnly (Text.join separator parts) := by
  induction parts with
  | nil => exact nil
  | cons t parts ih =>
    obtain ⟨ht, hparts⟩ := List.forall_mem_cons.mp hparts
    cases parts with
    | nil => simpa [Text.join, List.intercalate] using ht
    | cons u parts =>
      have heq : Text.join separator (t :: u :: parts) =
          t ++ (separator ++ Text.join separator (u :: parts)) := by
        simp [Text.join, List.intercalate]
      rw [heq]
      exact ht.append (hseparator.append (ih hparts))

theorem isEncodable {t : Text} (h : AllPlain true t) : t.isEncodable = true := by
  refine List.all_eq_true.mpr fun c hc => ?_
  have := (h c hc).2 rfl
  simp only [CodePoint.isSurrogate, Bool.not_eq_true', Bool.and_eq_false_iff,
    decide_eq_false_iff_not]
  omega

theorem numeral {cs : List Char} (h : IsNumeral cs) :
    AllPlain asciiOnly (cs.map CodePoint.ofChar) :=
  ofChars fun c hc => forall_numeralChars (P := fun c => 0x20 ≤ c.toNat ∧ c.toNat < 0x7f)
    (by decide) c (h.mem c hc)

theorem hex (width n : Nat) : AllPlain asciiOnly (Text.hex width n) := by
  induction width generalizing n with
  | zero => exact nil
  | succ width ih =>
    refine (ih _).append ?_
    intro c hc
    obtain rfl := List.mem_singleton.mp hc
    have hdigit : n % 16 < 16 := Nat.mod_lt _ (by omega)
    rw [IsPlain, Text.val_hexDigit hdigit]
    split <;> omega

theorem unitEscape (n : Nat) : AllPlain asciiOnly (unitEscape n) :=
  (ofString "\\u" (by decide)).append (hex 4 n)

end AllPlain

theorem simpleEscape?_isSome {e : CodePoint} (h : (simpleEscape? e).isSome = true) :
    IsPlain asciiOnly e := by
  have hrange (n : Nat) (hlow : 0x20 ≤ n) (hhigh : n < 0x7f) (heq : e.val = n) :
      IsPlain asciiOnly e := ⟨by omega, fun _ => by omega⟩
  revert h
  unfold simpleEscape?
  split
  next he =>
    rcases he with rfl | rfl | rfl <;> exact fun _ => hrange _ (by decide) (by decide) rfl
  next =>
    repeat' split
    case isFalse.isFalse.isFalse.isFalse.isFalse => intro h; cases h
    all_goals
      rename_i he
      subst he
      exact fun _ => hrange _ (by decide) (by decide) rfl

/-- What is written for a code point is plain. -/
theorem Escaped.allPlain {c : CodePoint} {t : Text} (h : Escaped asciiOnly c t) :
    AllPlain asciiOnly t := by
  cases h with
  | @letter e he h =>
    have hbackslash : IsPlain asciiOnly '\\' := ⟨by decide, fun _ => by decide⟩
    have hletter : IsPlain asciiOnly e := simpleEscape?_isSome (by rw [h]; rfl)
    exact List.forall_mem_cons.mpr ⟨hbackslash, List.forall_mem_singleton.mpr hletter⟩
  | plain hquote hbackslash hlow hhigh => exact List.forall_mem_singleton.mpr ⟨hlow, hhigh⟩
  | unit hlt h => exact .unitEscape _
  | pair hle h => exact (AllPlain.unitEscape _).append (.unitEscape _)

theorem allPlain_quote (t : Text) : AllPlain asciiOnly (quote asciiOnly t) := by
  have hmark : AllPlain asciiOnly ("\"" : Text) := .ofString "\"" (by decide)
  exact (hmark.append (.flatMap fun c _ => (escaped asciiOnly c).allPlain)).append hmark

theorem allPlain_float (x : Binary64) : AllPlain asciiOnly (x.text "Infinity" "NaN") := by
  cases x with
  | finite b m e h =>
    obtain ⟨cs, hcs, heq⟩ := Number.isNumeral_display (.float (.finite b m e h))
    have htext : Binary64.text "Infinity" "NaN" (.finite b m e h) = cs.map CodePoint.ofChar := heq
    rw [htext]
    exact .numeral hcs
  | infinite b =>
    cases b with
    | false => exact .ofString "Infinity" (by decide)
    | true => exact .ofString "-Infinity" (by decide)
  | nan => exact .ofString "NaN" (by decide)

/-- A style with nothing else between the parts of a value. -/
structure Style.IsPlain (s : Style) : Prop where
  itemSeparator : AllPlain s.asciiOnly s.itemSeparator
  keySeparator : AllPlain s.asciiOnly s.keySeparator

theorem Style.IsPlain.compact (asciiOnly : Bool) : (compact asciiOnly).IsPlain where
  itemSeparator := .ofString "," (by decide)
  keySeparator := .ofString ":" (by decide)

theorem Style.IsPlain.spaced : spaced.IsPlain where
  itemSeparator := .ofString ", " (by decide)
  keySeparator := .ofString ": " (by decide)

/-- Parts in brackets, with separators between them. -/
theorem allPlain_row {opening closing : CodePoint} {separator : Text} {parts : List Text}
    (hopening : 0x20 ≤ opening.val ∧ opening.val < 0x7f)
    (hclosing : 0x20 ≤ closing.val ∧ closing.val < 0x7f) (hseparator : AllPlain asciiOnly separator)
    (hparts : ∀ t ∈ parts, AllPlain asciiOnly t) :
    AllPlain asciiOnly ([opening] ++ Text.join separator parts ++ [closing]) := by
  have hmark {c : CodePoint} (h : 0x20 ≤ c.val ∧ c.val < 0x7f) : AllPlain asciiOnly [c] :=
    List.forall_mem_singleton.mpr ⟨h.1, fun _ => h.2⟩
  exact ((hmark hopening).append (.join hseparator hparts)).append (hmark hclosing)

variable {s : Style}

/-- What stands for a value that JSON does not have is quoted like a text. -/
theorem allPlain_substitute {v : Value} {t : Text}
    (h : (s.substitute v).map (quote s.asciiOnly) = some t) : AllPlain s.asciiOnly t := by
  obtain ⟨u, -, rfl⟩ := Option.map_eq_some_iff.mp h
  exact allPlain_quote u

mutual

/-- JSON text is plain. -/
theorem write_allPlain (hs : s.IsPlain) (v : Value) (t : Text) (h : write s v = some t) :
    AllPlain s.asciiOnly t := by
  match v with
  | .null => cases h; exact .ofString "null" (by decide)
  | .bool true => cases h; exact .ofString "true" (by decide)
  | .bool false => cases h; exact .ofString "false" (by decide)
  | .int n =>
    cases h
    obtain ⟨cs, hcs, heq⟩ := isNumeral_ofInt n
    rw [heq]
    exact .numeral hcs
  | .float x =>
    cases h
    exact allPlain_float x
  | .str u =>
    cases h
    exact allPlain_quote u
  | .list vs =>
    rw [write] at h
    obtain ⟨ts, hts, ⟨⟩⟩ := Option.bind_eq_some_iff.mp h
    exact allPlain_row (by decide) (by decide) hs.itemSeparator (writeItems_allPlain hs vs ts hts)
  | .tuple vs =>
    rw [write] at h
    obtain ⟨ts, hts, ⟨⟩⟩ := Option.bind_eq_some_iff.mp h
    exact allPlain_row (by decide) (by decide) hs.itemSeparator (writeItems_allPlain hs vs ts hts)
  | .object ms =>
    rw [write] at h
    obtain ⟨ts, hts, ⟨⟩⟩ := Option.bind_eq_some_iff.mp h
    exact allPlain_row (by decide) (by decide) hs.itemSeparator (writeMembers_allPlain hs ms ts hts)
  | .bytes octets => exact allPlain_substitute h
  | .pattern source => exact allPlain_substitute h
  | .test u => exact allPlain_substitute h

theorem writeItems_allPlain (hs : s.IsPlain) (vs : List Value) (ts : List Text)
    (h : writeItems s vs = some ts) : ∀ t ∈ ts, AllPlain s.asciiOnly t := by
  match vs with
  | [] =>
    cases h
    simp
  | v :: vs =>
    rw [writeItems] at h
    obtain ⟨t, ht, h⟩ := Option.bind_eq_some_iff.mp h
    obtain ⟨ts, hts, ⟨⟩⟩ := Option.bind_eq_some_iff.mp h
    exact List.forall_mem_cons.mpr ⟨write_allPlain hs v t ht, writeItems_allPlain hs vs ts hts⟩

theorem writeMembers_allPlain (hs : s.IsPlain) (ms : Members) (ts : List Text)
    (h : writeMembers s ms = some ts) : ∀ t ∈ ts, AllPlain s.asciiOnly t := by
  match ms with
  | [] =>
    cases h
    simp
  | (key, v) :: ms =>
    rw [writeMembers] at h
    obtain ⟨t, ht, h⟩ := Option.bind_eq_some_iff.mp h
    obtain ⟨ts, hts, ⟨⟩⟩ := Option.bind_eq_some_iff.mp h
    refine List.forall_mem_cons.mpr ⟨?_, writeMembers_allPlain hs ms ts hts⟩
    exact ((allPlain_quote key).append hs.keySeparator).append (write_allPlain hs v t ht)

end

/-- Whatever is stored can be sent: its text has a UTF-8 form, and no control character. -/
theorem encode_isEncodable {v : Value} {t : Text} (h : encode v = some t) :
    t.isEncodable = true ∧ ∀ c ∈ t, 0x20 ≤ c.val := by
  unfold encode at h
  cases hwrite : write (compact false) v with
  | none =>
    rw [hwrite] at h
    cases h
  | some raw =>
    rw [hwrite] at h
    dsimp only at h
    by_cases hencodable : raw.isEncodable = true
    · rw [if_pos hencodable] at h
      cases h
      exact ⟨hencodable, fun c hc =>
        (write_allPlain (.compact false) v _ hwrite c hc).1⟩
    · rw [if_neg hencodable] at h
      have hplain := write_allPlain (.compact true) v t h
      exact ⟨hplain.isEncodable, fun c hc => (hplain c hc).1⟩

end DocStore.Json
