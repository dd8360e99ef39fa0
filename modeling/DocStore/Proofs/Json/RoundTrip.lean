import DocStore.Proofs.Json.Float
import DocStore.Proofs.Json.Plain

/-!
Storing values and reading them again. Every value that JSON has is written, and
what is written is read as `rereadValue` says; a value comes back unchanged
unless two halves of a surrogate pair stand next to each other in it.
-/

namespace DocStore.Json

variable (asciiOnly : Bool)

theorem writeItems_reads {vs : List Value}
    (h : ∀ v ∈ vs, ∃ t, write (compact asciiOnly) v = some t ∧ Reads t (rereadValue asciiOnly v)) :
    ∃ ts, writeItems (compact asciiOnly) vs = some ts ∧
      List.Forall₂ Reads ts (rereadItems asciiOnly vs) := by
  induction vs with
  | nil => exact ⟨[], rfl, .nil⟩
  | cons v vs ih =>
    obtain ⟨hv, hvs⟩ := List.forall_mem_cons.mp h
    obtain ⟨t, ht, hread⟩ := hv
    obtain ⟨ts, hts, hreads⟩ := ih hvs
    exact ⟨t :: ts, by rw [writeItems, ht, hts]; rfl, .cons hread hreads⟩

theorem writeMembers_reads {ms : Members}
    (h : ∀ m ∈ ms, ∃ t, write (compact asciiOnly) m.2 = some t ∧
      Reads t (rereadValue asciiOnly m.2)) :
    ∃ ts, writeMembers (compact asciiOnly) ms = some ts ∧
      List.Forall₂ ReadsMember ts (rereadMembers asciiOnly ms) := by
  induction ms with
  | nil => exact ⟨[], rfl, .nil⟩
  | cons m ms ih =>
    obtain ⟨key, v⟩ := m
    obtain ⟨hm, hms⟩ := List.forall_mem_cons.mp h
    obtain ⟨t, ht, hread⟩ := hm
    obtain ⟨ts, hts, hreads⟩ := ih hms
    refine ⟨_ :: ts, by rw [writeMembers, ht, hts]; rfl, .cons ?_ hreads⟩
    exact ⟨asciiOnly, key, t, List.append_assoc .., rfl, hread⟩

/-- Whatever JSON has is written, and read as what reading makes of it. -/
theorem write_reads {v : Value} (hv : v.IsJson) :
    ∃ t, write (compact asciiOnly) v = some t ∧ Reads t (rereadValue asciiOnly v) := by
  induction hv with
  | null => exact ⟨_, rfl, .word (by simp [words, rereadValue])⟩
  | bool b =>
    cases b with
    | true => exact ⟨_, rfl, .word (by simp [words, rereadValue])⟩
    | false => exact ⟨_, rfl, .word (by simp [words, rereadValue])⟩
  | int h => exact ⟨_, rfl, .int h⟩
  | float h => exact ⟨_, rfl, .float h⟩
  | str t => exact ⟨_, rfl, .str asciiOnly t⟩
  | list h ih =>
    obtain ⟨ts, hts, hreads⟩ := writeItems_reads asciiOnly ih
    exact ⟨_, by rw [write, hts]; rfl, .list hreads⟩
  | object h hkeys ih =>
    obtain ⟨ts, hts, hreads⟩ := writeMembers_reads asciiOnly ih
    exact ⟨_, by rw [write, hts]; rfl, .object hreads⟩

theorem decode_of_reads {t : Text} {v : Value} (h : Reads t v) : decode t = .ok v := by
  have hskip := h.skipSpace_eq []
  have hvalue := h.value (2 * t.length + 2) [] (by omega) (fun _ hc => nomatch hc)
  rw [List.append_nil] at hskip hvalue
  rw [decode, hskip, hvalue]
  rfl

/-! ### Texts without a surrogate -/

theorem Escaped.not_isSurrogate {c : CodePoint} {t : Text} (h : Escaped false c t)
    (ht : t.isEncodable = true) : c.isSurrogate = false := by
  have hlow (hlt : c.val < 0x80) : c.isSurrogate = false := by
    simp only [CodePoint.isSurrogate, Bool.and_eq_false_iff, decide_eq_false_iff_not]
    omega
  cases h with
  | letter he h => exact hlow (simpleEscape?_lt h)
  | plain hquote hbackslash hlow hhigh => simpa using ht
  | unit hlt h =>
    refine hlow ?_
    rcases h with h | h
    · omega
    · cases h
  | pair hle h => cases h

/-- A text that is not written in ASCII has no surrogate when what is written has none. -/
theorem isEncodable_of_quote {t : Text} (h : (quote false t).isEncodable = true) :
    t.isEncodable = true := by
  simp only [quote, Text.isEncodable_append, Bool.and_eq_true] at h
  refine List.all_eq_true.mpr fun c hc => ?_
  have hc : (escape false c).isEncodable = true := by
    refine List.all_eq_true.mpr fun d hd => ?_
    exact List.all_eq_true.mp h.1.2 d (List.mem_flatMap.mpr ⟨c, hc, hd⟩)
  rw [(escaped false c).not_isSurrogate hc]
  rfl

theorem isEncodable_join {parts : List Text} (h : (Text.join "," parts).isEncodable = true) :
    ∀ t ∈ parts, t.isEncodable = true := by
  induction parts with
  | nil => simp
  | cons t parts ih =>
    cases parts with
    | nil =>
      rw [join_singleton] at h
      exact List.forall_mem_singleton.mpr h
    | cons u parts =>
      simp only [join_cons_cons, Text.isEncodable_append, Text.isEncodable_cons,
        Bool.and_eq_true] at h
      exact List.forall_mem_cons.mpr ⟨h.1, ih h.2.2⟩

theorem isEncodable_enclosed {opening closing : CodePoint} {parts : List Text}
    (h : Text.isEncodable ([opening] ++ Text.join "," parts ++ [closing]) = true) :
    ∀ t ∈ parts, t.isEncodable = true := by
  simp only [Text.isEncodable_append, Bool.and_eq_true] at h
  exact isEncodable_join h.1.2

theorem exists_write_of_mem {style : Style} {vs : List Value} {ts : List Text}
    (h : writeItems style vs = some ts) {v : Value} (hv : v ∈ vs) :
    ∃ t ∈ ts, write style v = some t := by
  induction vs generalizing ts with
  | nil => cases hv
  | cons w vs ih =>
    rw [writeItems] at h
    obtain ⟨t, ht, h⟩ := Option.bind_eq_some_iff.mp h
    obtain ⟨ts, hts, ⟨⟩⟩ := Option.bind_eq_some_iff.mp h
    rcases List.mem_cons.mp hv with rfl | hv
    · exact ⟨t, List.mem_cons_self .., ht⟩
    · obtain ⟨u, hu, hwrite⟩ := ih hts hv
      exact ⟨u, List.mem_cons_of_mem _ hu, hwrite⟩

theorem exists_writeMember_of_mem {style : Style} {ms : Members} {ts : List Text}
    (h : writeMembers style ms = some ts) {m : Text × Value} (hm : m ∈ ms) :
    ∃ t, write style m.2 = some t ∧ quote style.asciiOnly m.1 ++ style.keySeparator ++ t ∈ ts := by
  induction ms generalizing ts with
  | nil => cases hm
  | cons n ms ih =>
    obtain ⟨key, w⟩ := n
    rw [writeMembers] at h
    obtain ⟨t, ht, h⟩ := Option.bind_eq_some_iff.mp h
    obtain ⟨ts, hts, ⟨⟩⟩ := Option.bind_eq_some_iff.mp h
    rcases List.mem_cons.mp hm with rfl | hm
    · exact ⟨t, ht, List.mem_cons_self ..⟩
    · obtain ⟨u, hwrite, hu⟩ := ih hts hm
      exact ⟨u, hwrite, List.mem_cons_of_mem _ hu⟩

/-- In a value whose text, not in ASCII, has no surrogate, none of the texts has one. -/
theorem hasText_isEncodable {v : Value} {s : Text} (hs : v.HasText s) {t : Text}
    (ht : write (compact false) v = some t) (h : t.isEncodable = true) : s.isEncodable = true := by
  induction hs generalizing t with
  | str =>
    cases ht
    exact isEncodable_of_quote h
  | @item v vs hmem _ ih =>
    rw [write] at ht
    obtain ⟨ts, hts, ⟨⟩⟩ := Option.bind_eq_some_iff.mp ht
    obtain ⟨u, hu, hwrite⟩ := exists_write_of_mem hts hmem
    exact ih hwrite (isEncodable_enclosed h u hu)
  | @key m ms hmem heq =>
    rw [write] at ht
    obtain ⟨ts, hts, ⟨⟩⟩ := Option.bind_eq_some_iff.mp ht
    obtain ⟨u, -, hu⟩ := exists_writeMember_of_mem hts hmem
    have hmember := isEncodable_enclosed h _ hu
    simp only [Text.isEncodable_append, Bool.and_eq_true] at hmember
    rw [← heq]
    exact isEncodable_of_quote hmember.1.1
  | @member m ms hmem _ ih =>
    rw [write] at ht
    obtain ⟨ts, hts, ⟨⟩⟩ := Option.bind_eq_some_iff.mp ht
    obtain ⟨u, hwrite, hu⟩ := exists_writeMember_of_mem hts hmem
    have hmember := isEncodable_enclosed h _ hu
    simp only [Text.isEncodable_append, Bool.and_eq_true] at hmember
    exact ih hwrite hmember.2

/-! ### The round trip -/

/-- A value that JSON has can be stored: its text can be sent, holds no control character, and is
read as the same value if and only if nowhere in the value a first half of a surrogate pair
stands right before a second half. -/
theorem decode_encode_iff {v : Value} (hv : v.IsJson) :
    ∃ t, encode v = some t ∧ (decode t = .ok v ↔ ∀ s, v.HasText s → ¬s.HasPair) ∧
      t.isEncodable = true ∧ ∀ c ∈ t, 0x20 ≤ c.val := by
  obtain ⟨raw, hraw, hreadsRaw⟩ := write_reads false hv
  by_cases hencodable : raw.isEncodable = true
  · have hencode : encode v = some raw := by
      rw [encode, hraw]
      exact if_pos hencodable
    refine ⟨raw, hencode, ?_, encode_isEncodable hencode⟩
    have hsame : rereadValue false v = v := (rereadValue_eq_self_iff false hv).mpr fun _ _ => rfl
    rw [hsame] at hreadsRaw
    refine iff_of_true (decode_of_reads hreadsRaw) fun s hs => ?_
    exact Text.not_hasPair_of_isEncodable (hasText_isEncodable hs hraw hencodable)
  · obtain ⟨t, ht, hreads⟩ := write_reads true hv
    have hencode : encode v = some t := by
      rw [encode, hraw]
      exact (if_neg hencodable).trans ht
    refine ⟨t, hencode, ?_, encode_isEncodable hencode⟩
    rw [decode_of_reads hreads, Except.ok.injEq, rereadValue_eq_self_iff true hv]
    exact forall₂_congr fun s _ => reread_eq_self_iff s

/-- A first half that stands alone beside a character above `0xffff`, and numbers of both kinds. -/
def loneHalf : Value :=
  .object [("text", .str [CodePoint.ofNat 0xd800, CodePoint.ofNat 0x10000]),
    ("numbers", .list [.int (-7), .float (.finite false (3 * 2 ^ 51) 1022 (by decide))])]

theorem decode_encode_iff_loneHalf :
    ∃ t, encode loneHalf = some t ∧
      (decode t = .ok loneHalf ↔ ∀ s, loneHalf.HasText s → ¬s.HasPair) ∧
      t.isEncodable = true ∧ ∀ c ∈ t, 0x20 ≤ c.val := by
  have hint : (-7 : Int).natAbs < 10 ^ digitLimit :=
    Nat.lt_of_lt_of_le (by decide) (Nat.le_self_pow (by decide) 10)
  apply decode_encode_iff
  refine .object ?_ (by decide)
  refine List.forall_mem_cons.mpr ⟨.str _, List.forall_mem_singleton.mpr (.list ?_)⟩
  exact List.forall_mem_cons.mpr ⟨.int hint, List.forall_mem_singleton.mpr (.float rfl)⟩

theorem encode_int (n : Int) : encode (.int n) = some (Text.ofInt n) := by
  have hplain : AllPlain true (Text.ofInt n) := write_allPlain (Style.IsPlain.compact true) (.int n) _ rfl
  exact if_pos hplain.isEncodable

theorem encode_float (x : Binary64) : encode (.float x) = some (x.text "Infinity" "NaN") := by
  have hplain : AllPlain true (x.text "Infinity" "NaN") := allPlain_float x
  exact if_pos hplain.isEncodable

/-- The text of an integer with too many digits is refused. -/
theorem decode_ofInt_of_le {n : Int} (h : 10 ^ digitLimit ≤ n.natAbs) :
    decode (Text.ofInt n) = .error .tooManyDigits := by
  obtain ⟨c, cs, hcs, hc, hnumber⟩ := exists_toDigits n.natAbs
  obtain ⟨d, u, heq, hspace, -⟩ := signedText_start (decide (n < 0)) hc cs
  have hvalue := value_signedText (decide (n < 0)) hc cs (2 * (Text.ofInt n).length + 1) []
  rw [hnumber _ [] (fun _ hc => nomatch hc), if_neg (Nat.not_lt.mpr h), ← hcs, ← ofInt_eq,
    List.append_nil] at hvalue
  rw [← hcs, ← ofInt_eq] at heq
  have hskip : skipSpace (Text.ofInt n) = Text.ofInt n := by
    rw [heq]
    exact skipSpace_of_not_isSpace hspace u
  rw [decode, hskip, hvalue]
  rfl

/-- The least integer with too many digits is not read again, though no text is in it. -/
theorem not_decode_encode_great :
    (∀ s, ¬(Value.int (10 ^ digitLimit)).HasText s) ∧
      ¬∃ t, encode (.int (10 ^ digitLimit)) = some t ∧ decode t = .ok (.int (10 ^ digitLimit)) := by
  refine ⟨(fun s hs => nomatch hs), ?_⟩
  rintro ⟨t, ht, hread⟩
  have hdecode := decode_ofInt_of_le (n := 10 ^ digitLimit) (by rw [Int.natAbs_pow]; rfl)
  rw [encode_int] at ht
  obtain rfl := Option.some.inj ht
  rw [hdecode] at hread
  cases hread

end DocStore.Json
