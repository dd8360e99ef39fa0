import DocStore.Proofs.Journal.Kept

/-!
Contexts as a monoid that acts on loggers. To merge contexts is associative,
the order of the tags included, where the tags are those of a mapping; a context
that is absent changes nothing. So the context of a record is the merge, from
left to right, of the context its logger began with and of all that came after
it, whichever of them were given to the loggers on the way and whichever to the
last call.
-/

namespace DocStore

namespace LogContext

/-- The keys of tags. -/
def keys (tags : List (Text × Text)) : List Text := tags.map Prod.fst

/-- Whether the tags of a context are those of a mapping: no two have the same key. -/
def IsProper (c : LogContext) : Prop := (keys c.tags).Nodup

instance (c : LogContext) : Decidable c.IsProper :=
  inferInstanceAs (Decidable (keys c.tags).Nodup)

/-! ### Tags that are set -/

variable {tags more ts : List (Text × Text)} {tag t u : Text × Text}

theorem keys_setTag (ts : List (Text × Text)) (t : Text × Text) : keys (setTag ts t) =
    if t.1 ∈ keys ts then keys ts else keys ts ++ [t.1] := by
  induction ts with
  | nil => rfl
  | cons head ts ih =>
    rw [setTag]
    by_cases hkey : head.1 = t.1
    · have hthere : t.1 ∈ keys (head :: ts) := List.mem_cons.mpr (.inl hkey.symm)
      rw [if_pos hkey, if_pos hthere]
      exact congrArg (· :: keys ts) hkey.symm
    · rw [if_neg hkey]
      have hmem : t.1 ∈ keys (head :: ts) ↔ t.1 ∈ keys ts :=
        List.mem_cons.trans (or_iff_right (Ne.symm hkey))
      refine (congrArg (head.1 :: ·) ih).trans ?_
      by_cases hthere : t.1 ∈ keys ts
      · rw [if_pos hthere, if_pos (hmem.mpr hthere)]
        rfl
      · rw [if_neg hthere, if_neg (mt hmem.mp hthere)]
        rfl

theorem nodup_keys_setTag (h : (keys ts).Nodup) (t : Text × Text) : (keys (setTag ts t)).Nodup := by
  rw [keys_setTag]
  by_cases hthere : t.1 ∈ keys ts
  · rwa [if_pos hthere]
  · rw [if_neg hthere]
    exact List.nodup_append.mpr ⟨h, List.pairwise_singleton _ _, fun k hk _ hlast heq =>
      hthere (List.mem_singleton.mp hlast ▸ heq ▸ hk)⟩

/-- A tag that is there stays there. -/
theorem mem_keys_setTag (h : u.1 ∈ keys ts) (t : Text × Text) : u.1 ∈ keys (setTag ts t) := by
  rw [keys_setTag]
  by_cases hthere : t.1 ∈ keys ts
  · rwa [if_pos hthere]
  · rw [if_neg hthere]
    exact List.mem_append_left _ h

theorem mem_keys_setTag_self (ts : List (Text × Text)) (t : Text × Text) :
    t.1 ∈ keys (setTag ts t) := by
  rw [keys_setTag]
  by_cases hthere : t.1 ∈ keys ts
  · rwa [if_pos hthere]
  · rw [if_neg hthere]
    exact List.mem_append_right _ (List.mem_singleton_self _)

/-- Of two tags with one key the second stays, in the place of the first. -/
theorem setTag_setTag_of_eq (h : t.1 = u.1) (ts : List (Text × Text)) :
    setTag (setTag ts t) u = setTag ts u := by
  induction ts with
  | nil => exact if_pos h
  | cons head ts ih =>
    rw [setTag, setTag]
    by_cases hkey : head.1 = t.1
    · rw [if_pos hkey, if_pos (hkey.trans h)]
      exact if_pos h
    · rw [if_neg hkey, if_neg (h ▸ hkey), setTag, if_neg (h ▸ hkey), ih]

/-- Tags with different keys can be set in either order, where the place of one is fixed. -/
theorem setTag_comm (h : t.1 ≠ u.1) (hthere : u.1 ∈ keys ts) :
    setTag (setTag ts t) u = setTag (setTag ts u) t := by
  induction ts with
  | nil => exact absurd hthere List.not_mem_nil
  | cons head ts ih =>
    by_cases ht : head.1 = t.1
    · have hu : head.1 ≠ u.1 := ht ▸ h
      rw [setTag, if_pos ht, setTag, if_neg h, setTag, if_neg hu, setTag, if_pos ht]
    · by_cases hu : head.1 = u.1
      · rw [setTag, if_neg ht, setTag, if_pos hu, setTag, if_pos hu, setTag, if_neg h.symm]
      · have hrest : u.1 ∈ keys ts := (List.mem_cons.mp hthere).resolve_left (Ne.symm hu)
        rw [setTag, if_neg ht, setTag, if_neg hu, setTag, if_neg hu, setTag, if_neg ht, ih hrest]

/-- A tag can be set before others that have other keys, where its place is fixed. -/
theorem setTag_foldl (hother : t.1 ∉ keys more) (hthere : t.1 ∈ keys tags) :
    setTag (more.foldl setTag tags) t = more.foldl setTag (setTag tags t) := by
  induction more generalizing tags with
  | nil => rfl
  | cons u more ih =>
    have hu : u.1 ≠ t.1 := fun heq => hother (List.mem_cons.mpr (.inl heq.symm))
    have hmore : t.1 ∉ keys more := mt (List.mem_cons_of_mem _) hother
    rw [List.foldl_cons, List.foldl_cons, ih hmore (mem_keys_setTag hthere u),
      setTag_comm hu hthere]

/-- To set tags of which one was set last is to set that one last. -/
theorem foldl_setTag (h : (keys more).Nodup) (tags : List (Text × Text)) (t : Text × Text) :
    (setTag more t).foldl setTag tags = setTag (more.foldl setTag tags) t := by
  induction more generalizing tags with
  | nil => rfl
  | cons u more ih =>
    obtain ⟨hother, hmore⟩ := List.nodup_cons.mp h
    rw [setTag]
    by_cases hkey : u.1 = t.1
    · -- the tag takes the place of `u`, which is then set before the tags that follow it
      have hthere : t.1 ∈ keys (setTag tags u) := hkey ▸ mem_keys_setTag_self tags u
      rw [if_pos hkey, List.foldl_cons, List.foldl_cons, setTag_foldl (hkey ▸ hother) hthere,
        setTag_setTag_of_eq hkey]
    · rw [if_neg hkey, List.foldl_cons, List.foldl_cons, ih hmore]

theorem nodup_keys_foldl (h : (keys tags).Nodup) (more : List (Text × Text)) :
    (keys (more.foldl setTag tags)).Nodup := by
  induction more generalizing tags with
  | nil => exact h
  | cons t more ih => exact ih (nodup_keys_setTag h t)

/-- To set tags on others is associative. -/
theorem foldl_foldl_setTag (h : (keys more).Nodup) (tags last : List (Text × Text)) :
    (last.foldl setTag more).foldl setTag tags = last.foldl setTag (more.foldl setTag tags) := by
  induction last generalizing more with
  | nil => rfl
  | cons t last ih =>
    rw [List.foldl_cons, List.foldl_cons, ih (nodup_keys_setTag h t), foldl_setTag h]

/-! ### Contexts that are merged -/

variable {a b c : LogContext} {x y z : Option LogContext} {cs ds : List (Option LogContext)}

theorem IsProper.merge (h : a.IsProper) (b : LogContext) : (a.merge b).IsProper :=
  nodup_keys_foldl h b.tags

theorem merge_merge (h : b.IsProper) (a c : LogContext) :
    (a.merge b).merge c = a.merge (b.merge c) := by
  have htags : c.tags.foldl setTag (b.tags.foldl setTag a.tags) =
      (c.tags.foldl setTag b.tags).foldl setTag a.tags :=
    (foldl_foldl_setTag h a.tags c.tags).symm
  rw [merge, merge, merge, merge, htags, Option.or_assoc, Option.or_assoc]

theorem merge?_none (x : Option LogContext) : merge? x none = x := by
  cases x <;> rfl

theorem merge?_merge? (h : ∀ b ∈ y, b.IsProper) (x z : Option LogContext) :
    merge? (merge? x y) z = merge? x (merge? y z) := by
  rcases x with _ | a
  · rfl
  rcases y with _ | b
  · rfl
  rcases z with _ | c
  · rfl
  exact congrArg some (merge_merge (h b rfl) a c)

theorem isProper_merge? (hx : ∀ a ∈ x, a.IsProper) (hy : ∀ b ∈ y, b.IsProper) :
    ∀ c ∈ merge? x y, c.IsProper := by
  rcases x with _ | a
  · exact hy
  rcases y with _ | b
  · exact hx
  rintro c ⟨⟩
  exact (hx a rfl).merge b

/-- The merge of contexts from left to right, over a context at their base. -/
def mergeAll (base : Option LogContext) (cs : List (Option LogContext)) : Option LogContext :=
  cs.foldl merge? base

/-- Contexts can be merged first and then put over what is at their base. -/
theorem merge?_mergeAll (hx : ∀ a ∈ x, a.IsProper) (hcs : ∀ a, some a ∈ cs → a.IsProper)
    (base : Option LogContext) : merge? base (mergeAll x cs) = mergeAll (merge? base x) cs := by
  induction cs generalizing x with
  | nil => rfl
  | cons y cs ih =>
    have hy : ∀ b ∈ y, b.IsProper := fun b hb => hcs b (List.mem_cons.mpr (.inl hb.symm))
    refine (ih (isProper_merge? hx hy) fun a ha => hcs a (List.mem_cons_of_mem _ ha)).trans ?_
    rw [← merge?_merge? hx base y]
    rfl

theorem merge?_mergeAll_none (hcs : ∀ a, some a ∈ cs → a.IsProper) (base : Option LogContext) :
    merge? base (mergeAll none cs) = mergeAll base cs := by
  have hnone : ∀ a ∈ (none : Option LogContext), a.IsProper := by
    rintro a ⟨⟩
  rw [merge?_mergeAll hnone hcs, merge?_none]

end LogContext

namespace Logger

open LogContext

/-- The logger after a context was given that may be absent. -/
def within? (l : Logger) (context : Option LogContext) : Logger := context.elim l l.within

/-- The logger after contexts were given one after the other, each of them the merge of a group. -/
def withinAll (l : Logger) (groups : List (List (Option LogContext))) : Logger :=
  groups.foldl (fun l group => l.within? (mergeAll none group)) l

theorem within?_eq (l : Logger) (context : Option LogContext) :
    l.within? context = { l with context := merge? l.context context } := by
  cases context with
  | none => rw [merge?_none]; rfl
  | some c => rfl

/-- The contexts of the groups are over that of the logger, and nothing else is different. -/
theorem withinAll_eq {groups : List (List (Option LogContext))}
    (h : ∀ c, some c ∈ groups.flatten → c.IsProper) (l : Logger) :
    l.withinAll groups = { l with context := mergeAll l.context groups.flatten } := by
  induction groups generalizing l with
  | nil => rfl
  | cons group groups ih =>
    have hgroup : ∀ c, some c ∈ group → c.IsProper := fun c hc =>
      h c (List.mem_flatten.mpr ⟨group, List.mem_cons_self, hc⟩)
    have hgroups : ∀ c, some c ∈ groups.flatten → c.IsProper := fun c hc =>
      h c (List.mem_append_right group hc)
    have hall : mergeAll (mergeAll l.context group) groups.flatten =
        mergeAll l.context (group :: groups).flatten := List.foldl_append.symm
    have hone : l.within? (mergeAll none group) =
        { l with context := mergeAll l.context group } := by
      rw [within?_eq, merge?_mergeAll_none hgroup]
    rw [withinAll, List.foldl_cons, hone]
    refine (ih hgroups _).trans ?_
    rw [← hall]

/-- To merge contexts is associative, an absent one being the unit. And however a row of contexts is
split into groups, each merged and given to the logger that the ones before it led to, with the last
group given to the call itself, a message that is accepted is recorded with the merge of the context
that the first logger had and of the whole row. -/
theorem log_mergeAll {groups : List (List (Option LogContext))} {last : List (Option LogContext)}
    (h : ∀ c, some c ∈ groups.flatten ++ last → c.IsProper) :
    (∀ a b c : LogContext, b.IsProper → (a.merge b).merge c = a.merge (b.merge c)) ∧
    (∀ x y z : Option LogContext, (∀ b ∈ y, b.IsProper) →
      merge? (merge? x y) z = merge? x (merge? y z)) ∧
    (∀ x, merge? none x = x ∧ merge? x none = x) ∧
    ∀ (l : Logger) (level : Level) (message : Text) (metadata : Members) (j : Journal),
      (l.withinAll groups).log level message (mergeAll none last) metadata j =
        if l.accepts level then
          l.write ⟨level, message, l.name, mergeAll l.context (groups.flatten ++ last), metadata⟩ j
        else j := by
  refine ⟨fun a b c hb => merge_merge hb a c, fun x y z hy => merge?_merge? hy x z,
    fun x => ⟨rfl, merge?_none x⟩, fun l level message metadata j => ?_⟩
  have hgroups : ∀ c, some c ∈ groups.flatten → c.IsProper :=
    fun c hc => h c (List.mem_append_left last hc)
  have hlast : ∀ c, some c ∈ last → c.IsProper := fun c hc => h c (List.mem_append_right _ hc)
  have hcontext : merge? (mergeAll l.context groups.flatten) (mergeAll none last) =
      mergeAll l.context (groups.flatten ++ last) :=
    (merge?_mergeAll_none hlast _).trans List.foldl_append.symm
  rw [withinAll_eq hgroups, log, hcontext]
  rfl

/-- What two tags are about. -/
def tagged : LogContext := { dialect := some "sqlite", tags := [("a", "1"), ("b", "2")] }

/-- A tag that is new and another text for one that is there. -/
def retagged : LogContext := { tags := [("c", "3"), ("a", "4")] }

/-- A tag keeps its place when a later context gives it another text. -/
theorem log_mergeAll_retagged :
    (∀ c, some c ∈ [[some tagged, none], [none]].flatten ++ [some retagged] → c.IsProper) ∧
    (((⟨"store", some { collection := some "c" }, .debug, false⟩ : Logger).withinAll
      [[some tagged, none], [none]]).log .info "kept" (mergeAll none [some retagged]) [] {}).records =
        [⟨.info, "kept", "store",
          some ⟨some "sqlite", some "c", [("a", "4"), ("b", "2"), ("c", "3")]⟩, []⟩] := by
  have hproper : ∀ c, some c ∈ [[some tagged, none], [none]].flatten ++ [some retagged] →
      c.IsProper := by
    have heach : ∀ c ∈ [tagged, retagged], c.IsProper := by decide
    intro c hc
    exact heach c (by simpa using hc)
  refine ⟨hproper, ?_⟩
  rw [(log_mergeAll hproper).2.2.2]
  rfl

end Logger

end DocStore
