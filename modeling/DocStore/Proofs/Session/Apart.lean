import DocStore.Proofs.Session.Failures
import DocStore.Proofs.Store.Apart

/-!
Reading and sending apart over the life of a session. An iterator that gives
documents as they come leaves a cursor open between two requests; whatever else
is asked for is read up in the same turn, before anything more is sent. So are
the documents of an iterator that fills in relations: they are all read before
the first look-up is made for any of them.
-/

namespace DocStore

open Holder

namespace Session

variable {session session' session'' : Session} {source h : Nat}

/-- Relations are filled in the documents of a handle. -/
def Fills (session : Session) (source : Nat) : Prop :=
  ∃ r, session.handles[source]? = some (.related r) ∧ r.relations.isActive = true

/-- Relations are filled in the documents of a handle later on too, and the handles that are no documents
with relations stay as they are. -/
structure Lasts (source : Nat) (session session' : Session) : Prop where
  keeps : session.KeepsHandles session'
  fills : session'.Fills source

theorem Lasts.of_handles (hfills : session.Fills source) (h : session'.handles = session.handles) :
    session.Lasts source session' := by
  refine ⟨fun n x hx _ => h ▸ hx, ?_⟩
  obtain ⟨r, hr, hactive⟩ := hfills
  exact ⟨r, h ▸ hr, hactive⟩

theorem Lasts.trans (h : session.Lasts source session') (h' : session'.Lasts source session'') :
    session.Lasts source session'' :=
  ⟨fun n x hx hne => h'.keeps n x (h.keeps n x hx hne) hne, h'.fills⟩

theorem Lasts.congr (h : session.Lasts source session') (heq : session''.handles = session'.handles) :
    session.Lasts source session'' := h.trans (.of_handles h.fills heq)

/-- Documents with relations are put in the place of documents with relations. -/
theorem Lasts.put {r r' : RelatedDocuments} (hr : session.handles[source]? = some (.related r))
    (hactive : r'.relations.isActive = true) : session.Lasts source
      { session with handles := session.handles.set source (.related r') } := by
  refine ⟨fun n x hx hne => ?_, r', ?_, hactive⟩
  · have hother : source ≠ n := by
      rintro rfl
      cases hr.symm.trans hx
      exact hne r rfl
    exact (List.getElem?_set_ne hother).trans hx
  · obtain ⟨hlength, -⟩ := List.getElem?_eq_some_iff.mp hr
    exact List.getElem?_set_self hlength

/-- Whether relations are filled in does not depend on which iterators there are. -/
theorem Fills.set {i j : Iterator} (hfills : session.Fills source)
    (hx : session.handles[h]? = some (.iterator i)) :
    ({ session with handles := session.handles.set h (.iterator j) } : Session).Fills source := by
  obtain ⟨r, hr, hactive⟩ := hfills
  have hne : h ≠ source := by
    rintro rfl
    cases hr.symm.trans hx
  exact ⟨r, (List.getElem?_set_ne hne).trans hr, hactive⟩

theorem Fills.append (hfills : session.Fills source) (x : Handle) :
    ({ session with handles := session.handles ++ [x] } : Session).Fills source := by
  obtain ⟨r, hr, hactive⟩ := hfills
  obtain ⟨hlength, -⟩ := List.getElem?_eq_some_iff.mp hr
  exact ⟨r, (List.getElem?_append_left hlength).trans hr, hactive⟩

/-- What an iterator gives was all read before relations are filled in, or it is finished. -/
def Gathers (session : Session) (h : Nat) : Prop :=
  session.handles[h]? = some (.iterator .finished) ∨
    ∃ source reading, session.handles[h]? = some (.iterator (.related source reading)) ∧
      reading.documents? = none ∧ session.Fills source

end Session

namespace SessionAction

variable {α : Type} {session : Session} {source h : Nat}

theorem doesFrom_ofAction {a : Action α} {P : Except Fault α → List Event → Prop} (ha : Does P a) :
    DoesFrom (fun r session' es => P r es ∧ session'.handles = session.handles) (ofAction a) session := by
  obtain ⟨es, htrace, hP⟩ := ha.does session.store
  unfold DoesFrom
  rw [show Holding.outcome (ofAction a) session = _ from outcome_ofAction (a := a) rfl]
  exact ⟨es, htrace, hP, rfl⟩

theorem does_ofAction {a : Action α} {P : Except Fault α → List Event → Prop} (ha : Does P a) :
    Does P (ofAction a) := ⟨fun _ => (doesFrom_ofAction ha).mono fun _ _ _ h => h.1⟩

theorem apart_handle (h : Nat) : Apart (handle h) := by
  refine .get_bind fun session => ?_
  split
  · exact .pure _
  · exact .throw _

theorem apart_put (h : Nat) (x : Handle) : Apart (put h x) := .nothing fun _ => ⟨rfl, trivial⟩

theorem apart_handOut (x : Handle) : Apart (handOut x) := .nothing fun _ => ⟨rfl, trivial⟩

theorem apart_composes : Composes (fun _ a => Apart a) fun _ a => Apart a where
  verbs := Action.apart_composesVerbs
  pure := .pure
  throw {_ _} _ := .throw _
  bind := .bind
  ofAction := does_ofAction
  handle := apart_handle
  put h x _ := apart_put h x
  handOut {x} _ := apart_handOut x

/-! ### What is read in one turn -/

/-- Documents whose reading begins wait for it; what holds of the handles and of those in which its begin
was marked holds after it. -/
theorem doesFrom_begin {K : Session → Prop} (k : Cursor) {mark : Cursor → SessionAction Unit}
    (hK : K session) (hcongr : ∀ s s' : Session, s'.handles = s.handles → K s → K s')
    (hmark : ∀ k, DoesFrom (fun _ session' es => Serial es ∧ K session') (mark k) session) :
    DoesFrom (fun r session' es => Serial es ∧ K session' ∧ ∀ d, r = .ok d → d.reading = .waiting)
      (begin k mark) session := by
  unfold begin
  split
  · refine (doesFrom_ofAction (Action.apart_composes.collection _)).bind ?_ ?_
    · rintro x session' es ⟨hes, hhandles⟩
      refine .nothing (r := .error _) rfl rfl ⟨?_, hcongr _ _ hhandles hK, forall_of_error⟩
      rwa [List.append_nil]
    · rintro fault session' es ⟨hes, hhandles⟩
      exact ⟨hes, hcongr _ _ hhandles hK, forall_of_error⟩
  · refine (hmark _).bind ?_ fun _ _ _ h => ⟨h.1, h.2, forall_of_error⟩
    rintro _ session₁ es ⟨hes, hK₁⟩
    refine (doesFrom_ofAction (Action.apart_composes.compile ..)).bind ?_ ?_
    · rintro q session₂ es' ⟨hes', hhandles⟩
      refine .nothing (r := .ok q.documents) rfl rfl ⟨?_, hcongr _ _ hhandles hK₁, ?_⟩
      · rw [List.append_nil]
        exact serial_append hes hes'
      · rintro _ ⟨⟩
        rfl
    · rintro fault session₂ es' ⟨hes', hhandles⟩
      exact ⟨serial_append hes hes', hcongr _ _ hhandles hK₁, forall_of_error⟩

/-- What is done with documents whose reading began. -/
theorem apart_begin_bind {β : Type} {k : Cursor} {mark : Cursor → SessionAction Unit}
    {f : Documents → SessionAction β} (hmark : ∀ k, Apart (mark k))
    (hf : ∀ d, d.reading = .waiting → Apart (f d)) : Apart (begin k mark >>= f) := by
  refine ⟨fun session => ?_⟩
  have hbegin := doesFrom_begin (K := fun _ => True) k trivial
    (fun _ _ _ _ => trivial) fun k => ((hmark k).does session).mono fun _ _ _ h => ⟨h, trivial⟩
  refine hbegin.bind ?_ fun _ _ _ h => h.1
  rintro d session' es ⟨hes, -, hd⟩
  exact ((hf d (hd d rfl)).does session').mono fun _ _ _ h => serial_append hes h

theorem apart_toList (h : Nat) : Apart (toList h) := by
  unfold toList
  refine (apart_handle h).bind fun x => ?_
  split
  · exact apart_begin_bind (fun _ => apart_put ..) fun d hd => does_ofAction (Documents.apart_toList hd)
  · exact .pure _
  · refine apart_begin_bind (fun _ => apart_put ..) fun d hd => ?_
    exact Apart.bind (does_ofAction (Documents.apart_toList hd)) fun _ => apart_composes.fillAll ..
  · exact .throw _

theorem apart_iterate (h : Nat) : Apart (iterate h) := by
  unfold iterate
  refine (apart_handle h).bind fun x => ?_
  split
  · exact apart_begin_bind (fun _ => apart_put ..) fun _ _ => apart_handOut _
  · exact apart_handOut _
  · exact apart_handOut _
  · exact .pure _

/-- What is asked for is read up in the same turn, unless it is the next documents of an iterator. -/
theorem apart_composesRequests : ComposesRequests (fun _ a => Apart a) fun _ a => Apart a where
  toComposes := apart_composes
  toList := apart_toList
  iterate := apart_iterate

/-! ### What is gathered -/

section

variable (hfills : session.Fills source)

include hfills

theorem doesFrom_fillOne (v : Value) :
    DoesFrom (fun _ session' es => Serial es ∧ session.Lasts source session') (fillOne source v)
      session := by
  obtain ⟨r, hr, hactive⟩ := id hfills
  unfold fillOne
  refine .after (outcome_relatedOf hr) rfl ?_
  refine (doesFrom_ofAction (Action.apart_composesVerbs.fill ..)).bind ?_ ?_
  · rintro ⟨filled, l⟩ session₁ es ⟨hes, hhandles⟩
    have hr₁ : session₁.handles[source]? = some (.related r) := hhandles ▸ hr
    have hlasts : session.Lasts source session₁ := .of_handles hfills hhandles
    refine .after rfl rfl (.nothing rfl rfl ⟨?_, hlasts.trans (.put hr₁ hactive)⟩)
    rwa [List.append_nil]
  · rintro fault session₁ es ⟨hes, hhandles⟩
    exact ⟨hes, .of_handles hfills hhandles⟩

/-- All documents are read when relations are to be filled in. -/
theorem doesFrom_beginReading : DoesFrom (fun r session' es => Serial es ∧
    session.Lasts source session' ∧ ∀ reading, r = .ok reading → reading.documents? = none)
      (beginReading source) session := by
  obtain ⟨r, hr, hactive⟩ := id hfills
  unfold beginReading
  refine .after (outcome_relatedOf hr) rfl ?_
  have hbegin : DoesFrom (fun r session' es => Serial es ∧ session.Lasts source session' ∧
      ∀ d, r = .ok d → d.reading = .waiting) (beginRelated source r) session :=
    doesFrom_begin r.cursor (.of_handles hfills rfl) (fun _ _ heq h => h.congr heq)
      fun k => .nothing rfl rfl ⟨trivial, .put hr hactive⟩
  refine hbegin.bind ?_ fun _ _ _ h => ⟨h.1, h.2.1, forall_of_error⟩
  rintro d session₁ es ⟨hes, hlasts, hd⟩
  rw [hactive]
  refine (doesFrom_ofAction (Documents.apart_toList (hd d rfl))).bind ?_ ?_
  · rintro documents session₂ es' ⟨hes', hhandles⟩
    refine .nothing (r := .ok (.gathered documents)) rfl rfl ⟨?_, hlasts.congr hhandles, ?_⟩
    · rw [List.append_nil]
      exact serial_append hes hes'
    · rintro _ ⟨⟩
      rfl
  · rintro fault session₂ es' ⟨hes', hhandles⟩
    exact ⟨serial_append hes hes', hlasts.congr hhandles, forall_of_error⟩

theorem doesFrom_nextRelated {reading : RelatedReading} (hreading : reading.documents? = none) :
    DoesFrom (fun r session' es => Serial es ∧ session.Lasts source session' ∧
      ∀ p, r = .ok p → p.2.documents? = none) (nextRelated source reading) session := by
  unfold nextRelated
  -- What is gathered is the same whether the reading begins only now or goes on.
  extract_lets read
  have hread {session₁ : Session} {reading : RelatedReading} (hfills : session₁.Fills source)
      (hreading : reading.documents? = none) : DoesFrom (fun r session' es => Serial es ∧
        session₁.Lasts source session' ∧ ∀ p, r = .ok p → p.2.documents? = none)
          (read reading) session₁ := by
    unfold read
    split
    next => cases hreading
    next v rest =>
      refine (doesFrom_fillOne hfills v).bind ?_ fun _ _ _ h => ⟨h.1, h.2, forall_of_error⟩
      rintro filled session₂ es ⟨hes, hlasts⟩
      refine .nothing (r := .ok (some filled, .gathered rest)) rfl rfl ⟨?_, hlasts, ?_⟩
      · rwa [List.append_nil]
      · rintro _ ⟨⟩
        rfl
    next =>
      refine .nothing (r := .ok (none, .finished)) rfl rfl ⟨trivial, .of_handles hfills rfl, ?_⟩
      rintro _ ⟨⟩
      rfl
  split
  · refine (doesFrom_beginReading hfills).bind ?_ fun _ _ _ h => ⟨h.1, h.2.1, forall_of_error⟩
    rintro reading session₁ es ⟨hes, hlasts, hgathered⟩
    refine (hread hlasts.fills (hgathered reading rfl)).mono ?_
    rintro r session₂ es' ⟨hes', hlasts', hp⟩
    exact ⟨serial_append hes hes', hlasts.trans hlasts', hp⟩
  · exact .after rfl rfl (hread hfills hreading)

end

/-- What one call of an iterator preserves that reads all before it gives. -/
theorem doesFrom_next (hgathers : session.Gathers h) :
    DoesFrom (fun _ session' es => Serial es ∧ session'.Gathers h) (next h) session := by
  obtain ⟨i, hx⟩ : ∃ i, session.handles[h]? = some (.iterator i) := by
    obtain hx | ⟨_, _, hx, -⟩ := hgathers
    · exact ⟨_, hx⟩
    · exact ⟨_, hx⟩
  obtain ⟨hlength, -⟩ := List.getElem?_eq_some_iff.mp hx
  -- The iterator is put away while it is asked.
  let session₁ : Session := { session with handles := session.handles.set h (.iterator .finished) }
  have hx₁ : session₁.handles[h]? = some (.iterator .finished) := List.getElem?_set_self hlength
  have hnext : DoesFrom (fun r session₂ es => Serial es ∧
      session₂.handles[h]? = some (.iterator .finished) ∧ ∀ p, r = .ok p →
        ({ session₂ with handles := session₂.handles.set h (.iterator p.2) } : Session).Gathers h)
      (nextOf i) session₁ := by
    have hput {session₂ : Session} (j : Iterator)
        (hx₂ : session₂.handles[h]? = some (.iterator .finished)) :
        (session₂.handles.set h (.iterator j))[h]? = some (.iterator j) := by
      obtain ⟨hlength₂, -⟩ := List.getElem?_eq_some_iff.mp hx₂
      exact List.getElem?_set_self hlength₂
    rcases hgathers with hi | ⟨source, reading, hi, hreading, hfills⟩
    · cases hi.symm.trans hx
      refine .nothing (r := .ok (none, .finished)) rfl rfl ⟨trivial, hx₁, ?_⟩
      rintro _ ⟨⟩
      exact .inl (hput .finished hx₁)
    · cases hi.symm.trans hx
      refine (doesFrom_nextRelated (hfills.set hx) hreading).bind ?_ ?_
      · rintro ⟨v, reading'⟩ session₂ es ⟨hes, hlasts, hgathered⟩
        have hx₂ := hlasts.keeps h _ hx₁ nofun
        refine .nothing (r := .ok (v, .related source reading')) rfl rfl ⟨?_, hx₂, ?_⟩
        · rwa [List.append_nil]
        · rintro _ ⟨⟩
          exact .inr ⟨source, reading', hput _ hx₂, hgathered _ rfl, hlasts.fills.set hx₂⟩
      · rintro fault session₂ es ⟨hes, hlasts, -⟩
        exact ⟨hes, hlasts.keeps h _ hx₁ nofun, forall_of_error⟩
  have haway : (put h (.iterator .finished)).outcome session = (.ok (), session₁) := rfl
  unfold next
  refine .after (outcome_handle hx) rfl (.after haway rfl ?_)
  refine hnext.bind ?_ fun _ _ _ h => ⟨h.1, .inl h.2.1⟩
  rintro p session₂ es ⟨hes, -, hput⟩
  refine .after rfl rfl (.nothing rfl rfl ⟨?_, hput p rfl⟩)
  rwa [List.append_nil]

theorem doesFrom_take (hgathers : session.Gathers h) (count : Nat) :
    DoesFrom (fun _ session' es => Serial es ∧ session'.Gathers h) (take h count) session := by
  induction count generalizing session with
  | zero => exact .nothing rfl rfl ⟨trivial, hgathers⟩
  | succ count ih =>
    unfold take
    refine (doesFrom_next hgathers).bind ?_ fun _ _ _ h => h
    rintro v session₁ es ⟨hes, hgathers₁⟩
    cases v with
    | none => exact .nothing rfl rfl ⟨by rwa [List.append_nil], hgathers₁⟩
    | some v =>
      refine (ih hgathers₁).bind ?_ fun _ _ _ h => ⟨serial_append hes h.1, h.2⟩
      rintro ⟨vs, ended⟩ session₂ es' ⟨hes', hgathers₂⟩
      refine .nothing rfl rfl ⟨?_, hgathers₂⟩
      rw [List.append_nil]
      exact serial_append hes hes'

end SessionAction

/-! ### Turns -/

open SessionAction in
/-- The iterator that is handed out for documents with relations has read nothing yet. -/
theorem Request.doesFrom_iterate {session : Session} {source : Nat} (hfills : session.Fills source) :
    DoesFrom (fun _ session' es => es = [] ∧ session'.Gathers session.handles.length)
      (Request.iterate source).run session := by
  obtain ⟨r, hr, -⟩ := id hfills
  have hiterate : (SessionAction.iterate source).outcome session = (.ok session.handles.length,
      { session with handles := session.handles ++ [.iterator (.related source .waiting)] }) := by
    unfold SessionAction.iterate
    exact (Holding.outcome_bind_ok (outcome_handle hr)).trans rfl
  refine .after hiterate rfl (.nothing rfl rfl ⟨rfl, .inr ⟨source, .waiting, ?_, rfl, ?_⟩⟩)
  · exact List.getElem?_concat_length
  · exact hfills.append _

namespace Session

/-- What some turns did to the library, one after another. -/
def didAll : Session → List Turn → List Event
  | _, [] => []
  | session, t :: turns => session.did t ++ (session.after t).didAll turns

/-- Turns in which an iterator is asked for some of its next documents. -/
def asking (h : Nat) (nexts : List (Script × Nat)) : List Turn :=
  nexts.map fun (script, count) => ⟨script, .next h count⟩

variable {session : Session} {h : Nat}

/-- What a turn did, from what its request does. -/
theorem did_of_doesFrom {t : Turn} {P : Session → List Event → Prop}
    (h : DoesFrom (fun _ => P) t.request.run (session.turnTo t.script)) :
    P (session.after t) (session.did t) := by
  obtain ⟨es, htrace, hP⟩ := h
  have hafter : (session.after t).store.trace = session.store.trace ++ es := htrace
  rw [did, hafter, List.drop_left]
  exact hP

/-- What one turn preserves in which more is asked of an iterator that reads all before it gives. -/
theorem Gathers.after (hgathers : session.Gathers h) (script : Script) (count : Nat) :
    Serial (session.did ⟨script, .next h count⟩) ∧
      (session.after ⟨script, .next h count⟩).Gathers h := by
  have hturn : (session.turnTo script).Gathers h := hgathers
  refine did_of_doesFrom (P := fun session' es => Serial es ∧ session'.Gathers h) ?_
  refine (SessionAction.doesFrom_take hturn count).bind ?_ fun _ _ _ hdone => hdone
  rintro ⟨documents, ended⟩ session₁ es ⟨hes, hgathers₁⟩
  refine .nothing rfl rfl ⟨?_, hgathers₁⟩
  rwa [List.append_nil]

/-- What a run of such turns preserves. -/
theorem Gathers.serial_didAll (hgathers : session.Gathers h) (nexts : List (Script × Nat)) :
    Serial (session.didAll (asking h nexts)) := by
  induction nexts generalizing session with
  | nil => trivial
  | cons next nexts ih =>
    obtain ⟨hserial, hafter⟩ := hgathers.after next.1 next.2
    exact serial_append hserial (ih hafter)

/-- Whenever rows are read, their cursor is closed before the next statement is sent: in every turn in
which something else is asked for than the next documents of an iterator, and over all turns that ask for
the documents of an iterator which fills in relations. -/
theorem serial_did :
    (∀ (session : Session) (t : Turn), (∀ h count, t.request ≠ .next h count) → Serial (session.did t)) ∧
    ∀ (session : Session) (source : Nat) (script : Script) (nexts : List (Script × Nat)),
      session.Fills source →
        Serial (session.didAll (⟨script, .iterate source⟩ :: asking session.handles.length nexts)) := by
  refine ⟨fun session t hnot => ?_, fun session source script nexts hfills => ?_⟩
  · exact did_of_doesFrom ((SessionAction.apart_composesRequests.request hnot).does _)
  · have hturn : (session.turnTo script).Fills source := hfills
    obtain ⟨hnothing, hgathers⟩ := did_of_doesFrom (t := ⟨script, .iterate source⟩)
      (P := fun session' es => es = [] ∧ session'.Gathers session.handles.length)
      (Request.doesFrom_iterate hturn)
    rw [didAll, hnothing]
    exact hgathers.serial_didAll nexts

/-- A session that holds on to documents in which relations are filled in. -/
def relating : Session :=
  ⟨Store.ready .pgsql,
    [.related { cursor := ⟨0, .everything, {}, false⟩, relations := { one := [("a", .str "c")] } }]⟩

/-- Two documents are found, and then one for each of them. -/
def answering : Script :=
  { replies := [⟨Store.rowsOf [1, 2], none⟩, ⟨Store.rowsOf [3], none⟩, ⟨Store.rowsOf [4], none⟩] }

/-- Both documents are read before the related one of either is looked up. -/
theorem serial_did_relating :
    let iteration := relating.didAll
      (⟨answering, .iterate 0⟩ :: asking relating.handles.length [(answering, 1), (answering, 1)])
    let update := relating.did ⟨answering, .verb (.update (.str "c") .everything (.object []))⟩
    iteration.filterMap Event.read? = [0, 0, 0, 3, 4] ∧ (sentStatements iteration).length = 5 ∧
      Serial iteration ∧ Serial update := by
  obtain ⟨hturn, hiteration⟩ := serial_did
  refine ⟨by decide +kernel, by decide +kernel, ?_, ?_⟩
  · exact hiteration relating 0 answering _ ⟨_, rfl, rfl⟩
  · exact hturn relating _ nofun

end Session

end DocStore
