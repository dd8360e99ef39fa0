import DocStore.Proofs.Dialect.Consults
import DocStore.Proofs.Store.Library
import DocStore.Store.Verb

/-!
What verbs are put together of. Statements are sent, texts are put together in
the dialect, messages are logged and something is kept aside, one after another;
and whatever is read is read by a search. What passes from these parts to what is
put together of them therefore needs to be shown of the parts alone.
-/

namespace DocStore

/-- The connection itself is opened, set up or closed. -/
def Event.OfConnection : Event → Prop
  | .connect _ | .charset _ | .register _ | .probe _ | .disconnect => True
  | .send .. | .fetch .. | .fetchAll _ | .close _ => False

namespace Action

variable {α β : Type}

/-- A property of actions that passes from one action after another to both, and that the parts have
of which collections and their documents are written. The faults that are thrown blame no statement,
and nothing asks whether the connection quotes but what is put together in the dialect. -/
structure Composes (J : ∀ ⦃α : Type⦄, Action α → Prop) : Prop where
  pure : ∀ {α : Type} (x : α), J (Pure.pure x : Action α)
  throw : ∀ {α : Type} {fault : Fault}, fault.isStatement = false → J (throw fault : Action α)
  bind : ∀ {α β : Type} {a : Action α} {f : α → Action β}, J a → (∀ x, J (f x)) → J (a >>= f)
  get_bind : ∀ {β : Type} {f : Store → Action β}, (∀ s, f (Store.fluent s) = f s) → (∀ s, J (f s)) →
    J (get >>= f)
  /-- Something is kept that the library does not know of. -/
  aside : ∀ {α : Type} {a : Action α} {g : Store → α × Store},
    (∀ s, a.outcome s = (.ok (g s).1, (g s).2)) →
      (∀ s, g (Store.fluent s) = ((g s).1, (g s).2.fluent)) → (∀ s : Store, s.Aside (g s).2) → J a
  log : ∀ {level : Level} (message : Text), level ≠ .error → level ≠ .debug → J (log level message [])
  logOf : ∀ {level : Level} (name message : Text), level ≠ .error → level ≠ .debug →
    J (logOf name level message)
  inDialect : ∀ {α : Type} {f : Dialect → Except Fault α}, (∀ e : Engine, Consults fun q => f ⟨e, q⟩) →
    J (inDialect f)
  record : ∀ {e : Event}, e.OfConnection → J (record e)
  failConnecting : ∀ r : Refusal, J (failConnecting r)
  change : ∀ st : Statement, J (change st)
  rows : ∀ st : Statement, J (rows st)

/-- A property that passes to verbs: what reads rows one by one has it too. -/
structure ComposesVerbs (J : ∀ ⦃α : Type⦄, Action α → Prop) : Prop extends Composes J where
  find : ∀ (c : Nat) (filter : Filter) (options : FindOptions), J (find c filter options)
  findOne : ∀ (c : Nat) (filter : Filter) (options : FindOptions), J (findOne c filter options)
  eachRow : ∀ st : Statement, J (eachRow st)

namespace Composes

variable {J : ∀ ⦃α : Type⦄, Action α → Prop} (hJ : Composes J)

include hJ

theorem modify_bind {g : Store → Store} {f : PUnit → Action β}
    (hfluent : ∀ s, g (Store.fluent s) = (g s).fluent) (haside : ∀ s : Store, s.Aside (g s))
    (hf : J (f ())) : J (MonadState.modifyGet (fun s => ((), g s)) >>= f) := by
  have hmodify : J (modify g : Action Unit) :=
    hJ.aside (g := fun s => ((), g s)) (fun _ => rfl) (fun s => by rw [hfluent]) haside
  exact hJ.bind hmodify fun _ => hf

theorem ofMisuse (r : Except Misuse α) : J (ofMisuse r) := by
  cases r with
  | ok x => exact hJ.pure x
  | error fault => exact hJ.throw rfl

theorem ofChecked (r : Checked α) : J (ofChecked r) := by
  cases r with
  | ok x => exact hJ.pure x
  | error issues => exact hJ.throw rfl

/-! ### The connection -/

theorem setUp : J setUp := by
  have hjournal : J setUpJournal := by
    unfold setUpJournal
    refine hJ.get_bind (fun _ => rfl) fun s => ?_
    split
    · refine hJ.bind (hJ.record trivial) fun _ => ?_
      split
      · exact hJ.pure ()
      · split
        · exact hJ.log _ (by decide) (by decide)
        · exact hJ.throw rfl
    · exact hJ.pure ()
  unfold Action.setUp
  refine hJ.get_bind (fun _ => rfl) fun s => ?_
  split
  · exact hJ.pure ()
  · exact hJ.record trivial
  · exact hJ.bind (hJ.record trivial) fun _ => hjournal

theorem connect : J connect := by
  unfold Action.connect
  refine hJ.get_bind (fun _ => rfl) fun s => ?_
  -- Two branches go on with opening the connection, and three with asking whether it is open.
  extract_lets opened connected
  have hopened (x : Unit) : J (opened x) := by
    refine hJ.modify_bind (fun _ => rfl) (fun _ => ⟨_, _, _, _, rfl⟩) ?_
    exact hJ.bind hJ.setUp fun _ => hJ.log _ (by decide) (by decide)
  have hconnected (x : Unit) : J (connected x) := by
    unfold connected
    split
    · exact hJ.pure ()
    · refine hJ.bind (hJ.ofMisuse _) fun parameters => hJ.bind (hJ.record trivial) fun _ => ?_
      split
      · exact hJ.bind (hJ.failConnecting _) hopened
      · exact hopened ()
  split
  · split
    · exact hJ.bind (hJ.throw rfl) hconnected
    · exact hconnected ()
  · exact hconnected ()

theorem close : J close := by
  have hdisconnect : J disconnect := by
    unfold disconnect
    refine hJ.get_bind (fun _ => rfl) fun s => ?_
    split
    · refine hJ.bind (hJ.record trivial) fun _ => ?_
      exact hJ.modify_bind (fun _ => rfl) (fun _ => ⟨_, _, _, _, rfl⟩)
        (hJ.log _ (by decide) (by decide))
    · exact hJ.pure ()
  unfold Action.close
  exact hJ.modify_bind (fun _ => rfl) (fun _ => ⟨_, _, _, _, rfl⟩) hdisconnect

/-! ### Collections -/

theorem collection (c : Nat) : J (collection c) := by
  refine hJ.get_bind (fun _ => rfl) fun s => ?_
  split
  · exact hJ.pure _
  · exact hJ.throw rfl

theorem makeTable (table : Text) : J (makeTable table) := by
  have hsend (sqls : List Sql) : J (sendAll table sqls) := by
    induction sqls with
    | nil => exact hJ.pure ()
    | cons sql sqls ih => exact hJ.bind (hJ.change _) fun _ => ih
  exact hJ.bind (hJ.inDialect fun e => Dialect.consults_createStatements e table) hsend

theorem ensureTable (c : Nat) : J (ensureTable c) := by
  unfold Action.ensureTable
  refine hJ.bind (hJ.collection c) fun x => ?_
  split
  · refine hJ.bind (hJ.makeTable _) fun _ => ?_
    exact hJ.modify_bind (fun _ => rfl) (fun _ => ⟨_, _, _, _, rfl⟩)
      (hJ.logOf _ _ (by decide) (by decide))
  · exact hJ.pure ()

theorem makeCollection (name : Text) : J (makeCollection name) := by
  have hregister (x : Collection) : J (do
      let s ← get
      set (s.register x)
      return s.collections.length : Action Nat) :=
    hJ.aside (g := fun s => (s.collections.length, s.register x)) (fun _ => rfl) (fun _ => rfl)
      fun _ => ⟨_, _, _, _, rfl⟩
  unfold Action.makeCollection
  exact hJ.bind (hJ.makeTable _) fun _ =>
    hJ.bind (hJ.logOf _ _ (by decide) (by decide)) fun _ => hregister _

theorem obtain (id : Value) : J (obtain id) := by
  unfold Action.obtain
  extract_lets named
  have hnamed (x : Unit) : J (named x) := by
    refine hJ.bind (hJ.ofMisuse _) fun name => hJ.get_bind (fun _ => rfl) fun s => ?_
    split
    · exact hJ.pure _
    · exact hJ.makeCollection name
  split
  · exact hJ.bind (hJ.throw rfl) hnamed
  · exact hnamed ()

theorem drop (c : Nat) : J (drop c) := by
  unfold Action.drop
  refine hJ.bind (hJ.collection c) fun x => ?_
  refine hJ.bind (hJ.inDialect fun e => Dialect.consults_dropStatement e _) fun sql => ?_
  refine hJ.bind (hJ.change _) fun _ => ?_
  refine hJ.modify_bind (fun _ => rfl) (fun _ => ⟨_, _, _, _, rfl⟩) ?_
  refine hJ.bind (hJ.logOf _ _ (by decide) (by decide)) fun _ => ?_
  exact hJ.modify_bind (fun _ => rfl) (fun _ => ⟨_, _, _, _, rfl⟩)
    (hJ.log _ (by decide) (by decide))

theorem hasTable (id : Value) : J (hasTable id) := by
  unfold Action.hasTable
  refine hJ.bind (hJ.ofMisuse _) fun name => ?_
  refine hJ.bind (hJ.inDialect fun e => Dialect.consults_tableExists e _) fun sql => ?_
  exact hJ.bind (hJ.rows _) fun rows => hJ.bind (hJ.ofMisuse _) fun count => hJ.pure _

/-! ### Searches -/

theorem compile (c : Nat) (filter : Filter) (options : FindOptions) : J (compile c filter options) := by
  unfold Action.compile
  refine hJ.bind (hJ.collection c) fun x => ?_
  split
  · refine hJ.bind (hJ.inDialect fun e => Dialect.consults_orderClause e _) fun ordered => ?_
    exact hJ.bind (hJ.ofMisuse _) fun _ => hJ.pure _
  · refine hJ.bind (hJ.inDialect fun e => ?_) fun statement => ?_
    · refine (Dialect.consults_whereClause e _).bind fun condition => ?_
      refine (Dialect.consults_orderClause e _).bind fun ordered => ?_
      split
      · exact .pure _
      · exact .error rfl
    · split
      · exact hJ.bind (hJ.ofMisuse _) fun _ => hJ.pure _
      · exact hJ.pure _

theorem findOptions (v : Value) : J (findOptions v) :=
  hJ.bind (hJ.ofMisuse _) fun _ => hJ.ofChecked _

theorem search (name criteria : Value) : J (search name criteria) := by
  have hsearch (ms : Members) : J (do
      let filter := Filter.ofValue ((Members.get? ms "filter").getD .null)
      let c ← Action.obtain name
      let options ← Action.findOptions (.object (Members.erase ms "filter"))
      return (c, filter, options) : Action Search) :=
    hJ.bind (hJ.obtain name) fun c => hJ.bind (hJ.findOptions _) fun _ => hJ.pure _
  unfold Action.search
  split
  · exact hJ.bind (hJ.ofMisuse _) hsearch
  · exact hJ.bind (hJ.pure _) hsearch

/-! ### Writing -/

theorem identified (document : Value) : J (identified document) := by
  have hfresh : J freshId :=
    hJ.aside (g := fun s => (s.identifiers s.given, { s with given := s.given + 1 }))
      (fun _ => rfl) (fun _ => rfl) fun _ => ⟨_, _, _, _, rfl⟩
  unfold Action.identified
  refine hJ.bind (hJ.ofMisuse _) fun ms => ?_
  split
  · exact hJ.bind hfresh fun _ => hJ.pure _
  · exact hJ.pure _

theorem identifiedAll (documents : List Value) : J (identifiedAll documents) := by
  induction documents with
  | nil => exact hJ.pure _
  | cons document documents ih =>
    unfold Action.identifiedAll
    exact hJ.bind (hJ.identified document) fun ms => hJ.bind ih fun _ => hJ.pure _

theorem insertMembers (c : Nat) (documents : List Members) : J (insertMembers c documents) := by
  unfold Action.insertMembers
  refine hJ.bind (hJ.ensureTable c) fun _ => hJ.bind (hJ.collection c) fun x => ?_
  refine hJ.bind (hJ.inDialect fun e => ?_) fun literals =>
    hJ.bind (hJ.change _) fun _ => hJ.pure _
  exact .mapM documents (Dialect.consults_document e)

theorem insertOne (c : Nat) (document : Value) : J (insertOne c document) := by
  unfold Action.insertOne
  exact hJ.bind (hJ.identified document) fun ms => hJ.bind (hJ.insertMembers c _) fun _ => hJ.pure _

theorem insertMany (c : Nat) (documents : List Value) : J (insertMany c documents) := by
  unfold Action.insertMany
  refine hJ.bind (hJ.identifiedAll documents) fun stored => ?_
  split
  · exact hJ.bind (hJ.insertMembers c stored) fun _ => hJ.pure _
  · exact hJ.pure _

theorem writeOver (c : Nat) (id : Value) (ms : Members) : J (writeOver c id ms) := by
  unfold Action.writeOver
  refine hJ.bind (hJ.collection c) fun x => ?_
  refine hJ.bind (hJ.inDialect fun e => ?_) fun statement =>
    hJ.bind (hJ.change _) fun _ => hJ.pure _
  exact (Dialect.consults_document e ms).bind fun _ => (Dialect.consults_selector e _ _).bind fun _ =>
    (Dialect.consults_literal e id).bind fun _ => .pure _

theorem overlayAll (c : Nat) (patch : Value) (documents : List Value) :
    J (overlayAll c patch documents) := by
  induction documents with
  | nil => exact hJ.pure ()
  | cons document documents ih =>
    unfold Action.overlayAll
    exact hJ.bind (hJ.ofMisuse _) fun _ => hJ.bind (hJ.writeOver ..) fun _ => ih

theorem deleteIds (c : Nat) (ids : List Value) : J (deleteIds c ids) := by
  unfold Action.deleteIds
  refine hJ.bind (hJ.collection c) fun x => ?_
  refine hJ.bind (hJ.inDialect fun e => ?_) fun condition =>
    hJ.bind (hJ.change _) fun _ => hJ.pure _
  exact (Dialect.consults_selector e _ _).bind fun _ =>
    (Dialect.consults_literals e ids).bind fun _ => .pure _

end Composes

namespace ComposesVerbs

variable {J : ∀ ⦃α : Type⦄, Action α → Prop} (hJ : ComposesVerbs J)

include hJ

theorem updateMany (c : Nat) (filter : Filter) (patch : Value) (options : FindOptions) :
    J (updateMany c filter patch options) := by
  unfold Action.updateMany
  exact hJ.bind (hJ.find ..) fun _ => hJ.bind (hJ.overlayAll ..) fun _ => hJ.pure _

theorem replaceOne (c : Nat) (filter : Filter) (document : Value) :
    J (replaceOne c filter document) := by
  unfold Action.replaceOne
  refine hJ.bind (hJ.findOne ..) fun current => ?_
  split
  · exact hJ.pure _
  · exact hJ.bind (hJ.ofMisuse _) fun _ => hJ.bind (hJ.writeOver ..) fun _ => hJ.pure _

theorem deleteMany (c : Nat) (filter : Filter) : J (deleteMany c filter) := by
  unfold Action.deleteMany
  refine hJ.bind (hJ.ensureTable c) fun _ => ?_
  split
  · refine hJ.bind (hJ.find ..) fun selected => hJ.bind (hJ.ofMisuse _) fun ids => ?_
    split
    · exact hJ.deleteIds c ids
    · exact hJ.pure ()
  · refine hJ.bind (hJ.collection c) fun x => ?_
    refine hJ.bind (hJ.inDialect fun e => Dialect.consults_whereClause e _) fun condition => ?_
    exact hJ.bind (hJ.change _) fun _ => hJ.pure _

theorem count (c : Nat) (filter : Filter) : J (count c filter) := by
  unfold Action.count
  split
  · exact hJ.bind (hJ.find ..) fun _ => hJ.pure _
  · refine hJ.bind (hJ.ensureTable c) fun _ => hJ.bind (hJ.collection c) fun x => ?_
    refine hJ.bind (hJ.inDialect fun e => Dialect.consults_whereClause e _) fun condition => ?_
    exact hJ.bind (hJ.rows _) fun _ => hJ.ofMisuse _

/-! ### Verbs -/

theorem findAll (name : Value) (filter : Filter) : J (findAll name filter) :=
  hJ.bind (hJ.obtain name) fun _ => hJ.find ..

theorem findById (name id : Value) : J (findById name id) :=
  hJ.bind (hJ.obtain name) fun _ => hJ.findOne ..

theorem findReferring (name : Text) (field id : Value) : J (findReferring name field id) := by
  unfold Action.findReferring
  refine hJ.bind (hJ.obtain _) fun c => ?_
  split
  · exact hJ.find ..
  · exact hJ.throw rfl

theorem save (name document : Value) (isCreate : Bool) : J (save name document isCreate) := by
  unfold Action.save
  refine hJ.bind (hJ.obtain name) fun c => ?_
  split
  · split
    · exact hJ.insertOne ..
    · dsimp only
      split
      · refine hJ.bind (hJ.replaceOne ..) fun replaced => ?_
        split
        · exact hJ.pure _
        · exact hJ.insertOne ..
      · refine hJ.bind (hJ.updateMany ..) fun updated => ?_
        split
        · exact hJ.bind (hJ.findOne ..) fun _ => hJ.pure _
        · exact hJ.insertOne ..
  · exact hJ.throw rfl

theorem insert (name document : Value) : J (insert name document) := by
  unfold Action.insert
  refine hJ.bind (hJ.obtain name) fun c => ?_
  split
  · exact hJ.insertOne ..
  · split
    · exact hJ.throw rfl
    · exact hJ.bind (hJ.identifiedAll _) fun _ => hJ.bind (hJ.insertMany ..) fun _ => hJ.pure _

theorem changeField (name field : Value) (change : Value → Except Misuse Value)
    (documents : List Value) : J (changeField name field change documents) := by
  induction documents with
  | nil => exact hJ.pure _
  | cons document documents ih =>
    unfold Action.changeField
    refine hJ.bind (hJ.ofMisuse _) fun has => ?_
    split
    · exact hJ.bind (hJ.ofMisuse _) fun _ => hJ.bind (hJ.save ..) fun _ =>
        hJ.bind ih fun _ => hJ.pure _
    · exact ih

/-! ### Relations -/

theorem fillOne (relations : List (Text × Value)) (done : Members × Lookedup) :
    J (Relations.fillOne lookups relations done) := by
  have hfind (l : Lookedup) (collection id : Value) : J (l.findOne lookups collection id) := by
    unfold Lookedup.findOne
    split
    · exact hJ.pure _
    · exact hJ.bind (hJ.findById collection id) fun _ => hJ.pure _
  induction relations generalizing done with
  | nil => exact hJ.pure done
  | cons relation relations ih =>
    obtain ⟨field, collection⟩ := relation
    obtain ⟨ms, l⟩ := done
    unfold Relations.fillOne
    dsimp only
    split
    · exact ih _
    · split
      · exact hJ.throw rfl
      · exact hJ.bind (hfind l collection _) fun _ => ih _

theorem fillMany (id : Value) (relations : List (Text × Value)) (done : Members × Lookedup) :
    J (Relations.fillMany lookups id relations done) := by
  have hfind (l : Lookedup) (collection : Text) (field id : Value) :
      J (l.findMany lookups collection field id) := by
    unfold Lookedup.findMany
    split
    · exact hJ.pure _
    · exact hJ.bind (hJ.findReferring collection field id) fun _ => hJ.pure _
  induction relations generalizing done with
  | nil => exact hJ.pure done
  | cons relation relations ih =>
    obtain ⟨collection, field⟩ := relation
    obtain ⟨ms, l⟩ := done
    unfold Relations.fillMany
    split
    · exact hJ.throw rfl
    · exact hJ.bind (hfind l collection field id) fun _ => ih _

theorem fill (r : Relations) (document : Value) (l : Lookedup) : J (r.fill lookups document l) := by
  unfold Relations.fill
  split
  · exact hJ.pure _
  · split
    · exact hJ.throw rfl
    · refine hJ.bind (hJ.fillOne r.one _) ?_
      rintro ⟨ms, l⟩
      dsimp only
      split
      · exact hJ.pure _
      · exact hJ.pure _
      · exact hJ.bind (hJ.fillMany ..) fun _ => hJ.pure _

theorem fillAll (r : Relations) (documents : List Value) (l : Lookedup) :
    J (r.fillAll lookups documents l) := by
  induction documents generalizing l with
  | nil => exact hJ.pure _
  | cons document documents ih =>
    unfold Relations.fillAll
    exact hJ.bind (hJ.fill r document l) fun _ => hJ.bind (ih _) fun _ => hJ.pure _

theorem collectionVerb (c : Nat) (v : CollectionVerb) : J (v.run c) := by
  cases v with
  | findOne filter options =>
    exact hJ.bind (hJ.findOptions _) fun _ => hJ.bind (hJ.findOne ..) fun _ => hJ.pure _
  | insertOne document => exact hJ.bind (hJ.insertOne ..) fun _ => hJ.pure _
  | insertMany documents =>
    rw [CollectionVerb.run]
    split
    · exact hJ.bind (hJ.insertMany ..) fun _ => hJ.pure _
    · exact hJ.throw rfl
  | updateMany filter patch options =>
    exact hJ.bind (hJ.findOptions _) fun _ => hJ.bind (hJ.updateMany ..) fun _ => hJ.pure _
  | updateOne filter patch => exact hJ.bind (hJ.updateMany ..) fun _ => hJ.pure _
  | replaceOne filter document => exact hJ.bind (hJ.replaceOne ..) fun _ => hJ.pure _
  | deleteMany filter => exact hJ.bind (hJ.deleteMany ..) fun _ => hJ.pure _
  | count filter => exact hJ.bind (hJ.count ..) fun _ => hJ.pure _
  | drop => exact hJ.bind (hJ.drop c) fun _ => hJ.pure _
  | ensureTable => exact hJ.bind (hJ.ensureTable c) fun _ => hJ.pure _

/-- What passes to verbs from what they are put together of, all of them have. -/
theorem verb (v : Verb) : J v.run := by
  cases v with
  | obtain name database => exact hJ.bind (hJ.obtain _) fun _ => hJ.pure _
  | hasCollection name => exact hJ.bind (hJ.hasTable _) fun _ => hJ.pure _
  | dropCollection name => exact hJ.bind (hJ.obtain _) fun c => hJ.collectionVerb c _
  | findOne name filter =>
    exact hJ.bind (hJ.obtain _) fun _ => hJ.bind (hJ.findOne ..) fun _ => hJ.pure _
  | findById name id => exact hJ.bind (hJ.findById ..) fun _ => hJ.pure _
  | save name document isCreate => exact hJ.bind (hJ.save ..) fun _ => hJ.pure _
  | insert name document => exact hJ.bind (hJ.insert ..) fun _ => hJ.pure _
  | update name filter patch =>
    exact hJ.bind (hJ.obtain _) fun _ => hJ.bind (hJ.updateMany ..) fun _ => hJ.pure _
  | remove name filter => exact hJ.bind (hJ.obtain _) fun c => hJ.collectionVerb c _
  | count name filter => exact hJ.bind (hJ.obtain _) fun c => hJ.collectionVerb c _
  | removeField name field filter =>
    exact hJ.bind (hJ.bind (hJ.findAll ..) fun _ => hJ.changeField ..) fun _ => hJ.pure _
  | renameField name field fresh filter =>
    exact hJ.bind (hJ.bind (hJ.findAll ..) fun _ => hJ.changeField ..) fun _ => hJ.pure _
  | on c verb => exact hJ.collectionVerb c verb
  | send text => exact hJ.bind (hJ.change _) fun _ => hJ.pure _
  | rows text => exact hJ.bind (hJ.rows _) fun _ => hJ.pure _
  | eachRow text => exact hJ.bind (hJ.eachRow _) fun _ => hJ.pure _
  | quote text => exact hJ.bind (hJ.inDialect fun _ => .quote text) fun _ => hJ.pure _
  | isOpen => exact hJ.get_bind (fun _ => rfl) fun _ => hJ.pure _
  | connect => exact hJ.bind hJ.connect fun _ => hJ.get_bind (fun _ => rfl) fun _ => hJ.pure _
  | close => exact hJ.bind hJ.close fun _ => hJ.get_bind (fun _ => rfl) fun _ => hJ.pure _

end ComposesVerbs

end Action

end DocStore
