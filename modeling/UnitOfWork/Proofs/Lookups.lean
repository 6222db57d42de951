import UnitOfWork.Proofs.IdentityMap
import UnitOfWork.Proofs.Stores

/-!
# Lookups of one key

A session that has given out the entity of a key gives out the same one until
it forgets it. Only a deletion of that very entity makes it do so, besides the
requests that forget everything: the deletions of a flush are those of other
entities, which are looked after under other keys, and they still have these
keys when they are deleted.

## Main results

* `Session.Stays.perform`: requests that spare an entity leave it where it is;
* `Session.stays_of_find`: an entity that is found is there to stay, under the
  key that was asked for;
* `Session.identity_map`: on every run the context is coherent, and all
  lookups of a key give one instance.
-/

namespace UnitOfWork

variable {σ : Type}

/-- A request that neither deletes an entity nor forgets all. -/
def Operation.Spares (op : Operation) (ref : Ref) : Prop :=
  op ≠ .remove ref ∧ op.forgets = false

namespace Session

variable [Driver σ] {p : Persister} {key : Key} {ref : Ref}

/-! ## Flushes -/

/-- The work of a flush that does not delete the entity under a key. -/
structure Sparing (p : Persister) (saved : Context) (before : Heap)
    (key : Key) (ref : Ref) (actions : List Action) (work : Work σ) :
    Prop where
  orderly : work.Orderly p saved before actions
  deletes : ∀ other, ⟨.delete, other⟩ ∈ actions →
    ∃ k, k ≠ key ∧ saved.get? k = some other
  get : work.context.get? key = some ref

omit [Driver σ] in
/-- An action leaves the entity under its key. -/
theorem Sparing.follow {saved : Context} {before : Heap} {action : Action}
    {rest : List Action} {work : Work σ}
    (hSaved : saved.Coherent p.schema before)
    (h : Sparing p saved before key ref (action :: rest) work)
    {env : Env σ} {ctx : Context}
    (hSpares : action.Spares work.env.heap env.heap)
    (hFollow : action.follow p env.heap work.context = .ok ctx) :
    Sparing p saved before key ref rest ⟨env, ctx⟩ := by
  refine ⟨h.orderly.follow hSpares hFollow,
    fun other hMem => h.deletes other (List.mem_cons_of_mem _ hMem), ?_⟩
  by_cases hKind : action.kind = .delete
  · obtain ⟨kind, other⟩ := action
    cases hKind
    obtain ⟨k, hNe, hOther⟩ := h.deletes other (List.mem_cons_self ..)
    have hHeap : env.heap = work.env.heap := hSpares.same fun h => by cases h
    rcases Context.Coherent.remove_cases hFollow with rfl | ⟨gone, hGone, rfl⟩
    · exact h.get
    · -- What is deleted still has the key that it had before the flush.
      have hSame := h.orderly.same k other hOther
      have hBears : env.heap.Bears p.schema other k :=
        (hSaved.bears k other hOther).of_get_eq (hHeap ▸ hSame)
      have hKey : key ≠ gone := hBears.unique hGone ▸ hNe.symm
      show (work.context.forget gone).get? key = some ref
      rw [Context.get?, Context.forget, Assoc.lookup_erase_ne hKey]
      exact h.get
  · exact (Action.get?_of_follow hFollow).2 hKind key ref h.get

theorem executeAll_sparing (conn : ConnId) {saved : Context} {before : Heap}
    {actions : List Action} {work : Work σ}
    (hSaved : saved.Coherent p.schema before)
    (h : Sparing p saved before key ref actions work) :
    match (Action.executeAll p conn actions).run work with
    | (.ok _, after) => Sparing p saved before key ref [] after
    | (.error _, _) => True := by
  refine Action.executeAll_induct
    (I := Sparing (σ := σ) p saved before key ref)
    (J := fun _ => True) ?_ (fun _ _ _ _ _ _ _ => trivial) h
  intro action rest work after hSparing hExecuted
  cases hExecuted with
  | skipped hPlan hFollow =>
      exact hSparing.follow hSaved (Action.Spares.refl ..) hFollow
  | done hPlan hCall hCount hKey hFollow =>
      exact hSparing.follow hSaved hKey.env_eq.2 hFollow

/-- An entity is looked after under a key and does not wait to be deleted. -/
structure Stays (key : Key) (ref : Ref) (scope : Scope σ) : Prop where
  get : scope.session.context.get? key = some ref
  undeleted : ⟨.delete, ref⟩ ∉ scope.session.queue.pending

namespace Stays

/-- A flush leaves the entity where it is, whatever comes of it. -/
theorem flush {scope after : Scope σ} {r : Except Error Unit}
    (h : Stays key ref scope) (hTidy : Tidy p scope)
    (hFlushed : Flushed p scope r after) : Stays key ref after := by
  have hQueue : (⟨.delete, ref⟩ : Action) ∉ ({} : Queue).pending :=
    fun hMem => by cases hMem
  cases hFlushed with
  | closed _ => exact h
  | unreadable _ _ => exact h
  | idle _ _ _ => exact h
  | unconnected _ _ _ _ _ => exact ⟨h.get, hQueue⟩
  | rolledBack _ _ _ _ _ _ => exact ⟨h.get, hQueue⟩
  | discarded _ _ _ _ _ _ => exact ⟨h.get, hQueue⟩
  | @committed dirty ctx conn pool work _ hDiff _ _ hRun =>
      have hEntities := Context.entities_of_diff hDiff
      have hSparing : Sparing p scope.session.context scope.heap key ref
          (scope.session.planned dirty)
          (opened conn scope.session.inTransaction ⟨scope.env, ctx⟩) := by
        refine ⟨(hTidy.orderly hDiff).opened .., ?_, ?_⟩
        · intro other hMem
          rcases mem_planned.1 hMem with hPending | ⟨_, _, hNo⟩
          · obtain ⟨k, hOther⟩ := hTidy.deletes other hPending
            refine ⟨k, ?_, hOther⟩
            intro hEq
            rw [hEq, h.get] at hOther
            cases hOther
            exact h.undeleted hPending
          · cases hNo
        · rw [context_opened, Context.get?, hEntities]
          exact h.get
      have hActions := executeAll_sparing conn hTidy.coherent hSparing
      cases hRun with
      | committed _ hExecuted _ _ =>
          rw [hExecuted] at hActions
          exact ⟨hActions.get, hQueue⟩

omit [Driver σ] in
/-- So does a load. -/
theorem load {α : Type} {I : Work σ → Prop} {Q : α → Work σ → Prop}
    {shared : Bool} {scope after : Scope σ} {r : Except Error α}
    (h : Stays key ref scope) (hLoaded : Loaded I Q shared scope r after) :
    Stays key ref after := by
  cases hLoaded with
  | unconnected _ _ => exact h
  | failed _ _ => exact ⟨h.get, h.undeleted⟩
  | done _ _ hContext _ =>
      cases shared with
      | false => exact ⟨h.get, h.undeleted⟩
      | true => exact ⟨hContext key ref h.get, h.undeleted⟩

theorem withLoader {α : Type} {shared : Bool} {scope : Scope σ}
    {load : Loader → Step (Work σ) α} (h : Stays key ref scope)
    (hLoad : Loader.Leading load) :
    Stays key ref ((Session.withLoader p shared load).run scope).2 := by
  have hKeeps : ∀ L : Loader,
      L.Keeps (fun _ _ => True) fun _ : Work σ => True := by
    intro L
    constructor <;> simp
  exact h.load (loaded p shared load scope fun _ _ _ =>
    hLoad (hKeeps _) trivial)

/-- So does every request that spares the entity. -/
theorem perform {scope : Scope σ} {op : Operation}
    (h : Stays key ref scope) (hTidy : Tidy p scope)
    (hSpares : op.Spares ref) : Stays key ref (op.perform p scope) := by
  obtain ⟨hRemove, hForgets⟩ := hSpares
  have hNot : op.forgets = true → False := by
    rw [hForgets]
    exact fun h => by cases h
  refine perform_keeps h ?_ ?_ (fun _ => h.flush hTidy (flushed p scope))
    (fun shared load hLoad s hS => hS.withLoader hLoad)
    (fun s _ _ hS => ⟨hS.get, hS.undeleted⟩) (fun h => (hNot h).elim)
    (fun h => (hNot h).elim) (fun h => (hNot h).elim)
  · exact fun other _ => persist_keeps (I := Stays key ref) h
      ⟨h.get, fun hMem =>
        h.undeleted (Queue.mem_of_mem_enqueue hMem (by simp))⟩
  · rintro other rfl
    refine remove_keeps (I := Stays key ref) h ⟨h.get, fun hMem => ?_⟩
    rcases Queue.mem_enqueue.1 hMem with hOld | hLast
    · exact h.undeleted hOld
    · cases hLast
      exact hRemove rfl

end Stays

/-! ## Lookups -/

/-- In a state the driver answers the query for an identifier with rows only
that have this identifier. -/
def Faithful (p : Persister) (type : String) (id : EntityId) (t : σ) : Prop :=
  ∀ (conn : ConnId) (d : Descriptor) (found : ResultSet),
    p.schema.descriptor type = .ok d →
    (Driver.call conn (.query (.selectBy d.table d.identifier.name)
      [id.toValue]) t).1 = .ok found →
    ∀ row ∈ found.rows, row.getRequired d.identifier.name = .ok id.toValue

/-- After a flush that succeeds nothing waits. -/
theorem queue_of_flushed {scope after : Scope σ}
    (h : Flushed p scope (.ok ()) after) : after.session.queue = {} := by
  cases h with
  | idle _ _ hQueue => exact hQueue
  | committed _ _ _ _ _ => rfl

/-- An entity that is loaded for an identifier is looked after under it. -/
theorem withLoader_gives (hAlone : p.schema.IdentifierAlone) {type : String}
    {id : EntityId} {scope after : Scope σ} (hTidy : Tidy p scope)
    (hFaithful : Faithful p type id scope.env.driver)
    (hLoad : (withLoader p true fun L => L.loadById type id).run scope =
      (.ok (some ref), after)) :
    after.session.context.get? ⟨type, id⟩ = some ref ∧
      after.session.queue = scope.session.queue := by
  have hLoaded := loaded p true (fun L => L.loadById type id) scope
    (Q := fun found work => ∀ other ∈ found,
      work.context.get? ⟨type, id⟩ = some other)
    fun conn _ _ => (Loader.loadById_leads (keeps_loading hAlone ..) type id
      (hTidy.loading true)).imp fun found work _ _ hFound other hMem => ?_
  · rw [hLoad] at hLoaded
    cases hLoaded with
    | done _ _ _ hQ => exact ⟨hQ ref rfl, rfl⟩
  · rcases hFound other hMem with hGet | ⟨d, row, hD, hAnswers, hMapped⟩
    · exact hGet
    · obtain ⟨rows, hCall, hRow⟩ := hAnswers
      obtain ⟨e, mapped, hRead, hId, hGet⟩ := hMapped
      have hType : d.typeName = type := Schema.typeName_of_descriptor hD
      have hSame := Loader.requireId_of_readRow hAlone (hType ▸ hD)
        (hFaithful conn d rows hD hCall row hRow) hRead hId
      rw [hSame, hType] at hGet
      exact hGet

/-- An entity that is found is looked after under the key that was asked
for. -/
theorem stays_of_find (hAlone : p.schema.IdentifierAlone) {type : String}
    {id : EntityId} {scope found : Scope σ} (hTidy : Tidy p scope)
    (hFaithful : Faithful p type id ((flush p).run scope).2.env.driver)
    (hFind : (find p type id).run scope = (.ok (some ref), found)) :
    Stays ⟨type, id⟩ ref found := by
  have hFlushed := flushed p scope
  have hTidyFlush := hTidy.flush hFlushed
  rw [find_run] at hFind
  generalize (flush p).run scope = result at hFlushed hTidyFlush hFaithful hFind
  obtain ⟨_ | _, after⟩ := result
  · cases hFind
  · have hQueue := queue_of_flushed hFlushed
    have hNone : (⟨.delete, ref⟩ : Action) ∉ after.session.queue.pending := by
      rw [hQueue]
      exact fun hMem => by cases hMem
    simp only at hFind
    cases hGet : after.session.context.get? ⟨type, id⟩ with
    | some there =>
        rw [hGet] at hFind
        cases hFind
        exact ⟨hGet, hNone⟩
    | none =>
        rw [hGet] at hFind
        have hLoad := withLoader_gives hAlone hTidyFlush hFaithful hFind
        exact ⟨hLoad.1, hLoad.2 ▸ hNone⟩

/-! ## Runs -/

theorem tidy_of_reaches (hAlone : p.schema.IdentifierAlone)
    {start scope : Scope σ} (hTidy : Tidy p start)
    (h : Reaches p Proper (Respects p) start scope) : Tidy p scope :=
  h.invariant (fun _ _ hTidy hProper => hTidy.perform hAlone hProper)
    (fun _ _ hTidy hRespects => hTidy.outside hRespects) hTidy

/-- An entity that is never deleted and never forgotten stays. -/
theorem stays_of_reaches (hAlone : p.schema.IdentifierAlone)
    {start scope : Scope σ} (hTidy : Tidy p start)
    (hStays : Stays key ref start)
    (h : Reaches p (fun scope op => Proper scope op ∧ op.Spares ref)
      (Respects p) start scope) : Tidy p scope ∧ Stays key ref scope :=
  h.invariant (I := fun scope => Tidy p scope ∧ Stays key ref scope)
    (fun _ _ hBoth hAllowed => ⟨hBoth.1.perform hAlone hAllowed.1,
      hBoth.2.perform hBoth.1 hAllowed.2⟩)
    (fun _ _ hBoth hRespects => ⟨hBoth.1.outside hRespects,
      hBoth.2.get, hBoth.2.undeleted⟩)
    ⟨hTidy, hStays⟩

/-- On every run of a session that knows nothing at first, the entities that
it looks after are under their own keys, each under one key and each with a
snapshot. A key that is looked up twice gives one instance with that key,
whatever is done in between that spares it. -/
theorem identity_map (hAlone : p.schema.IdentifierAlone)
    {start scope : Scope σ} (hContext : start.session.context = {})
    (hQueue : start.session.queue = {})
    (hReaches : Reaches p Proper (Respects p) start scope) :
    (∀ key ref, scope.session.context.get? key = some ref →
      scope.heap.Bears p.schema ref key) ∧
    (∀ key other ref, scope.session.context.get? key = some ref →
      scope.session.context.get? other = some ref → key = other) ∧
    Assoc.keys scope.session.context.snapshots =
      Assoc.keys scope.session.context.entities ∧
    ∀ type id ref ref' found later last,
      Faithful p type id ((flush p).run scope).2.env.driver →
      (find p type id).run scope = (.ok (some ref), found) →
      Reaches p (fun scope op => Proper scope op ∧ op.Spares ref)
        (Respects p) found later →
      (find p type id).run later = (.ok (some ref'), last) →
      ref' = ref ∧ found.heap.Bears p.schema ref ⟨type, id⟩ ∧
        last.heap.Bears p.schema ref ⟨type, id⟩ := by
  have hStart : Tidy p start := by
    refine tidy_of_coherent ?_ hQueue
    rw [hContext]
    exact Context.coherent_empty
  have hTidy := tidy_of_reaches hAlone hStart hReaches
  have hCoherent := hTidy.coherent
  refine ⟨hCoherent.bears, fun _ _ _ => hCoherent.key_unique, hCoherent.keys,
    ?_⟩
  intro type id ref ref' found later last hFaithful hFind hBetween hAgain
  have hFound : Tidy p found := by
    have hProper : Proper scope (.find type id) := trivial
    have hTidyFound := hTidy.perform hAlone hProper
    rw [Operation.perform, hFind] at hTidyFound
    exact hTidyFound
  have hStays := stays_of_find hAlone hTidy hFaithful hFind
  obtain ⟨hTidyLater, hStaysLater⟩ :=
    stays_of_reaches hAlone hFound hStays hBetween
  have hTidyFlush := hTidyLater.flush (flushed p later)
  have hStaysFlush := hStaysLater.flush hTidyLater (flushed p later)
  rw [find_run] at hAgain
  generalize (flush p).run later = result at hAgain hTidyFlush hStaysFlush
  obtain ⟨_ | _, after⟩ := result
  · cases hAgain
  · simp only [hStaysFlush.get] at hAgain
    cases hAgain
    exact ⟨rfl, hFound.coherent.bears _ _ hStays.get,
      hTidyFlush.coherent.bears _ _ hStaysFlush.get⟩

end Session

namespace Notes

/-- A session on a store with one note. -/
def fresh : Scope Store := scope [[.int 7, .text "c"]] [] { id := 0 }

def begun : Scope Store := Operation.begin.perform persister fresh

/-- The note has been looked up. -/
def found : Scope Store :=
  (Operation.find "Note" (.int 7)).perform persister begun

/-- All notes have been loaded apart from the session since then. -/
def loaded : Scope Store := (Operation.findAll "Note").perform persister found

theorem faithful_begun :
    Session.Faithful persister "Note" (.int 7)
      ((Session.flush persister).run begun).2.env.driver := by
  intro conn d rows hD hCall row hRow
  obtain ⟨_, rfl⟩ := descriptor_schema hD
  have hAnswer : (Driver.call conn (.query (.selectBy "notes" "id")
      [EntityId.toValue (.int 7)])
      ((Session.flush persister).run begun).2.env.driver).1 =
      .ok ⟨some ["id", "title"], [⟨["id", "title"], [.int 7, .text "c"]⟩], 1⟩ :=
    rfl
  cases hAnswer.symm.trans hCall
  cases List.mem_singleton.1 hRow
  rfl

end Notes

/-- A note that is looked up again is the instance that was found first, and
not the other one that has been loaded since. -/
theorem Session.identity_map_of_notes :
    Notes.loaded.heap.next = 2 ∧
      ((find Notes.persister "Note" (.int 7)).run Notes.loaded).1 =
        .ok (some 0) ∧
      Notes.found.heap.Bears Notes.schema 0 ⟨"Note", .int 7⟩ := by
  have hFind : (find Notes.persister "Note" (.int 7)).run Notes.begun =
      (.ok (some 0), Notes.found) := rfl
  obtain ⟨ref, hAgain⟩ : ∃ ref,
      ((find Notes.persister "Note" (.int 7)).run Notes.loaded).1 =
        .ok (some ref) := ⟨_, rfl⟩
  have hBegun : Reaches Notes.persister Proper (Respects Notes.persister)
      Notes.fresh Notes.begun := .operation .start .begin trivial
  have hRun := identity_map Notes.identifierAlone_schema rfl rfl hBegun
  obtain ⟨hSame, hBears, _⟩ := hRun.2.2.2 "Note" (.int 7) 0 ref Notes.found
    Notes.loaded _ Notes.faithful_begun hFind
    (.operation .start (.findAll "Note") ⟨trivial, by simp, rfl⟩)
    (Prod.ext hAgain rfl)
  rw [hSame] at hAgain
  exact ⟨rfl, hAgain, hBears⟩

end UnitOfWork
