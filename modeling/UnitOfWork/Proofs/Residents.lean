import UnitOfWork.Database
import UnitOfWork.Proofs.Building
import UnitOfWork.Proofs.Failures
import UnitOfWork.Proofs.Lookups

/-!
# Loads and the entities that are there

Whatever a session loads, the entities that it looks after already are not
disturbed: each stays under its key with the values that it has, written or
not, and with its snapshot. A load that fails leaves the context as it found
it, and one that succeeds adds entities for rows that it read. All it sends are
queries.

The entities that are there are instances that exist. That holds of every
session that is only handed instances that exist.

## Main results

* `Session.grounded_of_reaches`: what a session refers to exists;
* `Session.intact_of_load`: how a load leaves a session;
* `Database.ask_of_error`, `Database.ask_of_ok`: what becomes of a collection
  whose members are needed;
* `Database.loads_disturb_nothing`: all of this of lookups and of collections.
-/

namespace UnitOfWork

variable {σ α : Type}

/-! ## Sessions that refer to what exists -/

/-- Only what is inserted is looked after newly, so if all of that exists,
everything does. -/
theorem Action.entity_lt_of_executeAll [Driver σ] {p : Persister}
    {conn : ConnId} {actions : List Action} {work last : Work σ} {n : Nat}
    (hInserts : ∀ ref, ⟨.insert, ref⟩ ∈ actions → ref < n)
    (hStart : ∀ key ref, work.context.get? key = some ref → ref < n)
    (hRun : (executeAll p conn actions).run work = (.ok (), last)) :
    ∀ key ref, last.context.get? key = some ref → ref < n := by
  induction actions generalizing work with
  | nil =>
      cases hRun
      exact hStart
  | cons action rest ih =>
      obtain ⟨mid, hFollow, hGo⟩ := executeAll_cons_ok hRun
      refine ih (fun ref hMem => hInserts ref (List.mem_cons_of_mem _ hMem)) ?_
        hGo
      intro key ref hGet
      rcases (get?_of_follow hFollow).1 key ref hGet with hOld | rfl
      · exact hStart key ref hOld
      · exact hInserts ref (List.mem_cons_self ..)

namespace Session

/-- The instances that a session refers to exist. -/
structure Grounded (scope : Scope σ) : Prop where
  entities : ∀ key ref, scope.session.context.get? key = some ref →
    ref < scope.heap.next
  pending : ∀ action ∈ scope.session.queue.pending,
    action.entity < scope.heap.next

/-- An instance that is persisted exists. -/
def Handed (scope : Scope σ) : Operation → Prop
  | .persist ref => ref < scope.heap.next
  | _ => True

namespace Grounded

/-- With nothing queued only the context counts. -/
theorem of_entities {scope : Scope σ}
    (hEntities : ∀ key ref, scope.session.context.get? key = some ref →
      ref < scope.heap.next)
    (hQueue : scope.session.queue = {}) : Grounded scope where
  entities := hEntities
  pending := by
    rw [hQueue]
    exact fun _ hMem => by cases hMem

/-- Instances do not vanish. -/
theorem of_next {scope after : Scope σ} (h : Grounded scope)
    (hContext : after.session.context = scope.session.context)
    (hQueue : after.session.queue = scope.session.queue)
    (hNext : scope.heap.next ≤ after.heap.next) : Grounded after where
  entities := fun key ref hGet =>
    Nat.lt_of_lt_of_le (h.entities key ref (hContext ▸ hGet)) hNext
  pending := fun action hMem =>
    Nat.lt_of_lt_of_le (h.pending action (hQueue ▸ hMem)) hNext

theorem of_keeping {scope after : Scope σ} (h : Grounded scope)
    (hKeeping : Keeping scope after) : Grounded after :=
  h.of_next hKeeping.context hKeeping.queue
    (Nat.le_of_eq (congrArg Heap.next hKeeping.heap.symm))

theorem queueing {scope : Scope σ} {action : Action} (h : Grounded scope)
    (hLt : action.entity < scope.heap.next) :
    Grounded (Session.queueing action scope) where
  entities := h.entities
  pending := by
    intro other hMem
    rcases Queue.mem_enqueue.1 hMem with hOld | rfl
    · exact h.pending other hOld
    · exact hLt

theorem persist {p : Persister} {scope : Scope σ} {ref : Ref}
    (h : Grounded scope) (hLt : ref < scope.heap.next) :
    Grounded ((Session.persist p ref).run scope).2 :=
  persist_keeps h (h.queueing hLt)

theorem remove {p : Persister} {scope : Scope σ} {ref : Ref}
    (h : Grounded scope) : Grounded ((Session.remove p ref).run scope).2 := by
  rcases remove_cases p ref scope with hSame | ⟨hContains, hQueued⟩
  · rw [hSame]
    exact h
  · rw [hQueued]
    obtain ⟨key?, _, hFound⟩ := except_bind_eq_ok.1 hContains
    cases key? with
    | none => cases hFound
    | some key =>
        exact h.queueing (h.entities key ref (eq_of_beq (Except.ok.inj hFound)))

variable [Driver σ]

/-- A flush that succeeds may insert, and one that fails leaves the context. -/
theorem flush {p : Persister} {scope after : Scope σ} {r : Except Error Unit}
    (h : Grounded scope) (hFlushed : Flushed p scope r after) :
    Grounded after := by
  have hNext : after.heap.next = scope.heap.next :=
    (keyed_of_flushed hFlushed).next
  have hSame : ∀ key ref, scope.session.context.get? key = some ref →
      ref < after.heap.next :=
    fun key ref hGet => hNext ▸ h.entities key ref hGet
  cases hFlushed with
  | closed _ => exact h
  | unreadable _ _ => exact h
  | idle _ _ _ => exact h
  | unconnected _ _ _ _ _ => exact of_entities hSame rfl
  | rolledBack _ _ _ _ _ _ => exact of_entities hSame rfl
  | discarded _ _ _ _ _ _ => exact of_entities hSame rfl
  | committed _ hDiff _ _ hRun =>
      refine of_entities ?_ rfl
      rw [hNext]
      cases hRun with
      | committed _ hExecuted _ _ =>
          refine Action.entity_lt_of_executeAll ?_ ?_ hExecuted
          · intro ref hMem
            rcases mem_planned.1 hMem with hPending | ⟨d, _, hNo⟩
            · exact h.pending _ hPending
            · cases hNo
          · intro key ref hGet
            rw [context_opened, Context.get?, Context.entities_of_diff hDiff]
              at hGet
            exact h.entities key ref hGet

/-- A load makes the instances that it registers. -/
theorem keeps (L : Loader) (n : Nat) : L.Keeps (fun _ _ => True)
    fun work : Work σ => n ≤ work.env.heap.next ∧
      ∀ key ref, work.context.get? key = some ref →
        ref < work.env.heap.next where
  query := fun _ _ hI => ⟨hI, fun _ _ _ _ => trivial⟩
  register := by
    intro work d row e id _ _ _ _ _ hI
    have hNext : ((Loader.register d id e).run work).2.env.heap.next =
        work.env.heap.next + 1 := Heap.next_alloc ..
    rw [hNext]
    refine ⟨Nat.le_succ_of_le hI.1, fun key ref hGet => ?_⟩
    by_cases hKey : key = ⟨d.typeName, id⟩
    · subst hKey
      cases (Context.get?_register_self work.context _ _ _).symm.trans hGet
      exact Nat.lt_succ_self _
    · exact Nat.lt_succ_of_lt (hI.2 key ref
        ((Context.get?_register_ne hKey ..).symm.trans hGet))
  assign := by
    intro work d id ref relation slot _ _ _ hI
    have hNext : ((Loader.assign ref relation.field slot).run
        work).2.env.heap.next = work.env.heap.next := Heap.next_modify ..
    rw [hNext]
    exact hI
  inspect := fun _ hI => hI

theorem withLoader {p : Persister} {shared : Bool} {scope : Scope σ}
    {load : Loader → Step (Work σ) α} (h : Grounded scope)
    (hLoad : Loader.Leading load) :
    Grounded ((Session.withLoader p shared load).run scope).2 := by
  have hStart : ∀ key ref, (loadStart shared scope).get? key = some ref →
      ref < scope.env.heap.next := by
    cases shared with
    | true => exact h.entities
    | false => exact fun _ _ hGet => by cases hGet
  have hLoaded := loaded p shared load scope fun _ _ _ =>
    hLoad (keeps _ scope.heap.next) ⟨Nat.le_refl _, hStart⟩
  generalize (Session.withLoader p shared load).run scope = result at hLoaded ⊢
  obtain ⟨r, after⟩ := result
  cases hLoaded with
  | unconnected _ _ => exact h
  | failed _ hI => exact h.of_next rfl rfl hI.1
  | done _ hI _ _ =>
      have hPending := fun action hMem =>
        Nat.lt_of_lt_of_le (h.pending action hMem) hI.1
      cases shared with
      | true => exact ⟨hI.2, hPending⟩
      | false => exact h.of_next rfl rfl hI.1

theorem perform {p : Persister} {scope : Scope σ} {op : Operation}
    (h : Grounded scope) (hHanded : Handed scope op) :
    Grounded (op.perform p scope) := by
  refine perform_keeps (I := Grounded) h ?_ (fun _ _ => h.remove)
    (fun _ => h.flush (flushed p scope))
    (fun shared load hLoad s hS => hS.withLoader hLoad)
    (fun _ _ _ hS => ⟨hS.entities, hS.pending⟩)
    (fun _ _ _ => of_entities (fun _ _ hGet => by cases hGet) rfl)
    (fun _ s hS => hS.of_keeping (keeping_releaseConnection s))
    (fun _ s hS => hS.of_keeping (rolledBack s).keeping)
  rintro ref rfl
  exact h.persist hHanded

end Grounded

/-- On every run a session refers to instances that exist, as long as it is
handed such instances and none vanishes. -/
theorem grounded_of_reaches [Driver σ] {p : Persister} {start scope : Scope σ}
    (hStart : Grounded start)
    (hRun : Reaches p Handed
      (fun scope backend => scope.heap.next ≤ backend.env.heap.next)
      start scope) : Grounded scope :=
  hRun.invariant (fun _ _ h hHanded => h.perform hHanded)
    (fun _ _ h hNext => h.of_next rfl rfl hNext) hStart

/-! ## What a load leaves -/

variable [Driver σ]

/-- How a session is left by a load. -/
structure Intact (p : Persister) (scope : Scope σ) (r : Except Error α)
    (after : Scope σ) : Prop where
  /-- Only queries are sent. -/
  asked : ∃ conn, scope.env.Asked conn after.env
  failed : ∀ e, r = .error e →
    after.session.context = scope.session.context
  /-- All instances stay what they are. -/
  next : scope.heap.next ≤ after.heap.next
  kept : ∀ ref < scope.heap.next, after.heap.get ref = scope.heap.get ref
  /-- What has been looked after still is. -/
  resident : scope.session.context.Within after.session.context
  /-- Nothing changes under a key, snapshots included, but that an entity is
  added whose row was read. -/
  added : ∀ key,
    after.session.context.get? key = scope.session.context.get? key ∧
      after.session.context.snapshot? key =
        scope.session.context.snapshot? key ∨
    scope.session.context.get? key = none ∧ ∃ conn d row e,
      p.schema.descriptor key.type = .ok d ∧
        scope.env.Read conn d row after.env ∧
        Loader.readRow d row = .ok e ∧ Loader.requireId d e = .ok key.id
  steady : Steady scope.session after.session

theorem Intact.refl (p : Persister) {scope : Scope σ} {r : Except Error α} :
    Intact p scope r scope where
  asked := ⟨0, .refl ..⟩
  failed := fun _ _ => rfl
  next := Nat.le_refl _
  kept := fun _ _ => rfl
  resident := .refl _
  added := fun _ => Or.inl ⟨rfl, rfl⟩
  steady := ⟨rfl, rfl, rfl⟩

end Session

namespace Session

/-- The entities that a session looks after are the same instances under the
same keys, with the same values and the same snapshots. -/
def Retains (scope after : Scope σ) : Prop :=
  ∀ key ref, scope.session.context.get? key = some ref →
    after.session.context.get? key = some ref ∧
      after.heap.get ref = scope.heap.get ref ∧
      after.session.context.snapshot? key =
        scope.session.context.snapshot? key

theorem Intact.retains [Driver σ] {p : Persister} {scope after : Scope σ}
    {r : Except Error α} (h : Intact p scope r after)
    (hGrounded : Grounded scope) : Retains scope after := by
  intro key ref hGet
  refine ⟨h.resident key ref hGet,
    h.kept ref (hGrounded.entities key ref hGet), ?_⟩
  rcases h.added key with ⟨_, hSnapshot⟩ | ⟨hFree, _⟩
  · exact hSnapshot
  · cases hFree.symm.trans hGet

end Session

/-- A load that leaves alone what is there, and builds what it adds. -/
def Loader.Building [Driver σ] (load : Loader → Step (Work σ) α) : Prop :=
  ∀ (L : Loader) (work : Work σ), L.Yields NoRef work (load L) fun _ after =>
    L.Extends NoRow NoRef work after

theorem Loader.building_loadById [Driver σ] (type : String) (id : EntityId) :
    Building (σ := σ) fun L => L.loadById type id :=
  fun L work => (loadById_yields L type id work).imp fun _ _ h => h.1

theorem Loader.building_loadAll [Driver σ] (type : String) :
    Building (σ := σ) fun L => L.loadAll type :=
  fun L work => (loadAll_yields L type work).imp fun _ _ h => h.1

theorem Loader.building_loadMembers [Driver σ] (source : Source) :
    Building (σ := σ) fun L => L.loadMembers source :=
  fun L work => (loadMembers_yields L source work).imp fun _ _ h => h.1

namespace Loader

variable [Driver σ] {L : Loader}

/-- What follows from what a step of a load leaves alone, whether it fails or
not. -/
theorem Yields.leads {Owned : Ref → Prop} {work : Work σ}
    {m : Step (Work σ) α} {Q R : α → Work σ → Prop} {I : Work σ → Prop}
    (h : L.Yields Owned work m Q)
    (hI : ∀ after, L.Spares Owned work after → I after)
    (hR : ∀ a after, Q a after →
      work.context.Within after.context ∧ R a after) :
    Work.Leads I work m R := by
  obtain ⟨hSpares, hQ⟩ := h
  unfold Work.Leads
  rcases hRun : m.run work with ⟨e | a, after⟩
  · rw [hRun] at hSpares
    exact hI after hSpares
  · rw [hRun] at hSpares hQ
    exact ⟨hI after hSpares, hR a after (hQ a rfl)⟩

/-- Under a key nothing changes, or an entity is added whose row was read. -/
theorem Extends.entry_cases {before after : Work σ}
    (h : L.Extends NoRow NoRef before after) (key : Key) :
    after.context.get? key = before.context.get? key ∧
      after.context.snapshot? key = before.context.snapshot? key ∨
    before.context.get? key = none ∧ ∃ d row e,
      L.persister.schema.descriptor key.type = .ok d ∧
        before.env.Read L.connection d row after.env ∧
        readRow d row = .ok e ∧ requireId d e = .ok key.id := by
  cases hBefore : before.context.get? key with
  | some ref =>
      have hAfter := h.context key ref hBefore
      exact Or.inl ⟨hAfter, h.snapshots key (hAfter.trans hBefore.symm)⟩
  | none =>
      cases hAfter : after.context.get? key with
      | none => exact Or.inl ⟨rfl, h.snapshots key (hAfter.trans hBefore.symm)⟩
      | some ref =>
          rcases h.added key ref hAfter with
            hOld | ⟨_, _, d, row, hKnows, hType, hRow, e, _, hRead, hId, _⟩
          · cases hBefore.symm.trans hOld
          · rw [Knows, hType] at hKnows
            exact Or.inr ⟨rfl, d, row, e, hKnows,
              hRow.resolve_left fun hNo => hNo, hRead, hId⟩

end Loader

namespace Session

variable [Driver σ] {p : Persister}

/-- A load that a session runs disturbs nothing, be it on the session's own
context or on a new one. -/
theorem intact_of_load {load : Loader → Step (Work σ) α}
    (hLoad : Loader.Building load) (shared : Bool) (scope : Scope σ) :
    Intact p scope ((withLoader p shared load).run scope).1
      ((withLoader p shared load).run scope).2 := by
  have hSteady := steady_withLoader p shared load scope
  let start : Work σ := ⟨scope.env, loadStart shared scope⟩
  let loader (conn : ConnId) : Loader := ⟨p, conn, some scope.session.id⟩
  have hLoaded := loaded p shared load scope
    (I := fun work => ∃ conn, (loader conn).Spares Loader.NoRef start work)
    (Q := fun _ work => ∃ conn,
      (loader conn).Extends Loader.NoRow Loader.NoRef start work)
    fun conn pool _ => (hLoad (loader conn) start).leads
      (fun _ h => ⟨conn, h⟩) fun _ _ h => ⟨h.context, conn, h⟩
  generalize (withLoader p shared load).run scope = result at hLoaded hSteady ⊢
  obtain ⟨r, after⟩ := result
  cases hLoaded with
  | unconnected _ _ => exact .refl p
  | failed _ hI =>
      obtain ⟨conn, hSpares⟩ := hI
      exact ⟨⟨conn, hSpares.asked⟩, fun _ _ => rfl, hSpares.next,
        fun ref hLt => hSpares.kept ref hLt not_false, .refl _,
        fun _ => Or.inl ⟨rfl, rfl⟩, hSteady⟩
  | @done _ _ work _ _ _ _ hQ =>
      obtain ⟨conn, hGrown⟩ := hQ
      have hKept : ∀ ref < scope.heap.next,
          work.env.heap.get ref = scope.heap.get ref :=
        fun ref hLt => hGrown.kept ref hLt not_false
      cases shared with
      | false =>
          exact ⟨⟨conn, hGrown.asked⟩, nofun, hGrown.next, hKept, .refl _,
            fun _ => Or.inl ⟨rfl, rfl⟩, hSteady⟩
      | true =>
          refine ⟨⟨conn, hGrown.asked⟩, nofun, hGrown.next, hKept,
            hGrown.context, ?_, hSteady⟩
          intro key
          rcases hGrown.entry_cases key with hSame | ⟨hFree, hAdded⟩
          · exact Or.inl hSame
          · exact Or.inr ⟨hFree, conn, hAdded⟩

/-- So do reading a collection and, after their flush, the lookups. -/
theorem intact_of_loadMembers (source : Source) (scope : Scope σ) :
    Intact p scope ((loadMembers p source).run scope).1
      ((loadMembers p source).run scope).2 := by
  rw [loadMembers_run]
  cases p.schema.descriptor source.target with
  | error e => exact .refl p
  | ok d =>
      exact intact_of_load (Loader.building_loadMembers source) true scope

theorem intact_of_find (type : String) (id : EntityId)
    {scope flushed : Scope σ}
    (hFlush : (flush p).run scope = (.ok (), flushed)) :
    Intact p flushed ((find p type id).run scope).1
      ((find p type id).run scope).2 := by
  rw [find_run, hFlush]
  simp only
  cases flushed.session.context.get? ⟨type, id⟩ with
  | some ref => exact .refl p
  | none =>
      exact intact_of_load (Loader.building_loadById type id) true flushed

theorem intact_of_findAll (type : String) {scope flushed : Scope σ}
    (hFlush : (flush p).run scope = (.ok (), flushed)) :
    Intact p flushed ((findAll p type).run scope).1
      ((findAll p type).run scope).2 := by
  rw [findAll_run, hFlush]
  simp only
  cases p.schema.descriptor type with
  | error e => exact .refl p
  | ok d => exact intact_of_load (Loader.building_loadAll type) false flushed

/-- A lookup ends with its flush if that fails, and else it disturbs nothing
that the flush leaves. -/
def LooksUp (p : Persister) (scope : Scope σ)
    (lookup : Step (Scope σ) α) : Prop :=
  match (flush p).run scope, lookup.run scope with
  | (.error e, flushed), (r, after) => r = .error e ∧ after = flushed
  | (.ok _, flushed), (r, after) =>
    Intact p flushed r after ∧ Retains flushed after

theorem looksUp_of_intact {scope : Scope σ} {lookup : Step (Scope σ) α}
    (hGrounded : Grounded scope)
    (hFailed : ∀ e flushed, (flush p).run scope = (.error e, flushed) →
      lookup.run scope = (.error e, flushed))
    (hIntact : ∀ flushed, (flush p).run scope = (.ok (), flushed) →
      Intact p flushed (lookup.run scope).1 (lookup.run scope).2) :
    LooksUp p scope lookup := by
  have hEnd := flushed p scope
  unfold LooksUp
  rcases hFlush : (flush p).run scope with ⟨e | _, flushed⟩
  · rw [hFailed e flushed hFlush]
    exact ⟨rfl, rfl⟩
  · rw [hFlush] at hEnd
    have hDone := hIntact flushed hFlush
    exact ⟨hDone, hDone.retains (hGrounded.flush hEnd)⟩

end Session

/-! ## Collections that are read -/

/-- Putting a value where it is changes nothing. -/
theorem Assoc.insert_of_lookup {κ β : Type} [DecidableEq κ] {key : κ}
    {value : β} {pairs : List (κ × β)}
    (h : List.lookup key pairs = some value) :
    Assoc.insert key value pairs = pairs := by
  induction pairs with
  | nil => cases h
  | cons pair rest ih =>
      obtain ⟨k, v⟩ := pair
      rw [Assoc.lookup_cons] at h
      by_cases hk : k = key
      · rw [if_pos hk] at h
        rw [Assoc.insert, if_pos hk, hk, Option.some.inj h]
      · rw [if_neg hk] at h
        rw [Assoc.insert, if_neg hk, ih h]

/-- A field with an unresolved collection has just that content. -/
theorem Instance.lookup_of_unresolved {e : Instance} {field : String}
    {source : Source} (h : e.toMany field = .unresolved source) :
    e.fields.lookup field = some (.toMany (.unresolved source)) := by
  unfold toMany at h
  split at h
  · rename_i hLookup
    rw [hLookup, h]
  · cases h

theorem Instance.set_of_unresolved {e : Instance} {field : String}
    {source : Source} (h : e.toMany field = .unresolved source) :
    e.set field (.toMany (.unresolved source)) = e := by
  unfold set
  rw [Assoc.insert_of_lookup (lookup_of_unresolved h)]

/-- An instance that has an unresolved collection exists. -/
theorem Heap.lt_of_unresolved {heap : Heap} {ref : Ref} {field : String}
    {source : Source} (h : (heap.get ref).toMany field = .unresolved source) :
    ref < heap.next := by
  by_contra hNot
  have hNone : heap.instances[ref]? = none :=
    List.getElem?_eq_none (Nat.le_of_not_lt hNot)
  rw [Heap.get, hNone] at h
  cases h

/-- A change that leaves an instance as it is changes nothing. -/
theorem Heap.modify_of_eq {heap : Heap} {ref : Ref}
    {f : Instance → Instance} (h : f (heap.get ref) = heap.get ref) :
    heap.modify ref f = heap := by
  obtain ⟨instances⟩ := heap
  refine congrArg Heap.mk (List.ext_getElem? fun i => ?_)
  rw [List.getElem?_modify]
  by_cases hRef : ref = i
  · subst hRef
    cases hGet : instances[ref]? with
    | none => rfl
    | some e =>
        simp only [Heap.get, hGet, Option.getD_some] at h
        simp [h]
  · simp [hRef]

namespace Database

variable [Driver σ] {db : Database σ} {id : Nat} {session : Session}
  {source : Source} {owner : Ref} {field : String} {request : Request}

/-- The members of a collection are loaded through the session that it was
loaded by. -/
theorem loadMembers_run (hSession : db.session? id = some session)
    (hOpen : session.isOpen = true) (hSource : source.session = some id) :
    (loadMembers source).run db =
      (((Session.loadMembers db.persister source).run
          ⟨db.backend, session⟩).1,
        { db with
          backend := ((Session.loadMembers db.persister source).run
            ⟨db.backend, session⟩).2.backend
          sessions := Assoc.insert id
            ((Session.loadMembers db.persister source).run
              ⟨db.backend, session⟩).2.session db.sessions }) := by
  rw [loadMembers, Step.bind_run, Step.get_run]
  simp only [hSource, hSession, hOpen, if_true]
  simp only [inSession, Step.run, hSession]

/-- The database with a collection in a field of an entity. -/
def giving (db : Database σ) (owner : Ref) (field : String)
    (members : Collection Source) : Database σ :=
  { db with backend := { db.backend with
      env := db.backend.env.update owner fun e =>
        e.set field (.toMany members) } }

theorem ask_run (owner : Ref) (field : String) (request : Request)
    (db : Database σ) :
    (ask owner field request).run db =
      let asked := ((db.heap.get owner).toMany field).perform
        (fun source => (loadMembers (σ := σ) source).run) request db
      (asked.1, asked.2.2.giving owner field asked.2.1) := rfl

/-- A request that needs the members of a collection loads them, and if that
fails, it has not touched the collection. -/
theorem ask_of_error {after : Database σ} {e : Error}
    (hMembers : (db.heap.get owner).toMany field = .unresolved source)
    (hLoaded : request ≠ .isLoaded) (hDebug : request ≠ .debug)
    (hLoad : (loadMembers source).run db = (.error e, after))
    (hSame : after.heap.get owner = db.heap.get owner) :
    (ask owner field request).run db = (.error e, after) := by
  have hHeap : after.backend.env.heap.modify owner (fun x =>
      x.set field (.toMany (.unresolved source))) = after.backend.env.heap := by
    refine Heap.modify_of_eq (Instance.set_of_unresolved ?_)
    rw [← hMembers]
    exact congrArg (·.toMany field) hSame
  rw [ask_run, hMembers]
  simp only
  rw [Collection.perform_unresolved _ source hLoaded hDebug, hLoad]
  simp only [giving, Env.update, hHeap]

/-- If the members can be loaded, the request is answered as by the list of
them. -/
theorem ask_of_ok {after : Database σ} {items : List Ref}
    (hMembers : (db.heap.get owner).toMany field = .unresolved source)
    (hLoaded : request ≠ .isLoaded) (hDebug : request ≠ .debug)
    (hLoad : (loadMembers source).run db = (.ok items, after)) :
    (ask owner field request).run db = (.ok (request.onList items).1,
      after.giving owner field (.resolved (request.onList items).2)) := by
  rw [ask_run, hMembers]
  simp only
  rw [Collection.perform_unresolved _ source hLoaded hDebug, hLoad]
  simp only [Collection.perform_resolved]

/-- However the members are loaded, all instances stay what they are. -/
theorem get_of_loadMembers (source : Source) (db : Database σ) {ref : Ref}
    (hLt : ref < db.heap.next) :
    ((loadMembers source).run db).2.heap.get ref = db.heap.get ref := by
  cases hSource : source.session with
  | none =>
      rw [loadMembers, Step.bind_run, Step.get_run]
      simp only [hSource]
      rfl
  | some id =>
      cases hSession : db.session? id with
      | none =>
          rw [loadMembers, Step.bind_run, Step.get_run]
          simp only [hSource, hSession]
          rfl
      | some session =>
          cases hOpen : session.isOpen with
          | false =>
              rw [loadMembers, Step.bind_run, Step.get_run]
              simp only [hSource, hSession, hOpen]
              rfl
          | true =>
              rw [loadMembers_run hSession hOpen hSource]
              exact (Session.intact_of_loadMembers source
                ⟨db.backend, session⟩).kept ref hLt

/-- Looking entities up, once the flush that comes first has succeeded, and
reading a collection disturb nothing that the session looks after, and fail
without a trace in it; and a collection whose members cannot be loaded stays as
it is, to be read again. -/
theorem loads_disturb_nothing (hSession : db.session? id = some session)
    (hGrounded : Session.Grounded ⟨db.backend, session⟩) :
    (∀ type wanted, Session.LooksUp db.persister ⟨db.backend, session⟩
      (Session.find db.persister type wanted)) ∧
    (∀ type, Session.LooksUp db.persister ⟨db.backend, session⟩
      (Session.findAll db.persister type)) ∧
    (∀ source,
      match (Session.loadMembers db.persister source).run
        ⟨db.backend, session⟩ with
      | (r, left) =>
        Session.Intact db.persister ⟨db.backend, session⟩ r left ∧
          Session.Retains ⟨db.backend, session⟩ left ∧
          (session.isOpen = true → source.session = some id →
            ∃ after, (loadMembers source).run db = (r, after) ∧
              after.session? id = some left.session ∧
              after.backend = left.backend)) ∧
    ∀ owner field source request,
      (db.heap.get owner).toMany field = .unresolved source →
      request ≠ .isLoaded → request ≠ .debug →
      match (loadMembers source).run db with
      | (.error e, after) =>
        (ask owner field request).run db = (.error e, after) ∧
          (after.heap.get owner).toMany field = .unresolved source
      | (.ok items, after) =>
        (ask owner field request).run db = (.ok (request.onList items).1,
          after.giving owner field (.resolved (request.onList items).2)) := by
  refine ⟨?_, ?_, ?_, ?_⟩
  · intro type wanted
    refine Session.looksUp_of_intact hGrounded (fun e flushed hFlush => ?_)
      fun flushed hFlush => Session.intact_of_find type wanted hFlush
    rw [Session.find_run, hFlush]
  · intro type
    refine Session.looksUp_of_intact hGrounded (fun e flushed hFlush => ?_)
      fun flushed hFlush => Session.intact_of_findAll type hFlush
    rw [Session.findAll_run, hFlush]
  · intro source
    have hIntact := Session.intact_of_loadMembers (p := db.persister)
      source ⟨db.backend, session⟩
    refine ⟨hIntact, hIntact.retains hGrounded, ?_⟩
    intro hOpen hSource
    exact ⟨_, loadMembers_run hSession hOpen hSource,
      Assoc.lookup_insert_self .., rfl⟩
  · intro owner field source request hMembers hLoaded hDebug
    have hSame := get_of_loadMembers source db (Heap.lt_of_unresolved hMembers)
    rcases hLoad : (loadMembers source).run db with ⟨e | items, after⟩
    · rw [hLoad] at hSame
      refine ⟨ask_of_error hMembers hLoaded hDebug hLoad hSame, ?_⟩
      rw [hSame]
      exact hMembers
    · exact ask_of_ok hMembers hLoaded hDebug hLoad

end Database

/-! ## A tree of nodes -/

namespace Nodes

/-- Where the children of a node are loaded from. -/
def childrenOf (session : Option Nat) (id : Int) : Source :=
  ⟨session, "Node", "parent_id", .int id⟩

/-- A session looks after the first of three nodes, which is its own parent and
that of the others. Its title has been changed and not been written yet, and
its children have not been loaded yet. -/
def edited : Session where
  id := 0
  connection := some 0
  context :=
    { entities := [(⟨"Node", .int 1⟩, 0)]
      snapshots := [(⟨"Node", .int 1⟩, [.int 1, .text "a"])] }

/-- The database of that session. -/
def tree : Database Store where
  settings := .ofUrl "tree"
  persister := persister .lazy
  backend :=
    { env :=
        { driver := store [[.int 1, .text "a", .int 1],
            [.int 2, .text "b", .int 1], [.int 3, .text "c", .int 1]]
          heap := ⟨[⟨"Node", [("id", .scalar (.int 1)),
            ("title", .scalar (.text "A")), ("parent", .toOne (some 0)),
            ("children", .toMany (.unresolved (childrenOf (some 0) 1)))],
            .free⟩]⟩ }
      pool := { size := 1, idle := [], leased := [0] } }
  sessions := [(0, edited)]
  nextSession := 1

theorem grounded_tree : Session.Grounded ⟨tree.backend, edited⟩ := by
  refine .of_entities (fun key ref hGet => ?_) rfl
  have hMem : (key, ref) ∈ edited.context.entities := Assoc.mem_of_lookup hGet
  cases List.mem_singleton.1 hMem
  decide

end Nodes

/-- When the children of the node are counted, the node comes back among them,
in a row with its former title. It stays the instance that it is, with the
title that it has. -/
theorem Database.loads_disturb_nothing_of_nodes :
    Session.Grounded ⟨Nodes.tree.backend, Nodes.edited⟩ ∧
      ∃ left after, (Session.loadMembers (Nodes.persister .lazy)
          (Nodes.childrenOf (some 0) 1)).run
            ⟨Nodes.tree.backend, Nodes.edited⟩ = (.ok [0, 1, 2], left) ∧
        Session.Retains ⟨Nodes.tree.backend, Nodes.edited⟩ left ∧
        (ask 0 "children" .len).run Nodes.tree = (.ok (.count 3), after) ∧
        after.session? 0 = some left.session ∧
        (after.heap.get 0).scalar "title" = .text "A" := by
  have hSession : Nodes.tree.session? 0 = some Nodes.edited := rfl
  have hMembers : (Nodes.tree.heap.get 0).toMany "children" =
      .unresolved (Nodes.childrenOf (some 0) 1) := rfl
  obtain ⟨_, _, hRead, hAsk⟩ :=
    loads_disturb_nothing hSession Nodes.grounded_tree
  have hLoad := hRead (Nodes.childrenOf (some 0) 1)
  have hAnswer := hAsk 0 "children" _ .len hMembers nofun nofun
  have hRun : (Session.loadMembers Nodes.tree.persister
      (Nodes.childrenOf (some 0) 1)).run ⟨Nodes.tree.backend, Nodes.edited⟩ =
      (.ok [0, 1, 2], ((Session.loadMembers Nodes.tree.persister
        (Nodes.childrenOf (some 0) 1)).run
          ⟨Nodes.tree.backend, Nodes.edited⟩).2) := rfl
  rw [hRun] at hLoad
  obtain ⟨_, hRetains, hShared⟩ := hLoad
  obtain ⟨loaded, hLoaded, hLeft, _⟩ := hShared rfl rfl
  rw [hLoaded] at hAnswer
  have hSame : loaded.heap.get 0 = Nodes.tree.heap.get 0 := by
    have hThere : 0 < Nodes.tree.heap.next := by decide
    have hKept := get_of_loadMembers (Nodes.childrenOf (some 0) 1) Nodes.tree
      hThere
    rw [hLoaded] at hKept
    exact hKept
  have hLt : 0 < loaded.backend.env.heap.next :=
    Heap.lt_of_unresolved ((congrArg (·.toMany "children") hSame).trans
      hMembers)
  refine ⟨Nodes.grounded_tree, _, _, hRun, hRetains, hAnswer, hLeft, ?_⟩
  refine (congrArg (·.scalar "title") (Heap.get_modify_self hLt _)).trans ?_
  rw [Instance.scalar_set_ne _ (by decide)]
  exact congrArg (·.scalar "title") hSame

end UnitOfWork
