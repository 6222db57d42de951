import UnitOfWork.Proofs.References
import UnitOfWork.Proofs.Blame

/-!
# Generated keys in the columns of references

The value that a flush binds to the column of a to-one field is read off the
related entity when the turn of its action comes, and the related entity may
get its key only in the same flush. That this works rests on the order of a
flush: what an entity refers to is inserted before the entity, if it was
persisted before, and updates come after all inserts. From its turn on no
action changes an entity that an action refers to (`Session.settled`), so the
identifier that is bound is the one that the related entity has in the end;
and at its turn that identifier is known.

## Main results

* `Action.executeAll_turns`: the calls of actions, each planned at its turn;
* `Session.settled`: what an action refers to is not inserted any more when the
  turn of the action comes;
* `Action.unblamed_execute`: why an action fails for want of an identifier;
* `Session.references_get_keys`: what a flush binds to columns of references.
-/

namespace UnitOfWork

variable {σ : Type} {schema : Schema} {heap before now last : Heap}
  {ref r : Ref} {field target column : String}

/-! ## References -/

/-- An identifier that is set does not concern the references. -/
theorem Schema.IdentifierAlone.toOne_set (hAlone : schema.IdentifierAlone)
    {type : String} {d : Descriptor} {kind : ToOne}
    (hD : schema.descriptor type = .ok d)
    (hMem : .toOne kind field target column ∈ d.relations) (e : Instance)
    (slot : Slot) : (e.set d.identifier.field slot).toOne field =
      e.toOne field := by
  have hField : field ≠ d.identifier.field := (hAlone.relation hD hMem).symm
  rw [Instance.toOne, Instance.set, Assoc.lookup_insert_ne hField]
  rfl

namespace Heap

/-- A to-one field of an entity, with the type it is declared for and its
column, refers to an entity. -/
def PointsTo (schema : Schema) (heap : Heap) (ref : Ref)
    (field target column : String) (r : Ref) : Prop :=
  ∃ d kind, schema.descriptor (heap.get ref).type = .ok d ∧
    .toOne kind field target column ∈ d.relations ∧
      (heap.get ref).toOne field = some r

/-- The identifier of an entity is set. -/
def Identified (schema : Schema) (heap : Heap) (ref : Ref) : Prop :=
  ∃ d, schema.descriptor (heap.get ref).type = .ok d ∧
    (d.idValue (heap.get ref)).isNull = false

/-- A value stands for a reference to an entity of a type: NULL for none, and
the identifier of the entity otherwise. -/
def StandsFor (schema : Schema) (heap : Heap) (target : String) (v : Value) :
    Option Ref → Prop
  | none => v = .null
  | some r => v.isNull = false ∧
    ∃ d, schema.descriptor target = .ok d ∧ v = d.idValue (heap.get r)

theorem standsFor_of_relatedId {held : Option Ref} {v : Value}
    (h : heap.relatedId schema field target held = .ok v) :
    heap.StandsFor schema target v held := by
  cases held with
  | none => exact (Except.ok.inj h).symm
  | some r =>
      obtain ⟨d, hD, hRest⟩ := except_bind_eq_ok.1 h
      simp only at hRest
      split at hRest
      · split at hRest
        · cases hRest
        · rename_i hNull
          cases hRest
          exact ⟨Bool.eq_false_iff.2 hNull, d, hD, rfl⟩
      · cases hRest

namespace Keyed

variable {inserted : Ref → Prop}

/-- Only what is inserted gets an identifier. -/
theorem get_of_not (h : before.Keyed schema inserted now)
    (hNot : ¬ inserted ref) : now.get ref = before.get ref :=
  (h.get ref).resolve_right fun hInserted => hNot hInserted.1

/-- An identifier that is generated does not concern the references. -/
theorem toOne (hAlone : schema.IdentifierAlone)
    (h : before.Keyed schema inserted now) {d : Descriptor} {kind : ToOne}
    (hD : schema.descriptor (before.get ref).type = .ok d)
    (hMem : .toOne kind field target column ∈ d.relations) :
    (now.get ref).toOne field = (before.get ref).toOne field := by
  rcases h.get ref with hSame | ⟨_, d', slot, hD', _, hSet⟩
  · rw [hSame]
  · cases hD'.symm.trans hD
    rw [hSet, hAlone.toOne_set hD hMem]

theorem pointsTo_iff (hAlone : schema.IdentifierAlone)
    (h : before.Keyed schema inserted now) :
    now.PointsTo schema ref field target column r ↔
      before.PointsTo schema ref field target column r := by
  have hType := h.type ref
  constructor
  · rintro ⟨d, kind, hD, hMem, hTo⟩
    rw [hType] at hD
    rw [h.toOne hAlone hD hMem] at hTo
    exact ⟨d, kind, hD, hMem, hTo⟩
  · rintro ⟨d, kind, hD, hMem, hTo⟩
    rw [← h.toOne hAlone hD hMem] at hTo
    rw [← hType] at hD
    exact ⟨d, kind, hD, hMem, hTo⟩

end Keyed

end Heap

/-! ## The calls of actions at their turns -/

/-- The value that an INSERT or an UPDATE gives to a column. -/
def Call.bound? (c : Call) (column : String) : Option Value :=
  match c with
  | .insert (.insert _ columns) params => (columns.zip params).lookup column
  | _ => c.given? column

namespace Action

variable {actions rest : List Action} {action : Action} {c : Call}

/-- When the turn of an action came its call was planned; afterwards only
entities that were inserted by then or later got identifiers. -/
def Turn (schema : Schema) (actions : List Action) (last : Heap)
    (action : Action) (c : Call) : Prop :=
  ∃ done rest now, actions = done ++ action :: rest ∧
    now.Keyed schema (fun ref => ⟨.insert, ref⟩ ∈ action :: rest) last ∧
      action.call? schema now = .ok (some c)

theorem Turn.cons (h : Turn schema rest last action c) (first : Action) :
    Turn schema (first :: rest) last action c := by
  obtain ⟨done, later, now, hSplit, hKeyed, hCall⟩ := h
  refine ⟨first :: done, later, now, ?_, hKeyed, hCall⟩
  rw [hSplit, List.cons_append]

variable [Driver σ] {p : Persister} {conn : ConnId} {work after : Work σ}

/-- Actions that are carried out change nothing but identifiers of those that
are inserted. -/
theorem keyed_of_executeAll {e : Except Error Unit}
    (hRun : (executeAll p conn actions).run work = (e, after)) :
    work.env.heap.Keyed p.schema (fun ref => ⟨.insert, ref⟩ ∈ actions)
      after.env.heap := by
  have hKeyed : work.env.heap.Keyed p.schema
      (fun ref => ⟨.insert, ref⟩ ∈ actions)
      ((executeAll p conn actions).run work).2.env.heap :=
    keyed_executeAll (.refl ..) fun _ hInserts => hInserts.mem
  rw [hRun] at hKeyed
  exact hKeyed

/-- Actions that are carried out make one call at each turn that takes one. -/
theorem executeAll_turns
    (hRun : (executeAll p conn actions).run work = (.ok (), after)) :
    ∃ calls, work.env.Made conn calls after.env ∧
      List.Forall₂ (Turn p.schema actions after.env.heap)
        (actions.filter (sends p.schema work.env.heap)) calls := by
  induction actions generalizing work with
  | nil =>
      cases hRun
      exact ⟨[], .refl .., .nil⟩
  | cons action rest ih =>
      have hKeyed := keyed_of_executeAll hRun
      obtain ⟨mid, hExecuted, hRest⟩ := executeAll_cons_cases hRun
      obtain ⟨calls, hMade, hTurns⟩ := ih hRest
      have hLater := hTurns.imp fun _ _ hTurn => hTurn.cons action
      cases hExecuted with
      | skipped hPlan _ =>
          have hNone : action.sends p.schema work.env.heap = false := by
            rw [← isSome_call? hPlan]
            rfl
          refine ⟨calls, hMade, ?_⟩
          rw [List.filter_cons, hNone]
          exact hLater
      | @done c answer env ctx hPlan hCall hCount hKey hFollow =>
          have hSome : action.sends p.schema work.env.heap = true := by
            rw [← isSome_call? hPlan]
            rfl
          have hSends : sends p.schema env.heap =
              sends p.schema work.env.heap := by
            have hMid : work.env.heap.Keyed p.schema (fun _ => True) env.heap :=
              .received hKey (.refl ..) fun _ => trivial
            exact funext fun other => sends_of_keyed hMid
          have hFirst : work.env.Made conn [c] env :=
            p.made_calling hKey.env_eq.1
          refine ⟨c :: calls, hFirst.trans hMade, ?_⟩
          rw [List.filter_cons, if_pos hSome, ← hSends]
          exact .cons ⟨[], rest, work.env.heap, rfl, hKeyed, hPlan⟩ hLater

/-! ## What the calls bind -/

omit [Driver σ] in
/-- An INSERT gives each of its columns the value that the instance has for
it. -/
theorem bound?_of_insert {d : Descriptor} {bound : Column}
    (h : call? schema heap ⟨.insert, ref⟩ = .ok (some c))
    (hD : schema.descriptor (heap.get ref).type = .ok d)
    (hColumn : bound ∈ d.insertedColumns) :
    ∃ v, heap.valueOf schema (heap.get ref) bound = .ok v ∧
      c.bound? bound.name = some v := by
  obtain ⟨d', hD', _, plan, hPlan, hCall⟩ := call?_eq_ok h
  cases hD'.symm.trans hD
  obtain ⟨values, hValues, hInsert⟩ := except_bind_eq_ok.1 hPlan
  cases hInsert
  cases hCall
  have hBound := Heap.exists_bound hD hValues hColumn []
  rw [List.append_nil] at hBound
  exact hBound

omit [Driver σ] in
/-- An INSERT or an UPDATE gives the column of a to-one field a value that
stands for the reference in the field. -/
theorem standsFor_of_call? {d : Descriptor} {kind : ToOne}
    (h : action.call? schema heap = .ok (some c))
    (hKind : action.kind ≠ .delete)
    (hD : schema.descriptor (heap.get action.entity).type = .ok d)
    (hMem : .toOne kind field target column ∈ d.relations) :
    ∃ v, c.bound? column = some v ∧
      heap.StandsFor schema target v
        ((heap.get action.entity).toOne field) := by
  have hColumn := Descriptor.column_of_toOne hMem
  obtain ⟨_ | _ | _, ref⟩ := action
  · have hInserted : (⟨field, column, .join kind target⟩ : Column) ∈
        d.insertedColumns := List.mem_filter.2 ⟨hColumn, rfl⟩
    obtain ⟨v, hV, hBound⟩ := bound?_of_insert h hD hInserted
    exact ⟨v, hBound, Heap.standsFor_of_relatedId hV⟩
  · have hUpdated : (⟨field, column, .join kind target⟩ : Column) ∈
        d.updatedColumns := List.mem_filter.2 ⟨hColumn, rfl⟩
    obtain ⟨v, hV, hGiven⟩ := given?_of_call? h hD hUpdated
    refine ⟨v, ?_, Heap.standsFor_of_relatedId hV⟩
    obtain ⟨_, _, _, _, rfl⟩ := update_of_call? h
    exact hGiven
  · exact absurd rfl hKind

/-- A call is that of an action, and what it binds to the columns of to-one
fields stands for the references that the entity has in a heap. -/
def WritesReferences (schema : Schema) (heap : Heap) (action : Action)
    (c : Call) : Prop :=
  ∃ d params, schema.descriptor (heap.get action.entity).type = .ok d ∧
    c = action.kind.call d params ∧
    (action.kind ≠ .delete → ∀ kind field target column,
      .toOne kind field target column ∈ d.relations →
        ∃ v, c.bound? column = some v ∧
          heap.StandsFor schema target v ((heap.get action.entity).toOne field))

omit [Driver σ] in
/-- What is bound at the turn of an action stands for the references in the
end, if what they refer to is not inserted at that turn or later. -/
theorem Turn.writesReferences (hAlone : schema.IdentifierAlone)
    (h : Turn schema actions last action c)
    (hSettled : ∀ done rest, actions = done ++ action :: rest →
      action.kind ≠ .delete → ∀ field target column r,
        last.PointsTo schema action.entity field target column r →
          ⟨.insert, r⟩ ∉ action :: rest) :
    action.WritesReferences schema last c := by
  obtain ⟨done, rest, now, hSplit, hKeyed, hCall⟩ := h
  obtain ⟨d, params, hD, hC⟩ := call_of_call? hCall
  have hLast : schema.descriptor (last.get action.entity).type = .ok d := by
    rw [hKeyed.type]
    exact hD
  refine ⟨d, params, hLast, hC, fun hKind kind field target column hMem => ?_⟩
  obtain ⟨v, hBound, hStands⟩ := standsFor_of_call? hCall hKind hD hMem
  refine ⟨v, hBound, ?_⟩
  rw [hKeyed.toOne hAlone hD hMem]
  cases hTo : (now.get action.entity).toOne field with
  | none =>
      rw [hTo] at hStands
      exact hStands
  | some r =>
      rw [hTo] at hStands
      obtain ⟨hSet, d', hD', hV⟩ := hStands
      have hPoints : last.PointsTo schema action.entity field target column r :=
        (hKeyed.pointsTo_iff hAlone).2 ⟨d, kind, hD, hMem, hTo⟩
      have hSame : last.get r = now.get r := hKeyed.get_of_not
        (hSettled done rest hSplit hKind field target column r hPoints)
      refine ⟨hSet, d', hD', ?_⟩
      rw [hSame]
      exact hV

end Action

/-! ## What a flush writes -/

namespace Session

/-- An entity is to be inserted or updated by a flush. -/
def Writes (p : Persister) (scope : Scope σ) (ref : Ref) : Prop :=
  ⟨.insert, ref⟩ ∈ scope.session.queue.ofKind .insert ∨
    ∃ d, IsDirty p scope d ∧ d.ref = ref

/-- What the entities refer to that a flush is going to write. -/
structure Referable (p : Persister) (scope : Scope σ) : Prop where
  /-- No entity waits twice to be inserted. -/
  once : (scope.session.queue.ofKind .insert).Nodup
  /-- A field refers to entities of the type that it is declared for. -/
  typed : ∀ ref, Writes p scope ref → ∀ field target column r,
    scope.heap.PointsTo p.schema ref field target column r →
      (scope.heap.get r).type = target
  /-- What an entity refers to that is inserted does not wait to be inserted
  itself, or it was persisted before. -/
  order : ∀ earlier ref later, scope.session.queue.ofKind .insert =
    earlier ++ ⟨.insert, ref⟩ :: later → ∀ field target column r,
      scope.heap.PointsTo p.schema ref field target column r →
        ⟨.insert, r⟩ ∈ scope.session.queue.ofKind .insert →
          ⟨.insert, r⟩ ∈ earlier
  /-- It has an identifier or waits to be inserted. -/
  known : ∀ ref, Writes p scope ref → ∀ field target column r,
    scope.heap.PointsTo p.schema ref field target column r →
      scope.heap.Identified p.schema r ∨
        ⟨.insert, r⟩ ∈ scope.session.queue.ofKind .insert

variable {p : Persister} {scope after : Scope σ} {dirty : List Dirty}
  {done rest : List Action} {action : Action}

/-- The inserts that a flush carries out are those that wait. -/
theorem inserts_ordered (hRegular : scope.session.Regular)
    (dirty : List Dirty) :
    ((scope.session.ordered dirty).filter fun a => a.kind = .insert) =
      scope.session.queue.ofKind .insert := by
  rw [← planned_eq_ordered hRegular, planned, Queue.filter_drain]
  simp only [Queue.ofKind, Queue.enqueueAll, List.filter_append]
  simp

/-- No insert comes after an update. -/
theorem not_mem_of_update (hRegular : scope.session.Regular)
    (hSplit : scope.session.ordered dirty = done ++ action :: rest)
    (hKind : action.kind ≠ .insert) : ⟨.insert, r⟩ ∉ action :: rest := by
  have hSorted := Queue.drain_sorted (scope.session.queue.enqueueAll
    (dirty.map fun d => ⟨.update, d.ref⟩))
  rw [← planned, planned_eq_ordered hRegular, hSplit] at hSorted
  obtain ⟨_, hLater, _⟩ := List.pairwise_append.1 hSorted
  intro hMem
  rcases List.mem_cons.1 hMem with rfl | hRest
  · exact hKind rfl
  · have hLe := List.rel_of_pairwise_cons hLater hRest
    obtain ⟨_ | _ | _, entity⟩ := action
    · exact hKind rfl
    · simp [ActionKind.priority] at hLe
    · simp [ActionKind.priority] at hLe

/-- When the turn of an action comes, what it refers to is not inserted any
more. -/
theorem settled (hRegular : scope.session.Regular) (h : Referable p scope)
    (hSplit : scope.session.ordered dirty = done ++ action :: rest)
    (hPoints : scope.heap.PointsTo p.schema action.entity field target column r) :
    ⟨.insert, r⟩ ∉ action :: rest := by
  by_cases hKind : action.kind = .insert
  · obtain ⟨kind, ref⟩ := action
    cases hKind
    have hInserts := inserts_ordered hRegular dirty
    rw [hSplit, List.filter_append,
      List.filter_cons_of_pos (by simp)] at hInserts
    have hOnce := h.once
    rw [← hInserts] at hOnce
    intro hMem
    have hLater : (⟨.insert, r⟩ : Action) ∈ ⟨.insert, ref⟩ ::
        rest.filter fun a => a.kind = .insert := by
      rcases List.mem_cons.1 hMem with hHead | hRest
      · exact List.mem_cons.2 (Or.inl hHead)
      · exact List.mem_cons_of_mem _ (List.mem_filter.2 ⟨hRest, rfl⟩)
    have hEarlier := h.order _ ref _ hInserts.symm field target column r hPoints
      (hInserts ▸ List.mem_append_right _ hLater)
    exact (List.nodup_append.1 hOnce).2.2 _ hEarlier _ hLater rfl
  · exact not_mem_of_update hRegular hSplit hKind

end Session

/-! ## Failures for want of an identifier -/

/-- Planning an action fails for want of an identifier only if a field of its
entity refers to an entity without one. -/
theorem Action.unblamed_call? {action : Action}
    (h : action.kind ≠ .delete → ∀ field target column r,
      heap.PointsTo schema action.entity field target column r →
        Unblamed (heap.relatedId schema field target (some r))) :
    Unblamed (action.call? schema heap) := by
  refine .bind (heap.unblamed_writable schema action.entity) fun found hW => ?_
  obtain ⟨d, e⟩ := found
  obtain ⟨hD, _, rfl⟩ := Heap.writable_eq_ok_iff.1 hW
  have hValues : action.kind ≠ .delete → ∀ keep,
      Unblamed (heap.valuesOf schema (heap.get action.entity)
        (d.columns.filter keep)) := by
    intro hKind keep
    refine .mapM fun c hMem => ?_
    unfold Heap.valueOf
    split
    · rename_i kind target hContent
      cases hTo : (heap.get action.entity).toOne c.field with
      | none => exact .ok Value.null
      | some r =>
          exact h hKind c.field target c.name r ⟨d, kind, hD,
            d.relation_of_join (List.mem_filter.1 hMem).1 hContent, hTo⟩
    · exact .ok _
  cases hKind : action.kind with
  | insert =>
      have hInserted := hValues (by simp [hKind]) fun c => !c.isGenerated
      exact .bind (.bind hInserted fun _ _ => .ok _) fun _ _ => .ok _
  | update =>
      have hUpdated := hValues (by simp [hKind]) fun c => !c.isIdentifier
      refine .bind (.bind (Heap.unblamed_requireId _ d _) fun id _ => ?_)
        fun _ _ => .ok _
      refine .bind hUpdated fun values _ => ?_
      split <;> exact .ok _
  | delete =>
      exact .bind (.bind (Heap.unblamed_requireId _ d _) fun _ _ => .ok _)
        fun _ _ => .ok _

/-- The identifier of a related entity that has one can be bound. -/
theorem Heap.unblamed_relatedId {d : Descriptor}
    (hD : schema.descriptor target = .ok d)
    (hId : (d.idValue (heap.get r)).isNull = false) :
    Unblamed (heap.relatedId schema field target (some r)) := by
  refine .bind (Heap.unblamed_descriptor schema target) fun d' hD' => ?_
  cases hD'.symm.trans hD
  simp only [hId]
  split
  · exact .ok _
  · exact .error rfl

namespace Session

variable [Driver σ] {p : Persister} {scope after : Scope σ}
  {dirty : List Dirty} {done rest : List Action} {action : Action}
  {conn : ConnId} {work mid : Work σ}

omit [Driver σ] in
/-- A flush inserts and updates what it is said to write. -/
theorem writes_of_mem_ordered (hLists : ListsDirty p scope dirty)
    (hMem : action ∈ scope.session.ordered dirty)
    (hKind : action.kind ≠ .delete) : Writes p scope action.entity := by
  obtain ⟨kind, ref⟩ := action
  rcases List.mem_append.1 hMem with hFirst | hDelete
  · rcases List.mem_append.1 hFirst with hInsert | hUpdate
    · refine Or.inl ?_
      cases Queue.kind_of_mem_ofKind hInsert
      exact hInsert
    · obtain ⟨d, hD, hSame⟩ := List.mem_map.1 hUpdate
      cases hSame
      exact Or.inr ⟨d, (hLists.mem d).1 hD, rfl⟩
  · exact absurd (Queue.kind_of_mem_ofKind hDelete) hKind

/-- When the turn of an action comes, what it refers to has an identifier. -/
theorem identified_at_turn (hAlone : p.schema.IdentifierAlone)
    (hRegular : scope.session.Regular) (h : Referable p scope)
    (hLists : ListsDirty p scope dirty) (hHeap : work.env.heap = scope.heap)
    (hSplit : scope.session.ordered dirty = done ++ action :: rest)
    (hDone : (Action.executeAll p conn done).run work = (.ok (), mid))
    (hKind : action.kind ≠ .delete)
    (hPoints : mid.env.heap.PointsTo p.schema action.entity field target column
      r) :
    ∃ d, p.schema.descriptor target = .ok d ∧
      (d.idValue (mid.env.heap.get r)).isNull = false := by
  have hKeyed := Action.keyed_of_executeAll hDone
  rw [hHeap] at hKeyed
  have hPoints := (hKeyed.pointsTo_iff hAlone).1 hPoints
  have hWrites : Writes p scope action.entity :=
    writes_of_mem_ordered hLists (hSplit ▸ List.mem_append_right _
      (List.mem_cons_self ..)) hKind
  have hType := h.typed _ hWrites field target column r hPoints
  have hLater := settled hRegular h hSplit hPoints
  have hInserts : ∀ a ∈ scope.session.queue.ofKind .insert,
      a ∈ done ++ action :: rest := by
    intro a hMem
    rw [← hSplit]
    exact List.mem_append_left _ (List.mem_append_left _ hMem)
  by_cases hDoneMem : ⟨.insert, r⟩ ∈ done
  · have hOnce : Action.Once done := by
      have hAll := once_ordered h.once dirty
      rw [hSplit] at hAll
      exact (List.pairwise_append.1 hAll).1
    obtain ⟨key, hKey⟩ :=
      Action.exists_entityKey_of_inserted hOnce hDoneMem hDone
    obtain ⟨hKeyType, d, hD, hId⟩ := Heap.bears_of_entityKey hKey
    rw [← hKeyType, hKeyed.type, hType] at hD
    refine ⟨d, hD, ?_⟩
    rw [← EntityId.toValue_of_ofValue hId]
    exact EntityId.isNull_toValue key.id
  · have hNot : ⟨.insert, r⟩ ∉ scope.session.queue.ofKind .insert := fun hMem =>
      (List.mem_append.1 (hInserts _ hMem)).elim hDoneMem hLater
    obtain ⟨d, hD, hId⟩ :=
      (h.known _ hWrites field target column r hPoints).resolve_right hNot
    rw [hType] at hD
    refine ⟨d, hD, ?_⟩
    rw [hKeyed.get_of_not hDoneMem]
    exact hId

/-- The calls of a flush that succeeds, on the connection that it works on:
between those that open and close it there is one for each action that takes
one, and it writes the references as they are in the end. -/
def WritesThrough (p : Persister) (scope after : Scope σ)
    (dirty : List Dirty) (conn : ConnId) (writes : List Call) : Prop :=
  scope.env.Made conn
      ((if scope.session.inTransaction then [.setAutoCommit false] else []) ++
        writes ++ [.commit, .setAutoCommit true]) after.env ∧
    List.Forall₂ (Action.WritesReferences p.schema after.heap)
      ((scope.session.ordered dirty).filter
        (Action.sends p.schema scope.heap)) writes

/-- A flush that succeeds has written references as they are in the end. -/
theorem writesThrough_of_flushed (hAlone : p.schema.IdentifierAlone)
    (hRegular : scope.session.Regular) (h : Referable p scope)
    (hFlushed : Flushed p scope (.ok ()) after) :
    (after = scope ∧ scope.session.queue = {} ∧ ∀ d, ¬ IsDirty p scope d) ∨
    ∃ dirty conn pool writes, ListsDirty p scope dirty ∧
      scope.Obtains conn pool ∧
        WritesThrough p scope after dirty conn writes := by
  cases hFlushed with
  | idle _ hDiff hQueue =>
      have hLists := listsDirty_of_diff hRegular hDiff
      exact Or.inl ⟨rfl, hQueue, fun d hDirty =>
        List.not_mem_nil ((hLists.mem d).2 hDirty)⟩
  | @committed dirty ctx conn pool work _ hDiff _ hConn hRun =>
      refine Or.inr ⟨dirty, conn, pool, ?_⟩
      rw [planned_eq_ordered hRegular] at hRun
      cases hRun with
      | @committed r last hOpened hExecuted _ _ =>
          have hKeyed := Action.keyed_of_executeAll hExecuted
          obtain ⟨writes, hMade, hTurns⟩ := Action.executeAll_turns hExecuted
          rw [heap_opened] at hKeyed hTurns
          refine ⟨writes, listsDirty_of_diff hRegular hDiff, hConn, ?_, ?_⟩
          · have hBegun : scope.env.Made conn
                (if scope.session.inTransaction then [.setAutoCommit false]
                  else [])
                (opened conn scope.session.inTransaction
                  ⟨scope.env, ctx⟩).env := by
              unfold opened
              split
              · exact (Env.Made.refl conn scope.env).called _
              · exact .refl conn scope.env
            have hClosed := ((hBegun.trans hMade).called .commit).called
              (.setAutoCommit true)
            rw [List.append_assoc _ [Call.commit]] at hClosed
            exact hClosed
          · refine hTurns.imp fun action c hTurn => ?_
            refine hTurn.writesReferences hAlone ?_
            intro done rest hSplit _ field target column r hPoints
            exact settled hRegular h hSplit
              ((hKeyed.pointsTo_iff hAlone).1 hPoints)

/-- Generated keys reach the columns of references within one flush, in
whatever order entities were persisted, removed and edited, as long as what an
entity refers to was persisted before it or does not wait to be inserted, and
has an identifier or waits to be inserted. The flush does not fail because the
identifier of a related entity is not set, unless the driver says so; and if it
succeeds, each INSERT and UPDATE has bound to the column of each to-one field
the identifier that the related entity has after the flush. -/
theorem references_get_keys (hAlone : p.schema.IdentifierAlone)
    {start : Scope σ} (hContext : start.session.context = {})
    (hQueue : start.session.queue = {})
    (hReaches : Reaches p (fun _ _ => True) (fun _ _ => True) start scope)
    (h : Referable p scope) :
    ((∀ conn c (t : σ), Unblamed (Driver.call conn c t).1) →
      Unblamed ((flush p).run scope).1) ∧
    (((flush p).run scope).1 = .ok () →
      (((flush p).run scope).2 = scope ∧ scope.session.queue = {} ∧
        ∀ d, ¬ IsDirty p scope d) ∨
      ∃ dirty conn pool writes, ListsDirty p scope dirty ∧
        scope.Obtains conn pool ∧
          WritesThrough p scope ((flush p).run scope).2 dirty conn writes) := by
  have hRegular := regular_of_reaches hReaches
    (regular_of_empty hContext hQueue)
  have hFlushed := flushed p scope
  constructor
  · intro hDriver
    refine unblamed_of_flushed hFlushed hDriver ?_
    intro dirty ctx conn done action rest mid hDiff hSplit hDone
    rw [planned_eq_ordered hRegular] at hSplit
    refine Action.unblamed_call? fun hKind field target column r hPoints => ?_
    obtain ⟨d, hD, hId⟩ := identified_at_turn hAlone hRegular h
      (listsDirty_of_diff hRegular hDiff) (heap_opened ..) hSplit hDone hKind
      hPoints
    exact Heap.unblamed_relatedId hD hId
  · intro hOk
    rw [hOk] at hFlushed
    exact writesThrough_of_flushed hAlone hRegular h hFlushed

end Session

/-! ## Branches on new branches -/

namespace Branches

/-- A store of one branch, a session on the one connection to it, and two new
branches that are nowhere yet, the second one on the first. -/
def sown : Scope Store where
  backend :=
    ⟨{ driver := store [[.int 1, .text "a", .null]]
       heap := ⟨[branch .null "b" none, branch .null "c" (some 0)]⟩ },
      { size := 1, idle := [], leased := [0] }⟩
  session := { id := 0, connection := some 0 }

/-- The branch in the store has been looked up. -/
def looked : Scope Store :=
  (Operation.find "Branch" (.int 1)).perform persister sown

/-- It has another name, and grows on the second new branch. -/
def grafted : Backend Store :=
  { looked.backend with
    env := (looked.env.update 2 fun e => e.set "name" (.scalar (.text "A")))
      |>.update 2 fun e => e.set "stem" (.toOne (some 1)) }

/-- The new branches are to be inserted, the first one first. -/
def grown : Scope Store :=
  (Operation.persist 1).perform persister
    ((Operation.persist 0).perform persister
      (Operation.begin.perform persister { looked with backend := grafted }))

theorem heap_grown : grown.heap = ⟨[branch .null "b" none,
    branch .null "c" (some 0), branch (.int 1) "A" (some 1)]⟩ := rfl

theorem inserts_grown : grown.session.queue.ofKind .insert =
    [⟨.insert, 0⟩, ⟨.insert, 1⟩] := rfl

/-- Each branch is on the one before it. -/
theorem pointsTo_grown {ref r : Ref} {field target column : String}
    (h : grown.heap.PointsTo persister.schema ref field target column r) :
    target = "Branch" ∧ (r = 0 ∨ r = 1) ∧ ref = r + 1 := by
  obtain ⟨d, kind, hD, hMem, hTo⟩ := h
  obtain ⟨hType, rfl⟩ := descriptor_schema hD
  cases List.mem_singleton.1 hMem
  rw [heap_grown] at hType hTo
  match ref with
  | 0 => cases hTo
  | 1 =>
      cases hTo
      exact ⟨rfl, by simp, rfl⟩
  | 2 =>
      cases hTo
      exact ⟨rfl, by simp, rfl⟩
  | ref + 3 => exact absurd hType (by simp [Heap.get])

theorem referable_grown : Session.Referable persister grown where
  once := by
    rw [inserts_grown]
    decide
  typed := by
    intro ref _ field target column r hPoints
    obtain ⟨rfl, hCases, _⟩ := pointsTo_grown hPoints
    rw [heap_grown]
    rcases hCases with rfl | rfl <;> rfl
  order := by
    intro earlier ref later hSplit field target column r hPoints _
    obtain ⟨_, _, rfl⟩ := pointsTo_grown hPoints
    rw [inserts_grown] at hSplit
    rcases earlier with _ | ⟨first, _ | ⟨second, more⟩⟩
    · simp at hSplit
    · simp only [List.singleton_append, List.cons.injEq, Action.mk.injEq,
        true_and] at hSplit
      obtain ⟨rfl, hSame, _⟩ := hSplit
      have hFirst : r = 0 := (Nat.succ.inj hSame).symm
      simp [hFirst]
    · simp at hSplit
  known := by
    intro ref _ field target column r hPoints
    obtain ⟨_, hCases, _⟩ := pointsTo_grown hPoints
    rw [inserts_grown]
    refine Or.inr ?_
    rcases hCases with rfl | rfl <;> decide

theorem reaches_grown : Session.Reaches persister (fun _ _ => True)
    (fun _ _ => True) sown grown :=
  ((((Session.Reaches.start.operation (.find "Branch" (.int 1)) trivial).outside
    grafted trivial).operation .begin trivial).operation
      (.persist 0) trivial).operation (.persist 1) trivial

end Branches

/-- The second new branch is inserted with the number that the first one has
just got, and the old branch is updated with the number of the second one. -/
theorem Session.references_get_keys_of_branches :
    (∃ dirty conn pool writes, ListsDirty Branches.persister Branches.grown
        dirty ∧ Branches.grown.Obtains conn pool ∧
      WritesThrough Branches.persister Branches.grown
        ((flush Branches.persister).run Branches.grown).2 dirty conn writes) ∧
    (((flush Branches.persister).run Branches.grown).2.env.trace.drop
        Branches.grown.env.trace.length).filterMap
      (fun made => (made.2.bound? "stem_id").map Value.asInt?) =
        [none, some 2, some 3] := by
  obtain ⟨_, hOk⟩ := references_get_keys Branches.identifierAlone_schema rfl
    rfl Branches.reaches_grown Branches.referable_grown
  have hQueued : Branches.grown.session.queue ≠ {} := by decide +kernel
  have hDone : ((flush Branches.persister).run Branches.grown).1 = .ok () :=
    except_eq_ok_of_isOk (by decide +kernel)
  have hWritten := (hOk hDone).resolve_left fun hIdle => hQueued hIdle.2.1
  exact ⟨hWritten, by decide +kernel⟩

end UnitOfWork
