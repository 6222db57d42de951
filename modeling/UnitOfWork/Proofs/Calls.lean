import Mathlib.Data.List.Forall2
import UnitOfWork.Proofs.Flush
import UnitOfWork.Proofs.Mappings

/-!
# The calls of a flush

What a flush is to do is a list of moves: switching auto-commit off in a
transaction, one write for each of its actions, committing, and switching
auto-commit on. A flush makes one call for each move and in their order, and
leaves off after the call that fails. What a write sends is planned on the
instances as the flush found them, except that instances inserted before it
have been given their generated identifiers.

## Main results

* `Action.executeAll_made`: the calls of actions;
* `Session.performed_made`: the calls of the work on the connection.
-/

namespace UnitOfWork

variable {σ : Type}

/-! ## Instances in the middle of a flush -/

/-- Putting a value under a key twice is putting the second one there. -/
theorem Assoc.insert_insert {κ α : Type} [DecidableEq κ] (key : κ)
    (first second : α) (pairs : List (κ × α)) :
    Assoc.insert key second (Assoc.insert key first pairs) =
      Assoc.insert key second pairs := by
  induction pairs with
  | nil => simp [Assoc.insert]
  | cons pair rest ih =>
      obtain ⟨k, v⟩ := pair
      by_cases hk : k = key
      · simp [Assoc.insert, hk]
      · simp [Assoc.insert, hk, ih]

theorem Instance.set_set (e : Instance) (field : String)
    (first second : Slot) :
    (e.set field first).set field second = e.set field second := by
  simp only [Instance.set, Assoc.insert_insert]

/-- Instances as they were before, but for identifiers that were generated for
some of those that are `inserted`. -/
structure Heap.Keyed (schema : Schema) (inserted : Ref → Prop)
    (before now : Heap) : Prop where
  next : now.next = before.next
  get : ∀ ref, now.get ref = before.get ref ∨
    inserted ref ∧ ∃ d slot, schema.descriptor (before.get ref).type = .ok d ∧
      d.identifier.isGenerated = true ∧
        now.get ref = (before.get ref).set d.identifier.field slot

namespace Heap.Keyed

variable {schema : Schema} {inserted : Ref → Prop} {before now : Heap}

theorem refl (schema : Schema) (inserted : Ref → Prop) (heap : Heap) :
    heap.Keyed schema inserted heap := ⟨rfl, fun _ => Or.inl rfl⟩

/-- All instances have their types still. -/
theorem type (h : before.Keyed schema inserted now) (ref : Ref) :
    (now.get ref).type = (before.get ref).type := by
  rcases h.get ref with hSame | ⟨_, d, slot, _, _, hSet⟩
  · rw [hSame]
  · rw [hSet, Instance.type_set]

/-- Another instance may be given the identifier that was generated for it. -/
theorem received {p : Persister} {action : Action} {key : Option Value}
    {env after : Env σ} {r : Except Error Unit}
    (hReceived : Action.Received p action key env r after)
    (h : before.Keyed p.schema inserted env.heap)
    (hInserted : action.kind = .insert → inserted action.entity) :
    before.Keyed p.schema inserted after.heap := by
  cases hReceived with
  | refused _ => exact h
  | none _ => exact h
  | @assigned d v keyed hKind hD hGenerated _ hKeyed =>
      constructor
      · show (env.heap.modify action.entity _).next = before.next
        rw [Heap.next_modify]
        exact h.next
      intro ref
      simp only [Env.update]
      by_cases hEntity : ref = action.entity
      · subst hEntity
        by_cases hLt : action.entity < env.heap.next
        · rw [Heap.get_modify_self hLt]
          rw [h.type] at hD
          rcases Descriptor.withId_cases hKeyed with
            ⟨_, held, _, _, rfl⟩ | ⟨_, rfl⟩
          · refine Or.inr ⟨hInserted hKind, d, .scalar held, hD, hGenerated, ?_⟩
            rcases h.get action.entity with hSame | ⟨_, d', slot, hD', _, hSet⟩
            · rw [hSame]
            · cases hD.symm.trans hD'
              rw [hSet, Instance.set_set]
          · exact h.get action.entity
        · rw [Heap.modify_of_le (Nat.le_of_not_lt hLt)]
          exact h.get action.entity
      · rw [Heap.get_modify_ne _ hEntity]
        exact h.get ref

end Heap.Keyed

/-! ## The calls of actions -/

namespace Action

/-- Whether carrying out an action takes a call: an update does unless its
type has no column but the identifier. -/
def sends (schema : Schema) (heap : Heap) (action : Action) : Bool :=
  match action.kind with
  | .update =>
    match schema.descriptor (heap.get action.entity).type with
    | .ok d => !d.updatedColumns.isEmpty
    | .error _ => true
  | _ => true

variable {schema : Schema} {before now : Heap} {action : Action}
  {inserted : Ref → Prop}

/-- An action that can be planned has a call if it takes one. -/
theorem isSome_call? {c? : Option Call}
    (h : action.call? schema now = .ok c?) :
    c?.isSome = action.sends schema now := by
  obtain ⟨d, hD, _, hCall⟩ := call?_eq_ok h
  obtain ⟨kind, ref⟩ := action
  cases kind with
  | insert =>
      obtain ⟨plan, _, rfl⟩ := hCall
      rfl
  | delete =>
      obtain ⟨plan, _, rfl⟩ := hCall
      rfl
  | update =>
      obtain ⟨plan?, hPlan, rfl⟩ := hCall
      obtain ⟨id, _, hRest⟩ := except_bind_eq_ok.1 hPlan
      obtain ⟨values, _, hUpdate⟩ := except_bind_eq_ok.1 hRest
      simp only [sends, hD]
      split at hUpdate
      · rename_i hNil
        cases hUpdate
        rw [hNil]
        rfl
      · rename_i columns hSome
        cases hUpdate
        cases hColumns : d.updatedColumns with
        | nil => exact absurd hColumns hSome
        | cons _ _ => rfl

/-- Only the update of an entity without other columns takes no call. -/
theorem nil_of_call?_none (h : action.call? schema now = .ok none) :
    action.kind = .update ∧
      ∃ d, schema.descriptor (now.get action.entity).type = .ok d ∧
        d.updatedColumns = [] := by
  obtain ⟨d, hD, _⟩ := call?_eq_ok h
  have hSends := isSome_call? h
  obtain ⟨kind, ref⟩ := action
  cases kind with
  | insert => cases hSends
  | delete => cases hSends
  | update =>
      simp only [sends, hD] at hSends
      exact ⟨rfl, d, hD, by simpa using hSends.symm⟩

/-- Generated identifiers do not change what takes a call. -/
theorem sends_of_keyed (h : before.Keyed schema inserted now) :
    action.sends schema now = action.sends schema before := by
  simp only [sends, h.type]

/-- A call carries out an action: it is the INSERT, UPDATE or DELETE of its
type, with the parameters that are planned in the middle of a flush. -/
def CarriedBy (schema : Schema) (inserted : Ref → Prop) (before : Heap)
    (action : Action) (c : Call) : Prop :=
  (∃ d params, schema.descriptor (before.get action.entity).type = .ok d ∧
    c = action.kind.call d params) ∧
  ∃ now, before.Keyed schema inserted now ∧
    action.call? schema now = .ok (some c)

theorem carriedBy_of_call? {c : Call}
    (hKeyed : before.Keyed schema inserted now)
    (h : action.call? schema now = .ok (some c)) :
    action.CarriedBy schema inserted before c := by
  refine ⟨?_, now, hKeyed, h⟩
  obtain ⟨d, params, hD, hC⟩ := call_of_call? h
  rw [hKeyed.type] at hD
  exact ⟨d, params, hD, hC⟩

end Action

/-- The driver after calls on a connection. -/
def Driver.after [Driver σ] (conn : ConnId) (calls : List Call) (t : σ) : σ :=
  calls.foldl (fun t c => (Driver.call conn c t).2) t

/-- One of these calls has updated or deleted rows: it is such a statement, and
it has been carried out when its turn came. -/
def Driver.Carried [Driver σ] (conn : ConnId) (calls : List Call) (t : σ) :
    Prop :=
  ∃ first statement params affected,
    first ++ [.execute statement params] <+: calls ∧
      (Driver.call conn (.execute statement params)
        (Driver.after conn first t)).1 = .ok affected

theorem Driver.not_carried_nil [Driver σ] {conn : ConnId} {t : σ} :
    ¬ Driver.Carried conn [] t := by
  rintro ⟨first, statement, params, affected, hPrefix, _⟩
  simp at hPrefix

/-- One more call may be the one. -/
theorem Driver.carried_snoc [Driver σ] {conn : ConnId} {calls : List Call}
    {c : Call} {t : σ} :
    Driver.Carried conn (calls ++ [c]) t ↔ Driver.Carried conn calls t ∨
      ∃ statement params affected, c = .execute statement params ∧
        (Driver.call conn (.execute statement params)
          (Driver.after conn calls t)).1 = .ok affected := by
  constructor
  · rintro ⟨first, statement, params, affected, hPrefix, hCall⟩
    rcases List.prefix_concat_iff.1 hPrefix with hWhole | hBefore
    · obtain ⟨rfl, hLast⟩ := List.append_inj' hWhole rfl
      exact Or.inr ⟨statement, params, affected,
        (List.singleton_inj.1 hLast).symm, hCall⟩
    · exact Or.inl ⟨first, statement, params, affected, hBefore, hCall⟩
  · rintro (⟨first, statement, params, affected, hPrefix, hCall⟩ |
      ⟨statement, params, affected, rfl, hCall⟩)
    · exact ⟨first, statement, params, affected,
        hPrefix.trans (List.prefix_append ..), hCall⟩
    · exact ⟨calls, statement, params, affected, List.prefix_refl _, hCall⟩

/-- Just these calls have been made on a connection. -/
structure Env.Made [Driver σ] (conn : ConnId) (calls : List Call)
    (before after : Env σ) : Prop where
  trace : after.trace = before.trace ++ Call.on conn calls
  driver : after.driver = Driver.after conn calls before.driver

namespace Env.Made

variable [Driver σ] {conn : ConnId} {calls : List Call}
  {before after last : Env σ}

theorem refl (conn : ConnId) (env : Env σ) : env.Made conn [] env :=
  ⟨by simp [Call.on], rfl⟩

/-- One more call. -/
theorem snoc {c : Call} (h : before.Made conn calls after)
    (hTrace : last.trace = after.trace ++ [(conn, c)])
    (hDriver : last.driver = (Driver.call conn c after.driver).2) :
    before.Made conn (calls ++ [c]) last := by
  constructor
  · rw [hTrace, h.trace]
    simp [Call.on]
  · rw [hDriver, h.driver]
    simp [Driver.after]

theorem called (h : before.Made conn calls after) (c : Call) :
    before.Made conn (calls ++ [c]) (after.called conn c) :=
  h.snoc rfl rfl

/-- Calls that follow on others. -/
theorem trans {more : List Call} (h : before.Made conn calls after)
    (hMore : after.Made conn more last) :
    before.Made conn (calls ++ more) last := by
  constructor
  · rw [hMore.trace, h.trace]
    simp [Call.on]
  · rw [hMore.driver, h.driver]
    simp [Driver.after]

/-- There is one way to make calls. -/
theorem unique {other : ConnId} {others : List Call}
    (h : before.Made conn calls after)
    (hOther : before.Made other others after) :
    others = calls ∧ (calls ≠ [] → other = conn) := by
  have hTrace := List.append_cancel_left (hOther.trace.symm.trans h.trace)
  have hCalls := congrArg (List.map Prod.snd) hTrace
  simp only [Call.on, List.map_map, Function.comp_def, List.map_id'] at hCalls
  refine ⟨hCalls, ?_⟩
  intro hSome
  obtain ⟨c, rest, rfl⟩ := List.exists_cons_of_ne_nil hSome
  rw [hCalls] at hTrace
  exact congrArg Prod.fst (List.cons.inj hTrace).1

end Env.Made

/-- A call that is echoed is made like any other. -/
theorem Persister.made_calling [Driver σ] (p : Persister) {conn : ConnId}
    {c : Call} {env after : Env σ}
    (h : after = { p.calling conn c env with heap := after.heap }) :
    env.Made conn [c] after := by
  refine (Env.Made.refl conn env).snoc ?_ ?_
  · rw [h]
    rfl
  · rw [h]
    rfl

namespace Action

variable [Driver σ] {p : Persister} {conn : ConnId}

/-- The calls made so far carry out the actions `made`. -/
def Making (p : Persister) (conn : ConnId) (actions : List Action)
    (start : Env σ) (made : List Action) (env : Env σ) : Prop :=
  ∃ calls, start.Made conn calls env ∧
    List.Forall₂ (CarriedBy p.schema (fun ref => ⟨.insert, ref⟩ ∈ actions)
      start.heap) made calls

/-- What is still to be done after some of the actions. -/
structure Underway (p : Persister) (conn : ConnId) (actions : List Action)
    (start : Env σ) (rest : List Action) (env : Env σ) : Prop where
  keyed : start.heap.Keyed p.schema (fun ref => ⟨.insert, ref⟩ ∈ actions)
    env.heap
  making : ∃ done, actions = done ++ rest ∧ Making p conn actions start
    (done.filter (sends p.schema start.heap)) env

variable {actions rest : List Action} {action : Action}
  {start env after : Env σ}

/-- The call of the next action, whatever is made of its answer. -/
theorem Underway.call {c : Call}
    (h : Underway p conn actions start (action :: rest) env)
    (hPlan : action.call? p.schema env.heap = .ok (some c))
    (hAfter : after = { p.calling conn c env with heap := after.heap }) :
    ∃ done, actions = done ++ rest ∧ Making p conn actions start
      (done.filter (sends p.schema start.heap)) after := by
  obtain ⟨done, hActions, calls, hMade, hCarried⟩ := h.making
  have hSends : action.sends p.schema start.heap = true := by
    rw [← sends_of_keyed h.keyed, ← isSome_call? hPlan]
    rfl
  refine ⟨done ++ [action], by simp [hActions], calls ++ [c],
    hMade.trans (p.made_calling hAfter), ?_⟩
  rw [List.filter_append, List.filter_cons, if_pos hSends]
  exact List.rel_append hCarried
    (.cons (carriedBy_of_call? h.keyed hPlan) .nil)

theorem Underway.prefix (h : Underway p conn actions start rest env) :
    ∃ made, made <+: actions.filter (sends p.schema start.heap) ∧
      Making p conn actions start made env := by
  obtain ⟨done, hActions, hMaking⟩ := h.making
  refine ⟨_, ?_, hMaking⟩
  rw [hActions, List.filter_append]
  exact List.prefix_append _ _

theorem executeAll_underway (p : Persister) (conn : ConnId)
    (actions : List Action) (start : Work σ) :
    match (executeAll p conn actions).run start with
    | (.ok _, after) => Underway p conn actions start.env [] after.env
    | (.error _, after) => ∃ made,
      made <+: actions.filter (sends p.schema start.env.heap) ∧
        Making p conn actions start.env made after.env := by
  refine executeAll_induct
    (I := fun rest work => Underway p conn actions start.env rest work.env)
    (J := fun work => ∃ made,
      made <+: actions.filter (sends p.schema start.env.heap) ∧
        Making p conn actions start.env made work.env)
    ?_ ?_ ⟨.refl .., [], rfl, [], .refl .., .nil⟩
  · intro action rest work after hUnderway hExecuted
    obtain ⟨done, hActions, hMaking⟩ := hUnderway.making
    cases hExecuted with
    | skipped hPlan _ =>
        refine ⟨hUnderway.keyed, done ++ [action], by simp [hActions], ?_⟩
        have hSends : action.sends p.schema start.env.heap = false := by
          rw [← sends_of_keyed hUnderway.keyed, ← isSome_call? hPlan]
          rfl
        rw [List.filter_append, List.filter_cons, hSends]
        simpa using hMaking
    | done hPlan _ _ hKey _ =>
        refine ⟨.received hKey hUnderway.keyed ?_,
          hUnderway.call hPlan hKey.env_eq.1⟩
        intro hKind
        obtain ⟨kind, ref⟩ := action
        cases hKind
        rw [hActions]
        exact List.mem_append_right _ (List.mem_cons_self ..)
  · intro action rest work after e hUnderway hExecuted
    -- The call that fails, if there is one, is made all the same.
    have hCall : ∀ {c : Call} {env : Env σ},
        action.call? p.schema work.env.heap = .ok (some c) →
        env = { p.calling conn c work.env with heap := env.heap } →
        ∃ made, made <+: actions.filter (sends p.schema start.env.heap) ∧
          Making p conn actions start.env made env := by
      intro c env hPlan hEnv
      obtain ⟨done, hActions, hMaking⟩ := hUnderway.call hPlan hEnv
      refine ⟨_, ?_, hMaking⟩
      rw [hActions, List.filter_append]
      exact List.prefix_append _ _
    cases hExecuted with
    | stopped _ => exact hUnderway.prefix
    | refused hPlan _ => exact hCall hPlan rfl
    | unsettled _ hPlan _ hEnv _ => exact hCall hPlan hEnv

/-- Actions are carried out by one call for each that takes one, in their
order; if one fails, by the calls up to it. -/
theorem executeAll_made {start after : Work σ} {r : Except Error Unit}
    (hRun : (executeAll p conn actions).run start = (r, after)) :
    ∃ made, made <+: actions.filter (sends p.schema start.env.heap) ∧
      Making p conn actions start.env made after.env ∧
      (r = .ok () →
        made = actions.filter (sends p.schema start.env.heap)) := by
  have hActions := executeAll_underway p conn actions start
  rw [hRun] at hActions
  cases r with
  | error e =>
      obtain ⟨made, hPrefix, hMaking⟩ := hActions
      exact ⟨made, hPrefix, hMaking, fun h => by cases h⟩
  | ok _ =>
      obtain ⟨done, hAll, hMaking⟩ := hActions.making
      rw [List.append_nil] at hAll
      subst hAll
      exact ⟨_, List.prefix_refl _, hMaking, fun _ => rfl⟩

end Action

/-! ## The moves of a flush -/

/-- What a flush does on its connection. -/
inductive Move
  | autoCommit (on : Bool)
  | write (action : Action)
  | commit

/-- The action of a move. -/
def Move.action? : Move → Option Action
  | write action => some action
  | _ => none

/-- The call that makes a move. -/
def Move.MadeBy (schema : Schema) (inserted : Ref → Prop) (before : Heap) :
    Move → Call → Prop
  | autoCommit on, c => c = .setAutoCommit on
  | write action, c => action.CarriedBy schema inserted before c
  | commit, c => c = .commit

namespace Session

/-- The moves of a flush that carries out actions. -/
def moves (schema : Schema) (heap : Heap) (inTransaction : Bool)
    (actions : List Action) : List Move :=
  (if inTransaction then [.autoCommit false] else []) ++
    (actions.filter (Action.sends schema heap)).map .write ++
      [.commit, .autoCommit true]

/-- The actions among the moves of a flush are those that take a call. -/
theorem filterMap_moves (schema : Schema) (heap : Heap) (inTransaction : Bool)
    (actions : List Action) :
    (moves schema heap inTransaction actions).filterMap Move.action? =
      actions.filter (Action.sends schema heap) := by
  have hWrites : ∀ actions : List Action,
      (actions.map Move.write).filterMap Move.action? = actions := by
    intro actions
    rw [List.filterMap_map]
    exact List.filterMap_some
  have hFirst : (if inTransaction then [Move.autoCommit false] else
      []).filterMap Move.action? = [] := by
    cases inTransaction <;> rfl
  have hLast : [Move.commit, .autoCommit true].filterMap Move.action? = [] :=
    rfl
  rw [moves, List.filterMap_append, List.filterMap_append, hWrites, hFirst,
    hLast, List.nil_append, List.append_nil]

variable [Driver σ] {p : Persister} {conn : ConnId}

/-- The calls made so far make the moves `made`. -/
def Moved (p : Persister) (conn : ConnId) (actions : List Action)
    (start : Env σ) (made : List Move) (env : Env σ) : Prop :=
  ∃ calls, start.Made conn calls env ∧
    List.Forall₂ (Move.MadeBy p.schema (fun ref => ⟨.insert, ref⟩ ∈ actions)
      start.heap) made calls

/-- One more call that makes the next move. -/
theorem Moved.called {actions : List Action} {start env : Env σ}
    {made : List Move} (h : Moved p conn actions start made env)
    (move : Move) {c : Call}
    (hMove : move.MadeBy p.schema (fun ref => ⟨.insert, ref⟩ ∈ actions)
      start.heap c) :
    Moved p conn actions start (made ++ [move]) (env.called conn c) := by
  obtain ⟨calls, hMade, hMoves⟩ := h
  exact ⟨calls ++ [c], hMade.called c,
    List.rel_append hMoves (.cons hMove .nil)⟩

/-- Each of the moves has its call. -/
theorem Moved.call_of_mem {actions : List Action} {start env : Env σ}
    {made : List Move} {move : Move} (h : Moved p conn actions start made env)
    (hMem : move ∈ made) : ∃ calls c, start.Made conn calls env ∧ c ∈ calls ∧
      move.MadeBy p.schema (fun ref => ⟨.insert, ref⟩ ∈ actions) start.heap
        c := by
  obtain ⟨calls, hMade, hMoves⟩ := h
  obtain ⟨hLength, hEach⟩ := List.forall₂_iff_get.1 hMoves
  obtain ⟨i, hLt, rfl⟩ := List.getElem_of_mem hMem
  have hCall : i < calls.length := hLength ▸ hLt
  exact ⟨calls, calls.get ⟨i, hCall⟩, hMade, List.get_mem .., hEach i hLt hCall⟩

theorem moved_opened (p : Persister) (conn : ConnId) (inTransaction : Bool)
    (actions : List Action) (work : Work σ) :
    Moved p conn actions work.env
      (if inTransaction then [.autoCommit false] else [])
      (opened conn inTransaction work).env := by
  have hStart : Moved p conn actions work.env [] work.env :=
    ⟨[], .refl .., .nil⟩
  cases inTransaction with
  | false => exact hStart
  | true => exact hStart.called _ rfl

/-- The writes follow on what has been done before them. -/
theorem Moved.making {actions : List Action} {start env after : Env σ}
    {first : List Move} {made : List Action}
    (h : Moved p conn actions start first env)
    (hHeap : env.heap = start.heap)
    (hMaking : Action.Making p conn actions env made after) :
    Moved p conn actions start (first ++ made.map .write) after := by
  obtain ⟨calls, hMade, hMoves⟩ := h
  obtain ⟨writes, hWritten, hCarried⟩ := hMaking
  rw [hHeap] at hCarried
  exact ⟨calls ++ writes, hMade.trans hWritten,
    List.rel_append hMoves (List.forall₂_map_left_iff.2 hCarried)⟩

/-- The work on the connection makes the moves in their order; if it fails,
the moves up to some point. -/
theorem performed_made {inTransaction : Bool} {actions : List Action}
    {work after : Work σ} {r : Except Error Unit}
    (h : Performed p conn inTransaction actions work r after) :
    ∃ made, made <+: moves p.schema work.env.heap inTransaction actions ∧
      Moved p conn actions work.env made after.env ∧
      (r = .ok () →
        made = moves p.schema work.env.heap inTransaction actions) := by
  have hOpened := moved_opened p conn inTransaction actions work
  have hHeap := heap_opened conn inTransaction work
  -- What has been written when the actions are done with.
  have hWritten : ∀ {r : Except Error Unit} {after : Work σ},
      (Action.executeAll p conn actions).run (opened conn inTransaction work) =
        (r, after) →
      ∃ made, made <+: actions.filter (Action.sends p.schema work.env.heap) ∧
        Moved p conn actions work.env
          ((if inTransaction then [.autoCommit false] else []) ++
            made.map .write) after.env ∧
        (r = .ok () →
          made = actions.filter (Action.sends p.schema work.env.heap)) := by
    intro r after hRun
    obtain ⟨made, hPrefix, hMaking, hAll⟩ := Action.executeAll_made hRun
    rw [hHeap] at hPrefix hAll
    exact ⟨made, hPrefix, hOpened.making hHeap hMaking, hAll⟩
  cases h with
  | unopened _ _ =>
      refine ⟨_, ?_, hOpened, fun h => by cases h⟩
      rw [moves, List.append_assoc]
      exact List.prefix_append _ _
  | failed _ hRun =>
      obtain ⟨made, hPrefix, hMoved, _⟩ := hWritten hRun
      refine ⟨_, ?_, hMoved, fun h => by cases h⟩
      rw [moves, List.append_assoc, List.prefix_append_right_inj]
      exact (hPrefix.map _).trans (List.prefix_append _ _)
  | uncommitted _ hRun _ =>
      obtain ⟨made, _, hMoved, hAll⟩ := hWritten hRun
      rw [hAll rfl] at hMoved
      refine ⟨_, ?_, hMoved.called .commit rfl, fun h => by cases h⟩
      rw [moves, List.prefix_append_right_inj]
      exact ⟨[.autoCommit true], rfl⟩
  | committed _ hRun _ _ =>
      obtain ⟨made, _, hMoved, hAll⟩ := hWritten hRun
      rw [hAll rfl] at hMoved
      have hDone := (hMoved.called .commit rfl).called (.autoCommit true) rfl
      have hMoves := List.append_assoc
        ((if inTransaction then [Move.autoCommit false] else []) ++
          (actions.filter (Action.sends p.schema work.env.heap)).map .write)
        [.commit] [.autoCommit true]
      rw [hMoves] at hDone
      exact ⟨_, List.prefix_refl _, hDone, fun _ => rfl⟩

end Session

end UnitOfWork
