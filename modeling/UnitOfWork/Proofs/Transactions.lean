import UnitOfWork.Proofs.Flush
import UnitOfWork.Store.Transactional
import UnitOfWork.Store.Table

/-!
# Drivers with transactions

What a driver is asked for whose connections commit and roll back: each
connection is seen as a store of contents with an auto-commit state, and
`Transactional.Answers` says for each call what may come of it and what it may
do to what is seen. A statement that is carried out is carried out on the
contents; one that is refused leaves them, though it may have opened a
transaction or lost it. A commit or a rollback that fails leaves the
transaction open or loses it. Auto-commit can always be switched off, and can
be switched on unless an open transaction cannot be committed. A connection
that is closed loses what was not committed.

## Main results

* `Transactional.Answers.retains`, `Transactional.committed_of_error`: a call
  that fails takes no effect, and commits nothing;
* `Transactions.setAutoCommit_ok`, `Transactions.view_commit`,
  `Transactions.view_rollback`: what calls leave that succeed;
* `Transactions.joined_write`, `Transactions.committed_commit`: statements join
  the open transaction and take effect with the commit;
* `Transactions.committed_rollback`: whatever comes of a rollback, nothing is
  committed.
-/

namespace UnitOfWork

variable {σ γ : Type}

/-- The write that a call carries out: a statement with its parameters. -/
def Call.write? : Call → Option (Statement × List Value)
  | .execute statement params | .insert statement params =>
    some (statement, params)
  | _ => none

/-- What an action calls is a write. -/
theorem Action.write_of_call? {schema : Schema} {heap : Heap} {action : Action}
    {c : Call} (h : action.call? schema heap = .ok (some c)) :
    ∃ write, c.write? = some write ∧ write.1.isQuery = false := by
  obtain ⟨d, params, _, rfl⟩ := Action.call_of_call? h
  obtain ⟨kind, ref⟩ := action
  cases kind <;> exact ⟨_, rfl, rfl⟩

/-- A write is not the opening of a connection. -/
theorem Call.ne_connect_of_write? {c : Call} {write : Statement × List Value}
    (h : c.write? = some write) : c ≠ .connect := by
  rintro rfl
  cases h

namespace Transactional

@[simp] theorem committed_begin (t : Transactional γ) :
    t.begin.committed = t.committed := by
  unfold begin
  split <;> rfl

@[simp] theorem autoCommit_begin (t : Transactional γ) :
    t.begin.autoCommit = t.autoCommit := by
  unfold begin
  split <;> rfl

@[simp] theorem content_begin (t : Transactional γ) :
    t.begin.content = t.content := by
  unfold begin
  split <;> rfl

@[simp] theorem autoCommit_rollback (t : Transactional γ) :
    t.rollback.autoCommit = t.autoCommit := rfl

/-- The contents are committed when no transaction is open. -/
theorem committed_of_not_inTransaction {t : Transactional γ}
    (h : t.inTransaction = false) : t.committed = t.content := by
  have hNone : t.saved = none := by
    simpa [inTransaction] using h
  rw [committed, hNone]
  rfl

/-- A statement that is carried out changes the contents as it says. -/
theorem execute_eq_ok {ε α : Type} {statement : γ → Except ε (α × γ)}
    {t after : Transactional γ} {a : α}
    (h : t.execute statement = (.ok a, after)) :
    statement t.content = .ok (a, after.content) ∧
      after = { t.begin with content := after.content } := by
  unfold execute at h
  simp only [content_begin] at h
  cases hRun : statement t.content with
  | error e =>
      rw [hRun] at h
      cases h
  | ok result =>
      rw [hRun] at h
      cases h
      exact ⟨rfl, rfl⟩

/-- What may be left when a call fails that changes no committed contents. -/
def Retains (before after : Transactional γ) : Prop :=
  after = before ∨ after = before.begin ∨ after = before.rollback

theorem Retains.committed {before after : Transactional γ}
    (h : Retains before after) : after.committed = before.committed := by
  rcases h with rfl | rfl | rfl
  · rfl
  · exact committed_begin before
  · exact committed_rollback before

/-- A connection without a transaction is known by its contents. -/
theorem eq_of_clean {before after : Transactional γ}
    (hContent : after.content = before.content)
    (hOn : before.autoCommit = true) (hNone : before.inTransaction = false)
    (hOn' : after.autoCommit = true) (hNone' : after.inTransaction = false) :
    after = before := by
  obtain ⟨content, saved, autoCommit⟩ := before
  obtain ⟨content', saved', autoCommit'⟩ := after
  cases hContent
  cases hOn
  cases hOn'
  have hSaved : saved = none := by simpa [inTransaction] using hNone
  have hSaved' : saved' = none := by simpa [inTransaction] using hNone'
  rw [hSaved, hSaved']

/-- Outside of transactions nothing is left of a call that fails. -/
theorem Retains.eq {before after : Transactional γ} (h : Retains before after)
    (hOn : before.autoCommit = true)
    (hNone : before.inTransaction = false) : after = before := by
  rcases h with rfl | rfl | rfl
  · rfl
  · rw [begin, hOn]
    rfl
  · exact eq_of_clean (committed_of_not_inTransaction hNone) hOn hNone hOn rfl

/-- What may come of a call, and what it may do to its connection; `run` is
what statements do to the contents. -/
def Answers (run : Statement → List Value → γ → Except StoreFault (Outcome × γ))
    (before after : Transactional γ) :
    (c : Call) → Except Error c.Answer → Prop
  | .connect, _ => True
  | .query statement _, .ok _ => statement.isQuery = true →
    after = before ∨ after = before.begin
  | .query _ _, .error _ => Retains before after
  | .execute statement params, .ok _ => statement.isQuery = false →
    ∃ outcome, before.execute (run statement params) = (.ok outcome, after)
  | .execute _ _, .error _ => Retains before after
  | .insert statement params, .ok _ => statement.isQuery = false →
    ∃ outcome, before.execute (run statement params) = (.ok outcome, after)
  | .insert _ _, .error _ => Retains before after
  | .setAutoCommit on, .ok _ => after = before.setAutoCommit on
  | .setAutoCommit on, .error _ =>
    on = true ∧ before.inTransaction = true ∧ Retains before after
  | .commit, .ok _ => after = before.commit
  | .commit, .error _ => Retains before after
  | .rollback, .ok _ => after = before.rollback
  | .rollback, .error _ => Retains before after
  | .close, _ => after.inTransaction = false ∧ after.content = before.committed

section

variable {run : Statement → List Value → γ → Except StoreFault (Outcome × γ)}
  {before after : Transactional γ} {c : Call}

/-- A call that fails takes no effect, unless the connection is opened or
closed. -/
theorem Answers.retains {e : Error}
    (h : Answers run before after c (.error e)) (hConnect : c ≠ .connect)
    (hClose : c ≠ .close) : Retains before after := by
  cases c with
  | connect => exact absurd rfl hConnect
  | close => exact absurd rfl hClose
  | setAutoCommit on => exact h.2.2
  | _ => exact h

/-- A query takes no effect either, whatever comes of it. -/
theorem Answers.retains_query {statement : Statement} {params : List Value}
    {r : Except Error (Call.query statement params).Answer}
    (h : Answers run before after (.query statement params) r)
    (hQuery : statement.isQuery = true) : Retains before after := by
  cases r with
  | error e => exact h
  | ok found =>
      rcases h hQuery with hSame | hBegun
      · exact Or.inl hSame
      · exact Or.inr (Or.inl hBegun)

/-- A connection that is closed has kept what was committed. -/
theorem Answers.committed_close {r : Except Error Call.close.Answer}
    (h : Answers run before after .close r) :
    after.committed = before.committed := by
  obtain ⟨hClosed, hContent⟩ := h
  rw [committed_of_not_inTransaction hClosed, hContent]

/-- A call that fails commits nothing. -/
theorem committed_of_error {e : Error}
    (h : Answers run before after c (.error e)) (hConnect : c ≠ .connect) :
    after.committed = before.committed := by
  by_cases hClose : c = .close
  · subst hClose
    exact h.committed_close
  · exact (h.retains hConnect hClose).committed

/-! ## Statements that are collected -/

/-- What statements do to contents one after another. -/
def runAll (run : Statement → List Value → γ → Except StoreFault (Outcome × γ))
    (writes : List (Statement × List Value)) (content : γ) :
    Except StoreFault γ :=
  writes.foldlM (fun content write =>
    (run write.1 write.2 content).map Prod.snd) content

/-- With auto-commit off, statements have been carried out on the contents
`start`, and what is committed is `kept`. -/
structure Collects
    (run : Statement → List Value → γ → Except StoreFault (Outcome × γ))
    (kept start : γ) (writes : List (Statement × List Value))
    (t : Transactional γ) : Prop where
  autoCommit : t.autoCommit = false
  committed : t.committed = kept
  content : runAll run writes start = .ok t.content

/-- A write that succeeds is carried out. -/
theorem execute_of_answers {answer : c.Answer}
    {write : Statement × List Value}
    (h : Answers run before after c (.ok answer))
    (hWrite : c.write? = some write) (hQuery : write.1.isQuery = false) :
    ∃ outcome,
      before.execute (run write.1 write.2) = (.ok outcome, after) := by
  cases c with
  | execute statement params =>
      cases hWrite
      exact h hQuery
  | insert statement params =>
      cases hWrite
      exact h hQuery
  | _ => cases hWrite

/-- So it is collected. -/
theorem Collects.write {kept start : γ}
    {writes : List (Statement × List Value)} {answer : c.Answer}
    {write : Statement × List Value}
    (h : before.Collects run kept start writes)
    (hAnswers : Answers run before after c (.ok answer))
    (hWrite : c.write? = some write) (hQuery : write.1.isQuery = false) :
    after.Collects run kept start (writes ++ [write]) := by
  obtain ⟨outcome, hRun⟩ := execute_of_answers hAnswers hWrite hQuery
  obtain ⟨hContent, hAfter⟩ := execute_eq_ok hRun
  have hCommitted := committed_execute h.autoCommit (run write.1 write.2)
  rw [hRun] at hCommitted
  refine ⟨?_, hCommitted.trans h.committed, ?_⟩
  · rw [hAfter]
    simp [h.autoCommit]
  · have hStart := h.content
    rw [runAll] at hStart ⊢
    rw [List.foldlM_append, hStart]
    simp [bind, Except.bind, Except.map, hContent, pure, Except.pure]

end

end Transactional

/-- A driver with transactions over contents of type `γ`. -/
structure Transactions (σ γ : Type) [Driver σ] where
  /-- The states of the driver that this is said of. -/
  Valid : σ → Prop
  /-- What a connection sees. -/
  view : ConnId → σ → Transactional γ
  /-- What a statement does to the contents. -/
  run : Statement → List Value → γ → Except StoreFault (Outcome × γ)
  valid_call : ∀ {t : σ} (conn : ConnId) (c : Call), Valid t →
    Valid (Driver.call conn c t).2
  answers : ∀ {t : σ} (conn : ConnId) (c : Call), Valid t →
    Transactional.Answers run (view conn t)
      (view conn (Driver.call conn c t).2) c (Driver.call conn c t).1

namespace Transactions

variable [Driver σ] (T : Transactions σ γ)

/-- What is committed, as a connection sees it. -/
def committed (conn : ConnId) (t : σ) : γ := (T.view conn t).committed

/-- Auto-commit is on and no transaction is open. -/
def Clean (conn : ConnId) (t : σ) : Prop :=
  (T.view conn t).autoCommit = true ∧ (T.view conn t).inTransaction = false

/-- What statements do to contents one after another. -/
def runAll (writes : List (Statement × List Value)) (content : γ) :
    Except StoreFault γ :=
  Transactional.runAll T.run writes content

variable {T} {t : σ} {conn : ConnId}

/-! ## What calls leave -/

/-- Auto-commit can always be switched off, and can be switched on where no
transaction is open. -/
theorem setAutoCommit_ok {on : Bool} (hValid : T.Valid t)
    (hFree : on = true → (T.view conn t).inTransaction = false) :
    (Driver.call conn (.setAutoCommit on) t).1 = .ok () := by
  have hAnswers := T.answers conn (.setAutoCommit on) hValid
  cases hCall : (Driver.call conn (.setAutoCommit on) t).1 with
  | ok _ => rfl
  | error e =>
      rw [hCall] at hAnswers
      obtain ⟨hOn, hOpen, _⟩ := hAnswers
      cases (hFree hOn).symm.trans hOpen

theorem view_setAutoCommit {on : Bool} (hValid : T.Valid t)
    (hCall : (Driver.call conn (.setAutoCommit on) t).1 = .ok ()) :
    T.view conn (Driver.call conn (.setAutoCommit on) t).2 =
      (T.view conn t).setAutoCommit on := by
  have hAnswers := T.answers conn (.setAutoCommit on) hValid
  rw [hCall] at hAnswers
  exact hAnswers

theorem view_commit (hValid : T.Valid t)
    (hCommit : (Driver.call conn .commit t).1 = .ok ()) :
    T.view conn (Driver.call conn .commit t).2 = (T.view conn t).commit := by
  have hAnswers := T.answers conn .commit hValid
  rw [hCommit] at hAnswers
  exact hAnswers

theorem view_rollback (hValid : T.Valid t)
    (hRollback : (Driver.call conn .rollback t).1 = .ok ()) :
    T.view conn (Driver.call conn .rollback t).2 =
      (T.view conn t).rollback := by
  have hAnswers := T.answers conn .rollback hValid
  rw [hRollback] at hAnswers
  exact hAnswers

/-- Auto-commit that is switched on leaves the connection without a
transaction. -/
theorem clean_switched (hValid : T.Valid t)
    (hCall : (Driver.call conn (.setAutoCommit true) t).1 = .ok ()) :
    T.Clean conn (Driver.call conn (.setAutoCommit true) t).2 := by
  rw [Clean, view_setAutoCommit hValid hCall]
  exact ⟨rfl, rfl⟩

/-- A call that fails commits nothing. -/
theorem committed_of_error {c : Call} {e : Error}
    (hValid : T.Valid t) (hConnect : c ≠ .connect)
    (hCall : (Driver.call conn c t).1 = .error e) :
    T.committed conn (Driver.call conn c t).2 = T.committed conn t := by
  have hAnswers := T.answers conn c hValid
  rw [hCall] at hAnswers
  exact Transactional.committed_of_error hAnswers hConnect

/-- Outside of transactions a query leaves the connection as it was. -/
theorem view_query {statement : Statement} (hValid : T.Valid t)
    (hClean : T.Clean conn t) (hQuery : statement.isQuery = true)
    (params : List Value) :
    T.view conn (Driver.call conn (.query statement params) t).2 =
      T.view conn t :=
  ((T.answers conn _ hValid).retains_query hQuery).eq hClean.1 hClean.2

/-- A connection that is closed is in no transaction. -/
theorem inTransaction_close (conn : ConnId) (hValid : T.Valid t) :
    (T.view conn (Driver.call conn .close t).2).inTransaction = false :=
  (T.answers conn .close hValid).1

/-- Closing a connection commits nothing. -/
theorem committed_close (conn : ConnId) (hValid : T.Valid t) :
    T.committed conn (Driver.call conn .close t).2 = T.committed conn t :=
  (T.answers conn .close hValid).committed_close

/-! ## A transaction from its start to its end -/

/-- The statements carried out so far are in an open transaction, or in one
that the next statement opens. -/
structure Joined (T : Transactions σ γ) (conn : ConnId) (start : γ)
    (writes : List (Statement × List Value)) (t : σ) : Prop where
  valid : T.Valid t
  collects : (T.view conn t).Collects T.run start start writes

/-- With auto-commit switched off, a transaction can begin. -/
theorem joined_setAutoCommit (hValid : T.Valid t) (hClean : T.Clean conn t) :
    (Driver.call conn (.setAutoCommit false) t).1 = .ok () ∧
      T.Joined conn (T.committed conn t) []
        (Driver.call conn (.setAutoCommit false) t).2 := by
  have hCall : (Driver.call conn (.setAutoCommit false) t).1 = .ok () :=
    setAutoCommit_ok hValid nofun
  have hView := view_setAutoCommit hValid hCall
  have hContent : (T.view conn t).committed = (T.view conn t).content :=
    Transactional.committed_of_not_inTransaction hClean.2
  refine ⟨hCall, T.valid_call conn _ hValid, ?_⟩
  rw [hView, committed, hContent]
  exact ⟨rfl, hContent, rfl⟩

/-- A statement that is carried out joins the transaction. -/
theorem joined_write {start : γ}
    {writes : List (Statement × List Value)} {c : Call} {answer : c.Answer}
    {write : Statement × List Value} (hJoined : T.Joined conn start writes t)
    (hWrite : c.write? = some write) (hQuery : write.1.isQuery = false)
    (hCall : (Driver.call conn c t).1 = .ok answer) :
    T.Joined conn start (writes ++ [write]) (Driver.call conn c t).2 := by
  have hAnswers := T.answers conn c hJoined.valid
  rw [hCall] at hAnswers
  exact ⟨T.valid_call conn c hJoined.valid,
    hJoined.collects.write hAnswers hWrite hQuery⟩

/-- A commit makes the statements of the transaction take effect, and
auto-commit can be switched on again. -/
theorem committed_commit {start : γ} {writes : List (Statement × List Value)}
    (hJoined : T.Joined conn start writes t)
    (hCommit : (Driver.call conn .commit t).1 = .ok ()) :
    (Driver.call conn (.setAutoCommit true)
        (Driver.call conn .commit t).2).1 = .ok () ∧
      T.Clean conn (Driver.call conn (.setAutoCommit true)
        (Driver.call conn .commit t).2).2 ∧
      T.runAll writes start = .ok (T.committed conn
        (Driver.call conn (.setAutoCommit true)
          (Driver.call conn .commit t).2).2) := by
  have hView := view_commit hJoined.valid hCommit
  have hStill := T.valid_call conn .commit hJoined.valid
  have hSwitched : (Driver.call conn (.setAutoCommit true)
      (Driver.call conn .commit t).2).1 = .ok () :=
    setAutoCommit_ok hStill fun _ => by
      rw [hView, Transactional.inTransaction_commit]
  refine ⟨hSwitched, clean_switched hStill hSwitched, ?_⟩
  rw [committed, view_setAutoCommit hStill hSwitched, hView]
  exact hJoined.collects.content

/-- After a rollback nothing is committed, and auto-commit can be switched on
again. -/
theorem committed_rollback (hValid : T.Valid t)
    (hRollback : (Driver.call conn .rollback t).1 = .ok ()) :
    T.Clean conn (Driver.call conn (.setAutoCommit true)
        (Driver.call conn .rollback t).2).2 ∧
      T.committed conn (Driver.call conn (.setAutoCommit true)
        (Driver.call conn .rollback t).2).2 = T.committed conn t := by
  have hView := view_rollback hValid hRollback
  have hStill := T.valid_call conn .rollback hValid
  have hSwitched : (Driver.call conn (.setAutoCommit true)
      (Driver.call conn .rollback t).2).1 = .ok () :=
    setAutoCommit_ok hStill fun _ => by
      rw [hView, Transactional.inTransaction_rollback]
  refine ⟨clean_switched hStill hSwitched, ?_⟩
  rw [committed, committed, view_setAutoCommit hStill hSwitched, hView]
  rfl

end Transactions

end UnitOfWork
