import UnitOfWork.Heap
import UnitOfWork.Step

/-!
# Collections behind their loans

A collection is shared, so each access to it takes out a loan: one for reading
while its source is asked and while its members are looked at, one for change
while loaded members are put in their place and while members are changed. The
loans are counted, and a loan that does not go with those that are out is
refused.

No request comes across the loans of another, except those that are made while
the members are lent. So the loans show only there: what would change the
members is refused and all else is answered. Seen from outside a collection is
the plain list of the first load that succeeds.

## Main results

* `Guarded.perform_free`: the loans do not show from outside;
* `Guarded.perform_shared`: while the members are lent nothing changes them;
* `Guarded.serve_unresolved`: a run of requests before and after the load;
* `Guarded.acts_as_list`: a collection is the list of its first load.
-/

namespace UnitOfWork

/-! ## Requests in a row -/

namespace Request

/-- Whether a request needs the members. -/
def accesses : Request → Bool
  | isLoaded | debug => false
  | _ => true

/-- Whether a request changes the members. -/
def changes : Request → Bool
  | push _ | remove _ | clear => true
  | _ => false

/-- The number of requests that need the members. -/
def accessCount (requests : List Request) : Nat := requests.countP accesses

/-- The answers to requests on a plain list, and the list afterwards. -/
def onListAll (items : List Ref) : List Request → List Reply × List Ref
  | [] => ([], items)
  | request :: rest =>
    let answer := request.onList items
    let others := onListAll answer.2 rest
    (answer.1 :: others.1, others.2)

/-- The answer of a collection without members to a request that does not need
them. -/
def unloaded : Request → Reply
  | isLoaded => .flag false
  | _ => .text "EntityCollection(<unresolved>)"

/-- The outcomes of requests that each have the members loaded if they need
them, from the `n`-th load on. -/
def outcomes (replies : Nat → Except Error (List Ref)) :
    Nat → List Request → List (Except Error Reply)
  | _, [] => []
  | n, request :: rest =>
    if request.accesses then
      (replies n).map (fun items => (request.onList items).1) ::
        outcomes replies (n + 1) rest
    else .ok request.unloaded :: outcomes replies n rest

end Request

/-! ## Loans -/

/-- A loan for reading is granted, and what is given back is what was out
before. -/
def Hold.Lends (hold lent : Hold) : Prop :=
  hold.borrow? false = some lent ∧ lent.giveBack = hold

theorem Hold.lends_free : Hold.free.Lends (.shared 1) := ⟨rfl, rfl⟩

theorem Hold.lends_shared (readers : Nat) :
    (Hold.shared (readers + 1)).Lends (.shared (readers + 2)) := ⟨rfl, rfl⟩

namespace Reply

/-- The answer that an outcome is reported as. -/
def ofOutcome : Except Error Reply → Reply
  | .ok reply => reply
  | .error e => .refused e

/-- The outcome that an answer stands for. -/
def outcome : Reply → Except Error Reply
  | refused e => .error e
  | reply => .ok reply

@[simp] theorem ofOutcome_outcome (reply : Reply) :
    ofOutcome reply.outcome = reply := by
  cases reply <;> rfl

end Reply

variable {σ τ α : Type}

/-- A collection, the loans that are out on it, and the state that its source
works on. -/
structure Guarded (σ τ : Type) where
  members : Collection σ
  hold : Hold
  world : τ

namespace Guarded

/-- Runs a step during a loan, unless the loan is refused. -/
def lending (mutable : Bool) (refusal : StateFault)
    (m : Step (Guarded σ τ) α) : Step (Guarded σ τ) α := fun g =>
  match g.hold.borrow? mutable with
  | none => (.error (.state refusal), g)
  | some hold =>
    let r := m { g with hold := hold }
    (r.1, { r.2 with hold := r.2.hold.giveBack })

/-- Runs a step during a loan for reading. -/
def reading (m : Step (Guarded σ τ) α) : Step (Guarded σ τ) α :=
  lending false (.other "collection is being modified") m

/-- Runs a step during a loan for change. -/
def changing (m : Step (Guarded σ τ) α) : Step (Guarded σ τ) α :=
  lending true .collectionBorrowed m

/-- The error of a collection that is unresolved after all. -/
def notResolved : Error := .state (.other "collection was not resolved")

variable (load : σ → τ → Except Error (List Ref) × τ)

/-- Asks the source for the members, if there are none yet. -/
def fetch : Step (Guarded σ τ) (Option (List Ref)) := fun g =>
  match g.members with
  | .resolved _ => (.ok none, g)
  | .unresolved source =>
    let r := load source g.world
    (r.1.map some, { g with world := r.2 })

/-- Sees to it that the members are there. -/
def materialize : Step (Guarded σ τ) Unit := do
  match ← reading (fetch load) with
  | none => pure ()
  | some items =>
    changing (Step.modify fun g => { g with members := .resolved items })

/-- Lends the members for the time of a step. -/
def withItems (f : List Ref → Step (Guarded σ τ) α) :
    Step (Guarded σ τ) α := do
  materialize load
  reading fun g =>
    match g.members with
    | .resolved items => f items g
    | .unresolved _ => (.error notResolved, g)

/-- Changes the members. -/
def withItemsMut (f : List Ref → α × List Ref) : Step (Guarded σ τ) α := do
  materialize load
  changing fun g =>
    match g.members with
    | .resolved items =>
      (.ok (f items).1, { g with members := .resolved (f items).2 })
    | .unresolved _ => (.error notResolved, g)

/-- What a collection shows of itself. A collection on loan for change shows
nothing. -/
def visible? (g : Guarded σ τ) : Option (Option (List Ref)) :=
  match g.hold.borrow? false, g.members with
  | none, _ => none
  | some _, .unresolved _ => some none
  | some _, .resolved items => some (some items)

/-- Carries out a request, with the loans that it takes. -/
def perform : Request → Step (Guarded σ τ) Reply
  | .len => withItems load fun items => pure (.count items.length)
  | .isEmpty => withItems load fun items => pure (.flag items.isEmpty)
  | .get index => withItems load fun items => pure (.item items[index]?)
  | .toList => withItems load fun items => pure (.items items)
  | .contains member => withItems load fun items =>
    pure (.flag (items.any (· == member)))
  | .push member => withItemsMut load fun items => (.done, items ++ [member])
  | .remove member => withItemsMut load fun items =>
    let kept := items.filter (· != member)
    (.flag (kept.length != items.length), kept)
  | .clear => withItemsMut load fun _ => (.done, [])
  | .within inner => withItems load fun items => do
    let outcome ← (perform inner).attempt
    pure (.lent items (Reply.ofOutcome outcome))
  | .isLoaded => fun g =>
    match g.visible? with
    | some (some _) => (.ok (.flag true), g)
    | _ => (.ok (.flag false), g)
  | .debug => fun g =>
    match g.visible? with
    | some (some items) =>
      (.ok (.text
        ("EntityCollection \x7b len: " ++ toString items.length ++ " \x7d")), g)
    | some none => (.ok (.text "EntityCollection(<unresolved>)"), g)
    | none => (.ok (.text "EntityCollection(<borrowed>)"), g)

/-! ## Loans for reading -/

variable {load : σ → τ → Except Error (List Ref) × τ} {items : List Ref}
  {hold lent : Hold} {source : σ} {t : τ}

theorem reading_run (hLends : hold.Lends lent) (m : Step (Guarded σ τ) α)
    {g : Guarded σ τ} (hHold : g.hold = hold) :
    (reading m).run g =
      ((m.run { g with hold := lent }).1,
        { (m.run { g with hold := lent }).2 with
          hold := (m.run { g with hold := lent }).2.hold.giveBack }) := by
  show lending false _ m g = _
  rw [lending, hHold, hLends.1]
  rfl

/-- A step that changes nothing during a loan changes nothing. -/
theorem reading_run_of_same (hLends : hold.Lends lent)
    {m : Step (Guarded σ τ) α} {members : Collection σ} {r : Except Error α}
    (hRun : m.run ⟨members, lent, t⟩ = (r, ⟨members, lent, t⟩)) :
    (reading m).run ⟨members, hold, t⟩ = (r, ⟨members, hold, t⟩) := by
  rw [reading_run hLends m rfl, hRun, hLends.2]

/-- Members that are there are not loaded. -/
theorem materialize_resolved (hLends : hold.Lends lent) :
    (materialize load).run ⟨.resolved items, hold, t⟩ =
      (.ok (), ⟨.resolved items, hold, t⟩) := by
  have hFetch : (reading (fetch load)).run ⟨.resolved items, hold, t⟩ =
      (.ok none, ⟨.resolved items, hold, t⟩) :=
    reading_run_of_same hLends rfl
  rw [materialize, Step.bind_run, hFetch]
  rfl

/-- The source is asked once, and what it gives is put in its place. -/
theorem materialize_unresolved :
    (materialize load).run ⟨.unresolved source, .free, t⟩ =
      match load source t with
      | (.error e, t) => (.error e, ⟨.unresolved source, .free, t⟩)
      | (.ok items, t) => (.ok (), ⟨.resolved items, .free, t⟩) := by
  rw [materialize, Step.bind_run, reading_run Hold.lends_free _ rfl]
  simp only [fetch, Step.run]
  cases load source t with
  | mk r t =>
      cases r <;> rfl

theorem withItems_resolved (hLends : hold.Lends lent)
    {f : List Ref → Step (Guarded σ τ) α} {r : Except Error α}
    (hRun : (f items).run ⟨.resolved items, lent, t⟩ =
      (r, ⟨.resolved items, lent, t⟩)) :
    (withItems load f).run ⟨.resolved items, hold, t⟩ =
      (r, ⟨.resolved items, hold, t⟩) := by
  rw [withItems, Step.bind_run, materialize_resolved hLends]
  exact reading_run_of_same hLends hRun

theorem withItemsMut_free (f : List Ref → α × List Ref) :
    (withItemsMut load f).run ⟨.resolved items, .free, t⟩ =
      (.ok (f items).1, ⟨.resolved (f items).2, .free, t⟩) := by
  rw [withItemsMut, Step.bind_run, materialize_resolved Hold.lends_free]
  rfl

/-- Members that are lent cannot be changed. -/
theorem withItemsMut_shared (f : List Ref → α × List Ref) (readers : Nat) :
    (withItemsMut load f).run ⟨.resolved items, .shared (readers + 1), t⟩ =
      (.error (.state .collectionBorrowed),
        ⟨.resolved items, .shared (readers + 1), t⟩) := by
  rw [withItemsMut, Step.bind_run,
    materialize_resolved (Hold.lends_shared readers)]
  rfl

/-! ## Requests during a loan -/

/-- While the members are lent requests are answered or refused, and nothing
changes. -/
theorem perform_shared (request : Request) (readers : Nat) :
    (perform load request).run ⟨.resolved items, .shared (readers + 1), t⟩ =
      ((request.whileLent items).outcome,
        ⟨.resolved items, .shared (readers + 1), t⟩) := by
  induction request generalizing readers with
  | len | isEmpty | get | toList =>
      exact withItems_resolved (Hold.lends_shared readers) rfl
  | contains member =>
      rw [perform, withItems_resolved (Hold.lends_shared readers) rfl,
        List.any_beq']
      rfl
  | push | remove | clear => exact withItemsMut_shared _ readers
  | within inner ih =>
      -- The inner request meets one loan more than the outer one.
      refine withItems_resolved (Hold.lends_shared readers) ?_
      rw [Step.bind_run, Step.attempt_run, ih (readers + 1)]
      simp only [Reply.ofOutcome_outcome]
      rfl
  | isLoaded => rfl
  | debug => rfl

/-- What someone does to whom the members are lent: one request after the
other, each with regard to the outcomes so far. -/
inductive Visit (α : Type)
  | leave (result : α)
  | ask (request : Request) (next : Except Error Reply → Visit α)

namespace Visit

/-- Makes the requests of a visit. -/
def perform (load : σ → τ → Except Error (List Ref) × τ) :
    Visit α → Step (Guarded σ τ) α
  | leave result => pure result
  | ask request next => do
    let outcome ← (Guarded.perform load request).attempt
    (next outcome).perform load

/-- The result of a visit to members that nobody changes meanwhile. -/
def result (items : List Ref) : Visit α → α
  | leave result => result
  | ask request next => (next (request.whileLent items).outcome).result items

/-- A visit changes nothing. -/
theorem perform_shared (visit : Visit α) (readers : Nat) :
    (visit.perform load).run ⟨.resolved items, .shared (readers + 1), t⟩ =
      (.ok (visit.result items),
        ⟨.resolved items, .shared (readers + 1), t⟩) := by
  induction visit with
  | leave result => rfl
  | ask request next ih =>
      rw [perform, Step.bind_run, Step.attempt_run,
        Guarded.perform_shared request readers]
      exact ih _

end Visit

/-! ## Requests from outside -/

/-- A removal that leaves as many members as there were has removed none. -/
theorem length_filter_bne (items : List Ref) (member : Ref) :
    ((items.filter (· != member)).length != items.length) =
      items.contains member := by
  rw [Bool.eq_iff_iff, bne_iff_ne, List.contains_iff_mem, Ne,
    List.length_filter_eq_length_iff]
  constructor
  · intro hRemoved
    refine Decidable.byContradiction fun hAbsent => hRemoved ?_
    intro other hOther
    rw [bne_iff_ne]
    rintro rfl
    exact hAbsent hOther
  · intro hMem hKept
    have hSelf := hKept member hMem
    simp at hSelf

/-- From outside resolved members are a plain list. -/
theorem perform_free (request : Request) :
    (perform load request).run ⟨.resolved items, .free, t⟩ =
      (.ok (request.onList items).1,
        ⟨.resolved (request.onList items).2, .free, t⟩) := by
  cases request with
  | len | isEmpty | get | toList => exact withItems_resolved Hold.lends_free rfl
  | contains member =>
      rw [perform, withItems_resolved Hold.lends_free rfl, List.any_beq']
      rfl
  | push member | clear => exact withItemsMut_free _
  | remove member =>
      rw [perform, withItemsMut_free]
      simp only [length_filter_bne]
      rfl
  | within inner =>
      refine withItems_resolved Hold.lends_free ?_
      rw [Step.bind_run, Step.attempt_run, perform_shared inner 0]
      simp only [Reply.ofOutcome_outcome]
      rfl
  | isLoaded => rfl
  | debug => rfl

/-- What needs the members finds them as if they had been there, once they are
loaded. -/
theorem bind_materialize_unresolved (m : Step (Guarded σ τ) α) :
    (materialize load >>= fun _ => m).run ⟨.unresolved source, .free, t⟩ =
      match load source t with
      | (.error e, t) => (.error e, ⟨.unresolved source, .free, t⟩)
      | (.ok items, t) =>
        (materialize load >>= fun _ => m).run ⟨.resolved items, .free, t⟩ := by
  rw [Step.bind_run, materialize_unresolved]
  cases load source t with
  | mk r t =>
      cases r with
      | error e => rfl
      | ok items =>
          simp only
          rw [Step.bind_run, materialize_resolved Hold.lends_free]

theorem perform_of_unresolved {request : Request}
    (h : request.accesses = true) :
    (perform load request).run ⟨.unresolved source, .free, t⟩ =
      match load source t with
      | (.error e, t) => (.error e, ⟨.unresolved source, .free, t⟩)
      | (.ok items, t) =>
        (perform load request).run ⟨.resolved items, .free, t⟩ := by
  cases request with
  | isLoaded | debug => cases h
  | _ => exact bind_materialize_unresolved _

/-- A request that needs the members has them loaded first. -/
theorem perform_unresolved {request : Request}
    (h : request.accesses = true) :
    (perform load request).run ⟨.unresolved source, .free, t⟩ =
      match load source t with
      | (.error e, t) => (.error e, ⟨.unresolved source, .free, t⟩)
      | (.ok items, t) =>
        (.ok (request.onList items).1,
          ⟨.resolved (request.onList items).2, .free, t⟩) := by
  rw [perform_of_unresolved h]
  cases load source t with
  | mk r t =>
      cases r with
      | error e => rfl
      | ok items => exact perform_free request

/-- From outside the loans do not show. -/
theorem perform_eq (c : Collection σ) (request : Request) :
    (perform load request).run ⟨c, .free, t⟩ =
      ((c.perform load request t).1,
        ⟨(c.perform load request t).2.1, .free,
          (c.perform load request t).2.2⟩) := by
  cases c with
  | resolved items =>
      rw [Collection.perform_resolved, perform_free]
  | unresolved source =>
      cases hAccesses : request.accesses with
      | false =>
          cases request with
          | isLoaded | debug => rfl
          | _ => cases hAccesses
      | true =>
          have hOther : request ≠ .isLoaded ∧ request ≠ .debug := by
            constructor <;> rintro rfl <;> cases hAccesses
          rw [perform_unresolved hAccesses,
            Collection.perform_unresolved load source hOther.1 hOther.2]
          cases load source t with
          | mk r t =>
              cases r with
              | error e => rfl
              | ok items => simp only [Collection.perform_resolved]

/-! ## Runs of requests -/

/-- Carries out requests one after the other. -/
def serve (load : σ → τ → Except Error (List Ref) × τ) :
    List Request → Guarded σ τ → List (Except Error Reply) × Guarded σ τ
  | [], g => ([], g)
  | request :: rest, g =>
    let r := (perform load request).run g
    let others := serve load rest r.2
    (r.1 :: others.1, others.2)

/-- A source that counts how often it is asked. -/
def counted (replies : Nat → Except Error (List Ref)) (_ : σ) (n : Nat) :
    Except Error (List Ref) × Nat :=
  (replies n, n + 1)

/-- A source fails the next `k` times that it is asked. -/
def Fails (replies : Nat → Except Error (List Ref)) (n k : Nat) : Prop :=
  ∀ i, i < k → ∃ e, replies (n + i) = .error e

namespace Fails

variable {replies : Nat → Except Error (List Ref)} {n k : Nat} {e : Error}

theorem zero : Fails replies n 0 := fun _ hLt => absurd hLt (Nat.not_lt_zero _)

theorem succ (hFirst : replies n = .error e) (h : Fails replies (n + 1) k) :
    Fails replies n (k + 1) := by
  intro i hI
  cases i with
  | zero => exact ⟨e, hFirst⟩
  | succ i =>
      obtain ⟨e', hError⟩ := h i (by omega)
      exact ⟨e', by rw [← hError]; congr 1; omega⟩

end Fails

/-- Resolved members answer a run of requests as a plain list, and no source is
asked. -/
theorem serve_resolved (requests : List Request) :
    serve load requests ⟨.resolved items, .free, t⟩ =
      ((Request.onListAll items requests).1.map .ok,
        ⟨.resolved (Request.onListAll items requests).2, .free, t⟩) := by
  induction requests generalizing items with
  | nil => rfl
  | cons request rest ih =>
      rw [serve, perform_free]
      simp only [ih]
      rfl

/-- A request that does not need the members leaves them unresolved. -/
theorem perform_unloaded {request : Request} (h : request.accesses = false) :
    (perform load request).run ⟨.unresolved source, .free, t⟩ =
      (.ok request.unloaded, ⟨.unresolved source, .free, t⟩) := by
  cases request with
  | isLoaded | debug => rfl
  | _ => cases h

/-- What comes of a run of requests on a collection whose source is asked for
the `n`-th time next: either the source fails whenever it is asked, or it
succeeds at some request, and that one and all that follow see the plain list
that it gave. -/
inductive Served (replies : Nat → Except Error (List Ref)) (source : σ)
    (n : Nat) : List Request → List (Except Error Reply) × Guarded σ Nat → Prop
  | failing {requests : List Request}
      (fails : Fails replies n (Request.accessCount requests)) :
      Served replies source n requests
        (Request.outcomes replies n requests,
          ⟨.unresolved source, .free, n + Request.accessCount requests⟩)
  | loaded {before : List Request} {request : Request} {after : List Request}
      {items : List Ref} (fails : Fails replies n (Request.accessCount before))
      (accesses : request.accesses = true)
      (reply : replies (n + Request.accessCount before) = .ok items) :
      Served replies source n (before ++ request :: after)
        (Request.outcomes replies n before ++
            (Request.onListAll items (request :: after)).1.map .ok,
          ⟨.resolved (Request.onListAll items (request :: after)).2, .free,
            n + Request.accessCount before + 1⟩)

/-- A request that leaves the collection unresolved can come before a run. -/
theorem Served.cons {replies : Nat → Except Error (List Ref)} {n m : Nat}
    {first : Request} {rest : List Request} {outcome : Except Error Reply}
    {r : List (Except Error Reply) × Guarded σ Nat}
    (hOutcomes : ∀ later, Request.outcomes replies n (first :: later) =
      outcome :: Request.outcomes replies m later)
    (hCount : ∀ later, m + Request.accessCount later =
      n + Request.accessCount (first :: later))
    (hFails : ∀ later, Fails replies m (Request.accessCount later) →
      Fails replies n (Request.accessCount (first :: later)))
    (h : Served replies source m rest r) :
    Served replies source n (first :: rest) (outcome :: r.1, r.2) := by
  cases h with
  | failing fails =>
      rw [← hOutcomes, hCount]
      exact .failing (hFails rest fails)
  | @loaded before request after items fails accesses reply =>
      rw [hCount] at reply ⊢
      have hServed : Served replies source n
          ((first :: before) ++ request :: after) _ :=
        .loaded (hFails before fails) accesses reply
      rw [hOutcomes] at hServed
      exact hServed

/-- A run of requests is served so, whatever the source replies. -/
theorem serve_unresolved (replies : Nat → Except Error (List Ref)) (source : σ)
    (requests : List Request) (n : Nat) :
    Served replies source n requests
      (serve (counted replies) requests ⟨.unresolved source, .free, n⟩) := by
  induction requests generalizing n with
  | nil => exact .failing Fails.zero
  | cons first rest ih =>
      cases hAccesses : first.accesses with
      | false =>
          rw [serve, perform_unloaded hAccesses]
          refine (ih n).cons (fun later => ?_) (fun later => ?_) fun later => ?_
          · simp [Request.outcomes, hAccesses]
          · simp [Request.accessCount, hAccesses]
          · simp [Request.accessCount, hAccesses]
      | true =>
          have hCount : ∀ later, Request.accessCount (first :: later) =
              Request.accessCount later + 1 := fun later => by
            simp [Request.accessCount, hAccesses]
          rw [serve, perform_unresolved hAccesses]
          cases hFirst : replies n with
          | ok items =>
              simp only [counted, hFirst, serve_resolved]
              have hServed : Served replies source n ([] ++ first :: rest) _ :=
                .loaded Fails.zero hAccesses hFirst
              exact hServed
          | error e =>
              simp only [counted, hFirst]
              refine (ih (n + 1)).cons (fun later => ?_) (fun later => ?_)
                fun later hFails => ?_
              · rw [Request.outcomes, if_pos hAccesses, hFirst]
                rfl
              · rw [hCount]
                omega
              · rw [hCount]
                exact hFails.succ hFirst

example :
    serve (counted fun n => if n = 0 then .error .poolClosed else .ok [4, 5])
        [.len, .isLoaded, .push 4, .within .clear, .remove 4, .toList]
        ⟨.unresolved (), .free, 0⟩ =
      ([.error .poolClosed, .ok (.flag false), .ok .done,
          .ok (.lent [4, 5, 4] (.refused (.state .collectionBorrowed))),
          .ok (.flag true), .ok (.items [5])],
        ⟨.resolved [5], .free, 2⟩) := rfl

/-! ## The list of the first load -/

/-- The members of a collection, loaded if they have to be. -/
def opened (load : σ → τ → Except Error (List Ref) × τ) (t : τ) :
    Collection σ → Except Error (List Ref) × Guarded σ τ
  | .resolved items => (.ok items, ⟨.resolved items, .free, t⟩)
  | .unresolved source =>
    match load source t with
    | (.error e, t) => (.error e, ⟨.unresolved source, .free, t⟩)
    | (.ok items, t) => (.ok items, ⟨.resolved items, .free, t⟩)

/-- Who is lent the members sees those that are there or are loaded, and leaves
them as they are. -/
theorem withItems_visit (visit : List Ref → Visit α) (c : Collection σ) :
    (withItems load fun items => (visit items).perform load).run
        ⟨c, .free, t⟩ =
      ((opened load t c).1.map fun items => (visit items).result items,
        (opened load t c).2) := by
  have hVisit : ∀ items (t : τ),
      (withItems load fun items => (visit items).perform load).run
          ⟨.resolved items, .free, t⟩ =
        (.ok ((visit items).result items), ⟨.resolved items, .free, t⟩) :=
    fun items t => withItems_resolved Hold.lends_free
      ((visit items).perform_shared 0)
  cases c with
  | resolved items => exact hVisit items t
  | unresolved source =>
      rw [withItems, bind_materialize_unresolved, opened]
      cases load source t with
      | mk r t =>
          cases r with
          | error e => rfl
          | ok items => exact hVisit items t

/-- A collection acts as a list. Seen from outside it is the list of the first
load that succeeds, and the source is asked once for each request that needs the
members until then, and not again. Who is lent the members sees that list and
cannot change it. The loans do not show otherwise. -/
theorem acts_as_list (σ τ α : Type) (requests : List Request) :
    (∀ (replies : Nat → Except Error (List Ref)) (source : σ) (n : Nat),
      Served replies source n requests
        (serve (counted replies) requests ⟨.unresolved source, .free, n⟩)) ∧
    (∀ (load : σ → τ → Except Error (List Ref) × τ) (items : List Ref) (t : τ),
      serve load requests ⟨.resolved items, .free, t⟩ =
        ((Request.onListAll items requests).1.map .ok,
          ⟨.resolved (Request.onListAll items requests).2, .free, t⟩)) ∧
    (∀ (load : σ → τ → Except Error (List Ref) × τ) (c : Collection σ) (t : τ)
        (visit : List Ref → Visit α),
      (withItems load fun items => (visit items).perform load).run
          ⟨c, .free, t⟩ =
        ((opened load t c).1.map fun items => (visit items).result items,
          (opened load t c).2)) ∧
    (∀ (load : σ → τ → Except Error (List Ref) × τ) (items : List Ref) (t : τ)
        (readers : Nat) (request : Request), request.changes = true →
      (perform load request).run ⟨.resolved items, .shared (readers + 1), t⟩ =
        (.error (.state .collectionBorrowed),
          ⟨.resolved items, .shared (readers + 1), t⟩)) ∧
    ∀ (load : σ → τ → Except Error (List Ref) × τ) (c : Collection σ) (t : τ)
        (request : Request),
      (perform load request).run ⟨c, .free, t⟩ =
        ((c.perform load request t).1,
          ⟨(c.perform load request t).2.1, .free,
            (c.perform load request t).2.2⟩) := by
  refine ⟨fun replies source n => serve_unresolved replies source requests n,
    fun load items t => serve_resolved requests,
    fun load c t visit => withItems_visit visit c,
    fun load items t readers request hChanges => ?_,
    fun load c t request => perform_eq c request⟩
  cases request with
  | push | remove | clear => exact perform_shared _ readers
  | _ => cases hChanges

/-- Two members that are lent cannot be cleared away. A source that fails once
is asked twice. -/
theorem acts_as_list_of_lent :
    Request.clear.changes = true ∧
      (perform (counted fun _ => .ok []) .clear).run
          ⟨.resolved [4, 5], .shared 1, 0⟩ =
        (.error (.state .collectionBorrowed),
          (⟨.resolved [4, 5], .shared 1, 0⟩ : Guarded Unit Nat)) ∧
      Served (fun n => if n = 0 then .error .poolClosed else .ok [4, 5]) ()
        0 [.len, .isLoaded, .clear, .len]
        ([.error .poolClosed, .ok (.flag false), .ok .done, .ok (.count 0)],
          ⟨.resolved [], .free, 2⟩) := by
  obtain ⟨hServed, _, _, hLent, _⟩ :=
    acts_as_list Unit Nat Unit [.len, .isLoaded, .clear, .len]
  exact ⟨rfl, hLent _ [4, 5] 0 0 .clear rfl,
    hServed (fun n => if n = 0 then .error .poolClosed else .ok [4, 5]) () 0⟩

end Guarded

end UnitOfWork
