import UnitOfWork.Error

/-!
# Collections of entities

The entities on the many side of a relation. A collection is resolved, and is
then a plain list, or it is unresolved and only knows a source that its
members can be loaded from. The first request that needs the members loads
them; if the load fails the collection stays unresolved, and the next request
loads again. Members are compared by identity.

While the members are on loan (`Request.within`) they can be read but not
changed.

## Main results

* `Collection.perform_resolved`: a resolved collection is a plain list;
* `Collection.perform_unresolved`: an unresolved one loads once and answers as
  the list that was loaded, or stays as it is.
-/

namespace UnitOfWork

/-- A reference to an entity instance. -/
abbrev Ref := Nat

/-! ## Requests -/

/-- What can be asked of a collection. -/
inductive Request
  | len
  | isEmpty
  | get (index : Nat)
  | toList
  | contains (member : Ref)
  | push (member : Ref)
  | remove (member : Ref)
  | clear
  /-- Lends the members for the time of another request. -/
  | within (inner : Request)
  | isLoaded
  | debug
deriving DecidableEq

/-- The answer to a request. -/
inductive Reply
  | count (n : Nat)
  | flag (b : Bool)
  | item (member : Option Ref)
  | items (members : List Ref)
  | done
  | text (s : String)
  /-- The members lent, and the answer to the request made meanwhile. -/
  | lent (members : List Ref) (inner : Reply)
  | refused (e : Error)
deriving DecidableEq

namespace Request

/-- The answer to a request that is made while the members are on loan. -/
def whileLent (items : List Ref) : Request → Reply
  | len => .count items.length
  | isEmpty => .flag items.isEmpty
  | get index => .item items[index]?
  | toList => .items items
  | contains member => .flag (items.contains member)
  | push _ | remove _ | clear => .refused (.state .collectionBorrowed)
  | within inner => .lent items (inner.whileLent items)
  | isLoaded => .flag true
  | debug =>
    .text ("EntityCollection \x7b len: " ++ toString items.length ++ " \x7d")

/-- The answer to a request on a plain list, and the list afterwards. A
removal removes every occurrence and tells whether there was one. -/
def onList (items : List Ref) : Request → Reply × List Ref
  | push member => (.done, items ++ [member])
  | remove member => (.flag (items.contains member), items.filter (· != member))
  | clear => (.done, [])
  | request => (request.whileLent items, items)

end Request

/-! ## Collections -/

/-- A collection whose members come from a source of type `σ`. -/
inductive Collection (σ : Type)
  | unresolved (source : σ)
  | resolved (items : List Ref)

namespace Collection

variable {σ τ : Type}

/-- Whether the members have been loaded. -/
def isLoaded : Collection σ → Bool
  | unresolved _ => false
  | resolved _ => true

/-- Carries out a request, loading the members first if that is needed. Gives
the answer, the collection afterwards, and the state that the load left. -/
def perform (load : σ → τ → Except Error (List Ref) × τ)
    (c : Collection σ) (request : Request) (t : τ) :
    Except Error Reply × Collection σ × τ :=
  match c, request with
  | resolved items, request =>
    let answer := request.onList items
    (.ok answer.1, resolved answer.2, t)
  | unresolved source, .isLoaded => (.ok (.flag false), unresolved source, t)
  | unresolved source, .debug =>
    (.ok (.text "EntityCollection(<unresolved>)"), unresolved source, t)
  | unresolved source, request =>
    match load source t with
    | (.error e, t) => (.error e, unresolved source, t)
    | (.ok items, t) =>
      let answer := request.onList items
      (.ok answer.1, resolved answer.2, t)

/-- What an owner sees that looks at a collection it is just being given: the
number of members, or why they cannot be loaded now. -/
def inspect (refusal : σ → Error) : Collection σ → Except Error Nat
  | unresolved source => .error (refusal source)
  | resolved items => .ok items.length

/-- A resolved collection is a plain list and loads nothing. -/
theorem perform_resolved (load : σ → τ → Except Error (List Ref) × τ)
    (items : List Ref) (request : Request) (t : τ) :
    perform load (resolved items) request t =
      (.ok (request.onList items).1, resolved (request.onList items).2, t) := by
  simp [perform]

/-- An unresolved collection loads its members once: it stays as it is if that
fails, and is the list of the loaded members from then on if not. -/
theorem perform_unresolved (load : σ → τ → Except Error (List Ref) × τ)
    (source : σ) {request : Request} (hLoaded : request ≠ .isLoaded)
    (hDebug : request ≠ .debug) (t : τ) :
    perform load (unresolved source) request t =
      match load source t with
      | (.error e, t) => (.error e, unresolved source, t)
      | (.ok items, t) => perform load (resolved items) request t := by
  cases request <;> simp_all [perform]

/-! ## Sources with a fixed list of replies -/

/-- The reply of a list to the `n`-th load: the `n`-th one, and the last one
again after the end. -/
def replyAt (replies : List (Except Error (List Ref))) (n : Nat) :
    Except Error (List Ref) :=
  (replies[min n (replies.length - 1)]?).getD (.ok [])

/-- A source that replies from a list and counts the loads. -/
def scripted (replies : List (Except Error (List Ref))) (loads : Nat) :
    Except Error (List Ref) × Nat :=
  (replyAt replies loads, loads + 1)

end Collection

end UnitOfWork
