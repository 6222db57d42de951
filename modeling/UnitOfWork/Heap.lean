import UnitOfWork.Mapping
import UnitOfWork.Collection
import UnitOfWork.Assoc

/-!
# Entity instances

Entities are shared: two fields, a collection and a session can all refer to
one instance. Instances therefore live in a heap and are named by references.
An instance has the type of its entity and a slot for each field: a value, a
reference to one entity or none, or a collection. An instance can be on hold:
while it is borrowed for reading it cannot be changed, and while it is
borrowed for change it cannot be looked at.

## Main results

* `Heap.get_alloc`, `Heap.get_alloc_of_lt`: a new instance is what it was made
  of, and disturbs no other;
* `Heap.get_modify_self`, `Heap.get_modify_ne`: a change concerns one instance.
-/

namespace UnitOfWork

/-! ## Instances -/

/-- Where the members of a collection are loaded from: the session it was
loaded by, if any, and the entities whose column has the owner's identifier. -/
structure Source where
  session : Option Nat
  target : String
  column : String
  owner : Value

/-- The content of a field. -/
inductive Slot
  | scalar (value : Value)
  | toOne (target : Option Ref)
  | toMany (members : Collection Source)

/-- The loans that are out on an instance. -/
inductive Hold
  | free
  /-- So many loans for reading, at least one. -/
  | shared (readers : Nat)
  /-- A loan for change. -/
  | exclusive
deriving DecidableEq

/-- An instance of an entity type. -/
structure Instance where
  type : String
  fields : List (String × Slot)
  hold : Hold := .free

namespace Instance

/-- The value in a field. -/
def scalar (e : Instance) (field : String) : Value :=
  match e.fields.lookup field with
  | some (.scalar v) => v
  | _ => .null

/-- The entity that a field refers to. -/
def toOne (e : Instance) (field : String) : Option Ref :=
  match e.fields.lookup field with
  | some (.toOne target) => target
  | _ => none

/-- The collection in a field. -/
def toMany (e : Instance) (field : String) : Collection Source :=
  match e.fields.lookup field with
  | some (.toMany members) => members
  | _ => .resolved []

/-- The instance with another content in a field. -/
def set (e : Instance) (field : String) (slot : Slot) : Instance :=
  { e with fields := Assoc.insert field slot e.fields }

/-- Whether the instance can be looked at. -/
def isReadable (e : Instance) : Bool := e.hold != .exclusive

/-- Whether the instance can be changed. -/
def isWritable (e : Instance) : Bool := e.hold == .free

@[simp] theorem type_set (e : Instance) (field : String) (slot : Slot) :
    (e.set field slot).type = e.type := rfl

@[simp] theorem hold_set (e : Instance) (field : String) (slot : Slot) :
    (e.set field slot).hold = e.hold := rfl

/-- A field has the value that it was given. -/
@[simp] theorem scalar_set_self (e : Instance) (field : String) (v : Value) :
    (e.set field (.scalar v)).scalar field = v := by
  simp [scalar, set]

/-- Other fields keep their values. -/
theorem scalar_set_ne (e : Instance) {field other : String}
    (h : other ≠ field) (slot : Slot) :
    (e.set field slot).scalar other = e.scalar other := by
  simp [scalar, set, Assoc.lookup_insert_ne h]

end Instance

/-! ## Loans -/

namespace Hold

/-- One more loan, if the loans that are out allow it. -/
def borrow? (mutable : Bool) : Hold → Option Hold
  | free => some (if mutable then exclusive else shared 1)
  | shared readers => if mutable then none else some (shared (readers + 1))
  | exclusive => none

/-- One loan less. -/
def giveBack : Hold → Hold
  | shared (readers + 2) => shared (readers + 1)
  | _ => free

end Hold

/-! ## New instances -/

/-- The content of a member's field before it is set. -/
def Member.blank : Member → Slot
  | .column c =>
    match c.type? with
    | some type => .scalar type.blank
    | none => .toOne none
  | .collection _ => .toMany (.resolved [])

/-- A new instance of a type with the given members. -/
def Instance.blank (type : String) (members : List Member) : Instance :=
  ⟨type, members.foldl
    (fun fields m => Assoc.insert m.field m.blank fields) [], .free⟩

/-- A new instance of a type with the given mapping. -/
def Mapping.blank (mapping : Mapping) (type : String) : Instance :=
  Instance.blank type mapping.members

/-- A new instance of a descriptor's type. -/
def Descriptor.blank (d : Descriptor) : Instance :=
  Instance.blank d.typeName d.members

/-- The type of a field's values, for a field that has a value. -/
def Mapping.fieldType? (mapping : Mapping) (field : String) :
    Option FieldType :=
  mapping.members.findSome? fun m =>
    match m with
    | .column c => if c.field = field then c.type? else none
    | .collection _ => none

/-! ## The heap -/

/-- All instances, each at the place that its reference counts. -/
structure Heap where
  instances : List Instance := []

namespace Heap

/-- The instance of a reference. -/
def get (heap : Heap) (ref : Ref) : Instance :=
  (heap.instances[ref]?).getD ⟨"", [], .free⟩

/-- The reference that the next new instance gets. -/
def next (heap : Heap) : Ref := heap.instances.length

/-- Adds an instance. -/
def alloc (heap : Heap) (e : Instance) : Heap := ⟨heap.instances ++ [e]⟩

/-- Changes an instance. -/
def modify (heap : Heap) (ref : Ref) (f : Instance → Instance) : Heap :=
  ⟨heap.instances.modify ref f⟩

@[simp] theorem next_alloc (heap : Heap) (e : Instance) :
    (heap.alloc e).next = heap.next + 1 := by
  simp [next, alloc]

@[simp] theorem next_modify (heap : Heap) (ref : Ref)
    (f : Instance → Instance) : (heap.modify ref f).next = heap.next := by
  simp [next, modify]

/-- A new instance is found at the next reference. -/
@[simp] theorem get_alloc (heap : Heap) (e : Instance) :
    (heap.alloc e).get heap.next = e := by
  simp [get, alloc, next]

/-- The instances that were there before stay what they are. -/
theorem get_alloc_of_lt {heap : Heap} {ref : Ref} (h : ref < heap.next)
    (e : Instance) : (heap.alloc e).get ref = heap.get ref := by
  simp only [next] at h
  simp [get, alloc, List.getElem?_append_left h]

/-- A change is seen at its reference. -/
theorem get_modify_self {heap : Heap} {ref : Ref} (h : ref < heap.next)
    (f : Instance → Instance) :
    (heap.modify ref f).get ref = f (heap.get ref) := by
  simp only [next] at h
  simp [get, modify, List.getElem?_eq_getElem h]

/-- A change is not seen anywhere else. -/
theorem get_modify_ne (heap : Heap) {ref other : Ref} (h : other ≠ ref)
    (f : Instance → Instance) :
    (heap.modify ref f).get other = heap.get other := by
  simp [get, modify, Ne.symm h]

end Heap

/-! ## What a descriptor sees of an instance -/

namespace Descriptor

/-- The value of the field that identifies an instance. -/
def idValue (d : Descriptor) (e : Instance) : Value :=
  e.scalar d.identifier.field

/-- The identifier of an instance, if it is set. -/
def entityId (d : Descriptor) (e : Instance) : Except Error (Option EntityId) :=
  EntityId.ofValue (d.idValue e)

/-- The values of an instance's own columns, in order. -/
def snapshot (d : Descriptor) (e : Instance) : List Value :=
  d.scalarColumns.map fun c => e.scalar c.field

/-- The instance with another value in the field that identifies it. -/
def withId (d : Descriptor) (e : Instance) (v : Value) :
    Except Error Instance :=
  match d.identifier.type? with
  | some type =>
    (type.read v).map fun held => e.set d.identifier.field (.scalar held)
  | none => .ok e

end Descriptor

namespace Heap

variable (schema : Schema) (heap : Heap)

/-- The identifier of an entity that a field refers to. -/
def relatedId (field target : String) : Option Ref → Except Error Value
  | none => .ok .null
  | some ref => do
    let d ← schema.descriptor target
    let e := heap.get ref
    if e.isReadable then
      if (d.idValue e).isNull then
        .error (.state (.relatedWithoutId d.typeName field))
      else .ok (d.idValue e)
    else .error (.state (.relatedBorrowed d.typeName field))

/-- The value that an instance has for a column. -/
def valueOf (e : Instance) (c : Column) : Except Error Value :=
  match c.content with
  | .join _ target => heap.relatedId schema c.field target (e.toOne c.field)
  | _ => .ok (e.scalar c.field)

/-- The descriptor of an instance that can be looked at. -/
def describe (ref : Ref) : Except Error Descriptor := do
  let d ← schema.descriptor (heap.get ref).type
  if (heap.get ref).isReadable then .ok d
  else .error (.state (.mutablyBorrowed d.typeName))

/-- The key of an instance, if its identifier is set. -/
def entityKey (ref : Ref) : Except Error (Option Key) := do
  let d ← heap.describe schema ref
  let id ← d.entityId (heap.get ref)
  .ok (id.map fun id => ⟨(heap.get ref).type, id⟩)

/-- The values of an instance's own columns. -/
def snapshot (ref : Ref) : Except Error (List Value) := do
  let d ← heap.describe schema ref
  .ok (d.snapshot (heap.get ref))

end Heap

end UnitOfWork
