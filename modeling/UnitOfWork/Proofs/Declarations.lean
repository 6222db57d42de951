import Mathlib.Data.List.Induction
import UnitOfWork.Proofs.Mappings

/-!
# What a mapping declares

A mapping is read from front to back here: a field has a column under its
default name, or under the name that the last `named` before the next field
gives it. The check goes the other way: it keeps the members newest first, and
a `named` renames the newest. Both come to the same columns.

The same columns and relations are found if they are kept on two lists, and a
`named` reaches both through the places of the field declared last: those
places stay right, however many declarations follow.

## Main results

* `Mapping.reverse_members_draft`: what a draft has collected;
* `Mapping.fault_draft_eq_none_iff`: when a draft has no fault;
* `Mapping.outline_build`: the two lists follow the draft;
* `Mapping.build_declared`: when a mapping is accepted, and what is made of it.
-/

namespace UnitOfWork

/-! ## Reading a mapping from the front -/

namespace Declaration

/-- Whether a declaration adds a field. -/
def isField (declaration : Declaration) : Bool := declaration.member?.isSome

/-- Whether a declaration adds a field without a column. -/
def isCollection : Declaration → Bool
  | toMany .. => true
  | _ => false

/-- Whether a declaration adds a field that identifies the entity. -/
def isIdentifier : Declaration → Bool
  | identifier .. => true
  | _ => false

/-- The name that a declaration gives to the column declared before it. -/
def name? : Declaration → Option String
  | named name => some name
  | _ => none

/-- The name that a declaration gives to the table. -/
def table? : Declaration → Option String
  | table name => some name
  | _ => none

/-- A declaration names the table, renames a column or adds a member. -/
theorem split (declaration : Declaration) :
    (∃ name, declaration = table name) ∨ (∃ name, declaration = named name) ∨
      ∃ m, declaration.member? = some m := by
  cases declaration with
  | table name => exact Or.inl ⟨name, rfl⟩
  | named name => exact Or.inr (Or.inl ⟨name, rfl⟩)
  | identifier | column | toOne | toMany => exact Or.inr (Or.inr ⟨_, rfl⟩)

theorem isField_of_member {declaration : Declaration} {m : Member}
    (h : declaration.member? = some m) : declaration.isField = true := by
  rw [isField, h]
  rfl

end Declaration

namespace Mapping

/-- The name of a column, given its default and what is declared after it: the
last name given before the next field. -/
def lastName (default : String) (rest : Mapping) : String :=
  ((rest.takeWhile fun d => !d.isField).filterMap
    Declaration.name?).getLast?.getD default

end Mapping

/-- A member with the name that the declarations after it give it. -/
def Member.settled (rest : Mapping) : Member → Member
  | .column c => .column { c with name := rest.lastName c.name }
  | .collection c => .collection c

namespace Mapping

/-- The members that a mapping declares, under their final names. -/
def finalMembers : Mapping → List Member
  | [] => []
  | declaration :: rest =>
    match declaration.member? with
    | some m => m.settled rest :: finalMembers rest
    | none => finalMembers rest

/-- The columns that a mapping declares, under their final names. -/
def finalColumns (mapping : Mapping) : List Column :=
  mapping.finalMembers.filterMap Member.column?

/-- The relations that a mapping declares. -/
def finalRelations (mapping : Mapping) : List Relation :=
  mapping.finalMembers.filterMap Member.relation?

/-- The name of the table that is given last. -/
def lastTable? (mapping : Mapping) : Option String :=
  (mapping.filterMap Declaration.table?).getLast?

/-- The field declared last. -/
def lastField? (mapping : Mapping) : Option Declaration :=
  (mapping.filter Declaration.isField).getLast?

/-- Some `named` has nothing to rename: no field has been declared before it,
or the one declared last before it has no column. -/
def Misplaced (mapping : Mapping) : Prop :=
  ∃ before name after, mapping = before ++ .named name :: after ∧
    ∀ field, lastField? before = some field → field.isCollection = true

/-! ## Names -/

section

variable {default : String} {declaration : Declaration} {rest : Mapping}

@[simp] theorem lastName_nil : lastName default [] = default := rfl

@[simp] theorem lastName_named (name : String) :
    lastName default (.named name :: rest) = lastName name rest := by
  have hKeep : (Declaration.named name).isField = false := rfl
  simp only [lastName, List.takeWhile_cons, hKeep, Bool.not_false, if_true,
    List.filterMap_cons, Declaration.name?]
  rw [List.getLast?_cons, Option.getD_some]

@[simp] theorem lastName_table (name : String) :
    lastName default (.table name :: rest) = lastName default rest := rfl

/-- A field ends the names of the one before it. -/
theorem lastName_field (h : declaration.isField = true) :
    lastName default (declaration :: rest) = default := by
  simp [lastName, h]

theorem lastName_append_field (h : declaration.isField = true)
    (before after : Mapping) :
    lastName default (before ++ declaration :: after) =
      lastName default before := by
  induction before generalizing default with
  | nil => exact lastName_field h
  | cons first rest ih =>
      obtain ⟨name, rfl⟩ | ⟨name, rfl⟩ | ⟨m, hM⟩ := first.split
      · simp [ih]
      · simp [ih]
      · have hField := Declaration.isField_of_member hM
        rw [List.cons_append, lastName_field hField, lastName_field hField]

end

end Mapping

namespace Member

@[simp] theorem settled_nil (m : Member) : m.settled [] = m := by
  cases m <;> rfl

/-- A member is settled when the next field is declared. -/
theorem settled_field {declaration : Declaration}
    (h : declaration.isField = true) (rest : Mapping) (m : Member) :
    m.settled (declaration :: rest) = m := by
  cases m with
  | column c => rw [settled, Mapping.lastName_field h]
  | collection c => rfl

theorem settled_append_field {declaration : Declaration}
    (h : declaration.isField = true) (before after : Mapping) (m : Member) :
    m.settled (before ++ declaration :: after) = m.settled before := by
  cases m with
  | column c => rw [settled, settled, Mapping.lastName_append_field h]
  | collection c => rfl

end Member

namespace Mapping

/-- What is declared from a field on does not concern the members before. -/
theorem finalMembers_append_field {declaration : Declaration}
    (h : declaration.isField = true) (before after : Mapping) :
    finalMembers (before ++ declaration :: after) =
      finalMembers before ++ finalMembers (declaration :: after) := by
  induction before with
  | nil => rfl
  | cons first rest ih =>
      rw [List.cons_append, finalMembers, finalMembers, ih]
      cases first.member? with
      | none => rfl
      | some m => simp only [Member.settled_append_field h, List.cons_append]

/-- Renaming neither makes nor unmakes an identifier. -/
theorem length_identifiers (mapping : Mapping) :
    (mapping.finalColumns.filter Column.isIdentifier).length =
      (mapping.filter Declaration.isIdentifier).length := by
  induction mapping with
  | nil => rfl
  | cons declaration rest ih =>
      rw [finalColumns] at ih ⊢
      cases declaration <;>
        simp [finalMembers, Declaration.member?, Member.settled,
          Member.column?, List.filter_cons, List.filterMap_cons,
          Column.isIdentifier, Declaration.isIdentifier, ih]

end Mapping

/-! ## What a draft has collected -/

namespace Draft

variable {type : String}

theorem declare_member {declaration : Declaration} {m : Member}
    (h : declaration.member? = some m) (draft : Draft) :
    draft.declare type declaration =
      { draft with members := m :: draft.members } := by
  cases declaration <;> cases h <;> rfl

/-- Renaming the member declared last is looking ahead for its name. -/
theorem reverse_members_foldl (mapping : Mapping) (draft : Draft) :
    (mapping.foldl (declare type) draft).members.reverse =
      (draft.members.modifyHead (Member.settled mapping)).reverse ++
        mapping.finalMembers := by
  induction mapping generalizing draft with
  | nil =>
      obtain ⟨table, members, fault⟩ := draft
      cases members <;> simp [Mapping.finalMembers]
  | cons declaration rest ih =>
      rw [List.foldl_cons, ih]
      obtain ⟨table, members, fault⟩ := draft
      obtain ⟨name, rfl⟩ | ⟨name, rfl⟩ | ⟨m, hM⟩ := declaration.split
      · rfl
      · cases members with
        | nil => rfl
        | cons m older =>
            cases m with
            | collection c => rfl
            | column c =>
                simp [declare, rename, Member.settled, Mapping.finalMembers,
                  Declaration.member?]
      · have hField := Declaration.isField_of_member hM
        rw [declare_member hM, Mapping.finalMembers, hM]
        cases members <;> simp [Member.settled_field hField]

theorem table_foldl (mapping : Mapping) (draft : Draft) :
    (mapping.foldl (declare type) draft).table =
      mapping.lastTable?.or draft.table := by
  induction mapping generalizing draft with
  | nil => rfl
  | cons declaration rest ih =>
      rw [List.foldl_cons, ih]
      obtain ⟨table, members, fault⟩ := draft
      obtain ⟨name, rfl⟩ | ⟨name, rfl⟩ | ⟨m, hM⟩ := declaration.split
      · simp [declare, Mapping.lastTable?, Declaration.table?,
          List.getLast?_cons]
      · cases members with
        | nil => rfl
        | cons m older => cases m <;> rfl
      · rw [declare_member hM]
        cases declaration <;> cases hM <;> rfl

/-- Whether the member declared last has a column. -/
def canRename (draft : Draft) : Bool :=
  match draft.members with
  | .column _ :: _ => true
  | _ => false

/-- A rename is at fault when there is no column to rename. -/
theorem fault_rename_eq_none_iff {draft : Draft} {name : String} :
    (draft.rename type name).fault = none ↔
      draft.fault = none ∧ draft.canRename = true := by
  obtain ⟨table, members, fault⟩ := draft
  cases members with
  | nil => simp [rename, blame, canRename]
  | cons m older => cases m <;> simp [rename, blame, canRename]

theorem canRename_rename (draft : Draft) (name : String) :
    (draft.rename type name).canRename = draft.canRename := by
  obtain ⟨table, members, fault⟩ := draft
  cases members with
  | nil => rfl
  | cons m older => cases m <;> rfl

end Draft

namespace Mapping

variable {type : String}

theorem draft_snoc (mapping : Mapping) (declaration : Declaration) :
    draft type (mapping ++ [declaration]) =
      (mapping.draft type).declare type declaration := by
  rw [draft, List.foldl_append]
  rfl

/-- A draft collects the members under their final names. -/
theorem reverse_members_draft (type : String) (mapping : Mapping) :
    (mapping.draft type).members.reverse = mapping.finalMembers := by
  rw [draft, Draft.reverse_members_foldl]
  rfl

theorem table_draft (type : String) (mapping : Mapping) :
    (mapping.draft type).table = mapping.lastTable? := by
  rw [draft, Draft.table_foldl, Option.or_none]

theorem lastField?_snoc {declaration : Declaration} (mapping : Mapping) :
    lastField? (mapping ++ [declaration]) =
      if declaration.isField then some declaration else lastField? mapping := by
  rw [lastField?, List.filter_append]
  cases h : declaration.isField <;> simp [h, lastField?]

/-- The member declared last has a column just when the field declared last
is not a collection. -/
theorem canRename_draft_iff (mapping : Mapping) :
    (mapping.draft type).canRename = true ↔
      ∃ field, mapping.lastField? = some field ∧
        field.isCollection = false := by
  induction mapping using List.reverseRecOn with
  | nil => simp [draft, Draft.canRename, lastField?]
  | append_singleton before declaration ih =>
      rw [draft_snoc, lastField?_snoc]
      obtain ⟨name, rfl⟩ | ⟨name, rfl⟩ | ⟨m, hM⟩ := declaration.split
      · exact ih
      · rw [Draft.declare, Draft.canRename_rename]
        exact ih
      · rw [Draft.declare_member hM, if_pos (Declaration.isField_of_member hM)]
        cases declaration <;> cases hM <;>
          simp [Draft.canRename, Declaration.isCollection]

theorem misplaced_snoc {declaration : Declaration} (mapping : Mapping) :
    Misplaced (mapping ++ [declaration]) ↔
      mapping.Misplaced ∨ (∃ name, declaration = .named name) ∧
        ∀ field, mapping.lastField? = some field →
          field.isCollection = true := by
  constructor
  · rintro ⟨before, name, after, hSplit, hLast⟩
    rcases List.eq_nil_or_concat after with rfl | ⟨rest, last, rfl⟩
    · obtain ⟨rfl, hNamed⟩ := List.append_inj' hSplit rfl
      exact Or.inr ⟨⟨name, by simpa using hNamed⟩, hLast⟩
    · rw [List.concat_eq_append, ← List.cons_append, ← List.append_assoc]
        at hSplit
      exact Or.inl ⟨before, name, rest, (List.append_inj' hSplit rfl).1, hLast⟩
  · rintro (⟨before, name, after, rfl, hLast⟩ | ⟨⟨name, rfl⟩, hLast⟩)
    · exact ⟨before, name, after ++ [declaration], by simp, hLast⟩
    · exact ⟨mapping, name, [], rfl, hLast⟩

/-- A draft has no fault just when each `named` has something to rename. -/
theorem fault_draft_eq_none_iff (type : String) (mapping : Mapping) :
    (mapping.draft type).fault = none ↔ ¬ mapping.Misplaced := by
  induction mapping using List.reverseRecOn with
  | nil => simp [draft, Misplaced]
  | append_singleton before declaration ih =>
      rw [draft_snoc, misplaced_snoc, not_or, ← ih]
      obtain ⟨name, rfl⟩ | ⟨name, rfl⟩ | ⟨m, hM⟩ := declaration.split
      · simp [Draft.declare]
      · rw [Draft.declare, Draft.fault_rename_eq_none_iff,
          canRename_draft_iff]
        simp
      · rw [Draft.declare_member hM]
        have hOther : ¬ ∃ name, declaration = .named name := by
          rintro ⟨name, rfl⟩
          cases hM
        simp [hOther]

/-! ## When a mapping is accepted -/

/-- No column is repeated just when all names differ, from each other and from
those before. -/
theorem repeatedColumn?_eq_none_iff {before columns : List Column} :
    repeatedColumn? before columns = none ↔
      NamesDiffer (columns.map Column.name) ∧
        ∀ b ∈ before, ∀ c ∈ columns,
          Text.sameIgnoringCase b.name c.name = false := by
  refine ⟨namesDiffer_of_repeatedColumn?, ?_⟩
  induction columns generalizing before with
  | nil => exact fun _ => rfl
  | cons c rest ih =>
      rintro ⟨hNames, hBefore⟩
      obtain ⟨hFirst, hRest⟩ := List.pairwise_cons.1 hNames
      have hNone : (before.any fun b =>
          Text.sameIgnoringCase b.name c.name) = false := by
        rw [List.any_eq_false]
        intro b hB
        rw [hBefore b hB c (List.mem_cons_self ..)]
        exact Bool.false_ne_true
      rw [repeatedColumn?, hNone, if_neg Bool.false_ne_true]
      refine ih ⟨hRest, fun b hB c' hC' => ?_⟩
      rcases List.mem_append.1 hB with hOld | hNew
      · exact hBefore b hOld c' (List.mem_cons_of_mem _ hC')
      · rw [List.mem_singleton.1 hNew]
        exact hFirst c'.name (List.mem_map_of_mem hC')

/-- What a mapping is made into: the first check that fails decides. -/
theorem build_run (mapping : Mapping) :
    mapping.build type =
      match (mapping.draft type).fault with
      | some fault => .error (.schema fault)
      | none =>
        match mapping.finalColumns.filter Column.isIdentifier with
        | [] => .error (.schema (.noIdentifier type))
        | [identifier] =>
          match repeatedColumn? [] mapping.finalColumns with
          | some c => .error (.schema (.repeatedColumn type c.name))
          | none => .ok ⟨type, mapping.lastTable?.getD type,
              mapping.finalMembers, identifier⟩
        | many => .error (.schema (.severalIdentifiers type many.length)) := by
  simp only [build, reverse_members_draft, table_draft]
  rfl

/-- What a mapping has to be to be accepted. -/
structure Acceptable (mapping : Mapping) : Prop where
  /-- Each `named` has a column to rename. -/
  renames : ¬ mapping.Misplaced
  /-- One field identifies the entity. -/
  identifier : (mapping.filter Declaration.isIdentifier).length = 1
  /-- The names of columns differ by more than the case of letters. -/
  distinct : NamesDiffer (mapping.finalColumns.map Column.name)

/-- A mapping is refused when it is not acceptable, and for no other reason. -/
theorem build_cases (type : String) (mapping : Mapping) :
    (∃ e, mapping.build type = .error e ∧ ¬ mapping.Acceptable) ∨
      ∃ identifier, mapping.Acceptable ∧
        mapping.finalColumns.filter Column.isIdentifier = [identifier] ∧
        mapping.build type = .ok ⟨type, mapping.lastTable?.getD type,
          mapping.finalMembers, identifier⟩ := by
  have hFault := fault_draft_eq_none_iff type mapping
  have hLength := length_identifiers mapping
  have hRepeated : repeatedColumn? [] mapping.finalColumns = none ↔ _ :=
    repeatedColumn?_eq_none_iff
  rw [build_run]
  cases hNone : (mapping.draft type).fault with
  | some fault =>
      refine Or.inl ⟨_, rfl, fun h => ?_⟩
      cases hNone.symm.trans (hFault.2 h.renames)
  | none =>
      simp only
      match hIdentifiers : mapping.finalColumns.filter Column.isIdentifier with
      | [] =>
          rw [hIdentifiers] at hLength
          refine Or.inl ⟨_, rfl, fun h => ?_⟩
          cases hLength.trans h.identifier
      | _ :: _ :: _ =>
          rw [hIdentifiers] at hLength
          refine Or.inl ⟨_, rfl, fun h => ?_⟩
          cases hLength.trans h.identifier
      | [identifier] =>
          rw [hIdentifiers] at hLength
          cases hNames : repeatedColumn? [] mapping.finalColumns with
          | some c =>
              refine Or.inl ⟨_, rfl, fun h => ?_⟩
              cases hNames.symm.trans (hRepeated.2 ⟨h.distinct, nofun⟩)
          | none =>
              exact Or.inr ⟨identifier,
                ⟨hFault.1 hNone, hLength.symm, (hRepeated.1 hNames).1⟩, rfl,
                rfl⟩

end Mapping

/-! ## Columns and relations on two lists -/

/-- The places of the field declared last: that of its column, or those of its
join column and its relation. A collection has its name instead. -/
inductive Place
  | column (index : Nat)
  | join (column relation : Nat)
  | collection (field : String)

/-- What a mapping has declared so far, with its columns and its relations on a
list each, in order. -/
structure Sheet where
  table : Option String := none
  columns : List Column := []
  relations : List Relation := []
  last : Option Place := none
  faults : List SchemaFault := []

/-- The column under another name. -/
def Column.renamed (name : String) (c : Column) : Column :=
  { c with name := name }

/-- The relation with another join column, if it has one. -/
def Relation.rejoined (name : String) : Relation → Relation
  | toOne kind field target _ => toOne kind field target name
  | toMany c => toMany c

namespace Sheet

/-- Renames the column declared last, on both lists. -/
def rename (type : String) (sheet : Sheet) (name : String) : Sheet :=
  match sheet.last with
  | some (.column index) =>
    { sheet with columns := sheet.columns.modify index (.renamed name) }
  | some (.join column relation) =>
    { sheet with
      columns := sheet.columns.modify column (.renamed name)
      relations := sheet.relations.modify relation (.rejoined name) }
  | some (.collection field) =>
    { sheet with
      faults := sheet.faults ++ [.renamedCollection type name field] }
  | none =>
    { sheet with faults := sheet.faults ++ [.renameBeforeField type name] }

/-- Adds a column that has no relation. -/
def addColumn (sheet : Sheet) (c : Column) : Sheet :=
  { sheet with
    columns := sheet.columns ++ [c]
    last := some (.column sheet.columns.length) }

/-- Adds one declaration. -/
def declare (type : String) (sheet : Sheet) : Declaration → Sheet
  | .table name => { sheet with table := some name }
  | .identifier field fieldType generated =>
    sheet.addColumn ⟨field, field, .identifier fieldType generated⟩
  | .column field fieldType =>
    sheet.addColumn ⟨field, field, .scalar fieldType⟩
  | .toOne kind field target =>
    let name := field ++ "_id"
    { sheet with
      columns := sheet.columns ++ [⟨field, name, .join kind target⟩]
      relations := sheet.relations ++ [.toOne kind field target name]
      last := some (.join sheet.columns.length sheet.relations.length) }
  | .toMany field target mappedBy fetch inspected =>
    let c : CollectionField := ⟨field, target, mappedBy, fetch, inspected⟩
    { sheet with
      relations := sheet.relations ++ [.toMany c]
      last := some (.collection field) }
  | .named name => sheet.rename type name

end Sheet

/-- What can be seen of a descriptor: columns and relations, and no order
between the two. -/
structure Outline where
  typeName : String
  table : String
  columns : List Column
  identifier : Column
  relations : List Relation

/-- The outline of a descriptor. -/
def Descriptor.outline (d : Descriptor) : Outline :=
  ⟨d.typeName, d.table, d.columns, d.identifier, d.relations⟩

/-- The outline of an entity type, checked on the two lists. -/
def Sheet.outline (type : String) (sheet : Sheet) : Except Error Outline :=
  match sheet.faults with
  | fault :: _ => .error (.schema fault)
  | [] =>
    match sheet.columns.filter Column.isIdentifier with
    | [] => .error (.schema (.noIdentifier type))
    | [identifier] =>
      match Mapping.repeatedColumn? [] sheet.columns with
      | some c => .error (.schema (.repeatedColumn type c.name))
      | none => .ok ⟨type, sheet.table.getD type, sheet.columns, identifier,
          sheet.relations⟩
    | many => .error (.schema (.severalIdentifiers type many.length))

/-- The outline of an entity type with the given mapping. -/
def Mapping.outline (type : String) (mapping : Mapping) :
    Except Error Outline :=
  (mapping.foldl (Sheet.declare type) {}).outline type

/-- The places of the newest of some members. -/
def Place.ofNewest? : List Member → Option Place
  | [] => none
  | .collection c :: _ => some (.collection c.field)
  | .column c :: older =>
    let columns := (older.filterMap Member.column?).length
    if c.isJoin then
      some (.join columns (older.filterMap Member.relation?).length)
    else some (.column columns)

/-- The two lists that hold what a draft has collected. -/
def Draft.sheet (draft : Draft) (faults : List SchemaFault) : Sheet where
  table := draft.table
  columns := draft.members.reverse.filterMap Member.column?
  relations := draft.members.reverse.filterMap Member.relation?
  last := Place.ofNewest? draft.members
  faults := faults

/-- The two lists hold what a draft has collected, and the first fault is that
of the draft. -/
def Sheet.Follows (sheet : Sheet) (draft : Draft) : Prop :=
  ∃ faults, sheet = draft.sheet faults ∧ faults.head? = draft.fault

/-- The newest item of a list is reached at the place that counts those before
it. -/
theorem modify_newest {α : Type} (older : List α) (item : α) (f : α → α) :
    (older.reverse ++ [item]).modify older.length f =
      older.reverse ++ [f item] := by
  have hLast : ∀ items : List α,
      (items ++ [item]).modify items.length f = items ++ [f item] := by
    intro items
    induction items with
    | nil => rfl
    | cons first rest ih => simpa using ih
  simpa using hLast older.reverse

namespace Draft

variable {type : String} {draft : Draft} {faults : List SchemaFault}

/-- A fault is noted after those before. -/
theorem head?_blame (h : faults.head? = draft.fault) (fault : SchemaFault) :
    (faults ++ [fault]).head? = (draft.blame fault).fault := by
  rw [List.head?_append, h]
  rfl

/-- A rename reaches the newest member at its places. -/
theorem sheet_rename (h : faults.head? = draft.fault) (name : String) :
    ((draft.sheet faults).rename type name).Follows
      (draft.rename type name) := by
  obtain ⟨table, members, fault⟩ := draft
  cases members with
  | nil => exact ⟨_, rfl, head?_blame h _⟩
  | cons m older =>
      cases m with
      | collection c => exact ⟨_, rfl, head?_blame h _⟩
      | column c =>
          obtain ⟨field, old, content⟩ := c
          refine ⟨faults, ?_, h⟩
          cases content <;>
            simp [sheet, rename, Sheet.rename, Place.ofNewest?, Column.isJoin,
              Member.column?, Member.relation?, Column.relation?,
              List.filterMap_cons, modify_newest, Column.renamed,
              Relation.rejoined]

/-- So does each declaration. -/
theorem sheet_declare (h : faults.head? = draft.fault)
    (declaration : Declaration) :
    ((draft.sheet faults).declare type declaration).Follows
      (draft.declare type declaration) := by
  obtain ⟨table, members, fault⟩ := draft
  cases declaration with
  | table name => exact ⟨faults, rfl, h⟩
  | named name => exact sheet_rename h name
  | identifier | column | toOne | toMany =>
      refine ⟨faults, ?_, h⟩
      simp [sheet, declare, Sheet.declare, Sheet.addColumn, Declaration.member?,
        Place.ofNewest?, Member.column?, Member.relation?, Column.relation?,
        Column.isJoin, List.filterMap_reverse]

/-- The two lists follow a draft through all declarations. -/
theorem sheet_foldl (type : String) (h : faults.head? = draft.fault)
    (mapping : Mapping) :
    (mapping.foldl (Sheet.declare type) (draft.sheet faults)).Follows
      (mapping.foldl (declare type) draft) := by
  induction mapping generalizing draft faults with
  | nil => exact ⟨faults, rfl, h⟩
  | cons declaration rest ih =>
      obtain ⟨later, hSheet, hFaults⟩ := sheet_declare h declaration
      rw [List.foldl_cons, List.foldl_cons, hSheet]
      exact ih hFaults

end Draft

/-- Checking the two lists gives the outline of the descriptor, or the same
error. -/
theorem Mapping.outline_build (type : String) (mapping : Mapping) :
    (mapping.build type).map Descriptor.outline = mapping.outline type := by
  have hStart : ([] : List SchemaFault).head? = ({} : Draft).fault := rfl
  obtain ⟨faults, hSheet, hFaults⟩ :=
    Draft.sheet_foldl type hStart mapping
  have hLists : mapping.foldl (Sheet.declare type) {} =
      { table := mapping.lastTable?
        columns := mapping.finalColumns
        relations := mapping.finalRelations
        last := Place.ofNewest? (mapping.draft type).members
        faults := faults } := by
    rw [finalColumns, finalRelations, ← reverse_members_draft type mapping,
      ← table_draft type mapping]
    exact hSheet
  have hFault : faults.head? = (mapping.draft type).fault := hFaults
  rw [outline, hLists, Sheet.outline, build_run, ← hFault]
  simp only
  cases faults with
  | cons fault rest => rfl
  | nil =>
      simp only [List.head?_nil]
      match mapping.finalColumns.filter Column.isIdentifier with
      | [] => rfl
      | _ :: _ :: _ => rfl
      | [identifier] =>
          simp only
          cases repeatedColumn? [] mapping.finalColumns <;> rfl

/-! ## What is made of a mapping -/

/-- A descriptor is what a mapping says. -/
structure Mapping.Describes (mapping : Mapping) (type : String)
    (d : Descriptor) : Prop where
  typeName : d.typeName = type
  table : d.table = mapping.lastTable?.getD type
  columns : d.columns = mapping.finalColumns
  relations : d.relations = mapping.finalRelations
  identifier : d.columns.filter Column.isIdentifier = [d.identifier]
  /-- A field with a column stands where it was declared, under its last
  name. -/
  column : ∀ (before : Mapping) declaration (after : Mapping) c,
    mapping = before ++ declaration :: after →
    declaration.member? = some (.column c) →
      d.columns[before.finalColumns.length]? =
        some { c with name := after.lastName c.name }
  /-- A field for one entity has a relation as well, whose join column is its
  own column. -/
  toOne : ∀ (before : Mapping) kind field target (after : Mapping),
    mapping = before ++ .toOne kind field target :: after →
      ∃ name, d.columns[before.finalColumns.length]? =
          some ⟨field, name, .join kind target⟩ ∧
        d.relations[before.finalRelations.length]? =
          some (.toOne kind field target name)
  /-- A collection has no join column. -/
  toMany : ∀ (before : Mapping) field target mappedBy fetch inspected
      (after : Mapping),
    mapping = before ++ .toMany field target mappedBy fetch inspected :: after →
      ∃ r : Relation, d.relations[before.finalRelations.length]? = some r ∧
        r = .toMany ⟨field, target, mappedBy, fetch, inspected⟩ ∧
        r.joinColumn? = none
  /-- There are no other join columns. -/
  joins : d.relations.filterMap Relation.joinColumn? =
    (d.columns.filter Column.isJoin).map Column.name

namespace Mapping

variable {type : String} {mapping : Mapping}

/-- What a declaration adds stands after what was added before it. -/
theorem finalMembers_at {declaration : Declaration} {m : Member}
    (h : declaration.member? = some m) (before after : Mapping) :
    finalMembers (before ++ declaration :: after) =
      before.finalMembers ++ m.settled after :: after.finalMembers := by
  rw [finalMembers_append_field (Declaration.isField_of_member h),
    finalMembers.eq_2, h]

/-- A column stands after those declared before it, under its last name. -/
theorem finalColumns_at {declaration : Declaration} {c : Column}
    (h : declaration.member? = some (.column c)) (before after : Mapping) :
    (finalColumns
      (before ++ declaration :: after))[before.finalColumns.length]? =
      some { c with name := after.lastName c.name } := by
  simp [finalColumns, finalMembers_at h, Member.settled, Member.column?]

/-- A relation stands after those declared before it. -/
theorem finalRelations_at {declaration : Declaration} {m : Member}
    {r : Relation} {before after : Mapping}
    (h : declaration.member? = some m)
    (hRelation : (m.settled after).relation? = some r) :
    (finalRelations
      (before ++ declaration :: after))[before.finalRelations.length]? =
      some r := by
  simp [finalRelations, finalMembers_at h, hRelation]

/-- The relations with a join column are those of the columns that are join
columns. -/
theorem joinColumns_eq (members : List Member) :
    (members.filterMap Member.relation?).filterMap Relation.joinColumn? =
      ((members.filterMap Member.column?).filter Column.isJoin).map
        Column.name := by
  induction members with
  | nil => rfl
  | cons m rest ih =>
      cases m with
      | collection c => simpa [Member.relation?, Member.column?,
          Relation.joinColumn?, List.filterMap_cons] using ih
      | column c =>
          obtain ⟨field, name, content⟩ := c
          cases content <;>
            simp [Member.relation?, Member.column?, Column.relation?,
              Column.isJoin, Relation.joinColumn?, List.filterMap_cons,
              List.filter_cons, ih]

theorem describes {identifier : Column}
    (hIdentifier :
      mapping.finalColumns.filter Column.isIdentifier = [identifier]) :
    mapping.Describes type ⟨type, mapping.lastTable?.getD type,
      mapping.finalMembers, identifier⟩ where
  typeName := rfl
  table := rfl
  columns := rfl
  relations := rfl
  identifier := hIdentifier
  column := by
    rintro before declaration after c rfl hMember
    exact finalColumns_at hMember before after
  toOne := by
    rintro before kind field target after rfl
    have hMember : (Declaration.toOne kind field target).member? =
      some (.column ⟨field, field ++ "_id", .join kind target⟩) := rfl
    -- The relation is read off the settled member, so it has the same name.
    exact ⟨after.lastName (field ++ "_id"),
      finalColumns_at hMember before after, finalRelations_at hMember rfl⟩
  toMany := by
    rintro before field target mappedBy fetch inspected after rfl
    exact ⟨_, finalRelations_at rfl rfl, rfl, rfl⟩
  joins := joinColumns_eq _

/-- A mapping is accepted just when it is acceptable; the descriptor is then
what the mapping says. Keeping columns and relations on two lists, where a
rename has to reach both, gives the same columns and relations. -/
theorem build_declared (type : String) (mapping : Mapping) :
    (match mapping.build type with
      | .ok d => mapping.Acceptable ∧ mapping.Describes type d
      | .error _ => ¬ mapping.Acceptable) ∧
    (mapping.build type).map Descriptor.outline = mapping.outline type := by
  refine ⟨?_, outline_build type mapping⟩
  obtain ⟨e, hRun, hNot⟩ | ⟨identifier, hAcceptable, hIdentifier, hRun⟩ :=
    build_cases type mapping
  · rw [hRun]
    exact hNot
  · rw [hRun]
    exact ⟨hAcceptable, describes hIdentifier⟩

end Mapping

end UnitOfWork
