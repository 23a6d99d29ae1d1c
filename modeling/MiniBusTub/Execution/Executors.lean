import Mathlib.Data.List.GetD

namespace bustub

/-- `RID`: a tuple's position in the table heap. -/
abbrev RID := Nat

/-- A `Tuple` as its column values; the index is over integer columns. -/
abbrev Tuple := List Int

/-- `ComparisonType` of a `ComparisonExpression`. -/
inductive ComparisonType
  | Equal
  | NotEqual
  | LessThan
  | LessThanOrEqual
  | GreaterThan
  | GreaterThanOrEqual
  deriving DecidableEq, Repr

/-- What each comparison says of two integers. -/
def ComparisonType.Holds : ComparisonType → Int → Int → Bool
  | .Equal, a, b => a == b
  | .NotEqual, a, b => a != b
  | .LessThan, a, b => decide (a < b)
  | .LessThanOrEqual, a, b => decide (a ≤ b)
  | .GreaterThan, a, b => decide (b < a)
  | .GreaterThanOrEqual, a, b => decide (b ≤ a)

/-- The expressions `OptimizeSeqScanAsIndexScan` casts a predicate to:
    `ColumnValueExpression`, `ConstantValueExpression` and `ComparisonExpression`. The
    expression classes are not under src/; `Evaluate` reads them as their names say. -/
inductive AbstractExpression
  | ColumnValue (tuple_idx col_idx : Nat)
  | ConstantValue (val : Int)
  | Comparison (comp_type : ComparisonType) (left right : AbstractExpression)
  deriving DecidableEq, Repr

/-- `Evaluate` on a tuple; a comparison yields `1` when it holds and `0` when not. -/
def AbstractExpression.Evaluate (tuple : Tuple) : AbstractExpression → Int
  | .ColumnValue _ col_idx => tuple.getD col_idx 0
  | .ConstantValue val => val
  | .Comparison comp_type left right =>
    if comp_type.Holds (left.Evaluate tuple) (right.Evaluate tuple) then 1 else 0

/-- `Value::GetAs<bool>` of an evaluated predicate. -/
def GetAsBool (value : Int) : Bool := value != 0

/-- `TupleMeta`, of which the executors read and write only `is_deleted_`. -/
structure TupleMeta where
  is_deleted_ : Bool
  deriving DecidableEq, Repr

/-- `TableHeap` over its table pages, which are not under src/: the tuples in the order
    `MakeIterator` visits them, a `RID` read as a position in that order. `InsertTuple`
    appends to the last page or to a new one, so a tuple keeps its `RID` for good. -/
structure TableHeap where
  tuples_ : List (TupleMeta × Tuple)
  deriving DecidableEq, Repr

namespace TableHeap

def InsertTuple (self : TableHeap) (meta : TupleMeta) (tuple : Tuple) :
    Option RID × TableHeap :=
  (some self.tuples_.length, ⟨self.tuples_ ++ [(meta, tuple)]⟩)

def GetTuple (self : TableHeap) (rid : RID) : TupleMeta × Tuple :=
  self.tuples_.getD rid (⟨true⟩, [])

def GetTupleMeta (self : TableHeap) (rid : RID) : TupleMeta := (self.GetTuple rid).1

def UpdateTupleMeta (self : TableHeap) (meta : TupleMeta) (rid : RID) : TableHeap :=
  ⟨self.tuples_.set rid (meta, (self.GetTuple rid).2)⟩

variable (self : TableHeap) (meta : TupleMeta)

@[simp] theorem InsertTuple_fst (tuple : Tuple) :
    (self.InsertTuple meta tuple).1 = some self.tuples_.length := rfl

@[simp] theorem InsertTuple_length (tuple : Tuple) :
    (self.InsertTuple meta tuple).2.tuples_.length = self.tuples_.length + 1 := by
  simp [InsertTuple]

theorem GetTuple_InsertTuple (tuple : Tuple) {rid : RID} (hrid : rid < self.tuples_.length) :
    (self.InsertTuple meta tuple).2.GetTuple rid = self.GetTuple rid :=
  List.getD_append _ _ _ _ hrid

/-- A `RID` past the last tuple reads the default a missing slot gives. -/
theorem GetTuple_of_le {rid : RID} (hrid : self.tuples_.length ≤ rid) :
    self.GetTuple rid = (⟨true⟩, []) := by
  simp [GetTuple, List.getElem?_eq_none hrid]

theorem GetTuple_InsertTuple_eq (tuple : Tuple) (rid : RID) :
    (self.InsertTuple meta tuple).2.GetTuple rid =
      if rid < self.tuples_.length then self.GetTuple rid
      else if rid = self.tuples_.length then (meta, tuple) else (⟨true⟩, []) := by
  split_ifs with hlt heq
  · exact GetTuple_InsertTuple _ _ _ hlt
  · subst heq
    simp [InsertTuple, GetTuple]
  · exact GetTuple_of_le _ (by
      simpa only [InsertTuple_length] using Nat.lt_of_le_of_ne (Nat.le_of_not_lt hlt) (Ne.symm heq))

@[simp] theorem GetTuple_InsertTuple_self (tuple : Tuple) :
    (self.InsertTuple meta tuple).2.GetTuple self.tuples_.length = (meta, tuple) := by
  simp [InsertTuple, GetTuple]

@[simp] theorem UpdateTupleMeta_length (rid : RID) :
    (self.UpdateTupleMeta meta rid).tuples_.length = self.tuples_.length := by
  simp [UpdateTupleMeta]

/-- `UpdateTupleMeta` changes the meta at one `RID` and no tuple. -/
theorem GetTuple_UpdateTupleMeta (rid rid' : RID) :
    (self.UpdateTupleMeta meta rid).GetTuple rid' =
      if rid' = rid ∧ rid < self.tuples_.length then (meta, (self.GetTuple rid).2)
      else self.GetTuple rid' := by
  simp only [UpdateTupleMeta, GetTuple, List.getD_eq_getElem?_getD, List.getElem?_set]
  split_ifs with h₁ h₂ h₂ <;> simp_all [List.getElem?_eq_none]

@[simp] theorem GetTuple_UpdateTupleMeta_snd (rid rid' : RID) :
    ((self.UpdateTupleMeta meta rid).GetTuple rid').2 = (self.GetTuple rid').2 := by
  rw [GetTuple_UpdateTupleMeta]
  split_ifs with h
  · rw [h.1]
  · rfl

end TableHeap

/-- An index of the table, `HashTableIndexForTwoIntegerColumn`, which is not under src/.
    Modelled from the spec: the extendible hash table (§4.9) from key to `RID`, whose keys are
    unique. `InsertEntry` of a key already present is refused, `DeleteEntry` removes the key
    whatever its `RID`, and `ScanKey` returns the `RID` stored under the key, if any. -/
structure Index where
  key_attrs_ : List Nat
  entries_ : List (List Int × RID)
  deriving DecidableEq, Repr

namespace Index

def GetKeyAttrs (self : Index) : List Nat := self.key_attrs_

def InsertEntry (self : Index) (key : List Int) (rid : RID) : Index :=
  if self.entries_.any (·.1 == key) then self
  else { self with entries_ := self.entries_ ++ [(key, rid)] }

def DeleteEntry (self : Index) (key : List Int) (_rid : RID) : Index :=
  { self with entries_ := self.entries_.filter (·.1 != key) }

def ScanKey (self : Index) (key : List Int) : List RID :=
  (self.entries_.filter (·.1 == key)).map (·.2)

end Index

/-- `Tuple::KeyFromTuple`: the values at the index's key attributes. -/
def KeyFromTuple (tuple : Tuple) (key_attrs : List Nat) : List Int :=
  key_attrs.map (tuple.getD · 0)

/-- The one-value key the update and delete executors build from the first key attribute. -/
def FirstKeyFromTuple (tuple : Tuple) (key_attrs : List Nat) : List Int :=
  [tuple.getD (key_attrs.getD 0 0) 0]

/-- The catalog's view of the table: its heap and its indexes, an `index_oid_` being an
    index's position. The catalog is not under src/. -/
structure Catalog where
  table_ : TableHeap
  indexes_ : List Index
  deriving DecidableEq, Repr

/-- The plan nodes the rule reads and builds, a `nullptr` expression being `none`. The
    `pred_key_` of an index scan is the value of its `ConstantValueExpression`. -/
inductive PlanNode
  | SeqScan (filter_predicate_ : Option AbstractExpression)
  | IndexScan (index_oid_ : Nat) (filter_predicate_ : Option AbstractExpression)
      (pred_key_ : Option Int)
  deriving DecidableEq, Repr

namespace Catalog

/-- The catalog of an empty table with one empty index for each list of key attributes. -/
def new (key_attrs : List (List Nat)) : Catalog :=
  ⟨⟨[]⟩, key_attrs.map fun key_attrs_ => ⟨key_attrs_, []⟩⟩

/-- Whether `SeqScanExecutor::Next` keeps a tuple: it is live and passes the filter. -/
def Keeps (filter_predicate_ : Option AbstractExpression) (meta : TupleMeta) (tuple : Tuple) :
    Bool :=
  !meta.is_deleted_ && filter_predicate_.all fun p => GetAsBool (p.Evaluate tuple)

/-- `SeqScanExecutor`: the rows it emits, in heap order. -/
def SeqScan (self : Catalog) (filter_predicate_ : Option AbstractExpression) :
    List (RID × Tuple) :=
  (List.range self.table_.tuples_.length).filterMap fun rid =>
    let scan := self.table_.GetTuple rid
    if Keeps filter_predicate_ scan.1 scan.2 then some (rid, scan.2) else none

/-- `IndexScanExecutor`: the tuples at the `RID`s that `ScanKey` returns for the predicate key,
    whatever their meta, with no filter. `Init` reads `pred_key_->val_`, so a `nullptr` key
    fails. -/
def IndexScan (self : Catalog) (index_oid_ : Nat) (pred_key_ : Option Int) :
    Except String (List (RID × Tuple)) :=
  match pred_key_ with
  | none => .error "pred_key_ is nullptr"
  | some key_value =>
    .ok (((self.indexes_.getD index_oid_ ⟨[], []⟩).ScanKey [key_value]).map fun rid =>
      (rid, (self.table_.GetTuple rid).2))

/-- The rows a plan's executor emits. -/
def Execute (self : Catalog) : PlanNode → Except String (List (RID × Tuple))
  | .SeqScan filter_predicate_ => .ok (self.SeqScan filter_predicate_)
  | .IndexScan index_oid_ _ pred_key_ => self.IndexScan index_oid_ pred_key_

/-- One child row of `InsertExecutor::Next`: the tuple is appended and every index gets an
    entry for its key. -/
def InsertRow (self : Catalog) (child_tuple : Tuple) : Catalog :=
  match self.table_.InsertTuple ⟨false⟩ child_tuple with
  | (none, table_) => { self with table_ }
  | (some insert_rid, table_) =>
    { table_
      indexes_ := self.indexes_.map fun index_info =>
        index_info.InsertEntry (KeyFromTuple child_tuple index_info.GetKeyAttrs) insert_rid }

/-- One child row of `DeleteExecutor::Next`: the tuple is marked deleted and every index drops
    the key its first key attribute gives. -/
def DeleteRow (self : Catalog) (old : RID × Tuple) : Catalog :=
  let delete_tuple_meta := { self.table_.GetTupleMeta old.1 with is_deleted_ := true }
  { table_ := self.table_.UpdateTupleMeta delete_tuple_meta old.1
    indexes_ := self.indexes_.map fun index_info =>
      index_info.DeleteEntry (FirstKeyFromTuple old.2 index_info.GetKeyAttrs) old.1 }

/-- One child row of `UpdateExecutor::Next`: the old tuple is marked deleted, the tuple the
    target expressions compute from it is appended, and every index drops the old key of its
    first key attribute, then gets an entry for the new one. -/
def UpdateRow (target_expressions_ : List AbstractExpression) (self : Catalog)
    (old : RID × Tuple) : Catalog :=
  let delete_tuple_meta := { self.table_.GetTupleMeta old.1 with is_deleted_ := true }
  let table_ := self.table_.UpdateTupleMeta delete_tuple_meta old.1
  let insert_tuple := target_expressions_.map (·.Evaluate old.2)
  match table_.InsertTuple ⟨false⟩ insert_tuple with
  | (none, table_) => { self with table_ }
  | (some insert_rid, table_) =>
    { table_
      indexes_ := (self.indexes_.map fun index_info =>
          index_info.DeleteEntry (FirstKeyFromTuple old.2 index_info.GetKeyAttrs) old.1).map
        fun index_info =>
          index_info.InsertEntry (FirstKeyFromTuple insert_tuple index_info.GetKeyAttrs)
            insert_rid }

theorem InsertRow_eq (self : Catalog) (child_tuple : Tuple) :
    self.InsertRow child_tuple =
      { table_ := (self.table_.InsertTuple ⟨false⟩ child_tuple).2
        indexes_ := self.indexes_.map fun index_info =>
          index_info.InsertEntry (KeyFromTuple child_tuple index_info.GetKeyAttrs)
            self.table_.tuples_.length } := rfl

theorem UpdateRow_eq (target_expressions_ : List AbstractExpression) (self : Catalog)
    (old : RID × Tuple) :
    self.UpdateRow target_expressions_ old =
      { table_ := ((self.table_.UpdateTupleMeta ⟨true⟩ old.1).InsertTuple ⟨false⟩
          (target_expressions_.map (·.Evaluate old.2))).2
        indexes_ := (self.indexes_.map fun index_info =>
            index_info.DeleteEntry (FirstKeyFromTuple old.2 index_info.GetKeyAttrs) old.1).map
          fun index_info => index_info.InsertEntry
            (FirstKeyFromTuple (target_expressions_.map (·.Evaluate old.2))
              index_info.GetKeyAttrs)
            (self.table_.UpdateTupleMeta ⟨true⟩ old.1).tuples_.length } := rfl

/-- A statement the executors run. The child of a delete or an update is a sequential scan,
    whose iterator stops at the tuple that was last when it began. -/
inductive Statement
  | Insert (rows : List Tuple)
  | Delete (filter_predicate_ : Option AbstractExpression)
  | Update (filter_predicate_ : Option AbstractExpression)
      (target_expressions_ : List AbstractExpression)

def run (self : Catalog) : Statement → Catalog
  | .Insert rows => rows.foldl InsertRow self
  | .Delete filter_predicate_ => (self.SeqScan filter_predicate_).foldl DeleteRow self
  | .Update filter_predicate_ target_expressions_ =>
    (self.SeqScan filter_predicate_).foldl (UpdateRow target_expressions_) self

/-- The catalogs the insert, update and delete executors reach from an empty table. -/
inductive Reachable : Catalog → Prop
  | new (key_attrs : List (List Nat)) : Reachable (new key_attrs)
  | run {catalog : Catalog} (s : Statement) : Reachable catalog → Reachable (catalog.run s)

end Catalog

end bustub
