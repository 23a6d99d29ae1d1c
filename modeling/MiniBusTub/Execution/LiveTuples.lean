import MiniBusTub.Execution.IndexInvariant
import Mathlib.Data.List.Range

namespace bustub

theorem filterMap_range_getD {α β : Type} (f : α → Option β) (d : α) : ∀ l : List α,
    (List.range l.length).filterMap (fun i => f (l.getD i d)) = l.filterMap f
  | [] => rfl
  | x :: l => by
    rw [List.length_cons, List.range_succ_eq_map, List.filterMap_cons, List.filterMap_map]
    simp only [Function.comp_def, Nat.succ_eq_add_one, List.getD_cons_succ,
      List.getD_cons_zero, filterMap_range_getD f d l, List.filterMap_cons]

namespace Catalog

/-- Whether a tuple passes a scan's filter: the half of `Keeps` that reads the tuple. -/
def Passes (filter_predicate_ : Option AbstractExpression) (tuple : Tuple) : Bool :=
  filter_predicate_.all fun p => GetAsBool (p.Evaluate tuple)

theorem Keeps_eq (filter_predicate_ : Option AbstractExpression) (meta : TupleMeta)
    (tuple : Tuple) : Keeps filter_predicate_ meta tuple =
      (!meta.is_deleted_ && Passes filter_predicate_ tuple) := rfl

/-- The tuple of a heap entry, if it is live. -/
def liveTuple (entry : TupleMeta × Tuple) : Option Tuple :=
  if entry.1.is_deleted_ then none else some entry.2

@[simp] theorem liveTuple_live (tuple : Tuple) : liveTuple (⟨false⟩, tuple) = some tuple := rfl

@[simp] theorem liveTuple_deleted (tuple : Tuple) : liveTuple (⟨true⟩, tuple) = none := rfl

/-- The table as a relation: its live tuples in heap order. -/
def live (self : Catalog) : List Tuple := self.table_.tuples_.filterMap liveTuple

/-- What a statement does to the live tuples: an insert appends its rows; a delete drops the
    tuples its filter passes; an update drops them too and appends, in scan order, the tuples
    its target expressions compute from them. -/
def Statement.apply : Statement → List Tuple → List Tuple
  | .Insert rows, tuples => tuples ++ rows
  | .Delete filter_predicate_, tuples => tuples.filter fun tuple => !Passes filter_predicate_ tuple
  | .Update filter_predicate_ target_expressions_, tuples =>
    tuples.filter (fun tuple => !Passes filter_predicate_ tuple) ++
      (tuples.filter (Passes filter_predicate_)).map fun tuple =>
        target_expressions_.map (·.Evaluate tuple)

variable (self : Catalog)

theorem live_eq_range : self.live =
    (List.range self.table_.tuples_.length).filterMap fun rid =>
      liveTuple (self.table_.GetTuple rid) :=
  (filterMap_range_getD liveTuple (⟨true⟩, []) self.table_.tuples_).symm

/-- Marking a kept entry deleted is filtering its tuple out. -/
theorem liveTuple_mark (filter_predicate_ : Option AbstractExpression)
    (entry : TupleMeta × Tuple) :
    liveTuple (if Keeps filter_predicate_ entry.1 entry.2 then (⟨true⟩, entry.2) else entry) =
      (liveTuple entry).filter fun tuple => !Passes filter_predicate_ tuple := by
  obtain ⟨⟨is_deleted_⟩, tuple⟩ := entry
  cases is_deleted_ <;> cases hpass : Passes filter_predicate_ tuple <;>
    simp [Keeps_eq, hpass, liveTuple, Option.filter]

/-- A sequential scan emits the live tuples that pass its filter, in heap order. -/
theorem SeqScan_snd (filter_predicate_ : Option AbstractExpression) :
    (self.SeqScan filter_predicate_).map (·.2) = self.live.filter (Passes filter_predicate_) := by
  rw [live_eq_range, List.filter_filterMap, SeqScan, List.map_filterMap]
  refine List.filterMap_congr fun rid _ => ?_
  obtain ⟨⟨is_deleted_⟩, tuple⟩ := self.table_.GetTuple rid
  cases is_deleted_ <;> cases hpass : Passes filter_predicate_ tuple <;>
    simp [Keeps_eq, hpass, liveTuple, Option.filter]

theorem mem_SeqScan_rid {filter_predicate_ : Option AbstractExpression} {rid : RID}
    (hrid : rid < self.table_.tuples_.length) :
    rid ∈ (self.SeqScan filter_predicate_).map (·.1) ↔
      Keeps filter_predicate_ (self.table_.GetTuple rid).1 (self.table_.GetTuple rid).2 := by
  simp only [List.mem_map, mem_SeqScan]
  constructor
  · rintro ⟨_, ⟨_, hkeeps, _⟩, rfl⟩
    exact hkeeps
  · exact fun hkeeps => ⟨(rid, (self.table_.GetTuple rid).2), ⟨hrid, hkeeps, rfl⟩, rfl⟩

/-- At an old `RID`, a delete or an update leaves the live tuple its filter does not pass. -/
theorem liveTuple_mark_SeqScan {filter_predicate_ : Option AbstractExpression} {rid : RID}
    (hrid : rid < self.table_.tuples_.length) :
    liveTuple (if rid ∈ (self.SeqScan filter_predicate_).map (·.1) then
        (⟨true⟩, (self.table_.GetTuple rid).2) else self.table_.GetTuple rid) =
      (liveTuple (self.table_.GetTuple rid)).filter fun tuple =>
        !Passes filter_predicate_ tuple := by
  rw [← liveTuple_mark]
  exact congrArg liveTuple (if_congr (self.mem_SeqScan_rid hrid) rfl rfl)

theorem InsertRow_live (child_tuple : Tuple) :
    (self.InsertRow child_tuple).live = self.live ++ [child_tuple] := by
  simp [live, InsertRow_eq, TableHeap.InsertTuple]

theorem DeleteRow_table (old : RID × Tuple) :
    (self.DeleteRow old).table_ = self.table_.UpdateTupleMeta ⟨true⟩ old.1 := rfl

@[simp] theorem DeleteRow_length (old : RID × Tuple) :
    (self.DeleteRow old).table_.tuples_.length = self.table_.tuples_.length :=
  TableHeap.UpdateTupleMeta_length _ _ _

/-- Deleting the child's rows marks exactly their `RID`s deleted. -/
theorem GetTuple_foldl_DeleteRow : ∀ (rows : List (RID × Tuple)) (c : Catalog),
    (∀ old ∈ rows, old.1 < c.table_.tuples_.length) → ∀ rid : RID,
      (rows.foldl DeleteRow c).table_.GetTuple rid =
        if rid ∈ rows.map (·.1) then (⟨true⟩, (c.table_.GetTuple rid).2)
        else c.table_.GetTuple rid
  | [], _, _, _ => rfl
  | old :: rows, c, hrows, rid => by
    have hold := hrows old (List.mem_cons_self _ _)
    rw [List.foldl_cons, GetTuple_foldl_DeleteRow rows _
      (fun old' h => by simpa using hrows old' (List.mem_cons_of_mem _ h)), DeleteRow_table,
      TableHeap.GetTuple_UpdateTupleMeta_snd, TableHeap.GetTuple_UpdateTupleMeta]
    by_cases hrid : rid = old.1
    · subst hrid
      simp [hold]
    · simp only [List.map_cons, List.mem_cons, hrid, false_or, false_and, if_false]

theorem length_foldl_DeleteRow : ∀ (rows : List (RID × Tuple)) (c : Catalog),
    (rows.foldl DeleteRow c).table_.tuples_.length = c.table_.tuples_.length
  | [], _ => rfl
  | old :: rows, c => by rw [List.foldl_cons, length_foldl_DeleteRow rows, DeleteRow_length]

/-- The new tuple `UpdateRow` appends for a child row. -/
def updatedEntry (target_expressions_ : List AbstractExpression) (old : RID × Tuple) :
    TupleMeta × Tuple :=
  (⟨false⟩, target_expressions_.map (·.Evaluate old.2))

theorem GetTuple_UpdateRow (target_expressions_ : List AbstractExpression)
    {old : RID × Tuple} (hold : old.1 < self.table_.tuples_.length) (rid : RID) :
    (self.UpdateRow target_expressions_ old).table_.GetTuple rid =
      if rid < self.table_.tuples_.length then
        (if rid = old.1 then (⟨true⟩, (self.table_.GetTuple rid).2) else self.table_.GetTuple rid)
      else if rid = self.table_.tuples_.length then updatedEntry target_expressions_ old
      else (⟨true⟩, []) := by
  rw [UpdateRow_eq, TableHeap.GetTuple_InsertTuple_eq, TableHeap.UpdateTupleMeta_length,
    TableHeap.GetTuple_UpdateTupleMeta]
  by_cases hrid : rid = old.1
  · subst hrid
    simp [hold]
  · simp [hrid, updatedEntry]

theorem liveTuple_updatedEntry (target_expressions_ : List AbstractExpression) :
    liveTuple ∘ updatedEntry target_expressions_ =
      some ∘ ((fun tuple => target_expressions_.map (·.Evaluate tuple)) ∘ (·.2)) := rfl

/-- Updating the child's rows marks their `RID`s deleted and appends the new tuples in the
    rows' order. -/
theorem foldl_UpdateRow (target_expressions_ : List AbstractExpression) :
    ∀ (rows : List (RID × Tuple)) (c : Catalog),
      (∀ old ∈ rows, old.1 < c.table_.tuples_.length) →
      (rows.foldl (UpdateRow target_expressions_) c).table_.tuples_.length =
          c.table_.tuples_.length + rows.length ∧
        ∀ rid : Nat, (rows.foldl (UpdateRow target_expressions_) c).table_.GetTuple rid =
          if rid < c.table_.tuples_.length then
            (if rid ∈ rows.map (·.1) then (⟨true⟩, (c.table_.GetTuple rid).2)
              else c.table_.GetTuple rid)
          else (rows.map (updatedEntry target_expressions_)).getD
            (rid - c.table_.tuples_.length) (⟨true⟩, [])
  | [], c, _ => ⟨rfl, fun rid => by
      by_cases hrid : rid < c.table_.tuples_.length
      · simp [hrid]
      · simpa [hrid] using TableHeap.GetTuple_of_le _ (Nat.le_of_not_lt hrid)⟩
  | old :: rows, c, hrows => by
    have hold := hrows old (List.mem_cons_self _ _)
    have hrows' : ∀ old' ∈ rows, old'.1 < c.table_.tuples_.length :=
      fun old' h => hrows old' (List.mem_cons_of_mem _ h)
    have hlen : (c.UpdateRow target_expressions_ old).table_.tuples_.length =
        c.table_.tuples_.length + 1 := by simp [UpdateRow_eq]
    obtain ⟨ih_len, ih⟩ := foldl_UpdateRow target_expressions_ rows _
      (fun old' h => by rw [hlen]; exact Nat.lt_succ_of_lt (hrows' old' h))
    refine ⟨by rw [List.foldl_cons, ih_len, hlen, List.length_cons]; omega, fun rid => ?_⟩
    rw [List.foldl_cons, ih, hlen, GetTuple_UpdateRow _ _ hold]
    rcases Nat.lt_trichotomy rid c.table_.tuples_.length with hlt | rfl | hgt
    · -- a `RID` the statement found
      by_cases hrid : rid = old.1
      · subst hrid
        simp [hlt, Nat.lt_succ_of_lt hlt]
      · simp only [hlt, Nat.lt_succ_of_lt hlt, hrid, if_true, if_false, List.map_cons,
          List.mem_cons, false_or]
    · -- the `RID` of the first appended tuple
      have hnew : c.table_.tuples_.length ∉ rows.map (·.1) := fun h => by
        obtain ⟨old', hold', heq⟩ := List.mem_map.1 h
        exact Nat.lt_irrefl _ (heq ▸ hrows' old' hold')
      simp [hnew]
    · -- a later appended tuple
      have hsub : rid - c.table_.tuples_.length = rid - (c.table_.tuples_.length + 1) + 1 := by
        omega
      rw [if_neg (Nat.not_lt.2 (Nat.succ_le_of_lt hgt)), if_neg (Nat.not_lt.2 hgt.le), hsub,
        List.map_cons, List.getD_cons_succ]

theorem run_Insert_live : ∀ (rows : List Tuple) (c : Catalog),
    (c.run (.Insert rows)).live = c.live ++ rows
  | [], c => (List.append_nil _).symm
  | row :: rows, c => by
    rw [run, List.foldl_cons, ← run, run_Insert_live rows, InsertRow_live, List.append_assoc,
      List.singleton_append]

theorem run_Delete_live (filter_predicate_ : Option AbstractExpression) :
    (self.run (.Delete filter_predicate_)).live =
      self.live.filter fun tuple => !Passes filter_predicate_ tuple := by
  rw [live_eq_range, live_eq_range, run, length_foldl_DeleteRow, List.filter_filterMap]
  refine List.filterMap_congr fun rid hrid => ?_
  rw [GetTuple_foldl_DeleteRow _ _ fun old h => (SeqScan_rows filter_predicate_ old h).1]
  exact self.liveTuple_mark_SeqScan (List.mem_range.1 hrid)

theorem run_Update_live (filter_predicate_ : Option AbstractExpression)
    (target_expressions_ : List AbstractExpression) :
    (self.run (.Update filter_predicate_ target_expressions_)).live =
      self.live.filter (fun tuple => !Passes filter_predicate_ tuple) ++
        (self.live.filter (Passes filter_predicate_)).map fun tuple =>
          target_expressions_.map (·.Evaluate tuple) := by
  obtain ⟨hlen, hget⟩ := foldl_UpdateRow target_expressions_ (self.SeqScan filter_predicate_)
    self fun old h => (SeqScan_rows filter_predicate_ old h).1
  rw [live_eq_range, run, hlen, List.range_add, List.filterMap_append]
  congr 1
  · -- the old `RID`s
    rw [live_eq_range, List.filter_filterMap]
    refine List.filterMap_congr fun rid hrid => ?_
    rw [hget, if_pos (List.mem_range.1 hrid)]
    exact self.liveTuple_mark_SeqScan (List.mem_range.1 hrid)
  · -- the appended tuples, one for each row the scan found
    conv_rhs => rw [← SeqScan_snd, List.map_map, ← List.filterMap_eq_map,
      ← liveTuple_updatedEntry, ← List.filterMap_map,
      ← filterMap_range_getD liveTuple (⟨true⟩, []), List.length_map]
    rw [List.filterMap_map]
    refine List.filterMap_congr fun j _ => ?_
    rw [Function.comp_apply, hget, if_neg (Nat.not_lt.2 (Nat.le_add_right _ _)),
      Nat.add_sub_cancel_left]

/-- The executors implement each statement's relational meaning: running a statement changes
    the table's live tuples as `Statement.apply` says. -/
theorem run_live (s : Statement) : (self.run s).live = s.apply self.live := by
  cases s with
  | Insert rows => exact run_Insert_live rows self
  | Delete filter_predicate_ => exact self.run_Delete_live filter_predicate_
  | Update filter_predicate_ target_expressions_ =>
    exact self.run_Update_live filter_predicate_ target_expressions_

/-- Over any sequence of statements, the live tuples are what the statements' meanings make of
    the live tuples at the start. -/
theorem foldl_run_live : ∀ (statements : List Statement) (c : Catalog),
    (statements.foldl run c).live = statements.foldl (fun tuples s => s.apply tuples) c.live
  | [], _ => rfl
  | s :: statements, c => by
    rw [List.foldl_cons, List.foldl_cons, foldl_run_live statements, run_live]

/-- Whatever statements run on a table, a later sequential scan emits what their relational
    meanings leave: of the tuples `Statement.apply` makes, statement after statement, of the
    live tuples at the start, those that pass the scan's filter, in that order. -/
theorem SeqScan_foldl_run (statements : List Statement) (c : Catalog)
    (filter_predicate_ : Option AbstractExpression) :
    ((statements.foldl run c).SeqScan filter_predicate_).map (·.2) =
      (statements.foldl (fun tuples s => s.apply tuples) c.live).filter
        (Passes filter_predicate_) := by
  rw [SeqScan_snd, foldl_run_live]

end Catalog

end bustub
