import MiniBusTub.Execution.IndexInvariant

namespace bustub

/-- The value of a `ConstantValueExpression`, `nullptr` for any other expression: what the
    rule's `dynamic_pointer_cast` gives. -/
def ConstantValueOf : AbstractExpression → Option Int
  | .ConstantValue val => some val
  | _ => none

/-- `Optimizer::OptimizeSeqScanAsIndexScan`: a sequential scan filtered by a comparison whose
    left child is a column becomes a scan of the first index having that column among its key
    attributes, probed with the right child when it is a constant and with `nullptr`
    otherwise. The comparison type is not looked at. -/
def OptimizeSeqScanAsIndexScan (catalog : Catalog) : PlanNode → PlanNode
  | .SeqScan (some (.Comparison comp_type (.ColumnValue tuple_idx col_idx) right)) =>
    let filter_predicate_ :=
      AbstractExpression.Comparison comp_type (.ColumnValue tuple_idx col_idx) right
    match catalog.indexes_.findIdx? fun index_info => index_info.GetKeyAttrs.contains col_idx with
    | some index_oid_ =>
      .IndexScan index_oid_ (some filter_predicate_) (ConstantValueOf right)
    | none => .SeqScan (some filter_predicate_)
  | plan => plan

namespace Catalog

variable {self : Catalog}

/-- On a catalog the executors reached, the index scan that `OptimizeSeqScanAsIndexScan` makes
    of a scan filtered by `#col_idx = val` emits only rows the sequential scan emits, each once,
    provided each index holding `col_idx` holds it first. It may emit fewer rows: the index
    keeps one `RID` per key. -/
theorem Reachable.OptimizeSeqScanAsIndexScan_subperm (hr : self.Reachable)
    {tuple_idx col_idx : Nat} {val : Int}
    (hfirst : ∀ index_info ∈ self.indexes_, col_idx ∈ index_info.key_attrs_ →
      index_info.key_attrs_.getD 0 0 = col_idx) :
    let plan := PlanNode.SeqScan
      (some (.Comparison .Equal (.ColumnValue tuple_idx col_idx) (.ConstantValue val)))
    ∃ rows rows', self.Execute plan = .ok rows ∧
      self.Execute (OptimizeSeqScanAsIndexScan self plan) = .ok rows' ∧ rows'.Subperm rows := by
  intro plan
  cases hfind : self.indexes_.findIdx? fun index_info => index_info.GetKeyAttrs.contains col_idx
    with
  | none => exact ⟨_, _, rfl, by simp only [plan, OptimizeSeqScanAsIndexScan, hfind]; rfl, .refl _⟩
  | some index_oid_ =>
    obtain ⟨hlt, hcontains, -⟩ := List.findIdx?_eq_some_iff_getElem.1 hfind
    have hmem := List.getElem_mem hlt
    have hkey := hfirst _ hmem (by simpa [Index.GetKeyAttrs] using hcontains)
    obtain ⟨hnodup, hfound⟩ := (hr.sound _ hmem).ScanKey val
    refine ⟨_, _, rfl, by simp only [plan, OptimizeSeqScanAsIndexScan, hfind]; rfl, ?_⟩
    rw [List.getD_eq_getElem _ _ hlt]
    refine (hnodup.map fun _ _ h => (Prod.ext_iff.1 h).1).subperm fun row hrow => ?_
    obtain ⟨rid, hrid, rfl⟩ := List.mem_map.1 hrow
    obtain ⟨hlt', hlive, hval⟩ := hfound rid hrid
    simp only [FirstKeyFromTuple, hkey, List.cons.injEq, and_true,
      List.getD_eq_getElem?_getD] at hval
    refine mem_SeqScan.2 ⟨hlt', ?_, rfl⟩
    simp [Keeps, hlive, AbstractExpression.Evaluate, ComparisonType.Holds, hval, GetAsBool]

/-- Row `(1)` inserted twice into a table indexed on column `0`: the index scan's rows are a
    sub-permutation of the sequential scan's. -/
theorem OptimizeSeqScanAsIndexScan_subperm_two_rows :
    let c : Catalog := (Catalog.new [[0]]).run (.Insert [[1], [1]])
    let plan := PlanNode.SeqScan
      (some (.Comparison .Equal (.ColumnValue 0 0) (.ConstantValue 1)))
    ∃ rows rows', c.Execute plan = .ok rows ∧
      c.Execute (OptimizeSeqScanAsIndexScan c plan) = .ok rows' ∧ rows'.Subperm rows :=
  Reachable.OptimizeSeqScanAsIndexScan_subperm (.run _ (.new _)) (by decide)

end Catalog

/-- Two tables the executors reach, indexed on column `0`, where the scan the rule makes emits
    other rows than the sequential scan it replaces. After `(2)` is inserted, the filter
    `#0.0 != 1` keeps the row, while the index probed for `1` has none. After `(1)` is inserted
    twice, the filter `#0.0 = 1` keeps both rows, while the index holds only the first. -/
theorem OptimizeSeqScanAsIndexScan_changes_rows :
    let c₁ : Catalog := (Catalog.new [[0]]).run (.Insert [[2]])
    let c₂ : Catalog := (Catalog.new [[0]]).run (.Insert [[1], [1]])
    let p₁ := PlanNode.SeqScan
      (some (.Comparison .NotEqual (.ColumnValue 0 0) (.ConstantValue 1)))
    let p₂ := PlanNode.SeqScan (some (.Comparison .Equal (.ColumnValue 0 0) (.ConstantValue 1)))
    c₁.Reachable ∧ c₁.Execute p₁ = .ok [(0, [2])] ∧
      c₁.Execute (OptimizeSeqScanAsIndexScan c₁ p₁) = .ok [] ∧
    c₂.Reachable ∧ c₂.Execute p₂ = .ok [(0, [1]), (1, [1])] ∧
      c₂.Execute (OptimizeSeqScanAsIndexScan c₂ p₂) = .ok [(0, [1])] :=
  ⟨.run _ (.new _), rfl, rfl, .run _ (.new _), rfl, rfl⟩

end bustub
