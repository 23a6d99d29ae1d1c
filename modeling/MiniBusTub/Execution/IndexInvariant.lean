import MiniBusTub.Execution.Executors
import Mathlib.Data.List.Perm.Subperm
import Mathlib.Data.List.Nodup

namespace bustub

namespace TableHeap

/-- `heap'` keeps every tuple of `heap` at its `RID`, metas aside. -/
structure Extends (heap heap' : TableHeap) : Prop where
  length_le : heap.tuples_.length ≤ heap'.tuples_.length
  tuple_eq : ∀ rid < heap.tuples_.length, (heap'.GetTuple rid).2 = (heap.GetTuple rid).2

theorem Extends.refl (self : TableHeap) : self.Extends self := ⟨le_refl _, fun _ _ => rfl⟩

theorem Extends.trans {t₁ t₂ t₃ : TableHeap} (h₁ : t₁.Extends t₂) (h₂ : t₂.Extends t₃) :
    t₁.Extends t₃ :=
  ⟨h₁.length_le.trans h₂.length_le, fun rid hrid =>
    (h₂.tuple_eq rid (lt_of_lt_of_le hrid h₁.length_le)).trans (h₁.tuple_eq rid hrid)⟩

theorem InsertTuple_extends (self : TableHeap) (meta : TupleMeta) (tuple : Tuple) :
    self.Extends (self.InsertTuple meta tuple).2 :=
  ⟨by simp, fun _ hrid => by rw [GetTuple_InsertTuple _ _ _ hrid]⟩

theorem UpdateTupleMeta_extends (self : TableHeap) (meta : TupleMeta) (rid : RID) :
    self.Extends (self.UpdateTupleMeta meta rid) :=
  ⟨by simp, fun _ _ => by simp⟩

end TableHeap

namespace Index

/-- What the executors keep of an index of the table: its keys are distinct, and an entry
    under a one-value key names a live tuple whose first key attribute holds that value. -/
structure Sound (heap : TableHeap) (index : Index) : Prop where
  nodup : (index.entries_.map (·.1)).Nodup
  live : ∀ e ∈ index.entries_, e.1.length = 1 →
    e.2 < heap.tuples_.length ∧ (heap.GetTuple e.2).1.is_deleted_ = false ∧
      e.1 = FirstKeyFromTuple (heap.GetTuple e.2).2 index.key_attrs_

variable {table_ : TableHeap} {self : Index}

theorem Sound.InsertEntry (h : self.Sound table_) {key : List Int} {rid : RID}
    (hkey : key.length = 1 → rid < table_.tuples_.length ∧
      (table_.GetTuple rid).1.is_deleted_ = false ∧
      key = FirstKeyFromTuple (table_.GetTuple rid).2 self.key_attrs_) :
    (self.InsertEntry key rid).Sound table_ := by
  unfold Index.InsertEntry
  split_ifs with hany
  · exact h
  · refine ⟨?_, fun e he => ?_⟩
    · simp only [List.any_eq_true, beq_iff_eq, not_exists, not_and] at hany
      rw [List.map_append, List.nodup_append]
      refine ⟨h.nodup, List.nodup_singleton _, List.disjoint_singleton.2 fun hmem => ?_⟩
      obtain ⟨e, he, hek⟩ := List.mem_map.1 hmem
      exact hany e he hek
    · rcases List.mem_append.1 he with he | he
      · exact h.live e he
      · rw [List.mem_singleton.1 he]
        exact hkey

/-- Dropping the key of the tuple at `rid` keeps the index sound whatever the meta of `rid`
    becomes. -/
theorem Sound.DeleteEntry (h : self.Sound table_) (meta : TupleMeta) (rid rid' : RID) :
    (self.DeleteEntry (FirstKeyFromTuple (table_.GetTuple rid).2 self.key_attrs_) rid').Sound
      (table_.UpdateTupleMeta meta rid) := by
  refine ⟨((List.filter_sublist _).map _).nodup h.nodup, fun e he hlen => ?_⟩
  simp only [Index.DeleteEntry, List.mem_filter, bne_iff_ne, ne_eq] at he
  obtain ⟨hlt, hlive, hkey⟩ := h.live e he.1 hlen
  have hne : e.2 ≠ rid := fun heq => he.2 (heq ▸ hkey)
  rw [TableHeap.UpdateTupleMeta_length, TableHeap.GetTuple_UpdateTupleMeta,
    if_neg fun h' => hne h'.1]
  exact ⟨hlt, hlive, hkey⟩

theorem Sound.InsertTuple (h : self.Sound table_) (meta : TupleMeta) (tuple : Tuple) :
    self.Sound (table_.InsertTuple meta tuple).2 :=
  ⟨h.nodup, fun e he hlen => by
    obtain ⟨hlt, hlive, hkey⟩ := h.live e he hlen
    rw [TableHeap.GetTuple_InsertTuple _ _ _ hlt]
    exact ⟨by simpa only [TableHeap.InsertTuple_length] using Nat.lt_succ_of_lt hlt, hlive, hkey⟩⟩

private theorem nodup_of_length_le_one {α : Type} : ∀ {l : List α}, l.length ≤ 1 → l.Nodup
  | [], _ => List.nodup_nil
  | [_], _ => List.nodup_singleton _
  | _ :: _ :: _, h => absurd h (by simp)

/-- `ScanKey` of a one-value key on a sound index returns at most one `RID`, that of a live
    tuple whose first key attribute holds the value. -/
theorem Sound.ScanKey (h : self.Sound table_) (val : Int) :
    (self.ScanKey [val]).Nodup ∧ ∀ rid ∈ self.ScanKey [val], rid < table_.tuples_.length ∧
      (table_.GetTuple rid).1.is_deleted_ = false ∧
      FirstKeyFromTuple (table_.GetTuple rid).2 self.key_attrs_ = [val] := by
  set found := self.entries_.filter (·.1 == [val])
  have hkeys : found.map (·.1) = List.replicate found.length [val] :=
    List.eq_replicate_iff.2 ⟨List.length_map _ _, fun k hk => by
      obtain ⟨e, he, rfl⟩ := List.mem_map.1 hk
      simpa using (List.mem_filter.1 he).2⟩
  have hnodup : (found.map (·.1)).Nodup := ((List.filter_sublist _).map _).nodup h.nodup
  rw [hkeys, List.nodup_replicate] at hnodup
  refine ⟨nodup_of_length_le_one (by simpa [Index.ScanKey] using hnodup), fun rid hrid => ?_⟩
  obtain ⟨e, he, rfl⟩ := List.mem_map.1 hrid
  have hek := beq_iff_eq.1 (List.mem_filter.1 he).2
  obtain ⟨hlt, hlive, hkey⟩ := h.live e (List.mem_filter.1 he).1 (by rw [hek]; rfl)
  exact ⟨hlt, hlive, hkey.symm.trans hek⟩

end Index

namespace Catalog

/-- Every index of the table is sound. -/
def Sound (self : Catalog) : Prop := ∀ index_info ∈ self.indexes_, index_info.Sound self.table_

variable {self : Catalog}

theorem mem_SeqScan {filter_predicate_ : Option AbstractExpression} {row : RID × Tuple} :
    row ∈ self.SeqScan filter_predicate_ ↔ row.1 < self.table_.tuples_.length ∧
      Keeps filter_predicate_ (self.table_.GetTuple row.1).1 (self.table_.GetTuple row.1).2 ∧
      row.2 = (self.table_.GetTuple row.1).2 := by
  simp only [SeqScan, List.mem_filterMap, List.mem_range, Option.ite_none_right_eq_some,
    Option.some.injEq]
  constructor
  · rintro ⟨rid, hrid, hkeeps, rfl⟩
    exact ⟨hrid, hkeeps, rfl⟩
  · rintro ⟨hrid, hkeeps, htuple⟩
    exact ⟨row.1, hrid, hkeeps, Prod.ext rfl htuple.symm⟩

theorem Sound.new (key_attrs : List (List Nat)) : (new key_attrs).Sound := by
  intro index_info hmem
  obtain ⟨_, -, rfl⟩ := List.mem_map.1 hmem
  exact ⟨List.nodup_nil, nofun⟩

theorem Sound.InsertRow (h : self.Sound) (child_tuple : Tuple) :
    (self.InsertRow child_tuple).Sound ∧
      self.table_.Extends (self.InsertRow child_tuple).table_ := by
  rw [InsertRow_eq]
  refine ⟨fun i hi => ?_, TableHeap.InsertTuple_extends _ _ _⟩
  obtain ⟨index_info, hmem, rfl⟩ := List.mem_map.1 hi
  refine ((h index_info hmem).InsertTuple _ _).InsertEntry fun hlen => ?_
  obtain ⟨a, ha⟩ : ∃ a, index_info.key_attrs_ = [a] := List.length_eq_one.1
    (by simpa only [KeyFromTuple, List.length_map] using hlen)
  simp [KeyFromTuple, FirstKeyFromTuple, Index.GetKeyAttrs, ha]

theorem Sound.DeleteRow (h : self.Sound) {old : RID × Tuple}
    (hold : old.2 = (self.table_.GetTuple old.1).2) :
    (self.DeleteRow old).Sound ∧ self.table_.Extends (self.DeleteRow old).table_ := by
  refine ⟨fun i hi => ?_, TableHeap.UpdateTupleMeta_extends _ _ _⟩
  obtain ⟨index_info, hmem, rfl⟩ := List.mem_map.1 hi
  have hdel := (h index_info hmem).DeleteEntry ⟨true⟩ old.1 old.1
  rw [← hold] at hdel
  exact hdel

theorem Sound.UpdateRow (h : self.Sound) (target_expressions_ : List AbstractExpression)
    {old : RID × Tuple} (hold : old.2 = (self.table_.GetTuple old.1).2) :
    (self.UpdateRow target_expressions_ old).Sound ∧
      self.table_.Extends (self.UpdateRow target_expressions_ old).table_ := by
  rw [UpdateRow_eq]
  refine ⟨fun i hi => ?_, (TableHeap.UpdateTupleMeta_extends _ _ _).trans
    (TableHeap.InsertTuple_extends _ _ _)⟩
  obtain ⟨i₁, hi₁, rfl⟩ := List.mem_map.1 hi
  obtain ⟨index_info, hmem, rfl⟩ := List.mem_map.1 hi₁
  have hdel := (h index_info hmem).DeleteEntry ⟨true⟩ old.1 old.1
  rw [← hold] at hdel
  refine (hdel.InsertTuple _ _).InsertEntry fun _ => ?_
  simp only [TableHeap.GetTuple_InsertTuple_self, TableHeap.InsertTuple_length,
    Nat.lt_succ_self, true_and]
  rfl

/-- A fold of row steps, each keeping the catalog sound and its tuples in place, over rows
    naming tuples of the table as it was, keeps the catalog sound. -/
theorem Sound.foldl {f : Catalog → RID × Tuple → Catalog}
    (hf : ∀ c : Catalog, c.Sound → ∀ old : RID × Tuple, old.2 = (c.table_.GetTuple old.1).2 →
      (f c old).Sound ∧ c.table_.Extends (f c old).table_)
    {heap : TableHeap} {rows : List (RID × Tuple)}
    (hrows : ∀ old ∈ rows, old.1 < heap.tuples_.length ∧ old.2 = (heap.GetTuple old.1).2) :
    ∀ c : Catalog, c.Sound → heap.Extends c.table_ →
      (rows.foldl f c).Sound ∧ heap.Extends (rows.foldl f c).table_ := by
  induction rows with
  | nil => exact fun c hc hext => ⟨hc, hext⟩
  | cons old rows ih =>
    intro c hc hext
    obtain ⟨hlt, hold⟩ := hrows old (List.mem_cons_self _ _)
    obtain ⟨hc', hext'⟩ := hf c hc old (hold.trans (hext.tuple_eq _ hlt).symm)
    exact ih (fun o ho => hrows o (List.mem_cons_of_mem _ ho)) _ hc' (hext.trans hext')

/-- The rows of a sequential scan name tuples of the table. -/
theorem SeqScan_rows (filter_predicate_ : Option AbstractExpression) :
    ∀ old ∈ self.SeqScan filter_predicate_, old.1 < self.table_.tuples_.length ∧
      old.2 = (self.table_.GetTuple old.1).2 :=
  fun _ hold => ⟨(mem_SeqScan.1 hold).1, (mem_SeqScan.1 hold).2.2⟩

theorem Sound.run (h : self.Sound) (s : Statement) : (self.run s).Sound := by
  cases s with
  | Insert rows =>
    induction rows generalizing self with
    | nil => exact h
    | cons child_tuple rows ih => exact ih (h.InsertRow child_tuple).1
  | Delete filter_predicate_ =>
    exact (Sound.foldl (fun c hc _ hold => hc.DeleteRow hold) (SeqScan_rows filter_predicate_)
      self h (TableHeap.Extends.refl _)).1
  | Update filter_predicate_ target_expressions_ =>
    exact (Sound.foldl (fun c hc _ hold => hc.UpdateRow target_expressions_ hold)
      (SeqScan_rows filter_predicate_) self h (TableHeap.Extends.refl _)).1

/-- The insert, update and delete executors keep every index sound. -/
theorem Reachable.sound (hr : self.Reachable) : self.Sound := by
  induction hr with
  | new key_attrs => exact Sound.new key_attrs
  | run s _ ih => exact ih.run s

end Catalog

end bustub
