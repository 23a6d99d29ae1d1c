import MiniBusTub.Buffer.LRUKReplacer

namespace bustub

namespace LRUKReplacer

/-- What the replacer keeps between calls: `Size` counts the evictable frames, every history
    is non-empty and strictly decreasing, no timestamp is recorded twice or lies past the
    clock, and no more frames are tracked than timestamps were handed out. -/
structure Invariant (r : LRUKReplacer) : Prop where
  size_eq : r.evictable_size_ = r.node_store_.entries.countP (·.2.is_evictable_)
  history_ne_nil : ∀ e ∈ r.node_store_.entries, e.2.history_ ≠ []
  history_decreasing : ∀ e ∈ r.node_store_.entries, e.2.history_.Pairwise (· > ·)
  timestamps_distinct : (r.node_store_.entries.flatMap (·.2.history_)).Nodup
  timestamps_le : ∀ e ∈ r.node_store_.entries, ∀ t ∈ e.2.history_, t ≤ r.current_timestamp_
  tracked_le : r.node_store_.entries.length ≤ r.current_timestamp_
  clock_lt : r.current_timestamp_ < 2 ^ 64

theorem Invariant.new (num_frames k : Nat) : (new num_frames k).Invariant :=
  ⟨rfl, nofun, nofun, List.nodup_nil, nofun, le_refl 0, Nat.two_pow_pos 64⟩

section Steps

variable {r r' : LRUKReplacer} {frame_id : Int}

/-- The timestamps of the entries. -/
private theorem mem_flatMap_history {l : List (Int × LRUKNode)} {t : Nat} :
    t ∈ l.flatMap (·.2.history_) ↔ ∃ e ∈ l, t ∈ e.2.history_ := by
  simp only [List.mem_flatMap]

/-- `RecordAccess` below the clock's wrap keeps the invariant and ticks the clock once. -/
theorem Invariant.RecordAccess (h : r.Invariant) (hts : r.current_timestamp_ + 1 < 2 ^ 64)
    (hok : r.RecordAccess frame_id = .ok r') :
    r'.Invariant ∧ r'.current_timestamp_ = r.current_timestamp_ + 1 := by
  obtain ⟨-, hclock, hsize, hcase⟩ := RecordAccess_ok hok
  rw [incMod_of_lt hts] at hclock hcase
  have hold : ∀ t ∈ r.node_store_.entries.flatMap (·.2.history_), t ≤ r.current_timestamp_ :=
    fun t ht => by
      obtain ⟨e, he, hte⟩ := mem_flatMap_history.1 ht
      exact h.timestamps_le e he t hte
  have hfresh : r.current_timestamp_ + 1 ∉ r.node_store_.entries.flatMap (·.2.history_) :=
    fun ht => by have := hold _ ht; omega
  refine ⟨?_, hclock⟩
  rcases hcase with ⟨hfind, hstore⟩ | ⟨n, hfind, hstore⟩
  · -- a new node, appended
    have hentries : r'.node_store_.entries = r.node_store_.entries ++
        [(frame_id, ⟨[r.current_timestamp_ + 1], frame_id, r.k_, false⟩)] := by
      rw [hstore, UnorderedMap.insert_entries_of_find?_eq_none hfind]
    refine ⟨?_, ?_, ?_, ?_, ?_, ?_, hclock ▸ hts⟩ <;>
      simp only [hentries, hsize, hclock, List.countP_append, List.mem_append,
        List.mem_singleton, List.flatMap_append, List.length_append]
    · simp [h.size_eq]
    · rintro e (he | rfl)
      · exact h.history_ne_nil e he
      · simp
    · rintro e (he | rfl)
      · exact h.history_decreasing e he
      · simp
    · rw [List.nodup_append]
      refine ⟨h.timestamps_distinct, by simp, fun t ht ht' => hfresh ?_⟩
      simp only [List.flatMap_cons, List.flatMap_nil, List.append_nil, List.mem_singleton] at ht'
      exact ht' ▸ ht
    · rintro e (he | rfl) t ht
      · have := h.timestamps_le e he t ht; omega
      · simp only [List.mem_singleton] at ht; omega
    · have := h.tracked_le; simp; omega
  · -- the tracked node records the timestamp in place
    obtain ⟨l₁, l₂, hsplit, hk₁, hk₂⟩ := UnorderedMap.split_of_find? hfind
    have hentries : r'.node_store_.entries =
        l₁ ++ (frame_id, n.RecordAccess (r.current_timestamp_ + 1)) :: l₂ := by
      rw [hstore, UnorderedMap.modify_entries_of_split hsplit hk₁ hk₂]
    have hn : (frame_id, n) ∈ r.node_store_.entries := by rw [hsplit]; simp
    -- what holds of the old entries and of the updated node holds of the new entries
    have hall : ∀ {P : Int × LRUKNode → Prop}, (∀ e ∈ r.node_store_.entries, P e) →
        P (frame_id, n.RecordAccess (r.current_timestamp_ + 1)) →
        ∀ e ∈ r'.node_store_.entries, P e := fun hold hnew e he => by
      rw [hsplit] at hold
      rw [hentries, List.mem_append, List.mem_cons] at he
      rcases he with he | rfl | he
      · exact hold e (List.mem_append_left _ he)
      · exact hnew
      · exact hold e (List.mem_append_right _ (List.mem_cons_of_mem _ he))
    refine ⟨?_, hall h.history_ne_nil (by simp), hall h.history_decreasing ?_, ?_,
      hall (fun e he t ht => ?_) fun t ht => ?_, ?_, hclock ▸ hts⟩
    · rw [hsize, hentries, h.size_eq, hsplit]
      simp [List.countP_append, List.countP_cons]
    · refine List.pairwise_cons.2 ⟨fun t ht => ?_, h.history_decreasing _ hn⟩
      have := h.timestamps_le _ hn t ht
      show t < r.current_timestamp_ + 1
      omega
    · have hperm : (l₁ ++ (frame_id, n.RecordAccess (r.current_timestamp_ + 1)) :: l₂).flatMap
          (·.2.history_) |>.Perm ((r.current_timestamp_ + 1) :: r.node_store_.entries.flatMap
            (·.2.history_)) := by
        rw [hsplit]
        simp only [List.flatMap_append, List.flatMap_cons, LRUKNode.RecordAccess_history,
          List.cons_append]
        exact List.perm_middle
      rw [hentries]
      exact hperm.nodup_iff.2 (List.nodup_cons.2 ⟨hfresh, h.timestamps_distinct⟩)
    · have := h.timestamps_le e he t ht; omega
    · simp only [LRUKNode.RecordAccess_history, List.mem_cons] at ht
      rcases ht with rfl | ht
      · exact hclock.ge
      · have := h.timestamps_le _ hn t ht; omega
    · have := h.tracked_le
      rw [hsplit] at this
      simp only [hentries, hclock, List.length_append, List.length_cons] at this ⊢
      omega

private theorem flatten_sublist {L L' : List (List Nat)} (h : L.Sublist L') :
    L.flatten.Sublist L'.flatten := by
  induction h with
  | slnil => exact .slnil
  | cons a _ ih => exact ih.trans (List.sublist_append_right a _)
  | cons₂ a _ ih => exact ih.append_left a

/-- The invariant's facts about histories depend only on the list of histories, so they pass
    to entries whose histories form a sublist of `r`'s under the same clock. -/
private theorem Invariant.of_histories_sublist (h : r.Invariant)
    (hsub : List.Sublist (r'.node_store_.entries.map (·.2.history_))
      (r.node_store_.entries.map (·.2.history_)))
    (hclock : r'.current_timestamp_ = r.current_timestamp_)
    (hsize : r'.evictable_size_ = r'.node_store_.entries.countP (·.2.is_evictable_)) :
    r'.Invariant := by
  have hold : ∀ e ∈ r'.node_store_.entries, ∃ e₀ ∈ r.node_store_.entries,
      e₀.2.history_ = e.2.history_ := fun e he => by
    simpa using hsub.subset (List.mem_map_of_mem _ he)
  refine ⟨hsize, fun e he => ?_, fun e he => ?_, ?_, fun e he => ?_, ?_, hclock ▸ h.clock_lt⟩
  · obtain ⟨e₀, he₀, heq⟩ := hold e he
    exact heq ▸ h.history_ne_nil e₀ he₀
  · obtain ⟨e₀, he₀, heq⟩ := hold e he
    exact heq ▸ h.history_decreasing e₀ he₀
  · have := h.timestamps_distinct
    rw [List.flatMap_def] at this ⊢
    exact this.sublist (flatten_sublist hsub)
  · obtain ⟨e₀, he₀, heq⟩ := hold e he
    rw [hclock, ← heq]
    exact h.timestamps_le e₀ he₀
  · have := h.tracked_le
    have := hsub.length_le
    simp only [List.length_map] at this
    omega

/-- Histories of a split list of entries with the middle one dropped. -/
private theorem histories_drop (l₁ l₂ : List (Int × LRUKNode)) (e : Int × LRUKNode) :
    List.Sublist ((l₁ ++ l₂).map (·.2.history_)) ((l₁ ++ e :: l₂).map (·.2.history_)) := by
  simp only [List.map_append, List.map_cons]
  exact (List.sublist_cons_self _ _).append_left _

/-- A change to the nodes that keeps their histories keeps the list of histories. -/
private theorem histories_modify (m : UnorderedMap Int LRUKNode) (k : Int)
    {f : LRUKNode → LRUKNode} (hf : ∀ n, (f n).history_ = n.history_) :
    (m.modify k f).entries.map (·.2.history_) = m.entries.map (·.2.history_) := by
  simp only [UnorderedMap.modify, List.map_map]
  exact List.map_congr_left fun e _ => by by_cases hk : e.1 = k <;> simp [hk, hf]

/-- `SetEvictable` keeps the invariant: the flag and the count move together. -/
theorem Invariant.SetEvictable (h : r.Invariant) {set_evictable : Bool}
    (hok : r.SetEvictable frame_id set_evictable = .ok r') :
    r'.Invariant ∧ r'.current_timestamp_ = r.current_timestamp_ := by
  obtain ⟨n, -, hclock, hcase⟩ := SetEvictable_ok hok
  have hlen : r.node_store_.entries.length < 2 ^ 64 := by
    have := h.tracked_le; have := h.clock_lt; omega
  have hhist : r'.node_store_.entries.map (·.2.history_) =
      r.node_store_.entries.map (·.2.history_) := by
    rcases hcase with ⟨-, -, hstore, -⟩ | ⟨-, -, hstore, -⟩ | ⟨-, rfl⟩
    · rw [hstore, histories_modify _ _ (LRUKNode.SetEvictable_history · false)]
    · rw [hstore, histories_modify _ _ (LRUKNode.SetEvictable_history · true)]
    · rfl
  exact ⟨h.of_histories_sublist (hhist ▸ List.Sublist.refl _) hclock
    (SetEvictable_size_eq hok h.size_eq hlen), hclock⟩

/-- Dropping an evictable tracked frame and decrementing the count keeps the invariant. -/
private theorem Invariant.erase_evictable (h : r.Invariant) {n : LRUKNode}
    (hfind : r.node_store_.find? frame_id = some n) (hev : n.is_evictable_ = true) :
    ({ r with
      node_store_ := r.node_store_.erase frame_id
      evictable_size_ := decMod 64 r.evictable_size_ } : LRUKReplacer).Invariant := by
  obtain ⟨l₁, l₂, hsplit, hk₁, hk₂⟩ := UnorderedMap.split_of_find? hfind
  have hlen : r.node_store_.entries.length < 2 ^ 64 := by
    have := h.tracked_le; have := h.clock_lt; omega
  refine h.of_histories_sublist ?_ rfl (erase_size_eq hfind hev h.size_eq hlen)
  rw [UnorderedMap.erase_entries_of_split hsplit hk₁ hk₂, hsplit]
  exact histories_drop l₁ l₂ _

theorem Invariant.Remove (h : r.Invariant) (hok : r.Remove frame_id = .ok r') :
    r'.Invariant ∧ r'.current_timestamp_ = r.current_timestamp_ := by
  rcases Remove_ok hok with ⟨-, rfl⟩ | ⟨n, hfind, hev, rfl⟩
  · exact ⟨h, rfl⟩
  · exact ⟨h.erase_evictable hfind hev, rfl⟩

theorem Invariant.Evict (h : r.Invariant) (early_timestamp : Nat) :
    (r.Evict early_timestamp).2.Invariant ∧
      (r.Evict early_timestamp).2.current_timestamp_ = r.current_timestamp_ := by
  rcases Evict_victim r early_timestamp with ⟨-, heq⟩ | ⟨fid, n, -, hmem, hev, heq⟩ <;>
    rw [heq]
  · exact ⟨h, rfl⟩
  · exact ⟨h.erase_evictable (UnorderedMap.find?_eq_some_iff.2 hmem) hev, rfl⟩

/-- Whether a call is `RecordAccess`, the one call that ticks the clock. -/
def Op.isRecordAccess : Op → Bool
  | .RecordAccess _ => true
  | _ => false

/-- One call whose assertions hold keeps the invariant, the clock ticking once per
    `RecordAccess`. -/
theorem Invariant.step (h : r.Invariant) {op : Op}
    (hts : op.isRecordAccess → r.current_timestamp_ + 1 < 2 ^ 64) (hok : r.step op = .ok r') :
    r'.Invariant ∧
      r'.current_timestamp_ = r.current_timestamp_ + if op.isRecordAccess then 1 else 0 := by
  cases op with
  | RecordAccess frame_id => exact h.RecordAccess (hts rfl) hok
  | SetEvictable frame_id set_evictable => exact h.SetEvictable hok
  | Remove frame_id => exact h.Remove hok
  | Evict early_timestamp =>
    cases hok
    exact h.Evict early_timestamp

/-- A run of calls whose assertions hold, with the clock never wrapping, keeps the
    invariant. -/
theorem Invariant.run (h : r.Invariant) (ops : List Op)
    (hcalls : r.current_timestamp_ + ops.countP Op.isRecordAccess < 2 ^ 64)
    (hrun : r.run ops = .ok r') : r'.Invariant := by
  induction ops generalizing r with
  | nil => cases hrun; exact h
  | cons op ops ih =>
    simp only [LRUKReplacer.run] at hrun
    split at hrun
    · rename_i r₁ hstep
      have hcount : (op :: ops).countP Op.isRecordAccess =
          ops.countP Op.isRecordAccess + if op.isRecordAccess then 1 else 0 := by
        cases hop : op.isRecordAccess <;> simp [List.countP_cons, hop]
      obtain ⟨h₁, hclock⟩ := h.step (fun hop => by simp only [hop, if_true] at hcount; omega) hstep
      exact ih h₁ (by omega) hrun
    · cases hrun

/-- On a replacer keeping its invariant, the frame `Evict` returns was tracked and evictable:
    `Evict` untracks it, lowers `Size` by one, and leaves every other frame's node as it was.
    A pinned frame is never evicted. -/
theorem Invariant.Evict_some (h : r.Invariant) {early_timestamp : Nat} {fid : Int}
    (hev : (r.Evict early_timestamp).1 = some fid) :
    r.flag fid = some true ∧ (r.Evict early_timestamp).2.flag fid = none ∧
      (r.Evict early_timestamp).2.Size + 1 = r.Size ∧
      ∀ g ≠ fid, (r.Evict early_timestamp).2.node_store_.find? g = r.node_store_.find? g := by
  rcases Evict_victim r early_timestamp with ⟨hnone, -⟩ | ⟨fid', n, hsome, hmem, hn, heq⟩
  · rw [hnone] at hev
    cases hev
  · rw [hsome] at hev
    cases hev
    have hfind := UnorderedMap.find?_eq_some_iff.2 hmem
    have hcount := UnorderedMap.countP_erase_of_find?_eq_some
      (P := fun e : Int × LRUKNode => e.2.is_evictable_) hfind
    -- the counts, read off the two invariants rather than off `decMod`
    have hsize : (r.Evict early_timestamp).2.Size + 1 = r.Size := by
      rw [show (r.Evict early_timestamp).2.Size = _ from (h.Evict early_timestamp).1.size_eq,
        show r.Size = _ from h.size_eq, heq, ← hcount]
      simp [hn]
    rw [heq] at hsize ⊢
    exact ⟨by simp [flag, hfind, hn], by simp [flag], hsize, fun g hg => by simp [hg]⟩

/-- With `k = 2`, frame `1` seen once and frame `0` twice, both evictable: `Evict` takes
    frame `1`. -/
theorem Evict_some_of_two_frames :
    ∃ r, (new 2 2).run [.RecordAccess 0, .RecordAccess 1, .RecordAccess 0,
        .SetEvictable 0 true, .SetEvictable 1 true] = .ok r ∧ (r.Evict 0).1 = some 1 ∧
      (r.flag 1 = some true ∧ (r.Evict 0).2.flag 1 = none ∧ (r.Evict 0).2.Size + 1 = r.Size ∧
        ∀ g ≠ 1, (r.Evict 0).2.node_store_.find? g = r.node_store_.find? g) :=
  ⟨_, rfl, rfl, Invariant.Evict_some ((Invariant.new 2 2).run [.RecordAccess 0, .RecordAccess 1,
    .RecordAccess 0, .SetEvictable 0 true, .SetEvictable 1 true] (by decide) rfl) rfl⟩

end Steps

/-- Every state a new replacer reaches by calls whose assertions hold, with fewer than
    `2 ^ 64` calls of `RecordAccess`, satisfies the invariant. -/
theorem run_invariant (num_frames k : Nat) (ops : List Op)
    (hcalls : ops.countP Op.isRecordAccess < 2 ^ 64) {r : LRUKReplacer}
    (hrun : (new num_frames k).run ops = .ok r) : r.Invariant :=
  (Invariant.new num_frames k).run ops (by simpa [new] using hcalls) hrun

theorem run_invariant_access_evict :
    ∃ r, (new 2 2).run [.RecordAccess 0, .RecordAccess 1, .RecordAccess 0,
      .SetEvictable 0 true, .SetEvictable 1 true, .Evict 0] = .ok r ∧ r.Invariant :=
  ⟨_, rfl, run_invariant 2 2 [.RecordAccess 0, .RecordAccess 1, .RecordAccess 0,
    .SetEvictable 0 true, .SetEvictable 1 true, .Evict 0] (by decide) rfl⟩

/-- `2 ^ 64` calls of `RecordAccess` on one frame wrap the clock: the newest timestamp `0`
    heads that frame's history, in front of `2 ^ 64 - 1`. -/
theorem run_clock_wraps :
    ∃ r, (new 1 1).run (List.replicate (2 ^ 64) (.RecordAccess 0)) = .ok r ∧
      ∃ e ∈ r.node_store_.entries, ¬e.2.history_.Pairwise (· > ·) := by
  let r₁ : LRUKReplacer := ⟨⟨[(0, ⟨[1], 0, 1, false⟩)], by decide⟩, 1, 0, 1, 1⟩
  have h₁ : (new 1 1).run (List.replicate 1 (.RecordAccess 0)) = .ok r₁ := rfl
  have hrun := run_replicate_RecordAccess
    (show (0 : Int) ≥ 0 ∧ (0 : Int).toNat < r₁.replacer_size_ by decide)
    (show r₁.node_store_.find? 0 = some ⟨[1], 0, 1, false⟩ from rfl) (by decide) (2 ^ 64 - 1)
  rw [show 2 ^ 64 = 1 + (2 ^ 64 - 1) from rfl, List.replicate_add, run_append_of_ok h₁]
  refine ⟨_, hrun, (0, ⟨stamps 1 (2 ^ 64 - 1) ++ [1], 0, 1, false⟩),
    List.mem_map.2 ⟨_, List.mem_singleton_self _, rfl⟩, ?_⟩
  rw [show 2 ^ 64 - 1 = 2 ^ 64 - 3 + 1 + 1 from rfl, stamps, stamps, List.cons_append,
    List.pairwise_cons]
  intro h
  have := h.1 _ (List.mem_cons_self _ _)
  omega

/-- Two runs where `Evict` does not pick the frame of largest backward k-distance. With
    `k = 2`, after `2 ^ 31 - 3` accesses to a pinned frame, the evictable frame `0` (two
    accesses) has the finite distance `2 ^ 31`, above `INF`, so it is evicted in place of
    frame `1` (one access). With `k = 1` and `early_timestamp` holding `0`, the only frame is
    evictable and `Evict` returns `false`. -/
theorem Evict_diverges :
    (∃ r, (new 3 2).run ([.RecordAccess 0, .RecordAccess 0, .RecordAccess 1, .RecordAccess 2,
        .SetEvictable 0 true, .SetEvictable 1 true] ++
          List.replicate (2 ^ 31 - 3) (.RecordAccess 2)) = .ok r ∧
      (r.node_store_.find? 0).map (fun n => (n.is_evictable_, n.GetKDistance r.current_timestamp_)) =
        some (true, 2 ^ 31) ∧
      (r.node_store_.find? 1).map (fun n => (n.is_evictable_, n.GetKDistance r.current_timestamp_)) =
        some (true, INF) ∧
      ∀ early_timestamp, (r.Evict early_timestamp).1 = some 0) ∧
    ((new 1 1).run [.RecordAccess 0, .SetEvictable 0 true]).toOption.map
      (fun r => ((r.Evict 0).1, r.Size)) = some (none, 1) := by
  refine ⟨?_, by decide⟩
  have h₁ : (new 3 2).run [.RecordAccess 0, .RecordAccess 0, .RecordAccess 1, .RecordAccess 2,
      .SetEvictable 0 true, .SetEvictable 1 true] = .ok ⟨⟨[(0, ⟨[2, 1], 0, 2, true⟩),
        (1, ⟨[3], 1, 2, true⟩), (2, ⟨[4], 2, 2, false⟩)], by decide⟩, 4, 2, 3, 2⟩ := rfl
  rw [run_append_of_ok h₁, run_replicate_RecordAccess (n := ⟨[4], 2, 2, false⟩) ?hrange ?hf ?hc]
  · exact ⟨_, rfl, by decide, by decide, fun early_timestamp =>
      (Evict_fst_eq_of_head rfl rfl (by decide) early_timestamp 0).trans (by decide)⟩
  all_goals decide

end LRUKReplacer

end bustub
