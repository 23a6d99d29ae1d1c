import MiniBusTub.Buffer.LRUKReplacerInvariant
import Mathlib.Order.WithBot

namespace bustub

namespace LRUKNode

/-- The backward k-distance LRU-K orders frames by: infinite while the frame has fewer than
    `k` recorded accesses, else the ticks from its `k`-th most recent access to the clock. -/
def kDistance (n : LRUKNode) (current_timestamp : Nat) : WithTop Nat :=
  match n.history_[n.k_ - 1]? with
  | some t => WithTop.some (current_timestamp - t)
  | none => ⊤

variable {n : LRUKNode} {c : Nat}

/-- On a history of timestamps up to the clock, `GetKDistance` is the k-distance with `INF`
    standing for infinity. -/
theorem GetKDistance_eq_untop' (hne : n.history_ ≠ []) (hle : ∀ t ∈ n.history_, t ≤ c)
    (hc : c < 2 ^ 64) : n.GetKDistance c = (n.kDistance c).untop' INF := by
  have hlen := List.length_pos.2 hne
  unfold GetKDistance kDistance
  split_ifs with hk
  · rw [List.getElem?_eq_none_iff.2 (by omega), WithTop.untop'_top]
  · have hi : n.k_ - 1 < n.history_.length := by omega
    rw [List.getD_eq_getElem?_getD, List.getElem?_eq_getElem hi, Option.getD_some,
      subMod_of_le (hle _ (List.getElem_mem hi)) hc]
    rfl

/-- Below `INF` on the clock, every finite k-distance is below `INF`. -/
theorem kDistance_lt_INF (hc : c < INF) :
    ∀ x : Nat, n.kDistance c = WithTop.some x → x < INF := by
  intro x hx
  unfold kDistance at hx
  split at hx
  · have := WithTop.coe_inj.1 hx
    omega
  · cases hx

end LRUKNode

namespace LRUKReplacer

/-- A frame of k-distance `d` and earliest timestamp `t` is no better a victim than one of
    `mx` and `early`: its distance is smaller, or the same and its timestamp no earlier. -/
def NoBetter {α : Type} [LT α] (d : α) (t : Nat) (mx : α) (early : Nat) : Prop :=
  d < mx ∨ (d = mx ∧ early ≤ t)

section Order

variable {α : Type} [Preorder α]

theorem NoBetter.refl (d : α) (t : Nat) : NoBetter d t d t := .inr ⟨rfl, le_refl t⟩

theorem NoBetter.trans {d mx mx' : α} {t early early' : Nat} (h₁ : NoBetter d t mx early)
    (h₂ : NoBetter mx early mx' early') : NoBetter d t mx' early' := by
  rcases h₁ with h₁ | ⟨rfl, h₁⟩ <;> rcases h₂ with h₂ | ⟨rfl, h₂⟩
  · exact .inl (h₁.trans h₂)
  · exact .inl h₁
  · exact .inl h₂
  · exact .inr ⟨rfl, h₂.trans h₁⟩

end Order

/-- Reading infinity as `INF`, where every finite value lies below `INF`, keeps the victim
    order: the order `Evict` compares by is the order on k-distances. -/
theorem NoBetter_untop'_iff {a b : WithTop Nat}
    (ha : ∀ x : Nat, a = WithTop.some x → x < INF)
    (hb : ∀ x : Nat, b = WithTop.some x → x < INF) (t early : Nat) :
    NoBetter (a.untop' INF) t (b.untop' INF) early ↔ NoBetter a t b early := by
  induction a using WithTop.recTopCoe <;> induction b using WithTop.recTopCoe
  · simp [NoBetter]
  · rename_i y
    have := hb y rfl
    simp only [NoBetter, WithTop.untop'_top, WithTop.untop'_coe, not_top_lt, WithTop.top_ne_coe,
      false_and, or_false, iff_false]
    omega
  · rename_i x
    rw [NoBetter, NoBetter, WithTop.untop'_coe, WithTop.untop'_top]
    exact iff_of_true (.inl (ha x rfl)) (.inl (WithTop.coe_lt_top x))
  · rw [NoBetter, NoBetter, WithTop.untop'_coe, WithTop.untop'_coe, WithTop.coe_lt_coe,
      WithTop.coe_inj]

section Scan

variable (c : Nat)

/-- What `Evict.scan` over `l` from `(mx, early, id)` returns in `res`: its start, or an
    evictable entry of `l` with that entry's k-distance and earliest timestamp; never a worse
    victim than its start; and no evictable entry of `l` a better one. -/
structure Evict.Settles (l : List (Int × LRUKNode)) (mx early : Nat) (id : Int)
    (res : Nat × Nat × Int) : Prop where
  start_or_entry : res = (mx, early, id) ∨ ∃ n, (res.2.2, n) ∈ l ∧ n.is_evictable_ = true ∧
    n.GetKDistance c = res.1 ∧ n.GetEarlyTimestamp = res.2.1
  start_no_better : NoBetter mx early res.1 res.2.1
  entries_no_better : ∀ e ∈ l, e.2.is_evictable_ = true →
    NoBetter (e.2.GetKDistance c) e.2.GetEarlyTimestamp res.1 res.2.1

variable {c}

/-- One iteration of the loop: a move at the entry `(fid, node)` that keeps the carried frame
    or takes the entry, never worsens it, and leaves the entry no better, extends what the
    rest of the loop settles to the whole list. -/
theorem Evict.Settles.cons {fid : Int} {node : LRUKNode} {rest : List (Int × LRUKNode)}
    {mx early mx₁ early₁ : Nat} {id id₁ : Int} {res : Nat × Nat × Int}
    (hmove : (mx₁, early₁, id₁) = (mx, early, id) ∨ (node.is_evictable_ = true ∧
      (mx₁, early₁, id₁) = (node.GetKDistance c, node.GetEarlyTimestamp, fid)))
    (hle : NoBetter mx early mx₁ early₁)
    (hnode : node.is_evictable_ = true →
      NoBetter (node.GetKDistance c) node.GetEarlyTimestamp mx₁ early₁)
    (hrest : Evict.Settles c rest mx₁ early₁ id₁ res) :
    Evict.Settles c ((fid, node) :: rest) mx early id res := by
  refine ⟨?_, hle.trans hrest.start_no_better, ?_⟩
  · rcases hrest.start_or_entry with h | ⟨n, hn, hev, hd, ht⟩
    · rcases hmove with hm | ⟨hev, hm⟩
      · exact .inl (h.trans hm)
      · rw [h, hm]
        exact .inr ⟨node, List.mem_cons_self _ _, hev, rfl, rfl⟩
    · exact .inr ⟨n, List.mem_cons_of_mem _ hn, hev, hd, ht⟩
  · intro e he hev
    rcases List.mem_cons.1 he with rfl | he
    · exact (hnode hev).trans hrest.start_no_better
    · exact hrest.entries_no_better e he hev

/-- The loop of `Evict` settles on the best evictable frame it meets, or on its start. -/
theorem Evict.scan_settles (l : List (Int × LRUKNode)) (mx early : Nat) (id : Int) :
    Evict.Settles c l mx early id (Evict.scan c l mx early id) := by
  induction l generalizing mx early id with
  | nil => exact ⟨.inl rfl, .refl mx early, fun _ h => nomatch h⟩
  | cons e rest ih =>
    obtain ⟨fid, node⟩ := e
    simp only [Evict.scan, LRUKNode.GetEvictable, Bool.not_eq_true']
    split_ifs with hev hgt heq hearly
    · -- a frame that is not evictable is passed over
      exact .cons (.inl rfl) (.refl mx early) (fun h => by simp [h] at hev) (ih ..)
    · -- a larger k-distance takes over
      exact .cons (.inr ⟨by simpa using hev, rfl⟩) (.inl hgt) (fun _ => .refl ..) (ih ..)
    · -- the same distance with an earlier timestamp takes over
      exact .cons (.inr ⟨by simpa using hev, by rw [heq]⟩) (.inr ⟨rfl, le_of_lt hearly⟩)
        (fun _ => .inr ⟨heq, le_refl _⟩) (ih ..)
    · -- the same distance with no earlier timestamp is passed over
      exact .cons (.inl rfl) (.refl mx early) (fun _ => .inr ⟨heq, not_lt.1 hearly⟩) (ih ..)
    · -- a smaller distance is passed over
      exact .cons (.inl rfl) (.refl mx early) (fun _ => .inl (by omega)) (ih ..)

/-- `Evict` on frame ids other than `-1`, with the uninitialised `early_timestamp` above the
    earliest timestamp of every evictable frame: it finds a frame exactly when one is evictable,
    and no evictable frame is a better victim, by the code's distances, than the one found. -/
theorem Evict_settles (r : LRUKReplacer) {early_timestamp : Nat}
    (hids : ∀ e ∈ r.node_store_.entries, e.1 ≠ -1)
    (hearly : ∀ e ∈ r.node_store_.entries, e.2.is_evictable_ = true →
      e.2.GetEarlyTimestamp < early_timestamp) :
    ((r.Evict early_timestamp).1 = none ↔
        ∀ e ∈ r.node_store_.entries, e.2.is_evictable_ = false) ∧
      ∀ fid, (r.Evict early_timestamp).1 = some fid → ∃ n, (fid, n) ∈ r.node_store_.entries ∧
        n.is_evictable_ = true ∧ ∀ e ∈ r.node_store_.entries, e.2.is_evictable_ = true →
          NoBetter (e.2.GetKDistance r.current_timestamp_) e.2.GetEarlyTimestamp
            (n.GetKDistance r.current_timestamp_) n.GetEarlyTimestamp := by
  have hsettles : Evict.Settles r.current_timestamp_ _ 0 early_timestamp (-1) _ :=
    Evict.scan_settles r.node_store_.entries 0 early_timestamp (-1)
  simp only [Evict]
  generalize Evict.scan _ _ _ _ _ = res at hsettles
  obtain ⟨mx, early, id⟩ := res
  obtain ⟨hres, -, hbest⟩ := hsettles
  -- every evictable frame beats the start `(0, early_timestamp)`
  have hbeat : ∀ e ∈ r.node_store_.entries, e.2.is_evictable_ = true →
      ¬NoBetter (e.2.GetKDistance r.current_timestamp_) e.2.GetEarlyTimestamp 0 early_timestamp :=
    fun e he hev hno => by have := hearly e he hev; unfold NoBetter at hno; omega
  dsimp only
  split_ifs with hid
  · subst hid
    have hstart : (mx, early) = (0, early_timestamp) := by
      rcases hres with h | ⟨n, hn, -⟩
      · cases h; rfl
      · exact absurd rfl (hids _ hn)
    cases hstart
    refine ⟨iff_of_true rfl fun e he => ?_, fun _ h => nomatch h⟩
    by_contra hev
    exact hbeat e he (by simpa using hev) (hbest e he (by simpa using hev))
  · rcases hres with h | ⟨n, hn, hev, hd, ht⟩
    · cases h
      exact absurd rfl hid
    refine ⟨iff_of_false (fun h => nomatch h) fun hall => by simpa [hev] using hall _ hn, ?_⟩
    rintro fid ⟨⟩
    exact ⟨n, hn, hev, fun e he hev' => hd ▸ ht ▸ hbest e he hev'⟩

end Scan

/-- `fid` is a frame LRU-K may evict from `entries` at clock `c`: an evictable frame such that
    no evictable frame has a larger backward k-distance, or the same one and an earlier first
    recorded access. -/
def IsVictim (c : Nat) (entries : List (Int × LRUKNode)) (fid : Int) : Prop :=
  ∃ n, (fid, n) ∈ entries ∧ n.is_evictable_ = true ∧ ∀ e ∈ entries, e.2.is_evictable_ = true →
    NoBetter (e.2.kDistance c) e.2.GetEarlyTimestamp (n.kDistance c) n.GetEarlyTimestamp

/-- Every tracked frame id passed the `frame_id >= 0` half of `RecordAccess`'s assertion. -/
def IdsNonneg (r : LRUKReplacer) : Prop :=
  ∀ frame_id, (r.node_store_.find? frame_id).isSome → 0 ≤ frame_id

section Steps

variable {r r' : LRUKReplacer}

private theorem isSome_find?_modify (m : UnorderedMap Int LRUKNode) (k g : Int)
    (f : LRUKNode → LRUKNode) : ((m.modify k f).find? g).isSome = (m.find? g).isSome := by
  rw [UnorderedMap.find?_modify]
  split_ifs with hg
  · rw [hg, Option.isSome_map']
  · rfl

private theorem isSome_find?_erase {m : UnorderedMap Int LRUKNode} {k g : Int}
    (h : ((m.erase k).find? g).isSome) : (m.find? g).isSome := by
  rw [UnorderedMap.find?_erase] at h
  split_ifs at h
  · cases h
  · exact h

/-- No call tracks a frame id below zero: `RecordAccess` asserts it, and the other calls only
    drop or rewrite nodes. -/
theorem IdsNonneg.step (h : r.IdsNonneg) {op : Op} (hok : r.step op = .ok r') : r'.IdsNonneg := by
  intro g hg
  cases op with
  | RecordAccess frame_id =>
    obtain ⟨⟨hpos, -⟩, -, -, ⟨-, hstore⟩ | ⟨-, -, hstore⟩⟩ := RecordAccess_ok hok <;>
      rw [hstore] at hg
    · rw [UnorderedMap.find?_insert] at hg
      split_ifs at hg with hk
      · exact hk ▸ hpos
      · exact h g hg
    · exact h g (isSome_find?_modify _ _ _ _ ▸ hg)
  | SetEvictable frame_id set_evictable =>
    obtain ⟨n, -, -, ⟨-, -, hstore, -⟩ | ⟨-, -, hstore, -⟩ | ⟨-, rfl⟩⟩ := SetEvictable_ok hok
    · exact h g (isSome_find?_modify _ _ _ _ ▸ hstore ▸ hg)
    · exact h g (isSome_find?_modify _ _ _ _ ▸ hstore ▸ hg)
    · exact h g hg
  | Remove frame_id =>
    rcases Remove_ok hok with ⟨-, rfl⟩ | ⟨n, -, -, rfl⟩
    · exact h g hg
    · exact h g (isSome_find?_erase hg)
  | Evict early_timestamp =>
    cases hok
    rcases Evict_victim r early_timestamp with ⟨-, heq⟩ | ⟨fid, n, -, -, -, heq⟩ <;>
      rw [heq] at hg
    · exact h g hg
    · exact h g (isSome_find?_erase hg)

/-- A run whose assertions hold, with the clock never wrapping, keeps the invariant and the
    ids non-negative, and its clock counts the calls of `RecordAccess`. -/
theorem Invariant.run_clock (h : r.Invariant) (hids : r.IdsNonneg) (ops : List Op)
    (hcalls : r.current_timestamp_ + ops.countP Op.isRecordAccess < 2 ^ 64)
    (hrun : r.run ops = .ok r') :
    r'.Invariant ∧ r'.IdsNonneg ∧
      r'.current_timestamp_ = r.current_timestamp_ + ops.countP Op.isRecordAccess := by
  induction ops generalizing r with
  | nil => cases hrun; exact ⟨h, hids, rfl⟩
  | cons op ops ih =>
    simp only [LRUKReplacer.run] at hrun
    split at hrun
    · rename_i r₁ hstep
      have hcount : (op :: ops).countP Op.isRecordAccess =
          ops.countP Op.isRecordAccess + if op.isRecordAccess then 1 else 0 := by
        cases hop : op.isRecordAccess <;> simp [List.countP_cons, hop]
      obtain ⟨h₁, hclock⟩ := h.step (fun hop => by simp only [hop, if_true] at hcount; omega) hstep
      obtain ⟨h', hids', hclock'⟩ := ih h₁ (hids.step hstep) (by omega) hrun
      exact ⟨h', hids', by omega⟩
    · cases hrun

/-- On a replacer keeping its invariant with non-negative ids, the clock below `INF` and the
    uninitialised `early_timestamp` above the clock, `Evict` finds a frame exactly when one is
    evictable, and the frame it finds is an LRU-K victim. -/
theorem Invariant.Evict_IsVictim (h : r.Invariant) (hids : r.IdsNonneg)
    (hc : r.current_timestamp_ < INF) {early_timestamp : Nat}
    (hearly : r.current_timestamp_ < early_timestamp) :
    ((r.Evict early_timestamp).1 = none ↔
        ∀ e ∈ r.node_store_.entries, e.2.is_evictable_ = false) ∧
      ∀ fid, (r.Evict early_timestamp).1 = some fid →
        IsVictim r.current_timestamp_ r.node_store_.entries fid := by
  have hne : ∀ e ∈ r.node_store_.entries, e.1 ≠ -1 := fun e he hk => by
    have := hids e.1 (by rw [UnorderedMap.find?_eq_some_iff.2 he]; rfl)
    omega
  have hdist : ∀ e ∈ r.node_store_.entries, e.2.GetKDistance r.current_timestamp_ =
      (e.2.kDistance r.current_timestamp_).untop' INF := fun e he =>
    LRUKNode.GetKDistance_eq_untop' (h.history_ne_nil e he) (h.timestamps_le e he) h.clock_lt
  have hfirst : ∀ e ∈ r.node_store_.entries, e.2.is_evictable_ = true →
      e.2.GetEarlyTimestamp < early_timestamp := fun e he _ => by
    obtain ⟨t, ht⟩ := List.getLast?_isSome.2 (h.history_ne_nil e he) |> Option.isSome_iff_exists.1
    have := h.timestamps_le e he t (List.mem_of_getLast?_eq_some ht)
    simp only [LRUKNode.GetEarlyTimestamp, ht, Option.getD_some]
    omega
  obtain ⟨hnone, hsome⟩ := Evict_settles r hne hfirst
  refine ⟨hnone, fun fid hfid => ?_⟩
  obtain ⟨n, hn, hev, hbest⟩ := hsome fid hfid
  refine ⟨n, hn, hev, fun e he hev' => ?_⟩
  have hno := hbest e he hev'
  rwa [hdist e he, hdist _ hn, NoBetter_untop'_iff (LRUKNode.kDistance_lt_INF hc)
    (LRUKNode.kDistance_lt_INF hc)] at hno

end Steps

/-- On every state a new replacer reaches by calls whose assertions hold, with fewer than `INF`
    calls of `RecordAccess` and the uninitialised `early_timestamp` above their number, `Evict`
    finds a frame exactly when one is evictable, and the frame it finds is an evictable frame
    of largest backward k-distance, ties going to the earliest first access. -/
theorem run_Evict_IsVictim (num_frames k : Nat) (ops : List Op)
    (hcalls : ops.countP Op.isRecordAccess < INF) {r : LRUKReplacer}
    (hrun : (new num_frames k).run ops = .ok r) {early_timestamp : Nat}
    (hearly : ops.countP Op.isRecordAccess < early_timestamp) :
    ((r.Evict early_timestamp).1 = none ↔
        ∀ e ∈ r.node_store_.entries, e.2.is_evictable_ = false) ∧
      ∀ fid, (r.Evict early_timestamp).1 = some fid →
        IsVictim r.current_timestamp_ r.node_store_.entries fid := by
  have hinf : INF < 2 ^ 64 := by decide
  obtain ⟨h, hids, hclock⟩ := (Invariant.new num_frames k).run_clock (fun _ h => nomatch h) ops
    (by simp only [new]; omega) hrun
  simp only [new, Nat.zero_add] at hclock
  exact h.Evict_IsVictim hids (hclock ▸ hcalls) (hclock ▸ hearly)

/-- After frame `0` is seen twice and frame `1` once with `k = 2`, both evictable, `Evict`
    finds frame `1`, of infinite k-distance. -/
theorem run_Evict_IsVictim_two_frames :
    ∃ r, (new 2 2).run [.RecordAccess 0, .RecordAccess 1, .RecordAccess 0,
        .SetEvictable 0 true, .SetEvictable 1 true] = .ok r ∧ (r.Evict 4).1 = some 1 ∧
      (((r.Evict 4).1 = none ↔ ∀ e ∈ r.node_store_.entries, e.2.is_evictable_ = false) ∧
        ∀ fid, (r.Evict 4).1 = some fid →
          IsVictim r.current_timestamp_ r.node_store_.entries fid) :=
  ⟨_, rfl, rfl, run_Evict_IsVictim 2 2 [.RecordAccess 0, .RecordAccess 1, .RecordAccess 0,
    .SetEvictable 0 true, .SetEvictable 1 true] (by decide) rfl (by decide)⟩

end LRUKReplacer

end bustub
