import MiniBusTub.Buffer.BufferPoolInvariant

namespace bustub

namespace BufferPoolManager

variable {bpm bpm' : BufferPoolManager}

section Counter

theorem FlushPage_next_page_id {page_id : Int} {b : Bool}
    (h : bpm.FlushPage page_id = .ok (b, bpm')) : bpm'.next_page_id_ = bpm.next_page_id_ := by
  unfold FlushPage at h
  split_ifs at h
  split at h <;> cases h <;> rfl

theorem AcquireFrame_next_page_id {early_timestamp : Nat} {res : Option Int}
    (h : bpm.AcquireFrame early_timestamp = .ok (res, bpm')) :
    bpm'.next_page_id_ = bpm.next_page_id_ := by
  unfold AcquireFrame at h
  split at h
  · cases h; rfl
  · split at h
    · cases h; rfl
    · dsimp only at h
      split at h
      · obtain ⟨bpm₀, h₀, h⟩ := except_bind_eq_ok.1 h
        obtain ⟨⟨b, bpm₁⟩, hf, rfl⟩ := except_map_eq_ok.1 h₀
        cases h
        exact (FlushPage_next_page_id hf :)
      · cases h; rfl

/-- `NewPage` hands out the counter's value and advances the 32-bit counter when it finds a
    frame, and leaves the counter as it was when it finds none. -/
theorem NewPage_next_page_id {early_timestamp : Nat} {res : Option (Int × Int)}
    (h : bpm.NewPage early_timestamp = .ok (res, bpm')) :
    match res with
    | some (page_id, _) =>
      page_id = bpm.next_page_id_ ∧ bpm'.next_page_id_ = toInt32 (bpm.next_page_id_ + 1)
    | none => bpm'.next_page_id_ = bpm.next_page_id_ := by
  obtain ⟨⟨frame?, bpm₁⟩, hacq, h⟩ := except_bind_eq_ok.1 h
  have hnext := AcquireFrame_next_page_id hacq
  cases frame? with
  | none => cases h; exact hnext
  | some f =>
    obtain ⟨r', -, h⟩ := except_bind_eq_ok.1 h
    cases h
    exact ⟨hnext, by simp [AllocatePage, hnext]⟩

theorem FetchPage_next_page_id {page_id : Int} {early_timestamp : Nat} {res : Option Int}
    (h : bpm.FetchPage page_id early_timestamp = .ok (res, bpm')) :
    bpm'.next_page_id_ = bpm.next_page_id_ := by
  unfold FetchPage at h
  split at h
  · obtain ⟨r', -, h⟩ := except_bind_eq_ok.1 h
    cases h
    rfl
  · obtain ⟨⟨frame?, bpm₁⟩, hacq, h⟩ := except_bind_eq_ok.1 h
    have hnext := AcquireFrame_next_page_id hacq
    cases frame? with
    | none => cases h; exact hnext
    | some f =>
      obtain ⟨r', -, h⟩ := except_bind_eq_ok.1 h
      cases h
      exact hnext

theorem UnpinPage_next_page_id {page_id : Int} {is_dirty b : Bool}
    (h : bpm.UnpinPage page_id is_dirty = .ok (b, bpm')) :
    bpm'.next_page_id_ = bpm.next_page_id_ := by
  unfold UnpinPage at h
  split at h
  · cases h; rfl
  · dsimp only at h
    split_ifs at h
    · cases h; rfl
    · obtain ⟨r', -, h⟩ := except_bind_eq_ok.1 h
      cases h
      rfl

theorem FlushAllPages_next_page_id (h : bpm.FlushAllPages = .ok bpm') :
    bpm'.next_page_id_ = bpm.next_page_id_ := by
  suffices ∀ (l : List (Int × Int)) (acc : BufferPoolManager),
      l.foldlM (fun bpm e => (·.2) <$> bpm.FlushPage e.1) acc = .ok bpm' →
        bpm'.next_page_id_ = acc.next_page_id_ from this _ _ h
  intro l
  induction l with
  | nil => intro acc h; cases h; rfl
  | cons e l ih =>
    intro acc h
    obtain ⟨acc₁, h₁, h⟩ := except_bind_eq_ok.1 h
    obtain ⟨⟨b, acc₂⟩, hf, rfl⟩ := except_map_eq_ok.1 h₁
    exact (ih _ h).trans (FlushPage_next_page_id hf)

theorem DeletePage_next_page_id {page_id : Int} {b : Bool}
    (h : bpm.DeletePage page_id = .ok (b, bpm')) : bpm'.next_page_id_ = bpm.next_page_id_ := by
  unfold DeletePage at h
  split at h
  · cases h; rfl
  · split_ifs at h
    · cases h; rfl
    all_goals
      obtain ⟨bpm₁, h₁, h⟩ := except_bind_eq_ok.1 h
      obtain ⟨r', -, h⟩ := except_bind_eq_ok.1 h
      cases h
    · obtain ⟨⟨b, bpm₂⟩, hf, rfl⟩ := except_map_eq_ok.1 h₁
      exact (FlushPage_next_page_id hf :)
    · cases h₁; rfl

/-- Every call but `NewPage` leaves the counter where it was. -/
theorem step_next_page_id {c : Call} {reply : Reply} (hc : ∀ e, c ≠ .NewPage e)
    (hstep : bpm.step c = .ok (reply, bpm')) : bpm'.next_page_id_ = bpm.next_page_id_ := by
  cases c with
  | NewPage early_timestamp => exact absurd rfl (hc early_timestamp)
  | FlushAllPages =>
    obtain ⟨bpm₁, h, hr⟩ := except_map_eq_ok.1 hstep
    cases hr
    exact FlushAllPages_next_page_id h
  | Write frame_id data => cases hstep; rfl
  | FetchPage | UnpinPage | FlushPage | DeletePage =>
    obtain ⟨⟨_, bpm₁⟩, h, hr⟩ := except_map_eq_ok.1 hstep
    cases hr
    first
      | exact FetchPage_next_page_id h
      | exact UnpinPage_next_page_id h
      | exact FlushPage_next_page_id h
      | exact DeletePage_next_page_id h

/-- No allowed call moves the counter back: `NewPage` below `INT32_MAX` advances it by one,
    and every other call leaves it where it was. -/
theorem step_next_page_id_le {c : Call} {reply : Reply} (hnext : 0 ≤ bpm.next_page_id_)
    (hc : c.Allowed bpm) (hstep : bpm.step c = .ok (reply, bpm')) :
    bpm.next_page_id_ ≤ bpm'.next_page_id_ := by
  by_cases hnew : ∃ e, c = .NewPage e
  · obtain ⟨early_timestamp, rfl⟩ := hnew
    obtain ⟨⟨res, bpm₁⟩, hnew, hr⟩ := except_map_eq_ok.1 hstep
    cases hr
    have h := NewPage_next_page_id hnew
    rcases res with _ | ⟨page_id, f⟩
    · exact h.ge
    · have hc : bpm.next_page_id_ < 2 ^ 31 - 1 := hc
      rw [h.2, toInt32_of_lt (by omega) (by omega)]
      omega
  · exact (step_next_page_id (fun e he => hnew ⟨e, he⟩) hstep).ge

end Counter

/-- The page ids that the `NewPage` calls of a run hand out, in order: a `NewPage` that finds
    no frame hands out none, as does every other call, and a failing call ends the run. -/
def newPageIds (bpm : BufferPoolManager) : List Call → List Int
  | [] => []
  | .NewPage early_timestamp :: cs =>
    match bpm.NewPage early_timestamp with
    | .ok (some (page_id, _), bpm') => page_id :: bpm'.newPageIds cs
    | .ok (none, bpm') => bpm'.newPageIds cs
    | .error _ => []
  | c :: cs =>
    match bpm.step c with
    | .ok (_, bpm') => bpm'.newPageIds cs
    | .error _ => []

/-- A call other than `NewPage` hands out no id. -/
theorem newPageIds_cons_of_ne {c : Call} (hc : ∀ e, c ≠ .NewPage e) (cs : List Call) :
    bpm.newPageIds (c :: cs) = match bpm.step c with
      | .ok (_, bpm') => bpm'.newPageIds cs
      | .error _ => [] := by
  cases c <;> first | exact absurd rfl (hc _) | rfl

/-- A run hands out the counter's successive values, wrapped to 32 bits, whatever the calls
    between its `NewPage` calls. -/
theorem newPageIds_eq (cs : List Call) (hbpm : toInt32 bpm.next_page_id_ = bpm.next_page_id_) :
    bpm.newPageIds cs = (List.range (bpm.newPageIds cs).length).map fun i : Nat =>
      toInt32 (bpm.next_page_id_ + i) := by
  induction cs generalizing bpm with
  | nil => rfl
  | cons c cs ih =>
    -- a call that leaves the counter alone hands out what the rest of the run does
    have hsame : ∀ {bpm' : BufferPoolManager}, bpm'.next_page_id_ = bpm.next_page_id_ →
        bpm'.newPageIds cs = (List.range (bpm'.newPageIds cs).length).map fun i : Nat =>
          toInt32 (bpm.next_page_id_ + i) := fun hnext => by
      rw [← hnext]
      exact ih (hnext ▸ hbpm)
    by_cases hnew : ∃ e, c = .NewPage e
    · obtain ⟨e, rfl⟩ := hnew
      unfold newPageIds
      split
      next page_id f bpm' hnew =>
        obtain ⟨hid, hnext⟩ := NewPage_next_page_id hnew
        have hbpm' : toInt32 bpm'.next_page_id_ = bpm'.next_page_id_ := by
          rw [hnext, toInt32_toInt32]
        rw [List.length_cons, List.range_succ_eq_map, List.map_cons, List.map_map]
        refine congrArg₂ _ (by simp [hid, hbpm]) ((ih hbpm').trans (List.map_congr_left ?_))
        intro i _
        simp only [Function.comp, hnext, toInt32_add_toInt32]
        congr 1
        omega
      next bpm' hnew => exact hsame (NewPage_next_page_id hnew)
      next => rfl
    · rw [newPageIds_cons_of_ne fun e he => hnew ⟨e, he⟩]
      split
      next reply bpm' hstep => exact hsame (step_next_page_id (fun e he => hnew ⟨e, he⟩) hstep)
      next => rfl

/-- From a new pool, the `i`-th id that the `NewPage` calls of a run hand out is `i` wrapped to
    32 bits; so while the run hands out at most `2^31` ids, they are pairwise distinct,
    non-negative and never `INVALID_PAGE_ID`. -/
theorem newPageIds_distinct (pool_size : Nat) (disk_manager : DiskManager) (replacer_k : Nat)
    (cs : List Call) :
    let ids := (new pool_size disk_manager replacer_k).newPageIds cs
    ids = (List.range ids.length).map (fun i : Nat => toInt32 i) ∧
      (ids.length ≤ 2 ^ 31 →
        ids.Nodup ∧ ∀ page_id ∈ ids, 0 ≤ page_id ∧ page_id ≠ INVALID_PAGE_ID) := by
  intro ids
  have hids : ids = (List.range ids.length).map (fun i : Nat => toInt32 i) := by
    have hnext : (new pool_size disk_manager replacer_k).next_page_id_ = 0 := rfl
    have h := @newPageIds_eq (new pool_size disk_manager replacer_k) cs
      (by rw [hnext]; unfold toInt32; omega)
    simpa only [hnext, zero_add] using h
  refine ⟨hids, fun hlen => ?_⟩
  have hnat : ids = (List.range ids.length).map (fun i : Nat => (i : Int)) :=
    hids.trans (List.map_congr_left fun i hi =>
      toInt32_of_lt (by omega) (by rw [List.mem_range] at hi; omega))
  rw [hnat]
  refine ⟨(List.nodup_range _).map fun _ _ => Int.ofNat_inj.1, ?_⟩
  simp only [List.mem_map, INVALID_PAGE_ID]
  rintro _ ⟨i, -, rfl⟩
  omega

theorem newPageIds_two_frames :
    ((new 2 DiskManager.new 2).newPageIds [.NewPage 0, .UnpinPage 0 false, .NewPage 0] =
        [0, 1]) ∧
      ((new 2 DiskManager.new 2).newPageIds [.NewPage 0, .UnpinPage 0 false, .NewPage 0]).Nodup ∧
      ∀ page_id ∈ (new 2 DiskManager.new 2).newPageIds [.NewPage 0, .UnpinPage 0 false, .NewPage 0],
        0 ≤ page_id ∧ page_id ≠ INVALID_PAGE_ID :=
  ⟨rfl, (newPageIds_distinct 2 DiskManager.new 2
    [.NewPage 0, .UnpinPage 0 false, .NewPage 0]).2 (by decide)⟩

section Wrap

/-- A client of a pool: `k` rounds of a `NewPage` and an `UnpinPage`, not dirty, of the id it
    hands out, the ids counted from `start`. -/
def allocationRounds (start : Nat) : Nat → List Call
  | 0 => []
  | k + 1 => .NewPage 0 :: .UnpinPage (toInt32 start) false :: allocationRounds (start + 1) k

/-- A pool of one frame between two rounds: page `p` sits clean in frame `0`, whose replacer
    node has one access and is evictable, and the counter holds `q`. -/
structure OneFrameRound (p q : Int) (bpm : BufferPoolManager) : Prop where
  free : bpm.free_list_ = []
  next : bpm.next_page_id_ = q
  table : bpm.page_table_.entries = [(p, 0)]
  page_id : (bpm.pages_ 0).page_id_ = p
  clean : (bpm.pages_ 0).is_dirty_ = false
  node : ∃ t, bpm.replacer_.node_store_.entries = [(0, ⟨[t], 0, 2, true⟩)]
  replacer_size : bpm.replacer_.replacer_size_ = 1
  k : bpm.replacer_.k_ = 2

/-- One round: `NewPage` evicts the clean page `p` and hands out `q`, and the `UnpinPage` of `q`
    leaves it evictable. The ids are kept abstract: the 32-bit wrap is not unfolded. -/
theorem OneFrameRound.round {p q : Int} (h : OneFrameRound p q bpm) :
    ∃ bpm₁ bpm₂, bpm.NewPage 0 = .ok (some (q, 0), bpm₁) ∧
      bpm₁.UnpinPage q false = .ok (true, bpm₂) ∧ OneFrameRound q (toInt32 (q + 1)) bpm₂ := by
  obtain ⟨hfree, hnext, htable, hid, hclean, ⟨t, hnode⟩, hsize, hk⟩ := h
  obtain ⟨pool, pages, dm, ⟨⟨nodes, hn⟩, clock, esize, rsize, k⟩, ⟨table, ht⟩, free, next⟩ := bpm
  simp only at hfree hnext htable hid hclean hnode hsize hk
  subst hfree hnext hsize hk hnode htable
  apply Exists.intro
  apply Exists.intro
  refine ⟨?e₁, ?e₂, ?e₃⟩
  case e₁ =>
    -- the replacer's one node is evictable with fewer than `k` accesses, so it is the victim
    simp [NewPage, AcquireFrame, LRUKReplacer.Evict, LRUKReplacer.Evict.scan,
      LRUKNode.GetEvictable, LRUKNode.GetKDistance, Page.IsDirty, hclean, INF, Touch,
      AllocatePage, LRUKReplacer.RecordAccess, LRUKReplacer.SetEvictable, UnorderedMap.find?,
      UnorderedMap.erase, UnorderedMap.insert, UnorderedMap.keys, Page.GetPageId, hid,
      LRUKNode.new, LRUKNode.SetEvictable]
    rfl
  case e₂ =>
    simp [UnpinPage, UnorderedMap.find?, Page.GetPinCount, updateAt_apply,
      LRUKReplacer.SetEvictable, UnorderedMap.modify, LRUKNode.GetEvictable, LRUKNode.SetEvictable]
    rfl
  case e₃ =>
    exact ⟨rfl, rfl, rfl, by simp [updateAt_apply], by simp [updateAt_apply], ⟨_, rfl⟩, rfl, rfl⟩

/-- A round whose `NewPage` hands out `q` and whose `UnpinPage` of `q` succeeds runs on to the
    calls after it, and hands out `q` before their ids. -/
theorem run_round {q f : Int} {bpm₁ bpm₂ : BufferPoolManager}
    (hnew : bpm.NewPage 0 = .ok (some (q, f), bpm₁))
    (hunpin : bpm₁.UnpinPage q false = .ok (true, bpm₂)) (cs : List Call) :
    bpm.run (.NewPage 0 :: .UnpinPage q false :: cs) = bpm₂.run cs ∧
      bpm.newPageIds (.NewPage 0 :: .UnpinPage q false :: cs) = q :: bpm₂.newPageIds cs := by
  constructor <;> simp only [run, step, newPageIds, hnew, hunpin, except_ok_map]

/-- `k` rounds from the one-frame pool after round `m` all succeed and hand out the ids of
    rounds `m + 1` to `m + k`, wrapped to 32 bits. -/
theorem OneFrameRound.rounds {m : Nat} (h : OneFrameRound (toInt32 m) (toInt32 (m + 1)) bpm)
    (k : Nat) :
    ∃ bpm', bpm.run (allocationRounds (m + 1) k) = .ok bpm' ∧
      OneFrameRound (toInt32 (m + k : Nat)) (toInt32 ((m + k : Nat) + 1)) bpm' ∧
      bpm.newPageIds (allocationRounds (m + 1) k) =
        (List.range k).map fun i : Nat => toInt32 (m + 1 + i : Nat) := by
  induction k generalizing m bpm with
  | zero => exact ⟨bpm, rfl, h, rfl⟩
  | succ k ih =>
    obtain ⟨bpm₁, bpm₂, hnew, hunpin, h₂⟩ := h.round
    -- the ids stay wrapped: `toInt32 (toInt32 m + 1)` is `toInt32 (m + 1)`
    have hcast : ((m + 1 : Nat) : Int) = (m : Int) + 1 := by omega
    rw [toInt32_add_toInt32, ← hcast] at h₂
    rw [← hcast] at hnew hunpin
    obtain ⟨hrun₁, hids₁⟩ := run_round hnew hunpin (allocationRounds (m + 1 + 1) k)
    obtain ⟨bpm', hrun, h', hids⟩ := ih h₂
    refine ⟨bpm', hrun₁.trans hrun, by rwa [show m + (k + 1) = m + 1 + k by omega], ?_⟩
    rw [allocationRounds, hids₁, hids, List.range_succ_eq_map, List.map_cons, List.map_map,
      Nat.add_zero]
    exact congrArg (List.cons _) (List.map_congr_left fun i _ => by
      rw [Function.comp_apply, show m + 1 + 1 + i = m + 1 + (i + 1) by omega])

end Wrap

/-- A one-frame pool whose client unpins each page before it asks for the next: all the calls
    succeed, the `NewPage` calls hand out `0, 1, 2, …`, and once `2 ^ 31` ids are out the 32-bit
    counter has wrapped, so the next `NewPage` hands out the negative id `-2 ^ 31`. -/
theorem NewPage_hands_out_negative_id :
    (∃ bpm, (new 1 DiskManager.new 2).run (allocationRounds 0 (2 ^ 31 + 1)) = .ok bpm) ∧
      -2 ^ 31 ∈ (new 1 DiskManager.new 2).newPageIds (allocationRounds 0 (2 ^ 31 + 1)) := by
  -- the first round takes the free frame
  obtain ⟨b₁, b₀, hnew, hunpin, h₀⟩ : ∃ b₁ b₀,
      (new 1 DiskManager.new 2).NewPage 0 = .ok (some (toInt32 ((0 : Nat) : Int), 0), b₁) ∧
      b₁.UnpinPage (toInt32 ((0 : Nat) : Int)) false = .ok (true, b₀) ∧
      OneFrameRound (toInt32 ((0 : Nat) : Int)) (toInt32 ((0 : Nat) + 1)) b₀ := by
    apply Exists.intro
    apply Exists.intro
    refine ⟨?e₁, ?e₂, ?e₃⟩
    case e₁ => rfl
    case e₂ => rfl
    case e₃ => exact ⟨rfl, rfl, rfl, rfl, rfl, ⟨_, rfl⟩, rfl, rfl⟩
  obtain ⟨hrun₀, hids₀⟩ := run_round hnew hunpin (allocationRounds (0 + 1) (2 ^ 31))
  obtain ⟨bpm, hrun, -, hids⟩ := h₀.rounds (2 ^ 31)
  rw [allocationRounds, hids₀, hids]
  exact ⟨⟨bpm, hrun₀.trans hrun⟩, List.mem_cons_of_mem _
    (List.mem_map.2 ⟨2 ^ 31 - 1, List.mem_range.2 (by omega), by decide⟩)⟩

end BufferPoolManager

end bustub
