import MiniBusTub.Buffer.Coherence
import MiniBusTub.Buffer.LRUKPolicy

namespace bustub

namespace BufferPoolManager

/-- The replacer goes from `r` to `r'` by calls whose assertions hold, at most `n` of them
    `RecordAccess`. -/
def ReplacerRun (r r' : LRUKReplacer) (n : Nat) : Prop :=
  ∃ ops : List LRUKReplacer.Op,
    ops.countP LRUKReplacer.Op.isRecordAccess ≤ n ∧ r.run ops = .ok r'

section ReplacerRun

variable {r r₁ r₂ r' : LRUKReplacer} {m n : Nat}

theorem ReplacerRun.refl (r : LRUKReplacer) : ReplacerRun r r 0 := ⟨[], le_refl 0, rfl⟩

theorem ReplacerRun.mono (h : ReplacerRun r r' m) (hmn : m ≤ n) : ReplacerRun r r' n :=
  let ⟨ops, hops, hrun⟩ := h
  ⟨ops, hops.trans hmn, hrun⟩

theorem ReplacerRun.trans (h₁ : ReplacerRun r r₁ m) (h₂ : ReplacerRun r₁ r' n) :
    ReplacerRun r r' (m + n) := by
  obtain ⟨ops₁, hops₁, hrun₁⟩ := h₁
  obtain ⟨ops₂, hops₂, hrun₂⟩ := h₂
  refine ⟨ops₁ ++ ops₂, ?_, by rw [LRUKReplacer.run_append_of_ok hrun₁]; exact hrun₂⟩
  rw [List.countP_append]
  omega

theorem ReplacerRun.Evict (r : LRUKReplacer) (early_timestamp : Nat) :
    ReplacerRun r (r.Evict early_timestamp).2 0 := ⟨[.Evict early_timestamp], le_refl 0, rfl⟩

theorem ReplacerRun.SetEvictable {frame_id : Int} {set_evictable : Bool}
    (h : r.SetEvictable frame_id set_evictable = .ok r') : ReplacerRun r r' 0 :=
  ⟨[.SetEvictable frame_id set_evictable], le_refl 0, by
    simp only [LRUKReplacer.run, LRUKReplacer.step, h]⟩

theorem ReplacerRun.Remove {frame_id : Int} (h : r.Remove frame_id = .ok r') :
    ReplacerRun r r' 0 :=
  ⟨[.Remove frame_id], le_refl 0, by simp only [LRUKReplacer.run, LRUKReplacer.step, h]⟩

/-- `Touch` is an access followed by `SetEvictable`. -/
theorem ReplacerRun.Touch {frame_id : Int} (h : Touch r frame_id = .ok r') :
    ReplacerRun r r' 1 := by
  obtain ⟨r₁, h₁, h₂⟩ := except_bind_eq_ok.1 h
  exact ⟨[.RecordAccess frame_id, .SetEvictable frame_id false], le_refl 1, by
    simp only [LRUKReplacer.run, LRUKReplacer.step, h₁, h₂]⟩

end ReplacerRun

section Calls

variable {bpm bpm' : BufferPoolManager}

theorem FlushPage_replacer {page_id : Int} {b : Bool}
    (h : bpm.FlushPage page_id = .ok (b, bpm')) : bpm'.replacer_ = bpm.replacer_ := by
  unfold FlushPage at h
  split_ifs at h
  split at h <;> cases h <;> rfl

theorem FlushAllPages_replacer (h : bpm.FlushAllPages = .ok bpm') :
    bpm'.replacer_ = bpm.replacer_ := by
  suffices ∀ (l : List (Int × Int)) (acc : BufferPoolManager),
      l.foldlM (fun bpm e => (·.2) <$> bpm.FlushPage e.1) acc = .ok bpm' →
        bpm'.replacer_ = acc.replacer_ from this _ _ h
  intro l
  induction l with
  | nil => intro acc h; cases h; rfl
  | cons e l ih =>
    intro acc h
    obtain ⟨acc₁, h₁, h⟩ := except_bind_eq_ok.1 h
    obtain ⟨⟨b, acc₂⟩, hf, rfl⟩ := except_map_eq_ok.1 h₁
    exact (ih _ h).trans (FlushPage_replacer hf)

/-- `AcquireFrame` leaves the replacer alone when the free list has a frame, and otherwise
    takes `Evict`'s answer and its replacer. -/
theorem AcquireFrame_replacer {early_timestamp : Nat} {res : Option Int}
    (h : bpm.AcquireFrame early_timestamp = .ok (res, bpm')) :
    (bpm.free_list_ ≠ [] ∧ bpm'.replacer_ = bpm.replacer_) ∨
      (bpm.free_list_ = [] ∧ bpm.replacer_.Evict early_timestamp = (res, bpm'.replacer_)) := by
  unfold AcquireFrame at h
  split at h
  · rename_i f rest hfree
    cases h
    exact .inl ⟨by rw [hfree]; exact List.cons_ne_nil f rest, rfl⟩
  · rename_i hfree
    refine .inr ⟨hfree, ?_⟩
    split at h
    · rename_i hev
      cases h
      exact hev
    · rename_i hev
      rw [hev]
      dsimp only at h
      split at h
      · obtain ⟨bpm₀, h₀, h⟩ := except_bind_eq_ok.1 h
        obtain ⟨⟨b, bpm₁⟩, hf, rfl⟩ := except_map_eq_ok.1 h₀
        cases h
        exact congrArg _ (FlushPage_replacer hf).symm
      · cases h
        rfl

theorem AcquireFrame_replacerRun {early_timestamp : Nat} {res : Option Int}
    (h : bpm.AcquireFrame early_timestamp = .ok (res, bpm')) :
    ReplacerRun bpm.replacer_ bpm'.replacer_ 0 := by
  rcases AcquireFrame_replacer h with ⟨-, heq⟩ | ⟨-, hev⟩
  · exact heq ▸ ReplacerRun.refl _
  · have heq : bpm'.replacer_ = (bpm.replacer_.Evict early_timestamp).2 := by rw [hev]
    exact heq ▸ ReplacerRun.Evict _ early_timestamp

/-- `NewPage` answers with the frame `AcquireFrame` took. -/
theorem NewPage_AcquireFrame {early_timestamp : Nat} {res : Option (Int × Int)}
    (h : bpm.NewPage early_timestamp = .ok (res, bpm')) :
    ∃ bpm₁, bpm.AcquireFrame early_timestamp = .ok (res.map (·.2), bpm₁) ∧
      ReplacerRun bpm.replacer_ bpm'.replacer_ 1 := by
  obtain ⟨⟨frame?, bpm₁⟩, hacq, h⟩ := except_bind_eq_ok.1 h
  have hrun := AcquireFrame_replacerRun hacq
  cases frame? with
  | none =>
    cases h
    exact ⟨_, hacq, hrun.mono (Nat.zero_le 1)⟩
  | some f =>
    obtain ⟨r', hr', h⟩ := except_bind_eq_ok.1 h
    cases h
    exact ⟨_, hacq, hrun.trans (ReplacerRun.Touch hr')⟩

/-- `FetchPage` of a page that is not resident answers with the frame `AcquireFrame` took. -/
theorem FetchPage_AcquireFrame {page_id : Int} {early_timestamp : Nat} {res : Option Int}
    (hmiss : bpm.page_table_.find? page_id = none)
    (h : bpm.FetchPage page_id early_timestamp = .ok (res, bpm')) :
    ∃ bpm₁, bpm.AcquireFrame early_timestamp = .ok (res, bpm₁) := by
  unfold FetchPage at h
  rw [hmiss] at h
  obtain ⟨⟨frame?, bpm₁⟩, hacq, h⟩ := except_bind_eq_ok.1 h
  cases frame? with
  | none => cases h; exact ⟨_, hacq⟩
  | some f =>
    obtain ⟨r', -, h⟩ := except_bind_eq_ok.1 h
    cases h
    exact ⟨_, hacq⟩

theorem FetchPage_replacerRun {page_id : Int} {early_timestamp : Nat} {res : Option Int}
    (h : bpm.FetchPage page_id early_timestamp = .ok (res, bpm')) :
    ReplacerRun bpm.replacer_ bpm'.replacer_ 1 := by
  unfold FetchPage at h
  split at h
  · obtain ⟨r', hr', h⟩ := except_bind_eq_ok.1 h
    cases h
    exact ReplacerRun.Touch hr'
  · obtain ⟨⟨frame?, bpm₁⟩, hacq, h⟩ := except_bind_eq_ok.1 h
    have hrun := AcquireFrame_replacerRun hacq
    cases frame? with
    | none =>
      cases h
      exact hrun.mono (Nat.zero_le 1)
    | some f =>
      obtain ⟨r', hr', h⟩ := except_bind_eq_ok.1 h
      cases h
      exact hrun.trans (ReplacerRun.Touch hr')

theorem UnpinPage_replacerRun {page_id : Int} {is_dirty b : Bool}
    (h : bpm.UnpinPage page_id is_dirty = .ok (b, bpm')) :
    ReplacerRun bpm.replacer_ bpm'.replacer_ 0 := by
  unfold UnpinPage at h
  split at h
  · cases h
    exact ReplacerRun.refl _
  · dsimp only at h
    split_ifs at h
    · cases h
      exact ReplacerRun.refl _
    · obtain ⟨r', hr', h⟩ := except_bind_eq_ok.1 h
      cases h
      exact ReplacerRun.SetEvictable hr'

theorem DeletePage_replacerRun {page_id : Int} {b : Bool}
    (h : bpm.DeletePage page_id = .ok (b, bpm')) :
    ReplacerRun bpm.replacer_ bpm'.replacer_ 0 := by
  unfold DeletePage at h
  split at h
  · cases h
    exact ReplacerRun.refl _
  · split_ifs at h
    · cases h
      exact ReplacerRun.refl _
    all_goals
      obtain ⟨bpm₁, h₁, h⟩ := except_bind_eq_ok.1 h
      obtain ⟨r', hr', h⟩ := except_bind_eq_ok.1 h
      cases h
    · obtain ⟨⟨b, bpm₂⟩, hf, rfl⟩ := except_map_eq_ok.1 h₁
      exact (FlushPage_replacer hf : _ = _) ▸ ReplacerRun.Remove hr'
    · cases h₁
      exact ReplacerRun.Remove hr'

/-- Every call of the pool drives its replacer by calls whose assertions hold, with at most
    one access. -/
theorem step_replacerRun {c : Call} {reply : Reply} (hstep : bpm.step c = .ok (reply, bpm')) :
    ReplacerRun bpm.replacer_ bpm'.replacer_ 1 := by
  cases c with
  | NewPage early_timestamp =>
    obtain ⟨⟨res, bpm₁⟩, h, hr⟩ := except_map_eq_ok.1 hstep
    cases hr
    obtain ⟨bpm₂, -, hrun⟩ := NewPage_AcquireFrame h
    exact hrun
  | FetchPage page_id early_timestamp =>
    obtain ⟨⟨res, bpm₁⟩, h, hr⟩ := except_map_eq_ok.1 hstep
    cases hr
    exact FetchPage_replacerRun h
  | UnpinPage page_id is_dirty =>
    obtain ⟨⟨b, bpm₁⟩, h, hr⟩ := except_map_eq_ok.1 hstep
    cases hr
    exact (UnpinPage_replacerRun h).mono (Nat.zero_le 1)
  | FlushPage page_id =>
    obtain ⟨⟨b, bpm₁⟩, h, hr⟩ := except_map_eq_ok.1 hstep
    cases hr
    exact (FlushPage_replacer h : _ = _) ▸ (ReplacerRun.refl _).mono (Nat.zero_le 1)
  | FlushAllPages =>
    obtain ⟨bpm₁, h, hr⟩ := except_map_eq_ok.1 hstep
    cases hr
    exact (FlushAllPages_replacer h : _ = _) ▸ (ReplacerRun.refl _).mono (Nat.zero_le 1)
  | DeletePage page_id =>
    obtain ⟨⟨b, bpm₁⟩, h, hr⟩ := except_map_eq_ok.1 hstep
    cases hr
    exact (DeletePage_replacerRun h).mono (Nat.zero_le 1)
  | Write frame_id data =>
    cases hstep
    exact (ReplacerRun.refl _).mono (Nat.zero_le 1)

/-- A run of the pool drives its replacer through a replacer run, with no more accesses than
    calls. -/
theorem run_replacerRun : ∀ {cs : List Call} {bpm bpm' : BufferPoolManager},
    bpm.run cs = .ok bpm' → ReplacerRun bpm.replacer_ bpm'.replacer_ cs.length
  | [], _, _, hrun => by cases hrun; exact ReplacerRun.refl _
  | c :: cs, bpm, _, hrun => by
    simp only [BufferPoolManager.run] at hrun
    split at hrun
    · rename_i reply bpm₁ hstep
      exact ((step_replacerRun hstep).trans (run_replacerRun hrun)).mono (by simp; omega)
    · cases hrun

end Calls

section Eviction

variable {bpm bpm' : BufferPoolManager}

/-- On a pool whose replacer keeps its invariant with non-negative ids, the clock below `INF`
    and `early_timestamp` above it, and with the free list empty, `AcquireFrame` finds no frame
    only when every resident page is pinned, and the frame it finds held an unpinned page and
    is an LRU-K victim. -/
theorem Invariant.AcquireFrame_IsVictim (h : bpm.Invariant [])
    (hr : bpm.replacer_.Invariant) (hids : bpm.replacer_.IdsNonneg)
    (hc : bpm.replacer_.current_timestamp_ < INF) (hfree : bpm.free_list_ = [])
    {early_timestamp : Nat} (hearly : bpm.replacer_.current_timestamp_ < early_timestamp)
    {res : Option Int} {bpm₁ : BufferPoolManager}
    (hacq : bpm.AcquireFrame early_timestamp = .ok (res, bpm₁)) :
    (res = none → ∀ p f, bpm.page_table_.find? p = some f → (bpm.pages_ f).pin_count_ ≠ 0) ∧
      ∀ f, res = some f →
        (∃ p, bpm.page_table_.find? p = some f ∧ (bpm.pages_ f).pin_count_ = 0) ∧
          LRUKReplacer.IsVictim bpm.replacer_.current_timestamp_
            bpm.replacer_.node_store_.entries f := by
  have hev : bpm.replacer_.Evict early_timestamp = (res, bpm₁.replacer_) := by
    rcases AcquireFrame_replacer hacq with ⟨hne, -⟩ | ⟨-, hev⟩
    · exact absurd hfree hne
    · exact hev
  obtain ⟨hnone, hsome⟩ := hr.Evict_IsVictim hids hc hearly
  refine ⟨fun hres p f hp hpin => ?_, fun f hres => ?_⟩
  · obtain ⟨n, hn, hevict⟩ := h.evictable_of_unpinned hp hpin
    have hall := hnone.1 (by rw [hev, hres])
    have := hall _ (UnorderedMap.find?_eq_some_iff.1 hn)
    simp only [hevict] at this
    cases this
  · subst hres
    exact ⟨h.victim hev, hsome f (by rw [hev])⟩

end Eviction

/-- On every state a new pool reaches by allowed calls, fewer than `INF` of them, with the free
    list empty and the uninitialised `early_timestamp` above the number of calls: `NewPage`, or
    `FetchPage` of a page that is not resident, returns `nullptr` only when every resident page
    is pinned, and the frame it returns held an unpinned page and is an LRU-K victim, an
    evictable frame of largest backward k-distance, ties going to the earliest first access. -/
theorem run_takes_LRUK_victim (pool_size : Nat) (disk_manager : DiskManager) (replacer_k : Nat)
    (hpool : pool_size < 2 ^ 64) (cs : List Call)
    (hallowed : runAllowed (new pool_size disk_manager replacer_k) cs = true)
    {bpm : BufferPoolManager} (hrun : (new pool_size disk_manager replacer_k).run cs = .ok bpm)
    (hcalls : cs.length < INF) (hfree : bpm.free_list_ = []) (early_timestamp : Nat)
    (hearly : cs.length < early_timestamp) (c : Call)
    (htakes : c = .NewPage early_timestamp ∨
      ∃ page_id, c = .FetchPage page_id early_timestamp ∧ bpm.page_table_.find? page_id = none)
    {reply : Reply} {bpm' : BufferPoolManager} (hstep : bpm.step c = .ok (reply, bpm')) :
    (reply = .frame none →
        ∀ p f, bpm.page_table_.find? p = some f → (bpm.pages_ f).pin_count_ ≠ 0) ∧
      ∀ f, reply = .frame (some f) →
        (∃ p, bpm.page_table_.find? p = some f ∧ (bpm.pages_ f).pin_count_ = 0) ∧
          LRUKReplacer.IsVictim bpm.replacer_.current_timestamp_
            bpm.replacer_.node_store_.entries f := by
  obtain ⟨ops, hops, hrrun⟩ := run_replacerRun hrun
  have hinf : INF < 2 ^ 64 := by decide
  obtain ⟨hr, hids, hclock⟩ := (LRUKReplacer.Invariant.new pool_size replacer_k).run_clock
    (fun _ h => nomatch h) ops (by simp only [LRUKReplacer.new]; omega) hrrun
  simp only [LRUKReplacer.new, Nat.zero_add] at hclock
  have h := (Invariant.new pool_size disk_manager replacer_k hpool).of_run hallowed hrun
  -- both calls return the frame that `AcquireFrame` takes
  obtain ⟨res, bpm₁, hacq, rfl⟩ : ∃ res bpm₁,
      bpm.AcquireFrame early_timestamp = .ok (res, bpm₁) ∧ reply = .frame res := by
    rcases htakes with rfl | ⟨page_id, rfl, hmiss⟩
    · obtain ⟨⟨res, bpm₁⟩, hnew, hreply⟩ := except_map_eq_ok.1 hstep
      cases hreply
      obtain ⟨bpm₂, hacq, -⟩ := NewPage_AcquireFrame hnew
      exact ⟨_, _, hacq, rfl⟩
    · obtain ⟨⟨res, bpm₁⟩, hfetch, hreply⟩ := except_map_eq_ok.1 hstep
      cases hreply
      obtain ⟨bpm₂, hacq⟩ := FetchPage_AcquireFrame hmiss hfetch
      exact ⟨_, _, hacq, rfl⟩
  obtain ⟨hnone, hsome⟩ := h.AcquireFrame_IsVictim hr hids (by omega) hfree (by omega) hacq
  exact ⟨fun hres => hnone (Reply.frame.inj hres), fun f hres => hsome f (Reply.frame.inj hres)⟩

/-- With one frame, after a page is made and unpinned the free list is empty, and the next
    `NewPage` takes frame `0`, the LRU-K victim. -/
theorem run_takes_LRUK_victim_one_frame :
    ∃ bpm reply bpm', (new 1 DiskManager.new 2).run [.NewPage 0, .UnpinPage 0 true] = .ok bpm ∧
      bpm.free_list_ = [] ∧ bpm.step (.NewPage 3) = .ok (reply, bpm') ∧
      reply = .frame (some 0) ∧
      ((reply = .frame none →
          ∀ p f, bpm.page_table_.find? p = some f → (bpm.pages_ f).pin_count_ ≠ 0) ∧
        ∀ f, reply = .frame (some f) →
          (∃ p, bpm.page_table_.find? p = some f ∧ (bpm.pages_ f).pin_count_ = 0) ∧
            LRUKReplacer.IsVictim bpm.replacer_.current_timestamp_
              bpm.replacer_.node_store_.entries f) := by
  refine ⟨_, _, _, rfl, rfl, rfl, rfl, ?_⟩
  exact run_takes_LRUK_victim 1 DiskManager.new 2 (by decide) [.NewPage 0, .UnpinPage 0 true]
    (by decide) rfl (by decide) rfl 3 (by decide) (.NewPage 3) (.inl rfl) rfl

end BufferPoolManager

end bustub
