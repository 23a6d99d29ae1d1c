import MiniBusTub.Buffer.BufferPoolManager
import Mathlib.Data.List.Perm.Subperm

namespace bustub

namespace BufferPoolManager

/-- The frames that hold a page: the values of the page table. -/
def residentFrames (bpm : BufferPoolManager) : List Int := bpm.page_table_.entries.map Prod.snd

theorem mem_residentFrames {bpm : BufferPoolManager} {f : Int} :
    f ∈ bpm.residentFrames ↔ ∃ p, bpm.page_table_.find? p = some f := by
  simp only [residentFrames, List.mem_map, UnorderedMap.find?_eq_some_iff]
  exact ⟨fun ⟨e, he, hf⟩ => ⟨e.1, hf ▸ he⟩, fun ⟨p, hp⟩ => ⟨_, hp, rfl⟩⟩

/-- Two pools alike but for page bytes, dirty bits and the disk: all that `FlushPage` and a
    client's write change. -/
structure SameMeta (bpm bpm' : BufferPoolManager) : Prop where
  pool_size : bpm'.pool_size_ = bpm.pool_size_
  page_table : bpm'.page_table_ = bpm.page_table_
  free_list : bpm'.free_list_ = bpm.free_list_
  replacer : bpm'.replacer_ = bpm.replacer_
  next_page_id : bpm'.next_page_id_ = bpm.next_page_id_
  page_id : ∀ f, (bpm'.pages_ f).page_id_ = (bpm.pages_ f).page_id_
  pin_count : ∀ f, (bpm'.pages_ f).pin_count_ = (bpm.pages_ f).pin_count_

theorem SameMeta.refl (bpm : BufferPoolManager) : SameMeta bpm bpm :=
  ⟨rfl, rfl, rfl, rfl, rfl, fun _ => rfl, fun _ => rfl⟩

theorem SameMeta.trans {bpm₁ bpm₂ bpm₃ : BufferPoolManager} (h₁ : SameMeta bpm₁ bpm₂)
    (h₂ : SameMeta bpm₂ bpm₃) : SameMeta bpm₁ bpm₃ :=
  ⟨h₂.pool_size.trans h₁.pool_size, h₂.page_table.trans h₁.page_table,
    h₂.free_list.trans h₁.free_list, h₂.replacer.trans h₁.replacer,
    h₂.next_page_id.trans h₁.next_page_id, fun f => (h₂.page_id f).trans (h₁.page_id f),
    fun f => (h₂.pin_count f).trans (h₁.pin_count f)⟩

section Flush

variable (bpm : BufferPoolManager)

/-- `FlushPage` of a valid page id succeeds and changes no metadata. -/
theorem FlushPage_sameMeta {page_id : Int} (hvalid : page_id ≠ INVALID_PAGE_ID) :
    ∃ b bpm', bpm.FlushPage page_id = .ok (b, bpm') ∧ SameMeta bpm bpm' := by
  unfold FlushPage
  rw [if_neg hvalid]
  split
  · exact ⟨_, _, rfl, SameMeta.refl bpm⟩
  · rename_i frame_id _
    refine ⟨_, _, rfl, rfl, rfl, rfl, rfl, rfl, fun f => ?_, fun f => ?_⟩ <;>
      by_cases hf : f = frame_id <;> simp [hf]

/-- `FlushAllPages` succeeds when no key of the page table is `INVALID_PAGE_ID`, and changes
    no metadata. -/
theorem FlushAllPages_sameMeta (hvalid : ∀ e ∈ bpm.page_table_.entries, e.1 ≠ INVALID_PAGE_ID) :
    ∃ bpm', bpm.FlushAllPages = .ok bpm' ∧ SameMeta bpm bpm' := by
  suffices h : ∀ (l : List (Int × Int)) (acc : BufferPoolManager), SameMeta bpm acc →
      (∀ e ∈ l, e.1 ≠ INVALID_PAGE_ID) → ∃ bpm',
        l.foldlM (fun bpm e => (·.2) <$> bpm.FlushPage e.1) acc = .ok bpm' ∧ SameMeta bpm bpm' from
    h _ bpm (SameMeta.refl bpm) hvalid
  intro l
  induction l with
  | nil => exact fun acc hacc _ => ⟨acc, rfl, hacc⟩
  | cons e l ih =>
    intro acc hacc hl
    obtain ⟨b, acc', hflush, hmeta⟩ := FlushPage_sameMeta acc (hl e (List.mem_cons_self _ _))
    obtain ⟨bpm', hfold, hmeta'⟩ :=
      ih acc' (hacc.trans hmeta) (fun e' he' => hl e' (List.mem_cons_of_mem _ he'))
    exact ⟨bpm', by simp only [List.foldlM_cons, hflush]; exact hfold, hmeta'⟩

/-- The write-back `AcquireFrame` and `DeletePage` do for a dirty page. -/
theorem flush_if_dirty {page_id : Int} (hvalid : page_id ≠ INVALID_PAGE_ID) (dirty : Bool) :
    ∃ bpm₀, (if dirty then (·.2) <$> bpm.FlushPage page_id else pure bpm) = .ok bpm₀ ∧
      SameMeta bpm bpm₀ := by
  split
  · obtain ⟨b, bpm₀, h₀, hm⟩ := FlushPage_sameMeta bpm hvalid
    exact ⟨bpm₀, by rw [h₀]; rfl, hm⟩
  · exact ⟨bpm, rfl, SameMeta.refl bpm⟩

end Flush

/-- What the pool keeps between calls, with the frames `held` taken off both the free list
    and the page table (from `AcquireFrame` until a page is installed; `[]` between calls).
    Free, resident and held frames are `0 .. pool_size_ - 1`, each once; a resident frame
    records the page mapped to it and a pin count of at least `0`; the replacer tracks exactly
    the resident frames, each evictable iff unpinned, and counts the evictable ones; and page
    ids are below the allocation counter. -/
structure Invariant (bpm : BufferPoolManager) (held : List Int) : Prop where
  frames : List.Perm (bpm.free_list_ ++ bpm.residentFrames ++ held)
    ((List.range bpm.pool_size_).map Int.ofNat)
  page_id : ∀ p f, bpm.page_table_.find? p = some f → (bpm.pages_ f).page_id_ = p
  pin_nonneg : ∀ p f, bpm.page_table_.find? p = some f → 0 ≤ (bpm.pages_ f).pin_count_
  flag : ∀ f, bpm.replacer_.flag f =
    if f ∈ bpm.residentFrames then some ((bpm.pages_ f).pin_count_ == 0) else none
  size_eq : bpm.replacer_.evictable_size_ =
    bpm.replacer_.node_store_.entries.countP (·.2.is_evictable_)
  replacer_size : bpm.replacer_.replacer_size_ = bpm.pool_size_
  pool_size_lt : bpm.pool_size_ < 2 ^ 64
  page_ids : ∀ p f, bpm.page_table_.find? p = some f → 0 ≤ p ∧ p < bpm.next_page_id_
  next_nonneg : 0 ≤ bpm.next_page_id_

theorem Invariant.new (pool_size : Nat) (disk_manager : DiskManager) (replacer_k : Nat)
    (hpool : pool_size < 2 ^ 64) : (new pool_size disk_manager replacer_k).Invariant [] := by
  refine ⟨?_, nofun, nofun, fun f => ?_, rfl, rfl, hpool, nofun, le_refl 0⟩
  · simp [BufferPoolManager.new, residentFrames]
  · simp [BufferPoolManager.new, residentFrames, LRUKReplacer.flag, LRUKReplacer.new]

/-- On a pool of at most `2 ^ 31` frames the constructor's `static_cast<int>(i)` is `i`. -/
theorem frameIds_eq {n : Nat} (hn : n ≤ 2 ^ 31) :
    (List.range n).map (fun i : Nat => toInt32 i) = (List.range n).map Int.ofNat :=
  List.map_congr_left fun i hi =>
    toInt32_of_lt (by omega) (by rw [List.mem_range] at hi; omega)

/-- `Touch` of an in-range frame succeeds, leaves the frame tracked and not evictable, and
    keeps the count right. -/
theorem Touch_ok {r : LRUKReplacer} {frame_id : Int}
    (hrange : frame_id ≥ 0 ∧ frame_id.toNat < r.replacer_size_)
    (hsize : r.evictable_size_ = r.node_store_.entries.countP (·.2.is_evictable_))
    (hlen : ∀ r₁, r.RecordAccess frame_id = .ok r₁ → r₁.node_store_.entries.length < 2 ^ 64) :
    ∃ r', Touch r frame_id = .ok r' ∧
      (∀ g, r'.flag g = if g = frame_id then some false else r.flag g) ∧
      r'.replacer_size_ = r.replacer_size_ ∧
      r'.evictable_size_ = r'.node_store_.entries.countP (·.2.is_evictable_) := by
  obtain ⟨r₁, h₁⟩ := LRUKReplacer.exists_RecordAccess hrange
  have hflag₁ := LRUKReplacer.RecordAccess_flag h₁
  obtain ⟨r₂, h₂⟩ := LRUKReplacer.exists_SetEvictable
    (show r₁.flag frame_id ≠ none by simp [hflag₁ frame_id]) false
  refine ⟨r₂, by simpa only [Touch, h₁] using h₂, fun g => ?_, ?_,
    LRUKReplacer.SetEvictable_size_eq h₂ (LRUKReplacer.RecordAccess_size_eq h₁ hsize)
      (hlen r₁ h₁)⟩
  · rw [(LRUKReplacer.SetEvictable_flag h₂ g).2, hflag₁]
    split_ifs <;> rfl
  · rw [LRUKReplacer.SetEvictable_replacer_size h₂, LRUKReplacer.RecordAccess_replacer_size h₁]

section Frames

variable {bpm : BufferPoolManager} {held : List Int}

theorem Invariant.nodup (h : bpm.Invariant held) :
    (bpm.free_list_ ++ bpm.residentFrames ++ held).Nodup :=
  h.frames.nodup_iff.2 ((List.nodup_range _).map fun _ _ => Int.ofNat.inj)

theorem Invariant.mem_frames (h : bpm.Invariant held) {f : Int} :
    f ∈ bpm.free_list_ ++ bpm.residentFrames ++ held ↔ 0 ≤ f ∧ f < bpm.pool_size_ := by
  rw [h.frames.mem_iff]
  simp only [List.mem_map, List.mem_range, Int.ofNat_eq_coe]
  constructor
  · rintro ⟨n, hn, rfl⟩; omega
  · rintro ⟨h₀, h₁⟩; exact ⟨f.toNat, by omega, by simp [h₀]⟩

/-- The page table is injective. -/
theorem Invariant.page_eq (h : bpm.Invariant held) {p q f : Int}
    (hp : bpm.page_table_.find? p = some f) (hq : bpm.page_table_.find? q = some f) : p = q := by
  have hnodup := List.nodup_append.1 (List.nodup_append.1 h.nodup).1 |>.2.1
  have := List.inj_on_of_nodup_map hnodup (UnorderedMap.find?_eq_some_iff.1 hp)
    (UnorderedMap.find?_eq_some_iff.1 hq) rfl
  simpa using this

/-- The replacer's flag of a frame: tracked iff resident, evictable iff unpinned. -/
theorem Invariant.flag_of_find? (h : bpm.Invariant held) {p f : Int}
    (hp : bpm.page_table_.find? p = some f) :
    bpm.replacer_.flag f = some ((bpm.pages_ f).pin_count_ == 0) := by
  rw [h.flag, if_pos (mem_residentFrames.2 ⟨p, hp⟩)]

/-- A resident page is never `INVALID_PAGE_ID`, so it can be flushed. -/
theorem Invariant.valid_of_find? (h : bpm.Invariant held) {p f : Int}
    (hp : bpm.page_table_.find? p = some f) : p ≠ INVALID_PAGE_ID := by
  have := (h.page_ids p f hp).1
  simp only [INVALID_PAGE_ID]
  omega

/-- An unpinned resident page's frame has an evictable node in the replacer. -/
theorem Invariant.evictable_of_unpinned (h : bpm.Invariant held) {p f : Int}
    (hp : bpm.page_table_.find? p = some f) (hpin : (bpm.pages_ f).pin_count_ = 0) :
    ∃ n, bpm.replacer_.node_store_.find? f = some n ∧ n.is_evictable_ = true := by
  simpa [LRUKReplacer.flag, hpin] using h.flag_of_find? hp

/-- The replacer tracks fewer than `2 ^ 64` frames, so its count never wraps. -/
theorem Invariant.tracked_length (h : bpm.Invariant held) :
    bpm.replacer_.node_store_.entries.length < 2 ^ 64 := by
  have hsub : bpm.replacer_.node_store_.keys ⊆ bpm.free_list_ ++ bpm.residentFrames ++ held :=
    fun f hf => by
      obtain ⟨n, hn⟩ := UnorderedMap.mem_keys_iff.1 hf
      have hflag := h.flag f
      simp only [LRUKReplacer.flag, hn, Option.map_some'] at hflag
      split_ifs at hflag with hres
      exact List.mem_append_left _ (List.mem_append_right _ hres)
  have hle := (List.subperm_of_subset bpm.replacer_.node_store_.nodup hsub).length_le
  rw [h.frames.length_eq] at hle
  simp only [UnorderedMap.keys, List.length_map, List.length_range] at hle
  have := h.pool_size_lt
  omega

/-- Bytes, dirty bits and the disk play no part in the invariant. -/
theorem Invariant.of_sameMeta {bpm' : BufferPoolManager} (h : bpm.Invariant held)
    (hm : SameMeta bpm bpm') : bpm'.Invariant held := by
  obtain ⟨hpool, htable, hfree, hrepl, hnext, hid, hpin⟩ := hm
  have hres : bpm'.residentFrames = bpm.residentFrames := by rw [residentFrames, htable]; rfl
  refine ⟨?_, fun p f hp => ?_, fun p f hp => ?_, fun f => ?_, ?_, ?_, ?_, fun p f hp => ?_, ?_⟩
  · rw [hres, hfree, hpool]; exact h.frames
  · rw [hid]; exact h.page_id p f (htable ▸ hp)
  · rw [hpin]; exact h.pin_nonneg p f (htable ▸ hp)
  · rw [hrepl, hres, hpin]; exact h.flag f
  · rw [hrepl]; exact h.size_eq
  · rw [hrepl, hpool]; exact h.replacer_size
  · rw [hpool]; exact h.pool_size_lt
  · rw [hnext]; exact h.page_ids p f (htable ▸ hp)
  · rw [hnext]; exact h.next_nonneg

/-- Dropping an unpinned resident page `p` at frame `f`, from the page table and (as an
    evictable node) from the replacer, holds `f` aside. -/
theorem Invariant.erase_page (h : bpm.Invariant held) {p f : Int}
    (hp : bpm.page_table_.find? p = some f) (hpin : (bpm.pages_ f).pin_count_ = 0)
    (bpm₁ : BufferPoolManager) (hpool : bpm₁.pool_size_ = bpm.pool_size_)
    (htable : bpm₁.page_table_ = bpm.page_table_.erase p)
    (hfree : bpm₁.free_list_ = bpm.free_list_)
    (hrepl : bpm₁.replacer_ = { bpm.replacer_ with
      node_store_ := bpm.replacer_.node_store_.erase f
      evictable_size_ := decMod 64 bpm.replacer_.evictable_size_ })
    (hnext : bpm₁.next_page_id_ = bpm.next_page_id_)
    (hpages : ∀ g, (bpm₁.pages_ g).page_id_ = (bpm.pages_ g).page_id_ ∧
      (bpm₁.pages_ g).pin_count_ = (bpm.pages_ g).pin_count_) :
    bpm₁.Invariant (held ++ [f]) := by
  obtain ⟨l₁, l₂, hsplit, hk₁, hk₂⟩ := UnorderedMap.split_of_find? hp
  have hfind : ∀ q g, bpm₁.page_table_.find? q = some g ↔
      q ≠ p ∧ bpm.page_table_.find? q = some g := fun q g => by
    rw [htable, UnorderedMap.find?_erase]
    split_ifs with hq <;> simp [hq]
  have hres : ∀ g, g ∈ bpm₁.residentFrames ↔ g ≠ f ∧ g ∈ bpm.residentFrames := fun g => by
    simp only [mem_residentFrames, hfind]
    constructor
    · rintro ⟨q, hqp, hq⟩
      exact ⟨fun hg => hqp (h.page_eq hq (hg ▸ hp)), q, hq⟩
    · rintro ⟨hg, q, hq⟩
      exact ⟨q, fun hqp => hg (Option.some.inj ((hqp ▸ hq).symm.trans hp)), hq⟩
  obtain ⟨n, hn, hev⟩ := h.evictable_of_unpinned hp hpin
  refine ⟨?_, fun q g hq => ?_, fun q g hq => ?_, fun g => ?_, ?_, ?_, ?_, fun q g hq => ?_, ?_⟩
  · have hperm := h.frames
    simp only [residentFrames, hsplit, List.map_append, List.map_cons] at hperm
    simp only [residentFrames, htable, UnorderedMap.erase_entries_of_split hsplit hk₁ hk₂,
      List.map_append, hfree, hpool]
    refine List.Perm.trans ?_ hperm
    simp only [List.append_assoc, List.cons_append]
    refine List.Perm.append_left _ (List.Perm.append_left _ ?_)
    rw [← List.append_assoc]
    exact List.perm_append_singleton _ _
  · rw [(hpages g).1]; exact h.page_id q g ((hfind q g).1 hq).2
  · rw [(hpages g).2]; exact h.pin_nonneg q g ((hfind q g).1 hq).2
  · simp only [hrepl, LRUKReplacer.flag, UnorderedMap.find?_erase, (hpages g).2]
    by_cases hg : g = f
    · simp [hg, (hres f).1 |>.mt (by simp)]
    · have := h.flag g
      simp only [LRUKReplacer.flag] at this
      simp only [hg, if_false, this, hres g, ne_eq, not_false_eq_true, true_and]
  · rw [hrepl]
    exact LRUKReplacer.erase_size_eq hn hev h.size_eq h.tracked_length
  · rw [hrepl, hpool]; exact h.replacer_size
  · rw [hpool]; exact h.pool_size_lt
  · rw [hnext]; exact h.page_ids q g ((hfind q g).1 hq).2
  · rw [hnext]; exact h.next_nonneg

/-- A frame held aside goes back on the free list. -/
theorem Invariant.release {f : Int} (h : bpm.Invariant (held ++ [f])) :
    { bpm with free_list_ := bpm.free_list_ ++ [f] }.Invariant held := by
  refine ⟨List.Perm.trans ?_ h.frames, h.page_id, h.pin_nonneg, h.flag, h.size_eq, h.replacer_size,
    h.pool_size_lt, h.page_ids, h.next_nonneg⟩
  simp only [List.append_assoc, List.singleton_append]
  refine List.Perm.append_left _ ?_
  rw [← List.append_assoc]
  exact (List.perm_append_singleton _ _).symm

/-- With no free frame and no evictable one, `AcquireFrame` finds no frame and changes
    nothing. -/
theorem AcquireFrame_of_exhausted (hfree : bpm.free_list_ = [])
    (hpinned : ∀ e ∈ bpm.replacer_.node_store_.entries, e.2.is_evictable_ = false)
    (early_timestamp : Nat) : bpm.AcquireFrame early_timestamp = .ok (none, bpm) := by
  rcases LRUKReplacer.Evict_victim bpm.replacer_ early_timestamp with
    ⟨hnone, hsame⟩ | ⟨f, n, -, hmem, hev, -⟩
  · have hpair : bpm.replacer_.Evict early_timestamp = (none, bpm.replacer_) :=
      Prod.ext hnone hsame
    simp only [BufferPoolManager.AcquireFrame, hfree, hpair]
    rw [← hfree]
  · rw [show n.is_evictable_ = false from hpinned _ hmem] at hev
    cases hev

/-- `FetchPage` of a page that is not resident, with no frame to take, returns null and
    changes nothing. -/
theorem FetchPage_of_exhausted (hfree : bpm.free_list_ = [])
    (hpinned : ∀ e ∈ bpm.replacer_.node_store_.entries, e.2.is_evictable_ = false)
    {page_id : Int} (hp : bpm.page_table_.find? page_id = none) (early_timestamp : Nat) :
    bpm.FetchPage page_id early_timestamp = .ok (none, bpm) := by
  simp only [BufferPoolManager.FetchPage, hp, AcquireFrame_of_exhausted hfree hpinned,
    except_ok_bind]
  rfl

/-- `NewPage`, with no frame to take, returns null and changes nothing. -/
theorem NewPage_of_exhausted (hfree : bpm.free_list_ = [])
    (hpinned : ∀ e ∈ bpm.replacer_.node_store_.entries, e.2.is_evictable_ = false)
    (early_timestamp : Nat) : bpm.NewPage early_timestamp = .ok (none, bpm) := by
  simp only [BufferPoolManager.NewPage, AcquireFrame_of_exhausted hfree hpinned, except_ok_bind]
  rfl

/-- Taking the head of the free list leaves the invariant with that frame held. -/
theorem Invariant.take_free {f : Int} {rest : List Int} (h : bpm.Invariant [])
    (hfree : bpm.free_list_ = f :: rest) : { bpm with free_list_ := rest }.Invariant [f] := by
  refine ⟨List.Perm.trans ?_ h.frames, h.page_id, h.pin_nonneg, h.flag, h.size_eq,
    h.replacer_size, h.pool_size_lt, h.page_ids, h.next_nonneg⟩
  rw [hfree, List.append_nil]
  exact List.perm_append_singleton _ _

/-- `AcquireFrame` never fails on a pool that keeps the invariant. It finds no frame and
    changes nothing, or it takes a frame `f` off the free list or from an unpinned page, which
    leaves the page table; every other resident page keeps its frame and pin count. -/
theorem Invariant.AcquireFrame (h : bpm.Invariant []) (early_timestamp : Nat) :
    bpm.AcquireFrame early_timestamp = .ok (none, bpm) ∨
      ∃ f bpm₁, bpm.AcquireFrame early_timestamp = .ok (some f, bpm₁) ∧ bpm₁.Invariant [f] ∧
        bpm₁.next_page_id_ = bpm.next_page_id_ ∧
        (∀ p g, bpm₁.page_table_.find? p = some g →
          bpm.page_table_.find? p = some g ∧
            (bpm₁.pages_ g).pin_count_ = (bpm.pages_ g).pin_count_) ∧
        (∀ p g, bpm.page_table_.find? p = some g → bpm₁.page_table_.find? p ≠ some g →
          (bpm.pages_ g).pin_count_ = 0) := by
  rcases hfree : bpm.free_list_ with _ | ⟨f, rest⟩
  · rcases LRUKReplacer.Evict_victim bpm.replacer_ early_timestamp with
      ⟨hnone, hsame⟩ | ⟨f, n, hsome, hmem, hev, hrepl⟩
    · left
      have hpair : bpm.replacer_.Evict early_timestamp = (none, bpm.replacer_) :=
        Prod.ext hnone hsame
      simp only [BufferPoolManager.AcquireFrame, hfree, hpair]
      rw [← hfree]
    · right
      -- the victim is a resident, unpinned frame
      have hflag := h.flag f
      simp only [LRUKReplacer.flag, UnorderedMap.find?_eq_some_iff.2 hmem, Option.map_some',
        hev] at hflag
      split_ifs at hflag with hres
      obtain ⟨p, hp⟩ := mem_residentFrames.1 hres
      have hpin : (bpm.pages_ f).pin_count_ = 0 := by simpa using hflag.symm
      have hvalid := h.valid_of_find? hp
      obtain ⟨R, hR⟩ : ∃ R : LRUKReplacer, R = { bpm.replacer_ with
          node_store_ := bpm.replacer_.node_store_.erase f
          evictable_size_ := decMod 64 bpm.replacer_.evictable_size_ } := ⟨_, rfl⟩
      have hpair : bpm.replacer_.Evict early_timestamp = (some f, R) :=
        Prod.ext hsome (hrepl.trans hR.symm)
      have hid : (bpm.pages_ f).GetPageId = p := h.page_id p f hp
      obtain ⟨bpm₁, hacq, hpool, htable, hfree₁, hrepl₁, hnext, hpages⟩ :
          ∃ bpm₁, bpm.AcquireFrame early_timestamp = .ok (some f, bpm₁) ∧
            bpm₁.pool_size_ = bpm.pool_size_ ∧ bpm₁.page_table_ = bpm.page_table_.erase p ∧
            bpm₁.free_list_ = bpm.free_list_ ∧
            bpm₁.replacer_ = R ∧
            bpm₁.next_page_id_ = bpm.next_page_id_ ∧
            ∀ g, (bpm₁.pages_ g).page_id_ = (bpm.pages_ g).page_id_ ∧
              (bpm₁.pages_ g).pin_count_ = (bpm.pages_ g).pin_count_ := by
        simp only [BufferPoolManager.AcquireFrame, hfree, hpair, hid]
        split
        · obtain ⟨b, bpm₀, h₀, hm⟩ := FlushPage_sameMeta
            { bpm with free_list_ := [], replacer_ := R } hvalid
          rw [h₀]
          exact ⟨_, rfl, hm.pool_size, by rw [hm.page_table], hm.free_list, hm.replacer,
            hm.next_page_id, fun g => ⟨hm.page_id g, hm.pin_count g⟩⟩
        · exact ⟨_, rfl, rfl, rfl, rfl, rfl, rfl, fun g => ⟨rfl, rfl⟩⟩
      refine ⟨f, bpm₁, hacq, ?_, hnext, fun q g hq => ?_, fun q g hq hne => ?_⟩
      · exact h.erase_page hp hpin bpm₁ hpool htable hfree₁ (hrepl₁.trans hR) hnext hpages
      · simp only [htable, UnorderedMap.find?_erase] at hq
        split_ifs at hq
        exact ⟨hq, (hpages g).2⟩
      · have hqp : q = p := by
          by_contra hqp
          exact hne (by simp [htable, hqp, hq])
        subst hqp
        rw [Option.some.inj (hq.symm.trans hp)]
        exact hpin
  · exact .inr ⟨f, { bpm with free_list_ := rest }, by simp [BufferPoolManager.AcquireFrame, hfree],
      h.take_free hfree, rfl, fun p g hp => ⟨hp, rfl⟩, fun p g hp hne => absurd hp hne⟩

/-- `Touch` of any frame of the pool succeeds. -/
theorem Invariant.Touch (h : bpm.Invariant held) {f : Int}
    (hf : f ∈ bpm.free_list_ ++ bpm.residentFrames ++ held) :
    ∃ r', BufferPoolManager.Touch bpm.replacer_ f = .ok r' ∧
      (∀ g, r'.flag g = if g = f then some false else bpm.replacer_.flag g) ∧
      r'.replacer_size_ = bpm.replacer_.replacer_size_ ∧
      r'.evictable_size_ = r'.node_store_.entries.countP (·.2.is_evictable_) := by
  have hrange := h.mem_frames.1 hf
  refine Touch_ok ⟨hrange.1, by rw [h.replacer_size]; omega⟩ h.size_eq fun r₁ h₁ => ?_
  have hle := LRUKReplacer.length_le_of_flag (r := r₁)
    (L := bpm.free_list_ ++ bpm.residentFrames ++ held) fun g hg => by
      rw [LRUKReplacer.RecordAccess_flag h₁ g] at hg
      split_ifs at hg with hgf
      · exact hgf ▸ hf
      · rw [h.flag g] at hg
        split_ifs at hg with hres
        · exact List.mem_append_left _ (List.mem_append_right _ hres)
        · exact absurd rfl hg
  rw [h.frames.length_eq, List.length_map, List.length_range] at hle
  have := h.pool_size_lt
  omega

/-- The counter's value is no page's id yet. -/
theorem Invariant.next_fresh (h : bpm.Invariant held) :
    bpm.page_table_.find? bpm.next_page_id_ = none := by
  cases hq : bpm.page_table_.find? bpm.next_page_id_ with
  | none => rfl
  | some g => have := (h.page_ids _ g hq).2; omega

/-- The held frame holds no page. -/
theorem Invariant.held_not_resident {f : Int} (h : bpm.Invariant [f]) : f ∉ bpm.residentFrames :=
  fun hres => (List.nodup_append.1 h.nodup).2.2 (List.mem_append_right _ hres)
    (List.mem_singleton_self f)

/-- Installing a fresh page `p` in the held frame `f`, pinned once and tracked as not
    evictable, restores the invariant. -/
theorem Invariant.install {f p : Int} (h : bpm.Invariant [f])
    (hp : bpm.page_table_.find? p = none) (hp0 : 0 ≤ p) :
    ∃ r', BufferPoolManager.Touch bpm.replacer_ f = .ok r' ∧ ∀ bpm₁ : BufferPoolManager,
      bpm₁.pool_size_ = bpm.pool_size_ → bpm₁.page_table_ = bpm.page_table_.insert p f →
      bpm₁.free_list_ = bpm.free_list_ → bpm₁.replacer_ = r' →
      bpm.next_page_id_ ≤ bpm₁.next_page_id_ → p < bpm₁.next_page_id_ →
      (∀ g, g ≠ f → bpm₁.pages_ g = bpm.pages_ g) → (bpm₁.pages_ f).page_id_ = p →
      (bpm₁.pages_ f).pin_count_ = 1 → bpm₁.Invariant [] := by
  have hfmem : f ∈ bpm.free_list_ ++ bpm.residentFrames ++ [f] := by simp
  have hfres := h.held_not_resident
  obtain ⟨r', htouch, hflag', hsize', hsz'⟩ := h.Touch hfmem
  refine ⟨r', htouch, fun bpm₁ hpool htable hfree hrepl hnext hpnext hpages hid hpin => ?_⟩
  have hfind : ∀ q, bpm₁.page_table_.find? q = if q = p then some f else bpm.page_table_.find? q :=
    fun q => by rw [htable, UnorderedMap.find?_insert]
  have hne : ∀ q g, bpm.page_table_.find? q = some g → g ≠ f := fun q g hq hg =>
    hfres (mem_residentFrames.2 ⟨q, hg ▸ hq⟩)
  have hres : ∀ g, g ∈ bpm₁.residentFrames ↔ g = f ∨ g ∈ bpm.residentFrames := fun g => by
    simp only [residentFrames, htable, UnorderedMap.insert_entries_of_find?_eq_none hp,
      List.map_append, List.mem_append, List.map_cons, List.map_nil, List.mem_singleton]
    exact or_comm
  refine ⟨?_, fun q g hq => ?_, fun q g hq => ?_, fun g => ?_, ?_, ?_, ?_, fun q g hq => ?_, ?_⟩
  · simp only [residentFrames, htable, UnorderedMap.insert_entries_of_find?_eq_none hp,
      List.map_append, hfree, hpool, List.append_nil, List.map_cons, List.map_nil]
    simpa only [← List.append_assoc] using h.frames
  · rw [hfind] at hq
    split_ifs at hq with hqp
    · cases hq; exact hqp ▸ hid
    · rw [hpages g (hne q g hq)]; exact h.page_id q g hq
  · rw [hfind] at hq
    split_ifs at hq with hqp
    · cases hq; rw [hpin]; decide
    · rw [hpages g (hne q g hq)]; exact h.pin_nonneg q g hq
  · rw [hrepl, hflag']
    by_cases hg : g = f
    · rw [if_pos hg, if_pos ((hres g).2 (.inl hg)), hg, hpin]; rfl
    · rw [if_neg hg, h.flag g, hpages g hg]
      simp only [hres g, hg, false_or]
  · rw [hrepl]; exact hsz'
  · rw [hrepl, hsize', hpool]; exact h.replacer_size
  · rw [hpool]; exact h.pool_size_lt
  · rw [hfind] at hq
    split_ifs at hq with hqp
    · exact ⟨hqp ▸ hp0, hqp ▸ hpnext⟩
    · have := h.page_ids q g hq; omega
  · have := h.next_nonneg; omega

/-- The invariant survives a change, at one resident frame `f`, of its pin count and of its
    replacer node, made together so that the flag still says whether the frame is unpinned. -/
theorem Invariant.update_resident (h : bpm.Invariant []) {p f : Int}
    (hp : bpm.page_table_.find? p = some f) {r' : LRUKReplacer} {pg : Page}
    (hid : pg.page_id_ = (bpm.pages_ f).page_id_) (hpin : 0 ≤ pg.pin_count_)
    (hflag : ∀ g, r'.flag g = if g = f then some (pg.pin_count_ == 0) else bpm.replacer_.flag g)
    (hsize : r'.replacer_size_ = bpm.replacer_.replacer_size_)
    (hsz : r'.evictable_size_ = r'.node_store_.entries.countP (·.2.is_evictable_)) :
    { bpm with replacer_ := r', pages_ := updateAt bpm.pages_ f pg }.Invariant [] := by
  refine ⟨h.frames, fun q g hq => ?_, fun q g hq => ?_, fun g => ?_, hsz, hsize ▸ h.replacer_size,
    h.pool_size_lt, h.page_ids, h.next_nonneg⟩
  · show (updateAt bpm.pages_ f pg g).page_id_ = q
    rw [updateAt_apply]
    split_ifs with hg
    · rw [hid, h.page_id p f hp]
      exact h.page_eq hp (hg ▸ hq)
    · exact h.page_id q g hq
  · show 0 ≤ (updateAt bpm.pages_ f pg g).pin_count_
    rw [updateAt_apply]
    split_ifs
    · exact hpin
    · exact h.pin_nonneg q g hq
  · show r'.flag g =
      if g ∈ bpm.residentFrames then some ((updateAt bpm.pages_ f pg g).pin_count_ == 0) else none
    rw [hflag, updateAt_apply]
    by_cases hg : g = f
    · rw [if_pos hg, if_pos hg, if_pos (hg ▸ mem_residentFrames.2 ⟨p, hp⟩)]
    · rw [if_neg hg, if_neg hg, h.flag g]

end Frames

/-- The client's side of the contract: `FetchPage` only of a page id that `NewPage` has
    handed out, `NewPage` only while the counter is below `INT32_MAX`, `FlushPage` not of
    `INVALID_PAGE_ID`, and writes only into the frame of a pinned page. -/
def Call.Allowed (bpm : BufferPoolManager) : Call → Prop
  | .NewPage _ => bpm.next_page_id_ < 2 ^ 31 - 1
  | .FetchPage page_id _ => 0 ≤ page_id ∧ page_id < bpm.next_page_id_
  | .UnpinPage _ _ => True
  | .FlushPage page_id => page_id ≠ INVALID_PAGE_ID
  | .FlushAllPages => True
  | .DeletePage _ => True
  | .Write frame_id _ => frame_id ∈ bpm.residentFrames ∧ 0 < (bpm.pages_ frame_id).pin_count_

instance Call.decAllowed (bpm : BufferPoolManager) : (c : Call) → Decidable (c.Allowed bpm)
  | .NewPage _ => inferInstanceAs (Decidable (_ < _))
  | .FetchPage _ _ => inferInstanceAs (Decidable (_ ∧ _))
  | .UnpinPage _ _ => instDecidableTrue
  | .FlushPage _ => inferInstanceAs (Decidable (¬_ = _))
  | .FlushAllPages => instDecidableTrue
  | .DeletePage _ => instDecidableTrue
  | .Write _ _ => inferInstanceAs (Decidable (_ ∧ _))

/-- The page a call unpins, if it is `UnpinPage`. -/
def Call.unpinned : Call → Option Int
  | .UnpinPage page_id _ => some page_id
  | _ => none

/-- How a call moves pin counts. A page resident after the call has the pin count it had
    before in the same frame (`0` if it was not there), plus one if the call returned its
    frame, less one if the call is a successful `UnpinPage` of it; and a page leaves its frame
    only unpinned. -/
def PinsAccounted (bpm : BufferPoolManager) (c : Call) (reply : Reply)
    (bpm' : BufferPoolManager) : Prop :=
  (∀ p f, bpm'.page_table_.find? p = some f →
    (bpm'.pages_ f).pin_count_ =
      (if bpm.page_table_.find? p = some f then (bpm.pages_ f).pin_count_ else 0) +
        (if reply = .frame (some f) then 1 else 0) -
        (if c.unpinned = some p ∧ reply = .bool true then 1 else 0)) ∧
  (∀ p f, bpm.page_table_.find? p = some f → bpm'.page_table_.find? p ≠ some f →
    (bpm.pages_ f).pin_count_ = 0)

section Calls

variable {bpm : BufferPoolManager}

/-- A call that changes no metadata, returns no frame and unpins nothing accounts for its pins. -/
theorem PinsAccounted.of_sameMeta {c : Call} {reply : Reply} {bpm' : BufferPoolManager}
    (hm : SameMeta bpm bpm') (hframe : ∀ f, reply ≠ .frame (some f))
    (hunpin : c.unpinned = none ∨ reply ≠ .bool true) : PinsAccounted bpm c reply bpm' := by
  refine ⟨fun p f hp => ?_, fun p f hp hne => absurd (hm.page_table ▸ hp) hne⟩
  rw [hm.page_table] at hp
  rw [if_pos hp, if_neg (hframe f),
    if_neg (by rintro ⟨hc, hr⟩; rcases hunpin with h | h <;> simp_all), hm.pin_count]
  omega

/-- The pins of a call that installs a fresh page `p` in the frame `f` that `AcquireFrame` took:
    `p` has the one pin the call returns, every other page keeps its own. -/
theorem PinsAccounted.install {c : Call} {bpm₁ bpm' : BufferPoolManager} {p f : Int}
    (hkeep : ∀ q g, bpm₁.page_table_.find? q = some g →
      bpm.page_table_.find? q = some g ∧ (bpm₁.pages_ g).pin_count_ = (bpm.pages_ g).pin_count_)
    (hleave : ∀ q g, bpm.page_table_.find? q = some g → bpm₁.page_table_.find? q ≠ some g →
      (bpm.pages_ g).pin_count_ = 0)
    (hf : f ∉ bpm₁.residentFrames) (hp : bpm.page_table_.find? p = none) (hc : c.unpinned = none)
    (htable : bpm'.page_table_ = bpm₁.page_table_.insert p f)
    (hpages : ∀ g, g ≠ f → bpm'.pages_ g = bpm₁.pages_ g)
    (hpin : (bpm'.pages_ f).pin_count_ = 1) :
    PinsAccounted bpm c (.frame (some f)) bpm' := by
  refine ⟨fun q g hq => ?_, fun q g hq hne => ?_⟩
  · rw [htable, UnorderedMap.find?_insert] at hq
    simp only [hc, reduceCtorEq, false_and, if_false, sub_zero, Reply.frame.injEq,
      Option.some.injEq]
    split_ifs at hq with hqp
    · cases hq
      rw [hqp, hp, hpin]
      simp
    · have hg : g ≠ f := fun hg => hf (mem_residentFrames.2 ⟨q, hg ▸ hq⟩)
      obtain ⟨hq₀, hpin₀⟩ := hkeep q g hq
      rw [if_pos hq₀, hpages g hg, hpin₀, if_neg (Ne.symm hg)]
      simp
  · have hqp : q ≠ p := by rintro rfl; simp [hp] at hq
    exact hleave q g hq (by rwa [htable, UnorderedMap.find?_insert, if_neg hqp] at hne)

theorem Invariant.NewPage (h : bpm.Invariant []) (hnext : bpm.next_page_id_ < 2 ^ 31 - 1)
    (early_timestamp : Nat) :
    ∃ res bpm', bpm.NewPage early_timestamp = .ok (res, bpm') ∧ bpm'.Invariant [] ∧
      PinsAccounted bpm (.NewPage early_timestamp) (.frame (res.map (·.2))) bpm' := by
  rcases h.AcquireFrame early_timestamp with hacq | ⟨f, bpm₁, hacq, h₁, hnext₁, hkeep, hleave⟩
  · exact ⟨none, bpm, by simp [BufferPoolManager.NewPage, hacq], h,
      PinsAccounted.of_sameMeta (SameMeta.refl bpm) (fun f => by simp) (.inl rfl)⟩
  · obtain ⟨r', htouch, hinst⟩ := h₁.install h₁.next_fresh h₁.next_nonneg
    have hnext' : toInt32 (bpm₁.next_page_id_ + 1) = bpm₁.next_page_id_ + 1 :=
      toInt32_of_lt (by have := h₁.next_nonneg; omega) (by omega)
    refine ⟨some (bpm₁.next_page_id_, f), { bpm₁ with
      next_page_id_ := toInt32 (bpm₁.next_page_id_ + 1)
      replacer_ := r'
      page_table_ := bpm₁.page_table_.insert bpm₁.next_page_id_ f
      pages_ := updateAt bpm₁.pages_ f { (bpm₁.pages_ f).ResetMemory with
        pin_count_ := 1, page_id_ := bpm₁.next_page_id_, is_dirty_ := false } }, ?_,
      hinst _ rfl rfl rfl rfl (by simp only [hnext']; omega) (by simp only [hnext']; omega)
        (fun g hg => by simp [hg])
        (by simp) (by simp), ?_⟩
    · simp only [BufferPoolManager.NewPage, hacq, AllocatePage, htouch, except_ok_bind,
        except_pure]
    · exact PinsAccounted.install hkeep hleave h₁.held_not_resident
        (hnext₁ ▸ h.next_fresh) rfl rfl (fun g hg => by simp [hg]) (by simp)

theorem Invariant.FetchPage (h : bpm.Invariant []) {page_id : Int} (hp0 : 0 ≤ page_id)
    (hpnext : page_id < bpm.next_page_id_) (early_timestamp : Nat) :
    ∃ res bpm', bpm.FetchPage page_id early_timestamp = .ok (res, bpm') ∧ bpm'.Invariant [] ∧
      PinsAccounted bpm (.FetchPage page_id early_timestamp) (.frame res) bpm' := by
  cases hfind : bpm.page_table_.find? page_id with
  | some f =>
    -- the page is resident: one more pin
    obtain ⟨r', htouch, hflag', hsize', hsz'⟩ :=
      h.Touch (List.mem_append_left _ (List.mem_append_right _ (mem_residentFrames.2 ⟨_, hfind⟩)))
    have hpin := h.pin_nonneg _ _ hfind
    refine ⟨some f, { bpm with
      replacer_ := r'
      pages_ := updateAt bpm.pages_ f { bpm.pages_ f with
        pin_count_ := (bpm.pages_ f).pin_count_ + 1, is_dirty_ := true } }, ?_,
      h.update_resident hfind rfl (by dsimp only; omega) (fun g => ?_) hsize' hsz',
      fun q g hq => ?_, fun q g hq hne => absurd hq hne⟩
    · simp only [BufferPoolManager.FetchPage, hfind, htouch, except_ok_bind, except_pure]
    · rw [hflag']
      split_ifs
      · simp only [Option.some.injEq]
        exact (beq_eq_false_iff_ne.2 (by omega)).symm
      · rfl
    · show (updateAt bpm.pages_ f _ g).pin_count_ = _
      simp only [updateAt_apply, if_pos hq, Reply.frame.injEq, Option.some.injEq, Call.unpinned,
        reduceCtorEq, false_and, if_false, sub_zero]
      by_cases hg : g = f
      · subst hg; simp
      · simp [hg, Ne.symm hg]
  | none =>
    rcases h.AcquireFrame early_timestamp with hacq | ⟨f, bpm₁, hacq, h₁, hnext₁, hkeep, hleave⟩
    · exact ⟨none, bpm, by simp [BufferPoolManager.FetchPage, hfind, hacq], h,
        PinsAccounted.of_sameMeta (SameMeta.refl bpm) (fun f => by simp) (.inl rfl)⟩
    · have hfresh : bpm₁.page_table_.find? page_id = none := by
        cases hq : bpm₁.page_table_.find? page_id with
        | none => rfl
        | some g => simp [(hkeep _ _ hq).1] at hfind
      obtain ⟨r', htouch, hinst⟩ := h₁.install hfresh hp0
      refine ⟨some f, { bpm₁ with
        replacer_ := r'
        disk_manager_ := (bpm₁.disk_manager_.ReadPage page_id (bpm₁.pages_ f).data_).2
        page_table_ := bpm₁.page_table_.insert page_id f
        pages_ := updateAt bpm₁.pages_ f { bpm₁.pages_ f with
          data_ := (bpm₁.disk_manager_.ReadPage page_id (bpm₁.pages_ f).data_).1
          page_id_ := page_id, pin_count_ := 1, is_dirty_ := false } }, ?_,
        hinst _ rfl rfl rfl rfl (le_refl _) (hnext₁ ▸ hpnext) (fun g hg => by simp [hg]) (by simp)
          (by simp),
        PinsAccounted.install hkeep hleave h₁.held_not_resident hfind rfl rfl
          (fun g hg => by simp [hg]) (by simp)⟩
      simp only [BufferPoolManager.FetchPage, hfind, hacq, htouch, except_ok_bind, except_pure]

theorem Invariant.UnpinPage (h : bpm.Invariant []) (page_id : Int) (is_dirty : Bool) :
    ∃ b bpm', bpm.UnpinPage page_id is_dirty = .ok (b, bpm') ∧ bpm'.Invariant [] ∧
      PinsAccounted bpm (.UnpinPage page_id is_dirty) (.bool b) bpm' := by
  have hsame : PinsAccounted bpm (.UnpinPage page_id is_dirty) (.bool false) bpm :=
    PinsAccounted.of_sameMeta (SameMeta.refl bpm) (fun f => by simp) (.inr (by simp))
  cases hfind : bpm.page_table_.find? page_id with
  | none => exact ⟨false, bpm, by simp [BufferPoolManager.UnpinPage, hfind], h, hsame⟩
  | some f =>
    by_cases hpos : (bpm.pages_ f).pin_count_ ≤ 0
    · exact ⟨false, bpm, by simp [BufferPoolManager.UnpinPage, hfind, Page.GetPinCount, hpos], h,
        hsame⟩
    obtain ⟨r', hset⟩ := LRUKReplacer.exists_SetEvictable
      (show bpm.replacer_.flag f ≠ none by simp [h.flag_of_find? hfind])
      ((bpm.pages_ f).pin_count_ - 1 == 0)
    refine ⟨true, { bpm with
      replacer_ := r'
      pages_ := updateAt bpm.pages_ f { bpm.pages_ f with
        pin_count_ := (bpm.pages_ f).pin_count_ - 1, is_dirty_ := is_dirty } }, ?_,
      h.update_resident hfind rfl (by dsimp only; omega)
        (fun g => (LRUKReplacer.SetEvictable_flag hset g).2)
        (LRUKReplacer.SetEvictable_replacer_size hset)
        (LRUKReplacer.SetEvictable_size_eq hset h.size_eq h.tracked_length),
      fun q g hq => ?_, fun q g hq hne => absurd hq hne⟩
    · simp only [BufferPoolManager.UnpinPage, hfind, Page.GetPinCount, if_neg hpos, hset,
        except_ok_bind, except_pure]
    · show (updateAt bpm.pages_ f _ g).pin_count_ = _
      simp only [updateAt_apply, if_pos hq, reduceCtorEq, if_false, add_zero, Call.unpinned,
        Option.some.injEq, and_true]
      by_cases hg : g = f
      · subst hg
        rw [if_pos rfl, if_pos (h.page_eq hfind hq)]
      · rw [if_neg hg, if_neg fun hqp => hg (Option.some.inj ((hqp ▸ hq).symm.trans hfind))]
        omega

theorem Invariant.DeletePage (h : bpm.Invariant []) (page_id : Int) :
    ∃ b bpm', bpm.DeletePage page_id = .ok (b, bpm') ∧ bpm'.Invariant [] ∧
      PinsAccounted bpm (.DeletePage page_id) (.bool b) bpm' := by
  have hsame : ∀ b, PinsAccounted bpm (.DeletePage page_id) (.bool b) bpm := fun b =>
    PinsAccounted.of_sameMeta (SameMeta.refl bpm) (fun f => by simp) (.inl rfl)
  cases hfind : bpm.page_table_.find? page_id with
  | none => exact ⟨true, bpm, by simp [BufferPoolManager.DeletePage, hfind], h, hsame true⟩
  | some f =>
    by_cases hpos : (bpm.pages_ f).pin_count_ > 0
    · exact ⟨false, bpm, by simp [BufferPoolManager.DeletePage, hfind, Page.GetPinCount, hpos], h,
        hsame false⟩
    have hpin : (bpm.pages_ f).pin_count_ = 0 := by have := h.pin_nonneg _ _ hfind; omega
    obtain ⟨bpm₀, hflush, hm⟩ :=
      flush_if_dirty bpm (h.valid_of_find? hfind) (bpm.pages_ f).is_dirty_
    obtain ⟨n, hn, hev⟩ := h.evictable_of_unpinned hfind hpin
    have hid : (bpm₀.pages_ f).page_id_ = page_id := (hm.page_id f).trans (h.page_id _ _ hfind)
    have h₁ := h.erase_page hfind hpin
      { bpm₀ with
        pages_ := updateAt bpm₀.pages_ f (bpm₀.pages_ f).ResetMemory
        page_table_ := bpm₀.page_table_.erase page_id
        replacer_ := { bpm.replacer_ with
          node_store_ := bpm.replacer_.node_store_.erase f
          evictable_size_ := decMod 64 bpm.replacer_.evictable_size_ } }
      hm.pool_size (by rw [← hm.page_table]) hm.free_list rfl hm.next_page_id
      (fun g => by by_cases hg : g = f <;> simp [hg, hm.page_id, hm.pin_count])
    refine ⟨true, _, ?_, h₁.release, fun q g hq => ?_, fun q g hq hne => ?_⟩
    · simp only [BufferPoolManager.DeletePage, hfind, Page.GetPinCount, if_neg hpos]
      split at hflush
      · simp only [*, except_ok_bind, hm.replacer, LRUKReplacer.Remove_of_evictable hn hev,
          except_pure, Page.GetPageId, Page.ResetMemory_page_id, if_true]
      · simp only [except_pure, Except.ok.injEq] at hflush
        subst hflush
        simp only [*, except_ok_bind, LRUKReplacer.Remove_of_evictable hn hev, except_pure,
          Page.GetPageId, Page.ResetMemory_page_id, Bool.false_eq_true, if_false]
    · simp only [hm.page_table, UnorderedMap.find?_erase] at hq
      split_ifs at hq with hqp
      have hg : g ≠ f := fun hg => hqp (h.page_eq (hg ▸ hq) hfind)
      simp [hg, hm.pin_count, hq, Call.unpinned]
    · have hqp : q = page_id := by
        by_contra hqp
        exact hne (by simpa [hm.page_table, hqp] using hq)
      subst hqp
      rw [Option.some.inj (hq.symm.trans hfind)]
      exact hpin

theorem Invariant.FlushPage (h : bpm.Invariant []) {page_id : Int}
    (hvalid : page_id ≠ INVALID_PAGE_ID) :
    ∃ b bpm', bpm.FlushPage page_id = .ok (b, bpm') ∧ bpm'.Invariant [] ∧
      PinsAccounted bpm (.FlushPage page_id) (.bool b) bpm' := by
  obtain ⟨b, bpm', hflush, hm⟩ := FlushPage_sameMeta bpm hvalid
  exact ⟨b, bpm', hflush, h.of_sameMeta hm,
    PinsAccounted.of_sameMeta hm (fun f => by simp) (.inl rfl)⟩

theorem Invariant.FlushAllPages (h : bpm.Invariant []) :
    ∃ bpm', bpm.FlushAllPages = .ok bpm' ∧ bpm'.Invariant [] ∧
      PinsAccounted bpm .FlushAllPages .done bpm' := by
  obtain ⟨bpm', hflush, hm⟩ := FlushAllPages_sameMeta bpm fun e he =>
    h.valid_of_find? (UnorderedMap.find?_eq_some_iff.2 he)
  exact ⟨bpm', hflush, h.of_sameMeta hm,
    PinsAccounted.of_sameMeta hm (fun f => by simp) (.inl rfl)⟩

/-- One call the client is allowed to make succeeds, keeps the invariant and accounts for its
    pins. -/
theorem Invariant.step (h : bpm.Invariant []) {c : Call} (hc : c.Allowed bpm) :
    ∃ reply bpm', bpm.step c = .ok (reply, bpm') ∧ bpm'.Invariant [] ∧
      PinsAccounted bpm c reply bpm' := by
  cases c with
  | NewPage early_timestamp =>
    obtain ⟨res, bpm', hcall, h', hpins⟩ := h.NewPage hc early_timestamp
    exact ⟨_, bpm', by simp [BufferPoolManager.step, hcall], h', hpins⟩
  | FetchPage page_id early_timestamp =>
    obtain ⟨res, bpm', hcall, h', hpins⟩ := h.FetchPage hc.1 hc.2 early_timestamp
    exact ⟨_, bpm', by simp [BufferPoolManager.step, hcall], h', hpins⟩
  | UnpinPage page_id is_dirty =>
    obtain ⟨b, bpm', hcall, h', hpins⟩ := h.UnpinPage page_id is_dirty
    exact ⟨_, bpm', by simp [BufferPoolManager.step, hcall], h', hpins⟩
  | FlushPage page_id =>
    obtain ⟨b, bpm', hcall, h', hpins⟩ := h.FlushPage hc
    exact ⟨_, bpm', by simp [BufferPoolManager.step, hcall], h', hpins⟩
  | FlushAllPages =>
    obtain ⟨bpm', hcall, h', hpins⟩ := h.FlushAllPages
    exact ⟨_, bpm', by simp [BufferPoolManager.step, hcall], h', hpins⟩
  | DeletePage page_id =>
    obtain ⟨b, bpm', hcall, h', hpins⟩ := h.DeletePage page_id
    exact ⟨_, bpm', by simp [BufferPoolManager.step, hcall], h', hpins⟩
  | Write frame_id data =>
    have hm : SameMeta bpm { bpm with
        pages_ := updateAt bpm.pages_ frame_id { bpm.pages_ frame_id with data_ := data } } :=
      ⟨rfl, rfl, rfl, rfl, rfl, fun g => by by_cases hg : g = frame_id <;> simp [hg],
        fun g => by by_cases hg : g = frame_id <;> simp [hg]⟩
    exact ⟨.done, _, rfl, h.of_sameMeta hm,
      PinsAccounted.of_sameMeta hm (fun f => by simp) (.inl rfl)⟩

/-- `Size` counts the resident unpinned frames. -/
theorem Invariant.Size_eq (h : bpm.Invariant held) :
    bpm.replacer_.Size =
      bpm.page_table_.entries.countP (fun e => (bpm.pages_ e.2).pin_count_ == 0) := by
  have hkeys : List.Perm bpm.replacer_.node_store_.keys bpm.residentFrames := by
    have hres := (List.nodup_append.1 (List.nodup_append.1 h.nodup).1).2.1
    refine (List.perm_ext_iff_of_nodup bpm.replacer_.node_store_.nodup hres).2 fun g => ?_
    have hflag := h.flag g
    change g ∈ bpm.replacer_.node_store_.keys ↔ _
    rw [UnorderedMap.mem_keys_iff]
    simp only [LRUKReplacer.flag] at hflag
    split_ifs at hflag with hg
    · simp only [Option.map_eq_some'] at hflag
      obtain ⟨n, hn, -⟩ := hflag
      exact ⟨fun _ => hg, fun _ => ⟨n, hn⟩⟩
    · simp only [Option.map_eq_none'] at hflag
      simp [hflag, hg]
  rw [LRUKReplacer.Size, h.size_eq, LRUKReplacer.countP_evictable_eq, hkeys.countP_eq,
    residentFrames, List.countP_map]
  refine List.countP_congr fun e he => ?_
  have hflag := h.flag e.2
  rw [if_pos (show e.2 ∈ bpm.residentFrames from List.mem_map_of_mem _ he)] at hflag
  simp [hflag]

/-- The pools a client reaches from a new one by calls that keep its side of the contract. The
    pool has at most `2 ^ 31` frames, the sizes for which the constructor's
    `static_cast<int>(i)` is the frame number `i` itself. -/
inductive Reachable : BufferPoolManager → Prop
  | init (pool_size : Nat) (disk_manager : DiskManager) (replacer_k : Nat)
      (hpool : pool_size ≤ 2 ^ 31) : Reachable (new pool_size disk_manager replacer_k)
  | step {bpm bpm' : BufferPoolManager} {reply : Reply} (c : Call) :
      Reachable bpm → c.Allowed bpm → bpm.step c = .ok (reply, bpm') → Reachable bpm'

/-- Whether every call of a run keeps the client's side of the contract, each in the state it
    is made in. -/
def runAllowed (bpm : BufferPoolManager) : List Call → Bool
  | [] => true
  | c :: cs => decide (c.Allowed bpm) && match bpm.step c with
    | .ok (_, bpm') => runAllowed bpm' cs
    | .error _ => false

theorem Reachable.run {cs : List Call} {bpm' : BufferPoolManager} (hr : Reachable bpm)
    (hallowed : runAllowed bpm cs = true) (hrun : bpm.run cs = .ok bpm') : Reachable bpm' := by
  induction cs generalizing bpm with
  | nil => cases hrun; exact hr
  | cons c cs ih =>
    simp only [runAllowed, Bool.and_eq_true, decide_eq_true_eq] at hallowed
    simp only [BufferPoolManager.run] at hrun
    split at hrun
    · rename_i reply bpm₁ hstep
      rw [hstep] at hallowed
      exact ih (.step c hr hallowed.1 hstep) hallowed.2 hrun
    · cases hrun

end Calls

/-- Every pool a client reaches keeping its side of the contract satisfies the invariant, and
    `Size` counts its resident unpinned frames. Every call the client may make next succeeds,
    so no assertion of the replacer fails, and moves pin counts only as `PinsAccounted` says:
    a frame is taken from a page only when that page is unpinned. -/
theorem Reachable.pool_invariant {bpm : BufferPoolManager} (hr : Reachable bpm) :
    bpm.Invariant [] ∧
      bpm.replacer_.Size =
        bpm.page_table_.entries.countP (fun e => (bpm.pages_ e.2).pin_count_ == 0) ∧
      ∀ c, c.Allowed bpm → ∃ reply bpm', bpm.step c = .ok (reply, bpm') ∧
        PinsAccounted bpm c reply bpm' := by
  have h : bpm.Invariant [] := by
    induction hr with
    | init pool_size disk_manager replacer_k hpool =>
      exact Invariant.new pool_size disk_manager replacer_k (lt_of_le_of_lt hpool (by decide))
    | step c _ hc hstep ih =>
      obtain ⟨reply, bpm', hstep', h', -⟩ := ih.step hc
      rw [hstep, Except.ok.injEq, Prod.mk.injEq] at hstep'
      exact hstep'.2 ▸ h'
  refine ⟨h, h.Size_eq, fun c hc => ?_⟩
  obtain ⟨reply, bpm', hstep, -, hpins⟩ := h.step hc
  exact ⟨reply, bpm', hstep, hpins⟩

theorem pool_invariant_after_evicting_fetch :
    ∃ bpm, (new 1 DiskManager.new 2).run [.NewPage 0, .UnpinPage 0 false, .NewPage 0,
        .UnpinPage 1 true, .FetchPage 0 0] = .ok bpm ∧
      (bpm.Invariant [] ∧
        bpm.replacer_.Size =
          bpm.page_table_.entries.countP (fun e => (bpm.pages_ e.2).pin_count_ == 0) ∧
        ∀ c, c.Allowed bpm → ∃ reply bpm', bpm.step c = .ok (reply, bpm') ∧
          PinsAccounted bpm c reply bpm') := by
  obtain ⟨bpm, hrun⟩ : ∃ bpm, (new 1 DiskManager.new 2).run [.NewPage 0, .UnpinPage 0 false,
      .NewPage 0, .UnpinPage 1 true, .FetchPage 0 0] = .ok bpm := ⟨_, rfl⟩
  exact ⟨bpm, hrun, Reachable.pool_invariant
    (Reachable.run (.init 1 DiskManager.new 2 (by decide)) (by decide) hrun)⟩

/-- `FetchPage` of a page id that `NewPage` has not handed out yet reads it into frame `0`;
    the `NewPage` that then hands out that id maps it to frame `1`. Frame `0` is lost: on
    neither the free list nor the page table, yet tracked by the replacer, pinned. -/
theorem FetchPage_unallocated_orphans_frame :
    ∃ bpm, (new 2 DiskManager.new 2).run [.FetchPage 0 0, .NewPage 0] = .ok bpm ∧
      bpm.page_table_.entries = [(0, 1)] ∧ bpm.free_list_ = [] ∧
      bpm.replacer_.flag 0 = some false ∧ (bpm.pages_ 0).pin_count_ = 1 :=
  ⟨_, rfl, by decide, by decide, by decide, by decide⟩

end BufferPoolManager

end bustub
