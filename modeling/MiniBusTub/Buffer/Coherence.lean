import MiniBusTub.Buffer.Durability

namespace bustub

namespace BufferPoolManager

/-- The bytes of page `p` as the pool gives them back: its frame's if it is resident, what the
    file returns for it otherwise. -/
def view (bpm : BufferPoolManager) (p : Int) : PageData :=
  match bpm.page_table_.find? p with
  | some f => (bpm.pages_ f).data_
  | none => (bpm.disk_manager_.ReadPage p fun _ => 0).1

/-- A client that reports every unpin as dirty, whether or not it wrote the page. -/
def Call.ReportsDirty : Call → Prop
  | .UnpinPage _ is_dirty => is_dirty = true
  | _ => True

instance Call.decReportsDirty : (c : Call) → Decidable c.ReportsDirty
  | .UnpinPage _ is_dirty => inferInstanceAs (Decidable (is_dirty = true))
  | .NewPage _ | .FetchPage _ _ | .FlushPage _ | .FlushAllPages | .DeletePage _ | .Write _ _ =>
    instDecidableTrue

/-- What a call does to the ideal page store: `NewPage` starts the page it hands out as zeros,
    a write replaces the bytes of the page its frame holds, and no other call changes a page. -/
def Call.ideal (bpm : BufferPoolManager) (store : Int → PageData) : Call → Reply → Int → PageData
  | .NewPage _, .frame (some _) => updateAt store bpm.next_page_id_ fun _ => 0
  | .Write frame_id data, _ => updateAt store (bpm.pages_ frame_id).page_id_ data
  | _, _ => store

/-- The page whose frame a call returns: the one `NewPage` hands out, or `FetchPage`'s. -/
def Call.fetched (bpm : BufferPoolManager) : Call → Option Int
  | .NewPage _ => some bpm.next_page_id_
  | .FetchPage page_id _ => some page_id
  | _ => none

/-- The ideal page store along a run, each call's effect read in the state it is made in. -/
def idealRun (bpm : BufferPoolManager) (store : Int → PageData) : List Call → Int → PageData
  | [] => store
  | c :: cs => match bpm.step c with
    | .ok (reply, bpm') => idealRun bpm' (c.ideal bpm store reply) cs
    | .error _ => store

/-- No frame holds two pages. -/
def Injective (bpm : BufferPoolManager) : Prop :=
  ∀ {p q f : Int}, bpm.page_table_.find? p = some f → bpm.page_table_.find? q = some f → p = q

/-- The frames and the file agree as a page store: the file holds its last writes, every
    allocated page that is not resident has been written, and an unpinned clean frame holds
    what the file holds for its page. -/
structure Coherent (bpm : BufferPoolManager) (written : Int → Option PageData) : Prop where
  stores : bpm.disk_manager_.Stores written
  evicted : ∀ p, 0 ≤ p → p < bpm.next_page_id_ → bpm.page_table_.find? p = none →
    (written p).isSome
  clean : ∀ p f, bpm.page_table_.find? p = some f → (bpm.pages_ f).pin_count_ = 0 →
    (bpm.pages_ f).is_dirty_ = false → written p = some (bpm.pages_ f).data_

section Frames

variable {bpm bpm' : BufferPoolManager} {written written' : Int → Option PageData}

/-- Coherence reads only the file, the counter, the page table and the frames. -/
theorem Coherent.congr (hc : bpm.Coherent written)
    (hdisk : bpm'.disk_manager_ = bpm.disk_manager_)
    (hnext : bpm'.next_page_id_ = bpm.next_page_id_) (htable : bpm'.page_table_ = bpm.page_table_)
    (hpages : bpm'.pages_ = bpm.pages_) : bpm'.Coherent written :=
  ⟨by rw [hdisk]; exact hc.stores, by rw [hnext, htable]; exact hc.evicted,
    by rw [htable, hpages]; exact hc.clean⟩

theorem view_of_find? {p f : Int} (hp : bpm.page_table_.find? p = some f) :
    bpm.view p = (bpm.pages_ f).data_ := by
  simp only [view, hp]

/-- An allocated page that is not resident reads back as its last write. -/
theorem Coherent.written_of_none (hc : bpm.Coherent written) {p : Int} (hp0 : 0 ≤ p)
    (hpn : p < bpm.next_page_id_) (hp : bpm.page_table_.find? p = none) :
    written p = some (bpm.view p) := by
  obtain ⟨d, hd⟩ := Option.isSome_iff_exists.1 (hc.evicted p hp0 hpn hp)
  rw [hd, view, hp, hc.stores.ReadPage_eq hd]

/-- Two coherent pools in which page `q` is not resident and was last written alike give it the
    same bytes. -/
theorem Coherent.view_congr (hc : bpm.Coherent written) (hc' : bpm'.Coherent written')
    {q : Int} (hq0 : 0 ≤ q) (hq : q < bpm.next_page_id_) (hq' : q < bpm'.next_page_id_)
    (hnone : bpm.page_table_.find? q = none) (hnone' : bpm'.page_table_.find? q = none)
    (hW : written' q = written q) : bpm'.view q = bpm.view q :=
  Option.some.inj ((hc'.written_of_none hq0 hq' hnone').symm.trans
    (hW.trans (hc.written_of_none hq0 hq hnone)))

/-- Changing the frame of resident page `p`, and the replacer, keeps the pool coherent if the
    frame, when unpinned and clean, still holds the page's last write; only `p` changes bytes. -/
theorem Coherent.update (hc : bpm.Coherent written) (hinj : bpm.Injective) {p f : Int}
    (hp : bpm.page_table_.find? p = some f) (r : LRUKReplacer) (pg : Page)
    (hclean : pg.pin_count_ = 0 → pg.is_dirty_ = false → written p = some pg.data_) :
    { bpm with replacer_ := r, pages_ := updateAt bpm.pages_ f pg }.Coherent written ∧
      ∀ q, { bpm with replacer_ := r, pages_ := updateAt bpm.pages_ f pg }.view q =
        if q = p then pg.data_ else bpm.view q := by
  refine ⟨⟨hc.stores, hc.evicted, fun q g hq hpin hdirty => ?_⟩, fun q => ?_⟩
  · dsimp only at hq hpin hdirty ⊢
    rw [updateAt_apply] at hpin hdirty ⊢
    split_ifs at hpin hdirty ⊢ with hg
    · subst hg
      rw [hinj hq hp]
      exact hclean hpin hdirty
    · exact hc.clean q g hq hpin hdirty
  · split_ifs with hq
    · subst hq
      simp only [view, hp, updateAt_apply, if_pos]
    · unfold view
      dsimp only
      split
      · rename_i g hg
        rw [updateAt_apply, if_neg fun (hgf : g = f) => hq (hinj hg (hgf ▸ hp))]
      · rfl

/-- Dropping resident page `p` from the page table, once the file holds its frame's bytes,
    keeps the pool coherent and every page's bytes, whatever then happens to its frame. -/
theorem Coherent.erase (hc : bpm.Coherent written) (hinj : bpm.Injective) {p f : Int}
    (hp : bpm.page_table_.find? p = some f) (hW : written p = some (bpm.pages_ f).data_)
    (bpm' : BufferPoolManager) (htable : bpm'.page_table_ = bpm.page_table_.erase p)
    (hnext : bpm'.next_page_id_ = bpm.next_page_id_)
    (hdisk : bpm'.disk_manager_ = bpm.disk_manager_)
    (hpages : ∀ g, g ≠ f → bpm'.pages_ g = bpm.pages_ g) :
    bpm'.Coherent written ∧ ∀ q, bpm'.view q = bpm.view q := by
  have hfind : ∀ q, bpm'.page_table_.find? q = if q = p then none else bpm.page_table_.find? q :=
    fun q => by rw [htable, UnorderedMap.find?_erase]
  refine ⟨⟨hdisk ▸ hc.stores, fun q hq0 hqn hq => ?_, fun q g hq hpin hdirty => ?_⟩, fun q => ?_⟩
  · rw [hfind] at hq
    split_ifs at hq with hqp
    · rw [hqp, hW]
      rfl
    · exact hc.evicted q hq0 (hnext ▸ hqn) hq
  · rw [hfind] at hq
    split_ifs at hq with hqp
    have hgf : g ≠ f := fun hgf => hqp (hinj hq (hgf ▸ hp))
    rw [hpages g hgf] at hpin hdirty ⊢
    exact hc.clean q g hq hpin hdirty
  · unfold view
    rw [hfind, hdisk]
    split_ifs with hqp
    · subst hqp
      rw [hp, hc.stores.ReadPage_eq hW]
    · split
      · rename_i g hg
        rw [hpages g fun hgf => hqp (hinj hg (hgf ▸ hp))]
      · rfl

/-- Installing page `p` pinned in a frame no page holds keeps the pool coherent
    while the file keeps its last writes; no other allocated page changes bytes. -/
theorem Coherent.install (hc : bpm.Coherent written) {p f : Int}
    (hf : ∀ q, bpm.page_table_.find? q ≠ some f) (bpm' : BufferPoolManager)
    (htable : bpm'.page_table_ = bpm.page_table_.insert p f)
    (hle : bpm.next_page_id_ ≤ bpm'.next_page_id_)
    (hnew : ∀ q, q < bpm'.next_page_id_ → q < bpm.next_page_id_ ∨ q = p)
    (hstores : bpm'.disk_manager_.Stores written)
    (hpages : ∀ g, g ≠ f → bpm'.pages_ g = bpm.pages_ g) (hpin : 0 < (bpm'.pages_ f).pin_count_) :
    bpm'.Coherent written ∧ bpm'.view p = (bpm'.pages_ f).data_ ∧
      ∀ q, 0 ≤ q → q < bpm.next_page_id_ → q ≠ p → bpm'.view q = bpm.view q := by
  have hfind : ∀ q, bpm'.page_table_.find? q = if q = p then some f else bpm.page_table_.find? q :=
    fun q => by rw [htable, UnorderedMap.find?_insert]
  have hne : ∀ {q g}, bpm.page_table_.find? q = some g → g ≠ f := fun hq hgf => hf _ (hgf ▸ hq)
  have hc' : bpm'.Coherent written := by
    refine ⟨hstores, fun q hq0 hqn hq => ?_, fun q g hq hpin' hdirty => ?_⟩
    · rw [hfind] at hq
      split_ifs at hq with hqp
      exact hc.evicted q hq0 ((hnew q hqn).resolve_right hqp) hq
    · rw [hfind] at hq
      split_ifs at hq with hqp
      · cases hq
        omega
      · rw [hpages g (hne hq)] at hpin' hdirty ⊢
        exact hc.clean q g hq hpin' hdirty
  refine ⟨hc', by simp only [view, hfind, if_pos], fun q hq0 hqn hqp => ?_⟩
  cases hq : bpm.page_table_.find? q with
  | none => exact hc.view_congr hc' hq0 hqn (by omega) hq (by rw [hfind, if_neg hqp, hq]) rfl
  | some g =>
    rw [view_of_find? hq, view_of_find? (by rw [hfind, if_neg hqp, hq]), hpages g (hne hq)]

/-- `FlushPage` keeps the pool coherent and every allocated page's bytes, changes no metadata
    and no frame's bytes, and leaves the flushed page's frame bytes as its last write. -/
theorem Coherent.FlushPage (hc : bpm.Coherent written) (hinj : bpm.Injective)
    (hin : bpm.InFile) {page_id : Int} {b : Bool} (hflush : bpm.FlushPage page_id = .ok (b, bpm')) :
    ∃ W, bpm'.Coherent W ∧ SameMeta bpm bpm' ∧
      (∀ f, (bpm'.pages_ f).data_ = (bpm.pages_ f).data_) ∧
      (∀ q, 0 ≤ q → q < bpm.next_page_id_ → bpm'.view q = bpm.view q) ∧
      ∀ f, bpm.page_table_.find? page_id = some f → W page_id = some (bpm.pages_ f).data_ := by
  cases hp : bpm.page_table_.find? page_id with
  | none =>
    have hnone : bpm.FlushPage page_id = .ok (false, bpm) := by
      unfold BufferPoolManager.FlushPage at hflush ⊢
      split_ifs at hflush ⊢
      rw [hp]
    rw [hnone, Except.ok.injEq, Prod.mk.injEq] at hflush
    obtain ⟨-, rfl⟩ := hflush
    exact ⟨written, hc, SameMeta.refl bpm, fun _ => rfl, fun _ _ _ => rfl, nofun⟩
  | some f =>
    obtain ⟨hlo, hhi⟩ := hin _ _ hp
    obtain ⟨bpm'', hflush'', hmeta, hdata, hstores⟩ := FlushPage_stores hc.stores hp hlo hhi
    rw [hflush'', Except.ok.injEq, Prod.mk.injEq] at hflush
    obtain ⟨-, rfl⟩ := hflush
    have hvalid : page_id ≠ INVALID_PAGE_ID := by rw [INVALID_PAGE_ID]; omega
    have hpages : ∀ g, g ≠ f → bpm''.pages_ g = bpm.pages_ g := by
      simp only [BufferPoolManager.FlushPage, if_neg hvalid, hp, Except.ok.injEq,
        Prod.mk.injEq] at hflush''
      obtain ⟨-, rfl⟩ := hflush''
      exact fun g hg => by simp [hg]
    have hW : ∀ q, q ≠ page_id →
        updateAt written page_id (some (bpm.pages_ f).data_) q = written q :=
      fun q hq => by rw [updateAt_apply, if_neg hq]
    have hc' : bpm''.Coherent (updateAt written page_id (some (bpm.pages_ f).data_)) := by
      refine ⟨hstores, fun q hq0 hqn hq => ?_, fun q g hq hpin hdirty => ?_⟩
      · rw [hmeta.page_table] at hq
        have hqp : q ≠ page_id := by rintro rfl; rw [hp] at hq; cases hq
        rw [hW q hqp]
        exact hc.evicted q hq0 (hmeta.next_page_id ▸ hqn) hq
      · rw [hmeta.page_table] at hq
        by_cases hqp : q = page_id
        · subst hqp
          rw [Option.some.inj (hq.symm.trans hp), hdata, updateAt_apply, if_pos rfl]
        · have hgf : g ≠ f := fun hgf => hqp (hinj hq (hgf ▸ hp))
          rw [hpages g hgf] at hpin hdirty ⊢
          rw [hW q hqp]
          exact hc.clean q g hq hpin hdirty
    refine ⟨_, hc', hmeta, hdata, fun q hq0 hqn => ?_, fun g hg => ?_⟩
    · cases hq : bpm.page_table_.find? q with
      | none =>
        have hqp : q ≠ page_id := by rintro rfl; rw [hp] at hq; cases hq
        exact hc.view_congr hc' hq0 hqn (hmeta.next_page_id ▸ hqn) hq
          (hmeta.page_table ▸ hq) (hW q hqp)
      | some g => rw [view_of_find? hq, view_of_find? (hmeta.page_table ▸ hq), hdata]
    · rw [← Option.some.inj hg, updateAt_apply, if_pos rfl]

/-- Flushing pages one after another keeps the pool coherent and every allocated page's bytes,
    and changes no metadata. -/
theorem Coherent.foldlM_FlushPage : ∀ (l : List (Int × Int)) {acc : BufferPoolManager}
    {written : Int → Option PageData}, acc.Coherent written → acc.Injective → acc.InFile →
    l.foldlM (fun bpm e => (·.2) <$> bpm.FlushPage e.1) acc = .ok bpm' →
    ∃ W, bpm'.Coherent W ∧ SameMeta acc bpm' ∧
      ∀ q, 0 ≤ q → q < acc.next_page_id_ → bpm'.view q = acc.view q
  | [], acc, written, hc, _, _, hfold => by
    cases hfold
    exact ⟨written, hc, SameMeta.refl _, fun _ _ _ => rfl⟩
  | e :: l, acc, _, hc, hinj, hin, hfold => by
    obtain ⟨acc₁, h₁, hfold⟩ := except_bind_eq_ok.1 hfold
    obtain ⟨⟨b, acc₂⟩, hf, rfl⟩ := except_map_eq_ok.1 h₁
    obtain ⟨W₁, hc₁, hmeta₁, -, hview₁, -⟩ := hc.FlushPage hinj hin hf
    have ht := hmeta₁.page_table
    obtain ⟨W, hc', hmeta, hview⟩ := Coherent.foldlM_FlushPage l hc₁
      (fun hp hq => hinj (ht ▸ hp) (ht ▸ hq)) (fun p f hp => hin p f (ht ▸ hp)) hfold
    exact ⟨W, hc', hmeta₁.trans hmeta, fun q hq0 hqn =>
      (hview q hq0 (hmeta₁.next_page_id ▸ hqn)).trans (hview₁ q hq0 hqn)⟩

/-- A frame the replacer evicts holds an unpinned page. -/
theorem Invariant.victim (h : bpm.Invariant []) {early_timestamp : Nat} {fid : Int}
    {R : LRUKReplacer} (hev : bpm.replacer_.Evict early_timestamp = (some fid, R)) :
    ∃ p, bpm.page_table_.find? p = some fid ∧ (bpm.pages_ fid).pin_count_ = 0 := by
  rcases LRUKReplacer.Evict_victim bpm.replacer_ early_timestamp with
    ⟨hnone, -⟩ | ⟨f, n, hsome, hmem, hn, -⟩
  · rw [hev] at hnone
    cases hnone
  · rw [hev] at hsome
    cases hsome
    have hflag := h.flag fid
    simp only [LRUKReplacer.flag, UnorderedMap.find?_eq_some_iff.2 hmem, Option.map_some',
      hn] at hflag
    split_ifs at hflag with hres
    obtain ⟨p, hp⟩ := mem_residentFrames.1 hres
    exact ⟨p, hp, by simpa using hflag.symm⟩

/-- The frame `AcquireFrame` takes holds no page afterwards, and no page gains a frame; the
    pool stays coherent and keeps every allocated page's bytes, a dirty victim being written
    back first. -/
theorem Coherent.AcquireFrame (h : bpm.Invariant []) (hc : bpm.Coherent written)
    (hin : bpm.InFile) {early_timestamp : Nat} {f : Int} {bpm₁ : BufferPoolManager}
    (hacq : bpm.AcquireFrame early_timestamp = .ok (some f, bpm₁)) :
    ∃ W, bpm₁.Coherent W ∧ (∀ q, 0 ≤ q → q < bpm.next_page_id_ → bpm₁.view q = bpm.view q) ∧
      (∀ q, bpm₁.page_table_.find? q ≠ some f) ∧ bpm₁.next_page_id_ = bpm.next_page_id_ ∧
      ∀ q g, bpm₁.page_table_.find? q = some g → bpm.page_table_.find? q = some g := by
  obtain ⟨hnf, hnext, hkeep⟩ : (∀ q, bpm₁.page_table_.find? q ≠ some f) ∧
      bpm₁.next_page_id_ = bpm.next_page_id_ ∧
      ∀ q g, bpm₁.page_table_.find? q = some g → bpm.page_table_.find? q = some g := by
    rcases h.AcquireFrame early_timestamp with hacq' | ⟨f', bpm₁', hacq', h₁, hnext₁, hkeep, -⟩
    · rw [hacq] at hacq'
      cases hacq'
    · rw [hacq, Except.ok.injEq, Prod.mk.injEq, Option.some.injEq] at hacq'
      obtain ⟨rfl, rfl⟩ := hacq'
      exact ⟨fun q hq => h₁.held_not_resident (mem_residentFrames.2 ⟨q, hq⟩), hnext₁,
        fun q g hq => (hkeep q g hq).1⟩
  suffices hW : ∃ W, bpm₁.Coherent W ∧
      ∀ q, 0 ≤ q → q < bpm.next_page_id_ → bpm₁.view q = bpm.view q by
    obtain ⟨W, hc₁, hview⟩ := hW
    exact ⟨W, hc₁, hview, hnf, hnext, hkeep⟩
  unfold BufferPoolManager.AcquireFrame at hacq
  split at hacq
  · cases hacq
    exact ⟨written, hc.congr rfl rfl rfl rfl, fun _ _ _ => rfl⟩
  · split at hacq
    · cases hacq
    · rename_i fid R hev
      obtain ⟨p, hp, hpin⟩ := h.victim hev
      have hid : (bpm.pages_ fid).GetPageId = p := h.page_id p fid hp
      dsimp only at hacq
      rw [hid] at hacq
      split at hacq
      · -- a dirty victim is written back first
        obtain ⟨bpm₀, h₀, hacq⟩ := except_bind_eq_ok.1 hacq
        obtain ⟨⟨b, bpm₀⟩, hflush, rfl⟩ := except_map_eq_ok.1 h₀
        cases hacq
        have hcR : { bpm with replacer_ := R }.Coherent written := hc.congr rfl rfl rfl rfl
        obtain ⟨W₀, hc₀, hmeta, hdata, hview, hW₀⟩ := hcR.FlushPage h.page_eq hin hflush
        obtain ⟨hc₁, hview₁⟩ := hc₀.erase (fun hp hq => h.page_eq (hmeta.page_table ▸ hp)
          (hmeta.page_table ▸ hq)) (hmeta.page_table ▸ hp) ((hW₀ f hp).trans (by rw [hdata]))
          { bpm₀ with page_table_ := bpm₀.page_table_.erase p } rfl rfl rfl fun _ _ => rfl
        exact ⟨W₀, hc₁, fun q hq0 hqn => (hview₁ q).trans (hview q hq0 hqn)⟩
      · rename_i hclean
        cases hacq
        have hcR : { bpm with replacer_ := R }.Coherent written := hc.congr rfl rfl rfl rfl
        obtain ⟨hc₁, hview₁⟩ := hcR.erase h.page_eq hp
          (hc.clean p f hp hpin (by simpa [Page.IsDirty] using hclean))
          { bpm with replacer_ := R, page_table_ := bpm.page_table_.erase p } rfl rfl rfl
          fun _ _ => rfl
        exact ⟨written, hc₁, fun q _ _ => hview₁ q⟩

end Frames

section Calls

variable {bpm bpm' : BufferPoolManager} {written : Int → Option PageData}

/-- `AcquireFrame` that finds no frame changes nothing. -/
theorem AcquireFrame_none (h : bpm.Invariant []) {early_timestamp : Nat}
    (hacq : bpm.AcquireFrame early_timestamp = .ok (none, bpm')) : bpm' = bpm := by
  rcases h.AcquireFrame early_timestamp with hacq' | ⟨f, bpm₁, hacq', -⟩
  · rw [hacq, Except.ok.injEq, Prod.mk.injEq] at hacq'
    exact hacq'.2
  · rw [hacq] at hacq'
    cases hacq'

/-- `NewPage` keeps the pool coherent and every allocated page's bytes; the page it hands out,
    the counter's value, is resident in the frame it returns, which holds zeros. -/
theorem Coherent.NewPage (h : bpm.Invariant []) (hc : bpm.Coherent written) (hin : bpm.InFile)
    (hnext : bpm.next_page_id_ < 2 ^ 31 - 1) {early_timestamp : Nat} {res : Option (Int × Int)}
    (hnew : bpm.NewPage early_timestamp = .ok (res, bpm')) :
    ∃ W, bpm'.Coherent W ∧ (∀ q, 0 ≤ q → q < bpm.next_page_id_ → bpm'.view q = bpm.view q) ∧
      ∀ f, res.map (·.2) = some f →
        bpm'.view bpm.next_page_id_ = (fun _ => 0) ∧ (bpm'.pages_ f).data_ = fun _ => 0 := by
  obtain ⟨⟨frame?, bpm₁⟩, hacq, hnew⟩ := except_bind_eq_ok.1 hnew
  cases frame? with
  | none =>
    cases hnew
    cases AcquireFrame_none h hacq
    exact ⟨written, hc, fun _ _ _ => rfl, nofun⟩
  | some f =>
    obtain ⟨W₁, hc₁, hview₁, hnf, hnext₁, -⟩ := hc.AcquireFrame h hin hacq
    obtain ⟨r', -, hnew⟩ := except_bind_eq_ok.1 hnew
    cases hnew
    have h32 : toInt32 (bpm₁.next_page_id_ + 1) = bpm₁.next_page_id_ + 1 :=
      toInt32_of_lt (by have := h.next_nonneg; omega) (by omega)
    obtain ⟨hc', hp', hview'⟩ := hc₁.install hnf { bpm₁ with
        next_page_id_ := toInt32 (bpm₁.next_page_id_ + 1)
        replacer_ := r'
        page_table_ := bpm₁.page_table_.insert bpm₁.next_page_id_ f
        pages_ := updateAt bpm₁.pages_ f { (bpm₁.pages_ f).ResetMemory with
          pin_count_ := 1, page_id_ := bpm₁.next_page_id_, is_dirty_ := false } }
      rfl (by dsimp only; omega) (fun q hq => by dsimp only at hq; omega) hc₁.stores
      (fun g hg => by simp [hg]) (by simp)
    refine ⟨W₁, hc', fun q hq0 hqn => ?_, fun f' hf' => ?_⟩
    · have hqn' : q ≠ bpm₁.next_page_id_ := by omega
      exact (hview' q hq0 (hnext₁ ▸ hqn) hqn').trans (hview₁ q hq0 hqn)
    · cases hf'
      have hdata : (updateAt bpm₁.pages_ f { (bpm₁.pages_ f).ResetMemory with
          pin_count_ := 1, page_id_ := bpm₁.next_page_id_, is_dirty_ := false } f).data_ =
          fun _ => 0 := by simp [Page.ResetMemory]
      exact ⟨hnext₁ ▸ hp'.trans hdata, hdata⟩

/-- `FetchPage` of an allocated page keeps the pool coherent and every allocated page's bytes,
    and the frame it returns holds that page's bytes. -/
theorem Coherent.FetchPage (h : bpm.Invariant []) (hc : bpm.Coherent written)
    (hin : bpm.InFile) {page_id : Int} (hp0 : 0 ≤ page_id) (hpn : page_id < bpm.next_page_id_)
    {early_timestamp : Nat} {res : Option Int}
    (hfetch : bpm.FetchPage page_id early_timestamp = .ok (res, bpm')) :
    ∃ W, bpm'.Coherent W ∧ (∀ q, 0 ≤ q → q < bpm.next_page_id_ → bpm'.view q = bpm.view q) ∧
      ∀ f, res = some f → (bpm'.pages_ f).data_ = bpm.view page_id := by
  unfold BufferPoolManager.FetchPage at hfetch
  split at hfetch
  · -- resident: one more pin, and marked dirty
    rename_i f hf
    obtain ⟨r', -, hfetch⟩ := except_bind_eq_ok.1 hfetch
    cases hfetch
    obtain ⟨hc', hview⟩ := hc.update h.page_eq hf r' { bpm.pages_ f with
      pin_count_ := (bpm.pages_ f).pin_count_ + 1, is_dirty_ := true } fun _ => nofun
    refine ⟨written, hc', fun q _ _ => ?_, fun f' hf' => ?_⟩
    · rw [hview]
      split_ifs with hq
      · rw [hq, view_of_find? hf]
      · rfl
    · cases hf'
      simp [view_of_find? hf]
  · rename_i hnone
    obtain ⟨⟨frame?, bpm₁⟩, hacq, hfetch⟩ := except_bind_eq_ok.1 hfetch
    cases frame? with
    | none =>
      cases hfetch
      cases AcquireFrame_none h hacq
      exact ⟨written, hc, fun _ _ _ => rfl, nofun⟩
    | some f =>
      obtain ⟨W₁, hc₁, hview₁, hnf, hnext₁, hkeep⟩ := hc.AcquireFrame h hin hacq
      obtain ⟨r', -, hfetch⟩ := except_bind_eq_ok.1 hfetch
      cases hfetch
      have hnone₁ : bpm₁.page_table_.find? page_id = none := by
        cases hq : bpm₁.page_table_.find? page_id with
        | none => rfl
        | some g => exact absurd (hkeep _ g hq) (by rw [hnone]; nofun)
      -- the page is read back as its last write, which is its bytes
      have hread : (bpm₁.disk_manager_.ReadPage page_id (bpm₁.pages_ f).data_).1 =
          bpm.view page_id := by
        rw [hc₁.stores.ReadPage_eq (hc₁.written_of_none hp0 (hnext₁ ▸ hpn) hnone₁),
          hview₁ _ hp0 hpn]
      obtain ⟨hc', hp', hview'⟩ := hc₁.install hnf { bpm₁ with
          replacer_ := r'
          disk_manager_ := (bpm₁.disk_manager_.ReadPage page_id (bpm₁.pages_ f).data_).2
          page_table_ := bpm₁.page_table_.insert page_id f
          pages_ := updateAt bpm₁.pages_ f { bpm₁.pages_ f with
            data_ := (bpm₁.disk_manager_.ReadPage page_id (bpm₁.pages_ f).data_).1
            page_id_ := page_id, pin_count_ := 1, is_dirty_ := false } }
        rfl le_rfl (fun q hq => .inl hq) (hc₁.stores.ReadPage _ _) (fun g hg => by simp [hg])
        (by simp)
      have hdata : (updateAt bpm₁.pages_ f { bpm₁.pages_ f with
          data_ := (bpm₁.disk_manager_.ReadPage page_id (bpm₁.pages_ f).data_).1
          page_id_ := page_id, pin_count_ := 1, is_dirty_ := false } f).data_ =
          bpm.view page_id := by simp [hread]
      refine ⟨W₁, hc', fun q hq0 hqn => ?_, fun f' hf' => ?_⟩
      · by_cases hqp : q = page_id
        · subst hqp
          exact hp'.trans hdata
        · exact (hview' q hq0 (hnext₁ ▸ hqn) hqp).trans (hview₁ q hq0 hqn)
      · cases hf'
        exact hdata

/-- `UnpinPage` that reports the page dirty keeps the pool coherent and every page's bytes. -/
theorem Coherent.UnpinPage (h : bpm.Invariant []) (hc : bpm.Coherent written) {page_id : Int}
    {b : Bool} (hunpin : bpm.UnpinPage page_id true = .ok (b, bpm')) :
    bpm'.Coherent written ∧ ∀ q, bpm'.view q = bpm.view q := by
  unfold BufferPoolManager.UnpinPage at hunpin
  split at hunpin
  · cases hunpin
    exact ⟨hc, fun _ => rfl⟩
  · rename_i f hf
    dsimp only at hunpin
    split_ifs at hunpin
    · cases hunpin
      exact ⟨hc, fun _ => rfl⟩
    · obtain ⟨r', -, hunpin⟩ := except_bind_eq_ok.1 hunpin
      cases hunpin
      obtain ⟨hc', hview⟩ := hc.update h.page_eq hf r' { bpm.pages_ f with
        pin_count_ := (bpm.pages_ f).pin_count_ - 1, is_dirty_ := true } fun _ => nofun
      refine ⟨hc', fun q => ?_⟩
      rw [hview]
      split_ifs with hq
      · rw [hq, view_of_find? hf]
      · rfl

/-- `DeletePage` keeps the pool coherent and every allocated page's bytes: an unpinned page
    leaves its frame only once the file holds its bytes. -/
theorem Coherent.DeletePage (h : bpm.Invariant []) (hc : bpm.Coherent written)
    (hin : bpm.InFile) {page_id : Int} {b : Bool}
    (hdel : bpm.DeletePage page_id = .ok (b, bpm')) :
    ∃ W, bpm'.Coherent W ∧ ∀ q, 0 ≤ q → q < bpm.next_page_id_ → bpm'.view q = bpm.view q := by
  unfold BufferPoolManager.DeletePage at hdel
  split at hdel
  · cases hdel
    exact ⟨written, hc, fun _ _ _ => rfl⟩
  rename_i f hf
  -- once the file holds the page's bytes, dropping it keeps every page's bytes
  have hdrop : ∀ (bpm₀ : BufferPoolManager) (W₀ : Int → Option PageData) (r' : LRUKReplacer),
      bpm₀.Coherent W₀ → SameMeta bpm bpm₀ → (∀ g, (bpm₀.pages_ g).data_ = (bpm.pages_ g).data_) →
      (∀ q, 0 ≤ q → q < bpm.next_page_id_ → bpm₀.view q = bpm.view q) →
      W₀ page_id = some (bpm.pages_ f).data_ → ∃ W, { bpm₀ with
        pages_ := updateAt bpm₀.pages_ f (bpm₀.pages_ f).ResetMemory
        page_table_ := bpm₀.page_table_.erase (bpm₀.pages_ f).ResetMemory.GetPageId
        replacer_ := r'
        free_list_ := bpm₀.free_list_ ++ [f] }.Coherent W ∧
        ∀ q, 0 ≤ q → q < bpm.next_page_id_ → { bpm₀ with
          pages_ := updateAt bpm₀.pages_ f (bpm₀.pages_ f).ResetMemory
          page_table_ := bpm₀.page_table_.erase (bpm₀.pages_ f).ResetMemory.GetPageId
          replacer_ := r'
          free_list_ := bpm₀.free_list_ ++ [f] }.view q = bpm.view q := by
    intro bpm₀ W₀ r' hc₀ hmeta hdata hview₀ hW₀
    have hid : (bpm₀.pages_ f).ResetMemory.GetPageId = page_id :=
      (hmeta.page_id f).trans (h.page_id _ _ hf)
    obtain ⟨hc', hview'⟩ := hc₀.erase (fun hp hq => h.page_eq (hmeta.page_table ▸ hp)
      (hmeta.page_table ▸ hq)) (hmeta.page_table ▸ hf) (hW₀.trans (by rw [hdata]))
      { bpm₀ with
        pages_ := updateAt bpm₀.pages_ f (bpm₀.pages_ f).ResetMemory
        page_table_ := bpm₀.page_table_.erase (bpm₀.pages_ f).ResetMemory.GetPageId
        replacer_ := r'
        free_list_ := bpm₀.free_list_ ++ [f] }
      (by rw [hid]) rfl rfl fun g hg => by simp [hg]
    exact ⟨W₀, hc', fun q hq0 hqn => (hview' q).trans (hview₀ q hq0 hqn)⟩
  split_ifs at hdel with hpos hdirty
  · cases hdel
    exact ⟨written, hc, fun _ _ _ => rfl⟩
  all_goals
    obtain ⟨bpm₀, h₀, hdel⟩ := except_bind_eq_ok.1 hdel
    obtain ⟨r', -, hdel⟩ := except_bind_eq_ok.1 hdel
    cases hdel
  · -- a dirty page is written back first
    obtain ⟨⟨b₀, bpm₀⟩, hflush, rfl⟩ := except_map_eq_ok.1 h₀
    obtain ⟨W₀, hc₀, hmeta, hdata, hview₀, hW₀⟩ := hc.FlushPage h.page_eq hin hflush
    exact hdrop bpm₀ W₀ r' hc₀ hmeta hdata hview₀ (hW₀ f hf)
  · cases h₀
    have hpin : (bpm.pages_ f).pin_count_ = 0 := by
      have := h.pin_nonneg _ _ hf
      simp only [Page.GetPinCount] at hpos
      omega
    exact hdrop bpm written r' hc (SameMeta.refl bpm) (fun _ => rfl) (fun _ _ _ => rfl)
      (hc.clean _ _ hf hpin (by simpa using hdirty))

/-- A client's write through the frame of a pinned page keeps the pool coherent and changes the
    bytes of that page only. -/
theorem Coherent.Write (h : bpm.Invariant []) (hc : bpm.Coherent written) {frame_id : Int}
    {data : PageData} (hres : frame_id ∈ bpm.residentFrames)
    (hpin : 0 < (bpm.pages_ frame_id).pin_count_) {reply : Reply}
    (hwrite : bpm.step (.Write frame_id data) = .ok (reply, bpm')) :
    bpm'.Coherent written ∧
      ∀ q, bpm'.view q = updateAt bpm.view (bpm.pages_ frame_id).page_id_ data q := by
  cases hwrite
  obtain ⟨p, hp⟩ := mem_residentFrames.1 hres
  obtain ⟨hc', hview⟩ := hc.update h.page_eq hp bpm.replacer_
    { bpm.pages_ frame_id with data_ := data } fun hpin' => by dsimp only at hpin'; omega
  refine ⟨hc', fun q => ?_⟩
  rw [hview, updateAt_apply, h.page_id p frame_id hp]

end Calls

section Step

variable {bpm bpm' : BufferPoolManager} {written : Int → Option PageData}

/-- One allowed call, of a client that reports every unpin as dirty, on a coherent pool whose
    pages lie in the file: the pool stays coherent, it acts on the bytes of the allocated pages
    as the ideal page store does, and the frame it returns holds its page's new bytes. -/
theorem Coherent.step (h : bpm.Invariant []) (hc : bpm.Coherent written) (hin : bpm.InFile)
    {c : Call} (hallowed : c.Allowed bpm) (hdirty : c.ReportsDirty) {reply : Reply}
    (hstep : bpm.step c = .ok (reply, bpm')) :
    ∃ W, bpm'.Coherent W ∧ ∀ store : Int → PageData,
      (∀ q, 0 ≤ q → q < bpm.next_page_id_ → bpm.view q = store q) →
      (∀ q, 0 ≤ q → q < bpm'.next_page_id_ → bpm'.view q = c.ideal bpm store reply q) ∧
      ∀ p f, c.fetched bpm = some p → reply = .frame (some f) →
        (bpm'.pages_ f).data_ = c.ideal bpm store reply p := by
  cases c with
  | NewPage early_timestamp =>
    obtain ⟨⟨res, bpm₁⟩, hnew, hr⟩ := except_map_eq_ok.1 hstep
    cases hr
    obtain ⟨W, hc', hview, hfresh⟩ := hc.NewPage h hin hallowed hnew
    have hnext := NewPage_next_page_id hnew
    refine ⟨W, hc', fun store hstore => ?_⟩
    rcases res with _ | ⟨p, f⟩
    · exact ⟨fun q hq0 hqn => (hview q hq0 (hnext ▸ hqn)).trans (hstore q hq0 (hnext ▸ hqn)),
        fun _ _ _ => nofun⟩
    · obtain ⟨-, hnext'⟩ := hnext
      obtain ⟨hz, hdz⟩ := hfresh f rfl
      have h32 : toInt32 (bpm.next_page_id_ + 1) = bpm.next_page_id_ + 1 :=
        toInt32_of_lt (by have := h.next_nonneg; omega)
          (by have : bpm.next_page_id_ < _ := hallowed; omega)
      refine ⟨fun q hq0 hqn => ?_, fun p' f' hp' hf' => ?_⟩
      · dsimp only at hqn
        rw [hnext', h32] at hqn
        simp only [Call.ideal, Option.map_some', updateAt_apply]
        split_ifs with hq
        · rw [hq, hz]
        · exact (hview q hq0 (by omega)).trans (hstore q hq0 (by omega))
      · simp only [Call.fetched, Option.some.injEq] at hp'
        simp only [Option.map_some', Reply.frame.injEq, Option.some.injEq] at hf'
        subst hp' hf'
        simp only [Call.ideal, Option.map_some', updateAt_apply, if_pos, hdz]
  | FetchPage page_id early_timestamp =>
    obtain ⟨hp0, hpn⟩ := hallowed
    obtain ⟨⟨res, bpm₁⟩, hfetch, hr⟩ := except_map_eq_ok.1 hstep
    cases hr
    obtain ⟨W, hc', hview, hframe⟩ := hc.FetchPage h hin hp0 hpn hfetch
    have hnext := FetchPage_next_page_id hfetch
    refine ⟨W, hc', fun store hstore => ⟨fun q hq0 hqn => ?_, fun p f hp hf => ?_⟩⟩
    · exact (hview q hq0 (hnext ▸ hqn)).trans (hstore q hq0 (hnext ▸ hqn))
    · simp only [Call.fetched, Option.some.injEq] at hp
      simp only [Reply.frame.injEq] at hf
      subst hp
      exact (hframe f hf).trans (hstore _ hp0 hpn)
  | UnpinPage page_id is_dirty =>
    cases (show is_dirty = true from hdirty)
    obtain ⟨⟨b, bpm₁⟩, hunpin, hr⟩ := except_map_eq_ok.1 hstep
    cases hr
    obtain ⟨hc', hview⟩ := hc.UnpinPage h hunpin
    have hnext := UnpinPage_next_page_id hunpin
    exact ⟨written, hc', fun store hstore => ⟨fun q hq0 hqn =>
      (hview q).trans (hstore q hq0 (hnext ▸ hqn)), fun _ _ => nofun⟩⟩
  | FlushPage page_id =>
    obtain ⟨⟨b, bpm₁⟩, hflush, hr⟩ := except_map_eq_ok.1 hstep
    cases hr
    obtain ⟨W, hc', hmeta, -, hview, -⟩ := hc.FlushPage h.page_eq hin hflush
    exact ⟨W, hc', fun store hstore => ⟨fun q hq0 hqn =>
      (hview q hq0 (hmeta.next_page_id ▸ hqn)).trans (hstore q hq0 (hmeta.next_page_id ▸ hqn)),
      fun _ _ => nofun⟩⟩
  | FlushAllPages =>
    obtain ⟨bpm₁, hflush, hr⟩ := except_map_eq_ok.1 hstep
    cases hr
    obtain ⟨W, hc', hmeta, hview⟩ := Coherent.foldlM_FlushPage _ hc h.page_eq hin hflush
    exact ⟨W, hc', fun store hstore => ⟨fun q hq0 hqn =>
      (hview q hq0 (hmeta.next_page_id ▸ hqn)).trans (hstore q hq0 (hmeta.next_page_id ▸ hqn)),
      fun _ _ => nofun⟩⟩
  | DeletePage page_id =>
    obtain ⟨⟨b, bpm₁⟩, hdel, hr⟩ := except_map_eq_ok.1 hstep
    cases hr
    obtain ⟨W, hc', hview⟩ := hc.DeletePage h hin hdel
    have hnext := DeletePage_next_page_id hdel
    exact ⟨W, hc', fun store hstore => ⟨fun q hq0 hqn =>
      (hview q hq0 (hnext ▸ hqn)).trans (hstore q hq0 (hnext ▸ hqn)), fun _ _ => nofun⟩⟩
  | Write frame_id data =>
    obtain ⟨hres, hpin⟩ := hallowed
    obtain ⟨hc', hview⟩ := hc.Write h hres hpin hstep
    cases hstep
    refine ⟨written, hc', fun store hstore => ⟨fun q hq0 hqn => ?_, fun _ _ => nofun⟩⟩
    rw [hview, updateAt_apply, Call.ideal, updateAt_apply]
    split_ifs
    · rfl
    · exact hstore q hq0 hqn

end Step

section Runs

variable {bpm bpm' : BufferPoolManager} {written : Int → Option PageData}

/-- A new pool is coherent with a file holding its last writes: it has no page yet. -/
theorem Coherent.new {pool_size : Nat} {disk_manager : DiskManager} (replacer_k : Nat)
    (h₀ : disk_manager.Stores written) :
    (new pool_size disk_manager replacer_k).Coherent written :=
  ⟨h₀, fun _ h0 hn _ => absurd hn (by simp [BufferPoolManager.new]; omega), nofun⟩

/-- The ideal page store after a run and then more calls is that of the more calls, made from
    where the run ends. -/
theorem idealRun_append : ∀ {cs : List Call} {bpm : BufferPoolManager} (store : Int → PageData)
    (cs' : List Call), bpm.run cs = .ok bpm' →
      bpm.idealRun store (cs ++ cs') = bpm'.idealRun (bpm.idealRun store cs) cs'
  | [], _, _, _, hrun => by cases hrun; rfl
  | c :: cs, bpm, store, cs', hrun => by
    simp only [BufferPoolManager.run] at hrun
    split at hrun
    · rename_i reply bpm₁ hstep
      simp only [List.cons_append, idealRun, hstep]
      exact idealRun_append _ cs' hrun
    · cases hrun

/-- Along an allowed run of a client that reports every unpin as dirty, ending with the counter
    at most `524287`, a coherent pool stays coherent, and the bytes of its allocated pages
    follow the ideal page store. -/
theorem Coherent.run : ∀ {cs : List Call} {bpm bpm' : BufferPoolManager}
    {written : Int → Option PageData} (store : Int → PageData), bpm.Invariant [] →
    bpm.Coherent written → runAllowed bpm cs = true → (∀ c ∈ cs, c.ReportsDirty) →
    bpm.run cs = .ok bpm' → bpm'.next_page_id_ ≤ 524287 →
    (∀ q, 0 ≤ q → q < bpm.next_page_id_ → bpm.view q = store q) →
    (∃ W, bpm'.Coherent W) ∧
      ∀ q, 0 ≤ q → q < bpm'.next_page_id_ → bpm'.view q = bpm.idealRun store cs q
  | [], _, _, _, _, _, hc, _, _, hrun, _, hstore => by
    cases hrun
    exact ⟨⟨_, hc⟩, hstore⟩
  | c :: _, bpm, _, _, store, h, hc, hallowed, hdirty, hrun, hnext, hstore => by
    obtain ⟨reply, bpm₁, hca, hstep, hallowed, hrun⟩ := run_cons hallowed hrun
    have h₁ := h.of_step hca hstep
    have hle := (step_next_page_id_le h.next_nonneg hca hstep).trans
      (h₁.run_next_page_id_le hallowed hrun)
    obtain ⟨W₁, hc₁, hsim⟩ :=
      hc.step h (h.inFile (hle.trans hnext)) hca (hdirty c (List.mem_cons_self _ _)) hstep
    rw [idealRun, hstep]
    exact Coherent.run _ h₁ hc₁ hallowed (fun c' hc' => hdirty c' (List.mem_cons_of_mem _ hc'))
      hrun hnext (hsim store hstore).1

/-- From a new pool over a file holding its last writes, along any run of allowed calls of a
    client that reports every unpin as dirty, the counter staying at most `524287`: every
    frame that `NewPage` or `FetchPage` returns holds the bytes of the ideal page store after
    the same calls, zeros for a page just handed out and the last write to it otherwise. -/
theorem run_refines_ideal_store (pool_size : Nat) (disk_manager : DiskManager)
    (replacer_k : Nat) (hpool : pool_size < 2 ^ 64) (h₀ : disk_manager.Stores written)
    (cs : List Call) (hallowed : runAllowed (new pool_size disk_manager replacer_k) cs = true)
    (hdirty : ∀ c ∈ cs, c.ReportsDirty)
    (hrun : (new pool_size disk_manager replacer_k).run cs = .ok bpm)
    (hnext : bpm.next_page_id_ ≤ 524287) (c : Call) (hc : c.Allowed bpm)
    (hcd : c.ReportsDirty) {reply : Reply} (hstep : bpm.step c = .ok (reply, bpm'))
    {p f : Int} (hp : c.fetched bpm = some p) (hf : reply = .frame (some f)) :
    (bpm'.pages_ f).data_ =
      (new pool_size disk_manager replacer_k).idealRun (fun _ _ => 0) (cs ++ [c]) p := by
  have h₁ := Invariant.new pool_size disk_manager replacer_k hpool
  have h := h₁.of_run hallowed hrun
  obtain ⟨⟨W, hcW⟩, hview⟩ := Coherent.run (fun _ _ => 0) h₁ (Coherent.new replacer_k h₀)
    hallowed hdirty hrun hnext fun _ _ hq => absurd hq (by simp [BufferPoolManager.new]; omega)
  obtain ⟨W', -, hsim⟩ := hcW.step h (h.inFile hnext) hc hcd hstep
  rw [idealRun_append _ _ hrun, idealRun, hstep]
  exact (hsim _ hview).2 p f hp hf

theorem run_refines_ideal_store_after_eviction :
    ∃ bpm reply bpm', (new 1 DiskManager.new 2).run [.NewPage 0, .Write 0 (fun _ => 7),
        .UnpinPage 0 true, .NewPage 0, .UnpinPage 1 true] = .ok bpm ∧
      bpm.step (.FetchPage 0 0) = .ok (reply, bpm') ∧ reply = .frame (some 0) ∧
      (bpm'.pages_ 0).data_ = (new 1 DiskManager.new 2).idealRun (fun _ _ => 0)
        ([.NewPage 0, .Write 0 (fun _ => 7), .UnpinPage 0 true, .NewPage 0, .UnpinPage 1 true] ++
          [.FetchPage 0 0]) 0 := by
  refine ⟨_, _, _, rfl, rfl, rfl, ?_⟩
  exact run_refines_ideal_store 1 DiskManager.new 2 (by decide) DiskManager.Stores.new
    [.NewPage 0, .Write 0 (fun _ => 7), .UnpinPage 0 true, .NewPage 0, .UnpinPage 1 true]
    (by decide) (by decide) rfl (by decide) (.FetchPage 0 0) (by decide) trivial rfl rfl rfl

end Runs

end BufferPoolManager

end bustub
