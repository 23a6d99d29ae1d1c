import MiniBusTub.Buffer.PageAllocation

namespace bustub

namespace BufferPoolManager

section Flushed

variable {bpm : BufferPoolManager} {written : Int → Option PageData}

/-- The last writes on disk after flushing the page-table entries `l` over `written`: each
    entry's page gets its frame's bytes, in the order of `l`. -/
def flushed (bpm : BufferPoolManager) (written : Int → Option PageData) (l : List (Int × Int)) :
    Int → Option PageData :=
  l.foldl (fun w e => updateAt w e.1 (some (bpm.pages_ e.2).data_)) written

theorem flushed_of_not_mem : ∀ (l : List (Int × Int)) (written : Int → Option PageData)
    {p : Int}, p ∉ l.map Prod.fst → bpm.flushed written l p = written p
  | [], _, _, _ => rfl
  | e :: l, written, p, hp => by
    simp only [List.map_cons, List.mem_cons, not_or] at hp
    rw [flushed, List.foldl_cons, ← flushed, flushed_of_not_mem l _ hp.2, updateAt_apply,
      if_neg hp.1]

theorem flushed_of_mem : ∀ {l : List (Int × Int)}, (l.map Prod.fst).Nodup →
    ∀ (written : Int → Option PageData) {e : Int × Int}, e ∈ l →
      bpm.flushed written l e.1 = some (bpm.pages_ e.2).data_
  | e' :: l, hnd, written, e, he => by
    rw [List.map_cons, List.nodup_cons] at hnd
    rw [flushed, List.foldl_cons, ← flushed]
    rcases List.mem_cons.1 he with rfl | he
    · rw [flushed_of_not_mem l _ hnd.1, updateAt_apply, if_pos rfl]
    · exact flushed_of_mem hnd.2 _ he

/-- `FlushPage` of a resident page in `[0, 524287)` writes its frame's bytes as the page's
    last write, and changes neither the metadata nor any frame's bytes. -/
theorem FlushPage_stores (hstores : bpm.disk_manager_.Stores written) {page_id frame_id : Int}
    (hp : bpm.page_table_.find? page_id = some frame_id) (hlo : 0 ≤ page_id)
    (hhi : page_id < 524287) :
    ∃ bpm', bpm.FlushPage page_id = .ok (true, bpm') ∧ SameMeta bpm bpm' ∧
      (∀ f, (bpm'.pages_ f).data_ = (bpm.pages_ f).data_) ∧
      bpm'.disk_manager_.Stores (updateAt written page_id (some (bpm.pages_ frame_id).data_)) := by
  have hvalid : page_id ≠ INVALID_PAGE_ID := by rw [INVALID_PAGE_ID]; omega
  obtain ⟨b, bpm', hflush, hmeta⟩ := FlushPage_sameMeta bpm hvalid
  have heq := hflush
  simp only [FlushPage, if_neg hvalid, hp, Except.ok.injEq, Prod.mk.injEq] at heq
  obtain ⟨rfl, rfl⟩ := heq
  refine ⟨_, hflush, hmeta, fun f => ?_, hstores.WritePage _ hlo hhi⟩
  by_cases hf : f = frame_id <;> simp [hf]

/-- Flushing resident pages in `[0, 524287)` one after another succeeds and leaves each
    one's frame bytes as its last write. -/
theorem foldlM_FlushPage_stores : ∀ (l : List (Int × Int)) {acc : BufferPoolManager}
    {W : Int → Option PageData}, SameMeta bpm acc →
    (∀ f, (acc.pages_ f).data_ = (bpm.pages_ f).data_) → acc.disk_manager_.Stores W →
    (∀ e ∈ l, bpm.page_table_.find? e.1 = some e.2 ∧ 0 ≤ e.1 ∧ e.1 < 524287) →
    ∃ bpm', l.foldlM (fun bpm e => (·.2) <$> bpm.FlushPage e.1) acc = .ok bpm' ∧
      SameMeta bpm bpm' ∧ (∀ f, (bpm'.pages_ f).data_ = (bpm.pages_ f).data_) ∧
      bpm'.disk_manager_.Stores (bpm.flushed W l)
  | [], acc, _, hmeta, hdata, hstores, _ => ⟨acc, rfl, hmeta, hdata, hstores⟩
  | e :: l, acc, W, hmeta, hdata, hstores, hl => by
    obtain ⟨hfind, hlo, hhi⟩ := hl e (List.mem_cons_self _ _)
    obtain ⟨acc', hflush, hmeta', hdata', hstores'⟩ :=
      FlushPage_stores hstores (hmeta.page_table ▸ hfind) hlo hhi
    rw [hdata] at hstores'
    obtain ⟨bpm', hfold, hrest⟩ := foldlM_FlushPage_stores l (hmeta.trans hmeta')
      (fun f => (hdata' f).trans (hdata f)) hstores' fun e' he' =>
        hl e' (List.mem_cons_of_mem _ he')
    exact ⟨bpm', by simp only [List.foldlM_cons, hflush]; exact hfold, hrest⟩

/-- On a pool that keeps its invariant, with page ids below `524287` and a file holding its
    last writes, `FlushAllPages` succeeds, changes no metadata and no frame's bytes, and
    leaves each resident page's frame bytes on disk as that page's last write. -/
theorem Invariant.FlushAllPages_stores (h : bpm.Invariant [])
    (hstores : bpm.disk_manager_.Stores written) (hnext : bpm.next_page_id_ ≤ 524287) :
    ∃ bpm', bpm.FlushAllPages = .ok bpm' ∧ SameMeta bpm bpm' ∧
      (∀ f, (bpm'.pages_ f).data_ = (bpm.pages_ f).data_) ∧
      bpm'.disk_manager_.Stores (bpm.flushed written bpm.page_table_.entries) :=
  foldlM_FlushPage_stores _ (SameMeta.refl bpm) (fun _ => rfl) hstores fun e he => by
    have hfind := UnorderedMap.find?_eq_some_iff.2 he
    have := h.page_ids _ _ hfind
    exact ⟨hfind, this.1, by omega⟩

end Flushed

section Disk

variable {bpm bpm' : BufferPoolManager} {written : Int → Option PageData}

/-- Every page the page table maps lies in `[0, 524287)`, where a write keeps the file below
    `2 ^ 31` bytes. -/
def InFile (bpm : BufferPoolManager) : Prop :=
  ∀ p f, bpm.page_table_.find? p = some f → 0 ≤ p ∧ p < 524287

/-- A pool that keeps its invariant with the counter at most `524287` has its pages in the
    file. -/
theorem Invariant.inFile {held : List Int} (h : bpm.Invariant held)
    (hnext : bpm.next_page_id_ ≤ 524287) : bpm.InFile := fun p f hp => by
  have := h.page_ids p f hp
  exact ⟨this.1, by omega⟩

/-- `FlushPage` writes only a page the page table maps. -/
theorem FlushPage_disk {page_id : Int} {b : Bool}
    (hflush : bpm.FlushPage page_id = .ok (b, bpm')) (hids : bpm.InFile)
    (hd : bpm.disk_manager_.Stores written) : ∃ W, bpm'.disk_manager_.Stores W := by
  unfold FlushPage at hflush
  split_ifs at hflush
  split at hflush
  · cases hflush
    exact ⟨_, hd⟩
  · rename_i f hf
    cases hflush
    exact ⟨_, hd.WritePage _ (hids _ _ hf).1 (hids _ _ hf).2⟩

/-- `AcquireFrame` writes at most the victim's page, through `FlushPage` on the same page
    table. -/
theorem AcquireFrame_disk {early_timestamp : Nat} {res : Option Int}
    (hacq : bpm.AcquireFrame early_timestamp = .ok (res, bpm')) (hids : bpm.InFile)
    (hd : bpm.disk_manager_.Stores written) : ∃ W, bpm'.disk_manager_.Stores W := by
  unfold AcquireFrame at hacq
  split at hacq
  · cases hacq
    exact ⟨_, hd⟩
  · split at hacq
    · cases hacq
      exact ⟨_, hd⟩
    · dsimp only at hacq
      split at hacq
      · obtain ⟨bpm₀, h₀, h⟩ := except_bind_eq_ok.1 hacq
        obtain ⟨⟨b, bpm₁⟩, hf, rfl⟩ := except_map_eq_ok.1 h₀
        cases h
        exact (FlushPage_disk hf hids hd :)
      · cases hacq
        exact ⟨_, hd⟩

/-- A call on a pool whose pages lie in the file keeps the file holding some last write of
    each page written: the writes are of pages in `[0, 524287)` and the reads change nothing
    stored. -/
theorem step_disk {c : Call} {reply : Reply} (hstep : bpm.step c = .ok (reply, bpm'))
    (hids : bpm.InFile) (hd : bpm.disk_manager_.Stores written) :
    ∃ W, bpm'.disk_manager_.Stores W := by
  cases c with
  | NewPage early_timestamp =>
    obtain ⟨⟨res, bpm₁⟩, hnew, hr⟩ := except_map_eq_ok.1 hstep
    cases hr
    obtain ⟨⟨frame?, bpm₂⟩, hacq, h⟩ := except_bind_eq_ok.1 hnew
    obtain ⟨W, hW⟩ := AcquireFrame_disk hacq hids hd
    cases frame? with
    | none => cases h; exact ⟨W, hW⟩
    | some f =>
      obtain ⟨r', -, h⟩ := except_bind_eq_ok.1 h
      cases h
      exact ⟨W, hW⟩
  | FetchPage page_id early_timestamp =>
    obtain ⟨⟨res, bpm₁⟩, hfetch, hr⟩ := except_map_eq_ok.1 hstep
    cases hr
    unfold FetchPage at hfetch
    split at hfetch
    · obtain ⟨r', -, h⟩ := except_bind_eq_ok.1 hfetch
      cases h
      exact ⟨_, hd⟩
    · obtain ⟨⟨frame?, bpm₂⟩, hacq, h⟩ := except_bind_eq_ok.1 hfetch
      obtain ⟨W, hW⟩ := AcquireFrame_disk hacq hids hd
      cases frame? with
      | none => cases h; exact ⟨W, hW⟩
      | some f =>
        obtain ⟨r', -, h⟩ := except_bind_eq_ok.1 h
        cases h
        exact ⟨W, hW.ReadPage _ _⟩
  | UnpinPage page_id is_dirty =>
    obtain ⟨⟨b, bpm₁⟩, hunpin, hr⟩ := except_map_eq_ok.1 hstep
    cases hr
    unfold UnpinPage at hunpin
    split at hunpin
    · cases hunpin; exact ⟨_, hd⟩
    · dsimp only at hunpin
      split_ifs at hunpin
      · cases hunpin; exact ⟨_, hd⟩
      · obtain ⟨r', -, h⟩ := except_bind_eq_ok.1 hunpin
        cases h
        exact ⟨_, hd⟩
  | FlushPage page_id =>
    obtain ⟨⟨b, bpm₁⟩, hflush, hr⟩ := except_map_eq_ok.1 hstep
    cases hr
    exact FlushPage_disk hflush hids hd
  | FlushAllPages =>
    obtain ⟨bpm₁, hflush, hr⟩ := except_map_eq_ok.1 hstep
    cases hr
    obtain ⟨bpm₂, hflush₂, -, -, hW⟩ := foldlM_FlushPage_stores bpm.page_table_.entries
      (SameMeta.refl bpm)
      (fun _ => rfl) hd fun e he => by
        have hfind := UnorderedMap.find?_eq_some_iff.2 he
        exact ⟨hfind, hids _ _ hfind⟩
    cases (show bpm.FlushAllPages = _ from hflush₂).symm.trans hflush
    exact ⟨_, hW⟩
  | DeletePage page_id =>
    obtain ⟨⟨b, bpm₁⟩, hdel, hr⟩ := except_map_eq_ok.1 hstep
    cases hr
    unfold DeletePage at hdel
    split at hdel
    · cases hdel; exact ⟨_, hd⟩
    · split_ifs at hdel
      · cases hdel; exact ⟨_, hd⟩
      all_goals
        obtain ⟨bpm₂, h₂, h⟩ := except_bind_eq_ok.1 hdel
        obtain ⟨r', -, h⟩ := except_bind_eq_ok.1 h
        cases h
      · -- a dirty page is written back first
        obtain ⟨⟨b, bpm₃⟩, hf, rfl⟩ := except_map_eq_ok.1 h₂
        exact (FlushPage_disk hf hids hd :)
      · cases h₂; exact ⟨_, hd⟩
  | Write frame_id data =>
    cases hstep
    exact ⟨_, hd⟩

end Disk

section Runs

variable {bpm bpm' : BufferPoolManager}

/-- The first call of an allowed run that succeeds: allowed, successful, and followed by an
    allowed run that succeeds. -/
theorem run_cons {c : Call} {cs : List Call} (hallowed : runAllowed bpm (c :: cs) = true)
    (hrun : bpm.run (c :: cs) = .ok bpm') :
    ∃ reply bpm₁, c.Allowed bpm ∧ bpm.step c = .ok (reply, bpm₁) ∧
      runAllowed bpm₁ cs = true ∧ bpm₁.run cs = .ok bpm' := by
  simp only [runAllowed, Bool.and_eq_true, decide_eq_true_eq] at hallowed
  simp only [BufferPoolManager.run] at hrun
  split at hrun
  · rename_i reply bpm₁ hstep
    rw [hstep] at hallowed
    exact ⟨reply, bpm₁, hallowed.1, hstep, hallowed.2, hrun⟩
  · cases hrun

/-- An allowed call keeps the invariant. -/
theorem Invariant.of_step (h : bpm.Invariant []) {c : Call} {reply : Reply}
    (hc : c.Allowed bpm) (hstep : bpm.step c = .ok (reply, bpm')) : bpm'.Invariant [] := by
  obtain ⟨reply', bpm₂, hstep', h₂, -⟩ := h.step hc
  rw [hstep, Except.ok.injEq, Prod.mk.injEq] at hstep'
  exact hstep'.2 ▸ h₂

/-- An allowed run keeps the pool's invariant. -/
theorem Invariant.of_run : ∀ {cs : List Call} {bpm bpm' : BufferPoolManager},
    bpm.Invariant [] → runAllowed bpm cs = true → bpm.run cs = .ok bpm' → bpm'.Invariant []
  | [], _, _, h, _, hrun => by cases hrun; exact h
  | _ :: _, _, _, h, hallowed, hrun => by
    obtain ⟨_, _, hc, hstep, hallowed, hrun⟩ := run_cons hallowed hrun
    exact (h.of_step hc hstep).of_run hallowed hrun

/-- Along an allowed run the counter never moves back. -/
theorem Invariant.run_next_page_id_le : ∀ {cs : List Call} {bpm bpm' : BufferPoolManager},
    bpm.Invariant [] → runAllowed bpm cs = true → bpm.run cs = .ok bpm' →
      bpm.next_page_id_ ≤ bpm'.next_page_id_
  | [], _, _, _, _, hrun => by cases hrun; exact le_refl _
  | _ :: _, _, _, h, hallowed, hrun => by
    obtain ⟨_, _, hc, hstep, hallowed, hrun⟩ := run_cons hallowed hrun
    exact (step_next_page_id_le h.next_nonneg hc hstep).trans
      ((h.of_step hc hstep).run_next_page_id_le hallowed hrun)

/-- An allowed run that ends with the counter at most `524287` keeps the file holding some
    last write of each page written. -/
theorem Invariant.run_disk : ∀ {cs : List Call} {bpm bpm' : BufferPoolManager}
    {written : Int → Option PageData}, bpm.Invariant [] → runAllowed bpm cs = true →
      bpm.run cs = .ok bpm' → bpm'.next_page_id_ ≤ 524287 →
        bpm.disk_manager_.Stores written → ∃ W, bpm'.disk_manager_.Stores W
  | [], _, _, _, _, _, hrun, _, hd => by cases hrun; exact ⟨_, hd⟩
  | _ :: _, bpm, _, _, h, hallowed, hrun, hnext, hd => by
    obtain ⟨_, bpm₁, hc, hstep, hallowed, hrun⟩ := run_cons hallowed hrun
    have h₁ := h.of_step hc hstep
    have hle := (step_next_page_id_le h.next_nonneg hc hstep).trans
      (h₁.run_next_page_id_le hallowed hrun)
    obtain ⟨W, hW⟩ := step_disk hstep (h.inFile (hle.trans hnext)) hd
    exact h₁.run_disk hallowed hrun hnext hW

end Runs

section Restart

variable {bpm : BufferPoolManager} {written : Int → Option PageData}

/-- A new pool of at least one frame fetches any page into frame `0`, with the bytes the
    disk manager reads for it into a zeroed frame. -/
theorem FetchPage_new {pool_size : Nat} (hpos : 0 < pool_size) (hlt : pool_size < 2 ^ 64)
    (disk_manager : DiskManager) (replacer_k : Nat) (page_id : Int) (early_timestamp : Nat) :
    ∃ bpm', (new pool_size disk_manager replacer_k).FetchPage page_id early_timestamp =
      .ok (some 0, bpm') ∧
        (bpm'.pages_ 0).data_ = (disk_manager.ReadPage page_id fun _ => 0).1 := by
  obtain ⟨n, rfl⟩ : ∃ n, pool_size = n + 1 := ⟨pool_size - 1, by omega⟩
  obtain ⟨r', htouch, -⟩ := (Invariant.new (n + 1) disk_manager replacer_k hlt).Touch
    (f := 0) (by simp [BufferPoolManager.new])
  simp only [BufferPoolManager.new] at htouch
  simp [FetchPage, BufferPoolManager.new, AcquireFrame, List.range_succ_eq_map, htouch,
    Page.new]

/-- On a pool that keeps its invariant, with page ids below `524287` and a file holding its
    last writes: after `FlushAllPages`, a pool of the same size restarted over the same file
    fetches each page that was resident with the bytes its frame held. -/
theorem Invariant.FlushAllPages_restart (h : bpm.Invariant [])
    (hstores : bpm.disk_manager_.Stores written) (hnext : bpm.next_page_id_ ≤ 524287)
    {page_id frame_id : Int} (hp : bpm.page_table_.find? page_id = some frame_id)
    (replacer_k early_timestamp : Nat) :
    ∃ bpm', bpm.FlushAllPages = .ok bpm' ∧ ∃ bpm'',
      (BufferPoolManager.new bpm'.pool_size_ bpm'.disk_manager_ replacer_k).FetchPage page_id
        early_timestamp = .ok (some 0, bpm'') ∧
          (bpm''.pages_ 0).data_ = (bpm.pages_ frame_id).data_ := by
  obtain ⟨bpm', hflush, hmeta, -, hstores'⟩ := h.FlushAllPages_stores hstores hnext
  have hframe := h.mem_frames.1
    (List.mem_append_left _ (List.mem_append_right _ (mem_residentFrames.2 ⟨_, hp⟩)))
  rw [← hmeta.pool_size] at hframe
  obtain ⟨bpm'', hfetch, hdata⟩ := FetchPage_new (by omega)
    (hmeta.pool_size ▸ h.pool_size_lt) bpm'.disk_manager_ replacer_k page_id early_timestamp
  refine ⟨bpm', hflush, bpm'', hfetch, ?_⟩
  rw [hdata, hstores'.ReadPage_eq
    (flushed_of_mem bpm.page_table_.nodup written (UnorderedMap.find?_eq_some_iff.1 hp))]

/-- From a new pool over a file holding its last writes, after any run of allowed calls that
    leaves the counter at most `524287`: `FlushAllPages` succeeds, and a pool of the same size
    restarted over the same file fetches each page that was resident into frame `0`, with the
    bytes its frame held. -/
theorem run_FlushAllPages_restart (pool_size : Nat) (disk_manager : DiskManager)
    (replacer_k : Nat) (hpool : pool_size < 2 ^ 64) (h₀ : disk_manager.Stores written)
    (cs : List Call)
    (hallowed : runAllowed (new pool_size disk_manager replacer_k) cs = true)
    (hrun : (new pool_size disk_manager replacer_k).run cs = .ok bpm)
    (hnext : bpm.next_page_id_ ≤ 524287) {page_id frame_id : Int}
    (hp : bpm.page_table_.find? page_id = some frame_id) (early_timestamp : Nat) :
    ∃ bpm', bpm.FlushAllPages = .ok bpm' ∧ ∃ bpm'',
      (new bpm'.pool_size_ bpm'.disk_manager_ replacer_k).FetchPage page_id early_timestamp =
        .ok (some 0, bpm'') ∧ (bpm''.pages_ 0).data_ = (bpm.pages_ frame_id).data_ := by
  have h := Invariant.new pool_size disk_manager replacer_k hpool
  obtain ⟨W, hW⟩ := h.run_disk hallowed hrun hnext h₀
  exact (h.of_run hallowed hrun).FlushAllPages_restart hW hnext hp replacer_k early_timestamp

theorem run_FlushAllPages_restart_one_page :
    ∃ bpm, (new 1 DiskManager.new 2).run
        [.NewPage 0, .Write 0 (fun _ => 7), .UnpinPage 0 true] = .ok bpm ∧
      bpm.next_page_id_ ≤ 524287 ∧ bpm.page_table_.find? 0 = some 0 ∧
      ∃ bpm', bpm.FlushAllPages = .ok bpm' ∧ ∃ bpm'',
        (new bpm'.pool_size_ bpm'.disk_manager_ 2).FetchPage 0 0 = .ok (some 0, bpm'') ∧
          (bpm''.pages_ 0).data_ = (bpm.pages_ 0).data_ :=
  ⟨_, rfl, by decide, by decide, run_FlushAllPages_restart 1 DiskManager.new 2 (by decide)
    DiskManager.Stores.new [.NewPage 0, .Write 0 (fun _ => 7), .UnpinPage 0 true] (by decide) rfl
    (by decide) (by decide) 0⟩

end Restart

end BufferPoolManager

end bustub
