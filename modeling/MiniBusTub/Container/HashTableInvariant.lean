import MiniBusTub.Container.DiskExtendibleHashTable
import MiniBusTub.Container.DirectoryIntegrity

namespace bustub

open ExtendibleHTableDirectoryPage

namespace DiskExtendibleHashTable

variable {K V : Type}

section Steps

variable (ht : DiskExtendibleHashTable K V) (s : PageStore K V)
  (d : ExtendibleHTableDirectoryPage) (idx : Nat) (key : K) (value : V)

@[simp] theorem InsertToNewBucket_next_page_id :
    (ht.InsertToNewBucket s d idx key value).2.2.next_page_id_ = s.next_page_id_ + 1 := by
  simp only [InsertToNewBucket]; split <;> rfl

@[simp] theorem InsertToNewBucket_headers :
    (ht.InsertToNewBucket s d idx key value).2.2.headers = s.NewPage.2.headers := by
  simp only [InsertToNewBucket]; split <;> rfl

@[simp] theorem InsertToNewBucket_directories :
    (ht.InsertToNewBucket s d idx key value).2.2.directories = s.NewPage.2.directories := by
  simp only [InsertToNewBucket]; split <;> rfl

theorem InsertToNewBucket_directory :
    (ht.InsertToNewBucket s d idx key value).2.1 =
      if (ht.InsertToNewBucket s d idx key value).1 then
        (d.SetBucketPageId idx s.next_page_id_).SetLocalDepth idx 0
      else d := by
  simp only [InsertToNewBucket]; split <;> rfl

end Steps

/-- The full-bucket branch at local depth equal to the global depth, below depth 31, is the
    doubling of the directory followed by the split of the bucket at its slot. -/
theorem UpdateDirectoryMapping_split_eq {d : ExtendibleHTableDirectoryPage} {i : Nat} {N : Int}
    {mask : Nat} (hi : i < 2 ^ d.global_depth_) (hld : d.local_depths_ i = d.global_depth_)
    (hdepth : d.global_depth_ < 31) :
    UpdateDirectoryMapping (d.IncrLocalDepth i).IncrGlobalDepth (d.GetSplitImageIndex i) N
        ((d.IncrLocalDepth i).IncrGlobalDepth.GetLocalDepth i) mask =
      d.double.splitAt i N := by
  have hg8 : d.global_depth_ + 1 < 2 ^ 8 := by
    have : 2 ^ 8 = 256 := rfl
    omega
  have hpow : 2 ^ (d.global_depth_ + 1) = 2 ^ d.global_depth_ + 2 ^ d.global_depth_ := by
    rw [Nat.pow_succ, Nat.mul_two]
  have himage : d.GetSplitImageIndex i = i + 2 ^ d.global_depth_ := by
    rw [GetSplitImageIndex_eq_add _ (hld ▸ hi) (by omega), hld]
  have hmod : ∀ x < 2 ^ (d.global_depth_ + 1), x % 2 ^ d.global_depth_ =
      if x < 2 ^ d.global_depth_ then x else x - 2 ^ d.global_depth_ := fun x hx => by
    split_ifs with h
    · exact Nat.mod_eq_of_lt h
    · rw [Nat.mod_eq_sub_mod (by omega), Nat.mod_eq_of_lt (by omega)]
  have hi' : ¬(2 ^ d.global_depth_ ≤ i ∧ i < 2 ^ (d.global_depth_ + 1)) := by omega
  rw [IncrGlobalDepth_eq_double (d := d.IncrLocalDepth i) hdepth, himage]
  ext x
  · rfl
  · rfl
  · simp only [UpdateDirectoryMapping, SetLocalDepth_local_depths, SetBucketPageId_local_depths,
      GetLocalDepth, double, IncrLocalDepth_local_depths, IncrLocalDepth_global_depth,
      updateAt_apply, splitAt_local_depths, hld, incMod_of_lt hg8, hi', if_false, if_true,
      Nat.mod_eq_of_lt hg8, Nat.mod_eq_of_lt hi]
    by_cases hx : x < 2 ^ (d.global_depth_ + 1)
    · rw [hmod x hx]
      split_ifs <;> first | rfl | omega
    · split_ifs <;> first | rfl | omega
  · by_cases hx : x < 2 ^ (d.global_depth_ + 1)
    · simp only [UpdateDirectoryMapping, SetLocalDepth_bucket_page_ids,
        SetBucketPageId_bucket_page_ids, double, IncrLocalDepth_local_depths,
        IncrLocalDepth_global_depth, IncrLocalDepth_bucket_page_ids, updateAt_apply,
        splitAt_bucket_page_ids, hld, hi', if_false, Nat.mod_eq_of_lt hi, Nat.mod_eq_of_lt hx,
        Nat.mod_eq_of_lt (show i < 2 ^ (d.global_depth_ + 1) by omega), hmod x hx]
      split_ifs <;> first | rfl | omega
    · simp only [UpdateDirectoryMapping, SetLocalDepth_bucket_page_ids,
        SetBucketPageId_bucket_page_ids, double, IncrLocalDepth_local_depths,
        IncrLocalDepth_global_depth, IncrLocalDepth_bucket_page_ids, updateAt_apply,
        splitAt_bucket_page_ids, hld, hi', if_false, hx, false_and]
      split_ifs <;> first | rfl | omega

/-- A directory page as the header may link it: allocated, with the integrity
    `VerifyIntegrity` checks, the table's maximal depth, and only allocated bucket pages in
    its live slots. -/
structure DirectoryOk (ht : DiskExtendibleHashTable K V) (s : PageStore K V) (p : Int) :
    Prop where
  allocated : p < s.next_page_id_
  integrity : (s.directories p).Integrity
  max_depth : (s.directories p).max_depth_ = ht.directory_max_depth_
  buckets_allocated : ∀ x < 2 ^ (s.directories p).global_depth_,
    (s.directories p).bucket_page_ids_ x < s.next_page_id_

/-- The invariant of a table's pages: the header page is allocated at the configured depth,
    and every directory page it links from a live slot is well formed. -/
structure Invariant (ht : DiskExtendibleHashTable K V) (s : PageStore K V) : Prop where
  header_allocated : ht.header_page_id_ < s.next_page_id_
  header_max_depth : (s.headers ht.header_page_id_).max_depth_ = ht.header_max_depth_
  directories_ok : ∀ slot < 2 ^ ht.header_max_depth_,
    (s.headers ht.header_page_id_).directory_page_ids_ slot ≠ INVALID_PAGE_ID →
      ht.DirectoryOk s ((s.headers ht.header_page_id_).directory_page_ids_ slot)

/-- `s'` allocates only after `s` and keeps every directory page `s` allocated. -/
structure Extends (s s' : PageStore K V) : Prop where
  next_le : s.next_page_id_ ≤ s'.next_page_id_
  directories_eq : ∀ q < s.next_page_id_, s'.directories q = s.directories q

section Frame

variable {ht : DiskExtendibleHashTable K V} {s s' : PageStore K V} {p : Int} {key : K}
  {value : V}

theorem DirectoryOk.mono (h : ht.DirectoryOk s p) (hnext : s.next_page_id_ ≤ s'.next_page_id_)
    (hdir : s'.directories p = s.directories p) : ht.DirectoryOk s' p := by
  obtain ⟨halloc, hint, hmax, hbuckets⟩ := h
  rw [← hdir] at hint hmax hbuckets
  exact ⟨by omega, hint, hmax, fun x hx => by have := hbuckets x hx; omega⟩

theorem DirectoryOk.extend (h : ht.DirectoryOk s p) (he : Extends s s') : ht.DirectoryOk s' p :=
  h.mono he.next_le (he.directories_eq p h.allocated)

theorem Extends.NewPage (s : PageStore K V) : Extends s s.NewPage.2 :=
  ⟨by simp, fun q hq => by simp [Int.ne_of_lt hq]⟩

theorem Extends.setBucket (s : PageStore K V) (q : Int) (b : ExtendibleHTableBucketPage K V) :
    Extends s (s.setBucket q b) :=
  ⟨le_refl _, fun _ _ => rfl⟩

/-- A step that extends the store and keeps the header page keeps the invariant. -/
theorem Invariant.frame (h : ht.Invariant s) (he : Extends s s')
    (hheader : s'.headers ht.header_page_id_ = s.headers ht.header_page_id_) :
    ht.Invariant s' := by
  refine ⟨by have := h.header_allocated; have := he.next_le; omega,
    hheader ▸ h.header_max_depth, fun slot hslot hp => ?_⟩
  rw [hheader] at hp ⊢
  exact (h.directories_ok slot hslot hp).extend he

theorem Invariant.NewPage (h : ht.Invariant s) : ht.Invariant s.NewPage.2 :=
  h.frame (Extends.NewPage s) (by simp [Int.ne_of_lt h.header_allocated])

theorem Invariant.setBucket (h : ht.Invariant s) (q : Int) (b : ExtendibleHTableBucketPage K V) :
    ht.Invariant (s.setBucket q b) :=
  h.frame (Extends.setBucket s q b) rfl

/-- Writing a directory page that is well formed after the write keeps the invariant. -/
theorem Invariant.setDirectory (h : ht.Invariant s) {d : ExtendibleHTableDirectoryPage}
    (hok : ht.DirectoryOk (s.setDirectory p d) p) : ht.Invariant (s.setDirectory p d) := by
  refine ⟨h.header_allocated, h.header_max_depth, fun slot hslot hq => ?_⟩
  rw [PageStore.setDirectory_headers] at hq ⊢
  by_cases hqp : (s.headers ht.header_page_id_).directory_page_ids_ slot = p
  · rw [hqp]; exact hok
  · exact (h.directories_ok slot hslot hq).mono (le_refl _) (by simp [hqp])

/-- Linking a well-formed directory page from a header slot keeps the invariant. -/
theorem Invariant.setHeader_link (h : ht.Invariant s) {p : Int} (hok : ht.DirectoryOk s p)
    (idx : Nat) : ht.Invariant (s.setHeader ht.header_page_id_
      ((s.headers ht.header_page_id_).SetDirectoryPageId idx p)) := by
  have hsame : ∀ q, ht.DirectoryOk s q → ht.DirectoryOk (s.setHeader ht.header_page_id_
      ((s.headers ht.header_page_id_).SetDirectoryPageId idx p)) q :=
    fun q hq => hq.mono (le_refl _) rfl
  refine ⟨h.header_allocated, by simpa using h.header_max_depth, fun slot hslot hq => ?_⟩
  simp only [PageStore.setHeader_headers, updateAt_apply, if_true] at hq ⊢
  by_cases hslot' : slot = idx
  · subst hslot'
    simpa [ExtendibleHTableHeaderPage.SetDirectoryPageId] using hsame p hok
  · simp only [ExtendibleHTableHeaderPage.SetDirectoryPageId, updateAt_apply, hslot',
      if_false] at hq ⊢
    exact hsame _ (h.directories_ok slot hslot hq)

/-- A hash is routed to a live slot of the header. -/
theorem Invariant.directory_index_lt (h : ht.Invariant s) (hH : ht.header_max_depth_ ≤ 9)
    (key : K) :
    (s.headers ht.header_page_id_).HashToDirectoryIndex (ht.Hash key) <
      2 ^ ht.header_max_depth_ := by
  rw [← h.header_max_depth]
  exact ExtendibleHTableHeaderPage.HashToDirectoryIndex_lt _ (Nat.mod_lt _ (by decide))
    (by rw [h.header_max_depth]; omega)

/-- A hash is routed to a live slot of a well-formed directory. -/
theorem DirectoryOk.bucket_index_lt {p : Int} (hok : ht.DirectoryOk s p)
    (hD : ht.directory_max_depth_ ≤ 9) (hash : Nat) :
    (s.directories p).HashToBucketIndex hash < 2 ^ (s.directories p).global_depth_ := by
  have := hok.integrity.global_le_max
  rw [HashToBucketIndex_eq_mod _ _ (by rw [hok.max_depth] at this; omega)]
  exact Nat.mod_lt _ (Nat.two_pow_pos _)

/-- `InsertToNewDirectory` allocates a directory page at depth `0` whose one live slot links
    the new bucket, and links it from the header only when the bucket took the pair. -/
theorem Invariant.InsertToNewDirectory (h : ht.Invariant s) (idx : Nat) :
    ht.Invariant (ht.InsertToNewDirectory s idx key value).2 := by
  have hhid := h.header_allocated
  set d0 := (s.NewPage.2.directories s.NewPage.1).Init ht.directory_max_depth_
  have hnext := InsertToNewBucket_next_page_id ht s.NewPage.2 d0 0 key value
  have hheaders := InsertToNewBucket_headers ht s.NewPage.2 d0 0 key value
  have hdirs := InsertToNewBucket_directories ht s.NewPage.2 d0 0 key value
  have hdir := InsertToNewBucket_directory ht s.NewPage.2 d0 0 key value
  simp only [DiskExtendibleHashTable.InsertToNewDirectory]
  generalize ht.InsertToNewBucket s.NewPage.2 d0 0 key value = r at hnext hheaders hdirs hdir ⊢
  simp only [PageStore.NewPage_fst, PageStore.NewPage_next_page_id] at hnext hdir hheaders hdirs ⊢
  have he : Extends s (r.2.2.setDirectory s.next_page_id_ r.2.1) :=
    ⟨by simp only [PageStore.setDirectory_next_page_id, hnext]; omega, fun q hq => by
      have : q ≠ s.next_page_id_ + 1 := by omega
      simp [hdirs, Int.ne_of_lt hq, this]⟩
  have hheader : (r.2.2.setDirectory s.next_page_id_ r.2.1).headers ht.header_page_id_ =
      s.headers ht.header_page_id_ := by
    have : ht.header_page_id_ ≠ s.next_page_id_ + 1 := by omega
    simp [hheaders, Int.ne_of_lt hhid, this]
  have hinv := h.frame he hheader
  split
  · next hins =>
    rw [if_pos hins] at hdir
    have hnew : (r.2.2.setDirectory s.next_page_id_ r.2.1).directories s.next_page_id_ =
        (d0.SetBucketPageId 0 (s.next_page_id_ + 1)).SetLocalDepth 0 0 := by simp [hdir]
    have hg : ((d0.SetBucketPageId 0 (s.next_page_id_ + 1)).SetLocalDepth 0 0).global_depth_ = 0 := by
      simp [d0]
    refine hinv.setHeader_link ⟨?_, ?_, ?_, ?_⟩ idx <;> try rw [hnew]
    · simp only [PageStore.setDirectory_next_page_id, hnext]; omega
    · exact Integrity.of_global_depth_zero hg (by simp)
    · simp [d0]
    · intro x hx
      rw [hg, Nat.pow_zero, Nat.lt_one_iff] at hx
      simp only [hx, SetLocalDepth_bucket_page_ids, SetBucketPageId_bucket_page_ids,
        updateAt_apply, if_true, PageStore.setDirectory_next_page_id, hnext]
      omega
  · exact hinv

end Frame

section Operations

variable [Inhabited K] [Inhabited V] {ht : DiskExtendibleHashTable K V} {s : PageStore K V}
  {key : K} {value : V}

@[simp] theorem Insert.finish_directories (dp : Int) (d : ExtendibleHTableDirectoryPage)
    (bp : Int) (b : ExtendibleHTableBucketPage K V) (np : Int)
    (nb : ExtendibleHTableBucketPage K V) (nidx mask : Nat) :
    (Insert.finish ht s key value dp d bp b np nb nidx mask).2.directories =
      updateAt s.directories dp d := by
  simp only [Insert.finish]
  rfl

/-- The tail of the full-bucket branch writes the directory page it is given and two
    bucket pages. -/
theorem Invariant.finish {dp : Int} {d : ExtendibleHTableDirectoryPage}
    (h : ht.Invariant (s.setDirectory dp d)) (bp : Int) (b : ExtendibleHTableBucketPage K V)
    (np : Int) (nb : ExtendibleHTableBucketPage K V) (nidx mask : Nat) :
    ht.Invariant (Insert.finish ht s key value dp d bp b np nb nidx mask).2 := by
  simp only [Insert.finish]
  exact (h.setBucket _ _).setBucket _ _

/-- The full-bucket branch of `Insert` at a live slot of a well-formed directory. At local
    depth equal to the global depth it doubles the directory and splits the bucket; the
    branch for a local depth above the global depth cannot be taken. -/
theorem Invariant.split (h : ht.Invariant s) {dp : Int} (hok : ht.DirectoryOk s dp)
    (hD : ht.directory_max_depth_ ≤ 9) {i : Nat} (hi : i < 2 ^ (s.directories dp).global_depth_)
    (bp : Int) (b : ExtendibleHTableBucketPage K V) :
    ht.Invariant (Insert.split ht s key value dp (s.directories dp) i bp b).2 := by
  have hN := h.NewPage
  have hgmax := hok.integrity.global_le_max
  have hmaxD := hok.max_depth
  have hl := hok.integrity.local_le_global i hi
  simp only [Insert.split]
  split_ifs with hglobal hsize hlt
  · exact hN.setBucket _ _
  · have hlt_max : (s.directories dp).global_depth_ < (s.directories dp).max_depth_ :=
      lt_of_le_of_ne hgmax fun heq => hsize ((shl32_one_inj (by omega) (by omega)).2 heq)
    have hi2 : i < 2 ^ ((s.directories dp).global_depth_ + 1) :=
      lt_of_lt_of_le hi (Nat.pow_le_pow_right (by decide) (Nat.le_succ _))
    have hbelow : ∀ x < 2 ^ ((s.directories dp).global_depth_ + 1),
        (s.directories dp).double.bucket_page_ids_ x < s.next_page_id_ := fun x hx => by
      rw [double_bucket_page_ids _ hx]
      exact hok.buckets_allocated _ (Nat.mod_lt _ (Nat.two_pow_pos _))
    apply Invariant.finish
    rw [UpdateDirectoryMapping_split_eq hi hglobal.symm (by omega)]
    have hdir : (s.NewPage.2.setDirectory dp ((s.directories dp).double.splitAt i
        s.NewPage.1)).directories dp = (s.directories dp).double.splitAt i s.next_page_id_ := by
      simp
    refine hN.setDirectory ⟨?_, ?_, ?_, ?_⟩
    · show dp < s.next_page_id_ + 1
      have := hok.allocated; omega
    · rw [hdir]
      refine (hok.integrity.double hlt_max).splitAt (by simpa using hi2) ?_
        fun x hx => Int.ne_of_lt (hbelow x (by simpa using hx))
      rw [double_local_depths _ hi2, Nat.mod_eq_of_lt hi, double_global_depth]
      omega
    · rw [hdir]; simpa using hmaxD
    · rw [hdir]
      intro x hx
      simp only [splitAt_global_depth, double_global_depth] at hx
      show _ < s.next_page_id_ + 1
      rw [splitAt_bucket_page_ids]
      split_ifs
      · omega
      · have := hbelow x hx; omega
  · exact absurd hlt (Nat.not_lt.2 hl)
  · apply Invariant.finish
    refine hN.setDirectory ((hok.extend (Extends.NewPage s)).mono (le_refl _) ?_)
    simp [(Extends.NewPage s).directories_eq dp hok.allocated]

/-- `Insert` keeps the invariant of a table whose depths fit the page layout. -/
theorem Invariant.Insert (h : ht.Invariant s) (hH : ht.header_max_depth_ ≤ 9)
    (hD : ht.directory_max_depth_ ≤ 9) (key : K) (value : V) :
    ht.Invariant (ht.Insert s key value).2 := by
  have hslot := h.directory_index_lt hH key
  simp only [DiskExtendibleHashTable.Insert]
  split_ifs with hinvalid hfull
  · exact h.InsertToNewDirectory _
  · have hok := h.directories_ok _ hslot hinvalid
    exact h.split hok hD (hok.bucket_index_lt hD _) _ _
  · exact h.setBucket _ _

/-- `Remove` writes one bucket page and nothing else. -/
theorem Invariant.Remove (h : ht.Invariant s) (key : K) : ht.Invariant (ht.Remove s key).2 := by
  simp only [DiskExtendibleHashTable.Remove]
  split_ifs
  · exact h
  · exact h.setBucket _ _

end Operations

/-- The constructor's header page links no directory yet. -/
theorem Invariant.new (cmp : K → K → Int) (hash_fn : K → Nat) {H : Nat} (hH : H ≤ 9)
    (D M : Nat) (s : PageStore K V) :
    (new cmp hash_fn H D M s).1.Invariant (new cmp hash_fn H D M s).2 := by
  refine ⟨show s.next_page_id_ < s.next_page_id_ + 1 by omega, by simp [DiskExtendibleHashTable.new],
    fun slot hslot hp => absurd ?_ hp⟩
  have hslot' : slot < shl32 1 H := by rw [shl32_one (by omega)]; exact hslot
  simp [DiskExtendibleHashTable.new, ExtendibleHTableHeaderPage.Init, hslot']

/-- A call of the table that may write pages. -/
inductive Call (K V : Type)
  | Insert (key : K) (value : V)
  | Remove (key : K)

section Runs

variable [Inhabited K] [Inhabited V]

/-- The page store after a sequence of calls; the answers are dropped. -/
def run (ht : DiskExtendibleHashTable K V) : PageStore K V → List (Call K V) → PageStore K V
  | s, [] => s
  | s, .Insert key value :: calls => ht.run (ht.Insert s key value).2 calls
  | s, .Remove key :: calls => ht.run (ht.Remove s key).2 calls

/-- The page stores a table reaches: from its constructor, through `Insert` and `Remove`.
    `GetValue` writes no page. -/
inductive Reachable : DiskExtendibleHashTable K V → PageStore K V → Prop
  | init (cmp : K → K → Int) (hash_fn : K → Nat) (header_max_depth directory_max_depth
      bucket_max_size : Nat) (s : PageStore K V) :
      Reachable (new cmp hash_fn header_max_depth directory_max_depth bucket_max_size s).1
        (new cmp hash_fn header_max_depth directory_max_depth bucket_max_size s).2
  | Insert {ht : DiskExtendibleHashTable K V} {s : PageStore K V} (key : K) (value : V) :
      Reachable ht s → Reachable ht (ht.Insert s key value).2
  | Remove {ht : DiskExtendibleHashTable K V} {s : PageStore K V} (key : K) :
      Reachable ht s → Reachable ht (ht.Remove s key).2

variable {ht : DiskExtendibleHashTable K V} {s : PageStore K V}

theorem Reachable.run (hs : ht.Reachable s) (calls : List (Call K V)) :
    ht.Reachable (ht.run s calls) := by
  induction calls generalizing s with
  | nil => exact hs
  | cons call calls ih =>
    cases call with
    | Insert key value => exact ih (hs.Insert key value)
    | Remove key => exact ih (hs.Remove key)

/-- Every reachable store of a table whose depths fit the page layout keeps the invariant. -/
theorem Reachable.invariant (hs : ht.Reachable s) (hH : ht.header_max_depth_ ≤ 9)
    (hD : ht.directory_max_depth_ ≤ 9) : ht.Invariant s := by
  induction hs with
  | init cmp hash_fn H D M s => exact Invariant.new cmp hash_fn hH D M s
  | Insert key value _ ih => exact (ih hH hD).Insert hH hD key value
  | Remove key _ ih => exact (ih hH hD).Remove key

/-- Every directory page the header of a reachable table links from a live slot satisfies
    what `VerifyIntegrity` checks, and each of its buckets is linked from exactly
    `2 ^ (global_depth_ - l)` live slots, `l` being the bucket's local depth. -/
theorem Reachable.directory_integrity (hs : ht.Reachable s) (hH : ht.header_max_depth_ ≤ 9)
    (hD : ht.directory_max_depth_ ≤ 9) {slot : Nat} (hslot : slot < 2 ^ ht.header_max_depth_)
    (hlinked : (s.headers ht.header_page_id_).GetDirectoryPageId slot ≠ INVALID_PAGE_ID) :
    let d := s.directories ((s.headers ht.header_page_id_).GetDirectoryPageId slot)
    d.Integrity ∧ ∀ i < 2 ^ d.global_depth_,
      Nat.count (fun j => d.bucket_page_ids_ j = d.bucket_page_ids_ i) (2 ^ d.global_depth_) =
        2 ^ (d.global_depth_ - d.local_depths_ i) := by
  have hok := (hs.invariant hH hD).directories_ok slot hslot hlinked
  exact ⟨hok.integrity, fun i hi => hok.integrity.count_bucket_slots hi⟩

theorem directory_integrity_after_first_insert :
    let r := new (fun a b : Nat => if a = b then (0 : Int) else 1) id 0 1 1 PageStore.empty
    let s := r.1.run r.2 [.Insert 0 0]
    r.1.Reachable s ∧ (s.headers r.1.header_page_id_).GetDirectoryPageId 0 ≠ INVALID_PAGE_ID ∧
      let d := s.directories ((s.headers r.1.header_page_id_).GetDirectoryPageId 0)
      d.Integrity ∧ ∀ i < 2 ^ d.global_depth_,
        Nat.count (fun j => d.bucket_page_ids_ j = d.bucket_page_ids_ i) (2 ^ d.global_depth_) =
          2 ^ (d.global_depth_ - d.local_depths_ i) :=
  have hs := (Reachable.init (fun a b : Nat => if a = b then (0 : Int) else 1) id 0 1 1
    PageStore.empty).run [.Insert 0 (0 : Nat)]
  have hlinked : (((new (fun a b : Nat => if a = b then (0 : Int) else 1) id 0 1 1
      PageStore.empty).1.run (new (fun a b : Nat => if a = b then (0 : Int) else 1) id 0 1 1
      PageStore.empty).2 [.Insert 0 0]).headers 0).GetDirectoryPageId 0 ≠ INVALID_PAGE_ID := by
    decide
  ⟨hs, hlinked, Reachable.directory_integrity hs (by decide) (by decide) (by decide) hlinked⟩

end Runs

end DiskExtendibleHashTable

end bustub
