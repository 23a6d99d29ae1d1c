import MiniBusTub.Container.HashTableInvariant
import MiniBusTub.Container.MigrateEntries

namespace bustub

open ExtendibleHTableDirectoryPage ExtendibleHTableBucketPage

namespace PageStore

variable {K V : Type} {s : PageStore K V}

@[simp] theorem setHeader_buckets (p : Int) (h : ExtendibleHTableHeaderPage) :
    (s.setHeader p h).buckets = s.buckets := rfl

@[simp] theorem setDirectory_buckets (p : Int) (d : ExtendibleHTableDirectoryPage) :
    (s.setDirectory p d).buckets = s.buckets := rfl

theorem NewPage_directories_of_lt {p : Int} (hp : p < s.next_page_id_) :
    s.NewPage.2.directories p = s.directories p := by
  simp [Int.ne_of_lt hp]

theorem NewPage_buckets_of_lt {p : Int} (hp : p < s.next_page_id_) :
    s.NewPage.2.buckets p = s.buckets p := by
  simp [Int.ne_of_lt hp]

end PageStore

namespace DiskExtendibleHashTable

variable {K V : Type} {ht : DiskExtendibleHashTable K V} {s s' : PageStore K V}

/-- The bucket page `GetValue`, `Insert` and `Remove` read for a key, when the header links a
    directory page for it. -/
def route (ht : DiskExtendibleHashTable K V) (s : PageStore K V) (key : K) : Option Int :=
  let header_page := s.headers ht.header_page_id_
  let directory_page_id :=
    header_page.GetDirectoryPageId (header_page.HashToDirectoryIndex (ht.Hash key))
  if directory_page_id = INVALID_PAGE_ID then none
  else
    let directory_page := s.directories directory_page_id
    some (directory_page.GetBucketPageId (directory_page.HashToBucketIndex (ht.Hash key)))

theorem GetValue_eq_route (key : K) :
    ht.GetValue s key = (ht.route s key).bind fun q => (s.buckets q).Lookup key ht.cmp_ := by
  simp only [GetValue, route]
  split_ifs <;> rfl

theorem Remove_eq_route [Inhabited K] [Inhabited V] (key : K) :
    ht.Remove s key = match ht.route s key with
      | none => (false, s)
      | some q => (((s.buckets q).Remove key ht.cmp_).1,
          s.setBucket q ((s.buckets q).Remove key ht.cmp_).2) := by
  simp only [DiskExtendibleHashTable.Remove, route]
  split_ifs <;> rfl

theorem route_setBucket (p : Int) (b : ExtendibleHTableBucketPage K V) (key : K) :
    ht.route (s.setBucket p b) key = ht.route s key := rfl

/-- Writing a bucket page changes what `GetValue` finds for exactly the keys routed to it. -/
theorem GetValue_setBucket (p : Int) (b : ExtendibleHTableBucketPage K V) (key : K) :
    ht.GetValue (s.setBucket p b) key =
      if ht.route s key = some p then b.Lookup key ht.cmp_ else ht.GetValue s key := by
  rw [GetValue_eq_route, GetValue_eq_route, route_setBucket]
  cases ht.route s key with
  | none => rfl
  | some q => by_cases hq : q = p <;> simp [hq, PageStore.setBucket]

/-- `Insert` of a key routed to a bucket page with room is that page's own `Insert`. -/
theorem Insert_of_room [Inhabited K] [Inhabited V] {key : K} {q : Int}
    (hq : ht.route s key = some q) (hroom : (s.buckets q).IsFull = false) (value : V) :
    ht.Insert s key value = (true, s.setBucket q ((s.buckets q).Insert key value ht.cmp_).2) := by
  simp only [route] at hq
  simp only [DiskExtendibleHashTable.Insert]
  split_ifs at hq with hlinked
  cases hq
  rw [if_neg hlinked, if_neg (by simpa using hroom)]

/-- `Insert` of a key whose header slot links no directory page makes a new one. -/
theorem Insert_of_unlinked [Inhabited K] [Inhabited V] {key : K} (hq : ht.route s key = none)
    (value : V) :
    ht.Insert s key value = ht.InsertToNewDirectory s
      ((s.headers ht.header_page_id_).HashToDirectoryIndex (ht.Hash key)) key value := by
  simp only [route] at hq
  simp only [DiskExtendibleHashTable.Insert]
  split_ifs at hq with hlinked
  rw [if_pos hlinked]

/-- The directory page id a header slot holds. -/
def directoryAt (ht : DiskExtendibleHashTable K V) (s : PageStore K V) (slot : Nat) : Int :=
  (s.headers ht.header_page_id_).GetDirectoryPageId slot

/-- A bucket page some key can be routed to: linked from a live slot of a directory page that
    a live slot of the header links. -/
def LiveBucket (ht : DiskExtendibleHashTable K V) (s : PageStore K V) (q : Int) : Prop :=
  ∃ slot < 2 ^ ht.header_max_depth_, ∃ x, ht.directoryAt s slot ≠ INVALID_PAGE_ID ∧
    x < 2 ^ (s.directories (ht.directoryAt s slot)).global_depth_ ∧
    (s.directories (ht.directoryAt s slot)).GetBucketPageId x = q

theorem Invariant.route_live (h : ht.Invariant s) (hH : ht.header_max_depth_ ≤ 9)
    (hD : ht.directory_max_depth_ ≤ 9) {key : K} {q : Int} (hq : ht.route s key = some q) :
    ht.LiveBucket s q := by
  simp only [route] at hq
  split_ifs at hq with hlinked
  have hslot := h.directory_index_lt hH key
  exact ⟨_, hslot, _, hlinked, (h.directories_ok _ hslot hlinked).bucket_index_lt hD _,
    Option.some.inj hq⟩

/-- A directory page a live header slot links is allocated. -/
theorem Invariant.directoryAt_lt (h : ht.Invariant s) {slot : Nat}
    (hslot : slot < 2 ^ ht.header_max_depth_)
    (hlinked : ht.directoryAt s slot ≠ INVALID_PAGE_ID) :
    ht.directoryAt s slot < s.next_page_id_ :=
  (h.directories_ok slot hslot hlinked).allocated

/-- A bucket page a key can be routed to is allocated. -/
theorem Invariant.live_lt (h : ht.Invariant s) {q : Int} (hq : ht.LiveBucket s q) :
    q < s.next_page_id_ := by
  obtain ⟨slot, hslot, x, hlinked, hx, rfl⟩ := hq
  exact (h.directories_ok slot hslot hlinked).buckets_allocated x hx

/-- What every bucket page a key can reach holds to: the bucket-page invariant at the table's
    capacity, and only entries satisfying `ok`. -/
structure BucketOk (ht : DiskExtendibleHashTable K V) (ok : K × V → Prop)
    (b : ExtendibleHTableBucketPage K V) : Prop where
  invariant : b.Invariant ht.cmp_
  max_size : b.max_size_ = ht.bucket_max_size_
  entries : ∀ e ∈ b.array_, ok e

section Bucket

variable {ok : K × V → Prop} {b : ExtendibleHTableBucketPage K V}

theorem BucketOk.Init (b : ExtendibleHTableBucketPage K V) :
    BucketOk ht ok (b.Init ht.bucket_max_size_) :=
  ⟨Invariant.Init b _, rfl, by simp⟩

theorem BucketOk.Insert (hcmp : Equivalence fun a b => ht.cmp_ a b = 0) (h : BucketOk ht ok b)
    {key : K} {value : V} (hok : ok (key, value)) :
    BucketOk ht ok (b.Insert key value ht.cmp_).2 := by
  refine ⟨h.invariant.Insert hcmp key value, by simp [h.max_size], fun e he => ?_⟩
  rw [h.invariant.Insert_eq] at he
  split_ifs at he
  · rcases List.mem_append.1 he with he | he
    · exact h.entries e he
    · rw [List.mem_singleton.1 he]; exact hok
  · exact h.entries e he

theorem BucketOk.Remove [Inhabited K] [Inhabited V]
    (hcmp : Equivalence fun a b => ht.cmp_ a b = 0) (h : BucketOk ht ok b) (key : K) :
    BucketOk ht ok (b.Remove key ht.cmp_).2 :=
  ⟨h.invariant.Remove hcmp key, by simp [h.max_size], fun e he =>
    h.entries e (List.mem_of_mem_filter ((h.invariant.Remove_perm hcmp key).2.mem_iff.1 he))⟩

theorem BucketOk.mono {ok' : K × V → Prop} (h : BucketOk ht ok b)
    (himp : ∀ e, ok e → ok' e) :
    BucketOk ht ok' b :=
  ⟨h.invariant, h.max_size, fun e he => himp e (h.entries e he)⟩

theorem MigrateEntries_max_size [Inhabited K] [Inhabited V]
    (new_bucket_idx local_depth_mask : Nat) :
    ∀ (fuel : Nat) (old_bucket new_bucket : ExtendibleHTableBucketPage K V) (i tmp_size : Nat),
      (MigrateEntries.loop ht new_bucket_idx local_depth_mask fuel old_bucket new_bucket i
          tmp_size).1.max_size_ = old_bucket.max_size_ ∧
        (MigrateEntries.loop ht new_bucket_idx local_depth_mask fuel old_bucket new_bucket i
          tmp_size).2.max_size_ = new_bucket.max_size_
  | 0, _, _, _, _ => ⟨rfl, rfl⟩
  | fuel + 1, old_bucket, new_bucket, i, tmp_size => by
    rw [MigrateEntries.loop]
    dsimp only
    split_ifs
    · exact MigrateEntries_max_size _ _ fuel _ _ _ _
    · exact (MigrateEntries_max_size _ _ fuel _ _ _ _).imp (·.trans (Remove_max_size _ _ _))
        (·.trans (Insert_max_size _ _ _ _))
    · exact ⟨rfl, rfl⟩

/-- Migrating a bucket into a fresh one leaves two buckets that hold to the same. -/
theorem BucketOk.MigrateEntries [Inhabited K] [Inhabited V]
    (hcmp : Equivalence fun a b => ht.cmp_ a b = 0) (h : BucketOk ht ok b)
    (b₀ : ExtendibleHTableBucketPage K V) (new_bucket_idx mask : Nat) :
    let r := ht.MigrateEntries b (b₀.Init ht.bucket_max_size_) new_bucket_idx mask
    BucketOk ht ok r.1 ∧ BucketOk ht ok r.2 := by
  intro r
  have hperm : List.Perm (r.1.array_ ++ r.2.array_) b.array_ :=
    (MigrateEntries_perm hcmp h.invariant rfl (by simp [h.max_size])).1
  obtain ⟨hmax₁, hmax₂⟩ :
      r.1.max_size_ = b.max_size_ ∧ r.2.max_size_ = ht.bucket_max_size_ :=
    @MigrateEntries_max_size K V ht _ _ new_bucket_idx mask b.Size b
      (b₀.Init ht.bucket_max_size_) 0 b.Size
  have hpair := List.pairwise_append.1 <| hperm.symm.pairwise h.invariant.distinct
    fun hne heq => hne (hcmp.symm heq)
  have hlen := hperm.length_eq
  have hsize := h.invariant.size_le
  simp only [List.length_append, ExtendibleHTableBucketPage.Size] at hlen hsize
  have hentries : ∀ e ∈ r.1.array_ ++ r.2.array_, ok e :=
    fun e he => h.entries e (hperm.mem_iff.1 he)
  refine ⟨⟨⟨?_, hpair.1⟩, ?_, fun e he => hentries e (List.mem_append_left _ he)⟩,
    ⟨⟨?_, hpair.2.1⟩, ?_, fun e he => hentries e (List.mem_append_right _ he)⟩⟩
  · show r.1.array_.length ≤ r.1.max_size_
    rw [hmax₁]; omega
  · exact hmax₁.trans h.max_size
  · show r.2.array_.length ≤ r.2.max_size_
    rw [hmax₂, ← h.max_size]; omega
  · exact hmax₂

end Bucket

section Store

variable {ok ok' : K × V → Prop}

/-- Every bucket page a key can reach is `BucketOk`. -/
def BucketsOk (ht : DiskExtendibleHashTable K V) (ok : K × V → Prop) (s : PageStore K V) :
    Prop :=
  ∀ q, ht.LiveBucket s q → BucketOk ht ok (s.buckets q)

theorem BucketsOk.mono (h : ht.BucketsOk ok s) (himp : ∀ e, ok e → ok' e) :
    ht.BucketsOk ok' s :=
  fun q hq => (h q hq).mono himp

/-- Writing a bucket page keeps `BucketsOk` when the page, if a key can reach it, gets a
    `BucketOk` bucket. -/
theorem BucketsOk.setBucket (h : ht.BucketsOk ok s) {p : Int} {b : ExtendibleHTableBucketPage K V}
    (hb : ht.LiveBucket s p → BucketOk ht ok b) : ht.BucketsOk ok (s.setBucket p b) :=
  fun q hq => by
    simp only [PageStore.setBucket, updateAt_apply]
    split_ifs with hqp
    · exact hb (hqp ▸ hq)
    · exact h q hq

section Frame

variable (hinv : ht.Invariant s)
  (hheader : s'.headers ht.header_page_id_ = s.headers ht.header_page_id_)
  (hdirs : ∀ p < s.next_page_id_, s'.directories p = s.directories p)
include hinv hheader hdirs

/-- A store that keeps the header page and every allocated directory page lets keys reach
    the same bucket pages. -/
theorem Invariant.liveBucket_frame {q : Int} : ht.LiveBucket s' q ↔ ht.LiveBucket s q := by
  have hslot : ∀ slot, ht.directoryAt s' slot = ht.directoryAt s slot := fun slot => by
    simp only [directoryAt, hheader]
  have hsame : ∀ slot < 2 ^ ht.header_max_depth_, ht.directoryAt s slot ≠ INVALID_PAGE_ID →
      s'.directories (ht.directoryAt s slot) = s.directories (ht.directoryAt s slot) :=
    fun slot hslot hlinked => hdirs _ (hinv.directoryAt_lt hslot hlinked)
  constructor
  · rintro ⟨slot, hlt, x, hlinked, hx, hq⟩
    rw [hslot] at hlinked hx hq
    rw [hsame slot hlt hlinked] at hx hq
    exact ⟨slot, hlt, x, hlinked, hx, hq⟩
  · rintro ⟨slot, hlt, x, hlinked, hx, hq⟩
    refine ⟨slot, hlt, x, ?_⟩
    rw [hslot, hsame slot hlt hlinked]
    exact ⟨hlinked, hx, hq⟩

/-- A store that also keeps every allocated bucket page keeps `BucketsOk`. -/
theorem BucketsOk.frame (h : ht.BucketsOk ok s)
    (hbuckets : ∀ p < s.next_page_id_, s'.buckets p = s.buckets p) : ht.BucketsOk ok s' :=
  fun q hq => by
    have hq' := (hinv.liveBucket_frame hheader hdirs).1 hq
    rw [hbuckets q (hinv.live_lt hq')]
    exact h q hq'

/-- Such a store routes every key as before. -/
theorem Invariant.route_frame (hH : ht.header_max_depth_ ≤ 9) (key : K) :
    ht.route s' key = ht.route s key := by
  simp only [route, hheader]
  split_ifs with hlinked
  · rfl
  · rw [hdirs ((s.headers ht.header_page_id_).GetDirectoryPageId _)
      (hinv.directories_ok _ (hinv.directory_index_lt hH key) hlinked).allocated]

/-- Such a store answers every lookup as before. -/
theorem Invariant.GetValue_frame (hH : ht.header_max_depth_ ≤ 9)
    (hD : ht.directory_max_depth_ ≤ 9)
    (hbuckets : ∀ p < s.next_page_id_, s'.buckets p = s.buckets p) (key : K) :
    ht.GetValue s' key = ht.GetValue s key := by
  rw [GetValue_eq_route, GetValue_eq_route, hinv.route_frame hheader hdirs hH]
  cases hq : ht.route s key with
  | none => rfl
  | some q =>
    simp only [Option.some_bind]
    rw [hbuckets q (hinv.live_lt (hinv.route_live hH hD hq))]

end Frame

theorem Invariant.NewPage_headers (hinv : ht.Invariant s) :
    s.NewPage.2.headers ht.header_page_id_ = s.headers ht.header_page_id_ := by
  simp [Int.ne_of_lt hinv.header_allocated]

theorem BucketsOk.NewPage (hinv : ht.Invariant s) (h : ht.BucketsOk ok s) :
    ht.BucketsOk ok s.NewPage.2 :=
  h.frame hinv hinv.NewPage_headers (fun _ => PageStore.NewPage_directories_of_lt)
    fun _ => PageStore.NewPage_buckets_of_lt

end Store

theorem InsertToNewBucket_eq (d : ExtendibleHTableDirectoryPage) (idx : Nat) (key : K)
    (value : V) :
    ht.InsertToNewBucket s d idx key value =
      let b := ((s.NewPage.2.buckets s.next_page_id_).Init ht.bucket_max_size_).Insert key value
        ht.cmp_
      (b.1, if b.1 then (d.SetBucketPageId idx s.next_page_id_).SetLocalDepth idx 0 else d,
        s.NewPage.2.setBucket s.next_page_id_ b.2) := by
  simp only [InsertToNewBucket]
  split <;> simp_all

theorem InsertToNewDirectory_eq (idx : Nat) (key : K) (value : V) :
    ht.InsertToNewDirectory s idx key value =
      let r := ht.InsertToNewBucket s.NewPage.2
        ((s.NewPage.2.directories s.next_page_id_).Init ht.directory_max_depth_) 0 key value
      let s₂ := r.2.2.setDirectory s.next_page_id_ r.2.1
      if r.1 then (true, s₂.setHeader ht.header_page_id_
        ((s₂.headers ht.header_page_id_).SetDirectoryPageId idx s.next_page_id_))
      else (false, s₂) := rfl

theorem Insert.finish_eq [Inhabited K] [Inhabited V] (key : K) (value : V) (dp : Int)
    (d : ExtendibleHTableDirectoryPage) (bp : Int) (b : ExtendibleHTableBucketPage K V) (np : Int)
    (nb : ExtendibleHTableBucketPage K V) (nidx mask : Nat) :
    Insert.finish ht s key value dp d bp b np nb nidx mask =
      let r := ht.MigrateEntries b nb nidx mask
      let r' := if nidx ≠ ht.Hash key &&& mask then ((r.1.Insert key value ht.cmp_).2, r.2)
        else (r.1, (r.2.Insert key value ht.cmp_).2)
      (true, ((s.setDirectory dp d).setBucket bp r'.1).setBucket np r'.2) := rfl

theorem Insert.finish_fst [Inhabited K] [Inhabited V] (key : K) (value : V) (dp : Int)
    (d : ExtendibleHTableDirectoryPage) (bp : Int) (b : ExtendibleHTableBucketPage K V) (np : Int)
    (nb : ExtendibleHTableBucketPage K V) (nidx mask : Nat) :
    (Insert.finish ht s key value dp d bp b np nb nidx mask).1 = true := rfl

/-- The two pages `InsertToNewDirectory` allocates and writes leave every page allocated
    before as it was. -/
theorem Invariant.fresh_frame (hinv : ht.Invariant s) (b : ExtendibleHTableBucketPage K V)
    (d : ExtendibleHTableDirectoryPage) :
    let s₂ := (s.NewPage.2.NewPage.2.setBucket (s.next_page_id_ + 1) b).setDirectory
      s.next_page_id_ d
    s₂.headers ht.header_page_id_ = s.headers ht.header_page_id_ ∧
      (∀ p < s.next_page_id_, s₂.directories p = s.directories p) ∧
      ∀ p < s.next_page_id_, s₂.buckets p = s.buckets p := by
  have hhdr := hinv.header_allocated
  refine ⟨?_, fun p hp => ?_, fun p hp => ?_⟩
  · simp [Int.ne_of_lt hhdr, show ht.header_page_id_ ≠ s.next_page_id_ + 1 by omega]
  · simp [Int.ne_of_lt hp, show p ≠ s.next_page_id_ + 1 by omega]
  · simp [PageStore.setBucket, Int.ne_of_lt hp, show p ≠ s.next_page_id_ + 1 by omega]

/-- `InsertToNewDirectory` for a key whose header slot links nothing, with room for an entry
    in a page, succeeds: the key then finds the value, and a key not equivalent to it finds
    what it found before. -/
theorem Invariant.InsertToNewDirectory_GetValue (hinv : ht.Invariant s)
    (hcmp : Equivalence fun a b => ht.cmp_ a b = 0) (hH : ht.header_max_depth_ ≤ 9)
    (hD : ht.directory_max_depth_ ≤ 9) (hnext : 0 ≤ s.next_page_id_)
    (hpos : 0 < ht.bucket_max_size_) {key : K} (hq : ht.route s key = none) (value : V) :
    let r := ht.InsertToNewDirectory s
      ((s.headers ht.header_page_id_).HashToDirectoryIndex (ht.Hash key)) key value
    r.1 = true ∧ ht.GetValue r.2 key = some value ∧
      ∀ k, ht.cmp_ k key ≠ 0 → ht.GetValue r.2 k = ht.GetValue s k := by
  set header := s.headers ht.header_page_id_
  set idx := header.HashToDirectoryIndex (ht.Hash key)
  set b : ExtendibleHTableBucketPage K V := ⟨[(key, value)], ht.bucket_max_size_⟩
  set d := (((s.NewPage.2.directories s.next_page_id_).Init ht.directory_max_depth_).SetBucketPageId
    0 (s.next_page_id_ + 1)).SetLocalDepth 0 0 with hd
  have hins : ((s.NewPage.2.NewPage.2.buckets (s.next_page_id_ + 1)).Init
      ht.bucket_max_size_).Insert key value ht.cmp_ = (true, b) := by
    simp [b, ExtendibleHTableBucketPage.Insert, IsFull, ExtendibleHTableBucketPage.Size, hpos.ne]
  obtain ⟨hheader, hdirs, hbuckets⟩ := hinv.fresh_frame b d
  -- the new directory sends every key of slot `idx` to the new bucket page
  have hget : ∀ k, ht.GetValue
      (((s.NewPage.2.NewPage.2.setBucket (s.next_page_id_ + 1) b).setDirectory s.next_page_id_
        d).setHeader ht.header_page_id_ (header.SetDirectoryPageId idx s.next_page_id_)) k =
      if header.HashToDirectoryIndex (ht.Hash k) = idx then b.Lookup k ht.cmp_
      else ht.GetValue s k := fun k => by
    have hslot := hinv.directory_index_lt hH k
    simp only [GetValue, PageStore.setHeader_headers, updateAt_apply, if_true,
      ExtendibleHTableHeaderPage.GetDirectoryPageId_SetDirectoryPageId,
      ExtendibleHTableHeaderPage.HashToDirectoryIndex_SetDirectoryPageId,
      PageStore.setHeader_directories, PageStore.setHeader_buckets]
    split_ifs with hidx hinvalid hlinked
    · exact absurd hinvalid (by rw [INVALID_PAGE_ID]; omega)
    · have hmask : shl32 1 0 - 1 = 0 := rfl
      simp [hd, HashToBucketIndex, GetGlobalDepthMask, GetBucketPageId, PageStore.setBucket, hmask]
    · rfl
    · have hdok : ht.DirectoryOk s (header.GetDirectoryPageId _) :=
        hinv.directories_ok _ hslot hlinked
      rw [hdirs _ hdok.allocated, hbuckets ((s.directories _).GetBucketPageId _)
        (hdok.buckets_allocated _ (hdok.bucket_index_lt hD _))]
  dsimp only
  rw [InsertToNewDirectory_eq, InsertToNewBucket_eq]
  simp only [PageStore.NewPage_fst, PageStore.NewPage_next_page_id, hins, if_true, hheader]
  refine ⟨trivial, ?_, fun k hk => ?_⟩
  · rw [hget, if_pos rfl]
    simp [b, Lookup, hcmp.refl key]
  rw [hget]
  split_ifs with hidx
  · have hunlinked : header.GetDirectoryPageId idx = INVALID_PAGE_ID := by
      simp only [route] at hq
      split_ifs at hq with h
      exact h
    simp [b, Lookup, hk, GetValue, hidx, hunlinked]
  · rfl

/-- An `Insert` that returns false changes what `GetValue` finds for no key: the pages it
    allocated on the way are reachable from nowhere. -/
theorem Invariant.GetValue_Insert_of_false [Inhabited K] [Inhabited V] (hinv : ht.Invariant s)
    (hH : ht.header_max_depth_ ≤ 9) (hD : ht.directory_max_depth_ ≤ 9) {key : K} {value : V}
    (hfalse : (ht.Insert s key value).1 = false) (k : K) :
    ht.GetValue (ht.Insert s key value).2 k = ht.GetValue s k := by
  simp only [DiskExtendibleHashTable.Insert] at hfalse ⊢
  split_ifs at hfalse ⊢ with hinvalid hfull
  · rw [InsertToNewDirectory_eq] at hfalse ⊢
    dsimp only at hfalse ⊢
    split_ifs at hfalse ⊢
    rw [InsertToNewBucket_eq]
    obtain ⟨hheader, hdirs, hbuckets⟩ := hinv.fresh_frame _ _
    exact hinv.GetValue_frame hheader hdirs hH hD hbuckets k
  · simp only [Insert.split] at hfalse ⊢
    split_ifs at hfalse ⊢
    · -- the refused split only zeroes a fresh page
      refine hinv.GetValue_frame ?_ (fun p hp => ?_) hH hD (fun p hp => ?_) k
      · exact hinv.NewPage_headers
      · exact PageStore.NewPage_directories_of_lt hp
      · simp [PageStore.setBucket, Int.ne_of_lt hp]
    all_goals simp [Insert.finish_fst] at hfalse

/-- With one entry a bucket page and directories of depth `0`, a second key finds its bucket
    page full and the directory unable to grow, and `Insert` refuses it. -/
theorem GetValue_Insert_of_false_full_directory :
    let r : DiskExtendibleHashTable Int Int × PageStore Int Int :=
      new IntComparator Int.toNat 0 0 1 PageStore.empty
    let s := r.1.run r.2 [.Insert 1 10]
    (r.1.Insert s 2 20).1 = false ∧
      r.1.GetValue (r.1.Insert s 2 20).2 1 = r.1.GetValue s 1 :=
  ⟨by decide, Invariant.GetValue_Insert_of_false
    (((Reachable.init _ _ _ _ _ _).run _).invariant (by decide) (by decide)) (by decide) (by decide)
    (by decide) 1⟩

section Operations

variable {ok : K × V → Prop} (hcmp : Equivalence fun a b => ht.cmp_ a b = 0)
  (hinv : ht.Invariant s)
include hcmp hinv

/-- `InsertToNewDirectory` only makes a key reach the new bucket page, which holds the pair. -/
theorem BucketsOk.InsertToNewDirectory (h : ht.BucketsOk ok s) {key : K} {value : V}
    (hok : ok (key, value)) (idx : Nat) :
    ht.BucketsOk ok (ht.InsertToNewDirectory s idx key value).2 := by
  rw [InsertToNewDirectory_eq, InsertToNewBucket_eq]
  simp only [PageStore.NewPage_fst, PageStore.NewPage_next_page_id]
  split_ifs with hins
  · obtain ⟨hheader, hdirs, hbuckets⟩ := hinv.fresh_frame _
      (((ExtendibleHTableDirectoryPage.Init _ ht.directory_max_depth_).SetBucketPageId 0
        (s.next_page_id_ + 1)).SetLocalDepth 0 0)
    intro q ⟨slot, hslot, x, hlinked, hx, hq⟩
    simp only [directoryAt, PageStore.setHeader_headers, updateAt_apply, if_true,
      ExtendibleHTableHeaderPage.GetDirectoryPageId_SetDirectoryPageId,
      PageStore.setHeader_directories] at hlinked hx hq
    split_ifs at hlinked hx hq with hidx
    · -- the new directory: its one live slot links the new bucket
      simp only [PageStore.setDirectory_directories, updateAt_apply, if_true,
        SetLocalDepth_global_depth, SetBucketPageId_global_depth, Init_global_depth,
        Nat.pow_zero, Nat.lt_one_iff] at hx hq
      subst hx
      simp only [GetBucketPageId, SetLocalDepth_bucket_page_ids, SetBucketPageId_bucket_page_ids,
        updateAt_apply, if_true] at hq
      subst hq
      simpa [PageStore.setBucket] using (BucketOk.Init _).Insert hcmp hok
    · -- any other slot reaches what it reached before
      rw [hheader] at hlinked hx hq
      rw [hdirs ((s.headers ht.header_page_id_).GetDirectoryPageId slot)
        (hinv.directoryAt_lt hslot hlinked)] at hx hq
      have hlive : ht.LiveBucket s q := ⟨slot, hslot, x, hlinked, hx, hq⟩
      rw [PageStore.setHeader_buckets, hbuckets q (hinv.live_lt hlive)]
      exact h q hlive
  · obtain ⟨hheader, hdirs, hbuckets⟩ := hinv.fresh_frame _ _
    exact h.frame hinv hheader hdirs hbuckets

omit hcmp in
/-- What the full-bucket branch writes keeps `BucketsOk`: a directory page whose live slots
    link only the new page or pages the old one linked, and two `BucketOk` buckets, one at the
    new page. -/
theorem BucketsOk.split_write (h : ht.BucketsOk ok s) {dp : Int}
    {d : ExtendibleHTableDirectoryPage}
    (hd : ∀ x < 2 ^ d.global_depth_, d.GetBucketPageId x = s.next_page_id_ ∨
      ∃ y < 2 ^ (s.directories dp).global_depth_,
        d.GetBucketPageId x = (s.directories dp).GetBucketPageId y)
    {bp : Int} {b₁ b₂ : ExtendibleHTableBucketPage K V} (hb₁ : BucketOk ht ok b₁)
    (hb₂ : BucketOk ht ok b₂) :
    ht.BucketsOk ok (((s.NewPage.2.setDirectory dp d).setBucket bp b₁).setBucket
      s.next_page_id_ b₂) := by
  have hslot : ∀ slot, ht.directoryAt
      (((s.NewPage.2.setDirectory dp d).setBucket bp b₁).setBucket s.next_page_id_ b₂) slot =
        ht.directoryAt s slot := fun slot => by
    simp only [directoryAt, PageStore.setBucket_headers, PageStore.setDirectory_headers,
      hinv.NewPage_headers]
  rintro q ⟨slot, hlt, x, hlinked, hx, hq⟩
  rw [hslot] at hlinked hx hq
  simp only [PageStore.setBucket_directories, PageStore.setDirectory_directories,
    updateAt_apply] at hx hq
  have hlive : q = s.next_page_id_ ∨ ht.LiveBucket s q := by
    split_ifs at hx hq with hdp
    · rcases hd x hx with hnew | ⟨y, hy, hsame⟩
      · exact .inl (hq ▸ hnew)
      · rw [← hdp] at hy hsame
        exact .inr ⟨slot, hlt, y, hlinked, hy, hsame ▸ hq⟩
    · rw [PageStore.NewPage_directories_of_lt (hinv.directoryAt_lt hlt hlinked)] at hx hq
      exact .inr ⟨slot, hlt, x, hlinked, hx, hq⟩
  simp only [PageStore.setBucket, updateAt_apply, PageStore.setDirectory_buckets]
  rcases hlive with rfl | hq'
  · simpa using hb₂
  · have hqlt := hinv.live_lt hq'
    rw [if_neg (Int.ne_of_lt hqlt)]
    split_ifs
    · exact hb₁
    · rw [PageStore.NewPage_buckets_of_lt hqlt]
      exact h q hq'

/-- The tail of the full-bucket branch keeps `BucketsOk` when the directory page it writes
    links, from its live slots, only the new page or pages that the old one linked. -/
theorem BucketsOk.finish [Inhabited K] [Inhabited V] (h : ht.BucketsOk ok s) {key : K}
    {value : V} (hok : ok (key, value)) {dp : Int} {d : ExtendibleHTableDirectoryPage}
    (hd : ∀ x < 2 ^ d.global_depth_, d.GetBucketPageId x = s.next_page_id_ ∨
      ∃ y < 2 ^ (s.directories dp).global_depth_,
        d.GetBucketPageId x = (s.directories dp).GetBucketPageId y)
    {bp : Int} (hbp : ht.LiveBucket s bp) (nidx mask : Nat) :
    ht.BucketsOk ok (Insert.finish ht s.NewPage.2 key value dp d bp (s.buckets bp)
      s.next_page_id_ ((s.NewPage.2.buckets s.next_page_id_).Init ht.bucket_max_size_) nidx
      mask).2 := by
  obtain ⟨hb₁, hb₂⟩ :=
    (h bp hbp).MigrateEntries hcmp (s.NewPage.2.buckets s.next_page_id_) nidx mask
  rw [Insert.finish_eq]
  dsimp only
  split_ifs
  · exact h.split_write hinv hd (hb₁.Insert hcmp hok) hb₂
  · exact h.split_write hinv hd hb₁ (hb₂.Insert hcmp hok)

/-- The full-bucket branch of `Insert` at a live slot keeps `BucketsOk`: the new page holds
    entries of the split bucket, or the pair. -/
theorem BucketsOk.split [Inhabited K] [Inhabited V] (h : ht.BucketsOk ok s)
    (hD : ht.directory_max_depth_ ≤ 9) {key : K} {value : V} (hok : ok (key, value))
    {slot : Nat} (hslot : slot < 2 ^ ht.header_max_depth_)
    (hlinked : ht.directoryAt s slot ≠ INVALID_PAGE_ID) {i : Nat}
    (hi : i < 2 ^ (s.directories (ht.directoryAt s slot)).global_depth_) :
    ht.BucketsOk ok (Insert.split ht s key value (ht.directoryAt s slot)
      (s.directories (ht.directoryAt s slot)) i
      ((s.directories (ht.directoryAt s slot)).GetBucketPageId i)
      (s.buckets ((s.directories (ht.directoryAt s slot)).GetBucketPageId i))).2 := by
  have hdok : ht.DirectoryOk s (ht.directoryAt s slot) := hinv.directories_ok slot hslot hlinked
  have hbp : ht.LiveBucket s ((s.directories (ht.directoryAt s slot)).GetBucketPageId i) :=
    ⟨slot, hslot, i, hlinked, hi, rfl⟩
  have hgmax := hdok.integrity.global_le_max
  have hmaxD := hdok.max_depth
  have hl := hdok.integrity.local_le_global i hi
  simp only [Insert.split]
  split_ifs with hglobal hsize hlt
  · exact (h.NewPage hinv).setBucket fun _ => BucketOk.Init _
  · have hlt_max : (s.directories (ht.directoryAt s slot)).global_depth_ <
        (s.directories (ht.directoryAt s slot)).max_depth_ :=
      lt_of_le_of_ne hgmax fun heq => hsize ((shl32_one_inj (by omega) (by omega)).2 heq)
    rw [UpdateDirectoryMapping_split_eq hi hglobal.symm (by omega)]
    refine h.finish hcmp hinv hok (fun x hx => ?_) hbp _ _
    rw [splitAt_global_depth, double_global_depth] at hx
    rw [GetBucketPageId, splitAt_bucket_page_ids]
    split_ifs
    · exact .inl rfl
    · exact .inr ⟨_, Nat.mod_lt _ (Nat.two_pow_pos _), double_bucket_page_ids _ hx⟩
  · exact absurd hl (Nat.not_le.2 hlt)
  · exact h.finish hcmp hinv hok (fun x hx => .inr ⟨x, hx, rfl⟩) hbp _ _

/-- `Remove` keeps `BucketsOk`: it rewrites the bucket page the key reaches. -/
theorem BucketsOk.Remove [Inhabited K] [Inhabited V] (h : ht.BucketsOk ok s)
    (hH : ht.header_max_depth_ ≤ 9) (hD : ht.directory_max_depth_ ≤ 9) (key : K) :
    ht.BucketsOk ok (ht.Remove s key).2 := by
  rw [Remove_eq_route]
  cases hq : ht.route s key with
  | none => exact h
  | some q => exact h.setBucket fun _ => (h q (hinv.route_live hH hD hq)).Remove hcmp key

/-- `Insert` of a pair satisfying `ok` keeps `BucketsOk`. -/
theorem BucketsOk.Insert [Inhabited K] [Inhabited V] (h : ht.BucketsOk ok s)
    (hH : ht.header_max_depth_ ≤ 9) (hD : ht.directory_max_depth_ ≤ 9) {key : K} {value : V}
    (hok : ok (key, value)) : ht.BucketsOk ok (ht.Insert s key value).2 := by
  have hslot := hinv.directory_index_lt hH key
  simp only [DiskExtendibleHashTable.Insert]
  split_ifs with hinvalid hfull
  · exact h.InsertToNewDirectory hcmp hinv hok _
  · exact h.split hcmp hinv hD hok hslot hinvalid
      ((hinv.directories_ok _ hslot hinvalid).bucket_index_lt hD _)
  · exact h.setBucket fun hlive => (h _ hlive).Insert hcmp hok

end Operations

/-- The constructor's header links no directory page, so no key reaches a bucket page. -/
theorem BucketsOk.new {ok : K × V → Prop} (cmp : K → K → Int) (hash_fn : K → Nat) {H : Nat}
    (hH : H ≤ 9) (D M : Nat) (s : PageStore K V) :
    (new cmp hash_fn H D M s).1.BucketsOk ok (new cmp hash_fn H D M s).2 := by
  rintro q ⟨slot, hslot, x, hlinked, -⟩
  have hslot' : slot < shl32 1 H := by rw [shl32_one (by omega)]; exact hslot
  exact absurd (by simp [DiskExtendibleHashTable.new, ExtendibleHTableHeaderPage.Init, directoryAt,
    ExtendibleHTableHeaderPage.GetDirectoryPageId, hslot']) hlinked

section Runs

variable [Inhabited K] [Inhabited V] {ok : K × V → Prop}

theorem Reachable.bucketsOk (hs : ht.Reachable s) (hcmp : Equivalence fun a b => ht.cmp_ a b = 0)
    (hH : ht.header_max_depth_ ≤ 9) (hD : ht.directory_max_depth_ ≤ 9) :
    ht.BucketsOk (fun _ => True) s := by
  induction hs with
  | init cmp hash_fn H D M s => exact BucketsOk.new cmp hash_fn hH D M s
  | Insert key value hs ih => exact (ih hcmp hH hD).Insert hcmp (hs.invariant hH hD) hH hD trivial
  | Remove key hs ih => exact (ih hcmp hH hD).Remove hcmp (hs.invariant hH hD) hH hD key

/-- In every reachable store, a bucket page that some key can reach holds pairwise
    inequivalent keys, and no more than `bucket_max_size` of them: neither `Insert` nor the
    split it makes ever puts a key twice into a page or overfills one. -/
theorem Reachable.bucket_keys_distinct (hs : ht.Reachable s)
    (hcmp : Equivalence fun a b => ht.cmp_ a b = 0) (hH : ht.header_max_depth_ ≤ 9)
    (hD : ht.directory_max_depth_ ≤ 9) {q : Int} (hq : ht.LiveBucket s q) :
    (s.buckets q).array_.Pairwise (fun e e' => ht.cmp_ e.1 e'.1 ≠ 0) ∧
      (s.buckets q).Size ≤ ht.bucket_max_size_ := by
  have hb := hs.bucketsOk hcmp hH hD q hq
  exact ⟨hb.invariant.distinct, hb.max_size ▸ hb.invariant.size_le⟩

/-- Two keys inserted into a new table share its one bucket page, page `2`. -/
theorem bucket_keys_distinct_after_two_inserts :
    let r : DiskExtendibleHashTable Int Int × PageStore Int Int :=
      new IntComparator Int.toNat 0 1 2 PageStore.empty
    let s := r.1.run r.2 [.Insert 1 10, .Insert 2 20]
    (s.buckets 2).array_.Pairwise (fun e e' => r.1.cmp_ e.1 e'.1 ≠ 0) ∧
      (s.buckets 2).Size ≤ r.1.bucket_max_size_ :=
  Reachable.bucket_keys_distinct ((Reachable.init _ _ _ _ _ _).run _) IntComparator_equivalence
    (by decide) (by decide) ⟨0, by decide, 0, by decide, by decide, by decide⟩

theorem BucketsOk.run (hcmp : Equivalence fun a b => ht.cmp_ a b = 0)
    (hH : ht.header_max_depth_ ≤ 9) (hD : ht.directory_max_depth_ ≤ 9) :
    ∀ (calls : List (Call K V)) {s : PageStore K V}, ht.Reachable s → ht.BucketsOk ok s →
      (∀ key value, Call.Insert key value ∈ calls → ok (key, value)) →
      ht.BucketsOk ok (ht.run s calls)
  | [], _, _, h, _ => h
  | .Insert key value :: calls, _, hs, h, hok =>
    BucketsOk.run hcmp hH hD calls (hs.Insert key value)
      (h.Insert hcmp (hs.invariant hH hD) hH hD (hok key value (List.mem_cons_self _ _)))
      fun k v hm => hok k v (List.mem_cons_of_mem _ hm)
  | .Remove key :: calls, _, hs, h, hok =>
    BucketsOk.run hcmp hH hD calls (hs.Remove key)
      (h.Remove hcmp (hs.invariant hH hD) hH hD key)
      fun k v hm => hok k v (List.mem_cons_of_mem _ hm)

/-- Whatever `Insert` and `Remove` calls a new table receives, a value `GetValue` finds for a
    key was passed to `Insert` together with an equivalent key: the table never makes up a
    value, whatever entries its splits lose. -/
theorem GetValue_run_inserted (cmp : K → K → Int) (hash_fn : K → Nat) {H D : Nat} (M : Nat)
    (s : PageStore K V) (hcmp : Equivalence fun a b => cmp a b = 0) (hH : H ≤ 9) (hD : D ≤ 9)
    (calls : List (Call K V)) (key : K) (value : V) :
    let r : DiskExtendibleHashTable K V × PageStore K V := new cmp hash_fn H D M s
    r.1.GetValue (r.1.run r.2 calls) key = some value →
      ∃ k, Call.Insert k value ∈ calls ∧ cmp key k = 0 := by
  intro r hget
  have hs₀ := Reachable.init cmp hash_fn H D M s
  have hs := hs₀.run calls
  have hb : r.1.BucketsOk (fun e => Call.Insert e.1 e.2 ∈ calls) (r.1.run r.2 calls) :=
    BucketsOk.run hcmp hH hD calls hs₀ (BucketsOk.new cmp hash_fn hH D M s) fun _ _ hm => hm
  rw [GetValue_eq_route] at hget
  obtain ⟨q, hq, hlookup⟩ := Option.bind_eq_some.1 hget
  have hbq := hb q ((hs.invariant hH hD).route_live hH hD hq)
  obtain ⟨k, hk, hkey⟩ := (hbq.invariant.Lookup_eq_some_iff hcmp).1 hlookup
  exact ⟨k, hbq.entries _ hk, hkey⟩

/-- After two inserts, key `2` finds the value inserted with it. -/
theorem GetValue_run_inserted_two_inserts :
    let r : DiskExtendibleHashTable Int Int × PageStore Int Int :=
      new IntComparator Int.toNat 0 1 2 PageStore.empty
    r.1.GetValue (r.1.run r.2 [.Insert 1 10, .Insert 2 20]) 2 = some 20 ∧
      ∃ k, Call.Insert k (20 : Int) ∈ [Call.Insert 1 10, .Insert 2 20] ∧
        IntComparator 2 k = 0 :=
  ⟨by decide, GetValue_run_inserted (H := 0) (D := 1) IntComparator Int.toNat 2
    PageStore.empty IntComparator_equivalence (by decide) (by decide) _ 2 20 (by decide)⟩

/-- On a store whose reachable bucket pages keep their invariant, `Remove` is the map's
    erase. -/
theorem BucketsOk.Remove_map (hcmp : Equivalence fun a b => ht.cmp_ a b = 0)
    (hinv : ht.Invariant s) (hb : ht.BucketsOk ok s) (hH : ht.header_max_depth_ ≤ 9)
    (hD : ht.directory_max_depth_ ≤ 9) (key : K) :
    (ht.Remove s key).1 = (ht.GetValue s key).isSome ∧
      ht.GetValue (ht.Remove s key).2 key = none ∧
      ∀ k, ht.cmp_ k key ≠ 0 → ht.GetValue (ht.Remove s key).2 k = ht.GetValue s k := by
  rw [Remove_eq_route, GetValue_eq_route (s := s) key]
  cases hq : ht.route s key with
  | none => exact ⟨rfl, by rw [GetValue_eq_route, hq]; rfl, fun _ _ => rfl⟩
  | some q =>
    have hbq := (hb q (hinv.route_live hH hD hq)).invariant
    refine ⟨hbq.Remove_fst hcmp key, ?_, fun k hk => ?_⟩
    · rw [GetValue_setBucket, if_pos hq, hbq.Lookup_Remove_self hcmp]
    · rw [GetValue_setBucket]
      split_ifs with hkq
      · rw [GetValue_eq_route, hkq, Option.some_bind, hbq.Lookup_Remove_ne hcmp hk]
      · rfl

/-- On a store whose reachable bucket pages keep their invariant, an `Insert` that needs no
    split is the map's insert-if-absent. -/
theorem BucketsOk.Insert_map (hcmp : Equivalence fun a b => ht.cmp_ a b = 0)
    (hinv : ht.Invariant s) (hb : ht.BucketsOk ok s) (hH : ht.header_max_depth_ ≤ 9)
    (hD : ht.directory_max_depth_ ≤ 9) (hnext : 0 ≤ s.next_page_id_) {key : K}
    (hroom : ∀ q, ht.route s key = some q → (s.buckets q).Size < ht.bucket_max_size_)
    (hpos : 0 < ht.bucket_max_size_) (value : V) :
    (ht.Insert s key value).1 = true ∧
      ht.GetValue (ht.Insert s key value).2 key = some ((ht.GetValue s key).getD value) ∧
      ∀ k, ht.cmp_ k key ≠ 0 → ht.GetValue (ht.Insert s key value).2 k = ht.GetValue s k := by
  cases hq : ht.route s key with
  | none =>
    have hnone : ht.GetValue s key = none := by rw [GetValue_eq_route, hq]; rfl
    rw [Insert_of_unlinked hq, hnone]
    exact hinv.InsertToNewDirectory_GetValue hcmp hH hD hnext hpos hq value
  | some q =>
    have hbq := hb q (hinv.route_live hH hD hq)
    have hlt : (s.buckets q).Size < (s.buckets q).max_size_ := hbq.max_size ▸ hroom q hq
    have hfull : (s.buckets q).IsFull = false := by simpa [IsFull] using Nat.ne_of_lt hlt
    rw [Insert_of_room hq hfull, GetValue_setBucket, if_pos hq, GetValue_eq_route (s := s), hq]
    refine ⟨rfl, hbq.invariant.Lookup_Insert_self hcmp hlt key value, fun k hk => ?_⟩
    rw [GetValue_setBucket]
    split_ifs with hkq
    · rw [GetValue_eq_route, hkq, Option.some_bind, hbq.invariant.Lookup_Insert_ne hk]
    · rfl

/-- On every reachable store `Remove` is the map's erase: it answers whether `GetValue` found
    the key, afterwards `GetValue` finds nothing for the key, and every key not equivalent to
    it finds what it found before. -/
theorem Reachable.Remove_erases (hs : ht.Reachable s)
    (hcmp : Equivalence fun a b => ht.cmp_ a b = 0) (hH : ht.header_max_depth_ ≤ 9)
    (hD : ht.directory_max_depth_ ≤ 9) (key : K) :
    (ht.Remove s key).1 = (ht.GetValue s key).isSome ∧
      ht.GetValue (ht.Remove s key).2 key = none ∧
      ∀ k, ht.cmp_ k key ≠ 0 → ht.GetValue (ht.Remove s key).2 k = ht.GetValue s k :=
  (hs.bucketsOk hcmp hH hD).Remove_map hcmp (hs.invariant hH hD) hH hD key

/-- Key `1` removed from the bucket page it shares with key `2`. -/
theorem Remove_erases_after_two_inserts :
    let r : DiskExtendibleHashTable Int Int × PageStore Int Int :=
      new IntComparator Int.toNat 0 1 2 PageStore.empty
    let s := r.1.run r.2 [.Insert 1 10, .Insert 2 20]
    (r.1.Remove s 1).1 = (r.1.GetValue s 1).isSome ∧
      r.1.GetValue (r.1.Remove s 1).2 1 = none ∧
      ∀ k, r.1.cmp_ k 1 ≠ 0 → r.1.GetValue (r.1.Remove s 1).2 k = r.1.GetValue s k :=
  Reachable.Remove_erases ((Reachable.init _ _ _ _ _ _).run _) IntComparator_equivalence
    (by decide) (by decide) 1

/-- On every reachable store an `Insert` that needs no split is the map's insert-if-absent:
    when the key's bucket page has room, or the key reaches no page and a page holds an entry,
    `Insert` returns true, the key then finds its old value or else the new one, and every key
    not equivalent to it finds what it found before. -/
theorem Reachable.Insert_without_split (hs : ht.Reachable s)
    (hcmp : Equivalence fun a b => ht.cmp_ a b = 0) (hH : ht.header_max_depth_ ≤ 9)
    (hD : ht.directory_max_depth_ ≤ 9) (hnext : 0 ≤ s.next_page_id_) {key : K}
    (hroom : ∀ q, ht.route s key = some q → (s.buckets q).Size < ht.bucket_max_size_)
    (hpos : 0 < ht.bucket_max_size_) (value : V) :
    (ht.Insert s key value).1 = true ∧
      ht.GetValue (ht.Insert s key value).2 key = some ((ht.GetValue s key).getD value) ∧
      ∀ k, ht.cmp_ k key ≠ 0 → ht.GetValue (ht.Insert s key value).2 k = ht.GetValue s k :=
  (hs.bucketsOk hcmp hH hD).Insert_map hcmp (hs.invariant hH hD) hH hD hnext hroom hpos value

/-- A second key goes into the bucket page, with room, that the first one made. -/
theorem Insert_without_split_second_key :
    let r : DiskExtendibleHashTable Int Int × PageStore Int Int :=
      new IntComparator Int.toNat 0 1 2 PageStore.empty
    let s := r.1.run r.2 [.Insert 1 10]
    (r.1.Insert s 2 20).1 = true ∧
      r.1.GetValue (r.1.Insert s 2 20).2 2 = some ((r.1.GetValue s 2).getD 20) ∧
      ∀ k, r.1.cmp_ k 2 ≠ 0 → r.1.GetValue (r.1.Insert s 2 20).2 k = r.1.GetValue s k :=
  Reachable.Insert_without_split ((Reachable.init _ _ _ _ _ _).run _) IntComparator_equivalence
    (by decide) (by decide) (by decide)
    (fun q hq => by cases (show _ = some (2 : Int) by decide).symm.trans hq; decide) (by decide) 20

end Runs

/-- With a hash that agrees with the comparator, equivalent keys find the same value. -/
theorem GetValue_congr (hcmp : Equivalence fun a b => ht.cmp_ a b = 0)
    (hhash : ∀ a b, ht.cmp_ a b = 0 → ht.hash_fn_ a = ht.hash_fn_ b) {a b : K}
    (hab : ht.cmp_ a b = 0) : ht.GetValue s a = ht.GetValue s b := by
  have hkey : ht.Hash a = ht.Hash b := by simp only [Hash, hhash a b hab]
  have hmatch : (fun e : K × V => decide (ht.cmp_ a e.1 = 0)) =
      fun e => decide (ht.cmp_ b e.1 = 0) :=
    funext fun e => decide_eq_decide.2 ⟨hcmp.trans (hcmp.symm hab), hcmp.trans hab⟩
  simp only [GetValue, Lookup, hkey, hmatch]

/-- `Insert` only allocates pages: the next page id never goes down. -/
theorem Insert_next_page_id_le [Inhabited K] [Inhabited V] (key : K) (value : V) :
    s.next_page_id_ ≤ (ht.Insert s key value).2.next_page_id_ := by
  simp only [DiskExtendibleHashTable.Insert]
  split_ifs
  · rw [InsertToNewDirectory_eq, InsertToNewBucket_eq]
    dsimp only
    split_ifs <;> simp <;> omega
  · simp only [Insert.split]
    split_ifs <;> simp [Insert.finish_eq]
  · simp

/-- `Remove` allocates no page. -/
theorem Remove_next_page_id [Inhabited K] [Inhabited V] (key : K) :
    (ht.Remove s key).2.next_page_id_ = s.next_page_id_ := by
  rw [Remove_eq_route]
  cases ht.route s key <;> rfl


/-- The map a call makes of a lookup function, for a comparator: `Insert` keeps the value of
    an equivalent key or else adds the pair, `Remove` drops every equivalent key. -/
def Call.applyMap (cmp : K → K → Int) (m : K → Option V) : Call K V → K → Option V
  | .Insert key value => fun k => if cmp k key = 0 then some ((m key).getD value) else m k
  | .Remove key => fun k => if cmp k key = 0 then none else m k

/-- Whether no `Insert` of a run splits a bucket page: each finds its key's bucket page with
    room, or no page for its key. -/
def NoSplit [Inhabited K] [Inhabited V] (ht : DiskExtendibleHashTable K V) :
    PageStore K V → List (Call K V) → Bool
  | _, [] => true
  | s, .Insert key value :: calls =>
    (ht.route s key).all (fun q => (s.buckets q).Size < ht.bucket_max_size_) &&
      NoSplit ht (ht.Insert s key value).2 calls
  | s, .Remove key :: calls => NoSplit ht (ht.Remove s key).2 calls

section Refinement

variable [Inhabited K] [Inhabited V] (hcmp : Equivalence fun a b => ht.cmp_ a b = 0)
  (hhash : ∀ a b, ht.cmp_ a b = 0 → ht.hash_fn_ a = ht.hash_fn_ b)
  (hH : ht.header_max_depth_ ≤ 9) (hD : ht.directory_max_depth_ ≤ 9)

include hcmp hhash hH hD in
/-- A call that splits nothing acts on the lookups of a reachable store as `Call.applyMap`. -/
theorem Reachable.GetValue_step (hs : ht.Reachable s) (hnext : 0 ≤ s.next_page_id_)
    (hpos : 0 < ht.bucket_max_size_) (c : Call K V)
    (hroom : ∀ key value, c = .Insert key value →
      ∀ q, ht.route s key = some q → (s.buckets q).Size < ht.bucket_max_size_) :
    ht.GetValue (ht.run s [c]) = Call.applyMap ht.cmp_ (ht.GetValue s) c := by
  have hinv := hs.invariant hH hD
  have hb := hs.bucketsOk hcmp hH hD
  funext k
  cases c with
  | Insert key value =>
    obtain ⟨-, hkey, hother⟩ :=
      hb.Insert_map hcmp hinv hH hD hnext (hroom key value rfl) hpos value
    show ht.GetValue (ht.Insert s key value).2 k = _
    simp only [Call.applyMap]
    split_ifs with hk
    · rw [GetValue_congr hcmp hhash hk, hkey]
    · exact hother k hk
  | Remove key =>
    obtain ⟨-, hkey, hother⟩ := hb.Remove_map hcmp hinv hH hD key
    show ht.GetValue (ht.Remove s key).2 k = _
    simp only [Call.applyMap]
    split_ifs with hk
    · rw [GetValue_congr hcmp hhash hk, hkey]
    · exact hother k hk

include hcmp hhash hH hD in
/-- On a run in which no `Insert` splits a bucket page, with a hash that agrees with the
    comparator, the table is the map its calls describe: after the run `GetValue` finds for
    every key what `Call.applyMap` makes, call after call, of the lookups at the start. -/
theorem Reachable.GetValue_run_of_NoSplit (hpos : 0 < ht.bucket_max_size_) :
    ∀ (calls : List (Call K V)) {s : PageStore K V}, ht.Reachable s → 0 ≤ s.next_page_id_ →
      ht.NoSplit s calls = true →
      ht.GetValue (ht.run s calls) = calls.foldl (Call.applyMap ht.cmp_) (ht.GetValue s)
  | [], _, _, _, _ => rfl
  | c :: calls, s, hs, hnext, hno => by
    have hrun : ht.run s (c :: calls) = ht.run (ht.run s [c]) calls := by cases c <;> rfl
    cases c with
    | Insert key value =>
      simp only [NoSplit, Bool.and_eq_true] at hno
      rw [hrun, List.foldl_cons, ← GetValue_step hcmp hhash hH hD hs hnext hpos _
        fun _ _ h q hq => by cases h; simpa [hq] using hno.1]
      exact Reachable.GetValue_run_of_NoSplit hpos calls (hs.Insert key value)
        (hnext.trans (Insert_next_page_id_le key value)) hno.2
    | Remove key =>
      rw [hrun, List.foldl_cons,
        ← GetValue_step hcmp hhash hH hD hs hnext hpos _ fun _ _ h => Call.noConfusion h]
      exact Reachable.GetValue_run_of_NoSplit hpos calls (hs.Remove key)
        (hnext.trans_eq (Remove_next_page_id key).symm) hno


/-- Two inserts and a remove on a new table with two entries a page: no bucket page splits. -/
theorem GetValue_run_two_inserts_remove :
    let r : DiskExtendibleHashTable Int Int × PageStore Int Int :=
      new IntComparator Int.toNat 0 1 2 PageStore.empty
    let calls : List (Call Int Int) := [.Insert 1 10, .Insert 2 20, .Remove 1]
    r.1.NoSplit r.2 calls = true ∧
      r.1.GetValue (r.1.run r.2 calls) = calls.foldl (Call.applyMap r.1.cmp_) (r.1.GetValue r.2) :=
  ⟨by decide, Reachable.GetValue_run_of_NoSplit IntComparator_equivalence
    (fun _ _ h => congrArg Int.toNat (IntComparator_eq_zero.1 h))
    (by decide) (by decide) (by decide) _ (Reachable.init _ _ _ _ _ _) (by decide) (by decide)⟩

end Refinement

end DiskExtendibleHashTable

end bustub
