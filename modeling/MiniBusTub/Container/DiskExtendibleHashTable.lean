import MiniBusTub.Storage.Page.HeaderPage
import MiniBusTub.Storage.Page.DirectoryPage
import MiniBusTub.Storage.Page.BucketPage

namespace bustub

/-- The buffer pool seen by the hash table as an ideal page store: every fetch returns what
    was last written to the page, and `NewPage` always succeeds with the next page id and a
    zeroed page. A page is read through the view of the type the table gives it. -/
structure PageStore (K V : Type) where
  next_page_id_ : Int
  headers : Int → ExtendibleHTableHeaderPage
  directories : Int → ExtendibleHTableDirectoryPage
  buckets : Int → ExtendibleHTableBucketPage K V

namespace PageStore

variable {K V : Type}

/-- `NewPage`: the next page id, all of whose views read as zero. -/
def NewPage (s : PageStore K V) : Int × PageStore K V :=
  (s.next_page_id_,
    { next_page_id_ := s.next_page_id_ + 1
      headers := updateAt s.headers s.next_page_id_ .zero
      directories := updateAt s.directories s.next_page_id_ .zero
      buckets := updateAt s.buckets s.next_page_id_ .zero })

def setHeader (s : PageStore K V) (p : Int) (h : ExtendibleHTableHeaderPage) : PageStore K V :=
  { s with headers := updateAt s.headers p h }

def setDirectory (s : PageStore K V) (p : Int) (d : ExtendibleHTableDirectoryPage) :
    PageStore K V :=
  { s with directories := updateAt s.directories p d }

def setBucket (s : PageStore K V) (p : Int) (b : ExtendibleHTableBucketPage K V) :
    PageStore K V :=
  { s with buckets := updateAt s.buckets p b }

/-- The buffer pool over an empty file: no page allocated yet, every page reads as zero. -/
def empty : PageStore K V :=
  ⟨0, fun _ => .zero, fun _ => .zero, fun _ => .zero⟩

@[simp] theorem NewPage_fst (s : PageStore K V) : s.NewPage.1 = s.next_page_id_ := rfl

@[simp] theorem NewPage_next_page_id (s : PageStore K V) :
    s.NewPage.2.next_page_id_ = s.next_page_id_ + 1 := rfl

@[simp] theorem NewPage_headers (s : PageStore K V) :
    s.NewPage.2.headers = updateAt s.headers s.next_page_id_ .zero := rfl

@[simp] theorem NewPage_directories (s : PageStore K V) :
    s.NewPage.2.directories = updateAt s.directories s.next_page_id_ .zero := rfl

@[simp] theorem NewPage_buckets (s : PageStore K V) :
    s.NewPage.2.buckets = updateAt s.buckets s.next_page_id_ .zero := rfl

@[simp] theorem setHeader_next_page_id (s : PageStore K V) (p : Int) (h) :
    (s.setHeader p h).next_page_id_ = s.next_page_id_ := rfl

@[simp] theorem setHeader_headers (s : PageStore K V) (p : Int) (h) :
    (s.setHeader p h).headers = updateAt s.headers p h := rfl

@[simp] theorem setHeader_directories (s : PageStore K V) (p : Int) (h) :
    (s.setHeader p h).directories = s.directories := rfl

@[simp] theorem setDirectory_next_page_id (s : PageStore K V) (p : Int) (d) :
    (s.setDirectory p d).next_page_id_ = s.next_page_id_ := rfl

@[simp] theorem setDirectory_headers (s : PageStore K V) (p : Int) (d) :
    (s.setDirectory p d).headers = s.headers := rfl

@[simp] theorem setDirectory_directories (s : PageStore K V) (p : Int) (d) :
    (s.setDirectory p d).directories = updateAt s.directories p d := rfl

@[simp] theorem setBucket_next_page_id (s : PageStore K V) (p : Int) (b) :
    (s.setBucket p b).next_page_id_ = s.next_page_id_ := rfl

@[simp] theorem setBucket_headers (s : PageStore K V) (p : Int) (b) :
    (s.setBucket p b).headers = s.headers := rfl

@[simp] theorem setBucket_directories (s : PageStore K V) (p : Int) (b) :
    (s.setBucket p b).directories = s.directories := rfl

theorem setBucket_self (s : PageStore K V) (p : Int) : s.setBucket p (s.buckets p) = s := by
  cases s
  simp only [setBucket, PageStore.mk.injEq, true_and]
  funext q
  by_cases hq : q = p <;> simp [hq]

end PageStore

/-- `DiskExtendibleHashTable<K, V, KC>`: its configuration. The pages live in a
    `PageStore` that every operation takes and returns. -/
structure DiskExtendibleHashTable (K V : Type) where
  cmp_ : K → K → Int
  hash_fn_ : K → Nat
  header_max_depth_ : Nat
  directory_max_depth_ : Nat
  bucket_max_size_ : Nat
  header_page_id_ : Int

namespace DiskExtendibleHashTable

variable {K V : Type} [Inhabited K] [Inhabited V]

/-- The constructor: a new header page, initialised to `header_max_depth`. -/
def new (cmp : K → K → Int) (hash_fn : K → Nat) (header_max_depth directory_max_depth
    bucket_max_size : Nat) (s : PageStore K V) : DiskExtendibleHashTable K V × PageStore K V :=
  let (header_page_id, s) := s.NewPage
  (⟨cmp, hash_fn, header_max_depth, directory_max_depth, bucket_max_size, header_page_id⟩,
    s.setHeader header_page_id ((s.headers header_page_id).Init header_max_depth))

/-- `Hash`: the hash function's value cast to `uint32_t`. -/
def Hash (ht : DiskExtendibleHashTable K V) (key : K) : Nat := ht.hash_fn_ key % 2 ^ 32

/-- `GetValue`: `some v` when it returns `true` and appends `v` to the result. -/
def GetValue (ht : DiskExtendibleHashTable K V) (s : PageStore K V) (key : K) : Option V :=
  let hash_key := ht.Hash key
  let header_page := s.headers ht.header_page_id_
  let directory_index := header_page.HashToDirectoryIndex hash_key
  let directory_page_id := header_page.GetDirectoryPageId directory_index
  if directory_page_id = INVALID_PAGE_ID then none
  else
    let directory_page := s.directories directory_page_id
    let bucket_index := directory_page.HashToBucketIndex hash_key
    let bucket_page := s.buckets (directory_page.GetBucketPageId bucket_index)
    bucket_page.Lookup key ht.cmp_

/-- `InsertToNewBucket`: a new bucket page holding the pair, linked at `bucket_idx` with
    local depth `0` when its insert succeeds. Returns the directory page to write back. -/
def InsertToNewBucket (ht : DiskExtendibleHashTable K V) (s : PageStore K V)
    (directory : ExtendibleHTableDirectoryPage) (bucket_idx : Nat) (key : K) (value : V) :
    Bool × ExtendibleHTableDirectoryPage × PageStore K V :=
  let (new_bucket_page_id, s) := s.NewPage
  let new_bucket_page := (s.buckets new_bucket_page_id).Init ht.bucket_max_size_
  let (inserted, new_bucket_page) := new_bucket_page.Insert key value ht.cmp_
  let s := s.setBucket new_bucket_page_id new_bucket_page
  if inserted then
    (true, (directory.SetBucketPageId bucket_idx new_bucket_page_id).SetLocalDepth bucket_idx 0, s)
  else (false, directory, s)

/-- `InsertToNewDirectory`: a new directory page at depth `0` whose slot `0` gets a new
    bucket; the header slot is set only when that succeeds. -/
def InsertToNewDirectory (ht : DiskExtendibleHashTable K V) (s : PageStore K V)
    (directory_idx : Nat) (key : K) (value : V) : Bool × PageStore K V :=
  let (new_directory_page_id, s) := s.NewPage
  let new_directory_page := (s.directories new_directory_page_id).Init ht.directory_max_depth_
  let (inserted, new_directory_page, s) :=
    ht.InsertToNewBucket s new_directory_page 0 key value
  let s := s.setDirectory new_directory_page_id new_directory_page
  if inserted then
    (true, s.setHeader ht.header_page_id_
      ((s.headers ht.header_page_id_).SetDirectoryPageId directory_idx new_directory_page_id))
  else (false, s)

/-- `UpdateDirectoryMapping`: its mask argument is unused. -/
def UpdateDirectoryMapping (directory : ExtendibleHTableDirectoryPage) (new_bucket_idx : Nat)
    (new_bucket_page_id : Int) (new_local_depth _local_depth_mask : Nat) :
    ExtendibleHTableDirectoryPage :=
  (directory.SetBucketPageId new_bucket_idx new_bucket_page_id).SetLocalDepth new_bucket_idx
    new_local_depth

/-- The loop of `MigrateEntries`, allowed `fuel` more iterations, at index `i` below the
    bound `tmp_size`. A moved entry decrements the bound but the index still advances. -/
def MigrateEntries.loop (ht : DiskExtendibleHashTable K V) (new_bucket_idx local_depth_mask : Nat) :
    Nat → ExtendibleHTableBucketPage K V → ExtendibleHTableBucketPage K V → Nat → Nat →
      ExtendibleHTableBucketPage K V × ExtendibleHTableBucketPage K V
  | 0, old_bucket, new_bucket, _, _ => (old_bucket, new_bucket)
  | fuel + 1, old_bucket, new_bucket, i, tmp_size =>
    if i < tmp_size then
      let i_key := old_bucket.KeyAt i
      if new_bucket_idx ≠ ht.Hash i_key &&& local_depth_mask then
        MigrateEntries.loop ht new_bucket_idx local_depth_mask fuel old_bucket new_bucket (i + 1)
          tmp_size
      else
        let i_value := old_bucket.ValueAt i
        let old_bucket := (old_bucket.Remove i_key ht.cmp_).2
        let new_bucket := (new_bucket.Insert i_key i_value ht.cmp_).2
        MigrateEntries.loop ht new_bucket_idx local_depth_mask fuel old_bucket new_bucket (i + 1)
          (tmp_size - 1)
    else (old_bucket, new_bucket)

/-- `MigrateEntries`. The loop index only grows and never passes the initial size, so that
    size is enough fuel. -/
def MigrateEntries (ht : DiskExtendibleHashTable K V) (old_bucket new_bucket :
    ExtendibleHTableBucketPage K V) (new_bucket_idx local_depth_mask : Nat) :
    ExtendibleHTableBucketPage K V × ExtendibleHTableBucketPage K V :=
  MigrateEntries.loop ht new_bucket_idx local_depth_mask old_bucket.Size old_bucket new_bucket 0
    old_bucket.Size

/-- The tail of `Insert`'s full-bucket branch: migrate, insert the pair on the side its hash
    selects under the mask, and write the three pages back. The results of both bucket
    inserts are dropped and `true` is returned. -/
def Insert.finish (ht : DiskExtendibleHashTable K V) (s : PageStore K V) (key : K) (value : V)
    (directory_page_id : Int) (directory_page : ExtendibleHTableDirectoryPage)
    (bucket_page_id : Int) (bucket_page : ExtendibleHTableBucketPage K V)
    (new_bucket_page_id : Int) (new_bucket_page : ExtendibleHTableBucketPage K V)
    (new_bucket_index new_local_depth_mask : Nat) : Bool × PageStore K V :=
  let (bucket_page, new_bucket_page) :=
    ht.MigrateEntries bucket_page new_bucket_page new_bucket_index new_local_depth_mask
  let (bucket_page, new_bucket_page) :=
    if new_bucket_index ≠ ht.Hash key &&& new_local_depth_mask then
      ((bucket_page.Insert key value ht.cmp_).2, new_bucket_page)
    else (bucket_page, (new_bucket_page.Insert key value ht.cmp_).2)
  (true, ((s.setDirectory directory_page_id directory_page).setBucket bucket_page_id
    bucket_page).setBucket new_bucket_page_id new_bucket_page)

/-- `Insert`'s branch for a full target bucket at directory slot `bucket_index`. -/
def Insert.split (ht : DiskExtendibleHashTable K V) (s : PageStore K V) (key : K) (value : V)
    (directory_page_id : Int) (directory_page : ExtendibleHTableDirectoryPage)
    (bucket_index : Nat) (bucket_page_id : Int) (bucket_page : ExtendibleHTableBucketPage K V) :
    Bool × PageStore K V :=
  let (new_bucket_page_id, s) := s.NewPage
  let new_bucket_page := (s.buckets new_bucket_page_id).Init ht.bucket_max_size_
  let new_bucket_index := directory_page.GetSplitImageIndex bucket_index
  let new_local_depth_mask := directory_page.GetLocalDepthMask bucket_index
  let finish (directory_page : ExtendibleHTableDirectoryPage) :=
    Insert.finish ht s key value directory_page_id directory_page bucket_page_id bucket_page
      new_bucket_page_id new_bucket_page new_bucket_index new_local_depth_mask
  if directory_page.GetGlobalDepth = directory_page.GetLocalDepth bucket_index then
    if directory_page.Size = directory_page.MaxSize then
      (false, s.setBucket new_bucket_page_id new_bucket_page)
    else
      let directory_page := (directory_page.IncrLocalDepth bucket_index).IncrGlobalDepth
      let new_local_depth := directory_page.GetLocalDepth bucket_index
      finish (UpdateDirectoryMapping directory_page new_bucket_index new_bucket_page_id
        new_local_depth new_local_depth_mask)
  else if directory_page.GetGlobalDepth < directory_page.GetLocalDepth bucket_index then
    let directory_page := directory_page.IncrLocalDepth bucket_index
    let new_local_depth := directory_page.GetLocalDepth bucket_index
    finish (UpdateDirectoryMapping directory_page new_bucket_index new_bucket_page_id
      new_local_depth new_local_depth_mask)
  else finish directory_page

/-- `Insert`. A bucket with room takes the pair and `true` is returned whatever the bucket's
    own `Insert` answered. -/
def Insert (ht : DiskExtendibleHashTable K V) (s : PageStore K V) (key : K) (value : V) :
    Bool × PageStore K V :=
  let hash_key := ht.Hash key
  let header_page := s.headers ht.header_page_id_
  let directory_index := header_page.HashToDirectoryIndex hash_key
  let directory_page_id := header_page.GetDirectoryPageId directory_index
  if directory_page_id = INVALID_PAGE_ID then
    ht.InsertToNewDirectory s directory_index key value
  else
    let directory_page := s.directories directory_page_id
    let bucket_index := directory_page.HashToBucketIndex hash_key
    let bucket_page_id := directory_page.GetBucketPageId bucket_index
    let bucket_page := s.buckets bucket_page_id
    if bucket_page.IsFull then
      Insert.split ht s key value directory_page_id directory_page bucket_index bucket_page_id
        bucket_page
    else (true, s.setBucket bucket_page_id (bucket_page.Insert key value ht.cmp_).2)

/-- `Remove`: the bucket's own `Remove`; empty buckets are never merged. -/
def Remove (ht : DiskExtendibleHashTable K V) (s : PageStore K V) (key : K) :
    Bool × PageStore K V :=
  let hash_key := ht.Hash key
  let header_page := s.headers ht.header_page_id_
  let directory_index := header_page.HashToDirectoryIndex hash_key
  let directory_page_id := header_page.GetDirectoryPageId directory_index
  if directory_page_id = INVALID_PAGE_ID then (false, s)
  else
    let directory_page := s.directories directory_page_id
    let bucket_index := directory_page.HashToBucketIndex hash_key
    let bucket_page_id := directory_page.GetBucketPageId bucket_index
    let (removed, bucket_page) := (s.buckets bucket_page_id).Remove key ht.cmp_
    (removed, s.setBucket bucket_page_id bucket_page)

end DiskExtendibleHashTable

end bustub
