import MiniBusTub.Storage.Page.DirectoryPage

namespace bustub

/-- An `ExtendibleHTableDirectoryPage` as the code lays it out: the two depths, then the bytes
    from `local_depths_` on. Byte `x` is `local_depths_[x]` for `x` below
    `HTABLE_DIRECTORY_ARRAY_SIZE`, and `bucket_page_ids_[x]` is the `page_id_t` in the four bytes
    from `HTABLE_DIRECTORY_ARRAY_SIZE + 4 * x`, little-endian. An index past an array addresses
    the bytes after it, as in C++. -/
@[ext] structure DirectoryLayout where
  max_depth_ : Nat
  global_depth_ : Nat
  bytes : Nat → UInt8

namespace DirectoryLayout

/-- The offset of `bucket_page_ids_[x]` from `local_depths_`. -/
def bucketOffset (x : Nat) : Nat := HTABLE_DIRECTORY_ARRAY_SIZE + 4 * x

/-- The `page_id_t` in the four bytes from `offset`, little-endian. -/
def loadPageId (bytes : Nat → UInt8) (offset : Nat) : Int :=
  toInt32 ((bytes offset).toNat + 2 ^ 8 * (bytes (offset + 1)).toNat +
    2 ^ 16 * (bytes (offset + 2)).toNat + 2 ^ 24 * (bytes (offset + 3)).toNat)

/-- `bucket_page_ids_[new_index] = bucket_page_ids_[origin_index]`: the four bytes of the one
    slot are copied to the other's. -/
def copyBucketPageId (self : DirectoryLayout) (new_index origin_index : Nat) :
    DirectoryLayout :=
  { self with
    bytes := fun y =>
      if bucketOffset new_index ≤ y ∧ y < bucketOffset new_index + 4 then
        self.bytes (y - bucketOffset new_index + bucketOffset origin_index)
      else self.bytes y }

/-- `local_depths_[new_index] = local_depths_[origin_index]`. -/
def copyLocalDepth (self : DirectoryLayout) (new_index origin_index : Nat) : DirectoryLayout :=
  { self with bytes := updateAt self.bytes new_index (self.bytes origin_index) }

/-- The copy loop of `IncrGlobalDepth` on the page's bytes, with `count` iterations left. -/
def IncrGlobalDepth.copy (self : DirectoryLayout) (origin_index new_index : Nat) :
    Nat → DirectoryLayout
  | 0 => self
  | count + 1 =>
    IncrGlobalDepth.copy
      ((self.copyBucketPageId new_index origin_index).copyLocalDepth new_index origin_index)
      (origin_index + 1) (new_index + 1) count

/-- `IncrGlobalDepth` on the page's bytes: the loop of `ExtendibleHTableDirectoryPage`'s, each
    store landing where C++ puts it. -/
def IncrGlobalDepth (self : DirectoryLayout) : DirectoryLayout :=
  let self := { self with global_depth_ := incMod 32 self.global_depth_ }
  let new_index := shl32 1 (decMod 32 self.global_depth_)
  IncrGlobalDepth.copy self 0 new_index (shl32 1 self.global_depth_ - new_index)

/-- The page as the hash table's directory reads it: the local depths inside their array, a slot
    past it reading `0`, and every bucket page id from its four bytes. -/
def view (self : DirectoryLayout) : ExtendibleHTableDirectoryPage :=
  ⟨self.max_depth_, self.global_depth_,
    fun x => if x < HTABLE_DIRECTORY_ARRAY_SIZE then (self.bytes x).toNat else 0,
    fun x => loadPageId self.bytes (bucketOffset x)⟩

/-- The page holding the slots of `d` below `HTABLE_DIRECTORY_ARRAY_SIZE`, each bucket page id
    stored as its 32-bit two's complement, and zeros after the arrays. -/
def ofPage (d : ExtendibleHTableDirectoryPage) : DirectoryLayout :=
  ⟨d.max_depth_, d.global_depth_, fun y =>
    if y < HTABLE_DIRECTORY_ARRAY_SIZE then UInt8.ofNat (d.local_depths_ y)
    else if y < bucketOffset HTABLE_DIRECTORY_ARRAY_SIZE then
      UInt8.ofNat ((d.bucket_page_ids_ ((y - HTABLE_DIRECTORY_ARRAY_SIZE) / 4) % 2 ^ 32).toNat /
        2 ^ (8 * ((y - HTABLE_DIRECTORY_ARRAY_SIZE) % 4)))
    else 0⟩

/-- `IncrGlobalDepth` below depth `31` as the copy loop it runs, its bounds evaluated. -/
theorem IncrGlobalDepth_eq_copy (L : DirectoryLayout) (hdepth : L.global_depth_ < 31) :
    L.IncrGlobalDepth = IncrGlobalDepth.copy { L with global_depth_ := L.global_depth_ + 1 } 0
      (2 ^ L.global_depth_) (2 ^ L.global_depth_) := by
  show IncrGlobalDepth.copy { L with global_depth_ := incMod 32 L.global_depth_ } 0
    (shl32 1 (decMod 32 (incMod 32 L.global_depth_)))
    (shl32 1 (incMod 32 L.global_depth_) - shl32 1 (decMod 32 (incMod 32 L.global_depth_))) = _
  rw [ExtendibleHTableDirectoryPage.shl32_incr_new_index hdepth,
    ExtendibleHTableDirectoryPage.shl32_incr_count hdepth, incMod_of_lt (by omega)]

theorem loadPageId_congr {b b' : Nat → UInt8} {offset offset' : Nat}
    (h : ∀ k < 4, b (offset + k) = b' (offset' + k)) :
    loadPageId b offset = loadPageId b' offset' := by
  have h0 : b offset = b' offset' := h 0 (by decide)
  rw [loadPageId, loadPageId, h0, h 1 (by decide), h 2 (by decide), h 3 (by decide)]

/-- Inside the arrays the page laid out from `d` reads back `d`, each value wrapped to the width
    its array stores. -/
theorem view_ofPage (d : ExtendibleHTableDirectoryPage) {x : Nat}
    (hx : x < HTABLE_DIRECTORY_ARRAY_SIZE) :
    (ofPage d).view.local_depths_ x = d.local_depths_ x % 2 ^ 8 ∧
      (ofPage d).view.bucket_page_ids_ x = toInt32 (d.bucket_page_ids_ x) := by
  rw [HTABLE_DIRECTORY_ARRAY_SIZE_eq] at hx
  refine ⟨by simp only [view, ofPage, HTABLE_DIRECTORY_ARRAY_SIZE_eq, hx, if_true]; rfl, ?_⟩
  have hbyte : ∀ k < 4, ((ofPage d).bytes (bucketOffset x + k)).toNat =
      (d.bucket_page_ids_ x % 2 ^ 32).toNat / 2 ^ (8 * k) % 2 ^ 8 := fun k hk => by
    simp only [ofPage, bucketOffset, HTABLE_DIRECTORY_ARRAY_SIZE_eq]
    rw [if_neg (by omega), if_pos (by omega), show (512 + 4 * x + k - 512) / 4 = x by omega,
      show (512 + 4 * x + k - 512) % 4 = k by omega]
    rfl
  have hn := Int.emod_nonneg (d.bucket_page_ids_ x) (by decide : (2 : Int) ^ 32 ≠ 0)
  have hlt := Int.emod_lt_of_pos (d.bucket_page_ids_ x) (by decide : (0 : Int) < 2 ^ 32)
  have h0 := hbyte 0 (by decide)
  rw [Nat.add_zero] at h0
  simp only [view, loadPageId]
  rw [h0, hbyte 1 (by decide), hbyte 2 (by decide), hbyte 3 (by decide)]
  unfold toInt32
  omega

/-- One iteration of the loop, with both of its slots inside the arrays, is the model's. -/
theorem view_copy_step (L : DirectoryLayout) {origin_index new_index : Nat}
    (horigin : origin_index < HTABLE_DIRECTORY_ARRAY_SIZE)
    (hnew : new_index < HTABLE_DIRECTORY_ARRAY_SIZE) :
    ((L.copyBucketPageId new_index origin_index).copyLocalDepth new_index origin_index).view =
      { L.view with
        bucket_page_ids_ := updateAt L.view.bucket_page_ids_ new_index
          (L.view.bucket_page_ids_ origin_index)
        local_depths_ := updateAt L.view.local_depths_ new_index
          (L.view.local_depths_ origin_index) } := by
  rw [HTABLE_DIRECTORY_ARRAY_SIZE_eq] at horigin hnew
  ext x
  · rfl
  · rfl
  · simp only [view, copyLocalDepth, copyBucketPageId, updateAt_apply, bucketOffset,
      HTABLE_DIRECTORY_ARRAY_SIZE_eq]
    split_ifs <;> first | rfl | omega
  · simp only [view, updateAt_apply]
    split_ifs with hx <;> refine loadPageId_congr fun k hk => ?_ <;>
      simp only [copyLocalDepth, copyBucketPageId, updateAt_apply, bucketOffset,
        HTABLE_DIRECTORY_ARRAY_SIZE_eq]
    · rw [if_neg (by omega), if_pos (by omega)]
      congr 1
      omega
    · rw [if_neg (by omega), if_neg (by omega)]

/-- The loop with every slot it reads or writes inside the arrays is the model's loop. -/
theorem view_copy (L : DirectoryLayout) {origin_index new_index count : Nat}
    (horigin : origin_index + count ≤ HTABLE_DIRECTORY_ARRAY_SIZE)
    (hnew : new_index + count ≤ HTABLE_DIRECTORY_ARRAY_SIZE) :
    (IncrGlobalDepth.copy L origin_index new_index count).view =
      ExtendibleHTableDirectoryPage.IncrGlobalDepth.copy L.view origin_index new_index count := by
  induction count generalizing L origin_index new_index with
  | zero => rfl
  | succ count ih =>
    rw [IncrGlobalDepth.copy, ExtendibleHTableDirectoryPage.IncrGlobalDepth.copy,
      ih _ (by omega) (by omega), view_copy_step L (by omega) (by omega)]

/-- Below global depth `HTABLE_DIRECTORY_MAX_DEPTH` the grown directory fits the page's arrays,
    and `IncrGlobalDepth` on the page's bytes reads back as the model's `IncrGlobalDepth`. -/
theorem IncrGlobalDepth_view (L : DirectoryLayout)
    (hdepth : L.global_depth_ < HTABLE_DIRECTORY_MAX_DEPTH) :
    L.IncrGlobalDepth.view = L.view.IncrGlobalDepth := by
  have hg : L.global_depth_ ≤ 8 := Nat.le_of_lt_succ hdepth
  have hpow := Nat.pow_le_pow_right (show 0 < 2 by decide) hg
  rw [IncrGlobalDepth_eq_copy L (by omega),
    ExtendibleHTableDirectoryPage.IncrGlobalDepth_eq_copy (d := L.view)
      (show L.global_depth_ < 31 by omega),
    view_copy _ (by rw [HTABLE_DIRECTORY_ARRAY_SIZE_eq]; omega)
      (by rw [HTABLE_DIRECTORY_ARRAY_SIZE_eq]; omega)]
  rfl

theorem IncrGlobalDepth_view_new_page :
    (⟨9, 0, fun _ => 0⟩ : DirectoryLayout).global_depth_ < HTABLE_DIRECTORY_MAX_DEPTH ∧
      (⟨9, 0, fun _ => 0⟩ : DirectoryLayout).IncrGlobalDepth.view =
        (⟨9, 0, fun _ => 0⟩ : DirectoryLayout).view.IncrGlobalDepth :=
  ⟨by decide, IncrGlobalDepth_view _ (by decide)⟩

/-- The loop stores nothing below its first new slot: its local-depth stores start there, and
    its bucket stores lie past the local depths. -/
theorem copy_bytes_of_lt (L : DirectoryLayout) {origin_index new_index count y : Nat}
    (hy : y < new_index) :
    (IncrGlobalDepth.copy L origin_index new_index count).bytes y = L.bytes y := by
  induction count generalizing L origin_index new_index with
  | zero => rfl
  | succ count ih =>
    rw [IncrGlobalDepth.copy, ih _ (by omega)]
    simp only [copyLocalDepth, copyBucketPageId, updateAt_apply, bucketOffset]
    rw [if_neg (by omega), if_neg (by omega)]

/-- A local-depth store of the loop that no later bucket store of it covers keeps the byte it
    copied, the loop reading only bytes below its first new slot. -/
theorem copy_bytes_local (L : DirectoryLayout) {origin_index new_index count y : Nat}
    (horigin : origin_index + count ≤ new_index) (hy : new_index ≤ y ∧ y < new_index + count)
    (hbucket : y < bucketOffset new_index) :
    (IncrGlobalDepth.copy L origin_index new_index count).bytes y =
      L.bytes (y - new_index + origin_index) := by
  induction count generalizing L origin_index new_index with
  | zero => omega
  | succ count ih =>
    rw [IncrGlobalDepth.copy]
    rcases Nat.eq_or_lt_of_le hy.1 with rfl | hlt
    · rw [copy_bytes_of_lt _ (Nat.lt_succ_self _)]
      simp only [copyLocalDepth, copyBucketPageId, updateAt_apply, bucketOffset, if_true,
        Nat.sub_self, Nat.zero_add] at hbucket ⊢
      rw [if_neg (by omega)]
    · rw [ih _ (by omega) (by omega) (by simp only [bucketOffset] at hbucket ⊢; omega)]
      simp only [copyLocalDepth, copyBucketPageId, updateAt_apply, bucketOffset] at hbucket ⊢
      rw [if_neg (by omega), if_neg (by omega)]
      congr 1
      omega

/-- From global depth `HTABLE_DIRECTORY_MAX_DEPTH` the grown directory no longer fits the page:
    `IncrGlobalDepth`'s stores to `local_depths_` run on past the array into `bucket_page_ids_`,
    and slot `0` ends up holding the first four local depths, little-endian. -/
theorem IncrGlobalDepth_overwrites_first_bucket (L : DirectoryLayout)
    (hdepth : L.global_depth_ = HTABLE_DIRECTORY_MAX_DEPTH) :
    L.IncrGlobalDepth.view.bucket_page_ids_ 0 = loadPageId L.bytes 0 := by
  rw [IncrGlobalDepth_eq_copy L (by rw [hdepth]; decide), hdepth,
    show 2 ^ HTABLE_DIRECTORY_MAX_DEPTH = 512 from rfl]
  refine loadPageId_congr fun k hk => ?_
  have hoffset : bucketOffset 0 = 512 := rfl
  have hoffset' : bucketOffset 512 = 2560 := rfl
  rw [hoffset, copy_bytes_local _ (by omega) (by omega) (by rw [hoffset']; omega),
    show 512 + k - 512 + 0 = 0 + k by omega]

end DirectoryLayout

end bustub
