import MiniBusTub.Common.Config

namespace bustub

/-- `HTABLE_DIRECTORY_MAX_DEPTH`: the deepest directory the page layout holds. -/
def HTABLE_DIRECTORY_MAX_DEPTH : Nat := 9

/-- `HTABLE_DIRECTORY_ARRAY_SIZE`: the slots of each of the page's two arrays. -/
def HTABLE_DIRECTORY_ARRAY_SIZE : Nat := 1 <<< HTABLE_DIRECTORY_MAX_DEPTH

theorem HTABLE_DIRECTORY_ARRAY_SIZE_eq : HTABLE_DIRECTORY_ARRAY_SIZE = 512 := rfl

/-- `ExtendibleHTableDirectoryPage` as the hash table reads it. Its two arrays are functions
    of the slot index, and `local_depths_` stores `uint8_t` values. The page holds
    `HTABLE_DIRECTORY_ARRAY_SIZE` slots of each, and a slot from there on has no counterpart in
    it: `DirectoryLayout` lays the page out as the code does, and the two agree while the global
    depth stays below `HTABLE_DIRECTORY_MAX_DEPTH` (`DirectoryLayout.IncrGlobalDepth_view`). -/
@[ext] structure ExtendibleHTableDirectoryPage where
  max_depth_ : Nat
  global_depth_ : Nat
  local_depths_ : Nat → Nat
  bucket_page_ids_ : Nat → Int

namespace ExtendibleHTableDirectoryPage

/-- The page as `NewPage` hands it out: all bytes zero. -/
def zero : ExtendibleHTableDirectoryPage := ⟨0, 0, fun _ => 0, fun _ => 0⟩

/-- `Init` sets the depths only; the arrays keep whatever the page held. -/
def Init (self : ExtendibleHTableDirectoryPage) (max_depth : Nat) :
    ExtendibleHTableDirectoryPage :=
  { self with max_depth_ := max_depth, global_depth_ := 0 }

def GetGlobalDepth (self : ExtendibleHTableDirectoryPage) : Nat := self.global_depth_

def GetMaxDepth (self : ExtendibleHTableDirectoryPage) : Nat := self.max_depth_

def GetGlobalDepthMask (self : ExtendibleHTableDirectoryPage) : Nat :=
  shl32 1 self.global_depth_ - 1

def HashToBucketIndex (self : ExtendibleHTableDirectoryPage) (hash : Nat) : Nat :=
  hash &&& self.GetGlobalDepthMask

def Size (self : ExtendibleHTableDirectoryPage) : Nat := shl32 1 self.global_depth_

def MaxSize (self : ExtendibleHTableDirectoryPage) : Nat := shl32 1 self.max_depth_

def GetBucketPageId (self : ExtendibleHTableDirectoryPage) (bucket_idx : Nat) : Int :=
  self.bucket_page_ids_ bucket_idx

def SetBucketPageId (self : ExtendibleHTableDirectoryPage) (bucket_idx : Nat)
    (bucket_page_id : Int) : ExtendibleHTableDirectoryPage :=
  { self with bucket_page_ids_ := updateAt self.bucket_page_ids_ bucket_idx bucket_page_id }

def GetLocalDepth (self : ExtendibleHTableDirectoryPage) (bucket_idx : Nat) : Nat :=
  self.local_depths_ bucket_idx

/-- `SetLocalDepth` takes a `uint8_t`, so the caller's `uint32_t` is truncated. -/
def SetLocalDepth (self : ExtendibleHTableDirectoryPage) (bucket_idx local_depth : Nat) :
    ExtendibleHTableDirectoryPage :=
  { self with local_depths_ := updateAt self.local_depths_ bucket_idx (local_depth % 2 ^ 8) }

def IncrLocalDepth (self : ExtendibleHTableDirectoryPage) (bucket_idx : Nat) :
    ExtendibleHTableDirectoryPage :=
  let local_depth := incMod 8 (self.local_depths_ bucket_idx)
  { self with local_depths_ := updateAt self.local_depths_ bucket_idx local_depth }

def DecrLocalDepth (self : ExtendibleHTableDirectoryPage) (bucket_idx : Nat) :
    ExtendibleHTableDirectoryPage :=
  let local_depth := decMod 8 (self.local_depths_ bucket_idx)
  { self with local_depths_ := updateAt self.local_depths_ bucket_idx local_depth }

def GetSplitImageIndex (self : ExtendibleHTableDirectoryPage) (bucket_idx : Nat) : Nat :=
  bucket_idx ^^^ shl32 1 (self.local_depths_ bucket_idx)

/-- `GetLocalDepthMask` as written: the shift amount is read from `bucket_page_ids_`, not
    from `local_depths_`. -/
def GetLocalDepthMask (self : ExtendibleHTableDirectoryPage) (bucket_idx : Nat) : Nat :=
  shl32 1 (u32 (self.bucket_page_ids_ bucket_idx)) - 1

/-- The copy loop of `IncrGlobalDepth` with `count` iterations left: slot `new_index`
    receives the bucket page id and the local depth of slot `origin_index`. -/
def IncrGlobalDepth.copy (self : ExtendibleHTableDirectoryPage) (origin_index new_index : Nat) :
    Nat → ExtendibleHTableDirectoryPage
  | 0 => self
  | count + 1 =>
    IncrGlobalDepth.copy
      { self with
        bucket_page_ids_ := updateAt self.bucket_page_ids_ new_index
          (self.bucket_page_ids_ origin_index)
        local_depths_ := updateAt self.local_depths_ new_index (self.local_depths_ origin_index) }
      (origin_index + 1) (new_index + 1) count

/-- `IncrGlobalDepth`: the depth goes up first, then the loop copies slots
    `[0, 1 << (g - 1))` to `[1 << (g - 1), 1 << g)` for the new depth `g`. -/
def IncrGlobalDepth (self : ExtendibleHTableDirectoryPage) : ExtendibleHTableDirectoryPage :=
  let self := { self with global_depth_ := incMod 32 self.global_depth_ }
  let new_index := shl32 1 (decMod 32 self.global_depth_)
  IncrGlobalDepth.copy self 0 new_index (shl32 1 self.global_depth_ - new_index)

def DecrGlobalDepth (self : ExtendibleHTableDirectoryPage) : ExtendibleHTableDirectoryPage :=
  { self with global_depth_ := decMod 32 self.global_depth_ }

/-- `CanShrink`: `std::all_of` over the first `Size()` local depths. -/
def CanShrink (self : ExtendibleHTableDirectoryPage) : Bool :=
  (List.range self.Size).all fun i => self.local_depths_ i < self.global_depth_

@[simp] theorem Init_global_depth (d : ExtendibleHTableDirectoryPage) (max_depth : Nat) :
    (d.Init max_depth).global_depth_ = 0 := rfl

@[simp] theorem Init_max_depth (d : ExtendibleHTableDirectoryPage) (max_depth : Nat) :
    (d.Init max_depth).max_depth_ = max_depth := rfl

@[simp] theorem SetBucketPageId_global_depth (d : ExtendibleHTableDirectoryPage) (i : Nat)
    (p : Int) : (d.SetBucketPageId i p).global_depth_ = d.global_depth_ := by
  cases d; rfl

@[simp] theorem SetBucketPageId_max_depth (d : ExtendibleHTableDirectoryPage) (i : Nat)
    (p : Int) : (d.SetBucketPageId i p).max_depth_ = d.max_depth_ := by
  cases d; rfl

@[simp] theorem SetBucketPageId_local_depths (d : ExtendibleHTableDirectoryPage) (i : Nat)
    (p : Int) : (d.SetBucketPageId i p).local_depths_ = d.local_depths_ := by
  cases d; rfl

@[simp] theorem SetBucketPageId_bucket_page_ids (d : ExtendibleHTableDirectoryPage) (i : Nat)
    (p : Int) :
    (d.SetBucketPageId i p).bucket_page_ids_ = updateAt d.bucket_page_ids_ i p := by
  cases d; rfl

@[simp] theorem SetLocalDepth_global_depth (d : ExtendibleHTableDirectoryPage) (i l : Nat) :
    (d.SetLocalDepth i l).global_depth_ = d.global_depth_ := by
  cases d; rfl

@[simp] theorem SetLocalDepth_max_depth (d : ExtendibleHTableDirectoryPage) (i l : Nat) :
    (d.SetLocalDepth i l).max_depth_ = d.max_depth_ := by
  cases d; rfl

@[simp] theorem SetLocalDepth_bucket_page_ids (d : ExtendibleHTableDirectoryPage) (i l : Nat) :
    (d.SetLocalDepth i l).bucket_page_ids_ = d.bucket_page_ids_ := by
  cases d; rfl

@[simp] theorem SetLocalDepth_local_depths (d : ExtendibleHTableDirectoryPage) (i l : Nat) :
    (d.SetLocalDepth i l).local_depths_ = updateAt d.local_depths_ i (l % 2 ^ 8) := by
  cases d; rfl

@[simp] theorem IncrLocalDepth_global_depth (d : ExtendibleHTableDirectoryPage) (i : Nat) :
    (d.IncrLocalDepth i).global_depth_ = d.global_depth_ := by
  cases d; rfl

@[simp] theorem IncrLocalDepth_max_depth (d : ExtendibleHTableDirectoryPage) (i : Nat) :
    (d.IncrLocalDepth i).max_depth_ = d.max_depth_ := by
  cases d; rfl

@[simp] theorem IncrLocalDepth_bucket_page_ids (d : ExtendibleHTableDirectoryPage) (i : Nat) :
    (d.IncrLocalDepth i).bucket_page_ids_ = d.bucket_page_ids_ := by
  cases d; rfl

@[simp] theorem IncrLocalDepth_local_depths (d : ExtendibleHTableDirectoryPage) (i : Nat) :
    (d.IncrLocalDepth i).local_depths_ =
      updateAt d.local_depths_ i (incMod 8 (d.local_depths_ i)) := by
  cases d; rfl

@[simp] theorem IncrGlobalDepth.copy_global_depth (d : ExtendibleHTableDirectoryPage)
    (origin new count : Nat) :
    (IncrGlobalDepth.copy d origin new count).global_depth_ = d.global_depth_ := by
  induction count generalizing d origin new with
  | zero => rfl
  | succ count ih => exact ih _ _ _

@[simp] theorem IncrGlobalDepth.copy_max_depth (d : ExtendibleHTableDirectoryPage)
    (origin new count : Nat) :
    (IncrGlobalDepth.copy d origin new count).max_depth_ = d.max_depth_ := by
  induction count generalizing d origin new with
  | zero => rfl
  | succ count ih => exact ih _ _ _

/-- The copy loop writes `count` consecutive slots from a source range that lies wholly
    below them, so every slot it reads still holds its value from before the loop. -/
theorem IncrGlobalDepth.copy_bucket_page_ids (d : ExtendibleHTableDirectoryPage)
    {origin new count : Nat} (hbelow : origin + count ≤ new) (x : Nat) :
    (IncrGlobalDepth.copy d origin new count).bucket_page_ids_ x =
      if new ≤ x ∧ x < new + count then d.bucket_page_ids_ (x - new + origin)
      else d.bucket_page_ids_ x := by
  induction count generalizing d origin new with
  | zero => simp only [IncrGlobalDepth.copy]; split_ifs <;> first | rfl | omega
  | succ count ih =>
    rw [IncrGlobalDepth.copy, ih _ (by omega)]
    simp only [updateAt_apply]
    split_ifs <;> first | rfl | omega | (congr 1; omega)

theorem IncrGlobalDepth.copy_local_depths (d : ExtendibleHTableDirectoryPage)
    {origin new count : Nat} (hbelow : origin + count ≤ new) (x : Nat) :
    (IncrGlobalDepth.copy d origin new count).local_depths_ x =
      if new ≤ x ∧ x < new + count then d.local_depths_ (x - new + origin)
      else d.local_depths_ x := by
  induction count generalizing d origin new with
  | zero => simp only [IncrGlobalDepth.copy]; split_ifs <;> first | rfl | omega
  | succ count ih =>
    rw [IncrGlobalDepth.copy, ih _ (by omega)]
    simp only [updateAt_apply]
    split_ifs <;> first | rfl | omega | (congr 1; omega)

/-- Below depth 32 the global-depth mask keeps the low `global_depth_` bits of the hash. -/
theorem HashToBucketIndex_eq_mod (d : ExtendibleHTableDirectoryPage) (hash : Nat)
    (hdepth : d.global_depth_ < 32) :
    d.HashToBucketIndex hash = hash % 2 ^ d.global_depth_ := by
  rw [HashToBucketIndex, GetGlobalDepthMask, shl32_one hdepth, Nat.and_pow_two_sub_one_eq_mod]

private theorem xor_two_pow_eq_add {i l : Nat} (hi : i < 2 ^ l) : i ^^^ 2 ^ l = i + 2 ^ l := by
  apply Nat.eq_of_testBit_eq
  intro k
  rw [Nat.testBit_xor, Nat.testBit_two_pow, Nat.add_comm]
  rcases Nat.lt_trichotomy k l with hk | rfl | hk
  · rw [Nat.testBit_two_pow_add_gt hk]; simp [Nat.ne_of_gt hk]
  · rw [Nat.testBit_two_pow_add_eq, Nat.testBit_lt_two_pow hi]; simp
  · have hle : 2 ^ (l + 1) ≤ 2 ^ k := Nat.pow_le_pow_right (by decide) hk
    rw [Nat.pow_succ] at hle
    rw [Nat.testBit_lt_two_pow (show 2 ^ l + i < 2 ^ k by omega),
      Nat.testBit_lt_two_pow (show i < 2 ^ k by omega)]
    simp [Nat.ne_of_lt hk]

/-- The split image of a slot below its own local-depth bit sets that bit. -/
theorem GetSplitImageIndex_eq_add (d : ExtendibleHTableDirectoryPage) {i : Nat}
    (hi : i < 2 ^ d.local_depths_ i) (hdepth : d.local_depths_ i < 32) :
    d.GetSplitImageIndex i = i + 2 ^ d.local_depths_ i := by
  rw [GetSplitImageIndex, shl32_one hdepth, xor_two_pow_eq_add hi]

/-- What `IncrGlobalDepth` computes below depth 31: one more global-depth bit, with the upper
    half of both arrays mirroring the lower half. -/
def double (d : ExtendibleHTableDirectoryPage) : ExtendibleHTableDirectoryPage :=
  { d with
    global_depth_ := d.global_depth_ + 1
    local_depths_ := fun x =>
      if 2 ^ d.global_depth_ ≤ x ∧ x < 2 ^ (d.global_depth_ + 1) then
        d.local_depths_ (x - 2 ^ d.global_depth_)
      else d.local_depths_ x
    bucket_page_ids_ := fun x =>
      if 2 ^ d.global_depth_ ≤ x ∧ x < 2 ^ (d.global_depth_ + 1) then
        d.bucket_page_ids_ (x - 2 ^ d.global_depth_)
      else d.bucket_page_ids_ x }

/-- Below depth `31`, the copy loop of `IncrGlobalDepth` from depth `g` starts at slot
    `2 ^ g`. -/
theorem shl32_incr_new_index {g : Nat} (hg : g < 31) :
    shl32 1 (decMod 32 (incMod 32 g)) = 2 ^ g := by
  rw [incMod_of_lt (by omega), decMod_of_pos (by omega) (by omega), Nat.add_sub_cancel]
  exact shl32_one (by omega)

/-- Below depth `31`, the copy loop of `IncrGlobalDepth` from depth `g` runs `2 ^ g`
    iterations. -/
theorem shl32_incr_count {g : Nat} (hg : g < 31) : shl32 1 (incMod 32 g) - 2 ^ g = 2 ^ g := by
  rw [incMod_of_lt (by omega), shl32_one (by omega), Nat.pow_succ]
  omega

section IncrGlobalDepth

variable {d : ExtendibleHTableDirectoryPage} (hdepth : d.global_depth_ < 31)
include hdepth

/-- `IncrGlobalDepth` as the copy loop it runs, its bounds evaluated. -/
theorem IncrGlobalDepth_eq_copy :
    d.IncrGlobalDepth = IncrGlobalDepth.copy { d with global_depth_ := d.global_depth_ + 1 } 0
      (2 ^ d.global_depth_) (2 ^ d.global_depth_) := by
  show IncrGlobalDepth.copy { d with global_depth_ := incMod 32 d.global_depth_ } 0
    (shl32 1 (decMod 32 (incMod 32 d.global_depth_)))
    (shl32 1 (incMod 32 d.global_depth_) - shl32 1 (decMod 32 (incMod 32 d.global_depth_))) = _
  rw [shl32_incr_new_index hdepth, shl32_incr_count hdepth, incMod_of_lt (by omega)]

/-- The copy loop of `IncrGlobalDepth` mirrors the lower half of the directory. -/
theorem IncrGlobalDepth_eq_double : d.IncrGlobalDepth = d.double := by
  have hpow : 2 ^ (d.global_depth_ + 1) = 2 ^ d.global_depth_ + 2 ^ d.global_depth_ := by
    rw [Nat.pow_succ, Nat.mul_two]
  rw [IncrGlobalDepth_eq_copy hdepth]
  ext x
  · rw [IncrGlobalDepth.copy_max_depth]; rfl
  · rw [IncrGlobalDepth.copy_global_depth]; rfl
  · rw [IncrGlobalDepth.copy_local_depths _ (by omega)]
    simp only [double, hpow, Nat.add_zero]
  · rw [IncrGlobalDepth.copy_bucket_page_ids _ (by omega)]
    simp only [double, hpow, Nat.add_zero]

end IncrGlobalDepth

end ExtendibleHTableDirectoryPage

end bustub
