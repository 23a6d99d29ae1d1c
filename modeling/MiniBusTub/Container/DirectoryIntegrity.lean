import MiniBusTub.Storage.Page.DirectoryLayout
import Mathlib.Tactic.Set
import Mathlib.Data.Int.CardIntervalMod

namespace bustub

namespace ExtendibleHTableDirectoryPage

/-- What `VerifyIntegrity` checks of the live slots `[0, 2 ^ global_depth_)`: no local depth
    exceeds the global depth, and two slots share a bucket exactly when they agree on the low
    local-depth bits of the first, in which case their local depths agree. -/
structure Integrity (d : ExtendibleHTableDirectoryPage) : Prop where
  global_le_max : d.global_depth_ ≤ d.max_depth_
  local_le_global : ∀ i < 2 ^ d.global_depth_, d.local_depths_ i ≤ d.global_depth_
  same_bucket_iff : ∀ i < 2 ^ d.global_depth_, ∀ j < 2 ^ d.global_depth_,
    d.bucket_page_ids_ i = d.bucket_page_ids_ j ↔
      i % 2 ^ d.local_depths_ i = j % 2 ^ d.local_depths_ i
  same_bucket_depth : ∀ i < 2 ^ d.global_depth_, ∀ j < 2 ^ d.global_depth_,
    d.bucket_page_ids_ i = d.bucket_page_ids_ j → d.local_depths_ i = d.local_depths_ j

private theorem mod_two_pow_mod {x l g : Nat} (h : l ≤ g) : x % 2 ^ g % 2 ^ l = x % 2 ^ l :=
  Nat.mod_mod_of_dvd x (Nat.pow_dvd_pow 2 h)

/-- A slot of the doubled directory reads the slot `x % 2 ^ g` of the original. -/
private theorem mirror_eq {α : Type} (f : Nat → α) {g x : Nat} (hx : x < 2 ^ (g + 1)) :
    (if 2 ^ g ≤ x ∧ x < 2 ^ (g + 1) then f (x - 2 ^ g) else f x) = f (x % 2 ^ g) := by
  have hpow : 2 ^ (g + 1) = 2 ^ g + 2 ^ g := by rw [Nat.pow_succ, Nat.mul_two]
  split_ifs with h
  · rw [Nat.mod_eq_sub_mod h.1, Nat.mod_eq_of_lt (by omega)]
  · rw [Nat.mod_eq_of_lt (by omega)]

/-- A bucket of a directory with integrity is linked from `2 ^ (global_depth_ - l)` live
    slots, `l` being its local depth. -/
theorem Integrity.count_bucket_slots {d : ExtendibleHTableDirectoryPage} (h : d.Integrity)
    {i : Nat} (hi : i < 2 ^ d.global_depth_) :
    Nat.count (fun j => d.bucket_page_ids_ j = d.bucket_page_ids_ i) (2 ^ d.global_depth_) =
      2 ^ (d.global_depth_ - d.local_depths_ i) := by
  have hle := h.local_le_global i hi
  have hmodeq : Nat.count (fun j => d.bucket_page_ids_ j = d.bucket_page_ids_ i)
      (2 ^ d.global_depth_) = Nat.count (· ≡ i [MOD 2 ^ d.local_depths_ i]) (2 ^ d.global_depth_) := by
    rw [Nat.count_eq_card_filter_range, Nat.count_eq_card_filter_range]
    congr 1
    refine Finset.filter_congr fun j hj => ?_
    rw [eq_comm, h.same_bucket_iff i hi j (Finset.mem_range.1 hj), Nat.ModEq, eq_comm]
  rw [hmodeq, Nat.count_modEq_card _ (Nat.two_pow_pos _), Nat.pow_div hle (by decide),
    Nat.mod_eq_zero_of_dvd (Nat.pow_dvd_pow 2 hle)]
  simp

/-- A directory at global depth `0` whose only live slot has local depth `0`. -/
theorem Integrity.of_global_depth_zero {d : ExtendibleHTableDirectoryPage}
    (hglobal : d.global_depth_ = 0) (hlocal : d.local_depths_ 0 = 0) : d.Integrity := by
  have hlive : ∀ i < 2 ^ d.global_depth_, i = 0 := by simp [hglobal]
  refine ⟨by omega, fun i hi => ?_, fun i hi j hj => ?_, fun i hi j hj _ => ?_⟩ <;>
    obtain rfl := hlive i hi
  · simp [hlocal]
  · obtain rfl := hlive j hj; simp
  · rw [hlive j hj]

@[simp] theorem double_max_depth (d : ExtendibleHTableDirectoryPage) :
    d.double.max_depth_ = d.max_depth_ := by
  cases d; rfl

@[simp] theorem double_global_depth (d : ExtendibleHTableDirectoryPage) :
    d.double.global_depth_ = d.global_depth_ + 1 := by
  cases d; rfl

/-- A live slot of the doubled directory reads the slot of the original it mirrors. -/
theorem double_local_depths (d : ExtendibleHTableDirectoryPage) {x : Nat}
    (hx : x < 2 ^ (d.global_depth_ + 1)) :
    d.double.local_depths_ x = d.local_depths_ (x % 2 ^ d.global_depth_) :=
  mirror_eq d.local_depths_ hx

theorem double_bucket_page_ids (d : ExtendibleHTableDirectoryPage) {x : Nat}
    (hx : x < 2 ^ (d.global_depth_ + 1)) :
    d.double.bucket_page_ids_ x = d.bucket_page_ids_ (x % 2 ^ d.global_depth_) :=
  mirror_eq d.bucket_page_ids_ hx

/-- Doubling keeps the integrity of a directory below its maximal depth. -/
theorem Integrity.double {d : ExtendibleHTableDirectoryPage} (h : d.Integrity)
    (hmax : d.global_depth_ < d.max_depth_) : d.double.Integrity := by
  have hlt : ∀ x, x % 2 ^ d.global_depth_ < 2 ^ d.global_depth_ :=
    fun x => Nat.mod_lt _ (Nat.two_pow_pos _)
  refine ⟨by simpa using hmax, fun x hx => ?_, fun x hx y hy => ?_, fun x hx y hy hxy => ?_⟩ <;>
    rw [double_global_depth] at hx
  · rw [double_local_depths d hx, double_global_depth]
    exact Nat.le_succ_of_le (h.local_le_global _ (hlt x))
  · rw [double_global_depth] at hy
    have hle := h.local_le_global _ (hlt x)
    rw [double_local_depths d hx, double_bucket_page_ids d hx, double_bucket_page_ids d hy,
      h.same_bucket_iff _ (hlt x) _ (hlt y), mod_two_pow_mod hle, mod_two_pow_mod hle]
  · rw [double_global_depth] at hy
    rw [double_bucket_page_ids d hx, double_bucket_page_ids d hy] at hxy
    rw [double_local_depths d hx, double_local_depths d hy]
    exact h.same_bucket_depth _ (hlt x) _ (hlt y) hxy

/-- The split of the bucket at live slot `i` into itself and the page
    `new_bucket_page_id`, as extendible hashing defines it: with `l` the bucket's local depth,
    every live slot on the bucket gets local depth `l + 1`, and those whose bit `l` differs
    from `i`'s move to the new page. -/
def splitAt (d : ExtendibleHTableDirectoryPage) (i : Nat) (new_bucket_page_id : Int) :
    ExtendibleHTableDirectoryPage :=
  { d with
    local_depths_ := fun x =>
      if x < 2 ^ d.global_depth_ ∧ x % 2 ^ d.local_depths_ i = i % 2 ^ d.local_depths_ i then
        d.local_depths_ i + 1
      else d.local_depths_ x
    bucket_page_ids_ := fun x =>
      if x < 2 ^ d.global_depth_ ∧ x % 2 ^ d.local_depths_ i = i % 2 ^ d.local_depths_ i ∧
          x % 2 ^ (d.local_depths_ i + 1) ≠ i % 2 ^ (d.local_depths_ i + 1) then
        new_bucket_page_id
      else d.bucket_page_ids_ x }

@[simp] theorem splitAt_max_depth (d : ExtendibleHTableDirectoryPage) (i : Nat) (p : Int) :
    (d.splitAt i p).max_depth_ = d.max_depth_ := by
  cases d; rfl

@[simp] theorem splitAt_global_depth (d : ExtendibleHTableDirectoryPage) (i : Nat) (p : Int) :
    (d.splitAt i p).global_depth_ = d.global_depth_ := by
  cases d; rfl

theorem splitAt_local_depths (d : ExtendibleHTableDirectoryPage) (i : Nat) (p : Int) (x : Nat) :
    (d.splitAt i p).local_depths_ x =
      if x < 2 ^ d.global_depth_ ∧ x % 2 ^ d.local_depths_ i = i % 2 ^ d.local_depths_ i then
        d.local_depths_ i + 1
      else d.local_depths_ x := by
  cases d; rfl

theorem splitAt_bucket_page_ids (d : ExtendibleHTableDirectoryPage) (i : Nat) (p : Int)
    (x : Nat) :
    (d.splitAt i p).bucket_page_ids_ x =
      if x < 2 ^ d.global_depth_ ∧ x % 2 ^ d.local_depths_ i = i % 2 ^ d.local_depths_ i ∧
          x % 2 ^ (d.local_depths_ i + 1) ≠ i % 2 ^ (d.local_depths_ i + 1) then p
      else d.bucket_page_ids_ x := by
  cases d; rfl

/-- Numbers that agree below bit `l` agree below bit `l + 1` iff their bits `l` agree. -/
private theorem mod_succ_eq_iff {x y l : Nat} (h : x % 2 ^ l = y % 2 ^ l) :
    x % 2 ^ (l + 1) = y % 2 ^ (l + 1) ↔ x / 2 ^ l % 2 = y / 2 ^ l % 2 := by
  rw [Nat.mod_pow_succ, Nat.mod_pow_succ, h, Nat.add_left_cancel_iff]
  exact ⟨Nat.eq_of_mul_eq_mul_left (Nat.two_pow_pos l), fun h' => by rw [h']⟩

/-- A split at a live slot below the global depth keeps the integrity of the directory,
    provided the new page id is not already live in it. -/
theorem Integrity.splitAt {d : ExtendibleHTableDirectoryPage} (h : d.Integrity) {i : Nat}
    (hi : i < 2 ^ d.global_depth_) (hl : d.local_depths_ i < d.global_depth_) {new_page : Int}
    (hfresh : ∀ x < 2 ^ d.global_depth_, d.bucket_page_ids_ x ≠ new_page) :
    (d.splitAt i new_page).Integrity := by
  set l := d.local_depths_ i with hl_def
  have honB : ∀ x < 2 ^ d.global_depth_,
      d.bucket_page_ids_ x = d.bucket_page_ids_ i ↔ x % 2 ^ l = i % 2 ^ l := fun x hx => by
    rw [eq_comm, h.same_bucket_iff i hi x hx, eq_comm]
  have hBN := hfresh i hi
  have hbit : ∀ x, x / 2 ^ l % 2 < 2 := fun x => Nat.mod_lt _ (by decide)
  refine ⟨h.global_le_max, fun x hx => ?_, fun x hx y hy => ?_, fun x hx y hy hxy => ?_⟩ <;>
    simp only [splitAt_global_depth, splitAt_max_depth, splitAt_local_depths,
      splitAt_bucket_page_ids] at *
  · split_ifs
    · omega
    · exact h.local_le_global x hx
  · by_cases hSx : x % 2 ^ l = i % 2 ^ l <;> by_cases hSy : y % 2 ^ l = i % 2 ^ l
    · simp only [hx, hy, hSx, hSy, true_and, if_true, ne_eq, mod_succ_eq_iff hSx,
        mod_succ_eq_iff hSy, mod_succ_eq_iff (hSx.trans hSy.symm), (honB x hx).2 hSx,
        (honB y hy).2 hSy]
      have := hbit x; have := hbit y; have := hbit i
      split_ifs <;> simp only [true_iff, false_iff, hBN, hBN.symm, not_false_eq_true] <;> omega
    · have hy' : d.bucket_page_ids_ y ≠ d.bucket_page_ids_ i := mt (honB y hy).1 hSy
      simp only [hx, hy, hSx, hSy, true_and, false_and, and_false, if_true, if_false]
      refine iff_of_false ?_ fun hmod => hSy ?_
      · split_ifs
        · exact fun he => hfresh y hy he.symm
        · exact fun he => hy' (he.symm.trans ((honB x hx).2 hSx))
      · have := congrArg (· % 2 ^ l) hmod
        simp only [mod_two_pow_mod (Nat.le_succ l)] at this
        exact this.symm.trans hSx
    · have hx' : d.bucket_page_ids_ x ≠ d.bucket_page_ids_ i := mt (honB x hx).1 hSx
      simp only [hx, hy, hSx, hSy, true_and, false_and, and_false, if_true, if_false]
      refine iff_of_false ?_ fun hmod => hx' ?_
      · split_ifs
        · exact hfresh x hx
        · exact fun he => hx' (he.trans ((honB y hy).2 hSy))
      · exact ((h.same_bucket_iff x hx y hy).2 hmod).trans ((honB y hy).2 hSy)
    · simp only [hx, hy, hSx, hSy, true_and, false_and, and_false, if_false]
      exact h.same_bucket_iff x hx y hy
  · by_cases hSx : x % 2 ^ l = i % 2 ^ l <;> by_cases hSy : y % 2 ^ l = i % 2 ^ l <;>
      simp only [hx, hy, hSx, hSy, true_and, false_and, and_false, if_true, if_false] at hxy ⊢
    · exfalso
      split_ifs at hxy
      · exact hfresh y hy hxy.symm
      · exact hSy ((honB y hy).1 (hxy.symm.trans ((honB x hx).2 hSx)))
    · exfalso
      split_ifs at hxy
      · exact hfresh x hx hxy
      · exact hSx ((honB x hx).1 (hxy.trans ((honB y hy).2 hSy)))
    · exact h.same_bucket_depth x hx y hy hxy

section Resize

variable {d : ExtendibleHTableDirectoryPage}

/-- Dropping the top global-depth bit keeps the integrity of a directory all of whose live
    slots have a local depth below the global depth. -/
theorem Integrity.shrink (h : d.Integrity)
    (hlocal : ∀ i < 2 ^ d.global_depth_, d.local_depths_ i < d.global_depth_) :
    { d with global_depth_ := d.global_depth_ - 1 }.Integrity := by
  have hlive : ∀ i < 2 ^ (d.global_depth_ - 1), i < 2 ^ d.global_depth_ := fun i hi =>
    lt_of_lt_of_le hi (Nat.pow_le_pow_right (by decide) (Nat.sub_le _ _))
  refine ⟨le_trans (Nat.sub_le _ _) h.global_le_max, fun i hi => ?_,
    fun i hi j hj => h.same_bucket_iff i (hlive i hi) j (hlive j hj),
    fun i hi j hj => h.same_bucket_depth i (hlive i hi) j (hlive j hj)⟩
  have := hlocal i (hlive i hi)
  show d.local_depths_ i ≤ d.global_depth_ - 1
  omega

/-- In such a directory the live slot `hash % 2 ^ (g - 1)` links the bucket of the live slot
    `hash % 2 ^ g`. -/
theorem Integrity.bucket_mod_pred (h : d.Integrity)
    (hlocal : ∀ i < 2 ^ d.global_depth_, d.local_depths_ i < d.global_depth_) (hash : Nat) :
    d.bucket_page_ids_ (hash % 2 ^ (d.global_depth_ - 1)) =
      d.bucket_page_ids_ (hash % 2 ^ d.global_depth_) := by
  have hi := Nat.mod_lt hash (Nat.two_pow_pos d.global_depth_)
  have hj : hash % 2 ^ (d.global_depth_ - 1) < 2 ^ d.global_depth_ :=
    lt_of_lt_of_le (Nat.mod_lt _ (Nat.two_pow_pos _))
      (Nat.pow_le_pow_right (by decide) (Nat.sub_le _ _))
  have hl := hlocal _ hi
  rw [eq_comm, h.same_bucket_iff _ hi _ hj, mod_two_pow_mod hl.le, mod_two_pow_mod (by omega)]

/-- Growing the directory with `IncrGlobalDepth` below its maximal depth, or shrinking it with
    `DecrGlobalDepth` when `CanShrink` allows, keeps its integrity and sends every hash to the
    bucket it reached before, provided the maximal depth is at most `HTABLE_DIRECTORY_MAX_DEPTH`:
    the grown directory then fits the page's arrays, where the model is the code
    (`DirectoryLayout.IncrGlobalDepth_view`), and every shift `1 << global_depth_` is defined. -/
theorem Integrity.resize_keeps_routing (h : d.Integrity)
    (hmax : d.max_depth_ ≤ HTABLE_DIRECTORY_MAX_DEPTH) :
    (d.global_depth_ < d.max_depth_ →
      d.IncrGlobalDepth.Integrity ∧ ∀ hash : Nat,
        d.IncrGlobalDepth.GetBucketPageId (d.IncrGlobalDepth.HashToBucketIndex hash) =
          d.GetBucketPageId (d.HashToBucketIndex hash)) ∧
    (d.CanShrink = true →
      d.DecrGlobalDepth.Integrity ∧ ∀ hash : Nat,
        d.DecrGlobalDepth.GetBucketPageId (d.DecrGlobalDepth.HashToBucketIndex hash) =
          d.GetBucketPageId (d.HashToBucketIndex hash)) := by
  have hmax : d.max_depth_ < 32 := by unfold HTABLE_DIRECTORY_MAX_DEPTH at hmax; omega
  have hg : d.global_depth_ < 32 := lt_of_le_of_lt h.global_le_max hmax
  refine ⟨fun hlt => ?_, fun hshrink => ?_⟩
  · rw [IncrGlobalDepth_eq_double (by omega)]
    refine ⟨h.double hlt, fun hash => ?_⟩
    have hmod := Nat.mod_lt hash (Nat.two_pow_pos (d.global_depth_ + 1))
    rw [GetBucketPageId, GetBucketPageId, HashToBucketIndex_eq_mod _ _ (by simp; omega),
      HashToBucketIndex_eq_mod _ _ hg, double_global_depth, double_bucket_page_ids d hmod,
      mod_two_pow_mod (Nat.le_succ _)]
  · have hlocal : ∀ i < 2 ^ d.global_depth_, d.local_depths_ i < d.global_depth_ := by
      simpa [CanShrink, Size, shl32_one hg] using hshrink
    have hpos : 0 < d.global_depth_ := Nat.lt_of_le_of_lt (Nat.zero_le _)
      (hlocal 0 (Nat.two_pow_pos _))
    have hdecr : d.DecrGlobalDepth = { d with global_depth_ := d.global_depth_ - 1 } := by
      rw [DecrGlobalDepth, decMod_of_pos hpos (by omega)]
    rw [hdecr]
    refine ⟨h.shrink hlocal, fun hash => ?_⟩
    rw [GetBucketPageId, GetBucketPageId, HashToBucketIndex_eq_mod _ _ (by dsimp only; omega),
      HashToBucketIndex_eq_mod _ _ hg]
    exact h.bucket_mod_pred hlocal hash

end Resize

/-- The directory of maximal depth `max_depth` and global depth `g` whose two buckets, pages
    `0` and `1`, hold the even and the odd slots, both at local depth `1`. -/
def parity (max_depth g : Nat) : ExtendibleHTableDirectoryPage :=
  ⟨max_depth, g, fun _ => 1, fun i => ((i % 2 : Nat) : Int)⟩

theorem parity_integrity {max_depth g : Nat} (h1 : 1 ≤ g) (hg : g ≤ max_depth) :
    (parity max_depth g).Integrity :=
  ⟨hg, fun _ _ => h1, fun _ _ _ _ => by simp only [parity, Nat.pow_one, Nat.cast_inj],
    fun _ _ _ _ _ => rfl⟩

theorem resize_parity_directory :
    (parity 9 2).global_depth_ < (parity 9 2).max_depth_ ∧ (parity 9 2).CanShrink = true ∧
    ((parity 9 2).IncrGlobalDepth.Integrity ∧ ∀ hash : Nat,
      (parity 9 2).IncrGlobalDepth.GetBucketPageId
          ((parity 9 2).IncrGlobalDepth.HashToBucketIndex hash) =
        (parity 9 2).GetBucketPageId ((parity 9 2).HashToBucketIndex hash)) ∧
    ((parity 9 2).DecrGlobalDepth.Integrity ∧ ∀ hash : Nat,
      (parity 9 2).DecrGlobalDepth.GetBucketPageId
          ((parity 9 2).DecrGlobalDepth.HashToBucketIndex hash) =
        (parity 9 2).GetBucketPageId ((parity 9 2).HashToBucketIndex hash)) :=
  have h := Integrity.resize_keeps_routing (parity_integrity (by decide) (by decide) :
    (parity 9 2).Integrity) (by decide)
  ⟨by decide, by decide, h.1 (by decide), h.2 (by decide)⟩

/-- A directory with integrity within the page's arrays keeps it laid out in the page, its
    bucket page ids being `page_id_t` values. -/
theorem Integrity.ofPage {d : ExtendibleHTableDirectoryPage} (h : d.Integrity)
    (hglobal : d.global_depth_ ≤ HTABLE_DIRECTORY_MAX_DEPTH)
    (hids : ∀ i < 2 ^ d.global_depth_, toInt32 (d.bucket_page_ids_ i) = d.bucket_page_ids_ i) :
    (DirectoryLayout.ofPage d).view.Integrity := by
  have hlive : ∀ i < 2 ^ d.global_depth_, i < HTABLE_DIRECTORY_ARRAY_SIZE := fun i hi =>
    lt_of_lt_of_le hi (Nat.pow_le_pow_right (by decide) hglobal)
  have hlocal : ∀ i < 2 ^ d.global_depth_,
      (DirectoryLayout.ofPage d).view.local_depths_ i = d.local_depths_ i := fun i hi => by
    have := h.local_le_global i hi
    unfold HTABLE_DIRECTORY_MAX_DEPTH at hglobal
    rw [(DirectoryLayout.view_ofPage d (hlive i hi)).1, Nat.mod_eq_of_lt (by omega)]
  have hbucket : ∀ i < 2 ^ d.global_depth_,
      (DirectoryLayout.ofPage d).view.bucket_page_ids_ i = d.bucket_page_ids_ i := fun i hi =>
    (DirectoryLayout.view_ofPage d (hlive i hi)).2.trans (hids i hi)
  refine ⟨h.global_le_max, fun i hi => ?_, fun i hi j hj => ?_, fun i hi j hj => ?_⟩
  · rw [hlocal i hi]
    exact h.local_le_global i hi
  · rw [hbucket i hi, hbucket j hj, hlocal i hi]
    exact h.same_bucket_iff i hi j hj
  · rw [hbucket i hi, hbucket j hj, hlocal i hi, hlocal j hj]
    exact h.same_bucket_depth i hi j hj

/-- At global depth `9` below a maximal depth of `10` a directory with integrity no longer fits
    the page once grown. Laid out in the page, the parity directory sends hash `0` to page `0`;
    after `IncrGlobalDepth`, whose stores to `local_depths_` run on into `bucket_page_ids_`, it
    sends it to the page whose id is the four local depths `1`, little-endian. -/
theorem resize_past_arrays_reroutes :
    (DirectoryLayout.ofPage (parity 10 9)).view.Integrity ∧
      (DirectoryLayout.ofPage (parity 10 9)).view.global_depth_ <
        (DirectoryLayout.ofPage (parity 10 9)).view.max_depth_ ∧
      (DirectoryLayout.ofPage (parity 10 9)).view.GetBucketPageId
        ((DirectoryLayout.ofPage (parity 10 9)).view.HashToBucketIndex 0) = 0 ∧
      (DirectoryLayout.ofPage (parity 10 9)).IncrGlobalDepth.view.GetBucketPageId
        ((DirectoryLayout.ofPage (parity 10 9)).IncrGlobalDepth.view.HashToBucketIndex 0) =
          16843009 := by
  refine ⟨(parity_integrity (by decide) (by decide)).ofPage (by decide) fun i _ => ?_,
    by decide, by decide, ?_⟩
  · show toInt32 ((i % 2 : Nat) : Int) = ((i % 2 : Nat) : Int)
    unfold toInt32
    omega
  · rw [GetBucketPageId, HashToBucketIndex, Nat.zero_and,
      DirectoryLayout.IncrGlobalDepth_overwrites_first_bucket _ rfl]
    decide

section RoundTrip

variable {d : ExtendibleHTableDirectoryPage}

/-- Growing a directory below depth `HTABLE_DIRECTORY_MAX_DEPTH`, so that the grown directory
    still fits the page's arrays, and shrinking it straight back is a round trip, as long as no
    live local depth exceeds the global depth: the grown directory can always shrink, and
    shrinking it restores the global depth and, on every live slot, the bucket page id and the
    local depth. -/
theorem IncrGlobalDepth_DecrGlobalDepth (hdepth : d.global_depth_ < HTABLE_DIRECTORY_MAX_DEPTH)
    (hlocal : ∀ i < d.Size, d.GetLocalDepth i ≤ d.GetGlobalDepth) :
    d.IncrGlobalDepth.CanShrink = true ∧
      d.IncrGlobalDepth.DecrGlobalDepth.GetGlobalDepth = d.GetGlobalDepth ∧
      ∀ i < d.Size, d.IncrGlobalDepth.DecrGlobalDepth.GetBucketPageId i = d.GetBucketPageId i ∧
        d.IncrGlobalDepth.DecrGlobalDepth.GetLocalDepth i = d.GetLocalDepth i := by
  have hdepth : d.global_depth_ < 31 := by unfold HTABLE_DIRECTORY_MAX_DEPTH at hdepth; omega
  have hsize : d.Size = 2 ^ d.global_depth_ := shl32_one (by omega)
  have hdecr : d.double.DecrGlobalDepth = { d.double with global_depth_ := d.global_depth_ } := by
    rw [DecrGlobalDepth, double_global_depth, decMod_of_pos (by omega) (by omega),
      Nat.add_sub_cancel]
  rw [IncrGlobalDepth_eq_double hdepth, hdecr]
  rw [hsize] at hlocal
  refine ⟨?_, rfl, fun i hi => ?_⟩
  · -- every slot of the grown directory mirrors a live slot of the original
    simp only [CanShrink, Size, double_global_depth, shl32_one (show d.global_depth_ + 1 < 32 by
      omega), List.all_eq_true, List.mem_range, decide_eq_true_eq]
    intro x hx
    rw [double_local_depths d hx]
    exact Nat.lt_succ_of_le (hlocal _ (Nat.mod_lt _ (Nat.two_pow_pos _)))
  · rw [hsize] at hi
    have hi' : i < 2 ^ (d.global_depth_ + 1) := by rw [Nat.pow_succ]; omega
    simp only [GetBucketPageId, GetLocalDepth]
    rw [double_bucket_page_ids d hi', double_local_depths d hi', Nat.mod_eq_of_lt hi]
    exact ⟨rfl, rfl⟩

theorem IncrGlobalDepth_DecrGlobalDepth_parity :
    (parity 9 2).global_depth_ < HTABLE_DIRECTORY_MAX_DEPTH ∧
      (∀ i < (parity 9 2).Size, (parity 9 2).GetLocalDepth i ≤ (parity 9 2).GetGlobalDepth) ∧
    (parity 9 2).IncrGlobalDepth.CanShrink = true ∧
      (parity 9 2).IncrGlobalDepth.DecrGlobalDepth.GetGlobalDepth = 2 ∧
      ∀ i < (parity 9 2).Size,
        (parity 9 2).IncrGlobalDepth.DecrGlobalDepth.GetBucketPageId i =
          (parity 9 2).GetBucketPageId i ∧
        (parity 9 2).IncrGlobalDepth.DecrGlobalDepth.GetLocalDepth i =
          (parity 9 2).GetLocalDepth i :=
  ⟨by decide, fun _ _ => (by decide : 1 ≤ 2),
    IncrGlobalDepth_DecrGlobalDepth (by decide) fun _ _ => (by decide : 1 ≤ 2)⟩

end RoundTrip

end ExtendibleHTableDirectoryPage

end bustub
