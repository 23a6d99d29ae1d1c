import MiniBusTub.Container.DiskExtendibleHashTable
import MiniBusTub.Storage.Page.BucketPageInvariant

namespace bustub

namespace ExtendibleHTableBucketPage

variable {K V : Type} {cmp : K → K → Int} {b : ExtendibleHTableBucketPage K V}

/-- Removing a live entry by its own key succeeds and takes out that entry alone. -/
theorem Invariant.Remove_of_mem [Inhabited K] [Inhabited V]
    (hcmp : Equivalence fun a b => cmp a b = 0) (h : b.Invariant cmp) {e : K × V}
    (he : e ∈ b.array_) :
    (b.Remove e.1 cmp).1 = true ∧ List.Perm ((b.Remove e.1 cmp).2.array_ ++ [e]) b.array_ := by
  obtain ⟨hfound, hperm⟩ := h.Remove_perm hcmp e.1
  refine ⟨hfound.trans (List.any_eq_true.2 ⟨e, he, by simpa using hcmp.refl e.1⟩), ?_⟩
  obtain ⟨a, rest, hsplit⟩ := List.append_of_mem he
  have hdist := hsplit ▸ h.distinct
  have ha : ∀ x ∈ a, cmp e.1 x.1 ≠ 0 := fun x hx hk =>
    (List.pairwise_append.1 hdist).2.2 x hx e (List.mem_cons_self _ _) (hcmp.symm hk)
  have hrest := fun x hx => not_match_of_distinct hcmp hdist (hcmp.refl e.1) (y := x) hx
  rw [hsplit, List.filter_append, List.filter_cons, List.filter_eq_self.2 (by simpa using ha),
    List.filter_eq_self.2 (by simpa using hrest)] at hperm
  simp only [hcmp.refl e.1, ne_eq, not_true_eq_false, decide_False, Bool.false_eq_true,
    if_false] at hperm
  rw [hsplit]
  exact (hperm.append_right [e]).trans
    (by simpa using List.Perm.append_left a (List.perm_append_singleton e rest))

end ExtendibleHTableBucketPage

namespace DiskExtendibleHashTable

open ExtendibleHTableBucketPage

variable {K V : Type} [Inhabited K] [Inhabited V] {ht : DiskExtendibleHashTable K V}
  {new_bucket_idx local_depth_mask : Nat}

/-- What the loop of `MigrateEntries` keeps, `L₀` being the entries it started from: the two
    buckets hold `L₀` between them, whose keys are pairwise inequivalent; the destination has
    room for all of `L₀`; and every entry in the destination matches the split image. -/
structure MigrateEntries.Inv (ht : DiskExtendibleHashTable K V) (L₀ : List (K × V))
    (new_bucket_idx local_depth_mask : Nat) (old_bucket new_bucket : ExtendibleHTableBucketPage K V) :
    Prop where
  perm : List.Perm (old_bucket.array_ ++ new_bucket.array_) L₀
  distinct : L₀.Pairwise fun e e' => ht.cmp_ e.1 e'.1 ≠ 0
  room : L₀.length ≤ new_bucket.max_size_
  old_le : old_bucket.Size ≤ old_bucket.max_size_
  moved : ∀ e ∈ new_bucket.array_, ht.Hash e.1 &&& local_depth_mask = new_bucket_idx

section Loop

variable (hcmp : Equivalence fun a b => ht.cmp_ a b = 0) {L₀ : List (K × V)}
  {old_bucket new_bucket : ExtendibleHTableBucketPage K V}
include hcmp

omit [Inhabited K] [Inhabited V] in
/-- Both buckets, and the two together, keep their keys pairwise inequivalent. -/
theorem MigrateEntries.Inv.pairwise
    (h : MigrateEntries.Inv ht L₀ new_bucket_idx local_depth_mask old_bucket new_bucket) :
    (old_bucket.array_ ++ new_bucket.array_).Pairwise fun e e' => ht.cmp_ e.1 e'.1 ≠ 0 :=
  h.perm.symm.pairwise h.distinct fun hne heq => hne (hcmp.symm heq)

/-- One moved entry: the entry at a live slot `i` whose hash matches leaves the source and is
    appended to the destination. -/
theorem MigrateEntries.Inv.move
    (h : MigrateEntries.Inv ht L₀ new_bucket_idx local_depth_mask old_bucket new_bucket)
    {i : Nat} (hi : i < old_bucket.Size)
    (hmatch : ht.Hash (old_bucket.KeyAt i) &&& local_depth_mask = new_bucket_idx) :
    MigrateEntries.Inv ht L₀ new_bucket_idx local_depth_mask
      (old_bucket.Remove (old_bucket.KeyAt i) ht.cmp_).2
      (new_bucket.Insert (old_bucket.KeyAt i) (old_bucket.ValueAt i) ht.cmp_).2 ∧
      (old_bucket.Remove (old_bucket.KeyAt i) ht.cmp_).2.Size = old_bucket.Size - 1 := by
  have hentry : old_bucket.array_.getD i default = old_bucket.array_[i] := by
    rw [List.getD_eq_getElem?_getD, List.getElem?_eq_getElem hi]; rfl
  set e := old_bucket.array_[i]
  have he : e ∈ old_bucket.array_ := List.getElem_mem hi
  have hkey : old_bucket.KeyAt i = e.1 := by rw [KeyAt, hentry]
  have hvalue : old_bucket.ValueAt i = e.2 := by rw [ValueAt, hentry]
  obtain ⟨hold, hnew, hcross⟩ := List.pairwise_append.1 (h.pairwise hcmp)
  have hroom : new_bucket.Size < new_bucket.max_size_ := by
    have hlen := h.perm.length_eq
    have := h.room
    simp only [List.length_append] at hlen
    simp only [Size] at hi ⊢
    omega
  have hinv_new : new_bucket.Invariant ht.cmp_ := ⟨hroom.le, hnew⟩
  obtain ⟨-, hperm⟩ := Invariant.Remove_of_mem hcmp ⟨h.old_le, hold⟩ he
  have hins : new_bucket.Insert e.1 e.2 ht.cmp_ =
      (true, { new_bucket with array_ := new_bucket.array_ ++ [e] }) := by
    rw [hinv_new.Insert_eq, if_pos ⟨hroom, fun x hx => hcross e he x hx⟩]
  have hsize := hperm.length_eq
  simp only [List.length_append, List.length_singleton] at hsize
  rw [hkey, hvalue, hins]
  refine ⟨⟨?_, h.distinct, h.room, ?_, ?_⟩, by simp only [Size]; omega⟩
  · refine List.Perm.trans ?_ ((hperm.append_right _).trans h.perm)
    rw [List.append_assoc]
    exact List.Perm.append_left _ List.perm_append_comm
  · have := h.old_le
    simp only [Size, Remove_max_size] at *
    omega
  · intro x hx
    rcases List.mem_append.1 hx with hx | hx
    · exact h.moved x hx
    · rw [List.mem_singleton.1 hx, ← hkey]; exact hmatch

/-- The loop keeps `MigrateEntries.Inv` while its bound is the source's size. -/
theorem MigrateEntries.loop_inv (fuel i : Nat) {tmp_size : Nat}
    (h : MigrateEntries.Inv ht L₀ new_bucket_idx local_depth_mask old_bucket new_bucket)
    (hsize : old_bucket.Size = tmp_size) :
    MigrateEntries.Inv ht L₀ new_bucket_idx local_depth_mask
      (MigrateEntries.loop ht new_bucket_idx local_depth_mask fuel old_bucket new_bucket i
        tmp_size).1
      (MigrateEntries.loop ht new_bucket_idx local_depth_mask fuel old_bucket new_bucket i
        tmp_size).2 := by
  induction fuel generalizing old_bucket new_bucket i tmp_size with
  | zero => exact h
  | succ fuel ih =>
    rw [MigrateEntries.loop]
    dsimp only
    split_ifs with hi hskip
    · exact ih _ h hsize
    · obtain ⟨h', hsize'⟩ := h.move hcmp (hsize ▸ hi) (by simpa using (not_not.1 hskip).symm)
      exact ih _ h' (by omega)
    · exact h

end Loop

/-- `MigrateEntries` from a source whose keys are pairwise inequivalent into an empty bucket
    of the same capacity loses no entry and duplicates none, and moves only entries whose
    masked hash is `new_bucket_idx`: every other entry stays in the source. -/
theorem MigrateEntries_perm (hcmp : Equivalence fun a b => ht.cmp_ a b = 0)
    {old_bucket new_bucket : ExtendibleHTableBucketPage K V} (hold : old_bucket.Invariant ht.cmp_)
    (hnew : new_bucket.array_ = []) (hmax : new_bucket.max_size_ = old_bucket.max_size_) :
    let r := ht.MigrateEntries old_bucket new_bucket new_bucket_idx local_depth_mask
    List.Perm (r.1.array_ ++ r.2.array_) old_bucket.array_ ∧
      (∀ e ∈ r.2.array_, ht.Hash e.1 &&& local_depth_mask = new_bucket_idx) ∧
      ∀ e ∈ old_bucket.array_, ht.Hash e.1 &&& local_depth_mask ≠ new_bucket_idx →
        e ∈ r.1.array_ := by
  have h : MigrateEntries.Inv ht old_bucket.array_ new_bucket_idx local_depth_mask old_bucket
      new_bucket :=
    ⟨by simp [hnew], hold.distinct, hmax ▸ hold.size_le, hold.size_le, by simp [hnew]⟩
  have h' := MigrateEntries.loop_inv hcmp old_bucket.Size 0 h rfl
  refine ⟨h'.perm, h'.moved, fun e he hne => ?_⟩
  rcases List.mem_append.1 (h'.perm.mem_iff.2 he) with hin | hin
  · exact hin
  · exact absurd (h'.moved e hin) hne

/-- Keys `0`, `1` and `2` under the identity hash, mask `1`, split image `0`: keys `0` and
    `2` should move. Removing `0` swaps `2` into slot `0`, which the loop has passed, so `2`
    stays in the source. -/
theorem MigrateEntries_skips_swapped_entry :
    let ht : DiskExtendibleHashTable Int Int := ⟨IntComparator, Int.toNat, 0, 0, 3, 0⟩
    let r := ht.MigrateEntries ⟨[(0, 0), (1, 1), (2, 2)], 3⟩ ⟨[], 3⟩ 0 1
    (r.1.array_, r.2.array_) = ([(2, 2), (1, 1)], [(0, 0)]) := by
  decide

end DiskExtendibleHashTable

end bustub
