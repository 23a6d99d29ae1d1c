import MiniBusTub.Container.HashTableInvariant

namespace bustub

open ExtendibleHTableDirectoryPage

namespace DiskExtendibleHashTable

variable {K V : Type} [Inhabited K] [Inhabited V] {ht : DiskExtendibleHashTable K V}
  {s : PageStore K V}

/-- `Insert` of a key the table already maps, into a bucket with room, answers `true` and
    writes nothing: the old value stays. -/
theorem Insert_of_present {key : K} {value old : V} (hpresent : ht.GetValue s key = some old)
    (hroom : let header := s.headers ht.header_page_id_
      let directory := s.directories
        (header.GetDirectoryPageId (header.HashToDirectoryIndex (ht.Hash key)))
      (s.buckets (directory.GetBucketPageId
        (directory.HashToBucketIndex (ht.Hash key)))).IsFull = false) :
    ht.Insert s key value = (true, s) := by
  simp only [GetValue] at hpresent
  split_ifs at hpresent with hlinked
  simp only [DiskExtendibleHashTable.Insert, if_neg hlinked] at hroom ⊢
  simp only [hroom, ExtendibleHTableBucketPage.Insert_of_Lookup hpresent, PageStore.setBucket_self]
  rfl

/-- Keys compared by equality. -/
def natCmp (a b : Nat) : Int := if a = b then 0 else 1

/-- Two runs on which the table stops behaving as a map. With two entries a bucket, a second
    `Insert` of key `1` answers `true` and keeps the old value. With one entry a bucket,
    `Insert` of keys `0` to `3` all answer `true`, and key `1` is then not found. -/
theorem Insert_diverges_from_map :
    (let r := new natCmp id 0 1 2 PageStore.empty
     let s := r.1.run r.2 [.Insert 1 10]
     (r.1.Insert s 1 20).1 = true ∧ r.1.GetValue (r.1.Insert s 1 20).2 1 = some 10) ∧
    (let r := new natCmp id 0 3 1 PageStore.empty
     let s := r.1.run r.2 [.Insert 0 0, .Insert 1 1, .Insert 2 2]
     (r.1.Insert r.2 0 0).1 = true ∧ (r.1.Insert (r.1.run r.2 [.Insert 0 0]) 1 1).1 = true ∧
       (r.1.Insert (r.1.run r.2 [.Insert 0 0, .Insert 1 1]) 2 2).1 = true ∧
       r.1.GetValue s 1 = some 1 ∧ (r.1.Insert s 3 3).1 = true ∧
       r.1.GetValue (r.1.Insert s 3 3).2 1 = none) := by
  refine ⟨?_, by decide⟩
  -- key `1` is mapped to `10` and its bucket has room
  intro r s
  rw [@Insert_of_present Nat Nat _ _ r.1 s 1 20 10 (by decide) (by decide)]
  exact ⟨rfl, by decide⟩

/-- With one entry a bucket, keys `0`, `1`, `2` fill three buckets at global depth `2`, key `1`
    alone at local depth `1` behind slots `1` and `3`. Inserting `3` splits that bucket
    without touching the directory: key `1` moves to page `5`, which no slot links. -/
theorem Insert_split_below_global_depth :
    (let r := new natCmp id 0 3 1 PageStore.empty
     let s := r.1.run r.2 [.Insert 0 0, .Insert 1 1, .Insert 2 2]
     let d := s.directories 1
     let s' := (r.1.Insert s 3 3).2
     let d' := s'.directories 1
     r.1.Reachable s ∧ d.global_depth_ = 2 ∧ d.local_depths_ 3 = 1 ∧
       d.bucket_page_ids_ 1 = d.bucket_page_ids_ 3 ∧ (s.buckets (d.bucket_page_ids_ 3)).IsFull ∧
       d'.bucket_page_ids_ 1 = d.bucket_page_ids_ 3 ∧ d'.local_depths_ 1 = 1 ∧
       d'.local_depths_ 3 = 1 ∧ (s'.buckets 5).Lookup 1 natCmp = some 1 ∧
       ∀ x < 2 ^ d'.global_depth_, d'.bucket_page_ids_ x ≠ 5) :=
  ⟨(Reachable.init natCmp id 0 3 1 PageStore.empty).run [.Insert 0 0, .Insert 1 1, .Insert 2 2],
    by decide⟩

/-- Over a buffer pool whose first 32 pages are taken, the table's first bucket is page `34`.
    The second `Insert` finds it full, and `GetLocalDepthMask` then shifts `1` by `34`. -/
theorem Insert_local_depth_mask_shift_undefined :
    (let r := new natCmp id 0 1 1 { PageStore.empty with next_page_id_ := 32 }
     let s := r.1.run r.2 [.Insert 0 0]
     let header := s.headers r.1.header_page_id_
     let dp := header.GetDirectoryPageId (header.HashToDirectoryIndex (r.1.Hash 1))
     let d := s.directories dp
     let i := d.HashToBucketIndex (r.1.Hash 1)
     dp ≠ INVALID_PAGE_ID ∧ (s.buckets (d.GetBucketPageId i)).IsFull ∧
       d.bucket_page_ids_ i = 34 ∧ ¬ShiftDefined (u32 (d.bucket_page_ids_ i))) := by
  decide

end DiskExtendibleHashTable

end bustub
