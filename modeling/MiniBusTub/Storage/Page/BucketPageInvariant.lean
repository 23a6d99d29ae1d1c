import MiniBusTub.Storage.Page.BucketPage

namespace bustub

section Swap

variable {α : Type} [Inhabited α]

/-- `std::swap` of a slot with the last live slot, on the live slots split around both. -/
theorem swapAt_append_last (a b : List α) (x y : α) :
    swapAt (a ++ x :: (b ++ [y])) a.length (a.length + b.length + 1) = a ++ y :: (b ++ [x]) := by
  have hl : a ++ x :: (b ++ [y]) = (a ++ x :: b) ++ [y] := by simp
  have hy : (a ++ x :: (b ++ [y])).getD (a.length + b.length + 1) default = y := by
    rw [hl, List.getD_eq_getElem?_getD, List.getElem?_append_right (by simp; omega)]
    simp [show a.length + b.length + 1 - (a.length + (b.length + 1)) = 0 by omega]
  have hx : (a ++ x :: (b ++ [y])).getD a.length default = x := by
    rw [List.getD_eq_getElem?_getD, List.getElem?_append_right (le_refl _)]
    simp
  rw [swapAt, hx, hy, List.set_append_right _ _ (le_refl _), List.set_append_right _ _ (by omega)]
  simp [show a.length + b.length + 1 - a.length = b.length + 1 by omega, List.set_append_right]

theorem swapAt_self_last (a : List α) (x : α) : swapAt (a ++ [x]) a.length a.length = a ++ [x] := by
  simp [swapAt, List.getD_eq_getElem?_getD, List.set_append_right, List.getElem?_append_right]

omit [Inhabited α] in
/-- The first slot `findIdx?` finds splits the slots into those before it, none matching, the
    slot itself, and the rest. -/
theorem findIdx?_split {p : α → Bool} {l : List α} {i : Nat} (h : l.findIdx? p = some i) :
    ∃ a x rest, l = a ++ x :: rest ∧ a.length = i ∧ p x ∧ ∀ y ∈ a, p y = false := by
  obtain ⟨hlt, hmatch, hbefore⟩ := List.findIdx?_eq_some_iff_getElem.1 h
  refine ⟨l.take i, l[i], l.drop (i + 1), by rw [List.getElem_cons_drop, List.take_append_drop],
    by simp; omega, hmatch, fun y hy => ?_⟩
  obtain ⟨j, hj, rfl⟩ := List.getElem_of_mem hy
  have hji : j < i := by simp at hj; omega
  simpa [List.getElem_take] using hbefore j hji

omit [Inhabited α] in
/-- The live slots split at slot `i`. -/
theorem exists_split_at {l : List α} {i : Nat} (hi : i < l.length) :
    ∃ a x rest, l = a ++ x :: rest ∧ a.length = i :=
  ⟨l.take i, l[i], l.drop (i + 1), by rw [List.getElem_cons_drop, List.take_append_drop],
    by simp; omega⟩

/-- What the swap with the last slot does to the slot after `a`: with nothing after it, nothing;
    otherwise the last slot `y` takes its place and it takes the last. -/
theorem swapAt_last_cases (a rest : List α) (x : α) :
    (rest = [] ∧ swapAt (a ++ x :: rest) a.length ((a ++ x :: rest).length - 1) = a ++ [x]) ∨
    ∃ b y, rest = b ++ [y] ∧
      swapAt (a ++ x :: rest) a.length ((a ++ x :: rest).length - 1) = a ++ y :: (b ++ [x]) := by
  rcases List.eq_nil_or_concat rest with rfl | ⟨b, y, rfl⟩
  · exact .inl ⟨rfl, by simpa using swapAt_self_last a x⟩
  · rw [List.concat_eq_append]
    refine .inr ⟨b, y, rfl, ?_⟩
    rw [show (a ++ x :: (b ++ [y])).length - 1 = a.length + b.length + 1 by simp; omega]
    exact swapAt_append_last a b x y

/-- Swapping a live slot with the last one permutes the slots. -/
theorem swapAt_last_perm {l : List α} {i : Nat} (hi : i < l.length) :
    List.Perm (swapAt l i (l.length - 1)) l := by
  obtain ⟨a, x, rest, rfl, rfl⟩ := exists_split_at hi
  rcases swapAt_last_cases a rest x with ⟨rfl, h⟩ | ⟨b, y, rfl, h⟩
  · rw [h]
  · rw [h]
    refine List.Perm.append_left a ?_
    exact ((List.perm_append_singleton x (y :: b)).trans (List.Perm.cons x
      (List.perm_append_singleton y b).symm))

/-- The swap with the last slot, the last slot then dropped: the slot after `a` is gone and
    the others stay. -/
theorem swapAt_dropLast_perm (a rest : List α) (x : α) :
    List.Perm (swapAt (a ++ x :: rest) a.length ((a ++ x :: rest).length - 1)).dropLast
      (a ++ rest) := by
  rcases swapAt_last_cases a rest x with ⟨rfl, h⟩ | ⟨b, y, rfl, h⟩
  · rw [h, List.dropLast_concat, List.append_nil]
  · rw [h, show a ++ y :: (b ++ [x]) = (a ++ y :: b) ++ [x] by simp, List.dropLast_concat]
    exact List.Perm.append_left a (List.perm_append_singleton y b).symm

end Swap

namespace ExtendibleHTableBucketPage

variable {K V : Type} {cmp : K → K → Int} {b : ExtendibleHTableBucketPage K V}

/-- The bounded map a bucket page stands for: its live entries, no two of whose keys `cmp`
    calls equivalent, and at most `max_size_` of them. -/
structure Invariant (b : ExtendibleHTableBucketPage K V) (cmp : K → K → Int) : Prop where
  size_le : b.Size ≤ b.max_size_
  distinct : b.array_.Pairwise fun e e' => cmp e.1 e'.1 ≠ 0

section Equivalence

variable (hcmp : Equivalence fun a b => cmp a b = 0)
include hcmp

/-- Two live entries with equivalent keys are one entry. -/
theorem eq_of_distinct {l : List (K × V)} (hl : l.Pairwise fun e e' => cmp e.1 e'.1 ≠ 0)
    {e e' : K × V} (he : e ∈ l) (he' : e' ∈ l) (hk : cmp e.1 e'.1 = 0) : e = e' := by
  induction hl with
  | nil => cases he
  | @cons x t hx _ ih =>
    rcases List.mem_cons.1 he with rfl | het
    · rcases List.mem_cons.1 he' with rfl | het'
      · rfl
      · exact absurd hk (hx _ het')
    · rcases List.mem_cons.1 he' with rfl | het'
      · exact absurd (hcmp.symm hk) (hx _ het)
      · exact ih het het'

/-- The entries matching a key: none equivalent to it are left once one is set aside. -/
theorem not_match_of_distinct {a rest : List (K × V)} {x : K × V}
    (hl : (a ++ x :: rest).Pairwise fun e e' => cmp e.1 e'.1 ≠ 0) {key : K} (hx : cmp key x.1 = 0)
    {y : K × V} (hy : y ∈ rest) : cmp key y.1 ≠ 0 := fun hky =>
  (List.pairwise_cons.1 (List.pairwise_append.1 hl).2.1).1 y hy
    (hcmp.trans (hcmp.symm hx) hky)

/-- `Lookup` finds a value exactly when a live entry with an equivalent key holds it. -/
theorem Invariant.Lookup_eq_some_iff (h : b.Invariant cmp)
    {key : K} {value : V} :
    b.Lookup key cmp = some value ↔ ∃ k, (k, value) ∈ b.array_ ∧ cmp key k = 0 := by
  constructor
  · intro hl
    obtain ⟨e, he, rfl⟩ := Option.map_eq_some'.1 hl
    exact ⟨e.1, List.mem_of_find?_eq_some he, by simpa using List.find?_some he⟩
  · rintro ⟨k, hk, hkey⟩
    obtain ⟨e, he⟩ := Option.isSome_iff_exists.1
      (List.find?_isSome (p := fun e : K × V => decide (cmp key e.1 = 0)) |>.2
        ⟨(k, value), hk, by simpa using hkey⟩)
    have hekey : cmp key e.1 = 0 := by simpa using List.find?_some he
    obtain rfl : e = (k, value) := eq_of_distinct hcmp h.distinct (List.mem_of_find?_eq_some he) hk
      (hcmp.trans (hcmp.symm hekey) hkey)
    simp [Lookup, he]

/-- `Remove` answers whether a live key is equivalent to `key`, and leaves exactly the other
    entries. -/
theorem Invariant.Remove_perm [Inhabited K] [Inhabited V] (h : b.Invariant cmp) (key : K) :
    (b.Remove key cmp).1 = b.array_.any (fun e => cmp key e.1 = 0) ∧
      List.Perm (b.Remove key cmp).2.array_ (b.array_.filter fun e => cmp key e.1 ≠ 0) := by
  unfold Remove
  split
  · rename_i tmp hfind
    obtain ⟨a, x, rest, hsplit, rfl, hmatch, hbefore⟩ := findIdx?_split hfind
    have hx : cmp key x.1 = 0 := by simpa using hmatch
    have ha : ∀ y ∈ a, cmp key y.1 ≠ 0 := fun y hy => by simpa using hbefore y hy
    have hrest := fun y hy => not_match_of_distinct hcmp (hsplit ▸ h.distinct) hx (y := y) hy
    refine ⟨by simp [hsplit, hx], ?_⟩
    rw [hsplit, List.filter_append, List.filter_cons, List.filter_eq_self.2 (by simpa using ha),
      List.filter_eq_self.2 (by simpa using hrest)]
    simpa [hx, Size, hsplit] using swapAt_dropLast_perm a rest x
  · rename_i hfind
    have hnone := List.findIdx?_eq_none_iff.1 hfind
    refine ⟨by simpa [List.any_eq_false] using hnone, ?_⟩
    rw [List.filter_eq_self.2 (by simpa using hnone)]

/-- `Remove` keeps the invariant. -/
theorem Invariant.Remove [Inhabited K] [Inhabited V] (h : b.Invariant cmp) (key : K) :
    (b.Remove key cmp).2.Invariant cmp := by
  have hperm := (h.Remove_perm hcmp key).2
  have hsub := List.filter_sublist (p := fun e : K × V => decide (cmp key e.1 ≠ 0)) b.array_
  refine ⟨?_, hperm.symm.pairwise (h.distinct.sublist hsub) fun hne => ?_⟩
  · rw [Remove_max_size, Size, hperm.length_eq]
    exact hsub.length_le.trans h.size_le
  · exact fun heq => hne (hcmp.symm heq)

/-- `RemoveAt` of a live slot only permutes the entries, so it keeps the invariant. -/
theorem Invariant.RemoveAt [Inhabited K] [Inhabited V] (h : b.Invariant cmp) {bucket_idx : Nat}
    (hi : bucket_idx < b.Size) : (b.RemoveAt bucket_idx).Invariant cmp := by
  have hperm := swapAt_last_perm hi
  exact ⟨by simpa [ExtendibleHTableBucketPage.RemoveAt, Size, hperm.length_eq] using h.size_le,
    hperm.symm.pairwise h.distinct fun hne heq => hne (hcmp.symm heq)⟩

/-- `RemoveAt` of a live slot removes nothing: the page keeps its size, the same entries, and
    every answer of `Lookup`. -/
theorem Invariant.RemoveAt_removes_nothing [Inhabited K] [Inhabited V] (h : b.Invariant cmp)
    {bucket_idx : Nat} (hi : bucket_idx < b.Size) :
    (b.RemoveAt bucket_idx).Size = b.Size ∧ List.Perm (b.RemoveAt bucket_idx).array_ b.array_ ∧
      ∀ key, (b.RemoveAt bucket_idx).Lookup key cmp = b.Lookup key cmp := by
  have hperm : List.Perm (b.RemoveAt bucket_idx).array_ b.array_ := swapAt_last_perm hi
  refine ⟨hperm.length_eq, hperm, fun key => Option.ext fun value => ?_⟩
  rw [Option.mem_def, Option.mem_def, (h.RemoveAt hcmp hi).Lookup_eq_some_iff hcmp,
    h.Lookup_eq_some_iff hcmp]
  simp only [hperm.mem_iff]

/-- `Remove` reports whether `Lookup` finds the key. -/
theorem Invariant.Remove_fst [Inhabited K] [Inhabited V] (h : b.Invariant cmp) (key : K) :
    (b.Remove key cmp).1 = (b.Lookup key cmp).isSome := by
  rw [(h.Remove_perm hcmp key).1, Lookup, Option.isSome_map']
  exact Bool.eq_iff_iff.2 (List.any_eq_true.trans List.find?_isSome.symm)

/-- After `Remove`, `Lookup` finds nothing for the removed key. -/
theorem Invariant.Lookup_Remove_self [Inhabited K] [Inhabited V] (h : b.Invariant cmp)
    (key : K) : (b.Remove key cmp).2.Lookup key cmp = none :=
  Option.eq_none_iff_forall_not_mem.2 fun value hv => by
    obtain ⟨k, hk, hkey⟩ := ((h.Remove hcmp key).Lookup_eq_some_iff hcmp).1 hv
    have hne := List.of_mem_filter ((h.Remove_perm hcmp key).2.mem_iff.1 hk)
    exact of_decide_eq_true hne hkey

/-- `Remove` keeps the lookup of every key not equivalent to the removed one. -/
theorem Invariant.Lookup_Remove_ne [Inhabited K] [Inhabited V] (h : b.Invariant cmp)
    {key k : K} (hk : cmp k key ≠ 0) : (b.Remove key cmp).2.Lookup k cmp = b.Lookup k cmp := by
  refine Option.ext fun value => ?_
  rw [Option.mem_def, Option.mem_def, (h.Remove hcmp key).Lookup_eq_some_iff hcmp,
    h.Lookup_eq_some_iff hcmp]
  simp only [(h.Remove_perm hcmp key).2.mem_iff, List.mem_filter, decide_eq_true_eq]
  exact exists_congr fun k' => ⟨fun ⟨⟨hm, _⟩, hkk'⟩ => ⟨hm, hkk'⟩,
    fun ⟨hm, hkk'⟩ => ⟨⟨hm, fun hkey => hk (hcmp.trans hkk' (hcmp.symm hkey))⟩, hkk'⟩⟩

end Equivalence

theorem Invariant.Init (b : ExtendibleHTableBucketPage K V) (m : Nat) :
    (b.Init m).Invariant cmp :=
  ⟨Nat.zero_le _, List.Pairwise.nil⟩

/-- Under the invariant `Insert` is the bounded map's insert: it adds the pair exactly when
    there is room and no live key is equivalent to `key`, and otherwise changes nothing. -/
theorem Invariant.Insert_eq (h : b.Invariant cmp) (key : K) (value : V) :
    b.Insert key value cmp =
      if b.Size < b.max_size_ ∧ ∀ e ∈ b.array_, cmp key e.1 ≠ 0 then
        (true, { b with array_ := b.array_ ++ [(key, value)] })
      else (false, b) := by
  have hany : (b.array_.any fun e => decide (cmp key e.1 = 0)) = true ↔
      ¬∀ e ∈ b.array_, cmp key e.1 ≠ 0 := by
    simp [List.any_eq_true]
  unfold Insert IsFull
  by_cases hroom : b.Size < b.max_size_
  · rw [if_neg (by simpa using Nat.ne_of_lt hroom)]
    by_cases hnew : ∀ e ∈ b.array_, cmp key e.1 ≠ 0
    · rw [if_neg (mt hany.1 (not_not.2 hnew)), if_pos ⟨hroom, hnew⟩]
    · rw [if_pos (hany.2 hnew), if_neg fun hok => hnew hok.2]
  · rw [if_pos (by simpa using Nat.le_antisymm h.size_le (Nat.not_lt.1 hroom)),
      if_neg fun hok => hroom hok.1]

/-- `Insert` keeps the invariant. -/
theorem Invariant.Insert (hcmp : Equivalence fun a b => cmp a b = 0) (h : b.Invariant cmp)
    (key : K) (value : V) : (b.Insert key value cmp).2.Invariant cmp := by
  rw [h.Insert_eq key value]
  split_ifs with hok
  · refine ⟨by simp only [Size, List.length_append, List.length_singleton]; exact hok.1,
      List.pairwise_append.2 ⟨h.distinct, List.pairwise_singleton _ _, fun e he e' he' => ?_⟩⟩
    rw [List.mem_singleton.1 he']
    exact fun heq => hok.2 e he (hcmp.symm heq)
  · exact h

/-- On a page with room, after `Insert` the key finds the value it already had, or else the
    inserted one. -/
theorem Invariant.Lookup_Insert_self (hcmp : Equivalence fun a b => cmp a b = 0)
    (h : b.Invariant cmp) (hroom : b.Size < b.max_size_) (key : K) (value : V) :
    (b.Insert key value cmp).2.Lookup key cmp = some ((b.Lookup key cmp).getD value) := by
  rw [h.Insert_eq]
  split_ifs with hnew
  · have hnone : b.array_.find? (fun e => cmp key e.1 = 0) = none :=
      List.find?_eq_none.2 fun e he => by simpa using hnew.2 e he
    simp [Lookup, List.find?_append, hnone, hcmp.refl key]
  · obtain ⟨e, he, hkey⟩ : ∃ e ∈ b.array_, cmp key e.1 = 0 := by
      simpa [hroom] using hnew
    rw [(h.Lookup_eq_some_iff hcmp).2 ⟨e.1, he, hkey⟩]
    rfl

/-- `Insert` keeps the lookup of every key not equivalent to the inserted one. -/
theorem Invariant.Lookup_Insert_ne (h : b.Invariant cmp) {key k : K} (hk : cmp k key ≠ 0)
    (value : V) : (b.Insert key value cmp).2.Lookup k cmp = b.Lookup k cmp := by
  rw [h.Insert_eq]
  split_ifs
  · simp [Lookup, List.find?_append, hk]
  · rfl

/-- One call on a bucket page. -/
inductive Call (K V : Type)
  | Insert (key : K) (value : V)
  | Remove (key : K)
  | Lookup (key : K)
  | RemoveAt (bucket_idx : Nat)

/-- `RemoveAt` is called on a live slot. -/
def Call.Allowed (b : ExtendibleHTableBucketPage K V) : Call K V → Prop
  | .RemoveAt bucket_idx => bucket_idx < b.Size
  | _ => True

/-- The page after a call; `Lookup` changes nothing. -/
def step [Inhabited K] [Inhabited V] (b : ExtendibleHTableBucketPage K V) (cmp : K → K → Int) :
    Call K V → ExtendibleHTableBucketPage K V
  | .Insert key value => (b.Insert key value cmp).2
  | .Remove key => (b.Remove key cmp).2
  | .Lookup _ => b
  | .RemoveAt bucket_idx => b.RemoveAt bucket_idx

/-- The pages reached from `Init m` by calls with the comparator `cmp`. -/
inductive Reachable [Inhabited K] [Inhabited V] (cmp : K → K → Int) (m : Nat) :
    ExtendibleHTableBucketPage K V → Prop
  | init (b : ExtendibleHTableBucketPage K V) : Reachable cmp m (b.Init m)
  | step {b : ExtendibleHTableBucketPage K V} (c : Call K V) :
      Reachable cmp m b → c.Allowed b → Reachable cmp m (b.step cmp c)

/-- Every page reached from `Init m` keeps the capacity `m` and the invariant: its keys are
    pairwise inequivalent and there are at most `m` of them. -/
theorem Reachable.invariant [Inhabited K] [Inhabited V] (hcmp : Equivalence fun a b => cmp a b = 0)
    {m : Nat} (hr : Reachable cmp m b) : b.max_size_ = m ∧ b.Invariant cmp := by
  induction hr with
  | init b => exact ⟨rfl, Invariant.Init b m⟩
  | step c _ hc ih =>
    obtain ⟨hm, h⟩ := ih
    cases c with
    | Insert key value => exact ⟨by simp [ExtendibleHTableBucketPage.step, hm], h.Insert hcmp key value⟩
    | Remove key => exact ⟨by simp [ExtendibleHTableBucketPage.step, hm], h.Remove hcmp key⟩
    | Lookup key => exact ⟨hm, h⟩
    | RemoveAt bucket_idx => exact ⟨hm, h.RemoveAt hcmp hc⟩

/-- Modelled from the spec: `IntComparator`, the comparator object of the page's `int`
    instantiation (its header is not under src/), `0` exactly on equal keys. -/
def IntComparator (lhs rhs : Int) : Int := if lhs < rhs then -1 else if rhs < lhs then 1 else 0

theorem IntComparator_equivalence : Equivalence fun a b => IntComparator a b = 0 := by
  refine ⟨fun a => by simp [IntComparator], fun {a b} h => ?_, fun {a b c} h₁ h₂ => ?_⟩ <;>
    simp only [IntComparator] at * <;> split_ifs at * <;> omega

theorem IntComparator_eq_zero {a b : Int} : IntComparator a b = 0 ↔ a = b := by
  unfold IntComparator
  split_ifs <;> simp <;> omega

/-- `Init(2)`, `Insert(1, 10)`, `Insert(2, 20)`, then `RemoveAt(0)`: the page still holds two
    entries and still finds key `1`. -/
theorem RemoveAt_first_of_two :
    let b := ((((zero : ExtendibleHTableBucketPage Int Int).Init 2).Insert 1 10
      IntComparator).2.Insert 2 20 IntComparator).2
    b.Size = 2 ∧ b.Lookup 1 IntComparator = some 10 ∧
      ((b.RemoveAt 0).Size = b.Size ∧ List.Perm (b.RemoveAt 0).array_ b.array_ ∧
        ∀ key, (b.RemoveAt 0).Lookup key IntComparator = b.Lookup key IntComparator) :=
  ⟨by decide, by decide, Invariant.RemoveAt_removes_nothing IntComparator_equivalence
    ⟨by decide, by decide⟩ (by decide)⟩

end ExtendibleHTableBucketPage

end bustub
