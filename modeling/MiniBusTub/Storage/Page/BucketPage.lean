import MiniBusTub.Common.Config
import Mathlib.Data.List.Basic

namespace bustub

/-- `std::swap(l[i], l[j])` on the slots of an array. -/
def swapAt {α : Type} [Inhabited α] (l : List α) (i j : Nat) : List α :=
  (l.set i (l.getD j default)).set j (l.getD i default)

/-- `ExtendibleHTableBucketPage<K, V, KC>`. `array_` lists the live slots `[0, size_)` in
    order, so `size_` is its length; `max_size_` is the capacity `Init` recorded. The
    comparator `KC` is a function returning `0` on equivalent keys. -/
structure ExtendibleHTableBucketPage (K V : Type) where
  array_ : List (K × V)
  max_size_ : Nat

namespace ExtendibleHTableBucketPage

variable {K V : Type}

/-- The page as `NewPage` hands it out: all bytes zero. -/
def zero : ExtendibleHTableBucketPage K V := ⟨[], 0⟩

def Init (self : ExtendibleHTableBucketPage K V) (max_size : Nat) :
    ExtendibleHTableBucketPage K V :=
  { self with array_ := [], max_size_ := max_size }

def Size (self : ExtendibleHTableBucketPage K V) : Nat := self.array_.length

def IsFull (self : ExtendibleHTableBucketPage K V) : Bool := self.Size = self.max_size_

def IsEmpty (self : ExtendibleHTableBucketPage K V) : Bool := self.Size = 0

def KeyAt [Inhabited K] [Inhabited V] (self : ExtendibleHTableBucketPage K V) (bucket_idx : Nat) :
    K :=
  (self.array_.getD bucket_idx default).1

def ValueAt [Inhabited K] [Inhabited V] (self : ExtendibleHTableBucketPage K V)
    (bucket_idx : Nat) : V :=
  (self.array_.getD bucket_idx default).2

/-- `Lookup`: the value of the first live slot whose key compares equal. -/
def Lookup (self : ExtendibleHTableBucketPage K V) (key : K) (cmp : K → K → Int) : Option V :=
  (self.array_.find? fun e => cmp key e.1 = 0).map Prod.snd

/-- `Insert`: refused when full or when an equivalent key is live; otherwise appended. -/
def Insert (self : ExtendibleHTableBucketPage K V) (key : K) (value : V) (cmp : K → K → Int) :
    Bool × ExtendibleHTableBucketPage K V :=
  if self.IsFull then (false, self)
  else if self.array_.any fun e => cmp key e.1 = 0 then (false, self)
  else (true, { self with array_ := self.array_ ++ [(key, value)] })

/-- `Remove`: the first matching slot is swapped with the last one, which is then dropped. -/
def Remove [Inhabited K] [Inhabited V] (self : ExtendibleHTableBucketPage K V) (key : K)
    (cmp : K → K → Int) : Bool × ExtendibleHTableBucketPage K V :=
  match self.array_.findIdx? fun e => cmp key e.1 = 0 with
  | some tmp => (true, { self with array_ := (swapAt self.array_ tmp (self.Size - 1)).dropLast })
  | none => (false, self)

/-- `RemoveAt` as written: it swaps slot `bucket_idx` with the last live slot and leaves
    `size_` as it was. -/
def RemoveAt [Inhabited K] [Inhabited V] (self : ExtendibleHTableBucketPage K V)
    (bucket_idx : Nat) : ExtendibleHTableBucketPage K V :=
  { self with array_ := swapAt self.array_ bucket_idx (self.Size - 1) }

@[simp] theorem Init_array (b : ExtendibleHTableBucketPage K V) (m : Nat) :
    (b.Init m).array_ = [] := rfl

@[simp] theorem Init_max_size (b : ExtendibleHTableBucketPage K V) (m : Nat) :
    (b.Init m).max_size_ = m := rfl

@[simp] theorem Insert_max_size (b : ExtendibleHTableBucketPage K V) (k : K) (v : V)
    (cmp : K → K → Int) : (b.Insert k v cmp).2.max_size_ = b.max_size_ := by
  unfold Insert; split_ifs <;> rfl

@[simp] theorem Remove_max_size [Inhabited K] [Inhabited V] (b : ExtendibleHTableBucketPage K V)
    (k : K) (cmp : K → K → Int) : (b.Remove k cmp).2.max_size_ = b.max_size_ := by
  unfold Remove; split <;> rfl

/-- `Insert` of a key that `Lookup` finds refuses the pair and leaves the page as it was. -/
theorem Insert_of_Lookup {b : ExtendibleHTableBucketPage K V} {key : K} {value v : V}
    {cmp : K → K → Int} (h : b.Lookup key cmp = some v) : b.Insert key value cmp = (false, b) := by
  obtain ⟨e, he, -⟩ := Option.map_eq_some'.1 h
  have hany : (b.array_.any fun e => cmp key e.1 = 0) = true :=
    List.any_eq_true.2 ⟨e, List.mem_of_find?_eq_some he, by simpa using List.find?_some he⟩
  simp only [Insert, hany, if_true, ite_self]

end ExtendibleHTableBucketPage

end bustub
