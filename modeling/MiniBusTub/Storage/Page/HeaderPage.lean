import MiniBusTub.Common.Config

namespace bustub

/-- `ExtendibleHTableHeaderPage`: the directory page ids of one hash table, indexed by the
    top `max_depth_` bits of a hash. -/
structure ExtendibleHTableHeaderPage where
  directory_page_ids_ : Nat → Int
  max_depth_ : Nat

namespace ExtendibleHTableHeaderPage

/-- The page as `NewPage` hands it out: all bytes zero. -/
def zero : ExtendibleHTableHeaderPage := ⟨fun _ => 0, 0⟩

/-- `Init`: records the depth and fills the first `1 << max_depth` slots with
    `INVALID_PAGE_ID`. -/
def Init (self : ExtendibleHTableHeaderPage) (max_depth : Nat) : ExtendibleHTableHeaderPage :=
  { self with
    max_depth_ := max_depth
    directory_page_ids_ := fun i =>
      if i < shl32 1 max_depth then INVALID_PAGE_ID else self.directory_page_ids_ i }

/-- `HashToDirectoryIndex`: the top `max_depth_` bits of the hash. -/
def HashToDirectoryIndex (self : ExtendibleHTableHeaderPage) (hash : Nat) : Nat :=
  if self.max_depth_ > 0 then shr32 hash (32 - self.max_depth_) else 0

def GetDirectoryPageId (self : ExtendibleHTableHeaderPage) (directory_idx : Nat) : Int :=
  self.directory_page_ids_ directory_idx

def SetDirectoryPageId (self : ExtendibleHTableHeaderPage) (directory_idx : Nat)
    (directory_page_id : Int) : ExtendibleHTableHeaderPage :=
  { self with
    directory_page_ids_ := updateAt self.directory_page_ids_ directory_idx directory_page_id }

@[simp] theorem Init_max_depth (self : ExtendibleHTableHeaderPage) (max_depth : Nat) :
    (self.Init max_depth).max_depth_ = max_depth := rfl

@[simp] theorem SetDirectoryPageId_max_depth (self : ExtendibleHTableHeaderPage) (i : Nat)
    (p : Int) : (self.SetDirectoryPageId i p).max_depth_ = self.max_depth_ := rfl

@[simp] theorem GetDirectoryPageId_SetDirectoryPageId (self : ExtendibleHTableHeaderPage)
    (i j : Nat) (p : Int) :
    (self.SetDirectoryPageId i p).GetDirectoryPageId j =
      if j = i then p else self.GetDirectoryPageId j := rfl

@[simp] theorem HashToDirectoryIndex_SetDirectoryPageId (self : ExtendibleHTableHeaderPage)
    (i : Nat) (p : Int) (hash : Nat) :
    (self.SetDirectoryPageId i p).HashToDirectoryIndex hash = self.HashToDirectoryIndex hash := rfl

/-- Every hash is routed to one of the `2 ^ max_depth_` slots `Init` fills. -/
theorem HashToDirectoryIndex_lt (self : ExtendibleHTableHeaderPage) {hash : Nat}
    (hhash : hash < 2 ^ 32) (hdepth : self.max_depth_ ≤ 32) :
    self.HashToDirectoryIndex hash < 2 ^ self.max_depth_ := by
  unfold HashToDirectoryIndex
  split_ifs with hpos
  · have hshift : (32 - self.max_depth_) % 32 = 32 - self.max_depth_ := Nat.mod_eq_of_lt (by omega)
    rw [shr32, hshift, Nat.shiftRight_eq_div_pow, Nat.div_lt_iff_lt_mul (Nat.two_pow_pos _),
      ← Nat.pow_add, Nat.add_sub_cancel' hdepth]
    exact hhash
  · exact Nat.two_pow_pos _

end ExtendibleHTableHeaderPage

end bustub
