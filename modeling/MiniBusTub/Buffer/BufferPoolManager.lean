import MiniBusTub.Buffer.LRUKReplacer
import MiniBusTub.Storage.Disk.DiskManager

namespace bustub

/-- `Page`, one frame of the pool: its bytes and the metadata of the page it holds. The
    reader/writer latch is modelled with the page guards. -/
structure Page where
  data_ : PageData
  page_id_ : Int
  pin_count_ : Int
  is_dirty_ : Bool

namespace Page

/-- A frame as `new Page[pool_size_]` leaves it: zeroed, holding no page, unpinned, clean. -/
def new : Page := ⟨fun _ => 0, INVALID_PAGE_ID, 0, false⟩

/-- `ResetMemory`: zeroes the bytes and keeps the metadata. -/
def ResetMemory (self : Page) : Page := { self with data_ := fun _ => 0 }

def GetPageId (self : Page) : Int := self.page_id_

def GetPinCount (self : Page) : Int := self.pin_count_

def IsDirty (self : Page) : Bool := self.is_dirty_

@[simp] theorem ResetMemory_page_id (p : Page) : p.ResetMemory.page_id_ = p.page_id_ := rfl

@[simp] theorem ResetMemory_pin_count (p : Page) : p.ResetMemory.pin_count_ = p.pin_count_ := rfl

end Page

/-- `BufferPoolManager`. Each request it hands the disk scheduler is waited for on the spot
    (`future.get()`), so the model calls the `DiskManager` directly. -/
structure BufferPoolManager where
  pool_size_ : Nat
  pages_ : Int → Page
  disk_manager_ : DiskManager
  replacer_ : LRUKReplacer
  page_table_ : UnorderedMap Int Int
  free_list_ : List Int
  next_page_id_ : Int

namespace BufferPoolManager

/-- The constructor: every frame on the free list, in order, as `static_cast<int>(i)`. That is
    `i` itself for a pool of at most `2 ^ 31` frames; for a larger pool the code's ids from
    `2 ^ 31` on wrap to negative values, which `RecordAccess` refuses, where the model keeps
    counting: results about the free list are stated for pools of at most `2 ^ 31` frames. -/
def new (pool_size : Nat) (disk_manager : DiskManager) (replacer_k : Nat) : BufferPoolManager :=
  ⟨pool_size, fun _ => Page.new, disk_manager, LRUKReplacer.new pool_size replacer_k, ∅,
    (List.range pool_size).map Int.ofNat, 0⟩

/-- `AllocatePage`: `next_page_id_++` on the 32-bit counter. -/
def AllocatePage (self : BufferPoolManager) : Int × BufferPoolManager :=
  (self.next_page_id_, { self with next_page_id_ := toInt32 (self.next_page_id_ + 1) })

/-- `FlushPage`: writes a resident page back and marks it clean. -/
def FlushPage (self : BufferPoolManager) (page_id : Int) :
    Except String (Bool × BufferPoolManager) :=
  if page_id = INVALID_PAGE_ID then .error "Flush Page is not allow INVALID_PAGE_ID page"
  else
    match self.page_table_.find? page_id with
    | none => .ok (false, self)
    | some frame_id =>
      let page := { self.pages_ frame_id with is_dirty_ := false }
      .ok (true, { self with
        pages_ := updateAt self.pages_ frame_id page
        disk_manager_ := self.disk_manager_.WritePage page_id page.data_ })

/-- The frame `NewPage` and `FetchPage` take, by the same code in both: the front of the free
    list, else the replacer's victim, written back if dirty and dropped from the page table.
    `early_timestamp` is what `Evict`'s uninitialised variable holds. -/
def AcquireFrame (self : BufferPoolManager) (early_timestamp : Nat) :
    Except String (Option Int × BufferPoolManager) :=
  match self.free_list_ with
  | frame_id :: free_list_ => .ok (some frame_id, { self with free_list_ })
  | [] =>
    match self.replacer_.Evict early_timestamp with
    | (none, replacer_) => .ok (none, { self with replacer_ })
    | (some frame_id, replacer_) => do
      let old_page := self.pages_ frame_id
      let self ←
        if old_page.IsDirty then (·.2) <$> { self with replacer_ }.FlushPage old_page.GetPageId
        else pure { self with replacer_ }
      pure (some frame_id, { self with page_table_ := self.page_table_.erase old_page.GetPageId })

/-- The replacer's part of taking a frame for a page: an access, and pinned. -/
def Touch (replacer_ : LRUKReplacer) (frame_id : Int) : Except String LRUKReplacer := do
  let replacer_ ← replacer_.RecordAccess frame_id
  replacer_.SetEvictable frame_id false

/-- `NewPage`, returning `*page_id` and the frame of the `Page *`, or `none` for `nullptr`. -/
def NewPage (self : BufferPoolManager) (early_timestamp : Nat) :
    Except String (Option (Int × Int) × BufferPoolManager) := do
  let (frame?, self) ← self.AcquireFrame early_timestamp
  match frame? with
  | none => pure (none, self)
  | some frame_id =>
    let (new_page_id, self) := self.AllocatePage
    let replacer_ ← Touch self.replacer_ frame_id
    let page := { (self.pages_ frame_id).ResetMemory with
      pin_count_ := 1, page_id_ := new_page_id, is_dirty_ := false }
    pure (some (new_page_id, frame_id), { self with
      replacer_
      page_table_ := self.page_table_.insert new_page_id frame_id
      pages_ := updateAt self.pages_ frame_id page })

/-- `FetchPage`, returning the frame of the `Page *`, or `none` for `nullptr`. A resident page
    is pinned once more and marked dirty; any other is read into the frame taken for it. -/
def FetchPage (self : BufferPoolManager) (page_id : Int) (early_timestamp : Nat) :
    Except String (Option Int × BufferPoolManager) :=
  match self.page_table_.find? page_id with
  | some frame_id => do
    let page := self.pages_ frame_id
    let replacer_ ← Touch self.replacer_ frame_id
    pure (some frame_id, { self with
      replacer_
      pages_ := updateAt self.pages_ frame_id
        { page with pin_count_ := page.pin_count_ + 1, is_dirty_ := true } })
  | none => do
    let (frame?, self) ← self.AcquireFrame early_timestamp
    match frame? with
    | none => pure (none, self)
    | some frame_id =>
      let replacer_ ← Touch self.replacer_ frame_id
      let (data_, disk_manager_) :=
        self.disk_manager_.ReadPage page_id (self.pages_ frame_id).data_
      pure (some frame_id, { self with
        replacer_
        disk_manager_
        page_table_ := self.page_table_.insert page_id frame_id
        pages_ := updateAt self.pages_ frame_id { self.pages_ frame_id with
          data_, page_id_ := page_id, pin_count_ := 1, is_dirty_ := false } })

/-- `UnpinPage`. The dirty bit is set to `is_dirty`, whatever it held. -/
def UnpinPage (self : BufferPoolManager) (page_id : Int) (is_dirty : Bool) :
    Except String (Bool × BufferPoolManager) :=
  match self.page_table_.find? page_id with
  | none => .ok (false, self)
  | some frame_id =>
    let page := self.pages_ frame_id
    if page.GetPinCount ≤ 0 then .ok (false, self)
    else do
      let replacer_ ← self.replacer_.SetEvictable frame_id (page.pin_count_ - 1 == 0)
      pure (true, { self with
        replacer_
        pages_ := updateAt self.pages_ frame_id
          { page with pin_count_ := page.pin_count_ - 1, is_dirty_ := is_dirty } })

/-- `FlushAllPages`: `FlushPage` on every key of the page table, in iteration order. -/
def FlushAllPages (self : BufferPoolManager) : Except String BufferPoolManager :=
  self.page_table_.entries.foldlM (fun bpm e => (·.2) <$> bpm.FlushPage e.1) self

/-- `DeletePage`: an unpinned resident page is written back if dirty, its frame zeroed,
    untracked and put back on the free list. -/
def DeletePage (self : BufferPoolManager) (page_id : Int) :
    Except String (Bool × BufferPoolManager) :=
  match self.page_table_.find? page_id with
  | none => .ok (true, self)
  | some frame_id =>
    if (self.pages_ frame_id).GetPinCount > 0 then .ok (false, self)
    else do
      let self ←
        if (self.pages_ frame_id).is_dirty_ then (·.2) <$> self.FlushPage page_id else pure self
      let page := (self.pages_ frame_id).ResetMemory
      let replacer_ ← self.replacer_.Remove frame_id
      pure (true, { self with
        pages_ := updateAt self.pages_ frame_id page
        page_table_ := self.page_table_.erase page.GetPageId
        replacer_
        free_list_ := self.free_list_ ++ [frame_id] })

/-- A call on the pool, or a client writing a page's bytes through the `Page *` it holds. -/
inductive Call
  | NewPage (early_timestamp : Nat)
  | FetchPage (page_id : Int) (early_timestamp : Nat)
  | UnpinPage (page_id : Int) (is_dirty : Bool)
  | FlushPage (page_id : Int)
  | FlushAllPages
  | DeletePage (page_id : Int)
  | Write (frame_id : Int) (data : PageData)

/-- What a call returns: a frame (`Page *`), a `bool`, or nothing. -/
inductive Reply
  | frame (frame_id : Option Int)
  | bool (b : Bool)
  | done
  deriving DecidableEq

def step (self : BufferPoolManager) : Call → Except String (Reply × BufferPoolManager)
  | .NewPage early_timestamp => (fun r => (.frame (r.1.map (·.2)), r.2)) <$> self.NewPage early_timestamp
  | .FetchPage page_id early_timestamp =>
    (fun r => (.frame r.1, r.2)) <$> self.FetchPage page_id early_timestamp
  | .UnpinPage page_id is_dirty => (fun r => (.bool r.1, r.2)) <$> self.UnpinPage page_id is_dirty
  | .FlushPage page_id => (fun r => (.bool r.1, r.2)) <$> self.FlushPage page_id
  | .FlushAllPages => (fun bpm => (.done, bpm)) <$> self.FlushAllPages
  | .DeletePage page_id => (fun r => (.bool r.1, r.2)) <$> self.DeletePage page_id
  | .Write frame_id data =>
    .ok (.done, { self with
      pages_ := updateAt self.pages_ frame_id { self.pages_ frame_id with data_ := data } })

/-- A sequence of calls, stopped by the first failed assertion. -/
def run (self : BufferPoolManager) : List Call → Except String BufferPoolManager
  | [] => .ok self
  | c :: cs => match self.step c with
    | .ok (_, self) => self.run cs
    | .error e => .error e

end BufferPoolManager

end bustub
