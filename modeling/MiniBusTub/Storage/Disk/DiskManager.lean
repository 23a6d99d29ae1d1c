import MiniBusTub.Common.Config

namespace bustub

/-- The bytes of one page, in a frame or on disk. -/
abbrev PageData := Fin BUSTUB_PAGE_SIZE → UInt8

/-- `DiskManager` over its database file, through the one `fstream` `db_io_`: the file's
    bytes (zero past its end), its length, and whether the stream's `failbit` is set. -/
structure DiskManager where
  db_io_ : Nat → UInt8
  file_size_ : Nat
  failed_ : Bool

namespace DiskManager

/-- A database file that starts empty. -/
def new : DiskManager := ⟨fun _ => 0, 0, false⟩

/-- `GetFileSize`: the `st_size` of the file, cast to `int`. -/
def GetFileSize (self : DiskManager) : Int := toInt32 self.file_size_

/-- `WritePage`. The offset is computed in `size_t`, so a negative `page_id` becomes a
    negative stream position: `seekp` fails, sets `failbit`, and every later operation on the
    stream does nothing until a `clear`. A write past the end extends the file. -/
def WritePage (self : DiskManager) (page_id : Int) (page_data : PageData) : DiskManager :=
  if self.failed_ || decide (page_id < 0) then { self with failed_ := true }
  else
    let offset := page_id.toNat * BUSTUB_PAGE_SIZE
    { self with
      db_io_ := fun i =>
        if h : offset ≤ i ∧ i < offset + BUSTUB_PAGE_SIZE then page_data ⟨i - offset, by omega⟩
        else self.db_io_ i
      file_size_ := max self.file_size_ (offset + BUSTUB_PAGE_SIZE) }

/-- `ReadPage`, returning the buffer and the stream. The offset is computed in `int`.
    Past the end of the file the buffer is left as it was. Otherwise `read` takes what the
    file holds from the offset (nothing when the stream has failed or the offset is
    negative), the rest of the page is zero-filled, and the stream is cleared. -/
def ReadPage (self : DiskManager) (page_id : Int) (page_data : PageData) :
    PageData × DiskManager :=
  let offset := toInt32 (page_id * BUSTUB_PAGE_SIZE)
  if offset > self.GetFileSize then (page_data, self)
  else if self.failed_ || decide (offset < 0) then (fun _ => 0, { self with failed_ := false })
  else
    (fun i => if offset.toNat + i < self.file_size_ then self.db_io_ (offset.toNat + i) else 0,
      { self with failed_ := false })

/-- The file holds the bytes of the last write of each page in `written`, the stream is good,
    and the file is shorter than `2 ^ 31` bytes, so that `GetFileSize`'s `int` holds its
    length. -/
structure Stores (dm : DiskManager) (written : Int → Option PageData) : Prop where
  good : dm.failed_ = false
  size_lt : dm.file_size_ < 2 ^ 31
  page : ∀ p d, written p = some d → 0 ≤ p ∧
    (p.toNat + 1) * BUSTUB_PAGE_SIZE ≤ dm.file_size_ ∧
    ∀ i : Fin BUSTUB_PAGE_SIZE, dm.db_io_ (p.toNat * BUSTUB_PAGE_SIZE + i) = d i

section Stores

variable {dm : DiskManager} {written : Int → Option PageData}

/-- A write of a page below `524287` keeps the file under `2 ^ 31` bytes and becomes that
    page's last write; the other pages' bytes stay where they are. -/
theorem Stores.WritePage (h : dm.Stores written) {page_id : Int} (page_data : PageData)
    (hlo : 0 ≤ page_id) (hhi : page_id < 524287) :
    (dm.WritePage page_id page_data).Stores (updateAt written page_id (some page_data)) := by
  have hneg : ¬page_id < 0 := by omega
  simp only [DiskManager.WritePage, h.good, hneg, decide_False, Bool.or_false, Bool.false_eq_true,
    if_false]
  refine ⟨rfl, ?_, fun p d hp => ?_⟩
  · have := h.size_lt
    simp only [BUSTUB_PAGE_SIZE] at *
    omega
  · by_cases hpq : p = page_id
    · subst hpq
      simp only [updateAt_apply, if_pos, Option.some.injEq] at hp
      subst hp
      refine ⟨hlo, by simp only [BUSTUB_PAGE_SIZE]; omega, fun i => ?_⟩
      simp only [BUSTUB_PAGE_SIZE] at i ⊢
      rw [dif_pos (by omega)]
      congr 1
      ext
      simp
    · simp only [updateAt_apply, if_neg hpq] at hp
      obtain ⟨hp0, hsize, hbytes⟩ := h.page p d hp
      have hne : p.toNat ≠ page_id.toNat := by omega
      refine ⟨hp0, by simp only [BUSTUB_PAGE_SIZE] at *; omega, fun i => ?_⟩
      have hi := i.isLt
      simp only [BUSTUB_PAGE_SIZE] at hi hbytes ⊢
      rw [dif_neg, hbytes]
      rcases Nat.lt_or_gt_of_ne hne with hlt | hlt <;> omega

/-- A read changes nothing the file stores: at most it clears the stream. -/
theorem Stores.ReadPage (h : dm.Stores written) (page_id : Int) (page_data : PageData) :
    (dm.ReadPage page_id page_data).2.Stores written := by
  unfold DiskManager.ReadPage
  dsimp only
  split_ifs
  · exact h
  · exact ⟨rfl, h.size_lt, h.page⟩
  · exact ⟨rfl, h.size_lt, h.page⟩

/-- A read of a page that was written returns that page's last write, whatever the buffer
    held. -/
theorem Stores.ReadPage_eq (h : dm.Stores written) {page_id : Int} {d : PageData}
    (hp : written page_id = some d) (page_data : PageData) :
    (dm.ReadPage page_id page_data).1 = d := by
  obtain ⟨hp0, hsize, hbytes⟩ := h.page page_id d hp
  have hlt := h.size_lt
  simp only [BUSTUB_PAGE_SIZE] at hsize hbytes
  have hoff : toInt32 (page_id * ↑BUSTUB_PAGE_SIZE) = page_id * 4096 :=
    toInt32_of_lt (by simp only [BUSTUB_PAGE_SIZE]; omega) (by simp only [BUSTUB_PAGE_SIZE]; omega)
  have hfile : dm.GetFileSize = dm.file_size_ := toInt32_of_lt (by omega) (by omega)
  have hin : ¬page_id * 4096 > (dm.file_size_ : Int) := by omega
  have hnn : ¬page_id * 4096 < 0 := by omega
  funext i
  have hi := i.isLt
  simp only [BUSTUB_PAGE_SIZE] at hi
  simp only [DiskManager.ReadPage, hoff, hfile, hin, h.good, hnn, decide_False, Bool.or_false,
    Bool.false_eq_true, if_false]
  have htoNat : (page_id * 4096).toNat = page_id.toNat * 4096 := by omega
  rw [htoNat, if_pos (by omega), hbytes]

/-- The empty file stores no page. -/
theorem Stores.new : DiskManager.new.Stores fun _ => none :=
  ⟨rfl, by decide, fun _ _ h => nomatch h⟩

end Stores

section ReadPage

variable {dm : DiskManager}

/-- A read past the end of the file leaves the buffer and the stream as they were. -/
theorem ReadPage_past_end (hsize : dm.file_size_ < 2 ^ 31)
    {page_id : Int} (hlo : 0 ≤ page_id) (hhi : page_id < 524288)
    (hpast : dm.file_size_ < page_id.toNat * BUSTUB_PAGE_SIZE) (page_data : PageData) :
    dm.ReadPage page_id page_data = (page_data, dm) := by
  simp only [BUSTUB_PAGE_SIZE] at hpast
  have hoff : toInt32 (page_id * ↑BUSTUB_PAGE_SIZE) = page_id * 4096 :=
    toInt32_of_lt (by simp only [BUSTUB_PAGE_SIZE]; omega) (by simp only [BUSTUB_PAGE_SIZE]; omega)
  have hfile : dm.GetFileSize = dm.file_size_ := toInt32_of_lt (by omega) (by omega)
  simp only [DiskManager.ReadPage, hoff, hfile]
  rw [if_pos (by omega)]

/-- On a file that starts empty, a read of page `1`, never written, leaves the buffer holding
    `7`s. After page `524288` is written with `7`s, its read computes the offset in `int`,
    which wraps negative, and returns zeros. -/
theorem ReadPage_diverges_from_last_write :
    (DiskManager.new.ReadPage 1 fun _ => 7).1 = (fun _ => 7) ∧
      ((DiskManager.new.WritePage 524288 fun _ => 7).ReadPage 524288 fun _ => 0).1 =
        fun _ => 0 :=
  ⟨congrArg Prod.fst (@ReadPage_past_end DiskManager.new (by decide) 1 (by decide) (by decide)
    (by decide) fun _ => 7), rfl⟩

end ReadPage

end DiskManager

end bustub
