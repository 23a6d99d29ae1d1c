import MiniBusTub.Buffer.BufferPoolInvariant

namespace bustub

namespace BufferPoolManager

variable {bpm : BufferPoolManager}

/-- Two runs on a one-frame pool, each keeping the client's side of the contract, after which
    `FetchPage` does not return the page's last write. In the first, page `0` is written and
    unpinned dirty, then fetched and unpinned clean: the second `UnpinPage` clears the dirty
    bit, the frame goes to page `1` with no write-back, and page `0` reads back as zeros. In the
    second, page `2` was never written, but it is read while the file ends before it:
    `ReadPage` leaves the frame as page `0` filled it. -/
theorem FetchPage_diverges_from_page_store :
    (runAllowed (new 1 DiskManager.new 2) [.NewPage 0, .Write 0 (fun _ => 7),
        .UnpinPage 0 true, .FetchPage 0 0, .UnpinPage 0 false, .NewPage 0,
        .UnpinPage 1 false] = true ∧
      (((new 1 DiskManager.new 2).run [.NewPage 0, .Write 0 (fun _ => 7), .UnpinPage 0 true,
          .FetchPage 0 0, .UnpinPage 0 false, .NewPage 0, .UnpinPage 1 false]).bind
          (·.FetchPage 0 0)).toOption.map
        (fun r => (r.1, (r.2.pages_ 0).page_id_, (r.2.pages_ 0).data_ ⟨0, by decide⟩)) =
        some (some 0, 0, 0)) ∧
    (runAllowed (new 1 DiskManager.new 2) [.NewPage 0, .UnpinPage 0 false, .NewPage 0,
        .UnpinPage 1 false, .NewPage 0, .UnpinPage 2 false, .FetchPage 0 0,
        .Write 0 (fun _ => 7), .UnpinPage 0 true] = true ∧
      (((new 1 DiskManager.new 2).run [.NewPage 0, .UnpinPage 0 false, .NewPage 0,
          .UnpinPage 1 false, .NewPage 0, .UnpinPage 2 false, .FetchPage 0 0,
          .Write 0 (fun _ => 7), .UnpinPage 0 true]).bind (·.FetchPage 2 0)).toOption.map
        (fun r => (r.1, (r.2.pages_ 0).page_id_, (r.2.pages_ 0).data_ ⟨0, by decide⟩)) =
        some (some 0, 2, 7)) := by
  decide

end BufferPoolManager

end bustub
