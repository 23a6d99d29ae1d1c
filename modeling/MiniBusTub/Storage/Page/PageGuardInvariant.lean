import MiniBusTub.Storage.Page.PageGuard
import MiniBusTub.Buffer.BufferPoolInvariant

namespace bustub

namespace BufferPoolManager
variable {bpm bpm' : BufferPoolManager} {f : Int}

/-- The frame `FetchPage` returns holds the page asked for. -/
theorem FetchPage_find? {page_id : Int} {e : Nat}
    (h : bpm.FetchPage page_id e = .ok (some f, bpm')) :
    bpm'.page_table_.find? page_id = some f := by
  unfold FetchPage at h
  split at h
  · obtain ⟨r, -, h⟩ := except_bind_eq_ok.1 h
    simp only [except_pure, Except.ok.injEq, Prod.mk.injEq, Option.some.injEq] at h
    obtain ⟨rfl, rfl⟩ := h
    assumption
  · obtain ⟨⟨fr, bpm₁⟩, -, h⟩ := except_bind_eq_ok.1 h
    dsimp only at h
    split at h
    · cases h
    · obtain ⟨r, -, h⟩ := except_bind_eq_ok.1 h
      simp only [except_pure, Except.ok.injEq, Prod.mk.injEq, Option.some.injEq] at h
      obtain ⟨rfl, rfl⟩ := h
      simp

/-- The frame `NewPage` returns holds the page it hands out. -/
theorem NewPage_find? {page_id : Int} {e : Nat}
    (h : bpm.NewPage e = .ok (some (page_id, f), bpm')) :
    bpm'.page_table_.find? page_id = some f := by
  unfold NewPage at h
  obtain ⟨⟨fr, bpm₁⟩, -, h⟩ := except_bind_eq_ok.1 h
  dsimp only at h
  split at h
  · cases h
  · obtain ⟨r, -, h⟩ := except_bind_eq_ok.1 h
    simp only [except_pure, Except.ok.injEq, Prod.mk.injEq, Option.some.injEq] at h
    obtain ⟨⟨rfl, rfl⟩, rfl⟩ := h
    simp

/-- `UnpinPage` moves no page. -/
theorem UnpinPage_page_table {page_id : Int} {is_dirty b : Bool}
    (h : bpm.UnpinPage page_id is_dirty = .ok (b, bpm')) :
    bpm'.page_table_ = bpm.page_table_ := by
  unfold UnpinPage at h
  split at h
  · cases h; rfl
  · dsimp only at h
    split at h
    · cases h; rfl
    · obtain ⟨r, -, h⟩ := except_bind_eq_ok.1 h
      cases h
      rfl

/-- `UnpinPage` of a resident, pinned page succeeds. -/
theorem UnpinPage_fst {page_id : Int} {is_dirty b : Bool}
    (h : bpm.UnpinPage page_id is_dirty = .ok (b, bpm'))
    (hp : bpm.page_table_.find? page_id = some f) (hpos : 0 < (bpm.pages_ f).pin_count_) :
    b = true := by
  unfold UnpinPage at h
  rw [hp] at h
  dsimp only at h
  rw [if_neg (by simp only [Page.GetPinCount]; omega)] at h
  obtain ⟨r, -, h⟩ := except_bind_eq_ok.1 h
  simp only [except_pure, Except.ok.injEq, Prod.mk.injEq] at h
  exact h.1.symm

end BufferPoolManager

namespace Guard

/-- The member guard, whatever the class. -/
def inner : Guard → BasicPageGuard
  | .basic g => g
  | .latched _ g => g

@[simp] theorem inner_rewrap (gd : Guard) (g : BasicPageGuard) : (gd.rewrap g).inner = g := by
  cases gd <;> rfl

/-- Whether the guard holds a pin of frame `f`. -/
def holds (gd : Guard) (f : Int) : Bool := decide (gd.inner.page_ = some f)

@[simp] theorem holds_eq_true {gd : Guard} {f : Int} :
    gd.holds f = true ↔ gd.inner.page_ = some f := by
  simp [holds]

end Guard

namespace GuardWorld

variable {w w' : GuardWorld}

theorem latch_eq_ok {op : LatchMode → Latch → Option Latch} {mode : LatchMode} {fault : Fault}
    {page_ : Option Int} (h : w.latch op mode fault page_ = .ok w') :
    w'.bpm = w.bpm ∧ w'.guards = w.guards ∧ page_ ≠ none := by
  unfold latch at h
  split at h
  · cases h
  · split at h
    · cases h
    · cases h
      exact ⟨rfl, rfl, by simp⟩

theorem UnpinPage_eq_ok {page_id : Int} {is_dirty : Bool}
    (h : w.UnpinPage page_id is_dirty = .ok w') :
    ∃ b, w.bpm.UnpinPage page_id is_dirty = .ok (b, w'.bpm) ∧ w'.guards = w.guards := by
  unfold UnpinPage at h
  obtain ⟨⟨b, bpm⟩, hu, h⟩ := except_bind_eq_ok.1 h
  cases h
  exact ⟨b, except_mapError_eq_ok.1 hu, rfl⟩

end GuardWorld

namespace LatchMode

variable {w w' : GuardWorld} {page_ : Option Int}

theorem latch_eq_ok (mode : LatchMode) (h : mode.latch w page_ = .ok w') :
    w'.bpm = w.bpm ∧ w'.guards = w.guards ∧ page_ ≠ none := by
  cases mode <;> exact GuardWorld.latch_eq_ok h

theorem unlatch_eq_ok (mode : LatchMode) (h : mode.unlatch w page_ = .ok w') :
    w'.bpm = w.bpm ∧ w'.guards = w.guards ∧ page_ ≠ none := by
  cases mode <;> exact GuardWorld.latch_eq_ok h

end LatchMode

namespace BasicPageGuard

variable {g g' : BasicPageGuard} {w w' : GuardWorld}

theorem unpin_eq_ok (h : g.unpin w = .ok w') :
    ∃ f b, g.page_ = some f ∧ g.bpm_ = true ∧
      w.bpm.UnpinPage (w.bpm.pages_ f).page_id_ g.is_dirty_ = .ok (b, w'.bpm) ∧
      w'.guards = w.guards := by
  unfold unpin PageId at h
  obtain ⟨pid, hpid, h⟩ := except_bind_eq_ok.1 h
  split at hpid
  · cases hpid
  · rename_i f hf
    cases hpid
    split at h
    · obtain ⟨b, hu, hg⟩ := GuardWorld.UnpinPage_eq_ok h
      exact ⟨f, b, hf, ‹_›, hu, hg⟩
    · cases h

theorem Drop_eq_ok (h : g.Drop w = .ok (g', w')) :
    (g' = g ∧ w' = w ∧ ∀ f, g.page_ = some f → (w.bpm.pages_ f).pin_count_ ≤ 0) ∨
      (g.unpin w = .ok w' ∧ g' = { g with bpm_ := false, page_ := none }) := by
  unfold Drop at h
  split at h
  · cases h
    exact .inl ⟨rfl, rfl, by simp_all⟩
  · rename_i f hf
    split at h
    · cases h
      exact .inl ⟨rfl, rfl, fun f' hf' => by
        obtain rfl : f' = f := Option.some.inj (hf'.symm.trans hf)
        assumption⟩
    · obtain ⟨w₁, hu, h⟩ := except_bind_eq_ok.1 h
      cases h
      exact .inr ⟨hu, rfl⟩

theorem assign_eq_ok {that : BasicPageGuard} {r : BasicPageGuard × BasicPageGuard}
    (h : g.assign that w = .ok (r, w')) :
    r = that.move ∧ ((g.bpm_ = false ∧ g.page_ = none ∧ w' = w) ∨ g.unpin w = .ok w') := by
  unfold assign at h
  obtain ⟨w₁, h₁, h⟩ := except_bind_eq_ok.1 h
  cases h
  refine ⟨rfl, ?_⟩
  split at h₁
  · exact .inr h₁
  · cases h₁
    rename_i hlive
    simp only [Bool.or_eq_true, Option.isSome_iff_ne_none, not_or, Bool.not_eq_true,
      ne_eq, not_not] at hlive
    exact .inl ⟨hlive.1, hlive.2, rfl⟩

theorem destroy_eq_ok (h : g.destroy w = .ok w') :
    (w' = w ∧ (g.bpm_ = false ∨ g.page_ = none)) ∨ ∃ g', g.Drop w = .ok (g', w') := by
  unfold destroy at h
  split at h
  · obtain ⟨⟨g', w₁⟩, hd, h⟩ := except_bind_eq_ok.1 h
    cases h
    exact .inr ⟨g', hd⟩
  · cases h
    rename_i hlive
    simp only [Bool.and_eq_true, Option.isSome_iff_ne_none, not_and_or, Bool.not_eq_true,
      ne_eq, not_not] at hlive
    exact .inl ⟨rfl, hlive⟩

theorem Upgrade_eq_ok {lock : GuardWorld → Option Int → Except Fault GuardWorld}
    {g₁ g₂ : BasicPageGuard} (h : g.Upgrade lock w = .ok ((g₁, g₂), w')) :
    lock w g.page_ = .ok w' ∧ g₁ = ⟨g.bpm_, g.page_, false⟩ ∧
      g₂ = { g with bpm_ := false, page_ := none } := by
  unfold Upgrade at h
  obtain ⟨w₁, h₁, h⟩ := except_bind_eq_ok.1 h
  cases h
  exact ⟨h₁, rfl, rfl⟩

theorem GetDataMut_eq_ok (h : g.GetDataMut = .ok g') :
    g'.bpm_ = g.bpm_ ∧ g'.page_ = g.page_ := by
  unfold GetDataMut at h
  split at h
  · cases h
  · cases h
    exact ⟨rfl, rfl⟩

end BasicPageGuard

namespace GuardWorld

variable {w w' : GuardWorld} {g : BasicPageGuard}

theorem FetchPageBasic_eq_ok {page_id : Int} {e : Nat}
    (h : w.FetchPageBasic page_id e = .ok (g, w')) :
    ∃ res, w.bpm.FetchPage page_id e = .ok (res, w'.bpm) ∧ g = ⟨true, res, false⟩ ∧
      w'.guards = w.guards := by
  unfold FetchPageBasic at h
  obtain ⟨⟨res, bpm⟩, hf, h⟩ := except_bind_eq_ok.1 h
  cases h
  exact ⟨res, except_mapError_eq_ok.1 hf, rfl, rfl⟩

theorem FetchPageLatched_eq_ok {mode : LatchMode} {page_id : Int} {e : Nat}
    (h : w.FetchPageLatched mode page_id e = .ok (g, w')) :
    ∃ res, w.bpm.FetchPage page_id e = .ok (res, w'.bpm) ∧ g = ⟨true, res, false⟩ ∧
      w'.guards = w.guards := by
  unfold FetchPageLatched at h
  obtain ⟨⟨res, bpm⟩, hf, h⟩ := except_bind_eq_ok.1 h
  obtain ⟨w₁, hl, h⟩ := except_bind_eq_ok.1 h
  cases h
  obtain ⟨hbpm, hguards, -⟩ := mode.latch_eq_ok hl
  exact ⟨res, hbpm ▸ except_mapError_eq_ok.1 hf, rfl, hguards⟩

theorem NewPageGuarded_eq_ok {e : Nat} (h : w.NewPageGuarded e = .ok (g, w')) :
    ∃ res, w.bpm.NewPage e = .ok (res, w'.bpm) ∧ g = ⟨true, res.map (·.2), false⟩ ∧
      w'.guards = w.guards := by
  unfold NewPageGuarded at h
  obtain ⟨⟨res, bpm⟩, hf, h⟩ := except_bind_eq_ok.1 h
  cases h
  exact ⟨res, except_mapError_eq_ok.1 hf, rfl, rfl⟩

theorem declare_eq_ok {x : Nat} {gd : Guard} (h : w.declare x gd = .ok w') :
    w.guards.find? x = none ∧ w' = { w with guards := w.guards.insert x gd } := by
  unfold declare at h
  split at h
  · cases h
  · cases h
    exact ⟨‹_›, rfl⟩

theorem moveGuard_eq_ok {gd : Guard} {r : BasicPageGuard × BasicPageGuard}
    (h : w.moveGuard gd = .ok (r, w')) : r = gd.inner.move ∧ w' = w := by
  cases gd with
  | basic g => cases h; exact ⟨rfl, rfl⟩
  | latched mode g =>
    have := BasicPageGuard.assign_of_inert (g := BasicPageGuard.inert) (w := w) g rfl rfl
    rw [moveGuard, LatchMode.move, this] at h
    cases h
    exact ⟨rfl, rfl⟩

theorem assignGuard_eq_ok {gx gy : Guard} {r : BasicPageGuard × BasicPageGuard}
    (h : w.assignGuard gx gy = .ok (r, w')) : gx.inner.assign gy.inner w = .ok (r, w') := by
  cases gx <;> cases gy
  · exact h
  · cases h
  · cases h
  · simp only [assignGuard] at h
    split at h
    · exact h
    · cases h

end GuardWorld

/-- How many guard variables hold a pin of frame `f`. -/
def holders (guards : UnorderedMap Nat Guard) (f : Int) : Nat :=
  guards.entries.countP (·.2.holds f)

theorem holders_pos {guards : UnorderedMap Nat Guard} {x : Nat} {gd : Guard} {f : Int}
    (hx : guards.find? x = some gd) (hf : gd.inner.page_ = some f) : 0 < holders guards f :=
  List.countP_pos_iff.2
    ⟨(x, gd), UnorderedMap.find?_eq_some_iff.1 hx, by simp [Guard.holds, hf]⟩

section Holders

variable {G : UnorderedMap Nat Guard} {x : Nat} {gd₀ : Guard}

theorem holders_insert_of_none (hx : G.find? x = none) (gd : Guard) (f : Int) :
    holders (G.insert x gd) f = holders G f + if gd.holds f then 1 else 0 :=
  UnorderedMap.countP_insert_of_find?_eq_none (fun e : Nat × Guard => e.2.holds f) gd hx

theorem holders_insert_of_some (hx : G.find? x = some gd₀) (gd : Guard) (f : Int) :
    holders (G.insert x gd) f + (if gd₀.holds f then 1 else 0) =
      holders G f + if gd.holds f then 1 else 0 :=
  UnorderedMap.countP_insert_of_find?_eq_some (fun e : Nat × Guard => e.2.holds f) hx gd

theorem holders_erase_of_some (hx : G.find? x = some gd₀) (f : Int) :
    holders (G.erase x) f + (if gd₀.holds f then 1 else 0) = holders G f :=
  UnorderedMap.countP_erase_of_find?_eq_some (fun e : Nat × Guard => e.2.holds f) hx

end Holders

/-- The guards account for every pin of a pool that keeps its invariant: a resident page's pin
    count is the number of guards holding its frame, and a guard holds only a resident frame,
    through a set `bpm_`. -/
structure PinLedger (bpm : BufferPoolManager) (guards : UnorderedMap Nat Guard) : Prop where
  pool : bpm.Invariant []
  pins : ∀ p f, bpm.page_table_.find? p = some f → (bpm.pages_ f).pin_count_ = holders guards f
  held : ∀ x gd f, guards.find? x = some gd → gd.inner.page_ = some f →
    f ∈ bpm.residentFrames ∧ gd.inner.bpm_ = true

namespace PinLedger

variable {bpm bpm' : BufferPoolManager} {G G' : UnorderedMap Nat Guard}

/-- A frame some guard holds is resident. -/
theorem resident_of_holders (h : PinLedger bpm G) {f : Int} (hpos : 0 < holders G f) :
    ∃ p, bpm.page_table_.find? p = some f := by
  obtain ⟨⟨x, gd⟩, hmem, hholds⟩ := List.countP_pos_iff.1 hpos
  exact BufferPoolManager.mem_residentFrames.1
    (h.held x gd f (UnorderedMap.find?_eq_some_iff.2 hmem) (by simpa using hholds)).1

/-- Guards that change hands, with no call on the pool. -/
theorem guards (h : PinLedger bpm G) (hcount : ∀ f, holders G' f = holders G f)
    (hheld : ∀ x gd f, G'.find? x = some gd → gd.inner.page_ = some f →
      gd.inner.bpm_ = true ∧ 0 < holders G f) : PinLedger bpm G' :=
  ⟨h.pool, fun p f hp => by rw [hcount]; exact h.pins p f hp, fun x gd f hx hf =>
    ⟨BufferPoolManager.mem_residentFrames.2 (h.resident_of_holders (hheld x gd f hx hf).2),
      (hheld x gd f hx hf).1⟩⟩

/-- A call that returns a frame, held by one more guard. -/
theorem acquire (h : PinLedger bpm G) {c : BufferPoolManager.Call} {res : Option Int}
    (hc : c.Allowed bpm)
    (hcall : bpm.step c = .ok (.frame res, bpm')) (hkeep : c.unpinned = none)
    (hres : ∀ f, res = some f → f ∈ bpm'.residentFrames)
    (hcount : ∀ f, holders G' f = holders G f + if res = some f then 1 else 0)
    (hheld : ∀ x gd f, G'.find? x = some gd → gd.inner.page_ = some f →
      gd.inner.bpm_ = true ∧ (res = some f ∨ 0 < holders G f)) : PinLedger bpm' G' := by
  obtain ⟨reply, bpm'', hcall', hpool, hpins, hleave⟩ := h.pool.step hc
  rw [hcall] at hcall'
  cases hcall'
  have hstay : ∀ q f, bpm.page_table_.find? q = some f → 0 < holders G f →
      bpm'.page_table_.find? q = some f := fun q f hq hpos => by
    by_contra hne
    have := hleave q f hq hne
    rw [h.pins q f hq] at this
    omega
  refine ⟨hpool, fun p f hp => ?_, fun x gd f hx hf => ?_⟩
  · rw [hpins p f hp, hcount, hkeep]
    by_cases hpf : bpm.page_table_.find? p = some f
    · rw [if_pos hpf, h.pins p f hpf]
      by_cases hr : res = some f <;> simp [hr]
    · have hzero : holders G f = 0 := by
        by_contra hpos
        obtain ⟨q, hq⟩ := h.resident_of_holders (Nat.pos_of_ne_zero hpos)
        exact hpf (hpool.page_eq hp (hstay q f hq (Nat.pos_of_ne_zero hpos)) ▸ hq)
      rw [if_neg hpf, hzero]
      by_cases hr : res = some f <;> simp [hr]
  · obtain ⟨hb, hnew | hpos⟩ := hheld x gd f hx hf
    · exact ⟨hres f hnew, hb⟩
    · obtain ⟨q, hq⟩ := h.resident_of_holders hpos
      exact ⟨BufferPoolManager.mem_residentFrames.2 ⟨q, hstay q f hq hpos⟩, hb⟩

/-- A successful `UnpinPage` of the page at frame `f`, held by one guard fewer. -/
theorem release (h : PinLedger bpm G) {q f : Int} {is_dirty b : Bool}
    (hq : bpm.page_table_.find? q = some f) (hpos : 0 < holders G f)
    (hcall : bpm.UnpinPage q is_dirty = .ok (b, bpm'))
    (hcount : ∀ g, holders G' g + (if g = f then 1 else 0) = holders G g)
    (hheld : ∀ x gd g, G'.find? x = some gd → gd.inner.page_ = some g →
      gd.inner.bpm_ = true ∧ 0 < holders G g) : PinLedger bpm' G' := by
  have hb : b = true :=
    BufferPoolManager.UnpinPage_fst hcall hq (by rw [h.pins q f hq]; exact_mod_cast hpos)
  subst hb
  obtain ⟨reply, bpm'', hcall', hpool, hpins, -⟩ :=
    h.pool.step (c := .UnpinPage q is_dirty) trivial
  simp only [BufferPoolManager.step, hcall, except_ok_map, Except.ok.injEq] at hcall'
  obtain ⟨rfl, rfl⟩ := hcall'
  have htable := BufferPoolManager.UnpinPage_page_table hcall
  refine ⟨hpool, fun p g hp => ?_, fun x gd g hx hg => ?_⟩
  · have hp₀ : bpm.page_table_.find? p = some g := htable ▸ hp
    have hc := hcount g
    rw [hpins p g hp, if_pos hp₀, h.pins p g hp₀]
    by_cases hpq : p = q
    · subst hpq
      obtain rfl : g = f := Option.some.inj (hp₀.symm.trans hq)
      simp only [if_true] at hc
      simp [BufferPoolManager.Call.unpinned]
      omega
    · have hgf : g ≠ f := fun hgf => hpq (h.pool.page_eq hp₀ (hgf ▸ hq))
      simp only [if_neg hgf, add_zero] at hc
      simp [BufferPoolManager.Call.unpinned, Ne.symm hpq, hc]
  · obtain ⟨hb, hpos'⟩ := hheld x gd g hx hg
    obtain ⟨p, hp⟩ := h.resident_of_holders hpos'
    exact ⟨BufferPoolManager.mem_residentFrames.2 ⟨p, htable ▸ hp⟩, hb⟩

variable {x y : Nat}

/-- A guard variable holding a frame does so through `bpm_` and is counted. -/
theorem of_find? (h : PinLedger bpm G) {z : Nat} {gd : Guard} {f : Int}
    (hz : G.find? z = some gd) (hf : gd.inner.page_ = some f) :
    gd.inner.bpm_ = true ∧ 0 < holders G f :=
  ⟨(h.held z gd f hz hf).2, holders_pos hz hf⟩

/-- A guard replaced by one of the same page and pointer, as `AsMut` and a `Drop` that
    does nothing leave it. -/
theorem retag (h : PinLedger bpm G) {gd gd' : Guard} (hx : G.find? x = some gd)
    (hpage : gd'.inner.page_ = gd.inner.page_) (hbpm : gd'.inner.bpm_ = gd.inner.bpm_) :
    PinLedger bpm (G.insert x gd') :=
  h.guards (fun f => by
      have := holders_insert_of_some hx gd' f
      simp only [Guard.holds, hpage] at this
      omega)
    (fun z gd'' f hz hf => by
      rw [UnorderedMap.find?_insert] at hz
      split_ifs at hz with hzx
      · cases hz
        rw [hpage] at hf
        rw [hbpm]
        exact h.of_find? hx hf
      · exact h.of_find? hz hf)

/-- `y`'s page handed to a fresh `x`, `y` left holding nothing: a move construction or an
    upgrade. -/
theorem transfer (h : PinLedger bpm G) {gy gy' gx : Guard} (hy : G.find? y = some gy)
    (hy' : gy'.inner.page_ = none) (hpage : gx.inner.page_ = gy.inner.page_)
    (hbpm : gx.inner.bpm_ = gy.inner.bpm_) (hx : (G.insert y gy').find? x = none) :
    PinLedger bpm ((G.insert y gy').insert x gx) :=
  h.guards (fun f => by
      have h₁ := holders_insert_of_some hy gy' f
      rw [holders_insert_of_none hx]
      simp only [Guard.holds, hy', hpage, reduceCtorEq, decide_False, Bool.false_eq_true,
        if_false, add_zero] at h₁ ⊢
      omega)
    (fun z gd f hz hf => by
      simp only [UnorderedMap.find?_insert] at hz
      split_ifs at hz with hzx hzy
      · cases hz
        rw [hpage] at hf
        rw [hbpm]
        exact h.of_find? hy hf
      · cases hz
        rw [hy'] at hf
        cases hf
      · exact h.of_find? hz hf)

/-- A fresh variable holding the frame a `FetchPage` or `NewPage` returned. -/
theorem declare_acquired (h : PinLedger bpm G) {c : BufferPoolManager.Call} {res : Option Int}
    (hc : c.Allowed bpm) (hcall : bpm.step c = .ok (.frame res, bpm'))
    (hkeep : c.unpinned = none) (hres : ∀ f, res = some f → f ∈ bpm'.residentFrames)
    (hx : G.find? x = none) {gd : Guard} (hgd : gd.inner = ⟨true, res, false⟩) :
    PinLedger bpm' (G.insert x gd) :=
  h.acquire hc hcall hkeep hres
    (fun f => by rw [holders_insert_of_none hx]; simp [Guard.holds, hgd])
    (fun z gd' f hz hf => by
      rw [UnorderedMap.find?_insert] at hz
      split_ifs at hz with hzx
      · cases hz
        rw [hgd] at hf ⊢
        exact ⟨rfl, .inl hf⟩
      · exact ⟨(h.held z gd' f hz hf).2, .inr (holders_pos hz hf)⟩)

/-- The `UnpinPage` a guard makes for its frame, which the new variables count once less. -/
theorem unpin {w w₁ : GuardWorld} (h : PinLedger w.bpm w.guards) {gx : Guard}
    (hx : w.guards.find? x = some gx) (hu : gx.inner.unpin w = .ok w₁)
    {G' : UnorderedMap Nat Guard}
    (hcount : ∀ g, holders G' g + (if gx.holds g then 1 else 0) = holders w.guards g)
    (hheld : ∀ z gd g, G'.find? z = some gd → gd.inner.page_ = some g →
      gd.inner.bpm_ = true ∧ 0 < holders w.guards g) : PinLedger w₁.bpm G' := by
  obtain ⟨f, b, hf, -, hcall, -⟩ := BasicPageGuard.unpin_eq_ok hu
  obtain ⟨q, hq⟩ := BufferPoolManager.mem_residentFrames.1 (h.held x gx f hx hf).1
  rw [h.pool.page_id q f hq] at hcall
  refine h.release hq (holders_pos hx hf) hcall (fun g => ?_) hheld
  have := hcount g
  by_cases hg : g = f
  · subst hg
    simpa [Guard.holds, hf] using this
  · simpa [Guard.holds, hf, Ne.symm hg, hg] using this

/-- Erasing a variable leaves the others as they were. -/
private theorem held_erase {bpm : BufferPoolManager} (h : PinLedger bpm G) :
    ∀ z gd g, (G.erase x).find? z = some gd → gd.inner.page_ = some g →
      gd.inner.bpm_ = true ∧ 0 < holders G g := fun z gd g hz hg => by
  rw [UnorderedMap.find?_erase] at hz
  split_ifs at hz
  exact h.of_find? hz hg

/-- A variable that now holds nothing, the others as they were. -/
private theorem held_clear {bpm : BufferPoolManager} (h : PinLedger bpm G) {gd' : Guard}
    (hnone : gd'.inner.page_ = none) :
    ∀ z gd g, (G.insert x gd').find? z = some gd → gd.inner.page_ = some g →
      gd.inner.bpm_ = true ∧ 0 < holders G g := fun z gd g hz hg => by
  rw [UnorderedMap.find?_insert] at hz
  split_ifs at hz
  · cases hz
    rw [hnone] at hg
    cases hg
  · exact h.of_find? hz hg

/-- A guard that holds a frame keeps its page pinned, so `Drop` never finds it unpinned. -/
private theorem page_none_of_unpinned {w : GuardWorld} (h : PinLedger w.bpm w.guards)
    {gd : Guard} (hx : w.guards.find? x = some gd)
    (hpin : ∀ f, gd.inner.page_ = some f → (w.bpm.pages_ f).pin_count_ ≤ 0) :
    gd.inner.page_ = none := by
  cases hf : gd.inner.page_ with
  | none => rfl
  | some f =>
    obtain ⟨q, hq⟩ := BufferPoolManager.mem_residentFrames.1 (h.held x gd f hx hf).1
    have := hpin f hf
    rw [h.pins q f hq] at this
    have := holders_pos hx hf
    omega

/-- `Drop` of a guard variable. -/
theorem drop {w w₁ : GuardWorld} (h : PinLedger w.bpm w.guards) {gd : Guard}
    (hx : w.guards.find? x = some gd) {g' : BasicPageGuard}
    (hd : gd.inner.Drop w = .ok (g', w₁)) :
    PinLedger w₁.bpm (w₁.guards.insert x (gd.rewrap g')) := by
  rcases BasicPageGuard.Drop_eq_ok hd with ⟨rfl, rfl, -⟩ | ⟨hu, rfl⟩
  · exact h.retag hx (by simp) (by simp)
  · obtain ⟨-, -, -, -, -, hguards⟩ := BasicPageGuard.unpin_eq_ok hu
    rw [hguards]
    refine h.unpin hx hu (fun f => ?_) (h.held_clear (by simp))
    have := holders_insert_of_some hx (gd.rewrap { gd.inner with bpm_ := false, page_ := none }) f
    simpa using this

/-- A guard variable going out of scope. -/
theorem destroy {w w₁ : GuardWorld} (h : PinLedger w.bpm w.guards) {gd : Guard}
    (hx : w.guards.find? x = some gd) (hd : gd.inner.destroy w = .ok w₁) :
    PinLedger w₁.bpm (w₁.guards.erase x) := by
  have hclear : gd.inner.page_ = none → PinLedger w.bpm (w.guards.erase x) := fun hnone =>
    h.guards (fun f => by
        have := holders_erase_of_some hx f
        simpa [Guard.holds, hnone] using this)
      h.held_erase
  rcases BasicPageGuard.destroy_eq_ok hd with ⟨rfl, hdead⟩ | ⟨g', hd'⟩
  · refine hclear ?_
    rcases hdead with hb | hnone
    · cases hf : gd.inner.page_ with
      | none => rfl
      | some f => simp [(h.held x gd f hx hf).2] at hb
    · exact hnone
  · rcases BasicPageGuard.Drop_eq_ok hd' with ⟨-, rfl, hpin⟩ | ⟨hu, -⟩
    · exact hclear (h.page_none_of_unpinned hx hpin)
    · obtain ⟨-, -, -, -, -, hguards⟩ := BasicPageGuard.unpin_eq_ok hu
      rw [hguards]
      exact h.unpin hx hu (fun f => holders_erase_of_some hx f) h.held_erase

/-- `x = std::move(y)`: `x`'s old page unpinned if it held one, `x` holding `y`'s page and `y`
    nothing. -/
theorem reassign {w w₁ : GuardWorld} (h : PinLedger w.bpm w.guards) {gx gy : Guard}
    (hx : w.guards.find? x = some gx) (hy : w.guards.find? y = some gy)
    (ha : gx.inner.assign gy.inner w = .ok (gy.inner.move, w₁)) :
    PinLedger w₁.bpm ((w₁.guards.insert x (gx.rewrap gy.inner)).insert y
      (gy.rewrap { gy.inner with bpm_ := false, page_ := none })) := by
  have hy₁ : (w.guards.insert x (gx.rewrap gy.inner)).find? y =
      some (if y = x then gx.rewrap gy.inner else gy) := by
    rw [UnorderedMap.find?_insert]
    split_ifs <;> simp [hy]
  have hcount : ∀ f, holders ((w.guards.insert x (gx.rewrap gy.inner)).insert y
      (gy.rewrap { gy.inner with bpm_ := false, page_ := none })) f +
        (if gx.holds f then 1 else 0) = holders w.guards f := fun f => by
    have h₁ := holders_insert_of_some hx (gx.rewrap gy.inner) f
    have h₂ := holders_insert_of_some hy₁
      (gy.rewrap { gy.inner with bpm_ := false, page_ := none }) f
    have hsame : (if y = x then gx.rewrap gy.inner else gy).holds f = gy.holds f := by
      split_ifs <;> simp [Guard.holds]
    rw [hsame] at h₂
    simp only [Guard.holds, Guard.inner_rewrap, reduceCtorEq, decide_False, Bool.false_eq_true,
      if_false, add_zero] at h₁ h₂ ⊢
    omega
  have hheld : ∀ z gd g, ((w.guards.insert x (gx.rewrap gy.inner)).insert y
      (gy.rewrap { gy.inner with bpm_ := false, page_ := none })).find? z = some gd →
      gd.inner.page_ = some g → gd.inner.bpm_ = true ∧ 0 < holders w.guards g := by
    intro z gd g hz hg
    simp only [UnorderedMap.find?_insert] at hz
    split_ifs at hz
    · cases hz
      simp at hg
    · cases hz
      simpa using h.of_find? hy (by simpa using hg)
    · exact h.of_find? hz hg
  rcases (BasicPageGuard.assign_eq_ok ha).2 with ⟨hb, hnone, rfl⟩ | hu
  · exact h.guards (fun f => by simpa [Guard.holds, hnone] using hcount f) hheld
  · obtain ⟨-, -, -, -, -, hguards⟩ := BasicPageGuard.unpin_eq_ok hu
    rw [hguards]
    exact h.unpin hx hu hcount hheld

end PinLedger

namespace GuardWorld

/-- The client's side of the pool's contract in a guard program: fetch only pages `NewPage`
    has handed out, and create pages only while the page id counter does not wrap. -/
def GuardOp.Allowed (w : GuardWorld) : GuardOp → Prop
  | .FetchPageBasic _ page_id _ => 0 ≤ page_id ∧ page_id < w.bpm.next_page_id_
  | .FetchPageRead _ page_id _ => 0 ≤ page_id ∧ page_id < w.bpm.next_page_id_
  | .FetchPageWrite _ page_id _ => 0 ≤ page_id ∧ page_id < w.bpm.next_page_id_
  | .NewPageGuarded _ _ => w.bpm.next_page_id_ < 2 ^ 31 - 1
  | _ => True

instance GuardOp.decAllowed (w : GuardWorld) : (op : GuardOp) → Decidable (op.Allowed w)
  | .FetchPageBasic _ _ _ => inferInstanceAs (Decidable (_ ∧ _))
  | .FetchPageRead _ _ _ => inferInstanceAs (Decidable (_ ∧ _))
  | .FetchPageWrite _ _ _ => inferInstanceAs (Decidable (_ ∧ _))
  | .NewPageGuarded _ _ => inferInstanceAs (Decidable (_ < _))
  | .Move _ _ => instDecidableTrue
  | .MoveAssign _ _ => instDecidableTrue
  | .UpgradeRead _ _ => instDecidableTrue
  | .UpgradeWrite _ _ => instDecidableTrue
  | .AsMut _ => instDecidableTrue
  | .Drop _ => instDecidableTrue
  | .Destroy _ => instDecidableTrue

end GuardWorld

namespace PinLedger

open GuardWorld

variable {w w' : GuardWorld}

private theorem fetch (h : PinLedger w.bpm w.guards) {x : Nat} {page_id : Int}
    {e : Nat} (hop : 0 ≤ page_id ∧ page_id < w.bpm.next_page_id_) {res : Option Int}
    {w₁ : GuardWorld} (hfetch : w.bpm.FetchPage page_id e = .ok (res, w₁.bpm))
    (hguards : w₁.guards = w.guards) {gd : Guard} (hd : w₁.declare x gd = .ok w')
    (hgd : gd.inner = ⟨true, res, false⟩) : PinLedger w'.bpm w'.guards := by
  obtain ⟨hx, rfl⟩ := declare_eq_ok hd
  rw [hguards] at hx ⊢
  exact h.declare_acquired (c := .FetchPage page_id e) hop
    (by simp [BufferPoolManager.step, hfetch]) rfl
    (fun f hr => BufferPoolManager.mem_residentFrames.2
      ⟨page_id, BufferPoolManager.FetchPage_find? (hr ▸ hfetch)⟩) hx hgd

private theorem upgrade (h : PinLedger w.bpm w.guards) {x y : Nat} {g : BasicPageGuard}
    (hy : w.guards.find? y = some (.basic g)) {mode : LatchMode}
    {lock : GuardWorld → Option Int → Except Fault GuardWorld}
    (hlock : ∀ {w₀ w₁ : GuardWorld} {page_ : Option Int}, lock w₀ page_ = .ok w₁ →
      w₁.bpm = w₀.bpm ∧ w₁.guards = w₀.guards ∧ page_ ≠ none)
    {g₁ g₂ : BasicPageGuard} {w₁ : GuardWorld}
    (hu : g.Upgrade lock w = .ok ((g₁, g₂), w₁))
    (hd : (w₁.set y (.basic g₂)).declare x (.latched mode g₁) = .ok w') :
    PinLedger w'.bpm w'.guards := by
  obtain ⟨hl, rfl, rfl⟩ := BasicPageGuard.Upgrade_eq_ok hu
  obtain ⟨hbpm, hguards, -⟩ := hlock hl
  obtain ⟨hx, rfl⟩ := declare_eq_ok hd
  simp only [GuardWorld.set, hguards] at hx ⊢
  rw [hbpm]
  exact h.transfer hy (by simp [Guard.inner]) (by simp [Guard.inner]) (by simp [Guard.inner]) hx

private theorem moveAssign (h : PinLedger w.bpm w.guards) {x y : Nat}
    (hs : w.step (.MoveAssign x y) = .ok w') : PinLedger w'.bpm w'.guards := by
  simp only [GuardWorld.step] at hs
  split at hs
  · rename_i gx gy _ hx hy
    obtain ⟨⟨⟨a, b⟩, w₁⟩, ha, hs⟩ := except_bind_eq_ok.1 hs
    cases hs
    have ha' := assignGuard_eq_ok ha
    obtain ⟨hr, -⟩ := BasicPageGuard.assign_eq_ok ha'
    simp only [BasicPageGuard.move, Prod.mk.injEq] at hr
    obtain ⟨rfl, rfl⟩ := hr
    have := h.reassign hx hy ha'
    dsimp only [GuardWorld.set] at this ⊢
    exact this
  · cases hs

theorem step (h : PinLedger w.bpm w.guards) {op : GuardOp} (hop : op.Allowed w)
    (hs : w.step op = .ok w') : PinLedger w'.bpm w'.guards := by
  cases op with
  | FetchPageBasic x page_id e =>
    obtain ⟨⟨g, w₁⟩, hf, hd⟩ := except_bind_eq_ok.1 hs
    obtain ⟨res, hfetch, rfl, hguards⟩ := FetchPageBasic_eq_ok hf
    exact h.fetch hop hfetch hguards hd rfl
  | FetchPageRead x page_id e | FetchPageWrite x page_id e =>
    obtain ⟨⟨g, w₁⟩, hf, hd⟩ := except_bind_eq_ok.1 hs
    obtain ⟨res, hfetch, rfl, hguards⟩ := FetchPageLatched_eq_ok hf
    exact h.fetch hop hfetch hguards hd rfl
  | NewPageGuarded x e =>
    obtain ⟨⟨g, w₁⟩, hf, hd⟩ := except_bind_eq_ok.1 hs
    obtain ⟨res, hnew, rfl, hguards⟩ := NewPageGuarded_eq_ok hf
    obtain ⟨hx, rfl⟩ := declare_eq_ok hd
    rw [hguards] at hx ⊢
    refine h.declare_acquired (c := .NewPage e) hop (by simp [BufferPoolManager.step, hnew]) rfl
      (fun f hr => ?_) hx rfl
    obtain ⟨⟨pid, f'⟩, rfl, rfl⟩ := Option.map_eq_some'.1 hr
    exact BufferPoolManager.mem_residentFrames.2 ⟨pid, BufferPoolManager.NewPage_find? hnew⟩
  | Move x y =>
    simp only [GuardWorld.step] at hs
    split at hs
    · rename_i gy _ hx hy
      obtain ⟨⟨⟨g, g'⟩, w₁⟩, hm, hd⟩ := except_bind_eq_ok.1 hs
      obtain ⟨hr, rfl⟩ := moveGuard_eq_ok hm
      simp only [BasicPageGuard.move, Prod.mk.injEq] at hr
      obtain ⟨rfl, rfl⟩ := hr
      obtain ⟨hx', rfl⟩ := declare_eq_ok hd
      exact h.transfer hy (by simp) (by simp) (by simp) hx'
    · cases hs
  | MoveAssign x y => exact h.moveAssign hs
  | UpgradeRead x y | UpgradeWrite x y =>
    simp only [GuardWorld.step] at hs
    split at hs
    · rename_i g _ _ hy
      obtain ⟨⟨⟨g₁, g₂⟩, w₁⟩, hu, hd⟩ := except_bind_eq_ok.1 hs
      exact h.upgrade hy (fun hl => latch_eq_ok hl) hu hd
    · cases hs
  | AsMut x =>
    simp only [GuardWorld.step] at hs
    -- a basic and a write guard take the same path; any other is refused
    split at hs
    all_goals first
      | rename_i g hx
        obtain ⟨g', hg, hs⟩ := except_bind_eq_ok.1 hs
        cases hs
        obtain ⟨hbpm, hpage⟩ := BasicPageGuard.GetDataMut_eq_ok hg
        exact h.retag hx hpage hbpm
      | cases hs
  | Drop x =>
    simp only [GuardWorld.step] at hs
    split at hs
    · rename_i g hx
      obtain ⟨⟨g', w₁⟩, hd, hs⟩ := except_bind_eq_ok.1 hs
      cases hs
      exact h.drop hx hd
    · rename_i mode g hx
      obtain ⟨⟨g', w₁⟩, hd, hs⟩ := except_bind_eq_ok.1 hs
      cases hs
      obtain ⟨w₂, hl, hd⟩ := except_bind_eq_ok.1 hd
      obtain ⟨hbpm, hguards, -⟩ := mode.unlatch_eq_ok hl
      rw [← hbpm, ← hguards] at h
      rw [← hguards] at hx
      exact h.drop hx hd
    · cases hs
  | Destroy x =>
    simp only [GuardWorld.step] at hs
    split at hs
    · rename_i g hx
      obtain ⟨w₁, hd, hs⟩ := except_bind_eq_ok.1 hs
      cases hs
      exact h.destroy hx hd
    · rename_i mode g hx
      obtain ⟨w₁, hd, hs⟩ := except_bind_eq_ok.1 hs
      cases hs
      obtain ⟨w₂, hl, hd⟩ := except_bind_eq_ok.1 hd
      have hw₂ : w₂.bpm = w.bpm ∧ w₂.guards = w.guards := by
        split at hl
        · exact ⟨(mode.unlatch_eq_ok hl).1, (mode.unlatch_eq_ok hl).2.1⟩
        · cases hl
          exact ⟨rfl, rfl⟩
      rw [← hw₂.1, ← hw₂.2] at h
      rw [← hw₂.2] at hx
      exact h.destroy hx hd
    · cases hs

end PinLedger

namespace GuardWorld

/-- The guard worlds a fresh pool reaches under programs that keep the pool's contract and
    run without a fault. -/
inductive Reachable : GuardWorld → Prop
  | init (pool_size : Nat) (disk_manager : DiskManager) (replacer_k : Nat)
      (hpool : pool_size < 2 ^ 64) :
      Reachable (new (BufferPoolManager.new pool_size disk_manager replacer_k))
  | step {w w' : GuardWorld} (op : GuardOp) :
      Reachable w → op.Allowed w → w.step op = .ok w' → Reachable w'

/-- Whether every statement of a program keeps the pool's contract, each in the world it runs
    in. -/
def runAllowed (w : GuardWorld) : List GuardOp → Bool
  | [] => true
  | op :: ops => decide (op.Allowed w) && match w.step op with
    | .ok w' => runAllowed w' ops
    | .error _ => false

theorem Reachable.run {w w' : GuardWorld} {ops : List GuardOp} (hr : Reachable w)
    (hallowed : runAllowed w ops = true) (hrun : w.run ops = .ok w') : Reachable w' := by
  induction ops generalizing w with
  | nil => cases hrun; exact hr
  | cons op ops ih =>
    simp only [runAllowed, Bool.and_eq_true, decide_eq_true_eq] at hallowed
    simp only [GuardWorld.run] at hrun
    split at hrun
    · rename_i w₁ hstep
      rw [hstep] at hallowed
      exact ih (hr.step op hallowed.1 hstep) hallowed.2 hrun
    · cases hrun

/-- In every reachable guard world the guards account for every pin. -/
theorem Reachable.pinLedger {w : GuardWorld} (hr : Reachable w) : PinLedger w.bpm w.guards := by
  induction hr with
  | init pool_size disk_manager replacer_k hpool =>
    exact ⟨BufferPoolManager.Invariant.new pool_size disk_manager replacer_k hpool,
      fun p f hp => by simp [GuardWorld.new, BufferPoolManager.new] at hp,
      fun x gd f hx => by simp [GuardWorld.new] at hx⟩
  | step op _ hop hs ih => exact ih.step hop hs

/-- Whatever the guard program, as long as it keeps the pool's contract and runs without a
    fault, the guards account for every pin: a resident page's pin count is the number of guard
    variables holding its frame, a guard holds only a resident frame, and the pool keeps its
    invariant, its free and resident frames being the constructor's `static_cast<int>(i)`, each
    once, for a pool of at most `2 ^ 31` frames. Each pin a guard takes is thus released by the
    one `UnpinPage` made when the guard holding it is dropped, destroyed or assigned over. -/
theorem Reachable.pins_held_by_guards {w : GuardWorld} (hr : Reachable w)
    (hpool : w.bpm.pool_size_ ≤ 2 ^ 31) :
    PinLedger w.bpm w.guards ∧ List.Perm (w.bpm.free_list_ ++ w.bpm.residentFrames)
      ((List.range w.bpm.pool_size_).map fun i : Nat => toInt32 i) := by
  have h := hr.pinLedger
  have hframes := h.pool.frames
  rw [List.append_nil] at hframes
  exact ⟨h, (BufferPoolManager.frameIds_eq hpool).symm ▸ hframes⟩

/-- A new page whose basic guard stays in scope: its one pin is that guard's. -/
theorem pins_held_by_guards_one_guard :
    ∃ w, (GuardWorld.new (BufferPoolManager.new 2 DiskManager.new 2)).run
        [.NewPageGuarded 0 0] = .ok w ∧ w.bpm.pool_size_ ≤ 2 ^ 31 ∧
      (PinLedger w.bpm w.guards ∧ List.Perm (w.bpm.free_list_ ++ w.bpm.residentFrames)
        ((List.range w.bpm.pool_size_).map fun i : Nat => toInt32 i)) :=
  ⟨_, rfl, by decide, Reachable.pins_held_by_guards (@Reachable.run _ _ [.NewPageGuarded 0 0]
    (.init 2 DiskManager.new 2 (by decide)) (by decide) rfl) (by decide)⟩

/-- With no frame free and none evictable, the pool's calls for a page that is not resident
    return null and change nothing, and so do `FetchPageBasic` and `NewPageGuarded`, whose guard
    then holds no page. `FetchPageRead` and `FetchPageWrite` go on to latch the null page, and so
    do `UpgradeRead` and `UpgradeWrite` of that guard. -/
theorem exhausted_pool_latches_null {w : GuardWorld} (hfree : w.bpm.free_list_ = [])
    (hpinned : ∀ e ∈ w.bpm.replacer_.node_store_.entries, e.2.is_evictable_ = false)
    {page_id : Int} (hp : w.bpm.page_table_.find? page_id = none) (early_timestamp : Nat) :
    w.bpm.FetchPage page_id early_timestamp = .ok (none, w.bpm) ∧
      w.bpm.NewPage early_timestamp = .ok (none, w.bpm) ∧
      w.FetchPageBasic page_id early_timestamp = .ok (⟨true, none, false⟩, w) ∧
      w.NewPageGuarded early_timestamp = .ok (⟨true, none, false⟩, w) ∧
      w.FetchPageRead page_id early_timestamp = .error .null_page ∧
      w.FetchPageWrite page_id early_timestamp = .error .null_page ∧
      BasicPageGuard.UpgradeRead ⟨true, none, false⟩ w = .error .null_page ∧
      BasicPageGuard.UpgradeWrite ⟨true, none, false⟩ w = .error .null_page := by
  have hfetch := BufferPoolManager.FetchPage_of_exhausted hfree hpinned hp early_timestamp
  have hnew := BufferPoolManager.NewPage_of_exhausted hfree hpinned early_timestamp
  refine ⟨hfetch, hnew, ?_, ?_, ?_, ?_, rfl, rfl⟩ <;>
    simp only [FetchPageBasic, NewPageGuarded, FetchPageRead, FetchPageWrite, FetchPageLatched,
      hfetch, hnew] <;> rfl

/-- A pool of one frame whose only page is held by a guard: a fetch of page `1` through a read
    guard latches the null page. -/
theorem exhausted_pool_after_one_page :
    ∃ w, (GuardWorld.new (BufferPoolManager.new 1 DiskManager.new 2)).run [.NewPageGuarded 0 0] =
        .ok w ∧
      (w.bpm.FetchPage 1 0 = .ok (none, w.bpm) ∧ w.bpm.NewPage 0 = .ok (none, w.bpm) ∧
        w.FetchPageBasic 1 0 = .ok (⟨true, none, false⟩, w) ∧
        w.NewPageGuarded 0 = .ok (⟨true, none, false⟩, w) ∧
        w.FetchPageRead 1 0 = .error .null_page ∧ w.FetchPageWrite 1 0 = .error .null_page ∧
        BasicPageGuard.UpgradeRead ⟨true, none, false⟩ w = .error .null_page ∧
        BasicPageGuard.UpgradeWrite ⟨true, none, false⟩ w = .error .null_page) :=
  ⟨_, rfl, exhausted_pool_latches_null (by decide) (by decide) (by decide) 0⟩

end GuardWorld

end bustub
