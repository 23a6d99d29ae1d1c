import MiniBusTub.Storage.Page.PageGuardInvariant

namespace bustub

namespace Guard

/-- Whether the guard is a `mode` guard (`ReadPageGuard` or `WritePageGuard`) holding frame
    `f`. -/
def latchedOn (gd : Guard) (mode : LatchMode) (f : Int) : Bool :=
  match gd with
  | .basic _ => false
  | .latched m g => decide (m = mode ∧ g.page_ = some f)

@[simp] theorem latchedOn_basic (g : BasicPageGuard) (mode : LatchMode) (f : Int) :
    (Guard.basic g).latchedOn mode f = false := rfl

/-- A guard whose member has let go of its page is latched on no frame. -/
@[simp] theorem latchedOn_rewrap_release (gd : Guard) (g : BasicPageGuard) (mode : LatchMode)
    (f : Int) : (gd.rewrap { g with bpm_ := false, page_ := none }).latchedOn mode f = false := by
  cases gd <;> simp [rewrap, latchedOn]

/-- A new member over the same page keeps what the guard is latched on. -/
theorem latchedOn_rewrap (gd : Guard) {g : BasicPageGuard} (hg : g.page_ = gd.inner.page_)
    (mode : LatchMode) (f : Int) : (gd.rewrap g).latchedOn mode f = gd.latchedOn mode f := by
  cases gd <;> simp [rewrap, latchedOn, inner, hg]

end Guard

/-- How many guard variables are `mode` guards holding frame `f`. -/
def latchHolders (guards : UnorderedMap Nat Guard) (mode : LatchMode) (f : Int) : Nat :=
  guards.entries.countP (·.2.latchedOn mode f)

section LatchHolders

variable {G : UnorderedMap Nat Guard} {x : Nat} {gd₀ : Guard}

theorem latchHolders_insert_of_none (hx : G.find? x = none) (gd : Guard) (mode : LatchMode)
    (f : Int) : latchHolders (G.insert x gd) mode f =
      latchHolders G mode f + if gd.latchedOn mode f then 1 else 0 :=
  UnorderedMap.countP_insert_of_find?_eq_none (fun e : Nat × Guard => e.2.latchedOn mode f) gd hx

theorem latchHolders_insert_of_some (hx : G.find? x = some gd₀) (gd : Guard) (mode : LatchMode)
    (f : Int) : latchHolders (G.insert x gd) mode f + (if gd₀.latchedOn mode f then 1 else 0) =
      latchHolders G mode f + if gd.latchedOn mode f then 1 else 0 :=
  UnorderedMap.countP_insert_of_find?_eq_some (fun e : Nat × Guard => e.2.latchedOn mode f) hx gd

theorem latchHolders_erase_of_some (hx : G.find? x = some gd₀) (mode : LatchMode) (f : Int) :
    latchHolders (G.erase x) mode f + (if gd₀.latchedOn mode f then 1 else 0) =
      latchHolders G mode f :=
  UnorderedMap.countP_erase_of_find?_eq_some (fun e : Nat × Guard => e.2.latchedOn mode f) hx

theorem latchHolders_pos (hx : G.find? x = some gd₀) {mode : LatchMode} {f : Int}
    (h : gd₀.latchedOn mode f = true) : 0 < latchHolders G mode f :=
  List.countP_pos_iff.2 ⟨(x, gd₀), UnorderedMap.find?_eq_some_iff.1 hx, h⟩

end LatchHolders

/-- The latches account for the latched guards: a frame's read latch is held at least once for
    each read guard on it, a frame a write guard holds is write-latched and has no other write
    guard, and a write-latched frame has no reader. -/
structure LatchLedger (latches : Int → Latch) (guards : UnorderedMap Nat Guard) : Prop where
  readers : ∀ f, latchHolders guards .read f ≤ (latches f).readers
  writer : ∀ f, 0 < latchHolders guards .write f → (latches f).writer = true
  one_writer : ∀ f, latchHolders guards .write f ≤ 1
  exclusive : ∀ f, (latches f).writer = true → (latches f).readers = 0

namespace LatchLedger

variable {L : Int → Latch} {G G' : UnorderedMap Nat Guard}

theorem empty : LatchLedger (fun _ => ⟨0, false⟩) ∅ :=
  ⟨fun _ => Nat.zero_le 0, fun _ h => (lt_irrefl 0 h).elim, fun _ => Nat.zero_le 1, nofun⟩

/-- Guards that let go of frames, with no latch call, keep the ledger. -/
theorem mono (h : LatchLedger L G)
    (hle : ∀ mode f, latchHolders G' mode f ≤ latchHolders G mode f) : LatchLedger L G' :=
  ⟨fun f => (hle _ f).trans (h.readers f),
    fun f hpos => h.writer f (lt_of_lt_of_le hpos (hle _ f)),
    fun f => (hle _ f).trans (h.one_writer f), h.exclusive⟩

/-- A change to one frame's latch and to the guards on that frame keeps the ledger when the
    frame's own accounts hold. -/
theorem update (h : LatchLedger L G) {f : Int} {l : Latch}
    (hG : ∀ mode f', f' ≠ f → latchHolders G' mode f' = latchHolders G mode f')
    (hreaders : latchHolders G' .read f ≤ l.readers)
    (hwriter : 0 < latchHolders G' .write f → l.writer = true)
    (hone : latchHolders G' .write f ≤ 1) (hexclusive : l.writer = true → l.readers = 0) :
    LatchLedger (updateAt L f l) G' := by
  refine ⟨fun f' => ?_, fun f' => ?_, fun f' => ?_, fun f' => ?_⟩
  · rw [updateAt_apply]
    split_ifs with hf
    · subst hf; exact hreaders
    · exact hG _ _ hf ▸ h.readers f'
  · rw [updateAt_apply]
    split_ifs with hf
    · subst hf; exact hwriter
    · exact hG _ _ hf ▸ h.writer f'
  · by_cases hf : f' = f
    · subst hf; exact hone
    · exact hG _ _ hf ▸ h.one_writer f'
  · rw [updateAt_apply]
    split_ifs with hf
    · exact hexclusive
    · exact h.exclusive f'

/-- A frame that is not write-latched has no write guard. -/
theorem no_writer (h : LatchLedger L G) {f : Int} (hw : (L f).writer = false) :
    latchHolders G .write f = 0 :=
  Nat.eq_zero_of_not_pos fun hpos => by simp [h.writer f hpos] at hw

/-- A granted `RLatch` or `WLatch` for a new guard on the frame keeps the ledger. -/
theorem lock (h : LatchLedger L G) {x : Nat} {mode : LatchMode} {g : BasicPageGuard} {f : Int}
    {l : Latch} (hx : G.find? x = none) (hg : g.page_ = some f)
    (hl : Latch.lock mode (L f) = some l) :
    LatchLedger (updateAt L f l) (G.insert x (.latched mode g)) := by
  have hcount := latchHolders_insert_of_none hx (.latched mode g)
  have hG : ∀ m f', f' ≠ f → latchHolders (G.insert x (.latched mode g)) m f' =
      latchHolders G m f' := fun m f' hf => by simp [hcount, Guard.latchedOn, hg, Ne.symm hf]
  have hself : ∀ m, latchHolders (G.insert x (.latched mode g)) m f =
      latchHolders G m f + if mode = m then 1 else 0 := fun m => by
    simp [hcount, Guard.latchedOn, hg]
  cases mode with
  | read =>
    simp only [Latch.lock] at hl
    split_ifs at hl with hw
    cases hl
    have hw0 := h.no_writer (by simpa using hw)
    refine h.update hG ?_ (fun hpos => ?_) ?_ (fun hw' => absurd hw' hw)
    · simpa [hself] using h.readers f
    · simp [hself, hw0] at hpos
    · simpa [hself] using h.one_writer f
  | write =>
    simp only [Latch.lock] at hl
    split_ifs at hl with hw
    cases hl
    simp only [Bool.or_eq_true, not_or, decide_eq_true_eq, not_lt, Nat.le_zero] at hw
    have hw0 := h.no_writer (by simpa using hw.1)
    refine h.update hG ?_ (fun _ => rfl) ?_ (fun _ => hw.2)
    · simpa [hself] using h.readers f
    · simp [hself, hw0]

/-- A granted `RUnlatch` or `WUnlatch` of a guard's frame, the guard letting go of it, keeps
    the ledger. -/
theorem unlock (h : LatchLedger L G) {x : Nat} {mode : LatchMode} {g : BasicPageGuard}
    {f : Int} {l : Latch} (hx : G.find? x = some (.latched mode g)) (hg : g.page_ = some f)
    (hl : Latch.unlock mode (L f) = some l)
    (hcount : ∀ m f', latchHolders G' m f' +
      (if (Guard.latched mode g).latchedOn m f' then 1 else 0) = latchHolders G m f') :
    LatchLedger (updateAt L f l) G' := by
  have hG : ∀ m f', f' ≠ f → latchHolders G' m f' = latchHolders G m f' := fun m f' hf => by
    simpa [Guard.latchedOn, hg, Ne.symm hf] using hcount m f'
  have hself : ∀ m, latchHolders G' m f + (if mode = m then 1 else 0) = latchHolders G m f :=
    fun m => by simpa [Guard.latchedOn, hg] using hcount m f
  cases mode with
  | read =>
    simp only [Latch.unlock] at hl
    split_ifs at hl with hr
    cases hl
    have hw : (L f).writer = false := Bool.eq_false_iff.2 fun hw => hr (h.exclusive f hw)
    have hread : latchHolders G' .read f + 1 = latchHolders G .read f := by
      simpa using hself .read
    have hwrite : latchHolders G' .write f = latchHolders G .write f := by
      simpa using hself .write
    have := h.readers f
    have := h.no_writer hw
    exact h.update hG (by show _ ≤ (L f).readers - 1; omega) (fun _ => by omega)
      (hwrite ▸ h.one_writer f) (fun hw' => by simp [hw] at hw')
  | write =>
    simp only [Latch.unlock] at hl
    split_ifs at hl with hw
    cases hl
    have hread : latchHolders G' .read f = latchHolders G .read f := by
      simpa using hself .read
    have hwrite : latchHolders G' .write f + 1 = latchHolders G .write f := by
      simpa using hself .write
    have := h.one_writer f
    exact h.update hG (by rw [hread]; exact h.readers f) (fun hpos' => absurd hpos' (by omega))
      (by omega) nofun

end LatchLedger

namespace GuardWorld

variable {w w' : GuardWorld}

/-- What a latch call grants: the lock of one frame, through a non-null page. -/
theorem latch_latches {op : LatchMode → Latch → Option Latch} {mode : LatchMode}
    {fault : Fault} {page_ : Option Int} (h : w.latch op mode fault page_ = .ok w') :
    ∃ f l, page_ = some f ∧ op mode (w.latches f) = some l ∧
      w'.latches = updateAt w.latches f l ∧ w'.bpm = w.bpm ∧ w'.guards = w.guards := by
  unfold latch at h
  split at h
  · cases h
  · rename_i f
    split at h
    · cases h
    · rename_i l hl
      cases h
      exact ⟨f, l, rfl, hl, rfl, rfl, rfl⟩

theorem UnpinPage_latches {page_id : Int} {is_dirty : Bool}
    (h : w.UnpinPage page_id is_dirty = .ok w') : w'.latches = w.latches := by
  unfold UnpinPage at h
  obtain ⟨⟨b, bpm⟩, -, h⟩ := except_bind_eq_ok.1 h
  cases h
  rfl

theorem FetchPageBasic_latches {page_id : Int} {e : Nat} {g : BasicPageGuard}
    (h : w.FetchPageBasic page_id e = .ok (g, w')) : w'.latches = w.latches := by
  unfold FetchPageBasic at h
  obtain ⟨⟨res, bpm⟩, -, h⟩ := except_bind_eq_ok.1 h
  cases h
  rfl

theorem NewPageGuarded_latches {e : Nat} {g : BasicPageGuard}
    (h : w.NewPageGuarded e = .ok (g, w')) : w'.latches = w.latches := by
  unfold NewPageGuarded at h
  obtain ⟨⟨res, bpm⟩, -, h⟩ := except_bind_eq_ok.1 h
  cases h
  rfl

/-- `FetchPageRead` / `FetchPageWrite` lock the frame of the page their guard holds. -/
theorem FetchPageLatched_latches {mode : LatchMode} {page_id : Int} {e : Nat}
    {g : BasicPageGuard} (h : w.FetchPageLatched mode page_id e = .ok (g, w')) :
    ∃ f l, g.page_ = some f ∧ Latch.lock mode (w.latches f) = some l ∧
      w'.latches = updateAt w.latches f l ∧ w'.guards = w.guards := by
  unfold FetchPageLatched at h
  obtain ⟨⟨res, bpm⟩, -, h⟩ := except_bind_eq_ok.1 h
  obtain ⟨w₁, hl, h⟩ := except_bind_eq_ok.1 h
  cases h
  cases mode <;> obtain ⟨f, l, hf, hlock, hlatches, -, hguards⟩ := latch_latches hl <;>
    exact ⟨f, l, hf, hlock, hlatches, hguards⟩

end GuardWorld

namespace LatchMode

variable {w w' : GuardWorld} {page_ : Option Int}

theorem latch_latches (mode : LatchMode) (h : mode.latch w page_ = .ok w') :
    ∃ f l, page_ = some f ∧ Latch.lock mode (w.latches f) = some l ∧
      w'.latches = updateAt w.latches f l ∧ w'.bpm = w.bpm ∧ w'.guards = w.guards := by
  cases mode <;> exact GuardWorld.latch_latches h

theorem unlatch_latches (mode : LatchMode) (h : mode.unlatch w page_ = .ok w') :
    ∃ f l, page_ = some f ∧ Latch.unlock mode (w.latches f) = some l ∧
      w'.latches = updateAt w.latches f l ∧ w'.bpm = w.bpm ∧ w'.guards = w.guards := by
  cases mode <;> exact GuardWorld.latch_latches h

end LatchMode

namespace BasicPageGuard

variable {g g' : BasicPageGuard} {w w' : GuardWorld}

theorem unpin_latches (h : g.unpin w = .ok w') : w'.latches = w.latches := by
  unfold unpin at h
  obtain ⟨pid, -, h⟩ := except_bind_eq_ok.1 h
  split at h
  · exact GuardWorld.UnpinPage_latches h
  · cases h

theorem Drop_latches (h : g.Drop w = .ok (g', w')) : w'.latches = w.latches := by
  rcases Drop_eq_ok h with ⟨-, rfl, -⟩ | ⟨hu, -⟩
  · rfl
  · exact unpin_latches hu

theorem destroy_latches (h : g.destroy w = .ok w') : w'.latches = w.latches := by
  rcases destroy_eq_ok h with ⟨rfl, -⟩ | ⟨g', hd⟩
  · rfl
  · exact Drop_latches hd

theorem Drop_guards (h : g.Drop w = .ok (g', w')) : w'.guards = w.guards := by
  rcases Drop_eq_ok h with ⟨-, rfl, -⟩ | ⟨hu, -⟩
  · rfl
  · obtain ⟨_, _, -, -, -, hguards⟩ := unpin_eq_ok hu
    exact hguards

theorem destroy_guards (h : g.destroy w = .ok w') : w'.guards = w.guards := by
  rcases destroy_eq_ok h with ⟨rfl, -⟩ | ⟨g', hd⟩
  · rfl
  · exact Drop_guards hd

theorem assign_guards {that : BasicPageGuard} {r : BasicPageGuard × BasicPageGuard}
    (h : g.assign that w = .ok (r, w')) : w'.guards = w.guards := by
  rcases (assign_eq_ok h).2 with ⟨-, -, rfl⟩ | hu
  · rfl
  · obtain ⟨_, _, -, -, -, hguards⟩ := unpin_eq_ok hu
    exact hguards

end BasicPageGuard

namespace GuardWorld

variable {w w' : GuardWorld}

/-- A move assignment goes through only between guards of one class, so the assigned-to guard
    becomes a guard of the class of the one it is assigned from. -/
theorem assignGuard_rewrap {gx gy : Guard} {r : BasicPageGuard × BasicPageGuard}
    (h : w.assignGuard gx gy = .ok (r, w')) : gx.rewrap gy.inner = gy := by
  cases gx <;> cases gy
  · rfl
  · cases h
  · cases h
  · simp only [assignGuard] at h
    split at h
    · rename_i hmode
      subst hmode
      rfl
    · cases h

end GuardWorld

/-- Storing in a variable a guard latched on what the old one was keeps every count. -/
theorem latchHolders_retag {G : UnorderedMap Nat Guard} {x : Nat} {gd : Guard}
    (hx : G.find? x = some gd) (gd' : Guard)
    (hgd : ∀ mode f, gd'.latchedOn mode f = gd.latchedOn mode f) (mode : LatchMode) (f : Int) :
    latchHolders (G.insert x gd') mode f = latchHolders G mode f := by
  have := latchHolders_insert_of_some hx gd' mode f
  rw [hgd] at this
  omega

namespace LatchLedger

open GuardWorld

variable {L : Int → Latch} {G : UnorderedMap Nat Guard} {w w' : GuardWorld}

/-- A new basic guard is latched on nothing. -/
theorem declare_basic (h : LatchLedger L G) {x : Nat} (hx : G.find? x = none)
    (g : BasicPageGuard) : LatchLedger L (G.insert x (.basic g)) :=
  h.mono fun mode f => by rw [latchHolders_insert_of_none hx]; simp

/-- A guard let go of, with no latch call, keeps the ledger. -/
theorem erase (h : LatchLedger L G) (x : Nat) : LatchLedger L (G.erase x) :=
  h.mono fun mode f => by
    cases hx : G.find? x with
    | none =>
      have : G.erase x = G := by
        apply UnorderedMap.ext
        simp only [UnorderedMap.erase]
        exact List.filter_eq_self.2 fun e he => by
          have : e.1 ≠ x := fun hex => by
            rw [← hex, UnorderedMap.find?_eq_some_iff.2 (by simpa using he)] at hx
            cases hx
          simpa using this
      rw [this]
    | some gd =>
      have := latchHolders_erase_of_some hx mode f
      omega

/-- Every statement of a guard program that runs without a fault keeps the latch ledger,
    given that the guards account for the pins. -/
theorem step (hp : PinLedger w.bpm w.guards) (h : LatchLedger w.latches w.guards)
    {op : GuardOp} (hs : w.step op = .ok w') : LatchLedger w'.latches w'.guards := by
  cases op with
  | FetchPageBasic x page_id e =>
    obtain ⟨⟨g, w₁⟩, hf, hd⟩ := except_bind_eq_ok.1 hs
    obtain ⟨-, -, -, hguards⟩ := FetchPageBasic_eq_ok hf
    obtain ⟨hx, rfl⟩ := declare_eq_ok hd
    rw [hguards] at hx ⊢
    rw [FetchPageBasic_latches hf]
    exact h.declare_basic hx g
  | FetchPageRead x page_id e | FetchPageWrite x page_id e =>
    obtain ⟨⟨g, w₁⟩, hf, hd⟩ := except_bind_eq_ok.1 hs
    obtain ⟨f, l, hg, hl, hlatches, hguards⟩ := FetchPageLatched_latches hf
    obtain ⟨hx, rfl⟩ := declare_eq_ok hd
    rw [hguards] at hx ⊢
    rw [hlatches]
    exact h.lock hx hg hl
  | NewPageGuarded x e =>
    obtain ⟨⟨g, w₁⟩, hf, hd⟩ := except_bind_eq_ok.1 hs
    obtain ⟨-, -, -, hguards⟩ := NewPageGuarded_eq_ok hf
    obtain ⟨hx, rfl⟩ := declare_eq_ok hd
    rw [hguards] at hx ⊢
    rw [NewPageGuarded_latches hf]
    exact h.declare_basic hx g
  | Move x y =>
    simp only [GuardWorld.step] at hs
    split at hs
    · rename_i gy hx hy
      obtain ⟨⟨⟨g, g'⟩, w₁⟩, hm, hd⟩ := except_bind_eq_ok.1 hs
      obtain ⟨hr, rfl⟩ := moveGuard_eq_ok hm
      simp only [BasicPageGuard.move, Prod.mk.injEq] at hr
      obtain ⟨rfl, rfl⟩ := hr
      obtain ⟨hx', rfl⟩ := declare_eq_ok hd
      dsimp only [GuardWorld.set] at hx' ⊢
      -- `y` lets go of its page and `x` takes it over
      refine h.mono fun m f => le_of_eq ?_
      have h₁ := latchHolders_insert_of_some hy
        (gy.rewrap { gy.inner with bpm_ := false, page_ := none }) m f
      have h₂ := latchHolders_insert_of_none hx' (gy.rewrap gy.inner) m f
      simp only [Guard.latchedOn_rewrap_release, Bool.false_eq_true, if_false,
        Nat.add_zero] at h₁
      rw [Guard.latchedOn_rewrap _ rfl] at h₂
      omega
    · cases hs
  | MoveAssign x y =>
    simp only [GuardWorld.step] at hs
    split at hs
    · rename_i gx gy hx hy
      obtain ⟨⟨⟨a, b⟩, w₁⟩, ha, hs⟩ := except_bind_eq_ok.1 hs
      cases hs
      have ha' := assignGuard_eq_ok ha
      obtain ⟨hr, -⟩ := BasicPageGuard.assign_eq_ok ha'
      simp only [BasicPageGuard.move, Prod.mk.injEq] at hr
      obtain ⟨rfl, rfl⟩ := hr
      have hclass := assignGuard_rewrap ha
      dsimp only [GuardWorld.set]
      rw [BasicPageGuard.assign_latches ha', BasicPageGuard.assign_guards ha', hclass]
      -- `x` lets go of its page, leaving its latch held, and takes over the page of `y`
      have hy' : (w.guards.insert x gy).find? y = some gy := by
        rw [UnorderedMap.find?_insert]
        split_ifs with hyx
        · rfl
        · exact hy
      refine h.mono fun m f => ?_
      have h₁ := latchHolders_insert_of_some hx gy m f
      have h₂ := latchHolders_insert_of_some hy'
        (gy.rewrap { gy.inner with bpm_ := false, page_ := none }) m f
      simp only [Guard.latchedOn_rewrap_release, Bool.false_eq_true, if_false,
        Nat.add_zero] at h₂
      omega
    · cases hs
  | UpgradeRead x y | UpgradeWrite x y =>
    simp only [GuardWorld.step] at hs
    split at hs
    · rename_i g hx₀ hy
      obtain ⟨⟨⟨g₁, g₂⟩, w₁⟩, hu, hd⟩ := except_bind_eq_ok.1 hs
      obtain ⟨hl, rfl, rfl⟩ := BasicPageGuard.Upgrade_eq_ok hu
      obtain ⟨f, l, hg, hlock, hlatches, -, hguards⟩ := latch_latches hl
      obtain ⟨hx, rfl⟩ := declare_eq_ok hd
      dsimp only [GuardWorld.set] at hx ⊢
      rw [hlatches]
      rw [hguards] at hx ⊢
      -- `y` stays a basic guard, and `x` is a new latched guard on its frame
      have hbasic : LatchLedger w.latches (w.guards.insert y (.basic
          { g with bpm_ := false, page_ := none })) :=
        h.mono fun m f => le_of_eq (latchHolders_retag hy
          (.basic { g with bpm_ := false, page_ := none }) (fun _ _ => rfl) m f)
      exact hbasic.lock hx hg hlock
    · cases hs
  | AsMut x =>
    simp only [GuardWorld.step] at hs
    -- a basic and a write guard take the same path; any other is refused
    split at hs
    all_goals first
      | rename_i g hx
        obtain ⟨g', hg, hs⟩ := except_bind_eq_ok.1 hs
        cases hs
        obtain ⟨-, hpage⟩ := BasicPageGuard.GetDataMut_eq_ok hg
        exact h.mono fun m f => le_of_eq
          (latchHolders_retag hx _ (fun _ _ => by simp [Guard.latchedOn, hpage]) m f)
      | cases hs
  | Drop x =>
    simp only [GuardWorld.step] at hs
    split at hs
    · rename_i g hx
      obtain ⟨⟨g', w₁⟩, hd, hs⟩ := except_bind_eq_ok.1 hs
      cases hs
      dsimp only [GuardWorld.set]
      rw [BasicPageGuard.Drop_latches hd, BasicPageGuard.Drop_guards hd]
      exact h.mono fun m f => le_of_eq (latchHolders_retag hx (.basic g') (fun _ _ => rfl) m f)
    · rename_i mode g hx
      obtain ⟨⟨g', w₁⟩, hd, hs⟩ := except_bind_eq_ok.1 hs
      cases hs
      obtain ⟨w₂, hl, hd⟩ := except_bind_eq_ok.1 hd
      obtain ⟨f, l, hg, hunlock, hlatches, hbpm, hguards⟩ := mode.unlatch_latches hl
      dsimp only [GuardWorld.set]
      rw [BasicPageGuard.Drop_latches hd, BasicPageGuard.Drop_guards hd, hlatches, hguards]
      rcases BasicPageGuard.Drop_eq_ok hd with ⟨-, -, hpin⟩ | ⟨-, rfl⟩
      · -- the guard's frame is pinned, at least by the guard itself
        obtain ⟨p, hp'⟩ := BufferPoolManager.mem_residentFrames.1
          (hp.held x _ f hx (by simpa [Guard.inner] using hg)).1
        have hpos := holders_pos hx (show (Guard.latched mode g).inner.page_ = some f from hg)
        have := hp.pins p f hp'
        have := hpin f hg
        rw [hbpm] at this
        omega
      · refine h.unlock hx hg hunlock fun m f' => ?_
        have := latchHolders_insert_of_some hx
          (.latched mode { g with bpm_ := false, page_ := none }) m f'
        simp only [Guard.latchedOn, reduceCtorEq, and_false, decide_False,
          Bool.false_eq_true, if_false, Nat.add_zero] at this ⊢
        omega
    · cases hs
  | Destroy x =>
    simp only [GuardWorld.step] at hs
    split at hs
    · rename_i g hx
      obtain ⟨w₁, hd, hs⟩ := except_bind_eq_ok.1 hs
      cases hs
      dsimp only
      rw [BasicPageGuard.destroy_latches hd, BasicPageGuard.destroy_guards hd]
      exact h.erase x
    · rename_i mode g hx
      obtain ⟨w₁, hd, hs⟩ := except_bind_eq_ok.1 hs
      cases hs
      obtain ⟨w₂, hl, hd⟩ := except_bind_eq_ok.1 hd
      dsimp only
      rw [BasicPageGuard.destroy_latches hd, BasicPageGuard.destroy_guards hd]
      split at hl
      · obtain ⟨f, l, hg, hunlock, hlatches, -, hguards⟩ := mode.unlatch_latches hl
        rw [hlatches, hguards]
        exact h.unlock hx hg hunlock (latchHolders_erase_of_some hx)
      · cases hl
        exact h.erase x
    · cases hs

end LatchLedger

namespace GuardWorld

/-- In every reachable guard world the guards account for the pins and for the latches. -/
theorem Reachable.ledgers {w : GuardWorld} (hr : Reachable w) :
    PinLedger w.bpm w.guards ∧ LatchLedger w.latches w.guards := by
  refine ⟨hr.pinLedger, ?_⟩
  induction hr with
  | init => exact LatchLedger.empty
  | step op hr _ hs ih => exact ih.step hr.pinLedger hs

/-- Whatever the guard program, as long as it keeps the pool's contract and runs without a
    fault, a frame's read latch is held at least once for each `ReadPageGuard` on it, and a
    frame a `WritePageGuard` holds is write-latched and held by no other `ReadPageGuard` or
    `WritePageGuard`: the guards' latches exclude each other as a reader/writer lock should,
    the latches a move assignment leaks notwithstanding. -/
theorem Reachable.write_guard_exclusive {w : GuardWorld} (hr : Reachable w) :
    (∀ f, latchHolders w.guards .read f ≤ (w.latches f).readers) ∧
      ∀ x g f, w.guards.find? x = some (.latched .write g) → g.page_ = some f →
        (w.latches f).writer = true ∧ ∀ y mode g', w.guards.find? y = some (.latched mode g') →
          g'.page_ = some f → y = x := by
  obtain ⟨-, h⟩ := hr.ledgers
  refine ⟨h.readers, fun x g f hx hg => ?_⟩
  have hw := h.writer f (latchHolders_pos hx (by simp [Guard.latchedOn, hg]))
  refine ⟨hw, fun y mode g' hy hg' => ?_⟩
  by_contra hne
  -- the other guard is still counted once the write guard is set aside
  have herase := latchHolders_erase_of_some hx mode f
  have hother := latchHolders_pos
    (show (w.guards.erase x).find? y = some (.latched mode g') by simp [hne, hy])
    (show (Guard.latched mode g').latchedOn mode f = true by simp [Guard.latchedOn, hg'])
  cases mode with
  | read =>
    have := h.readers f
    have := h.exclusive f hw
    simp only [Guard.latchedOn, reduceCtorEq, false_and, decide_False, Bool.false_eq_true,
      if_false, Nat.add_zero] at herase
    omega
  | write =>
    have := h.one_writer f
    simp only [Guard.latchedOn, hg, and_self, decide_True, if_true] at herase
    omega

/-- A page made, released, and fetched for writing: the write guard holds the page's frame
    alone, under its write latch. -/
theorem write_guard_exclusive_one_writer :
    ∃ w, (GuardWorld.new (BufferPoolManager.new 2 DiskManager.new 2)).run
        [.NewPageGuarded 0 0, .Destroy 0, .FetchPageWrite 1 0 0] = .ok w ∧
      ((∀ f, latchHolders w.guards .read f ≤ (w.latches f).readers) ∧
        ∀ x g f, w.guards.find? x = some (.latched .write g) → g.page_ = some f →
          (w.latches f).writer = true ∧ ∀ y mode g',
            w.guards.find? y = some (.latched mode g') → g'.page_ = some f → y = x) :=
  ⟨_, rfl, Reachable.write_guard_exclusive (@Reachable.run _ _
    [.NewPageGuarded 0 0, .Destroy 0, .FetchPageWrite 1 0 0]
    (.init 2 DiskManager.new 2 (by decide)) (by decide) rfl)⟩

end GuardWorld

end bustub
