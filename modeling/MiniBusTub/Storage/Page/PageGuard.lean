import MiniBusTub.Buffer.BufferPoolManager

namespace bustub

/-- The two ways a guard holds a page's `rwlatch_`: shared (`ReadPageGuard`) or exclusive
    (`WritePageGuard`). -/
inductive LatchMode
  | read
  | write
  deriving DecidableEq

/-- The state of one frame's reader/writer latch: the readers holding it, and whether a
    writer does. -/
structure Latch where
  readers : Nat
  writer : Bool
  deriving DecidableEq

namespace Latch

/-- `RLatch` / `WLatch` by a thread that already holds whatever stands in its way: `none` when
    the lock can never be granted. -/
def lock : LatchMode → Latch → Option Latch
  | .read, l => if l.writer then none else some { l with readers := l.readers + 1 }
  | .write, l => if l.writer || 0 < l.readers then none else some { l with writer := true }

/-- `RUnlatch` / `WUnlatch`: `none` when the latch is not held that way. -/
def unlock : LatchMode → Latch → Option Latch
  | .read, l => if l.readers = 0 then none else some { l with readers := l.readers - 1 }
  | .write, l => if l.writer then some { l with writer := false } else none

end Latch

/-- How a guard operation goes wrong: a failed assertion of the pool, a member access through a
    null `Page *` or `BufferPoolManager *`, an unlock of a latch that is not held, a lock the
    calling thread can never get, or a program that does not compile (a guard of the wrong
    class, a variable used undeclared or declared twice). -/
inductive Fault
  | assert (msg : String)
  | null_page
  | unlock_unheld
  | self_deadlock
  | ill_formed
  deriving DecidableEq

/-- `BasicPageGuard`: whether `bpm_` is set, the frame `page_` points to, and `is_dirty_`. -/
structure BasicPageGuard where
  bpm_ : Bool
  page_ : Option Int
  is_dirty_ : Bool
  deriving DecidableEq

/-- A guard variable of the program: a `BasicPageGuard`, or a `ReadPageGuard` /
    `WritePageGuard` around its member `guard_`. -/
inductive Guard
  | basic (guard : BasicPageGuard)
  | latched (mode : LatchMode) (guard_ : BasicPageGuard)
  deriving DecidableEq

/-- A single-threaded program's view of guards over one pool: the pool, each frame's latch,
    the guard variables in scope, and every `UnpinPage(page_id, is_dirty)` a guard made. -/
structure GuardWorld where
  bpm : BufferPoolManager
  latches : Int → Latch
  guards : UnorderedMap Nat Guard
  unpins : List (Int × Bool)

/-- A guard's class applied to a new member guard. -/
def Guard.rewrap : Guard → BasicPageGuard → Guard
  | .basic _, g => .basic g
  | .latched mode _, g => .latched mode g

namespace GuardWorld

/-- A pool with no guard in scope and every latch free. -/
def new (bpm : BufferPoolManager) : GuardWorld := ⟨bpm, fun _ => ⟨0, false⟩, ∅, []⟩

/-- `page_->RLatch()` and the like, through a possibly null `page_`. -/
def latch (w : GuardWorld) (op : LatchMode → Latch → Option Latch) (mode : LatchMode)
    (fault : Fault) (page_ : Option Int) : Except Fault GuardWorld :=
  match page_ with
  | none => .error .null_page
  | some frame_id =>
    match op mode (w.latches frame_id) with
    | none => .error fault
    | some l => .ok { w with latches := updateAt w.latches frame_id l }

def RLatch (w : GuardWorld) : Option Int → Except Fault GuardWorld :=
  w.latch Latch.lock .read .self_deadlock

def WLatch (w : GuardWorld) : Option Int → Except Fault GuardWorld :=
  w.latch Latch.lock .write .self_deadlock

def RUnlatch (w : GuardWorld) : Option Int → Except Fault GuardWorld :=
  w.latch Latch.unlock .read .unlock_unheld

def WUnlatch (w : GuardWorld) : Option Int → Except Fault GuardWorld :=
  w.latch Latch.unlock .write .unlock_unheld

/-- The pool's `UnpinPage`, logged. -/
def UnpinPage (w : GuardWorld) (page_id : Int) (is_dirty : Bool) : Except Fault GuardWorld := do
  let (_, bpm) ← (w.bpm.UnpinPage page_id is_dirty).mapError .assert
  pure { w with bpm, unpins := w.unpins ++ [(page_id, is_dirty)] }

end GuardWorld

namespace BasicPageGuard

/-- A guard that holds nothing: the default constructor, and what a move leaves behind. -/
def inert : BasicPageGuard := ⟨false, none, false⟩

/-- `PageId()`: `page_->GetPageId()`. -/
def PageId (self : BasicPageGuard) (w : GuardWorld) : Except Fault Int :=
  match self.page_ with
  | none => .error .null_page
  | some frame_id => .ok (w.bpm.pages_ frame_id).GetPageId

/-- `bpm_->UnpinPage(PageId(), is_dirty_)`. -/
def unpin (self : BasicPageGuard) (w : GuardWorld) : Except Fault GuardWorld := do
  let page_id ← self.PageId w
  if self.bpm_ then w.UnpinPage page_id self.is_dirty_ else .error .null_page

/-- The move constructor, returning the new guard and what is left of `that`. -/
def move (that : BasicPageGuard) : BasicPageGuard × BasicPageGuard :=
  (that, { that with bpm_ := false, page_ := none })

/-- `Drop`: nothing when `page_` is null or the page is not pinned; otherwise one `UnpinPage`,
    and the guard lets go of the page. -/
def Drop (self : BasicPageGuard) (w : GuardWorld) : Except Fault (BasicPageGuard × GuardWorld) :=
  match self.page_ with
  | none => .ok (self, w)
  | some frame_id =>
    if (w.bpm.pages_ frame_id).GetPinCount ≤ 0 then .ok (self, w)
    else do
      let w ← self.unpin w
      pure ({ self with bpm_ := false, page_ := none }, w)

/-- The move assignment `this = std::move(that)`, returning the new `this` and `that`: a guard
    with either pointer set unpins its page first. -/
def assign (self that : BasicPageGuard) (w : GuardWorld) :
    Except Fault ((BasicPageGuard × BasicPageGuard) × GuardWorld) := do
  let w ← (if self.bpm_ || self.page_.isSome then self.unpin w else pure w)
  pure (that.move, w)

/-- The destructor: `Drop` when both pointers are set. -/
def destroy (self : BasicPageGuard) (w : GuardWorld) : Except Fault GuardWorld :=
  if self.bpm_ && self.page_.isSome then (·.2) <$> self.Drop w else pure w

/-- `GetDataMut` (and `AsMut`): marks the guard dirty and dereferences `page_`. -/
def GetDataMut (self : BasicPageGuard) : Except Fault BasicPageGuard :=
  match self.page_ with
  | none => .error .null_page
  | some _ => .ok { self with is_dirty_ := true }

/-- `UpgradeRead` / `UpgradeWrite`: latch the page, hand `bpm_` and `page_` to a new guard
    built by the two-pointer constructor, and let go of them. -/
def Upgrade (self : BasicPageGuard) (lock : GuardWorld → Option Int → Except Fault GuardWorld)
    (w : GuardWorld) : Except Fault ((BasicPageGuard × BasicPageGuard) × GuardWorld) := do
  let w ← lock w self.page_
  pure ((⟨self.bpm_, self.page_, false⟩, { self with bpm_ := false, page_ := none }), w)

def UpgradeRead (self : BasicPageGuard) (w : GuardWorld) :
    Except Fault ((BasicPageGuard × BasicPageGuard) × GuardWorld) :=
  self.Upgrade GuardWorld.RLatch w

def UpgradeWrite (self : BasicPageGuard) (w : GuardWorld) :
    Except Fault ((BasicPageGuard × BasicPageGuard) × GuardWorld) :=
  self.Upgrade GuardWorld.WLatch w

section Lemmas

variable {g g' : BasicPageGuard} {w w' : GuardWorld}

/-- A move assignment onto a guard that holds nothing unpins nothing. -/
theorem assign_of_inert (that : BasicPageGuard) (hbpm : g.bpm_ = false)
    (hpage : g.page_ = none) : g.assign that w = .ok (that.move, w) := by
  simp [assign, hbpm, hpage]

/-- A move assignment touches no latch, whatever the assigned-to guard held. -/
theorem assign_latches {that : BasicPageGuard} {r : BasicPageGuard × BasicPageGuard}
    (h : g.assign that w = .ok (r, w')) : w'.latches = w.latches := by
  unfold assign at h
  obtain ⟨w₁, h₁, h⟩ := except_bind_eq_ok.1 h
  cases h
  split at h₁
  · obtain ⟨_, -, h₁⟩ := except_bind_eq_ok.1 h₁
    split at h₁
    · obtain ⟨_, -, h₁⟩ := except_bind_eq_ok.1 h₁
      cases h₁
      rfl
    · cases h₁
  · cases h₁
    rfl

end Lemmas

end BasicPageGuard

/-! `ReadPageGuard` and `WritePageGuard`, which differ only in their latch calls. -/

namespace LatchMode

def unlatch : LatchMode → GuardWorld → Option Int → Except Fault GuardWorld
  | .read => GuardWorld.RUnlatch
  | .write => GuardWorld.WUnlatch

def latch : LatchMode → GuardWorld → Option Int → Except Fault GuardWorld
  | .read => GuardWorld.RLatch
  | .write => GuardWorld.WLatch

/-- The move constructor: `this->guard_ = std::move(that.guard_)` on a default `guard_`. -/
def move (_ : LatchMode) (that : BasicPageGuard) (w : GuardWorld) :
    Except Fault ((BasicPageGuard × BasicPageGuard) × GuardWorld) :=
  BasicPageGuard.inert.assign that w

/-- The move assignment: `this->guard_ = std::move(that.guard_)`, with no unlatch. -/
def assign (_ : LatchMode) (guard_ that : BasicPageGuard) (w : GuardWorld) :
    Except Fault ((BasicPageGuard × BasicPageGuard) × GuardWorld) :=
  guard_.assign that w

/-- `Drop`: unlatch through `guard_.page_`, then `guard_.Drop()`. -/
def Drop (mode : LatchMode) (guard_ : BasicPageGuard) (w : GuardWorld) :
    Except Fault (BasicPageGuard × GuardWorld) := do
  let w ← mode.unlatch w guard_.page_
  guard_.Drop w

/-- The destructor: unlatch when both pointers are set, then destroy the member `guard_`. -/
def destroy (mode : LatchMode) (guard_ : BasicPageGuard) (w : GuardWorld) :
    Except Fault GuardWorld := do
  let w ← (if guard_.page_.isSome && guard_.bpm_ then mode.unlatch w guard_.page_ else pure w)
  guard_.destroy w

end LatchMode

namespace GuardWorld

/-- `FetchPageBasic`: the guard `{this, page}` over whatever `FetchPage` returned. -/
def FetchPageBasic (w : GuardWorld) (page_id : Int) (early_timestamp : Nat) :
    Except Fault (BasicPageGuard × GuardWorld) := do
  let (page, bpm) ← (w.bpm.FetchPage page_id early_timestamp).mapError .assert
  pure (⟨true, page, false⟩, { w with bpm })

/-- `FetchPageRead` / `FetchPageWrite`: `FetchPage`, then `page->RLatch()` (`WLatch()`) on
    the result, null or not. -/
def FetchPageLatched (w : GuardWorld) (mode : LatchMode) (page_id : Int)
    (early_timestamp : Nat) : Except Fault (BasicPageGuard × GuardWorld) := do
  let (page, bpm) ← (w.bpm.FetchPage page_id early_timestamp).mapError .assert
  let w ← mode.latch { w with bpm } page
  pure (⟨true, page, false⟩, w)

def FetchPageRead (w : GuardWorld) (page_id : Int) (early_timestamp : Nat) :
    Except Fault (BasicPageGuard × GuardWorld) :=
  w.FetchPageLatched .read page_id early_timestamp

def FetchPageWrite (w : GuardWorld) (page_id : Int) (early_timestamp : Nat) :
    Except Fault (BasicPageGuard × GuardWorld) :=
  w.FetchPageLatched .write page_id early_timestamp

/-- `NewPageGuarded`: the guard `{this, new_page}` over whatever `NewPage` returned. -/
def NewPageGuarded (w : GuardWorld) (early_timestamp : Nat) :
    Except Fault (BasicPageGuard × GuardWorld) := do
  let (page, bpm) ← (w.bpm.NewPage early_timestamp).mapError .assert
  pure (⟨true, page.map (·.2), false⟩, { w with bpm })

/-- One statement of a program holding guards in numbered variables. -/
inductive GuardOp
  /-- `auto x = bpm->FetchPageBasic(page_id);` -/
  | FetchPageBasic (x : Nat) (page_id : Int) (early_timestamp : Nat)
  | FetchPageRead (x : Nat) (page_id : Int) (early_timestamp : Nat)
  | FetchPageWrite (x : Nat) (page_id : Int) (early_timestamp : Nat)
  | NewPageGuarded (x : Nat) (early_timestamp : Nat)
  /-- `auto x = std::move(y);` -/
  | Move (x y : Nat)
  /-- `x = std::move(y);` -/
  | MoveAssign (x y : Nat)
  /-- `auto x = y.UpgradeRead();` -/
  | UpgradeRead (x y : Nat)
  | UpgradeWrite (x y : Nat)
  /-- `x.AsMut<T>()`, or `x.GetDataMut()`. -/
  | AsMut (x : Nat)
  | Drop (x : Nat)
  /-- `x` goes out of scope. -/
  | Destroy (x : Nat)

/-- Declares a fresh variable. -/
def declare (w : GuardWorld) (x : Nat) (g : Guard) : Except Fault GuardWorld :=
  match w.guards.find? x with
  | some _ => .error .ill_formed
  | none => .ok { w with guards := w.guards.insert x g }

/-- Stores into a declared variable. -/
def set (w : GuardWorld) (x : Nat) (g : Guard) : GuardWorld :=
  { w with guards := w.guards.insert x g }

/-- The move constructor of the guard's class. -/
def moveGuard (w : GuardWorld) :
    Guard → Except Fault ((BasicPageGuard × BasicPageGuard) × GuardWorld)
  | .basic g => .ok (g.move, w)
  | .latched mode g => mode.move g w

/-- The move assignment of the guards' class; guards of two classes do not assign. -/
def assignGuard (w : GuardWorld) :
    Guard → Guard → Except Fault ((BasicPageGuard × BasicPageGuard) × GuardWorld)
  | .basic g, .basic g' => g.assign g' w
  | .latched mode g, .latched mode' g' =>
    if mode = mode' then mode.assign g g' w else .error .ill_formed
  | _, _ => .error .ill_formed

def step (w : GuardWorld) : GuardOp → Except Fault GuardWorld
  | .FetchPageBasic x page_id early_timestamp => do
    let (g, w) ← w.FetchPageBasic page_id early_timestamp
    w.declare x (.basic g)
  | .FetchPageRead x page_id early_timestamp => do
    let (g, w) ← w.FetchPageRead page_id early_timestamp
    w.declare x (.latched .read g)
  | .FetchPageWrite x page_id early_timestamp => do
    let (g, w) ← w.FetchPageWrite page_id early_timestamp
    w.declare x (.latched .write g)
  | .NewPageGuarded x early_timestamp => do
    let (g, w) ← w.NewPageGuarded early_timestamp
    w.declare x (.basic g)
  | .Move x y =>
    match w.guards.find? x, w.guards.find? y with
    | none, some gy => do
      let ((g, g'), w) ← w.moveGuard gy
      (w.set y (gy.rewrap g')).declare x (gy.rewrap g)
    | _, _ => .error .ill_formed
  | .MoveAssign x y =>
    match w.guards.find? x, w.guards.find? y with
    | some gx, some gy => do
      let ((g, g'), w) ← w.assignGuard gx gy
      pure ((w.set x (gx.rewrap g)).set y (gy.rewrap g'))
    | _, _ => .error .ill_formed
  | .UpgradeRead x y =>
    match w.guards.find? x, w.guards.find? y with
    | none, some (.basic gy) => do
      let ((g, g'), w) ← gy.UpgradeRead w
      (w.set y (.basic g')).declare x (.latched .read g)
    | _, _ => .error .ill_formed
  | .UpgradeWrite x y =>
    match w.guards.find? x, w.guards.find? y with
    | none, some (.basic gy) => do
      let ((g, g'), w) ← gy.UpgradeWrite w
      (w.set y (.basic g')).declare x (.latched .write g)
    | _, _ => .error .ill_formed
  | .AsMut x =>
    match w.guards.find? x with
    | some (.basic g) => do let g ← g.GetDataMut; pure (w.set x (.basic g))
    | some (.latched .write g) => do let g ← g.GetDataMut; pure (w.set x (.latched .write g))
    | _ => .error .ill_formed
  | .Drop x =>
    match w.guards.find? x with
    | some (.basic g) => do let (g, w) ← g.Drop w; pure (w.set x (.basic g))
    | some (.latched mode g) => do let (g, w) ← mode.Drop g w; pure (w.set x (.latched mode g))
    | none => .error .ill_formed
  | .Destroy x =>
    match w.guards.find? x with
    | some (.basic g) => do
      let w ← g.destroy w
      pure { w with guards := w.guards.erase x }
    | some (.latched mode g) => do
      let w ← mode.destroy g w
      pure { w with guards := w.guards.erase x }
    | none => .error .ill_formed

/-- A program, stopped by the first fault. -/
def run (w : GuardWorld) : List GuardOp → Except Fault GuardWorld
  | [] => .ok w
  | op :: ops => match w.step op with
    | .ok w => w.run ops
    | .error e => .error e

/-- Guard programs on a fresh two-frame pool, each of them well formed, that break the guard
    contract. A page written through a basic guard is unpinned dirty when that guard is
    dropped, but clean when the guard is upgraded first. A `ReadPageGuard` dropped twice
    unlatches through a null `page_`. A `WritePageGuard` assigned over another keeps the first
    page's write latch after both are gone, so that page can never be fetched for writing
    again. -/
theorem run_breaks_guard_contract :
    ((new (BufferPoolManager.new 2 DiskManager.new 2)).run
        [.NewPageGuarded 0 0, .AsMut 0, .Drop 0]).toOption.map (·.unpins) = some [(0, true)] ∧
    ((new (BufferPoolManager.new 2 DiskManager.new 2)).run
        [.NewPageGuarded 0 0, .AsMut 0, .UpgradeWrite 1 0, .Drop 1]).toOption.map (·.unpins) =
      some [(0, false)] ∧
    (new (BufferPoolManager.new 2 DiskManager.new 2)).run
        [.NewPageGuarded 0 0, .Destroy 0, .FetchPageRead 0 0 0, .Drop 0, .Drop 0] =
      .error .null_page ∧
    (new (BufferPoolManager.new 2 DiskManager.new 2)).run
        [.NewPageGuarded 0 0, .Destroy 0, .NewPageGuarded 0 0, .Destroy 0, .FetchPageWrite 0 0 0,
          .FetchPageWrite 1 1 0, .MoveAssign 0 1, .Destroy 0, .Destroy 1,
          .FetchPageWrite 2 0 0] =
      .error .self_deadlock :=
  ⟨by decide, by decide, rfl, rfl⟩

end GuardWorld

end bustub
