import MiniBusTub.Common.Config
import MiniBusTub.Common.UnorderedMap
import Mathlib.Data.List.Perm.Subperm

namespace bustub

/-- `INF`: the backward k-distance of a frame with fewer than `k` accesses, `INT32_MAX`. -/
def INF : Nat := 2 ^ 31 - 1

/-- `LRUKNode`: the frame's access timestamps, most recent first. -/
structure LRUKNode where
  history_ : List Nat
  fid_ : Int
  k_ : Nat
  is_evictable_ : Bool
  deriving DecidableEq

namespace LRUKNode

/-- The constructor records the first access. -/
def new (fid : Int) (current_timestamp_ k : Nat) : LRUKNode := ⟨[current_timestamp_], fid, k, false⟩

def GetEvictable (self : LRUKNode) : Bool := self.is_evictable_

def SetEvictable (self : LRUKNode) (set_evictable : Bool) : LRUKNode :=
  { self with is_evictable_ := set_evictable }

/-- `GetKDistance`: `INF` below `k` accesses, else the `size_t` distance from the `k`-th most
    recent access to `current_timestamp_`. -/
def GetKDistance (self : LRUKNode) (current_timestamp_ : Nat) : Nat :=
  if self.history_.length < self.k_ then INF
  else subMod 64 current_timestamp_ (self.history_.getD (self.k_ - 1) 0)

/-- `GetEarlyTimestamp`: the back of the history. -/
def GetEarlyTimestamp (self : LRUKNode) : Nat := self.history_.getLast?.getD 0

def RecordAccess (self : LRUKNode) (current_timestamp_ : Nat) : LRUKNode :=
  { self with history_ := current_timestamp_ :: self.history_ }

@[simp] theorem SetEvictable_history (n : LRUKNode) (b : Bool) :
    (n.SetEvictable b).history_ = n.history_ := rfl

@[simp] theorem SetEvictable_is_evictable (n : LRUKNode) (b : Bool) :
    (n.SetEvictable b).is_evictable_ = b := rfl

@[simp] theorem RecordAccess_history (n : LRUKNode) (t : Nat) :
    (n.RecordAccess t).history_ = t :: n.history_ := rfl

@[simp] theorem RecordAccess_is_evictable (n : LRUKNode) (t : Nat) :
    (n.RecordAccess t).is_evictable_ = n.is_evictable_ := rfl

end LRUKNode

/-- `LRUKReplacer`. `node_store_` iterates in the order of its entries; `current_timestamp_`
    and `evictable_size_` are `size_t` counters. -/
structure LRUKReplacer where
  node_store_ : UnorderedMap Int LRUKNode
  current_timestamp_ : Nat
  evictable_size_ : Nat
  replacer_size_ : Nat
  k_ : Nat

namespace LRUKReplacer

def new (num_frames k : Nat) : LRUKReplacer := ⟨∅, 0, 0, num_frames, k⟩

/-- `RecordAccess`. A failed `BUSTUB_ASSERT` is an error carrying its message. -/
def RecordAccess (self : LRUKReplacer) (frame_id : Int) : Except String LRUKReplacer :=
  if ¬(frame_id ≥ 0 ∧ frame_id.toNat < self.replacer_size_) then .error "frame_id is out of range"
  else
    let current_timestamp_ := incMod 64 self.current_timestamp_
    match self.node_store_.find? frame_id with
    | none =>
      let new_LRUKNode := (LRUKNode.new frame_id current_timestamp_ self.k_).SetEvictable false
      .ok { self with
        current_timestamp_
        node_store_ := self.node_store_.insert frame_id new_LRUKNode }
    | some _ =>
      .ok { self with
        current_timestamp_
        node_store_ := self.node_store_.modify frame_id (·.RecordAccess current_timestamp_) }

/-- `SetEvictable`: the count moves only when the flag changes. -/
def SetEvictable (self : LRUKReplacer) (frame_id : Int) (set_evictable : Bool) :
    Except String LRUKReplacer :=
  match self.node_store_.find? frame_id with
  | none => .error "unknown exception!"
  | some now_frame =>
    if now_frame.GetEvictable && !set_evictable then
      .ok { self with
        node_store_ := self.node_store_.modify frame_id (·.SetEvictable false)
        evictable_size_ := decMod 64 self.evictable_size_ }
    else if !now_frame.GetEvictable && set_evictable then
      .ok { self with
        node_store_ := self.node_store_.modify frame_id (·.SetEvictable true)
        evictable_size_ := incMod 64 self.evictable_size_ }
    else .ok self

/-- `Remove`: an untracked frame is ignored, a non-evictable one fails the assertion. -/
def Remove (self : LRUKReplacer) (frame_id : Int) : Except String LRUKReplacer :=
  match self.node_store_.find? frame_id with
  | none => .ok self
  | some node =>
    if !node.GetEvictable then .error "frame id is not evictable"
    else
      .ok { self with
        node_store_ := self.node_store_.erase frame_id
        evictable_size_ := decMod 64 self.evictable_size_ }

/-- The loop of `Evict` over the nodes in iteration order, carrying `mx_k_distance`,
    `early_timestamp` and `evict_id`. -/
def Evict.scan (current_timestamp_ : Nat) :
    List (Int × LRUKNode) → Nat → Nat → Int → Nat × Nat × Int
  | [], mx_k_distance, early_timestamp, evict_id => (mx_k_distance, early_timestamp, evict_id)
  | (fid, node) :: rest, mx_k_distance, early_timestamp, evict_id =>
    if !node.GetEvictable then Evict.scan current_timestamp_ rest mx_k_distance early_timestamp evict_id
    else
      let now_k_distance := node.GetKDistance current_timestamp_
      if now_k_distance > mx_k_distance then
        Evict.scan current_timestamp_ rest now_k_distance node.GetEarlyTimestamp fid
      else if now_k_distance = mx_k_distance then
        let now_early_timestamp := node.GetEarlyTimestamp
        if early_timestamp > now_early_timestamp then
          Evict.scan current_timestamp_ rest mx_k_distance now_early_timestamp fid
        else Evict.scan current_timestamp_ rest mx_k_distance early_timestamp evict_id
      else Evict.scan current_timestamp_ rest mx_k_distance early_timestamp evict_id

/-- `Evict`, returning the evicted frame (`true` with `*frame_id`) or `none` (`false`).
    `early_timestamp` is declared without an initialiser: it is the value that variable holds
    on entry. -/
def Evict (self : LRUKReplacer) (early_timestamp : Nat) : Option Int × LRUKReplacer :=
  let (_, _, evict_id) :=
    Evict.scan self.current_timestamp_ self.node_store_.entries 0 early_timestamp (-1)
  if evict_id = -1 then (none, self)
  else
    (some evict_id, { self with
      node_store_ := self.node_store_.erase evict_id
      evictable_size_ := decMod 64 self.evictable_size_ })

def Size (self : LRUKReplacer) : Nat := self.evictable_size_

/-- A call of the replacer. `Evict` carries what its uninitialised `early_timestamp` holds. -/
inductive Op
  | RecordAccess (frame_id : Int)
  | SetEvictable (frame_id : Int) (set_evictable : Bool)
  | Remove (frame_id : Int)
  | Evict (early_timestamp : Nat)

def step (self : LRUKReplacer) : Op → Except String LRUKReplacer
  | .RecordAccess frame_id => self.RecordAccess frame_id
  | .SetEvictable frame_id set_evictable => self.SetEvictable frame_id set_evictable
  | .Remove frame_id => self.Remove frame_id
  | .Evict early_timestamp => .ok (self.Evict early_timestamp).2

/-- A sequence of calls, stopped by the first failed assertion. -/
def run (self : LRUKReplacer) : List Op → Except String LRUKReplacer
  | [] => .ok self
  | op :: ops => match self.step op with
    | .ok self => self.run ops
    | .error e => .error e

theorem run_append (r : LRUKReplacer) (ops ops' : List Op) :
    r.run (ops ++ ops') = (r.run ops).bind (·.run ops') := by
  induction ops generalizing r with
  | nil => rfl
  | cons op ops ih =>
    simp only [List.cons_append, run]
    cases r.step op with
    | ok r' => exact ih r'
    | error e => rfl

theorem run_append_of_ok {r r' : LRUKReplacer} {ops : List Op} (h : r.run ops = .ok r')
    (ops' : List Op) : r.run (ops ++ ops') = r'.run ops' := by
  rw [run_append, h]
  rfl

section Steps

variable {r r' : LRUKReplacer} {frame_id : Int}

/-- What a successful `RecordAccess` did: the clock ticks, and the frame either gets a new,
    non-evictable node or its node records the new timestamp. -/
theorem RecordAccess_ok (h : r.RecordAccess frame_id = .ok r') :
    (frame_id ≥ 0 ∧ frame_id.toNat < r.replacer_size_) ∧
      r'.current_timestamp_ = incMod 64 r.current_timestamp_ ∧
      r'.evictable_size_ = r.evictable_size_ ∧
      ((r.node_store_.find? frame_id = none ∧ r'.node_store_ = r.node_store_.insert frame_id
          ⟨[incMod 64 r.current_timestamp_], frame_id, r.k_, false⟩) ∨
        (∃ n, r.node_store_.find? frame_id = some n ∧ r'.node_store_ =
          r.node_store_.modify frame_id (·.RecordAccess (incMod 64 r.current_timestamp_)))) := by
  unfold RecordAccess at h
  split_ifs at h with hrange
  refine ⟨hrange, ?_⟩
  split at h <;> (simp only [Except.ok.injEq] at h; subst h)
  · exact ⟨rfl, rfl, .inl ⟨‹_›, rfl⟩⟩
  · exact ⟨rfl, rfl, .inr ⟨_, ‹_›, rfl⟩⟩

/-- What a successful `SetEvictable` did: the frame is tracked, and its flag and the count
    change together, or neither does. -/
theorem SetEvictable_ok {set_evictable : Bool} (h : r.SetEvictable frame_id set_evictable = .ok r') :
    ∃ n, r.node_store_.find? frame_id = some n ∧ r'.current_timestamp_ = r.current_timestamp_ ∧
      ((n.is_evictable_ = true ∧ set_evictable = false ∧
          r'.node_store_ = r.node_store_.modify frame_id (·.SetEvictable false) ∧
          r'.evictable_size_ = decMod 64 r.evictable_size_) ∨
        (n.is_evictable_ = false ∧ set_evictable = true ∧
          r'.node_store_ = r.node_store_.modify frame_id (·.SetEvictable true) ∧
          r'.evictable_size_ = incMod 64 r.evictable_size_) ∨
        (n.is_evictable_ = set_evictable ∧ r' = r)) := by
  unfold SetEvictable at h
  split at h
  · cases h
  · rename_i n hn
    refine ⟨n, hn, ?_⟩
    simp only [LRUKNode.GetEvictable] at h
    split_ifs at h with h₁ h₂ <;> (simp only [Except.ok.injEq] at h; subst h)
    · simp only [Bool.and_eq_true, Bool.not_eq_true'] at h₁
      exact ⟨rfl, .inl ⟨h₁.1, h₁.2, rfl, rfl⟩⟩
    · simp only [Bool.and_eq_true, Bool.not_eq_true'] at h₂
      exact ⟨rfl, .inr (.inl ⟨h₂.1, h₂.2, rfl, rfl⟩)⟩
    · refine ⟨rfl, .inr (.inr ⟨?_, rfl⟩)⟩
      cases hev : n.is_evictable_ <;> cases set_evictable <;> simp_all

/-- What a successful `Remove` did: nothing for an untracked frame, else it dropped an
    evictable node and decremented the count. -/
theorem Remove_ok (h : r.Remove frame_id = .ok r') :
    (r.node_store_.find? frame_id = none ∧ r' = r) ∨
      (∃ n, r.node_store_.find? frame_id = some n ∧ n.is_evictable_ = true ∧ r' = { r with
        node_store_ := r.node_store_.erase frame_id
        evictable_size_ := decMod 64 r.evictable_size_ }) := by
  unfold Remove at h
  split at h
  · cases h; exact .inl ⟨‹_›, rfl⟩
  · rename_i n hn
    split_ifs at h with hev
    simp only [Except.ok.injEq] at h
    subst h
    simp only [LRUKNode.GetEvictable, Bool.not_eq_true', Bool.not_eq_false] at hev
    exact .inr ⟨n, hn, hev, rfl⟩

/-- The frame `Evict.scan` settles on, over a part `l` of the entries `L`, is `-1` or an
    evictable entry of `L`, given that the frame it starts from is. -/
theorem Evict.scan_victim (c : Nat) {L l : List (Int × LRUKNode)} (hl : ∀ e ∈ l, e ∈ L)
    (mx early : Nat) (id : Int) (hid : id = -1 ∨ ∃ n, (id, n) ∈ L ∧ n.is_evictable_ = true) :
    (Evict.scan c l mx early id).2.2 = -1 ∨
      ∃ n, ((Evict.scan c l mx early id).2.2, n) ∈ L ∧ n.is_evictable_ = true := by
  induction l generalizing mx early id with
  | nil => exact hid
  | cons e rest ih =>
    obtain ⟨fid, node⟩ := e
    have hrest : ∀ e ∈ rest, e ∈ L := fun e he => hl e (List.mem_cons_of_mem _ he)
    have hnew : node.is_evictable_ = true → (fid = -1 ∨ ∃ n, (fid, n) ∈ L ∧ n.is_evictable_ = true) :=
      fun hev => .inr ⟨node, hl _ (List.mem_cons_self _ _), hev⟩
    simp only [Evict.scan, LRUKNode.GetEvictable, Bool.not_eq_true']
    split_ifs with hev <;> first
      | exact ih hrest _ _ _ hid
      | exact ih hrest _ _ _ (hnew (by simpa using hev))

/-- `Evict` either finds no victim and changes nothing, or drops one evictable tracked frame
    and decrements the count. -/
theorem Evict_victim (r : LRUKReplacer) (early_timestamp : Nat) :
    ((r.Evict early_timestamp).1 = none ∧ (r.Evict early_timestamp).2 = r) ∨
      ∃ fid n, (r.Evict early_timestamp).1 = some fid ∧ (fid, n) ∈ r.node_store_.entries ∧
        n.is_evictable_ = true ∧ (r.Evict early_timestamp).2 = { r with
          node_store_ := r.node_store_.erase fid
          evictable_size_ := decMod 64 r.evictable_size_ } := by
  have hvictim := Evict.scan_victim r.current_timestamp_
    (fun e (he : e ∈ r.node_store_.entries) => he) 0 early_timestamp (-1) (.inl rfl)
  simp only [Evict]
  split_ifs with hid
  · exact .inl ⟨rfl, rfl⟩
  · obtain ⟨n, hn, hev⟩ := hvictim.resolve_left hid
    exact .inr ⟨_, n, rfl, hn, hev, rfl⟩

/-- The uninitialised `early_timestamp` is overwritten at the first evictable frame of positive
    k-distance: when that frame comes first, `Evict` does not depend on it. -/
theorem Evict_fst_eq_of_head {fid : Int} {node : LRUKNode} {rest : List (Int × LRUKNode)}
    (hentries : r.node_store_.entries = (fid, node) :: rest) (hev : node.is_evictable_ = true)
    (hpos : 0 < node.GetKDistance r.current_timestamp_) (early early' : Nat) :
    (r.Evict early).1 = (r.Evict early').1 := by
  simp only [Evict, hentries, Evict.scan, LRUKNode.GetEvictable, hev, Bool.not_true,
    Bool.false_eq_true, if_false, if_pos hpos]

theorem RecordAccess_of_find? {n : LRUKNode} (hf : r.node_store_.find? frame_id = some n)
    (hrange : frame_id ≥ 0 ∧ frame_id.toNat < r.replacer_size_) :
    r.RecordAccess frame_id = .ok { r with
      current_timestamp_ := incMod 64 r.current_timestamp_
      node_store_ := r.node_store_.modify frame_id (·.RecordAccess (incMod 64 r.current_timestamp_)) } := by
  simp only [RecordAccess, hrange, not_true_eq_false, and_self, if_false, hf]

/-- The timestamps `m` calls of `RecordAccess` hand out after `c`, most recent first. -/
def stamps (c : Nat) : Nat → List Nat
  | 0 => []
  | m + 1 => (c + m + 1) % 2 ^ 64 :: stamps c m

/-- `m` calls of `RecordAccess` on a tracked frame: the clock advances by `m`, and the frame's
    history gains the `m` new timestamps; nothing else changes. -/
theorem run_replicate_RecordAccess {n : LRUKNode}
    (hrange : frame_id ≥ 0 ∧ frame_id.toNat < r.replacer_size_)
    (hf : r.node_store_.find? frame_id = some n) (hc : r.current_timestamp_ < 2 ^ 64) (m : Nat) :
    r.run (List.replicate m (.RecordAccess frame_id)) = .ok { r with
      current_timestamp_ := (r.current_timestamp_ + m) % 2 ^ 64
      node_store_ := r.node_store_.modify frame_id
        fun n => { n with history_ := stamps r.current_timestamp_ m ++ n.history_ } } := by
  induction m with
  | zero =>
    have hid : (fun n : LRUKNode => { n with history_ := stamps r.current_timestamp_ 0 ++ n.history_ }) = id := rfl
    simp only [List.replicate, run, Nat.add_zero, Nat.mod_eq_of_lt hc, hid, UnorderedMap.modify_id]
  | succ m ih =>
    rw [List.replicate_succ', run_append, ih]
    show run _ [.RecordAccess frame_id] = _
    simp only [run, step]
    rw [RecordAccess_of_find? (n := { n with history_ := stamps r.current_timestamp_ m ++ n.history_ })
      (by simp [hf]) (by exact hrange)]
    simp only [UnorderedMap.modify_modify, incMod, Nat.mod_add_mod]
    rfl

end Steps

/-- Whether the replacer tracks a frame and, if it does, the frame's evictable flag. -/
def flag (r : LRUKReplacer) (frame_id : Int) : Option Bool :=
  (r.node_store_.find? frame_id).map (·.is_evictable_)

section Flags

variable {r r' : LRUKReplacer} {frame_id : Int}

/-- Rewriting the nodes of one key, flags kept, keeps the number of evictable entries. -/
theorem countP_modify_of_flag (m : UnorderedMap Int LRUKNode) (k : Int) {f : LRUKNode → LRUKNode}
    (hf : ∀ n, (f n).is_evictable_ = n.is_evictable_) :
    (m.modify k f).entries.countP (·.2.is_evictable_) = m.entries.countP (·.2.is_evictable_) := by
  simp only [UnorderedMap.modify, List.countP_map]
  exact List.countP_congr fun e _ => by by_cases hk : e.1 = k <;> simp [hk, hf]

theorem RecordAccess_flag (h : r.RecordAccess frame_id = .ok r') (g : Int) :
    r'.flag g = if g = frame_id then some ((r.flag frame_id).getD false) else r.flag g := by
  obtain ⟨-, -, -, ⟨hf, hstore⟩ | ⟨n, hf, hstore⟩⟩ := RecordAccess_ok h <;>
    by_cases hg : g = frame_id <;>
    simp [flag, hstore, hf, hg]

/-- `RecordAccess` keeps the count right: the new node is not evictable. -/
theorem RecordAccess_size_eq (h : r.RecordAccess frame_id = .ok r')
    (hsize : r.evictable_size_ = r.node_store_.entries.countP (·.2.is_evictable_)) :
    r'.evictable_size_ = r'.node_store_.entries.countP (·.2.is_evictable_) := by
  obtain ⟨-, -, hsz, ⟨hf, hstore⟩ | ⟨n, hf, hstore⟩⟩ := RecordAccess_ok h <;> rw [hsz, hstore]
  · simp [UnorderedMap.insert_entries_of_find?_eq_none hf, hsize]
  · rw [countP_modify_of_flag _ _ (fun n => LRUKNode.RecordAccess_is_evictable n _), hsize]

theorem SetEvictable_flag {set_evictable : Bool}
    (h : r.SetEvictable frame_id set_evictable = .ok r') (g : Int) :
    r.flag frame_id ≠ none ∧
      r'.flag g = if g = frame_id then some set_evictable else r.flag g := by
  obtain ⟨n, hf, -, ⟨hev, rfl, hstore, -⟩ | ⟨hev, rfl, hstore, -⟩ | ⟨hev, rfl⟩⟩ :=
    SetEvictable_ok h <;> by_cases hg : g = frame_id <;> simp_all [flag]

/-- `SetEvictable` keeps the count right, given fewer than `2 ^ 64` tracked frames. -/
theorem SetEvictable_size_eq {set_evictable : Bool}
    (h : r.SetEvictable frame_id set_evictable = .ok r')
    (hsize : r.evictable_size_ = r.node_store_.entries.countP (·.2.is_evictable_))
    (hlen : r.node_store_.entries.length < 2 ^ 64) :
    r'.evictable_size_ = r'.node_store_.entries.countP (·.2.is_evictable_) := by
  obtain ⟨n, hfind, -, hcase⟩ := SetEvictable_ok h
  obtain ⟨l₁, l₂, hsplit, hk₁, hk₂⟩ := UnorderedMap.split_of_find? hfind
  have hle := List.countP_le_length (p := fun e : Int × LRUKNode => e.2.is_evictable_)
    (l := l₁ ++ l₂)
  rw [hsplit] at hsize hlen
  simp only [List.countP_append, List.countP_cons, List.length_append, List.length_cons]
    at hsize hlen hle
  rcases hcase with ⟨hev, -, hstore, hsz⟩ | ⟨hev, -, hstore, hsz⟩ | ⟨-, rfl⟩
  · rw [hstore, UnorderedMap.modify_entries_of_split hsplit hk₁ hk₂, hsz, hsize]
    simp only [hev, if_true] at hsize ⊢
    rw [decMod_of_pos (by omega) (by omega)]
    simp [List.countP_append, List.countP_cons]
  · rw [hstore, UnorderedMap.modify_entries_of_split hsplit hk₁ hk₂, hsz, hsize]
    simp only [hev, Bool.false_eq_true, if_false] at hsize ⊢
    rw [incMod_of_lt (by omega)]
    simp [List.countP_append, List.countP_cons]
    omega
  · rw [hsize, hsplit]
    simp [List.countP_append, List.countP_cons]

/-- Dropping an evictable node and decrementing the count keeps the count right. -/
theorem erase_size_eq {n : LRUKNode} (hfind : r.node_store_.find? frame_id = some n)
    (hev : n.is_evictable_ = true)
    (hsize : r.evictable_size_ = r.node_store_.entries.countP (·.2.is_evictable_))
    (hlen : r.node_store_.entries.length < 2 ^ 64) :
    decMod 64 r.evictable_size_ =
      (r.node_store_.erase frame_id).entries.countP (·.2.is_evictable_) := by
  obtain ⟨l₁, l₂, hsplit, hk₁, hk₂⟩ := UnorderedMap.split_of_find? hfind
  have hle := List.countP_le_length (p := fun e : Int × LRUKNode => e.2.is_evictable_)
    (l := l₁ ++ l₂)
  rw [UnorderedMap.erase_entries_of_split hsplit hk₁ hk₂, hsize, hsplit]
  rw [hsplit] at hlen
  simp only [hev, List.countP_append, List.countP_cons, if_true, List.length_append,
    List.length_cons] at hle hlen ⊢
  rw [decMod_of_pos (by omega) (by omega)]
  omega

theorem exists_RecordAccess (hrange : frame_id ≥ 0 ∧ frame_id.toNat < r.replacer_size_) :
    ∃ r', r.RecordAccess frame_id = .ok r' := by
  unfold RecordAccess
  rw [if_neg (not_not.2 hrange)]
  split <;> exact ⟨_, rfl⟩

theorem exists_SetEvictable (htracked : r.flag frame_id ≠ none) (set_evictable : Bool) :
    ∃ r', r.SetEvictable frame_id set_evictable = .ok r' := by
  unfold SetEvictable
  cases hf : r.node_store_.find? frame_id with
  | none => simp [flag, hf] at htracked
  | some n => dsimp only; split_ifs <;> exact ⟨_, rfl⟩

theorem RecordAccess_replacer_size (h : r.RecordAccess frame_id = .ok r') :
    r'.replacer_size_ = r.replacer_size_ := by
  unfold RecordAccess at h
  split_ifs at h
  split at h <;> cases h <;> rfl

theorem SetEvictable_replacer_size {set_evictable : Bool}
    (h : r.SetEvictable frame_id set_evictable = .ok r') : r'.replacer_size_ = r.replacer_size_ := by
  unfold SetEvictable at h
  split at h
  · cases h
  · split_ifs at h <;> (simp only [Except.ok.injEq] at h; subst h; rfl)

/-- A replacer whose tracked frames all lie in `L` has at most `L.length` nodes. -/
theorem length_le_of_flag {L : List Int} (hsub : ∀ g, r.flag g ≠ none → g ∈ L) :
    r.node_store_.entries.length ≤ L.length := by
  have hkeys : r.node_store_.keys ⊆ L := fun g hg => by
    obtain ⟨n, hn⟩ := UnorderedMap.mem_keys_iff.1 hg
    exact hsub g (by simp [flag, hn])
  simpa [UnorderedMap.keys] using (List.subperm_of_subset r.node_store_.nodup hkeys).length_le

theorem Remove_of_evictable {n : LRUKNode} (hfind : r.node_store_.find? frame_id = some n)
    (hev : n.is_evictable_ = true) :
    r.Remove frame_id = .ok { r with
      node_store_ := r.node_store_.erase frame_id
      evictable_size_ := decMod 64 r.evictable_size_ } := by
  simp [Remove, hfind, LRUKNode.GetEvictable, hev]

/-- The evictable entries, counted by key. -/
theorem countP_evictable_eq (r : LRUKReplacer) :
    r.node_store_.entries.countP (·.2.is_evictable_) =
      r.node_store_.keys.countP (fun g => r.flag g = some true) := by
  rw [UnorderedMap.keys, List.countP_map]
  refine List.countP_congr fun e he => ?_
  simp [flag, UnorderedMap.find?_eq_some_iff.2 he]

end Flags

end LRUKReplacer

end bustub
