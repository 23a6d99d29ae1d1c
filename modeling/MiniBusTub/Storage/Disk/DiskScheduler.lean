import MiniBusTub.Storage.Disk.DiskManager

namespace bustub

/-- `DiskRequest`: a write or a read of one page, the buffer `data_` it writes from or reads
    into, and the promise `callback_` it fulfils, buffers and promises named by numbers. -/
structure DiskRequest where
  is_write_ : Bool
  data_ : Nat
  page_id_ : Int
  callback_ : Nat
  deriving DecidableEq

namespace DiskRequest

/-- What the worker thread does with a request: `WritePage` from its buffer, or `ReadPage`
    into it. -/
def perform (r : DiskRequest) (io : DiskManager × (Nat → PageData)) :
    DiskManager × (Nat → PageData) :=
  if r.is_write_ then (io.1.WritePage r.page_id_ (io.2 r.data_), io.2)
  else
    let (data, disk_manager) := io.1.ReadPage r.page_id_ (io.2 r.data_)
    (disk_manager, updateAt io.2 r.data_ data)

end DiskRequest

/-- Where the worker thread is in `StartWorkerThread`'s loop: in `Get`, holding a request not
    yet handed to the disk manager, past its `WritePage` / `ReadPage` and before
    `set_value`, or returned on the sentinel. -/
inductive Worker
  | waiting
  | holding (r : DiskRequest)
  | performed (r : DiskRequest)
  | stopped
  deriving DecidableEq

namespace Worker

/-- The promise the worker has still to set for a request whose disk call returned. -/
def unfulfilled : Worker → List Nat
  | .waiting => []
  | .holding _ => []
  | .performed r => [r.callback_]
  | .stopped => []

end Worker

/-- `DiskScheduler`: its channel, as the FIFO queue `Put` appends to and `Get` takes from, its
    worker thread, the disk manager and the request buffers; and a record of the run: every
    `Put`, every request handed to the disk manager, every promise set, and the bytes of the
    last write of each page. -/
structure DiskScheduler where
  request_queue_ : List (Option DiskRequest)
  worker : Worker
  disk_manager_ : DiskManager
  buffers : Nat → PageData
  put : List (Option DiskRequest)
  executed : List DiskRequest
  fulfilled : List Nat
  written : Int → Option PageData

namespace DiskScheduler

/-- The constructor: an empty channel and the worker waiting on it. -/
def new (disk_manager : DiskManager) (buffers : Nat → PageData) : DiskScheduler :=
  ⟨[], .waiting, disk_manager, buffers, [], [], [], fun _ => none⟩

/-- `request_queue_.Put`, from any thread. -/
def Put (self : DiskScheduler) (x : Option DiskRequest) : DiskScheduler :=
  { self with request_queue_ := self.request_queue_ ++ [x], put := self.put ++ [x] }

/-- One atomic step of some thread. -/
inductive Event
  /-- A producer's `Schedule(r)`. -/
  | Schedule (r : DiskRequest)
  /-- The destructor's `Put(std::nullopt)`. -/
  | Shutdown
  /-- The worker's `Get()`, which waits while the channel is empty. -/
  | Get
  /-- The worker's `WritePage` or `ReadPage`. -/
  | Perform
  /-- The worker's `callback_.set_value(true)`. -/
  | Fulfil

def step (self : DiskScheduler) : Event → Option DiskScheduler
  | .Schedule r => some (self.Put (some r))
  | .Shutdown => some (self.Put none)
  | .Get =>
    match self.worker, self.request_queue_ with
    | .waiting, none :: rest => some { self with request_queue_ := rest, worker := .stopped }
    | .waiting, some r :: rest => some { self with request_queue_ := rest, worker := .holding r }
    | _, _ => none
  | .Perform =>
    match self.worker with
    | .holding r =>
      let (disk_manager_, buffers) := r.perform (self.disk_manager_, self.buffers)
      some { self with
        disk_manager_, buffers
        worker := .performed r
        executed := self.executed ++ [r]
        written := if r.is_write_ then
            updateAt self.written r.page_id_ (some (self.buffers r.data_))
          else self.written }
    | _ => none
  | .Fulfil =>
    match self.worker with
    | .performed r =>
      some { self with worker := .waiting, fulfilled := self.fulfilled ++ [r.callback_] }
    | _ => none

/-- Steps in sequence, `none` at the first one that cannot be taken. -/
def run (self : DiskScheduler) : List Event → Option DiskScheduler
  | [] => some self
  | e :: es => (self.step e).bind (·.run es)

/-- The states a scheduler built over `disk_manager` and `buffers` reaches, under any
    interleaving of any number of producers with the worker. -/
inductive Reachable (disk_manager : DiskManager) (buffers : Nat → PageData) :
    DiskScheduler → Prop
  | init : Reachable disk_manager buffers (new disk_manager buffers)
  | step {self self' : DiskScheduler} (e : Event) :
      Reachable disk_manager buffers self → self.step e = some self' →
      Reachable disk_manager buffers self'

theorem Reachable.run {disk_manager : DiskManager} {buffers : Nat → PageData}
    {self self' : DiskScheduler} {es : List Event}
    (hr : Reachable disk_manager buffers self) (hrun : self.run es = some self') :
    Reachable disk_manager buffers self' := by
  induction es generalizing self with
  | nil => cases hrun; exact hr
  | cons e es ih =>
    obtain ⟨s₁, h₁, hrun⟩ := Option.bind_eq_some.1 hrun
    exact ih (hr.step e h₁) hrun

/-- The requests put on the channel before its first sentinel. -/
def beforeSentinel : List (Option DiskRequest) → List DiskRequest
  | [] => []
  | none :: _ => []
  | some r :: rest => r :: beforeSentinel rest

/-- What the worker has taken off the channel, given where it is in its loop and what it has
    handed to the disk manager. -/
def taken : Worker → List DiskRequest → List (Option DiskRequest)
  | .waiting, executed => executed.map some
  | .holding r, executed => (executed ++ [r]).map some
  | .performed _, executed => executed.map some
  | .stopped, executed => executed.map some ++ [none]

/-- What holds of every reachable scheduler: the channel is what was put on it less what the
    worker took, in order; every request handed over has had its promise set but possibly the
    last, whose disk call has returned; and the disk and the buffers are those of running the
    requests handed over one after another. -/
structure Invariant (disk_manager : DiskManager) (buffers : Nat → PageData)
    (s : DiskScheduler) : Prop where
  queue : taken s.worker s.executed ++ s.request_queue_ = s.put
  fulfilled : s.fulfilled ++ s.worker.unfulfilled = s.executed.map (·.callback_)
  io : (s.disk_manager_, s.buffers) =
    s.executed.foldl (fun io r => r.perform io) (disk_manager, buffers)

section Steps

variable {self self' : DiskScheduler}

/-- Everything one step can do: a `Put` by any thread, the worker's `Get` of a sentinel or of a
    request, its disk call, or its `set_value`. -/
theorem step_cases {e : Event} (h : self.step e = some self') :
    (∃ x, self' = self.Put x) ∨
    (self.worker = .waiting ∧ ∃ rest, self.request_queue_ = none :: rest ∧
      self' = { self with request_queue_ := rest, worker := .stopped }) ∨
    (self.worker = .waiting ∧ ∃ r rest, self.request_queue_ = some r :: rest ∧
      self' = { self with request_queue_ := rest, worker := .holding r }) ∨
    (∃ r, self.worker = .holding r ∧ self' = { self with
      disk_manager_ := (r.perform (self.disk_manager_, self.buffers)).1
      buffers := (r.perform (self.disk_manager_, self.buffers)).2
      worker := .performed r
      executed := self.executed ++ [r]
      written := if r.is_write_ then updateAt self.written r.page_id_ (some (self.buffers r.data_))
        else self.written }) ∨
    (∃ r, self.worker = .performed r ∧
      self' = { self with worker := .waiting, fulfilled := self.fulfilled ++ [r.callback_] }) := by
  cases e with
  | Schedule r => exact .inl ⟨_, (Option.some.inj h).symm⟩
  | Shutdown => exact .inl ⟨_, (Option.some.inj h).symm⟩
  | Get =>
    simp only [step] at h
    split at h <;> cases h
    · exact .inr (.inl ⟨‹_›, _, ‹_›, rfl⟩)
    · exact .inr (.inr (.inl ⟨‹_›, _, _, ‹_›, rfl⟩))
  | Perform =>
    simp only [step] at h
    split at h <;> cases h
    exact .inr (.inr (.inr (.inl ⟨_, ‹_›, rfl⟩)))
  | Fulfil =>
    simp only [step] at h
    split at h <;> cases h
    exact .inr (.inr (.inr (.inr ⟨_, ‹_›, rfl⟩)))

/-- A step hands over at most one request, at the end. -/
theorem step_executed {e : Event} (h : self.step e = some self') :
    ∃ l, self'.executed = self.executed ++ l := by
  rcases step_cases h with ⟨x, rfl⟩ | ⟨-, _, -, rfl⟩ | ⟨-, _, _, -, rfl⟩ | ⟨r, -, rfl⟩ |
    ⟨r, -, rfl⟩
  all_goals first | exact ⟨[], (List.append_nil _).symm⟩ | exact ⟨[r], rfl⟩

end Steps

variable {disk_manager : DiskManager} {buffers : Nat → PageData} {self self' : DiskScheduler}

theorem Invariant.init : Invariant disk_manager buffers (new disk_manager buffers) :=
  ⟨rfl, rfl, rfl⟩

theorem Invariant.step {e : Event} (h : Invariant disk_manager buffers self)
    (hs : self.step e = some self') : Invariant disk_manager buffers self' := by
  obtain ⟨hq, hf, hio⟩ := h
  rcases step_cases hs with ⟨x, rfl⟩ | ⟨hw, rest, hrq, rfl⟩ | ⟨hw, r, rest, hrq, rfl⟩ |
    ⟨r, hw, rfl⟩ | ⟨r, hw, rfl⟩
  · exact ⟨by simp only [Put, ← hq, List.append_assoc], hf, hio⟩
  · rw [hw, hrq] at hq
    rw [hw] at hf
    exact ⟨by simpa [taken] using hq, hf, hio⟩
  · rw [hw, hrq] at hq
    rw [hw] at hf
    exact ⟨by simpa [taken] using hq, hf, hio⟩
  · rw [hw] at hq hf
    refine ⟨hq, ?_, ?_⟩
    · simpa [Worker.unfulfilled] using hf
    · rw [List.foldl_append, ← hio]
      rfl
  · rw [hw] at hq hf
    exact ⟨hq, by simpa [Worker.unfulfilled] using hf, hio⟩

theorem Reachable.invariant (hr : Reachable disk_manager buffers self) :
    Invariant disk_manager buffers self := by
  induction hr with
  | init => exact Invariant.init
  | step e _ hs ih => exact ih.step hs

/-- Requests before the first sentinel are what the worker meets first. -/
theorem beforeSentinel_map_some_append (l : List DiskRequest) (q : List (Option DiskRequest)) :
    beforeSentinel (l.map some ++ q) = l ++ beforeSentinel q := by
  induction l with
  | nil => rfl
  | cons r l ih => simp [beforeSentinel, ih]

theorem Invariant.executed_prefix (h : Invariant disk_manager buffers self) :
    self.executed <+: beforeSentinel self.put := by
  rw [← h.queue]
  cases self.worker with
  | holding r =>
    rw [taken, beforeSentinel_map_some_append, List.append_assoc]
    exact List.prefix_append _ _
  | stopped =>
    rw [taken, List.append_assoc, beforeSentinel_map_some_append]
    exact List.prefix_append _ _
  | waiting | performed _ =>
    rw [taken, beforeSentinel_map_some_append]
    exact List.prefix_append _ _

/-- Once the worker has returned, it has handed over every request before the sentinel and
    set every promise. -/
theorem Invariant.stopped (h : Invariant disk_manager buffers self)
    (hw : self.worker = .stopped) : self.executed = beforeSentinel self.put ∧
      self.fulfilled = self.executed.map (·.callback_) := by
  have hq := h.queue
  have hf := h.fulfilled
  rw [hw] at hq hf
  rw [← hq, taken, List.append_assoc, beforeSentinel_map_some_append]
  exact ⟨by simp [beforeSentinel], by simpa [Worker.unfulfilled] using hf⟩

/-- With a good file below `2 ^ 31` bytes at the start and only writes of pages in
    `[0, 524287)` handed over, the file holds the last write of every page written. -/
theorem Reachable.stores (hr : Reachable disk_manager buffers self)
    (h₀ : disk_manager.Stores (fun _ => none))
    (hwrites : ∀ r ∈ self.executed, r.is_write_ → 0 ≤ r.page_id_ ∧ r.page_id_ < 524287) :
    self.disk_manager_.Stores self.written := by
  induction hr with
  | init => exact h₀
  | @step s s' e _ hs ih =>
    obtain ⟨l, hl⟩ := step_executed hs
    have hdisk := ih (fun r hr => hwrites r (hl ▸ List.mem_append_left _ hr))
    rcases step_cases hs with ⟨x, rfl⟩ | ⟨-, _, -, rfl⟩ | ⟨-, _, _, -, rfl⟩ |
      ⟨r, -, rfl⟩ | ⟨r, -, rfl⟩
    · exact hdisk
    · exact hdisk
    · exact hdisk
    · by_cases hwrite : r.is_write_
      · obtain ⟨hlo, hhi⟩ := hwrites r (by simp) hwrite
        simpa [DiskRequest.perform, hwrite] using hdisk.WritePage (s.buffers r.data_) hlo hhi
      · simpa [DiskRequest.perform, hwrite] using hdisk.ReadPage r.page_id_ (s.buffers r.data_)
    · exact hdisk

/-- Under any interleaving of producers with the worker, the requests handed to the disk
    manager are those put on the channel before its first sentinel, in order and each once,
    and all of them once the worker has returned; each promise is set once, after its
    request's disk call returned; and the disk and the buffers are those of running the
    handed-over requests one after another. When the file starts good and below `2 ^ 31`
    bytes and every write handed over is of a page in `[0, 524287)`, the read the worker runs
    next fills its buffer with the last write of its page handed over, hence enqueued, before
    it. -/
theorem Reachable.requests_in_order (hr : Reachable disk_manager buffers self) :
    self.executed <+: beforeSentinel self.put ∧
    self.fulfilled ++ self.worker.unfulfilled = self.executed.map (·.callback_) ∧
    (self.worker = .stopped → self.executed = beforeSentinel self.put ∧
      self.fulfilled = self.executed.map (·.callback_)) ∧
    (self.disk_manager_, self.buffers) =
      self.executed.foldl (fun io r => r.perform io) (disk_manager, buffers) ∧
    (disk_manager.Stores (fun _ => none) →
      (∀ w ∈ self.executed, w.is_write_ → 0 ≤ w.page_id_ ∧ w.page_id_ < 524287) →
      ∀ r d self', self.worker = .holding r → r.is_write_ = false →
        self.written r.page_id_ = some d → self.step .Perform = some self' →
        self'.buffers r.data_ = d) := by
  have h := hr.invariant
  refine ⟨h.executed_prefix, h.fulfilled, h.stopped, h.io,
    fun h₀ hwrites r d self' hw hread hd hs => ?_⟩
  simp only [DiskScheduler.step, hw] at hs
  cases hs
  simp [DiskRequest.perform, hread, (hr.stores h₀ hwrites).ReadPage_eq hd]

/-- A write and then a read of page `3` through the scheduler, the worker about to run the
    read. -/
theorem requests_in_order_write_then_read :
    ∃ s, (new DiskManager.new (fun b _ => if b = 0 then 7 else 0)).run
        [.Schedule ⟨true, 0, 3, 0⟩, .Schedule ⟨false, 1, 3, 1⟩, .Get, .Perform, .Fulfil,
          .Get] = some s ∧
      (s.executed <+: beforeSentinel s.put ∧
        s.fulfilled ++ s.worker.unfulfilled = s.executed.map (·.callback_) ∧
        (s.worker = .stopped → s.executed = beforeSentinel s.put ∧
          s.fulfilled = s.executed.map (·.callback_)) ∧
        (s.disk_manager_, s.buffers) = s.executed.foldl (fun io r => r.perform io)
          (DiskManager.new, fun b _ => if b = 0 then 7 else 0) ∧
        (DiskManager.new.Stores (fun _ => none) →
          (∀ w ∈ s.executed, w.is_write_ → 0 ≤ w.page_id_ ∧ w.page_id_ < 524287) →
          ∀ r d s', s.worker = .holding r → r.is_write_ = false →
            s.written r.page_id_ = some d → s.step .Perform = some s' →
            s'.buffers r.data_ = d)) := by
  obtain ⟨s, hrun⟩ : ∃ s, (new DiskManager.new (fun b _ => if b = 0 then 7 else 0)).run
      [.Schedule ⟨true, 0, 3, 0⟩, .Schedule ⟨false, 1, 3, 1⟩, .Get, .Perform, .Fulfil,
        .Get] = some s := ⟨_, rfl⟩
  exact ⟨s, hrun, Reachable.requests_in_order (Reachable.run .init hrun)⟩

/-- A write of page `524287` from a buffer of sevens, a read of it into a zeroed buffer, and
    the sentinel: the worker runs both in order, sets both promises and returns, but the write
    made the file `2 ^ 31` bytes long, `GetFileSize` wraps to a negative `int`, and the read
    leaves its buffer as it was. -/
theorem run_read_misses_last_write :
    ((new DiskManager.new (fun b _ => if b = 0 then 7 else 0)).run
        [.Schedule ⟨true, 0, 524287, 0⟩, .Schedule ⟨false, 1, 524287, 1⟩, .Shutdown,
          .Get, .Perform, .Fulfil, .Get, .Perform, .Fulfil, .Get]).map
      (fun s => (s.worker, s.executed.length, s.fulfilled,
        (s.written 524287).map (· ⟨0, by decide⟩), s.buffers 1 ⟨0, by decide⟩)) =
      some (.stopped, 2, [0, 1], some 7, 0) := by
  decide

/-- A step of the worker thread rather than of a producer. -/
def Event.ofWorker : Event → Bool
  | .Get | .Perform | .Fulfil => true
  | .Schedule _ | .Shutdown => false

/-- The worker thread alone takes `self` to `self'`. -/
def WorkerRun (self self' : DiskScheduler) : Prop :=
  ∃ es : List Event, (∀ e ∈ es, e.ofWorker = true) ∧ self.run es = some self'

section Shutdown

variable {s₁ : DiskScheduler}

theorem WorkerRun.refl (self : DiskScheduler) : WorkerRun self self := ⟨[], nofun, rfl⟩

theorem WorkerRun.trans (h₁ : WorkerRun self s₁) (h₂ : WorkerRun s₁ self') :
    WorkerRun self self' := by
  obtain ⟨es₁, hw₁, hrun₁⟩ := h₁
  obtain ⟨es₂, hw₂, hrun₂⟩ := h₂
  refine ⟨es₁ ++ es₂, fun e he => (List.mem_append.1 he).elim (hw₁ e) (hw₂ e), ?_⟩
  induction es₁ generalizing self with
  | nil => cases hrun₁; exact hrun₂
  | cons e es ih =>
    obtain ⟨s, hs, hrun⟩ := Option.bind_eq_some.1 hrun₁
    exact Option.bind_eq_some.2 ⟨s, hs, ih (fun e he => hw₁ e (List.mem_cons_of_mem _ he)) hrun⟩

/-- A step of the worker leaves what was put on the channel as it was. -/
theorem step_put {e : Event} (he : e.ofWorker = true) (h : self.step e = some self') :
    self'.put = self.put := by
  cases e <;> simp only [Event.ofWorker, Bool.false_eq_true] at he <;> simp only [step] at h <;>
    split at h <;> cases h <;> rfl

theorem WorkerRun.put (h : WorkerRun self self') : self'.put = self.put := by
  obtain ⟨es, hw, hrun⟩ := h
  induction es generalizing self with
  | nil => cases hrun; rfl
  | cons e es ih =>
    obtain ⟨s, hs, hrun⟩ := Option.bind_eq_some.1 hrun
    exact (ih (fun e he => hw e (List.mem_cons_of_mem _ he)) hrun).trans
      (step_put (hw e (List.mem_cons_self _ _)) hs)

/-- A worker holding a request, or past its disk call, finishes it and is back in `Get`, the
    channel as it was. -/
theorem WorkerRun.finish (self : DiskScheduler) (hw : self.worker ≠ .waiting)
    (hs : self.worker ≠ .stopped) :
    ∃ self', WorkerRun self self' ∧ self'.worker = .waiting ∧
      self'.request_queue_ = self.request_queue_ := by
  obtain ⟨q, w, dm, buf, put, ex, ful, wr⟩ := self
  cases w with
  | waiting => exact absurd rfl hw
  | stopped => exact absurd rfl hs
  | holding r => exact ⟨_, ⟨[.Perform, .Fulfil], by decide, rfl⟩, rfl, rfl⟩
  | performed r => exact ⟨_, ⟨[.Fulfil], by decide, rfl⟩, rfl, rfl⟩

/-- A worker in `Get` on a channel holding a sentinel runs every request before it and
    returns. -/
theorem WorkerRun.drain_waiting : ∀ (q : List (Option DiskRequest)) {self : DiskScheduler},
    self.worker = .waiting → self.request_queue_ = q → none ∈ q →
      ∃ self', WorkerRun self self' ∧ self'.worker = .stopped
  | [], _, _, _, hnone => nomatch hnone
  | none :: rest, ⟨_, _, dm, buf, put, ex, ful, wr⟩, hw, hq, _ => by
    cases hw; cases hq
    exact ⟨_, ⟨[.Get], by decide, rfl⟩, rfl⟩
  | some r :: rest, ⟨_, _, dm, buf, put, ex, ful, wr⟩, hw, hq, hnone => by
    cases hw; cases hq
    have h₀ : WorkerRun ⟨some r :: rest, .waiting, dm, buf, put, ex, ful, wr⟩
        ⟨rest, .holding r, dm, buf, put, ex, ful, wr⟩ := ⟨[.Get], by decide, rfl⟩
    obtain ⟨s₁, h₁, hw₁, hq₁⟩ := WorkerRun.finish ⟨rest, .holding r, dm, buf, put, ex, ful, wr⟩
      nofun nofun
    obtain ⟨s₂, h₂, hw₂⟩ := drain_waiting rest hw₁ hq₁ (by simpa using hnone)
    exact ⟨s₂, (h₀.trans h₁).trans h₂, hw₂⟩

/-- A worker on a channel holding a sentinel, or already returned, runs to its return. -/
theorem WorkerRun.drain (self : DiskScheduler)
    (hnone : none ∈ self.request_queue_ ∨ self.worker = .stopped) :
    ∃ self', WorkerRun self self' ∧ self'.worker = .stopped := by
  by_cases hs : self.worker = .stopped
  · exact ⟨self, .refl self, hs⟩
  have hq := hnone.resolve_right hs
  by_cases hw : self.worker = .waiting
  · exact WorkerRun.drain_waiting _ hw rfl hq
  · obtain ⟨s₁, h₁, hw₁, hq₁⟩ := WorkerRun.finish self hw hs
    obtain ⟨s₂, h₂, hw₂⟩ := WorkerRun.drain_waiting _ hw₁ hq₁ hq
    exact ⟨s₂, h₁.trans h₂, hw₂⟩

/-- From every state reachable under any interleaving of producers with the worker, the
    destructor's `Put(std::nullopt)` is followed by a run of the worker alone, no producer
    needed, after which the worker has returned, so the destructor's `join` returns too. By
    then it has handed to the disk manager every request put before the first sentinel, in
    order, and set every promise. -/
theorem Reachable.Shutdown_drains (hr : Reachable disk_manager buffers self) :
    ∃ es self', (∀ e ∈ es, e.ofWorker = true) ∧ self.run (.Shutdown :: es) = some self' ∧
      self'.worker = .stopped ∧ self'.executed = beforeSentinel (self.put ++ [none]) ∧
      self'.fulfilled = self'.executed.map (·.callback_) := by
  obtain ⟨self', ⟨es, hw, hrun⟩, hstop⟩ := WorkerRun.drain (self.Put none) (.inl (by simp [Put]))
  have hput : self'.put = self.put ++ [none] := WorkerRun.put ⟨es, hw, hrun⟩
  obtain ⟨hexecuted, hfulfilled⟩ :=
    (Reachable.run (hr.step .Shutdown rfl) hrun).invariant.stopped hstop
  exact ⟨es, self', hw, hrun, hstop, hput ▸ hexecuted, hfulfilled⟩

/-- After one scheduled write, the destructor's sentinel and the worker alone run the write
    and return. -/
theorem Shutdown_drains_one_write :
    ∃ s, (new DiskManager.new fun _ _ => 0).run [.Schedule ⟨true, 0, 3, 0⟩] = some s ∧
      ∃ es s', (∀ e ∈ es, e.ofWorker = true) ∧ s.run (.Shutdown :: es) = some s' ∧
        s'.worker = .stopped ∧ s'.executed = beforeSentinel (s.put ++ [none]) ∧
        s'.fulfilled = s'.executed.map (·.callback_) := by
  obtain ⟨s, hrun⟩ : ∃ s, (new DiskManager.new fun _ _ => 0).run [.Schedule ⟨true, 0, 3, 0⟩] =
      some s := ⟨_, rfl⟩
  exact ⟨s, hrun, Reachable.Shutdown_drains (Reachable.run .init hrun)⟩

end Shutdown

end DiskScheduler

end bustub
