import Mathlib.Data.List.Nodup

namespace bustub

/-- `std::unordered_map`, as its entries in iteration order. No key occurs twice, so every
    value built by the operations below is a valid map. -/
structure UnorderedMap (κ ν : Type) where
  entries : List (κ × ν)
  nodup : (entries.map Prod.fst).Nodup

namespace UnorderedMap

variable {κ ν : Type} [DecidableEq κ]

omit [DecidableEq κ] in
@[ext] theorem ext {m m' : UnorderedMap κ ν} (h : m.entries = m'.entries) : m = m' := by
  cases m; cases m'; cases h; rfl

/-- The keys, in iteration order. -/
def keys (m : UnorderedMap κ ν) : List κ := m.entries.map Prod.fst

instance : EmptyCollection (UnorderedMap κ ν) := ⟨⟨[], List.nodup_nil⟩⟩

/-- `m.find(k)`, returning the value of the entry found. -/
def find? (m : UnorderedMap κ ν) (k : κ) : Option ν :=
  (m.entries.find? (fun e => e.1 = k)).map Prod.snd

/-- Applies `f` to the value of key `k` in place (as `m[k]->...` does), if `k` is present. -/
def modify (m : UnorderedMap κ ν) (k : κ) (f : ν → ν) : UnorderedMap κ ν :=
  ⟨m.entries.map (fun e => if e.1 = k then (e.1, f e.2) else e), by
    have hkeys : (m.entries.map (fun e => if e.1 = k then (e.1, f e.2) else e)).map Prod.fst =
        m.entries.map Prod.fst := by
      simp only [List.map_map]
      congr 1
      funext e
      by_cases h : e.1 = k <;> simp [h]
    rw [hkeys]
    exact m.nodup⟩

/-- `m.erase(k)`. -/
def erase (m : UnorderedMap κ ν) (k : κ) : UnorderedMap κ ν :=
  ⟨m.entries.filter (fun e => e.1 ≠ k), by
    have hsub := (List.filter_sublist (p := fun e : κ × ν => decide (e.1 ≠ k)) m.entries).map
      Prod.fst
    exact m.nodup.sublist hsub⟩

/-- `m[k] = v`: assigns in place when `k` is present and adds an entry otherwise. -/
def insert (m : UnorderedMap κ ν) (k : κ) (v : ν) : UnorderedMap κ ν :=
  if h : k ∈ m.keys then m.modify k (fun _ => v)
  else ⟨m.entries ++ [(k, v)], by
    rw [List.map_append, List.nodup_append]
    refine ⟨m.nodup, List.nodup_singleton _, ?_⟩
    simpa [List.disjoint_singleton, keys] using h⟩

theorem find?_eq_some_iff {m : UnorderedMap κ ν} {k : κ} {v : ν} :
    m.find? k = some v ↔ (k, v) ∈ m.entries := by
  constructor
  · intro h
    obtain ⟨e, he, rfl⟩ := Option.map_eq_some'.1 h
    have hk : e.1 = k := by simpa using List.find?_some he
    rw [← hk]
    exact List.mem_of_find?_eq_some he
  · intro hmem
    cases he : m.entries.find? (fun e => e.1 = k) with
    | none =>
      have := List.find?_eq_none.1 he _ hmem
      simp at this
    | some e =>
      have hk : e.1 = k := by simpa using List.find?_some he
      have hmem' := List.mem_of_find?_eq_some he
      have heq : e = (k, v) :=
        List.inj_on_of_nodup_map m.nodup hmem' hmem hk
      simp [find?, he, heq]

theorem mem_keys_iff {m : UnorderedMap κ ν} {k : κ} : k ∈ m.keys ↔ ∃ v, m.find? k = some v := by
  simp only [find?_eq_some_iff, keys, List.mem_map]
  exact ⟨fun ⟨e, he, hk⟩ => ⟨e.2, hk ▸ he⟩, fun ⟨v, hv⟩ => ⟨(k, v), hv, rfl⟩⟩

theorem find?_eq_none_iff {m : UnorderedMap κ ν} {k : κ} : m.find? k = none ↔ k ∉ m.keys := by
  rw [mem_keys_iff]
  cases m.find? k <;> simp

omit [DecidableEq κ] in
@[simp] theorem empty_entries : (∅ : UnorderedMap κ ν).entries = [] := rfl

@[simp] theorem find?_empty (k : κ) : (∅ : UnorderedMap κ ν).find? k = none := rfl

theorem mem_modify {m : UnorderedMap κ ν} {k k' : κ} {f : ν → ν} {v : ν} :
    (k', v) ∈ (m.modify k f).entries ↔
      if k' = k then ∃ w, (k, w) ∈ m.entries ∧ f w = v else (k', v) ∈ m.entries := by
  simp only [modify, List.mem_map]
  constructor
  · rintro ⟨e, he, heq⟩
    by_cases hk : e.1 = k
    · simp only [hk, if_true, Prod.mk.injEq] at heq
      obtain ⟨rfl, rfl⟩ := heq
      exact if_pos rfl ▸ ⟨e.2, hk ▸ he, rfl⟩
    · simp only [hk, if_false] at heq
      subst heq
      simpa [hk] using he
  · by_cases hk : k' = k
    · subst hk
      rintro h
      obtain ⟨w, hw, rfl⟩ := if_pos rfl ▸ h
      exact ⟨(k', w), hw, by simp⟩
    · intro h
      exact ⟨(k', v), by simpa [hk] using h, by simp [hk]⟩

@[simp] theorem find?_modify (m : UnorderedMap κ ν) (k k' : κ) (f : ν → ν) :
    (m.modify k f).find? k' = if k' = k then (m.find? k).map f else m.find? k' := by
  apply Option.ext
  intro v
  rw [Option.mem_def, Option.mem_def, find?_eq_some_iff, mem_modify]
  split_ifs with hk
  · simp [Option.map_eq_some', find?_eq_some_iff]
  · exact find?_eq_some_iff.symm

@[simp] theorem find?_erase (m : UnorderedMap κ ν) (k k' : κ) :
    (m.erase k).find? k' = if k' = k then none else m.find? k' := by
  apply Option.ext
  intro v
  rw [Option.mem_def, Option.mem_def, find?_eq_some_iff]
  split_ifs with hk <;> simp [erase, hk, find?_eq_some_iff]

@[simp] theorem find?_insert (m : UnorderedMap κ ν) (k k' : κ) (v : ν) :
    (m.insert k v).find? k' = if k' = k then some v else m.find? k' := by
  unfold insert
  split_ifs with hmem hk hk
  · obtain ⟨w, hw⟩ := mem_keys_iff.1 hmem
    simp [hk, hw]
  · simp [hk]
  · subst hk
    apply Option.ext
    intro w
    simp only [Option.mem_def, find?_eq_some_iff, List.mem_append, List.mem_singleton,
      Prod.mk.injEq, true_and, Option.some.injEq]
    have hnone : ∀ u, (k', u) ∉ m.entries := fun u hu =>
      hmem (mem_keys_iff.2 ⟨u, find?_eq_some_iff.2 hu⟩)
    constructor
    · rintro (h | h)
      · exact absurd h (hnone w)
      · exact h.symm
    · exact fun h => Or.inr h.symm
  · apply Option.ext
    intro w
    simp only [Option.mem_def, find?_eq_some_iff, List.mem_append, List.mem_singleton,
      Prod.mk.injEq, hk, false_and, or_false]

theorem modify_modify (m : UnorderedMap κ ν) (k : κ) (f g : ν → ν) :
    (m.modify k f).modify k g = m.modify k (g ∘ f) := by
  ext1
  simp only [modify, List.map_map]
  congr 1
  funext e
  by_cases hk : e.1 = k <;> simp [hk]

theorem modify_id (m : UnorderedMap κ ν) (k : κ) : m.modify k id = m := by
  ext1
  conv_rhs => rw [← List.map_id m.entries]
  exact List.map_congr_left fun e _ => by split_ifs <;> rfl

/-- An entry of the map splits its entries around it, no other entry having its key. -/
theorem split_of_find? {m : UnorderedMap κ ν} {k : κ} {v : ν} (h : m.find? k = some v) :
    ∃ l₁ l₂, m.entries = l₁ ++ (k, v) :: l₂ ∧ k ∉ l₁.map Prod.fst ∧ k ∉ l₂.map Prod.fst := by
  obtain ⟨l₁, l₂, hsplit⟩ := List.append_of_mem (find?_eq_some_iff.1 h)
  have hnodup := m.nodup
  rw [hsplit, List.map_append, List.map_cons, List.nodup_append, List.nodup_cons] at hnodup
  obtain ⟨-, ⟨hk₂, -⟩, hdisj⟩ := hnodup
  exact ⟨l₁, l₂, hsplit, fun hk₁ => hdisj hk₁ (List.mem_cons_self _ _), hk₂⟩

omit [DecidableEq κ] in
private theorem ne_of_not_mem_keys {l : List (κ × ν)} {k : κ} (hk : k ∉ l.map Prod.fst)
    {e : κ × ν} (he : e ∈ l) : e.1 ≠ k :=
  fun hek => hk (List.mem_map.2 ⟨e, he, hek⟩)

private theorem map_modify_of_not_mem {l : List (κ × ν)} {k : κ} {f : ν → ν}
    (hk : k ∉ l.map Prod.fst) :
    l.map (fun e => if e.1 = k then (e.1, f e.2) else e) = l := by
  conv_rhs => rw [← List.map_id l]
  exact List.map_congr_left fun e he => if_neg (ne_of_not_mem_keys hk he)

theorem modify_entries_of_split {m : UnorderedMap κ ν} {k : κ} {v : ν} {f : ν → ν}
    {l₁ l₂ : List (κ × ν)} (hsplit : m.entries = l₁ ++ (k, v) :: l₂)
    (hk₁ : k ∉ l₁.map Prod.fst) (hk₂ : k ∉ l₂.map Prod.fst) :
    (m.modify k f).entries = l₁ ++ (k, f v) :: l₂ := by
  simp only [modify, hsplit, List.map_append, List.map_cons, map_modify_of_not_mem hk₁,
    map_modify_of_not_mem hk₂, if_true]

theorem erase_entries_of_split {m : UnorderedMap κ ν} {k : κ} {v : ν}
    {l₁ l₂ : List (κ × ν)} (hsplit : m.entries = l₁ ++ (k, v) :: l₂)
    (hk₁ : k ∉ l₁.map Prod.fst) (hk₂ : k ∉ l₂.map Prod.fst) :
    (m.erase k).entries = l₁ ++ l₂ := by
  have hkeep : ∀ {l : List (κ × ν)}, k ∉ l.map Prod.fst → l.filter (fun e => e.1 ≠ k) = l :=
    fun hk => List.filter_eq_self.2 fun e he => by simpa using ne_of_not_mem_keys hk he
  simp only [erase, hsplit, List.filter_append, List.filter_cons, hkeep hk₁, hkeep hk₂, ne_eq,
    not_true_eq_false, decide_False, Bool.false_eq_true, if_false]

theorem insert_entries_of_find?_eq_none {m : UnorderedMap κ ν} {k : κ} {v : ν}
    (h : m.find? k = none) : (m.insert k v).entries = m.entries ++ [(k, v)] := by
  simp only [insert, dif_neg (find?_eq_none_iff.1 h)]

section Count

variable {m : UnorderedMap κ ν} {k : κ} (P : κ × ν → Bool)

theorem countP_insert_of_find?_eq_none (v : ν) (h : m.find? k = none) :
    (m.insert k v).entries.countP P = m.entries.countP P + if P (k, v) then 1 else 0 := by
  rw [insert_entries_of_find?_eq_none h, List.countP_append]
  by_cases hp : P (k, v) <;> simp [hp]

/-- Assigning to a present key trades its entry's count for the new one's. -/
theorem countP_insert_of_find?_eq_some {v₀ : ν} (h : m.find? k = some v₀) (v : ν) :
    (m.insert k v).entries.countP P + (if P (k, v₀) then 1 else 0) =
      m.entries.countP P + if P (k, v) then 1 else 0 := by
  obtain ⟨l₁, l₂, hsplit, hk₁, hk₂⟩ := split_of_find? h
  have hins : m.insert k v = m.modify k (fun _ => v) :=
    dif_pos (mem_keys_iff.2 ⟨v₀, h⟩)
  rw [hins, modify_entries_of_split hsplit hk₁ hk₂, hsplit]
  simp only [List.countP_append, List.countP_cons]
  omega

theorem countP_erase_of_find?_eq_some {v₀ : ν} (h : m.find? k = some v₀) :
    (m.erase k).entries.countP P + (if P (k, v₀) then 1 else 0) = m.entries.countP P := by
  obtain ⟨l₁, l₂, hsplit, hk₁, hk₂⟩ := split_of_find? h
  rw [erase_entries_of_split hsplit hk₁ hk₂, hsplit]
  simp only [List.countP_append, List.countP_cons]
  omega

end Count

end UnorderedMap

end bustub
