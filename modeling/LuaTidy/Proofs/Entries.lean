import LuaTidy.Entries
import Mathlib.Data.List.Nodup

/-! Maps as lists of entries: what each operation does to the value of a key, and how an entry is
found where no key is repeated. -/
namespace LuaTidy.Entries

/-- Each key once. -/
theorem nodup_eraseDups {κ : Type} [BEq κ] [LawfulBEq κ] (ks : List κ) : ks.eraseDups.Nodup := by
  induction hn : ks.length using Nat.strongRecOn generalizing ks with
  | _ n ih =>
    cases ks with
    | nil => exact List.nodup_nil
    | cons k ks =>
      have hlen := List.length_filter_le (fun j => !j == k) ks
      rw [List.eraseDups_cons, List.nodup_cons, List.mem_eraseDups, List.mem_filter]
      exact ⟨by simp, ih _ (by rw [← hn, List.length_cons]; omega) _ rfl⟩

variable {κ α : Type} [DecidableEq κ]

/-- The keys in the order in which they came in. -/
def keys (m : Entries κ α) : List κ := m.map Prod.fst

omit [DecidableEq κ] in
@[simp] theorem keys_cons (e : κ × α) (m : Entries κ α) : keys (e :: m) = e.1 :: keys m := rfl

@[simp] theorem get?_nil (k : κ) : get? ([] : Entries κ α) k = none := rfl

theorem get?_cons (e : κ × α) (m : Entries κ α) (k : κ) :
    get? (e :: m) k = if e.1 = k then some e.2 else get? m k := by
  obtain ⟨k', a⟩ := e
  rfl

theorem get?_eq_none_iff (m : Entries κ α) (k : κ) : m.get? k = none ↔ k ∉ m.keys := by
  induction m with
  | nil => simp [keys]
  | cons e m ih =>
    by_cases h : e.1 = k
    · simp [get?_cons, h]
    · simpa [get?_cons, h, Ne.symm h] using ih

theorem mem_of_get? {m : Entries κ α} {k : κ} {a : α} (h : m.get? k = some a) : (k, a) ∈ m := by
  induction m with
  | nil => simp at h
  | cons e m ih =>
    rw [get?_cons] at h
    split at h
    · next hk =>
      cases h
      subst hk
      exact List.mem_cons_self
    · exact List.mem_cons_of_mem _ (ih h)

theorem get?_of_mem {m : Entries κ α} (hm : m.keys.Nodup) {k : κ} {a : α} (h : (k, a) ∈ m) :
    m.get? k = some a := by
  induction m with
  | nil => simp at h
  | cons e m ih =>
    have hn := List.nodup_cons.mp hm
    rw [get?_cons]
    rcases List.mem_cons.mp h with rfl | h
    · simp
    · have hk : e.1 ≠ k := fun hk => hn.1 (hk ▸ List.mem_map.mpr ⟨(k, a), h, rfl⟩)
      rw [if_neg hk]
      exact ih hn.2 h

theorem get?_eq_some_iff {m : Entries κ α} (hm : m.keys.Nodup) (k : κ) (a : α) :
    m.get? k = some a ↔ (k, a) ∈ m :=
  ⟨mem_of_get?, get?_of_mem hm⟩

theorem get?_append (m l : Entries κ α) (k : κ) :
    get? (m ++ l) k = (m.get? k).or (get? l k) := by
  induction m with
  | nil => simp
  | cons e m ih =>
    rw [List.cons_append, get?_cons, get?_cons, ih]
    split <;> rfl

theorem get?_map {β : Type} (m : Entries κ α) (f : α → β) (k : κ) :
    get? (m.map fun e => (e.1, f e.2)) k = (m.get? k).map f := by
  induction m with
  | nil => rfl
  | cons e m ih =>
    rw [List.map_cons, get?_cons, get?_cons, ih]
    split <;> rfl

theorem get?_filter (m : Entries κ α) (p : κ → Bool) (k : κ) :
    get? (m.filter fun e => p e.1) k = if p k then m.get? k else none := by
  induction m with
  | nil => simp
  | cons e m ih =>
    by_cases hk : e.1 = k
    · subst hk
      by_cases hp : p e.1
      · simp [hp, get?_cons]
      · simp [hp, ih]
    · by_cases hp : p e.1
      · simp [hp, get?_cons, hk, ih]
      · simp [hp, get?_cons, hk, ih]

/-- Keys that are all different determine the map with their values. -/
theorem eq_map_keys {m : Entries κ α} (hm : m.keys.Nodup) {v : κ → α}
    (hv : ∀ k a, m.get? k = some a → a = v k) : m = m.keys.map fun k => (k, v k) := by
  rw [keys, List.map_map]
  refine List.ext_getElem? fun i => ?_
  rw [List.getElem?_map]
  cases he : m[i]? with
  | none => rfl
  | some e => 
    have hget := get?_of_mem hm (List.mem_of_getElem? he)
    simp [← hv e.1 e.2 hget]

omit [DecidableEq κ] in
theorem keys_filter_sublist (m : Entries κ α) (p : κ × α → Bool) :
    List.Sublist (keys (m.filter p)) m.keys :=
  List.Sublist.map Prod.fst List.filter_sublist

theorem keys_insert (m : Entries κ α) (k : κ) (a : α) :
    (m.insert k a).keys = if k ∈ m.keys then m.keys else m.keys ++ [k] := by
  induction m with
  | nil => simp [insert, keys]
  | cons e m ih =>
    obtain ⟨k', a'⟩ := e
    by_cases h : k' = k
    · simp [insert, keys, h]
    · simp only [insert, h, if_false, keys_cons, List.mem_cons, Ne.symm h, false_or]
      rw [ih]
      by_cases hm : k ∈ keys m <;> simp [hm]

theorem nodup_keys_insert {m : Entries κ α} (hm : m.keys.Nodup) (k : κ) (a : α) :
    (m.insert k a).keys.Nodup := by
  rw [keys_insert]
  split
  · exact hm
  · next hk =>
    refine List.nodup_append.mpr ⟨hm, List.nodup_singleton k, ?_⟩
    rintro x hx y hy rfl
    exact hk (List.mem_singleton.mp hy ▸ hx)

theorem update_cons (m : Entries κ α) (e : κ × α) (more : Entries κ α) :
    m.update (e :: more) = (m.insert e.1 e.2).update more := rfl

theorem mem_insert {m : Entries κ α} {k : κ} {a : α} {e : κ × α} (h : e ∈ m.insert k a) :
    e ∈ m ∨ e = (k, a) := by
  induction m with
  | nil => exact Or.inr (List.mem_singleton.mp h)
  | cons e' m ih =>
    obtain ⟨k', a'⟩ := e'
    by_cases hk : k' = k
    · simp only [insert, hk, if_true, List.mem_cons] at h
      rcases h with rfl | h
      · exact Or.inr rfl
      · exact Or.inl (List.mem_cons_of_mem _ h)
    · simp only [insert, hk, if_false, List.mem_cons] at h
      rcases h with rfl | h
      · exact Or.inl List.mem_cons_self
      · exact (ih h).imp_left (List.mem_cons_of_mem _)

theorem mem_update {m more : Entries κ α} {e : κ × α} (h : e ∈ m.update more) :
    e ∈ m ∨ e ∈ more := by
  induction more generalizing m with
  | nil => exact Or.inl h
  | cons e' more ih =>
    rw [update_cons] at h
    rcases ih h with h | h
    · rcases mem_insert h with h | rfl
      · exact Or.inl h
      · exact Or.inr List.mem_cons_self
    · exact Or.inr (List.mem_cons_of_mem _ h)

theorem get?_update_of_not_mem (m : Entries κ α) {more : Entries κ α} {k : κ} (hk : k ∉ more.keys) :
    (m.update more).get? k = m.get? k := by
  induction more generalizing m with
  | nil => rfl
  | cons e more ih =>
    rw [keys_cons, List.mem_cons, not_or] at hk
    rw [update_cons, ih _ hk.2, get?_insert, if_neg (Ne.symm hk.1)]

theorem mem_keys_update {m : Entries κ α} {k : κ} (hk : k ∈ m.keys) (more : Entries κ α) :
    k ∈ (m.update more).keys := by
  induction more generalizing m with
  | nil => exact hk
  | cons e more ih =>
    rw [update_cons]
    refine ih ?_
    rw [keys_insert]
    split
    · exact hk
    · exact List.mem_append_left _ hk

/-- An update without repeated keys hides the old values of its keys and nothing else. -/
theorem get?_update (m : Entries κ α) {more : Entries κ α} (hn : more.keys.Nodup) (k : κ) :
    (m.update more).get? k = (more.get? k).or (m.get? k) := by
  induction more generalizing m with
  | nil => rfl
  | cons e more ih =>
    have hd := List.nodup_cons.mp hn
    rw [update_cons, ih _ hd.2, get?_insert, get?_cons]
    by_cases h : e.1 = k
    · have hk : get? more k = none := (get?_eq_none_iff more k).mpr (h ▸ hd.1)
      simp [h, hk]
    · simp [h]

theorem insert_of_not_mem {m : Entries κ α} {k : κ} (h : k ∉ m.keys) (a : α) :
    m.insert k a = m ++ [(k, a)] := by
  induction m with
  | nil => rfl
  | cons e m ih =>
    rw [keys_cons, List.mem_cons, not_or] at h
    rw [insert, if_neg (Ne.symm h.1), ih h.2, List.cons_append]

theorem insert_append_of_not_mem {m : Entries κ α} {k : κ} (h : k ∉ m.keys) (a b : α) :
    (m ++ [(k, a)]).insert k b = m ++ [(k, b)] := by
  induction m with
  | nil => simp [insert]
  | cons e m ih =>
    rw [keys_cons, List.mem_cons, not_or] at h
    rw [List.cons_append, insert, if_neg (Ne.symm h.1), ih h.2, List.cons_append]

end LuaTidy.Entries
