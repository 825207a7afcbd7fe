import Mathlib
/-!
# Insertion-ordered dictionaries

`Dict κ α` is an association list with distinct keys in the order they were first set: `set` replaces
the value of a key in place or appends a new key, `erase` drops one. Lookups after an update are
`get_set` and `get_erase`; `mem_items` relates iteration to lookup.
-/

structure Dict (κ α : Type) where
  items : List (κ × α)
  nodup : (items.map Prod.fst).Nodup

namespace Dict

variable {κ α : Type} [DecidableEq κ]

def empty : Dict κ α := ⟨[], List.nodup_nil⟩

instance : EmptyCollection (Dict κ α) := ⟨empty⟩
instance : Inhabited (Dict κ α) := ⟨empty⟩

def find (k : κ) : List (κ × α) → Option α
  | [] => none
  | (j, v) :: rest => if j = k then some v else find k rest

def get (d : Dict κ α) (k : κ) : Option α := find k d.items

def place (k : κ) (v : α) : List (κ × α) → List (κ × α)
  | [] => [(k, v)]
  | (j, w) :: rest => if j = k then (k, v) :: rest else (j, w) :: place k v rest

theorem mem_keys_place {k j : κ} {v : α} {l : List (κ × α)} :
    j ∈ (place k v l).map Prod.fst ↔ j = k ∨ j ∈ l.map Prod.fst := by
  induction l with
  | nil => simp [place]
  | cons p rest ih =>
    obtain ⟨i, w⟩ := p
    by_cases h : i = k
    · subst h; simp [place]
    · simp only [place, h, if_false, List.map_cons, List.mem_cons, ih]
      tauto

/-- A new key goes to the end. -/
theorem place_of_not_mem {k : κ} {l : List (κ × α)} (h : k ∉ l.map Prod.fst) (v : α) : place k v l = l ++ [(k, v)] := by
  induction l with
  | nil => rfl
  | cons p rest ih =>
    obtain ⟨j, w⟩ := p
    rw [List.map_cons, List.mem_cons, not_or] at h
    rw [place, if_neg (Ne.symm h.1), ih h.2, List.cons_append]

theorem nodup_place (k : κ) (v : α) {l : List (κ × α)} (h : (l.map Prod.fst).Nodup) :
    ((place k v l).map Prod.fst).Nodup := by
  induction l with
  | nil => simp [place]
  | cons p rest ih =>
    obtain ⟨j, w⟩ := p
    simp only [List.map_cons, List.nodup_cons] at h
    by_cases hj : j = k
    · subst hj; simpa [place] using h
    · simp only [place, if_neg hj, List.map_cons, List.nodup_cons, mem_keys_place, not_or]
      exact ⟨⟨hj, h.1⟩, ih h.2⟩

def set (d : Dict κ α) (k : κ) (v : α) : Dict κ α := ⟨place k v d.items, nodup_place k v d.nodup⟩

def erase (d : Dict κ α) (k : κ) : Dict κ α :=
  ⟨d.items.filter (·.1 ≠ k), d.nodup.sublist (List.filter_sublist.map _)⟩

theorem find_place (k j : κ) (v : α) (l : List (κ × α)) :
    find j (place k v l) = if j = k then some v else find j l := by
  induction l with
  | nil => simp [place, find, eq_comm]
  | cons p rest ih =>
    obtain ⟨i, w⟩ := p
    by_cases hi : i = k
    · subst hi
      by_cases hj : j = i
      · simp [place, find, hj]
      · simp [place, find, Ne.symm hj, hj]
    · by_cases hj : j = k
      · subst hj; simp [place, find, hi, ih]
      · simp [place, find, hi, ih, hj]

theorem get_set (d : Dict κ α) (k j : κ) (v : α) : (d.set k v).get j = if j = k then some v else d.get j :=
  find_place k j v d.items

@[simp] theorem get_set_self (d : Dict κ α) (k : κ) (v : α) : (d.set k v).get k = some v := by
  simp [get_set]

theorem find_filter_ne (k j : κ) (l : List (κ × α)) :
    find j (l.filter (·.1 ≠ k)) = if j = k then none else find j l := by
  induction l with
  | nil => simp [find]
  | cons p rest ih =>
    obtain ⟨i, w⟩ := p
    by_cases hi : i = k
    · subst hi
      by_cases hj : j = i
      · simpa [hj] using ih
      · simpa [find, hj, Ne.symm hj] using ih
    · by_cases hj : j = k
      · subst hj; simpa [find, hi] using ih
      · simp only [List.filter_cons, ne_eq, hi, not_false_eq_true, decide_true, if_true, find, hj, if_false]
        rw [ih, if_neg hj]

theorem get_erase (d : Dict κ α) (k j : κ) : (d.erase k).get j = if j = k then none else d.get j :=
  find_filter_ne k j d.items

@[simp] theorem erase_erase (d : Dict κ α) (k : κ) : (d.erase k).erase k = d.erase k := by
  simp [erase, List.filter_filter]

@[simp] theorem get_erase_self (d : Dict κ α) (k : κ) : (d.erase k).get k = none := by simp [get_erase]

theorem mem_iff_find {k : κ} {v : α} {l : List (κ × α)} (h : (l.map Prod.fst).Nodup) :
    (k, v) ∈ l ↔ find k l = some v := by
  induction l with
  | nil => simp [find]
  | cons p rest ih =>
    obtain ⟨j, w⟩ := p
    simp only [List.map_cons, List.nodup_cons] at h
    by_cases hj : j = k
    · subst hj
      have hn : (j, v) ∉ rest := fun hm => h.1 (List.mem_map_of_mem hm)
      simp [find, hn, eq_comm]
    · simp [find, hj, Ne.symm hj, ih h.2]

/-- Iterating meets exactly the pairs that lookups find. -/
theorem mem_items {d : Dict κ α} {k : κ} {v : α} : (k, v) ∈ d.items ↔ d.get k = some v :=
  mem_iff_find d.nodup

end Dict
