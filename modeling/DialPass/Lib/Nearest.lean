import Mathlib
/-!
# The nearest entry of a sorted table

`pick` searches a table that is sorted by `key` for the entry next to `s`: it counts the keys below, and compares
the two entries around that place. `pick_isNearest` is its specification, whatever the order of entries of one key;
`IsNearest.mono` says that what is nearest moves with `s`.
-/

namespace Nearest

section

variable {α : Type*} [AddCommGroup α] [LinearOrder α]

/-- `l` is nearer to `s` than `x`, or as near and not higher. -/
def Nearer (s l x : α) : Prop := |s - l| < |s - x| ∨ (|s - l| = |s - x| ∧ l ≤ x)

/-- No level is nearer to `s` than `l`, and none as near is lower. -/
def IsNearest (levels : List α) (s l : α) : Prop := l ∈ levels ∧ ∀ x ∈ levels, Nearer s l x

theorem Nearer.refl (s l : α) : Nearer s l l := .inr ⟨rfl, le_rfl⟩

theorem Nearer.trans {s a b c : α} (h : Nearer s a b) (h' : Nearer s b c) : Nearer s a c := by
  rcases h with h | ⟨h, hab⟩
  · rcases h' with h' | ⟨h', -⟩
    · exact .inl (h.trans h')
    · exact .inl (h' ▸ h)
  · rcases h' with h' | ⟨h', hbc⟩
    · exact .inl (h ▸ h')
    · exact .inr ⟨h.trans h', hab.trans hbc⟩

variable [IsOrderedAddMonoid α] {levels : List α} {s t l x : α}

/-- Below `s`, higher is nearer. -/
theorem nearer_of_le (hx : x ≤ l) (hl : l ≤ s) : Nearer s l x := by
  rw [Nearer, abs_of_nonneg (sub_nonneg.2 hl), abs_of_nonneg (sub_nonneg.2 (hx.trans hl))]
  rcases hx.eq_or_lt with rfl | hlt
  · exact .inr ⟨rfl, le_rfl⟩
  · exact .inl (sub_lt_sub_left hlt s)

/-- Above `s`, lower is nearer. -/
theorem nearer_of_ge (hl : s ≤ l) (hx : l ≤ x) : Nearer s l x := by
  rw [Nearer, abs_of_nonpos (sub_nonpos.2 hl), abs_of_nonpos (sub_nonpos.2 (hl.trans hx))]
  rcases hx.eq_or_lt with rfl | hlt
  · exact .inr ⟨rfl, le_rfl⟩
  · exact .inl (neg_lt_neg (sub_lt_sub_left hlt s))

theorem IsNearest.self (h : IsNearest levels s l) (hs : s ∈ levels) : l = s := by
  rcases h.2 s hs with hlt | ⟨heq, -⟩
  · rw [sub_self, abs_zero] at hlt
    exact absurd hlt (not_lt.2 (abs_nonneg _))
  · rw [sub_self, abs_zero, abs_eq_zero, sub_eq_zero] at heq
    exact heq.symm

/-- What is nearest moves with `s`. -/
theorem IsNearest.mono {l' : α} (h : IsNearest levels s l) (h' : IsNearest levels t l') (hst : s ≤ t) : l ≤ l' := by
  by_contra hn
  have hlt : l' < l := not_le.1 hn
  -- `s` is nearer to the higher level, and `t` not farther from the lower one
  have hs : |s - l| < |s - l'| := (h.2 l' h'.1).resolve_right fun hc => hn hc.2
  have ht : |t - l'| ≤ |t - l| := (h'.2 l h.1).elim le_of_lt fun hc => hc.1.le
  have hs' : l' < s := by
    by_contra hc
    rcases nearer_of_ge (not_lt.1 hc) hlt.le with hr | hr
    · exact lt_asymm hs hr
    · exact hs.ne' hr.1
  have ht' : t < l := by
    by_contra hc
    rcases nearer_of_le hlt.le (not_lt.1 hc) with hr | ⟨-, hr⟩
    · exact not_lt.2 ht hr
    · exact hn hr
  rw [abs_of_neg (sub_neg.2 (hst.trans_lt ht')), abs_of_pos (sub_pos.2 hs'), neg_sub] at hs
  rw [abs_of_pos (sub_pos.2 (hs'.trans_le hst)), abs_of_neg (sub_neg.2 ht'), neg_sub] at ht
  have h1 : l - s < l - t := hs.trans_le ((sub_le_sub_right hst l').trans ht)
  exact not_lt.2 hst (sub_lt_sub_iff_left l |>.1 h1)

end

/-! ## Searching a sorted table -/

section

variable {α β : Type*} [LinearOrder α] {key : β → α} {table : List β}

/-- `numpy.searchsorted`: how many keys are below `s`. -/
def searchsorted (key : β → α) (table : List β) (s : α) : Nat := table.countP fun b => key b < s

theorem lt_searchsorted (h : table.Pairwise fun b c => key b ≤ key c) (s : α) {i : Nat} (hi : i < table.length) :
    i < searchsorted key table s ↔ key table[i] < s := by
  induction table generalizing i with
  | nil => simp at hi
  | cons b bs ih =>
    obtain ⟨hb, hbs⟩ := List.pairwise_cons.1 h
    by_cases hlt : key b < s
    · have hc : searchsorted key (b :: bs) s = searchsorted key bs s + 1 := by simp [searchsorted, hlt]
      cases i with
      | zero => simp [hc, hlt]
      | succ i =>
        rw [hc, List.getElem_cons_succ]
        exact Nat.succ_lt_succ_iff.trans (ih hbs (Nat.lt_of_succ_lt_succ hi))
    · have hc : searchsorted key (b :: bs) s = 0 := by
        rw [searchsorted, List.countP_eq_zero]
        intro c hc
        rcases List.mem_cons.1 hc with rfl | hc
        · simpa using hlt
        · simpa using (not_lt.1 hlt).trans (hb c hc)
      rw [hc]
      refine iff_of_false (Nat.not_lt_zero i) (not_lt.2 ((not_lt.1 hlt).trans ?_))
      cases i with
      | zero => exact le_rfl
      | succ i => exact hb _ (List.getElem_mem _)

theorem key_le (h : table.Pairwise fun b c => key b ≤ key c) {i j : Nat} (hij : i ≤ j) (hj : j < table.length) :
    key table[i] ≤ key table[j] := by
  rcases hij.eq_or_lt with rfl | hlt
  · exact le_rfl
  · exact List.pairwise_iff_getElem.1 h i j (hij.trans_lt hj) hj hlt

end

section

variable {α β : Type*} [AddCommGroup α] [LinearOrder α] {key : β → α} {table : List β}

/-- The entry at the place of `s`, or the one before it if that is as near. -/
def pick (key : β → α) (table : List β) (d : β) (s : α) : β :=
  let idx := min (searchsorted key table s) (table.length - 1)
  let below := table.getD (idx - 1) d
  let above := table.getD idx d
  if |s - key below| ≤ |s - key above| then below else above

/-- **`pick_isNearest`**: the entry picked is of the table, and its key is nearest. -/
theorem pick_isNearest [IsOrderedAddMonoid α] (hne : table ≠ []) (h : table.Pairwise fun b c => key b ≤ key c)
    (d : β) (s : α) : pick key table d s ∈ table ∧ IsNearest (table.map key) s (key (pick key table d s)) := by
  have hpos : 0 < table.length := List.length_pos_iff.2 hne
  have hk : searchsorted key table s ≤ table.length := List.countP_le_length
  unfold pick
  dsimp only
  generalize hidx : min (searchsorted key table s) (table.length - 1) = idx
  have hi : idx < table.length := by omega
  have hi' : idx - 1 < table.length := by omega
  rw [List.getD_eq_getElem _ _ hi, List.getD_eq_getElem _ _ hi']
  -- one of the two is at least as near as any other entry
  have hcover : ∀ j (hj : j < table.length),
      Nearer s (key table[idx - 1]) (key table[j]) ∨ Nearer s (key table[idx]) (key table[j]) := by
    intro j hj
    by_cases hjk : j < searchsorted key table s
    · by_cases hkn : searchsorted key table s < table.length
      · have hb := (lt_searchsorted h s hi').1 (by omega)
        exact .inl (nearer_of_le (key_le h (by omega) hi') hb.le)
      · have ha := (lt_searchsorted h s hi).1 (by omega)
        exact .inr (nearer_of_le (key_le h (by omega) hi) ha.le)
    · have ha := not_lt.1 (mt (lt_searchsorted h s hi).2 (by omega))
      exact .inr (nearer_of_ge ha (key_le h (by omega) hj))
  have hle : key table[idx - 1] ≤ key table[idx] := key_le h (Nat.sub_le idx 1) hi
  split
  · rename_i hc
    have hnear : Nearer s (key table[idx - 1]) (key table[idx]) := hc.lt_or_eq.imp_right fun he => ⟨he, hle⟩
    refine ⟨List.getElem_mem _, List.mem_map_of_mem (List.getElem_mem _), List.forall_mem_map.2 fun b hb => ?_⟩
    obtain ⟨j, hj, rfl⟩ := List.mem_iff_getElem.1 hb
    exact (hcover j hj).elim id hnear.trans
  · rename_i hc
    have hnear : Nearer s (key table[idx]) (key table[idx - 1]) := .inl (not_le.1 hc)
    refine ⟨List.getElem_mem _, List.mem_map_of_mem (List.getElem_mem _), List.forall_mem_map.2 fun b hb => ?_⟩
    obtain ⟨j, hj, rfl⟩ := List.mem_iff_getElem.1 hb
    exact (hcover j hj).elim hnear.trans id

end

end Nearest
