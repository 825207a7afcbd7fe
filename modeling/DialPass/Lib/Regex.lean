import Mathlib
/-!
# Backtracking regular expressions

`run r s` lists what a match at the start of `s` may consume and what it leaves, in the order in which a
backtracking engine tries them; `search` is the leftmost match. A pattern is given in two parts, of which the
second is the group that is asked for. `search_append` says when reading on changes nothing: the two parts
split a match in one way only, and no match can begin inside another.
-/

/-- Classes, one or more of a class (greedily), concatenation and alternation. -/
inductive Regex (α : Type) where
  | eps
  | one (p : α → Bool)
  | many (p : α → Bool)
  | seq (r r' : Regex α)
  | alt (r r' : Regex α)

namespace Regex

variable {α : Type}

/-- A class after the other. -/
def word (ps : List (α → Bool)) : Regex α := ps.foldr (fun p r => seq (one p) r) eps

def runMany (p : α → Bool) : List α → List (List α × List α)
  | [] => []
  | c :: cs => if p c then (runMany p cs).map (fun m => (c :: m.1, m.2)) ++ [([c], cs)] else []

def run : Regex α → List α → List (List α × List α)
  | eps, s => [([], s)]
  | one _, [] => []
  | one p, c :: cs => if p c then [([c], cs)] else []
  | many p, s => runMany p s
  | seq r r', s => (r.run s).flatMap fun m => (r'.run m.2).map fun n => (m.1 ++ n.1, n.2)
  | alt r r', s => r.run s ++ r'.run s

/-- The text of the group, in the first match at the start of the text. -/
def matchHere (r g : Regex α) (s : List α) : Option (List α) :=
  ((r.run s).flatMap fun m => (g.run m.2).map (·.1)).head?

/-- The text of the group, in the leftmost match. -/
def search (r g : Regex α) : List α → Option (List α)
  | [] => matchHere r g []
  | c :: cs => (matchHere r g (c :: cs)).or (search r g cs)

/-- Up to `n` of a class, as few as will do. -/
def lazyUpTo (p : α → Bool) : Nat → Regex α
  | 0 => eps
  | n + 1 => alt eps (seq (one p) (lazyUpTo p n))

/-- `\b` between two neighbours, either of which may be missing: one of them is of a word, the other is not. -/
def boundary (isWord : α → Bool) (prev next : Option α) : Bool := prev.any isWord != next.any isWord

/-- Whether `\b(r)\b` is found in a text that follows `prev`. -/
def hasWord (isWord : α → Bool) (r : Regex α) (prev : Option α) : List α → Bool
  | [] => false
  | c :: cs =>
    (boundary isWord prev (some c) &&
      (r.run (c :: cs)).any fun m => boundary isWord (m.1.getLast?.or prev) m.2.head?) ||
    hasWord isWord r (some c) cs

/-- The language of an expression. -/
def Matches : Regex α → List α → Prop
  | eps, m => m = []
  | one p, m => ∃ c, p c = true ∧ m = [c]
  | many p, m => m ≠ [] ∧ ∀ c ∈ m, p c = true
  | seq r r', m => ∃ x y, m = x ++ y ∧ r.Matches x ∧ r'.Matches y
  | alt r r', m => r.Matches m ∨ r'.Matches m

theorem mem_runMany {p : α → Bool} {s m rest : List α} :
    (m, rest) ∈ runMany p s ↔ s = m ++ rest ∧ m ≠ [] ∧ ∀ c ∈ m, p c = true := by
  induction s generalizing m with
  | nil =>
    simp only [runMany, List.not_mem_nil, false_iff]
    rintro ⟨hs, hm, -⟩
    exact hm (List.append_eq_nil_iff.1 hs.symm).1
  | cons c cs ih =>
    by_cases hc : p c = true
    · simp only [runMany, hc, if_true, List.mem_append, List.mem_map, List.mem_singleton, Prod.mk.injEq,
        Prod.exists]
      constructor
      · rintro (⟨m', rest', hm', rfl, rfl⟩ | ⟨rfl, rfl⟩)
        · obtain ⟨rfl, -, hall⟩ := ih.1 hm'
          exact ⟨rfl, List.cons_ne_nil _ _, by simpa [hc] using hall⟩
        · exact ⟨rfl, List.cons_ne_nil _ _, by simpa using hc⟩
      · rintro ⟨hs, hm, hall⟩
        obtain ⟨d, m', rfl⟩ := List.exists_cons_of_ne_nil hm
        obtain ⟨rfl, rfl⟩ := List.cons.inj hs
        rcases eq_or_ne m' [] with rfl | hne
        · exact .inr ⟨rfl, rfl⟩
        · exact .inl ⟨m', rest, ih.2 ⟨rfl, hne, fun c hmem => hall c (List.mem_cons_of_mem _ hmem)⟩, rfl, rfl⟩
    · simp only [runMany, hc, Bool.false_eq_true, if_false, List.not_mem_nil, false_iff]
      rintro ⟨hs, hm, hall⟩
      obtain ⟨d, m', rfl⟩ := List.exists_cons_of_ne_nil hm
      obtain ⟨rfl, -⟩ := List.cons.inj hs
      exact hc (hall c List.mem_cons_self)

/-- The engine finds the prefixes in the language. -/
theorem mem_run {r : Regex α} {s m rest : List α} : (m, rest) ∈ r.run s ↔ s = m ++ rest ∧ r.Matches m := by
  induction r generalizing s m rest with
  | eps => simp only [run, List.mem_singleton, Prod.mk.injEq, Matches]; grind
  | one p =>
    cases s with
    | nil =>
      simp only [run, List.not_mem_nil, Matches, false_iff]
      rintro ⟨hs, c, -, rfl⟩
      cases hs
    | cons c cs =>
      by_cases hc : p c = true
      · simp only [run, hc, if_true, List.mem_singleton, Prod.mk.injEq, Matches]; grind
      · simp only [run, hc, Bool.false_eq_true, if_false, List.not_mem_nil, Matches, false_iff]; grind
  | many p => exact mem_runMany
  | seq r r' ih ih' =>
    simp only [run, List.mem_flatMap, List.mem_map, Prod.exists, Prod.mk.injEq, Matches]
    constructor
    · rintro ⟨x, s', hx, y, rest', hy, rfl, rfl⟩
      obtain ⟨rfl, hmx⟩ := ih.1 hx
      obtain ⟨rfl, hmy⟩ := ih'.1 hy
      exact ⟨(List.append_assoc ..).symm, x, y, rfl, hmx, hmy⟩
    · rintro ⟨rfl, x, y, rfl, hx, hy⟩
      exact ⟨x, y ++ rest, ih.2 ⟨List.append_assoc .., hx⟩, y, rest, ih'.2 ⟨rfl, hy⟩, rfl, rfl⟩
  | alt r r' ih ih' => simp only [run, List.mem_append, ih, ih', Matches, and_or_left]

/-! ## One way to match -/

/-- No match begins another one. -/
def Free (r : Regex α) : Prop :=
  ∀ m m' x x' : List α, r.Matches m → r.Matches m' → m ++ x = m' ++ x' → m = m'

/-- A match splits into the two parts in one way. -/
def Decisive (r g : Regex α) : Prop :=
  ∀ m m' n n' x x' : List α, r.Matches m → r.Matches m' → g.Matches n → g.Matches n' →
    m ++ (n ++ x) = m' ++ (n' ++ x') → m = m' ∧ n = n'

/-- Every match begins in the class. -/
def Begins (r : Regex α) (p : α → Prop) : Prop := ∀ m, r.Matches m → ∃ c cs, m = c :: cs ∧ p c

variable {r r' g : Regex α} {p : α → Bool}

theorem Begins.mono {q q' : α → Prop} (h : r.Begins q) (hq : ∀ c, q c → q' c) : r.Begins q' := fun m hm =>
  let ⟨c, cs, hc, hp⟩ := h m hm
  ⟨c, cs, hc, hq c hp⟩

theorem Begins.seq {q : α → Prop} (h : r.Begins q) : (seq r r').Begins q := by
  rintro _ ⟨x, y, rfl, hx, -⟩
  obtain ⟨c, cs, rfl, hc⟩ := h x hx
  exact ⟨c, cs ++ y, rfl, hc⟩

theorem Begins.alt {q : α → Prop} (h : r.Begins q) (h' : r'.Begins q) : (alt r r').Begins q := fun m hm =>
  hm.elim (h m) (h' m)

theorem begins_word (ps : List (α → Bool)) : (word (p :: ps)).Begins (p · = true) := by
  rintro _ ⟨_, y, rfl, ⟨c, hc, rfl⟩, -⟩
  exact ⟨c, y, rfl, hc⟩

theorem free_one (p : α → Bool) : (one p).Free := by
  rintro _ _ x x' ⟨c, -, rfl⟩ ⟨c', -, rfl⟩ h
  rw [(List.cons.inj h).1]

theorem Free.seq (h : r.Free) (h' : r'.Free) : (seq r r').Free := by
  rintro _ _ x x' ⟨m, n, rfl, hm, hn⟩ ⟨m', n', rfl, hm', hn'⟩ he
  rw [List.append_assoc, List.append_assoc] at he
  obtain rfl := h _ _ _ _ hm hm' he
  rw [h' _ _ _ _ hn hn' (List.append_cancel_left he)]

theorem free_word (ps : List (α → Bool)) : (word ps).Free := by
  induction ps with
  | nil => rintro _ _ x x' rfl rfl -; rfl
  | cons p ps ih => exact (free_one p).seq ih

theorem Free.alt {q : α → Prop} (h : r.Free) (h' : r'.Free) (hb : r.Begins q) (hb' : r'.Begins (¬ q ·)) :
    (alt r r').Free := by
  rintro m m' x x' (hm | hm) (hm' | hm') he
  · exact h _ _ _ _ hm hm' he
  · obtain ⟨c, cs, rfl, hc⟩ := hb m hm
    obtain ⟨c', cs', rfl, hc'⟩ := hb' m' hm'
    exact absurd ((List.cons.inj he).1 ▸ hc) hc'
  · obtain ⟨c, cs, rfl, hc⟩ := hb' m hm
    obtain ⟨c', cs', rfl, hc'⟩ := hb m' hm'
    exact absurd ((List.cons.inj he).1 ▸ hc') hc
  · exact h' _ _ _ _ hm hm' he

/-- What follows a run of a class and is not of it ends the run. -/
theorem many_append_inj {m m' n n' : List α} (hm : ∀ c ∈ m, p c = true) (hm' : ∀ c ∈ m', p c = true)
    (hn : ∃ c cs, n = c :: cs ∧ p c ≠ true) (hn' : ∃ c cs, n' = c :: cs ∧ p c ≠ true)
    (h : m ++ n = m' ++ n') : m = m' ∧ n = n' := by
  obtain ⟨c, cs, rfl, hc⟩ := hn
  obtain ⟨c', cs', rfl, hc'⟩ := hn'
  have htake : m = m' := by
    have := congrArg (List.takeWhile p) h
    rwa [List.takeWhile_append_of_pos hm, List.takeWhile_append_of_pos hm', List.takeWhile_cons_of_neg hc,
      List.takeWhile_cons_of_neg hc', List.append_nil, List.append_nil] at this
  subst htake
  exact ⟨rfl, List.append_cancel_left h⟩

/-- A run of a class, then something that does not begin in it. -/
theorem Free.decisive_many (h : r.Free) (hg : g.Free) (hb : g.Begins (p · ≠ true)) :
    Decisive (.seq r (many p)) g := by
  rintro _ _ n n' x x' ⟨a, b, rfl, ha, hbm⟩ ⟨a', b', rfl, ha', hbm'⟩ hn hn' he
  simp only [List.append_assoc] at he
  obtain rfl := h _ _ _ _ ha ha' he
  have he' : b ++ (n ++ x) = b' ++ (n' ++ x') := List.append_cancel_left he
  obtain ⟨c, cs, rfl, hc⟩ := hb n hn
  obtain ⟨c', cs', rfl, hc'⟩ := hb n' hn'
  obtain ⟨rfl, hrest⟩ := many_append_inj hbm.2 hbm'.2 ⟨c, cs ++ x, rfl, hc⟩ ⟨c', cs' ++ x', rfl, hc'⟩ he'
  exact ⟨rfl, hg _ _ _ _ hn hn' hrest⟩

theorem Decisive.free (h : Decisive r g) : (seq r g).Free := by
  rintro _ _ x x' ⟨m, n, rfl, hm, hn⟩ ⟨m', n', rfl, hm', hn'⟩ he
  simp only [List.append_assoc] at he
  obtain ⟨rfl, rfl⟩ := h _ _ _ _ _ _ hm hm' hn hn' he
  rfl

/-! ## Searching -/

variable {s t n : List α}

theorem matchHere_eq_none : matchHere r g s = none ↔
    ∀ m n rest, r.Matches m → g.Matches n → s ≠ m ++ (n ++ rest) := by
  unfold matchHere
  rw [List.head?_eq_none_iff, List.flatMap_eq_nil_iff]
  constructor
  · intro h m n rest hm hn hs
    have hg := h (m, n ++ rest) (mem_run.2 ⟨hs, hm⟩)
    rw [List.map_eq_nil_iff] at hg
    exact List.ne_nil_of_mem (mem_run.2 ⟨rfl, hn⟩) hg
  · rintro h ⟨m, s'⟩ hmem
    obtain ⟨hs, hm⟩ := mem_run.1 hmem
    rw [List.map_eq_nil_iff, List.eq_nil_iff_forall_not_mem]
    rintro ⟨n, rest⟩ hmem'
    obtain ⟨rfl, hn⟩ := mem_run.1 hmem'
    exact h m n rest hm hn hs

theorem matchHere_some (h : matchHere r g s = some n) : ∃ m rest, r.Matches m ∧ g.Matches n ∧
    s = m ++ (n ++ rest) := by
  have hmem := List.mem_of_mem_head? h
  simp only [List.mem_flatMap, List.mem_map, Prod.exists, exists_and_right, exists_eq_right] at hmem
  obtain ⟨m, s', hrm, rest, hgn⟩ := hmem
  obtain ⟨rfl, hm⟩ := mem_run.1 hrm
  obtain ⟨rfl, hn⟩ := mem_run.1 hgn
  exact ⟨m, rest, hm, hn, rfl⟩

theorem Decisive.matchHere_eq (hd : Decisive r g) {m rest : List α} (hm : r.Matches m) (hn : g.Matches n) :
    matchHere r g (m ++ (n ++ rest)) = some n := by
  cases h : matchHere r g (m ++ (n ++ rest)) with
  | none => exact absurd rfl (matchHere_eq_none.1 h m n rest hm hn)
  | some n' =>
    obtain ⟨m', rest', hm', hn', he⟩ := matchHere_some h
    rw [(hd _ _ _ _ _ _ hm hm' hn hn' he).2]

theorem search_some (h : search r g s = some n) : ∃ pre m rest, r.Matches m ∧ g.Matches n ∧
    s = pre ++ (m ++ (n ++ rest)) := by
  induction s with
  | nil =>
    obtain ⟨m, rest, hm, hn, he⟩ := matchHere_some h
    exact ⟨[], m, rest, hm, hn, he⟩
  | cons c cs ih =>
    rw [search, Option.or_eq_some_iff] at h
    rcases h with h | ⟨-, h⟩
    · obtain ⟨m, rest, hm, hn, he⟩ := matchHere_some h
      exact ⟨[], m, rest, hm, hn, he⟩
    · obtain ⟨pre, m, rest, hm, hn, he⟩ := ih h
      exact ⟨c :: pre, m, rest, hm, hn, by rw [he]; rfl⟩

/-- Where a match has one way to go and no match can begin inside another, text to come decides nothing. -/
theorem search_append (hd : Decisive r g) {q : α → Prop} (hr : ∀ m, r.Matches m → ∃ c cs, m = c :: cs ∧ q c ∧
      ∀ d ∈ cs, ¬ q d) (hg : ∀ n, g.Matches n → ∀ d ∈ n, ¬ q d) (h : search r g s = some n) (t : List α) :
    search r g (s ++ t) = some n := by
  induction s with
  | nil =>
    obtain ⟨m, rest, hm, -, he⟩ := matchHere_some h
    obtain ⟨c, cs, rfl, -⟩ := hr m hm
    cases he
  | cons c cs ih =>
    rw [search, Option.or_eq_some_iff] at h
    rw [List.cons_append, search, Option.or_eq_some_iff]
    rcases h with h | ⟨hnone, h⟩
    · obtain ⟨m, rest, hm, hn, he⟩ := matchHere_some h
      left
      rw [← List.cons_append, he, List.append_assoc, List.append_assoc]
      exact hd.matchHere_eq hm hn
    · refine .inr ⟨?_, ih h⟩
      rw [matchHere_eq_none] at hnone ⊢
      intro m n' rest hm hn' he
      obtain ⟨d, ds, rfl, -, hds⟩ := hr m hm
      obtain ⟨rfl, hcs⟩ := List.cons.inj he
      have he' : cs ++ t = (ds ++ n') ++ rest := hcs.trans (List.append_assoc ..).symm
      -- a match reaching past `cs` would cover the beginning of the one in `cs`
      rcases List.append_eq_append_iff.1 he' with ⟨w, hw, -⟩ | ⟨w, hw, -⟩
      · obtain ⟨pre, m', rest', hm', -, rfl⟩ := search_some h
        obtain ⟨d', ds', rfl, hd', -⟩ := hr m' hm'
        have hmem : d' ∈ ds ++ n' := by rw [hw]; simp
        rcases List.mem_append.1 hmem with hmem | hmem
        · exact hds d' hmem hd'
        · exact hg n' hn' d' hmem hd'
      · refine hnone (c :: ds) n' w hm hn' ?_
        rw [hw, List.append_assoc]
        rfl

end Regex
