import Mathlib
/-!
# What a nondeterministic run cannot avoid

`R i s t` is one step under input `i`, which may go more than one way. `Until Goal Q is s` says that whichever way
the inputs `is` are taken from `s`, a state in `Goal` is passed, or the run ends in `Q`. It composes like a
weakest precondition:

* `Until.mono`, `Until.append` — weaker ends; one run after another;
* `Until.replicate` — a loop, with an invariant that counts its rounds;
* `Until.variant` — rounds of inputs, each of which brings a variant down;
* `not_until` — an invariant that can always be kept.
-/

namespace Run

variable {σ ι : Type*} (R : ι → σ → σ → Prop) (Goal : σ → Prop)

def Until (Q : σ → Prop) : List ι → σ → Prop
  | [], s => Goal s ∨ Q s
  | i :: is, s => Goal s ∨ ∀ t, R i s t → Until Q is t

variable {R Goal}

theorem Until.goal {Q : σ → Prop} {s : σ} (h : Goal s) (is : List ι) : Until R Goal Q is s := by
  cases is <;> exact .inl h

theorem Until.mono {Q Q' : σ → Prop} (hQ : ∀ s, Q s → Q' s) :
    ∀ {is : List ι} {s : σ}, Until R Goal Q is s → Until R Goal Q' is s
  | [], _, h => h.imp_right (hQ _)
  | _ :: _, _, h => h.imp_right fun h t ht => (h t ht).mono hQ

theorem Until.append {Q : σ → Prop} {js : List ι} :
    ∀ {is : List ι} {s : σ}, Until R Goal (Until R Goal Q js) is s → Until R Goal Q (is ++ js) s
  | [], _, h => h.elim (fun hg => Until.goal hg js) id
  | _ :: _, _, h => h.imp_right fun h t ht => (h t ht).append

/-- `I k` holds after `k` steps of the same input. -/
theorem Until.replicate {I : Nat → σ → Prop} {i : ι} {n : Nat}
    (hstep : ∀ k < n, ∀ s t, I k s → R i s t → Goal t ∨ I (k + 1) t) {s : σ} (h : I 0 s) :
    Until R Goal (I n) (List.replicate n i) s := by
  induction n generalizing I s with
  | zero => exact .inr h
  | succ n ih =>
    refine .inr fun t ht => ?_
    rcases hstep 0 (Nat.succ_pos n) s t h ht with hg | hI
    · exact Until.goal hg _
    · exact ih (I := fun k => I (k + 1)) (fun k hk => hstep (k + 1) (Nat.succ_lt_succ hk)) hI

/-- Rounds that each pass the goal or bring the variant down pass it before it is gone. -/
theorem Until.variant {V : Nat → σ → Prop} {rounds : List (List ι)}
    (hround : ∀ r ∈ rounds, ∀ j s, V (j + 1) s → Until R Goal (V j) r s) (h0 : ∀ s, ¬ V 0 s) {s : σ}
    (h : V rounds.length s) : Until R Goal (fun _ => False) rounds.flatten s := by
  induction rounds generalizing s with
  | nil => exact absurd h (h0 s)
  | cons r rounds ih =>
    have hr := hround r List.mem_cons_self rounds.length s h
    have hrest : ∀ t, V rounds.length t → Until R Goal (fun _ => False) rounds.flatten t := fun t ht =>
      ih (fun r hr => hround r (List.mem_cons_of_mem _ hr)) ht
    exact (hr.mono hrest).append

/-- What can always be kept up, the goal cannot be part of. -/
theorem not_until {I : σ → Prop} {C : ι → Prop} (hgoal : ∀ s, I s → ¬ Goal s)
    (hstep : ∀ s i, C i → I s → ∃ t, R i s t ∧ I t) {is : List ι} (hC : ∀ i ∈ is, C i) {s : σ} (h : I s) :
    ¬ Until R Goal (fun _ => False) is s := by
  induction is generalizing s with
  | nil => exact fun hu => hu.elim (hgoal s h) id
  | cons i is ih =>
    obtain ⟨hi, his⟩ := List.forall_mem_cons.1 hC
    obtain ⟨t, ht, hIt⟩ := hstep s i hi h
    exact fun hu => hu.elim (hgoal s h) fun hall => ih his hIt (hall t ht)

end Run
