import Mathlib
/-!
# Runs of a step function

`step : σ → ι → σ` is one step of a deterministic system under an input; a run feeds it a list
of inputs. `Along C` says that every step of a run meets `C` at the state it is taken in, and
`Always P` that every state the run passes through meets `P`. The rules below are the only
inductions over runs a development needs:

* `exec_inv`, `exec_inv_along`, `exec_inv_of_forall` — an invariant of one step, of the steps that meet `C`, or of
  steps of one kind is one of a run;
* `always_of_inv` — so every state of the run meets it; `always_of_along`, `always_of_step` — in the runs whose steps
  meet `C`;
* `exec_sim` — a simulation of steps is one of runs;
* `exec_sim_filterMap`, `exec_sim_filter` — the same when one side does not take the steps that are silent;
* `along_of_exec_inv`, `along_of_inv` — what each step guarantees under an invariant, every step of a run
  guarantees;
* `along_iff`, `along_congr`, `always_iff_along` — a one-step equivalence lifts to runs;
* `always_iff_along_variants` — the same when each input stands for all its variants under `R`;
* `along_of_back` — what a step cannot bring about, and holds at the end, held all along;
* `outputs_spec`, `outputs_spec_along`, `outputs_congr_of` — what a run puts out, step by step, is what its state
  has recorded; steps that put out the same do so over a run.

A monitor over a log is the same thing: `step` reads one entry and `Along Ok` accepts the log.
-/

namespace Run

variable {σ ι : Type*} (step : σ → ι → σ)

def exec (s : σ) (is : List ι) : σ := is.foldl step s

/-- `C` holds of each step, at the state it is taken in. -/
def Along (C : σ → ι → Prop) : σ → List ι → Prop
  | _, [] => True
  | s, i :: is => C s i ∧ Along C (step s i) is

/-- `P` holds of each state passed through, the first and the last included. -/
def Always (P : σ → Prop) (s : σ) (is : List ι) : Prop := ∀ pre, pre <+: is → P (exec step s pre)

instance Along.decidable (C : σ → ι → Prop) [h : ∀ s i, Decidable (C s i)] :
    ∀ s is, Decidable (Along step C s is)
  | _, [] => .isTrue trivial
  | s, i :: is => @instDecidableAnd _ _ (h s i) (Along.decidable C (step s i) is)

@[simp] theorem exec_nil (s : σ) : exec step s [] = s := rfl

@[simp] theorem exec_cons (s : σ) (i : ι) (is : List ι) :
    exec step s (i :: is) = exec step (step s i) is := rfl

@[simp] theorem exec_append (s : σ) (is js : List ι) :
    exec step s (is ++ js) = exec step (exec step s is) js := List.foldl_append

@[simp] theorem along_nil (C : σ → ι → Prop) (s : σ) : Along step C s [] := trivial

@[simp] theorem along_cons (C : σ → ι → Prop) (s : σ) (i : ι) (is : List ι) :
    Along step C s (i :: is) ↔ C s i ∧ Along step C (step s i) is := Iff.rfl

@[simp] theorem along_append (C : σ → ι → Prop) :
    ∀ (is js : List ι) (s : σ),
      Along step C s (is ++ js) ↔ Along step C s is ∧ Along step C (exec step s is) js
  | [], js, s => by simp
  | i :: is, js, s => by
    simp only [List.cons_append, along_cons, exec_cons, along_append C is js, and_assoc]

/-- `Along` by positions: the step after any prefix meets `C`. -/
theorem along_iff_split (C : σ → ι → Prop) (s : σ) (is : List ι) :
    Along step C s is ↔ ∀ pre i post, is = pre ++ i :: post → C (exec step s pre) i := by
  constructor
  · rintro h pre i post rfl
    rw [along_append, along_cons] at h
    exact h.2.1
  · induction is generalizing s with
    | nil => intro _; trivial
    | cons j js ih =>
      intro h
      refine ⟨h [] j js rfl, ih _ fun pre i post e => ?_⟩
      exact h (j :: pre) i post (by rw [e]; rfl)

variable {step}

theorem exec_inv {I : σ → Prop} (hstep : ∀ s i, I s → I (step s i)) :
    ∀ (is : List ι) (s : σ), I s → I (exec step s is)
  | [], _, h => h
  | i :: is, s, h => exec_inv hstep is _ (hstep s i h)

theorem exec_inv_along {I : σ → Prop} {C : σ → ι → Prop} (hstep : ∀ s i, C s i → I s → I (step s i)) :
    ∀ (is : List ι) (s : σ), Along step C s is → I s → I (exec step s is)
  | [], _, _, h => h
  | i :: is, s, hC, h => exec_inv_along hstep is _ hC.2 (hstep s i hC.1 h)

/-- Steps of one kind keep what each of them keeps. -/
theorem exec_inv_of_forall {I : σ → Prop} {C : ι → Prop} (hstep : ∀ s i, C i → I s → I (step s i)) :
    ∀ (is : List ι) (s : σ), (∀ i ∈ is, C i) → I s → I (exec step s is)
  | [], _, _, h => h
  | i :: is, s, hC, h =>
    exec_inv_of_forall hstep is _ (fun j hj => hC j (List.mem_cons_of_mem _ hj))
      (hstep s i (hC i List.mem_cons_self) h)

theorem along_of_inv {I : σ → Prop} {C Q : σ → ι → Prop}
    (hstep : ∀ s i, I s → C s i → I (step s i)) (hQ : ∀ s i, I s → C s i → Q s i) :
    ∀ (is : List ι) (s : σ), I s → Along step C s is → Along step Q s is
  | [], _, _, _ => trivial
  | i :: is, s, h, hC =>
    ⟨hQ s i h hC.1, along_of_inv hstep hQ is _ (hstep s i h hC.1) hC.2⟩

/-- A simulation of steps is one of runs. -/
theorem exec_sim {τ : Type*} {step' : τ → ι → τ} {R : σ → τ → Prop} {C : σ → ι → Prop}
    (hstep : ∀ s t i, R s t → C s i → R (step s i) (step' t i)) :
    ∀ (is : List ι) (s : σ) (t : τ), R s t → Along step C s is → R (exec step s is) (exec step' t is)
  | [], _, _, h, _ => h
  | i :: is, s, t, h, hC => exec_sim hstep is _ _ (hstep s t i h hC.1) hC.2

/-- The other side takes a step of its own for each that it sees, if one it does not see keeps the relation. -/
theorem exec_sim_filterMap {τ κ : Type*} {step' : τ → κ → τ} {R : σ → τ → Prop} (f : ι → Option κ)
    (hstep : ∀ s t i k, f i = some k → R s t → R (step s i) (step' t k))
    (hsilent : ∀ s t i, f i = none → R s t → R (step s i) t) :
    ∀ (is : List ι) (s : σ) (t : τ), R s t → R (exec step s is) (exec step' t (is.filterMap f))
  | [], _, _, h => h
  | i :: is, s, t, h => by
    cases hf : f i with
    | some k =>
      rw [List.filterMap_cons_some hf]
      exact exec_sim_filterMap f hstep hsilent is _ _ (hstep s t i k hf h)
    | none =>
      rw [List.filterMap_cons_none hf]
      exact exec_sim_filterMap f hstep hsilent is _ _ (hsilent s t i hf h)

/-- The same steps, as far as it sees them. -/
theorem exec_sim_filter {τ : Type*} {step' : τ → ι → τ} {R : σ → τ → Prop} (visible : ι → Bool)
    (hstep : ∀ s t i, visible i = true → R s t → R (step s i) (step' t i))
    (hsilent : ∀ s t i, visible i = false → R s t → R (step s i) t) (is : List ι) (s : σ) (t : τ) (h : R s t) :
    R (exec step s is) (exec step' t (is.filter visible)) := by
  rw [← List.filterMap_eq_filter]
  refine exec_sim_filterMap _ (fun s t i k hk => ?_) (fun s t i hi => ?_) is s t h
  · obtain ⟨rfl, hv⟩ := Option.guard_eq_some_iff.1 hk
    exact hstep s t i hv
  · exact hsilent s t i (Option.guard_eq_none_iff.1 hi)

/-- What holds no later than it ever did, and at the end, holds all along. -/
theorem along_of_back {P : σ → Prop} (hback : ∀ s i, P (step s i) → P s) :
    ∀ (is : List ι) (s : σ), P (exec step s is) → Along step (fun s i => P (step s i)) s is ∧ P s
  | [], _, h => ⟨trivial, h⟩
  | i :: is, s, h => by
    obtain ⟨hrest, hs⟩ := along_of_back hback is (step s i) h
    exact ⟨⟨hs, hrest⟩, hback s i hs⟩

/-- Along with a condition on the inputs. -/
theorem along_and_forall {C : σ → ι → Prop} {D : ι → Prop} :
    ∀ (is : List ι) (s : σ), Along step C s is → (∀ i ∈ is, D i) → Along step (fun s i => C s i ∧ D i) s is
  | [], _, _, _ => trivial
  | i :: is, _, h, hD =>
    ⟨⟨h.1, hD i List.mem_cons_self⟩, along_and_forall is _ h.2 fun j hj => hD j (List.mem_cons_of_mem _ hj)⟩

theorem along_of_exec_inv {I : σ → Prop} {Q : σ → ι → Prop} (hstep : ∀ s i, I s → I (step s i))
    (hQ : ∀ s i, I s → Q s i) : ∀ (is : List ι) (s : σ), I s → Along step Q s is
  | [], _, _ => trivial
  | i :: is, s, h => ⟨hQ s i h, along_of_exec_inv hstep hQ is _ (hstep s i h)⟩

theorem along_iff {I : σ → Prop} {C Q : σ → ι → Prop} (hstep : ∀ s i, I s → I (step s i))
    (h : ∀ s i, I s → (Q s i ↔ C s i)) :
    ∀ (is : List ι) (s : σ), I s → (Along step Q s is ↔ Along step C s is)
  | [], _, _ => Iff.rfl
  | i :: is, s, hI => and_congr (h s i hI) (along_iff hstep h is _ (hstep s i hI))

/-- The same in runs that meet `C`, if that is what it takes to keep the invariant. -/
theorem along_congr {I : σ → Prop} {C P Q : σ → ι → Prop} (hstep : ∀ s i, I s → C s i → I (step s i))
    (h : ∀ s i, I s → (P s i ↔ Q s i)) :
    ∀ (is : List ι) (s : σ), I s → Along step C s is → (Along step P s is ↔ Along step Q s is)
  | [], _, _, _ => Iff.rfl
  | i :: is, s, hI, hC => and_congr (h s i hI) (along_congr hstep h is _ (hstep s i hI hC.1) hC.2)

theorem always_cons {P : σ → Prop} (s : σ) (i : ι) (is : List ι) :
    Always step P s (i :: is) ↔ P s ∧ Always step P (step s i) is := by
  constructor
  · intro h
    refine ⟨h [] (by simp), fun pre hp => ?_⟩
    exact h (i :: pre) (by simpa using hp)
  · rintro ⟨h0, h⟩ pre hp
    cases pre with
    | nil => exact h0
    | cons j pre =>
      obtain ⟨rfl, hp'⟩ := List.cons_prefix_cons.1 hp
      exact h pre hp'

/-- A step keeps `P` exactly when it meets `C`, so a run stays in `P` exactly when its steps do. -/
theorem always_iff_along {I P : σ → Prop} {C : σ → ι → Prop}
    (hstep : ∀ s i, I s → I (step s i)) (h : ∀ s i, I s → P s → (P (step s i) ↔ C s i)) :
    ∀ (is : List ι) (s : σ), I s → P s → (Always step P s is ↔ Along step C s is)
  | [], s, _, hP => by simp [Always, hP]
  | i :: is, s, hI, hP => by
    rw [always_cons, along_cons]
    constructor
    · rintro ⟨-, ha⟩
      have hn : P (step s i) := ha [] (by simp)
      exact ⟨(h s i hI hP).1 hn, (always_iff_along hstep h is _ (hstep s i hI) hn).1 ha⟩
    · rintro ⟨hc, ha⟩
      have hn : P (step s i) := (h s i hI hP).2 hc
      exact ⟨hP, (always_iff_along hstep h is _ (hstep s i hI) hn).2 ha⟩

theorem always_of_inv {I : σ → Prop} (hstep : ∀ s i, I s → I (step s i)) (is : List ι) (s : σ) (h : I s) :
    Always step I s is := fun pre _ => exec_inv hstep pre s h

theorem always_of_along {I P : σ → Prop} {C : σ → ι → Prop}
    (hstep : ∀ s i, I s → C s i → I (step s i)) (hP : ∀ s, I s → P s) :
    ∀ (is : List ι) (s : σ), I s → Along step C s is → Always step P s is
  | [], s, hI, _ => by simpa [Always] using hP s hI
  | i :: is, s, hI, hC =>
    (always_cons s i is).2 ⟨hP s hI, always_of_along hstep hP is _ (hstep s i hI hC.1) hC.2⟩

/-- A run whose steps meet `C` stays in `P`, if that is what it takes for a step to keep `P`. -/
theorem always_of_step {I P : σ → Prop} {C : σ → ι → Prop}
    (hstep : ∀ s i, I s → P s → C s i → I (step s i) ∧ P (step s i)) (is : List ι) (s : σ) (hI : I s) (hP : P s)
    (hC : Along step C s is) : Always step P s is :=
  always_of_along (I := fun s => I s ∧ P s) (fun s i h => hstep s i h.1 h.2) (fun _ h => h.2) is s ⟨hI, hP⟩ hC

/-- If a step within `C` keeps `P`, and a step outside `C` has a variant that breaks `P`, then `P`
survives every variant of a run exactly when every variant stays within `C`. -/
theorem always_iff_along_variants {I P : σ → Prop} {C : σ → ι → Prop} {R : ι → ι → Prop}
    (hrefl : ∀ i, R i i) (htrans : ∀ i j k, R i j → R j k → R i k)
    (hstep : ∀ s i, I s → P s → C s i → I (step s i) ∧ P (step s i))
    (htight : ∀ s i, I s → P s → ¬ C s i → ∃ j, R i j ∧ ¬ P (step s j)) :
    ∀ (is : List ι) (s : σ), I s → P s →
      ((∀ js, List.Forall₂ R is js → Always step P s js) ↔ ∀ js, List.Forall₂ R is js → Along step C s js)
  | [], s, _, hP => by simp [Always, hP]
  | i :: is, s, hI, hP => by
    constructor
    · intro h js hjs
      obtain ⟨j, js, hij, hrest, rfl⟩ := List.forall₂_cons_left_iff.1 hjs
      have hC : C s j := by
        by_contra hn
        obtain ⟨k, hjk, hk⟩ := htight s j hI hP hn
        have hvar : List.Forall₂ R (i :: is) (k :: is) :=
          .cons (htrans i j k hij hjk) (List.forall₂_same.2 fun x _ => hrefl x)
        exact hk ((always_cons s k is).1 (h _ hvar) |>.2 [] (by simp))
      obtain ⟨hI', hP'⟩ := hstep s j hI hP hC
      refine ⟨hC, (always_iff_along_variants hrefl htrans hstep htight is _ hI' hP').1 (fun ks hks => ?_) js hrest⟩
      exact ((always_cons s j ks).1 (h _ (.cons hij hks))).2
    · intro h js hjs
      obtain ⟨j, js, hij, hrest, rfl⟩ := List.forall₂_cons_left_iff.1 hjs
      obtain ⟨hI', hP'⟩ := hstep s j hI hP (h _ (.cons hij hrest)).1
      refine (always_cons s j js).2 ⟨hP, ?_⟩
      exact (always_iff_along_variants hrefl htrans hstep htight is _ hI' hP').2
        (fun ks hks => (h _ (.cons hij hks)).2) js hrest

/-! ## What a run puts out -/

section outputs

variable {σ ι β : Type*} {step : σ → ι → σ}

/-- The outputs of a run, in order. -/
def outputs (step : σ → ι → σ) (out : σ → ι → List β) : σ → List ι → List β
  | _, [] => []
  | s, i :: is => out s i ++ outputs step out (step s i) is

/-- Recorded in the state, as `f` writes them. -/
theorem outputs_spec {γ : Type*} {out : σ → ι → List β} (record : σ → List γ) {f : β → γ}
    (h : ∀ s i, record (step s i) = record s ++ (out s i).map f) (is : List ι) (s : σ) :
    record (exec step s is) = record s ++ (outputs step out s is).map f := by
  induction is generalizing s with
  | nil => simp [outputs]
  | cons i is ih => rw [exec_cons, ih, h, outputs, List.map_append, List.append_assoc]

@[simp] theorem outputs_nil (is : List ι) (s : σ) : outputs step (fun _ _ => ([] : List β)) s is = [] := by
  induction is generalizing s with
  | nil => rfl
  | cons i is ih => simp [outputs, ih]

/-- The same in runs whose steps meet `C`, under an invariant of those. -/
theorem outputs_spec_along {γ : Type*} (record : σ → List γ) (out : σ → ι → List β) {f : β → γ} {I : σ → Prop}
    {C : σ → ι → Prop} (hstep : ∀ s i, C s i → I s → I (step s i))
    (h : ∀ s i, C s i → I s → record (step s i) = record s ++ (out s i).map f) :
    ∀ (is : List ι) (s : σ), Along step C s is → I s →
      record (exec step s is) = record s ++ (outputs step out s is).map f
  | [], s, _, _ => by simp [outputs]
  | i :: is, s, hC, hI => by
    rw [exec_cons, outputs_spec_along record out hstep h is _ hC.2 (hstep s i hC.1 hI), h s i hC.1 hI, outputs,
      List.map_append, List.append_assoc]

/-- What depends on the input alone. -/
theorem outputs_inputs (out : ι → List β) (is : List ι) (s : σ) :
    outputs step (fun _ => out) s is = is.flatMap out := by
  induction is generalizing s with
  | nil => rfl
  | cons i is ih => rw [outputs, ih, List.flatMap_cons]

/-- In runs that end in `P`, which holds no later than it ever did, only steps from `P` count. -/
theorem outputs_congr_of {P : σ → Prop} (hback : ∀ s i, P (step s i) → P s) {f g : σ → ι → List β}
    (h : ∀ s i, P s → f s i = g s i) :
    ∀ (is : List ι) (s : σ), P (exec step s is) → outputs step f s is = outputs step g s is ∧ P s
  | [], _, hP => ⟨rfl, hP⟩
  | i :: is, s, hP => by
    obtain ⟨hout, hPs⟩ := outputs_congr_of hback h is (step s i) hP
    have hs := hback s i hPs
    exact ⟨by rw [outputs, outputs, h s i hs, hout], hs⟩

end outputs

end Run
