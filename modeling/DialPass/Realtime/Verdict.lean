import DialPass.Lib.Regex
import DialPass.Lib.Text
import DialPass.Executor
/-!
# Reading a verdict off the model's words (realtime/stream.py:37, stream.py:58-65)
-/

namespace DialPass

open Regex Text

/-- A word of a pattern, under IGNORECASE. -/
def anyCase (w : String) : Regex Char := word (w.toList.map ignoreCase)

/-- `VERDICT[:\s]+` (stream.py:37). -/
def verdictLead : Regex Char := .seq (anyCase "VERDICT") (.many fun c => c = ':' ∨ isSpace c)

/-- The group `NOT[\s-]+HUMAN|HUMAN` (stream.py:37). -/
def verdictGroup : Regex Char :=
  .alt (.seq (.seq (anyCase "NOT") (.many fun c => isSpace c ∨ c = '-')) (anyCase "HUMAN")) (anyCase "HUMAN")

/-- `_VERDICT.search`: the text of the group. -/
def verdictSearch (text : String) : Option (List Char) := search verdictLead verdictGroup text.toList

/-- `verdict_from_text` (stream.py:58). The group is of letters that `upper()` treats as ASCII does, or longer
than HUMAN. -/
def verdictFromText (text : String) : ProbeOutcome :=
  let transcript := String.ofList ((strip text.toList).take 200)
  match verdictSearch text with
  | none => { isHuman := false, transcript }
  | some group => { isHuman := group.map Char.toUpper = "HUMAN".toList, transcript }

theorem verdictFromText_ok (text : String) : (verdictFromText text).ok = true := by
  unfold verdictFromText
  split <;> rfl

theorem verdictFromText_isHuman (text : String) : (verdictFromText text).isHuman =
    ((verdictSearch text).map fun g => decide (g.map Char.toUpper = "HUMAN".toList)).getD false := by
  unfold verdictFromText
  split <;> rename_i h <;> rw [h] <;> rfl

example : (verdictFromText "...static... verdict not human").isHuman = false ∧
    (verdictFromText "Verdict:  Human").isHuman = true := by decide +kernel

/-! ## A verdict stands, whatever is said after it -/

theorem free_anyCase (w : String) : (anyCase w).Free := free_word _

/-- What IGNORECASE takes for a letter, apart from its two cases: all that `toLower_of_ignoreCase` leaves. -/
def unusual : List Char := ['\u0130', '\u0131', '\u017f', '\u212a']

/-- A character of an any-case word is one of its letters, or an unusual one. -/
theorem mem_of_anyCase {w m : List Char} (h : (word (w.map ignoreCase)).Matches m) :
    ∀ d ∈ m, d.toLower ∈ w.map Char.toLower ∨ d ∈ unusual := by
  induction w generalizing m with
  | nil => rw [show m = [] from h]; simp
  | cons l w ih =>
    obtain ⟨_, y, rfl, ⟨c, hc, rfl⟩, hy⟩ := h
    rintro d (_ | ⟨_, hd⟩)
    · exact (toLower_of_ignoreCase hc).imp_left fun he => by rw [he]; exact List.mem_cons_self
    · exact (ih hy d hd).imp_left fun he => List.mem_cons_of_mem _ he

theorem begins_anyCase (l : Char) (w : List Char) :
    (word ((l :: w).map ignoreCase)).Begins fun c => c.toLower = l.toLower ∨ c ∈ unusual :=
  (begins_word _).mono fun _ hc => toLower_of_ignoreCase hc

/-- A separator of the pattern. -/
def isSep (c : Char) : Prop := c = ':' ∨ c = '-' ∨ isSpace c = true

instance (c : Char) : Decidable (isSep c) := inferInstanceAs (Decidable (_ ∨ _))

theorem toLower_of_isSep {c : Char} (h : isSep c) : c.toLower = c := by
  rcases h with rfl | rfl | h
  · rfl
  · rfl
  · exact toLower_of_isSpace h

/-- No separator is taken for a letter. -/
theorem not_isSep {l c : Char} (hl : ¬ isSep l.toLower) (h : c.toLower = l.toLower ∨ c ∈ unusual) : ¬ isSep c := by
  intro hc
  rcases h with h | h
  · rw [← h, toLower_of_isSep hc] at hl
    exact hl hc
  · simp only [unusual, List.mem_cons, List.not_mem_nil, or_false] at h
    rcases h with rfl | rfl | rfl | rfl <;> exact absurd hc (by decide)

theorem begins_human : (anyCase "HUMAN").Begins (¬ isSep ·) :=
  (begins_anyCase 'H' _).mono fun _ h => not_isSep (by decide) h

theorem begins_not : (anyCase "NOT").Begins (¬ isSep ·) :=
  (begins_anyCase 'N' _).mono fun _ h => not_isSep (by decide) h

theorem begins_verdictGroup : verdictGroup.Begins (¬ isSep ·) :=
  begins_not.seq.seq.alt begins_human

theorem free_verdictGroup : verdictGroup.Free := by
  have hsep : (anyCase "HUMAN").Begins (fun c => decide (isSpace c ∨ c = '-') ≠ true) :=
    begins_human.mono fun c hc hs => hc (by
      simp only [decide_eq_true_eq] at hs
      exact .inr hs.symm)
  have hn : (anyCase "NOT").Begins (·.toLower = 'n') :=
    (begins_word _).mono fun c hc => (ignoreCase_iff (l := 'N') rfl c).1 hc
  have hh : (anyCase "HUMAN").Begins (¬ ·.toLower = 'n') := (begins_word _).mono fun c hc hl => by
    have hc' : c.toLower = 'h' := (ignoreCase_iff (l := 'H') rfl c).1 hc
    rw [hl] at hc'
    exact absurd hc' (by decide)
  exact (((free_anyCase "NOT").decisive_many (free_anyCase "HUMAN") hsep).free).alt (free_anyCase "HUMAN")
    hn.seq.seq hh

theorem decisive_verdict : Decisive verdictLead verdictGroup :=
  (free_anyCase _).decisive_many free_verdictGroup <| begins_verdictGroup.mono fun c hc hs => hc (by
    simp only [decide_eq_true_eq] at hs
    exact hs.imp_right .inr)

theorem not_v_of_anyCase {w m : List Char} (hw : 'v' ∉ w.map Char.toLower)
    (h : (word (w.map ignoreCase)).Matches m) : ∀ d ∈ m, ¬ d.toLower = 'v' := by
  intro d hd hv
  rcases mem_of_anyCase h d hd with hl | hu
  · exact hw (hv ▸ hl)
  · simp only [unusual, List.mem_cons, List.not_mem_nil, or_false] at hu
    rcases hu with rfl | rfl | rfl | rfl <;> exact absurd hv (by decide)

theorem not_v_of_isSep {c : Char} (h : isSep c) : ¬ c.toLower = 'v' := by
  intro hv
  rw [toLower_of_isSep h] at hv
  rw [hv] at h
  exact absurd h (by decide)

/-- Only the first letter of a verdict is a V. -/
theorem verdictLead_v (m : List Char) (h : verdictLead.Matches m) :
    ∃ c cs, m = c :: cs ∧ c.toLower = 'v' ∧ ∀ d ∈ cs, ¬ d.toLower = 'v' := by
  obtain ⟨_, ws, rfl, ⟨_, w, rfl, ⟨c, hc, rfl⟩, hw⟩, -, hsep⟩ := h
  refine ⟨c, w ++ ws, rfl, (ignoreCase_iff (l := 'V') rfl c).1 hc, fun d hd => ?_⟩
  rcases List.mem_append.1 hd with hd | hd
  · exact not_v_of_anyCase (w := "ERDICT".toList) (by decide) hw d hd
  · have hs := hsep d hd
    simp only [decide_eq_true_eq] at hs
    exact not_v_of_isSep (hs.imp_right .inr)

theorem verdictGroup_not_v (n : List Char) (h : verdictGroup.Matches n) : ∀ d ∈ n, ¬ d.toLower = 'v' := by
  have hhuman : ∀ m, (anyCase "HUMAN").Matches m → ∀ d ∈ m, ¬ d.toLower = 'v' := fun m hm =>
    not_v_of_anyCase (by decide) hm
  rcases h with ⟨_, m, rfl, ⟨w, ws, rfl, hw, -, hsep⟩, hm⟩ | h
  · intro d hd
    rcases List.mem_append.1 hd with hd | hd
    · rcases List.mem_append.1 hd with hd | hd
      · exact not_v_of_anyCase (by decide) hw d hd
      · have hs := hsep d hd
        simp only [decide_eq_true_eq] at hs
        exact not_v_of_isSep (.inr hs.symm)
    · exact hhuman m hm d hd
  · exact hhuman n h

/-- A verdict that has been recognised stands. -/
theorem verdictSearch_append {text : String} {group : List Char} (h : verdictSearch text = some group)
    (rest : String) : verdictSearch (text ++ rest) = some group := by
  rw [verdictSearch, String.toList_append]
  exact search_append decisive_verdict verdictLead_v verdictGroup_not_v h _

end DialPass
