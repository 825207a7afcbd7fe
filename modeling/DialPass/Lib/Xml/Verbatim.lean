import DialPass.Lib.Xml
/-!
# Text that is not escaped

`run_verbatim` decides which texts without `<` and `&` are read as they stand. For the others: to say something takes
a character for each character said, and for an end tag its length (`run_weight`), and what is said in just that room
is written as it stands (`eq_text`). `run_text_iff` puts the two together.
-/

namespace Xml

/-- Up to the next markup the reader stays in the text. -/
theorem run_content {s : List Char} (hlt : '<' ∉ s) (hamp : '&' ∉ s) {depth k : Nat} {x : Lexer} {es : List Event}
    (h : run (depth + 1, .content k) s = some (x, es)) : ∃ k', x = (depth + 1, .content k') ∧ es = s.map .char := by
  induction s generalizing k es with
  | nil =>
    cases h
    exact ⟨k, rfl, rfl⟩
  | cons c s ih =>
    obtain ⟨y, fs, gs, hy, hz, rfl⟩ := run_cons_eq_some h
    have hc := isChar_of_run (by rw [h]; rfl) c List.mem_cons_self
    rw [List.mem_cons, not_or] at hlt hamp
    have hgt : ¬ (c = '>' ∧ 2 ≤ k) := by
      rintro ⟨rfl, hk⟩
      simp [step, next, hk] at hy
    rw [← run_singleton, run_plainChar hc (Ne.symm hlt.1) (Ne.symm hamp.1) hgt] at hy
    cases hy
    obtain ⟨k', rfl, rfl⟩ := ih hlt.2 hamp.2 hz
    exact ⟨k', rfl, rfl⟩

/-- After `k` of `]` a text is read unless that makes a `]]>`. -/
theorem run_content_isSome {s : List Char} (hs : ∀ c ∈ s, isChar c = true) (hlt : '<' ∉ s) (hamp : '&' ∉ s)
    (depth : Nat) {k : Nat} (hk : ¬ "]]>".toList <:+: List.replicate k ']' ++ s) :
    (run (depth + 1, .content k) s).isSome := by
  induction s generalizing k with
  | nil => rfl
  | cons c s ih =>
    rw [List.mem_cons, not_or] at hlt hamp
    have hgt : ¬ (c = '>' ∧ 2 ≤ k) := by
      rintro ⟨rfl, hk2⟩
      obtain ⟨m, rfl⟩ := Nat.exists_eq_add_of_le' hk2
      exact hk ⟨List.replicate m ']', s, by simp [List.replicate_add]⟩
    have hstep := run_plainChar (hs c List.mem_cons_self) (Ne.symm hlt.1) (Ne.symm hamp.1) hgt depth
    rw [← List.singleton_append, run_append_of hstep, Option.isSome_map]
    refine ih (fun d hd => hs d (List.mem_cons_of_mem c hd)) hlt.2 hamp.2 ?_
    split
    · rename_i hb
      subst hb
      rwa [List.replicate_succ', List.append_assoc, List.singleton_append]
    · exact fun hi => hk (hi.trans ⟨List.replicate k ']' ++ [c], [], by simp⟩)

/-- **`run_verbatim`**: which texts without `<` and `&` may stand unescaped. -/
theorem run_verbatim {s : List Char} (hlt : '<' ∉ s) (hamp : '&' ∉ s) (depth : Nat) :
    (run (depth + 1, .content 0) s).isSome ↔ (∀ c ∈ s, isChar c = true) ∧ ¬ "]]>".toList <:+: s := by
  refine ⟨fun h => ⟨isChar_of_run h, ?_⟩, fun h => run_content_isSome h.1 hlt hamp depth h.2⟩
  rintro ⟨a, b, rfl⟩
  obtain ⟨⟨z, es⟩, h⟩ := Option.isSome_iff_exists.1 h
  rw [List.append_assoc] at h
  obtain ⟨y, fs, gs, hy, hz, -⟩ := run_append_eq_some h
  obtain ⟨k, rfl, -⟩ := run_content (fun hm => hlt (by simp [hm])) (fun hm => hamp (by simp [hm])) hy
  have hbrackets : run (depth + 1, .content k) "]]".toList =
      some ((depth + 1, .content (k + 2)), [.char ']', .char ']']) := by rfl
  have hstop : run (depth + 1, .content (k + 2)) ['>'] = none := by
    rw [run_singleton, step_of_isChar (by decide), next]
    simp
  have hsplit : "]]>".toList ++ b = "]]".toList ++ (['>'] ++ b) := by rfl
  rw [hsplit, run_append_of hbrackets, run_append, hstop] at hz
  cases hz

/-! ## Room -/

/-- How many characters it takes to say it, at least; of a start tag nothing is known. -/
def Event.weight : Event → Nat
  | .char _ => 1
  | .stop name => name.length + 3
  | _ => 0

def weight (es : List Event) : Nat := (es.map Event.weight).sum

/-- The characters that have been read towards what is still to be said. -/
def Mode.credit : Mode → Nat
  | .lt => 1
  | .close name => name.length + 2
  | .closeSpace name => name.length + 2
  | .cdata k => k
  | _ => 0

/-- These characters themselves, where each has counted. -/
def Mode.lead : Mode → Option (List Char)
  | .content _ => some []
  | .lt => some ['<']
  | .close name => some ('<' :: '/' :: name)
  | _ => none

/-- The shortest way to say it. -/
def Event.text : Event → List Char
  | .char c => [c]
  | .stop name => '<' :: '/' :: (name ++ ['>'])
  | _ => []

/-- Text, and no character that begins markup. -/
def Event.Plain : Event → Prop
  | .char c => c ≠ '<' ∧ c ≠ '&'
  | _ => True

theorem weight_append (es fs : List Event) : weight (es ++ fs) = weight es + weight fs := by
  rw [weight, List.map_append, List.sum_append, ← weight, ← weight]

theorem inTag_weight {depth : Nat} {name : List Char} {as : Attrs} {c : Char} {y : Lexer} {es : List Event}
    (h : inTag depth name as c = some (y, es)) : weight es + y.2.credit = 0 := by
  unfold inTag at h
  split_ifs at h <;> cases h <;> rfl

theorem closed_eq {depth : Nat} {name : List Char} {y : Lexer} {es : List Event}
    (h : closed depth name = some (y, es)) : y = (depth - 1, .content 0) ∧ es = [.stop name] := by
  unfold closed at h
  split_ifs at h
  cases h
  exact ⟨rfl, rfl⟩

theorem next_weight {depth : Nat} {mode : Mode} {c : Char} {y : Lexer} {es : List Event}
    (h : next depth mode c = some (y, es)) : weight es + y.2.credit ≤ mode.credit + 1 := by
  cases mode with
  | afterValue =>
    have := inTag_weight h
    omega
  | tag | attrs =>
    simp only [next] at h
    split_ifs at h
    · cases h
      simp [weight, Mode.credit]
    · have := inTag_weight h
      omega
  | close | closeSpace =>
    simp only [next] at h
    split_ifs at h
    all_goals first
      | (obtain ⟨rfl, rfl⟩ := closed_eq h; simp [weight, Event.weight, Mode.credit])
      | (cases h; simp [weight, Mode.credit])
  | ref | valueRef =>
    simp only [next] at h
    split_ifs at h
    · obtain ⟨d, -, h⟩ := Option.map_eq_some_iff.1 h
      cases h
      simp [weight, Event.weight, Mode.credit]
    · cases h
      simp [weight, Mode.credit]
  | _ =>
    simp only [next] at h
    split_ifs at h <;> cases h <;> simp [weight, Event.weight, Mode.credit] <;> omega


/-- Where nothing is wasted, the text itself has been read, or the beginning of an end tag. -/
theorem next_tight {depth : Nat} {mode : Mode} {c : Char} {y : Lexer} {es : List Event} {w : List Char}
    (hw : mode.lead = some w) (h : next depth mode c = some (y, es)) (he : mode.credit + 1 ≤ weight es + y.2.credit) :
    (∃ w', y.2.lead = some w' ∧ w ++ [c] = es.flatMap Event.text ++ w') ∧ ∀ e ∈ es, e.Plain := by
  cases mode with
  | content k =>
    cases hw
    simp only [next] at h
    split_ifs at h <;> cases h <;> simp_all [weight, Event.weight, Mode.credit, Mode.lead, Event.text, Event.Plain]
  | lt =>
    cases hw
    simp only [next] at h
    split_ifs at h <;> cases h <;> simp_all [weight, Mode.credit, Mode.lead]
  | close name =>
    cases hw
    simp only [next] at h
    split_ifs at h
    · cases h
      simp [Mode.lead]
    · obtain ⟨rfl, rfl⟩ := closed_eq h
      simp_all [Mode.lead, Event.text, Event.Plain]
    · cases h
      simp [weight, Mode.credit] at he
  | _ => cases hw

/-- **`run_weight`**: what is said takes its room. -/
theorem run_weight {x y : Lexer} {s : List Char} {es : List Event} (h : run x s = some (y, es)) :
    weight es + y.2.credit ≤ x.2.credit + s.length := by
  induction s generalizing x es with
  | nil =>
    cases h
    simp [weight]
  | cons c s ih =>
    obtain ⟨z, fs, gs, hz, hy, rfl⟩ := run_cons_eq_some h
    have h₁ := ih hy
    have h₂ : weight fs + z.2.credit ≤ x.2.credit + 1 := by
      unfold step at hz
      split_ifs at hz
      exact next_weight hz
    rw [weight_append, List.length_cons]
    omega

theorem run_tight {x y : Lexer} {s w : List Char} {es : List Event} (hw : x.2.lead = some w)
    (h : run x s = some (y, es)) (he : x.2.credit + s.length ≤ weight es + y.2.credit) :
    (∃ w', y.2.lead = some w' ∧ w ++ s = es.flatMap Event.text ++ w') ∧ ∀ e ∈ es, e.Plain := by
  induction s generalizing x w es with
  | nil =>
    cases h
    exact ⟨⟨w, hw, by simp⟩, by simp⟩
  | cons c s ih =>
    obtain ⟨z, fs, gs, hz, hy, rfl⟩ := run_cons_eq_some h
    have hz' : next x.1 x.2 c = some (z, fs) := by
      unfold step at hz
      split_ifs at hz
      exact hz
    -- neither this step nor the rest gains anything on the other
    have h₁ := next_weight hz'
    have h₂ := run_weight hy
    rw [weight_append, List.length_cons] at he
    obtain ⟨⟨w₁, hw₁, e₁⟩, p₁⟩ := next_tight hw hz' (by omega)
    obtain ⟨⟨w₂, hw₂, e₂⟩, p₂⟩ := ih hw₁ hy (by omega)
    refine ⟨⟨w₂, hw₂, ?_⟩, List.forall_mem_append.2 ⟨p₁, p₂⟩⟩
    rw [← List.singleton_append, ← List.append_assoc, e₁, List.append_assoc, e₂, List.flatMap_append,
      List.append_assoc]

/-- **`eq_text`**: what is said in just its room is written as it stands. -/
theorem eq_text {d d' k k' : Nat} {s : List Char} {es : List Event}
    (h : run (d, .content k) s = some ((d', .content k'), es)) (he : s.length ≤ weight es) :
    s = es.flatMap Event.text ∧ ∀ e ∈ es, e.Plain := by
  obtain ⟨⟨w, hw, hs⟩, hp⟩ := run_tight (w := []) rfl h (by simpa [Mode.credit] using he)
  obtain rfl := Option.some.inj hw
  exact ⟨by simpa using hs, hp⟩

theorem weight_eq_length (es : List Event) : weight es = (es.flatMap Event.text).length := by
  induction es with
  | nil => rfl
  | cons e es ih =>
    rw [List.flatMap_cons, List.length_append, ← ih, ← List.singleton_append, weight_append]
    cases e <;> simp [weight, Event.weight, Event.text]

/-! ## Which texts need no escape -/

def Verbatim (s : List Char) : Prop :=
  (∀ c ∈ s, isChar c = true ∧ c ∉ "<&\r".toList) ∧ ¬ "]]>".toList <:+: s

theorem Verbatim.not_mem {s : List Char} (h : Verbatim s) : '<' ∉ s ∧ '&' ∉ s ∧ '\r' ∉ s :=
  ⟨fun hc => (h.1 _ hc).2 (by decide), fun hc => (h.1 _ hc).2 (by decide), fun hc => (h.1 _ hc).2 (by decide)⟩

/-- A pattern does not lie across a character that is not in it. -/
theorem infix_append_cons_iff {α : Type*} {p a b : List α} {c : α} (hc : c ∉ p) :
    p <:+: a ++ c :: b ↔ p <:+: a ∨ p <:+: b := by
  constructor
  · rintro ⟨s, t, h⟩
    rw [List.append_eq_append_iff] at h
    obtain ⟨u, rfl, -⟩ | ⟨u, hu, hb⟩ := h
    · exact .inl ⟨s, u, rfl⟩
    · obtain _ | ⟨d, u⟩ := u
      · exact .inl ⟨s, [], by rw [hu, List.append_nil, List.append_nil]⟩
      · obtain ⟨rfl, rfl⟩ := List.cons.inj hb
        rw [List.append_eq_append_iff] at hu
        obtain ⟨v, -, rfl⟩ | ⟨v, -, hv⟩ := hu
        · exact absurd (by simp) hc
        · obtain _ | ⟨d, v⟩ := v
          · exact absurd (by rw [List.nil_append] at hv; rw [← hv]; exact List.mem_cons_self) hc
          · obtain ⟨-, rfl⟩ := List.cons.inj hv
            exact .inr ⟨v, t, rfl⟩
  · rintro (h | h)
    · exact h.trans ⟨[], c :: b, rfl⟩
    · exact h.trans ⟨a ++ [c], [], by simp⟩

theorem verbatim_append_cons {c : Char} (hc : isChar c = true) (hm : c ∉ "<&\r]>".toList) {a b : List Char} :
    Verbatim (a ++ c :: b) ↔ Verbatim a ∧ Verbatim b := by
  have hmark : c ∉ "<&\r".toList := fun h => hm (by simp at h ⊢; tauto)
  have hend : c ∉ "]]>".toList := fun h => hm (by simp at h ⊢; tauto)
  simp only [Verbatim, infix_append_cons_iff hend, List.forall_mem_append, List.forall_mem_cons, not_or]
  constructor
  · rintro ⟨⟨ha, -, hb⟩, ha', hb'⟩
    exact ⟨⟨ha, ha'⟩, hb, hb'⟩
  · rintro ⟨⟨ha, ha'⟩, hb, hb'⟩
    exact ⟨⟨ha, ⟨hc, hmark⟩, hb⟩, ha', hb'⟩

theorem run_text {s t : List Char} {y : Lexer} {fs : List Event} {depth : Nat} (hs : Verbatim s)
    (hrun : ∀ k, run (depth + 1, .content k) t = some (y, fs)) :
    run (depth + 1, .content 0) (s ++ t) = some (y, s.map .char ++ fs) := by
  obtain ⟨hlt, hamp, -⟩ := hs.not_mem
  have hsome := (run_verbatim hlt hamp depth).2 ⟨fun c hc => (hs.1 c hc).1, hs.2⟩
  obtain ⟨⟨x, es⟩, hx⟩ := Option.isSome_iff_exists.1 hsome
  obtain ⟨k, rfl, rfl⟩ := run_content hlt hamp hx
  exact run_trans hx (hrun k)

/-- **`run_text_iff`**: before an end tag, the texts that are read as they stand. -/
theorem run_text_iff {s t : List Char} {fs : List Event} {depth d : Nat} (hcr : '\r' ∉ '<' :: t)
    (ht : fs.flatMap Event.text = '<' :: t)
    (hrun : ∀ k, run (depth + 1, .content k) ('<' :: t) = some ((d, .content 0), fs)) :
    (∃ k, run (depth + 1, .content 0) (normalizeLines (s ++ '<' :: t)) =
      some ((d, .content k), s.map .char ++ fs)) ↔ Verbatim s := by
  have htail : normalizeLines ('<' :: t) = '<' :: t := normalizeLines_eq_self.2 hcr
  have hsaid : (s.map Event.char ++ fs).flatMap Event.text = s ++ '<' :: t := by
    rw [List.flatMap_append, ht, List.flatMap_map]
    simp [Event.text]
  rw [normalizeLines_append_cons (by decide), htail]
  constructor
  · rintro ⟨k, h⟩
    -- no line end was shortened, for all of `s` was said
    have hroom : (normalizeLines s ++ '<' :: t).length ≤ weight (s.map Event.char ++ fs) := by
      have := length_normalizeLines_le s
      rw [weight_eq_length, hsaid, List.length_append, List.length_append]
      omega
    obtain ⟨heq, hplain⟩ := eq_text h hroom
    rw [hsaid, List.append_cancel_right_eq] at heq
    rw [heq] at h
    have hc : ∀ c ∈ s, c ≠ '<' ∧ c ≠ '&' := fun c hc => hplain (.char c) (by simp [hc])
    have hlt : '<' ∉ s := fun hm => (hc _ hm).1 rfl
    have hamp : '&' ∉ s := fun hm => (hc _ hm).2 rfl
    obtain ⟨y, es, gs, hs, -, -⟩ := run_append_eq_some h
    obtain ⟨hchar, hcdata⟩ := (run_verbatim hlt hamp depth).1 (by rw [hs]; rfl)
    refine ⟨fun c hm => ⟨hchar c hm, ?_⟩, hcdata⟩
    simp only [String.reduceToList, List.mem_cons, List.not_mem_nil, or_false, not_or]
    exact ⟨(hc c hm).1, (hc c hm).2, fun hr => normalizeLines_eq_self.1 heq (hr ▸ hm)⟩
  · intro hv
    rw [normalizeLines_eq_self.2 hv.not_mem.2.2]
    exact ⟨0, run_text hv hrun⟩

end Xml
