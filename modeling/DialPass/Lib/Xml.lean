import DialPass.Lib.Text
/-!
# XML 1.0 documents

`lex` reads a document one character after the other and puts out its tags and the characters of its text, in the
order in which they come; `build` makes the tree of them, and `build_iff` says that nothing is lost on the way.
Line ends are normalised first. There is no document type declaration, so the entities are the predefined ones.
-/

namespace Xml

/-! ## Characters -/

def isChar (c : Char) : Bool :=
  let n := c.toNat
  n == 9 || n == 10 || n == 13 || (32 ≤ n && n ≤ 0xd7ff) || (0xe000 ≤ n && n ≤ 0xfffd) || 0x10000 ≤ n

def isSpace (c : Char) : Bool := c == ' ' || c == '\t' || c == '\n' || c == '\r'

def nameRanges : List (Nat × Nat) :=
  [(0x3a, 0x3a), (0x41, 0x5a), (0x5f, 0x5f), (0x61, 0x7a), (0xc0, 0xd6), (0xd8, 0xf6), (0xf8, 0x2ff), (0x370, 0x37d),
    (0x37f, 0x1fff), (0x200c, 0x200d), (0x2070, 0x218f), (0x2c00, 0x2fef), (0x3001, 0xd7ff), (0xf900, 0xfdcf),
    (0xfdf0, 0xfffd), (0x10000, 0xeffff)]

def isNameStart (c : Char) : Bool := nameRanges.any fun r => r.1 ≤ c.toNat && c.toNat ≤ r.2

def isName (c : Char) : Bool :=
  isNameStart c || c == '-' || c == '.' || c.isDigit || c.toNat == 0xb7 || (0x300 ≤ c.toNat && c.toNat ≤ 0x36f) ||
    (0x203f ≤ c.toNat && c.toNat ≤ 0x2040)

/-- The next character of a name. -/
def isNext (name : List Char) (c : Char) : Bool := if name.isEmpty then isNameStart c else isName c

/-- Every line ends in a line feed. -/
def normalizeLines : List Char → List Char
  | '\r' :: '\n' :: s => '\n' :: normalizeLines s
  | '\r' :: s => '\n' :: normalizeLines s
  | c :: s => c :: normalizeLines s
  | [] => []

def decDigit (c : Char) : Option Nat := if c.isDigit then some (c.toNat - 48) else none

def charOfDigits (base : Nat) (digit : Char → Option Nat) (ds : List Char) : Option Char := do
  if ds = [] then none
  let n ← ds.foldlM (fun n d => (digit d).map (base * n + ·)) 0
  if n.isValidChar ∧ isChar (Char.ofNat n) then return Char.ofNat n else none

/-- What a reference stands for, without `&` and `;`. -/
def reference : List Char → Option Char
  | ['a', 'm', 'p'] => some '&'
  | ['l', 't'] => some '<'
  | ['g', 't'] => some '>'
  | ['q', 'u', 'o', 't'] => some '"'
  | ['a', 'p', 'o', 's'] => some '\''
  | '#' :: 'x' :: ds => charOfDigits 16 Text.hexDigit ds
  | '#' :: ds => charOfDigits 10 decDigit ds
  | _ => none

/-! ## Reading -/

abbrev Attrs := List (List Char × List Char)

inductive Event where
  | start (name : List Char) (attrs : Attrs)
  | empty (name : List Char) (attrs : Attrs)
  | stop (name : List Char)
  | char (c : Char)
deriving DecidableEq

/-- Where the reader is. -/
inductive Mode where
  /-- after `brackets` of `]` -/
  | content (brackets : Nat)
  | ref (acc : List Char)
  | lt
  | close (name : List Char)
  | closeSpace (name : List Char)
  | tag (name : List Char)
  | attrs (name : List Char) (as : Attrs)
  | attrName (name : List Char) (as : Attrs) (key : List Char)
  | attrEq (name : List Char) (as : Attrs) (key : List Char)
  | attrVal (name : List Char) (as : Attrs) (key : List Char)
  | value (name : List Char) (as : Attrs) (key : List Char) (quote : Char) (acc : List Char)
  | valueRef (name : List Char) (as : Attrs) (key : List Char) (quote : Char) (acc ref : List Char)
  | afterValue (name : List Char) (as : Attrs)
  | slash (name : List Char) (as : Attrs)
  | bang (acc : List Char)
  | comment (dashes : Nat)
  | cdata (brackets : Nat)
  | target (name : List Char)
  | pi (question : Bool)
  | piEnd

/-- How many elements are open, and where the reader is. -/
abbrev Lexer := Nat × Mode

/-- After a name or an attribute in a start tag. -/
def inTag (depth : Nat) (name : List Char) (as : Attrs) (c : Char) : Option (Lexer × List Event) :=
  if isSpace c then some ((depth, .attrs name as), [])
  else if c = '/' then some ((depth, .slash name as), [])
  else if c = '>' then some ((depth + 1, .content 0), [.start name as])
  else none

def closed (depth : Nat) (name : List Char) : Option (Lexer × List Event) :=
  if depth = 0 then none else some ((depth - 1, .content 0), [.stop name])

def next (depth : Nat) : Mode → Char → Option (Lexer × List Event)
  | .content k, c =>
    if c = '<' then some ((depth, .lt), [])
    else if depth = 0 then if isSpace c then some ((depth, .content 0), []) else none
    else if c = '&' then some ((depth, .ref []), [])
    else if c = ']' then some ((depth, .content (k + 1)), [.char c])
    else if c = '>' ∧ 2 ≤ k then none
    else some ((depth, .content 0), [.char c])
  | .ref acc, c =>
    if c = ';' then (reference acc).map fun c => ((depth, .content 0), [.char c])
    else some ((depth, .ref (acc ++ [c])), [])
  | .lt, c =>
    if c = '/' then some ((depth, .close []), [])
    else if c = '!' then some ((depth, .bang []), [])
    else if c = '?' then some ((depth, .target []), [])
    else if isNameStart c then some ((depth, .tag [c]), [])
    else none
  | .close name, c =>
    if isNext name c then some ((depth, .close (name ++ [c])), [])
    else if name = [] then none
    else if c = '>' then closed depth name
    else if isSpace c then some ((depth, .closeSpace name), [])
    else none
  | .closeSpace name, c =>
    if c = '>' then closed depth name
    else if isSpace c then some ((depth, .closeSpace name), [])
    else none
  | .tag name, c => if isName c then some ((depth, .tag (name ++ [c])), []) else inTag depth name [] c
  | .attrs name as, c =>
    if isNameStart c then some ((depth, .attrName name as [c]), []) else inTag depth name as c
  | .attrName name as key, c =>
    if isName c then some ((depth, .attrName name as (key ++ [c])), [])
    else if isSpace c then some ((depth, .attrEq name as key), [])
    else if c = '=' then some ((depth, .attrVal name as key), [])
    else none
  | .attrEq name as key, c =>
    if isSpace c then some ((depth, .attrEq name as key), [])
    else if c = '=' then some ((depth, .attrVal name as key), [])
    else none
  | .attrVal name as key, c =>
    if isSpace c then some ((depth, .attrVal name as key), [])
    else if c = '"' ∨ c = '\'' then some ((depth, .value name as key c []), [])
    else none
  | .value name as key quote acc, c =>
    if c = quote then
      -- no attribute twice
      if key ∈ as.map Prod.fst then none else some ((depth, .afterValue name (as ++ [(key, acc)])), [])
    else if c = '<' then none
    else if c = '&' then some ((depth, .valueRef name as key quote acc []), [])
    else some ((depth, .value name as key quote (acc ++ [if isSpace c then ' ' else c])), [])
  | .valueRef name as key quote acc ref, c =>
    if c = ';' then (reference ref).map fun c => ((depth, .value name as key quote (acc ++ [c])), [])
    else some ((depth, .valueRef name as key quote acc (ref ++ [c])), [])
  | .afterValue name as, c => inTag depth name as c
  | .slash name as, c => if c = '>' then some ((depth, .content 0), [.empty name as]) else none
  | .bang acc, c =>
    if acc ++ [c] = "--".toList then some ((depth, .comment 0), [])
    else if acc ++ [c] = "[CDATA[".toList then if depth = 0 then none else some ((depth, .cdata 0), [])
    else if acc ++ [c] <+: "--".toList ∨ acc ++ [c] <+: "[CDATA[".toList then some ((depth, .bang (acc ++ [c])), [])
    else none
  | .comment k, c =>
    -- two dashes must end it
    if k = 2 then if c = '>' then some ((depth, .content 0), []) else none
    else some ((depth, .comment (if c = '-' then k + 1 else 0)), [])
  | .cdata k, c =>
    if c = ']' then
      if k < 2 then some ((depth, .cdata (k + 1)), []) else some ((depth, .cdata k), [.char c])
    else if c = '>' ∧ 2 ≤ k then some ((depth, .content 0), [])
    else some ((depth, .cdata 0), List.replicate k (.char ']') ++ [.char c])
  | .target name, c =>
    if isNext name c then some ((depth, .target (name ++ [c])), [])
    else if name = [] ∨ name.map Char.toLower = "xml".toList then none
    else if isSpace c then some ((depth, .pi false), [])
    else if c = '?' then some ((depth, .piEnd), [])
    else none
  | .pi question, c =>
    if c = '>' ∧ question = true then some ((depth, .content 0), []) else some ((depth, .pi (c == '?')), [])
  | .piEnd, c => if c = '>' then some ((depth, .content 0), []) else none

def step (lexer : Lexer) (c : Char) : Option (Lexer × List Event) :=
  if isChar c then next lexer.1 lexer.2 c else none

def run (lexer : Lexer) : List Char → Option (Lexer × List Event)
  | [] => some (lexer, [])
  | c :: cs => do
    let (lexer, es) ← step lexer c
    let (lexer, fs) ← run lexer cs
    return (lexer, es ++ fs)

def lex (s : List Char) : Option (List Event) :=
  match run (0, .content 0) s with
  | some ((0, .content _), es) => some es
  | _ => none

/-! ## The tree -/

/-- A node of the tree: a character of the text, or an element. -/
inductive Node where
  | char (c : Char)
  | element (name : List Char) (attrs : Attrs) (children : List Node)

/-- The elements that are open, the innermost first, with their children so far; and the root, once closed. -/
structure Tree where
  stack : List (List Char × Attrs × List Node) := []
  root : Option Node := none

namespace Tree

def add (t : Tree) (n : Node) : Option Tree :=
  match t.stack, t.root with
  | (name, as, children) :: rest, _ => some { t with stack := (name, as, children ++ [n]) :: rest }
  | [], none => some { t with root := some n }
  | [], some _ => none

def step (t : Tree) : Event → Option Tree
  | .start name as =>
    if t.stack = [] ∧ t.root.isSome then none else some { t with stack := (name, as, []) :: t.stack }
  | .empty name as => t.add (.element name as [])
  | .stop name =>
    match t.stack with
    | (name', as, children) :: rest =>
      if name = name' then { t with stack := rest }.add (.element name as children) else none
    | [] => none
  | .char c => if t.stack.isEmpty then none else t.add (.char c)

end Tree

def build (es : List Event) : Option Node :=
  match es.foldlM Tree.step {} with
  | some { stack := [], root := some n } => some n
  | _ => none

/-- The declaration of a document in UTF-8. -/
def declaration : List Char := "<?xml version=\"1.0\" encoding=\"UTF-8\"?>".toList

/-- A document, declared or not; `none` if it is not well-formed. -/
def parse (document : List Char) : Option Node :=
  let s := normalizeLines document
  (lex (if declaration <+: s then s.drop declaration.length else s)).bind build

/-! ## Line ends -/

theorem normalizeLines_cons {c : Char} (h : c ≠ '\r') (s : List Char) :
    normalizeLines (c :: s) = c :: normalizeLines s := by
  rw [normalizeLines]
  · rintro s rfl
    exact absurd rfl h
  · exact h

/-- Nothing but carriage returns is changed, and nothing before the first. -/
theorem normalizeLines_append {a : List Char} (h : '\r' ∉ a) (b : List Char) :
    normalizeLines (a ++ b) = a ++ normalizeLines b := by
  induction a with
  | nil => rfl
  | cons c a ih =>
    rw [List.mem_cons, not_or] at h
    rw [List.cons_append, normalizeLines_cons (Ne.symm h.1), ih h.2, List.cons_append]

theorem normalizeLines_eq_nil {s : List Char} : normalizeLines s = [] ↔ s = [] := by
  fun_cases normalizeLines s <;> simp

theorem cr_not_mem_normalizeLines (s : List Char) : '\r' ∉ normalizeLines s := by
  fun_induction normalizeLines s with
  | case1 s ih => simpa using ih
  | case2 s _ ih => simpa using ih
  | case3 c s _ h ih => simpa using ⟨fun hc => h hc.symm, ih⟩
  | case4 => simp

theorem normalizeLines_eq_self {s : List Char} : normalizeLines s = s ↔ '\r' ∉ s := by
  refine ⟨fun h => h ▸ cr_not_mem_normalizeLines s, fun h => ?_⟩
  have := normalizeLines_append h []
  rwa [List.append_nil, normalizeLines, List.append_nil] at this

theorem isChar_normalizeLines {s : List Char} (h : ∀ c ∈ s, isChar c = true) :
    ∀ c ∈ normalizeLines s, isChar c = true := by
  have hlf : isChar '\n' = true := by decide
  fun_induction normalizeLines s with
  | case1 s ih => exact List.forall_mem_cons.2 ⟨hlf, ih fun c hc => h c (by simp [hc])⟩
  | case2 s _ ih => exact List.forall_mem_cons.2 ⟨hlf, ih fun c hc => h c (by simp [hc])⟩
  | case3 c s _ _ ih => exact List.forall_mem_cons.2 ⟨h c (by simp), ih fun c hc => h c (by simp [hc])⟩
  | case4 => exact h

theorem length_normalizeLines_le (s : List Char) : (normalizeLines s).length ≤ s.length := by
  fun_induction normalizeLines s with
  | case1 s ih => simp only [List.length_cons]; omega
  | case2 s _ ih => simpa using ih
  | case3 c s _ h ih => simpa using ih
  | case4 => exact le_rfl

/-- A line end is not split before a character other than a line feed. -/
theorem normalizeLines_append_cons {c : Char} (h : c ≠ '\n') (a b : List Char) :
    normalizeLines (a ++ c :: b) = normalizeLines a ++ normalizeLines (c :: b) := by
  fun_induction normalizeLines a with
  | case1 s ih => simpa [normalizeLines] using ih
  | case2 s hs ih =>
    rw [List.cons_append, normalizeLines, ih, List.cons_append]
    cases s with
    | nil => simpa using h
    | cons d s => rintro s' ⟨⟩; exact hs s rfl
  | case3 d s _ hd ih => rw [List.cons_append, normalizeLines_cons hd, ih, List.cons_append]
  | case4 => rfl

/-! ## What a tree says -/

mutual

/-- A node, tag for tag. -/
def Node.events : Node → List Event
  | .char c => [.char c]
  | .element name attrs children => .start name attrs :: (eventsAll children ++ [.stop name])

def eventsAll : List Node → List Event
  | [] => []
  | n :: ns => n.events ++ eventsAll ns

end

/-- An empty tag is a start tag with its end tag. -/
def Event.expand : Event → List Event
  | .empty name attrs => [.start name attrs, .stop name]
  | e => [e]

/-- Nothing is expanded where there is no start tag. -/
theorem eq_of_flatMap_expand {es fs : List Event} (h : es.flatMap Event.expand = fs)
    (hfs : ∀ name as, Event.start name as ∉ fs) : es = fs := by
  subst h
  induction es with
  | nil => rfl
  | cons e es ih =>
    simp only [List.flatMap_cons, List.mem_append, not_or] at hfs
    rw [List.flatMap_cons, ← ih fun name as => (hfs name as).2]
    cases e with
    | empty name as => exact absurd List.mem_cons_self (hfs name as).1
    | _ => rfl

theorem flatMap_expand_map_char (s : List Char) : (s.map Event.char).flatMap Event.expand = s.map .char := by
  rw [List.flatMap_map, List.map_eq_flatMap]
  rfl

theorem eventsAll_append (ns ms : List Node) : eventsAll (ns ++ ms) = eventsAll ns ++ eventsAll ms := by
  induction ns with
  | nil => rfl
  | cons n ns ih => rw [List.cons_append, eventsAll, eventsAll, ih, List.append_assoc]

theorem eventsAll_map_char (s : List Char) : eventsAll (s.map .char) = s.map .char := by
  induction s with
  | nil => rfl
  | cons c s ih => rw [List.map_cons, eventsAll, ih, List.map_cons]; rfl

namespace Tree

/-- What has been read: the root, or the elements that are open. -/
def events (t : Tree) : List Event :=
  (t.root.elim [] Node.events) ++ t.stack.reverse.flatMap fun e => .start e.1 e.2.1 :: eventsAll e.2.2

theorem events_push (stack : List (List Char × Attrs × List Node)) (root : Option Node) (name : List Char)
    (as : Attrs) (children : List Node) :
    events ⟨(name, as, children) :: stack, root⟩ = events ⟨stack, root⟩ ++ .start name as :: eventsAll children := by
  simp [events]

theorem add_events {t t' : Tree} {n : Node} (h : t.add n = some t') : t'.events = t.events ++ n.events := by
  obtain ⟨_ | ⟨⟨name, as, children⟩, rest⟩, root⟩ := t
  · cases root with
    | none =>
      obtain rfl := Option.some.inj h
      simp [events]
    | some r => cases h
  · obtain rfl := Option.some.inj h
    simp [events_push, eventsAll_append, eventsAll]

/-- One tag or character is added to what has been read. -/
theorem step_events {t t' : Tree} {e : Event} (h : t.step e = some t') : t'.events = t.events ++ e.expand := by
  cases e with
  | start name as =>
    rw [step] at h
    split at h
    · cases h
    · obtain rfl := Option.some.inj h
      simp [events_push, eventsAll, Event.expand]
  | empty name as =>
    rw [step] at h
    simp [add_events h, Node.events, eventsAll, Event.expand]
  | stop name =>
    obtain ⟨_ | ⟨⟨name', as, children⟩, rest⟩, root⟩ := t
    · cases h
    · rw [step] at h
      simp only at h
      split at h
      · rename_i hn
        subst hn
        simp [add_events h, events_push, Node.events, Event.expand]
      · cases h
  | char c =>
    rw [step] at h
    split at h
    · cases h
    · simp [add_events h, Node.events, Event.expand]

theorem foldlM_events {t t' : Tree} {es : List Event} (h : es.foldlM step t = some t') :
    t'.events = t.events ++ es.flatMap Event.expand := by
  induction es generalizing t with
  | nil => rw [← Option.some.inj h, List.flatMap_nil, List.append_nil]
  | cons e es ih =>
    rw [List.foldlM_cons] at h
    obtain ⟨u, hu, h⟩ := Option.bind_eq_some_iff.1 h
    rw [ih h, step_events hu, List.flatMap_cons, List.append_assoc]

theorem foldlM_expand (t : Tree) (e : Event) : e.expand.foldlM step t = t.step e := by
  cases e with
  | empty name as =>
    obtain ⟨_ | ⟨⟨name', as', children⟩, rest⟩, _ | r⟩ := t <;> simp [Event.expand, step, add]
  | _ => simp [Event.expand]

theorem foldlM_flatMap_expand (t : Tree) (es : List Event) :
    (es.flatMap Event.expand).foldlM step t = es.foldlM step t := by
  induction es generalizing t with
  | nil => rfl
  | cons e es ih => simp [List.foldlM_append, foldlM_expand, ih]

end Tree

mutual

/-- The tags of an element put it in its place. -/
theorem Node.foldlM_events (n : Node) {t : Tree} (h : t.stack ≠ []) : n.events.foldlM Tree.step t = t.add n := by
  cases n with
  | char c => simp [Node.events, Tree.step, h]
  | element name as children =>
    rw [Node.events, List.foldlM_cons, Tree.step, if_neg (by simp [h]), Option.bind_eq_bind, Option.bind_some,
      List.foldlM_append, foldlM_eventsAll children]
    simp [Tree.step]

theorem foldlM_eventsAll (ns : List Node) (name : List Char) (as : Attrs) (children : List Node)
    (rest : List (List Char × Attrs × List Node)) (root : Option Node) :
    (eventsAll ns).foldlM Tree.step ⟨(name, as, children) :: rest, root⟩ =
      some ⟨(name, as, children ++ ns) :: rest, root⟩ := by
  cases ns with
  | nil => simp [eventsAll]
  | cons n ns =>
    rw [eventsAll, List.foldlM_append, Node.foldlM_events n (by simp), Tree.add, Option.bind_eq_bind,
      Option.bind_some, foldlM_eventsAll ns, List.append_assoc, List.singleton_append]

end

/-- **`build_iff`**: the tree of a document is the element whose tags and characters the document has. -/
theorem build_iff {es : List Event} {n : Node} :
    build es = some n ↔ (∀ c, n ≠ .char c) ∧ es.flatMap Event.expand = n.events := by
  rw [build, ← Tree.foldlM_flatMap_expand]
  constructor
  · intro h
    split at h
    · rename_i m hm
      obtain rfl := Option.some.inj h
      have he : m.events = es.flatMap Event.expand := by
        simpa [Tree.events, Tree.foldlM_flatMap_expand] using
          Tree.foldlM_events ((Tree.foldlM_flatMap_expand _ _).symm.trans hm)
      refine ⟨fun c hc => ?_, he.symm⟩
      -- a character stands in no element
      rw [← he, hc] at hm
      cases hm
    · cases h
  · rintro ⟨hn, he⟩
    rw [he]
    cases n with
    | char c => exact absurd rfl (hn c)
    | element name as children =>
      have h : (Node.element name as children).events.foldlM Tree.step {} =
          some ⟨[], some (.element name as children)⟩ := by
        rw [Node.events, List.foldlM_cons, Tree.step, if_neg (by simp), Option.bind_eq_bind, Option.bind_some,
          List.foldlM_append, foldlM_eventsAll children]
        simp [Tree.step, Tree.add]
      rw [h]

/-! ## Runs -/

theorem run_singleton (x : Lexer) (c : Char) : run x [c] = step x c := by
  rw [run]
  cases h : step x c <;> simp [run]

theorem run_append (x : Lexer) (a b : List Char) :
    run x (a ++ b) = (run x a).bind fun y => (run y.1 b).map fun z => (z.1, y.2 ++ z.2) := by
  induction a generalizing x with
  | nil =>
    simp [run]
  | cons c a ih =>
    rw [List.cons_append, run, run]
    cases h : step x c with
    | none => rfl
    | some y => cases hy : run y.1 a <;> simp [ih, hy, Option.map_eq_bind, Option.bind_assoc]

theorem run_append_of {x y : Lexer} {a : List Char} {es : List Event} (h : run x a = some (y, es)) (b : List Char) :
    run x (a ++ b) = (run y b).map fun z => (z.1, es ++ z.2) := by
  rw [run_append, h, Option.bind_some]

theorem run_trans {x y z : Lexer} {a b : List Char} {es fs : List Event} (ha : run x a = some (y, es))
    (hb : run y b = some (z, fs)) : run x (a ++ b) = some (z, es ++ fs) := by
  rw [run_append_of ha, hb, Option.map_some]

theorem run_append_eq_some {x z : Lexer} {a b : List Char} {es : List Event} (h : run x (a ++ b) = some (z, es)) :
    ∃ y fs gs, run x a = some (y, fs) ∧ run y b = some (z, gs) ∧ es = fs ++ gs := by
  rw [run_append] at h
  obtain ⟨⟨y, fs⟩, hy, h⟩ := Option.bind_eq_some_iff.1 h
  obtain ⟨⟨z', gs⟩, hz, h⟩ := Option.map_eq_some_iff.1 h
  cases h
  exact ⟨y, fs, gs, hy, hz, rfl⟩

theorem run_cons_eq_some {x z : Lexer} {c : Char} {s : List Char} {es : List Event}
    (h : run x (c :: s) = some (z, es)) :
    ∃ y fs gs, step x c = some (y, fs) ∧ run y s = some (z, gs) ∧ es = fs ++ gs := by
  obtain ⟨y, fs, gs, hy, hz, he⟩ := run_append_eq_some (a := [c]) h
  refine ⟨y, fs, gs, ?_, hz, he⟩
  rwa [run_singleton] at hy

theorem isChar_of_run {x : Lexer} {s : List Char} (h : (run x s).isSome) : ∀ c ∈ s, isChar c := by
  induction s generalizing x with
  | nil => simp
  | cons c s ih =>
    obtain ⟨⟨z, es⟩, h⟩ := Option.isSome_iff_exists.1 h
    obtain ⟨y, fs, gs, hy, hz, -⟩ := run_cons_eq_some h
    have hc : isChar c = true := by
      by_contra hc
      simp [step, hc] at hy
    simpa [hc] using ih (by rw [hz]; rfl)

theorem step_of_isChar {c : Char} (h : isChar c = true) (depth : Nat) (mode : Mode) :
    step (depth, mode) c = next depth mode c := by
  simp [step, h]

/-- A character with no meaning in the text of an element. -/
theorem run_plainChar {c : Char} (hc : isChar c = true) (hlt : c ≠ '<') (hamp : c ≠ '&') {k : Nat}
    (hgt : ¬ (c = '>' ∧ 2 ≤ k)) (depth : Nat) :
    run (depth + 1, .content k) [c] =
      some ((depth + 1, .content (if c = ']' then k + 1 else 0)), [.char c]) := by
  rw [run_singleton, step_of_isChar hc, next, if_neg hlt, if_neg (by simp), if_neg hamp, if_neg hgt]
  split <;> rfl

/-! ## Documents -/

theorem parse_declared (s : List Char) : parse (declaration ++ s) = (lex (normalizeLines s)).bind build := by
  have h : normalizeLines (declaration ++ s) = declaration ++ normalizeLines s := normalizeLines_append (by decide) s
  simp only [parse, h]
  rw [if_pos (List.prefix_append _ _), List.drop_left]

theorem lex_eq_some {s : List Char} {es : List Event} :
    lex s = some es ↔ ∃ k, run (0, .content 0) s = some ((0, .content k), es) := by
  unfold lex
  constructor
  · intro h
    split at h
    · rename_i k fs hr
      obtain rfl := Option.some.inj h
      exact ⟨k, hr⟩
    · cases h
  · rintro ⟨k, hr⟩
    simp only [hr]

end Xml
