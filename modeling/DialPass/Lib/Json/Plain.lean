import DialPass.Lib.Json.Dumps
/-!
# JSON of a program's own making

`string` and `object` write a value down with keys and texts that are `String`s. `Plain` values, which hold no float,
come back from `loads (dumps v)` as they were; `item_object` finds a field again.
-/

namespace Json

def string (s : String) : Json := .str (.ofString s)

def object (fields : List (String × Json)) : Json := .obj (fields.map fun p => (.ofString p.1, p.2))

/-- It can be written, and comes back as it is. -/
def Plain (py : Interpreter) (v : Json) : Prop := Writable py v ∧ v.spelled = v

section

variable {py : Interpreter}

theorem string_plain (s : String) : Plain py (string s) := ⟨paired_ofString s, rfl⟩

theorem null_plain : Plain py .null := ⟨trivial, rfl⟩

theorem single_plain {v : Json} (h : Plain py v) : Plain py (.arr [v]) := by
  refine ⟨⟨h.1, trivial⟩, ?_⟩
  rw [spelled, itemsSpelled, h.2]
  rfl

theorem object_plain {fields : List (String × Json)} (hkeys : (fields.map Prod.fst).Nodup)
    (h : ∀ p ∈ fields, Plain py p.2) : Plain py (object fields) := by
  have hnd : ((fields.map fun p => (PyStr.ofString p.1, p.2)).map Prod.fst).Nodup := by
    have hn := hkeys.map PyStr.ofString_injective
    rwa [List.map_map] at hn ⊢
  have hw : FieldsWritable py (fields.map fun p => (PyStr.ofString p.1, p.2)) := by
    clear hkeys hnd
    induction fields with
    | nil => trivial
    | cons p fields ih =>
      exact ⟨⟨paired_ofString p.1, (h p List.mem_cons_self).1⟩, ih fun q hq => h q (List.mem_cons_of_mem _ hq)⟩
  have hs : fieldsSpelled (fields.map fun p => (PyStr.ofString p.1, p.2)) =
      fields.map fun p => (PyStr.ofString p.1, p.2) := by
    clear hkeys hnd hw
    induction fields with
    | nil => rfl
    | cons p fields ih =>
      rw [List.map_cons, fieldsSpelled, (h p List.mem_cons_self).2, ih fun q hq => h q (List.mem_cons_of_mem _ hq)]
  exact ⟨⟨hnd, hw⟩, by rw [object, spelled, hs]⟩

theorem item_object (fields : List (String × Json)) (key : String) : (object fields).item key = fields.lookup key := by
  show Dict.find (.ofString key) (fields.map fun p => (PyStr.ofString p.1, p.2)) = _
  induction fields with
  | nil => rfl
  | cons p fields ih =>
    rw [List.map_cons, Dict.find, ih, List.lookup_cons]
    by_cases hp : p.1 = key
    · rw [if_pos (congrArg _ hp), beq_iff_eq.2 hp.symm]
    · rw [if_neg (PyStr.ofString_injective.ne hp), beq_eq_false_iff_ne.2 (Ne.symm hp)]

theorem dictGet_object (fields : List (String × Json)) (key : String) (default : Json) :
    (object fields).dictGet key default = some ((fields.lookup key).getD default) := by
  rw [← item_object]
  rfl

/-- **`loads_dumps_plain`** -/
theorem loads_dumps_plain (seps : Separators) {v : Json} (h : Plain py v) (hd : v.depth ≤ py.maxDepth) :
    loads py (dumps seps v) = .ok v := by
  have hl := loads_dumps seps h.1 hd
  rwa [h.2] at hl

end

end Json
