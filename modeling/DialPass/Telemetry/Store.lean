import DialPass.Lib.Json
/-!
# The Postgres event store (telemetry/store.py:40-75)

`write_many` makes a row of every event before it writes any. What becomes of the rows, psycopg's own
conversions included, is up to the database: `Database` says how many it took when it raised.
-/

namespace DialPass

/-- A row of `call_events`. The text columns are kept as the values that `str` is applied to. -/
structure Row where
  callId : Json
  t : PyFloat
  kind : Json
  payload : Json

/-- `executemany`: `none` if it returns, else how many rows were stored before it raised. -/
abbrev Database := List Row → Option Nat

/-- The row of an event (store.py:68); `none` is any exception. -/
def rowOf (py : Interpreter) (e : Json) : Option Row :=
  match e with
  | .obj fields => do
    let callId := Json.get fields "call_id" (.str [])
    if ¬ callId.Printable py then none
    let t ← (Json.get fields "t" (.float (.decimal false 0 0))).toFloat
    let kind := Json.get fields "kind" (.str [])
    if ¬ kind.Printable py then none
    return { callId, t, kind, payload := e }
  | _ => none

/-- `PostgresEventStore.write_many` (store.py:64): the rows stored, and whether it raised. -/
def writeMany (py : Interpreter) (db : Database) (events : List Json) : List Row × Bool :=
  match events.mapM (rowOf py) with
  | none => ([], true)
  | some rows =>
    match db rows with
    | none => (rows, false)
    | some n => (rows.take n, true)

/-- The store can make a row of the value: an object whose `t` is a number for `float`. -/
def Storable (py : Interpreter) : Json → Prop
  | .obj fields =>
    (Json.get fields "t" (.float (.decimal false 0 0))).toFloat.isSome = true ∧
      (Json.get fields "call_id" (.str [])).Printable py ∧ (Json.get fields "kind" (.str [])).Printable py
  | _ => False

instance (py : Interpreter) (e : Json) : Decidable (Storable py e) :=
  match e with
  | .obj _ => inferInstanceAs (Decidable (_ ∧ _))
  | .null | .bool _ | .int _ | .float _ | .str _ | .arr _ => .isFalse id

variable {py : Interpreter} {db : Database} {events : List Json}

theorem rowOf_isSome_iff (e : Json) : (rowOf py e).isSome = true ↔ Storable py e := by
  cases e with
  | obj fields =>
    simp only [rowOf, Storable]
    by_cases hc : (Json.get fields "call_id" (.str [])).Printable py
    · by_cases hk : (Json.get fields "kind" (.str [])).Printable py
      · cases ht : (Json.get fields "t" (.float (.decimal false 0 0))).toFloat <;> simp [hc, hk]
      · cases ht : (Json.get fields "t" (.float (.decimal false 0 0))).toFloat <;> simp [hc, hk]
    · simp [hc]
  | _ => simp [rowOf, Storable]

/-- All rows are made, or none. -/
theorem mapM_rowOf (events : List Json) :
    ((∀ e ∈ events, Storable py e) ∧ events.mapM (rowOf py) = some (events.filterMap (rowOf py))) ∨
      ((∃ e ∈ events, ¬ Storable py e) ∧ events.mapM (rowOf py) = none) := by
  induction events with
  | nil => exact .inl ⟨by simp, rfl⟩
  | cons e events ih =>
    cases he : rowOf py e with
    | none =>
      have hn : ¬ Storable py e := by rw [← rowOf_isSome_iff, he]; simp
      exact .inr ⟨⟨e, List.mem_cons_self, hn⟩, by simp [he]⟩
    | some row =>
      have hs : Storable py e := by rw [← rowOf_isSome_iff, he]; rfl
      rcases ih with ⟨hall, hm⟩ | ⟨⟨e', he', hn⟩, hm⟩
      · exact .inl ⟨List.forall_mem_cons.2 ⟨hs, hall⟩, by simp [he, hm]⟩
      · exact .inr ⟨⟨e', List.mem_cons_of_mem _ he', hn⟩, by simp [he, hm]⟩

/-- With a database that takes every row, it is all of the batch that is stored, or nothing. -/
theorem writeMany_cases (py : Interpreter) (hdb : ∀ rows, db rows = none) (events : List Json) :
    ((∀ e ∈ events, Storable py e) ∧ writeMany py db events = (events.filterMap (rowOf py), false)) ∨
      ((∃ e ∈ events, ¬ Storable py e) ∧ writeMany py db events = ([], true)) := by
  rcases mapM_rowOf events with ⟨hall, hm⟩ | ⟨hn, hm⟩
  · exact .inl ⟨hall, by simp only [writeMany, hm, hdb]⟩
  · exact .inr ⟨hn, by simp only [writeMany, hm]⟩

end DialPass
