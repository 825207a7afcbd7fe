import DialPass.Resilience.CircuitBreaker
import DialPass.Lib.Json
/-!
# `/health` (api/health.py)

Reading `state` moves an OPEN breaker on once its timeout has passed, so a health check writes to the breaker
that every call shares, at any moment between their steps. It reads it twice (health.py:25-26), and others may
come between the two.

* `looks_transparent`: no call can tell. Whoever is let in, turned away or completed, and each opening, are the
  same without the readings; an opened breaker has counted up to its threshold, so that a failure opens it again
  whether it was read in between or not.
* `health_report`: the first reading says what a caller would meet, and a body that disagrees with itself says
  that a call succeeded, or opened the breaker, between the two.
-/

namespace DialPass

/-- circuit_breaker.py:19 -/
def BreakerState.value : BreakerState → String
  | .closed => "CLOSED"
  | .opened => "OPEN"
  | .halfOpen => "HALF_OPEN"

/-- `SqsSink`'s counters, when the app has one. -/
structure SinkCounts where
  sent : Int
  droppedOverflow : Nat
  droppedSend : Nat

/-- dialpass/__init__.py:3 -/
def version : String := "0.1.0"

/-- `body["status"]` (health.py:17, health.py:26-27). -/
def healthStatus : Option BreakerState → String
  | some .closed | none => "ok"
  | some _ => "degraded"

/-- `health` (health.py:16), by what it read of the app: the breaker, if there is one, once for its name and
once for the status. -/
def health (sink : Option SinkCounts) (breaker : Option (BreakerState × BreakerState)) (bridges : Nat) :
    List (String × Json) :=
  [("status", .str (.ofString (healthStatus (breaker.map (·.2))))), ("service", .str (.ofString "dialpass")),
    ("version", .str (.ofString version))] ++
  (match sink with
    | some c => [("telemetry", .obj [(.ofString "sent", .int c.sent),
        (.ofString "dropped_overflow", .int c.droppedOverflow), (.ofString "dropped_send", .int c.droppedSend)])]
    | none => []) ++
  (match breaker with
    | some (first, _) => [("tier2_breaker", .str (.ofString first.value))]
    | none => []) ++
  [("active_calls", .int bridges)]

namespace CircuitBreaker

/-- Once out of CLOSED it has counted up to the threshold. -/
def Tripped (b : CircuitBreaker) : Prop := b.state ≠ .closed → b.threshold ≤ b.failures

theorem look_tripped {b : CircuitBreaker} (h : b.Tripped) (now : ℚ) : (b.look now).Tripped := by
  intro hs
  rw [look_threshold, look_failures]
  exact h ((b.look_closed_iff now).not.1 hs)

theorem onFailure_tripped {b : CircuitBreaker} (h : b.Tripped) (now : ℚ) : (b.onFailure now).Tripped := by
  by_cases ho : b.Opens
  · rw [onFailure_of_opens ho]
    intro _
    rcases ho with hs | hle
    · exact (h (by simp [hs])).trans (Nat.le_succ _)
    · exact hle
  · rw [onFailure_of_not_opens ho]
    intro hs
    exact (h hs).trans (Nat.le_succ _)

end CircuitBreaker

namespace Traffic

open CircuitBreaker

/-- Not a reading of `state`. -/
def Step.acts : Step → Bool
  | .look => false
  | _ => true

/-- `s` is `t`, but that its breaker may have been read since its timeout passed. -/
structure Read (s t : Traffic) : Prop where
  rest : s = { t with breaker := s.breaker }
  breaker : s.breaker = t.breaker ∨ (t.breaker.Lapsed t.now ∧ s.breaker = { t.breaker with state := .halfOpen })
  tripped : t.breaker.Tripped

variable {s t : Traffic}

theorem Read.refl (ht : t.breaker.Tripped) : Read t t := ⟨rfl, .inl rfl, ht⟩

/-- Whoever reads it next finds the same. -/
theorem Read.look_eq (h : Read s t) : s.breaker.look t.now = t.breaker.look t.now := by
  rcases h.breaker with hb | ⟨hl, hb⟩
  · rw [hb]
  · rw [hb, CircuitBreaker.look, if_neg (by simp [Lapsed]), CircuitBreaker.look, if_pos hl]

theorem Read.look (h : Read s t) : Read (step s .look) t := by
  have hrest := h.rest
  refine ⟨?_, ?_, h.tripped⟩
  · rw [hrest]
    rfl
  · show s.breaker.look s.now = _ ∨ _ ∧ s.breaker.look s.now = _
    rw [show s.now = t.now by rw [hrest], h.look_eq, CircuitBreaker.look]
    split_ifs with hl
    · exact .inr ⟨hl, rfl⟩
    · exact .inl rfl

/-- A caller reads it himself. -/
theorem Read.call (h : Read s t) : Read s.call t.call := by
  have heq : s.call = t.call := by
    have hent : s.breaker.enterCall s.now = t.breaker.enterCall t.now := by
      rw [show s.now = t.now by rw [h.rest], enterCall, enterCall, h.look_eq]
    rw [Traffic.call, Traffic.call, hent, h.rest]
  rw [heq]
  refine .refl ?_
  rcases t.call_cases with ⟨-, he⟩ | ⟨-, he⟩ <;> rw [he] <;> exact look_tripped h.tripped _

/-- A call that ends leaves the same breaker: a success closes it, and a failure opens it either way. -/
theorem Read.complete (h : Read s t) (id : Nat) (ok : Bool) : Read (s.complete id ok) (t.complete id ok) := by
  have hrun : s.running = t.running := by rw [h.rest]
  cases hr : t.running.any (·.id = id) with
  | false =>
    have hs : s.complete id ok = s := by simp [Traffic.complete, hrun, hr]
    have ht : t.complete id ok = t := by simp [Traffic.complete, hr]
    rw [hs, ht]
    exact h
  | true =>
    have hsuccess : s.breaker.onSuccess = t.breaker.onSuccess := by
      rcases h.breaker with hb | ⟨-, hb⟩ <;> rw [hb]
      simp [onSuccess]
    have hopens : s.breaker.Opens ↔ t.breaker.Opens := by
      rcases h.breaker with hb | ⟨hl, hb⟩ <;> rw [hb]
      have hle := h.tripped (by simp [hl.1])
      exact iff_of_true (.inl rfl) (.inr (hle.trans (Nat.le_succ _)))
    have hfailure : s.breaker.onFailure t.now = t.breaker.onFailure t.now := by
      rcases h.breaker with hb | ⟨hl, hb⟩
      · rw [hb]
      · have hle := h.tripped (by simp [hl.1])
        rw [onFailure_of_opens (hopens.2 (.inr (hle.trans (Nat.le_succ _)))),
          onFailure_of_opens (.inr (hle.trans (Nat.le_succ _))), hb]
    have heq : s.complete id ok = t.complete id ok := by
      rw [Traffic.complete, Traffic.complete, hrun, hr, hsuccess, show s.now = t.now by rw [h.rest], hfailure,
        h.rest]
      simp [hopens]
    rw [heq]
    refine .refl ?_
    rcases t.complete_cases id ok with ⟨-, he⟩ | ⟨-, -, he⟩ | ⟨-, -, ho, he⟩ | ⟨-, -, ho, he⟩ <;> rw [he]
    · exact h.tripped
    · exact fun hs => absurd rfl hs
    · have hf := onFailure_tripped h.tripped t.now
      rwa [onFailure_of_opens ho] at hf
    · have hf := onFailure_tripped h.tripped t.now
      rwa [onFailure_of_not_opens ho] at hf

theorem Read.wait (h : Read s t) (dt : ℚ) : Read (step s (.wait dt)) (step t (.wait dt)) := by
  have hle : t.now ≤ t.now + max dt 0 := le_add_of_nonneg_right (le_max_right _ _)
  refine ⟨?_, ?_, h.tripped⟩
  · rw [h.rest]
    rfl
  · rcases h.breaker with hb | ⟨hl, hb⟩
    · exact .inl hb
    · refine .inr ⟨⟨hl.1, hl.2.trans ?_⟩, hb⟩
      show t.now - t.breaker.openedAt ≤ t.now + max dt 0 - t.breaker.openedAt
      linarith

/-- **`looks_transparent`**: over every interleaving of callers, completions, waits and readings of `state`, the
log, the calls in flight and what the next reader finds are those of the run without the readings. -/
theorem looks_transparent (threshold : Nat) (resetTimeout now : ℚ) (is : List Step) :
    let s := Run.exec step (new threshold resetTimeout now) is
    let t := Run.exec step (new threshold resetTimeout now) (is.filter (·.acts))
    s.log = t.log ∧ s.running = t.running ∧ s.now = t.now ∧ s.breaker.look s.now = t.breaker.look t.now := by
  intro s t
  have h : Read s t := by
    refine Run.exec_sim_filter _ (fun s t i hi h => ?_) (fun s t i hi h => ?_) is _ _ (.refl fun hs => absurd rfl hs)
    · cases i with
      | call => exact h.call
      | complete id ok => exact h.complete id ok
      | wait dt => exact h.wait dt
      | look => cases hi
    · cases i with
      | look => exact h.look
      | _ => cases hi
  refine ⟨by rw [h.rest], by rw [h.rest], by rw [h.rest], ?_⟩
  rw [show s.now = t.now by rw [h.rest]]
  exact h.look_eq

/-! ## What a health check says -/

/-- From `s` on, `es` happened: to leave CLOSED the breaker was opened, to come back a call succeeded. -/
structure Since (s t : Traffic) (es : List BreakerEvent) : Prop where
  log : t.log = s.log ++ es
  closes : s.breaker.state ≠ .closed → t.breaker.state = .closed → ∃ id T, .completed id true T .closed ∈ es
  opens : s.breaker.state = .closed → t.breaker.state ≠ .closed → ∃ T, .opened T ∈ es

theorem Since.refl (s : Traffic) : Since s s [] := ⟨by simp, fun h h' => absurd h' h, fun h h' => absurd h h'⟩

/-- More happened, none of which moved the breaker from or to CLOSED. -/
theorem Since.more {es : List BreakerEvent} (h : Since s t es) (fs : List BreakerEvent) {u : Traffic}
    (hlog : u.log = t.log ++ fs)
    (hst : u.breaker.state = .closed ↔ t.breaker.state = .closed) : Since s u (es ++ fs) := by
  refine ⟨by rw [hlog, h.log, List.append_assoc], fun hs hu => ?_, fun hs hu => ?_⟩
  · obtain ⟨id, T, hmem⟩ := h.closes hs (hst.1 hu)
    exact ⟨id, T, List.mem_append_left _ hmem⟩
  · obtain ⟨T, hmem⟩ := h.opens hs (hst.not.1 hu)
    exact ⟨T, List.mem_append_left _ hmem⟩

theorem Since.step {es : List BreakerEvent} (h : Since s t es) (i : Step) : ∃ fs, Since s (step t i) fs := by
  cases i with
  | call =>
    rcases t.call_cases with ⟨-, he⟩ | ⟨-, he⟩ <;> rw [Traffic.step, he] <;>
      exact ⟨_, h.more _ rfl (t.breaker.look_closed_iff _)⟩
  | complete id ok =>
    rcases t.complete_cases id ok with ⟨-, he⟩ | ⟨-, -, he⟩ | ⟨-, -, -, he⟩ | ⟨-, -, -, he⟩ <;>
      rw [Traffic.step, he]
    · exact ⟨es, h⟩
    · refine ⟨es ++ [.completed id true t.now .closed], by simp [h.log], fun _ _ => ⟨id, t.now, by simp⟩, ?_⟩
      exact fun _ hu => absurd rfl hu
    · refine ⟨es ++ [.completed id false t.now .opened, .opened t.now], by simp [h.log], fun _ hu => ?_, ?_⟩
      · cases hu
      · exact fun _ _ => ⟨t.now, by simp⟩
    · exact ⟨_, h.more _ rfl Iff.rfl⟩
  | look => exact ⟨_, h.more [] (by simp [Traffic.step]) (t.breaker.look_closed_iff _)⟩
  | wait dt => exact ⟨_, h.more [] (by simp [Traffic.step]) Iff.rfl⟩

/-- What a reading of `state` returns now. -/
def reading (s : Traffic) : BreakerState := (s.breaker.look s.now).state

/-- The two readings of one health check, with what others do between them. -/
def readings (s : Traffic) (between : List Step) : BreakerState × BreakerState :=
  (s.reading, (Run.exec step (step s .look) between).reading)

/-- A caller meets what a reading shows. -/
theorem call_reading (s : Traffic) :
    s.call.log = s.log ++ [match s.reading with
      | .opened => .rejected s.fresh s.now
      | .halfOpen => .admitted s.fresh s.now true
      | .closed => .admitted s.fresh s.now false] := by
  rcases s.call_cases with ⟨hr, he⟩ | ⟨hr, he⟩ <;> rw [he]
  · have hn : s.reading ≠ .opened := (s.breaker.look_opened_iff s.now).not.2 hr
    show s.log ++ [.admitted s.fresh s.now (s.reading == .halfOpen)] = _
    cases hs : s.reading with
    | opened => exact absurd hs hn
    | halfOpen => rfl
    | closed => rfl
  · have ho : s.reading = .opened := (s.breaker.look_opened_iff s.now).2 hr
    rw [ho]

theorem health_status (sink : Option SinkCounts) (first second : BreakerState) (bridges : Nat) (st : String) :
    (health sink (some (first, second)) bridges).lookup "status" = some (.str (.ofString st)) ↔
      healthStatus (some second) = st := by
  simp only [health, Option.map_some, List.cons_append, List.lookup_cons, beq_self_eq_true, Option.some.injEq,
    Json.str.injEq]
  exact PyStr.ofString_injective.eq_iff

theorem health_breaker (sink : Option SinkCounts) (first second : BreakerState) (bridges : Nat) :
    (health sink (some (first, second)) bridges).lookup "tier2_breaker" = some (.str (.ofString first.value)) := by
  cases sink <;> simp [health, List.lookup_cons]

/-- **`health_report`**: the breaker a health check names is the one a caller at its first reading meets; if its
status disagrees with that name, a call succeeded between the readings, or one opened the breaker. -/
theorem health_report (s : Traffic) (between : List Step) (sink : Option SinkCounts) (bridges : Nat) :
    let s' := Run.exec step (step s .look) between
    let body := health sink (some (s.readings between)) bridges
    (body.lookup "tier2_breaker" = some (.str (.ofString s.reading.value)) ∧
      s.call.log = s.log ++ [match s.reading with
        | .opened => .rejected s.fresh s.now
        | .halfOpen => .admitted s.fresh s.now true
        | .closed => .admitted s.fresh s.now false]) ∧
    ∃ es, s'.log = s.log ++ es ∧
      (body.lookup "status" = some (.str (.ofString "ok")) → s.reading ≠ .closed →
        ∃ id T, .completed id true T .closed ∈ es) ∧
      (body.lookup "status" = some (.str (.ofString "degraded")) → s.reading = .closed → ∃ T, .opened T ∈ es) := by
  intro s' body
  refine ⟨⟨health_breaker sink _ _ bridges, s.call_reading⟩, ?_⟩
  have hsince : ∃ es, Since (step s .look) s' es :=
    Run.exec_inv (I := fun t => ∃ es, Since (step s .look) t es) (fun t i h => h.elim fun es he => he.step i)
      between _ ⟨[], .refl _⟩
  obtain ⟨es, h⟩ := hsince
  refine ⟨es, h.log, fun hok hs => ?_, fun hdeg hs => ?_⟩
  · refine h.closes hs ?_
    have hst : healthStatus (some s'.reading) = "ok" := (health_status sink _ _ bridges _).1 hok
    refine (s'.breaker.look_closed_iff s'.now).1 ?_
    cases hr : s'.reading with
    | closed => exact hr
    | opened => rw [hr] at hst; exact absurd hst (by decide)
    | halfOpen => rw [hr] at hst; exact absurd hst (by decide)
  · refine h.opens hs fun hc => ?_
    have hst : healthStatus (some s'.reading) = "degraded" := (health_status sink _ _ bridges _).1 hdeg
    have hr : s'.reading = .closed := (s'.breaker.look_closed_iff s'.now).2 hc
    rw [hr] at hst
    exact absurd hst (by decide)

end Traffic

end DialPass
