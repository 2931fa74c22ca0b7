import PaperTrade.Runner.Acts

/-!
# A remembered direction

A strategy that opens on flips compares the newest direction with one it remembers from an earlier scan.
It opens on a real flip when the remembered direction is that of the candle before, and this may fail in
three ways: the first scan of a process remembers another direction than its candles have, a gated scan
does not look at a new direction, and a later scan computes another direction for a candle than the scan
in which it was the newest.

`FlipWatch` is what this reading needs to know of a strategy, and `Steady` says that none of the three
happens in a step. Beside the world it uses the direction of the newest candle of the last scan.
-/

namespace PaperTrade.Runner

open PaperTrade.Runtime Dispatcher

/-- One of the signals is an OPEN. -/
def Opens (cs : List Call) : Prop := ∃ c ∈ cs, c.type = "OPEN"

instance (cs : List Call) : Decidable (Opens cs) :=
  inferInstanceAs (Decidable (∃ c ∈ cs, c.type = "OPEN"))

lemma not_opens_nil : ¬ Opens [] := fun h => by
  obtain ⟨c, hc, -⟩ := h
  exact List.not_mem_nil hc

lemma opens_append {cs cs' : List Call} : Opens (cs ++ cs') ↔ Opens cs ∨ Opens cs' := by
  unfold Opens
  constructor
  · rintro ⟨c, hc, htype⟩
    rcases List.mem_append.mp hc with hc | hc
    · exact .inl ⟨c, hc, htype⟩
    · exact .inr ⟨c, hc, htype⟩
  · rintro (⟨c, hc, htype⟩ | ⟨c, hc, htype⟩)
    · exact ⟨c, List.mem_append_left _ hc, htype⟩
    · exact ⟨c, List.mem_append_right _ hc, htype⟩

lemma not_opens_singleton {c : Call} (h : c.type ≠ "OPEN") : ¬ Opens [c] := by
  rintro ⟨c', hc', htype⟩
  rw [List.mem_singleton.mp hc'] at htype
  exact h htype

lemma sentSince_restart {σ : Type} (s s' : σ) (o : Outbox) (ok : Bool) :
    sentSince (s, o) (s', o.restart ok) = [] :=
  sentSince_eq (by rw [Outbox.restart, calls_append]; rfl)

/-- The direction of the last candle is not that of the one before. -/
def Flipped (directions : List ℤ) : Prop :=
  ∃ d d', directions.dropLast.getLast? = some d ∧ directions.getLast? = some d' ∧ d' ≠ d

/-- How the scans of a strategy use the direction that they remember. -/
structure FlipWatch (σ ε : Type) where
  /-- The directions of the candles that a scan works on. -/
  scanned : σ → ε → Option (List ℤ)
  /-- The direction that is remembered, once the process has scanned a candle. -/
  remembered : σ → Option ℤ
  /-- The direction that the first scan of a process remembers. -/
  adopted : σ → ε → ℤ
  /-- The scan ends before it compares the directions. -/
  gated : σ → ε → Bool

namespace FlipWatch

variable {σ ε : Type} (m : FlipWatch σ ε) (step : σ × Outbox → ε → σ × Outbox)

/-- What a step does with the remembered direction, when it sends `cs`. -/
def Effect (s : σ) (e : ε) (cs : List Call) (s' : σ) : Prop :=
  match m.scanned s e, m.remembered s with
  | none, _ => ¬ Opens cs ∧ (m.remembered s' = m.remembered s ∨ m.remembered s' = none)
  | some _, none => ¬ Opens cs ∧ m.remembered s' = some (m.adopted s e)
  | some directions, some d =>
    if m.gated s e then ¬ Opens cs ∧ m.remembered s' = some d
    else m.remembered s' = directions.getLast? ∧
      (Opens cs → ∃ d', directions.getLast? = some d' ∧ d' ≠ 0 ∧ d' ≠ d)

section Effects

variable {m} {s s' : σ} {e : ε} {cs : List Call}

/-- A step that does not scan; a new process remembers nothing. -/
lemma effect_idle (hscanned : m.scanned s e = none) (hquiet : ¬ Opens cs)
    (h : m.remembered s' = m.remembered s ∨ m.remembered s' = none) : m.Effect s e cs s' := by
  unfold Effect
  rw [hscanned]
  exact ⟨hquiet, h⟩

/-- The first scan of a process. -/
lemma effect_adopt {directions : List ℤ} (hscanned : m.scanned s e = some directions)
    (hnew : m.remembered s = none) (hquiet : ¬ Opens cs)
    (h : m.remembered s' = some (m.adopted s e)) : m.Effect s e cs s' := by
  unfold Effect
  rw [hscanned, hnew]
  exact ⟨hquiet, h⟩

/-- A scan that compares the directions. -/
lemma effect_compare {directions : List ℤ} {d d' : ℤ} (hscanned : m.scanned s e = some directions)
    (hremembered : m.remembered s = some d) (hgated : m.gated s e = false)
    (hlast : directions.getLast? = some d') (h : m.remembered s' = some d')
    (hopens : Opens cs → d' ≠ 0 ∧ d' ≠ d) : m.Effect s e cs s' := by
  unfold Effect
  rw [hscanned, hremembered]
  dsimp only
  rw [hgated, if_neg Bool.false_ne_true]
  exact ⟨h.trans hlast.symm, fun ho => ⟨d', hlast, hopens ho⟩⟩

/-- Signals of the same step that open nothing. -/
lemma Effect.append (h : m.Effect s e cs s') {cs' : List Call} {s'' : σ} (hquiet : ¬ Opens cs')
    (hsame : m.remembered s'' = m.remembered s') : m.Effect s e (cs ++ cs') s'' := by
  have hopens : Opens (cs ++ cs') → Opens cs := fun ho =>
    (opens_append.mp ho).resolve_right hquiet
  unfold Effect at h ⊢
  rw [hsame]
  cases hscanned : m.scanned s e with
  | none =>
    rw [hscanned] at h
    exact ⟨fun ho => h.1 (hopens ho), h.2⟩
  | some directions =>
    cases hremembered : m.remembered s with
    | none =>
      rw [hscanned, hremembered] at h
      exact ⟨fun ho => h.1 (hopens ho), h.2⟩
    | some d =>
      rw [hscanned, hremembered] at h
      dsimp only at h ⊢
      by_cases hgated : m.gated s e = true
      · rw [if_pos hgated] at h ⊢
        exact ⟨fun ho => h.1 (hopens ho), h.2⟩
      · rw [if_neg hgated] at h ⊢
        exact ⟨h.1, fun ho => h.2 (hopens ho)⟩

end Effects

/-- Where the step opens, its process has scanned before, and the direction has flipped on the last candle
of the scan. -/
def RealFlip (w : σ × Outbox) (e : ε) : Prop :=
  Opens (sentSince w (step w e)) → (m.remembered w.1).isSome ∧
    ∃ directions, m.scanned w.1 e = some directions ∧ Flipped directions

/-- The step, with the direction of the newest candle of the last scan. -/
def watched (w : (σ × Outbox) × Option ℤ) (e : ε) : (σ × Outbox) × Option ℤ :=
  (step w.1 e, match m.scanned w.1.1 e with
    | none => w.2
    | some directions => directions.getLast?)

/-- The first scan remembers the direction of its last candle (or there is none); a later one finds for
the candle before the direction that it had, and sees no new direction when it is gated. -/
def Steady (w : (σ × Outbox) × Option ℤ) (e : ε) : Prop :=
  ∀ directions ∈ m.scanned w.1.1 e,
    match m.remembered w.1.1 with
    | none => directions.getLast? = some (m.adopted w.1.1 e) ∨ directions.getLast? = some 0
    | some d => directions.dropLast.getLast? = w.2 ∧
        (m.gated w.1.1 e = true → directions.getLast? = some d)

instance (w : (σ × Outbox) × Option ℤ) (e : ε) : Decidable (m.Steady w e) :=
  have : ∀ directions : List ℤ, Decidable (match m.remembered w.1.1 with
      | none => directions.getLast? = some (m.adopted w.1.1 e) ∨ directions.getLast? = some 0
      | some d => directions.dropLast.getLast? = w.2 ∧
          (m.gated w.1.1 e = true → directions.getLast? = some d)) := fun _ =>
    match m.remembered w.1.1 with
    | none => inferInstanceAs (Decidable (_ ∨ _))
    | some _ => inferInstanceAs (Decidable (_ ∧ (_ → _)))
  inferInstanceAs (Decidable (∀ directions ∈ m.scanned w.1.1 e, _))

/-- What is remembered is the direction of the newest candle of the last scan, unless it had none. -/
def Recalls (w : (σ × Outbox) × Option ℤ) : Prop :=
  ∀ d, m.remembered w.1.1 = some d → w.2 = some d ∨ w.2 = some 0

variable {m step}

/-- One step. -/
lemma recalls_step {w : (σ × Outbox) × Option ℤ} {e : ε} {cs : List Call}
    (heffect : m.Effect w.1.1 e cs (step w.1 e).1) (hw : m.Recalls w) (hsteady : m.Steady w e) :
    m.Recalls (m.watched step w e) := by
  intro d hd
  change m.remembered (step w.1 e).1 = some d at hd
  unfold Effect at heffect
  unfold watched
  cases hscanned : m.scanned w.1.1 e with
  | none =>
    rw [hscanned] at heffect
    rcases heffect.2 with hsame | hnone
    · rw [hsame] at hd
      exact hw d hd
    · rw [hnone] at hd
      cases hd
  | some directions =>
    have hds := hsteady directions hscanned
    rw [hscanned] at heffect
    dsimp only at heffect ⊢
    cases hremembered : m.remembered w.1.1 with
    | none =>
      rw [hremembered] at heffect hds
      dsimp only at heffect hds
      rw [heffect.2] at hd
      cases hd
      exact hds
    | some d₀ =>
      rw [hremembered] at heffect hds
      dsimp only at heffect hds
      by_cases hgated : m.gated w.1.1 e = true
      · rw [if_pos hgated] at heffect
        rw [heffect.2] at hd
        cases hd
        exact .inl (hds.2 hgated)
      · rw [if_neg hgated] at heffect
        rw [heffect.1] at hd
        exact .inl hd

/-- Where the remembered direction is that of the candle before, an OPEN is on a flip. -/
lemma flipped_of_steady {w : (σ × Outbox) × Option ℤ} {e : ε} {cs : List Call} {s' : σ}
    (heffect : m.Effect w.1.1 e cs s') (hw : m.Recalls w) (hsteady : m.Steady w e) (hopens : Opens cs) :
    (m.remembered w.1.1).isSome ∧
      ∃ directions, m.scanned w.1.1 e = some directions ∧ Flipped directions := by
  unfold Effect at heffect
  cases hscanned : m.scanned w.1.1 e with
  | none =>
    rw [hscanned] at heffect
    exact absurd hopens heffect.1
  | some directions =>
    have hds := hsteady directions hscanned
    rw [hscanned] at heffect
    cases hremembered : m.remembered w.1.1 with
    | none =>
      rw [hremembered] at heffect
      exact absurd hopens heffect.1
    | some d =>
      rw [hremembered] at heffect hds
      dsimp only at heffect hds
      by_cases hgated : m.gated w.1.1 e = true
      · rw [if_pos hgated] at heffect
        exact absurd hopens heffect.1
      · rw [if_neg hgated] at heffect
        obtain ⟨d', hlast, hzero, hne⟩ := heffect.2 hopens
        refine ⟨rfl, directions, rfl, ?_⟩
        rcases hw d hremembered with hd | hd
        · exact ⟨d, d', hds.1.trans hd, hlast, hne⟩
        · exact ⟨0, d', hds.1.trans hd, hlast, hzero⟩

/-- A run from a new process on. -/
theorem realFlips (heffect : ∀ w e, m.Effect w.1 e (sentSince w (step w e)) (step w e).1)
    {w : σ × Outbox} (hw : m.remembered w.1 = none) {events : List ε}
    (hsteady : Along (m.watched step) m.Steady (w, none) events) :
    Along step (m.RealFlip step) w events := by
  have hbeside : ∀ w e, (m.watched step w e).1 = step w.1 e := fun _ _ => rfl
  refine Along.of_beside hbeside (w := (w, none)) ?_
  refine Along.of_inv (I := m.Recalls) (fun w e hrecalls h => recalls_step (heffect w.1 e) hrecalls h)
    (fun w e hrecalls h hopens => flipped_of_steady (heffect w.1 e) hrecalls h hopens) ?_ hsteady
  intro d hd
  change m.remembered w.1 = some d at hd
  rw [hw] at hd
  cases hd

end FlipWatch

end PaperTrade.Runner
