import PaperTrade.Worker.Accounts

/-!
# The levels of the positions

What a message and a pass make of the TP and the SL of the rows. A message leaves a row alone, opens it
with the levels of an OPEN, or moves it to those of a MODIFY (`LevelOrigin`). A pass closes only rows
whose quote has hit a level (`Passes`).
-/

namespace PaperTrade.Worker

open PaperTrade.Runtime

/-- The levels of a row, and what they are compared by. -/
def PositionRow.levels (p : PositionRow) :
    String × String × String × String × Option PyFloat × Option PyFloat :=
  (p.positionId, p.alphaId, p.symbol, p.side, p.tp, p.sl)

/-- Where the levels of a row come from after a message. -/
inductive LevelOrigin (m : Delivery) (s : Tables) (p' : PositionRow) : Prop
  | kept {p} (hp : p ∈ s.positions.rows) (hlevels : p'.levels = p.levels)
  | opened {signal} (hparse : parseSignal m.data = .ok (.open signal))
      (halpha : p'.alphaId = signal.alphaId) (htp : p'.tp = signal.tp.bind real)
      (hsl : p'.sl = signal.sl.bind real)
  | moved {signal p merged} (hparse : parseSignal m.data = .ok (.modify signal))
      (hp : p ∈ s.positions.rows) (hid : p.positionId = signal.positionId)
      (hrow : p' = p.updated signal.tp signal.sl merged)

/-! ## Messages -/

/-- The levels of an OPEN. -/
lemma open_levels {data : RawSignal} {signal : OpenSignal}
    (h : parseSignal data = .ok (.open signal)) :
    optFloat data.tp = .ok signal.tp ∧ optFloat data.sl = .ok signal.sl := by
  have hp := parseOpen_of_parseSignal h
  simp only [parseOpen] at hp
  obtain ⟨_, -, hp⟩ := bind_eq_ok hp
  obtain ⟨_, -, hp⟩ := bind_eq_ok hp
  obtain ⟨_, -, hp⟩ := bind_eq_ok hp
  obtain ⟨_, -, hp⟩ := bind_eq_ok hp
  obtain ⟨_, -, hp⟩ := bind_eq_ok hp
  obtain ⟨_, -, hp⟩ := bind_eq_ok hp
  obtain ⟨_, htp, hp⟩ := bind_eq_ok hp
  obtain ⟨_, hsl, hp⟩ := bind_eq_ok hp
  obtain ⟨_, -, hp⟩ := bind_eq_ok hp
  obtain ⟨_, -, hp⟩ := bind_eq_ok hp
  cases hp
  exact ⟨htp, hsl⟩

/-- The levels of a MODIFY, and the position that it names. -/
lemma modify_levels {data : RawSignal} {signal : ModifySignal}
    (h : parseSignal data = .ok (.modify signal)) :
    signal.positionId = data.positionId.getD "" ∧ optFloat data.tp = .ok signal.tp ∧
      optFloat data.sl = .ok signal.sl := by
  have hp : parseModify data = .ok signal := by
    simp only [parseSignal] at h
    split at h
    · cases h
    · cases hp : parseOpen data <;> simp [hp, Except.map] at h
    · cases hp : parseModify data with
      | error e => simp [hp, Except.map] at h
      | ok parsed => simpa [hp, Except.map] using h
    · cases hp : parseClose data <;> simp [hp, Except.map] at h
    · cases hp : parseRegisterColumns data <;> simp [hp, Except.map] at h
  simp only [parseModify] at hp
  obtain ⟨_, -, hp⟩ := bind_eq_ok hp
  obtain ⟨_, -, hp⟩ := bind_eq_ok hp
  obtain ⟨_, htp, hp⟩ := bind_eq_ok hp
  obtain ⟨_, hsl, hp⟩ := bind_eq_ok hp
  cases hp
  exact ⟨rfl, htp, hsl⟩

section Messages

variable {self : Executor} {m : Delivery} {s s' : Tables} {p' : PositionRow}

/-- A close leaves the levels of every row that it leaves. -/
lemma ClosePosition.levels {a : CloseArgs} {r : Except PyError Unit} (h : ClosePosition s a r s')
    (hp' : p' ∈ s'.positions.rows) : ∃ p ∈ s.positions.rows, p'.levels = p.levels := by
  cases h with
  | full _ _ _ _ => exact ⟨p', ((s.positions.mem_erase _ _).mp hp').1, rfl⟩
  | partly _ _ _ _ _ =>
    rcases mem_reduce.mp hp' with ⟨hp, -⟩ | ⟨p, hp, -, hrow⟩
    · exact ⟨p', hp, rfl⟩
    · exact ⟨p, hp, hrow ▸ rfl⟩
  | missing _ => exact ⟨p', hp', rfl⟩
  | unpriced _ _ => exact ⟨p', hp', rfl⟩
  | nothing _ _ _ => exact ⟨p', hp', rfl⟩
  | unsettled _ _ _ _ _ => exact ⟨p', hp', rfl⟩
  | taken _ _ => exact ⟨p', hp', rfl⟩
  | stuck _ _ _ _ _ => exact ⟨p', hp', rfl⟩

lemma handle_levels {signal : Signal} {r : Except PyError Outcome}
    (hparse : parseSignal m.data = .ok signal)
    (h : Handle self m.env (s.log (logRow m.env m.data)) signal (fillAt m.env s signal) r s')
    (hp' : p' ∈ s'.positions.rows) : LevelOrigin m s p' := by
  have hkept : p' ∈ s.positions.rows → LevelOrigin m s p' := fun hp => .kept hp rfl
  have hclosed : ∀ {a : CloseArgs} {r : Except PyError Unit},
      ClosePosition (s.log (logRow m.env m.data)) a r s' → LevelOrigin m s p' := by
    intro a r hclose
    obtain ⟨p, hp, hlevels⟩ := hclose.levels hp'
    exact .kept hp hlevels
  cases signal with
  | «open» signal =>
    cases h with
    | blocked _ => exact hkept hp'
    | leverage _ _ => exact hkept hp'
    | taken _ _ _ => exact hkept hp'
    | opened _ _ _ hrows =>
      rw [hrows, List.mem_append, List.mem_singleton] at hp'
      rcases hp' with hp' | rfl
      · exact hkept hp'
      · exact .opened hparse rfl rfl rfl
  | modify signal =>
    cases h with
    | missing _ => exact hkept hp'
    | stop _ _ => exact hkept hp'
    | unmerged _ _ _ => exact hkept hp'
    | modified _ _ _ =>
      rcases (mem_modified _ signal).mp hp' with ⟨hp, -⟩ | ⟨p, hp, hkey, hrow⟩
      · exact hkept hp
      · exact .moved hparse hp hkey hrow
  | close signal =>
    cases h with
    | missing _ => exact hkept hp'
    | refused _ _ => exact hkept hp'
    | unfilled _ _ _ => exact hkept hp'
    | failed _ _ _ hclose => exact hclosed hclose
    | closed _ _ _ _ hclose => exact hclosed hclose
  | registerColumns signal =>
    cases h with
    | invalid _ => exact hkept hp'
    | notArray _ _ => exact hkept hp'
    | failed _ hinsert =>
      rw [hinsert.sameLedger.1] at hp'
      exact hkept hp'
    | registered _ hinsert =>
      rw [hinsert.sameLedger.1] at hp'
      exact hkept hp'

/-- What a message makes of the levels. -/
theorem deliver_levels (self : Executor) (m : Delivery) (s : Tables) {p' : PositionRow}
    (hp' : p' ∈ (deliver self s m).positions.rows) : LevelOrigin m s p' := by
  have hd := deliver_cases self m s
  generalize deliver self s m = s', reply self s m = r at hd hp'
  cases hd with
  | duplicate _ => exact .kept hp' rfl
  | unparsable _ _ => exact .kept hp' rfl
  | rejected _ hparse h => exact handle_levels hparse h hp'
  | accepted _ hparse h => exact handle_levels hparse h hp'

end Messages

/-! ## The pass -/

/-- The quote of a row has hit a level. -/
def Hit (env : Executor.TpslEnv) (pos : PositionRow) : Prop :=
  ∃ quote, env.price pos.symbol pos.side = some quote ∧
    (Executor.tpslHit pos quote.price).isSome = true

/-- What a pass over some rows does to the tables: it closes only rows that have hit a level. -/
structure Passes (env : Executor.TpslEnv) (positions : List PositionRow) (s s' : Tables) : Prop where
  levels : ∀ p' ∈ s'.positions.rows, ∃ p ∈ s.positions.rows, p'.levels = p.levels
  hit : ∀ id, s.positions.contains id = true → s'.positions.contains id = false →
    ∃ pos ∈ positions, pos.positionId = id ∧ Hit env pos

section Pass

variable {env : Executor.TpslEnv} {pos : PositionRow} {rest : List PositionRow} {s s₁ s₂ : Tables}

lemma Passes.refl (env : Executor.TpslEnv) (positions : List PositionRow) (s : Tables) :
    Passes env positions s s where
  levels p hp := ⟨p, hp, rfl⟩
  hit id h h' := by
    rw [h] at h'
    cases h'

lemma Passes.cons (h : Passes env [pos] s s₁) (hrest : Passes env rest s₁ s₂) :
    Passes env (pos :: rest) s s₂ where
  levels p₂ hp₂ := by
    obtain ⟨p₁, hp₁, h₂⟩ := hrest.levels p₂ hp₂
    obtain ⟨p, hp, h₁⟩ := h.levels p₁ hp₁
    exact ⟨p, hp, h₂.trans h₁⟩
  hit id hin hout := by
    cases hmid : s₁.positions.contains id with
    | true =>
      obtain ⟨p, hp, hid, hhit⟩ := hrest.hit id hmid hout
      exact ⟨p, List.mem_cons_of_mem _ hp, hid, hhit⟩
    | false =>
      obtain ⟨p, hp, hid, hhit⟩ := h.hit id hin hmid
      exact ⟨p, List.mem_cons.mpr (.inl (List.mem_singleton.mp hp)), hid, hhit⟩

/-- A close in the pass. -/
lemma Passes.of_close {a : CloseArgs} {r : Except PyError Unit} (h : ClosePosition s a r s₁)
    (hid : a.positionId = pos.positionId) (hhit : Hit env pos) : Passes env [pos] s s₁ where
  levels _ hp' := h.levels hp'
  hit id hin hout := by
    refine ⟨pos, List.mem_singleton_self _, ?_, hhit⟩
    by_contra hne
    have hother : a.positionId ≠ id := hid ▸ hne
    have hfind := (h.other hother).1
    obtain ⟨p, hp, hkey⟩ := (s.positions.contains_iff id).mp hin
    have hfound : s₁.positions.find? id = some p := by
      rw [hfind]
      exact (s.positions.find?_some_iff _ _).mpr ⟨hp, hkey⟩
    rw [contains_of_find? hfound] at hout
    cases hout

/-- The tables that are durable after a pass over some rows. -/
def PassEnd (env : Executor.TpslEnv) (positions : List PositionRow) (s : Tables) (c : Conn) : Prop :=
  Passes env positions s c.committed ∧ (c = .idle c.committed ∨ ∃ u, c = .opened c.committed u)

lemma checkPosition_passes (ex : Executor) (env : Executor.TpslEnv) (pos : PositionRow) (s : Tables) :
    ∃ r c, (ex.checkPosition env pos).run (.idle s) = (r, c) ∧ PassEnd env [pos] s c ∧
      ∀ hit, r = .ok hit → c = .idle c.committed := by
  have hidle : PassEnd env [pos] s (.idle s) := ⟨.refl env _ s, .inl rfl⟩
  unfold Executor.checkPosition
  cases hprice : env.price pos.symbol pos.side with
  | none => exact ⟨_, _, rfl, hidle, fun _ _ => rfl⟩
  | some quote =>
  dsimp only
  cases htpsl : Executor.tpslHit pos quote.price with
  | none => exact ⟨_, _, rfl, hidle, fun _ _ => rfl⟩
  | some hit =>
  obtain ⟨reason, stop⟩ := hit
  have hhit : Hit env pos := ⟨quote, hprice, by rw [htpsl]; rfl⟩
  obtain ⟨r, s', c, hrun, hclose, hleaves⟩ := closePosition_idle_run s
    { uuid := env.uuid pos.positionId, positionId := pos.positionId
      exitPrice := some (ex.tpslFill env pos quote).value, reason := reason, closedAt := env.now
      closeMetadata := Executor.tpslMetadata reason stop quote (ex.tpslFill env pos quote)
      qty := none }
  have hrest : ∃ r' c', (closePosition (env.uuid pos.positionId) pos.positionId
      (some (ex.tpslFill env pos quote).value) reason env.now
      (Executor.tpslMetadata reason stop quote (ex.tpslFill env pos quote)) none >>= fun _ =>
        pure (some (pos.positionId, reason, (ex.tpslFill env pos quote).value)) :
          Db (Option (String × String × PyFloat))).run (.idle s) = (r', c') ∧ PassEnd env [pos] s c' ∧
      ∀ hit, r' = .ok hit → c' = .idle c'.committed := by
    cases r with
    | ok _ =>
      refine ⟨_, c, by rw [Coro.run_bind_ok hrun]; rfl, ?_⟩
      have hc : c = .idle s' := hleaves
      subst hc
      exact ⟨⟨.of_close hclose rfl hhit, .inl rfl⟩, fun _ _ => rfl⟩
    | error e =>
      refine ⟨.error e, c, Coro.run_bind_error hrun _, ?_, fun _ h => by cases h⟩
      rcases hleaves with rfl | ⟨u, rfl⟩
      · exact hidle
      · exact ⟨.refl env _ s, .inr ⟨u, rfl⟩⟩
  dsimp only
  split
  · exact hrest
  · exact hrest

lemma checkPositions_passes (ex : Executor) (env : Executor.TpslEnv) (positions : List PositionRow)
    (s : Tables) :
    ∃ r c, (ex.checkPositions env positions).run (.idle s) = (r, c) ∧ PassEnd env positions s c := by
  induction positions generalizing s with
  | nil => exact ⟨_, _, rfl, .refl env _ s, .inl rfl⟩
  | cons pos rest ih =>
    obtain ⟨r, c, hrun, ⟨hpasses, hc⟩, hok⟩ := checkPosition_passes ex env pos s
    have hnone : Passes env rest c.committed c.committed := .refl env rest _
    cases r with
    | error e => exact ⟨.error e, c, Coro.run_bind_error hrun _, hpasses.cons hnone, hc⟩
    | ok hit =>
      have hidle : c = .idle c.committed := hok hit rfl
      obtain ⟨r, c', hrest, hpasses', hc'⟩ := ih c.committed
      rw [← hidle] at hrest
      simp only [Executor.checkPositions]
      rw [Coro.run_bind_ok hrun]
      cases r with
      | ok hits => exact ⟨_, c', Coro.run_bind_ok hrest _, hpasses.cons hpasses', hc'⟩
      | error e => exact ⟨_, c', Coro.run_bind_error hrest _, hpasses.cons hpasses', hc'⟩

/-- The durable tables after `check_tpsl_hits` with nothing else going on. -/
def checked (self : Executor) (env : Executor.TpslEnv) (s : Tables) : Tables :=
  ((self.checkTpslHits env).run (.idle s)).2.committed

/-- The pass closes rows of the tables only, each with a quote that has hit a level. -/
theorem checked_passes (self : Executor) (env : Executor.TpslEnv) (s : Tables) :
    Passes env s.positions.rows s (checked self env s) := by
  have hrun : (self.checkTpslHits env).run (.idle s) = (self.checkPositions env
      (s.positions.rows.filter fun r => r.tp.isSome || r.sl.isSome)).run (.idle s) := by
    simp only [Executor.checkTpslHits, getPositionsWithTpsl, Coro.run_bind, run_query]
    rfl
  obtain ⟨r, c, hc, hpasses, -⟩ := checkPositions_passes self env
    (s.positions.rows.filter fun r => r.tp.isSome || r.sl.isSome) s
  unfold checked
  rw [hrun, hc]
  refine ⟨hpasses.levels, fun id hin hout => ?_⟩
  obtain ⟨pos, hpos, hid, hhit⟩ := hpasses.hit id hin hout
  exact ⟨pos, (List.mem_filter.mp hpos).1, hid, hhit⟩

end Pass

end PaperTrade.Worker
