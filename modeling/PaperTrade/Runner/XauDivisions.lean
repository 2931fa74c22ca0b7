import PaperTrade.Runner.Dedup
import PaperTrade.Runner.XauIndicators

/-!
# The divisions of `XauM30RunnerStrategy`

Presets 11 and 12 divide the last ATR by the median of the 48 or 40 before it. The last one is positive
there, but the median is zero if the upper half of its window is: if all but the last 24 or 20 candles stand
at one price. All other divisors are positive.

The scan has marked its candle as processed before it divides, so a division by zero loses the candle.
-/

namespace PaperTrade.Runner

open PaperTrade.Runtime Dispatcher

namespace XauM30

/-! ## The median of the ATRs -/

lemma mem_slice {values : List ℚ} {a b : ℕ} {v : ℚ} (h : v ∈ slice values a b) : v ∈ values :=
  List.take_subset _ _ (List.drop_subset _ _ h)

/-- The median of the `2 * m` ATRs before a candle is zero if and only if the candles up to the upper middle
of them stand at one price. -/
lemma median_atr_eq_zero_iff {s : List ExactCandle} (h : ∀ c ∈ s, c.WellFormed) {m : ℕ} (hm : 0 < m)
    (hlen : 2 * m + 1 ≤ s.length) :
    middle (slice (atrValues s) (s.length - 1 - 2 * m) (s.length - 1)) = 0 ↔ Flat (s.take (s.length - m)) := by
  have hlength : (slice (atrValues s) (s.length - 1 - 2 * m) (s.length - 1)).length = 2 * m := by
    rw [slice, List.length_drop, List.length_take, length_atrValues]
    omega
  have hfirst : ZerosFirst (slice (atrValues s) (s.length - 1 - 2 * m) (s.length - 1)) :=
    (zerosFirst_atrValues h).sublist ((List.drop_sublist _ _).trans (List.take_sublist _ _))
  have hupper : (slice (atrValues s) (s.length - 1 - 2 * m) (s.length - 1)).getD m 0 =
      val (atrValues s) (s.length - 1 - m) := by
    rw [List.getD_eq_getElem _ _ (by omega), val, List.getD_eq_getElem _ _ (by simp; omega)]
    simp only [slice, List.getElem_drop, List.getElem_take]
    congr 1
    omega
  rw [middle_eq_zero_iff (fun v hv => atrValues_nonneg h v (mem_slice hv)) hfirst hlength hm, hupper,
    val_atrValues_eq_zero_iff h (by omega)]
  have hcount : s.length - 1 - m + 1 = s.length - m := by omega
  rw [hcount]

/-- A division by a median. -/
lemma div_median {values : List ℚ} (hne : values ≠ []) (a : ℚ) (k : ℚ → Except StrategyError Bool) :
    (do
      let typical ← median values
      let volatility ← pyDiv a typical
      k volatility) =
      if middle values = 0 then .error .zeroDivision else k (a / middle values) := by
  rw [median, if_neg hne]
  show (pyDiv a (middle values) >>= k) = _
  unfold pyDiv
  split <;> rfl

/-! ## `_matches` -/

variable {x : XauM30}

/-- All candles but the last 20 or 24 stand at one price, in the presets that divide by a median. -/
def FlatBefore (x : XauM30) (s : List ExactCandle) : Prop :=
  (x.preset.number = 12 ∧ Flat (s.take (s.length - 20))) ∨
    (x.preset.number = 11 ∧ Flat (s.take (s.length - 24)))

instance (s : List ExactCandle) : Decidable (x.FlatBefore s) :=
  inferInstanceAs (Decidable ((_ ∧ _) ∨ (_ ∧ _)))

lemma slice_ne_nil {values : List ℚ} {a b : ℕ} (hab : a < b) (hb : b ≤ values.length) :
    slice values a b ≠ [] := by
  refine List.ne_nil_of_length_pos ?_
  rw [slice, List.length_drop, List.length_take]
  omega

section Matches

variable {s : List ExactCandle} (h : ∀ c ∈ s, c.WellFormed) (hlen : 80 ≤ s.length) (side : Side)
include h hlen

lemma matches12_indicators :
    (Flat (s.take (s.length - 20)) → matches12 s (indicators s) (s.length - 1) side = .error .zeroDivision) ∧
      (¬ Flat (s.take (s.length - 20)) → ∃ b, matches12 s (indicators s) (s.length - 1) side = .ok b) := by
  have hne : slice (indicators s).atr (s.length - 1 - 40) (s.length - 1) ≠ [] :=
    slice_ne_nil (by omega) (by rw [indicators, length_atrValues]; omega)
  have hmedian : middle (slice (indicators s).atr (s.length - 1 - 40) (s.length - 1)) = 0 ↔
      Flat (s.take (s.length - 20)) := median_atr_eq_zero_iff h (m := 20) (by omega) (by omega)
  unfold matches12
  rw [if_neg (by omega), div_median hne]
  exact ⟨fun hflat => if_pos (hmedian.mpr hflat), fun hflat => ⟨_, if_neg (hflat ∘ hmedian.mp)⟩⟩

lemma matches11_indicators :
    (Flat (s.take (s.length - 24)) → matches11 s (indicators s) (s.length - 1) side = .error .zeroDivision) ∧
      (¬ Flat (s.take (s.length - 24)) → ∃ b, matches11 s (indicators s) (s.length - 1) side = .ok b) := by
  have hne : slice (indicators s).atr (s.length - 1 - 48) (s.length - 1) ≠ [] :=
    slice_ne_nil (by omega) (by rw [indicators, length_atrValues]; omega)
  have hmedian : middle (slice (indicators s).atr (s.length - 1 - 48) (s.length - 1)) = 0 ↔
      Flat (s.take (s.length - 24)) := median_atr_eq_zero_iff h (m := 24) (by omega) (by omega)
  unfold matches11
  rw [if_neg (by omega), div_median hne]
  exact ⟨fun hflat => if_pos (hmedian.mpr hflat), fun hflat => ⟨_, if_neg (hflat ∘ hmedian.mp)⟩⟩

/-- `_matches` divides by zero after a flat stretch, and else it answers. -/
lemma matchesSide_indicators :
    (x.FlatBefore s → x.matchesSide s (indicators s) side = .error .zeroDivision) ∧
      (¬ x.FlatBefore s → ∃ b, x.matchesSide s (indicators s) side = .ok b) := by
  have h12 := matches12_indicators h hlen side
  have h11 := matches11_indicators h hlen side
  unfold matchesSide FlatBefore
  dsimp only
  by_cases hsix : x.preset.number = 6
  · rw [if_pos hsix, hsix]
    exact ⟨fun hflat => by simp at hflat, fun _ => ⟨_, rfl⟩⟩
  · rw [if_neg hsix]
    by_cases htwelve : x.preset.number = 12
    · rw [if_pos htwelve, htwelve]
      simpa using h12
    · rw [if_neg htwelve]
      by_cases heleven : x.preset.number = 11
      · rw [if_pos heleven, heleven]
        simpa using h11
      · rw [if_neg heleven]
        refine ⟨fun hflat => ?_, fun _ => ?_⟩
        · exact hflat.elim (fun h => absurd h.1 htwelve) fun h => absurd h.1 heleven
        · split
          · exact ⟨_, rfl⟩
          · exact ⟨_, rfl⟩

end Matches

/-! ## `_entry_side` -/

/-- The decision divides by zero: the preset's flat stretch is there, the price has left it, and the H4
candles have a trend. -/
def LeavesFlat (x : XauM30) (s h4 : List ExactCandle) : Prop :=
  x.FlatBefore s ∧ ¬ Flat s ∧ macroSide h4 ≠ none

instance (s h4 : List ExactCandle) : Decidable (x.LeavesFlat s h4) :=
  inferInstanceAs (Decidable (_ ∧ _ ∧ _))

/-- What a decision of `_entry_side` may end with. -/
def Decides (x : XauM30) (s h4 : List ExactCandle) (r : Except StrategyError (Option Side)) : Prop :=
  (x.LeavesFlat s h4 → r = .error .zeroDivision) ∧ (¬ x.LeavesFlat s h4 → ∃ side, r = .ok side)

/-- The last ATR is positive unless all candles stand at one price. -/
lemma atr_nonpos_iff {s : List ExactCandle} (h : ∀ c ∈ s, c.WellFormed) (hlen : 80 ≤ s.length) :
    val (atrValues s) (s.length - 1) ≤ 0 ↔ Flat s := by
  have hnonneg : 0 ≤ val (atrValues s) (s.length - 1) := by
    rw [val, List.getD_eq_getElem _ _ (by rw [length_atrValues]; omega)]
    exact atrValues_nonneg h _ (List.getElem_mem _)
  have hall : s.take (s.length - 1 + 1) = s := List.take_of_length_le (by omega)
  rw [hnonneg.ge_iff_eq', val_atrValues_eq_zero_iff h (by omega), hall]

/-- The long-only preset divides by nothing. -/
lemma entrySide_longOnly (hlong : x.preset.longOnly = true) (s h4 : List ExactCandle) :
    (∃ side, x.entrySide s h4 = .ok side) ∧ ¬ x.FlatBefore s := by
  have hpresets : ∀ preset ∈ xauPresets, preset.longOnly = true →
      preset.number = 10 ∧ preset.macroGated = false := by decide
  obtain ⟨hten, hfree⟩ := hpresets x.preset x.known hlong
  refine ⟨?_, fun hflat => ?_⟩
  · unfold entrySide
    rw [rsi_eq, atr_eq]
    show ∃ side, (if val (atrValues s) (s.length - 1) ≤ 0 then Except.ok none else _) = .ok side
    have hfree' : ¬ x.preset.macroGated = true := by
      rw [hfree]
      exact Bool.false_ne_true
    by_cases hatr : val (atrValues s) (s.length - 1) ≤ 0
    · rw [if_pos hatr]
      exact ⟨none, rfl⟩
    · have hmatches : ∃ b, x.matchesSide s (indicators s) .long = .ok b := by
        unfold matchesSide
        rw [hten]
        exact ⟨_, rfl⟩
      obtain ⟨b, hb⟩ := hmatches
      rw [if_neg hatr, if_neg fun h => hfree' h.1, if_pos hlong, firstMatch, if_neg fun h => hfree' h.1]
      show ∃ side, (x.matchesSide s (indicators s) .long >>= fun b =>
        if b = true then pure (some Side.long) else _) = .ok side
      rw [hb]
      cases b with
      | true => exact ⟨some .long, rfl⟩
      | false => exact ⟨none, rfl⟩
  · unfold FlatBefore at hflat
    rw [hten] at hflat
    simp at hflat

lemma decides_entrySide {s : List ExactCandle} (h : ∀ c ∈ s, c.WellFormed) (hlen : 80 ≤ s.length)
    (h4 : List ExactCandle) : x.Decides s h4 (x.entrySide s h4) := by
  cases hlong : x.preset.longOnly with
  | true =>
    obtain ⟨hok, hnot⟩ := entrySide_longOnly hlong s h4
    exact ⟨fun hleaves => absurd hleaves.1 hnot, fun _ => hok⟩
  | false =>
    rw [entrySide_gated hlong]
    by_cases hflat : Flat s
    · rw [if_pos ((atr_nonpos_iff h hlen).mpr hflat)]
      exact ⟨fun hleaves => absurd hflat hleaves.2.1, fun _ => ⟨none, rfl⟩⟩
    · rw [if_neg fun hatr => hflat ((atr_nonpos_iff h hlen).mp hatr)]
      cases htrend : macroSide h4 with
      | none => exact ⟨fun hleaves => absurd htrend hleaves.2.2, fun _ => ⟨none, rfl⟩⟩
      | some side =>
        obtain ⟨herror, hok⟩ := matchesSide_indicators (x := x) h hlen side
        refine ⟨fun hleaves => ?_, fun hleaves => ?_⟩
        · dsimp only
          rw [herror hleaves.1]
          rfl
        · have htrend' : macroSide h4 ≠ none := by
            rw [htrend]
            exact Option.some_ne_none side
          obtain ⟨b, hb⟩ := hok fun hbefore => hleaves ⟨hbefore, hflat, htrend'⟩
          dsimp only
          rw [hb]
          exact ⟨_, rfl⟩

/-! ## `scan` -/

section Scan

variable {digest : Logical → String} {uuid5 : String → String} {zone : ℤ → ℕ × ℕ}
  {env : ℕ → DispatchEnv} {s : XauState}

/-- A method returns. -/
def Returns {α : Type} : Effect XauState α := fun r _ _ => ∃ a, r = .ok a

section Methods

variable (henv : Acknowledges env)
include henv

lemma returns_closePosition (id reason : String) (price : ℚ) (executable : Bool) (source : String) :
    Acts (x.closePosition digest env id reason price executable source) s Returns :=
  Acts.emit_bind_ok henv (fun _ => rfl) (Acts.modify ⟨(), rfl⟩)

lemma returns_manageOne (price e50 : ℚ) (positionId : String) (p : XauPosition) :
    Acts (x.manageOne digest env price e50 positionId p) s Returns := by
  unfold manageOne
  split
  · exact returns_closePosition henv _ _ _ _ _
  · split
    · exact Acts.emit_bind_ok henv (fun _ => rfl) (Acts.modify ⟨(), rfl⟩)
    · exact Acts.pure ⟨(), rfl⟩

lemma returns_manageEach (price e50 : ℚ) (rows : List (String × XauPosition)) :
    Acts (x.manageEach digest env price e50 rows) s Returns := by
  induction rows generalizing s with
  | nil => exact Acts.pure ⟨(), rfl⟩
  | cons row rest ih =>
    refine Acts.bind ((returns_manageOne henv price e50 row.1 row.2).mono fun r cs s' hr => ?_)
    obtain ⟨a, rfl⟩ := hr
    exact ⟨fun _ _ => ih, fun e he => nomatch he⟩

lemma returns_manageOnBar (m30 : List ExactCandle) :
    Acts (x.manageOnBar digest env m30) s Returns := by
  unfold manageOnBar
  split
  · exact Acts.get_bind (returns_manageEach henv _ _ _)
  · exact Acts.pure ⟨(), rfl⟩

/-- The stop distance and the price that `_open_if_allowed` divides by are positive. -/
lemma returns_openIfAllowed (side : Side) {m30 : List ExactCandle}
    (hprice : 0 < val (closes m30) (m30.length - 1)) (t : ℤ) :
    Acts (x.openIfAllowed digest uuid5 env side m30 t) s Returns := by
  refine Acts.get_bind ?_
  split
  · exact Acts.pure ⟨(), rfl⟩
  · refine Acts.ofExcept_bind (fun atrs _ => ?_) fun e he => ?_
    · dsimp only
      split
      · exact Acts.pure ⟨(), rfl⟩
      · split
        · exact Acts.pure ⟨(), rfl⟩
        · split
          · exact Acts.pure ⟨(), rfl⟩
          · rename_i hrisk
            have hqty : ∃ qty, x.positionQty (val (closes m30) (m30.length - 1))
                |val (closes m30) (m30.length - 1) -
                  x.stopPrice side (val (closes m30) (m30.length - 1)) m30
                    (val atrs (m30.length - 1))| = .ok qty := by
              unfold positionQty
              rw [pyDiv_of_ne (not_le.mp hrisk).ne', pyDiv_of_ne hprice.ne']
              exact ⟨_, rfl⟩
            obtain ⟨qty, hqty⟩ := hqty
            rw [hqty]
            refine Acts.ofExcept_bind (fun q _ => ?_) fun e he => nomatch he
            split
            · exact Acts.pure ⟨(), rfl⟩
            · exact Acts.emit_bind_ok henv (fun _ => rfl) (Acts.modify ⟨(), rfl⟩)
    · rw [atr_eq] at he
      cases he

end Methods

/-- A scan that is due. -/
lemma due_eq_some {m15 h4 : List ExactCandle} {t : ℤ} {last : ExactCandle}
    (hpending : s.pendingM30Open = some t) (hlast : (x.m30Series m15).getLast? = some last)
    (htime : last.time = t) (hm30 : 80 ≤ (x.m30Series m15).length)
    (hh4 : 55 ≤ (x.completedH4 h4 (t + m30Ms)).length) : x.due s m15 h4 = some t := by
  unfold due
  rw [hpending, hlast]
  dsimp only
  rw [htime, if_neg fun h => h.elim (not_lt.mpr hm30) fun hne => hne rfl, if_neg fun h => not_lt.mpr hh4 h.2]

/-- What a scan may end with: it loses its candle to a division by zero, or it returns. -/
def Completes (x : XauM30) (m30 h4 : List ExactCandle) : Effect XauState Unit := fun r _ _ =>
  (x.LeavesFlat m30 h4 → r = .error .zeroDivision) ∧ (¬ x.LeavesFlat m30 h4 → r = .ok ())

lemma completes_enter (henv : Acknowledges env) {m30 : List ExactCandle} (h : ∀ c ∈ m30, c.WellFormed)
    (hlen : 80 ≤ m30.length) (hprice : 0 < val (closes m30) (m30.length - 1)) (h4 : List ExactCandle) {t : ℤ}
    (htime : x.isTradeTime zone t = true) :
    Acts (x.enter digest uuid5 zone env m30 h4 t true) s (x.Completes m30 h4) := by
  obtain ⟨herror, hok⟩ := decides_entrySide (x := x) h hlen h4
  unfold enter
  rw [if_neg (by simp [htime])]
  by_cases hleaves : x.LeavesFlat m30 h4
  · rw [herror hleaves]
    refine Acts.ofExcept_bind (fun side hside => nomatch hside) fun e he => ?_
    cases he
    exact ⟨fun _ => rfl, fun hnot => absurd hleaves hnot⟩
  · obtain ⟨side, hside⟩ := hok hleaves
    rw [hside]
    refine Acts.ofExcept_bind (fun side' hside' => ?_) fun e he => nomatch he
    cases hside'
    have hreturns : ∀ r cs s', Returns (α := Unit) r cs s' → x.Completes m30 h4 r cs s' := by
      rintro r cs s' ⟨a, ha⟩
      exact ⟨fun h => absurd h hleaves, fun _ => ha⟩
    cases side with
    | none => exact Acts.pure ⟨fun h => absurd h hleaves, fun _ => rfl⟩
    | some side => exact (returns_openIfAllowed henv side hprice t).mono hreturns

lemma completes_scan (henv : Acknowledges env) {m15 h4 : List ExactCandle}
    (hm15 : ∀ c ∈ m15, c.WellFormed ∧ 0 < c.close) {t : ℤ} (hdue : x.due s m15 h4 = some t)
    (htime : x.isTradeTime zone t = true) :
    Acts (x.scan digest uuid5 zone env m15 h4 true) s
      (x.Completes (x.m30Series m15) (x.completedH4 h4 (t + m30Ms))) := by
  have hlen : 80 ≤ (x.m30Series m15).length := by
    unfold due at hdue
    split at hdue
    · split at hdue
      · cases hdue
      · rename_i hnot
        rw [not_or, not_lt] at hnot
        exact hnot.1
    · cases hdue
  have hwf := m30Series_wellFormed (x := x) fun c hc => (hm15 c hc).1
  have hprice : 0 < val (closes (x.m30Series m15)) ((x.m30Series m15).length - 1) :=
    val_closes_pos (fun c hc => (hm15 c hc).2) (by omega)
  refine Acts.get_bind ?_
  rw [hdue]
  refine Acts.modify_bind (Acts.bind ((returns_manageOnBar henv _).mono fun r cs s' hr => ?_))
  obtain ⟨a, rfl⟩ := hr
  refine ⟨fun _ _ => ?_, fun e he => nomatch he⟩
  exact (completes_enter henv hwf hlen hprice _ htime).mono fun r' cs' s'' h => h

/-! ## The processed candle -/

lemma keeps_closePosition (id reason : String) (price : ℚ) (executable : Bool) (source : String) :
    KeepsPart XauState.lastM30Open (x.closePosition digest env id reason price executable source) :=
  (KeepsPart.emit _).bind fun _ => KeepsPart.modifyState fun _ => rfl

lemma keeps_manageEach (price e50 : ℚ) (rows : List (String × XauPosition)) :
    KeepsPart XauState.lastM30Open (x.manageEach digest env price e50 rows) := by
  induction rows with
  | nil => exact KeepsPart.pure ()
  | cons row rest ih =>
    refine KeepsPart.bind ?_ fun _ => ih
    unfold manageOne
    split
    · exact keeps_closePosition _ _ _ _ _
    · split
      · exact (KeepsPart.emit _).bind fun _ => KeepsPart.modifyState fun _ => rfl
      · exact KeepsPart.pure ()

lemma keeps_manageOnBar (m30 : List ExactCandle) :
    KeepsPart XauState.lastM30Open (x.manageOnBar digest env m30) := by
  unfold manageOnBar
  split
  · exact KeepsPart.getState.bind fun s => keeps_manageEach _ _ _
  · exact KeepsPart.pure ()

lemma keeps_openIfAllowed (side : Side) (m30 : List ExactCandle) (t : ℤ) :
    KeepsPart XauState.lastM30Open (x.openIfAllowed digest uuid5 env side m30 t) := by
  refine KeepsPart.getState.bind fun s => ?_
  split
  · exact KeepsPart.pure ()
  · refine (KeepsPart.ofExcept _).bind fun atrs => ?_
    dsimp only
    split
    · exact KeepsPart.pure ()
    · split
      · exact KeepsPart.pure ()
      · split
        · exact KeepsPart.pure ()
        · refine (KeepsPart.ofExcept _).bind fun qty => ?_
          split
          · exact KeepsPart.pure ()
          · exact (KeepsPart.emit _).bind fun _ => KeepsPart.modifyState fun _ => rfl

lemma keeps_enter (m30 h4 : List ExactCandle) (t : ℤ) (canOpen : Bool) :
    KeepsPart XauState.lastM30Open (x.enter digest uuid5 zone env m30 h4 t canOpen) := by
  unfold enter
  split
  · exact KeepsPart.pure ()
  · refine (KeepsPart.ofExcept _).bind fun side => ?_
    cases side with
    | none => exact KeepsPart.pure ()
    | some side => exact keeps_openIfAllowed side m30 t

/-- However a scan ends, its candle is processed. -/
lemma lastM30Open_scan {m15 h4 : List ExactCandle} {t : ℤ} (hdue : x.due s m15 h4 = some t) (canOpen : Bool)
    (o : Outbox) :
    ((x.scan digest uuid5 zone env m15 h4 canOpen).run (s, o)).2.1.lastM30Open = some t := by
  unfold scan
  rw [Coro.run_bind_ok (run_getState _), hdue]
  dsimp only
  rw [Coro.run_bind_ok (run_modifyState _ _)]
  exact (keeps_manageOnBar _).bind (fun _ => keeps_enter _ _ _ _) _

/-- A scan that reaches the decision does not divide by zero if and only if the candles do not leave a flat
stretch that the preset takes a median of; then it completes. -/
theorem scan_completes_iff (x : XauM30) (digest : Logical → String) (uuid5 : String → String)
    (zone : ℤ → ℕ × ℕ) {env : ℕ → DispatchEnv} (henv : Acknowledges env) (s : XauState) (o : Outbox)
    (m15 h4 : List ExactCandle) (hm15 : ∀ c ∈ m15, c.WellFormed ∧ 0 < c.close) (t : ℤ)
    (hdue : x.due s m15 h4 = some t) (htime : x.isTradeTime zone t = true) :
    (((x.scan digest uuid5 zone env m15 h4 true).run (s, o)).1 ≠ .error .zeroDivision ↔
        ¬ x.LeavesFlat (x.m30Series m15) (x.completedH4 h4 (t + m30Ms))) ∧
      (¬ x.LeavesFlat (x.m30Series m15) (x.completedH4 h4 (t + m30Ms)) →
        ((x.scan digest uuid5 zone env m15 h4 true).run (s, o)).1 = .ok ()) := by
  have hcompletes : Acts (x.scan digest uuid5 zone env m15 h4 true) s
      (x.Completes (x.m30Series m15) (x.completedH4 h4 (t + m30Ms))) := completes_scan henv hm15 hdue htime
  obtain ⟨herror, hok⟩ := hcompletes.run o
  refine ⟨⟨fun hne hleaves => hne (herror hleaves), fun hnot => ?_⟩, hok⟩
  rw [hok hnot]
  exact nofun

end Scan

/-! ## A market that stands still -/

/-- Alpha 12. -/
def breakoutXau : XauM30 where
  alphaId := "xau"
  version := "12"
  preset := { number := 12, maxPositions := 1, rr := 13 / 5, pureAtrStop := true, sessionGated := true,
              macroGated := true, sessionEnd := 15 }
  known := by simp [xauPresets]

/-- A Wednesday at midnight UTC. -/
def wednesday : ℤ := 1710288000000

/-- 160 M15 candles; the first `still` of them stand at 2000, the others rise by one. -/
def stillThenRising (still : ℕ) : List ExactCandle :=
  (List.range 160).map fun (k : ℕ) =>
    ⟨2000 + (k - still : ℕ), 2000 + (k + 1 - still : ℕ), 2000 + (k - still : ℕ), 2000 + (k + 1 - still : ℕ),
      wednesday + m15Ms * k⟩

/-- 55 H4 candles that rise to 2000 and stay there. -/
def risenH4 : List ExactCandle :=
  (List.range 55).map fun (k : ℕ) =>
    ⟨1965 + (min k 35 : ℕ), 1965 + (min (k + 1) 35 : ℕ), 1965 + (min k 35 : ℕ), 1965 + (min (k + 1) 35 : ℕ),
      wednesday + h4Ms * (k - 45)⟩

lemma m30Series_stillThenRising (still : ℕ) :
    breakoutXau.m30Series (stillThenRising still) = joined ExactCandle.time (stillThenRising still) := by
  refine m30Series_of_times (fun c hc => ?_) ?_
  · obtain ⟨k, -, rfl⟩ := List.mem_map.mp hc
    have hms : 1000000000000 ≤ wednesday + m15Ms * (k : ℤ) := by
      unfold wednesday m15Ms
      omega
    exact barOpenMs_of_ms rfl hms _
  · refine List.pairwise_map.mpr (List.pairwise_lt_range.imp fun {a b} hab => ?_)
    unfold m15Ms
    dsimp only
    omega

/-- The H4 candles are all completed. -/
lemma completedH4_risenH4 :
    breakoutXau.completedH4 risenH4 (wednesday + m15Ms * 158 + m30Ms) = risenH4 := by
  have hopen : risenH4.map (fun c => { c with time := breakoutXau.barOpenMs c.time h4Ms }) = risenH4 := by
    refine (List.map_congr_left fun c hc => ?_).trans (List.map_id _)
    obtain ⟨k, -, rfl⟩ := List.mem_map.mp hc
    have hms : 1000000000000 ≤ wednesday + h4Ms * ((k : ℤ) - 45) := by
      unfold wednesday h4Ms
      omega
    dsimp only
    rw [barOpenMs_of_ms rfl hms]
    rfl
  unfold completedH4
  rw [hopen]
  exact List.filter_eq_self.mpr (by decide +kernel)

/-- The last M30 candle is due. -/
def lastDue : XauState := { pendingM30Open := some (wednesday + m15Ms * 158) }

lemma due_stillThenRising {still : ℕ} (last : ExactCandle)
    (hlength : (joined ExactCandle.time (stillThenRising still)).length = 80)
    (hlast : (joined ExactCandle.time (stillThenRising still)).getLast? = some last)
    (htime : last.time = wednesday + m15Ms * 158) :
    breakoutXau.due lastDue (stillThenRising still) risenH4 = some (wednesday + m15Ms * 158) := by
  rw [← m30Series_stillThenRising] at hlength hlast
  refine due_eq_some rfl hlast htime hlength.ge ?_
  rw [completedH4_risenH4, risenH4, List.length_map, List.length_range]

/-- Thursday noon in New York. -/
def thursdayNoon : ℤ → ℕ × ℕ := fun _ => (3, 12)

/-- The market moves for the last twenty hours. -/
theorem rising_scan_completes :
    ((breakoutXau.scan Dispatcher.typeDigest id thursdayNoon quietEnv (stillThenRising 80) risenH4 true).run
      (lastDue, { dispatcher := {} })).1 = .ok () := by
  refine (scan_completes_iff breakoutXau Dispatcher.typeDigest id thursdayNoon (fun _ _ => rfl) lastDue
    { dispatcher := {} } (stillThenRising 80) risenH4 ?_ (wednesday + m15Ms * 158) ?_ ?_).2 ?_
  · decide +kernel
  · exact due_stillThenRising ⟨2078, 2080, 2078, 2080, wednesday + m15Ms * 158⟩ (by decide +kernel)
      (by decide +kernel) rfl
  · decide
  · rw [m30Series_stillThenRising]
    have hlength : (joined ExactCandle.time (stillThenRising 80)).length = 80 := by decide +kernel
    have hmoves : ¬ Flat ((joined ExactCandle.time (stillThenRising 80)).take (80 - 20)) := by
      decide +kernel
    rintro ⟨⟨-, hflat⟩ | ⟨heleven, -⟩, -⟩
    · rw [hlength] at hflat
      exact hmoves hflat
    · cases heleven

/-- The market has stood still for 39 hours and three quarters and moves in the last quarter of an hour: the
scan divides by zero, and its candle is processed already. -/
theorem first_move_divides_by_zero :
    ((breakoutXau.scan Dispatcher.typeDigest id thursdayNoon quietEnv (stillThenRising 159) risenH4 true).run
      (lastDue, { dispatcher := {} })).1 = .error .zeroDivision ∧
    ((breakoutXau.scan Dispatcher.typeDigest id thursdayNoon quietEnv (stillThenRising 159) risenH4 true).run
      (lastDue, { dispatcher := {} })).2.1.lastM30Open = lastDue.pendingM30Open := by
  have hdue : breakoutXau.due lastDue (stillThenRising 159) risenH4 = some (wednesday + m15Ms * 158) := by
    exact due_stillThenRising ⟨2000, 2001, 2000, 2001, wednesday + m15Ms * 158⟩ (by decide +kernel)
      (by decide +kernel) rfl
  have hleaves : breakoutXau.LeavesFlat (breakoutXau.m30Series (stillThenRising 159))
      (breakoutXau.completedH4 risenH4 (wednesday + m15Ms * 158 + m30Ms)) := by
    have hlength : (joined ExactCandle.time (stillThenRising 159)).length = 80 := by decide +kernel
    have hflat : Flat ((joined ExactCandle.time (stillThenRising 159)).take (80 - 20)) := by
      decide +kernel
    rw [m30Series_stillThenRising, completedH4_risenH4]
    refine ⟨.inl ⟨rfl, ?_⟩, by decide +kernel, by decide +kernel⟩
    rw [hlength]
    exact hflat
  have hcompletes : Acts (breakoutXau.scan Dispatcher.typeDigest id thursdayNoon quietEnv
      (stillThenRising 159) risenH4 true) lastDue
      (breakoutXau.Completes (breakoutXau.m30Series (stillThenRising 159))
        (breakoutXau.completedH4 risenH4 (wednesday + m15Ms * 158 + m30Ms))) :=
    completes_scan (fun _ _ => rfl) (by decide +kernel) hdue (by decide)
  exact ⟨(hcompletes.run _).1 hleaves, lastM30Open_scan hdue true _⟩

end XauM30

end PaperTrade.Runner
