import PaperTrade.Runner.Dedup
import PaperTrade.Runner.SmoothCycle

/-!
# The 3h candles of `SmoothChanRunnerStrategy`

A bucket of three hours is due as soon as its third 1h candle has opened. The 3h candle built of it is
not closed then, and the scan drops it: what it decides on is the closed 3h candles, as long as no later
1h candle comes between the event and the scan.

The signals are priced at the open of the candle that is dropped. On 15m and 1h candles that is the open
of the newest candle; here it is the open of the first hour of the bucket, two hours before it.
-/

namespace PaperTrade.Runner

open PaperTrade.Runtime Dispatcher

/-! ## Bars built of the earlier candles -/

/-- In an ascending list the elements before the last one are those of another key. -/
lemma filter_lt_last {α : Type} (key : α → ℤ) {l : List α}
    (hl : l.Pairwise fun a b => key a < key b) {last : α} (hlast : l.getLast? = some last) :
    l.filter (fun a => key a < key last) = l.dropLast := by
  obtain ⟨before, rfl⟩ := List.getLast?_eq_some_iff.mp hlast
  have hbefore : ∀ a ∈ before, key a < key last := fun a ha =>
    (List.pairwise_append.mp hl).2.2 a ha last (List.mem_singleton_self _)
  rw [List.dropLast_concat, List.filter_append,
    List.filter_eq_self.mpr fun a ha => decide_eq_true (hbefore a ha)]
  simp

/-- The dictionary of the candles before `T` has the entries of the one of all candles before `T`. -/
lemma get?_foldl_before (T : ℤ) (candles : List Candle) {all before : Dict ℤ Candle}
    (h : ∀ k, before.get? k = if k < T then all.get? k else none) (k : ℤ) :
    Dict.get? ((candles.filter (·.time < T)).foldl (fun byOpen c => byOpen.set c.time c) before) k =
      if k < T then Dict.get? (candles.foldl (fun byOpen c => byOpen.set c.time c) all) k
      else none := by
  induction candles generalizing all before with
  | nil => exact h k
  | cons c candles ih =>
    by_cases hc : c.time < T
    · rw [List.filter_cons_of_pos (by simpa using hc)]
      refine ih fun k => ?_
      rw [Dict.get?_set, Dict.get?_set, h k]
      by_cases hk : k = c.time
      · rw [if_pos hk, if_pos hk, if_pos (hk ▸ hc)]
      · rw [if_neg hk, if_neg hk]
    · rw [List.filter_cons_of_neg (by simpa using hc)]
      refine ih fun k => ?_
      rw [Dict.get?_set, h k]
      by_cases hk : k = c.time
      · have hlate : ¬ k < T := hk ▸ hc
        rw [if_neg hlate, if_neg hlate]
      · rw [if_neg hk]

lemma get?_candlesByOpen_before (T : ℤ) (candles : List Candle) (k : ℤ) :
    (candlesByOpen (candles.filter (·.time < T))).get? k =
      if k < T then (candlesByOpen candles).get? k else none :=
  get?_foldl_before T candles (fun _ => (ite_self _).symm) k

lemma mem_keys_iff {d : Dict ℤ Candle} {k : ℤ} : k ∈ d.keys ↔ (d.get? k).isSome = true := by
  rw [Option.isSome_iff_exists, Dict.keys, List.mem_map]
  constructor
  · rintro ⟨⟨k, c⟩, hmem, rfl⟩
    exact ⟨c, (Dict.get?_some_iff d _ c).mpr hmem⟩
  · rintro ⟨c, hc⟩
    exact ⟨(k, c), (Dict.get?_some_iff d k c).mp hc, rfl⟩

/-- The keys in order. -/
def sortedKeys (d : Dict ℤ Candle) : List ℤ := d.keys.insertionSort (· ≤ ·)

lemma mem_sortedKeys {d : Dict ℤ Candle} {k : ℤ} : k ∈ sortedKeys d ↔ (d.get? k).isSome = true := by
  rw [sortedKeys, List.mem_insertionSort, mem_keys_iff]

lemma sortedKeys_ascending (d : Dict ℤ Candle) : (sortedKeys d).Pairwise (· < ·) := by
  have hle : (sortedKeys d).Pairwise (· ≤ ·) := List.pairwise_insertionSort _ _
  have hnodup : (sortedKeys d).Nodup := (List.perm_insertionSort _ _).nodup_iff.mpr d.nodup_keys
  exact hle.imp₂ (fun _ _ h hne => lt_of_le_of_ne h hne) hnodup

/-- Two ascending lists with the same members are the same list. -/
lemma eq_of_ascending {l l' : List ℤ} (h : l.Pairwise (· < ·)) (h' : l'.Pairwise (· < ·))
    (hmem : ∀ k, k ∈ l ↔ k ∈ l') : l = l' := by
  have hperm : l.Perm l' :=
    (List.perm_ext_iff_of_nodup (h.imp ne_of_lt) (h'.imp ne_of_lt)).mpr hmem
  exact hperm.eq_of_pairwise (fun a b _ _ hab hba => absurd hab hba.asymm) h h'

/-- The keys before `T`. -/
lemma sortedKeys_before (T : ℤ) (candles : List Candle) :
    sortedKeys (candlesByOpen (candles.filter (·.time < T))) =
      (sortedKeys (candlesByOpen candles)).filter (· < T) := by
  refine eq_of_ascending (sortedKeys_ascending _) ((sortedKeys_ascending _).filter _) fun k => ?_
  rw [mem_sortedKeys, List.mem_filter, mem_sortedKeys, get?_candlesByOpen_before, decide_eq_true_iff]
  by_cases hk : k < T
  · rw [if_pos hk]
    exact (and_iff_left hk).symm
  · rw [if_neg hk]
    exact ⟨fun h => absurd h Bool.false_ne_true, fun h => absurd h.2 hk⟩

namespace SmoothChan

lemma time_h3Bar {byOpen : Dict ℤ Candle} {start : ℤ} {bar : Candle}
    (h : h3Bar byOpen start = some bar) : bar.time = start := by
  unfold h3Bar at h
  split at h
  · cases h
  · split at h
    · cases h
      rfl
    · cases h

/-- All hours of a bar are there. -/
lemma hours_of_h3Bar {byOpen : Dict ℤ Candle} {start : ℤ} {bar : Candle}
    (h : h3Bar byOpen start = some bar) : ∃ first, byOpen.get? start = some first ∧
      bar.opening = first.opening ∧ (byOpen.get? (start + 2 * h1Ms)).isSome = true := by
  unfold h3Bar at h
  split at h
  · cases h
  · split at h
    · rename_i first second third hfirst hsecond hthird
      cases h
      exact ⟨first, hfirst, rfl, Option.isSome_iff_exists.mpr ⟨third, hthird⟩⟩
    · cases h

/-- A bar is built of the hours before `T` if its third hour is one of them. -/
lemma h3Bar_before (T : ℤ) (hours : List Candle) (start : ℤ) :
    h3Bar (candlesByOpen (hours.filter (·.time < T))) start =
      (h3Bar (candlesByOpen hours) start).filter fun bar => bar.time + 2 * h1Ms < T := by
  have hh1 : 0 < h1Ms := by decide
  by_cases hin : start + 2 * h1Ms < T
  · have hfirst : start < T := by omega
    have hsecond : start + h1Ms < T := by omega
    have hsame : h3Bar (candlesByOpen (hours.filter (·.time < T))) start =
        h3Bar (candlesByOpen hours) start := by
      unfold h3Bar
      rw [get?_candlesByOpen_before, get?_candlesByOpen_before, get?_candlesByOpen_before,
        if_pos hfirst, if_pos hsecond, if_pos hin]
    rw [hsame]
    cases hbar : h3Bar (candlesByOpen hours) start with
    | none => rfl
    | some bar =>
      rw [Option.filter_some, time_h3Bar hbar, if_pos (decide_eq_true hin)]
  · have hnone : h3Bar (candlesByOpen (hours.filter (·.time < T))) start = none := by
      cases hbar : h3Bar (candlesByOpen (hours.filter (·.time < T))) start with
      | none => rfl
      | some bar =>
        obtain ⟨first, -, -, hthird⟩ := hours_of_h3Bar hbar
        rw [get?_candlesByOpen_before, if_neg hin] at hthird
        cases hthird
    rw [hnone]
    cases hbar : h3Bar (candlesByOpen hours) start with
    | none => rfl
    | some bar =>
      rw [Option.filter_some, time_h3Bar hbar, if_neg (by simpa using hin)]

/-- The bars of the hours before `T` are those of all hours whose third hour is before `T`. -/
lemma combinedBars_before (T : ℤ) (hours : List Candle) :
    combinedBars h3Bar (hours.filter (·.time < T)) =
      (combinedBars h3Bar hours).filter fun bar => bar.time + 2 * h1Ms < T := by
  have hh1 : 0 < h1Ms := by decide
  show (sortedKeys _).filterMap _ = ((sortedKeys _).filterMap _).filter _
  rw [sortedKeys_before, List.filter_filterMap, List.filterMap_filter]
  refine List.filterMap_congr fun start _ => ?_
  rw [← h3Bar_before]
  by_cases hstart : start < T
  · rw [if_pos (decide_eq_true hstart)]
  · rw [if_neg (by simpa using hstart), h3Bar_before]
    cases hbar : h3Bar (candlesByOpen hours) start with
    | none => rfl
    | some bar =>
      have hlate : ¬ bar.time + 2 * h1Ms < T := by
        rw [time_h3Bar hbar]
        omega
      rw [Option.filter_some, if_neg (by simpa using hlate)]

lemma combinedBars_ascending (hours : List Candle) :
    (combinedBars h3Bar hours).Pairwise fun a b => a.time < b.time := by
  refine List.pairwise_filterMap.mpr ((sortedKeys_ascending _).imp fun hlt a ha b hb => ?_)
  rw [time_h3Bar ha, time_h3Bar hb]
  exact hlt

variable (x : SmoothChan)

/-- The 1h candles of a snapshot, by their opens. -/
def hours (candles : List Candle) : List Candle :=
  candles.map fun c => { c with time := x.barOpenMs c.time }

/-- The newest 1h candle, and its open. -/
def newestHour (candles : List Candle) : Option (ℤ × Candle) :=
  let byOpen := candlesByOpen (x.hours candles)
  byOpen.keys.max?.bind fun t => (byOpen.get? t).map fun c => (t, c)

/-- The 1h candles before the newest one: these are closed. -/
def closedHours (candles : List Candle) : List Candle :=
  (x.hours candles).filter fun c => (x.newestHour candles).any fun newest => c.time < newest.1

/-- The 3h candles of which all three 1h candles are there and closed. -/
def closedSeries (candles : List Candle) : List Candle := combinedBars h3Bar (x.closedHours candles)

variable {x}

/-- The scan decides on the closed 3h candles if and only if the newest 1h candle is the third of the last
bucket. -/
lemma dropLast_effSeries_iff (htf : x.tf = .h3) {candles : List Candle} {bar : Candle}
    (hlast : (x.effSeries candles).getLast? = some bar) {newest : ℤ × Candle}
    (hnewest : x.newestHour candles = some newest) :
    (x.effSeries candles).dropLast = x.closedSeries candles ↔ newest.1 = bar.time + 2 * h1Ms := by
  have heff : x.effSeries candles = combinedBars h3Bar (x.hours candles) := if_pos htf
  have hclosed : x.closedSeries candles =
      (x.effSeries candles).filter fun b => b.time + 2 * h1Ms < newest.1 := by
    rw [closedSeries, closedHours, hnewest, heff, ← combinedBars_before]
    rfl
  have hascending : (x.effSeries candles).Pairwise fun a b => a.time < b.time :=
    heff ▸ combinedBars_ascending _
  -- the third hour of the last bucket is not after the newest candle
  have hle : bar.time + 2 * h1Ms ≤ newest.1 := by
    have hmem : bar ∈ combinedBars h3Bar (x.hours candles) := heff ▸ List.mem_of_getLast? hlast
    obtain ⟨start, -, hbar⟩ := List.mem_filterMap.mp hmem
    obtain ⟨first, -, -, hthird⟩ := hours_of_h3Bar hbar
    obtain ⟨t, hmax, ht⟩ := Option.bind_eq_some_iff.mp hnewest
    obtain ⟨c, -, rfl⟩ := Option.map_eq_some_iff.mp ht
    rw [time_h3Bar hbar]
    exact (List.max?_eq_some_iff.mp hmax).2 _ (mem_keys_iff.mpr hthird)
  rw [hclosed, ← filter_lt_last Candle.time hascending hlast]
  constructor
  · intro hsame
    have hdropped : bar ∉ (x.effSeries candles).filter fun b => b.time < bar.time := by
      rw [List.mem_filter, decide_eq_true_iff]
      exact fun h => lt_irrefl _ h.2
    rw [hsame, List.mem_filter, decide_eq_true_iff] at hdropped
    have hlate : ¬ bar.time + 2 * h1Ms < newest.1 := fun h =>
      hdropped ⟨List.mem_of_getLast? hlast, h⟩
    omega
  · intro hnewest
    refine List.filter_congr fun b _ => ?_
    rw [hnewest]
    exact decide_eq_decide.mpr (by omega)

/-! ## The price of a signal -/

/-- The reference price of a signal: the entry of an OPEN, the exit price of a CLOSE. -/
def price? (c : Call) : Option Json := c.fields.get? (if c.type = "OPEN" then "entry" else "exit_price")

/-- Every signal is priced at `price`. -/
def SentAt {α : Type} (price : PyFloat) : Effect SmoothState α :=
  fun _ cs _ => ∀ c ∈ cs, price? c = some (.float price)

section Methods

variable {digest : Logical → String} {uuid5 : String → String} {env : ℕ → DispatchEnv}
  {s : SmoothState} {price : PyFloat}

lemma sentAt_nil {α : Type} {r : Except StrategyError α} : SentAt price r [] s :=
  fun _ hc => absurd hc List.not_mem_nil

/-- Two methods that send at one price. -/
lemma sentAt_bind {α β : Type} {p : Method SmoothState α} {k : α → Method SmoothState β}
    (hp : Acts p s (SentAt price)) (hk : ∀ a s', Acts (k a) s' (SentAt price)) :
    Acts (p >>= k) s (SentAt price) := by
  refine Acts.bind (hp.mono fun r cs s' hcs => ⟨fun a _ => (hk a s').mono ?_, fun _ _ => hcs⟩)
  intro r' cs' s'' hcs' c hc
  exact (List.mem_append.mp hc).elim (hcs c) (hcs' c)

lemma sentAt_emit {c : Call} (h : price? c = some (.float price)) :
    Acts (emitSignal digest env c) s (SentAt price) := by
  have hone : ∀ c' ∈ [c], price? c' = some (.float price) := by
    intro c' hc'
    rw [List.mem_singleton.mp hc']
    exact h
  exact Acts.emit hone hone

lemma sentAt_closePosition (positionId reason : String) (t : ℤ) :
    Acts (x.closePosition digest env positionId reason price t) s (SentAt price) :=
  sentAt_bind (sentAt_emit rfl) fun _ _ => Acts.modify sentAt_nil

lemma sentAt_openIfAllowed (side : String) (t : ℤ) (entryAtr : PyFloat) :
    Acts (x.openIfAllowed digest uuid5 env side price t entryAtr) s (SentAt price) := by
  refine Acts.get_bind ?_
  split
  · exact Acts.pure sentAt_nil
  · split
    · exact Acts.pure sentAt_nil
    · refine Acts.ofExcept_bind (fun qty _ => ?_) fun _ _ => sentAt_nil
      split
      · exact Acts.pure sentAt_nil
      · exact sentAt_bind (sentAt_emit rfl) fun _ _ => Acts.modify sentAt_nil

lemma sentAt_manage (c : Candle) : Acts (x.manage digest env c price) s (SentAt price) := by
  refine Acts.get_bind ?_
  split
  · exact Acts.pure sentAt_nil
  · rename_i position _
    have hexit (reason : String) (s' : SmoothState) :
        Acts (do
          x.closePosition digest env position.positionId reason price c.time
          pure true : Method SmoothState Bool) s' (SentAt price) :=
      sentAt_bind (sentAt_closePosition _ _ _) fun _ _ => Acts.pure sentAt_nil
    refine sentAt_bind ?_ fun _ _ => Acts.pure sentAt_nil
    unfold manageExits
    split
    · exact hexit _ _
    · split
      · exact hexit _ _
      · refine Acts.modify_bind ?_
        split
        · exact hexit _ _
        · exact Acts.modify_bind (Acts.pure sentAt_nil)

lemma sentAt_flip (newest : Candle) (direction : ℤ) (atr : PyFloat) :
    Acts (x.flip digest uuid5 env newest direction atr) s (SentAt newest.opening) := by
  refine Acts.get_bind ?_
  split
  · exact Acts.pure sentAt_nil
  · refine Acts.modify_bind (sentAt_bind ?_ fun _ _ => sentAt_openIfAllowed _ _ _)
    refine Acts.get_bind ?_
    split
    · exact Acts.pure sentAt_nil
    · split
      · exact sentAt_closePosition _ _ _
      · exact Acts.pure sentAt_nil

/-- Exits that are not due send nothing. -/
lemma ends_manage_quiet {c : Candle} (h : ∀ p ∈ existingPosition s, x.exitReason p c = none) :
    ∃ s', Ends (x.manage digest env c price) s () [] s' ∧ s'.lastDir = s.lastDir := by
  cases hpos : existingPosition s with
  | none =>
    refine ⟨s, Ends.get_bind ?_, rfl⟩
    rw [hpos]
    exact Ends.pure
  | some p =>
    let kept : SmoothState := update p.positionId (withWatermark c) (positionId_withWatermark c)
      (update p.positionId (x.withBreakeven c) (fun _ => rfl) s)
    have hends : Ends (x.manage digest env c price) s () [] kept := by
      refine Ends.get_bind ?_
      rw [hpos]
      exact (ends_manageExits_none (h p hpos) price).bind Ends.pure
    exact ⟨kept, hends, rfl⟩

variable (x) in
/-- No exit of the position is due, and the direction does not turn. -/
def Quiet (s : SmoothState) (last : Candle) (closed : List Candle) : Prop :=
  (∀ p ∈ existingPosition s, x.exitReason p last = none) ∧ x.direction closed = s.lastDir

instance (last : Candle) (closed : List Candle) : Decidable (x.Quiet s last closed) :=
  inferInstanceAs (Decidable ((∀ p ∈ existingPosition s, x.exitReason p last = none) ∧ _))

variable (x) in
/-- A signal of a scan is one of a new bucket with something due, and is priced at its open. -/
def SentFor (s : SmoothState) (candles : List Candle) (c : Call) : Prop :=
  ∃ b ∈ x.worked candles s, ¬ x.Quiet s b.2 (x.effSeries candles).dropLast ∧
    price? c = some (.float b.1.opening)

/-- Exits and flip on a new bucket. -/
lemma sentFor_work {candles : List Candle} {newest last : Candle}
    (hworked : x.worked candles s = some (newest, last)) :
    Acts (do
      x.manage digest env last newest.opening
      x.flip digest uuid5 env newest (x.direction (x.effSeries candles).dropLast)
        (x.atr (x.effSeries candles).dropLast)) { s with lastEffOpen := some newest.time }
      fun _ cs _ => ∀ c ∈ cs, x.SentFor s candles c := by
  by_cases hquiet : x.Quiet s last (x.effSeries candles).dropLast
  · have hmanage : ∃ s', Ends (x.manage digest env last newest.opening)
        { s with lastEffOpen := some newest.time } () [] s' ∧ s'.lastDir = s.lastDir :=
      ends_manage_quiet hquiet.1
    obtain ⟨s', hends, hdir⟩ := hmanage
    refine hends.then_acts (Acts.get_bind ?_)
    rw [if_pos (hquiet.2.trans hdir.symm)]
    exact Acts.pure fun c hc => absurd hc List.not_mem_nil
  · refine Acts.mono (sentAt_bind (sentAt_manage last) fun _ _ => sentAt_flip newest _ _) ?_
    exact fun _ _ _ hcs c hc => ⟨(newest, last), hworked, hquiet, hcs c hc⟩

lemma sentFor_scanEff {candles : List Candle} {t : ℤ} (ht : s.pendingEffOpen = some t) :
    Acts (x.scanEff digest uuid5 env candles t) s fun _ cs _ => ∀ c ∈ cs, x.SentFor s candles c := by
  have hnothing : ∀ c ∈ ([] : List Call), x.SentFor s candles c :=
    fun c hc => absurd hc List.not_mem_nil
  unfold scanEff
  dsimp only
  split
  · rename_i newest last hnewest hlastClosed
    split
    · exact Acts.pure hnothing
    · rename_i hnew
      refine Acts.get_bind ?_
      cases hlast : s.lastEffOpen with
      | none =>
        rw [if_pos rfl]
        exact Acts.modify hnothing
      | some l =>
        rw [if_neg (Option.some_ne_none l)]
        have hworked : x.worked candles s = some (newest, last) := by
          unfold worked
          dsimp only
          rw [hlast, hnewest, hlastClosed, ht]
          dsimp only
          rw [if_neg]
          rw [Ne, Option.some_inj]
          exact hnew
        exact Acts.modify_bind (sentFor_work hworked)
  · split
    · exact Acts.pure hnothing
    · exact Acts.ofExcept (r := .error .noCandle) hnothing
  · exact Acts.pure hnothing

lemma sentFor_scan (candles : List Candle) :
    Acts (x.scan digest uuid5 env candles) s fun _ cs _ => ∀ c ∈ cs, x.SentFor s candles c := by
  refine Acts.get_bind ?_
  cases ht : s.pendingEffOpen with
  | none => exact Acts.pure fun c hc => absurd hc List.not_mem_nil
  | some t =>
    refine Acts.bind ((sentFor_scanEff ht).mono fun r cs s' hcs =>
      ⟨fun _ _ => Acts.modify ?_, fun _ _ => hcs⟩)
    rwa [List.append_nil]

end Methods

/-! ## Runs -/

variable (x)

/-- The newest 1h candle is the third one of a bucket, and it opens where the bucket does. -/
def OpensLevel (candles : List Candle) (bar : Candle) : Prop :=
  ∃ newest ∈ x.newestHour candles, newest.1 = bar.time + 2 * h1Ms ∧ newest.2.opening = bar.opening

instance (candles : List Candle) (bar : Candle) : Decidable (x.OpensLevel candles bar) :=
  inferInstanceAs (Decidable (∃ newest ∈ x.newestHour candles, _ ∧ _))

/-- In a scan on a new bucket with something due, the newest 1h candle is the third one of the bucket and
opens where the bucket does. -/
def Level (s : SmoothState) : Event → Prop
  | .scan candles => ∀ b ∈ x.worked candles s,
      x.Quiet s b.2 (x.effSeries candles).dropLast ∨ x.OpensLevel candles b.1
  | _ => True

instance (s : SmoothState) (e : Event) : Decidable (x.Level s e) :=
  match e with
  | .scan candles => inferInstanceAs (Decidable (∀ b ∈ x.worked candles s, _ ∨ _))
  | .kline _ _ => .isTrue trivial
  | .restart _ _ => .isTrue trivial

section Runs

variable (digest : Logical → String) (uuid5 : String → String) (env : ℕ → DispatchEnv)

/-- Every signal of a scan is priced at the open of the newest 1h candle and comes of the closed 3h
candles. -/
def PricedAtNewest (w : SmoothState × Outbox) : Event → Prop
  | .scan candles => ∀ c ∈ sentSince w (x.step digest uuid5 env w (.scan candles)),
      (x.effSeries candles).dropLast = x.closedSeries candles ∧
        ∃ newest ∈ x.newestHour candles, price? c = some (.float newest.2.opening)
  | _ => True

variable {x digest uuid5 env}

lemma getLast?_of_worked {s : SmoothState} {candles : List Candle} {b : Candle × Candle}
    (hb : b ∈ x.worked candles s) : (x.effSeries candles).getLast? = some b.1 := by
  unfold worked at hb
  dsimp only at hb
  split at hb
  · rename_i newest last _ hnewest _
    split at hb
    · cases hb
    · cases hb
      exact hnewest
  · cases hb

/-- A scan that sends something is priced so if and only if its bucket opens level with the newest
candle. -/
theorem pricedAtNewest_iff (htf : x.tf = .h3) (w : SmoothState × Outbox) (candles : List Candle) :
    x.PricedAtNewest digest uuid5 env w (.scan candles) ↔
      sentSince w (x.step digest uuid5 env w (.scan candles)) = [] ∨
        ∃ b ∈ x.worked candles w.1, x.OpensLevel candles b.1 := by
  obtain ⟨s, o⟩ := w
  have hsent : ∀ c ∈ sentSince (s, o) (x.step digest uuid5 env (s, o) (.scan candles)),
      x.SentFor s candles c := (sentFor_scan candles).run o
  constructor
  · intro hpriced
    rcases List.eq_nil_or_concat (sentSince (s, o) (x.step digest uuid5 env (s, o) (.scan candles))) with
      hnone | ⟨_, c, hc⟩
    · exact .inl hnone
    · have hmem : c ∈ sentSince (s, o) (x.step digest uuid5 env (s, o) (.scan candles)) := by
        rw [hc, List.concat_eq_append]
        exact List.mem_append_right _ (List.mem_singleton_self c)
      obtain ⟨b, hb, -, hprice⟩ := hsent c hmem
      obtain ⟨hclosed, newest, hnewest, hprice'⟩ := hpriced c hmem
      have hopen : b.1.opening = newest.2.opening := by
        rw [hprice, Option.some_inj, Json.float.injEq] at hprice'
        exact hprice'
      exact .inr ⟨b, hb, newest, hnewest,
        (dropLast_effSeries_iff htf (getLast?_of_worked hb) hnewest).mp hclosed, hopen.symm⟩
  · rintro (hnone | ⟨b, hb, newest, hnewest, hthird, hopen⟩) c hc
    · rw [hnone] at hc
      exact absurd hc List.not_mem_nil
    · obtain ⟨b', hb', -, hprice⟩ := hsent c hc
      obtain rfl : b' = b := Option.mem_unique hb' hb
      refine ⟨(dropLast_effSeries_iff htf (getLast?_of_worked hb) hnewest).mpr hthird, newest, hnewest,
        ?_⟩
      rw [hprice, hopen]

/-- A step whose bucket opens level. -/
lemma pricedAtNewest_step (htf : x.tf = .h3) (w : SmoothState × Outbox) (e : Event)
    (h : x.Level w.1 e) : x.PricedAtNewest digest uuid5 env w e := by
  cases e with
  | kline ready latest => trivial
  | restart loaded ok => trivial
  | scan candles =>
    rw [pricedAtNewest_iff htf]
    by_contra hnot
    rw [not_or, not_exists] at hnot
    obtain ⟨hsome, hlevel⟩ := hnot
    obtain ⟨c, hc⟩ := List.exists_mem_of_ne_nil _ hsome
    obtain ⟨b, hb, hdue, -⟩ := (sentFor_scan candles).run w.2 c hc
    exact hlevel b ⟨hb, (h b hb).resolve_left hdue⟩

variable (x digest uuid5 env)

/-- In every run whose buckets open level with the newest 1h candle wherever something is due, every
signal is priced at the open of the newest 1h candle and comes of the closed 3h candles. -/
theorem along_pricedAtNewest (htf : x.tf = .h3) (w : SmoothState × Outbox) (events : List Event)
    (h : Along (x.step digest uuid5 env) (fun w e => x.Level w.1 e) w events) :
    Along (x.step digest uuid5 env) (x.PricedAtNewest digest uuid5 env) w events :=
  Along.imp (fun w e => pricedAtNewest_step htf w e) h

end Runs

/-! ## A rise in the fourth bucket -/

/-- Bands of 3h candles that turn fast. -/
def fast3h : SmoothChan where
  alphaId := "smooth"
  version := "v1"
  tf := .h3
  factor := .fin (1 / 2)
  atrPeriod := 2
  minBars := 1
  atrPeriod_pos := Nat.two_pos

/-- The `n`-th hour of a day, from one price to another. -/
def hourFrom (n : ℤ) (p q : ℚ) : Candle :=
  ⟨.fin p, .fin (max p q), .fin (min p q), .fin q, 1710288000000 + n * h1Ms⟩

/-- Two buckets fall and two rise; the last hour has just opened at `newest`. -/
def fallAndRise (newest : ℚ) : List Candle :=
  [hourFrom 0 100 101, hourFrom 1 101 100, hourFrom 2 100 99, hourFrom 3 99 98, hourFrom 4 98 97,
    hourFrom 5 97 96, hourFrom 6 96 105, hourFrom 7 105 112, hourFrom 8 112 120, hourFrom 9 120 121,
    hourFrom 10 121 122, hourFrom 11 newest newest]

/-- The third bucket is scanned, and the last hour opens. -/
def untilNewest (newest : ℚ) : List Event :=
  [.kline true (some (hourFrom 8 0 0).time), .scan ((fallAndRise newest).take 9),
    .kline true (some (hourFrom 11 0 0).time)]

/-- The last hour opens at 120, as its bucket did. -/
theorem level_pricedAtNewest :
    Along (fast3h.step typeDigest id quietEnv) (fast3h.PricedAtNewest typeDigest id quietEnv)
      ({}, { dispatcher := {} }) (untilNewest 120 ++ [.scan (fallAndRise 120)]) :=
  along_pricedAtNewest fast3h typeDigest id quietEnv rfl _ _ (by decide +kernel)

/-- The world when the last hour has opened at 125. -/
def atNewest : SmoothState × Outbox :=
  fast3h.run typeDigest id quietEnv ({}, { dispatcher := {} }) (untilNewest 125)

/-- The last hour opens at 125, and the scan opens a position at 120, the open of two hours before. -/
theorem priced_two_hours_late :
    ¬ Along (fast3h.step typeDigest id quietEnv) (fast3h.PricedAtNewest typeDigest id quietEnv)
      ({}, { dispatcher := {} }) (untilNewest 125 ++ [.scan (fallAndRise 125)]) ∧
    (fast3h.newestHour (fallAndRise 125)).map (fun newest => newest.2.opening) = some (.fin 125) ∧
    (fast3h.step typeDigest id quietEnv atNewest (.scan (fallAndRise 125))).1.positions.rows.map
      SmoothPosition.entry = [.fin 120] := by
  refine ⟨fun h => ?_, by decide +kernel, by decide +kernel⟩
  have hlast : fast3h.PricedAtNewest typeDigest id quietEnv atNewest (.scan (fallAndRise 125)) :=
    Along.at h
  rcases (pricedAtNewest_iff rfl _ _).mp hlast with hnone | ⟨b, hb, hlevel⟩
  · have hsent : (sentSince atNewest (fast3h.step typeDigest id quietEnv atNewest
        (.scan (fallAndRise 125)))).length = 1 := by decide +kernel
    rw [hnone] at hsent
    cases hsent
  · have hnot : ∀ b ∈ fast3h.worked (fallAndRise 125) atNewest.1,
        ¬ fast3h.OpensLevel (fallAndRise 125) b.1 := by decide +kernel
    exact hnot b hb hlevel

end SmoothChan

end PaperTrade.Runner
