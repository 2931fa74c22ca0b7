import PaperTrade.Runner.RollupComplete
import PaperTrade.Runtime.Frame
import PaperTrade.Runtime.Literal

/-!
# The shared panel

`SharedPanelFeatureCache` builds the panel of a universe in one of two ways. `_build_dense_panel` puts
the columns of the cached bars side by side when all symbols have the same open times; otherwise
`build_panel` aligns a snapshot that is a `dict` by symbol. A universe is read from a whitelist that may
name a symbol twice, and then only the dense panel has it twice: on the same cache the two panels are
the same exactly when no symbol with a bar is repeated (`buildDensePanel_eq_iff`).
-/

namespace PaperTrade.Runner

open PaperTrade.Runtime

/-- `_load_universe` on the symbols of the whitelist, `None` without one, and of the blacklist; `none`
is a `ValueError`. -/
def loadUniverse (whitelist : Option (List String)) (blacklist : List String) : Option (List String) :=
  match whitelist with
  | none => none
  | some symbols =>
    let clean := (symbols.map fun symbol => String.ofList ((strip symbol.toList).map upperChar)).filter
      fun symbol => symbol ≠ "" ∧ symbol ∉ blacklist
    if clean = [] then none else some clean

/-- A panel: a frame of open times and symbols for each field. -/
structure Panel where
  close : Frame ℤ PyFloat
  high : Frame ℤ PyFloat
  low : Frame ℤ PyFloat
  volume : Frame ℤ PyFloat
  quoteVolume : Frame ℤ PyFloat
  vwap : Frame ℤ PyFloat
deriving DecidableEq

/-- The panel of the four fields that are stored. -/
def Panel.ofFields (close high low volume : Frame ℤ PyFloat) : Panel where
  close := close
  high := high
  low := low
  volume := volume
  quoteVolume := close.combine (· * ·) volume
  vwap := ((high.combine (· + ·) low).combine (· + ·) close).map (· / .fin 3)

/-- A symbol and its bars. -/
abbrev SymbolBars := String × List Bar

namespace SharedPanelFeatureCache

variable (cache : SharedCandleCache) (tf : String) (bars : ℤ)

/-- `tail_arrays`. -/
def tailArrays (symbol : String) : Option (List Bar) :=
  match cache.data.get? (symbol, tf) with
  | none => none
  | some sd => if sd.size = 0 then none else some (sd.tail bars)

/-- `_build_dense_panel`: the loop over the symbols; `none` is its early return. -/
def denseRows : List String → Option (List ℤ) → List SymbolBars →
    Option (Option (List ℤ) × List SymbolBars)
  | [], referenceTimes, rows => some (referenceTimes, rows)
  | symbol :: symbols, referenceTimes, rows =>
    match tailArrays cache tf bars symbol with
    | none => denseRows symbols referenceTimes rows
    | some view =>
      if view = [] then denseRows symbols referenceTimes rows
      else
        match referenceTimes with
        | none => denseRows symbols (some (view.map Prod.fst)) (rows ++ [(symbol, view)])
        | some times =>
          if view.map Prod.fst ≠ times then none
          else denseRows symbols (some times) (rows ++ [(symbol, view)])

/-- A frame of the stacked columns. -/
def stacked (times : List ℤ) (rows : List SymbolBars) (field : Ohlcv → PyFloat) : Frame ℤ PyFloat :=
  ⟨times, rows.map fun row => (row.1, row.2.map fun e => field e.2)⟩

/-- `_build_dense_panel`. -/
def buildDensePanel (symbols : List String) : Option Panel :=
  match denseRows cache tf bars symbols none [] with
  | some (some times, rows) =>
    if rows = [] then none
    else some (.ofFields (stacked times rows Ohlcv.close) (stacked times rows Ohlcv.high)
      (stacked times rows Ohlcv.low) (stacked times rows Ohlcv.volume))
  | _ => none

/-- `_build_snapshot`. -/
def buildSnapshot (symbols : List String) : Dict String CandleSnapshot :=
  symbols.foldl (fun out symbol =>
    let snap := cache.snapshot (symbol, tf) bars
    if snap.times = [] then out else out.set symbol snap) .empty

/-- `build_panel`: the frame of one field. -/
def make (snapshot : Dict String CandleSnapshot) (field : CandleSnapshot → List PyFloat) :
    Frame ℤ PyFloat :=
  .ofSeries .nan (snapshot.rows.filterMap fun row =>
    if field row.2 ≠ [] ∧ row.2.times ≠ [] ∧ (field row.2).length = row.2.times.length then
      some (row.1, row.2.times.zip (field row.2))
    else none)

/-- `build_panel`. -/
def buildPanel (snapshot : Dict String CandleSnapshot) : Panel :=
  let close := make snapshot CandleSnapshot.closes
  .ofFields close ((make snapshot CandleSnapshot.highs).reindexLike .nan close)
    ((make snapshot CandleSnapshot.lows).reindexLike .nan close)
    ((make snapshot CandleSnapshot.volumes).reindexLike .nan close)

/-- `_build_panel`; `none` is the empty `dict`. -/
def build (symbols : List String) : Option Panel :=
  match buildDensePanel cache tf bars symbols with
  | some dense => some dense
  | none =>
    let snapshot := buildSnapshot cache tf bars symbols
    if snapshot.rows = [] then none else some (buildPanel snapshot)

/-! ## The dense panel -/

variable {cache} {tf} {bars}

/-- The symbols that have a bar. -/
def held (cache : SharedCandleCache) (tf : String) (bars : ℤ) (symbols : List String) : List String :=
  symbols.filter fun symbol => cache.tail (symbol, tf) bars ≠ []

/-- The bars of each of them. -/
def heldRows (cache : SharedCandleCache) (tf : String) (bars : ℤ) (symbols : List String) :
    List SymbolBars :=
  (held cache tf bars symbols).map fun symbol => (symbol, cache.tail (symbol, tf) bars)

lemma tailArrays_cases (symbol : String) :
    tailArrays cache tf bars symbol = some (cache.tail (symbol, tf) bars) ∨
      tailArrays cache tf bars symbol = none ∧ cache.tail (symbol, tf) bars = [] := by
  unfold tailArrays SharedCandleCache.tail
  cases cache.data.get? (symbol, tf) with
  | none => exact .inr ⟨rfl, rfl⟩
  | some sd =>
    dsimp only
    split
    · rename_i hempty
      exact .inr ⟨rfl, if_pos hempty⟩
    · exact .inl rfl

/-- The loop returns the bars of the symbols that have one, all with the times it started from or
found first. -/
lemma denseRows_eq {symbols : List String} {ref ref' : Option (List ℤ)} {rows rows' : List SymbolBars}
    (h : denseRows cache tf bars symbols ref rows = some (ref', rows')) :
    rows' = rows ++ heldRows cache tf bars symbols ∧ (∀ times, ref = some times → ref' = some times) ∧
      ∀ symbol ∈ held cache tf bars symbols,
        ref' = some ((cache.tail (symbol, tf) bars).map Prod.fst) := by
  induction symbols generalizing ref rows with
  | nil =>
    obtain ⟨rfl, rfl⟩ := Prod.mk.inj (Option.some.inj h)
    exact ⟨(List.append_nil _).symm, fun _ h => h, fun _ h => absurd h List.not_mem_nil⟩
  | cons symbol symbols ih =>
    rw [denseRows] at h
    by_cases hempty : cache.tail (symbol, tf) bars = []
    · -- the symbol is skipped
      have hskip : denseRows cache tf bars symbols ref rows = some (ref', rows') := by
        have hcases : tailArrays cache tf bars symbol = some (cache.tail (symbol, tf) bars) ∨
            tailArrays cache tf bars symbol = none ∧ cache.tail (symbol, tf) bars = [] :=
          tailArrays_cases symbol
        rcases hcases with hview | ⟨hview, -⟩
        · rw [hview] at h
          exact (if_pos hempty).symm.trans h
        · rw [hview] at h
          exact h
      have hheld : held cache tf bars (symbol :: symbols) = held cache tf bars symbols :=
        List.filter_cons_of_neg (by simpa using hempty)
      rw [heldRows, hheld]
      exact ih hskip
    · have hview : tailArrays cache tf bars symbol = some (cache.tail (symbol, tf) bars) :=
        (tailArrays_cases symbol).resolve_right fun h => hempty h.2
      have hheld : held cache tf bars (symbol :: symbols) = symbol :: held cache tf bars symbols :=
        List.filter_cons_of_pos (by simpa using hempty)
      rw [hview] at h
      dsimp only at h
      rw [if_neg hempty] at h
      cases ref with
      | none =>
        obtain ⟨hrows, hkeep, hall⟩ := ih h
        refine ⟨?_, fun _ h => absurd h.symm (Option.some_ne_none _), fun s hs => ?_⟩
        · rw [hrows, heldRows, heldRows, hheld, List.map_cons, List.append_assoc]
          rfl
        · rw [hheld] at hs
          rcases List.mem_cons.mp hs with rfl | hs
          · exact hkeep _ rfl
          · exact hall s hs
      | some times =>
        dsimp only at h
        split at h
        · cases h
        · rename_i htimes
          rw [not_not] at htimes
          obtain ⟨hrows, hkeep, hall⟩ := ih h
          refine ⟨?_, hkeep, fun s hs => ?_⟩
          · rw [hrows, heldRows, heldRows, hheld, List.map_cons, List.append_assoc]
            rfl
          · rw [hheld] at hs
            rcases List.mem_cons.mp hs with rfl | hs
            · rw [hkeep _ rfl, htimes]
            · exact hall s hs

/-- The panel of the symbols that have a bar, all with the same times. -/
def densePanel (times : List ℤ) (rows : List SymbolBars) : Panel :=
  .ofFields (stacked times rows Ohlcv.close) (stacked times rows Ohlcv.high)
    (stacked times rows Ohlcv.low) (stacked times rows Ohlcv.volume)

lemma buildDensePanel_spec {symbols : List String} {panel : Panel}
    (h : buildDensePanel cache tf bars symbols = some panel) :
    ∃ times, held cache tf bars symbols ≠ [] ∧
      (∀ symbol ∈ held cache tf bars symbols, (cache.tail (symbol, tf) bars).map Prod.fst = times) ∧
      panel = densePanel times (heldRows cache tf bars symbols) := by
  unfold buildDensePanel at h
  split at h
  · rename_i times rows hrows
    obtain ⟨hrows, -, hall⟩ := denseRows_eq hrows
    rw [List.nil_append] at hrows
    subst hrows
    split at h
    · cases h
    · rename_i hne
      refine ⟨times, fun hempty => hne ?_, fun symbol hs => ?_, (Option.some.inj h).symm⟩
      · rw [heldRows, hempty, List.map_nil]
      · exact (Option.some.inj (hall symbol hs)).symm
  · cases h

/-! ## The plain panel -/

lemma buildSnapshot_eq (symbols : List String) :
    buildSnapshot cache tf bars symbols =
      (held cache tf bars symbols).foldl
        (fun out symbol => out.set symbol (cache.snapshot (symbol, tf) bars)) .empty := by
  unfold buildSnapshot
  generalize (Table.empty : Dict String CandleSnapshot) = out
  induction symbols generalizing out with
  | nil => rfl
  | cons symbol symbols ih =>
    rw [List.foldl_cons, ih]
    have htimes : (cache.snapshot (symbol, tf) bars).times = [] ↔ cache.tail (symbol, tf) bars = [] :=
      List.map_eq_nil_iff
    by_cases hempty : cache.tail (symbol, tf) bars = []
    · have hheld : held cache tf bars (symbol :: symbols) = held cache tf bars symbols :=
        List.filter_cons_of_neg (by simpa using hempty)
      rw [hheld]
      dsimp only
      rw [if_pos (htimes.mpr hempty)]
    · have hheld : held cache tf bars (symbol :: symbols) = symbol :: held cache tf bars symbols :=
        List.filter_cons_of_pos (by simpa using hempty)
      rw [hheld, List.foldl_cons]
      dsimp only
      rw [if_neg (mt htimes.mp hempty)]

/-- Different keys are set in their order. -/
lemma rows_foldl_set {κ α : Type} [DecidableEq κ] (value : κ → α) (keys : List κ) (d : Dict κ α)
    (hnodup : (d.rows.map Prod.fst ++ keys).Nodup) :
    (keys.foldl (fun out k => Dict.set out k (value k)) d).rows =
      d.rows ++ keys.map fun k => (k, value k) := by
  induction keys generalizing d with
  | nil => exact (List.append_nil _).symm
  | cons k keys ih =>
    have hk : d.contains k = false := by
      rw [Table.not_contains_iff]
      intro row hrow heq
      have hdisjoint := (List.nodup_append.mp hnodup).2.2
      exact hdisjoint row.1 (List.mem_map_of_mem hrow) k (List.mem_cons_self ..) heq
    have hrows := Dict.rows_set_of_not_contains hk (value k)
    rw [List.foldl_cons, ih, hrows, List.append_assoc]
    · rfl
    · rw [hrows, List.map_append, List.append_assoc]
      exact hnodup

lemma rows_buildSnapshot {symbols : List String} (h : (held cache tf bars symbols).Nodup) :
    (buildSnapshot cache tf bars symbols).rows =
      (held cache tf bars symbols).map fun symbol => (symbol, cache.snapshot (symbol, tf) bars) := by
  rw [buildSnapshot_eq]
  exact rows_foldl_set _ _ _ h

/-- The columns of one field are those of the bars. -/
lemma make_eq {symbols : List String} (hnodup : (held cache tf bars symbols).Nodup)
    (hne : held cache tf bars symbols ≠ []) {times : List ℤ} (hgrow : times.Pairwise (· < ·))
    (htimes : ∀ symbol ∈ held cache tf bars symbols,
      (cache.tail (symbol, tf) bars).map Prod.fst = times)
    {field : CandleSnapshot → List PyFloat} {of : Ohlcv → PyFloat}
    (hfield : ∀ view, field (.ofBars view) = view.map fun e => of e.2) :
    make (buildSnapshot cache tf bars symbols) field =
      stacked times (heldRows cache tf bars symbols) of := by
  have hseries : ((buildSnapshot cache tf bars symbols).rows.filterMap fun row =>
      if field row.2 ≠ [] ∧ row.2.times ≠ [] ∧ (field row.2).length = row.2.times.length then
        some (row.1, row.2.times.zip (field row.2))
      else none) =
      (held cache tf bars symbols).map fun symbol =>
        (symbol, times.zip ((cache.tail (symbol, tf) bars).map fun e => of e.2)) := by
    rw [rows_buildSnapshot hnodup, List.filterMap_map, ← List.filterMap_eq_map]
    apply List.filterMap_congr
    intro symbol hs
    have hsome : cache.tail (symbol, tf) bars ≠ [] := by simpa using (List.mem_filter.mp hs).2
    have hlabels : (cache.snapshot (symbol, tf) bars).times = times := htimes symbol hs
    have hvalues : field (cache.snapshot (symbol, tf) bars) =
        (cache.tail (symbol, tf) bars).map fun e => of e.2 := hfield _
    have hlength : (cache.snapshot (symbol, tf) bars).times.length =
        (cache.tail (symbol, tf) bars).length := List.length_map ..
    dsimp only [Function.comp]
    rw [hvalues, if_pos, hlabels]
    refine ⟨?_, ?_, ?_⟩
    · rw [ne_eq, List.map_eq_nil_iff]
      exact hsome
    · intro hempty
      rw [hempty] at hlength
      exact hsome (List.length_eq_zero_iff.mp hlength.symm)
    · rw [hlength, List.length_map]
  unfold make
  rw [hseries]
  refine (Frame.ofSeries_common PyFloat.nan ?_ hgrow ?_).trans ?_
  · intro hempty
    exact hne (List.map_eq_nil_iff.mp hempty)
  · intro series hs
    obtain ⟨symbol, hmem, rfl⟩ := List.mem_map.mp hs
    apply List.map_fst_zip
    rw [List.length_map, ← htimes symbol hmem, List.length_map]
  · unfold stacked heldRows
    rw [List.map_map, List.map_map]
    congr 1
    apply List.map_congr_left
    intro symbol hs
    have hlength : (cache.tail (symbol, tf) bars).length = times.length := by
      rw [← htimes symbol hs, List.length_map]
    dsimp only [Function.comp]
    rw [List.map_snd_zip]
    rw [List.length_map, hlength]

/-- The columns of the plain panel are keys of a `dict`. -/
lemma nodup_make (snapshot : Dict String CandleSnapshot) (field : CandleSnapshot → List PyFloat) :
    ((make snapshot field).columns.map Prod.fst).Nodup := by
  have hkeys : ∀ rows : List (String × CandleSnapshot), (((rows.filterMap fun row =>
      if field row.2 ≠ [] ∧ row.2.times ≠ [] ∧ (field row.2).length = row.2.times.length then
        some (row.1, row.2.times.zip (field row.2))
      else none).map Prod.fst).Sublist (rows.map Prod.fst)) := by
    intro rows
    induction rows with
    | nil => exact List.Sublist.slnil
    | cons row rows ih =>
      rw [List.filterMap_cons]
      split
      · exact ih.cons _
      · rename_i hsome
        split at hsome
        · obtain rfl := Option.some.inj hsome
          exact ih.cons_cons _
        · cases hsome
  have hnames : (make snapshot field).columns.map Prod.fst = (snapshot.rows.filterMap fun row =>
      if field row.2 ≠ [] ∧ row.2.times ≠ [] ∧ (field row.2).length = row.2.times.length then
        some (row.1, row.2.times.zip (field row.2))
      else none).map Prod.fst := by
    unfold make Frame.ofSeries
    rw [List.map_map]
    rfl
  rw [hnames]
  exact snapshot.nodup_keys.sublist (hkeys snapshot.rows)

/-- A stacked frame reindexed like another one of the same columns. -/
lemma reindexLike_stacked {times : List ℤ} (hgrow : times.Pairwise (· < ·)) {symbols : List String}
    (hnodup : (held cache tf bars symbols).Nodup)
    (htimes : ∀ symbol ∈ held cache tf bars symbols,
      (cache.tail (symbol, tf) bars).map Prod.fst = times) (of of' : Ohlcv → PyFloat) :
    (stacked times (heldRows cache tf bars symbols) of).reindexLike .nan
      (stacked times (heldRows cache tf bars symbols) of') =
      stacked times (heldRows cache tf bars symbols) of := by
  have hnames : ∀ of : Ohlcv → PyFloat,
      (stacked times (heldRows cache tf bars symbols) of).columns.map Prod.fst =
        held cache tf bars symbols := by
    intro of
    unfold stacked heldRows
    rw [List.map_map, List.map_map]
    exact List.map_id _
  apply Frame.reindexLike_eq_self
  · rfl
  · rw [hnames, hnames]
  · exact hgrow.imp fun h => h.ne
  · rw [hnames]
    exact hnodup
  · intro column hcolumn
    obtain ⟨row, hrow, rfl⟩ := List.mem_map.mp hcolumn
    obtain ⟨symbol, hs, rfl⟩ := List.mem_map.mp hrow
    change _ = times.length
    rw [List.length_map, ← htimes symbol hs, List.length_map]

/-! ## When they agree -/

/-- One of the two panels is the other one when no symbol that has a bar is repeated, and only then. -/
lemma eq_plain_iff (hc : cache.Content) {symbols : List String} {panel : Panel}
    (h : buildDensePanel cache tf bars symbols = some panel) :
    panel = buildPanel (buildSnapshot cache tf bars symbols) ↔
      (symbols.filter fun symbol => cache.tail (symbol, tf) bars ≠ []).Nodup := by
  obtain ⟨times, hne, htimes, rfl⟩ := buildDensePanel_spec h
  have hgrow : times.Pairwise (· < ·) := by
    obtain ⟨symbol, hs⟩ := List.exists_mem_of_ne_nil _ hne
    obtain ⟨b, hb, -⟩ := hc (symbol, tf)
    rw [← htimes symbol hs, hb.tail]
    exact (b.newest_sorted bars).map _ fun _ _ h => h
  constructor
  · intro heq
    have hnames : (heldRows cache tf bars symbols).map Prod.fst = held cache tf bars symbols := by
      unfold heldRows
      rw [List.map_map]
      exact List.map_id _
    have hdense : (densePanel times (heldRows cache tf bars symbols)).close.columns.map Prod.fst =
        held cache tf bars symbols := by
      rw [← hnames]
      exact List.map_map ..
    change (held cache tf bars symbols).Nodup
    rw [← hdense, heq]
    exact nodup_make _ _
  · intro hnodup
    have hmake : ∀ field of, (∀ view, field (.ofBars view) = view.map fun e : Bar => of e.2) →
        make (buildSnapshot cache tf bars symbols) field =
          stacked times (heldRows cache tf bars symbols) of :=
      fun field of hfield => make_eq hnodup hne hgrow htimes hfield
    have hlike := reindexLike_stacked hgrow hnodup htimes
    have hclose := hmake CandleSnapshot.closes Ohlcv.close fun _ => rfl
    have hhigh := hmake CandleSnapshot.highs Ohlcv.high fun _ => rfl
    have hlow := hmake CandleSnapshot.lows Ohlcv.low fun _ => rfl
    have hvolume := hmake CandleSnapshot.volumes Ohlcv.volume fun _ => rfl
    unfold buildPanel densePanel
    dsimp only
    rw [hclose, hhigh, hlow, hvolume, hlike, hlike, hlike]

/-- On the same cache the dense panel is the plain one exactly when no symbol that has a bar is
repeated. -/
theorem buildDensePanel_eq_iff (hc : cache.Content) {symbols : List String} {panel : Panel}
    (h : buildDensePanel cache tf bars symbols = some panel) :
    panel = buildPanel (buildSnapshot cache tf bars symbols) ↔
      (symbols.filter fun symbol => cache.tail (symbol, tf) bars ≠ []).Nodup :=
  eq_plain_iff hc h

/-- Without a repetition it makes no difference which way the panel is built. -/
theorem build_eq_plain (hc : cache.Content) {symbols : List String}
    (hnodup : (symbols.filter fun symbol => cache.tail (symbol, tf) bars ≠ []).Nodup) :
    build cache tf bars symbols =
      if (buildSnapshot cache tf bars symbols).rows = [] then none
      else some (buildPanel (buildSnapshot cache tf bars symbols)) := by
  unfold build
  cases hdense : buildDensePanel cache tf bars symbols with
  | none => rfl
  | some panel =>
    obtain ⟨-, hne, -, -⟩ := buildDensePanel_spec hdense
    have hrows : (buildSnapshot cache tf bars symbols).rows ≠ [] := by
      rw [rows_buildSnapshot hnodup]
      intro hempty
      exact hne (List.map_eq_nil_iff.mp hempty)
    rw [if_neg hrows]
    have hpanel := (eq_plain_iff hc hdense).mpr hnodup
    exact congrArg some hpanel

/-- One hour of two symbols. -/
def oneHour : SharedCandleCache :=
  (({ } : SharedCandleCache).upsertCandle ("BTCUSDT", "1h")
    { openTime := some 3600000, close := some 60000 }).upsertCandle ("ETHUSDT", "1h")
    { openTime := some 3600000, close := some 3000 }

lemma content_oneHour : oneHour.Content :=
  ((SharedCandleCache.content_init (Nat.zero_le _)).upsert _ _).upsert _ _

/-- A whitelist that names a symbol twice: the dense panel has its column twice. -/
theorem repeated_symbol_stacked_twice :
    loadUniverse (some ["BTCUSDT", "ETHUSDT", "btcusdt"]) [] =
        some ["BTCUSDT", "ETHUSDT", "BTCUSDT"] ∧
      ((buildDensePanel oneHour "1h" 0 ["BTCUSDT", "ETHUSDT", "BTCUSDT"]).map fun panel =>
        panel.close.columns.map Prod.fst) = some ["BTCUSDT", "ETHUSDT", "BTCUSDT"] ∧
      (buildPanel (buildSnapshot oneHour "1h" 0
        ["BTCUSDT", "ETHUSDT", "BTCUSDT"])).close.columns.map Prod.fst = ["BTCUSDT", "ETHUSDT"] := by
  decide +kernel

/-- Without the repetition the two panels are the same. -/
theorem buildDensePanel_eq_iff_oneHour :
    (buildDensePanel oneHour "1h" 0 ["BTCUSDT", "ETHUSDT"]) =
      some (buildPanel (buildSnapshot oneHour "1h" 0 ["BTCUSDT", "ETHUSDT"])) := by
  have hsome : (buildDensePanel oneHour "1h" 0 ["BTCUSDT", "ETHUSDT"]).isSome = true := by
    decide +kernel
  obtain ⟨panel, hpanel⟩ := Option.isSome_iff_exists.mp hsome
  have hnodup : (["BTCUSDT", "ETHUSDT"].filter fun symbol =>
      oneHour.tail (symbol, "1h") 0 ≠ []).Nodup := by decide +kernel
  rw [hpanel, (buildDensePanel_eq_iff content_oneHour hpanel).mpr hnodup]

end SharedPanelFeatureCache

end PaperTrade.Runner
