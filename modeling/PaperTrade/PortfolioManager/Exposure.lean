import PaperTrade.PortfolioManager.Engine

/-!
# Gross and concentration of the published books

Over every run of cycles the baseline keeps within the gross target, and the candidate within the
baseline. The cap per coin is applied before the scaling to the gross target, so it bounds the
published weights only as long as the scaling does not undo it (`Spread`).
-/

namespace PaperTrade.PortfolioManager

open PaperTrade.Runtime Weights

/-! ## One cycle -/

/-- The candidate is the baseline, scaled down. -/
def ScaledDown (candidate baseline : Dict String ℚ) : Prop :=
  ∃ factor : ℚ, 0 ≤ factor ∧ factor ≤ 1 ∧ candidate.weights = factor • baseline.weights

/-- What a blend publishes: the capped sum of the books at the gross target or, while no sleeve is
stale, a mixture of that with the previous baseline; and the candidate is this, scaled down. -/
structure Published (output : Dict String ℚ) (args : OverlayArgs) (previous : Option (Dict String ℚ))
    (r : BlendResult) (c G : ℚ) (hc : 0 ≤ c) : Prop where
  cap : args.cap = .fin c
  gross : args.gross = .fin G
  gross_nonneg : 0 ≤ G
  baseline : r.baseline.weights = scaledTo G (clip c hc output.weights) ∨
    r.staleSleeves = [] ∧ ∃ p α, previous = some p ∧ p.rows ≠ [] ∧ 0 ≤ α ∧ α ≤ 1 ∧
      r.baseline.weights = mix α (scaledTo G (clip c hc output.weights)) p.weights
  candidate : ScaledDown r.candidate r.baseline

lemma smoothed_ok {args : OverlayArgs} {previous : Option (Dict String ℚ)} {stale : List String}
    {scaled out : Dict String ℚ} (h : smoothed args previous stale scaled = .ok out) :
    out.weights = scaled.weights ∨
      stale = [] ∧ ∃ p α, previous = some p ∧ p.rows ≠ [] ∧ 0 ≤ α ∧ α ≤ 1 ∧
        out.weights = mix α scaled.weights p.weights := by
  unfold smoothed at h
  split at h
  · split at h
    · rename_i hstale
      exact (emaSmooth_ok h).imp_right fun hmix => ⟨hstale.2, hmix⟩
    · cases h
      exact .inl rfl
  · cases h
    exact .inl rfl

lemma throttled_ok {args : OverlayArgs} {regimeState : Option (Dict String StateValue)}
    {baseline out : Dict String ℚ} (h : throttled args regimeState baseline = .ok out) :
    ScaledDown out baseline := by
  unfold throttled at h
  split at h
  · exact regimeThrottle_ok h
  · cases h
    exact ⟨1, zero_le_one, le_rfl, (one_smul ℚ _).symm⟩

lemma buildBlendOutputs_ok {books : Dict String (Option TargetBook)}
    {allocations maxStalenessSec : Dict String PyFloat} {args : OverlayArgs}
    {regimeState : Option (Dict String StateValue)} {previous : Option (Dict String ℚ)} {clock : Clock}
    {r : BlendResult}
    (h : buildBlendOutputs books allocations maxStalenessSec args regimeState previous clock = .ok r) :
    ∃ blend c G hc, blendBooks books allocations maxStalenessSec clock = .ok blend ∧
      Published blend.output args previous r c G hc := by
  obtain ⟨blend, hblend, h⟩ := ok_of_bind h
  obtain ⟨capped, hcapped, h⟩ := ok_of_bind h
  obtain ⟨scaled, hscaled, h⟩ := ok_of_bind h
  obtain ⟨baseline, hbaseline, h⟩ := ok_of_bind h
  obtain ⟨candidate, hcandidate, h⟩ := ok_of_bind h
  cases h
  obtain ⟨c, hc, hcap, hclip⟩ := perCoinCap_ok hcapped
  obtain ⟨G, hgross, hG, hscale⟩ := grossTarget_ok hscaled
  rw [hclip] at hscale
  refine ⟨blend, c, G, hc, hblend, hcap, hgross, hG, ?_, throttled_ok hcandidate⟩
  have hsmooth := smoothed_ok hbaseline
  rwa [hscale] at hsmooth

namespace PortfolioEngine

variable {e : PortfolioEngine} {i : CycleReads} {r : BlendResult}

/-- The overlay arguments of a cycle. -/
def overlayArgs (e : PortfolioEngine) (span : Option ℤ) : OverlayArgs :=
  ⟨e.overlay.perCoinCap, e.overlay.grossTarget, e.overlay.downtrendMultiplier, span⟩

lemma cycle_ok (h : e.cycle i = .ok r) :
    ∃ books span blend c G hc, readBooks i.read e.sleeves = .ok books ∧
      blendBooks books e.allocations e.maxStaleness i.clock = .ok blend ∧
      Published blend.output (e.overlayArgs span) (some e.previous) r c G hc := by
  obtain ⟨books, hbooks, h⟩ := ok_of_bind h
  obtain ⟨span, -, h⟩ := ok_of_bind h
  obtain ⟨blend, c, G, hc, hblend, hpublished⟩ := buildBlendOutputs_ok h
  exact ⟨books, span, blend, c, G, hc, hbooks, hblend, hpublished⟩

/-! ## The gross -/

/-- The candidate of every cycle, against its baseline. -/
lemma candidate_le (hr : e.cycle i = .ok r) (symbol : String) :
    |r.candidate.weights symbol| ≤ |r.baseline.weights symbol| ∧
      (r.candidate.weights symbol = 0 ∨
        SignType.sign (r.candidate.weights symbol) = SignType.sign (r.baseline.weights symbol)) := by
  obtain ⟨_, _, _, _, _, _, -, -, hpublished⟩ := cycle_ok hr
  obtain ⟨factor, h0, h1, hfactor⟩ := hpublished.candidate
  have hvalue : r.candidate.weights symbol = factor * r.baseline.weights symbol := by
    rw [hfactor]
    rfl
  rw [hvalue]
  constructor
  · rw [abs_mul, abs_of_nonneg h0]
    exact mul_le_of_le_one_left (abs_nonneg _) h1
  · rcases h0.eq_or_lt with hzero | hpos
    · left
      rw [← hzero, zero_mul]
    · right
      rw [sign_mul, sign_pos hpos, one_mul]

/-- The book a cycle takes in from a sleeve: what it reads of it, unless that is stale. -/
def takenIn (e : PortfolioEngine) (i : CycleReads) (sleeveId : String) : Option TargetBook :=
  match i.read sleeveId with
  | .ok (some book) =>
    match e.maxStaleness.get? sleeveId with
    | some limit =>
      match book.isStale limit i.clock sleeveId with
      | .ok false => some book
      | _ => none
    | none => none
  | _ => none

/-- The weights a sleeve adds to the blend. -/
noncomputable def contribution (e : PortfolioEngine) (i : CycleReads) (sleeveId : String) : String →₀ ℚ :=
  ((e.takenIn i sleeveId).map fun book => book.weights.weights).getD 0

/-- The net exposure of the sleeves that a cycle takes in, by their allocations. -/
noncomputable def exposure (e : PortfolioEngine) (i : CycleReads) : String →₀ ℚ :=
  (e.allocations.rows.map fun row => nominal row.2 • e.contribution i row.1).sum

/-- Cut at the cap, no coin's share of the exposure is so large that the scaling to the gross target
lifts it over the cap. -/
def Spread (e : PortfolioEngine) (i : CycleReads) : Prop :=
  ∀ c G : ℚ, e.overlay.perCoinCap = .fin c → e.overlay.grossTarget = .fin G → ∀ symbol,
    min c |e.exposure i symbol| * G ≤ c * (e.exposure i).sum fun _ x => min c |x|

lemma currentBook_eq {books : Dict String (Option TargetBook)} {sleeveId : String}
    {book? : Option TargetBook} (hbooks : readBooks i.read e.sleeves = .ok books)
    (hid : ∃ sleeve ∈ e.sleeves, sleeve.sleeveId = sleeveId)
    (h : currentBook books e.maxStaleness i.clock sleeveId = .ok book?) :
    book? = e.takenIn i sleeveId := by
  obtain ⟨read, hread, hget⟩ := readBooks_get? hbooks hid
  unfold currentBook at h
  unfold takenIn
  rw [hget] at h
  rw [hread]
  cases read with
  | none =>
    cases h
    rfl
  | some book =>
    cases hlimit : e.maxStaleness.get? sleeveId with
    | none =>
      rw [hlimit] at h
      cases h
    | some limit =>
      rw [hlimit] at h
      obtain ⟨stale, hstale, h⟩ := ok_of_bind h
      cases h
      cases stale
      · simp only [hstale]
        rfl
      · simp only [hstale]
        rfl

lemma weights_add (blend : Blend) (sleeveId : String) (allocation : ℚ) :
    (blend.add sleeveId allocation (e.takenIn i sleeveId)).output.weights =
      blend.output.weights + allocation • e.contribution i sleeveId := by
  unfold contribution
  cases e.takenIn i sleeveId with
  | none =>
    show blend.output.weights = blend.output.weights + allocation • 0
    rw [smul_zero, add_zero]
  | some book => exact Dict.weights_foldl_add book.weights blend.output allocation

lemma blendBooks_output {books : Dict String (Option TargetBook)} {blend : Blend}
    (hbooks : readBooks i.read e.sleeves = .ok books)
    (h : blendBooks books e.allocations e.maxStaleness i.clock = .ok blend) :
    blend.output.weights = e.exposure i := by
  obtain ⟨fixed, hfixed, h⟩ := ok_of_bind h
  have hfold : ∀ (rows : List (String × ℚ)) (acc : Blend),
      (∀ row ∈ rows, ∃ sleeve ∈ e.sleeves, sleeve.sleeveId = row.1) →
      rows.foldlM (blendSleeve books e.maxStaleness i.clock) acc = .ok blend →
      blend.output.weights =
        acc.output.weights + (rows.map fun row => row.2 • e.contribution i row.1).sum := by
    intro rows
    induction rows with
    | nil =>
      intro acc _ hacc
      cases hacc
      exact (add_zero _).symm
    | cons row rows ih =>
      intro acc hids hacc
      rw [List.foldlM_cons] at hacc
      obtain ⟨acc', hadd, hrest⟩ := ok_of_bind hacc
      obtain ⟨book?, hbook, hadd⟩ := ok_of_bind hadd
      cases hadd
      rw [ih _ (fun row' hrow' => hids row' (List.mem_cons_of_mem row hrow')) hrest,
        currentBook_eq hbooks (hids row List.mem_cons_self) hbook, weights_add, List.map_cons,
        List.sum_cons, add_assoc]
  have hrows := fixedAllocator_rows hfixed
  have hids : ∀ row ∈ fixed.rows, ∃ sleeve ∈ e.sleeves, sleeve.sleeveId = row.1 := by
    intro row hrow
    rw [hrows] at hrow
    obtain ⟨row', hrow', rfl⟩ := List.mem_map.mp hrow
    obtain ⟨sleeve, hsleeve, hitem⟩ := Dict.mem_collect _ hrow'
    cases hitem
    exact ⟨sleeve, hsleeve, rfl⟩
  rw [hfold fixed.rows _ hids h, hrows, List.map_map]
  exact zero_add _

/-! ## The cap per coin -/

/-- The capped exposure at the gross target is within the cap exactly when the exposure is spread. -/
lemma scaled_le_cap_iff {c G : ℚ} (hc : 0 ≤ c) (hG : 0 ≤ G) (x : String →₀ ℚ) :
    (∀ symbol, |scaledTo G (clip c hc x) symbol| ≤ c) ↔
      ∀ symbol, min c |x symbol| * G ≤ c * x.sum fun _ y => min c |y| := by
  have hgross := gross_clip hc x
  by_cases hzero : clip c hc x = 0
  · constructor
    · intro _ symbol
      have habs := abs_clip_apply hc x symbol
      rw [hzero, Finsupp.zero_apply, abs_zero] at habs
      rw [← habs, zero_mul, ← hgross]
      exact mul_nonneg hc (gross_nonneg _)
    · intro _ symbol
      rw [hzero, scaledTo, smul_zero, Finsupp.zero_apply, abs_zero]
      exact hc
  · refine forall_congr' fun symbol => ?_
    rw [abs_scaledTo_le_iff hG hzero, abs_clip_apply hc, hgross]

/-- In a cycle that is spread, after one that kept within the cap, the baseline keeps within it. -/
lemma cap_step {c : ℚ} (hcap : e.overlay.perCoinCap = .fin c) (hspread : e.Spread i)
    (p : Dict String ℚ) (hp : ∀ symbol, |p.weights symbol| ≤ c)
    (hr : { e with previous := p }.cycle i = .ok r) : ∀ symbol, |r.baseline.weights symbol| ≤ c := by
  obtain ⟨books, span, blend, c', G, hc, hbooks, hblend, hpublished⟩ := cycle_ok hr
  have hsame : c' = c := PyFloat.fin.inj (hpublished.cap.symm.trans hcap)
  subst hsame
  have houtput : blend.output.weights = e.exposure i := blendBooks_output hbooks hblend
  have hscaled : ∀ symbol, |scaledTo G (clip c' hc blend.output.weights) symbol| ≤ c' := by
    rw [scaled_le_cap_iff hc hpublished.gross_nonneg, houtput]
    exact hspread c' G hcap hpublished.gross
  intro symbol
  rcases hpublished.baseline with hfresh | ⟨-, p', α, hp', -, h0, h1, hmix⟩
  · rw [hfresh]
    exact hscaled symbol
  · cases hp'
    rw [hmix]
    exact abs_mix_le h0 h1 (hscaled symbol) (hp symbol)

/-- A cap that is not below the gross target is not in the way of any exposure. -/
lemma spread_of_target_le_cap {c G : ℚ} (hcap : e.overlay.perCoinCap = .fin c)
    (hgross : e.overlay.grossTarget = .fin G) (hc : 0 ≤ c) (h : G ≤ c) (i : CycleReads) : e.Spread i := by
  intro c' G' hcap' hgross' symbol
  have hc' : c = c' := PyFloat.fin.inj (hcap.symm.trans hcap')
  have hG' : G = G' := PyFloat.fin.inj (hgross.symm.trans hgross')
  subst hc' hG'
  have hnonneg : ∀ t, 0 ≤ min c |e.exposure i t| := fun t => le_min hc (abs_nonneg _)
  have hshare : min c |e.exposure i symbol| ≤ (e.exposure i).sum fun _ x => min c |x| := by
    by_cases hmem : symbol ∈ (e.exposure i).support
    · exact Finset.single_le_sum (f := fun t => min c |e.exposure i t|) (fun t _ => hnonneg t) hmem
    · rw [Finsupp.notMem_support_iff.mp hmem, abs_zero, min_eq_right hc]
      exact Finset.sum_nonneg fun t _ => hnonneg t
  calc min c |e.exposure i symbol| * G ≤ min c |e.exposure i symbol| * c :=
        mul_le_mul_of_nonneg_left h (hnonneg symbol)
    _ = c * min c |e.exposure i symbol| := mul_comm _ _
    _ ≤ c * (e.exposure i).sum fun _ x => min c |x| := mul_le_mul_of_nonneg_left hshare hc

/-- As long as every cycle of a run is spread, the weights of the baseline and of the candidate keep
within the cap per coin. -/
theorem le_cap_of_spread {items : List SleeveItem} {overlay : Overlay}
    (hinit : init items overlay = .ok e) {before : List CycleReads}
    (hbefore : ∀ j ∈ before, e.Spread j) (hi : e.Spread i) (hr : (e.run before).cycle i = .ok r) :
    ∃ c : ℚ, overlay.perCoinCap = .fin c ∧ ∀ symbol,
      |r.baseline.weights symbol| ≤ c ∧ |r.candidate.weights symbol| ≤ c := by
  obtain ⟨hoverlay, hprevious⟩ := init_ok hinit
  subst hoverlay
  obtain ⟨books, span, blend, c, G, hc, -, -, hpublished⟩ := cycle_ok hr
  have hcap : e.overlay.perCoinCap = .fin c := by
    obtain ⟨p, -, hrun⟩ := run_previous (e := e) (P := fun _ => True) (Q := fun _ => True)
      (fun _ _ _ _ _ _ => trivial) trivial before fun _ _ => trivial
    rw [hrun] at hpublished
    exact hpublished.cap
  have h0 : ∀ symbol, |e.previous.weights symbol| ≤ c := by
    intro symbol
    rw [hprevious, Dict.weights_empty, Finsupp.zero_apply, abs_zero]
    exact hc
  obtain ⟨p, hp, hrun⟩ := run_previous (e := e) (P := fun p => ∀ symbol, |p.weights symbol| ≤ c)
    (Q := e.Spread) (fun p j r hp hj hr => cap_step hcap hj p hp hr) h0 before hbefore
  refine ⟨c, hcap, fun symbol => ?_⟩
  have hcandidate := (candidate_le hr symbol).1
  rw [hrun] at hr
  have hbaseline := cap_step hcap hi p hp hr symbol
  exact ⟨hbaseline, hcandidate.trans hbaseline⟩

theorem le_cap_of_spread_sole :
    ∃ c : ℚ, (soleEngine {}).overlay.perCoinCap = .fin c ∧ ∃ r, (soleEngine {}).cycle soleReads = .ok r ∧
      ∀ symbol, |r.baseline.weights symbol| ≤ c ∧ |r.candidate.weights symbol| ≤ c := by
  have hspread : ∀ j, (soleEngine {}).Spread j :=
    spread_of_target_le_cap rfl rfl zero_le_one le_rfl
  have hok : ((soleEngine {}).cycle soleReads).toOption.isSome = true := by decide +kernel
  cases hr : (soleEngine {}).cycle soleReads with
  | error err =>
    rw [hr] at hok
    cases hok
  | ok r =>
    have hbefore : ∀ j ∈ ([] : List CycleReads), (soleEngine {}).Spread j := fun j _ => hspread j
    obtain ⟨c, hcap, hle⟩ := le_cap_of_spread (init_soleItems {}) hbefore (hspread soleReads) hr
    exact ⟨c, hcap, r, rfl, hle⟩

/-- A book of one coin at a cap of a twenty-fifth and a gross target of one: the baseline has all of the
weight on the coin. -/
theorem cap_exceeded : ¬ ∀ (items : List SleeveItem) (overlay : Overlay) (e : PortfolioEngine)
    (before : List CycleReads) (i : CycleReads) (r : BlendResult),
    init items overlay = .ok e → (e.run before).cycle i = .ok r →
      ∃ c : ℚ, overlay.perCoinCap = .fin c ∧ ∀ symbol,
        |r.baseline.weights symbol| ≤ c ∧ |r.candidate.weights symbol| ≤ c := by
  intro h
  have hrows : ((soleEngine { perCoinCap := .fin (1 / 25), emaSpan := some 5 }).cycle
      soleReads).toOption.map (fun r => r.baseline.rows) = some [("BTCUSDT", 1)] := by
    decide +kernel
  cases hr : (soleEngine { perCoinCap := .fin (1 / 25), emaSpan := some 5 }).cycle soleReads with
  | error err =>
    rw [hr] at hrows
    cases hrows
  | ok r =>
    rw [hr] at hrows
    have hbaseline : r.baseline.rows = [("BTCUSDT", 1)] := Option.some.inj hrows
    have hmem : ("BTCUSDT", (1 : ℚ)) ∈ r.baseline.rows := by
      rw [hbaseline]
      exact List.mem_singleton_self _
    obtain ⟨c, hcap, hle⟩ := h soleItems _ _ [] soleReads r (init_soleItems _) hr
    have hc : (1 / 25 : ℚ) = c := PyFloat.fin.inj hcap
    have hone := (hle "BTCUSDT").1
    rw [Dict.weights_of_mem hmem, ← hc] at hone
    norm_num at hone

/-- In a cycle that mixes in no previous baseline, because there is none or because a sleeve is stale,
the baseline keeps within the cap just when the exposure is spread. -/
theorem le_cap_iff_of_unmixed (hr : e.cycle i = .ok r)
    (hunmixed : e.previous.rows = [] ∨ r.staleSleeves ≠ []) :
    (∃ c : ℚ, e.overlay.perCoinCap = .fin c ∧ ∀ symbol, |r.baseline.weights symbol| ≤ c) ↔
      e.Spread i := by
  obtain ⟨books, span, blend, c, G, hc, hbooks, hblend, hpublished⟩ := cycle_ok hr
  have houtput : blend.output.weights = e.exposure i := blendBooks_output hbooks hblend
  have hbaseline : r.baseline.weights = scaledTo G (clip c hc (e.exposure i)) := by
    rw [← houtput]
    refine hpublished.baseline.resolve_right fun hmixed => ?_
    obtain ⟨hstale, p, α, hp, hne, -⟩ := hmixed
    cases hp
    exact hunmixed.elim hne fun h => h hstale
  rw [hbaseline]
  have hcap : e.overlay.perCoinCap = .fin c := hpublished.cap
  have hgross : e.overlay.grossTarget = .fin G := hpublished.gross
  constructor
  · intro hle c' G' hcap' hgross'
    have hc' : c = c' := PyFloat.fin.inj (hcap.symm.trans hcap')
    have hG' : G = G' := PyFloat.fin.inj (hgross.symm.trans hgross')
    subst hc' hG'
    obtain ⟨c'', hcap'', hle⟩ := hle
    have hc'' : c = c'' := PyFloat.fin.inj (hcap.symm.trans hcap'')
    subst hc''
    exact (scaled_le_cap_iff hc hpublished.gross_nonneg _).mp hle
  · intro hspread
    exact ⟨c, hcap, (scaled_le_cap_iff hc hpublished.gross_nonneg _).mpr (hspread c G hcap hgross)⟩

end PortfolioEngine

end PaperTrade.PortfolioManager
