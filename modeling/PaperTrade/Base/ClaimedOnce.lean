import PaperTrade.Base.ClaimedCandles

/-!
# A candle is claimed once

In a careful run the candles that are claimed for a position rise and are after its entry candle
(`claimed_once`): whatever the stream, the rows and the snapshots hold of a position says the same about
its entry candle, and what the engine holds has the mark of every claim. A run that is not careful can
claim a candle twice (`claimed_twice`).
-/

namespace PaperTrade.Base

open PaperTrade.Runtime PaperTrade.Worker

namespace CandleWorld

/-! ## The invariant -/

/-- A row belongs to a position that has been opened. -/
def RowOk (x : CandleWorld) (row : PositionRow) : Prop :=
  ∃ o ∈ x.opened, row.positionId = o.id ∧ row.symbol = o.symbol ∧
    ∃ runtime, rowRuntime row = some runtime ∧ RuntimeOk x.claimed o runtime

/-- A local position is one that has been opened, and has the mark of every claim. -/
structure LocalOk (x : CandleWorld) (symbol : String) (o : OpenedPosition) (d : Entries) : Prop
    extends FieldsOk x.claimed o d where
  id : d.get? "position_id" = some (.str o.id)
  symbol : symbol = o.symbol
  covered : ∀ c ∈ x.candles o.id, ∃ m, d.get? "last_strategy_candle_ms" = some (.int m) ∧ c ≤ m

/-- A message about a position that has been opened. -/
structure MessageOk (x : CandleWorld) (o : OpenedPosition) (m : RawSignal) : Prop where
  runtime : m.type ∈ [some "OPEN", some "MODIFY", some "CLOSE"] →
    ∀ runtime, messageRuntime m = some runtime → RuntimeOk x.claimed o runtime
  opens : m.type = some "OPEN" → m.symbol = some o.symbol ∧ messageRuntime m ≠ none

/-- What holds in every state of a careful run. -/
structure Marked (x : CandleWorld) : Prop where
  nonempty : ∀ o ∈ x.opened, o.id ≠ ""
  once : (x.opened.map OpenedPosition.id).Nodup
  held : ∀ p ∈ x.engine.openPositions.rows, ∃ o ∈ x.opened, x.LocalOk p.1 o p.2
  stream : ∀ m ∈ x.stream, ∀ o ∈ x.opened, m.positionId = some o.id → x.MessageOk o m
  opening : ∀ m ∈ x.stream, m.type = some "OPEN" → ∃ o ∈ x.opened, m.positionId = some o.id
  rows : ∀ row ∈ x.publish.tables.positions.rows, x.RowOk row
  reads : ∀ revision version rows, .read revision version rows ∈ x.publish.calls →
    ∀ row ∈ rows, x.RowOk row
  published : ∀ w ∈ x.publish.published, ∃ rows : List PositionRow,
    w.snapshot.positions = rows.map publishedPosition ∧ ∀ row ∈ rows, x.RowOk row
  claims : ∀ p ∈ x.claimed, ∃ o ∈ x.opened, o.id = p.1
  result : x.ClaimedOnce

lemma mem_candles {x : CandleWorld} {id : String} {c : ℤ} : c ∈ x.candles id ↔ (id, c) ∈ x.claimed := by
  unfold candles
  rw [List.mem_map]
  constructor
  · rintro ⟨p, hp, rfl⟩
    obtain ⟨hmem, hid⟩ := List.mem_filter.mp hp
    have hid : p.1 = id := of_decide_eq_true hid
    rw [← hid]
    exact hmem
  · intro h
    exact ⟨_, List.mem_filter.mpr ⟨h, decide_eq_true rfl⟩, rfl⟩

namespace Marked

variable {x y : CandleWorld}

/-- One position has been opened under an id. -/
lemma opened_unique (h : Marked x) {o o' : OpenedPosition} (ho : o ∈ x.opened) (ho' : o' ∈ x.opened)
    (hid : o.id = o'.id) : o = o' := List.inj_on_of_nodup_map h.once ho ho' hid

lemma positionId?_local (h : Marked x) {p : String × Entries} {o : OpenedPosition}
    (ho : o ∈ x.opened) (hlocal : x.LocalOk p.1 o p.2) : positionId? p.2 = some o.id := by
  unfold positionId?
  rw [hlocal.id]
  show (if _ then some (strOf _) else none) = _
  rw [if_pos]
  · rfl
  · simpa [Json.truthy] using h.nonempty o ho

lemma init (alphaId : String) (config : ReconcileConfig) (json : JsonUtils) (executor : Executor) :
    Marked { alphaId, config, json, executor } where
  nonempty o ho := by cases ho
  once := List.nodup_nil
  held p hp := by cases hp
  stream m hm := by cases hm
  opening m hm := by cases hm
  rows row hrow := by cases hrow
  reads r v rows hcall := by cases hcall
  published w hw := by cases hw
  claims p hp := by cases hp
  result o ho := by cases ho

/-! ## Steps of the engine -/

/-- A step that changes what the engine holds and nothing else. -/
lemma of_engine (h : Marked x) {engine : BaseEngine}
    (hheld : ∀ p ∈ engine.openPositions.rows, ∃ o ∈ x.opened, x.LocalOk p.1 o p.2) :
    Marked { x with engine := engine } where
  nonempty := h.nonempty
  once := h.once
  held p hp := by
    obtain ⟨o, ho, hlocal⟩ := hheld p hp
    exact ⟨o, ho, ⟨hlocal.toFieldsOk, hlocal.id, hlocal.symbol, hlocal.covered⟩⟩
  stream m hm o ho hid := ⟨(h.stream m hm o ho hid).runtime, (h.stream m hm o ho hid).opens⟩
  opening := h.opening
  rows := h.rows
  reads := h.reads
  published := h.published
  claims := h.claims
  result := h.result

lemma closes (h : Marked x) (symbol : String) : Marked (x.step (.closes symbol)) :=
  h.of_engine fun p hp => h.held p ((Table.mem_erase _ _ _).mp hp).1

/-- More claims, and more positions, of which what is there says nothing. -/
lemma RowOk_mono {row : PositionRow} (h : x.RowOk row) (hopened : x.opened ⊆ y.opened)
    (hclaimed : x.claimed ⊆ y.claimed) : y.RowOk row := by
  obtain ⟨o, ho, hid, hsymbol, runtime, hruntime, hok⟩ := h
  exact ⟨o, hopened ho, hid, hsymbol, runtime, hruntime, hok.mono hclaimed⟩

lemma published_mono (h : Marked x) (hopened : x.opened ⊆ y.opened)
    (hclaimed : x.claimed ⊆ y.claimed) : ∀ w ∈ x.publish.published, ∃ rows : List PositionRow,
      w.snapshot.positions = rows.map publishedPosition ∧ ∀ row ∈ rows, y.RowOk row := by
  intro w hw
  obtain ⟨rows, hrows, hok⟩ := h.published w hw
  exact ⟨rows, hrows, fun row hrow => RowOk_mono (hok row hrow) hopened hclaimed⟩

/-- The last processed candle of a local position is not before any claim, and a new candle is after
the entry candle. -/
lemma claim_after (h : Marked x) {symbol : String} {o : OpenedPosition} (ho : o ∈ x.opened)
    {d d' : Entries} (hlocal : x.LocalOk symbol o d) {c : ℤ}
    (hclaim : claimPositionCandle d c = .ok (true, d')) :
    (∀ c' ∈ x.candles o.id, c' < c) ∧ AfterEntry o.position c := by
  obtain ⟨-, entryOpen, entryClose, last, hmarks, hclose, hopen, hlast⟩ :=
    claimPositionCandle_true hclaim
  simp only [candleMarks] at hmarks
  cases hopenMs : candleMs d "entry_candle_open_ms" with
  | error e =>
    rw [hopenMs] at hmarks
    cases hmarks
  | ok open' =>
  cases hcloseMs : candleMs d "signal_candle_close_ms" with
  | error e =>
    rw [hopenMs, hcloseMs] at hmarks
    cases hmarks
  | ok close' =>
  rw [hopenMs, hcloseMs] at hmarks
  cases hlastMs : intOrZero ((d.get? "last_strategy_candle_ms").getD
      (.int (if 0 < open' then open' else close' - 1))) with
  | error e =>
    simp only [bind, Except.bind, hlastMs] at hmarks
    cases hmarks
  | ok last' =>
  simp only [bind, Except.bind, hlastMs, pure, Except.pure, Except.ok.injEq, Prod.mk.injEq] at hmarks
  obtain ⟨rfl, rfl, rfl⟩ := hmarks
  have hint : ∀ m, intOrZero (.int m) = .ok m := by
    intro m
    by_cases hm : m = 0 <;> simp [intOrZero, Json.truthy, Json.toInt, hm]
  have hbefore : ∀ c' ∈ x.candles o.id, c' < c := by
    intro c' hc'
    obtain ⟨m, hm, hle⟩ := hlocal.covered c' hc'
    rw [hm, Option.getD_some, hint] at hlastMs
    have := Except.ok.inj hlastMs
    omega
  refine ⟨hbefore, fun t ht hpos => ?_, fun t ht hpos => ?_⟩
  · have heq := (hlocal.candleMs (k := "entry_candle_open_ms") (by decide) ht).symm.trans hopenMs
    have heq : t = open' := Except.ok.inj heq
    cases hget : d.get? "last_strategy_candle_ms" with
    | none =>
      rw [hget, Option.getD_none, hint, heq.symm, if_pos hpos] at hlastMs
      have := Except.ok.inj hlastMs
      omega
    | some v =>
      obtain ⟨m, hm, hmem⟩ := (hlocal.fields _ (mem_of_get? hget)).mark rfl
      have hm : v = .int m := hm
      have hafter := ((h.result o ho).2 m (mem_candles.mpr hmem)).1 t ht hpos
      have := hbefore m (mem_candles.mpr hmem)
      omega
  · have heq := (hlocal.candleMs (k := "signal_candle_close_ms") (by decide) ht).symm.trans hcloseMs
    have heq : t = close' := Except.ok.inj heq
    have := hclose (by omega)
    omega

lemma candles_append {id : String} {c : ℤ} (hclaimed : y.claimed = x.claimed ++ [(id, c)])
    (id' : String) : y.candles id' = x.candles id' ++ if id = id' then [c] else [] := by
  unfold candles
  rw [hclaimed, List.filter_append, List.map_append]
  by_cases heq : id = id' <;> simp [heq]

lemma claimed (h : Marked x) {symbol : String} {o : OpenedPosition} (ho : o ∈ x.opened)
    {d d' : Entries} (hlocal : x.LocalOk symbol o d) {c : ℤ}
    (hclaim : claimPositionCandle d c = .ok (true, d')) (hopened : y.opened = x.opened)
    (hstream : y.stream = x.stream) (hpublish : y.publish = x.publish)
    (hclaimed : y.claimed = x.claimed ++ [(o.id, c)])
    (hheld : ∀ p ∈ y.engine.openPositions.rows, p = (symbol, d') ∨
      (p ∈ x.engine.openPositions.rows ∧ p.1 ≠ symbol)) : Marked y := by
  obtain ⟨hbefore, hafter⟩ := h.claim_after ho hlocal hclaim
  obtain ⟨rfl, -⟩ := claimPositionCandle_true hclaim
  have hsub : x.claimed ⊆ y.claimed := by
    rw [hclaimed]
    exact List.subset_append_left _ _
  have hsame : x.opened ⊆ y.opened := by
    rw [hopened]
    exact List.Subset.refl _
  have hcandles := candles_append hclaimed
  have hother : ∀ o' ∈ x.opened, o' ≠ o → y.candles o'.id = x.candles o'.id := by
    intro o' ho' hne
    have hid : o.id ≠ o'.id := fun heq => hne (h.opened_unique ho' ho heq.symm)
    rw [hcandles, if_neg hid, List.append_nil]
  have hown : y.candles o.id = x.candles o.id ++ [c] := by rw [hcandles, if_pos rfl]
  refine ⟨?_, ?_, fun p hp => ?_, fun m hm o' ho' hmid => ?_, ?_, fun row hrow => ?_,
    fun r v rows hcall row hrow => ?_, ?_, fun p hp => ?_, fun o' ho' => ?_⟩
  · rw [hopened]
    exact h.nonempty
  · rw [hopened]
    exact h.once
  · rcases hheld p hp with rfl | ⟨hp, hne⟩
    · -- the position has the new mark
      refine ⟨o, hsame ho, ⟨(hlocal.toFieldsOk.mono hsub).set ⟨fun hk => ?_, fun _ => ⟨c, rfl, ?_⟩⟩, ?_,
        hlocal.symbol, fun c' hc' => ⟨c, ?_, ?_⟩⟩⟩
      · have hk : "last_strategy_candle_ms" ∈ entryKeys := hk
        exact absurd hk (by decide)
      · rw [hclaimed]
        exact List.mem_append_right _ (List.mem_singleton_self _)
      · rw [Entries.get?_set, if_neg (by decide), hlocal.id]
      · rw [Entries.get?_set, if_pos rfl]
      · rw [hown] at hc'
        rcases List.mem_append.mp hc' with hc' | hc'
        · exact (hbefore c' hc').le
        · exact (List.mem_singleton.mp hc').le
    · obtain ⟨o', ho', hlocal'⟩ := h.held p hp
      have hne' : o' ≠ o := by
        rintro rfl
        exact hne (hlocal'.symbol.trans hlocal.symbol.symm)
      refine ⟨o', hsame ho', ⟨hlocal'.toFieldsOk.mono hsub, hlocal'.id, hlocal'.symbol, ?_⟩⟩
      rw [hother o' ho' hne']
      exact hlocal'.covered
  · rw [hstream] at hm
    rw [hopened] at ho'
    have hold := h.stream m hm o' ho' hmid
    exact ⟨fun htype runtime hr => (hold.runtime htype runtime hr).mono hsub, hold.opens⟩
  · rw [hstream, hopened]
    exact h.opening
  · rw [hpublish] at hrow
    exact RowOk_mono (h.rows row hrow) hsame hsub
  · rw [hpublish] at hcall
    exact RowOk_mono (h.reads r v rows hcall row hrow) hsame hsub
  · rw [hpublish]
    exact h.published_mono hsame hsub
  · rw [hclaimed] at hp
    rcases List.mem_append.mp hp with hp | hp
    · obtain ⟨o', ho', hid⟩ := h.claims p hp
      exact ⟨o', hsame ho', hid⟩
    · rw [List.mem_singleton.mp hp]
      exact ⟨o, hsame ho, rfl⟩
  · rw [hopened] at ho'
    by_cases heq : o' = o
    · rw [heq, hown]
      obtain ⟨hrising, hentry⟩ := h.result o ho
      refine ⟨List.pairwise_append.mpr ⟨hrising, List.pairwise_singleton _ _, ?_⟩, fun c' hc' => ?_⟩
      · intro a ha b hb
        rw [List.mem_singleton.mp hb]
        exact hbefore a ha
      · rcases List.mem_append.mp hc' with hc' | hc'
        · exact hentry c' hc'
        · rw [List.mem_singleton.mp hc']
          exact hafter
    · rw [hother o' ho' heq]
      exact h.result o' ho'

lemma claim (h : Marked x) (symbol : String) (c : ℤ) : Marked (x.step (.claim symbol c)) := by
  unfold CandleWorld.step
  dsimp only
  split
  · rename_i d hget
    unfold CandleWorld.claim
    split
    · rename_i d' hclaim
      have hmem := (Dict.get?_some_iff _ _ _).mp hget
      obtain ⟨o, ho, hlocal⟩ := h.held _ hmem
      have hid : positionId? d = some o.id := h.positionId?_local ho hlocal
      refine h.claimed ho hlocal hclaim rfl rfl rfl ?_ fun p hp => (Dict.mem_set _ _ _ _).mp hp
      show x.claimed ++ _ = _
      rw [hid]
      rfl
    · exact h
  · exact h

/-! ## Pushing a signal -/

/-- The position that is held under an id is the local one with the id. -/
lemma held_eq {positionId : Option String} {d : Entries} (hheld : x.engine.held positionId = some d) :
    ∃ symbol, (symbol, d) ∈ x.engine.openPositions.rows ∧
      getOrNone d "position_id" = (positionId.map Json.str).getD .null := by
  obtain ⟨p, hp, rfl⟩ := Option.map_eq_some_iff.mp hheld
  have hfound := List.find?_some hp
  exact ⟨p.1, List.mem_of_find?_eq_some hp, of_decide_eq_true hfound⟩

/-- The `strategy_runtime` of what is pushed for a position that is held. -/
lemma runtimeOk_pushSignal (h : Marked x) (hjson : x.json.Writes) {o : OpenedPosition}
    (ho : o ∈ x.opened) {signal signal' : RawSignal}
    (htype : signal.type ∈ [some "OPEN", some "MODIFY", some "CLOSE"])
    (hid : signal.positionId = some o.id) {d : Entries}
    (hheld : x.engine.held signal.positionId = some d)
    (hpush : x.engine.pushSignal x.json x.alphaId signal = some signal') :
    messageRuntime signal' ≠ none ∧
      ∀ runtime, messageRuntime signal' = some runtime → RuntimeOk x.claimed o runtime := by
  obtain ⟨symbol, hmem, hget⟩ := held_eq hheld
  obtain ⟨o', ho', hlocal⟩ := h.held _ hmem
  have hlocal : x.LocalOk symbol o' d := hlocal
  have hsame : o' = o := by
    refine h.opened_unique ho' ho ?_
    rw [getOrNone, hlocal.id, hid] at hget
    exact Json.str.inj hget
  rw [hsame] at hlocal
  have hruntime : RuntimeOk x.claimed o (serializePositionRuntime d) := hlocal.toFieldsOk.serialize
  rcases messageRuntime_pushSignal hjson htype hheld hpush with heq | heq <;> rw [heq]
  · exact ⟨Option.some_ne_none _, fun runtime hr => Option.some.inj hr ▸ hruntime⟩
  · exact ⟨Option.some_ne_none _, fun runtime hr => Option.some.inj hr ▸ hruntime.finite⟩

/-- One more message in the stream. -/
lemma withMessage (h : Marked x) {m : RawSignal}
    (hmessage : ∀ o ∈ x.opened, m.positionId = some o.id → x.MessageOk o m)
    (hopening : m.type = some "OPEN" → ∃ o ∈ x.opened, m.positionId = some o.id) :
    Marked { x with stream := x.stream ++ [m] } := by
  refine { h with held := ?_, stream := ?_, opening := ?_ }
  · intro p hp
    obtain ⟨o, ho, hlocal⟩ := h.held p hp
    exact ⟨o, ho, ⟨hlocal.toFieldsOk, hlocal.id, hlocal.symbol, hlocal.covered⟩⟩
  · intro m' hm' o ho hmid
    have hok : x.MessageOk o m' := by
      rcases List.mem_append.mp hm' with hm' | hm'
      · exact h.stream m' hm' o ho hmid
      · rw [List.mem_singleton.mp hm'] at hmid ⊢
        exact hmessage o ho hmid
    exact ⟨hok.runtime, hok.opens⟩
  · intro m' hm' htype
    rcases List.mem_append.mp hm' with hm' | hm'
    · exact h.opening m' hm' htype
    · rw [List.mem_singleton.mp hm'] at htype ⊢
      exact hopening htype

lemma push (h : Marked x) (hjson : x.json.Writes) {signal : RawSignal}
    (hcareful : x.Careful (.push signal)) : Marked (x.step (.push signal)) := by
  unfold CandleWorld.step
  dsimp only
  split
  · exact h
  rename_i hopen
  cases hpush : x.engine.pushSignal x.json x.alphaId signal with
  | none =>
    rw [Option.toList_none, List.append_nil]
    exact h
  | some m =>
  obtain ⟨htype, hid, -, hmetadata⟩ := pushSignal_fields hpush
  refine h.withMessage (fun o ho hmid => ⟨fun hm => ?_, fun hm => ?_⟩) fun hm => ?_
  · cases hheld : x.engine.held signal.positionId with
    | none =>
      intro runtime hr
      have hnone : messageRuntime m = messageRuntime signal := by
        rw [messageRuntime, hmetadata hheld]
        rfl
      rw [hnone, hcareful hheld] at hr
      cases hr
    | some d =>
      rw [htype] at hm
      rw [hid] at hmid
      exact (h.runtimeOk_pushSignal hjson ho hm hmid hheld hpush).2
  · exact absurd (htype.symm.trans hm) hopen
  · exact absurd (htype.symm.trans hm) hopen

/-! ## Opening a position -/

lemma get?_of_mem {d : Dict String Json} {p : String × Json} (hp : p ∈ d.rows) :
    Entries.get? d.rows p.1 = some p.2 := by
  cases hget : Entries.get? d.rows p.1 with
  | none => exact absurd hp (get?_eq_none.mp hget p.2)
  | some v =>
    have hsame := d.eq_of_key_eq hp (mem_of_get? hget) rfl
    exact congrArg (some ∘ Prod.snd) hsame.symm

/-- A position that is opened without a mark. -/
lemma fieldsOk_opened {claimed : List (String × ℤ)} {id symbol : String} {d : Dict String Json}
    (hmark : d.get? "last_strategy_candle_ms" = none) :
    FieldsOk claimed ⟨id, symbol, d.rows⟩ d.rows := by
  refine ⟨fun p hp => ⟨fun _ t ht => ?_, fun hk => ?_⟩, fun k _ hnone t ht => ?_⟩
  · have ht : candleMs d.rows p.1 = .ok t := ht
    rwa [candleMs, get?_of_mem hp] at ht
  · exfalso
    have hsome := (Dict.get?_some_iff d p.1 p.2).mpr hp
    rw [hk, hmark] at hsome
    cases hsome
  · have ht : candleMs d.rows k = .ok t := ht
    rw [candleMs, hnone] at ht
    exact (Except.ok.inj ht).symm

/-- A position is stored, before its OPEN is pushed. -/
lemma stores (h : Marked x) {id symbol : String} {d : Dict String Json} (hfresh : x.Fresh id)
    (hid : Entries.get? d.rows "position_id" = some (.str id))
    (hmark : d.get? "last_strategy_candle_ms" = none)
    (hopened : y.opened = x.opened ++ [⟨id, symbol, d.rows⟩]) (hclaimed : y.claimed = x.claimed)
    (hstream : y.stream = x.stream) (hpublish : y.publish = x.publish)
    (hheld : ∀ p ∈ y.engine.openPositions.rows, p = (symbol, d.rows) ∨
      (p ∈ x.engine.openPositions.rows ∧ p.1 ≠ symbol)) : Marked y := by
  obtain ⟨hne, hnew, hunused⟩ := hfresh
  have hsub : x.opened ⊆ y.opened := by
    rw [hopened]
    exact List.subset_append_left _ _
  have hsame : x.claimed ⊆ y.claimed := by rw [hclaimed]; exact List.Subset.refl _
  have hcandles : ∀ id, y.candles id = x.candles id := fun id => by rw [candles, hclaimed]; rfl
  have hnone : x.candles id = [] := by
    refine List.eq_nil_iff_forall_not_mem.mpr fun c hc => ?_
    obtain ⟨o, ho, heq⟩ := h.claims _ (mem_candles.mp hc)
    exact hnew o ho heq
  have hmem : ∀ o ∈ y.opened, o ∈ x.opened ∨ o = ⟨id, symbol, d.rows⟩ := by
    intro o ho
    rw [hopened] at ho
    exact (List.mem_append.mp ho).imp_right List.mem_singleton.mp
  refine ⟨fun o ho => ?_, ?_, fun p hp => ?_, fun m hm o ho hmid => ?_, fun m hm htype => ?_,
    fun row hrow => ?_, fun r v rows hcall row hrow => ?_, ?_, fun p hp => ?_, fun o ho => ?_⟩
  · rcases hmem o ho with ho | rfl
    · exact h.nonempty o ho
    · exact hne
  · rw [hopened, List.map_append]
    refine List.nodup_append.mpr ⟨h.once, List.nodup_singleton _, fun a ha b hb => ?_⟩
    obtain ⟨o, ho, rfl⟩ := List.mem_map.mp ha
    rw [List.mem_singleton.mp hb]
    exact hnew o ho
  · rcases hheld p hp with rfl | ⟨hp, -⟩
    · have hnew : (⟨id, symbol, d.rows⟩ : OpenedPosition) ∈ y.opened := by
        rw [hopened]
        exact List.mem_append_right _ (List.mem_singleton_self _)
      refine ⟨_, hnew, ⟨fieldsOk_opened hmark, hid, rfl, fun c hc => ?_⟩⟩
      have hc : c ∈ y.candles id := hc
      rw [hcandles, hnone] at hc
      cases hc
    · obtain ⟨o, ho, hlocal⟩ := h.held p hp
      refine ⟨o, hsub ho, ⟨hlocal.toFieldsOk.mono hsame, hlocal.id, hlocal.symbol, ?_⟩⟩
      rw [hcandles]
      exact hlocal.covered
  · rw [hstream] at hm
    rcases hmem o ho with ho | rfl
    · have hold := h.stream m hm o ho hmid
      exact ⟨fun htype runtime hr => (hold.runtime htype runtime hr).mono hsame, hold.opens⟩
    · exact absurd hmid (hunused m hm)
  · rw [hstream] at hm
    obtain ⟨o, ho, hmid⟩ := h.opening m hm htype
    exact ⟨o, hsub ho, hmid⟩
  · rw [hpublish] at hrow
    exact RowOk_mono (h.rows row hrow) hsub hsame
  · rw [hpublish] at hcall
    exact RowOk_mono (h.reads r v rows hcall row hrow) hsub hsame
  · rw [hpublish]
    exact h.published_mono hsub hsame
  · rw [hclaimed] at hp
    obtain ⟨o, ho, heq⟩ := h.claims p hp
    exact ⟨o, hsub ho, heq⟩
  · rw [hcandles]
    rcases hmem o ho with ho | rfl
    · exact h.result o ho
    · have hnone : x.candles (OpenedPosition.mk id symbol d.rows).id = [] := hnone
      rw [hnone]
      exact ⟨List.Pairwise.nil, fun c hc => absurd hc List.not_mem_nil⟩

lemma opens (h : Marked x) (hjson : x.json.Writes) {id symbol : String} {d : Dict String Json}
    {signal : RawSignal} (hfresh : x.Fresh id) (hmark : d.get? "last_strategy_candle_ms" = none) :
    Marked (x.opens id symbol d signal) := by
  have hid : Entries.get? (d.set "position_id" (.str id)).rows "position_id" = some (.str id) :=
    get?_of_mem (p := ("position_id", .str id)) ((Dict.mem_set _ _ _ _).mpr (.inl rfl))
  have hmark' : (d.set "position_id" (.str id)).get? "last_strategy_candle_ms" = none := by
    rw [Dict.get?_set, if_neg (by decide), hmark]
  let o : OpenedPosition := ⟨id, symbol, (d.set "position_id" (.str id)).rows⟩
  let engine : BaseEngine :=
    { x.engine with openPositions := x.engine.openPositions.set symbol o.position }
  let z : CandleWorld := { x with engine, opened := x.opened ++ [o] }
  have hz : Marked z := h.stores hfresh hid hmark' rfl rfl rfl rfl fun p hp =>
    (Dict.mem_set _ _ _ _).mp hp
  have ho : o ∈ z.opened := List.mem_append_right _ (List.mem_singleton_self _)
  have hstored : (symbol, o.position) ∈ engine.openPositions.rows :=
    (Dict.mem_set _ _ _ _).mpr (.inl rfl)
  -- the position is found when its OPEN is pushed
  have hheld : engine.held (some id) ≠ none := by
    intro hnone
    have hfind := List.find?_eq_none.mp (Option.map_eq_none_iff.mp hnone) _ hstored
    refine hfind (decide_eq_true ?_)
    rw [getOrNone, hid]
    rfl
  obtain ⟨position, hposition⟩ := Option.ne_none_iff_exists'.mp hheld
  unfold CandleWorld.opens
  dsimp only
  generalize hsignal : ({ signal with
    type := some "OPEN", positionId := some id, symbol := some symbol } : RawSignal) = sent
  have htype : sent.type = some "OPEN" := by rw [← hsignal]
  have hsent : sent.positionId = some id := by rw [← hsignal]
  have hsymbol : sent.symbol = some symbol := by rw [← hsignal]
  cases hpush : engine.pushSignal x.json x.alphaId sent with
  | none =>
    rw [Option.toList_none, List.append_nil]
    exact hz
  | some m =>
  obtain ⟨hmtype, hmid, hmsymbol, -⟩ := pushSignal_fields hpush
  have hruntime := hz.runtimeOk_pushSignal hjson ho (by rw [htype]; decide) hsent
    (by rw [hsent]; exact hposition) hpush
  refine hz.withMessage (fun o' ho' hid' => ?_) fun _ => ⟨o, ho, hmid.trans hsent⟩
  have hsame : o' = o := by
    refine hz.opened_unique ho' ho ?_
    rw [hmid, hsent] at hid'
    exact (Option.some.inj hid').symm
  rw [hsame]
  exact ⟨fun _ => hruntime.2, fun _ => ⟨hmsymbol.trans hsymbol, hruntime.1⟩⟩

/-! ## Steps of the worker -/

lemma process (h : Marked x) (env : Env) : Marked (x.step (.process env)) := by
  unfold CandleWorld.step
  dsimp only
  split
  · exact h
  rename_i m rest hstream
  have hm : m ∈ x.stream := hstream ▸ List.mem_cons_self ..
  have hrest : ∀ m' ∈ rest, m' ∈ x.stream := fun m' hm' => hstream ▸ List.mem_cons_of_mem _ hm'
  refine { h with
    held := ?_
    stream := fun m' hm' o ho hid => ?_
    opening := fun m' hm' => h.opening m' (hrest m' hm')
    rows := fun row hrow => ?_ }
  · intro p hp
    obtain ⟨o, ho, hlocal⟩ := h.held p hp
    exact ⟨o, ho, ⟨hlocal.toFieldsOk, hlocal.id, hlocal.symbol, hlocal.covered⟩⟩
  · have hold := h.stream m' (hrest m' hm') o ho hid
    exact ⟨hold.runtime, hold.opens⟩
  · cases deliver_runtime x.executor ⟨m, env⟩ x.publish.tables hrow with
    | kept hp hid hsymbol hruntime =>
      obtain ⟨o, ho, hoid, hosymbol, runtime, hr, hok⟩ := h.rows _ hp
      exact ⟨o, ho, hid.trans hoid, hsymbol.trans hosymbol, runtime, hruntime.trans hr, hok⟩
    | opened htype hid hsymbol hruntime =>
      have htype : m.type = some "OPEN" := htype
      obtain ⟨o, ho, hmid⟩ := h.opening m hm htype
      have hmessage := h.stream m hm o ho hmid
      obtain ⟨hmsymbol, hsome⟩ := hmessage.opens htype
      obtain ⟨runtime, hr⟩ := Option.ne_none_iff_exists'.mp hsome
      have hrow : row.positionId = o.id := by
        have hid : row.positionId = if m.positionId.getD "" = "" then env.uuid
          else m.positionId.getD "" := hid
        rw [hid, hmid, Option.getD_some, if_neg (h.nonempty o ho)]
      have hsymbol : m.symbol = some row.symbol := hsymbol
      refine ⟨o, ho, hrow, Option.some.inj (hsymbol.symm.trans hmsymbol), runtime,
        hruntime.trans hr, hmessage.runtime (by rw [htype]; decide) runtime hr⟩
    | @merged p runtime htype hp hid hnames hsymbol hmessage hruntime =>
      obtain ⟨o, ho, hoid, hosymbol, existing, hr, hok⟩ := h.rows _ hp
      have hmid : m.positionId = some o.id := by
        have hnames : p.positionId = m.positionId.getD "" := hnames
        cases hmid : m.positionId with
        | none =>
          rw [hmid, hoid] at hnames
          exact absurd hnames (h.nonempty o ho)
        | some id =>
          rw [hmid, hoid] at hnames
          exact congrArg some hnames.symm
      have hin : m.type ∈ [some "OPEN", some "MODIFY", some "CLOSE"] := List.mem_cons_of_mem _ htype
      have hnew := (h.stream m hm o ho hmid).runtime hin runtime hmessage
      refine ⟨o, ho, hid.trans hoid, hsymbol.trans hosymbol, _, hruntime, ?_⟩
      rw [hr]
      exact hok.update hnew

lemma publishes (h : Marked x) {event : PublishEvent} (hevent : ∀ tables, event ≠ .commit tables) :
    Marked { x with publish := x.publish.step x.alphaId event } := by
  obtain ⟨htables, -, hcalls, hwritten⟩ := publish_step x.alphaId hevent
  refine { h with
    held := ?_
    stream := fun m hm o ho hid => ⟨(h.stream m hm o ho hid).runtime, (h.stream m hm o ho hid).opens⟩
    rows := fun row hrow => ?_
    reads := fun r v rows hcall row hrow => ?_
    published := fun w hw => ?_ }
  · intro p hp
    obtain ⟨o, ho, hlocal⟩ := h.held p hp
    exact ⟨o, ho, ⟨hlocal.toFieldsOk, hlocal.id, hlocal.symbol, hlocal.covered⟩⟩
  · rw [htables] at hrow
    exact h.rows row hrow
  · rcases hcalls r v rows hcall with hcall | ⟨-, rfl⟩
    · exact h.reads r v rows hcall row hrow
    · exact h.rows row (mem_allOpenPositions hrow)
  · rcases hwritten w hw with hw | ⟨r, rows, hcall, hpositions⟩
    · exact h.published w hw
    · exact ⟨rows, hpositions, fun row hrow => h.reads r _ rows hcall row hrow⟩

/-! ## Reconciling -/

/-- The rows of the stored snapshot. -/
lemma stored_rows (h : Marked x) {snapshot : Entries}
    (hparse : parseSnapshot x.publish.storedText = some snapshot) : ∃ s,
      x.publish.stored = some s ∧ snapshot = s.entries ∧ ∀ p ∈ (authoritative s.entries).rows,
        ∃ row, p.2 = (publishedPosition row).entries ∧ row.positionId = p.1 ∧ x.RowOk row := by
  cases hstored : x.publish.stored with
  | none =>
    rw [PublishState.storedText, hstored] at hparse
    cases hparse
  | some s =>
  rw [PublishState.storedText, hstored, Option.map_some, parseSnapshot_entries] at hparse
  refine ⟨s, rfl, (Option.some.inj hparse).symm, fun p hp => ?_⟩
  obtain ⟨w, hw, rfl⟩ := Option.map_eq_some_iff.mp hstored
  obtain ⟨rows, hrows, hok⟩ := h.published w (List.mem_of_getLast? hw)
  obtain ⟨hmem, hid⟩ := BaseEngine.mem_authoritative hp
  obtain ⟨published, hpublished, heq⟩ := mem_snapshotPositions hmem
  rw [hrows] at hpublished
  obtain ⟨row, hrow, rfl⟩ := List.mem_map.mp hpublished
  rw [heq] at hid
  exact ⟨row, heq, positionId?_entries hid, hok row hrow⟩

lemma reconcile (h : Marked x) (hsaved : x.Saved) (now : DateTime) :
    Marked (x.step (.reconcile now)) := by
  refine h.of_engine fun r hr => ?_
  rcases BaseEngine.mem_reconcilePositions hr with hr | ⟨snapshot, hparse, p, hp, v, hnormalize,
    hsymbol, hkey⟩
  · exact h.held r hr
  obtain ⟨s, hstored, rfl, hrows⟩ := h.stored_rows hparse
  obtain ⟨row, hp2, hrowId, o, ho, hoid, hosymbol, runtime, hruntime, hok⟩ := hrows p hp
  have hread : runtimeOf (metadataOf p.2) = some runtime := by
    rw [hp2, runtimeOf_publishedPosition, hruntime]
  obtain ⟨hfields, hmark⟩ := fieldsOk_normalizePosition hread hok hnormalize
  have hclean : CleanRow p.2 := by
    intro runtime' hr'
    rw [hread] at hr'
    cases hr'
    exact hok.clean
  obtain ⟨idv, symbolv, hidItem, hidGet, hsymbolItem, hsymbolGet⟩ :=
    normalizePosition_keeps hclean hnormalize
  rw [hp2] at hidItem hsymbolItem
  have hidv : idv = .str row.positionId := (Except.ok.inj hidItem).symm
  have hsymbolv : symbolv = .str row.symbol := (Except.ok.inj hsymbolItem).symm
  refine ⟨o, ho, ⟨hfields, ?_, ?_, fun c hc => ?_⟩⟩
  · rw [hidGet, hidv, ← hoid]
    rfl
  · rw [hkey, ← hosymbol]
    rw [hsymbolGet, hsymbolv] at hsymbol
    rw [← Option.some.inj hsymbol]
    rfl
  · -- the row has the mark of the claim
    have hc' : c ∈ x.candles p.1 := by
      rw [← hrowId, hoid]
      exact hc
    obtain ⟨runtime', hr', ⟨p', hp', hkey'⟩, hall⟩ := hsaved s hstored p hp c hc'
    rw [hread] at hr'
    cases hr'
    have hsome : runtime.get? "last_strategy_candle_ms" ≠ none :=
      fun hnone => get?_eq_none.mp hnone p'.2 (hkey' ▸ hp')
    obtain ⟨v, hget, hmem⟩ := hmark hsome
    obtain ⟨m, hm, hle⟩ := hall _ hmem rfl
    refine ⟨m, ?_, hle⟩
    cases v with
    | int m' =>
      rw [hget, Option.mem_some_iff.mp hm]
    | _ => cases hm

/-! ## Runs -/

lemma step (h : Marked x) (hjson : x.json.Writes) {a : CandleStep} (hcareful : x.Careful a) :
    Marked (x.step a) := by
  cases a with
  | opens id symbol d signal =>
    unfold CandleWorld.step
    dsimp only
    split
    · rename_i hfresh
      exact h.opens hjson hfresh hcareful
    · exact h
  | claim symbol c => exact h.claim symbol c
  | push signal => exact h.push hjson hcareful
  | closes symbol => exact h.closes symbol
  | process env => exact h.process env
  | publish => exact h.publishes fun _ heq => by cases heq
  | turn i clock => exact h.publishes fun _ heq => by cases heq
  | reconcile now => exact h.reconcile hcareful now

end Marked

lemma json_step (x : CandleWorld) (a : CandleStep) : (x.step a).json = x.json := by
  cases a with
  | claim symbol c =>
    unfold step
    dsimp only
    split
    · unfold CandleWorld.claim
      split <;> rfl
    · rfl
  | opens id symbol position signal =>
    unfold step
    dsimp only
    split <;> rfl
  | push signal =>
    unfold step
    dsimp only
    split <;> rfl
  | process env =>
    unfold step
    dsimp only
    split <;> rfl
  | closes symbol => rfl
  | publish => rfl
  | turn i clock => rfl
  | reconcile now => rfl

lemma Marked.steps {x : CandleWorld} (h : Marked x) (hjson : x.json.Writes) {l : List CandleStep}
    (hcareful : x.AllCareful l) : Marked (x.steps l) := by
  induction l generalizing x with
  | nil => exact h
  | cons a l ih =>
    refine ih (h.step hjson hcareful.1) ?_ hcareful.2
    rw [json_step]
    exact hjson

/-- In a careful run the candles that are claimed for a position rise, and all of them are after its
entry candle. -/
theorem claimed_once (alphaId : String) (config : ReconcileConfig) (json : JsonUtils)
    (executor : Executor) (hjson : json.Writes) (l : List CandleStep)
    (hcareful : AllCareful { alphaId, config, json, executor } l) :
    ClaimedOnce (steps { alphaId, config, json, executor } l) :=
  ((Marked.init alphaId config json executor).steps hjson hcareful).result

/-! ## A run that is careful and one that is not -/

/-- A world with the settings of a test. -/
def testWorld : CandleWorld :=
  { alphaId := "a", config := {}, json := .standard, executor := {} }

/-- A position as a strategy stores it. -/
def testPosition : Dict String Json :=
  Dict.collect some [("side", .str "LONG"), ("entry", .float (.fin 100)),
    ("entry_candle_open_ms", .int 1000), ("signal_candle_close_ms", .int 1900)]

/-- What the strategy passes with its OPEN. -/
def testOpen : RawSignal :=
  { signalId := some "s1", side := some "LONG", entry := some (.num (.fin 100)),
    qty := some (.num (.fin 2)), timestamp := some "t0" }

/-- What the strategy passes with a MODIFY. -/
def testModify : RawSignal :=
  { type := some "MODIFY", signalId := some "s2", positionId := some "p1", timestamp := some "t1" }

/-- The worker processes the next signal and publishes. -/
def published : List CandleStep :=
  [.process { now := "t2", uuid := "u" }, .publish, .turn 0 "t3", .turn 0 "t4", .turn 0 "t5"]

/-- A candle is claimed, and the claim is pushed, processed and published before the next
reconciliation. -/
def carriedRun : List CandleStep :=
  [.opens "p1" "BTCUSDT" testPosition testOpen] ++ published ++
    [.claim "BTCUSDT" 1900, .push testModify] ++ published ++
    [.reconcile ⟨0, some 0⟩, .claim "BTCUSDT" 1900, .claim "BTCUSDT" 2800]

theorem claimed_once_carried : ClaimedOnce (testWorld.steps carriedRun) :=
  claimed_once "a" {} .standard {} JsonUtils.writes_standard carriedRun (by decide +kernel)

/-- A candle is claimed, and nothing is pushed before the next reconciliation. -/
def forgottenRun : List CandleStep :=
  [.opens "p1" "BTCUSDT" testPosition testOpen] ++ published ++
    [.claim "BTCUSDT" 1900, .reconcile ⟨0, some 0⟩, .claim "BTCUSDT" 1900]

/-- The reconciliation brings the position back as its OPEN has carried it, and the candle is claimed
again. -/
theorem claimed_twice : ¬ ∀ (alphaId : String) (config : ReconcileConfig) (json : JsonUtils)
    (executor : Executor), json.Writes → ∀ l : List CandleStep,
      ClaimedOnce (steps { alphaId, config, json, executor } l) := by
  intro h
  have hclaimed := h "a" {} .standard {} JsonUtils.writes_standard forgottenRun
  have hopened : (testWorld.steps forgottenRun).opened.map OpenedPosition.id = ["p1"] := by
    decide +kernel
  obtain ⟨o, ho, hid⟩ := List.mem_map.mp (hopened ▸ List.mem_singleton_self "p1")
  have hcandles : (testWorld.steps forgottenRun).candles "p1" = [1900, 1900] := by decide +kernel
  have hrising := (hclaimed o ho).1
  rw [hid] at hrising
  have hrising : ((testWorld.steps forgottenRun).candles "p1").Pairwise (· < ·) := hrising
  rw [hcandles] at hrising
  exact absurd hrising (by decide)

end CandleWorld

end PaperTrade.Base
