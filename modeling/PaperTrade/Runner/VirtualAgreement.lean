import PaperTrade.Runner.VirtualTradeLedger
import PaperTrade.Worker.VirtualLedger

/-!
# The publisher and the worker agree on the virtual ledger

The publisher keeps its open positions, the worker the rows that the published events leave behind;
only the ids link the two. `Lockstep` ties them together after every event: the rows are the open
positions, and what the worker has recorded is named by keys (a symbol and a candle) that were
opened before. A close and an open keep it (`Lockstep.close`, `Lockstep.opened`) as long as no key is
opened twice, which is what a candle that is rebalanced twice can break.
-/

namespace PaperTrade.Runner

open PaperTrade.Runtime PaperTrade.Worker

/-! ## Applying the stream -/

/-- Events of the stream, each with the worker's clock when it is applied. -/
abbrev Feed := List (String × Entries)

/-- The tables after the worker has applied every event once. -/
def applied (s : Tables) (feed : Feed) : Tables :=
  feed.foldl (fun s e => applyVirtual e.1 s e.2) s

/-- Every event is accepted: none raises, and none is taken for a known one. -/
def Accepted : Tables → Feed → Prop
  | _, [] => True
  | s, e :: feed => (∃ v, virtualReply e.1 s e.2 = .ok (some v)) ∧
    Accepted (applyVirtual e.1 s e.2) feed

instance (r : Except PyError (Option VirtualResult)) : Decidable (∃ v, r = .ok (some v)) :=
  match r with
  | .ok (some v) => .isTrue ⟨v, rfl⟩
  | .ok none => .isFalse fun ⟨_, h⟩ => nomatch h
  | .error _ => .isFalse fun ⟨_, h⟩ => nomatch h

instance decidableAccepted : (s : Tables) → (feed : Feed) → Decidable (Accepted s feed)
  | _, [] => .isTrue trivial
  | s, e :: feed => @instDecidableAnd _ _ _ (decidableAccepted (applyVirtual e.1 s e.2) feed)

lemma accepted_append {s : Tables} {feed feed' : Feed} (h : Accepted s feed)
    (h' : Accepted (applied s feed) feed') : Accepted s (feed ++ feed') := by
  induction feed generalizing s with
  | nil => exact h'
  | cons e feed ih => exact ⟨h.1, ih h.2 h'⟩

lemma applied_append (s : Tables) (feed feed' : Feed) :
    applied s (feed ++ feed') = applied (applied s feed) feed' := List.foldl_append ..

/-- What both sides know of an open position. -/
structure Holding where
  positionId : String
  alphaId : String
  symbol : String
  side : String
  entryPrice : Option PyFloat
  qty : Option PyFloat
  openedAt : String
  exchange : String
deriving DecidableEq

/-- A row of `virtual_positions` as a holding. -/
def holdingOf (row : VirtualPositionRow) : Holding where
  positionId := row.positionId
  alphaId := row.alphaId
  symbol := row.symbol
  side := row.side
  entryPrice := row.entryPrice
  qty := row.qty
  openedAt := row.openedAt
  exchange := row.exchange

/-- What a rebalance gives a weight and a price. -/
def Rebalance.Opens (r : Rebalance) (symbol : String) (weight : PyFloat) : Prop :=
  r.weights.get? symbol = some weight ∧ weight ≠ 0 ∧ ¬ r.price symbol ≤ 0

/-- The key a position is named by. -/
def LedgerPosition.key (p : LedgerPosition) : String × ℤ := (p.symbol, p.entryCandleOpenMs)

namespace VirtualTradeLedger

variable (x : VirtualTradeLedger) (stableId : List String → String)

/-- A position of the publisher as a holding. -/
def holding (p : LedgerPosition) : Holding where
  positionId := p.positionId
  alphaId := x.alphaId
  symbol := p.symbol
  side := p.side
  entryPrice := some p.entryPrice
  qty := some p.qty
  openedAt := p.openedAt
  exchange := x.exchange

/-- The id of a key. -/
def idAt (k : String × ℤ) : String := x.positionIdAt stableId k.1 k.2

/-! ## The ids -/

section Ids

variable {x stableId} (hid : Function.Injective stableId)

include hid

lemma idAt_injective : Function.Injective (x.idAt stableId) := by
  intro k k' h
  have hparts := hid h
  simp only [List.cons.injEq, true_and, and_true] at hparts
  exact Prod.ext hparts.1 (toString_int_injective hparts.2)

lemma openId_injective : Function.Injective (openId stableId) := by
  intro a b h
  have hparts := hid h
  simp only [List.cons.injEq, true_and, and_true] at hparts
  exact hparts

lemma closeId_left {a b : String} {m n : ℤ} (h : closeId stableId a m = closeId stableId b n) :
    a = b := by
  have hparts := hid h
  simp only [List.cons.injEq, true_and, and_true] at hparts
  exact hparts.1

lemma openId_ne_closeId (a b : String) (m : ℤ) : openId stableId a ≠ closeId stableId b m := by
  intro h
  have hparts := hid h
  simp at hparts

end Ids

/-! ## Reading the events -/

variable {x stableId}

lemma closeEvent_ids (r : Rebalance) (p : LedgerPosition) :
    EventIds (x.closeEvent stableId r p) (closeId stableId p.positionId r.candleOpenMs)
      "VIRTUAL_CLOSE" x.alphaId :=
  ⟨rfl, rfl, rfl⟩

lemma openEvent_ids (r : Rebalance) (p : LedgerPosition) :
    EventIds (x.openEvent stableId r p) (openId stableId p.positionId) "VIRTUAL_OPEN" x.alphaId :=
  ⟨rfl, rfl, rfl⟩

variable (x stableId) in
lemma strItem_closeEvent (r : Rebalance) (p : LedgerPosition) :
    strItem (x.closeEvent stableId r p) "position_id" = .ok p.positionId ∧
      strItem (x.closeEvent stableId r p) "timestamp" = .ok r.eventAt ∧
      floatItem (x.closeEvent stableId r p) "price" = .ok (r.price p.symbol) :=
  ⟨rfl, rfl, rfl⟩

variable (x stableId) in
/-- The row of a `VIRTUAL_OPEN` holds what the publisher holds. -/
lemma virtualRow_openEvent (r : Rebalance) {p : LedgerPosition} (eventId : String)
    (hprice : p.entryPrice ≠ .nan) (hqty : p.qty ≠ .nan) (hat : p.openedAt = r.eventAt) :
    ∃ row, virtualRow (x.openEvent stableId r p) x.alphaId eventId = .ok row ∧
      holdingOf row = x.holding p := by
  refine ⟨_, rfl, ?_⟩
  simp only [holdingOf, holding, real_of_ne_nan hprice, real_of_ne_nan hqty, hat]
  rfl

/-! ## One event -/

variable (x stableId)

/-- The worker's virtual tables against the open positions of the publisher and the keys that were
opened so far. -/
structure Lockstep (s : Tables) (held : List LedgerPosition) (used : List (String × ℤ)) : Prop where
  rows : s.virtualPositions.rows.map holdingOf = held.map x.holding
  ids : ∀ p ∈ held, p.positionId = x.idAt stableId p.key
  keys : (held.map LedgerPosition.key).Nodup
  keys_used : ∀ p ∈ held, p.key ∈ used
  times : ∀ p ∈ held, ∃ d, DateTime.parse p.openedAt = some d ∧ d.isAware = true
  recorded : ∀ e ∈ s.virtualTradeEvents.rows, ∃ k ∈ used, e.eventId = openId stableId (x.idAt stableId k) ∨
    (k ∉ held.map LedgerPosition.key ∧ ∃ ms, e.eventId = closeId stableId (x.idAt stableId k) ms)
  booked : ∀ t ∈ s.virtualTrades.rows, ∃ k ∈ used, k ∉ held.map LedgerPosition.key ∧
    t.tradeId = x.idAt stableId k

variable {x stableId}

lemma Lockstep.row {s : Tables} {held : List LedgerPosition} {used : List (String × ℤ)}
    (h : x.Lockstep stableId s held used) {p : LedgerPosition} (hp : p ∈ held) :
    ∃ row, s.virtualPositions.find? p.positionId = some row ∧ holdingOf row = x.holding p := by
  have hmem : x.holding p ∈ s.virtualPositions.rows.map holdingOf := by
    rw [h.rows]
    exact List.mem_map_of_mem hp
  obtain ⟨row, hrow, hheld⟩ := List.mem_map.mp hmem
  have hid : row.positionId = p.positionId := congrArg Holding.positionId hheld
  exact ⟨row, (s.virtualPositions.find?_some_iff _ _).mpr ⟨hrow, hid⟩, hheld⟩

/-- A held position is not among those that are gone. -/
lemma Lockstep.fresh {s : Tables} {held : List LedgerPosition} {used : List (String × ℤ)}
    (hid : Function.Injective stableId) (h : x.Lockstep stableId s held used) {p : LedgerPosition}
    (hp : p ∈ held) {k : String × ℤ} (hk : k ∉ held.map LedgerPosition.key) :
    p.positionId ≠ x.idAt stableId k := by
  intro heq
  rw [h.ids p hp] at heq
  exact hk (idAt_injective hid heq ▸ List.mem_map_of_mem hp)

/-- The close of a held position is accepted. -/
lemma Lockstep.close {s : Tables} {held : List LedgerPosition} {used : List (String × ℤ)}
    (hid : Function.Injective stableId) (h : x.Lockstep stableId s held used) {p : LedgerPosition}
    (hp : p ∈ held) (now : String) {r : Rebalance} {closed : DateTime}
    (htime : DateTime.parse r.eventAt = some closed) (haware : closed.isAware = true)
    (hend : isTcbs (exchangeOr x.exchange) = true → ∀ opened,
      DateTime.parse p.openedAt = some opened → EndsInCalendar opened closed) :
    (∃ v, virtualReply now s (x.closeEvent stableId r p) = .ok (some v)) ∧
      x.Lockstep stableId (applyVirtual now s (x.closeEvent stableId r p))
        (held.filter fun q => q.positionId ≠ p.positionId) used := by
  obtain ⟨row, hfind, hheld⟩ := h.row hp
  obtain ⟨opened, hopened, hopenedAware⟩ := h.times p hp
  obtain ⟨hposition, hat, hprice⟩ := strItem_closeEvent x stableId r p
  have hrowId : row.positionId = p.positionId := congrArg Holding.positionId hheld
  have hrowTime : row.openedAt = p.openedAt := congrArg Holding.openedAt hheld
  have hrowExchange : row.exchange = x.exchange := congrArg Holding.exchange hheld
  have hnew : s.virtualTradeEvents.contains (closeId stableId p.positionId r.candleOpenMs) = false := by
    rw [Table.not_contains_iff]
    intro e he heq
    obtain ⟨k, -, hopen | ⟨hk, ms, hclose⟩⟩ := h.recorded e he
    · exact openId_ne_closeId hid _ _ _ (hopen.symm.trans heq)
    · exact h.fresh hid hp hk (closeId_left hid (heq.symm.trans hclose))
  obtain ⟨pnl, trade, htrade⟩ := virtualTrade_ok x.alphaId
    (closeId stableId p.positionId r.candleOpenMs) hprice
    (congrArg Holding.qty hheld) (congrArg Holding.entryPrice hheld) (hrowTime ▸ hopened) hat htime
    (haware.trans hopenedAware.symm) fun htcbs => hend (hrowExchange ▸ htcbs) opened hopened
  have hfree : s.virtualTrades.contains trade.tradeId = false := by
    rw [Table.not_contains_iff, (virtualTrade_ids htrade).1, hrowId]
    intro t ht heq
    obtain ⟨k, -, hk, htid⟩ := h.booked t ht
    exact h.fresh hid hp hk (heq.symm.trans htid)
  obtain ⟨v, trades, events, hreply, htrades, ⟨-, hevents⟩, hstate⟩ :=
    (applyVirtual_cases now (x.closeEvent stableId r p) s).accepts_close (closeEvent_ids r p) hnew
      (hrowId ▸ hposition) (hrowId ▸ hfind) htrade hfree
  refine ⟨⟨v, hreply⟩, ?_⟩
  rw [hstate]
  -- the key of the closed position is no longer held
  have hgone : p.key ∉ (held.filter fun q => q.positionId ≠ p.positionId).map LedgerPosition.key := by
    intro hmem
    obtain ⟨q, hq, hkey⟩ := List.mem_map.mp hmem
    obtain ⟨hq, hne⟩ := List.mem_filter.mp hq
    simp only [h.ids q hq, h.ids p hp, hkey, decide_not, decide_true, Bool.not_true] at hne
    cases hne
  have hsub : (held.filter fun q => q.positionId ≠ p.positionId).Sublist held :=
    List.filter_sublist
  have hstill : ∀ k, k ∉ held.map LedgerPosition.key →
      k ∉ (held.filter fun q => q.positionId ≠ p.positionId).map LedgerPosition.key :=
    fun k hk hmem => hk ((hsub.map _).subset hmem)
  refine ⟨?_, fun q hq => h.ids q (hsub.subset hq), h.keys.sublist (hsub.map _),
    fun q hq => h.keys_used q (hsub.subset hq), fun q hq => h.times q (hsub.subset hq), ?_, ?_⟩
  · have hrows := congrArg (List.filter fun g => decide (g.positionId ≠ p.positionId)) h.rows
    rw [List.filter_map, List.filter_map] at hrows
    rw [hrowId]
    exact hrows
  · intro e he
    change e ∈ events.rows at he
    rw [hevents, List.mem_append, List.mem_singleton] at he
    rcases he with he | rfl
    · obtain ⟨k, hk, hopen | ⟨hgone', hclose⟩⟩ := h.recorded e he
      · exact ⟨k, hk, .inl hopen⟩
      · exact ⟨k, hk, .inr ⟨hstill k hgone', hclose⟩⟩
    · exact ⟨p.key, h.keys_used p hp, .inr ⟨hgone, r.candleOpenMs, by rw [h.ids p hp]⟩⟩
  · intro t ht
    change t ∈ trades.rows at ht
    rw [htrades, List.mem_append, List.mem_singleton] at ht
    rcases ht with ht | rfl
    · obtain ⟨k, hk, hgone', htid⟩ := h.booked t ht
      exact ⟨k, hk, hstill k hgone', htid⟩
    · exact ⟨p.key, h.keys_used p hp, hgone, by rw [(virtualTrade_ids htrade).1, hrowId, h.ids p hp]⟩

/-- The open of a position under a new key is accepted. -/
lemma Lockstep.opened {s : Tables} {held : List LedgerPosition} {used : List (String × ℤ)}
    (hid : Function.Injective stableId) (h : x.Lockstep stableId s held used) {p : LedgerPosition}
    (now : String) {r : Rebalance} (hpid : p.positionId = x.idAt stableId p.key)
    (hkey : p.key ∉ used) (hprice : p.entryPrice ≠ .nan) (hqty : p.qty ≠ .nan)
    (hat : p.openedAt = r.eventAt)
    (htime : ∃ d, DateTime.parse r.eventAt = some d ∧ d.isAware = true) :
    (∃ v, virtualReply now s (x.openEvent stableId r p) = .ok (some v)) ∧
      x.Lockstep stableId (applyVirtual now s (x.openEvent stableId r p)) (held ++ [p])
        (used ++ [p.key]) := by
  have hne : ∀ k ∈ used, p.positionId ≠ x.idAt stableId k := by
    intro k hk heq
    rw [hpid] at heq
    exact hkey (idAt_injective hid heq ▸ hk)
  have hnew : s.virtualTradeEvents.contains (openId stableId p.positionId) = false := by
    rw [Table.not_contains_iff]
    intro e he heq
    obtain ⟨k, hk, hopen | ⟨-, ms, hclose⟩⟩ := h.recorded e he
    · exact hne k hk (openId_injective hid (heq.symm.trans hopen))
    · exact openId_ne_closeId hid _ _ _ (heq.symm.trans hclose)
  obtain ⟨row, hrow, hheld⟩ := virtualRow_openEvent x stableId r
    (openId stableId p.positionId) hprice hqty hat
  have hrowId : row.positionId = p.positionId := congrArg Holding.positionId hheld
  have hfree : s.virtualPositions.contains row.positionId = false := by
    rw [Table.not_contains_iff, hrowId]
    intro row' hrow' heq
    have hmem : holdingOf row' ∈ held.map x.holding := h.rows ▸ List.mem_map_of_mem hrow'
    obtain ⟨q, hq, hheld'⟩ := List.mem_map.mp hmem
    have hqid : q.positionId = row'.positionId := congrArg Holding.positionId hheld'
    exact hne q.key (h.keys_used q hq) (by rw [← h.ids q hq, hqid, heq])
  obtain ⟨v, events, hreply, ⟨-, hevents⟩, hstate⟩ :=
    (applyVirtual_cases now (x.openEvent stableId r p) s).accepts_open (openEvent_ids r p) hnew hrow
  refine ⟨⟨v, hreply⟩, ?_⟩
  rw [hstate]
  have hused : p.key ∉ held.map LedgerPosition.key := by
    intro hmem
    obtain ⟨q, hq, heq⟩ := List.mem_map.mp hmem
    exact hkey (heq ▸ h.keys_used q hq)
  -- a key that is gone is not the new one
  have hstill : ∀ k ∈ used, k ∉ held.map LedgerPosition.key →
      k ∉ (held ++ [p]).map LedgerPosition.key := by
    intro k hk hgone hmem
    rw [List.map_append, List.mem_append] at hmem
    rcases hmem with hmem | hmem
    · exact hgone hmem
    · rw [List.map_singleton, List.mem_singleton] at hmem
      exact hkey (hmem ▸ hk)
  refine ⟨?_, ?_, ?_, ?_, ?_, ?_, ?_⟩
  · change (s.virtualPositions.insertOrIgnore row).rows.map holdingOf = _
    rw [Table.rows_insertOrIgnore_of_not_contains hfree, List.map_append, List.map_append, h.rows,
      List.map_singleton, List.map_singleton, hheld]
  · intro q hq
    rw [List.mem_append, List.mem_singleton] at hq
    rcases hq with hq | rfl
    · exact h.ids q hq
    · exact hpid
  · rw [List.map_append, List.map_singleton, List.nodup_append]
    refine ⟨h.keys, List.nodup_singleton _, ?_⟩
    intro k hk k' hk' heq
    rw [List.mem_singleton] at hk'
    exact hused (hk' ▸ heq ▸ hk)
  · intro q hq
    rw [List.mem_append, List.mem_singleton] at hq
    rcases hq with hq | rfl
    · exact List.mem_append_left _ (h.keys_used q hq)
    · exact List.mem_append_right _ (List.mem_singleton_self _)
  · intro q hq
    rw [List.mem_append, List.mem_singleton] at hq
    rcases hq with hq | rfl
    · exact h.times q hq
    · rw [hat]
      exact htime
  · intro e he
    change e ∈ events.rows at he
    rw [hevents, List.mem_append, List.mem_singleton] at he
    rcases he with he | rfl
    · obtain ⟨k, hk, hopen | ⟨hgone, hclose⟩⟩ := h.recorded e he
      · exact ⟨k, List.mem_append_left _ hk, .inl hopen⟩
      · exact ⟨k, List.mem_append_left _ hk, .inr ⟨hstill k hk hgone, hclose⟩⟩
    · exact ⟨p.key, List.mem_append_right _ (List.mem_singleton_self _), .inl (by rw [hpid])⟩
  · intro t ht
    obtain ⟨k, hk, hgone, htid⟩ := h.booked t ht
    exact ⟨k, List.mem_append_left _ hk, hstill k hk hgone, htid⟩

/-! ## One rebalance -/

/-- The closes of a list of held positions are accepted. -/
lemma Lockstep.closeAll {s : Tables} {held : List LedgerPosition} {used : List (String × ℤ)}
    (hid : Function.Injective stableId) (h : x.Lockstep stableId s held used) {r : Rebalance}
    {closed : DateTime} (htime : DateTime.parse r.eventAt = some closed)
    (haware : closed.isAware = true) (l : List LedgerPosition) (hl : ∀ p ∈ l, p ∈ held)
    (hnodup : (l.map LedgerPosition.key).Nodup)
    (hend : isTcbs (exchangeOr x.exchange) = true → ∀ p ∈ l, ∀ opened,
      DateTime.parse p.openedAt = some opened → EndsInCalendar opened closed)
    {feed : Feed} (hfeed : feed.map Prod.snd = l.map (x.closeEvent stableId r)) :
    Accepted s feed ∧ x.Lockstep stableId (applied s feed)
      (held.filter fun q => q.positionId ∉ l.map LedgerPosition.positionId) used := by
  induction l generalizing s held feed with
  | nil =>
    obtain rfl := List.map_eq_nil_iff.mp hfeed
    simpa [Accepted, applied] using h
  | cons p l ih =>
    obtain ⟨⟨now, _⟩, rest, rfl, rfl, hrest⟩ := List.map_eq_cons_iff.mp hfeed
    have hp : p ∈ held := hl p (List.mem_cons_self ..)
    rw [List.map_cons, List.nodup_cons] at hnodup
    obtain ⟨haccepted, hnext⟩ := h.close hid hp now htime haware
      fun htcbs => hend htcbs p (List.mem_cons_self ..)
    -- the other positions are still held
    have hstill : ∀ q ∈ l, q ∈ held.filter fun q => q.positionId ≠ p.positionId := by
      intro q hq
      have hq' : q ∈ held := hl q (List.mem_cons_of_mem _ hq)
      rw [List.mem_filter, decide_eq_true_eq]
      refine ⟨hq', fun heq => hnodup.1 ?_⟩
      rw [h.ids q hq', h.ids p hp] at heq
      exact idAt_injective hid heq ▸ List.mem_map_of_mem hq
    obtain ⟨hall, hlast⟩ := ih hnext hstill hnodup.2
      (fun htcbs q hq => hend htcbs q (List.mem_cons_of_mem _ hq)) hrest
    refine ⟨⟨haccepted, hall⟩, ?_⟩
    rw [List.filter_filter] at hlast
    refine cast (congrArg (fun held' => x.Lockstep stableId _ held' used) ?_) hlast
    refine List.filter_congr fun q _ => ?_
    rw [List.map_cons, ← Bool.decide_and, decide_eq_decide, List.mem_cons, not_or, and_comm]

/-- The opens of positions under new keys are accepted. -/
lemma Lockstep.openAll {s : Tables} {held : List LedgerPosition} {used : List (String × ℤ)}
    (hid : Function.Injective stableId) (h : x.Lockstep stableId s held used) {r : Rebalance}
    (htime : ∃ d, DateTime.parse r.eventAt = some d ∧ d.isAware = true) (l : List LedgerPosition)
    (hpid : ∀ p ∈ l, p.positionId = x.idAt stableId p.key) (hkey : ∀ p ∈ l, p.key ∉ used)
    (hnodup : (l.map LedgerPosition.key).Nodup)
    (hnumbers : ∀ p ∈ l, p.entryPrice ≠ .nan ∧ p.qty ≠ .nan)
    (hat : ∀ p ∈ l, p.openedAt = r.eventAt)
    {feed : Feed} (hfeed : feed.map Prod.snd = l.map (x.openEvent stableId r)) :
    Accepted s feed ∧ x.Lockstep stableId (applied s feed) (held ++ l)
      (used ++ l.map LedgerPosition.key) := by
  induction l generalizing s held used feed with
  | nil =>
    obtain rfl := List.map_eq_nil_iff.mp hfeed
    simpa [Accepted, applied] using h
  | cons p l ih =>
    obtain ⟨⟨now, _⟩, rest, rfl, rfl, hrest⟩ := List.map_eq_cons_iff.mp hfeed
    rw [List.map_cons, List.nodup_cons] at hnodup
    have hp : p ∈ p :: l := List.mem_cons_self ..
    obtain ⟨haccepted, hnext⟩ := h.opened hid now (hpid p hp) (hkey p hp) (hnumbers p hp).1
      (hnumbers p hp).2 (hat p hp) htime
    have hfresh : ∀ q ∈ l, q.key ∉ used ++ [p.key] := by
      intro q hq hmem
      rw [List.mem_append, List.mem_singleton] at hmem
      rcases hmem with hmem | hmem
      · exact hkey q (List.mem_cons_of_mem _ hq) hmem
      · exact hnodup.1 (hmem ▸ List.mem_map_of_mem hq)
    obtain ⟨hall, hlast⟩ := ih hnext (fun q hq => hpid q (List.mem_cons_of_mem _ hq)) hfresh hnodup.2
      (fun q hq => hnumbers q (List.mem_cons_of_mem _ hq))
      (fun q hq => hat q (List.mem_cons_of_mem _ hq)) hrest
    refine ⟨⟨haccepted, hall⟩, ?_⟩
    simpa [applied] using hlast

variable (x stableId) in
/-- What the second loop opens: positions of the weights, after those that are there already. -/
lemma openLoop_spec (r : Rebalance) (next : LedgerBook) (weights : List (String × PyFloat)) :
    (x.openLoop stableId r next weights).2.rows =
        next.rows ++ (x.openLoop stableId r next weights).1 ∧
      ∀ p ∈ (x.openLoop stableId r next weights).1, ∃ w ∈ weights,
        w.2 ≠ 0 ∧ ¬ r.price w.1 ≤ 0 ∧ p = x.newPosition stableId r w.1 w.2 := by
  induction weights generalizing next with
  | nil => exact ⟨(List.append_nil _).symm, fun p hp => (List.not_mem_nil hp).elim⟩
  | cons w weights ih =>
    obtain ⟨symbol, weight⟩ := w
    rw [openLoop]
    split
    · obtain ⟨hrows, hopened⟩ := ih next
      refine ⟨hrows, fun p hp => ?_⟩
      obtain ⟨w, hw, hp⟩ := hopened p hp
      exact ⟨w, List.mem_cons_of_mem _ hw, hp⟩
    · rename_i hopens
      simp only [not_or, Bool.not_eq_true] at hopens
      obtain ⟨hweight, hprice, hfree⟩ := hopens
      obtain ⟨hrows, hopened⟩ := ih (next.insertOrIgnore (x.newPosition stableId r symbol weight))
      rw [Table.rows_insertOrIgnore_of_not_contains
        (r := x.newPosition stableId r symbol weight) hfree] at hrows
      refine ⟨by rw [hrows, List.append_assoc]; rfl, fun p hp => ?_⟩
      rcases List.mem_cons.mp hp with rfl | hp
      · exact ⟨(symbol, weight), List.mem_cons_self .., hweight, hprice, rfl⟩
      · obtain ⟨w, hw, hp⟩ := hopened p hp
        exact ⟨w, List.mem_cons_of_mem _ hw, hp⟩

lemma nodup_sortedPositions (positions : LedgerBook) :
    ((sortedPositions positions).map LedgerPosition.symbol).Nodup :=
  ((List.perm_insertionSort _ positions.rows).map _).nodup_iff.mpr positions.nodup_keys

lemma nodup_key_of_symbol {l : List LedgerPosition} (h : (l.map LedgerPosition.symbol).Nodup) :
    (l.map LedgerPosition.key).Nodup :=
  List.Nodup.of_map Prod.fst (by rwa [List.map_map])

lemma mem_closing (positions : LedgerBook) (r : Rebalance) (p : LedgerPosition) :
    p ∈ closing positions r ↔ p ∈ positions.rows ∧ ¬ r.price p.symbol ≤ 0 := by
  rw [closing, List.mem_filter, decide_eq_true_eq, sortedPositions, List.mem_insertionSort]

variable (x stableId) in
/-- A rebalance opens what its weights and prices say, one position a symbol. -/
lemma opening_spec (positions : LedgerBook) (r : Rebalance) :
    (x.rebalance stableId positions r).rows =
        (retained positions r).rows ++ (x.opening stableId positions r).1 ∧
      (((x.opening stableId positions r).1).map LedgerPosition.symbol).Nodup ∧
      ∀ p ∈ (x.opening stableId positions r).1, ∃ symbol weight, r.Opens symbol weight ∧
        p = x.newPosition stableId r symbol weight := by
  obtain ⟨hrows, hopened⟩ := openLoop_spec x stableId r (retained positions r)
    (sortedWeights r)
  refine ⟨hrows, ?_, fun p hp => ?_⟩
  · have hnodup := (x.rebalance stableId positions r).nodup_keys
    rw [rebalance, opening, hrows, List.map_append, List.nodup_append] at hnodup
    exact hnodup.2.1
  · obtain ⟨w, hw, hweight, hprice, rfl⟩ := hopened p hp
    rw [sortedWeights, List.mem_insertionSort] at hw
    exact ⟨w.1, w.2, ⟨(Dict.get?_some_iff _ _ _).mpr hw, hweight, hprice⟩, rfl⟩

variable (x) in
/-- The numbers of a rebalance are numbers, and on `tcbs` the calendar reaches to its closes. -/
structure Fine (positions : LedgerBook) (r : Rebalance) : Prop where
  price : ∀ symbol weight, r.Opens symbol weight → r.price symbol ≠ .nan
  qty : ∀ symbol weight, r.Opens symbol weight → x.capital * weight.abs / r.price symbol ≠ .nan
  calendar : isTcbs (exchangeOr x.exchange) = true → ∀ p ∈ positions.rows,
    ¬ r.price p.symbol ≤ 0 → ∀ opened closed, DateTime.parse p.openedAt = some opened →
      DateTime.parse r.eventAt = some closed → EndsInCalendar opened closed

/-- The events of a rebalance under new keys are accepted, and the two sides agree after it. -/
lemma Lockstep.rebalance {s : Tables} {positions : LedgerBook} {used : List (String × ℤ)}
    (hid : Function.Injective stableId) (h : x.Lockstep stableId s positions.rows used)
    {r : Rebalance} (htime : ∃ d, DateTime.parse r.eventAt = some d ∧ d.isAware = true)
    (hfine : x.Fine positions r)
    (hnew : ∀ symbol weight, r.Opens symbol weight → (symbol, r.candleOpenMs) ∉ used)
    {feed : Feed} (hfeed : feed.map Prod.snd = x.events stableId positions r) :
    Accepted s feed ∧ x.Lockstep stableId (applied s feed) (x.rebalance stableId positions r).rows
      (used ++ (x.opening stableId positions r).1.map LedgerPosition.key) := by
  obtain ⟨closes, opens, rfl, hcloses, hopens⟩ := List.map_eq_append_iff.mp hfeed
  obtain ⟨closed, hclosed, haware⟩ := htime
  obtain ⟨hrows, hnodup, hopened⟩ := opening_spec x stableId positions r
  have hclosing : ((closing positions r).map LedgerPosition.key).Nodup :=
    nodup_key_of_symbol ((nodup_sortedPositions positions).sublist (List.filter_sublist.map _))
  obtain ⟨haccepted, hclose⟩ := h.closeAll hid hclosed haware (closing positions r)
    (fun p hp => ((mem_closing _ _ _).mp hp).1) hclosing
    (fun htcbs p hp opened hop => hfine.calendar htcbs p ((mem_closing _ _ _).mp hp).1
      ((mem_closing _ _ _).mp hp).2 opened closed hop hclosed) hcloses
  -- what is left open is what the rebalance retains
  have hretained : (positions.rows.filter fun q =>
      q.positionId ∉ (closing positions r).map LedgerPosition.positionId) =
        (retained positions r).rows := by
    refine List.filter_congr fun q hq => ?_
    rw [decide_eq_decide, List.mem_map]
    constructor
    · intro hno
      by_contra hprice
      exact hno ⟨q, (mem_closing _ _ _).mpr ⟨hq, hprice⟩, rfl⟩
    · rintro hprice ⟨p, hp, heq⟩
      obtain ⟨hp, hne⟩ := (mem_closing _ _ _).mp hp
      rw [h.ids p hp, h.ids q hq] at heq
      have hsymbol : p.symbol = q.symbol := congrArg Prod.fst (idAt_injective hid heq)
      exact hne (hsymbol ▸ hprice)
  rw [hretained] at hclose
  obtain ⟨haccepted', hopen⟩ := hclose.openAll hid ⟨closed, hclosed, haware⟩
    (x.opening stableId positions r).1
    (fun p hp => by obtain ⟨_, _, -, rfl⟩ := hopened p hp; rfl)
    (fun p hp => by obtain ⟨_, _, ho, rfl⟩ := hopened p hp; exact hnew _ _ ho)
    (nodup_key_of_symbol hnodup)
    (fun p hp => by obtain ⟨_, _, ho, rfl⟩ := hopened p hp; exact ⟨hfine.price _ _ ho, hfine.qty _ _ ho⟩)
    (fun p hp => by obtain ⟨_, _, -, rfl⟩ := hopened p hp; rfl) hopens
  refine ⟨accepted_append haccepted haccepted', ?_⟩
  rw [applied_append, hrows]
  exact hopen

/-! ## A run -/

variable (x stableId) in
/-- No rebalance of the run opens a symbol under a candle under which an earlier one opened it, and
every rebalance is fine where it stands. -/
def FineRun : LedgerBook → List Rebalance → Prop
  | _, [] => True
  | positions, r :: rs =>
    x.Fine positions r ∧
      (∀ r' ∈ rs, r'.candleOpenMs = r.candleOpenMs → ∀ symbol weight weight',
        r.Opens symbol weight → ¬ r'.Opens symbol weight') ∧
      FineRun (x.rebalance stableId positions r) rs

lemma Lockstep.run {s : Tables} {positions : LedgerBook} {used : List (String × ℤ)}
    (hid : Function.Injective stableId) (h : x.Lockstep stableId s positions.rows used)
    (rs : List Rebalance)
    (htimes : ∀ r ∈ rs, ∃ d, DateTime.parse r.eventAt = some d ∧ d.isAware = true)
    (hfine : x.FineRun stableId positions rs)
    (hnew : ∀ r ∈ rs, ∀ symbol weight, r.Opens symbol weight → (symbol, r.candleOpenMs) ∉ used)
    {feed : Feed} (hfeed : feed.map Prod.snd = x.emitted stableId positions rs) :
    Accepted s feed ∧ ∃ used', x.Lockstep stableId (applied s feed)
      (x.positionsAfter stableId positions rs).rows used' := by
  induction rs generalizing s positions used feed with
  | nil =>
    obtain rfl := List.map_eq_nil_iff.mp hfeed
    exact ⟨trivial, used, h⟩
  | cons r rs ih =>
    obtain ⟨first, rest, rfl, hfirst, hrest⟩ := List.map_eq_append_iff.mp hfeed
    obtain ⟨hfine, hapart, hfineRest⟩ := hfine
    have hr : r ∈ r :: rs := List.mem_cons_self ..
    obtain ⟨haccepted, hnext⟩ := h.rebalance hid (htimes r hr) hfine (hnew r hr) hfirst
    -- the keys of this rebalance are not opened again
    have hfresh : ∀ r' ∈ rs, ∀ symbol weight, r'.Opens symbol weight → (symbol, r'.candleOpenMs) ∉
        used ++ (x.opening stableId positions r).1.map LedgerPosition.key := by
      intro r' hr' symbol weight' ho' hmem
      rw [List.mem_append, List.mem_map] at hmem
      rcases hmem with hmem | ⟨p, hp, hkey⟩
      · exact hnew r' (List.mem_cons_of_mem _ hr') symbol weight' ho' hmem
      · obtain ⟨-, -, hopened⟩ := opening_spec x stableId positions r
        obtain ⟨symbol', weight, ho, rfl⟩ := hopened p hp
        obtain ⟨rfl, hcandle⟩ := Prod.mk.inj hkey
        exact hapart r' hr' hcandle.symm symbol' weight weight' ho ho'
    obtain ⟨hall, used', hlast⟩ := ih hnext (fun r' hr' => htimes r' (List.mem_cons_of_mem _ hr'))
      hfineRest hfresh hrest
    refine ⟨accepted_append haccepted hall, used', ?_⟩
    rw [applied_append]
    exact hlast

/-- The worker accepts every event of a fine run, and its virtual positions are then the publisher's
open positions. -/
theorem virtual_ledger_agrees (hid : Function.Injective stableId) (rs : List Rebalance)
    (htimes : ∀ r ∈ rs, ∃ d, DateTime.parse r.eventAt = some d ∧ d.isAware = true)
    (hfine : x.FineRun stableId .empty rs) (s : Tables)
    (hempty : s.virtualPositions = .empty ∧ s.virtualTrades = .empty ∧ s.virtualTradeEvents = .empty)
    (feed : Feed) (hfeed : feed.map Prod.snd = x.emitted stableId .empty rs) :
    Accepted s feed ∧ ((applied s feed).virtualPositions.rows.map holdingOf).Perm
      ((x.positionsAfter stableId .empty rs).rows.map x.holding) := by
  obtain ⟨hpositions, htrades, hevents⟩ := hempty
  have hstart : x.Lockstep stableId s (Table.empty : LedgerBook).rows [] := by
    refine ⟨?_, ?_, List.nodup_nil, ?_, ?_, ?_, ?_⟩
    · rw [hpositions]
      rfl
    · exact fun p hp => (List.not_mem_nil hp).elim
    · exact fun p hp => (List.not_mem_nil hp).elim
    · exact fun p hp => (List.not_mem_nil hp).elim
    · rw [hevents]
      exact fun e he => (List.not_mem_nil he).elim
    · rw [htrades]
      exact fun t ht => (List.not_mem_nil ht).elim
  obtain ⟨haccepted, used, hend⟩ := hstart.run hid rs htimes hfine
    (fun _ _ _ _ _ hmem => (List.not_mem_nil hmem).elim) hfeed
  exact ⟨haccepted, by rw [hend.rows]⟩

/-! ## A candle that is rebalanced twice -/

/-- A publisher with a capital of 1000. -/
def shadow : VirtualTradeLedger := ⟨"a", 1000, "binance"⟩

/-- A rebalance of BTC alone. -/
def btc (weight price : PyFloat) (candleOpenMs : ℤ) : Rebalance where
  weights := ⟨[("BTC", weight)], List.nodup_singleton _⟩
  prices := ⟨[("BTC", price)], List.nodup_singleton _⟩
  candleOpenMs := candleOpenMs
  eventAt := "2024-01-01T00:00:00+00:00"

/-- Events with a fixed clock. -/
def feedOf (events : List Entries) : Feed :=
  events.map fun e => ("2024-01-01T00:00:01+00:00", e)

lemma btc_time (weight price : PyFloat) (candleOpenMs : ℤ) :
    ∃ d, DateTime.parse (btc weight price candleOpenMs).eventAt = some d ∧ d.isAware = true := by
  have h : (DateTime.parse "2024-01-01T00:00:00+00:00").any (·.isAware) = true := by decide +kernel
  exact (Option.any_eq_true _ _).mp h

lemma btc_opens {weight price : PyFloat} {candleOpenMs : ℤ} {symbol : String} {w : PyFloat}
    (h : (btc weight price candleOpenMs).Opens symbol w) : symbol = "BTC" ∧ w = weight := by
  have hmem := (Dict.get?_some_iff _ _ _).mp h.1
  simpa [btc] using hmem

theorem virtual_ledger_agrees_btc :
    ((applied .empty (feedOf (shadow.emitted frame .empty
        [btc 1 100 1000, btc (-1) 101 2000]))).virtualPositions.rows.map holdingOf).Perm
      ((shadow.positionsAfter frame .empty [btc 1 100 1000, btc (-1) 101 2000]).rows.map
        shadow.holding) := by
  refine (virtual_ledger_agrees (x := shadow) frame_injective
    [btc 1 100 1000, btc (-1) 101 2000] ?_ ?_ .empty ⟨rfl, rfl, rfl⟩ _ ?_).2
  · intro r hr
    simp only [List.mem_cons, List.not_mem_nil, or_false] at hr
    rcases hr with rfl | rfl <;> exact btc_time ..
  · have hfine : ∀ positions weight price candleOpenMs, price ≠ .nan →
        shadow.capital * PyFloat.abs weight / price ≠ .nan →
        shadow.Fine positions (btc weight price candleOpenMs) := by
      intro positions weight price candleOpenMs hprice hqty
      have hbtc : (btc weight price candleOpenMs).price "BTC" = price := rfl
      refine ⟨fun symbol w ho => ?_, fun symbol w ho => ?_, fun h => absurd h (by decide)⟩
      · obtain ⟨rfl, rfl⟩ := btc_opens ho
        rwa [hbtc]
      · obtain ⟨rfl, rfl⟩ := btc_opens ho
        rwa [hbtc]
    refine ⟨hfine _ _ _ _ (by decide) (by decide +kernel), ?_,
      hfine _ _ _ _ (by decide) (by decide +kernel), ?_, trivial⟩
    · intro r' hr' hcandle
      rw [List.mem_singleton.mp hr'] at hcandle
      cases hcandle
    · exact fun r' hr' => (List.not_mem_nil hr').elim
  · rw [feedOf, List.map_map]
    exact List.map_id _

/-- The event raises `virtual position not found`. -/
def notFound : Except PyError (Option VirtualResult) → Bool
  | .error (.virtualPositionNotFound _) => true
  | _ => false

/-- The target of one candle changes from long to short: the second open of BTC is taken for the
first, the worker is left without a position, and the close at the next candle raises. -/
theorem repeatedCandle_refused :
    ¬ Accepted .empty (feedOf (shadow.emitted frame .empty [btc 1 100 1000, btc (-1) 101 1000])) ∧
      (applied .empty (feedOf (shadow.emitted frame .empty
        [btc 1 100 1000, btc (-1) 101 1000]))).virtualPositions.rows.map holdingOf = [] ∧
      (shadow.positionsAfter frame .empty [btc 1 100 1000, btc (-1) 101 1000]).rows.map
        LedgerPosition.side = ["SHORT"] ∧
      ∀ p ∈ (shadow.positionsAfter frame .empty [btc 1 100 1000, btc (-1) 101 1000]).rows,
        notFound (virtualReply "2024-01-01T00:00:01+00:00" (applied .empty (feedOf (shadow.emitted
          frame .empty [btc 1 100 1000, btc (-1) 101 1000])))
            (shadow.closeEvent frame (btc 1 102 2000) p)) = true := by
  decide +kernel

end VirtualTradeLedger

end PaperTrade.Runner
