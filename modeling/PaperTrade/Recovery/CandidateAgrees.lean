import PaperTrade.Recovery.Candidate

/-!
# The candidate against the worker

A ledger entry is also a message of the worker, whose executor opens and closes with the same fixed
fill. Both agree in all that a position and a trade say but their metadata, as long as no entry comes to
a place where the formulas part company (`Faithful`): a stored fee rate that is missing or zero, a close
before the open or on an exchange with trading sessions, a decision price of zero, a quantity that the
worker refuses, an open on a symbol that the alpha still holds. `buildMainCandidate_agrees` goes along
the ledger.
-/

namespace PaperTrade.Recovery

open PaperTrade.Runtime PaperTrade.Worker

/-! ## The ledger as messages -/

/-- The message of a close; a rebalance names no quantity. -/
def CloseLedgerEntry.signal (entry : CloseLedgerEntry) : CloseSignal where
  alphaId := entry.alphaId
  signalId := entry.signalId
  positionId := entry.positionId
  reason := "REBALANCE"
  timestamp := entry.eventAt.isoformat
  exitPrice := some entry.decisionPrice
  qty := none
  metadata := .chars "{}"

/-- The message of an open; a message without an exchange is one of `binance`. -/
def OpenLedgerEntry.signal (entry : OpenLedgerEntry) : OpenSignal where
  alphaId := entry.alphaId
  signalId := entry.signalId
  symbol := entry.symbol
  side := entry.side.value
  entry := entry.decisionPrice
  qty := entry.qty
  timestamp := entry.eventAt.isoformat
  tp := none
  sl := none
  leverage := 1
  metadata := .chars "{}"
  positionId := entry.positionId
  exchange := "binance"
  feePct := entry.feePct

/-- What the transaction of a message leaves: nothing when the executor raises. -/
def outcome (s : Tables) (result : Except PyError Outcome × Conn) : Tables :=
  match result.1 with
  | .ok _ => result.2.current
  | .error _ => s

/-- The worker processes one entry, with the fixed fill. -/
def workerStep (self : Executor) (env : Env) (s : Tables) : LedgerEntry → Tables
  | .close entry => outcome s ((self.processClose env entry.signal none).run (.within s s))
  | .open entry => outcome s ((self.processOpen env entry.signal none).run (.within s s))

/-- The worker processes a ledger; `env` is what each message takes from outside. -/
def workerRun (self : Executor) (env : LedgerEntry → Env) (s : Tables)
    (entries : List LedgerEntry) : Tables :=
  entries.foldl (fun s entry => workerStep self (env entry) s entry) s

/-! ## Agreement -/

/-- A position without its metadata. -/
def positionTerms (p : PositionRow) : PositionRow := { p with metadata := .chars "" }

/-- A trade without its metadata. -/
def tradeTerms (t : TradeRow) : TradeRow := { t with metadata := .chars "" }

/-- The same positions and trades but for their metadata. -/
structure Agrees (db : MainDb) (s : Tables) : Prop where
  positions : db.positions.rows.map positionTerms = s.positions.rows.map positionTerms
  trades : db.trades.rows.map tradeTerms = s.trades.rows.map tradeTerms

/-- The recovery closes a position as the worker does. -/
structure FaithfulClose (entry : CloseLedgerEntry) (position : PositionRow) : Prop where
  /-- `signal.exit_price or pos["entry_price"]` is the decision price -/
  priced : entry.decisionPrice.truthy = true
  /-- the worker accepts the quantity -/
  quantity : ∃ q : ℚ, position.qty = some (.fin q) ∧ 0 < q
  /-- `position["fee_pct"] or entry.fee_pct` is the rate of the worker -/
  fee : position.feePct.any PyFloat.truthy = true ∨ entry.feePct = 0
  /-- the exchange has no sessions -/
  unscheduled : isTcbs (exchangeOr position.exchange) = false
  /-- the position was opened before -/
  opened : ∀ opened, DateTime.parse position.openedAt = some opened →
    opened.instant ≤ entry.eventAt.time.instant

/-- The recovery does with an entry what the worker does. -/
def Faithful (self : Executor) (db : MainDb) : LedgerEntry → Prop
  | .close entry => ∀ position, db.positions.find? entry.positionId = some position →
      FaithfulClose entry position
  | .open entry => entry.positionId ≠ "" ∧ (self.duplicatePolicy = "reject" →
      ∀ p ∈ db.positions.rows, p.alphaId = entry.alphaId → p.symbol ≠ entry.symbol)

/-- So does every entry of the ledger, in the database that the entries before it leave. -/
def AllFaithful (self : Executor) (recoveredAt : String) (slippagePct : PyFloat) :
    MainDb → List LedgerEntry → Prop
  | _, [] => True
  | db, entry :: entries => Faithful self db entry ∧
      ∀ db', applyEntry recoveredAt slippagePct db entry = .ok db' →
        AllFaithful self recoveredAt slippagePct db' entries

/-! ## Rows -/

lemma fixedFill_eq (price slippagePct : PyFloat) (side : Side) (isClose : Bool) :
    fixedFill price side slippagePct isClose = fixedPctFill price side.value slippagePct isClose := by
  have hlong : isLongSide Side.long.value = true := by decide
  have hshort : isLongSide Side.short.value = false := by decide
  cases side with
  | long => simp [fixedFill, fixedPctFill, hlong]
  | short => simp [fixedFill, fixedPctFill, hshort]

lemma sideDirection_eq (side : Side) : sideDirection side = direction side.value := by
  cases side <;> rfl

/-- The rows of two tables that agree are found together. -/
lemma find?_of_terms {ρ κ σ : Type} [DecidableEq κ] {key : ρ → κ} {terms : ρ → σ}
    (keyOf : σ → κ) (hkey : ∀ r, keyOf (terms r) = key r) {t u : Table key}
    (h : t.rows.map terms = u.rows.map terms) (k : κ) :
    (t.find? k).map terms = (u.find? k).map terms := by
  have hmap : ∀ v : Table key, (v.find? k).map terms =
      (v.rows.map terms).find? fun x => keyOf x = k := by
    intro v
    rw [List.find?_map]
    unfold Table.find?
    congr 2
    funext r
    simp [hkey]
  rw [hmap, hmap, h]

lemma contains_of_terms {ρ κ σ : Type} [DecidableEq κ] {key : ρ → κ} {terms : ρ → σ}
    (keyOf : σ → κ) (hkey : ∀ r, keyOf (terms r) = key r) {t u : Table key}
    (h : t.rows.map terms = u.rows.map terms) (k : κ) : t.contains k = u.contains k := by
  have hmap : ∀ v : Table key, v.contains k = (v.rows.map terms).any fun x => keyOf x = k := by
    intro v
    rw [List.any_map]
    unfold Table.contains
    congr 1
    funext r
    simp [hkey]
  rw [hmap, hmap, h]

lemma erase_of_terms {ρ κ σ : Type} [DecidableEq κ] {key : ρ → κ} {terms : ρ → σ}
    (keyOf : σ → κ) (hkey : ∀ r, keyOf (terms r) = key r) {t u : Table key}
    (h : t.rows.map terms = u.rows.map terms) (k : κ) :
    (t.erase k).rows.map terms = (u.erase k).rows.map terms := by
  have hmap : ∀ v : Table key, (v.erase k).rows.map terms =
      (v.rows.map terms).filter fun x => keyOf x ≠ k := by
    intro v
    rw [List.filter_map]
    unfold Table.erase
    rw [Table.rows_filter]
    congr 2
    funext r
    simp [hkey]
  rw [hmap, hmap, h]

/-! ## One close -/

/-- The whole of a finite quantity may be closed. -/
lemma not_add_dust_lt (q : ℚ) : ¬ PyFloat.fin q + dust < .fin q := by
  have hdust : (0 : ℚ) ≤ 1 / 1000000000000 := by norm_num
  unfold dust
  rw [PyFloat.add_fin, PyFloat.fin_lt_fin]
  linarith

/-- Nothing remains of it. -/
lemma remaining_le_dust (q : ℚ) : (PyFloat.fin q - .fin q).max 0 ≤ dust := by
  rw [PyFloat.sub_fin, sub_self]
  decide +kernel

lemma closeQuantity_self {pos : PositionRow} {q : ℚ} (hq : pos.qty = some (.fin q)) :
    closeQuantity pos (some (.fin q)) = .ok (.fin q) := by
  have hmin : (PyFloat.fin q).min (.fin q) = .fin q := ite_self _
  unfold closeQuantity
  rw [hq]
  exact congrArg Except.ok hmin

/-- The trade of the recovery and that of the worker. -/
lemma closingTrade_of_closedTrade {self : Executor} {entry : CloseLedgerEntry}
    {position pos : PositionRow} {trade : TradeRow} (metadata : Text)
    (hterms : positionTerms position = positionTerms pos)
    (hside : position.side = entry.side.value) (hsymbol : position.symbol = entry.symbol)
    (halpha : position.alphaId = entry.alphaId) (hid : position.positionId = entry.positionId)
    (hfaithful : FaithfulClose entry position) {q : ℚ} (hq : pos.qty = some (.fin q))
    (h : closedTrade self.slippagePct position entry = .ok trade) :
    ∃ trade', closingTrade pos (some (self.applySlippage entry.decisionPrice pos.side true)) (.fin q)
        "REBALANCE" entry.eventAt.isoformat metadata pos.positionId = .ok trade' ∧
      tradeTerms trade' = tradeTerms trade := by
  obtain ⟨m, rfl⟩ : ∃ m, pos = { position with metadata := m } := by
    refine ⟨pos.metadata, ?_⟩
    cases pos
    cases position
    simp only [positionTerms, PositionRow.mk.injEq] at hterms ⊢
    simp [hterms]
  unfold closedTrade at h
  obtain ⟨q', hq', h⟩ := bind_eq_ok h
  obtain ⟨e, he, h⟩ := bind_eq_ok h
  obtain ⟨openedAt, hopened, h⟩ := bind_eq_ok h
  have he : position.entryPrice = some e := by
    cases hprice : position.entryPrice with
    | none => rw [hprice] at he; cases he
    | some e' => rw [hprice] at he; cases he; rfl
  obtain rfl : PyFloat.fin q = q' := by
    rw [show position.qty = some (.fin q) from hq] at hq'
    exact Except.ok.inj hq'
  have hclosed : isoTime entry.eventAt.isoformat = .ok entry.eventAt.time := by
    unfold isoTime
    rw [entry.eventAt.reads]
  split at h
  · cases h
  rename_i us hus
  have hduration : tradeDurationHours openedAt entry.eventAt.time (exchangeOr position.exchange) =
      .ok (.fin (us / 3600000000)) := by
    have hparse : DateTime.parse position.openedAt = some openedAt := by
      unfold isoTime at hopened
      split at hopened
      · rename_i d hd
        rw [hd, Except.ok.inj hopened]
      · cases hopened
    have hle := hfaithful.opened openedAt hparse
    have hsub : us = entry.eventAt.time.instant - openedAt.instant := by
      unfold DateTime.sub? at hus
      split at hus
      · exact (Option.some.inj hus).symm
      · cases hus
    unfold tradeDurationHours
    rw [hfaithful.unscheduled, if_neg Bool.false_ne_true, hus]
    dsimp only
    rw [max_eq_left (by omega)]
  have hfee : closeFeePct position entry = position.feePct.getD 0 := by
    unfold closeFeePct
    cases hrate : position.feePct with
    | none => exact hfaithful.fee.resolve_left (by simp [hrate])
    | some feePct =>
      have hcases := hfaithful.fee
      rw [hrate, Option.any_some] at hcases
      dsimp only
      by_cases htruthy : feePct.truthy = true
      · rw [if_pos htruthy]
        rfl
      · rw [if_neg htruthy, hcases.resolve_left htruthy]
        have hzero : feePct = 0 := by
          cases feePct with
          | nan => exact absurd rfl htruthy
          | inf s => exact absurd rfl htruthy
          | fin r =>
            have hr : r = 0 := by simpa using htruthy
            rw [hr]
            rfl
        rw [hzero]
        rfl
  have hfill : self.applySlippage entry.decisionPrice position.side true =
      fixedFill entry.decisionPrice entry.side self.slippagePct true := by
    rw [fixedFill_eq, ← hside]
    rfl
  rw [hfee, sideDirection_eq, ← hside, ← hfill] at h
  refine ⟨{ trade with metadata := mergeTradeMetadata m metadata }, ?_, rfl⟩
  unfold closingTrade
  simp only [he, hopened, hclosed, hduration, need, bind, Except.bind, pure, Except.pure]
  obtain rfl := Except.ok.inj h
  simp only [hid, halpha, hsymbol, hside, he]

section Step

variable {self : Executor} {env : Env} {recoveredAt : String} {db db' : MainDb} {s : Tables}

/-- What an accepted close does to the candidate. -/
lemma applyClose_spec {entry : CloseLedgerEntry}
    (h : applyClose recoveredAt self.slippagePct db entry = .ok db') :
    ∃ position trade, db.positions.find? entry.positionId = some position ∧
      position.alphaId = entry.alphaId ∧ position.symbol = entry.symbol ∧
      position.side = entry.side.value ∧ closedTrade self.slippagePct position entry = .ok trade ∧
      db.trades.contains trade.tradeId = false ∧ db'.trades.rows = db.trades.rows ++ [trade] ∧
      db'.positions = db.positions.erase entry.positionId := by
  unfold applyClose at h
  split at h
  · cases h
  rename_i position hfind
  split at h
  · cases h
  rename_i hidentity
  rw [not_or, not_or, not_not, not_not, not_not] at hidentity
  cases htrade : closedTrade self.slippagePct position entry with
  | error e =>
    rw [htrade] at h
    cases h
  | ok trade =>
    rw [htrade] at h
    change ((db.insertSignal recoveredAt (.close entry)).insertTrade trade >>= fun db =>
      pure (db.deletePosition entry.positionId)) = .ok db' at h
    unfold MainDb.insertTrade at h
    split at h
    · cases h
    cases hinsert : insertUnique "trades.trade_id" (db.insertSignal recoveredAt (.close entry)).trades
        trade with
    | error e =>
      rw [hinsert] at h
      cases h
    | ok trades =>
      rw [hinsert] at h
      obtain ⟨hnew, hrows⟩ := insertUnique_eq_ok.mp hinsert
      obtain rfl := Except.ok.inj h
      exact ⟨position, trade, hfind, hidentity.1, hidentity.2.1, hidentity.2.2, htrade, hnew, hrows,
        rfl⟩

/-- What an accepted open does to the candidate. -/
lemma applyOpen_spec {slippagePct : PyFloat} {entry : OpenLedgerEntry}
    (h : applyOpen recoveredAt slippagePct db entry = .ok db') :
    db.positions.contains entry.positionId = false ∧
      db'.positions.rows = db.positions.rows ++ [openedPosition slippagePct entry] ∧
      db'.trades = db.trades := by
  unfold applyOpen MainDb.insertPosition at h
  split at h
  · cases h
  cases hinsert : insertUnique "positions.position_id"
      (db.insertSignal recoveredAt (.open entry)).positions (openedPosition slippagePct entry) with
  | error e =>
    rw [hinsert] at h
    cases h
  | ok positions =>
    rw [hinsert] at h
    obtain ⟨hnew, hrows⟩ := insertUnique_eq_ok.mp hinsert
    obtain rfl := Except.ok.inj h
    exact ⟨hnew, hrows, rfl⟩

/-- A close. -/
lemma Agrees.close (hs : Agrees db s) {entry : CloseLedgerEntry}
    (hfaithful : Faithful self db (.close entry))
    (h : applyClose recoveredAt self.slippagePct db entry = .ok db') :
    Agrees db' (workerStep self env s (.close entry)) := by
  obtain ⟨position, trade, hfind, halpha, hsymbol, hside, htrade, hnew, htrades, hpositions⟩ :=
    applyClose_spec h
  have hclose : FaithfulClose entry position := hfaithful position hfind
  have hid : position.positionId = entry.positionId :=
    ((db.positions.find?_some_iff _ _).mp hfind).2
  have hboth : (db.positions.find? entry.positionId).map positionTerms =
      (s.positions.find? entry.positionId).map positionTerms :=
    find?_of_terms PositionRow.positionId (fun _ => rfl) hs.positions entry.positionId
  rw [hfind, Option.map_some] at hboth
  obtain ⟨pos, hpos, hterms⟩ := Option.map_eq_some_iff.mp hboth.symm
  obtain ⟨q, hq, hpositive⟩ := hclose.quantity
  have hqty : pos.qty = some (.fin q) := by
    have hsame := congrArg PositionRow.qty hterms
    exact hsame.trans hq
  have hposid : pos.positionId = entry.positionId := ((s.positions.find?_some_iff _ _).mp hpos).2
  -- the worker closes the whole position at the fixed fill
  have hle : ¬ PyFloat.fin q ≤ 0 := by
    rw [PyFloat.zero_eq, PyFloat.fin_le_fin]
    exact not_le.mpr hpositive
  have hcheck : Executor.checkCloseQty entry.signal pos = .ok (.fin q) := by
    have hlt : ¬ PyFloat.fin q + dust < .fin q := not_add_dust_lt q
    simp only [Executor.checkCloseQty, CloseLedgerEntry.signal, Option.none_or, hqty, need, bind,
      Except.bind, pure, Except.pure, if_neg hle, if_neg hlt]
  have hfill : self.closeFill entry.signal pos none =
      .ok (some (self.applySlippage entry.decisionPrice pos.side true), []) := by
    have hplain : Executor.closeRefIsExecutable entry.signal = false := by
      change metadataFlag (.chars "{}") "ref_is_executable" = false
      decide +kernel
    have hprice : Executor.closeRefPrice entry.signal pos = some entry.decisionPrice :=
      if_pos hclose.priced
    simp only [Executor.closeFill, hplain, hprice, need, bind, Except.bind, pure, Except.pure,
      Bool.false_eq_true, if_false]
  let a := closeArgs env entry.signal pos
    (some (self.applySlippage entry.decisionPrice pos.side true)) [] (.fin q)
  obtain ⟨trade', hrow, hsame⟩ := closingTrade_of_closedTrade a.closeMetadata hterms.symm hside
    hsymbol halpha hid hclose hqty htrade
  have hsettles : Settles s a pos (.fin q) (.fin q) trade' := by
    refine ⟨hpos, closeQuantity_self hqty, hle, hqty, ?_⟩
    rw [if_pos (remaining_le_dust q)]
    exact hrow
  have hfree : s.trades.contains trade'.tradeId = false := by
    have hids : (tradeTerms trade').tradeId = (tradeTerms trade).tradeId := by rw [hsame]
    have hboth : db.trades.contains trade.tradeId = s.trades.contains trade.tradeId :=
      contains_of_terms TradeRow.tradeId (fun _ => rfl) hs.trades trade.tradeId
    rw [show trade'.tradeId = trade.tradeId from hids, ← hboth]
    exact hnew
  obtain ⟨r, s', hrun, hprocess⟩ := processClose_run self env s entry.signal none s
  -- each other outcome contradicts one of the facts above
  have hrest : ∀ {r' s''}, ClosePosition s a r' s'' → r' = .ok () ∧ ∃ trades : Table TradeRow.tradeId,
      trades.rows = s.trades.rows ++ [trade'] ∧
        s'' = { s with trades := trades, positions := s.positions.erase a.positionId } := by
    intro r' s'' hclose'
    rcases hclose'.of_settles hsettles with ⟨htaken, -⟩ | ⟨-, trades, hrows, hfull, -⟩
    · rw [hfree] at htaken
      cases htaken
    · obtain ⟨hr, hs'⟩ := hfull (remaining_le_dust q)
      exact ⟨hr, trades, hrows, hs'⟩
  cases hprocess with
  | missing hnone => exact absurd (hpos.symm.trans hnone) (Option.some_ne_none _)
  | refused hsome hqty' =>
    obtain rfl := Option.some.inj (hpos.symm.trans hsome)
    rw [hcheck] at hqty'
    cases hqty'
  | unfilled hsome hqty' hfill' =>
    obtain rfl := Option.some.inj (hpos.symm.trans hsome)
    rw [hfill] at hfill'
    cases hfill'
  | failed hsome hqty' hfill' hclose' =>
    obtain rfl := Option.some.inj (hpos.symm.trans hsome)
    rw [hcheck] at hqty'
    rw [hfill] at hfill'
    cases hqty'
    cases hfill'
    cases (hrest hclose').1
  | closed hsome hqty' ho hfill' hclose' =>
    obtain rfl := Option.some.inj (hpos.symm.trans hsome)
    rw [hcheck] at hqty'
    rw [hfill] at hfill'
    cases hqty'
    cases hfill'
    obtain ⟨-, trades, hrows, rfl⟩ := hrest hclose'
    have hstep : workerStep self env s (.close entry) =
        { s with trades := trades, positions := s.positions.erase entry.positionId } := by
      change outcome s ((self.processClose env entry.signal none).run (.within s s)) = _
      rw [hrun]
      rfl
    rw [hstep]
    refine ⟨?_, ?_⟩
    · rw [hpositions]
      exact erase_of_terms PositionRow.positionId (fun _ => rfl) hs.positions entry.positionId
    · change db'.trades.rows.map tradeTerms = trades.rows.map tradeTerms
      rw [htrades, hrows, List.map_append, List.map_append, hs.trades, List.map_singleton,
        List.map_singleton, hsame]

/-- An open. -/
lemma Agrees.open (hs : Agrees db s) {entry : OpenLedgerEntry}
    (hfaithful : Faithful self db (.open entry))
    (h : applyOpen recoveredAt self.slippagePct db entry = .ok db') :
    Agrees db' (workerStep self env s (.open entry)) := by
  obtain ⟨hnew, hpositions, htrades⟩ := applyOpen_spec h
  obtain ⟨hid, hfree⟩ := hfaithful
  obtain ⟨r, s', hrun, hopen⟩ := processOpen_run self env s entry.signal none s
  have hrowId : (self.openRow env entry.signal none).positionId = entry.positionId := if_neg hid
  cases hopen with
  | blocked hblocks =>
    obtain ⟨hsome, hpolicy, -⟩ := hblocks
    obtain ⟨p, hp⟩ := Option.isSome_iff_exists.mp hsome
    have hmem : p ∈ s.positions.rows := List.mem_of_find?_eq_some hp
    have hfound : p.alphaId = entry.signal.alphaId ∧ p.symbol = entry.signal.symbol := by
      simpa using List.find?_some hp
    have hmap : positionTerms p ∈ db.positions.rows.map positionTerms :=
      hs.positions ▸ List.mem_map_of_mem hmem
    obtain ⟨p', hp', hterms⟩ := List.mem_map.mp hmap
    have halpha : (positionTerms p').alphaId = (positionTerms p).alphaId := by rw [hterms]
    have hsymbol : (positionTerms p').symbol = (positionTerms p).symbol := by rw [hterms]
    exact absurd (hsymbol.trans hfound.2) (hfree hpolicy p' hp' (halpha.trans hfound.1))
  | leverage _ hfits =>
    have hone : fitsInt64 1 = true := by decide
    exact absurd (hone.symm.trans hfits) Bool.false_ne_true.symm
  | taken _ _ htaken =>
    have hsame : db.positions.contains entry.positionId = s.positions.contains entry.positionId :=
      contains_of_terms PositionRow.positionId (fun _ => rfl) hs.positions entry.positionId
    rw [hrowId, ← hsame, hnew] at htaken
    cases htaken
  | opened _ _ _ hrows =>
    rename_i positions _
    have hstep : workerStep self env s (.open entry) =
        { s.withAlpha env.now entry.signal.alphaId with positions := positions } := by
      change outcome s ((self.processOpen env entry.signal none).run (.within s s)) = _
      rw [hrun]
      rfl
    have hterms : positionTerms (openedPosition self.slippagePct entry) =
        positionTerms (self.openRow env entry.signal none) := by
      have hgiven : (if entry.signal.positionId = "" then env.uuid else entry.signal.positionId) =
          entry.positionId := if_neg hid
      unfold openedPosition Executor.openRow
      rw [fixedFill_eq, hgiven]
      rfl
    rw [hstep]
    refine ⟨?_, ?_⟩
    · rw [hpositions, hrows, List.map_append, List.map_append, hs.positions, List.map_singleton,
        List.map_singleton, hterms]
    · rw [htrades]
      exact hs.trades

/-- One entry. -/
lemma Agrees.entry (hs : Agrees db s) {entry : LedgerEntry} (hfaithful : Faithful self db entry)
    (h : applyEntry recoveredAt self.slippagePct db entry = .ok db') :
    Agrees db' (workerStep self env s entry) := by
  cases entry with
  | close entry => exact hs.close hfaithful h
  | «open» entry => exact hs.open hfaithful h

end Step

/-! ## The ledger -/

/-- Where no entry comes to a place at which the formulas part company, the positions and trades of the
candidate are those of the worker that has processed the ledger. -/
theorem buildMainCandidate_agrees (self : Executor) (env : LedgerEntry → Env) (recoveredAt : String)
    (entries : List LedgerEntry) (db db' : MainDb) (s : Tables) (hstart : Agrees db s)
    (hfaithful : AllFaithful self recoveredAt self.slippagePct db entries)
    (hbuilt : buildMainCandidate recoveredAt self.slippagePct entries db = .ok db') :
    Agrees db' (workerRun self env s entries) := by
  induction entries generalizing db s with
  | nil =>
    obtain rfl : db = db' := Except.ok.inj hbuilt
    exact hstart
  | cons entry entries ih =>
    obtain ⟨hentry, hrest⟩ := hfaithful
    unfold buildMainCandidate at hbuilt
    rw [List.foldlM_cons] at hbuilt
    obtain ⟨next, hnext, hbuilt⟩ := bind_eq_ok hbuilt
    exact ih next (workerStep self (env entry) s entry) (hstart.entry hentry hnext)
      (hrest next hnext) hbuilt

/-! ## A rate of zero -/

/-- A position that was opened for 100 without a fee. -/
def freePosition : PositionRow where
  positionId := "p"
  alphaId := "a"
  signalId := "s0"
  symbol := "BTCUSDT"
  side := "LONG"
  entryPrice := some (.fin 100)
  qty := some (.fin 1)
  tp := none
  sl := none
  leverage := 1
  openedAt := "2024-01-01T00:00:00+00:00"
  metadata := .chars "{}"
  exchange := "binance"
  feePct := some (.fin 0)

/-- The recovery database that holds it. -/
def freeDb : MainDb where
  alphas := ["a"]
  positions := ⟨[freePosition], by decide⟩
  trades := .empty
  signals := .empty
  sequence := 0
  ids_le := by
    intro r hr
    cases hr

/-- The tables of a worker that holds it. -/
def freeTables : Tables := { Tables.empty with positions := ⟨[freePosition], by decide⟩ }

/-- An hour later. -/
def anHourLater : EventTime where
  time := ⟨63839667600000000, some 0⟩
  isoformat := "2024-01-01T01:00:00+00:00"
  reads := by decide +kernel

/-- The close of a strategy that pays `feePct`. -/
def closeFree (feePct : PyFloat) : LedgerEntry :=
  .close ⟨"a", "s1", "p", "BTCUSDT", .long, .fin 110, 0, anHourLater, feePct⟩

lemma free_agrees : Agrees freeDb freeTables := ⟨rfl, rfl⟩

/-- With a rate of zero in both places the close is booked alike. -/
theorem buildMainCandidate_agrees_free : ∃ db', buildMainCandidate "now" 0 [closeFree 0] freeDb =
    .ok db' ∧ Agrees db' (workerRun { slippagePct := 0 } (fun _ => ⟨"now", "u", none⟩) freeTables
      [closeFree 0]) := by
  have hopened : DateTime.parse freePosition.openedAt = some ⟨63839664000000000, some 0⟩ := by
    decide +kernel
  have hclose : Faithful { slippagePct := 0 } freeDb (closeFree 0) := by
    intro position hfind
    obtain rfl : freePosition = position := Option.some.inj hfind
    refine ⟨by decide, ⟨1, rfl, one_pos⟩, .inr rfl, by decide, ?_⟩
    intro opened h
    obtain rfl := Option.some.inj (hopened.symm.trans h)
    decide
  have hbuilt : (buildMainCandidate "now" 0 [closeFree 0] freeDb).isOk = true := by decide +kernel
  cases hdb : buildMainCandidate "now" 0 [closeFree 0] freeDb with
  | error e =>
    rw [hdb] at hbuilt
    cases hbuilt
  | ok db' =>
    exact ⟨db', rfl, buildMainCandidate_agrees { slippagePct := 0 } _ "now" [closeFree 0] freeDb db'
      freeTables free_agrees ⟨hclose, fun _ _ => trivial⟩ hdb⟩

/-- Where the stored rate is zero and that of the strategy is not, the recovery charges a fee and the
worker does not. -/
theorem free_position_charged : ¬ ∀ (self : Executor) (env : LedgerEntry → Env)
    (recoveredAt : String) (entries : List LedgerEntry) (db db' : MainDb) (s : Tables), Agrees db s →
    buildMainCandidate recoveredAt self.slippagePct entries db = .ok db' →
    Agrees db' (workerRun self env s entries) := by
  intro h
  have hcharged : (buildMainCandidate "now" 0 [closeFree (.fin (1 / 1000))] freeDb).toOption.map
      (fun db => db.trades.rows.map TradeRow.fee) = some [some (.fin (21 / 100))] := by
    decide +kernel
  have hfree : (workerRun { slippagePct := 0 } (fun _ => ⟨"now", "u", none⟩) freeTables
      [closeFree (.fin (1 / 1000))]).trades.rows.map TradeRow.fee = [some (.fin 0)] := by
    decide +kernel
  cases hbuilt : buildMainCandidate "now" 0 [closeFree (.fin (1 / 1000))] freeDb with
  | error e =>
    rw [hbuilt] at hcharged
    cases hcharged
  | ok db' =>
    rw [hbuilt] at hcharged
    have hfee : db'.trades.rows.map TradeRow.fee = [some (.fin (21 / 100))] :=
      Option.some.inj hcharged
    have hagrees := h { slippagePct := 0 } (fun _ => ⟨"now", "u", none⟩) "now" _ freeDb db'
      freeTables free_agrees hbuilt
    have hsame := congrArg (List.map TradeRow.fee) hagrees.trades
    rw [List.map_map, List.map_map] at hsame
    change db'.trades.rows.map TradeRow.fee = (workerRun _ _ _ _).trades.rows.map TradeRow.fee
      at hsame
    rw [hfee, hfree] at hsame
    exact absurd hsame (by decide +kernel)

end PaperTrade.Recovery
