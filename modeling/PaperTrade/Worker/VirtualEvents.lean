import PaperTrade.Worker.VirtualLedger

/-!
# Runs of the virtual ledger

Events are applied one after another, each at its own clock. An event id is never forgotten, so a
replay of an accepted event is skipped. When the id of a `VIRTUAL_OPEN` stands for its position, a
closed position is not opened again: every row of `virtual_positions` and of `virtual_trades` comes
from a recorded `VIRTUAL_OPEN` of its position (`Backed`), and an OPEN with a new id has a new position.
-/

namespace PaperTrade.Worker

open PaperTrade.Runtime

/-- The database after the events, each with the clock at which it is applied. -/
def runVirtual (s : Tables) (calls : List (String × Entries)) : Tables :=
  calls.foldl (fun s c => applyVirtual c.1 s c.2) s

lemma runVirtual_append (s : Tables) (calls more : List (String × Entries)) :
    runVirtual s (calls ++ more) = runVirtual (runVirtual s calls) more :=
  List.foldl_append

lemma runVirtual_snoc (s : Tables) (calls : List (String × Entries)) (c : String × Entries) :
    runVirtual s (calls ++ [c]) = applyVirtual c.1 (runVirtual s calls) c.2 := by
  rw [runVirtual_append]
  rfl

/-- The event is a `VIRTUAL_OPEN` with these ids. -/
structure OpensWith (event : Entries) (eventId positionId : String) : Prop where
  type : strItem event "type" = .ok "VIRTUAL_OPEN"
  eventId : strItem event "event_id" = .ok eventId
  positionId : strItem event "position_id" = .ok positionId

/-- The id of an OPEN event determines its position and is determined by it. -/
def Linked (calls : List (String × Entries)) : Prop :=
  ∀ c ∈ calls, ∀ c' ∈ calls, ∀ i p i' p', OpensWith c.2 i p → OpensWith c'.2 i' p' →
    (i = i' ↔ p = p')

lemma Linked.of_append {calls more : List (String × Entries)} (h : Linked (calls ++ more)) :
    Linked calls := fun c hc c' hc' =>
  h c (List.mem_append_left _ hc) c' (List.mem_append_left _ hc')

/-! ## Event ids are kept -/

lemma Records.contains {now eventId eventType alphaId : String} {event : Entries} {s : Tables}
    {events : Table VirtualTradeEventRow.eventId}
    (h : Records now event eventId eventType alphaId s events) (id : String) :
    events.contains id = true ↔ s.virtualTradeEvents.contains id = true ∨ id = eventId := by
  rw [Table.contains_of_append h.2]
  simp only [Bool.or_eq_true, decide_eq_true_eq, eq_comm (a := eventId)]

lemma ApplyVirtual.keeps_id {now : String} {event : Entries} {s s' : Tables}
    {r : Except PyError (Option VirtualResult)} (h : ApplyVirtual now event s r s') {id : String}
    (hid : s.virtualTradeEvents.contains id = true) : s'.virtualTradeEvents.contains id = true := by
  cases h with
  | opened _ _ hrecords => exact (hrecords.contains id).mpr (.inl hid)
  | closed _ _ _ _ _ _ hrecords => exact (hrecords.contains id).mpr (.inl hid)
  | _ => exact hid

lemma runVirtual_keeps_id {s : Tables} {id : String} (calls : List (String × Entries))
    (hid : s.virtualTradeEvents.contains id = true) :
    (runVirtual s calls).virtualTradeEvents.contains id = true := by
  induction calls generalizing s with
  | nil => exact hid
  | cons c rest ih => exact ih ((applyVirtual_cases c.1 c.2 s).keeps_id hid)

/-- The id of an accepted event is recorded. -/
lemma ApplyVirtual.recorded {now : String} {event : Entries} {s s' : Tables}
    {result : Option VirtualResult} (h : ApplyVirtual now event s (.ok result) s') :
    ∃ eventId eventType alphaId, EventIds event eventId eventType alphaId ∧
      s'.virtualTradeEvents.contains eventId = true := by
  cases h with
  | duplicate hids hknown => exact ⟨_, _, _, hids, hknown⟩
  | opened hids _ hrecords => exact ⟨_, _, _, hids, (hrecords.contains _).mpr (.inr rfl)⟩
  | closed hids _ _ _ _ _ hrecords =>
    exact ⟨_, _, _, hids, (hrecords.contains _).mpr (.inr rfl)⟩

/-- An event with a known id changes nothing. -/
lemma applyVirtual_known {eventId eventType alphaId : String} {event : Entries} {s : Tables}
    (hids : EventIds event eventId eventType alphaId)
    (hknown : s.virtualTradeEvents.contains eventId = true) (now : String) :
    applyVirtual now s event = s := by
  have happly := applyVirtual_cases now event s
  generalize virtualReply now s event = r at happly
  generalize applyVirtual now s event = s' at happly ⊢
  cases happly with
  | opened hids' _ hrecords =>
    obtain ⟨rfl, -, -⟩ := hids.unique hids'
    rw [hrecords.1] at hknown
    cases hknown
  | closed hids' _ _ _ _ _ hrecords =>
    obtain ⟨rfl, -, -⟩ := hids.unique hids'
    rw [hrecords.1] at hknown
    cases hknown
  | _ => rfl

/-- An event that raises changes nothing. -/
lemma ApplyVirtual.unchanged_of_error {now : String} {event : Entries} {s s' : Tables} {e : PyError}
    (h : ApplyVirtual now event s (.error e) s') : s' = s := by
  cases h <;> rfl

/-! ## Positions and trades -/

/-- A recorded `VIRTUAL_OPEN` of the position is among the events. -/
def Backed (calls : List (String × Entries)) (s : Tables) (positionId : String) : Prop :=
  ∃ c ∈ calls, ∃ eventId, OpensWith c.2 eventId positionId ∧
    s.virtualTradeEvents.contains eventId = true

/-- What holds of the virtual tables after the events. -/
structure Ledger (calls : List (String × Entries)) (s : Tables) : Prop where
  positions : ∀ p ∈ s.virtualPositions.rows, Backed calls s p.positionId
  trades : ∀ t ∈ s.virtualTrades.rows, Backed calls s t.positionId
  ids : ∀ t ∈ s.virtualTrades.rows, t.tradeId = t.positionId
  apart : ∀ p ∈ s.virtualPositions.rows, ∀ t ∈ s.virtualTrades.rows, p.positionId ≠ t.positionId

lemma Backed.mono {calls more : List (String × Entries)} {s s' : Tables} {positionId : String}
    (h : Backed calls s positionId) (hkeeps : ∀ id, s.virtualTradeEvents.contains id = true →
      s'.virtualTradeEvents.contains id = true) : Backed (calls ++ more) s' positionId := by
  obtain ⟨c, hc, eventId, hopens, hknown⟩ := h
  exact ⟨c, List.mem_append_left _ hc, eventId, hopens, hkeeps _ hknown⟩

/-- A recorded OPEN with a new id is of a position that no row has. -/
lemma Backed.ne_of_new {calls : List (String × Entries)} {s : Tables} {c : String × Entries}
    {eventId positionId other : String} (hlinked : Linked (calls ++ [c]))
    (hopens : OpensWith c.2 eventId positionId)
    (hnew : s.virtualTradeEvents.contains eventId = false) (h : Backed calls s other) :
    other ≠ positionId := by
  obtain ⟨c', hc', id, hopens', hknown⟩ := h
  intro heq
  have hid : id = eventId := (hlinked c' (List.mem_append_left _ hc') c
    (List.mem_append_right _ (List.mem_singleton_self c)) _ _ _ _ hopens' hopens).mpr heq
  rw [hid, hnew] at hknown
  cases hknown

/-- One event. -/
lemma Ledger.step {calls : List (String × Entries)} {s : Tables} (h : Ledger calls s)
    (c : String × Entries) (hlinked : Linked (calls ++ [c])) :
    Ledger (calls ++ [c]) (applyVirtual c.1 s c.2) := by
  have happly := applyVirtual_cases c.1 c.2 s
  generalize virtualReply c.1 s c.2 = r at happly
  generalize applyVirtual c.1 s c.2 = s' at happly ⊢
  have hkeeps : ∀ id, s.virtualTradeEvents.contains id = true →
      s'.virtualTradeEvents.contains id = true := fun _ => happly.keeps_id
  have hunchanged : Ledger (calls ++ [c]) s := {
    positions := fun p hp => (h.positions p hp).mono fun _ hid => hid
    trades := fun t ht => (h.trades t ht).mono fun _ hid => hid
    ids := h.ids
    apart := h.apart }
  cases happly with
  | @opened eventId alphaId row v events hids hrow hrecords =>
    obtain ⟨value, hitem, hposition, -⟩ := item_of_virtualRow hrow
    have hopens : OpensWith c.2 eventId row.positionId := by
      refine ⟨hids.type, hids.eventId, ?_⟩
      rw [strItem, hitem, hposition]
      rfl
    have hnew := hrecords.1
    have hmem : c ∈ calls ++ [c] := List.mem_append_right _ (List.mem_singleton_self c)
    -- no position and no trade has the id, so the row is added
    have hfree : s.virtualPositions.contains row.positionId = false := by
      rw [Table.not_contains_iff]
      exact fun p hp => (h.positions p hp).ne_of_new hlinked hopens hnew
    have hrows := Table.rows_insertOrIgnore_of_not_contains hfree
    have hpositions : ∀ p ∈ (s.virtualPositions.insertOrIgnore row).rows,
        p ∈ s.virtualPositions.rows ∨ p = row := by
      intro p hp
      rw [hrows] at hp
      simpa using hp
    constructor
    · intro p hp
      rcases hpositions p hp with hp | rfl
      · exact (h.positions p hp).mono hkeeps
      · exact ⟨c, hmem, eventId, hopens, (hrecords.contains _).mpr (.inr rfl)⟩
    · exact fun t ht => (h.trades t ht).mono hkeeps
    · exact h.ids
    · intro p hp t ht
      rcases hpositions p hp with hp | rfl
      · exact h.apart p hp t ht
      · exact ((h.trades t ht).ne_of_new hlinked hopens hnew).symm
  | @closed eventId alphaId positionId position pnl trade trades events hids hposition hfind htrade
      hfree htrades hrecords =>
    obtain ⟨htradeId, htradePosition⟩ := virtualTrade_ids htrade
    obtain ⟨hrow, -⟩ := (Table.find?_some_iff _ _ _).mp hfind
    have hmem : ∀ t ∈ trades.rows, t ∈ s.virtualTrades.rows ∨ t = trade := by
      intro t ht
      rw [htrades] at ht
      simpa using ht
    have hleft : ∀ p ∈ (s.virtualPositions.erase position.positionId).rows,
        p ∈ s.virtualPositions.rows ∧ p.positionId ≠ position.positionId :=
      fun p hp => (Table.mem_erase _ _ _).mp hp
    constructor
    · exact fun p hp => (h.positions p (hleft p hp).1).mono hkeeps
    · intro t ht
      rcases hmem t ht with ht | rfl
      · exact (h.trades t ht).mono hkeeps
      · rw [htradePosition]
        exact (h.positions position hrow).mono hkeeps
    · intro t ht
      rcases hmem t ht with ht | rfl
      · exact h.ids t ht
      · rw [htradeId, htradePosition]
    · intro p hp t ht
      rcases hmem t ht with ht | rfl
      · exact h.apart p (hleft p hp).1 t ht
      · rw [htradePosition]
        exact (hleft p hp).2
  | _ => exact hunchanged

/-- The virtual tables are empty. -/
structure NoVirtual (s : Tables) : Prop where
  positions : s.virtualPositions.rows = []
  trades : s.virtualTrades.rows = []
  events : s.virtualTradeEvents.rows = []

theorem ledger_runVirtual {s : Tables} (hempty : NoVirtual s) (calls : List (String × Entries))
    (hlinked : Linked calls) : Ledger calls (runVirtual s calls) := by
  induction calls using List.reverseRecOn with
  | nil =>
    constructor
    · intro p hp
      rw [runVirtual, List.foldl_nil, hempty.positions] at hp
      cases hp
    · intro t ht
      rw [runVirtual, List.foldl_nil, hempty.trades] at ht
      cases ht
    · intro t ht
      rw [runVirtual, List.foldl_nil, hempty.trades] at ht
      cases ht
    · intro p hp
      rw [runVirtual, List.foldl_nil, hempty.positions] at hp
      cases hp
  | append_singleton calls c ih =>
    rw [runVirtual_snoc]
    exact (ih hlinked.of_append).step c hlinked

/-- An event that was accepted at some point of a run changes nothing when it is applied again. -/
lemma replay_runVirtual (s : Tables) (before later : List (String × Entries))
    (c : String × Entries) {result : Option VirtualResult}
    (haccepted : virtualReply c.1 (runVirtual s before) c.2 = .ok result) (now : String) :
    applyVirtual now (runVirtual s (before ++ c :: later)) c.2 =
      runVirtual s (before ++ c :: later) := by
  have happly := applyVirtual_cases c.1 c.2 (runVirtual s before)
  rw [haccepted] at happly
  obtain ⟨eventId, eventType, alphaId, hids, hknown⟩ := happly.recorded
  refine applyVirtual_known hids ?_ now
  rw [runVirtual_append]
  exact runVirtual_keeps_id later hknown

/-- Events are applied at most once and as a whole, and a position has one trade. -/
theorem virtual_ledger_consistent {s : Tables} (hempty : NoVirtual s)
    (calls : List (String × Entries)) (hlinked : Linked calls) :
    -- a replay of an accepted event, at any later point, changes nothing
    (∀ before c later result, calls = before ++ c :: later →
      virtualReply c.1 (runVirtual s before) c.2 = .ok result →
      ∀ now, applyVirtual now (runVirtual s calls) c.2 = runVirtual s calls) ∧
    -- an event that raises changes nothing
    (∀ before c later e, calls = before ++ c :: later →
      virtualReply c.1 (runVirtual s before) c.2 = .error e →
      runVirtual s (before ++ [c]) = runVirtual s before) ∧
    (∀ t ∈ (runVirtual s calls).virtualTrades.rows, ∀ t' ∈ (runVirtual s calls).virtualTrades.rows,
      t.positionId = t'.positionId → t = t') ∧
    (∀ p ∈ (runVirtual s calls).virtualPositions.rows,
      ∀ t ∈ (runVirtual s calls).virtualTrades.rows, p.positionId ≠ t.positionId) := by
  have hledger := ledger_runVirtual hempty calls hlinked
  refine ⟨?_, ?_, ?_, hledger.apart⟩
  · rintro before c later result rfl haccepted now
    exact replay_runVirtual s before later c haccepted now
  · rintro before c later e - hraised
    have happly := applyVirtual_cases c.1 c.2 (runVirtual s before)
    rw [hraised] at happly
    rw [runVirtual_snoc, happly.unchanged_of_error]
  · intro t ht t' ht' heq
    refine Table.eq_of_key_eq _ ht ht' ?_
    rw [hledger.ids t ht, hledger.ids t' ht', heq]

/-! ## A sample -/

/-- An event of a position. -/
def sampleVirtual (type eventId positionId : String) (price : ℕ) : Entries :=
  [("type", .str type), ("event_id", .str eventId), ("position_id", .str positionId),
   ("alpha_id", .str "a"), ("symbol", .str "X"), ("side", .str "LONG"), ("price", .int price),
   ("qty", .int 1), ("timestamp", .str "2026-01-01T00:00:00+00:00")]

/-- A position is opened and closed, and its OPEN is delivered again. -/
def sampleVirtualRun : List (String × Entries) :=
  [("t1", sampleVirtual "VIRTUAL_OPEN" "e1" "p1" 10),
   ("t2", sampleVirtual "VIRTUAL_CLOSE" "e2" "p1" 11),
   ("t3", sampleVirtual "VIRTUAL_OPEN" "e1" "p1" 10)]

lemma ids_of_sampleVirtualRun {c : String × Entries} (hc : c ∈ sampleVirtualRun) {i p : String}
    (h : OpensWith c.2 i p) : i = "e1" ∧ p = "p1" := by
  simp only [sampleVirtualRun, List.mem_cons, List.not_mem_nil, or_false] at hc
  rcases hc with rfl | rfl | rfl
  · have hid : (Except.ok "e1" : Except PyError String) = .ok i := h.eventId
    have hposition : (Except.ok "p1" : Except PyError String) = .ok p := h.positionId
    exact ⟨(Except.ok.inj hid).symm, (Except.ok.inj hposition).symm⟩
  · have htype : (Except.ok "VIRTUAL_CLOSE" : Except PyError String) = .ok "VIRTUAL_OPEN" := h.type
    exact absurd (Except.ok.inj htype) (by decide)
  · have hid : (Except.ok "e1" : Except PyError String) = .ok i := h.eventId
    have hposition : (Except.ok "p1" : Except PyError String) = .ok p := h.positionId
    exact ⟨(Except.ok.inj hid).symm, (Except.ok.inj hposition).symm⟩

lemma linked_sampleVirtualRun : Linked sampleVirtualRun := by
  intro c hc c' hc' i p i' p' h h'
  obtain ⟨rfl, rfl⟩ := ids_of_sampleVirtualRun hc h
  obtain ⟨rfl, rfl⟩ := ids_of_sampleVirtualRun hc' h'
  exact ⟨fun _ => rfl, fun _ => rfl⟩

/-- The sample books one trade and leaves no position, and the OPEN does nothing a third time. -/
theorem virtual_ledger_consistent_sample :
    (runVirtual .empty sampleVirtualRun).virtualTrades.rows.map TradeRow.positionId = ["p1"] ∧
    (runVirtual .empty sampleVirtualRun).virtualPositions.rows = [] ∧
    applyVirtual "t4" (runVirtual .empty sampleVirtualRun)
      (sampleVirtual "VIRTUAL_OPEN" "e1" "p1" 10) = runVirtual .empty sampleVirtualRun := by
  refine ⟨rfl, rfl, ?_⟩
  exact (virtual_ledger_consistent ⟨rfl, rfl, rfl⟩ sampleVirtualRun linked_sampleVirtualRun).1 []
    _ _ _ rfl rfl "t4"

end PaperTrade.Worker
