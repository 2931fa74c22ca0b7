import PaperTrade.Worker.Duplicates
import PaperTrade.Worker.VirtualLedger

/-!
# What an alpha can touch

The handlers look a position up by its id and do not compare its owner with the sender, so a MODIFY
or a CLOSE reaches the position it names, whoever owns it: `foreignClose_books`. That is all a
message can do to the positions of other alphas (`alpha_frame`).
-/

namespace PaperTrade.Worker

open PaperTrade.Runtime

lemma parseOpen_alphaId {data : RawSignal} {signal : OpenSignal}
    (h : parseSignal data = .ok (.open signal)) : data.alphaId = some signal.alphaId := by
  have hp := parseOpen_of_parseSignal h
  simp only [parseOpen] at hp
  obtain ⟨_, -, hp⟩ := bind_eq_ok hp
  obtain ⟨alphaId, halpha, hp⟩ := bind_eq_ok hp
  obtain ⟨_, -, hp⟩ := bind_eq_ok hp
  obtain ⟨_, -, hp⟩ := bind_eq_ok hp
  obtain ⟨_, -, hp⟩ := bind_eq_ok hp
  obtain ⟨_, -, hp⟩ := bind_eq_ok hp
  obtain ⟨_, -, hp⟩ := bind_eq_ok hp
  obtain ⟨_, -, hp⟩ := bind_eq_ok hp
  obtain ⟨_, -, hp⟩ := bind_eq_ok hp
  obtain ⟨_, -, hp⟩ := bind_eq_ok hp
  cases hp
  cases hdata : data.alphaId with
  | none =>
    rw [hdata] at halpha
    cases halpha
  | some a =>
    rw [hdata] at halpha
    cases halpha
    rfl

/-- A row of another alpha that is new or changed is one that the message names. -/
lemma deliver_foreign {ex : Executor} {s : Tables} {m : Delivery} {alphaId : String}
    (halpha : m.data.alphaId = some alphaId) {p' : PositionRow}
    (hp' : p' ∈ (deliver ex s m).positions.rows) (hforeign : p'.alphaId ≠ alphaId) :
    p' ∈ s.positions.rows ∨
      Names m p'.positionId ∧ ∃ p ∈ s.positions.rows, p.positionId = p'.positionId := by
  cases deliver_rows ex m s hp' with
  | kept hp => exact .inl hp
  | opened hparse _ _ hrow =>
    rw [parseOpen_alphaId hparse] at halpha
    cases halpha
    exact absurd (by rw [hrow]; rfl) hforeign
  | modified hparse hp hid _ hrow =>
    subst hrow
    exact .inr ⟨.inl ⟨_, hparse, hid.symm⟩, _, hp, rfl⟩
  | reduced hparse hp hid hrow =>
    subst hrow
    exact .inr ⟨.inr ⟨_, hparse, hid.symm⟩, _, hp, rfl⟩

/-! ## Virtual events -/

/-- The event is the `VIRTUAL_CLOSE` of this position. -/
def VirtualCloses (event : Entries) (positionId : String) : Prop :=
  strItem event "type" = .ok "VIRTUAL_CLOSE" ∧ strItem event "position_id" = .ok positionId

section Virtual

variable {now : String} {event : Entries} {s s' : Tables}
  {r : Except PyError (Option VirtualResult)}

lemma ApplyVirtual.keeps (h : ApplyVirtual now event s r s') {v : VirtualPositionRow}
    (hv : v ∈ s.virtualPositions.rows) (hclose : ¬ VirtualCloses event v.positionId) :
    v ∈ s'.virtualPositions.rows := by
  cases h with
  | @opened eventId alphaId row _ _ _ _ _ =>
    by_cases hknown : s.virtualPositions.contains row.positionId = true
    · rwa [Table.insertOrIgnore_of_contains hknown]
    · rw [Table.rows_insertOrIgnore_of_not_contains (by simpa using hknown)]
      exact List.mem_append_left _ hv
  | closed hids hposition hfind _ _ _ _ =>
    refine (s.virtualPositions.mem_erase _ _).mpr ⟨hv, fun hid => hclose ⟨hids.type, ?_⟩⟩
    rw [hposition, hid, ((s.virtualPositions.find?_some_iff _ _).mp hfind).2]
  | unread _ => exact hv
  | duplicate _ _ => exact hv
  | unsupported _ _ _ _ => exact hv
  | refused _ _ _ => exact hv
  | unnamed _ _ _ => exact hv
  | missing _ _ _ _ => exact hv
  | unbooked _ _ _ _ _ => exact hv
  | taken _ _ _ _ _ _ => exact hv

lemma ApplyVirtual.foreign (h : ApplyVirtual now event s r s') {alphaId : String}
    (halpha : strItem event "alpha_id" = .ok alphaId) {v : VirtualPositionRow}
    (hv : v ∈ s'.virtualPositions.rows) (hforeign : v.alphaId ≠ alphaId) :
    v ∈ s.virtualPositions.rows := by
  cases h with
  | @opened eventId alphaId' row _ _ hids hrow _ =>
    by_cases hknown : s.virtualPositions.contains row.positionId = true
    · rwa [Table.insertOrIgnore_of_contains hknown] at hv
    · rw [Table.rows_insertOrIgnore_of_not_contains (by simpa using hknown), List.mem_append,
        List.mem_singleton] at hv
      rcases hv with hv | rfl
      · exact hv
      · obtain ⟨_, -, -, hrowAlpha⟩ := item_of_virtualRow hrow
        rw [hids.alphaId] at halpha
        cases halpha
        exact absurd hrowAlpha hforeign
  | closed _ _ _ _ _ _ _ => exact ((s.virtualPositions.mem_erase _ _).mp hv).1
  | unread _ => exact hv
  | duplicate _ _ => exact hv
  | unsupported _ _ _ _ => exact hv
  | refused _ _ _ => exact hv
  | unnamed _ _ _ => exact hv
  | missing _ _ _ _ => exact hv
  | unbooked _ _ _ _ _ => exact hv
  | taken _ _ _ _ _ _ => exact hv

/-- At most one virtual trade is new, and it is of the position that the event closes. -/
lemma ApplyVirtual.trades (h : ApplyVirtual now event s r s') :
    s'.virtualTrades.rows = s.virtualTrades.rows ∨
      ∃ t, ∃ v ∈ s.virtualPositions.rows, s'.virtualTrades.rows = s.virtualTrades.rows ++ [t] ∧
        VirtualCloses event v.positionId ∧ t.positionId = v.positionId := by
  cases h with
  | @closed _ _ _ position _ trade trades _ hids hposition hfind htrade _ htrades _ =>
    obtain ⟨hmem, hid⟩ := (s.virtualPositions.find?_some_iff _ _).mp hfind
    exact .inr ⟨trade, position, hmem, htrades, ⟨hids.type, hid ▸ hposition⟩,
      (virtualTrade_ids htrade).2⟩
  | opened _ _ _ => exact .inl rfl
  | unread _ => exact .inl rfl
  | duplicate _ _ => exact .inl rfl
  | unsupported _ _ _ _ => exact .inl rfl
  | refused _ _ _ => exact .inl rfl
  | unnamed _ _ _ => exact .inl rfl
  | missing _ _ _ _ => exact .inl rfl
  | unbooked _ _ _ _ _ => exact .inl rfl
  | taken _ _ _ _ _ _ => exact .inl rfl

end Virtual

/-- What a message of an alpha leaves alone: every row of another alpha but the one that a MODIFY or
a CLOSE names; new rows are its own, and a trade is booked for the position that the CLOSE names,
under the owner of that position. Likewise for the virtual positions. -/
theorem alpha_frame (alphaId : String) :
    (∀ (ex : Executor) (s : Tables) (m : Delivery), m.data.alphaId = some alphaId →
      (∀ p ∈ s.positions.rows, p.alphaId ≠ alphaId → ¬ Names m p.positionId →
        p ∈ (deliver ex s m).positions.rows) ∧
      (∀ p' ∈ (deliver ex s m).positions.rows, p'.alphaId ≠ alphaId → p' ∈ s.positions.rows ∨
        Names m p'.positionId ∧ ∃ p ∈ s.positions.rows, p.positionId = p'.positionId) ∧
      TradesAfter m s (deliver ex s m)) ∧
    (∀ (now : String) (s : Tables) (event : Entries), strItem event "alpha_id" = .ok alphaId →
      (∀ v ∈ s.virtualPositions.rows, v.alphaId ≠ alphaId → ¬ VirtualCloses event v.positionId →
        v ∈ (applyVirtual now s event).virtualPositions.rows) ∧
      (∀ v ∈ (applyVirtual now s event).virtualPositions.rows, v.alphaId ≠ alphaId →
        v ∈ s.virtualPositions.rows) ∧
      ((applyVirtual now s event).virtualTrades.rows = s.virtualTrades.rows ∨
        ∃ t, ∃ v ∈ s.virtualPositions.rows,
          (applyVirtual now s event).virtualTrades.rows = s.virtualTrades.rows ++ [t] ∧
          VirtualCloses event v.positionId ∧ t.positionId = v.positionId)) := by
  refine ⟨fun ex s m halpha => ⟨?_, ?_, deliver_trades ex m s⟩, fun now s event halpha => ?_⟩
  · exact fun p hp _ hnames => deliver_keeps ex m s hp hnames
  · exact fun p' hp' hforeign => deliver_foreign halpha hp' hforeign
  · have happly := applyVirtual_cases now event s
    exact ⟨fun v hv _ hclose => happly.keeps hv hclose,
      fun v hv hforeign => happly.foreign halpha hv hforeign, happly.trades⟩

/-- An OPEN of another alpha. -/
def otherOpen : Delivery := { openBtc "s2" "p2" with data.alphaId := "other" }

theorem alpha_frame_otherOpen :
    ∀ p ∈ (deliverAll {} .empty [openBtc "s1" "p1"]).positions.rows,
      p ∈ (deliver {} (deliverAll {} .empty [openBtc "s1" "p1"]) otherOpen).positions.rows := by
  intro p hp
  have howners : ∀ p ∈ (deliverAll {} .empty [openBtc "s1" "p1"]).positions.rows,
      p.alphaId ≠ "other" := by decide +kernel
  have hmodify : (modifyOf (parseSignal otherOpen.data)).isSome = false := by decide +kernel
  have hclose : (closeOf (parseSignal otherOpen.data)).isSome = false := by decide +kernel
  refine ((alpha_frame "other").1 {} _ otherOpen rfl).1 p hp (howners p hp) ?_
  rintro (⟨signal, hparse, -⟩ | ⟨signal, hparse, -⟩)
  · rw [modifyOf_eq_some.mpr hparse] at hmodify
    cases hmodify
  · rw [closeOf_eq_some.mpr hparse] at hclose
    cases hclose

/-- The CLOSE of `p1` by an alpha that does not own it. -/
def foreignClose : Delivery where
  data :=
    { type := "CLOSE", alphaId := "other", signalId := "s9", positionId := "p1"
      timestamp := "2024-01-01T01:00:00Z", exitPrice := some (.chars "110") }
  env := { now := "2024-01-01T01:00:00", uuid := "u9" }

/-- A virtual event of an alpha on the position `v1`. -/
def virtualEvent (type eventId alphaId : String) : Entries :=
  [("type", .str type), ("event_id", .str eventId), ("alpha_id", .str alphaId),
   ("position_id", .str "v1"), ("symbol", .str "BTCUSDT"), ("side", .str "LONG"),
   ("price", .float 100), ("qty", .float 10), ("timestamp", .str "2024-01-01T00:00:00Z")]

/-- The database after the virtual events. -/
def applyAll (events : List Entries) : Tables :=
  events.foldl (applyVirtual "2024-01-01T00:00:00") .empty

/-- An alpha closes the position of another one and the trade is written, in the ledger and in the
virtual one. -/
theorem foreignClose_books :
    (deliverAll {} .empty [openBtc "s1" "p1"]).positions.rows.map PositionRow.alphaId = ["alpha"] ∧
      (deliverAll {} .empty [openBtc "s1" "p1", foreignClose]).positions.rows.length = 0 ∧
      (deliverAll {} .empty [openBtc "s1" "p1", foreignClose]).trades.rows.map
        (fun t => (t.positionId, t.alphaId)) = [("p1", "alpha")] ∧
      (applyAll [virtualEvent "VIRTUAL_OPEN" "e1" "alpha",
        virtualEvent "VIRTUAL_CLOSE" "e2" "other"]).virtualPositions.rows.length = 0 ∧
      (applyAll [virtualEvent "VIRTUAL_OPEN" "e1" "alpha",
        virtualEvent "VIRTUAL_CLOSE" "e2" "other"]).virtualTrades.rows.map
          (fun t => (t.positionId, t.alphaId)) = [("v1", "other")] := by
  decide +kernel

end PaperTrade.Worker
