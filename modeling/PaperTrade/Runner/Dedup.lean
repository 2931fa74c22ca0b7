import PaperTrade.Runner.LegacyStandalone
import PaperTrade.Runner.SuploSignals

/-!
# What the deduplication discards

The digest of a signal reads nine fields, and the worker applies others. A skipped signal agrees
with an earlier message on all that the worker applies in every run whose signals vary those fields
only together with one that is hashed (`skipsAgree_of_coherent`). The trailing take-profit of
`SuploXauRunnerStrategy` does not: a MODIFY carries nothing of the candle, so the second one of a
position is skipped (`secondModify_skipped`). As long as no position has its level published twice,
the signals of its scans have pairwise different records.
-/

namespace PaperTrade.Runner

open PaperTrade.Runtime Dispatcher

/-- The fields the worker applies. -/
def appliedFields : List String :=
  ["type", "alpha_id", "position_id", "symbol", "side", "entry", "qty", "tp", "sl", "exit_price"]

/-- The messages carry the same applied fields. -/
def Agree (m m' : Message) : Prop := ∀ key ∈ appliedFields, m.get? key = m'.get? key

instance (m m' : Message) : Decidable (Agree m m') :=
  inferInstanceAs (Decidable (∀ key ∈ appliedFields, m.get? key = m'.get? key))

/-- What a call sends in a field. -/
def Call.sends (c : Call) (key : String) : Option Text := (c.payload "" "").get? key

/-- The calls send the same applied fields. -/
def SendAlike (c c' : Call) : Prop := ∀ key ∈ appliedFields, c.sends key = c'.sends key

instance (c c' : Call) : Decidable (SendAlike c c') :=
  inferInstanceAs (Decidable (∀ key ∈ appliedFields, c.sends key = c'.sends key))

/-- Calls with the same record send the same applied fields. -/
def Coherent (cs : List Call) : Prop :=
  ∀ c ∈ cs, ∀ c' ∈ cs, c.logical = c'.logical → SendAlike c c'

instance (cs : List Call) : Decidable (Coherent cs) :=
  inferInstanceAs (Decidable (∀ c ∈ cs, ∀ c' ∈ cs, _ → SendAlike c c'))

/-- The digest separates the records of the calls. -/
def CollisionFree (digest : Logical → String) (cs : List Call) : Prop :=
  ∀ c ∈ cs, ∀ c' ∈ cs, digest c.logical = digest c'.logical → c.logical = c'.logical

instance (digest : Logical → String) (cs : List Call) : Decidable (CollisionFree digest cs) :=
  inferInstanceAs (Decidable (∀ c ∈ cs, ∀ c' ∈ cs, _ → c.logical = c'.logical))

/-- Whenever a dispatch of the run is skipped, an earlier message carries what it would have
sent. -/
def SkipsAgree (digest : Logical → String) (d : Dispatcher) (events : List Dispatcher.Event) :
    Prop :=
  ∀ pre env call post, events = pre ++ .dispatch env call :: post →
    ∀ id, ((d.run digest pre).dispatch digest env call).1 = .skipped id →
      ∃ m ∈ (d.run digest pre).stream, Agree m (call.payload env.now id)

/-! ## The dispatcher -/

lemma get?_addField_congr {m m' : Message} {key : String} (h : m.get? key = m'.get? key)
    (p : String × Json) : (addField m p).get? key = (addField m' p).get? key := by
  obtain ⟨k, v⟩ := p
  cases v <;> simp only [addField, Dict.get?_set, h]

lemma get?_foldl_congr {m m' : Message} {key : String} (h : m.get? key = m'.get? key)
    (fields : Entries) : (fields.foldl addField m).get? key = (fields.foldl addField m').get? key := by
  induction fields generalizing m m' with
  | nil => exact h
  | cons p fields ih => exact ih (get?_addField_congr h p)

/-- The clock and the id go into two fields only. -/
lemma get?_payload (c : Call) (now id : String) {key : String} (hid : key ≠ "signal_id")
    (htime : key ≠ "timestamp") : (c.payload now id).get? key = c.sends key := by
  refine get?_foldl_congr ?_ _
  simp only [Dict.get?_set, if_neg hid, if_neg htime]

lemma agree_payload {c c' : Call} (h : SendAlike c c') (now now' id id' : String) :
    Agree (c.payload now id) (c'.payload now' id') := by
  intro key hkey
  have hid : key ≠ "signal_id" := fun hk => absurd (hk ▸ hkey) (by decide)
  have htime : key ≠ "timestamp" := fun hk => absurd (hk ▸ hkey) (by decide)
  rw [get?_payload c now id hid htime, get?_payload c' now' id' hid htime]
  exact h key hkey

/-- In a run whose appends are not lost and whose calls with the same record send the same applied
fields, every skipped signal agrees with an earlier message. -/
theorem skipsAgree_of_coherent {digest : Logical → String} {maxSeen : ℕ}
    {events : List Dispatcher.Event} (hfree : CollisionFree digest (calls events))
    (hcoherent : Coherent (calls events)) (happends : ∀ e ∈ events, e.Appends) :
    SkipsAgree digest { maxSeen := maxSeen } events := by
  rintro pre env call post rfl id hskip
  obtain ⟨rfl, hseen⟩ := mem_seen_of_skipped hskip
  have hpre : ∀ e ∈ pre, e.Appends := fun e he => happends e (List.mem_append_left _ he)
  obtain ⟨c, hc, hdigest, now, hmem⟩ :=
    remembers_run (remembers_fresh maxSeen) hpre _ (.inl hseen)
  rw [List.nil_append] at hc
  have hcalls : calls (pre ++ .dispatch env call :: post) = calls pre ++ call :: calls post :=
    calls_append pre _
  have hc' : c ∈ calls (pre ++ .dispatch env call :: post) := by
    rw [hcalls]
    exact List.mem_append_left _ hc
  have hcall : call ∈ calls (pre ++ .dispatch env call :: post) := by
    rw [hcalls]
    exact List.mem_append_right _ (List.mem_cons_self ..)
  have hlogical := hfree c hc' call hcall hdigest
  exact ⟨_, hmem, agree_payload (hcoherent c hc' call hcall hlogical) _ _ _ _⟩

/-- The dispatcher of the outbox has gone through its history, and what it skipped agrees with an
earlier message. -/
def Outbox.SkipsAgree (digest : Logical → String) (maxSeen : ℕ) (o : Outbox) : Prop :=
  o.dispatcher = Dispatcher.run digest { maxSeen := maxSeen } o.history ∧
    Runner.SkipsAgree digest { maxSeen := maxSeen } o.history

lemma Outbox.Faithful.skipsAgree {digest : Logical → String} {maxSeen : ℕ} {o : Outbox}
    (h : o.Faithful digest { maxSeen := maxSeen }) (hfree : CollisionFree digest (calls o.history))
    (hcoherent : Coherent (calls o.history)) : o.SkipsAgree digest maxSeen :=
  ⟨h.dispatcher, skipsAgree_of_coherent hfree hcoherent h.appends⟩

/-! ## The Supertrend strategy -/

/-- Calls whose records are pairwise different are coherent. -/
lemma coherent_of_distinct {cs : List Call}
    (h : cs.Pairwise fun c c' => c.logical ≠ c'.logical) : Coherent cs := by
  intro c hc c' hc' heq
  by_contra hne
  have hdiff : c ≠ c' := fun hsame => hne (hsame ▸ fun _ _ => rfl)
  have hsymm : Std.Symm fun c c' : Call => c.logical ≠ c'.logical := ⟨fun _ _ hab => hab.symm⟩
  exact h.forall hc hc' hdiff heq

lemma SuploXau.Good.coherent {x : SuploXau} {uuid5 : String → String} {digest : Logical → String}
    {d : Dispatcher} {b : ℤ} {w : SuploState × Outbox} (h : x.Good uuid5 digest d b w) :
    Coherent (calls w.2.history) := coherent_of_distinct h.invAt.inv.distinct

/-! ## The adapter of the old engines -/

namespace LegacyStandalone

variable {x : LegacyStandalone} {digest : Logical → String} {env : ℕ → DispatchEnv}
  {d : Dispatcher}

/-- Everything queued and everything dispatched is among the captured signals. -/
structure Kept (x : LegacyStandalone) (digest : Logical → String) (d : Dispatcher)
    (signals : List Captured) (w : List Captured × Outbox) : Prop where
  queued : w.1 ⊆ signals
  dispatched : calls w.2.history ⊆ signals.map x.callOf
  faithful : w.2.Faithful digest d

/-- No append of a captured signal is lost. -/
def Delivers (x : LegacyStandalone) (env : ℕ → DispatchEnv) (signals : List Captured) : Prop :=
  ∀ s ∈ signals, ∀ n, (env n).leaseValid = true → appendOf (env n) (x.callOf s) ≠ .lost

lemma kept_emitSignal {signals : List Captured} (hdelivers : Delivers x env signals)
    {w : List Captured × Outbox} (h : Kept x digest d signals w) {s : Captured}
    (hs : s ∈ signals) : Kept x digest d signals ((emitSignal digest env (x.callOf s)).run w).2 := by
  refine ⟨h.queued, ?_, h.faithful.send (hdelivers s hs _)⟩
  intro c hc
  change c ∈ calls (w.2.history ++ [.dispatch _ (x.callOf s)]) at hc
  rw [calls_append, List.mem_append] at hc
  rcases hc with hc | hc
  · exact h.dispatched hc
  · rw [List.mem_singleton.mp hc]
    exact List.mem_map_of_mem hs

lemma kept_flushSignals {signals : List Captured} (hdelivers : Delivers x env signals)
    {queue : List Captured} {w : List Captured × Outbox} (h : Kept x digest d signals w)
    (hqueue : queue ⊆ signals) :
    Kept x digest d signals ((x.flushSignals digest env queue).run w).2 := by
  induction queue generalizing w with
  | nil => exact h
  | cons s rest ih =>
    have hrest : rest ⊆ signals := List.subset_of_cons_subset hqueue
    have h₁ : Kept x digest d signals (rest, w.2) := ⟨hrest, h.dispatched, h.faithful⟩
    have h₂ := kept_emitSignal hdelivers h₁ (hqueue (List.mem_cons_self ..))
    rw [flushSignals, Coro.run_bind_ok (run_modifyState _ w), Coro.run_bind]
    cases hemit : (emitSignal digest env (x.callOf s)).run (rest, w.2) with
    | mk r w' =>
    rw [hemit] at h₂
    cases r with
    | ok a => exact ih h₂ hrest
    | error e => exact h₂

theorem kept_step {signals : List Captured} (hdelivers : Delivers x env signals)
    {w : List Captured × Outbox} (h : Kept x digest d signals w) {e : Event}
    (he : x.capturedIn [e] ⊆ signals) : Kept x digest d signals (x.step digest env w e) := by
  cases e with
  | push engine type fields =>
    exact ⟨List.append_subset.mpr ⟨h.queued, he⟩, h.dispatched, h.faithful⟩
  | flush => exact kept_flushSignals hdelivers h h.queued
  | restart ok =>
    refine ⟨List.nil_subset _, ?_, h.faithful.restart ok⟩
    rw [step, Outbox.restart, calls_append]
    simpa [calls] using h.dispatched

theorem kept_run {signals : List Captured} (hdelivers : Delivers x env signals)
    {events : List Event} {w : List Captured × Outbox} (h : Kept x digest d signals w)
    (hevents : x.capturedIn events ⊆ signals) :
    Kept x digest d signals (x.run digest env w events) := by
  induction events generalizing w with
  | nil => exact h
  | cons e events ih =>
    have hsplit : x.capturedIn (e :: events) = x.capturedIn [e] ++ x.capturedIn events :=
      x.capturedIn_append [e] events
    rw [hsplit, List.append_subset] at hevents
    exact ih (kept_step hdelivers h hevents.1) hevents.2

end LegacyStandalone

lemma Coherent.subset {cs cs' : List Call} (h : Coherent cs') (hsub : cs ⊆ cs') : Coherent cs :=
  fun c hc c' hc' => h c (hsub hc) c' (hsub hc')

/-! ## Runs -/

/-- What is skipped agrees with an earlier message: in every run of a dispatcher that loses no
append and whose calls differ in a hashed field whenever they differ in an applied one, in every
orderly run of the Supertrend strategy, and in every run of an old engine whose captured signals
differ so. -/
theorem skips_agree (digest : Logical → String) (maxSeen : ℕ) :
    (∀ events : List Dispatcher.Event, CollisionFree digest (calls events) →
      Coherent (calls events) → (∀ e ∈ events, e.Appends) →
      SkipsAgree digest { maxSeen := maxSeen } events) ∧
    (∀ (x : SuploXau) (uuid5 : String → String) (env : ℕ → DispatchEnv)
      (loaded : Table SuploPosition.positionId) (b : ℤ) (events : List SuploXau.Event),
      Function.Injective uuid5 → Acknowledges env →
      (∀ p ∈ loaded.rows, x.Known uuid5 b p.positionId) →
      x.OrderlyRun digest uuid5 env b
        ({ positions := loaded }, { dispatcher := { maxSeen := maxSeen } }) events →
      CollisionFree digest (calls (x.run digest uuid5 env
        ({ positions := loaded }, { dispatcher := { maxSeen := maxSeen } }) events).2.history) →
      (x.run digest uuid5 env ({ positions := loaded }, { dispatcher := { maxSeen := maxSeen } })
        events).2.SkipsAgree digest maxSeen) ∧
    (∀ (x : LegacyStandalone) (env : ℕ → DispatchEnv) (events : List LegacyStandalone.Event),
      Coherent ((x.capturedIn events).map x.callOf) → x.Delivers env (x.capturedIn events) →
      CollisionFree digest (calls (x.run digest env
        ([], { dispatcher := { maxSeen := maxSeen } }) events).2.history) →
      (x.run digest env ([], { dispatcher := { maxSeen := maxSeen } }) events).2.SkipsAgree digest
        maxSeen) := by
  refine ⟨fun events hfree hcoherent happends => skipsAgree_of_coherent hfree hcoherent happends,
    ?_, ?_⟩
  · intro x uuid5 env loaded b events huuid henv hloaded horderly hfree
    obtain ⟨b', hgood⟩ := SuploXau.good_run henv huuid (SuploXau.good_start hloaded) horderly
    exact hgood.invAt.faithful.skipsAgree hfree hgood.coherent
  · intro x env events hcoherent hdelivers hfree
    have hkept : LegacyStandalone.Kept x digest { maxSeen := maxSeen } (x.capturedIn events) _ :=
      LegacyStandalone.kept_run hdelivers (w := ([], { dispatcher := { maxSeen := maxSeen } }))
        ⟨List.nil_subset _, List.nil_subset _, .start _⟩ (List.Subset.refl _)
    exact hkept.faithful.skipsAgree hfree (hcoherent.subset hkept.dispatched)

/-! ## The trailing take-profit -/

/-- A strategy that needs no history. -/
def suplo : SuploXau where
  alphaId := "suplo"
  version := "v1"
  minBars := 1

/-- Four candles: the trend flips on the second one, and the level trails on the others. -/
def risingCandles : List Candle :=
  [⟨100, 101, 99, 100, 1700000000000⟩, ⟨100, 111, 109, 110, 1700000900000⟩,
    ⟨110, 121, .fin (241 / 2), 121, 1700001800000⟩, ⟨121, 131, .fin (261 / 2), 131, 1700002700000⟩]

/-- Each candle arrives and is scanned. -/
def risingRun (n : ℕ) : List SuploXau.Event :=
  (List.range n).flatMap fun k : ℕ =>
    [.kline true (some (1700000000000 + 900000 * k)),
      .scan { candles := risingCandles.take (k + 1) }]

/-- A dispatch that goes well. -/
def quietEnv : ℕ → DispatchEnv := fun _ => { now := "t" }

/-- The strategy after the first `n` candles. -/
def risen (n : ℕ) : SuploState × Outbox :=
  suplo.run typeDigest id quietEnv ({}, { dispatcher := {} }) (risingRun n)

/-- An old engine opens and closes a position. -/
def oldEngine : LegacyStandalone := { alphaId := "old", version := "v1" }

def openAndClose : List LegacyStandalone.Event :=
  [.push {} "OPEN" [("position_id", .str "p1"), ("symbol", .str "BTCUSDT"), ("side", .str "LONG"),
    ("entry", .float 100), ("qty", .float 1)],
   .push {} "CLOSE" [("position_id", .str "p1"), ("exit_price", .float 110)], .flush]

theorem skips_agree_risen :
    SkipsAgree typeDigest {} [.dispatch { now := "t0" } closeCall, .dispatch { now := "t1" } closeCall] ∧
      (risen 3).2.SkipsAgree typeDigest 4096 ∧
      (oldEngine.run typeDigest quietEnv ([], { dispatcher := {} }) openAndClose).2.SkipsAgree
        typeDigest 4096 := by
  have hall := skips_agree typeDigest 4096
  have hsent : ∀ s ∈ oldEngine.capturedIn openAndClose,
      appendOf (quietEnv 0) (oldEngine.callOf s) ≠ .lost := by decide +kernel
  refine ⟨hall.1 _ (by decide +kernel) (by decide +kernel) ?_, ?_, ?_⟩
  · intro e he
    simp only [List.mem_cons, List.not_mem_nil, or_false] at he
    rcases he with rfl | rfl
    · exact fun _ => by decide
    · exact fun _ => by decide
  · exact hall.2.1 suplo id quietEnv .empty 0 (risingRun 3) Function.injective_id (fun _ _ => rfl)
      (fun _ hp => nomatch hp) (by decide +kernel) (by decide +kernel)
  · exact hall.2.2 oldEngine quietEnv openAndClose (by decide +kernel)
      (fun s hs _ _ => hsent s hs) (by decide +kernel)

/-- The dispatch is skipped, and no message agrees with it. -/
def Discards (digest : Logical → String) (d : Dispatcher) : Dispatcher.Event → Bool
  | .dispatch env call =>
    (d.dispatch digest env call).1 = .skipped (digest call.logical) ∧
      ∀ m ∈ d.stream, ¬ Agree m (call.payload env.now (digest call.logical))
  | .restart _ => false

lemma not_skipsAgree_of_discards {digest : Logical → String} {d : Dispatcher}
    {pre : List Dispatcher.Event} (post : List Dispatcher.Event) {e : Dispatcher.Event}
    (h : Discards digest (d.run digest pre) e = true) :
    ¬ SkipsAgree digest d (pre ++ e :: post) := by
  intro hagree
  cases e with
  | restart ok => cases h
  | dispatch env call =>
    obtain ⟨hskip, hnone⟩ := of_decide_eq_true h
    obtain ⟨m, hm, hma⟩ := hagree pre env call post rfl _ hskip
    exact hnone m hm hma

/-- The second MODIFY of the position carries another level than the first, and is skipped. -/
theorem secondModify_skipped :
    CollisionFree typeDigest (calls (risen 4).2.history) ∧
      ¬ (risen 4).2.SkipsAgree typeDigest 4096 := by
  refine ⟨by decide +kernel, fun h => ?_⟩
  have hlast : (risen 4).2.history.getLast?.any
      (Discards typeDigest (run typeDigest {} ((risen 4).2.history.take 2))) = true := by
    decide +kernel
  have hlen : (risen 4).2.history.dropLast = (risen 4).2.history.take 2 := by
    rw [List.dropLast_eq_take, show (risen 4).2.history.length = 3 by decide +kernel]
  obtain ⟨e, he, hdiscards⟩ := (Option.any_eq_true _ _).mp hlast
  have hhistory := List.dropLast_append_getLast? e he
  rw [hlen] at hhistory
  refine not_skipsAgree_of_discards [] hdiscards ?_
  rw [hhistory]
  exact h.2

end PaperTrade.Runner
