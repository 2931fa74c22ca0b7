import PaperTrade.Runner.LegacyFollows
import PaperTrade.Runner.RebalanceFollows

/-!
# Books and the stream

The in-memory book of a strategy has exactly the ids that are open in the stream, after every run whose
outcomes its code allows for. None of the three strategies allows for all of them: a CLOSE that is dropped
on a lapsed lease is forgotten by each (`droppedClose_forgotten`).
-/

namespace PaperTrade.Runner

open PaperTrade.Runtime Dispatcher

namespace CrossSectional

/-- Every rebalance of the run ends as `Kept` says. -/
def KeptRun (x : CrossSectional) (digest : Logical → String) (uuid4 : ℕ → String)
    (env : ℕ → DispatchEnv) : CrossState × Outbox → List CrossEvent → Prop
  | _, [] => True
  | w, .rebalance r :: events =>
    Kept x digest uuid4 env r w ∧ KeptRun x digest uuid4 env (x.rebalance digest uuid4 env r w) events
  | w, .other s :: events =>
    KeptRun x digest uuid4 env (x.step digest uuid4 env w (.other s)) events

lemma follows_run {x : CrossSectional} {digest : Logical → String} {uuid4 : ℕ → String}
    {env : ℕ → DispatchEnv} {loaded : List Text} {n : ℕ} (events : List CrossEvent)
    {w : CrossState × Outbox} (hn : n ≤ w.2.dispatcher.stream.length)
    (h : SameIds (bookIds w.1.openPositions) (w.2.openIds loaded n))
    (hkept : KeptRun x digest uuid4 env w events) :
    SameIds (bookIds (events.foldl (x.step digest uuid4 env) w).1.openPositions)
      ((events.foldl (x.step digest uuid4 env) w).2.openIds loaded n) := by
  induction events generalizing w with
  | nil => exact h
  | cons e events ih =>
    cases e with
    | rebalance r =>
      obtain ⟨hn', h'⟩ := follows_rebalance hn h hkept.1
      exact ih hn' h' hkept.2
    | other s => exact ih hn h hkept

end CrossSectional

namespace SupertrendAdx

/-- Every event of the run ends as `Kept` says. -/
def KeptRun (x : SupertrendAdx) (digest : Logical → String) (uuid5 : String → String)
    (env : ℕ → DispatchEnv) : AdxState × Outbox → List Event → Prop
  | _, [] => True
  | w, e :: events =>
    Kept x digest uuid5 env e w ∧ KeptRun x digest uuid5 env (x.step digest uuid5 env w e) events

lemma follows_run {x : SupertrendAdx} {digest : Logical → String} {uuid5 : String → String}
    {env : ℕ → DispatchEnv} {loaded : List Text} {n : ℕ} (events : List Event)
    {w : AdxState × Outbox} (hn : n ≤ w.2.dispatcher.stream.length)
    (h : SameIds (bookIds w.1) (w.2.openIds loaded n)) (hkept : KeptRun x digest uuid5 env w events) :
    SameIds (bookIds (events.foldl (x.step digest uuid5 env) w).1)
      ((events.foldl (x.step digest uuid5 env) w).2.openIds loaded n) := by
  induction events generalizing w with
  | nil => exact h
  | cons e events ih =>
    obtain ⟨hn', h'⟩ := follows_step hn h hkept.1
    exact ih hn' h' hkept.2

end SupertrendAdx

namespace LegacyStandalone

/-- Every scan of the run ends as `KeptScan` says. -/
def KeptRun (x : LegacyStandalone) (digest : Logical → String) (uuid4 : ℕ → String)
    (env : ℕ → DispatchEnv) : LegacyState → List (List EngineAction) → Prop
  | _, [] => True
  | s, actions :: scans =>
    KeptScan x digest uuid4 env actions s ∧
      KeptRun x digest uuid4 env (x.scan digest uuid4 env s actions) scans

/-- A loaded book: its symbols and ids are different, and `uuid4` draws none of them. -/
structure Loaded (uuid4 : ℕ → String) (engine : Engine) : Prop where
  symbols : (engine.openPositions.map Prod.fst).Nodup
  distinct : (engineIds engine).Nodup
  fresh : ∀ m, Text.chars (uuid4 m) ∉ engineIds engine

lemma follows_run {x : LegacyStandalone} {digest : Logical → String} {uuid4 : ℕ → String}
    {env : ℕ → DispatchEnv} {loaded : List Text} {n : ℕ} (hinj : Function.Injective uuid4)
    (scans : List (List EngineAction)) {s : LegacyState} (h : Agrees x uuid4 loaded n s)
    (hfollows : SameIds (engineIds s.engine) (s.outbox.openIds loaded n))
    (hkept : KeptRun x digest uuid4 env s scans) :
    SameIds (engineIds (scans.foldl (x.scan digest uuid4 env) s).engine)
      ((scans.foldl (x.scan digest uuid4 env) s).outbox.openIds loaded n) := by
  induction scans generalizing s with
  | nil => exact hfollows
  | cons actions scans ih =>
    obtain ⟨h', hfollows'⟩ := follows_scan hinj h hkept.1
    exact ih h' hfollows' hkept.2

end LegacyStandalone

/-- In every run of the three strategies whose outcomes are kept in this sense, a position is in the
book if and only if it was loaded or its OPEN has been appended, and no full CLOSE since. -/
theorem books_follow (digest : Logical → String) (uuid4 : ℕ → String) (uuid5 : String → String)
    (env : ℕ → DispatchEnv) (d : Dispatcher) (hinj : Function.Injective uuid4) :
    (∀ (x : CrossSectional) (runnerStore : Dict String OpenPosition) (authoritative : Option Snapshot)
        (events : List CrossSectional.CrossEvent),
      let book := reconcileOpenPositions runnerStore authoritative
      let w := x.run digest uuid4 env d runnerStore authoritative events
      CrossSectional.KeptRun x digest uuid4 env
          ({ openPositions := book }, { dispatcher := d }) events →
        SameIds (CrossSectional.bookIds w.1.openPositions)
          (w.2.openIds (CrossSectional.bookIds book) d.stream.length)) ∧
    (∀ (x : SupertrendAdx) (loaded : Table AdxPosition.positionId) (events : List SupertrendAdx.Event),
      let w := x.run digest uuid5 env d loaded events
      SupertrendAdx.KeptRun x digest uuid5 env
          ({ positions := loaded }, { dispatcher := d }) events →
        SameIds (SupertrendAdx.bookIds w.1)
          (w.2.openIds (SupertrendAdx.bookIds { positions := loaded }) d.stream.length)) ∧
    (∀ (x : LegacyStandalone) (engine : Engine) (scans : List (List EngineAction)),
      let s := x.runScans digest uuid4 env d engine scans
      LegacyStandalone.Loaded uuid4 engine → LegacyStandalone.KeptRun x digest uuid4 env
          { engine, outbox := { dispatcher := d } } scans →
        SameIds (LegacyStandalone.engineIds s.engine)
          (s.outbox.openIds (LegacyStandalone.engineIds engine) d.stream.length)) := by
  -- nothing has been appended at the start
  have hstart : ∀ loaded : List Text,
      Outbox.openIds loaded d.stream.length { dispatcher := d } = loaded := by
    intro loaded
    rw [Outbox.openIds, List.drop_length]
    rfl
  refine ⟨?_, ?_, ?_⟩
  · intro x runnerStore authoritative events book w hkept
    refine CrossSectional.follows_run events le_rfl ?_ hkept
    rw [hstart]
    exact fun pid => Iff.rfl
  · intro x loaded events w hkept
    refine SupertrendAdx.follows_run events le_rfl ?_ hkept
    rw [hstart]
    exact fun pid => Iff.rfl
  · intro x engine scans s hloaded hkept
    have hsame : SameIds (LegacyStandalone.engineIds engine) (Outbox.openIds
        (LegacyStandalone.engineIds engine) d.stream.length { dispatcher := d }) := by
      rw [hstart]
      exact fun pid => Iff.rfl
    refine LegacyStandalone.follows_run hinj scans ⟨le_rfl, hsame, hloaded.symbols, hloaded.distinct,
      fun m _ => hloaded.fresh m, fun c hc => absurd hc List.not_mem_nil⟩ hsame hkept

/-! ## A lapsed lease -/

/-- Ids that are all different. -/
def unaryId (n : ℕ) : String := String.ofList (List.replicate n 'i')

lemma unaryId_injective : Function.Injective unaryId := by
  intro m n h
  have hlength := congrArg List.length (String.ofList_injective h)
  rwa [List.length_replicate, List.length_replicate] at hlength

/-- The lease has lapsed. -/
def lapsedEnv (_ : ℕ) : DispatchEnv := { now := "t", leaseValid := false }

/-- The alpha of a Supertrend strategy that needs two candles. -/
def gold : SupertrendAdx where
  alphaId := "gold"
  version := "v1"
  minM15Bars := 1

/-- The adapter of an old engine. -/
def oldAlpha : LegacyStandalone where
  alphaId := "old"
  version := "v1"

def noFields : SignalFields := ⟨[], List.nodup_nil, fun p hp => absurd hp List.not_mem_nil⟩

/-- A flat candle. -/
def flatCandle (time : ℤ) : Candle := ⟨100, 100, 100, 100, time⟩

theorem books_follow_sample :
    SameIds (CrossSectional.bookIds (CrossSectional.daily.run CrossSectional.digestOf unaryId
        CrossSectional.liveEnv {} .empty (some ⟨[CrossSectional.unitPosition "p1" "BTC"], by simp⟩)
        [.rebalance (CrossSectional.flatten ⟨[], by simp⟩)]).1.openPositions)
      ((CrossSectional.daily.run CrossSectional.digestOf unaryId CrossSectional.liveEnv {} .empty
        (some ⟨[CrossSectional.unitPosition "p1" "BTC"], by simp⟩)
        [.rebalance (CrossSectional.flatten ⟨[], by simp⟩)]).2.openIds [.chars "p1"] 0) ∧
    SameIds (SupertrendAdx.bookIds (gold.run CrossSectional.digestOf id CrossSectional.liveEnv {} .empty
        [.kline true (some 1700000000000)]).1)
      ((gold.run CrossSectional.digestOf id CrossSectional.liveEnv {} .empty
        [.kline true (some 1700000000000)]).2.openIds [] 0) ∧
    SameIds (LegacyStandalone.engineIds (oldAlpha.runScans CrossSectional.digestOf unaryId
        CrossSectional.liveEnv {} {} [[.enter "BTC" [] noFields]]).engine)
      ((oldAlpha.runScans CrossSectional.digestOf unaryId CrossSectional.liveEnv {} {}
        [[.enter "BTC" [] noFields]]).outbox.openIds [] 0) := by
  obtain ⟨hcross, hsuper, hlegacy⟩ := books_follow CrossSectional.digestOf unaryId id
    CrossSectional.liveEnv {} unaryId_injective
  refine ⟨?_, ?_, ?_⟩
  · exact hcross CrossSectional.daily .empty
      (some ⟨[CrossSectional.unitPosition "p1" "BTC"], by simp⟩)
      [.rebalance (CrossSectional.flatten ⟨[], by simp⟩)]
      ⟨.inl ⟨by decide +kernel, by decide +kernel⟩, trivial⟩
  · exact hsuper gold .empty [.kline true (some 1700000000000)]
      ⟨fun e he => absurd he List.not_mem_nil, trivial⟩
  · exact hlegacy oldAlpha {} [[.enter "BTC" [] noFields]]
      ⟨List.nodup_nil, List.nodup_nil, fun _ => List.not_mem_nil⟩
      ⟨⟨by decide +kernel, by decide +kernel⟩, trivial⟩

/-- A CLOSE that is dropped leaves a position open in the stream that is in no book any more. -/
theorem droppedClose_forgotten :
    ¬ SameIds (CrossSectional.bookIds (CrossSectional.daily.run CrossSectional.digestOf unaryId
        lapsedEnv {} .empty (some ⟨[CrossSectional.unitPosition "p1" "BTC"], by simp⟩)
        [.rebalance (CrossSectional.flatten ⟨[], by simp⟩)]).1.openPositions)
      ((CrossSectional.daily.run CrossSectional.digestOf unaryId lapsedEnv {} .empty
        (some ⟨[CrossSectional.unitPosition "p1" "BTC"], by simp⟩)
        [.rebalance (CrossSectional.flatten ⟨[], by simp⟩)]).2.openIds [.chars "p1"] 0) ∧
    ¬ SameIds (SupertrendAdx.bookIds (gold.run CrossSectional.digestOf id lapsedEnv {}
        ⟨[⟨"p1", "LONG", 100, 1, 0, -1, none, false⟩], by simp⟩
        [.kline true (some 1700000000000),
          .scan [flatCandle 1699999100000, flatCandle 1700000000000],
          .kline true (some 1700000900000),
          .scan [flatCandle 1700000000000, flatCandle 1700000900000]]).1)
      ((gold.run CrossSectional.digestOf id lapsedEnv {}
        ⟨[⟨"p1", "LONG", 100, 1, 0, -1, none, false⟩], by simp⟩
        [.kline true (some 1700000000000),
          .scan [flatCandle 1699999100000, flatCandle 1700000000000],
          .kline true (some 1700000900000),
          .scan [flatCandle 1700000000000, flatCandle 1700000900000]]).2.openIds [.chars "p1"] 0) ∧
    ¬ SameIds (LegacyStandalone.engineIds (oldAlpha.runScans CrossSectional.digestOf unaryId lapsedEnv {}
        { openPositions := [("BTC", [("position_id", .str "p1")])] }
        [[.leave "BTC" noFields fun p hp => absurd hp List.not_mem_nil]]).engine)
      ((oldAlpha.runScans CrossSectional.digestOf unaryId lapsedEnv {}
        { openPositions := [("BTC", [("position_id", .str "p1")])] }
        [[.leave "BTC" noFields fun p hp => absurd hp List.not_mem_nil]]).outbox.openIds
          [.chars "p1"] 0) := by
  refine ⟨fun h => ?_, fun h => ?_, fun h => ?_⟩
  · have hp := (h (.chars "p1")).mpr (by decide +kernel)
    revert hp
    decide +kernel
  · have hp := (h (.chars "p1")).mpr (by decide +kernel)
    revert hp
    decide +kernel
  · have hp := (h (.chars "p1")).mpr (by decide +kernel)
    revert hp
    decide +kernel

end PaperTrade.Runner
