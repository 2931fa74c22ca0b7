import PaperTrade.Runtime.Breaker
import PaperTrade.Worker.VirtualLedger

/-!
# The slippage client

`SlippageClient` asks the market data service for a walk of the order book: it pushes a request on a
list of Redis and blocks on the answer. After `failure_threshold` failures in a row the breaker opens
for `cooldown_sec`, and no request is pushed. The counter is not reset when the cooldown ends, so the
probe that fails opens the breaker again at once: the client is a breaker over the streak of failures
(`SlippageClient.run_eq`), and `query_breaker_law` follows from the rule of breakers.

Redis may raise, stay silent until the timeout, or answer; `ended` is the clock as `_record_failure`
reads it.
-/

namespace PaperTrade.Worker

open PaperTrade.Runtime Breaker

/-! ## The client -/

/-- `SlippageClient`. -/
structure SlippageClient where
  failureThreshold : ℤ := 5
  cooldownSec : ℚ := 10
  maxReqBacklog : ℤ := 1000
  failures : ℕ := 0
  breakerOpenUntil : Option ℚ := none
deriving DecidableEq

/-- What goes down the pipeline. -/
inductive RpcCommand
  | lpush (key : String) (value : Text)
  | ltrim (key : String) (start stop : ℤ)
deriving DecidableEq

/-- What Redis makes of a request. -/
inductive Reply
  | raised
  /-- BLPOP times out. -/
  | silent
  | item (raw : Text)

/-- The arguments of `query`; `requestId` is `request_id or uuid.uuid4().hex`. -/
structure Query where
  exchange : String
  symbol : String
  side : String
  qty : PyFloat
  fallbackPct : PyFloat
  requestId : String

/-- A call of `query`: the clock where it starts, what Redis does and the clock where it fails. -/
structure QueryCall where
  query : Query
  started : ℚ
  reply : Reply
  ended : ℚ

namespace SlippageClient

/-- `_breaker_open`. -/
def breakerOpen (self : SlippageClient) (clock : ℚ) : Bool × SlippageClient :=
  match self.breakerOpenUntil with
  | none => (false, self)
  | some breakerOpenUntil =>
    if breakerOpenUntil ≤ clock then (false, { self with breakerOpenUntil := none })
    else (true, self)

/-- `_record_failure`. -/
def recordFailure (self : SlippageClient) (clock : ℚ) : SlippageClient :=
  let self := { self with failures := self.failures + 1 }
  if self.failureThreshold ≤ self.failures then
    { self with breakerOpenUntil := some (clock + self.cooldownSec) }
  else self

/-- `_record_success`. -/
def recordSuccess (self : SlippageClient) : SlippageClient :=
  { self with failures := 0, breakerOpenUntil := none }

/-- The commands of a request. -/
def request (self : SlippageClient) (q : Query) : List RpcCommand :=
  let reqKey := "orderbook:slip:req:" ++ q.exchange
  let req : Json := .obj
    [("request_id", .str q.requestId), ("exchange", .str q.exchange), ("symbol", .str q.symbol),
     ("side", .str q.side), ("qty", .float q.qty), ("fallback_pct", .float q.fallbackPct)]
  [.lpush reqKey (.json req), .ltrim reqKey 0 (self.maxReqBacklog - 1)]

end SlippageClient

/-- `float(resp.get(key, 0.0))`. -/
def numberOf (resp : Entries) (key : String) : Except PyError PyFloat :=
  jsonFloat ((resp.get? key).getD (.float 0))

/-- `numberOf` where it is finite and not negative. -/
def amountOf (resp : Entries) (key : String) : Option ℚ :=
  match numberOf resp key with
  | .ok (.fin value) => if value < 0 then none else some value
  | _ => none

/-- `json.loads` and the checks of an answer; `none` where one of them raises. -/
def readAnswer (rid : String) (raw : Text) : Option Entries := do
  let resp ← (← raw.loads).entries?
  if resp.get? "request_id" ∈ [none, some .null, some (.str rid)] ∧
      ∀ key ∈ ["avg_exec_price", "filled_qty", "requested_qty"], (amountOf resp key).isSome then
    some resp
  else none

/-- The answer to a request; `none` is a failure. -/
def readReply (rid : String) : Reply → Option Entries
  | .raised | .silent => none
  | .item raw => readAnswer rid raw

namespace SlippageClient

/-- `query`: the client, the commands that are sent, and the answer. -/
def query (self : SlippageClient) (call : QueryCall) :
    SlippageClient × List RpcCommand × Option Entries :=
  let (isOpen, self) := self.breakerOpen call.started
  if isOpen then (self, [], none)
  else
    let sent := self.request call.query
    match readReply call.query.requestId call.reply with
    | none => (self.recordFailure call.ended, sent, none)
    | some resp => (self.recordSuccess, sent, some resp)

/-- A call as the breaker sees it. -/
def attempt (self : SlippageClient) (call : QueryCall) : Attempt ℚ where
  started := call.started
  ended := call.ended
  outcome :=
    let (_, sent, answer) := self.query call
    if sent = [] then .skipped else if answer.isSome then .succeeded else .failed

/-- Calls one after the other. -/
def run (self : SlippageClient) (calls : List QueryCall) : SlippageClient × List (Attempt ℚ) :=
  calls.foldl (fun w call => ((w.1.query call).1, w.2 ++ [w.1.attempt call])) (self, [])

@[simp] lemma run_nil (self : SlippageClient) : self.run [] = (self, []) := rfl

@[simp] lemma run_snoc (self : SlippageClient) (calls : List QueryCall) (call : QueryCall) :
    self.run (calls ++ [call]) =
      (((self.run calls).1.query call).1, (self.run calls).2 ++ [(self.run calls).1.attempt call]) := by
  simp only [run, List.foldl_append, List.foldl_cons, List.foldl_nil]

lemma run_append (self : SlippageClient) (before calls : List QueryCall) :
    self.run (before ++ calls) =
      (((self.run before).1.run calls).1,
        (self.run before).2 ++ ((self.run before).1.run calls).2) := by
  induction calls using List.reverseRecOn with
  | nil => simp
  | append_singleton calls call ih => rw [← List.append_assoc, run_snoc, ih, run_snoc, List.append_assoc]

lemma log_cons (self : SlippageClient) (call : QueryCall) (calls : List QueryCall) :
    (self.run (call :: calls)).2 = self.attempt call :: ((self.query call).1.run calls).2 :=
  congrArg Prod.snd (self.run_append [call] calls)

/-- Every attempt is that of a call, by the client the calls before it leave behind. -/
lemma mem_log {self : SlippageClient} {calls : List QueryCall} {a : Attempt ℚ}
    (ha : a ∈ (self.run calls).2) :
    ∃ before call after, calls = before ++ call :: after ∧ a = (self.run before).1.attempt call := by
  induction calls using List.reverseRecOn with
  | nil => simp at ha
  | append_singleton calls call ih =>
    rw [run_snoc, List.mem_append, List.mem_singleton] at ha
    rcases ha with hearlier | rfl
    · obtain ⟨before, call', after, rfl, rfl⟩ := ih hearlier
      exact ⟨before, call', after ++ [call], by simp, rfl⟩
    · exact ⟨calls, call, [], rfl, rfl⟩

/-- The attempts have the clock of the calls. -/
lemma clock_log (self : SlippageClient) (calls : List QueryCall) :
    (self.run calls).2.map (fun a => (a.started, a.ended)) =
      calls.map fun call => (call.started, call.ended) := by
  induction calls using List.reverseRecOn with
  | nil => rfl
  | append_singleton calls call ih => simp [ih, attempt]

/-! ## The streak of failures -/

/-- A client after a streak of failures. -/
def ofStreak (self : SlippageClient) (streak : List ℚ) : SlippageClient :=
  { self with
    failures := streak.length
    breakerOpenUntil :=
      if self.failureThreshold ≤ streak.length then streak.head?.map (· + self.cooldownSec) else none }

variable (self : SlippageClient) (failed : List ℚ)

/-- A client that lets a call through. -/
abbrev probing : SlippageClient := { self.ofStreak failed with breakerOpenUntil := none }

lemma probing_eq (h : (self.ofStreak failed).breakerOpenUntil = none) :
    self.probing failed = self.ofStreak failed := by
  rw [probing, ← h]

/-- The breaker of the client is the breaker over the streak. -/
lemma breakerOpen_ofStreak (clock : ℚ) :
    (self.ofStreak failed).breakerOpen clock =
      if Admits self.failureThreshold self.cooldownSec failed clock then
        (false, self.probing failed)
      else (true, self.ofStreak failed) := by
  by_cases hshort : (failed.length : ℤ) < self.failureThreshold
  · have hclosed : (self.ofStreak failed).breakerOpenUntil = none := if_neg (by omega)
    have hadmits : Admits self.failureThreshold self.cooldownSec failed clock := .inl hshort
    rw [if_pos hadmits, probing_eq _ _ hclosed]
    simp only [breakerOpen, hclosed]
  · have hopen : (self.ofStreak failed).breakerOpenUntil =
        failed.head?.map (· + self.cooldownSec) := if_pos (by omega)
    match hlast : failed.head? with
    | none =>
      have hclosed : (self.ofStreak failed).breakerOpenUntil = none := by rw [hopen, hlast]; rfl
      have hadmits : Admits self.failureThreshold self.cooldownSec failed clock :=
        .inr fun last h => by simp [hlast] at h
      rw [if_pos hadmits, probing_eq _ _ hclosed]
      simp only [breakerOpen, hclosed]
    | some last =>
      have hadmits : Admits self.failureThreshold self.cooldownSec failed clock ↔
          last + self.cooldownSec ≤ clock := by
        simp [Admits, hshort, hlast]
      simp only [breakerOpen, hopen, hlast, Option.map_some, hadmits]

lemma recordFailure_probing (clock : ℚ) :
    (self.probing failed).recordFailure clock = self.ofStreak (clock :: failed) := by
  by_cases hfull : self.failureThreshold ≤ (failed.length : ℤ) + 1
  · simp [recordFailure, ofStreak, hfull]
  · simp [recordFailure, ofStreak, hfull]

lemma recordSuccess_probing : (self.probing failed).recordSuccess = self.ofStreak [] := by
  simp [recordSuccess, ofStreak]

/-- A call that is let through. -/
lemma query_admitted {call : QueryCall}
    (hadmits : Admits self.failureThreshold self.cooldownSec failed call.started) :
    (self.ofStreak failed).query call =
      (match readReply call.query.requestId call.reply with
        | none => self.ofStreak (call.ended :: failed)
        | some _ => self.ofStreak [],
        self.request call.query, readReply call.query.requestId call.reply) := by
  rw [query, breakerOpen_ofStreak, if_pos hadmits]
  cases readReply call.query.requestId call.reply with
  | none =>
    show ((self.probing failed).recordFailure call.ended, _, _) = _
    rw [recordFailure_probing]
    rfl
  | some resp =>
    show ((self.probing failed).recordSuccess, _, _) = _
    rw [recordSuccess_probing]
    rfl

/-- A call that is kept from trying. -/
lemma query_kept {call : QueryCall}
    (hkept : ¬ Admits self.failureThreshold self.cooldownSec failed call.started) :
    (self.ofStreak failed).query call = (self.ofStreak failed, [], none) := by
  rw [query, breakerOpen_ofStreak, if_neg hkept]
  rfl

/-- One call: it is kept from trying as the rule says, and the streak tells the client. -/
lemma query_ofStreak (call : QueryCall) :
    ((self.ofStreak failed).query call).1 =
        self.ofStreak (((self.ofStreak failed).attempt call).extend failed) ∧
      (((self.ofStreak failed).attempt call).outcome ≠ .skipped ↔
        Admits self.failureThreshold self.cooldownSec failed call.started) := by
  by_cases hadmits : Admits self.failureThreshold self.cooldownSec failed call.started
  · have hsent : self.request call.query ≠ [] := List.cons_ne_nil _ _
    simp only [attempt, self.query_admitted failed hadmits, if_neg hsent, hadmits, iff_true]
    cases readReply call.query.requestId call.reply with
    | none => exact ⟨rfl, nofun⟩
    | some resp => exact ⟨rfl, nofun⟩
  · simp [attempt, self.query_kept failed hadmits, hadmits, Attempt.extend]

/-- The calls of a new client: the client is that of the streak, and the log obeys the rule. -/
theorem run_ofStreak (calls : List QueryCall) :
    ((self.ofStreak []).run calls).1 = self.ofStreak (streak ((self.ofStreak []).run calls).2) ∧
      Obeys self.failureThreshold self.cooldownSec ((self.ofStreak []).run calls).2 := by
  induction calls using List.reverseRecOn with
  | nil => exact ⟨rfl, obeys_nil _ _⟩
  | append_singleton calls call ih =>
    obtain ⟨hclient, hobeys⟩ := ih
    obtain ⟨hnext, hadmits⟩ := self.query_ofStreak (streak ((self.ofStreak []).run calls).2) call
    rw [run_snoc, streak_snoc, hclient]
    exact ⟨hnext, hobeys.snoc hadmits⟩

/-! ## The law of the breaker -/

/-- `SlippageClient.__init__`. -/
def new (failureThreshold : ℤ) (cooldownSec : ℚ) (maxReqBacklog : ℤ) : SlippageClient where
  failureThreshold := failureThreshold
  cooldownSec := cooldownSec
  maxReqBacklog := maxReqBacklog

/-- A call pushes a request. -/
def Enqueues (self : SlippageClient) (call : QueryCall) : Prop :=
  ∃ key value, .lpush key value ∈ (self.query call).2.1

/-- A call returns an answer. -/
def Answers (self : SlippageClient) (call : QueryCall) : Prop := (self.query call).2.2.isSome

/-- Calls one after the other, on a clock that does not go back. -/
def Sequential (calls : List QueryCall) : Prop :=
  (∀ call ∈ calls, call.started ≤ call.ended) ∧ calls.Pairwise (·.ended ≤ ·.started)

instance (calls : List QueryCall) : Decidable (Sequential calls) :=
  inferInstanceAs (Decidable (_ ∧ _))

lemma inOrder_log (self : SlippageClient) {calls : List QueryCall} (h : Sequential calls) :
    InOrder (self.run calls).2 := by
  have hclock := self.clock_log calls
  constructor
  · intro a ha
    have hmem : (a.started, a.ended) ∈ calls.map fun call => (call.started, call.ended) :=
      hclock ▸ List.mem_map_of_mem ha
    obtain ⟨call, hcall, heq⟩ := List.mem_map.mp hmem
    have hle := h.1 call hcall
    simp only [Prod.mk.injEq] at heq
    rwa [heq.1, heq.2] at hle
  · have hpairs : (calls.map fun call => (call.started, call.ended)).Pairwise (·.2 ≤ ·.1) :=
      List.pairwise_map.mpr h.2
    rw [← hclock] at hpairs
    exact List.pairwise_map.mp hpairs

lemma outcome_ne_skipped_iff {self : SlippageClient} {call : QueryCall} :
    (self.attempt call).outcome ≠ .skipped ↔ (self.query call).2.1 ≠ [] := by
  simp only [attempt]
  split
  · simp_all
  · split <;> simp_all

lemma outcome_succeeded {self : SlippageClient} {call : QueryCall}
    (h : (self.attempt call).outcome = .succeeded) : self.Answers call := by
  simp only [attempt] at h
  split at h
  · cases h
  · split at h
    · assumption
    · cases h

/-- A request is pushed when the rule lets the call through. -/
lemma enqueues_ofStreak {call : QueryCall} :
    (self.ofStreak failed).Enqueues call ↔
      Admits self.failureThreshold self.cooldownSec failed call.started := by
  by_cases hadmits : Admits self.failureThreshold self.cooldownSec failed call.started
  · simp [Enqueues, self.query_admitted failed hadmits, request, hadmits]
  · simp [Enqueues, self.query_kept failed hadmits, hadmits]

/-- After an answer nothing is left of the failures. -/
lemma query_of_answers {call : QueryCall} (h : (self.ofStreak failed).Answers call) :
    ((self.ofStreak failed).query call).1 = self.ofStreak [] := by
  by_cases hadmits : Admits self.failureThreshold self.cooldownSec failed call.started
  · rw [Answers, self.query_admitted failed hadmits] at h
    rw [self.query_admitted failed hadmits]
    match hreply : readReply call.query.requestId call.reply with
    | none => simp [hreply] at h
    | some resp => rfl
  · simp [Answers, self.query_kept failed hadmits] at h

lemma new_eq (failureThreshold : ℤ) (cooldownSec : ℚ) (maxReqBacklog : ℤ) :
    new failureThreshold cooldownSec maxReqBacklog =
      (new failureThreshold cooldownSec maxReqBacklog).ofStreak [] := by
  simp [new, ofStreak]

/-- From `failure_threshold` failures in a row no request is pushed before `cooldown_sec` has passed
since the last one, and then at most one for each `cooldown_sec` until a call answers. Below the
threshold every call pushes its request, and an answer leaves a new client. -/
theorem query_breaker_law (failureThreshold : ℤ) (cooldownSec : ℚ) (maxReqBacklog : ℤ)
    {calls : List QueryCall} (hclock : Sequential calls) :
    let client := new failureThreshold cooldownSec maxReqBacklog
    (∀ before call after, calls = before ++ call :: after →
      (failureThreshold ≤ (streak (client.run before).2).length →
        ∀ last ∈ (streak (client.run before).2).head?,
          ((client.run before).1.Enqueues call ↔ last + cooldownSec ≤ call.started)) ∧
      ((streak (client.run before).2).length < failureThreshold →
        (client.run before).1.Enqueues call) ∧
      ((client.run before).1.Answers call → (client.run (before ++ [call])).1 = client)) ∧
    ∀ before first between second after,
      calls = before ++ first :: between ++ second :: after →
      failureThreshold ≤ (streak (client.run before).2).length →
      (client.run before).1.Enqueues first →
      (client.run (before ++ first :: between)).1.Enqueues second →
      (∀ l call r, first :: between = l ++ call :: r → ¬ (client.run (before ++ l)).1.Answers call) →
      first.started + cooldownSec ≤ second.started := by
  intro client
  have hstate (before : List QueryCall) :
      (client.run before).1 = client.ofStreak (streak (client.run before).2) := by
    have hrun := (client.run_ofStreak before).1
    rwa [← new_eq] at hrun
  have hobeys : Obeys failureThreshold cooldownSec (client.run calls).2 := by
    have hrun := (client.run_ofStreak calls).2
    rwa [← new_eq] at hrun
  refine ⟨fun before call after _ => ⟨fun hfull last hlast => ?_, fun hshort => ?_, fun hanswers => ?_⟩,
    fun before first between second after hcalls hfull hfirst hsecond hfailing => ?_⟩
  · have hwaits : ¬ ((streak (client.run before).2).length : ℤ) < client.failureThreshold :=
      not_lt.mpr hfull
    rw [hstate before, enqueues_ofStreak, Admits, or_iff_right hwaits]
    exact ⟨fun h => h last hlast, fun h last' hlast' => Option.mem_unique hlast hlast' ▸ h⟩
  · rw [hstate before, enqueues_ofStreak]
    exact .inl hshort
  · rw [hstate before] at hanswers
    rw [run_snoc, hstate before, client.query_of_answers _ hanswers]
    exact (new_eq ..).symm
  · have hlog : (client.run calls).2 =
        (client.run before).2 ++ (client.run before).1.attempt first ::
            (((client.run before).1.query first).1.run between).2 ++
          (client.run (before ++ first :: between)).1.attempt second ::
            (((client.run (before ++ first :: between)).1.query second).1.run after).2 := by
      rw [hcalls, run_append]
      dsimp only
      rw [log_cons, run_append]
      dsimp only
      rw [log_cons]
    have hpushed {self : SlippageClient} {call : QueryCall} (h : self.Enqueues call) :
        (self.attempt call).outcome ≠ .skipped := by
      obtain ⟨key, value, hmem⟩ := h
      exact outcome_ne_skipped_iff.mpr (List.ne_nil_of_mem hmem)
    have horder := client.inOrder_log hclock
    rw [hlog] at hobeys horder
    refine hobeys.spaced horder hfull (hpushed hfirst) (hpushed hsecond) fun a ha hsucceeded => ?_
    rw [← log_cons] at ha
    obtain ⟨l, call, r, hsplit, rfl⟩ := mem_log ha
    refine hfailing l call r hsplit ?_
    rw [run_append]
    exact outcome_succeeded hsucceeded

/-- A request that times out after a second. -/
def timeoutAt (clock : ℚ) : QueryCall where
  query := ⟨"binance", "BTCUSDT", "BUY", 1, 0, "a"⟩
  started := clock
  reply := .silent
  ended := clock + 1

/-- Two timeouts open the breaker for 100 s, and a call after 50 s pushes nothing. -/
theorem two_timeouts_open_breaker :
    ¬ ((new 2 100 1000).run [timeoutAt 0, timeoutAt 1]).1.Enqueues (timeoutAt 50) := by
  have hclock : Sequential [timeoutAt 0, timeoutAt 1, timeoutAt 50] := by decide +kernel
  obtain ⟨hlaw, -⟩ := query_breaker_law 2 100 1000 hclock
  obtain ⟨hopen, -⟩ := hlaw [timeoutAt 0, timeoutAt 1] (timeoutAt 50) [] rfl
  have hstreak : streak ((new 2 100 1000).run [timeoutAt 0, timeoutAt 1]).2 = [2, 1] := by
    decide +kernel
  rw [hstreak] at hopen
  rw [hopen (by decide) 2 rfl]
  decide +kernel

end SlippageClient

end PaperTrade.Worker
