import PaperTrade.Worker.VirtualEvents

/-!
# The consumer of the virtual stream

`process_virtual_trade_message` checks the payload before the event is applied, and the inner loop of
`run_virtual_trade_consumer` reads messages in two modes: after a connect it reads its pending ones
(`"0"`) until there are none, then new ones (`">"`). A message that fails is not acknowledged. What is
read with `"0"` starts at the oldest unacknowledged message each time, so a read that acknowledges
nothing is repeated: the recovery ends exactly when no read of it is such a one.

A lost connection, after which the loop starts over, is not modelled.
-/

namespace PaperTrade.Worker

open PaperTrade.Runtime

/-! ## process_virtual_trade_message -/

/-- What `process_virtual_trade_message` raises. -/
inductive VirtualMessageError
  /-- a `JSONDecodeError` -/
  | invalidPayload (raw : Text)
  /-- `virtual ledger payload must be an object` -/
  | notAnObject
  /-- `virtual ledger message requires ledger_mode=virtual` -/
  | notVirtual
  /-- `virtual ledger message missing fields: …` -/
  | missingFields (missing : List String)
  /-- `unsupported virtual ledger type: …` -/
  | unsupportedType (type : Text)
  /-- `unsupported virtual ledger side: …` -/
  | unsupportedSide (side : Text)
  /-- `virtual ledger price and qty must be positive` -/
  | notPositive
  /-- what an operator, a call or `apply_virtual_trade_event` raises -/
  | raised (e : PyError)

/-- `required`, sorted. -/
def requiredVirtualFields : List String :=
  ["alpha_id", "event_id", "position_id", "price", "qty", "side", "symbol", "timestamp", "type"]

/-- The event of a message. -/
def virtualEventOf (data : List (String × Text)) : Except VirtualMessageError Entries :=
  match (data.find? fun e => e.1 = "payload").map Prod.snd with
  | some raw =>
    match raw.loads with
    | none => .error (.invalidPayload raw)
    | some (.obj event) => .ok event
    | some _ => .error .notAnObject
  | none => .ok (data.map fun e => (e.1, .str e.2.spell))

/-- `v not in choices`, as an error; a list or a dictionary has no hash. -/
def checkChoice (choices : List String) (e : Text → VirtualMessageError) (v : Json) :
    Except VirtualMessageError Unit :=
  match v with
  | .str s => if s ∈ choices then .ok () else .error (e (pyStr v))
  | .arr _ => .error (.raised .typeError)
  | .obj _ => .error (.raised .typeError)
  | _ => .error (e (pyStr v))

/-- `event[key]` of a required field. -/
def virtualField (event : Entries) (key : String) : Except VirtualMessageError Json :=
  (item event key).mapError .raised

/-- `float(event[key])` of a required field. -/
def virtualNumber (event : Entries) (key : String) : Except VirtualMessageError PyFloat :=
  (floatItem event key).mapError .raised

/-- `event.get("ledger_mode") != "virtual"` -/
def isVirtual (event : Entries) : Bool :=
  match event.get? "ledger_mode" with
  | some (.str mode) => mode = "virtual"
  | _ => false

/-- The checks of `process_virtual_trade_message`. -/
def checkVirtualEvent (event : Entries) : Except VirtualMessageError Unit := do
  if !isVirtual event then throw .notVirtual
  let missing := requiredVirtualFields.filter fun key => (event.get? key).isNone
  if missing ≠ [] then throw (.missingFields missing)
  checkChoice ["VIRTUAL_OPEN", "VIRTUAL_CLOSE"] .unsupportedType (← virtualField event "type")
  checkChoice ["LONG", "SHORT"] .unsupportedSide (← virtualField event "side")
  if (← virtualNumber event "price") ≤ 0 then throw .notPositive
  if (← virtualNumber event "qty") ≤ 0 then throw .notPositive

/-- The event that `process_virtual_trade_message` hands to the database. -/
def readVirtualMessage (data : List (String × Text)) : Except VirtualMessageError Entries := do
  let event ← virtualEventOf data
  checkVirtualEvent event
  pure event

/-- `process_virtual_trade_message`: what it returns or raises, and the database after it. -/
def processVirtualTradeMessage (now : String) (s : Tables) (data : List (String × Text)) :
    Except VirtualMessageError (Option VirtualResult) × Tables :=
  match readVirtualMessage data with
  | .error e => (.error e, s)
  | .ok event => ((virtualReply now s event).mapError .raised, applyVirtual now s event)

/-! ## run_virtual_trade_consumer -/

/-- An entry of the stream. -/
structure VirtualMessage where
  id : String
  data : List (String × Text)

/-- The state of the consumer's inner loop and of its stream. -/
structure VirtualConsumer where
  tables : Tables
  /-- delivered and not acknowledged, oldest first -/
  pending : Table VirtualMessage.id
  /-- not delivered yet -/
  fresh : List VirtualMessage
  recoverPending : Bool

/-- What a read takes from outside. -/
structure ReadEnv where
  /-- the messages published since the last read -/
  published : List VirtualMessage
  /-- the clock of a message of the read -/
  now : VirtualMessage → String

namespace VirtualConsumer

variable (count : ℕ)

/-- The body of the loop over the messages of a read. -/
def handle (now : VirtualMessage → String) (c : VirtualConsumer) (m : VirtualMessage) :
    VirtualConsumer :=
  match processVirtualTradeMessage (now m) c.tables m.data with
  | (.ok _, tables) => { c with tables, pending := c.pending.erase m.id }
  | (.error _, tables) => { c with tables }

/-- One read and its messages. -/
def read (env : ReadEnv) (c : VirtualConsumer) : VirtualConsumer :=
  let c := { c with fresh := c.fresh ++ env.published }
  if c.recoverPending then
    let rows := c.pending.rows.take count
    if rows = [] then { c with recoverPending := false }
    else rows.foldl (handle env.now) c
  else
    let rows := c.fresh.take count
    rows.foldl (handle env.now)
      { c with
        pending := rows.foldl Table.insertOrIgnore c.pending
        fresh := c.fresh.drop count }

/-- The consumer after some reads. -/
def afterReads (env : ℕ → ReadEnv) (c : VirtualConsumer) : ℕ → VirtualConsumer
  | 0 => c
  | n + 1 => (afterReads env c n).read count (env n)

end VirtualConsumer

/-! ## What a message does -/

/-- The message is processed without an error on the database as it is. -/
def Accepts (s : Tables) (m : VirtualMessage) : Prop :=
  ∃ now result, (processVirtualTradeMessage now s m.data).1 = .ok result

/-- Whether an event is accepted does not depend on the clock. -/
lemma ApplyVirtual.accepted {now now' : String} {event : Entries} {s s' s'' : Tables}
    {result : Option VirtualResult} {r : Except PyError (Option VirtualResult)}
    (h : ApplyVirtual now event s (.ok result) s') (h' : ApplyVirtual now' event s r s'') :
    ∃ result', r = .ok result' := by
  cases h with
  | duplicate hids hknown =>
    -- with a known id, the other outcomes are the ones of a new id
    have hnot : ∀ {eventId eventType alphaId}, EventIds event eventId eventType alphaId →
        s.virtualTradeEvents.contains eventId ≠ false := by
      intro eventId eventType alphaId hids'
      obtain ⟨rfl, -, -⟩ := hids.unique hids'
      rw [hknown]
      decide
    cases h' with
    | unread hno => exact absurd hids (hno _ _ _)
    | duplicate => exact ⟨_, rfl⟩
    | unsupported hids' hnew => exact absurd hnew (hnot hids')
    | refused hids' hnew => exact absurd hnew (hnot hids')
    | opened => exact ⟨_, rfl⟩
    | unnamed hids' hnew => exact absurd hnew (hnot hids')
    | missing hids' hnew => exact absurd hnew (hnot hids')
    | unbooked hids' hnew => exact absurd hnew (hnot hids')
    | taken hids' hnew => exact absurd hnew (hnot hids')
    | closed => exact ⟨_, rfl⟩
  | opened hids hrow hrecords =>
    obtain ⟨v, -, rfl, -⟩ := h'.accepts_open hids hrecords.1 hrow
    exact ⟨_, rfl⟩
  | closed hids hposition hfind htrade hfree _ hrecords =>
    have hid := ((Table.find?_some_iff _ _ _).mp hfind).2
    rw [← hid] at hposition hfind
    obtain ⟨v, -, -, rfl, -⟩ := h'.accepts_close hids hrecords.1 hposition hfind htrade hfree
    exact ⟨_, rfl⟩

/-- A message is processed without an error, or it changes nothing. -/
lemma process_cases (now : String) (s : Tables) (m : VirtualMessage) :
    (Accepts s m ∧ ∃ result, (processVirtualTradeMessage now s m.data).1 = .ok result) ∨
    (¬ Accepts s m ∧ ∃ e, processVirtualTradeMessage now s m.data = (.error e, s)) := by
  unfold Accepts processVirtualTradeMessage
  cases readVirtualMessage m.data with
  | error e =>
    refine .inr ⟨?_, e, rfl⟩
    rintro ⟨_, _, h⟩
    cases h
  | ok event =>
    dsimp only
    have happly := applyVirtual_cases now event s
    cases hreply : virtualReply now s event with
    | ok result => exact .inl ⟨⟨now, result, by rw [hreply]; rfl⟩, result, rfl⟩
    | error e =>
      rw [hreply] at happly
      refine .inr ⟨?_, .raised e, by rw [happly.unchanged_of_error]; rfl⟩
      rintro ⟨now', result, h⟩
      cases hreply' : virtualReply now' s event with
      | error e' =>
        rw [hreply'] at h
        cases h
      | ok result' =>
        have happly' := applyVirtual_cases now' event s
        rw [hreply'] at happly'
        obtain ⟨_, hok⟩ := happly'.accepted happly
        cases hok

namespace VirtualConsumer

variable {count : ℕ} {now : VirtualMessage → String}

lemma handle_accepted {c : VirtualConsumer} {m : VirtualMessage} (h : Accepts c.tables m) :
    (handle now c m).pending = c.pending.erase m.id := by
  rcases process_cases (now m) c.tables m with ⟨-, result, hok⟩ | ⟨hno, -⟩
  · unfold handle
    generalize processVirtualTradeMessage (now m) c.tables m.data = p at hok
    obtain ⟨r, tables⟩ := p
    cases hok
    rfl
  · exact absurd h hno

lemma handle_failed {c : VirtualConsumer} {m : VirtualMessage} (h : ¬ Accepts c.tables m) :
    handle now c m = c := by
  rcases process_cases (now m) c.tables m with ⟨hyes, -⟩ | ⟨-, e, herror⟩
  · exact absurd hyes h
  · unfold handle
    rw [herror]

@[simp] lemma handle_recoverPending (c : VirtualConsumer) (m : VirtualMessage) :
    (handle now c m).recoverPending = c.recoverPending := by
  unfold handle
  split <;> rfl

lemma recoverPending_handled (rows : List VirtualMessage) (c : VirtualConsumer) :
    (rows.foldl (handle now) c).recoverPending = c.recoverPending := by
  induction rows generalizing c with
  | nil => rfl
  | cons m rest ih => rw [List.foldl_cons, ih, handle_recoverPending]

/-- A message leaves the pending ones as they are or takes itself out. -/
lemma pending_handle (c : VirtualConsumer) (m : VirtualMessage) :
    (handle now c m).pending = c.pending ∨ (Accepts c.tables m ∧
      (handle now c m).pending = c.pending.erase m.id) := by
  by_cases h : Accepts c.tables m
  · exact .inr ⟨h, handle_accepted h⟩
  · rw [handle_failed h]
    exact .inl rfl

lemma length_erase_le (t : Table VirtualMessage.id) (id : String) :
    (t.erase id).rows.length ≤ t.rows.length := by
  rw [Table.erase, Table.rows_filter]
  exact List.length_filter_le _ _

lemma length_erase_lt {t : Table VirtualMessage.id} {m : VirtualMessage} (h : m ∈ t.rows) :
    (t.erase m.id).rows.length < t.rows.length := by
  rw [Table.erase, Table.rows_filter]
  have hlt := List.length_filter_lt_length_iff_exists (l := t.rows)
    (p := fun r : VirtualMessage => decide (r.id ≠ m.id))
  exact hlt.mpr ⟨m, h, by simp⟩

lemma length_handled_le (rows : List VirtualMessage) (c : VirtualConsumer) :
    (rows.foldl (handle now) c).pending.rows.length ≤ c.pending.rows.length := by
  induction rows generalizing c with
  | nil => exact le_rfl
  | cons m rest ih =>
    refine (ih _).trans ?_
    rcases @pending_handle now c m with h | ⟨-, h⟩
    · rw [h]
    · rw [h]
      exact length_erase_le _ _

/-- Messages that all fail change nothing. -/
lemma handled_failed {rows : List VirtualMessage} {c : VirtualConsumer}
    (h : ∀ m ∈ rows, ¬ Accepts c.tables m) : rows.foldl (handle now) c = c := by
  induction rows with
  | nil => rfl
  | cons m rest ih =>
    obtain ⟨hm, hrest⟩ := List.forall_mem_cons.mp h
    rw [List.foldl_cons, handle_failed hm]
    exact ih hrest

/-- With an acceptable message among them, fewer are pending afterwards. -/
lemma length_handled_lt {rows : List VirtualMessage} {c : VirtualConsumer}
    (hrows : ∀ m ∈ rows, m ∈ c.pending.rows) (h : ∃ m ∈ rows, Accepts c.tables m) :
    (rows.foldl (handle now) c).pending.rows.length < c.pending.rows.length := by
  induction rows with
  | nil =>
    obtain ⟨m, hm, -⟩ := h
    cases hm
  | cons m rest ih =>
    obtain ⟨hm, hrest⟩ := List.forall_mem_cons.mp hrows
    rw [List.foldl_cons]
    by_cases haccepts : Accepts c.tables m
    · refine lt_of_le_of_lt (length_handled_le _ _) ?_
      rw [handle_accepted haccepts]
      exact length_erase_lt hm
    · rw [handle_failed haccepts]
      obtain ⟨m', hm', haccepts'⟩ := h
      rcases List.mem_cons.mp hm' with rfl | hm'
      · exact absurd haccepts' haccepts
      · exact ih hrest ⟨m', hm', haccepts'⟩

/-! ## The recovery -/

variable (count) in
/-- The next read is a recovery read whose messages all fail. -/
def Stuck (c : VirtualConsumer) : Prop :=
  c.recoverPending = true ∧ c.pending.rows.take count ≠ [] ∧
    ∀ m ∈ c.pending.rows.take count, ¬ Accepts c.tables m

lemma read_stuck {c : VirtualConsumer} (h : c.Stuck count) (env : ReadEnv) :
    c.read count env = { c with fresh := c.fresh ++ env.published } := by
  obtain ⟨hrecover, hrows, hfail⟩ := h
  unfold read
  simp only [hrecover, if_true, if_neg hrows]
  exact handled_failed hfail

/-- A read that acknowledges nothing is repeated. -/
lemma stuck_afterReads {c : VirtualConsumer} {env : ℕ → ReadEnv} {n : ℕ}
    (h : (c.afterReads count env n).Stuck count) (k : ℕ) :
    (c.afterReads count env (n + k)).Stuck count := by
  induction k with
  | zero => exact h
  | succ k ih =>
    change Stuck count (read count (env (n + k)) (c.afterReads count env (n + k)))
    rw [read_stuck ih]
    exact ih

/-- The consumer does not go back to its pending messages. -/
lemma recovered_afterReads {c : VirtualConsumer} {env : ℕ → ReadEnv} {n : ℕ}
    (h : (c.afterReads count env n).recoverPending = false) (k : ℕ) :
    (c.afterReads count env (n + k)).recoverPending = false := by
  induction k with
  | zero => exact h
  | succ k ih =>
    change (read count (env (n + k)) (c.afterReads count env (n + k))).recoverPending = false
    unfold read
    simp only [ih, Bool.false_eq_true, if_false]
    rw [recoverPending_handled]

/-- A recovery read ends the recovery, or leaves fewer messages pending, unless it is stuck. -/
lemma read_recovering {c : VirtualConsumer} (hrecover : c.recoverPending = true)
    (h : ¬ c.Stuck count) (env : ReadEnv) : (c.read count env).recoverPending = false ∨
      (c.read count env).pending.rows.length < c.pending.rows.length := by
  unfold read
  simp only [hrecover, if_true]
  by_cases hrows : c.pending.rows.take count = []
  · rw [if_pos hrows]
    exact .inl rfl
  · rw [if_neg hrows]
    have haccepts : ∃ m ∈ c.pending.rows.take count, Accepts c.tables m := by
      by_contra hno
      push Not at hno
      exact h ⟨hrecover, hrows, hno⟩
    exact .inr (length_handled_lt (fun m hm => List.mem_of_mem_take hm) haccepts)

/-- The recovery ends exactly when no read of it is stuck. -/
theorem recovery_ends_iff (count : ℕ) (env : ℕ → ReadEnv) (c : VirtualConsumer) :
    (∃ n, (c.afterReads count env n).recoverPending = false) ↔
      ∀ n, ¬ (c.afterReads count env n).Stuck count := by
  constructor
  · rintro ⟨n, hended⟩ k hstuck
    -- after both points the recovery has ended and is stuck
    have hn := recovered_afterReads hended k
    have hk := stuck_afterReads hstuck n
    rw [Nat.add_comm] at hk
    rw [hk.1] at hn
    cases hn
  · intro hfree
    -- the number of pending messages decreases with each read
    have hends : ∀ k n, (c.afterReads count env n).pending.rows.length < k →
        ∃ n, (c.afterReads count env n).recoverPending = false := by
      intro k
      induction k with
      | zero => exact fun n hlength => absurd hlength (Nat.not_lt_zero _)
      | succ k ih =>
        intro n hlength
        cases hrecover : (c.afterReads count env n).recoverPending with
        | false => exact ⟨n, hrecover⟩
        | true =>
          rcases read_recovering hrecover (hfree n) (env n) with hended | hlt
          · exact ⟨n + 1, hended⟩
          · refine ih (n + 1) ?_
            change (read count (env n) (c.afterReads count env n)).pending.rows.length < k
            omega
    exact hends _ 0 (Nat.lt_succ_self _)

/-! ## A message that always fails -/

lemma mem_handled {m : VirtualMessage} (hfails : ∀ s, ¬ Accepts s m) {rows : List VirtualMessage}
    {c : VirtualConsumer} (hids : ∀ m' ∈ rows, m'.id = m.id → m' = m) (hm : m ∈ c.pending.rows) :
    m ∈ (rows.foldl (handle now) c).pending.rows := by
  induction rows generalizing c with
  | nil => exact hm
  | cons m' rest ih =>
    obtain ⟨hid, hrest⟩ := List.forall_mem_cons.mp hids
    refine ih hrest ?_
    rcases @pending_handle now c m' with h | ⟨haccepts, h⟩
    · rwa [h]
    · rw [h, Table.mem_erase]
      refine ⟨hm, fun heq => ?_⟩
      rw [hid heq.symm] at haccepts
      exact hfails _ haccepts

/-- While a message that fails on every database is pending, the recovery goes on. -/
theorem recovery_spins {count : ℕ} (hcount : 0 < count) (env : ℕ → ReadEnv) {c : VirtualConsumer}
    (hrecover : c.recoverPending = true) {m : VirtualMessage} (hm : m ∈ c.pending.rows)
    (hfails : ∀ s, ¬ Accepts s m) (n : ℕ) : (c.afterReads count env n).recoverPending = true := by
  have hkept : (c.afterReads count env n).recoverPending = true ∧
      m ∈ (c.afterReads count env n).pending.rows := by
    induction n with
    | zero => exact ⟨hrecover, hm⟩
    | succ n ih =>
      obtain ⟨hrecovering, hpending⟩ := ih
      change (read count (env n) (c.afterReads count env n)).recoverPending = true ∧
        m ∈ (read count (env n) (c.afterReads count env n)).pending.rows
      generalize c.afterReads count env n = c' at hrecovering hpending
      have hrows : c'.pending.rows.take count ≠ [] := by
        rw [Ne, List.take_eq_nil_iff, not_or]
        exact ⟨by omega, List.ne_nil_of_mem hpending⟩
      unfold read
      simp only [hrecovering, if_true, if_neg hrows]
      refine ⟨by rw [recoverPending_handled], mem_handled hfails ?_ hpending⟩
      intro m' hm' hid
      exact Table.eq_of_key_eq _ (List.mem_of_mem_take hm') hpending hid
  exact hkept.1

/-- A message whose payload is an empty object. -/
def emptyMessage : VirtualMessage := ⟨"1-0", [("payload", .chars "\x7b\x7d")]⟩

/-- A consumer that starts with that message pending. -/
def emptyPending : VirtualConsumer where
  tables := .empty
  pending := ⟨[emptyMessage], by simp⟩
  fresh := []
  recoverPending := true

/-- The recovery of a consumer with the message never ends. -/
theorem recovery_of_emptyPending :
    ¬ ∃ n, (emptyPending.afterReads 10 (fun _ => ⟨[], fun _ => "t"⟩) n).recoverPending = false := by
  rintro ⟨n, hended⟩
  have hfails : ∀ s, ¬ Accepts s emptyMessage := by
    rintro s ⟨now, result, h⟩
    have hread : readVirtualMessage emptyMessage.data = .error .notVirtual := rfl
    rw [processVirtualTradeMessage, hread] at h
    cases h
  have hspins := recovery_spins (by decide : 0 < 10) (fun _ => ⟨[], fun _ => "t"⟩)
    (c := emptyPending) rfl (List.mem_singleton_self emptyMessage) hfails n
  rw [hspins] at hended
  cases hended

end VirtualConsumer

end PaperTrade.Worker
