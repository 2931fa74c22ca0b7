import PaperTrade.Runner.Lease
import PaperTrade.Runtime.Along

/-!
# The renewal of leases

`renew_strategy_leases` wakes up every `interval_sec` and goes through the strategies: it renews a lease
that is valid and acquires one that is not, and the answer becomes the strategy's `lease_valid`; a call
that raises counts as a failure. When a round succeeds for no strategy the loop ends, and nothing starts
it again.

Between any two of its calls time may pass and other runners may acquire, renew or release leases
(`Act`); a call that raises may have reached Redis before it did. A wake-up after the loop has ended is
a round in which only the others act.
-/

namespace PaperTrade.Runner.LeaseRenewal

open PaperTrade.Runtime LeaseManager

/-- What happens to the keys beside the loop: time passes, or another runner calls its manager. -/
inductive Act (l : LeaseManager)
  | tick (d : ℕ)
  | acquire (other : LeaseManager) (ne : other.runnerId ≠ l.runnerId) (alphaId : String)
  | renew (other : LeaseManager) (ne : other.runnerId ≠ l.runnerId) (alphaId : String)
  | release (other : LeaseManager) (ne : other.runnerId ≠ l.runnerId) (alphaId : String)

/-- A call to Redis answers or raises, before or after it was carried out. -/
inductive Reply
  | answers
  | raises (carriedOut : Bool)
deriving DecidableEq

/-- One strategy's turn of a round: what happens before `is_valid`, and between it and `renew` or
`acquire`. -/
structure Attempt (l : LeaseManager) where
  before : List (Act l) := []
  check : Reply := .answers
  between : List (Act l) := []
  command : Reply := .answers

/-- A round over the strategies of the runner. -/
structure Round (l : LeaseManager) where
  strategies : List String
  attempts : String → Attempt l

/-- The keys, the flags of the strategies, and whether the loop is running. -/
structure RenewalWorld where
  keys : LeaseKeys
  leaseValid : String → Bool
  renewing : Bool

section Loop

variable {l : LeaseManager}

def Act.apply : Act l → LeaseKeys → LeaseKeys
  | .tick d, keys => keys.tick d
  | .acquire other _ a, keys => (other.acquire keys a).2
  | .renew other _ a, keys => (other.renew keys a).2
  | .release other _ a, keys => (other.release keys a).2

/-- The time that an act takes. -/
def Act.duration : Act l → ℕ
  | .tick d => d
  | _ => 0

def actAll (acts : List (Act l)) (keys : LeaseKeys) : LeaseKeys :=
  acts.foldl (fun keys act => act.apply keys) keys

namespace Attempt

variable (t : Attempt l) (keys : LeaseKeys) (alphaId : String)

/-- The keys that `is_valid` sees. -/
def atCheck : LeaseKeys := actAll t.before keys

/-- The keys that `renew` or `acquire` sees. -/
def atCommand : LeaseKeys := actAll t.between (t.atCheck keys)

/-- `lease.renew(alpha_id) if lease.is_valid(alpha_id) else lease.acquire(alpha_id)`. -/
def renewOrAcquire : Bool × LeaseKeys :=
  if l.isValid (t.atCheck keys) alphaId then l.renew (t.atCommand keys) alphaId
  else l.acquire (t.atCommand keys) alphaId

/-- `ok`, and the keys after the attempt. -/
def run : Bool × LeaseKeys :=
  match t.check, t.command with
  | .answers, .answers => t.renewOrAcquire keys alphaId
  | .answers, .raises true => (false, (t.renewOrAcquire keys alphaId).2)
  | _, _ => (false, t.atCommand keys)

/-- The time that an attempt takes. -/
def duration : ℕ := ((t.before ++ t.between).map Act.duration).sum

end Attempt

/-- The turn of one strategy; the last component is `any_valid`. -/
def renewOne (attempts : String → Attempt l) (w : LeaseKeys × (String → Bool) × Bool)
    (alphaId : String) : LeaseKeys × (String → Bool) × Bool :=
  let r := (attempts alphaId).run w.1 alphaId
  (r.2, Function.update w.2.1 alphaId r.1, w.2.2 || r.1)

/-- One round of `renew_strategy_leases`. -/
def renewStrategyLeases (w : RenewalWorld) (r : Round l) : RenewalWorld :=
  if w.renewing then
    let after := r.strategies.foldl (renewOne r.attempts) (w.keys, w.leaseValid, false)
    { keys := after.1
      leaseValid := after.2.1
      renewing := !(!r.strategies.isEmpty && !after.2.2) }
  else
    { w with keys := r.strategies.foldl (fun keys a => (r.attempts a).atCommand keys) w.keys }

end Loop

section Calls

variable {l : LeaseManager} (attempts : String → Attempt l)

/-- The keys that the two calls for a strategy see. -/
structure Call where
  alphaId : String
  atCheck : LeaseKeys
  atCommand : LeaseKeys

/-- The calls of a round, strategy by strategy. -/
def calls : List String → LeaseKeys → List Call
  | [], _ => []
  | a :: rest, keys =>
    ⟨a, (attempts a).atCheck keys, (attempts a).atCommand keys⟩ ::
      calls rest ((attempts a).run keys a).2

end Calls

section Rounds

variable {l : LeaseManager}

/-- Redis answers both calls for a strategy. -/
def Attempt.Answered (t : Attempt l) : Prop := t.check = .answers ∧ t.command = .answers

/-- When a call is made, no other runner holds the lease. -/
def Call.Undisturbed (l : LeaseManager) (c : Call) : Prop :=
  (∀ r, holder c.atCheck c.alphaId = some r → r = l.runnerId) ∧
    ∀ r, holder c.atCommand c.alphaId = some r → r = l.runnerId

/-- The lease is still what `is_valid` found when it is renewed or acquired: held, or free. -/
def Call.Steady (l : LeaseManager) (c : Call) : Prop :=
  (holder c.atCheck c.alphaId = some l.runnerId → holder c.atCommand c.alphaId = some l.runnerId) ∧
    (holder c.atCheck c.alphaId ≠ some l.runnerId → holder c.atCommand c.alphaId = none)

/-- The time of a round. -/
def Round.duration (r : Round l) : ℕ := (r.strategies.map fun a => (r.attempts a).duration).sum

/-- Redis answers throughout the round, and no other runner holds one of the leases at a call. -/
def Round.Answered (w : RenewalWorld) (r : Round l) : Prop :=
  (∀ a ∈ r.strategies, (r.attempts a).Answered) ∧
    ∀ c ∈ calls r.attempts r.strategies w.keys, c.Undisturbed l

/-- After the round every strategy's lease is held by this runner and its flag is true. -/
def Recovered (l : LeaseManager) (w : RenewalWorld) (strategies : List String) : Prop :=
  ∀ a ∈ strategies, holder w.keys a = some l.runnerId ∧ w.leaseValid a = true

/-- In an answered round no lease runs out: none between its two calls, and the round is shorter than
the time to live. In any other round Redis still answers for some strategy whose lease is its own or
free. -/
def Round.Tolerable (w : RenewalWorld) (r : Round l) : Prop :=
  (r.Answered w → (∀ c ∈ calls r.attempts r.strategies w.keys,
      holder c.atCheck c.alphaId = some l.runnerId → holder c.atCommand c.alphaId ≠ none) ∧
    r.duration < l.ttlSec) ∧
  (¬ r.Answered w → r.strategies = [] ∨ 0 < l.ttlSec ∧
    ∃ c ∈ calls r.attempts r.strategies w.keys, (r.attempts c.alphaId).Answered ∧ c.Steady l)

end Rounds

variable {l : LeaseManager}

/-! ## The acts of the others -/

lemma now_act (act : Act l) (keys : LeaseKeys) : (act.apply keys).now = keys.now + act.duration := by
  cases act with
  | tick d => rfl
  | acquire other ne a => exact Expiring.now_setNx
  | renew other ne a => exact Expiring.now_expireIf
  | release other ne a => exact Expiring.now_deleteIf

lemma now_actAll (acts : List (Act l)) (keys : LeaseKeys) :
    (actAll acts keys).now = keys.now + (acts.map Act.duration).sum := by
  unfold actAll
  induction acts generalizing keys with
  | nil => rfl
  | cons act acts ih =>
    rw [List.foldl_cons, ih, now_act, List.map_cons, List.sum_cons, Nat.add_assoc]

lemma until_act {act : Act l} {keys : LeaseKeys} {k : String} {t : ℕ}
    (h : keys.Until k l.runnerId t) (hnow : (act.apply keys).now ≤ t) :
    (act.apply keys).Until k l.runnerId t := by
  rw [now_act] at hnow
  have hbefore : keys.now ≤ t := by omega
  cases act with
  | tick d => exact h.tick d
  | acquire other ne a => exact h.setNx hbefore _ _ _
  | renew other ne a => exact h.expireIf hbefore _ _ fun heq => absurd heq ne
  | release other ne a => exact h.deleteIf hbefore _ ne

/-- A lease that does not run out in the meantime stays with this runner. -/
lemma until_actAll {acts : List (Act l)} {keys : LeaseKeys} {k : String} {t : ℕ}
    (h : keys.Until k l.runnerId t) (hnow : (actAll acts keys).now ≤ t) :
    (actAll acts keys).Until k l.runnerId t := by
  unfold actAll at *
  induction acts generalizing keys with
  | nil => exact h
  | cons act acts ih =>
    have hstep : (act.apply keys).now ≤ t := by
      have hlater := now_actAll acts (act.apply keys)
      unfold actAll at hlater
      rw [List.foldl_cons] at hnow
      omega
    exact ih (until_act h hstep) hnow

/-! ## One attempt -/

section Attempts

variable (t : Attempt l) (keys : LeaseKeys) (a : String)

lemma now_atCommand : (t.atCommand keys).now = keys.now + t.duration := by
  rw [Attempt.atCommand, now_actAll, Attempt.atCheck, now_actAll, Attempt.duration, List.map_append,
    List.sum_append, Nat.add_assoc]

lemma now_renewOrAcquire : (t.renewOrAcquire keys a).2.now = keys.now + t.duration := by
  unfold Attempt.renewOrAcquire
  split
  · exact Expiring.now_expireIf.trans (now_atCommand t keys)
  · exact Expiring.now_setNx.trans (now_atCommand t keys)

/-- The keys after an attempt are those the command left, or those it found. -/
lemma run_cases : ((t.run keys a).2 = (t.renewOrAcquire keys a).2 ∨
    (t.run keys a).2 = t.atCommand keys) := by
  unfold Attempt.run
  split
  · exact .inl rfl
  · exact .inl rfl
  · exact .inr rfl

lemma now_run : (t.run keys a).2.now = keys.now + t.duration := by
  rcases run_cases t keys a with h | h
  · rw [h, now_renewOrAcquire]
  · rw [h, now_atCommand]

variable {t keys a}

/-- The command succeeds exactly when the lease is what `is_valid` found, held or free. -/
lemma renewOrAcquire_iff (httl : 0 < l.ttlSec) :
    (t.renewOrAcquire keys a).1 = true ↔ (Call.mk a (t.atCheck keys) (t.atCommand keys)).Steady l := by
  unfold Attempt.renewOrAcquire Call.Steady
  dsimp only
  by_cases hheld : holder (t.atCheck keys) a = some l.runnerId
  · rw [if_pos (isValid_iff.mpr hheld)]
    have hrenew : (l.renew (t.atCommand keys) a).1 = true ↔
        holder (t.atCommand keys) a = some l.runnerId := by
      unfold LeaseManager.renew Expiring.expireIf holder
      split
      · rename_i h
        exact ⟨fun _ => h, fun _ => rfl⟩
      · rename_i h
        exact ⟨fun hf => absurd hf Bool.false_ne_true, fun hf => absurd hf h⟩
    rw [hrenew]
    exact ⟨fun h => ⟨fun _ => h, fun hne => absurd hheld hne⟩, fun h => h.1 hheld⟩
  · have hinvalid : ¬ l.isValid (t.atCheck keys) a = true := fun h => hheld (isValid_iff.mp h)
    rw [if_neg hinvalid]
    have hacquire : (l.acquire (t.atCommand keys) a).1 = true ↔ holder (t.atCommand keys) a = none := by
      rcases acquire_cases l (t.atCommand keys) a with ⟨hfree, -, htrue, -⟩ | ⟨hfalse, -⟩
      · exact ⟨fun _ => hfree, fun _ => htrue⟩
      · refine ⟨fun h => ?_, fun h => ?_⟩
        · rw [hfalse] at h
          cases h
        · unfold LeaseManager.acquire Expiring.setNx at hfalse
          rw [if_pos ⟨h, httl⟩] at hfalse
          cases hfalse
    rw [hacquire]
    exact ⟨fun h => ⟨fun hf => absurd hf hheld, fun _ => h⟩, fun h => h.2 hheld⟩

/-- A strategy is served when Redis answers and the lease is what `is_valid` found. -/
lemma run_of_steady (httl : 0 < l.ttlSec) (hanswered : t.Answered)
    (hsteady : (Call.mk a (t.atCheck keys) (t.atCommand keys)).Steady l) :
    (t.run keys a).1 = true := by
  unfold Attempt.run
  rw [hanswered.1, hanswered.2]
  exact (renewOrAcquire_iff httl).mpr hsteady

/-- A lease that is renewed or acquired is held for the time to live. -/
lemma until_of_ok (hok : (t.run keys a).1 = true) {e : ℕ}
    (he : e < keys.now + t.duration + l.ttlSec) :
    (t.run keys a).2.Until (key a) l.runnerId e := by
  have hrun : t.run keys a = t.renewOrAcquire keys a := by
    unfold Attempt.run at hok ⊢
    cases hcheck : t.check with
    | raises carriedOut => simp [hcheck] at hok
    | answers =>
      cases hcommand : t.command with
      | answers => rfl
      | raises carriedOut => cases carriedOut <;> simp [hcheck, hcommand] at hok
  rw [hrun] at hok ⊢
  unfold Attempt.renewOrAcquire at hok ⊢
  rw [← now_atCommand] at he
  split
  · rename_i hvalid
    rw [if_pos hvalid] at hok
    exact Expiring.until_expireIf hok he
  · rename_i hinvalid
    rw [if_neg hinvalid] at hok
    exact Expiring.until_setNx hok he

/-- No attempt takes a lease from this runner. -/
lemma until_run {k : String} {e : ℕ} (h : keys.Until k l.runnerId e)
    (hnow : keys.now + t.duration ≤ e) (hlong : e < keys.now + t.duration + l.ttlSec) :
    (t.run keys a).2.Until k l.runnerId e := by
  have hcommand : (t.atCommand keys).now ≤ e := by rw [now_atCommand]; exact hnow
  have hcheck : (t.atCheck keys).now ≤ e := by
    rw [Attempt.atCommand, now_actAll] at hcommand
    omega
  have huntil : (t.atCommand keys).Until k l.runnerId e :=
    until_actAll (until_actAll h hcheck) hcommand
  rcases run_cases t keys a with hrun | hrun
  · rw [hrun]
    unfold Attempt.renewOrAcquire
    split
    · refine huntil.expireIf hcommand _ _ fun _ => ?_
      rw [now_atCommand]
      exact hlong
    · exact huntil.setNx hcommand _ _ _
  · rw [hrun]
    exact huntil

end Attempts

/-! ## One round -/

section Rounds

variable {attempts : String → Attempt l} {strategies : List String}
  {w : LeaseKeys × (String → Bool) × Bool}

lemma now_foldl : (strategies.foldl (renewOne attempts) w).1.now =
    w.1.now + (strategies.map fun a => (attempts a).duration).sum := by
  induction strategies generalizing w with
  | nil => rfl
  | cons a rest ih =>
    have hstep : (renewOne attempts w a).1.now = w.1.now + (attempts a).duration := now_run ..
    rw [List.foldl_cons, ih, hstep, List.map_cons, List.sum_cons, Nat.add_assoc]

/-- A lease that is held until the end of a round stays held. -/
lemma until_foldl {k : String} {e : ℕ} (h : w.1.Until k l.runnerId e)
    (hnow : w.1.now + (strategies.map fun a => (attempts a).duration).sum ≤ e)
    (hlong : e < w.1.now + l.ttlSec) :
    (strategies.foldl (renewOne attempts) w).1.Until k l.runnerId e := by
  induction strategies generalizing w with
  | nil => exact h
  | cons a rest ih =>
    rw [List.map_cons, List.sum_cons] at hnow
    have hstep : (renewOne attempts w a).1.now = w.1.now + (attempts a).duration := now_run ..
    have huntil : (renewOne attempts w a).1.Until k l.runnerId e :=
      until_run h (by omega) (by omega)
    exact ih huntil (by omega) (by omega)

/-- What the calls of a round need to succeed. -/
def AllServed (attempts : String → Attempt l) (strategies : List String) (keys : LeaseKeys) : Prop :=
  ∀ c ∈ calls attempts strategies keys, (attempts c.alphaId).Answered ∧ c.Steady l

lemma run_of_allServed (httl : 0 < l.ttlSec) {a : String} {rest : List String} {keys : LeaseKeys}
    (h : AllServed attempts (a :: rest) keys) :
    ((attempts a).run keys a).1 = true ∧ AllServed attempts rest ((attempts a).run keys a).2 := by
  obtain ⟨hanswered, hsteady⟩ := h _ List.mem_cons_self
  exact ⟨run_of_steady httl hanswered hsteady, fun c hc => h c (List.mem_cons_of_mem _ hc)⟩

lemma flag_foldl (httl : 0 < l.ttlSec) (h : AllServed attempts strategies w.1) {a : String}
    (hflag : w.2.1 a = true) : (strategies.foldl (renewOne attempts) w).2.1 a = true := by
  induction strategies generalizing w with
  | nil => exact hflag
  | cons b rest ih =>
    obtain ⟨hok, hrest⟩ := run_of_allServed httl h
    refine ih hrest ?_
    show Function.update w.2.1 b _ a = true
    by_cases hab : a = b
    · rw [hab, Function.update_self, hok]
    · rw [Function.update_of_ne hab, hflag]

/-- A round in which every strategy is served leaves every lease held and every flag set. -/
lemma recovered_foldl (h : AllServed attempts strategies w.1) {e : ℕ}
    (hnow : w.1.now + (strategies.map fun a => (attempts a).duration).sum ≤ e)
    (hlong : e < w.1.now + l.ttlSec) : ∀ a ∈ strategies,
      (strategies.foldl (renewOne attempts) w).1.Until (key a) l.runnerId e ∧
        (strategies.foldl (renewOne attempts) w).2.1 a = true := by
  induction strategies generalizing w with
  | nil =>
    intro a ha
    cases ha
  | cons b rest ih =>
    rw [List.map_cons, List.sum_cons] at hnow
    have httl : 0 < l.ttlSec := by omega
    obtain ⟨hok, hrest⟩ := run_of_allServed httl h
    have hstep : (renewOne attempts w b).1.now = w.1.now + (attempts b).duration := now_run ..
    have hafter : (renewOne attempts w b).1.now +
        (rest.map fun a => (attempts a).duration).sum ≤ e := by omega
    have hlater : e < (renewOne attempts w b).1.now + l.ttlSec := by omega
    intro a ha
    rcases List.mem_cons.mp ha with rfl | hmem
    · have huntil : (renewOne attempts w a).1.Until (key a) l.runnerId e :=
        until_of_ok hok (by omega)
      have hflag : (renewOne attempts w a).2.1 a = true := by
        show Function.update w.2.1 a _ a = true
        rw [Function.update_self, hok]
      rw [List.foldl_cons]
      exact ⟨until_foldl huntil hafter hlater, flag_foldl httl hrest hflag⟩
    · exact ih hrest hafter hlater a hmem

lemma anyValid_foldl_of_true (h : w.2.2 = true) :
    (strategies.foldl (renewOne attempts) w).2.2 = true := by
  induction strategies generalizing w with
  | nil => exact h
  | cons a rest ih =>
    refine ih ?_
    show (w.2.2 || _) = true
    rw [h, Bool.true_or]

/-- One served strategy keeps the loop running. -/
lemma anyValid_foldl (httl : 0 < l.ttlSec) (h : ∃ c ∈ calls attempts strategies w.1,
    (attempts c.alphaId).Answered ∧ c.Steady l) :
    (strategies.foldl (renewOne attempts) w).2.2 = true := by
  induction strategies generalizing w with
  | nil =>
    obtain ⟨c, hc, -⟩ := h
    cases hc
  | cons a rest ih =>
    obtain ⟨c, hc, hanswered, hsteady⟩ := h
    rcases List.mem_cons.mp hc with rfl | hmem
    · have hany : (renewOne attempts w a).2.2 = true := by
        show (w.2.2 || _) = true
        rw [run_of_steady httl hanswered hsteady, Bool.or_true]
      rw [List.foldl_cons]
      exact anyValid_foldl_of_true hany
    · exact ih ⟨c, hmem, hanswered, hsteady⟩

end Rounds

/-- Only this runner's own calls give it a lease. -/
lemma holder_of_act {act : Act l} {keys : LeaseKeys} {a : String}
    (h : holder (act.apply keys) a = some l.runnerId) : holder keys a = some l.runnerId := by
  cases act with
  | tick d => exact holder_of_tick h
  | acquire other ne b =>
    rcases acquire_cases other keys b with ⟨-, -, -, hget⟩ | ⟨-, hsame⟩
    · have hvalue := hget a
      change holder (other.acquire keys b).2 a = _ at h
      rw [hvalue] at h
      split at h
      · exact absurd (Option.some.inj h) ne
      · exact h
    · change holder (other.acquire keys b).2 a = _ at h
      rwa [hsame] at h
  | renew other ne b => exact Expiring.get_of_get_expireIf ne h
  | release other ne b =>
    change holder (other.release keys b).2 a = _ at h
    rw [holder_release] at h
    split at h
    · cases h
    · exact h

lemma holder_of_actAll {acts : List (Act l)} {keys : LeaseKeys} {a : String}
    (h : holder (actAll acts keys) a = some l.runnerId) : holder keys a = some l.runnerId := by
  unfold actAll at h
  induction acts generalizing keys with
  | nil => exact h
  | cons act acts ih => exact holder_of_act (ih h)

/-- Between its calls of one strategy only the others act. -/
lemma holder_of_atCommand {attempts : String → Attempt l} {strategies : List String}
    {keys : LeaseKeys} {c : Call} (hc : c ∈ calls attempts strategies keys)
    (h : holder c.atCommand c.alphaId = some l.runnerId) :
    holder c.atCheck c.alphaId = some l.runnerId := by
  induction strategies generalizing keys with
  | nil => cases hc
  | cons a rest ih =>
    rcases List.mem_cons.mp hc with rfl | hmem
    · exact holder_of_actAll h
    · exact ih hmem

lemma mem_of_mem_calls {attempts : String → Attempt l} {strategies : List String}
    {keys : LeaseKeys} {c : Call} (hc : c ∈ calls attempts strategies keys) :
    c.alphaId ∈ strategies := by
  induction strategies generalizing keys with
  | nil => cases hc
  | cons a rest ih =>
    rcases List.mem_cons.mp hc with rfl | hmem
    · exact List.mem_cons_self
    · exact List.mem_cons_of_mem _ (ih hmem)

/-- In an answered round a lease that does not run out between its calls is served. -/
lemma allServed {w : RenewalWorld} {r : Round l} (h : r.Answered w)
    (hruns : ∀ c ∈ calls r.attempts r.strategies w.keys,
      holder c.atCheck c.alphaId = some l.runnerId → holder c.atCommand c.alphaId ≠ none) :
    AllServed r.attempts r.strategies w.keys := by
  intro c hc
  obtain ⟨hcheck, hcommand⟩ := h.2 c hc
  refine ⟨h.1 _ (mem_of_mem_calls hc), fun hheld => ?_, fun hnot => ?_⟩
  · obtain ⟨r', hr'⟩ := Option.ne_none_iff_exists'.mp (hruns c hc hheld)
    rw [hr', hcommand r' hr']
  · cases hholder : holder c.atCommand c.alphaId with
    | none => rfl
    | some r' =>
      rw [hcommand r' hholder] at hholder
      exact absurd (holder_of_atCommand hc hholder) hnot

/-! ## Runs -/

/-- A tolerable round keeps the loop running. -/
lemma renewing_round {w : RenewalWorld} {r : Round l} (h : r.Tolerable w) (hw : w.renewing = true) :
    (renewStrategyLeases w r).renewing = true := by
  unfold renewStrategyLeases
  rw [if_pos hw]
  show (!(!r.strategies.isEmpty && !_)) = true
  by_cases hempty : r.strategies = []
  · rw [hempty]
    rfl
  · have hany : (r.strategies.foldl (renewOne r.attempts) (w.keys, w.leaseValid, false)).2.2 = true := by
      by_cases hanswered : r.Answered w
      · obtain ⟨hruns, hshort⟩ := h.1 hanswered
        have hserved := allServed hanswered hruns
        obtain ⟨a, rest, hcons⟩ := List.exists_cons_of_ne_nil hempty
        refine anyValid_foldl (by omega) ?_
        refine ⟨⟨a, (r.attempts a).atCheck w.keys, (r.attempts a).atCommand w.keys⟩, ?_, ?_⟩
        · rw [hcons]
          exact List.mem_cons_self
        · refine hserved _ ?_
          rw [hcons]
          exact List.mem_cons_self
      · obtain ⟨httl, hserved⟩ := (h.2 hanswered).resolve_left hempty
        exact anyValid_foldl httl hserved
    rw [hany, Bool.not_true, Bool.and_false]
    rfl

/-- After an answered round of a running loop in which no lease runs out, every lease is held and
every flag set. -/
lemma recovered_round {w : RenewalWorld} {r : Round l} (h : r.Tolerable w) (hw : w.renewing = true)
    (hanswered : r.Answered w) : Recovered l (renewStrategyLeases w r) r.strategies := by
  obtain ⟨hruns, hshort⟩ := h.1 hanswered
  have hserved := allServed hanswered hruns
  intro a ha
  unfold renewStrategyLeases
  rw [if_pos hw]
  unfold Round.duration at hshort
  have hnow : (r.strategies.foldl (renewOne r.attempts) (w.keys, w.leaseValid, false)).1.now =
      w.keys.now + (r.strategies.map fun a => (r.attempts a).duration).sum := now_foldl
  obtain ⟨huntil, hflag⟩ := recovered_foldl (w := (w.keys, w.leaseValid, false)) hserved le_rfl
    (Nat.add_lt_add_left hshort _) a ha
  exact ⟨huntil.get hnow.le, hflag⟩

/-- While every round is tolerable, every round in which Redis answers and no other runner holds a
lease leaves each strategy's lease held by this runner and its flag true. -/
theorem leases_recover {w : RenewalWorld} {rounds : List (Round l)} (hw : w.renewing = true)
    (h : Along renewStrategyLeases (fun w r => r.Tolerable w) w rounds) :
    Along renewStrategyLeases
      (fun w r => r.Answered w → Recovered l (renewStrategyLeases w r) r.strategies) w rounds :=
  Along.of_inv (I := fun w => w.renewing = true) (fun _ _ hw h => renewing_round h hw)
    (fun _ _ hw h => recovered_round h hw) hw h

/-- Two strategies whose leases are held for 20 seconds. -/
def renewer : LeaseManager := { runnerId := "runner-1" }

def started : RenewalWorld :=
  { keys := { entry := fun _ => some ("runner-1", 20) }, leaseValid := fun _ => true,
    renewing := true }

/-- A round four seconds later, in which Redis answers or raises for a strategy. -/
def roundOf (check : String → Reply) : Round renewer :=
  { strategies := ["alpha-2", "bangoc-v2.2"]
    attempts := fun a => { before := [.tick 2], check := check a } }

lemma answered_roundOf (w : RenewalWorld)
    (h : ∀ c ∈ calls (roundOf fun _ => .answers).attempts ["alpha-2", "bangoc-v2.2"] w.keys,
      holder c.atCheck c.alphaId = some "runner-1" ∧ holder c.atCommand c.alphaId = some "runner-1") :
    (roundOf fun _ => .answers).Answered w := by
  refine ⟨fun a _ => ⟨rfl, rfl⟩, fun c hc => ?_⟩
  obtain ⟨hcheck, hcommand⟩ := h c hc
  refine ⟨fun r hr => ?_, fun r hr => ?_⟩
  · rw [hcheck] at hr
    exact (Option.some.inj hr).symm
  · rw [hcommand] at hr
    exact (Option.some.inj hr).symm

/-- One strategy's call raises, the other one keeps the loop running, and the next round serves both. -/
theorem leases_recover_after_partial_outage :
    Along renewStrategyLeases
      (fun w r => r.Answered w → Recovered renewer (renewStrategyLeases w r) r.strategies) started
      [roundOf fun a => if a = "alpha-2" then .raises false else .answers, roundOf fun _ => .answers] := by
  refine leases_recover rfl ⟨⟨fun h => ?_, fun _ => .inr ⟨by decide, ?_⟩⟩, ⟨fun _ => ?_, fun h => ?_⟩,
    trivial⟩
  · exact absurd (h.1 "alpha-2" (by decide)).1 (by decide)
  · refine ⟨_, List.mem_cons_of_mem _ List.mem_cons_self, ⟨by decide, rfl⟩, ?_⟩
    exact ⟨by decide +kernel, by decide +kernel⟩
  · exact ⟨by decide +kernel, by decide +kernel⟩
  · exact absurd (answered_roundOf _ (by decide +kernel)) h

/-- One round in which every call raises ends the loop: when Redis answers again and nobody else holds
the leases, the flags stay false. -/
theorem outage_ends_renewal :
    ¬ Along renewStrategyLeases
      (fun w r => r.Answered w → Recovered renewer (renewStrategyLeases w r) r.strategies) started
      [roundOf fun _ => .raises false, roundOf fun _ => .answers] := by
  intro h
  have hrecovered := h.2.1 (answered_roundOf _ (by decide +kernel))
  exact absurd (hrecovered "alpha-2" (by decide)).2 (by decide +kernel)

end PaperTrade.Runner.LeaseRenewal
