import PaperTrade.Runner.PubSub

/-!
# Price alerts

`run_price_alert_reconcile_loop` goes through the running strategies and subscribes each of them to
the price alerts of the symbols it holds. What it subscribed in earlier passes it takes from a
dictionary of its own, which nobody clears when `_on_disabled` unsubscribes an alpha.

A pass suspends at each of its calls of the manager (`AlertPass`), and other tasks run in between:
strategies change what they hold, `_on_disabled` takes a strategy off the list and then unsubscribes
its channels one by one, `_on_new_alphas` puts one on the list and then subscribes it.
-/

namespace PaperTrade.Runner

open PaperTrade.Runtime

/-- A running strategy, with the symbols of its `PriceAlertProxy`. -/
structure AlertStrategy where
  alphaId : String
  symbols : List String
deriving DecidableEq

/-- Where the loop is: between two passes, about to take up the strategy at an index, or at the calls
that are left for one. -/
inductive AlertPass
  | idle
  | next (index : ℕ)
  | syncing (index : ℕ) (alphaId : String) (desired subscribes unsubscribes : List String)
deriving DecidableEq

/-- The runner, as far as price alerts go. -/
structure AlertWorld where
  exchange : String
  strategies : List AlertStrategy
  /-- `_strategy_channels` of the manager -/
  channels : String → List String
  /-- `subscribed` of the loop -/
  subscribed : String → List String
  pass : AlertPass
  /-- the channels that an `_on_disabled` has yet to unsubscribe, by alpha -/
  leaving : List (String × List String)
  /-- the channels that an `_on_new_alphas` has yet to subscribe, by alpha -/
  joining : List (String × List String)

/-- One step of one of the tasks. -/
inductive AlertStep
  /-- the strategy at an index calls `ctx.price_alerts.sync(symbols)` -/
  | hold (i : ℕ) (symbols : List String)
  | enable (alphaId : String) (required : List String)
  | join (k : ℕ)
  | disable (alphaId : String)
  | leave (k : ℕ)
  /-- the loop goes on to its next call -/
  | advance
  /-- the call of the loop raises -/
  | raise
deriving DecidableEq

namespace AlertWorld

/-- A runner without strategies. -/
def init (exchange : String) : AlertWorld := ⟨exchange, [], fun _ => [], fun _ => [], .idle, [], []⟩

/-- `active_prefixed_channels`. -/
def desired (x : AlertWorld) (r : AlertStrategy) : List String :=
  if x.exchange = "" then [] else r.symbols.map fun symbol => "price_alert:" ++ x.exchange ++ ":" ++ symbol

/-- `pubsub.subscribe(channel, alpha_id)`. -/
def subscribe (x : AlertWorld) (alphaId c : String) : AlertWorld :=
  { x with channels := Function.update x.channels alphaId (setAdd (x.channels alphaId) c) }

/-- `pubsub.unsubscribe(channel, alpha_id)`. -/
def unsubscribe (x : AlertWorld) (alphaId c : String) : AlertWorld :=
  { x with channels := Function.update x.channels alphaId (setDiscard (x.channels alphaId) c) }

/-- The loop up to its next call: `desired - current` is subscribed first, then `current - desired`
unsubscribed, and then the desired channels are remembered. -/
def advance (x : AlertWorld) : AlertWorld :=
  match x.pass with
  | .idle => { x with pass := .next 0 }
  | .next i =>
    match x.strategies[i]? with
    | none => { x with pass := .idle }
    | some r =>
      let current := x.subscribed r.alphaId
      { x with
        pass := .syncing i r.alphaId (x.desired r) ((x.desired r).filter fun c => c ∉ current)
          (current.filter fun c => c ∉ x.desired r) }
  | .syncing i a d (c :: subscribes) unsubscribes =>
    { x.subscribe a c with pass := .syncing i a d subscribes unsubscribes }
  | .syncing i a d [] (c :: unsubscribes) =>
    { x.unsubscribe a c with pass := .syncing i a d [] unsubscribes }
  | .syncing i a d [] [] =>
    { x with subscribed := Function.update x.subscribed a d, pass := .next (i + 1) }

/-- The call the loop is at raises, which ends the pass. A `subscribe` raises before it has changed
the maps of the manager, an `unsubscribe` after. -/
def raise (x : AlertWorld) : AlertWorld :=
  match x.pass with
  | .syncing _ _ _ (_ :: _) _ => { x with pass := .idle }
  | .syncing _ a _ [] (c :: _) => { x.unsubscribe a c with pass := .idle }
  | _ => x

/-- The next channel of an `_on_new_alphas`. -/
def join (x : AlertWorld) (k : ℕ) : AlertWorld :=
  match x.joining[k]? with
  | some (a, c :: rest) => { x.subscribe a c with joining := x.joining.set k (a, rest) }
  | _ => x

/-- The next channel of an `_on_disabled`. -/
def leave (x : AlertWorld) (k : ℕ) : AlertWorld :=
  match x.leaving[k]? with
  | some (a, c :: rest) => { x.unsubscribe a c with leaving := x.leaving.set k (a, rest) }
  | _ => x

/-- One step. `_on_disabled` unsubscribes what the alpha has when its strategy is taken off. -/
def step (x : AlertWorld) : AlertStep → AlertWorld
  | .hold i symbols => { x with strategies := x.strategies.modify i fun r => { r with symbols } }
  | .enable a required =>
    { x with
      strategies := x.strategies ++ [⟨a, []⟩]
      joining := x.joining ++ [(a, required)] }
  | .join k => x.join k
  | .disable a =>
    if ∃ r ∈ x.strategies, r.alphaId = a then
      { x with
        strategies := x.strategies.eraseP fun r => r.alphaId = a
        leaving := x.leaving ++ [(a, x.channels a)] }
    else x
  | .leave k => x.leave k
  | .advance => x.advance
  | .raise => x.raise

/-- A run. -/
def steps (x : AlertWorld) (l : List AlertStep) : AlertWorld := l.foldl step x

/-- The pass ends with the next step, and nothing has raised. -/
def Ending (x : AlertWorld) : Prop := ∃ i, x.pass = .next i ∧ x.strategies[i]? = none

/-- A price alert channel. -/
def IsAlert (c : String) : Prop := startsWith c "price_alert:" = true

instance (c : String) : Decidable (IsAlert c) := inferInstanceAs (Decidable (_ = true))

/-- The strategy has the alerts of the symbols it holds, and no others. -/
def InSync (x : AlertWorld) (r : AlertStrategy) : Prop :=
  ∀ c, IsAlert c → (c ∈ x.channels r.alphaId ↔ c ∈ x.desired r)

/-! ## What a pass relies on -/

/-- How many strategies the pass has taken up. -/
def takenUp (x : AlertWorld) : ℕ :=
  match x.pass with
  | .idle => 0
  | .next i => i
  | .syncing i _ _ _ _ => i + 1

/-- The alpha is one of those the pass has taken up. -/
def Taken (x : AlertWorld) (a : String) : Prop := ∃ r ∈ x.strategies.take x.takenUp, r.alphaId = a

/-- What the loop remembers of the strategy fits what it has: an alert that is remembered and still
wanted is there, and one that is there and not wanted is remembered. -/
def Remembered (x : AlertWorld) (r : AlertStrategy) : Prop :=
  (∀ c ∈ x.desired r, c ∈ x.subscribed r.alphaId → c ∈ x.channels r.alphaId) ∧
    ∀ c, IsAlert c → c ∈ x.channels r.alphaId → c ∉ x.desired r → c ∈ x.subscribed r.alphaId

/-- A step in order: the loop takes up a strategy that it remembers as it is, no other task changes
what a strategy holds or has that the pass has taken up already, and no alpha is started twice. -/
def Orderly (x : AlertWorld) : AlertStep → Prop
  | .hold i _ => x.takenUp ≤ i
  | .enable a _ => ∀ r ∈ x.strategies, r.alphaId ≠ a
  | .join k => ∀ a c rest, x.joining[k]? = some (a, c :: rest) → IsAlert c → ¬ x.Taken a
  | .disable a => ¬ x.Taken a
  | .leave k => ∀ a c rest, x.leaving[k]? = some (a, c :: rest) → IsAlert c → ¬ x.Taken a
  | .advance => ∀ i r, x.pass = .next i → x.strategies[i]? = some r → x.Remembered r
  | .raise => True

/-- All steps of a run are in order. -/
def AllOrderly : AlertWorld → List AlertStep → Prop
  | _, [] => True
  | x, a :: l => x.Orderly a ∧ AllOrderly (x.step a) l

/-- How many strategies the pass is done with. -/
def finished (x : AlertWorld) : ℕ :=
  match x.pass with
  | .idle => 0
  | .next i => i
  | .syncing i _ _ _ _ => i

/-- Every strategy that the pass is done with is in sync, and the calls that are left for the next
bring it there. -/
structure Synced (x : AlertWorld) : Prop where
  ids : (x.strategies.map AlertStrategy.alphaId).Nodup
  bound : x.takenUp ≤ x.strategies.length
  done : ∀ r ∈ x.strategies.take x.finished, x.InSync r
  syncing : ∀ i a d subs unsubs, x.pass = .syncing i a d subs unsubs →
    ∃ r, x.strategies[i]? = some r ∧ r.alphaId = a ∧ d = x.desired r ∧ (∀ c ∈ subs, c ∈ d) ∧
      ∀ c, IsAlert c → ((c ∈ x.channels a ∨ c ∈ subs) ∧ c ∉ unsubs ↔ c ∈ d)

namespace Synced

variable {x y : AlertWorld}

lemma finished_le_takenUp (x : AlertWorld) : x.finished ≤ x.takenUp := by
  unfold finished takenUp
  split <;> omega

/-! ## The other tasks -/

/-- What another task does, as long as it leaves alone what the pass has taken up. -/
lemma of_other (h : Synced x) (hpass : y.pass = x.pass) (hexchange : y.exchange = x.exchange)
    (hids : (y.strategies.map AlertStrategy.alphaId).Nodup)
    (htake : y.strategies.take x.takenUp = x.strategies.take x.takenUp)
    (hchannels : ∀ a, x.Taken a → ∀ c, IsAlert c → (c ∈ y.channels a ↔ c ∈ x.channels a)) :
    Synced y := by
  have htakenUp : y.takenUp = x.takenUp := by
    unfold takenUp
    rw [hpass]
  have hfinished : y.finished = x.finished := by
    unfold finished
    rw [hpass]
  have hdesired : ∀ r, y.desired r = x.desired r := by
    intro r
    unfold desired
    rw [hexchange]
  have hle := finished_le_takenUp x
  refine ⟨hids, ?_, ?_, ?_⟩
  · have hlength := congrArg List.length htake
    rw [List.length_take, List.length_take, min_eq_left h.bound] at hlength
    rw [htakenUp]
    omega
  · intro r hr c hc
    rw [hfinished] at hr
    have hr' : r ∈ x.strategies.take x.finished := by
      have hmin : min x.finished x.takenUp = x.finished := min_eq_left hle
      rw [← hmin, ← List.take_take, htake, List.take_take, hmin] at hr
      exact hr
    have htaken : x.Taken r.alphaId := ⟨r, List.take_subset_take_left _ hle hr', rfl⟩
    rw [hdesired, hchannels _ htaken c hc]
    exact h.done r hr' c hc
  · intro i a d subs unsubs hsyncing
    rw [hpass] at hsyncing
    obtain ⟨r, hr, hid, hd, hsubs, hleft⟩ := h.syncing i a d subs unsubs hsyncing
    have hup : x.takenUp = i + 1 := by
      unfold takenUp
      rw [hsyncing]
    rw [hup] at htake
    have hget : y.strategies[i]? = some r := by
      rw [← List.getElem?_take_of_lt (Nat.lt_succ_self i), htake,
        List.getElem?_take_of_lt (Nat.lt_succ_self i), hr]
    have hmem : r ∈ x.strategies.take x.takenUp := by
      rw [hup]
      refine List.mem_of_getElem? (i := i) ?_
      rw [List.getElem?_take_of_lt (Nat.lt_succ_self i), hr]
    refine ⟨r, hget, hid, hd.trans (hdesired r).symm, hsubs, fun c hc => ?_⟩
    rw [hchannels a ⟨r, hmem, hid⟩ c hc]
    exact hleft c hc

/-- A channel of an alpha that the pass has not taken up, or that is no alert. -/
lemma of_channel (h : Synced x) {a c : String} (hfree : IsAlert c → ¬ x.Taken a)
    (hpass : y.pass = x.pass) (hexchange : y.exchange = x.exchange)
    (hstrategies : y.strategies = x.strategies)
    (hkeep : ∀ a' c', ¬ (a' = a ∧ c' = c) → (c' ∈ y.channels a' ↔ c' ∈ x.channels a')) :
    Synced y := by
  refine h.of_other hpass hexchange (hstrategies ▸ h.ids) (by rw [hstrategies]) fun a' ha c' hc => ?_
  refine hkeep a' c' ?_
  rintro ⟨rfl, rfl⟩
  exact hfree hc ha

lemma mem_subscribe (x : AlertWorld) (a c : String) {a' c' : String} :
    c' ∈ (x.subscribe a c).channels a' ↔ c' ∈ x.channels a' ∨ a' = a ∧ c' = c := by
  show c' ∈ Function.update x.channels a _ a' ↔ _
  by_cases ha : a' = a
  · subst ha
    rw [Function.update_self, mem_setAdd]
    simp
  · rw [Function.update_of_ne ha]
    simp [ha]

lemma mem_unsubscribe (x : AlertWorld) (a c : String) {a' c' : String} :
    c' ∈ (x.unsubscribe a c).channels a' ↔ c' ∈ x.channels a' ∧ ¬ (a' = a ∧ c' = c) := by
  show c' ∈ Function.update x.channels a _ a' ↔ _
  by_cases ha : a' = a
  · subst ha
    rw [Function.update_self, mem_setDiscard]
    simp
  · rw [Function.update_of_ne ha]
    simp [ha]

lemma join (h : Synced x) {k : ℕ} (horderly : x.Orderly (.join k)) : Synced (x.join k) := by
  unfold AlertWorld.join
  split
  · rename_i a c rest hjoining
    refine h.of_channel (horderly a c rest hjoining) rfl rfl rfl fun a' c' hne => ?_
    exact (mem_subscribe x a c).trans (or_iff_left hne)
  · exact h

lemma leave (h : Synced x) {k : ℕ} (horderly : x.Orderly (.leave k)) : Synced (x.leave k) := by
  unfold AlertWorld.leave
  split
  · rename_i a c rest hleaving
    refine h.of_channel (horderly a c rest hleaving) rfl rfl rfl fun a' c' hne => ?_
    exact (mem_unsubscribe x a c).trans (and_iff_left hne)
  · exact h

lemma hold (h : Synced x) {i : ℕ} {symbols : List String} (horderly : x.Orderly (.hold i symbols)) :
    Synced (x.step (.hold i symbols)) := by
  have hids : (x.strategies.modify i fun r => { r with symbols }).map AlertStrategy.alphaId =
      x.strategies.map AlertStrategy.alphaId := by
    apply List.ext_getElem?
    intro j
    rw [List.getElem?_map, List.getElem?_map, List.getElem?_modify]
    cases x.strategies[j]? with
    | none => rfl
    | some r =>
      by_cases hij : i = j <;> simp [hij]
  refine h.of_other rfl rfl (hids ▸ h.ids) ?_ fun _ _ _ _ => Iff.rfl
  apply List.ext_getElem?
  intro j
  by_cases hj : j < x.takenUp
  · have hij : i ≠ j := by
      have hle : x.takenUp ≤ i := horderly
      omega
    rw [List.getElem?_take_of_lt hj, List.getElem?_take_of_lt hj]
    show (x.strategies.modify i _)[j]? = _
    rw [List.getElem?_modify_ne _ _ hij]
  · rw [List.getElem?_take_eq_none (not_lt.mp hj), List.getElem?_take_eq_none (not_lt.mp hj)]

lemma enable (h : Synced x) {a : String} {required : List String}
    (horderly : x.Orderly (.enable a required)) : Synced (x.step (.enable a required)) := by
  refine h.of_other rfl rfl ?_ (List.take_append_of_le_length h.bound) fun _ _ _ _ => Iff.rfl
  show ((x.strategies ++ [AlertStrategy.mk a []]).map AlertStrategy.alphaId).Nodup
  rw [List.map_append, List.nodup_append]
  refine ⟨h.ids, List.nodup_singleton _, fun id hid id' hid' heq => ?_⟩
  obtain ⟨r, hr, hra⟩ := List.mem_map.mp hid
  have hida : id' = a := List.mem_singleton.mp hid'
  exact horderly r hr (hra.trans (heq.trans hida))

lemma take_eraseP {α : Type} (p : α → Bool) (n : ℕ) (l : List α) (h : ∀ r ∈ l.take n, p r = false) :
    (l.eraseP p).take n = l.take n := by
  induction l generalizing n with
  | nil => rfl
  | cons r l ih =>
    cases n with
    | zero => rfl
    | succ n =>
      rw [List.take_succ_cons] at h
      rw [List.eraseP_cons_of_neg (by simp [h r List.mem_cons_self]), List.take_succ_cons,
        List.take_succ_cons, ih n fun r' hr' => h r' (List.mem_cons_of_mem r hr')]

lemma disable (h : Synced x) {a : String} (horderly : x.Orderly (.disable a)) :
    Synced (x.step (.disable a)) := by
  have hfree : ¬ x.Taken a := horderly
  show Synced (if ∃ r ∈ x.strategies, r.alphaId = a then _ else x)
  split
  · refine h.of_other rfl rfl ?_ ?_ fun _ _ _ _ => Iff.rfl
    · exact h.ids.sublist (List.eraseP_sublist.map _)
    · refine take_eraseP _ _ _ fun r hr => ?_
      exact decide_eq_false fun hra => hfree ⟨r, hr, hra⟩
  · exact h

/-! ## The loop -/

lemma isAlert_of_mem_desired {r : AlertStrategy} {c : String} (h : c ∈ x.desired r) : IsAlert c := by
  unfold desired at h
  split at h
  · exact absurd h List.not_mem_nil
  · obtain ⟨symbol, -, rfl⟩ := List.mem_map.mp h
    unfold IsAlert startsWith
    rw [List.isPrefixOf_iff_prefix, String.append_assoc, String.append_assoc, String.toList_append]
    exact List.prefix_append _ _

/-- The calls for a strategy bring it in sync just when it is remembered as it is. -/
lemma remembered_iff (x : AlertWorld) (r : AlertStrategy) :
    x.Remembered r ↔ ∀ c, IsAlert c →
      ((c ∈ x.channels r.alphaId ∨ c ∈ (x.desired r).filter fun c => c ∉ x.subscribed r.alphaId) ∧
        c ∉ (x.subscribed r.alphaId).filter fun c => c ∉ x.desired r) = (c ∈ x.desired r) := by
  simp only [List.mem_filter, decide_eq_true_eq, eq_iff_iff]
  constructor
  · intro h c hc
    have hwanted := h.1 c
    have hextra := h.2 c hc
    tauto
  · intro h
    refine ⟨fun c hc => ?_, fun c hc => ?_⟩
    · have hcall := h c (isAlert_of_mem_desired hc)
      tauto
    · have hcall := h c hc
      tauto

/-- A strategy before the one at an index has another id. -/
lemma ne_of_mem_take (h : Synced x) {i : ℕ} {r r' : AlertStrategy} (hr : x.strategies[i]? = some r)
    (hr' : r' ∈ x.strategies.take i) : r'.alphaId ≠ r.alphaId := by
  obtain ⟨j, hj⟩ := List.mem_iff_getElem?.mp hr'
  have hlt : j < i := by
    by_contra hge
    rw [List.getElem?_take_eq_none (not_lt.mp hge)] at hj
    cases hj
  rw [List.getElem?_take_of_lt hlt] at hj
  intro heq
  have hj' : (x.strategies.map AlertStrategy.alphaId)[j]? = some r'.alphaId := by
    rw [List.getElem?_map, hj]
    rfl
  have hi' : (x.strategies.map AlertStrategy.alphaId)[i]? = some r'.alphaId := by
    rw [List.getElem?_map, hr, heq]
    rfl
  have hjlt : j < (x.strategies.map AlertStrategy.alphaId).length := (List.getElem?_eq_some_iff.mp hj').1
  have hji : j = i := (List.getElem?_inj hjlt h.ids).mp (hj'.trans hi'.symm)
  omega

/-- One call of the pass for the strategy it is at. -/
lemma of_call (h : Synced x) {i : ℕ} {a c : String} {d subs unsubs subs' unsubs' : List String}
    (hpass : x.pass = .syncing i a d subs unsubs) (hpass' : y.pass = .syncing i a d subs' unsubs')
    (hexchange : y.exchange = x.exchange) (hstrategies : y.strategies = x.strategies)
    (hkeep : ∀ a' c', ¬ (a' = a ∧ c' = c) → (c' ∈ y.channels a' ↔ c' ∈ x.channels a'))
    (hsubs : ∀ c' ∈ subs', c' ∈ subs)
    (hleft : ∀ c', IsAlert c' → ((c' ∈ x.channels a ∨ c' ∈ subs) ∧ c' ∉ unsubs ↔ c' ∈ d) →
      ((c' ∈ y.channels a ∨ c' ∈ subs') ∧ c' ∉ unsubs' ↔ c' ∈ d)) : Synced y := by
  obtain ⟨r, hr, hid, hd, hall, hcalls⟩ := h.syncing i a d subs unsubs hpass
  have hbound := h.bound
  have hdone := h.done
  unfold takenUp at hbound
  unfold finished at hdone
  rw [hpass] at hbound hdone
  have hdesired : ∀ r, y.desired r = x.desired r := by
    intro r
    unfold desired
    rw [hexchange]
  refine ⟨hstrategies ▸ h.ids, ?_, ?_, ?_⟩
  · unfold takenUp
    rw [hpass', hstrategies]
    exact hbound
  · unfold finished
    rw [hpass', hstrategies]
    intro r' hr' c' hc'
    have hne := h.ne_of_mem_take hr hr'
    rw [hdesired, hkeep r'.alphaId c' fun heq => hne (heq.1.trans hid.symm)]
    exact hdone r' hr' c' hc'
  · intro i' a' d' subs'' unsubs'' hsyncing
    rw [hpass'] at hsyncing
    cases hsyncing
    exact ⟨r, by rw [hstrategies, hr], hid, hd.trans (hdesired r).symm,
      fun c' hc' => hall c' (hsubs c' hc'), fun c' hc' => hleft c' hc' (hcalls c' hc')⟩

lemma advance (h : Synced x) (horderly : x.Orderly .advance) : Synced x.advance := by
  have hdone := h.done
  have hbound := h.bound
  unfold finished at hdone
  unfold takenUp at hbound
  unfold AlertWorld.advance
  split
  · exact ⟨h.ids, Nat.zero_le _, fun r hr => absurd hr List.not_mem_nil, fun _ _ _ _ _ h => by cases h⟩
  · rename_i i hpass
    rw [hpass] at hdone hbound
    split
    · exact ⟨h.ids, Nat.zero_le _, fun r hr => absurd hr List.not_mem_nil,
        fun _ _ _ _ _ h => by cases h⟩
    · rename_i r hr
      have hlt : i < x.strategies.length := (List.getElem?_eq_some_iff.mp hr).1
      refine ⟨h.ids, hlt, hdone, fun i' a d subs unsubs hsyncing => ?_⟩
      cases hsyncing
      refine ⟨r, hr, rfl, rfl, fun c hc => (List.mem_filter.mp hc).1, fun c hc => ?_⟩
      exact iff_of_eq ((remembered_iff x r).mp (horderly i r hpass hr) c hc)
  · rename_i i a d c subs unsubs hpass
    refine h.of_call (c := c) hpass rfl rfl rfl (fun a' c' hne => ?_) (fun c' => List.mem_cons_of_mem c)
      fun c' _ hcall => ?_
    · exact (mem_subscribe x a c).trans (or_iff_left hne)
    · rw [List.mem_cons] at hcall
      show (c' ∈ (x.subscribe a c).channels a ∨ c' ∈ subs) ∧ c' ∉ unsubs ↔ c' ∈ d
      rw [mem_subscribe]
      tauto
  · rename_i i a d c unsubs hpass
    refine h.of_call (c := c) hpass rfl rfl rfl (fun a' c' hne => ?_) (fun c' hc' => hc') fun c' _ hcall => ?_
    · exact (mem_unsubscribe x a c).trans (and_iff_left hne)
    · rw [List.mem_cons] at hcall
      show (c' ∈ (x.unsubscribe a c).channels a ∨ c' ∈ []) ∧ c' ∉ unsubs ↔ c' ∈ d
      rw [mem_unsubscribe]
      simp only [List.not_mem_nil, or_false] at hcall ⊢
      tauto
  · rename_i i a d hpass
    rw [hpass] at hdone hbound
    obtain ⟨r, hr, hid, hd, -, hleft⟩ := h.syncing i a d [] [] hpass
    refine ⟨h.ids, hbound, fun r' hr' => ?_, fun _ _ _ _ _ h => by cases h⟩
    have hsplit : x.strategies.take (i + 1) = x.strategies.take i ++ [r] := by
      rw [List.take_add_one, hr]
      rfl
    have hmem : r' ∈ x.strategies.take i ++ [r] := hsplit ▸ hr'
    rcases List.mem_append.mp hmem with hr' | hr'
    · exact hdone r' hr'
    · rw [List.mem_singleton.mp hr']
      intro c hc
      have hcall := hleft c hc
      simp only [List.not_mem_nil, or_false, not_false_eq_true, and_true] at hcall
      show c ∈ x.channels r.alphaId ↔ c ∈ x.desired r
      rw [hid, ← hd]
      exact hcall

lemma raise (h : Synced x) : Synced x.raise := by
  unfold AlertWorld.raise
  split
  · exact ⟨h.ids, Nat.zero_le _, fun r hr => absurd hr List.not_mem_nil, fun _ _ _ _ _ h => by cases h⟩
  · exact ⟨h.ids, Nat.zero_le _, fun r hr => absurd hr List.not_mem_nil, fun _ _ _ _ _ h => by cases h⟩
  · exact h

lemma step (h : Synced x) {a : AlertStep} (horderly : x.Orderly a) : Synced (x.step a) := by
  cases a with
  | hold i symbols => exact h.hold horderly
  | enable a required => exact h.enable horderly
  | join k => exact h.join horderly
  | disable a => exact h.disable horderly
  | leave k => exact h.leave horderly
  | advance => exact h.advance horderly
  | raise => exact h.raise

lemma steps (h : Synced x) {l : List AlertStep} (horderly : x.AllOrderly l) : Synced (x.steps l) := by
  induction l generalizing x with
  | nil => exact h
  | cons a l ih => exact ih (h.step horderly.1) horderly.2

lemma init (exchange : String) : Synced (.init exchange) :=
  ⟨List.nodup_nil, Nat.le_refl 0, fun r hr => absurd hr List.not_mem_nil, fun _ _ _ _ _ h => by cases h⟩

end Synced

/-- At the end of every pass that has not raised, in a run of steps in order, every running strategy
has the alerts of the symbols it holds, and no others. -/
theorem inSync_of_orderly (exchange : String) (l : List AlertStep)
    (horderly : (init exchange).AllOrderly l) (hending : ((init exchange).steps l).Ending) :
    ∀ r ∈ ((init exchange).steps l).strategies, ((init exchange).steps l).InSync r := by
  have h := (Synced.init exchange).steps horderly
  obtain ⟨i, hpass, hnone⟩ := hending
  intro r hr
  refine h.done r ?_
  unfold finished
  rw [hpass]
  have hlength : ((init exchange).steps l).strategies.length ≤ i := List.getElem?_eq_none_iff.mp hnone
  rw [List.take_of_length_le hlength]
  exact hr

/-- A strategy starts, holds a symbol, and a pass of the loop goes through. -/
def firstPass : List AlertStep :=
  [.enable "a" [], .hold 0 ["BTCUSDT"], .advance, .advance, .advance, .advance]

theorem inSync_of_orderly_first :
    ((init "binance").steps firstPass).InSync ⟨"a", ["BTCUSDT"]⟩ := by
  refine inSync_of_orderly "binance" firstPass ⟨?_, ?_, ?_, ?_, ?_, ?_, trivial⟩ ⟨1, ?_, ?_⟩
    ⟨"a", ["BTCUSDT"]⟩ (by decide +kernel)
  · intro r hr
    exact absurd hr List.not_mem_nil
  · exact Nat.zero_le 0
  · intro i r hpass
    cases hpass
  · intro i r hpass hr
    cases hpass
    cases hr
    exact ⟨fun c _ hc => absurd hc List.not_mem_nil, fun c _ hc => absurd hc List.not_mem_nil⟩
  · intro i r hpass
    have hsyncing : ((init "binance").steps [.enable "a" [], .hold 0 ["BTCUSDT"], .advance,
        .advance]).pass = .syncing 0 "a" ["price_alert:binance:BTCUSDT"]
          ["price_alert:binance:BTCUSDT"] [] := by decide +kernel
    cases hsyncing.symm.trans hpass
  · intro i r hpass
    have hsyncing : ((init "binance").steps [.enable "a" [], .hold 0 ["BTCUSDT"], .advance,
        .advance, .advance]).pass = .syncing 0 "a" ["price_alert:binance:BTCUSDT"] [] [] := by
      decide +kernel
    cases hsyncing.symm.trans hpass
  · decide +kernel
  · decide +kernel

/-- A strategy takes a position, is disabled, enabled again, and takes the position again. -/
def reenabled : List AlertStep :=
  [.enable "a" [], .hold 0 ["BTCUSDT"], .advance, .advance, .advance, .advance, .advance,
    .disable "a", .leave 0, .enable "a" [], .hold 0 ["BTCUSDT"], .advance, .advance, .advance]

/-- The loop still remembers the alert from before, so it does not subscribe it again. -/
theorem reenabled_not_inSync : ¬ ∀ (exchange : String) (l : List AlertStep),
    ((init exchange).steps l).Ending →
      ∀ r ∈ ((init exchange).steps l).strategies, ((init exchange).steps l).InSync r := by
  intro h
  have hpass : ((init "binance").steps reenabled).pass = .next 1 := by decide +kernel
  have hstrategies : ((init "binance").steps reenabled).strategies = [⟨"a", ["BTCUSDT"]⟩] := by
    decide +kernel
  have hchannels : ((init "binance").steps reenabled).channels "a" = [] := by decide +kernel
  have hdesired : ((init "binance").steps reenabled).desired ⟨"a", ["BTCUSDT"]⟩ =
      ["price_alert:binance:BTCUSDT"] := by decide +kernel
  have hsync := h "binance" reenabled ⟨1, hpass, by rw [hstrategies]; rfl⟩ ⟨"a", ["BTCUSDT"]⟩
    (by rw [hstrategies]; exact List.mem_singleton_self _)
  have halert : IsAlert "price_alert:binance:BTCUSDT" := by decide +kernel
  have hmem := (hsync _ halert).mpr (by rw [hdesired]; exact List.mem_singleton_self _)
  rw [hchannels] at hmem
  exact List.not_mem_nil hmem

end AlertWorld

end PaperTrade.Runner
