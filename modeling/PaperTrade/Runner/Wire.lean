import PaperTrade.Runner.OpenInStream
import PaperTrade.Worker.Main

/-!
# Messages on the way to the worker

`rawSignal` is a stream message as the worker reads it. A method of a strategy only appends to the stream,
and what it appends are the payloads of the calls that it makes (`Emits`).
-/

namespace PaperTrade.Runner

open PaperTrade.Runtime PaperTrade.Worker Dispatcher

/-- The fields of a message that the worker reads. -/
def rawSignal (m : Message) : RawSignal where
  type := (m.get? "type").map Text.spell
  alphaId := (m.get? "alpha_id").map Text.spell
  signalId := (m.get? "signal_id").map Text.spell
  symbol := (m.get? "symbol").map Text.spell
  side := (m.get? "side").map Text.spell
  timestamp := (m.get? "timestamp").map Text.spell
  positionId := (m.get? "position_id").map Text.spell
  exchange := (m.get? "exchange").map Text.spell
  reason := (m.get? "reason").map Text.spell
  entry := m.get? "entry"
  qty := m.get? "qty"
  tp := m.get? "tp"
  sl := m.get? "sl"
  leverage := m.get? "leverage"
  feePct := m.get? "fee_pct"
  exitPrice := m.get? "exit_price"
  metadata := m.get? "metadata"
  columns := m.get? "columns"

/-! ## What a stream is extended with -/

/-- The messages that follow are payloads of calls that satisfy `Q`. -/
def Extends (Q : Call → Prop) (l l' : List Message) : Prop :=
  ∃ new, l' = l ++ new ∧ ∀ m ∈ new, ∃ c now id, Q c ∧ m = Call.payload c now id

section Extends

variable {Q : Call → Prop} {l l' l'' : List Message}

lemma Extends.refl (l : List Message) : Extends Q l l :=
  ⟨[], (List.append_nil l).symm, fun _ hm => absurd hm List.not_mem_nil⟩

lemma Extends.trans (h : Extends Q l l') (h' : Extends Q l' l'') : Extends Q l l'' := by
  obtain ⟨new, rfl, hnew⟩ := h
  obtain ⟨new', rfl, hnew'⟩ := h'
  refine ⟨new ++ new', List.append_assoc .., fun m hm => ?_⟩
  exact (List.mem_append.mp hm).elim (hnew m) (hnew' m)

lemma Extends.mem (h : Extends Q l l') {m : Message} (hm : m ∈ l') :
    m ∈ l ∨ ∃ c now id, Q c ∧ m = Call.payload c now id := by
  obtain ⟨new, rfl, hnew⟩ := h
  exact (List.mem_append.mp hm).imp_right (hnew m)

lemma Extends.grows (h : Extends Q l l') : l <+: l' := by
  obtain ⟨new, rfl, -⟩ := h
  exact List.prefix_append l new

end Extends

/-- A dispatch appends the payload of its call or nothing. -/
lemma extends_dispatch {Q : Call → Prop} {c : Call} (h : Q c) (digest : Logical → String)
    (d : Dispatcher) (env : DispatchEnv) :
    Extends Q d.stream (d.dispatch digest env c).2.stream := by
  rcases dispatch_cases digest d env c with ⟨-, heq⟩ | ⟨-, -, heq⟩ | ⟨-, -, -, heq⟩ |
    ⟨-, -, -, r, -, -, heq⟩
  · rw [heq]
    exact .refl _
  · rw [heq]
    exact .refl _
  · rw [heq]
    exact .refl _
  · rw [heq]
    refine ⟨[_], rfl, fun m hm => ⟨c, env.now, digest c.logical, h, ?_⟩⟩
    exact List.mem_singleton.mp hm

/-- Whatever the world, the method sends calls that satisfy `Q` only. -/
def Emits {σ α : Type} (Q : Call → Prop) (p : Method σ α) : Prop :=
  ∀ w, Extends Q w.2.dispatcher.stream (p.run w).2.2.dispatcher.stream

namespace Emits

variable {σ α β : Type} {Q : Call → Prop}

lemma pure (a : α) : Emits Q (Pure.pure a : Method σ α) := fun _ => .refl _

lemma ofExcept (r : Except StrategyError α) : Emits Q (Coro.ofExcept r : Method σ α) :=
  fun _ => .refl _

lemma getState : Emits Q (getState (σ := σ)) := fun _ => .refl _

lemma modifyState (f : σ → σ) : Emits Q (modifyState f) := fun _ => .refl _

lemma emit {c : Call} (h : Q c) (digest : Logical → String) (env : ℕ → DispatchEnv) :
    Emits Q (emitSignal digest env c : Method σ Unit) :=
  fun w => extends_dispatch h digest w.2.dispatcher (w.2.next env)

lemma bind {p : Method σ α} {k : α → Method σ β} (hp : Emits Q p) (hk : ∀ a, Emits Q (k a)) :
    Emits Q (p >>= k) := by
  intro w
  have hfirst := hp w
  obtain ⟨r, w', hrun⟩ : ∃ r w', p.run w = (r, w') := ⟨_, _, rfl⟩
  rw [hrun] at hfirst
  cases r with
  | error e =>
    rw [Coro.run_bind_error hrun]
    exact hfirst
  | ok a =>
    rw [Coro.run_bind_ok hrun]
    exact hfirst.trans (hk a w')

end Emits

/-! ## The fields of a payload -/

/-- A field of a payload that is not one of the four of every message. -/
lemma get?_payload_of_mem {c : Call} (hnodup : (c.fields.map Prod.fst).Nodup) {key : String} {v : Json}
    (hmem : (key, v) ∈ c.fields) (hv : v ≠ .null) (hkey : key ≠ "timestamp") (now id : String) :
    (c.payload now id).get? key = some (pyStr v) := by
  have hsub := (List.filter_sublist (p := fun p : String × Json => decide (p.1 ≠ "timestamp"))
    (l := c.fields)).map Prod.fst
  rw [Call.payload]
  exact get?_foldl_addField_of_mem (hnodup.sublist hsub)
    (List.mem_filter.mpr ⟨hmem, decide_eq_true hkey⟩) hv _

/-- A field that the call leaves out or sends as `None`. -/
lemma get?_foldl_addField_null {fields : Entries} {key : String}
    (h : ∀ p ∈ fields, p.1 = key → p.2 = .null) (m : Message) :
    (fields.foldl addField m).get? key = m.get? key := by
  induction fields generalizing m with
  | nil => rfl
  | cons p fields ih =>
    have hfirst : (addField m p).get? key = m.get? key := by
      by_cases hkey : p.1 = key
      · rw [addField, h p (List.mem_cons_self ..) hkey]
      · unfold addField
        split
        · rfl
        · rw [Dict.get?_set, if_neg fun heq => hkey heq.symm]
    rw [List.foldl_cons, ih fun q hq => h q (List.mem_cons_of_mem _ hq), hfirst]

/-- The type of a message. -/
lemma get?_payload_type {c : Call} (h : ∀ p ∈ c.fields, p.1 ≠ "type") (now id : String) :
    (c.payload now id).get? "type" = some (.chars c.type) := by
  rw [Call.payload, get?_foldl_addField fun p hp => h p (List.mem_filter.mp hp).1, Dict.get?_set,
    if_neg (by decide), Dict.get?_set, if_neg (by decide), Dict.get?_set, if_neg (by decide),
    Dict.get?_set, if_pos rfl]

/-- A field that a call names once, with `None`. -/
lemma null_of_mem {fields : Entries} (hnodup : (fields.map Prod.fst).Nodup) {key : String}
    (hmem : (key, Json.null) ∈ fields) : ∀ p ∈ fields, p.1 = key → p.2 = .null :=
  fun _ hp hkey => congrArg Prod.snd (List.inj_on_of_nodup_map hnodup hp hmem hkey)

/-- A field that a message does not have. -/
lemma get?_payload_none {c : Call} {key : String} (h : ∀ p ∈ c.fields, p.1 = key → p.2 = .null)
    (hkey : key ∉ ["type", "alpha_id", "signal_id", "timestamp"]) (now id : String) :
    (c.payload now id).get? key = none := by
  simp only [List.mem_cons, List.not_mem_nil, or_false, not_or] at hkey
  obtain ⟨htype, halpha, hid, htime⟩ := hkey
  rw [Call.payload, get?_foldl_addField_null fun p hp => h p (List.mem_filter.mp hp).1, Dict.get?_set,
    if_neg htime, Dict.get?_set, if_neg hid, Dict.get?_set, if_neg halpha, Dict.get?_set,
    if_neg htype]
  rfl

end PaperTrade.Runner
