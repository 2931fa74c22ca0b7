import PaperTrade.Runner.Dispatcher
import PaperTrade.Runner.Lease

/-!
# Dispatches under the lease

Runners that dispatch signals, each with its own window of remembered ids, over one Redis. A dispatch
asks for the lease, remembers its signal and appends it with calls of their own, and leases expire,
change hands and are released in between.

The append is not told which lease the dispatch was checked against, so a runner that is late appends
to the stream of an alpha that another runner has taken over (`late_append`). As long as a lease is
neither run out nor given up under a dispatch (`Timely`), the stream is fenced (`fenced_of_timely`).
-/

namespace PaperTrade.Runner

open PaperTrade.Runtime

/-- A dispatch that has found its lease valid. -/
structure Sending where
  runner : String
  env : DispatchEnv
  call : Call
  remembered : Bool

/-- What happens to a lease and to the stream. -/
inductive LeaseEvent
  | acquired (alphaId runner : String)
  /-- `holder` has the lease at the time of the append. -/
  | appended (alphaId runner : String) (holder : Option String) (message : Message)

/-- The runners and their Redis. -/
structure LeaseWorld where
  ttlSec : String → ℕ
  maxSeen : String → ℕ
  keys : LeaseKeys := {}
  /-- `_seen` of each runner -/
  seen : String → List String := fun _ => []
  dedup : List String := []
  sending : List Sending := []
  /-- what has happened, the newest first -/
  history : List LeaseEvent := []

/-- One call of Redis, or the passing of time. -/
inductive LeaseStep
  | tick (d : ℕ)
  | acquire (runner alphaId : String)
  | renew (runner alphaId : String)
  | release (runner alphaId : String)
  | check (runner : String) (env : DispatchEnv) (call : Call)
  | remember (k : ℕ)
  | append (k : ℕ)

namespace LeaseWorld

/-- The `LeaseManager` of a runner. -/
def manager (x : LeaseWorld) (runner : String) : LeaseManager := ⟨runner, x.ttlSec runner⟩

def holder (x : LeaseWorld) (alphaId : String) : Option String := LeaseManager.holder x.keys alphaId

/-- The stream of signals. -/
def stream (x : LeaseWorld) : List Message :=
  x.history.reverse.filterMap fun
    | .appended _ _ _ message => some message
    | .acquired _ _ => none

/-- What the dispatcher of a runner sees. -/
def dispatcher (x : LeaseWorld) (runner : String) : Dispatcher where
  maxSeen := x.maxSeen runner
  seen := x.seen runner
  dedup := x.dedup
  stream := x.stream

variable (digest : Logical → String)

/-- A dispatch skips its signal or remembers it. -/
def remember (x : LeaseWorld) (k : ℕ) (s : Sending) : LeaseWorld :=
  if digest s.call.logical ∈ x.seen s.runner then { x with sending := x.sending.eraseIdx k }
  else
    let d := (x.dispatcher s.runner).remember s.env.pipeline (digest s.call.logical)
    { x with
      seen := Function.update x.seen s.runner d.seen
      dedup := d.dedup
      sending := x.sending.set k { s with remembered := true } }

/-- A dispatch appends its signal, and is over. -/
def append (x : LeaseWorld) (k : ℕ) (s : Sending) : LeaseWorld :=
  let alphaId := s.call.ctx.alphaId
  let message := s.call.payload s.env.now (digest s.call.logical)
  { x with
    sending := x.sending.eraseIdx k
    history := match Dispatcher.appendOf s.env s.call with
      | .lost => x.history
      | .unacknowledged | .acknowledged =>
        .appended alphaId s.runner (x.holder alphaId) message :: x.history }

def step (x : LeaseWorld) : LeaseStep → LeaseWorld
  | .tick d => { x with keys := x.keys.tick d }
  | .acquire runner alphaId =>
    let acquired := (x.manager runner).acquire x.keys alphaId
    { x with
      keys := acquired.2
      history := if acquired.1 then .acquired alphaId runner :: x.history else x.history }
  | .renew runner alphaId => { x with keys := ((x.manager runner).renew x.keys alphaId).2 }
  | .release runner alphaId => { x with keys := ((x.manager runner).release x.keys alphaId).2 }
  | .check runner env call =>
    if (x.manager runner).isValid x.keys call.ctx.alphaId then
      { x with sending := x.sending ++ [⟨runner, env, call, false⟩] }
    else x
  | .remember k =>
    match x.sending[k]? with
    | some s => if s.remembered then x else x.remember digest k s
    | none => x
  | .append k =>
    match x.sending[k]? with
    | some s => if s.remembered then x.append digest k s else x
    | none => x

/-- The world after a run. -/
def steps (x : LeaseWorld) (l : List LeaseStep) : LeaseWorld := l.foldl (step digest) x

/-- The world at the start. -/
def init (ttlSec maxSeen : String → ℕ) : LeaseWorld := { ttlSec, maxSeen }

/-- Every message has been appended under the lease of its sender, and between two messages of an
alpha from two runners the second of them has acquired the lease. -/
structure Fenced (x : LeaseWorld) : Prop where
  held : ∀ alphaId runner holder message,
    .appended alphaId runner holder message ∈ x.history → holder = some runner
  handed : ∀ later between earlier alphaId runner runner' holder holder' message message',
    x.history = later ++ .appended alphaId runner' holder' message' :: between ++
      .appended alphaId runner holder message :: earlier →
    runner' ≠ runner → .acquired alphaId runner' ∈ between

/-- The step takes no lease away under a dispatch: time does not run it out, and the runner does not
release it. -/
def Timely (x : LeaseWorld) : LeaseStep → Prop
  | .tick d => ∀ s ∈ x.sending, LeaseManager.holder (x.keys.tick d) s.call.ctx.alphaId ≠ none
  | .release runner alphaId => ∀ s ∈ x.sending, s.runner = runner → s.call.ctx.alphaId ≠ alphaId
  | _ => True

/-- Every step of the run is timely. -/
def AllTimely : LeaseWorld → List LeaseStep → Prop
  | _, [] => True
  | x, a :: l => x.Timely a ∧ AllTimely (x.step digest a) l

instance (x : LeaseWorld) (a : LeaseStep) : Decidable (x.Timely a) :=
  match a with
  | .tick d => inferInstanceAs (Decidable (∀ s ∈ x.sending,
      LeaseManager.holder (x.keys.tick d) s.call.ctx.alphaId ≠ none))
  | .release runner alphaId => inferInstanceAs (Decidable (∀ s ∈ x.sending,
      s.runner = runner → s.call.ctx.alphaId ≠ alphaId))
  | .acquire _ _ | .renew _ _ | .check _ _ _ | .remember _ | .append _ => inferInstanceAs (Decidable True)

instance decidableAllTimely : ∀ (x : LeaseWorld) (l : List LeaseStep),
    Decidable (x.AllTimely digest l)
  | _, [] => inferInstanceAs (Decidable True)
  | x, a :: l =>
    have := decidableAllTimely (x.step digest a) l
    inferInstanceAs (Decidable (x.Timely a ∧ AllTimely digest (x.step digest a) l))

variable {digest}

/-! ## A dispatch on its own -/

lemma stream_appended {x y : LeaseWorld} {alphaId runner : String} {holder : Option String}
    {message : Message} (h : y.history = .appended alphaId runner holder message :: x.history) :
    y.stream = x.stream ++ [message] := by
  simp [stream, h]

/-- With nothing in between, the calls of a dispatch amount to `dispatch`. -/
theorem dispatcher_alone (x : LeaseWorld) (runner : String) (env : DispatchEnv) (call : Call)
    (halone : x.sending = []) :
    (x.steps digest [.check runner env call, .remember 0, .append 0]).dispatcher runner =
      ((x.dispatcher runner).dispatch digest
        { env with leaseValid := (x.manager runner).isValid x.keys call.ctx.alphaId } call).2 := by
  rcases Dispatcher.dispatch_cases digest (x.dispatcher runner)
    { env with leaseValid := (x.manager runner).isValid x.keys call.ctx.alphaId } call with
    ⟨hvalid, heq⟩ | ⟨hvalid, hseen, heq⟩ | ⟨hvalid, hseen, hlost, heq⟩ |
      ⟨hvalid, hseen, hsent, r, -, -, heq⟩ <;> rw [heq] <;> dsimp only at hvalid
  · simp [steps, step, hvalid, halone]
  · have hskip : digest call.logical ∈ x.seen runner := hseen
    simp [steps, step, remember, hvalid, halone, hskip]
    rfl
  · have hnew : digest call.logical ∉ x.seen runner := hseen
    have happend : Dispatcher.appendOf env call = .lost := hlost
    simp [steps, step, remember, append, hvalid, halone, hnew, happend, dispatcher]
    rfl
  · have hnew : digest call.logical ∉ x.seen runner := hseen
    have happend : Dispatcher.appendOf env call ≠ .lost := hsent
    cases hcase : Dispatcher.appendOf env call with
    | lost => exact absurd hcase happend
    | unacknowledged =>
      simp [steps, step, remember, append, hvalid, halone, hnew, hcase, dispatcher]
      exact ⟨rfl, rfl, rfl, stream_appended rfl⟩
    | acknowledged =>
      simp [steps, step, remember, append, hvalid, halone, hnew, hcase, dispatcher]
      exact ⟨rfl, rfl, rfl, stream_appended rfl⟩

/-! ## The invariant -/

/-- The invariant of a timely run. -/
structure Guarded (x : LeaseWorld) : Prop extends Fenced x where
  ttl : ∀ alphaId runner, x.holder alphaId = some runner → 0 < x.ttlSec runner
  sending : ∀ s ∈ x.sending, x.holder s.call.ctx.alphaId = some s.runner
  /-- Who holds a lease now has acquired it since the last message from another runner. -/
  successor : ∀ later earlier alphaId runner runner' holder message,
    x.history = later ++ .appended alphaId runner holder message :: earlier →
    x.holder alphaId = some runner' → runner' ≠ runner → .acquired alphaId runner' ∈ later

namespace Guarded

variable {x y : LeaseWorld}

lemma init (ttlSec maxSeen : String → ℕ) : Guarded (.init ttlSec maxSeen) := by
  refine { held := ?_, handed := ?_, ttl := ?_, sending := ?_, successor := ?_ }
  · intro _ _ _ _ h
    exact absurd h List.not_mem_nil
  · intro later between earlier _ _ _ _ _ _ _ h
    simp [LeaseWorld.init] at h
  · intro _ _ h
    cases h
  · intro s h
    exact absurd h List.not_mem_nil
  · intro later earlier _ _ _ _ _ h
    simp [LeaseWorld.init] at h

/-- A step that adds nothing to the history and gives no lease to anyone. -/
lemma quiet (h : Guarded x) (hhistory : y.history = x.history) (httl : y.ttlSec = x.ttlSec)
    (hholder : ∀ a r, y.holder a = some r → x.holder a = some r)
    (hsending : ∀ s ∈ y.sending, y.holder s.call.ctx.alphaId = some s.runner) : Guarded y := by
  refine { held := ?_, handed := ?_, ttl := ?_, sending := hsending, successor := ?_ }
  · rw [hhistory]
    exact h.held
  · rw [hhistory]
    exact h.handed
  · intro a r hr
    rw [httl]
    exact h.ttl a r (hholder a r hr)
  · rw [hhistory]
    intro later earlier a r r' o m hsplit hr'
    exact h.successor later earlier a r r' o m hsplit (hholder a r' hr')

/-- A runner acquires a lease. -/
lemma acquired (h : Guarded x) {a r : String} (hfree : x.holder a = none) (hpos : 0 < x.ttlSec r)
    (hhistory : y.history = .acquired a r :: x.history) (httl : y.ttlSec = x.ttlSec)
    (hsending : y.sending = x.sending)
    (hholder : ∀ a', y.holder a' = if a' = a then some r else x.holder a') : Guarded y := by
  have hstill : ∀ a' r', x.holder a' = some r' → y.holder a' = some r' := by
    intro a' r' hr'
    have hne : a' ≠ a := fun heq => by rw [heq, hfree] at hr'; cases hr'
    rw [hholder, if_neg hne, hr']
  refine { held := ?_, handed := ?_, ttl := ?_, sending := ?_, successor := ?_ }
  · intro a' r' o m hmem
    rw [hhistory] at hmem
    exact h.held a' r' o m ((List.mem_cons.mp hmem).resolve_left LeaseEvent.noConfusion)
  · intro later between earlier a' r₁ r₂ o₁ o₂ m₁ m₂ hsplit hne
    rw [hhistory, List.append_assoc] at hsplit
    rcases List.cons_eq_append_iff.mp hsplit with ⟨-, hhead⟩ | ⟨later', rfl, htail⟩
    · exact absurd (List.cons.inj hhead).1 LeaseEvent.noConfusion
    · exact h.handed later' between earlier a' r₁ r₂ o₁ o₂ m₁ m₂
        (by rw [htail, List.append_assoc]) hne
  · intro a' r' hr'
    rw [hholder] at hr'
    rw [httl]
    by_cases heq : a' = a
    · rw [if_pos heq] at hr'
      rwa [← Option.some.inj hr']
    · rw [if_neg heq] at hr'
      exact h.ttl a' r' hr'
  · intro s hs
    rw [hsending] at hs
    exact hstill _ _ (h.sending s hs)
  · intro later earlier a' r₁ r₂ o m hsplit hr₂ hne
    rw [hhistory] at hsplit
    rcases List.cons_eq_append_iff.mp hsplit with ⟨-, hhead⟩ | ⟨later', rfl, htail⟩
    · exact absurd (List.cons.inj hhead).1 LeaseEvent.noConfusion
    · rw [hholder] at hr₂
      by_cases heq : a' = a
      · rw [if_pos heq] at hr₂
        rw [heq, ← Option.some.inj hr₂]
        exact List.mem_cons_self ..
      · rw [if_neg heq] at hr₂
        exact List.mem_cons_of_mem _ (h.successor later' earlier a' r₁ r₂ o m htail hr₂ hne)

/-- The holder of a lease appends a message. -/
lemma appended (h : Guarded x) {a r : String} {m : Message} (hheld : x.holder a = some r)
    (hhistory : y.history = .appended a r (some r) m :: x.history) (httl : y.ttlSec = x.ttlSec)
    (hsending : ∀ s ∈ y.sending, s ∈ x.sending) (hholder : y.holder = x.holder) : Guarded y := by
  refine { held := ?_, handed := ?_, ttl := ?_, sending := ?_, successor := ?_ }
  · intro a' r' o m' hmem
    rw [hhistory] at hmem
    rcases List.mem_cons.mp hmem with heq | hmem
    · cases heq
      rfl
    · exact h.held a' r' o m' hmem
  · intro later between earlier a' r₁ r₂ o₁ o₂ m₁ m₂ hsplit hne
    rw [hhistory, List.append_assoc] at hsplit
    rcases List.cons_eq_append_iff.mp hsplit with ⟨-, hhead⟩ | ⟨later', rfl, htail⟩
    · -- the later of the two messages is the new one
      obtain ⟨hnew, hrest⟩ := List.cons.inj hhead
      cases hnew
      exact h.successor between earlier a r₁ r o₁ m₁ hrest.symm hheld hne
    · exact h.handed later' between earlier a' r₁ r₂ o₁ o₂ m₁ m₂
        (by rw [htail, List.append_assoc]) hne
  · rw [hholder, httl]
    exact h.ttl
  · intro s hs
    rw [hholder]
    exact h.sending s (hsending s hs)
  · intro later earlier a' r₁ r₂ o m' hsplit hr₂ hne
    rw [hhistory] at hsplit
    rw [hholder] at hr₂
    rcases List.cons_eq_append_iff.mp hsplit with ⟨-, hhead⟩ | ⟨later', rfl, htail⟩
    · cases (List.cons.inj hhead).1
      exact absurd (Option.some.inj (hr₂.symm.trans hheld)) hne
    · exact List.mem_cons_of_mem _ (h.successor later' earlier a' r₁ r₂ o m' htail hr₂ hne)

/-! ## Steps and runs -/

lemma remember (h : Guarded x) {k : ℕ} {s : Sending} (hs : x.sending[k]? = some s) :
    Guarded (x.remember digest k s) := by
  unfold LeaseWorld.remember
  split
  · exact h.quiet rfl rfl (fun _ _ hr => hr) fun s' hs' => h.sending s' (List.mem_of_mem_eraseIdx hs')
  · refine h.quiet rfl rfl (fun _ _ hr => hr) fun s' hs' => ?_
    rcases List.mem_or_eq_of_mem_set hs' with hs' | rfl
    · exact h.sending s' hs'
    · exact h.sending s (List.mem_of_getElem? hs)

lemma append (h : Guarded x) {k : ℕ} {s : Sending} (hs : x.sending[k]? = some s) :
    Guarded (x.append digest k s) := by
  have hheld := h.sending s (List.mem_of_getElem? hs)
  have hrest : ∀ s' ∈ x.sending.eraseIdx k, s' ∈ x.sending := fun _ => List.mem_of_mem_eraseIdx
  unfold LeaseWorld.append
  dsimp only
  rw [hheld]
  cases Dispatcher.appendOf s.env s.call with
  | lost => exact h.quiet rfl rfl (fun _ _ hr => hr) fun s' hs' => h.sending s' (hrest s' hs')
  | unacknowledged => exact h.appended hheld rfl rfl hrest rfl
  | acknowledged => exact h.appended hheld rfl rfl hrest rfl

lemma step (h : Guarded x) {e : LeaseStep} (htimely : x.Timely e) : Guarded (x.step digest e) := by
  cases e with
  | tick d =>
    refine h.quiet rfl rfl (fun _ _ => LeaseManager.holder_of_tick) fun s hs => ?_
    obtain ⟨r, hr⟩ := Option.ne_none_iff_exists'.mp (htimely s hs)
    have hsame := (LeaseManager.holder_of_tick hr).symm.trans (h.sending s hs)
    exact hr.trans hsame
  | acquire r a =>
    rcases (x.manager r).acquire_cases x.keys a with ⟨hfree, hpos, htrue, hholder⟩ | ⟨hfalse, hsame⟩
    · exact h.acquired hfree hpos (if_pos htrue) rfl rfl hholder
    · have hworld : x.step digest (.acquire r a) = x := by simp [LeaseWorld.step, hfalse, hsame]
      rwa [hworld]
  | renew r a =>
    have hholder : ∀ a', LeaseManager.holder ((x.manager r).renew x.keys a).2 a' =
        LeaseManager.holder x.keys a' :=
      LeaseManager.holder_renew (h.ttl a r)
    refine h.quiet rfl rfl (fun a' r' hr' => ?_) fun s hs => ?_
    · exact (hholder a').symm.trans hr'
    · exact (hholder _).trans (h.sending s hs)
  | release r a =>
    have hholder := (x.manager r).holder_release x.keys a
    refine h.quiet rfl rfl (fun a' r' hr' => ?_) fun s hs => ?_
    · have hr'' := (hholder a').symm.trans hr'
      split at hr''
      · cases hr''
      · exact hr''
    · refine (hholder _).trans ?_
      rw [if_neg]
      · exact h.sending s hs
      · intro ⟨heq, hheld⟩
        have hs' := h.sending s hs
        rw [heq] at hs'
        exact htimely s hs (Option.some.inj (hs'.symm.trans hheld)) heq
  | check r env call =>
    unfold LeaseWorld.step
    dsimp only
    split
    · rename_i hvalid
      refine h.quiet rfl rfl (fun _ _ hr => hr) fun s hs => ?_
      rcases List.mem_append.mp hs with hs | hs
      · exact h.sending s hs
      · rw [List.mem_singleton.mp hs]
        exact LeaseManager.isValid_iff.mp hvalid
    · exact h
  | remember k =>
    cases hs : x.sending[k]? with
    | none =>
      have hworld : x.step digest (.remember k) = x := by simp [LeaseWorld.step, hs]
      rwa [hworld]
    | some s =>
      have hworld : x.step digest (.remember k) =
          if s.remembered then x else x.remember digest k s := by simp [LeaseWorld.step, hs]
      rw [hworld]
      split
      · exact h
      · exact h.remember hs
  | append k =>
    cases hs : x.sending[k]? with
    | none =>
      have hworld : x.step digest (.append k) = x := by simp [LeaseWorld.step, hs]
      rwa [hworld]
    | some s =>
      have hworld : x.step digest (.append k) =
          if s.remembered then x.append digest k s else x := by simp [LeaseWorld.step, hs]
      rw [hworld]
      split
      · exact h.append hs
      · exact h

lemma steps (h : Guarded x) {l : List LeaseStep} (htimely : x.AllTimely digest l) :
    Guarded (x.steps digest l) := by
  induction l generalizing x with
  | nil => exact h
  | cons e l ih => exact ih (h.step htimely.1) htimely.2

end Guarded

/-- In a timely run, whatever runners there are and however their calls interleave, the stream is
fenced. -/
theorem fenced_of_timely (digest : Logical → String) (ttlSec maxSeen : String → ℕ)
    (l : List LeaseStep) (htimely : (init ttlSec maxSeen).AllTimely digest l) :
    ((init ttlSec maxSeen).steps digest l).Fenced :=
  ((Guarded.init ttlSec maxSeen).steps htimely).toFenced

/-- A signal of an alpha. -/
def openCall : Call where
  ctx := ⟨"alpha", "v1"⟩
  type := "OPEN"
  fields := [("position_id", .str "p1"), ("symbol", .str "BTCUSDT"), ("side", .str "LONG")]

/-- Two runners, one after the other. -/
def handover : List LeaseStep :=
  [.acquire "r1" "alpha", .check "r1" { now := "t1" } openCall, .remember 0, .append 0,
    .release "r1" "alpha", .acquire "r2" "alpha", .renew "r2" "alpha",
    .check "r2" { now := "t2" } openCall, .remember 0, .tick 19, .append 0]

theorem fenced_of_timely_handover :
    ((init (fun _ => 20) fun _ => 4096).steps (fun l => l.type) handover).Fenced :=
  fenced_of_timely (fun l => l.type) (fun _ => 20) (fun _ => 4096) handover (by decide +kernel)

/-- A dispatch is checked and remembered, and its lease runs out. Another runner takes the alpha over
and appends. Then the first append comes. -/
def lateRun : List LeaseStep :=
  [.acquire "r1" "alpha", .check "r1" { now := "t1" } openCall, .remember 0, .tick 20,
    .acquire "r2" "alpha", .check "r2" { now := "t2" } openCall, .remember 1, .append 1, .append 0]

/-- The late append is under the lease of the other runner. -/
theorem late_append : ¬ ∀ (digest : Logical → String) (ttlSec maxSeen : String → ℕ)
    (l : List LeaseStep), ((init ttlSec maxSeen).steps digest l).Fenced := by
  intro h
  have hfenced := h (fun l => l.type) (fun _ => 20) (fun _ => 4096) lateRun
  have hhistory : ((init (fun _ => 20) fun _ => 4096).steps (fun l => l.type) lateRun).history =
      [.appended "alpha" "r1" (some "r2") (openCall.payload "t1" "OPEN"),
        .appended "alpha" "r2" (some "r2") (openCall.payload "t2" "OPEN"),
        .acquired "alpha" "r2", .acquired "alpha" "r1"] := rfl
  have hheld := hfenced.held "alpha" "r1" (some "r2") (openCall.payload "t1" "OPEN")
    (by rw [hhistory]; exact List.mem_cons_self ..)
  exact absurd hheld (by decide)

end LeaseWorld

end PaperTrade.Runner
