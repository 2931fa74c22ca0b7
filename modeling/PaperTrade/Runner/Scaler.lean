import PaperTrade.Runtime.Float

/-!
# The scaler of the runners

`runner-scaler.py` looks at the loads of the runner containers in a loop and starts one more, or one fewer.
It does so only when every look of the last `sustain_sec` seconds found the same kind of load, and no sooner
than `cooldown_sec` and `sustain_sec` after the time before (`scaler_law`).
-/

namespace PaperTrade.Runner.Scaler

open PaperTrade.Runtime

/-! ## `decide_scale` -/

structure RunnerLoad where
  cpuPct : PyFloat
  memoryPct : PyFloat

structure ScaleState where
  highSince : Option ℚ := none
  lowSince : Option ℚ := none
  lastActionAt : ℚ := 0

/-- The options of the script. -/
structure Options where
  minReplicas : ℤ := 1
  maxReplicas : ℤ := 5
  sustainSec : ℚ := 120
  cooldownSec : ℚ := 300

/-- `high`. -/
def isHigh (loads : List RunnerLoad) : Bool :=
  loads.any fun load => (75 : PyFloat) < load.cpuPct ∨ (80 : PyFloat) < load.memoryPct

/-- `low`. -/
def isLow (loads : List RunnerLoad) : Bool :=
  !loads.isEmpty && loads.all fun load => load.cpuPct < 30 ∧ load.memoryPct < 50

/-- `decide_scale`. -/
def decideScale (o : Options) (loads : List RunnerLoad) (replicas : ℤ) (state : ScaleState) (now : ℚ) :
    ℤ × ScaleState :=
  if now - state.lastActionAt < o.cooldownSec then (replicas, state)
  else if isHigh loads then
    let since := state.highSince.getD now
    if o.sustainSec ≤ now - since ∧ replicas < o.maxReplicas then (replicas + 1, ⟨none, none, now⟩)
    else (replicas, { state with highSince := some since, lowSince := none })
  else if isLow loads then
    let since := state.lowSince.getD now
    if o.sustainSec ≤ now - since ∧ o.minReplicas < replicas then (replicas - 1, ⟨none, none, now⟩)
    else (replicas, { state with highSince := none, lowSince := some since })
  else (replicas, { state with highSince := none, lowSince := none })

/-! ## The loop of `main` -/

/-- One pass: the clock, the number of containers and their loads. -/
structure Look where
  now : ℚ
  containers : ℕ
  loads : List RunnerLoad

/-- `current`. -/
def current (o : Options) (look : Look) : ℤ := max o.minReplicas look.containers

def decision (o : Options) (state : ScaleState) (look : Look) : ℤ × ScaleState :=
  decideScale o look.loads (current o look) state look.now

/-- The state after some passes. -/
def run (o : Options) (looks : List Look) : ScaleState :=
  looks.foldl (fun state look => (decision o state look).2) {}

/-- What `run_compose_scale` is called with behind these passes, if it is. -/
def command (o : Options) (looks : List Look) (look : Look) : Option ℤ :=
  let desired := (decision o (run o looks) look).1
  if desired = current o look then none else some desired

/-! ## The law -/

/-- The passes up to this one have found such a load, and nothing else, for the time to be sustained. -/
def Sustained (o : Options) (kind : List RunnerLoad → Bool) (looks : List Look) (look : Look) : Prop :=
  ∃ first earlier later, looks ++ [look] = earlier ++ first :: later ∧
    o.sustainSec ≤ look.now - first.now ∧ ∀ x ∈ first :: later, kind x.loads = true

/-- A pass behind the passes in front of it. -/
def Passes (looks : List Look) (earlier : List Look) (x : Look) : Prop :=
  ∃ later, looks = earlier ++ x :: later

/-- What the state says about the passes. -/
structure Remembers (o : Options) (looks : List Look) (state : ScaleState) : Prop where
  high : ∀ t, state.highSince = some t → state.lastActionAt + o.cooldownSec ≤ t ∧
    ∃ first earlier later, looks = earlier ++ first :: later ∧ first.now = t ∧
      ∀ x ∈ first :: later, isHigh x.loads = true
  low : ∀ t, state.lowSince = some t → state.lastActionAt + o.cooldownSec ≤ t ∧
    ∃ first earlier later, looks = earlier ++ first :: later ∧ first.now = t ∧
      ∀ x ∈ first :: later, isLow x.loads = true
  actions : ∀ earlier x, Passes looks earlier x → ∀ n, command o earlier x = some n →
    x.now ≤ state.lastActionAt

section Law

variable {o : Options} {looks : List Look} {look : Look} {state : ScaleState}

/-- What a pass can do. -/
inductive Decides (o : Options) (state : ScaleState) (look : Look) : ℤ × ScaleState → Prop
  | cooling (h : look.now - state.lastActionAt < o.cooldownSec) :
    Decides o state look (current o look, state)
  | up (h : o.cooldownSec ≤ look.now - state.lastActionAt) (hhigh : isHigh look.loads = true)
      (hsustain : o.sustainSec ≤ look.now - state.highSince.getD look.now)
      (hroom : current o look < o.maxReplicas) :
    Decides o state look (current o look + 1, ⟨none, none, look.now⟩)
  | high (h : o.cooldownSec ≤ look.now - state.lastActionAt) (hhigh : isHigh look.loads = true) :
    Decides o state look
      (current o look, { state with highSince := some (state.highSince.getD look.now), lowSince := none })
  | down (h : o.cooldownSec ≤ look.now - state.lastActionAt) (hlow : isLow look.loads = true)
      (hsustain : o.sustainSec ≤ look.now - state.lowSince.getD look.now)
      (hroom : o.minReplicas < current o look) :
    Decides o state look (current o look - 1, ⟨none, none, look.now⟩)
  | low (h : o.cooldownSec ≤ look.now - state.lastActionAt) (hlow : isLow look.loads = true) :
    Decides o state look
      (current o look, { state with highSince := none, lowSince := some (state.lowSince.getD look.now) })
  | idle (h : o.cooldownSec ≤ look.now - state.lastActionAt) :
    Decides o state look (current o look, { state with highSince := none, lowSince := none })

lemma decision_cases (o : Options) (state : ScaleState) (look : Look) :
    Decides o state look (decision o state look) := by
  unfold decision decideScale
  split
  · exact .cooling ‹_›
  rename_i hcool
  have hcool := not_lt.mp hcool
  split
  · dsimp only
    split
    · rename_i hhigh hact
      exact .up hcool hhigh hact.1 hact.2
    · exact .high hcool ‹_›
  split
  · dsimp only
    split
    · rename_i hlow hact
      exact .down hcool hlow hact.1 hact.2
    · exact .low hcool ‹_›
  · exact .idle hcool

lemma run_append (o : Options) (looks : List Look) (look : Look) :
    run o (looks ++ [look]) = (decision o (run o looks) look).2 := by
  unfold run
  rw [List.foldl_append]
  rfl

lemma passes_append {earlier : List Look} {x : Look} (h : Passes (looks ++ [look]) earlier x) :
    Passes looks earlier x ∨ (earlier = looks ∧ x = look) := by
  obtain ⟨later, hlater⟩ := h
  rcases List.eq_nil_or_concat later with rfl | ⟨later, last, rfl⟩
  · obtain ⟨rfl, hx⟩ := List.append_inj' hlater rfl
    exact .inr ⟨rfl, (List.cons.inj hx).1.symm⟩
  · rw [List.concat_eq_append, ← List.cons_append, ← List.append_assoc] at hlater
    obtain ⟨rfl, -⟩ := List.append_inj' hlater rfl
    exact .inl ⟨later, rfl⟩

/-- The loads that a mark remembers go on with this pass. -/
lemma extend (kind : List RunnerLoad → Bool) {since : Option ℚ} {t : ℚ}
    (hold : ∀ t, since = some t → ∃ first earlier later, looks = earlier ++ first :: later ∧
      first.now = t ∧ ∀ x ∈ first :: later, kind x.loads = true)
    (hkind : kind look.loads = true) (ht : since.getD look.now = t) :
    ∃ first earlier later, looks ++ [look] = earlier ++ first :: later ∧ first.now = t ∧
      ∀ x ∈ first :: later, kind x.loads = true := by
  cases since with
  | none => exact ⟨look, looks, [], rfl, ht, by simpa using hkind⟩
  | some t' =>
    obtain ⟨first, earlier, later, rfl, hfirst, hall⟩ := hold t' rfl
    refine ⟨first, earlier, later ++ [look], by simp, hfirst.trans ht, ?_⟩
    intro x hx
    rw [← List.cons_append, List.mem_append, List.mem_singleton] at hx
    rcases hx with hx | rfl
    · exact hall x hx
    · exact hkind

/-- A clock that does not run backwards. -/
def Clock (looks : List Look) : Prop := looks.Pairwise (·.now ≤ ·.now)

lemma clock_last (hclock : Clock (looks ++ [look])) {earlier later : List Look} {x : Look}
    (hx : looks = earlier ++ x :: later) : x.now ≤ look.now := by
  have hall := (List.pairwise_append.mp hclock).2.2
  exact hall x (by rw [hx]; simp) look (by simp)

/-- Right after a command there is no mark, and none is set before the cooldown is over. -/
lemma Remembers.cooling (hclock : Clock (looks ++ [look])) (hrem : Remembers o looks state)
    (hcool : look.now - state.lastActionAt < o.cooldownSec) :
    state.highSince = none ∧ state.lowSince = none := by
  constructor
  · by_contra hsome
    obtain ⟨t, ht⟩ := Option.ne_none_iff_exists'.mp hsome
    obtain ⟨hmark, first, earlier, later, hlooks, hfirst, -⟩ := hrem.high t ht
    have hlast := clock_last hclock hlooks
    linarith
  · by_contra hsome
    obtain ⟨t, ht⟩ := Option.ne_none_iff_exists'.mp hsome
    obtain ⟨hmark, first, earlier, later, hlooks, hfirst, -⟩ := hrem.low t ht
    have hlast := clock_last hclock hlooks
    linarith

/-- A pass that scales nothing adds nothing to the commands. -/
lemma command_of_same {s : ScaleState} (hsame : decision o (run o looks) look = (current o look, s)) :
    command o looks look = none := by
  unfold command
  rw [hsame]
  exact if_pos rfl

lemma actions_same {s : ScaleState} (hrem : Remembers o looks (run o looks))
    (hsame : decision o (run o looks) look = (current o look, s)) :
    ∀ earlier x, Passes (looks ++ [look]) earlier x → ∀ n, command o earlier x = some n →
      x.now ≤ (run o looks).lastActionAt := by
  intro earlier x hx n hn
  rcases passes_append hx with hx | ⟨rfl, rfl⟩
  · exact hrem.actions earlier x hx n hn
  · rw [command_of_same hsame] at hn
    simp at hn

lemma actions_now (hclock : Clock (looks ++ [look])) :
    ∀ earlier x, Passes (looks ++ [look]) earlier x → ∀ n, command o earlier x = some n →
      x.now ≤ look.now := by
  intro earlier x hx n _
  rcases passes_append hx with ⟨later, hx⟩ | ⟨rfl, rfl⟩
  · exact clock_last hclock hx
  · exact le_refl _

/-- The mark of a kind of load is behind the cooldown, whether it was set before or now. -/
lemma since_ge (look : Look) {since : Option ℚ}
    (hmark : ∀ t, since = some t → state.lastActionAt + o.cooldownSec ≤ t)
    (h : o.cooldownSec ≤ look.now - state.lastActionAt) :
    state.lastActionAt + o.cooldownSec ≤ since.getD look.now := by
  cases since with
  | none => show _ ≤ look.now; linarith
  | some t => exact hmark t rfl

/-- One pass. -/
lemma Remembers.step (hclock : Clock (looks ++ [look])) (hrem : Remembers o looks (run o looks)) :
    Remembers o (looks ++ [look]) (run o (looks ++ [look])) := by
  rw [run_append]
  have hcases := decision_cases o (run o looks) look
  generalize hdec : decision o (run o looks) look = out at hcases
  cases hcases with
  | cooling h =>
    obtain ⟨hhigh, hlow⟩ := hrem.cooling hclock h
    exact ⟨fun t ht => by rw [hhigh] at ht; simp at ht, fun t ht => by rw [hlow] at ht; simp at ht,
      actions_same hrem hdec⟩
  | up h hhigh hsustain hroom =>
    exact ⟨fun t ht => by simp at ht, fun t ht => by simp at ht, actions_now hclock⟩
  | high h hhigh =>
    refine ⟨fun t ht => ?_, fun t ht => by simp at ht, actions_same hrem hdec⟩
    have ht := Option.some.inj ht
    exact ⟨ht ▸ since_ge look (fun t ht => (hrem.high t ht).1) h,
      extend isHigh (fun t ht => (hrem.high t ht).2) hhigh ht⟩
  | down h hlow hsustain hroom =>
    exact ⟨fun t ht => by simp at ht, fun t ht => by simp at ht, actions_now hclock⟩
  | low h hlow =>
    refine ⟨fun t ht => by simp at ht, fun t ht => ?_, actions_same hrem hdec⟩
    have ht := Option.some.inj ht
    exact ⟨ht ▸ since_ge look (fun t ht => (hrem.low t ht).1) h,
      extend isLow (fun t ht => (hrem.low t ht).2) hlow ht⟩
  | idle h =>
    exact ⟨fun t ht => by simp at ht, fun t ht => by simp at ht, actions_same hrem hdec⟩

lemma remembers_run (hclock : Clock looks) : Remembers o looks (run o looks) := by
  induction looks using List.reverseRecOn with
  | nil =>
    refine ⟨fun t ht => by simp [run] at ht, fun t ht => by simp [run] at ht, ?_⟩
    rintro earlier x ⟨later, hlater⟩
    simp at hlater
  | append_singleton looks look ih => exact Remembers.step hclock (ih (List.pairwise_append.mp hclock).1)

/-- A command is `current` and one more or one less, within the bounds. -/
lemma command_cases {n : ℤ} (hn : command o looks look = some n) :
    let state := run o looks
    o.cooldownSec ≤ look.now - state.lastActionAt ∧
      ((n = current o look + 1 ∧ n ≤ o.maxReplicas ∧ isHigh look.loads = true ∧
          o.sustainSec ≤ look.now - state.highSince.getD look.now) ∨
        (n = current o look - 1 ∧ o.minReplicas ≤ n ∧ isLow look.loads = true ∧
          o.sustainSec ≤ look.now - state.lowSince.getD look.now)) := by
  have hcases := decision_cases o (run o looks) look
  unfold command at hn
  generalize decision o (run o looks) look = out at hcases hn
  cases hcases with
  | up h hhigh hsustain hroom =>
    have hn : current o look + 1 = n := by simpa using hn
    exact ⟨h, .inl ⟨hn.symm, by omega, hhigh, hsustain⟩⟩
  | down h hlow hsustain hroom =>
    have hn : current o look - 1 = n := by simpa using hn
    exact ⟨h, .inr ⟨hn.symm, by omega, hlow, hsustain⟩⟩
  | cooling h | high h _ | low h _ | idle h => simp at hn

/-- The scaler acts on sustained loads only, one container at a time and within its bounds, and between
two commands lie the cooldown and the time to be sustained. -/
theorem scaler_law (o : Options) (looks : List Look) (look : Look) (hclock : Clock (looks ++ [look]))
    (n : ℤ) (hn : command o looks look = some n) :
    ((n = current o look + 1 ∧ n ≤ o.maxReplicas ∧ Sustained o isHigh looks look) ∨
      (n = current o look - 1 ∧ o.minReplicas ≤ n ∧ Sustained o isLow looks look)) ∧
    ∀ earlier x, Passes looks earlier x → ∀ m, command o earlier x = some m →
      x.now + o.cooldownSec + o.sustainSec ≤ look.now := by
  have hrem := remembers_run (o := o) (List.pairwise_append.mp hclock).1
  obtain ⟨hcool, hkind⟩ := command_cases hn
  constructor
  · rcases hkind with ⟨hn, hmax, hhigh, hsustain⟩ | ⟨hn, hmin, hlow, hsustain⟩
    · refine .inl ⟨hn, hmax, ?_⟩
      obtain ⟨first, earlier, later, hlooks, hfirst, hall⟩ :=
        extend isHigh (fun t ht => (hrem.high t ht).2) hhigh rfl
      exact ⟨first, earlier, later, hlooks, hfirst ▸ hsustain, hall⟩
    · refine .inr ⟨hn, hmin, ?_⟩
      obtain ⟨first, earlier, later, hlooks, hfirst, hall⟩ :=
        extend isLow (fun t ht => (hrem.low t ht).2) hlow rfl
      exact ⟨first, earlier, later, hlooks, hfirst ▸ hsustain, hall⟩
  · intro earlier x hx m hm
    have hlast := hrem.actions earlier x hx m hm
    rcases hkind with ⟨-, -, -, hsustain⟩ | ⟨-, -, -, hsustain⟩
    · have hmark := since_ge look (fun t ht => (hrem.high t ht).1) hcool
      linarith
    · have hmark := since_ge look (fun t ht => (hrem.low t ht).1) hcool
      linarith

end Law

/-! ## Two commands -/

/-- A pass a minute, one busy container. -/
def busyMinute (k : ℕ) : Look := ⟨1000 + 60 * k, 1 + k / 3, [⟨90, 40⟩]⟩

/-- Two commands of a busy hour: the second comes as soon as it may. -/
theorem scaler_law_busy :
    (command {} [busyMinute 0, busyMinute 1] (busyMinute 2) = some 2 ∧
      command {} ((List.range 9).map busyMinute) (busyMinute 9) = some 5) ∧
    (busyMinute 2).now + 300 + 120 ≤ (busyMinute 9).now := by
  have hfirst : command {} [busyMinute 0, busyMinute 1] (busyMinute 2) = some 2 := by decide +kernel
  have hsecond : command {} ((List.range 9).map busyMinute) (busyMinute 9) = some 5 := by decide +kernel
  have hclock : Clock ((List.range 9).map busyMinute ++ [busyMinute 9]) := by
    unfold Clock
    decide +kernel
  have hpass : Passes ((List.range 9).map busyMinute) [busyMinute 0, busyMinute 1] (busyMinute 2) :=
    ⟨(List.range 6).map fun k => busyMinute (k + 3), rfl⟩
  exact ⟨⟨hfirst, hsecond⟩, (scaler_law {} _ _ hclock 5 hsecond).2 _ _ hpass 2 hfirst⟩

end PaperTrade.Runner.Scaler
