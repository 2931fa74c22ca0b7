import PaperTrade.Worker.Rows

/-!
# The duplicate-position guard

With the policy `reject` an OPEN that does not opt in with `allow_duplicate_position` finds no open
position of its alpha and symbol. Of two rows that such OPENs have created, the earlier one would
have been in the way of the later one, so there is at most one of them for each alpha and symbol
(`one_guarded_position`).
-/

namespace PaperTrade.Worker

open PaperTrade.Runtime

lemma deliverAll_append (ex : Executor) (s : Tables) (ms ms' : List Delivery) :
    deliverAll ex s (ms ++ ms') = deliverAll ex (deliverAll ex s ms) ms' :=
  List.foldl_append ..

lemma deliverAll_split (ex : Executor) (s : Tables) (pre : List Delivery) (m : Delivery)
    (post : List Delivery) : deliverAll ex s (pre ++ m :: post) =
      deliverAll ex (deliver ex (deliverAll ex s pre) m) post :=
  deliverAll_append ex s pre (m :: post)

/-- In a run from the empty database the message `m` creates the row of the id, and the row stays
to the end. -/
structure OpenedAt (ex : Executor) (id : String) (signal : OpenSignal) (pre : List Delivery)
    (m : Delivery) (post : List Delivery) : Prop where
  parsed : parseSignal m.data = .ok (.open signal)
  new : (deliverAll ex .empty pre).positions.contains id = false
  stays : Stays ex (deliver ex (deliverAll ex .empty pre) m) post id

/-- The row of the id has been created by this OPEN. -/
def CreatedBy (ex : Executor) (ms : List Delivery) (id : String) (signal : OpenSignal) : Prop :=
  ∃ pre m post, ms = pre ++ m :: post ∧ OpenedAt ex id signal pre m post

section Creation

variable {ex : Executor} {id : String} {signal : OpenSignal} {pre post : List Delivery}
  {m : Delivery}

/-- The row as it was created. -/
lemma OpenedAt.row (h : OpenedAt ex id signal pre m post) :
    ¬ Blocks ex (deliverAll ex .empty pre) signal ∧
      ∃ r ∈ (deliver ex (deliverAll ex .empty pre) m).positions.rows, r.positionId = id ∧
        r = ex.openRow m.env signal (fillAt m.env (deliverAll ex .empty pre) (.open signal)) := by
  have hold := (Table.not_contains_iff _ _).mp h.new
  obtain ⟨r, hr, hid⟩ := (Table.contains_iff _ _).mp h.stays.head
  cases deliver_rows ex m _ hr with
  | kept hkept => exact absurd hid (hold r hkept)
  | opened hparse hblocks _ hrow =>
    rw [h.parsed] at hparse
    cases hparse
    exact ⟨hblocks, r, hr, hid, hrow⟩
  | modified _ hp _ _ hrow =>
    subst hrow
    exact (hold _ hp hid).elim
  | reduced _ hp _ hrow =>
    subst hrow
    exact (hold _ hp hid).elim

/-- One message creates one row. -/
lemma OpenedAt.unique {id' : String} {signal' : OpenSignal} (h : OpenedAt ex id signal pre m post)
    (h' : OpenedAt ex id' signal' pre m post) : id' = id := by
  have hsignal : signal' = signal := by
    have hparse := h'.parsed
    rw [h.parsed] at hparse
    cases hparse
    rfl
  subst hsignal
  obtain ⟨-, r, -, rfl, hrow⟩ := h.row
  obtain ⟨-, r', -, rfl, hrow'⟩ := h'.row
  rw [hrow, hrow']

/-- The row at the end of the run belongs to the alpha and the symbol of its OPEN. -/
lemma OpenedAt.owner (h : OpenedAt ex id signal pre m post) {p : PositionRow}
    (hp : p ∈ (deliverAll ex .empty (pre ++ m :: post)).positions.rows)
    (hid : p.positionId = id) : p.alphaId = signal.alphaId ∧ p.symbol = signal.symbol := by
  obtain ⟨-, r, hr, rfl, hrow⟩ := h.row
  rw [deliverAll_split] at hp
  have hsame := h.stays.sameOwner hr hp hid
  rw [hsame.alphaId, hsame.symbol, hrow]
  exact ⟨rfl, rfl⟩

/-- While the row is open, an OPEN of its alpha and symbol is blocked unless it opts in. -/
lemma OpenedAt.blocks {id' : String} {signal' : OpenSignal} {mid post' : List Delivery}
    {m' : Delivery} (hreject : ex.duplicatePolicy = "reject")
    (h : OpenedAt ex id signal pre m (mid ++ m' :: post'))
    (h' : OpenedAt ex id' signal' (pre ++ m :: mid) m' post')
    (halpha : signal'.alphaId = signal.alphaId) (hsymbol : signal'.symbol = signal.symbol) :
    Executor.allowsDuplicatePosition signal' = true := by
  by_contra hallows
  obtain ⟨hblocks, -⟩ := h'.row
  obtain ⟨-, r, hr, rfl, hrow⟩ := h.row
  have hmid : mid <+: mid ++ m' :: post' := List.prefix_append ..
  -- the row is still there when the second OPEN arrives
  obtain ⟨p, hp, hid⟩ := (Table.contains_iff _ _).mp (h.stays mid hmid)
  have hstays : Stays ex (deliver ex (deliverAll ex .empty pre) m) mid r.positionId :=
    fun ms hms => h.stays ms (hms.trans hmid)
  have howner := hstays.sameOwner hr hp hid
  refine hblocks ⟨?_, hreject, hallows⟩
  rw [deliverAll_split, openPosition?, List.find?_isSome]
  refine ⟨p, hp, ?_⟩
  simp [howner.alphaId, howner.symbol, hrow, Executor.openRow, halpha, hsymbol]

end Creation

/-- Every row has been created by an OPEN. -/
theorem exists_createdBy (ex : Executor) (ms : List Delivery) {p : PositionRow}
    (hp : p ∈ (deliverAll ex .empty ms).positions.rows) :
    ∃ signal, CreatedBy ex ms p.positionId signal := by
  induction ms using List.reverseRecOn generalizing p with
  | nil => cases hp
  | append_singleton ms m ih =>
    have hlast : deliverAll ex .empty (ms ++ [m]) = deliver ex (deliverAll ex .empty ms) m :=
      deliverAll_append ex .empty ms [m]
    rw [hlast] at hp
    -- a row that was there before keeps its OPEN
    have hold : ∀ q ∈ (deliverAll ex .empty ms).positions.rows, q.positionId = p.positionId →
        ∃ signal, CreatedBy ex (ms ++ [m]) p.positionId signal := by
      intro q hq hid
      obtain ⟨signal, pre, m₀, post, rfl, hopened⟩ := ih hq
      rw [hid] at hopened
      refine ⟨signal, pre, m₀, post ++ [m], by simp, hopened.parsed, hopened.new, ?_⟩
      intro mid hmid
      rcases List.prefix_concat_iff.mp hmid with rfl | hmid
      · rw [deliverAll_append, ← deliverAll_split]
        exact (Table.contains_iff _ _).mpr ⟨p, hp, rfl⟩
      · exact hopened.stays mid hmid
    cases deliver_rows ex m _ hp with
    | kept hkept => exact hold p hkept rfl
    | modified _ hq _ _ hrow => exact hold _ hq (by rw [hrow]; rfl)
    | reduced _ hq _ hrow => exact hold _ hq (by rw [hrow]; rfl)
    | @opened signal hparse _ hnew _ =>
      refine ⟨signal, ms, m, [], rfl, hparse, hnew, fun mid hmid => ?_⟩
      rw [List.prefix_nil.mp hmid]
      exact (Table.contains_iff _ _).mpr ⟨p, hp, rfl⟩

lemma rejectedOpen_positions {ex : Executor} {m : Delivery} {s : Tables} {signal : OpenSignal}
    (hparse : parseSignal m.data = .ok (.open signal)) (hrejected : ¬ Accepted ex s m) :
    (deliver ex s m).positions = s.positions := by
  have hd := deliver_cases ex m s
  unfold Accepted at hrejected
  generalize deliver ex s m = s', reply ex s m = r at hd hrejected
  cases hd with
  | duplicate _ => rfl
  | unparsable _ _ => rfl
  | accepted _ _ _ => exact absurd rfl hrejected
  | rejected _ hparse' h =>
    rw [hparse] at hparse'
    cases hparse'
    cases h <;> rfl

/-- For every alpha and symbol at most one open row was created by an OPEN that did not opt in, and
an OPEN that is not accepted leaves the positions as they are. -/
theorem one_guarded_position (ex : Executor) (ms : List Delivery)
    (hreject : ex.duplicatePolicy = "reject") :
    (∀ p ∈ (deliverAll ex .empty ms).positions.rows,
      ∀ q ∈ (deliverAll ex .empty ms).positions.rows, p.alphaId = q.alphaId → p.symbol = q.symbol →
      ∀ signal signal', CreatedBy ex ms p.positionId signal →
        CreatedBy ex ms q.positionId signal' →
        ¬ Executor.allowsDuplicatePosition signal = true →
        ¬ Executor.allowsDuplicatePosition signal' = true → p = q) ∧
    ∀ m signal, parseSignal m.data = .ok (.open signal) →
      ¬ Accepted ex (deliverAll ex .empty ms) m →
      (deliver ex (deliverAll ex .empty ms) m).positions =
        (deliverAll ex .empty ms).positions := by
  refine ⟨?_, fun m signal hparse hrejected => rejectedOpen_positions hparse hrejected⟩
  rintro p hp q hq halpha hsymbol signal signal' ⟨pre, m, post, hms, hopened⟩
    ⟨pre', m', post', hms', hopened'⟩ hguarded hguarded'
  have howner := hopened.owner (hms ▸ hp) rfl
  have howner' := hopened'.owner (hms' ▸ hq) rfl
  have halphas : signal'.alphaId = signal.alphaId :=
    howner'.1.symm.trans (halpha.symm.trans howner.1)
  have hsymbols : signal'.symbol = signal.symbol :=
    howner'.2.symm.trans (hsymbol.symm.trans howner.2)
  have hsame : q.positionId = p.positionId → p = q := fun hid =>
    Table.eq_of_key_eq _ hp hq hid.symm
  rcases List.append_eq_append_iff.mp (hms.symm.trans hms') with
    ⟨mid, hpre, hpost⟩ | ⟨mid, hpre, hpost⟩
  · cases mid with
    | nil =>
      rw [List.append_nil] at hpre
      cases hpost
      rw [hpre] at hopened'
      exact hsame (hopened.unique hopened')
    | cons m₀ mid =>
      rw [List.cons_append] at hpost
      cases hpost
      rw [hpre] at hopened'
      exact absurd (hopened.blocks hreject hopened' halphas hsymbols) hguarded'
  · cases mid with
    | nil =>
      rw [List.append_nil] at hpre
      cases hpost
      rw [hpre] at hopened
      exact hsame (hopened.unique hopened')
    | cons m₀ mid =>
      rw [List.cons_append] at hpost
      cases hpost
      rw [hpre] at hopened
      exact absurd (hopened'.blocks hreject hopened halphas.symm hsymbols.symm) hguarded

/-- An OPEN of BTCUSDT that does not opt in. -/
def openBtc (signalId positionId : String) : Delivery where
  data :=
    { type := "OPEN", alphaId := "alpha", signalId := signalId, symbol := "BTCUSDT", side := "LONG"
      positionId := positionId, timestamp := "2024-01-01T00:00:00Z"
      entry := some (.chars "100"), qty := some (.chars "10") }
  env := { now := "2024-01-01T00:00:00", uuid := "u1" }

theorem one_guarded_position_openBtc :
    ¬ Accepted {} (deliverAll {} .empty [openBtc "s1" "p1"]) (openBtc "s2" "p2") ∧
      (deliver {} (deliverAll {} .empty [openBtc "s1" "p1"]) (openBtc "s2" "p2")).positions =
        (deliverAll {} .empty [openBtc "s1" "p1"]).positions := by
  have hrejected : ¬ (reply {} (deliverAll {} .empty [openBtc "s1" "p1"])
      (openBtc "s2" "p2")).isSome = true := by decide +kernel
  have hopen : (openOf (parseSignal (openBtc "s2" "p2").data)).isSome = true := by decide +kernel
  obtain ⟨signal, hsignal⟩ := Option.isSome_iff_exists.mp hopen
  exact ⟨hrejected, (one_guarded_position {} [openBtc "s1" "p1"] rfl).2 _ signal
    (openOf_eq_some.mp hsignal) hrejected⟩

end PaperTrade.Worker
